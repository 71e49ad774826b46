import FilterSql.Json.FilterForm
import Mathlib

/-!
# The JSON form of a filter is faithful

Writing a filter and reading it back gives the filter (`Filter.ofJson?_toJson`).
Reading accepts more than writing produces, so the converse does not hold: many
JSON values are read as one filter, and writing it again gives only one of them.

What is lost is spelled out by `Json.Respelled`. Of a node with fields, the order
of the fields and any field that is not asked for may differ; a name that stands
alone, `null` or an operator, may be an object with the field `null` instead; and
the operands may be respelled in turn. Reading does not see any of it
(`Json.Respelled.ofJson?_eq`). And there is nothing else that it does not see: a
value whose keys are distinct is read as a filter if and only if it is a
respelling of what the filter is written as (`Filter.ofJson?_faithful`).
-/

namespace FilterSql

namespace Json

/-! ## Fields -/

/-- With distinct keys, what is found for a key is what stands there. -/
theorem lookup_eq_some_iff_mem {fields : List (String × Json)} (h : (fields.map Prod.fst).Nodup)
    {key : String} {j : Json} : fields.lookup key = some j ↔ (key, j) ∈ fields := by
  induction fields with
  | nil => simp
  | cons p fields ih =>
    obtain ⟨key', j'⟩ := p
    obtain ⟨hnotMem, hnodup⟩ := List.nodup_cons.1 h
    rw [List.lookup_cons, List.mem_cons, Prod.mk.injEq]
    by_cases hkey : key = key'
    · subst hkey
      have hother : (key, j) ∉ fields := fun hmem => hnotMem (List.mem_map.2 ⟨_, hmem, rfl⟩)
      simp [hother, eq_comm]
    · rw [beq_false_of_ne hkey]
      simp [hkey, ih hnodup]

/-- **The order of fields makes no difference** to what is found. -/
theorem lookup_eq_of_perm {fields fields' : List (String × Json)}
    (h : (fields.map Prod.fst).Nodup) (hperm : fields.Perm fields') (key : String) :
    fields.lookup key = fields'.lookup key := by
  have h' : (fields'.map Prod.fst).Nodup := (hperm.map Prod.fst).nodup_iff.1 h
  ext j
  rw [lookup_eq_some_iff_mem h, lookup_eq_some_iff_mem h', hperm.mem_iff]

theorem lookup_append_cons_of_ne {key key' : String} (h : key ≠ key')
    (before after : List (String × Json)) (j : Json) :
    (before ++ (key', j) :: after).lookup key = (before ++ after).lookup key := by
  rw [List.lookup_append, List.lookup_append, List.lookup_cons, beq_false_of_ne h]

/-! ## Nodes and their spellings -/

/-- A node with fields: an object whose only field names the node. -/
def node (tag : String) (fields : List (String × Json)) : Json :=
  object [(tag, object fields)]

/-- The fields that are read of a node. -/
def expected (tag : String) : List String :=
  if tag = "Binary" then ["operator", "left", "right"]
  else if tag = "Not" then ["right"]
  else []

/-- **One JSON value is a respelling of another**, as the form of a filter. -/
inductive Respelled : Json → Json → Prop
  | refl (j : Json) : Respelled j j
  | symm {j k : Json} : Respelled j k → Respelled k j
  | trans {i j k : Json} : Respelled i j → Respelled j k → Respelled i k
  /-- The literal `null` as an object. -/
  | null : Respelled (string "NullLiteral") (object [("NullLiteral", null)])
  /-- An operator as an object. -/
  | operator (name : String) (before after : List (String × Json)) :
    Respelled (node "Binary" (before ++ ("operator", string name) :: after))
      (node "Binary" (before ++ ("operator", object [(name, null)]) :: after))
  /-- The fields in another order. -/
  | order (tag : String) {fields fields' : List (String × Json)} :
    (fields.map Prod.fst).Nodup → fields.Perm fields' →
      Respelled (node tag fields) (node tag fields')
  /-- A field more, of a name that is not read. -/
  | extra (tag : String) {key : String} (j : Json) (before after : List (String × Json)) :
    key ∉ expected tag → Respelled (node tag (before ++ (key, j) :: after))
      (node tag (before ++ after))
  /-- Another spelling of an operand. -/
  | operand (tag : String) {key : String} {j k : Json} (before after : List (String × Json)) :
    key ≠ "operator" → Respelled j k →
      Respelled (node tag (before ++ (key, j) :: after)) (node tag (before ++ (key, k) :: after))

end Json

open Json

/-! ## Reading does not see the spelling -/

namespace Filter

theorem lookup_ofFields (key : String) (fields : List (String × Json)) :
    (ofFields fields).lookup key = (fields.lookup key).map ofJson? := by
  induction fields with
  | nil => rfl
  | cons p fields ih =>
    obtain ⟨key', j⟩ := p
    rw [ofFields, List.lookup_cons, List.lookup_cons]
    cases key == key' with
    | true => rfl
    | false => exact ih

/-- **What is read of a node**: the fields that are expected, and those only. -/
theorem ofJson?_node (tag : String) (fields : List (String × Json)) :
    ofJson? (node tag fields)
      = if tag = "Binary" then do
          let op ← (fields.lookup "operator").bind Operator.ofJson?
          return binary op (← (fields.lookup "left").bind ofJson?)
            (← (fields.lookup "right").bind ofJson?)
        else if tag = "Not" then ((fields.lookup "right").bind ofJson?).map not
        else none := by
  have hjoin : ∀ key, ((ofFields fields).lookup key).join = (fields.lookup key).bind ofJson? := by
    intro key
    rw [lookup_ofFields]
    cases fields.lookup key <;> rfl
  unfold node
  rw [ofJson?]
  simp only [hjoin]

/-- Two fields of a node are read alike: as operators if the key says so, and as
filters otherwise. -/
def ReadAlike (key : String) (j k : Option Json) : Prop :=
  if key = "operator" then j.bind Operator.ofJson? = k.bind Operator.ofJson?
  else j.bind ofJson? = k.bind ofJson?

theorem readAlike_of_eq (key : String) {j k : Option Json} (h : j = k) : ReadAlike key j k := by
  subst h
  unfold ReadAlike
  split <;> rfl

/-- Nodes are read alike if the expected fields are. -/
theorem ofJson?_node_congr {tag : String} {fields fields' : List (String × Json)}
    (h : ∀ key ∈ expected tag, ReadAlike key (fields.lookup key) (fields'.lookup key)) :
    ofJson? (node tag fields) = ofJson? (node tag fields') := by
  rw [ofJson?_node, ofJson?_node]
  by_cases hbinary : tag = "Binary"
  · subst hbinary
    have hoperator := h "operator" (by simp [expected])
    have hleft := h "left" (by simp [expected])
    have hright := h "right" (by simp [expected])
    rw [ReadAlike, if_pos rfl] at hoperator
    rw [ReadAlike, if_neg (by decide)] at hleft hright
    rw [if_pos rfl, if_pos rfl, hoperator, hleft, hright]
  · rw [if_neg hbinary, if_neg hbinary]
    by_cases hnot : tag = "Not"
    · subst hnot
      have hright := h "right" (by simp [expected])
      rw [ReadAlike, if_neg (by decide)] at hright
      rw [if_pos rfl, if_pos rfl, hright]
    · rw [if_neg hnot, if_neg hnot]

/-- A field may be replaced by one that is read alike. -/
theorem readAlike_append_cons {key : String} {j k : Json} (h : ReadAlike key (some j) (some k))
    (key' : String) (before after : List (String × Json)) :
    ReadAlike key' ((before ++ (key, j) :: after).lookup key')
      ((before ++ (key, k) :: after).lookup key') := by
  by_cases hkey : key' = key
  · subst hkey
    rw [List.lookup_append, List.lookup_append, List.lookup_cons_self, List.lookup_cons_self]
    cases before.lookup key' with
    | none => exact h
    | some i => exact readAlike_of_eq _ rfl
  · refine readAlike_of_eq _ ?_
    rw [lookup_append_cons_of_ne hkey, lookup_append_cons_of_ne hkey]

end Filter

/-- **Reading does not see how a value is spelled.** -/
theorem Json.Respelled.ofJson?_eq {j k : Json} (h : Respelled j k) :
    Filter.ofJson? j = Filter.ofJson? k := by
  induction h with
  | refl j => rfl
  | symm _ ih => exact ih.symm
  | trans _ _ ih ih' => exact ih.trans ih'
  | null => rfl
  | operator name before after =>
    refine Filter.ofJson?_node_congr fun key _ => ?_
    refine Filter.readAlike_append_cons ?_ key before after
    rw [Filter.ReadAlike, if_pos rfl]
    rfl
  | order tag hnodup hperm =>
    exact Filter.ofJson?_node_congr fun key _ =>
      Filter.readAlike_of_eq key (lookup_eq_of_perm hnodup hperm key)
  | extra tag j before after hkey =>
    refine Filter.ofJson?_node_congr fun key' hkey' => Filter.readAlike_of_eq key' ?_
    refine lookup_append_cons_of_ne ?_ before after j
    rintro rfl
    exact hkey hkey'
  | operand tag before after hkey _ ih =>
    refine Filter.ofJson?_node_congr fun key' _ => ?_
    refine Filter.readAlike_append_cons ?_ key' before after
    rw [Filter.ReadAlike, if_neg hkey]
    exact ih

/-! ## What is read is a respelling of what is written -/

namespace Json

mutual

/-- No object in the value has two fields of one name. -/
def DistinctKeys : Json → Prop
  | array items => DistinctKeysItems items
  | object fields => (fields.map Prod.fst).Nodup ∧ DistinctKeysFields fields
  | null | bool _ | int _ | float _ | string _ => True

/-- No object in the items of an array has two fields of one name. -/
def DistinctKeysItems : List Json → Prop
  | [] => True
  | j :: rest => DistinctKeys j ∧ DistinctKeysItems rest

/-- No object in the fields of an object has two fields of one name. -/
def DistinctKeysFields : List (String × Json) → Prop
  | [] => True
  | (_, j) :: rest => DistinctKeys j ∧ DistinctKeysFields rest

end

theorem DistinctKeysFields.of_mem {fields : List (String × Json)} (h : DistinctKeysFields fields)
    {key : String} {j : Json} (hj : (key, j) ∈ fields) : j.DistinctKeys := by
  induction fields with
  | nil => cases hj
  | cons p fields ih =>
    rcases List.mem_cons.1 hj with rfl | hj
    · exact h.1
    · exact ih h.2 hj

/-- Of a node with distinct keys, so are the values of its fields. -/
theorem DistinctKeys.of_node {tag : String} {fields : List (String × Json)}
    (h : (node tag fields).DistinctKeys) :
    (fields.map Prod.fst).Nodup
      ∧ ∀ key j, fields.lookup key = some j → j.DistinctKeys := by
  obtain ⟨-, ⟨hnodup, hfields⟩, -⟩ := h
  exact ⟨hnodup, fun key j hj => hfields.of_mem ((lookup_eq_some_iff_mem hnodup).1 hj)⟩

theorem nodup_expected (tag : String) : (expected tag).Nodup := by
  unfold expected
  split
  · decide
  · split <;> simp

/-- Fields that are not read may all be left out. -/
theorem Respelled.append_extras (tag : String) (fields : List (String × Json))
    {rest : List (String × Json)} (h : ∀ p ∈ rest, p.1 ∉ expected tag) :
    Respelled (node tag (fields ++ rest)) (node tag fields) := by
  induction rest with
  | nil =>
    rw [List.append_nil]
    exact .refl _
  | cons p rest ih =>
    obtain ⟨hp, hrest⟩ := List.forall_mem_cons.1 h
    exact .trans (.extra tag p.2 fields rest hp) (ih hrest)

/-- **A node may be reduced to the expected fields**, in their order. -/
theorem Respelled.pick (tag : String) {fields : List (String × Json)}
    (hnodup : (fields.map Prod.fst).Nodup) (found : String → Json)
    (hfound : ∀ key ∈ expected tag, fields.lookup key = some (found key)) :
    Respelled (node tag fields) (node tag ((expected tag).map fun key => (key, found key))) := by
  have hpicked : (fields.filter fun p => p.1 ∈ expected tag).Perm
      ((expected tag).map fun key => (key, found key)) := by
    have hinj : Function.Injective fun key => (key, found key) :=
      fun key key' h => (Prod.mk.inj h).1
    refine (List.perm_ext_iff_of_nodup (hnodup.of_map.filter _)
      ((nodup_expected tag).map hinj)).2 fun p => ?_
    obtain ⟨key, j⟩ := p
    rw [List.mem_filter, List.mem_map, decide_eq_true_iff]
    constructor
    · rintro ⟨hmem, hkey⟩
      have hj := (lookup_eq_some_iff_mem hnodup).2 hmem
      rw [hfound key hkey] at hj
      exact ⟨key, hkey, by rw [Option.some.inj hj]⟩
    · rintro ⟨key', hkey, heq⟩
      obtain ⟨rfl, rfl⟩ := Prod.mk.inj heq
      exact ⟨(lookup_eq_some_iff_mem hnodup).1 (hfound key' hkey), hkey⟩
  have hsplit := (List.filter_append_perm (fun p => decide (p.1 ∈ expected tag)) fields).symm
  refine .trans (.order tag hnodup (hsplit.trans (hpicked.append_right _))) ?_
  refine .append_extras tag _ fun p hp => ?_
  simpa using (List.mem_filter.1 hp).2

end Json

namespace Filter

/-- A node that is read has the expected fields, and they are read as its
parts. -/
theorem ofJson?_node_cases {tag : String} {fields : List (String × Json)} {f : Filter}
    (h : ofJson? (node tag fields) = some f) :
    (∃ k g, tag = "Not" ∧ f = not g ∧ fields.lookup "right" = some k ∧ ofJson? k = some g)
      ∨ ∃ o x y op l r, tag = "Binary" ∧ f = binary op l r
          ∧ fields.lookup "operator" = some o ∧ Operator.ofJson? o = some op
          ∧ fields.lookup "left" = some x ∧ ofJson? x = some l
          ∧ fields.lookup "right" = some y ∧ ofJson? y = some r := by
  rw [ofJson?_node] at h
  split_ifs at h with hbinary hnot
  · obtain ⟨op, hop, h⟩ := Option.bind_eq_some_iff.1 h
    obtain ⟨l, hl, h⟩ := Option.bind_eq_some_iff.1 h
    obtain ⟨r, hr, h⟩ := Option.bind_eq_some_iff.1 h
    obtain ⟨o, ho, hop⟩ := Option.bind_eq_some_iff.1 hop
    obtain ⟨x, hx, hl⟩ := Option.bind_eq_some_iff.1 hl
    obtain ⟨y, hy, hr⟩ := Option.bind_eq_some_iff.1 hr
    exact .inr ⟨o, x, y, op, l, r, hbinary, (Option.some.inj h).symm, ho, hop, hx, hl, hy, hr⟩
  · obtain ⟨g, hg, rfl⟩ := Option.map_eq_some_iff.1 h
    obtain ⟨k, hk, hg⟩ := Option.bind_eq_some_iff.1 hg
    exact .inl ⟨k, g, hnot, rfl, hk, hg⟩

/-- What is read as a filter is what is written for it, `null` as an object, or a
node with fields. -/
theorem ofJson?_cases {j : Json} {f : Filter} (h : ofJson? j = some f) :
    j = f.toJson ∨ (j = object [("NullLiteral", Json.null)] ∧ f = null)
      ∨ ∃ tag fields, j = node tag fields := by
  unfold ofJson? at h
  split at h
  · split_ifs at h with htag
    cases h
    exact .inl (by rw [htag]; rfl)
  · split_ifs at h with hidentifier hinteger hstring
    · cases h
      exact .inl (by rw [hidentifier]; rfl)
    · cases h
      exact .inl (by rw [hinteger]; rfl)
    · cases h
      exact .inl (by rw [hstring]; rfl)
  · split_ifs at h with htag
    cases h
    exact .inr (.inl ⟨by rw [htag], rfl⟩)
  · exact .inr (.inr ⟨_, _, rfl⟩)
  · cases h

/-- What is read as an operator is its name, alone or as an object. -/
theorem respelled_operator {o : Json} {op : Operator} (h : Operator.ofJson? o = some op)
    (x y : Json) : Respelled (node "Binary" [("operator", o), ("left", x), ("right", y)])
      (node "Binary" [("operator", op.toJson), ("left", x), ("right", y)]) := by
  have hname : ∀ s, Operator.ofTag? s = some op → s = op.tag := by
    intro s hs
    have htag := List.find?_some hs
    exact (of_decide_eq_true htag).symm
  unfold Operator.ofJson? at h
  split at h
  · rw [hname _ h]
    exact .refl _
  · rw [hname _ h]
    exact .symm (.operator op.tag [] [("left", x), ("right", y)])
  · cases h

/-- **What is read as a filter is a respelling of what is written for it.** -/
theorem respelled_of_ofJson? {j : Json} {f : Filter} (hj : j.DistinctKeys)
    (h : ofJson? j = some f) : Respelled j f.toJson := by
  induction hsize : f.size using Nat.strong_induction_on generalizing j f with
  | _ n ih =>
    rcases ofJson?_cases h with rfl | ⟨rfl, rfl⟩ | ⟨tag, fields, rfl⟩
    · exact .refl _
    · exact .symm .null
    · obtain ⟨hnodup, hdistinct⟩ := hj.of_node
      rcases ofJson?_node_cases h with
        ⟨k, g, rfl, rfl, hk, hg⟩ | ⟨o, x, y, op, l, r, rfl, rfl, ho, hop, hx, hl, hy, hr⟩
      · have hpick := Respelled.pick "Not" hnodup (fun _ => k)
          (by simpa [expected] using hk)
        have hoperand : Respelled k g.toJson :=
          ih g.size (by rw [← hsize, size]; omega) (hdistinct _ _ hk) hg rfl
        exact .trans hpick (.operand "Not" [] [] (by decide) hoperand)
      · have hpick := Respelled.pick "Binary" hnodup
          (fun key => if key = "operator" then o else if key = "left" then x else y)
          (by simp [expected, ho, hx, hy])
        have hleft : Respelled x l.toJson :=
          ih l.size (by rw [← hsize, size]; omega) (hdistinct _ _ hx) hl rfl
        have hright : Respelled y r.toJson :=
          ih r.size (by rw [← hsize, size]; omega) (hdistinct _ _ hy) hr rfl
        refine .trans hpick (.trans (respelled_operator hop x y) ?_)
        refine .trans
          (.operand "Binary" [("operator", op.toJson)] [("right", y)] (by decide) hleft) ?_
        exact .operand "Binary" [("operator", op.toJson), ("left", l.toJson)] [] (by decide) hright

/-- **Reading undoes writing.** -/
theorem ofJson?_toJson (f : Filter) : ofJson? f.toJson = some f := by
  induction f with
  | binary op l r ihl ihr =>
    have hnode : (binary op l r).toJson
      = node "Binary" [("operator", op.toJson), ("left", l.toJson), ("right", r.toJson)] := rfl
    rw [hnode, ofJson?_node]
    simp [List.lookup_cons, ihl, ihr]
  | not f ih =>
    have hnode : (not f).toJson = node "Not" [("right", f.toJson)] := rfl
    rw [hnode, ofJson?_node]
    simp [ih]
  | identifier path | integer digits | string s | null => rfl

/-- **The JSON form of a filter is faithful.** A filter is read back from what is
written for it. So whatever a filter was read from, writing it and reading it again
gives the same filter, and what is written does not depend on how that value was
spelled. Where no key is repeated, the values that are read as a filter are exactly
the respellings of what is written for it. -/
theorem ofJson?_faithful :
    (∀ f : Filter, ofJson? f.toJson = some f)
      ∧ (∀ (j : Json) (f : Filter), ofJson? j = some f →
          ofJson? f.toJson = some f
            ∧ ∀ k, Respelled j k → (ofJson? k).map toJson = some f.toJson)
      ∧ ∀ (j : Json) (f : Filter), j.DistinctKeys →
          (ofJson? j = some f ↔ Respelled j f.toJson) := by
  refine ⟨ofJson?_toJson, fun j f h => ⟨f.ofJson?_toJson, fun k hk => ?_⟩,
    fun j f hj => ⟨respelled_of_ofJson? hj, fun h => ?_⟩⟩
  · rw [← hk.ofJson?_eq, h, Option.map_some]
  · rw [h.ofJson?_eq, ofJson?_toJson]

/-- The fields in another order, one that is not read, and both names that may stand
alone as objects. -/
theorem ofJson?_faithful_respelled :
    ∃ j, j = node "Binary" [("right", object [("NullLiteral", .null)]), ("note", .int 1),
          ("operator", object [("Eq", .null)]), ("left", object [("Identifier", .string "a")])]
      ∧ j.DistinctKeys
      ∧ Respelled j (binary (.comparison .eq) (identifier "a") null).toJson
      ∧ (ofJson? j).map toJson = some (binary (.comparison .eq) (identifier "a") null).toJson := by
  refine ⟨_, rfl, ?distinct, (ofJson?_faithful.2.2 _ _ ?distinct).1 rfl,
    (ofJson?_faithful.2.1 _ _ rfl).2 _ (.refl _)⟩
  simp [node, DistinctKeys, DistinctKeysFields]

end Filter

end FilterSql
