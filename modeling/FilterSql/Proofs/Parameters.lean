import FilterSql.Command
import FilterSql.Proofs.Filter.Composition
import FilterSql.Proofs.Image
import FilterSql.Proofs.Json.Float
import FilterSql.Proofs.Query
import Mathlib

/-!
# Bound values in JSON

A query is printed as JSON for other programs, which read the bound values off it.
The text of a value does not say of what kind it is, so reading takes the first
kind that fits, and what kinds of values a filter can bind decides whether that is
the right one. Integers come back as they were, since an unsigned one is only bound
where no signed one would do; so do strings. A floating-point number comes back as
one, though not always as the same.

There is one exception. A literal of more than three hundred digits may be bound as
infinite, for which JSON has no text but `null`, and that is read as `NULL`: the
value has changed its kind. This happens to the integers from `2¹⁰²⁴ - 2⁹⁷⁰` on and
to nothing else (`params_read_back`).
-/

namespace FilterSql

/-! ## Values -/

namespace Value

theorem ofJsonText?_eq_some {s : String} {j : Json} {v : Value}
    (hread : Json.readScalar? s = some j) (hv : ofJson? j = some v) :
    ofJsonText? s = some v := by
  rw [ofJsonText?, hread, Option.bind_some, hv]

variable (level : Nat)

theorem ofJsonText?_int (n : Int64) :
    ofJsonText? ((int n).toJson.prettyAt level) = some (int n) := by
  have hlow := Int64.le_toInt n
  have hhigh := Int64.toInt_lt n
  have hsigned : signed64? n.toInt = some n := by
    rw [signed64?, if_pos ⟨by simpa using hlow, by simpa using hhigh⟩, Int64.ofInt_toInt]
  rw [toJson, Json.prettyAt]
  exact ofJsonText?_eq_some (Json.readScalar?_toString hlow (hhigh.trans (by norm_num)))
    (by rw [ofJson?, hsigned])

/-- An unsigned integer comes back as one where no signed integer would do. -/
theorem ofJsonText?_uint {n : UInt64} (hn : 2 ^ 63 ≤ n.toNat) :
    ofJsonText? ((uint n).toJson.prettyAt level) = some (uint n) := by
  have hhigh : (n.toNat : Int) < 2 ^ 64 := by exact_mod_cast n.toNat_lt
  have hlow : -2 ^ 63 ≤ (n.toNat : Int) := le_trans (by norm_num) (Int.natCast_nonneg _)
  have hsigned : signed64? n.toNat = none := by
    rw [signed64?_natCast, if_neg (not_lt.2 hn)]
  have hunsigned : unsigned64? n.toNat = some n := by
    rw [unsigned64?_natCast, if_pos n.toNat_lt, UInt64.ofNat_toNat]
  rw [toJson, Json.prettyAt]
  exact ofJsonText?_eq_some (Json.readScalar?_toString hlow hhigh)
    (by rw [ofJson?, hsigned, hunsigned, Option.map_some])

theorem ofJsonText?_string (s : String) :
    ofJsonText? ((string s).toJson.prettyAt level) = some (string s) := by
  rw [toJson, Json.prettyAt]
  exact ofJsonText?_eq_some (Json.readScalar?_stringText s) rfl

theorem ofJsonText?_infinite (negative : Bool) :
    ofJsonText? ((float (.infinite negative)).toJson.prettyAt level) = some null := by
  rw [toJson, Json.prettyAt]
  exact ofJsonText?_eq_some Json.readScalar?_null rfl

theorem exists_ofJsonText?_float {x : Magnitude} (hx : 2 ^ 64 ≤ x.value) :
    ∃ m, ofJsonText? ((float (.finite false x)).toJson.prettyAt level)
      = some (float (.finite false m)) := by
  obtain ⟨m, hm⟩ := Json.exists_readScalar?_floatText hx
  rw [toJson, Json.prettyAt]
  exact ⟨m, ofJsonText?_eq_some hm rfl⟩

end Value

/-! ## Literals -/

namespace Literal

/-- **A literal is too large** for a floating-point number. -/
def Overflows : Literal → Prop
  | integer digits => 2 ^ 1024 - 2 ^ 970 ≤ Numeral.placeValue digits.toList
  | string _ => False

/-- **How the value of a literal may be read**: with the same kind, unless the literal
is too large, and as itself, unless it is a floating-point number. -/
structure ReadAs (l : Literal) (w : Value) : Prop where
  kind : w.kind = l.value.kind ↔ ¬ l.Overflows
  value : l.value.kind ≠ "float" → w = l.value
  overflow : l.Overflows → l.value = .float (.infinite false) ∧ w = .null

theorem ReadAs.of_eq {l : Literal} (h : ¬ l.Overflows) : l.ReadAs l.value :=
  ⟨iff_of_true rfl h, fun _ => rfl, fun hover => absurd hover h⟩

/-- **The value of an integer is read from its text.** -/
theorem exists_readAs_integer {digits : String} (hdigits : Filter.IsInteger digits.toList)
    (level : Nat) :
    ∃ w, Value.ofJsonText? ((integer digits).value.toJson.prettyAt level) = some w
      ∧ (integer digits).ReadAs w := by
  have hvalue : (integer digits).value = _ := Value.ofDigits_eq hdigits
  have hover : (integer digits).Overflows
      ↔ 2 ^ 1024 - 2 ^ 970 ≤ Numeral.digitsValue digits.toList := by
    rw [Overflows, Numeral.digitsValue_eq_placeValue]
  have hlimit : 2 ^ 64 ≤ 2 ^ 1024 - 2 ^ 970 := by decide +kernel
  generalize Numeral.digitsValue digits.toList = n at hvalue hover
  have hfits : n < 2 ^ 64 → ¬ (integer digits).Overflows :=
    fun hn => hover.not.2 (not_le.2 (hn.trans_le hlimit))
  rcases lt_or_ge n (2 ^ 63) with hn | hlow
  · rw [if_pos hn] at hvalue
    refine ⟨_, ?_, .of_eq (hfits (hn.trans (by norm_num)))⟩
    rw [hvalue]
    exact Value.ofJsonText?_int level _
  rw [if_neg (not_lt.2 hlow)] at hvalue
  rcases lt_or_ge n (2 ^ 64) with hn | hhigh
  · rw [if_pos hn] at hvalue
    refine ⟨_, ?_, .of_eq (hfits hn)⟩
    rw [hvalue]
    refine Value.ofJsonText?_uint level ?_
    rwa [UInt64.toNat_ofNat_of_lt' hn]
  rw [if_neg (not_lt.2 hhigh)] at hvalue
  rcases Numeral.toBinary64_cases hhigh with ⟨hn, x, hx, hlarge⟩ | ⟨hn, hx⟩
  · rw [hx] at hvalue
    obtain ⟨m, hm⟩ := Value.exists_ofJsonText?_float level hlarge
    rw [← hvalue] at hm
    refine ⟨_, hm, iff_of_true ?_ (hover.not.2 (not_le.2 hn)), fun hkind => ?_, fun h => ?_⟩
    · rw [hvalue]
      rfl
    · exact absurd (by rw [hvalue]; rfl) hkind
    · exact absurd (hover.1 h) (not_le.2 hn)
  · rw [hx] at hvalue
    refine ⟨.null, ?_, iff_of_false ?_ (not_not.2 (hover.2 hn)), fun hkind => ?_,
      fun _ => ⟨hvalue, rfl⟩⟩
    · rw [hvalue]
      exact Value.ofJsonText?_infinite level false
    · rw [hvalue]
      decide
    · exact absurd (by rw [hvalue]; rfl) hkind

/-- **The value of a literal is read from its text.** -/
theorem exists_readAs {l : Literal}
    (hl : ∀ digits, l = .integer digits → Filter.IsInteger digits.toList) (level : Nat) :
    ∃ w, Value.ofJsonText? (l.value.toJson.prettyAt level) = some w ∧ l.ReadAs w := by
  cases l with
  | string s => exact ⟨_, Value.ofJsonText?_string level s, .of_eq (l := .string s) id⟩
  | integer digits => exact exists_readAs_integer (hl digits rfl) level

end Literal

/-! ## Queries -/

namespace Json

theorem prettyItems_eq_map (level : Nat) (items : List Json) :
    prettyItems level items = items.map (prettyAt level) := by
  induction items with
  | nil => rw [prettyItems, List.map_nil]
  | cons j items ih => rw [prettyItems, ih, List.map_cons]

end Json

namespace Query

/-- **The texts of the bound values** in the JSON form of a query. -/
def paramTexts (q : Query) : List String := q.params.map fun v => v.toJson.prettyAt 2

/-- The JSON form of a query names its three parts, the bound values last. -/
theorem pretty_toJson (q : Query) :
    q.toJson.pretty
      = "\x7b\n  \"dialect\": " ++ Json.stringText q.dialect.name
        ++ ",\n  \"sql\": " ++ Json.stringText q.sql
        ++ ",\n  \"params\": " ++ Json.block 1 "[" "]" q.paramTexts ++ "\n\x7d" := by
  have hparams : Json.prettyItems 2 (q.params.map Value.toJson) = q.paramTexts := by
    rw [Json.prettyItems_eq_map, List.map_map]
    rfl
  have hdialect : Json.stringText "dialect" = "\"dialect\"" := by decide
  have hsql : Json.stringText "sql" = "\"sql\"" := by decide
  have hkey : Json.stringText "params" = "\"params\"" := by decide
  have hline : Json.newLine 1 = "\n  " := rfl
  have hlast : Json.newLine 0 = "\n" := rfl
  rw [Json.pretty, toJson, Json.prettyAt]
  simp only [Json.prettyFields, Json.prettyAt, Nat.zero_add, Nat.reduceAdd, hparams, hdialect,
    hsql, hkey]
  generalize Json.block 1 "[" "]" q.paramTexts = array
  rw [← String.toList_inj]
  simp [Json.block, hline, hlast]

/-- The values that are bound for a filter are those of its literals. -/
theorem params_of_ofFilter {text : String} {f : Option Filter} (h : Filter.parse text = .ok f)
    {d : Dialect} {table : Option String} {q : Query} (hq : (ofFilter text d table).value = .ok q) :
    q.params = (f.elim [] Filter.literals).map Literal.value := by
  have hparams : ((Restriction.ofFilter f).value.render d).params
      = (f.elim [] Filter.literals).map Literal.value := by
    cases f with
    | none => rfl
    | some f => rw [Restriction.render_ofFilter, Option.elim_some]
  rw [← hparams]
  cases table with
  | none =>
    rw [value_ofFilter_none h] at hq
    rw [← Except.ok.inj hq]
  | some name =>
    rw [value_ofFilter_some h] at hq
    split at hq
    · cases hq
    · rw [← Except.ok.inj hq]

end Query

/-- A query is printed as JSON where this is asked for. -/
theorem Command.run_compile_json {text name : String} {d : Dialect} {table : Option String}
    {q : Query} (hname : Dialect.ofName name = .ok d)
    (hq : (Query.ofFilter text d table).value = .ok q) :
    (compile text name table true).run = printed q.toJson.pretty := by
  unfold run
  simp only [hname, hq, if_true]

/-- The integers among the literals of a text that is read have digits only. -/
theorem Filter.isInteger_of_mem_literals {text : String} {f : Option Filter}
    (h : Filter.parse text = .ok f) {digits : String}
    (hmem : .integer digits ∈ f.elim [] Filter.literals) : Filter.IsInteger digits.toList := by
  cases f with
  | none => cases hmem
  | some f => exact (Filter.leaves_of_legible (Filter.legible_of_parse h)).2 digits hmem

/-- **Bound values are read back from JSON, but for literals that are too large.** For
every text that is a filter there is a query. Printed as JSON, over a table or not, its
bound values are an array of one text each, in the order of the literals, and each text
is read as a value of the kind that was bound, and as the same value where that is an
integer or a string. The literals that are too large for a floating-point number are
the exception, and the only one: they are bound as infinite and read as `NULL`. -/
theorem params_read_back {text : String} {f : Option Filter} (h : Filter.parse text = .ok f)
    {name : String} {d : Dialect} (hname : Dialect.ofName name = .ok d) :
    (∃ q, (Query.ofFilter text d none).value = .ok q)
      ∧ ∀ table q, (Query.ofFilter text d table).value = .ok q →
        (Command.compile text name table true).run
            = Command.printed ("\x7b\n  \"dialect\": " ++ Json.stringText q.dialect.name
                ++ ",\n  \"sql\": " ++ Json.stringText q.sql
                ++ ",\n  \"params\": " ++ Json.block 1 "[" "]" q.paramTexts ++ "\n\x7d")
          ∧ q.params = (f.elim [] Filter.literals).map Literal.value
          ∧ List.Forall₂ (fun l s => ∃ w, Value.ofJsonText? s = some w ∧ l.ReadAs w)
              (f.elim [] Filter.literals) q.paramTexts := by
  refine ⟨⟨_, Query.value_ofFilter_none h d⟩, fun table q hq => ?_⟩
  have hparams := Query.params_of_ofFilter h hq
  refine ⟨?_, hparams, ?_⟩
  · rw [Command.run_compile_json hname hq, Query.pretty_toJson]
  · rw [Query.paramTexts, hparams, List.map_map, List.forall₂_map_right_iff, List.forall₂_same]
    intro l hl
    refine Literal.exists_readAs (fun digits hdigits => ?_) 2
    exact Filter.isInteger_of_mem_literals h (hdigits ▸ hl)

/-- A one with 309 zeros behind it is bound as a number and read as `NULL`. -/
theorem params_read_back_overflow :
    ∃ text q, Filter.parse text = .ok (some (.binary (.comparison .eq) (.identifier "a")
          (.integer (String.ofList ('1' :: List.replicate 309 '0')))))
      ∧ (Query.ofFilter text .sqlite none).value = .ok q
      ∧ q.params = [.float (.infinite false)]
      ∧ q.paramTexts.map Value.ofJsonText? = [some .null] := by
  obtain ⟨digits, hdigits⟩ : ∃ digits, digits = String.ofList ('1' :: List.replicate 309 '0') :=
    ⟨_, rfl⟩
  have hvalue : 2 ^ 1024 - 2 ^ 970
      ≤ Numeral.digitsValue ('1' :: List.replicate 309 '0') := by decide +kernel
  have hover : (Literal.integer digits).Overflows := by
    rw [Literal.Overflows, hdigits, String.toList_ofList, ← Numeral.digitsValue_eq_placeValue]
    exact hvalue
  have hinteger : Filter.IsInteger digits.toList := by
    rw [hdigits, String.toList_ofList]
    decide +kernel
  have hlegible : (Filter.binary (.comparison .eq) (.identifier "a") (.integer digits)).Every
      Filter.Legible := by
    have hidentifier : Filter.IsIdentifier "a".toList := by decide
    exact Filter.every_binary.2 ⟨trivial, (Filter.every_of_nodes_eq rfl).2 hidentifier,
      (Filter.every_of_nodes_eq rfl).2 hinteger⟩
  have hparse := (Filter.parseChars_eq_some_iff _ _).2 (Filter.hasDerivation_grouped hlegible)
  obtain ⟨⟨q, hq⟩, hread⟩ := params_read_back hparse (rfl : Dialect.ofName "sqlite" = .ok .sqlite)
  obtain ⟨-, hparams, htexts⟩ := hread none q hq
  obtain ⟨s, rest, ⟨w, hw, hreads⟩, hrest, htexts⟩ := List.forall₂_cons_left_iff.1 htexts
  rw [List.forall₂_nil_left_iff] at hrest
  obtain ⟨hbound, rfl⟩ := hreads.overflow hover
  rw [← hdigits]
  refine ⟨_, q, hparse, hq, ?_, ?_⟩
  · rw [hparams, ← hbound]
    rfl
  · rw [htexts, hrest, List.map_singleton, hw]

end FilterSql
