import FilterSql.Proofs.Decimal.Literals
import FilterSql.Proofs.Direct
import FilterSql.Proofs.Filter.TextForm
import Mathlib

/-!
# Which filters compile to the same expression

A filter is a tree, and its expression is flat where one connective follows
another, so some filters have one expression. This module says which: those that
differ in how runs of a connective are grouped, and in how numbers are spelled.
`Filter.Alike` is the least congruence with these two rules.

That filters that are alike have one expression is quick to see, once the
expression of a comparison is seen to depend on the expressions of its sides
alone (`Filter.expr_comparison`) and not on what the sides look like. The other
direction goes through the operands of a run. The members of a flat junction are
the expressions of the operands (`Filter.members_expr`), whatever the grouping,
and a filter can be regrouped into the left spine of its operands
(`Filter.exists_alike_leftSpine`). Everything else is told apart by its shape.

The main statement is `compile_eq_iff_alike`.
-/

namespace FilterSql

namespace Filter

/-- **Filters that are alike**: the least congruence in which the grouping of a
run of one connective does not matter, nor the spelling of a number. -/
inductive Alike : Filter → Filter → Prop
  | assoc (k : Connective) (f g h : Filter) :
      Alike (binary (.logical k) (binary (.logical k) f g) h)
        (binary (.logical k) f (binary (.logical k) g h))
  | respell {m n : String} (h : Value.ofDigits m = Value.ofDigits n) :
      Alike (integer m) (integer n)
  | binary (op : Operator) {f f' g g' : Filter} (hf : Alike f f') (hg : Alike g g') :
      Alike (binary op f g) (binary op f' g')
  | not {f f' : Filter} (h : Alike f f') : Alike (not f) (not f')
  | refl (f : Filter) : Alike f f
  | symm {f g : Filter} (h : Alike f g) : Alike g f
  | trans {f g h : Filter} (hfg : Alike f g) (hgh : Alike g h) : Alike f h

end Filter

/-! ## The expression of a comparison, from those of its sides -/

namespace Expr

/-- The value that an expression is compared as, if it is a literal. The word
`NULL` is one only where it is tested for. -/
def literal? (c : Comparator) : Expr → Option Value
  | value v => some v
  | raw template [] => if template = "NULL" ∧ c.isEquality = true then some .null else none
  | _ => none

/-- **The comparison of two expressions**: one of SQL between a name and a
literal, and a raw one otherwise. -/
def compared (c : Comparator) (x y : Expr) : Expr :=
  match x, literal? c y with
  | name n, some v => compare (name n) c (value v)
  | _, _ => raw (comparisonTemplate c) [x, y]

theorem compared_eq_raw {c : Comparator} {x y : Expr}
    (h : (∀ n, x ≠ name n) ∨ literal? c y = none) :
    compared c x y = raw (comparisonTemplate c) [x, y] := by
  unfold compared
  split
  · rename_i hv
    rcases h with h | h
    · exact absurd rfl (h _)
    · cases hv.symm.trans h
  · rfl

theorem comparisonTemplate_injective : Function.Injective comparisonTemplate := by
  intro c c' h
  have hchars : ("? " ++ c.symbol ++ " ?").toList = ("? " ++ c'.symbol ++ " ?").toList :=
    congrArg String.toList h
  rw [String.toList_append, String.toList_append, String.toList_append,
    String.toList_append] at hchars
  exact Sql.symbol_toList_inj (List.append_cancel_left (List.append_cancel_right hchars))

/-- The literal is told by its value, except that the value `NULL` is not the
word. -/
theorem eq_of_literal?_eq_some {c : Comparator} {y : Expr} {v : Value}
    (hy : y.isNullValue = false) (h : literal? c y = some v) :
    y = if v = .null then raw "NULL" [] else value v := by
  unfold literal? at h
  split at h
  · obtain rfl := Option.some.inj h
    rw [if_neg]
    rintro rfl
    cases hy
  · split at h
    · rename_i hnull
      obtain rfl := Option.some.inj h
      rw [if_pos rfl, hnull.1]
    · cases h
  · cases h

/-- **A comparison tells its comparator and its sides.** -/
theorem compared_inj {c c' : Comparator} {x x' y y' : Expr} (hy : y.isNullValue = false)
    (hy' : y'.isNullValue = false) (h : compared c x y = compared c' x' y') :
    c = c' ∧ x = x' ∧ y = y' := by
  unfold compared at h
  split at h
  · rename_i n v hv
    split at h
    · rename_i n' v' hv'
      obtain ⟨hn, rfl, hvalue⟩ := Expr.compare.inj h
      obtain rfl := Expr.value.inj hvalue
      refine ⟨rfl, hn, ?_⟩
      rw [eq_of_literal?_eq_some hy hv, eq_of_literal?_eq_some hy' hv']
    · cases h
  · split at h
    · cases h
    · obtain ⟨htemplate, hargs⟩ := Expr.raw.inj h
      obtain ⟨hx, hys⟩ := List.cons.inj hargs
      exact ⟨comparisonTemplate_injective htemplate, hx, (List.cons.inj hys).1⟩

/-! ## Shapes -/

/-- What a compiled expression is at its top. -/
inductive Shape where
  | junction (k : Connective)
  | comparison
  | negation
  | name
  | value
  | null
  deriving DecidableEq

/-- The shape of an expression. A raw expression is a comparison or the word
`NULL`. -/
def shape : Expr → Shape
  | name _ => .name
  | value _ => .value
  | compare .. | raw _ (_ :: _) => .comparison
  | and _ => .junction .and
  | or _ => .junction .or
  | not _ => .negation
  | raw _ [] => .null

/-- Only a value or a bare word is a literal. -/
theorem literal?_eq_none {c : Comparator} {e : Expr} (h : e.shape ≠ .value ∧ e.shape ≠ .null) :
    literal? c e = none := by
  match e with
  | value v => exact absurd rfl h.1
  | raw template [] => exact absurd rfl h.2
  | raw _ (_ :: _) | name _ | compare .. | and _ | or _ | not _ => rfl

theorem shape_joined (k : Connective) (l r : Expr) : (joined k l r).shape = .junction k := by
  cases k <;> rfl

theorem members_joined (k : Connective) (l r : Expr) :
    (joined k l r).members k = l.members k ++ r.members k := by
  cases k <;> rfl

/-- An expression of another shape is its own only member. -/
theorem members_of_shape_ne {k : Connective} {e : Expr} (h : e.shape ≠ .junction k) :
    e.members k = [e] := by
  cases k with
  | and =>
    cases e with
    | and es => exact absurd rfl h
    | _ => rfl
  | or =>
    cases e with
    | or es => exact absurd rfl h
    | _ => rfl

theorem joined_assoc (k : Connective) (x y z : Expr) :
    joined k (joined k x y) z = joined k x (joined k y z) := by
  show ofMembers k ((joined k x y).members k ++ z.members k)
    = ofMembers k (x.members k ++ (joined k y z).members k)
  rw [members_joined, members_joined, List.append_assoc]

end Expr

/-! ## Equality -/

/-- **The value is equal to itself, and to no other**, when numbers are compared
as numbers. -/
def Value.Definite : Value → Prop
  | float (.finite negative _) => negative = false
  | float .nan => False
  | int _ | uint _ | float (.infinite _) | string _ | null => True

theorem Value.same_iff_eq {v w : Value} (hv : v.Definite) (hw : w.Definite) :
    v.same w = true ↔ v = w := by
  cases v with
  | float x =>
    cases w with
    | float y =>
      cases x with
      | finite s a =>
        obtain rfl : s = false := hv
        cases y with
        | finite t b =>
          obtain rfl : t = false := hw
          simp [same, Binary64.sameNumber]
        | infinite t => simp [same, Binary64.sameNumber]
        | nan => exact hw.elim
      | infinite s =>
        cases y with
        | nan => exact hw.elim
        | _ => simp [same, Binary64.sameNumber]
      | nan => exact hv.elim
    | _ => simp [same]
  | _ => cases w <;> simp [same]

namespace Expr

/-- A value is equal to itself only. -/
def Definite : Expr → Prop
  | value v => v.Definite
  | _ => True

theorem definite_compared (c : Comparator) {x y : Expr} (hx : x.Every Definite)
    (hy : y.Every Definite) : (compared c x y).Every Definite := by
  unfold compared
  split
  · rename_i n v hv
    refine every_compare.2 ⟨trivial, hx, List.forall_mem_singleton.2 ?_⟩
    show v.Definite
    unfold literal? at hv
    split at hv
    · obtain rfl := Option.some.inj hv
      exact hy _ List.mem_cons_self
    · split at hv
      · obtain rfl := Option.some.inj hv
        trivial
      · cases hv
    · cases hv
  · exact every_raw.2 ⟨trivial, by simp [hx, hy]⟩

mutual

/-- **Expressions of definite values are equal if they are the same.** -/
theorem same_iff_eq {e e' : Expr} (he : e.Every Definite) (he' : e'.Every Definite) :
    e.same e' = true ↔ e = e' := by
  cases e with
  | name m => cases e' <;> simp [same]
  | value v =>
    cases e' with
    | value w =>
      rw [same, value.injEq]
      exact Value.same_iff_eq (he _ List.mem_cons_self) (he' _ List.mem_cons_self)
    | _ => simp [same]
  | compare l c r =>
    cases e' with
    | compare l' c' r' =>
      obtain ⟨-, hl, hr⟩ := every_compare.1 he
      obtain ⟨-, hl', hr'⟩ := every_compare.1 he'
      simp [same, same_iff_eq hl hl', same_iff_eq hr hr', and_assoc]
    | _ => simp [same]
  | and es =>
    cases e' with
    | and es' => simp [same, sameAll_iff_eq (every_and.1 he).2 (every_and.1 he').2]
    | _ => simp [same]
  | or es =>
    cases e' with
    | or es' => simp [same, sameAll_iff_eq (every_or.1 he).2 (every_or.1 he').2]
    | _ => simp [same]
  | not e =>
    cases e' with
    | not e' => simp [same, same_iff_eq (every_not.1 he).2 (every_not.1 he').2]
    | _ => simp [same]
  | raw t args =>
    cases e' with
    | raw t' args' => simp [same, sameAll_iff_eq (every_raw.1 he).2 (every_raw.1 he').2]
    | _ => simp [same]

/-- Likewise member by member. -/
theorem sameAll_iff_eq {es es' : List Expr} (hs : ∀ e ∈ es, e.Every Definite)
    (hs' : ∀ e ∈ es', e.Every Definite) : sameAll es es' = true ↔ es = es' := by
  match es, es' with
  | [], [] => simp [sameAll]
  | [], _ :: _ | _ :: _, [] => simp [sameAll]
  | e :: es, e' :: es' =>
    rw [List.forall_mem_cons] at hs hs'
    simp [sameAll, same_iff_eq hs.1 hs'.1, sameAll_iff_eq hs.2 hs'.2]

end

end Expr

namespace Filter

/-- The shape of the expression of a filter. -/
def shape : Filter → Expr.Shape
  | binary (.logical k) _ _ => .junction k
  | binary (.comparison _) _ _ => .comparison
  | not _ => .negation
  | identifier _ => .name
  | integer _ | string _ => .value
  | null => .null

/-- No filter compiles to the value `NULL`: for the literal there is the word. -/
theorem isNullValue_expr (f : Filter) : f.expr.isNullValue = false := by
  cases f with
  | binary op l r =>
    cases op with
    | logical k => cases k <;> rfl
    | comparison c =>
      rw [expr, Filter.compared]
      split <;> rfl
  | integer digits => exact isNullValue_ofDigits digits
  | _ => rfl

theorem shape_expr (f : Filter) : f.expr.shape = f.shape := by
  cases f with
  | binary op l r =>
    cases op with
    | logical k => exact Expr.shape_joined k _ _
    | comparison c =>
      rw [expr, Filter.compared]
      split <;> rfl
  | _ => rfl

theorem eq_identifier_of_shape {f : Filter} (h : f.shape = .name) :
    ∃ path, f = identifier path := by
  cases f with
  | identifier path => exact ⟨path, rfl⟩
  | binary op l r => cases op <;> cases h
  | _ => cases h

/-- **The expression of a comparison is made of the expressions of its sides**,
whatever these are compiled from. -/
theorem expr_comparison (c : Comparator) (l r : Filter) :
    (binary (.comparison c) l r).expr = Expr.compared c l.expr r.expr := by
  rw [expr, Filter.compared]
  fun_cases columnAndValue? c l r with
  | case1 path digits => rfl
  | case2 path s => rfl
  | case3 path hc => simp [Expr.compared, Expr.literal?, expr, Expr.column, hc]
  | case4 path hc => simp [Expr.compared, Expr.literal?, expr, Expr.column, hc]
  | case5 l r hinteger hstring hnull =>
    refine (Expr.compared_eq_raw ?_).symm
    -- an expression that is no name, or no literal, is compiled from no such filter
    by_cases hl : l.shape = .name
    · obtain ⟨path, rfl⟩ := eq_identifier_of_shape hl
      refine .inr (Expr.literal?_eq_none ?_)
      rw [shape_expr]
      cases r with
      | integer digits => exact (hinteger path digits rfl rfl).elim
      | string s => exact (hstring path s rfl rfl).elim
      | null => exact (hnull path rfl rfl).elim
      | binary op _ _ => cases op <;> simp [shape]
      | not f | identifier path' => simp [shape]
    · refine .inl fun n hn => hl ?_
      rw [← shape_expr, hn]
      rfl

/-! ## Filters that are alike have one expression -/

/-- **Alike filters compile to the same expression.** -/
theorem Alike.expr_eq {f g : Filter} (h : f.Alike g) : f.expr = g.expr := by
  induction h with
  | assoc k f g h => exact Expr.joined_assoc k f.expr g.expr h.expr
  | respell h => exact congrArg Expr.value h
  | binary op _ _ ihf ihg =>
    cases op with
    | logical k =>
      show Expr.joined k _ _ = Expr.joined k _ _
      rw [ihf, ihg]
    | comparison c => rw [expr_comparison, expr_comparison, ihf, ihg]
  | not _ ih => exact congrArg Expr.not ih
  | refl f => rfl
  | symm _ ih => exact ih.symm
  | trans _ _ ihf ihg => exact ihf.trans ihg

/-! ## The operands of a run -/

/-- **The operands of a run of one connective**, from left to right and however
they are grouped. Any other filter is its own only operand. -/
def operands (k : Connective) : Filter → List Filter
  | binary (.logical k') l r =>
    if k' = k then l.operands k ++ r.operands k else [binary (.logical k') l r]
  | f => [f]

theorem operands_logical (k : Connective) (l r : Filter) :
    (binary (.logical k) l r).operands k = l.operands k ++ r.operands k := by
  rw [operands, if_pos rfl]

theorem operands_of_shape_ne {k : Connective} {f : Filter} (h : f.shape ≠ .junction k) :
    f.operands k = [f] := by
  cases f with
  | binary op l r =>
    cases op with
    | logical k' =>
      rw [operands, if_neg]
      rintro rfl
      exact h rfl
    | comparison c => rfl
  | _ => rfl

/-- A filter is a run of the connective, or it has another shape. -/
theorem logical_or_shape_ne (k : Connective) (f : Filter) :
    (∃ l r, f = binary (.logical k) l r) ∨ f.shape ≠ .junction k := by
  cases f with
  | binary op l r =>
    cases op with
    | logical k' =>
      by_cases hk : k' = k
      · exact .inl ⟨l, r, hk ▸ rfl⟩
      · exact .inr fun h => hk (Expr.Shape.junction.inj h)
    | comparison c => exact .inr nofun
  | _ => exact .inr nofun

/-- **The members of a flat junction are the expressions of the operands.** -/
theorem members_expr (k : Connective) (f : Filter) :
    f.expr.members k = (f.operands k).map expr := by
  induction f with
  | binary op l r ihl ihr =>
    rcases logical_or_shape_ne k (binary op l r) with ⟨l', r', heq⟩ | hshape
    · cases heq
      rw [operands_logical, List.map_append, ← ihl, ← ihr]
      exact Expr.members_joined k _ _
    · rw [operands_of_shape_ne hshape, Expr.members_of_shape_ne (by rwa [shape_expr])]
      rfl
  | _ => cases k <;> rfl

/-- An operand of a run is no larger than the run. -/
theorem size_le_of_mem_operands {k : Connective} {f g : Filter} (h : g ∈ f.operands k) :
    g.size ≤ f.size := by
  induction f with
  | binary op l r ihl ihr =>
    rcases logical_or_shape_ne k (binary op l r) with ⟨l', r', heq⟩ | hshape
    · cases heq
      rw [operands_logical, List.mem_append] at h
      rw [size]
      rcases h with h | h
      · have := ihl h
        omega
      · have := ihr h
        omega
    · rw [operands_of_shape_ne hshape, List.mem_singleton] at h
      rw [h]
  | _ => exact le_of_eq (congrArg size (List.mem_singleton.1 h))

/-- The nodes of an operand are nodes of the run. -/
theorem Every.of_mem_operands {p : Filter → Prop} {k : Connective} {f g : Filter} (hf : f.Every p)
    (h : g ∈ f.operands k) : g.Every p := by
  induction f with
  | binary op l r ihl ihr =>
    rcases logical_or_shape_ne k (binary op l r) with ⟨l', r', heq⟩ | hshape
    · cases heq
      rw [operands_logical, List.mem_append] at h
      obtain ⟨-, hl, hr⟩ := every_binary.1 hf
      exact h.elim (ihl hl) (ihr hr)
    · rw [operands_of_shape_ne hshape, List.mem_singleton] at h
      rwa [h]
  | _ => rwa [List.mem_singleton.1 h]

/-! ## Regrouping a run -/

/-- Two left spines are joined by moving the second one over, operand by
operand. -/
theorem alike_append_leftSpine (k : Connective) (f g : Filter) (fs gs : List Filter) :
    Alike (binary (.logical k) (fs.foldl (binary (.logical k)) f)
        (gs.foldl (binary (.logical k)) g))
      ((fs ++ g :: gs).foldl (binary (.logical k)) f) := by
  induction gs using List.reverseRecOn with
  | nil =>
    rw [List.foldl_append]
    exact .refl _
  | append_singleton gs h ih =>
    rw [List.foldl_concat, ← List.cons_append, ← List.append_assoc, List.foldl_concat]
    exact .trans (.symm (.assoc k _ _ h)) (.binary _ ih (.refl h))

/-- **A run can be regrouped into the left spine of its operands.** -/
theorem exists_alike_leftSpine (k : Connective) (f : Filter) :
    ∃ g gs, f.operands k = g :: gs ∧ f.Alike (gs.foldl (binary (.logical k)) g) := by
  induction f with
  | binary op l r ihl ihr =>
    rcases logical_or_shape_ne k (binary op l r) with ⟨l', r', heq⟩ | hshape
    · cases heq
      obtain ⟨g, gs, hgs, hl⟩ := ihl
      obtain ⟨h, hs, hhs, hr⟩ := ihr
      refine ⟨g, gs ++ h :: hs, ?_, ?_⟩
      · rw [operands_logical, hgs, hhs, List.cons_append]
      · exact .trans (.binary _ hl hr) (alike_append_leftSpine k g h gs hs)
    · exact ⟨_, [], operands_of_shape_ne hshape, .refl _⟩
  | _ => exact ⟨_, [], rfl, .refl _⟩

/-- **Runs of alike operands are alike**, however each of them is grouped. -/
theorem Alike.of_operands {k : Connective} {f g : Filter}
    (h : List.Forall₂ Alike (f.operands k) (g.operands k)) : f.Alike g := by
  obtain ⟨a, as, hf, halikef⟩ := exists_alike_leftSpine k f
  obtain ⟨b, bs, hg, halikeg⟩ := exists_alike_leftSpine k g
  rw [hf, hg] at h
  obtain ⟨hab, hrest⟩ := List.forall₂_cons.1 h
  have hspines := List.rel_foldl (P := Alike) (R := Alike)
    (fun _ _ hf _ _ hg => Alike.binary (.logical k) hf hg) hab hrest
  exact halikef.trans (hspines.trans halikeg.symm)

/-! ## The values of integer literals -/

/-- The number nearest to a numeral without a sign has none. -/
theorem definite_toBinary64 {n : Numeral} (hn : n.negative = false) :
    (Value.float n.toBinary64).Definite := by
  unfold Numeral.toBinary64 Binary64.ofRatio
  rw [hn]
  dsimp only
  repeat' split
  all_goals trivial

/-- **Digits spell a number**, and that is equal to itself only. -/
theorem ofDigits_of_isInteger {digits : String} (h : IsInteger digits.toList) :
    (Value.ofDigits digits).Definite ∧ ∀ s, Value.ofDigits digits ≠ .string s := by
  rw [Value.ofDigits_eq h]
  split_ifs
  · exact ⟨trivial, nofun⟩
  · exact ⟨trivial, nofun⟩
  · exact ⟨definite_toBinary64 rfl, nofun⟩

/-- The values in the expression of a legible filter are equal to themselves
only. -/
theorem definite_expr {f : Filter} (hf : f.Every Legible) : f.expr.Every Expr.Definite := by
  induction f with
  | binary op l r ihl ihr =>
    obtain ⟨-, hl, hr⟩ := every_binary.1 hf
    cases op with
    | logical k => exact Expr.Every.joined (fun k _ => by cases k <;> trivial) (ihl hl) (ihr hr) k
    | comparison c =>
      rw [expr_comparison]
      exact Expr.definite_compared c (ihl hl) (ihr hr)
  | not f ih => exact Expr.every_not.2 ⟨trivial, ih (every_not.1 hf).2⟩
  | identifier path => exact List.forall_mem_singleton.2 trivial
  | integer digits =>
    exact List.forall_mem_singleton.2 (ofDigits_of_isInteger ((every_of_nodes_eq rfl).1 hf)).1
  | string s => exact List.forall_mem_singleton.2 trivial
  | null => exact Expr.every_raw.2 ⟨trivial, nofun⟩

/-! ## One expression, alike filters -/

/-- **Filters with one expression are alike**, if the digits of their integers
are digits. The induction is on the size, since the operands of a run may lie
deep in it. -/
theorem alike_of_expr_eq {f g : Filter} (hf : f.Every Legible) (hg : g.Every Legible)
    (h : f.expr = g.expr) : f.Alike g := by
  induction hn : f.size using Nat.strongRecOn generalizing f g with
  | ind n ih =>
    subst hn
    have hshape : f.shape = g.shape := by rw [← shape_expr, ← shape_expr, h]
    match f, g, hshape with
    | .binary (.logical k) l r, g, _ =>
      refine .of_operands (k := k) ?_
      have hmembers : List.Forall₂ (fun a b => a.expr = b.expr)
          ((Filter.binary (.logical k) l r).operands k) (g.operands k) := by
        rw [← List.forall₂_map_left_iff (f := expr) (R := fun x b => x = expr b),
          ← List.forall₂_map_right_iff (f := expr), List.forall₂_eq_eq_eq, ← members_expr,
          ← members_expr, h]
      obtain ⟨hlength, hsame⟩ := List.forall₂_iff_zip.1 hmembers
      refine List.forall₂_iff_zip.2 ⟨hlength, fun hab => ?_⟩
      obtain ⟨ha, hb⟩ := List.of_mem_zip hab
      refine ih _ ?_ (hf.of_mem_operands ha) (hg.of_mem_operands hb) (hsame hab) rfl
      rw [operands_logical, List.mem_append] at ha
      rw [size]
      rcases ha with ha | ha
      · have := size_le_of_mem_operands ha
        omega
      · have := size_le_of_mem_operands ha
        omega
    | .binary (.comparison c) l r, .binary (.comparison c') l' r', _ =>
      rw [expr_comparison, expr_comparison] at h
      obtain ⟨rfl, hl, hr⟩ := Expr.compared_inj r.isNullValue_expr r'.isNullValue_expr h
      obtain ⟨-, hfl, hfr⟩ := every_binary.1 hf
      obtain ⟨-, hgl, hgr⟩ := every_binary.1 hg
      refine .binary _ (ih l.size ?_ hfl hgl hl rfl) (ih r.size ?_ hfr hgr hr rfl) <;>
        rw [size] <;> omega
    | .not f, .not g, _ =>
      exact .not (ih f.size (Nat.lt_succ_self _) (every_not.1 hf).2 (every_not.1 hg).2
        (Expr.not.inj h) rfl)
    | .identifier path, .identifier path', _ =>
      obtain rfl := QualifiedName.ofPath_injective (Expr.name.inj h)
      exact .refl _
    | .integer m, .integer n, _ => exact .respell (Expr.value.inj h)
    | .string s, .string t, _ =>
      obtain rfl := Value.string.inj (Expr.value.inj h)
      exact .refl _
    | .integer m, .string s, _ =>
      have hdigits : IsInteger m.toList := (every_of_nodes_eq rfl).1 hf
      exact absurd (Expr.value.inj h) ((ofDigits_of_isInteger hdigits).2 s)
    | .string s, .integer m, _ =>
      have hdigits : IsInteger m.toList := (every_of_nodes_eq rfl).1 hg
      exact absurd (Expr.value.inj h).symm ((ofDigits_of_isInteger hdigits).2 s)
    | .null, .null, _ => exact .refl _

theorem expr_eq_iff_alike {f g : Filter} (hf : f.Every Legible) (hg : g.Every Legible) :
    f.expr = g.expr ↔ f.Alike g :=
  ⟨alike_of_expr_eq hf hg, Alike.expr_eq⟩

end Filter

/-- **Compilation identifies exactly the filters that are alike.** Two filters
whose leaves are words of the language, as those of every filter that is read
are, compile to the same expression if and only if they differ only in the
grouping of runs of one connective and in the spelling of numbers. It makes no
difference whether floating-point numbers are compared as such or as numbers. -/
theorem compile_eq_iff_alike :
    (∀ f g : Filter, f.Every Filter.Legible → g.Every Filter.Legible →
        (f.compile.value = g.compile.value ↔ f.Alike g)
          ∧ ∃ e e', f.compile.value = some e ∧ g.compile.value = some e'
            ∧ (e.same e' = true ↔ f.Alike g))
      ∧ ∀ (text : String) (f : Filter), Filter.parse text = .ok (some f) →
        f.Every Filter.Legible := by
  refine ⟨fun f g hf hg => ⟨?_, f.expr, g.expr, ?_, ?_, ?_⟩, fun text f hparse => ?_⟩
  · rw [Filter.compile_eq, Filter.compile_eq, Option.some.injEq]
    exact Filter.expr_eq_iff_alike hf hg
  · rw [Filter.compile_eq]
  · rw [Filter.compile_eq]
  · rw [Expr.same_iff_eq (Filter.definite_expr hf) (Filter.definite_expr hg)]
    exact Filter.expr_eq_iff_alike hf hg
  · obtain ⟨ts, hts, hderives⟩ := (Filter.parseChars_eq_some_iff text.toList f).1 hparse
    exact hderives.legible hts.exists_spells_of_mem

/-- A conjunction grouped to the right, with a number that has leading zeros, is
alike to the one grouped to the left; with a string in place of the number it is
not. -/
theorem compile_eq_of_regrouped :
    ∃ f g h, Filter.parse "a and (not b and c.d eq 007)" = .ok (some f)
      ∧ Filter.parse "a and not b and c.d eq 7" = .ok (some g)
      ∧ Filter.parse "a and not b and c.d eq '7'" = .ok (some h)
      ∧ f ≠ g ∧ f.Alike g ∧ f.compile.value = g.compile.value
      ∧ ¬ g.Alike h ∧ g.compile.value ≠ h.compile.value := by
  let a : Filter := .identifier "a"
  let b : Filter := .not (.identifier "b")
  let d (x : Filter) : Filter := .binary (.comparison .eq) (.identifier "c.d") x
  let f : Filter := .binary (.logical .and) a (.binary (.logical .and) b (d (.integer "007")))
  let g : Filter := .binary (.logical .and) (.binary (.logical .and) a b) (d (.integer "7"))
  let h : Filter := .binary (.logical .and) (.binary (.logical .and) a b) (d (.string "7"))
  have hf : Filter.parse "a and (not b and c.d eq 007)" = .ok (some f) := rfl
  have hg : Filter.parse "a and not b and c.d eq 7" = .ok (some g) := rfl
  have hh : Filter.parse "a and not b and c.d eq '7'" = .ok (some h) := rfl
  have hlegible := compile_eq_iff_alike.2
  have halike : f.Alike g :=
    .trans (.symm (.assoc .and _ _ _)) (.binary _ (.refl _) (.binary _ (.refl _) (.respell rfl)))
  have hvalues := compile_eq_iff_alike.1 g h (hlegible _ _ hg) (hlegible _ _ hh)
  have hdifferent : ¬ g.Alike h := by
    obtain ⟨e, e', he, he', hsame⟩ := hvalues.2
    rw [Filter.compile_eq] at he he'
    cases he
    cases he'
    rw [← hsame]
    decide
  exact ⟨f, g, h, hf, hg, hh, by decide, halike,
    (compile_eq_iff_alike.1 f g (hlegible _ _ hf) (hlegible _ _ hg)).1.2 halike,
    hdifferent, mt hvalues.1.1 hdifferent⟩

end FilterSql
