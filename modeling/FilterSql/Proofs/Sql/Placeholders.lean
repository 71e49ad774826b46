import FilterSql.Proofs.Sql.Rendering
import FilterSql.Sql.Select
import Mathlib

/-!
# Placeholders and bound values stay in step

Two traversals of an expression have to agree. `Expr.params` lists the values
that it binds, and leaves out the `NULL` of a test by the comparator as it
stands; `Expr.pieces` writes a placeholder where a value is bound, after it has
turned negated comparisons into their complements and put arguments for the
marks of templates. Were they to differ in a single nested form, every later
value would be bound to the wrong placeholder.

`Binds ps vs` says that pieces bind the values `vs`, one for one, and that no
other mark `?` is left in their text. It has one lemma for each way in which
pieces are put together, so that an expression is followed as it is written
(`Expr.binds_pieces`). The only condition is the one that `Expr.raw?` checks: a
template has as many marks as arguments.

What `Binds` gives is a form of the text that does not depend on where it is
written (`InStep`): runs of pieces that bind nothing, and between each two of
them one placeholder, numbered from the values that were bound before. The main
statement is `placeholders_in_step`.
-/

namespace FilterSql

open Sql

/-! ## The nodes of an expression -/

namespace Expr

/-- **Induction on an expression**, along the way in which it is written: a
negated comparison is made of the sides of the comparison, and not of the
comparison itself. -/
@[elab_as_elim]
theorem writtenInduction {motive : Expr → Prop} (name : ∀ n, motive (.name n))
    (value : ∀ v, motive (.value v))
    (compare : ∀ l c r, motive l → motive r → motive (.compare l c r))
    (and : ∀ es, (∀ e ∈ es, motive e) → motive (.and es))
    (or : ∀ es, (∀ e ∈ es, motive e) → motive (.or es))
    (not_compare : ∀ l c r, motive l → motive r → motive (.not (.compare l c r)))
    (not : ∀ e, (∀ l c r, e ≠ .compare l c r) → motive e → motive (.not e))
    (raw : ∀ template args, (∀ e ∈ args, motive e) → motive (.raw template args)) (e : Expr) :
    motive e := by
  -- the negation of an expression goes along, for it to be a comparison
  have hboth : motive e ∧ motive (.not e) :=
    @Expr.rec (fun e => motive e ∧ motive (.not e)) (fun es => ∀ e ∈ es, motive e)
      (fun n => ⟨name n, not _ (by simp) (name n)⟩)
      (fun v => ⟨value v, not _ (by simp) (value v)⟩)
      (fun l c r hl hr => ⟨compare l c r hl.1 hr.1, not_compare l c r hl.1 hr.1⟩)
      (fun es hes => ⟨and es hes, not _ (by simp) (and es hes)⟩)
      (fun es hes => ⟨or es hes, not _ (by simp) (or es hes)⟩)
      (fun e he => ⟨he.2, not _ (by simp) he.2⟩)
      (fun t args hargs => ⟨raw t args hargs, not _ (by simp) (raw t args hargs)⟩)
      (by simp) (fun _ _ he hes => List.forall_mem_cons.2 ⟨he.1, hes⟩) e
  exact hboth.1

mutual

/-- **The nodes of an expression**, each before its operands. -/
def nodes : Expr → List Expr
  | name n => [name n]
  | value v => [value v]
  | compare l c r => compare l c r :: (l.nodes ++ r.nodes)
  | and es => and es :: nodesAll es
  | or es => or es :: nodesAll es
  | not e => not e :: e.nodes
  | raw template args => raw template args :: nodesAll args

/-- The nodes of some expressions, one after the other. -/
def nodesAll : List Expr → List Expr
  | [] => []
  | e :: es => e.nodes ++ nodesAll es

end

/-- Every node of an expression is so. -/
def Every (p : Expr → Prop) (e : Expr) : Prop :=
  ∀ x ∈ e.nodes, p x

instance (p : Expr → Prop) [DecidablePred p] (e : Expr) : Decidable (e.Every p) :=
  inferInstanceAs (Decidable (∀ x ∈ e.nodes, p x))

section Every

variable {p : Expr → Prop} {l r e : Expr} {es args : List Expr}

theorem forall_mem_nodesAll : (∀ x ∈ nodesAll es, p x) ↔ ∀ e ∈ es, e.Every p := by
  induction es with
  | nil => simp [nodesAll]
  | cons e es ih =>
    rw [nodesAll, List.forall_mem_append, ih, List.forall_mem_cons]
    rfl

theorem every_compare {c : Comparator} :
    (compare l c r).Every p ↔ p (compare l c r) ∧ l.Every p ∧ r.Every p := by
  show (∀ x ∈ compare l c r :: (l.nodes ++ r.nodes), p x) ↔ _
  rw [List.forall_mem_cons, List.forall_mem_append]
  rfl

theorem every_and : (and es).Every p ↔ p (and es) ∧ ∀ e ∈ es, e.Every p := by
  rw [← forall_mem_nodesAll]
  exact List.forall_mem_cons

theorem every_or : (or es).Every p ↔ p (or es) ∧ ∀ e ∈ es, e.Every p := by
  rw [← forall_mem_nodesAll]
  exact List.forall_mem_cons

theorem every_not : (not e).Every p ↔ p (not e) ∧ e.Every p :=
  List.forall_mem_cons

theorem every_raw {template : String} :
    (raw template args).Every p ↔ p (raw template args) ∧ ∀ e ∈ args, e.Every p := by
  rw [← forall_mem_nodesAll]
  exact List.forall_mem_cons

end Every

/-- **A raw expression has as many marks in its template as arguments.** -/
def Checked : Expr → Prop
  | raw template args => placeholders template = args.length
  | _ => True

instance : DecidablePred Checked
  | raw template args => inferInstanceAs (Decidable (placeholders template = args.length))
  | name _ | value _ | compare .. | and _ | or _ | not _ => .isTrue trivial

end Expr

/-! ## Pieces that bind values -/

namespace Sql

/-- **Pieces bind values**, one for one, and their text has no mark beside the
placeholders. -/
structure Binds (ps : List Piece) (vs : List Value) : Prop where
  bound : bound ps = vs
  unmarked (s : String) : Piece.text s ∈ ps → '?' ∉ s.toList

variable {ps qs : List Piece} {vs ws : List Value}

theorem binds_nil : Binds [] [] :=
  ⟨rfl, by simp⟩

theorem binds_param (v : Value) : Binds [.param v] [v] :=
  ⟨rfl, by simp⟩

theorem Binds.append (hp : Binds ps vs) (hq : Binds qs ws) : Binds (ps ++ qs) (vs ++ ws) where
  bound := by rw [bound_append, hp.bound, hq.bound]
  unmarked s hs := (List.mem_append.1 hs).elim (hp.unmarked s) (hq.unmarked s)

theorem binds_text {s : String} (hs : '?' ∉ s.toList) : Binds [.text s] [] where
  bound := rfl
  unmarked t ht := by
    obtain rfl : t = s := by simpa using ht
    exact hs

theorem Binds.text_cons {s : String} (hs : '?' ∉ s.toList) (h : Binds ps vs) :
    Binds (.text s :: ps) vs :=
  (binds_text hs).append h

theorem Binds.parens (h : Binds ps vs) : Binds (Piece.parens ps) vs := by
  have hclosed : Binds (ps ++ [.text ")"]) (vs ++ []) := h.append (binds_text (by decide))
  rw [List.append_nil] at hclosed
  exact hclosed.text_cons (by decide)

theorem Binds.parensIf (h : Binds ps vs) (needed : Bool) : Binds (Piece.parensIf needed ps) vs := by
  cases needed with
  | true => exact h.parens
  | false => exact h

/-- A name binds nothing, whatever it is made of. -/
theorem binds_name (n : QualifiedName) : Binds n.pieces [] := by
  have hparts : ∀ parts : List String,
      Binds ((parts.map Piece.name).intersperse (.text ".")) [] := by
    intro parts
    induction parts with
    | nil => exact binds_nil
    | cons s parts ih =>
      have hname : Binds [.name s] [] := ⟨rfl, by simp⟩
      cases parts with
      | nil => exact hname
      | cons s' parts => exact hname.append (ih.text_cons (by decide))
  exact hparts n.parts

variable {α : Type} {xs : List α} {g : α → List Piece} {f : α → List Value}

/-- Pieces with a text between them bind what they bind, one after the other. -/
theorem binds_intercalate {separator : String} (hsep : '?' ∉ separator.toList)
    (h : ∀ x ∈ xs, Binds (g x) (f x)) :
    Binds ([Piece.text separator].intercalate (xs.map g)) (xs.flatMap f) := by
  induction xs with
  | nil => exact binds_nil
  | cons x xs ih =>
    have hx := h x List.mem_cons_self
    cases xs with
    | nil => simpa using hx
    | cons y ys =>
      have hrest := ih fun z hz => h z (List.mem_cons_of_mem _ hz)
      exact hx.append (hrest.text_cons hsep)

theorem fill_cons_of_ne {c : Char} (hc : c ≠ '?') (cs : List Char) (args : List (List Piece)) :
    Expr.fill (c :: cs) args = .text (String.singleton c) :: Expr.fill cs args := by
  cases args <;> simp [Expr.fill, hc]

/-- **A template binds what its arguments bind**, if it has a mark for each. -/
theorem binds_fill {template : List Char} (hlength : template.count '?' = xs.length)
    (h : ∀ x ∈ xs, Binds (g x) (f x)) :
    Binds (Expr.fill template (xs.map g)) (xs.flatMap f) := by
  induction template generalizing xs with
  | nil =>
    obtain rfl : xs = [] := List.eq_nil_of_length_eq_zero hlength.symm
    exact binds_nil
  | cons c cs ih =>
    by_cases hc : c = '?'
    · subst hc
      cases xs with
      | nil => simp at hlength
      | cons x xs =>
        -- the mark is replaced, and the rest of the template has one less
        have hrest : Binds (Expr.fill cs (xs.map g)) (xs.flatMap f) :=
          ih (by simpa using hlength) fun z hz => h z (List.mem_cons_of_mem _ hz)
        exact (h x List.mem_cons_self).append hrest
    · rw [fill_cons_of_ne hc]
      refine (ih ?_ h).text_cons ?_
      · rwa [List.count_cons_of_ne hc] at hlength
      · simpa using Ne.symm hc

theorem binds_comparisonPieces (hp : Binds ps vs) (c : Comparator) (r : Expr)
    (hq : Binds qs ws) :
    Binds (Expr.comparisonPieces ps c r qs) (vs ++ if Expr.isNullTest c r then [] else ws) := by
  have hsymbol : '?' ∉ (" " ++ c.symbol ++ " ").toList := by cases c <;> decide
  have hplain : Binds (ps ++ .text (" " ++ c.symbol ++ " ") :: qs) (vs ++ ws) :=
    hp.append (hq.text_cons hsymbol)
  unfold Expr.comparisonPieces Expr.isNullTest
  cases hnull : r.isNullValue with
  | false =>
    rw [Bool.and_false]
    exact hplain
  | true =>
    cases c with
    | eq | ne => exact hp.append (binds_text (by decide))
    | gt | ge | lt | le => exact hplain

theorem binds_junctionPieces {separator empty : String} (hsep : '?' ∉ separator.toList)
    (hempty : '?' ∉ empty.toList) (h : ∀ x ∈ xs, Binds (g x) (f x)) :
    Binds (Expr.junctionPieces separator empty (xs.map g)) (xs.flatMap f) := by
  cases xs with
  | nil => exact binds_text hempty
  | cons x xs => exact binds_intercalate hsep h

end Sql

/-! ## What an expression binds -/

namespace Expr

/-- A negation binds what the negated expression binds. A negated comparison is
written from the sides of the comparison, and is left out here. -/
theorem binds_not {e : Expr} {vs : List Value} (he : ∀ l c r, e ≠ .compare l c r)
    (h : Binds e.pieces vs) : Binds (Expr.not e).pieces vs := by
  cases e with
  | compare l c r => exact absurd rfl (he l c r)
  | or es => exact h.text_cons (s := "NOT ") (by decide)
  | name n | value v | and es | not e | raw t args =>
    exact h.parens.text_cons (s := "NOT ") (by decide)

/-- **The pieces of an expression bind its values.** -/
theorem binds_pieces {e : Expr} (he : e.Every Checked) : Binds e.pieces e.params := by
  induction e using writtenInduction with
  | name n => exact binds_name n
  | value v => exact binds_param v
  | compare l c r ihl ihr =>
    obtain ⟨-, hl, hr⟩ := every_compare.1 he
    exact binds_comparisonPieces ((ihl hl).parensIf _) c r ((ihr hr).parensIf _)
  | and es ih =>
    rw [pieces_and, params, paramsAll_eq_flatMap]
    exact binds_junctionPieces (by decide) (by decide) fun e hmem =>
      (ih e hmem ((every_and.1 he).2 e hmem)).parensIf _
  | or es ih =>
    rw [pieces_or, params, paramsAll_eq_flatMap]
    exact (binds_junctionPieces (by decide) (by decide) fun e hmem =>
      (ih e hmem ((every_or.1 he).2 e hmem)).parensIf _).parens
  | not_compare l c r ihl ihr =>
    obtain ⟨-, hl, hr⟩ := every_compare.1 (every_not.1 he).2
    -- the complement tests for `NULL` where the comparison does
    have htest : isNullTest c.negate r = isNullTest c r := by simp [isNullTest]
    show Binds _ (l.params ++ if isNullTest c r then [] else r.params)
    rw [← htest]
    exact binds_comparisonPieces ((ihl hl).parensIf _) c.negate r ((ihr hr).parensIf _)
  | not e hne ih => exact binds_not hne (ih (every_not.1 he).2)
  | raw template args ih =>
    obtain ⟨hchecked, hargs⟩ := every_raw.1 he
    rw [pieces_raw, params, paramsAll_eq_flatMap]
    exact binds_fill hchecked fun e hmem => (ih e hmem (hargs e hmem)).parensIf _

end Expr

namespace Select

/-- **The expressions of a selection**, in the order in which they are
written. -/
def exprs (s : Select) : List Expr :=
  s.columns ++ s.predicate.toList ++ s.order.map OrderKey.key ++ s.limit.toList ++ s.offset.toList

/-- The values that a selection binds, clause by clause. -/
def params (s : Select) : List Value :=
  s.exprs.flatMap Expr.params

theorem binds_clausePieces {keyword : String} {e : Option Expr} (hkeyword : '?' ∉ keyword.toList)
    (he : ∀ x ∈ e.toList, x.Every Expr.Checked) :
    Binds (clausePieces keyword e) (e.toList.flatMap Expr.params) := by
  cases e with
  | none => exact binds_nil
  | some e =>
    rw [Option.toList_some, List.flatMap_singleton]
    exact (Expr.binds_pieces (he e (by simp))).text_cons hkeyword

theorem binds_keyPieces {k : OrderKey} (hk : k.key.Every Expr.Checked) :
    Binds (keyPieces k) k.key.params := by
  have hkey := Expr.binds_pieces hk
  match k with
  | ⟨_, none⟩ => simpa [keyPieces] using hkey
  | ⟨_, some .ascending⟩ | ⟨_, some .descending⟩ =>
    simpa [keyPieces] using hkey.append (binds_text (by decide))

theorem binds_sourcePieces (s : Source) : Binds (sourcePieces s) [] := by
  have htable : Binds (.text "FROM " :: s.table.pieces) [] :=
    (binds_name s.table).text_cons (by decide)
  match s with
  | ⟨_, none⟩ => simpa [sourcePieces] using htable
  | ⟨_, some n⟩ =>
    have hshort : Binds [.text " AS ", .name n] [] :=
      Binds.text_cons (by decide) ⟨rfl, by simp⟩
    exact htable.append hshort

/-- **The pieces of a selection bind the values of its expressions.** -/
theorem binds_pieces {s : Select} (hs : ∀ e ∈ s.exprs, e.Every Expr.Checked) :
    Binds s.pieces s.params := by
  simp only [exprs, List.forall_mem_append, List.forall_mem_map] at hs
  obtain ⟨⟨⟨⟨hcolumns, hpredicate⟩, horder⟩, hlimit⟩, hoffset⟩ := hs
  have hlist : Binds (if s.columns.isEmpty then [.text "*"]
      else listPieces (s.columns.map Expr.pieces)) (s.columns.flatMap Expr.params) := by
    split
    · rename_i hnone
      rw [List.isEmpty_iff.1 hnone]
      exact binds_text (by decide)
    · exact binds_intercalate (by decide) fun e he => Expr.binds_pieces (hcolumns e he)
  have hkeys : Binds (if s.order.isEmpty then []
      else .text " ORDER BY " :: listPieces (s.order.map keyPieces))
        ((s.order.map OrderKey.key).flatMap Expr.params) := by
    rw [List.flatMap_map]
    split
    · rename_i hnone
      rw [List.isEmpty_iff.1 hnone]
      exact binds_nil
    · exact (binds_intercalate (by decide) fun k hk => binds_keyPieces (horder k hk)).text_cons
        (by decide)
  have hwhere : Binds (clausePieces " WHERE " s.predicate) _ :=
    binds_clausePieces (by decide) hpredicate
  have hlimits : Binds (clausePieces " LIMIT " s.limit) _ := binds_clausePieces (by decide) hlimit
  have hoffsets : Binds (clausePieces " OFFSET " s.offset) _ :=
    binds_clausePieces (by decide) hoffset
  rw [pieces, params, exprs, List.flatMap_append, List.flatMap_append, List.flatMap_append,
    List.flatMap_append, ← List.append_nil (s.columns.flatMap _)]
  refine (((((hlist.text_cons (by decide)).append ?_).append hwhere).append hkeys).append
    hlimits).append hoffsets
  -- what remains is the source, which binds nothing
  cases s.source with
  | none => exact binds_nil
  | some source => exact (binds_sourcePieces source).text_cons (by decide)

end Select

/-! ## Fragments and placeholders -/

/-- A piece that binds nothing and has no mark of its own: a name, which is
quoted, or text without `?`. -/
def Piece.Inert : Piece → Prop
  | .text s => '?' ∉ s.toList
  | .name _ => True
  | .param _ => False

namespace Dialect

/-- The placeholders of `n` values, if `k` are bound before them. -/
def placeholdersFrom (d : Dialect) (k n : Nat) : List String :=
  (List.range n).map fun i => d.placeholder (k + i)

theorem placeholdersFrom_succ (d : Dialect) (k n : Nat) :
    d.placeholdersFrom k (n + 1) = d.placeholder k :: d.placeholdersFrom (k + 1) n := by
  unfold placeholdersFrom
  rw [List.range_succ_eq_map, List.map_cons, List.map_map]
  refine congrArg (d.placeholder k :: ·) (List.map_congr_left fun i _ => ?_)
  show d.placeholder (k + (i + 1)) = d.placeholder (k + 1 + i)
  rw [Nat.add_assoc, Nat.add_comm 1]

/-- **The numbers of the placeholders** run from one without a gap. -/
theorem placeholdersFrom_postgres (n : Nat) :
    placeholdersFrom .postgres 0 n = (List.range n).map fun i => "$" ++ toString (i + 1) :=
  List.map_congr_left fun i _ => by rw [Nat.zero_add]; rfl

/-- No two of the numbered placeholders are the same. -/
theorem nodup_placeholdersFrom_postgres (k n : Nat) : (placeholdersFrom .postgres k n).Nodup := by
  refine List.Nodup.map (fun i j h => ?_) List.nodup_range
  have hnumbers : toString (k + i + 1) = toString (k + j + 1) := (String.append_right_inj _).1 h
  have hsame := Sql.toString_toList_inj (congrArg String.toList hnumbers)
  omega

/-- The other dialects have one mark for every placeholder. -/
theorem placeholdersFrom_of_ne {d : Dialect} (hd : d ≠ .postgres) (k n : Nat) :
    d.placeholdersFrom k n = List.replicate n "?" := by
  refine List.eq_replicate_iff.2 ⟨by simp [placeholdersFrom], fun p hp => ?_⟩
  obtain ⟨i, -, rfl⟩ := List.mem_map.1 hp
  cases d with
  | postgres => exact absurd rfl hd
  | mysql | sqlite => rfl

end Dialect

namespace Sql

/-- The text of pieces, placeholders left out. -/
def fragment (d : Dialect) : List Piece → String
  | [] => ""
  | .text s :: ps => s ++ fragment d ps
  | .name s :: ps => d.quote s ++ fragment d ps
  | .param _ :: ps => fragment d ps

/-- Fragments of text with placeholders between them. -/
def interleave : List String → List String → String
  | [], _ => ""
  | s :: _, [] => s
  | s :: ss, p :: ps => s ++ p ++ interleave ss ps

theorem interleave_append (s t : String) (ts ps : List String) :
    interleave ((s ++ t) :: ts) ps = s ++ interleave (t :: ts) ps := by
  cases ps with
  | nil => rfl
  | cons p ps => simp only [interleave, String.append_assoc]

/-- The runs of pieces between those that bind a value. -/
def runs : List Piece → List (List Piece)
  | [] => [[]]
  | .text s :: ps => (runs ps).modifyHead (.text s :: ·)
  | .name s :: ps => (runs ps).modifyHead (.name s :: ·)
  | .param _ :: ps => [] :: runs ps

theorem length_runs (ps : List Piece) : (runs ps).length = (bound ps).length + 1 := by
  induction ps with
  | nil => rfl
  | cons p ps ih => cases p <;> simp [runs, ih]

theorem exists_runs_eq (ps : List Piece) : ∃ run rest, runs ps = run :: rest := by
  refine List.exists_cons_of_ne_nil fun h => ?_
  have hlength := length_runs ps
  rw [h] at hlength
  exact absurd hlength.symm (Nat.succ_ne_zero _)

/-- The pieces in the runs are those that bind nothing. -/
theorem mem_of_mem_runs {ps run : List Piece} (hrun : run ∈ runs ps) {p : Piece} (hp : p ∈ run) :
    p ∈ ps ∧ ∀ v, p ≠ .param v := by
  induction ps generalizing run with
  | nil =>
    obtain rfl : run = [] := by simpa [runs] using hrun
    cases hp
  | cons q ps ih =>
    obtain ⟨first, rest, hruns⟩ := exists_runs_eq ps
    rw [hruns] at ih
    cases q with
    | text s | name s =>
      rw [runs, hruns, List.modifyHead_cons] at hrun
      rcases List.mem_cons.1 hrun with rfl | hrest
      · rcases List.mem_cons.1 hp with rfl | hp
        · exact ⟨List.mem_cons_self, by simp⟩
        · obtain ⟨hmem, hne⟩ := ih List.mem_cons_self hp
          exact ⟨List.mem_cons_of_mem _ hmem, hne⟩
      · obtain ⟨hmem, hne⟩ := ih (List.mem_cons_of_mem _ hrest) hp
        exact ⟨List.mem_cons_of_mem _ hmem, hne⟩
    | param v =>
      rw [runs, hruns] at hrun
      rcases List.mem_cons.1 hrun with rfl | hrest
      · cases hp
      · obtain ⟨hmem, hne⟩ := ih hrest hp
        exact ⟨List.mem_cons_of_mem _ hmem, hne⟩

/-- **Writing pieces appends their fragments**, with the placeholders of the
values between them. -/
theorem sql_write (d : Dialect) (st : Statement) (ps : List Piece) :
    (st.write d ps).sql = st.sql ++ interleave ((runs ps).map (fragment d))
      (d.placeholdersFrom st.params.length (bound ps).length) := by
  induction ps generalizing st with
  | nil => exact String.append_empty.symm
  | cons p ps ih =>
    obtain ⟨run, rest, hruns⟩ := exists_runs_eq ps
    rw [hruns, List.map_cons] at ih
    rw [Statement.write_cons, ih]
    cases p with
    | text s | name s =>
      rw [runs, hruns, List.modifyHead_cons, List.map_cons, fragment, interleave_append]
      exact String.append_assoc
    | param v =>
      rw [runs, hruns, List.map_cons, List.map_cons, bound_param, List.length_cons,
        Dialect.placeholdersFrom_succ]
      simp [Statement.push, interleave, fragment, String.append_assoc]

/-- **Pieces are in step with values.** Wherever they are written, and in
whatever dialect, they append the texts of the same runs with one placeholder
between each two of them, numbered from the values that are bound already, and
they bind the values. No run binds anything or has a mark of its own. -/
structure InStep (ps : List Piece) (vs : List Value) (runs : List (List Piece)) : Prop where
  length : runs.length = vs.length + 1
  inert : ∀ run ∈ runs, ∀ p ∈ run, p.Inert
  write (d : Dialect) (st : Statement) :
    st.write d ps = ⟨st.sql ++ interleave (runs.map (fragment d))
      (d.placeholdersFrom st.params.length vs.length), st.params ++ vs⟩

theorem Binds.inStep {ps : List Piece} {vs : List Value} (h : Binds ps vs) :
    InStep ps vs (runs ps) where
  length := by rw [length_runs, h.bound]
  inert run hrun p hp := by
    obtain ⟨hmem, hne⟩ := mem_of_mem_runs hrun hp
    match p with
    | .text s => exact h.unmarked s hmem
    | .name _ => trivial
    | .param v => exact absurd rfl (hne v)
  write d st := by
    show (⟨(st.write d ps).sql, (st.write d ps).params⟩ : Statement) = _
    rw [sql_write, Statement.params_write, ← h.bound]
    rfl

end Sql

/-- **Placeholders and values stay in step**, in every expression and in every
selection whose templates have as many marks as arguments. So a statement that
is written from the start has placeholders numbered from one, without a gap and
none of them twice, or as many bare marks as it binds values.

Placeholders are those that are written for values. A `$1` that stands in the
template of a raw expression is text like any other and is not counted. -/
theorem placeholders_in_step :
    (∀ e : Expr, e.Every Expr.Checked → ∃ runs, InStep e.pieces e.params runs)
      ∧ (∀ s : Select, (∀ e ∈ s.exprs, e.Every Expr.Checked) →
          ∃ runs, InStep s.pieces s.params runs)
      ∧ ∀ ps vs runs, InStep ps vs runs →
          Statement.ofPieces .postgres ps
            = ⟨interleave (runs.map (fragment .postgres))
                ((List.range vs.length).map fun i => "$" ++ toString (i + 1)), vs⟩
          ∧ ((List.range vs.length).map fun i => "$" ++ toString (i + 1)).Nodup
          ∧ ∀ d : Dialect, d ≠ .postgres → Statement.ofPieces d ps
            = ⟨interleave (runs.map (fragment d)) (List.replicate vs.length "?"), vs⟩ := by
  refine ⟨fun e he => ⟨_, (Expr.binds_pieces he).inStep⟩,
    fun s hs => ⟨_, (Select.binds_pieces hs).inStep⟩, fun ps vs runs h => ?_⟩
  have hstart : ∀ d : Dialect, Statement.ofPieces d ps
      = ⟨interleave (runs.map (fragment d)) (d.placeholdersFrom 0 vs.length), vs⟩ := by
    intro d
    rw [Statement.ofPieces, h.write, Statement.empty, String.empty_append]
    rfl
  refine ⟨?_, ?_, fun d hd => ?_⟩
  · rw [hstart, Dialect.placeholdersFrom_postgres]
  · rw [← Dialect.placeholdersFrom_postgres]
    exact Dialect.nodup_placeholdersFrom_postgres 0 vs.length
  · rw [hstart, Dialect.placeholdersFrom_of_ne hd]

/-- A condition with a negated test for `NULL`, which binds nothing, before a
template with three arguments, of which the first is no value; by itself, and
in a selection with a limit. -/
theorem placeholders_in_step_between :
    ∃ (e : Expr) (s : Select), s.predicate = some e
      ∧ e.Every Expr.Checked
      ∧ (∃ runs, InStep e.pieces [.int 1, .string "?", .null] runs)
      ∧ (∀ x ∈ s.exprs, x.Every Expr.Checked)
      ∧ ∃ runs, InStep s.pieces [.int 1, .string "?", .null, .int 10] runs
        ∧ Statement.ofPieces .postgres s.pieces
          = ⟨interleave (runs.map (fragment .postgres)) ["$1", "$2", "$3", "$4"],
              [.int 1, .string "?", .null, .int 10]⟩
        ∧ (Statement.ofPieces .postgres s.pieces).sql
          = "SELECT * FROM \"t\" WHERE \"a?\" IS NOT NULL "
            ++ "AND \"b\" BETWEEN $1 AND ($2 OR $3) LIMIT $4" := by
  let e : Expr := .and [.not (.compare (.name ⟨none, "a?"⟩) .eq (.value .null)),
    .raw "? BETWEEN ? AND ?" [.name ⟨none, "b"⟩, .value (.int 1),
      .or [.value (.string "?"), .value .null]]]
  let s : Select := ⟨[], some ⟨⟨none, "t"⟩, none⟩, some e, [], some (.value (.int 10)), none⟩
  have he : e.Every Expr.Checked := by decide
  have hs : ∀ x ∈ s.exprs, x.Every Expr.Checked := by decide
  have hmarks : (List.range 4).map (fun i => "$" ++ toString (i + 1))
      = ["$1", "$2", "$3", "$4"] := by decide +kernel
  obtain ⟨runs, hruns⟩ := placeholders_in_step.2.1 s hs
  refine ⟨e, s, rfl, he, placeholders_in_step.1 e he, hs, runs, hruns, ?_, by decide +kernel⟩
  rw [← hmarks]
  exact (placeholders_in_step.2.2 _ _ _ hruns).1

end FilterSql
