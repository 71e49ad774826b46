import FilterSql.Proofs.Alike
import FilterSql.Proofs.Filter.Composition
import FilterSql.Proofs.Leaves
import FilterSql.Proofs.Sql.Names
import Mathlib

/-!
# Which filters are read from texts

A filter may be built by hand from any strings. What the parser builds is less,
and exactly as much as the words of the language allow: the paths in it are
identifiers, its integers are digits, and that is all (`Filter.Legible`). One
half is that nothing else can be read; the other is that everything of that kind
can, whatever its shape, and the text form does not show it, for it loses the
negated sides of comparisons. The text with all parentheses does
(`Filter.hasDerivation_grouped`).

Two safety nets are therefore never needed for a filter that was read. A name is
quoted part by part, and a quote inside a part would be doubled; but what is
quoted for a compiled filter are the parts of its paths (`Expr.namesAre_pieces`),
and no identifier has a quote in it. An integer literal that is no number would
be bound as a string; but digits are a number. The main statement is
`exists_parse_iff_legible`.
-/

namespace FilterSql

/-! ## The characters of a path -/

namespace QualifiedName

/-- The parts of a name have no characters but those of its path. -/
theorem mem_path_of_mem_parts {n : QualifiedName} {s : String} {c : Char} (hs : s ∈ n.parts)
    (hc : c ∈ s.toList) : c ∈ n.path.toList := by
  match n with
  | ⟨none, name⟩ =>
    rw [List.mem_singleton.1 hs] at hc
    exact hc
  | ⟨some q, name⟩ =>
    rw [path, String.toList_append, String.toList_append, List.mem_append, List.mem_append]
    rcases List.mem_append.1 hs with hs | hs
    · obtain ⟨p, hp, rfl⟩ := List.mem_map.1 hs
      rw [String.toList_ofList] at hc
      exact .inl (.inl (Text.mem_of_mem_segments hp hc))
    · rw [List.mem_singleton.1 hs] at hc
      exact .inr hc

end QualifiedName

/-! ## What is quoted -/

namespace Sql

/-- Every name among some pieces is so. -/
def NamesAre (p : String → Prop) (ps : List Piece) : Prop :=
  ∀ s, Piece.name s ∈ ps → p s

variable {p : String → Prop} {ps qs : List Piece}

@[simp] theorem namesAre_nil : NamesAre p [] := by
  simp [NamesAre]

@[simp] theorem namesAre_append : NamesAre p (ps ++ qs) ↔ NamesAre p ps ∧ NamesAre p qs := by
  simp [NamesAre, or_imp, forall_and]

@[simp] theorem namesAre_text_cons {s : String} : NamesAre p (.text s :: ps) ↔ NamesAre p ps := by
  simp [NamesAre]

@[simp] theorem namesAre_name_cons {s : String} :
    NamesAre p (.name s :: ps) ↔ p s ∧ NamesAre p ps := by
  simp [NamesAre]

@[simp] theorem namesAre_param_cons {v : Value} : NamesAre p (.param v :: ps) ↔ NamesAre p ps := by
  simp [NamesAre]

@[simp] theorem namesAre_parens : NamesAre p (Piece.parens ps) ↔ NamesAre p ps := by
  simp [Piece.parens]

@[simp] theorem namesAre_parensIf {needed : Bool} :
    NamesAre p (Piece.parensIf needed ps) ↔ NamesAre p ps := by
  cases needed <;> simp [Piece.parensIf]

/-- A name is quoted part by part. -/
theorem namesAre_name {n : QualifiedName} (h : ∀ s ∈ n.parts, p s) : NamesAre p n.pieces := by
  unfold QualifiedName.pieces
  generalize n.parts = parts at h
  induction parts with
  | nil => exact namesAre_nil
  | cons s parts ih =>
    obtain ⟨hs, hparts⟩ := List.forall_mem_cons.1 h
    cases parts with
    | nil => simpa using hs
    | cons t parts => simpa [hs] using ih hparts

theorem namesAre_intercalate {separator : String} {pss : List (List Piece)}
    (h : ∀ ps ∈ pss, NamesAre p ps) : NamesAre p ([Piece.text separator].intercalate pss) := by
  induction pss with
  | nil => exact namesAre_nil
  | cons ps pss ih =>
    obtain ⟨hps, hpss⟩ := List.forall_mem_cons.1 h
    cases pss with
    | nil => simpa using hps
    | cons qs pss =>
      show NamesAre p (ps ++ .text separator :: [Piece.text separator].intercalate (qs :: pss))
      simp [hps, ih hpss]

theorem namesAre_junctionPieces {separator empty : String} {pss : List (List Piece)}
    (h : ∀ ps ∈ pss, NamesAre p ps) : NamesAre p (Expr.junctionPieces separator empty pss) := by
  unfold Expr.junctionPieces
  split
  · simp
  · exact namesAre_intercalate h

theorem namesAre_comparisonPieces {c : Comparator} {r : Expr} (hp : NamesAre p ps)
    (hq : NamesAre p qs) : NamesAre p (Expr.comparisonPieces ps c r qs) := by
  unfold Expr.comparisonPieces
  split <;> simp [hp, hq]

/-- An argument that has no mark is left out, and a mark without an argument is
text, so nothing is asked of the template. -/
theorem namesAre_fill {template : List Char} {pss : List (List Piece)}
    (h : ∀ ps ∈ pss, NamesAre p ps) : NamesAre p (Expr.fill template pss) := by
  induction template generalizing pss with
  | nil => simp [Expr.fill]
  | cons c cs ih =>
    by_cases hc : c = '?'
    · subst hc
      cases pss with
      | nil => simpa [Expr.fill] using ih h
      | cons ps pss =>
        obtain ⟨hps, hpss⟩ := List.forall_mem_cons.1 h
        simp [Expr.fill, hps, ih hpss]
    · rw [fill_cons_of_ne hc]
      simpa using ih h

end Sql

namespace Expr

open Sql

variable {p : String → Prop}

theorem namesAre_not {e : Expr} (he : ∀ l c r, e ≠ .compare l c r) (h : NamesAre p e.pieces) :
    NamesAre p (Expr.not e).pieces := by
  cases e with
  | compare l c r => exact absurd rfl (he l c r)
  | or es => exact namesAre_text_cons.2 h
  | name n | value v | and es | not e | raw t args =>
    exact namesAre_text_cons.2 (namesAre_parens.2 h)

/-- **What is quoted for an expression are the parts of its names.** -/
theorem namesAre_pieces {e : Expr} (h : ∀ n ∈ e.names, ∀ s ∈ n.parts, p s) :
    NamesAre p e.pieces := by
  -- the names of a list of expressions are those of each of them
  have hall : ∀ es : List Expr, (∀ n ∈ namesAll es, ∀ s ∈ n.parts, p s) →
      ∀ e ∈ es, ∀ n ∈ e.names, ∀ s ∈ n.parts, p s := by
    intro es hes e he n hn
    exact hes n (namesAll_eq_flatMap es ▸ List.mem_flatMap.2 ⟨e, he, hn⟩)
  induction e using writtenInduction with
  | name n => exact namesAre_name (h n List.mem_cons_self)
  | value v => simp [pieces]
  | compare l c r ihl ihr | not_compare l c r ihl ihr =>
    obtain ⟨hl, hr⟩ := List.forall_mem_append.1 h
    exact namesAre_comparisonPieces (namesAre_parensIf.2 (ihl hl)) (namesAre_parensIf.2 (ihr hr))
  | and es ih =>
    rw [pieces_and]
    refine namesAre_junctionPieces (List.forall_mem_map.2 fun e he => ?_)
    exact namesAre_parensIf.2 (ih e he (hall es h e he))
  | or es ih =>
    rw [pieces_or]
    refine namesAre_parens.2 (namesAre_junctionPieces (List.forall_mem_map.2 fun e he => ?_))
    exact namesAre_parensIf.2 (ih e he (hall es h e he))
  | not e hne ih => exact namesAre_not hne (ih h)
  | raw template args ih =>
    rw [pieces_raw]
    refine namesAre_fill (List.forall_mem_map.2 fun e he => ?_)
    exact namesAre_parensIf.2 (ih e he (hall args h e he))

end Expr

/-! ## What is read -/

namespace Filter

/-- The paths of a legible filter are identifiers, and its integers are digits. -/
theorem leaves_of_legible {f : Filter} (hf : f.Every Legible) :
    (∀ path ∈ f.paths, IsIdentifier path.toList)
      ∧ ∀ digits, .integer digits ∈ f.literals → IsInteger digits.toList := by
  induction f with
  | binary op l r ihl ihr =>
    obtain ⟨-, hl, hr⟩ := every_binary.1 hf
    obtain ⟨hpaths, hdigits⟩ := ihl hl
    obtain ⟨hpaths', hdigits'⟩ := ihr hr
    refine ⟨List.forall_mem_append.2 ⟨hpaths, hpaths'⟩, fun digits h => ?_⟩
    exact (List.mem_append.1 h).elim (hdigits digits) (hdigits' digits)
  | not f ih => exact ih (every_not.1 hf).2
  | identifier path => exact ⟨List.forall_mem_singleton.2 ((every_of_nodes_eq rfl).1 hf), nofun⟩
  | integer digits =>
    refine ⟨nofun, fun digits' h => ?_⟩
    obtain rfl := Literal.integer.inj (List.mem_singleton.1 h)
    exact (every_of_nodes_eq rfl).1 hf
  | string s => exact ⟨nofun, fun digits h => nomatch List.mem_singleton.1 h⟩
  | null => exact ⟨nofun, nofun⟩

/-- What is read from a text is legible. -/
theorem legible_of_parse {text : String} {f : Filter} (h : parse text = .ok (some f)) :
    f.Every Legible :=
  ((parseChars_eq_some_iff text.toList f).1 h).legible

/-- **No quote stands in a name** that is quoted for a legible filter. -/
theorem quoteChar_notMem_of_legible {f : Filter} (hf : f.Every Legible) (d : Dialect) {s : String}
    (hs : Piece.name s ∈ f.expr.pieces) : d.quoteChar ∉ s.toList := by
  have hquote : isIdentChar d.quoteChar = false := by
    cases d <;> decide
  refine Expr.namesAre_pieces (p := fun s => d.quoteChar ∉ s.toList) (fun n hn s hs hmem => ?_) s hs
  rw [names_expr] at hn
  obtain ⟨path, hpath, rfl⟩ := List.mem_map.1 hn
  have hchar := QualifiedName.mem_path_of_mem_parts hs hmem
  rw [QualifiedName.path_ofPath] at hchar
  rw [((leaves_of_legible hf).1 path hpath).chars _ hchar] at hquote
  cases hquote

/-- **No integer literal of a legible filter is bound as a string.** -/
theorem exists_bound_of_legible {f : Filter} (hf : f.Every Legible) (d : Dialect) {i : Nat}
    {digits : String} (hi : f.literals[i]? = some (.integer digits)) :
    ∃ v, ((Restriction.ofFilter (some f)).value.render d).params[i]? = some v
      ∧ ∀ s, v ≠ .string s := by
  refine ⟨Value.ofDigits digits, ?_, ?_⟩
  · rw [Restriction.render_ofFilter, List.getElem?_map, hi]
    rfl
  · exact (ofDigits_of_isInteger ((leaves_of_legible hf).2 digits (List.mem_of_getElem? hi))).2

end Filter

/-- **The parser reads exactly the legible filters.** There is a text from which a
filter is read if and only if every path in it is an identifier and every integer
has digits only, whatever its shape and its strings. So for a filter that is read
no name that is quoted has a quote in it, in any dialect, and no integer literal
is bound as a string. -/
theorem exists_parse_iff_legible :
    (∀ f : Filter, (∃ text, Filter.parse text = .ok (some f)) ↔ f.Every Filter.Legible)
      ∧ ∀ (text : String) (f : Filter) (d : Dialect), Filter.parse text = .ok (some f) →
        (∃ e, f.compile.value = some e
            ∧ ∀ s, Piece.name s ∈ e.pieces → d.quoteChar ∉ s.toList)
          ∧ ∀ (i : Nat) (digits : String), f.literals[i]? = some (.integer digits) →
            ∃ v, ((Restriction.ofFilter (some f)).value.render d).params[i]? = some v
              ∧ ∀ s, v ≠ .string s := by
  refine ⟨fun f => ⟨?_, fun hf => ⟨f.grouped, ?_⟩⟩, fun text f d hparse => ?_⟩
  · rintro ⟨text, hparse⟩
    exact Filter.legible_of_parse hparse
  · exact (Filter.parseChars_eq_some_iff f.grouped.toList f).2 (Filter.hasDerivation_grouped hf)
  · have hf := Filter.legible_of_parse hparse
    refine ⟨⟨f.expr, ?_, fun s => Filter.quoteChar_notMem_of_legible hf d⟩,
      fun i digits => Filter.exists_bound_of_legible hf d⟩
    rw [Filter.compile_eq]

/-- A comparison of a negated path with a comparison is read from some text, though
not from its text form. In the statement of `u.id ge 007 or a` the names have no
quotes, and the integer is bound as a number. -/
theorem exists_parse_iff_legible_negated :
    (∃ text, Filter.parse text = .ok (some (.binary (.comparison .eq) (.not (.identifier "a"))
        (.binary (.comparison .lt) (.string "'(") .null))))
      ∧ ∃ f, Filter.parse "u.id ge 007 or a" = .ok (some f)
        ∧ (∃ e, f.compile.value = some e
            ∧ ∀ s, Piece.name s ∈ e.pieces → Dialect.postgres.quoteChar ∉ s.toList)
        ∧ ∃ v, ((Restriction.ofFilter (some f)).value.render .postgres).params[0]? = some v
            ∧ ∀ s, v ≠ .string s := by
  obtain ⟨hiff, hread⟩ := exists_parse_iff_legible
  refine ⟨(hiff _).2 ?_, _, rfl, ?_⟩
  · have hleaf : (Filter.identifier "a").Every Filter.Legible :=
      (Filter.every_of_nodes_eq rfl).2 (show Filter.IsIdentifier "a".toList by decide)
    exact Filter.every_binary.2 ⟨trivial, Filter.every_not.2 ⟨trivial, hleaf⟩,
      Filter.every_binary.2 ⟨trivial, (Filter.every_of_nodes_eq rfl).2 trivial,
        (Filter.every_of_nodes_eq rfl).2 trivial⟩⟩
  · obtain ⟨hnames, hbound⟩ := hread "u.id ge 007 or a" _ .postgres rfl
    exact ⟨hnames, hbound 0 "007" rfl⟩

end FilterSql
