import FilterSql.Proofs.Direct
import Mathlib

/-!
# The leaves of a filter in its statement

A filter has two kinds of leaves that a statement carries on: paths, which
become names in the text, and literals, which become bound values and leave only
placeholders behind.

Both arrive whole and in order. The names of the expression that a filter
compiles to are those of its paths, and the values that its statement binds are
those of its literals, each from left to right (`leaves_kept`). A junction is
flat where the filter is a tree, but what it lists of its members is what the
two sides list, one after the other (`Expr.flatMap_members`).

And the literals arrive nowhere else. Replacing every literal by one and the
same (`Filter.masked`) replaces the bound values and nothing more: it commutes
with compilation (`Filter.expr_masked`) and with writing
(`Expr.pieces_mapValues`), where the only question that is ever asked of a value
is whether it is `NULL`, which no literal is. So filters that differ in their
literals alone have the same text (`sql_eq_of_masked_eq`), and no literal can be
chosen so as to become SQL.
-/

namespace FilterSql

open Sql

/-! ## Literals and names -/

/-- **A literal for which a value is bound**: an integer, as its digits, or a
string. -/
inductive Literal where
  | integer (digits : String)
  | string (s : String)
  deriving DecidableEq

/-- The value that is bound for a literal. -/
def Literal.value : Literal → Value
  | integer digits => .ofDigits digits
  | string s => .string s

/-- **The literals of a filter**, from left to right. Nothing is bound for
`null`. -/
def Filter.literals : Filter → List Literal
  | binary _ l r => l.literals ++ r.literals
  | not f => f.literals
  | integer digits => [.integer digits]
  | string s => [.string s]
  | identifier _ | null => []

namespace Expr

mutual

/-- **The names in an expression**, from left to right. -/
def names : Expr → List QualifiedName
  | name n => [n]
  | value _ => []
  | compare l _ r => l.names ++ r.names
  | and es => namesAll es
  | or es => namesAll es
  | not e => e.names
  | raw _ args => namesAll args

/-- The names in some expressions, one after the other. -/
def namesAll : List Expr → List QualifiedName
  | [] => []
  | e :: es => e.names ++ namesAll es

end

theorem namesAll_eq_flatMap (es : List Expr) : namesAll es = es.flatMap names := by
  induction es with
  | nil => rfl
  | cons e es ih => rw [namesAll, ih, List.flatMap_cons]

section Members

variable {α : Type} {F : Expr → List α}

/-- What a junction lists of its members, the members list. -/
theorem flatMap_members (hF : ∀ k es, F (ofMembers k es) = es.flatMap F) (k : Connective)
    (e : Expr) : (e.members k).flatMap F = F e := by
  rcases members_cases k e with hjunction | hself
  · rw [← hF k, ← hjunction]
  · rw [hself, List.flatMap_singleton]

/-- **A flat junction lists what its two sides list**, one after the other. -/
theorem apply_joined (hF : ∀ k es, F (ofMembers k es) = es.flatMap F) (k : Connective)
    (l r : Expr) : F (joined k l r) = F l ++ F r := by
  unfold joined
  rw [hF, List.flatMap_append, flatMap_members hF, flatMap_members hF]

end Members

theorem params_joined (k : Connective) (l r : Expr) :
    (joined k l r).params = l.params ++ r.params := by
  refine apply_joined (fun k es => ?_) k l r
  rw [← paramsAll_eq_flatMap]
  cases k <;> rfl

theorem names_joined (k : Connective) (l r : Expr) :
    (joined k l r).names = l.names ++ r.names := by
  refine apply_joined (fun k es => ?_) k l r
  rw [← namesAll_eq_flatMap]
  cases k <;> rfl

end Expr

/-! ## Every leaf arrives -/

namespace Filter

/-- A comparison between a column and a literal has a value to bind, unless the
literal is `null` and it is tested for. -/
theorem columnAndValue?_eq_some {c : Comparator} {l r : Filter} {path : String} {v : Value}
    (h : columnAndValue? c l r = some (path, v)) :
    l = identifier path ∧ r.size = 1 ∧ r.paths = []
      ∧ (if Expr.isNullTest c (.value v) then [] else [v]) = r.literals.map Literal.value := by
  unfold columnAndValue? at h
  split at h
  · cases h
    refine ⟨rfl, rfl, rfl, ?_⟩
    rw [Expr.isNullTest, isNullValue_ofDigits, Bool.and_false]
    rfl
  · cases h
    refine ⟨rfl, rfl, rfl, ?_⟩
    rw [show (Expr.isNullTest c (.value (.string _))) = false from Bool.and_false _]
    rfl
  · split at h
    · rename_i hc
      cases h
      refine ⟨rfl, rfl, rfl, ?_⟩
      rw [Expr.isNullTest, hc]
      rfl
    · cases h
  · cases h

/-- **The values that an expression binds are those of the literals.** -/
theorem params_expr (f : Filter) : f.expr.params = f.literals.map Literal.value := by
  induction f with
  | binary op l r ihl ihr =>
    rw [literals, List.map_append]
    cases op with
    | logical k => rw [expr, Expr.params_joined, ihl, ihr]
    | comparison c =>
      rw [expr, compared]
      split
      · rename_i path v h
        obtain ⟨rfl, -, -, hvalue⟩ := columnAndValue?_eq_some h
        exact hvalue
      · show l.expr.params ++ (r.expr.params ++ []) = _
        rw [ihl, ihr, List.append_nil]
  | not f ih => exact ih
  | identifier path => rfl
  | integer digits => rfl
  | string s => rfl
  | null => rfl

/-- **The names in an expression are those of the paths.** -/
theorem names_expr (f : Filter) : f.expr.names = f.paths.map QualifiedName.ofPath := by
  induction f with
  | binary op l r ihl ihr =>
    rw [paths, List.map_append]
    cases op with
    | logical k => rw [expr, Expr.names_joined, ihl, ihr]
    | comparison c =>
      rw [expr, compared]
      split
      · rename_i path v h
        obtain ⟨rfl, -, hpaths, -⟩ := columnAndValue?_eq_some h
        rw [hpaths]
        rfl
      · show l.expr.names ++ (r.expr.names ++ []) = _
        rw [ihl, ihr, List.append_nil]
  | not f ih => exact ih
  | identifier path => rfl
  | integer digits => rfl
  | string s => rfl
  | null => rfl

end Filter

/-- **The statement of a filter**: the text of its expression, and the values of
its literals. -/
theorem Restriction.render_ofFilter (f : Filter) (d : Dialect) :
    (Restriction.ofFilter (some f)).value.render d
      = ⟨" WHERE " ++ (f.expr.render d).sql, f.literals.map Literal.value⟩ := by
  have hparams : (f.expr.render d).params = f.literals.map Literal.value := by
    rw [← f.params_expr, Expr.render, Statement.ofPieces, Statement.params_write]
    exact (Expr.binds_pieces f.plain_expr.every_checked).bound
  rw [value_ofFilter, ← hparams]
  rfl

/-- **No leaf is lost, doubled or moved.** Every filter compiles to an
expression, whose names are those of the paths, and its statement binds the
values of the literals, all of them from left to right. -/
theorem leaves_kept (f : Filter) (d : Dialect) :
    ∃ e, f.compile.value = some e
      ∧ ((Restriction.ofFilter (some f)).value.render d).params = f.literals.map Literal.value
      ∧ e.names = f.paths.map QualifiedName.ofPath := by
  refine ⟨f.expr, ?_, ?_, f.names_expr⟩
  · rw [Filter.compile_eq]
  · rw [Restriction.render_ofFilter]

/-! ## Values are only bound -/

namespace Piece

/-- A piece with another value to bind. -/
def mapValue (φ : Value → Value) : Piece → Piece
  | param v => param (φ v)
  | text s => text s
  | name s => name s

variable (φ : Value → Value)

theorem map_mapValue_parensIf (needed : Bool) (ps : List Piece) :
    (parensIf needed ps).map (mapValue φ) = parensIf needed (ps.map (mapValue φ)) := by
  cases needed with
  | true =>
    show text "(" :: (ps ++ [text ")"]).map (mapValue φ) = _
    rw [List.map_append]
    rfl
  | false => rfl

theorem map_mapValue_name (n : QualifiedName) : n.pieces.map (mapValue φ) = n.pieces := by
  have hparts : ∀ parts : List String,
      ((parts.map Piece.name).intersperse (.text ".")).map (mapValue φ)
        = (parts.map Piece.name).intersperse (.text ".") := by
    intro parts
    induction parts with
    | nil => rfl
    | cons s parts ih =>
      cases parts with
      | nil => rfl
      | cons s' parts => exact congrArg (fun ps => name s :: text "." :: ps) ih
  exact hparts n.parts

theorem map_mapValue_intercalate (separator : String) (pss : List (List Piece)) :
    ([text separator].intercalate pss).map (mapValue φ)
      = [text separator].intercalate (pss.map (List.map (mapValue φ))) := by
  induction pss with
  | nil => rfl
  | cons ps pss ih =>
    cases pss with
    | nil => simp
    | cons qs pss =>
      show (ps ++ text separator :: [text separator].intercalate (qs :: pss)).map (mapValue φ) = _
      rw [List.map_append, List.map_cons, ih]
      rfl

end Piece

namespace Sql

/-- **The text of pieces does not depend on the values they bind.** -/
theorem chars_map_mapValue (d : Dialect) (φ : Value → Value) (k : Nat) (ps : List Piece) :
    chars d k (ps.map (Piece.mapValue φ)) = chars d k ps := by
  induction ps generalizing k with
  | nil => rfl
  | cons p ps ih =>
    cases p with
    | text s | name s | param v =>
      rw [List.map_cons, Piece.mapValue, chars, chars, ih]

end Sql

namespace Expr

mutual

/-- An expression with other values. -/
def mapValues (φ : Value → Value) : Expr → Expr
  | name n => name n
  | value v => value (φ v)
  | compare l c r => compare (l.mapValues φ) c (r.mapValues φ)
  | and es => and (mapValuesAll φ es)
  | or es => or (mapValuesAll φ es)
  | not e => not (e.mapValues φ)
  | raw template args => raw template (mapValuesAll φ args)

/-- Some expressions with other values. -/
def mapValuesAll (φ : Value → Value) : List Expr → List Expr
  | [] => []
  | e :: es => e.mapValues φ :: mapValuesAll φ es

end

variable (φ : Value → Value)

theorem mapValuesAll_eq_map (es : List Expr) : mapValuesAll φ es = es.map (mapValues φ) := by
  induction es with
  | nil => rfl
  | cons e es ih => rw [mapValuesAll, ih, List.map_cons]

theorem needsParens_mapValues : ∀ e : Expr, (e.mapValues φ).needsParens = e.needsParens
  | and [e] => by
    show (and [e.mapValues φ]).needsParens = (and [e]).needsParens
    rw [needsParens, needsParens, needsParens_mapValues e]
  | and [] | and (_ :: _ :: _) | raw _ [] | raw _ (_ :: _) => rfl
  | name _ | value _ | compare .. | or _ | not _ => rfl

theorem isWideAnd_mapValues (e : Expr) : (e.mapValues φ).isWideAnd = e.isWideAnd := by
  cases e with
  | and es =>
    show decide (1 < (mapValuesAll φ es).length) = decide (1 < es.length)
    rw [mapValuesAll_eq_map, List.length_map]
  | _ => rfl

theorem isNullValue_value (v : Value) : (value v).isNullValue = v.isNull := by
  cases v <;> rfl

theorem fill_map (template : List Char) (args : List (List Piece)) :
    fill template (args.map (List.map (Piece.mapValue φ)))
      = (fill template args).map (Piece.mapValue φ) := by
  induction template generalizing args with
  | nil => rfl
  | cons c cs ih =>
    by_cases hc : c = '?'
    · subst hc
      cases args with
      | nil => exact congrArg (Piece.text "?" :: ·) (ih [])
      | cons arg args =>
        show arg.map (Piece.mapValue φ) ++ fill cs (args.map (List.map (Piece.mapValue φ))) = _
        rw [ih, ← List.map_append]
        rfl
    · rw [fill_cons_of_ne hc, fill_cons_of_ne hc, ih]
      rfl

theorem junctionPieces_map (separator empty : String) (pss : List (List Piece)) :
    junctionPieces separator empty (pss.map (List.map (Piece.mapValue φ)))
      = (junctionPieces separator empty pss).map (Piece.mapValue φ) := by
  cases pss with
  | nil => rfl
  | cons ps pss => exact (Piece.map_mapValue_intercalate φ separator (ps :: pss)).symm

/-- Each of some expressions, wrapped by its own need, which other values do not
change. -/
theorem wrapped_mapValuesAll {needed : Expr → Bool}
    (hneeded : ∀ e : Expr, needed (e.mapValues φ) = needed e) {es : List Expr}
    (h : ∀ e ∈ es, (e.mapValues φ).pieces = e.pieces.map (Piece.mapValue φ)) :
    ((mapValuesAll φ es).map fun e => Piece.parensIf (needed e) e.pieces)
      = (es.map fun e => Piece.parensIf (needed e) e.pieces).map
          (List.map (Piece.mapValue φ)) := by
  rw [mapValuesAll_eq_map, List.map_map, List.map_map]
  refine List.map_congr_left fun e he => ?_
  show Piece.parensIf (needed (e.mapValues φ)) (e.mapValues φ).pieces = List.map _ _
  rw [hneeded, h e he, Piece.map_mapValue_parensIf]

variable {φ} (hφ : ∀ v, (φ v).isNull = v.isNull)
include hφ

theorem isNullValue_mapValues (e : Expr) : (e.mapValues φ).isNullValue = e.isNullValue := by
  cases e with
  | value v =>
    show (value (φ v)).isNullValue = _
    rw [isNullValue_value, isNullValue_value, hφ]
  | _ => rfl

theorem comparisonPieces_map (ps : List Piece) (c : Comparator) (r : Expr) (qs : List Piece) :
    comparisonPieces (ps.map (Piece.mapValue φ)) c (r.mapValues φ) (qs.map (Piece.mapValue φ))
      = (comparisonPieces ps c r qs).map (Piece.mapValue φ) := by
  unfold comparisonPieces
  rw [isNullValue_mapValues hφ]
  split <;> rw [List.map_append] <;> rfl

/-- A comparison is written from its sides as operands. -/
theorem comparisonPieces_sides (c : Comparator) {l r : Expr}
    (hl : (l.mapValues φ).pieces = l.pieces.map (Piece.mapValue φ))
    (hr : (r.mapValues φ).pieces = r.pieces.map (Piece.mapValue φ)) :
    ((compare l c r).mapValues φ).pieces = (compare l c r).pieces.map (Piece.mapValue φ) := by
  show comparisonPieces (Piece.parensIf (l.mapValues φ).needsParens (l.mapValues φ).pieces) c
    (r.mapValues φ) (Piece.parensIf (r.mapValues φ).needsParens (r.mapValues φ).pieces) = _
  rw [needsParens_mapValues, needsParens_mapValues, hl, hr, ← Piece.map_mapValue_parensIf,
    ← Piece.map_mapValue_parensIf, comparisonPieces_map hφ]
  rfl

/-- **Writing an expression with other values is writing the expression** and
binding the other values, as long as `NULL` stays the only `NULL`. -/
theorem pieces_mapValues (e : Expr) :
    (e.mapValues φ).pieces = e.pieces.map (Piece.mapValue φ) := by
  induction e using writtenInduction with
  | name n => exact (Piece.map_mapValue_name φ n).symm
  | value v => rfl
  | compare l c r ihl ihr => exact comparisonPieces_sides hφ c ihl ihr
  | and es ih =>
    show (and (mapValuesAll φ es)).pieces = _
    rw [pieces_and, pieces_and, wrapped_mapValuesAll φ (isWideAnd_mapValues φ) ih,
      junctionPieces_map]
  | or es ih =>
    show (or (mapValuesAll φ es)).pieces = _
    rw [pieces_or, pieces_or, wrapped_mapValuesAll φ (isWideAnd_mapValues φ) ih,
      junctionPieces_map]
    exact (Piece.map_mapValue_parensIf φ true _).symm
  | not_compare l c r ihl ihr => exact comparisonPieces_sides hφ c.negate ihl ihr
  | not e hne ih =>
    cases e with
    | compare l c r => exact absurd rfl (hne l c r)
    | or es => exact congrArg (Piece.text "NOT " :: ·) ih
    | name n | value v | and es | not e | raw t args =>
      refine (congrArg (fun ps => Piece.text "NOT " :: Piece.parens ps) ih).trans ?_
      exact congrArg (Piece.text "NOT " :: ·) (Piece.map_mapValue_parensIf φ true _).symm
  | raw template args ih =>
    show (raw template (mapValuesAll φ args)).pieces = _
    rw [pieces_raw, pieces_raw, wrapped_mapValuesAll φ (needsParens_mapValues φ) ih, fill_map]

/-- **The text of an expression does not depend on its values**, except on
which of them are `NULL`. -/
theorem sql_render_mapValues (e : Expr) (d : Dialect) :
    ((e.mapValues φ).render d).sql = (e.render d).sql := by
  refine String.toList_inj.1 ?_
  unfold render Statement.ofPieces
  rw [toList_sql_write, toList_sql_write, pieces_mapValues hφ, chars_map_mapValue]

end Expr

/-! ## Literals are only bound -/

/-- **The value that stands for any other**, unless that is `NULL`. -/
def Value.masked (v : Value) : Value :=
  if v.isNull then v else .string ""

theorem Value.isNull_masked (v : Value) : v.masked.isNull = v.isNull := by
  cases v <;> rfl

theorem Value.masked_ofDigits (digits : String) : (Value.ofDigits digits).masked = .string "" := by
  unfold Value.masked
  rw [← Expr.isNullValue_value, Filter.isNullValue_ofDigits]
  rfl

namespace Filter

/-- **A filter with its literals struck out**: every integer and every string
is replaced by one and the same string. -/
def masked : Filter → Filter
  | binary op l r => binary op l.masked r.masked
  | not f => not f.masked
  | integer _ | string _ => string ""
  | identifier path => identifier path
  | null => null

theorem length_literals_masked (f : Filter) : f.masked.literals.length = f.literals.length := by
  induction f with
  | binary op l r ihl ihr =>
    rw [masked, literals, literals, List.length_append, List.length_append, ihl, ihr]
  | not f ih => exact ih
  | _ => rfl

theorem columnAndValue?_masked (c : Comparator) (l r : Filter) :
    columnAndValue? c l.masked r.masked
      = (columnAndValue? c l r).map fun (path, v) => (path, v.masked) := by
  cases l with
  | identifier path =>
    cases r with
    | integer digits => exact congrArg (fun v => some (path, v)) (Value.masked_ofDigits digits).symm
    | null =>
      show (if c.isEquality then some (path, Value.null) else none)
        = Option.map _ (if _ then _ else _)
      split <;> rfl
    | _ => rfl
  | _ => rfl

end Filter

namespace Expr

theorem mapValues_ofMembers (φ : Value → Value) (k : Connective) (es : List Expr) :
    (ofMembers k es).mapValues φ = ofMembers k (es.map (mapValues φ)) := by
  rw [← mapValuesAll_eq_map]
  cases k <;> rfl

theorem members_mapValues (φ : Value → Value) (k : Connective) (e : Expr) :
    (e.mapValues φ).members k = (e.members k).map (mapValues φ) := by
  cases k with
  | and =>
    cases e with
    | and es => exact mapValuesAll_eq_map φ es
    | _ => rfl
  | or =>
    cases e with
    | or es => exact mapValuesAll_eq_map φ es
    | _ => rfl

theorem mapValues_joined (φ : Value → Value) (k : Connective) (l r : Expr) :
    (joined k l r).mapValues φ = joined k (l.mapValues φ) (r.mapValues φ) := by
  unfold joined
  rw [mapValues_ofMembers, List.map_append, members_mapValues, members_mapValues]

end Expr

namespace Filter

/-- **Striking out the literals strikes out the values of the expression** and
changes nothing else. -/
theorem expr_masked (f : Filter) : f.masked.expr = f.expr.mapValues Value.masked := by
  induction f with
  | binary op l r ihl ihr =>
    cases op with
    | logical k =>
      show Expr.joined k l.masked.expr r.masked.expr = _
      rw [ihl, ihr, expr, Expr.mapValues_joined]
    | comparison c =>
      show compared c l.masked r.masked l.masked.expr r.masked.expr = _
      rw [ihl, ihr, expr, compared, compared, columnAndValue?_masked]
      cases columnAndValue? c l r <;> rfl
  | not f ih => exact congrArg Expr.not ih
  | integer digits => exact congrArg Expr.value (Value.masked_ofDigits digits).symm
  | _ => rfl

/-- The text of a filter's statement is that of the filter with its literals
struck out. -/
theorem sql_render_masked (f : Filter) (d : Dialect) :
    ((Restriction.ofFilter (some f.masked)).value.render d).sql
      = ((Restriction.ofFilter (some f)).value.render d).sql := by
  rw [Restriction.render_ofFilter, Restriction.render_ofFilter, expr_masked]
  exact congrArg (" WHERE " ++ ·) (Expr.sql_render_mapValues Value.isNull_masked f.expr d)

end Filter

/-- **Literals do not reach the text.** Two filters that are equal once their
literals are struck out have the same SQL text, whatever the literals are and
whether they are integers or strings. They bind as many values, and where their
literals are equal, so are the values. -/
theorem sql_eq_of_masked_eq {f g : Filter} (h : f.masked = g.masked) (d : Dialect) :
    ((Restriction.ofFilter (some f)).value.render d).sql
        = ((Restriction.ofFilter (some g)).value.render d).sql
      ∧ ((Restriction.ofFilter (some f)).value.render d).params.length
        = ((Restriction.ofFilter (some g)).value.render d).params.length
      ∧ ∀ (i : Nat) (x : Literal), f.literals[i]? = some x → g.literals[i]? = some x →
        ∃ v, ((Restriction.ofFilter (some f)).value.render d).params[i]? = some v
          ∧ ((Restriction.ofFilter (some g)).value.render d).params[i]? = some v := by
  refine ⟨?_, ?_, fun i x hf hg => ⟨x.value, ?_, ?_⟩⟩
  · calc ((Restriction.ofFilter (some f)).value.render d).sql
        = ((Restriction.ofFilter (some f.masked)).value.render d).sql :=
          (f.sql_render_masked d).symm
      _ = ((Restriction.ofFilter (some g.masked)).value.render d).sql := by rw [h]
      _ = ((Restriction.ofFilter (some g)).value.render d).sql := g.sql_render_masked d
  · rw [Restriction.render_ofFilter, Restriction.render_ofFilter, List.length_map,
      List.length_map, ← f.length_literals_masked, h, g.length_literals_masked]
  · rw [Restriction.render_ofFilter, List.getElem?_map, hf]
    rfl
  · rw [Restriction.render_ofFilter, List.getElem?_map, hg]
    rfl

/-- A string and an integer that is no number but SQL, each compared with a
column, before a literal that the two filters share. -/
theorem sql_eq_of_spliced_literal :
    ∃ f g : Filter, f.masked = g.masked
      ∧ f.literals = [.string "x", .integer "1"]
      ∧ g.literals = [.integer "0 OR 1 = 1 --", .integer "1"]
      ∧ ((Restriction.ofFilter (some f)).value.render .postgres).sql
        = ((Restriction.ofFilter (some g)).value.render .postgres).sql
      ∧ ∃ v, ((Restriction.ofFilter (some f)).value.render .postgres).params[1]? = some v
        ∧ ((Restriction.ofFilter (some g)).value.render .postgres).params[1]? = some v := by
  let f : Filter := .binary (.logical .or)
    (.binary (.comparison .eq) (.identifier "name") (.string "x"))
    (.not (.binary (.comparison .lt) (.integer "1") (.identifier "age")))
  let g : Filter := .binary (.logical .or)
    (.binary (.comparison .eq) (.identifier "name") (.integer "0 OR 1 = 1 --"))
    (.not (.binary (.comparison .lt) (.integer "1") (.identifier "age")))
  have hmasked : f.masked = g.masked := rfl
  obtain ⟨hsql, -, hparams⟩ := sql_eq_of_masked_eq hmasked .postgres
  exact ⟨f, g, hmasked, rfl, rfl, hsql, hparams 1 (.integer "1") rfl rfl⟩

end FilterSql
