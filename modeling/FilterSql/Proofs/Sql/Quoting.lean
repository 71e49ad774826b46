import FilterSql.Proofs.Sql.Names
import FilterSql.Proofs.Sql.Pieces
import FilterSql.Sql.Rendering
import Mathlib

/-!
# Reading a quoted name back

A name is written part by part, each part between the quotes of the dialect and
with its own quotes doubled, and a dot between each two. Three cuts come before
this, each by a rule of its own: a column path is cut at its last dot, a table
name at its first, and a qualifier at every dot. A part may contain dots, quotes
or nothing at all, so it is not clear from the outside that two names are never
written alike.

Here a text is scanned without asking where it comes from (`QuotedParts`): as
tokens between quotes with single dots between them, where inside a token the
quotes stand in pairs. The closing quote of a token is then the first that has
no partner, so there is one way at most to scan a text (`QuotedParts.unique`).
What is written for a name is scanned as its parts, and these, with the quotes
halved and joined by dots, are the path (`scansAs_path`). The main statement is
`names_read_back`.
-/

namespace FilterSql

namespace Text

/-- **The quotes of a text stand in pairs**, taken from the left. -/
inductive Paired (q : Char) : List Char → Prop
  | nil : Paired q []
  | quotes {s : List Char} (h : Paired q s) : Paired q (q :: q :: s)
  | other {c : Char} {s : List Char} (hc : c ≠ q) (h : Paired q s) : Paired q (c :: s)

theorem paired_doubled (q : Char) (s : List Char) : Paired q (doubled q s) := by
  induction s with
  | nil => exact .nil
  | cons c s ih =>
    by_cases hc : c = q
    · rw [hc, doubled_cons_self]
      exact .quotes ih
    · rw [doubled_cons_of_ne hc]
      exact .other hc ih

/-- A text whose quotes stand in pairs is some text with its quotes doubled. -/
theorem Paired.exists_doubled {q : Char} {s : List Char} (h : Paired q s) :
    ∃ t, s = doubled q t := by
  induction h with
  | nil => exact ⟨[], rfl⟩
  | quotes _ ih =>
    obtain ⟨t, rfl⟩ := ih
    exact ⟨q :: t, (doubled_cons_self q t).symm⟩
  | @other c _ hc _ ih =>
    obtain ⟨t, rfl⟩ := ih
    exact ⟨c :: t, (doubled_cons_of_ne hc t).symm⟩

/-- **The closing quote is the first without a partner**, so it is determined by
the text, unless a further quote follows it. -/
theorem Paired.append_inj {q : Char} {a b s t : List Char} (ha : Paired q a) (hb : Paired q b)
    (hs : NoneAhead (· == q) s) (ht : NoneAhead (· == q) t) (h : a ++ q :: s = b ++ q :: t) :
    a = b ∧ s = t := by
  obtain ⟨a, rfl⟩ := ha.exists_doubled
  obtain ⟨b, rfl⟩ := hb.exists_doubled
  obtain ⟨rfl, hst⟩ := doubled_append_inj hs ht h
  exact ⟨rfl, hst⟩

end Text

namespace Sql

open Text

/-- **The quoted tokens that a text is made of**, as they stand between their
quotes: one token, or a token, a single dot and further tokens. -/
inductive QuotedParts (q : Char) : List Char → List (List Char) → Prop
  | last {t b : List Char} (hb : Paired q b) (ht : t = q :: (b ++ [q])) : QuotedParts q t [b]
  | more {t b s : List Char} {bs : List (List Char)} (hb : Paired q b)
      (ht : t = q :: (b ++ q :: '.' :: s)) (h : QuotedParts q s bs) : QuotedParts q t (b :: bs)

/-- **There is one way at most to scan a text.** -/
theorem QuotedParts.unique {q : Char} (hq : q ≠ '.') {t : List Char} {bs bs' : List (List Char)}
    (h : QuotedParts q t bs) (h' : QuotedParts q t bs') : bs = bs' := by
  have hnil : NoneAhead (· == q) [] := noneAhead_nil _
  have hdot : ∀ s, NoneAhead (· == q) ('.' :: s) := by
    intro s
    simpa using Ne.symm hq
  induction h generalizing bs' with
  | last hb ht =>
    cases h' with
    | last hb' ht' =>
      obtain ⟨rfl, -⟩ := hb.append_inj hb' hnil hnil (List.cons.inj (ht.symm.trans ht')).2
      rfl
    | more hb' ht' _ =>
      obtain ⟨-, hrest⟩ := hb.append_inj hb' hnil (hdot _) (List.cons.inj (ht.symm.trans ht')).2
      cases hrest
  | more hb ht _ ih =>
    cases h' with
    | last hb' ht' =>
      obtain ⟨-, hrest⟩ := hb.append_inj hb' (hdot _) hnil (List.cons.inj (ht.symm.trans ht')).2
      cases hrest
    | more hb' ht' h' =>
      obtain ⟨rfl, hrest⟩ :=
        hb.append_inj hb' (hdot _) (hdot _) (List.cons.inj (ht.symm.trans ht')).2
      obtain rfl := (List.cons.inj hrest).2
      rw [ih h']

/-- The tokens of a text with their quotes halved, joined by dots. -/
def rejoined (q : Char) (bs : List (List Char)) : String :=
  String.ofList (['.'].intercalate (bs.map (halved q)))

/-- **The text is scanned in exactly one way**, and gives back a path. -/
def ScansAs (d : Dialect) (text path : String) : Prop :=
  (∃! bs, QuotedParts d.quoteChar text.toList bs)
    ∧ ∀ bs, QuotedParts d.quoteChar text.toList bs → rejoined d.quoteChar bs = path

theorem quoteChar_ne_dot (d : Dialect) : d.quoteChar ≠ '.' := by
  cases d <;> decide

/-! ## What is written for a name -/

theorem quote_toList (d : Dialect) (s : String) :
    (d.quote s).toList = d.quoteChar :: (doubled d.quoteChar s.toList ++ [d.quoteChar]) := by
  rw [Dialect.quote, quoted, String.toList_ofList]
  rfl

/-- **A name is written as its parts in quotes**, with dots between them,
whatever is written before it. -/
theorem chars_name (d : Dialect) (k : Nat) (n : QualifiedName) :
    chars d k n.pieces = ['.'].intercalate (n.parts.map fun s => (d.quote s).toList) := by
  unfold QualifiedName.pieces
  induction n.parts with
  | nil => rfl
  | cons s parts ih =>
    cases parts with
    | nil => simp [chars]
    | cons s' parts =>
      simp only [List.map_cons, List.intersperse_cons_cons, chars, List.intercalate_cons_cons]
      rw [List.map_cons] at ih
      rw [ih]
      simp

/-- The parts of a name are scanned from what is written for them. -/
theorem quotedParts_intercalate (d : Dialect) {parts : List String} (hparts : parts ≠ []) :
    QuotedParts d.quoteChar (['.'].intercalate (parts.map fun s => (d.quote s).toList))
      (parts.map fun s => doubled d.quoteChar s.toList) := by
  induction parts with
  | nil => exact absurd rfl hparts
  | cons s parts ih =>
    cases parts with
    | nil => exact .last (paired_doubled _ _) (by simp [quote_toList])
    | cons s' parts =>
      refine .more (paired_doubled _ _) ?_ (ih (List.cons_ne_nil _ _))
      simp [quote_toList]

/-- **What is written for a name is scanned as its path.** -/
theorem scansAs_path (d : Dialect) (n : QualifiedName) :
    ScansAs d (Statement.ofPieces d n.pieces).sql n.path := by
  have hscan := quotedParts_intercalate d n.parts_ne_nil
  rw [← chars_name d 0, ← toList_sql_ofPieces] at hscan
  have hunique : ∀ bs, QuotedParts d.quoteChar (Statement.ofPieces d n.pieces).sql.toList bs →
      bs = n.parts.map fun s => doubled d.quoteChar s.toList :=
    fun bs h => h.unique (quoteChar_ne_dot d) hscan
  refine ⟨⟨_, hscan, hunique⟩, fun bs h => ?_⟩
  have hhalved : (bs.map (halved d.quoteChar)) = n.parts.map String.toList := by
    rw [hunique bs h, List.map_map]
    exact List.map_congr_left fun s _ => halved_doubled d.quoteChar s.toList
  rw [rejoined, hhalved, QualifiedName.intercalate_parts, String.ofList_toList]

/-- The parts of a name are determined by what is written for it. -/
theorem sql_name_injective (d : Dialect) :
    Function.Injective fun n : QualifiedName => (Statement.ofPieces d n.pieces).sql := by
  intro m n h
  have hm := quotedParts_intercalate d m.parts_ne_nil
  have hn := quotedParts_intercalate d n.parts_ne_nil
  have htext : ['.'].intercalate (m.parts.map fun s => (d.quote s).toList)
      = ['.'].intercalate (n.parts.map fun s => (d.quote s).toList) := by
    rw [← chars_name d 0 m, ← chars_name d 0 n, ← toList_sql_ofPieces, ← toList_sql_ofPieces]
    exact congrArg String.toList h
  rw [htext] at hm
  have hdoubled : Function.Injective fun s : String => doubled d.quoteChar s.toList := by
    intro s t hst
    rw [← String.toList_inj, ← halved_doubled d.quoteChar s.toList,
      ← halved_doubled d.quoteChar t.toList]
    exact congrArg _ hst
  exact QualifiedName.parts_injective
    (List.map_injective_iff.2 hdoubled (hm.unique (quoteChar_ne_dot d) hn))

end Sql

open Sql

/-- **A quoted name can be read back**, in every dialect. What is written for the
column of any path is scanned in exactly one way, and gives the path; so does
what is written for any name that is one of a table; and two names are never
written alike. -/
theorem names_read_back (d : Dialect) :
    (∀ path : String, ScansAs d ((Expr.column path).render d).sql path)
      ∧ (∀ (name : String) (t : QualifiedName), QualifiedName.ofTable? name = some t →
          ScansAs d (Statement.ofPieces d t.pieces).sql name)
      ∧ Function.Injective fun n : QualifiedName => ((Expr.name n).render d).sql := by
  refine ⟨fun path => ?_, fun name t ht => ?_, sql_name_injective d⟩
  · have hpath := scansAs_path d (.ofPath path)
    rw [QualifiedName.path_ofPath] at hpath
    exact hpath
  · have hname := scansAs_path d t
    rw [QualifiedName.path_of_ofTable? ht] at hname
    exact hname

/-- A table name with quotes, and with more dots than the one it is cut at. -/
theorem names_read_back_quotes :
    QualifiedName.ofTable? "a`.``..b" = some ⟨some "a`", "``..b"⟩
      ∧ ScansAs .mysql (Statement.ofPieces .mysql (QualifiedName.mk (some "a`") "``..b").pieces).sql
          "a`.``..b" := by
  have htable : QualifiedName.ofTable? "a`.``..b" = some ⟨some "a`", "``..b"⟩ := by decide
  exact ⟨htable, (names_read_back .mysql).2.1 _ _ htable⟩

end FilterSql
