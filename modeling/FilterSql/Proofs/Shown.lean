import FilterSql.Proofs.Json.Scalar
import FilterSql.Query
import Mathlib

/-!
# The shown list of values

A query is shown with the list of the values it binds, one text behind the
other with a comma between them. A string may hold anything, commas and quotes
and the texts of other values included, so it is a question whether two lists
can be shown alike.

They cannot, floating-point numbers aside. The text of a number or of `NULL` has
neither a comma nor a quote in it, so it ends where the first comma stands; the
text of a string ends with the first quote that is not written twice, and the
comma behind it is no quote. So wherever a text starts in the list, what starts
there and where it ends is determined (`Value.text_append_inj`), and the list is
read off from the left (`Query.paramsText_eq_iff`). All that is lost is whether a
number was bound with a sign or without.
-/

namespace FilterSql

/-! ## The text of one value -/

namespace Value

/-- The whole number that a value is, signed or unsigned. -/
def wholeNumber? : Value → Option Int
  | int n => some n.toInt
  | uint n => some n.toNat
  | float _ | string _ | null => none

/-- Whether the value is a floating-point number. -/
def isFloat : Value → Bool
  | float _ => true
  | int _ | uint _ | string _ | null => false

/-- **Two values are the same, or the same whole number**, one of them signed
and the other not. -/
def ShownAlike (v w : Value) : Prop :=
  v = w ∨ ∃ n, v.wholeNumber? = some n ∧ w.wholeNumber? = some n

/-- What values other than floating-point numbers there are. -/
theorem cases_of_isFloat {v : Value} (hv : v.isFloat = false) :
    (∃ n, v.wholeNumber? = some n) ∨ v = null ∨ ∃ s, v = string s := by
  cases v with
  | int n => exact .inl ⟨_, rfl⟩
  | uint n => exact .inl ⟨_, rfl⟩
  | float x => cases hv
  | string s => exact .inr (.inr ⟨s, rfl⟩)
  | null => exact .inr (.inl rfl)

theorem text_of_wholeNumber? {v : Value} {n : Int} (h : v.wholeNumber? = some n) :
    v.text = toString n := by
  cases v with
  | int m =>
    cases h
    rfl
  | uint m =>
    cases h
    rfl
  | float _ | string _ | null => cases h

theorem toList_text_string (s : String) :
    (string s).text.toList = '\'' :: (Text.doubled '\'' s.toList ++ ['\'']) := by
  rw [text, Text.quoted, String.toList_ofList, List.cons_append]

/-- A whole number is shown in digits, with a sign if it is negative. -/
theorem isDigit_or_eq_of_mem_toString {n : Int} {c : Char} (hc : c ∈ (toString n).toList) :
    c.isDigit = true ∨ c = '-' := by
  rw [Json.toList_toString_int] at hc
  rcases List.mem_append.1 hc with hsign | hdigit
  · split at hsign
    · exact .inr (List.mem_singleton.1 hsign)
    · cases hsign
  · exact .inl ((Numeral.isInteger_toDigits _).digits c hdigit)

/-- A character that neither separates two values nor is a quote. -/
def isBare (c : Char) : Bool :=
  c != ',' && c != '\''

theorem isBare_of_mem_toString {n : Int} {c : Char} (hc : c ∈ (toString n).toList) :
    isBare c = true := by
  rw [isBare, Bool.and_eq_true, bne_iff_ne, bne_iff_ne]
  constructor <;> rintro rfl <;> exact absurd (isDigit_or_eq_of_mem_toString hc) (by decide)

/-- **What is shown of a value other than a string is bare**, and it is not
nothing. -/
theorem text_bare {v : Value} (hv : v.isFloat = false) (hstring : ∀ s, v ≠ string s) :
    v.text.toList ≠ [] ∧ ∀ c ∈ v.text.toList, isBare c = true := by
  rcases cases_of_isFloat hv with ⟨n, hn⟩ | rfl | ⟨s, rfl⟩
  · rw [text_of_wholeNumber? hn]
    refine ⟨?_, fun c => isBare_of_mem_toString⟩
    rw [Json.toList_toString_int]
    exact List.append_ne_nil_of_right_ne_nil _ Nat.toDigits_ne_nil
  · simp [text, isBare]
  · exact absurd rfl (hstring s)

/-- Values other than strings are shown alike only if they are the same, or the
same whole number. -/
theorem shownAlike_of_text_eq {v w : Value} (hv : v.isFloat = false) (hw : w.isFloat = false)
    (hvs : ∀ s, v ≠ string s) (hws : ∀ s, w ≠ string s) (h : v.text = w.text) :
    v.ShownAlike w := by
  -- `NULL` has a letter in it, and no number has
  have hnull : ∀ n : Int, toString n ≠ null.text := by
    intro n hn
    have hmem : 'N' ∈ (toString n).toList := by simp [hn, text]
    exact absurd (isDigit_or_eq_of_mem_toString hmem) (by decide)
  rcases cases_of_isFloat hv with ⟨m, hm⟩ | rfl | ⟨s, rfl⟩
  · rw [text_of_wholeNumber? hm] at h
    rcases cases_of_isFloat hw with ⟨n, hn⟩ | rfl | ⟨s, rfl⟩
    · rw [text_of_wholeNumber? hn] at h
      exact .inr ⟨m, hm, Int.repr_inj.1 h ▸ hn⟩
    · exact absurd h (hnull m)
    · exact absurd rfl (hws s)
  · rcases cases_of_isFloat hw with ⟨n, hn⟩ | rfl | ⟨s, rfl⟩
    · rw [text_of_wholeNumber? hn] at h
      exact absurd h.symm (hnull n)
    · exact .inl rfl
    · exact absurd rfl (hws s)
  · exact absurd rfl (hvs s)

theorem ShownAlike.text_eq {v w : Value} (h : v.ShownAlike w) : v.text = w.text := by
  rcases h with rfl | ⟨n, hv, hw⟩
  · rfl
  · rw [text_of_wholeNumber? hv, text_of_wholeNumber? hw]

/-! ## Where a text ends -/

theorem text_ne_nil {v : Value} (hv : v.isFloat = false) : v.text.toList ≠ [] := by
  by_cases hstring : ∃ s, v = string s
  · obtain ⟨s, rfl⟩ := hstring
    rw [toList_text_string]
    exact List.cons_ne_nil _ _
  · exact (text_bare hv fun s hs => hstring ⟨s, hs⟩).1

/-- No value is shown from a quote on but a string. -/
theorem text_append_ne_of_string {v : Value} (hv : v.isFloat = false) (hvs : ∀ s, v ≠ string s)
    (s : String) (t t' : List Char) : v.text.toList ++ t ≠ (string s).text.toList ++ t' := by
  obtain ⟨hne, hbare⟩ := text_bare hv hvs
  obtain ⟨c, cs, hc⟩ := List.exists_cons_of_ne_nil hne
  intro h
  rw [hc, toList_text_string, List.cons_append, List.cons_append] at h
  have hquote := hbare c (hc ▸ List.mem_cons_self)
  rw [(List.cons.inj h).1] at hquote
  exact absurd hquote (by decide)

/-- **What is shown of a value is determined by the text it stands in**, if
nothing or a comma follows it. -/
theorem text_append_inj {v w : Value} (hv : v.isFloat = false) (hw : w.isFloat = false)
    {s t : List Char} (hs : Text.NoneAhead (· != ',') s) (ht : Text.NoneAhead (· != ',') t)
    (h : v.text.toList ++ s = w.text.toList ++ t) : v.ShownAlike w ∧ s = t := by
  by_cases hvs : ∃ a, v = string a
  · obtain ⟨a, rfl⟩ := hvs
    by_cases hws : ∃ b, w = string b
    · obtain ⟨b, rfl⟩ := hws
      have hquote : ∀ c : Char, (c == '\'') = true → (c != ',') = true := by
        intro c hc
        rw [beq_iff_eq.1 hc]
        decide
      rw [toList_text_string, toList_text_string, List.cons_append, List.cons_append,
        List.append_assoc, List.append_assoc] at h
      obtain ⟨hab, rfl⟩ :=
        Text.doubled_append_inj (hs.mono hquote) (ht.mono hquote) (List.cons.inj h).2
      exact ⟨.inl (congrArg string (String.toList_inj.1 hab)), rfl⟩
    · exact absurd h.symm (text_append_ne_of_string hw (fun b hb => hws ⟨b, hb⟩) a t s)
  · have hvs : ∀ a, v ≠ string a := fun a ha => hvs ⟨a, ha⟩
    by_cases hws : ∃ b, w = string b
    · obtain ⟨b, rfl⟩ := hws
      exact absurd h (text_append_ne_of_string hv hvs b s t)
    · have hws : ∀ b, w ≠ string b := fun b hb => hws ⟨b, hb⟩
      have hbare : ∀ c : Char, isBare c = true → (c != ',') = true :=
        fun c hc => (Bool.and_eq_true_iff.1 hc).1
      obtain ⟨htext, rfl⟩ := Text.run_append_inj (text_bare hv hvs).2 (text_bare hw hws).2
        (hs.mono hbare) (ht.mono hbare) h
      exact ⟨shownAlike_of_text_eq hv hw hvs hws (String.toList_inj.1 htext), rfl⟩

end Value

/-! ## The list -/

namespace Query

/-- The texts of further values, each behind a comma. -/
def moreText (vs : List Value) : List Char :=
  vs.flatMap fun v => ',' :: ' ' :: v.text.toList

theorem toList_paramsText_cons (v : Value) (vs : List Value) :
    (paramsText (v :: vs)).toList = v.text.toList ++ moreText vs := by
  induction vs generalizing v with
  | nil => simp [paramsText, moreText]
  | cons w vs ih =>
    have hcons : paramsText (v :: w :: vs) = v.text ++ ", " ++ paramsText (w :: vs) :=
      String.intercalate_cons_cons
    rw [hcons, String.toList_append, String.toList_append, ih, List.append_assoc]
    rfl

/-- Nothing but a comma stands where further values are shown. -/
theorem noneAhead_moreText (vs : List Value) : Text.NoneAhead (· != ',') (moreText vs) := by
  cases vs with
  | nil => exact Text.noneAhead_nil _
  | cons v vs => exact (Text.noneAhead_cons _ _ _).2 rfl

theorem moreText_cons (v : Value) (vs : List Value) :
    moreText (v :: vs) = ',' :: ' ' :: (v.text.toList ++ moreText vs) :=
  List.flatMap_cons

/-- Further values are read off from the left. -/
theorem forall₂_of_moreText_eq {vs ws : List Value} (hvs : ∀ v ∈ vs, v.isFloat = false)
    (hws : ∀ w ∈ ws, w.isFloat = false) (h : moreText vs = moreText ws) :
    List.Forall₂ Value.ShownAlike vs ws := by
  induction vs generalizing ws with
  | nil =>
    cases ws with
    | nil => exact .nil
    | cons w ws => cases h
  | cons v vs ih =>
    cases ws with
    | nil => cases h
    | cons w ws =>
      obtain ⟨hv, hvs⟩ := List.forall_mem_cons.1 hvs
      obtain ⟨hw, hws⟩ := List.forall_mem_cons.1 hws
      rw [moreText_cons, moreText_cons] at h
      obtain ⟨halike, hmore⟩ := Value.text_append_inj hv hw (noneAhead_moreText vs)
        (noneAhead_moreText ws) (List.cons.inj (List.cons.inj h).2).2
      exact .cons halike (ih hvs hws hmore)

/-- A list with something in it is shown as something. -/
theorem paramsText_cons_ne_empty {v : Value} (hv : v.isFloat = false) (vs : List Value) :
    paramsText (v :: vs) ≠ "" := by
  intro h
  have hchars : v.text.toList ++ moreText vs = [] := by
    rw [← toList_paramsText_cons, h, String.toList_empty]
  exact Value.text_ne_nil hv (List.append_eq_nil_iff.1 hchars).1

theorem forall₂_of_paramsText_eq {vs ws : List Value} (hvs : ∀ v ∈ vs, v.isFloat = false)
    (hws : ∀ w ∈ ws, w.isFloat = false) (h : paramsText vs = paramsText ws) :
    List.Forall₂ Value.ShownAlike vs ws := by
  cases vs with
  | nil =>
    cases ws with
    | nil => exact .nil
    | cons w ws => exact absurd h.symm (paramsText_cons_ne_empty (hws w List.mem_cons_self) ws)
  | cons v vs =>
    cases ws with
    | nil => exact absurd h (paramsText_cons_ne_empty (hvs v List.mem_cons_self) vs)
    | cons w ws =>
      refine forall₂_of_moreText_eq hvs hws ?_
      rw [moreText_cons, moreText_cons, ← toList_paramsText_cons, ← toList_paramsText_cons, h]

theorem paramsText_congr {vs ws : List Value} (h : List.Forall₂ Value.ShownAlike vs ws) :
    paramsText vs = paramsText ws := by
  have htexts : vs.map Value.text = ws.map Value.text := by
    induction h with
    | nil => rfl
    | cons halike _ ih => rw [List.map_cons, List.map_cons, halike.text_eq, ih]
  rw [paramsText, paramsText, htexts]

/-- **The shown list of values is unambiguous**, floating-point numbers aside. Two
lists have one text if and only if they are equally long and agree at each place,
where a whole number may be signed in one and unsigned in the other. So two
queries with the same statement are shown alike if and only if they bind the same
values in this sense. -/
theorem paramsText_eq_iff {vs ws : List Value} (hvs : ∀ v ∈ vs, v.isFloat = false)
    (hws : ∀ w ∈ ws, w.isFloat = false) :
    (paramsText vs = paramsText ws ↔ List.Forall₂ Value.ShownAlike vs ws)
      ∧ ∀ (d : Dialect) (sql : String),
          (lines ⟨d, sql, vs⟩ = lines ⟨d, sql, ws⟩ ↔ List.Forall₂ Value.ShownAlike vs ws) := by
  have hiff : paramsText vs = paramsText ws ↔ List.Forall₂ Value.ShownAlike vs ws :=
    ⟨forall₂_of_paramsText_eq hvs hws, paramsText_congr⟩
  refine ⟨hiff, fun d sql => ?_⟩
  rw [← hiff, lines, lines, String.append_left_inj, String.append_right_inj]

/-- Strings that imitate a separator, a number or `NULL`. -/
theorem paramsText_eq_iff_imitations :
    paramsText [.uint 42, .string "', '"] = paramsText [.int 42, .string "', '"]
      ∧ paramsText [.string "1', 'NULL"] ≠ paramsText [.string "1", .string "NULL"]
      ∧ paramsText [.string "42", .null] ≠ paramsText [.int 42, .string "NULL"] := by
  refine ⟨(paramsText_eq_iff (by decide) (by decide)).1.2 ?_, fun h => ?_, fun h => ?_⟩
  · exact .cons (.inr ⟨42, by decide, by decide⟩) (.cons (.inl rfl) .nil)
  · have hlength := ((paramsText_eq_iff (by decide) (by decide)).1.1 h).length_eq
    cases hlength
  · cases (paramsText_eq_iff (by decide) (by decide)).1.1 h with
    | cons halike _ =>
      rcases halike with heq | ⟨n, hn, -⟩
      · cases heq
      · cases hn

end Query

end FilterSql
