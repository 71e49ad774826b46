import FilterSql.Sql.QualifiedName
import Mathlib

/-!
# The parts of a name

SQL names a column by parts that are separated by dots. A qualifier is cut at
each of its dots, and the name after it stays in one piece, dots included.
Nothing is lost on the way: the parts of a qualifier, joined by dots, are the
qualifier (`intercalate_segments`), and a name with a qualifier has at least
two parts, so that its parts tell it from every other name
(`QualifiedName.parts_injective`).

A column path is cut at its last dot and a table name at its first, and both
are given back by the dotted path of what they are cut into (`path_ofPath`,
`path_of_ofTable?`).
-/

namespace FilterSql

namespace Text

theorem intercalate_append_of_ne_nil {α : Type} (sep : List α) {xs ys : List (List α)}
    (hx : xs ≠ []) (hy : ys ≠ []) :
    sep.intercalate (xs ++ ys) = sep.intercalate xs ++ (sep ++ sep.intercalate ys) := by
  induction xs with
  | nil => exact absurd rfl hx
  | cons x xs ih =>
    cases xs with
    | nil =>
      obtain ⟨y, ys, rfl⟩ := List.exists_cons_of_ne_nil hy
      simp
    | cons x' xs => simpa using ih (List.cons_ne_nil _ _)

theorem segments_cons_dot (s : List Char) : segments ('.' :: s) = [] :: segments s := by
  simp [segments]

/-- Any other character belongs to the first part of what follows. -/
theorem segments_cons_of_ne {c : Char} {s p : List Char} {ps : List (List Char)} (hc : c ≠ '.')
    (hs : segments s = p :: ps) : segments (c :: s) = (c :: p) :: ps := by
  simp [segments, hc, hs]

/-- **Joining the parts by dots gives the text back.** -/
theorem intercalate_segments (s : List Char) : ['.'].intercalate (segments s) = s := by
  induction s with
  | nil => rfl
  | cons c s ih =>
    obtain ⟨p, ps, hps⟩ := List.exists_cons_of_ne_nil (segments_ne_nil s)
    rw [hps] at ih
    by_cases hc : c = '.'
    · rw [hc, segments_cons_dot, hps, ← ih]
      simp [List.intercalate]
    · rw [segments_cons_of_ne hc hps, ← ih]
      cases ps <;> simp [List.intercalate]

theorem segments_eq_singleton {s : List Char} (h : '.' ∉ s) : segments s = [s] := by
  induction s with
  | nil => rfl
  | cons c s ih =>
    rw [List.mem_cons, not_or] at h
    exact segments_cons_of_ne (Ne.symm h.1) (ih h.2)

theorem segments_injective : Function.Injective segments :=
  Function.LeftInverse.injective intercalate_segments

/-- The parts of a dotted text have no characters of their own. -/
theorem mem_of_mem_segments {c : Char} {s p : List Char} (hp : p ∈ segments s) (hc : c ∈ p) :
    c ∈ s := by
  induction s generalizing p with
  | nil =>
    rw [List.mem_singleton.1 hp] at hc
    cases hc
  | cons a s ih =>
    by_cases ha : a = '.'
    · rw [ha, segments_cons_dot] at hp
      rcases List.mem_cons.1 hp with rfl | hp
      · cases hc
      · exact List.mem_cons_of_mem _ (ih hp hc)
    · obtain ⟨q, ps, hps⟩ := List.exists_cons_of_ne_nil (segments_ne_nil s)
      rw [segments_cons_of_ne ha hps] at hp
      rw [hps] at ih
      rcases List.mem_cons.1 hp with rfl | hp
      · rcases List.mem_cons.1 hc with rfl | hc
        · exact List.mem_cons_self
        · exact List.mem_cons_of_mem _ (ih List.mem_cons_self hc)
      · exact List.mem_cons_of_mem _ (ih (List.mem_cons_of_mem _ hp) hc)

theorem cutFirst?_eq_none {s : List Char} (h : cutFirst? s = none) : '.' ∉ s := by
  unfold cutFirst? at h
  split at h
  · rename_i hd
    intro hs
    simpa using List.dropWhile_eq_nil_iff.1 hd '.' hs
  · cases h

/-- There is no dot before the first one. -/
theorem not_mem_of_cutFirst? {s a b : List Char} (h : cutFirst? s = some (a, b)) : '.' ∉ a := by
  unfold cutFirst? at h
  split at h
  · cases h
  · obtain ⟨rfl, -⟩ : s.takeWhile (· ≠ '.') = a ∧ _ := by simpa using h
    intro hmem
    simpa using List.mem_takeWhile_imp hmem

/-- There is no dot behind the last one. -/
theorem not_mem_of_cutLast? {s a b : List Char} (h : cutLast? s = some (a, b)) : '.' ∉ b := by
  unfold cutLast? at h
  obtain ⟨⟨t, f⟩, ht, hp⟩ := Option.map_eq_some_iff.1 h
  obtain ⟨-, rfl⟩ : f.reverse = a ∧ t.reverse = b := by simpa using hp
  rw [List.mem_reverse]
  exact not_mem_of_cutFirst? ht

end Text

namespace QualifiedName

/-- The dotted path of a name. -/
def path : QualifiedName → String
  | ⟨none, n⟩ => n
  | ⟨some q, n⟩ => q ++ "." ++ n

/-- **The path of a column is the path it was cut from.** -/
theorem path_ofPath (path : String) : (ofPath path).path = path := by
  unfold ofPath
  split
  · rename_i q n hcut
    split
    · rfl
    · refine String.toList_inj.1 ?_
      rw [Text.cutLast?_eq_some hcut]
      simp [QualifiedName.path]
  · rfl

theorem ofPath_injective : Function.Injective ofPath :=
  Function.LeftInverse.injective path_ofPath

/-- **A table name is cut at its first dot**, where no part may be empty; one
without a dot may not be blank. -/
theorem ofTable?_cases (name : String) :
    (∃ a b, name = a ++ "." ++ b ∧ '.' ∉ a.toList
        ∧ ofTable? name = if a = "" ∨ b = "" then none else some ⟨some a, b⟩)
      ∨ '.' ∉ name.toList
        ∧ ofTable? name = if Text.isAllBlank name = true then none else some ⟨none, name⟩ := by
  unfold ofTable?
  split
  · rename_i q n hcut
    refine .inl ⟨String.ofList q, String.ofList n, ?_, ?_, ?_⟩
    · refine String.toList_inj.1 ?_
      rw [Text.cutFirst?_eq_some hcut]
      simp
    · rw [String.toList_ofList]
      exact Text.not_mem_of_cutFirst? hcut
    · simp [List.isEmpty_iff]
  · rename_i hcut
    exact .inr ⟨Text.cutFirst?_eq_none hcut, rfl⟩

/-- The path of a table is the name it was cut from. -/
theorem path_of_ofTable? {name : String} {t : QualifiedName} (h : ofTable? name = some t) :
    t.path = name := by
  rcases ofTable?_cases name with ⟨a, b, hname, -, hcut⟩ | ⟨-, hcut⟩
  · rw [hcut, Option.ite_none_left_eq_some] at h
    rw [← Option.some.inj h.2, hname]
    rfl
  · rw [hcut, Option.ite_none_left_eq_some] at h
    rw [← Option.some.inj h.2]
    rfl

/-- **The parts, joined by dots, are the path.** -/
theorem intercalate_parts (n : QualifiedName) :
    ['.'].intercalate (n.parts.map String.toList) = n.path.toList := by
  match n with
  | ⟨none, name⟩ => simp [parts, path]
  | ⟨some q, name⟩ =>
    have hchars : (((Text.segments q.toList).map String.ofList ++ [name]).map String.toList)
        = Text.segments q.toList ++ [name.toList] := by
      simp [Function.comp_def]
    rw [parts, hchars, Text.intercalate_append_of_ne_nil _ (Text.segments_ne_nil _) (by simp),
      Text.intercalate_segments]
    simp [path]

/-- **The parts of a name determine it.** -/
theorem parts_injective : Function.Injective parts := by
  rintro ⟨q, n⟩ ⟨q', n'⟩ h
  cases q with
  | none =>
    cases q' with
    | none =>
      obtain rfl := List.singleton_inj.1 h
      rfl
    | some q' =>
      -- a qualifier has a part of its own
      have hlength := congrArg List.length h
      simp [parts, Text.segments_ne_nil] at hlength
  | some q =>
    cases q' with
    | none =>
      have hlength := congrArg List.length h
      simp [parts, Text.segments_ne_nil] at hlength
    | some q' =>
      obtain ⟨hq, hn⟩ := List.append_inj' h rfl
      have hchars := List.map_injective_iff.2 (fun _ _ => String.ofList_injective) hq
      obtain rfl := String.toList_injective (Text.segments_injective hchars)
      obtain rfl := List.singleton_inj.1 hn
      rfl

end QualifiedName

end FilterSql
