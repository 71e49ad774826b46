/-!
# Dotted text

Names of columns and tables are paths whose parts are separated by dots. This
module cuts such a text: at its first dot, at its last dot, or at every dot.
-/

namespace FilterSql.Text

/-- The text before the first dot and the text after it, if there is a dot. -/
def cutFirst? (s : List Char) : Option (List Char × List Char) :=
  match s.dropWhile (· ≠ '.') with
  | [] => none
  | _ :: rest => some (s.takeWhile (· ≠ '.'), rest)

/-- The text before the last dot and the text after it, if there is a dot. -/
def cutLast? (s : List Char) : Option (List Char × List Char) :=
  (cutFirst? s.reverse).map fun (tail, front) => (front.reverse, tail.reverse)

/-- **The parts of a dotted text**: what stands between its dots, empty parts
included. A text without a dot is its own only part. -/
def segments : List Char → List (List Char)
  | [] => [[]]
  | c :: cs =>
    if c = '.' then [] :: segments cs
    else match segments cs with
      | [] => [[c]]
      | s :: ss => (c :: s) :: ss

theorem segments_ne_nil (s : List Char) : segments s ≠ [] := by
  cases s with
  | nil => simp [segments]
  | cons c s =>
    unfold segments
    split
    · simp
    · split <;> simp

/-- Nothing is lost at the first dot. -/
theorem cutFirst?_eq_some {s a b : List Char} (h : cutFirst? s = some (a, b)) :
    s = a ++ '.' :: b := by
  unfold cutFirst? at h
  split at h
  · cases h
  · rename_i c rest hd
    obtain ⟨rfl, rfl⟩ : s.takeWhile (· ≠ '.') = a ∧ rest = b := by simpa using h
    have hc : c = '.' := by
      have := List.head?_dropWhile_not (fun x : Char => decide (x ≠ '.')) s
      rw [hd] at this
      simpa using this
    subst hc
    rw [← hd]
    exact (List.takeWhile_append_dropWhile).symm

/-- Nothing is lost at the last dot. -/
theorem cutLast?_eq_some {s a b : List Char} (h : cutLast? s = some (a, b)) :
    s = a ++ '.' :: b := by
  unfold cutLast? at h
  obtain ⟨⟨t, f⟩, ht, hp⟩ := Option.map_eq_some_iff.1 h
  obtain ⟨rfl, rfl⟩ : f.reverse = a ∧ t.reverse = b := by simpa using hp
  have := congrArg List.reverse (cutFirst?_eq_some ht)
  simpa using this

end FilterSql.Text
