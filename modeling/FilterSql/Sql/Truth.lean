/-!
# Three-valued truth

SQL reasons with a third truth value, for what depends on a missing value. The
connectives are Kleene's: they give an answer wherever it does not depend on
what is unknown.
-/

namespace FilterSql

/-- **A truth value of SQL.** -/
inductive Truth where
  | yes
  | no
  | unknown
  deriving DecidableEq

namespace Truth

/-- The truth value of a condition that is known. -/
def ofBool (b : Bool) : Truth :=
  if b then yes else no

/-- The negation. -/
def not : Truth → Truth
  | yes => no
  | no => yes
  | unknown => unknown

/-- Whether both hold. -/
def and : Truth → Truth → Truth
  | no, _ | _, no => no
  | yes, yes => yes
  | _, _ => unknown

/-- Whether one of them holds. -/
def or : Truth → Truth → Truth
  | yes, _ | _, yes => yes
  | no, no => no
  | _, _ => unknown

/-- Whether all hold. -/
def all (ts : List Truth) : Truth :=
  ts.foldr and yes

/-- Whether some hold. -/
def any (ts : List Truth) : Truth :=
  ts.foldr or no

@[simp] theorem not_not (t : Truth) : t.not.not = t := by
  cases t <;> rfl

@[simp] theorem not_ofBool (b : Bool) : (ofBool b).not = ofBool !b := by
  cases b <;> rfl

theorem and_assoc (a b c : Truth) : (a.and b).and c = a.and (b.and c) := by
  cases a <;> cases b <;> cases c <;> rfl

theorem or_assoc (a b c : Truth) : (a.or b).or c = a.or (b.or c) := by
  cases a <;> cases b <;> cases c <;> rfl

@[simp] theorem all_cons (t : Truth) (ts : List Truth) : all (t :: ts) = t.and (all ts) := rfl

@[simp] theorem any_cons (t : Truth) (ts : List Truth) : any (t :: ts) = t.or (any ts) := rfl

end Truth

end FilterSql
