/-!
# Places in a text

A place in a text is shown as a line number, a column and the line itself.
Lines end with a line feed; a carriage return directly before it belongs to
the line end, and elsewhere it is a character like any other.
-/

namespace FilterSql.Text

/-- The line and column reached after some text, from a line and column before
it. Both count from one, columns in characters. -/
def lineColumnFrom (line column : Nat) : List Char → Nat × Nat
  | [] => (line, column)
  | '\r' :: '\n' :: rest => lineColumnFrom (line + 1) 1 rest
  | '\n' :: rest => lineColumnFrom (line + 1) 1 rest
  | _ :: rest => lineColumnFrom line (column + 1) rest

/-- The line and column of the place behind some text. -/
def lineColumn (before : List Char) : Nat × Nat :=
  lineColumnFrom 1 1 before

/-- What is left of the line a text starts in, its line feed included. -/
def restOfLine : List Char → List Char
  | [] => []
  | c :: cs => if c = '\n' then ['\n'] else c :: restOfLine cs

/-- The line around a place between two texts, its line feed included. -/
def lineAround (before after : List Char) : List Char :=
  (before.reverse.takeWhile (· ≠ '\n')).reverse ++ restOfLine after

/-- A symbol in place of a line break character. -/
def visible (c : Char) : Char :=
  if c = '\r' then '␍' else if c = '\n' then '␊' else c

/-- Whether a character breaks a line or is part of a line break. -/
def isBreak (c : Char) : Bool :=
  c == '\r' || c == '\n'

/-- **The line that is shown for a place.** If the place is at a line break,
the breaks of the line are shown as symbols; otherwise they are left out. -/
def shownLine (before after : List Char) : List Char :=
  let line := lineAround before after
  if after.head?.any isBreak then line.map visible else line.filter (!isBreak ·)

/-- The offsets in bytes of all places in a text in UTF-8, from its start, which
is at offset `first`, to its end. -/
def utf8Offsets (first : Nat) : List Char → List Nat
  | [] => [first]
  | c :: cs => first :: utf8Offsets (first + c.utf8Size) cs

end FilterSql.Text
