import FilterSql.Filter.Grammar
import FilterSql.Text.Ascii

/-!
# Matching the grammar

A rule is matched at a *cursor*, a place in the input with what follows it. A
match gives the cursor behind it and the *nodes* of the rules that matched on
the way. Beside the result runs the record of *attempts*: which rules were
tried in vain at the furthest place where one was tried in vain. It is what an
error reports, and it has no influence on the match.

Both recursions are plain. `Pattern.run` follows the pattern and leaves the
rules in it to a function that it is given; `Rule.run` follows the nesting of
rules. Since a rule nests in itself only behind a character that was taken,
the nesting is bounded by the input, and `Rule.nesting` is such a bound.
-/

namespace FilterSql

/-- A place in the input: how many characters stand before it, and those that
follow. -/
structure Cursor where
  /-- The number of characters before the place. -/
  pos : Nat
  /-- The characters that follow. -/
  rest : List Char

namespace Cursor

/-- The place after `n` more characters. -/
def advance (c : Cursor) (n : Nat) : Cursor :=
  ⟨c.pos + n, c.rest.drop n⟩

/-- Whether a character is a blank of the filter language. -/
def isBlank (c : Char) : Bool :=
  c == ' ' || c == '\t' || c == '\r' || c == '\n'

/-- The place after the blanks that follow. -/
def skipBlanks (c : Cursor) : Cursor :=
  c.advance (c.rest.takeWhile isBlank).length

@[simp] theorem pos_advance (c : Cursor) (n : Nat) : (c.advance n).pos = c.pos + n := rfl

@[simp] theorem rest_advance (c : Cursor) (n : Nat) : (c.advance n).rest = c.rest.drop n := rfl

theorem advance_advance (c : Cursor) (m n : Nat) :
    (c.advance m).advance n = c.advance (m + n) := by
  simp [advance, Nat.add_assoc]

end Cursor

/-- **A match of a rule.** A token holds the text it matched; any other node
holds the places where it starts and stops and the nodes inside it. -/
inductive Node where
  | token (rule : Rule) (start : Nat) (text : List Char)
  | branch (rule : Rule) (start stop : Nat) (children : List Node)

namespace Node

/-- The rule that matched. -/
def rule : Node → Rule
  | token r _ _ => r
  | branch r _ _ _ => r

/-- The number of characters before the match. -/
def start : Node → Nat
  | token _ s _ => s
  | branch _ s _ _ => s

/-- The number of characters before the end of the match. -/
def stop : Node → Nat
  | token _ s text => s + text.length
  | branch _ _ e _ => e

/-- The nodes inside. -/
def children : Node → List Node
  | token _ _ _ => []
  | branch _ _ _ cs => cs

/-- The matched text, as a part of the input. -/
def text (input : List Char) : Node → List Char
  | token _ _ t => t
  | branch _ s e _ => (input.drop s).take (e - s)

end Node

/-- **The record of attempts**: the furthest place where a rule was tried in
vain, and the rules tried there. -/
structure Attempts where
  /-- The number of characters before the place. -/
  pos : Nat
  /-- The rules tried there, in order. -/
  rules : List Rule

namespace Attempts

/-- Nothing was tried yet. -/
def none : Attempts := ⟨0, []⟩

/-- The number of attempts on record for a place. -/
def countAt (a : Attempts) (pos : Nat) : Nat :=
  if a.pos = pos then a.rules.length else 0

/-- **Puts a rule on record** that was tried in vain at `pos`, where `before`
attempts were on record when it was tried. A rule stands for the attempts made
on its behalf, except that a single one of them is the better report and is
kept in its place. -/
def record (a : Attempts) (r : Rule) (pos before : Nat) : Attempts :=
  if a.countAt pos = before + 1 then a
  else if a.pos = pos then ⟨pos, a.rules.take before ++ [r]⟩
  else if a.pos < pos then ⟨pos, [r]⟩
  else a

end Attempts

/-- How the parts of a rule are matched. -/
structure Mode where
  /-- Whether blanks may stand between the parts. -/
  spaced : Bool
  /-- Whether rules leave nodes and attempts. -/
  shown : Bool

namespace Mode

/-- The mode in which a match starts. -/
def initial : Mode := ⟨true, true⟩

/-- The mode for the parts of a rule. -/
def enter (m : Mode) : Rule.Kind → Mode
  | .hidden | .spaced => m
  | .solid => ⟨false, m.shown⟩
  | .token => ⟨false, false⟩

/-- The place where the next part may start. -/
def skip (m : Mode) (c : Cursor) : Cursor :=
  if m.spaced then c.skipBlanks else c

end Mode

/-- What a match gives: the record of attempts, and the place behind the match
with the nodes inside it, if there is a match. -/
abbrev Found := Attempts × Option (Cursor × List Node)

/-- A way to match at a place. -/
abbrev Matcher := Mode → Cursor → Attempts → Found

namespace Matcher

/-- Takes `n` characters if there is a reason to. -/
def take (ok : Bool) (n : Nat) (c : Cursor) (a : Attempts) : Found :=
  (a, if ok then some (c.advance n, []) else none)

/-- Matches again and again until there is no match, at most `limit` times. -/
def repeated (step : Cursor → Attempts → Found) :
    Nat → Cursor → Attempts → Attempts × Cursor × List Node
  | 0, c, a => (a, c, [])
  | limit + 1, c, a =>
    match step c a with
    | (a, none) => (a, c, [])
    | (a, some (c, nodes)) =>
      let (a, c, more) := repeated step limit c a
      (a, c, nodes ++ more)

end Matcher

/-- **Matches a pattern**, where `call` matches the rules in it. An optional
part that does not match leaves the blanks before it taken; a repetition that
does not go on gives them back. -/
def Pattern.run (call : Rule → Matcher) : Pattern → Matcher
  | .literal s, _, c, a => Matcher.take (s.toList.isPrefixOf c.rest) s.length c a
  | .anyCase s, _, c, a => Matcher.take (Text.startsWithWord s.toList c.rest) s.length c a
  | .char k, _, c, a => Matcher.take (c.rest.head?.any k.contains) 1 c a
  | .start, _, c, a => Matcher.take (c.pos == 0) 0 c a
  | .finish, _, c, a => Matcher.take c.rest.isEmpty 0 c a
  | .rule r, m, c, a => call r m c a
  | .seq p q, m, c, a =>
    match p.run call m c a with
    | (a, none) => (a, none)
    | (a, some (c, front)) =>
      match q.run call m (m.skip c) a with
      | (a, none) => (a, none)
      | (a, some (c, back)) => (a, some (c, front ++ back))
  | .choice p q, m, c, a =>
    match p.run call m c a with
    | (a, none) => q.run call m c a
    | found => found
  | .optional p, m, c, a =>
    match p.run call m c a with
    | (a, none) => (a, some (c, []))
    | found => found
  | .many p, m, c, a =>
    match p.run call m c a with
    | (a, none) => (a, some (c, []))
    | (a, some (c, first)) =>
      let (a, c, more) :=
        Matcher.repeated (fun c a => p.run call m (m.skip c) a) (c.rest.length + 1) c a
      (a, some (c, first ++ more))
  | .notAhead p, m, c, a =>
    match p.run call m c a with
    | (a, none) => (a, some (c, []))
    | (a, some _) => (a, none)

namespace Rule

/-- The node of a rule that matched between two places. -/
def node (r : Rule) (start stop : Cursor) (children : List Node) : Node :=
  match r.kind with
  | .token => .token r start.pos (start.rest.take (stop.pos - start.pos))
  | _ => .branch r start.pos stop.pos children

/-- **Matches a rule**, through at most `depth` rules nested in one another.
A rule that is not hidden leaves a node where it matches and an attempt where
it does not, unless it is tried inside a token. -/
def run : Nat → Rule → Matcher
  | 0, _, _, _, a => (a, none)
  | depth + 1, r, m, c, a =>
    let inside := r.body.run (run depth) (m.enter r.kind) c a
    if r.kind = .hidden then inside
    else match inside with
      | (a', some (c', nodes)) =>
        (a', some (c', if m.shown then [r.node c c' nodes] else []))
      | (a', none) =>
        (if m.shown then a'.record r c.pos (a.countAt c.pos) else a', none)

/-- A bound on how deep rules nest on an input: fewer than eight of them
between one character and the next. -/
def nesting (input : List Char) : Nat :=
  8 * (input.length + 2)

/-- **Matches a rule at the start of an input.** The match may end before the
input does. -/
def matchInput (r : Rule) (input : List Char) : Except Attempts (List Node) :=
  match r.run (nesting input) .initial ⟨0, input⟩ .none with
  | (_, some (_, nodes)) => .ok nodes
  | (a, none) => .error a

end Rule

end FilterSql
