/-!
# The grammar of filters

The grammar is data: every `Rule` has a `body`, which is a `Pattern`. Patterns
are those of an expression grammar with ordered choice: the first alternative
that matches is taken, repetition takes as much as it can, and nothing is taken
back later.

Rules come in four kinds. A *spaced* rule allows blanks between its parts. A
*solid* rule does not. A *token* does not either, and what it is made of is not
shown: it counts as one unit. A *hidden* rule is only a name for its body.
-/

namespace FilterSql

/-- **The rules of the grammar**, the end of the input first and then in the
order in which an error lists them. -/
inductive Rule where
  | endOfInput
  | whitespace
  | identChar
  | kwAnd
  | kwOr
  | kwNot
  | kwNull
  | opEq
  | opNe
  | opGt
  | opGe
  | opLt
  | opLe
  | cmpOp
  | keyword
  | identifier
  | integer
  | string
  | stringInner
  | filter
  | orExpr
  | andExpr
  | notExpr
  | comparison
  | operand
  | group
  deriving DecidableEq

/-- How a rule treats blanks between its parts, and what of it is shown. -/
inductive Rule.Kind where
  /-- A name for its body, without a node of its own. -/
  | hidden
  /-- Blanks may stand between the parts. -/
  | spaced
  /-- The parts follow each other directly. -/
  | solid
  /-- The parts follow each other directly and are not shown. -/
  | token
  deriving DecidableEq

/-- A class of characters. -/
inductive CharClass where
  | letter
  | digit
  | alphanumeric
  | any
  deriving DecidableEq

/-- Whether a character is of the class. Letters and digits are those of
ASCII. -/
def CharClass.contains : CharClass → Char → Bool
  | letter, c => c.isAlpha
  | digit, c => c.isDigit
  | alphanumeric, c => c.isAlphanum
  | any, _ => true

/-- **A pattern** of the grammar. -/
inductive Pattern where
  /-- The very text. -/
  | literal (s : String)
  /-- The text, whatever the case of its ASCII letters. -/
  | anyCase (s : String)
  /-- One character of a class. -/
  | char (c : CharClass)
  /-- The start of the input. -/
  | start
  /-- The end of the input. -/
  | finish
  /-- What the rule matches. -/
  | rule (r : Rule)
  /-- One pattern and then another. -/
  | seq (p q : Pattern)
  /-- The first pattern, or the second where the first does not match. -/
  | choice (p q : Pattern)
  /-- The pattern, or nothing. -/
  | optional (p : Pattern)
  /-- The pattern as often as it matches. -/
  | many (p : Pattern)
  /-- Nothing, at a place where the pattern does not match. -/
  | notAhead (p : Pattern)

namespace Pattern

/-- The patterns one after the other. -/
def inOrder (p : Pattern) (ps : List Pattern) : Pattern :=
  ps.foldl seq p

/-- The first of the patterns that matches. -/
def firstOf (p : Pattern) (ps : List Pattern) : Pattern :=
  ps.foldl choice p

/-- The pattern once or more often. -/
def many1 (p : Pattern) : Pattern :=
  seq p (many p)

/-- **A whole word**, in any case: no character that could go on with it
follows. -/
def word (s : String) : Pattern :=
  seq (anyCase s) (notAhead (rule .identChar))

end Pattern

namespace Rule

/-- Every rule, in the order in which an error lists them. -/
def all : List Rule :=
  [endOfInput, whitespace, identChar, kwAnd, kwOr, kwNot, kwNull, opEq, opNe, opGt, opGe, opLt,
    opLe, cmpOp, keyword, identifier, integer, string, stringInner, filter, orExpr, andExpr,
    notExpr, comparison, operand, group]

theorem mem_all (r : Rule) : r ∈ all := by
  cases r <;> decide

/-- The name by which an error lists the rule. -/
def name : Rule → String
  | endOfInput => "EOI"
  | whitespace => "WHITESPACE"
  | identChar => "ident_char"
  | kwAnd => "kw_and"
  | kwOr => "kw_or"
  | kwNot => "kw_not"
  | kwNull => "kw_null"
  | opEq => "op_eq"
  | opNe => "op_ne"
  | opGt => "op_gt"
  | opGe => "op_ge"
  | opLt => "op_lt"
  | opLe => "op_le"
  | cmpOp => "cmp_op"
  | keyword => "keyword"
  | identifier => "identifier"
  | integer => "integer"
  | string => "string"
  | stringInner => "string_inner"
  | filter => "filter"
  | orExpr => "or_expr"
  | andExpr => "and_expr"
  | notExpr => "not_expr"
  | comparison => "comparison"
  | operand => "operand"
  | group => "group"

/-- The rule of a name. -/
def ofName? (s : String) : Option Rule :=
  all.find? (·.name = s)

/-- The kind of a rule. -/
def kind : Rule → Kind
  | whitespace | identChar | cmpOp | operand => .hidden
  | filter | orExpr | andExpr | notExpr | comparison | group => .spaced
  | string => .solid
  | endOfInput | kwAnd | kwOr | kwNot | kwNull | opEq | opNe | opGt | opGe | opLt | opLe
  | keyword | identifier | integer | stringInner => .token

/-- **What a rule matches.** `or` binds loosest, then `and`, then `not`, then a
comparison, which stands between two operands and does not chain. An operand
alone is a filter too, and so is nothing at all. -/
def body : Rule → Pattern
  | endOfInput => .finish
  | whitespace => .firstOf (.literal " ") [.literal "\t", .literal "\r", .literal "\n"]
  | identChar => .firstOf (.char .alphanumeric) [.literal "_", .literal "."]
  | kwAnd => .word "and"
  | kwOr => .word "or"
  | kwNot => .word "not"
  | kwNull => .word "null"
  | opEq => .word "eq"
  | opNe => .word "ne"
  | opGt => .word "gt"
  | opGe => .word "ge"
  | opLt => .word "lt"
  | opLe => .word "le"
  | cmpOp =>
    .firstOf (.rule opEq) [.rule opNe, .rule opGt, .rule opGe, .rule opLt, .rule opLe]
  | keyword =>
    .seq
      (.firstOf (.anyCase "and")
        [.anyCase "or", .anyCase "not", .anyCase "null", .anyCase "eq", .anyCase "ne",
          .anyCase "gt", .anyCase "ge", .anyCase "lt", .anyCase "le"])
      (.notAhead (.rule identChar))
  | identifier =>
    .inOrder (.notAhead (.rule keyword))
      [.choice (.char .letter) (.literal "_"), .many (.rule identChar)]
  | integer => .seq (.many1 (.char .digit)) (.notAhead (.rule identChar))
  | string => .inOrder (.literal "'") [.rule stringInner, .literal "'"]
  | stringInner =>
    .many (.choice (.literal "''") (.seq (.notAhead (.literal "'")) (.char .any)))
  | filter => .inOrder .start [.optional (.rule orExpr), .rule endOfInput]
  | orExpr => .seq (.rule andExpr) (.many (.seq (.rule kwOr) (.rule andExpr)))
  | andExpr => .seq (.rule notExpr) (.many (.seq (.rule kwAnd) (.rule notExpr)))
  | notExpr => .choice (.seq (.rule kwNot) (.rule notExpr)) (.rule comparison)
  | comparison => .seq (.rule operand) (.optional (.seq (.rule cmpOp) (.rule operand)))
  | operand =>
    .firstOf (.rule group) [.rule kwNull, .rule integer, .rule string, .rule identifier]
  | group => .inOrder (.literal "(") [.rule orExpr, .literal ")"]

end Rule

end FilterSql
