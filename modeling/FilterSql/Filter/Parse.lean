import FilterSql.Filter.Basic
import FilterSql.Filter.ParseError

/-!
# Reading a filter

A text is matched against the grammar, and the nodes of the match are built
into a filter: the operands of `and` and of `or` from the left, an operand
alone as itself, and the text of a string literal with its doubled quotes
halved. A text of blanks only is no filter and no error either: it imposes no
condition.
-/

namespace FilterSql

namespace Filter

/-- Joins operands from the left with one connective. -/
def chain (c : Connective) : List Filter → Except ParseError Filter
  | [] => .error (.incomplete c.keyword)
  | first :: rest => .ok (rest.foldl (binary (.logical c)) first)

/-- The error of a node that has no place where it stands. -/
def unexpected (input : List Char) (n : Node) : ParseError :=
  let (line, column) := Text.lineColumn (input.take n.start)
  .unexpectedToken (String.ofList (n.text input)) line column

/-- The comparator a node stands for. -/
def comparatorOf (input : List Char) (n : Node) : Except ParseError Comparator :=
  match n.rule with
  | .opEq => .ok .eq
  | .opNe => .ok .ne
  | .opGt => .ok .gt
  | .opGe => .ok .ge
  | .opLt => .ok .lt
  | .opLe => .ok .le
  | _ => .error (unexpected input n)

mutual

/-- **The filter of a node.** -/
def ofNode (input : List Char) : Node → Except ParseError Filter
  | .branch .orExpr _ _ children => do chain .or (← ofOperands input children)
  | .branch .andExpr _ _ children => do chain .and (← ofOperands input children)
  | .branch .notExpr _ _ children =>
    match children with
    | [] => .error (.incomplete "not")
    | first :: rest =>
      if first.rule = .kwNot then
        match rest with
        | [] => .error (.incomplete "not")
        | operand :: _ => do return .not (← ofNode input operand)
      else ofNode input first
  | .branch .comparison _ _ children =>
    match children with
    | [] => .error (.incomplete "comparison")
    | [only] => ofNode input only
    | [left, op] => do
      let _ ← ofNode input left
      let _ ← comparatorOf input op
      .error (.incomplete "comparison")
    | left :: op :: right :: _ => do
      let l ← ofNode input left
      let c ← comparatorOf input op
      let r ← ofNode input right
      return .binary (.comparison c) l r
  | .branch .group _ _ children =>
    match children with
    | [] => .error (.incomplete "grouped")
    | inner :: _ => ofNode input inner
  | .branch .string _ _ children =>
    let raw := children.head?.elim [] (·.text input)
    .ok (.string (String.ofList (Text.halved '\'' raw)))
  | .token .identifier _ text => .ok (.identifier (String.ofList text))
  | .token .integer _ text => .ok (.integer (String.ofList text))
  | .token .kwNull _ _ => .ok .null
  | n => .error (unexpected input n)

/-- The filters of the operands among some nodes, the connectives between them
left out. -/
def ofOperands (input : List Char) : List Node → Except ParseError (List Filter)
  | [] => .ok []
  | n :: rest =>
    if n.rule = .kwAnd ∨ n.rule = .kwOr then ofOperands input rest
    else do
      let f ← ofNode input n
      return f :: (← ofOperands input rest)

end

/-- **Reads a filter** from characters. -/
def parseChars (input : List Char) : Except ParseError (Option Filter) :=
  match Rule.filter.matchInput input with
  | .error attempts => .error (.ofAttempts input attempts)
  | .ok [] => .error (.incomplete "filter")
  | .ok (n :: _) =>
    match n.children.find? (·.rule = .orExpr) with
    | none => .ok none
    | some e => do return some (← ofNode input e)

/-- **Reads a filter.** Nothing but blanks gives no filter. -/
def parse (input : String) : Except ParseError (Option Filter) :=
  parseChars input.toList

end Filter

end FilterSql
