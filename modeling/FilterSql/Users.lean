import FilterSql.Compile
import FilterSql.Filter.Read
import FilterSql.Sql.Engine
import FilterSql.Sql.Reader

/-!
# The table of users

A table to run filters on. A user has a number, which no other user has, a name
and a surname, an age, and possibly an address.

`Users.select` gives the numbers of the users that a filter keeps. It writes a
statement, and `Users.execute` runs that statement: it reads the text, keeps the
users of whose row the predicate holds that was read, and puts them in the order
that the text asks for. A statement that cannot be read is refused, and so is one
that is beyond the limits of the database or has a name in it that is no column,
even when there is no user.
-/

namespace FilterSql

/-- **A user.** -/
structure User where
  id : Int64
  name : String
  surname : String
  age : Int64
  email : Option String
  deriving DecidableEq

/-- A column of the table of users. -/
inductive Column where
  | id
  | name
  | surname
  | age
  | email
  deriving DecidableEq

namespace Column

/-- Every column, in the order of the table. -/
def all : List Column := [id, name, surname, age, email]

/-- The name of a column. -/
def title : Column → String
  | id => "id"
  | name => "name"
  | surname => "surname"
  | age => "age"
  | email => "email"

/-- The names that a column goes by. The number of a user is that of its row,
which has names of its own. -/
def titles : Column → List String
  | id => ["id", "rowid", "oid", "_rowid_"]
  | c => [c.title]

/-- The column of a name, whatever the case of its letters. -/
def ofTitle? (s : String) : Option Column :=
  all.find? (Text.lower s ∈ ·.titles)

/-- **The column that the parts of a name stand for.** The name may be
qualified by the table, and the table by its schema. -/
def ofParts? (parts : List String) : Option Column :=
  match parts.reverse with
  | title :: qualifier =>
    if [[], ["users"], ["users", "main"]].contains (qualifier.map Text.lower) then ofTitle? title
    else none
  | [] => none

end Column

namespace User

/-- What a user has in a column. -/
def operand (u : User) : Column → Operand
  | .id => ⟨.integer u.id.toInt, .integer⟩
  | .name => ⟨.text u.name, .text⟩
  | .surname => ⟨.text u.surname, .text⟩
  | .age => ⟨.integer u.age.toInt, .integer⟩
  | .email => ⟨u.email.elim .null .text, .text⟩

/-- What names stand for in the row of a user. -/
def row (u : User) (parts : List String) : Operand :=
  (Column.ofParts? parts).elim (.plain .null) u.operand

end User

/-- **The table of users.** -/
structure Users where
  /-- The users, in the order in which they were put in. -/
  list : List User
  /-- No two users have one number. -/
  distinct : (list.map User.id).Nodup

/-- **What a statement gives**: a column with its title. -/
structure Answer where
  /-- The title of the column. -/
  title : String
  /-- What the rows have in it. -/
  cells : List Cell

/-- The integers in the column of a title, if it is there and holds nothing
else. -/
def Answer.integers? (a : Answer) (title : String) : Option (List Int) :=
  if a.title = title then a.cells.mapM Cell.integer? else none

/-- Why a filter selects nothing. -/
inductive SelectError where
  /-- The text is no filter. -/
  | parse (e : ParseError)
  /-- The database refuses the statement. -/
  | refused
  deriving DecidableEq

namespace Users

/-- The table of some users, if no two of them have one number. -/
def ofList? (users : List User) : Option Users :=
  if h : (users.map User.id).Nodup then some ⟨users, h⟩ else none

/-- Four users to try filters on. -/
def sample : Users where
  list := [
    ⟨1, "John", "Doe", 20, some "test@test.com"⟩,
    ⟨2, "Jane", "Doe", 10, none⟩,
    ⟨3, "Alice", "Smith", 66, none⟩,
    ⟨4, "Bob", "Smith", 30, none⟩]
  distinct := by decide

/-- How many users there are. -/
def count (t : Users) : Nat := t.list.length

/-- Whether the parts of a name are those of the table. -/
def isNamed (parts : List String) : Bool :=
  [["users"], ["main", "users"]].contains (parts.map Text.lower)

/-- Whether a request is about the table and its columns, and its predicate is not
too deep. -/
def accepts (r : Sql.Request) : Bool :=
  isNamed r.table && r.predicate.all fun c =>
    c.depth ≤ Limits.sqlite.depth && c.names.all fun parts => (Column.ofParts? parts).isSome

/-- Some users in the order of a column. -/
def sorted (D : Database) (key : Column) (direction : Direction) (users : List User) : List User :=
  users.mergeSort fun u v =>
    match direction with
    | .ascending => D.precedes (u.operand key) (v.operand key)
    | .descending => D.precedes (v.operand key) (u.operand key)

/-- **Runs a statement on the table.** It is refused if it is not a selection of a
column from the table, or if it is beyond the limits of the database. Without an
order, the users stay in that in which they were put in. -/
def execute (D : Database) (t : Users) (st : Statement) : Option Answer := do
  guard (Limits.sqlite.allow st)
  let r ← Sql.Request.ofStatement? .sqlite st
  guard (accepts r)
  let column ← Column.ofParts? r.column
  let kept := t.list.filter fun u => r.predicate.all (D.engine.holds u.row)
  let rows ← match r.order with
    | none => some kept
    | some (key, direction) => (Column.ofParts? key).map (sorted D · direction kept)
  return ⟨column.title, rows.map fun u => (u.operand column).cell⟩

/-- The selection of the numbers of users under a restriction. -/
def selection (r : Restriction) : Select :=
  ((Select.ofTable [.column "id"] ⟨⟨none, "users"⟩, none⟩).apply r).orderBy
    ⟨.column "id", some .ascending⟩

/-- **The numbers of the users that a filter keeps**, in ascending order. -/
def select (D : Database) (t : Users) (filter : String) :
    Logged (Except SelectError (List Int)) := do
  match ← Filter.read filter with
  | .error e => return .error (.parse e)
  | .ok f =>
    let st := (selection (← Restriction.ofFilter f)).render .sqlite
    Logged.log (.executing st.sql st.params.length)
    match (t.execute D st).bind (·.integers? "id") with
    | some ids => return .ok ids
    | none => return .error .refused

end Users

end FilterSql
