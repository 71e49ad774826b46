import FilterSql.Proofs.Filter.Depth
import FilterSql.Proofs.Filter.Meaning
import FilterSql.Proofs.Sql.Request
import FilterSql.Users
import Mathlib

/-!
# Which users a filter selects

A column of the table may be named by its title, by that of the table before
it, and by the schema before both, in small letters or capitals. `Column.named?`
says so of a whole path, and `Column.ofParts?_ofPath` says that cutting the path
at its dots and looking at the parts comes to the same, in particular that a
path with a dot at an end names nothing.

A selection is run by its text, so what it gives is put together from three
results: what the text of the statement asks for (`Request.ofStatement?_render`),
what the predicate in it is worth in a row (`Filter.eval_of_condition?`), and how
deep it is (`Filter.depth_of_condition?`). The numbers come in ascending order
because the text asks for it and every database orders integers so.

The statement of `select_spec` is about any database. It selects exactly those
users of whose row the filter is true, unless the filter has a path in it that is
no column or its statement is beyond a limit, when it is refused.
-/

namespace FilterSql

open Sql

/-! ## Paths and their parts -/

namespace Text

theorem toLower_eq_dot_iff (c : Char) : c.toLower = '.' ↔ c = '.' := by
  unfold Char.toLower
  split
  · rename_i h
    constructor
    · intro hc
      -- a capital letter is made a small one, and neither is the dot
      have hval : (c.val + 32).toNat = 46 := congrArg (fun c : Char => c.val.toNat) hc
      have hlow : 65 ≤ c.val.toNat := h.1
      rw [UInt32.toNat_add] at hval
      have hhigh : c.val.toNat ≤ 90 := h.2
      change (c.val.toNat + 32) % 4294967296 = 46 at hval
      omega
    · rintro rfl
      exact absurd h (by decide)
  · exact Iff.rfl

/-- Small letters do not move the dots. -/
theorem segments_map_toLower (s : List Char) :
    segments (s.map Char.toLower) = (segments s).map (List.map Char.toLower) := by
  induction s with
  | nil => rfl
  | cons c s ih =>
    obtain ⟨p, ps, hps⟩ := List.exists_cons_of_ne_nil (segments_ne_nil s)
    by_cases hc : c = '.'
    · rw [List.map_cons, (toLower_eq_dot_iff c).2 hc, hc, segments_cons_dot, segments_cons_dot, ih]
      rfl
    · rw [hps] at ih
      rw [List.map_cons, segments_cons_of_ne (mt (toLower_eq_dot_iff c).1 hc) ih,
        segments_cons_of_ne hc hps]
      rfl

theorem segments_append_dot (s t : List Char) :
    segments (s ++ '.' :: t) = segments s ++ segments t := by
  induction s with
  | nil => simp [segments]
  | cons c s ih =>
    obtain ⟨p, ps, hps⟩ := List.exists_cons_of_ne_nil (segments_ne_nil s)
    by_cases hc : c = '.'
    · rw [List.cons_append, hc, segments_cons_dot, segments_cons_dot, ih]
      rfl
    · rw [hps] at ih
      rw [List.cons_append, segments_cons_of_ne hc ih, segments_cons_of_ne hc hps]
      rfl

end Text

/-- **A column path is cut at its dots**, unless it starts or ends with its
last dot, when it is not cut at all. -/
theorem QualifiedName.parts_ofPath (path : String) :
    (ofPath path).parts = (Text.segments path.toList).map String.ofList
      ∨ (ofPath path).parts = [path]
        ∧ (path.toList.head? = some '.' ∨ path.toList.getLast? = some '.') := by
  unfold ofPath
  split
  · rename_i q n hcut
    have hpath := Text.cutLast?_eq_some hcut
    split
    · rename_i hends
      refine .inr ⟨rfl, ?_⟩
      rw [hpath]
      rcases Bool.or_eq_true _ _ ▸ hends with hq | hn
      · rw [List.isEmpty_iff.1 hq]
        exact .inl rfl
      · rw [List.isEmpty_iff.1 hn]
        exact .inr (by simp)
    · left
      rw [hpath, Text.segments_append_dot,
        Text.segments_eq_singleton (Text.not_mem_of_cutLast? hcut)]
      simp [parts]
  · rename_i hcut
    left
    have hdot : '.' ∉ path.toList := by
      have := Text.cutFirst?_eq_none (Option.map_eq_none_iff.1 hcut)
      simpa using this
    simp [parts, Text.segments_eq_singleton hdot]

/-! ## The column that a path names -/

namespace Column

/-- The ways to name a column, in small letters. -/
def spellings (c : Column) : List String :=
  c.titles.flatMap fun title => [title, "users." ++ title, "main.users." ++ title]

/-- The parts of the ways to name a column. -/
def spelledParts (c : Column) : List (List String) :=
  c.titles.flatMap fun title => [[title], ["users", title], ["main", "users", title]]

/-- **The column that a path names**, whatever the case of its letters. -/
def named? (path : String) : Option Column :=
  all.find? fun c => Text.lower path ∈ c.spellings

theorem mem_all (c : Column) : c ∈ all := by
  cases c <;> decide

/-- A column is found by any of its names, if no two columns have one. -/
theorem find?_mem_eq_some_iff {names : Column → List String}
    (hnames : ∀ c ∈ all, ∀ c' ∈ all, ∀ s ∈ names c, s ∈ names c' → c = c') {s : String}
    {c : Column} : all.find? (fun c => s ∈ names c) = some c ↔ s ∈ names c := by
  constructor
  · intro h
    simpa using List.find?_some h
  · intro h
    obtain ⟨c', hc'⟩ : ∃ c', all.find? (fun c => s ∈ names c) = some c' := by
      rw [← Option.isSome_iff_exists, List.find?_isSome]
      exact ⟨c, mem_all c, by simpa using h⟩
    have hmem : s ∈ names c' := by simpa using List.find?_some hc'
    rw [hc', hnames c (mem_all c) c' (mem_all c') s h hmem]

theorem named?_eq_some_iff {path : String} {c : Column} :
    named? path = some c ↔ Text.lower path ∈ c.spellings :=
  find?_mem_eq_some_iff (by decide)

theorem ofTitle?_eq_some_iff {s : String} {c : Column} :
    ofTitle? s = some c ↔ Text.lower s ∈ c.titles :=
  find?_mem_eq_some_iff (by decide)

/-- A name stands for a column if its parts, in small letters, are those of a
spelling. -/
theorem ofParts?_eq_some_iff {parts : List String} {c : Column} :
    ofParts? parts = some c ↔ parts.map Text.lower ∈ c.spelledParts := by
  obtain ⟨ps, rfl⟩ : ∃ ps, parts = ps.reverse := ⟨parts.reverse, by simp⟩
  unfold ofParts?
  rw [List.reverse_reverse]
  match ps with
  | [] => simp [spelledParts]
  | [t] => simp [spelledParts, ofTitle?_eq_some_iff]
  | [t, a] => simp [spelledParts, ofTitle?_eq_some_iff, and_comm]
  | [t, a, b] => simp [spelledParts, ofTitle?_eq_some_iff, and_comm]
  | t :: a :: b :: d :: ps =>
    have hshort : ∀ s ∈ c.spelledParts, s.length ≤ 3 := by cases c <;> decide
    refine iff_of_false (by simp) (fun h => ?_)
    have hlength := hshort _ h
    simp at hlength

/-- The characters of a spelling and of its parts. -/
theorem segments_spellings (c : Column) :
    c.spellings.map (fun s => (Text.segments s.toList).map String.ofList) = c.spelledParts := by
  cases c <;> decide

theorem map_lower_segments (path : String) :
    ((Text.segments path.toList).map String.ofList).map Text.lower
      = (Text.segments (Text.lower path).toList).map String.ofList := by
  rw [Text.lower, String.toList_ofList, Text.segments_map_toLower, List.map_map, List.map_map]
  refine List.map_congr_left (fun s _ => ?_)
  simp [Text.lower]

/-- A spelling neither starts nor ends with a dot. -/
theorem head?_and_getLast?_ne_dot {c : Column} {s : String} (h : s ∈ c.spellings) :
    s.toList.head? ≠ some '.' ∧ s.toList.getLast? ≠ some '.' := by
  have hall : ∀ c ∈ all, ∀ s ∈ c.spellings,
      s.toList.head? ≠ some '.' ∧ s.toList.getLast? ≠ some '.' := by decide
  exact hall c (mem_all c) s h

/-- A path that starts or ends with a dot spells no column. -/
theorem not_mem_spellings {path : String} {c : Column}
    (h : path.toList.head? = some '.' ∨ path.toList.getLast? = some '.') :
    Text.lower path ∉ c.spellings := by
  intro hmem
  obtain ⟨hhead, hlast⟩ := head?_and_getLast?_ne_dot hmem
  rw [Text.lower, String.toList_ofList] at hhead hlast
  rcases h with h | h
  · exact hhead (by rw [List.head?_map, h]; rfl)
  · exact hlast (by rw [List.getLast?_map, h]; rfl)

/-- **Cutting a path at its dots finds the column that it names.** -/
theorem ofParts?_ofPath (path : String) :
    ofParts? (QualifiedName.ofPath path).parts = named? path := by
  refine Option.ext (fun c => ?_)
  rw [named?_eq_some_iff, ofParts?_eq_some_iff]
  rcases QualifiedName.parts_ofPath path with hparts | ⟨hparts, hends⟩
  · rw [hparts, map_lower_segments, ← segments_spellings, List.mem_map_of_injective]
    intro s t hst
    have hchars := List.map_injective_iff.2 (fun _ _ => String.ofList_injective) hst
    exact String.toList_injective (Text.segments_injective hchars)
  · rw [hparts]
    refine iff_of_false (fun h => not_mem_spellings (c := c) hends ?_) (not_mem_spellings hends)
    have htitle : Text.lower path ∈ c.titles := by simpa [spelledParts] using h
    exact List.mem_flatMap.2 ⟨_, htitle, List.mem_cons_self⟩

end Column

/-! ## Users and filters -/

namespace User

/-- What a path stands for in the row of a user. -/
def atPath (u : User) (path : String) : Operand :=
  (Column.named? path).elim (.plain .null) u.operand

theorem row_ofPath (u : User) (path : String) :
    u.row (QualifiedName.ofPath path).parts = u.atPath path := by
  unfold row User.atPath
  rw [Column.ofParts?_ofPath]

/-- Every database orders users by their numbers. -/
theorem precedes_id (D : Database) (u v : User) :
    D.precedes (u.operand .id) (v.operand .id) = decide (u.id.toInt ≤ v.id.toInt) := by
  have horder : D.order (u.operand .id) (v.operand .id) = compare u.id.toInt v.id.toInt :=
    D.order_integer _ _ _
  rw [Database.precedes, horder]
  simp [operand, compare_gt_iff_gt]

end User

namespace Filter

/-- Whether every path in a filter names a column of the table. -/
def Known (f : Filter) : Prop :=
  ∀ path ∈ f.paths, (Column.named? path).isSome

instance (f : Filter) : Decidable f.Known :=
  inferInstanceAs (Decidable (∀ path ∈ f.paths, _))

/-- **The filter is true of a user**: its value in the row of the user is true,
and not only not false. -/
def TrueOf (f : Filter) (D : Database) (u : User) : Prop :=
  D.truth (f.eval D u.atPath) = .yes

instance (f : Filter) (D : Database) (u : User) : Decidable (f.TrueOf D u) :=
  inferInstanceAs (Decidable (_ = _))

/-- The statement that selects the users of whom a filter is true. -/
def statement (f : Filter) : Statement :=
  (Users.selection (Restriction.ofFilter (some f)).value).render .sqlite

/-- **The statement of a filter is within the limits of the database.** -/
structure Fits (f : Filter) : Prop where
  /-- As a tree with two branches at most, the predicate is not too deep. -/
  depth : f.depth ≤ 1000
  /-- Not too many values are bound. -/
  literals : f.literals.length ≤ 32766
  /-- No bound text is too long. -/
  values : ∀ x ∈ f.literals, x.cell.size ≤ 1000000000
  /-- The statement is not too long. -/
  text : f.statement.sql.utf8ByteSize ≤ 1000000000

end Filter

/-! ## The statement -/

namespace Users

variable (D : Database) (t : Users)

theorem selection_eq (p : Option Expr) :
    selection ⟨p⟩ = ⟨[.name ⟨none, "id"⟩], some ⟨⟨none, "users"⟩, none⟩, p,
      [⟨.name ⟨none, "id"⟩, some .ascending⟩], none, none⟩ := by
  cases p <;> rfl

/-- What a selection of the numbers of users asks for. -/
theorem ofStatement?_selection {p : Option Expr} {q : Option Condition}
    (h : Option.Rel (fun e c => Writes .sqlite e.pieces (.chain .or) c) p q) :
    Request.ofStatement? .sqlite ((selection ⟨p⟩).render .sqlite)
      = some ⟨["id"], ["users"], q, some (["id"], .ascending)⟩ := by
  rw [selection_eq, Request.ofStatement?_render _ _ _ _ _ h]
  rfl

theorem sorted_perm (key : Column) (direction : Direction) (users : List User) :
    (sorted D key direction users).Perm users :=
  List.mergeSort_perm _ _

/-- The numbers of some users, in the order in which a selection has them. -/
def idsWhere (p : User → Bool) : List Int :=
  (sorted D .id .ascending (t.list.filter p)).map fun u => u.id.toInt

theorem mem_idsWhere (p : User → Bool) (i : Int) :
    i ∈ t.idsWhere D p ↔ ∃ u ∈ t.list, p u = true ∧ u.id.toInt = i := by
  unfold idsWhere
  rw [((sorted_perm D _ _ _).map _).mem_iff, List.mem_map]
  simp only [List.mem_filter, and_assoc]

/-- **Numbers are given in ascending order**, and none of them twice. -/
theorem pairwise_idsWhere (p : User → Bool) : (t.idsWhere D p).Pairwise (· < ·) := by
  have hsorted : (t.idsWhere D p).Pairwise (· ≤ ·) := by
    have hle : (sorted D .id .ascending (t.list.filter p)).Pairwise
        fun u v => D.precedes (u.operand .id) (v.operand .id) = true := by
      refine List.pairwise_mergeSort (fun u v w => ?_) (fun u v => ?_) _
      · simpa only [User.precedes_id, decide_eq_true_eq] using le_trans
      · simpa only [User.precedes_id, Bool.or_eq_true, decide_eq_true_eq] using le_total _ _
    simpa only [idsWhere, List.pairwise_map, User.precedes_id, decide_eq_true_eq] using hle
  have hnodup : (t.idsWhere D p).Nodup := by
    unfold idsWhere
    rw [((sorted_perm D _ _ _).map _).nodup_iff]
    have hids : ((t.list.filter p).map User.id).Nodup :=
      t.distinct.sublist (List.filter_sublist.map _)
    have hints := hids.map (fun _ _ => Int64.toInt_inj.1)
    rwa [List.map_map] at hints
  exact hsorted.imp₂ (fun i j hle hne => lt_of_le_of_ne hle hne) hnodup

/-- **A selection is run by its text.** It gives the numbers of the users of whose
row the predicate holds that the text states, unless it is refused. -/
theorem integers?_execute {p : Option Expr} {q : Option Condition}
    (h : Option.Rel (fun e c => Writes .sqlite e.pieces (.chain .or) c) p q) :
    (t.execute D ((selection ⟨p⟩).render .sqlite)).bind (·.integers? "id")
      = if Limits.sqlite.allow ((selection ⟨p⟩).render .sqlite)
            ∧ accepts ⟨["id"], ["users"], q, some (["id"], .ascending)⟩ then
          some (t.idsWhere D fun u => q.all (D.engine.holds u.row))
        else none := by
  have hid : Column.ofParts? ["id"] = some .id := by decide
  have hcells : ∀ users : List User,
      (users.map fun u => (u.operand .id).cell).mapM Cell.integer?
        = some (users.map fun u => u.id.toInt) := by
    intro users
    induction users with
    | nil => rfl
    | cons u users ih =>
      rw [List.map_cons, List.mapM_cons, ih]
      rfl
  unfold execute
  rw [ofStatement?_selection h]
  by_cases hallow : Limits.sqlite.allow ((selection ⟨p⟩).render .sqlite) = true
  · by_cases haccepts : accepts ⟨["id"], ["users"], q, some (["id"], .ascending)⟩ = true
    · simp [hallow, haccepts, hid, Answer.integers?, Column.title, hcells, idsWhere]
    · simp [hallow, haccepts]
  · simp [hallow]

/-! ## What is refused -/

theorem statement_eq (f : Filter) : f.statement = (selection ⟨some f.expr⟩).render .sqlite := by
  rw [Filter.statement, Restriction.value_ofFilter]
  rfl

/-- The values that the statement of a filter binds. -/
theorem params_statement (f : Filter) : f.statement.params = f.literals.map Literal.value := by
  have hchecked : ∀ e ∈ (selection ⟨some f.expr⟩).exprs, e.Every Expr.Checked := by
    rw [selection_eq]
    have hname : ∀ n, (Expr.name n).Every Expr.Checked :=
      fun n => List.forall_mem_singleton.2 trivial
    simp [Select.exprs, hname, f.plain_expr.every_checked]
  rw [statement_eq, Select.render, params_ofPieces, (Select.binds_pieces hchecked).bound,
    ← f.params_expr, selection_eq]
  simp [Select.params, Select.exprs, Expr.params]

theorem allow_iff {l : Limits} {st : Statement} :
    l.allow st = true ↔ st.sql.utf8ByteSize ≤ l.text ∧ st.params.length ≤ l.params
      ∧ ∀ v ∈ st.params, v.cell.size ≤ l.value := by
  simp [Limits.allow, and_assoc]

theorem accepts_some_iff {c : Condition} {order : Option (List String × Direction)} :
    accepts ⟨["id"], ["users"], some c, order⟩ = true
      ↔ c.depth ≤ Limits.sqlite.depth
        ∧ ∀ parts ∈ c.names, (Column.ofParts? parts).isSome = true := by
  have hnamed : isNamed ["users"] = true := by decide
  simp [accepts, hnamed]

/-- **A filter is refused if it has a path in it that is no column, or if its
statement is beyond a limit**, and only then. -/
theorem admitted_iff {f : Filter} (hf : f.Every Filter.Legible) {c : Condition}
    (hc : f.expr.condition? = some c) :
    Limits.sqlite.allow f.statement
        ∧ accepts ⟨["id"], ["users"], some c, some (["id"], .ascending)⟩
      ↔ f.Known ∧ f.Fits := by
  have hvalues : (∀ v ∈ f.statement.params, v.cell.size ≤ Limits.sqlite.value)
      ↔ ∀ x ∈ f.literals, x.cell.size ≤ Limits.sqlite.value := by
    rw [params_statement, List.forall_mem_map]
    refine forall₂_congr fun x hx => ?_
    rw [Literal.cell_value_of_legible hf hx]
  have hnames : (∀ parts ∈ c.names, (Column.ofParts? parts).isSome = true) ↔ f.Known := by
    rw [Filter.names_of_condition? hc, List.forall_mem_map]
    refine forall₂_congr fun path _ => ?_
    rw [Column.ofParts?_ofPath]
  have hlength : f.statement.params.length = f.literals.length := by
    rw [params_statement, List.length_map]
  rw [allow_iff, accepts_some_iff, hvalues, hnames, hlength, Filter.depth_of_condition? hc]
  constructor
  · rintro ⟨⟨htext, hliterals, hvalues⟩, hdepth, hknown⟩
    exact ⟨hknown, hdepth, hliterals, hvalues, htext⟩
  · rintro ⟨hknown, hdepth, hliterals, hvalues, htext⟩
    exact ⟨⟨htext, hliterals, hvalues⟩, hdepth, hknown⟩

/-! ## The selected users -/

/-- A text is read, its filter is compiled, and the statement is run. -/
theorem value_select {text : String} {f : Option Filter} (hparse : Filter.parse text = .ok f) :
    (t.select D text).value
      = ((t.execute D ((selection ⟨f.map Filter.expr⟩).render .sqlite)).bind
          (·.integers? "id")).elim (.error .refused) .ok := by
  unfold select
  rw [Logged.value_bind, Filter.value_read, hparse, ← Restriction.value_ofFilter]
  cases h : (t.execute D
    ((selection (Restriction.ofFilter f).value).render .sqlite)).bind (·.integers? "id") <;>
    simp [h]

/-- A filter that is not refused selects the users of whom it is true. -/
theorem value_select_of_parse {text : String} {f : Filter}
    (hparse : Filter.parse text = .ok (some f)) :
    (f.Known ∧ f.Fits → (t.select D text).value = .ok (t.idsWhere D fun u => f.TrueOf D u))
      ∧ (¬(f.Known ∧ f.Fits) → (t.select D text).value = .error .refused) := by
  have hf := Filter.legible_of_parse hparse
  obtain ⟨⟨c, hc⟩, -⟩ := f.plain_expr.written .sqlite
  have hanswer := t.integers?_execute D (.some hc.alone.chain)
  have hholds : (fun u : User => D.engine.holds u.row c) = fun u => decide (f.TrueOf D u) := by
    funext u
    have hrow : (fun path => u.row (QualifiedName.ofPath path).parts) = u.atPath :=
      funext u.row_ofPath
    refine decide_eq_decide.2 ?_
    rw [Filter.eval_of_condition? D hf hc.condition, hrow]
    rfl
  simp only [← statement_eq, Option.all_some, hholds] at hanswer
  rw [value_select D t hparse, Option.map_some, ← statement_eq, hanswer]
  constructor
  · intro hadmitted
    rw [if_pos ((admitted_iff hf hc.condition).2 hadmitted)]
    rfl
  · intro hrefused
    rw [if_neg (mt (admitted_iff hf hc.condition).1 hrefused)]
    rfl

/-- A blank text selects all users. -/
theorem value_select_of_blank {text : String}
    (hblank : ∀ c ∈ text.toList, Cursor.isBlank c = true) :
    (t.select D text).value = .ok (t.idsWhere D fun _ => true) := by
  have hparse : Filter.parse text = .ok none :=
    (Filter.parseChars_eq_none_iff text.toList).2 hblank
  have hadmitted : Limits.sqlite.allow ((selection ⟨none⟩).render .sqlite)
      ∧ accepts ⟨["id"], ["users"], none, some (["id"], .ascending)⟩ := by
    decide
  have hanswer := t.integers?_execute D .none
  rw [if_pos hadmitted] at hanswer
  rw [value_select D t hparse, Option.map_none, hanswer]
  rfl

theorem known_foldl_replicate {f : Filter} (hf : f.Known) (op : Operator) (n : Nat) :
    ((List.replicate n f).foldl (.binary op) f).Known := by
  induction n with
  | zero => exact hf
  | succ n ih =>
    rw [List.replicate_succ', List.foldl_concat]
    exact List.forall_mem_append.2 ⟨ih, hf⟩

end Users

end FilterSql
