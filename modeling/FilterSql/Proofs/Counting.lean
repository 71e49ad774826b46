import FilterSql.Proofs.Reports
import FilterSql.Query
import Mathlib

/-!
# Counting nodes from a worklist

The nodes of a filter are counted without a recursion over the filter. The nodes
still to be counted are pending on a stack. In each round the one on top is taken
off and counted, and its operands are put on the stack in its place. A round may
leave more nodes pending than it found, so neither how many are pending nor how
deep they are says that the rounds come to an end, or that the count is right once
they do.

What a round keeps is the count together with the sizes of all pending filters
(`Counting.Rounds.count_add_sum`). What makes the rounds end is that a node on top
of the stack is worked off, with all that stands below it in the filter, before the
rest of the stack is touched (`Counting.rounds_walk`). The rounds therefore walk
through the filter, each node before its operands and the right operand before the
left one.

The same filter may stand in a larger one several times, so that each node is visited
once is not a statement about filters. A node is a filter together with the place
where it stands (`Located`), and no place is visited twice. The main statement,
`Filter.every_node_counted`, says this, and that the number reported of a text that
was read is the number of nodes of its filter.
-/

namespace FilterSql

namespace Filter

/-! ## Nodes and places -/

/-- The operands of a node, from left to right. -/
def children : Filter → List Filter
  | binary _ l r => [l, r]
  | not f => [f]
  | identifier _ | integer _ | string _ | null => []

/-- **The filter at a place.** A place is the way to it from the root: at each
node, the number of the operand to go on with. -/
def at? : List Nat → Filter → Option Filter
  | [], f => some f
  | i :: place, f => f.children[i]?.bind (at? place)

theorem size_eq (f : Filter) : f.size = (f.children.map size).sum + 1 := by
  cases f <;> simp [children, size]

/-- The filter on top is counted and its operands take its place, the last one on
top. -/
theorem countFrom_cons (count : Nat) (f : Filter) (pending : List Filter) :
    countFrom count (f :: pending) = countFrom (count + 1) (f.children.reverse ++ pending) := by
  cases f <;> rw [countFrom] <;> rfl

end Filter

/-- **A node of a filter**: a place, and the filter that stands there. -/
structure Located where
  /-- The place. -/
  place : List Nat
  /-- The filter. -/
  filter : Filter

namespace Located

/-- The operands of a node, in their places. -/
def children (x : Located) : List Located :=
  x.filter.children.mapIdx fun i f => ⟨x.place ++ [i], f⟩

theorem map_filter_children (x : Located) : x.children.map filter = x.filter.children := by
  rw [children]
  cases x.filter <;> rfl

end Located

namespace Filter

/-- **The walk through a filter** that stands at a place: each node before its
operands, and the right operand before the left one. -/
def walk (place : List Nat) : Filter → List Located
  | binary op l r =>
    ⟨place, binary op l r⟩ :: (r.walk (place ++ [1]) ++ l.walk (place ++ [0]))
  | not f => ⟨place, not f⟩ :: f.walk (place ++ [0])
  | identifier path => [⟨place, identifier path⟩]
  | integer digits => [⟨place, integer digits⟩]
  | string s => [⟨place, string s⟩]
  | null => [⟨place, null⟩]

/-- What is found below a place is the filter there, or is found below the place
of one of its operands. -/
theorem exists_way_iff {place : List Nat} {f : Filter} {x : Located} :
    (∃ way, x.place = place ++ way ∧ f.at? way = some x.filter)
      ↔ x = ⟨place, f⟩ ∨ ∃ y ∈ (Located.mk place f).children,
        ∃ way, x.place = y.place ++ way ∧ y.filter.at? way = some x.filter := by
  constructor
  · rintro ⟨_ | ⟨i, way⟩, hplace, hat⟩
    · refine .inl ?_
      cases x
      simp_all [at?]
    · rw [at?, Option.bind_eq_some_iff] at hat
      obtain ⟨g, hg, hat⟩ := hat
      refine .inr ⟨⟨place ++ [i], g⟩, ?_, way, by simpa using hplace, hat⟩
      exact List.mem_of_getElem? (i := i) (by simp [Located.children, hg])
  · rintro (rfl | ⟨y, hy, way, hplace, hat⟩)
    · exact ⟨[], by simp, rfl⟩
    · obtain ⟨i, hi, rfl⟩ := List.mem_mapIdx.1 hy
      refine ⟨i :: way, by simpa using hplace, ?_⟩
      rw [at?, List.getElem?_eq_getElem hi]
      exact hat

/-- **The walk comes to every node of the filter**, and to nothing else. -/
theorem mem_walk_iff {place : List Nat} {f : Filter} {x : Located} :
    x ∈ f.walk place ↔ ∃ way, x.place = place ++ way ∧ f.at? way = some x.filter := by
  rw [exists_way_iff]
  induction f generalizing place with
  | binary op l r ihl ihr =>
    rw [walk, List.mem_cons, List.mem_append, ihl, ihr, ← exists_way_iff, ← exists_way_iff]
    simp [Located.children, children, or_comm]
  | not f ih =>
    rw [walk, List.mem_cons, ih, ← exists_way_iff]
    simp [Located.children, children]
  | identifier path | integer digits | string s | null =>
    simp [walk, Located.children, children]

/-- The walk stays below the place where it begins. -/
theorem prefix_of_mem_walk {place p : List Nat} {f : Filter}
    (h : p ∈ (f.walk place).map Located.place) : place <+: p := by
  obtain ⟨x, hx, rfl⟩ := List.mem_map.1 h
  obtain ⟨way, hway, -⟩ := mem_walk_iff.1 hx
  exact ⟨way, hway.symm⟩

/-- The places below two operands of a node are different. -/
theorem ne_of_mem_walk {place p q : List Nat} {i j : Nat} {f g : Filter} (hij : i ≠ j)
    (hp : p ∈ (f.walk (place ++ [i])).map Located.place)
    (hq : q ∈ (g.walk (place ++ [j])).map Located.place) : p ≠ q := by
  rintro rfl
  obtain ⟨way, hway⟩ := prefix_of_mem_walk hp
  obtain ⟨way', hway'⟩ := prefix_of_mem_walk hq
  exact hij (by simpa using congrArg (·[place.length]?) (hway.trans hway'.symm))

/-- A node is not found below one of its operands. -/
theorem notMem_walk (place : List Nat) (i : Nat) (f : Filter) :
    place ∉ (f.walk (place ++ [i])).map Located.place := by
  intro h
  have hlength := (prefix_of_mem_walk h).length_le
  simp at hlength

/-- **The walk comes to no place twice.** -/
theorem nodup_walk (place : List Nat) (f : Filter) :
    ((f.walk place).map Located.place).Nodup := by
  induction f generalizing place with
  | binary op l r ihl ihr =>
    rw [walk, List.map_cons, List.map_append, List.nodup_cons, List.mem_append, List.nodup_append]
    refine ⟨?_, ihr _, ihl _, fun p hp q hq => ne_of_mem_walk (by decide) hp hq⟩
    rintro (h | h)
    · exact notMem_walk _ _ _ h
    · exact notMem_walk _ _ _ h
  | not f ih =>
    rw [walk, List.map_cons, List.nodup_cons]
    exact ⟨notMem_walk _ _ _, ih _⟩
  | identifier path | integer digits | string s | null => exact List.nodup_singleton _

end Filter

/-! ## The rounds of the count -/

/-- **The state of the count.** -/
structure Counting where
  /-- How many nodes were counted. -/
  count : Nat
  /-- The nodes that are pending, the one on top first. -/
  pending : List Located

namespace Counting

/-- Nothing is counted yet, and the whole filter is pending. -/
def start (f : Filter) : Counting := ⟨0, [⟨[], f⟩]⟩

/-- The filters that are pending. -/
def filters (s : Counting) : List Filter := s.pending.map Located.filter

theorem filters_round (count : Nat) (x : Located) (pending : List Located) :
    filters ⟨count, x.children.reverse ++ pending⟩
      = x.filter.children.reverse ++ pending.map Located.filter := by
  rw [filters, List.map_append, List.map_reverse, Located.map_filter_children]

/-- **Rounds of the count** from one state to another, with the nodes they visit.
In a round the node on top is counted and its operands take its place, the last
one on top. -/
inductive Rounds : Counting → List Located → Counting → Prop
  | stay (s : Counting) : Rounds s [] s
  | round {count : Nat} {x : Located} {pending visited : List Located} {s : Counting}
      (h : Rounds ⟨count + 1, x.children.reverse ++ pending⟩ visited s) :
      Rounds ⟨count, x :: pending⟩ (x :: visited) s

namespace Rounds

variable {s t : Counting} {visited : List Located}

theorem append {u : Counting} {visited' : List Located} (h : Rounds s visited t)
    (h' : Rounds t visited' u) : Rounds s (visited ++ visited') u := by
  induction h with
  | stay => exact h'
  | round _ ih => exact .round (ih h')

/-- Each round counts one node. -/
theorem count_eq (h : Rounds s visited t) : t.count = s.count + visited.length := by
  induction h with
  | stay => rfl
  | round _ ih => rw [ih, List.length_cons, Nat.add_assoc, Nat.add_comm 1]

/-- **What the rounds keep**: the nodes that were counted and those of all pending
filters. -/
theorem count_add_sum (h : Rounds s visited t) :
    t.count + (t.filters.map Filter.size).sum = s.count + (s.filters.map Filter.size).sum := by
  induction h with
  | stay => rfl
  | @round count x pending _ _ _ ih =>
    rw [ih, filters_round, filters, List.map_cons, List.map_cons, List.sum_cons, x.filter.size_eq,
      List.map_append, List.map_reverse, List.sum_append, List.sum_reverse]
    dsimp only
    omega

/-- Counting goes on to the same result from every state on the way. -/
theorem countFrom_eq (h : Rounds s visited t) :
    Filter.countFrom t.count t.filters = Filter.countFrom s.count s.filters := by
  induction h with
  | stay => rfl
  | @round count x pending _ _ _ ih =>
    rw [ih, filters_round]
    exact (Filter.countFrom_cons count x.filter _).symm

/-- **Rounds that did not come to the end go on to it**: they are the first ones of
those that did. -/
theorem exists_rest {all : List Located} {count : Nat} (h : Rounds s visited t)
    (hall : Rounds s all ⟨count, []⟩) :
    ∃ rest, all = visited ++ rest ∧ Rounds t rest ⟨count, []⟩ := by
  induction h generalizing all with
  | stay => exact ⟨all, rfl, hall⟩
  | round _ ih =>
    -- Something is pending, so the other rounds do not stop here, and the node on top
    -- leaves them no choice.
    cases hall with
    | round hall =>
      obtain ⟨rest, rfl, hrest⟩ := ih hall
      exact ⟨rest, rfl, hrest⟩

end Rounds

/-- **A node on top is worked off** with all that is below it in the filter, and
the other nodes stay as they are. -/
theorem rounds_walk (f : Filter) (place : List Nat) (count : Nat) (pending : List Located) :
    Rounds ⟨count, ⟨place, f⟩ :: pending⟩ (f.walk place) ⟨count + f.size, pending⟩ := by
  induction f generalizing place count pending with
  | binary op l r ihl ihr =>
    -- While the right operand is worked off, the left one is among the other nodes.
    have hr := ihr (place ++ [1]) (count + 1) (⟨place ++ [0], l⟩ :: pending)
    have hl := ihl (place ++ [0]) (count + 1 + r.size) pending
    have hcount : count + (l.size + r.size + 1) = count + 1 + r.size + l.size := by omega
    rw [Filter.size, hcount]
    exact .round (hr.append hl)
  | not f ih =>
    have h := ih (place ++ [0]) (count + 1) pending
    rw [Nat.add_right_comm] at h
    exact .round h
  | identifier path | integer digits | string s | null => exact .round (.stay _)

/-- **The rounds come to an end**, after a walk through the filter. -/
theorem rounds_start (f : Filter) : Rounds (start f) (f.walk []) ⟨f.size, []⟩ := by
  have h := rounds_walk f [] 0 []
  rwa [Nat.zero_add] at h

end Counting

namespace Filter

/-- **The count is the size.** -/
theorem nodeCount_eq_size (f : Filter) : f.nodeCount = f.size := by
  have h := (Counting.rounds_start f).countFrom_eq
  exact h.symm.trans (by rw [Counting.filters, List.map_nil, countFrom])

/-! ## What is reported -/

/-- **Reading reports the size of what was read**, and nothing of a text that is no
filter. -/
theorem events_read (text : String) :
    (read text).events = match parse text with
      | .error _ => []
      | .ok f => [.parsed text (f.elim 0 size)] := by
  unfold read
  cases parse text with
  | error e => rfl
  | ok f =>
    cases f with
    | none => rfl
    | some f => simp [nodeCount_eq_size]

end Filter

/-- Only the event of a text that was read is shown as such. -/
theorem Event.message_eq_iff (ev : Event) :
    ev.message = "Parsed filter" ↔ ∃ text nodes, ev = .parsed text nodes := by
  constructor
  · intro h
    unfold message at h
    cases ev with
    | parsed text nodes => exact ⟨text, nodes, rfl⟩
    | _ =>
      -- The first character tells the other messages apart.
      have hfirst := congrArg (fun s => s.toList.head?) h
      simp at hfirst
  · rintro ⟨text, nodes, rfl⟩
    rfl

namespace Filter

/-- Compilation does not report that a text was read. -/
theorem parsed_notMem_reports (f : Filter) (text : String) (nodes : Nat) :
    .parsed text nodes ∉ f.reports := by
  rw [reports_eq, List.mem_filterMap]
  rintro ⟨g, -, hg⟩
  unfold event? at hg
  split at hg
  case h_2 => split at hg <;> cases hg
  all_goals cases hg

end Filter

theorem Restriction.parsed_notMem_events_ofFilter (f : Option Filter) (text : String)
    (nodes : Nat) : .parsed text nodes ∉ (Restriction.ofFilter f).events := by
  cases f with
  | none => exact List.not_mem_nil
  | some f => simpa [ofFilter, Filter.compile_eq] using f.parsed_notMem_reports text nodes

/-- **A query reports the text that it reads**, once, and nothing else in this
way. -/
theorem Query.filter_events_ofFilter (text : String) (d : Dialect) (table : Option String) :
    (ofFilter text d table).events.filter (fun ev => ev.message = "Parsed filter")
      = (Filter.read text).events := by
  have hread := Filter.events_read text
  unfold ofFilter
  rw [Logged.events_bind, List.filter_append, Filter.value_read]
  cases hparse : Filter.parse text with
  | error e =>
    rw [hparse] at hread
    simp [hread]
  | ok f =>
    rw [hparse] at hread
    have hkept : (Filter.read text).events.filter (fun ev => ev.message = "Parsed filter")
        = (Filter.read text).events := by
      rw [hread]
      exact List.filter_cons_of_pos (decide_eq_true rfl)
    rw [hkept, List.append_right_eq_self, List.filter_eq_nil_iff]
    simp only [decide_eq_true_eq, Event.message_eq_iff]
    rintro ev hev ⟨text', nodes, rfl⟩
    have hrestrict := Restriction.parsed_notMem_events_ofFilter f text' nodes
    cases hempty : (Restriction.ofFilter f).value.isEmpty <;> cases table with
    | none => simp [hempty, hrestrict, ofStatement] at hev
    | some name =>
      cases ht : QualifiedName.ofTable? name <;> simp [hempty, hrestrict, ht, ofStatement] at hev

namespace Filter

open Counting

/-- **Every node is counted once.** Of every filter, however it is shaped, the rounds
of the count come to an end, and the count they end with is the size of the filter.
They visit the nodes of the filter, each of them once. No other rounds are possible:
what was done up to some state is the beginning of this, at that state the count and
the sizes of all pending filters add up to the size of the filter, and counting goes
on from there to the same result.

That size is what is reported of a text that was read as a filter, by itself and for
a query; it is zero if the text is blank, and only then. Of any other text there is
no such report. -/
theorem every_node_counted :
    (∀ f : Filter, f.nodeCount = f.size
        ∧ ∃ visited, Rounds (start f) visited ⟨f.nodeCount, []⟩
          ∧ (visited.map Located.place).Nodup
          ∧ (∀ x : Located, x ∈ visited ↔ f.at? x.place = some x.filter)
          ∧ ∀ before s, Rounds (start f) before s →
            before <+: visited ∧ s.count = before.length
              ∧ s.count + (s.filters.map size).sum = f.size
              ∧ countFrom s.count s.filters = f.nodeCount)
      ∧ ∀ text,
        (∀ f, parse text = .ok f → (read text).events = [.parsed text (f.elim 0 size)]
            ∧ (f.elim 0 size = 0 ↔ BlankText text))
          ∧ (∀ e, parse text = .error e → (read text).events = [])
          ∧ ∀ d table,
            (Query.ofFilter text d table).events.filter (fun ev => ev.message = "Parsed filter")
              = (read text).events := by
  refine ⟨fun f => ⟨f.nodeCount_eq_size, f.walk [], ?_, nodup_walk [] f, ?_, ?_⟩,
    fun text => ⟨?_, ?_, Query.filter_events_ofFilter text⟩⟩
  · rw [nodeCount_eq_size]
    exact rounds_start f
  · intro x
    rw [mem_walk_iff]
    simp
  · intro before s h
    obtain ⟨rest, hrest, -⟩ := h.exists_rest (rounds_start f)
    exact ⟨⟨rest, hrest.symm⟩, by simpa [start] using h.count_eq,
      by simpa [start, filters] using h.count_add_sum, h.countFrom_eq⟩
  · intro f hparse
    rw [events_read, hparse, ← eq_none_iff_blankText hparse]
    refine ⟨rfl, ?_⟩
    cases f with
    | none => simp
    | some f => simpa using f.size_pos.ne'
  · intro e hparse
    rw [events_read, hparse]

/-- The size of a filter to which another one is joined again and again. -/
theorem size_foldl_replicate (op : Operator) (f g : Filter) (n : Nat) :
    ((List.replicate n g).foldl (binary op) f).size = f.size + n * (g.size + 1) := by
  induction n generalizing f with
  | zero => simp
  | succ n ih =>
    rw [List.replicate_succ, List.foldl_cons, ih, size]
    ring

/-- The count of a filter as deep as it is long; and of one in which the same operand
stands in two places, the state with both of them pending and the report. -/
theorem every_node_counted_long_spine :
    ((List.replicate 49999 (binary (.comparison .eq) (identifier "n") (integer "1"))).foldl
        (binary (.logical .and))
        (binary (.comparison .eq) (identifier "n") (integer "1"))).nodeCount = 199999
      ∧ ∃ f, parse "not (a or a)" = .ok (some f)
        ∧ (∃ before, Rounds (start f) before
          ⟨2, [⟨[0, 1], identifier "a"⟩, ⟨[0, 0], identifier "a"⟩]⟩)
        ∧ countFrom 2 [identifier "a", identifier "a"] = f.nodeCount
        ∧ (read "not (a or a)").events = [.parsed "not (a or a)" 4] := by
  let f := not (binary (.logical .or) (identifier "a") (identifier "a"))
  have hparse : parse "not (a or a)" = .ok (some f) := rfl
  have hrounds : Rounds (start f) _ ⟨2, [⟨[0, 1], identifier "a"⟩, ⟨[0, 0], identifier "a"⟩]⟩ :=
    .round (.round (.stay _))
  obtain ⟨-, visited, -, -, -, hstate⟩ := every_node_counted.1 f
  refine ⟨?_, f, hparse, ⟨_, hrounds⟩, (hstate _ _ hrounds).2.2.2,
    ((every_node_counted.2 _).1 _ hparse).1⟩
  exact (every_node_counted.1 _).1.trans (size_foldl_replicate _ _ _ _)

end Filter

end FilterSql
