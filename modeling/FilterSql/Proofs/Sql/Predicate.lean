import FilterSql.Proofs.Sql.Token
import FilterSql.Sql.Reader
import Mathlib

/-!
# The grammar of predicates

How the tokens of a predicate are read as a condition. The grammar has five
levels: `OR` binds loosest, then `AND`, then `NOT`, then a comparison or a test
for `NULL`, which does not associate, and then an operand, which is a dotted
name, a bound value, a numeral, the word `NULL` or a predicate in parentheses.
Operands of `AND` and of `OR` form one flat row, however many they are.

`Reads` is that grammar as a relation, and nothing in it prefers one rule to
another: it relates the tokens at a place, the condition that some of them are
read as, and the tokens that are left. At each level, what is left must not start
with a token that would have gone on (`Stops`), and then a single token ahead
decides which rule applies. So the reader, which looks at that token only, reads
exactly what the grammar says (`predicate?_eq_some_iff`), and the tokens have one
reading at most (`Reads.unique`).
-/

namespace FilterSql.Sql

/-! ## The grammar -/

/-- The parts of a dotted name. -/
inductive Dotted : List Token → List String → List Token → Prop
  | last {s : String} {r : List Token} : Dotted (.name s :: r) [s] r
  | more {s : String} {ts r : List Token} {parts : List String} (h : Dotted ts parts r) :
      Dotted (.name s :: .dot :: ts) (s :: parts) r

mutual

/-- **The grammar of predicates**: the tokens start with some that are read as
the condition at the level, and the last argument is what is left. -/
inductive Reads : Level → List Token → Condition → List Token → Prop
  | name {ts r : List Token} {parts : List String} (h : Dotted ts parts r) :
      Reads .operand ts (.name parts) r
  | param {v : Value} {r : List Token} : Reads .operand (.param v :: r) (.param v) r
  | numeral {n : Nat} {r : List Token} : Reads .operand (.numeral n :: r) (.numeral n) r
  | null {r : List Token} : Reads .operand (.word .null :: r) .null r
  | group {ts r : List Token} {c : Condition} (h : Reads (.chain .or) ts c (.closing :: r)) :
      Reads .operand (.opening :: ts) c r
  | lone {ts r : List Token} {c : Condition} (h : Reads .operand ts c r) :
      Reads .comparison ts c r
  | compare {ts us r : List Token} {a b : Condition} {o : Comparator}
      (ha : Reads .operand ts a (.comparator o :: us)) (hb : Reads .operand us b r) :
      Reads .comparison ts (.compare a o b) r
  | isNull {ts r : List Token} {c : Condition}
      (h : Reads .operand ts c (.word .is :: .word .null :: r)) :
      Reads .comparison ts (.isNull c) r
  | isNotNull {ts r : List Token} {c : Condition}
      (h : Reads .operand ts c (.word .is :: .word .not :: .word .null :: r)) :
      Reads .comparison ts (.isNotNull c) r
  | plain {ts r : List Token} {c : Condition} (h : Reads .comparison ts c r) :
      Reads .negation ts c r
  | not {ts r : List Token} {c : Condition} (h : Reads .negation ts c r) :
      Reads .negation (.word .not :: ts) (.not c) r
  | chain {k : Connective} {ts r : List Token} {cs : List Condition} (h : Chain k ts cs r) :
      Reads (.chain k) ts (joined k cs) r

/-- A row of one or more operands with the word for the connective between
them. -/
inductive Chain : Connective → List Token → List Condition → List Token → Prop
  | one {k : Connective} {ts r : List Token} {c : Condition} (h : Reads (operandLevel k) ts c r) :
      Chain k ts [c] r
  | more {k : Connective} {ts us r : List Token} {c : Condition} {cs : List Condition}
      (h : Reads (operandLevel k) ts c (.word (connectiveWord k) :: us)) (hs : Chain k us cs r) :
      Chain k ts (c :: cs) r

end

/-- **The readings of a statement's text as a predicate**, with its bound values
put in for the placeholders. -/
def ReadsAs (d : Dialect) (st : Statement) (c : Condition) : Prop :=
  ∃ ts, Tokens d st.params 0 st.sql.toList ts ∧ Reads (.chain .or) ts c []

/-! ## Where a reading ends -/

/-- Whether a token ahead goes on with what was read at a level. -/
def Level.continues : Level → Token → Bool
  | _, .dot => true
  | .operand, _ => false
  | _, .comparator _ | _, .word .is => true
  | .chain _, .word .and => true
  | .chain .or, .word .or => true
  | _, _ => false

/-- **What was read at a level ends here.** -/
def Stops (l : Level) (ts : List Token) : Prop :=
  ∀ t ∈ ts.head?, l.continues t = false

@[simp] theorem stops_nil (l : Level) : Stops l [] := by
  simp [Stops]

@[simp] theorem stops_cons (l : Level) (t : Token) (ts : List Token) :
    Stops l (t :: ts) ↔ l.continues t = false := by
  simp [Stops]

/-- What goes on with an operand goes on with a comparison. -/
theorem Stops.operand {ts : List Token} (h : Stops .comparison ts) : Stops .operand ts := by
  cases ts with
  | nil => exact stops_nil _
  | cons t ts =>
    rw [stops_cons] at h ⊢
    cases t <;> first | rfl | exact h

/-- What goes on with a comparison goes on with a negation. -/
theorem Stops.comparison {ts : List Token} (h : Stops .negation ts) : Stops .comparison ts := by
  cases ts with
  | nil => exact stops_nil _
  | cons t ts =>
    rw [stops_cons] at h ⊢
    cases t with
    | word w => cases w <;> first | rfl | exact h
    | _ => exact h

/-- What goes on with an operand of a connective goes on with the row of
operands, and so does the word for the connective. -/
theorem Stops.operandLevel {k : Connective} {ts : List Token} (h : Stops (.chain k) ts) :
    Stops (operandLevel k) ts := by
  cases ts with
  | nil => exact stops_nil _
  | cons t ts =>
    rw [stops_cons] at h ⊢
    cases t with
    | word w => cases k <;> cases w <;> first | rfl | exact h
    | _ => cases k <;> first | rfl | exact h

theorem stops_connectiveWord (k : Connective) (ts : List Token) :
    Stops (operandLevel k) (.word (connectiveWord k) :: ts) := by
  cases k <;> simp [operandLevel, connectiveWord, Level.continues]

theorem not_stops_connectiveWord (k : Connective) (ts : List Token) :
    ¬ Stops (.chain k) (.word (connectiveWord k) :: ts) := by
  cases k <;> simp [connectiveWord, Level.continues]

/-! ## The grammar is what the reader reads -/

theorem Dotted.length_lt {ts r : List Token} {parts : List String} (h : Dotted ts parts r) :
    r.length < ts.length := by
  induction h with
  | last => simp
  | more _ ih =>
    simp only [List.length_cons]
    omega

mutual

/-- What is read has a token at least. -/
theorem Reads.length_lt {l : Level} {ts r : List Token} {c : Condition} :
    Reads l ts c r → r.length < ts.length
  | .name h => h.length_lt
  | .param | .numeral | .null => by simp
  | .group h => by
    have := h.length_lt
    simp only [List.length_cons] at this ⊢
    omega
  | .lone h => h.length_lt
  | .compare ha hb => by
    have := ha.length_lt
    have := hb.length_lt
    simp only [List.length_cons] at *
    omega
  | .isNull h => by
    have := h.length_lt
    simp only [List.length_cons] at this
    omega
  | .isNotNull h => by
    have := h.length_lt
    simp only [List.length_cons] at this
    omega
  | .plain h => h.length_lt
  | .not h => by
    have := h.length_lt
    simp only [List.length_cons]
    omega
  | .chain h => h.length_lt

theorem Chain.length_lt {k : Connective} {ts r : List Token} {cs : List Condition} :
    Chain k ts cs r → r.length < ts.length
  | .one h => h.length_lt
  | .more h hs => by
    have := h.length_lt
    have := hs.length_lt
    simp only [List.length_cons] at *
    omega

end

/-- A dotted name goes on as long as there is a dot. -/
theorem dotted?_of_dotted {ts r : List Token} {parts : List String} (h : Dotted ts parts r)
    (hr : Stops .operand r) : dotted? ts = some (parts, r) := by
  induction h with
  | @last s r =>
    match r, hr with
    | .dot :: r, hr => exact absurd hr (by simp [Level.continues])
    | [], _ => rfl
    | .name _ :: _, _ | .param _ :: _, _ | .numeral _ :: _, _ | .word _ :: _, _
    | .comparator _ :: _, _ | .opening :: _, _ | .closing :: _, _ => rfl
  | more _ ih => rw [dotted?, ih hr, Option.map_some]

theorem dotted_of_dotted? {ts r : List Token} {parts : List String}
    (h : dotted? ts = some (parts, r)) : Dotted ts parts r := by
  fun_induction dotted? ts generalizing parts with
  | case1 s ts ih =>
    obtain ⟨⟨parts', r'⟩, hts, heq⟩ := Option.map_eq_some_iff.1 h
    cases heq
    exact .more (ih hts)
  | case2 s r' hdot =>
    cases h
    exact .last
  | case3 => cases h

section Readers

variable {operand : Reader Condition} {ts us r : List Token} {a b c : Condition}

/-- What no comparator and no test follows is an operand alone. -/
theorem comparison?_of_stops (h : operand ts = some (c, r)) (hr : Stops .comparison r) :
    comparison? operand ts = some (c, r) := by
  unfold comparison?
  split
  · rename_i heq
    cases h.symm.trans heq
    simp [Level.continues] at hr
  · rename_i heq
    cases h.symm.trans heq
    simp [Level.continues] at hr
  · rename_i heq
    cases h.symm.trans heq
    simp [Level.continues] at hr
  · exact h

theorem negation?_of_ne {negation comparison : Reader Condition}
    (hts : ts.head? ≠ some (.word .not)) : negation? negation comparison ts = comparison ts := by
  unfold negation?
  split
  · simp at hts
  · rfl

theorem row?_of_stops {k : Connective} (h : operand ts = some (c, r)) (hr : Stops (.chain k) r)
    (limit : Nat) : row? (connectiveWord k) operand (limit + 1) ts = some ([c], r) := by
  unfold row?
  split
  · rename_i heq
    cases h.symm.trans heq
    rw [if_neg]
    rintro rfl
    exact absurd hr (not_stops_connectiveWord k _)
  · rename_i heq
    cases h.symm.trans heq
    rfl
  · rename_i heq
    cases h.symm.trans heq

theorem row?_of_more {w : Word} {cs : List Condition} {limit : Nat}
    (h : operand ts = some (c, .word w :: us)) (hs : row? w operand limit us = some (cs, r)) :
    row? w operand (limit + 1) ts = some (c :: cs, r) := by
  rw [row?, h]
  simp [hs]

end Readers

/-- How many levels there are below a level, with the level itself. -/
def Level.rank : Level → Nat
  | operand => 1
  | comparison => 2
  | negation => 3
  | chain .and => 4
  | chain .or => 5

theorem Level.exists_eq_succ {l : Level} {m n : Nat} (h : l.rank + m ≤ n) : ∃ n', n = n' + 1 := by
  refine ⟨n - 1, ?_⟩
  have hpos : 1 ≤ l.rank := by
    match l with
    | operand | comparison | negation | chain .and | chain .or => decide
  omega

theorem rank_chain (k : Connective) : (Level.chain k).rank = (operandLevel k).rank + 1 := by
  cases k <;> rfl

/-- A comparison does not start with the word for a negation. -/
theorem Reads.head?_ne_not {ts r : List Token} {c : Condition} (h : Reads .comparison ts c r) :
    ts.head? ≠ some (.word .not) := by
  have hoperand : ∀ {c r}, Reads .operand ts c r → ts.head? ≠ some (.word .not) := by
    intro c r h
    cases h with
    | name h => cases h <;> simp
    | param | numeral | null | group => simp
  cases h with
  | lone h | compare h _ | isNull h | isNotNull h => exact hoperand h

mutual

/-- **The reader finds what the grammar says**, if what is left does not go on with
it and the levels may nest deep enough. -/
theorem Reads.read? {l : Level} {ts r : List Token} {c : Condition} {n : Nat} :
    Reads l ts c r → Stops l r → l.rank + 5 * ts.length ≤ n → Sql.read? n l ts = some (c, r)
  | .name h, hr, hn => by
    obtain ⟨n, rfl⟩ := Level.exists_eq_succ hn
    have hname := dotted?_of_dotted h hr
    cases h <;> simp [Sql.read?, operand?, hname]
  | .param, _, hn | .numeral, _, hn | .null, _, hn => by
    obtain ⟨n, rfl⟩ := Level.exists_eq_succ hn
    rfl
  | .group h, _, hn => by
    obtain ⟨n, rfl⟩ := Level.exists_eq_succ hn
    -- a closing parenthesis ends every level
    have hinner := h.read? (n := n) (by simp [Level.continues])
      (by simp only [Level.rank, List.length_cons] at hn ⊢; omega)
    simp [Sql.read?, operand?, hinner]
  | .lone h, hr, hn => by
    obtain ⟨n, rfl⟩ := Level.exists_eq_succ hn
    exact comparison?_of_stops (h.read? hr.operand (by simp only [Level.rank] at hn ⊢; omega)) hr
  | .compare ha hb, hr, hn => by
    obtain ⟨n, rfl⟩ := Level.exists_eq_succ hn
    have hlength := ha.length_lt
    have hleft := ha.read? (n := n) (by simp [Level.continues])
      (by simp only [Level.rank] at hn ⊢; omega)
    have hright := hb.read? (n := n) hr.operand
      (by simp only [Level.rank, List.length_cons] at hn hlength ⊢; omega)
    simp [Sql.read?, comparison?, hleft, hright]
  | .isNull h, _, hn => by
    obtain ⟨n, rfl⟩ := Level.exists_eq_succ hn
    have hleft := h.read? (n := n) (by simp [Level.continues])
      (by simp only [Level.rank] at hn ⊢; omega)
    simp [Sql.read?, comparison?, hleft]
  | .isNotNull h, _, hn => by
    obtain ⟨n, rfl⟩ := Level.exists_eq_succ hn
    have hleft := h.read? (n := n) (by simp [Level.continues])
      (by simp only [Level.rank] at hn ⊢; omega)
    simp [Sql.read?, comparison?, hleft]
  | .plain h, hr, hn => by
    obtain ⟨n, rfl⟩ := Level.exists_eq_succ hn
    exact (negation?_of_ne h.head?_ne_not).trans
      (h.read? hr.comparison (by simp only [Level.rank] at hn ⊢; omega))
  | .not h, hr, hn => by
    obtain ⟨n, rfl⟩ := Level.exists_eq_succ hn
    have hinner := h.read? (n := n) hr
      (by simp only [Level.rank, List.length_cons] at hn ⊢; omega)
    simp [Sql.read?, negation?, hinner]
  | .chain (k := k) h, hr, hn => by
    obtain ⟨n, rfl⟩ := Level.exists_eq_succ hn
    rw [rank_chain] at hn
    have hrow := h.row? (n := n) hr (by omega) (show ts.length ≤ n by omega)
    simp [Sql.read?, hrow]

theorem Chain.row? {k : Connective} {ts r : List Token} {cs : List Condition} {n limit : Nat} :
    Chain k ts cs r → Stops (.chain k) r → (operandLevel k).rank + 5 * ts.length ≤ n →
      ts.length ≤ limit →
      Sql.row? (connectiveWord k) (Sql.read? n (operandLevel k)) limit ts = some (cs, r)
  | .one h, hr, hn, hlimit => by
    have hlength := h.length_lt
    obtain ⟨limit, rfl⟩ : ∃ m, limit = m + 1 := ⟨limit - 1, by omega⟩
    exact row?_of_stops (h.read? hr.operandLevel hn) hr limit
  | .more h hs, hr, hn, hlimit => by
    have hlength := h.length_lt
    simp only [List.length_cons] at hlength
    obtain ⟨limit, rfl⟩ : ∃ m, limit = m + 1 := ⟨limit - 1, by omega⟩
    exact row?_of_more (h.read? (stops_connectiveWord k _) hn)
      (hs.row? hr (by omega) (by omega))

end

section Soundness

variable {ts r : List Token} {c : Condition} {n : Nat}

theorem reads_of_operand? {group : Reader Condition}
    (hgroup : ∀ {ts c r}, group ts = some (c, r) → Reads (.chain .or) ts c r)
    (h : operand? group ts = some (c, r)) : Reads .operand ts c r := by
  unfold operand? at h
  split at h
  · cases h; exact .param
  · cases h; exact .numeral
  · cases h; exact .null
  · split at h
    · rename_i heq
      cases h
      exact .group (hgroup heq)
    · cases h
  · obtain ⟨⟨parts, r'⟩, hparts, heq⟩ := Option.map_eq_some_iff.1 h
    cases heq
    exact .name (dotted_of_dotted? hparts)

theorem reads_of_comparison? {operand : Reader Condition}
    (hoperand : ∀ {ts c r}, operand ts = some (c, r) → Reads .operand ts c r)
    (h : comparison? operand ts = some (c, r)) : Reads .comparison ts c r := by
  unfold comparison? at h
  split at h
  · rename_i hleft
    obtain ⟨⟨b, r'⟩, hright, heq⟩ := Option.map_eq_some_iff.1 h
    cases heq
    exact .compare (hoperand hleft) (hoperand hright)
  · rename_i hleft
    cases h
    exact .isNull (hoperand hleft)
  · rename_i hleft
    cases h
    exact .isNotNull (hoperand hleft)
  · exact .lone (hoperand h)

theorem reads_of_negation? {negation comparison : Reader Condition}
    (hnegation : ∀ {ts c r}, negation ts = some (c, r) → Reads .negation ts c r)
    (hcomparison : ∀ {ts c r}, comparison ts = some (c, r) → Reads .comparison ts c r)
    (h : negation? negation comparison ts = some (c, r)) : Reads .negation ts c r := by
  unfold negation? at h
  split at h
  · obtain ⟨⟨c', r'⟩, hinner, heq⟩ := Option.map_eq_some_iff.1 h
    cases heq
    exact .not (hnegation hinner)
  · exact .plain (hcomparison h)

theorem chain_of_row? {k : Connective} {operand : Reader Condition} {cs : List Condition}
    {limit : Nat} (hoperand : ∀ {ts c r}, operand ts = some (c, r) → Reads (operandLevel k) ts c r)
    (h : row? (connectiveWord k) operand limit ts = some (cs, r)) : Chain k ts cs r := by
  induction limit generalizing ts cs with
  | zero => cases h
  | succ limit ih =>
    rw [row?] at h
    split at h
    · rename_i hfirst
      split at h
      · rename_i hw
        subst hw
        obtain ⟨⟨cs', r'⟩, hrest, heq⟩ := Option.map_eq_some_iff.1 h
        cases heq
        exact .more (hoperand hfirst) (ih hrest)
      · cases h
        exact .one (hoperand hfirst)
    · rename_i hfirst
      cases h
      exact .one (hoperand hfirst)
    · cases h

/-- **What the reader finds is in the grammar.** -/
theorem reads_of_read? {l : Level} (h : read? n l ts = some (c, r)) : Reads l ts c r := by
  induction n generalizing l ts c r with
  | zero => cases h
  | succ n ih =>
    cases l with
    | operand => exact reads_of_operand? ih h
    | comparison => exact reads_of_comparison? ih h
    | negation => exact reads_of_negation? ih ih h
    | chain k =>
      obtain ⟨⟨cs, r'⟩, hrow, heq⟩ := Option.map_eq_some_iff.1 h
      cases heq
      exact .chain (chain_of_row? ih hrow)

/-- **Reading a predicate is what the grammar says.** -/
theorem predicate?_eq_some_iff (hr : Stops (.chain .or) r) :
    predicate? ts = some (c, r) ↔ Reads (.chain .or) ts c r := by
  refine ⟨reads_of_read?, fun h => h.read? hr ?_⟩
  simp only [Level.rank]
  omega

end Soundness

/-! ## One reading at most -/

/-- **Tokens have one reading at most** at a level, if what is left does not go
on with it. -/
theorem Reads.unique {l : Level} {ts r r' : List Token} {c c' : Condition} (h : Reads l ts c r)
    (h' : Reads l ts c' r') (hr : Stops l r) (hr' : Stops l r') : c = c' ∧ r = r' :=
  Prod.mk.inj (Option.some.inj ((h.read? hr le_rfl).symm.trans (h'.read? hr' le_rfl)))

/-- A row of operands is read in one way at most. -/
theorem Chain.unique {k : Connective} {ts r r' : List Token} {cs cs' : List Condition}
    (h : Chain k ts cs r) (h' : Chain k ts cs' r') (hr : Stops (.chain k) r)
    (hr' : Stops (.chain k) r') : cs = cs' ∧ r = r' :=
  Prod.mk.inj
    (Option.some.inj ((h.row? hr le_rfl le_rfl).symm.trans (h'.row? hr' le_rfl le_rfl)))

/-- **A text has one reading at most.** -/
theorem ReadsAs.unique {d : Dialect} {st : Statement} {c c' : Condition} (h : ReadsAs d st c)
    (h' : ReadsAs d st c') : c = c' := by
  obtain ⟨ts, hts, hread⟩ := h
  obtain ⟨ts', hts', hread'⟩ := h'
  obtain rfl := hts.unique hts'
  exact (hread.unique hread' (stops_nil _) (stops_nil _)).1

end FilterSql.Sql
