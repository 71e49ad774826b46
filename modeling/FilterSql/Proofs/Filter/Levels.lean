import FilterSql.Filter.Parse
import FilterSql.Proofs.Filter.Scan
import Mathlib

/-!
# The levels of the grammar, and chains

The grammar that texts are matched against is read from left to right, takes
the first alternative that matches and takes nothing back. That it loses no
derivation by this rests on two facts. What may follow a derivation of a level
never goes on with it (`Level.stops`), so a repetition that goes on as long as
it can ends where the derivation ends; and the first token decides between
alternatives.

`Sound` says of a number of nested rules that what is matched through so many of
them has a derivation of the filter that is built from the nodes; `Complete`
says that a derivation is matched. The number that a text needs is linear in its
length (`Level.depth`). This module takes the chains of `and` and `or` from their
operands to themselves.
-/

namespace FilterSql

namespace Rule

/-- A rule with blanks between its parts is one node with theirs inside. -/
theorem matched?_spaced {r : Rule} (hr : r.kind = .spaced) (depth : Nat) (c : Cursor) :
    r.matched? (depth + 1) .initial c
      = (r.body.matched? (matched? depth) .initial c).map fun x =>
          (x.1, [.branch r c.pos x.1.pos x.2]) := by
  rw [matched?]
  simp [hr, Mode.enter, node, Mode.initial]

end Rule

/-- A part and then another, with blanks between them. -/
theorem Pattern.matched?_seq_eq_some_iff {call : Rule → Mode → Cursor → Matched} {p q : Pattern}
    {c c' : Cursor} {ns : List Node} :
    (Pattern.seq p q).matched? call .initial c = some (c', ns)
      ↔ ∃ c₁ front back, p.matched? call .initial c = some (c₁, front)
          ∧ q.matched? call .initial c₁.skipBlanks = some (c', back) ∧ ns = front ++ back := by
  have hskip : Mode.initial.skip = Cursor.skipBlanks := rfl
  rw [matched?, hskip]
  constructor
  · intro h
    obtain ⟨⟨c₁, front⟩, hp, h⟩ := Option.bind_eq_some_iff.1 h
    obtain ⟨⟨c₂, back⟩, hq, h⟩ := Option.map_eq_some_iff.1 h
    obtain ⟨rfl, rfl⟩ := Prod.mk.inj h
    exact ⟨c₁, front, back, hp, hq, rfl⟩
  · rintro ⟨c₁, front, back, hp, hq, rfl⟩
    rw [hp, Option.bind_some, hq]
    rfl

/-- The steps of a repetition whose parts may have blanks between them. -/
def Pattern.spacedStep (call : Rule → Mode → Cursor → Matched) (p : Pattern) (c : Cursor) :
    Matched :=
  p.matched? call .initial c.skipBlanks

/-- A repetition after blanks is a run of its steps, except that the blanks are
taken even if there is no step. -/
theorem Pattern.matched?_many_skipBlanks (call : Rule → Mode → Cursor → Matched) (p : Pattern)
    (c : Cursor) :
    (Pattern.many p).matched? call .initial c.skipBlanks
      = match p.spacedStep call c with
        | none => some (c.skipBlanks, [])
        | some x => some (Matcher.iterated (p.spacedStep call) (x.1.rest.length + 2) c) := by
  rw [matched?]
  cases hstep : p.spacedStep call c with
  | none =>
    unfold spacedStep at hstep
    rw [hstep]
  | some x =>
    show _ = some (Matcher.iterated (p.spacedStep call) (x.1.rest.length + 1 + 1) c)
    rw [Matcher.iterated_of_some hstep]
    unfold spacedStep at hstep
    rw [hstep]
    rfl

namespace Filter

/-! ## Levels and their rules -/

namespace Level

/-- The rule of a level. -/
def rule : Level → Rule
  | chain .or => .orExpr
  | chain .and => .andExpr
  | negation => .notExpr
  | comparison => .comparison
  | operand => .operand
  | group => .group

/-- How many rules of levels there are between a level and a group. -/
def rank : Level → Nat
  | group => 0
  | operand => 1
  | comparison => 2
  | negation => 3
  | chain .and => 4
  | chain .or => 5

/-- A number of nested rules that is enough for a level on a text. -/
def depth (ℓ : Level) (s : List Char) : Nat :=
  8 * s.length + ℓ.rank + 3

/-- **Which tokens may follow a derivation** of a level. None of them goes on
with it. -/
def stops (ℓ : Level) : Token → Bool
  | .closing => true
  | .keyword (.connective k) => ℓ.rank < (chain k).rank
  | .keyword (.comparator _) => ℓ.rank < comparison.rank
  | _ => false

/-- What may follow a level may follow every tighter one. -/
theorem stops_mono {ℓ ℓ' : Level} (hrank : ℓ'.rank ≤ ℓ.rank) {tok : Token}
    (h : ℓ.stops tok = true) : ℓ'.stops tok = true := by
  unfold stops at h ⊢
  split at h
  · rfl
  · exact decide_eq_true (lt_of_le_of_lt hrank (of_decide_eq_true h))
  · exact decide_eq_true (lt_of_le_of_lt hrank (of_decide_eq_true h))
  · cases h

theorem depth_mono (ℓ : Level) {s s' : List Char} (h : s'.length ≤ s.length) :
    ℓ.depth s' ≤ ℓ.depth s := by
  unfold depth
  omega

end Level

/-- **A node builds a filter**, in every text. The node of a level is one of its
rule, except that an operand leaves no node of its own. -/
structure Builds (ℓ : Level) (n : Node) (f : Filter) : Prop where
  ofNode (input : List Char) : ofNode input n = .ok f
  rule : ℓ ≠ .operand → n.rule = ℓ.rule

/-- **What is matched has a derivation**, through so many nested rules. -/
def Sound (depth : Nat) : Prop :=
  ∀ ℓ c c' ns, Level.depth ℓ c.rest ≤ depth →
    ℓ.rule.matched? depth .initial c = some (c', ns) →
    ∃ n ts f, ns = [n] ∧ Builds ℓ n f ∧ Derives ℓ ts f ∧ Reads c.rest ts c'.rest

/-- **What has a derivation is matched**, through so many nested rules. -/
def Complete (depth : Nat) : Prop :=
  ∀ ℓ c ts us f, Level.depth ℓ c.rest ≤ depth → Derives ℓ ts f →
    Text.NoneAhead Cursor.isBlank c.rest → Reads c.rest (ts ++ us) [] →
    (∀ tok ∈ us.head?, ℓ.stops tok = true) →
    ∃ c' n, ℓ.rule.matched? depth .initial c = some (c', [n]) ∧ Builds ℓ n f ∧ Reads c'.rest us []

theorem Sound.length_le {depth : Nat} (hs : Sound depth) {ℓ : Level} {c c' : Cursor}
    {ns : List Node} (hdepth : ℓ.depth c.rest ≤ depth)
    (h : ℓ.rule.matched? depth .initial c = some (c', ns)) : c'.rest.length ≤ c.rest.length := by
  obtain ⟨_, _, _, _, _, _, htaken⟩ := hs _ _ _ _ hdepth h
  have := htaken.length_add_length_le
  omega

/-! ## Chains -/

section Chains

variable {k : Connective} {depth : Nat} {c c' : Cursor} {ns : List Node}

/-- A connective and one more operand. -/
def joinStep (k : Connective) : Pattern :=
  .seq (.rule (Keyword.connective k).rule) (.rule (operandLevel k).rule)

theorem body_chain (k : Connective) :
    (Level.chain k).rule.body = .seq (.rule (operandLevel k).rule) (.many (joinStep k)) := by
  cases k <;> rfl

theorem kind_chain (k : Connective) : (Level.chain k).rule.kind = .spaced := by
  cases k <;> rfl

theorem depth_operandLevel (k : Connective) (s : List Char) :
    (operandLevel k).depth s + 1 = (Level.chain k).depth s := by
  cases k <;> rfl

/-- The operands among the nodes of a chain. -/
theorem ofOperands_cons {n : Node} {f : Filter} (hn : Builds (operandLevel k) n f)
    (input : List Char) (ns : List Node) :
    ofOperands input (n :: ns) = (ofOperands input ns).map (f :: ·) := by
  have hrule : n.rule ≠ .kwAnd ∧ n.rule ≠ .kwOr := by
    rw [hn.rule (by cases k <;> simp [operandLevel])]
    cases k <;> simp [operandLevel, Level.rule]
  rw [ofOperands, if_neg (by tauto), hn.ofNode]
  cases ofOperands input ns <;> rfl

theorem ofOperands_connective (k : Connective) (input : List Char) (pos : Nat) (w : List Char)
    (ns : List Node) :
    ofOperands input (.token (Keyword.connective k).rule pos w :: ns) = ofOperands input ns := by
  rw [ofOperands, if_pos (by cases k <;> simp [Node.rule, Keyword.rule])]

theorem ofNode_chain (k : Connective) (input : List Char) (start stop : Nat) (ns : List Node) :
    ofNode input (.branch (Level.chain k).rule start stop ns)
      = ofOperands input ns >>= chain k := by
  cases k <;> rfl

theorem Sound.joinStep (hd : Sound depth) (hdepth : (operandLevel k).depth c.rest ≤ depth)
    (h : (joinStep k).spacedStep (Rule.matched? depth) c = some (c', ns)) :
    ∃ pos w n ts f, ns = [.token (Keyword.connective k).rule pos w, n]
      ∧ Builds (operandLevel k) n f ∧ Derives (operandLevel k) ts f
      ∧ Reads c.rest (.keyword (.connective k) :: ts) c'.rest := by
  obtain ⟨depth, rfl⟩ : ∃ d, depth = d + 2 :=
    ⟨depth - 2, by unfold Level.depth at hdepth; omega⟩
  obtain ⟨c₁, front, back, hkeyword, hoperand, rfl⟩ := Pattern.matched?_seq_eq_some_iff.1 h
  obtain ⟨hread, w, rfl⟩ := reads_of_matched?_keyword hkeyword
  have hread : Reads c.rest [.keyword (.connective k)] c₁.skipBlanks.rest :=
    ((reads_skipBlanks c).append hread).append (reads_skipBlanks c₁)
  have hlength := hread.length_add_length_le
  have hdepth' : (operandLevel k).depth c₁.skipBlanks.rest ≤ depth + 2 :=
    le_trans ((operandLevel k).depth_mono (by omega)) hdepth
  obtain ⟨n, ts, f, rfl, hbuilds, hderives, hread'⟩ := hd _ _ _ _ hdepth' hoperand
  exact ⟨_, w, n, ts, f, rfl, hbuilds, hderives, hread.append hread'⟩

/-- A run of steps goes on with a chain. -/
theorem Sound.iterated_joinStep (hd : Sound depth)
    (hdepth : (operandLevel k).depth c.rest ≤ depth) {limit : Nat}
    (h : Matcher.iterated ((Filter.joinStep k).spacedStep (Rule.matched? depth)) limit c
      = (c', ns)) :
    ∃ us gs, (∀ input, ofOperands input ns = .ok gs) ∧ Reads c.rest us c'.rest
      ∧ ∀ ts f, Derives (.chain k) ts f →
          Derives (.chain k) (ts ++ us) (gs.foldl (.binary (.logical k)) f) := by
  induction limit generalizing c ns with
  | zero =>
    obtain ⟨rfl, rfl⟩ := Prod.mk.inj h
    refine ⟨[], [], fun _ => rfl, .done _, fun ts f hf => ?_⟩
    simpa using hf
  | succ limit ih =>
    cases hstep : (Filter.joinStep k).spacedStep (Rule.matched? depth) c with
    | none =>
      rw [Matcher.iterated_of_none hstep] at h
      obtain ⟨rfl, rfl⟩ := Prod.mk.inj h
      refine ⟨[], [], fun _ => rfl, .done _, fun ts f hf => ?_⟩
      simpa using hf
    | some x =>
      obtain ⟨c₁, first⟩ := x
      rw [Matcher.iterated_of_some hstep] at h
      obtain ⟨hc, rfl⟩ := Prod.mk.inj h
      obtain ⟨pos, w, n, ts, g, rfl, hbuilds, hderives, hread⟩ := hd.joinStep hdepth hstep
      have hlength := hread.length_add_length_le
      have hdepth' : (operandLevel k).depth c₁.rest ≤ depth :=
        le_trans ((operandLevel k).depth_mono (by omega)) hdepth
      obtain ⟨us, gs, hgs, hread', hchain⟩ := ih hdepth' (Prod.ext hc rfl)
      refine ⟨.keyword (.connective k) :: ts ++ us, g :: gs, fun input => ?_,
        hread.append hread', fun ts' f hf => ?_⟩
      · rw [List.cons_append, ofOperands_connective, List.cons_append, List.nil_append,
          ofOperands_cons hbuilds, hgs]
        rfl
      · have := hchain _ _ (hf.join hderives)
        simpa using this

theorem Sound.chain (hd : Sound depth) (k : Connective)
    (hdepth : (Level.chain k).depth c.rest ≤ depth + 1)
    (h : (Level.chain k).rule.matched? (depth + 1) .initial c = some (c', ns)) :
    ∃ n ts f, ns = [n] ∧ Builds (.chain k) n f ∧ Derives (.chain k) ts f
      ∧ Reads c.rest ts c'.rest := by
  rw [Rule.matched?_spaced (kind_chain k), body_chain] at h
  obtain ⟨⟨c₂, inside⟩, hbody, heq⟩ := Option.map_eq_some_iff.1 h
  obtain ⟨rfl, rfl⟩ := Prod.mk.inj heq
  obtain ⟨c₁, front, back, hfirst, hmany, rfl⟩ := Pattern.matched?_seq_eq_some_iff.1 hbody
  have hdepth' : (operandLevel k).depth c.rest ≤ depth := by
    rw [← depth_operandLevel] at hdepth
    omega
  obtain ⟨n, ts, f, rfl, hbuilds, hderives, hread⟩ := hd _ _ _ _ hdepth' hfirst
  have hlength := hread.length_add_length_le
  -- what follows the first operand is a run of steps, or blanks only
  obtain ⟨us, gs, hgs, hread', hchain⟩ : ∃ us gs,
      (∀ input, ofOperands input back = .ok gs) ∧ Reads c₁.rest us c₂.rest
      ∧ ∀ ts f, Derives (.chain k) ts f →
          Derives (.chain k) (ts ++ us) (gs.foldl (.binary (.logical k)) f) := by
    rw [Pattern.matched?_many_skipBlanks] at hmany
    split at hmany
    · obtain ⟨rfl, rfl⟩ := Prod.mk.inj (Option.some.inj hmany)
      exact ⟨[], [], fun _ => rfl, reads_skipBlanks c₁, fun ts f hf => by simpa using hf⟩
    · refine hd.iterated_joinStep ?_ (Option.some.inj hmany)
      exact le_trans ((operandLevel k).depth_mono (by omega)) hdepth'
  refine ⟨_, ts ++ us, gs.foldl (.binary (.logical k)) f, rfl, ⟨fun input => ?_, fun _ => rfl⟩,
    hchain ts f (.one hderives), hread.append hread'⟩
  rw [ofNode_chain, List.cons_append, List.nil_append, ofOperands_cons hbuilds, hgs]
  rfl

/-- **A chain is laid out as the list of its operands.** -/
theorem Derives.exists_operands {ts : List Token} {f : Filter} (h : Derives (.chain k) ts f) :
    ∃ ts₀ f₀, ∃ more : List (List Token × Filter), Derives (operandLevel k) ts₀ f₀
      ∧ (∀ p ∈ more, Derives (operandLevel k) p.1 p.2)
      ∧ ts = ts₀ ++ more.flatMap (fun p => .keyword (.connective k) :: p.1)
      ∧ f = (more.map Prod.snd).foldl (.binary (.logical k)) f₀ := by
  generalize hℓ : Level.chain k = ℓ at h
  induction h with
  | @one k' ts f h =>
    cases hℓ
    exact ⟨ts, f, [], h, by simp, by simp, rfl⟩
  | @join k' ts us l r hl hr ihl ihr =>
    cases hℓ
    obtain ⟨ts₀, f₀, more, h₀, hmore, rfl, rfl⟩ := ihl rfl
    refine ⟨ts₀, f₀, more ++ [(us, r)], h₀, ?_, ?_, ?_⟩
    · intro p hp
      rcases List.mem_append.1 hp with hp | hp
      · exact hmore p hp
      · rw [List.mem_singleton.1 hp]
        exact hr
    · simp
    · simp
  | _ => cases hℓ

theorem rank_operandLevel_lt (k : Connective) : (operandLevel k).rank < (Level.chain k).rank := by
  cases k <;> decide

theorem stops_operandLevel_connective (k : Connective) :
    (operandLevel k).stops (.keyword (.connective k)) = true :=
  decide_eq_true (rank_operandLevel_lt k)

theorem not_stops_connective (k : Connective) :
    (Level.chain k).stops (.keyword (.connective k)) = false :=
  decide_eq_false (lt_irrefl _)

variable {us : List Token}

theorem Complete.joinStep (hd : Complete depth) {ts : List Token} {f : Filter}
    (hdepth : (operandLevel k).depth c.rest ≤ depth) (hderives : Derives (operandLevel k) ts f)
    (hread : Reads c.rest (.keyword (.connective k) :: (ts ++ us)) [])
    (hstops : ∀ tok ∈ us.head?, (operandLevel k).stops tok = true) :
    ∃ c' pos w n, (joinStep k).spacedStep (Rule.matched? depth) c
        = some (c', [.token (Keyword.connective k).rule pos w, n])
      ∧ Builds (operandLevel k) n f ∧ Reads c'.rest us [] := by
  obtain ⟨depth, rfl⟩ : ∃ d, depth = d + 2 :=
    ⟨depth - 2, by unfold Level.depth at hdepth; omega⟩
  obtain ⟨c₁, w, hkeyword, hread₁⟩ :=
    exists_matched?_keyword (Cursor.noneAhead_skipBlanks c) hread.skipBlanks depth
  have hlength : c₁.skipBlanks.rest.length ≤ c.rest.length := by
    have htaken := (reads_of_matched?_keyword hkeyword).1.append (reads_skipBlanks c₁)
    have := ((reads_skipBlanks c).append htaken).length_add_length_le
    omega
  obtain ⟨c', n, hoperand, hbuilds, hread'⟩ := hd _ _ _ _ _
    (le_trans ((operandLevel k).depth_mono hlength) hdepth) hderives
    (Cursor.noneAhead_skipBlanks c₁) hread₁.skipBlanks hstops
  refine ⟨c', c.skipBlanks.pos, w, n, ?_, hbuilds, hread'⟩
  exact Pattern.matched?_seq_eq_some_iff.2 ⟨c₁, _, _, hkeyword, hoperand, rfl⟩

/-- A step is not taken where the chain ends. -/
theorem spacedStep_joinStep_eq_none (hdepth : 2 ≤ depth) (hread : Reads c.rest us [])
    (hstops : ∀ tok ∈ us.head?, (Level.chain k).stops tok = true) :
    (joinStep k).spacedStep (Rule.matched? depth) c = none := by
  obtain ⟨depth, rfl⟩ : ∃ d, depth = d + 2 := ⟨depth - 2, by omega⟩
  have hhead : us.head? ≠ some (.keyword (.connective k)) := by
    intro hhead
    have := hstops _ hhead
    rw [not_stops_connective] at this
    cases this
  have hkeyword := matched?_keyword_eq_none (Cursor.noneAhead_skipBlanks c) hread.skipBlanks hhead
    depth .initial
  unfold Pattern.spacedStep Filter.joinStep
  rw [Pattern.matched?, Pattern.matched?, hkeyword]
  rfl

/-- What may follow an operand of a chain: one more step, or the end of the
chain. -/
theorem stops_flatMap {more : List (List Token × Filter)}
    (hstops : ∀ tok ∈ us.head?, (Level.chain k).stops tok = true) :
    ∀ tok ∈ (more.flatMap (fun p => Token.keyword (.connective k) :: p.1) ++ us).head?,
      (operandLevel k).stops tok = true := by
  intro tok htok
  cases more with
  | nil => exact Level.stops_mono (rank_operandLevel_lt k).le (hstops tok htok)
  | cons p more =>
    obtain rfl : Token.keyword (.connective k) = tok := by simpa using htok
    exact stops_operandLevel_connective k

theorem length_le_length_flatMap (k : Connective) (more : List (List Token × Filter)) :
    more.length ≤ (more.flatMap fun p => Token.keyword (.connective k) :: p.1).length := by
  induction more with
  | nil => simp
  | cons p more ih =>
    rw [List.flatMap_cons, List.length_append, List.length_cons, List.length_cons]
    omega

theorem Complete.iterated_joinStep (hd : Complete depth) (hs : Sound depth)
    {more : List (List Token × Filter)} (hdepth : (operandLevel k).depth c.rest ≤ depth)
    (hmore : ∀ p ∈ more, Derives (operandLevel k) p.1 p.2)
    (hread : Reads c.rest (more.flatMap (fun p => .keyword (.connective k) :: p.1) ++ us) [])
    (hstops : ∀ tok ∈ us.head?, (Level.chain k).stops tok = true) {limit : Nat}
    (hlimit : more.length ≤ limit) :
    ∃ c' ns, Matcher.iterated ((Filter.joinStep k).spacedStep (Rule.matched? depth)) limit c
        = (c', ns)
      ∧ (∀ input, ofOperands input ns = .ok (more.map Prod.snd)) ∧ Reads c'.rest us [] := by
  induction more generalizing c limit with
  | nil =>
    have hdepth' : 2 ≤ depth := by
      unfold Level.depth at hdepth
      omega
    have hnone := spacedStep_joinStep_eq_none (k := k) hdepth' hread hstops
    exact ⟨c, [], Matcher.iterated_of_none hnone limit, fun _ => rfl, hread⟩
  | cons p more ih =>
    obtain ⟨ts, g⟩ := p
    obtain ⟨limit, rfl⟩ : ∃ l, limit = l + 1 := ⟨limit - 1, by simp at hlimit; omega⟩
    rw [List.flatMap_cons, List.cons_append, List.cons_append, List.append_assoc] at hread
    obtain ⟨c₁, pos, w, n, hstep, hbuilds, hread₁⟩ :=
      hd.joinStep hdepth (hmore (ts, g) List.mem_cons_self) hread (stops_flatMap hstops)
    obtain ⟨_, _, _, _, _, _, _, _, htaken⟩ := hs.joinStep hdepth hstep
    have hlength := htaken.length_add_length_le
    obtain ⟨c', ns, hiterated, hns, hread'⟩ := ih
      (le_trans ((operandLevel k).depth_mono (by omega)) hdepth)
      (fun p hp => hmore p (List.mem_cons_of_mem _ hp)) hread₁
      (by simpa using hlimit : more.length ≤ limit)
    refine ⟨c', [.token (Keyword.connective k).rule pos w, n] ++ ns, ?_, fun input => ?_, hread'⟩
    · rw [Matcher.iterated_of_some hstep, hiterated]
    · rw [List.cons_append, ofOperands_connective, List.cons_append, List.nil_append,
        ofOperands_cons hbuilds, hns]
      rfl

theorem Complete.chain (hd : Complete depth) (hs : Sound depth) (k : Connective)
    {ts : List Token} {f : Filter} (hdepth : (Level.chain k).depth c.rest ≤ depth + 1)
    (hderives : Derives (.chain k) ts f) (hc : Text.NoneAhead Cursor.isBlank c.rest)
    (hread : Reads c.rest (ts ++ us) [])
    (hstops : ∀ tok ∈ us.head?, (Level.chain k).stops tok = true) :
    ∃ c' n, (Level.chain k).rule.matched? (depth + 1) .initial c = some (c', [n])
      ∧ Builds (.chain k) n f ∧ Reads c'.rest us [] := by
  obtain ⟨ts₀, f₀, more, hfirst, hmore, rfl, rfl⟩ := hderives.exists_operands
  have hdepth' : (operandLevel k).depth c.rest ≤ depth := by
    rw [← depth_operandLevel] at hdepth
    omega
  rw [List.append_assoc] at hread
  obtain ⟨c₁, n, hmatch, hbuilds, hread₁⟩ :=
    hd _ _ _ _ _ hdepth' hfirst hc hread (stops_flatMap hstops)
  have hlength := hs.length_le hdepth' hmatch
  have hdepth₁ : (operandLevel k).depth c₁.rest ≤ depth :=
    le_trans ((operandLevel k).depth_mono hlength) hdepth'
  -- the repetition takes all further operands, and blanks only if there are none
  obtain ⟨c', back, hmany, hback, hread'⟩ : ∃ c' back,
      (Pattern.many (Filter.joinStep k)).matched? (Rule.matched? depth) .initial c₁.skipBlanks
          = some (c', back)
      ∧ (∀ input, ofOperands input back = .ok (more.map Prod.snd)) ∧ Reads c'.rest us [] := by
    rw [Pattern.matched?_many_skipBlanks]
    cases more with
    | nil =>
      have hdepth₂ : 2 ≤ depth := by
        unfold Level.depth at hdepth₁
        omega
      refine ⟨c₁.skipBlanks, [], ?_, fun _ => rfl, hread₁.skipBlanks⟩
      rw [spacedStep_joinStep_eq_none hdepth₂ hread₁ hstops]
    | cons p more =>
      have hread₂ := hread₁
      rw [List.flatMap_cons, List.cons_append, List.cons_append, List.append_assoc] at hread₂
      obtain ⟨c₂, pos, w, m, hstep, -, hread₃⟩ :=
        hd.joinStep hdepth₁ (hmore p List.mem_cons_self) hread₂ (stops_flatMap hstops)
      have hlimit : (p :: more).length ≤ c₂.rest.length + 2 := by
        have hread₃ := hread₃.length_add_length_le
        have hmore := length_le_length_flatMap k more
        rw [List.length_append] at hread₃
        rw [List.length_cons]
        omega
      obtain ⟨c', back, hiterated, hback, hread'⟩ :=
        hd.iterated_joinStep hs hdepth₁ hmore hread₁ hstops hlimit
      refine ⟨c', back, ?_, hback, hread'⟩
      rw [hstep]
      exact congrArg some hiterated
  have hbody : (Level.chain k).rule.body.matched? (Rule.matched? depth) .initial c
      = some (c', [n] ++ back) := by
    rw [body_chain]
    exact Pattern.matched?_seq_eq_some_iff.2 ⟨c₁, _, _, hmatch, hmany, rfl⟩
  refine ⟨c', .branch (Level.chain k).rule c.pos c'.pos ([n] ++ back), ?_,
    ⟨fun input => ?_, fun _ => rfl⟩, hread'⟩
  · rw [Rule.matched?_spaced (kind_chain k), hbody]
    rfl
  · rw [ofNode_chain, List.cons_append, List.nil_append, ofOperands_cons hbuilds, hback]
    rfl

end Chains

end Filter

end FilterSql
