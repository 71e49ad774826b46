import FilterSql.Proofs.Filter.Levels
import Mathlib

/-!
# The parser accepts exactly the language

Both directions go along the nesting of rules, one level at a time: what is
matched has a derivation (`sound`), and what has a derivation is matched
(`complete`).

The main statement is `parse_spec`: a text is read as a filter if and only if
the filter has a derivation from the text, which then has no other; it is read
as nothing if and only if it is blank; and any other text is an error.
-/

namespace FilterSql.Filter

open Text

variable {depth : Nat} {c c' : Cursor} {ns : List Node} {ts us : List Token} {f : Filter}

/-! ## The first token of an operand -/

/-- Whether an operand may start with the token. -/
def Token.startsOperand : Token → Bool
  | .keyword .null | .identifier _ | .integer _ | .string _ | .opening => true
  | .keyword _ | .closing => false

/-- The levels from comparisons on start with an operand. -/
theorem Derives.exists_head {ℓ : Level} (h : Derives ℓ ts f)
    (hℓ : ℓ = .comparison ∨ ℓ = .operand ∨ ℓ = .group) :
    ∃ tok ts', ts = tok :: ts' ∧ tok.startsOperand = true := by
  induction h with
  | one _ _ | join _ _ _ _ | not _ _ | positive _ _ => simp at hℓ
  | compare _ _ ihl _ =>
    obtain ⟨tok, ts', rfl, htok⟩ := ihl (by simp)
    exact ⟨tok, _, rfl, htok⟩
  | alone _ ih => exact ih (by simp)
  | null | identifier _ | integer _ | string _ => exact ⟨_, _, rfl, rfl⟩
  | grouped _ ih => exact ih (by simp)
  | parens _ _ => exact ⟨_, _, rfl, rfl⟩

/-! ## What nodes build -/

section Builds

variable {n l r : Node} {g : Filter} (start stop : Nat)

theorem Builds.not (h : Builds .negation n f) (pos : Nat) (w : List Char) :
    Builds .negation (.branch .notExpr start stop [.token .kwNot pos w, n]) (.not f) where
  ofNode input := by
    show (do return Filter.not (← Filter.ofNode input n)) = _
    rw [h.ofNode]
    rfl
  rule _ := rfl

theorem Builds.positive (h : Builds .comparison n f) :
    Builds .negation (.branch .notExpr start stop [n]) f where
  ofNode input := by
    have hrule : n.rule ≠ .kwNot := by
      rw [h.rule (by simp)]
      simp [Level.rule]
    show (if n.rule = .kwNot then _ else Filter.ofNode input n) = _
    rw [if_neg hrule, h.ofNode]
  rule _ := rfl

theorem comparatorOf_rule (input : List Char) (o : Comparator) (pos : Nat) (w : List Char) :
    comparatorOf input (.token (Keyword.comparator o).rule pos w) = .ok o := by
  cases o <;> rfl

theorem Builds.compare (hl : Builds .operand l f) (o : Comparator) (pos : Nat) (w : List Char)
    (hr : Builds .operand r g) :
    Builds .comparison
      (.branch .comparison start stop [l, .token (Keyword.comparator o).rule pos w, r])
      (.binary (.comparison o) f g) where
  ofNode input := by
    show (do
      let f ← Filter.ofNode input l
      let c ← comparatorOf input (.token (Keyword.comparator o).rule pos w)
      let g ← Filter.ofNode input r
      return Filter.binary (.comparison c) f g) = _
    rw [hl.ofNode, hr.ofNode, comparatorOf_rule]
    rfl
  rule _ := rfl

theorem Builds.alone (h : Builds .operand n f) :
    Builds .comparison (.branch .comparison start stop [n]) f where
  ofNode := h.ofNode
  rule _ := rfl

theorem Builds.parens (h : Builds (.chain .or) n f) :
    Builds .group (.branch .group start stop [n]) f where
  ofNode := h.ofNode
  rule _ := rfl

theorem Builds.grouped (h : Builds .group n f) : Builds .operand n f :=
  ⟨h.ofNode, fun hne => absurd rfl hne⟩

theorem builds_null (w : List Char) :
    Builds .operand (.token (Keyword.null).rule start w) .null where
  ofNode _ := rfl
  rule hne := absurd rfl hne

theorem builds_identifier (path : String) :
    Builds .operand (.token .identifier start path.toList) (.identifier path) where
  ofNode input := by
    show Except.ok (Filter.identifier (String.ofList path.toList)) = _
    rw [String.ofList_toList]
  rule hne := absurd rfl hne

theorem builds_integer (digits : String) :
    Builds .operand (.token .integer start digits.toList) (.integer digits) where
  ofNode input := by
    show Except.ok (Filter.integer (String.ofList digits.toList)) = _
    rw [String.ofList_toList]
  rule hne := absurd rfl hne

/-- The doubled quotes of a string are halved. -/
theorem builds_string (s : String) (pos : Nat) :
    Builds .operand
      (.branch .string start stop [.token .stringInner pos (doubled '\'' s.toList)]) (.string s) where
  ofNode input := by
    show Except.ok (Filter.string (String.ofList (halved '\'' (doubled '\'' s.toList)))) = _
    rw [halved_doubled, String.ofList_toList]
  rule hne := absurd rfl hne

end Builds

/-! ## Negations -/

theorem Sound.negation (hd : Sound depth) (hdepth : Level.negation.depth c.rest ≤ depth + 1)
    (h : Level.negation.rule.matched? (depth + 1) .initial c = some (c', ns)) :
    ∃ n ts f, ns = [n] ∧ Builds .negation n f ∧ Derives .negation ts f
      ∧ Reads c.rest ts c'.rest := by
  obtain ⟨depth, rfl⟩ : ∃ d, depth = d + 2 :=
    ⟨depth - 2, by simp only [Level.depth, Level.rank] at hdepth; omega⟩
  rw [Rule.matched?_spaced rfl] at h
  obtain ⟨⟨c₂, inside⟩, hbody, heq⟩ := Option.map_eq_some_iff.1 h
  obtain ⟨rfl, rfl⟩ := Prod.mk.inj heq
  rcases Option.or_eq_some_iff.1 hbody with hnot | ⟨-, hcomparison⟩
  · obtain ⟨c₁, front, back, hkeyword, hoperand, rfl⟩ := Pattern.matched?_seq_eq_some_iff.1 hnot
    obtain ⟨hread, w, rfl⟩ := reads_of_matched?_keyword (k := .not) hkeyword
    have hread := hread.append (reads_skipBlanks c₁)
    have hdepth' : Level.negation.depth c₁.skipBlanks.rest ≤ depth + 2 := by
      have hlength := hread.length_add_length_le
      simp only [Level.depth, Level.rank, List.length_append, List.length_cons] at hdepth hlength ⊢
      omega
    obtain ⟨n, ts, f, rfl, hbuilds, hderives, hread'⟩ := hd .negation _ _ _ hdepth' hoperand
    exact ⟨_, _, _, rfl, hbuilds.not _ _ _ w, hderives.not, hread.append hread'⟩
  · have hdepth' : Level.comparison.depth c.rest ≤ depth + 2 := by
      simp only [Level.depth, Level.rank] at hdepth ⊢
      omega
    obtain ⟨n, ts, f, rfl, hbuilds, hderives, hread⟩ := hd .comparison _ _ _ hdepth' hcomparison
    exact ⟨_, _, _, rfl, hbuilds.positive _ _, hderives.positive, hread⟩

theorem Complete.negation (hd : Complete depth)
    (hdepth : Level.negation.depth c.rest ≤ depth + 1) (hderives : Derives .negation ts f)
    (hc : NoneAhead Cursor.isBlank c.rest) (hread : Reads c.rest (ts ++ us) [])
    (hstops : ∀ tok ∈ us.head?, Level.negation.stops tok = true) :
    ∃ c' n, Level.negation.rule.matched? (depth + 1) .initial c = some (c', [n])
      ∧ Builds .negation n f ∧ Reads c'.rest us [] := by
  obtain ⟨depth, rfl⟩ : ∃ d, depth = d + 2 :=
    ⟨depth - 2, by simp only [Level.depth, Level.rank] at hdepth; omega⟩
  have hbody : Level.negation.rule.body
      = .choice (.seq (.rule .kwNot) (.rule .notExpr)) (.rule .comparison) := rfl
  rw [Rule.matched?_spaced rfl, hbody, Pattern.matched?]
  cases hderives with
  | not h =>
    rename_i ts f
    obtain ⟨c₁, w, hkeyword, hread₁⟩ := exists_matched?_keyword (k := .not) hc hread depth
    have hdepth' : Level.negation.depth c₁.skipBlanks.rest ≤ depth + 2 := by
      have hlength := (reads_of_matched?_keyword hkeyword).1.length_add_length_le
      have hskip := (reads_skipBlanks c₁).length_add_length_le
      simp only [Level.depth, Level.rank, List.length_cons, List.length_nil] at hdepth hlength hskip ⊢
      omega
    obtain ⟨c', n, hoperand, hbuilds, hread'⟩ := hd .negation _ _ _ _ hdepth' h
      (Cursor.noneAhead_skipBlanks c₁) hread₁.skipBlanks hstops
    have hseq : (Pattern.seq (.rule .kwNot) (.rule .notExpr)).matched?
        (Rule.matched? (depth + 2)) .initial c = some (c', [Node.token .kwNot c.pos w] ++ [n]) :=
      Pattern.matched?_seq_eq_some_iff.2 ⟨c₁, _, _, hkeyword, hoperand, rfl⟩
    refine ⟨c', _, ?_, hbuilds.not c.pos c'.pos c.pos w, hread'⟩
    rw [hseq]
    rfl
  | positive h =>
    -- an operand comes first, which no `not` starts
    obtain ⟨tok, ts', rfl, htok⟩ := h.exists_head (.inl rfl)
    have hnot : ((tok :: ts') ++ us).head? ≠ some (.keyword .not) := by
      rintro hhead
      obtain rfl : tok = .keyword .not := by simpa using hhead
      cases htok
    have hkeyword := matched?_keyword_eq_none hc hread hnot depth .initial
    have hdepth' : Level.comparison.depth c.rest ≤ depth + 2 := by
      simp only [Level.depth, Level.rank] at hdepth ⊢
      omega
    obtain ⟨c', n, hmatch, hbuilds, hread'⟩ := hd .comparison _ _ _ _ hdepth' h hc hread
      (fun tok htok => Level.stops_mono (by decide) (hstops tok htok))
    refine ⟨c', _, ?_, hbuilds.positive c.pos c'.pos, hread'⟩
    have hleft : (Pattern.seq (.rule .kwNot) (.rule .notExpr)).matched?
        (Rule.matched? (depth + 2)) .initial c = none := by
      rw [Pattern.matched?, Pattern.matched?, show Rule.kwNot = Keyword.not.rule from rfl, hkeyword]
      rfl
    rw [hleft, Option.none_or, Pattern.matched?, show Rule.comparison = Level.comparison.rule from rfl,
      hmatch]
    rfl

/-! ## Comparisons -/

/-- A comparator is the first of the six keywords that matches. -/
theorem matched?_cmpOp (depth : Nat) (c : Cursor) :
    Rule.cmpOp.matched? (depth + 1) .initial c
      = Comparator.all.findSome? fun o =>
          (Keyword.comparator o).rule.matched? depth .initial c := by
  have hbody : Rule.cmpOp.body = .firstOf (.rule (Keyword.comparator .eq).rule)
      (Comparator.all.tail.map fun o => .rule (Keyword.comparator o).rule) := rfl
  rw [Rule.matched?, hbody, Pattern.matched?_firstOf]
  exact Option.map_id' ..

theorem reads_of_matched?_cmpOp (h : Rule.cmpOp.matched? (depth + 3) .initial c = some (c', ns)) :
    ∃ o w, Reads c.rest [.keyword (.comparator o)] c'.rest
      ∧ ns = [.token (Keyword.comparator o).rule c.pos w] := by
  rw [matched?_cmpOp] at h
  obtain ⟨o, -, ho⟩ := List.exists_of_findSome?_eq_some h
  obtain ⟨hread, w, rfl⟩ := reads_of_matched?_keyword ho
  exact ⟨o, w, hread, rfl⟩

theorem exists_matched?_cmpOp {o : Comparator} (hc : NoneAhead Cursor.isBlank c.rest)
    (h : Reads c.rest (.keyword (.comparator o) :: us) []) (depth : Nat) :
    ∃ c' w, Rule.cmpOp.matched? (depth + 3) .initial c
        = some (c', [.token (Keyword.comparator o).rule c.pos w]) ∧ Reads c'.rest us [] := by
  obtain ⟨c', w, hkeyword, hread⟩ := exists_matched?_keyword hc h depth
  refine ⟨c', w, ?_, hread⟩
  rw [matched?_cmpOp]
  -- no other comparator matches, so it makes no difference which is tried first
  obtain ⟨y, hy⟩ : ∃ y, Comparator.all.findSome? (fun o =>
      (Keyword.comparator o).rule.matched? (depth + 2) .initial c) = some y := by
    rw [← Option.isSome_iff_exists, List.findSome?_isSome_iff]
    exact ⟨o, o.mem_all, by rw [hkeyword]; rfl⟩
  obtain ⟨o', -, ho'⟩ := List.exists_of_findSome?_eq_some hy
  by_cases hoo : o' = o
  · rw [hy, ← ho', hoo, hkeyword]
  · rw [matched?_keyword_eq_none hc h (by simpa using Ne.symm hoo) depth] at ho'
    cases ho'

theorem matched?_cmpOp_eq_none (hc : NoneAhead Cursor.isBlank c.rest) (h : Reads c.rest us [])
    (hus : ∀ o, us.head? ≠ some (.keyword (.comparator o))) (depth : Nat) :
    Rule.cmpOp.matched? (depth + 3) .initial c = none := by
  rw [matched?_cmpOp, List.findSome?_eq_none_iff]
  intro o _
  exact matched?_keyword_eq_none hc h (hus o) depth .initial

theorem Sound.comparison (hd : Sound depth)
    (hdepth : Level.comparison.depth c.rest ≤ depth + 1)
    (h : Level.comparison.rule.matched? (depth + 1) .initial c = some (c', ns)) :
    ∃ n ts f, ns = [n] ∧ Builds .comparison n f ∧ Derives .comparison ts f
      ∧ Reads c.rest ts c'.rest := by
  have hdepth₀ : Level.operand.depth c.rest ≤ depth := by
    simp only [Level.depth, Level.rank] at hdepth ⊢
    omega
  obtain ⟨depth, rfl⟩ : ∃ d, depth = d + 3 := ⟨depth - 3, by unfold Level.depth at hdepth₀; omega⟩
  rw [Rule.matched?_spaced rfl] at h
  obtain ⟨⟨c₂, inside⟩, hbody, heq⟩ := Option.map_eq_some_iff.1 h
  obtain ⟨rfl, rfl⟩ := Prod.mk.inj heq
  obtain ⟨c₁, front, back, hleft, hright, rfl⟩ := Pattern.matched?_seq_eq_some_iff.1 hbody
  obtain ⟨l, ts, f, rfl, hbuilds, hderives, hread⟩ := hd .operand _ _ _ hdepth₀ hleft
  rcases Option.or_eq_some_iff.1 hright with hseq | ⟨-, hnone⟩
  · obtain ⟨c₃, op, last, hop, hoperand, rfl⟩ := Pattern.matched?_seq_eq_some_iff.1 hseq
    obtain ⟨o, w, hread₁, rfl⟩ := reads_of_matched?_cmpOp hop
    have hread₂ := (hread.append (reads_skipBlanks c₁)).append (hread₁.append (reads_skipBlanks c₃))
    have hdepth₁ : Level.operand.depth c₃.skipBlanks.rest ≤ depth + 3 :=
      le_trans (Level.operand.depth_mono (le_of_add_le_right hread₂.length_add_length_le)) hdepth₀
    obtain ⟨r, us, g, rfl, hbuilds', hderives', hread'⟩ := hd .operand _ _ _ hdepth₁ hoperand
    refine ⟨_, _, _, rfl, hbuilds.compare _ _ o _ w hbuilds', hderives.compare hderives', ?_⟩
    simpa using hread₂.append hread'
  · obtain ⟨rfl, rfl⟩ := Prod.mk.inj (Option.some.inj hnone)
    refine ⟨_, _, _, rfl, hbuilds.alone _ _, hderives.alone, ?_⟩
    simpa using hread.append (reads_skipBlanks c₁)

/-- What is taken where two operands stand around a comparator. -/
theorem matched?_comparison_of_some {c₁ c₂ : Cursor} {front op back : List Node}
    (hleft : Rule.operand.matched? depth .initial c = some (c₁, front))
    (hop : Rule.cmpOp.matched? depth .initial c₁.skipBlanks = some (c₂, op))
    (hright : Rule.operand.matched? depth .initial c₂.skipBlanks = some (c', back)) :
    Rule.comparison.matched? (depth + 1) .initial c
      = some (c', [.branch .comparison c.pos c'.pos (front ++ (op ++ back))]) := by
  have hseq : (Pattern.seq (.rule .cmpOp) (.rule .operand)).matched?
      (Rule.matched? depth) .initial c₁.skipBlanks = some (c', op ++ back) :=
    Pattern.matched?_seq_eq_some_iff.2 ⟨c₂, _, _, hop, hright, rfl⟩
  have hbody : Rule.comparison.body.matched? (Rule.matched? depth) .initial c
      = some (c', front ++ (op ++ back)) := by
    refine Pattern.matched?_seq_eq_some_iff.2 ⟨c₁, _, _, hleft, ?_, rfl⟩
    rw [Pattern.matched?, hseq]
    rfl
  rw [Rule.matched?_spaced rfl, hbody]
  rfl

/-- What is taken where no comparator follows the first operand. -/
theorem matched?_comparison_of_none {c₁ : Cursor} {front : List Node}
    (hleft : Rule.operand.matched? depth .initial c = some (c₁, front))
    (hop : Rule.cmpOp.matched? depth .initial c₁.skipBlanks = none) :
    Rule.comparison.matched? (depth + 1) .initial c
      = some (c₁.skipBlanks, [.branch .comparison c.pos c₁.skipBlanks.pos front]) := by
  have hbody : Rule.comparison.body.matched? (Rule.matched? depth) .initial c
      = some (c₁.skipBlanks, front ++ []) := by
    refine Pattern.matched?_seq_eq_some_iff.2 ⟨c₁, _, _, hleft, ?_, rfl⟩
    rw [Pattern.matched?, Pattern.matched?, Pattern.matched?, hop]
    rfl
  rw [Rule.matched?_spaced rfl, hbody, List.append_nil]
  rfl

theorem Complete.comparison (hd : Complete depth) (hs : Sound depth)
    (hdepth : Level.comparison.depth c.rest ≤ depth + 1) (hderives : Derives .comparison ts f)
    (hc : NoneAhead Cursor.isBlank c.rest) (hread : Reads c.rest (ts ++ us) [])
    (hstops : ∀ tok ∈ us.head?, Level.comparison.stops tok = true) :
    ∃ c' n, Level.comparison.rule.matched? (depth + 1) .initial c = some (c', [n])
      ∧ Builds .comparison n f ∧ Reads c'.rest us [] := by
  have hdepth₀ : Level.operand.depth c.rest ≤ depth := by
    simp only [Level.depth, Level.rank] at hdepth ⊢
    omega
  obtain ⟨depth, rfl⟩ : ∃ d, depth = d + 3 := ⟨depth - 3, by unfold Level.depth at hdepth₀; omega⟩
  cases hderives with
  | @compare o ts₁ ts₂ l r hl hr =>
    rw [List.append_assoc, List.cons_append] at hread
    obtain ⟨c₁, n₁, hleft, hbuilds, hread₁⟩ := hd .operand _ _ _ _ hdepth₀ hl hc hread
      (by rintro tok ⟨⟩; rfl)
    obtain ⟨c₂, w, hop, hread₂⟩ :=
      exists_matched?_cmpOp (Cursor.noneAhead_skipBlanks c₁) hread₁.skipBlanks depth
    have hlength : c₂.skipBlanks.rest.length ≤ c.rest.length := by
      have hfirst := hs.length_le hdepth₀ hleft
      obtain ⟨_, _, htaken, -⟩ := reads_of_matched?_cmpOp hop
      have := (((reads_skipBlanks c₁).append htaken).append
        (reads_skipBlanks c₂)).length_add_length_le
      omega
    obtain ⟨c', n₂, hright, hbuilds', hread'⟩ := hd .operand _ _ _ _
      (le_trans (Level.operand.depth_mono hlength) hdepth₀) hr (Cursor.noneAhead_skipBlanks c₂)
      hread₂.skipBlanks (fun tok htok => Level.stops_mono (by decide) (hstops tok htok))
    exact ⟨c', _, matched?_comparison_of_some hleft hop hright,
      hbuilds.compare c.pos c'.pos o c₁.skipBlanks.pos w hbuilds', hread'⟩
  | alone h =>
    obtain ⟨c₁, n₁, hleft, hbuilds, hread₁⟩ := hd .operand _ _ _ _ hdepth₀ h hc hread
      (fun tok htok => Level.stops_mono (by decide) (hstops tok htok))
    have hhead : ∀ o, us.head? ≠ some (.keyword (.comparator o)) := by
      intro o ho
      exact absurd (hstops _ ho) (by simp [Level.stops])
    have hop := matched?_cmpOp_eq_none (Cursor.noneAhead_skipBlanks c₁) hread₁.skipBlanks hhead depth
    exact ⟨c₁.skipBlanks, _, matched?_comparison_of_none hleft hop,
      hbuilds.alone c.pos c₁.skipBlanks.pos, hread₁.skipBlanks⟩

/-! ## Groups -/

/-- What stands at a place is one character and what follows it. -/
theorem rest_eq_cons_of_head? {a : Char} (h : c.rest.head? = some a) :
    c.rest = a :: (c.advance 1).rest := by
  obtain ⟨s, hs⟩ := List.head?_eq_some_iff.1 h
  rw [Cursor.rest_advance, hs]
  rfl

/-- A token of one character stands at the place where it comes next. -/
theorem head?_and_reads {tok : Token} {a : Char} (htok : ∀ w, tok.Spells w → w = [a])
    (hc : NoneAhead Cursor.isBlank c.rest) (h : Reads c.rest (tok :: us) []) :
    c.rest.head? = some a ∧ Reads (c.advance 1).rest us [] := by
  obtain ⟨w, t, hrest, hw, -, ht⟩ := h.exists_spells hc
  rw [Cursor.rest_advance, hrest, htok w hw]
  exact ⟨rfl, ht⟩

theorem Sound.group (hd : Sound depth) (hdepth : Level.group.depth c.rest ≤ depth + 1)
    (h : Level.group.rule.matched? (depth + 1) .initial c = some (c', ns)) :
    ∃ n ts f, ns = [n] ∧ Builds .group n f ∧ Derives .group ts f ∧ Reads c.rest ts c'.rest := by
  rw [Rule.matched?_spaced rfl] at h
  obtain ⟨⟨c₂, inside⟩, hbody, heq⟩ := Option.map_eq_some_iff.1 h
  obtain ⟨rfl, rfl⟩ := Prod.mk.inj heq
  obtain ⟨c₁, front, back, hfront, hclosing, rfl⟩ := Pattern.matched?_seq_eq_some_iff.1 hbody
  obtain ⟨c₀, first, middle, hopening, hinner, rfl⟩ := Pattern.matched?_seq_eq_some_iff.1 hfront
  rw [Pattern.matched?_literal (a := '(') rfl] at hopening
  rw [Pattern.matched?_literal (a := ')') rfl] at hclosing
  split at hopening
  · rename_i hopen
    split at hclosing
    · rename_i hclose
      obtain ⟨rfl, rfl⟩ := Prod.mk.inj (Option.some.inj hopening)
      obtain ⟨rfl, rfl⟩ := Prod.mk.inj (Option.some.inj hclosing)
      have hread₀ : Reads c.rest [.opening] (c.advance 1).rest :=
        .token (w := ['(']) (rest_eq_cons_of_head? hopen) rfl (by simp [Token.isWord]) (.done _)
      have hread₂ : Reads c₁.skipBlanks.rest [.closing] (c₁.skipBlanks.advance 1).rest :=
        .token (w := [')']) (rest_eq_cons_of_head? hclose) rfl (by simp [Token.isWord]) (.done _)
      have hread₀ := hread₀.append (reads_skipBlanks (c.advance 1))
      have hdepth' : (Level.chain .or).depth (c.advance 1).skipBlanks.rest ≤ depth := by
        have hlength := hread₀.length_add_length_le
        simp only [Level.depth, Level.rank, List.length_append, List.length_cons] at hdepth hlength ⊢
        omega
      obtain ⟨n, ts, f, rfl, hbuilds, hderives, hread₁⟩ := hd (.chain .or) _ _ _ hdepth' hinner
      refine ⟨_, _, _, rfl, hbuilds.parens _ _, hderives.parens, ?_⟩
      simpa using (hread₀.append (hread₁.append (reads_skipBlanks c₁))).append hread₂
    · cases hclosing
  · cases hopening

theorem Complete.group (hd : Complete depth)
    (hdepth : Level.group.depth c.rest ≤ depth + 1) (hderives : Derives .group ts f)
    (hc : NoneAhead Cursor.isBlank c.rest) (hread : Reads c.rest (ts ++ us) []) :
    ∃ c' n, Level.group.rule.matched? (depth + 1) .initial c = some (c', [n])
      ∧ Builds .group n f ∧ Reads c'.rest us [] := by
  have hbody : Level.group.rule.body
      = .seq (.seq (.literal "(") (.rule .orExpr)) (.literal ")") := rfl
  rw [Rule.matched?_spaced rfl, hbody]
  cases hderives with
  | @parens ts f h =>
    rw [List.cons_append, List.cons_append, List.append_assoc] at hread
    obtain ⟨hopen, hread₀⟩ := head?_and_reads (fun w (hw : Token.opening.Spells w) => hw) hc hread
    have hdepth' : (Level.chain .or).depth (c.advance 1).skipBlanks.rest ≤ depth := by
      have hlength := (reads_skipBlanks (c.advance 1)).length_add_length_le
      rw [rest_eq_cons_of_head? hopen] at hdepth
      simp only [Level.depth, Level.rank, List.length_cons] at hdepth hlength ⊢
      omega
    obtain ⟨c₁, n, hinner, hbuilds, hread₁⟩ := hd (.chain .or) _ _ _ _ hdepth' h
      (Cursor.noneAhead_skipBlanks _) hread₀.skipBlanks (by rintro tok ⟨⟩; rfl)
    obtain ⟨hclose, hread₂⟩ :=
      head?_and_reads (fun w (hw : Token.closing.Spells w) => hw) (Cursor.noneAhead_skipBlanks c₁)
        hread₁.skipBlanks
    have hfront : (Pattern.seq (.literal "(") (.rule .orExpr)).matched? (Rule.matched? depth)
        .initial c = some (c₁, [] ++ [n]) := by
      refine Pattern.matched?_seq_eq_some_iff.2 ⟨c.advance 1, _, _, ?_, hinner, rfl⟩
      rw [Pattern.matched?_literal (a := '(') rfl, if_pos hopen]
    have hall : (Pattern.seq (.seq (.literal "(") (.rule .orExpr)) (.literal ")")).matched?
        (Rule.matched? depth) .initial c = some (c₁.skipBlanks.advance 1, [] ++ [n] ++ []) := by
      refine Pattern.matched?_seq_eq_some_iff.2 ⟨c₁, _, _, hfront, ?_, rfl⟩
      rw [Pattern.matched?_literal (a := ')') rfl, if_pos hclose]
    refine ⟨c₁.skipBlanks.advance 1, _, ?_, hbuilds.parens c.pos (c₁.skipBlanks.advance 1).pos,
      hread₂⟩
    rw [hall]
    rfl

/-! ## Operands -/

/-- An operand is a group, `null`, an integer, a string or an identifier,
tried in this order. -/
theorem matched?_operand (depth : Nat) (c : Cursor) :
    Level.operand.rule.matched? (depth + 1) .initial c
      = [Rule.group, Keyword.null.rule, .integer, .string, .identifier].findSome?
          (·.matched? depth .initial c) := by
  have hbody : Level.operand.rule.body
      = .firstOf (.rule .group)
          ([Keyword.null.rule, .integer, .string, .identifier].map .rule) := rfl
  rw [Rule.matched?, hbody, Pattern.matched?_firstOf]
  exact Option.map_id' ..

theorem Sound.operand (hd : Sound depth) (hdepth : Level.operand.depth c.rest ≤ depth + 1)
    (h : Level.operand.rule.matched? (depth + 1) .initial c = some (c', ns)) :
    ∃ n ts f, ns = [n] ∧ Builds .operand n f ∧ Derives .operand ts f
      ∧ Reads c.rest ts c'.rest := by
  have hdepth₀ : Level.group.depth c.rest ≤ depth := by
    simp only [Level.depth, Level.rank] at hdepth ⊢
    omega
  obtain ⟨depth, rfl⟩ : ∃ d, depth = d + 3 := ⟨depth - 3, by unfold Level.depth at hdepth₀; omega⟩
  rw [matched?_operand] at h
  obtain ⟨r, hr, hmatch⟩ := List.exists_of_findSome?_eq_some h
  simp only [List.mem_cons, List.not_mem_nil, or_false] at hr
  rcases hr with rfl | rfl | rfl | rfl | rfl
  · obtain ⟨n, ts, f, rfl, hbuilds, hderives, hread⟩ := hd .group _ _ _ hdepth₀ hmatch
    exact ⟨n, ts, f, rfl, hbuilds.grouped, hderives.grouped, hread⟩
  · obtain ⟨hread, w, rfl⟩ := reads_of_matched?_keyword hmatch
    exact ⟨_, _, _, rfl, builds_null _ w, .null, hread⟩
  · obtain ⟨digits, hread, rfl⟩ := (takesWord_integer _).reads hmatch
    exact ⟨_, _, _, rfl, builds_integer _ digits, .integer digits, hread⟩
  · obtain ⟨s, stop, hread, rfl⟩ := reads_of_matched?_string hmatch
    exact ⟨_, _, _, rfl, builds_string _ stop s _, .string s, hread⟩
  · obtain ⟨path, hread, rfl⟩ := (takesWord_identifier _).reads hmatch
    exact ⟨_, _, _, rfl, builds_identifier _ path, .identifier path, hread⟩

/-- The first character tells parentheses and strings apart. -/
theorem head?_iff {tok : Token} (hc : NoneAhead Cursor.isBlank c.rest)
    (h : Reads c.rest (tok :: us) []) :
    (c.rest.head? = some '(' ↔ tok = .opening)
      ∧ (c.rest.head? = some '\'' ↔ ∃ s, tok = .string s) := by
  obtain ⟨w, t, hrest, hw, -, -⟩ := h.exists_spells hc
  obtain ⟨a, v, rfl, -, hquote, hopening, -⟩ := hw.exists_cons
  rw [hrest, List.cons_append, List.head?_cons, Option.some_inj, Option.some_inj]
  exact ⟨hopening, hquote⟩

/-- Where no opening parenthesis comes next, there is no group. -/
theorem matched?_group_eq_none {tok : Token} (hc : NoneAhead Cursor.isBlank c.rest)
    (h : Reads c.rest (tok :: us) []) (htok : tok ≠ .opening) (depth : Nat) :
    Rule.group.matched? (depth + 1) .initial c = none := by
  have hbody : Rule.group.body
      = .seq (.seq (.literal "(") (.rule .orExpr)) (.literal ")") := rfl
  rw [Rule.matched?_spaced rfl, hbody, Pattern.matched?, Pattern.matched?,
    Pattern.matched?_literal (a := '(') rfl, if_neg (mt (head?_iff hc h).1.1 htok)]
  rfl

theorem matched?_string_eq_none {tok : Token} (hc : NoneAhead Cursor.isBlank c.rest)
    (h : Reads c.rest (tok :: us) []) (htok : ∀ s, tok ≠ .string s) (depth : Nat) :
    Rule.string.matched? (depth + 2) .initial c = none := by
  rw [Rule.matched?_string]
  split
  · rename_i hrest
    obtain ⟨s, hs⟩ := (head?_iff hc h).2.1 (by rw [hrest]; rfl)
    exact absurd hs (htok s)
  · rfl

theorem matched?_integer_eq_none {tok : Token} (hc : NoneAhead Cursor.isBlank c.rest)
    (h : Reads c.rest (tok :: us) []) (htok : ∀ digits, tok ≠ .integer digits) (depth : Nat) :
    Rule.integer.matched? (depth + 2) .initial c = none := by
  rw [Rule.matched?_integer, if_neg]
  intro hint
  have hcases := h.wordAhead_cases hc
  split at hcases
  · rename_i hword
    have hspells : (Token.integer (String.ofList (wordAhead c.rest))).Spells (wordAhead c.rest) :=
      ⟨String.toList_ofList.symm, hint⟩
    exact htok _ (hcases.1.unique_of_isWord hspells hword rfl)
  · exact hint.ne_nil hcases

theorem Complete.operand (hd : Complete depth)
    (hdepth : Level.operand.depth c.rest ≤ depth + 1) (hderives : Derives .operand ts f)
    (hc : NoneAhead Cursor.isBlank c.rest) (hread : Reads c.rest (ts ++ us) [])
    (hstops : ∀ tok ∈ us.head?, Level.operand.stops tok = true) :
    ∃ c' n, Level.operand.rule.matched? (depth + 1) .initial c = some (c', [n])
      ∧ Builds .operand n f ∧ Reads c'.rest us [] := by
  have hdepth₀ : Level.group.depth c.rest ≤ depth := by
    simp only [Level.depth, Level.rank] at hdepth ⊢
    omega
  obtain ⟨depth, rfl⟩ : ∃ d, depth = d + 3 := ⟨depth - 3, by unfold Level.depth at hdepth₀; omega⟩
  rw [matched?_operand]
  simp only [List.findSome?_cons]
  cases hderives with
  | grouped h =>
    obtain ⟨c', n, hmatch, hbuilds, hread'⟩ := hd .group _ _ _ _ hdepth₀ h hc hread
      (fun tok htok => Level.stops_mono (by decide) (hstops tok htok))
    refine ⟨c', n, ?_, hbuilds.grouped, hread'⟩
    rw [show Rule.group = Level.group.rule from rfl, hmatch]
  | null =>
    obtain ⟨c', w, hmatch, hread'⟩ := exists_matched?_keyword hc hread (depth + 1)
    refine ⟨c', _, ?_, builds_null c.pos w, hread'⟩
    rw [matched?_group_eq_none hc hread (by simp), hmatch]
  | integer digits =>
    obtain ⟨c', hmatch, hread'⟩ := (takesWord_integer (depth + 1)).exists_matched? hc hread
    refine ⟨c', _, ?_, builds_integer c.pos digits, hread'⟩
    rw [matched?_group_eq_none hc hread (by simp),
      matched?_keyword_eq_none hc hread (by simp) (depth + 1), hmatch]
  | string s =>
    have hus : ∀ s, us.head? ≠ some (.string s) := fun s hs => absurd (hstops _ hs) (by simp [Level.stops])
    obtain ⟨c', stop, hmatch, hread'⟩ := exists_matched?_string hc hread hus (depth + 1)
    refine ⟨c', _, ?_, builds_string c.pos stop s (c.pos + 1), hread'⟩
    rw [matched?_group_eq_none hc hread (by simp),
      matched?_keyword_eq_none hc hread (by simp) (depth + 1),
      matched?_integer_eq_none hc hread (by simp) (depth + 1), hmatch]
  | identifier path =>
    obtain ⟨c', hmatch, hread'⟩ := (takesWord_identifier depth).exists_matched? hc hread
    refine ⟨c', _, ?_, builds_identifier c.pos path, hread'⟩
    rw [matched?_group_eq_none hc hread (by simp),
      matched?_keyword_eq_none hc hread (by simp) (depth + 1),
      matched?_integer_eq_none hc hread (by simp) (depth + 1),
      matched?_string_eq_none hc hread (by simp) (depth + 1), hmatch]

/-! ## All levels -/

theorem sound_and_complete (depth : Nat) : Sound depth ∧ Complete depth := by
  induction depth with
  | zero =>
    -- no text can do without a rule
    have hpos : ∀ (ℓ : Level) (s : List Char), ¬ ℓ.depth s ≤ 0 := by
      intro ℓ s
      unfold Level.depth
      omega
    exact ⟨fun ℓ c c' ns h => absurd h (hpos ℓ c.rest),
      fun ℓ c ts us f h => absurd h (hpos ℓ c.rest)⟩
  | succ depth ih =>
    obtain ⟨hs, hc⟩ := ih
    constructor
    · intro ℓ c c' ns hdepth h
      match ℓ with
      | .chain k => exact hs.chain k hdepth h
      | .negation => exact hs.negation hdepth h
      | .comparison => exact hs.comparison hdepth h
      | .operand => exact hs.operand hdepth h
      | .group => exact hs.group hdepth h
    · intro ℓ c ts us f hdepth hderives hblank hread hstops
      match ℓ with
      | .chain k => exact hc.chain hs k hdepth hderives hblank hread hstops
      | .negation => exact hc.negation hdepth hderives hblank hread hstops
      | .comparison => exact hc.comparison hs hdepth hderives hblank hread hstops
      | .operand => exact hc.operand hdepth hderives hblank hread hstops
      | .group => exact hc.group hdepth hderives hblank hread

/-! ## Whole texts -/

/-- The start of a text, blanks aside. -/
def firstPlace (input : List Char) : Cursor :=
  (⟨0, input⟩ : Cursor).skipBlanks

/-- The match of a filter at the start of a text. -/
def matchedFilter (input : List Char) : Matched :=
  Rule.orExpr.matched? (8 * input.length + 15) .initial (firstPlace input)

theorem depth_firstPlace_le (input : List Char) :
    (Level.chain .or).depth (firstPlace input).rest ≤ 8 * input.length + 15 := by
  have hlength := (reads_skipBlanks ⟨0, input⟩).length_add_length_le
  unfold Level.depth firstPlace
  simp only [Level.rank, List.length_nil] at hlength ⊢
  omega

/-- The end of the input is one more node. -/
theorem matched?_endOfInput (depth : Nat) (c : Cursor) :
    Rule.endOfInput.matched? (depth + 1) .initial c
      = if c.rest = [] then some (c, [.token .endOfInput c.pos []]) else none := by
  rw [Rule.matched?_token rfl, show Rule.endOfInput.body = .finish from rfl, Pattern.matched?]
  cases c.rest <;> simp [Mode.initial]

/-- **A text is matched if nothing but blanks follows the filter in it**, or if
there is neither. -/
theorem matched?_filter {input : List Char} {c' : Cursor} {nodes : List Node}
    (h : (matchedFilter input).getD (firstPlace input, []) = (c', nodes)) :
    Rule.filter.matched? (Rule.nesting input) .initial ⟨0, input⟩
      = if c'.skipBlanks.rest = [] then
          some (c'.skipBlanks, [.branch .filter 0 c'.skipBlanks.pos
            (nodes ++ [Node.token .endOfInput c'.skipBlanks.pos []])])
        else none := by
  have hnesting : Rule.nesting input = 8 * input.length + 15 + 1 := by
    unfold Rule.nesting
    omega
  have hbody : Rule.filter.body
      = .seq (.seq .start (.optional (.rule .orExpr))) (.rule .endOfInput) := rfl
  have hfront : (Pattern.seq .start (.optional (.rule .orExpr))).matched?
      (Rule.matched? (8 * input.length + 15)) .initial ⟨0, input⟩ = some (c', [] ++ nodes) := by
    refine Pattern.matched?_seq_eq_some_iff.2 ⟨⟨0, input⟩, _, _, rfl, ?_, rfl⟩
    rw [Pattern.matched?, Pattern.matched?, ← h]
    show (matchedFilter input).or _ = _
    cases matchedFilter input <;> rfl
  rw [hnesting, Rule.matched?_spaced rfl, hbody, Pattern.matched?, hfront, Option.bind_some,
    Pattern.matched?, show Mode.initial.skip c' = c'.skipBlanks from rfl, matched?_endOfInput]
  split <;> simp

/-- A text that is read: the nodes of a match are those of the filter in it. -/
theorem parseChars_eq {input : List Char} {c' : Cursor} {nodes : List Node}
    (h : (matchedFilter input).getD (firstPlace input, []) = (c', nodes)) :
    if c'.skipBlanks.rest = [] then
      parseChars input = match nodes.find? (·.rule = .orExpr) with
        | none => .ok none
        | some n => (ofNode input n).map some
    else ∃ e, parseChars input = .error e := by
  have hrun := Rule.run_snd (Rule.nesting input) .filter .initial ⟨0, input⟩ .none
  rw [matched?_filter h] at hrun
  unfold parseChars Rule.matchInput
  split
  · rename_i hend
    rw [if_pos hend] at hrun
    rcases hfound : Rule.filter.run (Rule.nesting input) .initial ⟨0, input⟩ .none with ⟨a, found⟩
    rw [hfound] at hrun
    obtain rfl : found = _ := hrun
    simp only [Node.children, List.find?_append]
    cases nodes.find? (·.rule = .orExpr) with
    | none => simp [Node.rule]
    | some n =>
      simp only [Option.some_or]
      cases ofNode input n <;> rfl
  · rename_i hend
    rw [if_neg hend] at hrun
    rcases hfound : Rule.filter.run (Rule.nesting input) .initial ⟨0, input⟩ .none with ⟨a, found⟩
    rw [hfound] at hrun
    obtain rfl : found = none := hrun
    exact ⟨_, rfl⟩

theorem parseChars_of_none {input : List Char} (h : matchedFilter input = none) :
    if (firstPlace input).skipBlanks.rest = [] then parseChars input = .ok none
    else ∃ e, parseChars input = .error e := by
  have hnone : (matchedFilter input).getD (firstPlace input, []) = (firstPlace input, []) := by
    rw [h, Option.getD_none]
  exact parseChars_eq hnone

theorem parseChars_of_some {input : List Char} {c' : Cursor} {n : Node} {f : Filter}
    (h : matchedFilter input = some (c', [n])) (hn : Builds (.chain .or) n f) :
    if c'.skipBlanks.rest = [] then parseChars input = .ok (some f)
    else ∃ e, parseChars input = .error e := by
  have hsome : (matchedFilter input).getD (firstPlace input, []) = (c', [n]) := by
    rw [h, Option.getD_some]
  have hparse := parseChars_eq hsome
  have hrule : n.rule = .orExpr := hn.rule (by simp)
  have hfind : [n].find? (fun n => n.rule = .orExpr) = some n := by simp [hrule]
  split
  · rename_i hend
    rw [if_pos hend, hfind] at hparse
    rw [hparse]
    show (Filter.ofNode input n).map some = _
    rw [hn.ofNode]
    rfl
  · rename_i hend
    rwa [if_neg hend] at hparse

/-- What is matched at the start of a text has a derivation. -/
theorem exists_of_matchedFilter {input : List Char} {c' : Cursor} {nodes : List Node}
    (h : matchedFilter input = some (c', nodes)) :
    ∃ n ts f, nodes = [n] ∧ Builds (.chain .or) n f ∧ Derives (.chain .or) ts f
      ∧ Reads (firstPlace input).rest ts c'.rest := by
  unfold matchedFilter at h
  exact (sound_and_complete (8 * input.length + 15)).1 (.chain .or) _ _ _
    (depth_firstPlace_le input) h

/-- A derivation of a whole text is matched at its start, and nothing but
blanks is left. -/
theorem exists_matchedFilter {input : List Char} (h : HasDerivation Token.isWord input f) :
    ∃ c' n, matchedFilter input = some (c', [n]) ∧ Builds (.chain .or) n f
      ∧ c'.skipBlanks.rest = [] := by
  obtain ⟨ts, hscans, hderives⟩ := h
  have hread : Reads (firstPlace input).rest (ts ++ []) [] := by
    rw [List.append_nil]
    exact Scans.skipBlanks (c := ⟨0, input⟩) hscans
  obtain ⟨c', n, hmatch, hbuilds, hrest⟩ :=
    (sound_and_complete (8 * input.length + 15)).2 (.chain .or) _ _ _ _
      (depth_firstPlace_le input) hderives (Cursor.noneAhead_skipBlanks _) hread (by simp)
  exact ⟨c', n, hmatch, hbuilds, hrest.skipBlanks.eq_nil (Cursor.noneAhead_skipBlanks c')⟩

/-- **What reading a text comes to**: nothing, and then the text is blank, or a
filter, and then the text has a derivation of it, or an error. -/
theorem parseChars_cases (input : List Char) :
    (parseChars input = .ok none ∧ ∀ c ∈ input, Cursor.isBlank c = true)
      ∨ (∃ f, parseChars input = .ok (some f) ∧ HasDerivation Token.isWord input f)
      ∨ ∃ e, parseChars input = .error e := by
  cases hmatch : matchedFilter input with
  | none =>
    have hparse := parseChars_of_none hmatch
    split at hparse
    · rename_i hend
      unfold firstPlace at hend
      rw [Cursor.rest_skipBlanks, Cursor.rest_skipBlanks, List.dropWhile_idempotent] at hend
      exact .inl ⟨hparse, List.dropWhile_eq_nil_iff.1 hend⟩
    · exact .inr (.inr hparse)
  | some x =>
    obtain ⟨c', nodes⟩ := x
    obtain ⟨n, ts, f, rfl, hbuilds, hderives, hread⟩ := exists_of_matchedFilter hmatch
    have hparse := parseChars_of_some hmatch hbuilds
    split at hparse
    · rename_i hend
      have hread := (reads_skipBlanks ⟨0, input⟩).append (hread.append (reads_skipBlanks c'))
      rw [List.nil_append, List.append_nil, hend] at hread
      exact .inr (.inl ⟨f, hparse, ts, hread, hderives⟩)
    · exact .inr (.inr hparse)

/-- **A text is read as a filter if and only if it has a derivation of it.** -/
theorem parseChars_eq_some_iff (input : List Char) (f : Filter) :
    parseChars input = .ok (some f) ↔ HasDerivation Token.isWord input f := by
  constructor
  · intro h
    rcases parseChars_cases input with ⟨hparse, -⟩ | ⟨g, hparse, hg⟩ | ⟨e, hparse⟩
    · cases h.symm.trans hparse
    · cases h.symm.trans hparse
      exact hg
    · cases h.symm.trans hparse
  · intro h
    obtain ⟨c', n, hmatch, hbuilds, hend⟩ := exists_matchedFilter h
    have hparse := parseChars_of_some hmatch hbuilds
    rwa [if_pos hend] at hparse

theorem Derives.ne_nil {ℓ : Level} (h : Derives ℓ ts f) : ts ≠ [] := by
  induction h with
  | one _ ih | positive _ ih | alone _ ih | grouped _ ih => exact ih
  | _ => simp

/-- **A text is read as nothing if and only if it is blank.** -/
theorem parseChars_eq_none_iff (input : List Char) :
    parseChars input = .ok none ↔ ∀ c ∈ input, Cursor.isBlank c = true := by
  constructor
  · intro h
    rcases parseChars_cases input with ⟨-, hblank⟩ | ⟨g, hparse, -⟩ | ⟨e, hparse⟩
    · exact hblank
    · cases h.symm.trans hparse
    · cases h.symm.trans hparse
  · intro h
    have hstart : (firstPlace input).rest = [] := by
      unfold firstPlace
      rw [Cursor.rest_skipBlanks]
      exact List.dropWhile_eq_nil_iff.2 h
    cases hmatch : matchedFilter input with
    | none =>
      have hparse := parseChars_of_none hmatch
      rwa [Cursor.rest_skipBlanks, hstart, List.dropWhile_nil, if_pos rfl] at hparse
    | some x =>
      -- no derivation is that of an empty text
      obtain ⟨n, ts, f, -, -, hderives, hread⟩ := exists_of_matchedFilter hmatch
      have hlength := hread.length_add_length_le
      rw [hstart] at hlength
      exact absurd (List.length_eq_zero_iff.1 (by simpa using hlength : ts.length = 0 ∧ _).1)
        hderives.ne_nil

theorem HasDerivation.unique {input : List Char} {g : Filter}
    (hf : HasDerivation Token.isWord input f) (hg : HasDerivation Token.isWord input g) :
    f = g := by
  rw [← parseChars_eq_some_iff] at hf hg
  exact Option.some.inj (Except.ok.inj (hf.symm.trans hg))

/-! ## The language of the parser -/

/-- **The parser accepts exactly the language**, in which keywords, integers and
identifiers are not followed by a character of an identifier. A text is read as
a filter if and only if it has a derivation of the filter, and it has one of no
other; it is read as nothing if and only if it is blank; and there is an error
if and only if neither is the case. -/
theorem parse_spec (s : String) :
    (∀ f, parse s = .ok (some f) ↔ HasDerivation Token.isWord s.toList f)
      ∧ (∀ f g, HasDerivation Token.isWord s.toList f → HasDerivation Token.isWord s.toList g →
          f = g)
      ∧ (parse s = .ok none ↔ ∀ c ∈ s.toList, Cursor.isBlank c = true)
      ∧ ((∃ e, parse s = .error e)
          ↔ (¬ ∃ f, HasDerivation Token.isWord s.toList f)
            ∧ ¬ ∀ c ∈ s.toList, Cursor.isBlank c = true) := by
  unfold parse
  refine ⟨parseChars_eq_some_iff s.toList, fun f g => HasDerivation.unique,
    parseChars_eq_none_iff s.toList, ?_⟩
  simp only [← parseChars_eq_none_iff, ← parseChars_eq_some_iff]
  rcases parseChars s.toList with e | _ | f <;> simp

/-- **Identifiers must be bounded as well.** If one may be followed by a
character of an identifier, then `xor y` has a derivation, of a disjunction, but
the parser takes `xor` for one identifier. -/
theorem not_parse_iff_of_unbounded_identifier :
    ¬ ∀ (s : String) (f : Filter),
      parse s = .ok (some f) ↔ HasDerivation Token.isFixedWord s.toList f := by
  intro h
  have hderivation : HasDerivation Token.isFixedWord "xor y".toList
      (.binary (.logical .or) (.identifier "x") (.identifier "y")) := by
    refine ⟨[.identifier "x", .keyword (.connective .or), .identifier "y"], ?_, ?_⟩
    · refine .token (w := ['x']) (s := "or y".toList) rfl ⟨rfl, by decide⟩ (by decide) ?_
      refine .token (w := ['o', 'r']) (s := " y".toList) rfl rfl (by decide) ?_
      refine .blank (c := ' ') rfl ?_
      exact .token (w := ['y']) rfl ⟨rfl, by decide⟩ (by decide) (.done [])
    · have hleaf : ∀ path : String, Derives (.chain .and) [.identifier path] (.identifier path) :=
        fun path => .one (.positive (.alone (.identifier path)))
      exact .join (k := .or) (.one (hleaf "x")) (hleaf "y")
  have hparse : (parse "xor y").toOption = none := rfl
  rw [(h _ _).2 hderivation] at hparse
  cases hparse

end FilterSql.Filter
