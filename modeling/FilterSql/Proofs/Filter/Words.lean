import FilterSql.Proofs.Filter.Language
import FilterSql.Proofs.Filter.Match
import Mathlib

/-!
# How the grammar takes tokens

Most tokens are words, and the grammar takes them in different ways: a keyword
letter by letter and then a look at what follows, an identifier after a look
whether a keyword is there, an integer digit by digit and then a look at what
follows. All of these come down to one question about one thing, the longest
run of word characters that stands ahead (`wordAhead`): whether it is the
keyword, an identifier, an integer.
-/

namespace FilterSql

open Text

namespace Filter

/-- **The word that stands ahead**: the longest run of word characters. -/
def wordAhead (s : List Char) : List Char :=
  s.takeWhile isIdentChar

theorem wordAhead_cons (c : Char) (s : List Char) :
    wordAhead (c :: s) = if isIdentChar c then c :: wordAhead s else [] := by
  unfold wordAhead
  rw [List.takeWhile_cons]

theorem wordAhead_eq_nil_iff {s : List Char} : wordAhead s = [] ↔ NoneAhead isIdentChar s := by
  cases s with
  | nil => simp [wordAhead]
  | cons c s => simp [wordAhead_cons]

/-- A word is the one ahead if none of its characters follows it. -/
theorem wordAhead_append {w s : List Char} (hw : ∀ c ∈ w, isIdentChar c = true)
    (hs : NoneAhead isIdentChar s) : wordAhead (w ++ s) = w :=
  takeWhile_append_of_noneAhead hw hs

theorem isIdentChar_of_mem_wordAhead {s : List Char} {c : Char} (h : c ∈ wordAhead s) :
    isIdentChar c = true :=
  List.mem_takeWhile_imp h

theorem take_wordAhead (s : List Char) : s.take (wordAhead s).length = wordAhead s :=
  take_length_takeWhile isIdentChar s

/-- What follows the word ahead does not go on with it. -/
theorem noneAhead_drop_wordAhead (s : List Char) :
    NoneAhead isIdentChar (s.drop (wordAhead s).length) := by
  unfold wordAhead
  rw [drop_length_takeWhile]
  exact noneAhead_dropWhile isIdentChar s

/-! ## Classes of words -/

theorem isIdentChar_of_isIdentStart {c : Char} (h : isIdentStart c = true) :
    isIdentChar c = true := by
  simp only [isIdentStart, isIdentChar, Char.isAlphanum, Bool.or_eq_true] at h ⊢
  tauto

theorem isIdentChar_of_isDigit {c : Char} (h : c.isDigit = true) : isIdentChar c = true := by
  simp [isIdentChar, Char.isAlphanum, h]

theorem head?_wordAhead_any {q : Char → Bool} (hq : ∀ c, q c = true → isIdentChar c = true)
    (s : List Char) : (wordAhead s).head?.any q = s.head?.any q := by
  cases s with
  | nil => rfl
  | cons c s =>
    rw [wordAhead_cons]
    cases hc : isIdentChar c with
    | true => rfl
    | false =>
      have : q c = false := by
        by_contra h
        simp [hq c (by simpa using h)] at hc
      simp [this]

theorem isIdentifier_wordAhead_iff (s : List Char) :
    IsIdentifier (wordAhead s) ↔ ¬ IsReserved (wordAhead s) ∧ s.head?.any isIdentStart = true := by
  constructor
  · intro h
    exact ⟨h.notReserved, head?_wordAhead_any (fun _ => isIdentChar_of_isIdentStart) s ▸ h.head⟩
  · rintro ⟨hreserved, hhead⟩
    rw [← head?_wordAhead_any (fun _ => isIdentChar_of_isIdentStart)] at hhead
    exact ⟨hhead, fun _ => isIdentChar_of_mem_wordAhead, hreserved⟩

/-- The digits ahead are the word ahead if no character of a word follows
them. -/
theorem takeWhile_isDigit_eq_wordAhead {s : List Char}
    (h : NoneAhead isIdentChar (s.drop (s.takeWhile Char.isDigit).length)) :
    s.takeWhile Char.isDigit = wordAhead s := by
  have hsplit : s.takeWhile Char.isDigit ++ s.drop (s.takeWhile Char.isDigit).length = s := by
    rw [drop_length_takeWhile]
    exact List.takeWhile_append_dropWhile
  conv_rhs => rw [← hsplit]
  refine (wordAhead_append (fun c hc => ?_) h).symm
  exact isIdentChar_of_isDigit (List.mem_takeWhile_imp hc)

/-- **The word ahead is an integer** if digits stand ahead and no character of a
word follows them. -/
theorem isInteger_wordAhead_iff (s : List Char) :
    IsInteger (wordAhead s) ↔ s.head?.any Char.isDigit = true
      ∧ NoneAhead isIdentChar (s.drop (s.takeWhile Char.isDigit).length) := by
  constructor
  · intro h
    have hsplit : wordAhead s ++ s.drop (wordAhead s).length = s := by
      rw [wordAhead, drop_length_takeWhile]
      exact List.takeWhile_append_dropWhile
    have hdigits : s.takeWhile Char.isDigit = wordAhead s := by
      conv_lhs => rw [← hsplit]
      refine takeWhile_append_of_noneAhead h.digits ?_
      exact (noneAhead_drop_wordAhead s).mono fun _ => isIdentChar_of_isDigit
    refine ⟨?_, hdigits ▸ noneAhead_drop_wordAhead s⟩
    rw [← head?_wordAhead_any fun _ => isIdentChar_of_isDigit]
    obtain ⟨d, w, hw⟩ := List.exists_cons_of_ne_nil h.ne_nil
    rw [hw]
    exact h.digits d (hw ▸ List.mem_cons_self)
  · rintro ⟨hhead, hend⟩
    rw [← takeWhile_isDigit_eq_wordAhead hend]
    refine ⟨?_, fun c hc => List.mem_takeWhile_imp hc⟩
    cases s with
    | nil => simp at hhead
    | cons d s => simpa using hhead

/-! ## Keywords -/

theorem isAlpha_of_isLower_toLower {c : Char} (h : c.toLower.isLower = true) :
    c.isAlpha = true := by
  unfold Char.toLower at h
  split at h
  · rename_i hupper
    have : c.isUpper = true := by simpa [Char.isUpper] using hupper
    simp [Char.isAlpha, this]
  · simp [Char.isAlpha, h]

theorem isIdentChar_of_isAlpha {c : Char} (h : c.isAlpha = true) : isIdentChar c = true := by
  simp [isIdentChar, Char.isAlphanum, h]

theorem toLower_of_isLower {c : Char} (h : c.isLower = true) : c.toLower = c := by
  unfold Char.toLower
  split
  · rename_i hupper
    have hlow : c.val.toNat ≤ 90 := hupper.2
    have hhigh : 97 ≤ c.val.toNat := by
      simp only [Char.isLower, Bool.and_eq_true, decide_eq_true_eq] at h
      exact h.1
    omega
  · rfl

theorem Keyword.map_toLower_letters (k : Keyword) : k.letters.map Char.toLower = k.letters := by
  conv_rhs => rw [← List.map_id k.letters]
  refine List.map_congr_left (fun a ha => ?_)
  exact toLower_of_isLower (isLower_of_mem_letters ha)

theorem prefix_of_startsWithWord {w s : List Char} (h : startsWithWord w s = true) :
    w.map Char.toLower <+: s.map Char.toLower := by
  induction w generalizing s with
  | nil => exact List.nil_prefix
  | cons a w ih =>
    cases s with
    | nil => simp [startsWithWord] at h
    | cons b s =>
      simp only [startsWithWord, sameLetter, Bool.and_eq_true, beq_iff_eq] at h
      rw [List.map_cons, List.map_cons, h.1]
      exact List.prefix_cons_inj _ |>.2 (ih h.2)

/-- **A word in small letters starts a text and ends there** if and only if the
word ahead is that word. -/
theorem startsWithWord_iff {w : List Char} (hw : ∀ a ∈ w, a.isLower = true) (s : List Char) :
    (startsWithWord w s = true ∧ NoneAhead isIdentChar (s.drop w.length))
      ↔ (wordAhead s).map Char.toLower = w := by
  induction w generalizing s with
  | nil => simp [startsWithWord, wordAhead_eq_nil_iff]
  | cons a w ih =>
    have ha : a.toLower = a := toLower_of_isLower (hw a List.mem_cons_self)
    have ih := ih fun b hb => hw b (List.mem_cons_of_mem _ hb)
    cases s with
    | nil => simp [startsWithWord, wordAhead]
    | cons b s =>
      by_cases hb : b.toLower = a
      · -- the letter is one of a word
        have hident : isIdentChar b = true := by
          refine isIdentChar_of_isAlpha (isAlpha_of_isLower_toLower ?_)
          rw [hb]
          exact hw a List.mem_cons_self
        rw [wordAhead_cons, if_pos hident]
        simpa [startsWithWord, sameLetter, ha, hb] using ih s
      · refine iff_of_false ?_ ?_
        · simp [startsWithWord, sameLetter, ha, Ne.symm hb]
        · rw [wordAhead_cons]
          split <;> simp [hb]

/-- No two keywords start one text. -/
theorem eq_of_startsWithWord {k k' : Keyword} {s : List Char}
    (h : startsWithWord k.letters s = true) (h' : startsWithWord k'.letters s = true) : k = k' := by
  rcases List.prefix_or_prefix_of_prefix (prefix_of_startsWithWord h)
    (prefix_of_startsWithWord h') with hp | hp
  · exact Keyword.eq_of_letters_prefix (by simpa [Keyword.map_toLower_letters] using hp)
  · exact (Keyword.eq_of_letters_prefix (by simpa [Keyword.map_toLower_letters] using hp)).symm

/-- Whichever keyword a text is found to start with first, it is the one it
starts with. -/
theorem findSome?_startsWithWord {α : Type} {k : Keyword} {s : List Char}
    (h : startsWithWord k.letters s = true) (g : Keyword → α) :
    (Keyword.all.findSome? fun k => if startsWithWord k.letters s then some (g k) else none)
      = some (g k) := by
  have hsome : (Keyword.all.findSome? fun k =>
      if startsWithWord k.letters s then some (g k) else none).isSome = true := by
    rw [List.findSome?_isSome_iff]
    exact ⟨k, k.mem_all, by rw [if_pos h]; rfl⟩
  obtain ⟨y, hy⟩ := Option.isSome_iff_exists.1 hsome
  obtain ⟨k', -, hk'⟩ := List.exists_of_findSome?_eq_some hy
  by_cases h' : startsWithWord k'.letters s = true
  · rw [if_pos h', ← eq_of_startsWithWord h h'] at hk'
    rw [hy, hk']
  · rw [if_neg h'] at hk'
    cases hk'

/-- The rule of a keyword. -/
def Keyword.rule : Keyword → Rule
  | connective .and => .kwAnd
  | connective .or => .kwOr
  | not => .kwNot
  | null => .kwNull
  | comparator .eq => .opEq
  | comparator .ne => .opNe
  | comparator .gt => .opGt
  | comparator .ge => .opGe
  | comparator .lt => .opLt
  | comparator .le => .opLe

theorem Keyword.kind_rule (k : Keyword) : k.rule.kind = .token := by
  have hall : ∀ k ∈ all, k.rule.kind = .token := by decide
  exact hall k (mem_all k)

theorem Keyword.body_rule (k : Keyword) : k.rule.body = .word k.text := by
  cases k with
  | connective k => cases k <;> rfl
  | not => rfl
  | null => rfl
  | comparator c => cases c <;> rfl

end Filter

/-! ## Rules for words -/

namespace Pattern

variable {call : Rule → Mode → Cursor → Matched} {m : Mode} {c : Cursor}

/-- The first alternative that matches is taken. -/
theorem matched?_firstOf (p : Pattern) (ps : List Pattern) :
    (firstOf p ps).matched? call m c = (p :: ps).findSome? (·.matched? call m c) := by
  unfold firstOf
  induction ps generalizing p with
  | nil => simp
  | cons q ps ih =>
    have hchoice : (choice p q).matched? call m c
        = (p.matched? call m c).or (q.matched? call m c) := rfl
    rw [List.foldl_cons, ih, List.findSome?_cons, List.findSome?_cons, List.findSome?_cons,
      hchoice]
    cases p.matched? call m c <;> rfl

/-- A text of one character. -/
theorem matched?_literal {s : String} {a : Char} (hs : s.toList = [a]) :
    (Pattern.literal s).matched? call m c
      = if c.rest.head? = some a then some (c.advance 1, []) else none := by
  have hlength : s.length = 1 := by rw [← String.length_toList, hs]; rfl
  rw [matched?, hs, hlength]
  cases c.rest with
  | nil => simp
  | cons d rest => by_cases hd : d = a <;> simp [hd, Ne.symm]

theorem matched?_char (k : CharClass) :
    (Pattern.char k).matched? call m c
      = if c.rest.head?.any k.contains then some (c.advance 1, []) else none := rfl

theorem matched?_seq_solid (hm : m.spaced = false) (p q : Pattern) :
    (Pattern.seq p q).matched? call m c
      = (p.matched? call m c).bind fun x =>
          (q.matched? call m x.1).map fun y => (y.1, x.2 ++ y.2) := by
  rw [matched?]
  simp [Mode.skip, hm]

end Pattern

namespace Rule

open FilterSql.Filter

/-- A token is one node with the text that was taken. -/
theorem matched?_token {r : Rule} (hr : r.kind = .token) (depth : Nat) (m : Mode) (c : Cursor) :
    r.matched? (depth + 1) m c
      = (r.body.matched? (matched? depth) ⟨false, false⟩ c).map fun x =>
          (x.1, if m.shown then [.token r c.pos (c.rest.take (x.1.pos - c.pos))] else []) := by
  rw [matched?]
  simp [hr, Mode.enter, node]

theorem matched?_identChar (depth : Nat) (m : Mode) (c : Cursor) :
    identChar.matched? (depth + 1) m c
      = if c.rest.head?.any isIdentChar then some (c.advance 1, []) else none := by
  have hunderscore : "_".toList = ['_'] := rfl
  have hdot : ".".toList = ['.'] := rfl
  rw [matched?, body, Pattern.matched?_firstOf]
  simp only [List.findSome?_cons, List.findSome?_nil, Pattern.matched?_char,
    Pattern.matched?_literal hunderscore, Pattern.matched?_literal hdot]
  cases c.rest with
  | nil => rfl
  | cons d rest =>
    cases ha : d.isAlphanum <;> by_cases hu : d = '_' <;> by_cases hd : d = '.' <;>
      simp [CharClass.contains, isIdentChar, kind, ha, hu, hd]

theorem matched?_wordEnd (depth : Nat) (m : Mode) (c : Cursor) :
    (Pattern.notAhead (.rule identChar)).matched? (matched? (depth + 1)) m c
      = if NoneAhead isIdentChar c.rest then some (c, []) else none := by
  rw [Pattern.matched?, Pattern.matched?, matched?_identChar]
  cases hrest : c.rest with
  | nil => simp
  | cons d rest => cases hd : isIdentChar d <;> simp [hd]

/-- **A keyword is taken where the word ahead is that keyword.** -/
theorem matched?_keyword (k : Keyword) (depth : Nat) (m : Mode) (c : Cursor) :
    k.rule.matched? (depth + 2) m c
      = if (wordAhead c.rest).map Char.toLower = k.letters then
          some (c.advance (wordAhead c.rest).length,
            if m.shown then [.token k.rule c.pos (wordAhead c.rest)] else [])
        else none := by
  have hiff := startsWithWord_iff (fun a => Keyword.isLower_of_mem_letters (k := k)) c.rest
  have hlength : k.text.length = k.letters.length := String.length_toList.symm
  rw [matched?_token k.kind_rule, k.body_rule, Pattern.word,
    Pattern.matched?_seq_solid rfl, Pattern.matched?, ← Keyword.letters]
  by_cases hword : (wordAhead c.rest).map Char.toLower = k.letters
  · obtain ⟨hstart, hend⟩ := hiff.2 hword
    have hsame : (wordAhead c.rest).length = k.letters.length := by
      rw [← hword, List.length_map]
    have htake : c.rest.take k.letters.length = wordAhead c.rest := by
      rw [← hsame, take_wordAhead]
    rw [if_pos hword, if_pos hstart, hlength, hsame]
    simp [matched?_wordEnd, hend, htake]
  · rw [if_neg hword]
    by_cases hstart : startsWithWord k.letters c.rest = true
    · have hend : ¬ NoneAhead isIdentChar (c.rest.drop k.letters.length) :=
        fun hend => hword (hiff.1 ⟨hstart, hend⟩)
      rw [if_pos hstart, hlength]
      simp [matched?_wordEnd, hend]
    · rw [if_neg hstart]
      rfl

/-- **A keyword stands ahead if the word ahead is reserved.** -/
theorem matched?_anyKeyword (depth : Nat) (m : Mode) (c : Cursor) :
    (Rule.keyword.matched? (depth + 2) m c).isSome = true ↔ IsReserved (wordAhead c.rest) := by
  have hbody : Rule.keyword.body
      = .seq (.firstOf (.anyCase "and") (Keyword.all.tail.map (.anyCase ·.text)))
          (.notAhead (.rule identChar)) := rfl
  have hfirst : (Pattern.firstOf (.anyCase "and") (Keyword.all.tail.map (.anyCase ·.text))).matched?
        (matched? (depth + 1)) ⟨false, false⟩ c
      = Keyword.all.findSome? fun k =>
          if startsWithWord k.letters c.rest then some (c.advance k.letters.length, []) else none := by
    rw [Pattern.matched?_firstOf]
    rfl
  rw [matched?_token rfl, Option.isSome_map, hbody, Pattern.matched?_seq_solid rfl, hfirst]
  constructor
  · intro h
    obtain ⟨x, hx⟩ := Option.isSome_iff_exists.1 h
    obtain ⟨y, hy, hz⟩ := Option.bind_eq_some_iff.1 hx
    obtain ⟨k, -, hk⟩ := List.exists_of_findSome?_eq_some hy
    refine ⟨k, (startsWithWord_iff (fun a => Keyword.isLower_of_mem_letters) c.rest).1 ?_⟩
    by_cases hstart : startsWithWord k.letters c.rest = true
    · rw [if_pos hstart] at hk
      cases hk
      refine ⟨hstart, ?_⟩
      by_contra hend
      simp [matched?_wordEnd, hend] at hz
    · simp [hstart] at hk
  · rintro ⟨k, hk⟩
    obtain ⟨hstart, hend⟩ :=
      (startsWithWord_iff (fun a => Keyword.isLower_of_mem_letters) c.rest).2 hk
    rw [findSome?_startsWithWord hstart fun k => (c.advance k.letters.length, [])]
    simp [matched?_wordEnd, hend]

/-! ## Identifiers and integers -/

/-- **An identifier is taken where the word ahead is one.** -/
theorem matched?_identifier (depth : Nat) (m : Mode) (c : Cursor) :
    identifier.matched? (depth + 3) m c
      = if IsIdentifier (wordAhead c.rest) then
          some (c.advance (wordAhead c.rest).length,
            if m.shown then [.token identifier c.pos (wordAhead c.rest)] else [])
        else none := by
  have hkeyword : (Pattern.notAhead (.rule keyword)).matched? (matched? (depth + 2))
      ⟨false, false⟩ c = if IsReserved (wordAhead c.rest) then none else some (c, []) := by
    rw [Pattern.matched?, Pattern.matched?]
    simp only [matched?_anyKeyword]
  have hstart : (Pattern.choice (.char .letter) (.literal "_")).matched? (matched? (depth + 2))
      ⟨false, false⟩ c = if c.rest.head?.any isIdentStart then some (c.advance 1, []) else none := by
    rw [Pattern.matched?, Pattern.matched?_char, Pattern.matched?_literal (a := '_') rfl]
    cases c.rest with
    | nil => rfl
    | cons d rest =>
      cases ha : d.isAlpha <;> by_cases hu : d = '_' <;>
        simp [CharClass.contains, isIdentStart, ha, hu]
  have hmany : ∀ c, (Pattern.many (.rule identChar)).matched? (matched? (depth + 2))
      ⟨false, false⟩ c = some (c.advance (wordAhead c.rest).length, []) :=
    Pattern.matched?_many_class rfl (matched?_identChar (depth + 1) ⟨false, false⟩)
  rw [matched?_token rfl, body, Pattern.inOrder, List.foldl_cons, List.foldl_cons, List.foldl_nil,
    Pattern.matched?_seq_solid rfl, Pattern.matched?_seq_solid rfl, hkeyword]
  simp only [isIdentifier_wordAhead_iff]
  by_cases hreserved : IsReserved (wordAhead c.rest)
  · simp [hreserved]
  · simp only [hreserved, if_false, Option.bind_some, hstart]
    cases hrest : c.rest with
    | nil => simp
    | cons d rest =>
      by_cases hd : isIdentStart d = true
      · have hword : wordAhead (d :: rest) = d :: wordAhead rest := by
          rw [wordAhead_cons, if_pos (isIdentChar_of_isIdentStart hd)]
        simp [hd, hmany, hrest, hword, Cursor.advance_advance, Nat.add_comm 1, take_wordAhead]
      · simp [hd]

/-- **An integer is taken where the word ahead is one.** -/
theorem matched?_integer (depth : Nat) (m : Mode) (c : Cursor) :
    integer.matched? (depth + 2) m c
      = if IsInteger (wordAhead c.rest) then
          some (c.advance (wordAhead c.rest).length,
            if m.shown then [.token integer c.pos (wordAhead c.rest)] else [])
        else none := by
  have hmany : ∀ c, (Pattern.many (.char .digit)).matched? (matched? (depth + 1))
      ⟨false, false⟩ c = some (c.advance (c.rest.takeWhile Char.isDigit).length, []) :=
    Pattern.matched?_many_class rfl fun c => Pattern.matched?_char .digit
  rw [matched?_token rfl, body, Pattern.many1, Pattern.matched?_seq_solid rfl,
    Pattern.matched?_seq_solid rfl, Pattern.matched?_char]
  simp only [isInteger_wordAhead_iff]
  cases hrest : c.rest with
  | nil => simp
  | cons d rest =>
    by_cases hd : d.isDigit = true
    · have hdigits : (d :: rest).takeWhile Char.isDigit = d :: rest.takeWhile Char.isDigit := by
        rw [List.takeWhile_cons, if_pos hd]
      by_cases hend : NoneAhead isIdentChar (rest.drop (rest.takeWhile Char.isDigit).length)
      · have hend' : NoneAhead isIdentChar
            ((d :: rest).drop ((d :: rest).takeWhile Char.isDigit).length) := by
          rw [hdigits]
          exact hend
        have hword := takeWhile_isDigit_eq_wordAhead hend'
        simp [CharClass.contains, hd, hmany, hrest, matched?_wordEnd, hend, ← hword, hdigits,
          Cursor.advance_advance, Nat.add_comm 1, take_length_takeWhile]
      · simp [CharClass.contains, hd, hmany, hrest, matched?_wordEnd, hend, hdigits,
          Cursor.advance_advance, Nat.add_comm 1]
    · simp [CharClass.contains, hd]

end Rule

end FilterSql
