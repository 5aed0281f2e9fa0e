import Rulebook.Proofs.Scanner

/-!
# Listings — the tokens of a line cover its ink

The tokens of a line stand in it one behind the other, and between them is nothing but blanks
(`Token.Covers`).  Those up to the first closing bracket are an opening bracket, a count and further
counts behind commas; each of the others is a longest run of characters that are not blank, and its
kind tells which keyword it is.

Every turn of the scanner keeps this of the part of the line behind it (`Scanner.Kept.move`), so it
holds at the end of a run (`Scanner.Kept.run`), and of the line (`Token.scan_covers`).
-/

namespace Rulebook

namespace Token

/-- A token begins before another, and stops before it. -/
structure Before (t u : Token) : Prop where
  start_lt_start : t.start < u.start
  stop_le_start : t.stop ≤ u.start

/-- A place of a line belongs to a token. -/
def Spans (t : Token) (place : Nat) : Prop := t.start ≤ place ∧ place < t.stop

/-- A token of the brackets is written as its kind says. -/
inductive Mark : Token → Prop
  | openBracket {start : Nat} : Mark ⟨.openBracket, ['['], start⟩
  | count {start : Nat} {run : List Char} (hrun : DigitRun run) : Mark ⟨.count, run, start⟩
  | comma {start : Nat} : Mark ⟨.comma, [','], start⟩
  | closeBracket {start : Nat} : Mark ⟨.closeBracket, [']'], start⟩

/-- An opening bracket, a count, and further counts, each behind a comma. -/
structure OpenCounts (tokens : List Token) : Prop where
  kinds : ∃ further, tokens.map (·.kind) =
    .openBracket :: .count :: (List.replicate further [.comma, .count]).flatten
  marks : ∀ t ∈ tokens, t.Mark

/-- A token is a longest run of characters that are not blank in the line from a place on. -/
structure LongestRun (line : List Char) (place : Nat) (t : Token) : Prop where
  place_le_start : place ≤ t.start
  inked : ∀ c ∈ t.text, ¬ Text.isBlank c
  left : t.start = place ∨ BlankAt line (t.start - 1)
  right : t.stop = line.length ∨ BlankAt line t.stop

/-- A word is of the kind of the keyword that it spells, and of its own kind if it spells none. -/
structure Keyed (t : Token) : Prop where
  ifWord : t.kind = .ifWord ↔ t.text = "IF".toList
  thenWord : t.kind = .thenWord ↔ t.text = "THEN".toList
  andWord : t.kind = .andWord ↔ t.text = "AND".toList
  trueWord : t.kind = .trueWord ↔ t.text = "TRUE".toList
  word : t.kind = .word ↔ t.text ∉ ["IF".toList, "THEN".toList, "AND".toList, "TRUE".toList]

/-- The tokens of a line: those in front of the first closing bracket, this bracket, and the words
behind it. -/
structure Parts (line : List Char) (front : List Token) (closing : Token) (words : List Token) :
    Prop where
  counts : OpenCounts front
  first : ∀ t ∈ front, t.kind ≠ .closeBracket
  kind_closing : closing.kind = .closeBracket
  mark_closing : closing.Mark
  runs : ∀ w ∈ words, w.LongestRun line closing.stop
  keyed : ∀ w ∈ words, w.Keyed

/-- Tokens that stand in a line one behind the other, with nothing but blanks between them. -/
structure Covers (line : List Char) (tokens : List Token) : Prop where
  standing : ∀ t ∈ tokens, t.StandsIn line
  ordered : tokens.Pairwise Before
  covered : ∀ place < line.length, (∀ t ∈ tokens, ¬ t.Spans place) → BlankAt line place
  parts : ∃ front closing words, tokens = front ++ closing :: words ∧
    Parts line front closing words

/-! ### Tokens one by one -/

theorem forall_mem_concat {p : Token → Prop} {tokens : List Token} {t : Token}
    (h : ∀ u ∈ tokens, p u) (ht : p t) : ∀ u ∈ tokens ++ [t], p u :=
  List.forall_mem_append.mpr ⟨h, List.forall_mem_singleton.mpr ht⟩

theorem keyed_ofWord (word : List Char) (start : Nat) : (ofWord word start).Keyed := by
  have hif : "IF".toList = ['I', 'F'] := rfl
  have hthen : "THEN".toList = ['T', 'H', 'E', 'N'] := rfl
  have hand : "AND".toList = ['A', 'N', 'D'] := rfl
  have htrue : "TRUE".toList = ['T', 'R', 'U', 'E'] := rfl
  constructor <;> simp only [hif, hthen, hand, htrue, ofWord, keyword?] <;>
    split_ifs with h₁ h₂ h₃ h₄ <;> simp [*]

theorem OpenCounts.kind_ne_closeBracket {tokens : List Token} (h : OpenCounts tokens) :
    ∀ t ∈ tokens, t.kind ≠ .closeBracket := by
  intro t ht hkind
  obtain ⟨further, hkinds⟩ := h.kinds
  have hmem : TokenKind.closeBracket ∈ tokens.map (·.kind) := List.mem_map.mpr ⟨t, ht, hkind⟩
  rw [hkinds] at hmem
  simp at hmem

/-- One word more. -/
theorem Parts.concat {line : List Char} {front words : List Token} {closing t : Token}
    (h : Parts line front closing words) (hrun : t.LongestRun line closing.stop)
    (hkeyed : t.Keyed) : Parts line front closing (words ++ [t]) where
  counts := h.counts
  first := h.first
  kind_closing := h.kind_closing
  mark_closing := h.mark_closing
  runs := forall_mem_concat h.runs hrun
  keyed := forall_mem_concat h.keyed hkeyed

/-- A run is longest where no ink follows it. -/
theorem StandsIn.right_of_noInkAt {line : List Char} {t : Token} (h : t.StandsIn line)
    (hnext : NoInkAt line t.stop) : t.stop = line.length ∨ BlankAt line t.stop := by
  rcases h.stop_le_length.eq_or_lt with heq | hlt
  · exact .inl heq
  · exact .inr (hnext.blankAt hlt)

/-- Where a word begins there is ink. -/
theorem StandsIn.not_noInkAt {line : List Char} {t : Token} (h : t.StandsIn line)
    (hinked : ∀ c ∈ t.text, ¬ Text.isBlank c) : ¬ NoInkAt line t.start := by
  obtain ⟨c, text, hcons⟩ := List.exists_cons_of_ne_nil h.nonempty
  have hhead := congrArg List.head? (h.text.trans hcons)
  have hlt := h.start_lt_stop
  rw [List.extract_eq_take_drop, List.head?_take, if_neg (by omega), List.head?_drop,
    List.head?_cons] at hhead
  exact fun hnone => hinked c (by simp [hcons]) (hnone c hhead)

end Token

/-! ### The line behind the scanner -/

namespace Scanner

variable {line : List Char} {s s' : State} {t : Token} {tokens : List Token}

/-- Where a word may begin behind a place: at the place itself, or behind a blank, or nowhere for
lack of ink. -/
structure Apart (line : List Char) (place position : Nat) : Prop where
  place_le : place ≤ position
  apart : position = place ∨ BlankAt line (position - 1) ∨ NoInkAt line position

/-- The tokens that the scanner has cut off when it comes to a stage. -/
inductive Staged (line : List Char) : Stage → Nat → List Token → Prop
  | opening {position : Nat} : Staged line .opening position []
  | count {position : Nat} {tokens : List Token} (further : Nat)
      (hkinds : tokens.map (·.kind) =
        .openBracket :: (List.replicate further [.count, .comma]).flatten)
      (hmarks : ∀ t ∈ tokens, t.Mark) : Staged line .count position tokens
  | separator {position : Nat} {tokens : List Token} (hcounts : Token.OpenCounts tokens) :
      Staged line .separator position tokens
  | words {position : Nat} {front words : List Token} {closing : Token}
      (hparts : Token.Parts line front closing words)
      (hapart : Apart line closing.stop position) :
      Staged line .words position (front ++ closing :: words)

/-- What holds of the part of a line that the scanner has behind it. -/
structure Kept (line : List Char) (s : State) : Prop where
  standing : ∀ t ∈ s.tokens, t.StandsIn line
  ordered : s.tokens.Pairwise Token.Before
  behind : ∀ t ∈ s.tokens, t.stop ≤ s.position
  covered : ∀ place < s.position, (∃ t ∈ s.tokens, t.Spans place) ∨ BlankAt line place
  staged : Staged line s.stage s.position s.tokens

theorem kept_start (line : List Char) : Kept line .start where
  standing := List.forall_mem_nil _
  ordered := .nil
  behind := List.forall_mem_nil _
  covered := fun _ h => absurd h (Nat.not_lt_zero _)
  staged := .opening

/-- The kinds of counts and commas, with the commas in front or behind. -/
theorem flatten_replicate_append {α : Type} (a b : α) (n : Nat) :
    (List.replicate n [a, b]).flatten ++ [a] = a :: (List.replicate n [b, a]).flatten := by
  induction n with
  | zero => rfl
  | succ n ih =>
      rw [List.replicate_succ, List.flatten_cons, List.append_assoc, ih, List.replicate_succ,
        List.flatten_cons]
      rfl

/-- A blank further, the tokens are still those of the stage. -/
theorem Staged.blank {stage : Stage} {position : Nat} (h : Staged line stage position tokens)
    (hblank : BlankAt line position) : Staged line stage (position + 1) tokens := by
  cases h with
  | opening => exact .opening
  | count further hkinds hmarks => exact .count further hkinds hmarks
  | separator hcounts => exact .separator hcounts
  | words hparts hapart =>
      exact .words hparts ⟨Nat.le_succ_of_le hapart.place_le, .inr (.inl hblank)⟩

theorem Apart.longestRun {place : Nat} (h : Apart line place t.start) (hstands : t.StandsIn line)
    (hinked : ∀ c ∈ t.text, ¬ Text.isBlank c) (hnext : NoInkAt line t.stop) :
    t.LongestRun line place where
  place_le_start := h.place_le
  inked := hinked
  left := by
    rcases h.apart with heq | hblank | hnone
    · exact .inl heq
    · exact .inr hblank
    · exact absurd hnone (hstands.not_noInkAt hinked)
  right := hstands.right_of_noInkAt hnext

theorem Apart.behind {place : Nat} (h : Apart line place t.start) (hstands : t.StandsIn line)
    (hnext : NoInkAt line t.stop) : Apart line place t.stop :=
  ⟨h.place_le.trans hstands.start_lt_stop.le, .inr (.inr hnext)⟩

/-- One token further, the tokens are those of the next stage. -/
theorem Staged.cut {stage stage' : Stage} (h : Staged line stage t.start tokens)
    (hstands : t.StandsIn line) (hcut : Cut line stage t stage') :
    Staged line stage' t.stop (tokens ++ [t]) := by
  cases hcut with
  | opening =>
      cases h
      exact .count 0 rfl (List.forall_mem_singleton.mpr .openBracket)
  | count hrun =>
      cases h with
      | count further hkinds hmarks =>
          refine .separator ⟨⟨further, ?_⟩, Token.forall_mem_concat hmarks (.count hrun)⟩
          rw [List.map_append, hkinds, List.map_singleton, List.cons_append,
            flatten_replicate_append]
  | comma =>
      cases h with
      | separator hcounts =>
          obtain ⟨further, hkinds⟩ := hcounts.kinds
          refine .count (further + 1) ?_ (Token.forall_mem_concat hcounts.marks .comma)
          rw [List.map_append, hkinds, List.map_singleton, List.cons_append, List.cons_append,
            flatten_replicate_append]
          rfl
  | closing =>
      cases h with
      | separator hcounts =>
          refine .words ?_ ⟨le_rfl, .inl rfl⟩
          exact ⟨hcounts, hcounts.kind_ne_closeBracket, rfl, .closeBracket, List.forall_mem_nil _,
            List.forall_mem_nil _⟩
  | word hinked hnext =>
      cases h with
      | words hparts hapart =>
          rw [List.append_assoc, List.cons_append]
          have hrun := hapart.longestRun hstands hinked hnext
          exact .words (hparts.concat hrun (Token.keyed_ofWord _ _))
            (hapart.behind hstands hnext)

theorem Kept.blank (h : Kept line s) (hblank : BlankAt line s.position) :
    Kept line { s with position := s.position + 1 } where
  standing := h.standing
  ordered := h.ordered
  behind t ht := Nat.le_succ_of_le (h.behind t ht)
  covered place hplace := by
    rcases Nat.lt_succ_iff_lt_or_eq.mp hplace with hlt | rfl
    · exact h.covered place hlt
    · exact .inr hblank
  staged := h.staged.blank hblank

theorem Kept.cut (h : Kept line s) {stage : Stage} (hstart : t.start = s.position)
    (hstands : t.StandsIn line) (hcut : Cut line s.stage t stage) : Kept line (s.cut t stage) := by
  have hlt := hstands.start_lt_stop
  have hbehind : ∀ u ∈ s.tokens, u.stop ≤ t.start := hstart ▸ h.behind
  have hstaged : Staged line s.stage t.start s.tokens := hstart ▸ h.staged
  refine ⟨Token.forall_mem_concat h.standing hstands, ?_,
    Token.forall_mem_concat (fun u hu => (hbehind u hu).trans hlt.le) le_rfl,
    fun place hplace => ?_, hstaged.cut hstands hcut⟩
  · refine List.pairwise_append.mpr ⟨h.ordered, List.pairwise_singleton _ _, fun u hu v hv => ?_⟩
    rw [List.mem_singleton.mp hv]
    exact ⟨(h.standing u hu).start_lt_stop.trans_le (hbehind u hu), hbehind u hu⟩
  · by_cases hlater : t.start ≤ place
    · exact .inl ⟨t, List.mem_append_right _ List.mem_cons_self, hlater, hplace⟩
    · rw [hstart, Nat.not_le] at hlater
      refine (h.covered place hlater).imp_left fun ⟨u, hu, hspans⟩ => ?_
      exact ⟨u, List.mem_append_left _ hu, hspans⟩

/-- **A move keeps what holds of the line behind the scanner.** -/
theorem Kept.move (h : Kept line s) (hmove : Move line s s') : Kept line s' := by
  cases hmove with
  | blank hblank => exact h.blank hblank
  | token hstart hstands hcut => exact h.cut hstart hstands hcut

/-- A run that ends with tokens has the whole line behind it. -/
theorem Kept.run {turns : Nat} (h : Kept line s) (hends : Ends line s turns (.ok tokens)) :
    ∃ position, line.length ≤ position ∧ Kept line ⟨.words, position, tokens⟩ := by
  generalize hresult : Except.ok tokens = result at hends
  induction hends with
  | @last s result hturn =>
      subst hresult
      obtain ⟨hle, hstage, htokens⟩ := of_turn_eq_ends_ok hturn
      obtain ⟨stage, position, tokens⟩ := s
      cases hstage
      cases htokens
      exact ⟨position, hle, h⟩
  | next hturn _ ih => exact ih (h.move (move_of_turn hturn)) hresult

/-- With the whole line behind the scanner its tokens cover the line. -/
theorem Kept.covers {position : Nat} (h : Kept line ⟨.words, position, tokens⟩)
    (hle : line.length ≤ position) : Token.Covers line tokens where
  standing := h.standing
  ordered := h.ordered
  covered place hlt hout := by
    rcases h.covered place (hlt.trans_le hle) with ⟨t, ht, hspans⟩ | hblank
    · exact absurd hspans (hout t ht)
    · exact hblank
  parts := by
    have hstaged : Staged line .words position tokens := h.staged
    cases hstaged with
    | words hparts => exact ⟨_, _, _, rfl, hparts⟩

end Scanner

/-- **Nothing but blanks is lost of a line, and its scanner comes to an end on every line.** -/
theorem Token.scan_covers (line : List Char) :
    (∃ turns ≤ line.length + 1, Scanner.Ends line .start turns (scan line)) ∧
      ∀ tokens, scan line = .ok tokens → Covers line tokens := by
  obtain ⟨turns, hturns, hends⟩ := Scanner.exists_ends line
  refine ⟨⟨turns, hturns, hends⟩, fun tokens htokens => ?_⟩
  rw [htokens] at hends
  obtain ⟨position, hle, hkept⟩ := (Scanner.kept_start line).run hends
  exact hkept.covers hle

/-- A line with a word that touches its bracket, with blanks and digits beyond ASCII, and with words
that only look like keywords. -/
def tightLine : List Char := "[3,\u00a0\u0664 ]IF\tTRUEST>=1 if THEN y=\u2003A -0.0 ".toList

def tightTokens : List Token :=
  [⟨.openBracket, ['['], 0⟩, ⟨.count, ['3'], 1⟩, ⟨.comma, [','], 2⟩, ⟨.count, ['\u0664'], 4⟩,
    ⟨.closeBracket, [']'], 6⟩, ⟨.ifWord, "IF".toList, 7⟩, ⟨.word, "TRUEST>=1".toList, 10⟩,
    ⟨.word, "if".toList, 20⟩, ⟨.thenWord, "THEN".toList, 23⟩, ⟨.word, "y=".toList, 28⟩,
    ⟨.word, "A".toList, 31⟩, ⟨.word, "-0.0".toList, 33⟩]

theorem Token.scan_covers_tightLine :
    scan tightLine = .ok tightTokens ∧ Covers tightLine tightTokens := by
  have hscan : scan tightLine = .ok tightTokens := by decide +kernel
  exact ⟨hscan, (scan_covers tightLine).2 tightTokens hscan⟩

end Rulebook
