import Mathlib.Data.List.TakeWhile
import Rulebook.Proofs.LineGrammar

/-!
# Listings — the tokens of a line and its pieces

The reader of brackets accepts what `Bracketed` describes, and answers the runs of digits and the
text behind them (`Token.readBrackets_eq_ok_iff`).  The reader of words answers the words of any
text, one token for each (`Token.readWords_of_worded`, `exists_worded`).  A token knows where its
word stands in the line, so the text between two tokens is the source of their words
(`Line.between_tokensAt`).
-/

namespace Rulebook

/-! ### Runs of characters -/

/-- A digit is one of the ten of its script. -/
theorem exists_first_of_isDigit {c : Char} (h : Text.isDigit c) :
    ∃ first ∈ Text.digitZeros, ∃ k < 10, c.toNat = first + k := by
  unfold Text.isDigit Text.digit? at h
  split_ifs at h with hascii hdigit
  · have hlow : 0x30 ≤ c.toNat := hdigit.1
    have hhigh : c.toNat ≤ 0x39 := hdigit.2
    exact ⟨0x30, by decide, c.toNat - 0x30, by omega, by omega⟩
  · cases h
  · rw [Option.isSome_map, List.find?_isSome] at h
    obtain ⟨first, hmem, hrange⟩ := h
    simp only [Bool.and_eq_true, decide_eq_true_eq] at hrange
    exact ⟨first, hmem, c.toNat - first, by omega, by omega⟩

/-- The digits lie between the blanks, and those that are not ASCII behind its letters. -/
theorem toNat_of_isDigit {c : Char} (h : Text.isDigit c) :
    (0x30 ≤ c.toNat ∧ c.toNat < 0x3a) ∨ (0xa0 < c.toNat ∧ c.toNat < 0x1680) ∨
      (0x1680 < c.toNat ∧ c.toNat < 0x2000) ∨ 0x3000 < c.toNat := by
  have htable : ∀ first ∈ Text.digitZeros, first = 0x30 ∨
      (0xa0 < first ∧ first + 10 ≤ 0x1680) ∨ (0x1680 < first ∧ first + 10 ≤ 0x2000) ∨
      0x3000 < first := by
    decide
  obtain ⟨first, hmem, k, hk, hc⟩ := exists_first_of_isDigit h
  have hfirst := htable first hmem
  omega

theorem isBlank_of_isDigit {c : Char} (h : Text.isDigit c) : Text.isBlank c = false := by
  have hc := toNat_of_isDigit h
  simp only [Text.isBlank, Bool.or_eq_false_iff, Bool.and_eq_false_iff, decide_eq_false_iff_not,
    beq_eq_false_iff_ne]
  omega

theorem isDigit_of_isBlank {c : Char} (h : Text.isBlank c) : Text.isDigit c = false := by
  by_contra hdigit
  rw [Bool.not_eq_false] at hdigit
  rw [isBlank_of_isDigit hdigit] at h
  cases h

/-- A run ends where a character outside comes next. -/
theorem span_append {α : Type} {p : α → Bool} {run rest : List α} (hrun : ∀ a ∈ run, p a)
    (hrest : ∀ a ∈ rest.head?, p a = false) :
    (run ++ rest).takeWhile p = run ∧ (run ++ rest).dropWhile p = rest := by
  rw [List.takeWhile_append_of_pos hrun, List.dropWhile_append_of_pos hrun]
  cases rest with
  | nil => exact ⟨List.append_nil run, rfl⟩
  | cons a rest =>
      have ha : ¬ p a := Bool.eq_false_iff.mp (hrest a rfl)
      rw [List.takeWhile_cons_of_neg ha, List.dropWhile_cons_of_neg ha, List.append_nil]
      exact ⟨rfl, rfl⟩

/-- Where two texts are joined, the last piece of the one and the first piece of the other become
one piece. -/
theorem exists_splitOnP_append {α : Type} (p : α → Bool) (xs ys : List α) :
    ∃ before last first after, xs.splitOnP p = before ++ [last] ∧
      ys.splitOnP p = first :: after ∧
      (xs ++ ys).splitOnP p = before ++ (last ++ first) :: after := by
  obtain ⟨first, after, hys⟩ := List.exists_cons_of_ne_nil (List.splitOnP_ne_nil p ys)
  induction xs with
  | nil => exact ⟨[], [], first, after, rfl, hys, hys⟩
  | cons x xs ih =>
      obtain ⟨before, last, _, _, hxs, heq, hjoined⟩ := ih
      cases hys.symm.trans heq
      rw [List.cons_append, List.splitOnP_cons_eq_if_modifyHead,
        List.splitOnP_cons_eq_if_modifyHead, hxs, hjoined]
      by_cases hx : p x
      · rw [if_pos hx, if_pos hx]
        exact ⟨[] :: before, last, first, after, rfl, hys, rfl⟩
      · rw [if_neg hx, if_neg hx]
        cases before with
        | nil => exact ⟨[], x :: last, first, after, rfl, hys, rfl⟩
        | cons piece before => exact ⟨(x :: piece) :: before, last, first, after, rfl, hys, rfl⟩

/-- What follows a run does not belong to it. -/
theorem eq_false_of_mem_head?_dropWhile {α : Type} {p : α → Bool} {l : List α} {a : α}
    (h : a ∈ (l.dropWhile p).head?) : p a = false := by
  have hnot := List.head?_dropWhile_not p l
  rw [Option.mem_def.mp h] at hnot
  exact hnot

namespace Token

variable {position : Nat} {cs rest : List Char} {runs : List (List Char)}

theorem skipBlanks_append {gap : List Char} (hgap : Blank gap) {c : Char}
    (hc : Text.isBlank c = false) (position : Nat) (rest : List Char) :
    skipBlanks position (gap ++ c :: rest) = (position + gap.length, c :: rest) := by
  have hhead : ∀ d ∈ (c :: rest).head?, Text.isBlank d = false := by simpa using hc
  obtain ⟨htake, hdrop⟩ := span_append hgap hhead
  rw [skipBlanks, htake, hdrop]

/-- What is skipped is a gap. -/
theorem exists_gap (position : Nat) (cs : List Char) :
    ∃ gap, Blank gap ∧ cs = gap ++ (skipBlanks position cs).2 ∧
      (skipBlanks position cs).1 = position + gap.length :=
  ⟨cs.takeWhile Text.isBlank, fun _ => List.mem_takeWhile_imp,
    List.takeWhile_append_dropWhile.symm, rfl⟩

/-! ### Brackets -/

/-- The texts of the counts among some tokens. -/
def countTexts (tokens : List Token) : List (List Char) :=
  (tokens.filter (·.kind = .count)).map (·.text)

/-- The digits with which a text begins behind its first blanks. -/
def firstRun (cs : List Char) : List Char := (cs.dropWhile Text.isBlank).takeWhile Text.isDigit

/-- What stands behind these digits and the blanks that follow them. -/
def behindRun (cs : List Char) : List Char :=
  ((cs.dropWhile Text.isBlank).dropWhile Text.isDigit).dropWhile Text.isBlank

theorem length_behindRun_le (cs : List Char) : (behindRun cs).length ≤ cs.length :=
  ((List.dropWhile_suffix _).trans
    ((List.dropWhile_suffix _).trans (List.dropWhile_suffix _))).length_le

/-- Where the digits of a text at `position` begin. -/
def runStart (position : Nat) (cs : List Char) : Nat :=
  position + (cs.takeWhile Text.isBlank).length

/-- Where the text goes on behind its digits. -/
def runStop (position : Nat) (cs : List Char) : Nat :=
  runStart position cs + (firstRun cs).length +
    (((cs.dropWhile Text.isBlank).dropWhile Text.isDigit).takeWhile Text.isBlank).length

/-- How counts are read. -/
theorem readCounts_eq (position : Nat) (cs : List Char) :
    readCounts position cs =
      let start := runStart position cs
      let next := runStop position cs
      if firstRun cs = [] then
        .error (.malformed
          (if cs.dropWhile Text.isBlank = [] then .noClosingBracket else .noCount) (start + 1))
      else match behindRun cs with
        | [] => .error (.malformed .noClosingBracket (next + 1))
        | c :: rest =>
          if c = ',' then
            (readCounts (next + 1) rest).map fun k =>
              { k with tokens := ⟨.count, firstRun cs, start⟩ :: ⟨.comma, [','], next⟩ :: k.tokens }
          else if c = ']' then
            .ok ⟨[⟨.count, firstRun cs, start⟩, ⟨.closeBracket, [']'], next⟩], next + 1, rest⟩
          else .error (.malformed .noSeparator (next + 1)) := by
  rw [readCounts]
  dsimp only
  by_cases hrun : firstRun cs = []
  · rw [if_pos hrun, if_pos (show (skipBlanks position cs).2.takeWhile Text.isDigit = [] from hrun)]
    rfl
  · rw [if_neg hrun, if_neg (show (skipBlanks position cs).2.takeWhile Text.isDigit ≠ [] from hrun)]
    -- the reader keeps an equation for its measure, so its match is opened by cases
    cases hbehind : behindRun cs with
    | nil =>
        split
        next => rfl
        next hnext => cases hbehind.symm.trans hnext
    | cons c rest =>
        split
        next hnext => cases hbehind.symm.trans hnext
        next hnext =>
          cases hbehind.symm.trans hnext
          dsimp only
          split_ifs
          · have hstop : (skipBlanks
                (stop ⟨.count, (skipBlanks position cs).2.takeWhile Text.isDigit,
                  (skipBlanks position cs).1⟩)
                ((skipBlanks position cs).2.dropWhile Text.isDigit)).1 = runStop position cs := rfl
            rw [hstop]
            cases readCounts (runStop position cs + 1) rest <;> rfl
          · rfl
          · rfl

/-- A count, and what stands behind it but for blanks. -/
theorem readCounts_step {left run right : List Char} (hleft : Blank left) (hrun : DigitRun run)
    (hright : Blank right) {c : Char} (hblank : Text.isBlank c = false)
    (hdigit : Text.isDigit c = false) (position : Nat) (rest : List Char) :
    readCounts position (left ++ (run ++ (right ++ c :: rest))) =
      let count : Token := ⟨.count, run, position + left.length⟩
      let next := position + (left ++ (run ++ right)).length
      if c = ',' then
        (readCounts (next + 1) rest).map fun k =>
          { k with tokens := count :: ⟨.comma, [','], next⟩ :: k.tokens }
      else if c = ']' then .ok ⟨[count, ⟨.closeBracket, [']'], next⟩], next + 1, rest⟩
      else .error (.malformed .noSeparator (next + 1)) := by
  obtain ⟨hne, hdigits⟩ := hrun
  -- no blank is a digit, so each of the three pieces ends where the next begins
  have hblanks : ∀ d ∈ (run ++ (right ++ c :: rest)).head?, Text.isBlank d = false := by
    cases run with
    | nil => exact absurd rfl hne
    | cons d run => simpa using isBlank_of_isDigit (hdigits d List.mem_cons_self)
  have hdigit' : ∀ d ∈ (right ++ c :: rest).head?, Text.isDigit d = false := by
    cases right with
    | nil => simpa using hdigit
    | cons b right => simpa using isDigit_of_isBlank (hright b List.mem_cons_self)
  have hblank' : ∀ d ∈ (c :: rest).head?, Text.isBlank d = false := by simpa using hblank
  obtain ⟨hleft, hbehind⟩ := span_append hleft hblanks
  obtain ⟨hrun, hbehind'⟩ := span_append hdigits hdigit'
  obtain ⟨hright, hnext⟩ := span_append hright hblank'
  rw [readCounts_eq, runStop, runStart, firstRun, behindRun, hleft, hbehind, hrun, hbehind', hright,
    hnext, if_neg hne]
  simp only [List.length_append, Nat.add_assoc]

theorem readCounts_of_countsText {text : List Char} (h : CountsText text runs) (position : Nat)
    (rest : List Char) :
    ∃ tokens, countTexts tokens = runs ∧ readCounts position (text ++ ']' :: rest) =
      .ok ⟨tokens, position + text.length + 1, rest⟩ := by
  induction h generalizing position with
  | @last left run right hleft hrun hright =>
      have hstep := readCounts_step hleft hrun hright (c := ']') rfl rfl position rest
      let closing : Token := ⟨.closeBracket, [']'], position + (left ++ (run ++ right)).length⟩
      refine ⟨[⟨.count, run, position + left.length⟩, closing], rfl, ?_⟩
      rw [List.append_assoc, List.append_assoc, hstep]
      rfl
  | @more left run right text runs hleft hrun hright _ ih =>
      obtain ⟨tokens, htokens, hread⟩ := ih (position + (left ++ (run ++ right)).length + 1)
      have hstep := readCounts_step hleft hrun hright (c := ',') rfl rfl position
        (text ++ ']' :: rest)
      let comma : Token := ⟨.comma, [','], position + (left ++ (run ++ right)).length⟩
      refine ⟨⟨.count, run, position + left.length⟩ :: comma :: tokens, ?_, ?_⟩
      · exact congrArg (run :: ·) htokens
      · have hlength : position + (left ++ (run ++ right)).length + 1 + text.length + 1 =
            position + (left ++ (run ++ (right ++ ',' :: text))).length + 1 := by
          simp only [List.length_append, List.length_cons]
          omega
        rw [List.append_assoc, List.append_assoc, List.append_assoc, List.cons_append, hstep,
          ← hlength]
        simp only [hread]
        rfl

/-- What the reader of counts takes for one count. -/
theorem exists_pieces (position : Nat) (cs : List Char)
    (hdigits : (skipBlanks position cs).2.takeWhile Text.isDigit ≠ []) :
    let run := (skipBlanks position cs).2.takeWhile Text.isDigit
    let count : Token := ⟨.count, run, (skipBlanks position cs).1⟩
    let next := skipBlanks count.stop ((skipBlanks position cs).2.dropWhile Text.isDigit)
    ∃ left right, Blank left ∧ DigitRun run ∧ Blank right ∧
      cs = left ++ (run ++ (right ++ next.2)) ∧
      next.1 = position + (left ++ (run ++ right)).length := by
  intro run count next
  obtain ⟨left, hleft, hcs, hstart⟩ := exists_gap position cs
  obtain ⟨right, hright, hrest, hnext⟩ :=
    exists_gap count.stop ((skipBlanks position cs).2.dropWhile Text.isDigit)
  refine ⟨left, right, hleft, ⟨hdigits, fun _ => List.mem_takeWhile_imp⟩, hright, ?_, ?_⟩
  · rw [← hrest, List.takeWhile_append_dropWhile, ← hcs]
  · have hstop : count.stop = (skipBlanks position cs).1 + run.length := rfl
    change (skipBlanks count.stop _).1 = _
    rw [hnext, hstop, hstart, List.length_append, List.length_append]
    omega

/-- The reader of counts reads nothing else. -/
theorem exists_countsText_of_readCounts (position : Nat) (cs : List Char) :
    ∀ {counts : Counts}, readCounts position cs = .ok counts →
      ∃ text, CountsText text (countTexts counts.tokens) ∧ cs = text ++ ']' :: counts.rest ∧
        counts.position = position + text.length + 1 := by
  fun_induction readCounts position cs with
  | case1 | case2 | case4 | case6 => exact nofun
  | case3 position cs start text digits hne count next rest counts hread hnext =>
      -- a comma, behind which the induction hypothesis reads
      rename_i ih
      rintro _ ⟨⟩
      obtain ⟨left, right, hleft, hrun, hright, hcs, hposition⟩ := exists_pieces position cs hne
      obtain ⟨text', htext, hrest, hposition'⟩ := ih hread
      refine ⟨_, .more hleft hrun hright htext, ?_, ?_⟩
      · rw [hcs]
        change left ++ (digits ++ (right ++ next.2)) = _
        simp only [hnext, hrest, List.append_assoc, List.cons_append]
        rfl
      · have hlength : (left ++ (digits ++ (right ++ ',' :: text'))).length =
            (left ++ (digits ++ right)).length + 1 + text'.length := by
          simp only [List.length_append, List.length_cons]
          omega
        change next.1 = position + (left ++ (digits ++ right)).length at hposition
        change counts.position = position + (left ++ (digits ++ (right ++ ',' :: text'))).length + 1
        rw [hposition', hposition, hlength]
        omega
  | case5 position cs start text digits hne count next rest hnext =>
      -- the closing bracket
      rintro _ ⟨⟩
      obtain ⟨left, right, hleft, hrun, hright, hcs, hposition⟩ := exists_pieces position cs hne
      refine ⟨_, .last hleft hrun hright, ?_, ?_⟩
      · rw [hcs]
        change left ++ (digits ++ (right ++ next.2)) = _
        simp only [hnext, List.append_assoc]
        rfl
      · change next.1 + 1 = _
        exact congrArg (· + 1) hposition

theorem readBrackets_of_open {line rest : List Char}
    (h : line.dropWhile Text.isBlank = '[' :: rest) :
    readBrackets line = (readCounts (runStart 0 line + 1) rest).map fun k =>
      { k with tokens := ⟨.openBracket, ['['], runStart 0 line⟩ :: k.tokens } := by
  rw [readBrackets]
  dsimp only
  split
  next rest' hopen =>
    cases hopen.symm.trans h
    change _ = (readCounts ((skipBlanks 0 line).1 + 1) rest).map _
    cases readCounts ((skipBlanks 0 line).1 + 1) rest <;> rfl
  next hopen => exact absurd h (hopen rest)

theorem readBrackets_of_not_open {line : List Char}
    (h : ∀ rest, line.dropWhile Text.isBlank ≠ '[' :: rest) :
    readBrackets line = .error (.malformed .noOpeningBracket (runStart 0 line + 1)) := by
  rw [readBrackets]
  dsimp only
  split
  next rest hopen => exact absurd hopen (h rest)
  next => rfl

/-- The reader of brackets reads what `Bracketed` describes. -/
theorem readBrackets_of_bracketed {line : List Char} (h : Bracketed line runs rest) :
    ∃ counts, readBrackets line = .ok counts ∧ countTexts counts.tokens = runs ∧
      counts.rest = rest := by
  cases h with
  | @intro left text rest runs hleft hcounts =>
      obtain ⟨tokens, htokens, hread⟩ := readCounts_of_countsText hcounts (left.length + 1) rest
      have hskip := skipBlanks_append hleft (c := '[') rfl 0 (text ++ ']' :: rest)
      rw [Nat.zero_add] at hskip
      have hbrackets : readBrackets (left ++ '[' :: (text ++ ']' :: rest)) =
          .ok ⟨⟨.openBracket, ['['], left.length⟩ :: tokens, left.length + 1 + text.length + 1,
            rest⟩ := by
        rw [readBrackets, hskip]
        simp only [hread]
      exact ⟨_, hbrackets, htokens, rfl⟩

/-- It reads nothing else, and stops where the rest of the line begins. -/
theorem bracketed_of_readBrackets {line : List Char} {counts : Counts}
    (h : readBrackets line = .ok counts) :
    Bracketed line (countTexts counts.tokens) counts.rest ∧
      line.drop counts.position = counts.rest := by
  obtain ⟨left, hleft, hline, hstart⟩ := exists_gap 0 line
  rw [readBrackets] at h
  generalize skipBlanks 0 line = skipped at hline hstart h
  obtain ⟨start, text⟩ := skipped
  dsimp only at hline hstart h
  split at h
  next rest =>
      cases hcounts : readCounts (start + 1) rest with
      | error e => rw [hcounts] at h; cases h
      | ok counts' =>
          rw [hcounts] at h
          cases h
          obtain ⟨text', htext', hrest, hposition⟩ := exists_countsText_of_readCounts _ _ hcounts
          rw [hrest] at hline
          subst hline
          refine ⟨.intro hleft htext', ?_⟩
          have hsplit : left ++ '[' :: (text' ++ ']' :: counts'.rest) =
              (left ++ '[' :: (text' ++ [']'])) ++ counts'.rest := by
            simp only [List.append_assoc, List.cons_append, List.nil_append]
          have hlength : counts'.position = (left ++ '[' :: (text' ++ [']'])).length := by
            simp only [List.length_append, List.length_cons, List.length_nil]
            omega
          rw [hsplit]
          exact List.drop_left' hlength.symm
  next => cases h

end Token

/-! ### Words -/

namespace Worded

variable {cs : List Char} {w : SpacedWord} {ws : List SpacedWord}

theorem nil_iff : Worded cs [] ↔ Blank cs := by
  constructor
  · rintro ⟨⟨trailing, htrailing, rfl⟩, -⟩
    exact htrailing
  · intro h
    exact ⟨⟨cs, h, rfl⟩, nofun, nofun, nofun, nofun⟩

/-- The first word, and the words of what follows it. -/
theorem cons_iff : Worded cs (w :: ws) ↔
    Blank w.gap ∧ w.word ≠ [] ∧ (∀ c ∈ w.word, ¬ Text.isBlank c) ∧
      ∃ rest, cs = w.gap ++ (w.word ++ rest) ∧ Worded rest ws ∧
        ∀ c ∈ rest.head?, Text.isBlank c := by
  constructor
  · rintro ⟨⟨trailing, htrailing, rfl⟩, hnonempty, hinked, hgaps, hapart⟩
    rw [List.forall_mem_cons] at hnonempty hinked hgaps
    refine ⟨hgaps.1, hnonempty.1, hinked.1, SpacedWord.text ws ++ trailing, ?_,
      ⟨⟨trailing, htrailing, rfl⟩, hnonempty.2, hinked.2, hgaps.2, fun v hv => ?_⟩, ?_⟩
    · simp only [SpacedWord.text_cons, List.append_assoc]
    · exact hapart v (List.mem_of_mem_tail hv)
    · -- behind the word stands a gap or the end
      intro c hc
      cases ws with
      | nil => exact htrailing c (List.mem_of_head? hc)
      | cons v vs =>
          obtain ⟨b, gap, hgap⟩ := List.exists_cons_of_ne_nil (hapart v List.mem_cons_self)
          have hblank : Text.isBlank b := hgaps.2 v List.mem_cons_self b (by simp [hgap])
          have hc' : c ∈ (b :: gap ++ (v.word ++ (SpacedWord.text vs ++ trailing))).head? := by
            simpa only [SpacedWord.text_cons, hgap, List.append_assoc] using hc
          obtain rfl : b = c := Option.some.inj hc'
          exact hblank
  · rintro ⟨hgap, hne, hword, rest, rfl, ⟨⟨trailing, htrailing, rfl⟩, hnonempty, hinked, hgaps,
      hapart⟩, hrest⟩
    refine ⟨⟨trailing, htrailing, ?_⟩, ?_, ?_, ?_, fun v hv => ?_⟩
    · simp only [SpacedWord.text_cons, List.append_assoc]
    · exact List.forall_mem_cons.mpr ⟨hne, hnonempty⟩
    · exact List.forall_mem_cons.mpr ⟨hword, hinked⟩
    · exact List.forall_mem_cons.mpr ⟨hgap, hgaps⟩
    · cases ws with
      | nil => cases hv
      | cons first ws =>
          rcases List.mem_cons.mp hv with rfl | hv
          · -- without a gap the next word would touch this one
            intro hgap
            obtain ⟨b, word, hword⟩ :=
              List.exists_cons_of_ne_nil (hnonempty v List.mem_cons_self)
            refine hinked v List.mem_cons_self b (by simp [hword]) (hrest b ?_)
            simp [hgap, hword]
          · exact hapart v hv

end Worded

namespace Token

/-- The tokens of words that begin at a position. -/
def ofWords (position : Nat) : List SpacedWord → List Token
  | [] => []
  | w :: ws =>
    ofWord w.word (position + w.gap.length) ::
      ofWords (position + (w.gap ++ w.word).length) ws

/-- The reader of words answers the words. -/
theorem readWords_of_worded {ws : List SpacedWord} (h : Worded cs ws) (position : Nat) :
    readWords position cs = ofWords position ws := by
  induction ws generalizing position cs with
  | nil =>
      have hskip : (skipBlanks position cs).2 = [] :=
        List.dropWhile_eq_nil_iff.mpr (Worded.nil_iff.mp h)
      rw [readWords]
      split
      next => rfl
      next hword =>
        rw [hskip] at hword
        cases hword
  | cons w ws ih =>
      obtain ⟨hgap, hne, hword, rest, rfl, hrest, hhead⟩ := Worded.cons_iff.mp h
      obtain ⟨c, word, hcons⟩ := List.exists_cons_of_ne_nil hne
      have hskip : skipBlanks position (w.gap ++ (w.word ++ rest)) =
          (position + w.gap.length, w.word ++ rest) := by
        have hc : Text.isBlank c = false := by simpa using hword c (by simp [hcons])
        rw [hcons]
        exact skipBlanks_append hgap hc _ _
      have hword' : ∀ d ∈ w.word, !Text.isBlank d := by simpa using hword
      have hhead' : ∀ d ∈ rest.head?, (!Text.isBlank d) = false := by simpa using hhead
      obtain ⟨htake, hdrop⟩ := span_append hword' hhead'
      rw [readWords]
      split
      next hnil =>
        rw [hskip, htake] at hnil
        exact absurd hnil hne
      next =>
        simp only [hskip, htake, hdrop, ih hrest, ofWords, List.length_append, Nat.add_assoc]

/-- Every text has words. -/
theorem exists_worded (position : Nat) (cs : List Char) : ∃ ws, Worded cs ws := by
  fun_induction readWords position cs with
  | case1 position cs text word hword =>
      refine ⟨[], Worded.nil_iff.mpr (List.dropWhile_eq_nil_iff.mp ?_)⟩
      change text = []
      cases htext : text with
      | nil => rfl
      | cons c rest =>
          have hmem : c ∈ (cs.dropWhile Text.isBlank).head? := by
            change c ∈ text.head?
            rw [htext]
            rfl
          have hc : Text.isBlank c = false := eq_false_of_mem_head?_dropWhile hmem
          have hword' : word = text.takeWhile fun c => !Text.isBlank c := rfl
          rw [hword', htext, List.takeWhile_cons, hc] at hword
          cases hword
  | case2 position cs start text word c rest hword ih =>
      obtain ⟨ws, hws⟩ := ih
      obtain ⟨gap, hgap, hcs, -⟩ := exists_gap position cs
      refine ⟨⟨gap, word⟩ :: ws, Worded.cons_iff.mpr ⟨hgap, by simp [hword], ?_, _, ?_, hws, ?_⟩⟩
      · intro c hc
        simpa using List.mem_takeWhile_imp hc
      · rw [List.takeWhile_append_dropWhile]
        exact hcs
      · intro c hc
        simpa using eq_false_of_mem_head?_dropWhile hc

theorem ofWords_append (position : Nat) (us vs : List SpacedWord) :
    ofWords position (us ++ vs) =
      ofWords position us ++ ofWords (position + (SpacedWord.text us).length) vs := by
  induction us generalizing position with
  | nil => rfl
  | cons u us ih =>
      have hlength : position + (u.gap ++ u.word).length + (SpacedWord.text us).length =
          position + (SpacedWord.text (u :: us)).length := by
        simp only [SpacedWord.text_cons, List.length_append]
        omega
      rw [List.cons_append, ofWords, ofWords, ih, hlength, List.cons_append]

/-- A word behind others. -/
theorem ofWords_concat (position : Nat) (ws : List SpacedWord) (w : SpacedWord) :
    ofWords position (ws ++ [w]) = ofWords position ws ++
      [ofWord w.word (position + (SpacedWord.text ws).length + w.gap.length)] :=
  ofWords_append position ws [w]

theorem exists_of_mem_ofWords {position : Nat} {ws : List SpacedWord} {t : Token}
    (h : t ∈ ofWords position ws) : ∃ w ∈ ws, ∃ start, t = ofWord w.word start := by
  induction ws generalizing position with
  | nil => cases h
  | cons w ws ih =>
      rcases List.mem_cons.mp h with rfl | h
      · exact ⟨w, List.mem_cons_self, _, rfl⟩
      · obtain ⟨v, hv, start, ht⟩ := ih h
        exact ⟨v, List.mem_cons_of_mem w hv, start, ht⟩

@[simp]
theorem ofWords_eq_nil_iff {position : Nat} {ws : List SpacedWord} :
    ofWords position ws = [] ↔ ws = [] := by
  cases ws <;> simp [ofWords]

/-- The last token stops where the words end. -/
theorem stop_getLast_ofWords {position : Nat} {ws : List SpacedWord}
    (h : ofWords position ws ≠ []) :
    ((ofWords position ws).getLast h).stop = position + (SpacedWord.text ws).length := by
  induction ws generalizing position with
  | nil => exact absurd rfl h
  | cons w ws ih =>
      cases ws with
      | nil =>
          simp only [ofWords, List.getLast_singleton, SpacedWord.text_cons, SpacedWord.text_nil,
            List.length_append, List.length_nil]
          change position + w.gap.length + w.word.length = _
          omega
      | cons v vs =>
          rw [ofWords] at h
          simp only [ofWords.eq_2 position w]
          rw [List.getLast_cons (by simp), ih]
          simp only [SpacedWord.text_cons, List.length_append]
          omega

end Token

/-- Words that stand at a position of a line, with the blanks before each. -/
def SpacedWord.StandAt (line : List Char) (position : Nat) (ws : List SpacedWord) : Prop :=
  SpacedWord.text ws <+: line.drop position

/-- The words of what follows a position stand there. -/
theorem Worded.standAt {line rest : List Char} {position : Nat} {ws : List SpacedWord}
    (h : Worded rest ws) (hdrop : line.drop position = rest) :
    SpacedWord.StandAt line position ws := by
  obtain ⟨trailing, -, htext⟩ := h.text
  exact ⟨trailing, by rw [hdrop, htext]⟩

/-- Some words and those behind them. -/
theorem SpacedWord.standAt_append {line : List Char} {position : Nat} {us vs : List SpacedWord}
    (h : StandAt line position (us ++ vs)) :
    StandAt line position us ∧ StandAt line (position + (SpacedWord.text us).length) vs := by
  obtain ⟨rest, hrest⟩ := h
  rw [SpacedWord.text_append, List.append_assoc] at hrest
  refine ⟨⟨_, hrest⟩, rest, ?_⟩
  rw [← List.drop_drop, ← hrest, List.drop_left]

theorem SpacedWord.standAt_of_cons {line : List Char} {position : Nat} {w : SpacedWord}
    {ws : List SpacedWord} (h : StandAt line position (w :: ws)) :
    StandAt line (position + (w.gap ++ w.word).length) ws := by
  have hws := (standAt_append (show StandAt line position ([w] ++ ws) from h)).2
  rwa [text_cons, text_nil, List.append_nil] at hws

/-- The text between the tokens of some words is their source. -/
theorem Line.between_ofWords {line : List Char} {position : Nat} {ws : List SpacedWord}
    (h : SpacedWord.StandAt line position ws) :
    Line.between line (Token.ofWords position ws) = SpacedWord.source ws := by
  cases ws with
  | nil => rfl
  | cons w ws =>
      obtain ⟨rest, hrest⟩ := h
      have hne : Token.ofWords position (w :: ws) ≠ [] := by simp
      have hstop := Token.stop_getLast_ofWords hne
      have hstart : line.drop (position + w.gap.length) = SpacedWord.source (w :: ws) ++ rest := by
        rw [← List.drop_drop, ← hrest, SpacedWord.text_cons, List.append_assoc, List.drop_left,
          SpacedWord.source]
      have hlength : position + (SpacedWord.text (w :: ws)).length - (position + w.gap.length) =
          (SpacedWord.source (w :: ws)).length := by
        simp only [SpacedWord.text_cons, SpacedWord.source, List.length_append]
        omega
      change (line.drop (position + w.gap.length)).take
        (((Token.ofWords position (w :: ws)).getLast hne).stop -
          (position + w.gap.length)) = _
      rw [hstop, hlength, hstart, List.take_left]

end Rulebook
