import Rulebook.Proofs.LineTokens

/-!
# Listings — the scanner of a line

A line is scanned from left to right, one turn after the other.  In a turn the scanner passes over a
blank, or cuts off the token that begins where it stands, or ends (`Scanner.turn`).  What it looks
for next is its stage: the opening bracket, a count, what may follow a count, words.

* `Scanner.Move`: what a turn does that does not end, with `Scanner.Cut` for the tokens of a stage.
* `Scanner.Ends`: a number of turns, the last of which ends.
* `Scanner.Ends.turns_le`: there are no more turns than characters left, and one.
* `Scanner.exists_ends`: the turns from the start of a line end with what `Token.scan` answers.
-/

namespace Rulebook

/-! ### Places of a line -/

/-- A blank stands at a place. -/
def BlankAt (cs : List Char) (place : Nat) : Prop := ∃ c ∈ cs[place]?, Text.isBlank c

/-- Nothing but a blank stands at a place; behind the last character nothing does. -/
def NoInkAt (cs : List Char) (place : Nat) : Prop := ∀ c ∈ cs[place]?, Text.isBlank c

theorem BlankAt.lt_length {cs : List Char} {place : Nat} (h : BlankAt cs place) :
    place < cs.length :=
  let ⟨_, hc, _⟩ := h
  (List.getElem?_eq_some_iff.mp hc).1

theorem NoInkAt.blankAt {cs : List Char} {place : Nat} (h : NoInkAt cs place)
    (hlt : place < cs.length) : BlankAt cs place := by
  have hc : cs[place]? = some cs[place] := List.getElem?_eq_getElem hlt
  exact ⟨cs[place], hc, h _ hc⟩

/-! ### Tokens in a line -/

/-- A token stands in a line: it is not empty, and its text is what the line has from its start to
its stop. -/
structure Token.StandsIn (line : List Char) (t : Token) : Prop where
  nonempty : t.text ≠ []
  text : line.extract t.start t.stop = t.text

namespace Token

variable {line : List Char} {t : Token}

theorem standsIn_of_prefix (hne : t.text ≠ []) (h : t.text <+: line.drop t.start) :
    t.StandsIn line where
  nonempty := hne
  text := by
    rw [List.extract_eq_take_drop, stop, Nat.add_sub_cancel_left]
    exact (List.prefix_iff_eq_take.mp h).symm

theorem StandsIn.start_lt_stop (h : t.StandsIn line) : t.start < t.stop := by
  have hlength := List.length_pos_iff.mpr h.nonempty
  rw [stop]
  omega

theorem StandsIn.stop_le_length (h : t.StandsIn line) : t.stop ≤ line.length := by
  have hlength := congrArg List.length h.text
  have hpos := List.length_pos_iff.mpr h.nonempty
  rw [List.extract_eq_take_drop, List.length_take, List.length_drop, stop] at hlength
  rw [stop]
  omega

end Token

namespace Scanner

/-! ### Turns -/

/-- What the scanner looks for. -/
inductive Stage
  | opening | count | separator | words
  deriving DecidableEq, Repr

/-- What the scanner looks for, where it stands, and the tokens that it has cut off so far. -/
structure State where
  stage : Stage
  position : Nat
  tokens : List Token

/-- What comes of a turn. -/
inductive Turn
  | goesOn (s : State)
  | ends (result : Except LineError (List Token))

namespace State

/-- Before the first turn. -/
def start : State := ⟨.opening, 0, []⟩

/-- One token further. -/
def cut (s : State) (t : Token) (stage : Stage) : State := ⟨stage, t.stop, s.tokens ++ [t]⟩

/-- The scanner ends with an error where it stands. -/
def refuse (s : State) (fault : LineFault) : Turn :=
  .ends (.error (.malformed fault (s.position + 1)))

/-- The turn at the end of the line. -/
def atEnd (s : State) : Turn :=
  match s.stage with
  | .opening => s.refuse .noOpeningBracket
  | .count | .separator => s.refuse .noClosingBracket
  | .words => .ends (.ok s.tokens)

/-- The turn before a text that begins with `c`, which is not blank. -/
def atInk (s : State) (c : Char) (rest : List Char) : Turn :=
  match s.stage with
  | .opening =>
    if c = '[' then .goesOn (s.cut ⟨.openBracket, ['['], s.position⟩ .count)
    else s.refuse .noOpeningBracket
  | .count =>
    if Text.isDigit c then
      .goesOn (s.cut ⟨.count, (c :: rest).takeWhile Text.isDigit, s.position⟩ .separator)
    else s.refuse .noCount
  | .separator =>
    if c = ',' then .goesOn (s.cut ⟨.comma, [','], s.position⟩ .count)
    else if c = ']' then .goesOn (s.cut ⟨.closeBracket, [']'], s.position⟩ .words)
    else s.refuse .noSeparator
  | .words =>
    let word := (c :: rest).takeWhile fun c => !Text.isBlank c
    .goesOn (s.cut (.ofWord word s.position) .words)

end State

/-- One turn. -/
def turn (line : List Char) (s : State) : Turn :=
  match line.drop s.position with
  | [] => s.atEnd
  | c :: rest =>
    if Text.isBlank c then .goesOn { s with position := s.position + 1 } else s.atInk c rest

variable {line cs rest : List Char} {s s' : State} {c : Char}

theorem turn_of_nil (h : line.drop s.position = []) : turn line s = s.atEnd := by
  rw [turn, h]

theorem turn_of_blank (h : line.drop s.position = c :: rest) (hc : Text.isBlank c) :
    turn line s = .goesOn { s with position := s.position + 1 } := by
  rw [turn, h]
  exact if_pos hc

theorem turn_of_ink (h : line.drop s.position = c :: rest) (hc : Text.isBlank c = false) :
    turn line s = s.atInk c rest := by
  rw [turn, h]
  exact if_neg (Bool.eq_false_iff.mp hc)

/-! ### Moves -/

/-- The tokens that a stage cuts off, and the stage after each. -/
inductive Cut (line : List Char) : Stage → Token → Stage → Prop
  | opening {start : Nat} : Cut line .opening ⟨.openBracket, ['['], start⟩ .count
  | count {start : Nat} {run : List Char} (hrun : DigitRun run) :
      Cut line .count ⟨.count, run, start⟩ .separator
  | comma {start : Nat} : Cut line .separator ⟨.comma, [','], start⟩ .count
  | closing {start : Nat} : Cut line .separator ⟨.closeBracket, [']'], start⟩ .words
  | word {start : Nat} {word : List Char} (hinked : ∀ c ∈ word, ¬ Text.isBlank c)
      (hnext : NoInkAt line (start + word.length)) :
      Cut line .words (.ofWord word start) .words

/-- What a turn does that does not end: it passes over a blank, or cuts off a token. -/
inductive Move (line : List Char) (s : State) : State → Prop
  | blank (hblank : BlankAt line s.position) : Move line s { s with position := s.position + 1 }
  | token {t : Token} {stage : Stage} (hstart : t.start = s.position) (hstands : t.StandsIn line)
      (hcut : Cut line s.stage t stage) : Move line s (s.cut t stage)

theorem drop_of_append {position : Nat} {front : List Char}
    (h : line.drop position = front ++ rest) : line.drop (position + front.length) = rest := by
  rw [← List.drop_drop, h, List.drop_left]

theorem drop_of_cons {position : Nat} (h : line.drop position = c :: rest) :
    line.drop (position + 1) = rest := by
  rw [← List.drop_drop, h, List.drop_one, List.tail_cons]

/-- A run at the start of a text stands in the line, and what comes next is not of the run. -/
theorem standsIn_takeWhile {p : Char → Bool} {t : Token} (h : line.drop t.start = c :: rest)
    (hc : p c) (ht : t.text = (c :: rest).takeWhile p) :
    t.StandsIn line ∧ ∀ d ∈ (line.drop t.stop).head?, p d = false := by
  have hne : t.text ≠ [] := by
    rw [ht, List.takeWhile_cons_of_pos hc]
    exact List.cons_ne_nil _ _
  have hsplit : line.drop t.start = t.text ++ (c :: rest).dropWhile p := by
    rw [ht, List.takeWhile_append_dropWhile, h]
  refine ⟨Token.standsIn_of_prefix hne ⟨_, hsplit.symm⟩, fun d hd => ?_⟩
  rw [Token.stop, drop_of_append hsplit] at hd
  exact eq_false_of_mem_head?_dropWhile hd

theorem move_of_atInk (h : line.drop s.position = c :: rest) (hc : Text.isBlank c = false)
    (hturn : s.atInk c rest = .goesOn s') : Move line s s' := by
  -- a mark is the first character of what is left
  have hmark (kind : TokenKind) : Token.StandsIn line ⟨kind, [c], s.position⟩ :=
    Token.standsIn_of_prefix (List.cons_ne_nil _ _) ⟨rest, h.symm⟩
  obtain ⟨stage, position, tokens⟩ := s
  cases stage with
  | opening =>
      simp only [State.atInk] at hturn
      split_ifs at hturn with hopen
      · cases hturn
        subst hopen
        exact .token rfl (hmark _) .opening
      · cases hturn
  | count =>
      simp only [State.atInk] at hturn
      split_ifs at hturn with hdigit
      · cases hturn
        obtain ⟨hstands, -⟩ := standsIn_takeWhile
          (t := ⟨.count, (c :: rest).takeWhile Text.isDigit, position⟩) h hdigit rfl
        exact .token rfl hstands (.count ⟨hstands.nonempty, fun _ => List.mem_takeWhile_imp⟩)
      · cases hturn
  | separator =>
      simp only [State.atInk] at hturn
      split_ifs at hturn with hcomma hclose
      · cases hturn
        subst hcomma
        exact .token rfl (hmark _) .comma
      · cases hturn
        subst hclose
        exact .token rfl (hmark _) .closing
      · cases hturn
  | words =>
      cases hturn
      obtain ⟨hstands, hnext⟩ := standsIn_takeWhile (p := fun c => !Text.isBlank c)
        (t := .ofWord ((c :: rest).takeWhile fun c => !Text.isBlank c) position) h
        (by rw [hc]; rfl) rfl
      refine .token rfl hstands (.word (fun d hd => ?_) fun d hd => ?_)
      · simpa using List.mem_takeWhile_imp hd
      · rw [← List.head?_drop] at hd
        simpa using hnext d hd

/-- A turn that does not end makes a move. -/
theorem move_of_turn (h : turn line s = .goesOn s') : Move line s s' := by
  cases hdrop : line.drop s.position with
  | nil =>
      rw [turn_of_nil hdrop, State.atEnd] at h
      split at h <;> cases h
  | cons c rest =>
      cases hc : Text.isBlank c with
      | true =>
          rw [turn_of_blank hdrop hc] at h
          cases h
          refine .blank ⟨c, ?_, hc⟩
          rw [← List.head?_drop, hdrop]
          rfl
      | false =>
          rw [turn_of_ink hdrop hc] at h
          exact move_of_atInk hdrop hc h

/-- No turn before ink ends with tokens. -/
theorem atInk_ne_ends_ok {tokens : List Token} : s.atInk c rest ≠ .ends (.ok tokens) := by
  obtain ⟨stage, position, tokens'⟩ := s
  cases stage with
  | opening | count | separator =>
      simp only [State.atInk]
      split_ifs <;> exact nofun
  | words => exact nofun

/-- A turn ends with tokens among the words only, behind the last character. -/
theorem of_turn_eq_ends_ok {tokens : List Token} (h : turn line s = .ends (.ok tokens)) :
    line.length ≤ s.position ∧ s.stage = .words ∧ s.tokens = tokens := by
  cases hdrop : line.drop s.position with
  | nil =>
      rw [turn_of_nil hdrop, State.atEnd] at h
      split at h
      next => cases h
      next => cases h
      next => cases h
      next hstage =>
        cases h
        exact ⟨List.drop_eq_nil_iff.mp hdrop, hstage, rfl⟩
  | cons c rest =>
      cases hc : Text.isBlank c with
      | true =>
          rw [turn_of_blank hdrop hc] at h
          cases h
      | false =>
          rw [turn_of_ink hdrop hc] at h
          exact absurd h atInk_ne_ends_ok

theorem Move.position_lt (h : Move line s s') : s.position < s'.position := by
  cases h with
  | blank => exact Nat.lt_succ_self _
  | token hstart hstands => exact hstart ▸ hstands.start_lt_stop

theorem Move.position_le_length (h : Move line s s') : s'.position ≤ line.length := by
  cases h with
  | blank hblank => exact hblank.lt_length
  | token _ hstands => exact hstands.stop_le_length

/-! ### Runs -/

/-- So many turns, the last of which ends. -/
inductive Ends (line : List Char) : State → Nat → Except LineError (List Token) → Prop
  | last {s : State} {result : Except LineError (List Token)} (h : turn line s = .ends result) :
      Ends line s 1 result
  | next {s s' : State} {turns : Nat} {result : Except LineError (List Token)}
      (h : turn line s = .goesOn s') (rest : Ends line s' turns result) :
      Ends line s (turns + 1) result

variable {result : Except LineError (List Token)}

/-- Every turn but the last takes a character at least. -/
theorem Ends.turns_le {turns : Nat} (h : Ends line s turns result) :
    turns ≤ line.length - s.position + 1 := by
  induction h with
  | last => exact Nat.le_add_left 1 _
  | next hturn _ ih =>
      have hmove := move_of_turn hturn
      have hlt := hmove.position_lt
      have hle := hmove.position_le_length
      omega

/-- The scanner comes to an end. -/
def Halts (line : List Char) (s : State) (result : Except LineError (List Token)) : Prop :=
  ∃ turns, Ends line s turns result

theorem Halts.last (h : turn line s = .ends result) : Halts line s result :=
  ⟨1, .last h⟩

theorem Halts.next (h : turn line s = .goesOn s') (hrest : Halts line s' result) :
    Halts line s result :=
  let ⟨turns, hends⟩ := hrest
  ⟨turns + 1, .next h hends⟩

/-- Blanks are passed over. -/
theorem Halts.skip {stage : Stage} {position : Nat} {tokens : List Token} {gap : List Char}
    (hgap : Blank gap) (hdrop : line.drop position = gap ++ rest)
    (h : Halts line ⟨stage, position + gap.length, tokens⟩ result) :
    Halts line ⟨stage, position, tokens⟩ result := by
  induction gap generalizing position with
  | nil => exact h
  | cons c gap ih =>
      obtain ⟨hc, hgap⟩ := List.forall_mem_cons.mp hgap
      have hdrop' : line.drop (position + 1) = gap ++ rest := drop_of_cons hdrop
      rw [List.length_cons, Nat.add_comm _ 1, ← Nat.add_assoc] at h
      exact .next (turn_of_blank hdrop hc) (ih hgap hdrop' h)

/-- The words of the rest of a line are cut off one by one. -/
theorem halts_words {ws : List SpacedWord} (h : Worded cs ws) (position : Nat)
    (hdrop : line.drop position = cs) (tokens : List Token) :
    Halts line ⟨.words, position, tokens⟩ (.ok (tokens ++ Token.ofWords position ws)) := by
  induction ws generalizing cs position tokens with
  | nil =>
      have hcs : line.drop position = cs ++ [] := by rw [hdrop, List.append_nil]
      refine .skip (Worded.nil_iff.mp h) hcs (.last ((turn_of_nil (drop_of_append hcs)).trans ?_))
      rw [Token.ofWords, List.append_nil]
      rfl
  | cons w ws ih =>
      obtain ⟨hgap, hne, hword, rest, rfl, hrest, hhead⟩ := Worded.cons_iff.mp h
      obtain ⟨c, word, hcons⟩ := List.exists_cons_of_ne_nil hne
      have hc : Text.isBlank c = false := by simpa using hword c (by simp [hcons])
      have hword' : line.drop (position + w.gap.length) = c :: (word ++ rest) := by
        rw [drop_of_append hdrop, hcons, List.cons_append]
      have hrun : (c :: (word ++ rest)).takeWhile (fun c => !Text.isBlank c) = w.word := by
        rw [← List.cons_append, ← hcons]
        exact (span_append (by simpa using hword) (by simpa using hhead)).1
      have hrest' : line.drop (position + (w.gap ++ w.word).length) = rest :=
        drop_of_append (hdrop.trans (List.append_assoc _ _ _).symm)
      let t := Token.ofWord w.word (position + w.gap.length)
      have hstop : t.stop = position + (w.gap ++ w.word).length := by
        rw [List.length_append, ← Nat.add_assoc]
        rfl
      have hends := ih hrest t.stop (hstop ▸ hrest') (tokens ++ [t])
      rw [List.append_assoc, List.singleton_append, hstop] at hends
      refine .skip hgap hdrop (.next (turn_of_ink hword' hc) ?_)
      dsimp only [State.atInk, State.cut]
      rw [hrun, hstop]
      exact hends

/-- The tokens of a line from those in front, and from what is read of the counts behind them. -/
def answer (tokens : List Token) (counts : Except LineError Token.Counts) :
    Except LineError (List Token) :=
  counts.map fun k => tokens ++ (k.tokens ++ Token.readWords k.position k.rest)

theorem answer_map {tokens tokens' front : List Token} (h : tokens' = tokens ++ front)
    (counts : Except LineError Token.Counts) :
    answer tokens (counts.map fun k => { k with tokens := front ++ k.tokens }) =
      answer tokens' counts := by
  subst h
  cases counts with
  | error => rfl
  | ok k => simp only [answer, Except.map, List.append_assoc]

theorem blank_takeWhile (cs : List Char) : Blank (cs.takeWhile Text.isBlank) :=
  fun _ => List.mem_takeWhile_imp

/-- Where no digits come next, the scanner ends as the reader of counts does. -/
theorem halts_of_no_run {position : Nat} (hdrop : line.drop position = cs)
    (hink : ∀ c ∈ cs.head?, Text.isBlank c = false) (hrun : cs.takeWhile Text.isDigit = [])
    (tokens : List Token) :
    Halts line ⟨.count, position, tokens⟩
      (.error (.malformed (if cs = [] then .noClosingBracket else .noCount) (position + 1))) := by
  cases cs with
  | nil => exact .last (turn_of_nil hdrop)
  | cons c rest =>
      have hc : ¬ Text.isDigit c := by
        intro hdigit
        rw [List.takeWhile_cons_of_pos hdigit] at hrun
        cases hrun
      refine .last ((turn_of_ink hdrop (hink c rfl)).trans ?_)
      simp only [State.atInk, if_neg hc]
      rfl

/-- Where digits come next, the scanner cuts them off. -/
theorem halts_of_run {position : Nat} (hdrop : line.drop position = cs)
    (hink : ∀ c ∈ cs.head?, Text.isBlank c = false) (hrun : cs.takeWhile Text.isDigit ≠ [])
    {tokens : List Token}
    (h : Halts line (.cut ⟨.count, position, tokens⟩
      ⟨.count, cs.takeWhile Text.isDigit, position⟩ .separator) result) :
    Halts line ⟨.count, position, tokens⟩ result := by
  cases cs with
  | nil => exact absurd rfl hrun
  | cons c rest =>
      have hc : Text.isDigit c := by
        by_contra hdigit
        exact hrun (List.takeWhile_cons_of_neg hdigit)
      refine .next ((turn_of_ink hdrop (hink c rfl)).trans ?_) h
      simp only [State.atInk, if_pos hc]

/-- The reader of counts behind the blanks that follow a count. -/
def readSeparator (count : Token) (position : Nat) : List Char → Except LineError Token.Counts
  | [] => .error (.malformed .noClosingBracket (position + 1))
  | c :: rest =>
    if c = ',' then
      (Token.readCounts (position + 1) rest).map fun k =>
        { k with tokens := count :: ⟨.comma, [','], position⟩ :: k.tokens }
    else if c = ']' then .ok ⟨[count, ⟨.closeBracket, [']'], position⟩], position + 1, rest⟩
    else .error (.malformed .noSeparator (position + 1))

/-- Behind a count the scanner ends as the reader of counts does, if it does so behind a comma. -/
theorem halts_separator {position : Nat} (hdrop : line.drop position = cs)
    (hink : ∀ c ∈ cs.head?, Text.isBlank c = false)
    (hcounts : ∀ rest, cs = ',' :: rest → ∀ tokens, Halts line ⟨.count, position + 1, tokens⟩
      (answer tokens (Token.readCounts (position + 1) rest)))
    (tokens : List Token) (count : Token) :
    Halts line ⟨.separator, position, tokens ++ [count]⟩
      (answer tokens (readSeparator count position cs)) := by
  cases cs with
  | nil => exact .last (turn_of_nil hdrop)
  | cons c rest =>
      have hrest : line.drop (position + 1) = rest := drop_of_cons hdrop
      rw [readSeparator]
      split_ifs with hcomma hclose
      · subst hcomma
        let comma : Token := ⟨.comma, [','], position⟩
        have hfront : tokens ++ [count] ++ [comma] = tokens ++ [count, comma] :=
          List.append_assoc _ _ _
        refine (answer_map hfront _).symm ▸ .next ((turn_of_ink hdrop rfl).trans rfl) ?_
        exact hcounts rest rfl _
      · subst hclose
        obtain ⟨ws, hws⟩ := Token.exists_worded (position + 1) rest
        let closing : Token := ⟨.closeBracket, [']'], position⟩
        have hanswer : answer tokens (.ok ⟨[count, closing], position + 1, rest⟩) =
            .ok (tokens ++ [count] ++ [closing] ++ Token.ofWords (position + 1) ws) := by
          rw [answer, Except.map, Token.readWords_of_worded hws, List.append_assoc _ [count],
            List.append_assoc]
          rfl
        refine hanswer ▸ .next ((turn_of_ink hdrop rfl).trans rfl) ?_
        exact halts_words hws _ hrest _
      · refine .last ((turn_of_ink hdrop (hink c rfl)).trans ?_)
        simp only [State.atInk, if_neg hcomma, if_neg hclose]
        rfl

/-- Counts are read as a run of digits and what follows it. -/
theorem readCounts_eq_readSeparator (position : Nat) (hrun : Token.firstRun cs ≠ []) :
    Token.readCounts position cs =
      readSeparator ⟨.count, Token.firstRun cs, Token.runStart position cs⟩
        (Token.runStop position cs) (Token.behindRun cs) := by
  rw [Token.readCounts_eq]
  dsimp only
  rw [if_neg hrun]
  cases Token.behindRun cs <;> rfl

/-- The counts of a line are cut off as they are read, and then its words. -/
theorem halts_counts (position : Nat) (cs : List Char) (hdrop : line.drop position = cs)
    (tokens : List Token) :
    Halts line ⟨.count, position, tokens⟩ (answer tokens (Token.readCounts position cs)) := by
  -- a text is blanks, then digits, then blanks, then what may follow a count
  have hblank : line.drop position = cs.takeWhile Text.isBlank ++ cs.dropWhile Text.isBlank := by
    rw [hdrop, List.takeWhile_append_dropWhile]
  have hstart : line.drop (Token.runStart position cs) = cs.dropWhile Text.isBlank :=
    drop_of_append hblank
  have hink : ∀ c ∈ (cs.dropWhile Text.isBlank).head?, Text.isBlank c = false :=
    fun _ => eq_false_of_mem_head?_dropWhile
  refine .skip (blank_takeWhile cs) hblank ?_
  by_cases hrun : Token.firstRun cs = []
  · rw [Token.readCounts_eq, if_pos hrun]
    exact halts_of_no_run hstart hink hrun tokens
  · rw [readCounts_eq_readSeparator position hrun]
    have hdigits : line.drop (Token.runStart position cs) =
        Token.firstRun cs ++ (cs.dropWhile Text.isBlank).dropWhile Text.isDigit :=
      hstart.trans List.takeWhile_append_dropWhile.symm
    have hnext := (drop_of_append hdigits).trans
      (List.takeWhile_append_dropWhile (p := Text.isBlank)).symm
    refine halts_of_run hstart hink hrun (.skip (blank_takeWhile _) hnext ?_)
    have hstop : line.drop (Token.runStop position cs) = Token.behindRun cs := drop_of_append hnext
    refine halts_separator hstop (fun _ => eq_false_of_mem_head?_dropWhile)
      (fun rest hcomma tokens => ?_) tokens _
    have hlength : rest.length < cs.length := by
      have hle := Token.length_behindRun_le cs
      rwa [hcomma, List.length_cons] at hle
    exact halts_counts _ rest (drop_of_cons (hstop.trans hcomma)) tokens
termination_by cs.length

theorem scan_of_open (h : line.dropWhile Text.isBlank = '[' :: rest) :
    Token.scan line = answer [⟨.openBracket, ['['], Token.runStart 0 line⟩]
      (Token.readCounts (Token.runStart 0 line + 1) rest) := by
  rw [Token.scan, Token.readBrackets_of_open h]
  cases Token.readCounts (Token.runStart 0 line + 1) rest <;> rfl

theorem scan_of_not_open (h : ∀ rest, line.dropWhile Text.isBlank ≠ '[' :: rest) :
    Token.scan line = .error (.malformed .noOpeningBracket (Token.runStart 0 line + 1)) := by
  rw [Token.scan, Token.readBrackets_of_not_open h]

theorem halts_start (line : List Char) : Halts line .start (Token.scan line) := by
  have hline : line.drop 0 = line.takeWhile Text.isBlank ++ line.dropWhile Text.isBlank := by
    rw [List.takeWhile_append_dropWhile, List.drop_zero]
  have hstart : line.drop (Token.runStart 0 line) = line.dropWhile Text.isBlank :=
    drop_of_append hline
  refine .skip (blank_takeWhile line) hline ?_
  cases htext : line.dropWhile Text.isBlank with
  | nil =>
      rw [scan_of_not_open (by simp [htext])]
      exact .last (turn_of_nil (hstart.trans htext))
  | cons c rest =>
      rw [htext] at hstart
      have hc : Text.isBlank c = false := eq_false_of_mem_head?_dropWhile (by rw [htext]; rfl)
      by_cases hopen : c = '['
      · subst hopen
        rw [scan_of_open htext]
        exact .next ((turn_of_ink hstart hc).trans rfl)
          (halts_counts _ rest (drop_of_cons hstart) _)
      · rw [scan_of_not_open (by simp [htext, hopen])]
        exact .last ((turn_of_ink hstart hc).trans (if_neg hopen))

/-- **The turns from the start of a line end with the tokens of the line, or with what is wrong with
it.** -/
theorem exists_ends (line : List Char) :
    ∃ turns ≤ line.length + 1, Ends line .start turns (Token.scan line) := by
  obtain ⟨turns, hends⟩ := halts_start line
  exact ⟨turns, hends.turns_le, hends⟩

end Scanner

end Rulebook
