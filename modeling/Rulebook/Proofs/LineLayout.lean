import Rulebook.Listing.Read
import Rulebook.Proofs.LineRead

/-!
# Listings — lines that are laid out alike

What a line says does not depend on the blanks at its ends, nor on those around the tokens of its
brackets.  Lines that differ in these alone (`Alike`) are read alike: as the same content, or with
errors that say the same, wherever they point (`LineError.gist`, `Alike.headedAlike`,
`Line.HeadedAlike.read`).

There is one lemma for each reader of a part of a line.  The reader of brackets is compared on texts
of which one goes on with blanks (`Trails`); the readers of words on words that stand at other
places and of which the first may have another gap (`SameWords`).
-/

namespace Rulebook

/-- What an error says, apart from the place where. -/
inductive Gist
  | malformed (fault : LineFault)
  | oversized (digits : Nat)
  | noDefault
  | overdrawn (uncovered : List Int) (covered : List Nat)
  | defaultAlone
  | unsettled (faults : List Settings.Fault)

/-- What an error in a line says. -/
def LineError.gist : LineError → Gist
  | .malformed fault _ => .malformed fault
  | .oversized digits => .oversized digits

/-- What an error in a listing says. -/
def ListingError.gist : ListingError → Gist
  | .malformed _ fault _ => .malformed fault
  | .oversized digits => .oversized digits
  | .noDefault => .noDefault
  | .overdrawn _ uncovered covered => .overdrawn uncovered covered
  | .defaultAlone _ => .defaultAlone

theorem ListingError.gist_ofLine (line : NumberedLine) (e : LineError) :
    (ofLine line e).gist = e.gist := by
  cases e <;> rfl

/-- Texts that differ in the blanks at their ends. -/
inductive SameInk : List Char → List Char → Prop
  | intro (core : List Char) {front back front' back' : List Char} (hfront : Blank front)
      (hback : Blank back) (hfront' : Blank front') (hback' : Blank back') :
      SameInk (front ++ (core ++ back)) (front' ++ (core ++ back'))

/-- Lines that differ in the blanks at their ends, or in those around the tokens of their
brackets. -/
inductive Alike : List Char → List Char → Prop
  | ends {line line' : List Char} (h : SameInk line line') : Alike line line'
  | counts {line line' rest rest' : List Char} {runs : List (List Char)}
      (h : Bracketed line runs rest) (h' : Bracketed line' runs rest')
      (hrest : SameInk rest rest') : Alike line line'

theorem SameInk.of_blank {front back : List Char} (hfront : Blank front) (hback : Blank back)
    (core : List Char) : SameInk core (front ++ (core ++ back)) := by
  have h := SameInk.intro core (List.forall_mem_nil _) (List.forall_mem_nil _) hfront hback
  rwa [List.nil_append, List.append_nil] at h

theorem Alike.refl (line : List Char) : Alike line line := by
  have h := SameInk.of_blank (List.forall_mem_nil _) (List.forall_mem_nil _) line
  rw [List.nil_append, List.append_nil] at h
  exact .ends h

/-! ### Brackets -/

/-- A text, and the same text with blanks behind it. -/
def Trails (cs cs' : List Char) : Prop := ∃ back, Blank back ∧ cs' = cs ++ back

namespace Trails

variable {cs cs' : List Char}

/-- Blanks in front of both are skipped; where there is nothing else, all is skipped. -/
theorem skip (h : Trails cs cs') :
    Trails (cs.dropWhile Text.isBlank) (cs'.dropWhile Text.isBlank) ∧
      (cs.dropWhile Text.isBlank = [] → cs'.dropWhile Text.isBlank = []) := by
  obtain ⟨back, hback, rfl⟩ := h
  induction cs with
  | nil =>
      have hnone : back.dropWhile Text.isBlank = [] := List.dropWhile_eq_nil_iff.mpr hback
      rw [List.nil_append, hnone]
      exact ⟨⟨[], List.forall_mem_nil _, rfl⟩, fun _ => rfl⟩
  | cons c cs ih =>
      rw [List.cons_append, List.dropWhile_cons, List.dropWhile_cons]
      by_cases hc : Text.isBlank c
      · rw [if_pos hc, if_pos hc]
        exact ih
      · rw [if_neg hc, if_neg hc]
        exact ⟨⟨back, hback, rfl⟩, fun h => absurd h (List.cons_ne_nil _ _)⟩

/-- Where one holds nothing but blanks, so does the other. -/
theorem skip_eq_nil_iff (h : Trails cs cs') :
    cs'.dropWhile Text.isBlank = [] ↔ cs.dropWhile Text.isBlank = [] := by
  obtain ⟨⟨back, -, hback⟩, hnone⟩ := h.skip
  exact ⟨fun h' => (List.append_eq_nil_iff.mp (hback.symm.trans h')).1, hnone⟩

/-- Both begin with the same digits. -/
theorem digits (h : Trails cs cs') :
    cs'.takeWhile Text.isDigit = cs.takeWhile Text.isDigit ∧
      Trails (cs.dropWhile Text.isDigit) (cs'.dropWhile Text.isDigit) := by
  obtain ⟨back, hback, rfl⟩ := h
  induction cs with
  | nil =>
      cases back with
      | nil => exact ⟨rfl, [], hback, rfl⟩
      | cons b back =>
          have hb : ¬ Text.isDigit b :=
            Bool.eq_false_iff.mp (isDigit_of_isBlank (hback b List.mem_cons_self))
          rw [List.nil_append, List.takeWhile_cons_of_neg hb, List.dropWhile_cons_of_neg hb]
          exact ⟨rfl, b :: back, hback, rfl⟩
  | cons c cs ih =>
      rw [List.cons_append]
      by_cases hc : Text.isDigit c
      · rw [List.takeWhile_cons_of_pos hc, List.takeWhile_cons_of_pos hc,
          List.dropWhile_cons_of_pos hc, List.dropWhile_cons_of_pos hc, ih.1]
        exact ⟨rfl, ih.2⟩
      · rw [List.takeWhile_cons_of_neg hc, List.takeWhile_cons_of_neg hc,
          List.dropWhile_cons_of_neg hc, List.dropWhile_cons_of_neg hc]
        exact ⟨rfl, back, hback, rfl⟩

end Trails

namespace Token

/-- Brackets that count the same, with rests of which one goes on with blanks. -/
def SameCounts (k k' : Counts) : Prop :=
  countTexts k.tokens = countTexts k'.tokens ∧ Trails k.rest k'.rest

end Token

/-- Behind the first run the texts go on alike. -/
theorem Trails.behindRun {cs cs' : List Char} (h : Trails cs cs') :
    Token.firstRun cs' = Token.firstRun cs ∧ Trails (Token.behindRun cs) (Token.behindRun cs') ∧
      (Token.behindRun cs = [] → Token.behindRun cs' = []) := by
  obtain ⟨hruns, hbehind⟩ := h.skip.1.digits
  exact ⟨hruns, hbehind.skip⟩

namespace Token

/-- Blanks behind the counts do not matter, nor does the place. -/
theorem readCounts_alike (position position' : Nat) {cs cs' : List Char} (h : Trails cs cs') :
    EndsLike LineError.gist SameCounts (readCounts position cs) (readCounts position' cs') := by
  obtain ⟨hrun, hbehind, hnone⟩ := h.behindRun
  rw [readCounts_eq, readCounts_eq, hrun]
  by_cases hdigits : firstRun cs = []
  · rw [if_pos hdigits, if_pos hdigits]
    exact .error (congrArg Gist.malformed (by simp only [h.skip_eq_nil_iff]))
  · rw [if_neg hdigits, if_neg hdigits]
    cases hcs : behindRun cs with
    | nil =>
        rw [hnone hcs]
        exact .error rfl
    | cons c rest =>
        obtain ⟨back, hback, hcs'⟩ := hbehind
        rw [hcs, List.cons_append] at hcs'
        rw [hcs']
        dsimp only
        have hrest : Trails rest (rest ++ back) := ⟨back, hback, rfl⟩
        have hlength : rest.length < cs.length := by
          have hle := length_behindRun_le cs
          rwa [hcs, List.length_cons] at hle
        by_cases hcomma : c = ','
        · rw [if_pos hcomma, if_pos hcomma]
          refine (readCounts_alike _ _ hrest).map fun k k' hk => ⟨?_, hk.2⟩
          exact congrArg (firstRun cs :: ·) hk.1
        · rw [if_neg hcomma, if_neg hcomma]
          by_cases hclose : c = ']'
          · rw [if_pos hclose, if_pos hclose]
            exact .ok ⟨rfl, hrest⟩
          · rw [if_neg hclose, if_neg hclose]
            exact .error rfl
termination_by cs.length

/-- Blanks in front of the brackets and behind the line do not matter. -/
theorem readBrackets_alike {front cs cs' : List Char} (hfront : Blank front) (h : Trails cs cs') :
    EndsLike LineError.gist SameCounts (readBrackets cs) (readBrackets (front ++ cs')) := by
  have hskip : (front ++ cs').dropWhile Text.isBlank = cs'.dropWhile Text.isBlank :=
    List.dropWhile_append_of_pos hfront
  obtain ⟨⟨back, hback, hcs'⟩, hnone⟩ := h.skip
  by_cases hopen : ∃ rest, cs.dropWhile Text.isBlank = '[' :: rest
  · obtain ⟨rest, hopen⟩ := hopen
    rw [hopen, List.cons_append] at hcs'
    have heq := readBrackets_of_open hopen
    have heq' := readBrackets_of_open (hskip.trans hcs')
    rw [heq, heq']
    refine (readCounts_alike _ _ ⟨back, hback, rfl⟩).map fun k k' hk => ⟨?_, hk.2⟩
    exact hk.1
  · -- the other text is a blank one too, or begins with the same character
    have hclosed : ∀ rest, (front ++ cs').dropWhile Text.isBlank ≠ '[' :: rest := by
      intro rest hopen'
      rw [hskip] at hopen'
      cases hcs : cs.dropWhile Text.isBlank with
      | nil =>
          rw [hnone hcs] at hopen'
          cases hopen'
      | cons c rest' =>
          rw [hcs', hcs, List.cons_append] at hopen'
          cases hopen'
          exact hopen ⟨rest', hcs⟩
    have heq := readBrackets_of_not_open (not_exists.mp hopen)
    have heq' := readBrackets_of_not_open hclosed
    rw [heq, heq']
    exact .error rfl

end Token

/-! ### Words -/

/-- Words of which the first may have another gap. -/
inductive SameWords : List SpacedWord → List SpacedWord → Prop
  | nil : SameWords [] []
  | cons {gap gap' word : List Char} {ws : List SpacedWord} :
      SameWords (⟨gap, word⟩ :: ws) (⟨gap', word⟩ :: ws)

theorem SameWords.of_same {ws us vs : List SpacedWord} (hus : SameWords ws us)
    (hvs : SameWords ws vs) : SameWords us vs := by
  cases hus <;> cases hvs <;> constructor

theorem Worded.append_blank {cs back : List Char} {ws : List SpacedWord} (h : Worded cs ws)
    (hback : Blank back) : Worded (cs ++ back) ws := by
  obtain ⟨⟨trailing, htrailing, rfl⟩, hnonempty, hinked, hgaps, hapart⟩ := h
  exact ⟨⟨trailing ++ back, List.forall_mem_append.mpr ⟨htrailing, hback⟩, List.append_assoc ..⟩,
    hnonempty, hinked, hgaps, hapart⟩

/-- Words of a text are words of the text between blanks. -/
theorem exists_worded_framed {core front back : List Char} {ws : List SpacedWord}
    (h : Worded core ws) (hfront : Blank front) (hback : Blank back) :
    ∃ ws', Worded (front ++ (core ++ back)) ws' ∧ SameWords ws ws' := by
  cases ws with
  | nil =>
      have hcore := Worded.nil_iff.mp (h.append_blank hback)
      exact ⟨[], Worded.nil_iff.mpr (List.forall_mem_append.mpr ⟨hfront, hcore⟩), .nil⟩
  | cons w ws =>
      obtain ⟨gap, word⟩ := w
      obtain ⟨hgap, hne, hinked, rest, hcore, hrest, hhead⟩ :=
        Worded.cons_iff.mp (h.append_blank hback)
      refine ⟨⟨front ++ gap, word⟩ :: ws, Worded.cons_iff.mpr
        ⟨List.forall_mem_append.mpr ⟨hfront, hgap⟩, hne, hinked, rest, ?_, hrest, hhead⟩, .cons⟩
      rw [hcore, List.append_assoc]

/-- Texts that differ in the blanks at their ends have the same words. -/
theorem SameInk.exists_worded {cs cs' : List Char} (h : SameInk cs cs') :
    ∃ ws ws', Worded cs ws ∧ Worded cs' ws' ∧ SameWords ws ws' := by
  obtain ⟨core, hfront, hback, hfront', hback'⟩ := h
  obtain ⟨ws, hws⟩ := Token.exists_worded 0 core
  obtain ⟨us, hus, hsame⟩ := exists_worded_framed hws hfront hback
  obtain ⟨vs, hvs, hsame'⟩ := exists_worded_framed hws hfront' hback'
  exact ⟨us, vs, hus, hvs, hsame.of_same hsame'⟩

/-! ### Clauses -/

theorem Clause.read_alike (text : List Char) (column column' : Nat) :
    EndsLike LineError.gist Eq (read text column) (read text column') := by
  unfold read
  split
  next => exact .error rfl
  next =>
    dsimp only
    split_ifs
    · exact .error rfl
    · exact .error rfl
    · exact .ok rfl

namespace Line

variable {line line' : List Char}

/-- The same words in two lines, as tokens. -/
inductive Twin (line line' : List Char) : List Token → List Token → Prop
  | intro {position position' : Nat} {ws : List SpacedWord}
      (h : SpacedWord.StandAt line position ws) (h' : SpacedWord.StandAt line' position' ws) :
      Twin line line' (Token.ofWords position ws) (Token.ofWords position' ws)

theorem readClause_alike {group group' : List Token} (h : Twin line line' group group') :
    EndsLike LineError.gist Eq (readClause line group) (readClause line' group') := by
  obtain ⟨h, h'⟩ := h
  rw [readClause, readClause, between_ofWords h, between_ofWords h']
  exact Clause.read_alike _ _ _

/-- The same words are split into the same clauses, behind the same words that are already there. -/
theorem splitClauses_alike (position position' stop stop' : Nat) (current ws : List SpacedWord)
    (h : SpacedWord.StandAt line position (current ++ ws))
    (h' : SpacedWord.StandAt line' position' (current ++ ws)) :
    EndsLike LineError.gist (List.Forall₂ (Twin line line'))
      (splitClauses (Token.ofWords position current) stop
        (Token.ofWords (position + (SpacedWord.text current).length) ws))
      (splitClauses (Token.ofWords position' current) stop'
        (Token.ofWords (position' + (SpacedWord.text current).length) ws)) := by
  induction ws generalizing position position' stop stop' current with
  | nil =>
      rw [List.append_nil] at h h'
      rw [Token.ofWords, Token.ofWords, splitClauses, splitClauses]
      simp only [Token.ofWords_eq_nil_iff]
      split_ifs
      · exact .error rfl
      · exact .ok (.cons (.intro h h') .nil)
  | cons w ws ih =>
      have hkind (start : Nat) := Token.kind_ofWord w start
      have hbehind (position : Nat) : position + (SpacedWord.text (current ++ [w])).length =
          position + (SpacedWord.text current).length + (w.gap ++ w.word).length := by
        rw [SpacedWord.length_text_concat, Nat.add_assoc]
      rw [List.append_cons] at h h'
      rw [Token.ofWords, Token.ofWords]
      by_cases hand : w.is "AND"
      · -- a group ends, and the words behind `AND` begin the next one
        by_cases hcurrent : current = []
        · subst hcurrent
          rw [Token.ofWords, Token.ofWords, splitClauses_and_nil ((hkind _).2.2.1.mpr hand),
            splitClauses_and_nil ((hkind _).2.2.1.mpr hand)]
          exact .error rfl
        · have hne (position : Nat) : Token.ofWords position current ≠ [] :=
            mt Token.ofWords_eq_nil_iff.mp hcurrent
          obtain ⟨hgroup, hws⟩ := SpacedWord.standAt_append h
          obtain ⟨hgroup', hws'⟩ := SpacedWord.standAt_append h'
          rw [hbehind] at hws hws'
          rw [splitClauses_and ((hkind _).2.2.1.mpr hand) (hne _),
            splitClauses_and ((hkind _).2.2.1.mpr hand) (hne _)]
          refine (ih _ _ _ _ [] hws hws').map fun groups groups' hgroups => .cons ?_ hgroups
          exact .intro (SpacedWord.standAt_append hgroup).1 (SpacedWord.standAt_append hgroup').1
      by_cases htrue : w.is "TRUE"
      · rw [splitClauses_true ((hkind _).2.2.2.mpr htrue),
          splitClauses_true ((hkind _).2.2.2.mpr htrue)]
        exact .error rfl
      · -- the word joins those that are already there
        rw [splitClauses_word (mt (hkind _).2.2.1.mp hand) (mt (hkind _).2.2.2.mp htrue),
          splitClauses_word (mt (hkind _).2.2.1.mp hand) (mt (hkind _).2.2.2.mp htrue),
          ← Token.ofWords_concat, ← Token.ofWords_concat, ← hbehind, ← hbehind]
        exact ih _ _ _ _ _ h h'

theorem readAntecedent_alike {position position' : Nat} {ws : List SpacedWord}
    (h : SpacedWord.StandAt line position ws) (h' : SpacedWord.StandAt line' position' ws) :
    EndsLike LineError.gist Eq (readAntecedent line (Token.ofWords position ws))
      (readAntecedent line' (Token.ofWords position' ws)) := by
  by_cases htrue : ∃ w : SpacedWord, ws = [w] ∧ w.is "TRUE"
  · obtain ⟨w, rfl, hw⟩ := htrue
    rw [readAntecedent_of_true hw, readAntecedent_of_true hw]
    exact .ok rfl
  · rw [readAntecedent_of_not_true htrue, readAntecedent_of_not_true htrue]
    refine (splitClauses_alike position position' 0 0 [] ws h h').bind
      fun groups groups' _ _ hgroups => ?_
    refine (EndsLike.mapM hgroups fun _ _ => readClause_alike).bind fun cs cs' _ _ hcs => ?_
    rw [List.forall₂_eq_eq_eq] at hcs
    exact .ok (congrArg Antecedent.clauses hcs)

theorem readConsequent_alike {position position' : Nat} {ws : List SpacedWord}
    (h : SpacedWord.StandAt line position ws) (h' : SpacedWord.StandAt line' position' ws)
    (stop stop' : Nat) :
    EndsLike LineError.gist Eq (readConsequent line stop (Token.ofWords position ws))
      (readConsequent line' stop' (Token.ofWords position' ws)) := by
  rcases List.eq_nil_or_concat ws with rfl | ⟨prediction, score, rfl⟩
  · exact .error rfl
  · rw [List.concat_eq_append] at h h' ⊢
    have hsource := between_ofWords (SpacedWord.standAt_append h).1
    have hsource' := between_ofWords (SpacedWord.standAt_append h').1
    rw [Token.ofWords_append, Token.ofWords_append, readConsequent, readConsequent, Token.ofWords,
      Token.ofWords, Token.ofWords, Token.ofWords, List.getLast?_concat, List.dropLast_concat,
      List.getLast?_concat, List.dropLast_concat]
    cases prediction with
    | nil => exact .error rfl
    | cons w prediction =>
        -- only the text between the tokens is looked at, and the text of the last one
        rw [Token.ofWords] at hsource hsource'
        dsimp only [Token.ofWord, Token.ofWords] at hsource hsource' ⊢
        rw [hsource, hsource']
        cases score? score.word with
        | none => exact .error rfl
        | some x =>
            dsimp only
            split_ifs
            · exact .error rfl
            · exact .ok rfl

/-- Words are read alike wherever they stand, and whatever the gap before the first of them. -/
theorem readWords_alike {position position' : Nat} {ws ws' : List SpacedWord}
    (hws : SameWords ws ws') (h : SpacedWord.StandAt line position ws)
    (h' : SpacedWord.StandAt line' position' ws') :
    EndsLike LineError.gist Eq (readWords line (Token.ofWords position ws))
      (readWords line' (Token.ofWords position' ws')) := by
  cases hws with
  | nil => exact .error rfl
  | @cons gap gap' word ws =>
      by_cases hopening : SpacedWord.is "IF" ⟨gap, word⟩
      · have hopening' : SpacedWord.is "IF" ⟨gap', word⟩ := hopening
        rcases forall_or_exists_then ws with
          hnone | ⟨antecedent, closing, rest, rfl, hclosing, hfirst⟩
        · rw [readWords_of_not_then hopening hnone, readWords_of_not_then hopening' hnone]
          exact .error rfl
        · obtain ⟨hantecedent, hbehind⟩ := SpacedWord.standAt_append (SpacedWord.standAt_of_cons h)
          obtain ⟨hantecedent', hbehind'⟩ :=
            SpacedWord.standAt_append (SpacedWord.standAt_of_cons h')
          have hrest := SpacedWord.standAt_of_cons hbehind
          have hrest' := SpacedWord.standAt_of_cons hbehind'
          rw [readWords_ofWords hopening hclosing hfirst,
            readWords_ofWords hopening' hclosing hfirst]
          dsimp only
          split_ifs
          · exact .error rfl
          · refine (readAntecedent_alike hantecedent hantecedent').bind fun a a' _ _ ha => ?_
            refine (readConsequent_alike hrest hrest' _ _).bind fun c c' _ _ hc => ?_
            exact .ok (congrArg₂ Prod.mk ha hc)
      · have hopening' : ¬ SpacedWord.is "IF" ⟨gap', word⟩ := hopening
        rw [readWords_of_not_if hopening, readWords_of_not_if hopening']
        exact .error rfl

/-! ### The line -/

/-- What is read of the brackets of two lines: the same counts, before texts that differ in the
blanks at their ends. -/
def SameHeads (k k' : Token.Counts) : Prop :=
  Token.countTexts k.tokens = Token.countTexts k'.tokens ∧ SameInk k.rest k'.rest

/-- Lines of which the brackets are read alike. -/
def HeadedAlike (line line' : List Char) : Prop :=
  EndsLike LineError.gist SameHeads (Token.readBrackets line) (Token.readBrackets line')

theorem readTotals_eq_bind (line : List Char) :
    readTotals line = Token.readBrackets line >>= fun k => readDistribution k.tokens := by
  rw [readTotals]
  cases Token.readBrackets line <;> rfl

theorem HeadedAlike.readTotals (h : HeadedAlike line line') :
    EndsLike LineError.gist Eq (readTotals line) (readTotals line') := by
  rw [readTotals_eq_bind, readTotals_eq_bind]
  refine h.bind fun k k' _ _ hheads => ?_
  rw [readDistribution_eq_mapM, readDistribution_eq_mapM, hheads.1]
  exact EndsLike.refl _

theorem HeadedAlike.read (h : HeadedAlike line line') :
    EndsLike LineError.gist Eq (read line) (read line') := by
  rw [Line.read, Line.read]
  refine h.bind fun k k' hk hk' hheads => ?_
  obtain ⟨hcounts, hrest⟩ := hheads
  rw [readDistribution_eq_mapM, readDistribution_eq_mapM, hcounts]
  refine (EndsLike.refl _).bind fun distribution distribution' _ _ hdistribution => ?_
  obtain ⟨ws, ws', hws, hws', hsame⟩ := hrest.exists_worded
  rw [Token.readWords_of_worded hws, Token.readWords_of_worded hws']
  have hstand := hws.standAt (Token.bracketed_of_readBrackets hk).2
  have hstand' := hws'.standAt (Token.bracketed_of_readBrackets hk').2
  refine (readWords_alike hsame hstand hstand').bind fun parsed parsed' _ _ hparsed => ?_
  rw [hdistribution, hparsed]
  exact .ok rfl

end Line

/-- The brackets of lines that are alike are read alike. -/
theorem Alike.headedAlike {line line' : List Char} (h : Alike line line') :
    Line.HeadedAlike line line' := by
  cases h with
  | ends h =>
      obtain ⟨core, hfront, hback, hfront', hback'⟩ := h
      refine (Token.readBrackets_alike hfront ⟨_, hback, rfl⟩).of_common
        (Token.readBrackets_alike hfront' ⟨_, hback', rfl⟩) ?_
      rintro k k₁ k₂ ⟨hcounts, back, hback, hrest⟩ ⟨hcounts', back', hback', hrest'⟩
      refine ⟨hcounts.symm.trans hcounts', ?_⟩
      rw [hrest, hrest']
      exact .intro k.rest (List.forall_mem_nil _) hback (List.forall_mem_nil _) hback'
  | counts h h' hrest =>
      obtain ⟨k, hk, hruns, rfl⟩ := Token.readBrackets_of_bracketed h
      obtain ⟨k', hk', hruns', rfl⟩ := Token.readBrackets_of_bracketed h'
      rw [Line.HeadedAlike, hk, hk']
      exact .ok ⟨hruns.trans hruns'.symm, hrest⟩

end Rulebook
