import Rulebook.Proofs.Coverage
import Rulebook.Proofs.LineRead

/-!
# Listings — the errors of a line

An error in a line blames a column, from the first one to that just behind the line
(`LineError.Within`).  There is one lemma for each reader of a part of a line: the tokens that it
is given stop within the line, and so do the columns it counts from them.

Two errors are not of this kind.  A count of too many digits blames no column.  And where nothing,
or less than a prediction and a score, stands behind `THEN`, they are missed two columns behind its
end, which may be one column too far (`Line.failsAs_readWords` asks for the room).
-/

namespace Rulebook

/-- An error that blames a column from one to `last`. -/
inductive LineError.Within (last : Nat) : LineError → Prop
  | intro {fault : LineFault} {column : Nat} (hfirst : 1 ≤ column) (hlast : column ≤ last) :
      Within last (.malformed fault column)

/-! ### Tokens -/

namespace Token

variable {position last : Nat} {cs : List Char}

/-- Behind a count, position and rest move together. -/
theorem next_add_length (position : Nat) (cs : List Char)
    (hdigits : (skipBlanks position cs).2.takeWhile Text.isDigit ≠ []) :
    let run := (skipBlanks position cs).2.takeWhile Text.isDigit
    let count : Token := ⟨.count, run, (skipBlanks position cs).1⟩
    let next := skipBlanks count.stop ((skipBlanks position cs).2.dropWhile Text.isDigit)
    next.1 + next.2.length = position + cs.length := by
  intro run count next
  obtain ⟨left, right, -, -, -, hcs, hnext⟩ := exists_pieces position cs hdigits
  have hlength := congrArg List.length hcs
  simp only [List.length_append] at hlength hnext
  change cs.length = left.length + (run.length + (right.length + next.2.length)) at hlength
  change next.1 = position + (left.length + (run.length + right.length)) at hnext
  omega

theorem failsAs_readCounts (position : Nat) (cs : List Char) (hlast : position + cs.length < last) :
    FailsAs (LineError.Within last) (readCounts position cs) := by
  fun_induction readCounts position cs with
  | case1 position cs start text digits hdigits =>
      obtain ⟨gap, -, hcs, hstart⟩ := exists_gap position cs
      have hlength := congrArg List.length hcs
      rw [List.length_append] at hlength
      change start = _ at hstart
      exact .error (.intro (by omega) (by omega))
  | case2 position cs start text digits hne count next hnext =>
      have hlength := next_add_length position cs hne
      change next.1 + next.2.length = _ at hlength
      exact .error (.intro (by omega) (by omega))
  | case3 => exact .ok _
  | case4 position cs start text digits hne count next rest e hread hnext ih =>
      have hlength := next_add_length position cs hne
      change next.1 + next.2.length = _ at hlength
      rw [hnext, List.length_cons] at hlength
      exact .error (ih (by omega) _ hread)
  | case5 => exact .ok _
  | case6 position cs start text digits hne count next c rest hnext hcomma hclose =>
      have hlength := next_add_length position cs hne
      change next.1 + next.2.length = _ at hlength
      exact .error (.intro (by omega) (by omega))

theorem failsAs_readBrackets {line : List Char} (hlast : line.length < last) :
    FailsAs (LineError.Within last) (readBrackets line) := by
  obtain ⟨gap, -, hline, hstart⟩ := exists_gap 0 line
  have hlength := congrArg List.length hline
  rw [List.length_append] at hlength
  unfold readBrackets
  generalize skipBlanks 0 line = skipped at hlength hstart
  obtain ⟨start, text⟩ := skipped
  dsimp only at hlength hstart ⊢
  split
  next rest =>
      rw [List.length_cons] at hlength
      split
      next => exact .ok _
      next e hcounts => exact .error (failsAs_readCounts _ _ (by omega) e hcounts)
  next => exact .error (.intro (by omega) (by omega))

/-- Behind the brackets, position and rest make up the line. -/
theorem position_add_length {line : List Char} {counts : Counts}
    (h : readBrackets line = .ok counts) :
    counts.position + counts.rest.length = line.length := by
  obtain ⟨gap, -, hline, hstart⟩ := exists_gap 0 line
  unfold readBrackets at h
  generalize skipBlanks 0 line = skipped at hline hstart h
  obtain ⟨start, text⟩ := skipped
  dsimp only at hline hstart h
  split at h
  next rest =>
      split at h
      next counts' hcounts =>
          cases h
          obtain ⟨text', -, hrest, hposition⟩ := exists_countsText_of_readCounts _ _ hcounts
          rw [hline, hrest]
          simp only [List.length_append, List.length_cons]
          omega
      next => cases h
  next => cases h

/-- An error at a token blames the column where the token starts. -/
theorem within_column {t : Token} (h : t.stop < last) (fault : LineFault) :
    LineError.Within last (.malformed fault t.column) :=
  .intro (Nat.le_add_left 1 t.start) (lt_of_le_of_lt (Nat.le_add_right t.start t.text.length) h)

/-- The token of a word stops where the words end, or before. -/
theorem stop_le_of_mem_ofWords {ws : List SpacedWord} {t : Token} (h : t ∈ ofWords position ws) :
    t.stop ≤ position + (SpacedWord.text ws).length := by
  induction ws generalizing position with
  | nil => cases h
  | cons w ws ih =>
      rw [SpacedWord.text_cons, List.length_append, List.length_append]
      rcases List.mem_cons.mp h with rfl | h
      · change position + w.gap.length + w.word.length ≤ _
        omega
      · have hstop := ih h
        rw [List.length_append] at hstop
        omega

end Token

/-! ### Clauses -/

theorem Clause.failsAs_read {text : List Char} {column last : Nat} (hfirst : 1 ≤ column)
    (hlast : column + text.length ≤ last) : FailsAs (LineError.Within last) (read text column) := by
  unfold read
  split
  next => exact .error (.intro hfirst (by omega))
  next before op after hcut =>
    have hlength := congrArg List.length (cut?_eq_some_iff.mp hcut).1
    rw [List.length_append, List.length_append, String.length_toList] at hlength
    dsimp only
    split_ifs
    · exact .error (.intro (by omega) (by omega))
    · exact .error (.intro (by omega) (by omega))
    · exact .ok _

namespace Line

variable {line : List Char} {last : Nat} {tokens : List Token}

/-- The text between tokens ends where the last of them does. -/
theorem length_between_le (line : List Char) (first : Token) (others : List Token) :
    (between line (first :: others)).length ≤
      ((first :: others).getLast (List.cons_ne_nil first others)).stop - first.start := by
  rw [between, List.length_take]
  exact Nat.min_le_left _ _

theorem failsAs_readClause (htokens : ∀ t ∈ tokens, t.stop < last) (hlast : 1 ≤ last) :
    FailsAs (LineError.Within last) (readClause line tokens) := by
  unfold readClause
  cases tokens with
  | nil => exact Clause.failsAs_read le_rfl hlast
  | cons first others =>
      have hlength := length_between_le line first others
      have hfirst : first.start + first.text.length < last := htokens first List.mem_cons_self
      have hstop := htokens _ (List.getLast_mem (List.cons_ne_nil first others))
      refine Clause.failsAs_read (Nat.le_add_left 1 first.start) ?_
      change first.start + 1 + (between line (first :: others)).length ≤ last
      omega

theorem failsAs_splitClauses {current : List Token} {stop : Nat} (hstop : stop < last)
    (htokens : ∀ t ∈ tokens, t.stop < last) :
    FailsAs (LineError.Within last) (splitClauses current stop tokens) := by
  induction tokens generalizing current stop with
  | nil =>
      unfold splitClauses
      split_ifs
      · exact .error (.intro (by omega) hstop)
      · exact .ok _
  | cons t tokens ih =>
      obtain ⟨ht, htokens⟩ := List.forall_mem_cons.mp htokens
      unfold splitClauses
      split
      next =>
        split_ifs
        · exact .error (Token.within_column ht _)
        · split
          next => exact .ok _
          next e h => exact .error (ih ht htokens e h)
      next => exact .error (Token.within_column ht _)
      next => exact ih ht htokens

/-- The clauses are made of the tokens. -/
theorem mem_of_splitClauses {current : List Token} {stop : Nat} {groups : List (List Token)}
    (h : splitClauses current stop tokens = .ok groups) :
    ∀ group ∈ groups, ∀ t ∈ group, t ∈ current ++ tokens := by
  induction tokens generalizing current stop groups with
  | nil =>
      unfold splitClauses at h
      split_ifs at h
      cases h
      simp
  | cons t tokens ih =>
      unfold splitClauses at h
      split at h
      next =>
        split_ifs at h
        split at h
        next clauses hclauses =>
          cases h
          refine List.forall_mem_cons.mpr ⟨fun u hu => List.mem_append_left _ hu, ?_⟩
          intro group hgroup u hu
          have hu := ih hclauses group hgroup u hu
          exact List.mem_append_right _ (List.mem_cons_of_mem t hu)
        next => cases h
      next => cases h
      next =>
        rw [List.append_cons]
        exact ih h

theorem failsAs_readAntecedent (htokens : ∀ t ∈ tokens, t.stop < last) (hlast : 1 ≤ last) :
    FailsAs (LineError.Within last) (readAntecedent line tokens) := by
  unfold readAntecedent
  split
  next => exact .ok _
  next =>
    refine (failsAs_splitClauses hlast htokens).bind fun groups hgroups => ?_
    refine FailsAs.bind (FailsAs.mapM fun group hgroup => ?_) fun _ _ => .ok _
    exact failsAs_readClause (fun t ht => htokens t (mem_of_splitClauses hgroups group hgroup t ht))
      hlast

theorem failsAs_readConsequent {stop : Nat} (hstop : tokens.length < 2 → stop + 1 < last)
    (htokens : ∀ t ∈ tokens, t.stop < last) :
    FailsAs (LineError.Within last) (readConsequent line stop tokens) := by
  unfold readConsequent
  split
  next final first others hfinal hfirst =>
    have hfinal := htokens final (List.mem_of_getLast? hfinal)
    have hfirst := htokens first ((List.dropLast_subset tokens) (hfirst ▸ List.mem_cons_self))
    split
    next => exact .error (Token.within_column hfinal _)
    next =>
      dsimp only
      split_ifs
      · exact .error (Token.within_column hfirst _)
      · exact .ok _
  next hfew =>
    refine .error (.intro (Nat.le_add_left 1 _) (hstop ?_))
    rcases tokens with _ | ⟨first, _ | ⟨second, others⟩⟩
    · exact Nat.zero_lt_two
    · exact Nat.one_lt_two
    · exact absurd (List.dropLast_cons_cons ..)
        (hfew _ first _ (List.getLast?_eq_some_getLast (List.cons_ne_nil _ _)))

/-! ### Counts -/

/-- Counts that are not read have one that is too long. -/
theorem oversized_of_readDistribution {e : LineError} (h : readDistribution tokens = .error e) :
    ∃ run ∈ Token.countTexts tokens, 4300 < run.length ∧ e = .oversized run.length := by
  rw [readDistribution_eq_mapM] at h
  obtain ⟨run, hrun, hread⟩ := Except.exists_of_mapM_eq_error h
  unfold readCount at hread
  split_ifs at hread with hlong
  exact ⟨run, hrun, hlong, (Except.error.inj hread).symm⟩

/-! ### Words -/

/-- Words that say a line up to its first `THEN`, and end there. -/
inductive EndsAtThen : List SpacedWord → Prop
  | intro {opening closing : SpacedWord} {antecedent : List SpacedWord} {a : Antecedent}
      (hopening : opening.is "IF") (hsome : antecedent ≠ []) (hantecedent : a.Reading antecedent)
      (hfirst : ∀ w ∈ antecedent, ¬ w.is "THEN") (hclosing : closing.is "THEN") :
      EndsAtThen (opening :: (antecedent ++ [closing]))

/-- The words behind `THEN` begin where it stops. -/
theorem stop_add_length (position : Nat) (opening closing : SpacedWord)
    (antecedent rest : List SpacedWord) :
    (Token.ofWord closing.word (position + (opening.gap ++ opening.word).length +
      (SpacedWord.text antecedent).length + closing.gap.length)).stop +
        (SpacedWord.text rest).length =
      position + (SpacedWord.text (opening :: (antecedent ++ closing :: rest))).length := by
  simp only [Token.ofWord, Token.stop, SpacedWord.text_cons, SpacedWord.text_append,
    List.length_append]
  omega

/-- Such words lack a prediction, which should begin behind the blank that follows `THEN`. -/
theorem EndsAtThen.readWords_eq {position : Nat} {ws : List SpacedWord} (h : EndsAtThen ws)
    (hstand : SpacedWord.StandAt line position ws) :
    readWords line (Token.ofWords position ws) =
      .error (.malformed .noPrediction (position + (SpacedWord.text ws).length + 2)) := by
  obtain ⟨hopening, hsome, hantecedent, hfirst, hclosing⟩ := h
  obtain ⟨hante, -⟩ := SpacedWord.standAt_append (SpacedWord.standAt_of_cons hstand)
  rw [readWords_ofWords hopening hclosing hfirst]
  dsimp only
  rw [if_neg hsome, (readAntecedent_eq_ok_iff hante _).mpr hantecedent, Except.ok_bind]
  refine congrArg (fun column => Except.error (LineError.malformed .noPrediction column)) ?_
  exact congrArg (· + 2) (stop_add_length position _ _ _ [])

/-- An error in the words of a line blames a column of it, if there is room for a blank and one more
column behind a `THEN` at which they end. -/
theorem failsAs_readWords {position : Nat} {ws : List SpacedWord}
    (hstand : SpacedWord.StandAt line position ws) (hnonempty : ∀ w ∈ ws, w.word ≠ [])
    (hfit : position + (SpacedWord.text ws).length ≤ line.length) (hlast : line.length < last)
    (hthen : EndsAtThen ws → position + (SpacedWord.text ws).length + 1 < last) :
    FailsAs (LineError.Within last) (readWords line (Token.ofWords position ws)) := by
  have hstop : ∀ t ∈ Token.ofWords position ws, t.stop < last := fun t ht =>
    lt_of_le_of_lt ((Token.stop_le_of_mem_ofWords ht).trans hfit) hlast
  cases ws with
  | nil => exact .error (.intro (Nat.le_add_left 1 _) hlast)
  | cons opening ws =>
      by_cases hopening : opening.is "IF"
      case neg =>
        rw [readWords_of_not_if hopening]
        exact .error (Token.within_column (hstop _ List.mem_cons_self) _)
      rcases forall_or_exists_then ws with
        hnone | ⟨antecedent, closing, rest, rfl, hclosing, hfirst⟩
      · rw [readWords_of_not_then hopening hnone]
        exact .error (.intro (Nat.le_add_left 1 _) hlast)
      rw [Token.ofWords, Token.ofWords_append, Token.ofWords, List.forall_mem_cons,
        List.forall_mem_append, List.forall_mem_cons] at hstop
      obtain ⟨-, hante, hclose, hrest⟩ := hstop
      rw [readWords_ofWords hopening hclosing hfirst]
      dsimp only
      split_ifs with hsome
      · exact .error (Token.within_column hclose _)
      refine (failsAs_readAntecedent hante (by omega)).bind fun a ha => ?_
      refine (failsAs_readConsequent ?_ hrest).bind fun _ _ => .ok _
      intro hfew
      -- a word behind `THEN` is the room, and without any the words end there
      have hend := stop_add_length position opening closing antecedent rest
      cases rest with
      | nil =>
          have hstand' := (SpacedWord.standAt_append (SpacedWord.standAt_of_cons hstand)).1
          have hreading := (readAntecedent_eq_ok_iff hstand' a).mp ha
          have hroom := hthen (.intro hopening hsome hreading hfirst hclosing)
          rw [SpacedWord.text_nil, List.length_nil] at hend
          omega
      | cons w rest =>
          have hword : w.word.length ≤ (SpacedWord.text (w :: rest)).length := by
            rw [SpacedWord.text_cons, List.length_append, List.length_append]
            omega
          have hpos := List.length_pos_iff.mpr (hnonempty w (by simp))
          omega

/-- The same for the words behind the brackets of a line. -/
theorem failsAs_readWords_of_readBrackets {counts : Token.Counts}
    (hcounts : Token.readBrackets line = .ok counts) (hlast : line.length < last)
    (hthen : ∀ ws, Worded counts.rest ws → counts.rest = SpacedWord.text ws → EndsAtThen ws →
      line.length + 1 < last) :
    FailsAs (LineError.Within last)
      (readWords line (Token.readWords counts.position counts.rest)) := by
  obtain ⟨-, hdrop⟩ := Token.bracketed_of_readBrackets hcounts
  have hposition := Token.position_add_length hcounts
  obtain ⟨ws, hws⟩ := Token.exists_worded 0 counts.rest
  obtain ⟨trailing, -, hrest⟩ := hws.text
  have hlength := congrArg List.length hrest
  rw [List.length_append] at hlength
  rw [Token.readWords_of_worded hws]
  refine failsAs_readWords (hws.standAt hdrop) hws.nonempty (by omega) hlast fun hends => ?_
  cases trailing with
  | nil =>
      rw [List.append_nil] at hrest
      have hroom := hthen ws hws hrest hends
      omega
  | cons c trailing =>
      rw [List.length_cons] at hlength
      omega

/-- What is wrong with the counts of a line is wrong with the line. -/
theorem read_of_readTotals {e : LineError} (h : readTotals line = .error e) :
    read line = .error e := by
  unfold readTotals at h
  unfold read
  cases hcounts : Token.readBrackets line with
  | error e' =>
      rw [hcounts] at h
      cases h
      rfl
  | ok counts =>
      rw [hcounts] at h
      rw [Except.ok_bind, show readDistribution counts.tokens = .error e from h, Except.error_bind]

end Line

/-! ### The lines of a text -/

namespace Listing

/-- Where the errors of a listing come from: a line that cannot be read, a rule line that does not
suit the counts that are left, or the default line, ignored or missing. -/
inductive ErrorOf (lines : List NumberedLine) : ListingError → Prop
  | malformed {line : NumberedLine} {fault : LineFault} {column : Nat} (hline : line ∈ lines)
      (hread : Line.read line.text = .error (.malformed fault column)) :
      ErrorOf lines (.malformed line fault column)
  | oversized {line : NumberedLine} {digits : Nat} (hline : line ∈ lines)
      (hread : Line.read line.text = .error (.oversized digits)) : ErrorOf lines (.oversized digits)
  | classCount {line : NumberedLine} {content : Line} {expected found : Nat} (hline : line ∈ lines)
      (hread : Line.read line.text = .ok content) :
      ErrorOf lines (.malformed line (.classCount expected found) (bracketColumn line.text))
  | overdrawn {line : NumberedLine} {uncovered : List Int} {covered : List Nat}
      (hline : line ∈ lines) : ErrorOf lines (.overdrawn line uncovered covered)
  | defaultAlone {line : NumberedLine} (hline : line ∈ lines) : ErrorOf lines (.defaultAlone line)
  | noDefault : ErrorOf lines .noDefault

theorem ErrorOf.ofLine {lines : List NumberedLine} {line : NumberedLine} {e : LineError}
    (hline : line ∈ lines) (hread : Line.read line.text = .error e) :
    ErrorOf lines (.ofLine line e) := by
  cases e with
  | malformed fault column => exact .malformed hline hread
  | oversized digits => exact .oversized hline hread

theorem ErrorOf.cons {lines : List NumberedLine} {e : ListingError} (h : ErrorOf lines e)
    (line : NumberedLine) : ErrorOf (line :: lines) e := by
  cases h with
  | malformed hline hread => exact .malformed (List.mem_cons_of_mem line hline) hread
  | oversized hline hread => exact .oversized (List.mem_cons_of_mem line hline) hread
  | classCount hline hread => exact .classCount (List.mem_cons_of_mem line hline) hread
  | overdrawn hline => exact .overdrawn (List.mem_cons_of_mem line hline)
  | defaultAlone hline => exact .defaultAlone (List.mem_cons_of_mem line hline)
  | noDefault => exact .noDefault

theorem failsAs_readRules (o : Options) (totals : List Int) (preceded : Bool)
    (lines : List NumberedLine) :
    FailsAs (ErrorOf lines) (readRules o totals preceded lines).outcome := by
  fun_induction ruleLines lines generalizing totals preceded with
  | case1 => exact .error .noDefault
  | case2 line lines e hread =>
      rw [readRules_of_error hread]
      exact .error (.ofLine List.mem_cons_self hread)
  | case3 line lines content hread halways =>
      rw [readRules_of_always hread halways]
      split_ifs
      · exact .error (.defaultAlone List.mem_cons_self)
      · exact .ok _
  | case4 line lines content hread clauses hclauses ih =>
      by_cases hwidth : content.distribution.length = totals.length
      · rw [readRules_of_clauses hread hclauses hwidth]
        split_ifs
        · exact .error (.overdrawn List.mem_cons_self)
        · intro e h
          exact (ih _ _ e (Except.map_eq_error_iff.mp h)).cons line
      · rw [readRules_of_width hread hclauses hwidth]
        exact .error (.classCount List.mem_cons_self hread)

/-- **The errors of a listing are those of its lines.** -/
theorem failsAs_read (o : Options) (text : List Char) :
    FailsAs (ErrorOf (numberedLines text)) (read o text).outcome := by
  unfold read
  dsimp only
  cases hlast : (numberedLines text).getLast? with
  | none => exact .error ErrorOf.noDefault
  | some last =>
      dsimp only
      rw [Traced.outcome_bind, Traced.outcome_ofExcept]
      cases hread : Line.readTotals last.text with
      | error e =>
          -- the last line is read before the others, and it is the first to blame
          exact .error (.ofLine (List.mem_of_getLast? hlast) (Line.read_of_readTotals hread))
      | ok totals =>
          dsimp only [Except.mapError]
          rw [Except.ok_bind, Traced.outcome_bind]
          refine (failsAs_readRules o _ false _).bind fun _ _ => .ok _

end Listing

end Rulebook
