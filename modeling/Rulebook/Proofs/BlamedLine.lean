import Rulebook.Proofs.CountLimit

/-!
# Listings — the line of an error

The lines of a listing are passed one by one, as long as they are rules that suit the counts that
are left (`Passed`).  A line that is not passed and is not a default line to stop at fails, for one
of four reasons (`Fails`).  The first line that fails is the one that an error blames, and where
all lines are passed the default line is missing (`Blamed`, `readRules_eq_error_iff`).

The last line comes before all others: without counts in it there is nothing to take away from, so
what is wrong with its brackets is blamed first.

* `Listing.Request.read_eq_error_iff`: which error a text ends with, and that its line has the
  number under which it stands in the text.
-/

namespace Rulebook

/-- A line with short counts that is not written as a line has to be blames a column. -/
theorem Line.exists_malformed_of_error {line : List Char} {e : LineError}
    (hshort : ShortCounts line) (h : read line = .error e) :
    ∃ fault column, e = .malformed fault column := by
  cases e with
  | malformed fault column => exact ⟨fault, column, rfl⟩
  | oversized digits =>
      obtain ⟨hlong, runs, rest, hbracketed, run, hrun, rfl⟩ := oversized_of_read h
      exact absurd (hshort runs rest hbracketed run hrun) (not_le.mpr hlong)

namespace Listing

variable {o : Options} {totals left : List Int} {preceded first : Bool} {line : NumberedLine}
  {lines : List NumberedLine} {content : Line} {clauses : List Clause} {l : RuleLine}
  {ls : List RuleLine} {e : ListingError} {text : List Char}

/-! ### Lines that fail and lines that pass -/

/-- Why a reading ends with an error at a line before which `left` examples are left.  No rule came
before the line if it is `first`. -/
inductive Fails (o : Options) (left : List Int) (first : Bool) (line : NumberedLine) :
    ListingError → Prop
  /-- It is not written as a line has to be. -/
  | unwritten {fault : LineFault} {column : Nat}
      (hunwritten : ∀ content, ¬ Line.Written line.text content)
      (hread : Line.read line.text = .error (.malformed fault column)) :
      Fails o left first line (.malformed line fault column)
  /-- It is a rule that counts other classes. -/
  | classCount {content : Line} {clauses : List Clause}
      (hwritten : Line.Written line.text content) (hclauses : content.antecedent = .clauses clauses)
      (hwidth : content.distribution.length ≠ left.length) :
      Fails o left first line
        (.malformed line (.classCount left.length content.distribution.length)
          (bracketColumn line.text))
  /-- It is a rule that covers more than is left, and the reading is strict. -/
  | overdrawn {content : Line} {clauses : List Clause}
      (hwritten : Line.Written line.text content) (hclauses : content.antecedent = .clauses clauses)
      (hwidth : content.distribution.length = left.length) (hstrict : o.strict = true)
      (hdebt : ∃ n ∈ remaining left content.distribution, n < 0) :
      Fails o left first line (.overdrawn line left content.distribution)
  /-- It is a default line that is to be ignored, and no rule can take its place. -/
  | defaultAlone {content : Line} (hwritten : Line.Written line.text content)
      (halways : content.antecedent = .always) (hignore : o.ignoreDefault = true)
      (hfirst : first = true) : Fails o left first line (.defaultAlone line)

/-- A line that is passed where `left` examples are left: it is written as a rule, counts the same
classes, and covers no more than is left if the reading is strict. -/
structure Passes (o : Options) (left : List Int) (l : RuleLine) : Prop where
  written : Line.Written l.line.text l.content
  clauses : l.content.antecedent = .clauses l.clauses
  width : l.content.distribution.length = left.length
  covers : o.strict = true → ∀ n ∈ remaining left l.content.distribution, 0 ≤ n

/-- Lines that are passed one after the other. -/
def Passed (o : Options) (totals : List Int) (ls : List RuleLine) : Prop :=
  ∀ k (h : k < ls.length), Passes o (leftAfter totals (ls.take k)) ls[k]

/-- The error of some lines: that of the first line that fails, or, where all lines are passed, that
there is no default line. -/
inductive Blamed (o : Options) (totals : List Int) (preceded : Bool) (lines : List NumberedLine) :
    ListingError → Prop
  | line {before : List RuleLine} {line : NumberedLine} {after : List NumberedLine}
      {e : ListingError} (hlines : lines = before.map (·.line) ++ line :: after)
      (hpassed : Passed o totals before)
      (hfails : Fails o (leftAfter totals before) (!preceded && before.isEmpty) line e) :
      Blamed o totals preceded lines e
  | noDefault {before : List RuleLine} (hlines : lines = before.map (·.line))
      (hpassed : Passed o totals before) : Blamed o totals preceded lines .noDefault

/-- What a line is written to say is what it is read as. -/
theorem written_iff_of_read (h : Line.read line.text = .ok content) {content' : Line} :
    Line.Written line.text content' ↔ content' = content := by
  rw [← Line.read_eq_ok_iff_written (Line.shortCounts_of_read h), h, Except.ok.injEq, eq_comm]

theorem fails_iff_of_error {fault : LineFault} {column : Nat} (hshort : ShortCounts line.text)
    (h : Line.read line.text = .error (.malformed fault column)) :
    Fails o left first line e ↔ e = .malformed line fault column := by
  have hunwritten : ∀ content, ¬ Line.Written line.text content := fun content hwritten => by
    rw [← Line.read_eq_ok_iff_written hshort, h] at hwritten
    cases hwritten
  constructor
  · rintro (⟨-, hread⟩ | ⟨hwritten⟩ | ⟨hwritten⟩ | ⟨hwritten⟩)
    · cases h.symm.trans hread
      rfl
    all_goals exact absurd hwritten (hunwritten _)
  · rintro rfl
    exact .unwritten hunwritten h

theorem fails_iff_of_always (h : Line.read line.text = .ok content)
    (halways : content.antecedent = .always) :
    Fails o left first line e ↔
      (o.ignoreDefault = true ∧ first = true) ∧ e = .defaultAlone line := by
  constructor
  · rintro (⟨-, hread⟩ | ⟨hwritten, hclauses⟩ | ⟨hwritten, hclauses⟩ | ⟨-, -, hignore, hfirst⟩)
    · cases h.symm.trans hread
    · rw [(written_iff_of_read h).mp hwritten, halways] at hclauses
      cases hclauses
    · rw [(written_iff_of_read h).mp hwritten, halways] at hclauses
      cases hclauses
    · exact ⟨⟨hignore, hfirst⟩, rfl⟩
  · rintro ⟨⟨hignore, hfirst⟩, rfl⟩
    exact .defaultAlone ((written_iff_of_read h).mpr rfl) halways hignore hfirst

theorem fails_iff_of_clauses (h : Line.read line.text = .ok content)
    (hclauses : content.antecedent = .clauses clauses) :
    Fails o left first line e ↔
      (content.distribution.length ≠ left.length ∧
        e = .malformed line (.classCount left.length content.distribution.length)
          (bracketColumn line.text)) ∨
      content.distribution.length = left.length ∧ o.strict = true ∧
        (∃ n ∈ remaining left content.distribution, n < 0) ∧
        e = .overdrawn line left content.distribution := by
  constructor
  · rintro (⟨-, hread⟩ | ⟨hwritten, -, hwidth⟩ | ⟨hwritten, -, hwidth, hstrict, hdebt⟩ |
      ⟨hwritten, halways⟩)
    · cases h.symm.trans hread
    · obtain rfl := (written_iff_of_read h).mp hwritten
      exact .inl ⟨hwidth, rfl⟩
    · obtain rfl := (written_iff_of_read h).mp hwritten
      exact .inr ⟨hwidth, hstrict, hdebt, rfl⟩
    · rw [(written_iff_of_read h).mp hwritten, hclauses] at halways
      cases halways
  · have hwritten : Line.Written line.text content := (written_iff_of_read h).mpr rfl
    rintro (⟨hwidth, rfl⟩ | ⟨hwidth, hstrict, hdebt, rfl⟩)
    · exact .classCount hwritten hclauses hwidth
    · exact .overdrawn hwritten hclauses hwidth hstrict hdebt

theorem passed_nil : Passed o totals [] := fun _ hk => absurd hk (Nat.not_lt_zero _)

/-- The first line is passed, and the others with what it leaves. -/
theorem passed_cons :
    Passed o totals (l :: ls) ↔
      Passes o totals l ∧ Passed o (remaining totals l.content.distribution) ls := by
  constructor
  · intro h
    have hl := h 0 (Nat.succ_pos _)
    rw [List.take_zero, leftAfter_nil, List.getElem_cons_zero] at hl
    refine ⟨hl, fun k hk => ?_⟩
    rw [← leftAfter_cons hl.width]
    exact h (k + 1) (Nat.succ_lt_succ hk)
  · rintro ⟨hl, hls⟩ k hk
    cases k with
    | zero =>
        rw [List.take_zero, leftAfter_nil]
        exact hl
    | succ k =>
        rw [List.take_succ_cons, leftAfter_cons hl.width]
        exact hls k (Nat.lt_of_succ_lt_succ hk)

/-! ### One line -/

/-- The error of some lines is that of the first of them if it fails, and else, if it is passed,
that of the others. -/
theorem blamed_cons_iff :
    Blamed o totals preceded (line :: lines) e ↔ Fails o totals (!preceded) line e ∨
      ∃ l : RuleLine, l.line = line ∧ Passes o totals l ∧
        Blamed o (remaining totals l.content.distribution) true lines e := by
  constructor
  · rintro (⟨hlines, hpassed, hfails⟩ | ⟨hlines, hpassed⟩)
    · rename_i before failing after
      cases before with
      | nil =>
          obtain ⟨rfl, rfl⟩ := List.cons.inj hlines
          rw [leftAfter_nil, List.isEmpty_nil, Bool.and_true] at hfails
          exact .inl hfails
      | cons l before =>
          obtain ⟨rfl, rfl⟩ := List.cons.inj hlines
          obtain ⟨hl, hpassed⟩ := passed_cons.mp hpassed
          rw [leftAfter_cons hl.width, List.isEmpty_cons, Bool.and_false] at hfails
          exact .inr ⟨l, rfl, hl, .line rfl hpassed hfails⟩
    · rename_i before
      cases before with
      | nil => cases hlines
      | cons l before =>
          obtain ⟨rfl, rfl⟩ := List.cons.inj hlines
          obtain ⟨hl, hpassed⟩ := passed_cons.mp hpassed
          exact .inr ⟨l, rfl, hl, .noDefault rfl hpassed⟩
  · rintro (hfails | ⟨l, rfl, hl, ⟨rfl, hpassed, hfails⟩ | ⟨rfl, hpassed⟩⟩)
    · refine @Blamed.line _ _ _ (line :: lines) [] line lines _ rfl passed_nil ?_
      rw [leftAfter_nil, List.isEmpty_nil, Bool.and_true]
      exact hfails
    · rename_i before failing after
      refine .line (List.cons_append (a := l.line)).symm (passed_cons.mpr ⟨hl, hpassed⟩) ?_
      rw [leftAfter_cons hl.width, List.isEmpty_cons, Bool.and_false]
      exact hfails
    · exact .noDefault (List.map_cons ..).symm (passed_cons.mpr ⟨hl, hpassed⟩)

/-- A line that is passed is read as what it says. -/
theorem Passes.read (h : Passes o left l) (hshort : ShortCounts l.line.text) :
    Line.read l.line.text = .ok l.content :=
  (Line.read_eq_ok_iff_written hshort _).mpr h.written

/-- A rule that suits what is left is passed. -/
theorem passes_iff_of_clauses (h : Line.read line.text = .ok content)
    (hclauses : content.antecedent = .clauses clauses) :
    Passes o left ⟨line, content, clauses⟩ ↔ content.distribution.length = left.length ∧
      (o.strict = true → ∀ n ∈ remaining left content.distribution, 0 ≤ n) :=
  ⟨fun hl => ⟨hl.width, hl.covers⟩,
    fun ⟨hwidth, hcovers⟩ => ⟨(written_iff_of_read h).mpr rfl, hclauses, hwidth, hcovers⟩⟩

/-- A rule is where the reading ends if it fails, and is passed if not. -/
theorem readRules_clauses_eq_error_iff (h : Line.read line.text = .ok content)
    (hclauses : content.antecedent = .clauses clauses) :
    (readRules o totals preceded (line :: lines)).outcome = .error e ↔
      Fails o totals (!preceded) line e ∨ Passes o totals ⟨line, content, clauses⟩ ∧
        (readRules o (remaining totals content.distribution) true lines).outcome = .error e := by
  rw [fails_iff_of_clauses h hclauses, passes_iff_of_clauses h hclauses]
  by_cases hwidth : content.distribution.length = totals.length
  · have hfits : Fits totals [⟨line, content, clauses⟩] ↔ _ := fits_singleton hwidth
    rw [readRules_of_clauses h hclauses hwidth]
    simp only [hwidth, ne_eq, not_true_eq_false, false_and, false_or, true_and]
    by_cases hcovers : ∀ n ∈ remaining totals content.distribution, 0 ≤ n
    · rw [if_neg fun h => h.2 (hfits.mpr hcovers), Except.map_eq_error_iff, or_iff_right]
      · exact (and_iff_right fun _ => hcovers).symm
      · rintro ⟨-, ⟨n, hn, hdebt⟩, -⟩
        exact absurd (hcovers n hn) (not_le.mpr hdebt)
    · have hdebt : ∃ n ∈ remaining totals content.distribution, n < 0 := by
        simpa only [not_forall, not_le, exists_prop] using hcovers
      by_cases hstrict : o.strict = true
      · rw [if_pos ⟨hstrict, fun h => hcovers (hfits.mp h)⟩,
          or_iff_left fun h => hcovers (h.1 hstrict), Except.error.injEq, eq_comm]
        exact ⟨fun he => ⟨hstrict, hdebt, he⟩, fun he => he.2.2⟩
      · rw [if_neg fun h => hstrict h.1, Except.map_eq_error_iff, or_iff_right fun h => hstrict h.1]
        exact (and_iff_right fun h => absurd h hstrict).symm
  · rw [readRules_of_width h hclauses hwidth, or_iff_left fun h => hwidth h.1.1,
      or_iff_left fun h => hwidth h.1, and_iff_right hwidth, Except.error.injEq, eq_comm]

/-- What the reading of some lines ends with is told by the first of them if it fails, and else, if
it is passed, by the others. -/
theorem readRules_cons_eq_error_iff (hshort : ShortCounts line.text) :
    (readRules o totals preceded (line :: lines)).outcome = .error e ↔
      Fails o totals (!preceded) line e ∨ ∃ l : RuleLine, l.line = line ∧ Passes o totals l ∧
        (readRules o (remaining totals l.content.distribution) true lines).outcome = .error e := by
  cases hread : Line.read line.text with
  | error e' =>
      obtain ⟨fault, column, rfl⟩ := Line.exists_malformed_of_error hshort hread
      rw [readRules_of_error hread, fails_iff_of_error hshort hread, or_iff_left,
        Except.error.injEq, eq_comm]
      · rfl
      · rintro ⟨l, rfl, hl, -⟩
        cases hread.symm.trans (hl.read hshort)
  | ok content =>
      cases hantecedent : content.antecedent with
      | always =>
          rw [readRules_of_always hread hantecedent, fails_iff_of_always hread hantecedent,
            or_iff_left, ← Bool.and_eq_true]
          · split_ifs with halone
            · rw [and_iff_right halone, Except.error.injEq, eq_comm]
            · exact iff_of_false (nomatch ·) fun h => halone h.1
          · rintro ⟨l, rfl, hl, -⟩
            cases hread.symm.trans (hl.read hshort)
            cases hantecedent.symm.trans hl.clauses
      | clauses clauses =>
          rw [readRules_clauses_eq_error_iff hread hantecedent]
          refine or_congr_right ⟨fun ⟨hl, hrest⟩ => ⟨_, rfl, hl, hrest⟩, ?_⟩
          rintro ⟨l, rfl, hl, hrest⟩
          cases hread.symm.trans (hl.read hshort)
          cases hantecedent.symm.trans hl.clauses
          exact ⟨hl, hrest⟩

/-! ### All lines -/

/-- **The first line that fails is the one to blame.** -/
theorem readRules_eq_error_iff (hshort : ∀ line ∈ lines, ShortCounts line.text) :
    (readRules o totals preceded lines).outcome = .error e ↔ Blamed o totals preceded lines e := by
  induction lines generalizing totals preceded with
  | nil =>
      constructor
      · rintro ⟨⟩
        exact .noDefault List.map_nil.symm passed_nil
      · rintro (⟨hlines⟩ | -)
        · exact absurd hlines.symm (List.append_ne_nil_of_right_ne_nil _ (List.cons_ne_nil _ _))
        · rfl
  | cons line lines ih =>
      obtain ⟨hline, hlines⟩ := List.forall_mem_cons.mp hshort
      rw [readRules_cons_eq_error_iff hline, blamed_cons_iff]
      simp only [ih hlines]

/-- A line of a text stands there under its number. -/
theorem getElem?_of_mem_numberedLines (h : line ∈ numberedLines text) :
    1 ≤ line.number ∧ (Text.splitLines text)[line.number - 1]? = some line.text := by
  obtain ⟨⟨cs, number⟩, hmem, rfl⟩ := List.mem_map.mp (List.mem_of_mem_filter h)
  obtain ⟨hfirst, hlines⟩ := List.mk_mem_zipIdx_iff_le_and_getElem?_sub.mp hmem
  exact ⟨hfirst, hlines⟩

/-- The line that an error blames is one of the lines. -/
theorem ErrorOf.mem_of_line? (h : ErrorOf lines e) (hline : e.line? = some line) :
    line ∈ lines := by
  cases h with
  | malformed h | classCount h | overdrawn h | defaultAlone h =>
      cases hline
      exact h
  | oversized | noDefault => cases hline

/-! ### A text -/

/-- The counts that some runs of digits write. -/
def totalsOf (runs : List (List Char)) : List Int :=
  runs.map fun run => Int.ofNat (Text.ofDigits (run.filterMap Text.digit?))

/-- A line without counts in brackets blames a column. -/
theorem exists_malformed_of_not_bracketed {line : List Char}
    (h : ∀ runs rest, ¬ Bracketed line runs rest) :
    ∃ fault column, Token.readBrackets line = .error (.malformed fault column) := by
  cases hread : Token.readBrackets line with
  | ok counts => exact absurd (Token.bracketed_of_readBrackets hread).1 (h _ _)
  | error e =>
      obtain ⟨-, -⟩ := Token.failsAs_readBrackets (Nat.lt_succ_self _) e hread
      exact ⟨_, _, rfl⟩

/-- What is wrong with the brackets of the last line is blamed first. -/
theorem read_of_not_bracketed {last : NumberedLine}
    (hlast : (numberedLines text).getLast? = some last) {fault : LineFault} {column : Nat}
    (h : Token.readBrackets last.text = .error (.malformed fault column)) :
    (read o text).outcome = .error (.malformed last fault column) := by
  have htotals : Line.readTotals last.text = .error (.malformed fault column) := by
    rw [Line.readTotals, h]
  simp only [read, hlast, htotals]
  rfl

theorem totals?_of_bracketed {last : NumberedLine}
    (hlast : (numberedLines text).getLast? = some last) {runs : List (List Char)} {rest : List Char}
    (h : Bracketed last.text runs rest) (hshort : ShortCounts last.text) :
    totals? text = some (totalsOf runs) := by
  obtain ⟨counts, hcounts, rfl, rfl⟩ := Token.readBrackets_of_bracketed h
  have htotals : Line.readTotals last.text = .ok ((Token.countTexts counts.tokens).map fun run =>
      Text.ofDigits (run.filterMap Text.digit?)) := by
    rw [Line.readTotals, hcounts]
    exact Line.readDistribution_eq (hshort _ _ h)
  rw [totals?, hlast, Option.bind_some, htotals, totalsOf]
  simp only [Except.toOption, Option.map_some, List.map_map]
  rfl

/-- **Errors blame the right line.**  If the last line that is not blank has no counts in brackets,
that line is blamed for it.  Otherwise the error is that of the first line that fails, or that
there is no default line where all lines are passed.  The line of an error has the number under
which it stands in the text, blank lines counted. -/
theorem Request.read_eq_error_iff (r : Request)
    (defaults : Except (List Settings.Fault) Settings) (o : Options)
    (ho : r.options defaults = .ok o) (text : List Char) (hsome : inkedLines text ≠ [])
    (hshort : ∀ line ∈ inkedLines text, ShortCounts line) :
    ∃ last, (numberedLines text).getLast? = some last ∧
      ((∀ runs rest, ¬ Bracketed last.text runs rest) →
        ∃ fault column, Token.readBrackets last.text = .error (.malformed fault column) ∧
          (r.read defaults text).outcome = .error (.refused (.malformed last fault column))) ∧
      (∀ runs rest, Bracketed last.text runs rest → ∀ e,
        (r.read defaults text).outcome = .error e ↔
          ∃ e', Blamed o (totalsOf runs) false (numberedLines text) e' ∧ .refused e' = e) ∧
      ∀ e line, (r.read defaults text).outcome = .error (.refused e) → e.line? = some line →
        1 ≤ line.number ∧ (Text.splitLines text)[line.number - 1]? = some line.text := by
  have htexts := map_text_numberedLines text
  have hshort : ∀ line ∈ numberedLines text, ShortCounts line.text := fun line hline =>
    hshort _ (htexts ▸ List.mem_map_of_mem hline)
  obtain ⟨last, hlast⟩ : ∃ last, (numberedLines text).getLast? = some last :=
    ⟨_, List.getLast?_eq_some_getLast fun hnone => hsome (by rw [← htexts, hnone, List.map_nil])⟩
  rw [outcome_read ho]
  refine ⟨last, hlast, fun hnone => ?_, fun runs rest hbracketed e => ?_, fun e line he hline => ?_⟩
  · obtain ⟨fault, column, hread⟩ := exists_malformed_of_not_bracketed hnone
    exact ⟨fault, column, hread,
      Except.mapError_eq_error_iff.mpr ⟨_, read_of_not_bracketed hlast hread, rfl⟩⟩
  · have htotals := totals?_of_bracketed hlast hbracketed (hshort last (List.mem_of_getLast? hlast))
    rw [Except.mapError_eq_error_iff, read_of_totals?_eq_some htotals]
    simp only [Except.map_eq_error_iff, readRules_eq_error_iff hshort]
  · obtain ⟨e', hread, ⟨⟩⟩ := Except.mapError_eq_error_iff.mp he
    exact getElem?_of_mem_numberedLines ((failsAs_read o text e hread).mem_of_line? hline)

/-- Two rules among blank lines, of which the second covers one example of the first class too
many. -/
def gappedText : List Char :=
  ("\n[2,0] IF x>=1.0 THEN y=A -0.0\n\n[2,3] IF x>=2.0 THEN y=B -0.0\n" ++
    "[3,3] IF TRUE THEN y=B -1.0").toList

/-- The blank lines count in the number of the line that is blamed. -/
theorem Request.read_eq_error_iff_gappedText :
    ∃ last runs rest, (numberedLines gappedText).getLast? = some last ∧
      Bracketed last.text runs rest ∧
      Blamed ⟨false, true, id⟩ (totalsOf runs) false (numberedLines gappedText)
        (.overdrawn ⟨4, "[2,3] IF x>=2.0 THEN y=B -0.0".toList⟩ [1, 3] [2, 3]) ∧
      (Text.splitLines gappedText)[3]? = some "[2,3] IF x>=2.0 THEN y=B -0.0".toList := by
  have hread : (Request.read ⟨false, some true, id⟩ (.ok .default) gappedText).outcome =
      .error (.refused (.overdrawn ⟨4, "[2,3] IF x>=2.0 THEN y=B -0.0".toList⟩ [1, 3] [2, 3])) :=
    Except.map_eq_error_iff.mp (show (Request.read ⟨false, some true, id⟩ (.ok .default)
      gappedText).outcome.map (fun _ => ()) = _ by decide +kernel)
  have hlengths : ∀ line ∈ inkedLines gappedText, line.length ≤ 4300 := by decide +kernel
  obtain ⟨last, hlast, -, hblamed, hnumber⟩ := read_eq_error_iff ⟨false, some true, id⟩
    (.ok .default) ⟨false, true, id⟩ rfl gappedText (by decide +kernel)
    fun line hline => Line.shortCounts_of_length_le (hlengths line hline)
  obtain ⟨-, hsplit⟩ := hnumber _ _ hread rfl
  have hlast' : (numberedLines gappedText).getLast? =
      some ⟨5, "[3,3] IF TRUE THEN y=B -1.0".toList⟩ := by decide +kernel
  obtain rfl := Option.some.inj (hlast'.symm.trans hlast)
  obtain ⟨counts, hcounts⟩ := Except.isOk_iff.mp (show
    (Token.readBrackets "[3,3] IF TRUE THEN y=B -1.0".toList).isOk = true by decide +kernel)
  obtain ⟨hbracketed, -⟩ := Token.bracketed_of_readBrackets hcounts
  obtain ⟨e, he, ⟨⟩⟩ := (hblamed _ _ hbracketed _).mp hread
  exact ⟨_, _, _, hlast, hbracketed, he, hsplit⟩

/-- Where the strictness is left to settings that cannot be read, no line is blamed. -/
theorem not_blamed_of_unsettled :
    ¬ ∀ (r : Request) (defaults : Except (List Settings.Fault) Settings) (text : List Char),
      inkedLines text ≠ [] → (∀ line ∈ inkedLines text, ShortCounts line) →
      ∃ last, (numberedLines text).getLast? = some last ∧
        ((∀ runs rest, ¬ Bracketed last.text runs rest) → ∃ fault column,
          (r.read defaults text).outcome = .error (.refused (.malformed last fault column))) := by
  intro h
  have hstop : (Request.read ⟨false, none, id⟩ (.error [⟨.strictCoverage, .noTruthValue⟩])
      ['x']).outcome = .error (.unsettled [⟨.strictCoverage, .noTruthValue⟩]) := rfl
  have hlengths : ∀ line ∈ inkedLines ['x'], line.length ≤ 4300 := by decide
  obtain ⟨last, hlast, hmalformed⟩ := h ⟨false, none, id⟩
    (.error [⟨.strictCoverage, .noTruthValue⟩]) ['x'] (by decide)
    fun line hline => Line.shortCounts_of_length_le (hlengths line hline)
  obtain rfl := Option.some.inj ((show (numberedLines ['x']).getLast? = some ⟨1, ['x']⟩ by
    decide).symm.trans hlast)
  have hnone : ∀ runs rest, ¬ Bracketed ['x'] runs rest := fun runs rest hbracketed => by
    obtain ⟨counts, hcounts, -⟩ := Token.readBrackets_of_bracketed hbracketed
    exact absurd (Except.isOk_iff.mpr ⟨counts, hcounts⟩) (by decide)
  obtain ⟨fault, column, hread⟩ := hmalformed hnone
  cases hstop.symm.trans hread

end Listing

end Rulebook
