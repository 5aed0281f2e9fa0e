import Rulebook.Proofs.Coverage

/-!
# Listings — what is recorded of a reading

A reading records each rule line that it accepts, behind it the overdraft if the line leaves a debt
and the reading is lenient, and at the end the list if there is one.  The reader records while it
goes; here the records are those of the rule lines of the text, told by what the lines before each
of them cover (`rulesRecorded`).

* `Accepts`: the reading comes to a rule line and accepts it.
* `Listing.Request.read_logged`: everything that a reading tells, in order.
-/

namespace Rulebook

namespace Listing

/-! ### The rule lines that are accepted -/

/-- The reading comes to the `k`-th of some rule lines and accepts it: the line and those before it
count as many classes as there are totals, and if the reading is strict, the lines before it cover
no more than there is. -/
structure Accepts (o : Options) (totals : List Int) (ls : List RuleLine) (k : Nat) : Prop where
  widths : ∀ l ∈ ls.take (k + 1), l.content.distribution.length = totals.length
  fits : o.strict = true → ∀ j < k, Fits totals (ls.take (j + 1))

instance (o : Options) (totals : List Int) (ls : List RuleLine) (k : Nat) :
    Decidable (Accepts o totals ls k) :=
  decidable_of_iff
    ((∀ l ∈ ls.take (k + 1), l.content.distribution.length = totals.length) ∧
      (o.strict = true → ∀ j < k, Fits totals (ls.take (j + 1))))
    ⟨fun h => ⟨h.1, h.2⟩, fun h => ⟨h.widths, h.fits⟩⟩

/-- What is recorded of the `k`-th of some lines: the line, and behind it an overdraft if the
reading is lenient and a class is in debt after the line. -/
def lineRecorded (o : Options) (totals : List Int) (ls : List RuleLine) (k : Nat) (l : RuleLine) :
    List Log.Record :=
  .ruleRead l.line.number l.content.value l.content.distribution ::
    if o.strict = false ∧ (leftAfter totals (ls.take (k + 1))).any (· < 0) then
      [.overdrawn l.line.number (leftAfter totals (ls.take k)) l.content.distribution]
    else []

/-- What is recorded of some rule lines: what is recorded of each that is accepted, in order. -/
def rulesRecorded (o : Options) (totals : List Int) (ls : List RuleLine) : List Log.Record :=
  (ls.mapIdx fun k l =>
    if Accepts o totals ls k then lineRecorded o totals ls k l else []).flatten

variable {o : Options} {totals : List Int} {l : RuleLine} {ls : List RuleLine}

theorem accepts_zero :
    Accepts o totals (l :: ls) 0 ↔ l.content.distribution.length = totals.length := by
  refine ⟨fun h => h.widths l (List.mem_cons_self ..), fun h => ⟨?_, fun _ _ hj => nomatch hj⟩⟩
  exact List.forall_mem_singleton.mpr h

/-- A line behind the first is accepted if it is behind what the first line leaves. -/
theorem accepts_succ (h : l.content.distribution.length = totals.length) {k : Nat} :
    Accepts o totals (l :: ls) (k + 1) ↔ (o.strict = true → Fits totals [l]) ∧
      Accepts o (remaining totals l.content.distribution) ls k := by
  have hlength : (remaining totals l.content.distribution).length = totals.length := by
    rw [remaining, List.length_zipWith, h, Nat.min_self]
  constructor
  · rintro ⟨hwidths, hfits⟩
    rw [List.take_succ_cons, List.forall_mem_cons] at hwidths
    refine ⟨fun hstrict => hfits hstrict 0 (Nat.succ_pos k), ⟨?_, fun hstrict j hj => ?_⟩⟩
    · rw [hlength]
      exact hwidths.2
    · exact (fits_cons h).mp (hfits hstrict (j + 1) (Nat.succ_lt_succ hj))
  · rintro ⟨hl, hwidths, hfits⟩
    rw [hlength] at hwidths
    refine ⟨?_, fun hstrict => forall_fits_cons h (hl hstrict) (hfits hstrict)⟩
    rw [List.take_succ_cons]
    exact List.forall_mem_cons.mpr ⟨h, hwidths⟩

theorem lineRecorded_succ (h : l.content.distribution.length = totals.length) (k : Nat)
    (l' : RuleLine) :
    lineRecorded o totals (l :: ls) (k + 1) l' =
      lineRecorded o (remaining totals l.content.distribution) ls k l' := by
  simp only [lineRecorded, List.take_succ_cons, leftAfter_cons h]

/-- Where no line is accepted, nothing is recorded. -/
theorem flatten_mapIdx_eq_nil {α β : Type} {P : Nat → Prop} [DecidablePred P] (as : List α)
    (f : Nat → α → List β) (h : ∀ k, ¬ P k) :
    (as.mapIdx fun k a => if P k then f k a else []).flatten = [] := by
  rw [List.flatten_eq_nil_iff]
  intro bs hbs
  obtain ⟨k, hk, rfl⟩ := List.mem_mapIdx.mp hbs
  exact if_neg (h k)

/-- Nothing is recorded from a line on that counts other classes. -/
theorem rulesRecorded_of_width (h : l.content.distribution.length ≠ totals.length) :
    rulesRecorded o totals (l :: ls) = [] :=
  flatten_mapIdx_eq_nil _ _ fun k haccepts => h (haccepts.widths l (by simp))

/-- The first line is recorded, and the others as behind what it leaves, unless it ends the
reading. -/
theorem rulesRecorded_cons (h : l.content.distribution.length = totals.length) :
    rulesRecorded o totals (l :: ls) = lineRecorded o totals (l :: ls) 0 l ++
      if o.strict = true ∧ ¬ Fits totals [l] then []
      else rulesRecorded o (remaining totals l.content.distribution) ls := by
  rw [rulesRecorded, List.mapIdx_cons, List.flatten_cons, if_pos (accepts_zero.mpr h)]
  refine congrArg _ ?_
  simp only [lineRecorded_succ h]
  split_ifs with hends
  · refine flatten_mapIdx_eq_nil _ _ fun k haccepts => ?_
    exact hends.2 (((accepts_succ h).mp haccepts).1 hends.1)
  · have hgoes : o.strict = true → Fits totals [l] := fun hstrict =>
      not_not.mp fun hl => hends ⟨hstrict, hl⟩
    have haccepts (k : Nat) : Accepts o totals (l :: ls) (k + 1) ↔
        Accepts o (remaining totals l.content.distribution) ls k :=
      (accepts_succ h).trans (and_iff_right hgoes)
    simp only [haccepts]
    rfl

/-! ### What the reader tells -/

section Step

variable {preceded : Bool} {line : NumberedLine} {lines : List NumberedLine} {content : Line}
  {clauses : List Clause}

theorem events_readRules_of_error {e : LineError} (h : Line.read line.text = .error e) :
    (readRules o totals preceded (line :: lines)).events = [] := by
  unfold readRules
  rw [h]
  rfl

theorem events_readRules_of_always (h : Line.read line.text = .ok content)
    (halways : content.antecedent = .always) :
    (readRules o totals preceded (line :: lines)).events = [] := by
  unfold readRules
  rw [h]
  change (pure content >>= _ : Traced _ _).events = []
  rw [pure_bind, halways]
  dsimp only
  split <;> rfl

theorem events_readRules_of_width (h : Line.read line.text = .ok content)
    (hclauses : content.antecedent = .clauses clauses)
    (hwidth : content.distribution.length ≠ totals.length) :
    (readRules o totals preceded (line :: lines)).events = [] := by
  unfold readRules
  rw [h]
  change (pure content >>= _ : Traced _ _).events = []
  rw [pure_bind, hclauses]
  dsimp only
  rw [if_pos hwidth]
  rfl

/-- A rule line is told, then its overdraft if it does not end the reading, then what is behind. -/
theorem events_readRules_of_clauses (h : Line.read line.text = .ok content)
    (hclauses : content.antecedent = .clauses clauses)
    (hwidth : content.distribution.length = totals.length) :
    (readRules o totals preceded (line :: lines)).events =
      (lineRecorded o totals [⟨line, content, clauses⟩] 0 ⟨line, content, clauses⟩).map .record ++
        if o.strict = true ∧ ¬ Fits totals [⟨line, content, clauses⟩] then []
        else (readRules o (remaining totals content.distribution) true lines).events := by
  have hleft : leftAfter totals [⟨line, content, clauses⟩] =
      remaining totals content.distribution := by
    rw [leftAfter_cons hwidth, leftAfter_nil]
  have hdebt : (remaining totals content.distribution).any (· < 0) = true ↔
      ¬ Fits totals [⟨line, content, clauses⟩] := by
    rw [fits_singleton hwidth]
    simp
  rw [readRules, h]
  change (pure content >>= _ : Traced _ _).events = _
  rw [pure_bind, hclauses]
  dsimp only
  rw [if_neg (not_not_intro hwidth), Traced.events_bind_record, lineRecorded, List.take_succ_cons,
    List.take_zero, List.take_zero, leftAfter_nil, hleft, List.map_cons, List.cons_append]
  refine congrArg _ ?_
  by_cases hfits : Fits totals [⟨line, content, clauses⟩]
  · rw [if_neg fun hany => hdebt.mp hany hfits, if_neg fun hlenient => hdebt.mp hlenient.2 hfits,
      if_neg fun hends => hends.2 hfits, Traced.events_bind_pure]
    rfl
  · have hany := hdebt.mpr hfits
    rw [if_pos hany]
    by_cases hstrict : o.strict = true
    · have hends : o.strict = true ∧ ¬ Fits totals [⟨line, content, clauses⟩] := ⟨hstrict, hfits⟩
      rw [if_pos hstrict, if_pos hends, if_neg fun hlenient => Bool.noConfusion
        (hstrict.symm.trans hlenient.1)]
      rfl
    · have hlenient : o.strict = false ∧
          (remaining totals content.distribution).any (· < 0) = true :=
        ⟨Bool.eq_false_iff.mpr hstrict, hany⟩
      rw [if_neg hstrict, if_pos hlenient, if_neg fun hends => hstrict hends.1,
        Traced.events_bind_record, Traced.events_bind_pure]
      rfl

end Step

/-- **What the reading of some lines tells** are the records of its rule lines. -/
theorem events_readRules (preceded : Bool) (lines : List NumberedLine) :
    (readRules o totals preceded lines).events =
      (rulesRecorded o totals (ruleLines lines)).map .record := by
  fun_induction ruleLines lines generalizing totals preceded with
  | case1 => rfl
  | case2 line lines e hread => exact events_readRules_of_error hread
  | case3 line lines content hread halways => exact events_readRules_of_always hread halways
  | case4 line lines content hread clauses hclauses ih =>
      by_cases hwidth : content.distribution.length = totals.length
      · have hline : rulesRecorded o totals (⟨line, content, clauses⟩ :: ruleLines lines) = _ :=
          rulesRecorded_cons hwidth
        rw [events_readRules_of_clauses hread hclauses hwidth, hline, List.map_append]
        refine congrArg _ ?_
        split_ifs with hends
        · rfl
        · exact ih true
      · have hnone : rulesRecorded o totals (⟨line, content, clauses⟩ :: ruleLines lines) = [] :=
          rulesRecorded_of_width hwidth
        rw [events_readRules_of_width hread hclauses hwidth, hnone]
        rfl

/-! ### A text -/

/-- What is recorded of the rule lines of a text; nothing, if its last line has no counts. -/
def linesRecorded (o : Options) (text : List Char) : List Log.Record :=
  (totals? text).elim [] fun totals => rulesRecorded o totals (ruleLinesOf text)

variable {text : List Char}

/-- Without counts in the last line nothing is told. -/
theorem events_read_of_totals?_eq_none (h : totals? text = none) : (read o text).events = [] := by
  unfold totals? at h
  unfold read
  dsimp only
  cases hlast : (numberedLines text).getLast? with
  | none => rfl
  | some last =>
      rw [hlast, Option.bind_some] at h
      dsimp only
      cases htotals : Line.readTotals last.text with
      | ok totals =>
          rw [htotals] at h
          cases h
      | error e => rfl

/-- The rules are told first, and at the end the list that is read of them. -/
theorem events_read_of_totals?_eq_some (h : totals? text = some totals) :
    (read o text).events = (readRules o totals false (numberedLines text)).events ++
      match (readRules o totals false (numberedLines text)).outcome with
      | .error _ => []
      | .ok (rules, default) =>
        [.record (.listRead (assemble o rules default).1.length
          (assemble o rules default).2.toText o.ignoreDefault)] := by
  unfold totals? at h
  unfold read
  dsimp only
  cases hlast : (numberedLines text).getLast? with
  | none =>
      rw [hlast] at h
      cases h
  | some last =>
      rw [hlast, Option.bind_some] at h
      dsimp only
      cases htotals : Line.readTotals last.text with
      | error e =>
          rw [htotals] at h
          cases h
      | ok counts =>
          rw [htotals] at h
          cases h
          change (pure counts >>= _ : Traced _ _).events = _
          rw [pure_bind]
          generalize counts.map Int.ofNat = totals
          cases hrules : (readRules o totals false (numberedLines text)).outcome with
          | error e =>
              rw [Traced.events_bind_of_error hrules]
              exact (List.append_nil _).symm
          | ok x =>
              rw [Traced.events_bind_of_ok hrules]
              rfl

/-- What a reading tells, and how it ends. -/
theorem read_tells (o : Options) (text : List Char) :
    (∃ e, (read o text).outcome = .error e ∧
      (read o text).events = (linesRecorded o text).map .record) ∨
    ∃ rules default, (read o text).outcome = .ok (.decisionList .empty rules default) ∧
      (read o text).events = (linesRecorded o text ++
        [Log.Record.listRead rules.length default.toText o.ignoreDefault]).map .record := by
  unfold linesRecorded
  cases htotals : totals? text with
  | none =>
      obtain ⟨e, he, -⟩ := read_of_totals?_eq_none htotals
      exact .inl ⟨e, he o, events_read_of_totals?_eq_none htotals⟩
  | some totals =>
      rw [read_of_totals?_eq_some htotals, events_read_of_totals?_eq_some htotals,
        events_readRules, Option.elim_some, ← ruleLinesOf]
      cases (readRules o totals false (numberedLines text)).outcome with
      | error e => exact .inl ⟨e, rfl, List.append_nil _⟩
      | ok x =>
          refine .inr ⟨_, _, rfl, ?_⟩
          rw [List.map_append]
          rfl

theorem Request.events_eq {r : Request} {defaults : Except (List Settings.Fault) Settings}
    (h : r.options defaults = .ok o) :
    (r.read defaults text).events = (Listing.read o text).events := by
  unfold Request.read
  rw [h]
  rfl

/-- **The log of a reading mirrors it.**  Where the settings cannot be read, nothing is told.
Otherwise there is a record of each rule line that is accepted, in order, and right behind it one of
the overdraft if the reading is lenient and a class is in debt after the line.  The list comes last,
with the number of its rules, if there is one, and no further record if the reading ends with an
error. -/
theorem Request.read_logged (r : Request) (defaults : Except (List Settings.Fault) Settings)
    (text : List Char) :
    (∀ faults, r.options defaults = .error faults → (r.read defaults text).events = []) ∧
    ∀ o, r.options defaults = .ok o → ∃ summary : List Log.Record,
      (r.read defaults text).events = (linesRecorded o text ++ summary).map .record ∧
      (∀ e, (r.read defaults text).outcome = .error e → summary = []) ∧
      ∀ m, (r.read defaults text).outcome = .ok m → ∃ rules default,
        m = .decisionList .empty rules default ∧
        summary = [.listRead rules.length default.toText o.ignoreDefault] := by
  refine ⟨fun faults h => ?_, fun o h => ?_⟩
  · unfold Request.read
    rw [h]
    rfl
  · rw [outcome_read h, events_eq h]
    rcases read_tells o text with ⟨e, he, hevents⟩ | ⟨rules, default, hm, hevents⟩
    · rw [he]
      refine ⟨[], ?_, fun _ _ => rfl, by rintro _ ⟨⟩⟩
      rw [hevents, List.append_nil]
    · rw [hm]
      refine ⟨_, hevents, by rintro _ ⟨⟩, ?_⟩
      rintro _ ⟨⟩
      exact ⟨rules, default, rfl, rfl⟩

/-- Two rules, of which the first leaves a debt of one class that the second does not touch. -/
def indebtedText : List Char :=
  "[3,0] IF x>=1.0 THEN y=A -0.0\n[0,1] IF x>=2.0 THEN y=B -0.0\n[2,2] IF TRUE THEN y=B -1.0".toList

/-- The rules and the default of a list, by their number and its text. -/
def gistOf : Model → Nat × String
  | .decisionList _ rules default => (rules.length, default.toText)
  | _ => (0, "")

/-- The level of a record and its fields, as they are written. -/
def entryOf (r : Log.Record) : Log.Level × List String := (r.level, r.fields.map (·.2.literal))

/-- The debt is recorded behind both rules.  A strict reading ends behind the first. -/
theorem Request.read_logged_indebtedText :
    (Log.records (Request.read ⟨true, some false, id⟩ (.ok .default) indebtedText).events).map
        entryOf =
      [(.debug, ["1", "'A'", "(3, 0)"]), (.warning, ["1", "(2, 2)", "(3, 0)"]),
        (.debug, ["2", "'B'", "(0, 1)"]), (.warning, ["2", "(-1, 2)", "(0, 1)"]),
        (.info, ["1", "'B'", "True"])] ∧
    (Log.records (Request.read ⟨true, some true, id⟩ (.ok .default) indebtedText).events).map
        entryOf = [(.debug, ["1", "'A'", "(3, 0)"])] ∧
    (Request.read ⟨true, none, id⟩ (.error [⟨.strictCoverage, .noTruthValue⟩])
      indebtedText).events = [] := by
  have hrecords (records : List Log.Record) : Log.records (records.map .record) = records := by
    simp [Log.records]
  refine ⟨?_, ?_, (read_logged ⟨true, none, id⟩ _ indebtedText).1 _ rfl⟩
  · obtain ⟨summary, hevents, -, hsummary⟩ :=
      (read_logged ⟨true, some false, id⟩ (.ok .default) indebtedText).2 _ rfl
    obtain ⟨m, hm, hgist⟩ := Except.map_eq_ok_iff.mp (show (Request.read ⟨true, some false, id⟩
      (.ok .default) indebtedText).outcome.map gistOf = .ok (1, "B") by decide +kernel)
    obtain ⟨rules, default, rfl, rfl⟩ := hsummary m hm
    obtain ⟨hlength, htext⟩ := Prod.mk.inj hgist
    rw [hevents, hrecords, List.map_append, hlength, htext]
    decide +kernel
  · obtain ⟨summary, hevents, herror, -⟩ :=
      (read_logged ⟨true, some true, id⟩ (.ok .default) indebtedText).2 _ rfl
    have hfails : (Request.read ⟨true, some true, id⟩ (.ok .default) indebtedText).outcome.isOk =
        false := by decide +kernel
    cases hread : (Request.read ⟨true, some true, id⟩ (.ok .default) indebtedText).outcome with
    | ok m =>
        rw [hread] at hfails
        cases hfails
    | error e =>
        rw [hevents, hrecords, herror e hread]
        decide +kernel

end Listing

end Rulebook
