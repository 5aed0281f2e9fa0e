import Mathlib.Algebra.GroupWithZero.Nat
import Rulebook.Listing.Read
import Rulebook.Proofs.Outcome

/-!
# Listings — what the rules leave, and the strict reading

Each rule of a listing notes how many examples of each class the rules before it left.  The reader
keeps a running difference for this; here it is the totals less the sums of what the lines before
cover (`leftAfter`), and a listing that can be read has a rule for each of its rule lines with
these counts (`readRules_eq_ok`).

The strict reading differs from the lenient one where a rule is the first to cover more examples
than are left (`StopsAtOverdraft`), and nowhere else: line by line in `readRules_strictly`, and for
a text in `read_strictly_leniently`.
-/

namespace Rulebook

namespace Listing

/-! ### What the lines cover and what they leave -/

/-- A line with clauses, and what it says. -/
structure RuleLine where
  line : NumberedLine
  content : Line
  clauses : List Clause

/-- The lines with clauses up to the first line of another kind. -/
def ruleLines : List NumberedLine → List RuleLine
  | [] => []
  | line :: lines =>
    match Line.read line.text with
    | .error _ => []
    | .ok content =>
      match content.antecedent with
      | .always => []
      | .clauses clauses => ⟨line, content, clauses⟩ :: ruleLines lines

/-- How many examples of a class some lines cover. -/
def covered (ls : List RuleLine) (c : Nat) : Nat :=
  (ls.map fun l => l.content.distribution.getD c 0).sum

/-- What some lines leave of each class. -/
def leftAfter (totals : List Int) (ls : List RuleLine) : List Int :=
  totals.mapIdx fun c total => total - covered ls c

/-- Some lines cover no more examples of a class than there are. -/
def Fits (totals : List Int) (ls : List RuleLine) : Prop :=
  ∀ c (h : c < totals.length), covered ls c ≤ totals[c]

instance (totals : List Int) (ls : List RuleLine) : Decidable (Fits totals ls) :=
  inferInstanceAs (Decidable (∀ c (h : c < totals.length), covered ls c ≤ totals[c]))

/-- After `k` lines that fit comes one that does not. -/
structure FirstOverdraft (totals : List Int) (ls : List RuleLine) (k : Nat) : Prop where
  before : ∀ j < k, Fits totals (ls.take (j + 1))
  overdraws : ¬ Fits totals (ls.take (k + 1))

/-- A reading of some lines ends with an error at the first overdraft. -/
def StopsAtOverdraft {α : Type} (totals : List Int) (ls : List RuleLine)
    (outcome : Except ListingError α) : Prop :=
  ∃ k, ∃ h : k < ls.length, FirstOverdraft totals ls k ∧
    outcome = .error (.overdrawn ls[k].line (leftAfter totals (ls.take k))
      ls[k].content.distribution)

/-- The rules of some lines, each with what the lines before it leave. -/
def rulesOf (o : Options) (totals : List Int) (ls : List RuleLine) : List Rule :=
  ls.mapIdx fun k l => rule o (leftAfter totals (ls.take k)) l.content l.clauses

variable {totals : List Int} {l : RuleLine} {ls : List RuleLine}

theorem covered_cons (c : Nat) :
    covered (l :: ls) c = l.content.distribution.getD c 0 + covered ls c := by
  rw [covered, List.map_cons, List.sum_cons, covered]

/-- More lines cover more. -/
theorem covered_take_le {j k : Nat} (h : j ≤ k) (c : Nat) :
    covered (ls.take j) c ≤ covered (ls.take k) c := by
  obtain ⟨rest, hrest⟩ := List.take_prefix_take_left h (l := ls)
  rw [covered, covered, ← hrest, List.map_append, List.sum_append]
  exact Nat.le_add_right _ _

@[simp]
theorem length_leftAfter : (leftAfter totals ls).length = totals.length :=
  List.length_mapIdx

@[simp]
theorem leftAfter_nil : leftAfter totals [] = totals := by
  refine List.ext_getElem length_leftAfter fun c _ _ => ?_
  simp only [leftAfter, List.getElem_mapIdx, covered, List.map_nil, List.sum_nil]
  exact Int.sub_zero _

/-- A line is taken away first, the others from what remains. -/
theorem leftAfter_cons (h : l.content.distribution.length = totals.length) :
    leftAfter totals (l :: ls) = leftAfter (remaining totals l.content.distribution) ls := by
  have hlength : (remaining totals l.content.distribution).length = totals.length := by
    rw [remaining, List.length_zipWith, h, Nat.min_self]
  refine List.ext_getElem (by rw [length_leftAfter, length_leftAfter, hlength])
    fun c hc _ => ?_
  rw [length_leftAfter] at hc
  have hd : l.content.distribution.getD c 0 = l.content.distribution[c] := by
    rw [List.getD_eq_getElem?_getD, List.getElem?_eq_getElem (h ▸ hc), Option.getD_some]
  simp only [leftAfter, remaining, List.getElem_mapIdx, List.getElem_zipWith, covered_cons, hd]
  omega

theorem fits_iff : Fits totals ls ↔ ∀ n ∈ leftAfter totals ls, 0 ≤ n := by
  simp only [Fits, leftAfter, List.forall_mem_iff_forall_getElem, List.length_mapIdx,
    List.getElem_mapIdx, Int.sub_nonneg]

theorem fits_cons (h : l.content.distribution.length = totals.length) :
    Fits totals (l :: ls) ↔ Fits (remaining totals l.content.distribution) ls := by
  rw [fits_iff, fits_iff, leftAfter_cons h]

theorem fits_singleton (h : l.content.distribution.length = totals.length) :
    Fits totals [l] ↔ ∀ n ∈ remaining totals l.content.distribution, 0 ≤ n := by
  rw [fits_iff, leftAfter_cons h, leftAfter_nil]

/-- Lines fit if the first one does and the others do in what it leaves. -/
theorem forall_fits_cons (h : l.content.distribution.length = totals.length)
    (hl : Fits totals [l]) {k : Nat}
    (hls : ∀ j < k, Fits (remaining totals l.content.distribution) (ls.take (j + 1))) :
    ∀ j < k + 1, Fits totals ((l :: ls).take (j + 1)) := by
  intro j hj
  rw [List.take_succ_cons]
  cases j with
  | zero => exact hl
  | succ j => exact (fits_cons h).mpr (hls j (Nat.lt_of_succ_lt_succ hj))

theorem FirstOverdraft.cons (h : l.content.distribution.length = totals.length)
    (hl : Fits totals [l]) {k : Nat}
    (hk : FirstOverdraft (remaining totals l.content.distribution) ls k) :
    FirstOverdraft totals (l :: ls) (k + 1) where
  before := forall_fits_cons h hl hk.before
  overdraws hfits := hk.overdraws ((fits_cons h).mp hfits)

/-- An overdraft behind a line that fits. -/
theorem StopsAtOverdraft.cons {α β : Type} (h : l.content.distribution.length = totals.length)
    (hl : Fits totals [l]) {outcome : Except ListingError α}
    (hstops : StopsAtOverdraft (remaining totals l.content.distribution) ls outcome) (f : α → β) :
    StopsAtOverdraft totals (l :: ls) (outcome.map f) := by
  obtain ⟨k, hk, hfirst, rfl⟩ := hstops
  refine ⟨k + 1, Nat.succ_lt_succ hk, hfirst.cons h hl, ?_⟩
  rw [List.take_succ_cons, leftAfter_cons h]
  rfl

theorem stopsAtOverdraft_head {α : Type} (hl : ¬ Fits totals [l]) :
    StopsAtOverdraft totals (l :: ls)
      (.error (.overdrawn l.line totals l.content.distribution) : Except ListingError α) := by
  refine ⟨0, Nat.succ_pos _, ⟨fun j hj => absurd hj (Nat.not_lt_zero j), hl⟩, ?_⟩
  rw [List.take_zero, leftAfter_nil]
  rfl

theorem rulesOf_cons {o : Options} (h : l.content.distribution.length = totals.length) :
    rulesOf o totals (l :: ls) =
      rule o totals l.content l.clauses ::
        rulesOf o (remaining totals l.content.distribution) ls := by
  simp only [rulesOf, List.mapIdx_cons, List.take_zero, leftAfter_nil, List.take_succ_cons,
    leftAfter_cons h]

/-! ### One line -/

section Step

variable {o : Options} {preceded : Bool} {line : NumberedLine}
  {lines : List NumberedLine} {content : Line} {clauses : List Clause}

/-- A line that cannot be read ends the reading. -/
theorem readRules_of_error {e : LineError} (h : Line.read line.text = .error e) :
    (readRules o totals preceded (line :: lines)).outcome = .error (.ofLine line e) := by
  simp [readRules, h, Except.mapError]

/-- A default line ends the list. -/
theorem readRules_of_always (h : Line.read line.text = .ok content)
    (ha : content.antecedent = .always) :
    (readRules o totals preceded (line :: lines)).outcome =
      if o.ignoreDefault && !preceded then .error (.defaultAlone line)
      else .ok ([], constant content none) := by
  simp only [readRules, h, Traced.outcome_bind, Traced.outcome_ofExcept, Except.mapError,
    Except.ok_bind, ha]
  split <;> rfl

/-- A line that counts other classes than the last one ends the reading. -/
theorem readRules_of_width (h : Line.read line.text = .ok content)
    (ha : content.antecedent = .clauses clauses)
    (hwidth : content.distribution.length ≠ totals.length) :
    (readRules o totals preceded (line :: lines)).outcome =
      .error (.malformed line (.classCount totals.length content.distribution.length)
        (bracketColumn line.text)) := by
  simp only [readRules, h, Traced.outcome_bind, Traced.outcome_ofExcept, Except.mapError,
    Except.ok_bind, ha, if_pos hwidth, Traced.outcome_fail]

/-- A rule line is an error in a strict reading if it covers too much, and otherwise a rule. -/
theorem readRules_of_clauses (h : Line.read line.text = .ok content)
    (ha : content.antecedent = .clauses clauses)
    (hwidth : content.distribution.length = totals.length) :
    (readRules o totals preceded (line :: lines)).outcome =
      if o.strict = true ∧ ¬ Fits totals [⟨line, content, clauses⟩] then
        .error (.overdrawn line totals content.distribution)
      else
        (readRules o (remaining totals content.distribution) true lines).outcome.map
          fun (rules, default) => (rule o totals content clauses :: rules, default) := by
  have hfits : (remaining totals content.distribution).any (· < 0) = true ↔
      ¬ Fits totals [⟨line, content, clauses⟩] := by
    rw [fits_singleton hwidth]
    simp
  have hrest : (do
      let (rules, default) ← readRules o (remaining totals content.distribution) true lines
      pure (rule o totals content clauses :: rules, default) :
        Traced ListingError (List Rule × Model)).outcome =
      (readRules o (remaining totals content.distribution) true lines).outcome.map
        fun (rules, default) => (rule o totals content clauses :: rules, default) :=
    Traced.outcome_bind_pure _ _
  simp only [readRules, h, Traced.outcome_bind, Traced.outcome_ofExcept, Except.mapError,
    Except.ok_bind, ha, hwidth, ne_eq, not_true_eq_false, if_false, Traced.outcome_record, hfits]
  by_cases hl : Fits totals [⟨line, content, clauses⟩]
  · rw [if_neg (not_not_intro hl), if_neg fun h => h.2 hl]
    exact hrest
  · rw [if_pos hl]
    by_cases hstrict : o.strict = true
    · rw [if_pos hstrict, if_pos ⟨hstrict, hl⟩]
      rfl
    · rw [if_neg hstrict, if_neg fun h => hstrict h.1, Traced.outcome_bind,
        Traced.outcome_record, Except.ok_bind]
      exact hrest

end Step

/-! ### All lines -/

/-- A listing that can be read has a rule for each line before its default line. -/
theorem readRules_eq_ok {o : Options} {preceded : Bool} {lines : List NumberedLine}
    {rules : List Rule} {default : Model}
    (h : (readRules o totals preceded lines).outcome = .ok (rules, default)) :
    rules = rulesOf o totals (ruleLines lines) ∧
      ∃ closing content, lines[(ruleLines lines).length]? = some closing ∧
        Line.read closing.text = .ok content ∧ content.antecedent = .always ∧
        default = constant content none := by
  fun_induction ruleLines lines generalizing totals preceded rules with
  | case1 => exact absurd h (by simp [readRules])
  | case2 line lines e hread =>
      rw [readRules_of_error hread] at h
      cases h
  | case3 line lines content hread halways =>
      rw [readRules_of_always hread halways] at h
      split at h
      · cases h
      · cases h
        exact ⟨rfl, line, content, rfl, hread, halways, rfl⟩
  | case4 line lines content hread clauses hclauses ih =>
      by_cases hwidth : content.distribution.length = totals.length
      · rw [readRules_of_clauses hread hclauses hwidth] at h
        split at h
        · cases h
        · obtain ⟨⟨rest, default'⟩, hrest, heq⟩ := Except.map_eq_ok_iff.mp h
          cases heq
          obtain ⟨rfl, closing, last, hclosing, hlast⟩ := ih hrest
          have hrules : rulesOf o totals (⟨line, content, clauses⟩ :: ruleLines lines) = _ :=
            rulesOf_cons hwidth
          refine ⟨hrules.symm, closing, last, ?_, hlast⟩
          rw [List.length_cons, List.getElem?_cons_succ]
          exact hclosing
      · rw [readRules_of_width hread hclauses hwidth] at h
        cases h

/-- The same options for a strict reading. -/
def Options.strictly (o : Options) : Options := { o with strict := true }

/-- The same options for a lenient reading. -/
def Options.leniently (o : Options) : Options := { o with strict := false }

/-- The strict reading of some lines stops at the first overdraft, or it ends as the lenient one,
and then, if it ends well, the lines fit. -/
theorem readRules_strictly (o : Options) (preceded : Bool) (lines : List NumberedLine) :
    ((readRules o.strictly totals preceded lines).outcome =
        (readRules o.leniently totals preceded lines).outcome ∧
      ∀ x, (readRules o.strictly totals preceded lines).outcome = .ok x →
        ∀ k < (ruleLines lines).length, Fits totals ((ruleLines lines).take (k + 1))) ∨
    StopsAtOverdraft totals (ruleLines lines)
      (readRules o.strictly totals preceded lines).outcome := by
  fun_induction ruleLines lines generalizing totals preceded with
  | case1 => exact .inl ⟨rfl, fun _ _ k hk => absurd hk (Nat.not_lt_zero k)⟩
  | case2 line lines e hread =>
      rw [readRules_of_error hread, readRules_of_error hread]
      exact .inl ⟨rfl, fun _ _ k hk => absurd hk (Nat.not_lt_zero k)⟩
  | case3 line lines content hread halways =>
      rw [readRules_of_always hread halways, readRules_of_always hread halways]
      exact .inl ⟨rfl, fun _ _ k hk => absurd hk (Nat.not_lt_zero k)⟩
  | case4 line lines content hread clauses hclauses ih =>
      by_cases hwidth : content.distribution.length = totals.length
      · rw [readRules_of_clauses hread hclauses hwidth, readRules_of_clauses hread hclauses hwidth]
        by_cases hl : Fits totals [⟨line, content, clauses⟩]
        · rw [if_neg fun h => h.2 hl, if_neg fun h => h.2 hl]
          -- the line fits, so an overdraft can only be further on
          rcases @ih (remaining totals content.distribution) true with ⟨hsame, hfits⟩ | hstops
          · rw [hsame]
            refine .inl ⟨rfl, fun x hx => forall_fits_cons hwidth hl ?_⟩
            obtain ⟨y, hy, -⟩ := Except.map_eq_ok_iff.mp hx
            exact hfits y (hsame.trans hy)
          · exact .inr (hstops.cons hwidth hl _)
        · -- the lenient reading goes on here, whatever comes of it
          rw [if_pos ⟨rfl, hl⟩]
          exact .inr (stopsAtOverdraft_head hl)
      · rw [readRules_of_width hread hclauses hwidth, readRules_of_width hread hclauses hwidth]
        exact .inl ⟨rfl, fun x hx => nomatch hx⟩

/-! ### A text -/

/-- The lines of a text that are rules. -/
def ruleLinesOf (text : List Char) : List RuleLine := ruleLines (numberedLines text)

/-- The counts of the last line of a text. -/
def totals? (text : List Char) : Option (List Int) :=
  (numberedLines text).getLast?.bind fun last =>
    (Line.readTotals last.text).toOption.map (List.map Int.ofNat)

variable {text : List Char}

/-- The list of what was read. -/
def listOf (o : Options) : List Rule × Model → Model
  | (rules, default) =>
    .decisionList .empty (assemble o rules default).1 (assemble o rules default).2

theorem assemble_fst (o : Options) (rules : List Rule) (default : Model) :
    (assemble o rules default).1 = if o.ignoreDefault then rules.dropLast else rules := by
  unfold assemble
  split
  · next hignore _ => rw [hignore, if_pos rfl]
  · next h =>
      cases hignore : o.ignoreDefault with
      | false => rfl
      | true =>
          cases hlast : rules.getLast? with
          | none => rw [List.getLast?_eq_none_iff.mp hlast]; rfl
          | some last => exact absurd hlast (h last hignore)

/-- Without counts in the last line there is nothing to read. -/
theorem read_of_totals?_eq_none (h : totals? text = none) :
    ∃ e, (∀ o, (read o text).outcome = .error e) ∧
      ∀ line uncovered distribution, e ≠ .overdrawn line uncovered distribution := by
  unfold totals? at h
  cases hlast : (numberedLines text).getLast? with
  | none =>
      refine ⟨.noDefault, fun o => ?_, fun _ _ _ => ListingError.noConfusion⟩
      simp only [read, hlast, Traced.outcome_fail]
  | some last =>
      rw [hlast, Option.bind_some] at h
      cases htotals : Line.readTotals last.text with
      | ok totals =>
          rw [htotals] at h
          cases h
      | error e =>
          refine ⟨.ofLine last e, fun o => ?_, ?_⟩
          · simp only [read, hlast, htotals, Traced.outcome_bind, Traced.outcome_ofExcept,
              Except.mapError, Except.error_bind]
          · cases e <;> exact fun _ _ _ => ListingError.noConfusion

theorem read_of_totals?_eq_some (h : totals? text = some totals) (o : Options) :
    (read o text).outcome =
      (readRules o totals false (numberedLines text)).outcome.map (listOf o) := by
  unfold totals? at h
  cases hlast : (numberedLines text).getLast? with
  | none =>
      rw [hlast] at h
      cases h
  | some last =>
      rw [hlast, Option.bind_some] at h
      cases htotals : Line.readTotals last.text with
      | error e =>
          rw [htotals] at h
          cases h
      | ok counts =>
          rw [htotals] at h
          cases h
          simp only [read, hlast, htotals, Traced.outcome_bind, Traced.outcome_ofExcept,
            Except.mapError, Except.ok_bind, Traced.outcome_record]
          cases (readRules o (counts.map Int.ofNat) false (numberedLines text)).outcome <;> rfl

/-- A text that is asked for is read as the options of the request say. -/
theorem Request.outcome_read {r : Request} {defaults : Except (List Settings.Fault) Settings}
    {o : Options} (h : r.options defaults = .ok o) :
    (r.read defaults text).outcome = (Listing.read o text).outcome.mapError .refused := by
  rw [Request.read, Traced.outcome_bind, Traced.outcome_ofExcept, h]
  rfl

theorem nonneg_of_totals? (h : totals? text = some totals) : ∀ n ∈ totals, 0 ≤ n := by
  obtain ⟨last, -, hlast⟩ := Option.bind_eq_some_iff.mp h
  obtain ⟨counts, -, rfl⟩ := Option.map_eq_some_iff.mp hlast
  intro n hn
  obtain ⟨count, -, rfl⟩ := List.mem_map.mp hn
  exact Int.natCast_nonneg count

/-- Nothing is left in debt before the line after some that fit. -/
theorem nonneg_leftAfter_take (htotals : ∀ n ∈ totals, 0 ≤ n)
    (hfits : ∀ k < ls.length, Fits totals (ls.take (k + 1))) {k : Nat} (hk : k < ls.length) :
    ∀ n ∈ leftAfter totals (ls.take k), 0 ≤ n := by
  cases k with
  | zero =>
      rw [List.take_zero, leftAfter_nil]
      exact htotals
  | succ k => exact fits_iff.mp (hfits k (Nat.lt_of_succ_lt hk))

/-- More lines leave less. -/
theorem leftAfter_take_le {j k : Nat} (h : j ≤ k) :
    List.Forall₂ (· ≤ ·) (leftAfter totals (ls.take k)) (leftAfter totals (ls.take j)) := by
  refine List.forall₂_iff_get.mpr ⟨length_leftAfter.trans length_leftAfter.symm, ?_⟩
  intro c _ _
  have hcovered : covered (ls.take j) c ≤ covered (ls.take k) c := covered_take_le h c
  simp only [leftAfter, List.get_eq_getElem, List.getElem_mapIdx]
  omega

/-- The strict reading of a text stops at the first overdraft, or it ends as the lenient one, and
then, if it ends well, the lines fit. -/
theorem read_strictly (o : Options) (h : totals? text = some totals) :
    ((read o.strictly text).outcome = (read o.leniently text).outcome ∧
      ∀ m, (read o.strictly text).outcome = .ok m →
        ∀ k < (ruleLinesOf text).length, Fits totals ((ruleLinesOf text).take (k + 1))) ∨
    StopsAtOverdraft totals (ruleLinesOf text) (read o.strictly text).outcome := by
  rw [read_of_totals?_eq_some h, read_of_totals?_eq_some h]
  rcases readRules_strictly o false (numberedLines text) with
    ⟨hsame, hfits⟩ | ⟨k, hk, hfirst, hstops⟩
  · refine .inl ⟨by rw [hsame]; rfl, fun m hm => ?_⟩
    obtain ⟨x, hx, -⟩ := Except.map_eq_ok_iff.mp hm
    exact hfits x hx
  · refine .inr ⟨k, hk, hfirst, ?_⟩
    rw [hstops]
    rfl

/-- A text that can be read has counts in its last line. -/
theorem exists_totals?_of_read {o : Options} {m : Model} (h : (read o text).outcome = .ok m) :
    ∃ totals, totals? text = some totals := by
  cases htotals : totals? text with
  | some totals => exact ⟨totals, rfl⟩
  | none =>
      obtain ⟨e, he, -⟩ := read_of_totals?_eq_none htotals
      rw [he o] at h
      cases h

/-- The list of a text has a rule for each line before the default line, the last one apart if
the default is ignored. -/
theorem read_eq_ok {o : Options} {m : Model} (h : totals? text = some totals)
    (hm : (read o text).outcome = .ok m) :
    ∃ closing content default,
      (numberedLines text)[(ruleLinesOf text).length]? = some closing ∧
      Line.read closing.text = .ok content ∧ content.antecedent = .always ∧
      m = .decisionList .empty
        (if o.ignoreDefault then (rulesOf o totals (ruleLinesOf text)).dropLast
          else rulesOf o totals (ruleLinesOf text)) default := by
  rw [read_of_totals?_eq_some h] at hm
  obtain ⟨⟨rules, default⟩, hrules, rfl⟩ := Except.map_eq_ok_iff.mp hm
  obtain ⟨rfl, closing, content, hclosing, hread, halways, -⟩ := readRules_eq_ok hrules
  refine ⟨closing, content, (assemble o (rulesOf o totals (ruleLinesOf text)) default).2,
    hclosing, hread, halways, ?_⟩
  rw [← assemble_fst o _ default]
  rfl

/-- **What the rules leave, and the strict reading.**  A list that is read leniently has the rules
of its lines, and the strict reading gives the same list if all lines fit and stops at the first
overdraft if not.  A list that is read strictly is also read leniently, and what is left before
its rules is never a debt and never grows.  The strict reading has no errors of its own but
overdrafts. -/
theorem read_strictly_leniently (o : Options) (text : List Char) :
    (∀ m, (read o.leniently text).outcome = .ok m → ∃ totals, totals? text = some totals ∧
      (∃ closing content default,
        (numberedLines text)[(ruleLinesOf text).length]? = some closing ∧
        Line.read closing.text = .ok content ∧ content.antecedent = .always ∧
        m = .decisionList .empty
          (if o.ignoreDefault then (rulesOf o totals (ruleLinesOf text)).dropLast
            else rulesOf o totals (ruleLinesOf text)) default) ∧
      ((∀ k < (ruleLinesOf text).length, Fits totals ((ruleLinesOf text).take (k + 1))) ∧
          (read o.strictly text).outcome = .ok m ∨
        StopsAtOverdraft totals (ruleLinesOf text) (read o.strictly text).outcome)) ∧
    (∀ m, (read o.strictly text).outcome = .ok m → (read o.leniently text).outcome = .ok m ∧
      ∃ totals, totals? text = some totals ∧ ∀ k < (ruleLinesOf text).length,
        (∀ n ∈ leftAfter totals ((ruleLinesOf text).take k), 0 ≤ n) ∧
        ∀ j ≤ k, List.Forall₂ (· ≤ ·) (leftAfter totals ((ruleLinesOf text).take k))
          (leftAfter totals ((ruleLinesOf text).take j))) ∧
    (∀ e, (read o.strictly text).outcome = .error e →
      (∀ line uncovered distribution, e ≠ .overdrawn line uncovered distribution) →
      (read o.leniently text).outcome = .error e) := by
  refine ⟨fun m hm => ?_, fun m hm => ?_, fun e he hother => ?_⟩
  · obtain ⟨totals, htotals⟩ := exists_totals?_of_read hm
    refine ⟨totals, htotals, read_eq_ok (o := o.leniently) htotals hm, ?_⟩
    rcases read_strictly o htotals with ⟨hsame, hfits⟩ | hstops
    · have hstrict := hsame.trans hm
      exact .inl ⟨hfits m hstrict, hstrict⟩
    · exact .inr hstops
  · obtain ⟨totals, htotals⟩ := exists_totals?_of_read hm
    rcases read_strictly o htotals with ⟨hsame, hfits⟩ | ⟨k, hk, -, hstrict⟩
    · refine ⟨hsame.symm.trans hm, totals, htotals, fun k hk => ⟨?_, fun j hj => ?_⟩⟩
      · exact nonneg_leftAfter_take (nonneg_of_totals? htotals) (hfits m hm) hk
      · exact leftAfter_take_le hj
    · rw [hstrict] at hm
      cases hm
  · cases htotals : totals? text with
    | none =>
        obtain ⟨e', he', -⟩ := read_of_totals?_eq_none htotals
        rw [he'] at he ⊢
        exact he
    | some totals =>
        rcases read_strictly o htotals with ⟨hsame, -⟩ | ⟨k, hk, -, hstrict⟩
        · exact hsame.symm.trans he
        · rw [hstrict] at he
          cases he
          exact absurd rfl (hother _ _ _)

/-- Two rules that together cover each example of both classes. -/
def coveredText : List Char :=
  "[2,0] IF x>=1.0 THEN y=A -0.0\n[1,3] IF x>=2.0 THEN y=B -0.0\n[3,3] IF TRUE THEN y=B -1.0".toList

/-- Two rules, of which the second covers one example of the first class too many. -/
def overdrawnText : List Char :=
  "[2,0] IF x>=1.0 THEN y=A -0.0\n[2,3] IF x>=2.0 THEN y=B -0.0\n[3,3] IF TRUE THEN y=B -1.0".toList

/-- A rule that no default line follows. -/
def openText : List Char :=
  "[2,0] IF x>=1.0 THEN y=A -0.0".toList

theorem read_overdrawnText :
    ((∃ m, (read ⟨false, false, id⟩ overdrawnText).outcome = .ok m) ∧
      (read ⟨false, true, id⟩ overdrawnText).outcome =
        .error (.overdrawn ⟨2, "[2,3] IF x>=2.0 THEN y=B -0.0".toList⟩ [1, 3] [2, 3])) ∧
    (∃ m, (read ⟨false, true, id⟩ coveredText).outcome = .ok m ∧
      (read ⟨false, false, id⟩ coveredText).outcome = .ok m) ∧
    (read ⟨false, true, id⟩ openText).outcome = .error .noDefault ∧
      (read ⟨false, false, id⟩ openText).outcome = .error .noDefault := by
  refine ⟨?_, ?_, ?_⟩
  · obtain ⟨m, hm⟩ := Except.isOk_iff.mp
      (show (read ⟨false, false, id⟩ overdrawnText).outcome.isOk = true by decide +kernel)
    obtain ⟨totals, htotals, -, hstrict⟩ :=
      (read_strictly_leniently ⟨false, false, id⟩ overdrawnText).1 m hm
    obtain ⟨hcounts, hlength, hone, htwo⟩ : totals? overdrawnText = some [3, 3] ∧
        (ruleLinesOf overdrawnText).length = 2 ∧
        Fits [3, 3] ((ruleLinesOf overdrawnText).take 1) ∧
        ¬ Fits [3, 3] ((ruleLinesOf overdrawnText).take 2) := by decide +kernel
    cases hcounts.symm.trans htotals
    refine ⟨⟨m, hm⟩, ?_⟩
    rcases hstrict with ⟨hfits, -⟩ | ⟨k, hk, hfirst, hstrict⟩
    · exact absurd (hfits 1 (hlength ▸ Nat.lt_succ_self 1)) htwo
    · rcases k with _ | _ | k
      · exact absurd hone hfirst.overdraws
      · refine hstrict.trans (congrArg Except.error ?_)
        clear hstrict hfirst
        decide +revert +kernel
      · omega
  · obtain ⟨m, hm⟩ := Except.isOk_iff.mp
      (show (read ⟨false, true, id⟩ coveredText).outcome.isOk = true by decide +kernel)
    exact ⟨m, hm, ((read_strictly_leniently ⟨false, false, id⟩ coveredText).2.1 m hm).1⟩
  · have hopen : (read ⟨false, true, id⟩ openText).outcome = .error .noDefault :=
      Except.map_eq_error_iff.mp
        (show (read ⟨false, true, id⟩ openText).outcome.map (fun _ => ()) = _ by decide +kernel)
    exact ⟨hopen, (read_strictly_leniently ⟨false, false, id⟩ openText).2.2 _ hopen
      fun _ _ _ => ListingError.noConfusion⟩

end Listing

end Rulebook
