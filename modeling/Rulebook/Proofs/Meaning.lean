import Rulebook.Proofs.CellCheck
import Rulebook.Proofs.Coverage
import Rulebook.Proofs.BatchApply
import Rulebook.Proofs.LineRead

/-!
# Listings — what a text says

Of the lines of a text that are not blank, those in front of the first default line have clauses.
A text that can be read becomes a list with one rule for each of them: the conditions of the rule
are the clauses of the line, in order (`RuleLine.Says`), its consequent is the value, and the
default of the list is the value of the default line.  So the list answers a row with the value of
the first line whose clauses all hold (`Meaning`, `read_means`).

Lines are taken as the grammar of a line describes them (`Line.Written`), clauses as what they say
about a row (`Clause.Holds`).
-/

namespace Rulebook

/-! ### Clauses -/

/-- The condition that a clause says: its threshold is a number where it is written as one. -/
structure Clause.Says (c : Clause) (k : Condition) : Prop where
  name : k.name = c.name
  op : k.op = c.op
  numeral : ∀ x, Binary64.ofText? c.threshold = some x → k.threshold = .numeric x
  token : Binary64.ofText? c.threshold = none → k.threshold = .symbolic c.threshold

namespace Clause

variable {c : Clause} {k k' : Condition} {row : Row}

/-- A row satisfies a clause. -/
def Holds (c : Clause) (row : Row) : Prop := ∃ k, c.Says k ∧ k.holds row = .ok true

/-- A clause is satisfied by a row or is not, and there is no fault in asking. -/
def Answers (c : Clause) (row : Row) : Prop := ∃ k, c.Says k ∧ ∃ b, k.holds row = .ok b

/-- A clause says one condition. -/
theorem Says.unique (h : c.Says k) (h' : c.Says k') : k = k' := by
  have hthreshold : k.threshold = k'.threshold := by
    cases hx : Binary64.ofText? c.threshold with
    | some x => exact (h.numeral x hx).trans (h'.numeral x hx).symm
    | none => exact (h.token hx).trans (h'.token hx).symm
  obtain ⟨name, op, threshold⟩ := k
  obtain ⟨name', op', threshold'⟩ := k'
  exact congr (congr (congrArg _ (h.name.trans h'.name.symm)) (h.op.trans h'.op.symm)) hthreshold

theorem Says.holds_iff (h : c.Says k) : c.Holds row ↔ k.holds row = .ok true :=
  ⟨fun ⟨_, hk, hholds⟩ => h.unique hk ▸ hholds, fun hholds => ⟨k, h, hholds⟩⟩

theorem Says.answers_iff (h : c.Says k) : c.Answers row ↔ ∃ b, k.holds row = .ok b :=
  ⟨fun ⟨_, hk, hanswers⟩ => h.unique hk ▸ hanswers, fun hanswers => ⟨k, h, hanswers⟩⟩

end Clause

/-! ### Lines that are read -/

/-- The counts of a line that is read are short. -/
theorem Line.shortCounts_of_read {line : List Char} {content : Line}
    (h : Line.read line = .ok content) : ShortCounts line := by
  obtain ⟨counts, hcounts, h⟩ := Except.bind_eq_ok_iff.mp h
  obtain ⟨distribution, hdistribution, -⟩ := Except.bind_eq_ok_iff.mp h
  intro runs rest hbracketed run hrun
  obtain ⟨counts', hcounts', rfl, rfl⟩ := Token.readBrackets_of_bracketed hbracketed
  obtain rfl := Except.ok.inj (hcounts.symm.trans hcounts')
  exact short_of_readDistribution hdistribution run hrun

/-- A line that is read is written as the grammar says. -/
theorem Line.written_of_read {line : List Char} {content : Line}
    (h : Line.read line = .ok content) : Line.Written line content := by
  have hshort := shortCounts_of_read h
  obtain ⟨counts, hcounts, h⟩ := Except.bind_eq_ok_iff.mp h
  obtain ⟨distribution, hdistribution, h⟩ := Except.bind_eq_ok_iff.mp h
  obtain ⟨⟨a, target, value, x⟩, hwords, h⟩ := Except.bind_eq_ok_iff.mp h
  cases h
  obtain ⟨hbracketed, hdrop⟩ := Token.bracketed_of_readBrackets hcounts
  obtain ⟨ws, hws⟩ := Token.exists_worded 0 counts.rest
  rw [readDistribution_eq (hshort _ _ hbracketed)] at hdistribution
  rw [Token.readWords_of_worded hws] at hwords
  exact .intro hbracketed (Except.ok.inj hdistribution).symm hws
    ((readWords_eq_ok_iff (hws.standAt hdrop) ⟨distribution, a, target, value, x⟩).mp hwords)

/-! ### Rules -/

/-- What related members have in common, all of them do. -/
theorem forall_mem_iff_of_forall₂ {α β : Type} {R : α → β → Prop} {P : α → Prop} {Q : β → Prop}
    {as : List α} {bs : List β} (h : List.Forall₂ R as bs) (hR : ∀ a b, R a b → (P a ↔ Q b)) :
    (∀ a ∈ as, P a) ↔ ∀ b ∈ bs, Q b := by
  induction h with
  | nil => exact ⟨fun _ => List.forall_mem_nil _, fun _ => List.forall_mem_nil _⟩
  | cons hab _ ih => rw [List.forall_mem_cons, List.forall_mem_cons, hR _ _ hab, ih]

namespace Listing

variable {o : Options} {text : List Char} {l : RuleLine} {ls : List RuleLine} {row : Row}

/-- The condition made of a clause is what the clause says. -/
theorem says_condition (hrename : o.rename = id) (c : Clause) : c.Says (condition o c) where
  name := congrFun hrename c.name
  op := rfl
  numeral x hx := by rw [condition, Threshold.ofText, hx]
  token hx := by rw [condition, Threshold.ofText, hx]

/-- The rule that a line with clauses says. -/
structure RuleLine.Says (l : RuleLine) (r : Rule) : Prop where
  antecedent : ∃ ks, r.antecedent = .conjunction ks ∧ List.Forall₂ Clause.Says l.clauses ks
  consequent : ∃ info, r.consequent = .constant info (.text l.content.value) ∧
    info.supportingLabels = some (l.content.distribution.map Int.ofNat) ∧
    info.evaluation = some l.content.score

/-- A row satisfies all clauses of a line. -/
def RuleLine.Holds (l : RuleLine) (row : Row) : Prop := ∀ c ∈ l.clauses, c.Holds row

theorem says_rule (hrename : o.rename = id) (uncovered : List Int) (l : RuleLine) :
    l.Says (rule o uncovered l.content l.clauses) where
  antecedent := by
    refine ⟨_, rfl, List.forall₂_map_right_iff.mpr (List.forall₂_same.mpr fun c _ => ?_)⟩
    exact says_condition hrename c
  consequent := ⟨_, rfl, rfl, rfl⟩

theorem forall₂_says_rulesOf (hrename : o.rename = id) (totals : List Int) (ls : List RuleLine) :
    List.Forall₂ RuleLine.Says ls (rulesOf o totals ls) := by
  refine List.forall₂_iff_get.mpr ⟨List.length_mapIdx.symm, fun i hi hi' => ?_⟩
  simp only [rulesOf, List.get_eq_getElem, List.getElem_mapIdx]
  exact says_rule hrename _ _

/-- The antecedent of a rule holds where the clauses of its line do. -/
theorem RuleLine.Says.check_iff {r : Rule} (h : l.Says r) :
    r.antecedent.check row = .ok true ↔ l.Holds row := by
  obtain ⟨ks, hks, hsays⟩ := h.antecedent
  rw [hks]
  exact Condition.allHold_eq_true_iff.trans
    (forall_mem_iff_of_forall₂ hsays fun _ _ hc => hc.holds_iff).symm

theorem RuleLine.Says.exists_check {r : Rule} (h : l.Says r)
    (hanswers : ∀ c ∈ l.clauses, c.Answers row) : ∃ b, r.antecedent.check row = .ok b := by
  obtain ⟨ks, hks, hsays⟩ := h.antecedent
  rw [hks]
  exact Condition.exists_allHold_eq
    ((forall_mem_iff_of_forall₂ hsays fun _ _ hc => hc.answers_iff).mp hanswers)

/-! ### The first line that holds -/

/-- A list whose rules say some lines answers as the first of the lines whose clauses all hold, and
by its default if there is none. -/
theorem apply_of_says {defaults : Defaults} {info note : Info} {rules : List Rule} {v : Value}
    (h : List.Forall₂ RuleLine.Says ls rules)
    (hanswers : ∀ l ∈ ls, ∀ c ∈ l.clauses, c.Answers row) :
    (∃ before l after, ls = before ++ l :: after ∧ (∀ l' ∈ before, ¬ l'.Holds row) ∧
      l.Holds row ∧
      (Model.apply defaults row (.decisionList info rules (.constant note v))).outcome =
        .ok (.text l.content.value)) ∨
    (∀ l ∈ ls, ¬ l.Holds row) ∧
      (Model.apply defaults row (.decisionList info rules (.constant note v))).outcome = .ok v := by
  induction h with
  | nil => exact .inr ⟨List.forall_mem_nil _, Model.apply_decisionList_nil⟩
  | @cons l r ls rules hl _ ih =>
      rw [List.forall_mem_cons] at hanswers
      obtain ⟨b, hb⟩ := hl.exists_check hanswers.1
      rw [Model.apply_decisionList_cons hb]
      cases b with
      | true =>
          obtain ⟨info', hconsequent, -⟩ := hl.consequent
          refine .inl ⟨[], l, ls, rfl, List.forall_mem_nil _, hl.check_iff.mp hb, ?_⟩
          rw [cond_true, hconsequent]
          rfl
      | false =>
          -- the row passes the line by, and the others decide
          have hnot : ¬ l.Holds row := fun hholds => by
            rw [hl.check_iff.mpr hholds] at hb
            cases hb
          rcases ih hanswers.2 with
            ⟨before, first, after, rfl, hbefore, hfirst, happly⟩ | ⟨hnone, happly⟩
          · exact .inl ⟨l :: before, first, after, rfl, List.forall_mem_cons.mpr ⟨hnot, hbefore⟩,
              hfirst, happly⟩
          · exact .inr ⟨List.forall_mem_cons.mpr ⟨hnot, hnone⟩, happly⟩

/-! ### The lines of a text -/

/-- The lines of a text that are not blank. -/
def inkedLines (text : List Char) : List (List Char) :=
  (Text.splitLines text).filter fun line => line.any fun c => !Text.isBlank c

theorem map_text_numberedLines (text : List Char) :
    (numberedLines text).map (·.text) = inkedLines text := by
  have hfst := List.zipIdx_map_fst 1 (Text.splitLines text)
  rw [inkedLines, ← hfst, List.filter_map, numberedLines, List.filter_map, List.map_map]
  rfl

/-- The lines with clauses stand in front of the first line of another kind. -/
theorem map_line_ruleLines (lines : List NumberedLine) :
    (ruleLines lines).map (·.line) = lines.take (ruleLines lines).length := by
  fun_induction ruleLines lines with
  | case4 line lines content _ clauses _ ih =>
      rw [List.map_cons, List.length_cons, List.take_succ_cons, ih]
  | _ => rfl

/-- The lines of a text: those with clauses, the one behind them, and others. -/
theorem exists_inkedLines_eq {closing : NumberedLine}
    (h : (numberedLines text)[(ruleLinesOf text).length]? = some closing) :
    ∃ rest, inkedLines text = (ruleLinesOf text).map (·.line.text) ++ closing.text :: rest := by
  obtain ⟨hlength, rfl⟩ := List.getElem?_eq_some_iff.mp h
  have hfront : (ruleLinesOf text).map (·.line) =
      (numberedLines text).take (ruleLinesOf text).length :=
    map_line_ruleLines (numberedLines text)
  have hsplit := List.take_append_drop (ruleLinesOf text).length (numberedLines text)
  rw [List.drop_eq_getElem_cons hlength, ← hfront] at hsplit
  have htexts := congrArg (List.map (·.text)) hsplit
  rw [map_text_numberedLines, List.map_append, List.map_map, List.map_cons] at htexts
  exact ⟨_, htexts.symm⟩

/-- A line with clauses has them from its own text. -/
theorem read_of_mem_ruleLines {lines : List NumberedLine} (h : l ∈ ruleLines lines) :
    Line.read l.line.text = .ok l.content ∧ l.content.antecedent = .clauses l.clauses := by
  fun_induction ruleLines lines with
  | case4 line lines content hread clauses hclauses ih =>
      rcases List.mem_cons.mp h with rfl | h
      · exact ⟨hread, hclauses⟩
      · exact ih h
  | _ => cases h

/-! ### The meaning of a text -/

/-- What a text says, of which `ls` are the lines with clauses and `closing` is the default line. -/
structure Meaning (text : List Char) (ls : List RuleLine) (closing : Line) (m : Model) : Prop where
  lines : ∃ line rest, inkedLines text = ls.map (·.line.text) ++ line :: rest ∧
    Line.Written line closing
  always : closing.antecedent = .always
  written : ∀ l ∈ ls, Line.Written l.line.text l.content ∧ l.content.antecedent = .clauses l.clauses
  rules : ∃ info rules note, List.Forall₂ RuleLine.Says ls rules ∧
    m = .decisionList info rules (.constant note (.text closing.value))
  answers : ∀ defaults row, (∀ l ∈ ls, ∀ c ∈ l.clauses, c.Answers row) →
    (∃ before l after, ls = before ++ l :: after ∧ (∀ l' ∈ before, ¬ l'.Holds row) ∧ l.Holds row ∧
      (m.apply defaults row).outcome = .ok (.text l.content.value)) ∨
    (∀ l ∈ ls, ¬ l.Holds row) ∧ (m.apply defaults row).outcome = .ok (.text closing.value)

/-- **A list means what the lines of its text say.**  A text that is read with its default and under
its own names becomes a list with a rule for each line in front of the first default line, and
answers a row with the value of the first line that holds. -/
theorem read_means (strict : Bool) (text : List Char) (m : Model)
    (h : (read ⟨false, strict, id⟩ text).outcome = .ok m) :
    ∃ closing, Meaning text (ruleLinesOf text) closing m := by
  obtain ⟨totals, htotals⟩ := exists_totals?_of_read h
  rw [read_of_totals?_eq_some htotals] at h
  obtain ⟨⟨rules, default⟩, hrules, rfl⟩ := Except.map_eq_ok_iff.mp h
  obtain ⟨rfl, closing, content, hclosing, hread, halways, rfl⟩ := readRules_eq_ok hrules
  obtain ⟨rest, hlines⟩ := exists_inkedLines_eq hclosing
  have hsays := forall₂_says_rulesOf (o := ⟨false, strict, id⟩) rfl totals (ruleLinesOf text)
  exact ⟨content,
    { lines := ⟨closing.text, rest, hlines, Line.written_of_read hread⟩
      always := halways
      written := fun l hl => (read_of_mem_ruleLines hl).imp_left Line.written_of_read
      rules := ⟨_, _, _, hsays, rfl⟩
      answers := fun _ _ hanswers => apply_of_says hsays hanswers }⟩

theorem read_means_coveredText :
    ∃ m closing, (read ⟨false, true, id⟩ coveredText).outcome = .ok m ∧
      Meaning coveredText (ruleLinesOf coveredText) closing m ∧
      ∀ l ∈ ruleLinesOf coveredText, ∀ c ∈ l.clauses, c.Answers [("x", .int 1)] := by
  obtain ⟨m, hm⟩ := Except.isOk_iff.mp
    (show (read ⟨false, true, id⟩ coveredText).outcome.isOk = true by decide +kernel)
  obtain ⟨closing, hmeaning⟩ := read_means true coveredText m hm
  refine ⟨m, closing, hm, hmeaning, fun l hl c hc => ?_⟩
  have hanswered : ∀ l ∈ ruleLinesOf coveredText, ∀ c ∈ l.clauses,
      ((condition ⟨false, true, id⟩ c).holds [("x", .int 1)]).isOk = true := by decide +kernel
  exact (says_condition rfl c).answers_iff.mpr (Except.isOk_iff.mp (hanswered l hl c hc))

end Listing

end Rulebook
