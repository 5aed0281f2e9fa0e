import Rulebook.Proofs.Coverage
import Rulebook.Proofs.Lines

/-!
# Listings — what stands behind the default line

The default line ends the rules of a listing, and what stands behind it is not parsed.  It is not
left aside either: the totals from which the rules take away are those of the last line of the text,
wherever the default line is.

* `Listing.read_eq_ok_iff`: what a text has to be for its reading to end well, and with which list.
* `Listing.read_with_lines_behind`: further lines leave the list as it is if the last of them has
  the totals of the text, or if no rule is left to note what was before it; and not otherwise.
-/

namespace Rulebook

namespace Listing

variable {o : Options} {totals totals' : List Int} {lines : List NumberedLine} {l : RuleLine}
  {ls : List RuleLine} {text extended : List Char} {content : Line}

theorem numberedLines_of_append {further : List (List Char)}
    (h : Text.splitLines extended = Text.splitLines text ++ further) :
    ∃ more, numberedLines extended = numberedLines text ++ more := by
  simp only [numberedLines, h, List.zipIdx_append, List.map_append, List.filter_append]
  exact ⟨_, rfl⟩

/-! ### The default line -/

/-- The line that ends the rules of some lines. -/
def closing? : List NumberedLine → Option Line
  | [] => none
  | line :: lines =>
    match Line.read line.text with
    | .error _ => none
    | .ok content =>
      match content.antecedent with
      | .always => some content
      | .clauses _ => closing? lines

/-- Behind the default line there are no rules to read. -/
theorem closing?_append (h : closing? lines = some content) (more : List NumberedLine) :
    closing? (lines ++ more) = some content ∧ ruleLines (lines ++ more) = ruleLines lines := by
  fun_induction ruleLines lines with
  | case1 => cases h
  | case2 line lines e hread => simp [closing?, hread] at h
  | case3 line lines content' hread halways =>
      simp only [closing?, hread, halways] at h
      simp only [List.cons_append, closing?, ruleLines, hread, halways, h, and_self]
  | case4 line lines content' hread clauses hclauses ih =>
      simp only [closing?, hread, hclauses] at h
      simp only [List.cons_append, closing?, ruleLines, hread, hclauses, ih h, and_self]

/-! ### Readings that end well -/

/-- Some lines go with the totals: they count as many classes, and in a strict reading they cover
no more than there is. -/
structure Suits (o : Options) (totals : List Int) (ls : List RuleLine) : Prop where
  widths : ∀ l ∈ ls, l.content.distribution.length = totals.length
  fits : o.strict = true → ∀ k < ls.length, Fits totals (ls.take (k + 1))

theorem suits_nil : Suits o totals [] :=
  ⟨List.forall_mem_nil _, fun _ _ hk => absurd hk (Nat.not_lt_zero _)⟩

theorem suits_cons :
    Suits o totals (l :: ls) ↔ l.content.distribution.length = totals.length ∧
      (o.strict = true → Fits totals [l]) ∧
        Suits o (remaining totals l.content.distribution) ls := by
  have hlength (h : l.content.distribution.length = totals.length) :
      (remaining totals l.content.distribution).length = totals.length := by
    rw [remaining, List.length_zipWith, h, Nat.min_self]
  constructor
  · rintro ⟨hwidths, hfits⟩
    obtain ⟨hl, hls⟩ := List.forall_mem_cons.mp hwidths
    refine ⟨hl, fun hstrict => hfits hstrict 0 (Nat.succ_pos _),
      fun l' hl' => (hls l' hl').trans (hlength hl).symm, fun hstrict k hk => ?_⟩
    exact (fits_cons hl).mp (hfits hstrict (k + 1) (Nat.succ_lt_succ hk))
  · rintro ⟨hl, hfit, hwidths, hfits⟩
    exact ⟨List.forall_mem_cons.mpr ⟨hl, fun l' hl' => (hwidths l' hl').trans (hlength hl)⟩,
      fun hstrict => forall_fits_cons hl (hfit hstrict) (hfits hstrict)⟩

/-- A reading that ends well has come to a default line. -/
theorem closing?_of_readRules {preceded : Bool} {x : List Rule × Model}
    (h : (readRules o totals preceded lines).outcome = .ok x) :
    ∃ content, closing? lines = some content ∧ Suits o totals (ruleLines lines) ∧
      (o.ignoreDefault = true → preceded = true ∨ ruleLines lines ≠ []) := by
  fun_induction ruleLines lines generalizing totals preceded x with
  | case1 => exact absurd h (by simp [readRules])
  | case2 line lines e hread =>
      rw [readRules_of_error hread] at h
      cases h
  | case3 line lines content hread halways =>
      rw [readRules_of_always hread halways] at h
      split at h
      next => cases h
      next hpreceded =>
        refine ⟨content, by simp only [closing?, hread, halways], suits_nil, fun hignore => ?_⟩
        exact .inl (by simpa [hignore] using hpreceded)
  | case4 line lines content hread clauses hclauses ih =>
      by_cases hwidth : content.distribution.length = totals.length
      · rw [readRules_of_clauses hread hclauses hwidth] at h
        split at h
        next => cases h
        next hfits =>
          obtain ⟨y, hy, -⟩ := Except.map_eq_ok_iff.mp h
          obtain ⟨closing, hclosing, hsuits, -⟩ := ih hy
          refine ⟨closing, by simpa only [closing?, hread, hclauses] using hclosing,
            suits_cons.mpr ⟨hwidth, fun hstrict => ?_, hsuits⟩,
            fun _ => .inr (List.cons_ne_nil _ _)⟩
          exact not_not.mp fun hl => hfits ⟨hstrict, hl⟩
      · rw [readRules_of_width hread hclauses hwidth] at h
        cases h

/-- Lines that go with the totals are read up to the default line. -/
theorem readRules_of_suits {preceded : Bool} (hclosing : closing? lines = some content)
    (hsuits : Suits o totals (ruleLines lines))
    (hpreceded : o.ignoreDefault = true → preceded = true ∨ ruleLines lines ≠ []) :
    (readRules o totals preceded lines).outcome =
      .ok (rulesOf o totals (ruleLines lines), constant content none) := by
  fun_induction ruleLines lines generalizing totals preceded with
  | case1 => cases hclosing
  | case2 line lines e hread => simp [closing?, hread] at hclosing
  | case3 line lines content' hread halways =>
      simp only [closing?, hread, halways, Option.some.injEq] at hclosing
      subst hclosing
      rw [readRules_of_always hread halways, if_neg]
      · rfl
      · simpa using hpreceded
  | case4 line lines content' hread clauses hclauses ih =>
      simp only [closing?, hread, hclauses] at hclosing
      obtain ⟨hwidth, hfits, hsuits⟩ := suits_cons.mp hsuits
      rw [readRules_of_clauses hread hclauses hwidth, if_neg fun h => h.2 (hfits h.1),
        ih hclosing hsuits fun _ => .inl rfl, rulesOf_cons hwidth]
      rfl

/-- **When a text can be read**: its last line has counts, its rules end with a default line, the
lines before it go with the counts of the last line, and there is a rule to take the place of a
default that is ignored. -/
theorem read_eq_ok_iff {m : Model} :
    (read o text).outcome = .ok m ↔ ∃ totals content, totals? text = some totals ∧
      closing? (numberedLines text) = some content ∧ Suits o totals (ruleLinesOf text) ∧
      (o.ignoreDefault = true → ruleLinesOf text ≠ []) ∧
      m = listOf o (rulesOf o totals (ruleLinesOf text), constant content none) := by
  constructor
  · intro h
    obtain ⟨totals, htotals⟩ := exists_totals?_of_read h
    rw [read_of_totals?_eq_some htotals] at h
    obtain ⟨x, hx, rfl⟩ := Except.map_eq_ok_iff.mp h
    obtain ⟨content, hclosing, hsuits, hpreceded⟩ := closing?_of_readRules hx
    have hread := readRules_of_suits hclosing hsuits hpreceded
    refine ⟨totals, content, htotals, hclosing, hsuits, fun hignore => ?_, ?_⟩
    · exact (hpreceded hignore).resolve_left Bool.false_ne_true
    · rw [Except.ok.inj (hx.symm.trans hread), ruleLinesOf]
  · rintro ⟨totals, content, htotals, hclosing, hsuits, hpreceded, rfl⟩
    rw [read_of_totals?_eq_some htotals,
      readRules_of_suits hclosing hsuits fun hignore => .inr (hpreceded hignore)]
    rfl

/-! ### Lists that are read with other totals -/

theorem map_consequent_rulesOf (ls : List RuleLine) :
    (rulesOf o totals ls).map (·.consequent) =
      ls.map fun l => constant l.content (some (l.content.distribution.map Int.ofNat)) := by
  refine List.ext_getElem (by simp [rulesOf]) fun k _ _ => ?_
  simp [rulesOf, rule]

theorem assemble_snd (rules : List Rule) (default : Model) :
    (assemble o rules default).2 =
      if o.ignoreDefault then ((rules.map (·.consequent)).getLast?).getD default else default := by
  unfold assemble
  rw [List.getLast?_map]
  split
  · next last hignore hlast => rw [hignore, hlast, if_pos rfl]; rfl
  · next h =>
      cases hignore : o.ignoreDefault with
      | false => rfl
      | true =>
          cases hlast : rules.getLast? with
          | none => rfl
          | some last => exact absurd hlast (h last hignore)

theorem rulesOf_dropLast : rulesOf o totals ls.dropLast = (rulesOf o totals ls).dropLast := by
  refine List.ext_getElem (by simp [rulesOf]) fun k hk _ => ?_
  have htake : ls.dropLast.take k = ls.take k := by
    simp only [rulesOf, List.length_mapIdx, List.length_dropLast] at hk
    rw [List.dropLast_eq_take, List.take_take, Nat.min_eq_left (Nat.le_of_lt hk)]
  simp only [rulesOf, List.getElem_mapIdx, List.getElem_dropLast, htake]

/-- The first rule notes the totals. -/
theorem rulesOf_eq_iff :
    rulesOf o totals' ls = rulesOf o totals ls ↔ totals' = totals ∨ ls = [] := by
  constructor
  · intro h
    cases ls with
    | nil => exact .inr rfl
    | cons l ls =>
        simp only [rulesOf, List.mapIdx_cons, List.take_zero, leftAfter_nil, List.cons.injEq] at h
        exact .inl (Option.some.inj (congrArg (·.info.uncoveredDistribution) h.1))
  · rintro (rfl | rfl) <;> rfl

/-- The totals are noted in the rules of a list, and nowhere else. -/
theorem listOf_eq_iff {default : Model} :
    listOf o (rulesOf o totals' ls, default) = listOf o (rulesOf o totals ls, default) ↔
      totals' = totals ∨ (assemble o (rulesOf o totals ls) default).1 = [] := by
  have hsame : (assemble o (rulesOf o totals' ls) default).2 =
      (assemble o (rulesOf o totals ls) default).2 := by
    rw [assemble_snd, assemble_snd, map_consequent_rulesOf, map_consequent_rulesOf]
  have hlist : listOf o (rulesOf o totals' ls, default) = listOf o (rulesOf o totals ls, default) ↔
      (assemble o (rulesOf o totals' ls) default).1 =
        (assemble o (rulesOf o totals ls) default).1 := by
    simp only [listOf, hsame, Model.decisionList.injEq, true_and, and_true]
  have hnil (ls : List RuleLine) : rulesOf o totals ls = [] ↔ ls = [] := by
    rw [rulesOf, List.mapIdx_eq_nil_iff]
  rw [hlist, assemble_fst, assemble_fst]
  split
  · rw [← rulesOf_dropLast, ← rulesOf_dropLast, rulesOf_eq_iff, hnil]
  · rw [rulesOf_eq_iff, hnil]

/-! ### Lines behind the default line -/

/-- **What further lines change.**  A text that is read as a list, with further lines behind it, is
read as the same list exactly if its last line still has the same totals, or if there is no rule to
note them and the rule lines go with those that it has.  The further lines are not parsed, but the
totals are those of the last of them. -/
theorem read_with_lines_behind (o : Options) {further : List (List Char)} {m : Model}
    (h : (read o text).outcome = .ok m)
    (hlines : Text.splitLines extended = Text.splitLines text ++ further) :
    ∃ rules default, m = .decisionList .empty rules default ∧
      ((read o extended).outcome = .ok m ↔ totals? extended = totals? text ∨
        rules = [] ∧ ∃ totals, totals? extended = some totals ∧
          Suits o totals (ruleLinesOf text)) := by
  obtain ⟨totals, content, htotals, hclosing, hsuits, hpreceded, rfl⟩ := read_eq_ok_iff.mp h
  obtain ⟨more, hmore⟩ := numberedLines_of_append hlines
  -- the default line and the lines before it are the same in both texts; the totals may differ
  obtain ⟨hclosing', hrules'⟩ := closing?_append hclosing more
  refine ⟨_, _, rfl, ?_⟩
  rw [read_eq_ok_iff, ruleLinesOf, hmore, hrules', hclosing']
  constructor
  · rintro ⟨totals', content', htotals', hcontent, hsuits', -, hlist⟩
    cases hcontent
    rcases listOf_eq_iff.mp hlist.symm with rfl | hnil
    · exact .inl (htotals'.trans htotals.symm)
    · exact .inr ⟨hnil, totals', htotals', hsuits'⟩
  · rintro (hsame | ⟨hnil, totals', htotals', hsuits'⟩)
    · exact ⟨totals, content, hsame.trans htotals, rfl, hsuits, hpreceded, rfl⟩
    · exact ⟨totals', content, htotals', rfl, hsuits', hpreceded,
        (listOf_eq_iff.mpr (.inr hnil)).symm⟩

/-- `coveredText`, with lines behind it of which the last is of the given text. -/
def coveredThen (last : String) : List Char :=
  coveredText ++ '\n' :: ("end of list\n".toList ++ last.toList)

theorem read_coveredThen :
    ∃ m, (read ⟨false, true, id⟩ (coveredText ++ ['\n'])).outcome = .ok m ∧
      (read ⟨false, true, id⟩ (coveredThen "[3,3] examples")).outcome = .ok m ∧
      (read ⟨false, true, id⟩ (coveredThen "[4,4] examples")).outcome ≠ .ok m := by
  obtain ⟨m, hm⟩ := Except.isOk_iff.mp
    (show (read ⟨false, true, id⟩ (coveredText ++ ['\n'])).outcome.isOk = true by decide +kernel)
  refine ⟨m, hm, ?_, fun hother => ?_⟩
  · obtain ⟨_, _, -, hiff⟩ :=
      read_with_lines_behind ⟨false, true, id⟩ hm (Text.splitLines_append coveredText _)
    exact hiff.mpr (.inl (by decide +kernel))
  · obtain ⟨rules, _, rfl, hiff⟩ :=
      read_with_lines_behind ⟨false, true, id⟩ hm (Text.splitLines_append coveredText _)
    rcases hiff.mp hother with hsame | ⟨rfl, -⟩
    · exact absurd hsame (by decide +kernel)
    · have hlength : (read ⟨false, true, id⟩ (coveredText ++ ['\n'])).outcome.map
          (fun m => m.children.length) = .ok 3 := by decide +kernel
      rw [hm] at hlength
      cases hlength

/-- A default line and nothing else. -/
def defaultText : List Char := "[1] IF TRUE THEN y=B -1.0".toList

/-- A line behind the default line that has no counts is an error. -/
theorem not_read_with_lines_behind :
    ¬ ∀ (o : Options) (text extended : List Char) (further : List (List Char)) (m : Model),
      (read o text).outcome = .ok m →
      Text.splitLines extended = Text.splitLines text ++ further →
      (read o extended).outcome = .ok m := by
  intro h
  obtain ⟨m, hm⟩ := Except.isOk_iff.mp
    (show (read ⟨false, false, id⟩ defaultText).outcome.isOk = true by decide +kernel)
  have hextended := h ⟨false, false, id⟩ defaultText (defaultText ++ "\nend of list".toList)
    ["end of list".toList] m hm (by decide +kernel)
  have herror : (read ⟨false, false, id⟩ (defaultText ++ "\nend of list".toList)).outcome.isOk =
      false := by decide +kernel
  rw [hextended] at herror
  cases herror

end Listing

end Rulebook
