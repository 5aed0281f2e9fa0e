import Rulebook.Proofs.LineErrors

/-!
# Listings — the column of an error

An error that blames a line of a listing blames a column of it, from the first one to that just
behind its end, with one exception.  A line that is written as a line has to be up to its first
`THEN`, and ends there without so much as a blank, breaks off (`Line.BreaksOff`).  Its prediction is
missed where it should begin, behind a blank, and that is two columns behind the end
(`Line.read_of_breaksOff`).

* `Listing.blamed_column`: an error blames a column of its line exactly when the line does not break
  off.
-/

namespace Rulebook

namespace Line

variable {line : List Char}

/-- A line that is written as a line has to be up to its first `THEN`, where it ends. -/
inductive BreaksOff : List Char → Prop
  | intro {line rest : List Char} {runs : List (List Char)} {ws : List SpacedWord}
      (hcounts : Bracketed line runs rest) (hshort : ∀ run ∈ runs, run.length ≤ 4300)
      (hwords : Worded rest ws) (hend : rest = SpacedWord.text ws) (hthen : EndsAtThen ws) :
      BreaksOff line

/-- The prediction of a line that breaks off is missed behind a blank that is not there. -/
theorem read_of_breaksOff (h : BreaksOff line) :
    read line = .error (.malformed .noPrediction (line.length + 2)) := by
  obtain ⟨hbracketed, hshort, hws, hend, hthen⟩ := h
  obtain ⟨counts, hcounts, rfl, rfl⟩ := Token.readBrackets_of_bracketed hbracketed
  obtain ⟨-, hdrop⟩ := Token.bracketed_of_readBrackets hcounts
  rw [read, hcounts, Except.ok_bind, readDistribution_eq hshort, Except.ok_bind,
    Token.readWords_of_worded hws, hthen.readWords_eq (hws.standAt hdrop), ← hend,
    Token.position_add_length hcounts]
  rfl

/-- An error of any other line blames a column of it, if it blames a column. -/
theorem within_of_read {fault : LineFault} {column : Nat}
    (h : read line = .error (.malformed fault column)) (hline : ¬ BreaksOff line) :
    LineError.Within (line.length + 1) (.malformed fault column) := by
  unfold read at h
  rcases Except.bind_eq_error_iff.mp h with hcounts | ⟨counts, hcounts, h⟩
  · exact Token.failsAs_readBrackets (Nat.lt_succ_self _) _ hcounts
  rcases Except.bind_eq_error_iff.mp h with hdistribution | ⟨distribution, hdistribution, h⟩
  · obtain ⟨-, -, -, ⟨⟩⟩ := oversized_of_readDistribution hdistribution
  · refine ((failsAs_readWords_of_readBrackets hcounts (Nat.lt_succ_self _) ?_).bind
      fun _ _ => .ok _) _ h
    -- the counts are read, so a line that ends at `THEN` would break off
    intro ws hws hend hthen
    obtain ⟨hbracketed, -⟩ := Token.bracketed_of_readBrackets hcounts
    exact absurd (.intro hbracketed (short_of_readDistribution hdistribution) hws hend hthen) hline

/-- **An error in a line blames a column of it exactly when the line does not break off.** -/
theorem column_of_read {fault : LineFault} {column : Nat}
    (h : read line = .error (.malformed fault column)) :
    1 ≤ column ∧ (column ≤ line.length + 1 ↔ ¬ BreaksOff line) := by
  by_cases hline : BreaksOff line
  · cases h.symm.trans (read_of_breaksOff hline)
    exact ⟨Nat.le_add_left 1 _, iff_of_false (by omega) (not_not_intro hline)⟩
  · obtain ⟨hfirst, hlast⟩ := within_of_read h hline
    exact ⟨hfirst, iff_of_true hlast hline⟩

end Line

namespace Listing

/-- The column at which the counts of a line begin lies in the line. -/
theorem bracketColumn_le (line : List Char) : bracketColumn line ≤ line.length + 1 :=
  Nat.succ_le_succ (List.takeWhile_sublist _).length_le

/-- An error in a line of a listing blames a column of it exactly when the line does not break
off. -/
theorem column_of_read {o : Options} {text : List Char} {line : NumberedLine}
    {fault : LineFault} {column : Nat}
    (h : (read o text).outcome = .error (.malformed line fault column)) :
    line ∈ numberedLines text ∧
      1 ≤ column ∧ (column ≤ line.text.length + 1 ↔ ¬ Line.BreaksOff line.text) := by
  cases failsAs_read o text _ h with
  | malformed hline hread => exact ⟨hline, Line.column_of_read hread⟩
  | classCount hline hread =>
      refine ⟨hline, Nat.le_add_left 1 _, iff_of_true (bracketColumn_le _) fun hoff => ?_⟩
      rw [Line.read_of_breaksOff hoff] at hread
      cases hread

/-- **The column that an error blames.**  An error that blames a line of its own, or a line of a
listing, blames a column of it, counted from one, up to just behind its end, unless the line is
written as a line has to be up to its first `THEN` and ends there.  Such a line is always an error,
and the column blamed is two behind its end. -/
theorem blamed_column (o : Options) (text line : List Char) :
    (Line.BreaksOff line →
      Line.read line = .error (.malformed .noPrediction (line.length + 2))) ∧
    (∀ fault column, Line.read line = .error (.malformed fault column) →
      1 ≤ column ∧ (column ≤ line.length + 1 ↔ ¬ Line.BreaksOff line)) ∧
    ∀ (blamed : NumberedLine) fault column,
      (read o text).outcome = .error (.malformed blamed fault column) →
      blamed ∈ numberedLines text ∧
        1 ≤ column ∧ (column ≤ blamed.text.length + 1 ↔ ¬ Line.BreaksOff blamed.text) :=
  ⟨Line.read_of_breaksOff, fun _ _ => Line.column_of_read, fun _ _ _ => column_of_read⟩

/-- A default line that ends at its `THEN`. -/
def brokenLine : List Char := "[1] IF TRUE THEN".toList

theorem blamed_column_brokenLine :
    Line.BreaksOff brokenLine ∧ (read ⟨false, true, id⟩ brokenLine).outcome =
      .error (.malformed ⟨1, brokenLine⟩ .noPrediction 18) := by
  have hread : (read ⟨false, true, id⟩ brokenLine).outcome =
      .error (.malformed ⟨1, brokenLine⟩ .noPrediction 18) :=
    Except.map_eq_error_iff.mp
      (show (read ⟨false, true, id⟩ brokenLine).outcome.map (fun _ => ()) = _ by decide +kernel)
  obtain ⟨-, -, hlisting⟩ := blamed_column ⟨false, true, id⟩ brokenLine brokenLine
  obtain ⟨-, -, hcolumn⟩ := hlisting _ _ _ hread
  refine ⟨by_contra fun hoff => ?_, hread⟩
  exact absurd (hcolumn.mpr hoff) (by decide)

/-- Not every error blames a column of its line. -/
theorem not_column_le_of_brokenLine :
    ¬ ∀ line fault column, Line.read line = .error (.malformed fault column) →
      1 ≤ column ∧ column ≤ line.length + 1 := by
  intro h
  have hread : Line.read brokenLine = .error (.malformed .noPrediction 18) := by decide +kernel
  exact absurd (h _ _ _ hread).2 (by decide)

end Listing

end Rulebook
