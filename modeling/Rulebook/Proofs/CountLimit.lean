import Rulebook.Proofs.LineErrors
import Rulebook.Proofs.Meaning

/-!
# Listings — the limit on counts

An error in a line blames a column, with one exception: a count in the brackets that has more digits
than a number may have.  Only the reader of the counts meets it, since the errors of all others
blame columns, so a text on which it is met has a line with such a count
(`exists_of_read_oversized`).
-/

namespace Rulebook

namespace Line

variable {line : List Char} {digits : Nat}

/-- A line with a count of so many digits, which are too many. -/
def Oversized (line : List Char) (digits : Nat) : Prop :=
  4300 < digits ∧ ∃ runs rest, Bracketed line runs rest ∧ ∃ run ∈ runs, run.length = digits

/-- The counts of a line are all that can be too long in it. -/
theorem oversized_of_read (h : read line = .error (.oversized digits)) : Oversized line digits := by
  unfold read at h
  rcases Except.bind_eq_error_iff.mp h with hcounts | ⟨counts, hcounts, h⟩
  · exact nomatch Token.failsAs_readBrackets (Nat.lt_succ_self _) _ hcounts
  rcases Except.bind_eq_error_iff.mp h with hdistribution | ⟨distribution, -, h⟩
  · obtain ⟨run, hrun, hlong, he⟩ := oversized_of_readDistribution hdistribution
    obtain rfl := LineError.oversized.inj he
    exact ⟨hlong, _, _, (Token.bracketed_of_readBrackets hcounts).1, run, hrun, rfl⟩
  · have hlast : line.length < line.length + 2 := by omega
    have hwords := failsAs_readWords_of_readBrackets hcounts hlast fun _ _ _ _ => by omega
    exact nomatch (hwords.bind fun _ _ => .ok _) _ h

end Line

namespace Listing

/-- **The limit on counts is met only on a line with a count that is too long.** -/
theorem exists_of_read_oversized {o : Options} {text : List Char} {digits : Nat}
    (h : (read o text).outcome = .error (.oversized digits)) :
    ∃ line ∈ inkedLines text, Line.Oversized line digits := by
  cases failsAs_read o text _ h with
  | @oversized line _ hline hread =>
      refine ⟨line.text, ?_, Line.oversized_of_read hread⟩
      rw [← map_text_numberedLines]
      exact List.mem_map_of_mem hline

end Listing

end Rulebook
