import Rulebook.Fault
import Rulebook.Traced

/-!
# Votes

The outcomes of several models become one.  Doubles alone are averaged; otherwise the label with
the most votes wins.

* `Tally.of`: the labels in the order of their first vote, with their votes.
* `Vote.winner`: of the labels with the most votes the first in the order of labels.
* `Vote.mean`: the average, with the sum taken pairwise.
* `bestGuess`: one or the other; a tie is recorded, and warned of unless `quiet`.  The warning names
  the winner, so a vote that has to warn of one that cannot be written fails (`Vote.tellTie`).
-/

namespace Rulebook

/-! ### Averages -/

namespace Vote

/-- Adds the members from left to right. -/
def sumFrom (start : Binary64) (xs : List Binary64) : Binary64 := xs.foldl Binary64.add start

/-- Eight running sums over the blocks of eight, and what is left over. -/
def sumBlocks (sums : List Binary64) (blocks : Nat) (xs : List Binary64) : List Binary64 :=
  (List.range blocks).foldl
    (fun sums i => List.zipWith Binary64.add sums ((xs.drop (8 * i)).take 8)) sums

/-- The sum of the eight running sums, in pairs. -/
def sumPairs : List Binary64 → Binary64
  | [a, b, c, d, e, f, g, h] =>
    ((a.add b).add (c.add d)).add ((e.add f).add (g.add h))
  | xs => sumFrom (.finite true 0 Format.double.lowest) xs

/-- The sum of a list: from left to right below eight members, in eight running sums up to 128,
and beyond that as the sum of two parts, the first of which is about half and whole blocks. -/
def pairwiseSum (xs : List Binary64) : Binary64 :=
  if xs.length < 8 then sumFrom (.finite true 0 Format.double.lowest) xs
  else if xs.length ≤ 128 then
    let blocks := xs.length / 8
    let sums := sumBlocks (xs.take 8) (blocks - 1) (xs.drop 8)
    sumFrom (sumPairs sums) (xs.drop (8 * blocks))
  else
    let half := xs.length / 2 / 8 * 8
    (pairwiseSum (xs.take half)).add (pairwiseSum (xs.drop half))
termination_by xs.length
decreasing_by all_goals simp only [List.length_take, List.length_drop]; omega

/-- The average of a list. -/
def mean (xs : List Binary64) : Binary64 :=
  (Binary64.zero.add (pairwiseSum xs)).divNat xs.length

/-- The doubles of a list of nothing else. -/
def doubles? : List Value → Option (List Binary64)
  | [] => some []
  | .real x :: vs => (doubles? vs).map (x :: ·)
  | _ :: _ => none

end Vote

/-! ### Counts -/

/-- Labels with their votes, in the order of their first vote. -/
abbrev Tally := List (Value × Nat)

namespace Tally

/-- One more vote for a label; the first of equal labels stands for all. -/
def bump (v : Value) : Tally → Tally
  | [] => [(v, 1)]
  | (w, n) :: rest => if w.same v then (w, n + 1) :: rest else (w, n) :: bump v rest

protected def of (votes : List Value) : Tally := votes.foldl (fun tally v => bump v tally) []

/-- The most votes of a label. -/
def most (tally : Tally) : Nat := tally.foldl (fun n entry => max n entry.2) 0

/-- The labels with the most votes, in the order of their first vote. -/
def leaders (tally : Tally) : List Value :=
  (tally.filter fun entry => entry.2 = tally.most).map (·.1)

end Tally

namespace Vote

/-- Of a label and others the first in the order of labels; of equal ones the earliest. -/
def first (v : Value) (others : List Value) : Value :=
  others.foldl (fun best w => if w.precedes best then w else best) v

/-- The label that wins, and the labels and the votes of the tie. -/
def winner? (votes : List Value) : Option (Value × List Value × Nat) :=
  let tally := Tally.of votes
  match tally.leaders with
  | [] => none
  | v :: others => some (first v others, v :: others, tally.most)

/-- Refuses the first vote that cannot be counted: a list. -/
def checkCountable (votes : List Value) : Except Fault Unit :=
  votes.forM fun
    | .list vs => .error (.uncountable (Value.list vs).kindName)
    | _ => .ok ()

/-- Records a tie, if there is one, and warns of it unless `quiet`. -/
def tellTie (quiet : Bool) (tied : List Value) (count : Nat) (winner : Value) :
    Traced Fault Unit :=
  if 1 < tied.length then do
    Traced.record (.tied tied winner)
    if quiet then pure ()
    else if winner.isWritable then Traced.tell (.warning ⟨tied.length, count, winner⟩)
    else .fail .oversized
  else pure ()

end Vote

/-- One outcome for the outcomes of several models. -/
def bestGuess (quiet : Bool) (votes : List Value) : Traced Fault Value :=
  if votes.isEmpty then .fail .noVotes
  else match Vote.doubles? votes with
  | some xs => pure (.real (Vote.mean xs))
  | none => do
    Traced.ofExcept (Vote.checkCountable votes)
    match Vote.winner? votes with
    | none => .fail .noVotes
    | some (winner, tied, count) =>
      Vote.tellTie quiet tied count winner
      return winner

end Rulebook
