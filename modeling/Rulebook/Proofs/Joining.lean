import Rulebook.Proofs.BatchApply
import Rulebook.Proofs.Feasible

/-!
# Trees — a branch over two trees

A tree that is built over two trees branches between their roots.  So its nodes are its root and the
nodes of the two, its leaves are their leaves, and it is one level higher than the higher one
(`Tree.size_join` and its neighbours).

What the two trees note about themselves is left behind.  Where the antecedent is checked, the new
tree gives what the root of the tree taken gives, changed by its own postprocess and no other
(`apply_join`).  So it answers as the tree taken does exactly where the two postprocesses agree
(`treeOfBranch_over_trees`).
-/

namespace Rulebook

namespace Traced

variable {ε α β : Type}

/-- Two last steps that tell nothing are alike where they do the same to the value found. -/
theorem bind_ofExcept_eq_iff {x : Traced ε α} {f g : α → Except ε β} :
    (x >>= fun a => ofExcept (f a)) = (x >>= fun a => ofExcept (g a)) ↔
      ∀ a, x.outcome = .ok a → f a = g a := by
  refine ⟨fun h a ha => ?_, fun h => bind_congr_of_outcome fun a ha => by rw [h a ha]⟩
  have houtcome := congrArg Traced.outcome h
  rwa [outcome_bind, outcome_bind, ha] at houtcome

end Traced

namespace Model

variable {defaults : Defaults} {row : Row} {info : Info} {f : Formula} {p n : Tree}

/-! ### The new tree -/

/-- The tree that branches between the roots of two trees. -/
def join (info : Info) (f : Formula) (p n : Tree) : Tree := ⟨info, .branch .empty f p.root n.root⟩

theorem outcome_treeOfBranch (info : Info) (f : Formula) (p n : Tree) :
    (treeOfBranch info f (.model (.tree p)) (.model (.tree n))).outcome =
      .ok (.tree (join info f p n)) := by
  simp only [treeOfBranch, branchOf, Part.withoutTree, Part.adopt, bind_assoc, pure_bind,
    Traced.outcome_bind, outcome_announce, Except.ok_bind]
  rfl

theorem size_join : (join info f p n).size = 1 + (p.size + n.size) := by
  simp only [join, TreeOf.size, submodels, List.length_append, List.length_cons]
  omega

theorem leafCount_join : (join info f p n).leafCount = p.leafCount + n.leafCount := by
  rw [TreeOf.leafCount, join, leaves_branch, List.length_append]
  rfl

theorem height_join : (join info f p n).height = 1 + max p.height n.height := Nat.add_comm _ _

/-! ### Its answers -/

theorem apply_tree_eq (t : Tree) :
    apply defaults row (.tree t) =
      t.root.apply defaults row >>= fun v => Traced.ofExcept (t.info.finish v) := rfl

/-- The root taken answers, and no postprocess but that of the new tree changes its answer. -/
theorem apply_join {b : Bool} (h : f.check row = .ok b) :
    apply defaults row (.tree (join info f p n)) =
      (bif b then p else n).root.apply defaults row >>= fun v =>
        Traced.ofExcept (info.finish v) := by
  have hroot : (join info f p n).root.apply defaults row =
      (bif b then p else n).root.apply defaults row := by
    change Traced.ofExcept (f.check row) >>= _ = _
    rw [h]
    cases b <;> exact pure_bind _ _
  rw [apply_tree_eq, hroot]
  rfl

/-- **A branch over two trees takes their roots.**  It is built in any case, and it has a node more
than they have together, their leaves and a level more than the higher one.  Where its antecedent is
checked, the root of the tree taken answers, and the postprocess of the new tree changes the answer;
so the answer is that of the tree taken exactly if the postprocess of that tree does the same. -/
theorem treeOfBranch_over_trees (info : Info) (f : Formula) (p n : Tree) :
    ∃ t : Tree,
      (treeOfBranch info f (.model (.tree p)) (.model (.tree n))).outcome = .ok (.tree t) ∧
      t.size = 1 + (p.size + n.size) ∧ t.leafCount = p.leafCount + n.leafCount ∧
      t.height = 1 + max p.height n.height ∧
      ∀ (defaults : Defaults) (row : Row) (b : Bool), f.check row = .ok b →
        apply defaults row (.tree t) =
          ((bif b then p else n).root.apply defaults row >>= fun v =>
            Traced.ofExcept (info.finish v)) ∧
        (apply defaults row (.tree t) = apply defaults row (.tree (bif b then p else n)) ↔
          ∀ v, ((bif b then p else n).root.apply defaults row).outcome = .ok v →
            info.finish v = (bif b then p else n).info.finish v) := by
  refine ⟨join info f p n, outcome_treeOfBranch info f p n, size_join, leafCount_join, height_join,
    fun defaults row b h => ⟨apply_join h, ?_⟩⟩
  rw [apply_join h, apply_tree_eq]
  exact Traced.bind_ofExcept_eq_iff

/-- A tree of two levels without a postprocess. -/
def graded : Tree :=
  ⟨.empty, .branch .empty (atLeast 3) (.constant .empty (.int 2)) (.constant .empty (.int 1))⟩

/-- A leaf whose answer is negated. -/
def negated : Tree := ⟨{ Info.empty with postprocess := some Postprocess.negate },
  .constant .empty (.int 5)⟩

theorem treeOfBranch_over_trees_graded :
    ∃ t : Tree,
      (treeOfBranch .empty (atLeast 1) (.model (.tree graded)) (.model (.tree negated))).outcome =
        .ok (.tree t) ∧
      t.size = 5 ∧ t.leafCount = 3 ∧ t.height = 2 ∧
      (atLeast 1).check [("x", .int 2)] = .ok true ∧
      (∀ defaults, apply defaults [("x", .int 2)] (.tree t) =
        apply defaults [("x", .int 2)] (.tree graded)) ∧
      (atLeast 1).check [("x", .int 0)] = .ok false ∧
      ∀ defaults, apply defaults [("x", .int 0)] (.tree t) = pure (.int 5) := by
  obtain ⟨t, hbuilt, hsize, hleaves, hheight, happly⟩ :=
    treeOfBranch_over_trees .empty (atLeast 1) graded negated
  have htrue : (atLeast 1).check [("x", .int 2)] = .ok true := rfl
  have hfalse : (atLeast 1).check [("x", .int 0)] = .ok false := rfl
  refine ⟨t, hbuilt, hsize, hleaves, hheight, htrue, fun defaults => ?_, hfalse, fun defaults => ?_⟩
  · exact (happly defaults _ true htrue).2.mpr fun _ _ => rfl
  · exact (happly defaults _ false hfalse).1

/-- The postprocess of a tree that becomes a subtree is applied to nothing any more. -/
theorem not_answers_as_subtree_of_postprocess :
    ¬ ∀ (f : Formula) (p n t : Tree) (defaults : Defaults) (row : Row) (b : Bool),
      (treeOfBranch .empty f (.model (.tree p)) (.model (.tree n))).outcome = .ok (.tree t) →
      f.check row = .ok b →
      (apply defaults row (.tree t)).outcome =
        (apply defaults row (.tree (bif b then p else n))).outcome := by
  intro h
  have hbuilt := outcome_treeOfBranch .empty .top negated negated
  have hsame : (Except.ok (.int 5) : Except Fault Value) = .ok (.int (-5)) :=
    h .top negated negated _ (.ok .default) [] true hbuilt rfl
  cases hsame

end Model

end Rulebook
