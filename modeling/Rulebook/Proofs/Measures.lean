import Mathlib.Algebra.GroupWithZero.Nat
import Rulebook.Proofs.Nesting

/-!
# Trees — nodes, leaves and levels

The nodes of a tree are listed in pre-order, its leaves are picked from that list, and its height is
the longest way down; these are three ways through what is nested in a model.  Where that is nothing
but branches and constants, every node that is no leaf has two children, and so the three numbers
depend on each other: there is one leaf more than there are branches, and the leaves lie between
those of a tree that has one branch on each level and those of a tree that has all
(`measures_of_binary`).

No more can be said: every three numbers that are related in this way are those of a tree
(`exists_binary_iff`).

* `Model.height_eq`: the height of a model by those of its children.
-/

namespace Rulebook

namespace Model

/-! ### The height by the children -/

/-- The height of the highest of some models. -/
def highest (ms : List Model) : Nat := (ms.map height).foldr max 0

theorem highest_cons (m : Model) (ms : List Model) :
    highest (m :: ms) = max m.height (highest ms) :=
  rfl

theorem highest_concat (ms : List Model) (m : Model) :
    highest (ms ++ [m]) = max (highest ms) m.height := by
  induction ms with
  | nil => exact (Nat.max_zero _).trans (Nat.zero_max _).symm
  | cons m' ms ih => rw [List.cons_append, highest_cons, highest_cons, ih, Nat.max_assoc]

theorem ruleHeight_eq (rules : List Rule) : ruleHeight rules = highest (rules.map .rule) := by
  induction rules with
  | nil => rfl
  | cons r rules ih =>
      rw [List.map_cons, highest_cons, ← ih]
      rfl

theorem treeHeight_eq (trees : List Tree) : treeHeight trees = highest (trees.map .tree) := by
  induction trees with
  | nil => rfl
  | cons t trees ih =>
      rw [List.map_cons, highest_cons, ← ih]
      rfl

/-- A model without children has the height zero, and any other is one level higher than the highest
of its children. -/
theorem height_eq (m : Model) :
    m.height = if m.children = [] then 0 else highest m.children + 1 := by
  cases m with
  | constant => rfl
  | rule r => exact congrArg (· + 1) (Nat.max_zero _).symm
  | branch info f positive negative =>
      exact congrArg (fun n => max positive.height n + 1) (Nat.max_zero _).symm
  | decisionList info rules default =>
      have hsome : children (.decisionList info rules default) ≠ [] :=
        List.append_ne_nil_of_right_ne_nil _ (List.cons_ne_nil _ _)
      rw [if_neg hsome, height, ruleHeight_eq, ← highest_concat]
      rfl
  | tree t => exact congrArg (· + 1) (Nat.max_zero _).symm
  | forest info trees =>
      cases trees with
      | nil => rfl
      | cons t trees =>
          have hsome : children (.forest info (t :: trees)) ≠ [] := List.cons_ne_nil _ _
          rw [if_neg hsome, height, treeHeight_eq]
          rfl
  | mixed info root feasible => exact congrArg (· + 1) (Nat.max_zero _).symm

/-! ### Models of branches and constants -/

/-- A model in which there are branches and constants and nothing else. -/
inductive Binary : Model → Prop
  | constant (info : Info) (v : Value) : Binary (.constant info v)
  | branch (info : Info) (f : Formula) {positive negative : Model} (hp : Binary positive)
      (hn : Binary negative) : Binary (.branch info f positive negative)

theorem binary_of_kinds {m : Model} (h : ∀ n ∈ m.reachable, n.kind = .branch ∨ n.kind = .constant) :
    m.Binary := by
  have hkind := h m List.mem_cons_self
  induction m with
  | constant info v => exact .constant info v
  | branch info f positive negative ihp ihn =>
      rw [reachable_branch, List.forall_mem_cons, List.forall_mem_append] at h
      obtain ⟨-, hp, hn⟩ := h
      exact .branch info f (ihp hp (hp _ List.mem_cons_self)) (ihn hn (hn _ List.mem_cons_self))
  | rule | decisionList | tree | forest | mixed => rcases hkind with hkind | hkind <;> cases hkind

theorem Binary.kinds {m : Model} (h : m.Binary) :
    ∀ n ∈ m.reachable, n.kind = .branch ∨ n.kind = .constant := by
  induction h with
  | constant info v => exact List.forall_mem_singleton.mpr (.inr rfl)
  | branch info f _ _ ihp ihn =>
      rw [reachable_branch, List.forall_mem_cons, List.forall_mem_append]
      exact ⟨.inl rfl, ihp, ihn⟩

/-- There is one leaf more than there are branches. -/
theorem Binary.length_reachable {m : Model} (h : m.Binary) :
    m.reachable.length + 1 = 2 * m.leaves.length := by
  induction h with
  | constant info v => rfl
  | branch info f _ _ ihp ihn =>
      rw [reachable_branch, leaves_branch, List.length_cons, List.length_append, List.length_append]
      omega

/-- Every level has a leaf of its own. -/
theorem Binary.height_lt {m : Model} (h : m.Binary) : m.height < m.leaves.length := by
  induction h with
  | constant info v => exact Nat.one_pos
  | branch info f _ _ ihp ihn =>
      rw [leaves_branch, List.length_append, height]
      omega

/-- A level has at most twice as many nodes as the one above. -/
theorem Binary.length_leaves_le {m : Model} (h : m.Binary) : m.leaves.length ≤ 2 ^ m.height := by
  induction h with
  | constant info v => exact Nat.le_refl 1
  | @branch info f positive negative _ _ ihp ihn =>
      have hp : 2 ^ positive.height ≤ 2 ^ max positive.height negative.height :=
        Nat.pow_le_pow_right Nat.two_pos (Nat.le_max_left _ _)
      have hn : 2 ^ negative.height ≤ 2 ^ max positive.height negative.height :=
        Nat.pow_le_pow_right Nat.two_pos (Nat.le_max_right _ _)
      rw [leaves_branch, List.length_append, height, Nat.pow_succ]
      omega

/-! ### Models of given measures -/

variable {leaves height : Nat}

/-- Below a height there is room for every number of leaves up to the full one. -/
theorem exists_binary_le (hsome : 1 ≤ leaves) (hroom : leaves ≤ 2 ^ height) :
    ∃ m : Model, m.Binary ∧ m.height ≤ height ∧ m.leaves.length = leaves := by
  induction height generalizing leaves with
  | zero =>
      exact ⟨.constant .empty .missing, .constant _ _, Nat.le_refl 0, by
        rw [Nat.le_antisymm hroom hsome]; rfl⟩
  | succ height ih =>
      by_cases hsmall : leaves ≤ 2 ^ height
      · obtain ⟨m, hm, hheight, hleaves⟩ := ih hsome hsmall
        exact ⟨m, hm, Nat.le_succ_of_le hheight, hleaves⟩
      · rw [Nat.pow_succ] at hroom
        obtain ⟨p, hp, hpheight, hpleaves⟩ := ih Nat.one_le_two_pow (Nat.le_refl _)
        obtain ⟨n, hn, hnheight, hnleaves⟩ :=
          @ih (leaves - 2 ^ height) (by omega) (by omega)
        refine ⟨.branch .empty .top p n, .branch .empty .top hp hn, ?_, ?_⟩
        · rw [Model.height]
          omega
        · rw [leaves_branch, List.length_append, hpleaves, hnleaves]
          omega

/-- A height is reached with every number of leaves between one more than it and the full one. -/
theorem exists_binary_eq (hlow : height + 1 ≤ leaves) (hroom : leaves ≤ 2 ^ height) :
    ∃ m : Model, m.Binary ∧ m.height = height ∧ m.leaves.length = leaves := by
  induction height generalizing leaves with
  | zero =>
      exact ⟨.constant .empty .missing, .constant _ _, rfl, by
        rw [Nat.le_antisymm hroom hlow]; rfl⟩
  | succ height ih =>
      have hpos : height < 2 ^ height := Nat.lt_two_pow_self
      rw [Nat.pow_succ] at hroom
      -- one side is as high as it has to be, and the other has the leaves that do not fit into it
      obtain ⟨p, hp, hpheight, hpleaves⟩ :=
        @ih (min (leaves - 1) (2 ^ height)) (by omega) (by omega)
      obtain ⟨n, hn, hnheight, hnleaves⟩ :=
        @exists_binary_le (leaves - min (leaves - 1) (2 ^ height)) height (by omega) (by omega)
      refine ⟨.branch .empty .top p n, .branch .empty .top hp hn, ?_, ?_⟩
      · rw [Model.height]
        omega
      · rw [leaves_branch, List.length_append, hpleaves, hnleaves]
        omega

end Model

/-! ### Trees and forests -/

namespace TreeOf

/-- A tree below which there are branches and constants and nothing else. -/
def Binary (t : Tree) : Prop :=
  ∀ m ∈ (Model.tree t).submodels, m.kind = .branch ∨ m.kind = .constant

instance (t : Tree) : Decidable t.Binary :=
  inferInstanceAs (Decidable
    (∀ m ∈ (Model.tree t).submodels, m.kind = .branch ∨ m.kind = .constant))

/-- The models below a tree are its root and those below the root. -/
theorem binary_iff {t : Tree} : t.Binary ↔ t.root.Binary :=
  ⟨Model.binary_of_kinds, Model.Binary.kinds⟩

theorem Binary.size_eq {t : Tree} (h : t.Binary) : t.size + 1 = 2 * t.leafCount := by
  have hlength := Model.Binary.length_reachable (binary_iff.mp h)
  rw [Model.reachable, List.length_cons] at hlength
  rw [size, leafCount, ← hlength, Nat.add_comm 1]

end TreeOf

/-- The trees of a forest together have, for each of them, one node less than twice the leaves. -/
theorem Forest.size_of_binary {trees : List Tree} (h : ∀ t ∈ trees, t.Binary) :
    size trees + trees.length = 2 * leafCount trees := by
  induction trees with
  | nil => rfl
  | cons t trees ih =>
      obtain ⟨ht, htrees⟩ := List.forall_mem_cons.mp h
      have hsize := ht.size_eq
      have hrest := ih htrees
      simp only [size, leafCount, List.foldr_cons, List.length_cons] at hrest ⊢
      omega

/-- **The measures of a tree of branches and leaves.**  There is one leaf more than there are
branches; there are more leaves than levels above them, and not more than a tree can have that is
full down to its height.  In a forest the nodes and leaves add up. -/
theorem measures_of_binary :
    (∀ t : Tree, t.Binary →
      t.size + 1 = 2 * t.leafCount ∧ t.height + 1 ≤ t.leafCount ∧ t.leafCount ≤ 2 ^ t.height) ∧
    ∀ trees : List Tree, (∀ t ∈ trees, t.Binary) →
      Forest.size trees + trees.length = 2 * Forest.leafCount trees := by
  refine ⟨fun t ht => ⟨ht.size_eq, ?_, ?_⟩, fun trees htrees => Forest.size_of_binary htrees⟩
  · exact Model.Binary.height_lt (TreeOf.binary_iff.mp ht)
  · exact Model.Binary.length_leaves_le (TreeOf.binary_iff.mp ht)

/-- A tree that has a leaf on the negative side of each of three branches. -/
def staircase : Tree :=
  let step (outcome : Int) (above : Model) : Model :=
    .branch .empty .top above (.constant .empty (.int outcome))
  ⟨.empty, step 1 (step 2 (step 3 (.constant .empty (.int 4))))⟩

/-- A tree that is a leaf. -/
def singleLeaf : Tree := ⟨.empty, .constant .empty (.int 0)⟩

theorem measures_of_binary_staircase :
    (staircase.Binary ∧ staircase.size = 7 ∧ staircase.leafCount = 4 ∧ staircase.height = 3) ∧
    (singleLeaf.Binary ∧ singleLeaf.size = 1 ∧ singleLeaf.leafCount = 1 ∧ singleLeaf.height = 0) ∧
    Forest.size [staircase, singleLeaf] = 8 := by
  have hstaircase : staircase.Binary := by decide
  have hsingle : singleLeaf.Binary := by decide
  obtain ⟨htrees, hforests⟩ := measures_of_binary
  have hleaves : staircase.leafCount = 4 := rfl
  have hforest := hforests [staircase, singleLeaf]
    (List.forall_mem_cons.mpr ⟨hstaircase, List.forall_mem_singleton.mpr hsingle⟩)
  have htogether : Forest.leafCount [staircase, singleLeaf] = 5 := rfl
  obtain ⟨hsize, -, -⟩ := htrees staircase hstaircase
  obtain ⟨hsize', hheight', -⟩ := htrees singleLeaf hsingle
  have hleaf : singleLeaf.leafCount = 1 := rfl
  refine ⟨⟨hstaircase, by omega, hleaves, rfl⟩, ⟨hsingle, by omega, hleaf, by omega⟩, ?_⟩
  rw [htogether, List.length_cons, List.length_singleton] at hforest
  omega

/-- **Which measures there are.**  Three numbers are the nodes, leaves and height of a tree of
branches and leaves exactly if they are related as those of such a tree have to be. -/
theorem exists_binary_iff {size leaves height : Nat} :
    (∃ t : Tree, t.Binary ∧ t.size = size ∧ t.leafCount = leaves ∧ t.height = height) ↔
      size + 1 = 2 * leaves ∧ height + 1 ≤ leaves ∧ leaves ≤ 2 ^ height := by
  constructor
  · rintro ⟨t, ht, rfl, rfl, rfl⟩
    exact ⟨ht.size_eq, Model.Binary.height_lt (TreeOf.binary_iff.mp ht),
      Model.Binary.length_leaves_le (TreeOf.binary_iff.mp ht)⟩
  · rintro ⟨hsize, hlow, hroom⟩
    obtain ⟨m, hm, hheight, hleaves⟩ := Model.exists_binary_eq hlow hroom
    have ht : TreeOf.Binary ⟨.empty, m⟩ := TreeOf.binary_iff.mpr hm
    refine ⟨⟨.empty, m⟩, ht, ?_, hleaves, hheight⟩
    have hcount := ht.size_eq
    rw [TreeOf.leafCount, hleaves] at hcount
    omega

end Rulebook
