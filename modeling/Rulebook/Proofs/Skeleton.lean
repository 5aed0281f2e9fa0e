import Mathlib.Data.Finset.Card
import Mathlib.Data.List.Nodup
import Mathlib.Order.Bounds.Basic
import Rulebook.Proofs.ArrayWalk

/-!
# Array trees — the shape of the arrays

From the first node on, the arrays lead down to other nodes.  They describe a tree when every node
is met on exactly one way down (`ArrayTree.IsTree`); how the nodes are numbered does not matter.

A `Skeleton` is such a shape written as a tree.  `isTree_iff_exists_skeleton`: aligned arrays are a
tree exactly if they fit a skeleton that lists every node once.  What the arrays say about ways is
then said about the skeleton, by induction on it: the nodes that are met (`Fits.mem_nodes_iff`), the
leaves from left to right (`Fits.pairwise_leftOf`), the longest way down (`Fits.isGreatest_height`).
-/

namespace Rulebook

namespace ArrayTree

variable {t : ArrayTree} {node child last : Nat} {index : Int}

/-! ### Ways down -/

inductive Side
  | left | right
  deriving DecidableEq, Repr

/-- The array of the children on one side. -/
def children (t : ArrayTree) : Side → List Int
  | .left => t.left
  | .right => t.right

/-- The node at an index; a negative index counts from the end. -/
def node? (t : ArrayTree) (index : Int) : Option Nat := memberAt? (List.range t.size) index

/-- A child of a node that is no leaf. -/
structure Child (t : ArrayTree) (side : Side) (node child : Nat) : Prop where
  inner : ¬ t.IsLeaf node
  given : ∃ index, (t.children side)[node]? = some index ∧ t.node? index = some child

/-- The arrays lead from a node down to another, by way of the sides taken. -/
inductive Leads (t : ArrayTree) : Nat → List Side → Nat → Prop
  | here (node : Nat) : Leads t node [] node
  | down {side : Side} {node child last : Nat} {way : List Side} (h : t.Child side node child)
    (rest : Leads t child way last) : Leads t node (side :: way) last

/-- All arrays have one entry for each node. -/
structure Aligned (t : ArrayTree) : Prop where
  right : t.right.length = t.size
  feature : t.feature.length = t.size
  threshold : t.threshold.length = t.size
  value : t.value.length = t.size
  samples : t.samples.length = t.size

/-- Arrays that describe a tree: every node is met on one way from the first one, and no more. -/
structure IsTree (t : ArrayTree) : Prop where
  aligned : t.Aligned
  rooted : 0 < t.size
  children : ∀ node < t.size, ¬ t.IsLeaf node → ∀ side, ∃ child, t.Child side node child
  once : ∀ node < t.size, ∃! way, t.Leads 0 way node

/-- The way down to the first node goes left where that to the second one goes right. -/
def LeftOf (t : ArrayTree) (start a b : Nat) : Prop :=
  ∃ way toLeft toRight, t.Leads start (way ++ .left :: toLeft) a ∧
    t.Leads start (way ++ .right :: toRight) b

theorem mem_of_memberAt? {α : Type} {xs : List α} {a : α} (h : memberAt? xs index = some a) :
    a ∈ xs := by
  unfold memberAt? at h
  extract_lets position at h
  split at h
  · cases h
  · exact List.mem_of_getElem? h

theorem node?_lt (h : t.node? index = some node) : node < t.size :=
  List.mem_range.mp (mem_of_memberAt? h)

theorem IsLeaf.lt (h : t.IsLeaf node) : node < t.size := by
  obtain ⟨_, hleft, -⟩ := h
  exact (List.getElem?_eq_some_iff.mp hleft).1

theorem Child.lt {side : Side} (h : t.Child side node child) : child < t.size := by
  obtain ⟨_, -, hchild⟩ := h.given
  exact node?_lt hchild

theorem Child.unique {side : Side} {child' : Nat} (h : t.Child side node child)
    (h' : t.Child side node child') : child = child' := by
  obtain ⟨index, hindex, hchild⟩ := h.given
  obtain ⟨index', hindex', hchild'⟩ := h'.given
  obtain rfl := Option.some.inj (hindex.symm.trans hindex')
  exact Option.some.inj (hchild.symm.trans hchild')

namespace Leads

variable {start : Nat} {way : List Side}

theorem lt (h : t.Leads start way last) (hstart : start < t.size) : last < t.size := by
  induction h with
  | here => exact hstart
  | down hchild _ ih => exact ih hchild.lt

theorem concat {side : Side} (h : t.Leads start way node) (hchild : t.Child side node child) :
    t.Leads start (way ++ [side]) child := by
  induction h with
  | here => exact .down hchild (.here _)
  | down h _ ih => exact .down h (ih hchild)

/-- The beginning of a way is a way. -/
theorem exists_take (h : t.Leads start way last) (k : Nat) :
    ∃ node, t.Leads start (way.take k) node := by
  induction h generalizing k with
  | here node => exact ⟨node, by simpa using .here node⟩
  | down hchild _ ih =>
    cases k with
    | zero => exact ⟨_, .here _⟩
    | succ k =>
      obtain ⟨node, hnode⟩ := ih k
      exact ⟨node, .down hchild hnode⟩

theorem of_isLeaf (h : t.Leads start way last) (hleaf : t.IsLeaf start) : way = [] := by
  cases h with
  | here => rfl
  | down hchild => exact absurd hleaf hchild.inner

/-- Through a child, a way goes on from that child. -/
theorem of_cons {side : Side} (h : t.Leads start (side :: way) last)
    (hchild : t.Child side start child) : t.Leads child way last := by
  cases h with
  | down h rest =>
    rw [hchild.unique h]
    exact rest

end Leads

theorem LeftOf.under {side : Side} {a b : Nat} (hchild : t.Child side node child)
    (h : t.LeftOf child a b) : t.LeftOf node a b := by
  obtain ⟨way, toLeft, toRight, ha, hb⟩ := h
  exact ⟨side :: way, toLeft, toRight, .down hchild ha, .down hchild hb⟩

/-- A way meets no node twice, so it is shorter than there are nodes. -/
theorem IsTree.length_lt (ht : t.IsTree) {way : List Side} (h : t.Leads 0 way node) :
    way.length < t.size := by
  choose visited hvisited using h.exists_take
  by_contra hlong
  have hmaps : ∀ k ∈ Finset.range (t.size + 1), visited k ∈ Finset.range t.size := fun k _ =>
    Finset.mem_range.mpr ((hvisited k).lt ht.rooted)
  obtain ⟨i, hi, j, hj, hne, heq⟩ :=
    Finset.exists_ne_map_eq_of_card_lt_of_maps_to (by simp) hmaps
  have htake : way.take i = way.take j :=
    (ht.once _ ((hvisited i).lt ht.rooted)).unique (hvisited i) (heq ▸ hvisited j)
  have hlength := congrArg List.length htake
  rw [Finset.mem_range] at hi hj
  simp only [List.length_take] at hlength
  omega

end ArrayTree

/-! ### Skeletons -/

/-- The shape of a tree, with a node at each place. -/
inductive Skeleton
  | leaf (node : Nat)
  | split (node : Nat) (left right : Skeleton)

namespace Skeleton

/-- The node at the top. -/
def top : Skeleton → Nat
  | leaf node => node
  | split node _ _ => node

/-- All nodes, in pre-order. -/
def nodes : Skeleton → List Nat
  | leaf node => [node]
  | split node left right => node :: (left.nodes ++ right.nodes)

/-- The leaves, from left to right. -/
def leaves : Skeleton → List Nat
  | leaf node => [node]
  | split _ left right => left.leaves ++ right.leaves

def height : Skeleton → Nat
  | leaf _ => 0
  | split _ left right => max left.height right.height + 1

theorem leaves_sublist_nodes (s : Skeleton) : s.leaves.Sublist s.nodes := by
  induction s with
  | leaf node => exact .refl _
  | split node left right ihl ihr => exact .cons _ (ihl.append ihr)

theorem height_lt_length_nodes (s : Skeleton) : s.height < s.nodes.length := by
  induction s with
  | leaf node => exact Nat.one_pos
  | split node left right ihl ihr =>
    simp only [height, nodes, List.length_cons, List.length_append]
    omega

end Skeleton

namespace ArrayTree

variable {t : ArrayTree} {s : Skeleton} {node : Nat}

/-- The arrays have the shape of a skeleton. -/
def Fits (t : ArrayTree) : Skeleton → Prop
  | .leaf node => t.IsLeaf node
  | .split node left right =>
    t.Child .left node left.top ∧ t.Child .right node right.top ∧ t.Fits left ∧ t.Fits right

/-- The nodes of a skeleton are those that its top leads to. -/
theorem Fits.mem_nodes_iff (h : t.Fits s) : node ∈ s.nodes ↔ ∃ way, t.Leads s.top way node := by
  induction s with
  | leaf n =>
    rw [Skeleton.nodes, List.mem_singleton]
    constructor
    · rintro rfl
      exact ⟨[], .here _⟩
    · rintro ⟨way, hway⟩
      cases hway.of_isLeaf h
      cases hway
      rfl
  | split n left right ihl ihr =>
    obtain ⟨hl, hr, hleft, hright⟩ := h
    rw [Skeleton.nodes, List.mem_cons, List.mem_append, ihl hleft, ihr hright]
    constructor
    · rintro (rfl | ⟨way, hway⟩ | ⟨way, hway⟩)
      · exact ⟨[], .here _⟩
      · exact ⟨_, .down hl hway⟩
      · exact ⟨_, .down hr hway⟩
    · rintro ⟨_ | ⟨_ | _, way⟩, hway⟩
      · cases hway
        exact .inl rfl
      · exact .inr (.inl ⟨way, hway.of_cons hl⟩)
      · exact .inr (.inr ⟨way, hway.of_cons hr⟩)

/-- Every node that is no leaf has its two children. -/
theorem Fits.exists_child (h : t.Fits s) (hmem : node ∈ s.nodes) (hinner : ¬ t.IsLeaf node)
    (side : Side) : ∃ child, t.Child side node child := by
  induction s with
  | leaf n =>
    rw [List.mem_singleton.mp hmem] at hinner
    exact absurd h hinner
  | split n left right ihl ihr =>
    obtain ⟨hl, hr, hleft, hright⟩ := h
    rcases List.mem_cons.mp hmem with rfl | hmem
    · cases side with
      | left => exact ⟨_, hl⟩
      | right => exact ⟨_, hr⟩
    · rcases List.mem_append.mp hmem with hmem | hmem
      · exact ihl hleft hmem
      · exact ihr hright hmem

/-- The leaves of a skeleton are those of its nodes that are leaves. -/
theorem Fits.mem_leaves_iff (h : t.Fits s) : node ∈ s.leaves ↔ node ∈ s.nodes ∧ t.IsLeaf node := by
  induction s with
  | leaf n =>
    rw [Skeleton.leaves, Skeleton.nodes, List.mem_singleton]
    exact ⟨fun heq => ⟨heq, heq ▸ h⟩, And.left⟩
  | split n left right ihl ihr =>
    obtain ⟨hl, -, hleft, hright⟩ := h
    rw [Skeleton.leaves, Skeleton.nodes, List.mem_cons, List.mem_append, List.mem_append,
      ihl hleft, ihr hright]
    have hinner : node = n → ¬ t.IsLeaf node := fun heq => heq ▸ hl.inner
    tauto

/-! ### One way to each node -/

/-- No node is met on two ways. -/
def WaysUnique (t : ArrayTree) (start : Nat) : Prop :=
  ∀ node way way', t.Leads start way node → t.Leads start way' node → way = way'

theorem WaysUnique.child {side : Side} {child : Nat} (h : t.WaysUnique node)
    (hchild : t.Child side node child) : t.WaysUnique child := by
  intro last way way' hway hway'
  exact List.cons_inj_right side |>.mp (h last _ _ (.down hchild hway) (.down hchild hway'))

theorem Fits.nodup_nodes (h : t.Fits s) (hunique : t.WaysUnique s.top) : s.nodes.Nodup := by
  induction s with
  | leaf n => exact List.nodup_singleton n
  | split n left right ihl ihr =>
    obtain ⟨hl, hr, hleft, hright⟩ := h
    rw [Skeleton.nodes, List.nodup_cons, List.mem_append, not_or]
    refine ⟨⟨fun hmem => ?_, fun hmem => ?_⟩, (ihl hleft (hunique.child hl)).append
      (ihr hright (hunique.child hr)) fun node hmem hmem' => ?_⟩
    · obtain ⟨way, hway⟩ := hleft.mem_nodes_iff.mp hmem
      cases hunique n _ _ (.here n) (.down hl hway)
    · obtain ⟨way, hway⟩ := hright.mem_nodes_iff.mp hmem
      cases hunique n _ _ (.here n) (.down hr hway)
    · obtain ⟨way, hway⟩ := hleft.mem_nodes_iff.mp hmem
      obtain ⟨way', hway'⟩ := hright.mem_nodes_iff.mp hmem'
      cases hunique node _ _ (.down hl hway) (.down hr hway')

theorem Fits.waysUnique (h : t.Fits s) (hnodup : s.nodes.Nodup) : t.WaysUnique s.top := by
  induction s with
  | leaf n =>
    intro node way way' hway hway'
    rw [hway.of_isLeaf h, hway'.of_isLeaf h]
  | split n left right ihl ihr =>
    obtain ⟨hl, hr, hleft, hright⟩ := h
    rw [Skeleton.nodes, List.nodup_cons, List.mem_append, not_or, List.nodup_append] at hnodup
    obtain ⟨⟨hnl, hnr⟩, hnodupl, hnodupr, hdisjoint⟩ := hnodup
    have hbelow : ∀ {side : Side} {way : List Side}, ¬ t.Leads n (side :: way) n := by
      rintro (_ | _) way hway
      · exact hnl (hleft.mem_nodes_iff.mpr ⟨way, hway.of_cons hl⟩)
      · exact hnr (hright.mem_nodes_iff.mpr ⟨way, hway.of_cons hr⟩)
    have happart : ∀ {node : Nat} {way way' : List Side}, t.Leads n (.left :: way) node →
        ¬ t.Leads n (.right :: way') node := fun hway hway' =>
      hdisjoint _ (hleft.mem_nodes_iff.mpr ⟨_, hway.of_cons hl⟩) _
        (hright.mem_nodes_iff.mpr ⟨_, hway'.of_cons hr⟩) rfl
    -- Two ways to one node stop here both, or go on to the same side.
    rintro node (_ | ⟨_ | _, way⟩) (_ | ⟨_ | _, way'⟩) hway hway'
    · rfl
    · cases hway
      exact absurd hway' hbelow
    · cases hway
      exact absurd hway' hbelow
    · cases hway'
      exact absurd hway hbelow
    · rw [ihl hleft hnodupl node way way' (hway.of_cons hl) (hway'.of_cons hl)]
    · exact absurd hway' (happart hway)
    · cases hway'
      exact absurd hway hbelow
    · exact absurd hway (happart hway')
    · rw [ihr hright hnodupr node way way' (hway.of_cons hr) (hway'.of_cons hr)]

theorem IsTree.waysUnique (ht : t.IsTree) : t.WaysUnique 0 := fun _ _ _ hway hway' =>
  (ht.once _ (hway.lt ht.rooted)).unique hway hway'

/-- Below every node that is met there is a skeleton: the levels left bound the way still to go. -/
theorem IsTree.exists_fits (ht : t.IsTree) (levels : Nat) : ∀ {node : Nat} {way : List Side},
    t.Leads 0 way node → t.size ≤ way.length + levels →
      ∃ s : Skeleton, s.top = node ∧ t.Fits s := by
  induction levels with
  | zero =>
    intro node way hway hlevels
    have hlt := ht.length_lt hway
    omega
  | succ levels ih =>
    intro node way hway hlevels
    by_cases hleaf : t.IsLeaf node
    · exact ⟨.leaf node, rfl, hleaf⟩
    · have hnode : node < t.size := hway.lt ht.rooted
      have hbelow : ∀ side, ∃ s : Skeleton, t.Child side node s.top ∧ t.Fits s := by
        intro side
        obtain ⟨child, hchild⟩ := ht.children node hnode hleaf side
        have hlength : t.size ≤ (way ++ [side]).length + levels := by
          rw [List.length_append, List.length_singleton]
          omega
        obtain ⟨s, rfl, hs⟩ := ih (hway.concat hchild) hlength
        exact ⟨s, hchild, hs⟩
      obtain ⟨left, hl, hleft⟩ := hbelow .left
      obtain ⟨right, hr, hright⟩ := hbelow .right
      exact ⟨.split node left right, rfl, hl, hr, hleft, hright⟩

/-- A skeleton with every node of the arrays in it, each once. -/
structure Outlines (t : ArrayTree) (s : Skeleton) : Prop where
  fits : t.Fits s
  top : s.top = 0
  nodes : s.nodes.Perm (List.range t.size)

/-- **Aligned arrays describe a tree exactly if there is a skeleton of them.** -/
theorem isTree_iff_exists_skeleton : t.IsTree ↔ t.Aligned ∧ ∃ s, t.Outlines s := by
  constructor
  · intro ht
    obtain ⟨s, htop, hs⟩ := ht.exists_fits t.size (.here 0) (Nat.le_add_left _ _)
    have hnodup : s.nodes.Nodup := hs.nodup_nodes (htop ▸ ht.waysUnique)
    refine ⟨ht.aligned, s, hs, htop,
      (List.perm_ext_iff_of_nodup hnodup List.nodup_range).mpr fun node => ?_⟩
    rw [hs.mem_nodes_iff, htop, List.mem_range]
    exact ⟨fun ⟨_, hway⟩ => hway.lt ht.rooted, fun hlt => (ht.once node hlt).exists⟩
  · rintro ⟨haligned, s, hs, htop, hnodes⟩
    have hmem : ∀ {node : Nat}, node ∈ s.nodes ↔ node < t.size :=
      hnodes.mem_iff.trans List.mem_range
    have hunique : t.WaysUnique 0 := htop ▸ hs.waysUnique (hnodes.nodup_iff.mpr List.nodup_range)
    have hway : ∀ node < t.size, ∃ way, t.Leads 0 way node := fun node hlt =>
      htop ▸ hs.mem_nodes_iff.mp (hmem.mpr hlt)
    refine ⟨haligned, hmem.mp (hs.mem_nodes_iff.mpr ⟨[], htop ▸ .here _⟩),
      fun node hlt hinner => hs.exists_child (hmem.mpr hlt) hinner, fun node hlt => ?_⟩
    obtain ⟨way, h⟩ := hway node hlt
    exact ⟨way, h, fun way' h' => hunique node way' way h' h⟩

/-! ### Leaves and levels -/

/-- The leaves of a skeleton stand from left to right. -/
theorem Fits.pairwise_leftOf (h : t.Fits s) : s.leaves.Pairwise (t.LeftOf s.top) := by
  induction s with
  | leaf n => exact List.pairwise_singleton _ n
  | split n left right ihl ihr =>
    obtain ⟨hl, hr, hleft, hright⟩ := h
    refine List.pairwise_append.mpr ⟨(ihl hleft).imp (.under hl), (ihr hright).imp (.under hr),
      fun a ha b hb => ?_⟩
    obtain ⟨toLeft, ha⟩ := hleft.mem_nodes_iff.mp (left.leaves_sublist_nodes.subset ha)
    obtain ⟨toRight, hb⟩ := hright.mem_nodes_iff.mp (right.leaves_sublist_nodes.subset hb)
    exact ⟨[], toLeft, toRight, .down hl ha, .down hr hb⟩

/-- The lengths of the ways from a node down to a leaf. -/
def depths (t : ArrayTree) (start : Nat) : Set Nat :=
  {n | ∃ way leaf, t.Leads start way leaf ∧ t.IsLeaf leaf ∧ way.length = n}

/-- The height of a skeleton is the length of the longest way down. -/
theorem Fits.isGreatest_height (h : t.Fits s) : IsGreatest (t.depths s.top) s.height := by
  induction s with
  | leaf n =>
    refine ⟨⟨[], n, .here n, h, rfl⟩, ?_⟩
    rintro _ ⟨way, leaf, hway, -, rfl⟩
    rw [hway.of_isLeaf h]
    exact Nat.le_refl 0
  | split n left right ihl ihr =>
    obtain ⟨hl, hr, hleft, hright⟩ := h
    obtain ⟨⟨wayl, leafl, hwayl, hleafl, hlengthl⟩, hupperl⟩ := ihl hleft
    obtain ⟨⟨wayr, leafr, hwayr, hleafr, hlengthr⟩, hupperr⟩ := ihr hright
    constructor
    · rw [Skeleton.height]
      rcases le_total left.height right.height with hle | hle
      · rw [max_eq_right hle, ← hlengthr]
        exact ⟨_, leafr, .down hr hwayr, hleafr, rfl⟩
      · rw [max_eq_left hle, ← hlengthl]
        exact ⟨_, leafl, .down hl hwayl, hleafl, rfl⟩
    · rintro _ ⟨_ | ⟨_ | _, way⟩, leaf, hway, hleaf, rfl⟩
      · exact Nat.zero_le _
      · have hle := hupperl ⟨way, leaf, hway.of_cons hl, hleaf, rfl⟩
        exact Nat.succ_le_succ (hle.trans (le_max_left _ _))
      · have hle := hupperr ⟨way, leaf, hway.of_cons hr, hleaf, rfl⟩
        exact Nat.succ_le_succ (hle.trans (le_max_right _ _))

end ArrayTree

end Rulebook
