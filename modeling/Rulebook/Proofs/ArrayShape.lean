import Rulebook.Proofs.Skeleton

/-!
# Array trees — the converted tree has the shape of the arrays

`Converts`: a model beside a skeleton, with a branch at each split and the constant of the node at
each leaf.  Whatever is converted from arrays that fit a skeleton stands beside it
(`Fits.converts_of_build`), and arrays whose entries can be read are converted
(`Fits.exists_build`), both by induction on the skeleton.  The size, the height and the leaves of
the model are then those of the skeleton.

`Estimator.tree_mirrors_arrays` says of the converted tree what that means for the arrays:
`ArrayTree.Mirrors`.
-/

namespace Rulebook

/-! ### Indices -/

/-- An index finds in every list of a length the member at the same position. -/
theorem memberAt?_of_range {α : Type} {xs : List α} {index : Int} {k : Nat}
    (h : memberAt? (List.range xs.length) index = some k) : memberAt? xs index = xs[k]? := by
  unfold memberAt? at h ⊢
  rw [List.length_range] at h
  dsimp only at h ⊢
  generalize (if index < 0 then index + (xs.length : Int) else index) = position at h ⊢
  by_cases hposition : position < 0
  · rw [if_pos hposition] at h
    cases h
  · rw [if_neg hposition] at h ⊢
    obtain ⟨-, rfl⟩ := List.getElem?_eq_some_iff.mp h
    rw [List.getElem_range]

namespace ArrayTree

variable {t : ArrayTree} {names : List String} {labels : Option (List Value)} {s : Skeleton}
  {index : Int} {node : Nat} {m : Model}

theorem fetch_of_node? {α : Type} {xs : List α} (hlength : xs.length = t.size)
    (h : t.node? index = some node) : fetch xs index = fetch xs (node : Int) := by
  have hindex : memberAt? xs index = xs[node]? := memberAt?_of_range (hlength ▸ h)
  have hnot : ¬ (node : Int) < 0 := by omega
  rw [fetch, fetch, hindex]
  simp [memberAt?, hnot]

theorem getElem?_of_fetch {α : Type} {xs : List α} {a : α} (h : fetch xs (node : Int) = .ok a) :
    xs[node]? = some a := by
  cases hget : xs[node]? with
  | some b =>
    rw [fetch_natCast hget] at h
    rw [Except.ok.inj h]
  | none =>
    have hnot : ¬ (node : Int) < 0 := by omega
    simp [fetch, memberAt?, hnot, hget] at h

/-- An index stands for its node. -/
theorem Aligned.build_index (ha : t.Aligned) (h : t.node? index = some node) (depth : Nat) :
    t.build names labels depth index = t.build names labels depth node := by
  cases depth with
  | zero => rfl
  | succ depth =>
    simp only [build, leaf, condition, fetch_of_node? rfl h, fetch_of_node? ha.right h,
      fetch_of_node? ha.feature h, fetch_of_node? ha.threshold h, fetch_of_node? ha.value h,
      fetch_of_node? ha.samples h]

/-! ### Beside a skeleton -/

/-- The constant of a leaf gives what the leaf's values say and notes the leaf's samples. -/
def LeafModel (t : ArrayTree) (labels : Option (List Value)) (node : Nat) (m : Model) : Prop :=
  ∃ values samples v, t.value[node]? = some values ∧ t.samples[node]? = some samples ∧
    leafOutcome labels values = .ok v ∧
    m = .constant ⟨none, none, none, none, [("n_samples", .int samples)]⟩ v

/-- A model of the shape of a skeleton. -/
inductive Converts (t : ArrayTree) (labels : Option (List Value)) : Skeleton → Model → Prop
  | leaf {node : Nat} {m : Model} (h : LeafModel t labels node m) : Converts t labels (.leaf node) m
  | split {left right : Skeleton} {positive negative : Model} (node : Nat) (f : Formula)
    (hleft : Converts t labels left positive) (hright : Converts t labels right negative) :
    Converts t labels (.split node left right) (.branch .empty f positive negative)

namespace Converts

theorem length_reachable (h : t.Converts labels s m) : m.reachable.length = s.nodes.length := by
  induction h with
  | leaf h =>
    obtain ⟨_, _, _, -, -, -, rfl⟩ := h
    rfl
  | split node f _ _ ihleft ihright =>
    rw [Model.reachable_branch, List.length_cons, List.length_append, ihleft, ihright,
      Skeleton.nodes, List.length_cons, List.length_append]

theorem height_eq (h : t.Converts labels s m) : m.height = s.height := by
  induction h with
  | leaf h =>
    obtain ⟨_, _, _, -, -, -, rfl⟩ := h
    rfl
  | split node f _ _ ihleft ihright => rw [Model.height, Skeleton.height, ihleft, ihright]

/-- The leaves of the model are the constants of the leaves of the skeleton, in their order. -/
theorem forall₂_leaves (h : t.Converts labels s m) :
    List.Forall₂ (t.LeafModel labels) s.leaves m.leaves := by
  induction h with
  | leaf h =>
    have hleaf := h
    obtain ⟨_, _, _, -, -, -, rfl⟩ := h
    exact .cons hleaf .nil
  | split node f _ _ ihleft ihright =>
    rw [Skeleton.leaves, Model.leaves_branch]
    exact List.rel_append ihleft ihright

end Converts

/-! ### Conversion -/

theorem build_of_isLeaf (h : t.IsLeaf node) (depth : Nat) :
    t.build names labels (depth + 1) node = t.leaf labels node := by
  obtain ⟨child, hleft, hright⟩ := h
  rw [build, fetch_natCast hleft, Except.ok_bind, fetch_natCast hright, Except.ok_bind, if_pos rfl]

/-- A node that is no leaf becomes a branch between the models of its children. -/
theorem Aligned.build_of_child (ha : t.Aligned) {left right : Nat} (hl : t.Child .left node left)
    (hr : t.Child .right node right) (depth : Nat) :
    t.build names labels (depth + 1) node = (do
      let c ← t.condition names node
      let positive ← t.build names labels depth left
      let negative ← t.build names labels depth right
      return .branch .empty (.atom c) positive negative) := by
  obtain ⟨l, (hleft : t.left[node]? = some l), hlnode⟩ := hl.given
  obtain ⟨r, (hright : t.right[node]? = some r), hrnode⟩ := hr.given
  have hne : l ≠ r := by
    rintro rfl
    exact hl.inner ⟨l, hleft, hright⟩
  rw [build, fetch_natCast hleft, Except.ok_bind, fetch_natCast hright, Except.ok_bind, if_neg hne]
  simp only [ha.build_index hlnode, ha.build_index hrnode]

/-- Whatever the arrays are converted to has their shape. -/
theorem Fits.converts_of_build (ha : t.Aligned) (h : t.Fits s) : ∀ {depth : Nat} {m : Model},
    t.build names labels depth s.top = .ok m → t.Converts labels s m := by
  induction s with
  | leaf node =>
    rintro (_ | depth) m hm
    · cases hm
    · rw [Skeleton.top, build_of_isLeaf h] at hm
      obtain ⟨values, hvalues, hm⟩ := Except.bind_eq_ok_iff.mp hm
      obtain ⟨samples, hsamples, hm⟩ := Except.bind_eq_ok_iff.mp hm
      obtain ⟨v, hv, hm⟩ := Except.bind_eq_ok_iff.mp hm
      cases hm
      exact .leaf ⟨values, samples, v, getElem?_of_fetch hvalues, getElem?_of_fetch hsamples, hv,
        rfl⟩
  | split node left right ihl ihr =>
    obtain ⟨hl, hr, hleft, hright⟩ := h
    rintro (_ | depth) m hm
    · cases hm
    · rw [Skeleton.top, ha.build_of_child hl hr] at hm
      obtain ⟨c, -, hm⟩ := Except.bind_eq_ok_iff.mp hm
      obtain ⟨positive, hpositive, hm⟩ := Except.bind_eq_ok_iff.mp hm
      obtain ⟨negative, hnegative, hm⟩ := Except.bind_eq_ok_iff.mp hm
      cases hm
      exact .split node (.atom c) (ihl hleft hpositive) (ihr hright hnegative)

/-- What the entries of aligned arrays have to be read with: a name for the feature of every split,
and something to choose at every leaf. -/
structure Readable (t : ArrayTree) (names : List String) (labels : Option (List Value)) : Prop where
  named : ∀ node < t.size, ¬ t.IsLeaf node →
    ∃ (k : Nat) (name : String), t.feature[node]? = some (k : Int) ∧ names[k]? = some name ∧
      name ≠ ""
  inhabited : ∀ values ∈ t.value, values ≠ []
  labelled : ∀ ls, labels = some ls → ∀ values ∈ t.value, values.length ≤ ls.length

theorem argmaxFrom_lt (best : Binary64) (xs : List Binary64) : ∀ {position next : Nat},
    position < next → argmaxFrom best position next xs < next + xs.length := by
  induction xs generalizing best with
  | nil => exact fun h => h
  | cons x xs ih =>
    intro position next h
    rw [argmaxFrom, List.length_cons, Nat.add_comm xs.length, ← Nat.add_assoc]
    split
    · exact ih x (Nat.lt_succ_self next)
    · exact ih best (Nat.lt_succ_of_lt h)

theorem Readable.exists_leafOutcome (hr : t.Readable names labels) {values : List Binary64}
    (hmem : values ∈ t.value) : ∃ v, leafOutcome labels values = .ok v := by
  obtain ⟨x, xs, rfl⟩ := List.exists_cons_of_ne_nil (hr.inhabited values hmem)
  cases labels with
  | none => exact ⟨.real x, rfl⟩
  | some ls =>
    have hlt : argmaxFrom x 0 1 xs < ls.length := by
      have hlength := hr.labelled ls rfl _ hmem
      have hposition := argmaxFrom_lt x xs Nat.one_pos
      rw [List.length_cons] at hlength
      omega
    exact ⟨ls[argmaxFrom x 0 1 xs], fetch_natCast (List.getElem?_eq_getElem hlt)⟩

theorem Readable.exists_leaf (hr : t.Readable names labels) (ha : t.Aligned)
    (hnode : node < t.size) : ∃ m, t.leaf labels node = .ok m := by
  obtain ⟨values, hvalues⟩ : ∃ values, t.value[node]? = some values :=
    ⟨_, List.getElem?_eq_getElem (ha.value.symm ▸ hnode)⟩
  obtain ⟨samples, hsamples⟩ : ∃ samples, t.samples[node]? = some samples :=
    ⟨_, List.getElem?_eq_getElem (ha.samples.symm ▸ hnode)⟩
  obtain ⟨v, hv⟩ := hr.exists_leafOutcome (List.mem_of_getElem? hvalues)
  rw [leaf, fetch_natCast hvalues, fetch_natCast hsamples, Except.ok_bind, Except.ok_bind, hv]
  exact ⟨_, rfl⟩

theorem Readable.exists_condition (hr : t.Readable names labels) (ha : t.Aligned)
    (hnode : node < t.size) (hinner : ¬ t.IsLeaf node) : ∃ c, t.condition names node = .ok c := by
  obtain ⟨k, name, hk, hname, hne⟩ := hr.named node hnode hinner
  obtain ⟨threshold, hthreshold⟩ : ∃ threshold, t.threshold[node]? = some threshold :=
    ⟨_, List.getElem?_eq_getElem (ha.threshold.symm ▸ hnode)⟩
  rw [condition, fetch_natCast hk, Except.ok_bind, fetch_natCast hname, Except.ok_bind,
    if_neg hne, fetch_natCast hthreshold]
  exact ⟨_, rfl⟩

/-- Readable arrays are converted, given a level for every level of the skeleton. -/
theorem Fits.exists_build (ha : t.Aligned) (hr : t.Readable names labels) (h : t.Fits s) :
    ∀ {depth : Nat}, s.top < t.size → s.height < depth →
      ∃ m, t.build names labels depth s.top = .ok m := by
  induction s with
  | leaf node =>
    rintro (_ | depth) hnode hdepth
    · cases hdepth
    · rw [Skeleton.top, build_of_isLeaf h]
      exact hr.exists_leaf ha hnode
  | split node left right ihl ihr =>
    obtain ⟨hl, hright, hfl, hfr⟩ := h
    rintro (_ | depth) hnode hdepth
    · cases hdepth
    · rw [Skeleton.top] at hnode ⊢
      rw [Skeleton.height] at hdepth
      obtain ⟨c, hc⟩ := hr.exists_condition ha hnode hl.inner
      have hdepthl : left.height < depth := by omega
      have hdepthr : right.height < depth := by omega
      obtain ⟨positive, hpositive⟩ := ihl hfl hl.lt hdepthl
      obtain ⟨negative, hnegative⟩ := ihr hfr hright.lt hdepthr
      rw [ha.build_of_child hl hright, hc, hpositive, hnegative]
      exact ⟨_, rfl⟩

/-! ### Samples -/

/-- As many samples reach a node as reach its two children. -/
def Balanced (t : ArrayTree) : Prop :=
  ∀ node left right a b, t.Child .left node left → t.Child .right node right →
    t.samples[left]? = some a → t.samples[right]? = some b → t.samples[node]? = some (a + b)

/-- Of balanced arrays, the samples of the leaves add up to those of the top. -/
theorem Fits.exists_counts (ha : t.Aligned) (hb : t.Balanced) (h : t.Fits s)
    (htop : s.top < t.size) :
    ∃ counts : List Int, s.leaves.map (t.samples[·]?) = counts.map some ∧
      t.samples[s.top]? = some counts.sum := by
  induction s with
  | leaf node =>
    have hnode : node < t.samples.length := ha.samples.symm ▸ htop
    obtain ⟨count, hsamples⟩ : ∃ count, t.samples[node]? = some count :=
      ⟨_, List.getElem?_eq_getElem hnode⟩
    exact ⟨[count], congrArg (fun count => [count]) hsamples,
      hsamples.trans (by rw [List.sum_singleton])⟩
  | split node left right ihl ihr =>
    obtain ⟨hl, hr, hleft, hright⟩ := h
    obtain ⟨countsl, hcountsl, hsuml⟩ := ihl hleft hl.lt
    obtain ⟨countsr, hcountsr, hsumr⟩ := ihr hright hr.lt
    refine ⟨countsl ++ countsr, ?_, ?_⟩
    · rw [Skeleton.leaves, List.map_append, List.map_append, hcountsl, hcountsr]
    · rw [Skeleton.top, List.sum_append]
      exact hb _ _ _ _ _ hl hr hsuml hsumr

end ArrayTree

/-- The number of samples that a model notes. -/
def Model.sampleCount? (m : Model) : Option Int :=
  match m.info.auxiliary.lookup "n_samples" with
  | some (.int count) => some count
  | _ => none

namespace ArrayTree

variable {t : ArrayTree} {labels : Option (List Value)} {m : Model} {s : Skeleton}

/-- The constants of leaves note the samples of these. -/
theorem map_sampleCount? {nodes : List Nat} {models : List Model}
    (h : List.Forall₂ (t.LeafModel labels) nodes models) :
    models.map Model.sampleCount? = nodes.map (t.samples[·]?) := by
  induction h with
  | nil => rfl
  | cons hleaf _ ih =>
    obtain ⟨_, samples, _, -, hsamples, -, rfl⟩ := hleaf
    rw [List.map_cons, List.map_cons, ih, hsamples]
    rfl

/-! ### The converted tree -/

/-- What the converted tree shows of the arrays, `leaves` being their leaves from left to right. -/
structure Mirrors (t : ArrayTree) (labels : Option (List Value)) (tree : Tree)
    (leaves : List Nat) : Prop where
  size : tree.size = t.size
  leafCount : tree.leafCount = leaves.length
  height : IsGreatest (t.depths 0) tree.height
  mem_leaves : ∀ node, node ∈ leaves ↔ t.IsLeaf node
  nodup : leaves.Nodup
  ordered : leaves.Pairwise (t.LeftOf 0)
  noted : List.Forall₂ (t.LeafModel labels) leaves tree.root.leaves
  total : t.Balanced → ∃ counts : List Int,
    tree.root.leaves.map Model.sampleCount? = counts.map some ∧ t.samples[0]? = some counts.sum

theorem Outlines.mirrors (ha : t.Aligned) (hs : t.Outlines s) (info : Info)
    (hm : t.Converts labels s m) : t.Mirrors labels ⟨info, m⟩ s.leaves where
  size := by
    have hlength := hm.length_reachable
    rw [hs.nodes.length_eq, List.length_range, Model.reachable, List.length_cons] at hlength
    rw [TreeOf.size, Nat.add_comm, hlength]
  leafCount := hm.forall₂_leaves.length_eq.symm
  height := by
    rw [TreeOf.height, hm.height_eq, ← hs.top]
    exact hs.fits.isGreatest_height
  mem_leaves node := by
    rw [hs.fits.mem_leaves_iff, hs.nodes.mem_iff, List.mem_range]
    exact ⟨And.right, fun hleaf => ⟨hleaf.lt, hleaf⟩⟩
  nodup := (hs.nodes.nodup_iff.mpr List.nodup_range).sublist s.leaves_sublist_nodes
  ordered := hs.top ▸ hs.fits.pairwise_leftOf
  noted := hm.forall₂_leaves
  total hb := by
    have hrooted : s.top < t.size :=
      List.mem_range.mp (hs.nodes.mem_iff.mp (hs.fits.mem_nodes_iff.mpr ⟨[], .here _⟩))
    obtain ⟨counts, hcounts, hsum⟩ := hs.fits.exists_counts ha hb hrooted
    exact ⟨counts, (map_sampleCount? hm.forall₂_leaves).trans hcounts, hs.top ▸ hsum⟩

end ArrayTree

namespace Estimator

open ArrayTree

variable {e : Estimator} {given : Option (List String)} {t : ArrayTree}

theorem outcome_tree (info : Info) :
    (e.tree given info t).outcome =
      (e.names given >>= fun names => t.toModel names e.labels).map fun root =>
        .tree ⟨info, root⟩ := by
  simp only [tree, Traced.outcome_bind, Traced.outcome_ofExcept]
  cases e.names given with
  | error f => rfl
  | ok names => cases t.toModel names e.labels <;> rfl

/-- **The converted tree has the shape of the arrays.**  Arrays that describe a tree are converted
whenever their entries can be read, and what they are converted to has as many nodes and leaves as
they have and is as high as their longest way down.  Its leaves are the constants of the arrays'
leaves from left to right, with the samples noted; where the samples of every split are those of its
children, the numbers noted add up to the samples of the first node. -/
theorem tree_mirrors_arrays (e : Estimator) (given : Option (List String)) (info : Info)
    (ht : t.IsTree) :
    (∀ names, e.names given = .ok names → t.Readable names e.labels →
      ∃ m, (e.tree given info t).outcome = .ok m) ∧
    ∀ m, (e.tree given info t).outcome = .ok m →
      ∃ root leaves, m = .tree ⟨info, root⟩ ∧ t.Mirrors e.labels ⟨info, root⟩ leaves := by
  obtain ⟨ha, s, hs⟩ := isTree_iff_exists_skeleton.mp ht
  have htop : ((s.top : Nat) : Int) = 0 := by rw [hs.top]; rfl
  refine ⟨fun names hnames hr => ?_, fun m hm => ?_⟩
  · have hheight : s.height < t.left.length + 1 := by
      have hlt := s.height_lt_length_nodes
      rw [hs.nodes.length_eq, List.length_range] at hlt
      exact Nat.lt_succ_of_lt hlt
    obtain ⟨root, hroot⟩ := hs.fits.exists_build ha hr (hs.top ▸ ht.rooted) hheight
    rw [htop] at hroot
    refine ⟨.tree ⟨info, root⟩, ?_⟩
    rw [outcome_tree, hnames, Except.ok_bind, toModel, hroot]
    rfl
  · rw [outcome_tree] at hm
    obtain ⟨root, hroot, rfl⟩ := Except.map_eq_ok_iff.mp hm
    obtain ⟨names, -, hroot⟩ := Except.bind_eq_ok_iff.mp hroot
    rw [toModel, ← htop] at hroot
    exact ⟨root, s.leaves, rfl, hs.mirrors ha info (hs.fits.converts_of_build ha hroot)⟩

/-- A split below the first node that stands behind its own children. -/
def scattered : ArrayTree where
  left := [3, -1, -1, 4, -1]
  right := [1, -1, -1, 2, -1]
  feature := [0, -2, -2, 0, -2]
  threshold := [.finite false 1 (-1), .finite true 2 0, .finite true 2 0, .finite false 0 0,
    .finite true 2 0]
  value := [[.finite false 4 0, .finite false 4 0], [.finite false 0 0, .finite false 3 0],
    [.finite false 0 0, .finite false 1 0], [.finite false 4 0, .finite false 1 0],
    [.finite false 4 0, .finite false 0 0]]
  samples := [8, 3, 1, 5, 4]

theorem isTree_scattered : scattered.IsTree := by
  have hinner : ∀ node ∈ [0, 3], ¬ scattered.IsLeaf node := by
    rintro _ (_ | ⟨_, _ | ⟨_, ⟨⟩⟩⟩) ⟨child, ⟨⟩, hright⟩ <;> cases hright
  refine isTree_iff_exists_skeleton.mpr ⟨⟨rfl, rfl, rfl, rfl, rfl⟩,
    .split 0 (.split 3 (.leaf 4) (.leaf 2)) (.leaf 1), ?_, rfl, by decide⟩
  exact ⟨⟨hinner 0 (by simp), 3, rfl, rfl⟩, ⟨hinner 0 (by simp), 1, rfl, rfl⟩,
    ⟨⟨hinner 3 (by simp), 4, rfl, rfl⟩, ⟨hinner 3 (by simp), 2, rfl, rfl⟩, ⟨-1, rfl, rfl⟩,
      ⟨-1, rfl, rfl⟩⟩, ⟨-1, rfl, rfl⟩⟩

theorem tree_mirrors_arrays_scattered :
    scattered.IsTree ∧ ofTwoLabels.names (some ["x"]) = .ok ["x"] ∧
    scattered.Readable ["x"] ofTwoLabels.labels ∧
    ∃ root leaves,
      (ofTwoLabels.tree (some ["x"]) .empty scattered).outcome = .ok (.tree ⟨.empty, root⟩) ∧
      scattered.Mirrors ofTwoLabels.labels ⟨.empty, root⟩ leaves ∧
      root.leaves.map Model.sampleCount? = [some 4, some 1, some 3] := by
  have hreadable : scattered.Readable ["x"] ofTwoLabels.labels := by
    refine ⟨fun node hnode hinner => ?_, by decide, ?_⟩
    · have hcases : node = 0 ∨ node = 1 ∨ node = 2 ∨ node = 3 ∨ node = 4 := by
        change node < 5 at hnode
        omega
      rcases hcases with rfl | rfl | rfl | rfl | rfl
      · exact ⟨0, "x", rfl, rfl, by decide⟩
      · exact absurd ⟨-1, rfl, rfl⟩ hinner
      · exact absurd ⟨-1, rfl, rfl⟩ hinner
      · exact ⟨0, "x", rfl, rfl, by decide⟩
      · exact absurd ⟨-1, rfl, rfl⟩ hinner
    · rintro ls ⟨⟩
      decide
  obtain ⟨hconverted, hmirrors⟩ :=
    tree_mirrors_arrays ofTwoLabels (some ["x"]) .empty isTree_scattered
  obtain ⟨m, hm⟩ := hconverted ["x"] rfl hreadable
  obtain ⟨root, leaves, rfl, hmirror⟩ := hmirrors m hm
  refine ⟨isTree_scattered, rfl, hreadable, root, leaves, hm, hmirror, ?_⟩
  cases hm
  rfl

end Estimator

end Rulebook
