import Rulebook.ArrayTree
import Rulebook.Proofs.CellCheck
import Rulebook.Proofs.IfElseChain
import Rulebook.Proofs.PlaceOrder

/-!
# Array trees — the converted model walks the arrays

A tree given by arrays answers a row by a walk: from the first node on, to the left child where the
row's value of the node's feature is a number that is at most the threshold, and to the right child
otherwise, down to a leaf.

* `ArrayTree.Sound`: every node is a leaf or splits in two later nodes, and every row of values can
  be chosen from.
* `ArrayTree.Walk`, `ArrayTree.Predicts`: the walk of a row, and what the leaf at its end says;
  there is no more than one prediction (`Predicts.unique`).
* `ArrayTree.Grown`: the model of a node, as a relation.  `Sound.exists_build` converts every node,
  by induction on the levels that are left; `Grown.apply` follows the walk, by induction on the
  model.
* `Estimator.answers_as_arrays`: the converted tree passes on the prediction, the converted forest
  lets the predictions vote.
-/

namespace Rulebook

namespace ArrayTree

variable {t : ArrayTree} {names : List String} {labels : Option (List Value)}
  {row : Row}

/-! ### Nodes -/

/-- The number of nodes. -/
def size (t : ArrayTree) : Nat := t.left.length

/-- The children of a leaf are equal. -/
def IsLeaf (t : ArrayTree) (node : Nat) : Prop :=
  ∃ child, t.left[node]? = some child ∧ t.right[node]? = some child

/-- A node that compares a feature with a threshold and has two children. -/
structure Splits (t : ArrayTree) (names : List String) (node : Nat) (name : String)
    (threshold : Binary64) (left right : Nat) : Prop where
  left_eq : t.left[node]? = some (left : Int)
  right_eq : t.right[node]? = some (right : Int)
  apart : left ≠ right
  feature_eq : ∃ k : Nat, t.feature[node]? = some (k : Int) ∧ names[k]? = some name
  threshold_eq : t.threshold[node]? = some threshold

/-- Arrays that describe a tree over named features. -/
structure Sound (t : ArrayTree) (names : List String) (labels : Option (List Value)) : Prop where
  rooted : 0 < t.size
  value : t.value.length = t.size
  samples : t.samples.length = t.size
  nodes : ∀ node < t.size, t.IsLeaf node ∨ ∃ name threshold left right,
    t.Splits names node name threshold left right ∧
      node < left ∧ left < t.size ∧ node < right ∧ right < t.size
  named : ∀ name ∈ names, name ≠ ""
  inhabited : ∀ values ∈ t.value, values ≠ []
  numbers : ∀ values ∈ t.value, ∀ x ∈ values, x ≠ .nan
  labelled : ∀ ls, labels = some ls → ∀ values ∈ t.value, values.length ≤ ls.length

/-! ### Walks -/

/-- A row's value is a number that is at most the threshold. -/
def GoesLeft (row : Row) (name : String) (threshold : Binary64) : Prop :=
  ∃ x, row.find? name = some (.real x) ∧ x ≤ threshold

/-- The way of a row from a node down to a leaf. -/
inductive Walk (t : ArrayTree) (names : List String) (row : Row) : Nat → Nat → Prop
  | stop {node : Nat} (h : t.IsLeaf node) : Walk t names row node node
  | left {node name threshold left right leaf} (h : t.Splits names node name threshold left right)
    (hrow : GoesLeft row name threshold) (rest : Walk t names row left leaf) :
    Walk t names row node leaf
  | right {node name threshold left right leaf} (h : t.Splits names node name threshold left right)
    (hrow : ¬ GoesLeft row name threshold) (rest : Walk t names row right leaf) :
    Walk t names row node leaf

/-- The first of the greatest values. -/
structure FirstMaximum (values : List Binary64) (k : Nat) (x : Binary64) : Prop where
  at_position : values[k]? = some x
  greatest : ∀ y ∈ values, y ≤ x
  first : ∀ y ∈ values.take k, y < x

/-- What a leaf says: its first value, or the label at the first of its greatest values. -/
def Chooses (labels : Option (List Value)) (values : List Binary64) (v : Value) : Prop :=
  match labels with
  | none => ∃ x, values[0]? = some x ∧ v = .real x
  | some labels => ∃ k x, FirstMaximum values k x ∧ labels[k]? = some v

/-- What the arrays say about a row. -/
def Predicts (t : ArrayTree) (names : List String) (labels : Option (List Value)) (row : Row)
    (v : Value) : Prop :=
  ∃ leaf values, t.Walk names row 0 leaf ∧ t.value[leaf]? = some values ∧ Chooses labels values v

/-! ### The first maximum -/

theorem FirstMaximum.le_position {values : List Binary64} {k k' : Nat} {x x' : Binary64}
    (h : FirstMaximum values k x) (h' : FirstMaximum values k' x') : k ≤ k' := by
  by_contra hlt
  have hmem : x' ∈ values.take k :=
    List.mem_of_getElem? ((List.getElem?_take_of_lt (not_le.mp hlt)).trans h'.at_position)
  exact Binary64.not_lt_of_le (h'.greatest x (List.mem_of_getElem? h.at_position))
    (h.first x' hmem)

theorem FirstMaximum.unique {values : List Binary64} {k k' : Nat} {x x' : Binary64}
    (h : FirstMaximum values k x) (h' : FirstMaximum values k' x') : k = k' :=
  le_antisymm (h.le_position h') (h'.le_position h)

theorem firstMaximum_singleton {x : Binary64} (hx : x ≠ .nan) : FirstMaximum [x] 0 x where
  at_position := rfl
  greatest := by
    rintro y hy
    rw [List.mem_singleton.mp hy]
    exact Binary64.le_refl_of_ne_nan hx
  first := by simp

/-- A greater value is the first maximum of what has been seen. -/
theorem FirstMaximum.snoc_lt {seen : List Binary64} {k : Nat} {best x : Binary64}
    (h : FirstMaximum seen k best) (hx : x ≠ .nan) (hlt : best < x) :
    FirstMaximum (seen ++ [x]) seen.length x where
  at_position := by simp
  greatest y hy := by
    rcases List.mem_append.mp hy with hseen | hlast
    · exact Binary64.le_trans (h.greatest y hseen) (Binary64.le_of_lt hlt)
    · rw [List.mem_singleton.mp hlast]
      exact Binary64.le_refl_of_ne_nan hx
  first y hy := by
    rw [List.take_left' rfl] at hy
    exact Binary64.lt_of_le_of_lt (h.greatest y hy) hlt

/-- A value that is not greater leaves the first maximum where it is. -/
theorem FirstMaximum.snoc_le {seen : List Binary64} {k : Nat} {best x : Binary64}
    (h : FirstMaximum seen k best) (hle : x ≤ best) : FirstMaximum (seen ++ [x]) k best := by
  have hk : k < seen.length := (List.getElem?_eq_some_iff.mp h.at_position).1
  refine ⟨?_, ?_, ?_⟩
  · rw [List.getElem?_append_left hk]
    exact h.at_position
  · rintro y hy
    rcases List.mem_append.mp hy with hseen | hlast
    · exact h.greatest y hseen
    · rwa [List.mem_singleton.mp hlast]
  · rw [List.take_append_of_le_length hk.le]
    exact h.first

theorem replaces_iff {best x : Binary64} (hbest : best ≠ .nan) (hx : x ≠ .nan) :
    (!best.isNaN && (x.isNaN || best.compare? x == some .lt)) = true ↔ best < x := by
  have hnan : ∀ {y : Binary64}, y ≠ .nan → y.isNaN = false := by
    intro y hy
    cases y <;> first | rfl | exact absurd rfl hy
  simp only [hnan hbest, hnan hx, Bool.not_false, Bool.true_and, Bool.false_or, beq_iff_eq]
  rfl

/-- The search keeps the first maximum of what it has seen. -/
theorem firstMaximum_argmaxFrom {rest : List Binary64} : ∀ {seen : List Binary64} {k : Nat}
    {best : Binary64}, FirstMaximum seen k best → (∀ x ∈ rest, x ≠ .nan) → best ≠ .nan →
    ∃ x, FirstMaximum (seen ++ rest) (argmaxFrom best k seen.length rest) x := by
  induction rest with
  | nil =>
    intro seen k best h _ _
    exact ⟨best, by simpa [argmaxFrom] using h⟩
  | cons x rest ih =>
    intro seen k best h hrest hbest
    -- The search moves its next value over to what has been seen.
    obtain ⟨hx, hrest⟩ := List.forall_mem_cons.mp hrest
    have hsplit : seen ++ x :: rest = (seen ++ [x]) ++ rest := by simp
    have hlength : seen.length + 1 = (seen ++ [x]).length := by simp
    rw [argmaxFrom, hsplit, hlength]
    split
    next hlt => exact ih (h.snoc_lt hx ((replaces_iff hbest hx).mp hlt)) hrest hx
    next hnot =>
      have hle := Binary64.le_of_not_lt hbest hx fun hlt => hnot ((replaces_iff hbest hx).mpr hlt)
      exact ih (h.snoc_le hle) hrest hbest

theorem exists_argmax? {values : List Binary64} (hvalues : values ≠ [])
    (hnumbers : ∀ x ∈ values, x ≠ .nan) :
    ∃ k x, argmax? values = some k ∧ FirstMaximum values k x := by
  cases values with
  | nil => exact absurd rfl hvalues
  | cons x xs =>
    obtain ⟨hx, hxs⟩ := List.forall_mem_cons.mp hnumbers
    obtain ⟨y, hy⟩ := firstMaximum_argmaxFrom (firstMaximum_singleton hx) hxs hx
    exact ⟨_, y, rfl, hy⟩

/-! ### One prediction -/

theorem Chooses.unique {values : List Binary64} {v w : Value} (hv : Chooses labels values v)
    (hw : Chooses labels values w) : v = w := by
  cases labels with
  | none =>
    obtain ⟨x, hx, rfl⟩ := hv
    obtain ⟨y, hy, rfl⟩ := hw
    rw [Option.some.inj (hx.symm.trans hy)]
  | some ls =>
    obtain ⟨k, x, hk, hv⟩ := hv
    obtain ⟨k', y, hk', hw⟩ := hw
    rw [← hk.unique hk'] at hw
    exact Option.some.inj (hv.symm.trans hw)

theorem Splits.not_isLeaf {node left right : Nat} {name : String} {threshold : Binary64}
    (h : t.Splits names node name threshold left right) : ¬ t.IsLeaf node := by
  rintro ⟨child, hleft, hright⟩
  have hl : (left : Int) = child := Option.some.inj (h.left_eq.symm.trans hleft)
  have hr : (right : Int) = child := Option.some.inj (h.right_eq.symm.trans hright)
  exact h.apart (Int.ofNat_inj.mp (hl.trans hr.symm))

/-- A node splits in one way. -/
theorem Splits.unique {node l r l' r' : Nat} {name name' : String} {x x' : Binary64}
    (h : t.Splits names node name x l r) (h' : t.Splits names node name' x' l' r') :
    name = name' ∧ x = x' ∧ l = l' ∧ r = r' := by
  obtain ⟨k, hk, hname⟩ := h.feature_eq
  obtain ⟨k', hk', hname'⟩ := h'.feature_eq
  obtain rfl : k = k' := Int.ofNat_inj.mp (Option.some.inj (hk.symm.trans hk'))
  exact ⟨Option.some.inj (hname.symm.trans hname'),
    Option.some.inj (h.threshold_eq.symm.trans h'.threshold_eq),
    Int.ofNat_inj.mp (Option.some.inj (h.left_eq.symm.trans h'.left_eq)),
    Int.ofNat_inj.mp (Option.some.inj (h.right_eq.symm.trans h'.right_eq))⟩

theorem Walk.unique {node leaf leaf' : Nat} (h : t.Walk names row node leaf)
    (h' : t.Walk names row node leaf') : leaf = leaf' := by
  -- A node is a leaf or splits in one way, and the row goes one way there.
  induction h with
  | stop hleaf =>
    cases h' with
    | stop _ => rfl
    | left h => exact absurd hleaf h.not_isLeaf
    | right h => exact absurd hleaf h.not_isLeaf
  | left hsplit hrow _ ih =>
    cases h' with
    | stop hleaf => exact absurd hleaf hsplit.not_isLeaf
    | left h _ rest =>
      obtain ⟨-, -, rfl, -⟩ := hsplit.unique h
      exact ih rest
    | right h hnot =>
      obtain ⟨rfl, rfl, -, -⟩ := hsplit.unique h
      exact absurd hrow hnot
  | right hsplit hnot _ ih =>
    cases h' with
    | stop hleaf => exact absurd hleaf hsplit.not_isLeaf
    | left h hrow =>
      obtain ⟨rfl, rfl, -, -⟩ := hsplit.unique h
      exact absurd hrow hnot
    | right h _ rest =>
      obtain ⟨-, -, -, rfl⟩ := hsplit.unique h
      exact ih rest

/-- **The arrays say one thing about a row.** -/
theorem Predicts.unique {v w : Value} (hv : t.Predicts names labels row v)
    (hw : t.Predicts names labels row w) : v = w := by
  obtain ⟨leaf, values, hwalk, hvalues, hv⟩ := hv
  obtain ⟨leaf', values', hwalk', hvalues', hw⟩ := hw
  obtain rfl := hwalk.unique hwalk'
  obtain rfl : values = values' := Option.some.inj (hvalues.symm.trans hvalues')
  exact hv.unique hw

/-! ### Conversion -/

/-- The model of a node: a constant at a leaf, a branch on the comparison above it. -/
inductive Grown (t : ArrayTree) (names : List String) (labels : Option (List Value)) :
    Nat → Model → Prop
  | leaf {node : Nat} {values : List Binary64} {v : Value} (info : Info) (h : t.IsLeaf node)
    (hvalues : t.value[node]? = some values) (hv : Chooses labels values v) :
    Grown t names labels node (.constant info v)
  | split {node left right : Nat} {name : String} {threshold : Binary64} {positive negative : Model}
    (h : t.Splits names node name threshold left right)
    (hleft : Grown t names labels left positive) (hright : Grown t names labels right negative) :
    Grown t names labels node
      (.branch .empty (.atom ⟨name, .le, .numeric threshold⟩) positive negative)

theorem fetch_natCast {α : Type} {xs : List α} {k : Nat} {a : α} (h : xs[k]? = some a) :
    fetch xs (k : Int) = .ok a := by
  have hnot : ¬ (k : Int) < 0 := by omega
  simp [fetch, memberAt?, hnot, h]

theorem Sound.exists_leafOutcome (hs : t.Sound names labels) {values : List Binary64}
    (hmem : values ∈ t.value) :
    ∃ v, leafOutcome labels values = .ok v ∧ Chooses labels values v := by
  have hne := hs.inhabited values hmem
  cases labels with
  | none =>
    obtain ⟨x, xs, rfl⟩ := List.exists_cons_of_ne_nil hne
    exact ⟨.real x, rfl, x, rfl, rfl⟩
  | some ls =>
    obtain ⟨k, x, hk, hmax⟩ := exists_argmax? hne (hs.numbers values hmem)
    have hlt : k < ls.length :=
      (List.getElem?_eq_some_iff.mp hmax.at_position).1.trans_le (hs.labelled ls rfl values hmem)
    have hlabel : ls[k]? = some ls[k] := List.getElem?_eq_getElem hlt
    refine ⟨ls[k], ?_, k, x, hmax, hlabel⟩
    rw [leafOutcome, hk]
    exact fetch_natCast hlabel

theorem Sound.exists_leaf (hs : t.Sound names labels) {node : Nat} (hnode : node < t.size)
    (h : t.IsLeaf node) :
    ∃ m, t.leaf labels node = .ok m ∧ t.Grown names labels node m := by
  obtain ⟨values, hvalue⟩ : ∃ values, t.value[node]? = some values :=
    ⟨_, List.getElem?_eq_getElem (hs.value.symm ▸ hnode)⟩
  obtain ⟨samples, hsamples⟩ : ∃ samples, t.samples[node]? = some samples :=
    ⟨_, List.getElem?_eq_getElem (hs.samples.symm ▸ hnode)⟩
  obtain ⟨v, hv, hchooses⟩ := hs.exists_leafOutcome (List.mem_of_getElem? hvalue)
  refine ⟨.constant ⟨none, none, none, none, [("n_samples", .int samples)]⟩ v, ?_,
    .leaf _ h hvalue hchooses⟩
  rw [leaf, fetch_natCast hvalue, fetch_natCast hsamples, Except.ok_bind, Except.ok_bind, hv]
  rfl

theorem Sound.condition_eq (hs : t.Sound names labels) {node left right : Nat} {name : String}
    {threshold : Binary64} (h : t.Splits names node name threshold left right) :
    t.condition names node = .ok ⟨name, .le, .numeric threshold⟩ := by
  obtain ⟨k, hk, hname⟩ := h.feature_eq
  have hne : name ≠ "" := hs.named name (List.mem_of_getElem? hname)
  rw [condition, fetch_natCast hk, Except.ok_bind, fetch_natCast hname, Except.ok_bind,
    if_neg hne, fetch_natCast h.threshold_eq]
  rfl

/-- **Every node of sound arrays is converted**: a child is a later node, so there are fewer nodes
left than levels. -/
theorem Sound.exists_build (hs : t.Sound names labels) (depth : Nat) : ∀ {node : Nat},
    node < t.size → t.size ≤ depth + node →
      ∃ m, t.build names labels depth node = .ok m ∧ t.Grown names labels node m := by
  induction depth with
  | zero =>
    -- Without a level there is no node left either.
    intro node hnode hdepth
    omega
  | succ depth ih =>
    intro node hnode hdepth
    rcases hs.nodes node hnode with hleaf | ⟨name, threshold, l, r, hsplit, hl, hlsize, hr, hrsize⟩
    · obtain ⟨child, hleft, hright⟩ := id hleaf
      obtain ⟨m, hm, hgrown⟩ := hs.exists_leaf hnode hleaf
      refine ⟨m, ?_, hgrown⟩
      rw [build, fetch_natCast hleft, Except.ok_bind, fetch_natCast hright, Except.ok_bind,
        if_pos rfl, hm]
    · obtain ⟨positive, hp, hpositive⟩ := ih hlsize (by omega)
      obtain ⟨negative, hn, hnegative⟩ := ih hrsize (by omega)
      have hne : (l : Int) ≠ r := fun h => hsplit.apart (Int.ofNat_inj.mp h)
      refine ⟨_, ?_, .split hsplit hpositive hnegative⟩
      rw [build, fetch_natCast hsplit.left_eq, Except.ok_bind, fetch_natCast hsplit.right_eq,
        Except.ok_bind, if_neg hne, hs.condition_eq hsplit, Except.ok_bind, hp, Except.ok_bind, hn]
      rfl

theorem Sound.exists_toModel (hs : t.Sound names labels) :
    ∃ m, t.toModel names labels = .ok m ∧ t.Grown names labels 0 m :=
  hs.exists_build (t.left.length + 1) hs.rooted (by unfold size; omega)

/-! ### The converted model -/

/-- A row has a number for a variable, which may be no number, or nothing. -/
def Measures (row : Row) (name : String) : Prop :=
  row.find? name = some .missing ∨ ∃ x, row.find? name = some (.real x)

theorem holdsOf_real (name : String) (x threshold : Binary64) :
    (⟨name, .le, .numeric threshold⟩ : Condition).holdsOf (.real x) =
      .ok (decide (x ≤ threshold)) := by
  have hadmits (o : Option Ordering) : Comparison.le.admits? o = o.any (·.isLE) := by
    cases o <;> rfl
  have hle : decide (x ≤ threshold) = (x.compare? threshold).any (·.isLE) :=
    Bool.decide_eq_true
  rw [hle, ← hadmits]
  cases x <;> rfl

/-- A measured row goes left where the comparison holds of it. -/
theorem exists_check {name : String} {threshold : Binary64} (hrow : Measures row name) :
    ∃ b, (Formula.atom ⟨name, .le, .numeric threshold⟩).check row = .ok b ∧
      (b = true ↔ GoesLeft row name threshold) := by
  have hcheck : (Formula.atom ⟨name, .le, .numeric threshold⟩).check row =
      Condition.holds ⟨name, .le, .numeric threshold⟩ row := Condition.allHold_singleton _ _
  rw [hcheck, Condition.holds]
  rcases hrow with hmissing | ⟨x, hx⟩
  · refine ⟨false, by rw [hmissing]; rfl, ?_⟩
    simp [GoesLeft, hmissing]
  · refine ⟨decide (x ≤ threshold), by rw [hx]; exact holdsOf_real name x threshold, ?_⟩
    simp [GoesLeft, hx]

/-- **The model of a node answers what the walk from there finds.** -/
theorem Grown.apply {node : Nat} {m : Model} (h : t.Grown names labels node m) (defaults : Defaults)
    (hrow : ∀ name ∈ m.mentioned, Measures row name) :
    ∃ leaf values v, t.Walk names row node leaf ∧ t.value[leaf]? = some values ∧
      Chooses labels values v ∧ m.apply defaults row = pure v := by
  induction h with
  | leaf info hleaf hvalues hv => exact ⟨_, _, _, .stop hleaf, hvalues, hv, rfl⟩
  | split hsplit hleft hright ihleft ihright =>
    simp only [Model.mentioned_branch, List.mem_append, or_imp, forall_and] at hrow
    obtain ⟨⟨hname, hpositive⟩, hnegative⟩ := hrow
    obtain ⟨b, hb, hgoes⟩ := exists_check (hname _ List.mem_cons_self)
    rw [Model.apply_branch, hb]
    cases b with
    | true =>
      obtain ⟨leaf, values, v, hwalk, hrest⟩ := ihleft hpositive
      exact ⟨leaf, values, v, .left hsplit (hgoes.mp rfl) hwalk, hrest⟩
    | false =>
      obtain ⟨leaf, values, v, hwalk, hrest⟩ := ihright hnegative
      exact ⟨leaf, values, v, .right hsplit (fun h => nomatch hgoes.mpr h) hwalk, hrest⟩

/-- The model of a node mentions no variables but the features. -/
theorem Grown.mentioned_subset {node : Nat} {m : Model} (h : t.Grown names labels node m) :
    m.mentioned ⊆ names := by
  induction h with
  | leaf => exact List.nil_subset _
  | split hsplit _ _ ihleft ihright =>
    obtain ⟨k, -, hname⟩ := hsplit.feature_eq
    rw [Model.mentioned_branch, List.append_subset, List.append_subset]
    exact ⟨⟨List.cons_subset.mpr ⟨List.mem_of_getElem? hname, List.nil_subset _⟩, ihleft⟩, ihright⟩

theorem flatMap_mentioned_subset {trees : List ArrayTree} {roots : List Model}
    (h : List.Forall₂ (fun t m => t.Grown names labels 0 m) trees roots) :
    roots.flatMap Model.mentioned ⊆ names := by
  induction h with
  | nil => exact List.nil_subset _
  | cons hgrown _ ih =>
    rw [List.flatMap_cons, List.append_subset]
    exact ⟨hgrown.mentioned_subset, ih⟩

/-- The trees of a forest answer, one after the other, what their arrays say. -/
theorem exists_votes {trees : List ArrayTree} {roots : List Model}
    (h : List.Forall₂ (fun t m => t.Grown names labels 0 m) trees roots)
    (defaults : Defaults) (hrow : ∀ m ∈ roots, ∀ name ∈ m.mentioned, Measures row name) :
    ∃ votes, List.Forall₂ (fun t v => t.Predicts names labels row v) trees votes ∧
      Model.applyTrees defaults row (roots.map (⟨.empty, ·⟩)) = pure votes := by
  induction h with
  | nil => exact ⟨[], .nil, rfl⟩
  | @cons t m trees roots hgrown _ ih =>
    obtain ⟨hm, hroots⟩ := List.forall_mem_cons.mp hrow
    obtain ⟨leaf, values, v, hwalk, hvalues, hv, happly⟩ := hgrown.apply defaults hm
    obtain ⟨votes, hvotes, htrees⟩ := ih hroots
    refine ⟨v :: votes, .cons ⟨leaf, values, hwalk, hvalues, hv⟩ hvotes, ?_⟩
    change (m.apply defaults row >>= fun v => Traced.ofExcept (Info.empty.finish v) >>= fun v =>
      Model.applyTrees defaults row (roots.map (⟨.empty, ·⟩)) >>= fun vs => pure (v :: vs)) = _
    rw [happly, htrees]
    rfl

end ArrayTree

/-! ### Estimators -/

namespace Estimator

open ArrayTree

variable {e : Estimator} {given : Option (List String)} {names : List String}

theorem exists_tree (hnames : e.names given = .ok names) (info : Info) {t : ArrayTree}
    (hs : t.Sound names e.labels) :
    ∃ root, (e.tree given info t).outcome = .ok (.tree ⟨info, root⟩) ∧
      t.Grown names e.labels 0 root := by
  obtain ⟨root, hroot, hgrown⟩ := hs.exists_toModel
  refine ⟨root, ?_, hgrown⟩
  simp only [tree, Traced.outcome_bind, Traced.outcome_ofExcept, hnames, hroot, Except.ok_bind]
  rfl

theorem exists_forest (hnames : e.names given = .ok names) (info : Info) {trees : List ArrayTree}
    (hne : trees ≠ []) (hs : ∀ t ∈ trees, t.Sound names e.labels) :
    ∃ roots : List Model,
      (e.forest given info trees).outcome = .ok (.forest info (roots.map (⟨.empty, ·⟩))) ∧
        List.Forall₂ (fun t m => t.Grown names e.labels 0 m) trees roots := by
  have hself : List.Forall₂ Eq trees trees := List.forall₂_refl trees
  have hmodels : ∀ t ∈ trees, ∀ t', t = t' →
      ∃ m, t'.toModel names e.labels = .ok m ∧ t.Grown names e.labels 0 m := by
    rintro t ht _ rfl
    exact (hs t ht).exists_toModel
  obtain ⟨roots, hroots, hgrown⟩ := Except.mapM_of_forall₂ hself hmodels
  have hnonempty : roots ≠ [] := by
    rintro rfl
    exact hne (List.forall₂_nil_right_iff.mp hgrown)
  refine ⟨roots, ?_, hgrown⟩
  have hmap : ((roots.map (⟨.empty, ·⟩) : List Tree).isEmpty = true) = False := by
    simp [hnonempty]
  simp only [forest, Traced.outcome_bind, Traced.outcome_ofExcept, hnames, hroots, Except.ok_bind,
    hmap, if_false]
  rfl

/-- The converted tree passes on what its arrays say. -/
theorem exists_tree_prediction (hnames : e.names given = .ok names) (info : Info) {t : ArrayTree}
    (hs : t.Sound names e.labels) :
    ∃ root, (e.tree given info t).outcome = .ok (.tree ⟨info, root⟩) ∧ root.mentioned ⊆ names ∧
      ∀ defaults row, (∀ name ∈ root.mentioned, Measures row name) →
        ∃ v, t.Predicts names e.labels row v ∧
          Model.apply defaults row (.tree ⟨info, root⟩) = Traced.ofExcept (info.finish v) := by
  obtain ⟨root, hroot, hgrown⟩ := exists_tree hnames info hs
  refine ⟨root, hroot, hgrown.mentioned_subset, fun defaults row hrow => ?_⟩
  obtain ⟨leaf, values, v, hwalk, hvalues, hv, happly⟩ := hgrown.apply defaults hrow
  refine ⟨v, ⟨leaf, values, hwalk, hvalues, hv⟩, ?_⟩
  change (root.apply defaults row >>= fun v => Traced.ofExcept (info.finish v)) = _
  rw [happly]
  rfl

/-- The converted forest lets what the arrays of its trees say vote. -/
theorem exists_forest_vote (hnames : e.names given = .ok names) (info : Info)
    {trees : List ArrayTree} (hne : trees ≠ []) (hs : ∀ t ∈ trees, t.Sound names e.labels) :
    ∃ forest, (e.forest given info trees).outcome = .ok forest ∧ forest.mentioned ⊆ names ∧
      ∀ defaults row, (∀ name ∈ forest.mentioned, Measures row name) →
        ∃ votes, List.Forall₂ (fun t v => t.Predicts names e.labels row v) trees votes ∧
          (forest.apply defaults row = Traced.ofExcept (defaults.quiet none) >>= fun quiet =>
            bestGuess quiet votes) ∧
          ∀ asked, forest.applyQuiet defaults asked row =
            Traced.ofExcept (defaults.quiet asked) >>= fun quiet => bestGuess quiet votes := by
  obtain ⟨roots, hforest, hgrown⟩ := exists_forest hnames info hne hs
  refine ⟨_, hforest, ?_, fun defaults row hrow => ?_⟩
  · rw [Model.mentioned_forest, List.flatMap_map]
    exact flatMap_mentioned_subset hgrown
  simp only [Model.mentioned_forest, List.flatMap_map, List.mem_flatMap] at hrow
  obtain ⟨votes, hvotes, happly⟩ := exists_votes hgrown defaults
    fun m hm name hname => hrow name ⟨m, hm, hname⟩
  have hvote (asked : Option Bool) :
      (Traced.ofExcept (defaults.quiet asked) >>= fun quiet =>
        Model.applyTrees defaults row (roots.map (⟨.empty, ·⟩)) >>= fun votes =>
          bestGuess quiet votes) =
        Traced.ofExcept (defaults.quiet asked) >>= fun quiet => bestGuess quiet votes := by
    rw [happly]
    rfl
  exact ⟨votes, hvotes, hvote none, hvote⟩

/-- **Converted trees and forests answer as the arrays do.**  A tree passes on what its arrays say,
changed only if its notes carry a postprocess; a forest lets what the arrays of its trees say vote,
as quiet as the caller or else the settings want it. -/
theorem answers_as_arrays (hnames : e.names given = .ok names) (info : Info) :
    (∀ t : ArrayTree, t.Sound names e.labels →
      ∃ root, (e.tree given info t).outcome = .ok (.tree ⟨info, root⟩) ∧ root.mentioned ⊆ names ∧
        ∀ defaults row, (∀ name ∈ root.mentioned, Measures row name) →
          ∃ v, t.Predicts names e.labels row v ∧
            Model.apply defaults row (.tree ⟨info, root⟩) = Traced.ofExcept (info.finish v)) ∧
    (∀ trees : List ArrayTree, trees ≠ [] → (∀ t ∈ trees, t.Sound names e.labels) →
      ∃ forest, (e.forest given info trees).outcome = .ok forest ∧ forest.mentioned ⊆ names ∧
        ∀ defaults row, (∀ name ∈ forest.mentioned, Measures row name) →
          ∃ votes, List.Forall₂ (fun t v => t.Predicts names e.labels row v) trees votes ∧
            (forest.apply defaults row = Traced.ofExcept (defaults.quiet none) >>= fun quiet =>
              bestGuess quiet votes) ∧
            ∀ asked, forest.applyQuiet defaults asked row =
              Traced.ofExcept (defaults.quiet asked) >>= fun quiet => bestGuess quiet votes) :=
  ⟨fun _ hs => exists_tree_prediction hnames info hs,
    fun _ hne hs => exists_forest_vote hnames info hne hs⟩

/-- A classifier of one feature with two labels. -/
def ofTwoLabels : Estimator := ⟨1, 1, none, some [.text "a", .text "b"]⟩

/-- The double `0.5`. -/
def half : Binary64 := (Binary64.ofInt 1).divNat 2

/-- One comparison with a half: `a` on the left, `b` on the right. -/
def stump : ArrayTree where
  left := [1, -1, -1]
  right := [2, -1, -1]
  feature := [0, -2, -2]
  threshold := [half, .ofInt (-2), .ofInt (-2)]
  value := [[.ofInt 4, .ofInt 4], [.ofInt 3, .ofInt 3], [.ofInt 1, .ofInt 2]]
  samples := [8, 6, 3]

theorem sound_stump : stump.Sound ["x"] (some [.text "a", .text "b"]) where
  rooted := by decide
  value := rfl
  samples := rfl
  nodes node hnode := by
    have hcases : node = 0 ∨ node = 1 ∨ node = 2 := by
      change node < 3 at hnode
      omega
    rcases hcases with rfl | rfl | rfl
    · exact .inr ⟨"x", half, 1, 2, ⟨rfl, rfl, by decide, ⟨0, rfl, rfl⟩, rfl⟩,
        by decide⟩
    · exact .inl ⟨-1, rfl, rfl⟩
    · exact .inl ⟨-1, rfl, rfl⟩
  named := by decide
  inhabited := by decide
  numbers := by decide
  labelled := by
    rintro ls ⟨⟩
    decide

/-- A row whose value is no number goes to the right. -/
theorem predicts_stump : stump.Predicts ["x"] (some [.text "a", .text "b"]) [("x", .real .nan)]
    (.text "b") := by
  have hsplit : stump.Splits ["x"] 0 "x" half 1 2 :=
    ⟨rfl, rfl, by decide, ⟨0, rfl, rfl⟩, rfl⟩
  have hright : ¬ GoesLeft [("x", .real .nan)] "x" half := by
    rintro ⟨x, ⟨⟩, hle⟩
    revert hle
    decide
  refine ⟨2, _, .right hsplit hright (.stop ⟨-1, rfl, rfl⟩), rfl, 1, .ofInt 2, ⟨rfl, ?_, ?_⟩, rfl⟩
  · decide
  · decide

theorem eq_of_votes_stump {votes : List Value}
    (h : List.Forall₂ (fun t v => t.Predicts ["x"] (some [.text "a", .text "b"])
      [("x", .real .nan)] v) [stump, stump] votes) : votes = [.text "b", .text "b"] :=
  List.right_unique_forall₂' (fun _ _ _ hv hw => hv.unique hw) h
    (.cons predicts_stump (.cons predicts_stump .nil))

theorem measures_of_subset {m : Model} (h : m.mentioned ⊆ ["x"]) :
    ∀ name ∈ m.mentioned, Measures [("x", .real .nan)] name := by
  intro name hname
  rw [List.mem_singleton.mp (h hname)]
  exact .inr ⟨.nan, rfl⟩

theorem answers_as_arrays_stump :
    ofTwoLabels.names (some ["x"]) = .ok ["x"] ∧
    (∃ tree, (ofTwoLabels.tree (some ["x"]) .empty stump).outcome = .ok tree ∧
      ∀ defaults, tree.apply defaults [("x", .real .nan)] = pure (.text "b")) ∧
    ∃ forest, (ofTwoLabels.forest (some ["x"]) .empty [stump, stump]).outcome = .ok forest ∧
      ∀ defaults, forest.applyQuiet defaults (some true) [("x", .real .nan)] =
        bestGuess true [.text "b", .text "b"] := by
  have hnames : ofTwoLabels.names (some ["x"]) = .ok ["x"] := rfl
  obtain ⟨htree, hforest⟩ := answers_as_arrays hnames .empty
  obtain ⟨root, hroot, hmentioned, hanswers⟩ := htree stump sound_stump
  obtain ⟨forest, hoforest, hmentions, hvotes⟩ :=
    hforest [stump, stump] (by simp) (by simp [ofTwoLabels, sound_stump])
  refine ⟨hnames, ⟨_, hroot, fun defaults => ?_⟩, forest, hoforest, fun defaults => ?_⟩
  · obtain ⟨v, hv, happly⟩ := hanswers defaults _ (measures_of_subset hmentioned)
    rw [happly, hv.unique predicts_stump]
    rfl
  · obtain ⟨votes, hv, -, happly⟩ := hvotes defaults _ (measures_of_subset hmentions)
    rw [happly, eq_of_votes_stump hv]
    rfl

end Estimator

end Rulebook
