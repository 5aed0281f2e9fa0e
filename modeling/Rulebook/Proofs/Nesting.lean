import Rulebook.Model.Basic

/-!
# Models — induction over what is nested

A model holds other models directly, in its rules and in its trees.  `Model.nested` is the
induction with one case for each kind, in which every member of a list of rules or trees comes with
the property of what it holds.  The antecedents of a model are those of its parts, in order, and it
mentions the variables of these.
-/

namespace Rulebook.Model

/-- Induction over a model and everything nested in it. -/
@[elab_as_elim, induction_eliminator]
theorem nested {motive : Model → Prop}
    (constant : ∀ info outcome, motive (.constant info outcome))
    (rule : ∀ r : Rule, motive r.consequent → motive (.rule r))
    (branch : ∀ info antecedent positive negative, motive positive → motive negative →
      motive (.branch info antecedent positive negative))
    (decisionList : ∀ info (rules : List Rule) default, (∀ r ∈ rules, motive r.consequent) →
      motive default → motive (.decisionList info rules default))
    (tree : ∀ t : Tree, motive t.root → motive (.tree t))
    (forest : ∀ info (trees : List Tree), (∀ t ∈ trees, motive t.root) →
      motive (.forest info trees))
    (mixed : ∀ info root feasible, motive root → motive (.mixed info root feasible))
    (m : Model) : motive m :=
  @Model.rec motive (fun r => motive r.consequent) (fun rules => ∀ r ∈ rules, motive r.consequent)
    (fun t => motive t.root) (fun trees => ∀ t ∈ trees, motive t.root)
    constant rule branch decisionList tree forest mixed
    (fun _ _ _ h => h) (fun _ h => nomatch h) (fun _ _ h hs => List.forall_mem_cons.mpr ⟨h, hs⟩)
    (fun _ _ h => h) (fun _ h => nomatch h) (fun _ _ h hs => List.forall_mem_cons.mpr ⟨h, hs⟩) m

/-! ### Children -/

section Children

variable (info : Info)

theorem consequent_mem_children (r : Rule) : r.consequent ∈ children (.rule r) :=
  List.mem_cons_self

theorem positive_mem_children (f : Formula) (positive negative : Model) :
    positive ∈ children (.branch info f positive negative) :=
  List.mem_cons_self

theorem negative_mem_children (f : Formula) (positive negative : Model) :
    negative ∈ children (.branch info f positive negative) :=
  List.mem_cons_of_mem _ List.mem_cons_self

theorem rule_mem_children {rules : List Rule} {r : Rule} (hr : r ∈ rules) (default : Model) :
    .rule r ∈ children (.decisionList info rules default) :=
  List.mem_append_left _ (List.mem_map_of_mem hr)

theorem default_mem_children (rules : List Rule) (default : Model) :
    default ∈ children (.decisionList info rules default) :=
  List.mem_append_right _ List.mem_cons_self

theorem root_mem_children (t : Tree) : t.root ∈ children (.tree t) :=
  List.mem_cons_self

theorem tree_mem_children {trees : List Tree} {t : Tree} (ht : t ∈ trees) :
    .tree t ∈ children (.forest info trees) :=
  List.mem_map_of_mem ht

theorem inner_mem_children (root : Model) (feasible : List KindPattern) :
    root ∈ children (.mixed info root feasible) :=
  List.mem_cons_self

end Children

/-! ### Branches -/

section Branches

variable (info : Info) (f : Formula) (positive negative : Model)

theorem reachable_branch :
    reachable (.branch info f positive negative) =
      .branch info f positive negative :: (positive.reachable ++ negative.reachable) := rfl

/-- The leaves of a branch are those of its sides. -/
theorem leaves_branch :
    leaves (.branch info f positive negative) = positive.leaves ++ negative.leaves := by
  have hkind : ¬ (branch info f positive negative).kind = .constant := nofun
  rw [leaves, reachable_branch, List.filter_cons, if_neg (by simpa using hkind),
    List.filter_append]
  rfl

end Branches

/-! ### Antecedents -/

@[simp]
theorem antecedents_rule (r : Rule) :
    antecedents (.rule r) = r.antecedent :: r.consequent.antecedents := rfl

@[simp]
theorem antecedents_branch (info : Info) (f : Formula) (positive negative : Model) :
    antecedents (.branch info f positive negative) =
      f :: positive.antecedents ++ negative.antecedents := by
  simp only [antecedents, reachable, submodels, List.cons_append, ← List.filterMap_append]
  rfl

@[simp]
theorem antecedents_decisionList (info : Info) (rules : List Rule) (default : Model) :
    antecedents (.decisionList info rules default) =
      rules.flatMap (fun r => antecedents (.rule r)) ++ default.antecedents := by
  simp only [antecedents, reachable, submodels, ruleSubmodels_eq_flatMap,
    List.filterMap_cons_none, List.filterMap_append, List.filterMap_flatMap]

@[simp]
theorem antecedents_tree (t : Tree) : antecedents (.tree t) = t.root.antecedents := rfl

@[simp]
theorem antecedents_forest (info : Info) (trees : List Tree) :
    antecedents (.forest info trees) = trees.flatMap (fun t => t.root.antecedents) := by
  simp only [antecedents, reachable, submodels, treeSubmodels_eq_flatMap,
    List.filterMap_cons_none, List.filterMap_flatMap]

@[simp]
theorem antecedents_mixed (info : Info) (root : Model) (feasible : List KindPattern) :
    antecedents (.mixed info root feasible) = root.antecedents := rfl

/-! ### Variables -/

/-- The variables that the antecedents of a model mention. -/
def mentioned (m : Model) : List String := m.antecedents.flatMap Formula.names

@[simp]
theorem mentioned_rule (r : Rule) :
    mentioned (.rule r) = r.antecedent.names ++ r.consequent.mentioned := by
  simp [mentioned]

@[simp]
theorem mentioned_branch (info : Info) (f : Formula) (positive negative : Model) :
    mentioned (.branch info f positive negative) =
      f.names ++ positive.mentioned ++ negative.mentioned := by
  simp [mentioned]

@[simp]
theorem mentioned_decisionList (info : Info) (rules : List Rule) (default : Model) :
    mentioned (.decisionList info rules default) =
      rules.flatMap (fun r => mentioned (.rule r)) ++ default.mentioned := by
  simp [mentioned, List.flatMap_assoc]

@[simp]
theorem mentioned_tree (t : Tree) : mentioned (.tree t) = t.root.mentioned := rfl

@[simp]
theorem mentioned_forest (info : Info) (trees : List Tree) :
    mentioned (.forest info trees) = trees.flatMap (fun t => t.root.mentioned) := by
  simp [mentioned, List.flatMap_assoc]

@[simp]
theorem mentioned_mixed (info : Info) (root : Model) (feasible : List KindPattern) :
    mentioned (.mixed info root feasible) = root.mentioned := rfl

theorem flatMap_subset_iff {α β : Type} {xs : List α} {f : α → List β} {ys : List β} :
    xs.flatMap f ⊆ ys ↔ ∀ x ∈ xs, f x ⊆ ys := by
  simp only [List.subset_def, List.mem_flatMap]
  exact ⟨fun h x hx _ hy => h ⟨x, hx, hy⟩, fun h _ ⟨x, hx, hy⟩ => h x hx hy⟩

theorem mentioned_decisionList_subset {info : Info} {rules : List Rule} {default : Model}
    {names : List String} :
    mentioned (.decisionList info rules default) ⊆ names ↔
      (∀ r ∈ rules, r.antecedent.names ⊆ names ∧ r.consequent.mentioned ⊆ names) ∧
        default.mentioned ⊆ names := by
  simp only [mentioned_decisionList, mentioned_rule, List.append_subset, flatMap_subset_iff]

theorem mentioned_forest_subset {info : Info} {trees : List Tree} {names : List String} :
    mentioned (.forest info trees) ⊆ names ↔ ∀ t ∈ trees, t.root.mentioned ⊆ names := by
  rw [mentioned_forest, flatMap_subset_iff]

end Rulebook.Model
