import Mathlib.Data.List.Forall2
import Mathlib.Data.List.Nodup
import Rulebook.Model.Build
import Rulebook.Proofs.Nesting
import Rulebook.Proofs.Outcome

/-!
# Models — the feasible kinds of a mixed model

A mixed model is refused exactly if a model reachable from its root is of no feasible kind.  What is
reachable is read off the children alone: in pre-order a model stands before what is below its
children, one child after the other (`Model.Preorder`).

* `firstOccurrences_eraseDups`: a list without its repetitions has its members in the order in which
  they first occur.
* `Model.preorder_iff`: `Model.reachable` is the one pre-order of a model.
* `Model.outcome_mixedOf_some`: when given kinds are refused, and what the refusal counts
  (`Model.Counts`).
* `Model.exists_violates_erase`: of the kinds that are inferred none can be spared.
* `Model.mixedOf_exact_and_minimal`: all of this for one root.
-/

namespace Rulebook

/-! ### First occurrences -/

/-- The members of a list, in the order in which they first occur in it. -/
structure FirstOccurrences {α : Type} [BEq α] (firsts all : List α) : Prop where
  mem_iff : ∀ a, a ∈ firsts ↔ a ∈ all
  /-- The order is strict, so nothing is repeated. -/
  ordered : firsts.Pairwise fun a b => all.idxOf a < all.idxOf b

section

variable {α : Type} [BEq α] [LawfulBEq α]

/-- Leaving members out does not change the order of those that are kept. -/
theorem idxOf_lt_of_filter {p : α → Bool} {xs : List α} {a b : α} (ha : p a) (hb : p b)
    (h : (xs.filter p).idxOf a < (xs.filter p).idxOf b) : xs.idxOf a < xs.idxOf b := by
  induction xs with
  | nil => cases h
  | cons x xs ih =>
      cases hx : p x with
      | true =>
          -- `x` stands first in both lists, and it may be `a` or `b`
          rw [List.filter_cons_of_pos hx, List.idxOf_cons, List.idxOf_cons] at h
          rw [List.idxOf_cons, List.idxOf_cons]
          cases hxb : x == b <;> cases hxa : x == a <;> simp only [hxa, hxb, cond] at h ⊢ <;>
            omega
      | false =>
          rw [List.filter_cons_of_neg (by simp [hx])] at h
          have hxa : x ≠ a := fun he => by simp [he, ha] at hx
          have hxb : x ≠ b := fun he => by simp [he, hb] at hx
          rw [List.idxOf_cons_ne _ hxa, List.idxOf_cons_ne _ hxb]
          exact Nat.succ_lt_succ (ih h)

/-- A member takes its repetitions with it, so the recursion is on the length. -/
theorem ordered_eraseDups :
    (xs : List α) → xs.eraseDups.Pairwise fun a b => xs.idxOf a < xs.idxOf b
  | [] => .nil
  | x :: xs => by
      rw [List.eraseDups_cons]
      refine .cons (fun b hb => ?_) ?_
      · have hne : x ≠ b := fun he => by simp [he] at hb
        rw [List.idxOf_cons_self, List.idxOf_cons_ne _ hne]
        exact Nat.succ_pos _
      · refine (ordered_eraseDups (xs.filter fun y => !y == x)).imp_of_mem fun {a b} ha hb h => ?_
        rw [List.mem_eraseDups, List.mem_filter] at ha hb
        have hxa : x ≠ a := fun he => by simp [he] at ha
        have hxb : x ≠ b := fun he => by simp [he] at hb
        rw [List.idxOf_cons_ne _ hxa, List.idxOf_cons_ne _ hxb]
        exact Nat.succ_lt_succ (idxOf_lt_of_filter ha.2 hb.2 h)
termination_by xs => xs.length
decreasing_by exact Nat.lt_succ_of_le (List.length_filter_le ..)

theorem firstOccurrences_eraseDups (xs : List α) : FirstOccurrences xs.eraseDups xs :=
  ⟨fun _ => List.mem_eraseDups, ordered_eraseDups xs⟩

omit [LawfulBEq α] in
theorem FirstOccurrences.nodup {firsts all : List α} (h : FirstOccurrences firsts all) :
    firsts.Nodup := by
  refine h.ordered.imp fun hlt he => ?_
  subst he
  exact Nat.lt_irrefl _ hlt

end

/-! ### Sorted names -/

namespace Violation

theorem pairwise_lt_sortNames {names : List String} (h : names.Nodup) :
    (sortNames names).Pairwise (· < ·) := by
  have hsorted : (sortNames names).Pairwise fun s t => !decide (t < s) := by
    refine List.pairwise_mergeSort (fun s t u hst htu => ?_) (fun s t => ?_) names
    · simp only [Bool.not_eq_true', decide_eq_false_iff_not, String.not_lt] at *
      exact String.le_trans hst htu
    · simp only [Bool.or_eq_true, Bool.not_eq_true', decide_eq_false_iff_not, String.not_lt]
      exact String.le_total s t
  have hnodup : (sortNames names).Nodup := (List.mergeSort_perm ..).nodup_iff.mpr h
  refine (hsorted.and hnodup).imp fun {s t} ⟨hle, hne⟩ => ?_
  simp only [Bool.not_eq_true', decide_eq_false_iff_not, String.not_lt] at hle
  exact String.not_le.mp fun hge => hne (String.le_antisymm hle hge)

theorem mem_violatingNames {v : Violation} {name : String} :
    name ∈ v.violatingNames ↔ ∃ kind ∈ v.violating, kind.name = name := by
  rw [violatingNames, sortNames, (List.mergeSort_perm ..).mem_iff, List.mem_eraseDups, List.mem_map]

theorem pairwise_violatingNames (v : Violation) : v.violatingNames.Pairwise (· < ·) :=
  pairwise_lt_sortNames (firstOccurrences_eraseDups _).nodup

end Violation

namespace Model

variable {info : Info} {root : Model} {feasible : List KindPattern}

/-! ### Pre-order -/

/-- The pre-order of a model: the model, and then the pre-orders of its children. -/
inductive Preorder : Model → List Model → Prop
  | node {m : Model} {below : List (List Model)} (h : List.Forall₂ Preorder m.children below) :
      Preorder m (m :: below.flatten)

theorem eq_map_of_forall₂ {α β : Type} {R : α → β → Prop} {f : α → β} {as : List α} {bs : List β}
    (h : List.Forall₂ R as bs) (hf : ∀ a ∈ as, ∀ b, R a b → b = f a) : bs = as.map f := by
  induction h with
  | nil => rfl
  | cons hR _ ih =>
      rw [List.forall_mem_cons] at hf
      rw [hf.1 _ hR, ih hf.2, List.map_cons]

theorem preorder_iff_of_children {m : Model}
    (h : ∀ c ∈ m.children, ∀ nodes, Preorder c nodes ↔ nodes = c.reachable) (nodes : List Model) :
    Preorder m nodes ↔ nodes = m.reachable := by
  rw [reachable, submodels_eq_flatMap, List.flatMap_def]
  constructor
  · rintro ⟨hbelow⟩
    rw [eq_map_of_forall₂ hbelow fun c hc nodes => (h c hc nodes).mp]
  · rintro rfl
    exact .node (List.forall₂_map_right_iff.mpr
      (List.forall₂_same.mpr fun c hc => (h c hc _).mpr rfl))

/-- **A model has one pre-order**, which lists what is reachable from it. -/
theorem preorder_iff (m : Model) : ∀ nodes, Preorder m nodes ↔ nodes = m.reachable := by
  induction m with
  | constant info outcome => exact preorder_iff_of_children (List.forall_mem_nil _)
  | rule r ih => exact preorder_iff_of_children (List.forall_mem_singleton.mpr ih)
  | branch info f positive negative ihp ihn =>
      exact preorder_iff_of_children
        (List.forall_mem_cons.mpr ⟨ihp, List.forall_mem_singleton.mpr ihn⟩)
  | decisionList info rules default ihr ihd =>
      refine preorder_iff_of_children
        (List.forall_mem_append.mpr ⟨List.forall_mem_map.mpr fun r hr => ?_,
          List.forall_mem_singleton.mpr ihd⟩)
      exact preorder_iff_of_children (List.forall_mem_singleton.mpr (ihr r hr))
  | tree t ih => exact preorder_iff_of_children (List.forall_mem_singleton.mpr ih)
  | forest info trees ih =>
      refine preorder_iff_of_children (List.forall_mem_map.mpr fun t ht => ?_)
      exact preorder_iff_of_children (List.forall_mem_singleton.mpr (ih t ht))
  | mixed info root feasible ih =>
      exact preorder_iff_of_children (List.forall_mem_singleton.mpr ih)

/-! ### Given kinds -/

/-- A model that is of none of the feasible kinds. -/
def Violates (feasible : List KindPattern) (m : Model) : Prop :=
  KindPattern.any ∉ feasible ∧ KindPattern.only m.kind ∉ feasible

instance : DecidablePred (Violates feasible) := fun _ => inferInstanceAs (Decidable (_ ∧ _))

/-- The refusal of a root for the kinds of what is reachable from it. -/
def violationOf (root : Model) (feasible : List KindPattern) : Violation :=
  ⟨feasible, (root.reachable.filter (Violates feasible ·)).map (·.kind), root.reachable.length⟩

theorem admits_iff {pattern : KindPattern} {kind : Kind} :
    pattern.admits kind ↔ pattern = .any ∨ pattern = .only kind := by
  cases pattern <;> simp [KindPattern.admits]

theorem not_any_admits (m : Model) :
    (!feasible.any (·.admits m.kind)) = decide (Violates feasible m) := by
  have hany : feasible.any (·.admits m.kind) ↔ ¬Violates feasible m := by
    simp only [List.any_eq_true, admits_iff, Violates, not_and_or, not_not, and_or_left,
      exists_or, exists_eq_right]
  rw [Bool.eq_iff_iff, Bool.not_eq_true', ← Bool.not_eq_true, hany, not_not, decide_eq_true_iff]

theorem outcome_announce (m : Model) : m.announce.outcome = .ok () := by
  cases m <;> rfl

/-- What comes of building around a root, with the kinds that are given or else inferred. -/
theorem outcome_mixedOf {given : Option (List KindPattern)}
    (h : given.getD (kindsOf root.reachable) = feasible) :
    (mixedOf info (.model root) given).outcome =
      if ∃ m ∈ root.reachable, Violates feasible m then
        .error (.infeasible (violationOf root feasible))
      else .ok (.mixed info root feasible) := by
  have hfilter : (root.reachable.filter fun m => !feasible.any (·.admits m.kind)) =
      root.reachable.filter (Violates feasible ·) :=
    List.filter_congr fun m _ => not_any_admits m
  have hempty : (root.reachable.filter (Violates feasible ·)).isEmpty ↔
      ¬∃ m ∈ root.reachable, Violates feasible m := by
    simp
  subst h
  simp only [mixedOf, Part.adopt, bind_assoc, pure_bind, Traced.outcome_bind, outcome_announce,
    Except.ok_bind, hfilter]
  split
  next hv =>
    rw [if_neg (hempty.mp hv), Traced.outcome_bind, outcome_announce]
    rfl
  next hv =>
    rw [if_pos (not_not.mp (mt hempty.mpr hv))]
    rfl

/-- What a refusal tells of the nodes that were checked. -/
structure Counts (v : Violation) (feasible : List KindPattern) (nodes : List Model) : Prop where
  given : v.feasible = feasible
  models : v.models = nodes.length
  /-- A kind is counted once for each of its occurrences. -/
  violating : v.violating.length = nodes.countP (Violates feasible ·)
  mem_names : ∀ name, name ∈ v.violatingNames ↔
    ∃ m ∈ nodes, Violates feasible m ∧ m.kind.name = name
  /-- The order is strict, so no name is repeated. -/
  ordered : v.violatingNames.Pairwise (· < ·)

theorem counts_violationOf (root : Model) (feasible : List KindPattern) :
    Counts (violationOf root feasible) feasible root.reachable where
  given := rfl
  models := rfl
  violating := by rw [violationOf, List.length_map, List.countP_eq_length_filter]
  mem_names name := by
    simp [Violation.mem_violatingNames, violationOf, and_assoc]
  ordered := Violation.pairwise_violatingNames _

/-- **A root is refused exactly if something reachable violates the given kinds.** -/
theorem outcome_mixedOf_some (info : Info) (root : Model) (feasible : List KindPattern) :
    ((mixedOf info (.model root) (some feasible)).outcome = .ok (.mixed info root feasible) ∨
      ∃ v, (mixedOf info (.model root) (some feasible)).outcome = .error (.infeasible v) ∧
        Counts v feasible root.reachable) ∧
    ((∃ v, (mixedOf info (.model root) (some feasible)).outcome = .error (.infeasible v)) ↔
      ∃ m ∈ root.reachable, Violates feasible m) := by
  rw [outcome_mixedOf (Option.getD_some ..)]
  split
  next h =>
    exact ⟨.inr ⟨_, rfl, counts_violationOf root feasible⟩, ⟨fun _ => h, fun _ => ⟨_, rfl⟩⟩⟩
  next h =>
    refine ⟨.inl rfl, ⟨fun ⟨_, hv⟩ => ?_, fun hv => absurd hv h⟩⟩
    cases hv

/-! ### Inferred kinds -/

theorem mem_kindsOf {nodes : List Model} {pattern : KindPattern} :
    pattern ∈ kindsOf nodes ↔ ∃ m ∈ nodes, .only m.kind = pattern := by
  rw [kindsOf, List.mem_eraseDups, List.mem_map]

theorem not_violates_kindsOf {nodes : List Model} {m : Model} (hm : m ∈ nodes) :
    ¬Violates (kindsOf nodes) m := fun h => h.2 (mem_kindsOf.mpr ⟨m, hm, rfl⟩)

/-- Without one of the kinds of some nodes, a node violates what is left. -/
theorem exists_violates_erase {nodes : List Model} {pattern : KindPattern}
    (h : pattern ∈ kindsOf nodes) : ∃ m ∈ nodes, Violates ((kindsOf nodes).erase pattern) m := by
  obtain ⟨m, hm, rfl⟩ := mem_kindsOf.mp h
  refine ⟨m, hm, fun hany => ?_, ?_⟩
  · obtain ⟨n, -, hn⟩ := mem_kindsOf.mp (List.mem_of_mem_erase hany)
    cases hn
  · exact (firstOccurrences_eraseDups _).nodup.not_mem_erase

/-- **The constraint of a mixed model is exact, and what is inferred is minimal.**  The models that
are checked are the root and what is nested in it, in pre-order. -/
theorem mixedOf_exact_and_minimal (info : Info) (root : Model) :
    ∃ nodes, (∀ list, Preorder root list ↔ list = nodes) ∧
      (∀ feasible,
        ((mixedOf info (.model root) (some feasible)).outcome = .ok (.mixed info root feasible) ∨
          ∃ v, (mixedOf info (.model root) (some feasible)).outcome = .error (.infeasible v) ∧
            Counts v feasible nodes) ∧
        ((∃ v, (mixedOf info (.model root) (some feasible)).outcome = .error (.infeasible v)) ↔
          ∃ m ∈ nodes, Violates feasible m)) ∧
      ∃ inferred,
        (mixedOf info (.model root) none).outcome = .ok (.mixed info root inferred) ∧
        FirstOccurrences inferred (nodes.map fun m => .only m.kind) ∧
        ∀ pattern ∈ inferred, ∃ v,
          (mixedOf info (.model root) (some (inferred.erase pattern))).outcome =
            .error (.infeasible v) := by
  refine ⟨root.reachable, preorder_iff root, outcome_mixedOf_some info root,
    kindsOf root.reachable, ?_, firstOccurrences_eraseDups _, fun pattern hp => ?_⟩
  · rw [outcome_mixedOf (Option.getD_none ..), if_neg]
    rintro ⟨m, hm, hv⟩
    exact not_violates_kindsOf hm hv
  · exact (outcome_mixedOf_some ..).2.mpr (exists_violates_erase hp)

end Model

end Rulebook
