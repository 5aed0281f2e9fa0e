import Rulebook.Model.Batch
import Rulebook.Proofs.Checking

/-!
# Data sets — slices, flags and the merge

A slice of a data set with a column holds the rows at its positions and answers a formula as the
whole set does at these positions (`rows_slice`, `check_slice`).  The positions beside true flags
and those beside false ones are two such slices; `forall₂_merge` puts what is related to the rows of
each back in the order of the rows.
-/

namespace Rulebook.Dataset

variable {d : Dataset} {f : Formula} {held : List Bool} {α β : Type}

/-! ### Rows -/

theorem slice_eq (hd : d.schema ≠ []) (positions : List Nat) :
    d.slice positions = ⟨d.schema, positions.filterMap (d.records[·]?)⟩ := by
  obtain ⟨schema, records⟩ := d
  cases schema with
  | nil => exact absurd rfl hd
  | cons column columns => rfl

theorem rows_slice (hd : d.schema ≠ []) (positions : List Nat) :
    (d.slice positions).rows = positions.filterMap (d.rows[·]?) := by
  rw [slice_eq hd]
  simp only [rows, List.map_filterMap, List.getElem?_map]

/-- What stands at all positions of a list is the list. -/
theorem filterMap_getElem?_range (as : List α) :
    (List.range as.length).filterMap (as[·]?) = as := by
  induction as with
  | nil => rfl
  | cons a as ih =>
      rw [List.length_cons, List.range_succ_eq_map, List.filterMap_cons, List.filterMap_map]
      simpa using ih

/-- The slice at all positions is the set. -/
theorem slice_range (hd : d.schema ≠ []) : d.slice (List.range d.size) = d := by
  rw [slice_eq hd, size, filterMap_getElem?_range]

theorem rows_slice_range (hd : d.schema ≠ []) : (d.slice (List.range d.size)).rows = d.rows := by
  rw [slice_range hd]

theorem size_slice (hd : d.schema ≠ []) {positions : List Nat}
    (h : ∀ p ∈ positions, p < d.size) : (d.slice positions).size = positions.length := by
  rw [← length_rows, rows_slice hd]
  induction positions with
  | nil => rfl
  | cons p positions ih =>
      rw [List.forall_mem_cons, ← length_rows] at h
      rw [List.filterMap_cons, List.getElem?_eq_getElem h.1, List.length_cons, List.length_cons,
        ih fun q hq => length_rows d ▸ h.2 q hq]

/-- A member of what stands at positions that are all there. -/
theorem getElem?_filterMap {g : Nat → Option α} :
    ∀ {positions : List Nat}, (∀ p ∈ positions, (g p).isSome) →
      ∀ q : Nat, (positions.filterMap g)[q]? = positions[q]?.bind g
  | [], _, _ => rfl
  | p :: positions, h, q => by
      rw [List.forall_mem_cons] at h
      obtain ⟨a, ha⟩ := Option.isSome_iff_exists.mp h.1
      rw [List.filterMap_cons_some ha]
      cases q with
      | zero => exact ha.symm
      | succ q => exact getElem?_filterMap h.2 q

/-- A slice of a slice is a slice of the set, at the positions that stand at the positions. -/
theorem slice_slice (hd : d.schema ≠ []) {positions : List Nat}
    (h : ∀ p ∈ positions, p < d.size) (inner : List Nat) :
    (d.slice positions).slice inner = d.slice (inner.filterMap (positions[·]?)) := by
  have hthere : ∀ p ∈ positions, (d.records[p]?).isSome := fun p hp => by
    rw [List.getElem?_eq_getElem (h p hp)]
    rfl
  rw [slice_eq (by rwa [schema_slice]), slice_eq hd, slice_eq hd, List.filterMap_filterMap]
  simp only [getElem?_filterMap hthere]

/-- What stands at some positions of two related lists is related. -/
theorem forall₂_filterMap_getElem? {R : α → β → Prop} {as : List α} {bs : List β}
    (h : List.Forall₂ R as bs) (positions : List Nat) :
    List.Forall₂ R (positions.filterMap (as[·]?)) (positions.filterMap (bs[·]?)) := by
  induction positions with
  | nil => exact .nil
  | cons p positions ih =>
      obtain ⟨hlength, hget⟩ := List.forall₂_iff_get.mp h
      by_cases hp : p < as.length
      · rw [List.filterMap_cons_some (List.getElem?_eq_getElem hp),
          List.filterMap_cons_some (List.getElem?_eq_getElem (hlength ▸ hp))]
        exact .cons (hget p hp (hlength ▸ hp)) ih
      · rw [List.filterMap_cons_none (List.getElem?_eq_none (Nat.not_lt.mp hp)),
          List.filterMap_cons_none (List.getElem?_eq_none (hlength ▸ Nat.not_lt.mp hp))]
        exact ih

/-! ### Checks -/

/-- Cells that can be compared are still so when rows are left out. -/
theorem checkCells_of_subset {c : Condition} (h : c.checkCells d = .ok ())
    {records : List d.schema.Cells} (hsub : records ⊆ d.records) :
    c.checkCells ⟨d.schema, records⟩ = .ok () := by
  unfold Condition.checkCells at h ⊢
  cases hc : c.threshold with
  | numeric x =>
      rw [hc] at h
      have hall : d.records.all (Condition.readsAsNumber c.name d.schema) = true := by
        by_contra hn
        simp [hn] at h
      have hrecords : records.all (Condition.readsAsNumber c.name d.schema) = true := by
        rw [List.all_eq_true] at hall ⊢
        intro cells hcells
        exact hall cells (hsub hcells)
      simp only [hrecords, if_true]
  | symbolic token => rwa [hc] at h

theorem filterMap_getElem?_subset (as : List α) (positions : List Nat) :
    positions.filterMap (as[·]?) ⊆ as := by
  intro a ha
  obtain ⟨p, -, hp⟩ := List.mem_filterMap.mp ha
  exact List.mem_of_getElem? hp

theorem checkCells_slice {c : Condition} (hd : d.schema ≠ []) (h : c.checkCells d = .ok ())
    (positions : List Nat) : c.checkCells (d.slice positions) = .ok () := by
  rw [slice_eq hd]
  exact checkCells_of_subset h (filterMap_getElem?_subset d.records positions)

/-- **A slice answers as the set does at its positions.** -/
theorem check_slice (hd : d.schema ≠ []) (h : d.check f = .ok held) (positions : List Nat) :
    (d.slice positions).check f = .ok (positions.filterMap (held[·]?)) := by
  by_cases hn : (d.slice positions).size = 0
  · have hnone : positions.filterMap (held[·]?) = [] := by
      rw [slice_eq hd] at hn
      rw [List.filterMap_eq_nil_iff]
      intro p hp
      have hout := List.filterMap_eq_nil_iff.mp (List.length_eq_zero_iff.mp hn) p hp
      rw [List.getElem?_eq_none_iff] at hout ⊢
      exact Nat.le_trans (Nat.le_of_eq (length_of_check h)) hout
    rw [check_of_size_eq_zero hn, hnone]
  have hs : d.size ≠ 0 := by
    intro hs
    have hrecords : d.records = [] := List.length_eq_zero_iff.mp hs
    refine hn ?_
    rw [slice_eq hd]
    simp [size, hrecords]
  have hschema : (d.slice positions).schema = d.schema := schema_slice d positions
  cases hnone : f.selectsNone d.schema with
  | false =>
      obtain ⟨hty, cs, hcs, hp, hc, rfl⟩ := (check_eq_ok_iff hs hnone).mp h
      simp only [List.getElem?_map, ← List.map_filterMap]
      have hcells := fun c h => checkCells_slice hd (hc c h) positions
      refine (check_eq_ok_iff hn (hschema ▸ hnone)).mpr ?_
      rw [slice_eq hd] at hcells ⊢
      exact ⟨hty, cs, hcs, hp, hcells, rfl⟩
  | true =>
      obtain ⟨hty, hcolumn, rfl⟩ := (check_selectsNone_eq_ok_iff hs hnone).mp h
      simp only [List.getElem?_map, ← List.map_filterMap]
      refine (check_selectsNone_eq_ok_iff hn (hschema ▸ hnone)).mpr ?_
      rw [rows_slice hd, hschema]
      exact ⟨hty, hcolumn, rfl⟩

/-! ### Flags -/

theorem flagged_subset (b : Bool) : ∀ (as : List α) (held : List Bool), flagged b as held ⊆ as
  | [], _ => by simp [flagged]
  | _ :: _, [] => by simp [flagged]
  | a :: as, c :: held => by
      rw [flagged]
      split
      · exact List.cons_subset_cons a (flagged_subset b as held)
      · exact List.subset_cons_of_subset a (flagged_subset b as held)

/-- A member beside a flag is related to the flag. -/
theorem rel_of_mem_flagged {S : α → Bool → Prop} {as : List α} (h : List.Forall₂ S as held)
    {b : Bool} {a : α} (ha : a ∈ flagged b as held) : S a b := by
  induction h with
  | nil => simp [flagged] at ha
  | @cons a' c as bs hac _ ih =>
      rw [flagged] at ha
      split at ha
      next hc =>
        rcases List.mem_cons.mp ha with rfl | ha
        · exact hc ▸ hac
        · exact ih ha
      next => exact ih ha

/-- Taking what stands at flagged positions is flagging what stands at the positions. -/
theorem flagged_filterMap {g : Nat → Option α} {b : Bool} :
    ∀ {positions : List Nat} {held : List Bool}, (∀ p ∈ positions, (g p).isSome) →
      flagged b (positions.filterMap g) held = (flagged b positions held).filterMap g
  | [], _, _ => by simp [flagged]
  | p :: positions, [], h => by
      obtain ⟨a, ha⟩ := Option.isSome_iff_exists.mp (h p List.mem_cons_self)
      simp [flagged, ha]
  | p :: positions, c :: held, h => by
      rw [List.forall_mem_cons] at h
      obtain ⟨a, ha⟩ := Option.isSome_iff_exists.mp h.1
      rw [List.filterMap_cons_some ha, flagged, flagged, flagged_filterMap h.2]
      split
      · rw [List.filterMap_cons_some ha]
      · rfl

/-- The rows at the flagged ones of some positions. -/
theorem rows_slice_flagged (hd : d.schema ≠ []) {positions : List Nat}
    (h : ∀ p ∈ positions, p < d.size) (b : Bool) (held : List Bool) :
    (d.slice (flagged b positions held)).rows = flagged b (d.slice positions).rows held := by
  rw [rows_slice hd, rows_slice hd, flagged_filterMap]
  intro p hp
  rw [List.getElem?_eq_getElem (by rw [length_rows]; exact h p hp)]
  rfl

/-! ### The merge -/

/-- What is related to the members beside true flags and to those beside false ones is, merged,
related to all of them. -/
theorem forall₂_merge {R : α → Value → Prop} {S : α → Bool → Prop} {as : List α}
    (h : List.Forall₂ S as held) :
    ∀ {positive negative : List Value}, List.Forall₂ R (flagged true as held) positive →
      List.Forall₂ R (flagged false as held) negative →
      List.Forall₂ R as (merge held positive negative) := by
  induction h with
  | nil => intro _ _ _ _; exact .nil
  | @cons a b as held _ _ ih =>
      intro positive negative hpos hneg
      cases b with
      | true =>
          obtain ⟨v, vs, hv, hvs, rfl⟩ := List.forall₂_cons_left_iff.mp hpos
          exact .cons hv (ih hvs hneg)
      | false =>
          obtain ⟨v, vs, hv, hvs, rfl⟩ := List.forall₂_cons_left_iff.mp hneg
          cases positive <;> exact .cons hv (ih hpos hvs)

/-- Where nothing is given for the false flags, what is missing has to be related to their
members. -/
theorem forall₂_merge_nil {R : α → Value → Prop} {S : α → Bool → Prop} {as : List α}
    (h : List.Forall₂ S as held) :
    ∀ {positive : List Value}, List.Forall₂ R (flagged true as held) positive →
      (∀ a ∈ flagged false as held, R a .missing) →
      List.Forall₂ R as (merge held positive []) := by
  induction h with
  | nil => intro _ _ _; exact .nil
  | @cons a b as held _ _ ih =>
      intro positive hpos hneg
      cases b with
      | true =>
          obtain ⟨v, vs, hv, hvs, rfl⟩ := List.forall₂_cons_left_iff.mp hpos
          exact .cons hv (ih hvs hneg)
      | false =>
          have hneg' := List.forall_mem_cons.mp
            (show ∀ a' ∈ a :: flagged false as held, _ from hneg)
          cases positive <;> exact .cons hneg'.1 (ih hpos hneg'.2)

end Rulebook.Dataset
