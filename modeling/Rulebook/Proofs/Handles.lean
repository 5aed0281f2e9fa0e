import Mathlib.Data.List.Nodup
import Rulebook.Log.Sinks
import Rulebook.Proofs.Outcome

/-!
# Log — handles count references

Every call that enables the log gives out a handle, and a handle that is disabled is done with.  So
a run of such calls leaves a ledger: what each handle was given, and whether it is still kept.

* `Action`, `State.run`: enabling, disabling and telling, in any order.  The ids of new sinks are
  any that are fresh.
* `Grant`, `ledger`: the ledger of a run, from its actions alone.
* `State.Balanced`: the state says what the ledger says.  `Balanced.perform` is the step,
  `Balanced.run` the run.
* `State.run_balanced`: the ids, the sinks, their number, whether the package speaks, and what
  the sinks put out for an entry.
-/

namespace Rulebook.Log

/-! ### Actions -/

/-- What happens to the log: a sink is enabled under an id, a handle is disabled, an entry is
told. -/
inductive Action
  | enable (id : Nat) (settings : Except (List Settings.Fault) Settings)
    (level format : Option String)
  | disable (handle : Nat)
  | tell (stamp : Stamp) (entry : Entry)

/-- The id that an action gives to a new sink. -/
def Action.id? : Action → Option Nat
  | .enable id .. => some id
  | .disable _ => none
  | .tell .. => none

namespace State

/-- The state after an action, if it succeeds. -/
def perform (s : State) : Action → Except EnableFault State
  | .enable id settings level format =>
    let (s', outcome) := enable settings level format { s with nextId := id }
    outcome.map fun _ => s'
  | .disable handle => .ok (s.disable handle)
  | .tell .. => .ok s

/-- The state after some actions, if they all succeed. -/
def run (s : State) (actions : List Action) : Except EnableFault State := actions.foldlM perform s

end State

/-! ### The ledger -/

/-- What a handle was given, and whether it has not been disabled. -/
structure Grant where
  sink : Sink
  kept : Bool
  deriving DecidableEq, Repr

namespace Grant

def close (grant : Grant) : Grant := { grant with kept := false }

/-- The id that the handle still holds. -/
def held (grant : Grant) : Option Nat := if grant.kept then some grant.sink.id else none

/-- The level and the format that a call asks for; those left out are the settings'. -/
def asked (settings : Settings) (level format : Option String) : Option (Level × Format) :=
  (Level.ofName? ((State.given level).getD settings.logLevel.name)).map fun level =>
    (level, match State.given format with
      | none => settings.logFormat
      | some name => if name = Format.short.name then .short else .full)

end Grant

/-- One grant for each handle, in the order in which they were given out. -/
abbrev Ledger := List Grant

namespace Ledger

/-- The ledger after an action. -/
def enter (ledger : Ledger) : Action → Ledger
  | .enable id settings level format =>
    match settings with
    | .error _ => ledger
    | .ok settings =>
      match Grant.asked settings level format with
      | none => ledger
      | some (level, format) => ledger ++ [⟨⟨id, level, format⟩, true⟩]
  | .disable handle => ledger.modify handle Grant.close
  | .tell .. => ledger

/-- The ledger of a run. -/
protected def of (actions : List Action) : Ledger := actions.foldl enter []

/-- The sinks of the handles that have not been disabled. -/
def kept (ledger : Ledger) : List Sink := (ledger.filter (·.kept)).map (·.sink)

/-- The ids of all sinks that were ever given out. -/
def ids (ledger : Ledger) : List Nat := ledger.map (·.sink.id)

variable {front back : Ledger} {grant : Grant}

theorem kept_append (front back : Ledger) :
    Ledger.kept (front ++ back) = front.kept ++ Ledger.kept back := by
  simp [kept]

theorem kept_cons_of_kept (h : grant.kept = true) :
    Ledger.kept (grant :: back) = grant.sink :: back.kept := by
  simp [kept, h]

theorem kept_cons_close : Ledger.kept (grant.close :: back) = back.kept := by
  simp [kept, Grant.close]

theorem close_eq_self (h : grant.kept = false) : grant.close = grant := by
  simp [Grant.close, ← h]

theorem ids_kept_sublist (ledger : Ledger) : (ledger.kept.map (·.id)).Sublist ledger.ids := by
  rw [kept, List.map_map]
  exact List.filter_sublist.map _

/-- No other kept sink has the id of a grant. -/
theorem id_not_mem_kept (h : (Ledger.ids (front ++ grant :: back)).Nodup) :
    grant.sink.id ∉ front.kept.map (·.id) ∧ grant.sink.id ∉ back.kept.map (·.id) := by
  rw [ids, List.map_append, List.map_cons, List.nodup_middle, ← List.map_append,
    List.nodup_cons, List.map_append, List.mem_append, not_or] at h
  exact ⟨fun hmem => h.1.1 ((ids_kept_sublist front).subset hmem),
    fun hmem => h.1.2 ((ids_kept_sublist back).subset hmem)⟩

/-- Taking away an id that no kept sink has takes nothing away. -/
theorem filter_kept {ledger : Ledger} {id : Nat} (h : id ∉ ledger.kept.map (·.id)) :
    ledger.kept.filter (·.id ≠ id) = ledger.kept := by
  refine List.filter_eq_self.mpr fun sink hsink => ?_
  rw [decide_eq_true_eq]
  exact fun heq => h (heq ▸ List.mem_map_of_mem hsink)

/-- The grant of a handle, between those before and those after it. -/
theorem exists_split {ledger : Ledger} {handle : Nat} (h : ledger[handle]? = some grant) :
    ∃ front back, ledger = front ++ grant :: back ∧ front.length = handle := by
  obtain ⟨hlt, hget⟩ := List.getElem?_eq_some_iff.mp h
  refine ⟨ledger.take handle, ledger.drop (handle + 1), ?_, ?_⟩
  · rw [← hget, List.getElem_cons_drop, List.take_append_drop]
  · rw [List.length_take]
    omega

theorem modify_split (front : Ledger) (grant : Grant) (back : Ledger) :
    (front ++ grant :: back).modify front.length Grant.close =
      front ++ grant.close :: back := by
  induction front with
  | nil => rfl
  | cons first front ih => exact congrArg (first :: ·) ih

end Ledger

/-! ### Steps -/

namespace State

variable {s s' : State}

/-- A call that succeeds asked for a level, and its sink, its id and its handle come last. -/
theorem perform_enable_eq_ok {id : Nat} {settings : Except (List Settings.Fault) Settings}
    {level format : Option String} (ledger : Ledger)
    (h : s.perform (.enable id settings level format) = .ok s') :
    ∃ sink : Sink, sink.id = id ∧
      ledger.enter (.enable id settings level format) = ledger ++ [⟨sink, true⟩] ∧
      s' = ⟨true, s.sinks ++ [sink], id + 1, s.active ++ [id], s.handles ++ [some id]⟩ := by
  cases settings with
  | error faults => cases h
  | ok settings =>
    unfold perform enable at h
    dsimp only at h
    cases hlevel : Level.ofName? ((given level).getD settings.logLevel.name) with
    | none =>
      rw [hlevel] at h
      cases h
    | some l =>
      rw [hlevel] at h
      cases h
      refine ⟨_, ?_, ?_, rfl⟩
      · rfl
      · simp only [Ledger.enter, Grant.asked, hlevel]
        rfl

/-- The state says what the ledger says. -/
structure Balanced (ledger : Ledger) (s : State) : Prop where
  handles : s.handles = ledger.map Grant.held
  active : s.active = ledger.kept.map (·.id)
  sinks : s.sinks = ledger.kept
  speaking : s.speaking = !ledger.kept.isEmpty
  fresh : ledger.ids.Nodup

variable {ledger : Ledger}

/-- A new sink under a fresh id. -/
theorem Balanced.enable (h : Balanced ledger s) {sink : Sink} (hid : sink.id ∉ ledger.ids) :
    Balanced (ledger ++ [⟨sink, true⟩])
      ⟨true, s.sinks ++ [sink], sink.id + 1, s.active ++ [sink.id],
        s.handles ++ [some sink.id]⟩ where
  handles := by simp [h.handles, Grant.held]
  active := by simp [h.active, Ledger.kept]
  sinks := by simp [h.sinks, Ledger.kept]
  speaking := by simp [Ledger.kept]
  fresh := by
    rw [Ledger.ids, List.map_append]
    have hconcat := h.fresh.concat hid
    rwa [List.concat_eq_append] at hconcat

/-- A handle without a grant, or whose grant is closed, changes nothing. -/
theorem Balanced.disable_none (h : Balanced ledger s) {handle : Nat}
    (hnone : (s.handles[handle]?).join = none) : Balanced (ledger.modify handle Grant.close) s := by
  have heq : ledger.modify handle Grant.close = ledger := by
    cases hget : ledger[handle]? with
    | none => exact List.modify_eq_self (List.getElem?_eq_none_iff.mp hget)
    | some grant =>
      obtain ⟨front, back, rfl, rfl⟩ := Ledger.exists_split hget
      rw [Ledger.modify_split, Ledger.close_eq_self]
      rw [h.handles, List.getElem?_map, hget] at hnone
      simpa [Grant.held] using hnone
  rwa [heq]

/-- The grant of a handle that still holds an id. -/
theorem Balanced.exists_grant (h : Balanced ledger s) {handle id : Nat}
    (hsome : (s.handles[handle]?).join = some id) :
    ∃ front grant back, ledger = front ++ grant :: back ∧ front.length = handle ∧
      grant.kept = true ∧ grant.sink.id = id := by
  rw [h.handles, List.getElem?_map] at hsome
  cases hget : ledger[handle]? with
  | none => rw [hget] at hsome; cases hsome
  | some grant =>
    obtain ⟨front, back, hsplit, hlength⟩ := Ledger.exists_split hget
    have hheld : grant.held = some id := by rwa [hget] at hsome
    have hkept : grant.kept = true ∧ grant.sink.id = id := by simpa [Grant.held] using hheld
    exact ⟨front, grant, back, hsplit, hlength, hkept⟩

/-- A handle that still holds an id closes its grant and no other. -/
theorem Balanced.disable_some (h : Balanced ledger s) {handle id : Nat}
    (hsome : (s.handles[handle]?).join = some id) :
    Balanced (ledger.modify handle Grant.close)
      { s with
        speaking := s.speaking && !(s.active.erase id).isEmpty
        sinks := s.sinks.filter (·.id ≠ id)
        active := s.active.erase id
        handles := s.handles.set handle none } := by
  obtain ⟨front, grant, back, rfl, rfl, hkept, rfl⟩ := h.exists_grant hsome
  -- The id is that of one kept sink, so erasing it and filtering by it take the same one away.
  obtain ⟨hfront, hback⟩ := Ledger.id_not_mem_kept h.fresh
  have hbefore : Ledger.kept (front ++ grant :: back) =
      Ledger.kept front ++ grant.sink :: Ledger.kept back := by
    rw [Ledger.kept_append, Ledger.kept_cons_of_kept hkept]
  have hafter : Ledger.kept (front ++ grant.close :: back) =
      Ledger.kept front ++ Ledger.kept back := by
    rw [Ledger.kept_append, Ledger.kept_cons_close]
  have hactive : s.active.erase grant.sink.id =
      (Ledger.kept (front ++ grant.close :: back)).map (·.id) := by
    rw [h.active, hbefore, hafter, List.map_append, List.map_append, List.map_cons,
      List.erase_append_right _ hfront, List.erase_cons_head]
  rw [Ledger.modify_split]
  refine ⟨?_, hactive, ?_, ?_, ?_⟩
  · rw [h.handles, List.map_append, List.map_append, List.set_append_right _ _ (by simp)]
    simp [Grant.held, Grant.close]
  · rw [h.sinks, hbefore, hafter, List.filter_append, Ledger.filter_kept hfront,
      List.filter_cons_of_neg (by simp), Ledger.filter_kept hback]
  · rw [hactive, h.speaking, hbefore]
    simp
  · simpa [Ledger.ids, Grant.close] using h.fresh

/-- **One action keeps the balance**: the id of a new sink has to be fresh. -/
theorem Balanced.perform {action : Action} (h : Balanced ledger s)
    (hfresh : ∀ id, action.id? = some id → id ∉ ledger.ids) (hs : s.perform action = .ok s') :
    Balanced (ledger.enter action) s' := by
  cases action with
  | enable id settings level format =>
    obtain ⟨sink, rfl, hledger, rfl⟩ := perform_enable_eq_ok ledger hs
    rw [hledger]
    exact h.enable (hfresh _ rfl)
  | disable handle =>
    obtain rfl : s.disable handle = s' := Except.ok.inj hs
    unfold disable
    split
    next hnone => exact h.disable_none hnone
    next id hsome => exact h.disable_some hsome
  | tell stamp entry =>
    obtain rfl : s = s' := Except.ok.inj hs
    exact h

/-- The only new id in the ledger is that of the action. -/
theorem ids_enter (ledger : Ledger) {action : Action} (hs : s.perform action = .ok s') :
    Ledger.ids (ledger.enter action) = ledger.ids ++ action.id?.toList := by
  cases action with
  | enable id settings level format =>
    obtain ⟨sink, rfl, hledger, -⟩ := perform_enable_eq_ok ledger hs
    rw [hledger, Ledger.ids, List.map_append]
    rfl
  | disable handle =>
    change Ledger.ids (ledger.modify handle Grant.close) = ledger.ids ++ []
    rw [List.append_nil]
    cases hget : ledger[handle]? with
    | none => rw [List.modify_eq_self (List.getElem?_eq_none_iff.mp hget)]
    | some grant =>
      obtain ⟨front, back, rfl, rfl⟩ := Ledger.exists_split hget
      rw [Ledger.modify_split]
      simp [Ledger.ids, Grant.close]
  | tell stamp entry => exact (List.append_nil _).symm

/-- **A run keeps the balance.** -/
theorem Balanced.run {actions : List Action} : ∀ {ledger : Ledger} {s : State},
    Balanced ledger s → (ledger.ids ++ actions.filterMap Action.id?).Nodup →
    s.run actions = .ok s' → Balanced (actions.foldl Ledger.enter ledger) s' := by
  induction actions with
  | nil =>
    intro ledger s h _ hrun
    obtain rfl : s = s' := Except.ok.inj hrun
    exact h
  | cons action actions ih =>
    intro ledger s h hfresh hrun
    obtain ⟨next, hnext, hrest⟩ := Except.bind_eq_ok_iff.mp hrun
    have hcons : (action :: actions).filterMap Action.id? =
        action.id?.toList ++ actions.filterMap Action.id? := by
      cases h : action.id? <;> simp [h]
    rw [hcons, ← List.append_assoc] at hfresh
    -- The ids to come are apart from the ledger's, also once the action has added its own.
    refine ih (h.perform (fun id hid hmem => ?_) hnext) ?_ hrest
    · have hbefore := (List.nodup_append.mp hfresh).1
      exact (List.nodup_append.mp hbefore).2.2 id hmem id (by simp [hid]) rfl
    · rwa [ids_enter ledger hnext]

end State

/-! ### Lines -/

theorem isPrefixOf_iff {s t : String} : s.isPrefixOf t = true ↔ s.toList <+: t.toList :=
  String.startsWith_string_iff

/-- A module of the package has a name that begins like the package's. -/
theorem isPrefixOf_of_inPackage {module : String} (h : inPackage module = true) :
    packageName.isPrefixOf module = true := by
  rw [inPackage, Bool.or_eq_true, beq_iff_eq, isPrefixOf_iff] at h
  rw [isPrefixOf_iff]
  rcases h with rfl | hdot
  · exact List.prefix_refl _
  · refine List.IsPrefix.trans ?_ hdot
    rw [String.toList_append]
    exact List.prefix_append _ _

/-- The library's records come from modules of its package. -/
theorem inPackage_origin (record : Record) : inPackage record.origin.1 = true := by
  have hmodule : record.origin.1 = "symkit.orange" ∨ record.origin.1 = "symkit.models" ∨
      record.origin.1 = "symkit.from_sklearn" := by
    cases record <;> simp [Record.origin]
  rw [inPackage, Bool.or_eq_true, isPrefixOf_iff]
  rcases hmodule with h | h | h <;> rw [h] <;> exact .inr (by decide)

namespace State

/-- An entry of the package comes to the kept sinks that it is grave enough for, and to no other. -/
theorem Balanced.emit {ledger : Ledger} {s : State} (h : Balanced ledger s) (stamp : Stamp)
    {entry : Entry} (hentry : entry.module?.any inPackage = true) :
    s.emit stamp entry =
      (ledger.kept.filter fun sink => sink.level.severity ≤ entry.level.severity).map
        (·.write stamp entry) := by
  have hprefix : entry.module?.any packageName.isPrefixOf = true := by
    cases hmodule : entry.module? with
    | none => rw [hmodule] at hentry; cases hentry
    | some module =>
      rw [hmodule] at hentry
      exact isPrefixOf_of_inPackage hentry
  have hadmits (sink : Sink) :
      sink.admits entry = decide (sink.level.severity ≤ entry.level.severity) := by
    rw [Sink.admits]
    exact (congrArg _ hprefix).trans (Bool.and_true _)
  rw [State.emit, passes, h.speaking, hentry, h.sinks]
  cases hkept : ledger.kept with
  | nil => rfl
  | cons sink sinks => simp [hadmits]

end State

end Rulebook.Log
