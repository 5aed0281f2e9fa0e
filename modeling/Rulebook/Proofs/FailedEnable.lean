import Mathlib.Data.List.ReduceOption
import Rulebook.Proofs.Handles

/-!
# Log — enabling that fails

A call that enables the log can fail: the settings cannot be read, or there is no level of the given
name.  The level is looked up after the package has been made to speak, and nothing takes that back.

* `State.Reached`: what enabling and disabling lead to, successful or not.
* `State.Consistent`: the ids in use are those of the handles, sinks have ids in use, and the
  package speaks as long as there are any.  `Reached.consistent` is the induction over the calls.
* `State.enable_fails`: a call that fails uses up an id at most and leaves everything else as it is
  but for the speaking, and that exactly if the package spoke already or the settings cannot be read.
-/

namespace Rulebook.Log.State

/-- The states that enabling and disabling lead to.  A call that fails counts as well, and the id of
the next sink may be any. -/
inductive Reached : State → Prop
  | initial : Reached .initial
  | enable {s : State} (id : Nat) (settings : Except (List Settings.Fault) Settings)
      (level format : Option String) (h : Reached s) :
      Reached (enable settings level format { s with nextId := id }).1
  | disable {s : State} (handle : Nat) (h : Reached s) : Reached (s.disable handle)

variable {s s' : State} {settings : Except (List Settings.Fault) Settings}
  {level format : Option String} {e : EnableFault}

/-- What a call that enables the log does. -/
theorem enable_cases (settings : Except (List Settings.Fault) Settings)
    (level format : Option String) (s : State) :
    (∃ faults, enable settings level format s = (s, .error (.settings faults))) ∨
      (∃ name, enable settings level format s =
        ({ s with speaking := true, nextId := s.nextId + 1 }, .error (.unknownLevel name))) ∨
      ∃ sink : Sink, sink.id = s.nextId ∧ enable settings level format s =
        (⟨true, s.sinks ++ [sink], s.nextId + 1, s.active ++ [s.nextId],
          s.handles ++ [some s.nextId]⟩, .ok ()) := by
  cases settings with
  | error faults => exact .inl ⟨faults, rfl⟩
  | ok settings =>
    refine .inr ?_
    unfold enable
    dsimp only
    cases Level.ofName? ((given level).getD settings.logLevel.name) with
    | none => exact .inl ⟨_, rfl⟩
    | some l => exact .inr ⟨⟨s.nextId, l, _⟩, rfl, rfl⟩

/-! ### States that are reached -/

/-- The ids in use, the handles, the sinks and the speaking fit together. -/
structure Consistent (s : State) : Prop where
  held : s.active.Perm s.handles.reduceOption
  known : ∀ sink ∈ s.sinks, sink.id ∈ s.active
  speaking : s.active ≠ [] → s.speaking = true

theorem Consistent.enable (h : Consistent s) (settings : Except (List Settings.Fault) Settings)
    (level format : Option String) : Consistent (enable settings level format s).1 := by
  obtain ⟨faults, heq⟩ | ⟨name, heq⟩ | ⟨sink, hid, heq⟩ := enable_cases settings level format s
  · rwa [heq]
  · rw [heq]
    exact ⟨h.held, h.known, fun _ => rfl⟩
  · rw [heq]
    refine ⟨?_, fun sink' hsink => ?_, fun _ => rfl⟩
    · rw [List.reduceOption_append]
      exact h.held.append_right _
    · obtain hsink | hsink := List.mem_append.mp hsink
      · exact List.mem_append_left _ (h.known sink' hsink)
      · obtain rfl := List.mem_singleton.mp hsink
        exact List.mem_append_right _ (hid ▸ List.mem_cons_self)

theorem Consistent.disable (h : Consistent s) (handle : Nat) : Consistent (s.disable handle) := by
  unfold State.disable
  split
  next => exact h
  next id hid =>
    obtain ⟨hlt, hheld⟩ := List.getElem?_eq_some_iff.mp (Option.join_eq_some_iff.mp hid)
    obtain ⟨front, back, hsplit, -, hset⟩ : ∃ front back,
        s.handles = front ++ s.handles[handle] :: back ∧ front.length = handle ∧
          s.handles.set handle none = front ++ none :: back := List.exists_of_set hlt
    refine ⟨?_, fun sink hsink => ?_, fun hactive => ?_⟩
    · -- the handle's id is one of those in use, and the others are those of the other handles
      have hheld' : s.active.Perm (id :: (front ++ back).reduceOption) := by
        refine h.held.trans ?_
        rw [hsplit, hheld, List.reduceOption_append, List.reduceOption_cons_of_some,
          List.reduceOption_append]
        exact List.perm_middle
      rw [hset, List.reduceOption_append, List.reduceOption_cons_of_none,
        ← List.reduceOption_append]
      simpa using hheld'.erase id
    · obtain ⟨hsink, hne⟩ := List.mem_filter.mp hsink
      exact (List.mem_erase_of_ne (of_decide_eq_true hne)).mpr (h.known sink hsink)
    · have hsome : s.active ≠ [] := fun hnil => hactive (by rw [hnil]; rfl)
      simpa [h.speaking hsome] using hactive

theorem Reached.consistent (h : Reached s) : Consistent s := by
  induction h with
  | initial => exact ⟨.nil, List.forall_mem_nil _, fun h => absurd rfl h⟩
  | @enable s id settings level format _ ih =>
    have hid : Consistent { s with nextId := id } := ⟨ih.held, ih.known, ih.speaking⟩
    exact hid.enable settings level format
  | disable handle _ ih => exact ih.disable handle

/-- Without an id in use no handle is left to disable. -/
theorem Consistent.disable_eq_self (h : Consistent s) (hactive : s.active = []) (handle : Nat) :
    s.disable handle = s := by
  unfold State.disable
  split
  next => rfl
  next id hid =>
    have hmem : some id ∈ s.handles :=
      List.mem_of_getElem? (Option.join_eq_some_iff.mp hid)
    have huse : id ∈ s.active := h.held.mem_iff.mpr (List.reduceOption_mem_iff.mpr hmem)
    rw [hactive] at huse
    cases huse

/-- A silent log has no sinks. -/
theorem Consistent.sinks_eq_nil (h : Consistent s) (hsilent : s.speaking = false) :
    s.active = [] ∧ s.sinks = [] := by
  have hactive : s.active = [] := by
    by_contra hne
    rw [h.speaking hne] at hsilent
    cases hsilent
  refine ⟨hactive, List.eq_nil_iff_forall_not_mem.mpr fun sink hsink => ?_⟩
  have hmem := h.known sink hsink
  rw [hactive] at hmem
  cases hmem

/-! ### Calls that fail -/

theorem enable_eq_error (h : enable settings level format s = (s', .error e)) :
    (∃ faults, e = .settings faults ∧ s' = s) ∨
      ∃ name, e = .unknownLevel name ∧
        s' = { s with speaking := true, nextId := s.nextId + 1 } := by
  obtain ⟨faults, heq⟩ | ⟨name, heq⟩ | ⟨sink, -, heq⟩ := enable_cases settings level format s
  · rw [heq] at h
    cases h
    exact .inl ⟨faults, rfl, rfl⟩
  · rw [heq] at h
    cases h
    exact .inr ⟨name, rfl, rfl⟩
  · rw [heq] at h
    cases h

/-- A log that is made to speak without a new sink writes the lines that it wrote before. -/
theorem Consistent.emit_speaking (h : Consistent s) (id : Nat) (stamp : Stamp) (entry : Entry) :
    emit stamp { s with speaking := true, nextId := id } entry = s.emit stamp entry := by
  cases hspeaking : s.speaking with
  | true =>
    rw [← hspeaking]
    rfl
  | false =>
    obtain ⟨-, hsinks⟩ := h.sinks_eq_nil hspeaking
    unfold emit
    rw [hsinks]
    split <;> split <;> rfl

theorem Consistent.emitText_speaking (h : Consistent s) (id : Nat) (stamp : Stamp)
    (module : Option String) (name text : String) :
    emitText stamp { s with speaking := true, nextId := id } module name text =
      s.emitText stamp module name text := by
  unfold emitText
  cases Level.ofName? name with
  | some level => exact congrArg Except.ok (h.emit_speaking id stamp _)
  | none =>
    cases hspeaking : s.speaking with
    | true =>
      rw [← hspeaking]
      rfl
    | false => rw [(h.sinks_eq_nil hspeaking).2]; rfl

/-- Two states let the same entries through if the package speaks in both or in neither. -/
theorem passes_eq_iff :
    (∀ entry, s'.passes entry = s.passes entry) ↔ s'.speaking = s.speaking := by
  constructor
  · intro h
    have hrecord (s : State) : s.passes (.ofRecord (.treeConverted 0 0)) = s.speaking := by
      have horigin : (Entry.ofRecord (.treeConverted 0 0)).module?.any inPackage = true :=
        inPackage_origin (.treeConverted 0 0)
      rw [passes, horigin, Bool.not_true, Bool.or_false]
    rw [← hrecord, ← hrecord, h]
  · intro h entry
    rw [passes, passes, h]

/-- **What a call that fails leaves behind.**  The sinks, the ids in use and the handles are as they
were, and every entry is written as before; at most the id of the next sink is another one.  What the package tells other sinks is as before exactly
if it spoke already or the settings cannot be read; otherwise it speaks from then on, and as long as
no call succeeds there is no handle that makes it silent again. -/
theorem enable_fails (hs : Reached s) (h : enable settings level format s = (s', .error e)) :
    s' = { s with speaking := s'.speaking, nextId := s'.nextId } ∧
    (∀ stamp entry, s'.emit stamp entry = s.emit stamp entry) ∧
    (∀ stamp module name text,
      s'.emitText stamp module name text = s.emitText stamp module name text) ∧
    (s'.speaking = s.speaking ↔ s.speaking = true ∨ ∃ faults, e = .settings faults) ∧
    ((∀ entry, s'.passes entry = s.passes entry) ↔ s'.speaking = s.speaking) ∧
    (s.active = [] → ∀ handle, s'.disable handle = s') := by
  have hconsistent := hs.consistent
  obtain ⟨faults, rfl, rfl⟩ | ⟨name, rfl, rfl⟩ := enable_eq_error h
  · exact ⟨rfl, fun _ _ => rfl, fun _ _ _ _ => rfl, iff_of_true rfl (.inr ⟨faults, rfl⟩),
      passes_eq_iff, hconsistent.disable_eq_self⟩
  · have hspeaking : Consistent { s with speaking := true, nextId := s.nextId + 1 } :=
      ⟨hconsistent.held, hconsistent.known, fun _ => rfl⟩
    refine ⟨rfl, hconsistent.emit_speaking _, hconsistent.emitText_speaking _, ?_, passes_eq_iff,
      hspeaking.disable_eq_self⟩
    constructor
    · exact fun hsame => .inl hsame.symm
    · rintro (hspoke | ⟨faults, hfaults⟩)
      · exact hspoke.symm
      · cases hfaults

/-- The log after a level was asked for that does not exist. -/
def leaking : State := { initial with speaking := true, nextId := 1 }

theorem enable_eq_leaking :
    enable (.ok .default) (some "LOUD") none initial = (leaking, .error (.unknownLevel "LOUD")) :=
  rfl

theorem enable_fails_leaking :
    (∀ stamp entry, leaking.emit stamp entry = initial.emit stamp entry) ∧
      leaking.speaking ≠ initial.speaking ∧
      (¬ ∀ entry, leaking.passes entry = initial.passes entry) ∧
      ∀ handle, leaking.disable handle = leaking := by
  obtain ⟨-, hemit, -, hspeaking, hpasses, hdisable⟩ := enable_fails .initial enable_eq_leaking
  have hspoke : leaking.speaking ≠ initial.speaking := by
    rw [Ne, hspeaking]
    rintro (hspoke | ⟨faults, hfaults⟩)
    · cases hspoke
    · cases hfaults
  exact ⟨hemit, hspoke, fun h => hspoke (hpasses.mp h), hdisable rfl⟩

/-- A silent log does not stay silent when a call fails. -/
theorem not_speaking_of_enable_fails :
    ¬ ∀ (s s' : State) (settings : Except (List Settings.Fault) Settings)
      (level format : Option String) (e : EnableFault), Reached s →
      enable settings level format s = (s', .error e) →
      s'.speaking = s.speaking ∧ s'.sinks = s.sinks ∧ s'.active = s.active ∧
        ∀ entry, s'.passes entry = s.passes entry := by
  intro h
  have hspeaking := (h _ _ _ _ _ _ .initial enable_eq_leaking).1
  cases hspeaking

end Rulebook.Log.State
