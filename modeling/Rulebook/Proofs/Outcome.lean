import Mathlib.Data.List.Forall2
import Rulebook.Traced

/-!
# Outcomes — when a computation ends with a value

A chain of steps that may fail ends with a value when every step does.  `bind_eq_ok_iff`,
`forM_eq_ok_iff` and `mapM_eq_ok_iff` say this of the three ways to chain; the outcome of a traced
computation is the chain of the outcomes of its steps (`Traced.outcome_bind`,
`Traced.outcome_mapM`), so it is taken apart by the same three.

`FailsAs` says of what kind the errors of a computation are, and `EndsLike` that two computations
end alike but for what is not seen of an error; both are kept by the same chains.
-/

namespace Rulebook

variable {ε α β : Type}

/-! ### Steps that may fail -/

namespace Except

@[simp]
theorem ok_bind (a : α) (f : α → Except ε β) : (Except.ok a >>= f) = f a := rfl

@[simp]
theorem error_bind (e : ε) (f : α → Except ε β) : (Except.error e >>= f) = .error e := rfl

theorem bind_eq_ok_iff {x : Except ε α} {f : α → Except ε β} {b : β} :
    (x >>= f) = .ok b ↔ ∃ a, x = .ok a ∧ f a = .ok b := by
  cases x <;> simp [bind, Except.bind]

theorem bind_eq_error_iff {x : Except ε α} {f : α → Except ε β} {e : ε} :
    (x >>= f) = .error e ↔ x = .error e ∨ ∃ a, x = .ok a ∧ f a = .error e := by
  cases x <;> simp [bind, Except.bind]

theorem isOk_iff {x : Except ε α} : x.isOk = true ↔ ∃ a, x = .ok a := by
  cases x <;> simp [Except.isOk, Except.toBool]

theorem map_eq_ok_iff {x : Except ε α} {f : α → β} {b : β} :
    x.map f = .ok b ↔ ∃ a, x = .ok a ∧ f a = b := by
  cases x <;> simp [Except.map]

theorem map_eq_error_iff {x : Except ε α} {f : α → β} {e : ε} :
    x.map f = .error e ↔ x = .error e := by
  cases x <;> simp [Except.map]

theorem map_bind {γ : Type} (x : Except ε α) (f : α → β) (g : β → Except ε γ) :
    (x.map f >>= g) = x >>= fun a => g (f a) := by
  cases x <;> rfl

theorem mapError_eq_ok_iff {ε' : Type} {x : Except ε α} {g : ε → ε'} {a : α} :
    x.mapError g = .ok a ↔ x = .ok a := by
  cases x <;> simp [Except.mapError]

theorem mapError_eq_error_iff {ε' : Type} {x : Except ε α} {g : ε → ε'} {e' : ε'} :
    x.mapError g = .error e' ↔ ∃ e, x = .error e ∧ g e = e' := by
  cases x <;> simp [Except.mapError]

/-- Refusing nothing: every member passes. -/
theorem forM_eq_ok_iff {f : α → Except ε Unit} {as : List α} :
    as.forM f = .ok () ↔ ∀ a ∈ as, f a = .ok () := by
  induction as with
  | nil => simp [pure, Except.pure]
  | cons a as ih =>
      change (f a >>= fun _ => as.forM f) = .ok () ↔ _
      rw [bind_eq_ok_iff, List.forall_mem_cons, ← ih]
      exact ⟨fun ⟨_, ha, has⟩ => ⟨ha, has⟩, fun ⟨ha, has⟩ => ⟨(), ha, has⟩⟩

/-- The first member that does not pass is what refuses. -/
theorem forM_eq_error_iff {f : α → Except ε Unit} {as : List α} {e : ε} :
    as.forM f = .error e ↔
      ∃ before a after, as = before ++ a :: after ∧ (∀ b ∈ before, f b = .ok ()) ∧
        f a = .error e := by
  induction as with
  | nil => simp [pure, Except.pure]
  | cons a as ih =>
      change (f a >>= fun _ => as.forM f) = .error e ↔ _
      rw [bind_eq_error_iff, ih]
      constructor
      · rintro (ha | ⟨_, ha, before, b, after, rfl, hbefore, hb⟩)
        · exact ⟨[], a, as, rfl, List.forall_mem_nil _, ha⟩
        · exact ⟨a :: before, b, after, rfl, List.forall_mem_cons.mpr ⟨ha, hbefore⟩, hb⟩
      · rintro ⟨_ | ⟨b, before⟩, c, after, heq, hbefore, hc⟩
        · exact .inl (List.head_eq_of_cons_eq heq ▸ hc)
        · obtain ⟨rfl, rfl⟩ := List.cons.inj heq
          obtain ⟨ha, hbefore⟩ := List.forall_mem_cons.mp hbefore
          exact .inr ⟨(), ha, before, c, after, rfl, hbefore, hc⟩

theorem forM_congr {f g : α → Except ε Unit} {as : List α} (h : ∀ a ∈ as, f a = g a) :
    as.forM f = as.forM g := by
  induction as with
  | nil => rfl
  | cons a as ih =>
      obtain ⟨ha, has⟩ := List.forall_mem_cons.mp h
      change (f a >>= fun _ => as.forM f) = (g a >>= fun _ => as.forM g)
      rw [ha, ih has]

theorem mapM_congr {f g : α → Except ε β} {as : List α} (h : ∀ a ∈ as, f a = g a) :
    as.mapM f = as.mapM g := by
  induction as with
  | nil => rfl
  | cons a as ih =>
      obtain ⟨ha, has⟩ := List.forall_mem_cons.mp h
      rw [List.mapM_cons, List.mapM_cons, ha, ih has]

theorem mapM_eq_ok_iff {f : α → Except ε β} {as : List α} {bs : List β} :
    as.mapM f = .ok bs ↔ List.Forall₂ (fun a b => f a = .ok b) as bs := by
  induction as generalizing bs with
  | nil => simp [pure, Except.pure, eq_comm]
  | cons a as ih =>
      simp only [List.mapM_cons, bind_eq_ok_iff, ih, List.forall₂_cons_left_iff, pure, Except.pure,
        Except.ok.injEq]
      constructor
      · rintro ⟨b, hb, bs, hbs, rfl⟩
        exact ⟨b, bs, hb, hbs, rfl⟩
      · rintro ⟨b, bs, hb, hbs, rfl⟩
        exact ⟨b, hb, bs, hbs, rfl⟩

theorem exists_of_mapM_eq_ok {f : α → Except ε β} {as : List α} {bs : List β}
    (h : as.mapM f = .ok bs) : ∀ a ∈ as, ∃ b ∈ bs, f a = .ok b := by
  rw [mapM_eq_ok_iff] at h
  induction h with
  | nil => exact List.forall_mem_nil _
  | cons hb _ ih =>
      refine List.forall_mem_cons.mpr ⟨⟨_, List.mem_cons_self, hb⟩, fun a ha => ?_⟩
      obtain ⟨b, hmem, hb⟩ := ih a ha
      exact ⟨b, List.mem_cons_of_mem _ hmem, hb⟩

theorem exists_of_mapM_eq_error {f : α → Except ε β} {as : List α} {e : ε}
    (h : as.mapM f = .error e) : ∃ a ∈ as, f a = .error e := by
  induction as with
  | nil => cases h
  | cons a as ih =>
      rw [List.mapM_cons, bind_eq_error_iff] at h
      rcases h with ha | ⟨b, -, h⟩
      · exact ⟨a, List.mem_cons_self, ha⟩
      · rcases bind_eq_error_iff.mp h with has | ⟨bs, -, h⟩
        · obtain ⟨a', ha', heq⟩ := ih has
          exact ⟨a', List.mem_cons_of_mem _ ha', heq⟩
        · cases h

theorem mapM_eq_ok_map {f : α → Except ε β} {g : α → β} {as : List α}
    (h : ∀ a ∈ as, f a = .ok (g a)) : as.mapM f = .ok (as.map g) := by
  rw [mapM_eq_ok_iff, List.forall₂_map_right_iff, List.forall₂_same]
  exact h

theorem mapM_replicate {f : α → Except ε β} {a : α} {b : β} (h : f a = .ok b) (n : Nat) :
    (List.replicate n a).mapM f = .ok (List.replicate n b) := by
  rw [mapM_eq_ok_map (g := fun _ => b) fun a' ha => List.eq_of_mem_replicate ha ▸ h,
    List.map_replicate]

/-- A step taken on one thing and then on the members of a list that has to be found first. -/
theorem bind_mapM_cons_eq_ok_iff {f : α → Except ε β} {a : α} {as : Except ε (List α)}
    {bs : List β} :
    (as >>= fun as => (a :: as).mapM f) = .ok bs ↔
      ∃ b bs', bs = b :: bs' ∧ f a = .ok b ∧ (as >>= fun as => as.mapM f) = .ok bs' := by
  cases as with
  | error e => simp
  | ok as =>
      rw [ok_bind, ok_bind, List.mapM_cons]
      simp only [bind_eq_ok_iff, pure, Except.pure, Except.ok.injEq]
      constructor
      · rintro ⟨b, hb, bs', hbs', rfl⟩
        exact ⟨b, bs', rfl, hb, hbs'⟩
      · rintro ⟨b, bs', rfl, hb, hbs'⟩
        exact ⟨b, hb, bs', hbs', rfl⟩

/-- A step that succeeds beside every member of a related list succeeds on the list. -/
theorem mapM_of_forall₂ {γ : Type} {R : γ → α → Prop} {T : γ → β → Prop} {f : α → Except ε β}
    {cs : List γ} {as : List α} (h : List.Forall₂ R cs as)
    (hf : ∀ c ∈ cs, ∀ a, R c a → ∃ b, f a = .ok b ∧ T c b) :
    ∃ bs, as.mapM f = .ok bs ∧ List.Forall₂ T cs bs := by
  simp only [mapM_eq_ok_iff]
  induction h with
  | nil => exact ⟨[], .nil, .nil⟩
  | cons hca _ ih =>
      rw [List.forall_mem_cons] at hf
      obtain ⟨b, hb, hT⟩ := hf.1 _ hca
      obtain ⟨bs, hbs, hTs⟩ := ih hf.2
      exact ⟨b :: bs, .cons hb hbs, .cons hT hTs⟩

end Except

/-! ### Errors of one kind -/

/-- A computation that fails with no other errors than those of a kind. -/
def FailsAs (P : ε → Prop) (x : Except ε α) : Prop := ∀ e, x = .error e → P e

namespace FailsAs

variable {P : ε → Prop}

theorem ok (a : α) : FailsAs P (.ok a : Except ε α) := fun _ h => nomatch h

theorem error {e : ε} (h : P e) : FailsAs P (.error e : Except ε α) := by
  rintro _ ⟨⟩
  exact h

theorem bind {x : Except ε α} {f : α → Except ε β} (hx : FailsAs P x)
    (hf : ∀ a, x = .ok a → FailsAs P (f a)) : FailsAs P (x >>= f) := by
  intro e h
  rcases Except.bind_eq_error_iff.mp h with h | ⟨a, ha, h⟩
  · exact hx e h
  · exact hf a ha e h

theorem mapM {f : α → Except ε β} {as : List α} (hf : ∀ a ∈ as, FailsAs P (f a)) :
    FailsAs P (as.mapM f) := by
  intro e h
  obtain ⟨a, ha, h⟩ := Except.exists_of_mapM_eq_error h
  exact hf a ha e h

end FailsAs

/-! ### Computations that end alike -/

/-- Two computations that end alike: with values that are related, or with errors of which the same
can be seen. -/
inductive EndsLike {γ : Type} (view : ε → γ) (R : α → β → Prop) : Except ε α → Except ε β → Prop
  | ok {a : α} {b : β} (h : R a b) : EndsLike view R (.ok a) (.ok b)
  | error {e e' : ε} (h : view e = view e') : EndsLike view R (.error e) (.error e')

namespace EndsLike

variable {γ α' β' : Type} {view : ε → γ} {R : α → β → Prop} {S : α' → β' → Prop} {x : Except ε α}
  {y : Except ε β}

theorem refl (x : Except ε α) : EndsLike view Eq x x := by
  cases x with
  | error e => exact .error rfl
  | ok a => exact .ok rfl

/-- Two computations that end like a third one end alike. -/
theorem of_common {z : Except ε α'} {S : α → α' → Prop} {T : β → α' → Prop}
    (hy : EndsLike view R x y) (hz : EndsLike view S x z)
    (hT : ∀ a b c, R a b → S a c → T b c) : EndsLike view T y z := by
  cases hy with
  | ok hb =>
      cases hz with
      | ok hc => exact .ok (hT _ _ _ hb hc)
  | error hy =>
      cases hz with
      | error hz => exact .error (hy.symm.trans hz)

theorem symm {x y : Except ε α} (h : EndsLike view Eq x y) : EndsLike view Eq y x :=
  h.of_common (.refl x) fun _ _ _ hab hac => hab.symm.trans hac

theorem trans {x y z : Except ε α} (hxy : EndsLike view Eq x y) (hyz : EndsLike view Eq y z) :
    EndsLike view Eq x z :=
  hxy.symm.of_common hyz fun _ _ _ hba hbc => hba.symm.trans hbc

theorem bind {f : α → Except ε α'} {g : β → Except ε β'} (h : EndsLike view R x y)
    (hfg : ∀ a b, x = .ok a → y = .ok b → R a b → EndsLike view S (f a) (g b)) :
    EndsLike view S (x >>= f) (y >>= g) := by
  cases h with
  | ok h => exact hfg _ _ rfl rfl h
  | error h => exact .error h

theorem map {f : α → α'} {g : β → β'} (h : EndsLike view R x y)
    (hfg : ∀ a b, R a b → S (f a) (g b)) : EndsLike view S (x.map f) (y.map g) := by
  cases h with
  | ok h => exact .ok (hfg _ _ h)
  | error h => exact .error h

theorem mapError {ε' γ' : Type} {view' : ε' → γ'} {f g : ε → ε'} (h : EndsLike view R x y)
    (hfg : ∀ e e', view e = view e' → view' (f e) = view' (g e')) :
    EndsLike view' R (x.mapError f) (y.mapError g) := by
  cases h with
  | ok h => exact .ok h
  | error h => exact .error (hfg _ _ h)

theorem mapM {as : List α} {bs : List β} {f : α → Except ε α'} {g : β → Except ε β'}
    (h : List.Forall₂ R as bs) (hfg : ∀ a b, R a b → EndsLike view S (f a) (g b)) :
    EndsLike view (List.Forall₂ S) (as.mapM f) (bs.mapM g) := by
  induction h with
  | nil => exact .ok .nil
  | cons hab _ ih =>
      rw [List.mapM_cons, List.mapM_cons]
      refine (hfg _ _ hab).bind fun a b _ _ ha => ?_
      exact ih.bind fun as bs _ _ has => .ok (.cons ha has)

end EndsLike

/-! ### Traced computations -/

namespace Traced

@[simp]
theorem outcome_pure (a : α) : (pure a : Traced ε α).outcome = .ok a := rfl

@[simp]
theorem outcome_fail (e : ε) : (fail e : Traced ε α).outcome = .error e := rfl

@[simp]
theorem outcome_ofExcept (x : Except ε α) : (ofExcept x).outcome = x := rfl

@[simp]
theorem outcome_tell (event : Log.Event) : (tell event : Traced ε Unit).outcome = .ok () := rfl

@[simp]
theorem outcome_record (r : Log.Record) : (record r : Traced ε Unit).outcome = .ok () := rfl

@[simp]
theorem outcome_bind (x : Traced ε α) (f : α → Traced ε β) :
    (x >>= f).outcome = x.outcome >>= fun a => (f a).outcome := by
  change (Traced.bind x f).outcome = _
  cases h : x.outcome <;> simp [Traced.bind, h, bind, Except.bind]

theorem outcome_bind_pure (x : Traced ε α) (f : α → β) :
    (x >>= fun a => pure (f a)).outcome = x.outcome.map f := by
  rw [outcome_bind]
  cases x.outcome <;> rfl

/-- What follows a computation matters only for the values that it ends with. -/
theorem bind_congr_of_outcome {x : Traced ε α} {f g : α → Traced ε β}
    (h : ∀ a, x.outcome = .ok a → f a = g a) : x >>= f = x >>= g := by
  obtain ⟨events, outcome⟩ := x
  cases outcome with
  | error e => rfl
  | ok a =>
      change Traced.bind _ f = Traced.bind _ g
      simp only [Traced.bind, h a rfl]

@[simp]
theorem outcome_mapM (f : α → Traced ε β) (as : List α) :
    (as.mapM f).outcome = as.mapM fun a => (f a).outcome := by
  induction as with
  | nil => rfl
  | cons a as ih =>
      simp only [List.mapM_cons, outcome_bind, ih]
      rfl

/-! ### Events -/

theorem events_bind_of_ok {x : Traced ε α} {f : α → Traced ε β} {a : α} (h : x.outcome = .ok a) :
    (x >>= f).events = x.events ++ (f a).events := by
  change (Traced.bind x f).events = _
  simp only [Traced.bind, h]

/-- Behind an error nothing is told. -/
theorem events_bind_of_error {x : Traced ε α} {f : α → Traced ε β} {e : ε}
    (h : x.outcome = .error e) : (x >>= f).events = x.events := by
  change (Traced.bind x f).events = _
  simp only [Traced.bind, h]

theorem events_bind_pure (x : Traced ε α) (f : α → β) :
    (x >>= fun a => pure (f a)).events = x.events := by
  cases h : x.outcome with
  | ok a => exact (events_bind_of_ok h).trans (List.append_nil _)
  | error e => exact events_bind_of_error h

theorem events_bind_record (r : Log.Record) (y : Traced ε β) :
    (record r >>= fun _ => y).events = .record r :: y.events :=
  events_bind_of_ok rfl

/-! ### Other errors -/

section MapError

variable {ε' : Type} (g : ε → ε')

@[simp]
theorem mapError_record (r : Log.Record) :
    (record r : Traced ε Unit).mapError g = record r := rfl

@[simp]
theorem mapError_bind (x : Traced ε α) (f : α → Traced ε β) :
    (x >>= f).mapError g = x.mapError g >>= fun a => (f a).mapError g := by
  obtain ⟨events, outcome⟩ := x
  cases outcome <;> rfl

end MapError

end Traced

end Rulebook
