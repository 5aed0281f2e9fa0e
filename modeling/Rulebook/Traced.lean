import Rulebook.Log.Record

/-!
# Traced computations

A computation that ends with a value or an error and tells what happened on the way.  The events
before an error are kept.

* `Traced.bind` runs the second part only after a value, and puts its events behind those of the
  first; the three monad laws are `pure_bind`, `bind_pure` and `bind_assoc`.
-/

namespace Rulebook

structure Traced (ε α : Type) where
  events : List Log.Event
  outcome : Except ε α

namespace Traced

variable {ε α β γ : Type}

protected def pure (a : α) : Traced ε α := ⟨[], .ok a⟩

protected def bind (x : Traced ε α) (f : α → Traced ε β) : Traced ε β :=
  match x.outcome with
  | .ok a => ⟨x.events ++ (f a).events, (f a).outcome⟩
  | .error e => ⟨x.events, .error e⟩

instance : Monad (Traced ε) where
  pure := Traced.pure
  bind := Traced.bind

/-- Ends with an error. -/
def fail (e : ε) : Traced ε α := ⟨[], .error e⟩

/-- Ends as `x` does, telling nothing. -/
def ofExcept (x : Except ε α) : Traced ε α := ⟨[], x⟩

/-- Tells one event. -/
def tell (event : Log.Event) : Traced ε Unit := ⟨[event], .ok ()⟩

/-- Tells one record. -/
def record (r : Log.Record) : Traced ε Unit := tell (.record r)

/-- The same computation with another error in place of its own. -/
def mapError {ε' : Type} (f : ε → ε') (x : Traced ε α) : Traced ε' α :=
  ⟨x.events, x.outcome.mapError f⟩

theorem pure_bind (a : α) (f : α → Traced ε β) : Traced.bind (Traced.pure a) f = f a := by
  simp [Traced.bind, Traced.pure]

theorem bind_pure (x : Traced ε α) : Traced.bind x Traced.pure = x := by
  obtain ⟨events, outcome⟩ := x
  cases outcome <;> simp [Traced.bind, Traced.pure]

theorem bind_assoc (x : Traced ε α) (f : α → Traced ε β) (g : β → Traced ε γ) :
    Traced.bind (Traced.bind x f) g = Traced.bind x fun a => Traced.bind (f a) g := by
  obtain ⟨events, outcome⟩ := x
  cases outcome with
  | error e => simp [Traced.bind]
  | ok a => cases h : (f a).outcome <;> simp [Traced.bind, h, List.append_assoc]

instance : LawfulMonad (Traced ε) := LawfulMonad.mk' _ bind_pure pure_bind bind_assoc

end Traced

end Rulebook
