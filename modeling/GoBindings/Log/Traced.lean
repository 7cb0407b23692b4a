/-
  GoBindings/Log/Traced.lean
  ==========================
  **Computations that report events.**

  A step of a run gives a result or a fault, and the events that it reported on
  the way, which a fault does not take back. Steps compose as a monad. Looking
  at the outcome alone forgets the events and respects composition, so facts
  about results need not mention them.
-/
import GoBindings.Log.Event

namespace GoBindings

/-- The events of a computation and how it ended. -/
structure Traced (α : Type) where
  events : List Event
  outcome : Except Fault α

namespace Traced

variable {α β : Type}

/-- A result without events. -/
def result (a : α) : Traced α := ⟨[], .ok a⟩

/-- A fault without events. -/
def fault (f : Fault) : Traced α := ⟨[], .error f⟩

/-- A result or fault without events. -/
def ofExcept (e : Except Fault α) : Traced α := ⟨[], e⟩

/-- One event. -/
def report (e : Event) : Traced Unit := ⟨[e], .ok ()⟩

/-- The second computation takes the result of the first, and reports after it. -/
def andThen (x : Traced α) (f : α → Traced β) : Traced β :=
  match x.outcome with
  | .ok a => ⟨x.events ++ (f a).events, (f a).outcome⟩
  | .error e => ⟨x.events, .error e⟩

instance : Monad Traced where
  pure := result
  bind := andThen

@[simp] theorem outcome_pure (a : α) : (pure a : Traced α).outcome = .ok a := rfl

@[simp] theorem outcome_ofExcept (e : Except Fault α) : (ofExcept e).outcome = e := rfl

@[simp] theorem outcome_report (e : Event) : (report e).outcome = .ok () := rfl

/-- The outcome of a composition is the composition of the outcomes. -/
@[simp] theorem outcome_bind (x : Traced α) (f : α → Traced β) :
    (x >>= f).outcome = x.outcome >>= fun a => (f a).outcome := by
  obtain ⟨events, outcome⟩ := x
  cases outcome <;> rfl

end Traced

end GoBindings
