import Mathlib.Logic.Basic

/-!
# A one-shot timer of an event loop

A timer has at most one pending wait. Setting a new expiry cancels the pending wait, whose handler is then told that it
was aborted and does nothing. A wait that has expired hands its handler to the loop: from then on neither a new expiry
nor a cancellation takes it back.

* `SteadyTimer.arm`, `cancel`, `expire` : the operations on the pending wait;
* `SteadyTimer.take?` : the loop takes the oldest handler that is ready to run;
* `SteadyTimer.Live` : some handler will still run, as the wait is pending or has expired; `SteadyTimer.handlers` lists
  them in the order they run if nothing replaces or cancels the wait.
-/

/-- A timer whose waits carry a handler `α`. -/
structure SteadyTimer (α : Type) where
  /-- The handler of the pending wait. -/
  wait : Option α
  /-- The handlers of the waits that have expired, oldest first, not run yet. -/
  fired : List α
  deriving DecidableEq, Repr

namespace SteadyTimer
variable {α : Type} (t : SteadyTimer α)

def idle : SteadyTimer α := ⟨none, []⟩

/-- A new expiry with a new wait; the pending wait, if any, is aborted. -/
def arm (a : α) : SteadyTimer α := { t with wait := some a }

def cancel : SteadyTimer α := { t with wait := none }

def expire : Option (SteadyTimer α) :=
  match t.wait with
  | none => none
  | some a => some ⟨none, t.fired ++ [a]⟩

/-- The loop takes the oldest handler that is ready. -/
def take? : Option (α × SteadyTimer α) :=
  match t.fired with
  | [] => none
  | a :: rest => some (a, { t with fired := rest })

def Live : Prop := t.wait.isSome ∨ t.fired ≠ []

instance : Decidable t.Live := inferInstanceAs (Decidable (_ ∨ ¬ t.fired = []))

/-- The handlers that will still run, oldest first. -/
def handlers : List α := t.fired ++ t.wait.toList

theorem expire_eq_some {t t' : SteadyTimer α} (h : t.expire = some t') :
    ∃ a, t.wait = some a ∧ t' = ⟨none, t.fired ++ [a]⟩ := by
  unfold expire at h
  split at h
  · cases h
  · next a ha => exact ⟨a, ha, (Option.some.inj h).symm⟩

theorem take?_eq_some {t t' : SteadyTimer α} {a : α} (h : t.take? = some (a, t')) :
    ∃ rest, t.fired = a :: rest ∧ t' = { t with fired := rest } := by
  unfold take? at h
  split at h
  · cases h
  · next b rest hb =>
      obtain ⟨rfl, rfl⟩ := Prod.mk.inj (Option.some.inj h)
      exact ⟨rest, hb, rfl⟩

@[simp] theorem live_arm (a : α) : (t.arm a).Live := Or.inl rfl

theorem live_expire {t t' : SteadyTimer α} (h : t.expire = some t') : t'.Live := by
  obtain ⟨a, _, rfl⟩ := expire_eq_some h
  exact Or.inr (by simp)

theorem live_iff : t.Live ↔ t.handlers ≠ [] := by
  unfold Live handlers
  cases t.wait with
  | none => simp
  | some a => simp

theorem mem_handlers_arm (a : α) : a ∈ (t.arm a).handlers := by simp [handlers, arm]

theorem handlers_expire {t t' : SteadyTimer α} (h : t.expire = some t') : t'.handlers = t.handlers := by
  obtain ⟨a, ha, rfl⟩ := expire_eq_some h
  simp [handlers, ha]

theorem handlers_take {t t' : SteadyTimer α} {a : α} (h : t.take? = some (a, t')) : t.handlers = a :: t'.handlers := by
  obtain ⟨rest, hrest, rfl⟩ := take?_eq_some h
  simp [handlers, hrest]

end SteadyTimer
