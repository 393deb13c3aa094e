import Mathlib.Logic.Basic

/-! Results of code that may fault or may not come back. -/

/-- What a fuelled execution has come to: it returned, it ran into undefined
behaviour, or the fuel ended while it was still running. -/
inductive Outcome (ε α : Type)
  | ok (a : α)
  | fault (e : ε)
  | running
  deriving DecidableEq, Repr

namespace Outcome
variable {ε α β : Type}

def bind : Outcome ε α → (α → Outcome ε β) → Outcome ε β
  | .ok a, f => f a
  | .fault e, _ => .fault e
  | .running, _ => .running

instance : Monad (Outcome ε) where
  pure := .ok
  bind := Outcome.bind

@[simp] theorem pure_eq (a : α) : (pure a : Outcome ε α) = .ok a := rfl
@[simp] theorem ok_bind (a : α) (f : α → Outcome ε β) : (Outcome.ok a >>= f) = f a := rfl
@[simp] theorem fault_bind (e : ε) (f : α → Outcome ε β) : (Outcome.fault e >>= f) = .fault e := rfl
@[simp] theorem running_bind (f : α → Outcome ε β) : (Outcome.running >>= f) = .running := rfl

theorem bind_eq_ok {x : Outcome ε α} {f : α → Outcome ε β} {b : β} :
    (x >>= f) = .ok b ↔ ∃ a, x = .ok a ∧ f a = .ok b := by
  cases x <;> simp

theorem bind_eq_fault {x : Outcome ε α} {f : α → Outcome ε β} {e : ε} :
    (x >>= f) = .fault e ↔ x = .fault e ∨ ∃ a, x = .ok a ∧ f a = .fault e := by
  cases x <;> simp

end Outcome

theorem Except.ok_bind {ε α β : Type} (a : α) (f : α → Except ε β) : (Except.ok a >>= f) = f a := rfl

theorem Except.bind_eq_ok {ε α β : Type} {x : Except ε α} {f : α → Except ε β} {b : β} :
    (x >>= f) = .ok b ↔ ∃ a, x = .ok a ∧ f a = .ok b := by
  cases x with
  | error e => simp [bind, Except.bind]
  | ok a => simp [bind, Except.bind]

theorem Except.bind_eq_error {ε α β : Type} {x : Except ε α} {f : α → Except ε β} {e : ε} :
    (x >>= f) = .error e ↔ x = .error e ∨ ∃ a, x = .ok a ∧ f a = .error e := by
  cases x with
  | error e' => simp [bind, Except.bind]
  | ok a => simp [bind, Except.bind]

theorem Except.bind_then_map {ε α β γ : Type} (f : β → γ) (x : Except ε α) (g : α → Except ε β) :
    (x >>= g).map f = x >>= fun a => (g a).map f := by
  cases x <;> rfl

/-- Where `x` fails, `F` holds of the error. -/
def Except.Only {ε α : Type} (F : ε → Prop) (x : Except ε α) : Prop := ∀ e, x = .error e → F e

namespace Except.Only
variable {ε α β : Type} {F : ε → Prop}

theorem ok (a : α) : Only F (.ok a : Except ε α) := by
  intro e same
  cases same

theorem error {e : ε} (h : F e) : Only F (.error e : Except ε α) := by
  intro e' same
  cases same
  exact h

theorem bind_ok {x : Except ε α} {f : α → Except ε β} (first : Only F x)
    (second : ∀ a, x = .ok a → Only F (f a)) : Only F (x >>= f) := by
  intro e failed
  rcases Except.bind_eq_error.mp failed with failed | ⟨a, came, failed⟩
  · exact first e failed
  · exact second a came e failed

theorem bind {x : Except ε α} {f : α → Except ε β} (first : Only F x) (second : ∀ a, Only F (f a)) :
    Only F (x >>= f) := first.bind_ok fun a _ => second a

theorem branch {c : Prop} [Decidable c] {x y : Except ε α} (yes : c → Only F x) (no : ¬ c → Only F y) :
    Only F (if c then x else y) := by
  by_cases h : c
  · rw [if_pos h]
    exact yes h
  · rw [if_neg h]
    exact no h

end Except.Only
