import MusicPlayer.Lib.Outcome

/-! Code that changes a state as it goes and may be left by an exception: what
it has changed by then stays changed. -/

def Attempt (ε σ α : Type) := σ → Except ε α × σ

namespace Attempt
variable {ε σ τ α β : Type}

protected def bind (x : Attempt ε σ α) (f : α → Attempt ε σ β) : Attempt ε σ β := fun s =>
  match x s with
  | (.ok a, t) => f a t
  | (.error e, t) => (.error e, t)

instance : Monad (Attempt ε σ) where
  pure a := fun s => (.ok a, s)
  bind := Attempt.bind

/-- A value found without the state. -/
def lift (x : Except ε α) : Attempt ε σ α := fun s => (x, s)

def change (f : σ → σ) : Attempt ε σ Unit := fun s => (.ok (), f s)

/-- A call that answers and moves the state. -/
def ask (f : σ → α × σ) : Attempt ε σ α := fun s => (.ok (f s).1, (f s).2)

/-- Code that changes nothing unless it returns. -/
def whole (f : σ → Except ε (σ × α)) : Attempt ε σ α := fun s =>
  match f s with
  | .ok (t, a) => (.ok a, t)
  | .error e => (.error e, s)

/-- The same code on a part of a larger state. -/
def zoom (part : τ → σ) (put : σ → τ → τ) (x : Attempt ε σ α) : Attempt ε τ α := fun t =>
  ((x (part t)).1, put (x (part t)).2 t)

/-- What it comes to for a caller who is given the state only on a return. -/
def settled (x : Attempt ε σ α) (s : σ) : Except ε (α × σ) := (x s).1.map fun a => (a, (x s).2)

theorem settled_eq_ok {x : Attempt ε σ α} {s t : σ} {a : α} :
    x.settled s = .ok (a, t) ↔ x s = (.ok a, t) := by
  unfold settled
  rcases x s with ⟨e | a', t'⟩ <;> simp [Except.map]

theorem settled_bind (x : Attempt ε σ α) (f : α → Attempt ε σ β) (s : σ) :
    (x >>= f).settled s = x.settled s >>= fun r => (f r.1).settled r.2 := by
  change (Attempt.bind x f).settled s = _
  unfold settled Attempt.bind
  rcases x s with ⟨e | a, t⟩ <;> rfl

theorem settled_pure (a : α) (s : σ) : (pure a : Attempt ε σ α).settled s = .ok (a, s) := rfl

theorem settled_lift (x : Except ε α) (s : σ) : (lift x).settled s = x.map fun a => (a, s) := rfl

theorem settled_lift_bind (x : Except ε α) (f : α → Attempt ε σ β) (s : σ) :
    (lift x >>= f).settled s = x >>= fun a => (f a).settled s := by
  rw [settled_bind, settled_lift]
  cases x <;> rfl

theorem settled_ask (g : σ → α × σ) (s : σ) : (ask g : Attempt ε σ α).settled s = .ok (g s) := rfl

theorem settled_ask_bind (g : σ → α × σ) (f : α → Attempt ε σ β) (s : σ) :
    (ask g >>= f).settled s = (f (g s).1).settled (g s).2 := by
  rw [settled_bind]
  rfl

theorem settled_zoom (part : τ → σ) (put : σ → τ → τ) (x : Attempt ε σ α) (t : τ) :
    (zoom part put x).settled t = (x.settled (part t)).map fun r => (r.1, put r.2 t) := by
  unfold settled zoom
  cases (x (part t)).1 <;> rfl

theorem settled_whole (f : σ → Except ε (σ × α)) (s : σ) :
    (whole f).settled s = (f s).map Prod.swap := by
  unfold settled whole
  cases f s <;> rfl

theorem settled_change_bind (g : σ → σ) (f : Unit → Attempt ε σ β) (s : σ) :
    (change g >>= f).settled s = (f ()).settled (g s) := by
  rw [settled_bind]
  rfl

/-! ## What is left -/

theorem lift_ok_bind {x : Except ε α} {a : α} (ok : x = .ok a) (f : α → Attempt ε σ β) :
    (lift x >>= f) = f a := by
  subst ok
  rfl

theorem lift_error_bind {x : Except ε α} {e : ε} (failed : x = .error e) (f : α → Attempt ε σ β) (s : σ) :
    (lift x >>= f) s = (.error e, s) := by
  subst failed
  rfl

theorem bind_of_ok {x : Attempt ε σ α} {s t : σ} {a : α} (ok : x s = (.ok a, t)) (f : α → Attempt ε σ β) :
    (x >>= f) s = f a t := by
  change Attempt.bind x f s = _
  unfold Attempt.bind
  rw [ok]

theorem bind_of_error {x : Attempt ε σ α} {s t : σ} {e : ε} (failed : x s = (.error e, t))
    (f : α → Attempt ε σ β) : (x >>= f) s = (.error e, t) := by
  change Attempt.bind x f s = _
  unfold Attempt.bind
  rw [failed]

/-- Whatever comes of it, what `view` shows of the state is left as it was. -/
def Keeps {ν : Type} (view : σ → ν) (x : Attempt ε σ α) : Prop := ∀ s, view (x s).2 = view s

namespace Keeps
variable {ν : Type} {view : σ → ν}

theorem pure (a : α) : Keeps view (pure a : Attempt ε σ α) := fun _ => rfl

theorem lift (x : Except ε α) : Keeps view (Attempt.lift x : Attempt ε σ α) := fun _ => rfl

theorem ask {g : σ → α × σ} (same : ∀ s, view (g s).2 = view s) :
    Keeps view (Attempt.ask g : Attempt ε σ α) := same

theorem change {g : σ → σ} (same : ∀ s, view (g s) = view s) :
    Keeps view (Attempt.change g : Attempt ε σ Unit) := same

theorem bind {x : Attempt ε σ α} {f : α → Attempt ε σ β} (first : Keeps view x)
    (second : ∀ a, Keeps view (f a)) : Keeps view (x >>= f) := by
  intro s
  have one := first s
  rcases came : x s with ⟨e | a, t⟩
  · rw [bind_of_error came]
    rw [came] at one
    exact one
  · rw [bind_of_ok came]
    rw [came] at one
    exact (second a t).trans one

/-- What comes after leaves what the first part left. -/
theorem left_bind {x : Attempt ε σ α} {f : α → Attempt ε σ β} (rest : ∀ a, Keeps view (f a)) (s : σ) :
    view ((x >>= f) s).2 = view (x s).2 := by
  rcases came : x s with ⟨e | a, t⟩
  · rw [bind_of_error came]
  · rw [bind_of_ok came]
    exact rest a t

theorem lift_bind {x : Except ε α} {f : α → Attempt ε σ β}
    (second : ∀ a, x = .ok a → Keeps view (f a)) : Keeps view (Attempt.lift x >>= f) := by
  cases x with
  | error e => exact fun _ => rfl
  | ok a => exact second a rfl

theorem branch {c : Prop} [Decidable c] {x y : Attempt ε σ α} (yes : Keeps view x) (no : Keeps view y) :
    Keeps view (if c then x else y) := by
  split
  · exact yes
  · exact no

end Keeps
end Attempt
