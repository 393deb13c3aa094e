import Mathlib.Logic.Basic

/-! Programs that work by calls to their environment. A program hands over its
memory with each call and goes on with the memory it is given back, so that
whatever else runs on the same memory in the meantime can be put there. -/

inductive Program (ε Op : Type) (Ans : Op → Type) (σ : Type)
  | done (s : σ)
  | fail (e : ε)
  | call (s : σ) (op : Op) (k : Ans op → σ → Program ε Op Ans σ)

namespace Program
variable {ε Op : Type} {Ans : Op → Type} {σ : Type}

def andThen : Program ε Op Ans σ → (σ → Program ε Op Ans σ) → Program ε Op Ans σ
  | .done s, f => f s
  | .fail e, _ => .fail e
  | .call s op k, f => .call s op fun a s => (k a s).andThen f

/-- Go on with a value that had to be computed without a fault. -/
def check {α : Type} (x : Except ε α) (f : α → Program ε Op Ans σ) : Program ε Op Ans σ :=
  match x with
  | .ok a => f a
  | .error e => .fail e

/-- The memory a program is at, unless it has failed. -/
def memory : Program ε Op Ans σ → Option σ
  | .done s => some s
  | .fail _ => none
  | .call s _ _ => some s

/-- The same program with another memory under it. -/
def withMemory (s : σ) : Program ε Op Ans σ → Program ε Op Ans σ
  | .done _ => .done s
  | .fail e => .fail e
  | .call _ op k => .call s op k

/-- A call, its answer and the memory the program was given back. -/
structure Performed (Op : Type) (Ans : Op → Type) (σ : Type) where
  op : Op
  answer : Ans op
  memory : σ

/-- `Performs p calls t`: with these answers `p` makes these calls and returns memory `t`. -/
inductive Performs : Program ε Op Ans σ → List (Performed Op Ans σ) → σ → Prop
  | done (s : σ) : Performs (.done s) [] s
  | call {s t : σ} {op : Op} {k : Ans op → σ → Program ε Op Ans σ} {calls : List (Performed Op Ans σ)}
      (a : Ans op) (m : σ) : Performs (k a m) calls t → Performs (.call s op k) (⟨op, a, m⟩ :: calls) t

/-- Every call the program may come to satisfies `P`. -/
inductive Every (P : Op → Prop) : Program ε Op Ans σ → Prop
  | done (s : σ) : Every P (.done s)
  | fail (e : ε) : Every P (.fail e)
  | call {s : σ} {op : Op} {k : Ans op → σ → Program ε Op Ans σ} : P op → (∀ a m, Every P (k a m)) →
      Every P (.call s op k)

theorem andThen_assoc (p : Program ε Op Ans σ) (f g : σ → Program ε Op Ans σ) :
    (p.andThen f).andThen g = p.andThen fun s => (f s).andThen g := by
  induction p with
  | done s => rfl
  | fail e => rfl
  | call s op k ih =>
      simp only [andThen, call.injEq, heq_eq_eq, true_and]
      funext a m
      exact ih a m

theorem andThen_done (p : Program ε Op Ans σ) : p.andThen .done = p := by
  induction p with
  | done s => rfl
  | fail e => rfl
  | call s op k ih =>
      simp only [andThen, call.injEq, heq_eq_eq, true_and]
      funext a m
      exact ih a m

theorem check_andThen {α : Type} (x : Except ε α) (f : α → Program ε Op Ans σ)
    (g : σ → Program ε Op Ans σ) : (check x f).andThen g = check x fun a => (f a).andThen g := by
  cases x <;> rfl

theorem performs_check {α : Type} {x : Except ε α} {f : α → Program ε Op Ans σ}
    {calls : List (Performed Op Ans σ)} {t : σ} (h : Performs (check x f) calls t) :
    ∃ a, x = .ok a ∧ Performs (f a) calls t := by
  cases x with
  | ok a => exact ⟨a, rfl, h⟩
  | error e => cases h

theorem Performs.andThen {p : Program ε Op Ans σ} {f : σ → Program ε Op Ans σ}
    {first second : List (Performed Op Ans σ)} {m t : σ} (one : Performs p first m)
    (two : Performs (f m) second t) : Performs (p.andThen f) (first ++ second) t := by
  induction one with
  | done s => exact two
  | call a m _ ih => exact .call a m (ih two)

/-- With some answers `p` returns memory `t`. -/
def Returns (p : Program ε Op Ans σ) (t : σ) : Prop := ∃ calls, Performs p calls t

theorem Returns.done (s : σ) : Returns (.done s : Program ε Op Ans σ) s := ⟨[], .done s⟩

theorem Returns.call {s t : σ} {op : Op} {k : Ans op → σ → Program ε Op Ans σ} (a : Ans op) (m : σ)
    (h : Returns (k a m) t) : Returns (.call s op k) t := by
  obtain ⟨calls, run⟩ := h
  exact ⟨_, .call a m run⟩

theorem Returns.check {α : Type} {x : Except ε α} {f : α → Program ε Op Ans σ} {a : α} {t : σ}
    (ok : x = .ok a) (h : Returns (f a) t) : Returns (Program.check x f) t := by
  subst ok
  exact h

theorem Returns.andThen {p : Program ε Op Ans σ} {f : σ → Program ε Op Ans σ} {m t : σ}
    (one : Returns p m) (two : Returns (f m) t) : Returns (p.andThen f) t := by
  obtain ⟨first, one⟩ := one
  obtain ⟨second, two⟩ := two
  exact ⟨first ++ second, one.andThen two⟩

theorem Every.andThen {P : Op → Prop} {p : Program ε Op Ans σ} {f : σ → Program ε Op Ans σ}
    (first : p.Every P) (second : ∀ s, (f s).Every P) : (p.andThen f).Every P := by
  induction first with
  | done s => exact second s
  | fail e => exact .fail e
  | call good _ ih => exact .call good ih

theorem Every.check {P : Op → Prop} {α : Type} {x : Except ε α} {f : α → Program ε Op Ans σ}
    (h : ∀ a, (f a).Every P) : (Program.check x f).Every P := by
  cases x with
  | ok a => exact h a
  | error e => exact .fail e

theorem Every.withMemory {P : Op → Prop} {p : Program ε Op Ans σ} (h : p.Every P) (s : σ) :
    (p.withMemory s).Every P := by
  cases h with
  | done _ => exact .done s
  | fail e => exact .fail e
  | call good rest => exact .call good rest

theorem Every.mono {P Q : Op → Prop} {p : Program ε Op Ans σ} (h : p.Every P) (le : ∀ op, P op → Q op) :
    p.Every Q := by
  induction h with
  | done s => exact .done s
  | fail e => exact .fail e
  | call good _ ih => exact .call (le _ good) ih

theorem Every.performed {P : Op → Prop} {p : Program ε Op Ans σ} {calls : List (Performed Op Ans σ)}
    {t : σ} (h : p.Every P) (run : Performs p calls t) : ∀ c ∈ calls, P c.op := by
  induction run with
  | done s =>
      intro c member
      cases member
  | call a m _ ih =>
      cases h with
      | call good rest =>
          intro c member
          rcases List.mem_cons.mp member with rfl | later
          · exact good
          · exact ih (rest a m) c later

/-! ## Programs that run alone -/

/-- What the program comes to with these answers when nothing else runs on its memory. -/
def eval (answer : (op : Op) → Ans op) : Program ε Op Ans σ → Except ε σ
  | .done s => .ok s
  | .fail e => .error e
  | .call s op k => eval answer (k (answer op) s)

variable {answer : (op : Op) → Ans op}

theorem eval_andThen (p : Program ε Op Ans σ) (f : σ → Program ε Op Ans σ) :
    (p.andThen f).eval answer = p.eval answer >>= fun s => (f s).eval answer := by
  induction p with
  | done s => rfl
  | fail e => rfl
  | call s op k ih => exact ih (answer op) s

theorem eval_check {α : Type} (x : Except ε α) (f : α → Program ε Op Ans σ) :
    (check x f).eval answer = x >>= fun a => (f a).eval answer := by
  cases x <;> rfl

/-- The same with an environment of its own, which every call may change. -/
def interpret {τ : Type} (serve : τ → (op : Op) → Ans op × τ) : Program ε Op Ans σ → τ → Except ε (σ × τ)
  | .done s, t => .ok (s, t)
  | .fail e, _ => .error e
  | .call s op k, t => interpret serve (k (serve t op).1 s) (serve t op).2

/-- Alone, and with some answer to each call, the program ends with this memory. -/
inductive Ends : Program ε Op Ans σ → σ → Prop
  | done (s : σ) : Ends (.done s) s
  | call {s t : σ} {op : Op} {k : Ans op → σ → Program ε Op Ans σ} (a : Ans op) : Ends (k a s) t →
      Ends (.call s op k) t

theorem ends_of_eval {p : Program ε Op Ans σ} {t : σ} (h : p.eval answer = .ok t) : Ends p t := by
  induction p with
  | done m =>
      cases h
      exact .done t
  | fail e => cases h
  | call m op k ih => exact .call (answer op) (ih (answer op) m h)

theorem ends_call {s t : σ} {op : Op} {k : Ans op → σ → Program ε Op Ans σ} :
    Ends (.call s op k) t ↔ ∃ a, Ends (k a s) t := by
  constructor
  · intro h
    cases h with
    | call a rest => exact ⟨a, rest⟩
  · rintro ⟨a, rest⟩
    exact .call a rest

theorem ends_done {s t : σ} : Ends (.done s : Program ε Op Ans σ) t ↔ t = s := by
  constructor
  · intro h
    cases h
    rfl
  · rintro rfl
    exact .done t

theorem ends_andThen {p : Program ε Op Ans σ} {f : σ → Program ε Op Ans σ} {t : σ} :
    Ends (p.andThen f) t ↔ ∃ m, Ends p m ∧ Ends (f m) t := by
  induction p with
  | done s => simp only [andThen, ends_done, exists_eq_left]
  | fail e =>
      constructor
      · rintro ⟨⟩
      · rintro ⟨_, ⟨⟩, _⟩
  | call s op k ih =>
      simp only [andThen, ends_call, ih]
      rw [exists_comm]
      simp only [exists_and_right]

theorem ends_check {α : Type} {x : Except ε α} {f : α → Program ε Op Ans σ} {t : σ} :
    Ends (check x f) t ↔ ∃ a, x = .ok a ∧ Ends (f a) t := by
  cases x with
  | ok a => simp [check]
  | error e =>
      constructor
      · rintro ⟨⟩
      · rintro ⟨_, ⟨⟩, _⟩

section Yields
variable {β : Type}

/-- The same, with what its calls give out on the way. -/
inductive Yields (emits : Op → Option β) : Program ε Op Ans σ → List β → σ → Prop
  | done (s : σ) : Yields emits (.done s) [] s
  | call {s t : σ} {op : Op} {k : Ans op → σ → Program ε Op Ans σ} {out : List β} (a : Ans op) :
      Yields emits (k a s) out t → Yields emits (.call s op k) ((emits op).toList ++ out) t

variable {emits : Op → Option β} {out : List β}

theorem yields_call {s t : σ} {op : Op} {k : Ans op → σ → Program ε Op Ans σ} :
    Yields emits (.call s op k) out t ↔
      ∃ a rest, out = (emits op).toList ++ rest ∧ Yields emits (k a s) rest t := by
  constructor
  · intro h
    cases h with
    | call a rest => exact ⟨a, _, rfl, rest⟩
  · rintro ⟨a, rest, rfl, h⟩
    exact .call a h

theorem yields_andThen {p : Program ε Op Ans σ} {f : σ → Program ε Op Ans σ} {t : σ}
    (h : Yields emits (p.andThen f) out t) :
    ∃ first second m, out = first ++ second ∧ Yields emits p first m ∧ Yields emits (f m) second t := by
  induction p generalizing out with
  | done s => exact ⟨[], out, s, rfl, .done s, h⟩
  | fail e => cases h
  | call s op k ih =>
      have called : Yields emits (.call s op fun a s => (k a s).andThen f) out t := h
      obtain ⟨a, rest, same, later⟩ := yields_call.mp called
      obtain ⟨first, second, m, rfl, one, two⟩ := ih a s later
      subst same
      exact ⟨(emits op).toList ++ first, second, m, by rw [List.append_assoc], .call a one, two⟩

end Yields

/-! ## The order of calls -/

/-- A rule for the order of calls: which may come at a point of it, and the
point behind a call. -/
structure Rule (Op : Type) (Ans : Op → Type) (τ : Type) where
  allows : τ → Op → Prop
  next : τ → (op : Op) → Ans op → τ

/-- From point `t` on, the calls of the program keep to the rule. -/
inductive Follows {τ : Type} (r : Rule Op Ans τ) : τ → Program ε Op Ans σ → Prop
  | done {t : τ} (s : σ) : Follows r t (.done s)
  | fail {t : τ} (e : ε) : Follows r t (.fail e)
  | call {t : τ} {s : σ} {op : Op} {k : Ans op → σ → Program ε Op Ans σ} : r.allows t op →
      (∀ a m, Follows r (r.next t op a) (k a m)) → Follows r t (.call s op k)

variable {τ : Type} {r : Rule Op Ans τ}

theorem Follows.andThen {t : τ} {p : Program ε Op Ans σ} {f : σ → Program ε Op Ans σ}
    (first : Follows r t p) (second : ∀ t s, Follows r t (f s)) : Follows r t (p.andThen f) := by
  induction first with
  | done s => exact second _ s
  | fail e => exact .fail e
  | call allowed _ ih => exact .call allowed ih

theorem Follows.check {t : τ} {α : Type} {x : Except ε α} {f : α → Program ε Op Ans σ}
    (h : ∀ a, x = .ok a → Follows r t (f a)) : Follows r t (Program.check x f) := by
  cases x with
  | ok a => exact h a rfl
  | error e => exact .fail e

theorem Follows.withMemory {t : τ} {p : Program ε Op Ans σ} (h : Follows r t p) (s : σ) :
    Follows r t (p.withMemory s) := by
  cases h with
  | done _ => exact .done s
  | fail e => exact .fail e
  | call allowed rest => exact .call allowed rest

/-- Calls that are always allowed may come in any order. -/
theorem Every.follows {P : Op → Prop} {p : Program ε Op Ans σ} (h : p.Every P)
    (free : ∀ t op, P op → r.allows t op) (t : τ) : Follows r t p := by
  induction h generalizing t with
  | done s => exact .done s
  | fail e => exact .fail e
  | call good _ ih => exact .call (free t _ good) fun a m => ih a m _

/-! ## What a program gives out -/

/-- What is asked of a program: an invariant of its memory, the calls it may
make, and which of them count as output. -/
structure Contract (Op σ β : Type) where
  keeps : σ → Prop
  allows : Op → Prop
  emits : Op → Option β

/-- The program keeps to the contract, and unless it fails it gives out `out`, in order,
whatever it is answered and wherever other code that keeps the invariant comes in between. -/
inductive Meets {β : Type} (c : Contract Op σ β) : List β → Program ε Op Ans σ → Prop
  | done {s : σ} : c.keeps s → Meets c [] (.done s)
  | fail {out : List β} (e : ε) : Meets c out (.fail e)
  | call {s : σ} {op : Op} {k : Ans op → σ → Program ε Op Ans σ} {out rest : List β} : c.keeps s →
      c.allows op → out = (c.emits op).toList ++ rest → (∀ a m, c.keeps m → Meets c rest (k a m)) →
      Meets c out (.call s op k)

variable {β : Type} {c : Contract Op σ β} {out first second : List β}

theorem Meets.andThen {p : Program ε Op Ans σ} {f : σ → Program ε Op Ans σ} (one : Meets c first p)
    (two : ∀ s, c.keeps s → Meets c second (f s)) : Meets c (first ++ second) (p.andThen f) := by
  induction one with
  | done kept => exact two _ kept
  | fail e => exact .fail e
  | call kept allowed split _ ih =>
      refine .call kept allowed ?_ ih
      rw [split, List.append_assoc]

theorem Meets.check {α : Type} {x : Except ε α} {f : α → Program ε Op Ans σ}
    (h : ∀ a, x = .ok a → Meets c out (f a)) : Meets c out (Program.check x f) := by
  cases x with
  | ok a => exact h a rfl
  | error e => exact .fail e

theorem Meets.withMemory {p : Program ε Op Ans σ} (h : Meets c out p) {s : σ} (kept : c.keeps s) :
    Meets c out (p.withMemory s) := by
  cases h with
  | done _ => exact .done kept
  | fail e => exact .fail e
  | call _ allowed split rest => exact .call kept allowed split rest

/-- The memory of a program that keeps to a contract satisfies its invariant. -/
theorem Meets.memory {p : Program ε Op Ans σ} {s : σ} (h : Meets c out p) (at_ : p.memory = some s) :
    c.keeps s := by
  cases h with
  | done kept =>
      cases at_
      exact kept
  | fail e => cases at_
  | call kept _ _ _ =>
      cases at_
      exact kept

end Program
