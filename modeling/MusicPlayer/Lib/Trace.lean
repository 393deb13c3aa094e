import Mathlib.Logic.Basic

/-! Runs of a labelled step relation, and the one induction that carries an
invariant along them. -/
namespace Runs
variable {σ ι : Type}

/-- `Trace step s is t`: taking the steps labelled `is` in order leads from `s` to `t`. -/
inductive Trace (step : σ → ι → σ → Prop) : σ → List ι → σ → Prop
  | nil (s : σ) : Trace step s [] s
  | cons {s m t : σ} {i : ι} {is : List ι} : step s i m → Trace step m is t → Trace step s (i :: is) t

/-- The same steps, each taken only where `allowed` holds of the state it starts from. -/
def guarded (allowed : σ → ι → Prop) (step : σ → ι → σ → Prop) : σ → ι → σ → Prop :=
  fun s i t => allowed s i ∧ step s i t

/-- The states some run from `start` reaches. -/
def Reachable (step : σ → ι → σ → Prop) (start s : σ) : Prop := ∃ is, Trace step start is s

variable {step : σ → ι → σ → Prop}

theorem Trace.append {s m t : σ} {first second : List ι} (h : Trace step s first m)
    (rest : Trace step m second t) : Trace step s (first ++ second) t := by
  induction h with
  | nil s => exact rest
  | cons one _ ih => exact .cons one (ih rest)

/-- A run of one list of steps behind another comes by the state between them. -/
theorem Trace.split {s t : σ} {first second : List ι} (h : Trace step s (first ++ second) t) :
    ∃ m, Trace step s first m ∧ Trace step m second t := by
  induction first generalizing s with
  | nil => exact ⟨s, .nil s, h⟩
  | cons i first ih =>
      cases h with
      | cons one rest =>
          obtain ⟨m, front, back⟩ := ih rest
          exact ⟨m, .cons one front, back⟩

/-- A run of steps that are steps of another relation, under other labels. -/
theorem Trace.map {κ : Type} {step' : σ → κ → σ → Prop} (f : ι → κ) (h : ∀ s i t, step s i t → step' s (f i) t)
    {s t : σ} {is : List ι} (run : Trace step s is t) : Trace step' s (is.map f) t := by
  induction run with
  | nil s => exact .nil s
  | cons one _ ih => exact .cons (h _ _ _ one) ih

theorem Trace.mono {step' : σ → ι → σ → Prop} (h : ∀ s i t, step s i t → step' s i t) {s t : σ} {is : List ι}
    (run : Trace step s is t) : Trace step' s is t := by
  have mapped := run.map id h
  rwa [List.map_id] at mapped

/-- Where a step has one outcome at most, so has a run. -/
theorem Trace.unique (single : ∀ s i t t', step s i t → step s i t' → t = t') {s t t' : σ} {is : List ι}
    (h : Trace step s is t) (h' : Trace step s is t') : t = t' := by
  induction h with
  | nil s =>
      cases h'
      rfl
  | cons one _ ih =>
      cases h' with
      | cons one' rest =>
          rw [single _ _ _ _ one' one] at rest
          exact ih rest

/-- An inductive invariant holds at the end of every run. -/
theorem Trace.invariant {I : σ → Prop} (preserved : ∀ s i t, I s → step s i t → I t)
    {s t : σ} {is : List ι} (h : Trace step s is t) (start : I s) : I t := by
  induction h with
  | nil s => exact start
  | cons one _ ih => exact ih (preserved _ _ _ start one)

/-- The same for an invariant that also looks at the steps taken so far. -/
theorem Trace.history {I : List ι → σ → Prop}
    (preserved : ∀ past s i t, I past s → step s i t → I (past ++ [i]) t) {s t : σ} {is : List ι}
    (h : Trace step s is t) {past : List ι} (start : I past s) : I (past ++ is) t := by
  induction h generalizing past with
  | nil s => simpa using start
  | cons one _ ih => simpa using ih (preserved _ _ _ _ start one)

/-- The same for the steps of a whole run. -/
theorem Trace.history_nil {I : List ι → σ → Prop}
    (preserved : ∀ past s i t, I past s → step s i t → I (past ++ [i]) t) {s t : σ} {is : List ι}
    (h : Trace step s is t) (start : I [] s) : I is t := h.history preserved start

theorem Reachable.invariant {I : σ → Prop} {start s : σ} (h : Reachable step start s)
    (base : I start) (preserved : ∀ s i t, I s → step s i t → I t) : I s := by
  obtain ⟨is, run⟩ := h
  exact run.invariant preserved base

/-- A run whose steps are guarded is a run. -/
theorem Trace.unguarded {allowed : σ → ι → Prop} {s t : σ} {is : List ι}
    (h : Trace (guarded allowed step) s is t) : Trace step s is t := by
  induction h with
  | nil s => exact .nil s
  | cons one _ ih => exact .cons one.2 ih

/-- A run all of whose labels are allowed is guarded. -/
theorem Trace.guard {allowed : ι → Prop} {s t : σ} {is : List ι} (h : Trace step s is t)
    (all : ∀ i ∈ is, allowed i) : Trace (guarded (fun _ => allowed) step) s is t := by
  induction h with
  | nil s => exact .nil s
  | cons one _ ih =>
      exact .cons ⟨all _ List.mem_cons_self, one⟩ (ih fun i member => all i (List.mem_cons_of_mem _ member))

theorem Reachable.unguarded {allowed : σ → ι → Prop} {s t : σ}
    (h : Reachable (guarded allowed step) s t) : Reachable step s t := by
  obtain ⟨is, run⟩ := h
  exact ⟨is, run.unguarded⟩

theorem Reachable.refl (s : σ) : Reachable step s s := ⟨[], .nil s⟩

theorem Reachable.tail {start s t : σ} {i : ι} (h : Reachable step start s) (one : step s i t) :
    Reachable step start t := by
  obtain ⟨is, run⟩ := h
  exact ⟨is ++ [i], run.append (.cons one (.nil t))⟩

/-- However it goes from `s`, it gets to a state `ends` holds of. -/
inductive Inevitable (goes : σ → σ → Prop) (ends : σ → Prop) : σ → Prop
  | here {s : σ} : ends s → Inevitable goes ends s
  | later {s : σ} : (∃ t, goes s t) → (∀ t, goes s t → Inevitable goes ends t) → Inevitable goes ends s

/-- Where a measure comes down with every step, the end is inevitable. -/
theorem inevitable {κ : Type} {less : κ → κ → Prop} (wf : WellFounded less) {goes : σ → σ → Prop} {ends : σ → Prop}
    (measure : σ → κ) (down : ∀ s t, goes s t → less (measure t) (measure s))
    (stuck : ∀ s, (∀ t, ¬ goes s t) → ends s) (s : σ) : Inevitable goes ends s := by
  induction s using (InvImage.wf measure wf).induction with
  | _ s ih =>
      by_cases on : ∃ t, goes s t
      · exact .later on fun t one => ih t (down s t one)
      · exact .here (stuck s fun t one => on ⟨t, one⟩)

end Runs
