import MusicPlayer.Speaker.Button

/-! How long the button was held: the milliseconds of `ReadButton` are put
together from two differences, of which the second is cut off towards zero. -/
namespace MusicPlayer.Speaker.Button

def Timeval.micros (t : Timeval) : Int := t.sec * 1000000 + t.usec

/-- The times of a press and of the release behind it, as `gettimeofday` gives them. -/
structure Press where
  old : Timeval
  new : Timeval
  normal : (0 ≤ old.usec ∧ old.usec < 1000000) ∧ 0 ≤ new.usec ∧ new.usec < 1000000
  order : old.micros ≤ new.micros

namespace Press

def duration (p : Press) : Int := p.new.micros - p.old.micros

/-- What `ReadButton` takes for a long press. -/
def long (p : Press) : Prop := 300 < elapsed p.old p.new

instance (p : Press) : Decidable p.long := inferInstanceAs (Decidable (300 < elapsed p.old p.new))

/-- The microseconds go back: a second begins on the way that is not whole. -/
def crosses (p : Press) : Prop := p.new.usec < p.old.usec

/-- The two are judged by their durations: alike where these are equal, and the
second is long if the first is and was no longer. -/
structure Fair (p q : Press) : Prop where
  alike : p.duration = q.duration → (p.long ↔ q.long)
  monotone : p.duration ≤ q.duration → p.long → q.long

end Press

theorem elapsed_ahead {old new : Timeval} (ahead : old.usec ≤ new.usec) :
    elapsed old new = (new.micros - old.micros) / 1000 := by
  unfold elapsed Timeval.micros
  rw [Int.tdiv_eq_ediv_of_nonneg (by omega)]
  omega

/-- Where the microseconds go back, a part of a millisecond counts for a whole one. -/
theorem elapsed_back {old new : Timeval} (back : new.usec < old.usec) :
    elapsed old new = (new.micros - old.micros + 999) / 1000 := by
  have turned : (new.usec - old.usec).tdiv 1000 = -((old.usec - new.usec) / 1000) := by
    have flipped : new.usec - old.usec = -(old.usec - new.usec) := by omega
    rw [flipped, Int.neg_tdiv, Int.tdiv_eq_ediv_of_nonneg (by omega)]
  unfold elapsed Timeval.micros
  rw [turned]
  omega

namespace Press

theorem long_iff (p : Press) : p.long ↔ 301000 ≤ p.duration ∨ (300000 < p.duration ∧ p.crosses) := by
  unfold long crosses duration
  by_cases back : p.new.usec < p.old.usec
  · rw [elapsed_back back]
    omega
  · rw [elapsed_ahead (by omega)]
    omega

/-- It is the press `ReadButton` has seen that is judged: `PrevPlay` is called for a long one. -/
theorem released_long (p : Press) {s : Machine} (held : s.state = .firstPress) (since : s.old = p.old) :
    (released p.new s).line = .inPrevPlay ↔ p.long := by
  unfold released long
  rw [if_pos held, since]
  split
  next late => exact iff_of_true rfl late
  next early => exact iff_of_false nofun early

/-- Two presses are judged by their durations unless both took between 300 and
301 ms and the microseconds go back in one of them only: in the first, or in
either where they took the same time. -/
theorem fair_iff (p q : Press) :
    Fair p q ↔ (300000 < p.duration → p.duration ≤ q.duration → q.duration < 301000 →
      (p.crosses → q.crosses) ∧ (p.duration = q.duration → q.crosses → p.crosses)) := by
  constructor
  · rintro ⟨alike, monotone⟩ more order less
    rw [p.long_iff, q.long_iff] at alike monotone
    constructor
    · intro back
      have long := monotone order (.inr ⟨more, back⟩)
      exact (long.resolve_left (by omega)).2
    · intro same back
      have long := (alike same).mpr (.inr ⟨by omega, back⟩)
      exact (long.resolve_left (by omega)).2
  · intro together
    have monotone : p.duration ≤ q.duration → p.long → q.long := by
      intro order long
      rw [p.long_iff] at long
      rw [q.long_iff]
      by_cases far : 301000 ≤ q.duration
      · exact .inl far
      · obtain ⟨more, back⟩ := long.resolve_left (by omega)
        exact .inr ⟨by omega, (together more order (by omega)).1 back⟩
    refine ⟨fun same => ⟨monotone (by omega), fun long => ?_⟩, monotone⟩
    rw [q.long_iff] at long
    rw [p.long_iff]
    by_cases far : 301000 ≤ q.duration
    · exact .inl (by omega)
    · obtain ⟨more, back⟩ := long.resolve_left (by omega)
      exact .inr ⟨by omega, (together (by omega) (by omega) (by omega)).2 same back⟩

/-- A press of any duration short of a second that begins with a second. -/
def whole (d : Int) (nonneg : 0 ≤ d) (less : d < 1000000) : Press where
  old := ⟨0, 0⟩
  new := ⟨0, d⟩
  normal := ⟨by decide, nonneg, less⟩
  order := by
    simp only [Timeval.micros]
    omega

/-- One that begins with the last microsecond of a second. -/
def across (d : Int) (some_ : 0 < d) (less : d < 1000000) : Press where
  old := ⟨0, 999999⟩
  new := ⟨1, d - 1⟩
  normal := ⟨by decide, by dsimp only; omega, by dsimp only; omega⟩
  order := by
    simp only [Timeval.micros]
    omega

variable {d d' : Int}

theorem duration_whole {nonneg : 0 ≤ d} {less : d < 1000000} : (whole d nonneg less).duration = d := by
  simp only [duration, whole, Timeval.micros]
  omega

theorem duration_across {some_ : 0 < d} {less : d < 1000000} : (across d some_ less).duration = d := by
  simp only [duration, across, Timeval.micros]
  omega

theorem across_crosses {some_ : 0 < d} {less : d < 1000000} : (across d some_ less).crosses := by
  simp only [crosses, across]
  omega

theorem not_whole_crosses {nonneg : 0 ≤ d} {less : d < 1000000} : ¬ (whole d nonneg less).crosses := by
  simp only [crosses, whole]
  omega

/-- By the durations alone: it never matters when two presses began only if the
first took no more than 300 ms or the second, being no shorter, at least 301. -/
theorem durations_fair (d d' : Int) :
    (∀ p q : Press, p.duration = d → q.duration = d' → Fair p q) ↔ (300000 < d → d ≤ d' → 301000 ≤ d') := by
  constructor
  · intro fair more order
    refine Decidable.byContradiction fun less => ?_
    have pair := fair (across d (by omega) (by omega)) (whole d' (by omega) (by omega)) duration_across duration_whole
    have back := ((fair_iff _ _).mp pair (by rw [duration_across]; exact more)
      (by rw [duration_across, duration_whole]; exact order) (by rw [duration_whole]; omega)).1
    exact not_whole_crosses (back across_crosses)
  · rintro apart p q rfl rfl
    exact (fair_iff p q).mpr fun more order less => absurd (apart more order) (by omega)

/-- Of two presses of 300.5 ms the one across a second is long, the other not. -/
theorem across_longer : ¬ Fair (across 300500 (by decide) (by decide)) (whole 300500 (by decide) (by decide)) := by
  intro fair
  have long : (across 300500 (by decide) (by decide)).long := by decide
  exact absurd ((fair.alike rfl).mp long) (by decide)

end Press
end MusicPlayer.Speaker.Button
