import Mathlib.Algebra.Order.Field.Basic
import Mathlib.Algebra.Order.Floor.Ring
import Mathlib.Tactic.Linarith
import Mathlib.Tactic.Ring

/-! Numbers cut off towards zero behind an offset of a half: below zero the
offset and the cut go the same way. -/
namespace Rounding
section Mean
variable {K : Type} [Field K]

/-- The mean of two values, of which the second has the weight `d`. -/
def mean (a b d : K) : K := a * (1 - d) + b * d

theorem mean_zero (a b : K) : mean a b 0 = a := by
  rw [mean]
  ring

variable [LinearOrder K] [IsStrictOrderedRing K]

/-- A mean is between the two, if its weights are. -/
theorem le_mean {a b d lo : K} (d0 : 0 ≤ d) (d1 : d ≤ 1) (left : lo ≤ a) (right : lo ≤ b) : lo ≤ mean a b d := by
  have first : 0 ≤ (a - lo) * (1 - d) := mul_nonneg (by linarith) (by linarith)
  have second : 0 ≤ (b - lo) * d := mul_nonneg (by linarith) d0
  unfold mean
  linarith

theorem mean_le {a b d hi : K} (d0 : 0 ≤ d) (d1 : d ≤ 1) (left : a ≤ hi) (right : b ≤ hi) : mean a b d ≤ hi := by
  have first : 0 ≤ (hi - a) * (1 - d) := mul_nonneg (by linarith) (by linarith)
  have second : 0 ≤ (hi - b) * d := mul_nonneg (by linarith) d0
  unfold mean
  linarith

end Mean

section Half
variable {K : Type} [Field K] [LinearOrder K] [IsStrictOrderedRing K] [FloorRing K]

def trunc (x : K) : Int := if 0 ≤ x then ⌊x⌋ else ⌈x⌉

/-- What comes of the offset and the cut is never below an integer the value is not below. -/
theorem le_trunc_half {x : K} {lo : Int} (above : (lo : K) ≤ x) : lo ≤ trunc (x + 1 / 2) := by
  unfold trunc
  split
  · exact Int.le_floor.mpr (by linarith)
  · have up := Int.le_ceil (x + 1 / 2)
    have more : (lo : K) ≤ ((⌈x + 1 / 2⌉ : Int) : K) := by linarith
    exact Int.cast_le.mp more

/-- It is above an integer the value is not above just where the value is below
minus a half, and less than a half below that integer. -/
theorem trunc_half_le {x : K} {hi : Int} (below : x ≤ hi) :
    trunc (x + 1 / 2) ≤ hi ↔ ¬ (x < -(1 / 2) ∧ (hi : K) - 1 / 2 < x) := by
  unfold trunc
  split
  next up =>
    refine iff_of_true ?_ fun low => ?_
    · have down := Int.floor_le (x + 1 / 2)
      have less : ((⌊x + 1 / 2⌋ : Int) : K) < ((hi + 1 : Int) : K) := by
        push_cast
        linarith
      have := Int.cast_lt.mp less
      omega
    · linarith [low.1]
  next down =>
    rw [Int.ceil_le]
    constructor
    · intro small low
      linarith [low.2]
    · intro not_both
      by_contra more
      exact not_both ⟨by linarith, by linarith⟩

/-- An integer comes back unless it is below zero. -/
theorem trunc_int_half (z : Int) : trunc ((z : K) + 1 / 2) = z ↔ 0 ≤ z := by
  have least := le_trunc_half (x := (z : K)) (le_refl (z : K))
  have most := trunc_half_le (x := (z : K)) (le_refl (z : K))
  constructor
  · intro same
    by_contra negative
    have low : z ≤ -1 := by omega
    have low' : (z : K) ≤ -1 := by exact_mod_cast low
    exact (most.mp (le_of_eq same)) ⟨by linarith, by linarith⟩
  · intro nonneg
    have nonneg' : (0 : K) ≤ (z : K) := by exact_mod_cast nonneg
    have small := most.mpr fun low => by linarith [low.1]
    omega

end Half
end Rounding
