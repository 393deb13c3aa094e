import Mathlib.Algebra.Order.Ring.Int
import Mathlib.Tactic.Linarith
import Mathlib.Tactic.Ring

/-! Parts of a width counted in `d`ths: cut off on the way to the width, rounded
to the nearest on the way back. `d` is 100 where they are per cent. -/
namespace Percent

def part (d w p : Int) : Int := (p * w).tdiv d

def share (d w x : Int) : Int := (x * d + w.tdiv 2).tdiv w

variable {d w p x k : Int}

theorem part_eq (p0 : 0 ≤ p) (w0 : 0 < w) : part d w p = p * w / d :=
  Int.tdiv_eq_ediv_of_nonneg (Int.mul_nonneg p0 (by omega))

theorem share_eq (d0 : 0 < d) (w0 : 0 < w) (x0 : 0 ≤ x) : share d w x = (x * d + w / 2) / w := by
  have half : w.tdiv 2 = w / 2 := Int.tdiv_eq_ediv_of_nonneg (by omega)
  have scaled : 0 ≤ x * d := Int.mul_nonneg x0 (by omega)
  rw [share, half, Int.tdiv_eq_ediv_of_nonneg (by omega)]

theorem part_nonneg (d0 : 0 < d) (p0 : 0 ≤ p) (w0 : 0 < w) : 0 ≤ part d w p := by
  rw [part_eq p0 w0]
  exact Int.ediv_nonneg (Int.mul_nonneg p0 (by omega)) (by omega)

/-- The share is the level to the nearest `d`th, half of one rounded up. -/
theorem share_bounds (d0 : 0 < d) (w0 : 0 < w) (x0 : 0 ≤ x) :
    share d w x * w ≤ x * d + w / 2 ∧ x * d + w / 2 < (share d w x + 1) * w := by
  rw [share_eq d0 w0 x0]
  exact ⟨Int.ediv_mul_le _ (by omega), Int.lt_ediv_add_one_mul_self _ w0⟩

/-- The whole width is `d` parts, and fewer are less. -/
theorem part_whole (d0 : 0 < d) (w0 : 0 < w) : part d w d = w := by
  rw [part_eq (by omega) w0, Int.mul_ediv_cancel_left _ (by omega)]

theorem part_lt (d0 : 0 < d) (w0 : 0 < w) (p0 : 0 ≤ p) (less : p < d) : part d w p < w := by
  rw [part_eq p0 w0]
  refine Int.ediv_lt_of_lt_mul d0 ?_
  rw [Int.mul_comm w d]
  exact Int.mul_lt_mul_of_pos_right less w0

theorem part_zero : part d w 0 = 0 := by
  rw [part, Int.zero_mul, Int.zero_tdiv]

theorem share_whole (d0 : 0 < d) (w0 : 0 < w) : share d w w = d := by
  have half : w / 2 < w := by omega
  rw [share_eq d0 w0 (by omega), Int.add_comm, Int.add_mul_ediv_left _ _ (by omega),
    Int.ediv_eq_zero_of_lt (by omega) half, Int.zero_add]

theorem share_nonneg (d0 : 0 < d) (w0 : 0 < w) (x0 : 0 ≤ x) : 0 ≤ share d w x := by
  have scaled : 0 ≤ x * d := Int.mul_nonneg x0 (by omega)
  rw [share_eq d0 w0 x0]
  exact Int.ediv_nonneg (by omega) (by omega)

/-- A share comes back from its part where what was cut off is at most half a share's worth. -/
theorem share_part (d0 : 0 < d) (w0 : 0 < w) (p0 : 0 ≤ p) :
    share d w (part d w p) = p ↔ p * w % d ≤ w / 2 := by
  have cut : part d w p * d = p * w - p * w % d := by
    rw [part_eq p0 w0]
    have whole := Int.ediv_mul_add_emod (p * w) d
    omega
  have rest : 0 ≤ p * w % d := Int.emod_nonneg _ (by omega)
  rw [share_eq d0 w0 (part_nonneg d0 p0 w0), cut]
  have shifted : p * w - p * w % d + w / 2 = (w / 2 - p * w % d) + p * w := by omega
  rw [shifted, Int.add_mul_ediv_right _ _ (by omega)]
  constructor
  · intro same
    have none_ : (w / 2 - p * w % d) / w = 0 := by omega
    have lower := Int.ediv_mul_le (w / 2 - p * w % d) (show w ≠ 0 by omega)
    rw [none_, Int.zero_mul] at lower
    omega
  · intro small
    rw [Int.ediv_eq_zero_of_lt (by omega) (by omega), Int.zero_add]

/-- Some shares more than those of a level are no lower level. -/
theorem le_part_share (d0 : 0 < d) (w0 : 0 < w) (x0 : 0 ≤ x) (k1 : 1 ≤ k) :
    x ≤ part d w (share d w x + k) := by
  have nonneg := share_nonneg d0 w0 x0
  obtain ⟨-, above⟩ := share_bounds d0 w0 x0
  rw [part_eq (by omega) w0]
  refine (Int.le_ediv_iff_mul_le d0).mpr ?_
  have more : (share d w x + 1) * w ≤ (share d w x + k) * w := Int.mul_le_mul_of_nonneg_right (by omega) (by omega)
  omega

/-- Some shares fewer are no higher one. -/
theorem part_share_le (d0 : 0 < d) (w0 : 0 < w) (x0 : 0 ≤ x) (k1 : 1 ≤ k) (enough : k ≤ share d w x) :
    part d w (share d w x - k) ≤ x := by
  obtain ⟨below, -⟩ := share_bounds d0 w0 x0
  rw [part_eq (by omega) w0]
  have fewer : (share d w x - k) * w ≤ (share d w x - 1) * w := Int.mul_le_mul_of_nonneg_right (by omega) (by omega)
  have one : (share d w x - 1) * w = share d w x * w - w := by ring
  have cut := Int.ediv_mul_le ((share d w x - k) * w) (show d ≠ 0 by omega)
  have scaled : (share d w x - k) * w / d * d ≤ x * d := by omega
  exact Int.le_of_mul_le_mul_right scaled d0

end Percent
