import Mathlib.Order.Interval.Set.Defs
import MusicPlayer.Lib.Percent
import MusicPlayer.Speaker.Modes

/-! The volume: per cent for the player, levels of the mixer underneath. -/
namespace MusicPlayer.Speaker
open Percent Program

/-- The range of the mixer's playback volume. -/
structure Mixer where
  minv : Int
  maxv : Int
  wide : minv < maxv

namespace Mixer

/-- The level `SetVolume` sets. -/
def setVolume (m : Mixer) (volume : Int) : Int := m.minv + (volume * (m.maxv - m.minv)).tdiv 100

/-- The percentage `GetVolume` reports of a level. -/
def getVolume (m : Mixer) (volume : Int) : Int :=
  ((volume - m.minv) * 100 + (m.maxv - m.minv).tdiv 2).tdiv (m.maxv - m.minv)

def width (m : Mixer) : Int := m.maxv - m.minv

/-- The calls of the player with the mixer behind them, its level the state. -/
def serve (m : Mixer) (w : Surroundings) (level : Int) : (op : Call) → op.Answer × Int
  | .getVolume => (m.getVolume level, level)
  | .setVolume volume => ((), m.setVolume volume)
  | op => (w.answer none op, level)

/-- The level `UpVolume` leaves, and the one `DownVolume` does. -/
def up (m : Mixer) (level : Int) : Int :=
  if m.getVolume level < 90 then m.setVolume (m.getVolume level + 10) else level

def down (m : Mixer) (level : Int) : Int :=
  if m.getVolume level > 10 then m.setVolume (m.getVolume level - 10) else level

theorem upVolume_up (m : Mixer) (w : Surroundings) (s : Memory) (level : Int) :
    (upVolume s).interpret (m.serve w) level = .ok (s, m.up level) := by
  have asked : (upVolume s).interpret (m.serve w) level =
      (if m.getVolume level < 90 then .call s (.setVolume (m.getVolume level + 10)) fun _ s => .done s
        else .done s : Code).interpret (m.serve w) level := rfl
  rw [asked, up]
  split <;> rfl

theorem downVolume_down (m : Mixer) (w : Surroundings) (s : Memory) (level : Int) :
    (downVolume s).interpret (m.serve w) level = .ok (s, m.down level) := by
  have asked : (downVolume s).interpret (m.serve w) level =
      (if m.getVolume level > 10 then .call s (.setVolume (m.getVolume level - 10)) fun _ s => .done s
        else .done s : Code).interpret (m.serve w) level := rfl
  rw [asked, down]
  split <;> rfl

/-- `UpVolume` and `DownVolume` are steps of ten per cent that end at the two
ends of the range. -/
structure StepsWell (m : Mixer) (level : Int) : Prop where
  up : m.up level = m.setVolume (min 100 (m.getVolume level + 10))
  down : m.down level = m.setVolume (max 0 (m.getVolume level - 10))
  rises : level ≤ m.up level
  falls : m.down level ≤ level
  top : ∃ n, m.up^[n] level = m.maxv
  bottom : ∃ n, m.down^[n] level = m.minv

/-! ## One step -/

variable (m : Mixer) {level volume : Int}

theorem width_pos : 0 < m.width := by
  have := m.wide
  unfold width
  omega

theorem setVolume_eq (volume : Int) : m.setVolume volume = m.minv + part 100 m.width volume := rfl

theorem getVolume_eq (level : Int) : m.getVolume level = share 100 m.width (level - m.minv) := rfl

theorem getVolume_nonneg (low : m.minv ≤ level) : 0 ≤ m.getVolume level := by
  rw [getVolume_eq]
  exact share_nonneg (by decide) m.width_pos (by omega)

theorem setVolume_hundred : m.setVolume 100 = m.maxv := by
  rw [setVolume_eq, part_whole (by decide) m.width_pos, width]
  omega

theorem setVolume_zero : m.setVolume 0 = m.minv := by
  rw [setVolume_eq, part_zero, Int.add_zero]

theorem up_exact (level : Int) :
    m.up level = m.setVolume (min 100 (m.getVolume level + 10)) ↔ m.getVolume level < 90 ∨ level = m.maxv := by
  unfold up
  split
  next below =>
    rw [Int.min_eq_right (by omega)]
    exact iff_of_true rfl (.inl below)
  next above =>
    rw [Int.min_eq_left (by omega), setVolume_hundred]
    exact ⟨.inr, fun either => either.resolve_left above⟩

theorem down_exact (level : Int) :
    m.down level = m.setVolume (max 0 (m.getVolume level - 10)) ↔ 10 < m.getVolume level ∨ level = m.minv := by
  unfold down
  split
  next above =>
    rw [Int.max_eq_right (by omega)]
    exact iff_of_true rfl (.inl above)
  next below =>
    rw [Int.max_eq_left (by omega), setVolume_zero]
    exact ⟨.inr, fun either => either.resolve_left below⟩

theorem le_up (low : m.minv ≤ level) : level ≤ m.up level := by
  unfold up
  split
  next =>
    have more := le_part_share (d := 100) (k := 10) (by decide) m.width_pos (show 0 ≤ level - m.minv by omega)
      (by decide)
    rw [setVolume_eq, getVolume_eq]
    omega
  next => exact Int.le_refl _

theorem down_le (low : m.minv ≤ level) : m.down level ≤ level := by
  unfold down
  split
  next above =>
    have less := part_share_le (d := 100) (k := 10) (by decide) m.width_pos (show 0 ≤ level - m.minv by omega)
      (by decide) (by rw [← getVolume_eq]; omega)
    rw [setVolume_eq, getVolume_eq]
    omega
  next => exact Int.le_refl _

/-! ## Many steps -/

/-- `UpVolume` comes to no end it has not started from: it stops at nine tenths. -/
theorem up_lt (low : m.minv ≤ level) (less : level < m.maxv) : m.up level < m.maxv := by
  unfold up
  split
  next below =>
    have nonneg := m.getVolume_nonneg low
    have short := part_lt (d := 100) (by decide) m.width_pos (show 0 ≤ m.getVolume level + 10 by omega) (by omega)
    rw [setVolume_eq]
    unfold width at short ⊢
    omega
  next => exact less

theorem top_iff (low : m.minv ≤ level) (high : level ≤ m.maxv) :
    (∃ n, m.up^[n] level = m.maxv) ↔ level = m.maxv := by
  constructor
  · rintro ⟨n, reached⟩
    by_contra other
    have keeps : Set.MapsTo m.up (Set.Ico m.minv m.maxv) (Set.Ico m.minv m.maxv) := fun level inside =>
      ⟨inside.1.trans (m.le_up inside.1), m.up_lt inside.1 inside.2⟩
    have below := (keeps.iterate n ⟨low, by omega⟩).2
    omega
  · intro same
    exact ⟨0, same⟩

/-- From a hundred levels on, one per cent is a level at least: `DownVolume`
comes to the lowest level only from there. -/
theorem lt_down (fine : 100 ≤ m.width) (above : m.minv < level) : m.minv < m.down level := by
  unfold down
  split
  next =>
    have one : part 100 m.width 1 ≤ part 100 m.width (m.getVolume level - 10) := by
      rw [part_eq (by decide) m.width_pos, part_eq (by omega) m.width_pos]
      exact Int.ediv_le_ediv (by decide) (Int.mul_le_mul_of_nonneg_right (by omega) (by omega))
    have some_ : 1 ≤ part 100 m.width 1 := by
      rw [part_eq (by decide) m.width_pos]
      omega
    rw [setVolume_eq]
    omega
  next => exact above

theorem bottom_iff (fine : 100 ≤ m.width) (low : m.minv ≤ level) :
    (∃ n, m.down^[n] level = m.minv) ↔ level = m.minv := by
  constructor
  · rintro ⟨n, reached⟩
    by_contra other
    have keeps : Set.MapsTo m.down (Set.Ioi m.minv) (Set.Ioi m.minv) := fun _ => m.lt_down fine
    have above : m.minv < m.down^[n] level := keeps.iterate n (show m.minv < level by omega)
    omega
  · intro same
    exact ⟨0, same⟩

/-! ## Coarse ranges -/

/-- `DownVolume` on the distance from the lowest level. -/
def fall (width distance : Int) : Int :=
  if share 100 width distance > 10 then part 100 width (share 100 width distance - 10) else distance

theorem down_fall (distance : Int) : m.down (m.minv + distance) = m.minv + fall m.width distance := by
  have same : m.minv + distance - m.minv = distance := by omega
  unfold down fall
  rw [getVolume_eq, same]
  split <;> rfl

theorem iterate_fall (n : Nat) (distance : Int) :
    m.down^[n] (m.minv + distance) = m.minv + (fall m.width)^[n] distance := by
  induction n generalizing distance with
  | zero => rfl
  | succ n ih =>
      rw [Function.iterate_succ_apply, Function.iterate_succ_apply, down_fall]
      exact ih _

/-- The widths at which steps of ten per cent happen to lead from the highest
level to the lowest. -/
def coarse : List Int := [1, 2, 3, 4, 5, 6, 7, 8, 9, 12, 14, 16, 18, 21, 24, 27, 31, 32, 36, 45, 54, 61, 63]

/-- Steps that have come to rest tell which point of rest is reached. -/
theorem iterate_settled {α : Type} {f : α → α} {a z : α} {n : Nat} (settled : f (f^[n] a) = f^[n] a)
    (rest : f z = z) : (∃ k, f^[k] a = z) ↔ f^[n] a = z := by
  constructor
  · rintro ⟨k, reached⟩
    rcases Nat.le_total k n with before | after
    · obtain ⟨more, rfl⟩ := Nat.exists_eq_add_of_le' before
      rw [Function.iterate_add_apply, reached, Function.iterate_fixed rest]
    · obtain ⟨more, rfl⟩ := Nat.exists_eq_add_of_le' after
      rw [Function.iterate_add_apply, Function.iterate_fixed settled] at reached
      exact reached
  · intro reached
    exact ⟨n, reached⟩

theorem fall_settles : ∀ width : Nat, width < 100 → 0 < width →
    fall width ((fall width)^[12] width) = (fall width)^[12] width ∧ fall width 0 = 0 ∧
      ((fall width)^[12] width = 0 ↔ (width : Int) ∈ coarse) := by
  decide +kernel

theorem coarse_lt {width : Int} (h : width ∈ coarse) : width < 100 := by
  revert width
  decide

theorem bottom_of_top : (∃ n, m.down^[n] m.maxv = m.minv) ↔ m.width ∈ coarse := by
  by_cases fine : 100 ≤ m.width
  · rw [m.bottom_iff fine (Int.le_of_lt m.wide)]
    refine iff_of_false (fun same => absurd m.wide (by omega)) fun member => ?_
    have := coarse_lt member
    omega
  · have wide := m.width_pos
    obtain ⟨k, same⟩ := Int.eq_ofNat_of_zero_le (Int.le_of_lt wide)
    obtain ⟨settled, rest, decided⟩ := fall_settles k (by omega) (by omega)
    have top : m.maxv = m.minv + m.width := by
      unfold width
      omega
    have falls : ∀ n, m.down^[n] m.maxv = m.minv ↔ (fall m.width)^[n] m.width = 0 := by
      intro n
      rw [top, iterate_fall]
      omega
    simp only [falls]
    rw [same, iterate_settled settled rest, decided]

end Mixer

/-- The steps are what they should be exactly at the top of a range of one of
these widths; part by part: going up ends short of the top, and going down ends
short of the bottom wherever the range has a hundred levels. -/
theorem volume_steps_iff (m : Mixer) {level : Int} (low : m.minv ≤ level) (high : level ≤ m.maxv) :
    (m.StepsWell level ↔ level = m.maxv ∧ m.width ∈ Mixer.coarse) ∧
      (m.up level = m.setVolume (min 100 (m.getVolume level + 10)) ↔ m.getVolume level < 90 ∨ level = m.maxv) ∧
      (m.down level = m.setVolume (max 0 (m.getVolume level - 10)) ↔ 10 < m.getVolume level ∨ level = m.minv) ∧
      (level ≤ m.up level ∧ m.down level ≤ level) ∧
      ((∃ n, m.up^[n] level = m.maxv) ↔ level = m.maxv) ∧
      (100 ≤ m.width → ((∃ n, m.down^[n] level = m.minv) ↔ level = m.minv)) := by
  refine ⟨?_, m.up_exact level, m.down_exact level, ⟨m.le_up low, m.down_le low⟩, m.top_iff low high,
    fun fine => m.bottom_iff fine low⟩
  constructor
  · intro well
    have top := (m.top_iff low high).mp well.top
    have bottom := well.bottom
    rw [top] at bottom
    exact ⟨top, m.bottom_of_top.mp bottom⟩
  · rintro ⟨rfl, member⟩
    have full : m.getVolume m.maxv = 100 := share_whole (by decide) m.width_pos
    exact ⟨(m.up_exact _).mpr (.inr rfl), (m.down_exact _).mpr (.inl (by rw [full]; decide)), m.le_up low,
      m.down_le low, ⟨0, rfl⟩, m.bottom_of_top.mpr member⟩

/-- A mixer of nine steps, at the highest. -/
theorem nine_stepsWell : Mixer.StepsWell ⟨0, 9, by decide⟩ 9 :=
  (volume_steps_iff ⟨0, 9, by decide⟩ (by decide) (by decide)).1.mpr ⟨rfl, by decide⟩

/-- At 95 of 100 `UpVolume` does nothing: it has worked out 100 and does not set it. -/
theorem ninetyFive_stays : ¬ Mixer.StepsWell ⟨0, 100, by decide⟩ 95 := by
  intro well
  have up := well.up
  exact absurd up (by decide)

/-! ## There and back -/

theorem Mixer.roundTrip (m : Mixer) {p : Int} (p0 : 0 ≤ p) :
    m.getVolume (m.setVolume p) = p ↔ p * m.width % 100 ≤ m.width / 2 := by
  have distance : m.minv + part 100 m.width p - m.minv = part 100 m.width p := by omega
  rw [m.getVolume_eq, m.setVolume_eq, distance]
  exact share_part (by decide) m.width_pos p0

/-- The most a conversion cuts off is all but the common divisor. -/
theorem cut_most : ∀ k : Nat, k < 100 → (∃ p : Nat, p ≤ 100 ∧ p * k % 100 = 100 - k.gcd 100) ∧
    ∀ p : Nat, p ≤ 100 → p * k % 100 ≤ 100 - k.gcd 100 := by
  decide +kernel

/-- A percentage set is reported again exactly where what `SetVolume` cuts off is
no more than half of what `GetVolume` rounds to; a range reports all of them
exactly where this holds of the most it can cut off. -/
theorem volume_roundTrip_iff (m : Mixer) :
    (∀ p, 0 ≤ p → (m.getVolume (m.setVolume p) = p ↔ p * m.width % 100 ≤ m.width / 2)) ∧
      ((∀ p, 0 ≤ p → p ≤ 100 → m.getVolume (m.setVolume p) = p) ↔
        100 - (m.width.gcd 100 : Int) ≤ m.width / 2) := by
  refine ⟨fun p p0 => m.roundTrip p0, ?_⟩
  have wide := m.width_pos
  obtain ⟨k, same⟩ := Int.eq_ofNat_of_zero_le (Int.le_of_lt wide)
  obtain ⟨⟨q, within, most⟩, all⟩ := cut_most (k % 100) (Nat.mod_lt _ (by decide))
  have divisor : (m.width.gcd 100 : Int) = ((k % 100).gcd 100 : Nat) := by
    rw [same, ← Nat.gcd_rec, Nat.gcd_comm]
    rfl
  have cut : ∀ p : Nat, (p : Int) * m.width % 100 = ((p * (k % 100) % 100 : Nat) : Int) := by
    intro p
    rw [same, Nat.mul_mod_mod]
    rfl
  have small : (k % 100).gcd 100 ≤ 100 := Nat.gcd_le_right _ (by decide)
  rw [divisor]
  constructor
  · intro every
    have round := (m.roundTrip (p := q) (by omega)).mp (every q (by omega) (by omega))
    rw [cut, most] at round
    omega
  · intro enough p p0 p100
    obtain ⟨q, rfl⟩ := Int.eq_ofNat_of_zero_le p0
    have under := all q (by omega)
    refine (m.roundTrip p0).mpr ?_
    rw [cut]
    omega

theorem fiftyFive_reported :
    Mixer.getVolume ⟨0, 200, by decide⟩ (Mixer.setVolume ⟨0, 200, by decide⟩ 55) = 55 :=
  ((volume_roundTrip_iff ⟨0, 200, by decide⟩).1 55 (by decide)).mpr (by decide)

/-- Of 101 levels 99 per cent is level 99, and level 99 is 98 per cent. -/
theorem ninetyNine_lost : Mixer.getVolume ⟨0, 101, by decide⟩ (Mixer.setVolume ⟨0, 101, by decide⟩ 99) ≠ 99 := by
  decide

/-! ## Machine integers -/

/-- The values of a `long`. -/
def long (z : Int) : Prop := -9223372036854775808 ≤ z ∧ z ≤ 9223372036854775807

/-- No step of the two conversions leaves `long` where a hundred and one widths fit it. -/
theorem conversions_long (m : Mixer) {level p : Int} (ends : long m.minv ∧ long m.maxv)
    (fits : 101 * m.width ≤ 9223372036854775807) (low : m.minv ≤ level) (high : level ≤ m.maxv)
    (p0 : 0 ≤ p) (p100 : p ≤ 100) :
    long (p * m.width) ∧ long (m.setVolume p) ∧ long ((level - m.minv) * 100) ∧
      long ((level - m.minv) * 100 + m.width / 2) := by
  have wide := m.width_pos
  have most : p * m.width ≤ 100 * m.width := Int.mul_le_mul_of_nonneg_right p100 (by omega)
  have least : 0 ≤ p * m.width := Int.mul_nonneg p0 (by omega)
  have level_ : m.setVolume p = m.minv + p * m.width / 100 := by
    rw [m.setVolume_eq, part_eq p0 wide]
  have within : level - m.minv ≤ m.width := by
    unfold Mixer.width
    omega
  have top : m.minv + m.width = m.maxv := by
    unfold Mixer.width
    omega
  unfold long at *
  rw [level_]
  refine ⟨⟨?_, ?_⟩, ⟨?_, ?_⟩, ⟨?_, ?_⟩, ⟨?_, ?_⟩⟩ <;> omega

end MusicPlayer.Speaker
