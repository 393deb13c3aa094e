import Mathlib.Data.Rat.Floor
import Mathlib.Tactic.FieldSimp
import MusicPlayer.Lib.Outcome
import MusicPlayer.Lib.Rounding

/-! The resampling of the speech recognition program, in exact arithmetic. -/
namespace MusicPlayer.Asr
open Rounding

inductive Fault
  | outOfBounds
  | divideByZero
  | castOverflow
  deriving DecidableEq, Repr

/-- The samples of one `snd_pcm_readi`: `int16_t`, and one at least. -/
structure Signal where
  values : List Int
  some_ : values ≠ []
  fits : ∀ s ∈ values, -32768 ≤ s ∧ s ≤ 32767

def read (input : List Int) (i : Nat) : Except Fault Int :=
  match input[i]? with
  | some s => .ok s
  | none => .error .outOfBounds

/-- A sample that has not been written is `none`. -/
def write (output : List (Option Int)) (i : Nat) (s : Int) : Except Fault (List (Option Int)) :=
  if i < output.length then .ok (output.set i (some s)) else .error .outOfBounds

def divide (x y : ℚ) : Except Fault ℚ := if y = 0 then .error .divideByZero else .ok (x / y)

/-- The cast to `int16_t`. -/
def int16 (x : ℚ) : Except Fault Int :=
  if -32768 ≤ trunc x ∧ trunc x ≤ 32767 then .ok (trunc x) else .error .castOverflow

/-- What a pass of the loop puts into `output[i]`. -/
def sample (input : List Int) (inLen : Nat) (ratio : ℚ) (i : Nat) : Except Fault Int :=
  let pos := i * ratio
  let idx := ⌊pos⌋.toNat
  let deci := pos - idx
  if inLen - 1 ≤ idx then read input (inLen - 1)
  else do
    let a ← read input idx
    let b ← read input (idx + 1)
    int16 (a * (1 - deci) + b * deci + 1 / 2)

/-- The loop with this many passes left, from `i` on. -/
def resampleFrom (input : List Int) (inLen : Nat) (ratio : ℚ) :
    Nat → Nat → List (Option Int) → Except Fault (List (Option Int))
  | 0, _, output => .ok output
  | left + 1, i, output => do
      let s ← sample input inLen ratio i
      let output ← write output i s
      resampleFrom input inLen ratio left (i + 1) output

def resampleLinear (input : List Int) (inLen : Nat) (output : List (Option Int)) (outLen : Nat) :
    Except Fault (List (Option Int)) :=
  if inLen = 0 ∨ outLen = 0 then .ok output
  else do
    let output ← if inLen = 1 ∨ outLen = 1 then do
        let s ← read input 0
        write output 0 s
      else .ok output
    let ratio ← divide ((inLen : ℚ) - 1) ((outLen : ℚ) - 1)
    resampleFrom input inLen ratio outLen 0 output

/-! ## What it is for -/

namespace Signal
variable (x : Signal) (outLen i : Nat)

/-- The place of an output sample between those of the input. -/
def position : ℚ := i * (((x.values.length : ℚ) - 1) / ((outLen : ℚ) - 1))

/-- The one or two samples that output `i` is computed from. -/
def sources : List Int := (x.values.drop ⌊x.position outLen i⌋.toNat).take 2

/-- The weight of the second one. -/
def weight : ℚ := Int.fract (x.position outLen i)

/-- The call comes back with exactly the samples `out` written, each of them is
between its sources, and a signal that is constant or keeps its length is kept. -/
structure Interpolates (out : List Int) : Prop where
  runs : resampleLinear x.values x.values.length (List.replicate outLen none) outLen = .ok (out.map some)
  length : out.length = outLen
  between : ∀ i (inside : i < out.length) (lo hi : Int),
    (∀ s ∈ x.sources outLen i, lo ≤ s ∧ s ≤ hi) → lo ≤ out[i] ∧ out[i] ≤ hi
  constant : ∀ c, (∀ s ∈ x.values, s = c) → ∀ s ∈ out, s = c
  same : outLen = x.values.length → out = x.values

/-- What an output sample is. -/
def value : Int :=
  match x.sources outLen i with
  | [a, b] => trunc (mean (a : ℚ) b (x.weight outLen i) + 1 / 2)
  | [a] => a
  | _ => 0

/-! ## The place of a sample -/

variable {x outLen i}

theorem length_pos : 0 < x.values.length := List.length_pos_iff.mpr x.some_

theorem position_nonneg (two : 2 ≤ outLen) : 0 ≤ x.position outLen i := by
  have some_ : (1 : ℚ) ≤ x.values.length := by exact_mod_cast x.length_pos
  have more : (2 : ℚ) ≤ outLen := by exact_mod_cast two
  unfold position
  refine mul_nonneg (by positivity) (div_nonneg ?_ ?_) <;> linarith

theorem position_le (two : 2 ≤ outLen) (inside : i < outLen) :
    x.position outLen i ≤ (x.values.length : ℚ) - 1 := by
  have some_ : (1 : ℚ) ≤ x.values.length := by exact_mod_cast x.length_pos
  have more : (2 : ℚ) ≤ outLen := by exact_mod_cast two
  have last : (i : ℚ) + 1 ≤ outLen := by exact_mod_cast inside
  unfold position
  rw [mul_div_assoc', div_le_iff₀ (by linarith), mul_comm]
  exact mul_le_mul_of_nonneg_left (by linarith) (by linarith)

/-- There are one or two sources: the last sample, or two that follow each other. -/
theorem sources_cases (two : 2 ≤ outLen) (inside : i < outLen) :
    (x.values.length - 1 ≤ ⌊x.position outLen i⌋.toNat ∧
      ∃ a, x.values[x.values.length - 1]? = some a ∧ x.sources outLen i = [a]) ∨
    (¬ x.values.length - 1 ≤ ⌊x.position outLen i⌋.toNat ∧ ∃ a b,
      x.values[⌊x.position outLen i⌋.toNat]? = some a ∧ x.values[⌊x.position outLen i⌋.toNat + 1]? = some b ∧
      x.sources outLen i = [a, b]) := by
  have some_ := x.length_pos
  have nonneg := position_nonneg (x := x) (i := i) two
  have bound : ⌊x.position outLen i⌋ ≤ (x.values.length : Int) - 1 := by
    have below := (Int.floor_le (x.position outLen i)).trans (position_le two inside)
    exact_mod_cast below
  have small : ⌊x.position outLen i⌋.toNat ≤ x.values.length - 1 := by omega
  unfold sources
  generalize ⌊x.position outLen i⌋.toNat = idx at *
  by_cases last : x.values.length - 1 ≤ idx
  · obtain rfl : idx = x.values.length - 1 := by omega
    have inside' : x.values.length - 1 < x.values.length := by omega
    refine .inl ⟨last, _, List.getElem?_eq_getElem inside', ?_⟩
    have rest : x.values.drop (x.values.length - 1 + 1) = [] := List.drop_of_length_le (by omega)
    rw [List.drop_eq_getElem_cons inside', rest]
    rfl
  · have first : idx < x.values.length := by omega
    have second : idx + 1 < x.values.length := by omega
    refine .inr ⟨last, _, _, List.getElem?_eq_getElem first, List.getElem?_eq_getElem second, ?_⟩
    rw [List.drop_eq_getElem_cons first, List.drop_eq_getElem_cons second]
    rfl

theorem weight_bounds : 0 ≤ x.weight outLen i ∧ x.weight outLen i ≤ 1 :=
  ⟨Int.fract_nonneg _, (Int.fract_lt_one _).le⟩

/-! ## One sample -/

theorem read_eq {input : List Int} {i : Nat} {s : Int} (h : input[i]? = some s) : read input i = .ok s := by
  rw [read, h]

/-- The cast never leaves `int16_t`: nothing is more than one above its sources, and that below zero. -/
theorem int16_mean {a b : Int} {d : ℚ} (d0 : 0 ≤ d) (d1 : d ≤ 1) (left : -32768 ≤ a ∧ a ≤ 32767)
    (right : -32768 ≤ b ∧ b ≤ 32767) : int16 (mean (a : ℚ) b d + 1 / 2) = .ok (trunc (mean (a : ℚ) b d + 1 / 2)) := by
  have low : ((-32768 : Int) : ℚ) ≤ mean (a : ℚ) b d :=
    le_mean d0 d1 (by exact_mod_cast left.1) (by exact_mod_cast right.1)
  have high : mean (a : ℚ) b d ≤ ((32767 : Int) : ℚ) :=
    mean_le d0 d1 (by exact_mod_cast left.2) (by exact_mod_cast right.2)
  have most : trunc (mean (a : ℚ) b d + 1 / 2) ≤ 32767 := by
    refine (trunc_half_le high).mpr fun both => ?_
    push_cast at both
    linarith [both.1, both.2]
  rw [int16, if_pos ⟨le_trunc_half low, most⟩]

/-- Every pass of the loop comes to its value. -/
theorem sample_eq (two : 2 ≤ outLen) (inside : i < outLen) :
    sample x.values x.values.length (((x.values.length : ℚ) - 1) / ((outLen : ℚ) - 1)) i =
      .ok (x.value outLen i) := by
  have nonneg := position_nonneg (x := x) (i := i) two
  have floor : ((⌊x.position outLen i⌋.toNat : Nat) : ℚ) = ((⌊x.position outLen i⌋ : Int) : ℚ) := by
    have same : ((⌊x.position outLen i⌋.toNat : Nat) : Int) = ⌊x.position outLen i⌋ :=
      Int.toNat_of_nonneg (Int.floor_nonneg.mpr nonneg)
    exact_mod_cast congrArg (Int.cast : Int → ℚ) same
  have place : (i : ℚ) * (((x.values.length : ℚ) - 1) / ((outLen : ℚ) - 1)) = x.position outLen i := rfl
  unfold sample value
  rw [place]
  dsimp only
  rcases sources_cases two inside with ⟨last, a, here, sources⟩ | ⟨more, a, b, here, next, sources⟩
  · rw [if_pos last, sources]
    exact read_eq here
  · rw [if_neg more, sources, read_eq here, read_eq next, floor]
    exact int16_mean weight_bounds.1 weight_bounds.2 (x.fits a (List.mem_of_getElem? here))
      (x.fits b (List.mem_of_getElem? next))

/-! ## The whole loop -/

theorem write_eq {done output : List (Option Int)} {old : Option Int} (s : Int) :
    write (done ++ old :: output) done.length s = .ok (done ++ some s :: output) := by
  rw [write, if_pos (by simp), List.set_append_right _ _ (Nat.le_refl _), Nat.sub_self, List.set_cons_zero]

/-- A loop whose passes all come to a value writes these one after the other. -/
theorem resampleFrom_eq {input : List Int} {inLen : Nat} {ratio : ℚ} {f : Nat → Int} {left : Nat} {done output : List (Option Int)}
    (room : output.length = left)
    (values : ∀ i, done.length ≤ i → i < done.length + left → sample input inLen ratio i = .ok (f i)) :
    resampleFrom input inLen ratio left done.length (done ++ output) =
      .ok (done ++ (List.range' done.length left).map fun i => some (f i)) := by
  induction left generalizing done output with
  | zero =>
      rw [List.length_eq_zero_iff.mp room]
      rfl
  | succ left ih =>
      obtain ⟨old, rest, rfl⟩ := List.exists_cons_of_length_eq_add_one room
      have next : (done ++ [some (f done.length)]).length = done.length + 1 := by simp
      have later : resampleFrom input inLen ratio left (done ++ [some (f done.length)]).length
          ((done ++ [some (f done.length)]) ++ rest) =
            .ok (done ++ [some (f done.length)] ++
              (List.range' (done ++ [some (f done.length)]).length left).map fun i => some (f i)) :=
        ih (by simpa using room) fun i after below => values i (by omega) (by omega)
      rw [resampleFrom, values done.length (Nat.le_refl _) (by omega), Except.ok_bind, write_eq, Except.ok_bind,
        List.range'_succ, List.map_cons]
      simpa [next] using later

/-- All of an output. -/
def resampled (x : Signal) (outLen : Nat) : List Int := (List.range outLen).map (x.value outLen)

theorem resampleLinear_eq (two : 2 ≤ outLen) :
    resampleLinear x.values x.values.length (List.replicate outLen none) outLen =
      .ok ((x.resampled outLen).map some) := by
  have some_ := x.length_pos
  have apart : ((outLen : ℚ) - 1) ≠ 0 := by
    have more : (2 : ℚ) ≤ outLen := by exact_mod_cast two
    linarith
  have loop : ∀ output : List (Option Int), output.length = outLen →
      resampleFrom x.values x.values.length (((x.values.length : ℚ) - 1) / ((outLen : ℚ) - 1)) outLen 0 output =
        .ok ((x.resampled outLen).map some) := by
    intro output room
    have values : ∀ i, 0 ≤ i → i < 0 + outLen →
        sample x.values x.values.length (((x.values.length : ℚ) - 1) / ((outLen : ℚ) - 1)) i = .ok (x.value outLen i) :=
      fun i _ inside => sample_eq two (by omega)
    have whole : resampleFrom x.values x.values.length (((x.values.length : ℚ) - 1) / ((outLen : ℚ) - 1)) outLen
        0 ([] ++ output) = .ok ([] ++ (List.range' 0 outLen).map fun i => some (x.value outLen i)) :=
      @resampleFrom_eq _ _ _ _ _ [] _ room values
    simpa [resampled, List.range_eq_range', Function.comp_def] using whole
  rw [resampleLinear, if_neg (by omega), divide, if_neg apart]
  by_cases one : x.values.length = 1 ∨ outLen = 1
  · obtain ⟨s, here⟩ : ∃ s, x.values[0]? = some s := ⟨_, List.getElem?_eq_getElem some_⟩
    rw [if_pos one, read_eq here, Except.ok_bind, write, if_pos (by simp; omega), Except.ok_bind]
    exact loop _ (by simp)
  · rw [if_neg one, Except.ok_bind]
    exact loop _ (by simp)

theorem resampleLinear_one :
    resampleLinear x.values x.values.length (List.replicate 1 none) 1 = .error .divideByZero := by
  have some_ := x.length_pos
  obtain ⟨s, here⟩ : ∃ s, x.values[0]? = some s := ⟨_, List.getElem?_eq_getElem some_⟩
  have zero : (((1 : Nat) : ℚ) - 1) = 0 := by norm_num
  rw [resampleLinear, if_neg (by omega), if_pos (.inr rfl), read_eq here, divide, if_pos zero]
  rfl

/-! ## Which outputs are between their sources -/

variable (x outLen i) in
/-- The offset lifts the sample above both of its sources: their mean is below
minus a half, and less than a half below the greater one. -/
def Rises : Prop :=
  ∃ a b, x.sources outLen i = [a, b] ∧ mean (a : ℚ) b (x.weight outLen i) < -(1 / 2) ∧
    ((max a b : Int) : ℚ) - 1 / 2 < mean (a : ℚ) b (x.weight outLen i)

theorem value_between_iff (two : 2 ≤ outLen) (inside : i < outLen) :
    (∀ lo hi : Int, (∀ s ∈ x.sources outLen i, lo ≤ s ∧ s ≤ hi) → lo ≤ x.value outLen i ∧ x.value outLen i ≤ hi) ↔
      ¬ x.Rises outLen i := by
  rcases sources_cases two inside with ⟨_, a, _, sources⟩ | ⟨_, a, b, _, _, sources⟩
  · have value : x.value outLen i = a := by rw [Signal.value, sources]
    rw [value, sources]
    refine iff_of_true (fun lo hi all => all a List.mem_cons_self) ?_
    rintro ⟨a', b', other, -⟩
    rw [sources] at other
    cases other
  · have value : x.value outLen i = trunc (mean (a : ℚ) b (x.weight outLen i) + 1 / 2) := by
      rw [Signal.value, sources]
    obtain ⟨w0, w1⟩ : 0 ≤ x.weight outLen i ∧ x.weight outLen i ≤ 1 := weight_bounds
    have rises : x.Rises outLen i ↔ mean (a : ℚ) b (x.weight outLen i) < -(1 / 2) ∧
        ((max a b : Int) : ℚ) - 1 / 2 < mean (a : ℚ) b (x.weight outLen i) := by
      constructor
      · rintro ⟨a', b', other, low⟩
        rw [sources] at other
        cases other
        exact low
      · exact fun low => ⟨a, b, sources, low⟩
    have top : mean (a : ℚ) b (x.weight outLen i) ≤ ((max a b : Int) : ℚ) :=
      mean_le w0 w1 (by exact_mod_cast Int.le_max_left a b) (by exact_mod_cast Int.le_max_right a b)
    rw [value, sources, rises, ← trunc_half_le top]
    constructor
    · intro all
      refine (all (min a b) (max a b) ?_).2
      simp only [List.mem_cons, List.not_mem_nil, or_false, forall_eq_or_imp, forall_eq]
      omega
    · intro most lo hi all
      simp only [List.mem_cons, List.not_mem_nil, or_false, forall_eq_or_imp, forall_eq] at all
      have bottom : (lo : ℚ) ≤ mean (a : ℚ) b (x.weight outLen i) :=
        le_mean w0 w1 (by exact_mod_cast all.1.1) (by exact_mod_cast all.2.1)
      exact ⟨le_trunc_half bottom, by omega⟩

/-! ## A signal of the same length -/

theorem position_same (two : 2 ≤ x.values.length) : x.position x.values.length i = i := by
  have more : (2 : ℚ) ≤ x.values.length := by exact_mod_cast two
  rw [position, div_self (by linarith), mul_one]

theorem value_same {a : Int} (two : 2 ≤ x.values.length) (here : x.values[i]? = some a) :
    x.value x.values.length i = a ↔ (i + 1 < x.values.length → 0 ≤ a) := by
  have inside : i < x.values.length := (List.getElem?_eq_some_iff.mp here).1
  have place := position_same (i := i) two
  have index : ⌊x.position x.values.length i⌋.toNat = i := by
    rw [place, Int.floor_natCast, Int.toNat_natCast]
  have whole : x.weight x.values.length i = 0 := by
    rw [weight, place, Int.fract_natCast]
  rcases sources_cases two inside with ⟨last, b, there, sources⟩ | ⟨more, b, c, there, _, sources⟩
  · rw [index] at last
    have end_ : x.values.length - 1 = i := by omega
    rw [end_, here] at there
    cases there
    refine iff_of_true ?_ fun further => absurd further (by omega)
    rw [value, sources]
  · rw [index, here] at there
    cases there
    rw [index] at more
    have kept : x.value x.values.length i = trunc ((a : ℚ) + 1 / 2) := by
      rw [value, sources, whole]
      dsimp only
      rw [mean_zero]
    rw [kept, trunc_int_half]
    exact ⟨fun nonneg _ => nonneg, fun nonneg => nonneg (by omega)⟩

theorem length_resampled : (x.resampled outLen).length = outLen := by
  rw [resampled, List.length_map, List.length_range]

theorem getElem_resampled (inside : i < (x.resampled outLen).length) : (x.resampled outLen)[i] = x.value outLen i := by
  simp only [resampled, List.getElem_map, List.getElem_range]

theorem resampled_same (two : 2 ≤ x.values.length) :
    x.resampled x.values.length = x.values ↔ ∀ s ∈ x.values.dropLast, 0 ≤ s := by
  constructor
  · intro same s member
    obtain ⟨i, inside, rfl⟩ := List.getElem_of_mem member
    have short : i + 1 < x.values.length := by
      rw [List.length_dropLast] at inside
      omega
    rw [List.getElem_dropLast]
    have here := List.getElem?_eq_getElem (show i < x.values.length by omega)
    refine (value_same two here).mp ?_ short
    rw [← getElem_resampled (by rw [length_resampled]; omega)]
    exact List.getElem_of_eq same _
  · intro nonneg
    refine List.ext_getElem length_resampled fun i inside inside' => ?_
    rw [getElem_resampled]
    refine (value_same two (List.getElem?_eq_getElem inside')).mpr fun further => ?_
    refine nonneg _ (List.mem_iff_getElem.mpr ⟨i, ?_, List.getElem_dropLast _⟩)
    rw [List.length_dropLast]
    omega

/-- A run over two samples or more can only have one output. -/
theorem Interpolates.resampled {out : List Int} (two : 2 ≤ outLen) (h : x.Interpolates outLen out) :
    out = x.resampled outLen := by
  have run := h.runs
  rw [resampleLinear_eq two] at run
  exact (List.map_injective_iff.mpr (Option.some_injective Int) (Except.ok.inj run)).symm

/-- The call interpolates exactly where it is not one sample that is asked for,
none rises above its sources, and with the length kept no sample but the last
is below zero. -/
theorem resampleLinear_iff (x : Signal) (outLen : Nat) :
    (∃ out, x.Interpolates outLen out) ↔ outLen ≠ 1 ∧ (∀ i < outLen, ¬ x.Rises outLen i) ∧
      (outLen = x.values.length → ∀ s ∈ x.values.dropLast, 0 ≤ s) := by
  have some_ := x.length_pos
  constructor
  · rintro ⟨out, h⟩
    have more : outLen ≠ 1 := by
      rintro rfl
      have run := h.runs
      rw [resampleLinear_one] at run
      cases run
    have out_eq : 2 ≤ outLen → out = x.resampled outLen := fun two => h.resampled two
    refine ⟨more, fun i inside => ?_, ?_⟩
    · have two : 2 ≤ outLen := by omega
      obtain rfl := out_eq two
      refine (value_between_iff two inside).mp fun lo hi sources => ?_
      have between := h.between i (by rw [length_resampled]; exact inside) lo hi sources
      rwa [getElem_resampled] at between
    · rintro rfl
      have two : 2 ≤ x.values.length := by omega
      obtain rfl := out_eq two
      exact (resampled_same two).mp (h.same rfl)
  · rintro ⟨more, stays, nonneg⟩
    by_cases none_ : outLen = 0
    · subst none_
      refine ⟨[], ?_, rfl, nofun, fun _ _ => nofun, fun same => absurd same (by omega)⟩
      rw [resampleLinear, if_pos (.inr rfl)]
      rfl
    · have two : 2 ≤ outLen := by omega
      have between : ∀ i < outLen, ∀ lo hi : Int, (∀ s ∈ x.sources outLen i, lo ≤ s ∧ s ≤ hi) →
          lo ≤ x.value outLen i ∧ x.value outLen i ≤ hi :=
        fun i inside => (value_between_iff two inside).mpr (stays i inside)
      refine ⟨x.resampled outLen, resampleLinear_eq two, length_resampled, ?_, ?_, ?_⟩
      · intro i inside lo hi sources
        rw [getElem_resampled]
        rw [length_resampled] at inside
        exact between i inside lo hi sources
      · intro c all s member
        obtain ⟨i, inside, rfl⟩ := List.getElem_of_mem member
        rw [getElem_resampled]
        rw [length_resampled] at inside
        have equal := between i inside c c fun s source => by
          have same := all s (List.mem_of_mem_drop (List.mem_of_mem_take source))
          omega
        omega
      · rintro rfl
        exact (resampled_same two).mpr (nonneg rfl)

/-- Two samples of -5 come back as -4 and -5. -/
theorem lowConstant_rises : ¬ ∃ out, Interpolates ⟨[-5, -5], nofun, by decide⟩ 2 out := by
  rintro ⟨out, h⟩
  have two : 2 ≤ [-5, (-5 : Int)].length := by decide
  have same := h.same rfl
  rw [h.resampled (le_refl 2)] at same
  exact absurd ((resampled_same two).mp same (-5) List.mem_cons_self) (by decide)

end Signal
end MusicPlayer.Asr
