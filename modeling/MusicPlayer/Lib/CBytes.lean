import Mathlib.Data.List.Infix
import Mathlib.Data.List.TakeWhile
import Mathlib.Data.Nat.Digits.Lemmas

/-! Byte strings, fixed buffers and native integers as C code handles them.
Nothing here knows what the bytes mean. -/
namespace CBytes

abbrev Bytes := List UInt8

/-- The bytes of a string literal. -/
def lit (s : String) : Bytes := s.toList.flatMap String.utf8EncodeChar

/-- The C string that starts a buffer: everything before the first zero byte. -/
def cstr (b : Bytes) : Bytes := b.takeWhile (· ≠ 0)

theorem cstr_eq_self {b : Bytes} (free : 0 ∉ b) : cstr b = b := by
  apply List.takeWhile_eq_self_iff.mpr
  intro x member
  have : x ≠ 0 := fun same => free (same ▸ member)
  simpa using this

theorem cstr_append_zero {b : Bytes} (free : 0 ∉ b) (rest : Bytes) : cstr (b ++ 0 :: rest) = b := by
  have whole : b.takeWhile (fun x => decide (x ≠ 0)) = b := cstr_eq_self free
  simp only [cstr, List.takeWhile_append, whole, if_true]
  simp

theorem zero_not_mem_cstr (b : Bytes) : 0 ∉ cstr b := by
  intro member
  have nonzero := List.mem_takeWhile_imp member
  simp at nonzero

@[simp] theorem cstr_cstr (b : Bytes) : cstr (cstr b) = cstr b := cstr_eq_self (zero_not_mem_cstr b)

theorem length_cstr_le (b : Bytes) : (cstr b).length ≤ b.length := (List.takeWhile_prefix _).length_le

/-- A C string ends at the first zero byte, or where the buffer does. -/
theorem length_cstr_le_iff {b : Bytes} {k : Nat} :
    (cstr b).length ≤ k ↔ b.length ≤ k ∨ ∃ i ≤ k, b[i]? = some 0 := by
  induction b generalizing k with
  | nil => simp [cstr]
  | cons x b ih =>
      by_cases zero : x = 0
      · subst zero
        exact ⟨fun _ => .inr ⟨0, Nat.zero_le k, rfl⟩, fun _ => Nat.zero_le k⟩
      · have more : cstr (x :: b) = x :: cstr b := List.takeWhile_cons_of_pos (by simpa using zero)
        cases k with
        | zero => simp [more, zero]
        | succ k =>
            rw [more, List.length_cons, List.length_cons, Nat.add_le_add_iff_right, Nat.add_le_add_iff_right, ih]
            refine or_congr_right ⟨?_, ?_⟩
            · rintro ⟨i, below, here⟩
              exact ⟨i + 1, Nat.succ_le_succ below, here⟩
            · rintro ⟨i, below, here⟩
              cases i with
              | zero => exact absurd (Option.some.inj here) zero
              | succ i => exact ⟨i, Nat.le_of_succ_le_succ below, here⟩

theorem not_mem_of_length_cstr {b : Bytes} (same : (cstr b).length = b.length) : 0 ∉ b := by
  have whole : cstr b = b := (List.takeWhile_prefix _).eq_of_length same
  rw [← whole]
  exact zero_not_mem_cstr b

theorem map_cstr_eq_self {values : List Bytes} (plain : ∀ v ∈ values, 0 ∉ v) : values.map cstr = values := by
  conv => rhs; rw [← List.map_id values]
  exact List.map_congr_left fun v member => cstr_eq_self (plain v member)

theorem cstr_append {b : Bytes} (free : 0 ∉ b) (rest : Bytes) : cstr (b ++ rest) = b ++ cstr rest := by
  have whole : b.takeWhile (fun x => decide (x ≠ 0)) = b := cstr_eq_self free
  simp only [cstr, List.takeWhile_append, whole, if_true]

/-- Nothing behind a terminator belongs to the string. -/
theorem cstr_terminated (text rest : Bytes) : cstr (text ++ 0 :: rest) = cstr text := by
  induction text with
  | nil => rfl
  | cons b text ih =>
      change cstr (b :: (text ++ 0 :: rest)) = cstr (b :: text)
      unfold cstr at ih ⊢
      rw [List.takeWhile_cons, List.takeWhile_cons, ih]

/-- `data` stored at offset `off`; the caller checks that it fits. -/
def store (buf : Bytes) (off : Nat) (data : Bytes) : Bytes :=
  buf.take off ++ data ++ buf.drop (off + data.length)

theorem store_nil (buf : Bytes) (off : Nat) : store buf off [] = buf := by
  simp [store]

theorem length_store {buf data : Bytes} {off : Nat} (fits : off + data.length ≤ buf.length) :
    (store buf off data).length = buf.length := by
  simp only [store, List.length_append, List.length_take, List.length_drop]
  omega

/-- Two stores, the second starting where the first ends, are one store. -/
theorem store_store {buf first second : Bytes} {off : Nat}
    (fits : off + first.length ≤ buf.length) :
    store (store buf off first) (off + first.length) second = store buf off (first ++ second) := by
  have stop : (buf.take off ++ first).length = off + first.length := by
    simp only [List.length_append, List.length_take]
    omega
  have head : (store buf off first).take (off + first.length) = buf.take off ++ first :=
    List.take_left' stop
  have tail : (store buf off first).drop (off + first.length + second.length) =
      buf.drop (off + (first ++ second).length) := by
    rw [← List.drop_drop, store, List.drop_left' stop, List.drop_drop, List.length_append,
      Nat.add_assoc]
  rw [store, head, tail, store, List.append_assoc (buf.take off)]

/-- A buffer of `n` zero bytes. -/
def zeros (n : Nat) : Bytes := List.replicate n 0

@[simp] theorem length_zeros (n : Nat) : (zeros n).length = n := List.length_replicate

theorem store_zeros (n : Nat) (text : Bytes) :
    store (zeros n) 0 text = text ++ zeros (n - text.length) := by
  simp [store, zeros, List.drop_replicate]

/-- A zeroed buffer that holds `text` from its start reads back as `text`. -/
theorem cstr_store_zeros {text : Bytes} {n : Nat} (free : 0 ∉ text) (fits : text.length < n) :
    cstr (store (zeros n) 0 text) = text := by
  obtain ⟨k, more⟩ := Nat.exists_eq_succ_of_ne_zero (show n - text.length ≠ 0 by omega)
  rw [store_zeros, more, zeros, List.replicate_succ]
  exact cstr_append_zero free _

theorem mem_store_zeros {text : Bytes} {n : Nat} (room : text.length ≤ n) :
    0 ∈ store (zeros n) 0 text ↔ text.length < n ∨ 0 ∈ text := by
  rw [store_zeros, List.mem_append, zeros, List.mem_replicate]
  constructor
  · rintro (inside | ⟨rest, _⟩)
    · exact .inr inside
    · exact .inl (by omega)
  · rintro (short | inside)
    · exact .inr ⟨by omega, rfl⟩
    · exact .inl inside

/-- `strstr` as a test: `needle` occurs in `hay`. -/
def strstr (hay needle : Bytes) : Bool := decide (needle <:+: hay)

/-! ## Native 32-bit integers -/

inductive ByteOrder
  | little
  | big
  deriving DecidableEq, Repr

def ByteOrder.arrange : ByteOrder → Bytes → Bytes
  | .little, b => b
  | .big, b => b.reverse

@[simp] theorem ByteOrder.length_arrange (o : ByteOrder) (b : Bytes) :
    (o.arrange b).length = b.length := by
  cases o <;> simp [ByteOrder.arrange]

@[simp] theorem ByteOrder.arrange_arrange (o : ByteOrder) (b : Bytes) :
    o.arrange (o.arrange b) = b := by
  cases o <;> simp [ByteOrder.arrange]

/-- `memcpy` of a non-negative `int` into a byte buffer. -/
def intBytes (o : ByteOrder) (n : Nat) : Bytes :=
  o.arrange [UInt8.ofNat n, UInt8.ofNat (n / 256), UInt8.ofNat (n / 65536), UInt8.ofNat (n / 16777216)]

/-- `*(int *)b`, in two's complement. -/
def readInt (o : ByteOrder) (b : Bytes) : Int :=
  let u : Nat := Nat.ofDigits 256 ((o.arrange b).map UInt8.toNat)
  if u < 2147483648 then (u : Int) else (u : Int) - 4294967296

@[simp] theorem length_intBytes (o : ByteOrder) (n : Nat) : (intBytes o n).length = 4 := by
  simp [intBytes]

theorem readInt_intBytes (o : ByteOrder) {n : Nat} (small : n < 2147483648) :
    readInt o (intBytes o n) = n := by
  have digits : Nat.ofDigits 256 ((o.arrange (intBytes o n)).map UInt8.toNat) = n := by
    simp only [intBytes, ByteOrder.arrange_arrange, List.map_cons, List.map_nil, Nat.ofDigits_cons,
      Nat.ofDigits_nil, UInt8.toNat_ofNat']
    omega
  simp only [readInt, digits, if_pos small]

theorem readInt_lt (o : ByteOrder) {b : Bytes} (short : b.length ≤ 4) : readInt o b < 2147483648 := by
  have bound : Nat.ofDigits 256 ((o.arrange b).map UInt8.toNat) < 256 ^ b.length := by
    have below := Nat.ofDigits_lt_base_pow_length (b := 256) (l := (o.arrange b).map UInt8.toNat)
      (by omega) (by
        intro x member
        obtain ⟨y, _, rfl⟩ := List.mem_map.mp member
        exact y.toNat_lt)
    simpa using below
  have cap : 256 ^ b.length ≤ 256 ^ 4 := Nat.pow_le_pow_right (by omega) short
  have four : (256 : Nat) ^ 4 = 4294967296 := by norm_num
  simp only [readInt]
  split <;> omega

theorem readInt_ge (o : ByteOrder) (b : Bytes) : -4294967296 ≤ readInt o b := by
  simp only [readInt]
  split <;> omega

/-- A header received into a zeroed buffer is read back, and then cleared again. -/
theorem header_read {input : Bytes} {n : Nat} (enough : 4 ≤ input.length) (room : 4 ≤ n) :
    (store (zeros n) 0 (input.take 4)).take 4 = input.take 4 ∧
      store (store (zeros n) 0 (input.take 4)) 0 (List.replicate 4 0) = zeros n := by
  have four : (input.take 4).length = 4 := by
    rw [List.length_take]
    omega
  constructor
  · rw [store, List.take_zero, List.nil_append, List.take_left' four]
  · rw [store_zeros, four, store, List.take_zero, List.nil_append, List.length_replicate,
      Nat.zero_add, List.drop_left' four, zeros, List.replicate_append_replicate]
    congr 1
    omega

/-- A text behind its own length: the four-byte header, then the bytes. -/
def frame (o : ByteOrder) (text : Bytes) : Bytes := intBytes o text.length ++ text

@[simp] theorem length_frame (o : ByteOrder) (text : Bytes) :
    (frame o text).length = text.length + 4 := by
  simp only [frame, List.length_append, length_intBytes]
  omega

theorem take_frame (o : ByteOrder) (text rest : Bytes) :
    (frame o text ++ rest).take 4 = intBytes o text.length := by
  rw [frame, List.append_assoc, List.take_left' (length_intBytes o _)]

theorem drop_frame (o : ByteOrder) (text rest : Bytes) :
    (frame o text ++ rest).drop 4 = text ++ rest := by
  rw [frame, List.append_assoc, List.drop_left' (length_intBytes o _)]

/-- A value of `ssize_t` passed where a `size_t` is asked for. -/
def sizeT (z : Int) : Nat := (z % 18446744073709551616).toNat

theorem sizeT_of_nonneg {z : Int} (lower : 0 ≤ z) (upper : z < 18446744073709551616) :
    sizeT z = z.toNat := by
  simp only [sizeT, Int.emod_eq_of_lt lower upper]

/-- A difference or a sum that has not left the range is what it is in numbers. -/
theorem sizeT_eq {z : Int} {n : Nat} (same : z = n) (upper : n < 18446744073709551616) : sizeT z = n := by
  rw [same, sizeT_of_nonneg (by omega) (by omega), Int.toNat_natCast]

end CBytes
