import MusicPlayer.Lib.CBytes

/-! UTF-8 text as bytes: which texts are valid, and where one may be cut. -/
namespace Utf8
open CBytes

def encode (text : List Char) : Bytes := text.flatMap String.utf8EncodeChar

theorem encode_cons (c : Char) (text : List Char) :
    encode (c :: text) = String.utf8EncodeChar c ++ encode text := rfl

theorem encode_append (front back : List Char) : encode (front ++ back) = encode front ++ encode back :=
  List.flatMap_append

def Valid (b : Bytes) : Prop := ∃ text, b = encode text

/-- No character ends or starts inside byte `n` of the text. -/
def Boundary (text : List Char) (n : Nat) : Prop :=
  ∃ front back, text = front ++ back ∧ (encode front).length = n

/-- No character is encoded as no bytes. -/
theorem encode_eq_nil {text : List Char} : encode text = [] ↔ text = [] := by
  constructor
  · intro none_
    cases text with
    | nil => rfl
    | cons c rest =>
        rw [encode_cons] at none_
        exact absurd (List.append_eq_nil_iff.mp none_).1 String.utf8EncodeChar_ne_nil
  · rintro rfl
    rfl

/-- The first character can be told from the bytes it starts. -/
theorem encode_first {c d : Char} {front back : Bytes}
    (same : String.utf8EncodeChar c ++ front = String.utf8EncodeChar d ++ back) : c = d := by
  have decoded := congrArg (fun l : Bytes => l.toByteArray.utf8DecodeChar? 0) same
  simp only [List.toByteArray_append, ByteArray.utf8DecodeChar?_utf8EncodeChar_append] at decoded
  exact Option.some.inj decoded

/-- A valid text that starts another is some of its characters. -/
theorem encode_split {front text : List Char} {rest : Bytes} (h : encode front ++ rest = encode text) :
    ∃ back, text = front ++ back ∧ rest = encode back := by
  induction front generalizing text with
  | nil => exact ⟨text, rfl, h⟩
  | cons c front ih =>
      cases text with
      | nil =>
          rw [encode_cons, List.append_assoc] at h
          exact absurd (List.append_eq_nil_iff.mp h).1 String.utf8EncodeChar_ne_nil
      | cons d text =>
          rw [encode_cons, encode_cons, List.append_assoc] at h
          have same := encode_first h
          subst same
          obtain ⟨back, rfl, more⟩ := ih (List.append_cancel_left h)
          exact ⟨back, rfl, more⟩

theorem boundary_zero (text : List Char) : Boundary text 0 := ⟨[], text, rfl, rfl⟩

/-- A boundary behind another one is a boundary of what is left there. -/
theorem boundary_append {front back : List Char} {n : Nat} :
    Boundary (front ++ back) ((encode front).length + n) ↔ Boundary back n := by
  constructor
  · rintro ⟨front', back', split, length⟩
    rcases List.append_eq_append_iff.mp split with ⟨mid, rfl, rfl⟩ | ⟨mid, rfl, rfl⟩
    · rw [encode_append, List.length_append] at length
      exact ⟨mid, back', rfl, by omega⟩
    · rw [encode_append, List.length_append] at length
      have none_ : n = 0 := by omega
      rw [none_]
      exact boundary_zero back
  · rintro ⟨mid, last, rfl, rfl⟩
    exact ⟨front ++ mid, last, by rw [List.append_assoc], by rw [encode_append, List.length_append]⟩

end Utf8
