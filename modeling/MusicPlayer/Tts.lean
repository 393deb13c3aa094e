import MusicPlayer.Lib.Trace
import MusicPlayer.Lib.Utf8

/-! The loop of the speech program: it reads the text in its fifo piece by piece
and gives each piece to the generator as a C string. -/
namespace MusicPlayer.Tts
open CBytes Runs Utf8

/-- What is in `tts_fifo`, and the buffer of `main`. -/
structure State where
  pipe : Bytes
  buffer : Bytes
  deriving DecidableEq

/-- The loop before a text that has been written whole. -/
def State.start (text : Bytes) : State := ⟨text, zeros 1024⟩

/-- A pass with the string it hands over; `none` where `read` finds nothing. -/
def pass (s : State) : Option (Bytes × State) :=
  if s.pipe = [] then none
  else
    let buffer := store s.buffer 0 (s.pipe.take 128)
    some (cstr buffer, ⟨s.pipe.drop 128, zeros 1024⟩)

def Speaks (s : State) (spoken : Bytes) (t : State) : Prop := pass s = some (spoken, t)

/-- What is spoken until the fifo is empty is the text, in pieces that are text themselves. -/
structure Untorn (text : Bytes) (spoken : List Bytes) : Prop where
  run : Trace Speaks (.start text) spoken (.start [])
  valid : ∀ x ∈ spoken, Valid x
  whole : spoken.flatten = text

theorem speaks_start {text spoken : Bytes} {t : State} :
    Speaks (.start text) spoken t ↔ text ≠ [] ∧ spoken = cstr (text.take 128) ∧ t = .start (text.drop 128) := by
  have string : cstr (store (zeros 1024) 0 (text.take 128)) = cstr (text.take 128) := by
    have short : (text.take 128).length ≤ 128 := List.length_take_le _ _
    obtain ⟨n, more⟩ := Nat.exists_eq_succ_of_ne_zero (show 1024 - (text.take 128).length ≠ 0 by omega)
    rw [store_zeros, more, zeros, List.replicate_succ, cstr_terminated]
  unfold Speaks pass State.start
  dsimp only
  by_cases none_ : text = []
  · simp [none_]
  · rw [if_neg none_, string]
    constructor
    · intro h
      cases h
      exact ⟨none_, rfl, rfl⟩
    · rintro ⟨-, rfl, rfl⟩
      rfl

/-- No string that is spoken has a zero byte. -/
theorem spoken_text {s t : State} {spoken : List Bytes} (run : Trace Speaks s spoken t) : 0 ∉ spoken.flatten := by
  induction run with
  | nil s => simp
  | @cons s m t x rest one _ ih =>
      unfold Speaks pass at one
      split at one
      · cases one
      · cases one
        rw [List.flatten_cons, List.mem_append, not_or]
        exact ⟨zero_not_mem_cstr _, ih⟩

/-- Pieces that are text and make up the whole end at boundaries of it. -/
theorem boundaries_of_run {spoken : List Bytes} {text : List Char}
    (run : Trace Speaks (.start (encode text)) spoken (.start [])) (valid : ∀ x ∈ spoken, Valid x)
    (whole : spoken.flatten = encode text) :
    ∀ k, 128 * k < (encode text).length → Boundary text (128 * k) := by
  induction spoken generalizing text with
  | nil =>
      intro k below
      rw [← whole] at below
      exact absurd below (Nat.not_lt_zero _)
  | cons x rest ih =>
      have free : 0 ∉ encode text := whole ▸ spoken_text run
      cases run with
      | cons one later =>
          obtain ⟨-, piece, rfl⟩ := speaks_start.mp one
          rw [cstr_eq_self fun inside => free (List.mem_of_mem_take inside)] at piece
          obtain ⟨front, text'⟩ := valid x List.mem_cons_self
          rw [List.flatten_cons, text'] at whole
          obtain ⟨back, rfl, others⟩ := encode_split whole
          have left : (encode (front ++ back)).drop 128 = encode back := by
            have both := List.take_append_drop 128 (encode (front ++ back))
            rw [← piece, text', encode_append] at both
            rw [encode_append]
            exact List.append_cancel_left both
          rw [left] at later
          have ih := ih later (fun y member => valid y (List.mem_cons_of_mem _ member)) others
          intro k below
          cases k with
          | zero => exact boundary_zero _
          | succ k =>
              have full : (encode front).length = 128 := by
                rw [← text', piece, List.length_take]
                omega
              rw [encode_append, List.length_append, full] at below
              have here : 128 * (k + 1) = (encode front).length + 128 * k := by omega
              rw [here]
              exact boundary_append.mpr (ih k (by omega))

/-- A text that is not torn has a character boundary wherever a piece ends. -/
theorem Untorn.boundaries {text : List Char} {spoken : List Bytes} (h : Untorn (encode text) spoken) :
    0 ∉ encode text ∧ ∀ k, 128 * k < (encode text).length → Boundary text (128 * k) := by
  refine ⟨?_, boundaries_of_run h.run h.valid h.whole⟩
  rw [← h.whole]
  exact spoken_text h.run

/-- A piece that is text, and what is spoken of the text behind it. -/
theorem Untorn.cons {front back : List Char} {spoken : List Bytes} (free : 0 ∉ encode front)
    (some_ : encode front ≠ []) (piece : (encode (front ++ back)).take 128 = encode front)
    (h : Untorn (encode back) spoken) : Untorn (encode (front ++ back)) (encode front :: spoken) := by
  have left : (encode (front ++ back)).drop 128 = encode back := by
    have both := List.take_append_drop 128 (encode (front ++ back))
    rw [piece, encode_append] at both
    rw [encode_append]
    exact List.append_cancel_left both
  refine ⟨.cons (speaks_start.mpr ⟨?_, ?_, rfl⟩) ?_, ?_, ?_⟩
  · rw [encode_append]
    exact List.append_ne_nil_of_left_ne_nil some_ _
  · rw [piece, cstr_eq_self free]
  · rw [left]
    exact h.run
  · rw [List.forall_mem_cons]
    exact ⟨⟨front, rfl⟩, h.valid⟩
  · rw [List.flatten_cons, h.whole, encode_append]

/-- A text with a boundary wherever a piece ends is not torn. -/
theorem untorn_of_boundaries {text : List Char} (free : 0 ∉ encode text)
    (cut : ∀ k, 128 * k < (encode text).length → Boundary text (128 * k)) :
    ∃ spoken, Untorn (encode text) spoken := by
  induction size : (encode text).length using Nat.strong_induction_on generalizing text with
  | _ n ih =>
      have nothing : Untorn (encode []) [] := ⟨.nil _, nofun, rfl⟩
      by_cases none_ : encode text = []
      · exact ⟨[], by rwa [encode_eq_nil.mp none_]⟩
      · by_cases short : (encode text).length ≤ 128
        · have piece : (encode (text ++ [])).take 128 = encode text := by
            rw [List.append_nil, List.take_of_length_le short]
          have last := Untorn.cons free none_ piece nothing
          rw [List.append_nil] at last
          exact ⟨_, last⟩
        · obtain ⟨front, back, rfl, full⟩ := cut 1 (by omega)
          rw [encode_append, List.length_append] at size short
          rw [encode_append, List.mem_append, not_or] at free
          obtain ⟨spoken, rest⟩ := ih (encode back).length (by omega) free.2 (fun k below => by
            have here : 128 * (k + 1) = (encode front).length + 128 * k := by omega
            have far := cut (k + 1) (by rw [encode_append, List.length_append]; omega)
            rw [here] at far
            exact boundary_append.mp far) rfl
          have piece : (encode (front ++ back)).take 128 = encode front := by
            rw [encode_append, List.take_left' (by omega)]
          have some_ : encode front ≠ [] := by
            intro empty
            rw [empty] at full
            exact absurd full (by decide)
          exact ⟨_, Untorn.cons free.1 some_ piece rest⟩

/-- A text is spoken whole, in pieces that are text, exactly where it has no zero
byte and every 128th byte starts a character. -/
theorem untorn_iff (text : List Char) :
    (∃ spoken, Untorn (encode text) spoken) ↔
      0 ∉ encode text ∧ ∀ k, 128 * k < (encode text).length → Boundary text (128 * k) := by
  constructor
  · rintro ⟨spoken, untorn⟩
    exact untorn.boundaries
  · rintro ⟨free, cut⟩
    exact untorn_of_boundaries free cut

/-- Forty-three characters of three bytes: the 128th byte is inside the last. -/
def chineseText : List Char := List.replicate 43 '你'

theorem length_encode_replicate (n : Nat) (c : Char) : (encode (List.replicate n c)).length = n * c.utf8Size := by
  induction n with
  | zero => simp [encode]
  | succ n ih =>
      rw [List.replicate_succ, encode_cons, List.length_append, ih, String.length_utf8EncodeChar]
      ring

theorem chineseText_torn : ¬ ∃ spoken, Untorn (encode chineseText) spoken := by
  rintro ⟨spoken, untorn⟩
  have three : '你'.utf8Size = 3 := by decide
  have long : 128 * 1 < (encode chineseText).length := by
    rw [chineseText, length_encode_replicate, three]
    decide
  obtain ⟨front, back, split, length⟩ := untorn.boundaries.2 1 long
  have same : front = List.replicate front.length '你' :=
    List.eq_replicate_of_mem fun c member =>
      List.eq_of_mem_replicate (split ▸ List.mem_append_left back member)
  rw [same, length_encode_replicate, three] at length
  omega

end MusicPlayer.Tts
