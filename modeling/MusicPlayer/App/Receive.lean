import MusicPlayer.Server.Arrivals

/-! How the app takes messages off its socket: `ReadRecData`, which its three
windows have alike, called once for every `readyRead`. -/
namespace MusicPlayer.App
open CBytes Wakeups
open Server (Body zeroed)

/-- `QIODevice::read` on the connected socket, as Qt documents it: what it returns, what
it stores and what is left. The socket takes in new bytes only between two slots. -/
def read (unread : Bytes) (maxSize : Int) : Int × Bytes × Bytes :=
  if maxSize < 0 then (-1, [], unread)
  else
    let got := unread.take maxSize.toNat
    (got.length, got, unread.drop maxSize.toNat)

/-- Both loops of `ReadRecData`. -/
def readLoop : Nat → Int → Bytes → Int → Bytes → Outcome Fault (Bytes × Bytes)
  | 0, _, _, _, _ => .running
  | fuel + 1, want, buffer, size, unread =>
      let (r, got, unread) := read unread (want - size)
      if buffer.length < size.toNat + got.length then .fault .outOfBounds
      else
        let buffer := store buffer size.toNat got
        if size + r = want then .ok (buffer, unread) else readLoop fuel want buffer (size + r) unread

variable (o : ByteOrder)

def readRecData (fuel : Nat) (unread : Bytes) : Outcome Fault (Bytes × Bytes) := do
  let (buffer, unread) ← readLoop fuel 4 zeroed 0 unread
  let len := readInt o (buffer.take 4)
  -- the header is not cleared
  let (buffer, unread) ← readLoop fuel len buffer 0 unread
  -- `append` takes the buffer for a C string
  if 0 ∈ buffer then return (cstr buffer, unread) else .fault .outOfBounds

/-! ## One message -/

theorem readLoop_succ {fuel : Nat} {want size : Int} {buffer unread : Bytes} (more : 0 ≤ want - size) :
    readLoop (fuel + 1) want buffer size unread =
      if buffer.length < size.toNat + (unread.take (want - size).toNat).length then .fault .outOfBounds
      else if size + (unread.take (want - size).toNat).length = want then
        .ok (store buffer size.toNat (unread.take (want - size).toNat), unread.drop (want - size).toNat)
      else readLoop fuel want (store buffer size.toNat (unread.take (want - size).toNat))
        (size + (unread.take (want - size).toNat).length) (unread.drop (want - size).toNat) := by
  rw [readLoop, read, if_neg (by omega)]

/-- With all bytes there the first pass ends the loop. -/
theorem readLoop_whole (fuel : Nat) {want : Nat} {buffer unread : Bytes} (present : want ≤ unread.length)
    (fits : want ≤ buffer.length) :
    readLoop (fuel + 1) want buffer 0 unread = .ok (store buffer 0 (unread.take want), unread.drop want) := by
  have taken : (unread.take want).length = want := List.length_take_of_le present
  have asked : ((want : Int) - 0).toNat = want := by omega
  rw [readLoop_succ (by omega), asked, taken, if_neg (by omega), if_pos (by omega)]
  rfl

/-- With a byte missing it goes on for ever: nothing is added while it runs. -/
theorem readLoop_short (fuel : Nat) {want size : Int} {buffer unread : Bytes} (lower : 0 ≤ size)
    (short : size + unread.length < want) (fits : size + unread.length ≤ buffer.length) :
    readLoop fuel want buffer size unread = .running := by
  induction fuel generalizing size buffer unread with
  | zero => rfl
  | succ fuel ih =>
      have all : unread.take (want - size).toNat = unread := List.take_of_length_le (by omega)
      have dry : unread.drop (want - size).toNat = [] := List.drop_of_length_le (by omega)
      rw [readLoop_succ (by omega), all, dry, if_neg (by omega), if_neg (by omega)]
      have kept : (store buffer size.toNat unread).length = buffer.length := length_store (by omega)
      refine ih (by omega) ?_ ?_
      · simp only [List.length_nil]
        omega
      · simp only [List.length_nil]
        omega

/-- A message that covers what the header leaves in the buffer, or whose header
is zero behind its length. -/
structure Reply extends Body where
  clear : o = .little ∨ 4 ≤ text.length

variable {o}

theorem cstr_over_header (r : Reply o) : cstr (store (store zeroed 0 (intBytes o r.text.length)) 0 r.text) = r.text := by
  have some_ := r.nonempty
  have short := r.short
  have header : store zeroed 0 (intBytes o r.text.length) = intBytes o r.text.length ++ zeros 1020 := by
    rw [zeroed, store_zeros, length_intBytes]
  have behind : ∃ rest, (intBytes o r.text.length ++ zeros 1020).drop r.text.length = 0 :: rest := by
    by_cases long : 4 ≤ r.text.length
    · have size : r.text.length - 4 < 1020 := by omega
      refine ⟨zeros (1020 - (r.text.length - 4) - 1), ?_⟩
      rw [List.drop_append, length_intBytes, List.drop_of_length_le (by rw [length_intBytes]; exact long), zeros,
        List.drop_replicate, List.nil_append, zeros, ← List.replicate_succ]
      congr 1
      omega
    · have order : o = .little := r.clear.resolve_right long
      subst order
      have cases_ : r.text.length = 1 ∨ r.text.length = 2 ∨ r.text.length = 3 := by omega
      rcases cases_ with one | two | three
      · exact ⟨_, by rw [one]; rfl⟩
      · exact ⟨_, by rw [two]; rfl⟩
      · exact ⟨_, by rw [three]; rfl⟩
  obtain ⟨rest, tail⟩ := behind
  rw [header, store, List.take_zero, List.nil_append, Nat.zero_add, tail]
  exact cstr_append_zero r.noNul rest

theorem readRecData_reply (fuel : Nat) (r : Reply o) (rest : Bytes) :
    readRecData o (fuel + 1) (frame o r.text ++ rest) = .ok (r.text, rest) := by
  have short := r.short
  have header : readLoop (fuel + 1) (4 : Nat) zeroed 0 (frame o r.text ++ rest) =
      .ok (store zeroed 0 (intBytes o r.text.length), r.text ++ rest) := by
    rw [readLoop_whole fuel (by simp only [List.length_append, length_frame]; omega) (by rw [length_zeros]; omega),
      take_frame, drop_frame]
  have size : (store zeroed 0 (intBytes o r.text.length)).length = 1024 := by
    rw [length_store (by rw [length_intBytes, length_zeros]; omega), length_zeros]
  have read : readInt o ((store zeroed 0 (intBytes o r.text.length)).take 4) = r.text.length := by
    rw [zeroed, store_zeros, List.take_left' (length_intBytes o _), readInt_intBytes o (by omega)]
  have body : readLoop (fuel + 1) r.text.length (store zeroed 0 (intBytes o r.text.length)) 0 (r.text ++ rest) =
      .ok (store (store zeroed 0 (intBytes o r.text.length)) 0 r.text, rest) := by
    rw [readLoop_whole fuel (by rw [List.length_append]; omega) (by omega), List.take_left, List.drop_left]
  have text := cstr_over_header r
  have nul : 0 ∈ store (store zeroed 0 (intBytes o r.text.length)) 0 r.text := by
    by_contra free
    have whole := congrArg List.length (cstr_eq_self free)
    rw [text, length_store (by rw [size]; omega), size] at whole
    omega
  have four : ((4 : Nat) : Int) = 4 := rfl
  rw [four] at header
  simp only [readRecData, header, Outcome.ok_bind, read, body, if_pos nul, text, Outcome.pure_eq]

/-- Of a message that is not there in full the app never gets hold. -/
theorem readRecData_part (fuel : Nat) {r : Reply o} {unread : Bytes} (part : unread <+: frame o r.text)
    (short : unread.length < (frame o r.text).length) : readRecData o fuel unread = .running := by
  have bound := r.short
  rw [length_frame] at short
  by_cases four : 4 ≤ unread.length
  · cases fuel with
    | zero => rfl
    | succ fuel =>
        have front : unread.take 4 = intBytes o r.text.length := by
          obtain ⟨rest, whole⟩ := part
          have front := congrArg (List.take 4) whole
          rw [List.take_append_of_le_length four] at front
          rw [front, ← List.append_nil (frame o r.text), take_frame]
        have header : readLoop (fuel + 1) (4 : Nat) zeroed 0 unread =
            .ok (store zeroed 0 (intBytes o r.text.length), unread.drop 4) := by
          rw [readLoop_whole fuel four (by rw [length_zeros]; omega), front]
        have size : (store zeroed 0 (intBytes o r.text.length)).length = 1024 := by
          rw [length_store (by rw [length_intBytes, length_zeros]; omega), length_zeros]
        have read : readInt o ((store zeroed 0 (intBytes o r.text.length)).take 4) = r.text.length := by
          rw [zeroed, store_zeros, List.take_left' (length_intBytes o _), readInt_intBytes o (by omega)]
        have body : readLoop (fuel + 1) r.text.length (store zeroed 0 (intBytes o r.text.length)) 0
            (unread.drop 4) = .running := by
          refine readLoop_short (fuel + 1) (le_refl 0) ?_ ?_
          · rw [List.length_drop]
            omega
          · rw [List.length_drop, size]
            omega
        have four : ((4 : Nat) : Int) = 4 := rfl
        rw [four] at header
        simp only [readRecData, header, Outcome.ok_bind, read, body, Outcome.running_bind]
  · have header : readLoop fuel 4 zeroed 0 unread = .running :=
      readLoop_short fuel (le_refl 0) (by omega) (by rw [length_zeros]; omega)
    simp only [readRecData, header, Outcome.running_bind]

/-! ## A stream of messages -/

/-- What `ReciveReply` parses, if `ReadRecData` comes back. -/
def takeReply (o : ByteOrder) (fuel : Nat) (unread : Bytes) : Option (Bytes × Bytes) :=
  match readRecData o fuel unread with
  | .ok came => some came
  | _ => none

/-- The texts the app has got hold of, one for every `readyRead`, and what it has not read. -/
def reciveReplies (o : ByteOrder) (fuel : Nat) (chunks : List Bytes) : Option (List Bytes × Bytes) :=
  receive (takeReply o fuel) [] chunks

theorem takeReply_reads (o : ByteOrder) (fuel : Nat) :
    Reads (takeReply o (fuel + 1)) (fun r : Reply o => frame o r.text) (fun r => r.text) where
  empty := by
    have dry : readRecData o (fuel + 1) [] = .running := by
      have header : readLoop (fuel + 1) 4 zeroed 0 [] = .running :=
        readLoop_short (fuel + 1) (le_refl 0) (by decide) (by decide)
      simp only [readRecData, header, Outcome.running_bind]
    rw [takeReply, dry]
  whole := by
    intro r rest
    rw [takeReply, readRecData_reply]
  waits := by
    intro r unread part short
    rw [takeReply, readRecData_part (fuel + 1) part short]

/-- The bytes of these messages as the server sends them. -/
def sent (replies : List (Reply o)) : Bytes := replies.flatMap fun r => frame o r.text

/-- However the server's stream is cut, the app is never stuck in `ReadRecData`
exactly if with each arrival the bytes of one message more have come; it has
then handled one message for each arrival, in order. Every message is handled
as soon as it is there exactly if each arrival completes one and no more. -/
theorem replies_any_cut (fuel : Nat) {replies : List (Reply o)} {chunks : List Bytes}
    (some_ : ∀ chunk ∈ chunks, chunk ≠ []) (cut : chunks.flatten <+: sent replies) :
    ((reciveReplies o (fuel + 1) chunks).isSome ↔
      ∀ n ≤ chunks.length, (sent (replies.take n)).length ≤ (chunks.take n).flatten.length) ∧
    (∀ texts left, reciveReplies o (fuel + 1) chunks = some (texts, left) →
      texts = (replies.take chunks.length).map (fun r => r.text) ∧
      left = chunks.flatten.drop (sent (replies.take chunks.length)).length) ∧
    ((∀ n ≤ chunks.length, ∃ texts left, reciveReplies o (fuel + 1) (chunks.take n) = some (texts, left) ∧
        takeReply o (fuel + 1) left = none) ↔
      ∀ n ≤ chunks.length, (sent (replies.take n)).length ≤ (chunks.take n).flatten.length ∧
        (n < replies.length → (chunks.take n).flatten.length < (sent (replies.take (n + 1))).length)) := by
  have reads := takeReply_reads o fuel
  refine ⟨?_, ?_, prompt_iff reads some_ cut⟩
  · rw [reciveReplies]
    rcases received reads some_ cut with ⟨came, enough⟩ | ⟨stuck, behind⟩
    · exact iff_of_true (by rw [came]; rfl) (ahead_nil.mp enough)
    · exact iff_of_false (by rw [stuck]; decide) fun enough => behind (ahead_nil.mpr enough)
  · intro texts left came
    rw [reciveReplies] at came
    rcases received reads some_ cut with ⟨came', -⟩ | ⟨stuck, -⟩
    · rw [came] at came'
      cases came'
      exact ⟨rfl, rfl⟩
    · rw [came] at stuck
      cases stuck

def emptyReply : Reply .little := { Server.emptyObject with clear := .inl rfl }

theorem cutInHeader_received :
    reciveReplies .little 1 Server.cutInHeader = some ([lit "{}", lit "{}"], []) := by
  have cut : Server.cutInHeader.flatten <+: sent [emptyReply, emptyReply] := by decide
  obtain ⟨returns, order, -⟩ := replies_any_cut 0 (by decide) cut
  obtain ⟨⟨texts, left⟩, came⟩ := Option.isSome_iff_exists.mp (returns.mpr (by decide))
  obtain ⟨texts_, left_⟩ := order texts left came
  rw [came, texts_, left_]
  rfl

end MusicPlayer.App
