import MusicPlayer.Server.Frame
import MusicPlayer.Lib.Wakeups

/-! The server on a stream that is cut anywhere: libevent calls `ReadCb` once
for whatever bytes have come, be it part of a message or several. -/
namespace MusicPlayer.Server
open CBytes Wakeups

variable (o : ByteOrder) {σ : Type}

/-- One call of `ReadCb` for each arrival of bytes. -/
def serveBytes (handle : Bytes → σ → Outcome Fault σ) (fuel : Nat) :
    Conn σ → List Bytes → Outcome Fault (Conn σ)
  | conn, [] => .ok conn
  | conn, chunk :: rest => do
      let conn ← readCb o handle fuel { conn with input := conn.input ++ chunk }
      serveBytes handle fuel conn rest

/-- The text that `ServerReadData` takes off the input, if it comes back. -/
def takeMessage (fuel : Nat) (input : Bytes) : Option (Bytes × Bytes) :=
  match serverReadData o fuel input zeroed with
  | .ok (buffer, input) => some (cstr buffer, input)
  | _ => none

/-- A message that is not there in full does not make a whole frame. -/
theorem not_wholeFrame_part {b : Body} {input : Bytes} (part : input <+: frame o b.text)
    (short : input.length < (frame o b.text).length) : ¬ WholeFrame o input := by
  rintro ⟨four, -, present, -⟩
  have size := b.short
  have header : input.take 4 = intBytes o b.text.length := by
    obtain ⟨rest, whole⟩ := part
    have front := congrArg (List.take 4) whole
    rw [List.take_append_of_le_length four] at front
    rw [front, ← List.append_nil (frame o b.text), take_frame]
  rw [header, readInt_intBytes o (by omega), List.length_drop] at present
  rw [length_frame] at short
  omega

theorem takeMessage_eq_none {fuel : Nat} {input : Bytes} (h : ¬ WholeFrame o input) :
    takeMessage o fuel input = none := by
  unfold takeMessage
  split
  next came => exact absurd (serverReadData_ok o came).1 h
  next => rfl

theorem takeMessage_reads (fuel : Nat) :
    Reads (takeMessage o (fuel + 1)) (fun b : Body => frame o b.text) Body.text where
  empty := takeMessage_eq_none o fun whole => absurd whole.1 (by decide)
  whole := by
    intro b rest
    rw [takeMessage, serverReadData_frame]
    have text : cstr (store zeroed 0 b.text) = b.text :=
      cstr_store_zeros b.noNul (Nat.lt_succ_of_le b.short)
    simp only [text]
  waits := fun _ _ part short => takeMessage_eq_none o (not_wholeFrame_part o part short)

theorem readCb_ok {handle : Bytes → σ → σ} {fuel : Nat} {conn conn' : Conn σ} :
    readCb o (fun t s => .ok (handle t s)) fuel conn = .ok conn' ↔
      ∃ text left, takeMessage o fuel conn.input = some (text, left) ∧
        conn' = ⟨left, conn.dispatched ++ [text], handle text conn.server⟩ := by
  unfold readCb takeMessage
  cases serverReadData o fuel conn.input zeroed with
  | ok read =>
      obtain ⟨buffer, left⟩ := read
      constructor
      · intro same
        cases same
        exact ⟨_, _, rfl, rfl⟩
      · rintro ⟨text, left', same, rfl⟩
        cases same
        rfl
  | fault e => simp
  | running => simp

/-- Whatever is done with the texts, the callbacks come back where the receiver does. -/
theorem serveBytes_ok {handle : Bytes → σ → σ} {fuel : Nat} {conn conn' : Conn σ} {chunks : List Bytes} :
    serveBytes o (fun t s => .ok (handle t s)) fuel conn chunks = .ok conn' ↔
      ∃ texts left, receive (takeMessage o fuel) conn.input chunks = some (texts, left) ∧
        conn' = ⟨left, conn.dispatched ++ texts, texts.foldl (fun s t => handle t s) conn.server⟩ := by
  induction chunks generalizing conn with
  | nil =>
      constructor
      · intro same
        cases same
        exact ⟨[], _, rfl, by simp⟩
      · rintro ⟨texts, left, same, rfl⟩
        cases same
        simp [serveBytes]
  | cons chunk rest ih =>
      rw [serveBytes, Outcome.bind_eq_ok]
      cases taken : takeMessage o fuel (conn.input ++ chunk) with
      | none =>
          rw [receive_stuck taken]
          constructor
          · rintro ⟨mid, called, -⟩
            obtain ⟨text, left, came, -⟩ := (readCb_ok o).mp called
            rw [taken] at came
            cases came
          · rintro ⟨texts, left, came, -⟩
            cases came
      | some message =>
          obtain ⟨text, left⟩ := message
          rw [receive_cons taken]
          constructor
          · rintro ⟨mid, called, later⟩
            obtain ⟨text', left', came, rfl⟩ := (readCb_ok o).mp called
            rw [taken] at came
            cases came
            obtain ⟨texts, left', came, rfl⟩ := ih.mp later
            exact ⟨text :: texts, left', by rw [came]; rfl, by simp⟩
          · rintro ⟨texts, left', came, rfl⟩
            obtain ⟨⟨texts', left''⟩, later, same⟩ := Option.map_eq_some_iff.mp came
            cases same
            exact ⟨_, (readCb_ok o).mpr ⟨text, left, taken, rfl⟩, ih.mpr ⟨texts', left'', later, by simp⟩⟩

theorem stream_wire (bodies : List Body) : stream (fun b : Body => frame o b.text) bodies = wire o bodies :=
  List.flatMap_def

/-- The bytes of every so many messages as there have been arrivals have come. -/
def Enough (bodies : List Body) (chunks : List Bytes) : Prop :=
  ∀ n ≤ chunks.length, (wire o (bodies.take n)).length ≤ (chunks.take n).flatten.length

theorem ahead_iff {bodies : List Body} {chunks : List Bytes} :
    Ahead (fun b : Body => frame o b.text) bodies [] chunks ↔ Enough o bodies chunks := by
  simp only [ahead_nil, stream_wire, Enough]

/-- However the stream of messages is cut, the server comes back from every
arrival exactly if each time the bytes of one message more have come; it has
then dispatched one message for each arrival, in order, and the rest waits. -/
theorem served_any_cut (handle : Bytes → σ → σ) (server : σ) (fuel : Nat) {bodies : List Body} {chunks : List Bytes}
    (some_ : ∀ chunk ∈ chunks, chunk ≠ []) (cut : chunks.flatten <+: wire o bodies) :
    ((∃ conn, serveBytes o (fun t s => .ok (handle t s)) (fuel + 1) ⟨[], [], server⟩ chunks = .ok conn) ↔
      Enough o bodies chunks) ∧
    ∀ conn, serveBytes o (fun t s => .ok (handle t s)) (fuel + 1) ⟨[], [], server⟩ chunks = .ok conn →
      conn.dispatched = (bodies.take chunks.length).map Body.text ∧
      conn.input = chunks.flatten.drop (wire o (bodies.take chunks.length)).length := by
  rw [← stream_wire] at cut
  have received := received (takeMessage_reads o fuel) some_ cut
  rw [stream_wire, ahead_iff] at received
  simp only [serveBytes_ok]
  rcases received with ⟨came, enough⟩ | ⟨stuck, behind⟩
  · refine ⟨iff_of_true ⟨_, _, _, came, rfl⟩ enough, ?_⟩
    rintro _ ⟨texts, left, came', rfl⟩
    rw [came] at came'
    cases came'
    exact ⟨rfl, rfl⟩
  · refine ⟨iff_of_false ?_ behind, ?_⟩
    · rintro ⟨_, texts, left, came, -⟩
      rw [stuck] at came
      cases came
    · rintro _ ⟨texts, left, came, -⟩
      rw [stuck] at came
      cases came

/-- Two messages, the second cut in the middle of its header. -/
def cutInHeader : List Bytes := [[2, 0, 0, 0, 123, 125, 2, 0], [0, 0, 123, 125]]

theorem cutInHeader_messages : cutInHeader.flatten <+: wire .little [emptyObject, emptyObject] := by decide

theorem cutInHeader_served :
    ∃ conn, serveBytes .little (fun _ s => .ok s) 1 ⟨[], [], ()⟩ cutInHeader = .ok conn ∧
      conn.dispatched = [lit "{}", lit "{}"] := by
  obtain ⟨returns, order⟩ := served_any_cut .little (fun _ s => s) () 0 (by decide) cutInHeader_messages
  obtain ⟨conn, came⟩ := returns.mpr (by unfold Enough; decide)
  exact ⟨conn, came, (order conn came).1⟩

/-- No complete message ever waits for a later arrival exactly if every arrival
completes one message and no more. -/
theorem dispatched_at_once_iff (handle : Bytes → σ → σ) (server : σ) (fuel : Nat) {bodies : List Body}
    {chunks : List Bytes} (some_ : ∀ chunk ∈ chunks, chunk ≠ []) (cut : chunks.flatten <+: wire o bodies) :
    (∀ n ≤ chunks.length, ∃ conn,
        serveBytes o (fun t s => .ok (handle t s)) (fuel + 1) ⟨[], [], server⟩ (chunks.take n) = .ok conn ∧
          ¬ WholeFrame o conn.input) ↔
      ∀ n ≤ chunks.length, (wire o (bodies.take n)).length ≤ (chunks.take n).flatten.length ∧
        (n < bodies.length → (chunks.take n).flatten.length < (wire o (bodies.take (n + 1))).length) := by
  rw [← stream_wire] at cut
  have prompt := prompt_iff (takeMessage_reads o fuel) some_ cut
  simp only [stream_wire] at prompt
  rw [← prompt]
  refine forall₂_congr fun n _ => ?_
  simp only [serveBytes_ok]
  have waits (left : Bytes) : ¬ WholeFrame o left ↔ takeMessage o (fuel + 1) left = none := by
    refine ⟨takeMessage_eq_none o, fun none_ whole => ?_⟩
    rw [takeMessage, serverReadData_whole o fuel whole] at none_
    cases none_
  constructor
  · rintro ⟨_, ⟨texts, left, came, rfl⟩, none_⟩
    exact ⟨texts, left, came, (waits left).mp none_⟩
  · rintro ⟨texts, left, came, none_⟩
    exact ⟨_, ⟨texts, left, came, rfl⟩, (waits left).mpr none_⟩

theorem cutInHeader_at_once :
    ∃ conn, serveBytes .little (fun _ s => .ok s) 1 ⟨[], [], ()⟩ (cutInHeader.take 1) = .ok conn ∧
      ¬ WholeFrame .little conn.input :=
  (dispatched_at_once_iff .little (fun _ s => s) () 0 (by decide) cutInHeader_messages).mpr (by decide) 1 (by decide)

end MusicPlayer.Server
