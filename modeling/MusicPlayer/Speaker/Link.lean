import MusicPlayer.Buffers

/-! `RecSocketData` on a link that ends: the stream is used up at some byte, and
from then on `recv` reports the end of it or an error. -/
namespace MusicPlayer.Speaker
open CBytes

/-! ## The loops of the reader over any `recv` -/

section Loop
variable {σ : Type} (recv : σ → Nat → Nat → Option (Int × Bytes × σ))

/-- `recvLoop` where `recv` is also told the offset into the buffer it is given. -/
def recvLoopOn (onZero : σ → σ) : Nat → Nat → Bytes → Nat → σ → Outcome Fault (Bytes × σ)
  | 0, _, _, _, _ => .running
  | fuel + 1, want, data, size, s =>
      match recv s size (sizeT ((want : Int) - size)) with
      | none => .running
      | some (r, got, s) =>
          if 0 < got.length ∧ data.length < size + got.length then .fault .outOfBounds
          else
            let data := store data size got
            let size := sizeT (size + r)
            if size = want then .ok (data, s)
            else recvLoopOn onZero fuel want data size (if size = 0 then onZero s else s)

def recSocketDataOn (hangUp : σ → σ) (o : ByteOrder) (fuel : Nat) (data : Bytes) (s : σ) :
    Outcome Fault (Bytes × σ) := do
  let (data, s) ← recvLoopOn recv hangUp fuel 4 data 0 s
  let len := sizeT (readInt o (data.take 4))
  let data := store data 0 (List.replicate 4 0)
  let (data, s) ← recvLoopOn recv id fuel len data 0 s
  if 0 ∈ data then return (data, s) else .fault .outOfBounds

variable {recv}

theorem recvLoopOn_socket (onZero : Socket → Socket) (fuel want : Nat) (data : Bytes) (size : Nat)
    (sock : Socket) :
    recvLoopOn (fun sock _ n => Socket.recv sock n) onZero fuel want data size sock =
      recvLoop onZero fuel want data size sock := by
  induction fuel generalizing data size sock with
  | zero => rfl
  | succ fuel ih =>
      rw [recvLoopOn, recvLoop]
      cases sock.recv (sizeT ((want : Int) - size)) with
      | none => rfl
      | some result =>
          obtain ⟨r, got, sock'⟩ := result
          simp only [ih]

/-- It is the speaker's reader on the speaker's socket. -/
theorem recSocketDataOn_socket (o : ByteOrder) (fuel : Nat) (data : Bytes) (sock : Socket) :
    recSocketDataOn (fun sock _ n => Socket.recv sock n) Socket.hangUp o fuel data sock =
      recSocketData o fuel data sock := by
  simp only [recSocketDataOn, recSocketData, recvLoopOn_socket]

end Loop

/-! ## A link that ends -/

/-- A socket whose peer goes away behind the stream. Of the results that follow
`fails` tells which are -1 and which 0; `ended` when one has been returned;
`calls` are the offsets and sizes `recv` was given. -/
structure Link where
  sock : Socket
  fails : Nat → Bool
  ended : Bool
  calls : List (Nat × Nat)

namespace Link

/-- The link as a reader finds it. -/
def start (sock : Socket) (fails : Nat → Bool) : Link := ⟨{ sock with closed := false }, fails, false, []⟩

/-- `recv`: as on a socket, until an open one has no bytes left. -/
def recv (l : Link) (offset asked : Nat) : Option (Int × Bytes × Link) :=
  let l := { l with calls := l.calls ++ [(offset, asked)] }
  if l.sock.closed = false ∧ 0 < asked ∧ l.sock.stream = [] then
    some (if l.fails 0 then -1 else 0, [], { l with fails := fun i => l.fails (i + 1), ended := true })
  else (l.sock.recv asked).map fun (r, got, sock) => (r, got, { l with sock })

def hangUp (l : Link) : Link := { l with sock := l.sock.hangUp }

end Link

/-- Neither the pointer is before the buffer nor the size a difference gone below zero. -/
def Clean (call : Nat × Nat) : Prop := call.1 < 9223372036854775808 ∧ call.2 < 9223372036854775808

/-- `l'` is `l` with `n` bytes of its stream read by clean calls. -/
structure Link.Reads (l : Link) (n : Nat) (l' : Link) : Prop where
  stream : l'.sock.stream = l.sock.stream.drop n
  closed : l'.sock.closed = l.sock.closed
  ended : l'.ended = l.ended
  clean : (∀ call ∈ l.calls, Clean call) → ∀ call ∈ l'.calls, Clean call

end MusicPlayer.Speaker
