import MusicPlayer.Speaker.Receive
import MusicPlayer.Speaker.Modes

/-! The test server's side of the connection: `ReciveMusicInfo` takes the same
frames off a stream as the speaker's `RecSocketData`, by loops of its own. -/
namespace MusicPlayer.TestServer
open CBytes Speaker

/-! ## The functions -/

/-- A loop of `ReciveMusicInfo` up to `want` bytes; `none` when the peer has
closed. `count` is what becomes of `size` when `recv` returns. -/
def recvPart (count : Nat → Int → Nat) : Nat → Nat → Bytes → Nat → Socket →
    Outcome Fault (Option (Bytes × Socket))
  | 0, _, _, _, _ => .running
  | fuel + 1, want, buffer, size, sock =>
      match sock.recv (sizeT ((want : Int) - size)) with
      | none => .running
      | some (r, got, sock) =>
          if 0 < got.length ∧ buffer.length < size + got.length then .fault .outOfBounds
          else if r = 0 then .ok none
          else
            let buffer := store buffer size got
            let size := count size r
            if size = want then .ok (some (buffer, sock)) else recvPart count fuel want buffer size sock

/-- `size = (size_t)r`, in the header's loop. -/
def assigned (_ : Nat) (r : Int) : Nat := sizeT r

/-- `size += (size_t)r`, in the body's loop. -/
def added (size : Nat) (r : Int) : Nat := sizeT (size + r)

/-- One message by its length, in a buffer that has been cleared. -/
def receive (o : ByteOrder) (fuel : Nat) (sock : Socket) : Outcome Fault (Option (Nat × Bytes × Socket)) := do
  match ← recvPart assigned fuel 4 (zeros 1024) 0 sock with
  | none => return none
  | some (buffer, sock) =>
      let len := sizeT (readInt o (buffer.take 4))
      match ← recvPart added fuel len (zeros 1024) 0 sock with
      | none => return none
      | some (buffer, sock) =>
          -- the log line prints `buffer` as a C string
          if 0 ∈ buffer then return some (len, buffer, sock) else .fault .outOfBounds

variable (j : JsonC)

/-- `SendInfo`, as far as the packet it sends. -/
def sendInfo (sndObj : Json) : Except Fault Bytes := packet j.order (cstr (j.toJsonString sndObj))

def musicReply : Json :=
  .object [(lit "cmd", .string (lit "reply_music_list")),
    (lit "music", .array [.string (lit "其他/以后的以后.mp3"), .string (lit "其他/倾国倾城.mp3"),
      .string (lit "其他/童话.mp3"), .string (lit "其他/那些年.mp3"), .string (lit "其他/一直想着他.mp3")])]

/-- What follows on a message. A text that is no JSON has no members either, and
`strcmp` is then given a null pointer. -/
def answer (buffer : Bytes) : Except Fault (Option Bytes) :=
  match getString j (((j.parse (cstr buffer)).getD .null).member (lit "cmd")) with
  | none => .error .nullPointer
  | some cmd =>
      if cmd = lit "get_music_list" then do
        let sent ← sendInfo j musicReply
        return some sent
      else return none

/-- The messages the thread recovers in so many passes, until it ends or faults. -/
def reciveMusicInfo (fuel : Nat) : Nat → Socket → List Bytes
  | 0, _ => []
  | passes + 1, sock =>
      match receive j.order fuel sock with
      | .ok (some (len, buffer, sock)) =>
          buffer.take len :: match answer j buffer with
            | .ok _ => reciveMusicInfo fuel passes sock
            | .error _ => []
      | _ => []

/-- As many calls of `RecSocketData`, each on a cleared buffer. -/
def recSocketDatas (o : ByteOrder) (fuel : Nat) : Nat → Socket → Outcome Fault (List Bytes)
  | 0, _ => .ok []
  | count + 1, sock => do
      let (data, sock) ← recSocketData o fuel (zeros 1024) sock
      let datas ← recSocketDatas o fuel count sock
      return data :: datas

/-! ## What arrives -/

/-- A body that leaves a byte of the buffer free. -/
structure Body where
  text : Bytes
  nonempty : 1 ≤ text.length
  short : text.length ≤ 1023

/-- The buffer with this body in it. -/
def Body.held (b : Body) : Bytes := store (zeros 1024) 0 b.text

def frames (o : ByteOrder) (bodies : List Body) : Bytes := bodies.flatMap fun b => frame o b.text

/-- The socket before the first of these frames. -/
def arriving (o : ByteOrder) (bodies : List Body) (sock : Socket) : Socket :=
  { sock with closed := false, stream := frames o bodies }

/-- Given fuel and passes enough, the test server recovers these bodies and no
others, and so do as many calls of `RecSocketData`. -/
def SameBodies (bodies : List Body) (sock : Socket) : Prop :=
  ∃ enough, ∀ fuel passes, enough ≤ fuel → enough ≤ passes →
    reciveMusicInfo j fuel passes (arriving j.order bodies sock) = bodies.map Body.text ∧
      recSocketDatas j.order fuel bodies.length (arriving j.order bodies sock) = .ok (bodies.map Body.held)

/-! ## Where the frames are cut -/

/-- The sizes that are left for the calls behind the next `n` bytes. -/
def afterBytes (cuts : Nat → Nat) (n : Nat) : Nat → Nat :=
  if n = 0 then cuts else afterBytes (fun i => cuts (i + 1)) (n - max 1 (min (cuts 0) n))
termination_by n
decreasing_by omega

/-- Every header comes in one piece. -/
def Unsplit : (Nat → Nat) → List Body → Prop
  | _, [] => True
  | cuts, b :: bodies => 4 ≤ cuts 0 ∧ Unsplit (afterBytes (fun i => cuts (i + 1)) b.text.length) bodies

/-- The message is JSON with a `cmd` in it, and the reply there is to this one fits its packet. -/
def Answered (b : Body) : Prop :=
  ∃ obj cmd, j.parse (cstr b.text) = some obj ∧ getString j (obj.member (lit "cmd")) = some cmd ∧
    (cmd = lit "get_music_list" → (cstr (j.toJsonString musicReply)).length ≤ 1020)

theorem cstr_held (b : Body) : cstr b.held = cstr b.text := by
  have short := b.short
  obtain ⟨left, rest⟩ : ∃ left, 1024 - b.text.length = left + 1 := ⟨1023 - b.text.length, by omega⟩
  rw [Body.held, store_zeros, rest, zeros, List.replicate_succ, cstr_terminated]

/-- The server comes through just these. -/
theorem answered_iff {b : Body} : Answered j b ↔ ∃ reply, answer j b.held = .ok reply := by
  constructor
  · rintro ⟨obj, cmd, parsed, string, fits⟩
    unfold answer
    rw [cstr_held, parsed, Option.getD_some, string]
    dsimp only
    by_cases asked : cmd = lit "get_music_list"
    · have packed : sendInfo j musicReply = .ok _ := packet_eq_ok.mpr ⟨fits asked, rfl⟩
      rw [if_pos asked, packed]
      exact ⟨_, rfl⟩
    · rw [if_neg asked]
      exact ⟨none, rfl⟩
  · rintro ⟨reply, done⟩
    unfold answer at done
    rw [cstr_held] at done
    cases parsed : j.parse (cstr b.text) with
    | none =>
        rw [parsed] at done
        cases done
    | some obj =>
        rw [parsed, Option.getD_some] at done
        cases string : getString j (obj.member (lit "cmd")) with
        | none =>
            rw [string] at done
            cases done
        | some cmd =>
            refine ⟨obj, cmd, parsed, string, fun asked => ?_⟩
            rw [string] at done
            dsimp only at done
            rw [if_pos asked] at done
            obtain ⟨sent, packed, -⟩ := Except.bind_eq_ok.mp done
            exact (packet_eq_ok.mp packed).1

/-- One pass on an open link with all that is wanted to come. -/
theorem recvPart_step {count : Nat → Int → Nat} (fuel : Nat) {want size : Nat} {buffer bytes rest : Bytes}
    {sock : Socket} (up : sock.closed = false) (ahead : sock.stream = bytes ++ rest)
    (missing : size + bytes.length = want) (some_ : bytes ≠ []) (fits : want ≤ buffer.length)
    (word : want < 18446744073709551616) {k : Nat} (piece : k = max 1 (min (sock.cuts 0) bytes.length)) :
    recvPart count (fuel + 1) want buffer size sock =
      if count size k = want then
        .ok (some (store buffer size (bytes.take k),
          { sock with stream := bytes.drop k ++ rest, cuts := fun i => sock.cuts (i + 1) }))
      else recvPart count fuel want (store buffer size (bytes.take k)) (count size k)
        { sock with stream := bytes.drop k ++ rest, cuts := fun i => sock.cuts (i + 1) } := by
  have length := List.length_pos_iff.mpr some_
  have asked : sizeT ((want : Int) - size) = bytes.length := sizeT_eq (by omega) (by omega)
  have coming : sock.stream ≠ [] := by
    rw [ahead]
    simp [some_]
  have whole : sock.stream.length = bytes.length + rest.length := by rw [ahead, List.length_append]
  have received := recv_eq up length coming (k := k) (by omega)
  have front : sock.stream.take k = bytes.take k := by rw [ahead, List.take_append_of_le_length (by omega)]
  have tail : sock.stream.drop k = bytes.drop k ++ rest := by rw [ahead, List.drop_append_of_le_length (by omega)]
  have got : (bytes.take k).length = k := by
    rw [List.length_take]
    omega
  rw [recvPart, asked, received]
  simp only [front, tail, got]
  rw [if_neg (by omega), if_neg (by omega)]

/-- The body's loop: the bytes missing are the front of the stream until they are all stored. -/
theorem body_delivers {fuel want size : Nat} {buffer bytes rest : Bytes} {sock : Socket}
    (up : sock.closed = false) (ahead : sock.stream = bytes ++ rest) (missing : size + bytes.length = want)
    (some_ : bytes ≠ []) (fits : want ≤ buffer.length) (word : want < 18446744073709551616)
    (enough : bytes.length ≤ fuel) :
    recvPart added fuel want buffer size sock = .ok (some (store buffer size bytes,
      { sock with stream := rest, cuts := afterBytes sock.cuts bytes.length })) := by
  induction fuel generalizing size buffer bytes sock with
  | zero =>
      have := List.length_pos_iff.mpr some_
      omega
  | succ fuel ih =>
      have length := List.length_pos_iff.mpr some_
      obtain ⟨k, piece⟩ : ∃ k, k = max 1 (min (sock.cuts 0) bytes.length) := ⟨_, rfl⟩
      have sum : added size k = size + k := sizeT_eq (by omega) (by omega)
      have later : afterBytes sock.cuts bytes.length = afterBytes (fun i => sock.cuts (i + 1)) (bytes.length - k) := by
        rw [afterBytes, if_neg (by omega), ← piece]
      rw [recvPart_step fuel up ahead missing some_ fits word piece, sum, later]
      by_cases all : size + k = want
      · have k_all : k = bytes.length := by omega
        have none_ : afterBytes (fun i => sock.cuts (i + 1)) 0 = fun i => sock.cuts (i + 1) := by rw [afterBytes, if_pos rfl]
        rw [if_pos all, k_all, List.take_length, List.drop_length, List.nil_append, Nat.sub_self, none_]
      · have left_ : (bytes.drop k).length = bytes.length - k := List.length_drop
        have got : (bytes.take k).length = k := by
          rw [List.length_take]
          omega
        have kept : (store buffer size (bytes.take k)).length = buffer.length := length_store (by omega)
        have more : bytes.drop k ≠ [] := by
          intro empty
          rw [empty, List.length_nil] at left_
          omega
        have room : size + (bytes.take k).length ≤ buffer.length := by omega
        have joined : store (store buffer size (bytes.take k)) (size + k) (bytes.drop k) = store buffer size bytes := by
          have both : store (store buffer size (bytes.take k)) (size + (bytes.take k).length) (bytes.drop k) =
              store buffer size (bytes.take k ++ bytes.drop k) := store_store room
          rwa [got, List.take_append_drop] at both
        have others := @ih (size + k) (store buffer size (bytes.take k)) (bytes.drop k)
          { sock with stream := bytes.drop k ++ rest, cuts := fun i => sock.cuts (i + 1) }
          up rfl (by omega) more (by omega) (by omega)
        rw [if_neg all, others, joined, left_]

/-- The header's loop, when the first `recv` gives the whole header. -/
theorem header_whole {fuel : Nat} {sock : Socket} {bytes rest : Bytes} (up : sock.closed = false)
    (ahead : sock.stream = bytes ++ rest) (four : bytes.length = 4) (cut : 4 ≤ sock.cuts 0) :
    recvPart assigned (fuel + 1) 4 (zeros 1024) 0 sock = .ok (some (store (zeros 1024) 0 bytes,
      { sock with stream := rest, cuts := fun i => sock.cuts (i + 1) })) := by
  have some_ : bytes ≠ [] := by
    rintro rfl
    cases four
  have whole : assigned 0 (4 : Nat) = 4 := by decide
  rw [recvPart_step fuel up ahead (by omega) some_ (by rw [length_zeros]; omega) (by omega) (k := 4) (by omega),
    if_pos whole, ← four, List.take_length, List.drop_length, List.nil_append]

/-- The header's loop after 1, 2 or 3 bytes, or with no bytes to come: each
count replaces the one before, and none is 4 again. -/
theorem header_never {fuel size : Nat} {buffer : Bytes} {sock : Socket} (up : sock.closed = false)
    (part : 1 ≤ size ∧ size ≤ 3 ∨ sock.stream = []) {res : Bytes × Socket} :
    recvPart assigned fuel 4 buffer size sock ≠ .ok (some res) := by
  induction fuel generalizing size buffer sock with
  | zero => nofun
  | succ fuel ih =>
      rw [recvPart]
      by_cases dry : sock.stream = []
      · rcases recv_used_up (n := sizeT (((4 : Nat) : Int) - size)) up dry with blocks | closed | failed
        · rw [blocks]
          nofun
        · rw [closed]
          dsimp only
          rw [if_neg (by simp), if_pos rfl]
          nofun
        · have wrapped : assigned size (-1) = 18446744073709551615 := by
            change sizeT (-1) = _
            decide
          rw [failed]
          dsimp only
          rw [if_neg (by simp), if_neg (by decide), wrapped, if_neg (by decide)]
          exact ih up (.inr dry)
      · obtain ⟨least, most⟩ := part.resolve_right dry
        have asked : sizeT (((4 : Nat) : Int) - size) = 4 - size := sizeT_eq (by omega) (by omega)
        have length := List.length_pos_iff.mpr dry
        obtain ⟨k, piece⟩ : ∃ k, k = max 1 (min (sock.cuts 0) (min (4 - size) sock.stream.length)) := ⟨_, rfl⟩
        have count : assigned size k = k := sizeT_eq rfl (by omega)
        rw [asked, recv_eq up (by omega) dry piece]
        dsimp only
        rw [count]
        split
        · nofun
        · rw [if_neg (by omega), if_neg (by omega)]
          exact ih up (.inl (by omega))

theorem receive_dry {o : ByteOrder} {fuel : Nat} {sock : Socket} (up : sock.closed = false) (dry : sock.stream = [])
    {res : Nat × Bytes × Socket} : receive o fuel sock ≠ .ok (some res) := by
  intro came
  obtain ⟨header, got, came⟩ := Outcome.bind_eq_ok.mp came
  cases header with
  | none => cases came
  | some result => exact header_never up (.inr dry) got

/-- A header that comes in pieces is not recovered, and nothing after it. -/
theorem receive_split {o : ByteOrder} {fuel : Nat} {sock : Socket} (up : sock.closed = false)
    (four : 4 ≤ sock.stream.length) (cut : sock.cuts 0 < 4) {res : Nat × Bytes × Socket} :
    receive o fuel sock ≠ .ok (some res) := by
  intro came
  obtain ⟨header, got, came⟩ := Outcome.bind_eq_ok.mp came
  cases header with
  | none => cases came
  | some result =>
      cases fuel with
      | zero => cases got
      | succ fuel =>
          have coming : sock.stream ≠ [] := List.length_pos_iff.mp (by omega)
          obtain ⟨k, piece⟩ : ∃ k, k = max 1 (min (sock.cuts 0) (min 4 sock.stream.length)) := ⟨_, rfl⟩
          have asked : sizeT (((4 : Nat) : Int) - (0 : Nat)) = 4 := by decide
          have count : assigned 0 k = k := sizeT_eq rfl (by omega)
          have inside : ¬ (0 < (sock.stream.take k).length ∧ (zeros 1024).length < 0 + (sock.stream.take k).length) := by
            rw [List.length_take, length_zeros]
            omega
          have some_ : (k : Int) ≠ 0 := by omega
          have few : k ≠ 4 := by omega
          rw [recvPart, asked, recv_eq up (by omega) coming piece] at got
          dsimp only at got
          rw [count, if_neg inside, if_neg some_, if_neg few] at got
          have part : 1 ≤ k ∧ k ≤ 3 := by omega
          refine header_never ?_ (.inl part) got
          exact up

/-- A frame whose header comes whole is recovered, wherever its body is cut. -/
theorem receive_whole {o : ByteOrder} {fuel : Nat} {sock : Socket} {rest : Bytes} (b : Body) (enough : 1023 ≤ fuel)
    (up : sock.closed = false) (ahead : sock.stream = frame o b.text ++ rest) (cut : 4 ≤ sock.cuts 0) :
    receive o fuel sock = .ok (some (b.text.length, b.held, { sock with
      stream := rest
      cuts := afterBytes (fun i => sock.cuts (i + 1)) b.text.length })) := by
  have some_ := b.nonempty
  have short := b.short
  obtain ⟨fuel, rfl⟩ := Nat.exists_eq_succ_of_ne_zero (show fuel ≠ 0 by omega)
  rw [frame, List.append_assoc] at ahead
  have header : recvPart assigned (fuel + 1) 4 (zeros 1024) 0 sock = _ := header_whole up ahead (length_intBytes o _) cut
  have front : (store (zeros 1024) 0 (intBytes o b.text.length)).take 4 = intBytes o b.text.length := by
    rw [store_zeros, ← length_intBytes o b.text.length, List.take_left]
  have len : sizeT (readInt o (intBytes o b.text.length)) = b.text.length := by
    rw [readInt_intBytes o (by omega), sizeT_of_nonneg (by omega) (by omega)]
    omega
  have body : recvPart added (fuel + 1) b.text.length (zeros 1024) 0
      { sock with stream := b.text ++ rest, cuts := fun i => sock.cuts (i + 1) } = _ :=
    body_delivers up rfl (Nat.zero_add _) (List.length_pos_iff.mp some_) (by rw [length_zeros]; omega) (by omega)
      (by omega)
  have nul : 0 ∈ store (zeros 1024) 0 b.text := (mem_store_zeros (by omega)).mpr (.inl (by omega))
  rw [receive, header, Outcome.ok_bind]
  simp only [front, len]
  rw [body, Outcome.ok_bind]
  simp only [if_pos nul]
  rfl

/-! ## All of a stream -/

theorem frames_cons (o : ByteOrder) (b : Body) (bodies : List Body) :
    frames o (b :: bodies) = frame o b.text ++ frames o bodies := List.flatMap_cons

theorem take_held (b : Body) : b.held.take b.text.length = b.text := by
  rw [Body.held, store_zeros, List.take_left]

variable {j}

/-- One pass over a frame: its body is recovered if the header comes whole. -/
theorem recive_cons {fuel : Nat} (passes : Nat) (b : Body) (bodies : List Body) (sock : Socket) (enough : 1023 ≤ fuel) :
    reciveMusicInfo j fuel (passes + 1) (arriving j.order (b :: bodies) sock) =
      if 4 ≤ sock.cuts 0 then
        b.text :: match answer j b.held with
          | .ok _ => reciveMusicInfo j fuel passes (arriving j.order bodies
              { sock with cuts := afterBytes (fun i => sock.cuts (i + 1)) b.text.length })
          | .error _ => []
      else [] := by
  rw [reciveMusicInfo]
  by_cases cut : 4 ≤ sock.cuts 0
  · have whole : receive j.order fuel (arriving j.order (b :: bodies) sock) = .ok (some (b.text.length, b.held,
        arriving j.order bodies { sock with cuts := afterBytes (fun i => sock.cuts (i + 1)) b.text.length })) :=
      receive_whole b enough rfl (frames_cons j.order b bodies) cut
    rw [whole, if_pos cut]
    dsimp only
    rw [take_held]
  · rw [if_neg cut]
    split
    next came =>
      have early : (arriving j.order (b :: bodies) sock).cuts 0 < 4 := Nat.lt_of_not_le cut
      refine absurd came (receive_split rfl ?_ early)
      change 4 ≤ (frames j.order (b :: bodies)).length
      rw [frames_cons, List.length_append, length_frame]
      omega
    next => rfl

/-- With fuel enough, all bodies are recovered exactly where no header is split
and nothing goes wrong before the last one. -/
theorem recives_iff {fuel passes : Nat} {bodies : List Body} {sock : Socket} (enough : 1023 ≤ fuel)
    (more : bodies.length ≤ passes) :
    reciveMusicInfo j fuel passes (arriving j.order bodies sock) = bodies.map Body.text ↔
      Unsplit sock.cuts bodies ∧ ∀ b ∈ bodies.dropLast, Answered j b := by
  induction bodies generalizing passes sock with
  | nil =>
      refine iff_of_true ?_ ⟨trivial, nofun⟩
      cases passes with
      | zero => rfl
      | succ passes =>
          unfold reciveMusicInfo
          split
          next came => exact absurd came (receive_dry rfl rfl)
          next => rfl
  | cons b bodies ih =>
      obtain ⟨passes, rfl⟩ := Nat.exists_eq_succ_of_ne_zero (show passes ≠ 0 by rw [List.length_cons] at more; omega)
      rw [recive_cons passes b bodies sock enough, List.map_cons, Unsplit]
      by_cases cut : 4 ≤ sock.cuts 0
      swap
      · rw [if_neg cut]
        exact iff_of_false nofun fun all => cut all.1.1
      rw [if_pos cut, List.cons_eq_cons, and_iff_right rfl, and_iff_right cut]
      cases answered : answer j b.held with
      | ok reply =>
          have goes : Answered j b := (answered_iff j).mpr ⟨reply, answered⟩
          have others : (∀ x ∈ (b :: bodies).dropLast, Answered j x) ↔ ∀ x ∈ bodies.dropLast, Answered j x := by
            cases bodies with
            | nil => simp
            | cons b' bodies => rw [List.dropLast_cons_cons, List.forall_mem_cons, and_iff_right goes]
          rw [others]
          exact ih (Nat.le_of_succ_le_succ more)
      | error fault =>
          have unanswered : ¬ Answered j b := by
            intro goes
            obtain ⟨reply, same⟩ := (answered_iff j).mp goes
            rw [answered] at same
            cases same
          cases bodies with
          | nil => exact iff_of_true rfl ⟨trivial, nofun⟩
          | cons b' bodies =>
              rw [List.dropLast_cons_cons, List.forall_mem_cons]
              exact iff_of_false nofun fun all => unanswered all.2.1

/-- The speaker's reader recovers them all in any case. -/
theorem recSocketDatas_eq {o : ByteOrder} {fuel : Nat} {bodies : List Body} {sock : Socket} (enough : 1023 ≤ fuel) :
    recSocketDatas o fuel bodies.length (arriving o bodies sock) = .ok (bodies.map Body.held) := by
  induction bodies generalizing sock with
  | nil => rfl
  | cons b bodies ih =>
      have short := b.short
      obtain ⟨next, taken, ⟨cuts, rfl⟩⟩ : ∃ next, recSocketData o fuel (zeros 1024) (arriving o (b :: bodies) sock) =
          .ok (b.held, next) ∧ (arriving o (b :: bodies) sock).After (frames o bodies) next :=
        recSocketData_bytes o b.nonempty short (by omega) (by omega) rfl (frames_cons o b bodies)
      rw [List.length_cons, recSocketDatas, taken, Outcome.ok_bind]
      change (recSocketDatas o fuel bodies.length (arriving o bodies { sock with cuts }) >>= _) = _
      rw [ih]
      rfl

/-- The test server recovers what the speaker would exactly where no header is
split and every message but the last is one it comes through. -/
theorem sameBodies_iff (bodies : List Body) (sock : Socket) :
    SameBodies j bodies sock ↔ Unsplit sock.cuts bodies ∧ ∀ b ∈ bodies.dropLast, Answered j b := by
  constructor
  · rintro ⟨enough, same⟩
    have both := same (enough + 1023) (enough + bodies.length) (Nat.le_add_right _ _) (Nat.le_add_right _ _)
    exact (recives_iff (Nat.le_add_left _ _) (Nat.le_add_left _ _)).mp both.1
  · intro fine
    refine ⟨1023 + bodies.length, fun fuel passes enough more => ⟨?_, ?_⟩⟩
    · exact (recives_iff (by omega) (by omega)).mpr fine
    · exact recSocketDatas_eq (by omega)

/-- A request of 25 bytes. -/
def request : Body where
  text := lit "\x7b\"cmd\": \"get_music_list\"\x7d"
  nonempty := by decide
  short := by decide

/-- The first `recv` gives two bytes of its header, and the other two do not make it four. -/
theorem split_header_lost : ¬ ∀ (j : JsonC) (bodies : List Body) (sock : Socket), SameBodies j bodies sock := by
  intro always
  obtain ⟨enough, same⟩ := always mute [request] ⟨[], fun _ => 2, .quiet, false, 5, [5], 5, true⟩
  have both := same (enough + 1023) (enough + 1) (by omega) (by omega)
  have unsplit := ((recives_iff (by omega) (by simp)).mp both.1).1
  exact absurd unsplit.1 (by decide)

end MusicPlayer.TestServer
