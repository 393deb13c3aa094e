import MusicPlayer.Message

/-! How the speaker takes frames off its socket: `RecSocketData` over a stream
that the kernel hands out in pieces of its own choosing. -/
namespace MusicPlayer.Speaker
open CBytes

/-- What the peer's side of the connection does once its bytes are used up. -/
inductive Ending
  | quiet
  | eof
  | error
  deriving DecidableEq, Repr

/-- The socket `g_sockfd` with what `RecSocketData` does to it and around it.
`cuts` is how much each coming `recv` would return of what it may. -/
structure Socket where
  stream : Bytes
  cuts : Nat → Nat
  ending : Ending
  closed : Bool
  sockfd : Int
  readset : List Int
  maxfd : Int
  reporting : Bool

/-- `recv` of at most `n` bytes: a count (or -1) and the bytes; `none` when it blocks. -/
def Socket.recv (s : Socket) (n : Nat) : Option (Int × Bytes × Socket) :=
  if s.closed then some (-1, [], s)
  else if n = 0 then some (0, [], s)
  else if s.stream = [] then
    match s.ending with
    | .quiet => none
    | .eof => some (0, [], s)
    | .error => some (-1, [], s)
  else
    let k := max 1 (min (s.cuts 0) (min n s.stream.length))
    some (k, s.stream.take k, { s with stream := s.stream.drop k, cuts := fun i => s.cuts (i + 1) })

/-- What the header loop does when it has received nothing at all. -/
def Socket.hangUp (s : Socket) : Socket :=
  { s with
    readset := s.readset.filter (· ≠ s.sockfd)
    maxfd := if s.maxfd = s.sockfd then s.maxfd - 1 else s.maxfd
    closed := true
    reporting := false }

/-- Both loops of `RecSocketData`; `size` is a `size_t`, so adding -1 wraps.
Only the header loop has a branch for `size == 0`. -/
def recvLoop (onZero : Socket → Socket) : Nat → Nat → Bytes → Nat → Socket →
    Outcome Fault (Bytes × Socket)
  | 0, _, _, _, _ => .running
  | fuel + 1, want, data, size, sock =>
      match sock.recv (sizeT ((want : Int) - size)) with
      | none => .running
      | some (r, got, sock) =>
          if 0 < got.length ∧ data.length < size + got.length then .fault .outOfBounds
          else
            let data := store data size got
            let size := sizeT (size + r)
            if size = want then .ok (data, sock)
            else recvLoop onZero fuel want data size (if size = 0 then onZero sock else sock)

variable (o : ByteOrder)

def recSocketData (fuel : Nat) (data : Bytes) (sock : Socket) : Outcome Fault (Bytes × Socket) := do
  let (data, sock) ← recvLoop Socket.hangUp fuel 4 data 0 sock
  let len := sizeT (readInt o (data.take 4))
  let data := store data 0 (List.replicate 4 0)
  let (data, sock) ← recvLoop id fuel len data 0 sock
  -- the log line prints `data` as a C string
  if 0 ∈ data then return (data, sock) else .fault .outOfBounds

/-- `sock` with `rest` still to be received, however the bytes before it were cut. -/
def Socket.After (sock : Socket) (rest : Bytes) (next : Socket) : Prop :=
  ∃ cuts, next = { sock with stream := rest, cuts }

/-- What `recv` returns on an open link with bytes to come. -/
theorem recv_eq {sock : Socket} {n : Nat} (up : sock.closed = false) (asked : 0 < n) (coming : sock.stream ≠ [])
    {k : Nat} (count : k = max 1 (min (sock.cuts 0) (min n sock.stream.length))) :
    sock.recv n = some ((k : Int), sock.stream.take k,
      { sock with stream := sock.stream.drop k, cuts := fun i => sock.cuts (i + 1) }) := by
  rw [Socket.recv, up, if_neg (by simp), if_neg (by omega), if_neg coming, count]

/-- On an open link with bytes to come, `recv` returns some of them: the front
of the stream, at least one byte and no more than was asked for. -/
theorem recv_some {sock : Socket} {n : Nat} (up : sock.closed = false) (asked : 0 < n)
    (coming : sock.stream ≠ []) :
    ∃ (k : Nat) (next : Socket), 1 ≤ k ∧ k ≤ n ∧ k ≤ sock.stream.length ∧
      sock.recv n = some ((k : Int), sock.stream.take k, next) ∧
      sock.After (sock.stream.drop k) next := by
  have long : 0 < sock.stream.length := List.length_pos_iff.mpr coming
  refine ⟨max 1 (min (sock.cuts 0) (min n sock.stream.length)), _, by omega, by omega, by omega, ?_,
    ⟨fun i => sock.cuts (i + 1), rfl⟩⟩
  exact recv_eq up asked coming rfl

/-- With none to come, it blocks or reports the end or an error. -/
theorem recv_used_up {sock : Socket} {n : Nat} (up : sock.closed = false) (dry : sock.stream = []) :
    sock.recv n = none ∨ sock.recv n = some (0, [], sock) ∨ sock.recv n = some (-1, [], sock) := by
  unfold Socket.recv
  rw [up, if_neg (by simp), dry, if_pos rfl]
  split
  · exact .inr (.inl rfl)
  · cases sock.ending with
    | quiet => exact .inl rfl
    | eof => exact .inr (.inl rfl)
    | error => exact .inr (.inr rfl)

/-- One pass of the loop on an open link with bytes to come: `k` of them go
into the buffer, or past its end. -/
theorem recvLoop_takes (onZero : Socket → Socket) (fuel : Nat) {want size : Nat} (data : Bytes)
    {sock : Socket} (up : sock.closed = false) (coming : sock.stream ≠ []) (behind : size < want)
    (word : want < 18446744073709551616) :
    ∃ k cuts, 1 ≤ k ∧ k ≤ want - size ∧ k ≤ sock.stream.length ∧
      recvLoop onZero (fuel + 1) want data size sock =
        if data.length < size + k then .fault .outOfBounds
        else if size + k = want then
          .ok (store data size (sock.stream.take k), { sock with stream := sock.stream.drop k, cuts })
        else recvLoop onZero fuel want (store data size (sock.stream.take k)) (size + k)
          { sock with stream := sock.stream.drop k, cuts } := by
  have asked : sizeT ((want : Int) - size) = want - size := sizeT_eq (by omega) (by omega)
  obtain ⟨k, next, least, most, there, received, ⟨cuts, rfl⟩⟩ :=
    recv_some up (show 0 < want - size by omega) coming
  have count : (sock.stream.take k).length = k := by
    rw [List.length_take]
    omega
  have sum : sizeT ((size : Int) + k) = size + k := sizeT_eq (by omega) (by omega)
  refine ⟨k, cuts, least, most, there, ?_⟩
  rw [recvLoop, asked, received]
  simp only [count, sum, show 0 < k from least, true_and, if_neg (show ¬ size + k = 0 by omega)]

/-- One pass of the loop while `bytes` are still missing: some of them move from
the front of the stream into the buffer. -/
theorem recvLoop_step (onZero : Socket → Socket) (fuel : Nat) {want size : Nat} {data bytes rest : Bytes}
    {sock : Socket} (up : sock.closed = false) (ahead : sock.stream = bytes ++ rest)
    (missing : size + bytes.length = want) (behind : bytes ≠ []) (fits : want ≤ data.length)
    (word : want < 18446744073709551616) :
    ∃ k cuts, 1 ≤ k ∧ k ≤ bytes.length ∧
      recvLoop onZero (fuel + 1) want data size sock =
        if size + k = want then
          .ok (store data size (bytes.take k), { sock with stream := bytes.drop k ++ rest, cuts })
        else recvLoop onZero fuel want (store data size (bytes.take k)) (size + k)
          { sock with stream := bytes.drop k ++ rest, cuts } := by
  have some_ := List.length_pos_iff.mpr behind
  obtain ⟨k, cuts, least, most, _, step⟩ :=
    recvLoop_takes onZero fuel data up (by rw [ahead]; simp [behind]) (show size < want by omega) word
  have front : sock.stream.take k = bytes.take k := by
    rw [ahead, List.take_append_of_le_length (by omega)]
  have tail : sock.stream.drop k = bytes.drop k ++ rest := by
    rw [ahead, List.drop_append_of_le_length (by omega)]
  refine ⟨k, cuts, least, by omega, ?_⟩
  rw [step, front, tail, if_neg (by omega)]

/-- The loop invariant of both reads: the bytes still missing are the front of
the stream, and at the end exactly they have been stored and consumed. -/
theorem recvLoop_delivers (onZero : Socket → Socket) {fuel want size : Nat} {data bytes rest : Bytes}
    {sock : Socket} (up : sock.closed = false) (ahead : sock.stream = bytes ++ rest)
    (missing : size + bytes.length = want) (behind : bytes ≠ []) (fits : want ≤ data.length)
    (word : want < 18446744073709551616) (enough : bytes.length ≤ fuel) :
    ∃ next, recvLoop onZero fuel want data size sock = .ok (store data size bytes, next) ∧
      sock.After rest next := by
  induction fuel generalizing size data bytes sock with
  | zero =>
      have := List.length_pos_iff.mpr behind
      omega
  | succ fuel ih =>
      obtain ⟨k, cuts, least, most, step⟩ :=
        recvLoop_step onZero fuel up ahead missing behind fits word
      have count : (bytes.take k).length = k := by
        rw [List.length_take]
        omega
      rw [step]
      by_cases all : size + k = want
      · have k_all : k = bytes.length := by omega
        subst k_all
        rw [if_pos all, List.take_length, List.drop_length, List.nil_append]
        exact ⟨_, rfl, cuts, rfl⟩
      · have left_ : (bytes.drop k).length = bytes.length - k := List.length_drop
        have kept : (store data size (bytes.take k)).length = data.length :=
          length_store (by omega)
        obtain ⟨last, delivered, ⟨cuts', rfl⟩⟩ : ∃ next, recvLoop onZero fuel want
            (store data size (bytes.take k)) (size + k)
            { sock with stream := bytes.drop k ++ rest, cuts } =
              .ok (store (store data size (bytes.take k)) (size + k) (bytes.drop k), next) ∧
            Socket.After { sock with stream := bytes.drop k ++ rest, cuts } rest next := by
          refine ih ?_ rfl ?_ ?_ ?_ ?_
          · exact up
          · omega
          · intro empty
            rw [empty, List.length_nil] at left_
            omega
          · omega
          · omega
        have joined : store (store data size (bytes.take k)) (size + k) (bytes.drop k) =
            store data size bytes := by
          have fits : size + (bytes.take k).length ≤ data.length := by omega
          have both : store (store data size (bytes.take k)) (size + (bytes.take k).length)
              (bytes.drop k) = store data size (bytes.take k ++ bytes.drop k) := store_store fits
          rwa [count, List.take_append_drop] at both
        rw [if_neg all, delivered, joined]
        exact ⟨_, rfl, cuts', rfl⟩

/-! ## The server's frames, one call each -/

/-- A text that leaves room for the header in the server's `msg[1024]`. -/
structure SentText where
  text : Bytes
  nonempty : 1 ≤ text.length
  short : text.length ≤ 1020
  noNul : 0 ∉ text

/-- The bytes of successive packets on the connection. -/
def sendAll : List Bytes → Except Fault Bytes
  | [] => .ok []
  | text :: more => do
      let first ← packet o text
      let rest ← sendAll more
      return first ++ rest

/-- `count` calls of `RecSocketData`, each on a zeroed buffer of its own. -/
def recvTexts (fuel : Nat) : Nat → Socket → Outcome Fault (List Bytes × Socket)
  | 0, sock => .ok ([], sock)
  | count + 1, sock => do
      let (data, sock) ← recSocketData o fuel (zeros 1024) sock
      let (texts, sock) ← recvTexts fuel count sock
      return (cstr data :: texts, sock)

/-- One call takes exactly one frame off the stream, wherever it is cut, as long
as a byte of the buffer is left. -/
theorem recSocketData_bytes {fuel : Nat} {sock : Socket} {text rest : Bytes} (some_ : 1 ≤ text.length)
    (size : text.length ≤ 1023) (four : 4 ≤ fuel) (enough : text.length ≤ fuel) (up : sock.closed = false)
    (ahead : sock.stream = frame o text ++ rest) :
    ∃ next, recSocketData o fuel (zeros 1024) sock = .ok (store (zeros 1024) 0 text, next) ∧
      sock.After rest next := by
  have header : (frame o text).take 4 = intBytes o text.length := by
    simpa using take_frame o text []
  obtain ⟨mid, first, ⟨cuts, rfl⟩⟩ : ∃ next, recvLoop Socket.hangUp fuel 4 (zeros 1024) 0 sock =
      .ok (store (zeros 1024) 0 (intBytes o text.length), next) ∧
      sock.After (text ++ rest) next := by
    apply recvLoop_delivers Socket.hangUp up
    · rw [ahead, frame, List.append_assoc]
    · rw [length_intBytes]
    · intro empty
      simpa using congrArg List.length empty
    · rw [length_zeros]
      omega
    · omega
    · rw [length_intBytes]
      omega
  have whole : 4 ≤ (frame o text).length := by
    rw [length_frame]
    omega
  have room : 4 ≤ 1024 := by omega
  obtain ⟨read, cleared⟩ := header_read whole room
  rw [header] at read cleared
  have len : sizeT (readInt o (intBytes o text.length)) = text.length := by
    rw [readInt_intBytes o (by omega), sizeT_of_nonneg (by omega) (by omega)]
    omega
  obtain ⟨last, second, ⟨cuts', rfl⟩⟩ : ∃ next, recvLoop id fuel text.length (zeros 1024) 0
      { sock with stream := text ++ rest, cuts } = .ok (store (zeros 1024) 0 text, next) ∧
      Socket.After { sock with stream := text ++ rest, cuts } rest next := by
    refine recvLoop_delivers id ?_ rfl ?_ ?_ ?_ ?_ ?_
    · exact up
    · omega
    · exact List.length_pos_iff.mp some_
    · rw [length_zeros]
      omega
    · omega
    · omega
  have nul : 0 ∈ store (zeros 1024) 0 text := (mem_store_zeros (by omega)).mpr (.inl (by omega))
  refine ⟨_, ?_, cuts', rfl⟩
  simp only [recSocketData, first, Outcome.ok_bind, read, cleared, len, second, if_pos nul,
    Outcome.pure_eq]

theorem recSocketData_frame {fuel : Nat} {sock : Socket} {rest : Bytes} (t : SentText)
    (enough : 1020 ≤ fuel) (up : sock.closed = false) (ahead : sock.stream = frame o t.text ++ rest) :
    ∃ next, recSocketData o fuel (zeros 1024) sock = .ok (store (zeros 1024) 0 t.text, next) ∧
      sock.After rest next := by
  have short := t.short
  exact recSocketData_bytes o t.nonempty (by omega) (by omega) (by omega) up ahead

/-- Whatever texts the server sends and however their bytes are cut on the way,
as many calls of `RecSocketData` return these texts in order and leave the
bytes behind them in the stream. -/
theorem recSocketData_round_trip (texts : List SentText) :
    ∃ sent, sendAll o (texts.map SentText.text) = .ok sent ∧
      ∀ (sock : Socket) (rest : Bytes) (fuel : Nat), ∃ next,
        recvTexts o (1020 + fuel) texts.length
            { sock with closed := false, stream := sent ++ rest } =
          .ok (texts.map SentText.text, next) ∧ next.stream = rest := by
  induction texts with
  | nil => exact ⟨[], rfl, fun sock rest fuel => ⟨_, rfl, rfl⟩⟩
  | cons t texts ih =>
      obtain ⟨sent, sends, receives⟩ := ih
      have one : packet o t.text = .ok (frame o t.text) := packet_eq_ok.mpr ⟨t.short, rfl⟩
      refine ⟨frame o t.text ++ sent, ?_, ?_⟩
      · simp only [List.map_cons, sendAll, one, sends]
        rfl
      · intro sock rest fuel
        obtain ⟨mid, first, ⟨cuts, rfl⟩⟩ : ∃ next, recSocketData o (1020 + fuel) (zeros 1024)
            { sock with closed := false, stream := frame o t.text ++ sent ++ rest } =
              .ok (store (zeros 1024) 0 t.text, next) ∧
            Socket.After { sock with closed := false, stream := frame o t.text ++ sent ++ rest }
              (sent ++ rest) next := by
          apply recSocketData_frame o t
          · omega
          · rfl
          · exact List.append_assoc (frame o t.text) sent rest
        obtain ⟨last, others, done_⟩ := receives { sock with cuts } rest fuel
        refine ⟨last, ?_, done_⟩
        have text : cstr (store (zeros 1024) 0 t.text) = t.text :=
          cstr_store_zeros t.noNul (by have := t.short; omega)
        simp only [List.length_cons, recvTexts, first, Outcome.ok_bind, others, text, List.map_cons,
          Outcome.pure_eq]

end MusicPlayer.Speaker
