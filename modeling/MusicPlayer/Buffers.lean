import MusicPlayer.Server.Frame
import MusicPlayer.Speaker.Receive

/-! What the two readers do to the 1024-byte buffer of their caller, whatever a
peer puts into the header and behind it. -/
namespace MusicPlayer
open CBytes

/-- However long the reader runs, it stores inside its buffer, and when it
comes back a terminating NUL is left there. -/
def StaysInside {σ : Type} (run : Nat → Outcome Fault (Bytes × σ)) : Prop :=
  (∀ fuel e, run fuel ≠ .fault e) ∧
    ∀ fuel buffer rest, run fuel = .ok (buffer, rest) → buffer.length = 1024 ∧ 0 ∈ buffer

/-- Of `body`, announced with `len` bytes, what has arrived goes into the buffer,
and a full buffer has a NUL among the bytes received. -/
def Contained (len : Nat) (body : Bytes) : Prop :=
  min len body.length ≤ 1024 ∧ (len = 1024 → 1024 ≤ body.length → 0 ∈ body.take 1024)

/-- The terminator survives what a contained body stores from offset 0. -/
theorem terminated_iff {len : Nat} {body : Bytes} (fits : min len body.length ≤ 1024) :
    0 ∈ store (zeros 1024) 0 (body.take len) ↔
      (min len body.length = 1024 → 0 ∈ body.take len) := by
  have size : (body.take len).length = min len body.length := List.length_take
  rw [mem_store_zeros (by omega), size]
  constructor
  · rintro (short | inside) full
    · omega
    · exact inside
  · intro full
    by_cases short : min len body.length < 1024
    · exact .inl short
    · exact .inr (full (by omega))

namespace Server
variable (o : ByteOrder)

/-- An empty input never makes the loop store anything. -/
theorem readLoop_dry (fuel : Nat) (want : Int) {buffer : Bytes} {r : Int} (inside : r.toNat ≤ buffer.length)
    (e : Fault) : readLoop fuel want buffer r [] ≠ .fault e := by
  induction fuel with
  | zero => simp [readLoop]
  | succ fuel ih =>
      rw [readLoop_succ, List.take_nil, List.drop_nil, store_nil, List.length_nil,
        if_neg (by omega), Int.natCast_zero, Int.add_zero]
      split
      · exact ih
      · split
        · simp
        · exact ih

/-- The loop leaves the buffer exactly when more is asked for, and there, than fits. -/
theorem readLoop_inside_iff {want : Int} {buffer input : Bytes} (lower : -4294967296 ≤ want)
    (upper : want < 2147483648) (size : buffer.length = 1024) :
    (∀ fuel e, readLoop fuel want buffer 0 input ≠ .fault e) ↔
      min (sizeT want) input.length ≤ 1024 := by
  have got : (input.take (sizeT want)).length = min (sizeT want) input.length := List.length_take
  constructor
  · intro never
    by_contra exceeds
    refine never 1 .outOfBounds ?_
    rw [readLoop_succ, Int.sub_zero, got, if_pos (by simp only [Int.toNat_zero]; omega)]
  · intro fits fuel e
    induction fuel with
    | zero => simp [readLoop]
    | succ fuel ih =>
        rw [readLoop_succ, Int.sub_zero, got, if_neg (by simp only [Int.toNat_zero]; omega),
          Int.zero_add, Int.toNat_zero]
        by_cases empty : min (sizeT want) input.length = 0
        · -- nothing asked for or nothing there: the state stays as it was
          have none_ : input.take (sizeT want) = [] := List.length_eq_zero_iff.mp (got.trans empty)
          have all : input.drop (sizeT want) = input := by
            have halves := List.take_append_drop (sizeT want) input
            rwa [none_, List.nil_append] at halves
          rw [empty, if_pos (by omega), none_, store_nil, all]
          exact ih
        · rw [if_neg (by omega)]
          by_cases reached : ((min (sizeT want) input.length : Nat) : Int) = want
          · rw [if_pos reached]
            simp
          · -- the one read has emptied the input
            have short : input.length ≤ sizeT want := by
              simp only [sizeT] at reached fits ⊢
              omega
            rw [if_neg reached, List.drop_of_length_le short]
            refine readLoop_dry fuel want ?_ e
            rw [length_store (by rw [got]; omega)]
            omega

/-- With the header there, what is left of the call is the second loop. -/
theorem serverReadData_body (fuel : Nat) {input : Bytes} (four : 4 ≤ input.length) :
    serverReadData o (fuel + 1) input zeroed =
      readLoop (fuel + 1) (readInt o (input.take 4)) zeroed 0 (input.drop 4) >>=
        fun res => if 0 ∈ res.1 then .ok res else .fault .outOfBounds := by
  obtain ⟨read, cleared⟩ := header_read (n := 1024) four (by omega)
  have header : readLoop (fuel + 1) (4 : Nat) zeroed 0 input =
      .ok (store zeroed 0 (input.take 4), input.drop 4) :=
    readLoop_whole fuel (by omega) four (by rw [length_zeros]; omega) (by omega)
  have four_ : ((4 : Nat) : Int) = 4 := rfl
  rw [four_] at header
  simp only [serverReadData, header, Outcome.ok_bind, read, cleared]
  rfl

/-- A call that comes back has left a NUL in its buffer. -/
theorem serverReadData_terminated {fuel : Nat} {input buffer rest : Bytes}
    (came : serverReadData o fuel input zeroed = .ok (buffer, rest)) :
    buffer.length = 1024 ∧ 0 ∈ buffer := by
  have ⟨⟨_, pos, present, room⟩, same⟩ := serverReadData_ok o came
  simp only [serverReadData, Outcome.bind_eq_ok] at came
  obtain ⟨_, _, ⟨filled, _⟩, _, ends⟩ := came
  constructor
  · rw [(Prod.mk.inj same).1, length_store (by rw [List.length_take, length_zeros]; omega),
      length_zeros]
  · split at ends
    next nul =>
      rw [← (Prod.mk.inj (Outcome.ok.inj ends)).1]
      exact nul
    next => cases ends

/-- `ServerReadData` keeps to its buffer exactly when the header is incomplete
or the body is contained. -/
theorem serverReadData_inside_iff (input : Bytes) :
    StaysInside (fun fuel => serverReadData o fuel input zeroed) ↔
      input.length < 4 ∨ Contained (sizeT (readInt o (input.take 4))) (input.drop 4) := by
  have lower := readInt_ge o (input.take 4)
  have upper := readInt_lt o (b := input.take 4) (by rw [List.length_take]; omega)
  have body_iff : (∀ fuel e, readLoop fuel (readInt o (input.take 4)) zeroed 0 (input.drop 4) ≠ .fault e) ↔
      min (sizeT (readInt o (input.take 4))) (input.drop 4).length ≤ 1024 :=
    readLoop_inside_iff lower upper (length_zeros 1024)
  by_cases four : 4 ≤ input.length
  swap
  · -- the header loop spins on what little there is
    refine iff_of_true ⟨?_, fun _ _ _ => serverReadData_terminated o⟩ (.inl (by omega))
    intro fuel e faulted
    simp only [serverReadData, Outcome.bind_eq_fault] at faulted
    rcases faulted with header | ⟨_, header, _⟩
    · refine (readLoop_inside_iff (by omega) (by omega) (length_zeros 1024)).mpr ?_ fuel e header
      omega
    · have enough := (readLoop_ok (by omega) (.inl (by omega)) (by omega) header).2.1
      omega
  rw [or_iff_right (by omega)]
  constructor
  · intro stays
    have never : ∀ fuel e, serverReadData o fuel input zeroed ≠ .fault e := stays.1
    have fits : min (sizeT (readInt o (input.take 4))) (input.drop 4).length ≤ 1024 := by
      rw [← body_iff]
      intro fuel e faulted
      cases fuel with
      | zero => simp [readLoop] at faulted
      | succ fuel =>
          refine never (fuel + 1) e ?_
          rw [serverReadData_body o fuel four, faulted, Outcome.fault_bind]
    refine ⟨fits, ?_⟩
    intro full present
    have word : readInt o (input.take 4) = (1024 : Nat) := by
      simp only [sizeT] at full
      omega
    have second : readLoop 1 (1024 : Nat) zeroed 0 (input.drop 4) =
        .ok (store zeroed 0 ((input.drop 4).take 1024), (input.drop 4).drop 1024) :=
      readLoop_whole 0 (by omega) present (by rw [length_zeros]) (by omega)
    by_contra free
    refine never 1 .outOfBounds ?_
    have none_ : 0 ∉ store zeroed 0 ((input.drop 4).take 1024) := by
      rw [terminated_iff (by omega)]
      exact fun terminated => free (terminated (by omega))
    rw [serverReadData_body o 0 four, word, second, Outcome.ok_bind, if_neg none_]
  · rintro ⟨fits, full⟩
    refine ⟨?_, fun _ _ _ => serverReadData_terminated o⟩
    intro fuel e faulted
    cases fuel with
    | zero => simp [serverReadData, readLoop] at faulted
    | succ fuel =>
        change serverReadData o (fuel + 1) input zeroed = .fault e at faulted
        rw [serverReadData_body o fuel four, Outcome.bind_eq_fault] at faulted
        rcases faulted with body | ⟨⟨filled, rest⟩, second, ends⟩
        · exact body_iff.mpr fits (fuel + 1) e body
        · obtain ⟨pos, present, room, same⟩ := readLoop_ok (by omega) (by omega) (by omega) second
          simp only [Int.sub_zero, Int.toNat_zero, Prod.mk.injEq, length_zeros] at same present room
          obtain ⟨rfl, rfl⟩ := same
          rw [sizeT_of_nonneg (by omega) (by omega)] at fits full
          have nul : 0 ∈ store zeroed 0 ((input.drop 4).take (readInt o (input.take 4)).toNat) := by
            rw [terminated_iff fits]
            intro whole
            have len : (readInt o (input.take 4)).toNat = 1024 := by omega
            rw [len]
            exact full len (by omega)
          rw [if_pos nul] at ends
          cases ends

end Server

namespace Speaker
variable (o : ByteOrder)

/-- Nothing more will come out of `recv`: the descriptor is closed or the stream used up. -/
def Socket.Dry (sock : Socket) : Prop := sock.closed = true ∨ sock.stream = []

theorem hangUp_dry (sock : Socket) (_ : sock.Dry) : sock.hangUp.Dry := .inl rfl

theorem id_dry (sock : Socket) (dry : sock.Dry) : (id sock).Dry := dry

theorem recv_dry {sock : Socket} (dry : sock.Dry) (n : Nat) :
    sock.recv n = none ∨ ∃ r, sock.recv n = some (r, [], sock) := by
  by_cases closed : sock.closed = true
  · exact .inr ⟨-1, if_pos closed⟩
  · have up : sock.closed = false := by simpa using closed
    rcases recv_used_up (n := n) up (dry.resolve_left closed) with blocked | ended | failed
    · exact .inl blocked
    · exact .inr ⟨0, ended⟩
    · exact .inr ⟨-1, failed⟩

/-- On a dry socket the loop only counts; the buffer stays as it is. -/
theorem recvLoop_dry {onZero : Socket → Socket} (keeps : ∀ sock : Socket, sock.Dry → (onZero sock).Dry)
    (fuel want : Nat) (data : Bytes) (size : Nat) {sock : Socket} (dry : sock.Dry) :
    recvLoop onZero fuel want data size sock = .running ∨
      ∃ next, recvLoop onZero fuel want data size sock = .ok (data, next) ∧ next.Dry := by
  induction fuel generalizing size sock with
  | zero => exact .inl rfl
  | succ fuel ih =>
      rw [recvLoop]
      rcases recv_dry dry (sizeT ((want : Int) - size)) with blocked | ⟨r, received⟩
      · rw [blocked]
        exact .inl rfl
      · rw [received]
        simp only [List.length_nil, Nat.lt_irrefl, false_and, if_false, store_nil]
        split
        · exact .inr ⟨sock, rfl, dry⟩
        · refine ih _ ?_
          split
          · exact keeps sock dry
          · exact dry

/-- An open socket that has nothing more to report keeps the loop for ever. -/
theorem recvLoop_waits (fuel : Nat) {want size : Nat} (data : Bytes) {sock : Socket}
    (up : sock.closed = false) (empty : sock.stream = []) (no_error : sock.ending ≠ .error)
    (word : want < 18446744073709551616) (behind : size < want) :
    recvLoop id fuel want data size sock = .running := by
  induction fuel with
  | zero => rfl
  | succ fuel ih =>
      have asked : sizeT ((want : Int) - size) ≠ 0 := by
        rw [sizeT_of_nonneg (by omega) (by omega)]
        omega
      rw [recvLoop, Socket.recv, up, if_neg (by simp), if_neg asked, if_pos empty]
      cases ends : sock.ending with
      | quiet => rfl
      | eof =>
          have same : sizeT ((size : Int) + 0) = size := sizeT_eq (by omega) (by omega)
          simp only [List.length_nil, Nat.lt_irrefl, false_and, if_false, store_nil, same,
            if_neg (Nat.ne_of_lt behind), id, ite_self]
          exact ih
      | error => exact absurd ends no_error

/-- Where every `recv` fails, the count goes down, wraps and comes to `want` in the end. -/
theorem recvLoop_unwinds (fuel : Nat) {want size : Nat} (data : Bytes) {sock : Socket}
    (up : sock.closed = false) (empty : sock.stream = []) (fails : sock.ending = .error)
    (word : want < 18446744073709551616) (word' : size < 18446744073709551616) (apart : size ≠ want)
    (enough : sizeT ((size : Int) - want) ≤ fuel) :
    recvLoop id fuel want data size sock = .ok (data, sock) := by
  induction fuel generalizing size with
  | zero =>
      simp only [sizeT] at enough
      omega
  | succ fuel ih =>
      have asked : sizeT ((want : Int) - size) ≠ 0 := by
        simp only [sizeT]
        omega
      rw [recvLoop, Socket.recv, up, if_neg (by simp), if_neg asked, if_pos empty, fails]
      simp only [List.length_nil, Nat.lt_irrefl, false_and, if_false, store_nil, id, ite_self]
      by_cases reached : sizeT ((size : Int) + -1) = want
      · rw [if_pos reached]
      · rw [if_neg reached]
        refine ih ?_ reached ?_
        · simp only [sizeT]
          omega
        · simp only [sizeT] at enough reached ⊢
          omega

/-- Where more is asked for, and there, than fits, the loop leaves the buffer. -/
theorem recvLoop_overflows (onZero : Socket → Socket) (fuel : Nat) {want size : Nat} {data : Bytes}
    {sock : Socket} (up : sock.closed = false) (word : want < 18446744073709551616)
    (exceeds : data.length < size + min (want - size) sock.stream.length) (inside : size ≤ data.length)
    (enough : data.length < size + fuel) :
    recvLoop onZero fuel want data size sock = .fault .outOfBounds := by
  induction fuel generalizing size data sock with
  | zero => omega
  | succ fuel ih =>
      have coming : sock.stream ≠ [] := by
        intro empty
        rw [empty, List.length_nil] at exceeds
        omega
      obtain ⟨k, cuts, least, most, there, step⟩ :=
        recvLoop_takes onZero fuel data up coming (show size < want by omega) word
      rw [step]
      by_cases past : data.length < size + k
      · rw [if_pos past]
      · have kept : (store data size (sock.stream.take k)).length = data.length :=
          length_store (by rw [List.length_take]; omega)
        rw [if_neg past, if_neg (by omega)]
        refine ih ?_ ?_ ?_ ?_
        · exact up
        · rw [kept, List.length_drop]
          omega
        · omega
        · omega

/-- What has come of the loop where all that can arrive fits: it is still
running, it has its bytes, or it has used up a stream that is too short. -/
theorem recvLoop_drains (onZero : Socket → Socket) (fuel : Nat) {want size : Nat} {data : Bytes}
    {sock : Socket} (up : sock.closed = false) (behind : size < want)
    (word : want < 18446744073709551616)
    (fits : size + min (want - size) sock.stream.length ≤ data.length) :
    (recvLoop onZero fuel want data size sock = .running ∧ fuel ≤ sock.stream.length) ∨
    (want ≤ size + sock.stream.length ∧ ∃ next, recvLoop onZero fuel want data size sock =
        .ok (store data size (sock.stream.take (want - size)), next) ∧
      sock.After (sock.stream.drop (want - size)) next) ∨
    (size + sock.stream.length < want ∧ ∃ fuel' drained, fuel ≤ fuel' + sock.stream.length ∧
      sock.After [] drained ∧ recvLoop onZero fuel want data size sock =
        recvLoop onZero fuel' want (store data size sock.stream) (size + sock.stream.length) drained) := by
  induction fuel generalizing size data sock with
  | zero => exact .inl ⟨rfl, by omega⟩
  | succ fuel ih =>
      by_cases coming : sock.stream = []
      · refine .inr (.inr ⟨by rw [coming, List.length_nil]; omega, fuel + 1, sock, by omega, ?_, ?_⟩)
        · exact ⟨sock.cuts, by rw [← coming]⟩
        · rw [coming, store_nil, List.length_nil]
          rfl
      obtain ⟨k, cuts, least, most, there, step⟩ :=
        recvLoop_takes onZero fuel data up coming behind word
      have count : (sock.stream.take k).length = k := by
        rw [List.length_take]
        omega
      have kept : (store data size (sock.stream.take k)).length = data.length :=
        length_store (by omega)
      have joined : ∀ m, store (store data size (sock.stream.take k)) (size + k)
          ((sock.stream.drop k).take m) = store data size (sock.stream.take (k + m)) := by
        intro m
        have both : store (store data size (sock.stream.take k)) (size + (sock.stream.take k).length)
            ((sock.stream.drop k).take m) =
              store data size (sock.stream.take k ++ (sock.stream.drop k).take m) :=
          store_store (by omega)
        rwa [count, ← List.take_add] at both
      rw [step, if_neg (by omega)]
      by_cases reached : size + k = want
      · have all : want - size = k := by omega
        rw [if_pos reached, all]
        exact .inr (.inl ⟨by omega, _, rfl, cuts, rfl⟩)
      rw [if_neg reached]
      have left_ : (sock.stream.drop k).length = sock.stream.length - k := List.length_drop
      obtain ⟨later, at_⟩ : ∃ later, later = { sock with stream := sock.stream.drop k, cuts } :=
        ⟨_, rfl⟩
      have ahead : later.stream = sock.stream.drop k := by rw [at_]
      have after : ∀ {rest next}, later.After rest next → sock.After rest next := by
        rintro rest next ⟨cuts', rfl⟩
        exact ⟨cuts', by rw [at_]⟩
      rw [← at_]
      rcases @ih (size + k) (store data size (sock.stream.take k)) later
          (by rw [at_, up]) (by omega) (by rw [ahead, kept, left_]; omega) with
        ⟨running, few⟩ | ⟨enough, next, came, left'⟩ | ⟨short, fuel', drained, few, dry, same⟩
      · rw [ahead, left_] at few
        exact .inl ⟨running, by omega⟩
      · rw [ahead, left_] at enough
        rw [ahead, joined, show k + (want - (size + k)) = want - size by omega] at came
        rw [ahead, List.drop_drop, show k + (want - (size + k)) = want - size by omega] at left'
        exact .inr (.inl ⟨by omega, next, came, after left'⟩)
      · have whole := joined (sock.stream.drop k).length
        rw [List.take_length, left_, show k + (sock.stream.length - k) = sock.stream.length by omega,
          List.take_length] at whole
        rw [ahead, left_] at short few same
        rw [whole, show size + k + (sock.stream.length - k) = size + sock.stream.length by omega] at same
        exact .inr (.inr ⟨by omega, fuel', drained, by omega, after dry, same⟩)

theorem length_recvLoop {onZero : Socket → Socket} {fuel want size : Nat} {data : Bytes} {sock : Socket}
    {res : Bytes × Socket} (h : recvLoop onZero fuel want data size sock = .ok res) :
    res.1.length = data.length := by
  induction fuel generalizing size data sock with
  | zero => cases h
  | succ fuel ih =>
      rw [recvLoop] at h
      split at h
      next => cases h
      next r got sock' received =>
        by_cases past : 0 < got.length ∧ data.length < size + got.length
        · rw [if_pos past] at h
          cases h
        have kept : (store data size got).length = data.length := by
          cases got with
          | nil => rw [store_nil]
          | cons b got => exact length_store (by simp only [List.length_cons] at past ⊢; omega)
        simp only [if_neg past] at h
        split at h
        · rw [← Outcome.ok.inj h]
          exact kept
        · rw [ih h, kept]

/-- The log line that ends the call prints the buffer as a C string. -/
def logged (res : Bytes × Socket) : Outcome Fault (Bytes × Socket) :=
  if 0 ∈ res.1 then .ok res else .fault .outOfBounds

theorem recSocketData_eq (fuel : Nat) (data : Bytes) (sock : Socket) :
    recSocketData o fuel data sock = recvLoop Socket.hangUp fuel 4 data 0 sock >>= fun headed =>
      recvLoop id fuel (sizeT (readInt o (headed.1.take 4)))
        (store headed.1 0 (List.replicate 4 0)) 0 headed.2 >>= logged := rfl

theorem recSocketData_terminated {fuel : Nat} {sock : Socket} {buffer : Bytes} {rest : Socket}
    (came : recSocketData o fuel (zeros 1024) sock = .ok (buffer, rest)) :
    buffer.length = 1024 ∧ 0 ∈ buffer := by
  rw [recSocketData_eq] at came
  obtain ⟨⟨headed, sock'⟩, header, came⟩ := Outcome.bind_eq_ok.mp came
  obtain ⟨filled, second, ends⟩ := Outcome.bind_eq_ok.mp came
  have size := length_recvLoop header
  have size' := length_recvLoop second
  rw [length_store (by rw [size, List.length_replicate, length_zeros]; omega), size,
    length_zeros] at size'
  unfold logged at ends
  split at ends
  next nul =>
    cases ends
    exact ⟨size', nul⟩
  next => cases ends

theorem clear_header {buffer : Bytes} (short : buffer.length ≤ 4) :
    store (store (zeros 1024) 0 buffer) 0 (List.replicate 4 0) = zeros 1024 := by
  have tail : (buffer ++ zeros (1024 - buffer.length)).drop 4 = zeros 1020 := by
    rw [List.drop_append, List.drop_of_length_le short, List.nil_append, zeros, List.drop_replicate]
    congr 1
    omega
  rw [store_zeros, store, List.take_zero, List.nil_append, List.length_replicate, Nat.zero_add, tail]
  rfl

/-- Where the header loop finds no whole header, nothing further is received. -/
theorem recSocketData_dry {fuel : Nat} {sock : Socket} (buffer : Bytes) (short : buffer.length ≤ 4)
    (header : recvLoop Socket.hangUp fuel 4 (zeros 1024) 0 sock = .running ∨
      ∃ next, recvLoop Socket.hangUp fuel 4 (zeros 1024) 0 sock =
        .ok (store (zeros 1024) 0 buffer, next) ∧ next.Dry) (e : Fault) :
    recSocketData o fuel (zeros 1024) sock ≠ .fault e := by
  rw [recSocketData_eq]
  rcases header with running | ⟨next, came, dry⟩
  · rw [running]
    simp
  · rw [came, Outcome.ok_bind]
    dsimp only
    rw [clear_header short]
    rcases recvLoop_dry id_dry fuel (sizeT (readInt o ((store (zeros 1024) 0 buffer).take 4)))
      (zeros 1024) 0 dry with running | ⟨last, came, _⟩
    · rw [running]
      simp
    · have nul : 0 ∈ zeros 1024 := List.mem_replicate.mpr ⟨by omega, rfl⟩
      rw [came, Outcome.ok_bind, logged, if_pos nul]
      simp

/-- With a header to come the call is still in the first loop, or what is left
of it is the second loop on a zeroed buffer. -/
theorem recSocketData_body (fuel : Nat) {sock : Socket} (up : sock.closed = false)
    (four : 4 ≤ sock.stream.length) :
    (recSocketData o fuel (zeros 1024) sock = .running ∧ fuel ≤ sock.stream.length) ∨
    ∃ next, sock.After (sock.stream.drop 4) next ∧ recSocketData o fuel (zeros 1024) sock =
      recvLoop id fuel (sizeT (readInt o (sock.stream.take 4))) (zeros 1024) 0 next >>= logged := by
  obtain ⟨read, cleared⟩ := header_read (n := 1024) four (by omega)
  rw [recSocketData_eq]
  rcases recvLoop_drains Socket.hangUp fuel up (show 0 < 4 by omega) (by omega)
      (show 0 + min (4 - 0) sock.stream.length ≤ (zeros 1024).length by rw [length_zeros]; omega) with
    ⟨running, few⟩ | ⟨_, next, came, after⟩ | ⟨short, _⟩
  · exact .inl ⟨by rw [running, Outcome.running_bind], few⟩
  · refine .inr ⟨next, after, ?_⟩
    rw [came, Outcome.ok_bind]
    dsimp only
    rw [read, cleared]
  · omega

/-- `recv` keeps to the buffer as the server's reader does, but a failing link
lets a call end that has only got a part of its body. -/
def ReceivedInside (sock : Socket) : Prop :=
  let len := sizeT (readInt o (sock.stream.take 4))
  let body := sock.stream.drop 4
  Contained len body ∧ (1024 < len → body.length = 1024 → sock.ending = .error → 0 ∈ body)

/-- Nothing is asked for, so the first `recv` ends the loop. -/
theorem recvLoop_none (fuel : Nat) (data : Bytes) {sock : Socket} (up : sock.closed = false) :
    recvLoop id (fuel + 1) 0 data 0 sock = .ok (data, sock) := by
  have none_ : sizeT ((0 : Nat) - (0 : Nat)) = 0 := rfl
  rw [recvLoop, none_, Socket.recv, up, if_neg (by simp), if_pos rfl]
  simp [store_nil, sizeT]

theorem Socket.After.frame {sock next : Socket} {rest : Bytes} (after : sock.After rest next) :
    next.stream = rest ∧ next.closed = sock.closed ∧ next.ending = sock.ending := by
  obtain ⟨cuts, rfl⟩ := after
  exact ⟨rfl, rfl, rfl⟩

/-- The body loop over a zeroed buffer, where what can arrive fits: it is still
running, it has the whole body, or it has got all there is and wants more. -/
theorem recvLoop_body (fuel : Nat) {len : Nat} {sock : Socket} (up : sock.closed = false) (some_ : 0 < len)
    (word : len < 18446744073709551616) (fits : min len sock.stream.length ≤ 1024) :
    (recvLoop id fuel len (zeros 1024) 0 sock = .running ∧ fuel ≤ sock.stream.length) ∨
    (len ≤ sock.stream.length ∧ ∃ last, recvLoop id fuel len (zeros 1024) 0 sock =
        .ok (store (zeros 1024) 0 (sock.stream.take len), last)) ∨
    (sock.stream.length < len ∧ ∃ fuel' drained, fuel ≤ fuel' + sock.stream.length ∧
      drained.stream = [] ∧ drained.closed = false ∧ drained.ending = sock.ending ∧
      recvLoop id fuel len (zeros 1024) 0 sock =
        recvLoop id fuel' len (store (zeros 1024) 0 sock.stream) sock.stream.length drained) := by
  rcases recvLoop_drains id fuel up some_ word
      (show 0 + min (len - 0) sock.stream.length ≤ (zeros 1024).length by rw [length_zeros]; omega) with
    running | ⟨enough, last, came, _⟩ | ⟨short, fuel', drained, few, dry, same⟩
  · exact .inl running
  · rw [Nat.sub_zero] at came
    exact .inr (.inl ⟨by omega, last, came⟩)
  · obtain ⟨empty, up', ends⟩ := dry.frame
    rw [Nat.zero_add] at same
    exact .inr (.inr ⟨by omega, fuel', drained, few, empty, up'.trans up, ends, same⟩)

theorem recSocketData_contained {sock : Socket} (up : sock.closed = false)
    (four : 4 ≤ sock.stream.length)
    (never : ∀ fuel e, recSocketData o fuel (zeros 1024) sock ≠ .fault e) : ReceivedInside o sock := by
  have word : sizeT (readInt o (sock.stream.take 4)) < 18446744073709551616 := by
    simp only [sizeT]
    omega
  unfold ReceivedInside
  generalize len_ : sizeT (readInt o (sock.stream.take 4)) = len at *
  obtain ⟨fuel, big⟩ : ∃ fuel, sock.stream.length + 1025 + 18446744073709551616 ≤ fuel := ⟨_, le_rfl⟩
  rcases recSocketData_body o fuel up four with ⟨_, few⟩ | ⟨next, after, run⟩
  · omega
  obtain ⟨stream, up', ends⟩ := after.frame
  rw [up] at up'
  rw [len_] at run
  have safe : ∀ e, recvLoop id fuel len (zeros 1024) 0 next >>= logged ≠ .fault e := by
    intro e
    rw [← run]
    exact never fuel e
  have fits : min len (sock.stream.drop 4).length ≤ 1024 := by
    by_contra exceeds
    refine safe .outOfBounds ?_
    rw [recvLoop_overflows id fuel up' word, Outcome.fault_bind]
    · rw [stream, length_zeros]
      omega
    · omega
    · rw [length_zeros]
      omega
  have kept : ∀ {text : Bytes} {last : Socket},
      recvLoop id fuel len (zeros 1024) 0 next = .ok (store (zeros 1024) 0 text, last) →
        0 ∈ store (zeros 1024) 0 text := by
    intro text last came
    by_contra free
    refine safe .outOfBounds ?_
    rw [came, Outcome.ok_bind, logged, if_neg free]
  by_cases nothing : len = 0
  · exact ⟨⟨fits, by omega⟩, by omega⟩
  rw [← stream] at fits ⊢
  rcases recvLoop_body fuel up' (Nat.pos_of_ne_zero nothing) word fits with
    ⟨_, few⟩ | ⟨enough, last, came⟩ | ⟨short, fuel', drained, few, empty, up'', ends', same⟩
  · rw [stream, List.length_drop] at few
    omega
  · -- the whole body arrives
    have nul := (terminated_iff fits).mp (kept came)
    refine ⟨⟨fits, ?_⟩, by omega⟩
    rintro rfl present
    exact nul (by omega)
  · -- the body is cut short
    refine ⟨⟨fits, by omega⟩, ?_⟩
    intro long full failing
    have came : recvLoop id fuel' len (store (zeros 1024) 0 next.stream) next.stream.length drained =
        .ok (store (zeros 1024) 0 next.stream, drained) :=
      recvLoop_unwinds fuel' _ up'' empty (by rw [ends', ends, failing])
        word (by omega) (by omega) (by simp only [sizeT]; omega)
    rw [← same] at came
    have nul := kept came
    rw [mem_store_zeros (by omega)] at nul
    exact nul.resolve_left (by omega)

theorem recSocketData_never_faults {sock : Socket} (up : sock.closed = false)
    (four : 4 ≤ sock.stream.length) (inside : ReceivedInside o sock) (fuel : Nat) (e : Fault) :
    recSocketData o fuel (zeros 1024) sock ≠ .fault e := by
  have word : sizeT (readInt o (sock.stream.take 4)) < 18446744073709551616 := by
    simp only [sizeT]
    omega
  unfold ReceivedInside at inside
  obtain ⟨⟨fits, full⟩, failing⟩ := inside
  rcases recSocketData_body o fuel up four with ⟨running, _⟩ | ⟨next, after, run⟩
  · rw [running]
    simp
  obtain ⟨stream, up', ends⟩ := after.frame
  rw [up] at up'
  rw [run]
  generalize sizeT (readInt o (sock.stream.take 4)) = len at *
  have returns : ∀ {buffer : Bytes} {last : Socket},
      recvLoop id fuel len (zeros 1024) 0 next = .ok (buffer, last) → 0 ∈ buffer →
        recvLoop id fuel len (zeros 1024) 0 next >>= logged ≠ .fault e := by
    intro buffer last came nul
    rw [came, Outcome.ok_bind, logged, if_pos nul]
    simp
  by_cases nothing : len = 0
  · subst nothing
    cases fuel with
    | zero => simp [recvLoop]
    | succ fuel => exact returns (recvLoop_none fuel _ up') (List.mem_replicate.mpr ⟨by omega, rfl⟩)
  rw [← stream] at fits full failing
  rcases recvLoop_body fuel up' (Nat.pos_of_ne_zero nothing) word fits with
    ⟨running, _⟩ | ⟨enough, last, came⟩ | ⟨short, fuel', drained, _, empty, up'', ends', same⟩
  · rw [running]
    simp
  · refine returns came ((terminated_iff fits).mpr ?_)
    intro whole
    have len_ : len = 1024 := by omega
    rw [len_]
    exact full len_ (by omega)
  · rcases recvLoop_dry id_dry fuel' len (store (zeros 1024) 0 next.stream) next.stream.length
        (.inr empty) with running | ⟨last, came, _⟩
    · rw [same, running]
      simp
    · rw [← same] at came
      refine returns came ((mem_store_zeros (by omega)).mpr ?_)
      by_cases full_ : next.stream.length = 1024
      · -- only a failing link ends the call here
        by_cases error : sock.ending = .error
        · exact .inr (failing (by omega) full_ error)
        · have waits := recvLoop_waits fuel' (store (zeros 1024) 0 next.stream) up'' empty
            (by rw [ends', ends]; exact error) word short
          rw [← same, came] at waits
          cases waits
      · exact .inl (by omega)

/-- `RecSocketData` keeps to its buffer exactly when the socket is closed, the
header is incomplete or what is received is contained. -/
theorem recSocketData_inside_iff (sock : Socket) :
    StaysInside (fun fuel => recSocketData o fuel (zeros 1024) sock) ↔
      sock.closed = true ∨ sock.stream.length < 4 ∨ ReceivedInside o sock := by
  by_cases closed : sock.closed = true
  · refine iff_of_true ⟨?_, fun _ _ _ => recSocketData_terminated o⟩ (.inl closed)
    intro fuel e
    refine recSocketData_dry o [] (by simp) ?_ e
    rw [store_nil]
    exact recvLoop_dry hangUp_dry fuel 4 _ 0 (.inl closed)
  have up : sock.closed = false := by simpa using closed
  rw [or_iff_right closed]
  by_cases four : 4 ≤ sock.stream.length
  · rw [or_iff_right (by omega)]
    constructor
    · intro stays
      exact recSocketData_contained o up four stays.1
    · intro inside
      exact ⟨recSocketData_never_faults o up four inside, fun _ _ _ => recSocketData_terminated o⟩
  · refine iff_of_true ⟨?_, fun _ _ _ => recSocketData_terminated o⟩ (.inl (by omega))
    intro fuel e
    refine recSocketData_dry o sock.stream (by omega) ?_ e
    rcases recvLoop_drains Socket.hangUp fuel up (show 0 < 4 by omega) (by omega)
        (show 0 + min (4 - 0) sock.stream.length ≤ (zeros 1024).length by rw [length_zeros]; omega) with
      ⟨running, _⟩ | ⟨enough, _⟩ | ⟨_, fuel', drained, _, ⟨cuts, rfl⟩, same⟩
    · exact .inl running
    · omega
    · rw [same]
      exact recvLoop_dry hangUp_dry fuel' 4 _ _ (.inr rfl)

end Speaker

/-- For every byte stream, header and cutting: each reader stores at offsets 0
to 1023 and leaves a NUL there exactly when what it receives is contained. -/
theorem buffers_kept_iff (o : ByteOrder) :
    (∀ input : Bytes, StaysInside (fun fuel => Server.serverReadData o fuel input Server.zeroed) ↔
      input.length < 4 ∨ Contained (sizeT (readInt o (input.take 4))) (input.drop 4)) ∧
    ∀ sock : Speaker.Socket, StaysInside (fun fuel => Speaker.recSocketData o fuel (zeros 1024) sock) ↔
      sock.closed = true ∨ sock.stream.length < 4 ∨ Speaker.ReceivedInside o sock :=
  ⟨Server.serverReadData_inside_iff o, Speaker.recSocketData_inside_iff o⟩

/-- A header that announces 2000 bytes, and 1025 bytes behind it. -/
def longFrame : Bytes := [208, 7, 0, 0] ++ List.replicate 1025 65

/-- The speaker's end of a connection on which `stream` comes in. -/
def receiving (stream : Bytes) : Speaker.Socket where
  stream
  cuts := fun _ => 1024
  ending := .quiet
  closed := false
  sockfd := 3
  readset := [3]
  maxfd := 3
  reporting := true

/-- Byte 1024 of the buffer is written by either reader. -/
theorem long_frame_overruns :
    ¬ StaysInside (fun fuel => Server.serverReadData .little fuel longFrame Server.zeroed) ∧
      ¬ StaysInside (fun fuel => Speaker.recSocketData .little fuel (zeros 1024) (receiving longFrame)) := by
  have header : sizeT (readInt .little (longFrame.take 4)) = 2000 := by decide
  have long : longFrame.length = 1029 := by
    rw [longFrame, List.length_append, List.length_replicate]
    rfl
  have size : (longFrame.drop 4).length = 1025 := by
    rw [List.length_drop, long]
  have exceeds : ¬ Contained (sizeT (readInt .little (longFrame.take 4))) (longFrame.drop 4) := by
    rintro ⟨fits, _⟩
    rw [header, size] at fits
    omega
  constructor
  · rw [Server.serverReadData_inside_iff]
    rintro (short | inside)
    · omega
    · exact exceeds inside
  · rw [Speaker.recSocketData_inside_iff]
    rintro (closed | short | inside)
    · cases closed
    · change longFrame.length < 4 at short
      omega
    · exact exceeds inside.1

end MusicPlayer
