import MusicPlayer.Message

/-! How the server takes messages off a connection: `ServerReadData` on the
bufferevent's input, and `ReadCb` once for every arrival of new bytes. -/
namespace MusicPlayer.Server
open CBytes

/-- `bufferevent_read`, as libevent documents it: what is there, up to `n` bytes, leaves
the front of the input. -/
def buffereventRead (input : Bytes) (n : Nat) : Bytes × Bytes := (input.take n, input.drop n)

/-- Both loops of `ServerReadData`; `want` is `sizeof(int)` in the first and
`buffer_len` in the second, `r` the bytes received so far. -/
def readLoop : Nat → Int → Bytes → Int → Bytes → Outcome Fault (Bytes × Bytes)
  | 0, _, _, _, _ => .running
  | fuel + 1, want, buffer, r, input =>
      let (got, input) := buffereventRead input (sizeT (want - r))
      if buffer.length < r.toNat + got.length then .fault .outOfBounds
      else
        let buffer := store buffer r.toNat got
        let r := r + got.length
        -- the report that the peer has closed does not leave the loop
        if r ≤ 0 then readLoop fuel want buffer r input
        else if r = want then .ok (buffer, input)
        else readLoop fuel want buffer r input

theorem readLoop_succ (fuel : Nat) (want : Int) (buffer : Bytes) (r : Int) (input : Bytes) :
    readLoop (fuel + 1) want buffer r input =
      if buffer.length < r.toNat + (input.take (sizeT (want - r))).length then .fault .outOfBounds
      else if r + (input.take (sizeT (want - r))).length ≤ 0 then
        readLoop fuel want (store buffer r.toNat (input.take (sizeT (want - r))))
          (r + (input.take (sizeT (want - r))).length) (input.drop (sizeT (want - r)))
      else if r + (input.take (sizeT (want - r))).length = want then
        .ok (store buffer r.toNat (input.take (sizeT (want - r))), input.drop (sizeT (want - r)))
      else
        readLoop fuel want (store buffer r.toNat (input.take (sizeT (want - r))))
          (r + (input.take (sizeT (want - r))).length) (input.drop (sizeT (want - r))) := rfl

/-- `char buffer[1024] = {0}`. -/
abbrev zeroed : Bytes := zeros 1024

variable (o : ByteOrder)

def serverReadData (fuel : Nat) (input buffer : Bytes) : Outcome Fault (Bytes × Bytes) := do
  let (buffer, input) ← readLoop fuel 4 buffer 0 input
  let bufferLen := readInt o (buffer.take 4)
  let buffer := store buffer 0 (List.replicate 4 0)
  let (buffer, input) ← readLoop fuel bufferLen buffer 0 input
  -- the log line prints `buffer` as a C string
  if 0 ∈ buffer then return (buffer, input) else .fault .outOfBounds

/-- A loop that comes back has found all the bytes it wanted. -/
theorem readLoop_ok {fuel : Nat} {want : Int} {buffer : Bytes} {r : Int} {input : Bytes}
    {res : Bytes × Bytes} (lower : 0 ≤ r) (open_ : r < want ∨ want ≤ 0)
    (word : want < 18446744073709551616) (h : readLoop fuel want buffer r input = .ok res) :
    0 < want ∧ want - r ≤ input.length ∧ want ≤ buffer.length ∧
      res = (store buffer r.toNat (input.take (want - r).toNat), input.drop (want - r).toNat) := by
  induction fuel generalizing buffer r input with
  | zero => cases h
  | succ fuel ih =>
      rw [readLoop_succ] at h
      by_cases fits : buffer.length < r.toNat + (input.take (sizeT (want - r))).length
      · rw [if_pos fits] at h
        cases h
      rw [if_neg fits] at h
      by_cases behind : r < want
      · have asked : sizeT (want - r) = (want - r).toNat := sizeT_of_nonneg (by omega) (by omega)
        rw [asked] at h fits
        by_cases enough : want - r ≤ input.length
        · -- everything is there, so one read ends the loop
          have taken : (input.take (want - r).toNat).length = (want - r).toNat := by
            rw [List.length_take]
            omega
          have reached : r + ((input.take (want - r).toNat).length : Int) = want := by
            rw [taken]
            omega
          rw [reached, if_neg (by omega), if_pos rfl] at h
          rw [taken] at fits
          refine ⟨by omega, enough, by omega, ?_⟩
          exact (Outcome.ok.inj h).symm
        · -- the input runs dry, and no later read brings anything
          have all : input.take (want - r).toNat = input := List.take_of_length_le (by omega)
          have dry : input.drop (want - r).toNat = [] := List.drop_of_length_le (by omega)
          rw [all, dry] at h
          have later : ∀ {b : Bytes}, readLoop fuel want b (r + input.length) [] = .ok res → False := by
            intro b again
            have bound := (ih (by omega) (.inl (by omega)) again).2.1
            simp only [List.length_nil] at bound
            omega
          rw [if_neg (show r + (input.length : Int) ≠ want by omega), ite_self] at h
          exact (later h).elim
      · -- a wanted length of zero or less is never met
        have none_ : want ≤ 0 := open_.resolve_left behind
        split at h
        · exact absurd (ih (by omega) (.inr none_) h).1 (by omega)
        · rw [if_neg (by omega)] at h
          exact absurd (ih (by omega) (.inr none_) h).1 (by omega)

/-- With all the bytes present the first read ends the loop. -/
theorem readLoop_whole (fuel : Nat) {want : Nat} {buffer input : Bytes} (pos : 0 < want)
    (present : want ≤ input.length) (fits : want ≤ buffer.length)
    (word : want < 18446744073709551616) :
    readLoop (fuel + 1) want buffer 0 input = .ok (store buffer 0 (input.take want), input.drop want) := by
  have taken : (input.take want).length = want := by
    rw [List.length_take]
    omega
  have asked : sizeT ((want : Int) - 0) = want := sizeT_eq (by omega) (by omega)
  rw [readLoop_succ, asked, taken, if_neg (by omega), if_neg (by omega), if_pos (by omega)]
  rfl

/-- What the input must hold for `ServerReadData` to come back: a header, a
body of the announced length, and a terminator left in the 1024-byte buffer. -/
def WholeFrame (input : Bytes) : Prop :=
  4 ≤ input.length ∧ 1 ≤ readInt o (input.take 4) ∧
    readInt o (input.take 4) ≤ (input.drop 4).length ∧
    (readInt o (input.take 4) ≤ 1023 ∨
      readInt o (input.take 4) = 1024 ∧ 0 ∈ (input.drop 4).take 1024)

instance (input : Bytes) : Decidable (WholeFrame o input) := by
  unfold WholeFrame
  infer_instance

/-- Coming back means a whole frame was there, and its body alone was taken. -/
theorem serverReadData_ok {fuel : Nat} {input : Bytes} {res : Bytes × Bytes}
    (h : serverReadData o fuel input zeroed = .ok res) :
    WholeFrame o input ∧
      res = (store zeroed 0 ((input.drop 4).take (readInt o (input.take 4)).toNat),
        (input.drop 4).drop (readInt o (input.take 4)).toNat) := by
  simp only [serverReadData, Outcome.bind_eq_ok] at h
  obtain ⟨⟨headed, rest⟩, header, body⟩ := h
  obtain ⟨_, enough, _, same⟩ := readLoop_ok (by omega) (.inl (by omega)) (by omega) header
  have four : 4 ≤ input.length := by omega
  simp only [Int.sub_zero, Int.toNat_zero, Prod.mk.injEq, Int.reduceToNat] at same
  obtain ⟨rfl, rfl⟩ := same
  obtain ⟨read, cleared⟩ := header_read (n := 1024) four (by omega)
  rw [read, cleared] at body
  obtain ⟨⟨filled, left_⟩, second, ends⟩ := body
  have word := readInt_lt o (b := input.take 4) (by rw [List.length_take]; omega)
  obtain ⟨pos, present, room, same⟩ := readLoop_ok (by omega) (by omega) (by omega) second
  simp only [Int.sub_zero, Int.toNat_zero, Prod.mk.injEq, length_zeros] at same present room
  obtain ⟨rfl, rfl⟩ := same
  have len : ((input.drop 4).take (readInt o (input.take 4)).toNat).length =
      (readInt o (input.take 4)).toNat := by
    rw [List.length_take]
    omega
  split at ends
  next nul =>
    refine ⟨⟨four, by omega, present, ?_⟩, (Outcome.ok.inj ends).symm⟩
    by_cases full : readInt o (input.take 4) = 1024
    · rcases (mem_store_zeros (by omega)).mp nul with short | inside
      · omega
      · rw [full] at inside
        exact .inr ⟨full, inside⟩
    · exact .inl (by omega)
  next => cases ends

/-- A whole frame is taken with a single read in each loop. -/
theorem serverReadData_whole (fuel : Nat) {input : Bytes} (whole : WholeFrame o input) :
    serverReadData o (fuel + 1) input zeroed =
      .ok (store zeroed 0 ((input.drop 4).take (readInt o (input.take 4)).toNat),
        (input.drop 4).drop (readInt o (input.take 4)).toNat) := by
  obtain ⟨four, pos, present, room⟩ := whole
  obtain ⟨read, cleared⟩ := header_read (n := 1024) four (by omega)
  have header : readLoop (fuel + 1) (4 : Nat) zeroed 0 input =
      .ok (store zeroed 0 (input.take 4), input.drop 4) :=
    readLoop_whole fuel (by omega) four (by rw [length_zeros]; omega) (by omega)
  obtain ⟨n, same⟩ := Int.eq_ofNat_of_zero_le (show 0 ≤ readInt o (input.take 4) by omega)
  rw [same] at pos present room ⊢
  have second : readLoop (fuel + 1) n zeroed 0 (input.drop 4) =
      .ok (store zeroed 0 ((input.drop 4).take n), (input.drop 4).drop n) :=
    readLoop_whole fuel (by omega) (by omega) (by rw [length_zeros]; omega) (by omega)
  have len : ((input.drop 4).take n).length = n := by
    rw [List.length_take]
    omega
  have nul : 0 ∈ store zeroed 0 ((input.drop 4).take n) := by
    rw [mem_store_zeros (by omega), len]
    rcases room with short | ⟨full, inside⟩
    · exact .inl (by omega)
    · have full : n = 1024 := by omega
      subst full
      exact .inr inside
  have four_ : ((4 : Nat) : Int) = 4 := rfl
  rw [four_] at header
  simp only [serverReadData, header, Outcome.ok_bind, read, cleared, same, second, if_pos nul,
    Outcome.pure_eq, Int.toNat_natCast]

/-- `ServerReadData` comes back exactly when the input starts with a whole
frame that fits; on every other content it reads for ever or leaves its buffer. -/
theorem serverReadData_returns_iff (input : Bytes) :
    (∃ fuel res, serverReadData o fuel input zeroed = .ok res) ↔ WholeFrame o input :=
  ⟨fun ⟨_, _, h⟩ => (serverReadData_ok o h).1,
    fun whole => ⟨1, _, serverReadData_whole o 0 whole⟩⟩

/-- A header that announces no bytes keeps the callback for ever. -/
theorem empty_frame_never_read :
    ¬ ∀ input : Bytes, ∃ fuel res, serverReadData .little fuel input zeroed = .ok res := by
  intro always
  obtain ⟨_, _, h⟩ := always [0, 0, 0, 0]
  exact absurd (serverReadData_ok .little h).1 (by decide)

/-! ## Messages and arrivals -/

/-- The body of a well-formed frame: JSON text of a length the header may announce. -/
structure Body where
  text : Bytes
  nonempty : 1 ≤ text.length
  short : text.length ≤ 1023
  noNul : 0 ∉ text

/-- The bytes libevent appends to the input before it calls `ReadCb` once. -/
structure Arrival where
  first : Body
  more : List Body

def Arrival.bodies (a : Arrival) : List Body := a.first :: a.more

def wire (bodies : List Body) : Bytes := (bodies.map fun b => frame o b.text).flatten

/-- A connection as `ReadCb` sees it, with the texts it has passed on so far. -/
structure Conn (σ : Type) where
  input : Bytes
  dispatched : List Bytes
  server : σ

variable {σ : Type}

/-- `ReadCb`; `handle` is everything it does with the text it has read. -/
def readCb (handle : Bytes → σ → Outcome Fault σ) (fuel : Nat) (conn : Conn σ) :
    Outcome Fault (Conn σ) := do
  let (buffer, input) ← serverReadData o fuel conn.input zeroed
  let server ← handle (cstr buffer) conn.server
  return { input, dispatched := conn.dispatched ++ [cstr buffer], server }

/-- One call of `ReadCb` for each arrival. -/
def serve (handle : Bytes → σ → Outcome Fault σ) (fuel : Nat) :
    Conn σ → List Arrival → Outcome Fault (Conn σ)
  | conn, [] => .ok conn
  | conn, a :: rest => do
      let conn ← readCb o handle fuel { conn with input := conn.input ++ wire o a.bodies }
      serve handle fuel conn rest

def allBodies (arrivals : List Arrival) : List Body := arrivals.flatMap Arrival.bodies

theorem wire_append (first second : List Body) :
    wire o (first ++ second) = wire o first ++ wire o second := by
  simp [wire]

theorem wholeFrame_wire (b : Body) (rest : Bytes) : WholeFrame o (frame o b.text ++ rest) := by
  have size := b.short
  have some_ := b.nonempty
  have header : readInt o ((frame o b.text ++ rest).take 4) = b.text.length := by
    rw [take_frame, readInt_intBytes o (by omega)]
  refine ⟨by simp only [List.length_append, length_frame]; omega, ?_, ?_, ?_⟩ <;> rw [header]
  · omega
  · rw [drop_frame, List.length_append]
    omega
  · exact .inl (by omega)

/-- The first frame of the input is taken whole. -/
theorem serverReadData_frame (fuel : Nat) (b : Body) (rest : Bytes) :
    serverReadData o (fuel + 1) (frame o b.text ++ rest) zeroed = .ok (store zeroed 0 b.text, rest) := by
  have size := b.short
  have header : readInt o ((frame o b.text ++ rest).take 4) = b.text.length := by
    rw [take_frame, readInt_intBytes o (by omega)]
  have read := serverReadData_whole o fuel (wholeFrame_wire o b rest)
  rwa [header, drop_frame, Int.toNat_natCast, List.take_left, List.drop_left] at read

/-- The first frame waiting is the one `ReadCb` takes. -/
theorem readCb_wire (handle : Bytes → σ → σ) (fuel : Nat) (b : Body) (rest : Bytes)
    (dispatched : List Bytes) (server : σ) :
    readCb o (fun t s => .ok (handle t s)) (fuel + 1)
        { input := frame o b.text ++ rest, dispatched, server } =
      .ok { input := rest, dispatched := dispatched ++ [b.text], server := handle b.text server } := by
  have size := b.short
  have text : cstr (store zeroed 0 b.text) = b.text := cstr_store_zeros b.noNul (by omega)
  simp only [readCb, serverReadData_frame, Outcome.ok_bind, text, Outcome.pure_eq]

/-- The invariant of a connection: what has been sent and not yet dispatched
waits in the input, and every arrival takes exactly one frame off its front. -/
theorem serve_backlog (handle : Bytes → σ → σ) (fuel : Nat) (arrivals : List Arrival)
    (pending : List Body) (dispatched : List Bytes) (server : σ) :
    ∃ final, serve o (fun t s => .ok (handle t s)) (fuel + 1)
        { input := wire o pending, dispatched, server } arrivals =
      .ok { input := wire o ((pending ++ allBodies arrivals).drop arrivals.length)
            dispatched := dispatched ++
              ((pending ++ allBodies arrivals).take arrivals.length).map Body.text
            server := final } := by
  induction arrivals generalizing pending dispatched server with
  | nil => exact ⟨server, by simp [serve, allBodies]⟩
  | cons a rest ih =>
      obtain ⟨b, waiting, split⟩ : ∃ b waiting, pending ++ a.bodies = b :: waiting := by
        cases pending with
        | nil => exact ⟨a.first, a.more, rfl⟩
        | cons p pending => exact ⟨p, pending ++ a.bodies, rfl⟩
      have input : wire o pending ++ wire o a.bodies = frame o b.text ++ wire o waiting := by
        rw [← wire_append, split]
        rfl
      obtain ⟨final, later⟩ := ih waiting (dispatched ++ [b.text]) (handle b.text server)
      refine ⟨final, ?_⟩
      have all : pending ++ allBodies (a :: rest) = b :: (waiting ++ allBodies rest) := by
        rw [allBodies, List.flatMap_cons, ← List.append_assoc, split]
        rfl
      simp only [serve, input, readCb_wire, Outcome.ok_bind, later, all, List.length_cons,
        List.drop_succ_cons, List.take_succ_cons, List.map_cons, List.append_assoc,
        List.singleton_append]

/-- Every arrival holds at least one message, and exactly one each when the counts agree. -/
theorem length_allBodies (arrivals : List Arrival) :
    arrivals.length ≤ (allBodies arrivals).length ∧
      ((allBodies arrivals).length ≤ arrivals.length ↔ ∀ a ∈ arrivals, a.more = []) := by
  induction arrivals with
  | nil => simp [allBodies]
  | cons a rest ih =>
      obtain ⟨least, exact_⟩ := ih
      have size : (allBodies (a :: rest)).length = a.more.length + 1 + (allBodies rest).length := by
        simp only [allBodies, List.flatMap_cons, Arrival.bodies, List.length_append, List.length_cons]
      refine ⟨by rw [size, List.length_cons]; omega, ?_⟩
      rw [size, List.length_cons, List.forall_mem_cons, ← exact_, ← List.length_eq_zero_iff]
      omega

/-- Whatever the server does with a message, all messages sent have been
dispatched in order and none waits when the last arrival is handled, exactly
when every arrival was a single frame. -/
theorem dispatched_all_iff (handle : Bytes → σ → σ) (fuel : Nat) (server : σ)
    (arrivals : List Arrival) :
    ∃ conn, serve o (fun t s => .ok (handle t s)) (fuel + 1)
        { input := [], dispatched := [], server } arrivals = .ok conn ∧
      (conn.dispatched = (allBodies arrivals).map Body.text ∧ conn.input = [] ↔
        ∀ a ∈ arrivals, a.more = []) := by
  obtain ⟨final, served⟩ := serve_backlog o handle fuel arrivals [] [] server
  refine ⟨_, served, ?_⟩
  obtain ⟨least, single⟩ := length_allBodies arrivals
  simp only [List.nil_append]
  rw [← single]
  constructor
  · rintro ⟨all, _⟩
    have count := congrArg List.length all
    simp only [List.length_map, List.length_take] at count
    omega
  · intro few
    rw [List.take_of_length_le few, List.drop_of_length_le few]
    exact ⟨rfl, rfl⟩

def emptyObject : Body where
  text := lit "{}"
  nonempty := by decide
  short := by decide
  noNul := by decide

/-- Two messages in one arrival: the second stays behind. -/
theorem second_message_left_behind :
    ¬ ∀ arrivals : List Arrival, ∃ conn,
      serve .little (fun _ s => .ok s) 1 { input := [], dispatched := [], server := () } arrivals =
        .ok conn ∧ conn.dispatched = (allBodies arrivals).map Body.text ∧ conn.input = [] := by
  intro always
  obtain ⟨conn, served, all, _⟩ := always [⟨emptyObject, [emptyObject]⟩]
  obtain ⟨_, backlog⟩ := serve_backlog .little (fun _ s => s) 0
    [⟨emptyObject, [emptyObject]⟩] [] [] ()
  rw [show wire .little [] = [] from rfl, served] at backlog
  have count := congrArg List.length ((Outcome.ok.inj backlog) ▸ all)
  simp [allBodies, Arrival.bodies] at count

end MusicPlayer.Server
