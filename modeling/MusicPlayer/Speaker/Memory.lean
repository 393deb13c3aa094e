import MusicPlayer.Message
import MusicPlayer.Lib.FirstMatch
import MusicPlayer.Lib.Program

/-! The speaker's globals, its playlist, the record it shares with the
processes it forks, and the calls it makes to the system. -/
namespace MusicPlayer.Speaker
open CBytes FirstMatch

inductive DeviceMode
  | online
  | offline
  deriving DecidableEq, Repr

/-- `SEQUENCE` and `CIRCLE`. -/
def sequence : Int := 1
def circle : Int := 2

/-- The shared record; the two names are `char [128]`. -/
structure Shm where
  curMusic : Bytes
  curSigner : Bytes
  curMode : Int
  parentPid : Int
  childPid : Int
  grandPid : Int
  deriving DecidableEq

/-- The globals of a process. `musicHead` holds the names of the list's nodes;
it is empty for a null `music_head`, and a node without a name is the one
`InitMusicLink` makes. -/
structure Memory where
  startFlag : Bool
  suspendFlag : Bool
  deviceMode : DeviceMode
  musicHead : List Bytes
  deriving DecidableEq

/-- Who calls `RecSocketData`. -/
inductive Reader
  | getMusicName
  | readSocket
  deriving DecidableEq, Repr

/-- The calls the player makes to the system. `send` is given the object whose
text is in the packet, `fork` the track name the child starts with. -/
inductive Call
  | semP
  | semV
  | getShm
  | setShm (s : Shm)
  | signal
  | fork (musicName : Bytes)
  | kill (pid : Int)
  | waitpid (pid : Int)
  | writeFifo (cmd : Bytes)
  | send (obj : Json)
  | recSocketData (reader : Reader)
  | opendir (path : Bytes)
  | getVolume
  | setVolume (volume : Int)
  | pgrep

@[reducible] def Call.Answer : Call → Type
  | .getShm => Shm
  | .recSocketData _ => Bytes
  | .opendir _ => Option (List Dirent)
  | .getVolume => Int
  | .pgrep => Bytes
  | _ => Unit

abbrev Code := Program Fault Call Call.Answer Memory

/-! ## C strings in buffers -/

def strcpy (buf text : Bytes) : Except Fault Bytes :=
  if text.length < buf.length then .ok (store buf 0 (text ++ [0])) else .error .outOfBounds

def strcat (buf text : Bytes) : Except Fault Bytes :=
  if (cstr buf).length + text.length < buf.length then
    .ok (store buf (cstr buf).length (text ++ [0]))
  else .error .outOfBounds

theorem cstr_strcat {buf text out : Bytes} (h : strcat buf text = .ok out) :
    cstr out = cstr buf ++ cstr text := by
  unfold strcat at h
  split at h
  · cases h
    have front : buf.take (cstr buf).length = cstr buf :=
      (List.prefix_iff_eq_take.mp (List.takeWhile_prefix _)).symm
    rw [store, front, List.append_assoc, cstr_append (zero_not_mem_cstr buf), List.append_assoc,
      List.singleton_append, cstr_terminated]
  · cases h

/-- A name copied into a cleared buffer. -/
theorem strcpy_zeros {text : Bytes} {n : Nat} (free : 0 ∉ text) (fits : text.length < n) :
    ∃ out, strcpy (zeros n) text = .ok out ∧ out.length = n ∧ cstr out = text := by
  refine ⟨store (zeros n) 0 (text ++ [0]), by simp [strcpy, fits], ?_, ?_⟩
  · rw [length_store, length_zeros]
    simp only [length_zeros, List.length_append, List.length_singleton]
    omega
  · rw [store_zeros, List.append_assoc, List.singleton_append]
    exact cstr_append_zero free _

theorem length_slash : (lit "/").length = 1 := by decide

theorem cstr_slash : cstr (lit "/") = lit "/" := by decide

theorem strcat_ok {buf text : Bytes} (fits : (cstr buf).length + text.length < buf.length) :
    ∃ out, strcat buf text = .ok out ∧ out.length = buf.length ∧ cstr out = cstr buf ++ cstr text := by
  have done : strcat buf text = .ok (store buf (cstr buf).length (text ++ [0])) := by
    rw [strcat, if_pos fits]
  refine ⟨_, done, ?_, cstr_strcat done⟩
  rw [length_store]
  simp only [List.length_append, List.length_singleton]
  omega

/-- A copy that goes through fits, and the buffer then starts with the text. -/
theorem strcpy_inv {buf text out : Bytes} (h : strcpy buf text = .ok out) :
    text.length < buf.length ∧ out.length = buf.length ∧ ∃ rest, out = text ++ 0 :: rest := by
  unfold strcpy at h
  split at h
  next fits =>
    cases h
    refine ⟨fits, length_store (by simpa using fits), buf.drop (text ++ [0]).length, ?_⟩
    simp [store]
  next => cases h

theorem strcat_inv {buf text out : Bytes} (h : strcat buf text = .ok out) :
    (cstr buf).length + text.length < buf.length ∧ out.length = buf.length := by
  unfold strcat at h
  split at h
  next fits =>
    cases h
    refine ⟨fits, length_store ?_⟩
    simp only [List.length_append, List.length_singleton]
    omega
  next => cases h

/-- `strncpy` of exactly the bytes given, which leaves no terminator behind them. -/
def strncpy (buf text : Bytes) : Except Fault Bytes :=
  if text.length ≤ buf.length then .ok (store buf 0 text) else .error .outOfBounds

/-- The loops that run to the first `/` of a buffer and do not look where it ends. -/
def splitSlash (buf : Bytes) : Except Fault (Bytes × Bytes) :=
  match firstMatch (· == 47) buf with
  | some (before, _, after) => .ok (before, after)
  | none => .error .outOfBounds

/-- The record with the singer and the track of `name`, a buffer holding `singer/track`. -/
def setCurrent (curInfo : Shm) (name : Bytes) : Except Fault Shm := do
  let (singer, track) ← splitSlash name
  let curSigner ← strncpy curInfo.curSigner singer
  let curMusic ← strcpy curInfo.curMusic (cstr track)
  return { curInfo with curSigner, curMusic }

def onlineUrl : Bytes := lit "http://8.130.123.33/music/"
def offlineUrl : Bytes := lit "/mnt/usb/music/"

def musicPath (mode : DeviceMode) (name : Bytes) : Except Fault Bytes := do
  let path ← strcpy (zeros 128) (match mode with
    | .online => onlineUrl
    | .offline => offlineUrl)
  strcat path (cstr name)

/-! ## The playlist -/

def insertMusic (name : Bytes) (l : List Bytes) : Except Fault (List Bytes) :=
  if name.length < 127 then
    match l with
    | [] => .ok [name]
    | first :: rest => .ok (if first = [] then name :: rest else first :: rest ++ [name])
  else .error .outOfBounds

def insertAll : List Bytes → List Bytes → Except Fault (List Bytes)
  | [], l => .ok l
  | name :: names, l => do
      let l ← insertMusic name l
      insertAll names l

/-- Names that are not empty are appended. -/
theorem insertAll_eq {names l l' : List Bytes} (some_ : ∀ name ∈ names, name ≠ [])
    (named : ∀ name ∈ l, name ≠ []) (h : insertAll names l = .ok l') : l' = l ++ names := by
  induction names generalizing l with
  | nil =>
      rw [insertAll] at h
      rw [Except.ok.inj h, List.append_nil]
  | cons name names ih =>
      rw [insertAll] at h
      obtain ⟨l₁, one, rest⟩ := Except.bind_eq_ok.mp h
      have grown : l₁ = l ++ [name] := by
        unfold insertMusic at one
        split at one
        · cases l with
          | nil => exact (Except.ok.inj one).symm
          | cons first others =>
              have other := named first List.mem_cons_self
              simp only [if_neg other] at one
              exact (Except.ok.inj one).symm
        · cases one
      subst grown
      have same := ih (fun n member => some_ n (List.mem_cons_of_mem _ member)) (by
        intro n member
        rcases List.mem_append.mp member with old | new
        · exact named n old
        · rw [List.mem_singleton.mp new]
          exact some_ name List.mem_cons_self) rest
      rw [same, List.append_assoc, List.singleton_append]

def clearMusicList (s : Memory) : Memory := { s with musicHead := [] }

/-- `none` where `FindNextMusic` returns -1; with no match it reads through a null pointer. -/
def findNextMusic (l : List Bytes) (cur : Bytes) : Except Fault (Option Bytes) :=
  match firstMatch (fun name => strstr name cur) l with
  | none => .error .nullPointer
  | some (_, _, []) => .ok none
  | some (_, _, next :: _) => .ok (some next)

/-- The search of `FindPrevMusic` from a node `p` on. -/
def prevFrom (cur : Bytes) : Bytes → List Bytes → Except Fault Bytes
  | _, [] => .error .nullPointer
  | p, name :: rest => if strstr name cur then .ok p else prevFrom cur name rest

/-- `none` where `FindPrevMusic` returns 0, at the head of the list. -/
def findPrevMusic (l : List Bytes) (cur : Bytes) : Except Fault (Option Bytes) :=
  match l with
  | [] => .error .nullPointer
  | first :: rest =>
      if strstr first cur then .ok none
      else do
        let prev ← prevFrom cur first rest
        return some prev

/-- The playlist ends with the track being played. -/
def AtEnd (l : List Bytes) (cur : Bytes) : Prop :=
  ∃ pre last, firstMatch (fun name => strstr name cur) l = some (pre, last, [])

theorem findNextMusic_eq_none {l : List Bytes} {cur : Bytes} :
    findNextMusic l cur = .ok none ↔ AtEnd l cur := by
  unfold findNextMusic AtEnd
  cases found : firstMatch (fun name => strstr name cur) l with
  | none => simp
  | some parts =>
      obtain ⟨pre, name, post⟩ := parts
      cases post with
      | nil => simp
      | cons next rest => simp

end MusicPlayer.Speaker
