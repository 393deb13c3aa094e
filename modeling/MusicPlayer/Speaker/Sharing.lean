import MusicPlayer.Speaker.Processes

/-! The parent with its signal handlers and the track processes, around the
semaphore and the record they share. A signal may interrupt the parent at every
call, and in `SemP` while it is blocked there. -/
namespace MusicPlayer.Speaker
open CBytes Program Runs

variable (j : JsonC)

/-! ## The parent's activations -/

inductive Interrupt
  | usr1
  | alarm
  deriving DecidableEq

def Interrupt.run : Interrupt → Memory → Code
  | .usr1 => updateMusic j
  | .alarm => handle

/-- The main loop's code, or a handler's. `asleep` while it is blocked in `SemP`,
`inside` from the return of its `SemP` to its `SemV`. -/
structure Activation where
  code : Code
  asleep : Bool
  inside : Bool

def Activation.begin (code : Code) : Activation := ⟨code, false, false⟩

/-- `semop` fails with `EINTR`, and `SemP` returns all the same. -/
def semPReturns (m : Memory) : Code → Code
  | .call _ .semP k => k () m
  | code => code.withMemory m

/-- Back from a handler that has left memory `m`. -/
def Activation.resume (a : Activation) (m : Memory) : Activation :=
  if a.asleep then ⟨semPReturns m a.code, false, true⟩ else { a with code := a.code.withMemory m }

/-- Whether the caller is inside after a call. -/
def Call.inside : Call → Bool → Bool
  | .semP, _ => true
  | .semV, _ => false
  | _, inside => inside

/-- A null node of the playlist has been read: `StartPlay` reads the head after
`signal`, `NextPlay` and `PrevPlay` search the list after `GetShm`. -/
def readsNull : Call → Code → Bool
  | .signal, .fail .nullPointer => true
  | .getShm, .fail .nullPointer => true
  | _, _ => false

/-! ## The system -/

namespace Shm

/-- What a change of mode, a change of track and the start of a track put in the
record, each taken from the record it stores. -/
def withMode (s stored : Shm) : Shm := { s with curMode := stored.curMode }

def withTrack (s stored : Shm) : Shm :=
  { s with curMusic := stored.curMusic, curSigner := stored.curSigner }

def withPlayer (s stored : Shm) : Shm :=
  { s.withTrack stored with childPid := stored.childPid, grandPid := stored.grandPid }

/-- Only a change of track is made under the lock. -/
def credit (s stored : Shm) (inside : Bool) : Shm :=
  if inside then s.withTrack stored else s.withMode stored

end Shm

/-- `undo` is what the system adds to the semaphore when the parent exits. The
last two fields are history: the record as each change would have it that is
made to the latest one, and whether a null node has been read. -/
structure Shared where
  top : Activation
  below : List (Interrupt × Activation)
  shm : Shm
  sem : Int
  undo : Int
  tracks : List Track
  wanted : Shm
  nullRead : Bool

namespace Shared

def start (m : Memory) (shm : Shm) : Shared where
  top := .begin (.done m)
  below := []
  shm := shm
  sem := 1
  undo := 0
  tracks := []
  wanted := shm
  nullRead := false

/-- The activations from the running one down to the main loop's. -/
def activations (s : Shared) : List Activation := s.top :: s.below.map Prod.snd

end Shared

/-- Calls that leave the semaphore and the record alone. -/
def Call.Apart : Call → Prop
  | .semP => False
  | .semV => False
  | .getShm => False
  | .setShm _ => False
  | _ => True

/-- `Gives s op a t`: the running activation is given `a` for `op`, which leaves `t`. -/
inductive Gives (s : Shared) : (op : Call) → op.Answer → Shared → Prop
  | semP : 0 < s.sem → Gives s .semP () { s with sem := s.sem - 1, undo := s.undo + 1 }
  | semV : Gives s .semV () { s with sem := s.sem + 1, undo := s.undo - 1 }
  | getShm : Gives s .getShm s.shm s
  | setShm (curInfo : Shm) :
      Gives s (.setShm curInfo) ()
        { s with shm := curInfo, wanted := s.wanted.credit curInfo s.top.inside }
  | apart {op : Call} (a : op.Answer) : op.Apart → Gives s op a s

/-- `Advances s x y t`: a step of a track process other than its `SetShm` takes
it from `x` to `y` and leaves `t` of the rest. -/
inductive Advances (s : Shared) (x : Track) : Track → Shared → Prop
  | semP : x.phase = .forked → 0 < s.sem → Advances s x { x with phase := .locked } { s with sem := s.sem - 1 }
  | getShm : x.phase = .locked → Advances s x { x with phase := .read s.shm } s
  | finish {curInfo : Shm} : x.phase = .read curInfo →
      trackName curInfo x.memory.musicHead x.musicName = .ok none →
      Advances s x { x with phase := .leaving curInfo.childPid } s
  | place {curInfo placed : Shm} {name : Bytes} (parent : Int) (own : Bool) : x.phase = .read curInfo →
      trackName curInfo x.memory.musicHead x.musicName = .ok (some name) →
      setCurrent { curInfo with childPid := parent, grandPid := x.pid } name = .ok placed →
      Advances s x { x with phase := .placed placed own } s
  | semV {pid : Int} : x.phase = .stored pid →
      Advances s x { x with phase := .playing pid } { s with sem := s.sem + 1 }

inductive Act
  | begin (t : Task)
  | switch
  | call
  | sleep
  | enter (i : Interrupt)
  | leave
  | crash
  | fork
  | track
  | store
  | exit

/-- One step. `switch` stands for the other things the main loop does, which
leave it any memory; `store` is the `SetShm` of a track process. -/
inductive Acts : Shared → Act → Shared → Prop
  | begin (t : Task) {s : Shared} {m : Memory} : s.below = [] → s.top.code = .done m →
      Acts s (.begin t) { s with top := .begin (t.run j m) }
  | switch (m' : Memory) {s : Shared} {m : Memory} : s.below = [] → s.top.code = .done m →
      Acts s .switch { s with top := .begin (.done m') }
  | call {s t : Shared} {m : Memory} {op : Call} {k : op.Answer → Memory → Code} {a : op.Answer} :
      s.top.code = .call m op k → Gives s op a t →
      Acts s .call { t with
        top := ⟨k a m, false, op.inside s.top.inside⟩
        nullRead := s.nullRead || readsNull op (k a m) }
  | sleep {s : Shared} {m : Memory} {k : Unit → Memory → Code} : s.top.code = .call m .semP k →
      s.sem ≤ 0 → Acts s .sleep { s with top := { s.top with asleep := true } }
  | enter (i : Interrupt) {s : Shared} {m : Memory} : i ∉ s.below.map Prod.fst →
      s.top.code.memory = some m →
      Acts s (.enter i) { s with top := .begin (i.run j m), below := (i, s.top) :: s.below }
  | leave {s : Shared} {m : Memory} {i : Interrupt} {a : Activation} {rest : List (Interrupt × Activation)} :
      s.top.code = .done m → s.below = (i, a) :: rest →
      Acts s .leave { s with top := a.resume m, below := rest }
  | crash {s : Shared} {e : Fault} : s.top.code = .fail e →
      Acts s .crash { s with
        top := .begin (.fail e)
        below := []
        sem := max 0 (s.sem + s.undo)
        undo := 0 }
  | fork {s : Shared} (x : Track) : x.phase = .forked → Acts s .fork { s with tracks := s.tracks ++ [x] }
  | track {s t : Shared} (pre : List Track) {post : List Track} {x y : Track} : s.tracks = pre ++ x :: post →
      Advances s x y t → Acts s .track { t with tracks := pre ++ y :: post }
  | store {s : Shared} (pre : List Track) {post : List Track} {x : Track} {curInfo : Shm} {own : Bool} :
      s.tracks = pre ++ x :: post → x.phase = .placed curInfo own →
      Acts s .store { s with
        shm := curInfo
        wanted := s.wanted.withPlayer curInfo
        tracks := pre ++ { x with phase := .stored curInfo.childPid } :: post }
  | exit {s : Shared} (pre : List Track) {post : List Track} {x : Track} : s.tracks = pre ++ x :: post →
      Acts s .exit { s with
        tracks := pre ++ post
        sem := s.sem + if x.phase.locks then 1 else 0 }

/-! ## Mutual exclusion -/

namespace Shared

/-- How many are between their `SemP` and their `SemV`. -/
def between (s : Shared) : Nat :=
  s.activations.countP (fun a => a.inside) + s.tracks.countP fun x => x.phase.locks

structure Exclusive (s : Shared) : Prop where
  one : s.between ≤ 1
  sem : s.sem ≤ 1

end Shared

/-- No handler starts while the code that runs is blocked in `SemP`. -/
def Unbroken (s : Shared) : Act → Prop
  | .enter _ => s.top.asleep = false
  | _ => True

/-! The rule all code of the parent keeps to: `SemV` is called inside only, and
`SetShm` right after `GetShm`, with a change of the record just read that fits
the side it is made on. A point of it says whether the code is inside and what
its last call has read. -/

def lockRule : Rule Call Call.Answer (Bool × Option Shm) where
  allows
    | (inside, _), .semV => inside = true
    | (inside, last), .setShm stored => ∃ curInfo, last = some curInfo ∧ curInfo.credit stored inside = stored
    | _, _ => True
  next
    | (inside, _), .getShm, curInfo => (inside, some curInfo)
    | (inside, _), op, _ => (op.inside inside, none)

theorem free_allowed (t : Bool × Option Shm) (op : Call) (h : op.Free) : lockRule.allows t op := by
  cases op with
  | semV => exact h.elim
  | setShm _ => exact h.elim
  | _ => trivial

theorem free_follows {p : Code} (h : p.Every Call.Free) (t : Bool × Option Shm) : Follows lockRule t p :=
  h.follows free_allowed t

theorem setCurrent_credit {curInfo stored : Shm} {name : Bytes} (h : setCurrent curInfo name = .ok stored) :
    curInfo.credit stored true = stored := by
  obtain ⟨⟨singer, track⟩, -, h⟩ := Except.bind_eq_ok.mp h
  obtain ⟨curSigner, -, h⟩ := Except.bind_eq_ok.mp h
  obtain ⟨curMusic, -, h⟩ := Except.bind_eq_ok.mp h
  cases h
  rfl

theorem loadTrack_follows (curInfo : Shm) (name : Bytes) (s : Memory) :
    Follows lockRule (true, some curInfo) (loadTrack curInfo name s) := by
  unfold loadTrack
  refine .check fun stored set => ?_
  refine .call ⟨curInfo, rfl, setCurrent_credit set⟩ fun _ s => ?_
  refine .call rfl fun _ s => ?_
  refine .check fun path _ => ?_
  exact .call trivial fun _ s => .done _

theorem nextPlay_follows (t : Bool × Option Shm) (s : Memory) : Follows lockRule t (nextPlay j s) := by
  unfold nextPlay
  split
  · refine .call trivial fun _ s => ?_
    refine .call trivial fun curInfo s => ?_
    refine .check fun next _ => ?_
    cases next with
    | none => exact free_follows (reload_free j curInfo s) _
    | some name => exact loadTrack_follows curInfo name s
  · exact .done s

theorem prevPlay_follows (t : Bool × Option Shm) (s : Memory) : Follows lockRule t (prevPlay s) := by
  unfold prevPlay
  split
  · refine .call trivial fun _ s => ?_
    refine .call trivial fun curInfo s => ?_
    exact .check fun name _ => loadTrack_follows curInfo name s
  · exact .done s

theorem updateMusic_follows (t : Bool × Option Shm) (s : Memory) : Follows lockRule t (updateMusic j s) := by
  unfold updateMusic
  refine .call trivial fun _ s => ?_
  refine .call trivial fun curInfo s => ?_
  refine .call rfl fun _ s => ?_
  refine .call trivial fun _ s => ?_
  exact free_follows (replay_free j _ s) _

theorem suspendPlay_free (s : Memory) : (suspendPlay s).Every Call.Free := by
  unfold suspendPlay
  split
  · exact .call trivial fun _ s => .done _
  · exact .done s

theorem handle_free (s : Memory) : (handle s).Every Call.Free := by
  unfold handle
  split
  · exact startPlay_free s
  · split
    · exact suspendPlay_free s
    · exact continuePlay_every (fun _ => trivial) s

theorem upVolume_free (s : Memory) : (upVolume s).Every Call.Free := by
  unfold upVolume
  refine .call trivial fun volume s => ?_
  split
  · exact .call trivial fun _ s => .done s
  · exact .done s

theorem downVolume_free (s : Memory) : (downVolume s).Every Call.Free := by
  unfold downVolume
  refine .call trivial fun volume s => ?_
  split
  · exact .call trivial fun _ s => .done s
  · exact .done s

/-- `CirclePlay` and `SequencePlay`, outside the lock. -/
theorem setMode_follows (mode : Int) (last : Option Shm) (s : Memory) :
    Follows lockRule (false, last) (setMode mode s) := by
  unfold setMode
  refine .call trivial fun curInfo s => ?_
  exact .call ⟨curInfo, rfl, rfl⟩ fun _ s => .done s

theorem interrupt_follows (i : Interrupt) (t : Bool × Option Shm) (s : Memory) :
    Follows lockRule t (i.run j s) := by
  cases i with
  | usr1 => exact updateMusic_follows j t s
  | alarm => exact free_follows (handle_free s) t

/-- The command, then its answer, which is no concern of the lock. -/
theorem answered_follows {run : Memory → Code} (cmd : String) {t : Bool × Option Shm} {s : Memory}
    (first : Follows lockRule t (run s)) : Follows lockRule t (answered j run cmd s) :=
  first.andThen fun t s => free_follows (sendMusicInfo_free j _ s) t

theorem handlers_follow : ∀ h ∈ handlers j, ∀ last s, Follows lockRule (false, last) (h.2 s) := by
  simp only [handlers, List.forall_mem_cons, List.not_mem_nil, false_implies, implies_true, and_true]
  refine ⟨?_, ?_, ?_, ?_, ?_, ?_, ?_, ?_, ?_, ?_, ?_, ?_⟩ <;> intro last s
  · refine (free_follows (startPlay_free s) _).andThen fun t s => ?_
    exact .call (by trivial) fun result s => free_follows (sendMusicInfo_free j _ s) _
  · refine (free_follows (stopPlay_free s) _).andThen fun t s => ?_
    exact .call (by trivial) fun result s => free_follows (sendMusicInfo_free j _ s) _
  · exact answered_follows j _ (free_follows (suspendPlay_free s) _)
  · exact answered_follows j _ (free_follows (continuePlay_every (fun _ => trivial) s) _)
  · exact answered_follows j _ (nextPlay_follows j _ s)
  · exact answered_follows j _ (prevPlay_follows _ s)
  · exact answered_follows j _ (free_follows (downVolume_free s) _)
  · exact answered_follows j _ (free_follows (upVolume_free s) _)
  · exact answered_follows j _ (setMode_follows circle last s)
  · exact answered_follows j _ (setMode_follows sequence last s)
  · exact free_follows (sendMusicInfo_free j _ s) _
  · exact free_follows (sendMusicInfo_free j _ s) _

theorem readSocket_follows (last : Option Shm) (s : Memory) :
    Follows lockRule (false, last) (readSocket j s) := by
  refine .call trivial fun text s => ?_
  refine .check fun cmd _ => ?_
  unfold execute
  split
  · rename_i run found
    exact handlers_follow j _ (List.mem_of_find?_eq_some found) _ s
  · exact .done s

theorem task_follows (t : Task) (last : Option Shm) (s : Memory) :
    Follows lockRule (false, last) (t.run j s) := by
  cases t with
  | startPlay => exact free_follows (startPlay_free s) _
  | stopPlay => exact free_follows (stopPlay_free s) _
  | suspendPlay => exact free_follows (suspendPlay_free s) _
  | continuePlay => exact free_follows (continuePlay_every (fun _ => trivial) s) _
  | nextPlay => exact nextPlay_follows j _ s
  | prevPlay => exact prevPlay_follows _ s
  | upVolume => exact free_follows (upVolume_free s) _
  | downVolume => exact free_follows (downVolume_free s) _
  | circlePlay => exact setMode_follows circle last s
  | sequencePlay => exact setMode_follows sequence last s
  | getMusicName singer => exact free_follows (getMusicName_free j singer s) _
  | sing singer =>
      refine free_follows ((stopPlay_free s).andThen fun s => ?_) _
      exact (getMusicName_free j singer s).andThen startPlay_free
  | uploadMusic => exact free_follows (sendMusicInfo_free j _ s) _
  | readSocket => exact readSocket_follows j last s

/-! ## The lock -/

/-- The code of an activation keeps to the rule from where it is. -/
def Activation.Orderly (a : Activation) : Prop := ∃ last, Follows lockRule (a.inside, last) a.code

/-- Of the semaphore's one unit, what is not in the semaphore is with the parent or
with a track process in its critical section. -/
structure Balanced (s : Shared) : Prop where
  total : s.sem + s.undo + s.tracks.countP (fun x => x.phase.locks) = 1
  sem : 0 ≤ s.sem
  inside : (s.activations.countP (fun a => a.inside) : Int) ≤ s.undo
  awake : ∀ f ∈ s.below, f.2.asleep = false
  orderly : ∀ a ∈ s.activations, a.Orderly

theorem Balanced.exclusive {s : Shared} (h : Balanced s) : s.Exclusive := by
  have total := h.total
  have sem := h.sem
  have inside := h.inside
  constructor
  · unfold Shared.between
    omega
  · omega

theorem balanced_start (m : Memory) (shm : Shm) : Balanced (Shared.start m shm) where
  total := rfl
  sem := show (0 : Int) ≤ 1 by decide
  inside := le_refl (0 : Int)
  awake := by
    intro f member
    cases member
  orderly := by
    intro a member
    cases List.mem_singleton.mp member
    exact ⟨none, .done m⟩

theorem next_inside (inside : Bool) (last : Option Shm) (op : Call) (a : op.Answer) :
    (lockRule.next (inside, last) op a).1 = op.inside inside := by
  cases op <;> rfl

/-- What a call of an orderly activation may be, and that it stays orderly. -/
theorem Activation.Orderly.calls {x : Activation} (h : x.Orderly) {m : Memory} {op : Call}
    {k : op.Answer → Memory → Code} (code : x.code = .call m op k) :
    (op = .semV → x.inside = true) ∧ ∀ a m asleep, Activation.Orderly ⟨k a m, asleep, op.inside x.inside⟩ := by
  obtain ⟨last, follows⟩ := h
  rw [code] at follows
  cases follows with
  | call allowed rest =>
      refine ⟨fun same => ?_, fun a m asleep => ?_⟩
      · subst same
        exact allowed
      · have goes := rest a m
        rw [← next_inside x.inside last op a]
        exact ⟨_, goes⟩

theorem Activation.Orderly.resume {x : Activation} (h : x.Orderly) (awake : x.asleep = false) (m : Memory) :
    (x.resume m).Orderly ∧ (x.resume m).inside = x.inside := by
  obtain ⟨last, follows⟩ := h
  have same : x.resume m = { x with code := x.code.withMemory m } := by
    rw [Activation.resume, if_neg (by rw [awake]; decide)]
  rw [same]
  exact ⟨⟨last, follows.withMemory m⟩, rfl⟩

/-- A new activation on top of some of the present ones. -/
theorem Balanced.activate {s t : Shared} (h : Balanced s) {code : Code} (follows : Follows lockRule (false, none) code)
    (top : t.top = .begin code) (awake : ∀ f ∈ t.below, f.2.asleep = false)
    (rest : List.Sublist (t.below.map Prod.snd) s.activations)
    (sem : t.sem = s.sem) (undo : t.undo = s.undo) (tracks : t.tracks = s.tracks) : Balanced t where
  total := by
    rw [sem, undo, tracks]
    exact h.total
  sem := sem ▸ h.sem
  inside := by
    have fewer := rest.countP_le (p := fun a : Activation => a.inside)
    have none_ : (t.activations).countP (fun a => a.inside) =
        (t.below.map Prod.snd).countP fun a => a.inside := by
      rw [Shared.activations, top]
      exact List.countP_cons_of_neg Bool.false_ne_true
    have inside := h.inside
    rw [none_, undo]
    omega
  awake := awake
  orderly := by
    intro a member
    rcases List.mem_cons.mp member with same | below
    · rw [same, top]
      exact ⟨none, follows⟩
    · exact h.orderly a (rest.subset below)

theorem balanced_call {s t : Shared} (h : Balanced s) {m : Memory} {op : Call}
    {k : op.Answer → Memory → Code} {a : op.Answer} (code : s.top.code = .call m op k) (gives : Gives s op a t)
    (nullRead : Bool) :
    Balanced { t with top := ⟨k a m, false, op.inside s.top.inside⟩, nullRead } := by
  obtain ⟨allowed, goes⟩ := (h.orderly s.top List.mem_cons_self).calls code
  have total := h.total
  have sem := h.sem
  have inside := h.inside
  rw [Shared.activations, List.countP_cons] at inside
  have later : ∀ x ∈ s.below.map Prod.snd, x.Orderly := fun x member =>
    h.orderly x (List.mem_cons_of_mem _ member)
  have orderly : ∀ x ∈ (⟨k a m, false, op.inside s.top.inside⟩ : Activation) :: s.below.map Prod.snd,
      x.Orderly := List.forall_mem_cons.mpr ⟨goes a m false, later⟩
  cases gives with
  | semP free =>
      refine ⟨?_, ?_, ?_, h.awake, orderly⟩
      · simp only
        omega
      · simp only
        omega
      · rw [Shared.activations, List.countP_cons]
        simp only [Call.inside, if_true]
        split at inside <;> omega
  | semV =>
      have within := allowed rfl
      refine ⟨?_, ?_, ?_, h.awake, orderly⟩
      · simp only
        omega
      · simp only
        omega
      · rw [Shared.activations, List.countP_cons]
        simp only [Call.inside]
        rw [if_pos within] at inside
        simp only [Bool.false_eq_true, if_false]
        omega
  | getShm => exact ⟨total, sem, by rwa [Shared.activations, List.countP_cons], h.awake, orderly⟩
  | setShm curInfo => exact ⟨total, sem, by rwa [Shared.activations, List.countP_cons], h.awake, orderly⟩
  | apart a apart =>
      have same : op.inside s.top.inside = s.top.inside := by
        cases op with
        | semP => exact apart.elim
        | semV => exact apart.elim
        | _ => rfl
      rw [same] at orderly ⊢
      exact ⟨total, sem, by rwa [Shared.activations, List.countP_cons], h.awake, orderly⟩

/-- A step of a track process takes one unit of the semaphore into its critical
section, or gives it back. -/
theorem advances_unit {s t : Shared} {x y : Track} (h : Advances s x y t) :
    (t.sem + (if y.phase.locks then 1 else 0) = s.sem + if x.phase.locks then 1 else 0) ∧
      (0 ≤ s.sem → 0 ≤ t.sem) ∧ t = { s with sem := t.sem } := by
  cases h with
  | semP phase free =>
      refine ⟨?_, fun _ => ?_, rfl⟩
      · simp only [phase, TrackPhase.locks, if_true, Bool.false_eq_true, if_false]
        omega
      · simp only
        omega
  | semV phase =>
      refine ⟨?_, fun sem => ?_, rfl⟩
      · simp only [phase, TrackPhase.locks, if_true, Bool.false_eq_true, if_false]
        omega
      · simp only
        omega
  | getShm phase => exact ⟨by rw [phase]; rfl, id, rfl⟩
  | finish phase _ => exact ⟨by rw [phase]; rfl, id, rfl⟩
  | place _ _ phase _ _ => exact ⟨by rw [phase]; rfl, id, rfl⟩

theorem countP_middle {α : Type} (p : α → Bool) (pre post : List α) (x : α) :
    ((pre ++ x :: post).countP p : Int) = (pre ++ post).countP p + if p x then 1 else 0 := by
  rw [List.countP_append, List.countP_append, List.countP_cons]
  split <;> push_cast <;> omega

/-- Only the semaphore and the track processes have changed, and by the same amount. -/
theorem Balanced.tracks {s t : Shared} (h : Balanced s) (top : t.top = s.top) (below : t.below = s.below)
    (undo : t.undo = s.undo) (sem : 0 ≤ t.sem)
    (unit : t.sem + t.tracks.countP (fun x => x.phase.locks) = s.sem + s.tracks.countP fun x => x.phase.locks) :
    Balanced t where
  total := by
    have total := h.total
    omega
  sem := sem
  inside := by
    have inside := h.inside
    rwa [Shared.activations, top, below, undo]
  awake := below ▸ h.awake
  orderly := by
    have orderly := h.orderly
    rwa [Shared.activations, ← top, ← below] at orderly

theorem balanced_step {s t : Shared} {i : Act} (h : Balanced s) (one : guarded Unbroken (Acts j) s i t) :
    Balanced t := by
  obtain ⟨unbroken, moved⟩ := one
  cases moved with
  | @begin o _ m alone idle =>
      have rest : List.Sublist (s.below.map Prod.snd) s.activations := List.sublist_cons_self ..
      exact h.activate (task_follows j o none m) rfl h.awake rest rfl rfl rfl
  | switch m' alone idle =>
      have rest : List.Sublist (s.below.map Prod.snd) s.activations := List.sublist_cons_self ..
      exact h.activate (.done m') rfl h.awake rest rfl rfl rfl
  | call code gives => exact balanced_call h code gives _
  | sleep code busy =>
      refine ⟨h.total, h.sem, h.inside, h.awake, ?_⟩
      obtain ⟨top, below⟩ := List.forall_mem_cons.mp h.orderly
      exact List.forall_mem_cons.mpr ⟨top, below⟩
  | @enter i _ m other memory =>
      have awake : ∀ f ∈ (i, s.top) :: s.below, f.2.asleep = false :=
        List.forall_mem_cons.mpr ⟨unbroken, h.awake⟩
      exact h.activate (interrupt_follows j i _ m) rfl awake (.refl _) rfl rfl rfl
  | @leave _ m i a rest idle below =>
      have awake := h.awake
      have orderly := h.orderly
      have inside := h.inside
      rw [below] at awake
      rw [Shared.activations, below] at orderly inside
      obtain ⟨-, orderly⟩ := List.forall_mem_cons.mp orderly
      obtain ⟨first, others⟩ := List.forall_mem_cons.mp orderly
      obtain ⟨awake, restAwake⟩ := List.forall_mem_cons.mp awake
      obtain ⟨resumed, same⟩ := first.resume awake m
      refine ⟨h.total, h.sem, ?_, restAwake, List.forall_mem_cons.mpr ⟨resumed, others⟩⟩
      simp only [List.map_cons, List.countP_cons] at inside
      simp only [Shared.activations, List.countP_cons, same]
      push_cast at inside ⊢
      omega
  | @crash _ e failed =>
      have total := h.total
      have sem := h.sem
      have inside := h.inside
      have none_ : ((Shared.activations { s with
          top := .begin (.fail e), below := [], sem := max 0 (s.sem + s.undo), undo := 0 }).countP
            fun a => a.inside) = 0 := rfl
      refine ⟨?_, ?_, ?_, ?_, ?_⟩
      · simp only
        omega
      · simp only
        omega
      · rw [none_]
        exact le_refl (0 : Int)
      · intro f member
        cases member
      · intro a member
        cases List.mem_singleton.mp member
        exact ⟨none, .fail e⟩
  | fork x forked =>
      refine h.tracks rfl rfl rfl h.sem ?_
      simp only [List.countP_append, List.countP_singleton, forked, TrackPhase.locks]
      rfl
  | @track _ t pre post x y split moved =>
      obtain ⟨unit, sem, same⟩ := advances_unit moved
      have before := countP_middle (fun x : Track => x.phase.locks) pre post x
      have after := countP_middle (fun x : Track => x.phase.locks) pre post y
      rw [same]
      refine h.tracks rfl rfl rfl (sem h.sem) ?_
      rw [split]
      simp only
      omega
  | @store _ pre post x curInfo own split placed =>
      have before := countP_middle (fun x : Track => x.phase.locks) pre post x
      have after := countP_middle (fun x : Track => x.phase.locks) pre post
        { x with phase := .stored curInfo.childPid }
      rw [placed] at before
      refine h.tracks rfl rfl rfl h.sem ?_
      rw [split]
      simp only [TrackPhase.locks] at before after ⊢
      omega
  | @exit _ pre post x split =>
      have before := countP_middle (fun x : Track => x.phase.locks) pre post x
      have sem := h.sem
      refine h.tracks rfl rfl rfl ?_ ?_
      · simp only
        split <;> omega
      · rw [split]
        simp only
        omega

variable {j}

theorem balanced_reachable {m : Memory} {shm : Shm} {s : Shared}
    (run : Reachable (guarded Unbroken (Acts j)) (Shared.start m shm) s) : Balanced s :=
  run.invariant (balanced_start m shm) fun _ _ _ h one => balanced_step j h one

/-- Over every interleaving in which no handler breaks into a blocked `SemP`, at
most one is between its `SemP` and its `SemV`, and the semaphore is at most 1. -/
theorem mutual_exclusion {m : Memory} {shm : Shm} {s : Shared}
    (run : Reachable (guarded Unbroken (Acts j)) (Shared.start m shm) s) : s.Exclusive :=
  (balanced_reachable run).exclusive

/-- An online speaker at the end of its playlist, paused. -/
def pausedAtEnd : Memory where
  startFlag := true
  suspendFlag := true
  deviceMode := .online
  musicHead := [lit "a/b.mp3"]

/-- The same, not paused. -/
def playingAtEnd : Memory := { pausedAtEnd with suspendFlag := false }

/-- The track process its child forks once `b.mp3` has ended. -/
def nextForked : Track := ⟨4, 0, .forked, playingAtEnd, zeros 128⟩

/-- The first one of the list that is asked for then. -/
def replayForked : Track := ⟨6, 1, .forked, playingAtEnd, store (zeros 128) 0 (lit "a/b.mp3")⟩

def oneSongText : Bytes := lit "\x7b\"cmd\":\"reply_music_list\",\"music\":[\"a/b.mp3\"]\x7d"

/-- json-c on the server's answer with that list. -/
def readsList : JsonC where
  order := .little
  parse text := if text = oneSongText then some (.object [(lit "cmd", .string (lit "reply_music_list")),
    (lit "music", .array [.string (lit "a/b.mp3")])]) else none
  toJsonString _ := []

set_option maxRecDepth 4000 in
/-- A handler that breaks into the blocked `SemP` of `NextPlay` lets it go on without
the lock. -/
theorem handler_enters_blocked_lock :
    ¬ ∀ (j : JsonC) (m : Memory) (shm : Shm) (s : Shared),
      Reachable (guarded (fun _ i => i ≠ .enter .alarm) (Acts j)) (Shared.start m shm) s → s.Exclusive := by
  intro always
  let j := readsList
  have ends : trackName playingIt nextForked.memory.musicHead nextForked.musicName = .ok none := by
    decide +kernel
  have forked : Reachable (guarded (fun _ i => i ≠ .enter .alarm) (Acts j))
      (Shared.start playingAtEnd playingIt) _ :=
    (Reachable.refl _).tail (i := Act.fork) ⟨nofun, .fork nextForked rfl⟩
  have locked := forked.tail (i := Act.track) ⟨nofun, .track [] rfl (.semP rfl (by decide))⟩
  have read := locked.tail (i := Act.track) ⟨nofun, .track [] rfl (.getShm rfl)⟩
  have ended := read.tail (i := Act.track) ⟨nofun, .track [] rfl (.finish rfl ends)⟩
  have asked := ended.tail (i := Act.begin .nextPlay) ⟨nofun, .begin .nextPlay rfl rfl⟩
  have blocked := asked.tail (i := Act.sleep) ⟨nofun, .sleep rfl (by decide)⟩
  have handler := blocked.tail (i := Act.enter .usr1) ⟨nofun, .enter .usr1 (by decide) rfl⟩
  have gone := handler.tail (i := Act.exit) ⟨nofun, .exit [] rfl⟩
  have taken := gone.tail (i := Act.call) ⟨nofun, .call rfl (.semP (by decide))⟩
  have singer := taken.tail (i := Act.call) ⟨nofun, .call rfl .getShm⟩
  have given := singer.tail (i := Act.call) ⟨nofun, .call rfl .semV⟩
  have waited := given.tail (i := Act.call) ⟨nofun, .call rfl (.apart () trivial)⟩
  have requested := waited.tail (i := Act.call) ⟨nofun, .call rfl (.apart () trivial)⟩
  have replied := requested.tail (i := Act.call) ⟨nofun, .call rfl (.apart oneSongText trivial)⟩
  have uploaded := replied.tail (i := Act.call) ⟨nofun, .call rfl (.apart () trivial)⟩
  have signalled := uploaded.tail (i := Act.call) ⟨nofun, .call rfl (.apart () trivial)⟩
  have started := signalled.tail (i := Act.call) ⟨nofun, .call rfl (.apart () trivial)⟩
  have back := started.tail (i := Act.leave) ⟨nofun, .leave rfl rfl⟩
  have again := back.tail (i := Act.fork) ⟨nofun, .fork replayForked rfl⟩
  have both := again.tail (i := Act.track) ⟨nofun, .track [] rfl (.semP rfl (by decide))⟩
  exact absurd (always _ _ _ _ both).one (by decide)

/-- A track process holds the lock, and `NextPlay` has to wait for it. -/
theorem nextPlay_excludes : ∃ s : Shared, s.between = 1 ∧ s.sem = 0 ∧ s.top.asleep = true ∧ s.Exclusive := by
  have forked : Reachable (guarded Unbroken (Acts readsList)) (Shared.start playingAtEnd playingIt) _ :=
    (Reachable.refl _).tail (i := Act.fork) ⟨trivial, .fork nextForked rfl⟩
  have locked := forked.tail (i := Act.track) ⟨trivial, .track [] rfl (.semP rfl (by decide))⟩
  have asked := locked.tail (i := Act.begin .nextPlay) ⟨trivial, .begin .nextPlay rfl rfl⟩
  have blocked := asked.tail (i := Act.sleep) ⟨trivial, .sleep rfl (by decide)⟩
  exact ⟨_, rfl, rfl, rfl, mutual_exclusion blocked⟩

end MusicPlayer.Speaker
