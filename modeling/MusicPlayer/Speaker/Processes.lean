import MusicPlayer.Speaker.Semaphore
import Mathlib.Logic.Function.Basic

/-! The parent, the children `PlayMusic` forks and the track processes these
fork, one for each track. They share the record and the semaphore, and the
parent knows a child by the pid that a track process has put in the record. -/
namespace MusicPlayer.Speaker
open CBytes Program Runs

variable (j : JsonC)

/-! ## Children and track processes -/

/-- Where a child is: it has not set its signal handler, it runs the parent's
one in its place, it is at the test of the loop, in the body, in `wait`, a
zombie, or waited for. -/
inductive ChildPhase
  | absent
  | new
  | astray
  | loop
  | body
  | waiting (track : Nat)
  | exited
  | reaped
  deriving DecidableEq

/-- `blocked` is the mask of `SIGUSR1`, which a fork hands on. -/
structure Child where
  pid : Int
  blocked : Bool
  pending : Bool
  phase : ChildPhase
  memory : Memory
  musicName : Bytes

/-- Where a track process is: `placed` with the record it is about to store and
whether `getppid` has found its child running, then with the pid it has for the
child, at last about to signal it. -/
inductive TrackPhase
  | absent
  | forked
  | locked
  | read (curInfo : Shm)
  | placed (curInfo : Shm) (own : Bool)
  | stored (childPid : Int)
  | playing (childPid : Int)
  | leaving (childPid : Int)
  | ended
  deriving DecidableEq

structure Track where
  pid : Int
  parent : Nat
  phase : TrackPhase
  memory : Memory
  musicName : Bytes

/-- The process is there, running or not yet waited for. -/
def ChildPhase.Present : ChildPhase → Prop
  | .absent => False
  | .reaped => False
  | _ => True

/-- `SIGUSR1` finds the child's own handler. -/
def ChildPhase.Ready : ChildPhase → Prop
  | .absent => False
  | .new => False
  | .astray => False
  | _ => True

def ChildPhase.Gone : ChildPhase → Prop
  | .exited => True
  | .reaped => True
  | _ => False

def TrackPhase.Live : TrackPhase → Prop
  | .absent => False
  | .ended => False
  | _ => True

/-- Between `SemP` and `SemV`, which `SEM_UNDO` makes up for at the end of the process. -/
def TrackPhase.locks : TrackPhase → Bool
  | .locked => true
  | .read _ => true
  | .placed _ _ => true
  | .stored _ => true
  | .leaving _ => true
  | _ => false

/-- The name a track process plays, in its buffer: the one it was forked with,
else the next of the list; `none` at the end of the list. -/
def trackName (curInfo : Shm) (l : List Bytes) (musicName : Bytes) : Except Fault (Option Bytes) :=
  if cstr musicName = [] then do
    match ← findNextMusic l (cstr curInfo.curMusic) with
    | none => return none
    | some next =>
        let name ← strcpy musicName next
        return some name
  else .ok (some musicName)

/-! ## The processes together -/

/-- The state of all processes. The last four fields are history: the child of
the latest `PlayMusic`, the child whose track process stored the record last,
whether `StopPlay` has read the record and has not returned, and the children
that were the latest when a `StopPlay` returned. -/
structure Sys where
  pid : Int
  main : Code
  handler : Option Code
  pending : Bool
  shm : Shm
  sem : Int
  child : Nat → Child
  track : Nat → Track
  stray : Bool
  latest : Option Nat
  writer : Option Nat
  stopping : Bool
  stopped : List Nat

namespace Sys

def setChild (s : Sys) (c : Nat) (x : Child) : Sys := { s with child := Function.update s.child c x }

def setTrack (s : Sys) (t : Nat) (x : Track) : Sys := { s with track := Function.update s.track t x }

/-- `kill(pid, SIGUSR1)`; the pid 0 stands for the whole process group. -/
def signal (s : Sys) (pid : Int) : Sys :=
  { s with
    pending := s.pending || pid = 0 || pid = s.pid
    child := fun c => { s.child c with pending := (s.child c).pending || pid = 0 || pid = (s.child c).pid } }

/-- A pid the system may give to a new process. -/
def Fresh (s : Sys) (pid : Int) : Prop :=
  1 < pid ∧ pid ≠ s.pid ∧ (∀ c, (s.child c).phase.Present → (s.child c).pid ≠ pid) ∧
    ∀ t, (s.track t).phase.Live → (s.track t).pid ≠ pid

/-- `getppid` in a track process; 1 once the child is gone. -/
def parentPid (s : Sys) (t : Nat) : Int :=
  match (s.child (s.track t).parent).phase with
  | .exited => 1
  | .reaped => 1
  | _ => (s.child (s.track t).parent).pid

end Sys

/-! ## What the parent's calls do -/

/-- Calls that neither the other processes nor the record take part in. -/
def Call.Aside : Call → Prop
  | .semP => False
  | .semV => False
  | .getShm => False
  | .setShm _ => False
  | .fork _ => False
  | .kill _ => False
  | .waitpid _ => False
  | _ => True

/-- `Effect s m op a t`: called with memory `m`, `op` gives `a` and leaves `t`. -/
inductive Effect : Sys → Memory → (op : Call) → op.Answer → Sys → Prop
  | semP {s : Sys} {m : Memory} : 0 < s.sem → Effect s m .semP () { s with sem := s.sem - 1 }
  | semV {s : Sys} {m : Memory} : Effect s m .semV () { s with sem := s.sem + 1 }
  | getShm {s : Sys} {m : Memory} : Effect s m .getShm s.shm s
  | setShm {s : Sys} {m : Memory} (curInfo : Shm) :
      Effect s m (.setShm curInfo) () { s with shm := curInfo, writer := none }
  | fork {s : Sys} {m : Memory} {musicName : Bytes} {pid : Int} {c : Nat} : s.Fresh pid →
      (s.child c).phase = .absent →
      Effect s m (.fork musicName) ()
        { s.setChild c ⟨pid, s.handler.isSome, false, .new, m, musicName⟩ with latest := some c }
  | forkFails {s : Sys} {m : Memory} {musicName : Bytes} :
      Effect s m (.fork musicName) () { s with latest := none }
  | kill {s : Sys} {m : Memory} (pid : Int) : Effect s m (.kill pid) () (s.signal pid)
  | reap {s : Sys} {m : Memory} {pid : Int} {c : Nat} : (s.child c).phase = .exited →
      pid = 0 ∨ pid = (s.child c).pid →
      Effect s m (.waitpid pid) () (s.setChild c { s.child c with phase := .reaped })
  | noChild {s : Sys} {m : Memory} {pid : Int} :
      (∀ c, (s.child c).phase.Present → pid ≠ 0 ∧ pid ≠ (s.child c).pid) →
      Effect s m (.waitpid pid) () s
  | aside {s : Sys} {m : Memory} {op : Call} (a : op.Answer) : op.Aside → Effect s m op a s

/-! ## Steps -/

/-- A command that starts or stops play. -/
inductive Order
  | start
  | stop

def Order.run : Order → Memory → Code
  | .start => startPlay
  | .stop => stopPlay

inductive ChildStep
  | install
  | test
  | fork
  | wait
  | signal
  | back

inductive Step
  | begin (o : Order)
  | call
  | enter
  | leave
  | child (c : Nat) (e : ChildStep)
  | track (t : Nat)
  | stray

/-- `ChildProcess` and `ChildQuitProcess`. The second ends the child, as it hands
`fopen` a mode that is no string, or clears its flag. In the parent's handler a
child starts a play of its own, and anything may come of its children. -/
inductive ChildSteps (s : Sys) (c : Nat) : ChildStep → Sys → Prop
  | install : (s.child c).phase = .new →
      ChildSteps s c .install (s.setChild c { s.child c with phase := .loop })
  | goOn : (s.child c).phase = .loop → (s.child c).memory.startFlag = true →
      ChildSteps s c .test (s.setChild c { s.child c with phase := .body })
  | exit : (s.child c).phase = .loop → (s.child c).memory.startFlag = false →
      ChildSteps s c .test (s.setChild c { s.child c with phase := .exited })
  | fork {pid : Int} {t : Nat} : (s.child c).phase = .body → s.Fresh pid → (s.track t).phase = .absent →
      ChildSteps s c .fork
        ((s.setTrack t ⟨pid, c, .forked, (s.child c).memory, (s.child c).musicName⟩).setChild c
          { s.child c with
            phase := .waiting t
            musicName := store (s.child c).musicName 0 (zeros (cstr (s.child c).musicName).length) })
  | forkFails : (s.child c).phase = .body →
      ChildSteps s c .fork (s.setChild c { s.child c with phase := .exited })
  | wait {t : Nat} : (s.child c).phase = .waiting t → (s.track t).phase = .ended →
      ChildSteps s c .wait (s.setChild c { s.child c with phase := .loop })
  | quit : (s.child c).pending = true → (s.child c).blocked = false → (s.child c).phase.Ready →
      ¬ (s.child c).phase.Gone →
      ChildSteps s c .signal (s.setChild c { s.child c with pending := false, phase := .exited })
  | clear : (s.child c).pending = true → (s.child c).blocked = false → (s.child c).phase.Ready →
      ¬ (s.child c).phase.Gone →
      ChildSteps s c .signal (s.setChild c { s.child c with
        pending := false
        memory := { (s.child c).memory with startFlag := false } })
  | update : (s.child c).pending = true → (s.child c).blocked = false → (s.child c).phase = .new →
      ChildSteps s c .signal
        { s.setChild c { s.child c with pending := false, phase := .astray } with stray := true }
  | back (m : Memory) : (s.child c).phase = .astray →
      ChildSteps s c .back (s.setChild c { s.child c with phase := .new, memory := m })

/-- A track process of `ChildProcess`, up to the end of the player it becomes. -/
inductive TrackSteps (s : Sys) (t : Nat) : Sys → Prop
  | semP : (s.track t).phase = .forked → 0 < s.sem →
      TrackSteps s t { s.setTrack t { s.track t with phase := .locked } with sem := s.sem - 1 }
  | getShm : (s.track t).phase = .locked →
      TrackSteps s t (s.setTrack t { s.track t with phase := .read s.shm })
  | finish {curInfo : Shm} : (s.track t).phase = .read curInfo →
      trackName curInfo (s.track t).memory.musicHead (s.track t).musicName = .ok none →
      TrackSteps s t
        ((s.signal curInfo.parentPid).setTrack t { s.track t with phase := .leaving curInfo.childPid })
  | leave {pid : Int} : (s.track t).phase = .leaving pid →
      TrackSteps s t
        { (s.signal pid).setTrack t { s.track t with phase := .ended } with sem := s.sem + 1 }
  | place {curInfo placed : Shm} {name : Bytes} : (s.track t).phase = .read curInfo →
      trackName curInfo (s.track t).memory.musicHead (s.track t).musicName = .ok (some name) →
      setCurrent { curInfo with childPid := s.parentPid t, grandPid := (s.track t).pid } name = .ok placed →
      TrackSteps s t (s.setTrack t { s.track t with
        phase := .placed placed (s.parentPid t = (s.child (s.track t).parent).pid) })
  | setShm {curInfo : Shm} {own : Bool} : (s.track t).phase = .placed curInfo own →
      TrackSteps s t
        { s.setTrack t { s.track t with phase := .stored curInfo.childPid } with
          shm := curInfo
          writer := if own then some (s.track t).parent else none }
  | semV {pid : Int} : (s.track t).phase = .stored pid →
      TrackSteps s t { s.setTrack t { s.track t with phase := .playing pid } with sem := s.sem + 1 }
  | execFails {pid : Int} : (s.track t).phase = .playing pid →
      TrackSteps s t ((s.signal pid).setTrack t { s.track t with phase := .ended })
  | dies : (s.track t).phase.Live →
      TrackSteps s t
        { s.setTrack t { s.track t with phase := .ended } with
          sem := s.sem + if (s.track t).phase.locks then 1 else 0 }

/-- `StopPlay` reads the record first and waits for the child last. -/
def Sys.noted (s : Sys) : Call → Sys
  | .getShm => { s with stopping := true }
  | .waitpid _ => { s with stopping := false, stopped := s.latest.toList ++ s.stopped }
  | _ => s

/-- What the children of a child gone astray may do to the others. -/
inductive StraySteps (s : Sys) : Sys → Prop
  | setShm (curInfo : Shm) : StraySteps s { s with shm := curInfo, writer := none }
  | sem (v : Int) : StraySteps s { s with sem := v }
  | kill (pid : Int) : StraySteps s (s.signal pid)

/-- One step of one process. A handler runs on the memory of the code it interrupts. -/
inductive Steps : Sys → Step → Sys → Prop
  | begin (o : Order) {s : Sys} {m : Memory} : s.handler = none → s.main = .done m →
      Steps s (.begin o) { s with main := o.run m }
  | mainCall {s t : Sys} {m : Memory} {op : Call} {k : op.Answer → Memory → Code} {a : op.Answer} :
      s.handler = none → s.main = .call m op k → Effect s m op a t →
      Steps s .call { t.noted op with main := k a m }
  | handlerCall {s t : Sys} {m : Memory} {op : Call} {k : op.Answer → Memory → Code} {a : op.Answer} :
      s.handler = some (.call m op k) → Effect s m op a t →
      Steps s .call { t with handler := some (k a m) }
  | enter {s : Sys} {m : Memory} : s.handler = none → s.pending = true → s.main.memory = some m →
      Steps s .enter { s with handler := some (updateMusic j m), pending := false }
  | leave {s : Sys} {m : Memory} : s.handler = some (.done m) →
      Steps s .leave { s with handler := none, main := s.main.withMemory m }
  | child {s t : Sys} {c : Nat} {e : ChildStep} : ChildSteps s c e t → Steps s (.child c e) t
  | track {s t : Sys} {n : Nat} : TrackSteps s n t → Steps s (.track n) t
  | stray {s t : Sys} : s.stray = true → StraySteps s t → Steps s .stray t

/-! ## Stopping -/

/-- The pid is that of the latest play's child and of no other, and a signal to
it reaches the child's own handler. -/
def Sys.Aimed (s : Sys) (pid : Int) : Prop :=
  pid ≠ 0 ∧ ∃ c, s.latest = some c ∧ (s.child c).phase.Present ∧ (s.child c).phase.Ready ∧
    (s.child c).blocked = false ∧
    ∀ d, (s.child d).phase.Present → ((s.child d).pid = pid ↔ d = c)

/-- `StopPlay` signals and waits for the child of the latest play, and a child
that was stopped starts no track. -/
structure Stops (s : Sys) : Prop where
  signals : ∀ m pid k, s.main = .call m (.kill pid) k → s.Aimed pid
  waits : ∀ m pid k, s.main = .call m (.waitpid pid) k → s.Aimed pid
  silent : ∀ c ∈ s.stopped, ∀ t, ¬ Steps j s (.child c .fork) t

/-- When `StopPlay` reads the record, a track process of the latest play was the
last to store it, and the child of that play, started from the main loop, has not
been waited for; the handler does not run before `StopPlay` has returned. -/
def InTime (s : Sys) : Step → Prop
  | .call => s.handler = none → ∀ m k, s.main = .call m .getShm k →
      ∃ c, s.latest = some c ∧ s.writer = some c ∧ (s.child c).blocked = false ∧ (s.child c).phase ≠ .reaped
  | .enter => s.stopping = false
  | _ => True

/-- The record and the semaphore as `InitShm` and `InitSem` leave them. -/
def initShm (pid : Int) : Shm where
  curMusic := zeros 128
  curSigner := zeros 128
  curMode := sequence
  parentPid := pid
  childPid := 0
  grandPid := 0

/-- The parent before it plays for the first time. -/
def Sys.start (pid : Int) (m : Memory) : Sys where
  pid := pid
  main := .done m
  handler := none
  pending := false
  shm := initShm pid
  sem := 1
  child := fun _ => ⟨0, false, false, .absent, m, []⟩
  track := fun _ => ⟨0, 0, .absent, m, []⟩
  stray := false
  latest := none
  writer := none
  stopping := false
  stopped := []

/-! ## What holds of the processes -/

@[simp] theorem setChild_self (s : Sys) (c : Nat) (x : Child) : (s.setChild c x).child c = x :=
  Function.update_self ..

theorem setChild_other (s : Sys) {c d : Nat} (other : d ≠ c) (x : Child) :
    (s.setChild c x).child d = s.child d := Function.update_of_ne other ..

@[simp] theorem setTrack_self (s : Sys) (t : Nat) (x : Track) : (s.setTrack t x).track t = x :=
  Function.update_self ..

theorem setTrack_other (s : Sys) {t u : Nat} (other : u ≠ t) (x : Track) :
    (s.setTrack t x).track u = s.track u := Function.update_of_ne other ..

/-- What a step may do to a child that is there before it. -/
structure Child.Advances (x y : Child) : Prop where
  pid : y.pid = x.pid
  blocked : y.blocked = x.blocked
  present : y.phase.Present → x.phase.Present
  ready : x.phase.Ready → y.phase.Ready
  gone : x.phase.Gone → y.phase.Gone

theorem Child.Advances.refl (x : Child) : x.Advances x := ⟨rfl, rfl, id, id, id⟩

theorem setChild_advances {s : Sys} {c : Nat} {x : Child} (h : (s.child c).Advances x) (d : Nat) :
    (s.child d).Advances ((s.setChild c x).child d) := by
  by_cases same : d = c
  · subst same
    rwa [setChild_self]
  · rw [setChild_other s same]
    exact .refl _

/-- What a track process knows of its child. -/
structure Track.Sound (child : Nat → Child) (x : Track) : Prop where
  parent : x.phase.Live → (child x.parent).phase.Ready
  placed : ∀ curInfo, x.phase = .placed curInfo true → curInfo.childPid = (child x.parent).pid

/-- What the record says of the child whose track process stored it last. -/
def Written (child : Nat → Child) (shm : Shm) (writer : Option Nat) : Prop :=
  ∀ c, writer = some c → shm.childPid = (child c).pid ∧ (child c).phase.Ready

structure World (s : Sys) : Prop where
  nonzero : ∀ c, (s.child c).phase.Present → (s.child c).pid ≠ 0
  distinct : ∀ c d, (s.child c).phase.Present → (s.child d).phase.Present →
    (s.child c).pid = (s.child d).pid → c = d
  tracks : ∀ t, (s.track t).Sound s.child
  written : Written s.child s.shm s.writer
  gone : ∀ c ∈ s.stopped, (s.child c).phase.Gone

theorem Track.Sound.advance {child child' : Nat → Child} {x : Track} (h : x.Sound child)
    (advances : ∀ c, (child c).Advances (child' c)) : x.Sound child' where
  parent := fun live => (advances _).ready (h.parent live)
  placed := by
    intro curInfo phase
    rw [(advances _).pid]
    exact h.placed curInfo phase

theorem Written.advance {child child' : Nat → Child} {shm : Shm} {writer : Option Nat}
    (h : Written child shm writer) (advances : ∀ c, (child c).Advances (child' c)) :
    Written child' shm writer := by
  intro c is
  obtain ⟨pid, ready⟩ := h c is
  rw [(advances c).pid]
  exact ⟨pid, (advances c).ready ready⟩

theorem World.advance {s t : Sys} (h : World s) (children : ∀ c, (s.child c).Advances (t.child c))
    (stopped : t.stopped = s.stopped) (tracks : ∀ n, (t.track n).Sound s.child)
    (written : Written s.child t.shm t.writer) : World t where
  nonzero := by
    intro c present
    rw [(children c).pid]
    exact h.nonzero c ((children c).present present)
  distinct := by
    intro c d one two same
    rw [(children c).pid, (children d).pid] at same
    exact h.distinct c d ((children c).present one) ((children d).present two) same
  tracks := fun n => (tracks n).advance children
  written := written.advance children
  gone := by
    intro c member
    rw [stopped] at member
    exact (children c).gone (h.gone c member)

/-! ## Steps of the other processes -/

/-- What a step of another process leaves to the parent. -/
structure Beside (s t : Sys) : Prop where
  main : t.main = s.main
  handler : t.handler = s.handler
  latest : t.latest = s.latest
  stopping : t.stopping = s.stopping
  stopped : t.stopped = s.stopped
  children : ∀ c, (s.child c).Advances (t.child c)
  present : ∀ c, (s.child c).phase.Present → (t.child c).phase.Present

/-- What a phase of a running child may lead to. -/
structure ChildPhase.Leads (p q : ChildPhase) : Prop where
  present : q.Present ↔ p.Present
  ready : p.Ready → q.Ready
  running : ¬ p.Gone

theorem setChild_beside {s : Sys} {c : Nat} {p q : ChildPhase} (phase : (s.child c).phase = p)
    (leads : p.Leads q) (pending : Bool) (memory : Memory) (musicName : Bytes) :
    Beside s (s.setChild c ⟨(s.child c).pid, (s.child c).blocked, pending, q, memory, musicName⟩) := by
  subst phase
  have advances : (s.child c).Advances
      ⟨(s.child c).pid, (s.child c).blocked, pending, q, memory, musicName⟩ :=
    ⟨rfl, rfl, leads.present.mp, leads.ready, fun gone => absurd gone leads.running⟩
  refine ⟨rfl, rfl, rfl, rfl, rfl, setChild_advances advances, ?_⟩
  intro d present
  by_cases same : d = c
  · subst same
    rw [setChild_self]
    exact leads.present.mpr present
  · rwa [setChild_other s same]

theorem leads_exited {p : ChildPhase} (ready : p.Ready) (running : ¬ p.Gone) : p.Leads .exited := by
  refine ⟨⟨fun _ => ?_, fun _ => trivial⟩, fun _ => trivial, running⟩
  cases p with
  | absent => exact ready
  | reaped => exact running trivial
  | _ => trivial

theorem child_beside {s t : Sys} {c : Nat} {e : ChildStep} (h : ChildSteps s c e t) : Beside s t := by
  cases h with
  | install phase => exact setChild_beside (q := .loop) phase ⟨.rfl, fun _ => trivial, id⟩ _ _ _
  | goOn phase _ => exact setChild_beside (q := .body) phase ⟨.rfl, fun _ => trivial, id⟩ _ _ _
  | exit phase _ => exact setChild_beside (q := .exited) phase ⟨.rfl, fun _ => trivial, id⟩ _ _ _
  | @fork pid n phase _ _ =>
      have beside := setChild_beside (q := .waiting n) phase ⟨.rfl, fun _ => trivial, id⟩
        (s.child c).pending (s.child c).memory
        (store (s.child c).musicName 0 (zeros (cstr (s.child c).musicName).length))
      exact ⟨rfl, rfl, rfl, rfl, rfl, beside.children, beside.present⟩
  | forkFails phase => exact setChild_beside (q := .exited) phase ⟨.rfl, fun _ => trivial, id⟩ _ _ _
  | wait phase _ => exact setChild_beside (q := .loop) phase ⟨.rfl, fun _ => trivial, id⟩ _ _ _
  | quit _ _ ready running => exact setChild_beside rfl (leads_exited ready running) _ _ _
  | clear _ _ ready running => exact setChild_beside rfl ⟨.rfl, id, running⟩ _ _ _
  | update _ _ phase =>
      have beside := setChild_beside (q := .astray) phase ⟨.rfl, id, id⟩ false (s.child c).memory
        (s.child c).musicName
      exact ⟨rfl, rfl, rfl, rfl, rfl, beside.children, beside.present⟩
  | back m phase => exact setChild_beside (q := .new) phase ⟨.rfl, id, id⟩ _ _ _

theorem setTrack_sound {s : Sys} {t : Nat} {x : Track} (all : ∀ n, (s.track n).Sound s.child)
    (one : x.Sound s.child) (n : Nat) : ((s.setTrack t x).track n).Sound s.child := by
  by_cases same : n = t
  · subst same
    rwa [setTrack_self]
  · rw [setTrack_other s same]
    exact all n

theorem child_world {s t : Sys} {c : Nat} {e : ChildStep} (w : World s) (h : ChildSteps s c e t) :
    World t := by
  refine w.advance (child_beside h).children (child_beside h).stopped ?_ ?_
  · cases h with
    | fork phase _ _ =>
        refine setTrack_sound w.tracks ⟨fun _ => ?_, fun curInfo placed => by cases placed⟩
        rw [phase]
        trivial
    | _ => exact w.tracks
  · cases h <;> exact w.written

theorem signal_advances (s : Sys) (pid : Int) (c : Nat) :
    (s.child c).Advances ((s.signal pid).child c) := ⟨rfl, rfl, id, id, id⟩

theorem signal_beside (s : Sys) (pid : Int) : Beside s (s.signal pid) :=
  ⟨rfl, rfl, rfl, rfl, rfl, signal_advances s pid, fun _ => id⟩

theorem track_beside {s t : Sys} {n : Nat} (h : TrackSteps s n t) : Beside s t := by
  cases h with
  | finish _ _ => exact ⟨rfl, rfl, rfl, rfl, rfl, signal_advances s _, fun _ => id⟩
  | leave _ => exact ⟨rfl, rfl, rfl, rfl, rfl, signal_advances s _, fun _ => id⟩
  | execFails _ => exact ⟨rfl, rfl, rfl, rfl, rfl, signal_advances s _, fun _ => id⟩
  | _ => exact ⟨rfl, rfl, rfl, rfl, rfl, fun c => .refl _, fun _ => id⟩

theorem setCurrent_childPid {curInfo placed : Shm} {name : Bytes}
    (h : setCurrent curInfo name = .ok placed) : placed.childPid = curInfo.childPid := by
  obtain ⟨⟨singer, track⟩, -, h⟩ := Except.bind_eq_ok.mp h
  obtain ⟨curSigner, -, h⟩ := Except.bind_eq_ok.mp h
  obtain ⟨curMusic, -, h⟩ := Except.bind_eq_ok.mp h
  rw [← Except.ok.inj h]

theorem track_sound {s t : Sys} {n : Nat} (w : World s) (h : TrackSteps s n t) (m : Nat) :
    (t.track m).Sound s.child := by
  have goes : ∀ q, (s.track n).phase.Live → (∀ curInfo, q ≠ .placed curInfo true) → ∀ m,
      ((s.setTrack n { s.track n with phase := q }).track m).Sound s.child := by
    intro q live other
    refine setTrack_sound w.tracks ⟨fun _ => (w.tracks n).parent live, ?_⟩
    intro curInfo placed
    exact absurd placed (other curInfo)
  cases h with
  | semP phase _ => exact goes .locked (by rw [phase]; trivial) (by simp) m
  | getShm phase => exact goes (.read s.shm) (by rw [phase]; trivial) (by simp) m
  | finish phase _ => exact goes (.leaving _) (by rw [phase]; trivial) (by simp) m
  | leave phase => exact goes .ended (by rw [phase]; trivial) (by simp) m
  | @place curInfo placed name phase _ set =>
      refine setTrack_sound w.tracks (x := { s.track n with phase := .placed placed _ }) ?_ m
      refine ⟨fun _ => (w.tracks n).parent (by rw [phase]; trivial), fun curInfo' same => ?_⟩
      obtain ⟨rfl, own⟩ := TrackPhase.placed.inj same
      exact (setCurrent_childPid set).trans (of_decide_eq_true own)
  | setShm phase => exact goes (.stored _) (by rw [phase]; trivial) (by simp) m
  | semV phase => exact goes (.playing _) (by rw [phase]; trivial) (by simp) m
  | execFails phase => exact goes .ended (by rw [phase]; trivial) (by simp) m
  | dies live => exact goes .ended live (by simp) m

theorem track_written {s t : Sys} {n : Nat} (w : World s) (h : TrackSteps s n t) :
    Written s.child t.shm t.writer := by
  cases h with
  | @setShm curInfo own phase =>
      intro c is
      cases own with
      | false => cases is
      | true =>
          cases is
          exact ⟨(w.tracks n).placed curInfo phase, (w.tracks n).parent (by rw [phase]; trivial)⟩
  | _ => exact w.written

theorem track_world {s t : Sys} {n : Nat} (w : World s) (h : TrackSteps s n t) : World t :=
  w.advance (track_beside h).children (track_beside h).stopped (track_sound w h) (track_written w h)

theorem stray_beside {s t : Sys} (h : StraySteps s t) : Beside s t := by
  cases h with
  | setShm _ => exact ⟨rfl, rfl, rfl, rfl, rfl, fun c => .refl _, fun _ => id⟩
  | sem _ => exact ⟨rfl, rfl, rfl, rfl, rfl, fun c => .refl _, fun _ => id⟩
  | kill pid => exact signal_beside s pid

theorem stray_world {s t : Sys} (w : World s) (h : StraySteps s t) : World t := by
  refine w.advance (stray_beside h).children (stray_beside h).stopped ?_ ?_
  · cases h <;> exact w.tracks
  · cases h with
    | setShm _ =>
        intro c is
        cases is
    | _ => exact w.written

/-! ## Steps of the parent -/

theorem reap_advances (x : Child) : x.Advances { x with phase := .reaped } :=
  ⟨rfl, rfl, fun present => present.elim, fun _ => trivial, fun _ => trivial⟩

/-- A new child is no track's, and not one the record speaks of. -/
theorem fork_world {s : Sys} (w : World s) {c : Nat} {x : Child} (absent : (s.child c).phase = .absent)
    (fresh : s.Fresh x.pid) : World (s.setChild c x) := by
  have older : ∀ {d}, (s.child d).phase.Ready ∨ (s.child d).phase.Gone →
      (s.setChild c x).child d = s.child d := by
    intro d there
    apply setChild_other
    intro same
    rw [same, absent] at there
    exact there.elim id id
  obtain ⟨positive, -, unused, -⟩ := fresh
  refine ⟨?_, ?_, ?_, ?_, ?_⟩
  · intro d present
    by_cases same : d = c
    · rw [same, setChild_self]
      omega
    · rw [setChild_other s same] at present ⊢
      exact w.nonzero d present
  · intro d e one two same
    by_cases first : d = c
    · by_cases second : e = c
      · rw [first, second]
      · rw [first, setChild_self, setChild_other s second] at same
        rw [setChild_other s second] at two
        exact absurd same.symm (unused e two)
    · by_cases second : e = c
      · rw [second, setChild_self, setChild_other s first] at same
        rw [setChild_other s first] at one
        exact absurd same (unused d one)
      · rw [setChild_other s first] at one same
        rw [setChild_other s second] at two same
        exact w.distinct d e one two same
  · intro n
    have track := w.tracks n
    refine ⟨fun live => ?_, fun curInfo placed => ?_⟩
    · have ready := track.parent live
      have same := older (.inl ready)
      exact same ▸ ready
    · have ready := track.parent (placed ▸ trivial)
      have same := older (.inl ready)
      exact same ▸ track.placed curInfo placed
  · intro d is
    obtain ⟨pid, ready⟩ := w.written d is
    rw [older (.inl ready)]
    exact ⟨pid, ready⟩
  · intro d member
    have gone := w.gone d member
    rw [older (.inr gone)]
    exact gone

theorem effect_world {s t : Sys} {m : Memory} {op : Call} {a : op.Answer} (w : World s)
    (h : Effect s m op a t) : World t := by
  have same : ∀ c, (s.child c).Advances (s.child c) := fun c => .refl _
  cases h with
  | semP _ => exact w.advance same rfl w.tracks w.written
  | semV => exact w.advance same rfl w.tracks w.written
  | getShm => exact w
  | setShm curInfo => exact w.advance same rfl w.tracks fun c is => by cases is
  | @fork musicName pid c fresh absent =>
      have forked := fork_world w (x := ⟨pid, s.handler.isSome, false, .new, m, musicName⟩) absent fresh
      exact forked.advance (fun c => .refl _) rfl forked.tracks forked.written
  | forkFails => exact w.advance same rfl w.tracks w.written
  | kill pid => exact w.advance (signal_advances s pid) rfl w.tracks w.written
  | reap _ _ => exact w.advance (setChild_advances (reap_advances _)) rfl w.tracks w.written
  | noChild _ => exact w
  | aside _ _ => exact w

theorem effect_keeps {s t : Sys} {m : Memory} {op : Call} {a : op.Answer} (h : Effect s m op a t) :
    t.main = s.main ∧ t.handler = s.handler ∧ t.stopping = s.stopping := by
  cases h <;> exact ⟨rfl, rfl, rfl⟩

/-- The calls `StopPlay` makes and `StartPlay` does not. -/
def Call.Quiet : Call → Prop
  | .getShm => False
  | .kill _ => False
  | .waitpid _ => False
  | _ => True

theorem startPlay_quiet (m : Memory) : (startPlay m).Every Call.Quiet :=
  startPlay_every trivial (fun _ => trivial) (fun _ => trivial) m

theorem noted_quiet {op : Call} (quiet : op.Quiet) (s : Sys) : s.noted op = s := by
  cases op with
  | getShm => exact quiet.elim
  | waitpid pid => exact quiet.elim
  | _ => rfl

/-- The pid is that of the latest play's child, which is there and ready for a signal. -/
def Sys.Target (s : Sys) (pid : Int) : Prop :=
  ∃ c, s.latest = some c ∧ (s.child c).pid = pid ∧ (s.child c).phase.Present ∧
    (s.child c).phase.Ready ∧ (s.child c).blocked = false

/-- Where the main loop of the parent is. -/
inductive Stage (s : Sys) : Prop
  | quiet : s.main.Every Call.Quiet → s.stopping = false → Stage s
  | reading {m : Memory} : s.main = .call m .getShm (fun curInfo m => stopKill curInfo.childPid m) →
      s.stopping = false → Stage s
  | aimed {m : Memory} {pid : Int} : s.handler = none → s.stopping = true → s.Target pid →
      s.main = stopKill pid m ∨ s.main = stopQuit pid m ∨ s.main = stopReap pid m → Stage s

theorem Target.aimed {s : Sys} {pid : Int} (w : World s) (h : s.Target pid) : s.Aimed pid := by
  obtain ⟨c, latest, rfl, present, ready, open_⟩ := h
  refine ⟨w.nonzero c present, c, latest, present, ready, open_, ?_⟩
  intro d there
  constructor
  · exact w.distinct d c there present
  · intro same
    rw [same]

theorem Target.beside {s t : Sys} {pid : Int} (h : s.Target pid) (beside : Beside s t) : t.Target pid := by
  obtain ⟨c, latest, same, present, ready, open_⟩ := h
  have advances := beside.children c
  refine ⟨c, beside.latest.trans latest, advances.pid.trans same, beside.present c present,
    advances.ready ready, advances.blocked.trans open_⟩

theorem Stage.beside {s t : Sys} (h : Stage s) (beside : Beside s t) : Stage t := by
  cases h with
  | quiet code none_ => exact .quiet (beside.main ▸ code) (beside.stopping.trans none_)
  | reading code none_ => exact .reading (beside.main.trans code) (beside.stopping.trans none_)
  | aimed idle stopping target code =>
      rw [← beside.main] at code
      exact .aimed (beside.handler.trans idle) (beside.stopping.trans stopping)
        (Target.beside target beside) code

theorem begin_stage {s : Sys} (h : Stage s) (o : Order) {m : Memory} (idle : s.main = .done m) :
    Stage { s with main := o.run m } := by
  have none_ : s.stopping = false := by
    cases h with
    | quiet _ none_ => exact none_
    | reading _ none_ => exact none_
    | aimed _ _ _ code =>
        rw [idle] at code
        rcases code with code | code | code <;> cases code
  cases o with
  | start => exact .quiet (startPlay_quiet m) none_
  | stop =>
      by_cases started : m.startFlag = true
      · refine .reading (m := m) ?_ none_
        exact if_pos started
      · refine .quiet ?_ none_
        change (stopPlay m).Every Call.Quiet
        rw [stopPlay, if_neg started]
        exact .done m

theorem enter_stage {s : Sys} {j : JsonC} (h : Stage s) (none_ : s.stopping = false) (m : Memory) :
    Stage { s with handler := some (updateMusic j m), pending := false } := by
  cases h with
  | quiet code _ => exact .quiet code none_
  | reading code _ => exact .reading code none_
  | aimed _ stopping _ _ => cases none_.symm.trans stopping

theorem leave_stage {s : Sys} (h : Stage s) {code : Code} (busy : s.handler = some code) (m : Memory) :
    Stage { s with handler := none, main := s.main.withMemory m } := by
  cases h with
  | quiet code none_ => exact .quiet (code.withMemory m) none_
  | reading code none_ =>
      refine .reading (m := m) ?_ none_
      exact congrArg (Program.withMemory m) code
  | aimed idle _ _ _ => cases idle.symm.trans busy

theorem handlerCall_stage {s t : Sys} (h : Stage s) {code : Code} (busy : s.handler = some code)
    (main : t.main = s.main) (stopping : t.stopping = s.stopping) (next : Code) :
    Stage { t with handler := some next } := by
  cases h with
  | quiet code none_ => exact .quiet (main ▸ code) (stopping.trans none_)
  | reading code none_ => exact .reading (main.trans code) (stopping.trans none_)
  | aimed idle _ _ _ => cases idle.symm.trans busy

/-- The pid the main loop signals or waits for. -/
theorem Stage.target {s : Sys} (h : Stage s) {m : Memory} {pid : Int} {k : Unit → Memory → Code}
    (code : s.main = .call m (.kill pid) k ∨ s.main = .call m (.waitpid pid) k) : s.Target pid := by
  cases h with
  | quiet every _ =>
      rcases code with code | code <;> rw [code] at every <;> cases every with
      | call quiet _ => exact quiet.elim
  | reading here _ =>
      rcases code with code | code <;> cases code.symm.trans here
  | aimed _ _ target here =>
      rcases here with here | here | here <;> rcases code with code | code <;> cases code.symm.trans here
      · exact target
      · exact target

/-- A call of the main loop: `StopPlay` goes from the record to the signal, the
fifo and the wait with the pid it has read in time. -/
theorem mainCall_stage {s t : Sys} (w : World s) (h : Stage s) {m : Memory} {op : Call} {a : op.Answer}
    {k : op.Answer → Memory → Code} (idle : s.handler = none) (code : s.main = .call m op k)
    (effect : Effect s m op a t) (inTime : InTime s .call) : Stage { t.noted op with main := k a m } := by
  have keeps := effect_keeps effect
  cases h with
  | quiet every none_ =>
      rw [code] at every
      cases every with
      | call quiet rest =>
          rw [noted_quiet quiet]
          exact .quiet (rest a m) (keeps.2.2.trans none_)
  | reading here _ =>
      cases code.symm.trans here
      cases effect with
      | aside _ aside => exact aside.elim
      | getShm =>
          obtain ⟨c, latest, writer, open_, there⟩ := inTime idle _ _ here
          obtain ⟨pid, ready⟩ := w.written c writer
          have present : (s.child c).phase.Present := by
            generalize (s.child c).phase = phase at ready there
            cases phase with
            | absent => exact ready
            | reaped => exact there rfl
            | _ => trivial
          exact .aimed idle rfl ⟨c, latest, pid.symm, present, ready, open_⟩ (.inl rfl)
  | @aimed _ pid _ stopping target here =>
      rcases here with here | here | here <;> cases code.symm.trans here
      · cases effect with
        | aside _ aside => exact aside.elim
        | kill _ =>
            have target' := Target.beside target (signal_beside s pid)
            exact .aimed idle stopping target' (.inr (.inl rfl))
      · cases effect with
        | aside _ _ => exact .aimed idle stopping target (.inr (.inr rfl))
      · exact .quiet (.done _) rfl

/-- The wait of `StopPlay` ends with the child. -/
theorem waited_gone {s t : Sys} {m : Memory} {pid : Int} {a : Unit} (w : World s) (target : s.Target pid)
    (effect : Effect s m (.waitpid pid) a t) : ∀ c, t.latest = some c → (t.child c).phase.Gone := by
  obtain ⟨c, latest, same, present, -⟩ := target
  intro d is
  cases effect with
  | aside _ aside => exact aside.elim
  | noChild nobody => exact absurd same.symm (nobody c present).2
  | @reap _ e exited hit =>
      cases latest.symm.trans is
      have there : (s.child e).phase.Present := by
        rw [exited]
        trivial
      have one : e = c := by
        rcases hit with group | hit
        · exact absurd (same.trans group) (w.nonzero c present)
        · exact w.distinct e c there present (hit.symm.trans same.symm)
      subst one
      rw [setChild_self]
      trivial

theorem mainCall_world {s t : Sys} (w : World s) (h : Stage s) {m : Memory} {op : Call} {a : op.Answer}
    {k : op.Answer → Memory → Code} (code : s.main = .call m op k) (effect : Effect s m op a t) :
    World { t.noted op with main := k a m } := by
  have after := effect_world w effect
  have same : ∀ c, (t.child c).Advances (t.child c) := fun c => .refl _
  cases op with
  | waitpid pid =>
      have target : s.Target pid := h.target (.inr code)
      refine ⟨after.nonzero, after.distinct, after.tracks, after.written, ?_⟩
      intro c member
      rcases List.mem_append.mp member with latest | earlier
      · exact waited_gone w target effect c (Option.mem_toList.mp latest)
      · exact after.gone c earlier
  | _ => exact after.advance same rfl after.tracks after.written

structure Inv (s : Sys) : Prop where
  world : World s
  stage : Stage s

theorem inv_start (pid : Int) (m : Memory) : Inv (Sys.start pid m) where
  world := by
    refine ⟨fun c present => present.elim, fun c d present => present.elim, fun n => ?_, fun c is => ?_, ?_⟩
    · exact ⟨fun live => live.elim, fun curInfo placed => by cases placed⟩
    · cases is
    · intro c member
      cases member
  stage := .quiet (.done m) rfl

variable {j}

theorem inv_step {s t : Sys} {i : Step} (h : Inv s) (one : guarded InTime (Steps j) s i t) : Inv t := by
  obtain ⟨w, stage⟩ := h
  obtain ⟨inTime, moved⟩ := one
  have same : ∀ c, (s.child c).Advances (s.child c) := fun c => .refl _
  cases moved with
  | begin o _ code => exact ⟨w.advance same rfl w.tracks w.written, begin_stage stage o code⟩
  | mainCall idle code effect =>
      exact ⟨mainCall_world w stage code effect, mainCall_stage w stage idle code effect inTime⟩
  | handlerCall busy effect =>
      have after := effect_world w effect
      obtain ⟨main, -, stopping⟩ := effect_keeps effect
      exact ⟨after.advance (fun c => .refl _) rfl after.tracks after.written,
        handlerCall_stage stage busy main stopping _⟩
  | enter _ _ _ => exact ⟨w.advance same rfl w.tracks w.written, enter_stage stage inTime _⟩
  | leave busy => exact ⟨w.advance same rfl w.tracks w.written, leave_stage stage busy _⟩
  | child moved => exact ⟨child_world w moved, stage.beside (child_beside moved)⟩
  | track moved => exact ⟨track_world w moved, stage.beside (track_beside moved)⟩
  | stray _ moved => exact ⟨stray_world w moved, stage.beside (stray_beside moved)⟩

theorem Inv.stops {s : Sys} (h : Inv s) : Stops j s where
  signals := by
    intro m pid k code
    exact Target.aimed h.world (h.stage.target (.inl code))
  waits := by
    intro m pid k code
    exact Target.aimed h.world (h.stage.target (.inr code))
  silent := by
    intro c member t one
    have gone := h.world.gone c member
    cases one with
    | child moved =>
        cases moved with
        | fork phase _ _ =>
            rw [phase] at gone
            exact gone
        | forkFails phase =>
            rw [phase] at gone
            exact gone

/-- Over every interleaving in which `StopPlay` is called in time, it stops the
play that is on. -/
theorem stopPlay_stops (pid : Int) (m : Memory) {s : Sys}
    (run : Reachable (guarded InTime (Steps j)) (Sys.start pid m) s) : Stops j s := by
  have inv : Inv s := run.invariant (inv_start pid m) fun s i t => inv_step
  exact inv.stops

def oneTrackName : Bytes := store (zeros 128) 0 (lit "a/b.mp3")

/-- `StartPlay` about to fork. -/
def forking : Code := .call (oneTrack true) (.fork oneTrackName) fun _ s => .done s

theorem oneTrack_starts : ∃ k : Unit → Memory → Code,
    startPlay (oneTrack false) = .call (oneTrack false) .signal k ∧ k () (oneTrack false) = forking := by
  have fits : strcpy (zeros 128) (lit "a/b.mp3") = .ok oneTrackName := by decide +kernel
  refine ⟨_, rfl, ?_⟩
  change check (strcpy (zeros 128) (lit "a/b.mp3")) _ = forking
  rw [fits]
  rfl

theorem oneTrack_forks {s : Sys} (idle : s.handler = none) (code : s.main = startPlay (oneTrack false)) :
    guarded InTime (Steps j) s .call { s with main := forking } := by
  obtain ⟨k, signal, next⟩ := oneTrack_starts
  have effect := @Effect.aside s (oneTrack false) .signal () trivial
  rw [← next]
  refine ⟨fun _ m k reads => ?_, .mainCall idle (code.trans signal) effect⟩
  cases reads.symm.trans (code.trans signal)

/-- Stopped before the first track process has stored its record, a play is
signalled as process group 0. -/
theorem stopped_early_signals_group :
    ¬ ∀ (j : JsonC) (pid : Int) (m : Memory) (s : Sys),
      Reachable (Steps j) (Sys.start pid m) s → Stops j s := by
  intro always
  let j : JsonC := ⟨.little, fun _ => none, fun _ => []⟩
  have begun : Reachable (Steps j) (Sys.start 100 (oneTrack false)) _ :=
    (Reachable.refl _).tail (i := Step.begin .start) (.begin .start rfl rfl)
  have called := begun.tail (oneTrack_forks rfl rfl).2
  have fresh : Sys.Fresh { Sys.start 100 (oneTrack false) with main := forking } 101 :=
    ⟨by decide, by decide, fun c present => present.elim, fun t live => live.elim⟩
  have forked := called.tail (i := Step.call) (.mainCall rfl rfl (.fork (c := 0) fresh rfl))
  have stopping := forked.tail (i := Step.begin .stop) (.begin .stop rfl rfl)
  have read := stopping.tail (i := Step.call) (.mainCall rfl rfl .getShm)
  have aimed := (always _ _ _ _ read).signals _ _ _ rfl
  exact aimed.1 rfl

/-- The record of the first track. -/
def oneTrackShm : Shm where
  curMusic := store (zeros 128) 0 (lit "b.mp3")
  curSigner := store (zeros 128) 0 (lit "a")
  curMode := sequence
  parentPid := 100
  childPid := 101
  grandPid := 102

/-- With its first track playing, a play is stopped by a signal to its child. -/
theorem playing_signals_child :
    ∃ (s : Sys) (m : Memory) (k : Unit → Memory → Code), s.main = .call m (.kill 101) k ∧ s.Aimed 101 := by
  let j : JsonC := ⟨.little, fun _ => none, fun _ => []⟩
  have name : trackName (initShm 100) [lit "a/b.mp3"] oneTrackName = .ok (some oneTrackName) := by
    decide +kernel
  have record : setCurrent { initShm 100 with childPid := 101, grandPid := 102 } oneTrackName =
      .ok oneTrackShm := by decide +kernel
  have begun : Reachable (guarded InTime (Steps j)) (Sys.start 100 (oneTrack false)) _ :=
    (Reachable.refl _).tail (i := Step.begin .start) ⟨trivial, .begin .start rfl rfl⟩
  have called := begun.tail (oneTrack_forks rfl rfl)
  have fresh : Sys.Fresh { Sys.start 100 (oneTrack false) with main := forking } 101 :=
    ⟨by decide, by decide, fun c present => present.elim, fun t live => live.elim⟩
  have forked := called.tail (i := Step.call)
    ⟨fun _ m k reads => (by cases reads), .mainCall rfl rfl (.fork (c := 0) fresh rfl)⟩
  have installed := forked.tail (i := Step.child 0 .install) ⟨trivial, .child (.install rfl)⟩
  have tested := installed.tail (i := Step.child 0 .test) ⟨trivial, .child (.goOn rfl rfl)⟩
  have other : ∀ {s : Sys} {x y z : Child} (c : Nat), (s.child c).phase = .absent → x.pid = 101 →
      ((((s.setChild 0 z).setChild 0 y).setChild 0 x).child c).phase.Present →
      ((((s.setChild 0 z).setChild 0 y).setChild 0 x).child c).pid ≠ 102 := by
    intro s x y z c absent is present
    by_cases zero : c = 0
    · rw [zero, setChild_self, is]
      decide
    · rw [setChild_other _ zero, setChild_other _ zero, setChild_other _ zero, absent] at present
      exact present.elim
  have track := tested.tail (i := Step.child 0 .fork) ⟨trivial, .child (.fork (t := 0) rfl
    ⟨show (1 : Int) < 102 by decide, by decide, fun c => other c rfl rfl, fun t live => live.elim⟩ rfl)⟩
  have locked := track.tail (i := Step.track 0) ⟨trivial, .track (.semP rfl (by decide))⟩
  have read := locked.tail (i := Step.track 0) ⟨trivial, .track (.getShm rfl)⟩
  have placed := read.tail (i := Step.track 0) ⟨trivial, .track (.place rfl name record)⟩
  have stored := placed.tail (i := Step.track 0) ⟨trivial, .track (.setShm rfl)⟩
  have stopping := stored.tail (i := Step.begin .stop) ⟨trivial, .begin .stop rfl rfl⟩
  have asked := stopping.tail (i := Step.call)
    ⟨fun _ m k _ => ⟨0, rfl, rfl, rfl, by decide⟩, .mainCall rfl rfl .getShm⟩
  exact ⟨_, _, _, rfl, (stopPlay_stops 100 (oneTrack false) asked).signals _ _ _ rfl⟩

end MusicPlayer.Speaker
