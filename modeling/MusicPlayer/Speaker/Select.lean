import MusicPlayer.Speaker.Modes
import MusicPlayer.Speaker.Receive

/-! The set that `MySelect` waits on: who puts a descriptor into `READSET`, who
takes it out again, and what becomes of `g_maxfd` meanwhile. -/
namespace MusicPlayer.Speaker.Select
open Runs

/-- `READSET` by its members, the globals around it, and the numbers the process has open. -/
structure Descriptors where
  readset : List Int
  maxfd : Int
  sockfd : Int
  buttonFd : Int
  asrfd : Int
  ttsfd : Int
  deviceMode : DeviceMode
  openFds : List Int

namespace Descriptors

/-! ## Who changes the set -/

/-- `open` or `socket` has returned `fd`: a number not in use, or -1. -/
def opened (fd : Int) (d : Descriptors) : Descriptors :=
  { d with openFds := if fd < 0 then d.openFds else fd :: d.openFds }

/-- `close`, of which nobody looks at the result. -/
def close (fd : Int) (d : Descriptors) : Descriptors := { d with openFds := d.openFds.filter (· ≠ fd) }

/-- `FD_SET` and the bound, as three functions have it. -/
def watch (fd : Int) (d : Descriptors) : Descriptors :=
  { d with
    readset := d.readset.insert fd
    maxfd := if d.maxfd < fd then fd else d.maxfd }

/-- `FD_CLR` and the bound, as three others have it. -/
def unwatch (fd : Int) (d : Descriptors) : Descriptors :=
  { d with
    readset := d.readset.filter (· ≠ fd)
    maxfd := if d.maxfd = fd then d.maxfd - 1 else d.maxfd }

def initSelect (d : Descriptors) : Descriptors := { d with readset := [0] }

def initButton (fd : Int) (d : Descriptors) : Descriptors :=
  let d := { d.opened fd with buttonFd := fd }
  if fd = -1 then d else d.watch fd

/-- `none` when the process exits. -/
def initFifo (asrfd ttsfd : Int) (d : Descriptors) : Option Descriptors :=
  let d := { (d.opened asrfd).opened ttsfd with asrfd, ttsfd }
  if asrfd < 0 ∨ ttsfd < 0 then none else some (d.watch asrfd)

/-- The loop of `InitSocket` with this many attempts left. -/
def connectLoop (w : Surroundings) : Nat → Int → Descriptors → Int × Descriptors
  | 0, connectRet, d => (connectRet, d)
  | left + 1, _, d =>
      if w.connect d.sockfd (9 - left) < 0 then connectLoop w left (-1) d
      else (0, { d.watch d.sockfd with deviceMode := .online })

def initSocket (w : Surroundings) (d : Descriptors) : Int × Descriptors :=
  connectLoop w 10 0 { d.opened w.socket with sockfd := w.socket }

/-- What `RecSocketData` does at the end of the stream. -/
def recSocketDataEnd (d : Descriptors) : Descriptors := (d.unwatch d.sockfd).close d.sockfd

/-- The branch `ret == 0` of `ReadAsrFifo`. -/
def readAsrFifoEnd (d : Descriptors) : Descriptors := (d.close d.asrfd).unwatch d.asrfd

def changeOfflineMode (d : Descriptors) : Descriptors :=
  if d.deviceMode = .offline then d
  else
    let d := { d with deviceMode := .offline }
    if 2 < d.sockfd then (d.unwatch d.sockfd).close d.sockfd else d

def changeOnlineMode (w : Surroundings) (d : Descriptors) : Descriptors :=
  if d.deviceMode = .online then d else (d.initSocket w).2

/-- `main` from `InitSocket` on. -/
def startUp (w : Surroundings) (d : Descriptors) : Descriptors :=
  let (ret, d) := d.initSocket w
  if ret < 0 then { d with deviceMode := .offline }.changeOfflineMode else d

/-! ## `MySelect` -/

/-- What `select` leaves in `TMPSET`: of the numbers below `g_maxfd + 1` the members that are ready. -/
def select (ready : Int → Bool) (d : Descriptors) : List Int :=
  d.readset.filter fun fd => 0 ≤ fd ∧ fd < d.maxfd + 1 ∧ ready fd = true

end Descriptors

/-- Whom `MySelect` lets read. -/
inductive Source
  | stdin
  | socket
  | button
  | asrFifo
  deriving DecidableEq, Repr

namespace Descriptors

def fd (d : Descriptors) : Source → Int
  | .stdin => 0
  | .socket => d.sockfd
  | .button => d.buttonFd
  | .asrFifo => d.asrfd

def mySelect (tmpset : List Int) (d : Descriptors) : Option Source :=
  if 0 ∈ tmpset then some .stdin
  else if d.sockfd ∈ tmpset then some .socket
  else if d.buttonFd ∈ tmpset then some .button
  else if d.asrfd ∈ tmpset then some .asrFifo
  else none

end Descriptors

/-! ## The program's order -/

/-- How far `main` has come. -/
inductive Stage
  | begun
  | selectReady
  | buttonReady
  | fifoReady
  | running
  deriving DecidableEq, Repr

/-- The process, by its place in `main`. -/
structure Watcher where
  stage : Stage
  fds : Descriptors

/-- A process is given the three standard descriptors, and possibly others. -/
def Watcher.begun (inherited : List Int) : Watcher :=
  ⟨.begun, ⟨[], 0, 0, 0, 0, 0, .offline, [0, 1, 2] ++ inherited⟩⟩

/-- The calls that open, watch or close a descriptor, with what the system returns in them. -/
inductive Act
  | initSelect
  | initButton (fd : Int)
  | initFifo (asrfd ttsfd : Int)
  | initSocket (w : Surroundings)
  | recSocketDataEnd
  | readAsrFifoEnd
  | changeOfflineMode
  | changeOnlineMode (w : Surroundings)

/-- A new descriptor is any number that is not open. -/
def Descriptors.Unused (d : Descriptors) (fd : Int) : Prop := fd = -1 ∨ 0 ≤ fd ∧ fd ∉ d.openFds

/-- `main` makes the first four calls in their order, and the others follow in
any, the two clean-ups also where nothing has ended. -/
inductive Step : Watcher → Act → Watcher → Prop
  | initSelect {d : Descriptors} : Step ⟨.begun, d⟩ .initSelect ⟨.selectReady, d.initSelect⟩
  | initButton {d : Descriptors} {fd : Int} : d.Unused fd →
      Step ⟨.selectReady, d⟩ (.initButton fd) ⟨.buttonReady, d.initButton fd⟩
  | initFifo {d d' : Descriptors} {asrfd ttsfd : Int} : d.Unused asrfd → (d.opened asrfd).Unused ttsfd →
      d.initFifo asrfd ttsfd = some d' → Step ⟨.buttonReady, d⟩ (.initFifo asrfd ttsfd) ⟨.fifoReady, d'⟩
  | initSocket {d : Descriptors} {w : Surroundings} : d.Unused w.socket →
      Step ⟨.fifoReady, d⟩ (.initSocket w) ⟨.running, d.startUp w⟩
  | recSocketDataEnd {d : Descriptors} : Step ⟨.running, d⟩ .recSocketDataEnd ⟨.running, d.recSocketDataEnd⟩
  | readAsrFifoEnd {d : Descriptors} : Step ⟨.running, d⟩ .readAsrFifoEnd ⟨.running, d.readAsrFifoEnd⟩
  | changeOfflineMode {d : Descriptors} :
      Step ⟨.running, d⟩ .changeOfflineMode ⟨.running, d.changeOfflineMode⟩
  | changeOnlineMode {d : Descriptors} {w : Surroundings} : d.Unused w.socket →
      Step ⟨.running, d⟩ (.changeOnlineMode w) ⟨.running, d.changeOnlineMode w⟩

/-! ## A set, its bound and its sources -/

namespace Descriptors
variable {d : Descriptors} {fd : Int} {sources : List Int}

/-- The set keeps to its bound, to what is open, and to these sources; the
standard descriptors stay open. -/
structure Sound (d : Descriptors) (sources : List Int) : Prop where
  bounded : ∀ fd ∈ d.readset, 0 ≤ fd ∧ fd ≤ d.maxfd
  isOpen : ∀ fd ∈ d.readset, fd ∈ d.openFds
  known : ∀ fd ∈ d.readset, fd ∈ sources
  standard : ∀ fd, 0 ≤ fd → fd ≤ 2 → fd ∈ d.openFds

/-- None of the standard descriptors. -/
def Above (fd : Int) : Prop := fd = -1 ∨ 2 < fd

theorem Sound.above (sound : d.Sound sources) (unused : d.Unused fd) : Above fd := by
  rcases unused with none_ | ⟨nonneg, closed⟩
  · exact .inl none_
  · refine .inr (lt_of_not_ge fun low => ?_)
    exact closed (sound.standard fd nonneg low)

theorem mem_opened (nonneg : 0 ≤ fd) : fd ∈ (d.opened fd).openFds := by
  simp only [opened]
  rw [if_neg (by omega)]
  exact List.mem_cons_self

theorem openFds_opened {other : Int} (h : other ∈ d.openFds) : other ∈ (d.opened fd).openFds := by
  simp only [opened]
  split
  · exact h
  · exact List.mem_cons_of_mem fd h

/-- Opening watches nothing. -/
theorem Sound.opened (sound : d.Sound sources) : (d.opened fd).Sound sources where
  bounded := sound.bounded
  isOpen := fun other member => openFds_opened (sound.isOpen other member)
  known := sound.known
  standard := fun other lower upper => openFds_opened (sound.standard other lower upper)

theorem Sound.more {more : List Int} (sound : d.Sound sources) (wider : ∀ fd ∈ sources, fd ∈ more) : d.Sound more :=
  { sound with known := fun fd member => wider fd (sound.known fd member) }

/-- An open descriptor is watched, and the bound is its number at least. -/
theorem Sound.watch (sound : d.Sound sources) (nonneg : 0 ≤ fd) (open_ : fd ∈ d.openFds) :
    (d.watch fd).Sound (fd :: sources) := by
  have cases_ : ∀ other ∈ (d.watch fd).readset, other = fd ∨ other ∈ d.readset :=
    fun other member => List.mem_insert_iff.mp member
  have bound : d.maxfd ≤ (d.watch fd).maxfd ∧ fd ≤ (d.watch fd).maxfd := by
    simp only [Descriptors.watch]
    split <;> omega
  constructor
  · intro other member
    rcases cases_ other member with rfl | before
    · exact ⟨nonneg, bound.2⟩
    · have := sound.bounded other before
      omega
  · intro other member
    rcases cases_ other member with rfl | before
    · exact open_
    · exact sound.isOpen other before
  · intro other member
    rcases cases_ other member with rfl | before
    · exact List.mem_cons_self
    · exact List.mem_cons_of_mem fd (sound.known other before)
  · exact sound.standard

/-- What is closed is no longer watched. One less is still a bound where it was
the greatest, whoever the number belonged to. -/
theorem Sound.drop (sound : d.Sound sources) (above : Above fd) :
    ((d.unwatch fd).close fd).Sound (sources.filter (· ≠ fd)) := by
  have kept : ∀ other ∈ ((d.unwatch fd).close fd).readset, other ∈ d.readset ∧ other ≠ fd := by
    intro other member
    have inside : other ∈ d.readset.filter (· ≠ fd) := member
    simpa using inside
  constructor
  · intro other member
    obtain ⟨before, differs⟩ := kept other member
    have old := sound.bounded other before
    simp only [Descriptors.unwatch, Descriptors.close]
    split <;> omega
  · intro other member
    obtain ⟨before, differs⟩ := kept other member
    have open_ := sound.isOpen other before
    simp only [Descriptors.unwatch, Descriptors.close]
    simpa using ⟨open_, differs⟩
  · intro other member
    obtain ⟨before, differs⟩ := kept other member
    simpa using ⟨sound.known other before, differs⟩
  · intro other lower upper
    have open_ := sound.standard other lower upper
    have differs : other ≠ fd := by
      rcases above with rfl | high
      · omega
      · omega
    simp only [Descriptors.unwatch, Descriptors.close]
    simpa using ⟨open_, differs⟩

/-! ## What the calls preserve -/

theorem Sound.initSelect (sound : d.Sound sources) (low : d.maxfd = 0) : d.initSelect.Sound [0] := by
  have zero : ∀ fd ∈ d.initSelect.readset, fd = 0 := fun fd member => List.mem_singleton.mp member
  constructor
  · intro fd member
    rw [zero fd member]
    exact ⟨le_rfl, low.ge⟩
  · intro fd member
    rw [zero fd member]
    exact sound.standard 0 le_rfl (by decide)
  · exact fun fd member => member
  · exact sound.standard

theorem Sound.initButton (sound : d.Sound [0]) (unused : d.Unused fd) : (d.initButton fd).Sound [0, fd] := by
  have opened : ({ d.opened fd with buttonFd := fd } : Descriptors).Sound [0] := { sound.opened with }
  unfold Descriptors.initButton
  dsimp only
  by_cases failed : fd = -1
  · rw [if_pos failed]
    exact opened.more (by simp)
  · rw [if_neg failed]
    have nonneg := (unused.resolve_left failed).1
    exact (opened.watch nonneg (mem_opened nonneg)).more (by simp)

theorem Sound.initFifo {d' : Descriptors} {asrfd ttsfd : Int} (sound : d.Sound sources) (unused : d.Unused asrfd)
    (done : d.initFifo asrfd ttsfd = some d') :
    d'.Sound (asrfd :: sources) ∧ 2 < d'.asrfd ∧ d'.asrfd = asrfd ∧ d'.buttonFd = d.buttonFd ∧
      d'.deviceMode = d.deviceMode := by
  unfold Descriptors.initFifo at done
  dsimp only at done
  split at done
  · cases done
  next both =>
    have opened : ({ (d.opened asrfd).opened ttsfd with asrfd, ttsfd } : Descriptors).Sound sources :=
      { sound.opened.opened with }
    have nonneg : 0 ≤ asrfd := by omega
    have high : 2 < asrfd := by
      rcases sound.above unused with none_ | high
      · omega
      · exact high
    cases done
    exact ⟨opened.watch nonneg (openFds_opened (mem_opened nonneg)), high, rfl, rfl, rfl⟩

/-- Whom `MySelect` lets read: the network only in the online mode. -/
def readers (d : Descriptors) : List Int :=
  match d.deviceMode with
  | .offline => [0, d.buttonFd, d.asrfd]
  | .online => [0, d.buttonFd, d.asrfd, d.sockfd]

/-- What start-up has come to and every later call keeps. -/
structure Running (d : Descriptors) : Prop where
  sound : d.Sound d.readers
  asr : 2 < d.asrfd
  sock : Above d.sockfd
  linked : d.deviceMode = .online → 2 < d.sockfd

theorem connectLoop_cases (w : Surroundings) (left : Nat) (connectRet : Int) (d : Descriptors) :
    (0 ≤ d.sockfd ∧ d.connectLoop w left connectRet = (0, { d.watch d.sockfd with deviceMode := .online })) ∨
      ∃ ret, d.connectLoop w left connectRet = (ret, d) := by
  induction left generalizing connectRet with
  | zero => exact .inr ⟨connectRet, rfl⟩
  | succ left ih =>
      unfold connectLoop
      by_cases refused : w.connect d.sockfd (9 - left) < 0
      · rw [if_pos refused]
        exact ih (-1)
      · rw [if_neg refused]
        refine .inl ⟨?_, rfl⟩
        unfold Surroundings.connect at refused
        split at refused
        next accepted => exact accepted.1
        · omega

/-- A new link takes the place of the old descriptor, which nobody watches offline. -/
theorem running_initSocket {w : Surroundings} (sound : d.Sound [0, d.buttonFd, d.asrfd])
    (offline : d.deviceMode = .offline) (asr : 2 < d.asrfd) (unused : d.Unused w.socket) :
    (d.initSocket w).2.Running := by
  have above := sound.above unused
  have fresh : ({ d.opened w.socket with sockfd := w.socket } : Descriptors).Sound [0, d.buttonFd, d.asrfd] :=
    { sound.opened with }
  unfold initSocket
  rcases connectLoop_cases w 10 0 { d.opened w.socket with sockfd := w.socket } with ⟨nonneg, result⟩ | ⟨ret, result⟩
  · have watched := fresh.watch nonneg (mem_opened nonneg)
    have high : 2 < w.socket := by
      rcases above with none_ | high
      · have valid : 0 ≤ w.socket := nonneg
        omega
      · exact high
    rw [result]
    refine ⟨{ watched.more ?_ with }, asr, above, fun _ => high⟩
    simp [readers, watch, Descriptors.opened]
  · rw [result]
    refine ⟨?_, asr, above, ?_⟩
    · have same : readers { d.opened w.socket with sockfd := w.socket } = [0, d.buttonFd, d.asrfd] := by
        simp only [readers, Descriptors.opened, offline]
      rw [same]
      exact fresh
    · intro online
      cases offline.symm.trans online

theorem Running.offline_readers (running : d.Running) (offline : d.deviceMode = .offline) :
    d.Sound [0, d.buttonFd, d.asrfd] := by
  have same : d.readers = [0, d.buttonFd, d.asrfd] := by rw [readers, offline]
  rw [← same]
  exact running.sound

/-- A source that goes away leaves the others. -/
theorem Running.drop (running : d.Running) (above : Above fd) : ((d.unwatch fd).close fd).Running where
  sound := (running.sound.drop above).more fun _ member => List.mem_of_mem_filter member
  asr := running.asr
  sock := running.sock
  linked := running.linked

theorem Running.changeOfflineMode (running : d.Running) : d.changeOfflineMode.Running := by
  unfold Descriptors.changeOfflineMode
  split
  · exact running
  next other =>
    have online : d.deviceMode = .online := by
      cases mode : d.deviceMode with
      | online => rfl
      | offline => exact absurd mode other
    have high := running.linked online
    dsimp only
    rw [if_pos high]
    have dropped := running.sound.drop (.inr high)
    refine ⟨?_, running.asr, running.sock, nofun⟩
    have fewer : ∀ fd ∈ d.readers.filter (· ≠ d.sockfd), fd ∈ [0, d.buttonFd, d.asrfd] := by
      intro fd member
      rw [readers, online] at member
      simp only [List.mem_filter, List.mem_cons, List.not_mem_nil, or_false, decide_eq_true_eq] at member ⊢
      omega
    exact { dropped.more fewer with }

theorem Running.changeOnlineMode {w : Surroundings} (running : d.Running) (unused : d.Unused w.socket) :
    (d.changeOnlineMode w).Running := by
  unfold Descriptors.changeOnlineMode
  split
  · exact running
  next other =>
    have offline : d.deviceMode = .offline := by
      cases mode : d.deviceMode with
      | online => exact absurd mode other
      | offline => rfl
    exact running_initSocket (running.offline_readers offline) offline running.asr unused

theorem running_startUp {w : Surroundings} (sound : d.Sound [0, d.buttonFd, d.asrfd])
    (offline : d.deviceMode = .offline) (asr : 2 < d.asrfd) (unused : d.Unused w.socket) :
    (d.startUp w).Running := by
  have running := running_initSocket sound offline asr unused
  unfold startUp
  dsimp only
  split
  next failed =>
    have stays : (d.initSocket w).2.deviceMode = .offline := by
      unfold initSocket at failed ⊢
      rcases connectLoop_cases w 10 0 { d.opened w.socket with sockfd := w.socket } with ⟨-, result⟩ | ⟨ret, result⟩
      · rw [result] at failed
        exact absurd failed (lt_irrefl _)
      · rw [result]
        exact offline
    have same : { (d.initSocket w).2 with deviceMode := .offline } = (d.initSocket w).2 := by rw [← stays]
    rw [same]
    exact running.changeOfflineMode
  · exact running

/-! ## What `select` is given and what `MySelect` makes of it -/

/-- Every member is one of the four whom a branch reads from. -/
theorem Sound.source (sound : d.Sound [0, d.buttonFd, d.asrfd, d.sockfd]) (member : fd ∈ d.readset) :
    ∃ source, d.fd source = fd := by
  have one := sound.known fd member
  simp only [List.mem_cons, List.not_mem_nil, or_false] at one
  rcases one with rfl | rfl | rfl | rfl
  · exact ⟨.stdin, rfl⟩
  · exact ⟨.button, rfl⟩
  · exact ⟨.asrFifo, rfl⟩
  · exact ⟨.socket, rfl⟩

/-- The bound leaves nobody out. -/
theorem Sound.mem_select (sound : d.Sound sources) (ready : Int → Bool) :
    fd ∈ d.select ready ↔ fd ∈ d.readset ∧ ready fd = true := by
  unfold select
  simp only [List.mem_filter, decide_eq_true_eq]
  constructor
  · exact fun ⟨member, _, _, can⟩ => ⟨member, can⟩
  · rintro ⟨member, can⟩
    obtain ⟨nonneg, most⟩ := sound.bounded fd member
    exact ⟨member, nonneg, by omega, can⟩

/-- The first branch whose descriptor is in `TMPSET` is taken, and there is one. -/
theorem mySelect_takes {tmpset : List Int} (holds : ∃ source, d.fd source ∈ tmpset) :
    ∃ source, d.mySelect tmpset = some source ∧ d.fd source ∈ tmpset := by
  unfold mySelect
  split
  next inside => exact ⟨.stdin, rfl, inside⟩
  next not0 =>
  split
  next inside => exact ⟨.socket, rfl, inside⟩
  next notSocket =>
  split
  next inside => exact ⟨.button, rfl, inside⟩
  next notButton =>
  split
  next inside => exact ⟨.asrFifo, rfl, inside⟩
  next notAsr =>
  obtain ⟨source, inside⟩ := holds
  cases source with
  | stdin => exact absurd inside not0
  | socket => exact absurd inside notSocket
  | button => exact absurd inside notButton
  | asrFifo => exact absurd inside notAsr

end Descriptors

/-! ## Any order of calls -/

/-- Before start-up is over the sources come one by one. -/
structure Descriptors.Starting (d : Descriptors) (sources : List Int) : Prop where
  sound : d.Sound sources
  offline : d.deviceMode = .offline

def Watcher.Inv (p : Watcher) : Prop :=
  match p.stage with
  | .begun => p.fds.Starting [] ∧ p.fds.maxfd = 0
  | .selectReady => p.fds.Starting [0]
  | .buttonReady => p.fds.Starting [0, p.fds.buttonFd]
  | .fifoReady => p.fds.Starting [0, p.fds.buttonFd, p.fds.asrfd] ∧ 2 < p.fds.asrfd
  | .running => p.fds.Running

theorem inv_begun (inherited : List Int) : (Watcher.begun inherited).Inv := by
  refine ⟨⟨⟨nofun, nofun, nofun, ?_⟩, rfl⟩, rfl⟩
  intro fd lower upper
  simp only [Watcher.begun, List.mem_append, List.mem_cons, List.not_mem_nil, or_false]
  omega

/-- Whatever a call does to the set, the bound and the globals, they fit together after it. -/
theorem inv_step (p : Watcher) (act : Act) (p' : Watcher) (inv : p.Inv) (step : Step p act p') : p'.Inv := by
  cases step with
  | initSelect => exact ⟨inv.1.sound.initSelect inv.2, inv.1.offline⟩
  | @initButton d fd unused =>
      have starting : d.Starting [0] := inv
      refine ⟨?_, ?_⟩
      · have button : (d.initButton fd).buttonFd = fd := by
          unfold Descriptors.initButton
          dsimp only
          split <;> rfl
        rw [button]
        exact starting.sound.initButton unused
      · unfold Descriptors.initButton
        dsimp only
        split <;> exact starting.offline
  | @initFifo d d' asrfd ttsfd unused _ done =>
      have starting : d.Starting [0, d.buttonFd] := inv
      obtain ⟨sound, high, asr, button, mode⟩ := starting.sound.initFifo unused done
      refine ⟨⟨?_, mode.trans starting.offline⟩, high⟩
      rw [asr, button]
      exact sound.more (by simp)
  | initSocket unused => exact Descriptors.running_startUp inv.1.sound inv.1.offline inv.2 unused
  | recSocketDataEnd =>
      have running : Descriptors.Running _ := inv
      exact running.drop running.sock
  | readAsrFifoEnd =>
      have running : Descriptors.Running _ := inv
      exact running.drop (.inr running.asr)
  | changeOfflineMode => exact Descriptors.Running.changeOfflineMode inv
  | changeOnlineMode unused => exact Descriptors.Running.changeOnlineMode inv unused

theorem Watcher.Inv.sound {p : Watcher} (inv : p.Inv) :
    p.fds.Sound [0, p.fds.buttonFd, p.fds.asrfd, p.fds.sockfd] := by
  obtain ⟨stage, d⟩ := p
  cases stage with
  | begun => exact inv.1.sound.more (by simp)
  | selectReady => exact (show d.Starting [0] from inv).sound.more (by simp)
  | buttonReady => exact (show d.Starting [0, d.buttonFd] from inv).sound.more (by simp)
  | fifoReady => exact inv.1.sound.more (by simp)
  | running =>
      refine (show d.Running from inv).sound.more ?_
      unfold Descriptors.readers
      split <;> simp

/-- At every time, whatever has been opened, lost and switched: a member of
`READSET` is under the bound, open, and read from by a branch of `MySelect`. -/
theorem select_watches {inherited : List Int} {acts : List Act} {p : Watcher}
    (run : Trace Step (.begun inherited) acts p) :
    (∀ fd ∈ p.fds.readset, fd ≤ p.fds.maxfd ∧ fd ∈ p.fds.openFds ∧
      (fd = 0 ∨ fd = p.fds.buttonFd ∨ fd = p.fds.asrfd ∨ fd = p.fds.sockfd)) ∧
    (∀ ready fd, fd ∈ p.fds.select ready ↔ fd ∈ p.fds.readset ∧ ready fd = true) ∧
    ∀ ready, p.fds.select ready ≠ [] →
      ∃ source, p.fds.mySelect (p.fds.select ready) = some source ∧ p.fds.fd source ∈ p.fds.select ready := by
  have sound := (run.invariant inv_step (inv_begun inherited)).sound
  refine ⟨fun fd member => ⟨(sound.bounded fd member).2, sound.isOpen fd member, ?_⟩,
    fun ready fd => sound.mem_select ready, fun ready some_ => ?_⟩
  · simpa using sound.known fd member
  · obtain ⟨fd, inside⟩ := List.exists_mem_of_ne_nil _ some_
    obtain ⟨source, rfl⟩ := sound.source ((sound.mem_select ready).mp inside).1
    exact Descriptors.mySelect_takes ⟨source, inside⟩

/-- A lost recogniser, whose number the next link is given. -/
theorem number_reused : ∃ p : Watcher, p.fds.asrfd = 4 ∧ p.fds.sockfd = 4 ∧ p.fds.maxfd = 4 ∧
    (∀ fd ∈ p.fds.readset, fd ≤ p.fds.maxfd ∧ fd ∈ p.fds.openFds ∧
      (fd = 0 ∨ fd = p.fds.buttonFd ∨ fd = p.fds.asrfd ∨ fd = p.fds.sockfd)) := by
  have run : Trace Step (.begun []) [.initSelect, .initButton 3, .initFifo 4 6, .initSocket serverOnly,
      .readAsrFifoEnd, .changeOfflineMode, .changeOnlineMode { serverOnly with socket := 4 }] _ :=
    .cons .initSelect <| .cons (.initButton (.inr (by decide))) <|
      .cons (.initFifo (.inr (by decide)) (.inr (by decide)) rfl) <| .cons (.initSocket (.inr (by decide))) <|
      .cons .readAsrFifoEnd <| .cons .changeOfflineMode <| .cons (.changeOnlineMode (.inr (by decide))) (.nil _)
  exact ⟨_, rfl, rfl, rfl, (select_watches run).1⟩

/-! ## The same calls on the station -/

/-- The descriptors of the station, and its mode. -/
structure Shows (d : Descriptors) (s : Station) : Prop where
  readset : d.readset = s.readset
  maxfd : d.maxfd = s.maxfd
  sockfd : d.sockfd = s.sockfd
  deviceMode : d.deviceMode = s.memory.deviceMode

variable {d : Descriptors} {s t : Station} (j : JsonC) (w : Surroundings)

theorem shows_connectLoop (left : Nat) (connectRet : Int) (shows_ : Shows d s) :
    (d.connectLoop w left connectRet).1 = (connectLoop w left connectRet s).1 ∧
      Shows (d.connectLoop w left connectRet).2 (connectLoop w left connectRet s).2 := by
  induction left generalizing connectRet with
  | zero => exact ⟨rfl, shows_⟩
  | succ left ih =>
      unfold Descriptors.connectLoop connectLoop
      rw [shows_.sockfd]
      by_cases refused : w.connect s.sockfd (9 - left) < 0
      · rw [if_pos refused, if_pos refused]
        exact ih (-1)
      · rw [if_neg refused, if_neg refused]
        refine ⟨rfl, ?_, ?_, ?_, rfl⟩
        · exact congrArg (List.insert s.sockfd) shows_.readset
        · simp only [Descriptors.watch, shows_.maxfd]
        · exact shows_.sockfd

theorem shows_initSocket (shows_ : Shows d s) :
    (d.initSocket w).1 = (initSocket w s).1 ∧ Shows (d.initSocket w).2 (initSocket w s).2 :=
  shows_connectLoop w 10 0 ⟨shows_.readset, shows_.maxfd, rfl, shows_.deviceMode⟩

/-- The songs of a stick leave the descriptors as they are. -/
theorem shows_loadFromUsb (shows_ : Shows d s) (offline : s.memory.deviceMode = .offline)
    (done : loadFromUsb j w s = .ok t) : Shows d t := by
  rcases (loadFromUsb_eq_ok j w offline).mp done with ⟨-, rfl⟩ | ⟨dev, l, -, -, rfl⟩
  · exact ⟨shows_.readset, shows_.maxfd, shows_.sockfd, shows_.deviceMode⟩
  · exact ⟨shows_.readset, shows_.maxfd, shows_.sockfd, shows_.deviceMode⟩

theorem shows_changeOfflineMode (shows_ : Shows d s) (done : changeOfflineMode j w s = .ok t) :
    Shows d.changeOfflineMode t := by
  unfold Descriptors.changeOfflineMode
  unfold changeOfflineMode at done
  rw [shows_.deviceMode]
  by_cases offline : s.memory.deviceMode = .offline
  · rw [if_pos offline] at done ⊢
    cases done
    exact shows_
  · rw [if_neg offline] at done ⊢
    dsimp only at done ⊢
    rw [stop_then w _ (loadFromUsb j w)] at done
    change loadFromUsb j w
      (if 2 < s.sockfd then ({ s with reporting := false }.setMode .offline).closeSocket
        else { s with reporting := false }.setMode .offline).clearFlags = _ at done
    by_cases high : 2 < s.sockfd
    · rw [if_pos high] at done
      rw [shows_.sockfd, if_pos high]
      have bound : (if d.maxfd = s.sockfd then d.maxfd - 1 else d.maxfd) =
          if s.sockfd = s.maxfd then s.maxfd - 1 else s.maxfd := by
        rw [shows_.maxfd]
        exact if_congr eq_comm rfl rfl
      refine shows_loadFromUsb j w ?_ ?_ done
      · exact ⟨congrArg (List.filter (· ≠ s.sockfd)) shows_.readset, bound, rfl, rfl⟩
      · rfl
    · rw [if_neg high] at done
      rw [shows_.sockfd, if_neg high]
      refine shows_loadFromUsb j w ?_ ?_ done
      · exact ⟨shows_.readset, shows_.maxfd, rfl, rfl⟩
      · rfl

theorem shows_changeOnlineMode (shows_ : Shows d s) (done : changeOnlineMode j w s = .ok t) :
    Shows (d.changeOnlineMode w) t := by
  unfold Descriptors.changeOnlineMode
  rw [shows_.deviceMode]
  cases mode : s.memory.deviceMode with
  | online =>
      rw [changeOnline_stays j w mode] at done
      cases done
      rw [if_pos rfl]
      exact shows_
  | offline =>
      have cleared : s.clearFlags.memory.deviceMode = .offline := mode
      rw [changeOnline_eq j w mode] at done
      obtain ⟨-, linked⟩ := shows_initSocket w
        (show Shows d s.clearFlags from ⟨shows_.readset, shows_.maxfd, shows_.sockfd, shows_.deviceMode⟩)
      rw [if_neg (by decide)]
      rcases initSocket_spec w s.clearFlags with ⟨connects, result⟩ | ⟨refused, result⟩
      · rw [result] at linked
        rcases (loadFromServer_eq_ok j w cleared).mp done with ⟨-, l, -, rfl⟩ | ⟨refused, -⟩
        · exact ⟨linked.readset, linked.maxfd, linked.sockfd, linked.deviceMode⟩
        · exact absurd connects refused
      · rw [result] at linked
        rcases (loadFromServer_eq_ok j w cleared).mp done with ⟨connects, -⟩ | ⟨-, l, -, rfl⟩
        · exact absurd connects refused
        · exact ⟨linked.readset, linked.maxfd, linked.sockfd, linked.deviceMode⟩

/-- The clean-up is what the reader does with its socket when nothing has come. -/
theorem hangUp_descriptors {sock : Socket} (readset : d.readset = sock.readset) (maxfd : d.maxfd = sock.maxfd)
    (sockfd : d.sockfd = sock.sockfd) :
    d.recSocketDataEnd.readset = sock.hangUp.readset ∧ d.recSocketDataEnd.maxfd = sock.hangUp.maxfd ∧
      d.recSocketDataEnd.sockfd ∉ d.recSocketDataEnd.openFds ∧ sock.hangUp.closed = true := by
  simp only [Descriptors.recSocketDataEnd, Descriptors.unwatch, Descriptors.close, Socket.hangUp, readset, maxfd,
    sockfd]
  simp

end MusicPlayer.Speaker.Select
