import MusicPlayer.Speaker.Processes

/-! The parent's two flags and the players at the other end of the fifo. A pause
is asked for by a toggle and noted in a flag afterwards; the handler of the alarm
may come between the two. -/
namespace MusicPlayer.Speaker
open CBytes Program Runs

variable (j : JsonC)

/-! ## The players -/

def pauseCmd : Bytes := lit "pause\n"
def quitCmd : Bytes := lit "quit\n"
def loadCmd : Bytes := lit "loadfile "

/-- What a command makes of a player that is paused or not; `none` is its end. -/
def obey (cmd : Bytes) (paused : Bool) : Option Bool :=
  if cmd = pauseCmd then some !paused
  else if cmd = quitCmd then none
  else if loadCmd <+: cmd then some false
  else some paused

/-- How things stand after the commands; a player that starts is not paused. -/
def settle (fifo : List Bytes) (paused : Bool) : Bool :=
  fifo.foldl (fun paused cmd => (obey cmd paused).getD false) paused

/-! ## The system -/

inductive Operation
  | startPlay
  | stopPlay
  | suspendPlay
  | continuePlay
  | nextPlay
  | prevPlay

def Operation.run : Operation → Memory → Code
  | .startPlay => Speaker.startPlay
  | .stopPlay => Speaker.stopPlay
  | .suspendPlay => Speaker.suspendPlay
  | .continuePlay => Speaker.continuePlay
  | .nextPlay => Speaker.nextPlay j
  | .prevPlay => Speaker.prevPlay

/-- Code about to go on, or a call that has been made and not returned yet. -/
inductive Thread
  | ready (code : Code)
  | made (op : Call) (m : Memory) (next : Memory → Code)

namespace Thread

def memory : Thread → Option Memory
  | .ready code => code.memory
  | .made _ m _ => some m

def withMemory (m : Memory) : Thread → Thread
  | .ready code => .ready (code.withMemory m)
  | .made op _ next => .made op m next

end Thread

/-- `below` is the main loop's thread while `Handle` runs; `players` tells of each
mplayer that runs whether it is paused. -/
structure Playback where
  thread : Thread
  below : Option Thread
  fifo : List Bytes
  players : List Bool

namespace Playback

def start (deviceMode : DeviceMode) (musicHead : List Bytes) : Playback :=
  ⟨.ready (.done ⟨false, false, deviceMode, musicHead⟩), none, [], []⟩

/-- Commands that no player is left to read are lost. -/
def remaining (players : List Bool) (fifo : List Bytes) : List Bytes :=
  if players = [] then [] else fifo

end Playback

inductive Tick
  | begin (o : Operation)
  | call
  | back
  | enter
  | leave
  | obey
  | quit
  | ends
  | starts

/-- `WriteFifo` waits until a player has opened the fifo. A paused track does not
end; a track process may come to play at any time. -/
inductive Ticks : Playback → Tick → Playback → Prop
  | begin (o : Operation) {s : Playback} {m : Memory} : s.below = none → s.thread = .ready (.done m) →
      Ticks s (.begin o) { s with thread := .ready (o.run j m) }
  | call {s : Playback} {m : Memory} {op : Call} {k : op.Answer → Memory → Code} (a : op.Answer) :
      s.thread = .ready (.call m op k) → (∀ cmd, op ≠ .writeFifo cmd) →
      Ticks s .call { s with thread := .made op m (k a) }
  | write {s : Playback} {m : Memory} {cmd : Bytes} {k : Unit → Memory → Code} :
      s.thread = .ready (.call m (.writeFifo cmd) k) → s.players ≠ [] →
      Ticks s .call { s with thread := .made (.writeFifo cmd) m (k ()), fifo := s.fifo ++ [cmd] }
  | back {s : Playback} {op : Call} {m : Memory} {next : Memory → Code} : s.thread = .made op m next →
      Ticks s .back { s with thread := .ready (next m) }
  | enter {s : Playback} {m : Memory} : s.below = none → s.thread.memory = some m →
      Ticks s .enter { s with thread := .ready (handle m), below := some s.thread }
  | leave {s : Playback} {m : Memory} {t : Thread} : s.thread = .ready (.done m) → s.below = some t →
      Ticks s .leave { s with thread := t.withMemory m, below := none }
  | obey {s : Playback} (pre : List Bool) {post : List Bool} {paused after : Bool} {cmd : Bytes}
      {rest : List Bytes} : s.players = pre ++ paused :: post → s.fifo = cmd :: rest →
      Speaker.obey cmd paused = some after →
      Ticks s .obey { s with players := pre ++ after :: post, fifo := rest }
  | quit {s : Playback} (pre : List Bool) {post : List Bool} {paused : Bool} {cmd : Bytes}
      {rest : List Bytes} : s.players = pre ++ paused :: post → s.fifo = cmd :: rest →
      Speaker.obey cmd paused = none →
      Ticks s .quit { s with
        players := pre ++ post
        fifo := Playback.remaining (pre ++ post) rest }
  | ends {s : Playback} (pre : List Bool) {post : List Bool} : s.players = pre ++ false :: post →
      Ticks s .ends { s with
        players := pre ++ post
        fifo := Playback.remaining (pre ++ post) s.fifo }
  | starts {s : Playback} : Ticks s .starts { s with players := s.players ++ [false] }

/-- Between operations, with every command obeyed, the flags say how the players are. -/
def Playback.Consistent (s : Playback) : Prop :=
  ∀ m, s.below = none → s.thread = .ready (.done m) → s.fifo = [] →
    (m.suspendFlag = true → m.startFlag = true) ∧ ∀ paused ∈ s.players, paused = m.suspendFlag

/-- Between the test and the flag of `SuspendPlay` and `ContinuePlay`, between the
flags of `StopPlay` and its command, and between the command and the flag of
`NextPlay` and `PrevPlay`. -/
def Thread.Unsettled : Thread → Prop
  | .ready (.call _ (.writeFifo cmd) _) => cmd = pauseCmd ∨ cmd = quitCmd
  | .made (.writeFifo cmd) _ _ => cmd ≠ quitCmd
  | _ => False

/-- `Handle` does not start while flags and commands disagree, a player ends only
with no further command in the fifo, and starts only when no other runs. -/
def InStep (s : Playback) : Tick → Prop
  | .enter => ¬ s.thread.Unsettled
  | .quit => s.fifo.length = 1
  | .ends => s.fifo = []
  | .starts => s.players = []
  | _ => True

/-! ## What the code does to the flags and the fifo -/

/-- The flags are those of a speaker whose player is, or is not, paused. -/
structure Fits (paused : Bool) (m : Memory) : Prop where
  suspend : m.suspendFlag = paused
  started : m.suspendFlag = true → m.startFlag = true

/-- With the player in this state once it has obeyed the fifo, the code keeps the
flags in step with it. -/
inductive Agrees : Bool → Code → Prop
  | done {b : Bool} {m : Memory} : Fits b m → Agrees b (.done m)
  | fail {b : Bool} (e : Fault) : Agrees b (.fail e)
  | call {b : Bool} {m : Memory} {op : Call} {k : op.Answer → Memory → Code} :
      (∀ cmd, op ≠ .writeFifo cmd) → Fits b m → (∀ a b m, Fits b m → Agrees b (k a m)) →
      Agrees b (.call m op k)
  | pause {b : Bool} {m : Memory} {k : Unit → Memory → Code} : Agrees (!b) (k () m) →
      Agrees b (.call m (.writeFifo pauseCmd) k)
  | quit {b : Bool} {m : Memory} {k : Unit → Memory → Code} : m.suspendFlag = false →
      (∀ b m, Fits b m → Agrees b (k () m)) → Agrees b (.call m (.writeFifo quitCmd) k)
  | load {b : Bool} {m : Memory} {name : Bytes} {k : Unit → Memory → Code} : Fits b m →
      (∀ b m, Fits b m → Agrees false (k () m)) → Agrees b (.call m (.writeFifo (loadCmd ++ name)) k)

theorem Agrees.andThen {b : Bool} {p : Code} {f : Memory → Code} (first : Agrees b p)
    (second : ∀ b m, Fits b m → Agrees b (f m)) : Agrees b (p.andThen f) := by
  induction first with
  | done fits => exact second _ _ fits
  | fail e => exact .fail e
  | call other fits _ ih => exact .call other fits ih
  | pause _ ih => exact .pause ih
  | quit clear _ ih => exact .quit clear ih
  | load fits _ ih => exact .load fits ih

theorem Agrees.check {b : Bool} {α : Type} {x : Except Fault α} {f : α → Code} (h : ∀ a, Agrees b (f a)) :
    Agrees b (Program.check x f) := by
  cases x with
  | ok a => exact h a
  | error e => exact .fail e

theorem sendMusicInfo_agrees (obj : Json) {b : Bool} {s : Memory} (fits : Fits b s) :
    Agrees b (sendMusicInfo j obj s) := by
  unfold sendMusicInfo
  split
  · apply Agrees.check
    intro bytes
    exact .call nofun fits fun _ _ _ fits => .done fits
  · exact .done fits

theorem linkMusicList_flags {text : Bytes} {s t : Memory} (h : linkMusicList j text s = .ok t) :
    t.startFlag = s.startFlag ∧ t.suspendFlag = s.suspendFlag := by
  unfold linkMusicList at h
  split at h
  · cases h
    exact ⟨rfl, rfl⟩
  · split at h
    · cases h
    · split at h
      · cases h
        exact ⟨rfl, rfl⟩
      · split at h
        · obtain ⟨names, -, h⟩ := Except.bind_eq_ok.mp h
          obtain ⟨musicHead, -, h⟩ := Except.bind_eq_ok.mp h
          cases h
          exact ⟨rfl, rfl⟩
        · cases h

theorem getMusicName_agrees (singer : Bytes) {b : Bool} {s : Memory} (fits : Fits b s) :
    Agrees b (getMusicName j singer s) := by
  have cleared : Fits b (clearMusicList s) := ⟨fits.suspend, fits.started⟩
  unfold getMusicName
  dsimp only
  split
  · refine (sendMusicInfo_agrees j _ cleared).andThen fun b s fits => ?_
    refine .call nofun fits fun text b s fits => ?_
    cases linked : linkMusicList j text s with
    | error e => exact .fail e
    | ok t =>
        obtain ⟨started, suspended⟩ := linkMusicList_flags j linked
        refine sendMusicInfo_agrees j _ ⟨suspended.trans fits.suspend, ?_⟩
        rw [started, suspended]
        exact fits.started
  · refine .call nofun cleared fun singerDir b s fits => ?_
    split
    · exact .fail _
    · split
      · exact .fail _
      · apply Agrees.check
        intro path
        refine .call nofun fits fun musicDir b s fits => ?_
        split
        · exact .fail _
        · apply Agrees.check
          intro names
          apply Agrees.check
          intro musicHead
          exact .done ⟨fits.suspend, fits.started⟩

theorem continuePlay_agrees {b : Bool} {s : Memory} (fits : Fits b s) : Agrees b (continuePlay s) := by
  unfold continuePlay
  split
  · rename_i suspended
    refine .pause (.done ⟨?_, nofun⟩)
    rw [← fits.suspend, suspended]
    rfl
  · exact .done fits

theorem suspendPlay_agrees {b : Bool} {s : Memory} (fits : Fits b s) : Agrees b (suspendPlay s) := by
  unfold suspendPlay
  split
  · rename_i playing
    obtain ⟨started, running⟩ := Bool.and_eq_true_iff.mp playing
    refine .pause (.done ⟨?_, fun _ => started⟩)
    rw [← fits.suspend]
    exact running.symm
  · exact .done fits

theorem startPlay_agrees {b : Bool} {s : Memory} (fits : Fits b s) : Agrees b (startPlay s) := by
  unfold startPlay
  split
  · exact continuePlay_agrees fits
  · split
    · exact .done fits
    · refine .call nofun fits fun _ b s fits => ?_
      split
      · exact .fail _
      · apply Agrees.check
        intro musicName
        exact .call nofun ⟨fits.suspend, fun _ => rfl⟩ fun _ _ _ fits => .done fits

theorem stopPlay_agrees {b : Bool} {s : Memory} (fits : Fits b s) : Agrees b (stopPlay s) := by
  unfold stopPlay
  split
  · refine .call nofun fits fun curInfo b s fits => ?_
    refine .call nofun fits fun _ b s fits => ?_
    refine .quit rfl fun b s fits => ?_
    exact .call nofun fits fun _ _ _ fits => .done fits
  · exact .done fits

theorem loadTrack_agrees (curInfo : Shm) (name : Bytes) {b : Bool} {s : Memory} (fits : Fits b s) :
    Agrees b (loadTrack curInfo name s) := by
  unfold loadTrack
  apply Agrees.check
  intro stored
  refine .call nofun fits fun _ b s fits => ?_
  refine .call nofun fits fun _ b s fits => ?_
  apply Agrees.check
  intro path
  rw [List.append_assoc]
  exact .load fits fun _ _ _ => .done ⟨rfl, nofun⟩

theorem reload_agrees (curInfo : Shm) {b : Bool} {s : Memory} (fits : Fits b s) :
    Agrees b (reload j curInfo s) := by
  refine (stopPlay_agrees fits).andThen fun b s fits => ?_
  have cleared : Fits b (clearMusicList s) := ⟨fits.suspend, fits.started⟩
  exact (getMusicName_agrees j _ cleared).andThen fun b s fits => startPlay_agrees fits

theorem nextPlay_agrees {b : Bool} {s : Memory} (fits : Fits b s) : Agrees b (nextPlay j s) := by
  unfold nextPlay
  split
  · refine .call nofun fits fun _ b s fits => ?_
    refine .call nofun fits fun curInfo b s fits => ?_
    apply Agrees.check
    intro next
    cases next with
    | none => exact reload_agrees j curInfo fits
    | some name => exact loadTrack_agrees curInfo name fits
  · exact .done fits

theorem prevPlay_agrees {b : Bool} {s : Memory} (fits : Fits b s) : Agrees b (prevPlay s) := by
  unfold prevPlay
  split
  · refine .call nofun fits fun _ b s fits => ?_
    refine .call nofun fits fun curInfo b s fits => ?_
    apply Agrees.check
    exact fun name => loadTrack_agrees curInfo name fits
  · exact .done fits

theorem operation_agrees (o : Operation) {b : Bool} {s : Memory} (fits : Fits b s) : Agrees b (o.run j s) := by
  cases o with
  | startPlay => exact startPlay_agrees fits
  | stopPlay => exact stopPlay_agrees fits
  | suspendPlay => exact suspendPlay_agrees fits
  | continuePlay => exact continuePlay_agrees fits
  | nextPlay => exact nextPlay_agrees j fits
  | prevPlay => exact prevPlay_agrees fits

theorem handle_agrees {b : Bool} {s : Memory} (fits : Fits b s) : Agrees b (handle s) := by
  unfold handle
  split
  · exact startPlay_agrees fits
  · split
    · exact suspendPlay_agrees fits
    · exact continuePlay_agrees fits

/-! ## Runs in step -/

/-- A thread that keeps the flags in step from here. -/
inductive Steady : Bool → Thread → Prop
  | ready {b : Bool} {code : Code} : Agrees b code → Steady b (.ready code)
  | made {b : Bool} {op : Call} {m : Memory} {next : Memory → Code} : Fits b m →
      (∀ b m, Fits b m → Agrees b (next m)) → Steady b (.made op m next)
  | owing {b : Bool} {op : Call} {m : Memory} {next : Memory → Code} : (Thread.made op m next).Unsettled →
      Agrees b (next m) → Steady b (.made op m next)

/-- What the player will be like once it has obeyed the fifo. -/
def Playback.settled (s : Playback) : Bool := settle s.fifo (s.players.headD false)

structure Aligned (s : Playback) : Prop where
  one : s.players.length ≤ 1
  lost : s.players = [] → s.fifo = []
  thread : Steady s.settled s.thread
  below : ∀ t, s.below = some t → ∀ b m, Fits b m → Steady b (t.withMemory m)

theorem aligned_start (deviceMode : DeviceMode) (musicHead : List Bytes) :
    Aligned (Playback.start deviceMode musicHead) where
  one := Nat.zero_le 1
  lost := fun _ => rfl
  thread := .ready (.done ⟨rfl, nofun⟩)
  below := nofun

theorem Aligned.consistent {s : Playback} (h : Aligned s) : s.Consistent := by
  intro m _ thread empty
  have steady := h.thread
  rw [thread] at steady
  cases steady with
  | ready agrees =>
      cases agrees with
      | done fits =>
          refine ⟨fits.started, fun paused member => ?_⟩
          have suspend := fits.suspend
          rw [Playback.settled, empty] at suspend
          have one := h.one
          cases players : s.players with
          | nil =>
              rw [players] at member
              cases member
          | cons first rest =>
              rw [players] at member suspend one
              have none_ : rest = [] := List.length_eq_zero_iff.mp (Nat.le_zero.mp (Nat.le_of_succ_le_succ one))
              subst none_
              rw [List.mem_singleton.mp member]
              exact suspend.symm

theorem settle_append (fifo : List Bytes) (cmd : Bytes) (paused : Bool) :
    settle (fifo ++ [cmd]) paused = (obey cmd (settle fifo paused)).getD false := List.foldl_append

theorem obey_pause (paused : Bool) : obey pauseCmd paused = some !paused := rfl

theorem obey_quit (paused : Bool) : obey quitCmd paused = none := by
  rw [obey, if_neg (by decide), if_pos rfl]

theorem obey_load (name : Bytes) (paused : Bool) : obey (loadCmd ++ name) paused = some false := by
  have other : ∀ cmd : Bytes, cmd.head? ≠ loadCmd.head? → loadCmd ++ name ≠ cmd := by
    intro cmd differs same
    rw [← same] at differs
    exact differs rfl
  rw [obey, if_neg (other _ (by decide)), if_neg (other _ (by decide)), if_pos (List.prefix_append ..)]

theorem load_not_quit (name : Bytes) : loadCmd ++ name ≠ quitCmd := by
  intro same
  have loads := obey_load name false
  rw [same, obey_quit] at loads
  cases loads

/-- The thread of the main loop may be given back any memory that fits, unless
flags and commands disagree. -/
theorem Steady.interrupted {b : Bool} {t : Thread} (h : Steady b t) (settled : ¬ t.Unsettled) {m : Memory}
    (memory : t.memory = some m) : Fits b m ∧ ∀ b m, Fits b m → Steady b (t.withMemory m) := by
  cases h with
  | ready agrees =>
      cases agrees with
      | done fits =>
          cases memory
          exact ⟨fits, fun b m fits => .ready (.done fits)⟩
      | fail e => cases memory
      | call other fits rest =>
          cases memory
          exact ⟨fits, fun b m fits => .ready (.call other fits rest)⟩
      | pause _ => exact absurd (.inl rfl) settled
      | quit _ _ => exact absurd (.inr rfl) settled
      | load fits rest =>
          cases memory
          exact ⟨fits, fun b m fits => .ready (.load fits rest)⟩
  | made fits rest =>
      cases memory
      exact ⟨fits, fun b m fits => .made fits rest⟩
  | owing unsettled _ => exact absurd unsettled settled

theorem Steady.calls {b : Bool} {m : Memory} {op : Call} {k : op.Answer → Memory → Code}
    (h : Steady b (.ready (.call m op k))) (other : ∀ cmd, op ≠ .writeFifo cmd) (a : op.Answer) :
    Steady b (.made op m (k a)) := by
  cases h with
  | ready agrees =>
      cases agrees with
      | call _ fits rest => exact .made fits (rest a)
      | pause _ => exact absurd rfl (other _)
      | quit _ _ => exact absurd rfl (other _)
      | load _ _ => exact absurd rfl (other _)

/-- A command put in the fifo is what the code takes it to be. -/
theorem Steady.writes {b : Bool} {m : Memory} {cmd : Bytes} {k : Unit → Memory → Code}
    (h : Steady b (.ready (.call m (.writeFifo cmd) k))) :
    Steady ((obey cmd b).getD false) (.made (.writeFifo cmd) m (k ())) := by
  cases h with
  | ready agrees =>
      cases agrees with
      | call other _ _ => exact absurd rfl (other _)
      | pause agrees =>
          refine .owing ?_ agrees
          change pauseCmd ≠ quitCmd
          decide
      | quit clear rest =>
          rw [obey_quit]
          refine .made ⟨clear, fun suspended => ?_⟩ rest
          rw [clear] at suspended
          cases suspended
      | load fits rest =>
          rw [obey_load]
          exact .owing (load_not_quit _) (rest _ _ fits)

/-- The one player, and what is in the fifo for it. -/
theorem Aligned.player {s : Playback} (h : Aligned s) {pre post : List Bool} {paused : Bool}
    (split : s.players = pre ++ paused :: post) : pre = [] ∧ post = [] := by
  have one := h.one
  rw [split, List.length_append, List.length_cons] at one
  exact ⟨List.length_eq_zero_iff.mp (by omega), List.length_eq_zero_iff.mp (by omega)⟩

theorem aligned_step {s t : Playback} {i : Tick} (h : Aligned s) (one : guarded InStep (Ticks j) s i t) :
    Aligned t := by
  obtain ⟨inStep, moved⟩ := one
  have steady := h.thread
  cases moved with
  | begin o none_ idle =>
      rw [idle] at steady
      refine ⟨h.one, h.lost, ?_, h.below⟩
      cases steady with
      | ready agrees =>
          cases agrees with
          | done fits => exact .ready (operation_agrees j o fits)
  | call a code other =>
      rw [code] at steady
      exact ⟨h.one, h.lost, steady.calls other a, h.below⟩
  | @write _ m cmd k code reader =>
      rw [code] at steady
      refine ⟨h.one, fun none_ => absurd none_ reader, ?_, h.below⟩
      rw [Playback.settled, settle_append]
      exact steady.writes
  | back made =>
      rw [made] at steady
      refine ⟨h.one, h.lost, ?_, h.below⟩
      cases steady with
      | made fits rest => exact .ready (rest _ _ fits)
      | owing _ agrees => exact .ready agrees
  | enter none_ memory =>
      obtain ⟨fits, resumes⟩ := steady.interrupted inStep memory
      refine ⟨h.one, h.lost, .ready (handle_agrees fits), ?_⟩
      intro t same
      cases same
      exact resumes
  | leave idle below =>
      rw [idle] at steady
      refine ⟨h.one, h.lost, ?_, nofun⟩
      cases steady with
      | ready agrees =>
          cases agrees with
          | done fits => exact h.below _ below _ _ fits
  | obey pre split head obeyed =>
      obtain ⟨rfl, rfl⟩ := h.player split
      refine ⟨le_refl 1, nofun, ?_, h.below⟩
      rw [Playback.settled, split, head] at steady
      simpa [Playback.settled, settle, obeyed] using steady
  | @quit _ pre post paused cmd rest split head obeyed =>
      obtain ⟨rfl, rfl⟩ := h.player split
      have last : rest = [] := by
        have one : s.fifo.length = 1 := inStep
        rw [head] at one
        exact List.length_eq_zero_iff.mp (Nat.succ.inj one)
      refine ⟨Nat.zero_le 1, fun _ => rfl, ?_, h.below⟩
      rw [Playback.settled, split, head, last] at steady
      simpa [Playback.settled, settle, obeyed, Playback.remaining] using steady
  | ends pre split =>
      obtain ⟨rfl, rfl⟩ := h.player split
      refine ⟨Nat.zero_le 1, fun _ => rfl, ?_, h.below⟩
      rw [Playback.settled, split, inStep] at steady
      exact steady
  | starts =>
      have alone : s.players = [] := inStep
      refine ⟨?_, fun none_ => absurd none_ (by simp), ?_, h.below⟩
      · change (s.players ++ [false]).length ≤ 1
        rw [alone]
        exact le_refl 1
      · change Steady (settle s.fifo ((s.players ++ [false]).headD false)) s.thread
        rw [Playback.settled, alone] at steady
        rw [alone]
        exact steady

/-- Over every run in step, flags and players agree whenever nothing is under way. -/
theorem flags_agree {deviceMode : DeviceMode} {musicHead : List Bytes} {s : Playback}
    (run : Reachable (guarded InStep (Ticks j)) (Playback.start deviceMode musicHead) s) : s.Consistent := by
  have aligned : Aligned s :=
    run.invariant (aligned_start deviceMode musicHead) fun _ _ _ h one => aligned_step j h one
  exact aligned.consistent

/-- The one track of the list is started, and its player plays. -/
theorem oneTrack_plays : Reachable (guarded InStep (Ticks j)) (Playback.start .offline [lit "a/b.mp3"])
    ⟨.ready (.done (oneTrack true)), none, [], [false]⟩ := by
  obtain ⟨k, signal, next⟩ := oneTrack_starts
  have begun : Reachable (guarded InStep (Ticks j)) (Playback.start .offline [lit "a/b.mp3"]) _ :=
    (Reachable.refl _).tail (i := Tick.begin .startPlay) ⟨trivial, .begin .startPlay rfl rfl⟩
  have called := begun.tail (i := Tick.call)
    ⟨trivial, .call () (congrArg Thread.ready signal) nofun⟩
  have returned := called.tail (i := Tick.back) ⟨trivial, .back rfl⟩
  rw [next] at returned
  have forked := returned.tail (i := Tick.call) ⟨trivial, .call () rfl nofun⟩
  have done := forked.tail (i := Tick.back) ⟨trivial, .back rfl⟩
  exact done.tail (i := Tick.starts) ⟨rfl, .starts⟩

/-- The alarm goes off between the command of `SuspendPlay` and its flag. -/
theorem handle_pauses_twice :
    ¬ ∀ (j : JsonC) (deviceMode : DeviceMode) (musicHead : List Bytes) (s : Playback),
      Reachable (Ticks j) (Playback.start deviceMode musicHead) s → s.Consistent := by
  intro always
  let j : JsonC := ⟨.little, fun _ => none, fun _ => []⟩
  have playing := (oneTrack_plays j).unguarded
  have suspending := playing.tail (i := Tick.begin .suspendPlay) (.begin .suspendPlay rfl rfl)
  have asked := suspending.tail (i := Tick.call) (.write rfl (List.cons_ne_nil _ _))
  have alarm := asked.tail (i := Tick.enter) (.enter rfl rfl)
  have again := alarm.tail (i := Tick.call) (.write rfl (List.cons_ne_nil _ _))
  have noted := again.tail (i := Tick.back) (.back rfl)
  have left_ := noted.tail (i := Tick.leave) (.leave rfl rfl)
  have suspended := left_.tail (i := Tick.back) (.back rfl)
  have paused := suspended.tail (i := Tick.obey) (.obey [] rfl rfl (obey_pause false))
  have resumed := paused.tail (i := Tick.obey) (.obey [] rfl rfl (obey_pause true))
  have consistent := always _ _ _ _ resumed _ rfl rfl rfl
  cases consistent.2 false List.mem_cons_self

theorem suspend_then_paused :
    ∃ s : Playback, s.thread = .ready (.done { oneTrack true with suspendFlag := true }) ∧
      s.players = [true] ∧ s.fifo = [] ∧ s.Consistent := by
  let j : JsonC := ⟨.little, fun _ => none, fun _ => []⟩
  have suspending := (oneTrack_plays j).tail (i := Tick.begin .suspendPlay) ⟨trivial, .begin .suspendPlay rfl rfl⟩
  have asked := suspending.tail (i := Tick.call) ⟨trivial, .write rfl (List.cons_ne_nil _ _)⟩
  have suspended := asked.tail (i := Tick.back) ⟨trivial, .back rfl⟩
  have paused := suspended.tail (i := Tick.obey) ⟨trivial, .obey [] rfl rfl (obey_pause false)⟩
  exact ⟨_, rfl, rfl, rfl, flags_agree j paused⟩

end MusicPlayer.Speaker
