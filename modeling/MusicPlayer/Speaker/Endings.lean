import MusicPlayer.Speaker.Playthrough

/-! The end of a play: whom a track process signals, and what becomes of the
child, which takes the signal only where it was not forked in a handler of it. -/
namespace MusicPlayer.Speaker.Unattended
open CBytes Runs

/-! ## What is known of a play -/

/-- What a track process knows of its child and of the parent. -/
def Knows (parent child : Int) (c k : Nat) (x : Track) : Prop :=
  (x.phase.Live → x.parent = c) ∧
    match x.phase with
    | .read curInfo => curInfo.parentPid = parent ∧ (k ≠ 0 → curInfo.childPid = child)
    | .placed curInfo _ => curInfo.parentPid = parent ∧ curInfo.childPid = child
    | .stored pid => pid = child
    | .playing pid => pid = child
    | .leaving pid => pid = child
    | _ => True

/-- A play, with the pids that the record and its track process hold. -/
structure Play (p : Album) (c k : Nat) (s : Sys) : Prop where
  on : p.On c k s
  world : World s
  there : (s.child c).phase.Present
  parent : s.pid ≠ 0
  apart : (s.child c).pid ≠ s.pid
  record : s.shm.parentPid = s.pid
  current : k ≠ 0 → s.shm.childPid = (s.child c).pid
  waits : ∀ t, (s.track t).phase.Live → (s.child c).phase = .waiting t
  knows : ∀ t, Knows s.pid (s.child c).pid c k (s.track t)

variable {p : Album} {c k : Nat} {s t : Sys}

theorem knows_dead {parent child : Int} {x : Track} (dead : ¬ x.phase.Live) : Knows parent child c k x := by
  refine ⟨fun live => absurd live dead, ?_⟩
  cases phase : x.phase with
  | absent => trivial
  | ended => trivial
  | _ =>
      rw [phase] at dead
      exact absurd trivial dead

theorem Play.pid_ne_zero (h : Play p c k s) : (s.child c).pid ≠ 0 := h.world.nonzero c h.there

/-- A step of the child leaves the parent and the record alone. -/
theorem child_leaves {d : Nat} {e : ChildStep} (one : ChildSteps s d e t) :
    t.pid = s.pid ∧ t.pending = s.pending ∧ t.shm = s.shm := by
  cases one <;> exact ⟨rfl, rfl, rfl⟩

theorem setCurrent_parentPid {curInfo placed : Shm} {name : Bytes} (h : setCurrent curInfo name = .ok placed) :
    placed.parentPid = curInfo.parentPid := by
  obtain ⟨⟨singer, track⟩, -, h⟩ := Except.bind_eq_ok.mp h
  obtain ⟨curSigner, -, h⟩ := Except.bind_eq_ok.mp h
  obtain ⟨curMusic, -, h⟩ := Except.bind_eq_ok.mp h
  rw [← Except.ok.inj h]

/-- A step of the track process that is running. -/
theorem Play.move {k' n : Nat} {y : Track} (h : Play p c k s) (on : p.On c k' t) (world : World t)
    (live : (s.track n).phase.Live) (pid : t.pid = s.pid)
    (children : ∃ pending, t.child c = { s.child c with pending := pending }) (record : t.shm.parentPid = s.pid)
    (current : k' ≠ 0 → t.shm.childPid = (s.child c).pid) (track : t.track = Function.update s.track n y)
    (knows : Knows s.pid (s.child c).pid c k' y) : Play p c k' t := by
  obtain ⟨pending, child⟩ := children
  have dead : ∀ u, u ≠ n → ¬ (t.track u).phase.Live := by
    intro u other alive
    rw [track, Function.update_of_ne other] at alive
    exact other (h.on.single u n alive live)
  refine ⟨on, world, ?_, pid ▸ h.parent, ?_, record.trans pid.symm, ?_, fun u alive => ?_, fun u => ?_⟩
  · rw [child]
    exact h.there
  · rw [child, pid]
    exact h.apart
  · rw [child]
    exact current
  · by_cases same : u = n
    · rw [child, same]
      exact h.waits n live
    · exact absurd alive (dead u same)
  · rw [pid, child]
    by_cases same : u = n
    · rw [same, track, Function.update_self]
      exact knows
    · exact knows_dead (dead u same)

/-- After `k` songs no other follows. -/
def Ended (p : Album) (k : Nat) : Prop := p.song k = none ∧ k ≠ 0

/-- What a step leaves of a play: it has stored nothing, or the song that is due. -/
def Goes (p : Album) (c k : Nat) (file : Option Bytes) (t : Sys) : Prop :=
  (file = none ∧ Play p c k t) ∨ ∃ song, file = some song ∧ p.song k = some song ∧ Play p c (k + 1) t

/-- What a step of a track process tells the parent and the child. -/
inductive Reports (p : Album) (c k n : Nat) (s : Sys) (file : Option Bytes) (t : Sys) : Prop
  | nobody : t.child c = s.child c → t.pending = s.pending → (∀ pid, (t.track n).phase ≠ .leaving pid) →
      Goes p c k file t → Reports p c k n s file t
  | parent {pid : Int} : t.child c = s.child c → t.pending = true → (t.track n).phase = .leaving pid →
      Ended p k → file = none → Play p c k t → Reports p c k n s file t
  | child : t.child c = { s.child c with pending := true } → t.pending = s.pending → (t.track n).phase = .ended →
      file = none → Play p c k t → Reports p c k n s file t

/-- A signal to the child alone. -/
theorem Play.signal_child (h : Play p c k s) :
    (s.signal (s.child c).pid).child c = { s.child c with pending := true } ∧
      (s.signal (s.child c).pid).pending = s.pending := by
  have some_ := h.pid_ne_zero
  have apart := h.apart
  exact ⟨by simp [Sys.signal], by simp [Sys.signal, some_, apart]⟩

/-- A signal to the parent alone. -/
theorem Play.signal_parent (h : Play p c k s) :
    (s.signal s.pid).child c = s.child c ∧ (s.signal s.pid).pending = true := by
  have some_ := h.parent
  have apart := h.apart.symm
  exact ⟨by simp [Sys.signal, some_, apart], by simp [Sys.signal]⟩

/-- The child of a running track process waits for it. -/
theorem Play.parentPid {n : Nat} (h : Play p c k s) (live : (s.track n).phase.Live) :
    s.parentPid n = (s.child c).pid := by
  rw [Sys.parentPid, (h.knows n).1 live, h.waits n live]

theorem Play.track {n : Nat} (h : Play p c k s) (one : TrackSteps s n t)
    (whole : (t.track n).phase = .ended → (s.track n).phase.Over) :
    Reports p c k n s (s.track n).phase.stores t := by
  have live := track_running one
  have on := h.on.track one whole
  have world := track_world h.world one
  obtain ⟨own, knows⟩ := h.knows n
  have own := own live
  have flies := h.on.tracks n
  have quiet : ∃ pending, s.child c = { s.child c with pending := pending } := ⟨_, rfl⟩
  have dead : ¬ TrackPhase.ended.Live := id
  have silent : ∀ {q}, (s.track n).phase = q → q.stores = none → (s.track n).phase.stores = none ∧ p.On c k t := by
    rintro q rfl silent
    rcases on with on | ⟨file, stores, -⟩
    · exact on
    · cases silent.symm.trans stores
  cases one with
  | semP phase _ =>
      obtain ⟨none_, on⟩ := silent phase rfl
      exact .nobody rfl rfl (fun pid => by simp)
        (.inl ⟨none_, h.move on world live rfl quiet h.record h.current rfl ⟨fun _ => own, trivial⟩⟩)
  | getShm phase =>
      obtain ⟨none_, on⟩ := silent phase rfl
      exact .nobody rfl rfl (fun pid => by simp)
        (.inl ⟨none_, h.move on world live rfl quiet h.record h.current rfl ⟨fun _ => own, h.record, h.current⟩⟩)
  | @finish curInfo phase last =>
      obtain ⟨none_, on⟩ := silent phase rfl
      rw [phase] at knows
      rw [Album.Flies, phase] at flies
      have ended : Ended p k := by
        rcases flies.2.1.trackName with ⟨ended, started, -⟩ | ⟨_, _, -, some_, -⟩
        · exact ⟨ended, started⟩
        · rw [flies.1] at last
          cases last.symm.trans some_
      have told := h.signal_parent
      rw [← knows.1] at told
      have leaving := congrArg Track.phase
        (setTrack_self (s.signal curInfo.parentPid) n { s.track n with phase := .leaving curInfo.childPid })
      exact .parent told.1 told.2 leaving ended none_
        (h.move on world live rfl ⟨_, told.1⟩ h.record h.current rfl ⟨fun _ => own, knows.2 ended.2⟩)
  | leave phase =>
      obtain ⟨none_, on⟩ := silent phase rfl
      rw [phase] at knows
      have told := h.signal_child
      cases knows
      exact .child told.1 told.2 (by simp) none_
        (h.move on world live rfl ⟨_, told.1⟩ h.record h.current rfl (knows_dead dead))
  | place phase chosen set =>
      obtain ⟨none_, on⟩ := silent phase rfl
      rw [phase] at knows
      have pids := (setCurrent_childPid set).trans (h.parentPid live)
      exact .nobody rfl rfl (fun pid => by simp) (.inl ⟨none_,
        h.move on world live rfl quiet h.record h.current rfl
          ⟨fun _ => own, (setCurrent_parentPid set).trans knows.1, pids⟩⟩)
  | setShm phase =>
      rw [phase] at knows
      refine .nobody rfl rfl (fun pid => by simp) (.inr ?_)
      rcases on with ⟨none_, -⟩ | ⟨file, stores, due, on⟩
      · rw [phase] at none_
        cases none_
      · exact ⟨file, stores, due, h.move on world live rfl quiet knows.1 (fun _ => knows.2) rfl ⟨fun _ => own, knows.2⟩⟩
  | semV phase =>
      obtain ⟨none_, on⟩ := silent phase rfl
      rw [phase] at knows
      exact .nobody rfl rfl (fun pid => by simp)
        (.inl ⟨none_, h.move on world live rfl quiet h.record h.current rfl ⟨fun _ => own, knows⟩⟩)
  | execFails phase =>
      obtain ⟨none_, on⟩ := silent phase rfl
      rw [phase] at knows
      have told := h.signal_child
      cases knows
      exact .child told.1 told.2 (by simp) none_
        (h.move on world live rfl ⟨_, told.1⟩ h.record h.current rfl (knows_dead dead))
  | dies _ =>
      have ended := whole (congrArg Track.phase (setTrack_self s n _))
      have idle : (s.track n).phase.stores = none := by
        cases phase : (s.track n).phase with
        | placed curInfo own =>
            rw [phase] at ended
            exact ended.elim
        | _ => rfl
      obtain ⟨none_, on⟩ := silent rfl idle
      exact .nobody rfl rfl (fun pid => by simp)
        (.inl ⟨none_, h.move on world live rfl quiet h.record h.current rfl (knows_dead dead)⟩)

/-! ## The child of the second play -/

/-- A child that was forked in the handler of `SIGUSR1`, and so never takes that signal. -/
structure Deaf (c : Nat) (s : Sys) : Prop where
  blocked : (s.child c).blocked = true
  starts : (s.child c).memory.startFlag = true
  runs : ¬ (s.child c).phase.Gone

theorem Play.turn {e : ChildStep} (h : Play p c k s) (one : ChildSteps s c e t)
    (waits : ∀ u, (t.track u).phase.Live → (t.child c).phase = .waiting u)
    (knows : ∀ u, Knows s.pid (s.child c).pid c k (t.track u)) : Play p c k t := by
  have beside := child_beside one
  have same := (beside.children c).pid
  obtain ⟨parent, -, shm⟩ := child_leaves one
  refine ⟨h.on.child one, child_world h.world one, beside.present c h.there, parent ▸ h.parent, ?_, ?_, ?_, waits, ?_⟩
  · rw [same, parent]
    exact h.apart
  · rw [shm, parent]
    exact h.record
  · rw [shm, same]
    exact h.current
  · rw [parent, same]
    exact knows

/-- What the child does next where no signal comes through. -/
theorem Play.child_goes {e : ChildStep} (h : Play p c k s) (one : ChildSteps s c e t)
    (forks : e = .fork → (t.child c).phase ≠ .exited) (starts : (s.child c).memory.startFlag = true)
    (calm : ¬ (s.child c).Signalled) :
    (∃ phase musicName, t.child c = { s.child c with phase := phase, musicName := musicName } ∧ ¬ phase.Gone) ∧
      (∀ n pid, (t.track n).phase = .leaving pid → (s.track n).phase = .leaving pid) ∧ Play p c k t := by
  have alone : ∀ phase, (s.child c).phase = phase → (∀ n, phase ≠ .waiting n) → ∀ u, ¬ (s.track u).phase.Live := by
    rintro phase rfl free u live
    exact free u (h.waits u live)
  have play := h.turn one
  cases one with
  | install phase =>
      refine ⟨⟨_, _, setChild_self s c _, id⟩, fun n pid => id, play (fun u live => ?_) h.knows⟩
      exact absurd live (alone _ phase (by simp) u)
  | goOn phase _ =>
      refine ⟨⟨_, _, setChild_self s c _, id⟩, fun n pid => id, play (fun u live => ?_) h.knows⟩
      exact absurd live (alone _ phase (by simp) u)
  | exit _ stopped => exact absurd (starts.symm.trans stopped) (by decide)
  | @fork pid n phase fresh absent =>
      have dead := alone _ phase (by simp)
      have only : ∀ {y : Track} {u}, u ≠ n → ¬ ((s.setTrack n y).track u).phase.Live := by
        intro y u other live
        rw [setTrack_other s other] at live
        exact dead u live
      refine ⟨⟨_, _, setChild_self _ c _, id⟩, fun u pid leaving => ?_, play (fun u live => ?_) fun u => ?_⟩
      · by_cases same : u = n
        · rw [same] at leaving
          cases (congrArg Track.phase (setTrack_self s n _)).symm.trans leaving
        · exact (congrArg Track.phase (setTrack_other s same _)).symm.trans leaving
      · by_cases same : u = n
        · rw [same, setChild_self]
        · exact absurd live (only same)
      · by_cases same : u = n
        · have knows : Knows s.pid (s.child c).pid c k ⟨pid, c, .forked, (s.child c).memory, (s.child c).musicName⟩ :=
            ⟨fun _ => rfl, trivial⟩
          rw [same]
          exact (setTrack_self s n _).symm ▸ knows
        · exact knows_dead (only same)
  | forkFails _ => exact absurd (by rw [setChild_self]) (forks rfl)
  | @wait n phase ended =>
      refine ⟨⟨_, _, setChild_self s c _, id⟩, fun n pid => id, play (fun u live => ?_) h.knows⟩
      cases phase.symm.trans (h.waits u live)
      have live : (s.track n).phase.Live := live
      rw [ended] at live
      exact live.elim
  | quit pending open_ _ _ => exact absurd ⟨pending, open_⟩ calm
  | clear pending open_ _ _ => exact absurd ⟨pending, open_⟩ calm
  | update pending open_ _ => exact absurd ⟨pending, open_⟩ calm
  | back _ astray => exact absurd astray h.on.steady

theorem smooth_beside {file : Option Bytes} (one : Smooth s file t) : Beside s t := by
  cases one with
  | child one _ _ => exact child_beside one
  | track one _ => exact track_beside one
  | leaves phase => exact track_beside (.leave phase)

/-- Nothing ends a child that takes no signal, and the parent is told only at the end of the list. -/
structure Lasts (p : Album) (c k : Nat) (s : Sys) (file : Option Bytes) (t : Sys) : Prop where
  deaf : Deaf c t
  told : t.pending = s.pending ∨ t.pending = true ∧ Ended p k
  tells : ∀ n pid, (t.track n).phase = .leaving pid → (s.track n).phase = .leaving pid ∨ t.pending = true
  goes : Goes p c k file t

theorem track_others {n u : Nat} (one : TrackSteps s n t) (other : u ≠ n) : t.track u = s.track u := by
  cases one <;> exact setTrack_other _ other _

theorem Deaf.track {n : Nat} (deaf : Deaf c s) (h : Play p c k s) (one : TrackSteps s n t)
    (whole : (t.track n).phase = .ended → (s.track n).phase.Over) : Lasts p c k s (s.track n).phase.stores t := by
  obtain ⟨blocked, starts, runs⟩ := deaf
  cases h.track one whole with
  | nobody child pending silent goes =>
      refine ⟨⟨child ▸ blocked, child ▸ starts, child ▸ runs⟩, .inl pending, fun u pid leaving => ?_, goes⟩
      by_cases same : u = n
      · exact absurd (same ▸ leaving) (silent pid)
      · exact .inl (track_others one same ▸ leaving)
  | parent child pending _ ended none_ play =>
      exact ⟨⟨child ▸ blocked, child ▸ starts, child ▸ runs⟩, .inr ⟨pending, ended⟩, fun _ _ _ => .inr pending,
        .inl ⟨none_, play⟩⟩
  | child child pending ended none_ play =>
      refine ⟨⟨by rw [child]; exact blocked, by rw [child]; exact starts, by rw [child]; exact runs⟩, .inl pending,
        fun u pid leaving => ?_, .inl ⟨none_, play⟩⟩
      by_cases same : u = n
      · rw [same, ended] at leaving
        cases leaving
      · exact .inl (track_others one same ▸ leaving)

theorem Deaf.next {file : Option Bytes} (deaf : Deaf c s) (h : Play p c k s) (one : Smooth s file t) :
    Lasts p c k s file t := by
  cases one with
  | @child d e t one forks _ =>
      cases h.on.only one
      have calm : ¬ (s.child c).Signalled := fun signalled => absurd (deaf.blocked.symm.trans signalled.2) (by decide)
      obtain ⟨⟨phase, musicName, child, runs⟩, leaving, play⟩ := h.child_goes one forks deaf.starts calm
      refine ⟨⟨?_, ?_, ?_⟩, .inl (child_leaves one).2.1, fun n pid now => .inl (leaving n pid now), .inl ⟨rfl, play⟩⟩
      · rw [child]
        exact deaf.blocked
      · rw [child]
        exact deaf.starts
      · rw [child]
        exact runs
  | track one whole =>
      refine deaf.track h one fun ended => ?_
      obtain ⟨pid, playing⟩ := whole ended
      rw [playing]
      trivial
  | leaves phase =>
      have lasts := deaf.track h (.leave phase) fun _ => by rw [phase]; trivial
      rw [phase] at lasts
      exact lasts

/-! ## The child of the first play -/

/-- No signal has come. -/
structure Going (c : Nat) (s : Sys) : Prop where
  open_ : (s.child c).blocked = false
  calm : (s.child c).pending = false
  starts : (s.child c).memory.startFlag = true
  runs : ¬ (s.child c).phase.Gone
  silent : ∀ n pid, (s.track n).phase ≠ .leaving pid

/-- The child comes to its end with nothing more to fork. -/
inductive Quits (x : Child) : Prop
  | gone : x.phase.Gone → Quits x
  | waits {n : Nat} : x.phase = .waiting n → x.Signalled ∨ x.memory.startFlag = false → Quits x
  | loops : x.phase = .loop → x.memory.startFlag = false → Quits x

/-- The play is over: the last track process is about to signal the child, or the child comes to its end. -/
inductive Over (c : Nat) (s : Sys) : Prop
  | tells {n : Nat} {pid : Int} : (s.child c).blocked = false → (s.child c).pending = false →
      (s.track n).phase = .leaving pid → Over c s
  | quits : (∀ n, ¬ (s.track n).phase.Live) → Quits (s.child c) → Over c s

/-- A child that waits for a track process does so until a signal comes. -/
theorem waiting_stays {d n : Nat} {e : ChildStep} (waits : (s.child d).phase = .waiting n)
    (running : (s.track n).phase ≠ .ended) (calm : (s.child d).pending = false) : ¬ ChildSteps s d e t := by
  intro one
  cases one with
  | install phase => cases phase.symm.trans waits
  | goOn phase _ => cases phase.symm.trans waits
  | exit phase _ => cases phase.symm.trans waits
  | fork phase _ _ => cases phase.symm.trans waits
  | forkFails phase => cases phase.symm.trans waits
  | wait phase ended =>
      cases phase.symm.trans waits
      exact running ended
  | quit pending _ _ _ => cases calm.symm.trans pending
  | clear pending _ _ _ => cases calm.symm.trans pending
  | update pending _ _ => cases calm.symm.trans pending
  | back _ phase => cases phase.symm.trans waits

/-- Once the track process that the child waits for has ended, none is left. -/
theorem Play.none_left {n : Nat} (h : Play p c k t) (waits : (t.child c).phase = .waiting n)
    (ended : (t.track n).phase = .ended) (u : Nat) : ¬ (t.track u).phase.Live := by
  intro live
  cases waits.symm.trans (h.waits u live)
  rw [ended] at live
  exact live

theorem leaving_live {n : Nat} {pid : Int} (none_ : ∀ u, ¬ (s.track u).phase.Live) :
    (s.track n).phase ≠ .leaving pid := by
  intro leaving
  refine none_ n ?_
  rw [leaving]
  trivial

theorem Quits.child {d : Nat} {e : ChildStep} (h : Quits (s.child d)) (one : ChildSteps s d e t)
    (calm : e = .wait → ¬ (s.child d).Signalled) : Quits (t.child d) ∧ t.track = s.track := by
  cases h with
  | gone gone => exact absurd (.inr gone) (child_running one)
  | waits waits ends =>
      cases one with
      | wait phase _ =>
          have stopped := ends.resolve_left (calm rfl)
          exact ⟨by rw [setChild_self]; exact .loops rfl stopped, rfl⟩
      | quit _ _ _ _ => exact ⟨by rw [setChild_self]; exact .gone trivial, rfl⟩
      | clear _ _ _ _ => exact ⟨by rw [setChild_self]; exact .waits waits (.inr rfl), rfl⟩
      | install phase => cases phase.symm.trans waits
      | goOn phase _ => cases phase.symm.trans waits
      | exit phase _ => cases phase.symm.trans waits
      | fork phase _ _ => cases phase.symm.trans waits
      | forkFails phase => cases phase.symm.trans waits
      | update _ _ phase => cases phase.symm.trans waits
      | back _ phase => cases phase.symm.trans waits
  | loops loops stopped =>
      cases one with
      | goOn _ starts => cases stopped.symm.trans starts
      | exit _ _ => exact ⟨by rw [setChild_self]; exact .gone trivial, rfl⟩
      | quit _ _ _ _ => exact ⟨by rw [setChild_self]; exact .gone trivial, rfl⟩
      | clear _ _ _ _ => exact ⟨by rw [setChild_self]; exact .loops loops rfl, rfl⟩
      | install phase => cases phase.symm.trans loops
      | fork phase _ _ => cases phase.symm.trans loops
      | forkFails phase => cases phase.symm.trans loops
      | wait phase _ => cases phase.symm.trans loops
      | update _ _ phase => cases phase.symm.trans loops
      | back _ phase => cases phase.symm.trans loops

theorem Over.next {file : Option Bytes} (h : Play p c k s) (ends : Over c s) (one : Smooth s file t) :
    Over c t ∧ (∀ n, ¬ (t.track n).phase.Live) ∧ t.pending = s.pending ∧ file = none ∧ Play p c k t := by
  cases ends with
  | @tells n pid open_ calm phase =>
      have live : (s.track n).phase.Live := by rw [phase]; trivial
      have waits := h.waits n live
      have only : ∀ {m}, (s.track m).phase.Live → m = n := fun alive => h.on.single _ n alive live
      cases one with
      | child one _ _ =>
          cases h.on.only one
          exact absurd one (waiting_stays waits (by rw [phase]; simp) calm)
      | track one whole =>
          cases only (track_running one)
          exfalso
          cases one with
          | leave _ =>
              obtain ⟨pid, playing⟩ := whole (congrArg Track.phase (setTrack_self (s.signal _) n _))
              cases phase.symm.trans playing
          | dies _ =>
              obtain ⟨pid, playing⟩ := whole (congrArg Track.phase (setTrack_self s n _))
              cases phase.symm.trans playing
          | semP now _ => cases phase.symm.trans now
          | getShm now => cases phase.symm.trans now
          | finish now _ => cases phase.symm.trans now
          | place now _ _ => cases phase.symm.trans now
          | setShm now => cases phase.symm.trans now
          | semV now => cases phase.symm.trans now
          | execFails now => cases phase.symm.trans now
      | leaves now =>
          cases only (by rw [now]; trivial)
          have pid := (h.knows n).2
          rw [now] at pid
          cases pid
          have told := h.signal_child
          have whole : (TrackPhase.leaving (s.child c).pid).Over := trivial
          cases h.track (.leave now) fun _ => now.symm ▸ whole with
          | nobody child _ _ _ =>
              have signalled := congrArg Child.pending (told.1.symm.trans child)
              cases calm.symm.trans signalled.symm
          | parent _ _ leaving _ _ _ => cases (congrArg Track.phase (setTrack_self (s.signal _) n _)).symm.trans leaving
          | child child pending ended _ play =>
              rw [← congrArg Child.phase child] at waits
              have none_ := play.none_left waits ended
              exact ⟨.quits none_ (.waits waits (.inl (child ▸ ⟨rfl, open_⟩))), none_, pending, rfl, play⟩
  | quits none_ ends =>
      have dead : ∀ {m}, ¬ TrackSteps s m t := fun one => none_ _ (track_running one)
      cases one with
      | child one _ calm =>
          cases h.on.only one
          obtain ⟨ends, track⟩ := ends.child one calm
          rw [← track] at none_
          exact ⟨.quits none_ ends, none_, (child_leaves one).2.1, rfl,
            h.turn one (fun u live => absurd live (none_ u)) fun u => knows_dead (none_ u)⟩
      | track one _ => exact absurd one dead
      | leaves phase => exact absurd (TrackSteps.leave phase) dead

/-- What a step leaves of a play that no signal has come to. -/
inductive Stands (p : Album) (c k : Nat) (s : Sys) (file : Option Bytes) (t : Sys) : Prop
  | going : Going c t → t.pending = s.pending → Goes p c k file t → Stands p c k s file t
  | told : Over c t → t.pending = true → Ended p k → file = none → Play p c k t → Stands p c k s file t
  | failed : Over c t → t.pending = s.pending → (∀ n pid, (t.track n).phase ≠ .leaving pid) → file = none →
      Play p c k t → Stands p c k s file t

theorem Going.track {n : Nat} (going : Going c s) (h : Play p c k s) (one : TrackSteps s n t)
    (whole : (t.track n).phase = .ended → (s.track n).phase.Over) : Stands p c k s (s.track n).phase.stores t := by
  obtain ⟨open_, calm, starts, runs, silent⟩ := going
  have waits := h.waits n (track_running one)
  cases h.track one whole with
  | nobody child pending still goes =>
      refine .going ⟨child ▸ open_, child ▸ calm, child ▸ starts, child ▸ runs, fun u pid leaving => ?_⟩ pending goes
      by_cases same : u = n
      · exact still pid (same ▸ leaving)
      · exact silent u pid (track_others one same ▸ leaving)
  | parent child pending leaving ended none_ play =>
      exact .told (.tells (child ▸ open_) (child ▸ calm) leaving) pending ended none_ play
  | child child pending ended none_ play =>
      rw [← congrArg Child.phase child] at waits
      have left := play.none_left waits ended
      exact .failed (.quits left (.waits waits (.inl (child ▸ ⟨rfl, open_⟩)))) pending
        (fun _ _ => leaving_live left) none_ play

theorem Going.next {file : Option Bytes} (going : Going c s) (h : Play p c k s) (one : Smooth s file t) :
    Stands p c k s file t := by
  cases one with
  | child one forks _ =>
      cases h.on.only one
      have calm : ¬ (s.child c).Signalled := fun signalled => absurd (going.calm.symm.trans signalled.1) (by decide)
      obtain ⟨⟨phase, musicName, child, runs⟩, leaving, play⟩ := h.child_goes one forks going.starts calm
      refine .going ⟨?_, ?_, ?_, ?_, fun n pid now => going.silent n pid (leaving n pid now)⟩ (child_leaves one).2.1
        (.inl ⟨rfl, play⟩)
      · rw [child]
        exact going.open_
      · rw [child]
        exact going.calm
      · rw [child]
        exact going.starts
      · rw [child]
        exact runs
  | track one whole =>
      refine going.track h one fun ended => ?_
      obtain ⟨pid, playing⟩ := whole ended
      rw [playing]
      trivial
  | leaves phase => exact absurd phase (going.silent _ _)

end MusicPlayer.Speaker.Unattended
