import MusicPlayer.Speaker.Outgoing

/-! What each function makes of a speaker that stands still, plays or is paused,
when nothing comes in between and it does not fail. -/
namespace MusicPlayer.Speaker
open CBytes Program

variable (j : JsonC)

inductive Playing
  | stopped
  | playing
  | paused
  deriving DecidableEq

namespace Playing

def started : Playing → Bool
  | .stopped => false
  | .playing | .paused => true

def suspended : Playing → Bool
  | .paused => true
  | .stopped | .playing => false

/-- The two commands that do nothing for a speaker that stands still. -/
def resume : Playing → Playing
  | .stopped => .stopped
  | .playing | .paused => .playing

def pause : Playing → Playing
  | .stopped => .stopped
  | .playing | .paused => .paused

/-- The speaker's button. -/
def toggle : Playing → Playing
  | .stopped | .paused => .playing
  | .playing => .paused

theorem ext_flags {p q : Playing} (started : p.started = q.started) (suspended : p.suspended = q.suspended) :
    p = q := by
  cases p <;> cases q <;> first | rfl | exact absurd started (by decide) | exact absurd suspended (by decide)

end Playing

/-- The flags of a speaker that stands so. -/
structure Stands (p : Playing) (s : Memory) : Prop where
  started : s.startFlag = p.started
  suspended : s.suspendFlag = p.suspended

theorem Stands.unique {p q : Playing} {s : Memory} (one : Stands p s) (two : Stands q s) : p = q :=
  Playing.ext_flags (one.started.symm.trans two.started) (one.suspended.symm.trans two.suspended)

/-- What the status in `SendServer` says, by the tests it makes of the flags. -/
def status (s : Memory) : Bytes :=
  if s.startFlag = false then lit "stop"
  else if s.suspendFlag = false then lit "start"
  else lit "suspend"

def Playing.status : Playing → Bytes
  | .stopped => lit "stop"
  | .playing => lit "start"
  | .paused => lit "suspend"

theorem Stands.status {p : Playing} {s : Memory} (stands : Stands p s) : status s = p.status := by
  unfold Speaker.status
  rw [stands.started, stands.suspended]
  cases p <;> rfl

/-- Alone, the function takes a speaker from where it stands to where `f` says. -/
def Does (f : Playing → Playing) (run : Memory → Code) : Prop :=
  ∀ ⦃p : Playing⦄ ⦃s t : Memory⦄, Stands p s → Ends (run s) t → Stands (f p) t

section Rules
variable {f g : Playing → Playing} {run next : Memory → Code}

theorem Does.andThen (first : Does f run) (second : Does g next) :
    Does (fun p => g (f p)) fun s => (run s).andThen next := by
  intro p s t stands ends
  obtain ⟨m, one, two⟩ := ends_andThen.mp ends
  exact second (first stands one) two

theorem does_done : Does id Program.done := by
  intro p s t stands ends
  rw [ends_done.mp ends]
  exact stands

/-- A call and what is done with its answer. -/
theorem does_call {op : Call} {k : op.Answer → Memory → Code} (h : ∀ a, Does f (k a)) :
    Does f fun s => .call s op k := by
  intro p s t stands ends
  obtain ⟨a, rest⟩ := ends_call.mp ends
  exact h a stands rest

end Rules

/-! ## Requests and answers -/

theorem sendMusicInfo_does (obj : Json) : Does id (sendMusicInfo j obj) := by
  intro p s t stands ends
  unfold sendMusicInfo at ends
  split at ends
  · obtain ⟨bytes, -, ends⟩ := ends_check.mp ends
    obtain ⟨a, ends⟩ := ends_call.mp ends
    exact does_done stands ends
  · exact does_done stands ends

theorem uploadMusic_does : Does id (uploadMusic j) := by
  intro p s t stands ends
  exact sendMusicInfo_does j _ stands ends

theorem sendReply_does (cmd result : String) : Does id (sendReply j cmd result) := sendMusicInfo_does j _

theorem linkMusicList_stands {p : Playing} {text : Bytes} {s t : Memory} (stands : Stands p s)
    (h : linkMusicList j text s = .ok t) : Stands p t := by
  unfold linkMusicList at h
  split at h
  · cases h
    exact stands
  · split at h
    · cases h
    · split at h
      · cases h
        exact stands
      · split at h
        · obtain ⟨names, -, h⟩ := Except.bind_eq_ok.mp h
          obtain ⟨musicHead, -, h⟩ := Except.bind_eq_ok.mp h
          cases h
          exact ⟨stands.started, stands.suspended⟩
        · cases h

theorem getMusicName_does (singer : Bytes) : Does id (getMusicName j singer) := by
  intro p s t stands ends
  have cleared : Stands p (clearMusicList s) := ⟨stands.started, stands.suspended⟩
  unfold getMusicName at ends
  dsimp only at ends
  split at ends
  · obtain ⟨m, sent, ends⟩ := ends_andThen.mp ends
    have asked := sendMusicInfo_does j _ cleared sent
    obtain ⟨text, ends⟩ := ends_call.mp ends
    obtain ⟨u, linked, ends⟩ := ends_check.mp ends
    exact uploadMusic_does j (linkMusicList_stands j asked linked) ends
  · obtain ⟨singerDir, ends⟩ := ends_call.mp ends
    split at ends
    · cases ends
    · split at ends
      · cases ends
      · obtain ⟨path, -, ends⟩ := ends_check.mp ends
        obtain ⟨musicDir, ends⟩ := ends_call.mp ends
        split at ends
        · cases ends
        · obtain ⟨names, -, ends⟩ := ends_check.mp ends
          obtain ⟨musicHead, -, ends⟩ := ends_check.mp ends
          rw [ends_done.mp ends]
          exact ⟨cleared.started, cleared.suspended⟩

/-! ## Playing -/

theorem continuePlay_does : Does Playing.resume continuePlay := by
  intro p s t stands ends
  unfold continuePlay at ends
  rw [stands.suspended] at ends
  cases p with
  | stopped => exact does_done stands ends
  | playing => exact does_done stands ends
  | paused =>
      obtain ⟨a, ends⟩ := ends_call.mp ends
      rw [ends_done.mp ends]
      exact ⟨stands.started, rfl⟩

theorem suspendPlay_does : Does Playing.pause suspendPlay := by
  intro p s t stands ends
  unfold suspendPlay at ends
  rw [stands.suspended, stands.started] at ends
  cases p with
  | stopped => exact does_done stands ends
  | paused => exact does_done stands ends
  | playing =>
      obtain ⟨a, ends⟩ := ends_call.mp ends
      rw [ends_done.mp ends]
      exact ⟨stands.started, rfl⟩

/-- Starting a speaker that is paused makes it go on. -/
theorem startPlay_does : Does (fun _ => .playing) startPlay := by
  intro p s t stands ends
  unfold startPlay at ends
  rw [stands.suspended, stands.started] at ends
  cases p with
  | paused => exact continuePlay_does stands ends
  | playing => exact does_done stands ends
  | stopped =>
      obtain ⟨a, ends⟩ := ends_call.mp ends
      split at ends
      · cases ends
      · obtain ⟨name, -, ends⟩ := ends_check.mp ends
        obtain ⟨a, ends⟩ := ends_call.mp ends
        rw [ends_done.mp ends]
        exact ⟨rfl, stands.suspended⟩

theorem handle_does : Does Playing.toggle handle := by
  intro p s t stands ends
  unfold handle at ends
  rw [stands.suspended, stands.started] at ends
  cases p with
  | stopped => exact startPlay_does stands ends
  | playing => exact suspendPlay_does stands ends
  | paused => exact continuePlay_does stands ends

theorem stopPlay_does : Does (fun _ => .stopped) stopPlay := by
  intro p s t stands ends
  unfold stopPlay at ends
  rw [stands.started] at ends
  have quit : ∀ curInfo : Shm, Ends (stopKill curInfo.childPid s) t → Stands .stopped t := by
    intro curInfo ends
    obtain ⟨a, ends⟩ := ends_call.mp ends
    obtain ⟨a, ends⟩ := ends_call.mp ends
    obtain ⟨a, ends⟩ := ends_call.mp ends
    rw [ends_done.mp ends]
    exact ⟨rfl, rfl⟩
  cases p with
  | stopped => exact does_done stands ends
  | playing =>
      obtain ⟨curInfo, ends⟩ := ends_call.mp ends
      exact quit curInfo ends
  | paused =>
      obtain ⟨curInfo, ends⟩ := ends_call.mp ends
      exact quit curInfo ends

/-- A new playlist, played from its start. -/
theorem replay_does (singer : Bytes) :
    Does (fun _ => .playing) fun s => (getMusicName j singer s).andThen startPlay :=
  (getMusicName_does j singer).andThen startPlay_does

theorem loadTrack_does (curInfo : Shm) (name : Bytes) {p : Playing} {s t : Memory} (stands : Stands p s)
    (ends : Ends (loadTrack curInfo name s) t) : Stands p.resume t := by
  unfold loadTrack at ends
  obtain ⟨stored, -, ends⟩ := ends_check.mp ends
  obtain ⟨a, ends⟩ := ends_call.mp ends
  obtain ⟨a, ends⟩ := ends_call.mp ends
  obtain ⟨path, -, ends⟩ := ends_check.mp ends
  obtain ⟨a, ends⟩ := ends_call.mp ends
  rw [ends_done.mp ends]
  refine ⟨?_, ?_⟩
  · rw [stands.started]
    cases p <;> rfl
  · cases p <;> rfl

theorem resume_of_started {p : Playing} (started : p.started = true) : p.resume = .playing := by
  cases p with
  | stopped => cases started
  | playing => rfl
  | paused => rfl

theorem resume_of_not_started {p : Playing} (still : p.started = false) : p.resume = p := by
  cases p with
  | stopped => rfl
  | playing => cases still
  | paused => cases still

/-- At the end of its list, too, a speaker that was started plays in the end. -/
theorem nextPlay_does : Does Playing.resume (nextPlay j) := by
  intro p s t stands ends
  unfold nextPlay at ends
  rw [stands.started] at ends
  split at ends
  next started =>
    obtain ⟨a, ends⟩ := ends_call.mp ends
    obtain ⟨curInfo, ends⟩ := ends_call.mp ends
    obtain ⟨next, -, ends⟩ := ends_check.mp ends
    cases next with
    | some name => exact loadTrack_does curInfo name stands ends
    | none =>
        rw [resume_of_started started]
        obtain ⟨m, stopped, ends⟩ := ends_andThen.mp ends
        have still := stopPlay_does stands stopped
        have cleared : Stands .stopped (clearMusicList m) := ⟨still.started, still.suspended⟩
        exact replay_does j _ cleared ends
  next still =>
    rw [resume_of_not_started (by simpa using still)]
    exact does_done stands ends

theorem prevPlay_does : Does Playing.resume prevPlay := by
  intro p s t stands ends
  unfold prevPlay at ends
  rw [stands.started] at ends
  split at ends
  next started =>
    obtain ⟨a, ends⟩ := ends_call.mp ends
    obtain ⟨curInfo, ends⟩ := ends_call.mp ends
    obtain ⟨name, -, ends⟩ := ends_check.mp ends
    exact loadTrack_does curInfo name stands ends
  next still =>
    rw [resume_of_not_started (by simpa using still)]
    exact does_done stands ends

theorem upVolume_does : Does id upVolume := by
  refine does_call fun volume => ?_
  intro p s t stands ends
  dsimp only at ends
  split at ends
  · obtain ⟨a, ends⟩ := ends_call.mp ends
    exact does_done stands ends
  · exact does_done stands ends

theorem downVolume_does : Does id downVolume := by
  refine does_call fun volume => ?_
  intro p s t stands ends
  dsimp only at ends
  split at ends
  · obtain ⟨a, ends⟩ := ends_call.mp ends
    exact does_done stands ends
  · exact does_done stands ends

theorem setMode_does (mode : Int) : Does id (setMode mode) :=
  does_call fun _ => does_call fun _ => does_done

/-- A track that ends by itself: the signal's handler. A paused one does not end. -/
theorem updateMusic_does {p : Playing} (running : p ≠ .paused) {s t : Memory} (stands : Stands p s)
    (ends : Ends (updateMusic j s) t) : Stands .playing t := by
  unfold updateMusic at ends
  obtain ⟨a, ends⟩ := ends_call.mp ends
  obtain ⟨curInfo, ends⟩ := ends_call.mp ends
  obtain ⟨a, ends⟩ := ends_call.mp ends
  obtain ⟨a, ends⟩ := ends_call.mp ends
  have cleared : Stands .stopped (clearMusicList { s with startFlag := false }) := by
    refine ⟨rfl, stands.suspended.trans ?_⟩
    cases p with
    | paused => exact absurd rfl running
    | stopped => rfl
    | playing => rfl
  exact replay_does j _ cleared ends

/-! ## Commands -/

theorem answered_does {f : Playing → Playing} {run : Memory → Code} (does : Does f run) (cmd : String) :
    Does f (answered j run cmd) := does.andThen (sendReply_does j cmd "success")

theorem socketStartPlay_does : Does (fun _ => .playing) (socketStartPlay j) :=
  startPlay_does.andThen (does_call fun _ => sendReply_does j _ _)

theorem socketStopPlay_does : Does (fun _ => .stopped) (socketStopPlay j) :=
  stopPlay_does.andThen (does_call fun _ => sendReply_does j _ _)

/-- The commands, each with what it does to a speaker. -/
def effects : List (String × (Playing → Playing)) :=
  [("app_start", fun _ => .playing), ("app_stop", fun _ => .stopped), ("app_suspend", .pause),
    ("app_continue", .resume), ("app_next", .resume), ("app_prev", .resume), ("app_downvolume", id),
    ("app_upvolume", id), ("app_circle", id), ("app_sequence", id), ("app_get_music", id),
    ("app_capture_cur_musiclist", id)]

theorem execute_does {name : String} {f : Playing → Playing} (known : (name, f) ∈ effects) :
    Does f (execute j (lit name)) := by
  have each : ∀ e ∈ effects, ∃ run, (e.1, run) ∈ handlers j ∧ Does e.2 run := by
    simp only [effects, List.forall_mem_cons, List.not_mem_nil, false_implies, implies_true, and_true]
    refine ⟨?_, ?_, ?_, ?_, ?_, ?_, ?_, ?_, ?_, ?_, ?_, ?_⟩
    · exact ⟨socketStartPlay j, by simp [handlers], socketStartPlay_does j⟩
    · exact ⟨socketStopPlay j, by simp [handlers], socketStopPlay_does j⟩
    · exact ⟨socketSuspendPlay j, by simp [handlers], answered_does j suspendPlay_does _⟩
    · exact ⟨socketContinuePlay j, by simp [handlers], answered_does j continuePlay_does _⟩
    · exact ⟨socketNextPlay j, by simp [handlers], answered_does j (nextPlay_does j) _⟩
    · exact ⟨socketPrevPlay j, by simp [handlers], answered_does j prevPlay_does _⟩
    · exact ⟨socketDownVolume j, by simp [handlers], answered_does j downVolume_does _⟩
    · exact ⟨socketUpVolume j, by simp [handlers], answered_does j upVolume_does _⟩
    · exact ⟨socketCirPlay j, by simp [handlers], answered_does j (setMode_does circle) _⟩
    · exact ⟨socketSeqPlay j, by simp [handlers], answered_does j (setMode_does sequence) _⟩
    · exact ⟨uploadMusic j, by simp [handlers], uploadMusic_does j⟩
    · exact ⟨uploadMusic j, by simp [handlers], uploadMusic_does j⟩
  obtain ⟨run, member, does⟩ := each _ known
  intro p s t stands ends
  rw [execute_known j member] at ends
  exact does stands ends

end MusicPlayer.Speaker
