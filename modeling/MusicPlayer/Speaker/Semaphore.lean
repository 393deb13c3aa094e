import MusicPlayer.Speaker.Player
import MusicPlayer.Lib.Trace

/-! The lock around the shared record: which calls of the parent give back what
they take. -/
namespace MusicPlayer.Speaker
open CBytes Program Runs

abbrev Done := Performed Call Call.Answer Memory

def Call.isP : Call → Bool
  | .semP => true
  | _ => false

def Call.isV : Call → Bool
  | .semV => true
  | _ => false

/-- How often a run has done `SemP`, and how often `SemV`. -/
def taken (calls : List Done) : Nat := calls.countP fun c => c.op.isP
def given (calls : List Done) : Nat := calls.countP fun c => c.op.isV

/-- Neither `SemP` nor `SemV`. -/
def Call.Plain (op : Call) : Prop := op.isP = false ∧ op.isV = false

@[simp] theorem taken_nil : taken [] = 0 := rfl
@[simp] theorem given_nil : given [] = 0 := rfl

@[simp] theorem taken_cons (c : Done) (calls : List Done) :
    taken (c :: calls) = taken calls + if c.op.isP then 1 else 0 := List.countP_cons

@[simp] theorem given_cons (c : Done) (calls : List Done) :
    given (c :: calls) = given calls + if c.op.isV then 1 else 0 := List.countP_cons

theorem plain_run {p : Code} {calls : List Done} {t : Memory} (plain : p.Every Call.Plain)
    (run : Performs p calls t) : taken calls = 0 ∧ given calls = 0 := by
  have each := plain.performed run
  constructor
  · apply List.countP_eq_zero.mpr
    intro c member
    rw [(each c member).1]
    decide
  · apply List.countP_eq_zero.mpr
    intro c member
    rw [(each c member).2]
    decide

variable (j : JsonC)

/-! ## The functions that leave the lock alone -/

/-- Neither the lock nor a change of the record. -/
def Call.Free : Call → Prop
  | .semP => False
  | .semV => False
  | .setShm _ => False
  | _ => True

theorem free_plain (op : Call) (h : op.Free) : op.Plain := by
  cases op with
  | semP => exact h.elim
  | semV => exact h.elim
  | _ => exact ⟨rfl, rfl⟩

theorem sendMusicInfo_free (obj : Json) (s : Memory) : (sendMusicInfo j obj s).Every Call.Free :=
  sendMusicInfo_every j (fun _ => trivial) obj s

theorem getMusicName_free (singer : Bytes) (s : Memory) : (getMusicName j singer s).Every Call.Free :=
  getMusicName_every j (fun _ => trivial) trivial (fun _ => trivial) singer s

theorem startPlay_free (s : Memory) : (startPlay s).Every Call.Free :=
  startPlay_every trivial (fun _ => trivial) (fun _ => trivial) s

theorem stopPlay_free (s : Memory) : (stopPlay s).Every Call.Free :=
  stopPlay_every trivial (fun _ => trivial) (fun _ => trivial) (fun _ => trivial) s

theorem replay_free (singer : Bytes) (s : Memory) :
    ((getMusicName j singer (clearMusicList s)).andThen startPlay).Every Call.Free :=
  (getMusicName_free j singer _).andThen startPlay_free

theorem reload_free (curInfo : Shm) (s : Memory) : (reload j curInfo s).Every Call.Free :=
  (stopPlay_free s).andThen fun s => replay_free j _ s

/-! ## The functions that take it -/

/-- Loading a track gives the lock back once. -/
theorem loadTrack_gives {curInfo : Shm} {name : Bytes} {s t : Memory} {calls : List Done}
    (run : Performs (loadTrack curInfo name s) calls t) : taken calls = 0 ∧ given calls = 1 := by
  obtain ⟨updated, -, run⟩ := performs_check run
  cases run with
  | call _ m run =>
      cases run with
      | call _ m run =>
          obtain ⟨path, -, run⟩ := performs_check run
          cases run with
          | call _ m run =>
              cases run
              exact ⟨rfl, rfl⟩

/-- What makes `NextPlay` reload: it is not to repeat, and the track it finds
playing is the last of the list. -/
def Exhausted (curInfo : Shm) (s : Memory) : Prop :=
  curInfo.curMode ≠ circle ∧ AtEnd s.musicHead (cstr curInfo.curMusic)

theorem nextTrack_eq_none {curInfo : Shm} {s : Memory} :
    nextTrack curInfo s = .ok none ↔ Exhausted curInfo s := by
  unfold nextTrack Exhausted
  by_cases repeats : curInfo.curMode = circle
  · rw [if_pos repeats]
    simp only [repeats, ne_eq, not_true_eq_false, false_and, iff_false, Except.bind_eq_ok]
    rintro ⟨name, -, same⟩
    cases same
  · rw [if_neg repeats, ← findNextMusic_eq_none]
    simp only [repeats, ne_eq, not_false_eq_true, true_and, Except.bind_eq_ok]
    constructor
    · rintro ⟨next, found, same⟩
      cases next with
      | none => exact found
      | some next =>
          simp only [Except.bind_eq_ok] at same
          obtain ⟨name, -, same⟩ := same
          cases same
    · exact fun found => ⟨none, found, rfl⟩

theorem nextPlay_lock {s t : Memory} {calls : List Done} (run : Performs (nextPlay j s) calls t) :
    calls = [] ∨ ∃ (m₁ m₂ : Memory) (curInfo : Shm) (rest : List Done),
      calls = ⟨.semP, (), m₁⟩ :: ⟨.getShm, curInfo, m₂⟩ :: rest ∧
      (Exhausted curInfo m₂ ∧ taken rest = 0 ∧ given rest = 0 ∨
        ¬ Exhausted curInfo m₂ ∧ taken rest = 0 ∧ given rest = 1) := by
  unfold nextPlay at run
  split at run
  · cases run with
    | call _ m₁ run =>
        cases run with
        | call curInfo m₂ run =>
            obtain ⟨next, chosen, run⟩ := performs_check run
            have ends : nextTrack curInfo m₂ = .ok none ↔ Exhausted curInfo m₂ := nextTrack_eq_none
            rw [chosen] at ends
            refine .inr ⟨m₁, m₂, curInfo, _, rfl, ?_⟩
            cases next with
            | none =>
                exact .inl ⟨ends.mp rfl, plain_run ((reload_free j curInfo m₂).mono free_plain) run⟩
            | some name =>
                refine .inr ⟨fun ended => ?_, loadTrack_gives run⟩
                cases ends.mpr ended
  · cases run
    exact .inl rfl

theorem prevPlay_balanced {s t : Memory} {calls : List Done} (run : Performs (prevPlay s) calls t) :
    given calls = taken calls := by
  unfold prevPlay at run
  split at run
  · cases run with
    | call _ m₁ run =>
        cases run with
        | call curInfo m₂ run =>
            obtain ⟨name, -, run⟩ := performs_check run
            obtain ⟨none_, one⟩ := loadTrack_gives run
            simp [none_, one, Call.isP, Call.isV]
  · cases run
    rfl

theorem updateMusic_balanced {s t : Memory} {calls : List Done}
    (run : Performs (updateMusic j s) calls t) : given calls = taken calls := by
  unfold updateMusic at run
  cases run with
  | call _ m₁ run =>
      cases run with
      | call curInfo m₂ run =>
          cases run with
          | call _ m₃ run =>
              cases run with
              | call _ m₄ run =>
                  obtain ⟨none_, zero⟩ := plain_run ((replay_free j _ m₄).mono free_plain) run
                  simp [none_, zero, Call.isP, Call.isV]

/-- The functions of the parent that work under the lock. -/
inductive Locking
  | nextPlay
  | prevPlay
  | updateMusic

def Locking.run : Locking → Memory → Code
  | .nextPlay => Speaker.nextPlay j
  | .prevPlay => Speaker.prevPlay
  | .updateMusic => Speaker.updateMusic j

/-- `NextPlay` at the end of the playlist, by what it reads once it has the lock. -/
def Reloads (f : Locking) (calls : List Done) : Prop :=
  f = .nextPlay ∧ ∃ (m₁ m₂ : Memory) (curInfo : Shm) (rest : List Done),
    calls = ⟨.semP, (), m₁⟩ :: ⟨.getShm, curInfo, m₂⟩ :: rest ∧ Exhausted curInfo m₂

theorem call_balanced_iff {f : Locking} {s t : Memory} {calls : List Done}
    (run : Performs (f.run j s) calls t) : given calls = taken calls ↔ ¬ Reloads f calls := by
  cases f with
  | nextPlay =>
      rcases nextPlay_lock j run with rfl | ⟨m₁, m₂, curInfo, rest, rfl, ⟨ends, none_, zero⟩ | ⟨goes, none_, one⟩⟩
      · refine ⟨fun _ => ?_, fun _ => rfl⟩
        rintro ⟨-, m₁, m₂, curInfo, rest, same, -⟩
        cases same
      · constructor
        · intro same
          simp [none_, zero, Call.isP, Call.isV] at same
        · intro fine
          exact absurd ⟨rfl, m₁, m₂, curInfo, rest, rfl, ends⟩ fine
      · constructor
        · rintro - ⟨-, m₁', m₂', curInfo', rest', same, ends⟩
          cases same
          exact goes ends
        · intro _
          simp [none_, one, Call.isP, Call.isV]
  | prevPlay =>
      refine ⟨fun _ => ?_, fun _ => prevPlay_balanced run⟩
      rintro ⟨same, -⟩
      cases same
  | updateMusic =>
      refine ⟨fun _ => ?_, fun _ => updateMusic_balanced j run⟩
      rintro ⟨same, -⟩
      cases same

/-- A playlist of one track, played without the server. -/
def oneTrack (startFlag : Bool) : Memory where
  startFlag := startFlag
  suspendFlag := false
  deviceMode := .offline
  musicHead := [lit "a/b.mp3"]

def playingIt : Shm where
  curMusic := store (zeros 128) 0 (lit "b.mp3")
  curSigner := store (zeros 128) 0 (lit "a")
  curMode := sequence
  parentPid := 1
  childPid := 2
  grandPid := 3

end MusicPlayer.Speaker
