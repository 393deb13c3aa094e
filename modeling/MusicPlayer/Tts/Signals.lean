import MusicPlayer.Tts

/-! The speech program with its signals, which may come between any two of its
statements, and with the device it plays on. -/
namespace MusicPlayer.Tts.Signals
open CBytes Runs

variable {α π : Type}

/-! ## The device -/

/-- What the program calls of alsa-lib, on a device whose states are `π`: `setup` is
`SND_PCM_STATE_SETUP`, and `moves` what the device does by itself. -/
structure Alsa (α π : Type) where
  setup : π → Prop
  prepare : π → π
  writei : π → α → Int × π
  drop : π → π
  drain : π → π
  moves : π → π → Prop

def epipe : Int := 32

/-- What alsa-lib documents of a device that has been dropped: it takes no samples until
it is prepared. -/
structure Alsa.Documented (alsa : Alsa α π) : Prop where
  drop_setup (d : π) : alsa.setup (alsa.drop d)
  writei_setup (d : π) (samples : α) : alsa.setup d → (alsa.writei d samples).1 < 0
  moves_setup (d d' : π) : alsa.moves d d' → alsa.setup d → alsa.setup d'

variable (alsa : Alsa α π)

/-! ## The program -/

/-- Where `main` is, with the text it has read. From `callBack` on it is inside the
generator, with the calls of `PlayCallBack` that are still to come. -/
inductive Phase (α : Type)
  | read
  | flag (text : Bytes)
  | prepare (text : Bytes)
  | generate (text : Bytes)
  | callBack (rest : List α)
  | write (samples : α) (rest : List α)
  | prepareAgain (samples : α) (rest : List α)
  | writeAgain (samples : α) (rest : List α)
  | returns (rest : List α)
  | drain

structure Machine (α π : Type) where
  fifo : State
  playFlag : Bool
  speakerId : Nat
  pcm : π
  phase : Phase α

def Machine.start (d : π) : Machine α π := ⟨.start [], true, 1, d, .read⟩

def Machine.handleStop (s : Machine α π) : Machine α π := { s with playFlag := false, pcm := alsa.drop s.pcm }

def Machine.handleChangeVoice (s : Machine α π) : Machine α π := { s with speakerId := (s.speakerId + 1) % 175 }

inductive Event (α : Type)
  | write (more : Bytes)
  | stop
  | changeVoice
  | moves
  | take (text : Bytes)
  | flag
  | generate (speakerId : Nat) (text : Bytes) (calls : List α)
  | play (samples : α)
  | epipe
  | refused
  | work
  | drain

/-- The next statement. What the generator makes of a text is given with it: the
samples of each call of `PlayCallBack`. -/
def Machine.main (calls : List α) (s : Machine α π) : Option (Event α × Machine α π) :=
  match s.phase with
  | .read => (pass s.fifo).map fun (text, fifo) => (.take text, { s with fifo, phase := .flag text })
  | .flag text => some (.flag, { s with playFlag := true, phase := .prepare text })
  | .prepare text => some (.work, { s with pcm := alsa.prepare s.pcm, phase := .generate text })
  | .generate text => some (.generate s.speakerId text calls, { s with phase := .callBack calls })
  | .callBack [] => some (.work, { s with phase := .drain })
  -- a callback that returns 0 ends the generation
  | .callBack (samples :: rest) =>
      some (.work, { s with phase := if s.playFlag then .write samples rest else .drain })
  | .write samples rest =>
      let wrote := alsa.writei s.pcm samples
      if wrote.1 = -epipe then some (.epipe, { s with pcm := wrote.2, phase := .prepareAgain samples rest })
      else if wrote.1 < 0 then some (.refused, { s with pcm := wrote.2, phase := .drain })
      else some (.play samples, { s with pcm := wrote.2, phase := .returns rest })
  | .prepareAgain samples rest =>
      some (.work, { s with pcm := alsa.prepare s.pcm, phase := .writeAgain samples rest })
  | .writeAgain samples rest =>
      let wrote := alsa.writei s.pcm samples
      if wrote.1 < 0 then some (.refused, { s with pcm := wrote.2, phase := .drain })
      else some (.play samples, { s with pcm := wrote.2, phase := .returns rest })
  | .returns rest => some (.work, { s with phase := if s.playFlag then .callBack rest else .drain })
  | .drain => some (.drain, { s with pcm := alsa.drain s.pcm, phase := .read })

/-- Somebody writes to the fifo, a signal comes, the device goes on or `main` does. -/
inductive Steps (s : Machine α π) : Event α → Machine α π → Prop
  | write (more : Bytes) : Steps s (.write more) { s with fifo := { s.fifo with pipe := s.fifo.pipe ++ more } }
  | stop : Steps s .stop (s.handleStop alsa)
  | changeVoice : Steps s .changeVoice s.handleChangeVoice
  | moves (d : π) : alsa.moves s.pcm d → Steps s .moves { s with pcm := d }
  | main (calls : List α) {e : Event α} {t : Machine α π} : s.main alsa calls = some (e, t) → Steps s e t

/-! ## What has been spoken -/

/-- A text with the calls it was made into, and what the device took of them before
and after a stop. A stop counts from `play_flag = 1` on, which loses those before it. -/
structure Utterance (α : Type) where
  text : Bytes
  calls : List α
  played : List α
  late : List α
  lost : Bool
  stopped : Bool
  dry : Bool
  refused : Bool
  ended : Bool
  deriving DecidableEq

def Utterance.begun (text : Bytes) : Utterance α := ⟨text, [], [], [], false, false, false, false, false⟩

def Utterance.note (u : Utterance α) : Event α → Utterance α
  | .flag => { u with lost := u.stopped, stopped := false }
  | .stop => if u.ended then u else { u with stopped := true }
  | .epipe => { u with dry := true }
  | .refused => { u with refused := true }
  | .generate _ text calls => { u with text, calls }
  | .play samples =>
      if u.stopped then { u with late := u.late ++ [samples] } else { u with played := u.played ++ [samples] }
  | .drain => { u with ended := true }
  | _ => u

/-- The utterances of a run, the last one first. -/
def noted : List (Utterance α) → Event α → List (Utterance α)
  | us, .take text => .begun text :: us
  | [], _ => []
  | u :: us, e => u.note e :: us

def log (es : List (Event α)) : List (Utterance α) := es.foldl noted []

def Event.written : Event α → Bytes
  | .write more => more
  | _ => []

def Event.taken : Event α → Option Bytes
  | .take text => some text
  | _ => none

def Event.turns : Event α → Nat
  | .changeVoice => 1
  | _ => 0

/-- The steps that are no statement of `main` and write nothing. -/
def Event.beside : Event α → Bool
  | .stop | .changeVoice | .moves => true
  | _ => false

def written (es : List (Event α)) : Bytes := es.flatMap Event.written

def texts (es : List (Event α)) : List Bytes := es.filterMap Event.taken

/-- How often the voice has been changed. -/
def changes (es : List (Event α)) : Nat := (es.map Event.turns).sum

/-- The device has been given the calls in order up to a stop, and of what came
later one call at most, which had been answered `-EPIPE` before. -/
structure Utterance.Sound (u : Utterance α) : Prop where
  part : u.played ++ u.late <+: u.calls
  late : u.late.length ≤ 1
  caught : u.late ≠ [] → u.stopped = true ∧ u.dry = true
  whole : u.ended = true → u.stopped = false → u.refused = false → u.played = u.calls

/-! ## One step -/

/-- All the device has been given is in time, and `rest` is still to come. -/
structure Utterance.Hands (u : Utterance α) (playFlag : Bool) (rest : List α) : Prop where
  goes : u.ended = false
  flag : playFlag = !u.stopped
  inTime : u.late = []
  split : u.calls = u.played ++ rest

/-- The last utterance where `main` is. -/
def Stage (u : Utterance α) (s : Machine α π) : Prop :=
  match s.phase with
  | .read => u.ended = true ∧ u.Sound
  | .flag text => u.text = text ∧ u.ended = false ∧ u.calls = [] ∧ u.played = [] ∧ u.late = []
  | .prepare text | .generate text => u.text = text ∧ u.Hands s.playFlag [] ∧ u.played = []
  | .callBack rest => u.Hands s.playFlag rest
  | .write samples rest => u.Hands s.playFlag (samples :: rest) ∧ (u.stopped = true → alsa.setup s.pcm)
  | .prepareAgain samples rest | .writeAgain samples rest => u.Hands s.playFlag (samples :: rest) ∧ u.dry = true
  | .returns rest =>
      u.ended = false ∧ s.playFlag = (!u.stopped) ∧ u.Sound ∧ (u.stopped = false → u.Hands s.playFlag rest)
  | .drain => u.ended = false ∧ u.Sound ∧ (u.stopped = false → u.refused = false → u.played = u.calls)

variable {alsa}

/-- An utterance with nothing late. -/
theorem Utterance.Hands.sound {u : Utterance α} {playFlag : Bool} {rest : List α} (h : u.Hands playFlag rest) :
    u.Sound := by
  refine ⟨?_, ?_, fun some_ => absurd h.inTime some_, fun ended => ?_⟩
  · rw [h.inTime, h.split, List.append_nil]
    exact List.prefix_append _ _
  · rw [h.inTime]
    exact Nat.zero_le 1
  · rw [h.goes] at ended
    cases ended

theorem Utterance.Hands.stop {u : Utterance α} {playFlag : Bool} {rest : List α} (h : u.Hands playFlag rest) :
    Utterance.Hands { u with stopped := true } false rest := ⟨h.goes, rfl, h.inTime, h.split⟩

theorem Utterance.Sound.stop {u : Utterance α} (h : u.Sound) : Utterance.Sound { u with stopped := true } :=
  ⟨h.part, h.late, fun some_ => ⟨rfl, (h.caught some_).2⟩, fun _ stays => by cases stays⟩

/-- One call more in time. -/
theorem Utterance.Hands.play {u : Utterance α} {playFlag : Bool} {samples : α} {rest : List α}
    (h : u.Hands playFlag (samples :: rest)) :
    Utterance.Hands { u with played := u.played ++ [samples] } playFlag rest := by
  refine ⟨h.goes, h.flag, h.inTime, ?_⟩
  rw [h.split, List.append_assoc]
  rfl

/-- One call after a stop. -/
theorem Utterance.Hands.playLate {u : Utterance α} {playFlag : Bool} {samples : α} {rest : List α}
    (h : u.Hands playFlag (samples :: rest)) (stopped : u.stopped = true) (dry : u.dry = true) :
    Utterance.Sound { u with late := u.late ++ [samples] } := by
  refine ⟨?_, ?_, fun _ => ⟨stopped, dry⟩, fun ended => ?_⟩
  · refine ⟨rest, ?_⟩
    rw [h.inTime, h.split, List.append_assoc]
    rfl
  · rw [h.inTime]
    exact Nat.le_refl 1
  · exact absurd (h.goes.symm.trans ended) (by decide)

theorem note_stop {u : Utterance α} (goes : u.ended = false) : u.note .stop = { u with stopped := true } := by
  rw [Utterance.note, goes]
  rfl

theorem note_play {u : Utterance α} (stays : u.stopped = false) (samples : α) :
    u.note (.play samples) = { u with played := u.played ++ [samples] } := by
  rw [Utterance.note, stays]
  rfl

theorem note_play_late {u : Utterance α} (stopped : u.stopped = true) (samples : α) :
    u.note (.play samples) = { u with late := u.late ++ [samples] } := by
  rw [Utterance.note, if_pos stopped]

/-- A stop in any of the statements. -/
theorem stage_stop (documented : alsa.Documented) {u : Utterance α} {s : Machine α π} (h : Stage alsa u s) :
    Stage alsa (u.note .stop) (s.handleStop alsa) := by
  obtain ⟨fifo, playFlag, speakerId, pcm, phase⟩ := s
  cases phase with
  | read =>
      obtain ⟨ended, sound⟩ := h
      rw [Utterance.note, if_pos ended]
      exact ⟨ended, sound⟩
  | flag text =>
      obtain ⟨same, goes, calls, played, late⟩ := h
      rw [note_stop goes]
      exact ⟨same, goes, calls, played, late⟩
  | prepare text =>
      obtain ⟨same, hands, played⟩ := h
      rw [note_stop hands.goes]
      exact ⟨same, hands.stop, played⟩
  | generate text =>
      obtain ⟨same, hands, played⟩ := h
      rw [note_stop hands.goes]
      exact ⟨same, hands.stop, played⟩
  | callBack rest =>
      have hands : u.Hands playFlag rest := h
      rw [note_stop hands.goes]
      exact hands.stop
  | write samples rest =>
      obtain ⟨hands, -⟩ := h
      rw [note_stop hands.goes]
      exact ⟨hands.stop, fun _ => documented.drop_setup pcm⟩
  | prepareAgain samples rest =>
      obtain ⟨hands, dry⟩ := h
      rw [note_stop hands.goes]
      exact ⟨hands.stop, dry⟩
  | writeAgain samples rest =>
      obtain ⟨hands, dry⟩ := h
      rw [note_stop hands.goes]
      exact ⟨hands.stop, dry⟩
  | returns rest =>
      obtain ⟨goes, -, sound, -⟩ := h
      rw [note_stop goes]
      exact ⟨goes, rfl, sound.stop, fun stays => by cases stays⟩
  | drain =>
      obtain ⟨goes, sound, -⟩ := h
      rw [note_stop goes]
      exact ⟨goes, sound.stop, fun stays => by cases stays⟩

/-- A device that has been dropped stays so until it is prepared. -/
theorem stage_moves (documented : alsa.Documented) {u : Utterance α} {s : Machine α π} {d : π}
    (h : Stage alsa u s) (moves : alsa.moves s.pcm d) : Stage alsa (u.note .moves) { s with pcm := d } := by
  obtain ⟨fifo, playFlag, speakerId, pcm, phase⟩ := s
  cases phase with
  | write samples rest => exact ⟨h.1, fun stopped => documented.moves_setup pcm d moves (h.2 stopped)⟩
  | _ => exact h

/-- What comes of the first write of a call. -/
theorem main_write {s t : Machine α π} {samples : α} {rest calls : List α} {e : Event α}
    (one : Machine.main alsa calls { s with phase := .write samples rest } = some (e, t)) :
    (e = .epipe ∧ t = { s with pcm := (alsa.writei s.pcm samples).2, phase := .prepareAgain samples rest }) ∨
    (e = .refused ∧ t = { s with pcm := (alsa.writei s.pcm samples).2, phase := .drain }) ∨
    (e = .play samples ∧ ¬ (alsa.writei s.pcm samples).1 < 0 ∧
      t = { s with pcm := (alsa.writei s.pcm samples).2, phase := .returns rest }) := by
  simp only [Machine.main] at one
  split at one
  · cases one
    exact .inl ⟨rfl, rfl⟩
  · split at one
    · cases one
      exact .inr (.inl ⟨rfl, rfl⟩)
    · rename_i taken
      cases one
      exact .inr (.inr ⟨rfl, taken, rfl⟩)

/-- What comes of the second one. -/
theorem main_writeAgain {s t : Machine α π} {samples : α} {rest calls : List α} {e : Event α}
    (one : Machine.main alsa calls { s with phase := .writeAgain samples rest } = some (e, t)) :
    (e = .refused ∧ t = { s with pcm := (alsa.writei s.pcm samples).2, phase := .drain }) ∨
    (e = .play samples ∧ t = { s with pcm := (alsa.writei s.pcm samples).2, phase := .returns rest }) := by
  simp only [Machine.main] at one
  split at one
  · cases one
    exact .inl ⟨rfl, rfl⟩
  · cases one
    exact .inr ⟨rfl, rfl⟩

/-- The device has taken a call while nothing was stopped. -/
theorem stage_play {u : Utterance α} {s : Machine α π} {samples : α} {rest : List α}
    (hands : u.Hands s.playFlag (samples :: rest)) (stays : u.stopped = false) (d : π) :
    Stage alsa (u.note (.play samples)) { s with pcm := d, phase := .returns rest } := by
  rw [note_play stays]
  exact ⟨hands.goes, hands.flag, hands.play.sound, fun _ => hands.play⟩

theorem stage_playLate {u : Utterance α} {s : Machine α π} {samples : α} {rest : List α}
    (hands : u.Hands s.playFlag (samples :: rest)) (stopped : u.stopped = true) (dry : u.dry = true) (d : π) :
    Stage alsa (u.note (.play samples)) { s with pcm := d, phase := .returns rest } := by
  rw [note_play_late stopped]
  exact ⟨hands.goes, hands.flag, hands.playLate stopped dry, fun stays => absurd (stopped.symm.trans stays) (by decide)⟩

/-- The device has refused a call, and the rest is not handed over any more. -/
theorem stage_refused {u : Utterance α} {s : Machine α π} {rest : List α} (hands : u.Hands s.playFlag rest) (d : π) :
    Stage alsa (u.note .refused) { s with pcm := d, phase := .drain } :=
  ⟨hands.goes, ⟨hands.sound.part, hands.sound.late, hands.sound.caught, fun _ _ took => by cases took⟩,
    fun _ took => by cases took⟩

theorem stage_callBack {u : Utterance α} {s : Machine α π} {rest : List α} (hands : u.Hands s.playFlag rest)
    {calls : List α} {e : Event α} {t : Machine α π}
    (one : Machine.main alsa calls { s with phase := .callBack rest } = some (e, t)) : Stage alsa (u.note e) t := by
  cases rest with
  | nil =>
      cases one
      have all := hands.split
      rw [List.append_nil] at all
      exact ⟨hands.goes, hands.sound, fun _ _ => all.symm⟩
  | cons samples rest =>
      have flag := hands.flag
      cases one
      cases stopped : u.stopped with
      | false =>
          rw [stopped, Bool.not_false] at flag
          rw [flag]
          rw [flag] at hands
          exact ⟨hands, fun other => absurd (stopped.symm.trans other) (by decide)⟩
      | true =>
          rw [stopped, Bool.not_true] at flag
          rw [flag]
          exact ⟨hands.goes, hands.sound, fun stays => absurd (stopped.symm.trans stays) (by decide)⟩

theorem stage_write (documented : alsa.Documented) {u : Utterance α} {s : Machine α π} {samples : α} {rest : List α}
    (hands : u.Hands s.playFlag (samples :: rest)) (dropped : u.stopped = true → alsa.setup s.pcm) {calls : List α}
    {e : Event α} {t : Machine α π}
    (one : Machine.main alsa calls { s with phase := .write samples rest } = some (e, t)) :
    Stage alsa (u.note e) t := by
  rcases main_write one with ⟨rfl, rfl⟩ | ⟨rfl, rfl⟩ | ⟨rfl, taken, rfl⟩
  · exact ⟨⟨hands.goes, hands.flag, hands.inTime, hands.split⟩, rfl⟩
  · exact stage_refused hands _
  · cases stopped : u.stopped with
    | false => exact stage_play hands stopped _
    | true => exact absurd (documented.writei_setup s.pcm samples (dropped stopped)) taken

theorem stage_writeAgain {u : Utterance α} {s : Machine α π} {samples : α} {rest : List α}
    (hands : u.Hands s.playFlag (samples :: rest)) (dry : u.dry = true) {calls : List α} {e : Event α}
    {t : Machine α π} (one : Machine.main alsa calls { s with phase := .writeAgain samples rest } = some (e, t)) :
    Stage alsa (u.note e) t := by
  rcases main_writeAgain one with ⟨rfl, rfl⟩ | ⟨rfl, rfl⟩
  · exact stage_refused hands _
  · cases stopped : u.stopped with
    | false => exact stage_play hands stopped _
    | true => exact stage_playLate hands stopped dry _

theorem stage_returns {u : Utterance α} {s : Machine α π} {rest : List α} (goes : u.ended = false)
    (flag : s.playFlag = !u.stopped) (sound : u.Sound) (hands : u.stopped = false → u.Hands s.playFlag rest)
    {calls : List α} {e : Event α} {t : Machine α π}
    (one : Machine.main alsa calls { s with phase := .returns rest } = some (e, t)) : Stage alsa (u.note e) t := by
  cases one
  cases stopped : u.stopped with
  | false =>
      have hands := hands stopped
      rw [stopped, Bool.not_false] at flag
      rw [flag]
      rw [flag] at hands
      exact hands
  | true =>
      rw [stopped, Bool.not_true] at flag
      rw [flag]
      exact ⟨goes, sound, fun stays => absurd (stopped.symm.trans stays) (by decide)⟩

/-- Not at `read`, which begins another utterance. -/
theorem stage_main (documented : alsa.Documented) {u : Utterance α} {s t : Machine α π} {calls : List α} {e : Event α}
    (h : Stage alsa u s) (one : s.main alsa calls = some (e, t)) (within : s.phase ≠ .read) :
    Stage alsa (u.note e) t := by
  obtain ⟨fifo, playFlag, speakerId, pcm, phase⟩ := s
  cases phase with
  | read => exact absurd rfl within
  | flag text =>
      obtain ⟨same, goes, calls, played, late⟩ := h
      cases one
      exact ⟨same, ⟨goes, rfl, late, by simp [Utterance.note, calls, played]⟩, played⟩
  | prepare text =>
      cases one
      exact h
  | generate text =>
      obtain ⟨same, hands, played⟩ := h
      cases one
      exact ⟨hands.goes, hands.flag, hands.inTime, by simp [Utterance.note, played]⟩
  | callBack rest => exact stage_callBack (s := ⟨fifo, playFlag, speakerId, pcm, .callBack rest⟩) h one
  | write samples rest =>
      exact stage_write documented (s := ⟨fifo, playFlag, speakerId, pcm, .write samples rest⟩) h.1 h.2 one
  | prepareAgain samples rest =>
      cases one
      exact h
  | writeAgain samples rest =>
      exact stage_writeAgain (s := ⟨fifo, playFlag, speakerId, pcm, .writeAgain samples rest⟩) h.1 h.2 one
  | returns rest =>
      obtain ⟨goes, flag, sound, hands⟩ := h
      exact stage_returns (s := ⟨fifo, playFlag, speakerId, pcm, .returns rest⟩) goes flag sound hands one
  | drain =>
      obtain ⟨goes, sound, whole⟩ := h
      cases one
      exact ⟨rfl, sound.part, sound.late, sound.caught, fun _ => whole⟩

theorem Stage.sound {u : Utterance α} {s : Machine α π} (h : Stage alsa u s) : u.Sound := by
  obtain ⟨fifo, playFlag, speakerId, pcm, phase⟩ := s
  cases phase with
  | read => exact h.2
  | flag text =>
      obtain ⟨-, goes, calls, played, late⟩ := h
      exact ⟨by simp [played, late], by simp [late], fun some_ => absurd late some_,
        fun ended => absurd (goes.symm.trans ended) (by decide)⟩
  | prepare text => exact h.2.1.sound
  | generate text => exact h.2.1.sound
  | callBack rest =>
      have hands : u.Hands playFlag rest := h
      exact hands.sound
  | write samples rest => exact h.1.sound
  | prepareAgain samples rest => exact h.1.sound
  | writeAgain samples rest => exact h.1.sound
  | returns rest => exact h.2.2.1
  | drain => exact h.2.1

theorem note_text (u : Utterance α) {e : Event α} (other : ∀ speakerId text calls, e ≠ .generate speakerId text calls) :
    (u.note e).text = u.text := by
  cases e with
  | generate speakerId text calls => exact absurd rfl (other speakerId text calls)
  | stop =>
      unfold Utterance.note
      dsimp only
      split <;> rfl
  | play samples =>
      unfold Utterance.note
      dsimp only
      split <;> rfl
  | _ => rfl

/-- The next statement of `main` begins no utterance, and leaves the fifo and the voice alone. -/
structure Within (s t : Machine α π) (e : Event α) : Prop where
  fifo : t.fifo = s.fifo
  speakerId : t.speakerId = s.speakerId
  taken : e.taken = none
  written : e.written = []
  turns : e.turns = 0
  own : e.beside = false

theorem main_read {s t : Machine α π} {calls : List α} {e : Event α} (one : s.main alsa calls = some (e, t))
    (read : s.phase = .read) :
    ∃ text fifo, pass s.fifo = some (text, fifo) ∧ e = .take text ∧ t = { s with fifo, phase := .flag text } := by
  rw [Machine.main, read] at one
  obtain ⟨⟨text, fifo⟩, passed, same⟩ := Option.map_eq_some_iff.mp one
  cases same
  exact ⟨text, fifo, passed, rfl, rfl⟩

theorem main_within {s t : Machine α π} {calls : List α} {e : Event α} (one : s.main alsa calls = some (e, t))
    (within : s.phase ≠ .read) : Within s t e := by
  obtain ⟨fifo, playFlag, speakerId, pcm, phase⟩ := s
  cases phase with
  | read => exact absurd rfl within
  | flag text => cases one; exact ⟨rfl, rfl, rfl, rfl, rfl, rfl⟩
  | prepare text => cases one; exact ⟨rfl, rfl, rfl, rfl, rfl, rfl⟩
  | generate text => cases one; exact ⟨rfl, rfl, rfl, rfl, rfl, rfl⟩
  | callBack rest => cases rest <;> (cases one; exact ⟨rfl, rfl, rfl, rfl, rfl, rfl⟩)
  | write samples rest =>
      rcases main_write (s := ⟨fifo, playFlag, speakerId, pcm, .write samples rest⟩) one with
        ⟨rfl, rfl⟩ | ⟨rfl, rfl⟩ | ⟨rfl, -, rfl⟩ <;> exact ⟨rfl, rfl, rfl, rfl, rfl, rfl⟩
  | prepareAgain samples rest => cases one; exact ⟨rfl, rfl, rfl, rfl, rfl, rfl⟩
  | writeAgain samples rest =>
      rcases main_writeAgain (s := ⟨fifo, playFlag, speakerId, pcm, .writeAgain samples rest⟩) one with
        ⟨rfl, rfl⟩ | ⟨rfl, rfl⟩ <;> exact ⟨rfl, rfl, rfl, rfl, rfl, rfl⟩
  | returns rest => cases one; exact ⟨rfl, rfl, rfl, rfl, rfl, rfl⟩
  | drain => cases one; exact ⟨rfl, rfl, rfl, rfl, rfl, rfl⟩

/-- The generator is given the text that was read, in the voice of the moment. -/
theorem main_generate {s t : Machine α π} {given calls : List α} {speakerId : Nat} {text : Bytes}
    (one : s.main alsa given = some (.generate speakerId text calls, t)) :
    s.phase = .generate text ∧ speakerId = s.speakerId := by
  obtain ⟨fifo, playFlag, voice, pcm, phase⟩ := s
  cases phase with
  | read =>
      obtain ⟨_, _, _, other, _⟩ := main_read one rfl
      cases other
  | flag text => cases one
  | prepare text => cases one
  | generate text =>
      cases one
      exact ⟨rfl, rfl⟩
  | callBack rest => cases rest <;> cases one
  | write samples rest =>
      rcases main_write (s := ⟨fifo, playFlag, voice, pcm, .write samples rest⟩) one with
        ⟨other, -⟩ | ⟨other, -⟩ | ⟨other, -⟩ <;> cases other
  | prepareAgain samples rest => cases one
  | writeAgain samples rest =>
      rcases main_writeAgain (s := ⟨fifo, playFlag, voice, pcm, .writeAgain samples rest⟩) one with
        ⟨other, -⟩ | ⟨other, -⟩ <;> cases other
  | returns rest => cases one
  | drain => cases one

theorem main_text {u : Utterance α} {s t : Machine α π} {calls : List α} {e : Event α} (h : Stage alsa u s)
    (one : s.main alsa calls = some (e, t)) : (u.note e).text = u.text := by
  by_cases made : ∃ speakerId text given, e = .generate speakerId text given
  · obtain ⟨speakerId, text, given, rfl⟩ := made
    obtain ⟨here, -⟩ := main_generate one
    unfold Stage at h
    rw [here] at h
    exact h.1.symm
  · exact note_text u fun speakerId text given same => made ⟨speakerId, text, given, same⟩

/-! ## A run -/

theorem log_snoc (es : List (Event α)) (e : Event α) : log (es ++ [e]) = noted (log es) e := by
  rw [log, List.foldl_append]
  rfl

theorem written_snoc (es : List (Event α)) (e : Event α) : written (es ++ [e]) = written es ++ e.written := by
  simp [written]

theorem texts_snoc (es : List (Event α)) (e : Event α) : texts (es ++ [e]) = texts es ++ e.taken.toList := by
  rw [texts, List.filterMap_append]
  cases e <;> rfl

theorem changes_snoc (es : List (Event α)) (e : Event α) : changes (es ++ [e]) = changes es + e.turns := by
  simp [changes]

theorem noted_nil {e : Event α} (none_ : e.taken = none) : noted [] e = [] := by
  cases e <;> first | rfl | cases none_

theorem noted_cons {e : Event α} (none_ : e.taken = none) (u : Utterance α) (us : List (Utterance α)) :
    noted (u :: us) e = u.note e :: us := by
  cases e <;> first | rfl | cases none_

theorem fifo_step {s t : Machine α π} {e : Event α} (clean : s.fifo = .start s.fifo.pipe) (one : Steps alsa s e t) :
    t.fifo = .start t.fifo.pipe ∧ (0 ∉ s.fifo.pipe → e.taken.toList.flatten ++ t.fifo.pipe = s.fifo.pipe ++ e.written) := by
  have beside : e.taken = none → t.fifo = .start (s.fifo.pipe ++ e.written) →
      t.fifo = .start t.fifo.pipe ∧ (0 ∉ s.fifo.pipe → e.taken.toList.flatten ++ t.fifo.pipe = s.fifo.pipe ++ e.written) := by
    intro taken fifo
    rw [taken, fifo]
    exact ⟨rfl, fun _ => rfl⟩
  have still : s.fifo = .start (s.fifo.pipe ++ []) := by
    rw [List.append_nil]
    exact clean
  cases one with
  | write more =>
      refine beside rfl ?_
      rw [clean]
      rfl
  | stop => exact beside rfl still
  | changeVoice => exact beside rfl still
  | moves d _ => exact beside rfl still
  | main calls one =>
      by_cases read : s.phase = .read
      · obtain ⟨text, fifo, passed, rfl, rfl⟩ := main_read one read
        have speaks : Speaks (.start s.fifo.pipe) text fifo := clean ▸ passed
        obtain ⟨-, piece, rfl⟩ := speaks_start.mp speaks
        refine ⟨rfl, fun free => ?_⟩
        rw [piece, cstr_eq_self fun inside => free (List.mem_of_mem_take inside)]
        exact (List.append_assoc _ [] _).trans ((List.take_append_drop 128 _).trans (List.append_nil _).symm)
      · obtain ⟨fifo, -, taken, nothing, -, -⟩ := main_within one read
        refine beside taken ?_
        rw [fifo, nothing]
        exact still

/-- What is read of a text without a zero byte is the text, in order. -/
theorem fifo_run {s t : Machine α π} {es : List (Event α)} (clean : s.fifo = .start s.fifo.pipe)
    (run : Trace (Steps alsa) s es t) :
    t.fifo = .start t.fifo.pipe ∧
      (0 ∉ s.fifo.pipe ++ written es → (texts es).flatten ++ t.fifo.pipe = s.fifo.pipe ++ written es) := by
  refine run.history_nil (I := fun past t => t.fifo = .start t.fifo.pipe ∧
    (0 ∉ s.fifo.pipe ++ written past → (texts past).flatten ++ t.fifo.pipe = s.fifo.pipe ++ written past)) ?_
    ⟨clean, fun _ => (List.append_nil _).symm⟩
  rintro past m e t ⟨clean, whole⟩ one
  obtain ⟨clean', moves⟩ := fifo_step clean one
  refine ⟨clean', fun free => ?_⟩
  rw [written_snoc, ← List.append_assoc, List.mem_append, not_or] at free
  have whole := whole free.1
  have apart : 0 ∉ m.fifo.pipe := fun inside => free.1 (whole ▸ List.mem_append_right _ inside)
  rw [texts_snoc, written_snoc, List.flatten_append, List.append_assoc, moves apart, ← List.append_assoc, whole,
    List.append_assoc]

theorem length_log (es : List (Event α)) : (log es).length = (texts es).length := by
  induction es using List.reverseRecOn with
  | nil => rfl
  | append_singleton es e ih =>
      rw [log_snoc, texts_snoc, List.length_append, ← ih]
      cases begins : e.taken with
      | some text =>
          cases e with
          | take text => rfl
          | _ => cases begins
      | none =>
          cases log es with
          | nil => rw [noted_nil begins]; rfl
          | cons u us => rw [noted_cons begins]; rfl

/-- What holds along a run, of the utterances up to the one that goes on. -/
structure Kept (alsa : Alsa α π) (es : List (Event α)) (s : Machine α π) : Prop where
  voice : s.speakerId = (1 + changes es) % 175
  given : (log es).map Utterance.text = (texts es).reverse
  quiet : log es = [] → s.phase = .read
  last : ∀ u us, log es = u :: us → Stage alsa u s ∧ ∀ v ∈ us, v.Sound ∧ v.ended = true

/-- An event that begins no utterance. -/
theorem Kept.goes {past : List (Event α)} {s t : Machine α π} {e : Event α} (h : Kept alsa past s)
    (taken : e.taken = none) (voice : t.speakerId = (s.speakerId + e.turns) % 175)
    (quiet : log past = [] → s.phase = .read → t.phase = .read)
    (follows : ∀ u, Stage alsa u s → Stage alsa (u.note e) t ∧ (u.note e).text = u.text) :
    Kept alsa (past ++ [e]) t := by
  refine ⟨?_, ?_, fun none_ => ?_, fun u us some_ => ?_⟩
  · rw [voice, h.voice, changes_snoc, ← Nat.add_assoc, Nat.mod_add_mod]
  · rw [log_snoc, texts_snoc, taken, Option.toList_none, List.append_nil, ← h.given]
    cases before : log past with
    | nil => rw [noted_nil taken]
    | cons u us => rw [noted_cons taken, List.map_cons, List.map_cons, (follows u (h.last u us before).1).2]
  · cases before : log past with
    | nil => exact quiet before (h.quiet before)
    | cons u us =>
        rw [log_snoc, before, noted_cons taken] at none_
        cases none_
  · cases before : log past with
    | nil =>
        rw [log_snoc, before, noted_nil taken] at some_
        cases some_
    | cons v vs =>
        obtain ⟨goes, others⟩ := h.last v vs before
        rw [log_snoc, before, noted_cons taken] at some_
        cases some_
        exact ⟨(follows v goes).1, others⟩

/-- A piece of the fifo is read. -/
theorem Kept.takes {past : List (Event α)} {s : Machine α π} (h : Kept alsa past s) (read : s.phase = .read)
    (text : Bytes) (fifo : State) : Kept alsa (past ++ [.take text]) { s with fifo, phase := .flag text } := by
  have now : log (past ++ [.take text]) = .begun text :: log past := log_snoc past _
  refine ⟨?_, ?_, fun none_ => ?_, fun u us here => ?_⟩
  · rw [h.voice, changes_snoc]
    rfl
  · rw [now, texts_snoc, List.reverse_append, ← h.given]
    rfl
  · rw [now] at none_
    cases none_
  · rw [now] at here
    cases here
    refine ⟨⟨rfl, rfl, rfl, rfl, rfl⟩, fun v member => ?_⟩
    cases before : log past with
    | nil =>
        rw [before] at member
        cases member
    | cons u us =>
        obtain ⟨stage, others⟩ := h.last u us before
        unfold Stage at stage
        rw [read] at stage
        rw [before] at member
        rcases List.mem_cons.mp member with rfl | member
        · exact ⟨stage.2, stage.1⟩
        · exact others v member

theorem kept_step (documented : alsa.Documented) {past : List (Event α)} {s t : Machine α π} {e : Event α}
    (h : Kept alsa past s) (one : Steps alsa s e t) : Kept alsa (past ++ [e]) t := by
  have same : s.speakerId = (s.speakerId + 0) % 175 := by
    rw [Nat.add_zero, h.voice, Nat.mod_mod]
  cases one with
  | write more => exact h.goes rfl same (fun _ read => read) fun u stage => ⟨stage, rfl⟩
  | stop =>
      exact h.goes rfl same (fun _ read => read) fun u stage =>
        ⟨stage_stop documented stage, note_text u fun _ _ _ other => by cases other⟩
  | changeVoice => exact h.goes rfl rfl (fun _ read => read) fun u stage => ⟨stage, rfl⟩
  | moves d moves =>
      exact h.goes rfl same (fun _ read => read) fun u stage => ⟨stage_moves documented stage moves, rfl⟩
  | main calls one =>
      by_cases read : s.phase = .read
      · obtain ⟨text, fifo, passed, rfl, rfl⟩ := main_read one read
        exact h.takes read text fifo
      · obtain ⟨-, speakerId, taken, -, turns, -⟩ := main_within one read
        refine h.goes taken ?_ (fun _ now => absurd now read) fun u stage => ?_
        · rw [speakerId, turns]
          exact same
        · exact ⟨stage_main documented stage one read, main_text stage one⟩

theorem kept_run (documented : alsa.Documented) {d : π} {es : List (Event α)} {s : Machine α π}
    (run : Trace (Steps alsa) (.start d) es s) : Kept alsa es s := by
  refine run.history_nil (I := Kept alsa) (fun past s e t h one => kept_step documented h one) ?_
  refine ⟨rfl, rfl, fun _ => rfl, fun u us some_ => ?_⟩
  cases some_

theorem Kept.sound {es : List (Event α)} {s : Machine α π} (h : Kept alsa es s) {u : Utterance α}
    (member : u ∈ log es) : u.Sound := by
  cases here : log es with
  | nil =>
      rw [here] at member
      cases member
  | cons v vs =>
      obtain ⟨stage, others⟩ := h.last v vs here
      rw [here] at member
      rcases List.mem_cons.mp member with rfl | member
      · exact stage.sound
      · exact (others u member).1

/-- Whatever signals come and when: the generator is given the text in the fifo piece
by piece, each in the voice as often changed as the signal has come before, and a stop
cuts off no more than the piece it comes in. -/
theorem spoken_pieces (documented : alsa.Documented) {d : π} {es : List (Event α)} {s : Machine α π}
    (run : Trace (Steps alsa) (.start d) es s) :
    (log es).map Utterance.text = (texts es).reverse ∧
      (0 ∉ written es → (texts es).flatten ++ s.fifo.pipe = written es) ∧
      (∀ before speakerId text calls after, es = before ++ .generate speakerId text calls :: after →
        speakerId = (1 + changes before) % 175) ∧
      ∀ u ∈ log es, u.Sound := by
  have kept := kept_run documented run
  refine ⟨kept.given, (fifo_run (s := .start d) rfl run).2, ?_, fun u member => kept.sound member⟩
  rintro before speakerId text calls after rfl
  obtain ⟨m, front, back⟩ := run.split
  cases back with
  | cons one _ =>
      cases one with
      | main given one =>
          rw [(main_generate one).2]
          exact (kept_run documented front).voice

/-- A device that answers as alsa-lib does: a call of `n` frames is taken where the device
is prepared or plays, and `-EPIPE` where it has run dry. -/
inductive Pcm
  | setup
  | prepared
  | running
  | xrun

def card : Alsa Nat Pcm where
  setup d := d = .setup
  prepare _ := .prepared
  writei d n := match d with
    | .setup => (-77, .setup)
    | .xrun => (-epipe, .xrun)
    | _ => (n, .running)
  drop _ := .setup
  drain _ := .setup
  moves d d' := d = .running ∧ d' = .xrun

theorem card_documented : card.Documented := by
  refine ⟨fun d => rfl, fun d n setup => ?_, fun d d' moves setup => ?_⟩
  · have setup : d = .setup := setup
    rw [setup]
    exact show (-77 : Int) < 0 by decide
  · exact absurd (moves.1.symm.trans setup) (by simp)

/-- A stop that is lost, and one between the two writes of a call. -/
def twoStops : List (Event Nat) :=
  [.write [97], .take [97], .stop, .flag, .work, .generate 1 [97] [10, 20], .work, .play 10, .work, .work, .play 20,
    .work, .work, .drain, .changeVoice, .write [98], .take [98], .flag, .work, .generate 2 [98] [30, 40, 50], .work,
    .play 30, .work, .moves, .work, .epipe, .stop, .work, .play 40, .work, .drain]

theorem pass_short {text : Bytes} (some_ : text ≠ []) (short : text.length ≤ 128) (free : 0 ∉ text) :
    pass (.start text) = some (text, .start []) := by
  have speaks : Speaks (.start text) text (.start []) := by
    refine speaks_start.mpr ⟨some_, ?_, ?_⟩
    · rw [List.take_of_length_le short, cstr_eq_self free]
    · rw [List.drop_of_length_le short]
  exact speaks

theorem main_pass {s : Machine α π} {text : Bytes} {fifo : State} (read : s.phase = .read)
    (passed : pass s.fifo = some (text, fifo)) (calls : List α) :
    s.main alsa calls = some (.take text, { s with fifo, phase := .flag text }) := by
  rw [Machine.main, read]
  simp only [passed, Option.map_some]

theorem twoStops_first : Trace (Steps card) (.start .prepared) (twoStops.take 14) ⟨.start [], true, 1, .setup, .read⟩ := by
  have passed := pass_short (show ([97] : Bytes) ≠ [] by decide) (by decide) (by decide)
  exact .cons (.write [97]) <| .cons (.main [] (main_pass rfl passed [])) <| .cons .stop <| .cons (.main [] rfl) <|
    .cons (m := ⟨.start [], true, 1, .prepared, .generate [97]⟩) (.main [] rfl) <| .cons (.main [10, 20] rfl) <|
    .cons (.main [] rfl) <| .cons (m := ⟨.start [], true, 1, .running, .returns [20]⟩) (.main [] rfl) <|
    .cons (.main [] rfl) <| .cons (.main [] rfl) <|
    .cons (m := ⟨.start [], true, 1, .running, .returns []⟩) (.main [] rfl) <| .cons (.main [] rfl) <|
    .cons (.main [] rfl) <| .cons (.main [] rfl) (.nil _)

theorem twoStops_second :
    Trace (Steps card) ⟨.start [], true, 1, .setup, .read⟩ (twoStops.drop 14) ⟨.start [], false, 2, .setup, .read⟩ := by
  have passed := pass_short (show ([98] : Bytes) ≠ [] by decide) (by decide) (by decide)
  exact .cons .changeVoice <| .cons (.write [98]) <| .cons (.main [] (main_pass rfl passed [])) <|
    .cons (.main [] rfl) <| .cons (m := ⟨.start [], true, 2, .prepared, .generate [98]⟩) (.main [] rfl) <|
    .cons (.main [30, 40, 50] rfl) <| .cons (.main [] rfl) <|
    .cons (m := ⟨.start [], true, 2, .running, .returns [40, 50]⟩) (.main [] rfl) <| .cons (.main [] rfl) <|
    .cons (.moves .xrun ⟨rfl, rfl⟩) <| .cons (.main [] rfl) <|
    .cons (m := ⟨.start [], true, 2, .xrun, .prepareAgain 40 [50]⟩) (.main [] rfl) <| .cons .stop <|
    .cons (m := ⟨.start [], false, 2, .prepared, .writeAgain 40 [50]⟩) (.main [] rfl) <|
    .cons (m := ⟨.start [], false, 2, .running, .returns [50]⟩) (.main [] rfl) <| .cons (.main [] rfl) <|
    .cons (.main [] rfl) (.nil _)

theorem twoStops_run : Trace (Steps card) (.start .prepared) twoStops ⟨.start [], false, 2, .setup, .read⟩ :=
  twoStops_first.append twoStops_second

theorem two_stops_spoken :
    log twoStops = [⟨[98], [30, 40, 50], [30], [40], false, true, true, false, true⟩,
        ⟨[97], [10, 20], [10, 20], [], true, false, false, false, true⟩] ∧
      (texts twoStops).flatten ++ [] = [97, 98] ∧ 2 = (1 + changes (twoStops.take 19)) % 175 ∧
      ∀ u ∈ log twoStops, u.Sound := by
  obtain ⟨-, whole, voice, sound⟩ := spoken_pieces card_documented twoStops_run
  exact ⟨rfl, whole (by decide), voice (twoStops.take 19) 2 [98] [30, 40, 50] (twoStops.drop 20) rfl, sound⟩

/-! ## What is left in the fifo -/

/-- What later steps note stands before what was noted earlier. -/
theorem log_append (past later : List (Event α)) : ∃ us, log (past ++ later) = log later ++ us := by
  induction later using List.reverseRecOn with
  | nil => exact ⟨log past, by rw [List.append_nil]; rfl⟩
  | append_singleton later e ih =>
      obtain ⟨us, same⟩ := ih
      rw [← List.append_assoc, log_snoc, log_snoc, same]
      cases begins : e.taken with
      | some text =>
          cases e with
          | take text => exact ⟨us, rfl⟩
          | _ => cases begins
      | none =>
          cases log later with
          | nil => exact ⟨noted us e, by rw [noted_nil begins]; rfl⟩
          | cons u vs => exact ⟨us, by rw [List.cons_append, noted_cons begins, noted_cons begins, List.cons_append]⟩

theorem note_stopped {u : Utterance α} {e : Event α} (stays : u.stopped = false) (other : e ≠ .stop) :
    (u.note e).stopped = false := by
  cases e with
  | stop => exact absurd rfl other
  | flag => rfl
  | play samples =>
      rw [note_play stays]
      exact stays
  | _ => exact stays

theorem not_stopped {es : List (Event α)} (quiet : .stop ∉ es) : ∀ u ∈ log es, u.stopped = false := by
  induction es using List.reverseRecOn with
  | nil => exact fun u member => absurd member List.not_mem_nil
  | append_singleton es e ih =>
      rw [List.mem_append, not_or, List.mem_singleton] at quiet
      have ih := ih quiet.1
      rw [log_snoc]
      cases begins : e.taken with
      | some text =>
          cases e with
          | take text => exact List.forall_mem_cons.mpr ⟨rfl, ih⟩
          | _ => cases begins
      | none =>
          cases here : log es with
          | nil =>
              rw [noted_nil begins]
              exact fun u member => absurd member List.not_mem_nil
          | cons u us =>
              rw [here, List.forall_mem_cons] at ih
              rw [noted_cons begins, List.forall_mem_cons]
              exact ⟨note_stopped ih.1 fun same => quiet.2 same.symm, ih.2⟩

/-- `main` goes on, after whatever signals have come, and nothing more is written. -/
def Goes (alsa : Alsa α π) (s t : Machine α π) : Prop :=
  ∃ es m calls e, Trace (Steps alsa) s es m ∧ (∀ e ∈ es, e.beside = true) ∧ m.main alsa calls = some (e, t)

def AtRest (s : Machine α π) : Prop := s.phase = .read ∧ s.fifo.pipe = []

/-- How far `main` is from `read`: the statements up to the calls, and what is left of these. -/
def Phase.left : Phase α → ℕ × ℕ
  | .read => (0, 0)
  | .flag _ => (4, 0)
  | .prepare _ => (3, 0)
  | .generate _ => (2, 0)
  | .callBack rest => (1, 5 * rest.length + 1)
  | .write _ rest => (1, 5 * rest.length + 5)
  | .prepareAgain _ rest => (1, 5 * rest.length + 4)
  | .writeAgain _ rest => (1, 5 * rest.length + 3)
  | .returns rest => (1, 5 * rest.length + 2)
  | .drain => (1, 0)

def Machine.left (s : Machine α π) : ℕ × ℕ × ℕ := (s.fifo.pipe.length, s.phase.left)

def Nearer : ℕ × ℕ → ℕ × ℕ → Prop := Prod.Lex (· < ·) (· < ·)

def Less : ℕ × ℕ × ℕ → ℕ × ℕ × ℕ → Prop := Prod.Lex (· < ·) Nearer

theorem less_wf : WellFounded Less :=
  WellFounded.prod_lex Nat.lt_wfRel.wf (WellFounded.prod_lex Nat.lt_wfRel.wf Nat.lt_wfRel.wf)

/-- A statement of `main` that reads nothing. -/
theorem main_nearer {s t : Machine α π} {calls : List α} {e : Event α} (one : s.main alsa calls = some (e, t))
    (within : s.phase ≠ .read) : Nearer t.phase.left s.phase.left := by
  obtain ⟨fifo, playFlag, speakerId, pcm, phase⟩ := s
  have calls_left {k n : ℕ} (fewer : k < n) : Nearer (1, k) (1, n) := Prod.Lex.right 1 fewer
  cases phase with
  | read => exact absurd rfl within
  | flag text =>
      cases one
      exact Prod.Lex.left _ _ (by decide)
  | prepare text =>
      cases one
      exact Prod.Lex.left _ _ (by decide)
  | generate text =>
      cases one
      exact Prod.Lex.left _ _ (by decide)
  | callBack rest =>
      cases rest with
      | nil =>
          cases one
          exact calls_left (Nat.succ_pos _)
      | cons samples rest =>
          have more : (samples :: rest).length = rest.length + 1 := rfl
          cases playFlag <;> (cases one; exact calls_left (by omega))
  | write samples rest =>
      rcases main_write (s := ⟨fifo, playFlag, speakerId, pcm, .write samples rest⟩) one with
        ⟨-, rfl⟩ | ⟨-, rfl⟩ | ⟨-, -, rfl⟩ <;> exact calls_left (by omega)
  | prepareAgain samples rest =>
      cases one
      exact calls_left (by omega)
  | writeAgain samples rest =>
      rcases main_writeAgain (s := ⟨fifo, playFlag, speakerId, pcm, .writeAgain samples rest⟩) one with
        ⟨-, rfl⟩ | ⟨-, rfl⟩ <;> exact calls_left (by omega)
  | returns rest => cases playFlag <;> (cases one; exact calls_left (by omega))
  | drain =>
      cases one
      exact Prod.Lex.left _ _ (by decide)

theorem pass_shorter {s t : State} {text : Bytes} (passed : pass s = some (text, t)) :
    t.pipe.length < s.pipe.length := by
  unfold pass at passed
  split at passed
  · cases passed
  · rename_i some_
    cases passed
    have := List.length_pos_iff.mpr some_
    dsimp only
    rw [List.length_drop]
    omega

theorem main_down {s t : Machine α π} {calls : List α} {e : Event α} (one : s.main alsa calls = some (e, t)) :
    Less t.left s.left := by
  by_cases read : s.phase = .read
  · obtain ⟨text, fifo, passed, rfl, rfl⟩ := main_read one read
    exact Prod.Lex.left _ _ (pass_shorter passed)
  · have nearer := main_nearer one read
    unfold Machine.left
    rw [(main_within one read).fifo]
    exact Prod.Lex.right _ nearer

theorem main_none {s : Machine α π} {calls : List α} (none_ : s.main alsa calls = none) : AtRest s := by
  obtain ⟨fifo, playFlag, speakerId, pcm, phase⟩ := s
  cases phase with
  | read =>
      refine ⟨rfl, ?_⟩
      have nothing : pass fifo = none := Option.map_eq_none_iff.mp none_
      unfold pass at nothing
      split at nothing
      · assumption
      · cases nothing
  | callBack rest => cases rest <;> cases none_
  | write samples rest =>
      simp only [Machine.main] at none_
      split at none_
      · cases none_
      · split at none_ <;> cases none_
  | writeAgain samples rest =>
      simp only [Machine.main] at none_
      split at none_ <;> cases none_
  | _ => cases none_

theorem left_step {s t : Machine α π} {e : Event α} (one : Steps alsa s e t) (beside : e.beside = true) :
    t.left = s.left := by
  cases one with
  | write more => cases beside
  | stop => rfl
  | changeVoice => rfl
  | moves d _ => rfl
  | main calls one =>
      by_cases read : s.phase = .read
      · obtain ⟨text, fifo, -, rfl, -⟩ := main_read one read
        cases beside
      · exact absurd ((main_within one read).own.symm.trans beside) (by decide)

theorem beside_left {s t : Machine α π} {es : List (Event α)} (run : Trace (Steps alsa) s es t)
    (beside : ∀ e ∈ es, e.beside = true) : t.left = s.left := by
  induction run with
  | nil s => rfl
  | cons one _ ih =>
      rw [List.forall_mem_cons] at beside
      rw [ih beside.2]
      exact left_step one beside.1

/-- However many calls the generator makes and whatever signals come, `main` gets to the
end of what is in the fifo. -/
theorem rest_inevitable (s : Machine α π) : Inevitable (Goes alsa) AtRest s := by
  refine inevitable less_wf Machine.left ?_ ?_ s
  · rintro s t ⟨es, m, calls, e, run, beside, one⟩
    rw [← beside_left run beside]
    exact main_down one
  · intro s stuck
    cases goes : s.main alsa [] with
    | none => exact main_none goes
    | some step =>
        exact absurd ⟨[], s, [], step.1, .nil s, nofun, goes⟩ (stuck step.2)

/-- A stop silences no more than the piece it comes in: as long as no other one comes,
all that is left in the fifo, and all that is written to it, is spoken whole, and
nothing keeps `main` from the end of it. -/
theorem rest_is_spoken (documented : alsa.Documented) {d : π} {past : List (Event α)} {s : Machine α π}
    (run : Trace (Steps alsa) (.start d) past s) :
    (∀ later t, Trace (Steps alsa) s later t → .stop ∉ later →
      (0 ∉ s.fifo.pipe ++ written later → (texts later).flatten ++ t.fifo.pipe = s.fifo.pipe ++ written later) ∧
      (log later).map Utterance.text = (texts later).reverse ∧
      ∀ u ∈ log later, u.late = [] ∧ u.played <+: u.calls ∧
        (u.ended = true → u.refused = false → u.played = u.calls)) ∧
    Inevitable (Goes alsa) AtRest s := by
  have clean : s.fifo = .start s.fifo.pipe := (fifo_run (s := .start d) rfl run).1
  refine ⟨fun later t rest quiet => ⟨(fifo_run clean rest).2, ?_, ?_⟩, rest_inevitable s⟩
  · obtain ⟨us, same⟩ := log_append past later
    have given := (kept_run documented (run.append rest)).given
    rw [same, List.map_append, texts, List.filterMap_append, List.reverse_append] at given
    refine (List.append_inj given ?_).1
    rw [List.length_map, List.length_reverse]
    exact length_log later
  · intro u member
    obtain ⟨us, same⟩ := log_append past later
    have sound : u.Sound := (kept_run documented (run.append rest)).sound (same ▸ List.mem_append_left us member)
    have stays := not_stopped quiet u member
    have inTime : u.late = [] := by
      by_contra some_
      exact absurd ((sound.caught some_).1.symm.trans stays) (by decide)
    have part := sound.part
    rw [inTime, List.append_nil] at part
    exact ⟨inTime, part, fun ended => sound.whole ended stays⟩

/-- What is left of a text of 130 bytes after a stop in its first piece. -/
def twoLeft : Machine Nat Pcm := ⟨.start [97, 97], false, 1, .setup, .read⟩

def twoLeftPast : List (Event Nat) :=
  [.write (List.replicate 130 97), .take (List.replicate 128 97), .flag, .work,
    .generate 1 (List.replicate 128 97) [10, 20], .stop, .work, .drain]

def twoLeftLater : List (Event Nat) :=
  [.take [97, 97], .flag, .work, .generate 1 [97, 97] [30], .work, .play 30, .work, .work, .drain]

theorem twoLeft_past : Trace (Steps card) (.start .prepared) twoLeftPast twoLeft := by
  have speaks : Speaks (.start (List.replicate 130 97)) (List.replicate 128 97) (.start [97, 97]) := by
    refine speaks_start.mpr ⟨by decide, ?_, rfl⟩
    rw [List.take_replicate, cstr_eq_self]
    · rfl
    · simp
  have passed : pass (.start (List.replicate 130 97)) = some (List.replicate 128 97, .start [97, 97]) := speaks
  exact .cons (.write (List.replicate 130 97)) <| .cons (.main [] (main_pass rfl passed [])) <|
    .cons (.main [] rfl) <| .cons (.main [] rfl) <| .cons (.main [10, 20] rfl) <| .cons .stop <|
    .cons (.main [] rfl) <| .cons (.main [] rfl) (.nil _)

theorem twoLeft_later : Trace (Steps card) twoLeft twoLeftLater ⟨.start [], true, 1, .setup, .read⟩ := by
  have passed := pass_short (show ([97, 97] : Bytes) ≠ [] by decide) (by decide) (by decide)
  exact .cons (.main [] (main_pass rfl passed [])) <| .cons (.main [] rfl) <|
    .cons (m := ⟨.start [], true, 1, .prepared, .generate [97, 97]⟩) (.main [] rfl) <| .cons (.main [30] rfl) <|
    .cons (.main [] rfl) <| .cons (m := ⟨.start [], true, 1, .running, .returns []⟩) (.main [] rfl) <|
    .cons (.main [] rfl) <| .cons (.main [] rfl) <| .cons (.main [] rfl) (.nil _)

theorem two_left_spoken :
    (texts twoLeftLater).flatten ++ [] = twoLeft.fifo.pipe ++ [] ∧ (log twoLeftLater).map Utterance.text = [[97, 97]] ∧
      (∀ u ∈ log twoLeftLater, u.late = [] ∧ u.played <+: u.calls ∧
        (u.ended = true → u.refused = false → u.played = u.calls)) ∧
      log twoLeftLater = [⟨[97, 97], [30], [30], [], false, false, false, false, true⟩] ∧
      Inevitable (Goes card) AtRest twoLeft := by
  obtain ⟨spoken, ends⟩ := rest_is_spoken card_documented twoLeft_past
  obtain ⟨whole, given, sound⟩ := spoken twoLeftLater _ twoLeft_later (by simp [twoLeftLater])
  exact ⟨whole (by decide), given, sound, rfl, ends⟩

end MusicPlayer.Tts.Signals
