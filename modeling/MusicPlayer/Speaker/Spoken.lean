import MusicPlayer.Speaker.Modes
import MusicPlayer.Speaker.Playing
import MusicPlayer.Speaker.Voice
import Mathlib.Data.List.ReduceOption

/-! Talking to the speaker: the recogniser listens by turns for its keyword and
for an utterance, and the speaker carries out the phrases it reads. -/
namespace MusicPlayer.Speaker.Voice
open CBytes Program Runs

variable (j : JsonC)

/-! ## The recogniser's loop -/

/-- `STATE_KWS` and `STATE_ASR`. -/
inductive AppState
  | kws
  | asr
  deriving DecidableEq

/-- A text of the recogniser that `read` takes in one piece. -/
structure Text where
  text : Bytes
  short : text.length ≤ 255
  noNul : 0 ∉ text

/-- What the two recognisers make of the samples of one pass. -/
structure Frame where
  keyword : Option Bytes
  endpoint : Bool
  text : Option Text

/-- What `SherpaKws` writes; it returns 1 exactly when it does. -/
def sherpaKws (f : Frame) : Option Heard :=
  match f.keyword with
  | some keyword => if keyword = [] then none else some .keyword
  | none => none

/-- What `SherpaAsr` writes; it returns 1 exactly when it does. -/
def sherpaAsr (f : Frame) : Option Heard :=
  if f.endpoint then
    match f.text with
    | some t => if some_ : t.text = [] then none
        else some (.utterance ⟨t.text, List.length_pos_iff.mpr some_, t.short, t.noNul⟩)
    | none => none
  else none

/-- A pass of the loop in `main`, with what it writes; `none` where `snd_pcm_readi` fails. -/
def pass (s : AppState) (f : Option Frame) : AppState × Option Heard :=
  match f, s with
  | none, s => (s, none)
  | some f, .asr =>
      match sherpaAsr f with
      | some h => (.kws, some h)
      | none => (.asr, none)
  | some f, .kws =>
      match sherpaKws f with
      | some h => (.asr, some h)
      | none => (.kws, none)

theorem sherpaKws_keyword {f : Frame} {h : Heard} (heard : sherpaKws f = some h) : h = .keyword := by
  unfold sherpaKws at heard
  split at heard
  · split at heard
    · cases heard
    · cases heard
      rfl
  · cases heard

theorem sherpaAsr_utterance {f : Frame} {h : Heard} (heard : sherpaAsr f = some h) : h ≠ .keyword := by
  unfold sherpaAsr at heard
  split at heard
  · split at heard
    · split at heard
      · cases heard
      · cases heard
        simp
    · cases heard
  · cases heard

/-- What is written in a state is a keyword or an utterance, and changes the state. -/
theorem pass_heard {s t : AppState} {f : Option Frame} {h : Heard} (heard : pass s f = (t, some h)) :
    (h = .keyword ↔ s = .kws) ∧ (t = .kws ↔ s ≠ .kws) := by
  cases f with
  | none => cases heard
  | some f =>
      cases s with
      | asr =>
          dsimp only [pass] at heard
          split at heard
          next said =>
            cases heard
            exact ⟨iff_of_false (sherpaAsr_utterance said) (by decide), by decide⟩
          next => cases heard
      | kws =>
          dsimp only [pass] at heard
          split at heard
          next said =>
            cases heard
            exact ⟨iff_of_true (sherpaKws_keyword said) rfl, by decide⟩
          next => cases heard

theorem pass_silent {s t : AppState} {f : Option Frame} (silent : pass s f = (t, none)) : t = s := by
  cases f with
  | none =>
      cases silent
      rfl
  | some f =>
      cases s with
      | asr =>
          dsimp only [pass] at silent
          split at silent
          · cases silent
          · cases silent
            rfl
      | kws =>
          dsimp only [pass] at silent
          split at silent
          · cases silent
          · cases silent
            rfl

/-! ## What the speaker does with a phrase -/

/-- The calls of a branch of `ProcessAsrSignal` on the player. The two switches are not among them. -/
def Command.code : Command → Option (Memory → Code)
  | .wake => some Speaker.suspendPlay
  | .startPlay => some Speaker.startPlay
  | .stopPlay => some Speaker.stopPlay
  | .suspendPlay => some Speaker.suspendPlay
  | .continuePlay => some Speaker.continuePlay
  | .nextPlay => some (Speaker.nextPlay j)
  | .prevPlay => some Speaker.prevPlay
  | .upVolume => some Speaker.upVolume
  | .downVolume => some Speaker.downVolume
  | .circlePlay => some Speaker.circlePlay
  | .sequencePlay => some Speaker.sequencePlay
  | .singer name => some fun s => (Speaker.stopPlay s).andThen fun s =>
      (getMusicName j name s).andThen Speaker.startPlay
  | .changeVoive => some .done
  | .askForNetwork => some .done
  | .qianwen _ => some .done
  | .changeOfflineMode => none
  | .changeOnlineMode => none

/-- What a branch gives to `ReplyKeyWords`. -/
def Command.words : Command → Option String
  | .wake => some "老大我在"
  | .changeVoive => some "好的,以后我就用这个声音跟你交流。"
  | .askForNetwork => some "请先连接网络后切换至在线模式"
  | _ => none

/-- The branch is carried out, by a speaker that does nothing else meanwhile. -/
inductive Carries (s : Station) : Command → Station → Prop
  | code {c : Command} {run : Memory → Code} {m : Memory} : c.code j = some run → Ends (run s.memory) m →
      Carries s c { s with memory := m, said := s.said ++ (c.words.map lit).toList }
  | offline (w : Surroundings) {t : Station} : Speaker.changeOfflineMode j w s = .ok t →
      Carries s .changeOfflineMode t
  | online (w : Surroundings) {t : Station} : Speaker.changeOnlineMode j w s = .ok t → Carries s .changeOnlineMode t

/-- What a branch makes of the music. -/
def Command.effect (deviceMode : DeviceMode) : Command → Playing → Playing
  | .wake => Playing.pause
  | .startPlay => fun _ => .playing
  | .stopPlay => fun _ => .stopped
  | .suspendPlay => Playing.pause
  | .continuePlay => Playing.resume
  | .nextPlay => Playing.resume
  | .prevPlay => Playing.resume
  | .singer _ => fun _ => .playing
  | .changeOfflineMode => if deviceMode = .offline then id else fun _ => .stopped
  | .changeOnlineMode => if deviceMode = .online then id else fun _ => .stopped
  | _ => id

/-- The branches that may start music that does not play. -/
def Command.Plays : Command → Prop
  | .startPlay => True
  | .continuePlay => True
  | .nextPlay => True
  | .prevPlay => True
  | .singer _ => True
  | _ => False

theorem pause_ne_playing (p : Playing) : p.pause ≠ .playing := by
  cases p <;> decide

theorem plays_of_effect {c : Command} {deviceMode : DeviceMode} {p : Playing} (silent : p ≠ .playing)
    (plays : c.effect deviceMode p = .playing) : c.Plays := by
  have paused := pause_ne_playing p
  have switched : ∀ other, (if deviceMode = other then id else fun _ => Playing.stopped) p ≠ .playing := by
    intro other
    split
    · exact silent
    · simp
  cases c with
  | startPlay => trivial
  | continuePlay => trivial
  | nextPlay => trivial
  | prevPlay => trivial
  | singer name => trivial
  | wake => exact absurd plays paused
  | suspendPlay => exact absurd plays paused
  | stopPlay => cases plays
  | changeOfflineMode => exact absurd plays (switched _)
  | changeOnlineMode => exact absurd plays (switched _)
  | _ => exact absurd plays silent

theorem run_does {f : Playing → Playing} {run : Memory → Code} (does : Does f run) {w : Surroundings} {s t : Station}
    {p : Playing} (stands : Stands p s.memory) (h : s.run w run = .ok t) : Stands (f p) t.memory := by
  obtain ⟨m, ran, same⟩ := Except.bind_eq_ok.mp h
  cases same
  exact does stands (ends_of_eval ran)

theorem code_does {c : Command} {run : Memory → Code} (known : c.code j = some run) (deviceMode : DeviceMode) :
    Does (c.effect deviceMode) run := by
  cases c with
  | wake => cases known; exact suspendPlay_does
  | startPlay => cases known; exact startPlay_does
  | stopPlay => cases known; exact stopPlay_does
  | suspendPlay => cases known; exact suspendPlay_does
  | continuePlay => cases known; exact continuePlay_does
  | nextPlay => cases known; exact nextPlay_does j
  | prevPlay => cases known; exact prevPlay_does
  | upVolume => cases known; exact upVolume_does
  | downVolume => cases known; exact downVolume_does
  | circlePlay => cases known; exact setMode_does circle
  | sequencePlay => cases known; exact setMode_does sequence
  | singer name => cases known; exact stopPlay_does.andThen (replay_does j name)
  | changeVoive => cases known; exact does_done
  | askForNetwork => cases known; exact does_done
  | qianwen signal => cases known; exact does_done
  | changeOfflineMode => cases known
  | changeOnlineMode => cases known

theorem clearFlags_stands (s : Station) : Stands .stopped s.clearFlags.memory := ⟨rfl, rfl⟩

/-- A switch that does not find the mode already set leaves a speaker that stands still. -/
theorem changeOfflineMode_stands {w : Surroundings} {s t : Station} {p : Playing} (stands : Stands p s.memory)
    (h : Speaker.changeOfflineMode j w s = .ok t) :
    Stands (Command.changeOfflineMode.effect s.memory.deviceMode p) t.memory := by
  unfold Speaker.changeOfflineMode at h
  simp only [Command.effect]
  split at h
  next already =>
    cases h
    rw [if_pos already]
    exact stands
  next other =>
    rw [if_neg other]
    obtain ⟨u, -, load⟩ := Except.bind_eq_ok.mp h
    unfold loadFromUsb at load
    split at load
    · cases load
      exact clearFlags_stands u
    · obtain ⟨v, listed, said⟩ := Except.bind_eq_ok.mp load
      cases said
      have kept : Stands .stopped v.memory :=
        run_does (getMusicName_does j offlineSinger) (by exact clearFlags_stands u) listed
      exact kept

theorem connectLoop_stands {w : Surroundings} {p : Playing} (left : Nat) (connectRet : Int) {s : Station}
    (stands : Stands p s.memory) : Stands p (connectLoop w left connectRet s).2.memory := by
  induction left generalizing connectRet with
  | zero => exact stands
  | succ left ih =>
      rw [connectLoop]
      split
      · exact ih (-1)
      · exact ⟨stands.started, stands.suspended⟩

theorem changeOnlineMode_stands {w : Surroundings} {s t : Station} {p : Playing} (stands : Stands p s.memory)
    (h : Speaker.changeOnlineMode j w s = .ok t) :
    Stands (Command.changeOnlineMode.effect s.memory.deviceMode p) t.memory := by
  unfold Speaker.changeOnlineMode at h
  simp only [Command.effect]
  split at h
  next already =>
    cases h
    rw [if_pos already]
    exact stands
  next other =>
    rw [if_neg other]
    obtain ⟨u, -, load⟩ := Except.bind_eq_ok.mp h
    obtain ⟨v, listed, said⟩ := Except.bind_eq_ok.mp load
    cases said
    have connected : Stands .stopped (initSocket w u.clearFlags).2.memory :=
      connectLoop_stands 10 0 ⟨rfl, rfl⟩
    have kept : Stands .stopped v.memory :=
      run_does (getMusicName_does j onlineSinger) (by exact connected) listed
    exact kept

theorem Carries.stands {s t : Station} {c : Command} {p : Playing} (h : Carries j s c t) (stands : Stands p s.memory) :
    Stands (c.effect s.memory.deviceMode p) t.memory := by
  cases h with
  | code known ends => exact code_does j known _ stands ends
  | offline w done => exact changeOfflineMode_stands j stands done
  | online w done => exact changeOnlineMode_stands j stands done

/-! ## Both together -/

/-- The recogniser, the fifo, and the speaker. -/
structure Room where
  app : AppState
  voice : State
  station : Station

def Room.start (station : Station) : Room := ⟨.kws, .start, station⟩

/-- A step of either, with the tick of the fifo that it is, if any. Between two
reads the speaker carries out the command of the first. -/
inductive Turns (s : Room) : Option Tick → Room → Prop
  | silent {f : Option Frame} {app : AppState} : pass s.app f = (app, none) → Turns s none { s with app }
  | hear {f : Option Frame} {h : Heard} {app : AppState} {voice : State} : pass s.app f = (app, some h) →
      Ticks s.voice (.hear h) voice → Turns s (some (.hear h)) { s with app, voice }
  | quit {voice : State} : Ticks s.voice .quit voice → Turns s (some .quit) { s with voice }
  | read {voice : State} {taken : List Command} {station : Station} :
      Ticks s.voice (.read s.station.memory.deviceMode) voice → voice.commands = s.voice.commands ++ taken →
      Trace (Carries j) s.station taken station →
      Turns s (some (.read s.station.memory.deviceMode)) { s with voice, station }
  | readError {voice : State} : Ticks s.voice .readError voice → Turns s (some .readError) { s with voice }

/-- How the music stands after these phrases. -/
structure Heeds (signals : List Bytes) (p : Playing) : Prop where
  woken : signals.length % 2 = 1 → p ≠ .playing
  told : ∀ u, signals.length % 2 = 0 → signals.getLast? = some u → ∃ deviceMode q, q ≠ .playing ∧
    p = (command deviceMode u).effect deviceMode q ∧ (p = .playing → (command deviceMode u).Plays)

def Tick.heard : Tick → Option Heard
  | .hear h => some h
  | _ => none

def heards (ticks : List Tick) : List Heard := ticks.filterMap Tick.heard

theorem phrases_heards (ticks : List Tick) : phrases ticks = (heards ticks).map fun h => h.phrase.text := by
  rw [phrases, heards, List.map_filterMap]
  refine List.filterMap_congr fun tick _ => ?_
  cases tick <;> rfl

/-- Keyword and utterance by turns, the keyword first. -/
def Rounds (hs : List Heard) : Prop := ∀ i h, hs[i]? = some h → (h = .keyword ↔ i % 2 = 0)

theorem Rounds.snoc {hs : List Heard} {h : Heard} (rounds : Rounds hs) (next : h = .keyword ↔ hs.length % 2 = 0) :
    Rounds (hs ++ [h]) := by
  intro i x at_
  rcases Nat.lt_or_ge i hs.length with before | last
  · rw [List.getElem?_append_left before] at at_
    exact rounds i x at_
  · rw [List.getElem?_append_right last] at at_
    obtain ⟨here, same⟩ := List.getElem?_eq_some_iff.mp at_
    rw [List.length_singleton] at here
    have place : i = hs.length := by omega
    rw [List.getElem_singleton] at same
    rw [← same, place]
    exact next

theorem command_wakeWord (deviceMode : DeviceMode) : command deviceMode wakeWord.text = .wake := by
  cases deviceMode <;> decide

theorem heeds_nil (p : Playing) : Heeds [] p := by
  refine ⟨fun odd => ?_, fun u _ last => ?_⟩
  · cases odd
  · cases last

/-- Carrying out the phrase that is due. -/
theorem Heeds.snoc {signals : List Bytes} {p : Playing} (heeds : Heeds signals p) {u : Bytes}
    (wake : signals.length % 2 = 0 → u = wakeWord.text) (deviceMode : DeviceMode) :
    Heeds (signals ++ [u]) ((command deviceMode u).effect deviceMode p) := by
  have length : (signals ++ [u]).length = signals.length + 1 := List.length_append
  constructor
  · intro odd
    rw [wake (by omega), command_wakeWord]
    exact pause_ne_playing p
  · intro v even last
    rw [List.getLast?_concat] at last
    cases last
    have silent := heeds.woken (by omega)
    exact ⟨deviceMode, p, silent, rfl, plays_of_effect silent⟩

/-- What holds of the room while no two phrases meet in a read. -/
structure Attends (ticks : List Tick) (s : Room) (waiting : List Bytes) : Prop where
  waits : Waits ticks s.voice waiting
  rounds : Rounds (heards ticks)
  app : s.app = .kws ↔ (heards ticks).length % 2 = 0
  stance : ∃ p, Stands p s.station.memory ∧ Heeds s.voice.signals p

theorem Attends.wakes {ticks : List Tick} {s : Room} {u : Bytes} {rest : List Bytes}
    (h : Attends ticks s (u :: rest)) (due : s.voice.signals.length % 2 = 0) : u = wakeWord.text := by
  have here : (phrases ticks)[s.voice.signals.length]? = some u := by
    rw [h.waits.passed, List.getElem?_append_right (Nat.le_refl _), Nat.sub_self, List.getElem?_cons_zero]
  rw [phrases_heards, List.getElem?_map] at here
  obtain ⟨heard, at_, same⟩ := Option.map_eq_some_iff.mp here
  rw [← same, (h.rounds _ _ at_).mpr due]
  rfl

theorem heards_snoc (past : List Tick) (tick : Tick) : heards (past ++ [tick]) = heards past ++ tick.heard.toList := by
  rw [heards, List.filterMap_append]
  cases tick <;> rfl

/-- A tick that brings no phrase, and after which the speaker has read the same ones. -/
theorem Attends.quiet {past : List Tick} {s t : Room} {waiting more : List Bytes} {tick : Tick}
    (h : Attends past s waiting) (waits : Waits (past ++ [tick]) t.voice more) (unheard : tick.heard = none)
    (app : t.app = s.app) (stance : ∃ p, Stands p t.station.memory ∧ Heeds t.voice.signals p) :
    Attends (past ++ [tick]) t more := by
  have same : heards (past ++ [tick]) = heards past := by
    rw [heards_snoc, unheard, Option.toList_none, List.append_nil]
  exact ⟨waits, same.symm ▸ h.rounds, by rw [app, same]; exact h.app, stance⟩

theorem attends_read {past : List Tick} {s : Room} {waiting : List Bytes} {voice : State} {taken : List Command}
    {station : Station} (h : Attends past s waiting) (single : sinceRead past ≤ 1)
    (one : Ticks s.voice (.read s.station.memory.deviceMode) voice) (new : voice.commands = s.voice.commands ++ taken)
    (carried : Trace (Carries j) s.station taken station) :
    Attends (past ++ [.read s.station.memory.deviceMode]) { s with voice, station } [] := by
  obtain ⟨p, stands, heeds⟩ := h.stance
  have waits : Waits (past ++ [.read s.station.memory.deviceMode]) voice [] := by
    cases one with
    | read _ _ _ _ => exact ((waits_read _ h.waits).resolve_right fun other => other.1 single).2
  refine h.quiet (t := { s with voice, station }) waits rfl rfl ?_
  cases one with
  | read _ _ _ _ =>
      cases waiting with
      | nil =>
          have nothing : readAsrFifo s.station.memory.deviceMode s.voice = { s.voice with listening := false } := by
            have empty : s.voice.pipe = [] := h.waits.pipe
            rw [readAsrFifo, if_pos empty]
          rw [nothing] at new ⊢
          have none_ : taken = [] := List.append_right_eq_self.mp new.symm
          rw [none_] at carried
          cases carried
          exact ⟨p, stands, heeds⟩
      | cons u rest =>
          have alone : rest = [] := by
            have count := h.waits.count
            rw [List.length_cons] at count
            exact List.eq_nil_of_length_eq_zero (by omega)
          subst alone
          obtain ⟨phrase, rfl⟩ := h.waits.phrase List.mem_cons_self
          have pipe := h.waits.pipe
          rw [List.flatten_singleton] at pipe
          have read := readAsrFifo_phrase s.station.memory.deviceMode phrase pipe h.waits.cleared
          rw [read] at new ⊢
          have one_ : taken = [command s.station.memory.deviceMode phrase.text] :=
            (List.append_cancel_left new).symm
          rw [one_] at carried
          cases carried with
          | cons carries rest =>
              cases rest
              exact ⟨_, carries.stands j stands, heeds.snoc h.wakes _⟩

theorem attends_step {past : List Tick} {s t : Room} {waiting : List Bytes} {tick : Option Tick}
    (h : Attends past s waiting) (one : Turns j s tick t) (alone : Alternating (past ++ tick.toList)) :
    ∃ more, Attends (past ++ tick.toList) t more := by
  cases one with
  | silent passed =>
      rw [Option.toList_none, List.append_nil]
      exact ⟨waiting, h.waits, h.rounds, by rw [pass_silent passed]; exact h.app, h.stance⟩
  | hear passed one =>
      obtain ⟨kind, turned⟩ := pass_heard passed
      have next := h.app
      rcases waits_step h.waits one with ⟨-, more, waits⟩ | ⟨⟨_, other, _⟩, _⟩
      · cases one with
        | hear heard _ =>
            refine ⟨more, waits, ?_, ?_, h.stance⟩
            · rw [Option.toList_some, heards_snoc]
              exact h.rounds.snoc (kind.trans h.app)
            · rw [Option.toList_some, heards_snoc, List.length_append]
              change _ ↔ ((heards past).length + 1) % 2 = 0
              rw [turned, Ne, h.app]
              omega
      · cases other
  | quit one =>
      rcases waits_step h.waits one with ⟨-, more, waits⟩ | ⟨⟨_, other, _⟩, _⟩
      · cases one
        exact ⟨more, h.quiet waits rfl rfl h.stance⟩
      · cases other
  | readError one =>
      rcases waits_step h.waits one with ⟨-, more, waits⟩ | ⟨⟨_, other, _⟩, _⟩
      · cases one
        exact ⟨more, h.quiet waits rfl rfl h.stance⟩
      · cases other
  | read one new carried =>
      exact ⟨[], attends_read j h ((alternating_snoc.mp alone).2 _ rfl) one new carried⟩

/-- While no two phrases meet in a read and only the voice works the speaker, it hears
keyword and utterance by turns; the music is silent after each keyword, and stays so
unless the utterance is one of the commands that play. -/
theorem voice_rounds {station : Station} {p : Playing} (stands : Stands p station.memory) {ticks : List (Option Tick)}
    {t : Room} (run : Trace (Turns j) (Room.start station) ticks t) (alone : Alternating ticks.reduceOption) :
    (∀ i u, t.voice.signals[i]? = some u → i % 2 = 0 → u = wakeWord.text) ∧
      ∃ q, Stands q t.station.memory ∧ Heeds t.voice.signals q := by
  have attends : Alternating ticks.reduceOption → ∃ waiting, Attends ticks.reduceOption t waiting := by
    refine run.history_nil (I := fun past t => Alternating past.reduceOption → ∃ waiting, Attends past.reduceOption t waiting)
      ?_ fun _ => ?_
    · rintro past s tick t before one alone
      rw [List.reduceOption_append, List.reduceOption_singleton] at alone ⊢
      have earlier : Alternating past.reduceOption := by
        cases tick with
        | none => rwa [Option.toList_none, List.append_nil] at alone
        | some tick => exact (alternating_snoc.mp alone).1
      obtain ⟨waiting, attends⟩ := before earlier
      exact attends_step j attends one alone
    · refine ⟨[], ⟨rfl, rfl, rfl, rfl, rfl⟩, fun i h at_ => ?_, iff_of_true rfl rfl, p, stands, heeds_nil p⟩
      cases at_
  obtain ⟨waiting, attends⟩ := attends alone
  refine ⟨fun i u at_ even => ?_, attends.stance⟩
  have here : (phrases ticks.reduceOption)[i]? = some u := by
    obtain ⟨inside, -⟩ := List.getElem?_eq_some_iff.mp at_
    rw [attends.waits.passed, List.getElem?_append_left inside, at_]
  rw [phrases_heards, List.getElem?_map] at here
  obtain ⟨heard, at_, same⟩ := Option.map_eq_some_iff.mp here
  rw [← same, (attends.rounds _ _ at_).mpr even]
  rfl

def repeatPhrase : Phrase where
  text := lit "循环"
  nonempty := by decide
  short := by decide
  noNul := by decide

/-- A speaker with music on, or paused. -/
def inMusic (suspendFlag : Bool) (said : List Bytes) : Station :=
  { booted [] 0 with memory := ⟨true, suspendFlag, .online, [[]]⟩, said }

/-- What the recogniser hears in one round. -/
def keywordFrame : Frame := ⟨some (lit "小胖"), false, none⟩

def repeatFrame : Frame := ⟨none, true, some ⟨lit "循环", by decide, by decide⟩⟩

/-- The speaker's end of the fifo after these phrases. -/
def taken (signals : List Bytes) (commands : List Command) : State :=
  ⟨[], true, true, zeros 256, signals, commands, none⟩

/-- Asked to repeat the song, a speaker with music on is paused and stays so. -/
theorem repeat_stays_paused :
    ∃ ticks t, Trace (Turns ⟨.little, fun _ => none, fun _ => []⟩) (Room.start (inMusic false [])) ticks t ∧
      t.voice.signals = [wakeWord.text, repeatPhrase.text] ∧
      (∀ i u, t.voice.signals[i]? = some u → i % 2 = 0 → u = wakeWord.text) ∧
      ∃ q, Stands q t.station.memory ∧ Heeds t.voice.signals q := by
  let j : JsonC := ⟨.little, fun _ => none, fun _ => []⟩
  let asked := taken [wakeWord.text] [.wake]
  let told := taken [wakeWord.text, repeatPhrase.text] [.wake, .circlePlay]
  have first : readAsrFifo .online { State.start with pipe := wakeWord.text } = asked :=
    readAsrFifo_phrase .online wakeWord rfl rfl
  have second : readAsrFifo .online { asked with pipe := repeatPhrase.text } = told :=
    readAsrFifo_phrase .online repeatPhrase rfl rfl
  have read := Ticks.read .online (s := { State.start with pipe := wakeWord.text }) rfl rfl (.inl (by decide))
  have read' := Ticks.read .online (s := { asked with pipe := repeatPhrase.text }) rfl rfl (.inl (by decide))
  rw [first] at read
  rw [second] at read'
  have pauses : Carries j (inMusic false []) .wake (inMusic true [lit "老大我在"]) := .code rfl (.call () (.done _))
  have repeats : Carries j (inMusic true [lit "老大我在"]) .circlePlay (inMusic true [lit "老大我在"]) :=
    .code rfl (.call (⟨[], [], sequence, 0, 0, 0⟩ : Shm) (.call () (.done _)))
  have run : Trace (Turns j) (Room.start (inMusic false [])) [some (.hear .keyword), some (.read .online),
      some (.hear (.utterance repeatPhrase)), some (.read .online)] ⟨.kws, told, inMusic true [lit "老大我在"]⟩ :=
    .cons (.hear (f := some keywordFrame) rfl (.hear _ rfl))
      (.cons (.read read rfl (.cons pauses (.nil _)))
        (.cons (.hear (f := some repeatFrame) rfl (.hear _ rfl))
          (.cons (.read read' rfl (.cons repeats (.nil _))) (.nil _))))
  have alone : Alternating [.hear .keyword, .read .online, .hear (.utterance repeatPhrase), .read .online] := by
    have one : Alternating ([] ++ [.hear .keyword]) := alternating_snoc.mpr ⟨alternating_nil, fun _ same => by cases same⟩
    have two : Alternating ([.hear .keyword] ++ [.read .online]) := alternating_snoc.mpr ⟨one, fun _ _ => by decide⟩
    have three : Alternating ([.hear .keyword, .read .online] ++ [.hear (.utterance repeatPhrase)]) :=
      alternating_snoc.mpr ⟨two, fun _ same => by cases same⟩
    exact alternating_snoc.mpr ⟨three, fun _ _ => by decide⟩
  exact ⟨_, _, run, rfl, voice_rounds j (p := .playing) ⟨rfl, rfl⟩ run alone⟩

end MusicPlayer.Speaker.Voice
