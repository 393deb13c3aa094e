import MusicPlayer.Speaker.Memory
import MusicPlayer.Lib.Trace

/-! Voice control. The recogniser writes each phrase into `asr_fifo`; whenever
the speaker gets round to it, `ReadAsrFifo` takes what is there and has it dealt
with as one phrase. -/
namespace MusicPlayer.Speaker.Voice
open CBytes Runs

/-! ## The recogniser -/

/-- A C string of 1 to 255 bytes. -/
structure Phrase where
  text : Bytes
  nonempty : 1 ≤ text.length
  short : text.length ≤ 255
  noNul : 0 ∉ text

def wakeWord : Phrase where
  text := lit "触发关键词"
  nonempty := by decide
  short := by decide
  noNul := by decide

/-- `SherpaKws` has found a keyword, or `SherpaAsr` the end of an utterance. -/
inductive Heard
  | keyword
  | utterance (text : Phrase)

/-- What is written then, with a single `write`. -/
def Heard.phrase : Heard → Phrase
  | .keyword => wakeWord
  | .utterance text => text

/-! ## The speaker -/

/-- The branches of `ProcessAsrSignal`, each one or more calls. -/
inductive Command
  | wake
  | startPlay
  | stopPlay
  | suspendPlay
  | continuePlay
  | nextPlay
  | prevPlay
  | upVolume
  | downVolume
  | circlePlay
  | sequencePlay
  | singer (name : Bytes)
  | changeVoive
  | changeOfflineMode
  | changeOnlineMode
  | askForNetwork
  | qianwen (signal : Bytes)
  deriving DecidableEq

/-- The chain of keyword tests; the first that succeeds decides. -/
def command (deviceMode : DeviceMode) (signal : Bytes) : Command :=
  let hears (word : String) : Bool := strstr signal (lit word)
  if hears "触发关键词" then .wake
  else if hears "听歌" || hears "开始" then .startPlay
  else if hears "停止" || hears "不想听" || hears "退出" || hears "关闭" then .stopPlay
  else if hears "暂停" || hears "休息" || hears "电话" || hears "急事" then .suspendPlay
  else if hears "继续" || hears "恢复" then .continuePlay
  else if (hears "下" || hears "换") && hears "首" then .nextPlay
  else if (hears "上" || hears "刚") && hears "首" then .prevPlay
  else if hears "音" && hears "调大" then .upVolume
  else if hears "音" && hears "调小" then .downVolume
  else if hears "循环" then .circlePlay
  else if hears "顺序" then .sequencePlay
  else if hears "周杰伦" then .singer (lit "周杰伦")
  else if hears "陈奕迅" then .singer (lit "陈奕迅")
  else if hears "林俊杰" then .singer (lit "林俊杰")
  else if hears "邓紫棋" then .singer (lit "邓紫棋")
  else if hears "换" && hears "声音" then .changeVoive
  else if hears "离线模式" then .changeOfflineMode
  else if hears "在线模式" then .changeOnlineMode
  else if deviceMode = .offline then .askForNetwork
  else .qianwen signal

/-- `asr_fifo` and the speaker at its end. `writing` and `listening` are the two
ends of it; `signals` are the strings `ProcessAsrSignal` has been called with,
`commands` the branches it has taken. -/
structure State where
  pipe : Bytes
  writing : Bool
  listening : Bool
  buffer : Bytes
  signals : List Bytes
  commands : List Command
  fault : Option Fault

def State.start : State := ⟨[], true, true, zeros 256, [], [], none⟩

def processAsrSignal (deviceMode : DeviceMode) (signal : Bytes) (s : State) : State :=
  let s := { s with signals := s.signals ++ [signal] }
  if signal = [] then s
  else { s with commands := s.commands ++ [command deviceMode signal], buffer := zeros 256 }

/-- `ReadAsrFifo` where `read` does not fail. `read` takes all that is in the
fifo, up to the size of the buffer. -/
def readAsrFifo (deviceMode : DeviceMode) (s : State) : State :=
  if s.pipe = [] then { s with listening := false }
  else
    let buffer := store s.buffer 0 (s.pipe.take 256)
    let s := { s with pipe := s.pipe.drop 256, buffer }
    -- the log line and the tests take `buffer` for a C string
    if 0 ∈ buffer then processAsrSignal deviceMode (cstr buffer) s
    else { s with fault := some .outOfBounds }

inductive Tick
  | hear (h : Heard)
  | quit
  | read (deviceMode : DeviceMode)
  | readError

/-- The main loop reads when `select` reports it: there are bytes in the fifo, or
the recogniser has ended. -/
inductive Ticks : State → Tick → State → Prop
  | hear (h : Heard) {s : State} : s.writing = true →
      Ticks s (.hear h) { s with pipe := s.pipe ++ h.phrase.text }
  | quit {s : State} : Ticks s .quit { s with writing := false }
  | read (deviceMode : DeviceMode) {s : State} : s.fault = none → s.listening = true →
      s.pipe ≠ [] ∨ s.writing = false → Ticks s (.read deviceMode) (readAsrFifo deviceMode s)
  | readError {s : State} : s.fault = none → s.listening = true → Ticks s .readError s

/-! ## Phrases and reads -/

def Tick.phrase : Tick → Option Bytes
  | .hear h => some h.phrase.text
  | _ => none

/-- The phrases written in a run. -/
def phrases (ticks : List Tick) : List Bytes := ticks.filterMap Tick.phrase

/-- Every phrase that is no longer in the fifo has been passed on, in order and
alone, and those still there are whole. -/
def Kept (ticks : List Tick) (s : State) : Prop :=
  s.fault = none ∧ ∃ waiting, phrases ticks = s.signals ++ waiting ∧ s.pipe = waiting.flatten

def count (n : Nat) : Tick → Nat
  | .hear _ => n + 1
  | .read _ => 0
  | _ => n

/-- How many phrases have been written since the last read. -/
def sinceRead (ticks : List Tick) : Nat := ticks.foldl count 0

/-- No two phrases are written between two reads. -/
def Alternating (ticks : List Tick) : Prop :=
  ∀ past deviceMode rest, ticks = past ++ .read deviceMode :: rest → sinceRead past ≤ 1

theorem sinceRead_snoc (ticks : List Tick) (tick : Tick) :
    sinceRead (ticks ++ [tick]) = count (sinceRead ticks) tick := by
  rw [sinceRead, List.foldl_append]
  rfl

theorem phrases_snoc (ticks : List Tick) (tick : Tick) :
    phrases (ticks ++ [tick]) = phrases ticks ++ tick.phrase.toList := by
  rw [phrases, List.filterMap_append]
  cases tick <;> rfl

theorem alternating_nil : Alternating [] := by
  intro past deviceMode rest split
  simp at split

theorem alternating_snoc {ticks : List Tick} {tick : Tick} :
    Alternating (ticks ++ [tick]) ↔
      Alternating ticks ∧ ∀ deviceMode, tick = .read deviceMode → sinceRead ticks ≤ 1 := by
  constructor
  · intro h
    refine ⟨?_, ?_⟩
    · rintro past deviceMode rest rfl
      exact h past deviceMode (rest ++ [tick]) (by simp)
    · rintro deviceMode rfl
      exact h ticks deviceMode [] rfl
  · rintro ⟨earlier, last⟩ past deviceMode rest split
    rcases List.eq_nil_or_concat rest with rfl | ⟨rest, final, rfl⟩
    · obtain ⟨rfl, same⟩ := List.append_inj' split rfl
      exact last deviceMode (List.singleton_inj.mp same)
    · have split : ticks ++ [tick] = (past ++ .read deviceMode :: rest) ++ [final] := by
        simpa using split
      exact earlier past deviceMode rest (List.append_inj' split rfl).1

/-! ## What a read takes -/

/-- A read that finds just one phrase passes it on and leaves a cleared buffer. -/
theorem readAsrFifo_phrase (deviceMode : DeviceMode) (p : Phrase) {s : State} (pipe : s.pipe = p.text)
    (cleared : s.buffer = zeros 256) :
    readAsrFifo deviceMode s = { s with
      pipe := []
      buffer := zeros 256
      signals := s.signals ++ [p.text]
      commands := s.commands ++ [command deviceMode p.text] } := by
  have some_ : p.text ≠ [] := List.length_pos_iff.mp p.nonempty
  have short := p.short
  have whole : p.text.take 256 = p.text := List.take_of_length_le (by omega)
  have rest : p.text.drop 256 = [] := List.drop_of_length_le (by omega)
  have nul : 0 ∈ store (zeros 256) 0 p.text := (mem_store_zeros (by omega)).mpr (.inl (by omega))
  have text : cstr (store (zeros 256) 0 p.text) = p.text := cstr_store_zeros p.noNul (by omega)
  rw [readAsrFifo, pipe, if_neg some_, cleared, whole, rest]
  dsimp only
  rw [if_pos nul, text, processAsrSignal, if_neg some_]

/-- A read that finds more than one phrase passes on something longer than the
first, or runs past its buffer. -/
theorem readAsrFifo_merged (deviceMode : DeviceMode) {first : Bytes} {rest : Bytes} {s : State}
    (pipe : s.pipe = first ++ rest) (short : first.length ≤ 255) (more : rest ≠ []) (noNul : 0 ∉ s.pipe)
    (cleared : s.buffer = zeros 256) :
    (readAsrFifo deviceMode s).fault = some .outOfBounds ∨
      ∃ signal, (readAsrFifo deviceMode s).signals = s.signals ++ [signal] ∧ signal ≠ first := by
  have long : first.length < s.pipe.length := by
    rw [pipe, List.length_append]
    have := List.length_pos_iff.mpr more
    omega
  have some_ : s.pipe ≠ [] := by
    intro empty
    rw [empty, List.length_nil] at long
    omega
  have size : (s.pipe.take 256).length = min 256 s.pipe.length := List.length_take
  have free : 0 ∉ s.pipe.take 256 := fun member => noNul (List.mem_of_mem_take member)
  rw [readAsrFifo, if_neg some_, cleared]
  dsimp only
  split
  next nul =>
    have room : (s.pipe.take 256).length < 256 :=
      ((mem_store_zeros (by omega)).mp nul).resolve_right free
    right
    refine ⟨s.pipe.take 256, ?_, ?_⟩
    · rw [cstr_store_zeros free room, processAsrSignal]
      split <;> rfl
    · intro same
      have := congrArg List.length same
      omega
  next => exact .inl rfl

theorem readAsrFifo_signals (deviceMode : DeviceMode) (s : State) :
    ∃ more, (readAsrFifo deviceMode s).signals = s.signals ++ more := by
  unfold readAsrFifo
  split
  · exact ⟨[], (List.append_nil _).symm⟩
  · dsimp only
    split
    · refine ⟨[cstr (store s.buffer 0 (s.pipe.take 256))], ?_⟩
      unfold processAsrSignal
      dsimp only
      split <;> rfl
    · exact ⟨[], (List.append_nil _).symm⟩

/-! ## Runs -/

/-- The phrases behind the last read wait in the fifo, and the buffer is clear. -/
structure Waits (ticks : List Tick) (s : State) (waiting : List Bytes) : Prop where
  fine : s.fault = none
  cleared : s.buffer = zeros 256
  passed : phrases ticks = s.signals ++ waiting
  pipe : s.pipe = waiting.flatten
  count : waiting.length = sinceRead ticks

/-- A read has run past the buffer, or passed on something that is not the phrase in its place. -/
def Spoilt (ticks : List Tick) (s : State) : Prop :=
  s.fault ≠ none ∨ ∃ (i : Nat) (signal phrase : Bytes), s.signals[i]? = some signal ∧
    (phrases ticks)[i]? = some phrase ∧ signal ≠ phrase

theorem phrase_of_mem {ticks : List Tick} {text : Bytes} (h : text ∈ phrases ticks) :
    ∃ p : Phrase, p.text = text := by
  obtain ⟨tick, _, same⟩ := List.mem_filterMap.mp h
  cases tick with
  | hear h => exact ⟨h.phrase, Option.some.inj same⟩
  | quit => cases same
  | read deviceMode => cases same
  | readError => cases same

theorem spoilt_step {past : List Tick} {s s' : State} {tick : Tick} (h : Spoilt past s)
    (step : Ticks s tick s') : Spoilt (past ++ [tick]) s' := by
  have later : ∀ {i : Nat} {phrase : Bytes}, (phrases past)[i]? = some phrase →
      (phrases (past ++ [tick]))[i]? = some phrase := by
    intro i phrase there
    obtain ⟨inside, _⟩ := List.getElem?_eq_some_iff.mp there
    rw [phrases_snoc, List.getElem?_append_left inside, there]
  rcases h with broken | ⟨i, signal, phrase, passed, written, differ⟩
  · cases step with
    | hear h _ => exact .inl broken
    | quit => exact .inl broken
    | read deviceMode fine _ _ => exact absurd fine broken
    | readError fine _ => exact absurd fine broken
  · refine .inr ⟨i, signal, phrase, ?_, later written, differ⟩
    cases step with
    | hear h _ => exact passed
    | quit => exact passed
    | read deviceMode _ _ _ =>
        obtain ⟨more, grown⟩ := readAsrFifo_signals deviceMode s
        obtain ⟨inside, _⟩ := List.getElem?_eq_some_iff.mp passed
        rw [grown, List.getElem?_append_left inside, passed]
    | readError _ _ => exact passed

theorem phrases_read (past : List Tick) (deviceMode : DeviceMode) :
    phrases (past ++ [.read deviceMode]) = phrases past := by
  rw [phrases_snoc]
  exact List.append_nil _

/-- What waits has been written by the recogniser. -/
theorem Waits.phrase {past : List Tick} {s : State} {waiting : List Bytes} (h : Waits past s waiting)
    {text : Bytes} (member : text ∈ waiting) : ∃ p : Phrase, p.text = text :=
  phrase_of_mem (h.passed ▸ List.mem_append_right s.signals member)

/-- Two phrases meet in a read. -/
theorem spoilt_read {past : List Tick} {s : State} {p q : Phrase} {rest : List Bytes} (deviceMode : DeviceMode)
    (h : Waits past s (p.text :: q.text :: rest)) :
    Spoilt (past ++ [.read deviceMode]) (readAsrFifo deviceMode s) := by
  have more : (q.text :: rest).flatten ≠ [] := by
    have some_ := q.nonempty
    intro empty
    rw [List.flatten_cons] at empty
    rw [(List.append_eq_nil_iff.mp empty).1, List.length_nil] at some_
    omega
  have noNul : 0 ∉ s.pipe := by
    rw [h.pipe]
    intro member
    obtain ⟨text, listed, inside⟩ := List.mem_flatten.mp member
    obtain ⟨r, rfl⟩ := h.phrase listed
    exact r.noNul inside
  rcases readAsrFifo_merged deviceMode h.pipe p.short more noNul h.cleared with
    ended | ⟨signal, grown, differ⟩
  · left
    rw [ended]
    exact Option.some_ne_none _
  · refine .inr ⟨s.signals.length, signal, p.text, ?_, ?_, differ⟩
    · rw [grown, List.getElem?_append_right (Nat.le_refl _), Nat.sub_self]
      rfl
    · rw [phrases_read, h.passed, List.getElem?_append_right (Nat.le_refl _), Nat.sub_self]
      rfl

theorem waits_read {past : List Tick} {s : State} {waiting : List Bytes} (deviceMode : DeviceMode)
    (h : Waits past s waiting) :
    (sinceRead past ≤ 1 ∧ Waits (past ++ [.read deviceMode]) (readAsrFifo deviceMode s) []) ∨
      (¬ sinceRead past ≤ 1 ∧ Spoilt (past ++ [.read deviceMode]) (readAsrFifo deviceMode s)) := by
  have still := phrases_read past deviceMode
  cases waiting with
  | nil =>
      have nothing : readAsrFifo deviceMode s = { s with listening := false } := by
        rw [readAsrFifo, h.pipe]
        rfl
      refine .inl ⟨by rw [← h.count]; exact Nat.zero_le 1, ?_⟩
      rw [nothing]
      exact ⟨h.fine, h.cleared, still.trans h.passed, h.pipe, by rw [sinceRead_snoc]; rfl⟩
  | cons first rest =>
      obtain ⟨p, rfl⟩ := h.phrase (List.mem_cons_self ..)
      cases rest with
      | nil =>
          have pipe := h.pipe
          rw [List.flatten_singleton] at pipe
          refine .inl ⟨by rw [← h.count]; exact Nat.le_refl 1, ?_⟩
          rw [readAsrFifo_phrase deviceMode p pipe h.cleared]
          refine ⟨h.fine, rfl, ?_, rfl, by rw [sinceRead_snoc]; rfl⟩
          rw [still, h.passed, List.append_nil]
      | cons second rest =>
          obtain ⟨q, rfl⟩ := h.phrase (List.mem_cons_of_mem _ List.mem_cons_self)
          refine .inr ⟨?_, spoilt_read deviceMode h⟩
          rw [← h.count, List.length_cons, List.length_cons]
          omega

/-- One step: what waits goes on waiting whole until two phrases meet in a read. -/
theorem waits_step {past : List Tick} {s s' : State} {tick : Tick} {waiting : List Bytes}
    (h : Waits past s waiting) (step : Ticks s tick s') :
    ((∀ deviceMode, tick = .read deviceMode → sinceRead past ≤ 1) ∧ ∃ more, Waits (past ++ [tick]) s' more) ∨
      ((∃ deviceMode, tick = .read deviceMode ∧ ¬ sinceRead past ≤ 1) ∧ Spoilt (past ++ [tick]) s') := by
  cases step with
  | hear heard _ =>
      refine .inl ⟨by simp, waiting ++ [heard.phrase.text], h.fine, h.cleared, ?_, ?_, ?_⟩
      · rw [phrases_snoc, h.passed, List.append_assoc]
        rfl
      · rw [List.flatten_append, ← h.pipe, List.flatten_singleton]
      · rw [sinceRead_snoc, List.length_append, h.count]
        rfl
  | quit =>
      refine .inl ⟨by simp, waiting, h.fine, h.cleared, ?_, h.pipe, ?_⟩
      · rw [phrases_snoc, h.passed]
        exact List.append_nil _
      · rw [sinceRead_snoc, h.count]
        rfl
  | read deviceMode _ _ _ =>
      rcases waits_read deviceMode h with ⟨single, waits⟩ | ⟨several, spoilt⟩
      · exact .inl ⟨fun _ _ => single, [], waits⟩
      · exact .inr ⟨⟨deviceMode, rfl, several⟩, spoilt⟩
  | readError _ _ =>
      refine .inl ⟨by simp, waiting, h.fine, h.cleared, ?_, h.pipe, ?_⟩
      · rw [phrases_snoc, h.passed]
        exact List.append_nil _
      · rw [sinceRead_snoc, h.count]
        rfl

theorem runs_keep {ticks : List Tick} {s : State} (run : Trace Ticks State.start ticks s) :
    (Alternating ticks ∧ ∃ waiting, Waits ticks s waiting) ∨ (¬ Alternating ticks ∧ Spoilt ticks s) := by
  refine run.history_nil
    (I := fun past s => (Alternating past ∧ ∃ waiting, Waits past s waiting) ∨ (¬ Alternating past ∧ Spoilt past s))
    ?_ ?_
  · rintro past s tick s' (⟨single, waiting, waits⟩ | ⟨several, spoilt⟩) step
    · rcases waits_step waits step with ⟨still, kept⟩ | ⟨⟨deviceMode, rfl, met⟩, spoilt⟩
      · exact .inl ⟨alternating_snoc.mpr ⟨single, still⟩, kept⟩
      · exact .inr ⟨fun both => met ((alternating_snoc.mp both).2 deviceMode rfl), spoilt⟩
    · exact .inr ⟨fun both => several (alternating_snoc.mp both).1, spoilt_step spoilt step⟩
  · exact .inl ⟨alternating_nil, [], rfl, rfl, rfl, rfl, rfl⟩

/-- For every sequence of phrases and every schedule of the reads: each phrase
taken out of the fifo has been passed to `ProcessAsrSignal` alone, whole and in
its turn, exactly when no two phrases were written between two reads. -/
theorem phrases_kept_iff {ticks : List Tick} {s : State} (run : Trace Ticks State.start ticks s) :
    Kept ticks s ↔ Alternating ticks := by
  rcases runs_keep run with ⟨single, waiting, waits⟩ | ⟨several, spoilt⟩
  · exact iff_of_true ⟨waits.fine, waiting, waits.passed, waits.pipe⟩ single
  · refine iff_of_false ?_ several
    rintro ⟨fine, waiting, passed, _⟩
    rcases spoilt with broken | ⟨i, signal, phrase, first, second, differ⟩
    · exact broken fine
    · obtain ⟨inside, _⟩ := List.getElem?_eq_some_iff.mp first
      rw [passed, List.getElem?_append_left inside, first] at second
      exact differ (Option.some.inj second)

def listen : Phrase where
  text := lit "听歌"
  nonempty := by decide
  short := by decide
  noNul := by decide

def stop : Phrase where
  text := lit "停止"
  nonempty := by decide
  short := by decide
  noNul := by decide

/-- The two of them, each read before the next is written. -/
def oneByOne : List Tick :=
  [.hear (.utterance listen), .read .online, .hear (.utterance stop), .read .online]

theorem one_by_one_kept :
    Kept oneByOne ⟨[], true, true, zeros 256, [lit "听歌", lit "停止"], [.startPlay, .stopPlay], none⟩ := by
  have first := Ticks.read .online (s := { State.start with pipe := listen.text }) rfl rfl (.inl (by decide))
  rw [readAsrFifo_phrase .online listen rfl rfl] at first
  have second := Ticks.read .online
    (s := ⟨stop.text, true, true, zeros 256, [lit "听歌"], [.startPlay], none⟩) rfl rfl (.inl (by decide))
  rw [readAsrFifo_phrase .online stop rfl rfl] at second
  have run : Trace Ticks State.start oneByOne
      ⟨[], true, true, zeros 256, [lit "听歌", lit "停止"], [.startPlay, .stopPlay], none⟩ :=
    .cons (.hear _ rfl) (.cons first (.cons (.hear _ rfl) (.cons second (.nil _))))
  have one : Alternating ([] ++ [.hear (.utterance listen)]) :=
    alternating_snoc.mpr ⟨alternating_nil, fun _ same => by cases same⟩
  have two : Alternating ([.hear (.utterance listen)] ++ [.read .online]) :=
    alternating_snoc.mpr ⟨one, fun _ _ => by decide⟩
  have three : Alternating ([.hear (.utterance listen), .read .online] ++ [.hear (.utterance stop)]) :=
    alternating_snoc.mpr ⟨two, fun _ same => by cases same⟩
  exact (phrases_kept_iff run).mpr (alternating_snoc.mpr ⟨three, fun _ _ => by decide⟩)

/-- Both phrases, as they stand in the fifo. -/
def listenStop : Phrase where
  text := lit "听歌停止"
  nonempty := by decide
  short := by decide
  noNul := by decide

/-- Two phrases written before the speaker reads become one signal and one
command; the second command is dropped. -/
theorem two_phrases_merged :
    ¬ ∀ (ticks : List Tick) (s : State), Trace Ticks State.start ticks s → Kept ticks s := by
  intro always
  have read : readAsrFifo .online { State.start with pipe := listenStop.text } =
      ⟨[], true, true, zeros 256, [lit "听歌停止"], [.startPlay], none⟩ :=
    readAsrFifo_phrase .online listenStop rfl rfl
  have step := Ticks.read .online (s := { State.start with pipe := listenStop.text }) rfl rfl
    (.inl (by decide))
  rw [read] at step
  have run : Trace Ticks State.start
      [.hear (.utterance listen), .hear (.utterance stop), .read .online]
      ⟨[], true, true, zeros 256, [lit "听歌停止"], [.startPlay], none⟩ :=
    .cons (.hear _ rfl) (.cons (.hear _ rfl) (.cons step (.nil _)))
  obtain ⟨_, waiting, passed, _⟩ := always _ _ run
  exact absurd (List.cons.inj passed).1 (by decide)

end MusicPlayer.Speaker.Voice
