import MusicPlayer.Lib.Trace

/-! The one button of the speaker. `ReadButton` runs in the main loop, once for
each input event; `Handle` comes in between whenever the timer expires. -/
namespace MusicPlayer.Speaker.Button
open Runs

/-- `BUTTON_STATE`; the last one is never entered. -/
inductive ButtonState
  | idle
  | firstPress
  | firstRelease
  | secondPress
  deriving DecidableEq

/-- `struct timeval`. -/
structure Timeval where
  sec : Int
  usec : Int
  deriving DecidableEq

/-- The milliseconds `ReadButton` makes of two times. -/
def elapsed (old new : Timeval) : Int :=
  (new.sec - old.sec) * 1000 + (new.usec - old.usec).tdiv 1000

/-- `struct input_event`, as far as it is looked at. -/
structure InputEvent where
  key : Bool
  value : Int

/-- The calls that gestures are for; `toggle` stands for the one of `StartPlay`,
`SuspendPlay` and `ContinuePlay` that `Handle` chooses by the flags. -/
inductive Action
  | toggle
  | nextPlay
  | prevPlay
  deriving DecidableEq

/-- Where the main loop's thread is: waiting in `select`, or in `ReadButton`
just before what the name says. -/
inductive Line
  | select
  | press
  | secondTest
  | inNextPlay
  | setIdle
  | disarm
  | release
  | inPrevPlay
  | arm
  deriving DecidableEq

/-- `timer` is the `it_value` of `ITIMER_REAL` in microseconds, zero when it is
disarmed; `actions` are the actions begun so far. -/
structure Machine where
  state : ButtonState
  timer : Nat
  old : Timeval
  line : Line
  actions : List Action

def Machine.start (old : Timeval) : Machine := ⟨.idle, 0, old, .select, []⟩

/-- `ReadButton` up to its first look at `state`; `none` is a failed `read`. -/
def readEvent : Option InputEvent → Line
  | none => .select
  | some ev =>
      if ev.key = false then .select
      else if ev.value = 1 then .press
      else if ev.value = 0 then .release
      else .select

/-- `Handle`. It runs to its end before the main loop's thread goes on. -/
def handle (s : Machine) : Machine :=
  { s with timer := 0, actions := s.actions ++ [.toggle], state := .idle }

inductive Tick
  | key (ev : Option InputEvent)
  | press (now : Timeval)
  | release (now : Timeval)
  | go
  | fire

/-- The first test of a press, with the clock read behind it. -/
def pressed (now : Timeval) (s : Machine) : Machine :=
  if s.state = .idle then { s with old := now, state := .firstPress, line := .select }
  else { s with line := .secondTest }

/-- The test of a release, with the clock read behind it, up to the call of
`PrevPlay` or the call that arms the timer. -/
def released (now : Timeval) (s : Machine) : Machine :=
  if s.state = .firstPress then
    if 300 < elapsed s.old now then { s with actions := s.actions ++ [.prevPlay], line := .inPrevPlay }
    else { s with state := .firstRelease, line := .arm }
  else { s with line := .select }

/-- The remaining statements, one at a time where the timer may be running. -/
def proceed (s : Machine) : Machine :=
  match s.line with
  | .secondTest =>
      if s.state = .firstRelease then { s with actions := s.actions ++ [.nextPlay], line := .inNextPlay }
      else { s with line := .select }
  | .inNextPlay => { s with line := .setIdle }
  | .setIdle => { s with state := .idle, line := .disarm }
  | .disarm => { s with timer := 0, line := .select }
  | .inPrevPlay => { s with state := .idle, line := .select }
  | .arm => { s with timer := 300 * 1000, line := .select }
  | .select | .press | .release => s

/-- The timer fires at any moment while it is armed. An action goes on for as
long as it likes. -/
inductive Ticks : Machine → Tick → Machine → Prop
  | key (ev : Option InputEvent) {s : Machine} : s.line = .select →
      Ticks s (.key ev) { s with line := readEvent ev }
  | press (now : Timeval) {s : Machine} : s.line = .press → Ticks s (.press now) (pressed now s)
  | release (now : Timeval) {s : Machine} : s.line = .release → Ticks s (.release now) (released now s)
  | go {s : Machine} : s.line ≠ .select → s.line ≠ .press → s.line ≠ .release → Ticks s .go (proceed s)
  | fire {s : Machine} : s.timer ≠ 0 → Ticks s .fire (handle s)

/-! ## Gestures -/

inductive Gesture
  | short
  | double
  | long
  deriving DecidableEq

def Gesture.action : Gesture → Action
  | .short => .toggle
  | .double => .nextPlay
  | .long => .prevPlay

/-- How far the gesture being made has come: nothing, held down since a time, or
let go once after a short while. -/
inductive Stage
  | idle
  | held (since : Timeval)
  | clicked
  deriving DecidableEq

/-- The presses, releases and expiries in their order, taken for what they mean. -/
def Stage.next : Stage → Tick → Stage × List Gesture
  | .idle, .press now => (.held now, [])
  | .held since, .release now => if 300 < elapsed since now then (.idle, [.long]) else (.clicked, [])
  | .clicked, .press _ => (.idle, [.double])
  | .clicked, .fire => (.idle, [.short])
  | stage, _ => (stage, [])

def Stage.observe (seen : Stage × List Gesture) (tick : Tick) : Stage × List Gesture :=
  ((seen.1.next tick).1, seen.2 ++ (seen.1.next tick).2)

/-- The gestures completed in a run, and the stage of the one after them. -/
def gestures (ticks : List Tick) : Stage × List Gesture := ticks.foldl Stage.observe (.idle, [])

theorem gestures_snoc (ticks : List Tick) (tick : Tick) :
    gestures (ticks ++ [tick]) = Stage.observe (gestures ticks) tick := by
  rw [gestures, List.foldl_append]
  rfl

/-! ## Which gestures are kept apart -/

/-- From the first test of a press that is not the first one up to the call that
disarms the timer. -/
def Line.deciding : Line → Prop
  | .secondTest | .inNextPlay | .setIdle | .disarm => True
  | _ => False

/-- The timer does not fire while a second press is being dealt with. -/
def InTime (s : Machine) (tick : Tick) : Prop := tick = .fire → ¬ s.line.deciding

/-- The state, the press noted and the timer are those of the stage. -/
def At (s : Machine) : Stage → Prop
  | .idle => s.state = .idle ∧ s.timer = 0
  | .held since => s.state = .firstPress ∧ s.old = since ∧ s.timer = 0
  | .clicked => s.state = .firstRelease ∧ s.timer ≠ 0

/-- The invariant of the machine, at each of its lines. The last case of the
second test is an expiry behind the first one: the press is dropped. -/
def Agrees (seen : Stage × List Gesture) (s : Machine) : Prop :=
  match s.line with
  | .select | .press | .release => At s seen.1
  | .secondTest =>
      (s.state = .firstPress ∧ At s seen.1) ∨
        (seen.1 = .idle ∧ s.state = .firstRelease ∧ ∃ earlier, seen.2 = earlier ++ [.double]) ∨
          (seen.1 = .idle ∧ s.state = .idle ∧ s.timer = 0)
  | .inNextPlay | .setIdle => seen.1 = .idle
  | .disarm => seen.1 = .idle ∧ s.state = .idle
  | .inPrevPlay => seen.1 = .idle ∧ s.timer = 0
  | .arm => seen.1 = .clicked ∧ s.state = .firstRelease ∧ s.timer = 0

/-- The stage does not depend on the line. -/
theorem at_line {s : Machine} {stage : Stage} (line : Line) : At { s with line } stage ↔ At s stage := by
  cases stage <;> rfl

theorem agrees_at {seen : Stage × List Gesture} {s : Machine}
    (outside : s.line = .select ∨ s.line = .press ∨ s.line = .release) : Agrees seen s ↔ At s seen.1 := by
  unfold Agrees
  rcases outside with line | line | line <;> rw [line]

/-- The actions begun, and the one that the second test is about to begin. -/
def Machine.log (s : Machine) : List Action :=
  s.actions ++ if s.line = .secondTest ∧ s.state = .firstRelease then [.nextPlay] else []

theorem log_of_line {s : Machine} {line : Line} (at_ : s.line = line) (apart : line ≠ .secondTest) :
    s.log = s.actions := by
  rw [Machine.log, if_neg (fun test => apart (at_.symm.trans test.1)), List.append_nil]

theorem log_of_state {s : Machine} {state : ButtonState} (at_ : s.state = state)
    (apart : state ≠ .firstRelease) : s.log = s.actions := by
  rw [Machine.log, if_neg (fun test => apart (at_.symm.trans test.2)), List.append_nil]

theorem log_mk {state : ButtonState} {timer : Nat} {old : Timeval} {line : Line} {actions : List Action}
    (apart : line ≠ .secondTest) : (Machine.mk state timer old line actions).log = actions :=
  log_of_line rfl apart

/-- The action of each gesture completed. -/
def meant (seen : Stage × List Gesture) : List Action := seen.2.map Gesture.action

/-- What a step in time does: the machine goes on agreeing, and begins what is meant. -/
def Keeps (seen : Stage × List Gesture) (s : Machine) (tick : Tick) (s' : Machine) : Prop :=
  Agrees (Stage.observe seen tick) s' ∧
    ∃ more, s'.log = s.log ++ more ∧ meant (Stage.observe seen tick) = meant seen ++ more

/-- A step by which nothing is completed or begun. -/
theorem keeps_of_quiet {seen : Stage × List Gesture} {s s' : Machine} {tick : Tick}
    (quiet : seen.1.next tick = (seen.1, [])) (same : s'.log = s.log) (agrees : Agrees seen s') :
    Keeps seen s tick s' := by
  have still : Stage.observe seen tick = seen := by
    rw [Stage.observe, quiet, List.append_nil]
  refine ⟨?_, [], ?_, ?_⟩
  · rw [still]
    exact agrees
  · rw [same, List.append_nil]
  · rw [still, List.append_nil]

theorem readEvent_outside (ev : Option InputEvent) :
    readEvent ev = .select ∨ readEvent ev = .press ∨ readEvent ev = .release := by
  unfold readEvent
  cases ev with
  | none => exact .inl rfl
  | some ev =>
      dsimp only
      split
      · exact .inl rfl
      · split
        · exact .inr (.inl rfl)
        · split
          · exact .inr (.inr rfl)
          · exact .inl rfl

theorem outside_ne {line : Line} (outside : line = .select ∨ line = .press ∨ line = .release) :
    line ≠ .secondTest := by
  rcases outside with rfl | rfl | rfl <;> decide

theorem keeps_key {seen : Stage × List Gesture} {s : Machine} (ev : Option InputEvent)
    (line : s.line = .select) (h : Agrees seen s) : Keeps seen s (.key ev) { s with line := readEvent ev } := by
  refine keeps_of_quiet ?_ ?_ ?_
  · cases seen.1 <;> rfl
  · exact (log_of_line rfl (outside_ne (readEvent_outside ev))).trans
      (log_of_line line (by decide)).symm
  · have at_ := (agrees_at (.inl line)).mp h
    exact (agrees_at (readEvent_outside ev)).mpr ((at_line _).mpr at_)

theorem keeps_press {stage : Stage} {made : List Gesture} {s : Machine} (now : Timeval)
    (line : s.line = .press) (h : Agrees (stage, made) s) :
    Keeps (stage, made) s (.press now) (pressed now s) := by
  have at_ := (agrees_at (.inr (.inl line))).mp h
  have log : s.log = s.actions := log_of_line line (by decide)
  unfold pressed
  cases stage with
  | idle =>
      obtain ⟨state, timer⟩ := at_
      rw [if_pos state]
      refine ⟨(agrees_at (.inl rfl)).mpr ⟨rfl, rfl, timer⟩, [], ?_, ?_⟩
      · rw [log, List.append_nil]
        exact log_mk (by decide)
      · simp [meant, Stage.observe, Stage.next]
  | held since =>
      obtain ⟨state, old, timer⟩ := at_
      rw [if_neg (by rw [state]; decide)]
      refine ⟨.inl ⟨state, state, old, timer⟩, [], ?_, ?_⟩
      · rw [log, List.append_nil]
        exact log_of_state state (by decide)
      · simp [meant, Stage.observe, Stage.next]
  | clicked =>
      obtain ⟨state, armed⟩ := at_
      rw [if_neg (by rw [state]; decide)]
      refine ⟨.inr (.inl ⟨rfl, state, made, rfl⟩), [.nextPlay], ?_, ?_⟩
      · rw [log, Machine.log, if_pos ⟨rfl, state⟩]
      · simp [meant, Stage.observe, Stage.next, Gesture.action]

theorem keeps_release {stage : Stage} {made : List Gesture} {s : Machine} (now : Timeval)
    (line : s.line = .release) (h : Agrees (stage, made) s) :
    Keeps (stage, made) s (.release now) (released now s) := by
  have at_ := (agrees_at (.inr (.inr line))).mp h
  have log : s.log = s.actions := log_of_line line (by decide)
  unfold released
  cases stage with
  | idle =>
      rw [if_neg (by rw [at_.1]; decide)]
      refine keeps_of_quiet rfl ?_ ((agrees_at (.inl rfl)).mpr at_)
      exact (log_mk (by decide)).trans log.symm
  | held since =>
      obtain ⟨state, rfl, timer⟩ := at_
      rw [if_pos state]
      by_cases long : 300 < elapsed s.old now
      · rw [if_pos long]
        refine ⟨?_, [.prevPlay], ?_, ?_⟩
        · simp only [Stage.observe, Stage.next, if_pos long]
          exact ⟨rfl, timer⟩
        · rw [log]
          exact log_mk (by decide)
        · simp [meant, Stage.observe, Stage.next, if_pos long, Gesture.action]
      · rw [if_neg long]
        refine ⟨?_, [], ?_, ?_⟩
        · simp only [Stage.observe, Stage.next, if_neg long]
          exact ⟨rfl, rfl, timer⟩
        · rw [log, List.append_nil]
          exact log_mk (by decide)
        · simp [meant, Stage.observe, Stage.next, if_neg long]
  | clicked =>
      rw [if_neg (by rw [at_.1]; decide)]
      refine keeps_of_quiet rfl ?_ ((agrees_at (.inl rfl)).mpr at_)
      exact (log_mk (by decide)).trans log.symm

theorem keeps_go {seen : Stage × List Gesture} {s : Machine} (h : Agrees seen s)
    (inside : s.line ≠ .select ∧ s.line ≠ .press ∧ s.line ≠ .release) : Keeps seen s .go (proceed s) := by
  have quiet : seen.1.next .go = (seen.1, []) := by cases seen.1 <;> rfl
  unfold Agrees at h
  unfold proceed
  cases line : s.line with
  | select => exact absurd line inside.1
  | press => exact absurd line inside.2.1
  | release => exact absurd line inside.2.2
  | secondTest =>
      rw [line] at h
      dsimp only at h ⊢
      rcases h with ⟨state, at_⟩ | ⟨idle, state, _⟩ | ⟨idle, state, timer⟩
      · rw [if_neg (by rw [state]; decide)]
        refine keeps_of_quiet quiet ?_ ((agrees_at (.inl rfl)).mpr ((at_line _).mpr at_))
        exact (log_mk (by decide)).trans (log_of_state state (by decide)).symm
      · rw [if_pos state]
        refine keeps_of_quiet quiet ?_ idle
        have log : s.log = s.actions ++ [.nextPlay] := by rw [Machine.log, if_pos ⟨line, state⟩]
        exact (log_mk (by decide)).trans log.symm
      · rw [if_neg (by rw [state]; decide)]
        refine keeps_of_quiet quiet ?_ ((agrees_at (.inl rfl)).mpr ?_)
        · exact (log_mk (by decide)).trans (log_of_state state (by decide)).symm
        · rw [idle]
          exact ⟨state, timer⟩
  | inNextPlay =>
      rw [line] at h
      dsimp only
      refine keeps_of_quiet quiet ?_ h
      exact (log_mk (by decide)).trans (log_of_line line (by decide)).symm
  | setIdle =>
      rw [line] at h
      dsimp only
      refine keeps_of_quiet quiet ?_ ⟨h, rfl⟩
      exact (log_mk (by decide)).trans (log_of_line line (by decide)).symm
  | disarm =>
      rw [line] at h
      dsimp only
      refine keeps_of_quiet quiet ?_ ((agrees_at (.inl rfl)).mpr ?_)
      · exact (log_mk (by decide)).trans (log_of_line line (by decide)).symm
      · rw [h.1]
        exact ⟨h.2, rfl⟩
  | inPrevPlay =>
      rw [line] at h
      dsimp only
      refine keeps_of_quiet quiet ?_ ((agrees_at (.inl rfl)).mpr ?_)
      · exact (log_mk (by decide)).trans (log_of_line line (by decide)).symm
      · rw [h.1]
        exact ⟨rfl, h.2⟩
  | arm =>
      rw [line] at h
      dsimp only
      refine keeps_of_quiet quiet ?_ ((agrees_at (.inl rfl)).mpr ?_)
      · exact (log_mk (by decide)).trans (log_of_line line (by decide)).symm
      · rw [h.1]
        exact ⟨h.2.1, show 300 * 1000 ≠ 0 by decide⟩

/-- An expiry outside the dealing with a second press ends a short press. -/
theorem keeps_fire {stage : Stage} {made : List Gesture} {s : Machine} (armed : s.timer ≠ 0)
    (inTime : ¬ s.line.deciding) (h : Agrees (stage, made) s) :
    Keeps (stage, made) s .fire (handle s) := by
  have outside : s.line = .select ∨ s.line = .press ∨ s.line = .release := by
    unfold Agrees at h
    cases line : s.line with
    | select => exact .inl rfl
    | press => exact .inr (.inl rfl)
    | release => exact .inr (.inr rfl)
    | inPrevPlay =>
        rw [line] at h
        exact absurd h.2 armed
    | arm =>
        rw [line] at h
        exact absurd h.2.2 armed
    | secondTest => exact (inTime (by rw [line]; trivial)).elim
    | inNextPlay => exact (inTime (by rw [line]; trivial)).elim
    | setIdle => exact (inTime (by rw [line]; trivial)).elim
    | disarm => exact (inTime (by rw [line]; trivial)).elim
  have at_ := (agrees_at outside).mp h
  cases stage with
  | idle => exact absurd at_.2 armed
  | held since => exact absurd at_.2.2 armed
  | clicked =>
      refine ⟨(agrees_at (s := handle s) outside).mpr ⟨rfl, rfl⟩, [.toggle], ?_, ?_⟩
      · rw [log_of_line (s := s) rfl (outside_ne outside)]
        exact log_of_line (s := handle s) rfl (outside_ne outside)
      · simp [meant, Stage.observe, Stage.next, Gesture.action]

theorem log_handle (s : Machine) : (handle s).log = s.actions ++ [.toggle] :=
  log_of_state (show (handle s).state = .idle from rfl) (by decide)

theorem observe_fire {seen : Stage × List Gesture} (idle : seen.1 = .idle) : Stage.observe seen .fire = seen := by
  obtain ⟨stage, made⟩ := seen
  cases idle
  simp [Stage.observe, Stage.next]

/-- Before the first release the timer is not armed. -/
theorem unarmed {s : Machine} {stage : Stage} (at_ : At s stage) (early : s.state ≠ .firstRelease) : s.timer = 0 := by
  cases stage with
  | idle => exact at_.2
  | held since => exact at_.2.2
  | clicked => exact absurd at_.1 early

/-- An expiry between the two tests of `state`: the press that has been seen is dropped. -/
theorem late_fire_second {seen : Stage × List Gesture} {s : Machine} (armed : s.timer ≠ 0)
    (line : s.line = .secondTest) (h : Agrees seen s) (fewer : (meant seen).length ≤ s.log.length) :
    Agrees (Stage.observe seen .fire) (handle s) ∧
      (meant (Stage.observe seen .fire)).length ≤ (handle s).log.length ∧
        (handle s).log ≠ meant (Stage.observe seen .fire) := by
  have kept : (handle s).line = .secondTest := line
  simp only [Agrees, line] at h
  rcases h with ⟨state, at_⟩ | ⟨idle, state, earlier, last⟩ | ⟨_, _, timer⟩
  · exact absurd (unarmed at_ (by rw [state]; decide)) armed
  · rw [observe_fire idle]
    have next : meant seen = earlier.map Gesture.action ++ [.nextPlay] := by
      rw [meant, last, List.map_append]
      rfl
    rw [Machine.log, if_pos ⟨line, state⟩, next] at fewer
    refine ⟨?_, ?_, ?_⟩
    · simp only [Agrees, kept]
      exact .inr (.inr ⟨idle, rfl, rfl⟩)
    · rw [log_handle, next]
      simpa using fewer
    · rw [log_handle, next]
      intro same
      have final := (List.append_inj' same rfl).2
      cases final
  · exact absurd timer armed

/-- An expiry behind the second test: `Handle` begins an action too many. -/
theorem late_fire_surplus {seen : Stage × List Gesture} {s : Machine} (idle : seen.1 = .idle)
    (line : s.line ≠ .secondTest) (agrees : Agrees seen (handle s))
    (fewer : (meant seen).length ≤ s.log.length) :
    Agrees (Stage.observe seen .fire) (handle s) ∧
      (meant (Stage.observe seen .fire)).length ≤ (handle s).log.length ∧
        (handle s).log ≠ meant (Stage.observe seen .fire) := by
  rw [observe_fire idle]
  rw [log_of_line rfl line] at fewer
  have count : (handle s).log.length = s.actions.length + 1 := by
    rw [log_handle, List.length_append, List.length_singleton]
  refine ⟨agrees, by omega, ?_⟩
  intro same
  rw [same] at count
  omega

/-- An expiry while a second press is being dealt with: the machine goes on
agreeing, but it has begun an action too many or the wrong one. -/
theorem late_fire {seen : Stage × List Gesture} {s : Machine} (armed : s.timer ≠ 0)
    (late : s.line.deciding) (h : Agrees seen s) (fewer : (meant seen).length ≤ s.log.length) :
    Agrees (Stage.observe seen .fire) (handle s) ∧
      (meant (Stage.observe seen .fire)).length ≤ (handle s).log.length ∧
        (handle s).log ≠ meant (Stage.observe seen .fire) := by
  cases line : s.line with
  | select => exact (by rw [line] at late; exact late : False).elim
  | press => exact (by rw [line] at late; exact late : False).elim
  | release => exact (by rw [line] at late; exact late : False).elim
  | inPrevPlay => exact (by rw [line] at late; exact late : False).elim
  | arm => exact (by rw [line] at late; exact late : False).elim
  | secondTest => exact late_fire_second armed line h fewer
  | inNextPlay =>
      have kept : (handle s).line = .inNextPlay := line
      simp only [Agrees, line] at h
      refine late_fire_surplus h (by rw [line]; decide) ?_ fewer
      simp only [Agrees, kept]
      exact h
  | setIdle =>
      have kept : (handle s).line = .setIdle := line
      simp only [Agrees, line] at h
      refine late_fire_surplus h (by rw [line]; decide) ?_ fewer
      simp only [Agrees, kept]
      exact h
  | disarm =>
      have kept : (handle s).line = .disarm := line
      simp only [Agrees, line] at h
      refine late_fire_surplus h.1 (by rw [line]; decide) ?_ fewer
      simp only [Agrees, kept]
      exact ⟨h.1, rfl⟩

theorem keeps_step {seen : Stage × List Gesture} {s s' : Machine} {tick : Tick} (h : Agrees seen s)
    (step : Ticks s tick s') (inTime : InTime s tick) : Keeps seen s tick s' := by
  obtain ⟨stage, made⟩ := seen
  cases step with
  | key ev line => exact keeps_key ev line h
  | press now line => exact keeps_press now line h
  | release now line => exact keeps_release now line h
  | go first second third => exact keeps_go h ⟨first, second, third⟩
  | fire armed => exact keeps_fire armed (inTime rfl) h

theorem ticks_unique (s : Machine) (tick : Tick) (t t' : Machine) (h : Ticks s tick t) (h' : Ticks s tick t') :
    t = t' := by
  cases h <;> cases h' <;> rfl

/-- Along every run the machine agrees with the gestures seen, has begun no fewer
actions than are meant, and just these as long as the timer has fired in time. -/
theorem runs_agree {old : Timeval} {ticks : List Tick} {s : Machine}
    (run : Trace Ticks (Machine.start old) ticks s) :
    Agrees (gestures ticks) s ∧
      (s.log = meant (gestures ticks) ↔ Trace (guarded InTime Ticks) (Machine.start old) ticks s) := by
  have invariant : Trace Ticks (Machine.start old) ticks s ∧ Agrees (gestures ticks) s ∧
      (meant (gestures ticks)).length ≤ s.log.length ∧
        (s.log = meant (gestures ticks) ↔ Trace (guarded InTime Ticks) (Machine.start old) ticks s) := by
    refine run.history_nil (I := fun past s => Trace Ticks (Machine.start old) past s ∧
      Agrees (gestures past) s ∧ (meant (gestures past)).length ≤ s.log.length ∧
        (s.log = meant (gestures past) ↔ Trace (guarded InTime Ticks) (Machine.start old) past s)) ?_ ?_
    · rintro past s tick s' ⟨came, agrees, fewer, exact_⟩ step
      rw [gestures_snoc]
      have before : Trace (guarded InTime Ticks) (Machine.start old) (past ++ [tick]) s' →
          Trace (guarded InTime Ticks) (Machine.start old) past s ∧ InTime s tick := by
        intro timely
        obtain ⟨m, front, back⟩ := timely.split
        have same := front.unguarded.unique ticks_unique came
        subst same
        cases back with
        | cons one _ => exact ⟨front, one.1⟩
      refine ⟨came.append (.cons step (.nil s')), ?_⟩
      by_cases inTime : InTime s tick
      · obtain ⟨agrees', more, log, means⟩ := keeps_step agrees step inTime
        refine ⟨agrees', ?_, ?_⟩
        · rw [log, means, List.length_append, List.length_append]
          omega
        · rw [log, means, List.append_left_inj, exact_]
          constructor
          · exact fun timely => timely.append (.cons ⟨inTime, step⟩ (.nil s'))
          · exact fun timely => (before timely).1
      · cases step with
        | fire armed =>
            have late : s.line.deciding := Classical.not_not.mp fun outside => inTime fun _ => outside
            obtain ⟨agrees', fewer', differs⟩ := late_fire armed late agrees fewer
            exact ⟨agrees', fewer', iff_of_false differs fun timely => inTime (before timely).2⟩
        | key ev line => exact absurd (fun same => by cases same) inTime
        | press now line => exact absurd (fun same => by cases same) inTime
        | release now line => exact absurd (fun same => by cases same) inTime
        | go first second third => exact absurd (fun same => by cases same) inTime
    · exact ⟨.nil _, ⟨rfl, rfl⟩, Nat.zero_le _, iff_of_true rfl (.nil _)⟩
  exact ⟨invariant.2.1, invariant.2.2.2⟩

/-- However presses, releases and expiries come: between two calls of
`ReadButton` each completed gesture has had its one action, in order, and after
it the machine is idle with the timer disarmed, exactly in the runs in which the
timer has not expired while a second press was being dealt with. -/
theorem one_gesture_one_action_iff {old : Timeval} {ticks : List Tick} {s : Machine}
    (run : Trace Ticks (Machine.start old) ticks s) (outside : s.line = .select) :
    (s.actions = (gestures ticks).2.map Gesture.action ∧
        ((gestures ticks).1 = .idle → s.state = .idle ∧ s.timer = 0)) ↔
      Trace (guarded InTime Ticks) (Machine.start old) ticks s := by
  obtain ⟨agrees, exact_⟩ := runs_agree run
  have at_ := (agrees_at (.inl outside)).mp agrees
  rw [← exact_, log_of_line outside (by decide), meant]
  constructor
  · exact fun h => h.1
  · intro acted
    refine ⟨acted, ?_⟩
    intro idle
    rw [idle] at at_
    exact at_

def keyPress : InputEvent := ⟨true, 1⟩
def keyRelease : InputEvent := ⟨true, 0⟩

/-- A press of 200 ms. -/
def click : List Tick :=
  [.key (some keyPress), .press ⟨5, 0⟩, .key (some keyRelease), .release ⟨5, 200000⟩, .go]

def clicked : Machine := ⟨.firstRelease, 300000, ⟨5, 0⟩, .select, []⟩

theorem click_arms : Trace (guarded InTime Ticks) (Machine.start ⟨0, 0⟩) click clicked := by
  refine .cons ⟨by simp [InTime], .key _ rfl⟩ ?_
  refine .cons ⟨by simp [InTime], .press _ rfl⟩ ?_
  refine .cons ⟨by simp [InTime], .key _ rfl⟩ ?_
  refine .cons ⟨by simp [InTime], .release _ rfl⟩ ?_
  refine .cons ⟨by simp [InTime], .go ?_ ?_ ?_⟩ (.nil _) <;> decide

theorem click_toggles :
    (gestures (click ++ [.fire])).2 = [.short] ∧
      (handle clicked).actions = (gestures (click ++ [.fire])).2.map Gesture.action ∧
        ((gestures (click ++ [.fire])).1 = .idle →
          (handle clicked).state = .idle ∧ (handle clicked).timer = 0) := by
  have run : Trace (guarded InTime Ticks) (Machine.start ⟨0, 0⟩) (click ++ [.fire]) (handle clicked) := by
    refine click_arms.append (.cons ⟨?_, .fire (by decide)⟩ (.nil _))
    intro _ deciding
    exact deciding
  exact ⟨rfl, (one_gesture_one_action_iff run.unguarded rfl).mpr run⟩

/-- The timer expires while `NextPlay` is executing: one double press, two actions. -/
theorem double_press_toggles :
    ¬ ∀ (ticks : List Tick) (s : Machine), Trace Ticks (Machine.start ⟨0, 0⟩) ticks s → s.line = .select →
      s.actions = (gestures ticks).2.map Gesture.action ∧
        ((gestures ticks).1 = .idle → s.state = .idle ∧ s.timer = 0) := by
  intro always
  have run : Trace Ticks clicked [.key (some keyPress), .press ⟨5, 400000⟩, .go, .fire, .go, .go, .go]
      ⟨.idle, 0, ⟨5, 0⟩, .select, [.nextPlay, .toggle]⟩ := by
    refine .cons (.key _ rfl) (.cons (.press _ rfl) ?_)
    refine .cons (.go (by decide) (by decide) (by decide)) (.cons (.fire (by decide)) ?_)
    refine .cons (.go (by decide) (by decide) (by decide)) ?_
    refine .cons (.go (by decide) (by decide) (by decide)) ?_
    exact .cons (.go (by decide) (by decide) (by decide)) (.nil _)
  have acted := (always _ _ (click_arms.unguarded.append run) rfl).1
  exact absurd acted (by decide)

end MusicPlayer.Speaker.Button
