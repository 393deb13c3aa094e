import MusicPlayer.Speaker.Playing
import MusicPlayer.Lib.Trace

/-! The player window of the app as a remote control. It sees the speaker only in
the reports that have arrived, and its commands arrive later still; meanwhile
the speaker may be worked by its button and by voice. -/
namespace MusicPlayer.App
open CBytes Program Runs Speaker

/-- As Qt documents them: what is no string counts as empty, and what is no `int` as zero. -/
def QJsonValue.toString : Json → Bytes
  | .string s => s
  | _ => []

def QJsonValue.toInt : Json → Int
  | .int n => if -2147483648 ≤ n ∧ n ≤ 2147483647 then n else 0
  | .real value _ =>
      if value.den = 1 ∧ -2147483648 ≤ value.num ∧ value.num ≤ 2147483647 then value.num else 0
  | _ => 0

def QJsonValue.toArray : Json → List Json
  | .array elems => elems
  | _ => []

/-! ## The window -/

/-- The two globals and what the widgets show; `mode` is the radio button that is checked. -/
structure Remote where
  startFlag : Bool
  suspendFlag : Bool
  pauseText : Bytes
  curMusic : Bytes
  deviceid : Bytes
  volume : Bytes
  mode : Option Int
  musicList : Bytes

def Remote.start : Remote :=
  ⟨false, true, lit "P", lit "           NULL", lit "0000", lit "50", none, []⟩

def pausing : Bytes := lit "||"
def resuming : Bytes := lit ">"

def handleInfo (obj : Json) (w : Remote) : Remote :=
  let curMusic := QJsonValue.toString (obj.member (lit "cur_music"))
  let status := QJsonValue.toString (obj.member (lit "status"))
  let deviceid := QJsonValue.toString (obj.member (lit "deviceid"))
  let volume := QJsonValue.toInt (obj.member (lit "volume"))
  let curMode := QJsonValue.toInt (obj.member (lit "mode"))
  let w := { w with curMusic }
  let w :=
    if status = lit "stop" then { w with pauseText := resuming, startFlag := false }
    else if status = lit "suspend" then { w with pauseText := resuming, suspendFlag := true }
    else if status = lit "start" then { w with startFlag := true, suspendFlag := false, pauseText := pausing }
    else w
  let w := { w with deviceid, volume := lit s!"{volume}" }
  if curMode = sequence then { w with mode := some sequence }
  else if curMode = circle then { w with mode := some circle }
  else w

def handleUpload (obj : Json) (w : Remote) : Remote :=
  { w with musicList :=
      (QJsonValue.toArray (obj.member (lit "music"))).flatMap fun e => QJsonValue.toString e ++ lit "\n" }

def command (obj : Json) : Bytes := QJsonValue.toString (obj.member (lit "cmd"))

def reciveReply (obj : Json) (w : Remote) : Remote :=
  if command obj = lit "info" then handleInfo obj w
  else if command obj = lit "upload_music" then handleUpload obj w
  else w

/-- The buttons. -/
inductive Click
  | pause
  | nextPlay
  | prevPlay
  | upVolume
  | downVolume
  | seq
  | cir
  deriving DecidableEq

/-- The command a click sends. -/
def Click.cmd (w : Remote) : Click → String
  | .pause =>
      if w.startFlag = false then "app_start"
      else if w.suspendFlag = true then "app_continue"
      else "app_suspend"
  | .nextPlay => "app_next"
  | .prevPlay => "app_prev"
  | .upVolume => "app_upvolume"
  | .downVolume => "app_downvolume"
  | .seq => "app_sequence"
  | .cir => "app_circle"

/-- A radio button that is clicked is checked. -/
def Remote.clicked (w : Remote) : Click → Remote
  | .seq => { w with mode := some sequence }
  | .cir => { w with mode := some circle }
  | _ => w

/-! ## The app and the speaker -/

/-- A click, what the pause button said then, and the command that was sent. -/
structure Order where
  click : Click
  text : Bytes
  cmd : String

/-- What works the speaker besides the app. -/
inductive Own
  | task (t : Task)
  | button
  | trackEnds

/-- Commands and messages on their way are in order. -/
structure Link where
  window : Remote
  orders : List Order
  replies : List Json
  speaker : Memory

def Link.start (speaker : Memory) : Link := ⟨.start, [], [], speaker⟩

inductive Move
  | click (o : Order)
  | obey (o : Order)
  | own (by_ : Own)
  | report
  | other
  | show_

/-- What a task makes of the speaker, if it neither stops it nor waits for a command. -/
def effect : Task → Option (Playing → Playing)
  | .startPlay | .sing _ => some fun _ => .playing
  | .suspendPlay => some .pause
  | .continuePlay | .nextPlay | .prevPlay => some .resume
  | .upVolume | .downVolume | .circlePlay | .sequencePlay | .getMusicName _ | .uploadMusic => some id
  | .stopPlay | .readSocket => none

variable (j : JsonC)

/-- Each of the speaker's functions runs to its end before the next begins. It is
not stopped but by what starts it again; a paused track does not end. -/
inductive Works : Own → Memory → Memory → Prop
  | task {t : Task} {s m : Memory} : (effect t).isSome → Ends (t.run j s) m → Works (.task t) s m
  | button {s m : Memory} : Ends (handle s) m → Works .button s m
  | trackEnds {s m : Memory} : s.suspendFlag = false → Ends (updateMusic j s) m → Works .trackEnds s m

inductive Moves : Link → Move → Link → Prop
  | click (c : Click) {l : Link} :
      Moves l (.click ⟨c, l.window.pauseText, c.cmd l.window⟩)
        { l with window := l.window.clicked c, orders := l.orders ++ [⟨c, l.window.pauseText, c.cmd l.window⟩] }
  | obey {o : Order} {rest : List Order} {l : Link} {m : Memory} : l.orders = o :: rest →
      Ends (execute j (lit o.cmd) l.speaker) m → Moves l (.obey o) { l with orders := rest, speaker := m }
  | own {by_ : Own} {l : Link} {m : Memory} : Works j by_ l.speaker m →
      Moves l (.own by_) { l with speaker := m }
  | report (curMusic : Bytes) (mode volume : Int) {l : Link} :
      Moves l .report { l with replies := l.replies ++ [infoReport curMusic mode (status l.speaker) volume] }
  | other {obj : Json} {l : Link} : command obj ≠ lit "info" →
      Moves l .other { l with replies := l.replies ++ [obj] }
  | show_ {obj : Json} {rest : List Json} {l : Link} : l.replies = obj :: rest →
      Moves l .show_ { l with window := reciveReply obj l.window, replies := rest }

/-! ## What the user means -/

/-- What a click is for, by what the pause button said when it was made. -/
def meant (o : Order) : Playing → Playing :=
  match o.click with
  | .pause => if o.text = pausing then .pause else fun _ => .playing
  | .nextPlay | .prevPlay => .resume
  | .upVolume | .downVolume | .seq | .cir => id

def Own.effect : Own → Playing → Playing
  | .task t => (App.effect t).getD id
  | .button => .toggle
  | .trackEnds => fun _ => .playing

/-- The speaker as those see it who work it. -/
def Playing.after (p : Playing) : Move → Playing
  | .obey o => meant o p
  | .own by_ => by_.effect p
  | .click _ | .report | .other | .show_ => p

def clicks (moves : List Move) : List Order := moves.filterMap fun
  | .click o => some o
  | _ => none

def obeyed (moves : List Move) : List Order := moves.filterMap fun
  | .obey o => some o
  | _ => none

theorem clicks_snoc (moves : List Move) (m : Move) : clicks (moves ++ [m]) = clicks moves ++ clicks [m] :=
  List.filterMap_append

theorem obeyed_snoc (moves : List Move) (m : Move) : obeyed (moves ++ [m]) = obeyed moves ++ obeyed [m] :=
  List.filterMap_append

/-! ## How far the window is behind -/

/-- The command is the one for what the button said, by now and from now on. -/
def Order.Right (o : Order) (started : Bool) : Prop :=
  ∃ f, (o.cmd, f) ∈ effects ∧ ∀ p : Playing, (started = true → p.started = true) → f p = meant o p

/-- A window that takes the speaker for started is right, and its pause button
says what a click of it does. -/
structure Shows (w : Remote) (started : Bool) : Prop where
  started : w.startFlag = true → started = true
  label : w.pauseText = pausing ↔ w.startFlag = true ∧ w.suspendFlag = false

/-- The invariant. What the user is told may be old, but a speaker once started stays so. -/
structure Abreast (l : Link) : Prop where
  window : Shows l.window l.speaker.startFlag
  replies : ∀ r ∈ l.replies, command r = lit "info" →
    QJsonValue.toString (r.member (lit "status")) = lit "start" → l.speaker.startFlag = true
  orders : ∀ o ∈ l.orders, o.Right l.speaker.startFlag

theorem shows_start (started : Bool) : Shows .start started where
  started on := by cases on
  label := by decide

theorem Shows.mono {w : Remote} {a b : Bool} (h : Shows w a) (le : a = true → b = true) : Shows w b :=
  ⟨fun on => le (h.started on), h.label⟩

theorem shows_clicked {w : Remote} {started : Bool} (c : Click) (h : Shows w started) :
    Shows (w.clicked c) started := by
  cases c <;> exact ⟨h.started, h.label⟩

theorem Order.Right.mono {o : Order} {a b : Bool} (h : o.Right a) (le : a = true → b = true) : o.Right b := by
  obtain ⟨f, known, same⟩ := h
  exact ⟨f, known, fun p on => same p fun a => on (le a)⟩

/-- What a report makes of the pause button and its flags. -/
theorem handleInfo_shows {obj : Json} {w : Remote} {started : Bool} (h : Shows w started)
    (told : QJsonValue.toString (obj.member (lit "status")) = lit "start" → started = true) :
    Shows (handleInfo obj w) started := by
  have apart : resuming ≠ pausing := by decide
  have first : ∀ u : Remote, Shows u started → ∀ curMode : Int,
      Shows (if curMode = sequence then { u with mode := some sequence }
        else if curMode = circle then { u with mode := some circle } else u) started := by
    intro u h curMode
    split
    · exact ⟨h.started, h.label⟩
    · split
      · exact ⟨h.started, h.label⟩
      · exact h
  unfold handleInfo
  refine first _ ?_ _
  split
  · exact ⟨fun on => absurd on Bool.false_ne_true,
      ⟨fun same => absurd same apart, fun both => absurd both.1 Bool.false_ne_true⟩⟩
  · split
    · exact ⟨h.started, ⟨fun same => absurd same apart, fun both => absurd both.2.symm Bool.false_ne_true⟩⟩
    · split
      next start => exact ⟨fun _ => told start, ⟨fun _ => ⟨rfl, rfl⟩, fun _ => rfl⟩⟩
      next => exact ⟨h.started, h.label⟩

theorem reciveReply_shows {obj : Json} {w : Remote} {started : Bool} (h : Shows w started)
    (told : command obj = lit "info" →
      QJsonValue.toString (obj.member (lit "status")) = lit "start" → started = true) :
    Shows (reciveReply obj w) started := by
  unfold reciveReply
  split
  next info => exact handleInfo_shows h (told info)
  next =>
    split
    · exact ⟨h.started, h.label⟩
    · exact h

/-- The only command that depends on what has been started before is sent when it has. -/
theorem right_of_shows {w : Remote} {started : Bool} (h : Shows w started) (c : Click) :
    Order.Right ⟨c, w.pauseText, c.cmd w⟩ started := by
  cases c with
  | pause =>
      unfold Click.cmd
      by_cases off : w.startFlag = false
      · have label : w.pauseText ≠ pausing := fun same => by
          rw [(h.label.mp same).1] at off
          cases off
        refine ⟨fun _ => .playing, by simp [effects, off], fun p _ => ?_⟩
        simp only [meant, if_neg label]
      · have on : w.startFlag = true := by simpa using off
        by_cases suspended : w.suspendFlag = true
        · have label : w.pauseText ≠ pausing := fun same => by
            rw [(h.label.mp same).2] at suspended
            cases suspended
          refine ⟨.resume, by simp [effects, off, suspended], fun p running => ?_⟩
          simp only [meant, if_neg label]
          exact resume_of_started (running (h.started on))
        · have label : w.pauseText = pausing := h.label.mpr ⟨on, by simpa using suspended⟩
          refine ⟨.pause, by simp [effects, off, suspended], fun p _ => ?_⟩
          simp only [meant, if_pos label]
  | nextPlay => exact ⟨.resume, by simp [effects, Click.cmd], fun _ _ => rfl⟩
  | prevPlay => exact ⟨.resume, by simp [effects, Click.cmd], fun _ _ => rfl⟩
  | upVolume => exact ⟨id, by simp [effects, Click.cmd], fun _ _ => rfl⟩
  | downVolume => exact ⟨id, by simp [effects, Click.cmd], fun _ _ => rfl⟩
  | seq => exact ⟨id, by simp [effects, Click.cmd], fun _ _ => rfl⟩
  | cir => exact ⟨id, by simp [effects, Click.cmd], fun _ _ => rfl⟩

/-! ## Runs -/

theorem task_does {t : Task} {f : Playing → Playing} (known : effect t = some f) : Does f (t.run j) := by
  cases t with
  | startPlay => cases known; exact startPlay_does
  | sing singer => cases known; exact stopPlay_does.andThen (replay_does j singer)
  | suspendPlay => cases known; exact suspendPlay_does
  | continuePlay => cases known; exact continuePlay_does
  | nextPlay => cases known; exact nextPlay_does j
  | prevPlay => cases known; exact prevPlay_does
  | upVolume => cases known; exact upVolume_does
  | downVolume => cases known; exact downVolume_does
  | circlePlay => cases known; exact setMode_does circle
  | sequencePlay => cases known; exact setMode_does sequence
  | getMusicName singer => cases known; exact getMusicName_does j singer
  | uploadMusic => cases known; exact uploadMusic_does j
  | stopPlay => cases known
  | readSocket => cases known

theorem works_stands {by_ : Own} {p : Playing} {s m : Memory} (stands : Stands p s) (works : Works j by_ s m) :
    Stands (by_.effect p) m := by
  cases works with
  | button ends => exact handle_does stands ends
  | trackEnds running ends =>
      have apart : p ≠ .paused := by
        rintro rfl
        rw [stands.suspended] at running
        cases running
      exact updateMusic_does j apart stands ends
  | task known ends =>
      obtain ⟨f, known⟩ := Option.isSome_iff_exists.mp known
      rw [Own.effect, known]
      exact task_does j known stands ends

/-- A speaker that was started stays so. -/
def Lasting (f : Playing → Playing) : Prop := ∀ p : Playing, p.started = true → (f p).started = true

theorem lasting_id : Lasting id := fun _ on => on

theorem lasting_play : Lasting fun _ => .playing := fun _ _ => rfl

theorem lasting_pause : Lasting Playing.pause := by
  intro p on
  cases p with
  | stopped => exact on
  | playing => rfl
  | paused => rfl

theorem lasting_resume : Lasting Playing.resume := by
  intro p on
  cases p with
  | stopped => exact on
  | playing => rfl
  | paused => rfl

theorem lasting_toggle : Lasting Playing.toggle := by
  intro p _
  cases p <;> rfl

theorem effect_lasting {t : Task} {f : Playing → Playing} (known : effect t = some f) : Lasting f := by
  cases t with
  | startPlay | sing singer =>
      cases known
      exact lasting_play
  | suspendPlay =>
      cases known
      exact lasting_pause
  | continuePlay | nextPlay | prevPlay =>
      cases known
      exact lasting_resume
  | upVolume | downVolume | circlePlay | sequencePlay | getMusicName singer | uploadMusic =>
      cases known
      exact lasting_id
  | stopPlay | readSocket => cases known

theorem own_lasting (by_ : Own) : Lasting by_.effect := by
  cases by_ with
  | button => exact lasting_toggle
  | trackEnds => exact lasting_play
  | task t =>
      cases known : effect t with
      | none =>
          rw [Own.effect, known]
          exact lasting_id
      | some f =>
          rw [Own.effect, known]
          exact effect_lasting known

theorem meant_lasting (o : Order) : Lasting (meant o) := by
  obtain ⟨click, text, cmd⟩ := o
  cases click with
  | pause =>
      unfold meant
      dsimp only
      split
      · exact lasting_pause
      · exact lasting_play
  | nextPlay | prevPlay => exact lasting_resume
  | upVolume | downVolume | seq | cir => exact lasting_id

/-- A speaker that has gone from one state to another, neither of them behind the other. -/
theorem Abreast.speaker {l : Link} (h : Abreast l) {m : Memory}
    (lasts : l.speaker.startFlag = true → m.startFlag = true) : Abreast { l with speaker := m } :=
  ⟨h.window.mono lasts, fun r member info start => lasts (h.replies r member info start),
    fun o member => (h.orders o member).mono lasts⟩

theorem abreast_step {p : Playing} {l l' : Link} {m : Move} (stands : Stands p l.speaker) (h : Abreast l)
    (step : Moves j l m l') : Stands (Playing.after p m) l'.speaker ∧ Abreast l' := by
  have lasts {f : Playing → Playing} {t : Memory} (lasting : Lasting f) (next : Stands (f p) t) :
      l.speaker.startFlag = true → t.startFlag = true := by
    rw [stands.started, next.started]
    exact lasting p
  cases step with
  | click c =>
      refine ⟨stands, shows_clicked c h.window, h.replies, ?_⟩
      intro o member
      rcases List.mem_append.mp member with old | new
      · exact h.orders o old
      · rw [List.mem_singleton.mp new]
        exact right_of_shows h.window c
  | @obey o rest _ t next ends =>
      obtain ⟨f, known, same⟩ := h.orders o (next ▸ List.mem_cons_self)
      have obeyed := execute_does j known stands ends
      rw [same p fun on => stands.started.symm.trans on] at obeyed
      refine ⟨obeyed, ?_⟩
      have fewer : Abreast { l with orders := rest } :=
        ⟨h.window, h.replies, fun o member => h.orders o (next ▸ List.mem_cons_of_mem _ member)⟩
      exact fewer.speaker (lasts (meant_lasting o) obeyed)
  | own works =>
      have worked := works_stands j stands works
      exact ⟨worked, h.speaker (lasts (own_lasting _) worked)⟩
  | report curMusic mode volume =>
      refine ⟨stands, h.window, ?_, h.orders⟩
      intro r member info start
      rcases List.mem_append.mp member with old | new
      · exact h.replies r old info start
      · rw [List.mem_singleton.mp new] at start
        change status l.speaker = lit "start" at start
        rw [stands.status] at start
        rw [stands.started]
        cases p with
        | stopped => exact absurd start (by decide)
        | playing => rfl
        | paused => rfl
  | other apart =>
      refine ⟨stands, h.window, ?_, h.orders⟩
      intro r member info start
      rcases List.mem_append.mp member with old | new
      · exact h.replies r old info start
      · rw [List.mem_singleton.mp new] at info
        exact absurd info apart
  | show_ next =>
      refine ⟨stands, ?_, ?_, h.orders⟩
      · exact reciveReply_shows h.window (h.replies _ (next ▸ List.mem_cons_self))
      · exact fun r member => h.replies r (next ▸ List.mem_cons_of_mem _ member)

/-- Clicks are obeyed in the order they are made. -/
theorem orders_step {past : List Move} {l l' : Link} {m : Move} (h : clicks past = obeyed past ++ l.orders)
    (step : Moves j l m l') : clicks (past ++ [m]) = obeyed (past ++ [m]) ++ l'.orders := by
  rw [clicks_snoc, obeyed_snoc, h]
  cases step with
  | click c => simp [clicks, obeyed]
  | obey next ends => simp [clicks, obeyed, next]
  | own works => simp [clicks, obeyed]
  | report curMusic mode volume => simp [clicks, obeyed]
  | other apart => simp [clicks, obeyed]
  | show_ next => simp [clicks, obeyed]

/-! ## The pause button -/

/-- `pgrep` and an answer. -/
def Answering (op : Call) : Prop := op = .pgrep ∨ ∃ obj, op = .send obj

theorem sendReply_answering (cmd result : String) (s : Memory) :
    (sendReply j cmd result s).Every Answering := sendMusicInfo_every j (fun obj => .inr ⟨obj, rfl⟩) _ s

/-- The command does what `run` does and answers. -/
def AnsweredAs (cmd : String) (run : Memory → Code) (s : Memory) : Prop :=
  ∃ answer : Memory → Code, (∀ t, (answer t).Every Answering) ∧
    execute j (lit cmd) s = (run s).andThen answer

theorem handlers_playing : ("app_start", socketStartPlay j) ∈ handlers j ∧
    ("app_suspend", socketSuspendPlay j) ∈ handlers j ∧ ("app_continue", socketContinuePlay j) ∈ handlers j := by
  simp [handlers]

theorem start_answering (s : Memory) : AnsweredAs j "app_start" startPlay s := by
  refine ⟨fun t => .call t .pgrep fun (result : Bytes) t =>
    sendReply j "app_start_reply" (if result = [] then "failure" else "success") t, fun t => ?_, ?_⟩
  · exact .call (.inl rfl) fun result t => sendReply_answering j _ _ t
  · exact execute_known j (handlers_playing j).1 s

theorem suspend_answering (s : Memory) : AnsweredAs j "app_suspend" suspendPlay s :=
  ⟨_, sendReply_answering j _ _, execute_known j (handlers_playing j).2.1 s⟩

theorem continue_answering (s : Memory) : AnsweredAs j "app_continue" continuePlay s :=
  ⟨_, sendReply_answering j _ _, execute_known j (handlers_playing j).2.2 s⟩

/-- The radio buttons have no part in the flags. -/
theorem handleInfo_flags {obj : Json} {p : Playing} (told : QJsonValue.toString (obj.member (lit "status")) = p.status)
    (w : Remote) :
    (handleInfo obj w).startFlag = (if p = .paused then w.startFlag else p.started) ∧
      (p ≠ .stopped → (handleInfo obj w).suspendFlag = p.suspended) := by
  have suspend : lit "suspend" ≠ lit "stop" := by decide
  have start : lit "start" ≠ lit "stop" ∧ lit "start" ≠ lit "suspend" := by decide
  unfold handleInfo
  rw [told]
  cases p with
  | stopped => simp only [Playing.status, if_pos]; split <;> [skip; split] <;> exact ⟨rfl, fun h => absurd rfl h⟩
  | paused =>
      simp only [Playing.status, if_neg suspend, if_pos]
      split <;> [skip; split] <;> exact ⟨rfl, fun _ => rfl⟩
  | playing =>
      simp only [Playing.status, if_neg start.1, if_neg start.2, if_pos]
      split <;> [skip; split] <;> exact ⟨rfl, fun _ => rfl⟩

/-- What the pause button sends after a report of how the speaker stands does what
the speaker's own button does, and answers. -/
theorem pause_is_button {p : Playing} {s : Memory} (stands : Stands p s) {obj : Json} (info : command obj = lit "info")
    (told : QJsonValue.toString (obj.member (lit "status")) = status s) (w : Remote) :
    AnsweredAs j (Click.pause.cmd (reciveReply obj w)) handle s := by
  rw [stands.status] at told
  obtain ⟨started, suspended⟩ := handleInfo_flags told w
  rw [reciveReply, if_pos info]
  have button : ∀ {run : Memory → Code} {cmd : String}, handle s = run s → AnsweredAs j cmd run s →
      AnsweredAs j cmd handle s := by
    rintro run cmd same ⟨answer, quiet, does⟩
    exact ⟨answer, quiet, by rw [does, same]⟩
  cases p with
  | stopped =>
      have still : s.startFlag = false := stands.started
      have off : (handleInfo obj w).startFlag = false := started
      rw [Click.cmd, if_pos off]
      refine button ?_ (start_answering j s)
      rw [handle, if_pos still]
  | playing =>
      have going : s.startFlag = true ∧ s.suspendFlag = false := ⟨stands.started, stands.suspended⟩
      have on : (handleInfo obj w).startFlag = true := started
      have running : (handleInfo obj w).suspendFlag = false := suspended (by decide)
      rw [Click.cmd, if_neg (by rw [on]; decide), if_neg (by rw [running]; decide)]
      refine button ?_ (suspend_answering j s)
      rw [handle, if_neg (by rw [going.1]; decide), if_pos going.2]
  | paused =>
      have waiting : s.startFlag = true ∧ s.suspendFlag = true := ⟨stands.started, stands.suspended⟩
      have held : (handleInfo obj w).suspendFlag = true := suspended (by decide)
      have goesOn : handle s = continuePlay s := by
        rw [handle, if_neg (by rw [waiting.1]; decide), if_neg (by rw [waiting.2]; decide)]
      rw [Click.cmd, if_pos held]
      split
      · -- `StartPlay` goes on with what is paused
        refine button ?_ (start_answering j s)
        rw [goesOn, startPlay, if_pos waiting.2]
      · exact button goesOn (continue_answering j s)

/-- Whatever the window has been told and whatever works the speaker besides it, as long
as nothing stops it and all stay connected: each click does to the speaker what the
pause button said when it was made, in the order of the clicks; and after a report of
how the speaker stands the pause button is the speaker's own button. -/
theorem remote_refines {p : Playing} {s : Memory} (stands : Stands p s) {moves : List Move} {l : Link}
    (run : Trace (Moves j) (.start s) moves l) :
    Stands (moves.foldl Playing.after p) l.speaker ∧ clicks moves = obeyed moves ++ l.orders ∧
    ∀ obj, command obj = lit "info" → QJsonValue.toString (obj.member (lit "status")) = status l.speaker →
      AnsweredAs j (Click.pause.cmd (reciveReply obj l.window)) handle l.speaker := by
  have start : Abreast (.start s) :=
    ⟨shows_start _, fun _ member => absurd member List.not_mem_nil, fun _ member => absurd member List.not_mem_nil⟩
  have kept := run.history_nil
    (I := fun (past : List Move) (l : Link) => Stands (past.foldl Playing.after p) l.speaker ∧ clicks past = obeyed past ++ l.orders ∧
      Abreast l) ?_ ⟨stands, rfl, start⟩
  · obtain ⟨now, order, -⟩ := kept
    exact ⟨now, order, fun obj info told => pause_is_button j now info told l.window⟩
  · rintro past l m l' ⟨now, order, abreast⟩ step
    rw [List.foldl_append]
    obtain ⟨next, abreast⟩ := abreast_step j now abreast step
    exact ⟨next, orders_step j order step, abreast⟩

def oneTrack : Memory := ⟨false, false, .offline, [lit "a/b.mp3"]⟩

def firstClick : Order := ⟨.pause, lit "P", "app_start"⟩

def startOnce : Link := ⟨.start, [], [], { oneTrack with startFlag := true }⟩

/-- The first click of the pause button, before any report. -/
theorem firstClick_starts :
    Stands .playing startOnce.speaker ∧ clicks [.click firstClick, .obey firstClick] = [firstClick] := by
  have aTrack : 0 ∉ lit "a/b.mp3" ∧ (lit "a/b.mp3").length < 128 := by decide
  have obeyed : Ends (execute jsonC (lit "app_start") oneTrack) startOnce.speaker := by
    obtain ⟨musicName, copied, -⟩ := strcpy_zeros (n := 128) aTrack.1 aTrack.2
    rw [execute_known jsonC (handlers_playing jsonC).1]
    refine ends_andThen.mpr ⟨startOnce.speaker, .call () (ends_check.mpr ⟨musicName, copied, ?_⟩), ?_⟩
    · exact .call () (.done _)
    · exact .call (lit "1") (.done _)
  have run : Trace (Moves jsonC) (.start oneTrack) [.click firstClick, .obey firstClick] startOnce :=
    .cons (.click .pause) (.cons (.obey rfl obeyed) (.nil _))
  obtain ⟨stands, order, -⟩ := remote_refines jsonC (p := .stopped) ⟨rfl, rfl⟩ run
  exact ⟨stands, order⟩

end MusicPlayer.App
