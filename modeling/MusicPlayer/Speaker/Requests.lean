import MusicPlayer.Speaker.Player
import MusicPlayer.Lib.Trace

/-! The stream from the server carries replies to `get_music_list` and frames
nobody asked for. The parent reads the next frame as a reply right after it has
asked, and as a command otherwise. -/
namespace MusicPlayer.Speaker
open CBytes Program Runs

variable (j : JsonC)

/-! ## Frames -/

/-- The commands the server forwards, with the request for the current list. -/
def pushedCommands : List String :=
  ["app_start", "app_stop", "app_suspend", "app_continue", "app_prev", "app_next",
    "app_upvolume", "app_downvolume", "app_circle", "app_sequence", "app_capture_cur_musiclist"]

/-- A notice has no `cmd`, or a null one. -/
def IsNotice (text : Bytes) : Prop :=
  ∃ obj, j.parse text = some obj ∧ obj.member (lit "cmd") = .null

def IsCommand (name : String) (text : Bytes) : Prop :=
  name ∈ pushedCommands ∧ ∃ obj, j.parse text = some obj ∧
    obj.member (lit "cmd") = .string (lit name)

/-- The frames the server sends unasked. -/
def IsPush (text : Bytes) : Prop := IsNotice j text ∨ ∃ name, IsCommand j name text

/-- The reply to `get_music_list` with these names, each a `singer/track` made of
names of files. -/
def IsReply (names : List Bytes) (text : Bytes) : Prop :=
  (∃ obj, j.parse text = some obj ∧ obj.member (lit "cmd") = .string (lit "reply_music_list") ∧
    obj.member (lit "music") = .array (names.map .string)) ∧
  ∀ name ∈ names, name ≠ [] ∧ 0 ∉ name

/-! ## The two ends and what is between them -/

/-- The parent's code and, while that is its signal handler's, the code this
interrupts; the frames on their way to it, how many replies the server owes,
and the history: the pushes sent, the names of the last reply sent, and
what each of the two readers has taken. -/
structure Line where
  code : Code
  suspended : Option Code
  queue : List Bytes
  owed : Nat
  pushed : List Bytes
  last : Option (List Bytes)
  dispatched : List Bytes
  consumed : List Bytes

def Line.start (s : Memory) : Line := ⟨.done s, none, [], 0, [], none, [], []⟩

/-- `send` and `recSocketData` act on the line, every other call gets any answer. -/
def Call.OffLine : Call → Prop
  | .send _ => False
  | .recSocketData _ => False
  | _ => True

inductive Move
  | begin (t : Task)
  | enter
  | leave
  | work
  | push (text : Bytes)
  | reply (names : List Bytes) (text : Bytes)

inductive Moves : Line → Move → Line → Prop
  | begin (t : Task) {l : Line} {s : Memory} : l.suspended = none → l.code = .done s →
      Moves l (.begin t) { l with code := t.run j s }
  | enter {l : Line} {s : Memory} : l.suspended = none → l.code.memory = some s →
      Moves l .enter { l with code := updateMusic j s, suspended := some l.code }
  | leave {l : Line} {s : Memory} {code : Code} : l.suspended = some code → l.code = .done s →
      Moves l .leave { l with code := code.withMemory s, suspended := none }
  | call {l : Line} {s : Memory} {op : Call} {k : op.Answer → Memory → Code} (a : op.Answer) :
      l.code = .call s op k → op.OffLine → Moves l .work { l with code := k a s }
  | send {l : Line} {s : Memory} {obj : Json} {k : Unit → Memory → Code} :
      l.code = .call s (.send obj) k →
      Moves l .work { l with
        code := k () s
        owed := l.owed + if obj.isCmd "get_music_list" then 1 else 0 }
  | readReply {l : Line} {s : Memory} {k : Bytes → Memory → Code} {text : Bytes} {rest : List Bytes} :
      l.code = .call s (.recSocketData .getMusicName) k → l.queue = text :: rest →
      Moves l .work { l with code := k text s, queue := rest, consumed := l.consumed ++ [text] }
  | readCommand {l : Line} {s : Memory} {k : Bytes → Memory → Code} {text : Bytes} {rest : List Bytes} :
      l.code = .call s (.recSocketData .readSocket) k → l.queue = text :: rest →
      Moves l .work { l with code := k text s, queue := rest, dispatched := l.dispatched ++ [text] }
  | push {l : Line} {text : Bytes} : IsPush j text →
      Moves l (.push text) { l with queue := l.queue ++ [text], pushed := l.pushed ++ [text] }
  | reply {l : Line} {names : List Bytes} {text : Bytes} {n : Nat} : l.owed = n + 1 → IsReply j names text →
      Moves l (.reply names text)
        { l with queue := l.queue ++ [text], owed := n, last := some names }

/-- `GetMusicName` between its clearing of the list and its reading of the reply. -/
def Requesting (code : Code) : Prop :=
  (∃ s obj k, code = .call s (.send obj) k ∧ obj.isCmd "get_music_list" = true) ∨
    ∃ s k, code = .call s (.recSocketData .getMusicName) k

/-- A request is sent only when every frame has been read, the server sends
nothing between a request and its reply, and the handler does not start within
a request. -/
def Orderly (l : Line) : Move → Prop
  | .work => ∀ s obj k, l.code = .call s (.send obj) k → obj.isCmd "get_music_list" = true → l.queue = []
  | .push _ => l.owed = 0
  | .enter => ¬ Requesting l.code
  | _ => True

/-! ## What the two readers make of a frame -/

theorem parseMessage_notice {text : Bytes} (h : IsNotice j text) : parseMessage j text = .ok [] := by
  obtain ⟨obj, parsed, none_⟩ := h
  simp only [parseMessage, parsed, none_, getString]

theorem dispatchFrame_notice {text : Bytes} (h : IsNotice j text) (s : Memory) :
    dispatchFrame j text s = .done s := by
  rw [dispatchFrame, parseMessage_notice j h]
  exact execute_empty j s

theorem parseMessage_command {name : String} {text : Bytes} (h : IsCommand j name text) :
    parseMessage j text = .ok (lit name) := by
  obtain ⟨known, obj, parsed, cmd⟩ := h
  have plain : ∀ name ∈ pushedCommands, 0 ∉ lit name ∧ (lit name).length < 32 := by decide
  obtain ⟨noNul, short⟩ := plain name known
  simp only [parseMessage, parsed, cmd, getString, cstr_eq_self noNul, if_pos short]

theorem dispatchFrame_command {name : String} {run : Memory → Code} {text : Bytes}
    (h : IsCommand j name text) (known : (name, run) ∈ handlers j) (s : Memory) :
    dispatchFrame j text s = run s := by
  rw [dispatchFrame, parseMessage_command j h]
  exact execute_known j known s

theorem arrayNames_strings {names : List Bytes} (noNul : ∀ name ∈ names, 0 ∉ name) :
    arrayNames j (names.map .string) = .ok names := by
  induction names with
  | nil => rfl
  | cons name names ih =>
      have rest := ih fun n member => noNul n (List.mem_cons_of_mem _ member)
      have same := cstr_eq_self (noNul name List.mem_cons_self)
      simp only [List.map_cons, arrayNames, getString, same, rest]
      rfl

/-- An empty playlist takes on the names of the reply, if each fits its node. -/
theorem linkMusicList_reply {names : List Bytes} {text : Bytes} (h : IsReply j names text) {s t : Memory}
    (empty : s.musicHead = []) (linked : linkMusicList j text s = .ok t) :
    t = { s with musicHead := names } := by
  obtain ⟨⟨obj, parsed, cmd, music⟩, real⟩ := h
  have noNul : 0 ∉ lit "reply_music_list" := by decide
  have strings := arrayNames_strings j fun n member => (real n member).2
  simp only [linkMusicList, parsed, cmd, getString, cstr_eq_self noNul, ne_eq, not_true_eq_false,
    if_false, music, strings, empty] at linked
  obtain ⟨_, read, linked⟩ := Except.bind_eq_ok.mp linked
  cases read
  obtain ⟨head, inserted, same⟩ := Except.bind_eq_ok.mp linked
  have all := insertAll_eq (fun n member => (real n member).1) (by simp) inserted
  rw [← Except.ok.inj same, all, List.nil_append]

/-! ## Code that reads a reply only where it has asked for one -/

/-- Memory whose playlist is the one of the last reply. -/
def Current (last : Option (List Bytes)) (s : Memory) : Prop :=
  s.deviceMode = .online ∧ ∀ names, last = some names → s.musicHead = names

/-- Whatever has been loaded while it was interrupted, the code leaves the
playlist of the last reply, and reads a reply right after it has asked for one. -/
inductive Good : Option (List Bytes) → Code → Prop
  | done {last : Option (List Bytes)} {s : Memory} : Current last s → Good last (.done s)
  | fail {last : Option (List Bytes)} (e : Fault) : Good last (.fail e)
  | call {last : Option (List Bytes)} {s : Memory} {op : Call} {k : op.Answer → Memory → Code} :
      op.OffLine → Current last s → (∀ a last s, Current last s → Good last (k a s)) →
      Good last (.call s op k)
  | send {last : Option (List Bytes)} {s : Memory} {obj : Json} {k : Unit → Memory → Code} :
      obj.isCmd "get_music_list" = false → Current last s →
      (∀ last s, Current last s → Good last (k () s)) → Good last (.call s (.send obj) k)
  | ask {last : Option (List Bytes)} {s : Memory} {obj : Json} {k : Unit → Memory → Code}
      {next : Bytes → Memory → Code} : obj.isCmd "get_music_list" = true →
      k () s = .call s (.recSocketData .getMusicName) next →
      (∀ names text, IsReply j names text → Good (some names) (next text s)) →
      Good last (.call s (.send obj) k)

theorem Good.andThen {last : Option (List Bytes)} {p : Code} {f : Memory → Code} (first : Good j last p)
    (second : ∀ last s, Current last s → Good j last (f s)) : Good j last (p.andThen f) := by
  induction first with
  | done current => exact second _ _ current
  | fail e => exact .fail e
  | call off current _ ih => exact .call off current ih
  | send other current _ ih => exact .send other current ih
  | ask request reads _ ih =>
      have goes := congrArg (fun p => Program.andThen p f) reads
      exact .ask request goes ih

theorem Good.check {last : Option (List Bytes)} {α : Type} {x : Except Fault α} {f : α → Code}
    (h : ∀ a, Good j last (f a)) : Good j last (Program.check x f) := by
  cases x with
  | ok a => exact h a
  | error e => exact .fail e

theorem sendMusicInfo_good {last : Option (List Bytes)} {obj : Json} {s : Memory}
    (other : obj.isCmd "get_music_list" = false) (current : Current last s) :
    Good j last (sendMusicInfo j obj s) := by
  unfold sendMusicInfo
  split
  · apply Good.check
    intro bytes
    exact .send other current fun _ _ current => .done current
  · exact .done current

theorem uploadMusic_good {last : Option (List Bytes)} {s : Memory} (current : Current last s) :
    Good j last (uploadMusic j s) := sendMusicInfo_good j rfl current

theorem getMusicName_good (last : Option (List Bytes)) (singer : Bytes) {s : Memory}
    (online : s.deviceMode = .online) : Good j last (getMusicName j singer s) := by
  have mode : (clearMusicList s).deviceMode = .online := online
  simp only [getMusicName, sendMusicInfo, mode, check_andThen]
  apply Good.check
  intro bytes
  refine .ask rfl rfl ?_
  intro names text reply
  cases linked : linkMusicList j text (clearMusicList s) with
  | error e => exact .fail e
  | ok t =>
      have loaded := linkMusicList_reply j reply rfl linked
      subst loaded
      refine uploadMusic_good j ⟨online, ?_⟩
      intro others same
      cases same
      rfl

theorem continuePlay_good {last : Option (List Bytes)} {s : Memory} (current : Current last s) :
    Good j last (continuePlay s) := by
  unfold continuePlay
  split
  · exact .call trivial current fun _ _ _ current => .done current
  · exact .done current

theorem suspendPlay_good {last : Option (List Bytes)} {s : Memory} (current : Current last s) :
    Good j last (suspendPlay s) := by
  unfold suspendPlay
  split
  · exact .call trivial current fun _ _ _ current => .done current
  · exact .done current

theorem startPlay_good {last : Option (List Bytes)} {s : Memory} (current : Current last s) :
    Good j last (startPlay s) := by
  unfold startPlay
  split
  · exact continuePlay_good j current
  · split
    · exact .done current
    · refine .call trivial current fun _ last s current => ?_
      split
      · exact .fail _
      · apply Good.check
        intro musicName
        exact .call trivial current fun _ _ _ current => .done current

theorem stopPlay_good {last : Option (List Bytes)} {s : Memory} (current : Current last s) :
    Good j last (stopPlay s) := by
  unfold stopPlay
  split
  · refine .call trivial current fun curInfo last s current => ?_
    refine .call trivial current fun _ last s current => ?_
    refine .call trivial current fun _ last s current => ?_
    exact .call trivial current fun _ _ _ current => .done current
  · exact .done current

/-- The request for a new list, and playing it. -/
theorem replay_good (last : Option (List Bytes)) (singer : Bytes) {s : Memory}
    (online : s.deviceMode = .online) :
    Good j last ((getMusicName j singer s).andThen startPlay) :=
  (getMusicName_good j last singer online).andThen j fun _ _ current => startPlay_good j current

theorem loadTrack_good {last : Option (List Bytes)} (curInfo : Shm) (name : Bytes) {s : Memory}
    (current : Current last s) : Good j last (loadTrack curInfo name s) := by
  unfold loadTrack
  apply Good.check
  intro curInfo
  refine .call trivial current fun _ last s current => ?_
  refine .call trivial current fun _ last s current => ?_
  apply Good.check
  intro path
  exact .call trivial current fun _ _ _ current => .done current

theorem nextPlay_good {last : Option (List Bytes)} {s : Memory} (current : Current last s) :
    Good j last (nextPlay j s) := by
  unfold nextPlay
  split
  · refine .call trivial current fun _ last s current => ?_
    refine .call trivial current fun curInfo last s current => ?_
    apply Good.check
    intro next
    cases next with
    | none =>
        refine (stopPlay_good j current).andThen j ?_
        intro last s current
        exact replay_good j last _ current.1
    | some name => exact loadTrack_good j curInfo name current
  · exact .done current

theorem prevPlay_good {last : Option (List Bytes)} {s : Memory} (current : Current last s) :
    Good j last (prevPlay s) := by
  unfold prevPlay
  split
  · refine .call trivial current fun _ last s current => ?_
    refine .call trivial current fun curInfo last s current => ?_
    exact Good.check j fun name => loadTrack_good j curInfo name current
  · exact .done current

theorem updateMusic_good {last : Option (List Bytes)} {s : Memory} (current : Current last s) :
    Good j last (updateMusic j s) := by
  unfold updateMusic
  refine .call trivial current fun _ last s current => ?_
  refine .call trivial current fun curInfo last s current => ?_
  refine .call trivial current fun _ last s current => ?_
  refine .call trivial current fun _ last s current => ?_
  exact replay_good j last _ current.1

theorem upVolume_good {last : Option (List Bytes)} {s : Memory} (current : Current last s) :
    Good j last (upVolume s) := by
  unfold upVolume
  refine .call trivial current fun volume last s current => ?_
  split
  · exact .call trivial current fun _ _ _ current => .done current
  · exact .done current

theorem downVolume_good {last : Option (List Bytes)} {s : Memory} (current : Current last s) :
    Good j last (downVolume s) := by
  unfold downVolume
  refine .call trivial current fun volume last s current => ?_
  split
  · exact .call trivial current fun _ _ _ current => .done current
  · exact .done current

theorem setMode_good {last : Option (List Bytes)} (mode : Int) {s : Memory} (current : Current last s) :
    Good j last (setMode mode s) := by
  unfold setMode
  refine .call trivial current fun curInfo last s current => ?_
  exact .call trivial current fun _ _ _ current => .done current

theorem sing_good (last : Option (List Bytes)) (singer : Bytes) {s : Memory} (current : Current last s) :
    Good j last (Task.run j (.sing singer) s) := by
  refine (stopPlay_good j current).andThen j ?_
  intro last s current
  exact replay_good j last singer current.1

theorem sendReply_good {last : Option (List Bytes)} {cmd : String} (result : String)
    (other : (lit cmd == lit "get_music_list") = false) {s : Memory} (current : Current last s) :
    Good j last (sendReply j cmd result s) := sendMusicInfo_good j other current

theorem answered_good {run : Memory → Code} {cmd : String}
    (good : ∀ {last s}, Current last s → Good j last (run s))
    (other : (lit cmd == lit "get_music_list") = false) {last : Option (List Bytes)} {s : Memory}
    (current : Current last s) : Good j last (answered j run cmd s) := by
  refine (good current).andThen j ?_
  intro last s current
  exact sendReply_good j "success" other current

theorem socketStartPlay_good {last : Option (List Bytes)} {s : Memory} (current : Current last s) :
    Good j last (socketStartPlay j s) := by
  refine (startPlay_good j current).andThen j ?_
  intro last s current
  refine .call trivial current fun result last s current => ?_
  exact sendReply_good j _ rfl current

theorem socketStopPlay_good {last : Option (List Bytes)} {s : Memory} (current : Current last s) :
    Good j last (socketStopPlay j s) := by
  refine (stopPlay_good j current).andThen j ?_
  intro last s current
  refine .call trivial current fun result last s current => ?_
  exact sendReply_good j _ rfl current

theorem handlers_good : ∀ h ∈ handlers j, ∀ last s, Current last s → Good j last (h.2 s) := by
  simp only [handlers, List.forall_mem_cons, List.not_mem_nil, false_implies, implies_true, and_true]
  refine ⟨?_, ?_, ?_, ?_, ?_, ?_, ?_, ?_, ?_, ?_, ?_, ?_⟩ <;> intro last s current
  · exact socketStartPlay_good j current
  · exact socketStopPlay_good j current
  · exact answered_good j (suspendPlay_good j) rfl current
  · exact answered_good j (continuePlay_good j) rfl current
  · exact answered_good j (nextPlay_good j) rfl current
  · exact answered_good j (prevPlay_good j) rfl current
  · exact answered_good j (downVolume_good j) rfl current
  · exact answered_good j (upVolume_good j) rfl current
  · exact answered_good j (setMode_good j circle) rfl current
  · exact answered_good j (setMode_good j sequence) rfl current
  · exact uploadMusic_good j current
  · exact uploadMusic_good j current

theorem pushed_known {name : String} (h : name ∈ pushedCommands) :
    ∃ run, (name, run) ∈ handlers j := by
  have names : (handlers j).map Prod.fst = ["app_start", "app_stop", "app_suspend", "app_continue",
      "app_next", "app_prev", "app_downvolume", "app_upvolume", "app_circle", "app_sequence",
      "app_get_music", "app_capture_cur_musiclist"] := rfl
  have known : ∀ name ∈ pushedCommands, name ∈ (handlers j).map Prod.fst := by
    rw [names]
    decide
  obtain ⟨⟨_, run⟩, member, rfl⟩ := List.mem_map.mp (known name h)
  exact ⟨run, member⟩

theorem dispatchFrame_good {text : Bytes} (h : IsPush j text) {last : Option (List Bytes)} {s : Memory}
    (current : Current last s) : Good j last (dispatchFrame j text s) := by
  rcases h with notice | ⟨name, command⟩
  · rw [dispatchFrame_notice j notice]
    exact .done current
  · obtain ⟨run, known⟩ := pushed_known j command.1
    rw [dispatchFrame_command j command known]
    exact handlers_good j _ known last s current

/-- Every task but `readSocket`, which waits for a command instead. -/
theorem task_good (t : Task) (other : t ≠ .readSocket) {last : Option (List Bytes)} {s : Memory}
    (current : Current last s) : Good j last (t.run j s) := by
  cases t with
  | startPlay => exact startPlay_good j current
  | stopPlay => exact stopPlay_good j current
  | suspendPlay => exact suspendPlay_good j current
  | continuePlay => exact continuePlay_good j current
  | nextPlay => exact nextPlay_good j current
  | prevPlay => exact prevPlay_good j current
  | upVolume => exact upVolume_good j current
  | downVolume => exact downVolume_good j current
  | circlePlay => exact setMode_good j circle current
  | sequencePlay => exact setMode_good j sequence current
  | getMusicName singer => exact getMusicName_good j last singer current.1
  | sing singer => exact sing_good j last singer current
  | uploadMusic => exact uploadMusic_good j current
  | readSocket => exact absurd rfl other

/-! ## Orderly runs -/

/-- Where the parent is with its request, and which pushes it has still to read. -/
inductive Phase : Line → List Bytes → Prop
  | working {l : Line} : Good j l.last l.code → l.owed = 0 → Phase l l.queue
  | reading {l : Line} {s : Memory} : l.code = readSocket j s → Current l.last s → l.owed = 0 →
      Phase l l.queue
  | unanswered {l : Line} {s : Memory} {next : Bytes → Memory → Code} :
      l.code = .call s (.recSocketData .getMusicName) next →
      (∀ names text, IsReply j names text → Good j (some names) (next text s)) →
      l.owed = 1 → l.queue = [] → Phase l []
  | answered {l : Line} {s : Memory} {next : Bytes → Memory → Code} {names : List Bytes} {text : Bytes}
      {waiting : List Bytes} : l.code = .call s (.recSocketData .getMusicName) next →
      Good j (some names) (next text s) → l.owed = 0 → l.last = some names →
      IsReply j names text → l.queue = text :: waiting → Phase l waiting

/-- Interrupted code that the handler may give back any current memory. -/
def Resumes (code : Code) : Prop :=
  (∀ last s, Current last s → Good j last (code.withMemory s)) ∨ ∃ s, code = readSocket j s

structure Tracked (l : Line) (waiting : List Bytes) : Prop where
  phase : Phase j l waiting
  resumes : ∀ code, l.suspended = some code → Resumes j code
  unread : ∀ text ∈ waiting, IsPush j text
  all : l.dispatched ++ waiting = l.pushed
  replies : ∀ text ∈ l.consumed, ∃ names, IsReply j names text
  pushes : ∀ text ∈ l.dispatched, IsPush j text

variable {j}

/-! What a phase says of the parent at each kind of code. -/

theorem Phase.idle {l : Line} {waiting : List Bytes} (h : Phase j l waiting) {s : Memory}
    (code : l.code = .done s) : Current l.last s ∧ l.owed = 0 ∧ waiting = l.queue := by
  cases h with
  | working good quiet =>
      rw [code] at good
      cases good with
      | done current => exact ⟨current, quiet, rfl⟩
  | reading here _ _ => cases code.symm.trans here
  | unanswered here _ _ _ => cases code.symm.trans here
  | answered here _ _ _ _ _ => cases code.symm.trans here

theorem Phase.calls {l : Line} {waiting : List Bytes} (h : Phase j l waiting) {s : Memory} {op : Call}
    {k : op.Answer → Memory → Code} (code : l.code = .call s op k)
    (other : ∀ reader, op ≠ .recSocketData reader) :
    Good j l.last (.call s op k) ∧ l.owed = 0 ∧ waiting = l.queue := by
  cases h with
  | working good quiet =>
      rw [code] at good
      exact ⟨good, quiet, rfl⟩
  | reading here _ _ =>
      cases code.symm.trans here
      exact absurd rfl (other _)
  | unanswered here _ _ _ =>
      cases code.symm.trans here
      exact absurd rfl (other _)
  | answered here _ _ _ _ _ =>
      cases code.symm.trans here
      exact absurd rfl (other _)

theorem Phase.socket {l : Line} {waiting : List Bytes} (h : Phase j l waiting) {s : Memory}
    {k : Bytes → Memory → Code} (code : l.code = .call s (.recSocketData .readSocket) k) :
    k = dispatchFrame j ∧ Current l.last s ∧ l.owed = 0 ∧ waiting = l.queue := by
  cases h with
  | working good _ =>
      rw [code] at good
      cases good with
      | call off _ _ => exact off.elim
  | reading here current quiet =>
      cases code.symm.trans here
      exact ⟨rfl, current, quiet, rfl⟩
  | unanswered here _ _ _ => cases code.symm.trans here
  | answered here _ _ _ _ _ => cases code.symm.trans here

theorem Phase.awaits {l : Line} {waiting : List Bytes} (h : Phase j l waiting) {s : Memory}
    {k : Bytes → Memory → Code} {text : Bytes} {rest : List Bytes}
    (code : l.code = .call s (.recSocketData .getMusicName) k) (first : l.queue = text :: rest) :
    ∃ names, l.last = some names ∧ IsReply j names text ∧ Good j l.last (k text s) ∧ l.owed = 0 ∧
      waiting = rest := by
  cases h with
  | working good _ =>
      rw [code] at good
      cases good with
      | call off _ _ => exact off.elim
  | reading here _ _ => cases code.symm.trans here
  | unanswered _ _ _ empty => cases first.symm.trans empty
  | answered here good quiet last reply queue =>
      cases code.symm.trans here
      cases first.symm.trans queue
      exact ⟨_, last, reply, last ▸ good, quiet, rfl⟩

theorem tracked_start {s : Memory} (online : s.deviceMode = .online) : Tracked j (Line.start s) [] where
  phase := by
    have current : Current none s := ⟨online, fun names none_ => nomatch none_⟩
    exact .working (.done current) rfl
  resumes := by
    intro code none_
    cases none_
  unread := by
    intro text member
    cases member
  all := rfl
  replies := by
    intro text member
    cases member
  pushes := by
    intro text member
    cases member

theorem tracked_begin {l : Line} {waiting : List Bytes} (h : Tracked j l waiting) (t : Task) {s : Memory}
    (idle : l.code = .done s) : Tracked j { l with code := t.run j s } waiting := by
  obtain ⟨current, quiet, rfl⟩ := h.phase.idle idle
  refine { h with phase := ?_ }
  by_cases socket : t = .readSocket
  · subst socket
    exact .reading rfl current quiet
  · exact .working (task_good j t socket current) quiet

/-- Outside a request the memory is current, and the code may be interrupted. -/
theorem good_resumes {last : Option (List Bytes)} {code : Code} {s : Memory} (good : Good j last code)
    (outside : ¬ Requesting code) (memory : code.memory = some s) :
    Current last s ∧ Resumes j code := by
  cases good with
  | done current =>
      cases memory
      exact ⟨current, .inl fun _ _ later => .done later⟩
  | fail e => cases memory
  | call off current rest =>
      cases memory
      exact ⟨current, .inl fun _ _ later => .call off later rest⟩
  | send other current rest =>
      cases memory
      exact ⟨current, .inl fun _ _ later => .send other later rest⟩
  | ask request _ _ => exact absurd (.inl ⟨_, _, _, rfl, request⟩) outside

theorem tracked_enter {l : Line} {waiting : List Bytes} (h : Tracked j l waiting) {s : Memory}
    (outside : ¬ Requesting l.code) (memory : l.code.memory = some s) :
    Tracked j { l with code := updateMusic j s, suspended := some l.code } waiting := by
  have within : ∀ {s k}, l.code = .call s (.recSocketData .getMusicName) k → False :=
    fun code => outside (.inr ⟨_, _, code⟩)
  cases h.phase with
  | working good quiet =>
      obtain ⟨current, resumes⟩ := good_resumes good outside memory
      refine { h with phase := .working (updateMusic_good j current) quiet, resumes := ?_ }
      intro code same
      exact Option.some.inj same ▸ resumes
  | reading code current quiet =>
      rw [code] at memory
      cases memory
      refine { h with phase := .working (updateMusic_good j current) quiet, resumes := ?_ }
      intro code' same
      exact .inr ⟨_, (Option.some.inj same).symm.trans code⟩
  | unanswered code _ _ _ => exact (within code).elim
  | answered code _ _ _ _ _ => exact (within code).elim

theorem tracked_leave {l : Line} {waiting : List Bytes} (h : Tracked j l waiting) {s : Memory} {code : Code}
    (busy : l.suspended = some code) (idle : l.code = .done s) :
    Tracked j { l with code := code.withMemory s, suspended := none } waiting := by
  obtain ⟨current, quiet, rfl⟩ := h.phase.idle idle
  refine { h with phase := ?_, resumes := fun _ none_ => by cases none_ }
  rcases h.resumes code busy with resumes | ⟨_, socket⟩
  · exact .working (resumes _ _ current) quiet
  · rw [socket]
    exact .reading rfl current quiet

theorem tracked_call {l : Line} {waiting : List Bytes} (h : Tracked j l waiting) {s : Memory} {op : Call}
    {k : op.Answer → Memory → Code} (a : op.Answer) (code : l.code = .call s op k) (off : op.OffLine) :
    Tracked j { l with code := k a s } waiting := by
  obtain ⟨good, quiet, rfl⟩ := h.phase.calls code fun _ same => by
    rw [same] at off
    exact off
  refine { h with phase := .working ?_ quiet }
  cases good with
  | call _ current rest => exact rest a _ _ current
  | send _ _ _ => exact off.elim
  | ask _ _ _ => exact off.elim

theorem tracked_send {l : Line} {waiting : List Bytes} (h : Tracked j l waiting) {s : Memory} {obj : Json}
    {k : Unit → Memory → Code} (code : l.code = .call s (.send obj) k)
    (empty : obj.isCmd "get_music_list" = true → l.queue = []) :
    Tracked j { l with
      code := k () s
      owed := l.owed + if obj.isCmd "get_music_list" then 1 else 0 } waiting := by
  obtain ⟨good, quiet, rfl⟩ := h.phase.calls code fun _ same => by cases same
  refine { h with phase := ?_ }
  cases good with
  | call off _ _ => exact off.elim
  | send other current rest =>
      refine .working (rest _ _ current) ?_
      rw [quiet, other]
      rfl
  | ask request reads rest =>
      rw [empty request]
      refine .unanswered reads rest ?_ rfl
      rw [quiet, request]
      rfl

theorem tracked_readReply {l : Line} {waiting : List Bytes} (h : Tracked j l waiting) {s : Memory}
    {k : Bytes → Memory → Code} {text : Bytes} {rest : List Bytes}
    (code : l.code = .call s (.recSocketData .getMusicName) k) (first : l.queue = text :: rest) :
    Tracked j { l with code := k text s, queue := rest, consumed := l.consumed ++ [text] } waiting := by
  obtain ⟨names, -, reply, good, quiet, rfl⟩ := h.phase.awaits code first
  refine { h with phase := .working good quiet, replies := ?_ }
  intro other member
  rcases List.mem_append.mp member with old | new
  · exact h.replies other old
  · rw [List.mem_singleton.mp new]
    exact ⟨names, reply⟩

theorem tracked_readCommand {l : Line} {waiting : List Bytes} (h : Tracked j l waiting) {s : Memory}
    {k : Bytes → Memory → Code} {text : Bytes} {rest : List Bytes}
    (code : l.code = .call s (.recSocketData .readSocket) k) (first : l.queue = text :: rest) :
    Tracked j { l with code := k text s, queue := rest, dispatched := l.dispatched ++ [text] } rest := by
  obtain ⟨rfl, current, quiet, queue⟩ := h.phase.socket code
  have split : waiting = text :: rest := queue.trans first
  subst split
  have push : IsPush j text := h.unread text List.mem_cons_self
  refine ⟨.working (dispatchFrame_good j push current) quiet, h.resumes, ?_, ?_, h.replies, ?_⟩
  · intro other member
    exact h.unread other (List.mem_cons_of_mem _ member)
  · rw [← h.all, List.append_assoc]
    rfl
  · intro other member
    rcases List.mem_append.mp member with old | new
    · exact h.pushes other old
    · rw [List.mem_singleton.mp new]
      exact push

theorem tracked_push {l : Line} {waiting : List Bytes} (h : Tracked j l waiting) {text : Bytes}
    (push : IsPush j text) (quiet : l.owed = 0) :
    Tracked j { l with queue := l.queue ++ [text], pushed := l.pushed ++ [text] } (waiting ++ [text]) := by
  refine ⟨?_, h.resumes, ?_, ?_, h.replies, h.pushes⟩
  · cases h.phase with
    | working good _ => exact .working good quiet
    | reading code current _ => exact .reading code current quiet
    | unanswered _ _ owed _ => cases quiet.symm.trans owed
    | answered code good _ last reply queue =>
        refine .answered code good quiet last reply ?_
        rw [queue]
        rfl
  · intro other member
    rcases List.mem_append.mp member with old | new
    · exact h.unread other old
    · rw [List.mem_singleton.mp new]
      exact push
  · rw [← h.all, List.append_assoc]

theorem tracked_reply {l : Line} {waiting : List Bytes} (h : Tracked j l waiting) {names : List Bytes}
    {text : Bytes} {n : Nat} (owed : l.owed = n + 1) (reply : IsReply j names text) :
    Tracked j { l with queue := l.queue ++ [text], owed := n, last := some names } waiting := by
  refine { h with phase := ?_ }
  cases h.phase with
  | working _ quiet => cases owed.symm.trans quiet
  | reading _ _ quiet => cases owed.symm.trans quiet
  | unanswered code good one empty =>
      have none_ : n = 0 := Nat.succ.inj (owed.symm.trans one)
      refine .answered code (good names text reply) none_ rfl reply ?_
      rw [empty]
      rfl
  | answered _ _ quiet _ _ _ => cases owed.symm.trans quiet

theorem tracked_step {l l' : Line} {m : Move} (h : ∃ waiting, Tracked j l waiting)
    (one : guarded Orderly (Moves j) l m l') : ∃ waiting, Tracked j l' waiting := by
  obtain ⟨waiting, h⟩ := h
  obtain ⟨orderly, moved⟩ := one
  cases moved with
  | begin t _ idle => exact ⟨_, tracked_begin h t idle⟩
  | enter _ memory => exact ⟨_, tracked_enter h orderly memory⟩
  | leave busy idle => exact ⟨_, tracked_leave h busy idle⟩
  | call a code off => exact ⟨_, tracked_call h a code off⟩
  | send code => exact ⟨_, tracked_send h code (orderly _ _ _ code)⟩
  | readReply code first => exact ⟨_, tracked_readReply h code first⟩
  | readCommand code first => exact ⟨_, tracked_readCommand h code first⟩
  | push text => exact ⟨_, tracked_push h text orderly⟩
  | reply owed text => exact ⟨_, tracked_reply h owed text⟩

theorem tracked_reachable {s : Memory} (online : s.deviceMode = .online) {l : Line}
    (run : Reachable (guarded Orderly (Moves j)) (Line.start s) l) : ∃ waiting, Tracked j l waiting := by
  refine run.invariant (I := fun l => ∃ waiting, Tracked j l waiting) ⟨_, tracked_start online⟩ ?_
  intro l m l' h one
  exact tracked_step h one

variable (j) in
/-- Requests and pushes each reach the reader they are meant for. -/
structure InOrder (l : Line) : Prop where
  replies : ∀ text ∈ l.consumed, ∃ names, IsReply j names text
  pushes : ∀ text ∈ l.dispatched, IsPush j text
  once : l.queue = [] → l.dispatched = l.pushed
  executed : ∀ s k text rest, l.code = .call s (.recSocketData .readSocket) k → l.queue = text :: rest →
    (IsNotice j text ∧ k text s = .done s) ∨
      ∃ name run, IsCommand j name text ∧ (name, run) ∈ handlers j ∧ k text s = run s
  awaited : ∀ s k text rest, l.code = .call s (.recSocketData .getMusicName) k → l.queue = text :: rest →
    ∃ names, l.last = some names ∧ IsReply j names text
  playlist : ∀ s names, l.code = .done s → l.last = some names → s.musicHead = names

theorem Tracked.inOrder {l : Line} {waiting : List Bytes} (h : Tracked j l waiting) : InOrder j l where
  replies := h.replies
  pushes := h.pushes
  once := by
    intro empty
    have all := h.all
    cases h.phase with
    | working _ _ => rwa [empty, List.append_nil] at all
    | reading _ _ _ => rwa [empty, List.append_nil] at all
    | unanswered _ _ _ _ => rwa [List.append_nil] at all
    | answered _ _ _ _ _ queue => cases empty.symm.trans queue
  executed := by
    intro s k text rest code first
    obtain ⟨rfl, -, -, queue⟩ := h.phase.socket code
    have push : IsPush j text := by
      refine h.unread text ?_
      rw [queue, first]
      exact List.mem_cons_self
    rcases push with notice | ⟨name, command⟩
    · exact .inl ⟨notice, dispatchFrame_notice j notice s⟩
    · obtain ⟨run, known⟩ := pushed_known j command.1
      exact .inr ⟨name, run, command, known, dispatchFrame_command j command known s⟩
  awaited := by
    intro s k text rest code first
    obtain ⟨names, last, reply, -⟩ := h.phase.awaits code first
    exact ⟨names, last, reply⟩
  playlist := by
    intro s names code last
    obtain ⟨current, -⟩ := h.phase.idle code
    exact current.2 names last

/-- Over every run of an online speaker whose requests are orderly, replies and
pushes are kept apart and the playlist is the one of the last reply. -/
theorem requests_in_order {s : Memory} (online : s.deviceMode = .online) {l : Line}
    (run : Reachable (guarded Orderly (Moves j)) (Line.start s) l) : InOrder j l := by
  obtain ⟨waiting, h⟩ := tracked_reachable online run
  exact h.inOrder

def noticeText : Bytes := lit "\x7b\"cmd\":null,\"result\":\"offline\"\x7d\n"
def listText : Bytes := lit "\x7b\"cmd\":\"reply_music_list\",\"music\":[\"a/b.mp3\"]\x7d\n"
def requestText : Bytes := lit "\x7b \"cmd\": \"get_music_list\", \"singer\": \"a\" \x7d"
def uploadText : Bytes := lit "\x7b \"cmd\": \"upload_music\", \"music\": [ \"a\\/b.mp3\" ] \x7d"

/-- The texts a request for the singer `a` and its answer go over the line as,
and the notice. -/
def jsonC : JsonC where
  order := .little
  parse := fun text =>
    if text = noticeText then
      some (.object [(lit "cmd", .null), (lit "result", .string (lit "offline"))])
    else if text = listText then
      some (.object [(lit "cmd", .string (lit "reply_music_list")),
        (lit "music", .array [.string (lit "a/b.mp3")])])
    else none
  toJsonString := fun obj => if obj.isCmd "get_music_list" then requestText else uploadText

/-- A speaker that has just connected. -/
def connected (musicHead : List Bytes) : Memory where
  startFlag := false
  suspendFlag := false
  deviceMode := .online
  musicHead := musicHead

theorem listText_reply : IsReply jsonC [lit "a/b.mp3"] listText := by
  refine ⟨⟨_, rfl, rfl, rfl⟩, ?_⟩
  decide

theorem noticeText_notice : IsNotice jsonC noticeText := ⟨_, rfl, rfl⟩

/-- A notice sent while the speaker waits for its list is loaded as that list. -/
theorem notice_taken_as_list :
    ¬ ∀ (j : JsonC) (s : Memory) (l : Line), s.deviceMode = .online →
      Reachable (Moves j) (Line.start s) l → InOrder j l := by
  intro always
  have asked : Reachable (Moves jsonC) (Line.start (connected [])) _ :=
    .tail (.tail (.refl _) (.begin (.getMusicName (lit "a")) rfl rfl)) (.send rfl)
  have told := asked.tail (.push (.inl noticeText_notice))
  have taken := told.tail (.readReply rfl rfl)
  obtain ⟨names, ⟨obj, parsed, cmd, -⟩, -⟩ :=
    (always jsonC (connected []) _ rfl taken).replies noticeText List.mem_cons_self
  cases parsed
  cases cmd

theorem list_arrives : ∃ l, l.code = .done (connected [lit "a/b.mp3"]) ∧
    l.consumed = [listText] ∧ l.last = some [lit "a/b.mp3"] ∧ InOrder jsonC l := by
  have begun : Reachable (guarded Orderly (Moves jsonC)) (Line.start (connected [])) _ :=
    (Reachable.refl _).tail (i := Move.begin (.getMusicName (lit "a"))) ⟨trivial, .begin _ rfl rfl⟩
  have asked := begun.tail (i := Move.work) ⟨fun _ _ _ _ _ => rfl, .send rfl⟩
  have answered := asked.tail (i := Move.reply _ _) ⟨trivial, .reply rfl listText_reply⟩
  have read := answered.tail (i := Move.work) ⟨fun _ _ _ code _ => (by cases code), .readReply rfl rfl⟩
  have uploaded := read.tail (i := Move.work)
    ⟨fun _ _ _ code list => (by cases code; cases list), .send rfl⟩
  exact ⟨_, rfl, rfl, rfl, requests_in_order rfl uploaded⟩

end MusicPlayer.Speaker
