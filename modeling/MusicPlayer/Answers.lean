import MusicPlayer.Server.Forwarding
import MusicPlayer.Speaker.Outgoing
import Mathlib.Data.List.Find

/-! The app, the server and the speaker together: what becomes of the commands an
app gives to the speaker it is paired with, whatever else goes on. -/
namespace MusicPlayer
open CBytes Program Runs Server
open Speaker (Code Call Memory JsonC Reader Task Spoken speaking answers answerTo answeredBy commandIn)

variable {δ : Type} (m : Mysql δ) (k : Codec) (j : JsonC) (c dev : Bev)

/-! ## The three programs and the two streams -/

/-- The server; the code the speaker runs, with what it interrupts below; the
packets on their way to the speaker and the texts from it; the commands of the app
that were dispatched, and the packets `TransAppCmd` and `TransDevReply` sent to it. -/
structure Net (δ : Type) where
  server : State δ
  codes : List Code
  toSpeaker : List Bytes
  fromSpeaker : List Bytes
  asked : List String
  replies : List Bytes

def Net.start (server : State δ) (s : Memory) : Net δ := ⟨server, [.done s], [], [], [], []⟩

/-- The packets for one connection. -/
def sentOn (b : Bev) (sent : List Send) : List Bytes := (sent.filter (·.bev = b)).map Send.bytes

/-- What a callback tells of the app: the command it gave, if any. -/
def Server.Event.asks : Event → List String
  | .read _ _ bev v => if bev = c then appCommands.filter v.isCmd else []
  | .event _ _ => []
  | .timeout _ => []

/-- Whether `TransAppCmd` or `TransDevReply` is called. -/
def Server.Event.answers : Event → Bool
  | .read _ _ _ v => appCommands.any v.isCmd || devReplies.any v.isCmd
  | .event _ _ => false
  | .timeout _ => false

/-- After a callback that leaves the server so and has sent this. -/
def Net.served (n : Net δ) (e : Event) (t : State δ) (sent : List Send) : Net δ :=
  { n with
    server := t
    toSpeaker := n.toSpeaker ++ sentOn dev sent
    asked := n.asked ++ e.asks c
    replies := n.replies ++ if e.answers then sentOn c sent else [] }

inductive Move
  | arrive (e : Event)
  | deliver (now : Int) (opendir : Bytes → Option (List Dirent))
  | begin (t : Task)
  | enter
  | leave
  | call
  | report

/-- A message of another client, or one of the app's that is no speaker's answer. -/
def Server.Event.FromOthers : Event → Prop
  | .read _ _ bev v => bev ≠ dev ∧ (bev = c → devReplies.any v.isCmd = false)
  | .event _ _ => True
  | .timeout _ => True

inductive Moves : Net δ → Move → Net δ → Prop
  | arrive {n : Net δ} {e : Event} {t : State δ} {sent : List Send} : e.FromOthers c dev →
      step m k e n.server = .ok (t, sent) → Moves n (.arrive e) (n.served c dev e t sent)
  | deliver {n : Net δ} {text : Bytes} {rest : List Bytes} {now : Int}
      {opendir : Bytes → Option (List Dirent)} {t : State δ} {sent : List Send} :
      n.fromSpeaker = text :: rest →
      step m k (.read now opendir dev (k.parse text).2) n.server = .ok (t, sent) →
      Moves n (.deliver now opendir)
        ({ n with fromSpeaker := rest }.served c dev (.read now opendir dev (k.parse text).2) t sent)
  | begin {n : Net δ} (t : Task) {s : Memory} : n.codes = [.done s] →
      Moves n (.begin t) { n with codes := [t.run j s] }
  | usr1 {n : Net δ} {code : Code} {below : List Code} {s : Memory} : n.codes = code :: below →
      code.memory = some s → Moves n .enter { n with codes := Speaker.updateMusic j s :: code :: below }
  | alarm {n : Net δ} {code : Code} {below : List Code} {s : Memory} : n.codes = code :: below →
      code.memory = some s → Moves n .enter { n with codes := Speaker.handle s :: code :: below }
  | leave {n : Net δ} {code : Code} {below : List Code} {s : Memory} : n.codes = .done s :: code :: below →
      Moves n .leave { n with codes := code.withMemory s :: below }
  | call {n : Net δ} {below : List Code} {s : Memory} {op : Call} {next : op.Answer → Memory → Code}
      (a : op.Answer) : n.codes = .call s op next :: below → op.OffLine →
      Moves n .call { n with codes := next a s :: below }
  | send {n : Net δ} {below : List Code} {s : Memory} {obj : Json} {next : Unit → Memory → Code} :
      n.codes = .call s (.send obj) next :: below →
      Moves n .call { n with
        codes := next () s :: below
        fromSpeaker := n.fromSpeaker ++ [cstr (j.toJsonString obj)] }
  | take {n : Net δ} {below : List Code} {s : Memory} {reader : Reader} {next : Bytes → Memory → Code}
      {text : Bytes} {rest : List Bytes} : n.codes = .call s (.recSocketData reader) next :: below →
      n.toSpeaker = frame j.order text :: rest →
      Moves n .call { n with codes := next text s :: below, toSpeaker := rest }
  | report {n : Net δ} (curMusic : Bytes) (mode : Int) (status : Bytes) (volume : Int) :
      Moves n .report { n with
        fromSpeaker := n.fromSpeaker ++
          [cstr (j.toJsonString (Speaker.infoReport curMusic mode status volume))] }

/-! ## When every command is answered -/

/-- The two JSON libraries agree on what the programs look at: the server reads the
answers the speaker prints, and json-c finds a command only where one was written,
in an object whose names it reads to their end. -/
structure Agree : Prop where
  reads : ∀ obj, Spoken obj → ∀ name ∈ devReplies,
    (k.parse (cstr (j.toJsonString obj))).2.isCmd name = obj.isCmd name
  heard : ∀ w : Json, w.PlainNames → ∀ name ∈ appCommands, Speaker.parseMessage j (k.write w) = .ok (lit name) →
    ∃ text, w.member (lit "cmd") = .string text ∧ cstr text = lit name

/-- The command in a packet to the speaker, and the one an answer from it is to. -/
def commandOf (packet : Bytes) : Option String := commandIn j (packet.drop 4)
def answerIn (text : Bytes) : Option String := answers (k.parse text).2

/-- A message the app's speaker is sent: a command, or a call for its list. -/
def Forwarded (v : Json) : Prop :=
  appCommands.any v.isCmd = true ∨ v.isCmd "app_capture_cur_musiclist" = true

/-- The message is no command the speaker answers under another name, and json-c
reads in its text the command it is, if any. -/
structure Legible (v : Json) : Prop where
  named : v.isCmd "app_continue" = false
  alike : Forwarded v → ∀ name ∈ appCommands,
    (Speaker.parseMessage j (k.write v) = .ok (lit name) ↔ v.isCmd name = true)

/-- The two are paired while a message is dispatched, the app's messages are legible,
and no request for a list takes a command. -/
def Kept (n : Net δ) : Move → Prop
  | .arrive e => Paired c dev n.server.onlineList ∧ ∀ now opendir v, e = .read now opendir c v → Legible k j v
  | .deliver _ _ => Paired c dev n.server.onlineList
  -- the only reader that waits inside another function
  | .call => ∀ s next below packet rest, n.codes = .call s (.recSocketData .getMusicName) next :: below →
      n.toSpeaker = packet :: rest → commandOf j packet = none
  | _ => True

def IsAnswer (packet : Bytes) (name : String) : Prop :=
  ∃ v, packet = frame k.order (k.write v) ∧ v.isCmd (answerTo name) = true

/-- Every frame has been delivered and dispatched, and the speaker is in its main loop. -/
def Net.AtRest (n : Net δ) : Prop :=
  (∃ s, n.codes = [.done s]) ∧ n.toSpeaker = [] ∧ n.fromSpeaker = []

/-- The replies answer the commands one for one, in order; at rest, all of them. -/
def Net.Answered (n : Net δ) : Prop :=
  ∃ first pending, n.asked = first ++ pending ∧ List.Forall₂ (IsAnswer k) n.replies first ∧
    (n.AtRest → pending = [])

/-! ## The code the speaker runs -/

/-- The main loop's code, and the commands it has still to answer. -/
inductive Running : List String → Code → Prop
  | working {owed : List String} {code : Code} : Meets speaking owed code → Running owed code
  | reading {s : Memory} : s.deviceMode = .online → Running [] (Speaker.readSocket j s)

/-- The same with the handlers on top of it, which answer nothing. -/
inductive Owing : List String → List Code → Prop
  | main {owed : List String} {code : Code} : Running j owed code → Owing owed [code]
  | handler {owed : List String} {code : Code} {below : List Code} : Meets speaking [] code →
      Owing owed below → Owing owed (code :: below)

variable {j}

theorem Owing.idle {owed : List String} {s : Memory} (h : Owing j owed [.done s]) :
    owed = [] ∧ s.deviceMode = .online := by
  cases h with
  | main running =>
      cases running with
      | working meets =>
          cases meets with
          | done online => exact ⟨rfl, online⟩
  | handler _ rest => cases rest

theorem Owing.memory {owed : List String} {code : Code} {below : List Code} (h : Owing j owed (code :: below))
    {s : Memory} (at_ : code.memory = some s) : s.deviceMode = .online := by
  cases h with
  | main running =>
      cases running with
      | working meets => exact meets.memory at_
      | reading online =>
          cases at_
          exact online
  | handler meets _ => exact meets.memory at_

theorem Owing.leave {owed : List String} {s : Memory} {code : Code} {below : List Code}
    (h : Owing j owed (.done s :: code :: below)) : Owing j owed (code.withMemory s :: below) := by
  cases h with
  | handler ended rest =>
      have online : s.deviceMode = .online := ended.memory rfl
      cases rest with
      | main running =>
          cases running with
          | working meets => exact .main (.working (meets.withMemory online))
          | reading _ => exact .main (.reading online)
      | handler meets rest => exact .handler (meets.withMemory online) rest

/-- A call that is no reading of a command. -/
theorem Owing.call {owed : List String} {s : Memory} {op : Call} {next : op.Answer → Memory → Code}
    {below : List Code} (h : Owing j owed (.call s op next :: below))
    (other : op ≠ .recSocketData .readSocket) :
    speaking.allows op ∧ ∃ rest, owed = (speaking.emits op).toList ++ rest ∧
      ∀ a, Owing j rest (next a s :: below) := by
  cases h with
  | main running =>
      generalize same : Program.call s op next = code at running
      cases running with
      | working meets =>
          subst same
          cases meets with
          | call online allowed split rest => exact ⟨allowed, _, split, fun a => .main (.working (rest a s online))⟩
      | reading _ =>
          cases same
          exact absurd rfl other
  | handler meets rest =>
      cases meets with
      | call online allowed split later =>
          obtain ⟨none_, empty⟩ := List.nil_eq_append_iff.mp split
          subst empty
          refine ⟨allowed, owed, ?_, fun a => .handler (later a s online) rest⟩
          rw [none_, List.nil_append]

theorem Owing.read {owed : List String} {s : Memory} {next : Bytes → Memory → Code} {below : List Code}
    (h : Owing j owed (.call s (.recSocketData .readSocket) next :: below)) :
    owed = [] ∧ below = [] ∧ ∀ text, Owing j ((commandIn j text).toList.flatMap answeredBy) [next text s] := by
  cases h with
  | main running =>
      generalize same : (Program.call s (.recSocketData .readSocket) next : Code) = code at running
      cases running with
      | working meets =>
          subst same
          cases meets with
          | call _ allowed _ _ => exact allowed.elim
      | reading online =>
          cases same
          exact ⟨rfl, rfl, fun text => .main (.working (Speaker.dispatchFrame_meets j text online))⟩
  | handler meets _ =>
      cases meets with
      | call _ allowed _ _ => exact allowed.elim

/-! ## A message is dispatched -/

variable {m k c dev}

theorem sentOn_same (b : Bev) (packet : Bytes) : sentOn b [⟨b, packet⟩] = [packet] := by simp [sentOn]

theorem sentOn_eq_nil {b : Bev} {sent : List Send} (others : ∀ x ∈ sent, x.bev ≠ b) : sentOn b sent = [] := by
  rw [sentOn, List.filter_eq_nil_iff.mpr fun x member => by simpa using others x member, List.map_nil]

theorem sentOn_other {b other : Bev} (apart : other ≠ b) (packet : Bytes) : sentOn b [⟨other, packet⟩] = [] :=
  sentOn_eq_nil fun x member => by rwa [List.mem_singleton.mp member]

theorem sentOn_carries {P : Json → Prop} {b : Bev} {sent : List Send} (carries : Carries k P sent) :
    ∀ packet ∈ sentOn b sent, ∃ w, P w ∧ packet = frame k.order (k.write w) := by
  intro packet member
  obtain ⟨x, inSent, rfl⟩ := List.mem_map.mp member
  exact carries x (List.mem_filter.mp inSent).1

/-- A packet to the speaker that is no command: the server's own, or the app's call for the list. -/
def Silent (k : Codec) (c : Bev) (e : Event) (packet : Bytes) : Prop :=
  (∃ w, Own w ∧ packet = frame k.order (k.write w)) ∨
    ∃ now opendir v, e = .read now opendir c v ∧ v.isCmd "app_capture_cur_musiclist" = true ∧
      packet = frame k.order (k.write v)

/-- A command of the app, an answer of its speaker, or what concerns neither. -/
inductive Served (m : Mysql δ) (k : Codec) (c dev : Bev) : Event → List Send → Prop
  | command {now : Int} {opendir : Bytes → Option (List Dirent)} {v : Json} {name : String} :
      name ∈ appCommands → v.isCmd name = true →
      Served m k c dev (.read now opendir c v) [⟨dev, frame k.order (k.write v)⟩]
  | reply {now : Int} {opendir : Bytes → Option (List Dirent)} {v : Json} : devReplies.any v.isCmd = true →
      Served m k c dev (.read now opendir dev v) [⟨c, frame k.order (k.write v)⟩]
  | other {e : Event} {sent : List Send} : e.asks c = [] → (e.answers = true → sentOn c sent = []) →
      (∀ now opendir v, e = .read now opendir dev v → devReplies.any v.isCmd = false) →
      (∀ packet ∈ sentOn dev sent, Silent k c e packet) → Served m k c dev e sent

theorem asks_eq_nil {bev : Bev} {v : Json} (none_ : appCommands.any v.isCmd = false) {now : Int}
    {opendir : Bytes → Option (List Dirent)} : (Event.read now opendir bev v).asks c = [] := by
  have empty : appCommands.filter v.isCmd = [] := List.filter_eq_nil_iff.mpr (List.any_eq_false.mp none_)
  rw [Event.asks, empty, ite_self]

theorem asks_elsewhere {bev : Bev} {v : Json} (other : bev ≠ c) {now : Int}
    {opendir : Bytes → Option (List Dirent)} : (Event.read now opendir bev v).asks c = [] := if_neg other

theorem replies_of_command {v : Json} (cmd : appCommands.any v.isCmd = true) :
    devReplies.any v.isCmd = false := by
  obtain ⟨name, known, cmd⟩ := List.any_eq_true.mp cmd
  have apart : ∀ name ∈ appCommands, ∀ other ∈ devReplies, (lit name == lit other) = false := by decide
  exact any_apart name cmd (apart name known)

theorem dispatch_served {now : Int} {opendir : Bytes → Option (List Dirent)} {bev : Bev} {v : Json}
    {s t : State δ} {sent : List Send} (pair : Paired c dev s.onlineList)
    (app : bev = c → devReplies.any v.isCmd = false)
    (h : dispatch m k now opendir bev v s = .ok (t, sent)) :
    Served m k c dev (.read now opendir bev v) sent := by
  rcases dispatch_carries m k h with ⟨cmd, forwarded⟩ | ⟨cmd, forwarded⟩ | ⟨command, reply, passes⟩
  · by_cases here : bev = c
    · subst here
      rw [pair.command forwarded]
      obtain ⟨name, known, cmd⟩ := List.any_eq_true.mp cmd
      exact .command known cmd
    · obtain ⟨quiet, own⟩ := pair.other_command here forwarded
      refine .other (asks_elsewhere here) (fun _ => sentOn_eq_nil quiet) ?_ ?_
      · intro now opendir v same
        cases same
        exact replies_of_command cmd
      · by_cases speaker : bev = dev
        · subst speaker
          exact fun packet member => .inl (sentOn_carries (pair.own_command forwarded) packet member)
        · rw [sentOn_eq_nil fun x member same => speaker (own x member same)]
          exact fun _ => nofun
  · by_cases here : bev = dev
    · subst here
      rw [pair.reply forwarded]
      exact .reply cmd
    · have other : bev ≠ c := fun same => by
        rw [app same] at cmd
        cases cmd
      have quiet := pair.other_reply other here forwarded
      refine .other (asks_elsewhere other) (fun _ => sentOn_eq_nil fun x member => (quiet x member).1) ?_ ?_
      · intro now opendir v same
        cases same
        exact absurd rfl here
      · rw [sentOn_eq_nil fun x member => (quiet x member).2]
        exact fun _ => nofun
  · refine .other (asks_eq_nil command) ?_ ?_ ?_
    · intro answers
      simp only [Event.answers, command, reply, Bool.or_self] at answers
      cases answers
    · intro now opendir v same
      cases same
      exact reply
    · intro packet member
      obtain ⟨x, chosen, rfl⟩ := List.mem_map.mp member
      obtain ⟨inSent, there⟩ := List.mem_filter.mp chosen
      rcases pair.passes (passes x inSent) (of_decide_eq_true there) with own | ⟨rfl, cmd, text⟩
      · exact .inl own
      · exact .inr ⟨now, opendir, v, rfl, cmd, text⟩

theorem step_served {e : Event} {s t : State δ} {sent : List Send} (pair : Paired c dev s.onlineList)
    (app : ∀ now opendir v, e = .read now opendir c v → devReplies.any v.isCmd = false)
    (h : step m k e s = .ok (t, sent)) : Served m k c dev e sent := by
  cases e with
  | read now opendir bev v =>
      refine dispatch_served pair ?_ h
      rintro rfl
      exact app now opendir v rfl
  | event bev what =>
      cases h
      exact .other rfl (fun _ => rfl) (fun _ _ _ => nofun) (fun _ => nofun)
  | timeout now =>
      cases h
      exact .other rfl (fun _ => rfl) (fun _ _ _ => nofun) (fun _ => nofun)

/-! ## Nothing is lost on the way -/

/-- The commands asked so far: those answered, those with an answer on its way to the
server, those the speaker is at, and those on their way to it. -/
structure Accounted (k : Codec) (j : JsonC) (n : Net δ) (first owed : List String) : Prop where
  stack : Owing j owed n.codes
  answered : List.Forall₂ (IsAnswer k) n.replies first
  asked : n.asked = first ++ n.fromSpeaker.filterMap (answerIn k) ++ owed ++ n.toSpeaker.filterMap (commandOf j)
  plain : "app_continue" ∉ n.toSpeaker.filterMap (commandOf j)

theorem accounted_start (server : State δ) {s : Memory} (online : s.deviceMode = .online) :
    Accounted k j (Net.start server s) [] [] where
  stack := .main (.working (.done online))
  answered := .nil
  asked := rfl
  plain := List.not_mem_nil

theorem Accounted.complete {n : Net δ} {first owed : List String} (h : Accounted k j n first owed) :
    n.Answered k := by
  refine ⟨first, n.fromSpeaker.filterMap (answerIn k) ++ owed ++ n.toSpeaker.filterMap (commandOf j), ?_,
    h.answered, ?_⟩
  · rw [h.asked, List.append_assoc, List.append_assoc, List.append_assoc]
  · rintro ⟨⟨s, idle⟩, empty, silent⟩
    have stack := h.stack
    rw [idle] at stack
    rw [silent, empty, stack.idle.1]
    rfl

/-- Only the code has changed. -/
theorem Accounted.steps {n : Net δ} {first owed : List String} (h : Accounted k j n first owed)
    {codes : List Code} (stack : Owing j owed codes) : Accounted k j { n with codes } first owed :=
  ⟨stack, h.answered, h.asked, h.plain⟩

theorem body_frame (o : ByteOrder) (text : Bytes) : (frame o text).drop 4 = text := by
  have all := drop_frame o text []
  rwa [List.append_nil, List.append_nil] at all

/-- A packet in which json-c reads no command. -/
theorem commandOf_none {w : Json}
    (unheard : ∀ name ∈ appCommands, Speaker.parseMessage j (k.write w) ≠ .ok (lit name)) :
    commandOf j (frame k.order (k.write w)) = none := by
  rw [commandOf, body_frame, commandIn]
  cases parsed : Speaker.parseMessage j (k.write w) with
  | error e => rfl
  | ok cmd =>
      dsimp only
      rw [List.find?_eq_none]
      intro name known same
      rw [decide_eq_true_iff] at same
      exact unheard name known (same ▸ parsed)

theorem commandOf_silent (agree : Agree k j) {e : Event} {packet : Bytes}
    (legible : ∀ now opendir v, e = .read now opendir c v → Legible k j v) (silent : Silent k c e packet) :
    commandOf j packet = none := by
  rcases silent with ⟨w, own, rfl⟩ | ⟨now, opendir, v, same, cmd, rfl⟩
  · refine commandOf_none fun name known parsed => ?_
    obtain ⟨text, named, reads⟩ := agree.heard w own.names name known parsed
    exact own.mute name known text named reads
  · refine commandOf_none fun name known parsed => ?_
    have named := ((legible now opendir v same).alike (.inr cmd) name known).mp parsed
    have apart : ∀ name ∈ appCommands, (lit "app_capture_cur_musiclist" == lit name) = false := by decide
    exact Json.not_isCmd cmd (apart name known) named

theorem commandOf_legible {v : Json} {name : String} (known : name ∈ appCommands)
    (heard : Speaker.parseMessage j (k.write v) = .ok (lit name)) :
    commandOf j (frame k.order (k.write v)) = some name := by
  have one : ∀ name ∈ appCommands,
      Speaker.remoteCommands.find? (fun other => lit name = lit other) = some name := by decide
  rw [commandOf, body_frame, commandIn, heard]
  exact one name known

theorem answers_reply {v : Json} (cmd : devReplies.any v.isCmd = true) :
    ∃ name, answers v = some name ∧ v.isCmd (answerTo name) = true := by
  have found : (answers v).isSome = true := by
    rw [answers, List.find?_isSome]
    obtain ⟨reply, known, cmd⟩ := List.any_eq_true.mp cmd
    obtain ⟨name, command, rfl⟩ := List.mem_map.mp known
    exact ⟨name, command, cmd⟩
  obtain ⟨name, same⟩ := Option.isSome_iff_exists.mp found
  exact ⟨name, same, List.find?_some (p := fun name => v.isCmd (answerTo name)) same⟩

theorem answers_none {v : Json} (none_ : devReplies.any v.isCmd = false) : answers v = none := by
  rw [answers, List.find?_eq_none]
  intro name known cmd
  exact List.any_eq_false.mp none_ (answerTo name) (List.mem_map_of_mem known) cmd

theorem filter_command {v : Json} {name : String} (known : name ∈ appCommands) (cmd : v.isCmd name = true) :
    appCommands.filter v.isCmd = [name] := by
  have one : ∀ name ∈ appCommands, appCommands.filter (fun other => lit name == lit other) = [name] := by
    decide
  rw [show v.isCmd = fun other => lit name == lit other from funext fun _ => Json.isCmd_unique cmd]
  exact one name known

/-- What concerns neither leaves the account as it is. -/
theorem Accounted.quiet {n : Net δ} {first owed : List String}
    (h : Accounted k j n first owed) {e : Event} {t : State δ} {sent : List Send} (none_ : e.asks c = [])
    (quiet : e.answers = true → sentOn c sent = [])
    (silent : ∀ packet ∈ sentOn dev sent, commandOf j packet = none) :
    Accounted k j (n.served c dev e t sent) first owed := by
  have replies : (if e.answers then sentOn c sent else []) = [] := by
    split
    · exact quiet ‹_›
    · rfl
  have silent : (n.toSpeaker ++ sentOn dev sent).filterMap (commandOf j) = n.toSpeaker.filterMap (commandOf j) := by
    rw [List.filterMap_append, List.filterMap_eq_nil_iff.mpr silent, List.append_nil]
  refine ⟨h.stack, ?_, ?_, ?_⟩
  · rw [Net.served, replies, List.append_nil]
    exact h.answered
  · simp only [Net.served, none_, List.append_nil, silent]
    exact h.asked
  · simp only [Net.served, silent]
    exact h.plain

theorem Accounted.arrive (agree : Agree k j) (apart : c ≠ dev) {n : Net δ} {first owed : List String}
    (h : Accounted k j n first owed) {e : Event} {t : State δ} {sent : List Send} (others : e.FromOthers c dev)
    (legible : ∀ now opendir v, e = .read now opendir c v → Legible k j v)
    (served : Served m k c dev e sent) : Accounted k j (n.served c dev e t sent) first owed := by
  cases served with
  | command known cmd =>
      rename_i now opendir v name
      have reads := legible now opendir v rfl
      have heard := (reads.alike (.inl (List.any_eq_true.mpr ⟨name, known, cmd⟩)) name known).mpr cmd
      have plain : name ≠ "app_continue" := by
        rintro rfl
        rw [reads.named] at cmd
        cases cmd
      have packet : (n.toSpeaker ++ [frame k.order (k.write v)]).filterMap (commandOf j) =
          n.toSpeaker.filterMap (commandOf j) ++ [name] := by
        rw [List.filterMap_append, List.filterMap_cons_some (commandOf_legible known heard), List.filterMap_nil]
      refine ⟨h.stack, ?_, ?_, ?_⟩
      · simp only [Net.served, sentOn_other apart.symm, ite_self, List.append_nil]
        exact h.answered
      · simp only [Net.served, sentOn_same, Event.asks, if_true, filter_command known cmd, packet]
        rw [h.asked, List.append_assoc]
      · simp only [Net.served, sentOn_same, packet]
        intro member
        rcases List.mem_append.mp member with old | new
        · exact h.plain old
        · exact plain (List.mem_singleton.mp new).symm
  | reply _ => exact absurd rfl others.1
  | other none_ quiet _ silent =>
      exact h.quiet none_ quiet fun packet member => commandOf_silent agree legible (silent packet member)

theorem Accounted.deliver (agree : Agree k j) (apart : c ≠ dev) {n : Net δ} {first owed : List String}
    (h : Accounted k j n first owed) {text : Bytes} {rest : List Bytes} {now : Int}
    {opendir : Bytes → Option (List Dirent)} {t : State δ} {sent : List Send}
    (next : n.fromSpeaker = text :: rest)
    (served : Served m k c dev (.read now opendir dev (k.parse text).2) sent) :
    ∃ first', Accounted k j ({ n with fromSpeaker := rest }.served c dev
      (.read now opendir dev (k.parse text).2) t sent) first' owed := by
  have asked := h.asked
  rw [next] at asked
  generalize event : Event.read now opendir dev (k.parse text).2 = e at served
  cases served with
  | command _ _ =>
      injection event with _ _ same _
      exact absurd same.symm apart
  | reply cmd =>
      injection event with _ _ _ same
      subst same
      obtain ⟨name, answer, named⟩ := answers_reply cmd
      refine ⟨first ++ [name], h.stack, ?_, ?_, ?_⟩
      · simp only [Net.served, Event.answers, cmd, Bool.or_true, if_true, sentOn_same]
        exact List.rel_append h.answered (.cons ⟨_, rfl, named⟩ .nil)
      · rw [List.filterMap_cons_some (show answerIn k text = some name from answer)] at asked
        simp only [Net.served, sentOn_other apart, List.append_nil, asks_elsewhere apart.symm]
        rw [asked, List.append_assoc first [name], List.singleton_append]
      · simp only [Net.served, sentOn_other apart, List.append_nil]
        exact h.plain
  | other none_ quiet reply silent =>
      subst event
      rw [List.filterMap_cons_none (show answerIn k text = none from answers_none (reply _ _ _ rfl))] at asked
      have before : Accounted k j { n with fromSpeaker := rest } first owed :=
        ⟨h.stack, h.answered, asked, h.plain⟩
      refine ⟨first, before.quiet none_ quiet fun packet member => commandOf_silent agree ?_ (silent packet member)⟩
      intro now' opendir' v same
      injection same with _ _ same _
      exact absurd same.symm apart

theorem answers_printed (agree : Agree k j) {obj : Json} (spoken : Spoken obj) :
    answerIn k (cstr (j.toJsonString obj)) = answers obj := by
  have same : ∀ name ∈ appCommands, (k.parse (cstr (j.toJsonString obj))).2.isCmd (answerTo name) =
      obj.isCmd (answerTo name) :=
    fun name known => agree.reads obj spoken (answerTo name) (List.mem_map_of_mem known)
  exact List.find?_congr same

/-- An object is sent, and is the first answer owed if it is one. -/
theorem Accounted.send (agree : Agree k j) {n : Net δ} {first owed : List String} {obj : Json}
    {codes : List Code} (h : Accounted k j n first ((answers obj).toList ++ owed)) (spoken : Spoken obj)
    (stack : Owing j owed codes) :
    Accounted k j { n with codes, fromSpeaker := n.fromSpeaker ++ [cstr (j.toJsonString obj)] } first owed := by
  refine ⟨stack, h.answered, ?_, h.plain⟩
  have last : [cstr (j.toJsonString obj)].filterMap (answerIn k) = (answers obj).toList := by
    rw [List.filterMap_cons, answers_printed agree spoken]
    cases answers obj <;> rfl
  rw [List.filterMap_append, last, h.asked]
  simp only [List.append_assoc]

/-- The speaker takes a packet as a command: what it holds is owed from then on. -/
theorem Accounted.read {n : Net δ} {first : List String} (h : Accounted k j n first [])
    {text : Bytes} {rest : List Bytes} (next : n.toSpeaker = frame j.order text :: rest) {codes : List Code}
    (stack : Owing j ((commandIn j text).toList.flatMap answeredBy) codes) :
    ∃ owed, Accounted k j { n with codes, toSpeaker := rest } first owed := by
  have asked := h.asked
  have plain := h.plain
  have same : commandOf j (frame j.order text) = commandIn j text := by rw [commandOf, body_frame]
  rw [next] at asked plain
  cases command : commandIn j text with
  | none =>
      rw [List.filterMap_cons_none (same.trans command)] at asked plain
      rw [command] at stack
      exact ⟨[], stack, h.answered, asked, plain⟩
  | some name =>
      rw [List.filterMap_cons_some (same.trans command)] at asked plain
      rw [command] at stack
      have known : name ∈ Speaker.remoteCommands := Speaker.commandIn_known j command
      have own : answeredBy name = [name] := by
        rw [answeredBy, if_neg (fun same : name = "app_continue" => plain (same ▸ List.mem_cons_self)), if_pos known]
      refine ⟨[name], ?_, h.answered, ?_, fun member => plain (List.mem_cons_of_mem _ member)⟩
      · rwa [Option.toList_some, List.flatMap_singleton, own] at stack
      · rw [asked]
        simp only [List.append_assoc, List.nil_append, List.singleton_append]

/-- `GetMusicName` takes a packet that is no command. -/
theorem Accounted.skip {n : Net δ} {first owed : List String} (h : Accounted k j n first owed)
    {packet : Bytes} {rest : List Bytes} (next : n.toSpeaker = packet :: rest)
    (none_ : commandOf j packet = none) {codes : List Code} (stack : Owing j owed codes) :
    Accounted k j { n with codes, toSpeaker := rest } first owed := by
  have asked := h.asked
  have plain := h.plain
  rw [next, List.filterMap_cons_none none_] at asked plain
  exact ⟨stack, h.answered, asked, plain⟩

theorem accounted_step (agree : Agree k j) {n n' : Net δ} {i : Move}
    (h : ∃ first owed, Accounted k j n first owed)
    (one : guarded (Kept k j c dev) (Moves m k j c dev) n i n') : ∃ first owed, Accounted k j n' first owed := by
  obtain ⟨first, owed, h⟩ := h
  obtain ⟨kept, moved⟩ := one
  cases moved with
  | arrive others done =>
      rename_i e t sent
      obtain ⟨pair, legible⟩ := kept
      have app : ∀ now opendir v, e = .read now opendir c v → devReplies.any v.isCmd = false := by
        rintro now opendir v rfl
        exact others.2 rfl
      exact ⟨first, owed, h.arrive agree pair.apart others legible (step_served pair app done)⟩
  | deliver next done =>
      rename_i text rest now opendir t sent
      have pair : Paired c dev n.server.onlineList := kept
      have app : ∀ now' opendir' v, Event.read now opendir dev (k.parse text).2 = .read now' opendir' c v →
          devReplies.any v.isCmd = false := by
        intro now' opendir' v same
        injection same with _ _ same _
        exact absurd same.symm pair.apart
      obtain ⟨first', later⟩ := h.deliver agree pair.apart next (step_served pair app done)
      exact ⟨first', owed, later⟩
  | begin t idle =>
      have stack := h.stack
      rw [idle] at stack
      obtain ⟨rfl, online⟩ := stack.idle
      refine ⟨first, [], h.steps (.main ?_)⟩
      by_cases socket : t = .readSocket
      · subst socket
        exact .reading online
      · exact .working (Speaker.task_meets j t socket online)
  | usr1 top at_ =>
      have stack := h.stack
      rw [top] at stack
      exact ⟨first, owed, h.steps (.handler (Speaker.updateMusic_meets j (stack.memory at_)) stack)⟩
  | alarm top at_ =>
      have stack := h.stack
      rw [top] at stack
      exact ⟨first, owed, h.steps (.handler (Speaker.handle_meets (stack.memory at_)) stack)⟩
  | leave top =>
      have stack := h.stack
      rw [top] at stack
      exact ⟨first, owed, h.steps stack.leave⟩
  | call a top off =>
      have stack := h.stack
      rw [top] at stack
      obtain ⟨-, rest, split, later⟩ := stack.call fun same => by
        subst same
        exact off
      have none_ := Speaker.offLine_silent off
      rw [none_, Option.toList_none, List.nil_append] at split
      exact ⟨first, owed, h.steps (split ▸ later a)⟩
  | send top =>
      have stack := h.stack
      rw [top] at stack
      obtain ⟨spoken, rest, rfl, later⟩ := stack.call (by simp)
      exact ⟨first, rest, h.send agree spoken (later ())⟩
  | take top next =>
      have stack := h.stack
      rw [top] at stack
      rename_i below s reader k' text rest
      cases reader with
      | readSocket =>
          obtain ⟨rfl, rfl, later⟩ := stack.read
          obtain ⟨owed, later⟩ := h.read next (later text)
          exact ⟨first, owed, later⟩
      | getMusicName =>
          obtain ⟨-, more, split, later⟩ := stack.call (by simp)
          have same : more = owed := split.symm
          rw [same] at later
          exact ⟨first, owed, h.skip next (kept _ _ _ _ _ top next) (later text)⟩
  | report curMusic mode status volume =>
      have spoken : Spoken (Speaker.infoReport curMusic mode status volume) := .info curMusic mode status volume
      exact ⟨first, owed, h.send agree spoken h.stack⟩

/-- Over every run in which the two stay paired and no command is lost, every command of
the app is answered under its own name, once and in order. -/
theorem commands_answered (agree : Agree k j) (server : State δ) {s : Memory} (online : s.deviceMode = .online)
    {n : Net δ} (run : Reachable (guarded (Kept k j c dev) (Moves m k j c dev)) (Net.start server s) n) :
    n.Answered k := by
  obtain ⟨first, owed, h⟩ := run.invariant (I := fun n => ∃ first owed, Accounted k j n first owed)
    ⟨[], [], accounted_start server online⟩ fun _ _ _ h one => accounted_step agree h one
  exact h.complete

/-! ## One command -/

def startCommand : Json := .object [(lit "cmd", .string (lit "app_start"))]
def startText : Bytes := lit "\x7b\"cmd\":\"app_start\"\x7d\n"
def noticeText : Bytes := lit "\x7b\"cmd\":null,\"result\":\"offline\"\x7d\n"
def forwardedText : Bytes := lit "\x7b\"cmd\":\"app_start_reply\",\"result\":\"success\"\x7d\n"
def answerText (name : String) : Bytes :=
  lit "\x7b \"cmd\": \"" ++ lit (answerTo name) ++ lit "\", \"result\": \"success\" \x7d"

/-- The texts of one `app_start`, its answers and the notice, as the two libraries have them. -/
def startCodec : Codec where
  order := .little
  parse text :=
    match appCommands.find? fun name => text = answerText name with
    | some name => (true, reply (answerTo name) "success")
    | none => (false, .null)
  write v :=
    if v.isCmd "app_start" then startText
    else if v.isCmd "app_start_reply" then forwardedText else noticeText

def startJson : JsonC where
  order := .little
  parse text := if text = startText then some startCommand else none
  toJsonString obj := match answers obj with
    | some name => answerText name
    | none => []

theorem cstr_answerText {name : String} (known : name ∈ appCommands) :
    cstr (answerText name) = answerText name := by
  have plain : ∀ name ∈ appCommands, 0 ∉ answerText name := by decide +kernel
  exact cstr_eq_self (plain name known)

theorem parse_answerText {name : String} (known : name ∈ appCommands) :
    startCodec.parse (answerText name) = (true, reply (answerTo name) "success") := by
  have one : ∀ name ∈ appCommands,
      appCommands.find? (fun other => lit (answerTo name) = lit (answerTo other)) = some name := by decide +kernel
  have same (other : String) : answerText name = answerText other ↔ lit (answerTo name) = lit (answerTo other) := by
    rw [answerText, answerText, List.append_left_inj, List.append_right_inj]
  simp only [startCodec, same, one name known]

theorem startCodec_agree : Agree startCodec startJson where
  reads := by
    intro obj _ name known
    cases answer : answers obj with
    | none =>
        have printed : startJson.toJsonString obj = [] := by simp only [startJson, answer]
        have none_ : obj.isCmd name = false := by
          obtain ⟨command, listed, rfl⟩ := List.mem_map.mp known
          exact Bool.eq_false_iff.mpr (List.find?_eq_none.mp answer command listed)
        rw [printed, none_]
        rfl
    | some command =>
        have listed : command ∈ appCommands := List.mem_of_find?_eq_some answer
        have cmd := List.find?_some (p := fun name => obj.isCmd (answerTo name)) answer
        have printed : startJson.toJsonString obj = answerText command := by simp only [startJson, answer]
        rw [printed, cstr_answerText listed, parse_answerText listed, Json.isCmd_unique cmd]
        rfl
  heard := by
    intro w _ name known parsed
    have named : ∀ name ∈ appCommands, lit name ≠ [] := by decide
    by_cases start : w.isCmd "app_start" = true
    · have written : startCodec.write w = startText := if_pos start
      rw [written] at parsed
      have same : lit "app_start" = lit name := Except.ok.inj parsed
      exact ⟨lit "app_start", Json.isString_iff.mp start, same⟩
    · have other : startCodec.write w ≠ startText := by
        have apart : forwardedText ≠ startText ∧ noticeText ≠ startText := by decide +kernel
        simp only [startCodec, if_neg start]
        split
        · exact apart.1
        · exact apart.2
      have unread : startJson.parse (startCodec.write w) = none := if_neg other
      rw [Speaker.parseMessage, unread] at parsed
      exact absurd (Except.ok.inj parsed).symm (named name known)

/-- An online speaker with its list playing. -/
def playing : Memory := ⟨true, false, .online, [lit "a/b.mp3"]⟩

def startEvent : Event := .read 0 (fun _ => none) 7 startCommand

theorem startCommand_others : startEvent.FromOthers 7 3 :=
  ⟨by decide, fun _ => rfl⟩

theorem startEvent_asks : startEvent.asks 7 = ["app_start"] := by decide

theorem startEvent_answers : startEvent.answers = true := by decide

theorem served_answering {e : Event} {names : List String} (asks : e.asks c = names) (answers : e.answers = true)
    (n : Net δ) (t : State δ) (sent : List Send) :
    n.served c dev e t sent =
      { n with
        server := t
        toSpeaker := n.toSpeaker ++ sentOn dev sent
        asked := n.asked ++ names
        replies := n.replies ++ sentOn c sent } := by
  rw [Net.served, asks, answers, if_pos rfl]

/-- A command of an app that is paired with no speaker: the notice names no command. -/
theorem notice_names_nothing :
    ¬ ∀ (k : Codec) (j : JsonC) (c dev : Bev) (server : State Unit) (n : Net Unit), Agree k j →
      Reachable (Steps noAccounts k) ⟨[], ()⟩ server →
      Reachable (Moves noAccounts k j c dev) (Net.start server playing) n → n.Answered k := by
  intro always
  have done : step noAccounts startCodec startEvent ⟨[], ()⟩ =
      .ok (⟨[], ()⟩, [⟨7, frame .little noticeText⟩]) := rfl
  have arrived : Reachable (Moves noAccounts startCodec startJson 7 3) (Net.start ⟨[], ()⟩ playing) _ :=
    (Reachable.refl _).tail (i := .arrive startEvent)
      (.arrive startCommand_others done)
  rw [served_answering startEvent_asks startEvent_answers, sentOn_same, sentOn_other (by decide)] at arrived
  have told : Reachable (Moves noAccounts startCodec startJson 7 3) (Net.start ⟨[], ()⟩ playing)
      ⟨⟨[], ()⟩, [.done playing], [], [], ["app_start"], [frame .little noticeText]⟩ := arrived
  obtain ⟨first, pending, asked, replies, all⟩ :=
    always startCodec startJson 7 3 ⟨[], ()⟩ _ startCodec_agree (.refl _) told
  rw [all ⟨⟨playing, rfl⟩, rfl, rfl⟩, List.append_nil] at asked
  subst asked
  cases replies with
  | cons answer _ =>
      obtain ⟨v, packet, cmd⟩ := answer
      have other : ¬ v.isCmd "app_start" = true := Json.not_isCmd cmd (by decide)
      have written : startCodec.write v = forwardedText := by
        simp only [startCodec, if_neg other]
        exact if_pos cmd
      have same := congrArg (List.drop 4) packet
      rw [body_frame, body_frame, written] at same
      exact absurd same (by decide +kernel)

theorem start_heard : Speaker.dispatchFrame startJson startText playing =
    .call playing .pgrep fun (result : Bytes) s =>
      Speaker.sendReply startJson "app_start_reply" (if result = [] then "failure" else "success") s := by
  have command : Speaker.IsCommand startJson "app_start" startText :=
    ⟨by decide, startCommand, show (if startText = startText then _ else none) = _ from if_pos rfl, rfl⟩
  rw [Speaker.dispatchFrame_command startJson command List.mem_cons_self]
  rfl

theorem start_replied : Speaker.sendReply startJson "app_start_reply" "success" playing =
    .call playing (.send (reply "app_start_reply" "success")) fun _ s => .done s := by
  have fits : (cstr (startJson.toJsonString (reply "app_start_reply" "success"))).length ≤ 1020 := by
    decide +kernel
  have packed : packet startJson.order (cstr (startJson.toJsonString (reply "app_start_reply" "success"))) =
      .ok (frame startJson.order (cstr (startJson.toJsonString (reply "app_start_reply" "success")))) :=
    packet_eq_ok.mpr ⟨fits, rfl⟩
  have online : Speaker.sendReply startJson "app_start_reply" "success" playing =
      check (packet startJson.order (cstr (startJson.toJsonString (reply "app_start_reply" "success"))))
        fun _ => .call playing (.send (reply "app_start_reply" "success")) fun _ s => .done s := rfl
  rw [online, packed]
  rfl

/-- The server with the app's connection 7 paired with the speaker's connection 3. -/
def pairedServer : State Unit := ⟨[speaker "0001" 3 (some 7)], ()⟩

theorem pairedServer_paired : Paired 7 3 pairedServer.onlineList := by
  refine ⟨by decide, ⟨_, List.mem_cons_self, rfl, rfl⟩, fun it member _ => ?_⟩
  cases List.mem_singleton.mp member
  exact ⟨rfl, rfl⟩

theorem startCommand_legible : Legible startCodec startJson startCommand := by
  refine ⟨by decide, fun _ name known => ?_⟩
  have read : Speaker.parseMessage startJson (startCodec.write startCommand) = .ok (lit "app_start") := rfl
  rw [read, Except.ok.injEq, startCommand, Json.isCmd]
  exact beq_iff_eq.symm

theorem start_read : startCodec.parse (cstr (startJson.toJsonString (reply "app_start_reply" "success"))) =
    (true, reply "app_start_reply" "success") := by
  have known : "app_start" ∈ appCommands := List.mem_cons_self
  have answer : answers (reply "app_start_reply" "success") = some "app_start" :=
    Speaker.answered_reply known "success"
  have printed : startJson.toJsonString (reply "app_start_reply" "success") = answerText "app_start" := by
    simp only [startJson, answer]
  rw [printed, cstr_answerText known, parse_answerText known]
  rfl

theorem start_answered : ∃ n : Net Unit, n.asked = ["app_start"] ∧
    n.replies = [frame .little forwardedText] ∧ n.AtRest ∧ n.Answered startCodec := by
  have asked : step noAccounts startCodec startEvent pairedServer =
      .ok (pairedServer, [⟨3, frame .little startText⟩]) := rfl
  have kept : Kept startCodec startJson 7 3 (Net.start pairedServer playing) (.arrive startEvent) := by
    refine ⟨pairedServer_paired, fun now opendir v same => ?_⟩
    injection same with _ _ _ same
    exact same ▸ startCommand_legible
  have served := Moves.arrive (m := noAccounts) (k := startCodec) (j := startJson)
    (n := Net.start pairedServer playing) startCommand_others asked
  rw [served_answering startEvent_asks startEvent_answers, sentOn_same, sentOn_other (by decide)] at served
  have arrived : Reachable (guarded (Kept startCodec startJson 7 3) (Moves noAccounts startCodec startJson 7 3))
      (Net.start pairedServer playing)
      ⟨pairedServer, [.done playing], [frame .little startText], [], ["app_start"], []⟩ :=
    (Reachable.refl _).tail (i := Move.arrive startEvent) ⟨kept, served⟩
  have begun := arrived.tail (i := Move.begin .readSocket) ⟨trivial, .begin .readSocket rfl⟩
  have taken := begun.tail (i := Move.call) ⟨fun _ _ _ _ _ code => (by cases code), .take rfl rfl⟩
  rw [start_heard] at taken
  have ran := taken.tail (i := Move.call) ⟨fun _ _ _ _ _ code => (by cases code), .call (lit "1\n") rfl trivial⟩
  rw [if_neg (by decide), start_replied] at ran
  have sent := ran.tail (i := Move.call) ⟨fun _ _ _ _ _ code => (by cases code), .send rfl⟩
  have answered : step noAccounts startCodec (.read 0 (fun _ => none) 3
      (startCodec.parse (cstr (startJson.toJsonString (reply "app_start_reply" "success")))).2) pairedServer =
      .ok (pairedServer, [⟨7, frame .little forwardedText⟩]) := by
    rw [start_read]
    rfl
  have delivered := sent.tail (i := Move.deliver 0 (fun _ => none)) ⟨pairedServer_paired, .deliver rfl answered⟩
  have asks : (Event.read 0 (fun _ => none) 3 (reply "app_start_reply" "success")).asks 7 = [] := by decide
  have answers : (Event.read 0 (fun _ => none) 3 (reply "app_start_reply" "success")).answers = true := by decide
  rw [start_read, served_answering asks answers, sentOn_same, sentOn_other (by decide)] at delivered
  exact ⟨_, rfl, rfl, ⟨⟨playing, rfl⟩, rfl, rfl⟩,
    commands_answered startCodec_agree pairedServer rfl delivered⟩

end MusicPlayer
