import MusicPlayer.Speaker.Requests

/-! What the speaker puts on its link to the server: which objects, and how many
answers each of its functions gives. -/
namespace MusicPlayer.Speaker
open CBytes Program

variable (j : JsonC)

/-- The commands an app can give. -/
def remoteCommands : List String :=
  ["app_start", "app_stop", "app_suspend", "app_continue", "app_prev", "app_next",
    "app_upvolume", "app_downvolume", "app_circle", "app_sequence"]

def answerTo (name : String) : String := name ++ "_reply"

/-- The command an object answers. -/
def answers (obj : Json) : Option String := remoteCommands.find? fun name => obj.isCmd (answerTo name)

/-- What `SendServer` reports. -/
def infoReport (curMusic : Bytes) (mode : Int) (status : Bytes) (volume : Int) : Json :=
  .object [(lit "cmd", .string (lit "info")), (lit "cur_music", .string curMusic), (lit "mode", .int mode),
    (lit "status", .string status), (lit "deviceid", .string (lit "0001")), (lit "volume", .int volume)]

/-- The objects the speaker sends. -/
inductive Spoken : Json → Prop
  | info (curMusic : Bytes) (mode : Int) (status : Bytes) (volume : Int) :
      Spoken (infoReport curMusic mode status volume)
  | request (singer : Bytes) : Spoken (musicRequest singer)
  | upload (names : List Bytes) :
      Spoken (.object [(lit "cmd", .string (lit "upload_music")), (lit "music", .array (names.map .string))])
  | reply {name : String} (result : String) : name ∈ remoteCommands →
      Spoken (.object [(lit "cmd", .string (lit (answerTo name))), (lit "result", .string (lit result))])

/-- An online speaker: it sends what it may, reads no command in between, and its
output is the commands its answers name. -/
def speaking : Contract Call Memory String where
  keeps s := s.deviceMode = .online
  allows
    | .send obj => Spoken obj
    | .recSocketData .readSocket => False
    | _ => True
  emits
    | .send obj => answers obj
    | _ => none

theorem offLine_silent {op : Call} (off : op.OffLine) : speaking.emits op = none := by
  cases op with
  | send obj => exact off.elim
  | _ => rfl

theorem answered_reply {name : String} (known : name ∈ remoteCommands) (result : String) :
    answers (.object [(lit "cmd", .string (lit (answerTo name))), (lit "result", .string (lit result))]) =
      some name := by
  have one : ∀ name ∈ remoteCommands,
      remoteCommands.find? (fun other => lit (answerTo name) == lit (answerTo other)) = some name := by decide
  exact one name known

theorem sendMusicInfo_meets {obj : Json} (spoken : Spoken obj) {s : Memory} (online : s.deviceMode = .online) :
    Meets speaking (answers obj).toList (sendMusicInfo j obj s) := by
  unfold sendMusicInfo
  rw [online]
  refine .check fun bytes _ => ?_
  refine .call online spoken (List.append_nil _).symm fun _ s online => ?_
  exact .done online

theorem uploadMusic_meets {s : Memory} (online : s.deviceMode = .online) :
    Meets speaking [] (uploadMusic j s) := sendMusicInfo_meets j (.upload _) online

theorem linkMusicList_mode {text : Bytes} {s t : Memory} (h : linkMusicList j text s = .ok t) :
    t.deviceMode = s.deviceMode := by
  unfold linkMusicList at h
  split at h
  · cases h
    rfl
  · split at h
    · cases h
    · split at h
      · cases h
        rfl
      · split at h
        · obtain ⟨names, -, h⟩ := Except.bind_eq_ok.mp h
          obtain ⟨musicHead, -, h⟩ := Except.bind_eq_ok.mp h
          cases h
          rfl
        · cases h

theorem getMusicName_meets (singer : Bytes) {s : Memory} (online : s.deviceMode = .online) :
    Meets speaking [] (getMusicName j singer s) := by
  have mode : (clearMusicList s).deviceMode = .online := online
  unfold getMusicName
  dsimp only
  rw [mode]
  refine (sendMusicInfo_meets j (.request singer) mode).andThen fun s online => ?_
  refine .call online trivial rfl fun text s online => ?_
  refine .check fun t linked => ?_
  exact uploadMusic_meets j ((linkMusicList_mode j linked).trans online)

theorem continuePlay_meets {s : Memory} (online : s.deviceMode = .online) :
    Meets speaking [] (continuePlay s) := by
  unfold continuePlay
  split
  · exact .call online trivial rfl fun _ _ online => .done online
  · exact .done online

theorem suspendPlay_meets {s : Memory} (online : s.deviceMode = .online) :
    Meets speaking [] (suspendPlay s) := by
  unfold suspendPlay
  split
  · exact .call online trivial rfl fun _ _ online => .done online
  · exact .done online

theorem startPlay_meets {s : Memory} (online : s.deviceMode = .online) :
    Meets speaking [] (startPlay s) := by
  unfold startPlay
  split
  · exact continuePlay_meets online
  · split
    · exact .done online
    · refine .call online trivial rfl fun _ s online => ?_
      split
      · exact .fail _
      · refine .check fun musicName _ => ?_
        exact .call online trivial rfl fun _ _ online => .done online

theorem handle_meets {s : Memory} (online : s.deviceMode = .online) : Meets speaking [] (handle s) := by
  unfold handle
  split
  · exact startPlay_meets online
  · split
    · exact suspendPlay_meets online
    · exact continuePlay_meets online

theorem stopPlay_meets {s : Memory} (online : s.deviceMode = .online) :
    Meets speaking [] (stopPlay s) := by
  unfold stopPlay
  split
  · refine .call online trivial rfl fun curInfo s online => ?_
    refine .call online trivial rfl fun _ s online => ?_
    refine .call online trivial rfl fun _ s online => ?_
    exact .call online trivial rfl fun _ _ online => .done online
  · exact .done online

theorem replay_meets (singer : Bytes) {s : Memory} (online : s.deviceMode = .online) :
    Meets speaking [] ((getMusicName j singer s).andThen startPlay) :=
  (getMusicName_meets j singer online).andThen fun _ => startPlay_meets

theorem updateMusic_meets {s : Memory} (online : s.deviceMode = .online) :
    Meets speaking [] (updateMusic j s) := by
  unfold updateMusic
  refine .call online trivial rfl fun _ s online => ?_
  refine .call online trivial rfl fun curInfo s online => ?_
  refine .call online trivial rfl fun _ s online => ?_
  refine .call online trivial rfl fun _ s online => ?_
  exact replay_meets j _ online

theorem loadTrack_meets (curInfo : Shm) (name : Bytes) {s : Memory} (online : s.deviceMode = .online) :
    Meets speaking [] (loadTrack curInfo name s) := by
  unfold loadTrack
  refine .check fun curInfo _ => ?_
  refine .call online trivial rfl fun _ s online => ?_
  refine .call online trivial rfl fun _ s online => ?_
  refine .check fun path _ => ?_
  exact .call online trivial rfl fun _ _ online => .done online

theorem nextPlay_meets {s : Memory} (online : s.deviceMode = .online) :
    Meets speaking [] (nextPlay j s) := by
  unfold nextPlay
  split
  · refine .call online trivial rfl fun _ s online => ?_
    refine .call online trivial rfl fun curInfo s online => ?_
    refine .check fun next _ => ?_
    cases next with
    | none => exact (stopPlay_meets online).andThen fun _ online => replay_meets j _ online
    | some name => exact loadTrack_meets curInfo name online
  · exact .done online

theorem prevPlay_meets {s : Memory} (online : s.deviceMode = .online) :
    Meets speaking [] (prevPlay s) := by
  unfold prevPlay
  split
  · refine .call online trivial rfl fun _ s online => ?_
    refine .call online trivial rfl fun curInfo s online => ?_
    exact .check fun name _ => loadTrack_meets curInfo name online
  · exact .done online

theorem upVolume_meets {s : Memory} (online : s.deviceMode = .online) :
    Meets speaking [] (upVolume s) := by
  unfold upVolume
  refine .call online trivial rfl fun volume s online => ?_
  split
  · exact .call online trivial rfl fun _ _ online => .done online
  · exact .done online

theorem downVolume_meets {s : Memory} (online : s.deviceMode = .online) :
    Meets speaking [] (downVolume s) := by
  unfold downVolume
  refine .call online trivial rfl fun volume s online => ?_
  split
  · exact .call online trivial rfl fun _ _ online => .done online
  · exact .done online

theorem setMode_meets (mode : Int) {s : Memory} (online : s.deviceMode = .online) :
    Meets speaking [] (setMode mode s) := by
  unfold setMode
  refine .call online trivial rfl fun curInfo s online => ?_
  exact .call online trivial rfl fun _ _ online => .done online

/-- Every task but `readSocket` answers nothing. -/
theorem task_meets (t : Task) (other : t ≠ .readSocket) {s : Memory} (online : s.deviceMode = .online) :
    Meets speaking [] (t.run j s) := by
  cases t with
  | startPlay => exact startPlay_meets online
  | stopPlay => exact stopPlay_meets online
  | suspendPlay => exact suspendPlay_meets online
  | continuePlay => exact continuePlay_meets online
  | nextPlay => exact nextPlay_meets j online
  | prevPlay => exact prevPlay_meets online
  | upVolume => exact upVolume_meets online
  | downVolume => exact downVolume_meets online
  | circlePlay => exact setMode_meets circle online
  | sequencePlay => exact setMode_meets sequence online
  | getMusicName singer => exact getMusicName_meets j singer online
  | sing singer => exact (stopPlay_meets online).andThen fun _ online => replay_meets j singer online
  | uploadMusic => exact uploadMusic_meets j online
  | readSocket => exact absurd rfl other

/-! ## Commands -/

theorem sendReply_meets {name : String} (known : name ∈ remoteCommands) (result : String) {s : Memory}
    (online : s.deviceMode = .online) : Meets speaking [name] (sendReply j (answerTo name) result s) := by
  have sent := sendMusicInfo_meets j (.reply result known) online
  rwa [answered_reply known] at sent

theorem answered_meets {run : Memory → Code} {name : String} (known : name ∈ remoteCommands)
    (quiet : ∀ {s}, s.deviceMode = .online → Meets speaking [] (run s)) {s : Memory}
    (online : s.deviceMode = .online) : Meets speaking [name] (answered j run (answerTo name) s) :=
  (quiet online).andThen fun _ => sendReply_meets j known "success"

theorem socketStartPlay_meets {s : Memory} (online : s.deviceMode = .online) :
    Meets speaking ["app_start"] (socketStartPlay j s) := by
  refine (startPlay_meets online).andThen fun s online => ?_
  refine .call online trivial rfl fun result s online => ?_
  exact sendReply_meets j (by decide) _ online

theorem socketStopPlay_meets {s : Memory} (online : s.deviceMode = .online) :
    Meets speaking ["app_stop"] (socketStopPlay j s) := by
  refine (stopPlay_meets online).andThen fun s online => ?_
  refine .call online trivial rfl fun result s online => ?_
  exact sendReply_meets j (by decide) _ online

/-- The command the handler of `name` answers: its own, but for one. -/
def answeredBy (name : String) : List String :=
  if name = "app_continue" then ["app_suspend"]
  else if name ∈ remoteCommands then [name]
  else []

theorem handlers_meet : ∀ h ∈ handlers j, ∀ s : Memory, s.deviceMode = .online →
    Meets speaking (answeredBy h.1) (h.2 s) := by
  simp only [handlers, List.forall_mem_cons, List.not_mem_nil, false_implies, implies_true, and_true]
  refine ⟨?_, ?_, ?_, ?_, ?_, ?_, ?_, ?_, ?_, ?_, ?_, ?_⟩ <;> intro s online
  · exact socketStartPlay_meets j online
  · exact socketStopPlay_meets j online
  · exact answered_meets j (by decide) suspendPlay_meets online
  · exact answered_meets j (by decide) continuePlay_meets online
  · exact answered_meets j (by decide) (nextPlay_meets j) online
  · exact answered_meets j (by decide) prevPlay_meets online
  · exact answered_meets j (by decide) downVolume_meets online
  · exact answered_meets j (by decide) upVolume_meets online
  · exact answered_meets j (by decide) (setMode_meets circle) online
  · exact answered_meets j (by decide) (setMode_meets sequence) online
  · exact uploadMusic_meets j online
  · exact uploadMusic_meets j online

/-- The app's command in a frame, as `ParseMessage` reads it. -/
def commandIn (text : Bytes) : Option String :=
  match parseMessage j text with
  | .ok cmd => remoteCommands.find? fun name => cmd = lit name
  | .error _ => none

theorem commandIn_known {text : Bytes} {name : String} (h : commandIn j text = some name) :
    name ∈ remoteCommands := by
  unfold commandIn at h
  split at h
  · exact List.mem_of_find?_eq_some h
  · cases h

theorem handlers_names : (handlers j).map Prod.fst = ["app_start", "app_stop", "app_suspend",
    "app_continue", "app_next", "app_prev", "app_downvolume", "app_upvolume", "app_circle", "app_sequence",
    "app_get_music", "app_capture_cur_musiclist"] := rfl

/-- A handler answers what its frame asks, and the two requests for the list nothing. -/
theorem answeredBy_handled : ∀ name ∈ ["app_start", "app_stop", "app_suspend", "app_continue", "app_next",
    "app_prev", "app_downvolume", "app_upvolume", "app_circle", "app_sequence", "app_get_music",
    "app_capture_cur_musiclist"],
    (remoteCommands.find? fun other => lit name = lit other).toList.flatMap answeredBy = answeredBy name := by
  decide

theorem remote_handled : ∀ name ∈ remoteCommands, name ∈ (handlers j).map Prod.fst := by
  rw [handlers_names]
  decide

/-- A frame is answered once if it holds an app's command, and not otherwise. -/
theorem dispatchFrame_meets (text : Bytes) {s : Memory} (online : s.deviceMode = .online) :
    Meets speaking ((commandIn j text).toList.flatMap answeredBy) (dispatchFrame j text s) := by
  unfold dispatchFrame commandIn
  cases parseMessage j text with
  | error e => exact .fail e
  | ok cmd =>
      change Meets speaking ((remoteCommands.find? fun name => cmd = lit name).toList.flatMap answeredBy)
        (execute j cmd s)
      unfold execute
      cases found : (handlers j).find? fun h => cmd = lit h.1 with
      | none =>
          have silent : remoteCommands.find? (fun name => cmd = lit name) = none := by
            rw [List.find?_eq_none] at found ⊢
            intro name known
            obtain ⟨h, member, rfl⟩ := List.mem_map.mp (remote_handled j name known)
            exact found h member
          rw [silent]
          exact .done online
      | some h =>
          have member := List.mem_of_find?_eq_some found
          have here : cmd = lit h.1 := by simpa using List.find?_some found
          subst here
          have named := List.mem_map_of_mem (f := Prod.fst) member
          rw [handlers_names] at named
          rw [answeredBy_handled h.1 named]
          exact handlers_meet j h member s online

end MusicPlayer.Speaker
