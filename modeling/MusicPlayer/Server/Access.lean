import MusicPlayer.Server.Routing

/-! Who controls a speaker: a connection that named it in an `app_info`, and no
later one took it over. The accounts have no part in it. -/
namespace MusicPlayer.Server
open CBytes FirstMatch Runs

variable {δ : Type} (m : Mysql δ) (k : Codec)

/-! ## Who a speaker was last chosen by -/

/-- An `app_info` that names the device, on the connection. -/
def Event.Chooses (c : Bev) (d : Bytes) : Event → Prop
  | .read _ _ bev value => bev = c ∧ value.isCmd "app_info" = true ∧ value.member (lit "deviceid") = .string d
  | .event _ _ => False
  | .timeout _ => False

/-- The last `app_info` that names the device came on the connection. -/
def Chosen (past : List Event) (c : Bev) (d : Bytes) : Prop :=
  ∃ before e after, past = before ++ e :: after ∧ e.Chooses c d ∧ ∀ e' ∈ after, ∀ b, ¬ e'.Chooses b d

theorem act_eq_pair {e : Event} {c : Bev} {d : Bytes} : e.act = .pair c d ↔ e.Chooses c d := by
  cases e with
  | event bev what =>
      simp only [Event.act, Event.Chooses, iff_false]
      intro same
      split at same <;> cases same
  | timeout now => exact iff_of_false (by rintro ⟨⟩) id
  | read now opendir bev value =>
      simp only [Event.act, Event.Chooses]
      constructor
      · intro same
        split at same
        · split at same <;> cases same
        · split at same
          next cmd =>
            split at same
            next named =>
              cases same
              exact ⟨rfl, cmd, named⟩
            next => cases same
          next => split at same <;> cases same
      · rintro ⟨rfl, cmd, named⟩
        rw [if_neg (Json.not_isCmd cmd (by decide)), if_pos cmd, named]

theorem chosen_of_lastPaired {past : List Event} {c : Bev} {d : Bytes}
    (h : Pairing.LastPaired (past.map Event.act) c d) : Chosen past c d := by
  obtain ⟨before, after, split, none⟩ := h
  obtain ⟨first, rest, rfl, -, tail⟩ := List.map_eq_append_iff.mp split
  obtain ⟨e, last, rfl, act, rfl⟩ := List.map_eq_cons_iff.mp tail
  refine ⟨first, e, last, rfl, act_eq_pair.mp act, fun e' member b chooses => ?_⟩
  exact none b (List.mem_map.mpr ⟨e', member, act_eq_pair.mpr chooses⟩)

/-- Whatever the server has been through, the app of a node is the last that chose its device. -/
theorem app_chosen {db : δ} {past : List Event} {s : State δ} (run : Trace (Steps m k) (empty db) past s)
    {it : PLayerInfo} (member : it ∈ s.onlineList) {c : Bev} (paired : it.aBev = some c) :
    Chosen past c it.deviceid := by
  have kept : Pairing.WellFormed (table s.onlineList) ∧
      Pairing.Requested (past.map Event.act) (table s.onlineList) := by
    refine run.history_nil (I := fun past s => Pairing.WellFormed (table s.onlineList) ∧
      Pairing.Requested (past.map Event.act) (table s.onlineList)) ?_ ?_
    · rintro past s e t ⟨wf, requested⟩ one
      refine ⟨steps_wellFormed m k wf one, ?_⟩
      obtain ⟨sent, one⟩ := one
      rw [List.map_append]
      exact (step_refines m k one).requested wf requested
    · exact ⟨.nil, fun x member => nomatch member⟩
  exact chosen_of_lastPaired (kept.2 (link it) (List.mem_map_of_mem member) c paired)

/-! ## What is sent on -/

/-- The messages that go from an app to a speaker. -/
def ForSpeaker (value : Json) : Prop :=
  appCommands.any value.isCmd = true ∨ value.isCmd "app_capture_cur_musiclist" = true

/-- The messages that go from a speaker to its app. -/
def ForApp (value : Json) : Prop := value.isCmd "info" = true ∨ value.isCmd "upload_music" = true

/-- The node whose status the message is, as its handler finds it. -/
def StatusOf (bev : Bev) (value : Json) (it : PLayerInfo) : Prop :=
  (value.isCmd "info" = true ∧ (value.member (lit "deviceid")).asString = .ok it.deviceid) ∨
    (value.isCmd "upload_music" = true ∧ it.dBev = some bev)

theorem transAppCmd_along {bev : Bev} {value : Json} {l : Registry} {sent : List Send}
    (h : transAppCmd k bev value l = .ok sent) : ∀ x ∈ sent,
      (x.bev = bev ∧ x.bytes = frame k.order (k.write offlineReply)) ∨
        ∃ it ∈ l, it.aBev = some bev ∧ it.dBev = some x.bev := by
  unfold transAppCmd at h
  split at h
  next dev chosen =>
    obtain ⟨⟨pre, it, post⟩, found, spoken⟩ := Option.bind_eq_some_iff.mp chosen
    obtain ⟨rfl, hit, -⟩ := firstMatch_eq_some.mp found
    simp only [Bool.and_eq_true, beq_iff_eq] at hit
    obtain ⟨s, sends, h⟩ := Except.bind_eq_ok.mp h
    cases h
    intro x member
    rw [List.mem_singleton.mp member, ((sendData_ok k).mp sends).2]
    exact .inr ⟨it, by simp, hit.1, spoken⟩
  next =>
    obtain ⟨s, sends, h⟩ := Except.bind_eq_ok.mp h
    cases h
    intro x member
    rw [List.mem_singleton.mp member, ((sendData_ok k).mp sends).2]
    exact .inl ⟨rfl, rfl⟩

section Dispatch
variable {m k} {now : Int} {opendir : Bytes → Option (List Dirent)} {bev : Bev} {value : Json}
  {s s' : State δ} {sent : List Send} (h : dispatch m k now opendir bev value s = .ok (s', sent))
include h

/-- A message for a speaker goes along a node of its app, or is answered offline. -/
theorem forSpeaker_along (kind : ForSpeaker value) : ∀ x ∈ sent,
    (x.bev = bev ∧ x.bytes = frame k.order (k.write offlineReply)) ∨
      ∃ it ∈ s.onlineList, it.aBev = some bev ∧ it.dBev = some x.bev := by
  rcases kind with command | capture
  · rw [dispatch_app_command m k command] at h
    obtain ⟨out, forwarded, same⟩ := Except.bind_eq_ok.mp h
    cases same
    exact transAppCmd_along k forwarded
  · rw [dispatch_capture m k capture] at h
    obtain ⟨out, captured, same⟩ := Except.bind_eq_ok.mp h
    cases same
    exact fun x member => .inr (captureCurMusicList_sent k captured x member)

/-- A status goes to the app of its node. -/
theorem forApp_along (kind : ForApp value) : ∀ x ∈ sent,
    ∃ it ∈ s.onlineList, StatusOf bev value it ∧ it.aBev = some x.bev := by
  intro x member
  rcases kind with info | upload
  · rw [dispatch_info m k info] at h
    obtain ⟨⟨onlineList, out⟩, updated, same⟩ := Except.bind_eq_ok.mp h
    cases same
    obtain ⟨d, device, ⟨pre, it, post, node, found, -, -, forwarded⟩ | ⟨-, none, -⟩⟩ := devUpdateList_ok k updated
    · obtain ⟨split, hit, -⟩ := firstMatch_eq_some.mp found
      refine ⟨it, by rw [split]; simp, .inl ⟨info, ?_⟩, forwarded x member⟩
      rw [device, beq_iff_eq.mp hit]
    · rw [none] at member
      cases member
  · rw [dispatch_upload_music m k upload] at h
    split at h
    · cases h
    · obtain ⟨out, uploaded, same⟩ := Except.bind_eq_ok.mp h
      cases same
      obtain ⟨it, inList, spoken, paired⟩ := uploadMusic_sent k uploaded x member
      exact ⟨it, inList, .inr ⟨upload, spoken⟩, paired⟩

end Dispatch

/-- In every run an app's message reaches no speaker, and a speaker's status no
app, but along a node whose device that app was the last to choose. -/
theorem relayed_to_chosen {db : δ} {past : List Event} {s s' : State δ}
    (run : Trace (Steps m k) (empty db) past s) {now : Int} {opendir : Bytes → Option (List Dirent)} {bev : Bev}
    {value : Json} {sent : List Send} (one : step m k (.read now opendir bev value) s = .ok (s', sent)) :
    (ForSpeaker value → ∀ x ∈ sent, (x.bev = bev ∧ x.bytes = frame k.order (k.write offlineReply)) ∨
      ∃ it ∈ s.onlineList, it.dBev = some x.bev ∧ Chosen past bev it.deviceid) ∧
    (ForApp value → ∀ x ∈ sent,
      ∃ it ∈ s.onlineList, StatusOf bev value it ∧ Chosen past x.bev it.deviceid) := by
  constructor
  · intro kind x member
    rcases forSpeaker_along one kind x member with offline | ⟨it, inList, paired, spoken⟩
    · exact .inl offline
    · exact .inr ⟨it, inList, spoken, app_chosen m k run inList paired⟩
  · intro kind x member
    obtain ⟨it, inList, status, paired⟩ := forApp_along one kind x member
    exact ⟨it, inList, status, app_chosen m k run inList paired⟩

theorem choose_then_start (k : Codec) : Trace (Steps noAccounts k) (empty ())
    [.read 0 (fun _ => none) 1 (status "0001"), .read 0 (fun _ => none) 7 (choice "0001")]
    ⟨[chosenBy 7 (speaker "0001" 1 none)], ()⟩ :=
  .cons ⟨[], rfl⟩ (.cons ⟨[], rfl⟩ (.nil _))

theorem chosen_start_relayed :
    ∃ it ∈ [chosenBy 7 (speaker "0001" 1 none)], it.dBev = some 1 ∧
      Chosen [.read 0 (fun _ => none) 1 (status "0001"), .read 0 (fun _ => none) 7 (choice "0001")] 7
        it.deviceid := by
  have sent : step noAccounts (writing commandText) (.read 0 (fun _ => none) 7 command)
      ⟨[chosenBy 7 (speaker "0001" 1 none)], ()⟩ =
      .ok (⟨[chosenBy 7 (speaker "0001" 1 none)], ()⟩, [⟨1, frame .little (lit commandText)⟩]) := rfl
  have relayed := (relayed_to_chosen noAccounts (writing commandText) (choose_then_start _) sent).1
    (.inl (by decide)) _ List.mem_cons_self
  rcases relayed with ⟨same, -⟩ | found
  · exact absurd same (by decide)
  · exact found

/-- A command reaches a speaker from a connection that never asked to log in or to bind. -/
theorem command_without_login :
    Trace (Steps noAccounts (writing commandText)) (empty ())
        [.read 0 (fun _ => none) 1 (status "0001"), .read 0 (fun _ => none) 7 (choice "0001")]
        ⟨[chosenBy 7 (speaker "0001" 1 none)], ()⟩ ∧
      step noAccounts (writing commandText) (.read 0 (fun _ => none) 7 command)
          ⟨[chosenBy 7 (speaker "0001" 1 none)], ()⟩ =
        .ok (⟨[chosenBy 7 (speaker "0001" 1 none)], ()⟩, [⟨1, frame .little (lit commandText)⟩]) ∧
      ∀ value ∈ [status "0001", choice "0001"],
        value.isCmd "app_login" = false ∧ value.isCmd "app_bind" = false :=
  ⟨choose_then_start _, rfl, by decide⟩

end MusicPlayer.Server
