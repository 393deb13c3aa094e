import MusicPlayer.Server.Dispatch

/-! A callback leaves alone everyone it is not about: it changes the nodes that
name its connection or its message's device, and writes to these and back to
where the message came from. -/
namespace MusicPlayer.Server
open CBytes FirstMatch

variable {δ : Type} (m : Mysql δ) (k : Codec)

def Event.conn : Event → Option Bev
  | .read _ _ bev _ => some bev
  | .event bev _ => some bev
  | .timeout _ => none

/-- The `deviceid` of the message, as the handlers read it. -/
def Event.deviceid : Event → Option Bytes
  | .read _ _ _ value => (value.member (lit "deviceid")).asString.toOption
  | .event _ _ => none
  | .timeout _ => none

/-- The nodes a callback on `c` is about. -/
def About (c : Bev) (e : Event) (it : PLayerInfo) : Prop :=
  it.dBev = some c ∨ it.aBev = some c ∨ e.deviceid = some it.deviceid

def SameDevice (it node : PLayerInfo) : Prop := node.deviceid = it.deviceid

theorem deviceid_eq {now : Int} {opendir : Bytes → Option (List Dirent)} {bev : Bev} {value : Json}
    {d : Bytes} (device : (value.member (lit "deviceid")).asString = .ok d) :
    (Event.read now opendir bev value).deviceid = some d := by
  rw [Event.deviceid, device]
  rfl

theorem appOffline_edits (c : Bev) (e : Event) (l : Registry) :
    Edits (About c e) SameDevice l (appOffline c l) := by
  unfold appOffline
  split
  next pre it post found =>
    obtain ⟨rfl, hit, -⟩ := firstMatch_eq_some.mp found
    exact .change_at (.inr (.inl (beq_iff_eq.mp hit))) rfl
  next => exact .refl l

theorem appOrDevOffline_edits (c : Bev) (e : Event) (l : Registry) :
    Edits (About c e) SameDevice l (appOrDevOffline c l) := by
  unfold appOrDevOffline
  split
  next pre it post found =>
    obtain ⟨rfl, hit, -⟩ := firstMatch_eq_some.mp found
    split
    next paired => exact .change_at (.inr (.inl paired)) rfl
    next unpaired =>
      have spoken : it.dBev = some c := by
        simpa [unpaired] using hit
      exact .remove_at (.inl spoken)
  next => exact .refl l

theorem dispatch_isolated {now : Int} {opendir : Bytes → Option (List Dirent)} {c : Bev} {value : Json}
    {s s' : State δ} {sent : List Send} (h : dispatch m k now opendir c value s = .ok (s', sent)) :
    Edits (About c (.read now opendir c value)) SameDevice s.onlineList s'.onlineList ∧
      SentTo (fun b => b = c ∨ ∃ it ∈ s.onlineList, About c (.read now opendir c value) it ∧
        (it.dBev = some b ∨ it.aBev = some b)) sent := by
  have handled := dispatch_ok m k h
  generalize s.onlineList = l at handled
  generalize s'.onlineList = l' at handled
  cases handled with
  | info cmd touched updated =>
      obtain ⟨d, device, known | fresh⟩ := devUpdateList_ok k updated
      · obtain ⟨pre, it, post, node, found, rfl, same, forwarded⟩ := known
        obtain ⟨rfl, hit, -⟩ := firstMatch_eq_some.mp found
        rw [Json.member_touch touched] at device
        have about : About c (.read now opendir c value) it :=
          .inr (.inr ((deviceid_eq device).trans (congrArg some (beq_iff_eq.mp hit).symm)))
        exact ⟨.change_at about same.1, forwarded.mono fun b paired =>
          .inr ⟨it, by simp, about, .inr paired⟩⟩
      · obtain ⟨-, rfl, node, rfl, -⟩ := fresh
        exact ⟨.append l node, sentTo_nil _⟩
  | appInfo cmd touched updated =>
      refine ⟨?_, sentTo_nil _⟩
      rcases appUpdateList_ok updated with ⟨d, pre, it, post, node, named, found, rfl, same, -⟩ |
          ⟨-, rfl⟩
      · obtain ⟨rfl, hit, -⟩ := firstMatch_eq_some.mp found
        rw [Json.member_touch touched] at named
        have device : (value.member (lit "deviceid")).asString = .ok it.deviceid := by
          rw [named, Json.asString_string, beq_iff_eq.mp hit]
        exact .change_at (.inr (.inr (deviceid_eq device))) (same.trans (beq_iff_eq.mp hit).symm)
      · exact .refl _
  | offline cmd => exact ⟨appOffline_edits c _ l, sentTo_nil _⟩
  | other info pair leave answers =>
      refine ⟨.refl l, answers.mono fun b => Or.imp_right ?_⟩
      rintro ⟨it, member, ⟨app, dev⟩ | ⟨dev, app⟩⟩
      · exact ⟨it, member, .inr (.inl app), .inl dev⟩
      · exact ⟨it, member, .inl dev, .inr app⟩

/-- Whatever a client sends and however its connection ends, the handler that
returns has changed only nodes it is about, in place, appended at most one, and
sent only to its client and to the connections of those nodes. -/
theorem step_isolated {e : Event} {c : Bev} {s s' : State δ} {sent : List Send}
    (client : e.conn = some c) (h : step m k e s = .ok (s', sent)) :
    Edits (About c e) SameDevice s.onlineList s'.onlineList ∧
      SentTo (fun b => b = c ∨ ∃ it ∈ s.onlineList, About c e it ∧
        (it.dBev = some b ∨ it.aBev = some b)) sent := by
  cases e with
  | read now opendir bev value =>
      cases client
      exact dispatch_isolated m k h
  | event bev what =>
      cases client
      cases h
      refine ⟨?_, sentTo_nil _⟩
      simp only [eventCb]
      split
      · exact appOrDevOffline_edits c _ _
      · exact .refl _
  | timeout now => cases client

/-- A server without accounts, on a state of nothing. -/
def noAccounts : Mysql Unit where
  realConnect _ := (false, ())
  query _ _ := (false, ())
  storeResult _ := (none, ())
  close _ := ()

/-- A run on one message needs the writer on that message only. -/
def writing (text : String) : Codec where
  order := .little
  parse _ := (false, .null)
  write _ := lit text

def status (deviceid : String) : Json :=
  .object [(lit "cmd", .string (lit "info")), (lit "cur_music", .string (lit "")),
    (lit "deviceid", .string (lit deviceid)), (lit "mode", .int 1),
    (lit "status", .string (lit "stop")), (lit "volume", .int 40)]

def statusText : String :=
  "\x7b\"cmd\":\"info\",\"cur_music\":\"\",\"deviceid\":\"0001\",\"mode\":1,\"status\":\"stop\",\"volume\":40\x7d\n"

def speaker (deviceid : String) (dBev : Bev) (aBev : Option Bev) : PLayerInfo where
  deviceid := lit deviceid
  appid := []
  curMusic := []
  volume := 40
  mode := 1
  dTime := 0
  aTime := aBev.map fun _ => 0
  dBev := some dBev
  aBev := aBev

theorem status_isolated :
    step noAccounts (writing statusText) (.read 1 (fun _ => none) 3 (status "0001"))
        ⟨[speaker "0002" 5 (some 6), speaker "0001" 3 (some 4)], ()⟩ =
      .ok (⟨[speaker "0002" 5 (some 6), { speaker "0001" 3 (some 4) with dTime := 1 }], ()⟩,
        [⟨4, frame .little (lit statusText)⟩]) ∧
    Edits (About 3 (.read 1 (fun _ => none) 3 (status "0001"))) SameDevice
      [speaker "0002" 5 (some 6), speaker "0001" 3 (some 4)]
      [speaker "0002" 5 (some 6), { speaker "0001" 3 (some 4) with dTime := 1 }] :=
  ⟨rfl, (step_isolated noAccounts (writing statusText)
    (e := .read 1 (fun _ => none) 3 (status "0001"))
    (s := ⟨[speaker "0002" 5 (some 6), speaker "0001" 3 (some 4)], ()⟩) rfl rfl).1⟩

end MusicPlayer.Server
