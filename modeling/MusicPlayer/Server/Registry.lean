import MusicPlayer.Message
import MusicPlayer.Lib.FirstMatch

/-! The registry `online_list` and the handlers of class `Player` on it. A
handler returns the packets it has written, in order. -/
namespace MusicPlayer.Server
open CBytes FirstMatch

/-- A `struct bufferevent *` that is not null. -/
abbrev Bev := Nat

/-- One node; `aTime` is `none` until it is first assigned. -/
structure PLayerInfo where
  deviceid : Bytes
  appid : Bytes
  curMusic : Bytes
  volume : Int
  mode : Int
  dTime : Int
  aTime : Option Int
  dBev : Option Bev
  aBev : Option Bev
  deriving DecidableEq

abbrev Registry := List PLayerInfo

/-- The bytes one `bufferevent_write` puts on a connection. -/
structure Send where
  bev : Bev
  bytes : Bytes
  deriving DecidableEq

/-- jsoncpp as the server uses it: `Reader::parse` with the value it leaves
behind whether or not it reports success, and `FastWriter::write`. -/
structure Codec where
  order : ByteOrder
  parse : Bytes → Bool × Json
  write : Json → Bytes

variable (k : Codec)

def sendData (bev : Bev) (val : Json) : Except Fault Send := do
  let bytes ← packet k.order (k.write val)
  return { bev, bytes }

def musicPath : Bytes := lit "/var/www/html/music/"

/-- `opendir` and `readdir` are the argument. -/
def getMusicName (opendir : Bytes → Option (List Dirent)) (singer : Bytes) : Json :=
  match opendir (cstr (musicPath ++ singer)) with
  | none => .null
  | some files =>
      let musicList := (files.filter fun f => f.regular && strstr f.name (lit ".mp3")).map
        fun f => singer ++ lit "/" ++ f.name
      let arr := if musicList = [] then Json.null else .array ((musicList.take 5).map .string)
      .object [(lit "cmd", .string (lit "reply_music_list")), (lit "music", arr)]

def devUpdateList (now : Int) (bev : Bev) (value : Json) (l : Registry) :
    Except Fault (Registry × List Send) := do
  let deviceid ← (value.member (lit "deviceid")).asString
  let value ← value.touch (lit "deviceid")
  let curMusic ← (value.member (lit "cur_music")).asString
  let value ← value.touch (lit "cur_music")
  let mode ← (value.member (lit "mode")).asInt
  let value ← value.touch (lit "mode")
  let volume ← (value.member (lit "volume")).asInt
  let value ← value.touch (lit "volume")
  match firstMatch (fun it => it.deviceid == deviceid) l with
  | some (pre, it, post) =>
      let node := { it with curMusic, mode, volume, dTime := now }
      match it.aBev with
      | some app => do
          let sent ← sendData k app value
          return (pre ++ node :: post, [sent])
      | none => return (pre ++ node :: post, [])
  | none =>
      let newNode : PLayerInfo :=
        { deviceid, appid := [], curMusic, volume, mode
          dTime := now, aTime := none
          dBev := some bev, aBev := none }
      return (l ++ [newNode], [])

def appUpdateList (now : Int) (bev : Bev) (value : Json) (l : Registry) : Except Fault Registry :=
  match firstMatch (fun it => (value.member (lit "deviceid")).isString it.deviceid) l with
  | some (pre, it, post) => do
      let appid ← (value.member (lit "appid")).asString
      return pre ++ { it with aBev := some bev, aTime := some now, appid } :: post
  | none => return l

/-- The sweep's second test: an app that has been silent is let go. -/
def letAppGo (now : Int) (it : PLayerInfo) : Except Fault PLayerInfo :=
  match it.aBev, it.aTime with
  | none, _ => .ok it
  | some _, none => .error .uninitialised
  | some _, some aTime => .ok (if now - aTime > 6 then { it with aBev := none } else it)

/-- The sweep as the code does it: the iterator of an erased node is used again. -/
def traverseList (now : Int) : Registry → Except Fault Registry
  | [] => .ok []
  | it :: rest =>
      if now - it.dTime > 6 then .error .erasedIterator
      else do
        let it ← letAppGo now it
        let rest ← traverseList now rest
        return it :: rest

def uploadMusic (bev : Bev) (value : Json) (l : Registry) : Except Fault (List Send) :=
  match firstMatch (fun it => it.dBev == some bev) l with
  | some (_, it, _) =>
      match it.aBev with
      | some app => do
          let sent ← sendData k app value
          return [sent]
      | none => return []
  | none => return []

/-- What `reply_value` holds when it is sent: reading its `cmd` created it, and
the text with `_reply` appended is dropped. -/
def offlineReply : Json :=
  .object [(lit "cmd", .null), (lit "result", .string (lit "offline"))]

def transAppCmd (bev : Bev) (value : Json) (l : Registry) : Except Fault (List Send) := do
  match (firstMatch (fun it => it.aBev == some bev && it.dBev.isSome) l).bind (·.2.1.dBev) with
  | some dev =>
      let sent ← sendData k dev value
      return [sent]
  | none =>
      let sent ← sendData k bev offlineReply
      return [sent]

def transDevReply (bev : Bev) (value : Json) (l : Registry) : Except Fault (List Send) := do
  match (firstMatch (fun it => it.dBev == some bev && it.aBev.isSome) l).bind (·.2.1.aBev) with
  | some app =>
      let sent ← sendData k app value
      return [sent]
  | none =>
      let sent ← sendData k bev offlineReply
      return [sent]

def appOrDevOffline (bev : Bev) (l : Registry) : Registry :=
  match firstMatch (fun it => it.aBev == some bev || it.dBev == some bev) l with
  | some (pre, it, post) =>
      if it.aBev = some bev then pre ++ { it with aBev := none } :: post else pre ++ post
  | none => l

def appOffline (bev : Bev) (l : Registry) : Registry :=
  match firstMatch (fun it => it.aBev == some bev) l with
  | some (pre, it, post) => pre ++ { it with aBev := none } :: post
  | none => l

def captureCurMusicList (bev : Bev) (value : Json) : Registry → Except Fault (List Send)
  | [] => .ok []
  | it :: rest =>
      if it.aBev = some bev then
        match it.dBev with
        | none => .error .nullPointer
        | some dev => do
            let sent ← sendData k dev value
            let more ← captureCurMusicList bev value rest
            return sent :: more
      else captureCurMusicList bev value rest

/-! ## What each handler can do -/

theorem sendData_ok {bev : Bev} {val : Json} {sent : Send} :
    sendData k bev val = .ok sent ↔
      (k.write val).length ≤ 1020 ∧ sent = ⟨bev, frame k.order (k.write val)⟩ := by
  simp only [sendData, Except.bind_eq_ok, packet_eq_ok]
  constructor
  · rintro ⟨bytes, ⟨fits, rfl⟩, same⟩
    exact ⟨fits, (Except.ok.inj same).symm⟩
  · rintro ⟨fits, rfl⟩
    exact ⟨_, ⟨fits, rfl⟩, rfl⟩

/-- The parts of a node that say who is connected to whom. -/
def SameLinks (it node : PLayerInfo) : Prop :=
  node.deviceid = it.deviceid ∧ node.dBev = it.dBev ∧ node.aBev = it.aBev

/-- Every packet of `sent` goes to a connection in `dest`. -/
def SentTo (dest : Bev → Prop) (sent : List Send) : Prop := ∀ s ∈ sent, dest s.bev

@[simp] theorem sentTo_nil (dest : Bev → Prop) : SentTo dest [] := by
  intro s member
  cases member

theorem sentTo_singleton {dest : Bev → Prop} {bev : Bev} {val : Json} {s : Send} (ok : dest bev)
    (sends : sendData k bev val = .ok s) : SentTo dest [s] := by
  intro s' member
  rw [List.mem_singleton.mp member, ((sendData_ok k).mp sends).2]
  exact ok

/-- What a report that is taken leaves: the node of its device with the reported
values, or a node of its own at the end. -/
theorem devUpdateList_inv {now : Int} {bev : Bev} {value : Json} {l l' : Registry} {sent : List Send}
    (h : devUpdateList k now bev value l = .ok (l', sent)) :
    ∃ d curMusic mode volume, (value.member (lit "deviceid")).asString = .ok d ∧
      (value.member (lit "cur_music")).asString = .ok curMusic ∧
      (value.member (lit "mode")).asInt = .ok mode ∧ (value.member (lit "volume")).asInt = .ok volume ∧
      ((∃ pre it post, firstMatch (fun it => it.deviceid == d) l = some (pre, it, post) ∧
          l' = pre ++ { it with curMusic, mode, volume, dTime := now } :: post ∧
          SentTo (fun b => it.aBev = some b) sent) ∨
        (firstMatch (fun it => it.deviceid == d) l = none ∧ sent = [] ∧
          l' = l ++ [⟨d, [], curMusic, volume, mode, now, none, some bev, none⟩])) := by
  simp only [devUpdateList, Except.bind_eq_ok] at h
  obtain ⟨d, device, v₁, t₁, curMusic, music, v₂, t₂, mode, way, v₃, t₃, volume, loud, v₄, -, h⟩ := h
  rw [Json.member_touch t₁] at music
  rw [Json.member_touch t₂, Json.member_touch t₁] at way
  rw [Json.member_touch t₃, Json.member_touch t₂, Json.member_touch t₁] at loud
  refine ⟨d, curMusic, mode, volume, device, music, way, loud, ?_⟩
  cases found : firstMatch (fun it => it.deviceid == d) l with
  | none =>
      rw [found] at h
      cases h
      exact .inr ⟨rfl, rfl, rfl⟩
  | some parts =>
      obtain ⟨pre, it, post⟩ := parts
      rw [found] at h
      refine .inl ⟨pre, it, post, rfl, ?_⟩
      rcases Option.eq_none_or_eq_some it.aBev with paired | ⟨app, paired⟩
      · simp only [paired] at h
        cases h
        exact ⟨by rw [← paired], sentTo_nil _⟩
      · simp only [paired, Except.bind_eq_ok] at h
        obtain ⟨s, sends, h⟩ := h
        cases h
        exact ⟨by rw [← paired], sentTo_singleton k paired sends⟩

theorem devUpdateList_ok {now : Int} {bev : Bev} {value : Json} {l l' : Registry} {sent : List Send}
    (h : devUpdateList k now bev value l = .ok (l', sent)) :
    ∃ d, (value.member (lit "deviceid")).asString = .ok d ∧
      ((∃ pre it post node, firstMatch (fun it => it.deviceid == d) l = some (pre, it, post) ∧
          l' = pre ++ node :: post ∧ SameLinks it node ∧
          SentTo (fun b => it.aBev = some b) sent) ∨
        (firstMatch (fun it => it.deviceid == d) l = none ∧ sent = [] ∧
          ∃ node, l' = l ++ [node] ∧ node.deviceid = d ∧ node.dBev = some bev ∧
            node.aBev = none)) := by
  obtain ⟨d, curMusic, mode, volume, device, -, -, -, known | fresh⟩ := devUpdateList_inv k h
  · obtain ⟨pre, it, post, found, rfl, forwarded⟩ := known
    exact ⟨d, device, .inl ⟨pre, it, post, _, found, rfl, ⟨rfl, rfl, rfl⟩, forwarded⟩⟩
  · obtain ⟨missing, rfl, rfl⟩ := fresh
    exact ⟨d, device, .inr ⟨missing, rfl, _, rfl, rfl, rfl, rfl⟩⟩

theorem appUpdateList_ok {now : Int} {bev : Bev} {value : Json} {l l' : Registry}
    (h : appUpdateList now bev value l = .ok l') :
    (∃ d pre it post node, value.member (lit "deviceid") = .string d ∧
        firstMatch (fun it => it.deviceid == d) l = some (pre, it, post) ∧
        l' = pre ++ node :: post ∧ node.deviceid = d ∧ node.dBev = it.dBev ∧
        node.aBev = some bev ∧ node.aTime = some now ∧
        (value.member (lit "appid")).asString = .ok node.appid) ∨
      ((∀ d, value.member (lit "deviceid") = .string d →
        firstMatch (fun it => it.deviceid == d) l = none) ∧ l' = l) := by
  unfold appUpdateList at h
  have test : ∀ d, value.member (lit "deviceid") = .string d →
      firstMatch (fun it => (value.member (lit "deviceid")).isString it.deviceid) l =
        firstMatch (fun it => it.deviceid == d) l := by
    intro d same
    simp only [same, Json.isString_string]
    congr 1
    funext it
    exact BEq.comm
  cases found : firstMatch (fun it => (value.member (lit "deviceid")).isString it.deviceid) l with
  | none =>
      rw [found] at h
      cases h
      exact .inr ⟨fun d same => (test d same) ▸ found, rfl⟩
  | some parts =>
      obtain ⟨pre, it, post⟩ := parts
      rw [found] at h
      simp only [Except.bind_eq_ok] at h
      obtain ⟨appid, account, h⟩ := h
      cases h
      obtain ⟨-, hit, -⟩ := firstMatch_eq_some.mp found
      have same := Json.isString_iff.mp hit
      exact .inl ⟨it.deviceid, pre, it, post, _, same, (test _ same) ▸ found, rfl, rfl, rfl, rfl, rfl, account⟩

theorem uploadMusic_sent {bev : Bev} {value : Json} {l : Registry} {sent : List Send}
    (h : uploadMusic k bev value l = .ok sent) :
    SentTo (fun b => ∃ it ∈ l, it.dBev = some bev ∧ it.aBev = some b) sent := by
  unfold uploadMusic at h
  cases found : firstMatch (fun it => it.dBev == some bev) l with
  | none =>
      rw [found] at h
      cases h
      exact sentTo_nil _
  | some parts =>
      obtain ⟨pre, it, post⟩ := parts
      rw [found] at h
      obtain ⟨rfl, hit, -⟩ := firstMatch_eq_some.mp found
      rcases Option.eq_none_or_eq_some it.aBev with paired | ⟨app, paired⟩
      · simp only [paired] at h
        cases h
        exact sentTo_nil _
      · simp only [paired, Except.bind_eq_ok] at h
        obtain ⟨s, sends, h⟩ := h
        cases h
        exact sentTo_singleton k ⟨it, by simp, by simpa using hit, paired⟩ sends

theorem transAppCmd_sent {bev : Bev} {value : Json} {l : Registry} {sent : List Send}
    (h : transAppCmd k bev value l = .ok sent) :
    SentTo (fun b => b = bev ∨ ∃ it ∈ l, it.aBev = some bev ∧ it.dBev = some b) sent := by
  unfold transAppCmd at h
  split at h
  next dev chosen =>
    obtain ⟨⟨pre, it, post⟩, found, spoken⟩ := Option.bind_eq_some_iff.mp chosen
    obtain ⟨rfl, hit, -⟩ := firstMatch_eq_some.mp found
    simp only [Bool.and_eq_true, beq_iff_eq] at hit
    simp only [Except.bind_eq_ok] at h
    obtain ⟨s, sends, h⟩ := h
    cases h
    exact sentTo_singleton k (.inr ⟨it, by simp, hit.1, spoken⟩) sends
  next =>
    simp only [Except.bind_eq_ok] at h
    obtain ⟨s, sends, h⟩ := h
    cases h
    exact sentTo_singleton k (.inl rfl) sends

theorem transDevReply_sent {bev : Bev} {value : Json} {l : Registry} {sent : List Send}
    (h : transDevReply k bev value l = .ok sent) :
    SentTo (fun b => b = bev ∨ ∃ it ∈ l, it.dBev = some bev ∧ it.aBev = some b) sent := by
  unfold transDevReply at h
  split at h
  next app chosen =>
    obtain ⟨⟨pre, it, post⟩, found, paired⟩ := Option.bind_eq_some_iff.mp chosen
    obtain ⟨rfl, hit, -⟩ := firstMatch_eq_some.mp found
    simp only [Bool.and_eq_true, beq_iff_eq] at hit
    simp only [Except.bind_eq_ok] at h
    obtain ⟨s, sends, h⟩ := h
    cases h
    exact sentTo_singleton k (.inr ⟨it, by simp, hit.1, paired⟩) sends
  next =>
    simp only [Except.bind_eq_ok] at h
    obtain ⟨s, sends, h⟩ := h
    cases h
    exact sentTo_singleton k (.inl rfl) sends

theorem captureCurMusicList_sent {bev : Bev} {value : Json} {l : Registry} {sent : List Send}
    (h : captureCurMusicList k bev value l = .ok sent) :
    SentTo (fun b => ∃ it ∈ l, it.aBev = some bev ∧ it.dBev = some b) sent := by
  induction l generalizing sent with
  | nil =>
      cases h
      exact sentTo_nil _
  | cons it rest ih =>
      have lift : ∀ {more : List Send},
          SentTo (fun b => ∃ it ∈ rest, it.aBev = some bev ∧ it.dBev = some b) more →
          SentTo (fun b => ∃ x ∈ it :: rest, x.aBev = some bev ∧ x.dBev = some b) more :=
        fun others s member => by
          obtain ⟨x, inRest, links⟩ := others s member
          exact ⟨x, List.mem_cons_of_mem _ inRest, links⟩
      unfold captureCurMusicList at h
      by_cases paired : it.aBev = some bev
      · rw [if_pos paired] at h
        rcases Option.eq_none_or_eq_some it.dBev with dev | ⟨dev, spoken⟩
        · simp only [dev] at h
          cases h
        · simp only [spoken, Except.bind_eq_ok] at h
          obtain ⟨s, sends, more, rest_, h⟩ := h
          cases h
          intro s' member
          rcases List.mem_cons.mp member with rfl | later
          · rw [((sendData_ok k).mp sends).2]
            exact ⟨it, List.mem_cons_self, paired, spoken⟩
          · exact lift (ih rest_) s' later
      · rw [if_neg paired] at h
        exact lift (ih h)

end MusicPlayer.Server
