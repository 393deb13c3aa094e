import MusicPlayer.Server.Nodes
import MusicPlayer.Server.Expiry

/-! How long the server knows of a device and of its app. Where no connection
takes part in two nodes, what the registry has of a device depends on the
callbacks about that device, and on the clock, alone. -/
namespace MusicPlayer.Pairing
set_option linter.unusedSectionVars false

variable {δ β : Type} [DecidableEq δ] [DecidableEq β]

/-- No connection takes part in the links of two devices. -/
def OneEach (t : Table δ β) : Prop := ∀ x ∈ t, ∀ y ∈ t, ∀ c, x.Names c → y.Names c → x.device = y.device

/-- A new device comes on a connection of its own, and an app has no part in another device's link. -/
def Act.OneEach (t : Table δ β) : Act δ β → Prop
  | .report c d => (∀ x ∈ t, x.device ≠ d) → Unnamed c t
  | .pair c d => (∃ x ∈ t, x.device = d) → ∀ x ∈ t, x.Names c → x.device = d
  | _ => True

/-- Where a connection in a link of the new table comes from. -/
theorem Step.names {t t' : Table δ β} {a : Act δ β} (h : Step t a t') {x : Link δ β} (member : x ∈ t') {c : β}
    (named : x.Names c) :
    (∃ y ∈ t, x.device = y.device ∧ (y.Names c ∨ a = .pair c y.device)) ∨
      a = .report c x.device ∧ ∀ y ∈ t, y.device ≠ x.device := by
  rcases h.origin member with ⟨y, inOld, device, speaker, app⟩ | ⟨b, d, act, rfl, absent⟩
  · refine .inl ⟨y, inOld, device, ?_⟩
    rcases named with paired | spoken
    · rcases app with same | ⟨none_, -⟩ | ⟨none_, -⟩ | ⟨b, act, now⟩
      · exact .inl (.inl (same ▸ paired))
      · rw [none_] at paired
        cases paired
      · rw [none_] at paired
        cases paired
      · cases Option.some.inj (now.symm.trans paired)
        exact .inr act
    · exact .inl (.inr (speaker ▸ spoken))
  · rcases named with paired | spoken
    · cases paired
    · cases spoken
      exact .inr ⟨act, absent⟩

theorem Step.oneEach {t t' : Table δ β} {a : Act δ β} (h : Step t a t') (guard : a.OneEach t)
    (base : Pairing.OneEach t) : Pairing.OneEach t' := by
  intro x left_ y right_ c namedX namedY
  rcases h.names left_ namedX with ⟨x', oldX, deviceX, fromX⟩ | ⟨rfl, absent⟩
  · rcases h.names right_ namedY with ⟨y', oldY, deviceY, fromY⟩ | ⟨rfl, absent⟩
    · rw [deviceX, deviceY]
      rcases fromX with nameX | rfl
      · rcases fromY with nameY | rfl
        · exact base x' oldX y' oldY c nameX nameY
        · exact guard ⟨y', oldY, rfl⟩ x' oldX nameX
      · rcases fromY with nameY | act
        · exact (guard ⟨x', oldX, rfl⟩ y' oldY nameY).symm
        · exact (Act.pair.inj act).2
    · rcases fromX with nameX | act
      · exact absurd nameX (guard absent x' oldX)
      · cases act
  · rcases h.names right_ namedY with ⟨y', oldY, deviceY, fromY⟩ | ⟨act, -⟩
    · rcases fromY with nameY | act
      · exact absurd nameY (guard absent y' oldY)
      · cases act
    · exact (Act.report.inj act).2

end MusicPlayer.Pairing

namespace MusicPlayer.Server
open CBytes FirstMatch Runs

variable {δ : Type} (m : Mysql δ) (k : Codec)

/-! ## One device by itself -/

/-- The connection a device was first heard on, when it was last heard and what it
said, the app it is paired with and when that was last heard, and the last account named. -/
structure Presence where
  speaker : Option Bev
  heard : Int
  curMusic : Bytes
  mode : Int
  volume : Int
  app : Option (Bev × Int)
  appid : Bytes
  deriving DecidableEq

namespace Presence

def hear (bev : Bev) (now : Int) (curMusic : Bytes) (mode volume : Int) : Option Presence → Presence
  | none => ⟨some bev, now, curMusic, mode, volume, none, []⟩
  | some p => { p with heard := now, curMusic, mode, volume }

def choose (bev : Bev) (now : Int) (appid : Bytes) (p : Presence) : Presence :=
  { p with app := some (bev, now), appid }

def leave (bev : Bev) (p : Presence) : Presence := { p with app := p.app.filter fun a => a.1 ≠ bev }

/-- A connection that ends is looked for among the apps first. -/
def ended (bev : Bev) (p : Presence) : Option Presence :=
  if p.app.any (fun a => a.1 = bev) then some (p.leave bev)
  else if p.speaker = some bev then none
  else some p

def tick (now : Int) (p : Presence) : Option Presence :=
  if now - p.heard > 6 then none else some { p with app := p.app.filter fun a => now - a.2 ≤ 6 }

/-- What one callback makes of what is known of `d`. -/
def next (d : Bytes) : Event → Option Presence → Option Presence
  | .read now _ bev value, p =>
      if value.isCmd "info" then
        match (value.member (lit "deviceid")).asString, (value.member (lit "cur_music")).asString,
          (value.member (lit "mode")).asInt, (value.member (lit "volume")).asInt with
        | .ok d', .ok curMusic, .ok mode, .ok volume => if d' = d then some (hear bev now curMusic mode volume p) else p
        | _, _, _, _ => p
      else if value.isCmd "app_info" then
        match (value.member (lit "appid")).asString with
        | .ok appid => if (value.member (lit "deviceid")).isString d then p.map (choose bev now appid) else p
        | .error _ => p
      else if value.isCmd "app_offline" then p.map (leave bev)
      else p
  | .event bev what, p => if what &&& eventEof ≠ 0 then p.bind (ended bev) else p
  | .timeout now, p => p.bind (tick now)

/-- What is known of `d` after the callbacks. -/
def after (d : Bytes) (es : List Event) (p : Option Presence) : Option Presence :=
  es.foldl (fun p e => next d e p) p

end Presence

def PLayerInfo.presence (it : PLayerInfo) : Presence :=
  ⟨it.dBev, it.dTime, it.curMusic, it.mode, it.volume, it.aBev.map fun app => (app, it.aTime.getD 0), it.appid⟩

def nodeOf (d : Bytes) (l : Registry) : Option PLayerInfo := l.find? fun it => it.deviceid = d

def presence (d : Bytes) (l : Registry) : Option Presence := (nodeOf d l).map PLayerInfo.presence

namespace Presence

end Presence

/-! ## Handlers node by node -/

/-- An edit of nodes that does to what is known of `d` what `f` says. -/
structure Acts (d : Bytes) (l : Registry) (g : PLayerInfo → Option PLayerInfo)
    (f : Presence → Option Presence) : Prop where
  device : ∀ it node, g it = some node → node.deviceid = it.deviceid
  does : ∀ it ∈ l, it.deviceid = d → (g it).map PLayerInfo.presence = f it.presence

theorem presence_filterMap {d : Bytes} {l : Registry} {g : PLayerInfo → Option PLayerInfo}
    {f : Presence → Option Presence} (distinct : (l.map PLayerInfo.deviceid).Nodup) (acts : Acts d l g f) :
    presence d (l.filterMap g) = (presence d l).bind f := by
  unfold presence nodeOf
  rw [find_filterMap acts.device distinct]
  cases found : l.find? (fun it => it.deviceid = d) with
  | none => rfl
  | some it => exact acts.does it (List.mem_of_find?_eq_some found) (by simpa using List.find?_some found)

/-- What every registry satisfies whose connections take part in one node each. -/
structure Tidy (l : Registry) : Prop where
  distinct : (l.map PLayerInfo.deviceid).Nodup
  oneEach : Pairing.OneEach (table l)
  timed : ∀ it ∈ l, it.aBev ≠ none → it.aTime ≠ none

/-- The nodes behind one that is found. -/
theorem Tidy.behind {pre post : Registry} {it : PLayerInfo} (tidy : Tidy (pre ++ it :: post)) :
    ∀ x ∈ post, x.deviceid ≠ it.deviceid := by
  intro x member same
  have distinct := tidy.distinct
  rw [List.map_append, List.map_cons] at distinct
  have apart := (List.nodup_middle.mp distinct).notMem
  exact apart (List.mem_append_right _ (List.mem_map.mpr ⟨x, member, same⟩))

/-- A connection found in one node is in none behind it. -/
theorem Tidy.unnamed {pre post : Registry} {it : PLayerInfo} (tidy : Tidy (pre ++ it :: post)) {c : Bev}
    (named : (link it).Names c) : ∀ x ∈ post, ¬ (link x).Names c := by
  intro x member names
  have inside (y : PLayerInfo) (within : y ∈ pre ++ it :: post) : link y ∈ table (pre ++ it :: post) :=
    List.mem_map_of_mem within
  refine tidy.behind x member ?_
  exact tidy.oneEach (link x) (inside x (by simp [member])) (link it) (inside it (by simp)) c names named

def offlineAt (bev : Bev) (it : PLayerInfo) : Option PLayerInfo :=
  some (if it.aBev = some bev then { it with aBev := none } else it)

theorem appOffline_eq {bev : Bev} {l : Registry} (tidy : Tidy l) :
    appOffline bev l = l.filterMap (offlineAt bev) := by
  have other : ∀ x : PLayerInfo, (x.aBev == some bev) = false → offlineAt bev x = some x := by
    intro x apart
    rw [offlineAt, if_neg (by simpa using apart)]
  unfold appOffline
  cases found : firstMatch (fun it => it.aBev == some bev) l with
  | none => rw [filterMap_missing other found]
  | some parts =>
      obtain ⟨pre, it, post⟩ := parts
      obtain ⟨rfl, hit, -⟩ := firstMatch_eq_some.mp found
      have paired : it.aBev = some bev := by simpa using hit
      rw [filterMap_found other found]
      · rw [offlineAt, if_pos paired]
        simp
      · intro x member
        by_contra again
        have pairs : x.aBev = some bev := by simpa using again
        exact tidy.unnamed (.inl paired) x member (.inl pairs)

def endAt (bev : Bev) (it : PLayerInfo) : Option PLayerInfo :=
  if it.aBev = some bev then some { it with aBev := none }
  else if it.dBev = some bev then none
  else some it

theorem appOrDevOffline_eq {bev : Bev} {l : Registry} (tidy : Tidy l) :
    appOrDevOffline bev l = l.filterMap (endAt bev) := by
  have other : ∀ x : PLayerInfo, (x.aBev == some bev || x.dBev == some bev) = false → endAt bev x = some x := by
    intro x apart
    simp only [Bool.or_eq_false_iff, beq_eq_false_iff_ne] at apart
    rw [endAt, if_neg apart.1, if_neg apart.2]
  unfold appOrDevOffline
  cases found : firstMatch (fun it => it.aBev == some bev || it.dBev == some bev) l with
  | none => rw [filterMap_missing other found]
  | some parts =>
      obtain ⟨pre, it, post⟩ := parts
      obtain ⟨rfl, hit, -⟩ := firstMatch_eq_some.mp found
      have named : (link it).Names bev := by simpa [Pairing.Link.Names, link] using hit
      rw [filterMap_found other found]
      · dsimp only
        rw [endAt]
        split
        · simp
        next unpaired =>
          have spoken : it.dBev = some bev := named.resolve_left unpaired
          rw [if_pos spoken]
          simp
      · intro x member
        by_contra again
        refine tidy.unnamed named x member ?_
        simpa [Pairing.Link.Names, link, or_iff_not_imp_left] using again

def sweepAt (now : Int) (it : PLayerInfo) : Option PLayerInfo :=
  if fresh now it then some (withoutSilentApp now it) else none

theorem sweep_filterMap (now : Int) (l : Registry) : sweep now l = l.filterMap (sweepAt now) := by
  rw [sweep_eq, ← List.filterMap_eq_map, List.filterMap_filter]
  rfl

/-- What an edit of the node of one device makes of the list that holds it. -/
def editAt (d : Bytes) (edit : PLayerInfo → PLayerInfo) (it : PLayerInfo) : Option PLayerInfo :=
  some (if it.deviceid = d then edit it else it)

theorem edit_eq (edit : PLayerInfo → PLayerInfo) {d : Bytes} {l pre post : Registry} {it : PLayerInfo} (tidy : Tidy l)
    (found : firstMatch (fun it => it.deviceid == d) l = some (pre, it, post)) :
    pre ++ edit it :: post = l.filterMap (editAt d edit) := by
  have other : ∀ x : PLayerInfo, (x.deviceid == d) = false → editAt d edit x = some x := by
    intro x apart
    rw [editAt, if_neg (by simpa using apart)]
  obtain ⟨rfl, hit, -⟩ := firstMatch_eq_some.mp found
  have device : it.deviceid = d := by simpa using hit
  rw [filterMap_found other found]
  · rw [editAt, if_pos device]
    simp
  · intro x member
    rw [beq_eq_false_iff_ne, ← device]
    exact tidy.behind x member

/-! ## What each edit does to a presence -/

theorem leave_presence (bev : Bev) (it : PLayerInfo) :
    PLayerInfo.presence (if it.aBev = some bev then { it with aBev := none } else it) = it.presence.leave bev := by
  unfold PLayerInfo.presence Presence.leave
  rcases Option.eq_none_or_eq_some it.aBev with unpaired | ⟨app, paired⟩
  · rw [if_neg (by simp [unpaired]), unpaired]
    rfl
  · by_cases same : app = bev
    · subst same
      rw [if_pos paired]
      simp [paired, Option.filter]
    · rw [if_neg (by simp [paired, same])]
      simp [paired, same, Option.filter]

theorem offline_acts (d : Bytes) (bev : Bev) (l : Registry) :
    Acts d l (offlineAt bev) fun p => some (p.leave bev) where
  device it node edited := by
    cases edited
    split <;> rfl
  does it _ _ := by rw [offlineAt, Option.map_some, leave_presence]

theorem ended_acts (d : Bytes) (bev : Bev) (l : Registry) : Acts d l (endAt bev) (Presence.ended bev) where
  device it node edited := by
    unfold endAt at edited
    split at edited
    · cases edited
      rfl
    · split at edited
      · cases edited
      · cases edited
        rfl
  does it _ _ := by
    have leaves := leave_presence bev it
    have test : it.presence.app.any (fun a => a.1 = bev) = true ↔ it.aBev = some bev := by
      unfold PLayerInfo.presence
      cases it.aBev <;> simp
    unfold endAt Presence.ended
    by_cases paired : it.aBev = some bev
    · rw [if_pos paired] at leaves
      rw [if_pos paired, if_pos (test.mpr paired), Option.map_some, leaves]
    · rw [if_neg paired, if_neg (fun hit => paired (test.mp hit))]
      change Option.map _ _ = if it.dBev = some bev then none else some it.presence
      split <;> rfl

theorem sweep_acts (d : Bytes) (now : Int) {l : Registry} (timed : ∀ it ∈ l, it.aBev ≠ none → it.aTime ≠ none) :
    Acts d l (sweepAt now) (Presence.tick now) where
  device it node edited := by
    unfold sweepAt at edited
    split at edited
    · cases edited
      unfold withoutSilentApp
      split <;> rfl
    · cases edited
  does it member _ := by
    unfold sweepAt Presence.tick
    by_cases expired : now - it.dTime > 6
    · have gone : fresh now it = false := by simp [fresh]; omega
      rw [gone]
      exact (if_pos expired).symm
    · have stays : fresh now it = true := by simp [fresh]; omega
      have heard : ¬ now - it.presence.heard > 6 := expired
      rw [if_pos stays, if_neg heard, Option.map_some]
      unfold withoutSilentApp PLayerInfo.presence
      rcases Option.eq_none_or_eq_some it.aBev with unpaired | ⟨app, paired⟩
      · simp [unpaired]
      · obtain ⟨aTime, seen⟩ := Option.ne_none_iff_exists'.mp (timed it member (by simp [paired]))
        by_cases silent : now - aTime > 6
        · have late : ¬ now - aTime ≤ 6 := by omega
          simp [paired, seen, silent, late, Option.filter]
        · have within : now - aTime ≤ 6 := by omega
          simp [paired, seen, silent, within, Option.filter]

theorem info_acts {d d' : Bytes} (l : Registry) (bev : Bev) (curMusic : Bytes) (mode volume now : Int) :
    Acts d l (editAt d' fun it => { it with curMusic, mode, volume, dTime := now })
      fun p => some (if d' = d then Presence.hear bev now curMusic mode volume (some p) else p) where
  device it node edited := by
    cases edited
    split <;> rfl
  does it _ device := by
    rw [editAt, Option.map_some, device]
    by_cases same : d' = d
    · rw [if_pos same.symm, if_pos same]
      rfl
    · rw [if_neg (Ne.symm same), if_neg same]

theorem choose_acts {d d' : Bytes} (l : Registry) (bev : Bev) (now : Int) (appid : Bytes) :
    Acts d l (editAt d' fun it => { it with aBev := some bev, aTime := some now, appid })
      fun p => some (if d' = d then p.choose bev now appid else p) where
  device it node edited := by
    cases edited
    split <;> rfl
  does it _ device := by
    rw [editAt, Option.map_some, device]
    by_cases same : d' = d
    · rw [if_pos same.symm, if_pos same]
      rfl
    · rw [if_neg (Ne.symm same), if_neg same]

/-! ## Steps and runs -/

/-- What an accepted `app_info` leaves. -/
theorem appUpdateList_inv {now : Int} {bev : Bev} {value : Json} {l l' : Registry}
    (h : appUpdateList now bev value l = .ok l') :
    (∃ d appid pre it post, value.member (lit "deviceid") = .string d ∧
        (value.member (lit "appid")).asString = .ok appid ∧
        firstMatch (fun it => it.deviceid == d) l = some (pre, it, post) ∧
        l' = pre ++ { it with aBev := some bev, aTime := some now, appid } :: post) ∨
      (∀ d, value.member (lit "deviceid") = .string d → firstMatch (fun it => it.deviceid == d) l = none) ∧ l' = l := by
  have kept := appUpdateList_ok h
  unfold appUpdateList at h
  cases found : firstMatch (fun it => (value.member (lit "deviceid")).isString it.deviceid) l with
  | none =>
      rw [found] at h
      cases h
      rcases kept with ⟨d, pre, it, post, node, named, known, -⟩ | missing
      · obtain ⟨rfl, hit, -⟩ := firstMatch_eq_some.mp known
        have other := firstMatch_eq_none.mp found it (by simp)
        rw [named, Json.isString_string, beq_eq_false_iff_ne] at other
        exact absurd (beq_iff_eq.mp hit).symm other
      · exact .inr missing
  | some parts =>
      obtain ⟨pre, it, post⟩ := parts
      rw [found] at h
      simp only [Except.bind_eq_ok] at h
      obtain ⟨appid, account, h⟩ := h
      cases h
      obtain ⟨rfl, hit, before⟩ := firstMatch_eq_some.mp found
      have named := Json.isString_iff.mp hit
      refine .inl ⟨it.deviceid, appid, pre, it, post, named, account, firstMatch_eq_some.mpr ⟨rfl, by simp, ?_⟩, rfl⟩
      intro x member
      have other := before x member
      rw [named, Json.isString_string] at other
      rw [beq_eq_false_iff_ne] at other ⊢
      exact Ne.symm other

theorem presence_known {d : Bytes} {l pre post : Registry} {it : PLayerInfo}
    (found : firstMatch (fun it => it.deviceid == d) l = some (pre, it, post)) : ∃ p, presence d l = some p := by
  obtain ⟨rfl, hit, -⟩ := firstMatch_eq_some.mp found
  have some_ : (nodeOf d (pre ++ it :: post)).isSome := by
    rw [nodeOf, List.find?_isSome]
    exact ⟨it, by simp, by simpa using hit⟩
  obtain ⟨node, at_⟩ := Option.isSome_iff_exists.mp some_
  exact ⟨node.presence, by rw [presence, at_, Option.map_some]⟩

theorem presence_unknown {d : Bytes} {l : Registry}
    (missing : firstMatch (fun it => it.deviceid == d) l = none) : presence d l = none := by
  have none_ : nodeOf d l = none := by
    rw [nodeOf, List.find?_eq_none]
    intro it member
    simpa using firstMatch_eq_none.mp missing it member
  rw [presence, none_, Option.map_none]

theorem presence_info {d : Bytes} {now : Int} {bev : Bev} {value : Json} {l l' : Registry} {sent : List Send}
    (tidy : Tidy l) (h : devUpdateList k now bev value l = .ok (l', sent)) :
    ∃ d' curMusic mode volume, (value.member (lit "deviceid")).asString = .ok d' ∧
      (value.member (lit "cur_music")).asString = .ok curMusic ∧ (value.member (lit "mode")).asInt = .ok mode ∧
      (value.member (lit "volume")).asInt = .ok volume ∧
      presence d l' =
        if d' = d then some (Presence.hear bev now curMusic mode volume (presence d l)) else presence d l := by
  obtain ⟨d', curMusic, mode, volume, device, music, way, loud, known | fresh⟩ := devUpdateList_inv k h
  · obtain ⟨pre, it, post, found, rfl, -⟩ := known
    refine ⟨d', curMusic, mode, volume, device, music, way, loud, ?_⟩
    rw [edit_eq (fun it => { it with curMusic, mode, volume, dTime := now }) tidy found,
      presence_filterMap tidy.distinct (info_acts l bev curMusic mode volume now)]
    split
    next same =>
      subst same
      obtain ⟨p, at_⟩ := presence_known found
      rw [at_]
      rfl
    next => cases presence d l <;> rfl
  · obtain ⟨missing, -, rfl⟩ := fresh
    refine ⟨d', curMusic, mode, volume, device, music, way, loud, ?_⟩
    rw [presence, nodeOf, List.find?_append]
    split
    next same =>
      subst same
      have none_ : (l.find? fun it => it.deviceid = d') = none := by
        rw [List.find?_eq_none]
        intro it member
        simpa using firstMatch_eq_none.mp missing it member
      rw [none_, presence_unknown missing, List.find?_singleton]
      simp [Presence.hear, PLayerInfo.presence]
    next other =>
      rw [List.find?_singleton, if_neg (by simpa using other), Option.or_none]
      rfl

theorem presence_app_info {d : Bytes} {now : Int} {bev : Bev} {value : Json} {l l' : Registry}
    (tidy : Tidy l) (h : appUpdateList now bev value l = .ok l') :
    presence d l' = match (value.member (lit "appid")).asString with
      | .ok appid =>
          if (value.member (lit "deviceid")).isString d then (presence d l).map (Presence.choose bev now appid)
          else presence d l
      | .error _ => presence d l := by
  rcases appUpdateList_inv h with ⟨d', appid, pre, it, post, named, account, found, rfl⟩ | ⟨missing, rfl⟩
  · rw [edit_eq (fun it => { it with aBev := some bev, aTime := some now, appid }) tidy found,
      presence_filterMap tidy.distinct (choose_acts l bev now appid), named, Json.isString_string, account]
    dsimp only
    by_cases same : d' = d
    · rw [if_pos (by simpa using same)]
      cases presence d l with
      | none => rfl
      | some p => simp [same]
    · rw [if_neg (by simpa using same)]
      cases presence d l with
      | none => rfl
      | some p => simp [same]
  · split
    · split
      next names =>
        rw [presence_unknown (missing d (Json.isString_iff.mp names))]
        rfl
      next => rfl
    · rfl

theorem presence_step {d : Bytes} {e : Event} {s t : State δ} (tidy : Tidy s.onlineList) (one : Steps m k s e t) :
    presence d t.onlineList = Presence.next d e (presence d s.onlineList) := by
  obtain ⟨sent, one⟩ := one
  cases e with
  | read now opendir bev value =>
      have handled := dispatch_ok m k one
      generalize s.onlineList = l at handled tidy
      generalize t.onlineList = l' at handled
      rw [Presence.next]
      cases handled with
      | info cmd touched updated =>
          obtain ⟨d', curMusic, mode, volume, device, music, way, loud, same⟩ := presence_info k (d := d) tidy updated
          rw [Json.member_touch touched] at device music way loud
          rw [if_pos cmd, device, music, way, loud, same]
      | appInfo cmd touched updated =>
          rw [if_neg (Json.not_isCmd cmd (by decide)), if_pos cmd, presence_app_info tidy updated]
          simp only [Json.member_touch touched]
      | offline cmd =>
          rw [if_neg (Json.not_isCmd cmd (by decide)), if_neg (Json.not_isCmd cmd (by decide)), if_pos cmd,
            appOffline_eq tidy, presence_filterMap tidy.distinct (offline_acts d bev l)]
          cases presence d l <;> rfl
      | other info pair leave => rw [if_neg (by simp [info]), if_neg (by simp [pair]), if_neg (by simp [leave])]
  | event bev what =>
      cases one
      simp only [eventCb, Presence.next]
      split
      · rw [appOrDevOffline_eq tidy, presence_filterMap tidy.distinct (ended_acts d bev _)]
      · rfl
  | timeout now =>
      cases one
      simp only [Presence.next]
      rw [sweep_filterMap, presence_filterMap tidy.distinct (sweep_acts d now tidy.timed)]

/-- A speaker first heard comes on a connection of its own, and an app names one speaker only. -/
def OneEach (s : State δ) (e : Event) : Prop := e.act.OneEach (table s.onlineList)

theorem tidy_of_run {db : δ} {es : List Event} {s : State δ} (run : Trace (Steps m k) (empty db) es s)
    (oneEach : Pairing.OneEach (table s.onlineList)) : Tidy s.onlineList := by
  obtain ⟨distinct, nodes, -⟩ := registry_wellFormed m k run
  refine ⟨distinct, oneEach, fun it member paired => ?_⟩
  obtain ⟨c, paired⟩ := Option.ne_none_iff_exists'.mp paired
  obtain ⟨e, -, assigns⟩ := (nodes it member).2 c paired
  cases e with
  | read now opendir bev value => simp [assigns.2.2.2.2]
  | event => exact assigns.elim
  | timeout => exact assigns.elim

theorem tidy_run {db : δ} {es : List Event} {s : State δ}
    (run : Trace (guarded OneEach (Steps m k)) (empty db) es s) : Tidy s.onlineList := by
  refine tidy_of_run m k run.unguarded ?_
  refine run.invariant (I := fun s => Pairing.OneEach (table s.onlineList)) ?_
    fun x member => absurd member List.not_mem_nil
  rintro s e t oneEach ⟨guard, sent, one⟩
  exact (step_refines m k one).oneEach guard oneEach

def chosen : State Unit := ⟨[chosenBy 7 (Server.speaker "0001" 1 none)], ()⟩

/-- A report and a choice. -/
theorem chosen_run : Trace (guarded OneEach (Steps noAccounts (writing statusText))) (empty ())
    [.read 0 (fun _ => none) 1 (status "0001"), .read 0 (fun _ => none) 7 (choice "0001")] chosen := by
  have first : OneEach (empty ()) (.read 0 (fun _ => none) 1 (status "0001")) := fun _ x member =>
    absurd member List.not_mem_nil
  have second : OneEach ⟨[Server.speaker "0001" 1 none], ()⟩ (.read 0 (fun _ => none) 7 (choice "0001")) := by
    intro _ x member _
    rw [List.mem_singleton.mp member]
    rfl
  exact .cons ⟨first, [], rfl⟩ (.cons ⟨second, [], rfl⟩ (.nil _))

/-- Neither connection ends, the app does not leave, no other one chooses the
device, and a tick finds both heard in the last six seconds. -/
def InTouch (d : Bytes) (dev app : Bev) (s : State δ) : Event → Prop
  | .read _ _ bev value =>
      (value.isCmd "app_offline" = true → bev ≠ app) ∧
        (value.isCmd "app_info" = true → value.member (lit "deviceid") = .string d → bev = app)
  | .event bev what => what &&& eventEof ≠ 0 → bev ≠ dev ∧ bev ≠ app
  | .timeout now => ∀ p, presence d s.onlineList = some p → now - p.heard ≤ 6 ∧ ∀ a ∈ p.app, now - a.2 ≤ 6

/-- The device is registered on `dev` and paired with `app`. -/
def Coupled (dev app : Bev) (p : Option Presence) : Prop :=
  ∃ q seen, p = some q ∧ q.speaker = some dev ∧ q.app = some (app, seen)

theorem coupled_next {d : Bytes} {dev app : Bev} {s : State δ} {e : Event}
    (paired : Coupled dev app (presence d s.onlineList)) (inTouch : InTouch d dev app s e) :
    Coupled dev app (Presence.next d e (presence d s.onlineList)) := by
  obtain ⟨q, seen, at_, speaks, uses⟩ := paired
  cases e with
  | read now opendir bev value =>
      rw [Presence.next, at_]
      split
      · split
        · split
          · exact ⟨_, seen, rfl, speaks, uses⟩
          · exact ⟨q, seen, rfl, speaks, uses⟩
        · exact ⟨q, seen, rfl, speaks, uses⟩
      · split
        next choice =>
          split
          · split
            next names =>
              rw [inTouch.2 choice (Json.isString_iff.mp names)]
              exact ⟨_, now, rfl, speaks, rfl⟩
            next => exact ⟨q, seen, rfl, speaks, uses⟩
          · exact ⟨q, seen, rfl, speaks, uses⟩
        next =>
          split
          next leaves =>
            have other := inTouch.1 leaves
            refine ⟨_, seen, rfl, speaks, ?_⟩
            simp [Presence.leave, Option.filter, uses, Ne.symm other]
          next => exact ⟨q, seen, rfl, speaks, uses⟩
  | event bev what =>
      rw [Presence.next, at_]
      split
      next ends =>
        obtain ⟨speaking, other⟩ := inTouch ends
        refine ⟨q, seen, ?_, speaks, uses⟩
        simp [Presence.ended, uses, speaks, Ne.symm other, Ne.symm speaking]
      next => exact ⟨q, seen, rfl, speaks, uses⟩
  | timeout now =>
      obtain ⟨young, punctual⟩ := inTouch _ at_
      have recent := punctual (app, seen) uses
      rw [Presence.next, at_]
      have kept : ¬ now - q.heard > 6 := by omega
      refine ⟨{ q with app := q.app.filter fun a => now - a.2 ≤ 6 }, seen, if_neg kept, speaks, ?_⟩
      simp only [uses, Option.filter]
      simp [recent]

theorem transDevReply_single {pre post : Registry} {it : PLayerInfo} {c app : Bev} {v : Json}
    (others : ∀ other ∈ pre, other.dBev ≠ some c) (spoken : it.dBev = some c) (pairs : it.aBev = some app)
    (fits : (k.write v).length ≤ 1020) :
    transDevReply k c v (pre ++ it :: post) = .ok [⟨app, frame k.order (k.write v)⟩] := by
  have found : firstMatch (fun it => it.dBev == some c && it.aBev.isSome) (pre ++ it :: post) = some (pre, it, post) :=
    firstMatch_eq_some.mpr ⟨rfl, by simp [spoken, pairs], fun other member => by simp [others other member]⟩
  simp only [transDevReply, found, Option.bind_some, pairs, sendData_fits k fits]
  rfl

/-- What reaches the other end of a pair, either way. -/
structure Conveys (dev app : Bev) (l : Registry) : Prop where
  command : ∀ v, (k.write v).length ≤ 1020 → transAppCmd k app v l = .ok [⟨dev, frame k.order (k.write v)⟩]
  answer : ∀ v, (k.write v).length ≤ 1020 → transDevReply k dev v l = .ok [⟨app, frame k.order (k.write v)⟩]
  upload : ∀ v, (k.write v).length ≤ 1020 → uploadMusic k dev v l = .ok [⟨app, frame k.order (k.write v)⟩]

theorem conveys_of_coupled {d : Bytes} {dev app : Bev} {l : Registry} (tidy : Tidy l)
    (paired : Coupled dev app (presence d l)) : Conveys k dev app l := by
  obtain ⟨q, seen, at_, speaks, uses⟩ := paired
  obtain ⟨it, found, rfl⟩ := Option.map_eq_some_iff.mp at_
  have member := List.mem_of_find?_eq_some found
  have spoken : it.dBev = some dev := speaks
  have pairs : it.aBev = some app := by
    obtain ⟨c, same, fields⟩ := Option.map_eq_some_iff.mp uses
    rw [same, (Prod.mk.inj fields).1]
  obtain ⟨pre, post, rfl⟩ := List.append_of_mem member
  have before {c : Bev} (names : (link it).Names c) : ∀ x ∈ pre, ¬ (link x).Names c := by
    intro x inside again
    have distinct := tidy.distinct
    rw [List.map_append, List.map_cons] at distinct
    have apart := (List.nodup_middle.mp distinct).notMem
    have device := tidy.oneEach (link x) (List.mem_map_of_mem (by simp [inside])) (link it)
      (List.mem_map_of_mem member) c again names
    exact apart (List.mem_append_left _ (List.mem_map.mpr ⟨x, inside, device⟩))
  constructor
  · intro v fits
    exact transAppCmd_single k (fun x inside again => before (.inl pairs) x inside (.inl again)) pairs spoken fits
  · intro v fits
    exact transDevReply_single k (fun x inside again => before (.inr spoken) x inside (.inr again)) spoken pairs fits
  · intro v fits
    rw [uploadMusic_single k (fun x inside again => before (.inr spoken) x inside (.inr again)) spoken fits, pairs]
    rfl

/-- As long as both are heard in time a device keeps its connection and its app,
and each reaches the other. -/
theorem stays_paired {db : δ} {d : Bytes} {dev app : Bev} {past later : List Event} {s t : State δ}
    (run : Trace (guarded OneEach (Steps m k)) (empty db) past s) (paired : Coupled dev app (presence d s.onlineList))
    (rest : Trace (guarded (fun s e => OneEach s e ∧ InTouch d dev app s e) (Steps m k)) s later t) :
    Coupled dev app (presence d t.onlineList) ∧ Conveys k dev app t.onlineList := by
  have kept := rest.history_nil
    (I := fun (more : List Event) (t : State δ) => Trace (guarded OneEach (Steps m k)) (empty db) (past ++ more) t ∧
      Coupled dev app (presence d t.onlineList)) ?_ ⟨by rwa [List.append_nil], paired⟩
  · exact ⟨kept.2, conveys_of_coupled k (tidy_run m k kept.1) kept.2⟩
  · rintro more s e t ⟨came, paired⟩ ⟨⟨guard, inTouch⟩, one⟩
    refine ⟨?_, ?_⟩
    · rw [← List.append_assoc]
      exact came.append (.cons ⟨guard, one⟩ (.nil _))
    · rw [presence_step m k (tidy_run m k came) one]
      exact coupled_next paired inTouch

/-- Six seconds after both were last heard. -/
theorem chosen_stays : Coupled 1 7 (presence (lit "0001") (sweep 6 chosen.onlineList)) := by
  have here : presence (lit "0001") chosen.onlineList = some ⟨some 1, 0, [], 1, 40, some (7, 0), lit "1000"⟩ := by
    decide
  have inTouch : InTouch (lit "0001") 1 7 chosen (.timeout 6) := by
    intro p known
    rw [here] at known
    cases known
    decide
  have rest : Trace (guarded (fun s e => OneEach s e ∧ InTouch (lit "0001") 1 7 s e)
      (Steps noAccounts (writing statusText))) chosen [.timeout 6] ⟨sweep 6 chosen.onlineList, ()⟩ :=
    .cons ⟨⟨trivial, inTouch⟩, [], rfl⟩ (.nil _)
  exact (stays_paired noAccounts (writing statusText) chosen_run ⟨_, 0, here, rfl, rfl⟩ rest).1

end MusicPlayer.Server
