import MusicPlayer.Server.Frame
import MusicPlayer.Server.Database
import MusicPlayer.Server.Pairing

/-! The server's callbacks over its whole state, and the pairing table they move. -/
namespace MusicPlayer.Server
open CBytes FirstMatch

structure State (δ : Type) where
  onlineList : Registry
  db : δ

variable {δ : Type} (m : Mysql δ) (k : Codec)

def appCommands : List String :=
  ["app_start", "app_stop", "app_suspend", "app_continue", "app_prev", "app_next",
    "app_upvolume", "app_downvolume", "app_circle", "app_sequence"]

def devReplies : List String := appCommands.map (· ++ "_reply")

/-- The body of `ReadCb` once the message is parsed. -/
def dispatch (now : Int) (opendir : Bytes → Option (List Dirent)) (bev : Bev) (value : Json)
    (s : State δ) : Except Fault (State δ × List Send) := do
  let value ← value.touch (lit "cmd")
  if value.isCmd "get_music_list" then
    let singer ← (value.member (lit "singer")).asString
    let sent ← sendData k bev (getMusicName opendir singer)
    return (s, [sent])
  else if value.isCmd "info" then
    let (onlineList, sent) ← devUpdateList k now bev value s.onlineList
    return ({ s with onlineList }, sent)
  else if value.isCmd "app_info" then
    let onlineList ← appUpdateList now bev value s.onlineList
    return ({ s with onlineList }, [])
  else if value.isCmd "upload_music" then
    -- the log line reads the first node before the list is searched
    if s.onlineList = [] then .error .endIterator
    else
      let sent ← uploadMusic k bev value s.onlineList
      return (s, sent)
  else if appCommands.any value.isCmd then
    let sent ← transAppCmd k bev value s.onlineList
    return (s, sent)
  else if devReplies.any value.isCmd then
    let sent ← transDevReply k bev value s.onlineList
    return (s, sent)
  else if value.isCmd "app_register" then
    let (db, sent) ← registerUsr m k bev value s.db
    return ({ s with db }, sent)
  else if value.isCmd "app_login" then
    let (db, sent) ← login m k bev value s.db
    return ({ s with db }, sent)
  else if value.isCmd "app_bind" then
    let (db, sent) ← bindUsr m k bev value s.db
    return ({ s with db }, sent)
  else if value.isCmd "app_offline" then
    return ({ s with onlineList := appOffline bev s.onlineList }, [])
  else if value.isCmd "app_capture_cur_musiclist" then
    let sent ← captureCurMusicList k bev value s.onlineList
    return (s, sent)
  else return (s, [])

/-- `BEV_EVENT_EOF` and `BEV_EVENT_ERROR` of libevent. -/
def eventEof : Nat := 0x10
def eventError : Nat := 0x20

def eventCb (bev : Bev) (what : Nat) (l : Registry) : Registry :=
  if what &&& eventEof ≠ 0 then appOrDevOffline bev l else l

/-- The sweep of `TraverseList` as it is meant: an expired node goes and the
loop carries on with the next one. -/
def sweep (now : Int) : Registry → Registry
  | [] => []
  | it :: rest =>
      if now - it.dTime > 6 then sweep now rest
      else
        match it.aTime with
        | some aTime =>
            if now - aTime > 6 then { it with aBev := none } :: sweep now rest else it :: sweep now rest
        | none => it :: sweep now rest

/-- A callback of the event loop with all it is given from outside. -/
inductive Event
  | read (now : Int) (opendir : Bytes → Option (List Dirent)) (bev : Bev) (value : Json)
  | event (bev : Bev) (what : Nat)
  | timeout (now : Int)

/-- One callback. A tick is `sweep`, which has every outcome of a `traverseList`
that comes back, and also goes on where that one uses an erased node. -/
def step : Event → State δ → Except Fault (State δ × List Send)
  | .read now opendir bev value, s => dispatch m k now opendir bev value s
  | .event bev what, s => .ok ({ s with onlineList := eventCb bev what s.onlineList }, [])
  | .timeout now, s => .ok ({ s with onlineList := sweep now s.onlineList }, [])

/-- The step relation of the server; what is sent is looked at apart. -/
def Steps (s : State δ) (e : Event) (t : State δ) : Prop := ∃ sent, step m k e s = .ok (t, sent)

theorem traverseList_ok {now : Int} {l l' : Registry} (h : traverseList now l = .ok l') :
    l' = sweep now l := by
  induction l generalizing l' with
  | nil =>
      cases h
      rfl
  | cons it rest ih =>
      unfold traverseList at h
      split at h
      · cases h
      next fresh =>
        simp only [Except.bind_eq_ok] at h
        obtain ⟨it', kept, rest', later, h⟩ := h
        cases h
        rw [sweep, if_neg fresh, ih later]
        unfold letAppGo at kept
        split at kept
        next unpaired =>
          cases kept
          have same : { it with aBev := none } = it := by rw [← unpaired]
          rw [same]
          split
          · split <;> rfl
          · rfl
        next => cases kept
        next aTime _ timed =>
          cases kept
          by_cases silent : now - aTime > 6
          · simp only [timed, if_pos silent]
          · simp only [timed, if_neg silent]

/-! ## What each callback can do -/

/-- The connections at the other end of a link of `bev`. -/
def Partner (bev : Bev) (l : Registry) (b : Bev) : Prop :=
  ∃ it ∈ l, (it.aBev = some bev ∧ it.dBev = some b) ∨ (it.dBev = some bev ∧ it.aBev = some b)

theorem SentTo.mono {dest other : Bev → Prop} {sent : List Send} (h : SentTo dest sent)
    (le : ∀ b, dest b → other b) : SentTo other sent := fun s member => le _ (h s member)

theorem any_isCmd {v : Json} {names : List String} {other : String}
    (fresh : ∀ name ∈ names, (lit name == lit other) = false) (h : names.any v.isCmd = true) :
    v.isCmd other = false := by
  obtain ⟨name, listed, cmd⟩ := List.any_eq_true.mp h
  exact (Json.isCmd_unique cmd).trans (fresh name listed)

theorem any_apart {v : Json} {names : List String} (name : String) (cmd : v.isCmd name = true)
    (apart : ∀ other ∈ names, (lit name == lit other) = false) : names.any v.isCmd = false := by
  rw [List.any_eq_false]
  intro other known
  rw [Json.isCmd_unique cmd, apart other known]
  decide

theorem not_any {v : Json} {name : String} (cmd : v.isCmd name = true) {names : List String}
    (apart : ∀ other ∈ names, (lit name == lit other) = false) : ¬ names.any v.isCmd = true := by
  rw [any_apart name cmd apart]
  decide

theorem not_single {v : Json} {names : List String} (cmd : names.any v.isCmd = true) {name : String}
    (fresh : ∀ other ∈ names, (lit other == lit name) = false) : ¬ v.isCmd name = true := by
  rw [any_isCmd fresh cmd]
  decide

theorem command_no_answer {v : Json} (cmd : appCommands.any v.isCmd = true) : ¬ devReplies.any v.isCmd = true := by
  obtain ⟨name, listed, isName⟩ := List.any_eq_true.mp cmd
  have apart : ∀ name ∈ appCommands, ∀ other ∈ devReplies, (lit name == lit other) = false := by decide
  exact not_any isName (apart name listed)

/-- Which handler has run on the message, and with what result. `v` is the
message as the look at its `cmd` leaves it. -/
inductive Ran (now : Int) (opendir : Bytes → Option (List Dirent)) (bev : Bev) (value v : Json) (s : State δ) :
    State δ → List Send → Prop
  | list {singer : Bytes} {x : Send} : value.isCmd "get_music_list" = true →
      (v.member (lit "singer")).asString = .ok singer → sendData k bev (getMusicName opendir singer) = .ok x →
      Ran now opendir bev value v s s [x]
  | info {onlineList : Registry} {sent : List Send} : value.isCmd "info" = true →
      devUpdateList k now bev v s.onlineList = .ok (onlineList, sent) →
      Ran now opendir bev value v s { s with onlineList } sent
  | appInfo {onlineList : Registry} : value.isCmd "app_info" = true →
      appUpdateList now bev v s.onlineList = .ok onlineList →
      Ran now opendir bev value v s { s with onlineList } []
  | upload {sent : List Send} : value.isCmd "upload_music" = true →
      uploadMusic k bev v s.onlineList = .ok sent → Ran now opendir bev value v s s sent
  | command {sent : List Send} : appCommands.any value.isCmd = true →
      transAppCmd k bev v s.onlineList = .ok sent → Ran now opendir bev value v s s sent
  | reply {sent : List Send} : devReplies.any value.isCmd = true →
      transDevReply k bev v s.onlineList = .ok sent → Ran now opendir bev value v s s sent
  | register {db : δ} {sent : List Send} : value.isCmd "app_register" = true →
      registerUsr m k bev v s.db = .ok (db, sent) → Ran now opendir bev value v s { s with db } sent
  | login {db : δ} {sent : List Send} : value.isCmd "app_login" = true →
      login m k bev v s.db = .ok (db, sent) → Ran now opendir bev value v s { s with db } sent
  | bind {db : δ} {sent : List Send} : value.isCmd "app_bind" = true →
      bindUsr m k bev v s.db = .ok (db, sent) → Ran now opendir bev value v s { s with db } sent
  | offline : value.isCmd "app_offline" = true →
      Ran now opendir bev value v s { s with onlineList := appOffline bev s.onlineList } []
  | capture {sent : List Send} : value.isCmd "app_capture_cur_musiclist" = true →
      captureCurMusicList k bev v s.onlineList = .ok sent → Ran now opendir bev value v s s sent
  | unknown : value.isCmd "info" = false → value.isCmd "app_info" = false →
      value.isCmd "app_offline" = false → appCommands.any value.isCmd = false →
      devReplies.any value.isCmd = false → Ran now opendir bev value v s s []

/-- What a message that is dealt with does, handler by handler. -/
theorem dispatch_ran {now : Int} {opendir : Bytes → Option (List Dirent)} {bev : Bev} {value : Json}
    {s s' : State δ} {sent : List Send} (h : dispatch m k now opendir bev value s = .ok (s', sent)) :
    ∃ v, value.touch (lit "cmd") = .ok v ∧ Ran m k now opendir bev value v s s' sent := by
  obtain ⟨v, touched, h⟩ := Except.bind_eq_ok.mp h
  rw [show v.isCmd = value.isCmd from funext (Json.isCmd_touch touched)] at h
  refine ⟨v, touched, ?_⟩
  by_cases list : value.isCmd "get_music_list" = true
  · rw [if_pos list] at h
    obtain ⟨singer, asked, h⟩ := Except.bind_eq_ok.mp h
    obtain ⟨x, sends, h⟩ := Except.bind_eq_ok.mp h
    cases h
    exact .list list asked sends
  rw [if_neg list] at h
  by_cases info : value.isCmd "info" = true
  · rw [if_pos info] at h
    obtain ⟨⟨onlineList, out⟩, updated, h⟩ := Except.bind_eq_ok.mp h
    cases h
    exact .info info updated
  rw [if_neg info] at h
  by_cases pair : value.isCmd "app_info" = true
  · rw [if_pos pair] at h
    obtain ⟨onlineList, updated, h⟩ := Except.bind_eq_ok.mp h
    cases h
    exact .appInfo pair updated
  rw [if_neg pair] at h
  by_cases upload : value.isCmd "upload_music" = true
  · rw [if_pos upload] at h
    split at h
    · cases h
    · obtain ⟨out, uploaded, h⟩ := Except.bind_eq_ok.mp h
      cases h
      exact .upload upload uploaded
  rw [if_neg upload] at h
  by_cases command : appCommands.any value.isCmd = true
  · rw [if_pos command] at h
    obtain ⟨out, forwarded, h⟩ := Except.bind_eq_ok.mp h
    cases h
    exact .command command forwarded
  rw [if_neg command] at h
  by_cases reply : devReplies.any value.isCmd = true
  · rw [if_pos reply] at h
    obtain ⟨out, forwarded, h⟩ := Except.bind_eq_ok.mp h
    cases h
    exact .reply reply forwarded
  rw [if_neg reply] at h
  by_cases register : value.isCmd "app_register" = true
  · rw [if_pos register] at h
    obtain ⟨⟨db, out⟩, registered, h⟩ := Except.bind_eq_ok.mp h
    cases h
    exact .register register registered
  rw [if_neg register] at h
  by_cases log : value.isCmd "app_login" = true
  · rw [if_pos log] at h
    obtain ⟨⟨db, out⟩, logged, h⟩ := Except.bind_eq_ok.mp h
    cases h
    exact .login log logged
  rw [if_neg log] at h
  by_cases bound : value.isCmd "app_bind" = true
  · rw [if_pos bound] at h
    obtain ⟨⟨db, out⟩, binds, h⟩ := Except.bind_eq_ok.mp h
    cases h
    exact .bind bound binds
  rw [if_neg bound] at h
  by_cases leave : value.isCmd "app_offline" = true
  · rw [if_pos leave] at h
    cases h
    exact .offline leave
  rw [if_neg leave] at h
  by_cases capture : value.isCmd "app_capture_cur_musiclist" = true
  · rw [if_pos capture] at h
    obtain ⟨out, captured, h⟩ := Except.bind_eq_ok.mp h
    cases h
    exact .capture capture captured
  rw [if_neg capture] at h
  cases h
  exact .unknown (Bool.eq_false_iff.mpr info) (Bool.eq_false_iff.mpr pair) (Bool.eq_false_iff.mpr leave)
    (Bool.eq_false_iff.mpr command) (Bool.eq_false_iff.mpr reply)

/-- A message is a report, a pairing, a leave, or one that moves no node and
answers or forwards along the links of its connection. -/
inductive Handled (now : Int) (bev : Bev) (value : Json) (l : Registry) : Registry → List Send → Prop
  | info {v : Json} {l' : Registry} {sent : List Send} : value.isCmd "info" = true →
      value.touch (lit "cmd") = .ok v → devUpdateList k now bev v l = .ok (l', sent) →
      Handled now bev value l l' sent
  | appInfo {v : Json} {l' : Registry} : value.isCmd "app_info" = true →
      value.touch (lit "cmd") = .ok v → appUpdateList now bev v l = .ok l' →
      Handled now bev value l l' []
  | offline : value.isCmd "app_offline" = true → Handled now bev value l (appOffline bev l) []
  | other {sent : List Send} : value.isCmd "info" = false → value.isCmd "app_info" = false →
      value.isCmd "app_offline" = false → SentTo (fun b => b = bev ∨ Partner bev l b) sent →
      Handled now bev value l l sent

theorem dispatch_ok {now : Int} {opendir : Bytes → Option (List Dirent)} {bev : Bev} {value : Json}
    {s s' : State δ} {sent : List Send} (h : dispatch m k now opendir bev value s = .ok (s', sent)) :
    Handled k now bev value s.onlineList s'.onlineList sent := by
  obtain ⟨v, touched, ran⟩ := dispatch_ran m k h
  have single : ∀ {name : String} {sent : List Send}, value.isCmd name = true →
      (lit name == lit "info") = false → (lit name == lit "app_info") = false →
      (lit name == lit "app_offline") = false → SentTo (fun b => b = bev ∨ Partner bev s.onlineList b) sent →
      Handled k now bev value s.onlineList s.onlineList sent :=
    fun cmd info pair leave along =>
      .other ((Json.isCmd_unique cmd).trans info) ((Json.isCmd_unique cmd).trans pair)
        ((Json.isCmd_unique cmd).trans leave) along
  cases ran with
  | list cmd _ sends =>
      have own : SentTo (· = bev) _ := sentTo_singleton k rfl sends
      exact single cmd (by decide) (by decide) (by decide) (own.mono fun _ => .inl)
  | info cmd updated => exact .info cmd touched updated
  | appInfo cmd updated => exact .appInfo cmd touched updated
  | upload cmd uploaded =>
      refine single cmd (by decide) (by decide) (by decide) ?_
      exact (uploadMusic_sent k uploaded).mono fun b ⟨it, member, links⟩ =>
        .inr ⟨it, member, .inr links⟩
  | command cmd forwarded =>
      refine .other (any_isCmd (by decide) cmd) (any_isCmd (by decide) cmd) (any_isCmd (by decide) cmd) ?_
      exact (transAppCmd_sent k forwarded).mono fun b =>
        Or.imp_right fun ⟨it, member, links⟩ => ⟨it, member, .inl links⟩
  | reply cmd forwarded =>
      refine .other (any_isCmd (by decide) cmd) (any_isCmd (by decide) cmd) (any_isCmd (by decide) cmd) ?_
      exact (transDevReply_sent k forwarded).mono fun b =>
        Or.imp_right fun ⟨it, member, links⟩ => ⟨it, member, .inr links⟩
  | register cmd registered =>
      exact single cmd (by decide) (by decide) (by decide) ((registerUsr_sent m k registered).mono fun _ => .inl)
  | login cmd logged =>
      exact single cmd (by decide) (by decide) (by decide) ((login_sent m k logged).mono fun _ => .inl)
  | bind cmd bound =>
      exact single cmd (by decide) (by decide) (by decide) ((bindUsr_sent m k bound).mono fun _ => .inl)
  | offline cmd => exact .offline cmd
  | capture cmd captured =>
      refine single cmd (by decide) (by decide) (by decide) ?_
      exact (captureCurMusicList_sent k captured).mono fun b ⟨it, member, links⟩ =>
        .inr ⟨it, member, .inl links⟩
  | unknown info pair leave => exact .other info pair leave (sentTo_nil _)

/-! ## The pairing table behind the registry -/

def link (it : PLayerInfo) : Pairing.Link Bytes Bev := ⟨it.deviceid, it.dBev, it.aBev⟩

def table (l : Registry) : Pairing.Table Bytes Bev := l.map link

theorem table_edited {pre post : Registry} {it : PLayerInfo} :
    table (pre ++ it :: post) = table pre ++ link it :: table post := by
  simp [table]

theorem SameLinks.link {it node : PLayerInfo} (same : SameLinks it node) : link node = link it := by
  obtain ⟨device, speaker, app⟩ := same
  simp only [Server.link, device, speaker, app]

/-- What a callback does to the table. -/
def Event.act : Event → Pairing.Act Bytes Bev
  | .read _ _ bev value =>
      if value.isCmd "info" then
        match (value.member (lit "deviceid")).asString with
        | .ok d => .report bev d
        | .error _ => .quiet
      else if value.isCmd "app_info" then
        match value.member (lit "deviceid") with
        | .string d => .pair bev d
        | _ => .quiet
      else if value.isCmd "app_offline" then .leave bev
      else .quiet
  | .event bev what => if what &&& eventEof ≠ 0 then .ended bev else .quiet
  | .timeout _ => .sweep

theorem table_devUpdateList {now : Int} {bev : Bev} {value : Json} {l l' : Registry}
    {sent : List Send} (h : devUpdateList k now bev value l = .ok (l', sent)) :
    ∃ d, (value.member (lit "deviceid")).asString = .ok d ∧
      table l' = Pairing.report bev d (table l) := by
  obtain ⟨d, device, known | fresh⟩ := devUpdateList_ok k h
  · obtain ⟨pre, it, post, node, found, rfl, same, -⟩ := known
    obtain ⟨rfl, hit, -⟩ := firstMatch_eq_some.mp found
    refine ⟨d, device, ?_⟩
    rw [Pairing.report_known ⟨link it, by simp [table], beq_iff_eq.mp hit⟩, table_edited,
      table_edited, same.link]
  · obtain ⟨missing, -, node, rfl, deviceid, speaker, app⟩ := fresh
    refine ⟨d, device, ?_⟩
    have absent : ∀ x ∈ table l, x.device ≠ d := by
      simpa [table, link] using firstMatch_eq_none.mp missing
    rw [Pairing.report_absent absent]
    simp [table, link, deviceid, speaker, app]

theorem table_appUpdateList {now : Int} {bev : Bev} {value : Json} {l l' : Registry}
    (h : appUpdateList now bev value l = .ok l') :
    (∃ d, value.member (lit "deviceid") = .string d ∧ table l' = Pairing.pair bev d (table l)) ∨
      (∀ d, value.member (lit "deviceid") ≠ .string d) ∧ l' = l := by
  rcases appUpdateList_ok h with ⟨d, pre, it, post, node, named, found, rfl, device, speaker, app, -⟩ |
      ⟨unknown, rfl⟩
  · obtain ⟨rfl, hit, before⟩ := firstMatch_eq_some.mp found
    refine .inl ⟨d, named, ?_⟩
    have earlier : ∀ x ∈ table pre, x.device ≠ d := by
      simpa [table, link] using before
    rw [table_edited, table_edited, Pairing.pair_at (beq_iff_eq.mp hit) earlier]
    simp only [link, device, speaker, app, beq_iff_eq.mp hit]
  · by_cases named : ∃ d, value.member (lit "deviceid") = .string d
    · obtain ⟨d, named⟩ := named
      have absent : ∀ x ∈ table l', x.device ≠ d := by
        simpa [table, link] using firstMatch_eq_none.mp (unknown d named)
      exact .inl ⟨d, named, (Pairing.pair_absent absent).symm⟩
    · exact .inr ⟨fun d same => named ⟨d, same⟩, rfl⟩

theorem table_appOffline (bev : Bev) (l : Registry) :
    table (appOffline bev l) = Pairing.leave bev (table l) := by
  have search : firstMatch (fun x => x.app == some bev) (table l) =
      (firstMatch (fun it => it.aBev == some bev) l).map
        fun found => (table found.1, link found.2.1, table found.2.2) := firstMatch_map link _ l
  rw [appOffline, Pairing.leave, search]
  cases firstMatch (fun it => it.aBev == some bev) l with
  | none => rfl
  | some parts => exact table_edited

theorem table_appOrDevOffline (bev : Bev) (l : Registry) :
    table (appOrDevOffline bev l) = Pairing.ended bev (table l) := by
  have search : firstMatch (fun x => x.app == some bev || x.speaker == some bev) (table l) =
      (firstMatch (fun it => it.aBev == some bev || it.dBev == some bev) l).map
        fun found => (table found.1, link found.2.1, table found.2.2) := firstMatch_map link _ l
  rw [appOrDevOffline, Pairing.ended, search]
  cases firstMatch (fun it => it.aBev == some bev || it.dBev == some bev) l with
  | none => rfl
  | some parts =>
      obtain ⟨pre, it, post⟩ := parts
      by_cases paired : it.aBev = some bev
      · simp only [Option.map_some, link, if_pos paired]
        exact table_edited
      · simp only [Option.map_some, link, if_neg paired]
        simp [table]

theorem sweep_cons (now : Int) (it : PLayerInfo) (rest : Registry) :
    sweep now (it :: rest) = sweep now rest ∨
      sweep now (it :: rest) = it :: sweep now rest ∨
      sweep now (it :: rest) = { it with aBev := none } :: sweep now rest := by
  rw [sweep]
  split
  · exact .inl rfl
  · split
    · split
      · exact .inr (.inr rfl)
      · exact .inr (.inl rfl)
    · exact .inr (.inl rfl)

theorem table_sweep (now : Int) (l : Registry) : Pairing.Swept (table l) (table (sweep now l)) := by
  induction l with
  | nil => exact .nil
  | cons it rest ih =>
      rcases sweep_cons now it rest with dropped | kept | unpaired
      · rw [dropped]
        exact .drop (link it) ih
      · rw [kept]
        exact .keep (link it) ih
      · rw [unpaired]
        exact .unpair (link it) ih

/-- The server moves its pairing table, and by nothing but the acts of `Pairing`. -/
theorem step_refines {e : Event} {s s' : State δ} {sent : List Send}
    (h : step m k e s = .ok (s', sent)) :
    Pairing.Step (table s.onlineList) e.act (table s'.onlineList) := by
  cases e with
  | read now opendir bev value =>
      have handled := dispatch_ok m k h
      generalize s.onlineList = l at handled
      generalize s'.onlineList = l' at handled
      cases handled with
      | info cmd touched updated =>
          obtain ⟨d, device, moved⟩ := table_devUpdateList k updated
          rw [Json.member_touch touched] at device
          rw [moved, Event.act, if_pos cmd, device]
          exact .report bev d _
      | appInfo cmd touched updated =>
          rw [Event.act, if_neg (by rw [Json.isCmd_unique cmd]; decide), if_pos cmd]
          rcases table_appUpdateList updated with ⟨d, named, moved⟩ | ⟨unnamed, rfl⟩
          · rw [Json.member_touch touched] at named
            rw [named, moved]
            exact .pair bev d _
          · rw [Json.member_touch touched] at unnamed
            split
            next d named => exact absurd named (unnamed d)
            next => exact .quiet _
      | offline cmd =>
          rw [Event.act, if_neg (by rw [Json.isCmd_unique cmd]; decide),
            if_neg (by rw [Json.isCmd_unique cmd]; decide), if_pos cmd, table_appOffline]
          exact .leave bev _
      | other info pair leave =>
          rw [Event.act, if_neg (by simp [info]), if_neg (by simp [pair]), if_neg (by simp [leave])]
          exact .quiet _
  | event bev what =>
      cases h
      simp only [eventCb, Event.act]
      split
      · rw [table_appOrDevOffline]
        exact .ended bev _
      · exact .quiet _
  | timeout now =>
      cases h
      exact .sweep (table_sweep now _)

/-! ## Which handler runs -/

section Handlers
variable {now : Int} {opendir : Bytes → Option (List Dirent)} {bev : Bev} {value : Json} {s : State δ}

theorem dispatch_list (cmd : value.isCmd "get_music_list" = true) :
    dispatch m k now opendir bev value s = (do
      let singer ← (value.member (lit "singer")).asString
      let sent ← sendData k bev (getMusicName opendir singer)
      return (s, [sent])) := by
  rw [dispatch, Json.touch_of_isCmd cmd]
  change (if value.isCmd "get_music_list" = true then _ else _) = _
  rw [if_pos cmd]

theorem dispatch_info (cmd : value.isCmd "info" = true) :
    dispatch m k now opendir bev value s = (do
      let (onlineList, sent) ← devUpdateList k now bev value s.onlineList
      return ({ s with onlineList }, sent)) := by
  rw [dispatch, Json.touch_of_isCmd cmd]
  change (if value.isCmd "get_music_list" = true then _ else _) = _
  rw [if_neg (Json.not_isCmd cmd (by decide)), if_pos cmd]

theorem dispatch_upload_music (cmd : value.isCmd "upload_music" = true) :
    dispatch m k now opendir bev value s =
      if s.onlineList = [] then .error .endIterator
      else do
        let sent ← uploadMusic k bev value s.onlineList
        return (s, sent) := by
  rw [dispatch, Json.touch_of_isCmd cmd]
  change (if value.isCmd "get_music_list" = true then _ else _) = _
  rw [if_neg (Json.not_isCmd cmd (by decide)), if_neg (Json.not_isCmd cmd (by decide)),
    if_neg (Json.not_isCmd cmd (by decide)), if_pos cmd]

theorem dispatch_app_command (cmd : appCommands.any value.isCmd = true) :
    dispatch m k now opendir bev value s = (do
      let sent ← transAppCmd k bev value s.onlineList
      return (s, sent)) := by
  obtain ⟨name, -, isName⟩ := List.any_eq_true.mp cmd
  rw [dispatch, Json.touch_of_isCmd isName]
  change (if value.isCmd "get_music_list" = true then _ else _) = _
  rw [if_neg (not_single cmd (by decide)), if_neg (not_single cmd (by decide)),
    if_neg (not_single cmd (by decide)), if_neg (not_single cmd (by decide)), if_pos cmd]

theorem dispatch_dev_reply (cmd : devReplies.any value.isCmd = true) :
    dispatch m k now opendir bev value s = (do
      let sent ← transDevReply k bev value s.onlineList
      return (s, sent)) := by
  obtain ⟨name, -, isName⟩ := List.any_eq_true.mp cmd
  have command : ¬ appCommands.any value.isCmd = true := fun listed => command_no_answer listed cmd
  rw [dispatch, Json.touch_of_isCmd isName]
  change (if value.isCmd "get_music_list" = true then _ else _) = _
  rw [if_neg (not_single cmd (by decide)), if_neg (not_single cmd (by decide)),
    if_neg (not_single cmd (by decide)), if_neg (not_single cmd (by decide)), if_neg command, if_pos cmd]

theorem dispatch_capture (cmd : value.isCmd "app_capture_cur_musiclist" = true) :
    dispatch m k now opendir bev value s = (do
      let sent ← captureCurMusicList k bev value s.onlineList
      return (s, sent)) := by
  have other {first : String} (fresh : (lit "app_capture_cur_musiclist" == lit first) = false) :
      ¬ value.isCmd first = true := Json.not_isCmd cmd fresh
  have command : ¬ appCommands.any value.isCmd = true := not_any cmd (by decide)
  have answer : ¬ devReplies.any value.isCmd = true := not_any cmd (by decide)
  rw [dispatch, Json.touch_of_isCmd cmd]
  change (if value.isCmd "get_music_list" = true then _ else _) = _
  rw [if_neg (other (by decide)), if_neg (other (by decide)), if_neg (other (by decide)),
    if_neg (other (by decide)), if_neg command, if_neg answer, if_neg (other (by decide)),
    if_neg (other (by decide)), if_neg (other (by decide)), if_neg (other (by decide)), if_pos cmd]

end Handlers

end MusicPlayer.Server
