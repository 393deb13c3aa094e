import MusicPlayer.Server.Routing
import MusicPlayer.Server.Protocol

/-! What a node has been through by the time it is in the registry, and which
callbacks reach for a node that is not there. -/
namespace MusicPlayer.Server
open CBytes FirstMatch Runs

variable {δ : Type} (m : Mysql δ) (k : Codec)

/-! ## Apps and the time they were seen -/

/-- The callback is an `app_info` on `c` that has set the app's fields of the node. -/
def Event.Assigns (c : Bev) (it : PLayerInfo) : Event → Prop
  | .read now _ bev value => bev = c ∧ value.isCmd "app_info" = true ∧
      value.member (lit "deviceid") = .string it.deviceid ∧
      (value.member (lit "appid")).asString = .ok it.appid ∧ it.aTime = some now
  | .event _ _ => False
  | .timeout _ => False

/-- If the node has an app, one of the callbacks has set all that is known of it. -/
def Assigned (es : List Event) (it : PLayerInfo) : Prop :=
  ∀ c, it.aBev = some c → ∃ e ∈ es, e.Assigns c it

theorem Assigned.unpaired {es : List Event} {it : PLayerInfo} (unpaired : it.aBev = none) :
    Assigned es it := by
  intro c paired
  rw [unpaired] at paired
  cases paired

theorem Assigned.more {es : List Event} {it : PLayerInfo} (h : Assigned es it) (e : Event) :
    Assigned (es ++ [e]) it := by
  intro c paired
  obtain ⟨e', member, assigns⟩ := h c paired
  exact ⟨e', List.mem_append_left _ member, assigns⟩

/-- A report changes nothing the app has set. -/
theorem Assigned.reported {es : List Event} {it : PLayerInfo} (h : Assigned es it) (curMusic : Bytes)
    (mode volume now : Int) : Assigned es { it with curMusic, mode, volume, dTime := now } := by
  intro c paired
  obtain ⟨e, member, assigns⟩ := h c paired
  refine ⟨e, member, ?_⟩
  cases e with
  | read => exact assigns
  | event => exact assigns
  | timeout => exact assigns

theorem mem_appOffline {c : Bev} {l : Registry} {it : PLayerInfo} (member : it ∈ appOffline c l) :
    it ∈ l ∨ it.aBev = none := by
  unfold appOffline at member
  split at member
  next pre old post found =>
    obtain ⟨rfl, -, -⟩ := firstMatch_eq_some.mp found
    simp only [List.mem_append, List.mem_cons] at member ⊢
    rcases member with before | rfl | after
    · exact .inl (.inl before)
    · exact .inr rfl
    · exact .inl (.inr (.inr after))
  next => exact .inl member

theorem mem_appOrDevOffline {c : Bev} {l : Registry} {it : PLayerInfo}
    (member : it ∈ appOrDevOffline c l) : it ∈ l ∨ it.aBev = none := by
  unfold appOrDevOffline at member
  split at member
  next pre old post found =>
    obtain ⟨rfl, -, -⟩ := firstMatch_eq_some.mp found
    split at member
    · simp only [List.mem_append, List.mem_cons] at member ⊢
      rcases member with before | rfl | after
      · exact .inl (.inl before)
      · exact .inr rfl
      · exact .inl (.inr (.inr after))
    · simp only [List.mem_append, List.mem_cons] at member ⊢
      tauto
  next => exact .inl member

theorem dispatch_assigned {past : List Event} {now : Int} {opendir : Bytes → Option (List Dirent)}
    {bev : Bev} {value : Json} {s t : State δ} {sent : List Send}
    (base : ∀ it ∈ s.onlineList, Assigned past it)
    (h : dispatch m k now opendir bev value s = .ok (t, sent)) :
    ∀ it ∈ t.onlineList, Assigned (past ++ [.read now opendir bev value]) it := by
  have handled := dispatch_ok m k h
  generalize s.onlineList = l at base handled
  generalize t.onlineList = l' at handled
  intro it member
  cases handled with
  | info cmd touched updated =>
      obtain ⟨d, curMusic, mode, volume, -, -, -, -, known | fresh⟩ := devUpdateList_inv k updated
      · obtain ⟨pre, old, post, found, rfl, -⟩ := known
        obtain ⟨rfl, -, -⟩ := firstMatch_eq_some.mp found
        have kept := fun x inOld => (base x inOld).more (.read now opendir bev value)
        simp only [List.mem_append, List.mem_cons] at member kept
        rcases member with before | rfl | after
        · exact kept it (.inl before)
        · exact (kept old (.inr (.inl rfl))).reported curMusic mode volume now
        · exact kept it (.inr (.inr after))
      · obtain ⟨-, -, rfl⟩ := fresh
        rcases List.mem_append.mp member with old | new
        · exact (base it old).more _
        · exact .unpaired (by rw [List.mem_singleton.mp new])
  | appInfo cmd touched updated =>
      rcases appUpdateList_ok updated with ⟨d, pre, old, post, node, named, found, rfl, device, _, app,
          seen, account⟩ | ⟨-, rfl⟩
      · obtain ⟨rfl, -, -⟩ := firstMatch_eq_some.mp found
        simp only [List.mem_append, List.mem_cons] at member base
        rcases member with before | rfl | after
        · exact (base it (.inl before)).more _
        · intro c paired
          rw [Json.member_touch touched] at named account
          rw [← device] at named
          exact ⟨.read now opendir bev value, by simp, Option.some.inj (app.symm.trans paired), cmd, named,
            account, seen⟩
        · exact (base it (.inr (.inr after))).more _
      · exact (base it member).more _
  | offline cmd =>
      rcases mem_appOffline member with old | unpaired
      · exact (base it old).more _
      · exact .unpaired unpaired
  | other => exact (base it member).more _

theorem step_assigned {past : List Event} {e : Event} {s t : State δ}
    (base : ∀ it ∈ s.onlineList, Assigned past it) (one : Steps m k s e t) :
    ∀ it ∈ t.onlineList, Assigned (past ++ [e]) it := by
  obtain ⟨sent, one⟩ := one
  cases e with
  | read now opendir bev value => exact dispatch_assigned m k base one
  | event bev what =>
      cases one
      intro it member
      simp only [eventCb] at member
      split at member
      · rcases mem_appOrDevOffline member with old | unpaired
        · exact (base it old).more _
        · exact .unpaired unpaired
      · exact (base it member).more _
  | timeout now =>
      cases one
      intro it member
      rcases mem_sweep member with old | ⟨old, -, -, -, -, rfl⟩
      · exact (base it old).more _
      · exact .unpaired rfl

/-- The sweep compares no time that was never set. -/
theorem traverseList_timed {now : Int} {l : Registry}
    (timed : ∀ it ∈ l, it.aBev ≠ none → it.aTime ≠ none) : traverseList now l ≠ .error .uninitialised := by
  induction l with
  | nil => simp [traverseList]
  | cons it rest ih =>
      intro failed
      unfold traverseList at failed
      split at failed
      · cases failed
      · rcases Except.bind_eq_error.mp failed with first | ⟨it', -, failed⟩
        · unfold letAppGo at first
          split at first
          · cases first
          next paired untimed => exact timed it List.mem_cons_self (by simp [paired]) untimed
          · cases first
        · rcases Except.bind_eq_error.mp failed with later | ⟨rest', -, failed⟩
          · exact ih (fun x member => timed x (List.mem_cons_of_mem _ member)) later
          · cases failed

/-- After any messages, ends of connections and ticks: one node for a device,
every node has its speaker's connection, a node with an app has had all of the
app's fields set by one `app_info`, and a sweep compares none that were not. -/
theorem registry_wellFormed {db : δ} {es : List Event} {s : State δ}
    (run : Trace (Steps m k) (empty db) es s) :
    (s.onlineList.map PLayerInfo.deviceid).Nodup ∧
      (∀ it ∈ s.onlineList, it.dBev ≠ none ∧ ∀ c, it.aBev = some c → ∃ e ∈ es, e.Assigns c it) ∧
      ∀ now, traverseList now s.onlineList ≠ .error .uninitialised := by
  have unique := reachable_wellFormed m k ⟨es, run⟩
  have assigned : ∀ it ∈ s.onlineList, Assigned es it := by
    have start : ∀ it ∈ (empty db).onlineList, Assigned [] it := by
      intro it member
      cases member
    exact run.history (I := fun es s => ∀ it ∈ s.onlineList, Assigned es it)
      (fun _ _ _ _ => step_assigned m k) start
  refine ⟨?_, fun it member => ⟨?_, assigned it member⟩, fun now => traverseList_timed ?_⟩
  · have distinct := unique.distinct
    rwa [table, List.map_map] at distinct
  · exact unique.spoken (link it) (List.mem_map_of_mem member)
  · intro it member paired
    obtain ⟨c, paired⟩ := Option.ne_none_iff_exists'.mp paired
    obtain ⟨e, -, assigns⟩ := assigned it member c paired
    cases e with
    | read now opendir bev value => simp [assigns.2.2.2.2]
    | event => exact assigns.elim
    | timeout => exact assigns.elim

theorem chosen_wellFormed :
    (∃ e ∈ [Event.read 0 (fun _ => none) 1 (status "0001"), .read 0 (fun _ => none) 7 (choice "0001")],
      e.Assigns 7 (chosenBy 7 (speaker "0001" 1 none))) ∧
    ∀ now, traverseList now [chosenBy 7 (speaker "0001" 1 none)] ≠ .error .uninitialised := by
  have run : Trace (Steps noAccounts (writing statusText)) (empty ())
      [.read 0 (fun _ => none) 1 (status "0001"), .read 0 (fun _ => none) 7 (choice "0001")]
      ⟨[chosenBy 7 (speaker "0001" 1 none)], ()⟩ := .cons ⟨[], rfl⟩ (.cons ⟨[], rfl⟩ (.nil _))
  have kept := registry_wellFormed noAccounts (writing statusText) run
  exact ⟨(kept.2.1 _ List.mem_cons_self).2 7 rfl, kept.2.2⟩

/-! ## Nodes that are not there -/

/-- What a handler may fail with without its iterators having left the list. -/
def InList : Fault → Prop
  | .jsonException => True
  | .outOfBounds => True
  | .nullPointer => True
  | _ => False

theorem touch_inList (v : Json) (key : Bytes) : (v.touch key).Only InList := by
  cases v with
  | null => exact .ok _
  | object members => exact .ok _
  | bool b => exact .error trivial
  | int n => exact .error trivial
  | real value printed => exact .error trivial
  | string s => exact .error trivial
  | array elems => exact .error trivial

theorem asString_inList (v : Json) : v.asString.Only InList := by
  cases v with
  | null => exact .ok _
  | bool b => exact .ok _
  | int n => exact .ok _
  | real value printed => exact .ok _
  | string s => exact .ok _
  | array elems => exact .error trivial
  | object members => exact .error trivial

theorem asInt_inList (v : Json) : v.asInt.Only InList := by
  cases v with
  | null => exact .ok _
  | bool b => exact .ok _
  | int n =>
      simp only [Json.asInt, Json.intRange]
      split
      · exact .ok _
      · exact .error trivial
  | real value printed =>
      simp only [Json.asInt]
      split
      · exact .ok _
      · exact .error trivial
  | string s => exact .error trivial
  | array elems => exact .error trivial
  | object members => exact .error trivial

theorem sendData_inList (bev : Bev) (v : Json) : (sendData k bev v).Only InList := by
  apply Except.Only.bind
  · unfold packet
    split
    · exact .ok _
    · exact .error trivial
  · exact fun bytes => .ok _

theorem devUpdateList_inList (now : Int) (bev : Bev) (v : Json) (l : Registry) :
    (devUpdateList k now bev v l).Only InList := by
  apply (asString_inList _).bind; intro deviceid
  apply (touch_inList _ _).bind; intro v
  apply (asString_inList _).bind; intro curMusic
  apply (touch_inList _ _).bind; intro v
  apply (asInt_inList _).bind; intro mode
  apply (touch_inList _ _).bind; intro v
  apply (asInt_inList _).bind; intro volume
  apply (touch_inList _ _).bind; intro v
  split
  · dsimp only
    split
    · exact (sendData_inList k _ _).bind fun sent => .ok _
    · exact .ok _
  · exact .ok _

theorem appUpdateList_inList (now : Int) (bev : Bev) (v : Json) (l : Registry) :
    (appUpdateList now bev v l).Only InList := by
  unfold appUpdateList
  split
  · exact (asString_inList _).bind fun appid => .ok _
  · exact .ok _

theorem uploadMusic_inList (bev : Bev) (v : Json) (l : Registry) : (uploadMusic k bev v l).Only InList := by
  unfold uploadMusic
  split
  · split
    · exact (sendData_inList k _ _).bind fun sent => .ok _
    · exact .ok _
  · exact .ok _

theorem transAppCmd_inList (bev : Bev) (v : Json) (l : Registry) : (transAppCmd k bev v l).Only InList := by
  unfold transAppCmd
  split
  · exact (sendData_inList k _ _).bind fun sent => .ok _
  · exact (sendData_inList k _ _).bind fun sent => .ok _

theorem transDevReply_inList (bev : Bev) (v : Json) (l : Registry) :
    (transDevReply k bev v l).Only InList := by
  unfold transDevReply
  split
  · exact (sendData_inList k _ _).bind fun sent => .ok _
  · exact (sendData_inList k _ _).bind fun sent => .ok _

theorem captureCurMusicList_inList (bev : Bev) (v : Json) (l : Registry) :
    (captureCurMusicList k bev v l).Only InList := by
  induction l with
  | nil => exact .ok _
  | cons it rest ih =>
      unfold captureCurMusicList
      split
      · split
        · exact .error trivial
        · exact (sendData_inList k _ _).bind fun sent => ih.bind fun more => .ok _
      · exact ih

theorem sqlText_inList (text : Bytes) : (sqlText text).Only InList := by
  unfold sqlText
  split
  · exact .ok _
  · exact .error trivial

theorem firstColumn_inList (row : Row) : (firstColumn row).Only InList := by
  cases row with
  | nil => exact .error trivial
  | cons column rest => exact .ok _

theorem checkUsrExist_inList (v : Json) (db : δ) : (checkUsrExist m v db).Only InList := by
  apply (asString_inList _).bind; intro appid
  apply (sqlText_inList _).bind; intro sql
  dsimp only
  apply Except.Only.bind
  · cases (m.storeResult (m.query sql db).2).1 with
    | none => exact .error trivial
    | some rows => exact .ok _
  · exact fun row => .ok _

theorem checkPassword_inList (v : Json) (db : δ) : (checkPassword m v db).Only InList := by
  apply (asString_inList _).bind; intro appid
  apply (asString_inList _).bind; intro password
  apply (sqlText_inList _).bind; intro sql
  dsimp only
  split
  · exact .ok _
  · split
    · exact .ok _
    · exact .ok _
    · apply (firstColumn_inList _).bind
      intro column
      split
      · exact .error trivial
      · exact .ok _

theorem checkBind_inList (v : Json) (db : δ) : (checkBind m v db).Only InList := by
  apply (asString_inList _).bind; intro appid
  apply (sqlText_inList _).bind; intro sql
  dsimp only
  split
  · exact .ok _
  · split
    · exact .ok _
    · exact .ok _
    · exact (firstColumn_inList _).bind fun column => .ok _

theorem registerUsr_inList (bev : Bev) (v : Json) (db : δ) : (registerUsr m k bev v db).Only InList := by
  unfold registerUsr
  split
  · exact (sendData_inList k _ _).bind fun sent => .ok _
  · apply (checkUsrExist_inList m v _).bind
    rintro ⟨known, db⟩
    dsimp only
    split
    · exact (sendData_inList k _ _).bind fun sent => .ok _
    · apply Except.Only.bind
      · apply (asString_inList _).bind; intro appid
        apply (asString_inList _).bind; intro password
        exact (sqlText_inList _).bind fun sql => .ok _
      · exact fun added => (sendData_inList k _ _).bind fun sent => .ok _

theorem login_inList (bev : Bev) (v : Json) (db : δ) : (login m k bev v db).Only InList := by
  apply Except.Only.bind
  · apply (checkUsrExist_inList m v _).bind
    rintro ⟨known, db⟩
    dsimp only
    split
    · exact .ok _
    · apply (checkPassword_inList m v db).bind
      rintro ⟨right, db⟩
      dsimp only
      split
      · exact .ok _
      · apply (checkBind_inList m v db).bind
        intro found
        split
        · exact .ok _
        · exact .ok _
  · exact fun answer => (sendData_inList k _ _).bind fun sent => .ok _

theorem bindUsr_inList (bev : Bev) (v : Json) (db : δ) : (bindUsr m k bev v db).Only InList := by
  apply Except.Only.bind
  · apply (asString_inList _).bind; intro appid
    apply (asString_inList _).bind; intro deviceid
    exact (sqlText_inList _).bind fun sql => .ok _
  · exact fun bound => (sendData_inList k _ _).bind fun sent => .ok _

theorem dispatch_inList {now : Int} {opendir : Bytes → Option (List Dirent)} {bev : Bev} {value : Json}
    {s : State δ} (some_ : value.isCmd "upload_music" = true → s.onlineList ≠ []) :
    (dispatch m k now opendir bev value s).Only InList := by
  apply (touch_inList value (lit "cmd")).bind_ok
  intro v touched
  rw [← Json.isCmd_touch touched] at some_
  apply Except.Only.branch
  · exact fun _ => (asString_inList _).bind fun singer => (sendData_inList k _ _).bind fun sent => .ok _
  intro _
  apply Except.Only.branch
  · exact fun _ => (devUpdateList_inList k now bev v s.onlineList).bind fun updated => .ok _
  intro _
  apply Except.Only.branch
  · exact fun _ => (appUpdateList_inList now bev v s.onlineList).bind fun onlineList => .ok _
  intro _
  apply Except.Only.branch
  · intro uploads
    rw [if_neg (some_ uploads)]
    exact (uploadMusic_inList k bev v s.onlineList).bind fun sent => .ok _
  intro _
  apply Except.Only.branch
  · exact fun _ => (transAppCmd_inList k bev v s.onlineList).bind fun sent => .ok _
  intro _
  apply Except.Only.branch
  · exact fun _ => (transDevReply_inList k bev v s.onlineList).bind fun sent => .ok _
  intro _
  apply Except.Only.branch
  · exact fun _ => (registerUsr_inList m k bev v s.db).bind fun registered => .ok _
  intro _
  apply Except.Only.branch
  · exact fun _ => (login_inList m k bev v s.db).bind fun logged => .ok _
  intro _
  apply Except.Only.branch
  · exact fun _ => (bindUsr_inList m k bev v s.db).bind fun bound => .ok _
  intro _
  apply Except.Only.branch
  · exact fun _ => .ok _
  intro _
  apply Except.Only.branch
  · exact fun _ => (captureCurMusicList_inList k bev v s.onlineList).bind fun sent => .ok _
  · exact fun _ => .ok _

/-- The message is the upload of a playlist. -/
def Event.Uploads : Event → Prop
  | .read _ _ _ value => value.isCmd "upload_music" = true
  | .event _ _ => False
  | .timeout _ => False

theorem upload_empty {now : Int} {opendir : Bytes → Option (List Dirent)} {bev : Bev} {value : Json}
    {s : State δ} (cmd : value.isCmd "upload_music" = true) (none_ : s.onlineList = []) :
    dispatch m k now opendir bev value s = .error .endIterator := by
  rw [dispatch, Json.touch_of_isCmd cmd]
  change (if value.isCmd "get_music_list" = true then _ else _) = _
  rw [if_neg (Json.not_isCmd cmd (by decide)), if_neg (Json.not_isCmd cmd (by decide)),
    if_neg (Json.not_isCmd cmd (by decide)), if_pos cmd, if_pos none_]

/-- A callback leaves the list exactly when it is an upload and there is no node. -/
theorem step_inList_iff (e : Event) (s : State δ) :
    (step m k e s ≠ .error .endIterator ∧ step m k e s ≠ .error .erasedIterator) ↔
      (e.Uploads → s.onlineList ≠ []) := by
  constructor
  · rintro ⟨stays, -⟩ uploads none_
    cases e with
    | read now opendir bev value => exact stays (upload_empty m k uploads none_)
    | event bev what => exact uploads
    | timeout now => exact uploads
  · intro some_
    cases e with
    | read now opendir bev value =>
        have only : (dispatch m k now opendir bev value s).Only InList := dispatch_inList m k some_
        exact ⟨only _, only _⟩
    | event bev what => exact ⟨by simp [step], by simp [step]⟩
    | timeout now => exact ⟨by simp [step], by simp [step]⟩

/-- Callbacks one after the other, as long as they come back. -/
def serveAll : List Event → State δ → Except Fault (State δ)
  | [], s => .ok s
  | e :: es, s => do
      let (s, _) ← step m k e s
      serveAll es s

/-- Over any sequence of callbacks no handler leaves the list, exactly when each
upload that is handled finds a node in the registry. -/
theorem serveAll_inList_iff (es : List Event) (s : State δ) :
    (serveAll m k es s ≠ .error .endIterator ∧ serveAll m k es s ≠ .error .erasedIterator) ↔
      ∀ before e after t, es = before ++ e :: after → serveAll m k before s = .ok t → e.Uploads →
        t.onlineList ≠ [] := by
  induction es generalizing s with
  | nil => simp [serveAll]
  | cons e es ih =>
      have split_first : (∀ before e' after t, e :: es = before ++ e' :: after →
          serveAll m k before s = .ok t → e'.Uploads → t.onlineList ≠ []) ↔
          (e.Uploads → s.onlineList ≠ []) ∧ ∀ s₁ sent, step m k e s = .ok (s₁, sent) →
            ∀ before e' after t, es = before ++ e' :: after → serveAll m k before s₁ = .ok t →
              e'.Uploads → t.onlineList ≠ [] := by
        constructor
        · intro all
          refine ⟨all [] e es s rfl rfl, fun s₁ sent one before e' after t same served => ?_⟩
          refine all (e :: before) e' after t (by rw [same, List.cons_append]) ?_
          simp only [serveAll, one, bind, Except.bind, served]
        · rintro ⟨first, later⟩ before e' after t same served
          cases before with
          | nil =>
              cases same
              cases served
              exact first
          | cons e'' before =>
              cases same
              obtain ⟨⟨s₁, sent⟩, one, served⟩ := Except.bind_eq_ok.mp served
              exact later s₁ sent one before e' after t rfl served
      rw [split_first, ← step_inList_iff m k]
      simp only [serveAll]
      rcases came : step m k e s with fault | ⟨s₁, sent⟩
      · simp [bind, Except.bind]
      · simp only [bind, Except.bind, ih, ne_eq, reduceCtorEq, not_false_eq_true, true_and, and_self,
          Except.ok.injEq, Prod.mk.injEq, and_imp]
        constructor
        · rintro all s₂ sent₂ rfl -
          exact all
        · exact fun all => all s₁ sent rfl rfl

def upload : Json := .object [(lit "cmd", .string (lit "upload_music")), (lit "music", .array [])]

/-- A message of the protocol, or the end of a connection. -/
def Event.Ordinary : Event → Prop
  | .read _ _ _ value => WellTyped value
  | .event _ what => what &&& eventEof ≠ 0
  | .timeout _ => False

/-- The playlist of a speaker that has not reported yet. -/
theorem first_upload_leaves_list :
    ¬ ∀ es : List Event, (∀ e ∈ es, e.Ordinary) →
      serveAll noAccounts (writing statusText) es (empty ()) ≠ .error .endIterator ∧
        serveAll noAccounts (writing statusText) es (empty ()) ≠ .error .erasedIterator := by
  intro always
  refine (always [.read 0 (fun _ => none) 3 upload] ?_).1 rfl
  intro e member
  cases List.mem_singleton.mp member
  exact ⟨"upload_music", [], by simp [protocol], by decide, by simp⟩

end MusicPlayer.Server
