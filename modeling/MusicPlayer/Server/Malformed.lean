import MusicPlayer.Server.Unwind
import MusicPlayer.Server.Nodes
import MusicPlayer.Server.Accounts

/-! From which messages `ReadCb` returns, and which of those that are no command
of the protocol are taken all the same. -/
namespace MusicPlayer.Server
open CBytes FirstMatch Attempt

variable {δ : Type} (m : Mysql δ) (k : Codec)

/-! ## What converts -/

/-- `asString` has a text for the value. -/
def Scalar : Json → Prop
  | .array _ => False
  | .object _ => False
  | _ => True

/-- `asInt` has a number for the value. -/
def Numeric : Json → Prop
  | .null => True
  | .bool _ => True
  | .int n => -2147483648 ≤ n ∧ n ≤ 2147483647
  | .real value _ => -2147483648 ≤ value ∧ value ≤ 2147483647
  | _ => False

/-- `operator[]` can be used on the value. -/
def Opens : Json → Prop
  | .null => True
  | .object _ => True
  | _ => False

theorem opens_iff {v : Json} (key : Bytes) : Opens v ↔ ∃ v', v.touch key = .ok v' := by
  cases v <;> simp [Opens, Json.touch]

theorem opens_touch {v v' : Json} {key : Bytes} (h : v.touch key = .ok v') : Opens v' := by
  cases v with
  | null => cases h; exact trivial
  | object members => cases h; exact trivial
  | bool b => cases h
  | int n => cases h
  | real value printed => cases h
  | string s => cases h
  | array elems => cases h

theorem scalar_iff {v : Json} : Scalar v ↔ ∃ s, v.asString = .ok s := by
  cases v <;> simp [Json.asString, Scalar]

theorem numeric_iff {v : Json} : Numeric v ↔ ∃ n, v.asInt = .ok n := by
  cases v with
  | int n => by_cases range : -2147483648 ≤ n ∧ n ≤ 2147483647 <;> simp [Json.asInt, Json.intRange, Numeric, range]
  | real value printed =>
      by_cases range : -2147483648 ≤ value ∧ value ≤ 2147483647 <;> simp [Json.asInt, Numeric, range]
  | null => simp [Json.asInt, Numeric]
  | bool b => simp [Json.asInt, Numeric]
  | string s => simp [Json.asInt, Numeric]
  | array elems => simp [Json.asInt, Numeric]
  | object members => simp [Json.asInt, Numeric]

theorem text_scalar {v : Json} (h : FieldType.text.Holds v) : Scalar v := by
  obtain ⟨s, rfl⟩ := h
  exact trivial

theorem number_numeric {v : Json} (h : FieldType.number.Holds v) : Numeric v := by
  obtain ⟨n, rfl, range⟩ := h
  exact range

/-! ## Which handlers return -/

/-- The code comes back. -/
def Returns {α : Type} (x : Except Fault α) : Prop := ∃ a, x = .ok a

theorem returns_ok {α : Type} (a : α) : Returns (.ok a) := ⟨a, rfl⟩

theorem returns_bind {α β : Type} {x : Except Fault α} {f : α → Except Fault β} :
    Returns (x >>= f) ↔ ∃ a, x = .ok a ∧ Returns (f a) := by
  constructor
  · rintro ⟨b, came⟩
    obtain ⟨a, first, second⟩ := Except.bind_eq_ok.mp came
    exact ⟨a, first, b, second⟩
  · rintro ⟨a, rfl, b, second⟩
    exact ⟨b, second⟩

theorem returns_map {α β : Type} {x : Except Fault α} {f : α → β} : Returns (x.map f) ↔ Returns x := by
  cases x <;> simp [Returns, Except.map]

theorem returns_settled {σ α : Type} {x : Attempt Fault σ α} {s : σ} : Returns (x s).1 ↔ Returns (x.settled s) := by
  rw [settled, returns_map]

/-- The text of the value fits the buffer of `SendData`. -/
def Fits (v : Json) : Prop := (k.write v).length ≤ 1020

theorem send_returns {α : Type} {bev : Bev} {v : Json} {f : Send → α} :
    Returns (sendData k bev v >>= fun sent => .ok (f sent)) ↔ Fits k v := by
  rw [returns_bind]
  constructor
  · rintro ⟨sent, sends, -⟩
    exact ((sendData_ok k).mp sends).1
  · exact fun fits => ⟨_, (sendData_ok k).mpr ⟨fits, rfl⟩, returns_ok _⟩

/-- The fields of a report convert. -/
def Converts (v : Json) : Prop :=
  Scalar (v.member (lit "deviceid")) ∧ Scalar (v.member (lit "cur_music")) ∧
    Numeric (v.member (lit "mode")) ∧ Numeric (v.member (lit "volume"))

/-- The report as it is sent on: the looks at its fields have made missing ones null. -/
def lookedAt (v : Json) : Except Fault Json := do
  let v ← v.touch (lit "deviceid")
  let v ← v.touch (lit "cur_music")
  let v ← v.touch (lit "mode")
  v.touch (lit "volume")

/-- What the device's app is sent of the report fits. -/
def Forwards (v : Json) (l : Registry) : Prop :=
  ∀ d pre it post app v', (v.member (lit "deviceid")).asString = .ok d →
    firstMatch (fun it => it.deviceid == d) l = some (pre, it, post) → it.aBev = some app →
    lookedAt v = .ok v' → Fits k v'

theorem devUpdateList_returns {now : Int} {bev : Bev} {v : Json} {l : Registry} (opens : Opens v) :
    Returns (devUpdateList k now bev v l) ↔ Converts v ∧ Forwards k v l := by
  obtain ⟨v₁, t₁⟩ := (opens_iff (lit "deviceid")).mp opens
  obtain ⟨v₂, t₂⟩ := (opens_iff (lit "cur_music")).mp (opens_touch t₁)
  obtain ⟨v₃, t₃⟩ := (opens_iff (lit "mode")).mp (opens_touch t₂)
  obtain ⟨v₄, t₄⟩ := (opens_iff (lit "volume")).mp (opens_touch t₃)
  have looked : lookedAt v = .ok v₄ := by rw [lookedAt, t₁, Except.ok_bind, t₂, Except.ok_bind, t₃, Except.ok_bind, t₄]
  simp only [devUpdateList, t₁, t₂, t₃, t₄, Except.ok_bind, Json.member_touch t₁, Json.member_touch t₂,
    Json.member_touch t₃, returns_bind]
  constructor
  · rintro ⟨d, device, c, music, mode, way, volume, loud, returned⟩
    refine ⟨⟨scalar_iff.mpr ⟨d, device⟩, scalar_iff.mpr ⟨c, music⟩, numeric_iff.mpr ⟨mode, way⟩,
      numeric_iff.mpr ⟨volume, loud⟩⟩, fun d' pre it post app v' device' found paired looked' => ?_⟩
    cases device.symm.trans device'
    cases looked.symm.trans looked'
    simp only [found, paired] at returned
    exact (send_returns k).mp returned
  · rintro ⟨⟨device, music, way, loud⟩, forwards⟩
    obtain ⟨d, isDevice⟩ := scalar_iff.mp device
    obtain ⟨c, isMusic⟩ := scalar_iff.mp music
    obtain ⟨mode, isMode⟩ := numeric_iff.mp way
    obtain ⟨volume, isVolume⟩ := numeric_iff.mp loud
    refine ⟨d, isDevice, c, isMusic, mode, isMode, volume, isVolume, ?_⟩
    cases found : firstMatch (fun it => it.deviceid == d) l with
    | none => exact returns_ok _
    | some parts =>
        obtain ⟨pre, it, post⟩ := parts
        rcases Option.eq_none_or_eq_some it.aBev with unpaired | ⟨app, paired⟩
        · simp only [unpaired]
          exact returns_ok _
        · simp only [paired]
          exact (send_returns k).mpr (forwards d pre it post app v₄ isDevice found paired looked)

theorem appUpdateList_returns {now : Int} {bev : Bev} {v : Json} {l : Registry} :
    Returns (appUpdateList now bev v l) ↔
      ((∃ it ∈ l, v.member (lit "deviceid") = .string it.deviceid) → Scalar (v.member (lit "appid"))) := by
  unfold appUpdateList
  cases found : firstMatch (fun it => (v.member (lit "deviceid")).isString it.deviceid) l with
  | none =>
      have missing := firstMatch_eq_none.mp found
      refine ⟨?_, fun _ => returns_ok _⟩
      rintro - ⟨it, member, named⟩
      have miss := missing it member
      rw [Json.isString_iff.mpr named] at miss
      cases miss
  | some parts =>
      obtain ⟨pre, it, post⟩ := parts
      obtain ⟨rfl, hit, -⟩ := firstMatch_eq_some.mp found
      have known : ∃ x ∈ pre ++ it :: post, v.member (lit "deviceid") = .string x.deviceid :=
        ⟨it, by simp, Json.isString_iff.mp hit⟩
      simp only [returns_bind, scalar_iff, known, forall_const]
      exact exists_congr fun appid => and_iff_left (returns_ok _)

/-- What is forwarded between a speaker and an app, or the offline answer, fits. -/
def RelayFits (found : Option Bev) (v : Json) : Prop := Fits k (if found.isSome then v else offlineReply)

/-- The speaker `TransAppCmd` finds for the app. -/
def speakerOf (bev : Bev) (l : Registry) : Option Bev :=
  (firstMatch (fun it => it.aBev == some bev && it.dBev.isSome) l).bind (·.2.1.dBev)

/-- The app `TransDevReply` finds for the speaker. -/
def appOf (bev : Bev) (l : Registry) : Option Bev :=
  (firstMatch (fun it => it.dBev == some bev && it.aBev.isSome) l).bind (·.2.1.aBev)

theorem transAppCmd_returns {bev : Bev} {v : Json} {l : Registry} :
    Returns (transAppCmd k bev v l) ↔ RelayFits k (speakerOf bev l) v := by
  cases found : speakerOf bev l with
  | none =>
      unfold speakerOf at found
      simp only [transAppCmd, found]
      exact send_returns k
  | some dev =>
      unfold speakerOf at found
      simp only [transAppCmd, found]
      exact send_returns k

theorem transDevReply_returns {bev : Bev} {v : Json} {l : Registry} :
    Returns (transDevReply k bev v l) ↔ RelayFits k (appOf bev l) v := by
  cases found : appOf bev l with
  | none =>
      unfold appOf at found
      simp only [transDevReply, found]
      exact send_returns k
  | some app =>
      unfold appOf at found
      simp only [transDevReply, found]
      exact send_returns k

/-- The upload of a speaker that has an app fits. -/
def Uploads (bev : Bev) (v : Json) (l : Registry) : Prop :=
  ∀ pre it post app, firstMatch (fun it => it.dBev == some bev) l = some (pre, it, post) →
    it.aBev = some app → Fits k v

theorem uploadMusic_returns {bev : Bev} {v : Json} {l : Registry} :
    Returns (uploadMusic k bev v l) ↔ Uploads k bev v l := by
  unfold uploadMusic Uploads
  cases found : firstMatch (fun it => it.dBev == some bev) l with
  | none => exact iff_of_true (returns_ok _) fun pre it post app none => nomatch none
  | some parts =>
      obtain ⟨pre, it, post⟩ := parts
      rcases Option.eq_none_or_eq_some it.aBev with unpaired | ⟨app, paired⟩
      · simp only [unpaired]
        refine iff_of_true (returns_ok _) ?_
        rintro pre' it' post' app ⟨⟩ paired
        exact nomatch unpaired.symm.trans paired
      · simp only [paired]
        refine (send_returns k).trans ⟨fun fits pre' it' post' app' _ _ => fits, fun all => all _ _ _ _ rfl paired⟩

/-- Every node of the app has a speaker's connection, and the request fits. -/
def Captures (bev : Bev) (v : Json) (l : Registry) : Prop :=
  ∀ it ∈ l, it.aBev = some bev → it.dBev ≠ none ∧ Fits k v

theorem captureCurMusicList_returns {bev : Bev} {v : Json} {l : Registry} :
    Returns (captureCurMusicList k bev v l) ↔ Captures k bev v l := by
  induction l with
  | nil => exact iff_of_true (returns_ok _) fun it none => nomatch none
  | cons it rest ih =>
      rw [captureCurMusicList, Captures, List.forall_mem_cons]
      by_cases mine : it.aBev = some bev
      · rw [if_pos mine, forall_prop_of_true mine]
        rcases Option.eq_none_or_eq_some it.dBev with gone | ⟨dev, there⟩
        · simp only [gone]
          refine iff_of_false ?_ fun h => h.1.1 rfl
          rintro ⟨sent, failed⟩
          cases failed
        · simp only [there, returns_bind, sendData_ok]
          constructor
          · rintro ⟨sent, ⟨fits, -⟩, more, again, -⟩
            exact ⟨⟨Option.some_ne_none _, fits⟩, ih.mp ⟨more, again⟩⟩
          · rintro ⟨⟨-, fits⟩, others⟩
            obtain ⟨more, again⟩ := ih.mpr others
            exact ⟨_, ⟨fits, rfl⟩, more, again, returns_ok _⟩
      · rw [if_neg mine, ih]
        exact (and_iff_right fun same => absurd same mine).symm

/-! ## The account requests -/

/-- The answers of `RegisterUsr`, each with what brings it about. -/
inductive RegisterAnswers (v : Json) (db : δ) : Json → Prop
  | refused : (databaseConnect m db).1 = false → RegisterAnswers v db (reply "app_register_reply" "failure")
  | known {appid : Bytes} : (databaseConnect m db).1 = true → (v.member (lit "appid")).asString = .ok appid →
      Finds m appid (databaseConnect m db).2 true → RegisterAnswers v db (reply "app_register_reply" "failure")
  | added {appid password : Bytes} : (databaseConnect m db).1 = true →
      (v.member (lit "appid")).asString = .ok appid → Finds m appid (databaseConnect m db).2 false →
      (v.member (lit "password")).asString = .ok password → (insertUsr appid password).length < 256 →
      RegisterAnswers v db (reply "app_register_reply"
        (if (m.query (insertUsr appid password) (askedUsr m appid (databaseConnect m db).2)).1 then "success"
          else "failure"))

/-- The answers of `Login`, each with what brings it about. -/
inductive LoginAnswers (v : Json) (db : δ) : Json → Prop
  | unknown {appid : Bytes} : (v.member (lit "appid")).asString = .ok appid → Finds m appid db false →
      LoginAnswers v db (reply "app_login_reply" "not_exist")
  | wrong {appid password : Bytes} : (v.member (lit "appid")).asString = .ok appid → Finds m appid db true →
      (v.member (lit "password")).asString = .ok password →
      PasswordRead m appid password (askedUsr m appid db) false →
      LoginAnswers v db (reply "app_login_reply" "password_error")
  | unbound {appid password : Bytes} : (v.member (lit "appid")).asString = .ok appid → Finds m appid db true →
      (v.member (lit "password")).asString = .ok password →
      PasswordRead m appid password (askedUsr m appid db) true →
      DeviceRead m appid (selected m (selectPassword appid) (askedUsr m appid db)) none →
      LoginAnswers v db (reply "app_login_reply" "not_bind")
  | bound {appid password deviceid : Bytes} : (v.member (lit "appid")).asString = .ok appid →
      Finds m appid db true → (v.member (lit "password")).asString = .ok password →
      PasswordRead m appid password (askedUsr m appid db) true →
      DeviceRead m appid (selected m (selectPassword appid) (askedUsr m appid db)) (some deviceid) →
      LoginAnswers v db (bindAnswer deviceid)

/-- The answer of `BindUsr`. -/
inductive BindAnswers (v : Json) (db : δ) : Json → Prop
  | asked {appid deviceid : Bytes} : (v.member (lit "appid")).asString = .ok appid →
      (v.member (lit "deviceid")).asString = .ok deviceid → (updateUsr appid deviceid).length < 256 →
      BindAnswers v db (reply "app_bind_reply"
        (if (m.query (updateUsr appid deviceid) (databaseConnect m db).2).1 then "success" else "failure"))

theorem finds_unique {appid : Bytes} {db : δ} (known : Finds m appid db true) (fresh : Finds m appid db false) :
    False := by
  obtain ⟨-, rows, stored, some_⟩ := known
  obtain ⟨-, rows', stored', none_⟩ := fresh
  cases stored.symm.trans stored'
  rw [some_] at none_
  cases none_

variable {m} in
theorem registerReply_answers {v answer : Json} {db : δ} :
    (∃ db', registerReply m v db = .ok (answer, db')) ↔ RegisterAnswers m v db answer := by
  unfold registerReply
  rcases connect : databaseConnect m db with ⟨_ | _, db₁⟩
  · constructor
    · rintro ⟨db', ⟨⟩⟩
      exact .refused (by rw [connect])
    · intro answers
      cases answers with
      | refused _ => exact ⟨db₁, rfl⟩
      | known opened => rw [connect] at opened; cases opened
      | added opened => rw [connect] at opened; cases opened
  · have opened : (databaseConnect m db).1 = true := by rw [connect]
    constructor
    · rintro ⟨db', h⟩
      obtain ⟨⟨known, db₂⟩, checked, h⟩ := Except.bind_eq_ok.mp h
      obtain ⟨appid, account, finds, rfl⟩ := (checkUsrExist_ok m).mp checked
      cases known with
      | true =>
          cases h
          exact .known opened account (by rwa [connect])
      | false =>
          obtain ⟨⟨added, db₃⟩, inserted, h⟩ := Except.bind_eq_ok.mp h
          obtain ⟨appid', password, account', secret, short, asked⟩ := (addUsr_ok m).mp inserted
          cases account.symm.trans account'
          cases h
          have answers := @RegisterAnswers.added _ m v db _ _ opened account (by rwa [connect]) secret short
          rw [connect, asked] at answers
          exact answers
    · intro answers
      cases answers with
      | refused closed => rw [connect] at closed; cases closed
      | @known appid _ account finds =>
          rw [connect] at finds
          refine ⟨_, Except.bind_eq_ok.mpr ⟨(true, _), (checkUsrExist_ok m).mpr ⟨appid, account, finds, rfl⟩, rfl⟩⟩
      | @added appid password _ account finds secret short =>
          rw [connect] at finds ⊢
          refine ⟨m.close (m.query (insertUsr appid password) (askedUsr m appid db₁)).2, ?_⟩
          refine Except.bind_eq_ok.mpr ⟨(false, _), (checkUsrExist_ok m).mpr ⟨appid, account, finds, rfl⟩, ?_⟩
          exact Except.bind_eq_ok.mpr ⟨_, (addUsr_ok m).mpr ⟨appid, password, account, secret, short, rfl⟩, rfl⟩

variable {m} in
theorem loginReply_answers {v answer : Json} {db : δ} :
    (∃ db', loginReply m v db = .ok (answer, db')) ↔ LoginAnswers m v db answer := by
  constructor
  · rintro ⟨db', h⟩
    obtain ⟨⟨known, db₁⟩, checked, h⟩ := Except.bind_eq_ok.mp h
    obtain ⟨appid, account, finds, rfl⟩ := (checkUsrExist_ok m).mp checked
    cases known with
    | false =>
        cases h
        exact .unknown account finds
    | true =>
        obtain ⟨⟨right, db₂⟩, looked, h⟩ := Except.bind_eq_ok.mp h
        obtain ⟨appid', password, account', secret, read, rfl⟩ := (checkPassword_ok m).mp looked
        cases account.symm.trans account'
        cases right with
        | false =>
            cases h
            exact .wrong account finds secret read
        | true =>
            obtain ⟨⟨device, db₃⟩, asked, h⟩ := Except.bind_eq_ok.mp h
            obtain ⟨appid', account', found, rfl⟩ := (checkBind_ok m).mp asked
            cases account.symm.trans account'
            cases device with
            | none =>
                cases h
                exact .unbound account finds secret read found
            | some deviceid =>
                cases h
                exact .bound account finds secret read found
  · intro answers
    cases answers with
    | @unknown appid account finds =>
        exact ⟨_, Except.bind_eq_ok.mpr ⟨(false, _), (checkUsrExist_ok m).mpr ⟨appid, account, finds, rfl⟩, rfl⟩⟩
    | @wrong appid password account finds secret read =>
        refine ⟨selected m (selectPassword appid) (askedUsr m appid db), Except.bind_eq_ok.mpr
          ⟨(true, _), (checkUsrExist_ok m).mpr ⟨appid, account, finds, rfl⟩, ?_⟩⟩
        exact Except.bind_eq_ok.mpr
          ⟨(false, _), (checkPassword_ok m).mpr ⟨appid, password, account, secret, read, rfl⟩, rfl⟩
    | @unbound appid password account finds secret read found =>
        refine ⟨selected m (selectDeviceid appid) (selected m (selectPassword appid) (askedUsr m appid db)),
          Except.bind_eq_ok.mpr ⟨(true, _), (checkUsrExist_ok m).mpr ⟨appid, account, finds, rfl⟩, ?_⟩⟩
        refine Except.bind_eq_ok.mpr
          ⟨(true, _), (checkPassword_ok m).mpr ⟨appid, password, account, secret, read, rfl⟩, ?_⟩
        exact Except.bind_eq_ok.mpr ⟨(none, _), (checkBind_ok m).mpr ⟨appid, account, found, rfl⟩, rfl⟩
    | @bound appid password deviceid account finds secret read found =>
        refine ⟨selected m (selectDeviceid appid) (selected m (selectPassword appid) (askedUsr m appid db)),
          Except.bind_eq_ok.mpr ⟨(true, _), (checkUsrExist_ok m).mpr ⟨appid, account, finds, rfl⟩, ?_⟩⟩
        refine Except.bind_eq_ok.mpr
          ⟨(true, _), (checkPassword_ok m).mpr ⟨appid, password, account, secret, read, rfl⟩, ?_⟩
        exact Except.bind_eq_ok.mpr ⟨(some deviceid, _), (checkBind_ok m).mpr ⟨appid, account, found, rfl⟩, rfl⟩

/-- An answer is sent, and the request is over, when it fits. -/
theorem answer_returns {bev : Bev} {x : Except Fault (Json × δ)} :
    Returns (x >>= fun r => sendData k bev r.1 >>= fun sent => .ok (r.2, [sent])) ↔
      ∃ answer, (∃ db', x = .ok (answer, db')) ∧ Fits k answer := by
  rw [returns_bind]
  constructor
  · rintro ⟨⟨answer, db'⟩, came, sent⟩
    exact ⟨answer, ⟨db', came⟩, (send_returns k).mp sent⟩
  · rintro ⟨answer, ⟨db', came⟩, fits⟩
    exact ⟨(answer, db'), came, (send_returns k).mpr fits⟩

theorem registerUsr_returns {bev : Bev} {v : Json} {db : δ} :
    Returns (registerUsr m k bev v db) ↔ ∃ answer, RegisterAnswers m v db answer ∧ Fits k answer := by
  rw [registerUsr_eq]
  refine (answer_returns k).trans (exists_congr fun answer => ?_)
  rw [registerReply_answers]

theorem login_returns {bev : Bev} {v : Json} {db : δ} :
    Returns (login m k bev v db) ↔
      ∃ answer, LoginAnswers m v (databaseConnect m db).2 answer ∧ Fits k answer := by
  rw [login_eq]
  refine (answer_returns k).trans (exists_congr fun answer => and_congr_left fun _ => ?_)
  rw [← loginReply_answers]
  constructor
  · rintro ⟨db', h⟩
    obtain ⟨⟨answer', db₁⟩, replied, same⟩ := Except.bind_eq_ok.mp (show _ >>= _ = _ from h)
    cases same
    exact ⟨db₁, replied⟩
  · rintro ⟨db₁, replied⟩
    exact ⟨m.close db₁, Except.bind_eq_ok.mpr ⟨_, replied, rfl⟩⟩

theorem bindUsr_returns {bev : Bev} {v : Json} {db : δ} :
    Returns (bindUsr m k bev v db) ↔ ∃ answer, BindAnswers m v db answer ∧ Fits k answer := by
  rw [bindUsr_eq]
  refine (answer_returns k).trans (exists_congr fun answer => and_congr_left fun _ => ?_)
  unfold bindReply
  rcases connect : databaseConnect m db with ⟨connected, db₁⟩
  constructor
  · rintro ⟨db', h⟩
    obtain ⟨⟨bound, db₂⟩, asked, same⟩ := Except.bind_eq_ok.mp h
    obtain ⟨appid, deviceid, account, device, short, came⟩ := (appBindDev_ok m).mp asked
    cases same
    have answers := @BindAnswers.asked _ m v db _ _ account device short
    rw [connect, came] at answers
    exact answers
  · rintro ⟨account, device, short⟩
    rw [connect]
    exact ⟨_, Except.bind_eq_ok.mpr ⟨_, (appBindDev_ok m).mpr ⟨_, _, account, device, short, rfl⟩, rfl⟩⟩

/-! ## What they leave -/

theorem devUpdateSteps_left {now : Int} {bev : Bev} {v : Json} {l : Registry} {d c : Bytes}
    {mode volume : Int} (opens : Opens v) (device : (v.member (lit "deviceid")).asString = .ok d)
    (music : (v.member (lit "cur_music")).asString = .ok c)
    (way : (v.member (lit "mode")).asInt = .ok mode)
    (loud : (v.member (lit "volume")).asInt = .ok volume) :
    (devUpdateSteps k now bev v l).2 = match firstMatch (fun it => it.deviceid == d) l with
      | some (pre, it, post) => pre ++ { it with curMusic := c, mode, volume, dTime := now } :: post
      | none => l ++ [⟨d, [], c, volume, mode, now, none, some bev, none⟩] := by
  obtain ⟨v₁, t₁⟩ := (opens_iff (lit "deviceid")).mp opens
  obtain ⟨v₂, t₂⟩ := (opens_iff (lit "cur_music")).mp (opens_touch t₁)
  obtain ⟨v₃, t₃⟩ := (opens_iff (lit "mode")).mp (opens_touch t₂)
  obtain ⟨v₄, t₄⟩ := (opens_iff (lit "volume")).mp (opens_touch t₃)
  rw [← Json.member_touch t₁] at music
  rw [← Json.member_touch t₁, ← Json.member_touch t₂] at way
  rw [← Json.member_touch t₁, ← Json.member_touch t₂, ← Json.member_touch t₃] at loud
  rw [devUpdateSteps, lift_ok_bind device, lift_ok_bind t₁, bind_of_ok (x := ask _) rfl]
  cases found : firstMatch (fun it => it.deviceid == d) l with
  | none =>
      simp only [lift_ok_bind music, lift_ok_bind t₂, lift_ok_bind way, lift_ok_bind t₃,
        lift_ok_bind loud, lift_ok_bind t₄]
      rfl
  | some parts =>
      obtain ⟨pre, it, post⟩ := parts
      have assigned : assignReport now v₁ it =
          (.ok v₄, { it with curMusic := c, mode, volume, dTime := now }) := by
        simp only [assignReport, lift_ok_bind music, lift_ok_bind t₂, lift_ok_bind way, lift_ok_bind t₃,
          lift_ok_bind loud, lift_ok_bind t₄]
        rfl
      have stored : onNode pre post it (assignReport now v₁) l =
          (.ok v₄, pre ++ { it with curMusic := c, mode, volume, dTime := now } :: post) := by
        simp only [onNode, zoom, assigned]
      change ((onNode pre post it (assignReport now v₁) >>= _) l).2 = _
      rw [bind_of_ok stored]
      rcases Option.eq_none_or_eq_some it.aBev with unpaired | ⟨app, paired⟩
      · simp only [unpaired]
        rfl
      · simp only [paired]
        cases sendData k app v₄ <;> rfl

theorem appUpdateSteps_left {now : Int} {bev : Bev} {v : Json} {l : Registry} {a : Bytes}
    (account : (v.member (lit "appid")).asString = .ok a) :
    (appUpdateSteps now bev v l).2 =
      match firstMatch (fun it => (v.member (lit "deviceid")).isString it.deviceid) l with
      | some (pre, it, post) => pre ++ { it with aBev := some bev, aTime := some now, appid := a } :: post
      | none => l := by
  rw [appUpdateSteps, bind_of_ok (x := ask _) rfl]
  cases firstMatch (fun it => (v.member (lit "deviceid")).isString it.deviceid) l with
  | none => rfl
  | some parts =>
      obtain ⟨pre, it, post⟩ := parts
      have assigned : assignApp now bev v it =
          (.ok (), { it with aBev := some bev, aTime := some now, appid := a }) := by
        simp only [assignApp, lift_ok_bind account]
        rfl
      change (zoom _ _ (assignApp now bev v) l).2 = _
      simp only [zoom, assigned]

section Accounts
variable {ν : Type} {accounts : δ → ν}

/-- What MySQL promises of the calls that only read: the accounts stay as they are. -/
structure Reads (accounts : δ → ν) : Prop where
  realConnect : ∀ db, accounts (m.realConnect db).2 = accounts db
  setNames : ∀ db, accounts (m.query (lit "set names utf8;") db).2 = accounts db
  select : ∀ text, lit "select " <+: text → ∀ db, accounts (m.query text db).2 = accounts db
  storeResult : ∀ db, accounts (m.storeResult db).2 = accounts db
  close : ∀ db, accounts (m.close db) = accounts db

variable {m} (reads : Reads m accounts)
include reads

theorem databaseConnect_keeps (db : δ) : accounts (databaseConnect m db).2 = accounts db := by
  have connected := reads.realConnect db
  rcases came : m.realConnect db with ⟨_ | _, db'⟩
  · rw [came] at connected
    simpa [databaseConnect, came] using connected
  · rw [came] at connected
    simpa [databaseConnect, came] using (reads.setNames db').trans connected

theorem select_keeps {text : Bytes} (reading : lit "select " <+: text) (rest : Bytes) (db : δ) :
    accounts (m.query (text ++ rest ++ lit "';") db).2 = accounts db := by
  refine reads.select _ ?_ db
  rw [List.append_assoc]
  exact reading.trans (List.prefix_append _ _)

theorem checkUsrSteps_keeps (v : Json) : Keeps accounts (checkUsrSteps m v) := by
  apply (Keeps.lift _).bind; intro appid
  apply Keeps.lift_bind; intro sql short
  obtain ⟨-, rfl⟩ := sqlText_ok.mp short
  apply (Keeps.ask fun db => select_keeps reads (by decide) _ db).bind; intro _
  apply (Keeps.ask reads.storeResult).bind; intro res
  exact (Keeps.lift _).bind fun row => .pure _

theorem checkPasswordSteps_keeps (v : Json) : Keeps accounts (checkPasswordSteps m v) := by
  apply (Keeps.lift _).bind; intro appid
  apply (Keeps.lift _).bind; intro password
  apply Keeps.lift_bind; intro sql short
  obtain ⟨-, rfl⟩ := sqlText_ok.mp short
  apply (Keeps.ask fun db => select_keeps reads (by decide) _ db).bind; intro asked
  apply Keeps.branch
  · exact .pure _
  · apply (Keeps.ask reads.storeResult).bind
    rintro (_ | _ | ⟨row, rows⟩)
    · exact .pure _
    · exact .pure _
    · apply (Keeps.lift _).bind
      rintro (_ | stored)
      · exact .lift _
      · exact .pure _

theorem checkBindSteps_keeps (v : Json) : Keeps accounts (checkBindSteps m v) := by
  apply (Keeps.lift _).bind; intro appid
  apply Keeps.lift_bind; intro sql short
  obtain ⟨-, rfl⟩ := sqlText_ok.mp short
  apply (Keeps.ask fun db => select_keeps reads (by decide) _ db).bind; intro asked
  apply Keeps.branch
  · exact .pure _
  · apply (Keeps.ask reads.storeResult).bind
    rintro (_ | _ | ⟨row, rows⟩)
    · exact .pure _
    · exact .pure _
    · exact (Keeps.lift _).bind fun column => .pure _

theorem loginSteps_keeps (bev : Bev) (v : Json) : Keeps accounts (loginSteps m k bev v) := by
  apply (Keeps.ask (databaseConnect_keeps reads)).bind; intro _
  apply Keeps.bind
  · apply (checkUsrSteps_keeps reads v).bind; intro known
    apply Keeps.branch
    · exact .pure _
    · apply (checkPasswordSteps_keeps reads v).bind; intro right
      apply Keeps.branch
      · exact .pure _
      · apply (checkBindSteps_keeps reads v).bind
        rintro (_ | bound)
        · exact .pure _
        · exact .pure _
  · intro answer
    apply (Keeps.change reads.close).bind; intro _
    exact (Keeps.lift _).bind fun sent => .pure _

omit reads in
/-- A statement made of two fields changes the accounts only if both convert,
the text fits, and MySQL has something to change. -/
theorem statement_left (x y : Except Fault Bytes) (text : Bytes → Bytes → Bytes) (db : δ) :
    accounts ((do
      let a ← lift x
      let b ← lift y
      let sql ← lift (sqlText (text a b))
      ask (m.query sql) : Attempt Fault δ Bool) db).2 = accounts db ↔
    ∀ a b, x = .ok a → y = .ok b → (text a b).length < 256 →
      accounts (m.query (text a b) db).2 = accounts db := by
  cases x with
  | error e => exact ⟨fun _ a b first => (nomatch first), fun _ => rfl⟩
  | ok a =>
      cases y with
      | error e => exact ⟨fun _ a b _ second => (nomatch second), fun _ => rfl⟩
      | ok b =>
          rw [lift_ok_bind rfl, lift_ok_bind rfl]
          by_cases short : (text a b).length < 256
          · rw [lift_ok_bind (sqlText_ok.mpr ⟨short, rfl⟩)]
            constructor
            · rintro same _ _ ⟨⟩ ⟨⟩ -
              exact same
            · exact fun all => all a b rfl rfl short
          · have long : sqlText (text a b) = .error .outOfBounds := by
              unfold sqlText
              rw [if_neg short]
            rw [lift_error_bind long]
            constructor
            · rintro - _ _ ⟨⟩ ⟨⟩ fits
              exact absurd fits short
            · exact fun _ => rfl

theorem registerSteps_left (bev : Bev) (v : Json) (db : δ) :
    accounts (registerSteps m k bev v db).2 = accounts db ↔
      ((databaseConnect m db).1 = true → ∀ appid password,
        (v.member (lit "appid")).asString = .ok appid →
        (v.member (lit "password")).asString = .ok password →
        Finds m appid (databaseConnect m db).2 false → (insertUsr appid password).length < 256 →
        accounts (m.query (insertUsr appid password) (askedUsr m appid (databaseConnect m db).2)).2 =
          accounts (askedUsr m appid (databaseConnect m db).2)) := by
  have connected := databaseConnect_keeps reads db
  rw [registerSteps, bind_of_ok (x := ask _) rfl]
  rcases joined : databaseConnect m db with ⟨_ | _, db₁⟩
  · rw [joined] at connected
    refine ⟨fun _ never => Bool.noConfusion never, fun _ => ?_⟩
    exact ((Keeps.lift _).bind (fun sent => .pure _) db₁).trans connected
  · rw [joined] at connected
    simp only [if_true, forall_const]
    have kept := checkUsrSteps_keeps reads v db₁
    rcases came : checkUsrSteps m v db₁ with ⟨e | known, db₂⟩
    · rw [came] at kept
      rw [bind_of_error came]
      refine ⟨fun _ appid password account secret finds => ?_, fun _ => kept.trans connected⟩
      have found := (checkUsrExist_ok m).mpr ⟨appid, account, finds, rfl⟩
      rw [← checkUsrSteps_settled, settled_eq_ok, came] at found
      cases found
    · rw [came] at kept
      have checked := settled_eq_ok.mpr came
      rw [checkUsrSteps_settled, checkUsrExist_ok] at checked
      obtain ⟨appid, account, finds, rfl⟩ := checked
      rw [bind_of_ok came]
      cases known with
      | true =>
          rw [if_pos rfl, Keeps.left_bind fun sent => (Keeps.change reads.close).bind fun _ => .pure _]
          refine ⟨fun _ appid' password account' secret unknown => ?_, fun _ => kept.trans connected⟩
          cases account.symm.trans account'
          exact (finds_unique m finds unknown).elim
      | false =>
          rw [if_neg (by decide), Keeps.left_bind fun added => (Keeps.lift _).bind fun sent =>
            (Keeps.change reads.close).bind fun _ => .pure _, ← connected, ← kept]
          refine (statement_left _ _ insertUsr _).trans ⟨?_, ?_⟩
          · intro all appid' password account' secret _ short
            cases account.symm.trans account'
            exact all appid password account secret short
          · intro all appid' password account' secret short
            cases account.symm.trans account'
            exact all appid password account secret finds short

theorem bindSteps_left (bev : Bev) (v : Json) (db : δ) :
    accounts (bindSteps m k bev v db).2 = accounts db ↔ ∀ appid deviceid,
      (v.member (lit "appid")).asString = .ok appid →
      (v.member (lit "deviceid")).asString = .ok deviceid → (updateUsr appid deviceid).length < 256 →
      accounts (m.query (updateUsr appid deviceid) (databaseConnect m db).2).2 =
        accounts (databaseConnect m db).2 := by
  have connected := databaseConnect_keeps reads db
  rw [bindSteps, bind_of_ok (x := ask _) rfl, Keeps.left_bind fun bound => (Keeps.lift _).bind fun sent =>
    (Keeps.change reads.close).bind fun _ => .pure _, ← connected]
  exact statement_left _ _ updateUsr _

end Accounts

/-! ## The callback -/

/-- Only a leave and an account request move the state, and a leave keeps the database. -/
theorem dispatch_still {now : Int} {opendir : Bytes → Option (List Dirent)} {bev : Bev} {value : Json}
    {s t : State δ} {sent : List Send} (info : ¬ value.isCmd "info" = true)
    (app : ¬ value.isCmd "app_info" = true) (register : ¬ value.isCmd "app_register" = true)
    (log : ¬ value.isCmd "app_login" = true) (bound : ¬ value.isCmd "app_bind" = true)
    (h : dispatch m k now opendir bev value s = .ok (t, sent)) :
    t = s ∨ value.isCmd "app_offline" = true ∧ t.db = s.db := by
  obtain ⟨v, -, ran⟩ := dispatch_ran m k h
  cases ran with
  | info cmd => exact absurd cmd info
  | appInfo cmd => exact absurd cmd app
  | register cmd => exact absurd cmd register
  | login cmd => exact absurd cmd log
  | bind cmd => exact absurd cmd bound
  | offline leave => exact .inr ⟨leave, rfl⟩
  | list | upload | command | reply | capture | unknown => exact .inl rfl

/-- What the commands that assign nothing need: their fields convert, what they
look at is there, and what they send fits. -/
def Settles (opendir : Bytes → Option (List Dirent)) (bev : Bev) (v : Json) (l : Registry) : Prop :=
  if v.isCmd "get_music_list" then
    ∃ singer, (v.member (lit "singer")).asString = .ok singer ∧ Fits k (getMusicName opendir singer)
  else if v.isCmd "upload_music" then l ≠ [] ∧ Uploads k bev v l
  else if appCommands.any v.isCmd then RelayFits k (speakerOf bev l) v
  else if devReplies.any v.isCmd then RelayFits k (appOf bev l) v
  else if v.isCmd "app_capture_cur_musiclist" then Captures k bev v l
  else True

theorem return_returns {α β : Type} {x : Except Fault α} {f : α → β} :
    Returns (x >>= fun a => .ok (f a)) ↔ Returns x := by
  rw [returns_bind]
  exact exists_congr fun a => and_iff_left (returns_ok _)

theorem dispatch_returns {now : Int} {opendir : Bytes → Option (List Dirent)} {bev : Bev} {v : Json}
    {s : State δ} (again : v.touch (lit "cmd") = .ok v) (info : ¬ v.isCmd "info" = true)
    (app : ¬ v.isCmd "app_info" = true) (register : ¬ v.isCmd "app_register" = true)
    (log : ¬ v.isCmd "app_login" = true) (bound : ¬ v.isCmd "app_bind" = true) :
    Returns (dispatch m k now opendir bev v s) ↔ Settles k opendir bev v s.onlineList := by
  rw [dispatch, again, Settles]
  change Returns (if v.isCmd "get_music_list" = true then _ else _) ↔ _
  by_cases list : v.isCmd "get_music_list" = true
  · rw [if_pos list, if_pos list, returns_bind]
    exact exists_congr fun singer => and_congr_right fun _ => send_returns k
  rw [if_neg list, if_neg list, if_neg info, if_neg app]
  by_cases upload : v.isCmd "upload_music" = true
  · rw [if_pos upload, if_pos upload]
    by_cases empty : s.onlineList = []
    · rw [if_pos empty]
      refine iff_of_false ?_ fun h => h.1 empty
      rintro ⟨sent, failed⟩
      cases failed
    · rw [if_neg empty, and_iff_right empty]
      exact return_returns.trans (uploadMusic_returns k)
  rw [if_neg upload, if_neg upload]
  by_cases command : appCommands.any v.isCmd = true
  · rw [if_pos command, if_pos command]
    exact return_returns.trans (transAppCmd_returns k)
  rw [if_neg command, if_neg command]
  by_cases answer : devReplies.any v.isCmd = true
  · rw [if_pos answer, if_pos answer]
    exact return_returns.trans (transDevReply_returns k)
  rw [if_neg answer, if_neg answer, if_neg register, if_neg log, if_neg bound]
  by_cases leave : v.isCmd "app_offline" = true
  · rw [if_pos leave, if_neg (Json.not_isCmd leave (by decide))]
    exact iff_of_true (returns_ok _) trivial
  rw [if_neg leave]
  by_cases capture : v.isCmd "app_capture_cur_musiclist" = true
  · rw [if_pos capture, if_pos capture]
    exact return_returns.trans (captureCurMusicList_returns k)
  · rw [if_neg capture, if_neg capture]
    exact iff_of_true (returns_ok _) trivial

/-- The report says again what the node of its device holds, the time included. -/
def Repeats (now : Int) (v : Json) (l : Registry) : Prop :=
  ∃ d pre it post, (v.member (lit "deviceid")).asString = .ok d ∧
    firstMatch (fun it => it.deviceid == d) l = some (pre, it, post) ∧
    (v.member (lit "cur_music")).asString = .ok it.curMusic ∧
    (v.member (lit "mode")).asInt = .ok it.mode ∧ (v.member (lit "volume")).asInt = .ok it.volume ∧
    it.dTime = now

theorem info_survives {typed : Prop} {now : Int} {bev : Bev} {v : Json} {l : Registry} (opens : Opens v)
    (convert : typed → Converts v) :
    Returns (devUpdateSteps k now bev v l).1 ∧ (¬ typed → (devUpdateSteps k now bev v l).2 = l) ↔
      Forwards k v l ∧ (typed ∨ Repeats now v l) := by
  rw [returns_settled, devUpdateSteps_settled, returns_map, devUpdateList_returns k opens]
  constructor
  · rintro ⟨⟨⟨device, music, way, loud⟩, forwards⟩, same⟩
    refine ⟨forwards, or_iff_not_imp_left.mpr fun ill => ?_⟩
    obtain ⟨d, isDevice⟩ := scalar_iff.mp device
    obtain ⟨c, isMusic⟩ := scalar_iff.mp music
    obtain ⟨mode, isMode⟩ := numeric_iff.mp way
    obtain ⟨volume, isVolume⟩ := numeric_iff.mp loud
    have left_ := same ill
    rw [devUpdateSteps_left k opens isDevice isMusic isMode isVolume] at left_
    cases found : firstMatch (fun it => it.deviceid == d) l with
    | none =>
        rw [found] at left_
        simp at left_
    | some parts =>
        obtain ⟨pre, it, post⟩ := parts
        rw [found] at left_
        obtain ⟨rfl, -, -⟩ := firstMatch_eq_some.mp found
        have node := (List.cons.inj (List.append_cancel_left left_)).1
        refine ⟨d, pre, it, post, isDevice, found, ?_⟩
        rw [isMusic, isMode, isVolume, ← node]
        exact ⟨rfl, rfl, rfl, rfl⟩
  · rintro ⟨forwards, fine | ⟨d, pre, it, post, isDevice, found, isMusic, isMode, isVolume, seen⟩⟩
    · exact ⟨⟨convert fine, forwards⟩, fun ill => absurd fine ill⟩
    · refine ⟨⟨⟨scalar_iff.mpr ⟨_, isDevice⟩, scalar_iff.mpr ⟨_, isMusic⟩, numeric_iff.mpr ⟨_, isMode⟩,
        numeric_iff.mpr ⟨_, isVolume⟩⟩, forwards⟩, fun _ => ?_⟩
      rw [devUpdateSteps_left k opens isDevice isMusic isMode isVolume, found]
      obtain ⟨rfl, -, -⟩ := firstMatch_eq_some.mp found
      subst seen
      rfl

/-- The pairing is one that the node it names is already in, the time included. -/
def RepeatsApp (now : Int) (bev : Bev) (v : Json) (l : Registry) : Prop :=
  ∀ pre it post, firstMatch (fun it => (v.member (lit "deviceid")).isString it.deviceid) l =
      some (pre, it, post) →
    (v.member (lit "appid")).asString = .ok it.appid ∧ it.aBev = some bev ∧ it.aTime = some now

theorem app_info_survives {typed : Prop} {now : Int} {bev : Bev} {v : Json} {l : Registry}
    (convert : typed → Scalar (v.member (lit "appid"))) :
    Returns (appUpdateSteps now bev v l).1 ∧ (¬ typed → (appUpdateSteps now bev v l).2 = l) ↔
      typed ∨ RepeatsApp now bev v l := by
  rw [returns_settled, appUpdateSteps_settled, returns_map]
  cases found : firstMatch (fun it => (v.member (lit "deviceid")).isString it.deviceid) l with
  | none =>
      have quiet : appUpdateList now bev v l = .ok l := by
        rw [appUpdateList, found]
        rfl
      have still : (appUpdateSteps now bev v l).2 = l := by
        rw [appUpdateSteps, bind_of_ok (x := ask _) rfl, found]
        rfl
      rw [quiet, still]
      refine ⟨fun _ => .inr ?_, fun _ => ⟨returns_ok _, fun _ => rfl⟩⟩
      intro pre it post other
      rw [found] at other
      cases other
  | some parts =>
      obtain ⟨pre, it, post⟩ := parts
      obtain ⟨rfl, hit, -⟩ := firstMatch_eq_some.mp found
      rw [appUpdateList_returns]
      have known : ∃ x ∈ pre ++ it :: post, v.member (lit "deviceid") = .string x.deviceid :=
        ⟨it, by simp, Json.isString_iff.mp hit⟩
      constructor
      · rintro ⟨account, same⟩
        refine or_iff_not_imp_left.mpr fun ill pre' it' post' found' => ?_
        cases found.symm.trans found'
        obtain ⟨a, isAccount⟩ := scalar_iff.mp (account known)
        have left_ := same ill
        rw [appUpdateSteps_left isAccount, found] at left_
        have node := (List.cons.inj (List.append_cancel_left left_)).1
        rw [isAccount, ← node]
        exact ⟨rfl, rfl, rfl⟩
      · rintro (fine | repeats)
        · exact ⟨fun _ => convert fine, fun ill => absurd fine ill⟩
        · obtain ⟨isAccount, app, seen⟩ := repeats pre it post found
          refine ⟨fun _ => scalar_iff.mpr ⟨_, isAccount⟩, fun _ => ?_⟩
          rw [appUpdateSteps_left isAccount, found, ← app, ← seen]

theorem return_after {σ α β : Type} (x : Attempt Fault σ α) (b : β) (s : σ) :
    (Returns ((x >>= fun _ => pure b) s).1 ↔ Returns (x s).1) ∧ ((x >>= fun _ => pure b) s).2 = (x s).2 := by
  rcases came : x s with ⟨e | a, t⟩
  · rw [bind_of_error came]
    exact ⟨by simp [Returns], rfl⟩
  · rw [bind_of_ok came]
    exact ⟨iff_of_true (returns_ok _) (returns_ok _), rfl⟩

section
variable {ν : Type} (accounts : δ → ν)

/-- The registration inserts nothing, or nothing that changes the accounts. -/
def AddsNothing (v : Json) (db : δ) : Prop :=
  (databaseConnect m db).1 = true → ∀ appid password, (v.member (lit "appid")).asString = .ok appid →
    (v.member (lit "password")).asString = .ok password → Finds m appid (databaseConnect m db).2 false →
    accounts (m.query (insertUsr appid password) (askedUsr m appid (databaseConnect m db).2)).2 =
      accounts (askedUsr m appid (databaseConnect m db).2)

/-- The binding's `update` changes nothing. -/
def BindsNothing (v : Json) (db : δ) : Prop :=
  ∀ appid deviceid, (v.member (lit "appid")).asString = .ok appid →
    (v.member (lit "deviceid")).asString = .ok deviceid →
    accounts (m.query (updateUsr appid deviceid) (databaseConnect m db).2).2 =
      accounts (databaseConnect m db).2

variable {accounts} {m} (reads : Reads m accounts)
include reads

theorem register_survives {typed : Prop} {bev : Bev} {v : Json} {db : δ} :
    Returns (registerSteps m k bev v db).1 ∧
        (¬ typed → accounts (registerSteps m k bev v db).2 = accounts db) ↔
      (∃ answer, RegisterAnswers m v db answer ∧ Fits k answer) ∧ (typed ∨ AddsNothing m accounts v db) := by
  rw [returns_settled, registerSteps_settled, returns_map, registerUsr_returns, registerSteps_left k reads]
  refine and_congr_right fun ⟨answer, answers, _⟩ => ?_
  constructor
  · refine fun same => or_iff_not_imp_left.mpr fun ill connected appid password account secret fresh => ?_
    refine same ill connected appid password account secret fresh ?_
    -- only a registration that inserts is answered so, and its statement fits
    cases answers with
    | refused closed => exact nomatch closed.symm.trans connected
    | known _ account' known =>
        cases account.symm.trans account'
        exact (finds_unique m known fresh).elim
    | added _ account' _ secret' short =>
        cases account.symm.trans account'
        cases secret.symm.trans secret'
        exact short
  · rintro (fine | nothing) ill connected appid password account secret fresh -
    · exact absurd fine ill
    · exact nothing connected appid password account secret fresh

theorem bind_survives {typed : Prop} {bev : Bev} {v : Json} {db : δ} :
    Returns (bindSteps m k bev v db).1 ∧ (¬ typed → accounts (bindSteps m k bev v db).2 = accounts db) ↔
      (∃ answer, BindAnswers m v db answer ∧ Fits k answer) ∧ (typed ∨ BindsNothing m accounts v db) := by
  rw [returns_settled, bindSteps_settled, returns_map, bindUsr_returns, bindSteps_left k reads]
  refine and_congr_right fun ⟨answer, answers, _⟩ => ?_
  constructor
  · refine fun same => or_iff_not_imp_left.mpr fun ill appid deviceid account device => ?_
    refine same ill appid deviceid account device ?_
    cases answers with
    | asked account' device' short =>
        cases account.symm.trans account'
        cases device.symm.trans device'
        exact short
  · rintro (fine | nothing) ill appid deviceid account device -
    · exact absurd fine ill
    · exact nothing appid deviceid account device

theorem login_survives {typed : Prop} {bev : Bev} {v : Json} {db : δ} :
    Returns (loginSteps m k bev v db).1 ∧ (¬ typed → accounts (loginSteps m k bev v db).2 = accounts db) ↔
      ∃ answer, LoginAnswers m v (databaseConnect m db).2 answer ∧ Fits k answer := by
  rw [returns_settled, loginSteps_settled, returns_map, login_returns]
  exact and_iff_left fun _ => loginSteps_keeps k reads bev v db

omit reads in
variable (accounts) in
/-- The callback has returned, and a message that is no command of the protocol
has left the registry and the accounts as they were. -/
def Unharmed (v : Json) (s : State δ) (r : Except Fault (List Send) × State δ) : Prop :=
  Returns r.1 ∧ (¬ WellTyped v → r.2.onlineList = s.onlineList ∧ accounts r.2.db = accounts s.db)

omit reads in
variable (m) (accounts) in
def Survives (now : Int) (opendir : Bytes → Option (List Dirent)) (bev : Bev) (body : Bytes)
    (s : State δ) : Prop :=
  Unharmed accounts (k.parse body).2 s (readCbSteps m k now opendir bev body s)

omit reads in
variable (m) (accounts) in
/-- What each command needs to return and, unless it is well typed, to tell nothing new. -/
def Meets (now : Int) (opendir : Bytes → Option (List Dirent)) (bev : Bev) (v : Json) (s : State δ) : Prop :=
  if v.isCmd "info" then Forwards k v s.onlineList ∧ (WellTyped v ∨ Repeats now v s.onlineList)
  else if v.isCmd "app_info" then WellTyped v ∨ RepeatsApp now bev v s.onlineList
  else if v.isCmd "app_register" then
    (∃ answer, RegisterAnswers m v s.db answer ∧ Fits k answer) ∧ (WellTyped v ∨ AddsNothing m accounts v s.db)
  else if v.isCmd "app_login" then ∃ answer, LoginAnswers m v (databaseConnect m s.db).2 answer ∧ Fits k answer
  else if v.isCmd "app_bind" then
    (∃ answer, BindAnswers m v s.db answer ∧ Fits k answer) ∧ (WellTyped v ∨ BindsNothing m accounts v s.db)
  else Settles k opendir bev v s.onlineList

omit reads in
variable (m) (accounts) in
/-- The parser has made null or an object of the body, which meets what its command needs. -/
def Withstood (now : Int) (opendir : Bytes → Option (List Dirent)) (bev : Bev) (value : Json)
    (s : State δ) : Prop :=
  ∃ v, value.touch (lit "cmd") = .ok v ∧ Meets m k accounts now opendir bev v s

omit reads in
theorem wellTyped_touch {value v : Json} (touched : value.touch (lit "cmd") = .ok v) :
    WellTyped v ↔ WellTyped value := by
  simp only [WellTyped, Json.isCmd_touch touched, Json.member_touch touched]

/-! Command by command: the callback is unharmed exactly when the command's need is met. -/

omit reads in
theorem unharmed_info {now : Int} {bev : Bev} {v : Json} {s : State δ} (opens : Opens v)
    (cmd : v.isCmd "info" = true) :
    Unharmed accounts v s (onList (devUpdateSteps k now bev v) s) ↔
      Forwards k v s.onlineList ∧ (WellTyped v ∨ Repeats now v s.onlineList) := by
  have typed := wellTyped_iff (List.mem_append_left _ (.tail _ (.head _))) cmd
  simp only [List.forall_mem_cons] at typed
  rw [← info_survives k opens fun fine => by
    obtain ⟨device, music, way, loud, -⟩ := typed.mp fine
    exact ⟨text_scalar device, text_scalar music, number_numeric way, number_numeric loud⟩]
  exact and_congr_right fun _ => forall_congr' fun _ => and_iff_left rfl

omit reads in
theorem unharmed_appInfo {now : Int} {bev : Bev} {v : Json} {s : State δ} (cmd : v.isCmd "app_info" = true) :
    Unharmed accounts v s ((onList (appUpdateSteps now bev v) >>= fun _ => pure ([] : List Send)) s) ↔
      WellTyped v ∨ RepeatsApp now bev v s.onlineList := by
  have typed := wellTyped_iff (List.mem_append_left _ (.tail _ (.tail _ (.head _)))) cmd
  simp only [List.forall_mem_cons] at typed
  obtain ⟨returns, left_⟩ := return_after (onList (appUpdateSteps now bev v)) ([] : List Send) s
  rw [Unharmed, returns, left_, ← @app_info_survives (WellTyped v) now bev v s.onlineList
    fun fine => text_scalar (typed.mp fine).2.1]
  exact and_congr_right fun _ => forall_congr' fun _ => and_iff_left rfl

theorem unharmed_register {bev : Bev} {v : Json} {s : State δ} :
    Unharmed accounts v s (onDb (registerSteps m k bev v) s) ↔
      (∃ answer, RegisterAnswers m v s.db answer ∧ Fits k answer) ∧
        (WellTyped v ∨ AddsNothing m accounts v s.db) := by
  rw [← register_survives k reads]
  exact and_congr_right fun _ => forall_congr' fun _ => and_iff_right rfl

theorem unharmed_login {bev : Bev} {v : Json} {s : State δ} :
    Unharmed accounts v s (onDb (loginSteps m k bev v) s) ↔
      ∃ answer, LoginAnswers m v (databaseConnect m s.db).2 answer ∧ Fits k answer := by
  rw [← login_survives k reads]
  exact and_congr_right fun _ => forall_congr' fun _ => and_iff_right rfl

theorem unharmed_bind {bev : Bev} {v : Json} {s : State δ} :
    Unharmed accounts v s (onDb (bindSteps m k bev v) s) ↔
      (∃ answer, BindAnswers m v s.db answer ∧ Fits k answer) ∧
        (WellTyped v ∨ BindsNothing m accounts v s.db) := by
  rw [← bind_survives k reads]
  exact and_congr_right fun _ => forall_congr' fun _ => and_iff_right rfl

omit reads in
/-- The other commands assign nothing but for a leave, which is well typed. -/
theorem unharmed_rest {now : Int} {opendir : Bytes → Option (List Dirent)} {bev : Bev} {v : Json}
    {s : State δ} (again : v.touch (lit "cmd") = .ok v) (info : ¬ v.isCmd "info" = true)
    (app : ¬ v.isCmd "app_info" = true) (register : ¬ v.isCmd "app_register" = true)
    (log : ¬ v.isCmd "app_login" = true) (bound : ¬ v.isCmd "app_bind" = true) :
    Unharmed accounts v s (whole (dispatch m k now opendir bev v) s) ↔ Settles k opendir bev v s.onlineList := by
  rw [← dispatch_returns m k again info app register log bound, Unharmed, returns_settled, settled_whole, returns_map]
  refine and_iff_left fun ill => ?_
  cases came : dispatch m k now opendir bev v s with
  | error e => simp only [whole, came, and_self]
  | ok r =>
      obtain ⟨t, sent⟩ := r
      rcases dispatch_still m k info app register log bound came with rfl | ⟨leave, -⟩
      · simp only [whole, came, and_self]
      · exact absurd ⟨"app_offline", [], by simp [protocol], leave, by simp⟩ ill

/-- The callback survives a body exactly when what was parsed is withstood. -/
theorem survives_iff (now : Int) (opendir : Bytes → Option (List Dirent)) (bev : Bev) (body : Bytes)
    (s : State δ) :
    Survives m k accounts now opendir bev body s ↔
      Withstood m k accounts now opendir bev (k.parse body).2 s := by
  rw [Survives, Withstood, readCbSteps]
  cases touched : (k.parse body).2.touch (lit "cmd") with
  | error e =>
      refine iff_of_false ?_ ?_
      · rintro ⟨⟨sent, came⟩, -⟩
        cases came
      · rintro ⟨v, same, -⟩
        cases same
  | ok v =>
      have again := Json.touch_touch touched
      have opens := opens_touch touched
      simp only [lift_ok_bind rfl, Except.ok.injEq, exists_eq_left', Unharmed, ← wellTyped_touch touched]
      change Unharmed accounts v s _ ↔ _
      rw [Meets]
      by_cases info : v.isCmd "info" = true
      · rw [if_pos info, if_pos info]
        exact unharmed_info k opens info
      rw [if_neg info, if_neg info]
      by_cases app : v.isCmd "app_info" = true
      · rw [if_pos app, if_pos app]
        exact unharmed_appInfo app
      rw [if_neg app, if_neg app]
      by_cases register : v.isCmd "app_register" = true
      · rw [if_pos register, if_pos register]
        exact unharmed_register k reads
      rw [if_neg register, if_neg register]
      by_cases log : v.isCmd "app_login" = true
      · rw [if_pos log, if_pos log]
        exact unharmed_login k reads
      rw [if_neg log, if_neg log]
      by_cases bound : v.isCmd "app_bind" = true
      · rw [if_pos bound, if_pos bound]
        exact unharmed_bind k reads
      rw [if_neg bound, if_neg bound]
      exact unharmed_rest k again info app register log bound

end

/-- A parser that finds this value whatever it is given. -/
def reading (v : Json) : Codec := { writing statusText with parse := fun _ => (true, v) }

theorem noAccounts_reads : Reads noAccounts fun _ => () :=
  ⟨fun _ => rfl, fun _ => rfl, fun _ _ _ => rfl, fun _ => rfl, fun _ => rfl⟩

/-- The report of a paired speaker is taken and sent on to its app. -/
theorem reported_survives :
    Survives noAccounts (reading (status "0001")) (fun _ => ()) 0 (fun _ => none) 3 (lit statusText)
      ⟨[speaker "0001" 3 (some 7)], ()⟩ := by
  refine (survives_iff (reading (status "0001")) noAccounts_reads 0 (fun _ => none) 3 (lit statusText)
    ⟨[speaker "0001" 3 (some 7)], ()⟩).mpr ?_
  have cmd : (status "0001").isCmd "info" = true := by decide
  refine ⟨status "0001", Json.touch_of_isCmd cmd, ?_⟩
  rw [Meets, if_pos cmd]
  refine ⟨fun _ _ _ _ _ _ _ _ _ _ => (by decide : (lit statusText).length ≤ 1020), .inl ?_⟩
  refine (wellTyped_iff (List.mem_append_left _ (.tail _ (.head _))) cmd).mpr ?_
  simp only [List.forall_mem_cons, List.not_mem_nil, false_implies, implies_true, and_true]
  exact ⟨⟨_, rfl⟩, ⟨_, rfl⟩, ⟨1, rfl, by decide, by decide⟩, ⟨40, rfl, by decide, by decide⟩⟩

/-- A frame whose body is the number 5. -/
theorem number_throws :
    ¬ ∀ (k : Codec) (s : State Unit) (now : Int) (opendir : Bytes → Option (List Dirent)) (bev : Bev)
        (body : Bytes), Runs.Reachable (Steps noAccounts k) (empty ()) s → s.onlineList ≠ [] →
      Survives noAccounts k (fun _ => ()) now opendir bev body s := by
  intro always
  have survived := always (reading (.int 5)) ⟨[speaker "0001" 3 none], ()⟩ 1 (fun _ => none) 3 (lit "5")
    ((Runs.Reachable.refl _).tail (i := .read 0 (fun _ => none) 3 (status "0001")) ⟨[], rfl⟩) (by simp)
  obtain ⟨sent, came⟩ := survived.1
  cases came

end MusicPlayer.Server
