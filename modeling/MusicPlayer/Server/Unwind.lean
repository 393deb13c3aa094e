import MusicPlayer.Server.Dispatch
import MusicPlayer.Lib.Attempt

/-! `ReadCb` statement by statement: what has been assigned or asked of the
database before an exception leaves it. The handlers that assign nothing are
taken whole. -/
namespace MusicPlayer.Server
open CBytes FirstMatch Attempt

variable {δ : Type} (m : Mysql δ) (k : Codec)

/-! ## The registry -/

/-- The assignments of `DevUpdateList` to a node it has found. -/
def assignReport (now : Int) (value : Json) : Attempt Fault PLayerInfo Json := do
  let curMusic ← lift (value.member (lit "cur_music")).asString
  let value ← lift (value.touch (lit "cur_music"))
  change fun it => { it with curMusic }
  let mode ← lift (value.member (lit "mode")).asInt
  let value ← lift (value.touch (lit "mode"))
  change fun it => { it with mode }
  let volume ← lift (value.member (lit "volume")).asInt
  let value ← lift (value.touch (lit "volume"))
  change fun it => { it with volume, dTime := now }
  return value

/-- The assignments of `AppUpdateList`: the two others come before the account is converted. -/
def assignApp (now : Int) (bev : Bev) (value : Json) : Attempt Fault PLayerInfo Unit := do
  change fun it => { it with aBev := some bev, aTime := some now }
  let appid ← lift (value.member (lit "appid")).asString
  change fun it => { it with appid }

/-- Code on the node `it` of the list `pre ++ it :: post`. -/
def onNode {α : Type} (pre post : Registry) (it : PLayerInfo) (x : Attempt Fault PLayerInfo α) :
    Attempt Fault Registry α :=
  zoom (fun _ => it) (fun it _ => pre ++ it :: post) x

def devUpdateSteps (now : Int) (bev : Bev) (value : Json) : Attempt Fault Registry (List Send) := do
  let deviceid ← lift (value.member (lit "deviceid")).asString
  let value ← lift (value.touch (lit "deviceid"))
  let found ← ask fun l => (firstMatch (fun it => it.deviceid == deviceid) l, l)
  match found with
  | some (pre, it, post) => do
      let value ← onNode pre post it (assignReport now value)
      match it.aBev with
      | some app => do
          let sent ← lift (sendData k app value)
          return [sent]
      | none => return []
  | none => do
      let curMusic ← lift (value.member (lit "cur_music")).asString
      let value ← lift (value.touch (lit "cur_music"))
      let mode ← lift (value.member (lit "mode")).asInt
      let value ← lift (value.touch (lit "mode"))
      let volume ← lift (value.member (lit "volume")).asInt
      let _ ← lift (value.touch (lit "volume"))
      let newNode : PLayerInfo :=
        { deviceid, appid := [], curMusic, volume, mode
          dTime := now, aTime := none
          dBev := some bev, aBev := none }
      change fun l => l ++ [newNode]
      return []

def appUpdateSteps (now : Int) (bev : Bev) (value : Json) : Attempt Fault Registry Unit := do
  let found ← ask fun l =>
    (firstMatch (fun it => (value.member (lit "deviceid")).isString it.deviceid) l, l)
  match found with
  | some (pre, it, post) => onNode pre post it (assignApp now bev value)
  | none => return ()

/-! ## The accounts -/

def checkUsrSteps (value : Json) : Attempt Fault δ Bool := do
  let appid ← lift (value.member (lit "appid")).asString
  let sql ← lift (sqlText (lit "select * from account where appid = '" ++ cstr appid ++ lit "';"))
  let _ ← ask (m.query sql)
  let res ← ask m.storeResult
  let row ← lift (fetchRow res)
  return row.isSome

def addUsrSteps (value : Json) : Attempt Fault δ Bool := do
  let appid ← lift (value.member (lit "appid")).asString
  let password ← lift (value.member (lit "password")).asString
  let sql ← lift (sqlText (lit "insert into account (appid,password) values ('" ++ cstr appid ++
    lit "','" ++ cstr password ++ lit "');"))
  ask (m.query sql)

def checkPasswordSteps (value : Json) : Attempt Fault δ Bool := do
  let appid ← lift (value.member (lit "appid")).asString
  let password ← lift (value.member (lit "password")).asString
  let sql ← lift (sqlText (lit "select password from account where appid = '" ++ cstr appid ++ lit "';"))
  let asked ← ask (m.query sql)
  if !asked then return false
  let res ← ask m.storeResult
  match res with
  | none => return false
  | some [] => return false
  | some (row :: _) => do
      let column ← lift (firstColumn row)
      match column with
      | none => lift (.error .nullPointer)
      | some stored => return password == cstr stored

def checkBindSteps (value : Json) : Attempt Fault δ (Option Bytes) := do
  let appid ← lift (value.member (lit "appid")).asString
  let sql ← lift (sqlText (lit "select deviceid from account where appid = '" ++ cstr appid ++ lit "';"))
  let asked ← ask (m.query sql)
  if !asked then return none
  let res ← ask m.storeResult
  match res with
  | none => return none
  | some [] => return none
  | some (row :: _) => do
      let column ← lift (firstColumn row)
      return column.map cstr

def appBindSteps (value : Json) : Attempt Fault δ Bool := do
  let appid ← lift (value.member (lit "appid")).asString
  let deviceid ← lift (value.member (lit "deviceid")).asString
  let sql ← lift (sqlText (lit "update account set deviceid = '" ++ cstr deviceid ++
    lit "' where appid = '" ++ cstr appid ++ lit "';"))
  ask (m.query sql)

def registerSteps (bev : Bev) (value : Json) : Attempt Fault δ (List Send) := do
  let connected ← ask (databaseConnect m)
  if connected then
    let known ← checkUsrSteps m value
    if known then
      let sent ← lift (sendData k bev (reply "app_register_reply" "failure"))
      change m.close
      return [sent]
    else
      let added ← addUsrSteps m value
      let sent ← lift (sendData k bev (reply "app_register_reply" (if added then "success" else "failure")))
      change m.close
      return [sent]
  else
    let sent ← lift (sendData k bev (reply "app_register_reply" "failure"))
    return [sent]

def loginReplySteps (value : Json) : Attempt Fault δ Json := do
  let known ← checkUsrSteps m value
  if !known then return reply "app_login_reply" "not_exist"
  let right ← checkPasswordSteps m value
  if !right then return reply "app_login_reply" "password_error"
  let bound ← checkBindSteps m value
  match bound with
  | none => return reply "app_login_reply" "not_bind"
  | some deviceid => return .object [(lit "cmd", .string (lit "app_login_reply")),
      (lit "deviceid", .string deviceid), (lit "result", .string (lit "bind"))]

def loginSteps (bev : Bev) (value : Json) : Attempt Fault δ (List Send) := do
  let _ ← ask (databaseConnect m)
  let answer ← loginReplySteps m value
  change m.close
  let sent ← lift (sendData k bev answer)
  return [sent]

def bindSteps (bev : Bev) (value : Json) : Attempt Fault δ (List Send) := do
  let _ ← ask (databaseConnect m)
  let bound ← appBindSteps m value
  let sent ← lift (sendData k bev (reply "app_bind_reply" (if bound then "success" else "failure")))
  change m.close
  return [sent]

/-! ## The callback -/

def onList {α : Type} (x : Attempt Fault Registry α) : Attempt Fault (State δ) α :=
  zoom State.onlineList (fun onlineList s => { s with onlineList }) x

def onDb {α : Type} (x : Attempt Fault δ α) : Attempt Fault (State δ) α :=
  zoom State.db (fun db s => { s with db }) x

/-- `ReadCb` on a frame with this body. What the parser says of it is only printed. -/
def readCbSteps (now : Int) (opendir : Bytes → Option (List Dirent)) (bev : Bev) (body : Bytes) :
    Attempt Fault (State δ) (List Send) := do
  let value ← lift ((k.parse body).2.touch (lit "cmd"))
  if value.isCmd "info" then onList (devUpdateSteps k now bev value)
  else if value.isCmd "app_info" then do
    onList (appUpdateSteps now bev value)
    return []
  else if value.isCmd "app_register" then onDb (registerSteps m k bev value)
  else if value.isCmd "app_login" then onDb (loginSteps m k bev value)
  else if value.isCmd "app_bind" then onDb (bindSteps m k bev value)
  else whole (dispatch m k now opendir bev value)

/-! ## The same callback -/

theorem assignReport_settled (now : Int) (value : Json) (it : PLayerInfo) :
    (assignReport now value).settled it = (do
      let curMusic ← (value.member (lit "cur_music")).asString
      let value ← value.touch (lit "cur_music")
      let mode ← (value.member (lit "mode")).asInt
      let value ← value.touch (lit "mode")
      let volume ← (value.member (lit "volume")).asInt
      let value ← value.touch (lit "volume")
      return (value, { it with curMusic, mode, volume, dTime := now })) := by
  simp only [assignReport, settled_lift_bind, settled_change_bind, settled_pure]
  rfl

theorem devUpdateSteps_settled (now : Int) (bev : Bev) (value : Json) (l : Registry) :
    (devUpdateSteps k now bev value).settled l = (devUpdateList k now bev value l).map Prod.swap := by
  simp only [devUpdateSteps, devUpdateList, settled_lift_bind, settled_ask_bind, Except.bind_then_map]
  apply bind_congr; intro deviceid
  apply bind_congr; intro v
  cases found : firstMatch (fun it => it.deviceid == deviceid) l with
  | none =>
      simp only [settled_lift_bind, settled_change_bind, settled_pure]
      rfl
  | some parts =>
      obtain ⟨pre, it, post⟩ := parts
      simp only [settled_bind, onNode, settled_zoom, assignReport_settled, Except.bind_then_map, bind_assoc]
      apply bind_congr; intro curMusic
      apply bind_congr; intro v
      apply bind_congr; intro mode
      apply bind_congr; intro v
      apply bind_congr; intro volume
      apply bind_congr; intro v
      rcases Option.eq_none_or_eq_some it.aBev with unpaired | ⟨app, paired⟩
      · simp only [unpaired]
        rfl
      · simp only [paired]
        change ((lift (sendData k app v) >>= fun sent => pure [sent]) : Attempt _ _ _).settled _ = _
        rw [settled_lift_bind, Except.bind_then_map]
        rfl

theorem appUpdateSteps_settled (now : Int) (bev : Bev) (value : Json) (l : Registry) :
    (appUpdateSteps now bev value).settled l =
      (appUpdateList now bev value l).map fun l => ((), l) := by
  simp only [appUpdateSteps, appUpdateList, settled_ask_bind]
  cases found : firstMatch (fun it => (value.member (lit "deviceid")).isString it.deviceid) l with
  | none => rfl
  | some parts =>
      simp only [onNode, settled_zoom, assignApp, settled_change_bind, settled_lift_bind,
        Except.bind_then_map]
      rfl

theorem checkUsrSteps_settled (value : Json) (db : δ) :
    (checkUsrSteps m value).settled db = checkUsrExist m value db := by
  simp only [checkUsrSteps, settled_lift_bind, settled_ask_bind, settled_pure]
  rfl

theorem addUsrSteps_settled (value : Json) (db : δ) :
    (addUsrSteps m value).settled db = addUsr m value db := by
  simp only [addUsrSteps, settled_lift_bind, settled_ask]
  rfl

theorem checkPasswordSteps_settled (value : Json) (db : δ) :
    (checkPasswordSteps m value).settled db = checkPassword m value db := by
  simp only [checkPasswordSteps, checkPassword, settled_lift_bind, settled_ask_bind]
  apply bind_congr; intro appid
  apply bind_congr; intro password
  apply bind_congr; intro sql
  cases (m.query sql db).1 with
  | false => rfl
  | true =>
      simp only [Bool.not_true, Bool.false_eq_true, if_false, settled_ask_bind]
      rcases m.storeResult (m.query sql db).2 with ⟨_ | _ | ⟨row, rows⟩, db'⟩
      · rfl
      · rfl
      · cases row with
        | nil => rfl
        | cons column row => cases column <;> rfl

theorem checkBindSteps_settled (value : Json) (db : δ) :
    (checkBindSteps m value).settled db = checkBind m value db := by
  simp only [checkBindSteps, checkBind, settled_lift_bind, settled_ask_bind]
  apply bind_congr; intro appid
  apply bind_congr; intro sql
  cases (m.query sql db).1 with
  | false => rfl
  | true =>
      simp only [Bool.not_true, Bool.false_eq_true, if_false, settled_ask_bind]
      rcases m.storeResult (m.query sql db).2 with ⟨_ | _ | ⟨row, rows⟩, db'⟩
      · rfl
      · rfl
      · cases row <;> rfl

theorem appBindSteps_settled (value : Json) (db : δ) :
    (appBindSteps m value).settled db = appBindDev m value db := by
  simp only [appBindSteps, settled_lift_bind, settled_ask]
  rfl

theorem registerSteps_settled (bev : Bev) (value : Json) (db : δ) :
    (registerSteps m k bev value).settled db = (registerUsr m k bev value db).map Prod.swap := by
  simp only [registerSteps, registerUsr, settled_ask_bind]
  rcases databaseConnect m db with ⟨_ | _, db'⟩
  · simp only [Bool.false_eq_true, if_false, settled_lift_bind, Except.bind_then_map]
    rfl
  · simp only [if_true, settled_bind, checkUsrSteps_settled, Except.bind_then_map]
    apply bind_congr
    rintro ⟨known, db''⟩
    cases known with
    | true =>
        simp only [if_true, settled_lift_bind, Except.bind_then_map]
        rfl
    | false =>
        simp only [Bool.false_eq_true, if_false, settled_bind, addUsrSteps_settled, Except.bind_then_map]
        apply bind_congr
        rintro ⟨added, db₃⟩
        rw [settled_lift]
        cases sendData k bev (reply "app_register_reply" (if added then "success" else "failure")) <;> rfl

theorem loginReplySteps_settled (value : Json) (db : δ) :
    (loginReplySteps m value).settled db = loginReply m value db := by
  simp only [loginReplySteps, loginReply, settled_bind, checkUsrSteps_settled]
  apply bind_congr
  rintro ⟨known, db₁⟩
  cases known with
  | false => rfl
  | true =>
      simp only [Bool.not_true, Bool.false_eq_true, if_false, settled_bind, checkPasswordSteps_settled]
      apply bind_congr
      rintro ⟨right, db₂⟩
      cases right with
      | false => rfl
      | true =>
          simp only [Bool.not_true, Bool.false_eq_true, if_false, settled_bind, checkBindSteps_settled]
          apply bind_congr
          rintro ⟨_ | bound, db₃⟩ <;> rfl

theorem loginSteps_settled (bev : Bev) (value : Json) (db : δ) :
    (loginSteps m k bev value).settled db = (login m k bev value db).map Prod.swap := by
  unfold loginSteps login
  rw [settled_ask_bind, settled_bind, loginReplySteps_settled]
  simp only [Except.bind_then_map]
  apply bind_congr
  rintro ⟨answer, db'⟩
  rw [settled_change_bind, settled_lift_bind]
  rfl

theorem bindSteps_settled (bev : Bev) (value : Json) (db : δ) :
    (bindSteps m k bev value).settled db = (bindUsr m k bev value db).map Prod.swap := by
  unfold bindSteps bindUsr
  rw [settled_ask_bind, settled_bind, appBindSteps_settled]
  simp only [Except.bind_then_map]
  apply bind_congr
  rintro ⟨bound, db'⟩
  rw [settled_lift_bind]
  rfl

/-- Seen from outside, the statements are `ReadCb` as it was. -/
theorem readCbSteps_settled (now : Int) (opendir : Bytes → Option (List Dirent)) (bev : Bev)
    (body : Bytes) (s : State δ) :
    (readCbSteps m k now opendir bev body).settled s =
      (dispatch m k now opendir bev (k.parse body).2 s).map Prod.swap := by
  rw [readCbSteps, settled_lift_bind]
  cases touched : (k.parse body).2.touch (lit "cmd") with
  | error e => rw [dispatch, touched]; rfl
  | ok v =>
      have again := Json.touch_touch touched
      have same : dispatch m k now opendir bev (k.parse body).2 s = dispatch m k now opendir bev v s := by
        rw [dispatch, dispatch, touched, again]
      rw [same]
      change (if _ then _ else _ : Attempt Fault (State δ) (List Send)).settled s = _
      by_cases info : v.isCmd "info" = true
      · rw [if_pos info, onList, settled_zoom, devUpdateSteps_settled, dispatch, again]
        change _ = (if v.isCmd "get_music_list" = true then _ else _ : Except Fault _).map _
        rw [if_neg (Json.not_isCmd info (by decide)), if_pos info]
        cases devUpdateList k now bev v s.onlineList <;> rfl
      rw [if_neg info]
      by_cases app : v.isCmd "app_info" = true
      · rw [if_pos app, settled_bind, onList, settled_zoom, appUpdateSteps_settled, dispatch, again]
        change _ = (if v.isCmd "get_music_list" = true then _ else _ : Except Fault _).map _
        rw [if_neg (Json.not_isCmd app (by decide)), if_neg info, if_pos app]
        cases appUpdateList now bev v s.onlineList <;> rfl
      rw [if_neg app]
      by_cases register : v.isCmd "app_register" = true
      · rw [if_pos register, onDb, settled_zoom, registerSteps_settled, dispatch, again]
        change _ = (if v.isCmd "get_music_list" = true then _ else _ : Except Fault _).map _
        rw [if_neg (Json.not_isCmd register (by decide)), if_neg info, if_neg app,
          if_neg (Json.not_isCmd register (by decide)), if_neg (not_any register (by decide)),
          if_neg (not_any register (by decide)), if_pos register]
        cases registerUsr m k bev v s.db <;> rfl
      rw [if_neg register]
      by_cases log : v.isCmd "app_login" = true
      · rw [if_pos log, onDb, settled_zoom, loginSteps_settled, dispatch, again]
        change _ = (if v.isCmd "get_music_list" = true then _ else _ : Except Fault _).map _
        rw [if_neg (Json.not_isCmd log (by decide)), if_neg info, if_neg app,
          if_neg (Json.not_isCmd log (by decide)), if_neg (not_any log (by decide)),
          if_neg (not_any log (by decide)), if_neg register, if_pos log]
        cases login m k bev v s.db <;> rfl
      rw [if_neg log]
      by_cases bound : v.isCmd "app_bind" = true
      · rw [if_pos bound, onDb, settled_zoom, bindSteps_settled, dispatch, again]
        change _ = (if v.isCmd "get_music_list" = true then _ else _ : Except Fault _).map _
        rw [if_neg (Json.not_isCmd bound (by decide)), if_neg info, if_neg app,
          if_neg (Json.not_isCmd bound (by decide)), if_neg (not_any bound (by decide)),
          if_neg (not_any bound (by decide)), if_neg register, if_neg log, if_pos bound]
        cases bindUsr m k bev v s.db <;> rfl
      rw [if_neg bound, settled_whole]

end MusicPlayer.Server
