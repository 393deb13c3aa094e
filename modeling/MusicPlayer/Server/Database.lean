import MusicPlayer.Server.Registry

/-! Class `DataBase` and the account requests over it. MySQL is a parameter:
its client calls act on a state `δ` that holds the handle and the tables. -/
namespace MusicPlayer.Server
open CBytes

/-- A row of a result; a column is `none` where SQL has NULL. -/
abbrev Row := List (Option Bytes)

/-- The client library: `query` reports whether `mysql_query` returned 0. -/
structure Mysql (δ : Type) where
  realConnect : δ → Bool × δ
  query : Bytes → δ → Bool × δ
  storeResult : δ → Option (List Row) × δ
  close : δ → δ

variable {δ : Type} (m : Mysql δ)

/-- `sprintf` into `char sql[256]`. -/
def sqlText (text : Bytes) : Except Fault Bytes :=
  if text.length < 256 then .ok text else .error .outOfBounds

def databaseConnect (db : δ) : Bool × δ :=
  let (connected, db) := m.realConnect db
  if connected then m.query (lit "set names utf8;") db else (false, db)

/-- `mysql_fetch_row` on the result just stored; there may be none. -/
def fetchRow : Option (List Row) → Except Fault (Option Row)
  | none => .error .nullPointer
  | some rows => .ok rows.head?

def checkUsrExist (value : Json) (db : δ) : Except Fault (Bool × δ) := do
  let appid ← (value.member (lit "appid")).asString
  let sql ← sqlText (lit "select * from account where appid = '" ++ cstr appid ++ lit "';")
  let (_, db) := m.query sql db
  let (res, db) := m.storeResult db
  let row ← fetchRow res
  return (row.isSome, db)

def addUsr (value : Json) (db : δ) : Except Fault (Bool × δ) := do
  let appid ← (value.member (lit "appid")).asString
  let password ← (value.member (lit "password")).asString
  let sql ← sqlText (lit "insert into account (appid,password) values ('" ++ cstr appid ++
    lit "','" ++ cstr password ++ lit "');")
  return m.query sql db

/-- `row[0]`, a C string when a `std::string` is made of it; `CheckPassword` does so unchecked. -/
def firstColumn : Row → Except Fault (Option Bytes)
  | [] => .error .outOfBounds
  | column :: _ => .ok column

def checkPassword (value : Json) (db : δ) : Except Fault (Bool × δ) := do
  let appid ← (value.member (lit "appid")).asString
  let password ← (value.member (lit "password")).asString
  let sql ← sqlText (lit "select password from account where appid = '" ++ cstr appid ++ lit "';")
  let (asked, db) := m.query sql db
  if !asked then return (false, db)
  match m.storeResult db with
  | (none, db) => return (false, db)
  | (some [], db) => return (false, db)
  | (some (row :: _), db) =>
      match ← firstColumn row with
      | none => .error .nullPointer
      | some stored => return (password == cstr stored, db)

def checkBind (value : Json) (db : δ) : Except Fault (Option Bytes × δ) := do
  let appid ← (value.member (lit "appid")).asString
  let sql ← sqlText (lit "select deviceid from account where appid = '" ++ cstr appid ++ lit "';")
  let (asked, db) := m.query sql db
  if !asked then return (none, db)
  match m.storeResult db with
  | (none, db) => return (none, db)
  | (some [], db) => return (none, db)
  | (some (row :: _), db) => return ((← firstColumn row).map cstr, db)

def appBindDev (value : Json) (db : δ) : Except Fault (Bool × δ) := do
  let appid ← (value.member (lit "appid")).asString
  let deviceid ← (value.member (lit "deviceid")).asString
  let sql ← sqlText (lit "update account set deviceid = '" ++ cstr deviceid ++
    lit "' where appid = '" ++ cstr appid ++ lit "';")
  return m.query sql db

variable (k : Codec)

/-- The answer to a request: its command name and a result. -/
def reply (cmd result : String) : Json :=
  .object [(lit "cmd", .string (lit cmd)), (lit "result", .string (lit result))]

def registerUsr (bev : Bev) (value : Json) (db : δ) : Except Fault (δ × List Send) := do
  match databaseConnect m db with
  | (false, db) =>
      let sent ← sendData k bev (reply "app_register_reply" "failure")
      return (db, [sent])
  | (true, db) =>
      let (exists_, db) ← checkUsrExist m value db
      if exists_ then
        let sent ← sendData k bev (reply "app_register_reply" "failure")
        return (m.close db, [sent])
      else
        let (added, db) ← addUsr m value db
        let sent ← sendData k bev (reply "app_register_reply" (if added then "success" else "failure"))
        return (m.close db, [sent])

/-- The reply of `Login` before it is sent; the result of connecting is not looked at. -/
def loginReply (value : Json) (db : δ) : Except Fault (Json × δ) := do
  let (exists_, db) ← checkUsrExist m value db
  if !exists_ then return (reply "app_login_reply" "not_exist", db)
  let (right, db) ← checkPassword m value db
  if !right then return (reply "app_login_reply" "password_error", db)
  match ← checkBind m value db with
  | (none, db) => return (reply "app_login_reply" "not_bind", db)
  | (some deviceid, db) =>
      return (.object [(lit "cmd", .string (lit "app_login_reply")),
        (lit "deviceid", .string deviceid), (lit "result", .string (lit "bind"))], db)

def login (bev : Bev) (value : Json) (db : δ) : Except Fault (δ × List Send) := do
  let (_, db) := databaseConnect m db
  let (answer, db) ← loginReply m value db
  let sent ← sendData k bev answer
  return (m.close db, [sent])

def bindUsr (bev : Bev) (value : Json) (db : δ) : Except Fault (δ × List Send) := do
  let (_, db) := databaseConnect m db
  let (bound, db) ← appBindDev m value db
  let sent ← sendData k bev (reply "app_bind_reply" (if bound then "success" else "failure"))
  return (m.close db, [sent])

/-! ## What the database is asked -/

def selectUsr (appid : Bytes) : Bytes :=
  lit "select * from account where appid = '" ++ cstr appid ++ lit "';"

def selectPassword (appid : Bytes) : Bytes :=
  lit "select password from account where appid = '" ++ cstr appid ++ lit "';"

def selectDeviceid (appid : Bytes) : Bytes :=
  lit "select deviceid from account where appid = '" ++ cstr appid ++ lit "';"

def insertUsr (appid password : Bytes) : Bytes :=
  lit "insert into account (appid,password) values ('" ++ cstr appid ++ lit "','" ++ cstr password ++
    lit "');"

def updateUsr (appid deviceid : Bytes) : Bytes :=
  lit "update account set deviceid = '" ++ cstr deviceid ++ lit "' where appid = '" ++ cstr appid ++ lit "';"

/-- Asked for the account, the database answers whether it has it. -/
def Finds (appid : Bytes) (db : δ) (found : Bool) : Prop :=
  (selectUsr appid).length < 256 ∧
    ∃ rows, (m.storeResult (m.query (selectUsr appid) db).2).1 = some rows ∧ rows.head?.isSome = found

/-- The database once it has answered. -/
def askedUsr (appid : Bytes) (db : δ) : δ := (m.storeResult (m.query (selectUsr appid) db).2).2

/-- The first row a select comes to, where it is asked, stored and has one. -/
def firstRow (text : Bytes) (db : δ) : Option Row :=
  if (m.query text db).1 then (m.storeResult (m.query text db).2).1.bind List.head? else none

/-- The database after a select whose result is stored only if it was asked. -/
def selected (text : Bytes) (db : δ) : δ :=
  if (m.query text db).1 then (m.storeResult (m.query text db).2).2 else (m.query text db).2

/-- `CheckPassword` comes to `right`: there is no row, or its column is not NULL. -/
def PasswordRead (appid password : Bytes) (db : δ) (right : Bool) : Prop :=
  (selectPassword appid).length < 256 ∧
    (firstRow m (selectPassword appid) db = none ∧ right = false ∨
      ∃ stored rest, firstRow m (selectPassword appid) db = some (some stored :: rest) ∧
        right = (password == cstr stored))

/-- `CheckBind` comes to this device, or to none. -/
def DeviceRead (appid : Bytes) (db : δ) (device : Option Bytes) : Prop :=
  (selectDeviceid appid).length < 256 ∧
    (firstRow m (selectDeviceid appid) db = none ∧ device = none ∨
      ∃ column rest, firstRow m (selectDeviceid appid) db = some (column :: rest) ∧ device = column.map cstr)

theorem sqlText_ok {text sql : Bytes} : sqlText text = .ok sql ↔ text.length < 256 ∧ sql = text := by
  unfold sqlText
  split
  · simp [*, eq_comm]
  · simp [*]

theorem checkUsrExist_ok {v : Json} {db db' : δ} {found : Bool} :
    checkUsrExist m v db = .ok (found, db') ↔
      ∃ appid, (v.member (lit "appid")).asString = .ok appid ∧ Finds m appid db found ∧
        db' = askedUsr m appid db := by
  simp only [checkUsrExist, Except.bind_eq_ok, sqlText_ok]
  constructor
  · rintro ⟨appid, account, sql, ⟨short, rfl⟩, row, fetched, same⟩
    cases same
    refine ⟨appid, account, ⟨short, ?_⟩, rfl⟩
    cases rows : (m.storeResult (m.query (selectUsr appid) db).2).1 with
    | none => rw [selectUsr] at rows; rw [rows] at fetched; cases fetched
    | some rows' =>
        rw [selectUsr] at rows
        rw [rows] at fetched
        cases fetched
        exact ⟨rows', rfl, rfl⟩
  · rintro ⟨appid, account, ⟨short, rows, stored, rfl⟩, rfl⟩
    rw [selectUsr] at stored
    exact ⟨appid, account, _, ⟨short, rfl⟩, rows.head?, by rw [stored]; rfl, rfl⟩

theorem addUsr_ok {v : Json} {db db' : δ} {added : Bool} :
    addUsr m v db = .ok (added, db') ↔
      ∃ appid password, (v.member (lit "appid")).asString = .ok appid ∧
        (v.member (lit "password")).asString = .ok password ∧ (insertUsr appid password).length < 256 ∧
        m.query (insertUsr appid password) db = (added, db') := by
  simp only [addUsr, Except.bind_eq_ok, sqlText_ok]
  constructor
  · rintro ⟨appid, account, password, secret, sql, ⟨short, rfl⟩, same⟩
    exact ⟨appid, password, account, secret, short, Except.ok.inj same⟩
  · rintro ⟨appid, password, account, secret, short, same⟩
    exact ⟨appid, account, password, secret, _, ⟨short, rfl⟩, congrArg Except.ok same⟩

theorem appBindDev_ok {v : Json} {db db' : δ} {bound : Bool} :
    appBindDev m v db = .ok (bound, db') ↔
      ∃ appid deviceid, (v.member (lit "appid")).asString = .ok appid ∧
        (v.member (lit "deviceid")).asString = .ok deviceid ∧ (updateUsr appid deviceid).length < 256 ∧
        m.query (updateUsr appid deviceid) db = (bound, db') := by
  simp only [appBindDev, Except.bind_eq_ok, sqlText_ok]
  constructor
  · rintro ⟨appid, account, deviceid, device, sql, ⟨short, rfl⟩, same⟩
    exact ⟨appid, deviceid, account, device, short, Except.ok.inj same⟩
  · rintro ⟨appid, deviceid, account, device, short, same⟩
    exact ⟨appid, account, deviceid, device, _, ⟨short, rfl⟩, congrArg Except.ok same⟩

/-- The two functions that look at a column go by the first row of their select. -/
theorem checkPassword_eq {v : Json} {db : δ} {appid password : Bytes}
    (account : (v.member (lit "appid")).asString = .ok appid)
    (secret : (v.member (lit "password")).asString = .ok password) (short : (selectPassword appid).length < 256) :
    checkPassword m v db = match firstRow m (selectPassword appid) db with
      | none => .ok (false, selected m (selectPassword appid) db)
      | some row => do
          match ← firstColumn row with
          | none => .error .nullPointer
          | some stored => return (password == cstr stored, selected m (selectPassword appid) db) := by
  have sql : sqlText (selectPassword appid) = .ok (selectPassword appid) := sqlText_ok.mpr ⟨short, rfl⟩
  rw [checkPassword, account, Except.ok_bind, secret, Except.ok_bind]
  change (sqlText (selectPassword appid) >>= _) = _
  rw [sql, Except.ok_bind, firstRow, selected]
  rcases m.query (selectPassword appid) db with ⟨_ | _, db₁⟩
  · rfl
  · rcases stored : m.storeResult db₁ with ⟨_ | _ | ⟨row, rows⟩, db₂⟩
    · simp [stored, pure, Except.pure]
    · simp [stored, pure, Except.pure]
    · simp [stored]

theorem checkBind_eq {v : Json} {db : δ} {appid : Bytes} (account : (v.member (lit "appid")).asString = .ok appid)
    (short : (selectDeviceid appid).length < 256) :
    checkBind m v db = match firstRow m (selectDeviceid appid) db with
      | none => .ok (none, selected m (selectDeviceid appid) db)
      | some row => do return ((← firstColumn row).map cstr, selected m (selectDeviceid appid) db) := by
  have sql : sqlText (selectDeviceid appid) = .ok (selectDeviceid appid) := sqlText_ok.mpr ⟨short, rfl⟩
  rw [checkBind, account, Except.ok_bind]
  change (sqlText (selectDeviceid appid) >>= _) = _
  rw [sql, Except.ok_bind, firstRow, selected]
  rcases m.query (selectDeviceid appid) db with ⟨_ | _, db₁⟩
  · rfl
  · rcases stored : m.storeResult db₁ with ⟨_ | _ | ⟨row, rows⟩, db₂⟩
    · simp [stored, pure, Except.pure]
    · simp [stored, pure, Except.pure]
    · simp [stored]

theorem checkPassword_ok {v : Json} {db db' : δ} {right : Bool} :
    checkPassword m v db = .ok (right, db') ↔
      ∃ appid password, (v.member (lit "appid")).asString = .ok appid ∧
        (v.member (lit "password")).asString = .ok password ∧ PasswordRead m appid password db right ∧
        db' = selected m (selectPassword appid) db := by
  constructor
  · intro h
    obtain ⟨appid, account, rest⟩ := Except.bind_eq_ok.mp (show _ >>= _ = _ from h)
    obtain ⟨password, secret, rest⟩ := Except.bind_eq_ok.mp rest
    obtain ⟨sql, made, -⟩ := Except.bind_eq_ok.mp rest
    have short : (selectPassword appid).length < 256 := (sqlText_ok.mp made).1
    rw [checkPassword_eq m account secret short] at h
    refine ⟨appid, password, account, secret, ?_⟩
    split at h
    next none =>
      cases h
      exact ⟨⟨short, .inl ⟨none, rfl⟩⟩, rfl⟩
    next row found =>
      rcases row with _ | ⟨_ | stored, columns⟩
      · cases h
      · cases h
      · cases h
        exact ⟨⟨short, .inr ⟨stored, columns, found, rfl⟩⟩, rfl⟩
  · rintro ⟨appid, password, account, secret, ⟨short, ⟨none, rfl⟩ | ⟨stored, rest, found, rfl⟩⟩, rfl⟩
    · rw [checkPassword_eq m account secret short, none]
    · rw [checkPassword_eq m account secret short, found]
      rfl

theorem checkBind_ok {v : Json} {db db' : δ} {device : Option Bytes} :
    checkBind m v db = .ok (device, db') ↔
      ∃ appid, (v.member (lit "appid")).asString = .ok appid ∧ DeviceRead m appid db device ∧
        db' = selected m (selectDeviceid appid) db := by
  constructor
  · intro h
    obtain ⟨appid, account, rest⟩ := Except.bind_eq_ok.mp (show _ >>= _ = _ from h)
    obtain ⟨sql, made, -⟩ := Except.bind_eq_ok.mp rest
    have short : (selectDeviceid appid).length < 256 := (sqlText_ok.mp made).1
    rw [checkBind_eq m account short] at h
    refine ⟨appid, account, ?_⟩
    split at h
    next none =>
      cases h
      exact ⟨⟨short, .inl ⟨none, rfl⟩⟩, rfl⟩
    next row found =>
      rcases row with _ | ⟨column, columns⟩
      · cases h
      · cases h
        exact ⟨⟨short, .inr ⟨column, columns, found, rfl⟩⟩, rfl⟩
  · rintro ⟨appid, account, ⟨short, ⟨none, rfl⟩ | ⟨column, rest, found, rfl⟩⟩, rfl⟩
    · rw [checkBind_eq m account short, none]
    · rw [checkBind_eq m account short, found]
      rfl

/-! The account requests answer on the connection they came from and nowhere else. -/

theorem registerUsr_sent {bev : Bev} {value : Json} {db db' : δ} {sent : List Send}
    (h : registerUsr m k bev value db = .ok (db', sent)) : SentTo (· = bev) sent := by
  unfold registerUsr at h
  rcases connect : databaseConnect m db with ⟨connected, db₁⟩
  rw [connect] at h
  cases connected with
  | false =>
      simp only [Except.bind_eq_ok] at h
      obtain ⟨s, sends, h⟩ := h
      cases h
      exact sentTo_singleton k rfl sends
  | true =>
      simp only [Except.bind_eq_ok] at h
      obtain ⟨⟨found, db₂⟩, -, h⟩ := h
      split at h
      · simp only [Except.bind_eq_ok] at h
        obtain ⟨s, sends, h⟩ := h
        cases h
        exact sentTo_singleton k rfl sends
      · simp only [Except.bind_eq_ok] at h
        obtain ⟨⟨added, db₃⟩, -, s, sends, h⟩ := h
        cases h
        exact sentTo_singleton k rfl sends

theorem login_sent {bev : Bev} {value : Json} {db db' : δ} {sent : List Send}
    (h : login m k bev value db = .ok (db', sent)) : SentTo (· = bev) sent := by
  simp only [login, Except.bind_eq_ok] at h
  obtain ⟨⟨answer, db₁⟩, -, s, sends, h⟩ := h
  cases h
  exact sentTo_singleton k rfl sends

theorem bindUsr_sent {bev : Bev} {value : Json} {db db' : δ} {sent : List Send}
    (h : bindUsr m k bev value db = .ok (db', sent)) : SentTo (· = bev) sent := by
  simp only [bindUsr, Except.bind_eq_ok] at h
  obtain ⟨⟨bound, db₁⟩, -, s, sends, h⟩ := h
  cases h
  exact sentTo_singleton k rfl sends

end MusicPlayer.Server
