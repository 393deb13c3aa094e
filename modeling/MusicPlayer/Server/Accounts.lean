import MusicPlayer.Server.Statements

/-! The account table as MySQL keeps it for the server, with the calls of its
client that may fail, and what the five functions of class `DataBase` make of it. -/
namespace MusicPlayer.Server
open CBytes Quoted

/-! ## The requests as far as their answers -/

section Requests
variable {δ : Type} (m : Mysql δ) (k : Codec)

/-- `RegisterUsr` with the answer it sends. -/
def registerReply (value : Json) (db : δ) : Except Fault (Json × δ) :=
  match databaseConnect m db with
  | (false, db) => .ok (reply "app_register_reply" "failure", db)
  | (true, db) => do
      let (exists_, db) ← checkUsrExist m value db
      if exists_ then return (reply "app_register_reply" "failure", m.close db)
      else
        let (added, db) ← addUsr m value db
        return (reply "app_register_reply" (if added then "success" else "failure"), m.close db)

/-- `Login` with the answer it sends. -/
def loginAnswer (value : Json) (db : δ) : Except Fault (Json × δ) := do
  let (_, db) := databaseConnect m db
  let (answer, db) ← loginReply m value db
  return (answer, m.close db)

/-- `BindUsr` with the answer it sends. -/
def bindReply (value : Json) (db : δ) : Except Fault (Json × δ) := do
  let (_, db) := databaseConnect m db
  let (bound, db) ← appBindDev m value db
  return (reply "app_bind_reply" (if bound then "success" else "failure"), m.close db)

theorem registerUsr_eq (bev : Bev) (value : Json) (db : δ) :
    registerUsr m k bev value db = (do
      let (answer, db) ← registerReply m value db
      let sent ← sendData k bev answer
      return (db, [sent])) := by
  unfold registerUsr registerReply
  rcases databaseConnect m db with ⟨_ | _, db₁⟩
  · rfl
  · dsimp only
    cases checkUsrExist m value db₁ with
    | error e => rfl
    | ok found =>
        obtain ⟨_ | _, db₂⟩ := found
        · dsimp only [bind, Except.bind]
          cases addUsr m value db₂ with
          | error e => rfl
          | ok added => rfl
        · rfl

theorem login_eq (bev : Bev) (value : Json) (db : δ) :
    login m k bev value db = (do
      let (answer, db) ← loginAnswer m value db
      let sent ← sendData k bev answer
      return (db, [sent])) := by
  unfold login loginAnswer
  rcases databaseConnect m db with ⟨connected, db₁⟩
  dsimp only
  cases loginReply m value db₁ with
  | error e => rfl
  | ok found => rfl

theorem bindUsr_eq (bev : Bev) (value : Json) (db : δ) :
    bindUsr m k bev value db = (do
      let (answer, db) ← bindReply m value db
      let sent ← sendData k bev answer
      return (db, [sent])) := by
  unfold bindUsr bindReply
  rcases databaseConnect m db with ⟨connected, db₁⟩
  dsimp only
  cases appBindDev m value db₁ with
  | error e => rfl
  | ok bound => rfl

def accountCommands : List String := ["app_register", "app_login", "app_bind"]

/-- The branches of `ReadCb` for the account requests. -/
def requestReply (value : Json) (db : δ) : Except Fault (Json × δ) :=
  if value.isCmd "app_register" then registerReply m value db
  else if value.isCmd "app_login" then loginAnswer m value db
  else bindReply m value db

/-- A request and what it is answered. -/
structure Exchange where
  value : Json
  answer : Json

/-- One account request after another, on whatever connections they come. -/
def Served (db : δ) (x : Exchange) (db' : δ) : Prop :=
  accountCommands.any x.value.isCmd = true ∧ requestReply m x.value db = .ok (x.answer, db')

end Requests

/-! ## The table -/

structure Account where
  appid : Bytes
  password : Bytes
  deviceid : Option Bytes
  deriving DecidableEq

/-- The table, in the order of insertion. -/
abbrev Accounts := List Account

def Account.row (x : Account) : Columns → Row
  | .all => [some x.appid, some x.password, x.deviceid]
  | .password => [some x.password]
  | .deviceid => [x.deviceid]

/-- The rows of an appid. -/
def rowsOf (appid : Bytes) (l : Accounts) : Accounts := l.filter (·.appid = appid)

def Statement.run (l : Accounts) : Statement → Accounts
  | .select _ _ => l
  | .insert appid password => l ++ [⟨appid, password, none⟩]
  | .update deviceid appid =>
      l.map fun x => if x.appid = appid then { x with deviceid := some deviceid } else x

def Statement.result (l : Accounts) : Statement → Option (Columns × List Row)
  | .select columns appid => some (columns, (rowsOf appid l).map fun x => x.row columns)
  | .insert _ _ => none
  | .update _ _ => none

theorem mem_rowsOf {x : Account} {appid : Bytes} {l : Accounts} : x ∈ rowsOf appid l ↔ x ∈ l ∧ x.appid = appid := by
  simp [rowsOf]

theorem rowsOf_insert (appid password other : Bytes) (l : Accounts) :
    rowsOf other ((Statement.insert appid password).run l) =
      rowsOf other l ++ if appid = other then [⟨appid, password, none⟩] else [] := by
  simp only [rowsOf, Statement.run, List.filter_append]
  by_cases same : appid = other <;> simp [same]

theorem rowsOf_update (deviceid appid other : Bytes) (l : Accounts) :
    rowsOf other ((Statement.update deviceid appid).run l) =
      if appid = other then (rowsOf other l).map fun x => { x with deviceid := some deviceid }
      else rowsOf other l := by
  have keeps : ∀ x : Account,
      (if x.appid = appid then { x with deviceid := some deviceid } else x).appid = x.appid := by
    intro x
    split <;> rfl
  rw [rowsOf, Statement.run, List.filter_map]
  simp only [Function.comp_def, keeps]
  by_cases same : appid = other
  · rw [if_pos same]
    refine List.map_congr_left fun x member => if_pos ?_
    rw [(mem_rowsOf.mp member).2, same]
  · rw [if_neg same]
    conv => rhs; rw [← List.map_id (rowsOf other l)]
    refine List.map_congr_left fun x member => if_neg ?_
    rw [(mem_rowsOf.mp member).2]
    exact fun eq => same eq.symm

/-- Characters of UTF-8: the bytes that do not go on with one. -/
def characters (value : Bytes) : Nat := (value.filter fun b => b < 128 ∨ 192 ≤ b).length

/-- A column of `n` characters of at most three bytes each holds the value. -/
def fitsColumn (n : Nat) (value : Bytes) : Bool := characters value ≤ n && value.length ≤ 3 * n

/-- The columns a statement writes hold its values. -/
def Statement.fits : Statement → Bool
  | .select _ _ => true
  | .insert appid password => fitsColumn 11 appid && fitsColumn 16 password
  | .update deviceid _ => fitsColumn 8 deviceid

/-! ## The client -/

/-- The calls that may fail. -/
inductive Operation
  | connect
  | setNames
  | query (kind : Kind)
  | store (columns : Columns)
  deriving DecidableEq

/-- The table, whether the handle is connected, and the result set that waits to be stored. -/
structure Database where
  accounts : Accounts
  connected : Bool
  result : Option (Columns × List Row)
  deriving DecidableEq

/-- The table between two requests. -/
def Database.closed (accounts : Accounts) : Database := ⟨accounts, false, none⟩

def setNames : Bytes := lit "set names utf8;"

/-- `fails` says which calls fail, `other` what becomes of a text that is none of
the statements or has values too long for their columns. -/
def mysql (fails : Operation → Bool) (other : Bytes → Database → Bool × Database) : Mysql Database where
  realConnect db := (!fails .connect, ⟨db.accounts, !fails .connect, none⟩)
  query text db :=
    if db.connected = false then (false, { db with result := none })
    else if text = setNames then (!fails .setNames, { db with result := none })
    else
      match readStatement text with
      | none => other text db
      | some st =>
          if fails (.query st.kind) then (false, { db with result := none })
          else if st.fits then (true, { db with accounts := st.run db.accounts, result := st.result db.accounts })
          else other text db
  storeResult db :=
    match db.result with
    | none => (none, db)
    | some (columns, rows) =>
        (if fails (.store columns) then none else some rows, { db with result := none })
  close db := ⟨db.accounts, false, none⟩

/-- A database that refuses every other text. -/
def refuse (_ : Bytes) (db : Database) : Bool × Database := (false, db)

variable {fails : Operation → Bool} {other : Bytes → Database → Bool × Database}

/-- MySQL reads the statement as it was built, and its values fit. -/
def Statement.Understood (st : Statement) : Prop := Faithful st ∧ st.fits = true

/-- The statement's text fits its buffer, and a connected database understands it. -/
def Given (db : Database) (st : Statement) : Prop := st.text.length < 256 ∧ (db.connected = true → st.Understood)

theorem Statement.Understood.given {st : Statement} (understood : st.Understood) (db : Database) : Given db st :=
  ⟨understood.1.1, fun _ => understood⟩

theorem not_setNames {st : Statement} (faithful : Faithful st) : st.text ≠ setNames := by
  intro same
  have unread : readStatement setNames = none := by decide
  have read := faithful.2
  rw [same, unread] at read
  cases read

theorem query_given {st : Statement} {db : Database} (given : Given db st) :
    (mysql fails other).query st.text db =
      if db.connected && !fails (.query st.kind) then
        (true, { db with accounts := st.run db.accounts, result := st.result db.accounts })
      else (false, { db with result := none }) := by
  cases up : db.connected with
  | false => simp only [mysql, up, if_true, Bool.false_and, Bool.false_eq_true, if_false]
  | true =>
      obtain ⟨faithful, fits⟩ := given.2 up
      simp only [mysql, not_setNames faithful, faithful.2, fits, up, if_false, if_true, Bool.true_eq_false]
      cases fails (.query st.kind) <;> rfl

theorem sqlText_given (st : Statement) {db : Database} (given : Given db st.heard) :
    sqlText st.text = .ok st.heard.text := by
  rw [text_heard]
  exact sqlText_ok.mpr ⟨text_heard st ▸ given.1, rfl⟩

theorem databaseConnect_mysql (db : Database) :
    databaseConnect (mysql fails other) db =
      (!fails .connect && !fails .setNames, ⟨db.accounts, !fails .connect, none⟩) := by
  cases up : fails .connect with
  | true => simp [databaseConnect, mysql, up]
  | false =>
      have names : lit "set names utf8;" = setNames := rfl
      simp [databaseConnect, mysql, up, names]

/-! ## The five functions -/

/-- Both calls of a select come through. -/
def answering (fails : Operation → Bool) (columns : Columns) : Bool :=
  !fails (.query (.select columns)) && !fails (.store columns)

/-- What the two calls of a select come to. -/
theorem select_mysql (fails : Operation → Bool) (other : Bytes → Database → Bool × Database)
    {columns : Columns} {appid : Bytes} {db : Database} (given : Given db (.select columns appid)) :
    ∃ db', (mysql fails other).query (Statement.select columns appid).text db =
        (db.connected && !fails (.query (.select columns)), db') ∧
      (mysql fails other).storeResult db' = (if db.connected && answering fails columns
        then some ((rowsOf appid db.accounts).map fun x => x.row columns) else none,
        { db with result := none }) ∧
      ((db.connected && !fails (.query (.select columns))) = false → db' = { db with result := none }) := by
  rw [query_given given]
  unfold answering Statement.kind
  rw [← Bool.and_assoc]
  cases db.connected && !fails (.query (.select columns)) with
  | false => exact ⟨_, rfl, rfl, fun _ => rfl⟩
  | true =>
      refine ⟨_, rfl, ?_, fun unasked => nomatch unasked⟩
      simp only [mysql, Statement.run, Statement.result]
      cases fails (.store columns) <;> rfl

section Functions
variable {value : Json} {appid password deviceid : Bytes} {db : Database}
  (account : (value.member (lit "appid")).asString = .ok appid)
include account

theorem checkUsrExist_mysql (given : Given db (.select .all (cstr appid))) :
    checkUsrExist (mysql fails other) value db =
      if db.connected && answering fails .all then
        .ok (!(rowsOf (cstr appid) db.accounts).isEmpty, { db with result := none })
      else .error .nullPointer := by
  obtain ⟨db', asked, stored, -⟩ := select_mysql fails other given
  have sql : sqlText (selectUsr appid) = .ok (Statement.select .all (cstr appid)).text :=
    sqlText_given (.select .all appid) given
  unfold selectUsr at sql
  rw [checkUsrExist, account, Except.ok_bind, sql, Except.ok_bind]
  simp only [asked, stored]
  cases db.connected && answering fails .all with
  | false => rfl
  | true => cases rowsOf (cstr appid) db.accounts <;> rfl

theorem checkPassword_mysql (secret : (value.member (lit "password")).asString = .ok password)
    (given : Given db (.select .password (cstr appid))) :
    checkPassword (mysql fails other) value db =
      .ok (db.connected && answering fails .password &&
          (rowsOf (cstr appid) db.accounts).head?.any (password == cstr ·.password),
        { db with result := none }) := by
  obtain ⟨db', asked, stored, unasked⟩ := select_mysql fails other given
  have sql : sqlText (selectPassword appid) = .ok (Statement.select .password (cstr appid)).text :=
    sqlText_given (.select .password appid) given
  unfold selectPassword at sql
  rw [checkPassword, account, Except.ok_bind, secret, Except.ok_bind, sql, Except.ok_bind]
  simp only [asked, stored]
  unfold answering
  rw [← Bool.and_assoc]
  cases sent : db.connected && !fails (.query (.select .password)) with
  | false =>
      rw [unasked sent]
      rfl
  | true =>
      cases fails (.store .password) with
      | true => rfl
      | false => cases rowsOf (cstr appid) db.accounts <;> rfl

theorem checkBind_mysql (given : Given db (.select .deviceid (cstr appid))) :
    checkBind (mysql fails other) value db =
      .ok (if db.connected && answering fails .deviceid then
          (rowsOf (cstr appid) db.accounts).head?.bind fun x => x.deviceid.map cstr else none,
        { db with result := none }) := by
  obtain ⟨db', asked, stored, unasked⟩ := select_mysql fails other given
  have sql : sqlText (selectDeviceid appid) = .ok (Statement.select .deviceid (cstr appid)).text :=
    sqlText_given (.select .deviceid appid) given
  unfold selectDeviceid at sql
  rw [checkBind, account, Except.ok_bind, sql, Except.ok_bind]
  simp only [asked, stored]
  unfold answering
  rw [← Bool.and_assoc]
  cases sent : db.connected && !fails (.query (.select .deviceid)) with
  | false =>
      rw [unasked sent]
      rfl
  | true =>
      cases fails (.store .deviceid) with
      | true => rfl
      | false => cases rowsOf (cstr appid) db.accounts <;> rfl

/-- What the one call of an insert or an update comes to. -/
def changed (works : Bool) (st : Statement) (db : Database) : Bool × Database :=
  if db.connected && works then (true, ⟨st.run db.accounts, db.connected, none⟩)
  else (false, { db with result := none })

theorem addUsr_mysql (secret : (value.member (lit "password")).asString = .ok password)
    (given : Given db (.insert (cstr appid) (cstr password))) :
    addUsr (mysql fails other) value db =
      .ok (changed (!fails (.query .insert)) (.insert (cstr appid) (cstr password)) db) := by
  have sql : sqlText (insertUsr appid password) = .ok (Statement.insert (cstr appid) (cstr password)).text :=
    sqlText_given (.insert appid password) given
  unfold insertUsr at sql
  rw [addUsr, account, Except.ok_bind, secret, Except.ok_bind, sql, Except.ok_bind, query_given given]
  rfl

theorem appBindDev_mysql (device : (value.member (lit "deviceid")).asString = .ok deviceid)
    (given : Given db (.update (cstr deviceid) (cstr appid))) :
    appBindDev (mysql fails other) value db =
      .ok (changed (!fails (.query .update)) (.update (cstr deviceid) (cstr appid)) db) := by
  have sql : sqlText (updateUsr appid deviceid) = .ok (Statement.update (cstr deviceid) (cstr appid)).text :=
    sqlText_given (.update deviceid appid) given
  unfold updateUsr at sql
  rw [appBindDev, account, Except.ok_bind, device, Except.ok_bind, sql, Except.ok_bind, query_given given]
  rfl

end Functions

/-! ## A request and its outcome -/

/-- The account requests with the fields their handlers read. -/
inductive Request
  | register (appid password : Bytes)
  | login (appid password : Bytes)
  | bind (appid deviceid : Bytes)
  deriving DecidableEq

/-- The message is this request. -/
def Asks (value : Json) : Request → Prop
  | .register appid password => value.isCmd "app_register" = true ∧
      (value.member (lit "appid")).asString = .ok appid ∧
      (value.member (lit "password")).asString = .ok password
  | .login appid password => value.isCmd "app_login" = true ∧
      (value.member (lit "appid")).asString = .ok appid ∧
      (value.member (lit "password")).asString = .ok password
  | .bind appid deviceid => value.isCmd "app_bind" = true ∧
      (value.member (lit "appid")).asString = .ok appid ∧
      (value.member (lit "deviceid")).asString = .ok deviceid

/-- The request as its statements have it, each field up to its first zero byte.
The password of a login stands in none of them. -/
def Request.heard : Request → Request
  | .register appid password => .register (cstr appid) (cstr password)
  | .login appid password => .login (cstr appid) password
  | .bind appid deviceid => .bind (cstr appid) (cstr deviceid)

/-- `DatabaseConnect` returns true. -/
def opens (fails : Operation → Bool) : Bool := !fails .connect && !fails .setNames

def bindAnswer (deviceid : Bytes) : Json :=
  .object [(lit "cmd", .string (lit "app_login_reply")), (lit "deviceid", .string deviceid),
    (lit "result", .string (lit "bind"))]

/-- What `Login` answers from the rows of the appid, where the selects of the
password and of the deviceid are answered or not. -/
def verdict (password : Bytes) (checked looked : Bool) : Accounts → Json
  | [] => reply "app_login_reply" "not_exist"
  | x :: _ =>
      if checked && password == cstr x.password then
        match if looked then x.deviceid.map cstr else none with
        | none => reply "app_login_reply" "not_bind"
        | some deviceid => bindAnswer deviceid
      else reply "app_login_reply" "password_error"

/-- What a request comes to on a table, if it is understood. -/
def Request.outcome (fails : Operation → Bool) (l : Accounts) : Request → Except Fault (Json × Database)
  | .register appid password =>
      if opens fails = false then .ok (reply "app_register_reply" "failure", ⟨l, !fails .connect, none⟩)
      else if answering fails .all = false then .error .nullPointer
      else if rowsOf appid l = [] ∧ fails (.query .insert) = false then
        .ok (reply "app_register_reply" "success", .closed ((Statement.insert appid password).run l))
      else .ok (reply "app_register_reply" "failure", .closed l)
  | .login appid password =>
      if !fails .connect && answering fails .all then
        .ok (verdict password (answering fails .password) (answering fails .deviceid) (rowsOf appid l), .closed l)
      else .error .nullPointer
  | .bind appid deviceid =>
      if !fails .connect && !fails (.query .update) then
        .ok (reply "app_bind_reply" "success", .closed ((Statement.update deviceid appid).run l))
      else .ok (reply "app_bind_reply" "failure", .closed l)

/-- The texts the request comes to fit their buffers, and the database
understands those it is given. -/
def Request.Read (fails : Operation → Bool) (l : Accounts) : Request → Prop
  | .register appid password => opens fails = true → (Statement.select .all appid).Understood ∧
      (answering fails .all = true → rowsOf appid l = [] → (Statement.insert appid password).Understood)
  | .login appid _ => (selectUsr appid).length < 256 ∧ (fails .connect = false →
      (Statement.select .all appid).Understood ∧ (answering fails .all = true → rowsOf appid l ≠ [] →
        (Statement.select .password appid).Understood ∧ (Statement.select .deviceid appid).Understood))
  | .bind appid deviceid => (updateUsr appid deviceid).length < 256 ∧
      (fails .connect = false → (Statement.update deviceid appid).Understood)

theorem reply_inj {cmd result cmd' result' : String} (h : reply cmd result = reply cmd' result') :
    lit result = lit result' := by
  unfold reply at h
  simp only [Json.object.injEq, List.cons.injEq, Prod.mk.injEq, Json.string.injEq, true_and, and_true] at h
  exact h.2

theorem bindAnswer_ne_reply {deviceid : Bytes} {cmd result : String} : bindAnswer deviceid ≠ reply cmd result := by
  intro same
  injection same with members
  injection members with _ rest
  injection rest with _ none
  cases none

theorem bindAnswer_inj {deviceid other : Bytes} (h : bindAnswer deviceid = bindAnswer other) : deviceid = other := by
  unfold bindAnswer at h
  simp only [Json.object.injEq, List.cons.injEq, Prod.mk.injEq, Json.string.injEq, true_and, and_true] at h
  exact h

/-- What a login is told, in the three cases. -/
theorem verdict_cases (password : Bytes) (checked looked : Bool) (rows : Accounts) :
    rows = [] ∧ verdict password checked looked rows = reply "app_login_reply" "not_exist" ∨
    ∃ first rest, rows = first :: rest ∧
      ((¬ (checked = true ∧ cstr first.password = password) ∧
          verdict password checked looked rows = reply "app_login_reply" "password_error") ∨
        (checked = true ∧ cstr first.password = password) ∧
          ((¬ (looked = true ∧ first.deviceid ≠ none) ∧
              verdict password checked looked rows = reply "app_login_reply" "not_bind") ∨
            looked = true ∧ ∃ deviceid, first.deviceid = some deviceid ∧
              verdict password checked looked rows = bindAnswer (cstr deviceid))) := by
  cases rows with
  | nil => exact .inl ⟨rfl, rfl⟩
  | cons first rest =>
      refine .inr ⟨first, rest, rfl, ?_⟩
      simp only [verdict, Bool.and_eq_true, beq_iff_eq, eq_comm (a := password)]
      by_cases right : checked = true ∧ cstr first.password = password
      · rw [if_pos right]
        refine .inr ⟨right, ?_⟩
        cases looked with
        | false => exact .inl ⟨fun known => (nomatch known.1), rfl⟩
        | true =>
            cases bound : first.deviceid with
            | none => exact .inl ⟨fun known => known.2 rfl, rfl⟩
            | some deviceid => exact .inr ⟨rfl, deviceid, rfl, rfl⟩
      · rw [if_neg right]
        exact .inl ⟨right, rfl⟩

/-! ## The three requests -/

section Requests
variable {value : Json} {appid password deviceid : Bytes} {db : Database}
  (account : (value.member (lit "appid")).asString = .ok appid)
include account

theorem registerReply_mysql (secret : (value.member (lit "password")).asString = .ok password)
    (read : (Request.register (cstr appid) (cstr password)).Read fails db.accounts) :
    registerReply (mysql fails other) value db =
      (Request.register (cstr appid) (cstr password)).outcome fails db.accounts := by
  unfold registerReply Request.outcome
  unfold Request.Read at read
  rw [databaseConnect_mysql, show (!fails .connect && !fails .setNames) = opens fails from rfl]
  cases up : opens fails with
  | false => rfl
  | true =>
      obtain ⟨select, insert⟩ := read up
      have connected : (!fails .connect) = true := (Bool.and_eq_true_iff.mp up).1
      simp only [checkUsrExist_mysql account (select.given _), connected, Bool.true_and, Bool.true_eq_false, if_false]
      cases found : answering fails .all with
      | false => rfl
      | true =>
          simp only [if_true, Except.ok_bind]
          cases rows : rowsOf (cstr appid) db.accounts with
          | cons x rest => rfl
          | nil =>
              simp only [addUsr_mysql account secret ((insert found rows).given _)]
              cases fails (.query .insert) <;> rfl

theorem loginAnswer_mysql (secret : (value.member (lit "password")).asString = .ok password)
    (read : (Request.login (cstr appid) password).Read fails db.accounts) :
    loginAnswer (mysql fails other) value db =
      (Request.login (cstr appid) password).outcome fails db.accounts := by
  unfold loginAnswer loginReply Request.outcome
  obtain ⟨short, selects⟩ := read
  rw [databaseConnect_mysql]
  have given : Given ⟨db.accounts, !fails .connect, none⟩ (.select .all (cstr appid)) :=
    ⟨short, fun connected => (selects (by simpa using connected)).1⟩
  simp only [checkUsrExist_mysql account given]
  cases connect : fails .connect with
  | true => rfl
  | false =>
      simp only [Bool.not_false, Bool.true_and]
      cases found : answering fails .all with
      | false => rfl
      | true =>
          simp only [if_true, Except.ok_bind]
          cases rows : rowsOf (cstr appid) db.accounts with
          | nil => rfl
          | cons x rest =>
              obtain ⟨right, known⟩ := (selects connect).2 found (by rw [rows]; exact List.cons_ne_nil _ _)
              simp only [checkPassword_mysql account secret (right.given _), rows, verdict, List.isEmpty_cons,
                Bool.not_false, Bool.not_true, Bool.false_eq_true, if_false, Bool.true_and, List.head?_cons,
                Option.any_some, Except.ok_bind]
              cases answering fails .password && password == cstr x.password with
              | false => rfl
              | true =>
                  simp only [checkBind_mysql account (known.given _), rows, Bool.not_true, Bool.false_eq_true,
                    if_false, if_true, Bool.true_and, List.head?_cons, Option.bind_some, Except.ok_bind]
                  cases if answering fails .deviceid = true then x.deviceid.map cstr else none with
                  | none => rfl
                  | some deviceid => rfl

theorem bindReply_mysql (device : (value.member (lit "deviceid")).asString = .ok deviceid)
    (read : (Request.bind (cstr appid) (cstr deviceid)).Read fails db.accounts) :
    bindReply (mysql fails other) value db =
      (Request.bind (cstr appid) (cstr deviceid)).outcome fails db.accounts := by
  unfold bindReply Request.outcome
  have given : Given ⟨db.accounts, !fails .connect, none⟩ (.update (cstr deviceid) (cstr appid)) :=
    ⟨read.1, fun connected => read.2 (by simpa using connected)⟩
  simp only [databaseConnect_mysql, appBindDev_mysql account device given, Except.ok_bind]
  cases fails .connect with
  | true => rfl
  | false => cases fails (.query .update) <;> rfl

end Requests

theorem requestReply_heard {value : Json} {q : Request} (asks : Asks value q) {db : Database}
    (read : q.heard.Read fails db.accounts) :
    requestReply (mysql fails other) value db = q.heard.outcome fails db.accounts := by
  unfold requestReply
  cases q with
  | register appid password =>
      obtain ⟨cmd, account, secret⟩ := asks
      rw [if_pos cmd]
      exact registerReply_mysql account secret read
  | login appid password =>
      obtain ⟨cmd, account, secret⟩ := asks
      rw [if_neg (Json.not_isCmd cmd (by decide)), if_pos cmd]
      exact loginAnswer_mysql account secret read
  | bind appid deviceid =>
      obtain ⟨cmd, account, device⟩ := asks
      rw [if_neg (Json.not_isCmd cmd (by decide)), if_neg (Json.not_isCmd cmd (by decide))]
      exact bindReply_mysql account device read

/-! ## Requests that are understood -/

/-- The statements its handler may ask the database. -/
def Request.statements : Request → List Statement
  | .register appid password => [.select .all appid, .insert appid password]
  | .login appid _ => [.select .all appid, .select .password appid, .select .deviceid appid]
  | .bind appid deviceid => [.update deviceid appid]

/-- MySQL reads the statements as they were built, and their values fit. -/
def Request.Understood (q : Request) : Prop := ∀ st ∈ q.statements, st.Understood

theorem whole_of_faithful {st : Statement} (faithful : Faithful st) : ∀ field ∈ st.fields, cstr field = field :=
  fun field member => cstr_eq_self (((faithful_iff st).mp faithful).1 field member).1

/-- What is understood has no zero byte to end it early. -/
theorem Request.Understood.heard {q : Request} (understood : q.Understood) : q.heard = q := by
  unfold Request.Understood at understood
  cases q with
  | register appid password =>
      have whole := whole_of_faithful (understood (.insert appid password) (.tail _ (.head _))).1
      rw [Request.heard, whole appid (.head _), whole password (.tail _ (.head _))]
  | login appid password =>
      rw [Request.heard, whole_of_faithful (understood (.select .all appid) (.head _)).1 appid (.head _)]
  | bind appid deviceid =>
      have whole := whole_of_faithful (understood (.update deviceid appid) (.head _)).1
      rw [Request.heard, whole deviceid (.head _), whole appid (.tail _ (.head _))]

theorem Request.Understood.read {q : Request} (understood : q.Understood) (fails : Operation → Bool)
    (l : Accounts) : q.Read fails l := by
  unfold Request.Understood at understood
  cases q with
  | register appid password =>
      simp only [Request.statements, List.forall_mem_cons] at understood
      exact fun _ => ⟨understood.1, fun _ _ => understood.2.1⟩
  | login appid password =>
      simp only [Request.statements, List.forall_mem_cons] at understood
      exact ⟨understood.1.1.1, fun _ => ⟨understood.1, fun _ _ => ⟨understood.2.1, understood.2.2.1⟩⟩⟩
  | bind appid deviceid =>
      simp only [Request.statements, List.forall_mem_cons] at understood
      exact ⟨understood.1.1.1, fun _ => understood.1⟩

theorem requestReply_mysql {value : Json} {q : Request} (asks : Asks value q) (understood : q.Understood)
    (db : Database) : requestReply (mysql fails other) value db = q.outcome fails db.accounts := by
  have read := understood.read fails db.accounts
  rw [← understood.heard] at read
  rw [requestReply_heard asks read, understood.heard]

/-- A value that a column of `n` characters holds as it is sent. -/
def Plain (n : Nat) (value : Bytes) : Prop := 0 ∉ value ∧ Carried value ∧ fitsColumn n value = true

instance (n : Nat) : DecidablePred (Plain n) := fun value =>
  inferInstanceAs (Decidable (0 ∉ value ∧ Carried value ∧ fitsColumn n value = true))

/-- The fields of a request are plain values of their columns. -/
def Request.Plain : Request → Prop
  | .register appid password => Server.Plain 11 appid ∧ Server.Plain 16 password
  | .login appid password => Server.Plain 11 appid ∧ Server.Plain 16 password
  | .bind appid deviceid => Server.Plain 11 appid ∧ Server.Plain 8 deviceid

instance : DecidablePred Request.Plain
  | .register appid password => inferInstanceAs (Decidable (Server.Plain 11 appid ∧ Server.Plain 16 password))
  | .login appid password => inferInstanceAs (Decidable (Server.Plain 11 appid ∧ Server.Plain 16 password))
  | .bind appid deviceid => inferInstanceAs (Decidable (Server.Plain 11 appid ∧ Server.Plain 8 deviceid))

theorem length_le_of_plain {n : Nat} {value : Bytes} (plain : Plain n value) : value.length ≤ 3 * n := by
  have fits := plain.2.2
  simp only [fitsColumn, Bool.and_eq_true, decide_eq_true_eq] at fits
  exact fits.2

theorem faithful_of_plain {st : Statement} (plain : ∀ field ∈ st.fields, Plain 16 field) : Faithful st := by
  have bound (field : Bytes) (member : field ∈ st.fields) : field.length ≤ 48 :=
    length_le_of_plain (plain field member)
  refine (faithful_iff st).mpr ⟨fun field member => ⟨(plain field member).1, (plain field member).2.1⟩, ?_⟩
  have around (kind : Kind) : kind.around ≤ 52 := by rcases kind with ⟨_ | _ | _⟩ | _ | _ <;> decide
  have fixed := around st.kind
  cases st with
  | select columns appid =>
      have one := bound appid (by simp [Statement.fields])
      simp only [Statement.fields, total, List.map_cons, List.map_nil, List.sum_cons, List.sum_nil]
      omega
  | insert appid password =>
      have one := bound appid (by simp [Statement.fields])
      have two := bound password (by simp [Statement.fields])
      simp only [Statement.fields, total, List.map_cons, List.map_nil, List.sum_cons, List.sum_nil]
      omega
  | update deviceid appid =>
      have one := bound appid (by simp [Statement.fields])
      have two := bound deviceid (by simp [Statement.fields])
      simp only [Statement.fields, total, List.map_cons, List.map_nil, List.sum_cons, List.sum_nil]
      omega

theorem Plain.mono {n n' : Nat} {value : Bytes} (plain : Plain n value) (le : n ≤ n') : Plain n' value := by
  obtain ⟨free, carried, fits⟩ := plain
  simp only [fitsColumn, Bool.and_eq_true, decide_eq_true_eq] at fits
  refine ⟨free, carried, ?_⟩
  simp only [fitsColumn, Bool.and_eq_true, decide_eq_true_eq]
  omega

theorem understood_of_plain {q : Request} (plain : q.Plain) : q.Understood := by
  intro st member
  cases q with
  | register appid password =>
      obtain ⟨account, secret⟩ := plain
      simp only [Request.statements, List.mem_cons, List.not_mem_nil, or_false] at member
      rcases member with rfl | rfl
      · exact ⟨faithful_of_plain (by simpa [Statement.fields] using account.mono (by decide)), rfl⟩
      · refine ⟨faithful_of_plain ?_, ?_⟩
        · simpa [Statement.fields] using ⟨account.mono (by decide), secret⟩
        · simp [Statement.fits, account.2.2, secret.2.2]
  | login appid password =>
      simp only [Request.statements, List.mem_cons, List.not_mem_nil, or_false] at member
      rcases member with rfl | rfl | rfl
      all_goals exact ⟨faithful_of_plain (by simpa [Statement.fields] using plain.1.mono (by decide)), rfl⟩
  | bind appid deviceid =>
      obtain ⟨account, device⟩ := plain
      simp only [Request.statements, List.mem_cons, List.not_mem_nil, or_false] at member
      subst member
      refine ⟨faithful_of_plain ?_, ?_⟩
      · simpa [Statement.fields] using ⟨device.mono (by decide), account.mono (by decide)⟩
      · simp [Statement.fits, device.2.2]

/-- The message an app sends to ask for it. -/
def Request.message : Request → Json
  | .register appid password => .object [(lit "appid", .string appid),
      (lit "cmd", .string (lit "app_register")), (lit "password", .string password)]
  | .login appid password => .object [(lit "appid", .string appid),
      (lit "cmd", .string (lit "app_login")), (lit "password", .string password)]
  | .bind appid deviceid => .object [(lit "appid", .string appid),
      (lit "cmd", .string (lit "app_bind")), (lit "deviceid", .string deviceid)]

theorem asks_message (q : Request) : Asks q.message q := by
  cases q with
  | register appid password => exact ⟨rfl, rfl, rfl⟩
  | login appid password => exact ⟨rfl, rfl, rfl⟩
  | bind appid deviceid => exact ⟨rfl, rfl, rfl⟩

/-! ## What the statements carry -/

/-- The statements of the five functions for an app and its device. -/
def statementsOf (appid password deviceid : Bytes) : List Statement :=
  [.select .all appid, .insert appid password, .select .password appid, .select .deviceid appid,
    .update deviceid appid]

theorem faithful_statementsOf (appid password deviceid : Bytes) :
    (∀ st ∈ statementsOf appid password deviceid, Faithful st) ↔
      (∀ field ∈ [appid, password, deviceid], 0 ∉ field ∧ Carried field) ∧
        appid.length + password.length ≤ 203 ∧ deviceid.length + appid.length ≤ 205 := by
  have around : [Kind.select .all, .select .password, .select .deviceid, .insert, .update].map Kind.around =
      [39, 46, 46, 52, 50] := by decide
  simp only [List.map_cons, List.map_nil, List.cons.injEq, and_true] at around
  obtain ⟨all, secret, device, insert, update⟩ := around
  simp only [statementsOf, List.forall_mem_cons, List.not_mem_nil, false_implies, implies_true, and_true,
    faithful_iff, Statement.fields, Statement.kind, all, secret, device, insert, update, total, List.map_cons,
    List.map_nil, List.sum_cons, List.sum_nil]
  constructor
  · rintro ⟨_, ⟨⟨account, password⟩, first⟩, _, _, ⟨deviceid, _⟩, second⟩
    exact ⟨⟨account, password, deviceid⟩, by omega, by omega⟩
  · rintro ⟨⟨account, password, deviceid⟩, first, second⟩
    exact ⟨⟨account, by omega⟩, ⟨⟨account, password⟩, by omega⟩, ⟨account, by omega⟩, ⟨account, by omega⟩,
      ⟨deviceid, account⟩, by omega⟩

/-- A login whose selects are read as built is answered from the rows of its appid. -/
theorem login_rows {value : Json} {appid password : Bytes} (asks : Asks value (.login appid password))
    (selects : ∀ columns, Faithful (.select columns appid)) {db db' : Database}
    (same : rowsOf appid db.accounts = rowsOf appid db'.accounts) :
    (loginAnswer (mysql fails other) value db).map Prod.fst =
      (loginAnswer (mysql fails other) value db').map Prod.fst := by
  obtain ⟨-, account, secret⟩ := asks
  have understood : (Request.login appid password).Understood := by
    simp only [Request.Understood, Request.statements, List.forall_mem_cons]
    exact ⟨⟨selects _, rfl⟩, ⟨selects _, rfl⟩, ⟨selects _, rfl⟩, fun st none => nomatch none⟩
  have heard : (Request.login (cstr appid) password).Understood := by
    rwa [whole_of_faithful (selects .all) appid List.mem_cons_self]
  rw [loginAnswer_mysql account secret (heard.read _ _), loginAnswer_mysql account secret (heard.read _ _),
    whole_of_faithful (selects .all) appid List.mem_cons_self]
  simp only [Request.outcome, same]
  split <;> rfl

/-- The five statements fit their buffers and carry the fields, and a login
depends on the rows of its appid alone, exactly if no field has a zero byte, a
quote or an escaping backslash and the fields are short enough. -/
theorem statements_carry_iff (appid password deviceid : Bytes) :
    ((∀ st ∈ statementsOf appid password deviceid, Faithful st) ∧
      ∀ fails other value, Asks value (.login appid password) → ∀ db db' : Database,
        rowsOf appid db.accounts = rowsOf appid db'.accounts →
        (loginAnswer (mysql fails other) value db).map Prod.fst =
          (loginAnswer (mysql fails other) value db').map Prod.fst) ↔
    (∀ field ∈ [appid, password, deviceid], 0 ∉ field ∧ Carried field) ∧
      appid.length + password.length ≤ 203 ∧ deviceid.length + appid.length ≤ 205 := by
  rw [← faithful_statementsOf]
  refine ⟨And.left, fun faithful => ⟨faithful, fun fails other value asks db db' same => ?_⟩⟩
  refine login_rows asks (fun columns => ?_) same
  cases columns <;> exact faithful _ (by simp [statementsOf])

/-- An appid with a quote in it ends its literal early. -/
theorem quote_ends_literal :
    ¬ ∀ appid password deviceid : Bytes, ∀ st ∈ statementsOf appid password deviceid, Faithful st := by
  intro carries
  have read := (carries (lit "a'b") (lit "p") (lit "d") (.select .all (lit "a'b")) List.mem_cons_self).2
  have unread : readStatement (Statement.select .all (lit "a'b")).text = none := by decide
  rw [unread] at read
  cases read

end MusicPlayer.Server
