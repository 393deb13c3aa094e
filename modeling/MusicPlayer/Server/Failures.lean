import MusicPlayer.Server.Accounts

/-! Account requests while calls of the MySQL client fail: which answers the
table contradicts, and under which failures none is given. -/
namespace MusicPlayer.Server
open CBytes

/-! ## What an answer says -/

/-- The row has the appid and the password. -/
def Account.Matches (x : Account) (appid password : Bytes) : Prop := x.appid = appid ∧ x.password = password

/-- The change that `success` reports is in the table. -/
def Request.Done (l : Accounts) : Request → Prop
  | .register appid password => ∃ x ∈ l, x.Matches appid password
  | .login _ _ => True
  | .bind appid deviceid => ∃ x ∈ l, x.appid = appid ∧ x.deviceid = some deviceid

/-- `Login` denies a matching row, or that a matching row is bound. -/
def Request.Denied (l : Accounts) (answer : Json) : Request → Prop
  | .login appid password =>
      ((answer = reply "app_login_reply" "not_exist" ∨ answer = reply "app_login_reply" "password_error") ∧
          ∃ x ∈ l, x.Matches appid password) ∨
        (answer = reply "app_login_reply" "not_bind" ∧
          ∃ x ∈ l, x.Matches appid password ∧ x.deviceid ≠ none)
  | .register _ _ => False
  | .bind _ _ => False

def Succeeds (answer : Json) : Prop := answer.member (lit "result") = .string (lit "success")

/-- What may become of a request on the table `l`: it is answered, so that no
missing result set is used, no row is added to an appid that has one, the tables
before and after contradict no answer, and nothing is changed where the request fails. -/
def Request.Sound (l : Accounts) (q : Request) (outcome : Except Fault (Json × Database)) : Prop :=
  ∃ answer db, outcome = .ok (answer, db) ∧
    (∀ appid, rowsOf appid l ≠ [] → (rowsOf appid db.accounts).length = (rowsOf appid l).length) ∧
    ¬ q.Denied l answer ∧ (Succeeds answer → q.Done db.accounts) ∧ (¬ Succeeds answer → db.accounts = l)

variable {l : Accounts} {q : Request}

end MusicPlayer.Server
