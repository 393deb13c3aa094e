import MusicPlayer.App.Remote
import MusicPlayer.Server.Binding

/-! The app's three windows, one after the other on one connection, from the first
click to the pair of account and device the player names to the server. -/
namespace MusicPlayer.App
open CBytes Runs Server

/-! ## The windows -/

/-- The window that is shown. The second one notes the device that was typed last. -/
inductive Window
  | widget
  | bind (appid deviceid : Bytes)
  | player (appid deviceid : Bytes)
  deriving DecidableEq

def result (obj : Json) : Bytes := QJsonValue.toString (obj.member (lit "result"))

/-- The account is the one typed in at the last login, whichever this reply is for. -/
def handleLoginReply (obj : Json) (appid : Bytes) : Window :=
  if result obj = lit "bind" then .player appid (QJsonValue.toString (obj.member (lit "deviceid")))
  else if result obj = lit "not_bind" then .bind appid []
  else .widget

/-- The three functions `ReciveReply`, as far as the windows go. -/
def Window.reciveReply (obj : Json) (appid : Bytes) : Window → Window
  | .widget => if command obj = lit "app_login_reply" then handleLoginReply obj appid else .widget
  | .bind appid deviceid =>
      if command obj = lit "app_bind_reply" ∧ result obj = lit "success" then .player appid deviceid
      else .bind appid deviceid
  | .player appid deviceid => .player appid deviceid

/-- The pair in the `app_info` of `HandleTimerInfo`. -/
def Window.handleTimerInfo : Window → Option (Bytes × Bytes)
  | .player appid deviceid => some (appid, deviceid)
  | _ => none

/-! ## The app and the server -/

/-- `appid` is `m_appid`; requests and answers on their way are in order. -/
structure Session where
  window : Window
  appid : Bytes
  requests : List Request
  answers : List Json
  accounts : Accounts

def Session.start (accounts : Accounts) : Session := ⟨.widget, [], [], [], accounts⟩

/-- `others` is a request of another connection. -/
inductive Turn
  | register (appid password : Bytes)
  | login (appid password : Bytes)
  | bind (deviceid : Bytes)
  | serve
  | others (x : Exchange)
  | receive

variable (other : Bytes → Database → Bool × Database)

inductive Turns : Session → Turn → Session → Prop
  | register (appid password : Bytes) {s : Session} : s.window = .widget →
      Turns s (.register appid password) { s with requests := s.requests ++ [.register appid password] }
  | login (appid password : Bytes) {s : Session} : s.window = .widget →
      Turns s (.login appid password) { s with appid, requests := s.requests ++ [.login appid password] }
  | bind (deviceid : Bytes) {appid last : Bytes} {s : Session} : s.window = .bind appid last →
      Turns s (.bind deviceid) { s with
        window := .bind appid deviceid, requests := s.requests ++ [.bind appid deviceid] }
  | serve {q : Request} {rest : List Request} {answer : Json} {db : Database} {s : Session} :
      s.requests = q :: rest → Server.Served (mysql never other) (.closed s.accounts) ⟨q.message, answer⟩ db →
      Turns s .serve { s with requests := rest, answers := s.answers ++ [answer], accounts := db.accounts }
  | others {x : Exchange} {db : Database} {s : Session} :
      guarded Fair (Server.Served (mysql never other)) (.closed s.accounts) x db →
      Turns s (.others x) { s with accounts := db.accounts }
  | receive {answer : Json} {rest : List Json} {s : Session} : s.answers = answer :: rest →
      Turns s .receive { s with window := s.window.reciveReply answer s.appid, answers := rest }

/-- No login is under way. -/
def Session.Quiet (s : Session) : Prop :=
  (∀ q ∈ s.requests, ∀ appid password, q ≠ .login appid password) ∧
    ∀ r ∈ s.answers, command r ≠ lit "app_login_reply"

/-- What is typed is plain, a login with another account waits for the answer to the
last one, and nobody else binds the account. -/
def Orderly (s : Session) : Turn → Prop
  | .register appid password => (Request.register appid password).Plain
  | .login appid password => (Request.login appid password).Plain ∧ (appid = s.appid ∨ s.Quiet)
  | .bind deviceid => ∀ appid last, s.window = .bind appid last → (Request.bind appid deviceid).Plain
  | .others x => ∀ deviceid, ¬ Asks x.value (.bind s.appid deviceid)
  | .serve | .receive => True

/-- The table once the server has served what is on its way. -/
def Session.settled (s : Session) : Accounts := s.requests.foldl (fun l q => q.next l) s.accounts

/-- The device an account is bound to, as the client hands the column over. -/
def device (appid : Bytes) (l : Accounts) : Option Bytes :=
  ((rowsOf appid l).head?.bind (·.deviceid)).map cstr

/-! ## The device of an account -/

/-- The device after a request, for an account there is. -/
def rebound (appid : Bytes) (device : Option Bytes) : Request → Option Bytes
  | .bind a d => if a = appid then some (cstr d) else device
  | .register _ _ | .login _ _ => device

theorem next_device {appid : Bytes} {l : Accounts} (row : rowsOf appid l ≠ []) (q : Request) :
    rowsOf appid (q.next l) ≠ [] ∧ device appid (q.next l) = rebound appid (device appid l) q := by
  cases q with
  | login a p => exact ⟨row, rfl⟩
  | register a p =>
      rw [Request.next]
      split
      · obtain ⟨first, rest, rows⟩ := List.exists_cons_of_ne_nil row
        rw [device, rowsOf_insert, rows]
        exact ⟨List.cons_ne_nil _ _, by rw [rebound, device, rows]; rfl⟩
      · exact ⟨row, rfl⟩
  | bind a d =>
      obtain ⟨first, rest, rows⟩ := List.exists_cons_of_ne_nil row
      rw [device, Request.next, rowsOf_update, rebound]
      split
      · rw [rows]
        exact ⟨List.cons_ne_nil _ _, rfl⟩
      · exact ⟨row, rfl⟩

theorem rebound_of_other {appid : Bytes} {q : Request} (unbound : ∀ d, q ≠ .bind appid d) (device : Option Bytes) :
    rebound appid device q = device := by
  cases q with
  | register a p => rfl
  | login a p => rfl
  | bind a d =>
      have apart : a ≠ appid := by
        rintro rfl
        exact unbound d rfl
      exact if_neg apart

theorem foldl_rebound {appid : Bytes} {requests : List Request} (unbound : ∀ q ∈ requests, ∀ d, q ≠ .bind appid d)
    (device : Option Bytes) : requests.foldl (rebound appid) device = device := by
  induction requests with
  | nil => rfl
  | cons q rest ih =>
      rw [List.foldl_cons, rebound_of_other (unbound q List.mem_cons_self)]
      exact ih fun r member => unbound r (List.mem_cons_of_mem _ member)

theorem settled_device {appid : Bytes} (requests : List Request) {l : Accounts} (row : rowsOf appid l ≠ []) :
    device appid (requests.foldl (fun l q => q.next l) l) = requests.foldl (rebound appid) (device appid l) := by
  induction requests generalizing l with
  | nil => rfl
  | cons q rest ih =>
      obtain ⟨still, next⟩ := next_device row q
      rw [List.foldl_cons, List.foldl_cons, ih still, next]

theorem row_of_device {appid deviceid : Bytes} {l : Accounts} (bound : device appid l = some deviceid) :
    rowsOf appid l ≠ [] := by
  intro none_
  rw [device, none_] at bound
  cases bound

/-! ## What the answers say -/

theorem command_reply (cmd outcome : String) : command (reply cmd outcome) = lit cmd := rfl

theorem result_bindAnswer (deviceid : Bytes) : result (bindAnswer deviceid) = lit "bind" := rfl

theorem deviceid_bindAnswer (deviceid : Bytes) :
    QJsonValue.toString ((bindAnswer deviceid).member (lit "deviceid")) = deviceid := rfl

/-- What an answer to a login says of the account holds. -/
structure True_ (appid : Bytes) (l : Accounts) (answer : Json) : Prop where
  bind : result answer = lit "bind" →
    device appid l = some (QJsonValue.toString (answer.member (lit "deviceid")))
  notBind : result answer = lit "not_bind" → rowsOf appid l ≠ []

theorem login_told (appid password : Bytes) (l : Accounts) :
    True_ appid l ((Request.login appid password).answer l) := by
  rw [Request.answer]
  rcases verdict_cases password true true (rowsOf appid l) with
    ⟨-, told⟩ | ⟨first, rest, rows, ⟨-, told⟩ | ⟨-, ⟨-, told⟩ | ⟨-, deviceid, bound, told⟩⟩⟩
  · rw [told]
    exact ⟨fun same => absurd same (by decide), fun same => absurd same (by decide)⟩
  · rw [told]
    exact ⟨fun same => absurd same (by decide), fun same => absurd same (by decide)⟩
  · rw [told]
    exact ⟨fun same => absurd same (by decide), fun _ => rows ▸ List.cons_ne_nil _ _⟩
  · rw [told]
    refine ⟨fun _ => ?_, fun same => absurd same ?_⟩
    · rw [device, rows, deviceid_bindAnswer, List.head?_cons, Option.bind_some, bound]
      rfl
    · rw [result_bindAnswer]
      decide

/-- Requests that bind the account no further leave it true. -/
theorem True_.next {appid : Bytes} {l : Accounts} {answer : Json} (told : True_ appid l answer) {q : Request}
    (unbound : ∀ d, q ≠ .bind appid d) : True_ appid (q.next l) answer where
  bind same := by
    have bound := told.bind same
    rw [(next_device (row_of_device bound) q).2, rebound_of_other unbound, bound]
  notBind same := (next_device (told.notBind same) q).1

theorem command_login (appid password : Bytes) (l : Accounts) :
    command ((Request.login appid password).answer l) = lit "app_login_reply" := by
  rw [Request.answer]
  rcases verdict_cases password true true (rowsOf appid l) with
    ⟨-, told⟩ | ⟨first, rest, rows, ⟨-, told⟩ | ⟨-, ⟨-, told⟩ | ⟨-, deviceid, bound, told⟩⟩⟩
  all_goals
    rw [told]
    rfl

/-! ## The invariant -/

/-- The account is there, and what is on its way makes `deviceid` its device. -/
structure Settles (requests : List Request) (l : Accounts) (appid deviceid : Bytes) : Prop where
  row : rowsOf appid l ≠ []
  last : requests.foldl (rebound appid) (device appid l) = some deviceid

/-- A binding has been asked for, and the answer has not come. -/
def Asked (requests : List Request) (answers : List Json) : Prop :=
  (∃ appid deviceid, Request.bind appid deviceid ∈ requests) ∨ ∃ r ∈ answers, command r = lit "app_bind_reply"

/-- In the first window every login under way is for the account noted, and no
binding is; in the second one the last binding under way is to the device noted. -/
def Noted (account : Bytes) (requests : List Request) (answers : List Json) (l : Accounts) : Window → Prop
  | .widget =>
      (∀ q ∈ requests, (∃ password, q = .login account password) ∨ ∃ appid password, q = .register appid password) ∧
        ∀ r ∈ answers, command r ≠ lit "app_bind_reply" ∧ (command r = lit "app_login_reply" → True_ account l r)
  | .bind appid deviceid =>
      appid = account ∧ rowsOf appid l ≠ [] ∧ (Asked requests answers → Settles requests l appid deviceid)
  | .player appid deviceid => appid = account ∧ Settles requests l appid deviceid

structure Sound (s : Session) : Prop where
  plain : ∀ q ∈ s.requests, q.Plain
  noted : Noted s.appid s.requests s.answers s.accounts s.window

theorem Settles.others {requests : List Request} {l : Accounts} {appid deviceid : Bytes}
    (h : Settles requests l appid deviceid) {q : Request} (unbound : ∀ d, q ≠ .bind appid d) :
    Settles requests (q.next l) appid deviceid := by
  obtain ⟨row, next⟩ := next_device h.row q
  refine ⟨row, ?_⟩
  rw [next, rebound_of_other unbound]
  exact h.last

theorem Settles.serve {q : Request} {rest : List Request} {l : Accounts} {appid deviceid : Bytes}
    (h : Settles (q :: rest) l appid deviceid) : Settles rest (q.next l) appid deviceid := by
  obtain ⟨row, next⟩ := next_device h.row q
  refine ⟨row, ?_⟩
  rw [next]
  exact h.last

theorem noted_serve {account : Bytes} {q : Request} {rest : List Request} {answers : List Json} {l : Accounts}
    {window : Window} (h : Noted account (q :: rest) answers l window) :
    Noted account rest (answers ++ [q.answer l]) (q.next l) window := by
  cases window with
  | widget =>
      obtain ⟨asked, told⟩ := h
      have here := asked q List.mem_cons_self
      have unbound : ∀ d, q ≠ .bind account d := by
        rintro d rfl
        rcases here with ⟨p, same⟩ | ⟨a, p, same⟩ <;> cases same
      refine ⟨fun r member => asked r (List.mem_cons_of_mem _ member), fun r member => ?_⟩
      rcases List.mem_append.mp member with old | new
      · exact ⟨(told r old).1, fun login => ((told r old).2 login).next unbound⟩
      · rw [List.mem_singleton.mp new]
        rcases here with ⟨p, rfl⟩ | ⟨a, p, rfl⟩
        · rw [command_login]
          exact ⟨by decide, fun _ => login_told account p l⟩
        · rw [Request.answer, command_reply]
          exact ⟨by decide, fun same => absurd same (by decide)⟩
  | bind appid deviceid =>
      obtain ⟨same, row, settles⟩ := h
      refine ⟨same, (next_device row q).1, fun asked => (settles ?_).serve⟩
      rcases asked with ⟨a, d, member⟩ | ⟨r, member, cmd⟩
      · exact .inl ⟨a, d, List.mem_cons_of_mem _ member⟩
      · rcases List.mem_append.mp member with old | new
        · exact .inr ⟨r, old, cmd⟩
        · rw [List.mem_singleton.mp new] at cmd
          cases q with
          | bind a d => exact .inl ⟨a, d, List.mem_cons_self⟩
          | register a p =>
              rw [Request.answer, command_reply] at cmd
              exact absurd cmd (by decide)
          | login a p =>
              rw [command_login] at cmd
              exact absurd cmd (by decide)
  | player appid deviceid => exact ⟨h.1, h.2.serve⟩

theorem noted_others {account : Bytes} {requests : List Request} {answers : List Json} {l : Accounts}
    {window : Window} (h : Noted account requests answers l window) {q : Request}
    (unbound : ∀ d, q ≠ .bind account d) : Noted account requests answers (q.next l) window := by
  cases window with
  | widget =>
      refine ⟨h.1, fun r member => ?_⟩
      obtain ⟨other, told⟩ := h.2 r member
      exact ⟨other, fun login => (told login).next unbound⟩
  | bind appid deviceid =>
      obtain ⟨rfl, row, settles⟩ := h
      exact ⟨rfl, (next_device row q).1, fun asked => (settles asked).others unbound⟩
  | player appid deviceid =>
      obtain ⟨rfl, settles⟩ := h
      exact ⟨rfl, settles.others unbound⟩

theorem noted_receive {account : Bytes} {requests : List Request} {answer : Json} {rest : List Json} {l : Accounts}
    {window : Window} (h : Noted account requests (answer :: rest) l window) :
    Noted account requests rest l (window.reciveReply answer account) := by
  cases window with
  | widget =>
      obtain ⟨asked, told⟩ := h
      have later : ∀ r ∈ rest, command r ≠ lit "app_bind_reply" ∧
          (command r = lit "app_login_reply" → True_ account l r) :=
        fun r member => told r (List.mem_cons_of_mem _ member)
      have here := (told answer List.mem_cons_self).2
      rw [Window.reciveReply]
      split
      next login =>
        rw [handleLoginReply]
        split
        next bound =>
          have now := (here login).bind bound
          refine ⟨rfl, row_of_device now, ?_⟩
          rw [foldl_rebound ?_, now]
          rintro q member d rfl
          rcases asked _ member with ⟨p, same⟩ | ⟨a, p, same⟩ <;> cases same
        next =>
          split
          next notBound =>
            refine ⟨rfl, (here login).notBind notBound, ?_⟩
            rintro (⟨a, d, member⟩ | ⟨r, member, cmd⟩)
            · rcases asked _ member with ⟨p, same⟩ | ⟨a, p, same⟩ <;> cases same
            · exact absurd cmd (later r member).1
          next => exact ⟨asked, later⟩
      next => exact ⟨asked, later⟩
  | bind appid deviceid =>
      obtain ⟨same, row, settles⟩ := h
      rw [Window.reciveReply]
      split
      next success => exact ⟨same, settles (.inr ⟨answer, List.mem_cons_self, success.1⟩)⟩
      next =>
        refine ⟨same, row, fun asked => settles (asked.imp_right ?_)⟩
        rintro ⟨r, member, cmd⟩
        exact ⟨r, List.mem_cons_of_mem _ member, cmd⟩
  | player appid deviceid => exact h

/-! ## Runs -/

variable {other}

theorem sound_step {s s' : Session} {t : Turn} (sound : Sound s)
    (step : guarded Orderly (Turns other) s t s') : Sound s' := by
  obtain ⟨orderly, step⟩ := step
  have noted := sound.noted
  have grown {q : Request} (plain : q.Plain) : ∀ r ∈ s.requests ++ [q], r.Plain := by
    intro r member
    rcases List.mem_append.mp member with old | new
    · exact sound.plain r old
    · rw [List.mem_singleton.mp new]
      exact plain
  cases step with
  | register appid password shown =>
      refine ⟨grown orderly, ?_⟩
      rw [shown] at noted
      change Noted _ _ _ _ s.window
      rw [shown]
      refine ⟨fun q member => ?_, noted.2⟩
      rcases List.mem_append.mp member with old | new
      · exact noted.1 q old
      · exact .inr ⟨appid, password, List.mem_singleton.mp new⟩
  | login appid password shown =>
      refine ⟨grown orderly.1, ?_⟩
      rw [shown] at noted
      change Noted _ _ _ _ s.window
      rw [shown]
      rcases orderly.2 with rfl | ⟨noLogin, noReply⟩
      · refine ⟨fun q member => ?_, noted.2⟩
        rcases List.mem_append.mp member with old | new
        · exact noted.1 q old
        · exact .inl ⟨password, List.mem_singleton.mp new⟩
      · refine ⟨fun q member => ?_, fun r member => ⟨(noted.2 r member).1, fun login => absurd login (noReply r member)⟩⟩
        rcases List.mem_append.mp member with old | new
        · rcases noted.1 q old with ⟨p, same⟩ | registers
          · exact absurd same (noLogin q old s.appid p)
          · exact .inr registers
        · exact .inl ⟨password, List.mem_singleton.mp new⟩
  | @bind deviceid appid last _ shown =>
      refine ⟨grown (orderly appid last shown), ?_⟩
      rw [shown] at noted
      obtain ⟨same, row, -⟩ := noted
      refine ⟨same, row, fun _ => ⟨row, ?_⟩⟩
      rw [List.foldl_append, List.foldl_cons, List.foldl_nil, rebound, if_pos rfl,
        cstr_eq_self (orderly appid last shown).2.1]
  | @serve q rest answer db _ first served =>
      have plain : q.Plain := sound.plain q (first ▸ List.mem_cons_self)
      obtain ⟨rfl, rfl⟩ := (served_iff (asks_message q) (understood_of_plain plain)).mp served
      rw [first] at noted
      exact ⟨fun r member => sound.plain r (first ▸ List.mem_cons_of_mem _ member), noted_serve noted⟩
  | others one =>
      obtain ⟨q, asks, -, -, rfl⟩ := fair_step one
      refine ⟨sound.plain, noted_others noted ?_⟩
      rintro d rfl
      exact orderly d asks
  | receive first =>
      rw [first] at noted
      exact ⟨sound.plain, noted_receive noted⟩

/-- In every run in which plain values are typed and sent, logins with different
accounts wait for each other and nobody else binds the account, the pair the player
window names to the server is a pair of the table, once the server has served what is
on its way. -/
theorem player_names_bound {accounts : Accounts} {turns : List Turn} {s : Session}
    (run : Trace (guarded Orderly (Turns other)) (.start accounts) turns s) {appid deviceid : Bytes}
    (names : s.window.handleTimerInfo = some (appid, deviceid)) :
    rowsOf appid s.accounts ≠ [] ∧ device appid s.settled = some deviceid ∧
      ((∀ q ∈ s.requests, ∀ d, q ≠ .bind appid d) → device appid s.accounts = some deviceid) := by
  have start : Sound (.start accounts) :=
    ⟨fun _ member => absurd member List.not_mem_nil,
      fun _ member => absurd member List.not_mem_nil, fun _ member => absurd member List.not_mem_nil⟩
  have sound := run.invariant (fun _ _ _ sound step => sound_step sound step) start
  have noted := sound.noted
  cases shown : s.window with
  | widget =>
      rw [shown] at names
      cases names
  | bind a d =>
      rw [shown] at names
      cases names
  | player a d =>
      rw [shown] at names noted
      cases names
      obtain ⟨-, row, last⟩ := noted
      refine ⟨row, ?_, fun unbound => ?_⟩
      · rw [Session.settled, settled_device _ row, last]
      · rw [← last, foldl_rebound unbound]

def unboundTable : Accounts := [⟨lit "a", lit "p", none⟩]

/-- A login and a binding, each answered before the next click. -/
def bindTurns : List Turn := [.login (lit "a") (lit "p"), .serve, .receive, .bind (lit "0001"), .serve, .receive]

def boundSession : Session :=
  ⟨.player (lit "a") (lit "0001"), lit "a", [], [], (Request.bind (lit "a") (lit "0001")).next unboundTable⟩

theorem served_exchange {q : Request} (plain : q.Plain) (l : Accounts) :
    Server.Served (mysql never refuse) (.closed l) ⟨q.message, q.answer l⟩ (.closed (q.next l)) := (exchange_step plain l).2

theorem bindTurns_run : Trace (guarded Orderly (Turns refuse)) (.start unboundTable) bindTurns boundSession := by
  have quiet : Session.Quiet (.start unboundTable) :=
    ⟨fun _ member => absurd member List.not_mem_nil, fun _ member => absurd member List.not_mem_nil⟩
  have login : (Request.login (lit "a") (lit "p")).Plain := by decide
  have bind : (Request.bind (lit "a") (lit "0001")).Plain := by decide
  refine .cons ⟨⟨login, .inr quiet⟩, .login _ _ rfl⟩ ?_
  refine .cons ⟨trivial, .serve rfl (served_exchange login _)⟩ ?_
  refine .cons ⟨trivial, .receive rfl⟩ ?_
  have opened : Window.widget.reciveReply ((Request.login (lit "a") (lit "p")).answer unboundTable) (lit "a") =
      .bind (lit "a") [] := by decide
  refine .cons ⟨?_, .bind _ opened⟩ ?_
  · intro appid last shown
    cases opened.symm.trans shown
    exact bind
  · refine .cons ⟨trivial, .serve rfl (served_exchange bind _)⟩ ?_
    exact .cons ⟨trivial, .receive rfl⟩ (.nil _)

theorem bindTurns_named : device (lit "a") boundSession.accounts = some (lit "0001") :=
  (player_names_bound bindTurns_run rfl).2.2 fun _ member => absurd member List.not_mem_nil

/-- Two accounts, one with a device. -/
def twoAccounts : Accounts := [⟨lit "a", lit "p", some (lit "0001")⟩, ⟨lit "b", lit "q", none⟩]

/-- The reply to the first of two logins opens the player for the second one's account. -/
theorem two_logins_mixed : ∃ s, Trace (Turns refuse) (.start twoAccounts)
    [.login (lit "a") (lit "p"), .login (lit "b") (lit "q"), .serve, .receive] s ∧
      s.window.handleTimerInfo = some (lit "b", lit "0001") ∧ device (lit "b") s.settled = none := by
  have login : (Request.login (lit "a") (lit "p")).Plain := by decide
  refine ⟨_, .cons (.login _ _ rfl) (.cons (.login _ _ rfl)
    (.cons (.serve rfl (served_exchange login _)) (.cons (.receive rfl) (.nil _)))), ?_, ?_⟩
  · decide
  · decide

end MusicPlayer.App
