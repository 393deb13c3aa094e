import MusicPlayer.Server.Accounts
import MusicPlayer.Server.Malformed
import MusicPlayer.Lib.Trace

/-! Registrations, logins and bindings over whole histories of account
requests, from an empty table and with a database that does not fail. -/
namespace MusicPlayer.Server
open CBytes Runs

/-- `ReadCb` serves account requests as `requestReply` says. -/
theorem dispatch_account {δ : Type} (m : Mysql δ) (k : Codec) {now : Int}
    {opendir : Bytes → Option (List Dirent)} {bev : Bev} {value : Json} {s : State δ}
    (account : accountCommands.any value.isCmd = true) :
    dispatch m k now opendir bev value s = (do
      let (answer, db) ← requestReply m value s.db
      let sent ← sendData k bev answer
      return ({ s with db }, [sent])) := by
  obtain ⟨name, listed, cmd⟩ := List.any_eq_true.mp account
  have commands : ∀ name ∈ accountCommands, ∀ other ∈ appCommands, (lit name == lit other) = false := by decide
  have replies : ∀ name ∈ accountCommands, ∀ other ∈ devReplies, (lit name == lit other) = false := by decide
  rw [dispatch, Json.touch_of_isCmd cmd]
  change (if value.isCmd "get_music_list" = true then _ else _) = _
  rw [if_neg (not_single account (by decide)), if_neg (not_single account (by decide)),
    if_neg (not_single account (by decide)), if_neg (not_single account (by decide)),
    if_neg (not_any cmd (commands name listed)), if_neg (not_any cmd (replies name listed)), requestReply]
  by_cases register : value.isCmd "app_register" = true
  · rw [if_pos register, if_pos register, registerUsr_eq]
    simp only [bind_assoc, pure_bind]
  · rw [if_neg register, if_neg register]
    by_cases log : value.isCmd "app_login" = true
    · rw [if_pos log, if_pos log, login_eq]
      simp only [bind_assoc, pure_bind]
    · have bound : value.isCmd "app_bind" = true := by
        simpa [accountCommands, register, log] using account
      rw [if_neg log, if_neg log, if_pos bound, bindUsr_eq]
      simp only [bind_assoc, pure_bind]

/-- The account request an event brings, if it brings one. -/
def Event.accountRequest : Event → Option Json
  | .read _ _ _ value => if accountCommands.any value.isCmd then some value else none
  | .event _ _ => none
  | .timeout _ => none

/-- An account request is served on its connection, and nothing else moves the database. -/
theorem step_serves {δ : Type} {m : Mysql δ} {k : Codec} {e : Event} {s s' : State δ} {sent : List Send}
    (h : step m k e s = .ok (s', sent)) :
    (e.accountRequest = none ∧ s'.db = s.db) ∨
      ∃ now opendir bev value answer packet, e = .read now opendir bev value ∧ e.accountRequest = some value ∧
        Served m s.db ⟨value, answer⟩ s'.db ∧ sendData k bev answer = .ok packet ∧ sent = [packet] := by
  cases e with
  | event bev what =>
      cases h
      exact .inl ⟨rfl, rfl⟩
  | timeout now =>
      cases h
      exact .inl ⟨rfl, rfl⟩
  | read now opendir bev value =>
      by_cases account : accountCommands.any value.isCmd = true
      · have one : dispatch m k now opendir bev value s = .ok (s', sent) := h
        rw [dispatch_account m k account] at one
        simp only [Except.bind_eq_ok] at one
        obtain ⟨⟨answer, db⟩, replied, packet, sends, same⟩ := one
        cases same
        exact .inr ⟨now, opendir, bev, value, answer, packet, rfl, if_pos account, ⟨account, replied⟩, sends, rfl⟩
      · refine .inl ⟨if_neg account, ?_⟩
        obtain ⟨v, -, ran⟩ := dispatch_ran m k h
        simp only [accountCommands, List.any_cons, List.any_nil, Bool.or_false, Bool.or_eq_true, not_or] at account
        obtain ⟨register, log, bound⟩ := account
        cases ran with
        | register cmd => exact absurd cmd register
        | login cmd => exact absurd cmd log
        | bind cmd => exact absurd cmd bound
        | list | info | appInfo | upload | command | reply | offline | capture | unknown => rfl

/-- In a run of the server its account requests are served one after another. -/
theorem run_served {δ : Type} {m : Mysql δ} {k : Codec} {es : List Event} {s s' : State δ}
    (run : Trace (Steps m k) s es s') :
    ∃ xs, xs.map Exchange.value = es.filterMap Event.accountRequest ∧ Trace (Served m) s.db xs s'.db := by
  induction run with
  | nil s => exact ⟨[], rfl, .nil s.db⟩
  | cons one _ ih =>
      obtain ⟨xs, values, served⟩ := ih
      obtain ⟨sent, stepped⟩ := one
      rcases step_serves stepped with ⟨none, same⟩ | ⟨_, _, _, value, answer, _, -, some_, first, -, -⟩
      · rw [same] at served
        exact ⟨xs, by rw [values, List.filterMap_cons_none none], served⟩
      · exact ⟨⟨value, answer⟩ :: xs, by rw [List.map_cons, values, List.filterMap_cons_some some_], .cons first served⟩

/-! ## Requests without failures -/

/-- No call of the client fails. -/
def never : Operation → Bool := fun _ => false

def Request.appid : Request → Bytes
  | .register appid _ => appid
  | .login appid _ => appid
  | .bind appid _ => appid

/-- The answer the table gives. -/
def Request.answer (l : Accounts) : Request → Json
  | .register appid _ => reply "app_register_reply" (if rowsOf appid l = [] then "success" else "failure")
  | .login appid password => verdict password true true (rowsOf appid l)
  | .bind _ _ => reply "app_bind_reply" "success"

/-- The table after the request. -/
def Request.next (l : Accounts) : Request → Accounts
  | .register appid password => if rowsOf appid l = [] then (Statement.insert appid password).run l else l
  | .login _ _ => l
  | .bind appid deviceid => (Statement.update deviceid appid).run l

theorem outcome_never (q : Request) (l : Accounts) :
    q.outcome never l = .ok (q.answer l, .closed (q.next l)) := by
  cases q with
  | register appid password =>
      simp only [Request.outcome, Request.answer, Request.next]
      cases rowsOf appid l <;> rfl
  | login appid password => rfl
  | bind appid deviceid => rfl

variable {other : Bytes → Database → Bool × Database}

/-- The message is an account request whose fields are plain. -/
def Fair (_ : Database) (x : Exchange) : Prop := ∃ q : Request, Asks x.value q ∧ q.Plain

/-- The account requests of a history, each with its answer. -/
abbrev History (other : Bytes → Database → Bool × Database) : Database → List Exchange → Database → Prop :=
  Trace (guarded Fair (Served (mysql never other)))

theorem account_of_asks {value : Json} {q : Request} (asks : Asks value q) :
    accountCommands.any value.isCmd = true := by
  cases q with
  | register appid password => simp [accountCommands, asks.1]
  | login appid password => simp [accountCommands, asks.1]
  | bind appid deviceid => simp [accountCommands, asks.1]

theorem served_iff {q : Request} {x : Exchange} (asks : Asks x.value q) (understood : q.Understood)
    {db db' : Database} : Served (mysql never other) db x db' ↔
      x.answer = q.answer db.accounts ∧ db' = .closed (q.next db.accounts) := by
  have command : accountCommands.any x.value.isCmd = true := account_of_asks asks
  rw [Served, requestReply_mysql asks understood, outcome_never]
  simp [command, eq_comm]

/-- What one request of a history does. -/
theorem fair_step {x : Exchange} {db db' : Database}
    (h : guarded Fair (Served (mysql never other)) db x db') :
    ∃ q : Request, Asks x.value q ∧ q.Plain ∧ x.answer = q.answer db.accounts ∧
      db' = .closed (q.next db.accounts) := by
  obtain ⟨⟨q, asks, plain⟩, served⟩ := h
  obtain ⟨answer, next⟩ := (served_iff asks (understood_of_plain plain)).mp served
  exact ⟨q, asks, plain, answer, next⟩

/-! ## The table of a history -/

theorem rowsOf_eq_nil {appid : Bytes} {l : Accounts} : rowsOf appid l = [] ↔ ∀ x ∈ l, x.appid ≠ appid := by
  simp [rowsOf, List.filter_eq_nil_iff]

theorem appids_update (deviceid appid : Bytes) (l : Accounts) :
    ((Statement.update deviceid appid).run l).map Account.appid = l.map Account.appid := by
  rw [Statement.run, List.map_map]
  refine List.map_congr_left fun x _ => ?_
  simp only [Function.comp_apply]
  split <;> rfl

/-- A registration is answered success. -/
def Registers (appid password : Bytes) (x : Exchange) : Prop :=
  Asks x.value (.register appid password) ∧ x.answer = reply "app_register_reply" "success"

/-- Some registration of the history was answered success. -/
def Registered (xs : List Exchange) (appid password : Bytes) : Prop := ∃ x ∈ xs, Registers appid password x

/-- One row to an appid, a row for every registration that was answered success,
and no password that ends early. -/
structure Kept (xs : List Exchange) (l : Accounts) : Prop where
  nodup : (l.map Account.appid).Nodup
  rows : ∀ appid password, Registered xs appid password ↔
    ∃ x ∈ l, x.appid = appid ∧ x.password = password
  whole : ∀ x ∈ l, 0 ∉ x.password

theorem asks_unique {value : Json} {q q' : Request} (h : Asks value q) (h' : Asks value q') : q = q' := by
  have apart {name name' : String} (cmd : value.isCmd name = true) (cmd' : value.isCmd name' = true) :
      (lit name == lit name') = true := by rw [← Json.isCmd_unique cmd, cmd']
  cases q with
  | register appid password =>
      cases q' with
      | register appid' password' =>
          cases h.2.1.symm.trans h'.2.1
          cases h.2.2.symm.trans h'.2.2
          rfl
      | login _ _ => exact absurd (apart h.1 h'.1) (by decide)
      | bind _ _ => exact absurd (apart h.1 h'.1) (by decide)
  | login appid password =>
      cases q' with
      | register _ _ => exact absurd (apart h.1 h'.1) (by decide)
      | login appid' password' =>
          cases h.2.1.symm.trans h'.2.1
          cases h.2.2.symm.trans h'.2.2
          rfl
      | bind _ _ => exact absurd (apart h.1 h'.1) (by decide)
  | bind appid deviceid =>
      cases q' with
      | register _ _ => exact absurd (apart h.1 h'.1) (by decide)
      | login _ _ => exact absurd (apart h.1 h'.1) (by decide)
      | bind appid' deviceid' =>
          cases h.2.1.symm.trans h'.2.1
          cases h.2.2.symm.trans h'.2.2
          rfl

theorem registered_append {xs : List Exchange} {x : Exchange} {appid password : Bytes} :
    Registered (xs ++ [x]) appid password ↔ Registered xs appid password ∨ Registers appid password x := by
  simp [Registered, or_and_right, exists_or]

/-- A request registers exactly if it is a registration and its appid has no row. -/
theorem registers_iff {q : Request} {x : Exchange} {l : Accounts} (asks : Asks x.value q)
    (answer : x.answer = q.answer l) {appid password : Bytes} :
    Registers appid password x ↔ q = .register appid password ∧ rowsOf appid l = [] := by
  constructor
  · rintro ⟨same, success⟩
    obtain rfl := asks_unique asks same
    refine ⟨rfl, ?_⟩
    rw [answer] at success
    by_contra rows
    simp only [Request.answer, if_neg rows] at success
    exact absurd (reply_inj success) (by decide)
  · rintro ⟨rfl, rows⟩
    refine ⟨asks, ?_⟩
    rw [answer, Request.answer, if_pos rows]

/-- The insert of a registration that found no row. -/
theorem nodup_insert {l : Accounts} {appid password : Bytes} (nodup : (l.map Account.appid).Nodup)
    (fresh : rowsOf appid l = []) : (((Statement.insert appid password).run l).map Account.appid).Nodup := by
  rw [Statement.run, List.map_append, List.nodup_append]
  refine ⟨nodup, List.nodup_singleton _, ?_⟩
  simpa using rowsOf_eq_nil.mp fresh

theorem mem_insert {l : Accounts} {appid password other secret : Bytes} :
    (∃ row ∈ (Statement.insert appid password).run l, row.appid = other ∧ row.password = secret) ↔
      (∃ row ∈ l, row.appid = other ∧ row.password = secret) ∨ appid = other ∧ password = secret := by
  rw [Statement.run]
  simp only [List.mem_append, List.mem_singleton, or_and_right, exists_or, exists_eq_left]

/-- An update moves no account. -/
theorem mem_update {l : Accounts} {deviceid appid other secret : Bytes} :
    (∃ row ∈ (Statement.update deviceid appid).run l, row.appid = other ∧ row.password = secret) ↔
      ∃ row ∈ l, row.appid = other ∧ row.password = secret := by
  rw [Statement.run]
  simp only [List.mem_map, exists_exists_and_eq_and]
  refine exists_congr fun row => and_congr_right fun _ => ?_
  split <;> rfl

theorem kept_step {xs : List Exchange} {x : Exchange} {l : Accounts} {q : Request} (kept : Kept xs l)
    (asks : Asks x.value q) (plain : q.Plain) (answer : x.answer = q.answer l) :
    Kept (xs ++ [x]) (q.next l) := by
  have grown (appid password : Bytes) : Registered (xs ++ [x]) appid password ↔
      (∃ row ∈ l, row.appid = appid ∧ row.password = password) ∨
        q = .register appid password ∧ rowsOf appid l = [] := by
    rw [registered_append, kept.rows, registers_iff asks answer]
  cases q with
  | register appid password =>
      by_cases fresh : rowsOf appid l = []
      · rw [Request.next, if_pos fresh]
        refine ⟨nodup_insert kept.nodup fresh, fun other secret => ?_, fun row member => ?_⟩
        · rw [grown, mem_insert, Request.register.injEq]
          refine or_congr_right ⟨And.left, fun same => ⟨same, ?_⟩⟩
          rw [← same.1, fresh]
        · rcases List.mem_append.mp member with old | new
          · exact kept.whole row old
          · rw [List.mem_singleton.mp new]
            exact plain.2.1
      · rw [Request.next, if_neg fresh]
        refine ⟨kept.nodup, fun other secret => ?_, kept.whole⟩
        rw [grown, or_iff_left]
        rintro ⟨same, none⟩
        cases same
        exact fresh none
  | login appid password =>
      refine ⟨kept.nodup, fun other secret => ?_, kept.whole⟩
      rw [grown, or_iff_left (fun new => nomatch new.1), Request.next]
  | bind appid deviceid =>
      refine ⟨?_, fun other secret => ?_, fun row member => ?_⟩
      · rw [Request.next, appids_update]
        exact kept.nodup
      · rw [grown, or_iff_left (fun new => nomatch new.1), Request.next, mem_update]
      · obtain ⟨old, there, rfl⟩ := List.mem_map.mp member
        split
        · exact kept.whole old there
        · exact kept.whole old there

/-- What holds after every history. -/
theorem history_kept {xs : List Exchange} {db : Database} (history : History other (.closed []) xs db) :
    Kept xs db.accounts := by
  have start : Kept [] (Database.closed []).accounts :=
    ⟨List.nodup_nil, fun appid password => by simp [Registered, Database.closed], fun x none => nomatch none⟩
  refine history.history (I := fun past db => Kept past db.accounts) ?_ start
  intro past db x db' kept one
  obtain ⟨q, asks, plain, answer, rfl⟩ := fair_step one
  exact kept_step kept asks plain answer

/-- In every run of the server whose account requests are fair the table is kept so. -/
theorem run_kept {k : Codec} {es : List Event} {s : State Database}
    (run : Trace (Steps (mysql never other) k) (empty (.closed [])) es s)
    (fair : ∀ value ∈ es.filterMap Event.accountRequest, ∃ q : Request, Asks value q ∧ q.Plain) :
    ∃ xs, xs.map Exchange.value = es.filterMap Event.accountRequest ∧ Kept xs s.db.accounts := by
  obtain ⟨xs, values, served⟩ := run_served run
  have history : History other (.closed []) xs s.db :=
    served.guard fun x member => fair x.value (values ▸ List.mem_map_of_mem member)
  exact ⟨xs, values, history_kept history⟩

/-- A request keeps the rows where they are, with their passwords, and those of
other appids as they are. -/
theorem next_keeps (q : Request) {l : Accounts} {i : Nat} {row : Account} (at_ : l[i]? = some row) :
    ∃ row', (q.next l)[i]? = some row' ∧ row'.appid = row.appid ∧ row'.password = row.password ∧
      (q.appid ≠ row.appid → row' = row) := by
  cases q with
  | register appid password =>
      rw [Request.next]
      split
      · refine ⟨row, ?_, rfl, rfl, fun _ => rfl⟩
        obtain ⟨inside, -⟩ := List.getElem?_eq_some_iff.mp at_
        rw [Statement.run, List.getElem?_append_left inside, at_]
      · exact ⟨row, at_, rfl, rfl, fun _ => rfl⟩
  | login appid password => exact ⟨row, at_, rfl, rfl, fun _ => rfl⟩
  | bind appid deviceid =>
      rw [Request.next, Statement.run]
      refine ⟨_, by rw [List.getElem?_map, at_]; rfl, ?_⟩
      dsimp only
      split
      next same => exact ⟨rfl, rfl, fun other => absurd same.symm other⟩
      next => exact ⟨rfl, rfl, fun _ => rfl⟩

/-- The one row of an appid. -/
theorem kept_rowsOf {xs : List Exchange} {l : Accounts} (kept : Kept xs l) {appid : Bytes} {first : Account}
    {rest : Accounts} (rows : rowsOf appid l = first :: rest) (password : Bytes) :
    Registered xs appid password ↔ first.password = password := by
  have member : first ∈ l ∧ first.appid = appid := mem_rowsOf.mp (rows ▸ List.mem_cons_self)
  rw [kept.rows]
  constructor
  · rintro ⟨row, inside, account, rfl⟩
    have same : row = first := List.inj_on_of_nodup_map kept.nodup inside member.1 (account.trans member.2.symm)
    rw [same]
  · rintro rfl
    exact ⟨first, member.1, member.2, rfl⟩

theorem kept_whole {xs : List Exchange} {l : Accounts} (kept : Kept xs l) {appid : Bytes} {first : Account}
    {rest : Accounts} (rows : rowsOf appid l = first :: rest) : cstr first.password = first.password :=
  cstr_eq_self (kept.whole first (mem_rowsOf.mp (rows ▸ List.mem_cons_self)).1)

theorem kept_none {xs : List Exchange} {l : Accounts} (kept : Kept xs l) {appid : Bytes} :
    rowsOf appid l = [] ↔ ¬ ∃ password, Registered xs appid password := by
  rw [rowsOf_eq_nil]
  constructor
  · rintro none ⟨password, registered⟩
    obtain ⟨row, member, same, -⟩ := (kept.rows appid password).mp registered
    exact none row member same
  · intro none row member same
    exact none ⟨row.password, (kept.rows appid row.password).mpr ⟨row, member, same, rfl⟩⟩

/-- A login asks only for rows of its appid, so its password may be anything. -/
theorem understood_login {appid password : Bytes} (plain : Plain 11 appid) :
    (Request.login appid password).Understood := by
  intro st member
  simp only [Request.statements, List.mem_cons, List.not_mem_nil, or_false] at member
  rcases member with rfl | rfl | rfl
  all_goals exact ⟨faithful_of_plain (by simpa [Statement.fields] using plain.mono (by decide)), rfl⟩

/-- The answer to a login after a history, from the registrations in it. -/
theorem kept_login {xs : List Exchange} {l : Accounts} (kept : Kept xs l) (appid password : Bytes) :
    let answer := (Request.login appid password).answer l
    (answer = reply "app_login_reply" "not_exist" ↔ ¬ ∃ other, Registered xs appid other) ∧
    (answer = reply "app_login_reply" "password_error" ↔ ∃ other, other ≠ password ∧ Registered xs appid other) ∧
    ((answer = reply "app_login_reply" "not_bind" ∨ ∃ deviceid, answer = bindAnswer deviceid) ↔
      Registered xs appid password) := by
  have apart {result result' : String} (differ : lit result ≠ lit result') :
      reply "app_login_reply" result ≠ reply "app_login_reply" result' := fun same => differ (reply_inj same)
  intro answer
  rcases verdict_cases password true true (rowsOf appid l) with
    ⟨empty, told⟩ | ⟨first, rest, rows, ⟨wrong, told⟩ | ⟨right, ⟨-, told⟩ | ⟨-, deviceid, -, told⟩⟩⟩
  · have none := (kept_none kept).mp empty
    rw [show answer = reply "app_login_reply" "not_exist" from told]
    refine ⟨iff_of_true rfl none, iff_of_false (apart (by decide)) ?_, iff_of_false ?_ ?_⟩
    · exact fun ⟨other, _, registered⟩ => none ⟨other, registered⟩
    · rintro (same | ⟨deviceid, same⟩)
      · exact apart (by decide) same
      · exact bindAnswer_ne_reply same.symm
    · exact fun registered => none ⟨password, registered⟩
  · rw [kept_whole kept rows] at wrong
    have registers := kept_rowsOf kept rows
    have other : first.password ≠ password := fun same => wrong ⟨rfl, same⟩
    rw [show answer = reply "app_login_reply" "password_error" from told]
    refine ⟨iff_of_false (apart (by decide)) ?_, iff_of_true rfl ⟨first.password, other, (registers _).mpr rfl⟩,
      iff_of_false ?_ ?_⟩
    · exact fun none => none ⟨first.password, (registers _).mpr rfl⟩
    · rintro (same | ⟨deviceid, same⟩)
      · exact apart (by decide) same
      · exact bindAnswer_ne_reply same.symm
    · exact fun registered => other ((registers _).mp registered)
  all_goals
    rw [kept_whole kept rows] at right
    have registers := kept_rowsOf kept rows
    have registered := (registers password).mpr right.2
    have unique (other : Bytes) (reg : Registered xs appid other) : other = password :=
      ((registers other).mp reg).symm.trans right.2
  · rw [show answer = reply "app_login_reply" "not_bind" from told]
    refine ⟨iff_of_false (apart (by decide)) fun none => none ⟨password, registered⟩,
      iff_of_false (apart (by decide)) ?_, iff_of_true (.inl rfl) registered⟩
    exact fun ⟨other, differs, reg⟩ => differs (unique other reg)
  · rw [show answer = bindAnswer (cstr deviceid) from told]
    refine ⟨iff_of_false bindAnswer_ne_reply fun none => none ⟨password, registered⟩,
      iff_of_false bindAnswer_ne_reply ?_, iff_of_true (.inr ⟨_, rfl⟩) registered⟩
    exact fun ⟨other, differs, reg⟩ => differs (unique other reg)

theorem login_answered {value : Json} {appid password : Bytes} (asks : Asks value (.login appid password))
    (plain : Plain 11 appid) (db : Database) :
    requestReply (mysql never other) value db =
      .ok ((Request.login appid password).answer db.accounts, .closed db.accounts) := by
  rw [requestReply_mysql asks (understood_login plain), outcome_never]
  rfl

/-- After every history the table has one row to an appid, a request changes no
password and no row of another appid, and a login is answered from the
registrations that succeeded. -/
theorem accounts_kept {xs : List Exchange} {db : Database} (history : History other (.closed []) xs db) :
    (db.accounts.map Account.appid).Nodup ∧
    (∀ x db', guarded Fair (Served (mysql never other)) db x db' →
      ∀ (i : Nat) row, db.accounts[i]? = some row →
        ∃ row', db'.accounts[i]? = some row' ∧ row'.appid = row.appid ∧ row'.password = row.password ∧
          ∀ q, Asks x.value q → q.appid ≠ row.appid → row' = row) ∧
    ∀ value appid password, Asks value (.login appid password) → Plain 11 appid →
      ∃ answer db', requestReply (mysql never other) value db = .ok (answer, db') ∧
        (answer = reply "app_login_reply" "not_exist" ↔ ¬ ∃ p, Registered xs appid p) ∧
        (answer = reply "app_login_reply" "password_error" ↔ ∃ p, p ≠ password ∧ Registered xs appid p) ∧
        ((answer = reply "app_login_reply" "not_bind" ∨ ∃ deviceid, answer = bindAnswer deviceid) ↔
          Registered xs appid password) := by
  have kept := history_kept history
  refine ⟨kept.nodup, fun x db' one i row at_ => ?_, fun value appid password asks plain => ?_⟩
  · obtain ⟨q, asks, -, -, rfl⟩ := fair_step one
    obtain ⟨row', there, account, secret, others⟩ := next_keeps q at_
    refine ⟨row', there, account, secret, fun q' asks' => ?_⟩
    rw [asks_unique asks' asks]
    exact others
  · exact ⟨_, _, login_answered asks plain db, kept_login kept appid password⟩

/-- The exchange of a request on a table. -/
def Request.exchange (l : Accounts) (q : Request) : Exchange := ⟨q.message, q.answer l⟩

theorem exchange_step {q : Request} (plain : q.Plain) (l : Accounts) :
    guarded Fair (Served (mysql never other)) (.closed l) (q.exchange l) (.closed (q.next l)) :=
  ⟨⟨q, asks_message q, plain⟩, (served_iff (asks_message q) (understood_of_plain plain)).mpr ⟨rfl, rfl⟩⟩

/-- One request after another, each answered from the table the last one left. -/
def exchanges (l : Accounts) : List Request → List Exchange
  | [] => []
  | q :: qs => q.exchange l :: exchanges (q.next l) qs

theorem exchanges_history (qs : List Request) (plain : ∀ q ∈ qs, q.Plain) (l : Accounts) :
    History other (.closed l) (exchanges l qs) (.closed (qs.foldl Request.next l)) := by
  induction qs generalizing l with
  | nil => exact .nil _
  | cons q qs ih =>
      exact .cons (exchange_step (plain q List.mem_cons_self) l)
        (ih (fun q member => plain q (List.mem_cons_of_mem _ member)) (q.next l))

def severalRequests : List Request :=
  [.register (lit "a") (lit "p"), .register (lit "a") (lit "q"), .register (lit "b") (lit "r"),
    .bind (lit "a") (lit "0001")]

def severalAccounts : Accounts := [⟨lit "a", lit "p", some (lit "0001")⟩, ⟨lit "b", lit "r", none⟩]

/-- A second registration of an appid adds no row, its password is refused, and
binding the other appid leaves the first row alone. -/
theorem several_kept :
    (severalAccounts.map Account.appid).Nodup ∧
    ((Request.bind (lit "b") (lit "0002")).next severalAccounts)[0]? =
      some ⟨lit "a", lit "p", some (lit "0001")⟩ ∧
    ∃ db, requestReply (mysql never refuse) (Request.login (lit "a") (lit "q")).message (.closed severalAccounts) =
      .ok (reply "app_login_reply" "password_error", db) := by
  have history : History refuse (.closed []) (exchanges [] severalRequests) (.closed severalAccounts) :=
    exchanges_history severalRequests (by decide) []
  obtain ⟨nodup, kept, logs⟩ := accounts_kept history
  refine ⟨nodup, ?_, ?_⟩
  · obtain ⟨row, at_, -, -, others⟩ := kept _ _ (exchange_step (q := .bind (lit "b") (lit "0002")) (by decide) _)
      0 ⟨lit "a", lit "p", some (lit "0001")⟩ rfl
    rw [others _ (asks_message (.bind (lit "b") (lit "0002"))) (by decide)] at at_
    exact at_
  · obtain ⟨answer, db, replied, -, wrong, -⟩ :=
      logs _ _ _ (asks_message (.login (lit "a") (lit "q"))) (by decide)
    have first : Registered (exchanges [] severalRequests) (lit "a") (lit "p") :=
      ⟨_, List.mem_cons_self, asks_message (.register (lit "a") (lit "p")), rfl⟩
    rw [wrong.mpr ⟨lit "p", by decide, first⟩] at replied
    exact ⟨db, replied⟩

/-- A password with a zero byte in it is stored up to that byte, and then refused. -/
theorem password_cut_at_zero :
    Trace (Served (mysql never refuse)) (.closed [])
        [(Request.register (lit "a") [112, 0, 113]).exchange []] (.closed [⟨lit "a", lit "p", none⟩]) ∧
      Registered [(Request.register (lit "a") [112, 0, 113]).exchange []] (lit "a") [112, 0, 113] ∧
      (∀ p, p ≠ [112, 0, 113] →
        ¬ Registered [(Request.register (lit "a") [112, 0, 113]).exchange []] (lit "a") p) ∧
      requestReply (mysql never refuse) (Request.login (lit "a") [112, 0, 113]).message
          (.closed [⟨lit "a", lit "p", none⟩]) =
        .ok (reply "app_login_reply" "password_error", .closed [⟨lit "a", lit "p", none⟩]) := by
  refine ⟨.cons ⟨by rfl, by rfl⟩ (.nil _), ?_, ?_, by rfl⟩
  · exact ⟨_, List.mem_cons_self, asks_message (.register (lit "a") [112, 0, 113]), rfl⟩
  · rintro p other ⟨x, member, asks, -⟩
    cases List.mem_singleton.mp member
    have same := asks_unique asks (asks_message (.register (lit "a") [112, 0, 113]))
    cases same
    exact other rfl

/-! ## What a binding means

A zero byte ends what a statement has of a field, so that two appids may share
one row. -/

/-- The fields that stand in its statements are plain up to their first zero byte. -/
def Request.Clear : Request → Prop
  | .register appid password => Server.Plain 11 (cstr appid) ∧ Server.Plain 16 (cstr password)
  | .login appid _ => Server.Plain 11 (cstr appid)
  | .bind appid deviceid => Server.Plain 11 (cstr appid) ∧ Server.Plain 8 (cstr deviceid)

instance : DecidablePred Request.Clear
  | .register appid password =>
      inferInstanceAs (Decidable (Server.Plain 11 (cstr appid) ∧ Server.Plain 16 (cstr password)))
  | .login appid _ => inferInstanceAs (Decidable (Server.Plain 11 (cstr appid)))
  | .bind appid deviceid =>
      inferInstanceAs (Decidable (Server.Plain 11 (cstr appid) ∧ Server.Plain 8 (cstr deviceid)))

theorem understood_of_clear {q : Request} (clear : q.Clear) : q.heard.Understood := by
  cases q with
  | register appid password => exact understood_of_plain (q := .register (cstr appid) (cstr password)) clear
  | login appid password => exact understood_login clear
  | bind appid deviceid => exact understood_of_plain (q := .bind (cstr appid) (cstr deviceid)) clear

/-- The message is an account request that is clear. -/
def Clearly (_ : Database) (x : Exchange) : Prop := ∃ q : Request, Asks x.value q ∧ q.Clear

/-- A history in which zero bytes are sent, too. -/
abbrev ClearHistory (other : Bytes → Database → Bool × Database) :
    Database → List Exchange → Database → Prop :=
  Trace (guarded Clearly (Served (mysql never other)))

theorem served_heard {q : Request} {x : Exchange} (asks : Asks x.value q) (clear : q.Clear) {db db' : Database} :
    Served (mysql never other) db x db' ↔
      x.answer = q.heard.answer db.accounts ∧ db' = .closed (q.heard.next db.accounts) := by
  have command : accountCommands.any x.value.isCmd = true := account_of_asks asks
  rw [Served, requestReply_heard asks ((understood_of_clear clear).read _ _), outcome_never]
  simp [command, eq_comm]

theorem clear_step {x : Exchange} {db db' : Database}
    (h : guarded Clearly (Served (mysql never other)) db x db') :
    ∃ q : Request, Asks x.value q ∧ x.answer = q.heard.answer db.accounts ∧
      db' = .closed (q.heard.next db.accounts) := by
  obtain ⟨⟨q, asks, clear⟩, served⟩ := h
  obtain ⟨answer, next⟩ := (served_heard asks clear).mp served
  exact ⟨q, asks, answer, next⟩

/-- The first row of the appid has the password and the device. -/
def Holds (appid password : Bytes) (device : Option Bytes) (l : Accounts) : Prop :=
  ∃ first rest, rowsOf appid l = first :: rest ∧ first.password = password ∧ first.deviceid = device

/-- The device an appid that has `device` has after the request. -/
def Request.rebinds (appid : Bytes) (device : Option Bytes) : Request → Option Bytes
  | .bind other deviceid => if cstr other = cstr appid then some (cstr deviceid) else device
  | .register _ _ => device
  | .login _ _ => device

theorem holds_next {appid password : Bytes} {device : Option Bytes} {l : Accounts}
    (holds : Holds (cstr appid) password device l) (q : Request) :
    Holds (cstr appid) password (q.rebinds appid device) (q.heard.next l) := by
  obtain ⟨first, rest, rows, has⟩ := holds
  cases q with
  | register other secret =>
      rw [Request.heard, Request.next]
      split
      · refine ⟨first, rest ++ if cstr other = cstr appid then [⟨cstr other, cstr secret, none⟩] else [], ?_, has⟩
        rw [rowsOf_insert, rows, List.cons_append]
      · exact ⟨first, rest, rows, has⟩
  | login other secret => exact ⟨first, rest, rows, has⟩
  | bind other deviceid =>
      rw [Request.heard, Request.next, Request.rebinds]
      by_cases same : cstr other = cstr appid
      · rw [if_pos same]
        refine ⟨{ first with deviceid := some (cstr deviceid) },
          rest.map fun x => { x with deviceid := some (cstr deviceid) }, ?_, has.1, rfl⟩
        rw [rowsOf_update, if_pos same, rows, List.map_cons]
      · rw [if_neg same]
        refine ⟨first, rest, ?_, has⟩
        rw [rowsOf_update, if_neg same, rows]

/-- What a registration that was answered success is sure of. -/
theorem registered_holds {xs : List Exchange} {db : Database} (history : ClearHistory other (.closed []) xs db)
    {appid password : Bytes} (registered : Registered xs appid password) :
    ∃ device, Holds (cstr appid) (cstr password) device db.accounts := by
  revert registered
  refine history.history_nil (I := fun past db => Registered past appid password →
    ∃ device, Holds (cstr appid) (cstr password) device db.accounts) ?_ ?_
  · intro past db x db' ih one registered
    obtain ⟨q, asks, answer, rfl⟩ := clear_step one
    rcases registered_append.mp registered with old | ⟨same, success⟩
    · obtain ⟨device, holds⟩ := ih old
      exact ⟨_, holds_next holds q⟩
    · obtain rfl := asks_unique asks same
      rw [answer] at success
      by_cases fresh : rowsOf (cstr appid) db.accounts = []
      · refine ⟨none, ⟨cstr appid, cstr password, none⟩, [], ?_, rfl, rfl⟩
        rw [Database.closed, Request.heard, Request.next, if_pos fresh, rowsOf_insert, fresh, if_pos rfl]
        rfl
      · rw [Request.heard, Request.answer, if_neg fresh] at success
        exact absurd (reply_inj success) (by decide)
  · rintro ⟨x, none, -⟩
    cases none

/-- The requests that come later leave the appid with `final`: the last of those
that bind an appid with the same text up to a zero byte names it so. -/
def Leaves (appid final : Bytes) : Option Bytes → List Exchange → Prop
  | device, [] => device = some final
  | device, y :: ys => ∀ q, Asks y.value q → Leaves appid final (q.rebinds appid device) ys

theorem leaves_of_unbound {appid final : Bytes} {ys : List Exchange}
    (unbound : ∀ y ∈ ys, ∀ a d, Asks y.value (.bind a d) → cstr a ≠ cstr appid) :
    Leaves appid final (some final) ys := by
  induction ys with
  | nil => rfl
  | cons y ys ih =>
      intro q asks
      have still : q.rebinds appid (some final) = some final := by
        cases q with
        | bind a d => exact if_neg (unbound y List.mem_cons_self a d asks)
        | register a p => rfl
        | login a p => rfl
      rw [still]
      exact ih fun z member => unbound z (List.mem_cons_of_mem _ member)

/-- A history leaves the appid with one device, which the first row then has. -/
theorem holds_history {ys : List Exchange} {db later : Database} (history : ClearHistory other db ys later)
    {appid password device : Bytes} (holds : Holds (cstr appid) password (some device) db.accounts)
    (whole : 0 ∉ device) :
    ∃ final, 0 ∉ final ∧ Holds (cstr appid) password (some final) later.accounts ∧
      ∀ other, Leaves appid other (some device) ys ↔ final = other := by
  induction history generalizing device with
  | nil db => exact ⟨device, whole, holds, fun other => Option.some_inj⟩
  | cons one _ ih =>
      obtain ⟨q, asks, -, rfl⟩ := clear_step one
      have next := holds_next holds q
      have some_ : ∃ device', 0 ∉ device' ∧ q.rebinds appid (some device) = some device' := by
        cases q with
        | register a p => exact ⟨device, whole, rfl⟩
        | login a p => exact ⟨device, whole, rfl⟩
        | bind a d =>
            rw [Request.rebinds]
            split
            · exact ⟨cstr d, zero_not_mem_cstr d, rfl⟩
            · exact ⟨device, whole, rfl⟩
      obtain ⟨device', whole', rebound⟩ := some_
      rw [rebound] at next
      obtain ⟨final, free, last, only⟩ := ih next whole'
      refine ⟨final, free, last, fun other => ?_⟩
      rw [← only, ← rebound]
      constructor
      · exact fun leaves => leaves q asks
      · intro leaves q' asks'
        rw [asks_unique asks' asks]
        exact leaves

/-- A login of an appid that has a row and a device. -/
theorem login_holds {value : Json} {appid password secret final : Bytes} (asks : Asks value (.login appid password))
    (clear : Server.Plain 11 (cstr appid)) {db : Database} (holds : Holds (cstr appid) (cstr secret) (some final) db.accounts)
    (free : 0 ∉ final) :
    requestReply (mysql never other) value db =
      .ok (if password = cstr secret then bindAnswer final else reply "app_login_reply" "password_error",
        .closed db.accounts) := by
  obtain ⟨first, rest, rows, right, device⟩ := holds
  rw [requestReply_heard asks ((understood_of_clear (q := .login appid password) clear).read _ _), Request.heard,
    outcome_never, Request.answer, rows, verdict, right, device, cstr_cstr]
  simp only [Bool.true_and, beq_iff_eq, if_true, Option.map_some, cstr_eq_self free]
  rfl

/-- A binding means what it is answered, for the logins that come after any
further requests, exactly if the appid is registered with a password that has no
zero byte, the device has none, and no later binding of an appid that is cut to
the same text has named another device last. -/
theorem bind_means_iff {xs ys : List Exchange} {db db' later : Database}
    (history : ClearHistory other (.closed []) xs db) {x : Exchange} {appid deviceid : Bytes}
    (asks : Asks x.value (.bind appid deviceid)) (clear : (Request.bind appid deviceid).Clear)
    (served : Served (mysql never other) db x db') (after : ClearHistory other db' ys later) :
    (x.answer = reply "app_bind_reply" "success" ↔
      ∃ password, Registered xs appid password ∧ ∀ value, Asks value (.login appid password) →
        ∃ db₂, requestReply (mysql never other) value later = .ok (bindAnswer deviceid, db₂)) ↔
    (∃ password, Registered xs appid password ∧ 0 ∉ password) ∧ 0 ∉ deviceid ∧
      Leaves appid deviceid (some (cstr deviceid)) ys := by
  obtain ⟨answer, rfl⟩ := (served_heard asks clear).mp served
  rw [iff_true_left (show x.answer = reply "app_bind_reply" "success" from answer)]
  -- whoever is registered has the device now, and after the later requests the one they leave
  have bound {password : Bytes} (registered : Registered xs appid password) :
      ∃ final, 0 ∉ final ∧ Holds (cstr appid) (cstr password) (some final) later.accounts ∧
        ∀ other, Leaves appid other (some (cstr deviceid)) ys ↔ final = other := by
    obtain ⟨device, holds⟩ := registered_holds history registered
    have next := holds_next holds (.bind appid deviceid)
    rw [Request.rebinds, if_pos rfl] at next
    exact holds_history after next (zero_not_mem_cstr deviceid)
  constructor
  · rintro ⟨password, registered, logs⟩
    obtain ⟨final, free, holds, only⟩ := bound registered
    obtain ⟨db₂, logged⟩ := logs _ (asks_message (.login appid password))
    rw [login_holds (asks_message (.login appid password)) clear.1 holds free] at logged
    have told := (Prod.mk.inj (Except.ok.inj logged)).1
    by_cases right : password = cstr password
    · rw [if_pos right] at told
      obtain rfl := bindAnswer_inj told
      exact ⟨⟨password, registered, right ▸ zero_not_mem_cstr password⟩, free, (only final).mpr rfl⟩
    · rw [if_neg right] at told
      exact absurd told.symm bindAnswer_ne_reply
  · rintro ⟨⟨password, registered, whole⟩, -, leaves⟩
    obtain ⟨final, free, holds, only⟩ := bound registered
    obtain rfl := (only _).mp leaves
    refine ⟨password, registered, fun value login => ⟨.closed later.accounts, ?_⟩⟩
    rw [login_holds login clear.1 holds free, if_pos (cstr_eq_self whole).symm]

theorem clear_of_plain {q : Request} (plain : q.Plain) : q.Clear := by
  cases q with
  | register appid password =>
      rw [Request.Clear, cstr_eq_self plain.1.1, cstr_eq_self plain.2.1]
      exact plain
  | login appid password =>
      rw [Request.Clear, cstr_eq_self plain.1.1]
      exact plain.1
  | bind appid deviceid =>
      rw [Request.Clear, cstr_eq_self plain.1.1, cstr_eq_self plain.2.1]
      exact plain

theorem clear_history {xs : List Exchange} {db db' : Database} (history : History other db xs db') :
    ClearHistory other db xs db' :=
  history.mono fun _ _ _ ⟨⟨q, asks, plain⟩, served⟩ => ⟨⟨q, asks, clear_of_plain plain⟩, served⟩

/-- A registered appid is bound, and stays so while another one is bound. -/
theorem registered_then_bound :
    ((Request.bind (lit "a") (lit "0001")).exchange [⟨lit "a", lit "p", none⟩]).answer =
        reply "app_bind_reply" "success" ↔
      ∃ password, Registered (exchanges [] [.register (lit "a") (lit "p")]) (lit "a") password ∧
        ∀ value, Asks value (.login (lit "a") password) → ∃ db₂, requestReply (mysql never refuse) value
          (.closed [⟨lit "a", lit "p", some (lit "0001")⟩]) = .ok (bindAnswer (lit "0001"), db₂) := by
  refine (bind_means_iff (clear_history (exchanges_history [.register (lit "a") (lit "p")] (by decide) []))
    (asks_message (.bind (lit "a") (lit "0001"))) (by decide)
    (exchange_step (q := .bind (lit "a") (lit "0001")) (by decide) _).2
    (clear_history (exchanges_history [.bind (lit "b") (lit "0002"), .login (lit "a") (lit "p")] (by decide) _))).mpr ?_
  refine ⟨⟨lit "p", ⟨_, List.mem_cons_self, asks_message (.register (lit "a") (lit "p")), rfl⟩, by decide⟩,
    by decide, ?_⟩
  refine leaves_of_unbound fun y member a d asks => ?_
  rcases List.mem_cons.mp member with rfl | member
  · cases asks_unique asks (asks_message (.bind (lit "b") (lit "0002")))
    decide
  · cases List.mem_singleton.mp member
    cases asks_unique asks (asks_message (.login (lit "a") (lit "p")))

/-- An appid nobody registered is bound with success, and no login finds it. -/
theorem unknown_bound_success :
    Served (mysql never refuse) (.closed []) ((Request.bind (lit "a") (lit "0001")).exchange []) (.closed []) ∧
      ¬ (((Request.bind (lit "a") (lit "0001")).exchange []).answer = reply "app_bind_reply" "success" ↔
        ∃ password, Registered [] (lit "a") password ∧ ∀ value, Asks value (.login (lit "a") password) →
          ∃ db₂, requestReply (mysql never refuse) value (.closed []) = .ok (bindAnswer (lit "0001"), db₂)) := by
  refine ⟨(exchange_step (q := .bind (lit "a") (lit "0001")) (by decide) []).2, fun means => ?_⟩
  obtain ⟨password, ⟨x, member, -⟩, -⟩ := means.mp rfl
  cases member

end MusicPlayer.Server
