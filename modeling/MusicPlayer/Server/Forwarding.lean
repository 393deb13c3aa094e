import MusicPlayer.Server.Isolation

/-! What the server's packets say: only a command is sent on as a command, and
between an app and the speaker it is paired with, commands and answers go to
these two alone. -/
namespace MusicPlayer.Server
open CBytes FirstMatch

variable {δ : Type} (m : Mysql δ) (k : Codec)

/-! ## What the server sends -/

/-- Every packet is the text of a value of this kind. -/
def Carries (P : Json → Prop) (sent : List Send) : Prop :=
  ∀ x ∈ sent, ∃ w, P w ∧ x.bytes = frame k.order (k.write w)

/-- No `cmd` that a reader of C strings takes for an app's command. -/
def Mute (w : Json) : Prop :=
  ∀ name ∈ appCommands, ∀ text, w.member (lit "cmd") = .string text → cstr text ≠ lit name

theorem mute_isCmd {w : Json} (name : String) (cmd : w.isCmd name = true)
    (other : ∀ command ∈ appCommands, cstr (lit name) ≠ lit command) : Mute w := by
  intro command known text named
  rw [Json.isString_iff.mp cmd] at named
  cases named
  exact other command known

theorem mute_null {w : Json} (none_ : w.member (lit "cmd") = .null) : Mute w := by
  intro name _ text named
  cases none_.symm.trans named

/-- What the server writes itself: no command, under names without a zero byte. -/
structure Own (w : Json) : Prop where
  mute : Mute w
  names : w.PlainNames

theorem carries_nil (P : Json → Prop) : Carries k P [] := by
  intro x member
  cases member

theorem carries_singleton {P : Json → Prop} {bev : Bev} {w : Json} {x : Send} (kind : P w)
    (sends : sendData k bev w = .ok x) : Carries k P [x] := by
  intro y member
  rw [List.mem_singleton.mp member, ((sendData_ok k).mp sends).2]
  exact ⟨w, kind, rfl⟩

theorem getMusicName_own (opendir : Bytes → Option (List Dirent)) (singer : Bytes) :
    Own (getMusicName opendir singer) := by
  unfold getMusicName
  split
  · exact ⟨mute_null rfl, trivial⟩
  · have names : ∀ name ∈ [lit "cmd", lit "music"], 0 ∉ name := by decide
    exact ⟨mute_isCmd "reply_music_list" rfl (by decide), names⟩

theorem captureCurMusicList_carries {bev : Bev} {value : Json} {l : Registry} {sent : List Send}
    (h : captureCurMusicList k bev value l = .ok sent) : Carries k (· = value) sent := by
  induction l generalizing sent with
  | nil =>
      cases h
      exact carries_nil k _
  | cons it rest ih =>
      unfold captureCurMusicList at h
      split at h
      · split at h
        · cases h
        · obtain ⟨x, sends, h⟩ := Except.bind_eq_ok.mp h
          obtain ⟨more, later, h⟩ := Except.bind_eq_ok.mp h
          cases h
          intro y member
          rcases List.mem_cons.mp member with rfl | other
          · exact carries_singleton (P := (· = value)) k rfl sends y List.mem_cons_self
          · exact ih later y other
      · exact ih h

theorem reply_own {cmd : String} (result : String)
    (other : ∀ command ∈ appCommands, cstr (lit cmd) ≠ lit command) : Own (reply cmd result) := by
  have names : ∀ name ∈ [lit "cmd", lit "result"], 0 ∉ name := by decide
  exact ⟨mute_isCmd cmd (Json.isString_iff.mpr rfl) other, names⟩

theorem registerUsr_carries {bev : Bev} {value : Json} {db db' : δ} {sent : List Send}
    (h : registerUsr m k bev value db = .ok (db', sent)) : Carries k Own sent := by
  have own (result : String) : Own (reply "app_register_reply" result) := reply_own result (by decide)
  unfold registerUsr at h
  split at h
  · obtain ⟨x, sends, h⟩ := Except.bind_eq_ok.mp h
    cases h
    exact carries_singleton k (own _) sends
  · obtain ⟨⟨found, db₂⟩, -, h⟩ := Except.bind_eq_ok.mp h
    dsimp only at h
    split at h
    · obtain ⟨x, sends, h⟩ := Except.bind_eq_ok.mp h
      cases h
      exact carries_singleton k (own _) sends
    · obtain ⟨⟨added, db₃⟩, -, h⟩ := Except.bind_eq_ok.mp h
      obtain ⟨x, sends, h⟩ := Except.bind_eq_ok.mp h
      cases h
      exact carries_singleton k (own _) sends

theorem loginReply_own {value answer : Json} {db db' : δ}
    (h : loginReply m value db = .ok (answer, db')) : Own answer := by
  have own (result : String) : Own (reply "app_login_reply" result) := reply_own result (by decide)
  unfold loginReply at h
  obtain ⟨⟨found, db₁⟩, -, h⟩ := Except.bind_eq_ok.mp h
  dsimp only at h
  split at h
  · cases h
    exact own _
  · obtain ⟨⟨right, db₂⟩, -, h⟩ := Except.bind_eq_ok.mp h
    dsimp only at h
    split at h
    · cases h
      exact own _
    · obtain ⟨⟨bound, db₃⟩, -, h⟩ := Except.bind_eq_ok.mp h
      cases bound with
      | none =>
          cases h
          exact own _
      | some deviceid =>
          cases h
          have names : ∀ name ∈ [lit "cmd", lit "deviceid", lit "result"], 0 ∉ name := by decide
          exact ⟨mute_isCmd "app_login_reply" rfl (by decide), names⟩

theorem login_carries {bev : Bev} {value : Json} {db db' : δ} {sent : List Send}
    (h : login m k bev value db = .ok (db', sent)) : Carries k Own sent := by
  obtain ⟨⟨answer, db₁⟩, replied, h⟩ := Except.bind_eq_ok.mp h
  obtain ⟨x, sends, h⟩ := Except.bind_eq_ok.mp h
  cases h
  exact carries_singleton k (loginReply_own m replied) sends

theorem bindUsr_carries {bev : Bev} {value : Json} {db db' : δ} {sent : List Send}
    (h : bindUsr m k bev value db = .ok (db', sent)) : Carries k Own sent := by
  obtain ⟨⟨bound, db₁⟩, -, h⟩ := Except.bind_eq_ok.mp h
  obtain ⟨x, sends, h⟩ := Except.bind_eq_ok.mp h
  cases h
  exact carries_singleton k (reply_own _ (by decide)) sends

theorem touch_any {v v' : Json} {names : List String} (touched : v.touch (lit "cmd") = .ok v')
    (cmd : names.any v.isCmd = true) : v' = v := by
  obtain ⟨name, -, cmd⟩ := List.any_eq_true.mp cmd
  exact Except.ok.inj (touched.symm.trans (Json.touch_of_isCmd cmd))

/-- A packet with a text of the server's own, one to an app, or a capture for a speaker of its client. -/
def Passes (bev : Bev) (value : Json) (l : Registry) (x : Send) : Prop :=
  (∃ w, Own w ∧ x.bytes = frame k.order (k.write w)) ∨
    (∃ it ∈ l, it.aBev = some x.bev) ∨
    value.isCmd "app_capture_cur_musiclist" = true ∧ x.bytes = frame k.order (k.write value) ∧
      ∃ it ∈ l, it.aBev = some bev ∧ it.dBev = some x.bev

/-- A message is a command, which `TransAppCmd` takes, or a speaker's answer, which
`TransDevReply` takes, or one after which no command is sent. -/
theorem dispatch_carries {now : Int} {opendir : Bytes → Option (List Dirent)} {bev : Bev} {value : Json}
    {s t : State δ} {sent : List Send} (h : dispatch m k now opendir bev value s = .ok (t, sent)) :
    (appCommands.any value.isCmd = true ∧ transAppCmd k bev value s.onlineList = .ok sent) ∨
      (devReplies.any value.isCmd = true ∧ transDevReply k bev value s.onlineList = .ok sent) ∨
      (appCommands.any value.isCmd = false ∧ devReplies.any value.isCmd = false ∧
        ∀ x ∈ sent, Passes k bev value s.onlineList x) := by
  obtain ⟨v, touched, ran⟩ := dispatch_ran m k h
  have other {name : String} {sent : List Send} (cmd : value.isCmd name = true)
      (apart : ∀ other ∈ appCommands, (lit name == lit other) = false)
      (apart₂ : ∀ other ∈ devReplies, (lit name == lit other) = false)
      (passes : ∀ x ∈ sent, Passes k bev value s.onlineList x) :
      appCommands.any value.isCmd = false ∧ devReplies.any value.isCmd = false ∧
        ∀ x ∈ sent, Passes k bev value s.onlineList x :=
    ⟨any_apart name cmd apart, any_apart name cmd apart₂, passes⟩
  have own {sent : List Send} (carries : Carries k Own sent) : ∀ x ∈ sent, Passes k bev value s.onlineList x :=
    fun x member => .inl (carries x member)
  cases ran with
  | list cmd _ sends =>
      exact .inr (.inr (other cmd (by decide) (by decide) (own (carries_singleton k (getMusicName_own _ _) sends))))
  | info cmd updated =>
      obtain ⟨d, -, ⟨pre, it, post, node, found, -, -, sentTo⟩ | ⟨-, none_, -⟩⟩ := devUpdateList_ok k updated
      · obtain ⟨split, -, -⟩ := firstMatch_eq_some.mp found
        refine .inr (.inr (other cmd (by decide) (by decide) fun x member => ?_))
        exact .inr (.inl ⟨it, by rw [split]; simp, sentTo x member⟩)
      · rw [none_]
        exact .inr (.inr (other cmd (by decide) (by decide) (own (carries_nil k _))))
  | appInfo cmd _ => exact .inr (.inr (other cmd (by decide) (by decide) (own (carries_nil k _))))
  | upload cmd uploaded =>
      refine .inr (.inr (other cmd (by decide) (by decide) fun x member => ?_))
      obtain ⟨it, inList, -, app⟩ := uploadMusic_sent k uploaded x member
      exact .inr (.inl ⟨it, inList, app⟩)
  | command cmd forwarded =>
      rw [touch_any touched cmd] at forwarded
      exact .inl ⟨cmd, forwarded⟩
  | reply cmd forwarded =>
      rw [touch_any touched cmd] at forwarded
      exact .inr (.inl ⟨cmd, forwarded⟩)
  | register cmd registered =>
      exact .inr (.inr (other cmd (by decide) (by decide) (own (registerUsr_carries m k registered))))
  | login cmd logged => exact .inr (.inr (other cmd (by decide) (by decide) (own (login_carries m k logged))))
  | bind cmd bound => exact .inr (.inr (other cmd (by decide) (by decide) (own (bindUsr_carries m k bound))))
  | offline cmd => exact .inr (.inr (other cmd (by decide) (by decide) (own (carries_nil k _))))
  | capture cmd captured =>
      rw [Except.ok.inj (touched.symm.trans (Json.touch_of_isCmd cmd))] at captured
      refine .inr (.inr (other cmd (by decide) (by decide) fun x member => ?_))
      obtain ⟨w, rfl, text⟩ := captureCurMusicList_carries k captured x member
      exact .inr (.inr ⟨cmd, text, captureCurMusicList_sent k captured x member⟩)
  | unknown _ _ _ command reply => exact .inr (.inr ⟨command, reply, own (carries_nil k _)⟩)

/-! ## An app and its speaker -/

/-- One node names the two connections, as its app's and as its speaker's, and no other does. -/
structure Paired (c dev : Bev) (l : Registry) : Prop where
  apart : c ≠ dev
  node : ∃ it ∈ l, it.aBev = some c ∧ it.dBev = some dev
  alone : ∀ it ∈ l, it.aBev = some c ∨ it.aBev = some dev ∨ it.dBev = some c ∨ it.dBev = some dev →
    it.aBev = some c ∧ it.dBev = some dev

variable {k} {c dev : Bev}

theorem Paired.command {v : Json} {l : Registry} {sent : List Send} (h : Paired c dev l)
    (forwarded : transAppCmd k c v l = .ok sent) : sent = [⟨dev, frame k.order (k.write v)⟩] := by
  obtain ⟨it, member, app, spoken⟩ := h.node
  unfold transAppCmd at forwarded
  cases found : firstMatch (fun it => it.aBev == some c && it.dBev.isSome) l with
  | none =>
      have missed := firstMatch_eq_none.mp found it member
      simp [app, spoken] at missed
  | some parts =>
      obtain ⟨pre, first, post⟩ := parts
      obtain ⟨rfl, hit, -⟩ := firstMatch_eq_some.mp found
      simp only [Bool.and_eq_true, beq_iff_eq] at hit
      have links := h.alone first (by simp) (.inl hit.1)
      rw [found] at forwarded
      simp only [Option.bind_some, links.2] at forwarded
      obtain ⟨x, sends, done⟩ := Except.bind_eq_ok.mp forwarded
      cases done
      rw [((sendData_ok k).mp sends).2]

theorem Paired.reply {v : Json} {l : Registry} {sent : List Send} (h : Paired c dev l)
    (forwarded : transDevReply k dev v l = .ok sent) : sent = [⟨c, frame k.order (k.write v)⟩] := by
  obtain ⟨it, member, app, spoken⟩ := h.node
  unfold transDevReply at forwarded
  cases found : firstMatch (fun it => it.dBev == some dev && it.aBev.isSome) l with
  | none =>
      have missed := firstMatch_eq_none.mp found it member
      simp [app, spoken] at missed
  | some parts =>
      obtain ⟨pre, first, post⟩ := parts
      obtain ⟨rfl, hit, -⟩ := firstMatch_eq_some.mp found
      simp only [Bool.and_eq_true, beq_iff_eq] at hit
      have links := h.alone first (by simp) (.inr (.inr (.inr hit.1)))
      rw [found] at forwarded
      simp only [Option.bind_some, links.1] at forwarded
      obtain ⟨x, sends, done⟩ := Except.bind_eq_ok.mp forwarded
      cases done
      rw [((sendData_ok k).mp sends).2]

/-- The commands of others reach neither of the two, but for the notice to the one that gave it. -/
theorem Paired.other_command {bev : Bev} {v : Json} {l : Registry} {sent : List Send}
    (h : Paired c dev l) (other : bev ≠ c) (forwarded : transAppCmd k bev v l = .ok sent) :
    (∀ x ∈ sent, x.bev ≠ c) ∧ ∀ x ∈ sent, x.bev = dev → bev = dev := by
  have sentTo := transAppCmd_sent k forwarded
  constructor
  · intro x member same
    rcases sentTo x member with here | ⟨it, inList, app, spoken⟩
    · exact other (here.symm.trans same)
    · rw [same] at spoken
      have links := h.alone it inList (.inr (.inr (.inl spoken)))
      exact h.apart (Option.some.inj (spoken.symm.trans links.2))
  · intro x member same
    rcases sentTo x member with here | ⟨it, inList, app, spoken⟩
    · exact here.symm.trans same
    · rw [same] at spoken
      have links := h.alone it inList (.inr (.inr (.inr spoken)))
      exact absurd (Option.some.inj (app.symm.trans links.1)) other

theorem Paired.other_reply {bev : Bev} {v : Json} {l : Registry} {sent : List Send}
    (h : Paired c dev l) (app : bev ≠ c) (spoken : bev ≠ dev) (forwarded : transDevReply k bev v l = .ok sent) :
    ∀ x ∈ sent, x.bev ≠ c ∧ x.bev ≠ dev := by
  intro x member
  rcases transDevReply_sent k forwarded x member with here | ⟨it, inList, speaks, answers⟩
  · rw [here]
    exact ⟨app, spoken⟩
  · have links (named : it.aBev = some c ∨ it.aBev = some dev) : False := by
      have pair := h.alone it inList (named.elim .inl fun dev => .inr (.inl dev))
      exact spoken (Option.some.inj (speaks.symm.trans pair.2))
    exact ⟨fun same => links (.inl (same ▸ answers)), fun same => links (.inr (same ▸ answers))⟩

/-- A command of the speaker itself finds no node with it as an app. -/
theorem Paired.own_command {v : Json} {l : Registry} {sent : List Send} (h : Paired c dev l)
    (forwarded : transAppCmd k dev v l = .ok sent) : Carries k Own sent := by
  unfold transAppCmd at forwarded
  have missing : firstMatch (fun it => it.aBev == some dev && it.dBev.isSome) l = none := by
    refine firstMatch_eq_none.mpr fun it member => ?_
    by_contra hit
    simp only [Bool.not_eq_false, Bool.and_eq_true, beq_iff_eq] at hit
    have links := h.alone it member (.inr (.inl hit.1))
    exact h.apart (Option.some.inj (links.1.symm.trans hit.1))
  rw [missing] at forwarded
  obtain ⟨x, sends, done⟩ := Except.bind_eq_ok.mp forwarded
  cases done
  have names : ∀ name ∈ [lit "cmd", lit "result"], 0 ∉ name := by decide
  have own : Own (.object [(lit "cmd", .null), (lit "result", .string (lit "offline"))]) := ⟨mute_null rfl, names⟩
  exact carries_singleton k own sends

/-- What the speaker of the pair is sent otherwise. -/
theorem Paired.passes {bev : Bev} {v : Json} {l : Registry} {x : Send} (h : Paired c dev l)
    (passes : Passes k bev v l x) (speaker : x.bev = dev) :
    (∃ w, Own w ∧ x.bytes = frame k.order (k.write w)) ∨
      bev = c ∧ v.isCmd "app_capture_cur_musiclist" = true ∧ x.bytes = frame k.order (k.write v) := by
  rcases passes with own | ⟨it, member, app⟩ | ⟨cmd, text, it, member, app, spoken⟩
  · exact .inl own
  · have links := h.alone it member (.inr (.inl (speaker ▸ app)))
    exact absurd (Option.some.inj (links.1.symm.trans (speaker ▸ app))) h.apart
  · have links := h.alone it member (.inr (.inr (.inr (speaker ▸ spoken))))
    exact .inr ⟨Option.some.inj (app.symm.trans links.1), cmd, text⟩

end MusicPlayer.Server
