import MusicPlayer.Server.Isolation

/-! Who a message reaches: a speaker keeps the connection it reports on, an app
its speaker, and a connection that has ended is written to no more. Each holds
on the runs that keep one connection to one role in one node. -/
namespace MusicPlayer.Server
open CBytes FirstMatch Runs

variable {δ : Type} (m : Mysql δ) (k : Codec)

/-! ## One node of the registry picked out -/

theorem sendData_fits {bev : Bev} {v : Json} (fits : (k.write v).length ≤ 1020) :
    sendData k bev v = .ok ⟨bev, frame k.order (k.write v)⟩ :=
  (sendData_ok k).mpr ⟨fits, rfl⟩

/-- A device has one node, which cuts the list in two. -/
theorem split_at {l : Registry} {it : PLayerInfo} (unique : Pairing.WellFormed (table l))
    (member : it ∈ l) :
    ∃ pre post, l = pre ++ it :: post ∧ ∀ other ∈ pre ++ post, other.deviceid ≠ it.deviceid := by
  obtain ⟨pre, post, rfl⟩ := List.append_of_mem member
  refine ⟨pre, post, rfl, fun other elsewhere same => ?_⟩
  have distinct := unique.distinct
  rw [table, List.map_map, List.map_append, List.map_cons] at distinct
  have apart := (List.nodup_middle.mp distinct).notMem
  rw [← List.map_append] at apart
  exact apart (List.mem_map.mpr ⟨other, elsewhere, same⟩)

theorem transAppCmd_single {pre post : Registry} {it : PLayerInfo} {c dev : Bev} {v : Json}
    (others : ∀ other ∈ pre, other.aBev ≠ some c) (app : it.aBev = some c)
    (spoken : it.dBev = some dev) (fits : (k.write v).length ≤ 1020) :
    transAppCmd k c v (pre ++ it :: post) = .ok [⟨dev, frame k.order (k.write v)⟩] := by
  have found : firstMatch (fun it => it.aBev == some c && it.dBev.isSome) (pre ++ it :: post) =
      some (pre, it, post) :=
    firstMatch_eq_some.mpr ⟨rfl, by simp [app, spoken], fun other member => by
      simp [others other member]⟩
  simp only [transAppCmd, found, Option.bind_some, spoken, sendData_fits k fits]
  rfl

theorem uploadMusic_single {pre post : Registry} {it : PLayerInfo} {c : Bev} {v : Json}
    (others : ∀ other ∈ pre, other.dBev ≠ some c) (spoken : it.dBev = some c)
    (fits : (k.write v).length ≤ 1020) :
    uploadMusic k c v (pre ++ it :: post) =
      .ok (it.aBev.toList.map fun app => ⟨app, frame k.order (k.write v)⟩) := by
  have found : firstMatch (fun it => it.dBev == some c) (pre ++ it :: post) = some (pre, it, post) :=
    firstMatch_eq_some.mpr ⟨rfl, by simp [spoken], fun other member => by
      simp [others other member]⟩
  rcases Option.eq_none_or_eq_some it.aBev with unpaired | ⟨app, paired⟩
  · simp only [uploadMusic, found, unpaired]
    rfl
  · simp only [uploadMusic, found, paired, sendData_fits k fits]
    rfl

theorem captureCurMusicList_skip {c : Bev} {v : Json} {l : Registry}
    (others : ∀ other ∈ l, other.aBev ≠ some c) : captureCurMusicList k c v l = .ok [] := by
  induction l with
  | nil => rfl
  | cons it rest ih =>
      rw [captureCurMusicList, if_neg (others it List.mem_cons_self)]
      exact ih fun other member => others other (List.mem_cons_of_mem _ member)

theorem captureCurMusicList_single {pre post : Registry} {it : PLayerInfo} {c dev : Bev} {v : Json}
    (others : ∀ other ∈ pre ++ post, other.aBev ≠ some c) (app : it.aBev = some c)
    (spoken : it.dBev = some dev) (fits : (k.write v).length ≤ 1020) :
    captureCurMusicList k c v (pre ++ it :: post) = .ok [⟨dev, frame k.order (k.write v)⟩] := by
  induction pre with
  | nil =>
      have skipped : captureCurMusicList k c v post = .ok [] := captureCurMusicList_skip k others
      rw [List.nil_append, captureCurMusicList, if_pos app]
      simp only [spoken, sendData_fits k fits, skipped, bind, Except.bind]
      rfl
  | cons first pre ih =>
      rw [List.cons_append, captureCurMusicList, if_neg (others first (by simp))]
      exact ih fun other member => others other (List.mem_cons_of_mem _ member)

/-- One packet for every node the connection is paired with. -/
theorem length_captureCurMusicList {c : Bev} {v : Json} {l : Registry} {sent : List Send}
    (h : captureCurMusicList k c v l = .ok sent) :
    sent.length = (l.filter fun it => it.aBev = some c).length ∧
      (sent ≠ [] → (k.write v).length ≤ 1020) := by
  induction l generalizing sent with
  | nil =>
      cases h
      exact ⟨rfl, fun some_ => absurd rfl some_⟩
  | cons it rest ih =>
      rw [captureCurMusicList] at h
      by_cases paired : it.aBev = some c
      · rw [if_pos paired] at h
        rcases Option.eq_none_or_eq_some it.dBev with silent | ⟨dev, spoken⟩
        · simp only [silent] at h
          cases h
        · simp only [spoken, Except.bind_eq_ok] at h
          obtain ⟨s, sends, more, later, h⟩ := h
          cases h
          rw [List.filter_cons_of_pos (by simpa using paired), List.length_cons, List.length_cons,
            (ih later).1]
          exact ⟨rfl, fun _ => ((sendData_ok k).mp sends).1⟩
      · rw [if_neg paired] at h
        rw [List.filter_cons_of_neg (by simpa using paired)]
        exact ih h

/-! ## Runs -/

theorem steps_wellFormed {s t : State δ} {e : Event} (base : Pairing.WellFormed (table s.onlineList))
    (one : Steps m k s e t) : Pairing.WellFormed (table t.onlineList) := by
  obtain ⟨sent, one⟩ := one
  exact (step_refines m k one).wellFormed base

def empty (db : δ) : State δ := ⟨[], db⟩

theorem reachable_wellFormed {db : δ} {s : State δ} (h : Reachable (Steps m k) (empty db) s) :
    Pairing.WellFormed (table s.onlineList) :=
  h.invariant .nil fun _ _ _ => steps_wellFormed m k

theorem mem_sweep {now : Int} {l : Registry} {it : PLayerInfo} (member : it ∈ sweep now l) :
    it ∈ l ∨ ∃ old ∈ l, ∃ aTime, old.aTime = some aTime ∧ now - aTime > 6 ∧
      it = { old with aBev := none } := by
  induction l with
  | nil => cases member
  | cons first rest ih =>
      have lift : it ∈ sweep now rest → it ∈ first :: rest ∨ ∃ old ∈ first :: rest, ∃ aTime,
          old.aTime = some aTime ∧ now - aTime > 6 ∧ it = { old with aBev := none } := by
        intro later
        rcases ih later with same | ⟨old, inOld, timed⟩
        · exact .inl (List.mem_cons_of_mem _ same)
        · exact .inr ⟨old, List.mem_cons_of_mem _ inOld, timed⟩
      rw [sweep] at member
      split at member
      · exact lift member
      · rcases Option.eq_none_or_eq_some first.aTime with untimed | ⟨aTime, timed⟩
        · simp only [untimed] at member
          rcases List.mem_cons.mp member with rfl | later
          · exact .inl List.mem_cons_self
          · exact lift later
        · simp only [timed] at member
          split at member
          next silent =>
            rcases List.mem_cons.mp member with rfl | later
            · exact .inr ⟨first, List.mem_cons_self, aTime, timed, silent, by rw [timed]⟩
            · exact lift later
          next =>
            rcases List.mem_cons.mp member with rfl | later
            · exact .inl List.mem_cons_self
            · exact lift later

theorem sweep_keeps {now : Int} {l : Registry} {it : PLayerInfo} (member : it ∈ l) (young : now - it.dTime ≤ 6) :
    ∃ kept ∈ sweep now l, kept.deviceid = it.deviceid := by
  induction l with
  | nil => cases member
  | cons first rest ih =>
      rw [sweep]
      rcases List.mem_cons.mp member with rfl | later
      · rw [if_neg (by omega)]
        split
        · split <;> exact ⟨_, List.mem_cons_self, rfl⟩
        · exact ⟨_, List.mem_cons_self, rfl⟩
      · obtain ⟨kept, inRest, device⟩ := ih later
        refine ⟨kept, ?_, device⟩
        repeat' split
        all_goals simp [inRest]

/-! ## A connection that has ended -/

def Clean (b : Bev) (l : Registry) : Prop := ∀ it ∈ l, it.dBev ≠ some b ∧ it.aBev ≠ some b

theorem clean_iff {b : Bev} {l : Registry} : Clean b l ↔ Pairing.Unnamed b (table l) := by
  simp only [Clean, Pairing.Unnamed, table, List.forall_mem_map, Pairing.Link.Names, link, not_or,
    ne_eq, and_comm]

theorem brings_conn {e : Event} {b : Bev} (h : e.act.Brings b) : e.conn = some b := by
  cases e with
  | read now opendir bev value =>
      rw [Event.act] at h
      split at h
      · split at h
        · exact congrArg some h
        · exact h.elim
      · split at h
        · split at h
          · exact congrArg some h
          · exact h.elim
        · split at h <;> exact h.elim
  | event bev what =>
      rw [Event.act] at h
      split at h <;> exact h.elim
  | timeout now => exact h.elim

/-- Nothing but a tick sweeps. -/
theorem act_awake {e : Event} (awake : ∀ now, e ≠ .timeout now) : e.act ≠ .sweep := by
  intro swept
  cases e with
  | read now opendir bev value =>
      rw [Event.act] at swept
      split at swept
      · split at swept <;> cases swept
      · split at swept
        · split at swept <;> cases swept
        · split at swept <;> cases swept
  | event bev what =>
      rw [Event.act] at swept
      split at swept <;> cases swept
  | timeout now => exact awake now rfl

/-- A callback that is not for `b` neither brings `b` back nor writes to it. -/
theorem step_clean {e : Event} {b : Bev} {s t : State δ} {sent : List Send}
    (others : e.conn ≠ some b) (base : Clean b s.onlineList) (h : step m k e s = .ok (t, sent)) :
    Clean b t.onlineList ∧ SentTo (· ≠ b) sent := by
  constructor
  · rw [clean_iff] at base ⊢
    exact (step_refines m k h).unnamed (fun brings => others (brings_conn brings)) base
  · cases e with
    | read now opendir c value =>
        refine (dispatch_isolated m k h).2.mono fun dest to_ => ?_
        rintro rfl
        rcases to_ with rfl | ⟨it, member, -, dev | app⟩
        · exact others rfl
        · exact (base it member).1 dev
        · exact (base it member).2 app
    | event bev what =>
        cases h
        exact sentTo_nil _
    | timeout now =>
        cases h
        exact sentTo_nil _

/-- What the report of an end must find for `b` to be named nowhere after it. -/
theorem eventCb_clean_iff (b : Bev) (what : Nat) (l : Registry) :
    Clean b (eventCb b what l) ↔ Clean b l ∨ (what &&& eventEof ≠ 0 ∧
      (l.filter fun it => it.aBev = some b ∨ it.dBev = some b).length ≤ 1 ∧
      ∀ it ∈ l, ¬ (it.aBev = some b ∧ it.dBev = some b)) := by
  have count : (l.filter fun it => it.aBev = some b ∨ it.dBev = some b).length =
      ((table l).filter fun x => x.Names b).length := by
    rw [table, List.filter_map, List.length_map]
    rfl
  have roles : (∀ it ∈ l, ¬ (it.aBev = some b ∧ it.dBev = some b)) ↔ ∀ x ∈ table l, ¬ x.Twice b := by
    simp [table, link, Pairing.Link.Twice]
  unfold eventCb
  split
  next eof =>
    rw [clean_iff, table_appOrDevOffline, Pairing.unnamed_ended_iff, ← count, ← roles]
    constructor
    · exact fun once => .inr ⟨eof, once⟩
    · rintro (clean | ⟨-, once⟩)
      · rw [List.filter_eq_nil_iff.mpr fun it member => by simp [clean it member]]
        exact ⟨Nat.zero_le 1, fun it member both => (clean it member).2 both.1⟩
      · exact once
  next other =>
    exact ⟨.inl, fun h => h.elim id fun ended => absurd ended.1 other⟩

/-- After the end of `b` has been reported, whatever the other clients do no
node names `b` and nothing is sent on it, exactly when no node named it before,
or it ended by end of file and was in one role of one node. -/
theorem ended_clean_iff (s : State δ) (b : Bev) (what : Nat) :
    (∀ s₁ sent₁, step m k (.event b what) s = .ok (s₁, sent₁) →
      ∀ es t, Trace (guarded (fun _ e => e.conn ≠ some b) (Steps m k)) s₁ es t →
        Clean b t.onlineList ∧
          ∀ e u sent, e.conn ≠ some b → step m k e t = .ok (u, sent) → SentTo (· ≠ b) sent) ↔
      Clean b s.onlineList ∨
        (what &&& eventEof ≠ 0 ∧
          (s.onlineList.filter fun it => it.aBev = some b ∨ it.dBev = some b).length ≤ 1 ∧
          ∀ it ∈ s.onlineList, ¬ (it.aBev = some b ∧ it.dBev = some b)) := by
  rw [← eventCb_clean_iff]
  constructor
  · intro always
    exact (always _ _ rfl [] _ (.nil _)).1
  · rintro clean s₁ sent₁ ended es t run
    cases ended
    have later : Clean b t.onlineList := by
      refine run.invariant (I := fun s => Clean b s.onlineList) ?_ clean
      rintro s e t base ⟨others, sent, one⟩
      exact (step_clean m k others base one).1
    exact ⟨later, fun e u sent others one => (step_clean m k others later one).2⟩

/-- The end of a connection is missed when it comes as an error. -/
theorem error_keeps_node :
    ¬ ∀ (s s₁ : State Unit) (b : Bev) (what : Nat) (sent : List Send),
      Reachable (Steps noAccounts (writing statusText)) (empty ()) s →
      what &&& (eventEof ||| eventError) ≠ 0 →
      step noAccounts (writing statusText) (.event b what) s = .ok (s₁, sent) →
      Clean b s₁.onlineList := by
  intro always
  have kept := always ⟨[speaker "0001" 3 none], ()⟩ ⟨[speaker "0001" 3 none], ()⟩ 3 eventError []
    ((Reachable.refl _).tail (i := .read 0 (fun _ => none) 3 (status "0001")) ⟨[], rfl⟩) (by decide) rfl
  exact (kept (speaker "0001" 3 none) (by simp)).1 rfl

/-! ## The speaker an app has chosen -/

/-- A step after which the last accepted `app_info` of `c` is still the one that
named `d`, nobody else has been paired with `d`, `d` has been in the registry
throughout, and `c` has not gone offline or timed out. -/
structure Undisturbed (c : Bev) (d : Bytes) (s : State δ) (e : Event) (t : State δ) : Prop where
  taken : Steps m k s e t
  paired : ¬ e.act.Unpairs c d (table s.onlineList)
  timely : ∀ now, e = .timeout now → ∀ it ∈ s.onlineList, it.deviceid = d →
    ∀ aTime, it.aTime = some aTime → now - aTime ≤ 6
  present : ∃ it ∈ t.onlineList, it.deviceid = d

theorem undisturbed_onlyApp {c : Bev} {d : Bytes} {s t : State δ} {e : Event}
    (unique : Pairing.WellFormed (table s.onlineList)) (base : Pairing.OnlyApp c d (table s.onlineList))
    (one : Undisturbed m k c d s e t) : Pairing.OnlyApp c d (table t.onlineList) := by
  obtain ⟨sent, taken⟩ := one.taken
  have moved := step_refines m k taken
  obtain ⟨it, member, device⟩ := one.present
  refine moved.onlyApp one.paired ⟨link it, List.mem_map_of_mem member, device⟩ ?_ unique base
  intro swept
  cases e with
  | read now opendir bev value => exact absurd swept (act_awake fun _ => nofun)
  | event bev what => exact absurd swept (act_awake fun _ => nofun)
  | timeout now =>
      cases taken
      rcases mem_sweep member with kept | ⟨old, inOld, aTime, timed, silent, rfl⟩
      · obtain ⟨⟨x, inTable, deviceX, app⟩, -⟩ := base
        have same : link it = x :=
          unique.unique (List.mem_map_of_mem kept) inTable (device.trans deviceX.symm)
        exact ⟨link it, List.mem_map_of_mem member, device, same ▸ app⟩
      · have in_time := one.timely now rfl old inOld device aTime timed
        omega

/-- What `c` sends reaches the speaker it named and no other. -/
def Routed (c : Bev) (d : Bytes) (v : Json) (l : Registry) : Prop :=
  ∀ it ∈ l, it.deviceid = d → ∃ dev, it.dBev = some dev ∧
    transAppCmd k c v l = .ok [⟨dev, frame k.order (k.write v)⟩] ∧
    captureCurMusicList k c v l = .ok [⟨dev, frame k.order (k.write v)⟩]

theorem onlyApp_routed {c : Bev} {d : Bytes} {v : Json} {l : Registry}
    (unique : Pairing.WellFormed (table l)) (only : Pairing.OnlyApp c d (table l))
    (fits : (k.write v).length ≤ 1020) : Routed k c d v l := by
  intro it member device
  obtain ⟨⟨x, inTable, deviceX, app⟩, rest⟩ := only
  have same : link it = x :=
    unique.unique (List.mem_map_of_mem member) inTable (device.trans deviceX.symm)
  subst same
  have spoken := unique.spoken (link it) inTable
  obtain ⟨dev, speaks⟩ := Option.ne_none_iff_exists'.mp spoken
  obtain ⟨pre, post, rfl, elsewhere⟩ := split_at unique member
  have others : ∀ other ∈ pre ++ post, other.aBev ≠ some c := by
    intro other apart paired
    refine elsewhere other apart ((rest (link other) (List.mem_map_of_mem ?_) paired).trans device.symm)
    simp only [List.mem_append, List.mem_cons] at apart ⊢
    tauto
  exact ⟨dev, speaks,
    transAppCmd_single k (fun other member => others other (List.mem_append_left _ member)) app speaks fits,
    captureCurMusicList_single k others app speaks fits⟩

/-- Routing a capture to one connection means that `c` is in one node. -/
theorem routed_onlyApp {c : Bev} {d : Bytes} {v : Json} {l : Registry}
    (paired : ∃ x ∈ table l, x.device = d ∧ x.app = some c) (routed : Routed k c d v l) :
    Pairing.OnlyApp c d (table l) ∧ (k.write v).length ≤ 1020 := by
  obtain ⟨x, inTable, device, app⟩ := paired
  obtain ⟨own, member, rfl⟩ := List.mem_map.mp inTable
  obtain ⟨dev, -, -, captured⟩ := routed own member device
  obtain ⟨count, fits⟩ := length_captureCurMusicList k captured
  refine ⟨⟨⟨link own, inTable, device, app⟩, ?_⟩, fits (by simp)⟩
  intro y inTable₂ app₂
  obtain ⟨other, member₂, rfl⟩ := List.mem_map.mp inTable₂
  obtain ⟨one, single⟩ := List.length_eq_one_iff.mp count.symm
  have ownIn : own ∈ l.filter fun it => it.aBev = some c :=
    List.mem_filter.mpr ⟨member, decide_eq_true app⟩
  have otherIn : other ∈ l.filter fun it => it.aBev = some c :=
    List.mem_filter.mpr ⟨member₂, decide_eq_true app₂⟩
  rw [single, List.mem_singleton] at ownIn otherIn
  rw [otherIn, ← ownIn]
  exact device

/-- After an accepted `app_info` by which `c` names `d`, as long as nothing
disturbs the pairing every command and every capture of `c` goes to `d` once and
to nobody else, exactly when `c` was in no other node before and the text fits
the packet. -/
theorem app_info_routes_iff {db : δ} {s s₁ : State δ} {now : Int}
    {opendir : Bytes → Option (List Dirent)} {c : Bev} {value : Json} {d : Bytes} {sent : List Send}
    (history : Reachable (Steps m k) (empty db) s) (cmd : value.isCmd "app_info" = true)
    (named : value.member (lit "deviceid") = .string d) (known : ∃ it ∈ s.onlineList, it.deviceid = d)
    (accepted : step m k (.read now opendir c value) s = .ok (s₁, sent)) (v : Json) :
    (∀ es t, Trace (Undisturbed m k c d) s₁ es t → Routed k c d v t.onlineList) ↔
      (∀ it ∈ s.onlineList, it.aBev = some c → it.deviceid = d) ∧ (k.write v).length ≤ 1020 := by
  have unique := reachable_wellFormed m k history
  have unique₁ := steps_wellFormed m k unique ⟨sent, accepted⟩
  have act : (Event.read now opendir c value).act = .pair c d := by
    rw [Event.act, if_neg (by rw [Json.isCmd_unique cmd]; decide), if_pos cmd, named]
  have moved : table s₁.onlineList = Pairing.pair c d (table s.onlineList) :=
    (act ▸ step_refines m k accepted).of_pair
  obtain ⟨it, member, device⟩ := known
  have inTable : ∃ x ∈ table s.onlineList, x.device = d :=
    ⟨link it, List.mem_map_of_mem member, device⟩
  have only_iff : Pairing.OnlyApp c d (table s₁.onlineList) ↔
      ∀ it ∈ s.onlineList, it.aBev = some c → it.deviceid = d := by
    rw [moved, Pairing.onlyApp_pair_iff unique inTable]
    simp [table, link]
  rw [← only_iff]
  constructor
  · intro always
    have paired : ∃ x ∈ table s₁.onlineList, x.device = d ∧ x.app = some c :=
      moved ▸ Pairing.paired_pair inTable
    exact routed_onlyApp k paired (always [] s₁ (.nil s₁))
  · rintro ⟨only, fits⟩ es t run
    have later : Pairing.WellFormed (table t.onlineList) ∧ Pairing.OnlyApp c d (table t.onlineList) := by
      refine run.invariant
        (I := fun s => Pairing.WellFormed (table s.onlineList) ∧ Pairing.OnlyApp c d (table s.onlineList))
        ?_ ⟨unique₁, only⟩
      rintro s e t ⟨wf, base⟩ one
      exact ⟨steps_wellFormed m k wf one.taken, undisturbed_onlyApp m k wf base one⟩
    exact onlyApp_routed k later.1 later.2 fits

def command : Json := .object [(lit "cmd", .string (lit "app_start"))]

def commandText : String := "\x7b\"cmd\":\"app_start\"\x7d\n"

def choice (deviceid : String) : Json :=
  .object [(lit "appid", .string (lit "1000")), (lit "cmd", .string (lit "app_info")),
    (lit "deviceid", .string (lit deviceid))]

def chosenBy (app : Bev) (it : PLayerInfo) : PLayerInfo :=
  { it with aBev := some app, aTime := some 0, appid := lit "1000" }

/-- Two speakers are in the registry. -/
def two : State Unit := ⟨[speaker "0001" 1 none, speaker "0002" 2 none], ()⟩

theorem two_reachable : Reachable (Steps noAccounts (writing commandText)) (empty ()) two := by
  have first : Reachable (Steps noAccounts (writing commandText)) (empty ())
      ⟨[speaker "0001" 1 none], ()⟩ :=
    (Reachable.refl _).tail (i := .read 0 (fun _ => none) 1 (status "0001")) ⟨[], rfl⟩
  exact first.tail (i := .read 0 (fun _ => none) 2 (status "0002")) ⟨[], rfl⟩

theorem first_choice_routed :
    Routed (writing commandText) 7 (lit "0001") command
      [chosenBy 7 (speaker "0001" 1 none), speaker "0002" 2 none] := by
  have accepted : step noAccounts (writing commandText) (.read 0 (fun _ => none) 7 (choice "0001")) two =
      .ok (⟨[chosenBy 7 (speaker "0001" 1 none), speaker "0002" 2 none], ()⟩, []) := rfl
  have routed := (app_info_routes_iff noAccounts (writing commandText) two_reachable rfl rfl
    ⟨speaker "0001" 1 none, by simp [two], rfl⟩ accepted command).mpr ⟨by simp [two, speaker], by decide⟩
  exact routed [] _ (.nil _)

/-- An app that names a second speaker keeps the first one too, which is found first. -/
theorem second_choice_misrouted :
    ¬ ∀ (s s₁ : State Unit) (c : Bev) (value v : Json) (d : Bytes) (sent : List Send),
      Reachable (Steps noAccounts (writing commandText)) (empty ()) s →
      value.isCmd "app_info" = true → value.member (lit "deviceid") = .string d →
      (∃ it ∈ s.onlineList, it.deviceid = d) →
      step noAccounts (writing commandText) (.read 0 (fun _ => none) c value) s = .ok (s₁, sent) →
      Routed (writing commandText) c d v s₁.onlineList := by
  intro always
  have first : Reachable (Steps noAccounts (writing commandText)) (empty ())
      ⟨[chosenBy 7 (speaker "0001" 1 none), speaker "0002" 2 none], ()⟩ :=
    two_reachable.tail (i := .read 0 (fun _ => none) 7 (choice "0001")) ⟨[], rfl⟩
  have second := always _
    ⟨[chosenBy 7 (speaker "0001" 1 none), chosenBy 7 (speaker "0002" 2 none)], ()⟩ 7 (choice "0002")
    command (lit "0002") [] first rfl rfl ⟨speaker "0002" 2 none, by simp, rfl⟩ rfl
  obtain ⟨dev, spoken, sent, -⟩ := second (chosenBy 7 (speaker "0002" 2 none)) (by simp) rfl
  cases spoken
  have elsewhere : transAppCmd (writing commandText) 7 command
      [chosenBy 7 (speaker "0001" 1 none), chosenBy 7 (speaker "0002" 2 none)] =
      .ok [⟨1, frame .little (lit commandText)⟩] := rfl
  have same := congrArg Send.bev (List.head_eq_of_cons_eq (Except.ok.inj (elsewhere.symm.trans sent)))
  exact absurd same (by decide)

/-! ## The connection a speaker reports on -/

/-- A report finds its device absent or on the same connection, on which no
other device speaks; a choice finds the app in no other node. -/
def Steady (s : State δ) (e : Event) : Prop := e.act.Steady (table s.onlineList)

/-- No report of `d` comes over another connection than `c`. -/
def StaysOn (c : Bev) (d : Bytes) (e : Event) : Prop := ∀ b, e.act = .report b d → b = c

theorem steady_exclusive {s t : State δ} {e : Event}
    (base : Pairing.Exclusive (table s.onlineList)) (one : guarded Steady (Steps m k) s e t) :
    Pairing.Exclusive (table t.onlineList) := by
  obtain ⟨steady, sent, one⟩ := one
  exact (step_refines m k one).exclusive steady base

theorem dispatch_command {now : Int} {opendir : Bytes → Option (List Dirent)} {bev : Bev} {v : Json}
    {s : State δ} {sent : List Send} (cmd : appCommands.any v.isCmd = true)
    (handled : transAppCmd k bev v s.onlineList = .ok sent) :
    dispatch m k now opendir bev v s = .ok (s, sent) := by
  rw [dispatch_app_command m k cmd, handled]
  rfl

theorem dispatch_upload {now : Int} {opendir : Bytes → Option (List Dirent)} {bev : Bev} {v : Json}
    {s : State δ} {sent : List Send} (cmd : v.isCmd "upload_music" = true) (some_ : s.onlineList ≠ [])
    (handled : uploadMusic k bev v s.onlineList = .ok sent) :
    dispatch m k now opendir bev v s = .ok (s, sent) := by
  rw [dispatch_upload_music m k cmd, if_neg some_, handled]
  rfl

/-- A speaker that is where its node says gets the commands of its app, and its
app gets its uploads. -/
theorem spoken_routes {t : State δ} (wf : Pairing.WellFormed (table t.onlineList))
    (alone : Pairing.Exclusive (table t.onlineList)) {it : PLayerInfo} (member : it ∈ t.onlineList)
    {c : Bev} (spoken : it.dBev = some c) :
    (∀ now opendir app v, it.aBev = some app → appCommands.any v.isCmd = true →
      (k.write v).length ≤ 1020 →
      dispatch m k now opendir app v t = .ok (t, [⟨c, frame k.order (k.write v)⟩])) ∧
    ∀ now opendir v, v.isCmd "upload_music" = true → (k.write v).length ≤ 1020 →
      dispatch m k now opendir c v t =
        .ok (t, it.aBev.toList.map fun app => ⟨app, frame k.order (k.write v)⟩) := by
  obtain ⟨pre, post, split, elsewhere⟩ := split_at wf member
  have inList : ∀ other ∈ pre, other ∈ t.onlineList := by
    intro other before
    rw [split]
    exact List.mem_append_left _ before
  constructor
  · intro now opendir app v paired isCommand fits
    have others : ∀ other ∈ pre, other.aBev ≠ some app := fun other before app_ =>
      elsewhere other (List.mem_append_left _ before) (alone.apps (link other)
        (List.mem_map_of_mem (inList other before)) (link it) (List.mem_map_of_mem member) app app_ paired)
    refine dispatch_command m k isCommand ?_
    rw [split]
    exact transAppCmd_single k others paired spoken fits
  · intro now opendir v isUpload fits
    have others : ∀ other ∈ pre, other.dBev ≠ some c := fun other before dev_ =>
      elsewhere other (List.mem_append_left _ before) (alone.speakers (link other)
        (List.mem_map_of_mem (inList other before)) (link it) (List.mem_map_of_mem member) c dev_ spoken)
    refine dispatch_upload m k isUpload (by rw [split]; simp) ?_
    rw [split]
    exact uploadMusic_single k others spoken fits

/-- A steady report leaves its device in the registry, on the connection it came over. -/
theorem report_speaks {s s₁ : State δ} {e : Event} {c : Bev} {d : Bytes} (act : e.act = .report c d)
    (report : guarded Steady (Steps m k) s e s₁) :
    Pairing.SpeaksOver c d (table s₁.onlineList) ∧ ∃ x ∈ table s₁.onlineList, x.device = d := by
  obtain ⟨steady, sent, one⟩ := report
  have moved : table s₁.onlineList = Pairing.report c d (table s.onlineList) :=
    (act ▸ step_refines m k one).of_report
  have steady : Pairing.Act.Steady (table s.onlineList) (.report c d) := act ▸ steady
  rw [moved]
  rcases Pairing.report_cases c d (table s.onlineList) with ⟨known, same⟩ | ⟨absent, grown⟩
  · rw [same]
    exact ⟨steady.1, known⟩
  · rw [grown]
    refine ⟨fun x member is => ?_, ⟨d, some c, none⟩, by simp, rfl⟩
    rcases List.mem_append.mp member with old | fresh
    · exact absurd is (absent x old)
    · rw [List.mem_singleton.mp fresh]

/-- The reports of `d` come over `c` and in time, and `c` does not end. -/
structure KeepsOn (c : Bev) (d : Bytes) (s : State δ) (e : Event) : Prop where
  steady : Steady s e
  stays : StaysOn c d e
  lasts : e.act ≠ .ended c
  timely : ∀ now, e = .timeout now → ∀ it ∈ s.onlineList, it.deviceid = d → now - it.dTime ≤ 6

theorem keepsOn_known {c : Bev} {d : Bytes} {s t : State δ} {e : Event} (keeps : KeepsOn c d s e)
    (one : Steps m k s e t) (speaks : Pairing.SpeaksOver c d (table s.onlineList))
    (here : ∃ x ∈ table s.onlineList, x.device = d) : ∃ x ∈ table t.onlineList, x.device = d := by
  obtain ⟨sent, one⟩ := one
  by_cases awake : e.act = .sweep
  · cases e with
    | timeout now =>
        cases one
        obtain ⟨x, inTable, device⟩ := here
        obtain ⟨it, member, rfl⟩ := List.mem_map.mp inTable
        obtain ⟨kept, inSwept, same⟩ := sweep_keeps member (keeps.timely now rfl it member device)
        exact ⟨link kept, List.mem_map_of_mem inSwept, same.trans device⟩
    | read now opendir bev value => exact absurd awake (act_awake fun _ => nofun)
    | event bev what => exact absurd awake (act_awake fun _ => nofun)
  · exact (step_refines m k one).stays awake keeps.lasts speaks here

/-- On a run of steady steps, once `d` has reported on `c`, then for as long as
`c` does not end and `d` reports in time and on no other connection, its node is
there and speaks over `c`, a command of its app goes out on `c`, and an upload
on `c` goes to its app. -/
theorem info_keeps_connection {db : δ} {s s₁ t : State δ} {now : Int}
    {opendir : Bytes → Option (List Dirent)} {c : Bev} {value : Json} {d : Bytes} {es : List Event}
    (history : Reachable (guarded Steady (Steps m k)) (empty db) s)
    (cmd : value.isCmd "info" = true) (device : (value.member (lit "deviceid")).asString = .ok d)
    (report : guarded Steady (Steps m k) s (.read now opendir c value) s₁)
    (later : Trace (guarded (KeepsOn c d) (Steps m k)) s₁ es t) :
    ∃ it ∈ t.onlineList, it.deviceid = d ∧ (∀ other ∈ t.onlineList, other.deviceid = d → other = it) ∧
      it.dBev = some c ∧
      (∀ now opendir app v, it.aBev = some app → appCommands.any v.isCmd = true →
        (k.write v).length ≤ 1020 →
        dispatch m k now opendir app v t = .ok (t, [⟨c, frame k.order (k.write v)⟩])) ∧
      ∀ now opendir v, v.isCmd "upload_music" = true → (k.write v).length ≤ 1020 →
        dispatch m k now opendir c v t =
          .ok (t, it.aBev.toList.map fun app => ⟨app, frame k.order (k.write v)⟩) := by
  have act : (Event.read now opendir c value).act = .report c d := by
    rw [Event.act, if_pos cmd, device]
  have exclusive : Pairing.Exclusive (table s.onlineList) :=
    history.invariant .nil fun _ _ _ => steady_exclusive m k
  have unique : Pairing.WellFormed (table s.onlineList) :=
    history.invariant .nil fun _ _ _ base one => steps_wellFormed m k base one.2
  have invariant : (Pairing.Exclusive (table t.onlineList) ∧ Pairing.WellFormed (table t.onlineList)) ∧
      Pairing.SpeaksOver c d (table t.onlineList) ∧ ∃ x ∈ table t.onlineList, x.device = d := by
    refine later.invariant (I := fun s => (Pairing.Exclusive (table s.onlineList) ∧
      Pairing.WellFormed (table s.onlineList)) ∧
      Pairing.SpeaksOver c d (table s.onlineList) ∧ ∃ x ∈ table s.onlineList, x.device = d) ?_
      ⟨⟨steady_exclusive m k exclusive report, steps_wellFormed m k unique report.2⟩,
        report_speaks m k act report⟩
    rintro s e t ⟨⟨alone, wf⟩, speaks, here⟩ ⟨keeps, sent, one⟩
    exact ⟨⟨steady_exclusive m k alone ⟨keeps.steady, sent, one⟩, steps_wellFormed m k wf ⟨sent, one⟩⟩,
      (step_refines m k one).speaksOver keeps.stays speaks, keepsOn_known m k keeps ⟨sent, one⟩ speaks here⟩
  obtain ⟨⟨alone, wf⟩, speaks, x, inTable, is⟩ := invariant
  obtain ⟨it, member, rfl⟩ := List.mem_map.mp inTable
  have spoken : it.dBev = some c := speaks (link it) inTable is
  refine ⟨it, member, is, fun other inList same => ?_, spoken, spoken_routes m k wf alone member spoken⟩
  obtain ⟨pre, post, split, elsewhere⟩ := split_at wf member
  rw [split, List.mem_append, List.mem_cons] at inList
  rcases inList with before | rfl | behind
  · exact absurd (same.trans is.symm) (elsewhere other (List.mem_append_left _ before))
  · rfl
  · exact absurd (same.trans is.symm) (elsewhere other (List.mem_append_right _ behind))

/-- A report, a choice and a tick six seconds after the report. -/
theorem report_then_choice :
    dispatch noAccounts (writing commandText) 6 (fun _ => none) 7 command
        ⟨[chosenBy 7 (speaker "0001" 1 none)], ()⟩ =
      .ok (⟨[chosenBy 7 (speaker "0001" 1 none)], ()⟩, [⟨1, frame .little (lit commandText)⟩]) := by
  have report : guarded Steady (Steps noAccounts (writing commandText)) (empty ())
      (.read 0 (fun _ => none) 1 (status "0001")) ⟨[speaker "0001" 1 none], ()⟩ :=
    ⟨⟨by simp [table, empty], by simp [table, empty]⟩, [], rfl⟩
  have paired : guarded (KeepsOn 1 (lit "0001")) (Steps noAccounts (writing commandText))
      ⟨[speaker "0001" 1 none], ()⟩ (.read 0 (fun _ => none) 7 (choice "0001"))
      ⟨[chosenBy 7 (speaker "0001" 1 none)], ()⟩ := by
    refine ⟨⟨fun _ x member app => ?_, fun _ same => ?_, fun ends => ?_, fun _ ticks => ?_⟩, [], rfl⟩
    · rw [List.mem_singleton.mp member] at app
      cases app
    · cases same
    · cases ends
    · cases ticks
  have ticked : guarded (KeepsOn 1 (lit "0001")) (Steps noAccounts (writing commandText))
      ⟨[chosenBy 7 (speaker "0001" 1 none)], ()⟩ (.timeout 6) ⟨[chosenBy 7 (speaker "0001" 1 none)], ()⟩ := by
    refine ⟨⟨trivial, fun _ same => ?_, fun ends => ?_, fun now ticks it member _ => ?_⟩, [], rfl⟩
    · cases same
    · cases ends
    · cases ticks
      rw [List.mem_singleton.mp member]
      decide
  obtain ⟨it, member, -, -, -, command, -⟩ := info_keeps_connection noAccounts (writing commandText)
    (.refl (empty ())) rfl rfl report (.cons paired (.cons ticked (.nil _)))
  cases List.mem_singleton.mp member
  exact command 6 _ 7 Server.command rfl (by decide) (by decide)

/-- A speaker that comes back on another connection keeps the old one in its node. -/
theorem report_elsewhere_ignored :
    ¬ ∀ (s s₁ : State Unit) (c : Bev) (value : Json) (d : Bytes) (sent : List Send),
      Reachable (Steps noAccounts (writing commandText)) (empty ()) s →
      value.isCmd "info" = true → (value.member (lit "deviceid")).asString = .ok d →
      step noAccounts (writing commandText) (.read 1 (fun _ => none) c value) s = .ok (s₁, sent) →
      ∀ it ∈ s₁.onlineList, it.deviceid = d → it.dBev = some c := by
  intro always
  have spoken := always two ⟨[{ speaker "0001" 1 none with dTime := 1 }, speaker "0002" 2 none], ()⟩ 3
    (status "0001") (lit "0001") [] two_reachable rfl rfl rfl
    { speaker "0001" 1 none with dTime := 1 } (by simp) rfl
  exact absurd spoken (by decide)

end MusicPlayer.Server
