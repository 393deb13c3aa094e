import MusicPlayer.Speaker.Sharing

/-! The nodes of the playlist: when the player's searches and `StartPlay` run
off the list. -/
namespace MusicPlayer.Speaker
open CBytes FirstMatch Program Runs

/-- Some name of the list contains the track. -/
def Listed (l : List Bytes) (cur : Bytes) : Prop := ∃ name ∈ l, strstr name cur = true

theorem findNextMusic_null {l : List Bytes} {cur : Bytes} :
    findNextMusic l cur = .error .nullPointer ↔ ¬ Listed l cur := by
  have missing : firstMatch (fun name => strstr name cur) l = none ↔ ¬ Listed l cur := by
    rw [firstMatch_eq_none]
    simp [Listed]
  rw [← missing]
  unfold findNextMusic
  cases found : firstMatch (fun name => strstr name cur) l with
  | none => simp
  | some parts =>
      obtain ⟨pre, name, post⟩ := parts
      cases post <;> simp

theorem findNextMusic_fails {l : List Bytes} {cur : Bytes} {e : Fault}
    (h : findNextMusic l cur = .error e) : e = .nullPointer := by
  unfold findNextMusic at h
  split at h <;> cases h
  rfl

theorem prevFrom_null {cur p : Bytes} {l : List Bytes} :
    prevFrom cur p l = .error .nullPointer ↔ ¬ Listed l cur := by
  induction l generalizing p with
  | nil => simp [prevFrom, Listed]
  | cons name rest ih =>
      unfold prevFrom
      cases hit : strstr name cur with
      | true => simp [Listed, hit]
      | false => simpa [Listed, hit] using ih

theorem prevFrom_fails {cur p : Bytes} {l : List Bytes} {e : Fault} (h : prevFrom cur p l = .error e) :
    e = .nullPointer := by
  induction l generalizing p with
  | nil =>
      cases h
      rfl
  | cons name rest ih =>
      unfold prevFrom at h
      split at h
      · cases h
      · exact ih h

theorem findPrevMusic_cons (first : Bytes) (rest : List Bytes) (cur : Bytes) :
    findPrevMusic (first :: rest) cur =
      if strstr first cur then .ok none else prevFrom cur first rest >>= fun prev => .ok (some prev) := rfl

theorem findPrevMusic_null {l : List Bytes} {cur : Bytes} :
    findPrevMusic l cur = .error .nullPointer ↔ ¬ Listed l cur := by
  cases l with
  | nil => simp [findPrevMusic, Listed]
  | cons first rest =>
      rw [findPrevMusic_cons]
      by_cases hit : strstr first cur = true
      · simp [Listed, hit]
      · have later : Listed (first :: rest) cur ↔ Listed rest cur := by simp [Listed, hit]
        rw [if_neg hit, later, ← prevFrom_null (p := first), Except.bind_eq_error]
        simp

theorem findPrevMusic_fails {l : List Bytes} {cur : Bytes} {e : Fault}
    (h : findPrevMusic l cur = .error e) : e = .nullPointer := by
  cases l with
  | nil =>
      cases h
      rfl
  | cons first rest =>
      rw [findPrevMusic_cons] at h
      split at h
      · cases h
      · rcases Except.bind_eq_error.mp h with failed | ⟨prev, -, failed⟩
        · exact prevFrom_fails failed
        · cases failed

/-- A search that can only fail at a null node completes exactly when it does not. -/
theorem completes_iff {x : Except Fault (Option Bytes)} (only : ∀ e, x = .error e → e = .nullPointer) :
    (∃ found, x = .ok found) ↔ x ≠ .error .nullPointer := by
  cases x with
  | ok found => simp
  | error e =>
      cases only e rfl
      simp

/-! ## The searches of `NextPlay` and `PrevPlay` -/

variable (j : JsonC)

/-- `NextPlay` and `PrevPlay` from the record they have read on. -/
def nextFound (curInfo : Shm) (s : Memory) : Code :=
  check (nextTrack curInfo s) fun next =>
    match next with
    | none => reload j curInfo s
    | some name => loadTrack curInfo name s

def prevFound (curInfo : Shm) (s : Memory) : Code :=
  check (prevTrack curInfo s) fun name => loadTrack curInfo name s

theorem nextPlay_eq (s : Memory) :
    nextPlay j s = if s.startFlag then .call s .semP fun _ s => .call s .getShm (nextFound j) else .done s := rfl

theorem prevPlay_eq (s : Memory) :
    prevPlay s = if s.startFlag then .call s .semP fun _ s => .call s .getShm prevFound else .done s := rfl

/-- Code that has read the record and searches the playlist next, with anything
to do afterwards. -/
def Seeks (m : Memory) (code : Code) : Prop :=
  ∃ f : Memory → Code, code = .call m .getShm (fun curInfo m => (nextFound j curInfo m).andThen f) ∨
    code = .call m .getShm (fun curInfo m => (prevFound curInfo m).andThen f)

/-- The record's track can be looked for in the playlist, or need not be. -/
def Seekable (curInfo : Shm) (s : Memory) : Prop :=
  curInfo.curMode = circle ∨ Listed s.musicHead (cstr curInfo.curMusic)

/-- The program is at a call, or has failed elsewhere than at a null node. -/
def Past : Code → Prop
  | .done _ => False
  | .fail e => e ≠ .nullPointer
  | .call _ _ _ => True

theorem Past.andThen {p : Code} (h : Past p) (f : Memory → Code) : Past (p.andThen f) := by
  cases p with
  | done s => exact h.elim
  | fail e => exact h
  | call s op k => trivial

theorem Past.ne {p : Code} (h : Past p) : p ≠ .fail .nullPointer := by
  rintro rfl
  exact h rfl

theorem past_check {α : Type} {x : Except Fault α} {f : α → Code} (fails : ∀ e, x = .error e → e ≠ .nullPointer)
    (h : ∀ a, Past (f a)) : Past (check x f) := by
  cases x with
  | ok a => exact h a
  | error e => exact fails e rfl

/-- Copying a string may overrun its buffer, no more. -/
theorem strcpy_fails {buf text : Bytes} {e : Fault} (h : strcpy buf text = .error e) : e = .outOfBounds := by
  unfold strcpy at h
  split at h <;> cases h
  rfl

theorem strcat_fails {buf text : Bytes} {e : Fault} (h : strcat buf text = .error e) : e = .outOfBounds := by
  unfold strcat at h
  split at h <;> cases h
  rfl

theorem packet_fails {o : ByteOrder} {text : Bytes} {e : Fault} (h : packet o text = .error e) :
    e = .outOfBounds := by
  unfold packet at h
  split at h <;> cases h
  rfl

theorem currentName_fails {curInfo : Shm} {e : Fault} (h : currentName curInfo = .error e) :
    e = .outOfBounds := by
  rcases Except.bind_eq_error.mp h with failed | ⟨name, -, h⟩
  · exact strcpy_fails failed
  · rcases Except.bind_eq_error.mp h with failed | ⟨name, -, failed⟩
    · exact strcat_fails failed
    · exact strcat_fails failed

theorem setCurrent_fails {curInfo : Shm} {name : Bytes} {e : Fault} (h : setCurrent curInfo name = .error e) :
    e = .outOfBounds := by
  rcases Except.bind_eq_error.mp h with failed | ⟨⟨singer, track⟩, -, h⟩
  · unfold splitSlash at failed
    split at failed <;> cases failed
    rfl
  · rcases Except.bind_eq_error.mp h with failed | ⟨curSigner, -, h⟩
    · unfold strncpy at failed
      split at failed <;> cases failed
      rfl
    · rcases Except.bind_eq_error.mp h with failed | ⟨curMusic, -, failed⟩
      · exact strcpy_fails failed
      · cases failed

theorem loadTrack_past (curInfo : Shm) (name : Bytes) (s : Memory) : Past (loadTrack curInfo name s) := by
  refine past_check (fun e failed same => ?_) fun stored => trivial
  cases (setCurrent_fails failed).symm.trans same

theorem getMusicName_past (singer : Bytes) (s : Memory) : Past (getMusicName j singer s) := by
  unfold getMusicName
  dsimp only
  cases mode : (clearMusicList s).deviceMode with
  | offline => trivial
  | online =>
      simp only [sendMusicInfo, mode, check_andThen]
      refine past_check (fun e failed same => ?_) fun bytes => trivial
      cases (packet_fails failed).symm.trans same

theorem reload_past (curInfo : Shm) (s : Memory) : Past (reload j curInfo s) := by
  unfold reload stopPlay
  split
  · trivial
  · exact (getMusicName_past j _ _).andThen startPlay

theorem nextTrack_null {curInfo : Shm} {s : Memory} :
    nextTrack curInfo s = .error .nullPointer ↔ ¬ Seekable curInfo s := by
  unfold nextTrack Seekable
  by_cases repeats : curInfo.curMode = circle
  · rw [if_pos repeats]
    refine ⟨fun h => ?_, fun h => absurd (.inl repeats) h⟩
    rcases Except.bind_eq_error.mp h with failed | ⟨name, -, failed⟩
    · cases currentName_fails failed
    · cases failed
  · rw [if_neg repeats, Except.bind_eq_error, findNextMusic_null]
    simp only [repeats, false_or]
    refine ⟨?_, .inl⟩
    rintro (missing | ⟨next, -, failed⟩)
    · exact missing
    · cases next with
      | none => cases failed
      | some next =>
          rcases Except.bind_eq_error.mp failed with failed | ⟨name, -, failed⟩
          · cases strcpy_fails failed
          · cases failed

theorem prevTrack_null {curInfo : Shm} {s : Memory} :
    prevTrack curInfo s = .error .nullPointer ↔ ¬ Seekable curInfo s := by
  unfold prevTrack Seekable
  by_cases repeats : curInfo.curMode = circle
  · rw [if_pos repeats]
    refine ⟨fun h => ?_, fun h => absurd (.inl repeats) h⟩
    cases currentName_fails h
  · rw [if_neg repeats, Except.bind_eq_error, findPrevMusic_null]
    simp only [repeats, false_or]
    refine ⟨?_, .inl⟩
    rintro (missing | ⟨prev, found, failed⟩)
    · exact missing
    · cases prev with
      | some prev => cases strcpy_fails failed
      | none =>
          cases head : s.musicHead with
          | nil =>
              rw [head] at found
              cases found
          | cons first rest =>
              simp only [head] at failed
              cases strcpy_fails failed

/-- The search runs off the list exactly when its track is not there. -/
theorem nextFound_null {curInfo : Shm} {s : Memory} (f : Memory → Code) :
    (nextFound j curInfo s).andThen f = .fail .nullPointer ↔ ¬ Seekable curInfo s := by
  rw [← nextTrack_null]
  unfold nextFound
  cases found : nextTrack curInfo s with
  | error e => simp [check, andThen]
  | ok next =>
      have past : Past (check (Except.ok next) fun next =>
          match next with
          | none => reload j curInfo s
          | some name => loadTrack curInfo name s) := by
        cases next with
        | none => exact reload_past j curInfo s
        | some name => exact loadTrack_past curInfo name s
      simpa using (past.andThen f).ne

theorem prevFound_null {curInfo : Shm} {s : Memory} (f : Memory → Code) :
    (prevFound curInfo s).andThen f = .fail .nullPointer ↔ ¬ Seekable curInfo s := by
  rw [← prevTrack_null]
  unfold prevFound
  cases found : prevTrack curInfo s with
  | error e => simp [check, andThen]
  | ok name => simpa [check] using ((loadTrack_past curInfo name s).andThen f).ne

/-! ## Where the parent's code reads the playlist -/

/-- Code that reads the head of the playlist right after `signal`, searches it
right after `GetShm`, and reads no node anywhere else. -/
inductive Looks : Code → Prop
  | done (s : Memory) : Looks (.done s)
  | fail (e : Fault) : Looks (.fail e)
  | other {s : Memory} {op : Call} {k : op.Answer → Memory → Code} : op ≠ .signal → op ≠ .getShm →
      (∀ a m, Looks (k a m)) → Looks (.call s op k)
  | head {s : Memory} {k : Unit → Memory → Code} :
      (∀ m, m.musicHead = [] ∧ k () m = .fail .nullPointer ∨ m.musicHead ≠ [] ∧ Past (k () m)) →
      (∀ m, Looks (k () m)) → Looks (.call s .signal k)
  | search {s : Memory} {k : Shm → Memory → Code} : (∀ m, Seeks j m (.call m .getShm k)) →
      (∀ a m, Looks (k a m)) → Looks (.call s .getShm k)
  | record {s : Memory} {k : Shm → Memory → Code} : (∀ a m, Past (k a m)) → (∀ a m, Looks (k a m)) →
      Looks (.call s .getShm k)

def Call.Blind (op : Call) : Prop := op ≠ .signal ∧ op ≠ .getShm

theorem blind_looks {p : Code} (h : p.Every Call.Blind) : Looks j p := by
  induction h with
  | done s => exact .done s
  | fail e => exact .fail e
  | call blind _ ih => exact .other blind.1 blind.2 ih

theorem Looks.check {α : Type} {x : Except Fault α} {f : α → Code} (h : ∀ a, Looks j (f a)) :
    Looks j (Program.check x f) := by
  cases x with
  | ok a => exact h a
  | error e => exact .fail e

theorem next_seeks (m : Memory) : Seeks j m (.call m .getShm (nextFound j)) := by
  have alone : nextFound j = fun curInfo m => (nextFound j curInfo m).andThen .done := by
    funext curInfo m
    exact (andThen_done _).symm
  exact ⟨.done, .inl (congrArg _ alone)⟩

theorem prev_seeks (m : Memory) : Seeks j m (.call m .getShm prevFound) := by
  have alone : prevFound = fun curInfo m => (prevFound curInfo m).andThen .done := by
    funext curInfo m
    exact (andThen_done _).symm
  exact ⟨.done, .inr (congrArg _ alone)⟩

theorem Seeks.andThen {m : Memory} {p : Code} (h : Seeks j m p) (f : Memory → Code) :
    Seeks j m (p.andThen f) := by
  obtain ⟨g, rfl | rfl⟩ := h
  · refine ⟨fun s => (g s).andThen f, .inl ?_⟩
    simp only [Program.andThen, andThen_assoc]
  · refine ⟨fun s => (g s).andThen f, .inr ?_⟩
    simp only [Program.andThen, andThen_assoc]

theorem Looks.andThen {p : Code} {f : Memory → Code} (first : Looks j p) (second : ∀ s, Looks j (f s)) :
    Looks j (p.andThen f) := by
  induction first with
  | done s => exact second s
  | fail e => exact .fail e
  | other one two _ ih => exact .other one two ih
  | head reads _ ih =>
      refine .head (fun m => ?_) ih
      rcases reads m with ⟨empty, failed⟩ | ⟨some_, past⟩
      · exact .inl ⟨empty, by rw [failed]; rfl⟩
      · exact .inr ⟨some_, past.andThen f⟩
  | search seeks _ ih => exact .search (fun m => (seeks m).andThen j f) ih
  | record past _ ih => exact .record (fun a m => (past a m).andThen f) ih

theorem continuePlay_looks (s : Memory) : Looks j (continuePlay s) :=
  blind_looks j (continuePlay_every (fun _ => ⟨nofun, nofun⟩) s)

theorem startPlay_looks (s : Memory) : Looks j (startPlay s) := by
  unfold startPlay
  split
  · exact continuePlay_looks j s
  · split
    · exact .done s
    · refine .head (fun m => ?_) fun m => ?_
      · cases head : m.musicHead with
        | nil => exact .inl ⟨rfl, rfl⟩
        | cons name rest =>
            have fails : ∀ e, strcpy (zeros 128) name = .error e → e ≠ .nullPointer := by
              intro e failed same
              cases (strcpy_fails failed).symm.trans same
            refine .inr ⟨List.cons_ne_nil name rest, ?_⟩
            dsimp only
            generalize strcpy (zeros 128) name = copied at fails ⊢
            exact past_check fails fun musicName => trivial
      · split
        · exact .fail _
        · apply Looks.check
          intro musicName
          exact .other nofun nofun fun _ s => .done s

theorem stopPlay_looks (s : Memory) : Looks j (stopPlay s) := by
  unfold stopPlay
  split
  · refine .record (fun _ _ => trivial) fun curInfo s => ?_
    refine .other nofun nofun fun _ s => ?_
    refine .other nofun nofun fun _ s => ?_
    exact .other nofun nofun fun _ s => .done s
  · exact .done s

theorem sendMusicInfo_looks (obj : Json) (s : Memory) : Looks j (sendMusicInfo j obj s) :=
  blind_looks j (sendMusicInfo_every j (fun _ => ⟨nofun, nofun⟩) obj s)

theorem getMusicName_looks (singer : Bytes) (s : Memory) : Looks j (getMusicName j singer s) :=
  blind_looks j
    (getMusicName_every j (fun _ => ⟨nofun, nofun⟩) ⟨nofun, nofun⟩ (fun _ => ⟨nofun, nofun⟩) singer s)

theorem replay_looks (singer : Bytes) (s : Memory) :
    Looks j ((getMusicName j singer (clearMusicList s)).andThen startPlay) :=
  (getMusicName_looks j singer _).andThen j (startPlay_looks j)

theorem suspendPlay_looks (s : Memory) : Looks j (suspendPlay s) := by
  unfold suspendPlay
  split
  · exact .other nofun nofun fun _ s => .done _
  · exact .done s

theorem loadTrack_looks (curInfo : Shm) (name : Bytes) (s : Memory) : Looks j (loadTrack curInfo name s) := by
  refine .check j fun stored => ?_
  refine .other nofun nofun fun _ s => ?_
  refine .other nofun nofun fun _ s => ?_
  refine .check j fun path => ?_
  exact .other nofun nofun fun _ s => .done _

theorem nextPlay_looks (s : Memory) : Looks j (nextPlay j s) := by
  rw [nextPlay_eq]
  split
  · refine .other nofun nofun fun _ s => ?_
    refine .search (next_seeks j) fun curInfo s => ?_
    apply Looks.check
    intro next
    cases next with
    | none => exact (stopPlay_looks j s).andThen j fun s => replay_looks j _ s
    | some name => exact loadTrack_looks j curInfo name s
  · exact .done s

theorem prevPlay_looks (s : Memory) : Looks j (prevPlay s) := by
  rw [prevPlay_eq]
  split
  · refine .other nofun nofun fun _ s => ?_
    refine .search (prev_seeks j) fun curInfo s => ?_
    apply Looks.check
    exact fun name => loadTrack_looks j curInfo name s
  · exact .done s

theorem upVolume_looks (s : Memory) : Looks j (upVolume s) := by
  unfold upVolume
  refine .other nofun nofun fun volume s => ?_
  split
  · exact .other nofun nofun fun _ s => .done s
  · exact .done s

theorem downVolume_looks (s : Memory) : Looks j (downVolume s) := by
  unfold downVolume
  refine .other nofun nofun fun volume s => ?_
  split
  · exact .other nofun nofun fun _ s => .done s
  · exact .done s

theorem setMode_looks (mode : Int) (s : Memory) : Looks j (setMode mode s) := by
  refine .record (fun _ _ => trivial) fun curInfo s => ?_
  exact .other nofun nofun fun _ s => .done s

theorem interrupt_looks (i : Interrupt) (s : Memory) : Looks j (i.run j s) := by
  cases i with
  | usr1 =>
      refine .other nofun nofun fun _ s => ?_
      refine .record (fun _ _ => trivial) fun curInfo s => ?_
      refine .other nofun nofun fun _ s => ?_
      refine .other nofun nofun fun _ s => ?_
      exact replay_looks j _ s
  | alarm =>
      change Looks j (handle s)
      unfold handle
      split
      · exact startPlay_looks j s
      · split
        · exact suspendPlay_looks j s
        · exact continuePlay_looks j s

theorem answered_looks {run : Memory → Code} (cmd : String) (looks : ∀ s, Looks j (run s)) (s : Memory) :
    Looks j (answered j run cmd s) := (looks s).andThen j fun s => sendMusicInfo_looks j _ s

theorem socketStartPlay_looks (s : Memory) : Looks j (socketStartPlay j s) := by
  refine (startPlay_looks j s).andThen j fun s => ?_
  exact .other nofun nofun fun result s => sendMusicInfo_looks j _ s

theorem socketStopPlay_looks (s : Memory) : Looks j (socketStopPlay j s) := by
  refine (stopPlay_looks j s).andThen j fun s => ?_
  exact .other nofun nofun fun result s => sendMusicInfo_looks j _ s

theorem handlers_look : ∀ h ∈ handlers j, ∀ s, Looks j (h.2 s) := by
  simp only [handlers, List.forall_mem_cons, List.not_mem_nil, false_implies, implies_true, and_true]
  refine ⟨?_, ?_, ?_, ?_, ?_, ?_, ?_, ?_, ?_, ?_, ?_, ?_⟩ <;> intro s
  · exact socketStartPlay_looks j s
  · exact socketStopPlay_looks j s
  · exact answered_looks j _ (suspendPlay_looks j) s
  · exact answered_looks j _ (continuePlay_looks j) s
  · exact answered_looks j _ (nextPlay_looks j) s
  · exact answered_looks j _ (prevPlay_looks j) s
  · exact answered_looks j _ (downVolume_looks j) s
  · exact answered_looks j _ (upVolume_looks j) s
  · exact answered_looks j _ (setMode_looks j circle) s
  · exact answered_looks j _ (setMode_looks j sequence) s
  · exact sendMusicInfo_looks j _ s
  · exact sendMusicInfo_looks j _ s

theorem readSocket_looks (s : Memory) : Looks j (readSocket j s) := by
  refine .other nofun nofun fun text s => ?_
  refine .check j fun cmd => ?_
  unfold execute
  split
  · rename_i run found
    exact handlers_look j _ (List.mem_of_find?_eq_some found) s
  · exact .done s

theorem task_looks (t : Task) (s : Memory) : Looks j (t.run j s) := by
  cases t with
  | startPlay => exact startPlay_looks j s
  | stopPlay => exact stopPlay_looks j s
  | suspendPlay => exact suspendPlay_looks j s
  | continuePlay => exact continuePlay_looks j s
  | nextPlay => exact nextPlay_looks j s
  | prevPlay => exact prevPlay_looks j s
  | upVolume => exact upVolume_looks j s
  | downVolume => exact downVolume_looks j s
  | circlePlay => exact setMode_looks j circle s
  | sequencePlay => exact setMode_looks j sequence s
  | getMusicName singer => exact getMusicName_looks j singer s
  | sing singer =>
      refine (stopPlay_looks j s).andThen j fun s => ?_
      exact (getMusicName_looks j singer s).andThen j (startPlay_looks j)
  | uploadMusic => exact sendMusicInfo_looks j _ s
  | readSocket => exact readSocket_looks j s

/-! ## Runs -/

/-- When `StartPlay` is about to read the head of the playlist there is one; and
when `NextPlay` or `PrevPlay` is about to read the record, the record's track is
in the playlist or the mode is to repeat it. -/
def Stocked (s : Shared) : Act → Prop
  | .call => (∀ m k, s.top.code = .call m .signal k → m.musicHead ≠ []) ∧
      ∀ m, Seeks j m s.top.code → Seekable s.shm m
  | _ => True

theorem readsNull_blind {op : Call} (blind : op.Blind) (p : Code) : readsNull op p = false := by
  cases op with
  | signal => exact absurd rfl blind.1
  | getShm => exact absurd rfl blind.2
  | _ => rfl

theorem readsNull_signal {p : Code} : readsNull .signal p = true ↔ p = .fail .nullPointer := by
  cases p with
  | fail e => cases e <;> simp [readsNull]
  | _ => simp [readsNull]

theorem readsNull_getShm {p : Code} : readsNull .getShm p = true ↔ p = .fail .nullPointer := by
  cases p with
  | fail e => cases e <;> simp [readsNull]
  | _ => simp [readsNull]

theorem Seeks.null {m : Memory} {k : Shm → Memory → Code} (h : Seeks j m (.call m .getShm k)) (curInfo : Shm) :
    k curInfo m = .fail .nullPointer ↔ ¬ Seekable curInfo m := by
  obtain ⟨f, same | same⟩ := h
  · cases same
    exact nextFound_null j f
  · cases same
    exact prevFound_null f

theorem seeks_call {m m' : Memory} {op : Call} {k : op.Answer → Memory → Code}
    (h : Seeks j m' (.call m op k)) : op = .getShm ∧ m' = m := by
  obtain ⟨f, same | same⟩ := h <;> cases same <;> exact ⟨rfl, rfl⟩

/-- A call reads a null node exactly when it finds the playlist not stocked. -/
theorem call_reads {s t : Shared} {m : Memory} {op : Call} {k : op.Answer → Memory → Code} {a : op.Answer}
    (looks : Looks j s.top.code) (code : s.top.code = .call m op k) (gives : Gives s op a t) :
    readsNull op (k a m) = false ↔ Stocked j s .call := by
  rw [code] at looks
  simp only [Stocked, code]
  cases looks with
  | other one two _ =>
      rw [readsNull_blind ⟨one, two⟩]
      refine iff_of_true rfl ⟨fun m' k' same => ?_, fun m' seeks => ?_⟩
      · cases same
        exact absurd rfl one
      · exact absurd (seeks_call j seeks).1 two
  | @head _ k reads _ =>
      have seeks : ∀ m', Seeks j m' (.call m .signal k) → Seekable s.shm m' := by
        intro m' seeks
        cases (seeks_call j seeks).1
      rw [Bool.eq_false_iff, ne_eq, readsNull_signal]
      constructor
      · intro fine
        refine ⟨fun m' k' same => ?_, seeks⟩
        cases same
        rcases reads m with ⟨_, failed⟩ | ⟨some_, _⟩
        · exact absurd failed fine
        · exact some_
      · rintro ⟨stocked, -⟩ failed
        rcases reads m with ⟨empty, _⟩ | ⟨_, past⟩
        · exact stocked m k rfl empty
        · exact past.ne failed
  | @search _ k seeks _ =>
      cases gives with
      | apart _ apart => exact apart.elim
      | getShm =>
          rw [Bool.eq_false_iff, ne_eq, readsNull_getShm, Seeks.null j (seeks m), not_not]
          constructor
          · intro seekable
            refine ⟨fun m' k' same => (by cases same), fun m' seeks => ?_⟩
            rw [(seeks_call j seeks).2]
            exact seekable
          · exact fun stocked => stocked.2 m (seeks m)
  | @record _ k past _ =>
      rw [Bool.eq_false_iff, ne_eq, readsNull_getShm]
      refine iff_of_true (past a m).ne ⟨fun m' k' same => (by cases same), fun m' seeks => ?_⟩
      obtain ⟨-, rfl⟩ := seeks_call j seeks
      by_contra missing
      exact (past s.shm m').ne ((Seeks.null j seeks s.shm).mpr missing)

theorem Looks.goes {m : Memory} {op : Call} {k : op.Answer → Memory → Code} (h : Looks j (.call m op k))
    (a : op.Answer) (m' : Memory) : Looks j (k a m') := by
  cases h with
  | other _ _ rest => exact rest a m'
  | head _ rest => exact rest m'
  | search _ rest => exact rest a m'
  | record _ rest => exact rest a m'

theorem Looks.withMemory {p : Code} (h : Looks j p) (m : Memory) : Looks j (p.withMemory m) := by
  cases h with
  | done _ => exact .done m
  | fail e => exact .fail e
  | other one two rest => exact .other one two rest
  | head reads rest => exact .head reads rest
  | search seeks rest => exact .search seeks rest
  | record past rest => exact .record past rest

theorem Looks.resume {a : Activation} (h : Looks j a.code) (m : Memory) : Looks j (a.resume m).code := by
  unfold Activation.resume
  split
  · change Looks j (semPReturns m a.code)
    unfold semPReturns
    split
    · rename_i k code
      rw [code] at h
      exact h.goes j () m
    · exact h.withMemory j m
  · exact h.withMemory j m

def AllLook (s : Shared) : Prop := ∀ a ∈ s.activations, Looks j a.code

theorem allLook_start (m : Memory) (shm : Shm) : AllLook j (Shared.start m shm) := by
  intro a member
  cases List.mem_singleton.mp member
  exact .done m

theorem allLook_step {s t : Shared} {i : Act} (h : AllLook j s) (one : Acts j s i t) : AllLook j t := by
  obtain ⟨top, below⟩ := List.forall_mem_cons.mp h
  cases one with
  | begin o _ _ => exact List.forall_mem_cons.mpr ⟨task_looks j o _, below⟩
  | switch m' _ _ => exact List.forall_mem_cons.mpr ⟨.done m', below⟩
  | @call _ t m op k a code gives =>
      rw [code] at top
      have same : t.below = s.below := by cases gives <;> rfl
      rw [← same] at below
      exact List.forall_mem_cons.mpr ⟨top.goes j a m, below⟩
  | sleep _ _ => exact List.forall_mem_cons.mpr ⟨top, below⟩
  | enter i _ _ => exact List.forall_mem_cons.mpr ⟨interrupt_looks j i _, h⟩
  | @leave _ m i a rest _ split =>
      rw [split] at below
      obtain ⟨first, others⟩ := List.forall_mem_cons.mp below
      exact List.forall_mem_cons.mpr ⟨first.resume j m, others⟩
  | crash _ =>
      intro a member
      cases List.mem_singleton.mp member
      exact .fail _
  | fork _ _ => exact h
  | @track _ t _ _ _ _ _ moved =>
      have same : t.top = s.top ∧ t.below = s.below := by cases moved <;> exact ⟨rfl, rfl⟩
      change ∀ a ∈ t.top :: t.below.map Prod.snd, Looks j a.code
      rw [same.1, same.2]
      exact h
  | store _ _ _ => exact h
  | exit _ _ => exact h

theorem step_reads {s t : Shared} {i : Act} (h : AllLook j s) (one : Acts j s i t) :
    t.nullRead = false ↔ s.nullRead = false ∧ Stocked j s i := by
  cases one with
  | call code gives => simp only [Bool.or_eq_false_iff, call_reads j (h s.top List.mem_cons_self) code gives]
  | track _ _ moved => cases moved <;> simp [Stocked]
  | _ => simp [Stocked]

/-- A run has read no null node exactly when each of its steps found the playlist stocked. -/
theorem run_reads {s t : Shared} {acts : List Act} (h : AllLook j s) (fine : s.nullRead = false)
    (run : Trace (Acts j) s acts t) :
    t.nullRead = false ↔ Trace (guarded (Stocked j) (Acts j)) s acts t := by
  constructor
  · intro last
    have both : s.nullRead = false ∧ Trace (guarded (Stocked j) (Acts j)) s acts t := by
      clear fine
      induction run with
      | nil s => exact ⟨last, .nil s⟩
      | cons one _ ih =>
          obtain ⟨next, rest⟩ := ih (allLook_step j h one) last
          obtain ⟨before, stocked⟩ := (step_reads j h one).mp next
          exact ⟨before, .cons ⟨stocked, one⟩ rest⟩
    exact both.2
  · intro stocked
    have both : AllLook j t ∧ t.nullRead = false := by
      refine stocked.invariant (I := fun s => AllLook j s ∧ s.nullRead = false) ?_ ⟨h, fine⟩
      rintro s i t ⟨looks, fine⟩ ⟨stocked, one⟩
      exact ⟨allLook_step j looks one, (step_reads j looks one).mpr ⟨fine, stocked⟩⟩
    exact both.2

/-- `FindNextMusic` and `FindPrevMusic` complete exactly on a playlist with a name
that contains the track; and a run of the speaker reads no null node exactly when
every step finds the playlist stocked. -/
theorem playlist_safe_iff :
    (∀ l cur, (∃ found, findNextMusic l cur = .ok found) ↔ Listed l cur) ∧
    (∀ l cur, (∃ found, findPrevMusic l cur = .ok found) ↔ Listed l cur) ∧
    ∀ m shm acts s, Trace (Acts j) (Shared.start m shm) acts s →
      (s.nullRead = false ↔ Trace (guarded (Stocked j) (Acts j)) (Shared.start m shm) acts s) := by
  refine ⟨fun l cur => ?_, fun l cur => ?_, fun m shm acts s run => ?_⟩
  · rw [completes_iff fun e => findNextMusic_fails, ne_eq, findNextMusic_null, not_not]
  · rw [completes_iff fun e => findPrevMusic_fails, ne_eq, findPrevMusic_null, not_not]
  · exact run_reads j (allLook_start j m shm) rfl run

/-- A list is asked for, the reply is rejected, and play is started. -/
theorem rejected_reply_then_start :
    ¬ ∀ (j : JsonC) (m : Memory) (shm : Shm) (acts : List Act) (s : Shared),
      Trace (Acts j) (Shared.start m shm) acts s → s.nullRead = false := by
  intro always
  let j : JsonC := ⟨.little, fun _ => none, fun _ => []⟩
  let idle : Memory := ⟨false, false, .online, [lit "a/b.mp3"]⟩
  have begun : Reachable (Acts j) (Shared.start idle (initShm 100)) _ :=
    (Reachable.refl _).tail (i := Act.begin (.getMusicName (lit "c"))) (.begin _ rfl rfl)
  have asked := begun.tail (i := Act.call) (.call rfl (.apart () trivial))
  have rejected := asked.tail (i := Act.call) (.call rfl (.apart ([] : Bytes) trivial))
  have uploaded := rejected.tail (i := Act.call) (.call rfl (.apart () trivial))
  have started := uploaded.tail (i := Act.begin .startPlay) (.begin _ rfl rfl)
  have read := started.tail (i := Act.call) (.call rfl (.apart () trivial))
  obtain ⟨acts, run⟩ := read
  have fine := always _ _ _ _ _ run
  cases fine

theorem one_track_stocked :
    ∃ (j : JsonC) (s : Shared),
      Trace (guarded (Stocked j) (Acts j)) (Shared.start (oneTrack false) (initShm 100))
        [.begin .startPlay, .call] s ∧ s.nullRead = false := by
  let j : JsonC := ⟨.little, fun _ => none, fun _ => []⟩
  obtain ⟨k, signal, next⟩ := oneTrack_starts
  have run : Trace (Acts j) (Shared.start (oneTrack false) (initShm 100)) [.begin .startPlay, .call] _ :=
    .cons (.begin _ rfl rfl) (.cons (.call signal (.apart () trivial)) (.nil _))
  have fine : (false || readsNull .signal (k () (oneTrack false))) = false := by
    rw [next]
    rfl
  exact ⟨j, _, ((playlist_safe_iff j).2.2 _ _ _ _ run).mp fine, fine⟩

end MusicPlayer.Speaker
