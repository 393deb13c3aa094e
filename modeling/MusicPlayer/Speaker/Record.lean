import MusicPlayer.Speaker.Sharing

/-! Changes of the shared record: what each puts in it, and that none stores
again what another one has changed meanwhile. -/
namespace MusicPlayer.Speaker
open CBytes Program Runs

/-- The code is about to store the record. -/
def AtSet (code : Code) : Prop := ∃ m stored k, code = .call m (.setShm stored) k

/-- A track process has read the record and not stored it yet. -/
def TrackPhase.Updating : TrackPhase → Prop
  | .read _ => True
  | .placed _ _ => True
  | _ => False

/-- No change of mode stores the record while a track process is between its
`GetShm` and its `SetShm`, no track process while a change of mode is between
them, and no handler starts while the code that runs is blocked in `SemP`. -/
def Unmixed (s : Shared) : Act → Prop
  | .call => s.top.inside = false → AtSet s.top.code → ∀ x ∈ s.tracks, ¬ x.phase.Updating
  | .store => ∀ a ∈ s.activations, AtSet a.code → a.inside = true
  | .enter _ => s.top.asleep = false
  | _ => True

/-- No operation is under way. -/
structure Shared.Finished (s : Shared) : Prop where
  main : s.below = [] ∧ ∃ m, s.top.code = .done m
  tracks : ∀ x ∈ s.tracks, x.phase.locks = false

/-! ## Copies of the record -/

/-- The handlers store no record. -/
def Call.Reading : Call → Prop
  | .setShm _ => False
  | _ => True

variable (j : JsonC)

theorem free_reading (op : Call) (h : op.Free) : op.Reading := by
  cases op with
  | setShm _ => exact h.elim
  | _ => trivial

theorem interrupt_reading (i : Interrupt) (s : Memory) : (i.run j s).Every Call.Reading := by
  cases i with
  | usr1 =>
      refine .call trivial fun _ s => ?_
      refine .call trivial fun curInfo s => ?_
      refine .call trivial fun _ s => ?_
      refine .call trivial fun _ s => ?_
      exact (replay_free j _ s).mono free_reading
  | alarm => exact (handle_free s).mono free_reading

theorem reading_not_atSet {code : Code} (h : code.Every Call.Reading) : ¬ AtSet code := by
  rintro ⟨m, stored, k, rfl⟩
  cases h with
  | call reading _ => exact reading

/-- The record is what the code that is about to store it has read last. -/
def Activation.Fresh (shm : Shm) (a : Activation) : Prop :=
  ∃ last, Follows lockRule (a.inside, last) a.code ∧ (AtSet a.code → last = some shm)

/-- A track process has read the present record, or made its change of it. -/
def TrackPhase.Fresh (shm : Shm) : TrackPhase → Prop
  | .read curInfo => curInfo = shm
  | .placed curInfo _ => shm.withPlayer curInfo = curInfo
  | _ => True

/-- Every activation but the lowest is a handler's. -/
def Nested : List Activation → Prop
  | [] => True
  | [_] => True
  | a :: b :: rest => a.code.Every Call.Reading ∧ Nested (b :: rest)

structure Kept (s : Shared) : Prop where
  balanced : Balanced s
  nested : Nested s.activations
  wanted : s.shm = s.wanted
  parent : ∀ a ∈ s.activations, a.Fresh s.shm
  tracks : ∀ x ∈ s.tracks, x.phase.Fresh s.shm

theorem fresh_of_follows {code : Code} {inside : Bool} (follows : Follows lockRule (inside, none) code)
    (asleep : Bool) (shm : Shm) : Activation.Fresh shm ⟨code, asleep, inside⟩ := by
  refine ⟨none, follows, ?_⟩
  rintro ⟨m, stored, k, rfl⟩
  cases follows with
  | call allowed _ =>
      obtain ⟨curInfo, none_, -⟩ := allowed
      cases none_

theorem fresh_unlocked {x : Track} (free : x.phase.locks = false) (shm : Shm) : x.phase.Fresh shm := by
  cases phase : x.phase with
  | read curInfo => simp [phase, TrackPhase.locks] at free
  | placed curInfo own => simp [phase, TrackPhase.locks] at free
  | _ => trivial

theorem fresh_idle {x : Track} (idle : ¬ x.phase.Updating) (shm : Shm) : x.phase.Fresh shm := by
  cases phase : x.phase with
  | read curInfo => exact absurd (phase ▸ trivial) idle
  | placed curInfo own => exact absurd (phase ▸ trivial) idle
  | _ => trivial

theorem setCurrent_withPlayer {curInfo stored : Shm} {parent pid : Int} {name : Bytes}
    (h : setCurrent { curInfo with childPid := parent, grandPid := pid } name = .ok stored) :
    curInfo.withPlayer stored = stored := by
  obtain ⟨⟨singer, track⟩, -, h⟩ := Except.bind_eq_ok.mp h
  obtain ⟨curSigner, -, h⟩ := Except.bind_eq_ok.mp h
  obtain ⟨curMusic, -, h⟩ := Except.bind_eq_ok.mp h
  cases h
  rfl

theorem atSet_withMemory {code : Code} {m : Memory} (h : AtSet (code.withMemory m)) : AtSet code := by
  obtain ⟨m', stored, k, same⟩ := h
  cases code with
  | done s => cases same
  | fail e => cases same
  | call s op k' =>
      cases same
      exact ⟨s, stored, k, rfl⟩

theorem Activation.Fresh.resume {shm : Shm} {a : Activation} (h : a.Fresh shm) (awake : a.asleep = false)
    (m : Memory) : (a.resume m).Fresh shm := by
  obtain ⟨last, follows, read⟩ := h
  have same : a.resume m = { a with code := a.code.withMemory m } := by
    rw [Activation.resume, if_neg (by rw [awake]; decide)]
  rw [same]
  exact ⟨last, follows.withMemory m, fun set => read (atSet_withMemory set)⟩

/-! ## Alone in the critical section -/

theorem Balanced.parent_alone {s : Shared} (h : Balanced s) (inside : s.top.inside = true) :
    ∀ x ∈ s.tracks, x.phase.locks = false := by
  have one := h.exclusive.one
  rw [Shared.between, Shared.activations, List.countP_cons, if_pos inside] at one
  have none_ : s.tracks.countP (fun x => x.phase.locks) = 0 := by omega
  intro x member
  simpa using List.countP_eq_zero.mp none_ x member

theorem Balanced.track_alone {s : Shared} (h : Balanced s) {pre post : List Track} {x : Track}
    (split : s.tracks = pre ++ x :: post) (locks : x.phase.locks = true) :
    (∀ a ∈ s.activations, a.inside = false) ∧ ∀ y ∈ pre ++ post, y.phase.locks = false := by
  have one := h.exclusive.one
  have whole := countP_middle (fun x : Track => x.phase.locks) pre post x
  rw [locks, if_pos rfl] at whole
  rw [Shared.between, split] at one
  have outside : s.activations.countP (fun a => a.inside) = 0 := by omega
  have others : (pre ++ post).countP (fun x => x.phase.locks) = 0 := by omega
  constructor
  · intro a member
    simpa using List.countP_eq_zero.mp outside a member
  · intro y member
    simpa using List.countP_eq_zero.mp others y member

/-! ## Steps -/

theorem nested_tail {a : Activation} {rest : List Activation} (h : Nested (a :: rest)) : Nested rest := by
  cases rest with
  | nil => trivial
  | cons b rest => exact h.2

/-- The code of the running activation may be replaced by what it goes on with. -/
theorem nested_top {a b : Activation} {rest : List Activation} (h : Nested (a :: rest))
    (goes : a.code.Every Call.Reading → b.code.Every Call.Reading) : Nested (b :: rest) := by
  cases rest with
  | nil => trivial
  | cons c rest => exact ⟨goes h.1, h.2⟩

theorem reading_goes {code : Code} {m : Memory} {op : Call} {k : op.Answer → Memory → Code}
    (at_ : code = .call m op k) (a : op.Answer) (h : code.Every Call.Reading) :
    (k a m).Every Call.Reading := by
  subst at_
  cases h with
  | call _ rest => exact rest a m

theorem unmixed_unbroken {s : Shared} {i : Act} (h : Unmixed s i) : Unbroken s i := by
  cases i with
  | enter i => exact h
  | _ => trivial

variable {j}

/-- What the parent stores is its change of the present record. -/
theorem kept_set {s : Shared} (h : Kept s) {m : Memory} {stored : Shm} {k : Unit → Memory → Code}
    (code : s.top.code = .call m (.setShm stored) k) (alone : Unmixed s .call) :
    s.below = [] ∧ s.wanted.credit stored s.top.inside = stored ∧
      (∀ x ∈ s.tracks, x.phase.Fresh stored) ∧ Follows lockRule (s.top.inside, none) (k () m) := by
  have set : AtSet s.top.code := ⟨m, stored, k, code⟩
  obtain ⟨last, follows, read⟩ := h.parent s.top List.mem_cons_self
  have current := read set
  subst current
  rw [code] at follows
  cases follows with
  | call allowed rest =>
      obtain ⟨curInfo, same, credit⟩ := allowed
      cases same
      refine ⟨?_, h.wanted ▸ credit, fun x member => ?_, rest () m⟩
      · cases below : s.below with
        | nil => rfl
        | cons f rest =>
            have nested := h.nested
            rw [Shared.activations, below] at nested
            exact absurd set (reading_not_atSet nested.1)
      · cases inside : s.top.inside with
        | true => exact fresh_unlocked (h.balanced.parent_alone inside x member) stored
        | false => exact fresh_idle (alone inside set x member) stored

theorem kept_call {s t : Shared} (h : Kept s) {m : Memory} {op : Call} {k : op.Answer → Memory → Code}
    {a : op.Answer} (code : s.top.code = .call m op k) (gives : Gives s op a t) (alone : Unmixed s .call)
    (nullRead : Bool) : Kept { t with top := ⟨k a m, false, op.inside s.top.inside⟩, nullRead } := by
  have balanced := balanced_call h.balanced code gives nullRead
  have nested : Nested (⟨k a m, false, op.inside s.top.inside⟩ :: s.below.map Prod.snd) :=
    nested_top h.nested (reading_goes code a)
  obtain ⟨last, follows, -⟩ := h.parent s.top List.mem_cons_self
  rw [code] at follows
  have below : ∀ x ∈ s.below.map Prod.snd, x.Fresh s.shm := fun x member =>
    h.parent x (List.mem_cons_of_mem _ member)
  cases follows with
  | call allowed rest =>
      cases gives with
      | setShm =>
          obtain ⟨alone, credit, tracks, follows⟩ := kept_set h code alone
          refine ⟨balanced, nested, credit.symm, ?_, tracks⟩
          rw [Shared.activations]
          simp only [alone, List.map_nil, List.forall_mem_singleton]
          exact fresh_of_follows follows false _
      | getShm =>
          refine ⟨balanced, nested, h.wanted, ?_, h.tracks⟩
          exact List.forall_mem_cons.mpr ⟨⟨some s.shm, rest s.shm m, fun _ => rfl⟩, below⟩
      | semP free =>
          refine ⟨balanced, nested, h.wanted, ?_, h.tracks⟩
          exact List.forall_mem_cons.mpr ⟨fresh_of_follows (rest () m) false _, below⟩
      | semV =>
          refine ⟨balanced, nested, h.wanted, ?_, h.tracks⟩
          exact List.forall_mem_cons.mpr ⟨fresh_of_follows (rest () m) false _, below⟩
      | apart _ apart =>
          refine ⟨balanced, nested, h.wanted, ?_, h.tracks⟩
          have goes : Follows lockRule (op.inside s.top.inside, none) (k a m) := by
            have goes := rest a m
            cases op with
            | getShm => exact apart.elim
            | _ => exact goes
          exact List.forall_mem_cons.mpr ⟨fresh_of_follows goes false _, below⟩

theorem advances_fresh {s t : Shared} {x y : Track} (h : Advances s x y t) (fresh : x.phase.Fresh s.shm) :
    y.phase.Fresh s.shm := by
  cases h with
  | semP _ _ => trivial
  | getShm _ => rfl
  | finish _ _ => trivial
  | place parent own phase _ set =>
      rw [phase] at fresh
      subst fresh
      exact setCurrent_withPlayer set
  | semV _ => trivial

theorem kept_store {s : Shared} (h : Kept s) {pre post : List Track} {x : Track} {curInfo : Shm} {own : Bool}
    (split : s.tracks = pre ++ x :: post) (placed : x.phase = .placed curInfo own) (alone : Unmixed s .store)
    (balanced : Balanced { s with
      shm := curInfo
      wanted := s.wanted.withPlayer curInfo
      tracks := pre ++ { x with phase := .stored curInfo.childPid } :: post }) :
    Kept { s with
      shm := curInfo
      wanted := s.wanted.withPlayer curInfo
      tracks := pre ++ { x with phase := .stored curInfo.childPid } :: post } := by
  have locks : x.phase.locks = true := by
    rw [placed]
    rfl
  obtain ⟨outside, others⟩ := h.balanced.track_alone split locks
  have fresh := h.tracks x (by rw [split]; simp)
  rw [placed] at fresh
  refine ⟨balanced, h.nested, ?_, ?_, ?_⟩
  · change curInfo = s.wanted.withPlayer curInfo
    rw [← h.wanted]
    exact fresh.symm
  · intro a member
    obtain ⟨last, follows, -⟩ := h.parent a member
    refine ⟨last, follows, fun set => ?_⟩
    cases (alone a member set).symm.trans (outside a member)
  · intro y member
    rcases List.mem_append.mp member with before | after
    · exact fresh_unlocked (others y (List.mem_append_left _ before)) curInfo
    · rcases List.mem_cons.mp after with rfl | behind
      · trivial
      · exact fresh_unlocked (others y (List.mem_append_right _ behind)) curInfo

theorem kept_step {s t : Shared} {i : Act} (h : Kept s) (one : guarded Unmixed (Acts j) s i t) : Kept t := by
  obtain ⟨unmixed, moved⟩ := one
  have balanced : Balanced t := balanced_step j h.balanced ⟨unmixed_unbroken unmixed, moved⟩
  obtain ⟨top, below⟩ := List.forall_mem_cons.mp h.parent
  cases moved with
  | @begin o _ m alone idle =>
      refine ⟨balanced, ?_, h.wanted, ?_, h.tracks⟩
      · rw [Shared.activations]
        simp only [alone]
        trivial
      · exact List.forall_mem_cons.mpr ⟨fresh_of_follows (task_follows j o none m) false _, below⟩
  | switch m' alone idle =>
      refine ⟨balanced, ?_, h.wanted, ?_, h.tracks⟩
      · rw [Shared.activations]
        simp only [alone]
        trivial
      · exact List.forall_mem_cons.mpr ⟨fresh_of_follows (.done m') false _, below⟩
  | call code gives => exact kept_call h code gives unmixed _
  | sleep code busy =>
      refine ⟨balanced, nested_top h.nested id, h.wanted, ?_, h.tracks⟩
      exact List.forall_mem_cons.mpr ⟨top, below⟩
  | @enter i _ m other memory =>
      refine ⟨balanced, ⟨interrupt_reading j i m, h.nested⟩, h.wanted, ?_, h.tracks⟩
      exact List.forall_mem_cons.mpr ⟨fresh_of_follows (interrupt_follows j i _ m) false _, h.parent⟩
  | @leave _ m i a rest idle split =>
      have nested := h.nested
      have awake := h.balanced.awake (i, a) (by rw [split]; simp)
      rw [Shared.activations, split] at nested
      rw [split] at below
      obtain ⟨first, others⟩ := List.forall_mem_cons.mp below
      refine ⟨balanced, ?_, h.wanted, List.forall_mem_cons.mpr ⟨first.resume awake m, others⟩, h.tracks⟩
      refine nested_top (nested_tail nested) fun reading => ?_
      rw [Activation.resume, if_neg (by rw [awake]; decide)]
      exact reading.withMemory m
  | @crash _ e failed =>
      refine ⟨balanced, trivial, h.wanted, ?_, h.tracks⟩
      intro a member
      cases List.mem_singleton.mp member
      exact fresh_of_follows (.fail e) false _
  | fork x forked =>
      refine ⟨balanced, h.nested, h.wanted, h.parent, ?_⟩
      intro y member
      rcases List.mem_append.mp member with old | new
      · exact h.tracks y old
      · rw [List.mem_singleton.mp new, forked]
        trivial
  | @track _ t pre post x y split moved =>
      obtain ⟨-, -, same⟩ := advances_unit moved
      have tracks := h.tracks
      rw [split, List.forall_mem_append, List.forall_mem_cons] at tracks
      obtain ⟨before, one, after⟩ := tracks
      have goes : y.phase.Fresh s.shm := advances_fresh moved one
      rw [same] at balanced ⊢
      refine ⟨balanced, h.nested, h.wanted, h.parent, ?_⟩
      rw [List.forall_mem_append, List.forall_mem_cons]
      exact ⟨before, goes, after⟩
  | store _ split placed => exact kept_store h split placed unmixed balanced
  | exit _ split =>
      have tracks := h.tracks
      rw [split, List.forall_mem_append, List.forall_mem_cons] at tracks
      refine ⟨balanced, h.nested, h.wanted, h.parent, ?_⟩
      rw [List.forall_mem_append]
      exact ⟨tracks.1, tracks.2.2⟩

theorem kept_start (m : Memory) (shm : Shm) : Kept (Shared.start m shm) where
  balanced := balanced_start m shm
  nested := trivial
  wanted := rfl
  parent := by
    intro a member
    cases List.mem_singleton.mp member
    exact fresh_of_follows (.done m) false _
  tracks := by
    intro x member
    cases member

/-- Over every interleaving in which changes of mode and updates of track
processes stay apart, the record holds the latest change of each field. -/
theorem no_lost_update {m : Memory} {shm : Shm} {s : Shared}
    (run : Reachable (guarded Unmixed (Acts j)) (Shared.start m shm) s) : s.shm = s.wanted := by
  have kept : Kept s := run.invariant (kept_start m shm) fun _ _ _ h one => kept_step h one
  exact kept.wanted

/-- The track process of the first track. -/
def firstForked : Track := ⟨102, 0, .forked, oneTrack true, oneTrackName⟩

theorem firstForked_name : trackName (initShm 100) firstForked.memory.musicHead firstForked.musicName =
    .ok (some oneTrackName) := by decide +kernel

theorem firstForked_record : setCurrent { initShm 100 with childPid := 101, grandPid := firstForked.pid }
    oneTrackName = .ok oneTrackShm := by decide +kernel

/-- A change of mode that has read the record before the first track process
stores it takes the track and its pids out of the record again. -/
theorem mode_change_loses_track :
    ¬ ∀ (j : JsonC) (m : Memory) (shm : Shm) (s : Shared),
      Reachable (guarded (fun _ i => ∀ k, i ≠ .enter k) (Acts j)) (Shared.start m shm) s → s.Finished →
        s.shm = s.wanted := by
  intro always
  let j : JsonC := ⟨.little, fun _ => none, fun _ => []⟩
  have begun : Reachable (guarded (fun _ i => ∀ k, i ≠ .enter k) (Acts j))
      (Shared.start (oneTrack true) (initShm 100)) _ :=
    (Reachable.refl _).tail (i := Act.begin .circlePlay) ⟨nofun, .begin .circlePlay rfl rfl⟩
  have copied := begun.tail (i := Act.call) ⟨nofun, .call rfl .getShm⟩
  have forked := copied.tail (i := Act.fork) ⟨nofun, .fork firstForked rfl⟩
  have locked := forked.tail (i := Act.track) ⟨nofun, .track [] rfl (.semP rfl (by decide))⟩
  have read := locked.tail (i := Act.track) ⟨nofun, .track [] rfl (.getShm rfl)⟩
  have placed := read.tail (i := Act.track)
    ⟨nofun, .track [] rfl (.place 101 true rfl firstForked_name firstForked_record)⟩
  have stored := placed.tail (i := Act.store) ⟨nofun, .store [] rfl rfl⟩
  have given := stored.tail (i := Act.track) ⟨nofun, .track [] rfl (.semV rfl)⟩
  have set := given.tail (i := Act.call) ⟨nofun, .call rfl (.setShm _)⟩
  have finished := always _ _ _ _ set ⟨⟨rfl, _, rfl⟩, by
    intro x member
    cases List.mem_singleton.mp member
    rfl⟩
  exact absurd (congrArg Shm.childPid finished) (by decide)

theorem mode_change_keeps_track :
    ∃ s : Shared, s.Finished ∧ s.shm = s.wanted ∧ s.shm = { oneTrackShm with curMode := circle } := by
  let j : JsonC := ⟨.little, fun _ => none, fun _ => []⟩
  have idle : ∀ {m : Memory}, ¬ AtSet (.done m) := by
    rintro m ⟨_, _, _, same⟩
    cases same
  have reading : ∀ {m : Memory} {k}, ¬ AtSet (.call m .getShm k) := by
    rintro m k ⟨_, _, _, same⟩
    cases same
  have forked : Reachable (guarded Unmixed (Acts j)) (Shared.start (oneTrack true) (initShm 100)) _ :=
    (Reachable.refl _).tail (i := Act.fork) ⟨trivial, .fork firstForked rfl⟩
  have locked := forked.tail (i := Act.track) ⟨trivial, .track [] rfl (.semP rfl (by decide))⟩
  have read := locked.tail (i := Act.track) ⟨trivial, .track [] rfl (.getShm rfl)⟩
  have placed := read.tail (i := Act.track)
    ⟨trivial, .track [] rfl (.place 101 true rfl firstForked_name firstForked_record)⟩
  have stored := placed.tail (i := Act.store) ⟨fun a member set => by
    cases List.mem_singleton.mp member
    exact absurd set idle, .store [] rfl rfl⟩
  have given := stored.tail (i := Act.track) ⟨trivial, .track [] rfl (.semV rfl)⟩
  have begun := given.tail (i := Act.begin .circlePlay) ⟨trivial, .begin .circlePlay rfl rfl⟩
  have copied := begun.tail (i := Act.call) ⟨fun _ set => absurd set reading, .call rfl .getShm⟩
  have set := copied.tail (i := Act.call) ⟨fun _ _ x member => by
    cases List.mem_singleton.mp member
    exact id, .call rfl (.setShm _)⟩
  refine ⟨_, ⟨⟨rfl, _, rfl⟩, ?_⟩, no_lost_update set, rfl⟩
  intro x member
  cases List.mem_singleton.mp member
  rfl

end MusicPlayer.Speaker
