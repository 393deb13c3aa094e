import MusicPlayer.Speaker.Sharing

/-! The lock over a whole call: what `NextPlay`, `PrevPlay` and `UpdateMusic`
leave of the semaphore, whichever handlers and track processes come in between,
and when a handler breaks into a blocked `SemP`. -/
namespace MusicPlayer.Speaker
open CBytes Program Runs

variable (j : JsonC)

/-! ## Steps and the calls made in them -/

/-- A step, how many activations lie below the one it is a step of, and the call
that returns in it. -/
structure Event where
  act : Act
  depth : Nat
  call : Option Done

/-- A `SemP` that a handler has broken into returns when the handler is left. -/
def Activation.broken (a : Activation) (m : Memory) : Option Done :=
  match a.asleep, a.code with
  | true, .call _ .semP _ => some ⟨.semP, (), m⟩
  | _, _ => none

inductive Happens : Shared → Event → Shared → Prop
  | call {s t : Shared} {m : Memory} {op : Call} {k : op.Answer → Memory → Code} {a : op.Answer} :
      s.top.code = .call m op k → Gives s op a t →
      Happens s ⟨.call, s.below.length, some ⟨op, a, m⟩⟩ { t with
        top := ⟨k a m, false, op.inside s.top.inside⟩
        nullRead := s.nullRead || readsNull op (k a m) }
  | leave {s : Shared} {m : Memory} {i : Interrupt} {a : Activation} {rest : List (Interrupt × Activation)} :
      s.top.code = .done m → s.below = (i, a) :: rest →
      Happens s ⟨.leave, rest.length, a.broken m⟩ { s with top := a.resume m, below := rest }
  | other {s t : Shared} {i : Act} : Acts j s i t → i ≠ .call → i ≠ .leave →
      Happens s ⟨i, s.below.length, none⟩ t

/-- The steps are those of the system. -/
theorem acts_iff {s t : Shared} {i : Act} : Acts j s i t ↔ ∃ depth c, Happens j s ⟨i, depth, c⟩ t := by
  constructor
  · intro one
    cases one with
    | call code gives => exact ⟨_, _, .call code gives⟩
    | leave idle below => exact ⟨_, _, .leave idle below⟩
    | begin o below idle => exact ⟨_, _, .other (.begin o below idle) nofun nofun⟩
    | switch m' below idle => exact ⟨_, _, .other (.switch m' below idle) nofun nofun⟩
    | sleep code busy => exact ⟨_, _, .other (.sleep code busy) nofun nofun⟩
    | enter i new memory => exact ⟨_, _, .other (.enter i new memory) nofun nofun⟩
    | crash failed => exact ⟨_, _, .other (.crash failed) nofun nofun⟩
    | fork x forked => exact ⟨_, _, .other (.fork x forked) nofun nofun⟩
    | track pre split moved => exact ⟨_, _, .other (.track pre split moved) nofun nofun⟩
    | store pre split placed => exact ⟨_, _, .other (.store pre split placed) nofun nofun⟩
    | exit pre split => exact ⟨_, _, .other (.exit pre split) nofun nofun⟩
  · rintro ⟨depth, c, one⟩
    cases one with
    | call code gives => exact .call code gives
    | leave idle below => exact .leave idle below
    | other one _ _ => exact one

def allCalls (es : List Event) : List Done := es.flatMap fun e => e.call.toList

/-- The calls of the activation with `d` others below it, and those of the handlers on top of it. -/
def ownCalls (d : Nat) (es : List Event) : List Done := es.flatMap fun e => if e.depth = d then e.call.toList else []
def nestedCalls (d : Nat) (es : List Event) : List Done := es.flatMap fun e => if d < e.depth then e.call.toList else []

def Event.breaks (e : Event) : Bool :=
  match e.act with
  | .leave => e.call.isSome
  | _ => false

/-- How many `SemP` of the parent have returned without the lock. -/
def broken (es : List Event) : Nat := es.countP Event.breaks

/-- The activation with `d` others below it goes on: it is not left, nothing else
is begun in its place, and the parent does not crash. -/
def Lasts (d : Nat) (e : Event) : Prop :=
  d ≤ e.depth ∧
    match e.act with
    | .begin _ => False
    | .switch => False
    | .crash => False
    | _ => True

/-- A call of `f` from its start in `s`, with `k` to come after it, to its return in `t`. -/
structure Locking.Completes (f : Locking) (s : Shared) (es : List Event) (t : Shared) : Prop where
  run : Trace (guarded (fun _ => Lasts s.below.length) (Happens j)) s es t
  level : t.below.length = s.below.length
  made : ∃ m k m', s.top.code = (f.run j m).andThen k ∧ t.top.code = k m' ∧
    Performs (f.run j m) (ownCalls s.below.length es) m'

/-- The semaphore, with what the track processes have taken and will give back. -/
def Shared.free (s : Shared) : Int := s.sem + s.tracks.countP fun x => x.phase.locks

/-! ## What one step does to the semaphore -/

/-- What a call gives back to the semaphore. -/
def Call.units : Call → Int
  | .semP => -1
  | .semV => 1
  | _ => 0

def net (calls : List Done) : Int := given calls - taken calls

@[simp] theorem net_nil : net [] = 0 := rfl

@[simp] theorem net_cons (c : Done) (calls : List Done) : net (c :: calls) = c.op.units + net calls := by
  obtain ⟨op, a, m⟩ := c
  simp only [net, given_cons, taken_cons]
  cases op <;> simp only [Call.isP, Call.isV, Call.units, if_true, Bool.false_eq_true, if_false] <;> omega

theorem net_append (first second : List Done) : net (first ++ second) = net first + net second := by
  induction first with
  | nil => simp
  | cons c first ih => rw [List.cons_append, net_cons, net_cons, ih, add_assoc]

theorem free_units {op : Call} (free : op.Plain) : op.units = 0 := by
  cases op with
  | semP => cases free.1
  | semV => cases free.2
  | _ => rfl

theorem gives_free {s t : Shared} {op : Call} {a : op.Answer} (gives : Gives s op a t) :
    t.free = s.free + op.units := by
  cases gives with
  | semP => simp only [Shared.free, Call.units]; omega
  | semV => simp only [Shared.free, Call.units]; omega
  | getShm => exact (add_zero _).symm
  | setShm => exact (add_zero _).symm
  | apart a apart =>
      cases op with
      | semP => exact apart.elim
      | semV => exact apart.elim
      | _ => exact (add_zero _).symm

theorem broken_units (a : Activation) (m : Memory) :
    net (a.broken m).toList + (if (a.broken m).isSome then 1 else 0) = 0 := by
  unfold Activation.broken
  split <;> rfl

theorem tracks_free {s t : Shared} {pre post : List Track} {x y : Track} (before : s.tracks = pre ++ x :: post)
    (after : t.tracks = pre ++ y :: post)
    (unit : t.sem + (if y.phase.locks then 1 else 0) = s.sem + if x.phase.locks then 1 else 0) :
    t.free = s.free := by
  rw [Shared.free, Shared.free, before, after, countP_middle, countP_middle]
  omega

theorem free_step {s t : Shared} {e : Event} (one : Happens j s e t) (fine : e.act ≠ .crash) :
    t.free = s.free + net e.call.toList + if e.breaks then 1 else 0 := by
  cases one with
  | call code gives =>
      refine (gives_free gives).trans ?_
      simp [Event.breaks]
  | @leave m i a rest idle below =>
      have none_ := broken_units a m
      change s.free = s.free + net (a.broken m).toList + if (a.broken m).isSome then 1 else 0
      omega
  | other one call leave =>
      suffices same : t.free = s.free by
        rw [same]
        cases one <;> simp [Event.breaks]
      cases one with
      | call => exact absurd rfl call
      | leave => exact absurd rfl leave
      | crash => exact absurd rfl fine
      | begin => rfl
      | switch => rfl
      | sleep => rfl
      | enter => rfl
      | fork x forked => simp [Shared.free, forked, TrackPhase.locks]
      | @track _ u pre post x y split moved =>
          obtain ⟨unit, same⟩ := advances_unit moved
          refine tracks_free split rfl unit
      | @store _ pre post x curInfo own split placed =>
          refine tracks_free split rfl ?_
          rw [placed]
          rfl
      | @exit _ pre post x split =>
          rw [Shared.free, Shared.free, split, countP_middle]
          simp only
          omega

/-! ## Handlers on top of the call -/

/-- What one step makes of the code of the activation it is a step of. -/
inductive Progress : Code → Option Done → Code → Prop
  | call {s : Memory} {op : Call} {k : op.Answer → Memory → Code} (a : op.Answer) (m : Memory) :
      Progress (.call s op k) (some ⟨op, a, m⟩) (k a m)
  | memory (code : Code) (m : Memory) : Progress code none (code.withMemory m)
  | same (code : Code) : Progress code none code

theorem resume_progress (a : Activation) (m : Memory) : Progress a.code (a.broken m) (a.resume m).code := by
  obtain ⟨code, asleep, inside⟩ := a
  unfold Activation.broken Activation.resume
  cases asleep with
  | false => exact .memory code m
  | true =>
      cases code with
      | done s => exact .memory _ m
      | fail e => exact .memory _ m
      | call s op k =>
          cases op with
          | semP => exact @Progress.call s .semP k () m
          | _ => exact .memory _ m

/-- A step goes on with the running activation, starts a handler on top of it, or
ends one and goes on with what it interrupted. -/
theorem happens_cases {d : Nat} {s t : Shared} {e : Event} (one : Happens j s e t) (lasts : Lasts d e) :
    t.below = s.below ∧ e.depth = s.below.length ∧ Progress s.top.code e.call t.top.code ∨
      (∃ i m, t.below = (i, s.top) :: s.below ∧ t.top.code = i.run j m ∧ e.call = none) ∨
      ∃ i a m, s.below = (i, a) :: t.below ∧ s.top.code = .done m ∧ e.depth = t.below.length ∧
        Progress a.code e.call t.top.code := by
  cases one with
  | @call _ m op k a code gives =>
      refine .inl ⟨?_, rfl, code ▸ .call a m⟩
      cases gives <;> rfl
  | @leave m i a rest idle below => exact .inr (.inr ⟨i, a, m, below, idle, rfl, resume_progress a m⟩)
  | other one call leave =>
      cases one with
      | call => exact absurd rfl call
      | leave => exact absurd rfl leave
      | crash => exact lasts.2.elim
      | begin => exact lasts.2.elim
      | switch => exact lasts.2.elim
      | sleep code busy => exact .inl ⟨rfl, rfl, .same _⟩
      | @enter i _ m new memory => exact .inr (.inl ⟨i, m, rfl, rfl, rfl⟩)
      | fork => exact .inl ⟨rfl, rfl, .same _⟩
      | track pre split moved =>
          obtain ⟨-, -, same⟩ := advances_unit moved
          rw [same]
          exact .inl ⟨rfl, rfl, .same _⟩
      | store => exact .inl ⟨rfl, rfl, .same _⟩
      | exit => exact .inl ⟨rfl, rfl, .same _⟩

/-- The program has `n` units to give back that it has taken before. -/
inductive Owes : Int → Code → Prop
  | done (s : Memory) : Owes 0 (.done s)
  | fail {n : Int} (e : Fault) : Owes n (.fail e)
  | call {n : Int} {s : Memory} {op : Call} {k : op.Answer → Memory → Code} :
      (∀ a m, Owes (n - op.units) (k a m)) → Owes n (.call s op k)

theorem owes_plain {p : Code} (plain : p.Every Call.Plain) : Owes 0 p := by
  induction plain with
  | done s => exact .done s
  | fail e => exact .fail e
  | call free _ ih =>
      refine .call fun a m => ?_
      rw [free_units free]
      exact ih a m

theorem interrupt_owes (i : Interrupt) (m : Memory) : Owes 0 (i.run j m) := by
  cases i with
  | usr1 =>
      refine .call fun _ m => .call fun curInfo m => .call fun _ m => ?_
      exact owes_plain (.call ⟨rfl, rfl⟩ fun _ m => (replay_free j _ m).mono free_plain)
  | alarm => exact owes_plain ((handle_free m).mono free_plain)

theorem Owes.progress {n : Int} {p q : Code} {c : Option Done} (h : Owes n p) (moved : Progress p c q) :
    Owes (n - net c.toList) q := by
  cases moved with
  | @call s op k a m =>
      cases h with
      | call rest =>
          have next := rest a m
          simpa using next
  | memory _ m =>
      rw [Option.toList_none, net_nil, sub_zero]
      cases h with
      | done s => exact .done m
      | fail e => exact .fail e
      | call rest => exact .call rest
  | same => simpa using h

/-- The handlers on top of the call owe `n` units together. -/
inductive Nest (d : Nat) : Int → List Activation → Prop
  | base {stack : List Activation} : stack.length = d + 1 → Nest d 0 stack
  | cons {n total : Int} {a : Activation} {stack : List Activation} : Owes n a.code → Nest d total stack →
      Nest d (n + total) (a :: stack)

theorem Nest.length {d : Nat} {n : Int} {stack : List Activation} (h : Nest d n stack) : d + 1 ≤ stack.length := by
  induction h with
  | base length => exact length.ge
  | cons _ _ ih => exact Nat.le_succ_of_le ih

/-- What the calls of the handlers come to, one step further. -/
theorem nest_step {d : Nat} {n : Int} {s t : Shared} {e : Event} (one : Happens j s e t) (lasts : Lasts d e)
    (nest : Nest d n s.activations) : Nest d (n - net (nestedCalls d [e])) t.activations := by
  have calls : nestedCalls d [e] = if d < e.depth then e.call.toList else [] := List.append_nil _
  rw [calls]
  have goes (a b : Activation) (rest : List (Interrupt × Activation)) {n : Int} (depth : e.depth = rest.length)
      (moved : Progress a.code e.call b.code) (nest : Nest d n (a :: rest.map Prod.snd)) :
      Nest d (n - net (if d < e.depth then e.call.toList else [])) (b :: rest.map Prod.snd) := by
    cases nest with
    | base length =>
        rw [List.length_cons, List.length_map] at length
        rw [if_neg (by omega), net_nil, sub_zero]
        exact .base (by rw [List.length_cons, List.length_map, length])
    | @cons n total _ _ owes below =>
        have deep := below.length
        rw [List.length_map] at deep
        rw [if_pos (by omega), show n + total - net e.call.toList = (n - net e.call.toList) + total by omega]
        exact .cons (owes.progress moved) below
  rcases happens_cases j one lasts with ⟨below, depth, moved⟩ | ⟨i, m, below, top, none_⟩ |
      ⟨i, a, m, below, idle, depth, moved⟩
  · rw [Shared.activations, below]
    exact goes s.top t.top s.below depth moved nest
  · have owes := interrupt_owes j i m
    rw [← top] at owes
    rw [none_, Option.toList_none, ite_self, net_nil, sub_zero, Shared.activations, below, ← zero_add n]
    exact .cons owes nest
  · rw [Shared.activations, below] at nest
    rw [Shared.activations]
    cases nest with
    | base length =>
        have deep := lasts.1
        simp only [List.map_cons, List.length_cons, List.length_map] at length
        omega
    | @cons n total _ _ owes rest =>
        rw [idle] at owes
        cases owes with
        | done =>
            have next := goes a t.top t.below depth moved rest
            rwa [zero_add]

/-! ## Whole calls -/

theorem calls_append (g : Event → List Done) (past : List Event) (e : Event) :
    (past ++ [e]).flatMap g = past.flatMap g ++ g e := by
  rw [List.flatMap_append, List.flatMap_singleton]

/-- What is done on the way: each unit comes from a call of the parent, and the
calls above level `d` are the handlers' own. -/
structure Accounts (d : Nat) (s : Shared) (es : List Event) (t : Shared) : Prop where
  free : t.free = s.free + net (allCalls es) + broken es
  nest : Nest d (-net (nestedCalls d es)) t.activations
  split : net (allCalls es) = net (ownCalls d es) + net (nestedCalls d es)

theorem accounts_run {s t : Shared} {es : List Event}
    (run : Trace (guarded (fun _ => Lasts s.below.length) (Happens j)) s es t) :
    Accounts s.below.length s es t := by
  refine run.history_nil (I := Accounts s.below.length s) ?_ ⟨?_, ?_, rfl⟩
  · rintro past u e v ⟨free, nest, split⟩ ⟨lasts, one⟩
    have fine : e.act ≠ .crash := by
      intro crash
      have goes := lasts.2
      rw [crash] at goes
      exact goes
    have moved := free_step j one fine
    have kept := nest_step j one lasts nest
    refine ⟨?_, ?_, ?_⟩
    · rw [allCalls, calls_append, net_append, broken, List.countP_append, List.countP_singleton, moved, free,
        ← allCalls, ← broken]
      split <;> push_cast <;> omega
    · rw [nestedCalls, calls_append, net_append, ← nestedCalls]
      have single : nestedCalls s.below.length [e] = if s.below.length < e.depth then e.call.toList else [] :=
        List.append_nil _
      rw [single] at kept
      convert kept using 1
      omega
    · rw [allCalls, ownCalls, nestedCalls, calls_append, calls_append, calls_append, net_append, net_append,
        net_append, ← allCalls, ← ownCalls, ← nestedCalls, split]
      rcases Nat.eq_or_lt_of_le lasts.1 with same | above
      · rw [if_pos same.symm, if_neg (by omega), net_nil]
        omega
      · rw [if_neg (by omega), if_pos above, net_nil]
        omega
  · simp [allCalls, broken]
  · exact .base (by simp [Shared.activations])

/-- A call that returns has given the lock back as often as it asked for it and
left the semaphore as it was, exactly when it was not `NextPlay` reloading and no
handler broke into a `SemP` in it. -/
theorem balanced_iff {f : Locking} {s t : Shared} {es : List Event} (call : f.Completes j s es t) :
    given (allCalls es) = taken (allCalls es) ∧ t.free = s.free ↔
      ¬ Reloads f (ownCalls s.below.length es) ∧ broken es = 0 := by
  obtain ⟨free, nest, split⟩ := accounts_run j call.run
  obtain ⟨m, k, m', -, -, made⟩ := call.made
  have own := call_balanced_iff j made
  have quiet : net (nestedCalls s.below.length es) = 0 := by
    generalize same : -net (nestedCalls s.below.length es) = n at nest
    cases nest with
    | base => omega
    | cons _ below =>
        have deep := below.length
        rw [List.length_map, call.level] at deep
        omega
  rw [← own]
  simp only [net] at free split quiet
  omega

/-- Code that stays away from the lock and the record runs to its end by itself. -/
theorem apart_run {p : Code} {m : Memory} (ends : Ends p m) (apart : p.Every Call.Apart) (s : Shared)
    (top : s.top.code = p) : ∃ es t, Trace (guarded (fun _ => Lasts s.below.length) (Happens j)) s es t ∧
      t.below = s.below ∧ t.top.code = .done m ∧ ownCalls s.below.length es = allCalls es ∧
      Performs p (allCalls es) m := by
  induction ends generalizing s with
  | done m => exact ⟨[], s, .nil s, rfl, top, rfl, .done m⟩
  | @call m t op k a _ ih =>
      cases apart with
      | call free rest =>
          obtain ⟨es, u, run, below, code, own, made⟩ := ih (rest a m)
            { s with top := ⟨k a m, false, op.inside s.top.inside⟩, nullRead := s.nullRead || readsNull op (k a m) } rfl
          refine ⟨⟨.call, s.below.length, some ⟨op, a, m⟩⟩ :: es, u,
            .cons ⟨⟨le_refl _, trivial⟩, .call top (.apart a free)⟩ run, below, code, ?_, .call a m made⟩
          rw [ownCalls, List.flatMap_cons, if_pos rfl]
          exact congrArg (_ ++ ·) own

theorem replay_apart (singer : Bytes) (s : Memory) :
    ((getMusicName j singer s).andThen startPlay).Every Call.Apart :=
  (getMusicName_every j (fun _ => trivial) trivial (fun _ => trivial) singer s).andThen
    (startPlay_every trivial (fun _ => trivial) fun _ => trivial)

/-- The list is loaded again from the stick, and played. -/
theorem oneTrack_replayed :
    Ends ((getMusicName j (cstr playingIt.curSigner) (clearMusicList (oneTrack false))).andThen startPlay)
      (oneTrack true) := by
  have path : strcat (store (zeros 256) 0 offlineUrl) (lit "a") =
      .ok (store (zeros 256) 0 (lit "/mnt/usb/music/a")) := by decide +kernel
  have names : offlineNames (lit "a") [⟨lit "b.mp3", true⟩] = .ok [lit "a/b.mp3"] := by decide +kernel
  have inserted : insertAll [lit "a/b.mp3"] [] = .ok [lit "a/b.mp3"] := by decide
  have chosen : [Dirent.mk (lit "a") false].find?
      (fun f => f.name ≠ lit "." && f.name ≠ lit ".." && f.name = lit "a") =
        some ⟨lit "a", false⟩ := by decide
  have singer : cstr playingIt.curSigner = lit "a" := by decide +kernel
  have started : strcpy (zeros 128) (lit "a/b.mp3") = .ok (store (zeros 128) 0 (lit "a/b.mp3")) := by
    decide +kernel
  refine ends_andThen.mpr ⟨oneTrack false, ?_, ?_⟩
  · rw [singer]
    refine .call (some [⟨lit "a", false⟩] : Option (List Dirent)) ?_
    simp only [chosen]
    refine ends_check.mpr ⟨_, path, ?_⟩
    refine .call (some [⟨lit "b.mp3", true⟩] : Option (List Dirent)) ?_
    exact ends_check.mpr ⟨_, names, ends_check.mpr ⟨_, inserted, .done _⟩⟩
  · exact .call () (ends_check.mpr ⟨_, started, .call () (.done _)⟩)

/-- What `NextPlay` does before it loads the list again. -/
def lastTrackStopped : List Done :=
  [⟨.semP, (), oneTrack true⟩, ⟨.getShm, playingIt, oneTrack true⟩, ⟨.getShm, playingIt, oneTrack true⟩,
    ⟨.kill 2, (), oneTrack true⟩, ⟨.writeFifo (lit "quit\n"), (), oneTrack false⟩, ⟨.waitpid 2, (), oneTrack false⟩]

/-- Calls of the main loop's code, one right after the other. -/
def mainCalls (calls : List Done) : List Event := calls.map fun c => ⟨.call, 0, some c⟩

/-- The next track is asked for at the end of the playlist: one `SemP`, no `SemV`. -/
theorem reload_keeps_lock :
    ¬ ∀ (j : JsonC) (m : Memory) (shm : Shm) (f : Locking) (s t : Shared) (es : List Event),
      Reachable (Acts j) (Shared.start m shm) s → f.Completes j s es t →
      given (allCalls es) = taken (allCalls es) ∧ t.free = s.free := by
  intro always
  let j : JsonC := ⟨.little, fun _ => none, fun _ => []⟩
  let s : Shared := { Shared.start (oneTrack true) playingIt with top := .begin (nextPlay j (oneTrack true)) }
  let again := (getMusicName j (cstr playingIt.curSigner) (clearMusicList (oneTrack false))).andThen startPlay
  have asked : Reachable (Acts j) (Shared.start (oneTrack true) playingIt) s :=
    (Reachable.refl _).tail (i := Act.begin .nextPlay) (.begin .nextPlay rfl rfl)
  have found : nextTrack playingIt (oneTrack true) = .ok none := by decide +kernel
  obtain ⟨u, stopped, level, top⟩ : ∃ u, Trace (guarded (fun _ => Lasts 0) (Happens j)) s
      (mainCalls lastTrackStopped) u ∧ u.below = [] ∧ u.top.code = again := by
    refine ⟨_, .cons ⟨⟨le_refl 0, trivial⟩, .call rfl (.semP (by decide))⟩
      (.cons ⟨⟨le_refl 0, trivial⟩, .call rfl .getShm⟩
        (.cons ⟨⟨le_refl 0, trivial⟩, .call rfl .getShm⟩
          (.cons ⟨⟨le_refl 0, trivial⟩, .call rfl (@Gives.apart _ (.kill 2) () trivial)⟩
            (.cons ⟨⟨le_refl 0, trivial⟩, .call rfl (@Gives.apart _ (.writeFifo _) () trivial)⟩
              (.cons ⟨⟨le_refl 0, trivial⟩, .call rfl (@Gives.apart _ (.waitpid 2) () trivial)⟩ (.nil _)))))),
      ?_, ?_⟩
    · rfl
    · rfl
  obtain ⟨es, t, replayed, below, code, own, made⟩ :=
    apart_run j (oneTrack_replayed j) (replay_apart j _ _) u top
  rw [level] at replayed own
  have whole := stopped.append replayed
  have calls : allCalls (mainCalls lastTrackStopped ++ es) = lastTrackStopped ++ allCalls es := rfl
  have performed : Performs (nextPlay j (oneTrack true)) (lastTrackStopped ++ allCalls es) (oneTrack true) := by
    unfold nextPlay
    rw [if_pos (show (oneTrack true).startFlag = true from rfl)]
    refine .call _ _ (.call _ _ ?_)
    rw [found]
    exact .call _ _ (.call _ _ (.call _ _ (.call _ _ made)))
  have same : ownCalls 0 (mainCalls lastTrackStopped ++ es) = lastTrackStopped ++ allCalls es := by
    rw [← own]
    rfl
  have completes : Locking.nextPlay.Completes j s (mainCalls lastTrackStopped ++ es) t := by
    refine ⟨whole, congrArg List.length (below.trans level), oneTrack true, .done, oneTrack true, ?_, code, ?_⟩
    · exact (andThen_done _).symm
    · exact same ▸ performed
  obtain ⟨balanced, -⟩ := always j _ _ .nextPlay s t _ asked completes
  obtain ⟨none_, zero⟩ := plain_run ((replay_free j _ _).mono free_plain) made
  rw [calls] at balanced
  simp only [lastTrackStopped, List.cons_append, List.nil_append, given_cons, taken_cons, none_, zero, Call.isP,
    Call.isV] at balanced
  exact absurd balanced (by decide)

/-- `UpdateMusic` has to wait for a track process that holds the lock, and returns
with the semaphore free. -/
theorem waiting_balanced : ∃ (j : JsonC) (s t : Shared) (es : List Event), s.sem = 0 ∧ t.sem = 1 ∧
    Locking.updateMusic.Completes j s es t ∧ given (allCalls es) = taken (allCalls es) ∧ t.free = s.free := by
  let j : JsonC := ⟨.little, fun _ => none, fun _ => []⟩
  let holder : Track := ⟨4, 0, .locked, pausedAtEnd, zeros 128⟩
  let s : Shared := { Shared.start pausedAtEnd playingIt with
    top := .begin (updateMusic j pausedAtEnd)
    below := [(.usr1, .begin (.done pausedAtEnd))]
    sem := 0
    tracks := [holder] }
  have waits : Trace (guarded (fun _ => Lasts 1) (Happens j)) s _ _ :=
    .cons ⟨⟨le_refl 1, trivial⟩, .other (.sleep rfl (le_refl (0 : Int))) nofun nofun⟩
      (.cons ⟨⟨le_refl 1, trivial⟩, .other (.exit [] rfl) nofun nofun⟩ (.nil _))
  have locks := waits.append
    (.cons ⟨⟨le_refl 1, trivial⟩, .call rfl (.semP (by decide))⟩
      (.cons ⟨⟨le_refl 1, trivial⟩, .call rfl .getShm⟩
        (.cons ⟨⟨le_refl 1, trivial⟩, .call rfl .semV⟩ (.nil _))))
  have waited := locks.append (.cons ⟨⟨le_refl 1, trivial⟩, .call rfl (.apart () trivial)⟩ (.nil _))
  have requested := waited.append (.cons ⟨⟨le_refl 1, trivial⟩, .call rfl (.apart () trivial)⟩ (.nil _))
  have replied := requested.append (.cons ⟨⟨le_refl 1, trivial⟩, .call rfl (.apart ([] : Bytes) trivial)⟩ (.nil _))
  have uploaded := replied.append (.cons ⟨⟨le_refl 1, trivial⟩, .call rfl (.apart () trivial)⟩ (.nil _))
  have resumed := uploaded.append (.cons ⟨⟨le_refl 1, trivial⟩, .call rfl (.apart () trivial)⟩ (.nil _))
  obtain ⟨t, es, completes, sem, unbroken⟩ :
      ∃ t es, Locking.updateMusic.Completes j s es t ∧ t.sem = 1 ∧ broken es = 0 := by
    refine ⟨_, _, ⟨resumed, rfl, pausedAtEnd, .done, _, (andThen_done _).symm, rfl, ?_⟩, rfl, rfl⟩
    iterate 8 refine Performs.call _ _ ?_
    exact .done _
  have balanced := (balanced_iff j completes).mpr ⟨(nomatch ·.1), unbroken⟩
  exact ⟨j, s, t, es, rfl, sem, completes, balanced⟩

end MusicPlayer.Speaker
