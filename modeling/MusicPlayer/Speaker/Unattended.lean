import MusicPlayer.Speaker.Endings

/-! The speaker left alone. At the end of a list `UpdateMusic` asks for the next
one and plays it by a child that is forked inside the handler of `SIGUSR1`. -/
namespace MusicPlayer.Speaker.Unattended
open CBytes Program Runs

variable (j : JsonC)

/-! ## One step -/

inductive Event
  | song (file : Bytes)
  | update
  | begins (p : Album)

/-- One step without a command: of a child or a track process, or of the handler
of `SIGUSR1`, which no signal interrupts. A play that it begins has an album for
its list, and no fork fails. -/
inductive Alone (s : Sys) : Option Event → Sys → Prop
  | plays {file : Option Bytes} {t : Sys} : Smooth s file t → Alone s (file.map .song) t
  | enter {m : Memory} : s.handler = none → s.pending = true → s.main.memory = some m →
      Alone s (some .update) { s with handler := some (updateMusic j m), pending := false }
  | call {t : Sys} {m : Memory} {op : Call} {k : op.Answer → Memory → Code} {a : op.Answer} :
      s.handler = some (.call m op k) → (∀ musicName, op ≠ .fork musicName) → Effect s m op a t →
      Alone s none { t with handler := some (k a m) }
  | begins {t : Sys} {m : Memory} {musicName : Bytes} {k : Unit → Memory → Code} (q : Album) :
      s.handler = some (.call m (.fork musicName) k) → m.musicHead = q.names →
      Effect s m (.fork musicName) () t → t.latest ≠ none →
      Alone s (some (.begins q)) { t with handler := some (k () m) }
  | back {m : Memory} : s.handler = some (.done m) →
      Alone s none { s with handler := none, main := s.main.withMemory m }

variable {j}

theorem Alone.steps {s t : Sys} {e : Option Event} (h : Alone j s e t) : ∃ i, Steps j s i t := by
  cases h with
  | plays one => exact one.plays.steps j
  | enter idle pending at_ => exact ⟨_, .enter idle pending at_⟩
  | call busy _ effect => exact ⟨_, .handlerCall busy effect⟩
  | begins q busy _ effect _ => exact ⟨_, .handlerCall busy effect⟩
  | back busy => exact ⟨_, .leave busy⟩

variable {p : Album} {c k : Nat} {s t : Sys}

/-! ## The handler -/

variable (j)

/-- `UpdateMusic` once it has taken the semaphore, and after each of its calls. -/
def updateReap (curInfo : Shm) (m : Memory) : Code :=
  .call m (.waitpid curInfo.childPid) fun _ m =>
    (getMusicName j (cstr curInfo.curSigner) (clearMusicList m)).andThen startPlay

def updateFree (curInfo : Shm) (m : Memory) : Code := .call m .semV fun _ m => updateReap j curInfo m

def updateRead (m : Memory) : Code := .call m .getShm fun curInfo m => updateFree j curInfo m

/-- The handler has not waited for the child yet. -/
inductive Asking (pid : Int) : Code → Prop
  | lock (m : Memory) : Asking pid (updateMusic j m)
  | read (m : Memory) : Asking pid (updateRead j m)
  | free {curInfo : Shm} (m : Memory) : curInfo.childPid = pid → Asking pid (updateFree j curInfo m)
  | reap {curInfo : Shm} (m : Memory) : curInfo.childPid = pid → Asking pid (updateReap j curInfo m)

variable {j}

/-- What the handler does behind that: calls of no other process's concern, and a
fork with the first name of the list at the end. -/
inductive Restarts : Code → Prop
  | done (m : Memory) : Restarts (.done m)
  | fail (e : Fault) : Restarts (.fail e)
  | aside {m : Memory} {op : Call} {k : op.Answer → Memory → Code} : op.Aside → (∀ a, Restarts (k a m)) →
      Restarts (.call m op k)
  | fork {m : Memory} {name : Bytes} {rest : List Bytes} {k : Unit → Memory → Code} : m.startFlag = true →
      m.musicHead = name :: rest → name.length < 128 → k () m = .done m →
      Restarts (.call m (.fork (store (zeros 128) 0 (name ++ [0]))) k)

theorem Restarts.andThen {code : Code} {f : Memory → Code} (first : code.Every Call.Aside)
    (second : ∀ m, Restarts (f m)) : Restarts (code.andThen f) := by
  induction first with
  | done m => exact second m
  | fail e => exact .fail e
  | call aside _ ih => exact .aside aside fun a => ih a _

theorem getMusicName_aside (singer : Bytes) (m : Memory) : (getMusicName j singer m).Every Call.Aside :=
  getMusicName_every j (fun _ => trivial) trivial (fun _ => trivial) singer m

theorem startPlay_restarts (m : Memory) : Restarts (startPlay m) := by
  unfold startPlay
  split
  · rw [← andThen_done (continuePlay m)]
    exact .andThen (continuePlay_every (fun _ => trivial) m) .done
  · split
    · exact .done m
    · refine .aside trivial fun _ => ?_
      split
      · exact .fail _
      next name rest head =>
        unfold strcpy
        split
        next fits =>
          rw [length_zeros] at fits
          exact .fork rfl head fits rfl
        · exact .fail _

/-- No child and no track process is running. -/
structure Still (s : Sys) : Prop where
  world : World s
  children : ∀ d, (s.child d).phase = .absent ∨ (s.child d).phase.Gone
  tracks : ∀ n, ¬ (s.track n).phase.Live
  sized : s.shm.Sized
  parent : s.pid ≠ 0
  record : s.shm.parentPid = s.pid

theorem Still.rests {file : Option Bytes} (h : Still s) : ¬ Smooth s file t := by
  intro one
  cases one with
  | child one _ _ => exact child_running one (h.children _)
  | track one _ => exact h.tracks _ (track_running one)
  | leaves phase => exact h.tracks _ (track_running (.leave phase))

/-- The wait of `UpdateMusic` comes back only with the child of the play. -/
theorem Play.reaped {m : Memory} {a : Unit} (h : Play p c k s) (effect : Effect s m (.waitpid (s.child c).pid) a t) :
    (s.child c).phase = .exited ∧ t = s.setChild c { s.child c with phase := .reaped } := by
  cases effect with
  | aside _ aside => exact aside.elim
  | noChild nobody => exact absurd rfl (nobody c h.there).2
  | @reap _ d exited hit =>
      have there : (s.child d).phase.Present := by rw [exited]; trivial
      have hit := hit.resolve_left h.pid_ne_zero
      have same := h.world.distinct d c there h.there hit.symm
      rw [same] at exited ⊢
      exact ⟨exited, rfl⟩

theorem Play.still (h : Play p c k s) (exited : (s.child c).phase = .exited) :
    Still (s.setChild c { s.child c with phase := .reaped }) := by
  have none_ : ∀ n, ¬ (s.track n).phase.Live := by
    intro n live
    cases exited.symm.trans (h.waits n live)
  refine ⟨h.world.advance (setChild_advances (reap_advances _)) rfl h.world.tracks h.world.written, fun d => ?_, none_,
    h.on.sized, h.parent, h.record⟩
  by_cases same : d = c
  · rw [same, setChild_self]
    exact .inr trivial
  · rw [setChild_other s same]
    exact h.on.others d same

/-! ## The course of it all -/

theorem Play.same (h : Play p c k s) (world : World t) (child : t.child = s.child) (track : t.track = s.track)
    (shm : t.shm = s.shm) (pid : t.pid = s.pid) : Play p c k t := by
  obtain ⟨on, -, there, parent, apart, record, current, waits, knows⟩ := h
  cases s
  cases t
  cases child
  cases track
  cases shm
  cases pid
  exact ⟨⟨on.others, on.list, on.steady, on.unsignalled, on.waits, on.single, on.sized, on.recorded, on.room,
    on.cleared, on.next, on.tracks⟩, world, there, parent, apart, record, current, waits, knows⟩

theorem Over.same (h : Over c s) (child : t.child = s.child) (track : t.track = s.track) : Over c t := by
  cases h with
  | tells open_ calm leaving => exact .tells (child ▸ open_) (child ▸ calm) (track ▸ leaving)
  | quits none_ ends => exact .quits (track ▸ none_) (child ▸ ends)

theorem Deaf.same (h : Deaf c s) (child : t.child = s.child) : Deaf c t :=
  ⟨child ▸ h.blocked, child ▸ h.starts, child ▸ h.runs⟩

/-- Another program for the parent. -/
theorem world_handler (w : World s) (handler : Option Code) (main : Code) (pending : Bool) :
    World { s with handler := handler, main := main, pending := pending } :=
  w.advance (fun _ => .refl _) rfl w.tracks w.written

/-- One call more of the handler: it comes to its next call, or the child has been waited for. -/
theorem Asking.next {pid : Int} {code : Code} {m : Memory} {op : Call} {f : op.Answer → Memory → Code} {a : op.Answer}
    (h : Asking j pid code) (here : code = .call m op f) (effect : Effect s m op a t) (current : s.shm.childPid = pid) :
    (Asking j pid (f a m) ∧ ∃ v, t = { s with sem := v }) ∨
      (Effect s m (.waitpid pid) () t ∧ Restarts (f a m)) := by
  cases h with
  | lock m =>
      cases here
      cases effect with
      | semP _ => exact .inl ⟨.read _, _, rfl⟩
      | aside _ aside => exact aside.elim
  | read m =>
      cases here
      cases effect with
      | getShm => exact .inl ⟨.free _ current, _, rfl⟩
      | aside _ aside => exact aside.elim
  | free m same =>
      cases here
      cases effect with
      | semV => exact .inl ⟨.reap _ same, _, rfl⟩
      | aside _ aside => exact aside.elim
  | reap m same =>
      cases here
      subst same
      exact .inr ⟨effect, .andThen (getMusicName_aside _ _) startPlay_restarts⟩

variable (j)

/-- What has happened once the second play has begun. -/
def upTo (p q : Album) (heard : List Event) : List Event := p.files.map .song ++ .update :: .begins q :: heard

/-- Where a speaker that is left alone is after these events. -/
inductive Course (p : Album) (s : Sys) : List Event → Prop
  | first {c : Nat} {h : List Bytes} : p.Played h → Play p c h.length s → s.handler = none →
      (∀ n pid, (s.track n).phase = .leaving pid → s.pending = true) →
      Going c s ∧ s.pending = false ∨ Over c s ∧ (s.pending = true → Ended p h.length) → Course p s (h.map .song)
  | asks {c k : Nat} {code : Code} : p.Apart → k ≠ 0 → Play p c k s → Over c s → s.pending = false →
      s.handler = some code → Asking j (s.child c).pid code → Course p s (p.files.map .song ++ [.update])
  | fetches : p.Apart → Still s → s.pending = false → (∀ code, s.handler = some code → Restarts code) →
      Course p s (p.files.map .song ++ [.update])
  | second {q : Album} {c : Nat} {h : List Bytes} : p.Apart → q.Played h → Play q c h.length s → Deaf c s →
      (∀ n pid, (s.track n).phase = .leaving pid → s.pending = true) →
      (∀ code, s.handler = some code → ∃ m, code = .done m) → (s.pending = true → Ended q h.length) →
      Course p s (upTo p q (h.map .song))
  | hangs {q : Album} {c k : Nat} {code : Code} : p.Apart → q.Apart → Ended q k → Play q c k s → Deaf c s →
      s.handler = some code → Asking j (s.child c).pid code →
      Course p s (upTo p q (q.files.map .song ++ [.update]))

variable {j}

theorem upTo_append (p q : Album) (heard more : List Event) : upTo p q heard ++ more = upTo p q (heard ++ more) := by
  simp [upTo]

theorem Asking.is_call {pid : Int} {code : Code} (h : Asking j pid code) :
    (∀ m, code ≠ .done m) ∧ ∀ m musicName k, code ≠ .call m (.fork musicName) k := by
  cases h <;> exact ⟨fun m same => (by cases same), fun m musicName k same => (by cases same)⟩

/-- A play that has told of its end has played the whole list. -/
theorem whole_of_ended {h : List Bytes} (played : p.Played h) (ended : Ended p h.length) : p.Apart ∧ h = p.files :=
  played.whole ended.1

theorem goes_silent {file : Option Bytes} (goes : Goes p c k file t) (ended : Ended p k) :
    file = none ∧ Play p c k t := by
  rcases goes with goes | ⟨song, -, due, -⟩
  · exact goes
  · cases ended.1.symm.trans due

theorem snoc_song {h : List Bytes} {file : Bytes} :
    h.map Event.song ++ (some (Event.song file)).toList = (h ++ [file]).map Event.song := by
  rw [Option.toList_some, List.map_append, List.map_singleton]

theorem course_first {c : Nat} {h : List Bytes} {e : Option Event} (played : p.Played h) (play : Play p c h.length s)
    (idle : s.handler = none)
    (stands : Going c s ∧ s.pending = false ∨ Over c s ∧ (s.pending = true → Ended p h.length)) (one : Alone j s e t) :
    Course j p t (h.map .song ++ e.toList) := by
  cases one with
  | @plays file _ one =>
      have still : t.handler = none := (smooth_beside one).handler.trans idle
      rcases stands with ⟨going, quiet⟩ | ⟨ends, told⟩
      · cases going.next play one with
        | going going pending goes =>
            have silent : ∀ n pid, (t.track n).phase = .leaving pid → t.pending = true :=
              fun n pid leaving => absurd leaving (going.silent n pid)
            rcases goes with ⟨rfl, play⟩ | ⟨song, rfl, due, play⟩
            · rw [Option.map_none, Option.toList_none, List.append_nil]
              exact .first played play still silent (.inl ⟨going, pending.trans quiet⟩)
            · rw [Option.map_some, snoc_song]
              refine .first (played.snoc due) ?_ still silent (.inl ⟨going, pending.trans quiet⟩)
              rw [List.length_append]
              exact play
        | told ends pending ended none_ play =>
            rw [none_, Option.map_none, Option.toList_none, List.append_nil]
            exact .first played play still (fun _ _ _ => pending) (.inr ⟨ends, fun _ => ended⟩)
        | failed ends pending silent none_ play =>
            rw [none_, Option.map_none, Option.toList_none, List.append_nil]
            refine .first played play still (fun n pid leaving => absurd leaving (silent n pid)) (.inr ⟨ends, ?_⟩)
            intro now
            cases (pending.trans quiet).symm.trans now
      · obtain ⟨ends, left, pending, none_, play⟩ := Over.next play ends one
        rw [none_, Option.map_none, Option.toList_none, List.append_nil]
        exact .first played play still (fun _ _ leaving => absurd leaving (leaving_live left))
          (.inr ⟨ends, fun now => told (pending.symm.trans now)⟩)
  | @enter m _ pending at_ =>
      rcases stands with ⟨-, quiet⟩ | ⟨ends, told⟩
      · cases quiet.symm.trans pending
      · obtain ⟨apart, rfl⟩ := whole_of_ended played (told pending)
        have world := world_handler play.world (some (updateMusic j m)) s.main false
        exact .asks apart (told pending).2 (play.same world rfl rfl rfl rfl) (ends.same rfl rfl) rfl rfl (.lock m)
  | call busy _ _ => cases idle.symm.trans busy
  | begins q busy _ _ _ => cases idle.symm.trans busy
  | back busy => cases idle.symm.trans busy

/-- A call of the handler that waits for the child: the play goes on, or its child has been waited for. -/
theorem Play.asking {code : Code} {m : Memory} {op : Call} {f : op.Answer → Memory → Code} {a : op.Answer}
    (h : Play p c k s) (started : k ≠ 0) (asking : Asking j (s.child c).pid code) (here : code = .call m op f)
    (effect : Effect s m op a t) :
    (Asking j (s.child c).pid (f a m) ∧ Play p c k { t with handler := some (f a m) } ∧ t.child = s.child ∧
        t.track = s.track ∧ t.pending = s.pending) ∨
      ((s.child c).phase = .exited ∧ t = s.setChild c { s.child c with phase := .reaped } ∧ Restarts (f a m)) := by
  have world := effect_world h.world effect
  rcases asking.next here effect (h.current started) with ⟨asking, v, rfl⟩ | ⟨wait, restarts⟩
  · have world := world_handler world (some (f a m)) s.main s.pending
    exact .inl ⟨asking, h.same world rfl rfl rfl rfl, rfl, rfl, rfl⟩
  · obtain ⟨exited, same⟩ := h.reaped wait
    exact .inr ⟨exited, same, restarts⟩

theorem course_asks {k : Nat} {code : Code} {e : Option Event} (apart : p.Apart) (started : k ≠ 0)
    (play : Play p c k s) (ends : Over c s) (quiet : s.pending = false) (busy : s.handler = some code)
    (asking : Asking j (s.child c).pid code) (one : Alone j s e t) :
    Course j p t (p.files.map .song ++ [.update] ++ e.toList) := by
  cases one with
  | plays one =>
      have still := (smooth_beside one).handler.trans busy
      have pid := ((smooth_beside one).children c).pid
      obtain ⟨ends, -, pending, none_, play⟩ := Over.next play ends one
      rw [none_, Option.map_none, Option.toList_none, List.append_nil]
      exact .asks apart started play ends (pending.trans quiet) still (pid.symm ▸ asking)
  | enter idle _ _ => cases idle.symm.trans busy
  | @call u m op f a here _ effect =>
      rw [Option.toList_none, List.append_nil]
      rcases play.asking started asking (Option.some.inj (busy.symm.trans here)) effect with
        ⟨asking, play, child, track, pending⟩ | ⟨exited, rfl, restarts⟩
      · have same : (u.child c).pid = (s.child c).pid := by rw [child]
        exact .asks apart started play (ends.same child track) (pending.trans quiet) rfl (same.symm ▸ asking)
      · have still := play.still exited
        have world := world_handler still.world (some (f a m)) s.main s.pending
        refine .fetches apart ⟨world, still.children, still.tracks, still.sized, still.parent, still.record⟩ quiet ?_
        rintro _ ⟨⟩
        exact restarts
  | begins q here _ _ _ => exact absurd (Option.some.inj (busy.symm.trans here)) (asking.is_call.2 _ _ _)
  | back here => exact absurd (Option.some.inj (busy.symm.trans here)) (asking.is_call.1 _)

/-- The first song of an album that is the list. -/
theorem first_song {name : Bytes} {rest : List Bytes} (list : p.names = name :: rest) :
    ∃ file, p.files.head? = some file ∧ p.name file = name := by
  cases files : p.files with
  | nil =>
      rw [SingerList.names, files] at list
      cases list
  | cons file others =>
      rw [SingerList.names, files] at list
      exact ⟨file, rfl, (List.cons.inj list).1⟩

theorem forked_world {d : Nat} {x : Child} (w : World s) (forked : Album.Forked s d x t) : World t := by
  have world := fork_world w forked.absent forked.fresh
  obtain ⟨-, -, -, -, child, track, shm, -, -, -, writer, stopped⟩ := forked
  refine world.advance (fun e => ?_) stopped ?_ ?_
  · rw [child]
    exact .refl _
  · rw [track]
    exact world.tracks
  · rw [shm, writer]
    exact world.written

/-- The child that the handler forks is deaf. -/
theorem Still.forked {d : Nat} {x : Child} {name : Bytes} {rest : List Bytes} (still : Still s)
    (forked : Album.Forked s d x t) (list : x.memory.musicHead = p.names) (head : x.memory.musicHead = name :: rest)
    (short : name.length < 128) (copied : x.musicName = store (zeros 128) 0 (name ++ [0])) (blocked : x.blocked = true)
    (starts : x.memory.startFlag = true) : Play p d 0 t ∧ Deaf d t := by
  have here : t.child d = x := by rw [forked.child, Function.update_self]
  have others : ∀ c, c ≠ d → t.child c = s.child c := fun c other => by rw [forked.child, Function.update_of_ne other]
  have none_ : ∀ n, ¬ (t.track n).phase.Live := by
    rw [forked.track]
    exact still.tracks
  have new := forked.new
  obtain ⟨file, first, same⟩ := first_song (list.symm.trans head)
  have deaf : Deaf d t := ⟨here ▸ blocked, here ▸ starts, by rw [here, new]; exact id⟩
  refine ⟨?_, deaf⟩
  refine ⟨.fresh (fun c other => ?_) (here ▸ new) (here ▸ forked.quiet) (here ▸ list) ⟨file, first, ?_⟩ ?_ none_ ?_,
    forked_world still.world forked, ?_, forked.pid ▸ still.parent, ?_, ?_, fun started => absurd rfl started,
    fun n live => absurd live (none_ n), fun n => knows_dead (none_ n)⟩
  · rw [others c other]
    exact still.children c
  · rw [here, copied, same]
    exact Album.holds_copied name
  · rw [here, copied]
    exact Album.length_copied short
  · rw [forked.shm]
    exact still.sized
  · rw [here, new]
    trivial
  · rw [here, forked.pid]
    exact forked.fresh.2.1
  · rw [forked.shm, forked.pid]
    exact still.record

theorem course_fetches {e : Option Event} (apart : p.Apart) (still : Still s) (quiet : s.pending = false)
    (restarts : ∀ code, s.handler = some code → Restarts code) (one : Alone j s e t) :
    Course j p t (p.files.map .song ++ [.update] ++ e.toList) := by
  cases one with
  | plays one => exact absurd one still.rests
  | enter _ pending _ => cases quiet.symm.trans pending
  | @call u m op f a here plain effect =>
      rw [Option.toList_none, List.append_nil]
      cases restarts _ here with
      | aside aside rest =>
          cases effect with
          | aside _ _ =>
              have world := world_handler still.world (some (f a m)) s.main s.pending
              refine .fetches apart ⟨world, still.children, still.tracks, still.sized, still.parent, still.record⟩
                quiet ?_
              rintro _ ⟨⟩
              exact rest a
          | _ => exact aside.elim
      | fork _ _ _ _ => exact absurd rfl (plain _)
  | @begins u m musicName f q here list effect forked =>
      cases restarts _ here with
      | aside aside _ => exact aside.elim
      | @fork _ name rest _ starts head short ends =>
          cases effect with
          | forkFails => exact absurd rfl forked
          | aside _ aside => exact aside.elim
          | @fork _ pid d fresh absent =>
              have forked : Album.Forked s d ⟨pid, s.handler.isSome, false, .new, m, store (zeros 128) 0 (name ++ [0])⟩
                  { s.setChild d ⟨pid, s.handler.isSome, false, .new, m, store (zeros 128) 0 (name ++ [0])⟩ with
                    latest := some d
                    handler := some (f () m) } :=
                ⟨absent, fresh, rfl, rfl, rfl, rfl, rfl, rfl, rfl, rfl, rfl, rfl⟩
              obtain ⟨play, deaf⟩ := still.forked forked list head short rfl (by rw [here]; rfl) starts
              have course : Course j p _ _ := .second (h := []) apart q.played_nil play deaf
                (fun n pid leaving => absurd leaving (leaving_live still.tracks)) (fun code same => ?_)
                fun now => ?_
              · simpa [upTo] using course
              · exact ⟨m, (Option.some.inj same).symm.trans ends⟩
              · cases quiet.symm.trans now
  | @back m here =>
      rw [Option.toList_none, List.append_nil]
      have world := world_handler still.world none (s.main.withMemory m) s.pending
      refine .fetches apart ⟨world, still.children, still.tracks, still.sized, still.parent, still.record⟩ quiet ?_
      rintro _ ⟨⟩

theorem course_second {q : Album} {h : List Bytes} {e : Option Event} (apart : p.Apart) (played : q.Played h)
    (play : Play q c h.length s) (deaf : Deaf c s)
    (tells : ∀ n pid, (s.track n).phase = .leaving pid → s.pending = true)
    (leaves : ∀ code, s.handler = some code → ∃ m, code = .done m) (told : s.pending = true → Ended q h.length)
    (one : Alone j s e t) : Course j p t (upTo p q (h.map .song) ++ e.toList) := by
  rw [upTo_append]
  cases one with
  | plays one =>
      have still := (smooth_beside one).handler
      rw [← still] at leaves
      obtain ⟨deaf, pending, leaving, goes⟩ := deaf.next play one
      have tells : ∀ n pid, (t.track n).phase = .leaving pid → t.pending = true := by
        intro n pid now
        rcases leaving n pid now with before | told
        · rcases pending with same | ⟨told, -⟩
          · rw [same]
            exact tells n pid before
          · exact told
        · exact told
      rcases goes with ⟨rfl, play⟩ | ⟨song, rfl, due, play⟩
      · rw [Option.map_none, Option.toList_none, List.append_nil]
        refine .second apart played play deaf tells leaves fun now => ?_
        rcases pending with same | ⟨-, ended⟩
        · exact told (same.symm.trans now)
        · exact ended
      · rw [Option.map_some, snoc_song]
        have play : Play q c (h ++ [song]).length t := by
          rw [List.length_append]
          exact play
        refine .second apart (played.snoc due) play deaf tells leaves fun now => ?_
        have ended : Ended q h.length := by
          rcases pending with same | ⟨-, ended⟩
          · exact told (same.symm.trans now)
          · exact ended
        cases ended.1.symm.trans due
  | @enter m idle pending at_ =>
      obtain ⟨apart', rfl⟩ := whole_of_ended played (told pending)
      have world := world_handler play.world (some (updateMusic j m)) s.main false
      exact .hangs apart apart' (told pending) (play.same world rfl rfl rfl rfl) (deaf.same rfl) rfl (.lock m)
  | call here _ _ =>
      obtain ⟨_, ended⟩ := leaves _ here
      cases ended
  | begins _ here _ _ _ =>
      obtain ⟨_, ended⟩ := leaves _ here
      cases ended
  | @back m here =>
      have world := world_handler play.world none (s.main.withMemory m) s.pending
      rw [Option.toList_none, List.append_nil]
      refine .second apart played (play.same world rfl rfl rfl rfl) (deaf.same rfl) tells ?_ told
      rintro _ ⟨⟩

/-- The handler waits for a child that does not end. -/
theorem course_hangs {q : Album} {k : Nat} {code : Code} {e : Option Event} (apart : p.Apart) (apart' : q.Apart)
    (ended : Ended q k) (play : Play q c k s) (deaf : Deaf c s) (busy : s.handler = some code)
    (asking : Asking j (s.child c).pid code) (one : Alone j s e t) :
    Course j p t (upTo p q (q.files.map .song ++ [.update]) ++ e.toList) := by
  rw [upTo_append]
  cases one with
  | plays one =>
      have still := (smooth_beside one).handler.trans busy
      have pid := ((smooth_beside one).children c).pid
      obtain ⟨deaf, -, -, goes⟩ := deaf.next play one
      obtain ⟨rfl, play⟩ := goes_silent goes ended
      rw [Option.map_none, Option.toList_none, List.append_nil]
      exact .hangs apart apart' ended play deaf still (pid.symm ▸ asking)
  | enter idle _ _ => cases idle.symm.trans busy
  | @call u m op f a here _ effect =>
      rw [Option.toList_none, List.append_nil]
      rcases play.asking ended.2 asking (Option.some.inj (busy.symm.trans here)) effect with
        ⟨asking, play, child, -, -⟩ | ⟨exited, -, -⟩
      · have same : (u.child c).pid = (s.child c).pid := by rw [child]
        exact .hangs apart apart' ended play (deaf.same child) rfl (same.symm ▸ asking)
      · exact absurd (by rw [exited]; trivial) deaf.runs
  | begins _ here _ _ _ => exact absurd (Option.some.inj (busy.symm.trans here)) (asking.is_call.2 _ _ _)
  | back here => exact absurd (Option.some.inj (busy.symm.trans here)) (asking.is_call.1 _)

theorem course_step {past : List Event} {e : Option Event} (course : Course j p s past) (one : Alone j s e t) :
    Course j p t (past ++ e.toList) := by
  cases course with
  | first played play idle _ stands => exact course_first played play idle stands one
  | asks apart started play ends quiet busy asking => exact course_asks apart started play ends quiet busy asking one
  | fetches apart still quiet restarts => exact course_fetches apart still quiet restarts one
  | second apart played play deaf tells leaves told => exact course_second apart played play deaf tells leaves told one
  | hangs apart apart' ended play deaf busy asking =>
      exact course_hangs apart apart' ended play deaf busy asking one

theorem course_run {past : List Event} {heard : List (Option Event)} (course : Course j p s past)
    (run : Trace (Alone j) s heard t) : Course j p t (past ++ heard.reduceOption) := by
  have kept := run.history_nil (I := fun heard t => Course j p t (past ++ heard.reduceOption)) ?_ ?_
  · exact kept
  · intro heard s e t course one
    rw [List.reduceOption_append, List.reduceOption_singleton, ← List.append_assoc]
    exact course_step course one
  · rw [List.reduceOption_nil, List.append_nil]
    exact course

/-- While the handler is not running, a track process that has found no song has told the parent. -/
theorem Course.tells {es : List Event} (course : Course j p s es) (idle : s.handler = none) {n : Nat} {pid : Int}
    (leaving : (s.track n).phase = .leaving pid) : s.pending = true := by
  cases course with
  | first _ _ _ tells _ => exact tells n pid leaving
  | asks _ _ _ _ _ busy _ => cases idle.symm.trans busy
  | fetches _ still _ _ => exact absurd leaving (leaving_live still.tracks)
  | second _ _ _ _ tells _ _ => exact tells n pid leaving
  | hangs _ _ _ _ _ busy _ => cases idle.symm.trans busy

theorem update_not_song (h : List Bytes) : Event.update ∉ h.map .song := by simp

theorem Course.of_songs {es : List Event} (course : Course j p s es) (songs : Event.update ∉ es) :
    ∃ c, ∃ h : List Bytes, Play p c h.length s ∧
      (Going c s ∧ s.pending = false ∨ Over c s ∧ (s.pending = true → Ended p h.length)) := by
  cases course with
  | first _ play _ _ stands => exact ⟨_, _, play, stands⟩
  | asks _ _ _ _ _ _ _ => simp at songs
  | fetches _ _ _ _ => simp at songs
  | second _ _ _ _ _ _ _ => simp [upTo] at songs
  | hangs _ _ _ _ _ _ _ => simp [upTo] at songs

/-! ## A run to the end -/

theorem child_others {d e : Nat} {i : ChildStep} (one : ChildSteps s d i t) (other : e ≠ d) :
    t.child e = s.child e := by
  cases one <;> exact setChild_other _ other _

theorem track_phases {n d : Nat} (one : TrackSteps s n t) : (t.child d).phase = (s.child d).phase := by
  cases one <;> rfl

theorem smooth_pid {file : Option Bytes} (one : Smooth s file t) : t.pid = s.pid := by
  cases one with
  | child one _ _ => exact (child_leaves one).1
  | track one _ => cases one <;> rfl
  | leaves phase => rfl

theorem smooth_absent {file : Option Bytes} {d : Nat} (one : Smooth s file t) (absent : (s.child d).phase = .absent) :
    (t.child d).phase = .absent := by
  cases one with
  | child one _ _ =>
      refine (congrArg Child.phase (child_others one fun same => ?_)).trans absent
      exact child_running one (.inl (same ▸ absent))
  | track one _ => exact (track_phases one).trans absent
  | leaves phase => exact absent

/-- A play to its end. -/
theorem plays_alone {q : Album} (apart : q.Apart) (begun : Album.Begun q c s) :
    ∃ heard t n pid, Trace (Alone j) s heard t ∧ heard.reduceOption = q.files.map .song ∧
      Album.Telling q c q.files.length n pid t ∧ t.main = s.main ∧ t.handler = s.handler ∧
      ∀ d, (s.child d).phase = .absent → (t.child d).phase = .absent := by
  obtain ⟨heard, t, n, pid, run, songs, telling⟩ := begun.ends apart
  refine ⟨_, t, n, pid, run.map (Option.map Event.song) fun _ _ _ => .plays, ?_, telling, ?_⟩
  · rw [List.reduceOption_map, songs]
  · refine run.invariant (I := fun t => t.main = s.main ∧ t.handler = s.handler ∧
      ∀ d, (s.child d).phase = .absent → (t.child d).phase = .absent) ?_ ⟨rfl, rfl, fun _ => id⟩
    rintro u file v ⟨main, handler, absent⟩ one
    have beside := smooth_beside one
    exact ⟨beside.main.trans main, beside.handler.trans handler, fun d was => smooth_absent one (absent d was)⟩

/-- The handler up to the end of its wait. -/
theorem waits_alone {m : Memory} (play : Play p c k s) (started : k ≠ 0) (exited : (s.child c).phase = .exited)
    (idle : s.handler = none) (pending : s.pending = true) (main : s.main = .done m) (free : s.sem = 1) :
    Trace (Alone j) s [some .update, none, none, none, none]
      { s.setChild c { s.child c with phase := .reaped } with
        handler := some ((getMusicName j (cstr s.shm.curSigner) (clearMusicList { m with startFlag := false })).andThen
          startPlay)
        pending := false
        sem := s.sem - 1 + 1 } := by
  have at_ : s.main.memory = some m := by rw [main]; rfl
  have locks : 0 < s.sem := by rw [free]; decide
  exact .cons (.enter idle pending at_) <| .cons (.call rfl (by simp) (.semP locks)) <|
    .cons (.call rfl (by simp) .getShm) <| .cons (.call rfl (by simp) .semV) <|
    .cons (.call rfl (by simp) (.reap exited (.inr (play.current started)))) (.nil _)

/-- The speaker once the handler has waited for the child. -/
theorem Play.rests {b : Nat} (play : Play p c k s) (none_ : ∀ n, ¬ (s.track n).phase.Live) (below : Album.Below b s)
    (vacant : ∀ d, b ≤ d → (s.child d).phase = .absent)
    (child : t.child = Function.update s.child c { s.child c with phase := .reaped }) (track : t.track = s.track)
    (shm : t.shm = s.shm) (pid : t.pid = s.pid) (free : t.sem = 1) : Album.Rests t := by
  have here : t.child c = { s.child c with phase := .reaped } := by rw [child, Function.update_self]
  have others : ∀ d, d ≠ c → t.child d = s.child d := fun d other => by rw [child, Function.update_of_ne other]
  obtain ⟨big, parent, pids, unused⟩ := below
  refine ⟨fun d => ?_, track ▸ none_, shm ▸ play.on.sized, free, b, ⟨big, pid ▸ parent, fun d => ?_, track ▸ unused⟩,
    fun d bound => ?_⟩
  · by_cases same : d = c
    · rw [same, here]
      exact .inr trivial
    · rw [others d same]
      exact play.on.others d same
  · by_cases same : d = c
    · rw [same, here]
      exact pids c
    · rw [others d same]
      exact pids d
  · have other : d ≠ c := by
      rintro rfl
      have there := play.there
      rw [vacant d bound] at there
      exact there
    rw [others d other]
    exact vacant d bound

/-- A list that has been played to its end is followed by a question for the next one. -/
theorem asks_alone {m : Memory} {n : Nat} {pid : Int} {es : List Event} (course : Course j p s es)
    (songs : Event.update ∉ es) (telling : Album.Telling p c k n pid s) (idle : s.handler = none)
    (main : s.main = .done m) (vacant : ∃ n, ∀ d, n ≤ d → (s.child d).phase = .absent) :
    ∃ heard t singer, Trace (Alone j) s heard t ∧ heard.reduceOption = [.update] ∧ Album.Rests t ∧
      t.handler = some ((getMusicName j singer (clearMusicList { m with startFlag := false })).andThen startPlay) ∧
      t.main = .done m := by
  obtain ⟨d, h, play, stands⟩ := course.of_songs songs
  have live : (s.track n).phase.Live := by rw [telling.phase]; trivial
  have waits := play.waits n live
  have same : d = c := by
    by_contra other
    rcases telling.on.others d other with absent | gone
    · cases absent.symm.trans waits
    · rw [waits] at gone
      exact gone
  subst same
  have pending := course.tells idle telling.phase
  obtain ⟨ends, ended⟩ : Over d s ∧ Ended p h.length := by
    rcases stands with ⟨going, -⟩ | ⟨ends, told⟩
    · exact absurd telling.phase (going.silent n pid)
    · exact ⟨ends, told pending⟩
  have open_ : (s.child d).blocked = false := by
    cases ends with
    | tells open_ _ _ => exact open_
    | quits none_ _ => exact absurd live (none_ n)
  have told : pid = (s.child d).pid := by
    have knows := (play.knows n).2
    rwa [telling.phase] at knows
  subst told
  -- the track process signals the child and ends
  obtain ⟨u, leave, child, free, track⟩ : ∃ u, Smooth s none u ∧ u.child d = { s.child d with pending := true } ∧
      u.sem = 1 ∧ ∀ m, m ≠ n → u.track m = s.track m :=
    ⟨_, .leaves telling.phase, play.signal_child.1, by rw [telling.held]; rfl, fun m other => setTrack_other _ other _⟩
  obtain ⟨ends, -, pending₁, -, play₁⟩ := Over.next play ends leave
  -- the child takes the signal
  have quit : ChildSteps u d .signal (u.setChild d { u.child d with pending := false, phase := .exited }) := by
    refine .quit ?_ ?_ ?_ ?_
    · rw [child]
    · rw [child]
      exact open_
    · rw [child, waits]
      trivial
    · rw [child, waits]
      exact id
  obtain ⟨v, one, exited, sem, track'⟩ : ∃ v, Smooth u none v ∧ (v.child d).phase = .exited ∧ v.sem = u.sem ∧
      v.track = u.track :=
    ⟨_, .child quit (fun other => (by cases other)) (fun other => (by cases other)), by rw [setChild_self], rfl, rfl⟩
  obtain ⟨-, none_, pending₂, -, play₂⟩ := Over.next play₁ ends one
  have beside := smooth_beside leave
  have beside' := smooth_beside one
  have waits := waits_alone (j := j) play₂ ended.2 exited (beside'.handler.trans (beside.handler.trans idle))
    (pending₂.trans (pending₁.trans pending)) (beside'.main.trans (beside.main.trans main)) (sem.trans free)
  obtain ⟨bound, vacant⟩ := vacant
  obtain ⟨big, parent, pids, unused⟩ := telling.below
  have below : Album.Below (max (n + 1) bound) v := by
    refine ⟨by omega, ?_, fun e => ?_, fun m beyond => ?_⟩
    · rw [smooth_pid one, smooth_pid leave]
      omega
    · rw [(beside'.children e).pid, (beside.children e).pid]
      have := pids e
      omega
    · rw [track', track m (by omega)]
      exact unused m (by omega)
  have vacant : ∀ e, max (n + 1) bound ≤ e → (v.child e).phase = .absent :=
    fun e beyond => smooth_absent one (smooth_absent leave (vacant e (by omega)))
  have still : v.sem - 1 + 1 = 1 := by rw [sem, free]; rfl
  exact ⟨_, _, _, .cons (.plays leave) (.cons (.plays one) waits), rfl,
    play₂.rests none_ below vacant rfl rfl rfl rfl still, rfl, beside'.main.trans (beside.main.trans main)⟩

/-- Calls that no other process takes part in. -/
theorem aside_alone {code : Code} {m : Memory} {f : Memory → Code} (aside : code.Every Call.Aside) (ends : Ends code m)
    (busy : s.handler = some (code.andThen f)) :
    ∃ heard, heard.reduceOption = [] ∧ Trace (Alone j) s heard { s with handler := some (f m) } := by
  induction ends generalizing s with
  | done m =>
      refine ⟨[], rfl, ?_⟩
      have same : s = { s with handler := some (f m) } := by
        cases s
        cases busy
        rfl
      rw [← same]
      exact .nil s
  | @call m t op k a _ ih =>
      cases aside with
      | call aside rest =>
          have plain : ∀ musicName, op ≠ .fork musicName := by
            rintro musicName rfl
            exact aside
          obtain ⟨heard, silent, run⟩ := ih (s := { s with handler := some ((k a m).andThen f) }) (rest a m) rfl
          exact ⟨none :: heard, silent, .cons (.call busy plain (.aside a aside)) run⟩

/-- The handler forks the next play and returns. -/
theorem begins_alone {q : Album} {m : Memory} (rests : Album.Rests s) (busy : s.handler = some (startPlay m))
    (stopped : m.startFlag = false) (plain : m.suspendFlag = false) (list : m.musicHead = q.names)
    (some_ : q.files ≠ []) :
    ∃ c heard t, heard.reduceOption = [.begins q] ∧ Trace (Alone j) s heard t ∧ Album.Begun q c t ∧
      t.handler = none ∧ t.main = s.main.withMemory { m with startFlag := true } := by
  obtain ⟨file, files, split⟩ := List.exists_cons_of_ne_nil some_
  have first : q.files.head? = some file := by rw [split, List.head?_cons]
  have head : m.musicHead = q.name file :: files.map q.name := by rw [list, SingerList.names, split, List.map_cons]
  have fits := q.fits _ (q.name_mem (List.mem_of_mem_head? first))
  obtain ⟨k, signals, forks⟩ := Album.startPlay_calls stopped plain head (by omega)
  rw [signals] at busy
  have rests' : Album.Rests { s with handler := some (k () m) } :=
    ⟨rests.children, rests.tracks, rests.sized, rests.free, rests.below⟩
  obtain ⟨c, x, t, effect, -, begun, -, -, latest, main, -⟩ :=
    rests'.fork (m := { m with startFlag := true }) list rfl first
  have signal : Alone j s none _ := .call busy (by simp) (.aside () trivial)
  have fork := Alone.begins (j := j) (s := { s with handler := some (k () m) }) q (congrArg some forks) list effect
    (by rw [latest]; simp)
  refine ⟨c, _, _, rfl, .cons signal (.cons fork (.cons (.back rfl) (.nil _))), begun.same rfl rfl rfl rfl rfl, rfl, ?_⟩
  exact congrArg (Program.withMemory _) main

/-- What can happen to a speaker that is left alone. At the end of the second list the handler is there to stay. -/
inductive Script (p : Album) (s : Sys) : List Event → Prop
  | first {h : List Bytes} : p.Played h → Script p s (h.map .song)
  | asks : p.Apart → Script p s (p.files.map .song ++ [.update])
  | second {q : Album} {h : List Bytes} : p.Apart → q.Played h → Script p s (upTo p q (h.map .song))
  | hangs {q : Album} : p.Apart → q.Apart → s.handler ≠ none → Script p s (upTo p q (q.files.map .song ++ [.update]))

theorem Course.script {es : List Event} (course : Course j p s es) : Script p s es := by
  cases course with
  | first played _ _ _ _ => exact .first played
  | asks apart _ _ _ _ _ _ => exact .asks apart
  | fetches apart _ _ _ => exact .asks apart
  | second apart played _ _ _ _ _ => exact .second apart played
  | hangs apart apart' _ _ _ busy _ => exact .hangs apart apart' (by rw [busy]; simp)

theorem upTo_inj {q q' : Album} {heard heard' : List Event} (same : upTo p q heard = upTo p q' heard') :
    q = q' ∧ heard = heard' := by
  simpa [upTo] using same

/-- Only where all songs of both lists are found at their own places does it come so far. -/
theorem Script.apart {q : Album} {es : List Event} (script : Script p s es)
    (whole : es = upTo p q (q.files.map .song ++ [.update])) : p.Apart ∧ q.Apart := by
  cases script with
  | first _ => exact absurd (whole ▸ update_not_song _) (by simp [upTo])
  | asks _ => simp [upTo] at whole
  | second _ _ =>
      have last := (upTo_inj whole).2
      exact absurd (last ▸ update_not_song _) (by simp)
  | hangs apart apart' _ =>
      obtain ⟨rfl, -⟩ := upTo_inj whole
      exact ⟨apart, apart'⟩

/-- A speaker whose main loop has just begun to play and is left alone from here on. -/
structure Starts (p : Album) (c : Nat) (m : Memory) (s : Sys) : Prop where
  begun : Album.Begun p c s
  world : World s
  vacant : ∃ n, ∀ d, n ≤ d → (s.child d).phase = .absent
  open_ : (s.child c).blocked = false
  idle : s.handler = none
  main : s.main = .done m
  plain : m.suspendFlag = false
  quiet : s.pending = false
  parent : s.pid ≠ 0
  apart : (s.child c).pid ≠ s.pid
  record : s.shm.parentPid = s.pid

theorem Starts.course {m : Memory} (h : Starts p c m s) : Course j p s [] := by
  have begun := h.begun
  have none_ := begun.tracks
  have play : Play p c 0 s := by
    refine ⟨begun.on, h.world, ?_, h.parent, h.apart, h.record, fun started => absurd rfl started,
      fun n live => absurd live (none_ n), fun n => knows_dead (none_ n)⟩
    rw [begun.new]
    trivial
  have going : Going c s := by
    refine ⟨h.open_, begun.unsignalled, begun.starts, ?_, fun n pid => leaving_live none_⟩
    rw [begun.new]
    exact id
  exact .first (h := []) p.played_nil play h.idle (fun n pid leaving => absurd leaving (leaving_live none_))
    (.inl ⟨going, h.quiet⟩)

/-- `StartPlay` on a speaker at rest. -/
theorem startPlay_starts {m : Memory} (rests : Album.Rests s) (world : World s) (idle : s.handler = none)
    (main : s.main = .done m) (stopped : m.startFlag = false) (plain : m.suspendFlag = false)
    (list : m.musicHead = p.names) (some_ : p.files ≠ []) (quiet : s.pending = false) (parent : s.pid ≠ 0)
    (record : s.shm.parentPid = s.pid) :
    ∃ c t, Trace (Steps j) s [.begin .start, .call, .call] t ∧ Starts p c { m with startFlag := true } t := by
  obtain ⟨c, x, t, run, forked, begun, open_, idle', main'⟩ :=
    Album.startPlay_begins j rests idle main stopped plain list some_
  have here : t.child c = x := by rw [forked.child, Function.update_self]
  obtain ⟨n, -, vacant⟩ := rests.below
  refine ⟨c, t, run, begun, forked_world world forked, ⟨max n (c + 1), fun d beyond => ?_⟩, here ▸ open_, idle', main',
    plain, forked.pending.trans quiet, forked.pid ▸ parent, ?_, ?_⟩
  · rw [forked.child, Function.update_of_ne (by omega)]
    exact vacant d (by omega)
  · rw [here, forked.pid]
    exact forked.fresh.2.1
  · rw [forked.shm, forked.pid]
    exact record

/-- Left alone, a speaker plays its list, asks once for the next one, plays that
and waits at its end for a child that takes no signal: whatever the server
answers, no third list is played and the main loop is not come back to. It comes
so far exactly where no name in either list contains the file of a later song. -/
theorem left_alone {m : Memory} (starts : Starts p c m s) :
    (∀ heard t, Trace (Alone j) s heard t → Script p t heard.reduceOption) ∧
    ∀ q : Album, q.files ≠ [] →
      (∀ singer, Ends (getMusicName j singer { m with startFlag := false, musicHead := [] })
        { m with startFlag := false, musicHead := q.names }) →
      ((∃ heard t, Trace (Alone j) s heard t ∧ heard.reduceOption = upTo p q (q.files.map .song ++ [.update])) ↔
        p.Apart ∧ q.Apart) := by
  have course : ∀ {heard t}, Trace (Alone j) s heard t → Course j p t heard.reduceOption :=
    fun run => course_run starts.course run
  refine ⟨fun heard t run => (course run).script, fun q some_ answers => ⟨?_, ?_⟩⟩
  · rintro ⟨heard, t, run, whole⟩
    exact (course run).script.apart whole
  · rintro ⟨apart, apart'⟩
    obtain ⟨heard₁, t₁, n, pid, run₁, songs, telling, main, idle, absent⟩ := plays_alone (j := j) apart starts.begun
    have quiet : Event.update ∉ heard₁.reduceOption := songs ▸ update_not_song _
    obtain ⟨b, vacant⟩ := starts.vacant
    obtain ⟨heard₂, t₂, singer, run₂, asks, rests, busy, main₂⟩ := asks_alone (course run₁) quiet telling
      (idle.trans starts.idle) (main.trans starts.main) ⟨b, fun d beyond => absent d (vacant d beyond)⟩
    obtain ⟨heard₃, silent, run₃⟩ := aside_alone (j := j) (getMusicName_aside singer _) (answers singer) busy
    have rests₃ : Album.Rests
        { t₂ with handler := some (startPlay { m with startFlag := false, musicHead := q.names }) } :=
      ⟨rests.children, rests.tracks, rests.sized, rests.free, rests.below⟩
    obtain ⟨d, heard₄, t₄, begins, run₄, begun, idle₄, main₄⟩ :=
      begins_alone (j := j) rests₃ rfl rfl starts.plain rfl some_
    obtain ⟨heard₅, t₅, n', pid', run₅, songs', telling', main₅, idle₅, -⟩ := plays_alone (j := j) apart' begun
    have run := run₁.append (run₂.append (run₃.append (run₄.append run₅)))
    have idle₅ := idle₅.trans idle₄
    have told := (course run).tells idle₅ telling'.phase
    have at_ : t₅.main.memory = some { m with startFlag := true, musicHead := q.names } := by
      rw [main₅, main₄]
      change (t₂.main.withMemory _).memory = _
      rw [main₂]
      rfl
    refine ⟨_, _, run.append (.cons (.enter idle₅ told at_) (.nil _)), ?_⟩
    simp [List.reduceOption_append, songs, asks, silent, begins, songs', upTo, List.reduceOption_singleton]

/-- json-c where every answer lists the two songs again. -/
def twoTracksC : JsonC where
  order := .little
  parse _ := some (.object [(lit "cmd", .string (lit "reply_music_list")),
    (lit "music", .array (twoTracks.names.map .string))])
  toJsonString _ := lit "{}"

theorem twoTracks_answered (singer : Bytes) :
    Ends (getMusicName twoTracksC singer ⟨false, false, .online, []⟩) ⟨false, false, .online, twoTracks.names⟩ := by
  have packed : packet .little (cstr (lit "{}")) = .ok (frame .little (lit "{}")) := by decide +kernel
  have linked : linkMusicList twoTracksC [] ⟨false, false, .online, []⟩ =
      .ok ⟨false, false, .online, twoTracks.names⟩ := by decide +kernel
  have sends : ∀ (obj : Json) (names : List Bytes),
      Ends (sendMusicInfo twoTracksC obj ⟨false, false, .online, names⟩) ⟨false, false, .online, names⟩ := by
    intro obj names
    unfold sendMusicInfo
    exact ends_check.mpr ⟨_, packed, .call () (.done _)⟩
  exact ends_andThen.mpr ⟨_, sends _ _, .call [] (ends_check.mpr ⟨_, linked, sends _ _⟩)⟩

theorem twoTracks_apart : twoTracks.Apart := by
  unfold SingerList.Apart
  decide

/-- Two songs, and the same two again. -/
theorem twoTracks_twice :
    ∃ c s, Starts twoTracks c { beforeTwoTracks with startFlag := true } s ∧
      ∃ heard t, Trace (Alone twoTracksC) s heard t ∧
        heard.reduceOption = upTo twoTracks twoTracks (twoFiles.map .song ++ [.update]) := by
  obtain ⟨c, s, -, starts⟩ := startPlay_starts (j := twoTracksC) (p := twoTracks)
    (rests_start 100 (by decide) beforeTwoTracks) (inv_start 100 beforeTwoTracks).world rfl rfl rfl rfl rfl (by decide)
    rfl (by decide) rfl
  exact ⟨c, s, starts, ((left_alone starts).2 twoTracks (by decide) twoTracks_answered).mpr
    ⟨twoTracks_apart, twoTracks_apart⟩⟩

end MusicPlayer.Speaker.Unattended
