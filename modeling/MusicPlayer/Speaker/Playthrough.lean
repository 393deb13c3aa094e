import MusicPlayer.Speaker.Current
import Mathlib.Data.List.GetD
import Mathlib.Data.List.ReduceOption

/-! A list that plays by itself: the child forks one track process after the
other, and each looks for the song behind the one in the record. -/
namespace MusicPlayer.Speaker
open CBytes FirstMatch Runs

/-! ## The order of the songs -/

/-- The playlist of a singer whose names are C strings that fit the nodes. -/
structure Album extends SingerList where
  text : ∀ name ∈ toSingerList.names, 0 ∉ name
  fits : ∀ name ∈ toSingerList.names, name.length < 127

namespace Album
variable (p : Album)

theorem name_mem {file : Bytes} (member : file ∈ p.files) : p.name file ∈ p.names := List.mem_map_of_mem member

theorem text_parts {file : Bytes} (member : file ∈ p.files) : 0 ∉ p.singer ∧ 0 ∉ file := by
  have free := p.text _ (p.name_mem member)
  simp only [SingerList.name, List.mem_append, not_or] at free
  exact ⟨free.1.1, free.2⟩

theorem length_parts {file : Bytes} (member : file ∈ p.files) : p.singer.length ≤ 127 ∧ file.length ≤ 127 := by
  have short := p.fits _ (p.name_mem member)
  simp only [SingerList.name, List.length_append] at short
  omega

/-- A song of the list as the name of a track. -/
def track (file : Bytes) (member : file ∈ p.files) : TrackName where
  singer := p.singer
  file := file
  plain := p.plain
  text := p.text_parts member
  fits := p.length_parts member

/-- The place of the first song whose name contains the file of song `i`. -/
def back (i : Nat) : Nat := p.names.findIdx fun name => strstr name (p.files.getD i [])

/-- The `k`th song that is played. -/
def song (k : Nat) : Option Bytes := p.files[visit p.back k]?

/-- The songs in `h` are the first ones played. -/
def Played (h : List Bytes) : Prop := ∀ k < h.length, h[k]? = p.song k

theorem holds_getD {i : Nat} (inside : i < p.names.length) : strstr p.names[i] (p.files.getD i []) = true := by
  have bound : i < p.files.length := by simpa [SingerList.names] using inside
  have same : p.names[i] = p.name p.files[i] := by simp [SingerList.names]
  rw [same, List.getD_eq_getElem _ _ bound]
  exact p.holds_own _

theorem back_le (i : Nat) : p.back i ≤ i := by
  by_contra early
  have before : i < p.back i := by omega
  have inside : i < p.names.length := by
    have : p.back i ≤ p.names.length := List.findIdx_le_length
    omega
  have held := p.holds_getD inside
  have missed := List.not_of_lt_findIdx before
  rw [held] at missed
  cases missed

theorem back_eq_iff {i : Nat} (inside : i < p.files.length) :
    p.back i = i ↔ ∀ earlier ∈ p.files.take i, strstr (p.name earlier) p.files[i] = false := by
  have bound : i < p.names.length := by simpa [SingerList.names] using inside
  have own := p.holds_getD bound
  rw [List.getD_eq_getElem _ _ inside] at own
  rw [back, List.findIdx_eq bound, List.getD_eq_getElem _ _ inside]
  constructor
  · rintro ⟨-, missed⟩ earlier member
    obtain ⟨j, below, rfl⟩ := List.mem_take_iff_getElem.mp member
    have miss := missed j (by omega)
    simpa [SingerList.names] using miss
  · intro missed
    refine ⟨own, fun j below => ?_⟩
    have miss := missed p.files[j] (List.mem_take_iff_getElem.mpr ⟨j, by omega, rfl⟩)
    simpa [SingerList.names] using miss

/-- Each song is found at its own place exactly where no name contains the file of a later song. -/
theorem apart_iff_back : p.Apart ↔ ∀ i < p.files.length, p.back i = i := by
  rw [p.apart_iff]
  exact forall₂_congr fun i inside => (p.back_eq_iff inside).symm

/-- The song behind song `i` is the one behind the place the search ends at. -/
theorem findNextMusic_back {i : Nat} (inside : i < p.files.length) :
    findNextMusic p.names p.files[i] = .ok p.names[p.back i + 1]? := by
  have bound : i < p.names.length := by simpa [SingerList.names] using inside
  have found : p.back i < p.names.length := Nat.lt_of_le_of_lt (p.back_le i) bound
  have file : p.files.getD i [] = p.files[i] := List.getD_eq_getElem _ _ inside
  have first : FirstHolding p.names p.files[i] (p.names.take (p.back i)) p.names[p.back i]
      (p.names.drop (p.back i + 1)) := by
    refine ⟨?_, ?_, fun x member => ?_⟩
    · rw [List.getElem_cons_drop, List.take_append_drop]
    · rw [← file]
      exact List.findIdx_getElem (p := fun name => strstr name (p.files.getD i []))
    · obtain ⟨j, below, rfl⟩ := List.mem_take_iff_getElem.mp member
      have before : j < p.back i := by omega
      rw [← file]
      exact List.not_of_lt_findIdx before
  rw [first.next, List.head?_drop]

/-- What follows the `k`th song that is played. -/
theorem findNextMusic_song {k : Nat} {file : Bytes} (current : p.song k = some file) :
    findNextMusic p.names file = .ok ((p.song (k + 1)).map p.name) := by
  obtain ⟨inside, rfl⟩ := List.getElem?_eq_some_iff.mp current
  rw [p.findNextMusic_back inside, song, visit, SingerList.names, List.getElem?_map]

theorem song_mem {k : Nat} {file : Bytes} (current : p.song k = some file) : file ∈ p.files :=
  List.mem_of_getElem? current

theorem played_nil : p.Played [] := fun _ inside => absurd inside (Nat.not_lt_zero _)

theorem Played.snoc {p : Album} {h : List Bytes} {file : Bytes} (played : p.Played h)
    (next : p.song h.length = some file) : p.Played (h ++ [file]) := by
  intro k inside
  rcases Nat.lt_or_ge k h.length with before | last
  · rw [List.getElem?_append_left before, played k before]
  · have here : k = h.length := by
      rw [List.length_append, List.length_singleton] at inside
      omega
    subst here
    rw [List.getElem?_concat_length, next]

/-- Where every song is found at its own place, what is played is the list from its front on. -/
theorem Played.prefix {p : Album} {h : List Bytes} (played : p.Played h) (apart : p.Apart) : h <+: p.files := by
  have straight := p.apart_iff_back.mp apart
  have same : ∀ k < h.length, k < p.files.length ∧ h[k]? = p.files[k]? := by
    intro k
    induction k with
    | zero =>
        intro inside
        have here := played 0 inside
        rw [List.getElem?_eq_getElem inside] at here
        exact ⟨(List.getElem?_eq_some_iff.mp here.symm).1, (played 0 inside)⟩
    | succ k ih =>
        intro inside
        have before := (ih (by omega)).1
        have here := played (k + 1) inside
        rw [song, visit_straight straight (by omega)] at here
        refine ⟨?_, here⟩
        rw [List.getElem?_eq_getElem inside] at here
        exact (List.getElem?_eq_some_iff.mp here.symm).1
  rw [List.prefix_iff_getElem?]
  intro k inside
  rw [← (same k inside).2, List.getElem?_eq_getElem inside]

/-- No song behind one whose file an earlier name contains is ever played. -/
theorem Played.stuck {p : Album} {h : List Bytes} (played : p.Played h) {i j : Nat} (before : i < j)
    (inside : j < p.files.length) (held : strstr (p.name p.files[i]) p.files[j] = true) :
    ∀ file ∈ h, file ∈ p.files.take (j + 1) := by
  have turn : p.back j < j := by
    refine Nat.lt_of_le_of_ne (p.back_le j) fun same => ?_
    have free := (p.back_eq_iff inside).mp same p.files[i] (List.mem_take_iff_getElem.mpr ⟨i, by omega, rfl⟩)
    rw [held] at free
    cases free
  intro file member
  obtain ⟨k, bound, rfl⟩ := List.mem_iff_getElem.mp member
  have here := played k bound
  rw [List.getElem?_eq_getElem bound] at here
  obtain ⟨place, same⟩ := List.getElem?_eq_some_iff.mp here.symm
  have within := visit_within p.back_le turn k
  exact List.mem_take_iff_getElem.mpr ⟨visit p.back k, by omega, same⟩

/-- Where nothing follows, all songs have been played, once each. -/
theorem Played.whole {p : Album} {h : List Bytes} (played : p.Played h) (ended : p.song h.length = none) :
    p.Apart ∧ h = p.files := by
  have reached : p.files.length ≤ visit p.back h.length := List.getElem?_eq_none_iff.mp ended
  have straight := (visit_reaches_iff p.back_le).mp ⟨_, reached⟩
  have apart := p.apart_iff_back.mpr straight
  have part := played.prefix apart
  refine ⟨apart, part.eq_of_length_le ?_⟩
  rwa [visit_straight straight part.length_le] at reached

end Album

/-! ## What a track process chooses -/

/-- The two names of a track in the record have their size. -/
structure Shm.Sized (r : Shm) : Prop where
  signer : r.curSigner.length = 128
  music : r.curMusic.length = 128

namespace Album
variable (p : Album)

/-- After `k` songs the record has the last of them. -/
def Recorded (r : Shm) : Nat → Prop
  | 0 => True
  | k + 1 => p.song k = some (cstr r.curMusic)

/-- What a track process goes by after `k` songs: the first one has been forked
with a name, the others look for what follows the record. -/
def Chooses (r : Shm) (buf : Bytes) : Nat → Prop
  | 0 => ∃ file, p.song 0 = some file ∧ Holds buf (p.name file)
  | k + 1 => p.song k = some (cstr r.curMusic) ∧ cstr buf = [] ∧ buf.length = 128

variable {p}

theorem Chooses.trackName {k : Nat} {r : Shm} {buf : Bytes} (h : p.Chooses r buf k) :
    (p.song k = none ∧ k ≠ 0 ∧ trackName r p.names buf = .ok none) ∨
      ∃ file name, p.song k = some file ∧ trackName r p.names buf = .ok (some name) ∧
        Holds name (p.name file) := by
  cases k with
  | zero =>
      obtain ⟨file, first, holds⟩ := h
      refine .inr ⟨file, buf, first, ?_, holds⟩
      have whole : cstr buf = p.name file := cstr_holds (t := p.track file (p.song_mem first)) holds
      have some_ : p.name file ≠ [] := by simp [SingerList.name, lit]
      rw [Speaker.trackName, whole, if_neg some_]
  | succ k =>
      obtain ⟨current, cleared, size⟩ := h
      have search := p.findNextMusic_song current
      rw [Speaker.trackName, if_pos cleared, search]
      cases next : p.song (k + 1) with
      | none => exact .inl ⟨rfl, Nat.succ_ne_zero k, rfl⟩
      | some file =>
          have member := p.name_mem (p.song_mem next)
          have fits := p.fits _ member
          have copied : strcpy buf (p.name file) = .ok (store buf 0 (p.name file ++ [0])) := by
            rw [strcpy, if_pos (by omega)]
          refine .inr ⟨file, store buf 0 (p.name file ++ [0]), rfl, ?_, buf.drop (p.name file ++ [0]).length, ?_⟩
          · rw [Option.map_some, Except.ok_bind]
            dsimp only
            rw [copied]
            rfl
          · simp [store]

/-- The record with a song of the list in it. -/
theorem setCurrent_song {r placed : Shm} {name file : Bytes} (member : file ∈ p.files)
    (holds : Holds name (p.name file)) (sized : r.Sized) (set : setCurrent r name = .ok placed) :
    cstr placed.curMusic = file ∧ placed.Sized := by
  have done := setCurrent_holds (t := p.track file member) holds sized.signer sized.music
  cases done.symm.trans set
  have ⟨short, short'⟩ := (p.track file member).fits
  refine ⟨cstr_stored (p.track file member).text.2, ?_, ?_⟩
  · rw [List.length_append, List.length_drop, sized.signer]
    omega
  · rw [length_store]
    · exact sized.music
    · rw [List.length_append, List.length_singleton, sized.music]
      omega

end Album

/-! ## Runs of the child and its track processes -/

/-- The file in the record that a track process is about to store. -/
def TrackPhase.stores : TrackPhase → Option Bytes
  | .placed curInfo _ => some (cstr curInfo.curMusic)
  | _ => none

/-- A track process may end here of itself: it is the player, or there is no song left. -/
def TrackPhase.Over : TrackPhase → Prop
  | .playing _ => True
  | .leaving _ => True
  | _ => False

/-- A step of a child or a track process, with the file it puts in the record:
no command is given and no track process is killed before it plays. -/
inductive Plays (s : Sys) : Option Bytes → Sys → Prop
  | child {c : Nat} {e : ChildStep} {t : Sys} : ChildSteps s c e t → Plays s none t
  | track {n : Nat} {t : Sys} : TrackSteps s n t → ((t.track n).phase = .ended → (s.track n).phase.Over) →
      Plays s (s.track n).phase.stores t

theorem Plays.steps (j : JsonC) {s t : Sys} {file : Option Bytes} (h : Plays s file t) : ∃ e, Steps j s e t := by
  cases h with
  | child one => exact ⟨_, .child one⟩
  | track one _ => exact ⟨_, .track one⟩

/-- A child that moves is running. -/
theorem child_running {s t : Sys} {d : Nat} {e : ChildStep} (one : ChildSteps s d e t) :
    ¬ ((s.child d).phase = .absent ∨ (s.child d).phase.Gone) := by
  cases one with
  | install phase => simp [phase, ChildPhase.Gone]
  | goOn phase _ => simp [phase, ChildPhase.Gone]
  | exit phase _ => simp [phase, ChildPhase.Gone]
  | fork phase _ _ => simp [phase, ChildPhase.Gone]
  | forkFails phase => simp [phase, ChildPhase.Gone]
  | wait phase _ => simp [phase, ChildPhase.Gone]
  | quit _ _ ready running => exact not_or.mpr ⟨fun absent => by rw [absent] at ready; exact ready, running⟩
  | clear _ _ ready running => exact not_or.mpr ⟨fun absent => by rw [absent] at ready; exact ready, running⟩
  | update _ _ phase => simp [phase, ChildPhase.Gone]
  | back _ phase => simp [phase, ChildPhase.Gone]

theorem track_running {s t : Sys} {n : Nat} (one : TrackSteps s n t) : (s.track n).phase.Live := by
  cases one with
  | dies live => exact live
  | semP phase _ => rw [phase]; trivial
  | getShm phase => rw [phase]; trivial
  | finish phase _ => rw [phase]; trivial
  | leave phase => rw [phase]; trivial
  | place phase _ _ => rw [phase]; trivial
  | setShm phase => rw [phase]; trivial
  | semV phase => rw [phase]; trivial
  | execFails phase => rw [phase]; trivial

/-- A signal that the child takes before its next statement. -/
def Child.Signalled (x : Child) : Prop := x.pending = true ∧ x.blocked = false

/-- The same where no fork fails, no track process is killed at all, and a child
takes its signal before it comes back from `wait`. -/
inductive Smooth (s : Sys) : Option Bytes → Sys → Prop
  | child {c : Nat} {e : ChildStep} {t : Sys} : ChildSteps s c e t → (e = .fork → (t.child c).phase ≠ .exited) →
      (e = .wait → ¬ (s.child c).Signalled) → Smooth s none t
  | track {n : Nat} {t : Sys} : TrackSteps s n t →
      ((t.track n).phase = .ended → ∃ pid, (s.track n).phase = .playing pid) → Smooth s (s.track n).phase.stores t
  | leaves {n : Nat} {pid : Int} : (s.track n).phase = .leaving pid →
      Smooth s none { (s.signal pid).setTrack n { s.track n with phase := .ended } with sem := s.sem + 1 }

theorem Smooth.plays {s t : Sys} {file : Option Bytes} (h : Smooth s file t) : Plays s file t := by
  cases h with
  | child one _ _ => exact .child one
  | track one whole =>
      refine .track one fun ended => ?_
      obtain ⟨pid, playing⟩ := whole ended
      rw [playing]
      trivial
  | leaves phase =>
      have one := Plays.track (.leave phase) fun _ => by rw [phase]; trivial
      rw [phase] at one
      exact one

namespace Album
variable (p : Album)

/-- Where a track process of the play can be after `k` songs. -/
def Flies (k : Nat) (r : Shm) (x : Track) : Prop :=
  match x.phase with
  | .forked => x.memory.musicHead = p.names ∧ p.Chooses r x.musicName k
  | .locked => x.memory.musicHead = p.names ∧ p.Chooses r x.musicName k
  | .read curInfo => x.memory.musicHead = p.names ∧ p.Chooses curInfo x.musicName k ∧ curInfo.Sized
  | .placed curInfo _ => p.song k = some (cstr curInfo.curMusic) ∧ curInfo.Sized
  | .stored _ => k ≠ 0
  | .playing _ => k ≠ 0
  | .leaving _ => k ≠ 0 ∧ p.song k = none
  | .absent => True
  | .ended => True

/-- Child `c` plays the list, and `k` songs have been put in the record. -/
structure On (c k : Nat) (s : Sys) : Prop where
  others : ∀ d, d ≠ c → (s.child d).phase = .absent ∨ (s.child d).phase.Gone
  list : (s.child c).memory.musicHead = p.names
  steady : (s.child c).phase ≠ .astray
  unsignalled : (s.child c).phase = .new → (s.child c).pending = false
  waits : ∀ t, (s.track t).phase.Live → (s.child c).phase = .waiting t ∨ (s.child c).phase = .exited
  single : ∀ t u, (s.track t).phase.Live → (s.track u).phase.Live → t = u
  sized : s.shm.Sized
  recorded : p.Recorded s.shm k
  room : (s.child c).musicName.length = 128
  cleared : ∀ t, (s.track t).phase.Live → cstr (s.child c).musicName = []
  next : (∀ t, ¬ (s.track t).phase.Live) → p.Chooses s.shm (s.child c).musicName k
  tracks : ∀ t, p.Flies k s.shm (s.track t)

variable {p}

theorem flies_dead {k : Nat} {r : Shm} {x : Track} (dead : ¬ x.phase.Live) : p.Flies k r x := by
  unfold Flies
  cases phase : x.phase with
  | absent => trivial
  | ended => trivial
  | _ =>
      rw [phase] at dead
      exact absurd trivial dead

/-- A step of the child that forks nothing. -/
theorem On.turn {c k : Nat} {s : Sys} (h : p.On c k s) {y : Child}
    (list : y.memory.musicHead = p.names) (buffer : y.musicName = (s.child c).musicName) (steady : y.phase ≠ .astray)
    (unsignalled : y.phase = .new → y.pending = false)
    (waits : ∀ t, (s.track t).phase.Live → y.phase = .waiting t ∨ y.phase = .exited) :
    p.On c k (s.setChild c y) where
  others := by
    intro d other
    rw [setChild_other s other]
    exact h.others d other
  list := by rw [setChild_self]; exact list
  steady := by rw [setChild_self]; exact steady
  unsignalled := by rw [setChild_self]; exact unsignalled
  waits := by rw [setChild_self]; exact waits
  single := h.single
  sized := h.sized
  recorded := h.recorded
  room := by rw [setChild_self, buffer]; exact h.room
  cleared := by rw [setChild_self, buffer]; exact h.cleared
  next := by rw [setChild_self, buffer]; exact h.next
  tracks := h.tracks

/-- `memset` over the whole string leaves the empty one. -/
theorem cstr_wiped (buf : Bytes) : cstr (store buf 0 (zeros (cstr buf).length)) = [] := by
  cases text : cstr buf with
  | nil => rw [List.length_nil, zeros, List.replicate_zero, store_nil, text]
  | cons a rest =>
      rw [List.length_cons, zeros, List.replicate_succ, store, List.take_zero, List.nil_append, List.cons_append]
      exact cstr_append_zero (b := []) List.not_mem_nil _

theorem length_wiped (buf : Bytes) : (store buf 0 (zeros (cstr buf).length)).length = buf.length :=
  length_store (by rw [length_zeros, Nat.zero_add]; exact length_cstr_le buf)

/-- The child forks a track process only when no other is left. -/
theorem On.fork {c k t : Nat} {s : Sys} (h : p.On c k s) (phase : (s.child c).phase = .body) {y : Track}
    (forked : y.phase = .forked) (list : y.memory = (s.child c).memory) (buffer : y.musicName = (s.child c).musicName) :
    p.On c k ((s.setTrack t y).setChild c
      { s.child c with
        phase := .waiting t
        musicName := store (s.child c).musicName 0 (zeros (cstr (s.child c).musicName).length) }) := by
  have alone : ∀ u, ¬ (s.track u).phase.Live := by
    intro u live
    rcases h.waits u live with waits | waits <;> cases phase.symm.trans waits
  have only : ∀ u, ((s.setTrack t y).track u).phase.Live → u = t := by
    intro u live
    by_contra other
    rw [setTrack_other s other] at live
    exact alone u live
  refine ⟨fun d other => ?_, ?_, ?_, ?_, fun u live => ?_, fun u v one two => ?_, h.sized, h.recorded, ?_, ?_, ?_,
    ?_⟩
  · rw [setChild_other _ other]
    exact h.others d other
  · rw [setChild_self]
    exact h.list
  · simp
  · simp
  · rw [setChild_self, only u live]
    exact .inl rfl
  · rw [only u one, only v two]
  · rw [setChild_self]
    exact (length_wiped _).trans h.room
  · intro _ _
    rw [setChild_self]
    exact cstr_wiped _
  · intro none_
    have live : ((s.setTrack t y).track t).phase.Live := by
      rw [setTrack_self, forked]
      trivial
    exact absurd live (none_ t)
  · intro u
    by_cases same : u = t
    · have flies : p.Flies k s.shm y := by
        rw [Flies, forked]
        exact ⟨list ▸ h.list, buffer ▸ h.next alone⟩
      rw [same]
      exact (setTrack_self s t y).symm ▸ flies
    · exact (setTrack_other s same _).symm ▸ h.tracks u

/-- Only the child of the play moves. -/
theorem On.only {c k d : Nat} {e : ChildStep} {s t : Sys} (h : p.On c k s) (one : ChildSteps s d e t) : d = c := by
  by_contra other
  exact child_running one (h.others d other)

theorem On.child {c k d : Nat} {e : ChildStep} {s t : Sys} (h : p.On c k s) (one : ChildSteps s d e t) :
    p.On c k t := by
  have alone : ∀ phase, (s.child c).phase = phase → phase ≠ .exited → (∀ u, phase ≠ .waiting u) →
      ∀ u, ¬ (s.track u).phase.Live := by
    rintro phase rfl running free u live
    rcases h.waits u live with waits | waits
    · exact free u waits
    · exact running waits
  cases h.only one
  cases one with
  | install phase =>
      exact h.turn h.list rfl (by simp) (by simp) fun u live => absurd live (alone _ phase (by simp) (by simp) u)
  | goOn phase _ =>
      exact h.turn h.list rfl (by simp) (by simp) fun u live => absurd live (alone _ phase (by simp) (by simp) u)
  | exit _ _ => exact h.turn h.list rfl (by simp) (by simp) fun u live => .inr rfl
  | fork phase _ _ => exact h.fork phase rfl rfl rfl
  | forkFails _ => exact h.turn h.list rfl (by simp) (by simp) fun u live => .inr rfl
  | wait phase ended =>
      refine h.turn h.list rfl (by simp) (by simp) fun u live => ?_
      rcases h.waits u live with waits | waits
      · cases phase.symm.trans waits
        rw [ended] at live
        exact live.elim
      · cases phase.symm.trans waits
  | quit _ _ _ _ => exact h.turn h.list rfl (by simp) (by simp) fun u live => .inr rfl
  | clear _ _ _ _ => exact h.turn h.list rfl h.steady (fun _ => rfl) h.waits
  | update pending _ phase =>
      rw [h.unsignalled phase] at pending
      cases pending
  | back _ phase => exact absurd phase h.steady

/-- What the first song leaves for the next track process. -/
theorem On.chooses {c k n : Nat} {s : Sys} (h : p.On c k s) (live : (s.track n).phase.Live) (started : k ≠ 0) :
    p.Chooses s.shm (s.child c).musicName k := by
  obtain ⟨j, rfl⟩ := Nat.exists_eq_succ_of_ne_zero started
  exact ⟨h.recorded, h.cleared n live, h.room⟩

/-- A step of a track process that stores nothing. -/
theorem On.move {c k n : Nat} {s t : Sys} {y : Track} (h : p.On c k s) (live : (s.track n).phase.Live)
    (children : ∀ d, ∃ pending, t.child d = { s.child d with pending := pending }) (shm : t.shm = s.shm)
    (track : t.track = Function.update s.track n y) (flies : p.Flies k s.shm y)
    (settled : ¬ y.phase.Live → k ≠ 0) : p.On c k t := by
  obtain ⟨pending, child⟩ := children c
  have here : t.track n = y := by rw [track, Function.update_self]
  have others : ∀ u, u ≠ n → t.track u = s.track u := fun u other => by rw [track, Function.update_of_ne other]
  have only : ∀ u, (t.track u).phase.Live → u = n := by
    intro u alive
    by_contra other
    rw [others u other] at alive
    exact other (h.single u n alive live)
  refine ⟨fun d other => ?_, ?_, ?_, fun phase => ?_, fun u alive => ?_, fun u v one two => ?_, ?_, ?_, ?_,
    fun u alive => ?_, fun none_ => ?_, fun u => ?_⟩
  · obtain ⟨_, same⟩ := children d
    rw [same]
    exact h.others d other
  · rw [child]
    exact h.list
  · rw [child]
    exact h.steady
  · rw [child] at phase
    rcases h.waits n live with waits | waits <;> cases waits.symm.trans phase
  · rw [child, only u alive]
    exact h.waits n live
  · rw [only u one, only v two]
  · rw [shm]
    exact h.sized
  · rw [shm]
    exact h.recorded
  · rw [child]
    exact h.room
  · rw [child]
    exact h.cleared n live
  · rw [shm, child]
    exact h.chooses live (settled (here ▸ none_ n))
  · rw [shm]
    by_cases same : u = n
    · rw [same, here]
      exact flies
    · rw [others u same]
      exact h.tracks u

/-- The step that stores song `k`. -/
theorem On.store {c k n : Nat} {s t : Sys} {curInfo : Shm} {own : Bool} {y : Track} {pid : Int} (h : p.On c k s)
    (phase : (s.track n).phase = .placed curInfo own) (child : t.child = s.child) (shm : t.shm = curInfo)
    (track : t.track = Function.update s.track n y) (stored : y.phase = .stored pid) :
    p.song k = some (cstr curInfo.curMusic) ∧ p.On c (k + 1) t := by
  have live : (s.track n).phase.Live := by
    rw [phase]
    trivial
  have flies := h.tracks n
  rw [Flies, phase] at flies
  obtain ⟨next, sized⟩ := flies
  have here : t.track n = y := by rw [track, Function.update_self]
  have others : ∀ u, u ≠ n → t.track u = s.track u := fun u other => by rw [track, Function.update_of_ne other]
  have only : ∀ u, (t.track u).phase.Live → u = n := by
    intro u alive
    by_contra other
    rw [others u other] at alive
    exact other (h.single u n alive live)
  refine ⟨next, ?_⟩
  refine ⟨?_, ?_, ?_, ?_, fun u alive => ?_, fun u v one two => ?_, ?_, ?_, ?_, fun u alive => ?_, fun none_ => ?_,
    fun u => ?_⟩
  · rw [child]
    exact h.others
  · rw [child]
    exact h.list
  · rw [child]
    exact h.steady
  · rw [child]
    exact h.unsignalled
  · rw [child, only u alive]
    exact h.waits n live
  · rw [only u one, only v two]
  · rw [shm]
    exact sized
  · rw [shm]
    exact next
  · rw [child]
    exact h.room
  · rw [child]
    exact h.cleared n live
  · refine absurd ?_ (none_ n)
    rw [here, stored]
    trivial
  · by_cases same : u = n
    · rw [same, here, Flies, stored]
      exact Nat.succ_ne_zero k
    · -- the other track processes have ended
      rw [others u same]
      exact flies_dead fun alive => same (h.single u n alive live)

/-- One step of a track process: it stores the song that is due, or nothing. -/
theorem On.track {c k n : Nat} {s t : Sys} (h : p.On c k s) (one : TrackSteps s n t)
    (whole : (t.track n).phase = .ended → (s.track n).phase.Over) :
    ((s.track n).phase.stores = none ∧ p.On c k t) ∨
      ∃ file, (s.track n).phase.stores = some file ∧ p.song k = some file ∧ p.On c (k + 1) t := by
  have flies := h.tracks n
  have live := track_running one
  have quiet : ∀ d, ∃ pending, s.child d = { s.child d with pending := pending } := fun d => ⟨_, rfl⟩
  have told : ∀ pid d, ∃ pending, (s.signal pid).child d = { s.child d with pending := pending } :=
    fun pid d => ⟨_, rfl⟩
  cases one with
  | semP phase _ =>
      rw [Flies, phase] at flies
      exact .inl ⟨congrArg TrackPhase.stores phase, h.move live quiet rfl rfl flies fun dead => absurd trivial dead⟩
  | getShm phase =>
      rw [Flies, phase] at flies
      exact .inl ⟨congrArg TrackPhase.stores phase,
        h.move live quiet rfl rfl ⟨flies.1, flies.2, h.sized⟩ fun dead => absurd trivial dead⟩
  | finish phase none_ =>
      rw [Flies, phase] at flies
      rw [flies.1] at none_
      have last : k ≠ 0 ∧ p.song k = none := by
        rcases flies.2.1.trackName with ⟨ended, started, -⟩ | ⟨_, _, -, some_, -⟩
        · exact ⟨started, ended⟩
        · cases none_.symm.trans some_
      exact .inl ⟨congrArg TrackPhase.stores phase, h.move live (told _) rfl rfl last fun _ => last.1⟩
  | leave phase =>
      rw [Flies, phase] at flies
      exact .inl ⟨congrArg TrackPhase.stores phase, h.move live (told _) rfl rfl trivial fun _ => flies.1⟩
  | place phase chosen set =>
      rw [Flies, phase] at flies
      rw [flies.1] at chosen
      refine .inl ⟨congrArg TrackPhase.stores phase, h.move live quiet rfl rfl ?_ fun dead => absurd trivial dead⟩
      rcases flies.2.1.trackName with ⟨-, -, none_⟩ | ⟨file, name, next, some_, holds⟩
      · cases none_.symm.trans chosen
      · cases some_.symm.trans chosen
        have placed := setCurrent_song (p.song_mem next) holds
          (by exact ⟨flies.2.2.signer, flies.2.2.music⟩) set
        exact ⟨placed.1.symm ▸ next, placed.2⟩
  | setShm phase => exact .inr ⟨_, congrArg TrackPhase.stores phase, h.store phase rfl rfl rfl rfl⟩
  | semV phase =>
      rw [Flies, phase] at flies
      exact .inl ⟨congrArg TrackPhase.stores phase, h.move live quiet rfl rfl flies fun _ => flies⟩
  | execFails phase =>
      rw [Flies, phase] at flies
      exact .inl ⟨congrArg TrackPhase.stores phase, h.move live (told _) rfl rfl trivial fun _ => flies⟩
  | dies live =>
      have ended := whole (congrArg Track.phase (setTrack_self s n _))
      have started : (s.track n).phase.stores = none ∧ k ≠ 0 := by
        unfold Flies at flies
        cases phase : (s.track n).phase with
        | playing pid =>
            rw [phase] at flies
            exact ⟨rfl, flies⟩
        | leaving pid =>
            rw [phase] at flies
            exact ⟨rfl, flies.1⟩
        | _ =>
            rw [phase] at ended
            exact ended.elim
      exact .inl ⟨started.1, h.move live quiet rfl rfl trivial fun _ => started.2⟩

theorem On.plays {c k : Nat} {s t : Sys} {file : Option Bytes} (h : p.On c k s) (one : Plays s file t) :
    (file = none ∧ p.On c k t) ∨ ∃ song, file = some song ∧ p.song k = some song ∧ p.On c (k + 1) t := by
  cases one with
  | child moved => exact .inl ⟨rfl, h.child moved⟩
  | track moved whole => exact h.track moved whole

/-- Whatever is played is the beginning of the one order. -/
theorem On.run {c : Nat} {s t : Sys} {heard : List (Option Bytes)} (h : p.On c 0 s) (run : Trace Plays s heard t) :
    p.Played heard.reduceOption ∧ p.On c heard.reduceOption.length t := by
  refine run.history_nil (I := fun heard s => p.Played heard.reduceOption ∧ p.On c heard.reduceOption.length s) ?_
    ⟨p.played_nil, h⟩
  rintro past s file t ⟨played, on⟩ one
  rw [List.reduceOption_append, List.reduceOption_singleton]
  rcases on.plays one with ⟨rfl, after⟩ | ⟨song, rfl, next, after⟩
  · rw [Option.toList_none, List.append_nil]
    exact ⟨played, after⟩
  · rw [Option.toList_some, List.length_append]
    exact ⟨played.snoc next, after⟩

/-! ## One song after the other -/

/-- The processes are numbered, and have pids, below some number. -/
def Below (n : Nat) (s : Sys) : Prop :=
  1 < n ∧ s.pid < n ∧ (∀ d, (s.child d).pid < n) ∧ ∀ t, n ≤ t → (s.track t).phase = .absent

/-- The child is about to fork. -/
structure Forking (p : Album) (c k : Nat) (s : Sys) : Prop where
  on : p.On c k s
  body : (s.child c).phase = .body
  starts : (s.child c).memory.startFlag = true
  calm : ¬ (s.child c).Signalled
  free : s.sem = 1
  below : ∃ n, Below n s

/-- Child `c` waits for track process `n`, which is in phase `q`. -/
structure Flight (p : Album) (c k n : Nat) (q : TrackPhase) (sem : Int) (s : Sys) : Prop where
  on : p.On c k s
  phase : (s.track n).phase = q
  waits : (s.child c).phase = .waiting n
  starts : (s.child c).memory.startFlag = true
  calm : ¬ (s.child c).Signalled
  sem : s.sem = sem
  below : Below (n + 1) s

theorem On.silent {c k : Nat} {s t : Sys} (h : p.On c k s) (one : Smooth s none t) : p.On c k t := by
  rcases h.plays one.plays with ⟨-, after⟩ | ⟨_, other, -⟩
  · exact after
  · cases other

theorem Below.track {n m : Nat} {s t : Sys} {y : Track} (h : Below m s) (inside : n < m) (pid : t.pid = s.pid)
    (children : ∀ d, (t.child d).pid = (s.child d).pid) (track : t.track = Function.update s.track n y) :
    Below m t := by
  obtain ⟨big, parent, pids, unused⟩ := h
  refine ⟨big, pid ▸ parent, fun d => ?_, fun u bound => ?_⟩
  · rw [children]
    exact pids d
  · rw [track, Function.update_of_ne (by omega)]
    exact unused u bound

theorem Below.child {c m : Nat} {s : Sys} {y : Child} (h : Below m s) (pid : y.pid = (s.child c).pid) :
    Below m (s.setChild c y) := by
  obtain ⟨big, parent, pids, unused⟩ := h
  refine ⟨big, parent, fun d => ?_, unused⟩
  by_cases same : d = c
  · rw [same, setChild_self, pid]
    exact pids c
  · rw [setChild_other _ same]
    exact pids d

/-- The next phase of the track process that the child waits for. -/
theorem Flight.move {c k k' n : Nat} {q : TrackPhase} {v : Int} {s t : Sys} {y : Track} (h : Flight p c k n q v s)
    (on : p.On c k' t) (pid : t.pid = s.pid) (child : t.child = s.child)
    (track : t.track = Function.update s.track n y) : Flight p c k' n y.phase t.sem t where
  on := on
  phase := by rw [track, Function.update_self]
  waits := by rw [child]; exact h.waits
  starts := by rw [child]; exact h.starts
  calm := by rw [child]; exact h.calm
  sem := rfl
  below := h.below.track (Nat.lt_succ_self n) pid (fun d => by rw [child]) track

/-- A step that stores nothing, and does not cut the process short. -/
theorem Flight.next {c k n : Nat} {q : TrackPhase} {v : Int} {s t : Sys} {y : Track} (h : Flight p c k n q v s)
    (one : TrackSteps s n t) (pid : t.pid = s.pid) (child : t.child = s.child)
    (track : t.track = Function.update s.track n y) (silent : q.stores = none)
    (whole : y.phase = .ended → ∃ pid, q = .playing pid) : Smooth s none t ∧ Flight p c k n y.phase t.sem t := by
  have same : t.track n = y := by rw [track, Function.update_self]
  have plays : Smooth s (s.track n).phase.stores t := .track one (by rw [same, h.phase]; exact whole)
  rw [h.phase, silent] at plays
  exact ⟨plays, h.move (h.on.silent plays) pid child track⟩

theorem Forking.flight {c k : Nat} {s : Sys} (h : Forking p c k s) :
    ∃ n t, Smooth s none t ∧ Flight p c k n .forked 1 t := by
  obtain ⟨n, big, parent, pids, unused⟩ := h.below
  have alone : ∀ u, ¬ (s.track u).phase.Live := by
    intro u live
    rcases h.on.waits u live with waits | waits <;> cases h.body.symm.trans waits
  have fresh : s.Fresh (n : Int) := by
    refine ⟨by omega, by omega, fun d _ => ?_, fun u live => absurd live (alone u)⟩
    have := pids d
    omega
  have one := ChildSteps.fork h.body fresh (unused n (Nat.le_refl n))
  refine ⟨n, _, .child one (fun _ => by simp) (fun other => by cases other), h.on.child one, ?_, ?_, ?_, ?_, h.free,
    by omega, ?_, fun d => ?_, fun u bound => ?_⟩
  · exact congrArg Track.phase (setTrack_self s n _)
  · rw [setChild_self]
  · rw [setChild_self]
    exact h.starts
  · rw [setChild_self]
    exact h.calm
  · exact Int.lt_trans parent (by omega)
  · by_cases same : d = c
    · rw [same, setChild_self]
      exact Int.lt_trans (pids c) (by omega)
    · rw [setChild_other _ same]
      exact Int.lt_trans (pids d) (by omega)
  · exact (congrArg Track.phase (setTrack_other s (by omega) _)).trans (unused u (by omega))

/-- The record is read under the lock. -/
theorem Flight.reads {c k n : Nat} {s : Sys} (h : Flight p c k n .forked 1 s) :
    ∃ t curInfo, Trace Smooth s [none, none] t ∧ Flight p c k n (.read curInfo) 0 t := by
  have free : 0 < s.sem := by
    rw [h.sem]
    decide
  obtain ⟨lock, locked⟩ := h.next (.semP h.phase free) rfl rfl rfl rfl (by simp)
  obtain ⟨read, reading⟩ := locked.next (.getShm locked.phase) rfl rfl rfl rfl (by simp)
  refine ⟨_, s.shm, .cons lock (.cons read (.nil _)), ?_⟩
  have held : s.sem - 1 = 0 := by rw [h.sem]; decide
  exact held ▸ reading

theorem Flight.stores {c k n : Nat} {curInfo : Shm} {own : Bool} {v : Int} {s : Sys}
    (h : Flight p c k n (.placed curInfo own) v s) :
    ∃ t, Smooth s (some (cstr curInfo.curMusic)) t ∧ Flight p c (k + 1) n (.stored curInfo.childPid) v t := by
  have one := TrackSteps.setShm h.phase
  have plays := Smooth.track one fun ended => by cases (congrArg Track.phase (setTrack_self s n _)).symm.trans ended
  rw [h.phase] at plays
  refine ⟨_, plays, ?_⟩
  rcases h.on.plays plays.plays with ⟨other, -⟩ | ⟨_, -, -, on⟩
  · cases other
  · cases h.sem
    exact h.move on rfl rfl rfl

/-- The child's `wait` comes back, and its loop goes on. -/
theorem Flight.back {c k n : Nat} {s : Sys} (h : Flight p c k n .ended 1 s) :
    ∃ t, Trace Smooth s [none, none] t ∧ Forking p c k t := by
  have wait := ChildSteps.wait h.waits h.phase
  have test : ChildSteps (s.setChild c { s.child c with phase := .loop }) c .test _ :=
    .goOn (by rw [setChild_self]) (by rw [setChild_self]; exact h.starts)
  refine ⟨_, .cons (.child wait (fun other => by cases other) fun _ => h.calm)
    (.cons (.child test (fun other => by cases other) fun other => by cases other) (.nil _)),
    (h.on.child wait).child test, ?_, ?_, ?_, h.sem, n + 1, ?_⟩
  · rw [setChild_self]
  · rw [setChild_self, setChild_self]
    exact h.starts
  · rw [setChild_self, setChild_self]
    exact h.calm
  · exact (h.below.child (y := { s.child c with phase := .loop }) rfl).child (by rw [setChild_self])

/-- The song that is due is put in the record, played to its end, and the child is back in its loop. -/
theorem Flight.plays {c k n : Nat} {curInfo : Shm} {file : Bytes} {s : Sys} (h : Flight p c k n (.read curInfo) 0 s)
    (due : p.song k = some file) :
    ∃ t, Trace Smooth s [none, some file, none, none, none, none] t ∧ Forking p c (k + 1) t := by
  have flies := h.on.tracks n
  rw [Flies, h.phase] at flies
  obtain ⟨list, chooses, sized⟩ := flies
  obtain ⟨name, chosen, holds⟩ : ∃ name, trackName curInfo p.names (s.track n).musicName = .ok (some name) ∧
      Holds name (p.name file) := by
    rcases chooses.trackName with ⟨none_, -⟩ | ⟨file', name, due', chosen, holds⟩
    · cases none_.symm.trans due
    · cases due'.symm.trans due
      exact ⟨name, chosen, holds⟩
  rw [← list] at chosen
  obtain ⟨record, set⟩ : ∃ record,
      setCurrent { curInfo with childPid := s.parentPid n, grandPid := (s.track n).pid } name = .ok record :=
    ⟨_, setCurrent_holds (t := p.track file (p.song_mem due)) holds sized.signer sized.music⟩
  have music := setCurrent_song (p.song_mem due) holds (by exact ⟨sized.signer, sized.music⟩) set
  obtain ⟨place, placed⟩ := h.next (.place h.phase chosen set) rfl rfl rfl rfl (by simp)
  obtain ⟨s₁, store, stored⟩ := placed.stores
  rw [music.1] at store
  obtain ⟨unlock, playing⟩ := stored.next (.semV stored.phase) rfl rfl rfl rfl (by simp)
  have live : (s₁.setTrack n { s₁.track n with phase := .playing record.childPid } |>.track n).phase.Live := by
    rw [setTrack_self]
    trivial
  obtain ⟨die, ended⟩ := playing.next (.dies live) rfl rfl rfl rfl fun _ => ⟨_, rfl⟩
  have held : s₁.sem = 0 := stored.sem.trans h.sem
  obtain ⟨t, rest, forking⟩ := Flight.back ⟨ended.on, ended.phase, ended.waits, ended.starts, ended.calm,
    by simp [held, TrackPhase.locks], ended.below⟩
  exact ⟨t, .cons place (.cons store (.cons unlock (.cons die rest))), forking⟩

end Album

/-! ## A play from `StartPlay` on -/

/-- A track process has found that no song follows, and has told the parent. -/
def Sys.Told (s : Sys) : Prop := ∃ n pid, (s.track n).phase = .leaving pid

namespace Album

/-- The speaker before a play: no child and no track process is running. -/
structure Rests (s : Sys) : Prop where
  children : ∀ d, (s.child d).phase = .absent ∨ (s.child d).phase.Gone
  tracks : ∀ t, ¬ (s.track t).phase.Live
  sized : s.shm.Sized
  free : s.sem = 1
  below : ∃ n, Below n s ∧ ∀ d, n ≤ d → (s.child d).phase = .absent

/-- Child `c` has just been forked with the list and the name of its first song. -/
structure Begun (p : Album) (c : Nat) (s : Sys) : Prop where
  others : ∀ d, d ≠ c → (s.child d).phase = .absent ∨ (s.child d).phase.Gone
  new : (s.child c).phase = .new
  unsignalled : (s.child c).pending = false
  list : (s.child c).memory.musicHead = p.names
  starts : (s.child c).memory.startFlag = true
  first : ∃ file, p.files.head? = some file ∧ Holds (s.child c).musicName (p.name file)
  room : (s.child c).musicName.length = 128
  tracks : ∀ t, ¬ (s.track t).phase.Live
  sized : s.shm.Sized
  free : s.sem = 1
  below : ∃ n, Below n s

variable {p : Album}

/-- A play that begins: nothing else is running, and the child has the first song's name. -/
theorem On.fresh {c : Nat} {s : Sys} (others : ∀ d, d ≠ c → (s.child d).phase = .absent ∨ (s.child d).phase.Gone)
    (new : (s.child c).phase = .new) (unsignalled : (s.child c).pending = false)
    (list : (s.child c).memory.musicHead = p.names)
    (first : ∃ file, p.files.head? = some file ∧ Holds (s.child c).musicName (p.name file))
    (room : (s.child c).musicName.length = 128) (tracks : ∀ t, ¬ (s.track t).phase.Live) (sized : s.shm.Sized) :
    p.On c 0 s where
  others := others
  list := list
  steady := by rw [new]; simp
  unsignalled := fun _ => unsignalled
  waits := fun t live => absurd live (tracks t)
  single := fun t _ live => absurd live (tracks t)
  sized := sized
  recorded := trivial
  room := room
  cleared := fun t live => absurd live (tracks t)
  next := by
    obtain ⟨file, first, holds⟩ := first
    refine fun _ => ⟨file, ?_, holds⟩
    rw [song, visit, ← List.head?_eq_getElem?, first]
  tracks := fun t => flies_dead (tracks t)

theorem Begun.on {c : Nat} {s : Sys} (h : Begun p c s) : p.On c 0 s :=
  .fresh h.others h.new h.unsignalled h.list h.first h.room h.tracks h.sized

/-- Track process `n` has told the parent that no song follows. -/
structure Telling (p : Album) (c k n : Nat) (pid : Int) (s : Sys) : Prop where
  on : p.On c k s
  phase : (s.track n).phase = .leaving pid
  held : s.sem = 0
  below : Below (n + 1) s

theorem Flight.tells {c k n : Nat} {curInfo : Shm} {s : Sys} (h : Flight p c k n (.read curInfo) 0 s)
    (ended : p.song k = none) : ∃ t, Smooth s none t ∧ Telling p c k n curInfo.childPid t := by
  have flies := h.on.tracks n
  rw [Flies, h.phase] at flies
  obtain ⟨list, chooses, -⟩ := flies
  rcases chooses.trackName with ⟨-, -, none_⟩ | ⟨_, _, due, -⟩
  · rw [← list] at none_
    have phase : (((s.signal curInfo.parentPid).setTrack n
        { s.track n with phase := .leaving curInfo.childPid }).track n).phase = .leaving curInfo.childPid :=
      congrArg Track.phase (setTrack_self (s.signal _) n _)
    have one := Smooth.track (TrackSteps.finish h.phase none_) fun ended => by cases phase.symm.trans ended
    rw [h.phase] at one
    refine ⟨_, one, h.on.silent one, phase, h.sem, ?_⟩
    exact h.below.track (y := { s.track n with phase := .leaving curInfo.childPid }) (Nat.lt_succ_self n) rfl
      (fun _ => rfl) rfl
  · cases ended.symm.trans due

/-- A list whose songs are all found at their own places is played to its end. -/
theorem Forking.ends (apart : p.Apart) {c k : Nat} {s : Sys} (h : Forking p c k s) (inside : k ≤ p.files.length) :
    ∃ heard t n pid, Trace Smooth s heard t ∧ heard.reduceOption = p.files.drop k ∧
      Telling p c p.files.length n pid t := by
  induction left : p.files.length - k generalizing k s with
  | zero =>
      have here : k = p.files.length := by omega
      have ended : p.song k = none := by
        rw [song, visit_straight (p.apart_iff_back.mp apart) inside]
        exact List.getElem?_eq_none_iff.mpr (by omega)
      obtain ⟨n, s₁, forked, flight⟩ := h.flight
      obtain ⟨s₂, curInfo, reads, reading⟩ := flight.reads
      obtain ⟨t, tells, telling⟩ := reading.tells ended
      refine ⟨_, t, n, _, .cons forked (reads.append (.cons tells (.nil t))), ?_, here ▸ telling⟩
      rw [here, List.drop_length]
      rfl
  | succ left ih =>
      have here : visit p.back k = k := visit_straight (p.apart_iff_back.mp apart) inside
      have due : p.song k = some p.files[k] := by
        rw [song, here]
        exact List.getElem?_eq_getElem (by omega)
      obtain ⟨n, s₁, forked, flight⟩ := h.flight
      obtain ⟨s₂, curInfo, reads, reading⟩ := flight.reads
      obtain ⟨s₃, plays, forking⟩ := reading.plays due
      obtain ⟨heard, t, m, pid, rest, songs, telling⟩ := ih forking (by omega) (by omega)
      refine ⟨_, t, m, pid, .cons forked (reads.append (plays.append rest)), ?_, telling⟩
      rw [List.drop_eq_getElem_cons (by omega), ← songs]
      simp [List.reduceOption]

theorem Begun.forking {c : Nat} {s : Sys} (h : Begun p c s) :
    ∃ t, Trace Smooth s [none, none] t ∧ Forking p c 0 t := by
  have install := ChildSteps.install h.new
  have test : ChildSteps (s.setChild c { s.child c with phase := .loop }) c .test _ :=
    .goOn (by rw [setChild_self]) (by rw [setChild_self]; exact h.starts)
  obtain ⟨n, below⟩ := h.below
  refine ⟨_, .cons (.child install (fun other => by cases other) fun other => by cases other)
    (.cons (.child test (fun other => by cases other) fun other => by cases other) (.nil _)),
    (h.on.child install).child test, ?_, ?_, ?_, h.free, n, ?_⟩
  · rw [setChild_self]
  · rw [setChild_self, setChild_self]
    exact h.starts
  · rintro ⟨pending, -⟩
    rw [setChild_self, setChild_self] at pending
    exact absurd (h.unsignalled.symm.trans pending) (by decide)
  · exact (below.child (y := { s.child c with phase := .loop }) rfl).child (by rw [setChild_self])

/-- From its start such a list is played to its end. -/
theorem Begun.ends (apart : p.Apart) {c : Nat} {s : Sys} (h : Begun p c s) :
    ∃ heard t n pid, Trace Smooth s heard t ∧ heard.reduceOption = p.files ∧ Telling p c p.files.length n pid t := by
  obtain ⟨s₁, starts, forking⟩ := h.forking
  obtain ⟨heard, t, n, pid, run, songs, telling⟩ := forking.ends apart (Nat.zero_le _)
  exact ⟨_, t, n, pid, starts.append run, songs, telling⟩

/-- The parent has forked `x` as child `c`. -/
structure Forked (s : Sys) (c : Nat) (x : Child) (t : Sys) : Prop where
  absent : (s.child c).phase = .absent
  fresh : s.Fresh x.pid
  new : x.phase = .new
  quiet : x.pending = false
  child : t.child = Function.update s.child c x
  track : t.track = s.track
  shm : t.shm = s.shm
  sem : t.sem = s.sem
  pid : t.pid = s.pid
  pending : t.pending = s.pending
  writer : t.writer = s.writer
  stopped : t.stopped = s.stopped

theorem holds_copied (name : Bytes) : Holds (store (zeros 128) 0 (name ++ [0])) name :=
  ⟨(zeros 128).drop (name ++ [0]).length, by simp [store]⟩

theorem length_copied {name : Bytes} (short : name.length < 128) :
    (store (zeros 128) 0 (name ++ [0])).length = 128 := by
  rw [length_store, length_zeros]
  rw [length_zeros, List.length_append, List.length_singleton]
  omega

/-- The fork of a speaker at rest begins a play. -/
theorem Rests.fork {s : Sys} {m : Memory} (rests : Rests s) (list : m.musicHead = p.names)
    (starts : m.startFlag = true) {file : Bytes} (first : p.files.head? = some file) :
    ∃ c x t, Effect s m (.fork (store (zeros 128) 0 (p.name file ++ [0]))) () t ∧ Forked s c x t ∧ Begun p c t ∧
      x.blocked = s.handler.isSome ∧ x.memory = m ∧ t.latest = some c ∧ t.main = s.main ∧ t.handler = s.handler := by
  obtain ⟨n, ⟨big, parent, pids, unused⟩, absent⟩ := rests.below
  have fits := p.fits _ (p.name_mem (List.mem_of_mem_head? first))
  have fresh : s.Fresh (n : Int) :=
    ⟨by omega, Int.ne_of_gt parent, fun d _ => Int.ne_of_lt (pids d), fun t live => absurd live (rests.tracks t)⟩
  have vacant := absent n (Nat.le_refl n)
  have effect := @Effect.fork s m (store (zeros 128) 0 (p.name file ++ [0])) n n fresh vacant
  refine ⟨n, ⟨n, s.handler.isSome, false, .new, m, store (zeros 128) 0 (p.name file ++ [0])⟩, _, effect,
    ⟨vacant, fresh, rfl, rfl, rfl, rfl, rfl, rfl, rfl, rfl, rfl, rfl⟩, ?_, rfl, rfl, rfl, rfl, rfl⟩
  refine ⟨fun d other => ?_, ?_, ?_, ?_, ?_, ⟨file, first, ?_⟩, ?_, rests.tracks, rests.sized, rests.free, n + 1,
    by omega, Int.lt_trans parent (by omega), fun d => ?_, fun u bound => unused u (by omega)⟩
  · exact (congrArg (fun y : Child => y.phase = .absent ∨ y.phase.Gone) (setChild_other s other _)).mpr
      (rests.children d)
  · exact congrArg Child.phase (setChild_self s n _)
  · exact congrArg Child.pending (setChild_self s n _)
  · exact (congrArg (fun y : Child => y.memory.musicHead) (setChild_self s n _)).trans list
  · exact (congrArg (fun y : Child => y.memory.startFlag) (setChild_self s n _)).trans starts
  · exact (congrArg Child.musicName (setChild_self s n _)).symm ▸ holds_copied _
  · exact (congrArg (fun y : Child => y.musicName.length) (setChild_self s n _)).trans (length_copied (by omega))
  · by_cases same : d = n
    · rw [same]
      refine Int.lt_of_le_of_lt (Int.le_of_eq (congrArg Child.pid (setChild_self s n _))) ?_
      exact Int.lt_succ n
    · exact Int.lt_trans (Int.lt_of_le_of_lt (Int.le_of_eq (congrArg Child.pid (setChild_other s same _))) (pids d))
        (Int.lt_succ n)

/-- The calls of `StartPlay` where nothing is playing. -/
theorem startPlay_calls {m : Memory} {name : Bytes} {rest : List Bytes} (stopped : m.startFlag = false)
    (plain : m.suspendFlag = false) (head : m.musicHead = name :: rest) (fits : name.length < 128) :
    ∃ k, startPlay m = .call m .signal k ∧ k () m =
      .call { m with startFlag := true } (.fork (store (zeros 128) 0 (name ++ [0]))) fun _ s => .done s := by
  have copied : strcpy (zeros 128) name = .ok (store (zeros 128) 0 (name ++ [0])) := by
    rw [strcpy, if_pos (by rwa [length_zeros])]
  refine ⟨_, by rw [startPlay, plain, stopped]; rfl, ?_⟩
  rw [head]
  dsimp only
  rw [copied]
  rfl

theorem Begun.same {c : Nat} {s t : Sys} (h : Begun p c s) (child : t.child = s.child) (track : t.track = s.track)
    (shm : t.shm = s.shm) (sem : t.sem = s.sem) (pid : t.pid = s.pid) : Begun p c t := by
  cases s
  cases t
  cases child
  cases track
  cases shm
  cases sem
  cases pid
  exact ⟨h.others, h.new, h.unsignalled, h.list, h.starts, h.first, h.room, h.tracks, h.sized, h.free, h.below⟩

/-- `StartPlay` on a speaker at rest begins a play of the list. -/
theorem startPlay_begins (j : JsonC) {s : Sys} {m : Memory} (rests : Rests s) (idle : s.handler = none)
    (main : s.main = .done m) (stopped : m.startFlag = false) (plain : m.suspendFlag = false)
    (list : m.musicHead = p.names) (some_ : p.files ≠ []) :
    ∃ c x t, Trace (Steps j) s [.begin .start, .call, .call] t ∧ Forked s c x t ∧ Begun p c t ∧
      x.blocked = false ∧ t.handler = none ∧ t.main = .done { m with startFlag := true } := by
  obtain ⟨file, files, split⟩ := List.exists_cons_of_ne_nil some_
  have first : p.files.head? = some file := by rw [split, List.head?_cons]
  have head : m.musicHead = p.name file :: files.map p.name := by rw [list, SingerList.names, split, List.map_cons]
  have fits := p.fits _ (p.name_mem (List.mem_of_mem_head? first))
  obtain ⟨k, signals, forks⟩ := startPlay_calls stopped plain head (by omega)
  have silent := @Effect.aside { s with main := startPlay m } m .signal () trivial
  have signal := Steps.mainCall (j := j) (s := { s with main := startPlay m }) idle signals silent
  have rests' : Rests { s with main := k () m } := ⟨rests.children, rests.tracks, rests.sized, rests.free, rests.below⟩
  obtain ⟨c, x, t, effect, forked, begun, blocked, -, -, -, handler⟩ :=
    rests'.fork (m := { m with startFlag := true }) list rfl first
  have fork := Steps.mainCall (j := j) (s := { s with main := k () m }) idle forks effect
  have open_ : x.blocked = false := blocked.trans (by rw [idle]; rfl)
  have begun' := begun.same (t := { t with main := .done { m with startFlag := true } }) rfl rfl rfl rfl rfl
  exact ⟨c, x, _, .cons (.begin .start idle main) (.cons signal (.cons fork (.nil _))),
    ⟨forked.absent, forked.fresh, forked.new, forked.quiet, forked.child, forked.track, forked.shm, forked.sem,
      forked.pid, forked.pending, forked.writer, forked.stopped⟩, begun', open_, handler.trans idle, rfl⟩

end Album

/-- What can be heard of a list that plays by itself. -/
structure Through (p : Album) (heard : List Bytes) (told : Prop) : Prop where
  order : p.Apart → heard <+: p.files
  stuck : ∀ i j (inside : j < p.files.length) (before : i < j),
    strstr (p.name p.files[i]) p.files[j] = true → ∀ file ∈ heard, file ∈ p.files.take (j + 1)
  whole : told → p.Apart ∧ heard = p.files

/-- A list plays by itself in the order its songs are found in. Its end is
reached in some run exactly where no song's name contains the file of a later
one, and then every song has been played once; else the play never gets behind
the first such song. -/
theorem playthrough (p : Album) {c : Nat} {s : Sys} (begun : Album.Begun p c s) :
    (∀ heard t, Trace Plays s heard t → Through p heard.reduceOption t.Told) ∧
      ((∃ heard t, Trace Plays s heard t ∧ t.Told) ↔ p.Apart) := by
  have through : ∀ heard t, Trace Plays s heard t → Through p heard.reduceOption t.Told := by
    intro heard t run
    obtain ⟨played, on⟩ := begun.on.run run
    refine ⟨fun apart => played.prefix apart, fun i j inside before held => played.stuck before inside held, ?_⟩
    rintro ⟨n, pid, leaving⟩
    have flies := on.tracks n
    rw [Album.Flies, leaving] at flies
    exact played.whole flies.2
  refine ⟨through, ?_, ?_⟩
  · rintro ⟨heard, t, run, told⟩
    exact ((through heard t run).whole told).1
  · intro apart
    obtain ⟨heard, t, n, pid, run, -, telling⟩ := begun.ends apart
    exact ⟨heard, t, run.mono fun _ _ _ => Smooth.plays, n, pid, telling.phase⟩

/-- Two songs that are found at their own places. -/
def twoFiles : List Bytes := [lit "a.mp3", lit "b.mp3"]

theorem twoFiles_plain : 47 ∉ lit "s" := by decide

theorem twoFiles_nodup : twoFiles.Nodup := by decide

theorem twoFiles_text : ∀ name ∈ SingerList.names ⟨lit "s", twoFiles, twoFiles_plain, twoFiles_nodup⟩, 0 ∉ name := by
  decide

theorem twoFiles_fits :
    ∀ name ∈ SingerList.names ⟨lit "s", twoFiles, twoFiles_plain, twoFiles_nodup⟩, name.length < 127 := by
  decide

def twoTracks : Album where
  singer := lit "s"
  files := twoFiles
  plain := twoFiles_plain
  distinct := twoFiles_nodup
  text := twoFiles_text
  fits := twoFiles_fits

def beforeTwoTracks : Memory where
  startFlag := false
  suspendFlag := false
  deviceMode := .online
  musicHead := twoTracks.names

theorem rests_start (pid : Int) (positive : 0 ≤ pid) (m : Memory) : Album.Rests (Sys.start pid m) := by
  refine ⟨fun _ => .inl rfl, fun t live => live, ⟨length_zeros 128, length_zeros 128⟩, rfl, (pid + 2).toNat, ?_,
    fun _ _ => rfl⟩
  have big : ((pid + 2).toNat : Int) = pid + 2 := Int.toNat_of_nonneg (by omega)
  refine ⟨by omega, ?_, fun d => ?_, fun t _ => rfl⟩
  · change pid < _
    omega
  · change (0 : Int) < _
    omega

/-- The first play of two songs comes to its end. -/
theorem twoTracks_through :
    ∃ c s, Album.Begun twoTracks c s ∧
      (∀ heard t, Trace Plays s heard t → Through twoTracks heard.reduceOption t.Told) ∧
      ((∃ heard t, Trace Plays s heard t ∧ t.Told) ↔ twoTracks.Apart) := by
  let j : JsonC := ⟨.little, fun _ => none, fun _ => []⟩
  obtain ⟨c, -, s, -, -, begun, -⟩ := Album.startPlay_begins (p := twoTracks) j
    (rests_start 100 (by decide) beforeTwoTracks) rfl rfl rfl rfl rfl (by decide)
  exact ⟨c, s, begun, playthrough twoTracks begun⟩

end MusicPlayer.Speaker
