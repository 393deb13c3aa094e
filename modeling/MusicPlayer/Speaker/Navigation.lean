import MusicPlayer.Speaker.Playlist

/-! Going through a playlist: the searches of `FindNextMusic` and `FindPrevMusic`
by substring, and the two places that choose what is played next. -/
namespace MusicPlayer.Speaker
open CBytes FirstMatch

/-- The list cut at its first song whose name contains `cur`. -/
def FirstHolding (l : List Bytes) (cur : Bytes) (pre : List Bytes) (name : Bytes) (post : List Bytes) : Prop :=
  l = pre ++ name :: post ∧ strstr name cur = true ∧ ∀ x ∈ pre, strstr x cur = false

theorem FirstHolding.found {l pre post : List Bytes} {cur name : Bytes}
    (h : FirstHolding l cur pre name post) :
    firstMatch (fun name => strstr name cur) l = some (pre, name, post) := firstMatch_eq_some.mpr h

theorem FirstHolding.next {l pre post : List Bytes} {cur name : Bytes}
    (h : FirstHolding l cur pre name post) : findNextMusic l cur = .ok post.head? := by
  rw [findNextMusic, h.found]
  cases post <;> rfl

theorem prevFrom_found {cur p name : Bytes} {pre post : List Bytes} (hit : strstr name cur = true)
    (before : ∀ x ∈ pre, strstr x cur = false) :
    prevFrom cur p (pre ++ name :: post) = .ok ((p :: pre).getLast (List.cons_ne_nil _ _)) := by
  induction pre generalizing p with
  | nil => simp [prevFrom, hit]
  | cons first rest ih =>
      have miss := before first List.mem_cons_self
      rw [List.cons_append, prevFrom, miss, List.getLast_cons_cons]
      exact ih fun x member => before x (List.mem_cons_of_mem _ member)

theorem FirstHolding.prev {l pre post : List Bytes} {cur name : Bytes}
    (h : FirstHolding l cur pre name post) : findPrevMusic l cur = .ok pre.getLast? := by
  obtain ⟨rfl, hit, before⟩ := h
  cases pre with
  | nil => simp [findPrevMusic, hit]
  | cons first rest =>
      have miss := before first List.mem_cons_self
      have others : ∀ x ∈ rest, strstr x cur = false := fun x member =>
        before x (List.mem_cons_of_mem _ member)
      rw [List.cons_append, findPrevMusic_cons, miss, prevFrom_found hit others,
        List.getLast?_eq_some_getLast (List.cons_ne_nil _ _)]
      rfl

/-- A search that finds something has a first song that holds it. -/
theorem findNextMusic_ok {l : List Bytes} {cur : Bytes} {next : Option Bytes} :
    findNextMusic l cur = .ok next ↔ ∃ pre name post, FirstHolding l cur pre name post ∧ post.head? = next := by
  constructor
  · intro h
    cases found : firstMatch (fun name => strstr name cur) l with
    | none =>
        rw [findNextMusic, found] at h
        cases h
    | some parts =>
        obtain ⟨pre, name, post⟩ := parts
        have first : FirstHolding l cur pre name post := firstMatch_eq_some.mp found
        exact ⟨pre, name, post, first, Except.ok.inj (first.next.symm.trans h)⟩
  · rintro ⟨pre, name, post, first, rfl⟩
    exact first.next

/-! ## The playlist of one singer -/

/-- The part of a name behind its first `/`: what the shared record keeps as the track. -/
def trackPart (name : Bytes) : Bytes := (name.dropWhile (· ≠ 47)).drop 1

/-- The playlist `GetMusicName` builds for a singer. -/
structure SingerList where
  singer : Bytes
  files : List Bytes
  plain : 47 ∉ singer
  distinct : files.Nodup

namespace SingerList
variable (p : SingerList)

def name (file : Bytes) : Bytes := p.singer ++ lit "/" ++ file

def names : List Bytes := p.files.map p.name

theorem trackPart_name (file : Bytes) : trackPart (p.name file) = file := by
  have whole : p.singer.dropWhile (fun b => decide (b ≠ 47)) = [] := by
    rw [List.dropWhile_eq_nil_iff]
    intro b member
    have other : b ≠ 47 := fun same => p.plain (same ▸ member)
    simpa using other
  rw [trackPart, name, List.append_assoc, List.dropWhile_append, whole]
  rfl

/-- A song's own name contains its file. -/
theorem holds_own (file : Bytes) : strstr (p.name file) file = true := by
  simpa [strstr, name] using (List.suffix_append (p.singer ++ lit "/") file).isInfix

theorem names_nodup : p.names.Nodup := by
  refine p.distinct.map fun a b same => ?_
  rw [← p.trackPart_name a, same, p.trackPart_name]

/-- A song whose file no earlier name contains is the first that holds it. -/
theorem first_split {pre post : List Bytes} {file : Bytes} (split : p.files = pre ++ file :: post)
    (unheld : ∀ earlier ∈ pre, strstr (p.name earlier) file = false) :
    FirstHolding p.names file (pre.map p.name) (p.name file) (post.map p.name) := by
  refine ⟨by rw [names, split, List.map_append, List.map_cons], p.holds_own _, ?_⟩
  intro x member
  obtain ⟨earlier, before, rfl⟩ := List.mem_map.mp member
  exact unheld earlier before

theorem split_at {i : Nat} (inside : i < p.files.length) :
    p.files = p.files.take i ++ p.files[i] :: p.files.drop (i + 1) := by
  rw [List.getElem_cons_drop, List.take_append_drop]

end SingerList

/-- The songs heard from `name` on when the next one is asked for until there is none. -/
inductive PlaysOn (l : List Bytes) : Bytes → List Bytes → Prop
  | last {name : Bytes} : findNextMusic l (trackPart name) = .ok none → PlaysOn l name [name]
  | next {name after : Bytes} {rest : List Bytes} : findNextMusic l (trackPart name) = .ok (some after) →
      PlaysOn l after rest → PlaysOn l name (name :: rest)

/-- What the two searches answer at position `i`. -/
def Neighbours (p : SingerList) (i : Nat) (cur : Bytes) : Prop :=
  findNextMusic p.names cur = .ok p.names[i + 1]? ∧
    findPrevMusic p.names cur = .ok (if i = 0 then none else p.names[i - 1]?)

structure Navigates (p : SingerList) : Prop where
  neighbours : ∀ i (inside : i < p.files.length), Neighbours p i p.files[i]
  back : ∀ i (inside : i + 1 < p.files.length), ∃ after, findNextMusic p.names p.files[i] = .ok (some after) ∧
    findPrevMusic p.names (trackPart after) = .ok (some (p.name p.files[i]))
  through : ∀ first ∈ p.names.head?, PlaysOn p.names first p.names

namespace SingerList
variable (p : SingerList)

theorem neighbours_first {i : Nat} (inside : i < p.files.length) (unheld : ∀ earlier ∈ p.files.take i,
    strstr (p.name earlier) p.files[i] = false) : Neighbours p i p.files[i] := by
  have first := p.first_split (p.split_at inside) unheld
  have bound : i - 1 < p.names.length := by
    simp only [names, List.length_map]
    omega
  constructor
  · rw [first.next, List.map_drop, List.head?_drop, names]
  · rw [first.prev, List.map_take, ← names, List.getLast?_take, List.getElem?_eq_getElem bound]
    rfl

/-- A song found too early has another one behind it: names do not repeat. -/
theorem neighbours_unheld {i : Nat} (inside : i < p.files.length) (h : Neighbours p i p.files[i]) :
    ∀ earlier ∈ p.files.take i, strstr (p.name earlier) p.files[i] = false := by
  obtain ⟨pre, name, post, ⟨split, hit, before⟩, next⟩ := findNextMusic_ok.mp h.1
  have found : p.names[pre.length + 1]? = p.names[i + 1]? := by
    rw [← next, split, List.getElem?_append_right (by omega), List.head?_eq_getElem?]
    simp
  have late : i ≤ pre.length := by
    by_contra early
    have bound : pre.length + 1 < p.names.length := by
      simp only [names, List.length_map]
      omega
    have same := (List.getElem?_inj bound p.names_nodup).mp found
    omega
  intro earlier member
  have among : p.name earlier ∈ p.names.take i := by
    rw [names, ← List.map_take]
    exact List.mem_map_of_mem member
  rw [split, List.take_append_of_le_length late] at among
  exact before _ (List.mem_of_mem_take among)

theorem neighbours_iff {i : Nat} (inside : i < p.files.length) :
    Neighbours p i p.files[i] ↔ ∀ earlier ∈ p.files.take i, strstr (p.name earlier) p.files[i] = false :=
  ⟨p.neighbours_unheld inside, p.neighbours_first inside⟩

/-- No song's name contains the file of a later one. -/
def Apart : Prop := p.files.Pairwise fun earlier later => strstr (p.name earlier) later = false

theorem apart_iff :
    p.Apart ↔ ∀ i (inside : i < p.files.length), ∀ earlier ∈ p.files.take i,
      strstr (p.name earlier) p.files[i] = false := by
  rw [Apart, List.pairwise_iff_getElem]
  constructor
  · intro apart i inside earlier member
    obtain ⟨j, bound, rfl⟩ := List.mem_take_iff_getElem.mp member
    exact apart j i (by omega) inside (by omega)
  · intro apart i j before inside less
    exact apart j inside _ (List.mem_take_iff_getElem.mpr ⟨i, by omega, rfl⟩)

theorem Apart.first {p : SingerList} (apart : p.Apart) {pre post : List Bytes} {file : Bytes}
    (split : p.files = pre ++ file :: post) :
    FirstHolding p.names file (pre.map p.name) (p.name file) (post.map p.name) := by
  rw [Apart, split, List.pairwise_append] at apart
  exact p.first_split split fun earlier member => apart.2.2 earlier member file List.mem_cons_self

/-- From any song on, the rest of the list is heard in order. -/
theorem Apart.plays {p : SingerList} (apart : p.Apart) {pre post : List Bytes} {file : Bytes}
    (split : p.files = pre ++ file :: post) :
    PlaysOn p.names (p.name file) ((file :: post).map p.name) := by
  induction post generalizing pre file with
  | nil =>
      refine .last ?_
      rw [p.trackPart_name]
      exact (apart.first split).next
  | cons after rest ih =>
      have further : p.files = (pre ++ [file]) ++ after :: rest := by
        rw [split, List.append_assoc, List.singleton_append]
      have follows : findNextMusic p.names (trackPart (p.name file)) = .ok (some (p.name after)) := by
        rw [p.trackPart_name]
        exact (apart.first split).next
      exact .next follows (ih further)

/-- Going to the next song and back again from a song that is not the last. -/
theorem Apart.returns {p : SingerList} (apart : p.Apart) {i : Nat} (inside : i + 1 < p.files.length) :
    ∃ after, findNextMusic p.names p.files[i] = .ok (some after) ∧
      findPrevMusic p.names (trackPart after) = .ok (some (p.name p.files[i])) := by
  have unheld := p.apart_iff.mp apart
  have here := p.neighbours_first (by omega) (unheld i (by omega))
  have next := p.neighbours_first inside (unheld (i + 1) inside)
  refine ⟨p.name p.files[i + 1], ?_, ?_⟩
  · rw [here.1]
    simp [names, inside]
  · rw [p.trackPart_name, next.2]
    simp [names, show i < p.files.length by omega]

end SingerList

theorem navigates_apart {p : SingerList} (navigates : Navigates p) : p.Apart :=
  p.apart_iff.mpr fun i inside => p.neighbours_unheld inside (navigates.neighbours i inside)

/-- A song's neighbours are found exactly where no earlier name contains its
file, and the list is gone through exactly where that is so for every song. -/
theorem navigates_iff (p : SingerList) :
    (∀ i (inside : i < p.files.length), Neighbours p i p.files[i] ↔
      ∀ earlier ∈ p.files.take i, strstr (p.name earlier) p.files[i] = false) ∧
    (Navigates p ↔ p.files.Pairwise fun earlier later => strstr (p.name earlier) later = false) := by
  refine ⟨fun i inside => p.neighbours_iff inside, navigates_apart, fun apart => ?_⟩
  refine ⟨fun i inside => ?_, fun i inside => SingerList.Apart.returns apart inside, ?_⟩
  · exact p.neighbours_first inside (p.apart_iff.mp apart i inside)
  · intro first member
    cases split : p.files with
    | nil => simp [SingerList.names, split] at member
    | cons file rest =>
        have head : p.name file = first := by simpa [SingerList.names, split] using member
        have plays := SingerList.Apart.plays apart (show p.files = [] ++ file :: rest from split)
        rw [← head]
        rwa [SingerList.names, split] at plays ⊢

/-- The second song's file ends the first one's. -/
def suffixList : SingerList where
  singer := lit "s"
  files := [lit "ab.mp3", lit "b.mp3"]
  plain := by decide
  distinct := by decide

theorem suffixList_lost : ¬ Navigates suffixList := by
  intro navigates
  have apart : strstr (lit "s/ab.mp3") (lit "b.mp3") = false :=
    (List.pairwise_cons.mp (navigates_apart navigates)).1 (lit "b.mp3") List.mem_cons_self
  exact absurd apart (by decide)

/-! ## What is played next -/

/-- A track chosen in a buffer, as the name in it. -/
def named (choice : Except Fault (Option Bytes)) : Except Fault (Option Bytes) := choice.map (Option.map cstr)

/-- The current track's name, as the record has it. -/
def current (curInfo : Shm) : Bytes := cstr curInfo.curSigner ++ lit "/" ++ cstr curInfo.curMusic

/-- The names of a playlist's nodes are C strings in `char [127]`. -/
structure Playlist where
  names : List Bytes
  text : ∀ name ∈ names, 0 ∉ name
  fits : ∀ name ∈ names, name.length < 127

/-- The next track process, whose buffer the child has cleared, and `NextPlay`
choose the same track, and it is the one the mode asks for. -/
structure Continues (curInfo : Shm) (s : Memory) : Prop where
  same : named (trackName curInfo s.musicHead (zeros 128)) = named (nextTrack curInfo s)
  again : curInfo.curMode = circle → named (nextTrack curInfo s) = .ok (some (current curInfo))
  onward : curInfo.curMode = sequence → ∃ pre post, s.musicHead = pre ++ current curInfo :: post ∧
    named (nextTrack curInfo s) = .ok post.head?

/-- The current track's name is put together wherever it fits the buffer. -/
theorem currentName_ok {curInfo : Shm} (fits : (current curInfo).length < 128) :
    ∃ out, currentName curInfo = .ok out ∧ cstr out = current curInfo := by
  have lengths : (cstr curInfo.curSigner).length + 1 + (cstr curInfo.curMusic).length < 128 := by
    rw [current, List.length_append, List.length_append, length_slash] at fits
    exact fits
  obtain ⟨singer, copied, size, holds⟩ := strcpy_zeros (n := 128) (zero_not_mem_cstr curInfo.curSigner) (by omega)
  have room : (cstr singer).length + (lit "/").length < singer.length := by
    rw [holds, size, length_slash]
    omega
  obtain ⟨path, joined, size', holds'⟩ := strcat_ok room
  rw [holds, cstr_slash] at holds'
  have room' : (cstr path).length + (cstr curInfo.curMusic).length < path.length := by
    rw [holds', size', size, List.length_append, length_slash]
    omega
  obtain ⟨out, done, -, whole⟩ := strcat_ok room'
  refine ⟨out, ?_, ?_⟩
  · simp only [currentName, copied, joined, done, Except.ok_bind]
  · rw [whole, holds', cstr_eq_self (zero_not_mem_cstr _), current]

namespace Playlist
variable (p : Playlist)

/-- What the search answers is a name of the list. -/
theorem next_mem {cur next : Bytes} (h : findNextMusic p.names cur = .ok (some next)) : next ∈ p.names := by
  obtain ⟨pre, name, post, ⟨split, -⟩, first⟩ := findNextMusic_ok.mp h
  rw [split]
  exact List.mem_append_right _ (List.mem_cons_of_mem _ (List.mem_of_head? first))

/-- The answer of the search copied into a buffer of 128 bytes. -/
theorem copied (cur : Bytes) :
    named (do
      match ← findNextMusic p.names cur with
      | none => return none
      | some next =>
          let name ← strcpy (zeros 128) next
          return some name) = findNextMusic p.names cur := by
  cases search : findNextMusic p.names cur with
  | error e => rfl
  | ok answer =>
      cases answer with
      | none => rfl
      | some next =>
          have member := p.next_mem search
          obtain ⟨out, done, -, holds⟩ := strcpy_zeros (n := 128) (p.text next member)
            (by have := p.fits next member; omega)
          simp only [Except.ok_bind, done]
          simp [named, Except.map, holds, pure, Except.pure]

theorem named_trackName (curInfo : Shm) :
    named (trackName curInfo p.names (zeros 128)) = findNextMusic p.names (cstr curInfo.curMusic) := by
  have cleared : cstr (zeros 128) = [] := by decide
  rw [trackName, if_pos cleared]
  exact p.copied _

theorem named_nextTrack {curInfo : Shm} {s : Memory} (list : s.musicHead = p.names)
    (onward : curInfo.curMode ≠ circle) :
    named (nextTrack curInfo s) = findNextMusic p.names (cstr curInfo.curMusic) := by
  rw [nextTrack, if_neg onward, list]
  exact p.copied _

end Playlist

theorem named_again {curInfo : Shm} {s : Memory} (again : curInfo.curMode = circle)
    (fits : (current curInfo).length < 128) : named (nextTrack curInfo s) = .ok (some (current curInfo)) := by
  obtain ⟨out, done, holds⟩ := currentName_ok fits
  simp only [nextTrack, if_pos again, done, Except.ok_bind]
  simp [named, Except.map, holds, pure, Except.pure]

/-- The two choices agree with the mode exactly where the first song whose name
contains the current file has the right song behind it: in a sequence the one
that follows the current track, in a circle the current track. -/
theorem continues_iff (p : Playlist) {curInfo : Shm} {s : Memory} (list : s.musicHead = p.names)
    (mode : curInfo.curMode = sequence ∨ curInfo.curMode = circle) :
    Continues curInfo s ↔
      (curInfo.curMode = sequence ∧ ∃ pre post before name after, p.names = pre ++ current curInfo :: post ∧
        FirstHolding p.names (cstr curInfo.curMusic) before name after ∧ after.head? = post.head?) ∨
      (curInfo.curMode = circle ∧ ∃ before name after,
        FirstHolding p.names (cstr curInfo.curMusic) before name (current curInfo :: after)) := by
  constructor
  · intro continues
    rcases mode with onward | again
    · have apart : curInfo.curMode ≠ circle := by
        rw [onward]
        decide
      obtain ⟨pre, post, split, chosen⟩ := continues.onward onward
      rw [p.named_nextTrack list apart] at chosen
      obtain ⟨before, name, after, first, same⟩ := findNextMusic_ok.mp chosen
      exact .inl ⟨onward, pre, post, before, name, after, list ▸ split, first, same⟩
    · have chosen := continues.same
      rw [list, p.named_trackName, continues.again again] at chosen
      obtain ⟨before, name, after, first, same⟩ := findNextMusic_ok.mp chosen
      obtain ⟨rest, rfl⟩ := List.head?_eq_some_iff.mp same
      exact .inr ⟨again, before, name, rest, first⟩
  · rintro (⟨onward, pre, post, before, name, after, split, first, same⟩ | ⟨again, before, name, after, first⟩)
    · have apart : curInfo.curMode ≠ circle := by
        rw [onward]
        decide
      have chosen := p.named_nextTrack list apart
      refine ⟨by rw [list, p.named_trackName, chosen], fun again => absurd again apart, fun _ => ?_⟩
      exact ⟨pre, post, list ▸ split, by rw [chosen, first.next, same]⟩
    · have member : current curInfo ∈ p.names := by
        rw [first.1]
        simp
      have manual := named_again (s := s) again (by have := p.fits _ member; omega)
      refine ⟨?_, fun _ => manual, fun onward => ?_⟩
      · rw [manual, list, p.named_trackName, first.next]
        rfl
      · rw [again] at onward
        exact absurd onward (by decide)

/-- Two songs, and the first of them playing. -/
def twoSongs : Playlist where
  names := [lit "s/a.mp3", lit "s/b.mp3"]
  text := by decide
  fits := by decide

def playingFirst (mode : Int) : Shm :=
  { initShm 100 with
    curSigner := store (zeros 128) 0 (lit "s")
    curMusic := store (zeros 128) 0 (lit "a.mp3")
    curMode := mode }

theorem continues_first : Continues (playingFirst sequence) ⟨true, false, .online, twoSongs.names⟩ := by
  refine (continues_iff twoSongs rfl (.inl rfl)).mpr (.inl ⟨rfl, ?_⟩)
  exact ⟨[], [lit "s/b.mp3"], [], lit "s/a.mp3", [lit "s/b.mp3"], by decide, by unfold FirstHolding; decide, rfl⟩

/-- In a circle the next track process goes on to the second song. -/
theorem circle_goes_on : ¬ Continues (playingFirst circle) ⟨true, false, .online, twoSongs.names⟩ := by
  intro continues
  have file : cstr (playingFirst circle).curMusic = lit "a.mp3" := cstr_store_zeros (by decide) (by decide)
  have next : findNextMusic twoSongs.names (lit "a.mp3") = .ok (some (lit "s/b.mp3")) := by decide
  have chosen := continues.same
  rw [twoSongs.named_trackName, file, next, continues.again rfl] at chosen
  have same : lit "s/b.mp3" = current (playingFirst circle) := Option.some.inj (Except.ok.inj chosen)
  exact absurd same (by decide)

end MusicPlayer.Speaker
