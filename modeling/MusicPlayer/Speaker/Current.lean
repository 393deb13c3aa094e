import MusicPlayer.Speaker.Navigation

/-! The current track in the shared record over a run of track updates:
`strncpy` puts no terminator behind the singer. -/
namespace MusicPlayer.Speaker
open CBytes FirstMatch Runs

/-- A track's name `singer/file`. -/
structure TrackName where
  singer : Bytes
  file : Bytes
  plain : 47 ∉ singer
  text : 0 ∉ singer ∧ 0 ∉ file
  fits : singer.length ≤ 127 ∧ file.length ≤ 127

def TrackName.name (t : TrackName) : Bytes := t.singer ++ lit "/" ++ t.file

theorem TrackName.zero_not_mem (t : TrackName) : 0 ∉ t.name := by
  have slash : lit "/" = [47] := by decide
  simp [name, slash, t.text.1, t.text.2]

/-- The buffer holds the name with its terminator. -/
def Holds (buf name : Bytes) : Prop := ∃ rest, buf = name ++ 0 :: rest

/-- A track update of `ChildProcess`, `NextPlay` or `PrevPlay`, behind any change
of the fields that are no part of the track. -/
def Updates (s : Shm) (t : TrackName) (s' : Shm) : Prop :=
  ∃ mode child grand buf, Holds buf t.name ∧
    setCurrent { s with curMode := mode, childPid := child, grandPid := grand } buf = .ok s'

/-- The record gives the track back: its name, its singer, and the path that is
put together from the record in `CIRCLE` mode. -/
structure GivesBack (t : TrackName) (s : Shm) : Prop where
  name : current s = t.name
  singer : cstr s.curSigner = t.singer
  path : t.name.length ≤ 127 → ∀ mode,
    (currentName s >>= fun name => musicPath mode name) = musicPath mode t.name

/-! ## One update -/

theorem splitSlash_holds {t : TrackName} {buf : Bytes} (h : Holds buf t.name) :
    ∃ rest, splitSlash buf = .ok (t.singer, t.file ++ 0 :: rest) := by
  obtain ⟨rest, rfl⟩ := h
  refine ⟨rest, ?_⟩
  have found : firstMatch (· == 47) (t.name ++ 0 :: rest) = some (t.singer, 47, t.file ++ 0 :: rest) := by
    refine firstMatch_eq_some.mpr ⟨?_, by decide, fun x member => ?_⟩
    · have slash : lit "/" = [47] := by decide
      simp [TrackName.name, slash]
    · have other : x ≠ 47 := fun same => t.plain (same ▸ member)
      simpa using other
  rw [splitSlash, found]

/-- What an update leaves: the singer laid over the old one, and the file. -/
theorem setCurrent_holds {s : Shm} {t : TrackName} {buf : Bytes} (h : Holds buf t.name)
    (signer : s.curSigner.length = 128) (music : s.curMusic.length = 128) :
    setCurrent s buf = .ok { s with
      curSigner := t.singer ++ s.curSigner.drop t.singer.length
      curMusic := store s.curMusic 0 (t.file ++ [0]) } := by
  obtain ⟨rest, split⟩ := splitSlash_holds h
  have ⟨short, short'⟩ := t.fits
  have track : cstr (t.file ++ 0 :: rest) = t.file := cstr_append_zero t.text.2 rest
  have copied : strncpy s.curSigner t.singer = .ok (t.singer ++ s.curSigner.drop t.singer.length) := by
    rw [strncpy, if_pos (by omega)]
    simp [store]
  have copied' : strcpy s.curMusic t.file = .ok (store s.curMusic 0 (t.file ++ [0])) := by
    rw [strcpy, if_pos (by omega)]
  simp only [setCurrent, split, Except.ok_bind, track, copied, copied']
  rfl

theorem cstr_stored {old text : Bytes} (free : 0 ∉ text) :
    cstr (store old 0 (text ++ [0])) = text := by
  rw [store, List.take_zero, List.nil_append, List.append_assoc, List.singleton_append]
  exact cstr_append_zero free _

theorem cstr_holds {t : TrackName} {buf : Bytes} (h : Holds buf t.name) : cstr buf = t.name := by
  obtain ⟨rest, rfl⟩ := h
  exact cstr_append_zero t.zero_not_mem rest

/-- The record `NextPlay` and `PrevPlay` store is that of a track update. -/
theorem loadTrack_updates {curInfo : Shm} {name : Bytes} {t : TrackName} (holds : Holds name t.name) (s : Memory) :
    (loadTrack curInfo name s).Every fun op => ∀ stored, op = .setShm stored → Updates curInfo t stored := by
  unfold loadTrack
  cases set : setCurrent curInfo name with
  | error e => exact .fail e
  | ok placed =>
      refine .call ?_ fun _ s => ?_
      · intro stored same
        cases same
        exact ⟨curInfo.curMode, curInfo.childPid, curInfo.grandPid, name, holds, set⟩
      · refine .call nofun fun _ s => ?_
        apply Program.Every.check
        intro path
        exact .call nofun fun _ s => .done _

/-- So is the one a track process is about to store. -/
theorem place_updates {s u : Shared} {x y : Track} {curInfo placed : Shm} {own : Bool} (h : Advances s x y u)
    (before : x.phase = .read curInfo) (after : y.phase = .placed placed own) :
    ∃ name, trackName curInfo x.memory.musicHead x.musicName = .ok (some name) ∧
      ∀ t : TrackName, Holds name t.name → Updates curInfo t placed := by
  cases h with
  | semP phase _ => cases phase.symm.trans before
  | getShm phase => cases phase.symm.trans before
  | finish _ _ => cases after
  | place parent own phase chosen set =>
      cases phase.symm.trans before
      cases after
      exact ⟨_, chosen, fun t holds => ⟨_, parent, x.pid, _, holds, set⟩⟩
  | semV phase => cases phase.symm.trans before

/-! ## A run of updates -/

/-- The buffers after the tracks `past`: a byte of the singer's is zero exactly
where no singer so far has reached it. -/
structure Overlaid (past : List TrackName) (s : Shm) : Prop where
  signer : s.curSigner.length = 128
  music : s.curMusic.length = 128
  zero : ∀ i < 128, s.curSigner[i]? = some 0 ↔ ∀ x ∈ past, x.singer.length ≤ i

theorem overlaid_init (pid : Int) : Overlaid [] (initShm pid) := by
  refine ⟨length_zeros 128, length_zeros 128, fun i inside => ?_⟩
  have zero : (initShm pid).curSigner[i]? = some 0 := List.getElem?_replicate_of_lt inside
  simp [zero]

theorem Overlaid.step {past : List TrackName} {s s' : Shm} {t : TrackName} (h : Overlaid past s)
    (update : Updates s t s') : Overlaid (past ++ [t]) s' := by
  obtain ⟨mode, child, grand, buf, holds, done⟩ := update
  have stored := setCurrent_holds (s := { s with curMode := mode, childPid := child, grandPid := grand })
    holds h.signer h.music
  cases stored.symm.trans done
  have ⟨short, short'⟩ := t.fits
  refine ⟨?_, ?_, fun i inside => ?_⟩
  · simp only [List.length_append, List.length_drop, h.signer]
    omega
  · rw [length_store]
    · exact h.music
    · simp only [h.music, List.length_append, List.length_singleton]
      omega
  · have both : (∀ x ∈ past ++ [t], x.singer.length ≤ i) ↔
        (∀ x ∈ past, x.singer.length ≤ i) ∧ t.singer.length ≤ i := by
      simp [or_imp, forall_and]
    rw [both]
    by_cases covered : i < t.singer.length
    · rw [List.getElem?_append_left covered, List.getElem?_eq_getElem covered]
      refine ⟨fun zero => ?_, fun reached => absurd reached.2 (by omega)⟩
      exact absurd (Option.some.inj zero ▸ List.getElem_mem covered) t.text.1
    · have behind : t.singer.length + (i - t.singer.length) = i := by omega
      rw [List.getElem?_append_right (by omega), List.getElem?_drop, behind, h.zero i inside]
      exact ⟨fun old => ⟨old, by omega⟩, fun all => all.1⟩

theorem overlaid_run {pid : Int} {past : List TrackName} {s : Shm}
    (run : Trace Updates (initShm pid) past s) : Overlaid past s :=
  run.history_nil (I := Overlaid) (fun _ _ _ _ h update => h.step update) (overlaid_init pid)

/-- The singer's string in the record is as long as the longest singer so far. -/
theorem Overlaid.length_le {past : List TrackName} {s : Shm} (h : Overlaid past s) {k : Nat} (inside : k < 128) :
    (cstr s.curSigner).length ≤ k ↔ ∀ x ∈ past, x.singer.length ≤ k := by
  rw [length_cstr_le_iff, h.signer]
  constructor
  · rintro (whole | ⟨i, below, zero⟩)
    · omega
    · intro x member
      have reached := (h.zero i (by omega)).mp zero x member
      omega
  · intro all
    exact .inr ⟨k, Nat.le_refl k, (h.zero k inside).mpr all⟩

/-! ## The round trip -/

/-- The path depends on the string in the buffer only. -/
theorem musicPath_cstr {a b : Bytes} (same : cstr a = cstr b) (mode : DeviceMode) :
    musicPath mode a = musicPath mode b := by
  simp only [musicPath, same]

/-- The singer's string after an update starts with the new singer. -/
theorem Updates.singer {s s' : Shm} {t : TrackName} (h : Updates s t s') (signer : s.curSigner.length = 128)
    (music : s.curMusic.length = 128) :
    cstr s'.curSigner = t.singer ++ cstr (s.curSigner.drop t.singer.length) ∧ cstr s'.curMusic = t.file := by
  obtain ⟨mode, child, grand, buf, holds, done⟩ := h
  have stored := setCurrent_holds (s := { s with curMode := mode, childPid := child, grandPid := grand })
    holds signer music
  cases stored.symm.trans done
  exact ⟨cstr_append t.text.1 _, cstr_stored t.text.2⟩

/-- A record whose singer is the track's gives the track back. -/
theorem givesBack_of_singer {s : Shm} {t : TrackName} (singer : cstr s.curSigner = t.singer)
    (file : cstr s.curMusic = t.file) : GivesBack t s := by
  have same : current s = t.name := by rw [current, singer, file, TrackName.name]
  refine ⟨same, singer, fun fits mode => ?_⟩
  have short : (current s).length < 128 := by
    rw [same]
    omega
  obtain ⟨out, done, holds⟩ := currentName_ok short
  rw [done, Except.ok_bind]
  refine musicPath_cstr ?_ mode
  rw [holds, same, cstr_eq_self t.zero_not_mem]

/-- A track fits the two buffers, whatever they hold. -/
theorem Overlaid.updates {past : List TrackName} {s : Shm} (h : Overlaid past s) {t : TrackName} {buf : Bytes}
    (holds : Holds buf t.name) (mode child grand : Int) :
    ∃ s', setCurrent { s with curMode := mode, childPid := child, grandPid := grand } buf = .ok s' ∧
      Updates s t s' := by
  have done := setCurrent_holds (s := { s with curMode := mode, childPid := child, grandPid := grand })
    holds h.signer h.music
  exact ⟨_, done, mode, child, grand, buf, holds, done⟩

theorem Overlaid.givesBack {past : List TrackName} {s s' : Shm} {t : TrackName} (h : Overlaid past s)
    (update : Updates s t s') : GivesBack t s' ↔ ∀ x ∈ past, x.singer.length ≤ t.singer.length := by
  obtain ⟨singer, file⟩ := update.singer h.signer h.music
  have short := t.fits.1
  have length := (h.step update).length_le (k := t.singer.length) (by omega)
  constructor
  · intro back x member
    exact length.mp (by rw [back.singer]) x (List.mem_append_left _ member)
  · intro none_longer
    refine givesBack_of_singer ?_ file
    have whole : (cstr s'.curSigner).length ≤ t.singer.length := length.mpr fun x member => by
      rcases List.mem_append.mp member with old | new
      · exact none_longer x old
      · rw [List.mem_singleton.mp new]
    rw [singer, List.length_append] at whole
    have tail : cstr (s.curSigner.drop t.singer.length) = [] := List.eq_nil_of_length_eq_zero (by omega)
    rw [singer, tail, List.append_nil]

/-- After any run of track updates, the next one leaves a record that gives its
track back exactly where no singer before it was longer. -/
theorem update_givesBack {pid : Int} {past : List TrackName} {s : Shm}
    (run : Trace Updates (initShm pid) past s) (t : TrackName) (mode child grand : Int) {buf : Bytes}
    (holds : Holds buf t.name) :
    ∃ s', setCurrent { s with curMode := mode, childPid := child, grandPid := grand } buf = .ok s' ∧
      (GivesBack t s' ↔ ∀ x ∈ past, x.singer.length ≤ t.singer.length) := by
  obtain ⟨s', done, update⟩ := (overlaid_run run).updates holds mode child grand
  exact ⟨s', done, (overlaid_run run).givesBack update⟩

def longSinger : TrackName := ⟨lit "Adele", lit "a.mp3", by decide, by decide, by decide⟩
def shortSinger : TrackName := ⟨lit "Sia", lit "b.mp3", by decide, by decide, by decide⟩

theorem longSinger_givesBack :
    ∃ s s', Trace Updates (initShm 100) [shortSinger] s ∧
      setCurrent { s with curMode := sequence, childPid := 101, grandPid := 103 } (longSinger.name ++ [0]) = .ok s' ∧
      GivesBack longSinger s' := by
  obtain ⟨s, -, first⟩ := (overlaid_init 100).updates (t := shortSinger) ⟨[], rfl⟩ sequence 101 102
  have run : Trace Updates (initShm 100) [shortSinger] s := .cons first (.nil s)
  obtain ⟨s', done, back⟩ := update_givesBack run longSinger sequence 101 103 ⟨[], rfl⟩
  exact ⟨s, s', run, done, back.mpr (by decide)⟩

/-- The shorter name of the second singer leaves the end of the first one's. -/
theorem shortSinger_lost :
    ∃ s s', Trace Updates (initShm 100) [longSinger] s ∧ Updates s shortSinger s' ∧ ¬ GivesBack shortSinger s' := by
  have start := overlaid_init 100
  obtain ⟨s, -, first⟩ := start.updates (t := longSinger) ⟨[], rfl⟩ sequence 101 102
  obtain ⟨s', -, second⟩ := (start.step first).updates (t := shortSinger) ⟨[], rfl⟩ sequence 101 103
  refine ⟨s, s', .cons first (.nil s), second, fun back => ?_⟩
  have shorter := ((start.step first).givesBack second).mp back longSinger List.mem_cons_self
  exact absurd shorter (by decide)

end MusicPlayer.Speaker
