import MusicPlayer.Speaker.Current
import MusicPlayer.Speaker.Modes

/-! The lengths of names along the way from the playlist to mplayer: `char [127]`
in a node, `char [128]` in the record and in the player's functions. -/
namespace MusicPlayer.Speaker
open CBytes FirstMatch Runs

def url : DeviceMode → Bytes
  | .online => onlineUrl
  | .offline => offlineUrl

/-- The path put together from the name in a buffer fits `music_path[128]`, and
the command made of it `cmd[256]`. -/
def PathFits (mode : DeviceMode) (buf : Bytes) : Prop :=
  ∃ path, musicPath mode buf = .ok path ∧ (lit "loadfile " ++ cstr path ++ lit "\n").length < 256

/-- Every string that is made of a track's name on its way to mplayer, from the
buffer of `StartPlay`, `NextPlay` or `PrevPlay` on, fits its own buffer. -/
structure NameFits (mode : DeviceMode) (s : Shm) (t : TrackName) : Prop where
  musicName : ∃ buf, strcpy (zeros 128) t.name = .ok buf ∧ Holds buf t.name
  record : ∀ buf, Holds buf t.name → ∃ s', setCurrent s buf = .ok s' ∧ 0 ∈ s'.curSigner ∧ 0 ∈ s'.curMusic
  path : ∀ buf, Holds buf t.name → PathFits mode buf

/-- The same in `CIRCLE` mode, where the name is put together from the record. -/
def NameFitsAgain (mode : DeviceMode) (s : Shm) (t : TrackName) : Prop :=
  ∀ s', Updates s t s' → ∃ name, currentName s' = .ok name ∧ PathFits mode name

theorem musicPath_eq (mode : DeviceMode) (buf : Bytes) :
    musicPath mode buf = strcpy (zeros 128) (url mode) >>= fun path => strcat path (cstr buf) := by
  cases mode <;> rfl

theorem length_url (mode : DeviceMode) : 0 ∉ url mode ∧ (url mode).length < 128 := by
  cases mode <;> decide

theorem musicPath_fits {mode : DeviceMode} {buf : Bytes} :
    PathFits mode buf ↔ (url mode).length + (cstr buf).length ≤ 127 := by
  obtain ⟨plain, short⟩ := length_url mode
  obtain ⟨start, copied, size, holds⟩ := strcpy_zeros plain short
  have path : musicPath mode buf = strcat start (cstr buf) := by
    rw [musicPath_eq, copied, Except.ok_bind]
  constructor
  · rintro ⟨out, done, -⟩
    rw [path, strcat, holds, size] at done
    split at done
    · omega
    · cases done
  · intro fits
    have room : (cstr start).length + (cstr buf).length < start.length := by
      rw [holds, size]
      omega
    obtain ⟨out, done, -, whole⟩ := strcat_ok room
    refine ⟨out, path.trans done, ?_⟩
    have nine : (lit "loadfile ").length = 9 := by decide
    have one : (lit "\n").length = 1 := by decide
    rw [whole, holds, cstr_eq_self (zero_not_mem_cstr buf)]
    simp only [List.length_append, nine, one]
    omega

theorem strcpy_holds {text : Bytes} {n : Nat} (fits : text.length < n) :
    ∃ buf, strcpy (zeros n) text = .ok buf ∧ Holds buf text := by
  refine ⟨store (zeros n) 0 (text ++ [0]), by rw [strcpy, if_pos (by simpa using fits)], ?_⟩
  refine ⟨zeros (n - (text ++ [0]).length), ?_⟩
  rw [store_zeros, List.append_assoc, List.singleton_append]

/-- What an update leaves in the record is terminated: no singer reaches the last byte. -/
theorem Overlaid.terminated {past : List TrackName} {s : Shm} (h : Overlaid past s) {t : TrackName} {buf : Bytes}
    (holds : Holds buf t.name) :
    ∃ s', setCurrent s buf = .ok s' ∧ 0 ∈ s'.curSigner ∧ 0 ∈ s'.curMusic := by
  have done := setCurrent_holds holds h.signer h.music
  have update : Updates s t _ := ⟨s.curMode, s.childPid, s.grandPid, buf, holds, done⟩
  refine ⟨_, done, ?_, by simp [store]⟩
  have last := ((h.step update).zero 127 (by decide)).mpr fun x _ => x.fits.1
  exact List.mem_of_getElem? last

theorem Overlaid.fits_iff {past : List TrackName} {s : Shm} (h : Overlaid past s) (mode : DeviceMode)
    (t : TrackName) : NameFits mode s t ↔ (url mode).length + t.name.length ≤ 127 := by
  constructor
  · intro fits
    have path := musicPath_fits.mp (fits.path (t.name ++ [0]) ⟨[], rfl⟩)
    rwa [cstr_append_zero t.zero_not_mem] at path
  · intro short
    refine ⟨strcpy_holds (by omega), fun buf holds => h.terminated holds, fun buf holds => ?_⟩
    rw [musicPath_fits, cstr_holds holds]
    exact short

theorem currentName_cstr {s : Shm} {name : Bytes} (h : currentName s = .ok name) : cstr name = current s := by
  obtain ⟨singer, copied, more⟩ := Except.bind_eq_ok.mp h
  obtain ⟨path, joined, whole⟩ := Except.bind_eq_ok.mp more
  obtain ⟨-, -, rest, rfl⟩ := strcpy_inv copied
  rw [cstr_strcat whole, cstr_strcat joined, cstr_append_zero (zero_not_mem_cstr _), cstr_slash,
    cstr_eq_self (zero_not_mem_cstr _), current]

theorem length_current (s : Shm) :
    (current s).length = (cstr s.curSigner).length + 1 + (cstr s.curMusic).length := by
  rw [current, List.length_append, List.length_append, length_slash]

/-- The name put together again has the longest singer so far for its own. -/
theorem Overlaid.fitsAgain_iff {past : List TrackName} {s : Shm} (h : Overlaid past s) (mode : DeviceMode)
    (t : TrackName) : NameFitsAgain mode s t ↔
      ∀ x ∈ past ++ [t], (url mode).length + (x.singer.length + 1 + t.file.length) ≤ 127 := by
  constructor
  · intro fits x member
    obtain ⟨s', -, update⟩ := h.updates (t := t) ⟨[], rfl⟩ s.curMode s.childPid s.grandPid
    obtain ⟨name, done, path⟩ := fits s' update
    have file := (update.singer h.signer h.music).2
    rw [musicPath_fits, currentName_cstr done, length_current, file] at path
    have longest := ((h.step update).length_le (k := 126 - (url mode).length - t.file.length) (by omega)).mp
      (by omega) x member
    omega
  · intro short s' update
    have own := short t (by simp)
    have file := (update.singer h.signer h.music).2
    have longest := ((h.step update).length_le (k := 126 - (url mode).length - t.file.length) (by omega)).mpr
      fun x member => by
        have := short x member
        omega
    have length := length_current s'
    rw [file] at length
    have within : (current s').length < 128 := by omega
    obtain ⟨name, done, holds⟩ := currentName_ok within
    refine ⟨name, done, musicPath_fits.mpr ?_⟩
    rw [holds]
    omega

/-! ## What goes into the playlist -/

theorem insertMusic_fits {name : Bytes} {l : List Bytes} :
    (∃ l', insertMusic name l = .ok l') ↔ name.length ≤ 126 := by
  unfold insertMusic
  split
  next short =>
    refine ⟨fun _ => by omega, fun _ => ?_⟩
    cases l with
    | nil => exact ⟨_, rfl⟩
    | cons first rest => exact ⟨_, rfl⟩
  next long =>
    refine ⟨?_, fun short => absurd short (by omega)⟩
    rintro ⟨l', same⟩
    cases same

theorem insertAll_fits {names l : List Bytes} :
    (∃ l', insertAll names l = .ok l') ↔ ∀ name ∈ names, name.length ≤ 126 := by
  induction names generalizing l with
  | nil => exact ⟨nofun, fun _ => ⟨l, rfl⟩⟩
  | cons name names ih =>
      rw [List.forall_mem_cons]
      constructor
      · rintro ⟨l', done⟩
        obtain ⟨l₁, one, rest⟩ := Except.bind_eq_ok.mp done
        exact ⟨insertMusic_fits.mp ⟨l₁, one⟩, ih.mp ⟨l', rest⟩⟩
      · rintro ⟨short, others⟩
        obtain ⟨l₁, one⟩ := insertMusic_fits.mpr short
        obtain ⟨l', rest⟩ := ih.mpr others
        exact ⟨l', Except.bind_eq_ok.mpr ⟨l₁, one, rest⟩⟩

variable (j : JsonC)

/-- The text is a list of these names from the server. -/
def Replies (text : Bytes) (names : List Bytes) : Prop :=
  ∃ obj elems, j.parse text = some obj ∧ getString j (obj.member (lit "cmd")) = some (lit "reply_music_list") ∧
    obj.member (lit "music") = .array elems ∧ arrayNames j elems = .ok names

theorem linkMusicList_fits {text : Bytes} {names : List Bytes} (replies : Replies j text names) (s : Memory) :
    (∃ s', linkMusicList j text s = .ok s') ↔ ∀ name ∈ names, name.length ≤ 126 := by
  obtain ⟨obj, elems, parsed, cmd, music, strings⟩ := replies
  have links : linkMusicList j text s = insertAll names s.musicHead >>= fun musicHead => .ok { s with musicHead } := by
    simp only [linkMusicList, parsed, cmd, music, strings, ne_eq, not_true_eq_false, if_false, Except.ok_bind]
    rfl
  rw [links, ← insertAll_fits (l := s.musicHead)]
  simp only [Except.bind_eq_ok]
  constructor
  · rintro ⟨s', l, inserted, -⟩
    exact ⟨l, inserted⟩
  · rintro ⟨l, inserted⟩
    exact ⟨_, l, inserted, rfl⟩

/-- The entries the offline scan takes. -/
def mp3 (f : Dirent) : Bool := f.regular && strstr f.name (lit ".mp3")

/-- A singer's directory on the stick: names are C strings of at most 255 bytes. -/
structure SingerDir where
  singer : Bytes
  files : List Dirent
  text : 0 ∉ singer ∧ ∀ f ∈ files, 0 ∉ f.name
  short : singer.length ≤ 255 ∧ ∀ f ∈ files, f.name.length ≤ 255

/-- The start of a name in the scan's buffer. -/
theorem slashed_holds {dir out : Bytes} (free : 0 ∉ dir) :
    (∃ buf, strcpy (zeros 128) dir = .ok buf ∧ strcat buf (lit "/") = .ok out) →
      dir.length + 1 ≤ 127 ∧ out.length = 128 ∧ cstr out = dir ++ lit "/" := by
  rintro ⟨buf, copied, joined⟩
  obtain ⟨-, size, rest, rfl⟩ := strcpy_inv copied
  obtain ⟨fits, size'⟩ := strcat_inv joined
  have start : cstr (dir ++ 0 :: rest) = dir := cstr_append_zero free rest
  rw [start, size, length_zeros, length_slash] at fits
  exact ⟨by omega, by rw [size', size, length_zeros], by rw [cstr_strcat joined, start, cstr_slash]⟩

theorem slashed {dir : Bytes} (free : 0 ∉ dir) (fits : dir.length + 1 ≤ 127) :
    ∃ buf out, strcpy (zeros 128) dir = .ok buf ∧ strcat buf (lit "/") = .ok out := by
  obtain ⟨buf, copied, size, start⟩ := strcpy_zeros (n := 128) free (by omega)
  have room : (cstr buf).length + (lit "/").length < buf.length := by
    rw [start, size, length_slash]
    omega
  obtain ⟨out, joined, -⟩ := strcat_ok room
  exact ⟨buf, out, copied, joined⟩

/-- The name a pass of the offline scan makes of an entry, if it takes it. -/
def offlineName (dir : Bytes) (f : Dirent) : Except Fault (Option Bytes) := do
  let name ← strcpy (zeros 128) dir
  let name ← strcat name (lit "/")
  if mp3 f then
    let name ← strcat name f.name
    return some (cstr name)
  else return none

theorem offlineNames_cons (dir : Bytes) (f : Dirent) (files : List Dirent) :
    offlineNames dir (f :: files) = offlineName dir f >>= fun name =>
      offlineNames dir files >>= fun names => .ok (name.toList ++ names) := by
  rw [offlineNames, offlineName]
  cases strcpy (zeros 128) dir with
  | error e => rfl
  | ok buf =>
      simp only [Except.ok_bind]
      cases strcat buf (lit "/") with
      | error e => rfl
      | ok out =>
          simp only [Except.ok_bind]
          change (if mp3 f = true then _ else _) = _
          by_cases taken : mp3 f = true
          · rw [if_pos taken, if_pos taken]
            cases strcat out f.name <;> rfl
          · rw [if_neg taken, if_neg taken]
            cases offlineNames dir files <;> rfl

/-- An entry's name is made where it fits `name[128]`. -/
theorem offlineName_ok {dir : Bytes} {f : Dirent} {name : Option Bytes} (free : 0 ∉ dir) (plain : 0 ∉ f.name) :
    offlineName dir f = .ok name ↔ dir.length + 1 ≤ 127 ∧ (mp3 f → dir.length + 1 + f.name.length ≤ 127) ∧
      name = if mp3 f then some (dir ++ lit "/" ++ f.name) else none := by
  constructor
  · intro h
    obtain ⟨buf, copied, h⟩ := Except.bind_eq_ok.mp h
    obtain ⟨out, joined, h⟩ := Except.bind_eq_ok.mp h
    obtain ⟨fits, size, start⟩ := slashed_holds free ⟨buf, copied, joined⟩
    by_cases taken : mp3 f = true
    · rw [if_pos taken] at h ⊢
      obtain ⟨whole, named, same⟩ := Except.bind_eq_ok.mp h
      cases same
      have room := (strcat_inv named).1
      rw [start, size, List.length_append, length_slash] at room
      exact ⟨fits, fun _ => by omega, by rw [cstr_strcat named, start, cstr_eq_self plain]⟩
    · rw [if_neg taken] at h ⊢
      cases h
      exact ⟨fits, fun here => absurd here taken, rfl⟩
  · rintro ⟨fits, short, rfl⟩
    obtain ⟨buf, out, copied, joined⟩ := slashed free fits
    obtain ⟨-, size, start⟩ := slashed_holds free ⟨buf, copied, joined⟩
    refine Except.bind_eq_ok.mpr ⟨buf, copied, Except.bind_eq_ok.mpr ⟨out, joined, ?_⟩⟩
    by_cases taken : mp3 f = true
    · have short := short taken
      have room : (cstr out).length + f.name.length < out.length := by
        rw [start, size, List.length_append, length_slash]
        omega
      obtain ⟨whole, named, -, holds⟩ := strcat_ok room
      rw [start, cstr_eq_self plain] at holds
      rw [if_pos taken, if_pos taken, named, Except.ok_bind, holds]
      rfl
    · rw [if_neg taken, if_neg taken]
      rfl

/-- The names the offline scan makes, where they fit `name[128]`. -/
theorem offlineNames_ok {dir : Bytes} {files : List Dirent} {names : List Bytes} (free : 0 ∉ dir)
    (text : ∀ f ∈ files, 0 ∉ f.name) :
    offlineNames dir files = .ok names ↔ (files ≠ [] → dir.length + 1 ≤ 127) ∧
      (∀ f ∈ files, mp3 f → dir.length + 1 + f.name.length ≤ 127) ∧
      names = (files.filter mp3).map fun f => dir ++ lit "/" ++ f.name := by
  induction files generalizing names with
  | nil =>
      refine ⟨fun h => ?_, fun h => ?_⟩
      · cases h
        exact ⟨fun some_ => absurd rfl some_, nofun, rfl⟩
      · rw [h.2.2]
        rfl
  | cons f files ih =>
      rw [List.forall_mem_cons] at text
      have first : (if mp3 f then some (dir ++ lit "/" ++ f.name) else none).toList ++
          (files.filter mp3).map (fun f => dir ++ lit "/" ++ f.name) =
          ((f :: files).filter mp3).map fun f => dir ++ lit "/" ++ f.name := by
        by_cases taken : mp3 f = true
        · rw [if_pos taken, List.filter_cons_of_pos taken, List.map_cons]
          rfl
        · rw [if_neg taken, List.filter_cons_of_neg taken]
          rfl
      rw [offlineNames_cons, List.forall_mem_cons, ← first]
      constructor
      · intro h
        obtain ⟨name, one, h⟩ := Except.bind_eq_ok.mp h
        obtain ⟨rest, later, same⟩ := Except.bind_eq_ok.mp h
        cases same
        obtain ⟨fits, short, rfl⟩ := (offlineName_ok free text.1).mp one
        obtain ⟨-, others, rfl⟩ := (ih text.2).mp later
        exact ⟨fun _ => fits, ⟨short, others⟩, rfl⟩
      · rintro ⟨fits, ⟨short, others⟩, rfl⟩
        have fits := fits (List.cons_ne_nil _ _)
        have one := (offlineName_ok free text.1).mpr ⟨fits, short, rfl⟩
        have later := (ih text.2).mpr ⟨fun _ => fits, others, rfl⟩
        rw [one, Except.ok_bind, later, Except.ok_bind]

/-- The whole scan of a singer's directory. -/
def scan (d : SingerDir) : Except Fault (List Bytes) := do
  let names ← offlineNames d.singer d.files
  insertAll names []

theorem scan_fits (d : SingerDir) :
    (∃ l, scan d = .ok l) ↔ (d.files ≠ [] → d.singer.length + 1 ≤ 127) ∧
      ∀ f ∈ d.files, mp3 f → d.singer.length + 1 + f.name.length ≤ 126 := by
  have inserts : ∀ files : List Dirent,
      (∃ l, insertAll ((files.filter mp3).map fun f => d.singer ++ lit "/" ++ f.name) [] = .ok l) ↔
        ∀ f ∈ files, mp3 f → d.singer.length + 1 + f.name.length ≤ 126 := by
    intro files
    rw [insertAll_fits]
    simp only [List.forall_mem_map, List.mem_filter, and_imp, List.length_append, length_slash]
  constructor
  · rintro ⟨l, done⟩
    obtain ⟨names, made, inserted⟩ := Except.bind_eq_ok.mp done
    obtain ⟨fits, -, rfl⟩ := (offlineNames_ok d.text.1 d.text.2).mp made
    exact ⟨fits, (inserts d.files).mp ⟨l, inserted⟩⟩
  · rintro ⟨fits, short⟩
    obtain ⟨l, inserted⟩ := (inserts d.files).mpr short
    have made := (offlineNames_ok d.text.1 d.text.2).mpr ⟨fits, fun f member taken => by
      have := short f member taken
      omega, rfl⟩
    exact ⟨l, Except.bind_eq_ok.mpr ⟨_, made, inserted⟩⟩

/-- After any run of track updates exactly these names fit on the whole way; and
of the names from the server and from the stick exactly these fit a node. -/
theorem names_fit_iff {pid : Int} {past : List TrackName} {s : Shm} (run : Trace Updates (initShm pid) past s)
    (mode : DeviceMode) (t : TrackName) :
    ((NameFits mode s t ↔ (url mode).length + t.name.length ≤ 127) ∧
      (NameFitsAgain mode s t ↔
        ∀ x ∈ past ++ [t], (url mode).length + (x.singer.length + 1 + t.file.length) ≤ 127)) ∧
    (∀ (j : JsonC) (text : Bytes) (names : List Bytes) (list : Memory), Replies j text names →
      ((∃ list', linkMusicList j text list = .ok list') ↔ ∀ name ∈ names, name.length ≤ 126)) ∧
    ∀ d : SingerDir, (∃ l, scan d = .ok l) ↔ (d.files ≠ [] → d.singer.length + 1 ≤ 127) ∧
      ∀ f ∈ d.files, mp3 f → d.singer.length + 1 + f.name.length ≤ 126 := by
  have overlaid := overlaid_run run
  refine ⟨⟨overlaid.fits_iff mode t, overlaid.fitsAgain_iff mode t⟩, fun j text names list replies => ?_, scan_fits⟩
  exact linkMusicList_fits j replies list

theorem longSinger_fits : NameFits .online (initShm 100) longSinger ∧ NameFitsAgain .online (initShm 100) longSinger :=
  have both := (names_fit_iff (.nil (initShm 100)) .online longSinger).1
  ⟨both.1.mpr (by decide), both.2.mpr (by decide)⟩

/-- A title of a hundred bytes. -/
def longTitle : TrackName where
  singer := lit "Adele"
  file := List.replicate 100 97 ++ lit ".mp3"
  plain := longSinger.plain
  text := by decide
  fits := by decide

theorem length_longTitle : longTitle.name.length = 110 := by
  have parts : (lit "Adele").length + (lit "/").length + (lit ".mp3").length = 10 := by decide
  simp only [TrackName.name, longTitle, List.length_append, List.length_replicate]
  omega

theorem longTitle_overruns : longTitle.name.length ≤ 126 ∧ ¬ NameFits .online (initShm 100) longTitle := by
  refine ⟨by rw [length_longTitle]; decide, fun fits => ?_⟩
  have short := ((overlaid_init 100).fits_iff .online longTitle).mp fits
  rw [length_longTitle] at short
  exact absurd short (by decide)

end MusicPlayer.Speaker
