import MusicPlayer.Speaker.Lengths

/-! The playlist of a singer on the USB stick. -/
namespace MusicPlayer.Speaker
open CBytes FirstMatch Program

variable (j : JsonC) (w : Surroundings)

/-- The directory of a singer on what is mounted, if there is one. -/
def singerDir (mounted : Option Bytes) (singer : Bytes) : Option (List Dirent) :=
  w.opendir mounted (offlineUrl ++ singer)

/-- The playlist of a directory: its mp3 files in their order. -/
def tracks (singer : Bytes) : Option (List Dirent) → List Bytes
  | none => []
  | some files => (files.filter mp3).map fun f => singer ++ lit "/" ++ f.name

/-- The singer's name and those of the tracks are C strings that fit the buffers. -/
structure NamesFit (singer : Bytes) (dir : Option (List Dirent)) : Prop where
  text : 0 ∉ singer ∧ ∀ files, dir = some files → ∀ f ∈ files, 0 ∉ f.name
  short : singer.length ≤ 126
  tracks : ∀ files, dir = some files → ∀ f ∈ files, mp3 f → singer.length + 1 + f.name.length ≤ 126

/-- `GetMusicName` comes back, and the playlist is that of the singer's directory. -/
def LoadsTracks (mounted : Option Bytes) (singer : Bytes) (s : Memory) : Prop :=
  ∃ t, (getMusicName j singer s).eval (w.answer mounted) = .ok t ∧
    t.musicHead = tracks singer (singerDir w mounted singer)

/-- The singer is listed on the stick, under a name the scan does not pass by. -/
def ListedOn (mounted : Option Bytes) (singer : Bytes) : Prop :=
  ∃ entries, w.opendir mounted offlineUrl = some entries ∧ (∃ e ∈ entries, e.name = singer) ∧
    singer ≠ lit "." ∧ singer ≠ lit ".."

theorem strcat_offlineUrl {singer : Bytes} (free : 0 ∉ singer) (short : singer.length ≤ 126) :
    ∃ path, strcat (store (zeros 256) 0 offlineUrl) singer = .ok path ∧ cstr path = offlineUrl ++ singer := by
  have plain : 0 ∉ offlineUrl := by decide
  have size : offlineUrl.length = 15 := by decide
  have start : cstr (store (zeros 256) 0 offlineUrl) = offlineUrl := cstr_store_zeros plain (by decide)
  have whole : (store (zeros 256) 0 offlineUrl).length = 256 := by
    rw [length_store, length_zeros]
    rw [length_zeros, size]
    decide
  have room : (cstr (store (zeros 256) 0 offlineUrl)).length + singer.length <
      (store (zeros 256) 0 offlineUrl).length := by
    rw [start, whole, size]
    omega
  obtain ⟨path, joined, -, holds⟩ := strcat_ok room
  exact ⟨path, joined, by rw [holds, start, cstr_eq_self free]⟩

/-- The singer's entry as the first scan finds it. -/
theorem find_singer {entries : List Dirent} {singer : Bytes} :
    (∃ dir, entries.find? (fun f => f.name ≠ lit "." && f.name ≠ lit ".." && f.name = singer) = some dir) ↔
      (∃ e ∈ entries, e.name = singer) ∧ singer ≠ lit "." ∧ singer ≠ lit ".." := by
  rw [← Option.isSome_iff_exists, List.find?_isSome]
  constructor
  · rintro ⟨e, member, found⟩
    simp only [ne_eq, decide_not, Bool.and_eq_true, Bool.not_eq_true', decide_eq_false_iff_not,
      decide_eq_true_eq] at found
    obtain ⟨⟨one, two⟩, same⟩ := found
    exact ⟨⟨e, member, same⟩, same ▸ one, same ▸ two⟩
  · rintro ⟨⟨e, member, rfl⟩, one, two⟩
    exact ⟨e, member, by simp [one, two]⟩

theorem found_name {entries : List Dirent} {singer : Bytes} {dir : Dirent}
    (h : entries.find? (fun f => f.name ≠ lit "." && f.name ≠ lit ".." && f.name = singer) = some dir) :
    dir.name = singer := by
  have found := List.find?_some h
  rw [Bool.and_eq_true] at found
  exact of_decide_eq_true found.2

/-- The scan of a directory whose names fit is its list of tracks. -/
theorem scan_tracks {singer : Bytes} {dir : Option (List Dirent)} {files : List Dirent}
    (fit : NamesFit singer dir) (opened : dir = some files) {l : List Bytes} :
    (∃ names, offlineNames singer files = .ok names ∧ insertAll names [] = .ok l) ↔ l = tracks singer (some files) := by
  have short := fit.short
  have made : offlineNames singer files = .ok (tracks singer (some files)) := by
    refine (offlineNames_ok fit.text.1 (fit.text.2 files opened)).mpr ⟨fun _ => by omega, ?_, rfl⟩
    intro f member taken
    have := fit.tracks files opened f member taken
    omega
  have fits : ∀ name ∈ tracks singer (some files), name.length ≤ 126 := by
    simp only [tracks, List.forall_mem_map, List.mem_filter, and_imp, List.length_append, length_slash]
    exact fit.tracks files opened
  have some_ : ∀ name ∈ tracks singer (some files), name ≠ [] := by
    simp only [tracks, List.forall_mem_map]
    intro f _ empty
    have length := congrArg List.length empty
    simp only [List.length_append, length_slash, List.length_nil] at length
    omega
  obtain ⟨l₀, inserted⟩ := (insertAll_fits (l := [])).mpr fits
  have whole : l₀ = tracks singer (some files) := insertAll_eq some_ (by simp) inserted
  constructor
  · rintro ⟨names, made', inserted'⟩
    cases made.symm.trans made'
    rw [← whole]
    exact Except.ok.inj (inserted'.symm.trans inserted)
  · rintro rfl
    exact ⟨_, made, whole ▸ inserted⟩

/-- What the offline scan leaves where it comes back. -/
theorem usbList_iff {mounted : Option Bytes} {singer : Bytes} {l : List Bytes}
    (fit : NamesFit singer (singerDir w mounted singer)) :
    UsbList w mounted singer l ↔ ListedOn w mounted singer ∧
      ∃ files, singerDir w mounted singer = some files ∧ l = tracks singer (some files) := by
  obtain ⟨path, joined, names⟩ := strcat_offlineUrl fit.text.1 fit.short
  constructor
  · rintro ⟨entries, dir, path', files, made, opened, found, joined', listed, scanned, inserted⟩
    have same := found_name found
    rw [same] at joined' scanned
    cases joined.symm.trans joined'
    rw [names] at listed
    exact ⟨⟨entries, opened, find_singer.mp ⟨dir, found⟩⟩, files, listed,
      (scan_tracks fit listed).mp ⟨made, scanned, inserted⟩⟩
  · rintro ⟨⟨entries, opened, here⟩, files, listed, same⟩
    obtain ⟨dir, found⟩ := find_singer.mpr here
    have name := found_name found
    obtain ⟨made, scanned, inserted⟩ := (scan_tracks fit listed).mpr same
    exact ⟨entries, dir, path, files, made, opened, found, by rw [name]; exact joined,
      by rw [names]; exact listed, by rw [name]; exact scanned, inserted⟩

/-- It is a playlist to go through: no file is in a directory twice. -/
theorem tracks_names {singer : Bytes} {files : List Dirent} (plain : 47 ∉ singer)
    (distinct : (files.map Dirent.name).Nodup) :
    ∃ p : SingerList, p.singer = singer ∧ p.names = tracks singer (some files) := by
  have once : ((files.filter mp3).map Dirent.name).Nodup :=
    distinct.sublist (List.filter_sublist.map _)
  refine ⟨⟨singer, (files.filter mp3).map Dirent.name, plain, once⟩, rfl, ?_⟩
  simp [SingerList.names, SingerList.name, tracks, Function.comp_def]

/-- The offline playlist is the singer's exactly where the stick lists the singer
and the singer's directory can be opened: elsewhere a null pointer is used. -/
theorem loadsTracks_iff {mounted : Option Bytes} {singer : Bytes} {s : Memory}
    (offline : s.deviceMode = .offline) (fit : NamesFit singer (singerDir w mounted singer)) :
    LoadsTracks j w mounted singer s ↔
      ListedOn w mounted singer ∧ ∃ files, singerDir w mounted singer = some files := by
  constructor
  · rintro ⟨t, read, -⟩
    obtain ⟨l, list, -⟩ := (getMusicName_offline j w offline).mp read
    obtain ⟨listed, files, opened, -⟩ := (usbList_iff w fit).mp list
    exact ⟨listed, files, opened⟩
  · rintro ⟨listed, files, opened⟩
    have list := (usbList_iff w fit).mpr ⟨listed, files, opened, rfl⟩
    refine ⟨_, (getMusicName_offline j w offline).mpr ⟨_, list, rfl⟩, ?_⟩
    rw [opened]

/-- The files of a stick with one singer on it. -/
def oneSinger (path : Bytes) : Option (List Dirent) :=
  if path = offlineUrl then some [⟨lit ".", false⟩, ⟨lit "Adele", false⟩]
  else if path = lit "/mnt/usb/music/Adele" then some [⟨lit "cover.jpg", true⟩, ⟨lit "a.mp3", true⟩]
  else none

def withStick : Surroundings := { alone with opendir := fun mounted path => mounted.bind fun _ => oneSinger path }

theorem adele_loads :
    LoadsTracks mute withStick (some (lit "sda1")) (lit "Adele") ⟨false, false, .offline, []⟩ := by
  have opened : singerDir withStick (some (lit "sda1")) (lit "Adele") =
      some [⟨lit "cover.jpg", true⟩, ⟨lit "a.mp3", true⟩] := by decide
  refine (loadsTracks_iff mute withStick rfl ⟨⟨by decide, ?_⟩, by decide, ?_⟩).mpr
    ⟨⟨_, rfl, by decide, by decide, by decide⟩, _, opened⟩
  · rw [opened]
    rintro files ⟨⟩
    decide
  · rw [opened]
    rintro files ⟨⟩
    decide

/-- With no stick there is nothing to read: the null pointer of `opendir` is used. -/
theorem unmounted_faults :
    ¬ LoadsTracks mute withStick none (lit "Adele") ⟨false, false, .offline, []⟩ := by
  rintro ⟨t, read, -⟩
  obtain ⟨l, ⟨entries, dir, path, files, names, opened, -⟩, -⟩ := (getMusicName_offline mute withStick rfl).mp read
  cases opened

end MusicPlayer.Speaker
