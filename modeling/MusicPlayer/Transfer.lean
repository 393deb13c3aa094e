import MusicPlayer.Server.Frame
import MusicPlayer.Server.Isolation
import MusicPlayer.Speaker.Receive
import MusicPlayer.Speaker.Requests

/-! How a playlist comes from the server's music directory to the speaker: the
request of `GetMusicName`, the reply to it, and what is linked of the reply. -/
namespace MusicPlayer
open CBytes Program Server
open Speaker (JsonC Memory Code Socket SentText clearMusicList linkMusicList insertMusic insertAll insertAll_eq musicRequest
  recSocketData)

/-- The tracks a speaker should get: the first five regular files of the singer's
directory with `.mp3` in their names, as `singer/file`. -/
def tracks (opendir : Bytes → Option (List Dirent)) (singer : Bytes) : List Bytes :=
  match opendir (cstr (Server.musicPath ++ singer)) with
  | none => []
  | some files =>
      ((files.filter fun f => f.regular && strstr f.name (lit ".mp3")).take 5).map
        fun f => singer ++ lit "/" ++ f.name

/-- The text of the request, as the speaker sends it. -/
def requestOf (j : JsonC) (singer : Bytes) : Bytes := cstr (j.toJsonString (musicRequest singer))

/-- What json-c makes of a value jsoncpp has written: the value, but a null
pointer of a null. -/
def readBack : Json → Option Json
  | .null => none
  | v => some v

/-- The two libraries on the two texts of the exchange: each reads what the
other has written. -/
structure Understands (k : Codec) (j : JsonC) (opendir : Bytes → Option (List Dirent)) (singer : Bytes) :
    Prop where
  order : j.order = k.order
  asked : (k.parse (requestOf j singer)).2 = musicRequest singer
  told : j.parse (k.write (Server.getMusicName opendir singer)) = readBack (Server.getMusicName opendir singer)
  text : k.write (Server.getMusicName opendir singer) ≠ [] ∧ 0 ∉ k.write (Server.getMusicName opendir singer)

/-- The names are C strings, and the texts and the names fit their buffers. -/
structure Fits (k : Codec) (j : JsonC) (opendir : Bytes → Option (List Dirent)) (singer : Bytes) : Prop where
  plain : 0 ∉ singer
  files : ∀ files, opendir (cstr (Server.musicPath ++ singer)) = some files → ∀ f ∈ files, 0 ∉ f.name
  request : requestOf j singer ≠ [] ∧ (requestOf j singer).length ≤ 1020
  reply : (k.write (Server.getMusicName opendir singer)).length ≤ 1020
  names : ∀ name ∈ tracks opendir singer, name.length < 127

/-- `GetMusicName` asks for the singer, and handed the text it goes on with the
names as its playlist. -/
def Loads (j : JsonC) (singer : Bytes) (s : Memory) (text : Bytes) (names : List Bytes) : Prop :=
  ∃ ask read, Speaker.getMusicName j singer s = .call (clearMusicList s) (.send (musicRequest singer)) ask ∧
    ask () (clearMusicList s) = .call (clearMusicList s) (.recSocketData .getMusicName) read ∧
    read text (clearMusicList s) = Speaker.uploadMusic j { clearMusicList s with musicHead := names }

/-! ## The reply -/

section Reply
variable {opendir : Bytes → Option (List Dirent)} {singer : Bytes}

theorem getMusicName_missing (missing : opendir (cstr (Server.musicPath ++ singer)) = none) :
    Server.getMusicName opendir singer = .null := by
  rw [Server.getMusicName, missing]

theorem getMusicName_present {files : List Dirent}
    (present : opendir (cstr (Server.musicPath ++ singer)) = some files) :
    Server.getMusicName opendir singer = .object [(lit "cmd", .string (lit "reply_music_list")),
      (lit "music", if tracks opendir singer = [] then .null
        else .array ((tracks opendir singer).map .string))] := by
  rw [Server.getMusicName, tracks, present]
  simp only [List.map_take]
  generalize (files.filter fun f => f.regular && strstr f.name (lit ".mp3")).map
    (fun f => singer ++ lit "/" ++ f.name) = names
  cases names <;> rfl

/-- The names of the reply are C strings with something in them. -/
theorem tracks_plain (plain : 0 ∉ singer)
    (files : ∀ files, opendir (cstr (Server.musicPath ++ singer)) = some files → ∀ f ∈ files, 0 ∉ f.name) :
    ∀ name ∈ tracks opendir singer, name ≠ [] ∧ 0 ∉ name := by
  intro name member
  unfold tracks at member
  split at member
  · cases member
  next entries present =>
    obtain ⟨f, taken, rfl⟩ := List.mem_map.mp member
    have inside : f ∈ entries := List.mem_of_mem_filter (List.mem_of_mem_take taken)
    have slash : 0 ∉ lit "/" := by decide
    refine ⟨by simp [lit], ?_⟩
    simp only [List.mem_append, not_or]
    exact ⟨⟨plain, slash⟩, files entries present f inside⟩

end Reply

/-! ## What is linked -/

theorem insertAll_fits {names l : List Bytes} (fits : ∀ name ∈ names, name.length < 127) :
    ∃ l', insertAll names l = .ok l' := by
  induction names generalizing l with
  | nil => exact ⟨l, rfl⟩
  | cons name names ih =>
      have one : ∃ l₁, insertMusic name l = .ok l₁ := by
        unfold insertMusic
        rw [if_pos (fits name List.mem_cons_self)]
        cases l with
        | nil => exact ⟨_, rfl⟩
        | cons first rest => exact ⟨_, rfl⟩
      obtain ⟨l₁, one⟩ := one
      obtain ⟨l', rest⟩ := ih (l := l₁) fun n member => fits n (List.mem_cons_of_mem _ member)
      refine ⟨l', ?_⟩
      rw [insertAll, one]
      exact rest

section Link
variable {k : Codec} {j : JsonC} {opendir : Bytes → Option (List Dirent)} {singer : Bytes}

/-- The list linked of the server's reply: the tracks, unless the directory is
there and has none. -/
theorem linkMusicList_tracks (agree : Understands k j opendir singer) (fits : Fits k j opendir singer)
    {s : Memory} (empty : s.musicHead = []) :
    linkMusicList j (k.write (Server.getMusicName opendir singer)) s =
      if opendir (cstr (Server.musicPath ++ singer)) = none ∨ tracks opendir singer ≠ [] then
        .ok { s with musicHead := tracks opendir singer }
      else .error .assertion := by
  have told := agree.told
  cases there : opendir (cstr (Server.musicPath ++ singer)) with
  | none =>
      rw [getMusicName_missing there] at told ⊢
      have nothing : tracks opendir singer = [] := by rw [tracks, there]
      have same : { s with musicHead := [] } = s := by rw [← empty]
      rw [if_pos (.inl rfl), nothing, same, linkMusicList, told]
      rfl
  | some files =>
      rw [getMusicName_present there] at told ⊢
      have named : cstr (lit "reply_music_list") = lit "reply_music_list" := cstr_eq_self (by decide)
      have plain := tracks_plain fits.plain fits.files
      by_cases nothing : tracks opendir singer = []
      · rw [if_pos nothing] at told ⊢
        rw [linkMusicList, told]
        change (if cstr (lit "reply_music_list") ≠ lit "reply_music_list" then _ else _) = _
        rw [if_neg fun differs => differs named, if_neg (by simp [nothing])]
        rfl
      · obtain ⟨l', inserted⟩ := insertAll_fits (l := []) fits.names
        have all : l' = tracks opendir singer := by
          simpa using insertAll_eq (fun name member => (plain name member).1) (by simp) inserted
        rw [if_neg nothing] at told ⊢
        rw [linkMusicList, told]
        change (if cstr (lit "reply_music_list") ≠ lit "reply_music_list" then _ else _) = _
        rw [if_neg fun differs => differs named, if_pos (.inr nothing)]
        change (do
          let names ← Speaker.arrayNames j ((tracks opendir singer).map .string)
          let musicHead ← insertAll names s.musicHead
          return { s with musicHead }) = _
        rw [Speaker.arrayNames_strings j fun name member => (plain name member).2, Except.ok_bind, empty,
          inserted, all]
        rfl

/-- The program of an online speaker around what it sends and what it is sent. -/
theorem getMusicName_online (fits : Fits k j opendir singer) {s : Memory} (online : s.deviceMode = .online) :
    ∃ ask, Speaker.getMusicName j singer s = .call (clearMusicList s) (.send (musicRequest singer)) ask ∧
      ask () (clearMusicList s) = .call (clearMusicList s) (.recSocketData .getMusicName)
        fun text s => check (linkMusicList j text s) fun s => Speaker.uploadMusic j s := by
  have mode : (clearMusicList s).deviceMode = .online := online
  obtain ⟨bytes, fits⟩ : ∃ bytes, packet j.order (requestOf j singer) = .ok bytes :=
    ⟨_, packet_eq_ok.mpr ⟨fits.request.2, rfl⟩⟩
  unfold requestOf at fits
  simp only [Speaker.getMusicName, mode, Speaker.sendMusicInfo, fits, check, andThen]
  exact ⟨_, rfl, rfl⟩

theorem uploadMusic_asserts {s : Memory} : Speaker.uploadMusic j s ≠ .fail .assertion := by
  unfold Speaker.uploadMusic Speaker.sendMusicInfo packet
  cases s.deviceMode with
  | offline => exact fun same => nomatch same
  | online =>
      dsimp only
      split
      · exact fun same => nomatch same
      · exact fun same => nomatch same

theorem loads_iff (agree : Understands k j opendir singer) (fits : Fits k j opendir singer) {s : Memory}
    (online : s.deviceMode = .online) :
    Loads j singer s (k.write (Server.getMusicName opendir singer)) (tracks opendir singer) ↔
      opendir (cstr (Server.musicPath ++ singer)) = none ∨ tracks opendir singer ≠ [] := by
  obtain ⟨ask, asks, reads⟩ := getMusicName_online fits online
  have linked := linkMusicList_tracks agree fits (s := clearMusicList s) rfl
  constructor
  · rintro ⟨ask', read', asks', reads', loads⟩
    cases asks.symm.trans asks'
    cases reads.symm.trans reads'
    by_contra lacks
    change check (linkMusicList j (k.write (Server.getMusicName opendir singer)) (clearMusicList s)) _ = _ at loads
    rw [linked, if_neg lacks] at loads
    exact uploadMusic_asserts loads.symm
  · intro has
    refine ⟨ask, _, asks, reads, ?_⟩
    rw [linked, if_pos has]
    rfl

end Link

/-! ## The exchange -/

/-- The request reaches the server as it was sent, the reply reaches the speaker
as it was written, however it is cut on the way, and the speaker goes on with
exactly the tracks as its playlist, without a fault in `LinkMusicList`, exactly
if the directory is missing or has a track. -/
theorem playlist_transferred_iff {δ : Type} (m : Mysql δ) {k : Codec} {j : JsonC}
    {opendir : Bytes → Option (List Dirent)} {singer : Bytes} (agree : Understands k j opendir singer)
    (fits : Fits k j opendir singer) {s : Memory} (online : s.deviceMode = .online) :
    ∃ request reply, packet j.order (requestOf j singer) = .ok request ∧
      (∀ (fuel : Nat) (rest : Bytes), ∃ buffer,
        serverReadData k.order (fuel + 1) (request ++ rest) zeroed = .ok (buffer, rest) ∧
        ∀ now bev server, dispatch m k now opendir bev (k.parse (cstr buffer)).2 server =
          .ok (server, [⟨bev, reply⟩])) ∧
      ∀ (fuel : Nat) (sock : Socket) (rest : Bytes), 1020 ≤ fuel → sock.closed = false →
        sock.stream = reply ++ rest → ∃ data next,
          recSocketData j.order fuel (zeros 1024) sock = .ok (data, next) ∧ next.stream = rest ∧
          ((Loads j singer s (cstr data) (tracks opendir singer) ∧
              ∃ t, linkMusicList j (cstr data) (clearMusicList s) = .ok t) ↔
            opendir (cstr (Server.musicPath ++ singer)) = none ∨ tracks opendir singer ≠ []) := by
  have texts : ∃ b : Body, b.text = requestOf j singer := by
    have short := fits.request.2
    exact ⟨⟨requestOf j singer, List.length_pos_iff.mpr fits.request.1, by omega, zero_not_mem_cstr _⟩, rfl⟩
  obtain ⟨b, asks⟩ := texts
  let t : SentText := ⟨k.write (Server.getMusicName opendir singer), List.length_pos_iff.mpr agree.text.1,
    fits.reply, agree.text.2⟩
  refine ⟨frame k.order (requestOf j singer), frame k.order t.text, ?_, fun fuel rest => ?_, ?_⟩
  · rw [agree.order]
    exact packet_eq_ok.mpr ⟨fits.request.2, rfl⟩
  · rw [← asks]
    refine ⟨_, serverReadData_frame k.order fuel b rest, fun now bev server => ?_⟩
    rw [cstr_store_zeros b.noNul (by have := b.short; omega), asks, agree.asked, dispatch_list m k rfl]
    have sent : sendData k bev (Server.getMusicName opendir singer) = .ok ⟨bev, frame k.order t.text⟩ :=
      (sendData_ok k).mpr ⟨fits.reply, rfl⟩
    change (do
      let sent ← sendData k bev (Server.getMusicName opendir singer)
      return (server, [sent])) = _
    rw [sent]
    rfl
  · intro fuel sock rest enough up ahead
    rw [agree.order]
    obtain ⟨next, received, cuts, rfl⟩ := Speaker.recSocketData_frame k.order t enough up ahead
    refine ⟨_, _, received, rfl, ?_⟩
    rw [cstr_store_zeros t.noNul (by have := t.short; omega)]
    have loads := loads_iff agree fits online
    refine ⟨fun both => loads.mp both.1, fun has => ⟨loads.mpr has, ?_⟩⟩
    rw [linkMusicList_tracks agree fits rfl, if_pos has]
    exact ⟨_, rfl⟩

/-- jsoncpp on the request for the singer `a` and on the reply with one track. -/
def requestCodec : Codec where
  order := .little
  parse text := if text = Speaker.requestText then (true, musicRequest (lit "a")) else (false, .null)
  write _ := Speaker.listText

/-- The singer has one track, and a picture. -/
def oneTrack (_ : Bytes) : Option (List Dirent) := some [⟨lit "b.mp3", true⟩, ⟨lit "b.png", true⟩]

theorem one_track_transferred : ∃ request reply,
    packet .little (requestOf Speaker.jsonC (lit "a")) = .ok request ∧
      (∀ (fuel : Nat) (rest : Bytes), ∃ buffer,
        serverReadData .little (fuel + 1) (request ++ rest) zeroed = .ok (buffer, rest) ∧
        ∀ now bev server, dispatch noAccounts requestCodec now oneTrack bev (requestCodec.parse (cstr buffer)).2
          server = .ok (server, [⟨bev, reply⟩])) ∧
      ∀ (fuel : Nat) (sock : Socket) (rest : Bytes), 1020 ≤ fuel → sock.closed = false →
        sock.stream = reply ++ rest → ∃ data next,
          recSocketData .little fuel (zeros 1024) sock = .ok (data, next) ∧ next.stream = rest ∧
          ((Loads Speaker.jsonC (lit "a") (Speaker.connected []) (cstr data) (tracks oneTrack (lit "a")) ∧
              ∃ t, linkMusicList Speaker.jsonC (cstr data) (clearMusicList (Speaker.connected [])) = .ok t) ↔
            oneTrack (cstr (Server.musicPath ++ lit "a")) = none ∨ tracks oneTrack (lit "a") ≠ []) := by
  have agree : Understands requestCodec Speaker.jsonC oneTrack (lit "a") :=
    ⟨rfl, rfl, rfl, by decide, by decide⟩
  have fits : Fits requestCodec Speaker.jsonC oneTrack (lit "a") := by
    refine ⟨by decide, fun files present => ?_, by decide, by decide, by decide⟩
    cases present
    decide
  exact playlist_transferred_iff noAccounts agree fits rfl

/-- The reply for a singer without tracks, and json-c where it reads it. -/
def noTracks : Json := .object [(lit "cmd", .string (lit "reply_music_list")), (lit "music", .null)]

def noTracksC : JsonC := { Speaker.jsonC with parse := fun _ => some noTracks }

/-- A directory without tracks is answered with a null where `LinkMusicList` needs an array. -/
theorem no_tracks_asserts :
    Server.getMusicName (fun _ => some []) (lit "a") = noTracks ∧
      linkMusicList noTracksC (lit "\x7b\"cmd\":\"reply_music_list\",\"music\":null\x7d\n")
        (Speaker.connected []) = .error .assertion :=
  ⟨rfl, rfl⟩

end MusicPlayer
