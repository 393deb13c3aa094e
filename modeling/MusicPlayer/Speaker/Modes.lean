import MusicPlayer.Speaker.Player
import MusicPlayer.Lib.Trace

/-! Start-up and the two switches between the server and the USB stick: which of
mode, link, descriptor set and playlist they leave changed. -/
namespace MusicPlayer.Speaker
open CBytes Program Runs

variable (j : JsonC)

/-! ## What the functions work on -/

/-- What the system and the server answer while a switch runs. `accepts` tells of
each attempt to connect, `opendir` of a path while a device is mounted. -/
structure Surroundings where
  shm : Shm
  reply : Bytes
  opendir : Option Bytes → Bytes → Option (List Dirent)
  socket : Int
  accepts : Nat → Bool
  createsThread : Bool
  present : Bytes → Bool
  mounts : Bytes → Bool

/-- The globals of the player and those of the network side. `linkUp` while
`g_sockfd` is connected and not closed, `said` what `ReplyKeyWords` has been given. -/
structure Station where
  memory : Memory
  sockfd : Int
  linkUp : Bool
  readset : List Int
  maxfd : Int
  reporting : Bool
  mounted : Option Bytes
  said : List Bytes

variable (w : Surroundings)

def Surroundings.answer (mounted : Option Bytes) : (op : Call) → op.Answer
  | .getShm => w.shm
  | .recSocketData _ => w.reply
  | .opendir path => w.opendir mounted path
  | .getVolume => (0 : Int)
  | .pgrep => ([] : Bytes)
  | .semP => ()
  | .semV => ()
  | .setShm _ => ()
  | .signal => ()
  | .fork _ => ()
  | .kill _ => ()
  | .waitpid _ => ()
  | .writeFifo _ => ()
  | .send _ => ()
  | .setVolume _ => ()

namespace Station

/-- A function of the player, called with the station's memory. -/
def run (f : Memory → Code) (s : Station) : Except Fault Station := do
  let memory ← (f s.memory).eval (w.answer s.mounted)
  return { s with memory }

def replyKeyWords (words : String) (s : Station) : Station := { s with said := s.said ++ [lit words] }

def setMode (deviceMode : DeviceMode) (s : Station) : Station :=
  { s with memory := { s.memory with deviceMode } }

def clearFlags (s : Station) : Station :=
  { s with memory := { s.memory with startFlag := false, suspendFlag := false } }

/-- `FD_CLR`, `g_maxfd` and `close` in `ChangeOfflineMode`. -/
def closeSocket (s : Station) : Station :=
  { s with
    readset := s.readset.filter (· ≠ s.sockfd)
    maxfd := if s.sockfd = s.maxfd then s.maxfd - 1 else s.maxfd
    linkUp := false }

end Station

/-! ## The functions -/

/-- An attempt to connect; a descriptor that is none is refused. -/
def Surroundings.connect (sockfd : Int) (attempt : Nat) : Int :=
  if 0 ≤ sockfd ∧ w.accepts attempt = true then 0 else -1

/-- The loop of `InitSocket` with this many attempts left, and what the last one returned. -/
def connectLoop : Nat → Int → Station → Int × Station
  | 0, connectRet, s => (connectRet, s)
  | left + 1, _, s =>
      if w.connect s.sockfd (9 - left) < 0 then connectLoop left (-1) s
      else
        (0, { s.setMode .online with
          linkUp := true
          readset := s.readset.insert s.sockfd
          maxfd := if s.maxfd < s.sockfd then s.sockfd else s.maxfd
          reporting := s.reporting || w.createsThread })

def initSocket (s : Station) : Int × Station :=
  connectLoop w 10 0 { s with sockfd := w.socket, linkUp := false }

/-- The block device that is there, of the three looked for. -/
def usbDevice : Option Bytes :=
  if w.present (lit "/dev/sdc1") then some (lit "/dev/sdc1")
  else if w.present (lit "/dev/sda1") then some (lit "/dev/sda1")
  else if w.present (lit "/dev/sdb1") then some (lit "/dev/sdb1")
  else none

def noDeviceWords : String := "未检测到存储设备"
def offlineWords : String := "已经切换到离线模式"
def onlineWords : String := "已经切换到在线模式"
def offlineSinger : Bytes := lit "林俊杰"
def onlineSinger : Bytes := lit "其他"
def firstSinger : Bytes := lit "周杰伦"

/-- `ChangeOfflineMode` from the search for a device on. -/
def loadFromUsb (s : Station) : Except Fault Station :=
  match usbDevice w with
  | none => return s.replyKeyWords noDeviceWords
  | some dev => do
      let s := { s with mounted := if w.mounts dev then some dev else none }
      let s ← s.run w (getMusicName j offlineSinger)
      return s.replyKeyWords offlineWords

def changeOfflineMode (s : Station) : Except Fault Station :=
  if s.memory.deviceMode = .offline then .ok s
  else
    let s := { s with reporting := false }.setMode .offline
    let s := if 2 < s.sockfd then s.closeSocket else s
    do
      let s ← s.run w stopPlay
      loadFromUsb j w s.clearFlags

/-- `ChangeOnlineMode` from `InitSocket` on, whose result it drops. -/
def loadFromServer (s : Station) : Except Fault Station := do
  let (_, s) := initSocket w s
  let s ← s.run w (getMusicName j onlineSinger)
  return s.replyKeyWords onlineWords

def changeOnlineMode (s : Station) : Except Fault Station :=
  if s.memory.deviceMode = .online then .ok s
  else do
    let s ← s.run w stopPlay
    loadFromServer j w s.clearFlags

/-- `main` from `InitSocket` to `MySelect`. -/
def startUp (s : Station) : Except Fault Station := do
  let (ret, s) := initSocket w s
  let s ← if ret < 0 then changeOfflineMode j w (s.setMode .offline) else pure s
  if ret = 0 then do
    let s ← s.run w (getMusicName j firstSinger)
    s.run w (uploadMusic j)
  else return s

/-- `main` when it comes to `InitSocket`, with these descriptors in the set. -/
def booted (readset : List Int) (maxfd : Int) : Station where
  memory := ⟨false, false, .offline, [[]]⟩
  sockfd := 0
  linkUp := false
  readset := readset
  maxfd := maxfd
  reporting := false
  mounted := none
  said := []

/-! ## What `GetMusicName` loads -/

/-- The playlist a reply makes of one. -/
def linkNames (text : Bytes) (l : List Bytes) : Except Fault (List Bytes) :=
  (linkMusicList j text ⟨false, false, .online, l⟩).map Memory.musicHead

theorem linkMusicList_eq (text : Bytes) (s : Memory) :
    linkMusicList j text s = (linkNames j text s.musicHead).map fun musicHead => { s with musicHead } := by
  unfold linkNames linkMusicList
  cases j.parse text with
  | none => rfl
  | some obj =>
      dsimp only
      cases getString j (obj.member (lit "cmd")) with
      | none => rfl
      | some cmd =>
          dsimp only
          split
          · rfl
          · split
            · rename_i elems _
              cases arrayNames j elems with
              | error e => rfl
              | ok names =>
                  cases inserted : insertAll names s.musicHead <;>
                    simp [bind, Except.bind, pure, Except.pure, Except.map, inserted]
            · rfl

/-- The request for a singer is sent, the server's reply can be linked, and the
list it gives can be sent back. -/
structure ServerList (singer : Bytes) (l : List Bytes) : Prop where
  asked : ∃ sent, packet j.order (cstr (j.toJsonString (musicRequest singer))) = .ok sent
  linked : linkNames j w.reply [] = .ok l
  uploaded : ∃ sent, packet j.order (cstr (j.toJsonString (.object
    [(lit "cmd", .string (lit "upload_music")), (lit "music", .array (l.map .string))]))) = .ok sent

/-- The singer has a directory on the stick, and its tracks fit the list. -/
def UsbList (mounted : Option Bytes) (singer : Bytes) (l : List Bytes) : Prop :=
  ∃ entries dir path files names, w.opendir mounted offlineUrl = some entries ∧
    entries.find? (fun f => f.name ≠ lit "." && f.name ≠ lit ".." && f.name = singer) = some dir ∧
    strcat (store (zeros 256) 0 offlineUrl) dir.name = .ok path ∧
    w.opendir mounted (cstr path) = some files ∧ offlineNames dir.name files = .ok names ∧
    insertAll names [] = .ok l

theorem sendMusicInfo_eval {answer : (op : Call) → op.Answer} {obj : Json} {s t : Memory}
    (online : s.deviceMode = .online) :
    (sendMusicInfo j obj s).eval answer = .ok t ↔
      (∃ sent, packet j.order (cstr (j.toJsonString obj)) = .ok sent) ∧ t = s := by
  unfold sendMusicInfo
  rw [online]
  dsimp only
  rw [eval_check]
  cases packet j.order (cstr (j.toJsonString obj)) with
  | error e =>
      refine iff_of_false nofun ?_
      rintro ⟨⟨sent, same⟩, -⟩
      cases same
  | ok sent =>
      constructor
      · intro h
        cases h
        exact ⟨⟨sent, rfl⟩, rfl⟩
      · rintro ⟨-, rfl⟩
        rfl

theorem getMusicName_online (mounted : Option Bytes) {singer : Bytes} {s t : Memory}
    (online : s.deviceMode = .online) :
    (getMusicName j singer s).eval (w.answer mounted) = .ok t ↔
      ∃ l, ServerList j w singer l ∧ t = { s with musicHead := l } := by
  have mode : (clearMusicList s).deviceMode = .online := online
  unfold getMusicName
  dsimp only
  rw [mode]
  dsimp only
  rw [eval_andThen, Except.bind_eq_ok]
  have linked : linkMusicList j w.reply (clearMusicList s) =
      (linkNames j w.reply []).map fun musicHead => { s with musicHead } := linkMusicList_eq j _ _
  constructor
  · rintro ⟨u, asked, h⟩
    obtain ⟨sent, rfl⟩ := (sendMusicInfo_eval j mode).mp asked
    rw [eval, eval_check] at h
    obtain ⟨u, linking, upload⟩ := Except.bind_eq_ok.mp h
    rw [show w.answer mounted (.recSocketData .getMusicName) = w.reply from rfl, linked] at linking
    cases names : linkNames j w.reply [] with
    | error e =>
        rw [names] at linking
        cases linking
    | ok l =>
        rw [names] at linking
        cases linking
        have kept : ({ s with musicHead := l } : Memory).deviceMode = .online := online
        obtain ⟨uploaded, rfl⟩ := (sendMusicInfo_eval j kept).mp upload
        exact ⟨l, ⟨sent, names, uploaded⟩, rfl⟩
  · rintro ⟨l, ⟨asked, names, uploaded⟩, rfl⟩
    refine ⟨_, (sendMusicInfo_eval j mode).mpr ⟨asked, rfl⟩, ?_⟩
    rw [eval, eval_check]
    refine Except.bind_eq_ok.mpr ⟨{ s with musicHead := l }, ?_, ?_⟩
    · rw [show w.answer mounted (.recSocketData .getMusicName) = w.reply from rfl, linked, names]
      rfl
    · have kept : ({ s with musicHead := l } : Memory).deviceMode = .online := online
      exact (sendMusicInfo_eval j kept).mpr ⟨uploaded, rfl⟩

theorem getMusicName_offline {mounted : Option Bytes} {singer : Bytes} {s t : Memory}
    (offline : s.deviceMode = .offline) :
    (getMusicName j singer s).eval (w.answer mounted) = .ok t ↔
      ∃ l, UsbList w mounted singer l ∧ t = { s with musicHead := l } := by
  have mode : (clearMusicList s).deviceMode = .offline := offline
  have opens : ∀ path, w.answer mounted (.opendir path) = w.opendir mounted path := fun _ => rfl
  unfold getMusicName
  dsimp only
  rw [mode]
  dsimp only
  rw [eval, opens]
  constructor
  · intro h
    split at h
    · cases h
    · rename_i entries opened
      split at h
      · cases h
      · rename_i dir found
        rw [eval_check] at h
        obtain ⟨path, copied, h⟩ := Except.bind_eq_ok.mp h
        rw [eval, opens] at h
        split at h
        · cases h
        · rename_i files listed
          rw [eval_check] at h
          obtain ⟨names, named, h⟩ := Except.bind_eq_ok.mp h
          rw [eval_check] at h
          obtain ⟨l, inserted, h⟩ := Except.bind_eq_ok.mp h
          cases h
          exact ⟨l, ⟨entries, dir, path, files, names, opened, found, copied, listed, named, inserted⟩, rfl⟩
  · rintro ⟨l, ⟨entries, dir, path, files, names, opened, found, copied, listed, named, inserted⟩, rfl⟩
    rw [opened]
    dsimp only
    rw [found]
    dsimp only
    rw [eval_check, copied]
    refine Except.bind_eq_ok.mpr ⟨path, rfl, ?_⟩
    rw [eval, opens, listed]
    dsimp only
    rw [eval_check, named]
    refine Except.bind_eq_ok.mpr ⟨names, rfl, ?_⟩
    rw [eval_check]
    exact Except.bind_eq_ok.mpr ⟨l, inserted, rfl⟩

/-! ## Switching -/

/-- The switch is complete. -/
structure Completed (target : DeviceMode) (singer : Bytes) (words : String) (s t : Station) : Prop where
  mode : t.memory.deviceMode = target
  link : t.sockfd ∈ t.readset ↔ target = .online
  playlist : ∃ m u : Memory, m.deviceMode = target ∧
    (getMusicName j singer m).eval (w.answer t.mounted) = .ok u ∧ u.musicHead = t.memory.musicHead
  announced : t.said = s.said ++ [lit words]

/-- Nothing has been switched, and no success is announced. -/
structure Untouched (words : String) (s t : Station) : Prop where
  mode : t.memory.deviceMode = s.memory.deviceMode
  socket : t.sockfd = s.sockfd ∧ t.linkUp = s.linkUp
  member : t.sockfd ∈ t.readset ↔ s.sockfd ∈ s.readset
  playlist : t.memory.musicHead = s.memory.musicHead
  quiet : ∃ new, t.said = s.said ++ new ∧ lit words ∉ new

/-- All or nothing. -/
def Whole (target : DeviceMode) (singer : Bytes) (words : String) (s : Station)
    (result : Except Fault Station) : Prop :=
  ∃ t, result = .ok t ∧ (Completed j w target singer words s t ∨ Untouched words s t)

/-- The link is one `ChangeOfflineMode` closes, a device is there, and the singer's
list can be read from it. -/
structure OfflineReady (s : Station) : Prop where
  socket : 2 < s.sockfd ∨ s.sockfd ∉ s.readset
  device : ∃ dev l, usbDevice w = some dev ∧
    UsbList w (if w.mounts dev then some dev else none) offlineSinger l

/-- Some attempt of `InitSocket` is accepted. -/
def Connects : Prop := 0 ≤ w.socket ∧ ∃ attempt < 10, w.accepts attempt = true

/-- An attempt to connect is accepted, and the server's list can be taken over. -/
structure OnlineReady : Prop where
  link : Connects w
  playlist : ∃ l, ServerList j w onlineSinger l

theorem untouched_refl (words : String) (s : Station) : Untouched words s s where
  mode := rfl
  socket := ⟨rfl, rfl⟩
  member := .rfl
  playlist := rfl
  quiet := ⟨[], (List.append_nil _).symm, List.not_mem_nil⟩

/-- A function that returns, called with the station's memory. -/
theorem run_eq_ok {f : Memory → Code} {s t : Station} :
    s.run w f = .ok t ↔ ∃ m, (f s.memory).eval (w.answer s.mounted) = .ok m ∧ t = { s with memory := m } := by
  unfold Station.run
  rw [Except.bind_eq_ok]
  constructor
  · rintro ⟨m, done, same⟩
    cases same
    exact ⟨m, done, rfl⟩
  · rintro ⟨m, done, rfl⟩
    exact ⟨m, done, rfl⟩

/-- `StopPlay` returns, and after it only the flags may differ. -/
theorem run_stopPlay (s : Station) : ∃ t, s.run w stopPlay = .ok t ∧ t.clearFlags = s.clearFlags := by
  by_cases started : s.memory.startFlag = true
  · refine ⟨_, (run_eq_ok w).mpr ⟨{ s.memory with startFlag := false, suspendFlag := false }, ?_, rfl⟩, rfl⟩
    rw [stopPlay, if_pos started]
    rfl
  · refine ⟨_, (run_eq_ok w).mpr ⟨s.memory, ?_, rfl⟩, rfl⟩
    rw [stopPlay, if_neg started]
    rfl

/-- After a step that returns, the flags are cleared and the rest follows. -/
theorem stop_then {β : Type} (s : Station) (rest : Station → Except Fault β) :
    (s.run w stopPlay >>= fun t => rest t.clearFlags) = rest s.clearFlags := by
  obtain ⟨t, stopped, same⟩ := run_stopPlay w s
  rw [stopped, ← same]
  rfl

/-- In the mode asked for, a switch returns at once. -/
theorem changeOffline_stays {s : Station} (offline : s.memory.deviceMode = .offline) :
    changeOfflineMode j w s = .ok s := by
  rw [changeOfflineMode, if_pos offline]

theorem changeOnline_stays {s : Station} (online : s.memory.deviceMode = .online) :
    changeOnlineMode j w s = .ok s := by
  rw [changeOnlineMode, if_pos online]

theorem offlineWords_new : lit offlineWords ≠ lit noDeviceWords := by decide

/-- What `ChangeOfflineMode` has changed before it looks for a device. -/
theorem changeOffline_eq {s : Station} (online : s.memory.deviceMode = .online) :
    ∃ u : Station, changeOfflineMode j w s = loadFromUsb j w u ∧ u.memory.deviceMode = .offline ∧
      u.said = s.said ∧ (u.sockfd ∈ u.readset ↔ ¬ (2 < s.sockfd ∨ s.sockfd ∉ s.readset)) := by
  have other : s.memory.deviceMode ≠ .offline := by
    rw [online]
    decide
  refine ⟨(if 2 < s.sockfd then ({ s with reporting := false }.setMode .offline).closeSocket
    else { s with reporting := false }.setMode .offline).clearFlags, ?_, ?_, ?_, ?_⟩
  · unfold changeOfflineMode
    rw [if_neg other]
    exact stop_then w _ (loadFromUsb j w)
  · split <;> rfl
  · split <;> rfl
  · split
    · rename_i open_
      refine iff_of_false (fun member => ?_) fun kept => kept (.inl open_)
      have left_ : s.sockfd ∈ s.readset.filter (· ≠ s.sockfd) := member
      simp at left_
    · rename_i low
      change s.sockfd ∈ s.readset ↔ _
      simp [low]

/-- What the two endings of the search for a device leave. -/
theorem loadFromUsb_eq_ok {s t : Station} (offline : s.memory.deviceMode = .offline) :
    loadFromUsb j w s = .ok t ↔
      (usbDevice w = none ∧ t = s.replyKeyWords noDeviceWords) ∨
        ∃ dev l, usbDevice w = some dev ∧ UsbList w (if w.mounts dev then some dev else none) offlineSinger l ∧
          t = ({ s with
            mounted := if w.mounts dev then some dev else none
            memory := { s.memory with musicHead := l } } : Station).replyKeyWords offlineWords := by
  unfold loadFromUsb
  cases usbDevice w with
  | none =>
      constructor
      · intro h
        cases h
        exact .inl ⟨rfl, rfl⟩
      · rintro (⟨-, rfl⟩ | ⟨dev, l, same, -⟩)
        · rfl
        · cases same
  | some dev =>
      dsimp only
      rw [Except.bind_eq_ok]
      constructor
      · rintro ⟨u, loaded, same⟩
        obtain ⟨m, read, rfl⟩ := (run_eq_ok w).mp loaded
        obtain ⟨l, list, rfl⟩ := (getMusicName_offline j w offline).mp read
        cases same
        exact .inr ⟨dev, l, rfl, list, rfl⟩
      · rintro (⟨none_, -⟩ | ⟨dev, l, same, list, rfl⟩)
        · cases none_
        · cases same
          have read := (getMusicName_offline j w offline).mpr ⟨l, list, rfl⟩
          exact ⟨_, (run_eq_ok w).mpr ⟨_, read, rfl⟩, rfl⟩

theorem said_one {said : List Bytes} {a b : String} (h : said ++ [lit a] = said ++ [lit b]) : lit a = lit b :=
  List.singleton_inj.mp (List.append_cancel_left h)

theorem changeOffline_whole_iff (s : Station) :
    Whole j w .offline offlineSinger offlineWords s (changeOfflineMode j w s) ↔
      s.memory.deviceMode = .offline ∨ OfflineReady w s := by
  cases mode : s.memory.deviceMode with
  | offline =>
      exact iff_of_true ⟨s, changeOffline_stays j w mode, .inr (untouched_refl offlineWords s)⟩ (.inl rfl)
  | online =>
      obtain ⟨u, runs, offline, said, member⟩ := changeOffline_eq j w mode
      rw [runs]
      constructor
      · rintro ⟨t, done, whole⟩
        refine .inr ?_
        rcases (loadFromUsb_eq_ok j w offline).mp done with ⟨none_, rfl⟩ | ⟨dev, l, found, list, rfl⟩
        · rcases whole with completed | untouched
          · have same := completed.announced
            rw [← said] at same
            exact absurd (said_one same).symm offlineWords_new
          · cases offline.symm.trans (untouched.mode.trans mode)
        · rcases whole with completed | untouched
          · refine ⟨?_, dev, l, found, list⟩
            by_contra kept
            cases completed.link.mp (member.mpr kept)
          · cases offline.symm.trans (untouched.mode.trans mode)
      · rintro (same | ⟨socket, dev, l, found, list⟩)
        · cases same
        · refine ⟨_, (loadFromUsb_eq_ok j w offline).mpr (.inr ⟨dev, l, found, list, rfl⟩), .inl ?_⟩
          refine ⟨offline, ?_, ?_, ?_⟩
          · exact iff_of_false (fun inside => member.mp inside socket) nofun
          · exact ⟨u.memory, _, offline, (getMusicName_offline j w offline).mpr ⟨l, list, rfl⟩, rfl⟩
          · exact congrArg (fun said => said ++ [lit offlineWords]) said

/-! ## Connecting -/

/-- The loop of `InitSocket` stops at the first attempt that is accepted. -/
theorem connectLoop_spec (left : Nat) (few : left ≤ 10) (connectRet : Int) (s : Station) :
    (∃ attempt, 10 - left ≤ attempt ∧ attempt < 10 ∧ 0 ≤ s.sockfd ∧ w.accepts attempt = true ∧
      connectLoop w left connectRet s = (0, { s.setMode .online with
        linkUp := true
        readset := s.readset.insert s.sockfd
        maxfd := if s.maxfd < s.sockfd then s.sockfd else s.maxfd
        reporting := s.reporting || w.createsThread })) ∨
    (∀ attempt, 10 - left ≤ attempt → attempt < 10 → ¬ (0 ≤ s.sockfd ∧ w.accepts attempt = true)) ∧
      connectLoop w left connectRet s = (if left = 0 then connectRet else -1, s) := by
  induction left generalizing connectRet with
  | zero =>
      refine .inr ⟨fun attempt lower upper => ?_, rfl⟩
      omega
  | succ left ih =>
      unfold connectLoop Surroundings.connect
      by_cases accepted : 0 ≤ s.sockfd ∧ w.accepts (9 - left) = true
      · rw [if_pos accepted]
        exact .inl ⟨9 - left, by omega, by omega, accepted.1, accepted.2, rfl⟩
      · rw [if_neg accepted, if_pos (by decide)]
        rcases ih (by omega) (-1) with ⟨attempt, lower, upper, open_, accepts, result⟩ | ⟨refused, result⟩
        · exact .inl ⟨attempt, by omega, upper, open_, accepts, result⟩
        · refine .inr ⟨fun attempt lower upper => ?_, ?_⟩
          · by_cases first : attempt = 9 - left
            · rw [first]
              exact accepted
            · exact refused attempt (by omega) upper
          · rw [result, if_neg (Nat.succ_ne_zero left)]
            split <;> rfl

theorem initSocket_spec (s : Station) :
    (Connects w ∧ initSocket w s = (0, { s.setMode .online with
      sockfd := w.socket
      linkUp := true
      readset := s.readset.insert w.socket
      maxfd := if s.maxfd < w.socket then w.socket else s.maxfd
      reporting := s.reporting || w.createsThread })) ∨
    (¬ Connects w ∧ initSocket w s = (-1, { s with sockfd := w.socket, linkUp := false })) := by
  have loop := connectLoop_spec w 10 (le_refl 10) 0 { s with sockfd := w.socket, linkUp := false }
  rcases loop with ⟨attempt, -, upper, open_, accepts, result⟩ | ⟨refused, result⟩
  · exact .inl ⟨⟨open_, attempt, upper, accepts⟩, result⟩
  · refine .inr ⟨?_, result⟩
    rintro ⟨open_, attempt, upper, accepts⟩
    exact refused attempt (Nat.zero_le attempt) upper ⟨open_, accepts⟩

/-- What `ChangeOnlineMode` leaves: the server's list over a new link, or a list
from the stick with a descriptor that is not connected. -/
theorem loadFromServer_eq_ok {s t : Station} (offline : s.memory.deviceMode = .offline) :
    loadFromServer j w s = .ok t ↔
      (Connects w ∧ ∃ l, ServerList j w onlineSinger l ∧
        t = ({ s with
          memory := { s.memory with deviceMode := .online, musicHead := l }
          sockfd := w.socket
          linkUp := true
          readset := s.readset.insert w.socket
          maxfd := if s.maxfd < w.socket then w.socket else s.maxfd
          reporting := s.reporting || w.createsThread } : Station).replyKeyWords onlineWords) ∨
      (¬ Connects w ∧ ∃ l, UsbList w s.mounted onlineSinger l ∧
        t = ({ s with
          memory := { s.memory with musicHead := l }
          sockfd := w.socket
          linkUp := false } : Station).replyKeyWords onlineWords) := by
  unfold loadFromServer
  rcases initSocket_spec w s with ⟨connects, result⟩ | ⟨refused, result⟩
  · rw [result]
    dsimp only
    rw [Except.bind_eq_ok]
    have online : ({ s.memory with deviceMode := .online } : Memory).deviceMode = .online := rfl
    constructor
    · rintro ⟨u, loaded, same⟩
      obtain ⟨m, read, rfl⟩ := (run_eq_ok w).mp loaded
      obtain ⟨l, list, rfl⟩ := (getMusicName_online j w _ online).mp read
      cases same
      exact .inl ⟨connects, l, list, rfl⟩
    · rintro (⟨-, l, list, rfl⟩ | ⟨refused, -⟩)
      · have read := (getMusicName_online j w s.mounted online).mpr ⟨l, list, rfl⟩
        exact ⟨_, (run_eq_ok w).mpr ⟨_, read, rfl⟩, rfl⟩
      · exact absurd connects refused
  · rw [result]
    dsimp only
    rw [Except.bind_eq_ok]
    constructor
    · rintro ⟨u, loaded, same⟩
      obtain ⟨m, read, rfl⟩ := (run_eq_ok w).mp loaded
      obtain ⟨l, list, rfl⟩ := (getMusicName_offline j w offline).mp read
      cases same
      exact .inr ⟨refused, l, list, rfl⟩
    · rintro (⟨connects, -⟩ | ⟨-, l, list, rfl⟩)
      · exact absurd connects refused
      · have read := (getMusicName_offline j w offline).mpr ⟨l, list, rfl⟩
        exact ⟨_, (run_eq_ok w).mpr ⟨_, read, rfl⟩, rfl⟩

theorem changeOnline_eq {s : Station} (offline : s.memory.deviceMode = .offline) :
    changeOnlineMode j w s = loadFromServer j w s.clearFlags := by
  have other : s.memory.deviceMode ≠ .online := by
    rw [offline]
    decide
  rw [changeOnlineMode, if_neg other]
  exact stop_then w s (loadFromServer j w)

theorem changeOnline_whole_iff (s : Station) :
    Whole j w .online onlineSinger onlineWords s (changeOnlineMode j w s) ↔
      s.memory.deviceMode = .online ∨ OnlineReady j w := by
  cases mode : s.memory.deviceMode with
  | online =>
      exact iff_of_true ⟨s, changeOnline_stays j w mode, .inr (untouched_refl onlineWords s)⟩ (.inl rfl)
  | offline =>
      have cleared : s.clearFlags.memory.deviceMode = .offline := mode
      rw [changeOnline_eq j w mode]
      constructor
      · rintro ⟨t, done, whole⟩
        refine .inr ?_
        rcases (loadFromServer_eq_ok j w cleared).mp done with ⟨connects, l, list, rfl⟩ | ⟨refused, l, list, rfl⟩
        · exact ⟨connects, l, list⟩
        · rcases whole with completed | untouched
          · cases mode.symm.trans completed.mode
          · obtain ⟨new, said, silent⟩ := untouched.quiet
            have same : new = [lit onlineWords] := (List.append_cancel_left said).symm
            rw [same] at silent
            exact absurd List.mem_cons_self silent
      · rintro (same | ⟨connects, l, list⟩)
        · cases same
        · refine ⟨_, (loadFromServer_eq_ok j w cleared).mpr (.inl ⟨connects, l, list, rfl⟩), .inl ?_⟩
          refine ⟨rfl, iff_of_true ?_ rfl, ?_, rfl⟩
          · exact List.mem_insert_self
          · let m : Memory := { s.clearFlags.memory with deviceMode := .online }
            exact ⟨m, _, rfl, (getMusicName_online j w s.mounted rfl).mpr ⟨l, list, rfl⟩, rfl⟩

/-! ## Start-up -/

/-- What `main` goes into `MySelect` with: the server's list over a link, or the
globals as they were but for the descriptor. -/
theorem startUp_eq_ok {readset : List Int} {maxfd : Int} {s : Station} :
    startUp j w (booted readset maxfd) = .ok s ↔
      (Connects w ∧ ∃ l, ServerList j w firstSinger l ∧
        s = { booted readset maxfd with
          memory := ⟨false, false, .online, l⟩
          sockfd := w.socket
          linkUp := true
          readset := readset.insert w.socket
          maxfd := if maxfd < w.socket then w.socket else maxfd
          reporting := w.createsThread }) ∨
      (¬ Connects w ∧ s = { booted readset maxfd with sockfd := w.socket }) := by
  unfold startUp
  rcases initSocket_spec w (booted readset maxfd) with ⟨connects, result⟩ | ⟨refused, result⟩
  · rw [result]
    dsimp only
    rw [if_neg (lt_irrefl _), pure_bind, if_pos rfl]
    have online : (⟨false, false, .online, [[]]⟩ : Memory).deviceMode = .online := rfl
    constructor
    · intro done
      refine .inl ⟨connects, ?_⟩
      obtain ⟨u, loaded, sent⟩ := Except.bind_eq_ok.mp done
      obtain ⟨m, read, rfl⟩ := (run_eq_ok w).mp loaded
      obtain ⟨l, list, rfl⟩ := (getMusicName_online j w _ online).mp read
      obtain ⟨m, uploaded, rfl⟩ := (run_eq_ok w).mp sent
      obtain ⟨-, rfl⟩ := (sendMusicInfo_eval j rfl).mp uploaded
      exact ⟨l, list, rfl⟩
    · rintro (⟨-, l, list, rfl⟩ | ⟨refused, -⟩)
      · have read := (getMusicName_online j w none online).mpr ⟨l, list, rfl⟩
        let m : Memory := ⟨false, false, .online, l⟩
        have uploaded : (uploadMusic j m).eval (w.answer none) = .ok m :=
          (sendMusicInfo_eval j rfl).mpr ⟨list.uploaded, rfl⟩
        exact Except.bind_eq_ok.mpr ⟨_, (run_eq_ok w).mpr ⟨_, read, rfl⟩, (run_eq_ok w).mpr ⟨_, uploaded, rfl⟩⟩
      · exact absurd connects refused
  · rw [result]
    dsimp only
    rw [if_pos (by decide : (-1 : Int) < 0), changeOffline_stays j w rfl]
    change (Except.ok _ = Except.ok s) ↔ _
    constructor
    · intro done
      cases done
      exact .inr ⟨refused, rfl⟩
    · rintro (⟨connects, -⟩ | ⟨-, rfl⟩)
      · exact absurd connects refused
      · rfl

/-- `socket` gives a descriptor that is not in use, above the three standard ones, or none. -/
structure Surroundings.Fresh (s : Station) : Prop where
  unused : w.socket ∉ s.readset
  high : 0 ≤ w.socket → 2 < w.socket

/-- The server takes the connection, and no device is there. -/
def serverOnly : Surroundings where
  shm := ⟨[], [], 0, 0, 0, 0⟩
  reply := []
  opendir := fun _ _ => none
  socket := 5
  accepts := fun _ => true
  createsThread := true
  present := fun _ => false
  mounts := fun _ => false

/-- The same when the server refuses. -/
def alone : Surroundings := { serverOnly with accepts := fun _ => false }

/-- A json-c that reads every text as none. -/
def mute : JsonC := ⟨.little, fun _ => none, fun _ => []⟩

theorem serverOnly_list (singer : Bytes) : ServerList mute serverOnly singer [] := ⟨⟨_, rfl⟩, rfl, ⟨_, rfl⟩⟩

theorem serverOnly_starts : ∃ s, startUp mute serverOnly (booted [0] 0) = .ok s ∧ s.memory.deviceMode = .online :=
  ⟨_, (startUp_eq_ok mute serverOnly).mpr
    (.inl ⟨⟨by decide, 0, by decide, rfl⟩, [], serverOnly_list firstSinger, rfl⟩), rfl⟩

/-- Exactly when a switch is complete or has left everything as it was. -/
theorem switches_whole_iff (s : Station) :
    (Whole j w .offline offlineSinger offlineWords s (changeOfflineMode j w s) ↔
      s.memory.deviceMode = .offline ∨ OfflineReady w s) ∧
    (Whole j w .online onlineSinger onlineWords s (changeOnlineMode j w s) ↔
      s.memory.deviceMode = .online ∨ OnlineReady j w) :=
  ⟨changeOffline_whole_iff j w s, changeOnline_whole_iff j w s⟩

/-- The voice command for the offline mode, with no device: the mode is switched and the link closed. -/
theorem no_device_half_switched :
    ¬ ∀ (j : JsonC) (w₀ w : Surroundings) (readset : List Int) (maxfd : Int) (s : Station),
      w₀.Fresh (booted readset maxfd) → startUp j w₀ (booted readset maxfd) = .ok s →
      Whole j w .offline offlineSinger offlineWords s (changeOfflineMode j w s) ∧
        Whole j w .online onlineSinger onlineWords s (changeOnlineMode j w s) := by
  intro always
  obtain ⟨s, up, online⟩ := serverOnly_starts
  obtain ⟨whole, -⟩ := always mute serverOnly serverOnly [0] 0 s ⟨by decide, fun _ => by decide⟩ up
  rcases (changeOffline_whole_iff mute serverOnly s).mp whole with offline | ready
  · cases online.symm.trans offline
  · obtain ⟨dev, l, found, -⟩ := ready.device
    cases found

/-! ## Mode, link and playlist -/

inductive Switch
  | offline
  | online

/-- A switch, in these surroundings, that is reported as done. -/
inductive Reported : Station → Switch × Surroundings → Station → Prop
  | offline {s t : Station} {w : Surroundings} : changeOfflineMode j w s = .ok t →
      t.said = s.said ++ [lit offlineWords] → Reported s (.offline, w) t
  | online {s t : Station} {w : Surroundings} : w.Fresh s → changeOnlineMode j w s = .ok t →
      t.said = s.said ++ [lit onlineWords] → Reported s (.online, w) t

/-- The playlist is what `GetMusicName` gave in these surroundings, under the mode of now. -/
def Loaded (s : Station) : Prop :=
  ∃ (mounted : Option Bytes) (singer : Bytes) (m u : Memory), m.deviceMode = s.memory.deviceMode ∧
    (getMusicName j singer m).eval (w.answer mounted) = .ok u ∧ u.musicHead = s.memory.musicHead

/-- Mode, link and playlist agree; the playlist comes from one of `seen`. -/
def InSync (seen : List Surroundings) (s : Station) : Prop :=
  (∃ w ∈ seen, Loaded j w s) ∧ (s.memory.deviceMode = .online ↔ s.sockfd ∈ s.readset)

/-- The descriptor is in the set exactly while the mode is online, and can then be closed. -/
structure Linked (s : Station) : Prop where
  member : s.memory.deviceMode = .online ↔ s.sockfd ∈ s.readset
  high : s.memory.deviceMode = .online → 2 < s.sockfd

theorem said_same {said : List Bytes} {words : String} (h : said = said ++ [lit words]) : False := by
  have shorter := congrArg List.length h
  simp at shorter

/-- A reported switch leaves the list of the mode it leaves. -/
theorem reported_step {s t : Station} {i : Switch × Surroundings} (linked : Linked s)
    (one : Reported j s i t) : Loaded j i.2 t ∧ Linked t := by
  cases one with
  | offline done said =>
      rename_i w
      cases mode : s.memory.deviceMode with
      | offline =>
          rw [changeOffline_stays j w mode] at done
          cases done
          exact absurd said said_same
      | online =>
          obtain ⟨u, runs, offline, before, member⟩ := changeOffline_eq j w mode
          rw [runs] at done
          rcases (loadFromUsb_eq_ok j w offline).mp done with ⟨none_, rfl⟩ | ⟨dev, l, found, list, rfl⟩
          · rw [← before] at said
            exact absurd (said_one said).symm offlineWords_new
          · have read := (getMusicName_offline j w offline).mpr ⟨l, list, rfl⟩
            refine ⟨⟨_, _, u.memory, _, rfl, read, rfl⟩, ?_, ?_⟩
            · refine iff_of_false ?_ fun inside => member.mp inside (.inl (linked.high mode))
              intro online
              cases offline.symm.trans online
            · intro online
              cases offline.symm.trans online
  | online fresh done said =>
      rename_i w
      cases mode : s.memory.deviceMode with
      | online =>
          rw [changeOnline_stays j w mode] at done
          cases done
          exact absurd said said_same
      | offline =>
          have cleared : s.clearFlags.memory.deviceMode = .offline := mode
          rw [changeOnline_eq j w mode] at done
          rcases (loadFromServer_eq_ok j w cleared).mp done with ⟨connects, l, list, rfl⟩ | ⟨refused, l, list, rfl⟩
          · let m : Memory := { s.clearFlags.memory with deviceMode := .online }
            have read := (getMusicName_online j w s.mounted (s := m) rfl).mpr ⟨l, list, rfl⟩
            refine ⟨⟨_, _, m, _, rfl, read, rfl⟩, ?_, fun _ => fresh.high connects.1⟩
            exact iff_of_true rfl List.mem_insert_self
          · have read := (getMusicName_offline j w cleared).mpr ⟨l, list, rfl⟩
            refine ⟨⟨_, _, s.clearFlags.memory, _, rfl, read, rfl⟩, ?_, ?_⟩
            · refine iff_of_false ?_ fresh.unused
              intro online
              cases mode.symm.trans online
            · intro online
              cases mode.symm.trans online

/-- Start-up leaves the link in step with the mode, and a list when it connected. -/
theorem startUp_linked {readset : List Int} {maxfd : Int} {s : Station}
    (fresh : w.Fresh (booted readset maxfd)) (up : startUp j w (booted readset maxfd) = .ok s) :
    Linked s ∧ (Connects w → Loaded j w s) := by
  rcases (startUp_eq_ok j w).mp up with ⟨connects, l, list, rfl⟩ | ⟨refused, rfl⟩
  · let m : Memory := ⟨false, false, .online, [[]]⟩
    have read := (getMusicName_online j w none (s := m) rfl).mpr ⟨l, list, rfl⟩
    refine ⟨⟨iff_of_true rfl List.mem_insert_self, fun _ => fresh.high connects.1⟩, fun _ => ?_⟩
    exact ⟨_, _, m, _, rfl, read, rfl⟩
  · refine ⟨⟨iff_of_false nofun fresh.unused, nofun⟩, fun connects => absurd connects refused⟩

/-- Over a run of reported switches that is not empty, the list comes from the last of them. -/
theorem switches_linked {s t : Station} {switches : List (Switch × Surroundings)}
    (run : Trace (Reported j) s switches t) (linked : Linked s) :
    Linked t ∧ (switches ≠ [] → ∃ w ∈ switches.map Prod.snd, Loaded j w t) := by
  induction run with
  | nil s => exact ⟨linked, fun some_ => absurd rfl some_⟩
  | cons one rest ih =>
      rename_i s m t i is
      obtain ⟨loaded, next⟩ := reported_step j linked one
      obtain ⟨last, later⟩ := ih next
      refine ⟨last, fun _ => ?_⟩
      cases rest with
      | nil => exact ⟨i.2, List.mem_cons_self, loaded⟩
      | cons two more =>
          obtain ⟨w, seen, loaded⟩ := later (List.cons_ne_nil _ _)
          exact ⟨w, List.mem_cons_of_mem _ seen, loaded⟩

theorem offlineNames_ne_nil {dir : Bytes} {files : List Dirent} {names : List Bytes}
    (h : offlineNames dir files = .ok names) : ∀ name ∈ names, name ≠ [] := by
  induction files generalizing names with
  | nil =>
      cases h
      exact fun _ => nofun
  | cons f files ih =>
      rw [offlineNames] at h
      obtain ⟨buf, copied, h⟩ := Except.bind_eq_ok.mp h
      obtain ⟨slashed, joined, h⟩ := Except.bind_eq_ok.mp h
      split at h
      · obtain ⟨full, ended, h⟩ := Except.bind_eq_ok.mp h
        obtain ⟨others, listed, h⟩ := Except.bind_eq_ok.mp h
        cases h
        intro name member
        rcases List.mem_cons.mp member with rfl | other
        · rw [cstr_strcat ended, cstr_strcat joined]
          have slash : cstr (lit "/") = [47] := by decide
          simp [slash]
        · exact ih listed name other
      · exact ih h

/-- The node of `InitMusicLink` is no list from the stick. -/
theorem start_not_loaded {s : Station} (offline : s.memory.deviceMode = .offline)
    (first : s.memory.musicHead = [[]]) : ¬ Loaded j w s := by
  rintro ⟨mounted, singer, m, u, mode, read, same⟩
  obtain ⟨l, list, rfl⟩ := (getMusicName_offline j w (mode.trans offline)).mp read
  obtain ⟨entries, dir, path, files, names, -, -, -, -, named, inserted⟩ := list
  have full := offlineNames_ne_nil named
  have whole : l = [] ++ names := insertAll_eq full (fun _ => nofun) inserted
  have here : l = [[]] := same.trans first
  rw [here, List.nil_append] at whole
  refine full [] ?_ rfl
  rw [← whole]
  exact List.mem_cons_self

/-- Mode, link and playlist agree in `MySelect` exactly when start-up has reached
the server or a switch has been reported since. -/
theorem in_sync_iff {readset : List Int} {maxfd : Int} {s₀ s : Station}
    {switches : List (Switch × Surroundings)} (fresh : w.Fresh (booted readset maxfd))
    (up : startUp j w (booted readset maxfd) = .ok s₀) (run : Trace (Reported j) s₀ switches s) :
    InSync j (w :: switches.map Prod.snd) s ↔ Connects w ∨ switches ≠ [] := by
  obtain ⟨linked, first⟩ := startUp_linked j w fresh up
  obtain ⟨last, later⟩ := switches_linked j run linked
  constructor
  · rintro ⟨⟨w', -, loaded⟩, -⟩
    by_contra neither
    obtain ⟨refused, none_⟩ := not_or.mp neither
    obtain rfl := not_not.mp none_
    cases run
    rcases (startUp_eq_ok j w).mp up with ⟨connects, -⟩ | ⟨-, rfl⟩
    · exact refused connects
    · exact start_not_loaded j w' rfl rfl loaded
  · rintro (connects | some_)
    · refine ⟨?_, last.member⟩
      cases run with
      | nil => exact ⟨w, List.mem_cons_self, first connects⟩
      | cons one rest =>
          obtain ⟨w', seen, loaded⟩ := later (List.cons_ne_nil _ _)
          exact ⟨w', List.mem_cons_of_mem _ seen, loaded⟩
    · obtain ⟨w', seen, loaded⟩ := later some_
      exact ⟨⟨w', List.mem_cons_of_mem _ seen, loaded⟩, last.member⟩

theorem alone_refused : ¬ Connects alone := by
  rintro ⟨-, attempt, -, accepts⟩
  cases accepts

theorem alone_starts : startUp mute alone (booted [0] 0) = .ok { booted [0] 0 with sockfd := 5 } :=
  (startUp_eq_ok mute alone).mpr (.inr ⟨alone_refused, rfl⟩)

/-- A start-up without the server never loads a list. -/
theorem refused_start_unloaded :
    ¬ ∀ (j : JsonC) (w : Surroundings) (readset : List Int) (maxfd : Int) (s₀ s : Station)
      (switches : List (Switch × Surroundings)), w.Fresh (booted readset maxfd) →
      startUp j w (booted readset maxfd) = .ok s₀ → Trace (Reported j) s₀ switches s →
      InSync j (w :: switches.map Prod.snd) s := by
  intro always
  obtain ⟨⟨w, -, loaded⟩, -⟩ := always mute alone [0] 0 _ _ [] ⟨by decide, fun _ => by decide⟩ alone_starts (.nil _)
  exact start_not_loaded mute w rfl rfl loaded

/-- Started without the server, and switched online later. -/
theorem switched_in_sync :
    ∃ s t, startUp mute alone (booted [0] 0) = .ok s ∧ Trace (Reported mute) s [(.online, serverOnly)] t ∧
      InSync mute [alone, serverOnly] t := by
  have reached : Connects serverOnly := ⟨by decide, 0, by decide, rfl⟩
  obtain ⟨t, done, said⟩ : ∃ t, changeOnlineMode mute serverOnly { booted [0] 0 with sockfd := 5 } = .ok t ∧
      t.said = [lit onlineWords] :=
    ⟨_, (loadFromServer_eq_ok mute serverOnly rfl).mpr
      (.inl ⟨reached, [], serverOnly_list onlineSinger, rfl⟩), rfl⟩
  have run : Trace (Reported mute) { booted [0] 0 with sockfd := 5 } [(.online, serverOnly)] t :=
    .cons (.online ⟨by decide, fun _ => by decide⟩ done said) (.nil t)
  exact ⟨_, t, alone_starts, run,
    (in_sync_iff mute alone ⟨by decide, fun _ => by decide⟩ alone_starts run).mpr (.inr nofun)⟩

end MusicPlayer.Speaker
