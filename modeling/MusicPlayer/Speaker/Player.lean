import MusicPlayer.Speaker.Memory

/-! The player's functions, and the requests and commands of the network side,
as programs over the memory of the parent process. -/
namespace MusicPlayer.Speaker
open CBytes FirstMatch Program

/-- json-c as the speaker uses it: `json_tokener_parse`, which gives a null
pointer for what is no JSON and for the text `null`, and `json_object_to_json_string`. -/
structure JsonC where
  order : ByteOrder
  parse : Bytes → Option Json
  toJsonString : Json → Bytes

variable (j : JsonC)

/-- `json_object_get_string`: a null pointer stays one. -/
def getString : Json → Option Bytes
  | .null => none
  | .string s => some (cstr s)
  | v => some (cstr (j.toJsonString v))

/-! ## Requests to the server -/

def sendMusicInfo (obj : Json) (s : Memory) : Code :=
  match s.deviceMode with
  | .online => check (packet j.order (cstr (j.toJsonString obj))) fun _ =>
      .call s (.send obj) fun _ s => .done s
  | .offline => .done s

def uploadMusic (s : Memory) : Code :=
  sendMusicInfo j (.object [(lit "cmd", .string (lit "upload_music")),
    (lit "music", .array (s.musicHead.map .string))]) s

/-- The elements of the array as `InsertMusic` gets them. -/
def arrayNames : List Json → Except Fault (List Bytes)
  | [] => .ok []
  | e :: elems =>
      match getString j e with
      | none => .error .nullPointer
      | some name => do
          let names ← arrayNames elems
          return name :: names

def linkMusicList (text : Bytes) (s : Memory) : Except Fault Memory :=
  match j.parse text with
  | none => .ok s
  | some obj =>
      match getString j (obj.member (lit "cmd")) with
      | none => .error .nullPointer
      | some cmd =>
          if cmd ≠ lit "reply_music_list" then .ok s
          else
            match obj.member (lit "music") with
            | .array elems => do
                let names ← arrayNames j elems
                let musicHead ← insertAll names s.musicHead
                return { s with musicHead }
            | _ => .error .assertion

def musicRequest (singer : Bytes) : Json :=
  .object [(lit "cmd", .string (lit "get_music_list")), (lit "singer", .string singer)]

/-- The names the loop over the singer's directory inserts. The buffer `name`
takes the directory's name before the entry is looked at. -/
def offlineNames (dir : Bytes) : List Dirent → Except Fault (List Bytes)
  | [] => .ok []
  | f :: files => do
      let name ← strcpy (zeros 128) dir
      let name ← strcat name (lit "/")
      if f.regular && strstr f.name (lit ".mp3") then
        let name ← strcat name f.name
        let names ← offlineNames dir files
        return cstr name :: names
      else offlineNames dir files

def getMusicName (singer : Bytes) (s : Memory) : Code :=
  let s := clearMusicList s
  match s.deviceMode with
  | .online =>
      (sendMusicInfo j (musicRequest singer) s).andThen fun s =>
        .call s (.recSocketData .getMusicName) fun musicName s =>
          check (linkMusicList j musicName s) fun s => uploadMusic j s
  | .offline =>
      .call s (.opendir offlineUrl) fun singerDir s =>
        match singerDir with
        | none => .fail .nullPointer
        | some entries =>
            match entries.find? fun f => f.name ≠ lit "." && f.name ≠ lit ".." && f.name = singer with
            | none => .fail .nullPointer
            | some dir =>
                check (strcat (store (zeros 256) 0 offlineUrl) dir.name) fun path =>
                  .call s (.opendir (cstr path)) fun musicDir s =>
                    match musicDir with
                    | none => .fail .nullPointer
                    | some files => check (offlineNames dir.name files) fun names =>
                        check (insertAll names s.musicHead) fun musicHead => .done { s with musicHead }

theorem sendMusicInfo_every {P : Call → Prop} (send : ∀ obj, P (.send obj)) (obj : Json) (s : Memory) :
    (sendMusicInfo j obj s).Every P := by
  unfold sendMusicInfo
  split
  · apply Every.check
    intro bytes
    exact .call (send obj) fun _ s => .done s
  · exact .done s

/-- What `GetMusicName` calls. -/
theorem getMusicName_every {P : Call → Prop} (send : ∀ obj, P (.send obj))
    (recv : P (.recSocketData .getMusicName)) (opendir : ∀ path, P (.opendir path)) (singer : Bytes)
    (s : Memory) : (getMusicName j singer s).Every P := by
  unfold getMusicName
  dsimp only
  split
  · refine (sendMusicInfo_every j send _ _).andThen fun s => ?_
    refine .call recv fun text s => ?_
    apply Every.check
    intro s
    exact sendMusicInfo_every j send _ s
  · refine .call (opendir _) fun singerDir s => ?_
    split
    · exact .fail _
    · split
      · exact .fail _
      · apply Every.check
        intro path
        refine .call (opendir _) fun musicDir s => ?_
        split
        · exact .fail _
        · apply Every.check
          intro names
          apply Every.check
          intro musicHead
          exact .done _

/-! ## Playing -/

def continuePlay (s : Memory) : Code :=
  if s.suspendFlag then
    .call s (.writeFifo (lit "pause\n")) fun _ s => .done { s with suspendFlag := false }
  else .done s

def suspendPlay (s : Memory) : Code :=
  if s.startFlag && !s.suspendFlag then
    .call s (.writeFifo (lit "pause\n")) fun _ s => .done { s with suspendFlag := true }
  else .done s

def playMusic (musicName : Bytes) (s : Memory) : Code :=
  .call s (.fork musicName) fun _ s => .done s

def startPlay (s : Memory) : Code :=
  if s.suspendFlag then continuePlay s
  else if s.startFlag then .done s
  else .call s .signal fun _ s =>
    match s.musicHead with
    | [] => .fail .nullPointer
    | name :: _ => check (strcpy (zeros 128) name) fun musicName =>
        playMusic musicName { s with startFlag := true }

/-- `Handle`, at the end of a short press of the button. -/
def handle (s : Memory) : Code :=
  if s.startFlag = false then startPlay s
  else if s.suspendFlag = false then suspendPlay s
  else continuePlay s

theorem continuePlay_every {P : Call → Prop} (fifo : ∀ cmd, P (.writeFifo cmd)) (s : Memory) :
    (continuePlay s).Every P := by
  unfold continuePlay
  split
  · exact .call (fifo _) fun _ s => .done _
  · exact .done s

/-- What `StartPlay` calls: to go on, the fifo; to start, `signal` and `fork`. -/
theorem startPlay_every {P : Call → Prop} (signal : P .signal) (fork : ∀ musicName, P (.fork musicName))
    (fifo : ∀ cmd, P (.writeFifo cmd)) (s : Memory) : (startPlay s).Every P := by
  unfold startPlay
  split
  · exact continuePlay_every fifo s
  · split
    · exact .done s
    · refine .call signal fun _ s => ?_
      split
      · exact .fail _
      · apply Every.check
        intro musicName
        exact .call (fork _) fun _ s => .done s

/-- `StopPlay` once it has read the record, and after each of its calls. -/
def stopReap (child : Int) (s : Memory) : Code :=
  .call s (.waitpid child) fun _ s => .done s

def stopQuit (child : Int) (s : Memory) : Code :=
  .call { s with startFlag := false, suspendFlag := false } (.writeFifo (lit "quit\n"))
    fun _ s => stopReap child s

def stopKill (child : Int) (s : Memory) : Code :=
  .call s (.kill child) fun _ s => stopQuit child s

def stopPlay (s : Memory) : Code :=
  if s.startFlag then .call s .getShm fun curInfo s => stopKill curInfo.childPid s else .done s

/-- What `StopPlay` calls. -/
theorem stopPlay_every {P : Call → Prop} (getShm : P .getShm) (kill : ∀ pid, P (.kill pid))
    (fifo : ∀ cmd, P (.writeFifo cmd)) (waitpid : ∀ pid, P (.waitpid pid)) (s : Memory) :
    (stopPlay s).Every P := by
  unfold stopPlay
  split
  · refine .call getShm fun curInfo s => ?_
    refine .call (kill _) fun _ s => ?_
    refine .call (fifo _) fun _ s => ?_
    exact .call (waitpid _) fun _ s => .done s
  · exact .done s

def updateMusic (s : Memory) : Code :=
  .call { s with startFlag := false } .semP fun _ s =>
    .call s .getShm fun curInfo s =>
      .call s .semV fun _ s =>
        .call s (.waitpid curInfo.childPid) fun _ s =>
          (getMusicName j (cstr curInfo.curSigner) (clearMusicList s)).andThen startPlay

/-- The end of `NextPlay` and of `PrevPlay`: the track in the buffer `name` is
recorded and loaded into the running mplayer. -/
def loadTrack (curInfo : Shm) (name : Bytes) (s : Memory) : Code :=
  check (setCurrent curInfo name) fun curInfo =>
    .call s (.setShm curInfo) fun _ s =>
      .call s .semV fun _ s =>
        check (musicPath s.deviceMode name) fun path =>
          .call s (.writeFifo (lit "loadfile " ++ cstr path ++ lit "\n")) fun _ s =>
            .done { s with suspendFlag := false }

/-- The current track's full name, put together in `char [128]`. -/
def currentName (curInfo : Shm) : Except Fault Bytes := do
  let name ← strcpy (zeros 128) (cstr curInfo.curSigner)
  let name ← strcat name (lit "/")
  strcat name (cstr curInfo.curMusic)

/-- What `NextPlay` loads; `none` when the playlist is at its end. -/
def nextTrack (curInfo : Shm) (s : Memory) : Except Fault (Option Bytes) :=
  if curInfo.curMode = circle then do
    let name ← currentName curInfo
    return some name
  else do
    match ← findNextMusic s.musicHead (cstr curInfo.curMusic) with
    | none => return none
    | some next =>
        let name ← strcpy (zeros 128) next
        return some name

/-- The branch of `NextPlay` for a playlist that is at its end: the lock taken
before is not given back. -/
def reload (curInfo : Shm) (s : Memory) : Code :=
  (stopPlay s).andThen fun s =>
    (getMusicName j (cstr curInfo.curSigner) (clearMusicList s)).andThen startPlay

def nextPlay (s : Memory) : Code :=
  if s.startFlag then
    .call s .semP fun _ s =>
      .call s .getShm fun curInfo s =>
        check (nextTrack curInfo s) fun next =>
          match next with
          | none => reload j curInfo s
          | some name => loadTrack curInfo name s
  else .done s

def prevTrack (curInfo : Shm) (s : Memory) : Except Fault Bytes :=
  if curInfo.curMode = circle then currentName curInfo
  else do
    match ← findPrevMusic s.musicHead (cstr curInfo.curMusic) with
    | some prev => strcpy (zeros 128) prev
    | none =>
        match s.musicHead with
        | [] => .error .nullPointer
        | first :: _ => strcpy (zeros 128) first

def prevPlay (s : Memory) : Code :=
  if s.startFlag then
    .call s .semP fun _ s =>
      .call s .getShm fun curInfo s =>
        check (prevTrack curInfo s) fun name => loadTrack curInfo name s
  else .done s

def upVolume (s : Memory) : Code :=
  .call s .getVolume fun (volume : Int) s =>
    if volume < 90 then .call s (.setVolume (volume + 10)) fun _ s => .done s else .done s

def downVolume (s : Memory) : Code :=
  .call s .getVolume fun (volume : Int) s =>
    if volume > 10 then .call s (.setVolume (volume - 10)) fun _ s => .done s else .done s

/-- `CirclePlay` and `SequencePlay` change the record without the lock. -/
def setMode (mode : Int) (s : Memory) : Code :=
  .call s .getShm fun curInfo s =>
    .call s (.setShm { curInfo with curMode := mode }) fun _ s => .done s

def circlePlay : Memory → Code := setMode circle
def sequencePlay : Memory → Code := setMode sequence

/-! ## Commands from the server -/

/-- The text `ParseMessage` leaves in `cmd[32]`. -/
def parseMessage (buffer : Bytes) : Except Fault Bytes :=
  match j.parse buffer with
  | none => .ok []
  | some obj =>
      match getString j (obj.member (lit "cmd")) with
      | none => .ok []
      | some cmd => if cmd.length < 32 then .ok cmd else .error .outOfBounds

def sendReply (cmd result : String) (s : Memory) : Code :=
  sendMusicInfo j (.object [(lit "cmd", .string (lit cmd)), (lit "result", .string (lit result))]) s

/-- The command, then its answer. -/
def answered (run : Memory → Code) (cmd : String) (s : Memory) : Code :=
  (run s).andThen (sendReply j cmd "success")

def socketStartPlay (s : Memory) : Code :=
  (startPlay s).andThen fun s => .call s .pgrep fun (result : Bytes) s =>
    sendReply j "app_start_reply" (if result = [] then "failure" else "success") s

def socketStopPlay (s : Memory) : Code :=
  (stopPlay s).andThen fun s => .call s .pgrep fun (result : Bytes) s =>
    sendReply j "app_stop_reply" (if result = [] then "success" else "failure") s

def socketSuspendPlay : Memory → Code := answered j suspendPlay "app_suspend_reply"
def socketContinuePlay : Memory → Code := answered j continuePlay "app_suspend_reply"
def socketNextPlay : Memory → Code := answered j (nextPlay j) "app_next_reply"
def socketPrevPlay : Memory → Code := answered j prevPlay "app_prev_reply"
def socketDownVolume : Memory → Code := answered j downVolume "app_downvolume_reply"
def socketUpVolume : Memory → Code := answered j upVolume "app_upvolume_reply"
def socketCirPlay : Memory → Code := answered j circlePlay "app_circle_reply"
def socketSeqPlay : Memory → Code := answered j sequencePlay "app_sequence_reply"

/-- The chain of comparisons in `ReadSocket`. -/
def handlers : List (String × (Memory → Code)) :=
  [("app_start", socketStartPlay j), ("app_stop", socketStopPlay j),
    ("app_suspend", socketSuspendPlay j), ("app_continue", socketContinuePlay j),
    ("app_next", socketNextPlay j), ("app_prev", socketPrevPlay j),
    ("app_downvolume", socketDownVolume j), ("app_upvolume", socketUpVolume j),
    ("app_circle", socketCirPlay j), ("app_sequence", socketSeqPlay j),
    ("app_get_music", uploadMusic j), ("app_capture_cur_musiclist", uploadMusic j)]

def execute (cmd : Bytes) (s : Memory) : Code :=
  match (handlers j).find? fun h => cmd = lit h.1 with
  | some (_, run) => run s
  | none => .done s

theorem execute_known {name : String} {run : Memory → Code} (known : (name, run) ∈ handlers j)
    (s : Memory) : execute j (lit name) s = run s := by
  have names : (handlers j).map (fun h => lit h.1) = [lit "app_start", lit "app_stop",
      lit "app_suspend", lit "app_continue", lit "app_next", lit "app_prev", lit "app_downvolume",
      lit "app_upvolume", lit "app_circle", lit "app_sequence", lit "app_get_music",
      lit "app_capture_cur_musiclist"] := rfl
  have distinct : ((handlers j).map fun h => lit h.1).Nodup := by
    rw [names]
    decide
  rw [execute, find_key distinct known]

/-- The names compared are not empty. -/
theorem execute_empty (s : Memory) : execute j [] s = .done s := by
  have missing : (handlers j).find? (fun h => [] = lit h.1) = none := by
    rw [List.find?_eq_none]
    intro h member
    have named : ∀ h ∈ handlers j, lit h.1 ≠ [] := by
      simp only [handlers, List.forall_mem_cons, List.not_mem_nil, false_implies, implies_true, and_true]
      decide
    simpa using (named h member).symm
  rw [execute, missing]

/-- `ReadSocket` once it has read a frame. -/
def dispatchFrame (buffer : Bytes) (s : Memory) : Code :=
  check (parseMessage j buffer) fun cmd => execute j cmd s

def readSocket (s : Memory) : Code :=
  .call s (.recSocketData .readSocket) (dispatchFrame j)

/-! ## What the main loop starts -/

/-- Everything the parent does from its main loop while it stays connected.
`sing` is the voice command for a singer. -/
inductive Task
  | startPlay
  | stopPlay
  | suspendPlay
  | continuePlay
  | nextPlay
  | prevPlay
  | upVolume
  | downVolume
  | circlePlay
  | sequencePlay
  | getMusicName (singer : Bytes)
  | sing (singer : Bytes)
  | uploadMusic
  | readSocket

def Task.run : Task → Memory → Code
  | .startPlay => Speaker.startPlay
  | .stopPlay => Speaker.stopPlay
  | .suspendPlay => Speaker.suspendPlay
  | .continuePlay => Speaker.continuePlay
  | .nextPlay => Speaker.nextPlay j
  | .prevPlay => Speaker.prevPlay
  | .upVolume => Speaker.upVolume
  | .downVolume => Speaker.downVolume
  | .circlePlay => Speaker.circlePlay
  | .sequencePlay => Speaker.sequencePlay
  | .getMusicName singer => Speaker.getMusicName j singer
  | .sing singer => fun s =>
      (Speaker.stopPlay s).andThen fun s => (Speaker.getMusicName j singer s).andThen Speaker.startPlay
  | .uploadMusic => Speaker.uploadMusic j
  | .readSocket => Speaker.readSocket j

end MusicPlayer.Speaker
