import MusicPlayer.Speaker.Playing
import MusicPlayer.Speaker.Select

/-! The menu on the terminal. `select` looks at what the terminal holds, while
`scanf` first takes what an earlier read has left in the stream's buffer. -/
namespace MusicPlayer.Speaker.Keyboard
open CBytes Program Runs Select

variable (j : JsonC)

/-! ## Standard input -/

/-- What has been typed and not read, in the pieces that one `read` takes each
(an empty one is an end of file typed in), whether the terminal has gone, and
the stream's buffer and its end-of-file flag, which stays set. -/
structure Stdin where
  held : List Bytes
  gone : Bool
  buffer : Bytes
  eof : Bool

def Stdin.start : Stdin := ⟨[], false, [], false⟩

/-- `select` reports the descriptor. -/
def Stdin.ready (s : Stdin) : Bool := !s.held.isEmpty || s.gone

/-- `scanf("%c", &key)`: the key, or at the end of the file none; not at all where `read` waits. -/
def Stdin.scanf (s : Stdin) : Option (Option UInt8 × Stdin) :=
  if s.eof then some (none, s)
  else
    match s.buffer, s.held with
    | key :: buffer, _ => some (some key, { s with buffer })
    | [], (key :: buffer) :: held => some (some key, { s with buffer, held })
    | [], [] :: held => some (none, { s with held, eof := true })
    | [], [] => if s.gone then some (none, { s with eof := true }) else none

/-! ## The menu -/

def menu : List (Char × (Memory → Code)) :=
  [('1', startPlay), ('2', stopPlay), ('3', suspendPlay), ('4', continuePlay), ('5', nextPlay j), ('6', prevPlay),
    ('7', upVolume), ('8', downVolume), ('c', circlePlay), ('s', sequencePlay)]

/-- The `switch` of `ReadStdIO`. Its `fflush(stdin)` leaves the buffer of a stream that cannot seek. -/
def readStdIo (key : UInt8) (s : Memory) : Code :=
  match (menu j).find? fun entry => entry.1.toNat = key.toNat with
  | some entry => entry.2 s
  | none => .done s

/-- What each key does to the music. -/
def effects : List (Char × (Playing → Playing)) :=
  [('1', fun _ => .playing), ('2', fun _ => .stopped), ('3', .pause), ('4', .resume), ('5', .resume), ('6', .resume),
    ('7', id), ('8', id), ('c', id), ('s', id)]

def effect (key : UInt8) (p : Playing) : Playing :=
  match effects.find? fun entry => entry.1.toNat = key.toNat with
  | some entry => entry.2 p
  | none => p

theorem menu_does :
    List.Forall₂ (fun entry told => entry.1 = told.1 ∧ Does told.2 entry.2) (menu j) effects :=
  .cons ⟨rfl, startPlay_does⟩ <| .cons ⟨rfl, stopPlay_does⟩ <| .cons ⟨rfl, suspendPlay_does⟩ <|
    .cons ⟨rfl, continuePlay_does⟩ <| .cons ⟨rfl, nextPlay_does j⟩ <| .cons ⟨rfl, prevPlay_does⟩ <|
    .cons ⟨rfl, upVolume_does⟩ <| .cons ⟨rfl, downVolume_does⟩ <| .cons ⟨rfl, setMode_does circle⟩ <|
    .cons ⟨rfl, setMode_does sequence⟩ .nil

theorem readStdIo_does (key : UInt8) : Does (effect key) (readStdIo j key) := by
  have both : ∀ {entries : List (Char × (Memory → Code))} {tellings : List (Char × (Playing → Playing))},
      List.Forall₂ (fun entry told => entry.1 = told.1 ∧ Does told.2 entry.2) entries tellings →
      (entries.find? (fun entry => entry.1.toNat = key.toNat) = none ∧
        tellings.find? (fun entry => entry.1.toNat = key.toNat) = none) ∨
      ∃ entry told, entries.find? (fun entry => entry.1.toNat = key.toNat) = some entry ∧
        tellings.find? (fun entry => entry.1.toNat = key.toNat) = some told ∧ Does told.2 entry.2 := by
    intro entries tellings aligned
    induction aligned with
    | nil => exact .inl ⟨rfl, rfl⟩
    | @cons entry told entries tellings one _ ih =>
        by_cases here : told.1.toNat = key.toNat
        · refine .inr ⟨entry, told, ?_, ?_, one.2⟩
          · rw [List.find?_cons_of_pos (by simp [one.1, here])]
          · rw [List.find?_cons_of_pos (by simp [here])]
        · rw [List.find?_cons_of_neg (by simp [one.1, here]), List.find?_cons_of_neg (by simp [here])]
          exact ih
  intro p s t stands ends
  unfold readStdIo at ends
  unfold effect
  rcases both (menu_does j) with ⟨unknown, silent⟩ | ⟨entry, told, known, tells, does⟩
  · rw [unknown] at ends
    rw [silent]
    exact does_done stands ends
  · rw [known] at ends
    rw [tells]
    exact does stands ends

/-! ## The loop -/

/-- The main loop with its descriptors, its standard input and the player's globals. -/
structure Panel where
  fds : Descriptors
  stdin : Stdin
  memory : Memory

inductive Event
  | type (piece : Bytes)
  | hangUp
  | key (k : Option UInt8)
  | serve (source : Source)
  | act (a : Act)

/-- A pass of `MySelect` serves the first source of its chain that is ready, or
something happens outside. Without a key the variable holds any value, and what
is done for another source may leave the globals in any way. -/
inductive Loops (s : Panel) : Event → Panel → Prop
  | type (piece : Bytes) : s.stdin.gone = false →
      Loops s (.type piece) { s with stdin := { s.stdin with held := s.stdin.held ++ [piece] } }
  | hangUp : Loops s .hangUp { s with stdin := { s.stdin with gone := true } }
  | key {ready : Int → Bool} {k : UInt8} {stdin : Stdin} {m : Memory} : ready 0 = s.stdin.ready →
      s.fds.mySelect (s.fds.select ready) = some .stdin → s.stdin.scanf = some (some k, stdin) →
      Ends (readStdIo j k s.memory) m → Loops s (.key (some k)) { s with stdin, memory := m }
  | noKey {ready : Int → Bool} (k : UInt8) {stdin : Stdin} {m : Memory} : ready 0 = s.stdin.ready →
      s.fds.mySelect (s.fds.select ready) = some .stdin → s.stdin.scanf = some (none, stdin) →
      Ends (readStdIo j k s.memory) m → Loops s (.key none) { s with stdin, memory := m }
  | serve {ready : Int → Bool} {source : Source} (m : Memory) : ready 0 = s.stdin.ready →
      s.fds.mySelect (s.fds.select ready) = some source → source ≠ .stdin →
      Loops s (.serve source) { s with memory := m }
  | act {a : Act} {fds : Descriptors} : Step ⟨.running, s.fds⟩ a ⟨.running, fds⟩ → Loops s (.act a) { s with fds }

/-! ## Standard input stays in the set -/

/-- From `InitSelect` on. -/
def Watched (p : Watcher) : Prop := p.Inv ∧ (p.stage ≠ .begun → 0 ∈ p.fds.readset)

theorem mem_watch {d : Descriptors} (fd : Int) (member : 0 ∈ d.readset) : 0 ∈ (d.watch fd).readset :=
  List.mem_insert_of_mem member

theorem mem_unwatch {d : Descriptors} {fd : Int} (other : fd ≠ 0) (member : 0 ∈ d.readset) :
    0 ∈ (d.unwatch fd).readset := by
  have kept : 0 ∈ d.readset.filter (· ≠ fd) := by simpa [member] using other.symm
  exact kept

theorem mem_initSocket {d : Descriptors} (w : Surroundings) (member : 0 ∈ d.readset) :
    0 ∈ (d.initSocket w).2.readset := by
  rcases Descriptors.connectLoop_cases w 10 0 { d.opened w.socket with sockfd := w.socket } with
    ⟨-, connected⟩ | ⟨ret, refused⟩
  · rw [Descriptors.initSocket, connected]
    exact mem_watch _ member
  · rw [Descriptors.initSocket, refused]
    exact member

theorem mem_changeOfflineMode {d : Descriptors} (member : 0 ∈ d.readset) : 0 ∈ d.changeOfflineMode.readset := by
  unfold Descriptors.changeOfflineMode
  dsimp only
  split
  · exact member
  · split
    next high => exact mem_unwatch (by omega) member
    next => exact member

theorem watched_step {p p' : Watcher} {act : Act} (h : Watched p) (step : Step p act p') : Watched p' := by
  refine ⟨inv_step p act p' h.1 step, fun _ => ?_⟩
  have member := h.2
  cases step with
  | initSelect => exact List.mem_singleton_self 0
  | @initButton d fd unused =>
      have member := member (by simp)
      unfold Descriptors.initButton
      dsimp only
      split
      · exact member
      · exact mem_watch _ member
  | @initFifo d d' asrfd ttsfd unused _ done =>
      have member := member (by simp)
      unfold Descriptors.initFifo at done
      dsimp only at done
      split at done
      · cases done
      · cases done
        exact mem_watch _ member
  | initSocket unused =>
      have member := member (by simp)
      unfold Descriptors.startUp
      dsimp only
      split
      · exact mem_changeOfflineMode (mem_initSocket _ member)
      · exact mem_initSocket _ member
  | @recSocketDataEnd d =>
      have sock : Descriptors.Above d.sockfd := (show d.Running from h.1).sock
      refine mem_unwatch ?_ (member (by simp))
      rcases sock with none_ | high <;> omega
  | @readAsrFifoEnd d =>
      have high : 2 < d.asrfd := (show d.Running from h.1).asr
      exact mem_unwatch (by omega) (member (by simp))
  | changeOfflineMode => exact mem_changeOfflineMode (member (by simp))
  | changeOnlineMode unused =>
      unfold Descriptors.changeOnlineMode
      split
      · exact member (by simp)
      · exact mem_initSocket _ (member (by simp))

theorem watched_boot {inherited : List Int} {acts : List Act} {p : Watcher}
    (boot : Trace Step (.begun inherited) acts p) : Watched p :=
  boot.invariant (fun _ _ _ h step => watched_step h step) ⟨inv_begun inherited, fun other => absurd rfl other⟩

/-- While the terminal has something to read, the loop serves nothing else. -/
theorem mySelect_stdin {d : Descriptors} (h : Watched ⟨.running, d⟩) {ready : Int → Bool} (some_ : ready 0 = true) :
    d.mySelect (d.select ready) = some .stdin := by
  have member : 0 ∈ d.readset := h.2 (by simp)
  have bound : 0 ≤ d.maxfd := (h.1.sound.bounded 0 member).2
  have reported : 0 ∈ d.select ready := by
    unfold Descriptors.select
    rw [List.mem_filter]
    exact ⟨member, by simpa [some_] using (show (0 : Int) < d.maxfd + 1 by omega)⟩
  rw [Descriptors.mySelect, if_pos reported]

theorem mySelect_quiet {d : Descriptors} {ready : Int → Bool} (none_ : ready 0 = false) :
    d.mySelect (d.select ready) ≠ some .stdin := by
  have unreported : 0 ∉ d.select ready := by
    unfold Descriptors.select
    rw [List.mem_filter]
    rintro ⟨-, tested⟩
    simp [none_] at tested
  rw [Descriptors.mySelect, if_neg unreported]
  split
  · simp
  · split
    · simp
    · split <;> simp

theorem watched_loop {s t : Panel} {e : Event} (h : Watched ⟨.running, s.fds⟩) (one : Loops j s e t) :
    Watched ⟨.running, t.fds⟩ := by
  cases one with
  | act step => exact watched_step h step
  | type _ _ => exact h
  | hangUp => exact h
  | key _ _ _ _ => exact h
  | noKey _ _ _ _ _ => exact h
  | serve _ _ _ _ => exact h

/-! ## The keys -/

def Event.piece : Event → Option Bytes
  | .type piece => some piece
  | _ => none

def Event.taken : Event → Option UInt8
  | .key k => k
  | _ => none

/-- What has been typed in a run, and the keys the menu has been given. -/
def pieces (es : List Event) : List Bytes := es.filterMap Event.piece

def keys (es : List Event) : List UInt8 := es.filterMap Event.taken

/-- The pieces read so far have been taken key by key, and the last one beyond
its first key only if more has been typed since. -/
def Taken (typed : List Bytes) (taken : List UInt8) (s : Stdin) : Prop :=
  s.eof = false ∧ s.gone = false ∧
    ((s.buffer = [] ∧ taken = [] ∧ typed = s.held) ∨
      ∃ before last n, typed = before ++ last :: s.held ∧ taken = before.flatten ++ last.take (n + 1) ∧
        s.buffer = last.drop (n + 1) ∧ n < last.length ∧ (s.held = [] → n = 0))

theorem taken_type {typed : List Bytes} {taken : List UInt8} {s : Stdin} (h : Taken typed taken s) (piece : Bytes) :
    Taken (typed ++ [piece]) taken { s with held := s.held ++ [piece] } := by
  obtain ⟨eof, gone, ⟨empty, none_, same⟩ | ⟨before, last, n, same, keys, left, inside, -⟩⟩ := h
  · exact ⟨eof, gone, .inl ⟨empty, none_, congrArg (· ++ [piece]) same⟩⟩
  · refine ⟨eof, gone, .inr ⟨before, last, n, ?_, keys, left, inside, fun other => ?_⟩⟩
    · simp [same]
    · simp at other

/-- A key is taken from what the buffer holds, else from the next piece. -/
theorem taken_key {typed : List Bytes} {taken : List UInt8} {s t : Stdin} {k : Option UInt8} (h : Taken typed taken s)
    (some_ : ∀ piece ∈ typed, piece ≠ []) (ready : s.ready = true) (read : s.scanf = some (k, t)) :
    ∃ key, k = some key ∧ Taken typed (taken ++ [key]) t := by
  obtain ⟨held, gone, buffer, eof⟩ := s
  obtain ⟨rfl, rfl, cases_⟩ := h
  have more : held ≠ [] := by
    rintro rfl
    cases ready
  dsimp only at cases_
  cases buffer with
  | cons key rest =>
      cases read
      refine ⟨key, rfl, rfl, rfl, ?_⟩
      rcases cases_ with ⟨empty, -⟩ | ⟨before, last, n, same, keys, left, inside, -⟩
      · cases empty
      · have further : n + 1 < last.length := by
          have size := congrArg List.length left
          rw [List.length_cons, List.length_drop] at size
          omega
        rw [List.drop_eq_getElem_cons further] at left
        obtain ⟨rfl, rfl⟩ := List.cons.inj left
        refine .inr ⟨before, last, n + 1, same, ?_, rfl, further, fun none_ => absurd none_ more⟩
        rw [keys, List.append_assoc, List.take_append_getElem further]
  | nil =>
      cases held with
      | nil => exact absurd rfl more
      | cons piece held =>
          have listed : piece ∈ typed := by
            rcases cases_ with ⟨-, -, same⟩ | ⟨before, last, n, same, -⟩ <;> simp [same]
          cases piece with
          | nil => exact absurd rfl (some_ [] listed)
          | cons key rest =>
              cases read
              refine ⟨key, rfl, rfl, rfl, .inr ?_⟩
              rcases cases_ with ⟨-, rfl, same⟩ | ⟨before, last, n, same, keys, left, inside, -⟩
              · exact ⟨[], key :: rest, 0, same, rfl, rfl, Nat.succ_pos _, fun _ => rfl⟩
              · have whole : last.length ≤ n + 1 := List.drop_eq_nil_iff.mp left.symm
                refine ⟨before ++ [last], key :: rest, 0, by simp [same], ?_, rfl, Nat.succ_pos _, fun _ => rfl⟩
                rw [keys, List.take_of_length_le whole, List.flatten_append, List.flatten_singleton]
                rfl

/-- What holds while the terminal is there and only the menu is used. -/
structure Minds (p : Playing) (past : List Event) (s : Panel) : Prop where
  taken : Taken (pieces past) (keys past) s.stdin
  music : (∀ source, .serve source ∉ past) → Stands ((keys past).foldl (fun q k => effect k q) p) s.memory

theorem pieces_snoc (past : List Event) (e : Event) : pieces (past ++ [e]) = pieces past ++ e.piece.toList := by
  rw [pieces, List.filterMap_append]
  cases e <;> rfl

theorem keys_snoc (past : List Event) (e : Event) : keys (past ++ [e]) = keys past ++ e.taken.toList := by
  rw [keys, List.filterMap_append]
  cases e with
  | key k => cases k <;> rfl
  | _ => rfl

/-- An event that is no key and leaves the globals. -/
theorem Minds.beside {p : Playing} {past : List Event} {s t : Panel} {e : Event} (h : Minds p past s)
    (noKey : e.taken = none) (taken : Taken (pieces past ++ e.piece.toList) (keys past) t.stdin)
    (memory : t.memory = s.memory) : Minds p (past ++ [e]) t := by
  have same : keys (past ++ [e]) = keys past := by rw [keys_snoc, noKey, Option.toList_none, List.append_nil]
  refine ⟨by rwa [pieces_snoc, same], fun only => ?_⟩
  rw [same, memory]
  exact h.music fun source member => only source (List.mem_append_left _ member)

theorem minds_step {p : Playing} {past : List Event} {s t : Panel} {e : Event} (h : Minds p past s)
    (some_ : ∀ piece ∈ pieces past, piece ≠ []) (stays : e ≠ .hangUp) (one : Loops j s e t) :
    Minds p (past ++ [e]) t := by
  have reported : ∀ {ready : Int → Bool}, ready 0 = s.stdin.ready →
      s.fds.mySelect (s.fds.select ready) = some .stdin → s.stdin.ready = true := by
    intro ready same chosen
    by_contra quiet
    exact mySelect_quiet (same.trans (Bool.eq_false_of_not_eq_true quiet)) chosen
  cases one with
  | type piece _ => exact h.beside rfl (taken_type h.taken piece) rfl
  | hangUp => exact absurd rfl stays
  | @key ready k stdin m same chosen read ends =>
      obtain ⟨key, found, taken⟩ := taken_key h.taken some_ (reported same chosen) read
      cases found
      refine ⟨?_, fun only => ?_⟩
      · rw [pieces_snoc, keys_snoc]
        exact (List.append_nil (pieces past)).symm ▸ taken
      · rw [keys_snoc, List.foldl_append]
        exact readStdIo_does j k (h.music fun source member => only source (List.mem_append_left _ member)) ends
  | @noKey ready k stdin m same chosen read ends =>
      obtain ⟨key, found, -⟩ := taken_key h.taken some_ (reported same chosen) read
      cases found
  | serve m _ _ _ =>
      refine ⟨?_, fun only => ?_⟩
      · rw [pieces_snoc, keys_snoc]
        exact (List.append_nil (pieces past)).symm ▸ (List.append_nil (keys past)).symm ▸ h.taken
      · exact absurd (List.mem_append_right _ (List.mem_singleton_self _)) (only _)
  | act _ => exact h.beside rfl ((List.append_nil (pieces past)).symm ▸ h.taken) rfl

/-- As long as no end of file comes the keys are taken in the order they were typed in.
Once the loop comes to rest, of the last piece only the first has been: the rest waits
for the next piece, whatever else the loop serves meanwhile. -/
theorem keys_in_order {d : Descriptors} {memory : Memory} {p : Playing} (stands : Stands p memory) {es : List Event}
    {t : Panel} (run : Trace (Loops j) ⟨d, .start, memory⟩ es t) (typed : ∀ piece ∈ pieces es, piece ≠ [])
    (stays : .hangUp ∉ es) :
    keys es ++ t.stdin.buffer ++ t.stdin.held.flatten = (pieces es).flatten ∧
      (t.stdin.held = [] → keys es = (pieces es).dropLast.flatten ++ ((pieces es).getLast?.getD []).take 1) ∧
      ((∀ source, .serve source ∉ es) → Stands ((keys es).foldl (fun q k => effect k q) p) t.memory) := by
  have minds : (∀ piece ∈ pieces es, piece ≠ []) → .hangUp ∉ es → Minds p es t := by
    refine run.history_nil
      (I := fun past t => (∀ piece ∈ pieces past, piece ≠ []) → .hangUp ∉ past → Minds p past t) ?_ fun _ _ => ?_
    · intro past s e t before one typed stays
      have earlier : ∀ piece ∈ pieces past, piece ≠ [] := by
        intro piece member
        refine typed piece ?_
        rw [pieces_snoc]
        exact List.mem_append_left _ member
      have stayed : .hangUp ∉ past := fun member => stays (List.mem_append_left _ member)
      refine minds_step j (before earlier stayed) earlier ?_ one
      rintro rfl
      exact stays (List.mem_append_right _ (List.mem_singleton_self _))
    · exact ⟨⟨rfl, rfl, .inl ⟨rfl, rfl, rfl⟩⟩, fun _ => stands⟩
  obtain ⟨⟨-, -, cases_⟩, music⟩ := minds typed stays
  refine ⟨?_, fun quiet => ?_, music⟩
  · rcases cases_ with ⟨empty, none_, same⟩ | ⟨before, last, n, same, taken, left, -⟩
    · rw [empty, none_, same]
      rfl
    · rw [same, taken, left, List.flatten_append, List.flatten_cons, List.append_assoc before.flatten,
        List.take_append_drop, List.append_assoc]
  · rcases cases_ with ⟨-, none_, same⟩ | ⟨before, last, n, same, taken, -, -, first⟩
    · rw [none_, same, quiet]
      rfl
    · rw [quiet] at same
      rw [taken, first quiet, same, List.dropLast_concat, List.getLast?_concat]
      rfl

/-- A set of standard input alone. -/
def onlyStdin : Descriptors := ⟨[0], 0, 0, 0, 0, 0, .offline, [0, 1, 2]⟩

/-- Two keys on one line: the second waits for another line. -/
theorem second_key_waits :
    ∃ es t, Trace (Loops ⟨.little, fun _ => none, fun _ => []⟩) ⟨onlyStdin, .start, ⟨false, false, .offline, [[]]⟩⟩ es t ∧
      pieces es = [lit "21\n"] ∧ t.stdin.held = [] ∧ t.stdin.buffer = lit "1\n" ∧
      (t.stdin.held = [] → keys es = (pieces es).dropLast.flatten ++ ((pieces es).getLast?.getD []).take 1) := by
  let j : JsonC := ⟨.little, fun _ => none, fun _ => []⟩
  have chosen : onlyStdin.mySelect (onlyStdin.select fun _ => true) = some .stdin := by decide
  have run : Trace (Loops j) ⟨onlyStdin, .start, ⟨false, false, .offline, [[]]⟩⟩
      [.type (lit "21\n"), .key (some 50)]
      ⟨onlyStdin, ⟨[], false, lit "1\n", false⟩, ⟨false, false, .offline, [[]]⟩⟩ :=
    .cons (.type (lit "21\n") rfl) <| .cons (.key (by rfl) chosen rfl (.done _)) (.nil _)
  have counted := keys_in_order j (p := .stopped) ⟨rfl, rfl⟩ run (by decide) (by simp)
  exact ⟨_, _, run, rfl, rfl, rfl, counted.2.1⟩

/-! ## The end of standard input -/

/-- From here on the descriptor is always ready: the terminal has gone, or
something is typed behind an end of file. -/
def Stdin.Stuck (s : Stdin) : Prop := s.gone = true ∨ s.eof = true ∧ s.held ≠ []

theorem Stdin.Stuck.ready {s : Stdin} (h : s.Stuck) : s.ready = true := by
  rcases h with gone | ⟨-, more⟩
  · simp [Stdin.ready, gone]
  · simp [Stdin.ready, more]

theorem Stdin.Stuck.scanf {s t : Stdin} {k : Option UInt8} (h : s.Stuck) (read : s.scanf = some (k, t)) : t.Stuck := by
  obtain ⟨held, gone, buffer, eof⟩ := s
  unfold Stdin.scanf at read
  dsimp only at read
  split at read
  · cases read
    exact h
  next open_ =>
    have left : gone = true := by
      rcases h with gone | ⟨ended, -⟩
      · exact gone
      · exact absurd ended open_
    subst left
    split at read
    · cases read
      exact .inl rfl
    · cases read
      exact .inl rfl
    · cases read
      exact .inl rfl
    · rw [if_pos rfl] at read
      cases read
      exact .inl rfl

theorem stuck_step {s t : Panel} {e : Event} (watched : Watched ⟨.running, s.fds⟩) (h : s.stdin.Stuck)
    (one : Loops j s e t) : t.stdin.Stuck ∧ ∀ source, e ≠ .serve source := by
  cases one with
  | type piece here =>
      refine ⟨?_, fun source => by simp⟩
      rcases h with gone | ⟨ended, more⟩
      · exact .inl gone
      · exact .inr ⟨ended, by simp⟩
  | hangUp => exact ⟨.inl rfl, fun source => by simp⟩
  | key _ _ read _ => exact ⟨h.scanf read, fun source => by simp⟩
  | noKey _ _ _ read _ => exact ⟨h.scanf read, fun source => by simp⟩
  | serve m same chosen other =>
      have first := mySelect_stdin watched (same.trans h.ready)
      exact absurd (Option.some.inj (chosen.symm.trans first)) other
  | act _ => exact ⟨h, fun source => by simp⟩

/-- Where standard input has come to its end, the loop never rests and never
again serves the network, the button or the recogniser. -/
theorem stdin_end_starves {inherited : List Int} {acts : List Act} {d : Descriptors} {memory : Memory}
    (boot : Trace Step (.begun inherited) acts ⟨.running, d⟩) {past later : List Event} {s t : Panel}
    (run : Trace (Loops j) ⟨d, .start, memory⟩ past s) (ended : s.stdin.Stuck) (rest : Trace (Loops j) s later t) :
    t.stdin.ready = true ∧ ∀ source, .serve source ∉ later := by
  have watched : Watched ⟨.running, s.fds⟩ :=
    run.invariant (I := fun s => Watched ⟨.running, s.fds⟩) (fun s e t h one => watched_loop j h one)
      (watched_boot boot)
  have stays := rest.history_nil
    (I := fun past s => Watched ⟨.running, s.fds⟩ ∧ s.stdin.Stuck ∧ ∀ source, .serve source ∉ past) ?_
    ⟨watched, ended, fun source => List.not_mem_nil⟩
  · exact ⟨stays.2.1.ready, stays.2.2⟩
  · rintro past s e t ⟨watched, stuck, none_⟩ one
    obtain ⟨still, other⟩ := stuck_step j watched stuck one
    refine ⟨watched_loop j watched one, still, fun source member => ?_⟩
    rcases List.mem_append.mp member with before | last
    · exact none_ source before
    · exact other source (List.mem_singleton.mp last).symm

/-- Started without a terminal. -/
theorem no_terminal_starves :
    ∃ d s, Trace (Loops ⟨.little, fun _ => none, fun _ => []⟩) ⟨d, .start, ⟨false, false, .offline, [[]]⟩⟩ [.hangUp] s ∧
      ∀ later t, Trace (Loops ⟨.little, fun _ => none, fun _ => []⟩) s later t →
        t.stdin.ready = true ∧ ∀ source, .serve source ∉ later := by
  let j : JsonC := ⟨.little, fun _ => none, fun _ => []⟩
  obtain ⟨d, boot⟩ : ∃ d, Trace Step (.begun []) [.initSelect, .initButton 3, .initFifo 4 6, .initSocket serverOnly]
      ⟨.running, d⟩ :=
    ⟨_, .cons .initSelect <| .cons (.initButton (.inr (by decide))) <|
      .cons (.initFifo (.inr (by decide)) (.inr (by decide)) rfl) <| .cons (.initSocket (.inr (by decide))) (.nil _)⟩
  have run : Trace (Loops j) ⟨d, .start, ⟨false, false, .offline, [[]]⟩⟩ [.hangUp] _ := .cons .hangUp (.nil _)
  exact ⟨_, _, run, fun later t rest => stdin_end_starves j boot run (.inl rfl) rest⟩

end MusicPlayer.Speaker.Keyboard
