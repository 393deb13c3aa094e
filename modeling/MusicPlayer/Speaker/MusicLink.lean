import MusicPlayer.Lib.Heap
import MusicPlayer.Speaker.Lengths
import Mathlib.Algebra.Order.BigOperators.Group.List

/-! The playlist as it lies in memory: the functions of `link.c` on nodes that
are allocated, linked and freed, and the names these nodes stand for. -/
namespace MusicPlayer.Speaker.MusicLink
open CBytes InMemory

/-! ## Memory -/

/-- `value` is `music_name[127]`. -/
abbrev MusicNode := Node Bytes

/-- Why a call does not come back: a fault, a block that is not in use, a loop
along a circle, or `exit`. -/
inductive Stop
  | fault (f : Fault)
  | dangling
  | endless
  | exit
  deriving DecidableEq, Repr

/-- `malloc`, told how often it has been called and which blocks are in use: a
new block with anything in it, or a null pointer. -/
structure Malloc where
  malloc : Nat → List Linked.Iter → Option (Linked.Iter × MusicNode)
  fresh : ∀ {n live a node}, malloc n live = some (a, node) → a ∉ live
  sized : ∀ {n live a node}, malloc n live = some (a, node) → node.value.length = 127

def Malloc.Succeeds (m : Malloc) : Prop := ∀ n live, (m.malloc n live).isSome

/-- The nodes and `music_head`; `freed` is what `free` has been given, in order. -/
structure Nodes where
  heap : Heap Bytes
  musicHead : Option Linked.Iter
  freed : List Linked.Iter
  mallocs : Nat

namespace Nodes

/-- Before anything is allocated. -/
def initial : Nodes := ⟨∅, none, [], 0⟩

def load (a : Linked.Iter) (s : Nodes) : Except Stop MusicNode :=
  match s.heap.lookup a with
  | none => .error .dangling
  | some node => .ok node

def store (a : Linked.Iter) (node : MusicNode) (s : Nodes) : Nodes := { s with heap := s.heap.insert a node }

def alloc (m : Malloc) (s : Nodes) : Option (Linked.Iter × MusicNode × Nodes) :=
  (m.malloc s.mallocs s.heap.keys).map fun (a, node) =>
    (a, node, { s.store a node with mallocs := s.mallocs + 1 })

/-- `free` of a pointer that is not null. -/
def free (a : Linked.Iter) (s : Nodes) : Except Stop Nodes :=
  if a ∈ s.heap then .ok { s with heap := s.heap.erase a, freed := s.freed ++ [a] } else .error .dangling

end Nodes

def copy (buf name : Bytes) : Except Stop Bytes := (strcpy buf (cstr name)).mapError .fault

/-- `%s` of a name. -/
def printName (buf : Bytes) : Except Stop Bytes :=
  if 0 ∈ buf then .ok (cstr buf) else .error (.fault .outOfBounds)

/-! ## The functions -/

namespace Nodes
variable (j : JsonC) (m : Malloc)

def initMusicLink (s : Nodes) : Except Stop Nodes :=
  match s.alloc m with
  | none => .error .exit
  | some (a, node, s) => .ok { s.store a ⟨node.value.set 0 0, none, none⟩ with musicHead := some a }

/-- The loop of `CheckMusicList`, and what it prints. There are not more nodes
than blocks: a loop that goes on longer goes round. -/
def printFrom : Nat → Option Linked.Iter → Nodes → Except Stop (List Bytes)
  | _, none, _ => .ok []
  | 0, some _, _ => .error .endless
  | fuel + 1, some cur, s => do
      let node ← s.load cur
      let name ← printName node.value
      let names ← printFrom fuel node.next s
      return name :: names

def checkMusicList (s : Nodes) : Except Stop (List Bytes) := s.printFrom s.heap.keys.length s.musicHead

/-- `while(cur->next)`, bounded in the same way. -/
def last : Nat → Linked.Iter → Nodes → Except Stop Linked.Iter
  | 0, _, _ => .error .endless
  | fuel + 1, cur, s => do
      let node ← s.load cur
      match node.next with
      | none => .ok cur
      | some next => last fuel next s

/-- `InsertMusic` from the second `malloc` on. -/
def appendMusic (name : Bytes) (head : Linked.Iter) (s : Nodes) : Except Stop Nodes :=
  match s.alloc m with
  | none => .error (.fault .nullPointer)
  | some (new, node, s) => do
      let musicName ← copy node.value name
      let cur ← s.last s.heap.keys.length head
      let curNode ← s.load cur
      let s := s.store cur { curNode with next := some new }
      let s := s.store new ⟨musicName, some cur, none⟩
      let _ ← s.checkMusicList
      return s

/-- `InsertMusic` once there is a head. -/
def insertAt (name : Bytes) (s : Nodes) : Except Stop Nodes :=
  match s.musicHead with
  | none => .error (.fault .nullPointer)
  | some head => do
      let node ← s.load head
      if node.value[0]? = some 0 then do
        let musicName ← copy node.value name
        return s.store head { node with value := musicName }
      else s.appendMusic m name head

def insertMusic (name : Bytes) (s : Nodes) : Except Stop Nodes := do
  let s ← if s.musicHead = none then s.initMusicLink m else .ok s
  s.insertAt m name

/-- The loop of `LinkMusicList`. -/
def insertNames : List Json → Nodes → Except Stop Nodes
  | [], s => .ok s
  | e :: elems, s =>
      match getString j e with
      | none => .error (.fault .nullPointer)
      | some name => do
          let s ← s.insertMusic m name
          insertNames elems s

def linkMusicList (text : Bytes) (s : Nodes) : Except Stop (Int × Nodes) :=
  match j.parse text with
  | none => .ok (-1, s)
  | some obj =>
      match getString j (obj.member (lit "cmd")) with
      | none => .error (.fault .nullPointer)
      | some cmd =>
          if cmd ≠ lit "reply_music_list" then .ok (-1, s)
          else
            match obj.member (lit "music") with
            | .array elems => do
                let s ← insertNames j m elems s
                let _ ← s.checkMusicList
                return (0, s)
            | _ => .error (.fault .assertion)

/-- The loop of `ClearMusicList`: what has been freed is not freed again, so it
ends after as many passes as there are blocks. -/
def clearFrom : Nat → Option Linked.Iter → Nodes → Except Stop Nodes
  | _, none, s => .ok s
  | 0, some _, _ => .error .endless
  | fuel + 1, some p, s => do
      let node ← s.load p
      let _ ← printName node.value
      let s ← s.free p
      clearFrom fuel node.next s

def clearMusicList (s : Nodes) : Except Stop Nodes := do
  let s ← s.clearFrom s.heap.keys.length s.musicHead
  return { s with musicHead := none }

end Nodes

/-! ## What the nodes stand for -/

/-- The names in the nodes of a chain, from the head on. -/
def names (c : Linked.Chain Bytes) : List Bytes := c.values.map cstr

/-- The songs among the names: an empty-named head is none. -/
def songs (l : List Bytes) : List Bytes := if l = [[]] then [] else l

/-- Memory holds this chain of nodes, each with a C string in its buffer. -/
structure Represents (s : Nodes) (c : Linked.Chain Bytes) : Prop where
  holds : LaidOut s.heap s.musicHead c
  buffers : ∀ buf ∈ c.values, buf.length = 127 ∧ 0 ∈ buf

variable {s : Nodes} {c : Linked.Chain Bytes}

/-- There are as many blocks as nodes. -/
theorem Represents.length (rep : Represents s c) : s.heap.keys.length = c.nodes.length := by
  have perm : s.heap.keys.Perm c.iters :=
    (List.perm_ext_iff_of_nodup s.heap.keys_nodup c.distinct).mpr fun a =>
      AList.mem_keys.symm.trans (rep.holds.whole a)
  rw [perm.length_eq, Linked.Chain.iters, List.length_map]

theorem load_eq {a : Linked.Iter} {node : MusicNode} (found : s.heap.lookup a = some node) : s.load a = .ok node := by
  rw [Nodes.load, found]

/-- The loop prints the names and comes to the end of the list. -/
theorem printFrom_eq {prev : Option Linked.Iter} {nodes : List (Linked.Iter × Bytes)} {fuel : Nat}
    (segment : Segment s.heap prev nodes none) (buffers : ∀ n ∈ nodes, 0 ∈ n.2) (enough : nodes.length ≤ fuel) :
    s.printFrom fuel (first nodes) = .ok (nodes.map fun n => cstr n.2) := by
  induction nodes generalizing prev fuel with
  | nil => cases fuel <;> rfl
  | cons n rest ih =>
      obtain ⟨a, buf⟩ := n
      obtain ⟨fuel, rfl⟩ := Nat.exists_eq_succ_of_ne_zero (show fuel ≠ 0 by rw [List.length_cons] at enough; omega)
      obtain ⟨here, segment⟩ := segment
      rw [Option.or_none] at here
      rw [List.forall_mem_cons] at buffers
      have later := ih segment buffers.2 (Nat.le_of_succ_le_succ enough)
      change s.printFrom (fuel + 1) (some a) = _
      simp only [Nodes.printFrom, load_eq here, Except.ok_bind, printName, if_pos buffers.1, later]
      rfl

/-- The loop stops at the last node. -/
theorem last_eq {prev : Option Linked.Iter} {pre : List (Linked.Iter × Bytes)} {z a : Linked.Iter} {buf : Bytes} {fuel : Nat}
    (segment : Segment s.heap prev (pre ++ [(z, buf)]) none) (start : first (pre ++ [(z, buf)]) = some a)
    (enough : pre.length < fuel) : s.last fuel a = .ok z := by
  induction pre generalizing prev a fuel with
  | nil =>
      obtain ⟨fuel, rfl⟩ := Nat.exists_eq_succ_of_ne_zero (show fuel ≠ 0 by omega)
      cases start
      simp only [Nodes.last, load_eq segment.1, Except.ok_bind]
      rfl
  | cons n pre ih =>
      obtain ⟨b, other⟩ := n
      obtain ⟨fuel, rfl⟩ := Nat.exists_eq_succ_of_ne_zero (show fuel ≠ 0 by omega)
      obtain ⟨next, more⟩ : ∃ next, first (pre ++ [(z, buf)]) = some next := by
        cases pre with
        | nil => exact ⟨z, rfl⟩
        | cons n pre => exact ⟨n.1, rfl⟩
      obtain ⟨here, segment⟩ := segment
      cases start
      change s.heap.lookup b = some ⟨other, prev, (first (pre ++ [(z, buf)])).or none⟩ at here
      rw [more] at here
      have shorter : pre.length < fuel := by
        rw [List.length_cons] at enough
        omega
      have later := ih segment more shorter
      simp only [Nodes.last, load_eq here, Except.ok_bind]
      exact later

/-- The loop frees the nodes one after the other, each while it is in use. -/
theorem clearFrom_eq {prev : Option Linked.Iter} {nodes : List (Linked.Iter × Bytes)} {fuel : Nat}
    (segment : Segment s.heap prev nodes none) (buffers : ∀ n ∈ nodes, 0 ∈ n.2)
    (distinct : (nodes.map Prod.fst).Nodup) (enough : nodes.length ≤ fuel) :
    ∃ heap, s.clearFrom fuel (first nodes) = .ok { s with heap, freed := s.freed ++ nodes.map Prod.fst } ∧
      ∀ a, a ∈ heap ↔ a ∈ s.heap ∧ a ∉ nodes.map Prod.fst := by
  induction nodes generalizing s prev fuel with
  | nil =>
      refine ⟨s.heap, ?_, by simp⟩
      cases fuel <;> simp [first, Nodes.clearFrom]
  | cons n rest ih =>
      obtain ⟨a, buf⟩ := n
      obtain ⟨fuel, rfl⟩ := Nat.exists_eq_succ_of_ne_zero (show fuel ≠ 0 by rw [List.length_cons] at enough; omega)
      obtain ⟨here, segment⟩ := segment
      rw [Option.or_none] at here
      rw [List.forall_mem_cons] at buffers
      rw [List.map_cons, List.nodup_cons] at distinct
      have inUse : a ∈ s.heap := AList.lookup_isSome.mp (by rw [here]; rfl)
      obtain ⟨heap, cleared, left⟩ := ih (s := { s with heap := s.heap.erase a, freed := s.freed ++ [a] })
        ((segment_erase distinct.1).mpr segment) buffers.2 distinct.2 (Nat.le_of_succ_le_succ enough)
      refine ⟨heap, ?_, fun b => ?_⟩
      · change s.clearFrom (fuel + 1) (some a) = _
        simp only [Nodes.clearFrom, load_eq here, Except.ok_bind, printName, if_pos buffers.1, Nodes.free,
          if_pos inUse, cleared, List.map_cons, List.append_assoc, List.singleton_append]
      · rw [left, AList.mem_erase, List.map_cons, List.mem_cons, not_or]
        exact ⟨fun ⟨⟨differs, old⟩, others⟩ => ⟨old, differs, others⟩, fun ⟨old, differs, others⟩ => ⟨⟨differs, old⟩, others⟩⟩

theorem buffers_nodes {P : Bytes → Prop} : (∀ buf ∈ c.values, P buf) ↔ ∀ n ∈ c.nodes, P n.2 := List.forall_mem_map

/-- `ClearMusicList` frees every node once, and nothing is left. -/
theorem clearMusicList_eq (rep : Represents s c) :
    ∃ s', s.clearMusicList = .ok s' ∧ s'.freed = s.freed ++ c.iters ∧ s'.musicHead = none ∧
      Represents s' Linked.Chain.empty := by
  have buffers : ∀ n ∈ c.nodes, 0 ∈ n.2 := fun n member => (buffers_nodes.mp rep.buffers n member).2
  obtain ⟨heap, cleared, left⟩ := clearFrom_eq rep.holds.links buffers c.distinct rep.length.ge
  have head : s.musicHead = first c.nodes := rep.holds.head
  refine ⟨{ s with heap, musicHead := none, freed := s.freed ++ c.iters }, ?_, ?_⟩
  · rw [Nodes.clearMusicList, head, cleared]
    rfl
  · refine ⟨rfl, rfl, ⟨rfl, trivial, fun a => ?_⟩, nofun⟩
    refine iff_of_false (fun member => ?_) List.not_mem_nil
    obtain ⟨old, gone⟩ := (left a).mp member
    exact gone ((rep.holds.whole a).mp old)

theorem checkMusicList_eq (rep : Represents s c) : s.checkMusicList = .ok (names c) := by
  have head : s.musicHead = first c.nodes := rep.holds.head
  have buffers : ∀ n ∈ c.nodes, 0 ∈ n.2 := fun n member => (buffers_nodes.mp rep.buffers n member).2
  rw [Nodes.checkMusicList, head, printFrom_eq rep.holds.links buffers rep.length.ge, names, Linked.Chain.values,
    List.map_map]
  rfl

/-! ## A name more -/

theorem copy_eq {buf name : Bytes} (size : buf.length = 127) (fits : (cstr name).length ≤ 126) :
    ∃ out, copy buf name = .ok out ∧ out.length = 127 ∧ 0 ∈ out ∧ cstr out = cstr name := by
  have room : (cstr name).length < buf.length := by omega
  have done : strcpy buf (cstr name) = .ok (store buf 0 (cstr name ++ [0])) := by rw [strcpy, if_pos room]
  obtain ⟨-, length, rest, split⟩ := strcpy_inv done
  refine ⟨store buf 0 (cstr name ++ [0]), by rw [copy, done]; rfl, by omega, by rw [split]; simp, ?_⟩
  rw [split, cstr_append_zero (zero_not_mem_cstr name)]

/-- The first byte tells whether there is a name. -/
theorem unnamed_iff {buf : Bytes} (size : buf.length = 127) : buf[0]? = some 0 ↔ cstr buf = [] := by
  cases buf with
  | nil => simp at size
  | cons b rest =>
      rw [cstr, List.takeWhile_cons]
      by_cases zero : b = 0 <;> simp [zero]

variable {m : Malloc}

theorem alloc_fails (none_ : s.alloc m = none) : ¬ m.Succeeds := by
  intro succeeds
  have given := succeeds s.mallocs s.heap.keys
  rw [Option.map_eq_none_iff.mp none_] at given
  cases given

theorem alloc_some {a : Linked.Iter} {node : MusicNode} {s' : Nodes} (given : s.alloc m = some (a, node, s')) :
    a ∉ s.heap ∧ node.value.length = 127 ∧ s' = { s.store a node with mallocs := s.mallocs + 1 } := by
  obtain ⟨⟨b, other⟩, found, same⟩ := Option.map_eq_some_iff.mp given
  cases same
  exact ⟨fun inUse => m.fresh found (AList.mem_keys.mp inUse), m.sized found, rfl⟩

/-- The head without a name that stands for no song. -/
theorem initMusicLink_eq (rep : Represents s c) (none_ : c.nodes = []) :
    (∃ e, s.initMusicLink m = .error e ∧ ¬ m.Succeeds) ∨
      ∃ s' c', s.initMusicLink m = .ok s' ∧ Represents s' c' ∧ names c' = [[]] := by
  unfold Nodes.initMusicLink
  cases given : s.alloc m with
  | none => exact .inl ⟨_, rfl, alloc_fails given⟩
  | some result =>
      obtain ⟨a, node, s₁⟩ := result
      obtain ⟨free, size, rfl⟩ := alloc_some given
      have fresh : a ∉ c.iters := fun member => free ((rep.holds.whole a).mpr member)
      have length : (node.value.set 0 0).length = 127 := by rw [List.length_set, size]
      have unnamed : cstr (node.value.set 0 0) = [] := by
        rw [← unnamed_iff length, List.getElem?_set_self (by omega)]
      have values : (c.push a (node.value.set 0 0) fresh).values = [node.value.set 0 0] := by
        change (c.nodes ++ [(a, node.value.set 0 0)]).map Prod.snd = _
        rw [none_]
        rfl
      have holds := rep.holds.start none_ fresh (v := node.value.set 0 0)
      refine .inr ⟨_, c.push a (node.value.set 0 0) fresh, rfl, ⟨?_, ?_⟩, ?_⟩
      · simpa [Nodes.store] using holds
      · rw [values]
        intro buf member
        cases List.mem_singleton.mp member
        exact ⟨length, by
          have first_ : (node.value.set 0 0)[0]? = some 0 := (unnamed_iff length).mpr unnamed
          exact List.mem_of_getElem? first_⟩
      · rw [names, values, List.map_singleton, unnamed]

/-- A head without a name takes the one inserted. -/
theorem insertAt_unnamed {name : Bytes} (rep : Represents s c) {rest : List Bytes} (unnamed : names c = [] :: rest)
    (fits : (cstr name).length ≤ 126) :
    ∃ s' c', s.insertAt m name = .ok s' ∧ Represents s' c' ∧ names c' = cstr name :: rest := by
  obtain ⟨⟨a, buf⟩, post, nodes⟩ : ∃ n post, c.nodes = n :: post := by
    cases nodes : c.nodes with
    | nil => simp [names, Linked.Chain.values, nodes] at unnamed
    | cons n post => exact ⟨n, post, rfl⟩
  obtain ⟨empty, others⟩ : cstr buf = [] ∧ (post.map Prod.snd).map cstr = rest := by
    rw [names, Linked.Chain.values, nodes] at unnamed
    exact List.cons_eq_cons.mp unnamed
  have size : buf.length = 127 := (rep.buffers buf (by simp [Linked.Chain.values, nodes])).1
  have head : s.musicHead = some a := by
    rw [rep.holds.head, Linked.Chain.begin, nodes]
    rfl
  have split : c.nodes = [] ++ (a, buf) :: post := nodes
  have found := rep.holds.lookup split
  obtain ⟨out, copied, length, zero, text⟩ := copy_eq size fits
  have values : (c.assign a out).values = out :: post.map Prod.snd := by
    rw [Linked.Chain.values, Linked.Chain.assign_split split]
    rfl
  refine ⟨s.store a ⟨out, none, first post⟩, c.assign a out, ?_, ⟨?_, ?_⟩, ?_⟩
  · simp only [Nodes.insertAt, head, load_eq found, Except.ok_bind, if_pos ((unnamed_iff size).mpr empty), copied]
    rfl
  · exact rep.holds.assign split
  · rw [values, List.forall_mem_cons]
    refine ⟨⟨length, zero⟩, fun buf' member => rep.buffers buf' ?_⟩
    rw [Linked.Chain.values, nodes]
    exact List.mem_cons_of_mem buf member
  · rw [names, values, List.map_cons, text, others]

/-- The loop, with a block in the heap that is not yet linked. -/
theorem last_alloc (rep : Represents s c) {pre : List (Linked.Iter × Bytes)} {z a new : Linked.Iter} {buf : Bytes} {node : MusicNode}
    {t : Nodes} (split : c.nodes = pre ++ [(z, buf)]) (head : s.musicHead = some a) (free : new ∉ s.heap)
    (heap : t.heap = s.heap.insert new node) : t.last t.heap.keys.length a = .ok z := by
  have fresh : new ∉ c.nodes.map Prod.fst := fun member => free ((rep.holds.whole new).mpr member)
  have links : Segment t.heap none (pre ++ [(z, buf)]) none := by
    rw [← split, heap]
    exact (segment_insert fresh).mpr rep.holds.links
  have more : t.heap.keys.length = c.nodes.length + 1 := by
    have keys : new ∉ s.heap.keys := fun member => free (AList.mem_keys.mpr member)
    rw [heap, AList.keys_insert, List.length_cons, List.erase_of_not_mem keys, rep.length]
  refine last_eq links ?_ ?_
  · rw [← split, ← head]
    exact rep.holds.head.symm
  · rw [more, split, List.length_append]
    omega

/-- The block, once its links are set on both sides, is the new last node. -/
theorem represents_push (rep : Represents s c) {pre : List (Linked.Iter × Bytes)} {z new : Linked.Iter} {buf out : Bytes}
    {node : MusicNode} {t : Nodes} (split : c.nodes = pre ++ [(z, buf)]) (fresh : new ∉ c.iters)
    (length : out.length = 127) (zero : 0 ∈ out) (head : t.musicHead = s.musicHead)
    (heap : t.heap = ((s.heap.insert new node).insert z ⟨buf, behind none pre, some new⟩).insert new ⟨out, some z, none⟩) :
    Represents t (c.push new out fresh) ∧ names (c.push new out fresh) = names c ++ [cstr out] := by
  have values : (c.push new out fresh).values = c.values ++ [out] := by
    change (c.nodes ++ [(new, out)]).map Prod.snd = _
    rw [List.map_append]
    rfl
  refine ⟨⟨?_, ?_⟩, ?_⟩
  · rw [head, heap]
    refine (rep.holds.push split fresh (w := out)).congr fun b => ?_
    -- the block was in the heap before it was linked
    by_cases same : b = new
    · rw [same, AList.lookup_insert, AList.lookup_insert]
    · rw [AList.lookup_insert_ne same, AList.lookup_insert_ne same]
      by_cases last : b = z
      · rw [last, AList.lookup_insert, AList.lookup_insert]
      · rw [AList.lookup_insert_ne last, AList.lookup_insert_ne last, AList.lookup_insert_ne same]
  · rw [values]
    intro buf' member
    rcases List.mem_append.mp member with old | new_
    · exact rep.buffers buf' old
    · cases List.mem_singleton.mp new_
      exact ⟨length, zero⟩
  · rw [names, values, List.map_append, List.map_singleton]
    rfl

/-- Behind a named head the list gets a new last node. -/
theorem appendMusic_eq {name : Bytes} (rep : Represents s c) {a : Linked.Iter} (head : s.musicHead = some a)
    (fits : (cstr name).length ≤ 126) :
    (∃ e, s.appendMusic m name a = .error e ∧ ¬ m.Succeeds) ∨
      ∃ s' c', s.appendMusic m name a = .ok s' ∧ Represents s' c' ∧ names c' = names c ++ [cstr name] := by
  unfold Nodes.appendMusic
  cases given : s.alloc m with
  | none => exact .inl ⟨_, rfl, alloc_fails given⟩
  | some result =>
      obtain ⟨new, node, s₁⟩ := result
      obtain ⟨free, size, rfl⟩ := alloc_some given
      obtain ⟨pre, ⟨z, buf⟩, split⟩ : ∃ pre n, c.nodes = pre ++ [n] := by
        rcases List.eq_nil_or_concat' c.nodes with none_ | ⟨pre, n, split⟩
        · rw [rep.holds.head, Linked.Chain.begin, none_] at head
          cases head
        · exact ⟨pre, n, split⟩
      have fresh : new ∉ c.iters := fun member => free ((rep.holds.whole new).mpr member)
      have other : z ≠ new := by
        rintro rfl
        exact fresh (by simp [Linked.Chain.iters, split])
      have found : (s.store new node).heap.lookup z = some ⟨buf, behind none pre, none⟩ := by
        rw [Nodes.store, AList.lookup_insert_ne other]
        exact rep.holds.lookup split
      obtain ⟨out, copied, length, zero, text⟩ := copy_eq size fits
      have reached : Nodes.last _ a { s.store new node with mallocs := s.mallocs + 1 } = .ok z :=
        last_alloc rep split head free rfl
      have loaded : Nodes.load z { s.store new node with mallocs := s.mallocs + 1 } = .ok ⟨buf, behind none pre, none⟩ :=
        load_eq found
      let s₂ : Nodes := (({ s.store new node with mallocs := s.mallocs + 1 } : Nodes).store z
        ⟨buf, behind none pre, some new⟩).store new ⟨out, some z, none⟩
      obtain ⟨rep₂, named⟩ : Represents s₂ (c.push new out fresh) ∧ _ := represents_push rep split fresh length zero rfl rfl
      refine .inr ⟨s₂, c.push new out fresh, ?_, rep₂, by rw [named, text]⟩
      simp only [copied, Except.ok_bind, reached, loaded]
      change (s₂.checkMusicList >>= fun _ => pure s₂) = _
      rw [checkMusicList_eq rep₂]
      rfl

/-- `InsertMusic` on the nodes is `insertMusic` on their names, unless memory runs out. -/
theorem insertMusic_refines {name : Bytes} (rep : Represents s c) (fits : (cstr name).length ≤ 126) :
    (∃ e, s.insertMusic m name = .error e ∧ ¬ m.Succeeds) ∨
      ∃ s' c', s.insertMusic m name = .ok s' ∧ Represents s' c' ∧
        Speaker.insertMusic (cstr name) (names c) = .ok (names c') := by
  have short : (cstr name).length < 127 := by omega
  unfold Nodes.insertMusic Speaker.insertMusic
  rw [if_pos short]
  cases nodes : c.nodes with
  | nil =>
      have null : s.musicHead = none := by
        rw [rep.holds.head, Linked.Chain.begin, nodes]
        rfl
      have none_ : names c = [] := by rw [names, Linked.Chain.values, nodes]; rfl
      rw [if_pos null, none_]
      rcases initMusicLink_eq (m := m) rep nodes with ⟨e, failed, out⟩ | ⟨s₁, c₁, made, rep₁, unnamed⟩
      · exact .inl ⟨e, by rw [failed]; rfl, out⟩
      · obtain ⟨s', c', inserted, rep', named⟩ := insertAt_unnamed (m := m) rep₁ unnamed fits
        exact .inr ⟨s', c', by rw [made]; exact inserted, rep', by rw [named]⟩
  | cons n rest =>
      obtain ⟨a, buf⟩ := n
      have head : s.musicHead = some a := by
        rw [rep.holds.head, Linked.Chain.begin, nodes]
        rfl
      have some_ : names c = cstr buf :: (rest.map Prod.snd).map cstr := by rw [names, Linked.Chain.values, nodes]; rfl
      rw [if_neg (by rw [head]; exact Option.some_ne_none a), Except.ok_bind, some_]
      dsimp only
      by_cases unnamed : cstr buf = []
      · rw [if_pos unnamed]
        obtain ⟨s', c', inserted, rep', named⟩ := insertAt_unnamed (m := m) rep (by rw [some_, unnamed]) fits
        exact .inr ⟨s', c', inserted, rep', by rw [named]⟩
      · have size : buf.length = 127 := (rep.buffers buf (by simp [Linked.Chain.values, nodes])).1
        have split : c.nodes = [] ++ (a, buf) :: rest := nodes
        have found := rep.holds.lookup split
        have appends : s.insertAt m name = s.appendMusic m name a := by
          simp only [Nodes.insertAt, head, load_eq found, Except.ok_bind, unnamed_iff size, if_neg unnamed]
        rw [if_neg unnamed, appends]
        rcases appendMusic_eq (m := m) rep head fits with failed | ⟨s', c', inserted, rep', named⟩
        · exact .inl failed
        · exact .inr ⟨s', c', inserted, rep', by rw [named, some_]⟩

variable {j : JsonC}

theorem cstr_getString {e : Json} {name : Bytes} (h : getString j e = some name) : cstr name = name := by
  unfold getString at h
  split at h
  · cases h
  · cases h
    exact cstr_eq_self (zero_not_mem_cstr _)
  · cases h
    exact cstr_eq_self (zero_not_mem_cstr _)

/-- The same for the names of a reply. -/
theorem insertNames_refines {elems : List Json} {list : List Bytes} (rep : Represents s c)
    (strings : arrayNames j elems = .ok list) (fit : ∀ name ∈ list, name.length ≤ 126) :
    (∃ e, s.insertNames j m elems = .error e ∧ ¬ m.Succeeds) ∨
      ∃ s' c', s.insertNames j m elems = .ok s' ∧ Represents s' c' ∧ insertAll list (names c) = .ok (names c') := by
  induction elems generalizing s c list with
  | nil =>
      cases strings
      exact .inr ⟨s, c, rfl, rep, rfl⟩
  | cons e elems ih =>
      unfold arrayNames at strings
      unfold Nodes.insertNames
      cases string : getString j e with
      | none =>
          rw [string] at strings
          cases strings
      | some name =>
          rw [string] at strings
          obtain ⟨others, rest, same⟩ := Except.bind_eq_ok.mp strings
          cases same
          rw [List.forall_mem_cons] at fit
          have text := cstr_getString string
          have short : (cstr name).length ≤ 126 := by
            rw [text]
            exact fit.1
          dsimp only
          rcases insertMusic_refines (m := m) rep short with ⟨stop, failed, out⟩ | ⟨s₁, c₁, inserted, rep₁, listed⟩
          · exact .inl ⟨stop, by rw [failed]; rfl, out⟩
          · rw [text] at listed
            rw [inserted, Except.ok_bind, insertAll, listed, Except.ok_bind]
            exact ih rep₁ rest fit.2

/-! ## Runs -/

inductive Op
  | clear
  | insert (name : Bytes)
  | link (text : Bytes)

/-- The text is none of a list of names: `LinkMusicList` leaves it at that. -/
def Rejected (j : JsonC) (text : Bytes) : Prop :=
  j.parse text = none ∨ ∃ obj cmd, j.parse text = some obj ∧ getString j (obj.member (lit "cmd")) = some cmd ∧
    cmd ≠ lit "reply_music_list"

/-- A name of 1 to 126 bytes. -/
def Named (name : Bytes) : Prop := name ≠ [] ∧ name.length ≤ 126

namespace Op
variable (j : JsonC) (m : Malloc)

/-- Names that are not empty and fit a node. -/
def Fits : Op → Prop
  | .clear => True
  | .insert name => Named (cstr name)
  | .link text => Rejected j text ∨ ∃ list, Replies j text list ∧ ∀ name ∈ list, Named name

def call : Op → Nodes → Except Stop Nodes
  | .clear, s => s.clearMusicList
  | .insert name, s => s.insertMusic m name
  | .link text, s => (s.linkMusicList j m text).map Prod.snd

/-- The songs there should be after a call. -/
def after (old : List Bytes) : Op → List Bytes
  | .clear => []
  | .insert name => old ++ [cstr name]
  | .link text =>
      match j.parse text with
      | none => old
      | some obj =>
          if getString j (obj.member (lit "cmd")) = some (lit "reply_music_list") then
            match obj.member (lit "music") with
            | .array elems => old ++ elems.filterMap (getString j)
            | _ => old
          else old

end Op

def callAll (j : JsonC) (m : Malloc) : List Op → Nodes → Except Stop Nodes
  | [], s => .ok s
  | op :: ops, s => do
      let s ← op.call j m s
      callAll j m ops s

/-- What has been inserted since the last clear. -/
def sinceClear (j : JsonC) (ops : List Op) : List Bytes := ops.foldl (Op.after j) []

/-- An empty name stands alone. -/
def Proper (l : List Bytes) : Prop := l = [[]] ∨ ∀ name ∈ l, name ≠ []

theorem songs_named {l : List Bytes} (named : ∀ name ∈ l, name ≠ []) : songs l = l := by
  rw [songs, if_neg]
  rintro rfl
  exact named [] List.mem_cons_self rfl

theorem songs_insert {l l' : List Bytes} {name : Bytes} (proper : Proper l)
    (done : Speaker.insertMusic name l = .ok l') : l' = songs l ++ [name] := by
  unfold Speaker.insertMusic at done
  split at done
  swap
  · cases done
  rcases proper with rfl | named
  · cases done
    rfl
  · rw [songs_named named]
    cases l with
    | nil =>
        cases done
        rfl
    | cons first rest =>
        dsimp only at done
        rw [if_neg (named first List.mem_cons_self)] at done
        cases done
        rfl

theorem songs_append {l : List Bytes} {name : Bytes} (proper : Proper l) (some_ : name ≠ []) :
    ∀ n ∈ songs l ++ [name], n ≠ [] := by
  intro n member
  rcases List.mem_append.mp member with old | new
  · rcases proper with rfl | named
    · cases old
    · rw [songs_named named] at old
      exact named n old
  · rw [List.mem_singleton.mp new]
    exact some_

theorem songs_insertAll {list l l' : List Bytes} (proper : Proper l) (some_ : ∀ name ∈ list, name ≠ [])
    (done : insertAll list l = .ok l') : Proper l' ∧ songs l' = songs l ++ list := by
  cases list with
  | nil =>
      cases done
      exact ⟨proper, (List.append_nil _).symm⟩
  | cons name list =>
      rw [List.forall_mem_cons] at some_
      obtain ⟨l₁, one, rest⟩ := Except.bind_eq_ok.mp done
      have named := songs_append proper some_.1
      rw [← songs_insert proper one] at named
      have same := insertAll_eq some_.2 named rest
      have later : ∀ n ∈ l', n ≠ [] := by
        rw [same]
        intro n member
        rcases List.mem_append.mp member with old | new
        · exact named n old
        · exact some_.2 n new
      refine ⟨.inr later, ?_⟩
      rw [songs_named later, same, songs_insert proper one, List.append_assoc, List.singleton_append]

theorem arrayNames_filterMap {elems : List Json} {list : List Bytes} (h : arrayNames j elems = .ok list) :
    elems.filterMap (getString j) = list := by
  induction elems generalizing list with
  | nil =>
      cases h
      rfl
  | cons e elems ih =>
      unfold arrayNames at h
      cases string : getString j e with
      | none =>
          rw [string] at h
          cases h
      | some name =>
          rw [string] at h
          obtain ⟨others, rest, same⟩ := Except.bind_eq_ok.mp h
          cases same
          rw [List.filterMap_cons_some string, ih rest]

/-- `LinkMusicList` returns and inserts the names of a list, and of other texts none. -/
theorem link_step {text : Bytes} (rep : Represents s c) (proper : Proper (names c)) (fits : (Op.link text).Fits j) :
    (∃ e, (Op.link text).call j m s = .error e ∧ ¬ m.Succeeds) ∨
      ∃ s' c', (Op.link text).call j m s = .ok s' ∧ Represents s' c' ∧ Proper (names c') ∧
        songs (names c') = (Op.link text).after j (songs (names c)) := by
  unfold Op.call Op.after Nodes.linkMusicList
  dsimp only
  rcases fits with (none_ | ⟨obj, cmd, parsed, string, other⟩) | ⟨list, ⟨obj, elems, parsed, cmd, music, strings⟩, named⟩
  · rw [none_]
    exact .inr ⟨s, c, rfl, rep, proper, rfl⟩
  · rw [parsed]
    simp only [string, Option.some.injEq, if_neg other]
    rw [if_pos other]
    exact .inr ⟨s, c, rfl, rep, proper, rfl⟩
  · rw [parsed]
    simp only [cmd, music, ne_eq, not_true_eq_false, if_false, if_true]
    rcases insertNames_refines (m := m) rep strings fun name member => (named name member).2 with
      ⟨e, failed, out⟩ | ⟨s', c', inserted, rep', listed⟩
    · exact .inl ⟨e, by rw [failed]; rfl, out⟩
    · obtain ⟨proper', grown⟩ := songs_insertAll proper (fun name member => (named name member).1) listed
      refine .inr ⟨s', c', ?_, rep', proper', ?_⟩
      · rw [inserted, Except.ok_bind, checkMusicList_eq rep']
        rfl
      · rw [grown, arrayNames_filterMap strings]

/-- One call leaves the songs there should be, unless memory runs out. -/
theorem call_step {op : Op} (rep : Represents s c) (proper : Proper (names c)) (fits : op.Fits j) :
    (∃ e, op.call j m s = .error e ∧ ¬ m.Succeeds) ∨
      ∃ s' c', op.call j m s = .ok s' ∧ Represents s' c' ∧ Proper (names c') ∧
        songs (names c') = op.after j (songs (names c)) := by
  cases op with
  | clear =>
      obtain ⟨s', cleared, -, -, rep'⟩ := clearMusicList_eq rep
      exact .inr ⟨s', _, cleared, rep', .inr nofun, rfl⟩
  | insert name =>
      rcases insertMusic_refines (m := m) rep fits.2 with failed | ⟨s', c', inserted, rep', listed⟩
      · exact .inl failed
      · have grown := songs_insert proper listed
        have named := songs_append proper fits.1
        rw [← grown] at named
        exact .inr ⟨s', c', inserted, rep', .inr named, (songs_named named).trans grown⟩
  | link text => exact link_step rep proper fits

/-- Any sequence of calls. -/
theorem callAll_run {ops : List Op} (rep : Represents s c) (proper : Proper (names c)) (fits : ∀ op ∈ ops, op.Fits j) :
    (∃ e, callAll j m ops s = .error e ∧ ¬ m.Succeeds) ∨
      ∃ s' c', callAll j m ops s = .ok s' ∧ Represents s' c' ∧
        songs (names c') = ops.foldl (Op.after j) (songs (names c)) := by
  induction ops generalizing s c with
  | nil => exact .inr ⟨s, c, rfl, rep, rfl⟩
  | cons op ops ih =>
      rw [List.forall_mem_cons] at fits
      unfold callAll
      rcases call_step (m := m) rep proper fits.1 with ⟨e, failed, out⟩ | ⟨s₁, c₁, called, rep₁, proper₁, grown⟩
      · exact .inl ⟨e, by rw [failed]; rfl, out⟩
      · rw [called, Except.ok_bind, List.foldl_cons, ← grown]
        exact ih rep₁ proper₁ fits.2

theorem represents_initial : Represents .initial .empty := ⟨.empty, nofun⟩

/-- The list is there before the first call, with a null head or the one `InitMusicLink` makes. -/
theorem start_represented {start : Nodes} (starts : start = .initial ∨ Nodes.initial.initMusicLink m = .ok start) :
    ∃ c, Represents start c ∧ Proper (names c) ∧ songs (names c) = [] := by
  rcases starts with rfl | made
  · exact ⟨_, represents_initial, .inr nofun, rfl⟩
  · rcases initMusicLink_eq (m := m) represents_initial rfl with ⟨e, failed, -⟩ | ⟨s', c', made', rep, unnamed⟩
    · rw [failed] at made
      cases made
    · cases made.symm.trans made'
      exact ⟨c', rep, .inl unnamed, by rw [unnamed]; rfl⟩

/-- After any calls with names that fit, the nodes reached from the head are one
chain, linked both ways, of the songs inserted since the last clear; nothing
else is in memory, and a clear frees each of them once. -/
theorem playlist_represented {start : Nodes} (starts : start = .initial ∨ Nodes.initial.initMusicLink m = .ok start)
    {ops : List Op} (fits : ∀ op ∈ ops, op.Fits j) :
    (m.Succeeds → ∃ s, callAll j m ops start = .ok s) ∧
    ∀ s, callAll j m ops start = .ok s → ∃ c : Linked.Chain Bytes,
      LaidOut s.heap s.musicHead c ∧ (∀ a, Reaches s.heap s.musicHead a ↔ a ∈ c.iters) ∧
      songs (names c) = sinceClear j ops ∧
      ∃ s', s.clearMusicList = .ok s' ∧ s'.freed = s.freed ++ c.iters ∧ s'.musicHead = none := by
  obtain ⟨c, rep, proper, none_⟩ := start_represented starts
  have run := callAll_run (m := m) rep proper fits
  rw [none_] at run
  constructor
  · intro succeeds
    rcases run with ⟨e, -, out⟩ | ⟨s, c', called, -⟩
    · exact absurd succeeds out
    · exact ⟨s, called⟩
  · intro s called
    rcases run with ⟨e, failed, -⟩ | ⟨s₁, c', called', rep', same⟩
    · rw [failed] at called
      cases called
    · cases called.symm.trans called'
      obtain ⟨s', cleared, freed, null, -⟩ := clearMusicList_eq rep'
      refine ⟨c', rep'.holds, fun a => ?_, same, s', cleared, freed, null⟩
      rw [rep'.holds.head]
      exact reaches_iff rep'.holds.links

/-- Blocks above all those in use, with something left in them. -/
def rising : Malloc where
  malloc := fun _ live => some (live.sum + 1, ⟨List.replicate 127 255, some 9, some 9⟩)
  fresh := by
    rintro n live a node ⟨⟩ inUse
    have := List.single_le_sum (fun _ _ => Nat.zero_le _) _ inUse
    omega
  sized := by
    rintro n live a node ⟨⟩
    exact List.length_replicate

/-- Three songs, of which a clear leaves the last two. -/
theorem two_songs : ∃ s, callAll mute rising
    [.insert (lit "x.mp3"), .clear, .insert (lit "a.mp3"), .link (lit "[]"), .insert (lit "b.mp3")] .initial = .ok s ∧
    ∃ c : Linked.Chain Bytes, LaidOut s.heap s.musicHead c ∧ songs (names c) = [lit "a.mp3", lit "b.mp3"] := by
  have fits : ∀ op ∈ [Op.insert (lit "x.mp3"), .clear, .insert (lit "a.mp3"), .link (lit "[]"), .insert (lit "b.mp3")],
      op.Fits mute := by
    simp only [List.forall_mem_cons]
    refine ⟨?_, trivial, ?_, .inl (.inl rfl), ?_, nofun⟩ <;> exact ⟨by decide, by decide⟩
  obtain ⟨returns, represented⟩ := playlist_represented (m := rising) (.inl rfl) fits
  obtain ⟨s, called⟩ := returns fun _ _ => rfl
  obtain ⟨c, laid, -, same, -⟩ := represented s called
  exact ⟨s, called, c, laid, same.trans rfl⟩

end MusicPlayer.Speaker.MusicLink
