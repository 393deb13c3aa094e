import MusicPlayer.Lib.Chain
import Mathlib.Data.List.AList

/-! Chains laid out in memory: every node a block of its own, with a pointer to
the node before it and one to the node behind it. A null pointer is `none`. -/
namespace Linked.Chain
variable {α : Type}

def empty : Chain α := ⟨[], List.nodup_nil⟩

/-- A new last node. -/
def push (c : Chain α) (a : Iter) (v : α) (fresh : a ∉ c.iters) : Chain α where
  nodes := c.nodes ++ [(a, v)]
  distinct := by
    rw [List.map_append, List.nodup_append]
    refine ⟨c.distinct, List.nodup_singleton a, ?_⟩
    rintro b member _ (_ | ⟨_, ⟨⟩⟩) rfl
    exact fresh member

theorem iters_push (c : Chain α) {a : Iter} {v : α} (fresh : a ∉ c.iters) : (c.push a v fresh).iters = c.iters ++ [a] := by
  rw [iters, iters, push, List.map_append]
  rfl

end Linked.Chain

namespace InMemory
open Linked
variable {α : Type}

structure Node (α : Type) where
  value : α
  prev : Option Iter
  next : Option Iter
  deriving DecidableEq

/-- The blocks in use, by their addresses. -/
abbrev Heap (α : Type) := AList fun _ : Iter => Node α

/-- A pointer to the first of some nodes. -/
def first (nodes : List (Iter × α)) : Option Iter := nodes.head?.map Prod.fst

/-- A pointer to the last of some nodes that lie behind `prev`. -/
def behind (prev : Option Iter) (nodes : List (Iter × α)) : Option Iter :=
  (nodes.getLast?.map Prod.fst).or prev

/-- These nodes lie in memory one behind the other, between `prev` and `next`. -/
def Segment (h : Heap α) : Option Iter → List (Iter × α) → Option Iter → Prop
  | _, [], _ => True
  | prev, (a, v) :: rest, next =>
      h.lookup a = some ⟨v, prev, (first rest).or next⟩ ∧ Segment h (some a) rest next

/-- The nodes that following `next` from a pointer comes to. -/
inductive Reaches (h : Heap α) : Option Iter → Iter → Prop
  | here (a : Iter) : Reaches h (some a) a
  | next {a b : Iter} {n : Node α} : h.lookup a = some n → Reaches h n.next b → Reaches h (some a) b

section Segments
variable {h h' : Heap α} {prev next : Option Iter} {nodes xs ys : List (Iter × α)} {a b : Iter} {v w : α}

/-- Blocks of other nodes do not matter. -/
theorem segment_congr (same : ∀ a ∈ nodes.map Prod.fst, h'.lookup a = h.lookup a) :
    Segment h' prev nodes next ↔ Segment h prev nodes next := by
  induction nodes generalizing prev with
  | nil => exact Iff.rfl
  | cons n rest ih =>
      obtain ⟨a, v⟩ := n
      rw [List.map_cons, List.forall_mem_cons] at same
      simp only [Segment, same.1, ih same.2]

theorem segment_erase (other : a ∉ nodes.map Prod.fst) :
    Segment (h.erase a) prev nodes next ↔ Segment h prev nodes next := by
  apply segment_congr
  intro b member
  exact AList.lookup_erase_ne fun same => other (same ▸ member)

theorem segment_insert (other : a ∉ nodes.map Prod.fst) {n : Node α} :
    Segment (h.insert a n) prev nodes next ↔ Segment h prev nodes next := by
  apply segment_congr
  intro b member
  exact AList.lookup_insert_ne fun same => other (same ▸ member)

theorem first_append : first (xs ++ ys) = (first xs).or (first ys) := by
  cases xs <;> rfl

theorem behind_append : behind prev (xs ++ ys) = behind (behind prev xs) ys := by
  unfold behind
  rw [List.getLast?_append]
  cases ys.getLast? <;> rfl

theorem behind_cons : behind prev ((a, v) :: nodes) = behind (some a) nodes :=
  @behind_append α prev [(a, v)] nodes

/-- Two parts and the seam between them. -/
theorem segment_append :
    Segment h prev (xs ++ ys) next ↔
      Segment h prev xs ((first ys).or next) ∧ Segment h (behind prev xs) ys next := by
  induction xs generalizing prev with
  | nil => simp [Segment, behind]
  | cons n xs ih =>
      obtain ⟨a, v⟩ := n
      simp only [List.cons_append, Segment, ih, behind_cons, first_append, Option.or_assoc, and_assoc]

/-- Where the nodes end in a null pointer, nothing else is reached from the first of them. -/
theorem reaches_iff (segment : Segment h prev nodes none) :
    Reaches h (first nodes) b ↔ b ∈ nodes.map Prod.fst := by
  induction nodes generalizing prev with
  | nil =>
      refine ⟨fun reaches => ?_, nofun⟩
      cases reaches
  | cons n rest ih =>
      obtain ⟨a, v⟩ := n
      obtain ⟨here, segment⟩ := segment
      rw [Option.or_none] at here
      rw [List.map_cons, List.mem_cons, ← ih segment]
      constructor
      · rintro (_ | ⟨found, later⟩)
        · exact .inl rfl
        · cases here.symm.trans found
          exact .inr later
      · rintro (rfl | later)
        · exact .here b
        · exact .next here later

end Segments

/-- The heap is this chain and nothing else, and `head` points to its first node. -/
structure LaidOut (h : Heap α) (head : Option Iter) (c : Chain α) : Prop where
  head : head = c.begin
  links : Segment h none c.nodes none
  whole : ∀ a, a ∈ h ↔ a ∈ c.iters

namespace LaidOut
variable {h : Heap α} {head : Option Iter} {c : Chain α} {a z : Iter} {v w : α}

theorem empty : LaidOut (∅ : Heap α) none Chain.empty where
  head := rfl
  links := trivial
  whole := fun a => ⟨fun member => absurd member (AList.notMem_empty a), nofun⟩

/-- Only what is found at the addresses matters. -/
theorem congr {h' : Heap α} (same : ∀ a, h'.lookup a = h.lookup a) (holds : LaidOut h head c) : LaidOut h' head c where
  head := holds.head
  links := (segment_congr fun a _ => same a).mpr holds.links
  whole := fun a => by rw [← holds.whole, ← AList.lookup_isSome, ← AList.lookup_isSome, same]

/-- What a node of the chain has in memory. -/
theorem lookup (holds : LaidOut h head c) {pre post : List (Iter × α)} (split : c.nodes = pre ++ (a, v) :: post) :
    h.lookup a = some ⟨v, behind none pre, first post⟩ := by
  have links := holds.links
  rw [split, segment_append] at links
  simpa using links.2.1

/-- The first node of all. -/
theorem start (holds : LaidOut h head c) (none_ : c.nodes = []) (fresh : a ∉ c.iters) :
    LaidOut (h.insert a ⟨v, none, none⟩) (some a) (c.push a v fresh) := by
  have nodes : (c.push a v fresh).nodes = [(a, v)] := by
    change c.nodes ++ [(a, v)] = _
    rw [none_]
    rfl
  constructor
  · rw [Chain.begin, nodes]
    rfl
  · rw [nodes]
    exact ⟨AList.lookup_insert h, trivial⟩
  · intro b
    rw [AList.mem_insert, holds.whole, Chain.iters_push, List.mem_append, List.mem_singleton, or_comm]

/-- A node is given another value. -/
theorem assign (holds : LaidOut h head c) {pre post : List (Iter × α)} (split : c.nodes = pre ++ (a, v) :: post) :
    LaidOut (h.insert a ⟨w, behind none pre, first post⟩) head (c.assign a w) := by
  have found := holds.lookup split
  obtain ⟨notPre, notPost⟩ : a ∉ pre.map Prod.fst ∧ a ∉ post.map Prod.fst := by
    have distinct := c.distinct
    rw [split, List.map_append, List.map_cons, List.nodup_append] at distinct
    exact ⟨fun member => distinct.2.2 a member a List.mem_cons_self rfl, (List.nodup_cons.mp distinct.2.1).1⟩
  have nodes : (c.assign a w).nodes = pre ++ (a, w) :: post := Chain.assign_split split w
  have iters : (c.assign a w).iters = c.iters := by
    simp only [Chain.iters, nodes, split, List.map_append, List.map_cons]
  have links := holds.links
  rw [split, segment_append] at links
  constructor
  · rw [holds.head, Chain.begin, Chain.begin, nodes, split]
    cases pre <;> rfl
  · rw [nodes, segment_append, segment_insert notPre]
    refine ⟨links.1, ?_, (segment_insert notPost).mpr links.2.2⟩
    rw [AList.lookup_insert, Option.or_none]
  · intro b
    rw [AList.mem_insert, holds.whole, iters, or_iff_right_iff_imp]
    rintro rfl
    rw [Chain.iters, split]
    simp

/-- A new node behind the last one. -/
theorem push (holds : LaidOut h head c) {pre : List (Iter × α)} (split : c.nodes = pre ++ [(z, v)])
    (fresh : a ∉ c.iters) :
    LaidOut ((h.insert z ⟨v, behind none pre, some a⟩).insert a ⟨w, some z, none⟩) head (c.push a w fresh) := by
  have other : a ∉ pre.map Prod.fst ∧ a ≠ z := by
    rw [Chain.iters, split, List.map_append, List.mem_append] at fresh
    exact ⟨fun member => fresh (.inl member), fun same => fresh (.inr (by simp [same]))⟩
  have notPre : z ∉ pre.map Prod.fst := by
    have distinct := c.distinct
    rw [split, List.map_append, List.nodup_append] at distinct
    exact fun member => distinct.2.2 z member z List.mem_cons_self rfl
  have nodes : (c.push a w fresh).nodes = pre ++ [(z, v), (a, w)] := by
    change c.nodes ++ [(a, w)] = _
    rw [split, List.append_assoc]
    rfl
  have links := holds.links
  rw [split, segment_append] at links
  constructor
  · rw [holds.head, Chain.begin, Chain.begin, nodes, split]
    cases pre <;> rfl
  · rw [nodes, segment_append, segment_insert other.1, segment_insert notPre]
    refine ⟨links.1, ?_, ?_, trivial⟩
    · rw [AList.lookup_insert_ne other.2.symm, AList.lookup_insert]
      rfl
    · exact AList.lookup_insert _
  · intro b
    rw [AList.mem_insert, AList.mem_insert, holds.whole, Chain.iters_push, List.mem_append, List.mem_singleton]
    constructor
    · rintro (rfl | rfl | old)
      · exact .inr rfl
      · refine .inl ?_
        rw [Chain.iters, split]
        simp
      · exact .inl old
    · rintro (old | rfl)
      · exact .inr (.inr old)
      · exact .inl rfl

end LaidOut
end InMemory
