import MusicPlayer.Lib.FirstMatch
import MusicPlayer.Lib.Outcome
import MusicPlayer.Lib.Trace

/-! Linked lists reached by iterators, and the loop `for (it = begin(); it !=
end(); it++)` over one. An iterator is good while its node is in the list. -/
namespace Linked
open FirstMatch Runs
variable {α ε : Type}

/-- The address of a node. -/
abbrev Iter := Nat

structure Chain (α : Type) where
  nodes : List (Iter × α)
  distinct : (nodes.map Prod.fst).Nodup
  deriving DecidableEq

namespace Chain

def iters (c : Chain α) : List Iter := c.nodes.map Prod.fst

def values (c : Chain α) : List α := c.nodes.map Prod.snd

/-- `begin()`; `none` is `end()`. -/
def begin (c : Chain α) : Option Iter := c.nodes.head?.map Prod.fst

/-- The list cut at the node of an iterator, if that is still there. -/
def find (c : Chain α) (it : Iter) : Option (List (Iter × α) × (Iter × α) × List (Iter × α)) :=
  firstMatch (fun n => n.1 == it) c.nodes

def deref (c : Chain α) (it : Iter) : Option α := (c.find it).map (·.2.1.2)

/-- `++it`, which has no meaning for a node that is gone. -/
def next (c : Chain α) (it : Iter) : Option (Option Iter) :=
  (c.find it).map (·.2.2.head?.map Prod.fst)

def erase (c : Chain α) (it : Iter) : Chain α where
  nodes := c.nodes.filter (fun n => n.1 != it)
  distinct := c.distinct.sublist (List.filter_sublist.map _)

def assign (c : Chain α) (it : Iter) (a : α) : Chain α where
  nodes := c.nodes.map fun n => if n.1 = it then (it, a) else n
  distinct := by
    have same : (Prod.fst ∘ fun n : Iter × α => if n.1 = it then (it, a) else n) = Prod.fst := by
      funext n
      by_cases h : n.1 = it <;> simp [h]
    simpa [same] using c.distinct

theorem ext_nodes {c c' : Chain α} (same : c.nodes = c'.nodes) : c = c' := by
  cases c
  cases c'
  cases same
  rfl

variable {c : Chain α} {pre post : List (Iter × α)} {it : Iter} {a : α}

/-- An iterator of the list finds its own node: no other has its address. -/
theorem find_split (split : c.nodes = pre ++ (it, a) :: post) : c.find it = some (pre, (it, a), post) := by
  refine firstMatch_eq_some.mpr ⟨split, by simp, fun n member => ?_⟩
  have distinct := c.distinct
  rw [split, List.map_append, List.map_cons, List.nodup_append] at distinct
  have other := distinct.2.2 n.1 (List.mem_map_of_mem member) it (by simp)
  simpa using other

theorem deref_split (split : c.nodes = pre ++ (it, a) :: post) : c.deref it = some a := by
  simp [deref, find_split split]

theorem next_split (split : c.nodes = pre ++ (it, a) :: post) :
    c.next it = some (post.head?.map Prod.fst) := by
  simp [next, find_split split]

theorem assign_split (split : c.nodes = pre ++ (it, a) :: post) (b : α) :
    (c.assign it b).nodes = pre ++ (it, b) :: post := by
  have distinct := c.distinct
  rw [split, List.map_append, List.map_cons, List.nodup_append, List.nodup_cons] at distinct
  obtain ⟨-, ⟨fresh, -⟩, apart⟩ := distinct
  have keep : ∀ l : List (Iter × α), (∀ n ∈ l, n.1 ≠ it) →
      l.map (fun n => if n.1 = it then (it, b) else n) = l := by
    intro l others
    conv_rhs => rw [← List.map_id l]
    exact List.map_congr_left fun n member => if_neg (others n member)
  simp only [assign, split, List.map_append, List.map_cons, if_true]
  have before := keep pre fun n member => apart n.1 (List.mem_map_of_mem member) it (by simp)
  have behind := keep post fun n member same => fresh (List.mem_map.mpr ⟨n, member, same⟩)
  rw [before, behind]

/-- What has been erased is not found again. -/
theorem deref_erase (c : Chain α) (it : Iter) : (c.erase it).deref it = none := by
  have gone : (c.erase it).find it = none := by
    refine firstMatch_eq_none.mpr fun n member => ?_
    simpa using (List.mem_filter.mp member).2
  simp [deref, gone]

end Chain

/-- Values related to those of a list can be put at its addresses. -/
theorem values_related {R : α → α → Prop} {ns : List (Iter × α)} {l : List α}
    (h : List.Forall₂ R (ns.map Prod.snd) l) :
    ∃ ns' : List (Iter × α), ns'.map Prod.fst = ns.map Prod.fst ∧ ns'.map Prod.snd = l ∧
      List.Forall₂ (fun n n' => n'.1 = n.1 ∧ R n.2 n'.2) ns ns' := by
  induction ns generalizing l with
  | nil =>
      cases h
      exact ⟨[], rfl, rfl, .nil⟩
  | cons n rest ih =>
      cases h with
      | @cons _ b _ _ one later =>
          obtain ⟨rest', iters, values, others⟩ := ih later
          refine ⟨(n.1, b) :: rest', by simp [iters], by simp [values], ?_⟩
          exact .cons ⟨rfl, one⟩ others

/-- A loop on its way: the list, and the iterator the next pass starts from. -/
structure Walk (α : Type) where
  chain : Chain α
  at? : Option Iter

/-- One pass: the body, then the increment on what the body left. -/
def pass (gone : ε) (body : Chain α → Iter → Except ε (Chain α)) (c : Chain α) (it : Iter) :
    Except ε (Walk α) := do
  let c ← body c it
  match c.next it with
  | some at? => return ⟨c, at?⟩
  | none => .error gone

/-- The passes of the loop, labelled by the node each visits. -/
def Visits (gone : ε) (body : Chain α → Iter → Except ε (Chain α)) (w : Walk α) (it : Iter)
    (w' : Walk α) : Prop := w.at? = some it ∧ pass gone body w.chain it = .ok w'

/-- The loop from `begin()` to `end()`. -/
def Walks (gone : ε) (body : Chain α → Iter → Except ε (Chain α)) (c : Chain α) (visited : List Iter)
    (c' : Chain α) : Prop := Trace (Visits gone body) ⟨c, c.begin⟩ visited ⟨c', none⟩

section Walk
variable {gone : ε} {body : Chain α → Iter → Except ε (Chain α)} {f : α → Except ε α}

/-- Where a body gives the node it visits a new value, so does a pass. -/
theorem visits_iff (acts : ∀ c it a, c.deref it = some a → body c it = (f a).map (c.assign it))
    {c : Chain α} {pre post : List (Iter × α)} {it : Iter} {a : α} (split : c.nodes = pre ++ (it, a) :: post)
    {i : Iter} {w' : Walk α} :
    Visits gone body ⟨c, some it⟩ i w' ↔ i = it ∧ ∃ b, f a = .ok b ∧
      w' = ⟨c.assign it b, post.head?.map Prod.fst⟩ := by
  have step : ∀ b, (c.assign it b).next it = some (post.head?.map Prod.fst) := fun b =>
    Chain.next_split (Chain.assign_split split b)
  have value : body c it = (f a).map (c.assign it) := acts c it a (Chain.deref_split split)
  constructor
  · rintro ⟨here, passes⟩
    cases here
    refine ⟨rfl, ?_⟩
    simp only [pass, value] at passes
    cases result : f a with
    | error e =>
        rw [result] at passes
        cases passes
    | ok b =>
        simp only [result, Except.map, Except.ok_bind, step] at passes
        cases passes
        exact ⟨b, rfl, rfl⟩
  · rintro ⟨rfl, b, result, rfl⟩
    refine ⟨rfl, ?_⟩
    simp only [pass, value, result, Except.map, Except.ok_bind, step]
    rfl

/-- The loop behind a part already visited: it ends where every node left has a
new value, and it has then visited each of them once. -/
theorem walk_iff (acts : ∀ c it a, c.deref it = some a → body c it = (f a).map (c.assign it))
    {post : List (Iter × α)} {pre : List (Iter × α)} {c c' : Chain α} {visited : List Iter}
    (split : c.nodes = pre ++ post) :
    Trace (Visits gone body) ⟨c, post.head?.map Prod.fst⟩ visited ⟨c', none⟩ ↔
      visited = post.map Prod.fst ∧ ∃ post', c'.nodes = pre ++ post' ∧
        List.Forall₂ (fun n n' => n'.1 = n.1 ∧ f n.2 = .ok n'.2) post post' := by
  induction post generalizing pre c visited with
  | nil =>
      constructor
      · intro run
        cases run with
        | nil => exact ⟨rfl, [], split, .nil⟩
        | cons one _ => cases one.1
      · rintro ⟨rfl, post', split', same⟩
        cases same
        rw [Chain.ext_nodes (split.trans split'.symm)]
        exact .nil _
  | cons n rest ih =>
      obtain ⟨it, a⟩ := n
      have further : ∀ b, (c.assign it b).nodes = (pre ++ [(it, b)]) ++ rest := fun b => by
        rw [Chain.assign_split split b, List.append_assoc, List.singleton_append]
      constructor
      · intro run
        cases run with
        | cons one later =>
            obtain ⟨rfl, b, result, rfl⟩ := (visits_iff acts split).mp one
            obtain ⟨rfl, post', split', same⟩ := (ih (further b)).mp later
            exact ⟨rfl, (_, b) :: post', by simpa using split', .cons ⟨rfl, result⟩ same⟩
      · rintro ⟨rfl, post', split', same⟩
        cases same with
        | @cons _ n' _ rest' first others =>
            obtain ⟨it', b⟩ := n'
            obtain ⟨rfl, result⟩ := first
            have one : Visits gone body ⟨c, some it'⟩ it' ⟨c.assign it' b, rest.head?.map Prod.fst⟩ :=
              (visits_iff acts split).mpr ⟨rfl, b, result, rfl⟩
            exact .cons one ((ih (further b)).mpr ⟨rfl, rest', by simpa using split', others⟩)

/-- A loop whose body gives each node a new value or fails ends exactly where it
fails at none, and visits every node once, in order. -/
theorem walks_iff (acts : ∀ c it a, c.deref it = some a → body c it = (f a).map (c.assign it))
    {c c' : Chain α} {visited : List Iter} :
    Walks gone body c visited c' ↔ visited = c.iters ∧
      List.Forall₂ (fun n n' => n'.1 = n.1 ∧ f n.2 = .ok n'.2) c.nodes c'.nodes := by
  have loop : Trace (Visits gone body) ⟨c, c.nodes.head?.map Prod.fst⟩ visited ⟨c', none⟩ ↔
      visited = c.nodes.map Prod.fst ∧ ∃ post', c'.nodes = [] ++ post' ∧
        List.Forall₂ (fun n n' => n'.1 = n.1 ∧ f n.2 = .ok n'.2) c.nodes post' := walk_iff acts rfl
  simpa [Walks, Chain.begin, Chain.iters] using loop

end Walk
end Linked
