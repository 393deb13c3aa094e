import MusicPlayer.Lib.Chain
import MusicPlayer.Server.Nodes

/-! The sweep of the timer with the list as the program has it: nodes at
addresses, and an iterator that `erase` leaves behind. -/
namespace MusicPlayer.Server
open Linked Runs

/-- `*it`. -/
def node (c : Chain PLayerInfo) (it : Iter) : Except Fault PLayerInfo :=
  match c.deref it with
  | some info => .ok info
  | none => .error .erasedIterator

/-- The body of the loop in `TraverseList`. -/
def traverseBody (now : Int) (c : Chain PLayerInfo) (it : Iter) : Except Fault (Chain PLayerInfo) := do
  let info ← node c it
  let c := if now - info.dTime > 6 then c.erase it else c
  let info ← node c it
  let info ← letAppGo now info
  return c.assign it info

/-- The sweep from its first pass to `end()`, by the nodes it visits. -/
abbrev Traverses (now : Int) (c : Chain PLayerInfo) (visited : List Iter) (c' : Chain PLayerInfo) : Prop :=
  Walks .erasedIterator (traverseBody now) c visited c'

def fresh (now : Int) (it : PLayerInfo) : Bool := now - it.dTime ≤ 6

/-- A node with its app let go, if that has been silent. -/
def withoutSilentApp (now : Int) (it : PLayerInfo) : PLayerInfo :=
  if it.aBev ≠ none ∧ it.aTime.any (fun aTime => now - aTime > 6) then { it with aBev := none } else it

/-- A sweep that visits every node once and leaves the fresh ones as they should be. -/
structure Expires (now : Int) (c : Chain PLayerInfo) (visited : List Iter) (c' : Chain PLayerInfo) : Prop where
  runs : Traverses now c visited c'
  once : visited = c.iters
  left : c'.nodes = (c.nodes.filter fun n => fresh now n.2).map fun n => (n.1, withoutSilentApp now n.2)

/-! ## The sweep that is meant -/

/-- The registry after a tick is that of the nodes the sweep should leave. -/
theorem sweep_eq (now : Int) (l : Registry) :
    sweep now l = (l.filter (fresh now)).map (withoutSilentApp now) := by
  induction l with
  | nil => rfl
  | cons it rest ih =>
      by_cases expired : now - it.dTime > 6
      · have gone : fresh now it = false := by simp [fresh]; omega
        rw [sweep, if_pos expired, ih, List.filter_cons_of_neg (by simp [gone])]
      · have stays : fresh now it = true := by simp [fresh]; omega
        rw [sweep, if_neg expired, List.filter_cons_of_pos stays, List.map_cons, ← ih]
        cases timed : it.aTime with
        | none => simp [withoutSilentApp, timed]
        | some aTime =>
            dsimp only
            by_cases silent : now - aTime > 6
            · rw [if_pos silent]
              by_cases paired : it.aBev = none
              · have same : { it with aTime := some aTime, aBev := none } = it := by rw [← paired, ← timed]
                have kept : withoutSilentApp now it = it := by simp [withoutSilentApp, paired]
                rw [kept, same]
              · simp [withoutSilentApp, timed, silent, paired]
            · simp [withoutSilentApp, timed, silent]

/-! ## What one pass does -/

/-- What a pass makes of the node it visits: an expired one is used after `erase`. -/
def visit (now : Int) (it : PLayerInfo) : Except Fault PLayerInfo :=
  if now - it.dTime > 6 then .error .erasedIterator else letAppGo now it

theorem traverseBody_visit {now : Int} {c : Chain PLayerInfo} {it : Iter} {info : PLayerInfo}
    (here : c.deref it = some info) : traverseBody now c it = (visit now info).map (c.assign it) := by
  by_cases expired : now - info.dTime > 6
  · simp only [traverseBody, node, here, Except.ok_bind, if_pos expired, Chain.deref_erase, visit]
    rfl
  · simp only [traverseBody, node, here, Except.ok_bind, if_neg expired, visit]
    cases letAppGo now info <;> rfl

theorem traverses_iff {now : Int} {c c' : Chain PLayerInfo} {visited : List Iter} :
    Traverses now c visited c' ↔ visited = c.iters ∧
      List.Forall₂ (fun n n' => n'.1 = n.1 ∧ visit now n.2 = .ok n'.2) c.nodes c'.nodes :=
  walks_iff fun _ _ _ here => traverseBody_visit here

/-- The node whose pass comes to an end, and what it leaves. -/
theorem visit_ok {now : Int} {it it' : PLayerInfo} :
    visit now it = .ok it' ↔
      fresh now it = true ∧ (it.aBev ≠ none → it.aTime ≠ none) ∧ withoutSilentApp now it = it' := by
  by_cases expired : now - it.dTime > 6
  · have gone : fresh now it = false := by simp [fresh]; omega
    simp [visit, expired, gone]
  · have stays : fresh now it = true := by simp [fresh]; omega
    simp only [visit, if_neg expired, stays, true_and]
    cases paired : it.aBev with
    | none => simp [letAppGo, withoutSilentApp, paired]
    | some app =>
        cases timed : it.aTime with
        | none => simp [letAppGo, paired, timed]
        | some aTime => simp [letAppGo, withoutSilentApp, paired, timed]

theorem traverseList_visits {now : Int} {l l' : Registry} :
    traverseList now l = .ok l' ↔ List.Forall₂ (fun it it' => visit now it = .ok it') l l' := by
  induction l generalizing l' with
  | nil =>
      constructor
      · intro h
        cases h
        exact .nil
      · intro h
        cases h
        rfl
  | cons it rest ih =>
      have first : traverseList now (it :: rest) = (visit now it >>= fun it' =>
          traverseList now rest >>= fun rest' => .ok (it' :: rest')) := by
        rw [traverseList, visit]
        split <;> rfl
      rw [first]
      simp only [Except.bind_eq_ok]
      constructor
      · rintro ⟨it', visited, rest', later, same⟩
        cases same
        exact .cons visited (ih.mp later)
      · intro h
        cases h with
        | cons visited later => exact ⟨_, visited, _, ih.mpr later, rfl⟩

/-- The sweep over the nodes is the one over their values. -/
theorem traverseList_walk {now : Int} {c : Chain PLayerInfo} {l : Registry} :
    traverseList now c.values = .ok l ↔ ∃ visited c', Traverses now c visited c' ∧ c'.values = l := by
  rw [traverseList_visits]
  constructor
  · intro h
    obtain ⟨ns', iters, values, others⟩ := values_related h
    have distinct : (ns'.map Prod.fst).Nodup := by
      rw [iters]
      exact c.distinct
    exact ⟨c.iters, ⟨ns', distinct⟩, traverses_iff.mpr ⟨rfl, others⟩, values⟩
  · rintro ⟨visited, c', run, rfl⟩
    have nodes := (traverses_iff.mp run).2
    rw [Chain.values, Chain.values, List.forall₂_map_left_iff, List.forall₂_map_right_iff]
    exact nodes.imp fun _ _ both => both.2

/-- Where a sweep ends, no node had expired: it erased none. -/
theorem traverses_fresh {now : Int} {c c' : Chain PLayerInfo} {visited : List Iter}
    (run : Traverses now c visited c') :
    ∀ it ∈ c.values, now - it.dTime ≤ 6 ∧ (it.aBev ≠ none → it.aTime ≠ none) := by
  intro it member
  obtain ⟨n, inside, rfl⟩ := List.mem_map.mp member
  have passes : List.Forall₂ (fun n n' : Iter × PLayerInfo =>
      (fresh now n.2 = true ∧ (n.2.aBev ≠ none → n.2.aTime ≠ none)) ∧ n'.1 = n.1) c.nodes c'.nodes := by
    refine (traverses_iff.mp run).2.imp fun n n' both => ?_
    obtain ⟨young, timed, -⟩ := visit_ok.mp both.2
    exact ⟨⟨young, timed⟩, both.1⟩
  obtain ⟨young, timed⟩ := ((List.forall₂_and_left _ _).mp passes).1 n inside
  exact ⟨by simpa [fresh] using young, timed⟩

/-- The registry of a tick is what such a sweep leaves. -/
theorem Expires.values {now : Int} {c c' : Chain PLayerInfo} {visited : List Iter}
    (h : Expires now c visited c') : c'.values = sweep now c.values := by
  rw [sweep_eq, Chain.values, h.left, Chain.values, List.filter_map, List.map_map, List.map_map]
  rfl

/-- The sweep does what it should exactly where no node has expired, and no
node has an app whose `a_time` was never set. -/
theorem traverseList_expires (now : Int) (c : Chain PLayerInfo) :
    (∃ visited c', Expires now c visited c') ↔
      ∀ it ∈ c.values, now - it.dTime ≤ 6 ∧ (it.aBev ≠ none → it.aTime ≠ none) := by
  constructor
  · rintro ⟨visited, c', expires⟩
    exact traverses_fresh expires.runs
  · intro good
    have fit : ∀ n ∈ c.nodes, visit now n.2 = .ok (withoutSilentApp now n.2) := by
      intro n member
      obtain ⟨young, timed⟩ := good n.2 (List.mem_map_of_mem member)
      exact visit_ok.mpr ⟨by simpa [fresh] using young, timed, rfl⟩
    have all : (c.nodes.filter fun n => fresh now n.2) = c.nodes := by
      refine List.filter_eq_self.mpr fun n member => ?_
      simpa [fresh] using (good n.2 (List.mem_map_of_mem member)).1
    let c' : Chain PLayerInfo :=
      { nodes := c.nodes.map fun n => (n.1, withoutSilentApp now n.2)
        distinct := by simpa [Function.comp_def] using c.distinct }
    have passes : List.Forall₂ (fun n n' => n'.1 = n.1 ∧ visit now n.2 = .ok n'.2) c.nodes c'.nodes := by
      refine List.forall₂_map_right_iff.mpr (List.forall₂_same.mpr fun n member => ⟨rfl, fit n member⟩)
    exact ⟨c.iters, c', traverses_iff.mpr ⟨rfl, passes⟩, rfl, by rw [all]⟩

/-- A speaker last heard of at 3, when the clock says 10. -/
theorem traverseList_expired :
    ¬ ∃ visited c', Expires 10 ⟨[(1, ⟨[], [], [], 0, 0, 3, none, some 1, none⟩)], by decide⟩ visited c' := by
  rintro ⟨visited, c', expires⟩
  have young := (traverses_fresh expires.runs _ List.mem_cons_self).1
  exact absurd young (by decide)

end MusicPlayer.Server
