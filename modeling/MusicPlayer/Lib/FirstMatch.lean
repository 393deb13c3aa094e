import Mathlib.Data.List.Basic
import Mathlib.Data.List.Nodup

/-! Search loops that stop at the first element passing a test, and what a
list may look like after edits that touch only some of its elements. -/
namespace FirstMatch
variable {α : Type}

/-- The list cut at the first element that passes the test. -/
def firstMatch (p : α → Bool) : List α → Option (List α × α × List α)
  | [] => none
  | a :: l => if p a then some ([], a, l) else
      (firstMatch p l).map fun found => (a :: found.1, found.2.1, found.2.2)

theorem firstMatch_eq_some {p : α → Bool} {l pre post : List α} {a : α} :
    firstMatch p l = some (pre, a, post) ↔
      l = pre ++ a :: post ∧ p a = true ∧ ∀ x ∈ pre, p x = false := by
  induction l generalizing pre with
  | nil => simp [firstMatch]
  | cons b l ih =>
      cases hit : p b with
      | true =>
          simp only [firstMatch, hit, if_true, Option.some.injEq, Prod.mk.injEq]
          constructor
          · rintro ⟨rfl, rfl, rfl⟩
            exact ⟨rfl, hit, by simp⟩
          · rintro ⟨split, found, before⟩
            cases pre with
            | nil => cases split; exact ⟨rfl, rfl, rfl⟩
            | cons c pre =>
                cases split
                have miss := before b (by simp)
                rw [hit] at miss
                cases miss
      | false =>
          simp only [firstMatch, hit, Bool.false_eq_true, if_false, Option.map_eq_some_iff,
            Prod.exists, Prod.mk.injEq]
          constructor
          · rintro ⟨pre', a', post', found, rfl, rfl, rfl⟩
            obtain ⟨split, good, before⟩ := ih.mp found
            exact ⟨by rw [split, List.cons_append], good,
              fun x member => (List.mem_cons.mp member).elim (fun same => same ▸ hit) (before x)⟩
          · rintro ⟨split, good, before⟩
            cases pre with
            | nil =>
                cases split
                rw [hit] at good
                cases good
            | cons c pre =>
                cases split
                exact ⟨pre, a, post, ih.mpr ⟨rfl, good, fun x member =>
                  before x (List.mem_cons_of_mem _ member)⟩, rfl, rfl, rfl⟩

theorem firstMatch_eq_none {p : α → Bool} {l : List α} :
    firstMatch p l = none ↔ ∀ x ∈ l, p x = false := by
  induction l with
  | nil => simp [firstMatch]
  | cons b l ih =>
      cases hit : p b with
      | true => simp [firstMatch, hit]
      | false => simp [firstMatch, hit, ih]

/-- A search in an image is a search in the list itself. -/
theorem firstMatch_map {β : Type} (f : α → β) (p : β → Bool) (l : List α) :
    firstMatch p (l.map f) = (firstMatch (fun a => p (f a)) l).map
      fun found => (found.1.map f, f found.2.1, found.2.2.map f) := by
  induction l with
  | nil => rfl
  | cons a l ih =>
      cases hit : p (f a) with
      | true => simp [firstMatch, hit]
      | false => simp [firstMatch, hit, ih, Option.map_map, Function.comp_def]

/-- With keys that are all different, a search by key finds the element itself. -/
theorem find_key {β : Type} [DecidableEq β] {key : α → β} {l : List α} {a : α}
    (distinct : (l.map key).Nodup) (member : a ∈ l) : l.find? (fun x => key a = key x) = some a := by
  induction l with
  | nil => cases member
  | cons b l ih =>
      rw [List.map_cons, List.nodup_cons] at distinct
      rcases List.mem_cons.mp member with rfl | later
      · simp
      · have other : key a ≠ key b := fun same => distinct.1 (same ▸ List.mem_map_of_mem later)
        rw [List.find?_cons_of_neg (by simpa using other)]
        exact ih distinct.2 later

/-- `Edits touch kept l l'`: `l'` is `l` with some elements that `touch` selects
changed (as `kept` allows) or removed, every other element in its place and
untouched, and at most one element appended. -/
inductive Edits (touch : α → Prop) (kept : α → α → Prop) : List α → List α → Prop
  | nil : Edits touch kept [] []
  | grow (a : α) : Edits touch kept [] [a]
  | keep (a : α) {l l' : List α} : Edits touch kept l l' → Edits touch kept (a :: l) (a :: l')
  | change {a b : α} {l l' : List α} : touch a → kept a b → Edits touch kept l l' →
      Edits touch kept (a :: l) (b :: l')
  | remove {a : α} {l l' : List α} : touch a → Edits touch kept l l' → Edits touch kept (a :: l) l'

namespace Edits
variable {touch : α → Prop} {kept : α → α → Prop}

theorem refl (l : List α) : Edits touch kept l l := by
  induction l with
  | nil => exact .nil
  | cons a l ih => exact .keep a ih

theorem prepend (pre : List α) {l l' : List α} (h : Edits touch kept l l') :
    Edits touch kept (pre ++ l) (pre ++ l') := by
  induction pre with
  | nil => exact h
  | cons a pre ih => exact .keep a ih

theorem append (l : List α) (a : α) : Edits touch kept l (l ++ [a]) := by
  have last : Edits touch kept [] [a] := .grow a
  simpa using prepend l last

theorem change_at {pre post : List α} {a b : α} (touched : touch a) (similar : kept a b) :
    Edits touch kept (pre ++ a :: post) (pre ++ b :: post) :=
  prepend pre (.change touched similar (refl post))

theorem remove_at {pre post : List α} {a : α} (touched : touch a) :
    Edits touch kept (pre ++ a :: post) (pre ++ post) :=
  prepend pre (.remove touched (refl post))

end Edits

/-! ## Edits of single elements -/

/-- An edit that leaves alone what the search passes over, where only one element is found. -/
theorem filterMap_found {p : α → Bool} {g : α → Option α} (other : ∀ x, p x = false → g x = some x)
    {l pre post : List α} {a : α} (found : firstMatch p l = some (pre, a, post)) (once : ∀ x ∈ post, p x = false) :
    l.filterMap g = pre ++ (g a).toList ++ post := by
  obtain ⟨rfl, -, before⟩ := firstMatch_eq_some.mp found
  have same (part : List α) (none_ : ∀ x ∈ part, p x = false) : part.filterMap g = part := by
    induction part with
    | nil => rfl
    | cons x part ih =>
        rw [List.filterMap_cons_some (other x (none_ x List.mem_cons_self)),
          ih fun y member => none_ y (List.mem_cons_of_mem _ member)]
  rw [List.filterMap_append, same pre before, List.append_assoc]
  cases edited : g a with
  | none => rw [List.filterMap_cons_none edited, same post once]; rfl
  | some b => rw [List.filterMap_cons_some edited, same post once]; rfl

theorem filterMap_missing {p : α → Bool} {g : α → Option α} (other : ∀ x, p x = false → g x = some x)
    {l : List α} (missing : firstMatch p l = none) : l.filterMap g = l := by
  have none_ := firstMatch_eq_none.mp missing
  clear missing
  induction l with
  | nil => rfl
  | cons x l ih =>
      rw [List.filterMap_cons_some (other x (none_ x List.mem_cons_self)),
        ih fun y member => none_ y (List.mem_cons_of_mem _ member)]

/-- Edits that keep the keys act on the element of each key by itself. -/
theorem find_filterMap {β : Type} [DecidableEq β] {key : α → β} {g : α → Option α}
    (keeps : ∀ a b, g a = some b → key b = key a) {l : List α} (distinct : (l.map key).Nodup) (k : β) :
    (l.filterMap g).find? (fun x => key x = k) = (l.find? fun x => key x = k).bind g := by
  induction l with
  | nil => rfl
  | cons a l ih =>
      rw [List.map_cons, List.nodup_cons] at distinct
      obtain ⟨apart, distinct⟩ := distinct
      by_cases here : key a = k
      · rw [List.find?_cons_of_pos (by simpa using here), Option.bind_some]
        have none_ : (l.find? fun x => key x = k) = none := by
          rw [List.find?_eq_none]
          intro x member same
          exact apart (List.mem_map.mpr ⟨x, member, (of_decide_eq_true same).trans here.symm⟩)
        cases edited : g a with
        | none => rw [List.filterMap_cons_none edited, ih distinct, none_, Option.bind_none]
        | some b =>
            rw [List.filterMap_cons_some edited, List.find?_cons_of_pos]
            simpa using (keeps a b edited).trans here
      · rw [List.find?_cons_of_neg (by simpa using here), ← ih distinct]
        cases edited : g a with
        | none => rw [List.filterMap_cons_none edited]
        | some b =>
            rw [List.filterMap_cons_some edited, List.find?_cons_of_neg]
            simpa [keeps a b edited] using here

/-! ## Going on behind the first match -/

/-- The places visited from the front on, where the search for what is at place
`i` ends at place `back i` and the next place is the one behind it. -/
def visit (back : Nat → Nat) : Nat → Nat
  | 0 => 0
  | k + 1 => back (visit back k) + 1

section Visit
variable {back : Nat → Nat}

theorem visit_straight {n : Nat} (straight : ∀ i < n, back i = i) {k : Nat} (inside : k ≤ n) : visit back k = k := by
  induction k with
  | zero => rfl
  | succ k ih => rw [visit, ih (by omega), straight k (by omega)]

/-- Nothing behind a place whose search ends before it is ever visited. -/
theorem visit_within (early : ∀ i, back i ≤ i) {j : Nat} (turn : back j < j) (k : Nat) : visit back k ≤ j := by
  induction k with
  | zero => exact Nat.zero_le j
  | succ k ih =>
      rw [visit]
      rcases Nat.lt_or_eq_of_le ih with before | last
      · have := early (visit back k)
        omega
      · rw [last]
        exact turn

theorem visit_reaches_iff (early : ∀ i, back i ≤ i) {n : Nat} :
    (∃ k, n ≤ visit back k) ↔ ∀ i < n, back i = i := by
  constructor
  · rintro ⟨k, reached⟩ i inside
    rcases Nat.lt_or_eq_of_le (early i) with turn | same
    · have := visit_within early turn k
      omega
    · exact same
  · intro straight
    exact ⟨n, Nat.le_of_eq (visit_straight straight (Nat.le_refl n)).symm⟩

end Visit

end FirstMatch
