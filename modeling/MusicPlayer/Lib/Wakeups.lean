import Mathlib.Data.List.Infix
import Mathlib.Data.List.TakeDrop

/-! Receivers that are woken once for every arrival of input and then take one
item from the front of what they have not read. -/
namespace Wakeups
variable {α β ι : Type}

/-- One item for each arrival; `none` where the receiver does not come back. -/
def receive (take : List α → Option (β × List α)) : List α → List (List α) → Option (List β × List α)
  | input, [] => some ([], input)
  | input, chunk :: rest =>
      match take (input ++ chunk) with
      | none => none
      | some (item, left) => (receive take left rest).map fun r => (item :: r.1, r.2)

/-- The items as they follow each other on the wire. -/
def stream (enc : ι → List α) (items : List ι) : List α := items.flatMap enc

/-- `take` reads what `enc` writes, and does not come back before it has all of it. -/
structure Reads (take : List α → Option (β × List α)) (enc : ι → List α) (view : ι → β) : Prop where
  empty : take [] = none
  whole : ∀ item rest, take (enc item ++ rest) = some (view item, rest)
  waits : ∀ item input, input <+: enc item → input.length < (enc item).length → take input = none

/-- Of every so many items as there have been arrivals, all has arrived. -/
def Ahead (enc : ι → List α) (items : List ι) (pending : List α) (chunks : List (List α)) : Prop :=
  ∀ n ≤ chunks.length, 0 < n →
    (stream enc (items.take n)).length ≤ pending.length + (chunks.take n).flatten.length

variable {take : List α → Option (β × List α)} {enc : ι → List α} {view : ι → β}

theorem stream_cons (item : ι) (items : List ι) : stream enc (item :: items) = enc item ++ stream enc items :=
  List.flatMap_cons

theorem ahead_nil {items : List ι} {chunks : List (List α)} :
    Ahead enc items [] chunks ↔
      ∀ n ≤ chunks.length, (stream enc (items.take n)).length ≤ (chunks.take n).flatten.length := by
  unfold Ahead
  simp only [List.length_nil, Nat.zero_add]
  refine forall₂_congr fun n _ => ⟨fun h => ?_, fun h _ => h⟩
  by_cases first : n = 0
  · simp [first, stream]
  · exact h (by omega)

theorem receive_cons {input chunk left : List α} {rest : List (List α)} {item : β}
    (taken : take (input ++ chunk) = some (item, left)) :
    receive take input (chunk :: rest) = (receive take left rest).map fun r => (item :: r.1, r.2) := by
  rw [receive, taken]

theorem receive_stuck {input chunk : List α} {rest : List (List α)} (stuck : take (input ++ chunk) = none) :
    receive take input (chunk :: rest) = none := by
  rw [receive, stuck]

/-- Behind the first item, the others have to be ahead of the arrivals left. -/
theorem ahead_cons {item : ι} {items : List ι} {pending left chunk : List α} {rest : List (List α)}
    (split : pending ++ chunk = enc item ++ left) :
    Ahead enc (item :: items) pending (chunk :: rest) ↔ Ahead enc items left rest := by
  have size := congrArg List.length split
  simp only [List.length_append] at size
  constructor
  · intro ahead n below _
    have later := ahead (n + 1) (Nat.succ_le_succ below) n.succ_pos
    simp only [List.take_succ_cons, stream_cons, List.flatten_cons, List.length_append] at later
    omega
  · intro ahead n below positive
    obtain ⟨n, rfl⟩ := Nat.exists_eq_succ_of_ne_zero (show n ≠ 0 by omega)
    simp only [List.take_succ_cons, stream_cons, List.flatten_cons, List.length_append]
    by_cases first : n = 0
    · subst first
      simp only [List.take_zero, stream, List.flatMap_nil, List.flatten_nil, List.length_nil]
      omega
    · have later := ahead n (Nat.le_of_succ_le_succ below) (by omega)
      omega

/-- What waits in front of an arrival, with it, is part of the first item or all of it and more. -/
theorem first_item {items : List ι} {pending chunk : List α} {rest : List (List α)} (some_ : chunk ≠ [])
    (cut : pending ++ (chunk :: rest).flatten <+: stream enc items) :
    ∃ item later, items = item :: later ∧
      ((∃ left, pending ++ chunk = enc item ++ left ∧ left ++ rest.flatten <+: stream enc later) ∨
        pending ++ chunk <+: enc item ∧ (pending ++ chunk).length < (enc item).length) := by
  cases items with
  | nil =>
      have empty := List.prefix_nil.mp cut
      simp [some_] at empty
  | cons item later =>
      refine ⟨item, later, rfl, ?_⟩
      rw [stream_cons, List.flatten_cons, ← List.append_assoc] at cut
      have front : pending ++ chunk <+: enc item ++ stream enc later := (List.prefix_append _ _).trans cut
      by_cases whole : (enc item).length ≤ (pending ++ chunk).length
      · obtain ⟨left, split⟩ := List.prefix_of_prefix_length_le (List.prefix_append _ _) front whole
        rw [← split, List.append_assoc, List.prefix_append_right_inj] at cut
        exact .inl ⟨left, split.symm, cut⟩
      · have short : (pending ++ chunk).length ≤ (enc item).length := by omega
        exact .inr ⟨List.prefix_of_prefix_length_le front (List.prefix_append _ _) short, by omega⟩

/-- However a stream of items is cut, the receiver comes back from every arrival
exactly if it is always ahead by an item; it has then taken one for each. -/
theorem receive_iff (reads : Reads take enc view) {items : List ι} {pending : List α} {chunks : List (List α)}
    (some_ : ∀ chunk ∈ chunks, chunk ≠ []) (cut : pending ++ chunks.flatten <+: stream enc items) :
    (receive take pending chunks = some ((items.take chunks.length).map view,
        (pending ++ chunks.flatten).drop (stream enc (items.take chunks.length)).length) ∧
      Ahead enc items pending chunks) ∨
    (receive take pending chunks = none ∧ ¬ Ahead enc items pending chunks) := by
  induction chunks generalizing pending items with
  | nil =>
      refine .inl ⟨by simp [receive, stream], ?_⟩
      intro n below positive
      exact absurd positive (by simpa using below)
  | cons chunk rest ih =>
      obtain ⟨item, later, rfl, ⟨left, split, cut'⟩ | ⟨part, short⟩⟩ :=
        first_item (some_ chunk List.mem_cons_self) cut
      · have taken : take (pending ++ chunk) = some (view item, left) := by
          rw [split]
          exact reads.whole item left
        rw [receive_cons taken, ahead_cons split]
        rcases ih (fun c member => some_ c (List.mem_cons_of_mem _ member)) cut' with
          ⟨came, ahead⟩ | ⟨stuck, behind⟩
        · refine .inl ⟨?_, ahead⟩
          have input : pending ++ (chunk :: rest).flatten = enc item ++ (left ++ rest.flatten) := by
            rw [List.flatten_cons, ← List.append_assoc, split, List.append_assoc]
          rw [came, input, List.length_cons, List.take_succ_cons, stream_cons, List.length_append,
            List.drop_length_add_append]
          rfl
        · exact .inr ⟨by rw [stuck]; rfl, behind⟩
      · refine .inr ⟨receive_stuck (reads.waits item _ part short), fun ahead => ?_⟩
        have first := ahead 1 (by simp) Nat.one_pos
        rw [List.length_append] at short
        simp only [List.take_succ_cons, List.take_zero, stream, List.flatMap_cons, List.flatMap_nil, List.append_nil,
          List.flatten_cons, List.flatten_nil] at first
        omega

/-- The same from the first arrival on. -/
theorem received (reads : Reads take enc view) {items : List ι} {chunks : List (List α)}
    (some_ : ∀ chunk ∈ chunks, chunk ≠ []) (cut : chunks.flatten <+: stream enc items) :
    (receive take [] chunks = some ((items.take chunks.length).map view,
        chunks.flatten.drop (stream enc (items.take chunks.length)).length) ∧
      Ahead enc items [] chunks) ∨
    (receive take [] chunks = none ∧ ¬ Ahead enc items [] chunks) :=
  receive_iff reads some_ cut

/-- What has not been read of a cut stream is the beginning of the items not yet taken. -/
theorem left_prefix {items : List ι} {input : List α} {n : Nat} (cut : input <+: stream enc items)
    (all : (stream enc (items.take n)).length ≤ input.length) :
    input.drop (stream enc (items.take n)).length <+: stream enc (items.drop n) := by
  have whole : stream enc items = stream enc (items.take n) ++ stream enc (items.drop n) := by
    rw [stream, stream, stream, ← List.flatMap_append, List.take_append_drop]
  rw [whole] at cut
  obtain ⟨left, split⟩ := List.prefix_of_prefix_length_le (List.prefix_append _ _) cut all
  rw [← split, List.prefix_append_right_inj] at cut
  rw [← split, List.drop_left]
  exact cut

/-- The first item of a stream is there exactly if its last byte is. -/
theorem waits_iff (reads : Reads take enc view) {item : ι} {items : List ι} {input : List α}
    (cut : input <+: stream enc (item :: items)) : take input = none ↔ input.length < (enc item).length := by
  rw [stream_cons] at cut
  constructor
  · intro none_
    by_contra whole
    obtain ⟨rest, rfl⟩ := List.prefix_of_prefix_length_le (List.prefix_append _ _) cut (by omega)
    rw [reads.whole] at none_
    cases none_
  · intro short
    have part : input <+: enc item := List.prefix_of_prefix_length_le cut (List.prefix_append _ _) (by omega)
    exact reads.waits item input part short

/-- Nothing that is complete ever waits exactly if every arrival completes one item and no more. -/
theorem prompt_iff (reads : Reads take enc view) {items : List ι} {chunks : List (List α)}
    (some_ : ∀ chunk ∈ chunks, chunk ≠ []) (cut : chunks.flatten <+: stream enc items) :
    (∀ n ≤ chunks.length, ∃ taken left, receive take [] (chunks.take n) = some (taken, left) ∧ take left = none) ↔
      ∀ n ≤ chunks.length, (stream enc (items.take n)).length ≤ (chunks.take n).flatten.length ∧
        (n < items.length → (chunks.take n).flatten.length < (stream enc (items.take (n + 1))).length) := by
  have cut_take (n : Nat) : (chunks.take n).flatten <+: stream enc items := by
    refine List.IsPrefix.trans ?_ cut
    conv => rhs; rw [← List.take_append_drop n chunks, List.flatten_append]
    exact List.prefix_append _ _
  have split (n : Nat) (below : n ≤ chunks.length) :=
    received reads (fun c member => some_ c (List.mem_of_mem_take member)) (cut_take n)
  have grown (n : Nat) (more : n < items.length) : (stream enc (items.take (n + 1))).length =
      (stream enc (items.take n)).length + (enc items[n]).length := by
    rw [List.take_succ_eq_append_getElem more, stream, List.flatMap_append, List.length_append]
    simp [stream]
  constructor
  · intro prompt n below
    obtain ⟨taken, left, came, none_⟩ := prompt n below
    rcases split n below with ⟨came', ahead⟩ | ⟨stuck, -⟩
    · rw [came] at came'
      obtain ⟨-, rfl⟩ := Prod.mk.inj (Option.some.inj came')
      have size : (chunks.take n).length = n := List.length_take_of_le below
      rw [size] at none_
      have all : (stream enc (items.take n)).length ≤ (chunks.take n).flatten.length := by
        by_cases first : n = 0
        · simp [first, stream]
        · have here := ahead n (le_of_eq size.symm) (by omega)
          rw [List.take_take, Nat.min_self, List.length_nil] at here
          omega
      refine ⟨all, fun more => ?_⟩
      have rest := left_prefix (cut_take n) all
      rw [List.drop_eq_getElem_cons more] at rest
      have short := (waits_iff reads rest).mp none_
      rw [List.length_drop] at short
      rw [grown n more]
      omega
    · rw [came] at stuck
      cases stuck
  · intro counts n below
    have size : (chunks.take n).length = n := List.length_take_of_le below
    rcases split n below with ⟨came, -⟩ | ⟨-, behind⟩
    · refine ⟨_, _, came, ?_⟩
      rw [size]
      obtain ⟨all, next⟩ := counts n below
      have rest := left_prefix (cut_take n) all
      by_cases more : n < items.length
      · rw [List.drop_eq_getElem_cons more] at rest
        refine (waits_iff reads rest).mpr ?_
        have short := next more
        rw [grown n more] at short
        rw [List.length_drop]
        omega
      · have none_ : items.drop n = [] := List.drop_of_length_le (by omega)
        rw [none_] at rest
        rw [List.prefix_nil.mp (show _ <+: [] from rest)]
        exact reads.empty
    · refine absurd (fun k small _ => ?_) behind
      rw [size] at small
      have := (counts k (by omega)).1
      rw [List.take_take, Nat.min_eq_left small, List.length_nil]
      omega

end Wakeups
