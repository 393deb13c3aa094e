import MusicPlayer.Lib.CBytes

/-! Text with single-quoted literals in it, as MySQL reads such literals, and
what becomes of values that are put between the quotes as they are. -/
namespace Quoted
open CBytes

def quote : UInt8 := 39
def backslash : UInt8 := 92

/-- What a backslash and the byte behind it stand for. -/
def unescape (c : UInt8) : Bytes :=
  if c = 48 then [0]
  else if c = 98 then [8]
  else if c = 110 then [10]
  else if c = 114 then [13]
  else if c = 116 then [9]
  else if c = 90 then [26]
  -- `\%` and `\_` keep their backslash
  else if c = 37 ∨ c = 95 then [backslash, c]
  else [c]

/-- The literal that starts behind an opening quote: its value, and the text
behind the quote that ends it. -/
def literal : Bytes → Option (Bytes × Bytes)
  | [] => none
  | [c] => if c = quote then some ([], []) else none
  | c :: d :: rest =>
      if c = backslash then (literal rest).map fun found => (unescape d ++ found.1, found.2)
      else if c = quote then
        if d = quote then (literal rest).map fun found => (quote :: found.1, found.2)
        else some ([], d :: rest)
      else (literal (d :: rest)).map fun found => (c :: found.1, found.2)

/-- No quote, and no backslash but before `%` and `_`. -/
def Carried : Bytes → Prop
  | [] => True
  | [c] => c ≠ quote ∧ c ≠ backslash
  | c :: d :: rest =>
      if c = backslash then (d = 37 ∨ d = 95) ∧ Carried rest else c ≠ quote ∧ Carried (d :: rest)

def decideCarried : (value : Bytes) → Decidable (Carried value)
  | [] => inferInstanceAs (Decidable True)
  | [c] => inferInstanceAs (Decidable (c ≠ quote ∧ c ≠ backslash))
  | c :: d :: rest =>
      have := decideCarried rest
      have := decideCarried (d :: rest)
      inferInstanceAs (Decidable
        (if c = backslash then (d = 37 ∨ d = 95) ∧ Carried rest else c ≠ quote ∧ Carried (d :: rest)))

instance : DecidablePred Carried := decideCarried

theorem length_unescape (c : UInt8) :
    (unescape c).length ≤ 2 ∧ ((unescape c).length = 2 ↔ c = 37 ∨ c = 95) := by
  unfold unescape
  by_cases kept : c = 37 ∨ c = 95
  · rcases kept with rfl | rfl <;> decide
  · rw [if_neg kept]
    simp only [kept, iff_false]
    repeat' split
    all_goals simp

theorem unescape_kept {c : UInt8} (kept : c = 37 ∨ c = 95) : unescape c = [backslash, c] := by
  rcases kept with rfl | rfl <;> rfl

theorem quote_ne_backslash : quote ≠ backslash := by decide

/-- A quote that is not doubled ends the literal. -/
theorem literal_closes {rest : Bytes} (ends : rest.head? ≠ some quote) :
    literal (quote :: rest) = some ([], rest) := by
  cases rest with
  | nil => rfl
  | cons d rest =>
      have other : d ≠ quote := fun same => ends (congrArg some same)
      rw [literal, if_neg quote_ne_backslash, if_pos rfl, if_neg other]

/-- Between quotes such a value denotes itself. -/
theorem literal_carried {value : Bytes} (carried : Carried value) {rest : Bytes}
    (ends : rest.head? ≠ some quote) : literal (value ++ quote :: rest) = some (value, rest) := by
  fun_induction Carried value with
  | case1 => exact literal_closes ends
  | case2 c =>
      obtain ⟨open_, plain⟩ := carried
      rw [List.singleton_append, literal, if_neg plain, if_neg open_, literal_closes ends]
      rfl
  | case3 d value ih =>
      obtain ⟨kept, carried⟩ := carried
      simp only [List.cons_append, literal, if_true, ih carried, Option.map_some, unescape_kept kept,
        List.nil_append]
  | case4 c d value plain ih =>
      obtain ⟨open_, carried⟩ := carried
      have inner := ih carried
      simp only [List.cons_append] at inner ⊢
      simp only [literal, if_neg plain, if_neg open_, inner, Option.map_some]

/-- A literal is no longer than its text, and as long only if it stands there as it is. -/
theorem literal_length {text value rest : Bytes} (h : literal text = some (value, rest)) :
    value.length + 1 + rest.length ≤ text.length ∧
      (value.length + 1 + rest.length = text.length → Carried value) := by
  fun_induction literal text generalizing value rest with
  | case1 => cases h
  | case2 =>
      cases h
      exact ⟨by simp, fun _ => trivial⟩
  | case3 => cases h
  | case4 d text ih =>
      obtain ⟨⟨inner, after⟩, found, same⟩ := Option.map_eq_some_iff.mp h
      cases same
      obtain ⟨short, exact_⟩ := ih found
      obtain ⟨most, two⟩ := length_unescape d
      simp only [List.length_append, List.length_cons]
      refine ⟨by omega, fun full => ?_⟩
      have kept := two.mp (by omega)
      rw [unescape_kept kept]
      simp only [List.cons_append, List.nil_append, Carried, if_true]
      exact ⟨kept, exact_ (by omega)⟩
  | case5 text plain ih =>
      obtain ⟨⟨inner, after⟩, found, same⟩ := Option.map_eq_some_iff.mp h
      cases same
      obtain ⟨short, -⟩ := ih found
      simp only [List.length_cons]
      exact ⟨by omega, fun full => by omega⟩
  | case6 d text plain open_ =>
      cases h
      simp only [List.length_cons, List.length_nil]
      exact ⟨by omega, fun full => trivial⟩
  | case7 c d text plain open_ ih =>
      obtain ⟨⟨inner, after⟩, found, same⟩ := Option.map_eq_some_iff.mp h
      cases same
      obtain ⟨short, exact_⟩ := ih found
      simp only [List.length_cons] at short exact_ ⊢
      refine ⟨by omega, fun full => ?_⟩
      have carried := exact_ (by omega)
      cases inner with
      | nil => exact ⟨open_, plain⟩
      | cons e inner =>
          rw [Carried, if_neg plain]
          exact ⟨open_, carried⟩

/-! ## Statements with literals in them -/

/-- A statement up to its first opening quote, and the text behind the closing
quote of each literal, the last up to the end. -/
structure Template where
  head : Bytes
  tails : List Bytes

def stripPrefix (start text : Bytes) : Option Bytes :=
  if start <+: text then some (text.drop start.length) else none

def literals : List Bytes → Bytes → Option (List Bytes)
  | [], text => if text = [] then some [] else none
  | tail :: tails, text => do
      let (value, text) ← literal text
      let text ← stripPrefix tail text
      let values ← literals tails text
      return value :: values

/-- The values of the literals, where the text is such a statement. -/
def Template.read (t : Template) (text : Bytes) : Option (List Bytes) := do
  let text ← stripPrefix t.head text
  literals t.tails text

def fillTails : List Bytes → List Bytes → Bytes
  | tail :: tails, value :: values => value ++ quote :: (tail ++ fillTails tails values)
  | _, _ => []

/-- The values between the quotes as they are. -/
def Template.fill (t : Template) (values : List Bytes) : Bytes := t.head ++ fillTails t.tails values

def total (values : List Bytes) : Nat := (values.map List.length).sum

theorem stripPrefix_append (start rest : Bytes) : stripPrefix start (start ++ rest) = some rest := by
  rw [stripPrefix, if_pos (List.prefix_append start rest), List.drop_left]

theorem stripPrefix_eq_some {start text rest : Bytes} :
    stripPrefix start text = some rest ↔ text = start ++ rest := by
  constructor
  · intro h
    unfold stripPrefix at h
    split at h
    next found =>
      obtain ⟨rest', rfl⟩ := found
      rw [List.drop_left] at h
      rw [Option.some.inj h]
    next => cases h
  · rintro rfl
    exact stripPrefix_append start rest

theorem literals_fillTails {tails values : List Bytes} (arity : values.length = tails.length)
    (ends : ∀ tail ∈ tails, tail ≠ [] ∧ tail.head? ≠ some quote) (carried : ∀ v ∈ values, Carried v) :
    literals tails (fillTails tails values) = some values := by
  induction tails generalizing values with
  | nil =>
      cases List.length_eq_zero_iff.mp arity
      rfl
  | cons tail tails ih =>
      cases values with
      | nil => cases arity
      | cons value values =>
          obtain ⟨more, other⟩ := ends tail List.mem_cons_self
          have closed : (tail ++ fillTails tails values).head? ≠ some quote := by
            rwa [List.head?_append_of_ne_nil _ more]
          have rest := ih (Nat.succ.inj arity) (fun t member => ends t (List.mem_cons_of_mem _ member))
            (fun v member => carried v (List.mem_cons_of_mem _ member))
          simp only [literals, fillTails, literal_carried (carried value List.mem_cons_self) closed,
            Option.bind_eq_bind, Option.bind_some, stripPrefix_append, rest]
          rfl

theorem literals_total {tails values : List Bytes} {text : Bytes} (h : literals tails text = some values) :
    total values + tails.length + total tails ≤ text.length ∧
      (total values + tails.length + total tails = text.length → ∀ v ∈ values, Carried v) := by
  induction tails generalizing values text with
  | nil =>
      unfold literals at h
      split at h
      · cases h
        exact ⟨by simp [total], fun _ v member => nomatch member⟩
      · cases h
  | cons tail tails ih =>
      unfold literals at h
      simp only [Option.bind_eq_bind, Option.bind_eq_some_iff] at h
      obtain ⟨⟨value, after⟩, first, text', found, rest, others, h⟩ := h
      cases h
      obtain rfl : after = tail ++ text' := stripPrefix_eq_some.mp found
      obtain ⟨short, exact_⟩ := literal_length first
      obtain ⟨less, all⟩ := ih others
      simp only [List.length_append] at short exact_
      simp only [total, List.map_cons, List.sum_cons, List.length_cons] at less all ⊢
      refine ⟨by omega, fun full => ?_⟩
      intro v member
      rcases List.mem_cons.mp member with rfl | later
      · exact exact_ (by omega)
      · exact all (by omega) v later

theorem length_fillTails {tails values : List Bytes} (arity : values.length = tails.length) :
    (fillTails tails values).length = total values + tails.length + total tails := by
  induction tails generalizing values with
  | nil =>
      cases List.length_eq_zero_iff.mp arity
      rfl
  | cons tail tails ih =>
      cases values with
      | nil => cases arity
      | cons value values =>
          simp only [fillTails, List.length_append, List.length_cons, ih (Nat.succ.inj arity), total,
            List.map_cons, List.sum_cons]
          omega

theorem Template.length_fill (t : Template) {values : List Bytes} (arity : values.length = t.tails.length) :
    (t.fill values).length = t.head.length + total values + t.tails.length + total t.tails := by
  rw [fill, List.length_append, length_fillTails arity]
  omega

/-- Values that are carried are read back. -/
theorem Template.read_fill (t : Template) {values : List Bytes} (arity : values.length = t.tails.length)
    (ends : ∀ tail ∈ t.tails, tail ≠ [] ∧ tail.head? ≠ some quote) (carried : ∀ v ∈ values, Carried v) :
    t.read (t.fill values) = some values := by
  rw [read, fill, stripPrefix_append]
  exact literals_fillTails arity ends carried

/-- What is read back is no longer than what was put in, and as long only if it is carried. -/
theorem Template.read_total (t : Template) {put got : List Bytes} (arity : put.length = t.tails.length)
    (h : t.read (t.fill put) = some got) :
    total got ≤ total put ∧ (total got = total put → ∀ v ∈ got, Carried v) := by
  rw [read, fill, stripPrefix_append] at h
  obtain ⟨less, all⟩ := literals_total h
  rw [length_fillTails arity] at less all
  exact ⟨by omega, fun same => all (by omega)⟩

end Quoted
