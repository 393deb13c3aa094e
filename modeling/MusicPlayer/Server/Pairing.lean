import MusicPlayer.Lib.FirstMatch
import MusicPlayer.Lib.Trace
import Mathlib.Data.List.Nodup

/-! What the registry is for: a table that says over which connection each
device speaks and which app connection is paired with it. Devices and
connections are of any types; the handlers of the server are shown elsewhere to
move this table. -/
namespace MusicPlayer.Pairing
open FirstMatch

set_option linter.unusedSectionVars false

structure Link (δ β : Type) where
  device : δ
  speaker : Option β
  app : Option β
  deriving DecidableEq

abbrev Table (δ β : Type) := List (Link δ β)

variable {δ β : Type} [DecidableEq δ] [DecidableEq β]

/-- A connection takes part in a link, in either role. -/
def Link.Names (c : β) (x : Link δ β) : Prop := x.app = some c ∨ x.speaker = some c

instance (c : β) (x : Link δ β) : Decidable (x.Names c) := by
  unfold Link.Names
  infer_instance

/-- What one event does to the table. -/
inductive Act (δ β : Type)
  | report (c : β) (d : δ)
  | pair (c : β) (d : δ)
  | leave (c : β)
  | ended (c : β)
  | sweep
  | quiet

/-- A device reports: a new one gets a link, a known one keeps the link it has. -/
def report (c : β) (d : δ) (t : Table δ β) : Table δ β :=
  match firstMatch (fun x => x.device == d) t with
  | some _ => t
  | none => t ++ [⟨d, some c, none⟩]

def pair (c : β) (d : δ) (t : Table δ β) : Table δ β :=
  match firstMatch (fun x => x.device == d) t with
  | some (pre, x, post) => pre ++ { x with app := some c } :: post
  | none => t

def leave (c : β) (t : Table δ β) : Table δ β :=
  match firstMatch (fun x => x.app == some c) t with
  | some (pre, x, post) => pre ++ { x with app := none } :: post
  | none => t

def ended (c : β) (t : Table δ β) : Table δ β :=
  match firstMatch (fun x => x.app == some c || x.speaker == some c) t with
  | some (pre, x, post) =>
      if x.app = some c then pre ++ { x with app := none } :: post else pre ++ post
  | none => t

/-- A sweep drops some links and unpairs some others. -/
inductive Swept : Table δ β → Table δ β → Prop
  | nil : Swept [] []
  | keep (x : Link δ β) {t t' : Table δ β} : Swept t t' → Swept (x :: t) (x :: t')
  | unpair (x : Link δ β) {t t' : Table δ β} : Swept t t' → Swept (x :: t) ({ x with app := none } :: t')
  | drop (x : Link δ β) {t t' : Table δ β} : Swept t t' → Swept (x :: t) t'

inductive Step : Table δ β → Act δ β → Table δ β → Prop
  | report (c : β) (d : δ) (t : Table δ β) : Step t (.report c d) (report c d t)
  | pair (c : β) (d : δ) (t : Table δ β) : Step t (.pair c d) (pair c d t)
  | leave (c : β) (t : Table δ β) : Step t (.leave c) (leave c t)
  | ended (c : β) (t : Table δ β) : Step t (.ended c) (ended c t)
  | sweep {t t' : Table δ β} : Swept t t' → Step t .sweep t'
  | quiet (t : Table δ β) : Step t .quiet t

/-! ## One step, link by link -/

theorem Step.of_report {c : β} {d : δ} {t t' : Table δ β} (h : Step t (.report c d) t') :
    t' = Pairing.report c d t := by
  cases h
  rfl

theorem Step.of_pair {c : β} {d : δ} {t t' : Table δ β} (h : Step t (.pair c d) t') :
    t' = Pairing.pair c d t := by
  cases h
  rfl

theorem report_cases (c : β) (d : δ) (t : Table δ β) :
    (∃ x ∈ t, x.device = d) ∧ report c d t = t ∨
      (∀ x ∈ t, x.device ≠ d) ∧ report c d t = t ++ [⟨d, some c, none⟩] := by
  unfold report
  cases found : firstMatch (fun x => x.device == d) t with
  | none =>
      refine .inr ⟨fun x member => ?_, rfl⟩
      simpa using firstMatch_eq_none.mp found x member
  | some parts =>
      obtain ⟨split, hit, -⟩ := firstMatch_eq_some.mp found
      exact .inl ⟨⟨parts.2.1, by rw [split]; simp, by simpa using hit⟩, rfl⟩

theorem pair_cases (c : β) (d : δ) (t : Table δ β) :
    (∃ pre x post, t = pre ++ x :: post ∧ x.device = d ∧ (∀ y ∈ pre, y.device ≠ d) ∧
        pair c d t = pre ++ { x with app := some c } :: post) ∨
      (∀ x ∈ t, x.device ≠ d) ∧ pair c d t = t := by
  unfold pair
  cases found : firstMatch (fun x => x.device == d) t with
  | none =>
      refine .inr ⟨fun x member => ?_, rfl⟩
      simpa using firstMatch_eq_none.mp found x member
  | some parts =>
      obtain ⟨pre, x, post⟩ := parts
      obtain ⟨split, hit, before⟩ := firstMatch_eq_some.mp found
      exact .inl ⟨pre, x, post, split, by simpa using hit,
        fun y member => by simpa using before y member, rfl⟩

theorem report_known {c : β} {d : δ} {t : Table δ β} (known : ∃ x ∈ t, x.device = d) :
    report c d t = t := by
  rcases report_cases c d t with ⟨_, same⟩ | ⟨absent, _⟩
  · exact same
  · obtain ⟨x, member, device⟩ := known
    exact absurd device (absent x member)

theorem report_absent {c : β} {d : δ} {t : Table δ β} (absent : ∀ x ∈ t, x.device ≠ d) :
    report c d t = t ++ [⟨d, some c, none⟩] := by
  rcases report_cases c d t with ⟨⟨x, member, device⟩, _⟩ | ⟨_, grown⟩
  · exact absurd device (absent x member)
  · exact grown

theorem pair_at {c : β} {d : δ} {pre post : Table δ β} {x : Link δ β} (device : x.device = d)
    (before : ∀ y ∈ pre, y.device ≠ d) :
    pair c d (pre ++ x :: post) = pre ++ { x with app := some c } :: post := by
  unfold pair
  rw [firstMatch_eq_some.mpr ⟨rfl, by simpa using device, fun y member => by simpa using before y member⟩]

theorem pair_absent {c : β} {d : δ} {t : Table δ β} (absent : ∀ x ∈ t, x.device ≠ d) :
    pair c d t = t := by
  rcases pair_cases c d t with ⟨pre, x, post, rfl, device, _⟩ | ⟨_, same⟩
  · exact absurd device (absent x (by simp))
  · exact same

theorem leave_cases (c : β) (t : Table δ β) :
    (∃ pre x post, t = pre ++ x :: post ∧ x.app = some c ∧
        leave c t = pre ++ { x with app := none } :: post) ∨ leave c t = t := by
  unfold leave
  cases found : firstMatch (fun x => x.app == some c) t with
  | none => exact .inr rfl
  | some parts =>
      obtain ⟨pre, x, post⟩ := parts
      obtain ⟨split, hit, -⟩ := firstMatch_eq_some.mp found
      exact .inl ⟨pre, x, post, split, by simpa using hit, rfl⟩

theorem ended_cases (c : β) (t : Table δ β) :
    (∃ pre x post, t = pre ++ x :: post ∧ (∀ y ∈ pre, ¬ y.Names c) ∧
        (x.app = some c ∧ ended c t = pre ++ { x with app := none } :: post ∨
          x.app ≠ some c ∧ x.speaker = some c ∧ ended c t = pre ++ post)) ∨
      (∀ x ∈ t, ¬ x.Names c) ∧ ended c t = t := by
  unfold ended
  cases found : firstMatch (fun x => x.app == some c || x.speaker == some c) t with
  | none =>
      refine .inr ⟨fun x member => ?_, rfl⟩
      simpa [Link.Names] using firstMatch_eq_none.mp found x member
  | some parts =>
      obtain ⟨pre, x, post⟩ := parts
      obtain ⟨split, hit, before⟩ := firstMatch_eq_some.mp found
      refine .inl ⟨pre, x, post, split, fun y member => ?_, ?_⟩
      · simpa [Link.Names] using before y member
      · by_cases paired : x.app = some c
        · exact .inl ⟨paired, by simp only [if_pos paired]⟩
        · have spoken : x.speaker = some c := by
            simpa [paired] using hit
          exact .inr ⟨paired, spoken, by simp only [if_neg paired]⟩

/-- Where a link of the new table comes from: an old link, whose device and
speaker it keeps and whose app it changes only for a reason, or the report of a
device that had none. -/
def Origin (t : Table δ β) (a : Act δ β) (x : Link δ β) : Prop :=
  (∃ y ∈ t, x.device = y.device ∧ x.speaker = y.speaker ∧
    (x.app = y.app ∨
      (x.app = none ∧ ∃ c, y.app = some c ∧ (a = .leave c ∨ a = .ended c)) ∨
      (x.app = none ∧ a = .sweep) ∨
      ∃ c, a = .pair c y.device ∧ x.app = some c)) ∨
  ∃ c d, a = .report c d ∧ x = ⟨d, some c, none⟩ ∧ ∀ y ∈ t, y.device ≠ d

theorem Origin.old {t : Table δ β} {a : Act δ β} {x : Link δ β} (member : x ∈ t) : Origin t a x :=
  .inl ⟨x, member, rfl, rfl, .inl rfl⟩

theorem Swept.origin {t t' : Table δ β} (h : Swept t t') {x : Link δ β} (member : x ∈ t') :
    Origin t .sweep x := by
  suffices found : ∃ y ∈ t, x.device = y.device ∧ x.speaker = y.speaker ∧
      (x.app = y.app ∨ x.app = none) by
    obtain ⟨y, inOld, device, speaker, app⟩ := found
    exact .inl ⟨y, inOld, device, speaker, app.imp_right fun none_ => .inr (.inl ⟨none_, rfl⟩)⟩
  induction h with
  | nil => cases member
  | keep y _ ih =>
      rcases List.mem_cons.mp member with rfl | later
      · exact ⟨x, List.mem_cons_self, rfl, rfl, .inl rfl⟩
      · obtain ⟨z, inOld, same⟩ := ih later
        exact ⟨z, List.mem_cons_of_mem _ inOld, same⟩
  | unpair y _ ih =>
      rcases List.mem_cons.mp member with rfl | later
      · exact ⟨y, List.mem_cons_self, rfl, rfl, .inr rfl⟩
      · obtain ⟨z, inOld, same⟩ := ih later
        exact ⟨z, List.mem_cons_of_mem _ inOld, same⟩
  | drop y _ ih =>
      obtain ⟨z, inOld, same⟩ := ih member
      exact ⟨z, List.mem_cons_of_mem _ inOld, same⟩

theorem mem_edited {pre post : Table δ β} {y z x : Link δ β} (member : x ∈ pre ++ z :: post) :
    x ∈ pre ++ y :: post ∨ x = z := by
  simp only [List.mem_append, List.mem_cons] at member ⊢
  tauto

theorem Step.origin {t t' : Table δ β} {a : Act δ β} (h : Step t a t') {x : Link δ β}
    (member : x ∈ t') : Origin t a x := by
  cases h with
  | report c d =>
      rcases report_cases c d t with ⟨_, same⟩ | ⟨absent, grown⟩
      · exact .old (same ▸ member)
      · rw [grown, List.mem_append, List.mem_singleton] at member
        rcases member with old | fresh
        · exact .old old
        · exact .inr ⟨c, d, rfl, fresh, absent⟩
  | pair c d =>
      rcases pair_cases c d t with ⟨pre, y, post, rfl, device, _, paired⟩ | ⟨_, same⟩
      · rw [paired] at member
        rcases mem_edited (y := y) member with old | rfl
        · exact .old old
        · exact .inl ⟨y, by simp, rfl, rfl, .inr (.inr (.inr ⟨c, by rw [device], rfl⟩))⟩
      · exact .old (same ▸ member)
  | leave c =>
      rcases leave_cases c t with ⟨pre, y, post, rfl, app, left_⟩ | same
      · rw [left_] at member
        rcases mem_edited (y := y) member with old | rfl
        · exact .old old
        · exact .inl ⟨y, by simp, rfl, rfl, .inr (.inl ⟨rfl, c, app, .inl rfl⟩)⟩
      · exact .old (same ▸ member)
  | ended c =>
      rcases ended_cases c t with ⟨pre, y, post, rfl, _, ⟨app, left_⟩ | ⟨_, _, left_⟩⟩ | ⟨_, same⟩
      · rw [left_] at member
        rcases mem_edited (y := y) member with old | rfl
        · exact .old old
        · exact .inl ⟨y, by simp, rfl, rfl, .inr (.inl ⟨rfl, c, app, .inr rfl⟩)⟩
      · rw [left_] at member
        refine .old ?_
        simp only [List.mem_append, List.mem_cons] at member ⊢
        tauto
      · exact .old (same ▸ member)
  | sweep swept => exact swept.origin member
  | quiet => exact .old member

theorem Swept.devices {t t' : Table δ β} (h : Swept t t') :
    (t'.map Link.device).Sublist (t.map Link.device) := by
  induction h with
  | nil => exact List.Sublist.refl _
  | keep x _ ih => exact ih.cons_cons x.device
  | unpair x _ ih => exact ih.cons_cons x.device
  | drop x _ ih => exact ih.cons x.device

theorem Step.devices {t t' : Table δ β} {a : Act δ β} (h : Step t a t') :
    (t'.map Link.device).Sublist (t.map Link.device) ∨
      ∃ d, (∀ y ∈ t, y.device ≠ d) ∧ t'.map Link.device = t.map Link.device ++ [d] := by
  cases h with
  | report c d =>
      rcases report_cases c d t with ⟨_, same⟩ | ⟨absent, grown⟩
      · rw [same]
        exact .inl (List.Sublist.refl _)
      · exact .inr ⟨d, absent, by rw [grown]; simp⟩
  | pair c d =>
      rcases pair_cases c d t with ⟨pre, y, post, rfl, _, _, paired⟩ | ⟨_, same⟩
      · exact .inl (by rw [paired]; simp)
      · exact .inl (by rw [same])
  | leave c =>
      rcases leave_cases c t with ⟨pre, y, post, rfl, _, left_⟩ | same
      · exact .inl (by rw [left_]; simp)
      · exact .inl (by rw [same])
  | ended c =>
      rcases ended_cases c t with ⟨pre, y, post, rfl, _, ⟨_, left_⟩ | ⟨_, _, left_⟩⟩ | ⟨_, same⟩
      · exact .inl (by rw [left_]; simp)
      · exact .inl (by rw [left_]; simp)
      · exact .inl (by rw [same])
  | sweep swept => exact .inl swept.devices
  | quiet => exact .inl (List.Sublist.refl _)

/-! ## Invariants of every run -/

/-- One link for a device, and every link has a speaker. -/
structure WellFormed (t : Table δ β) : Prop where
  distinct : (t.map Link.device).Nodup
  spoken : ∀ x ∈ t, x.speaker ≠ none

theorem WellFormed.nil : WellFormed ([] : Table δ β) := ⟨List.nodup_nil, by simp⟩

theorem WellFormed.unique {t : Table δ β} (h : WellFormed t) {x y : Link δ β} (left_ : x ∈ t)
    (right_ : y ∈ t) (device : x.device = y.device) : x = y :=
  List.inj_on_of_nodup_map h.distinct left_ right_ device

theorem Step.wellFormed {t t' : Table δ β} {a : Act δ β} (h : Step t a t') (base : WellFormed t) :
    WellFormed t' := by
  constructor
  · rcases h.devices with fewer | ⟨d, absent, grown⟩
    · exact fewer.nodup base.distinct
    · rw [grown, List.nodup_append]
      refine ⟨base.distinct, List.nodup_singleton d, ?_⟩
      intro e inOld f inNew same
      obtain ⟨y, member, rfl⟩ := List.mem_map.mp inOld
      exact absent y member (same.trans (List.mem_singleton.mp inNew))
  · intro x member
    rcases h.origin member with ⟨y, inOld, _, speaker, _⟩ | ⟨c, d, _, rfl, _⟩
    · rw [speaker]
      exact base.spoken y inOld
    · simp

/-- The connections an act may bring into the table. -/
def Act.Brings (c : β) : Act δ β → Prop
  | .report b _ => b = c
  | .pair b _ => b = c
  | _ => False

def Unnamed (c : β) (t : Table δ β) : Prop := ∀ x ∈ t, ¬ x.Names c

/-- A connection that is out of the table stays out until it acts itself. -/
theorem Step.unnamed {t t' : Table δ β} {a : Act δ β} {c : β} (h : Step t a t')
    (others : ¬ a.Brings c) (base : Unnamed c t) : Unnamed c t' := by
  intro x member names
  rcases h.origin member with ⟨y, inOld, _, speaker, app⟩ | ⟨b, d, rfl, rfl, _⟩
  · apply base y inOld
    rcases names with paired | spoken
    · rcases app with same | ⟨none_, _⟩ | ⟨none_, _⟩ | ⟨b, rfl, now⟩
      · exact .inl (same ▸ paired)
      · rw [none_] at paired
        cases paired
      · rw [none_] at paired
        cases paired
      · exact absurd (Option.some.inj (now.symm.trans paired)) others
    · exact .inr (speaker ▸ spoken)
  · rcases names with paired | spoken
    · cases paired
    · exact others (Option.some.inj spoken)

theorem unnamed_cut {c : β} {pre post : Table δ β} {x : Link δ β} (before : Unnamed c pre) :
    Unnamed c (pre ++ x :: post) ↔ ¬ x.Names c ∧ Unnamed c post := by
  simp only [Unnamed, List.forall_mem_append, List.forall_mem_cons]
  exact ⟨And.right, fun rest => ⟨before, rest⟩⟩

/-- `x` names `c` in both roles. -/
def Link.Twice (c : β) (x : Link δ β) : Prop := x.app = some c ∧ x.speaker = some c

theorem Unnamed.once {c : β} {t : Table δ β} (clean : Unnamed c t) : ∀ x ∈ t, ¬ x.Twice c :=
  fun x member two => clean x member (.inl two.1)

theorem once_cut {c : β} {pre post : Table δ β} {x : Link δ β} (before : Unnamed c pre) :
    (∀ y ∈ pre ++ x :: post, ¬ y.Twice c) ↔ ¬ x.Twice c ∧ ∀ y ∈ post, ¬ y.Twice c := by
  simp only [List.forall_mem_append, List.forall_mem_cons]
  exact ⟨And.right, fun rest => ⟨before.once, rest⟩⟩

/-- How many links name `c`, from the first of them on. -/
theorem named_cut {c : β} {pre post : Table δ β} {x : Link δ β} (before : Unnamed c pre)
    (names : x.Names c) :
    ((pre ++ x :: post).filter fun x => x.Names c).length ≤ 1 ↔ Unnamed c post := by
  have none_iff : ∀ l : Table δ β, (l.filter fun x => x.Names c).length = 0 ↔ Unnamed c l := by
    intro l
    simp [Unnamed, List.length_eq_zero_iff, List.filter_eq_nil_iff]
  rw [List.filter_append, List.length_append, (none_iff pre).mpr before,
    List.filter_cons_of_pos (by simpa using names), List.length_cons, ← none_iff]
  omega

/-- After the clean-up for an ended connection nothing names it, exactly when
at most one link did, and that one in a single role. -/
theorem unnamed_ended_iff {c : β} {t : Table δ β} :
    Unnamed c (ended c t) ↔ (t.filter fun x => x.Names c).length ≤ 1 ∧ ∀ x ∈ t, ¬ x.Twice c := by
  rcases ended_cases c t with ⟨pre, x, post, rfl, before, effect⟩ | ⟨clean, same⟩
  · rw [once_cut before]
    rcases effect with ⟨app, left_⟩ | ⟨unpaired, speaker, left_⟩
    · rw [left_, unnamed_cut before, named_cut before (.inl app)]
      constructor
      · rintro ⟨quiet, rest⟩
        exact ⟨rest, fun two => quiet (.inr two.2), rest.once⟩
      · rintro ⟨rest, single, -⟩
        refine ⟨?_, rest⟩
        rintro (paired | spoken)
        · cases paired
        · exact single ⟨app, spoken⟩
    · rw [left_, named_cut before (.inr speaker)]
      constructor
      · intro clean
        have rest : Unnamed c post := fun y member => clean y (List.mem_append_right _ member)
        exact ⟨rest, fun two => unpaired two.1, rest.once⟩
      · rintro ⟨rest, -⟩ y member
        rcases List.mem_append.mp member with first | second
        · exact before y first
        · exact rest y second
  · rw [same]
    refine ⟨fun _ => ⟨?_, Unnamed.once clean⟩, fun _ => clean⟩
    rw [List.filter_eq_nil_iff.mpr fun x member => by simpa using clean x member]
    exact Nat.zero_le 1

/-! ## Devices that keep their connection -/

/-- No connection speaks for two devices, and none is the app of two. -/
structure Exclusive (t : Table δ β) : Prop where
  speakers : ∀ x ∈ t, ∀ y ∈ t, ∀ c, x.speaker = some c → y.speaker = some c → x.device = y.device
  apps : ∀ x ∈ t, ∀ y ∈ t, ∀ c, x.app = some c → y.app = some c → x.device = y.device

theorem Exclusive.nil : Exclusive ([] : Table δ β) := ⟨by simp, by simp⟩

/-- A report or a pairing that leaves every other link as the only one on its connections. -/
def Act.Steady (t : Table δ β) : Act δ β → Prop
  | .report c d => (∀ x ∈ t, x.device = d → x.speaker = some c) ∧
      ∀ x ∈ t, x.speaker = some c → x.device = d
  | .pair c d => (∃ x ∈ t, x.device = d) → ∀ x ∈ t, x.app = some c → x.device = d
  | _ => True

theorem Step.exclusive {t t' : Table δ β} {a : Act δ β} (h : Step t a t') (steady : a.Steady t)
    (base : Exclusive t) : Exclusive t' := by
  have app_origin : ∀ x ∈ t', ∀ c, x.app = some c →
      ∃ y ∈ t, x.device = y.device ∧ (y.app = some c ∨ a = .pair c y.device) := by
    intro x member c paired
    rcases h.origin member with ⟨y, inOld, device, _, app⟩ | ⟨b, d, _, rfl, _⟩
    · refine ⟨y, inOld, device, ?_⟩
      rcases app with same | ⟨none_, _⟩ | ⟨none_, _⟩ | ⟨b, act, now⟩
      · exact .inl (same ▸ paired)
      · rw [none_] at paired
        cases paired
      · rw [none_] at paired
        cases paired
      · cases Option.some.inj (now.symm.trans paired)
        exact .inr act
    · cases paired
  constructor
  · intro x left_ y right_ c spokenX spokenY
    rcases h.origin left_ with ⟨x', oldX, deviceX, speakerX, _⟩ | ⟨b, d, rfl, rfl, _⟩
    · rcases h.origin right_ with ⟨y', oldY, deviceY, speakerY, _⟩ | ⟨b, d, rfl, rfl, _⟩
      · rw [deviceX, deviceY]
        exact base.speakers x' oldX y' oldY c (speakerX ▸ spokenX) (speakerY ▸ spokenY)
      · cases spokenY
        rw [deviceX]
        exact steady.2 x' oldX (speakerX ▸ spokenX)
    · rcases h.origin right_ with ⟨y', oldY, deviceY, speakerY, _⟩ | ⟨b', d', act, rfl, _⟩
      · cases spokenX
        rw [deviceY]
        exact (steady.2 y' oldY (speakerY ▸ spokenY)).symm
      · cases act
        rfl
  · intro x left_ y right_ c pairedX pairedY
    obtain ⟨x', oldX, deviceX, fromX⟩ := app_origin x left_ c pairedX
    obtain ⟨y', oldY, deviceY, fromY⟩ := app_origin y right_ c pairedY
    rw [deviceX, deviceY]
    rcases fromX with appX | act
    · rcases fromY with appY | act
      · exact base.apps x' oldX y' oldY c appX appY
      · subst act
        exact steady ⟨y', oldY, rfl⟩ x' oldX appX
    · subst act
      rcases fromY with appY | act
      · exact (steady ⟨x', oldX, rfl⟩ y' oldY appY).symm
      · exact (Act.pair.inj act).2

/-- The device's links all speak over `c`. -/
def SpeaksOver (c : β) (d : δ) (t : Table δ β) : Prop := ∀ x ∈ t, x.device = d → x.speaker = some c

theorem Step.speaksOver {t t' : Table δ β} {a : Act δ β} {c : β} {d : δ} (h : Step t a t')
    (elsewhere : ∀ b, a = .report b d → b = c) (base : SpeaksOver c d t) : SpeaksOver c d t' := by
  intro x member device
  rcases h.origin member with ⟨y, inOld, same, speaker, _⟩ | ⟨b, e, rfl, rfl, _⟩
  · rw [speaker]
    exact base y inOld (same ▸ device)
  · cases device
    rw [elsewhere b rfl]

/-- A device drops out of the table with the end of its connection or in a sweep only. -/
theorem Step.stays {t t' : Table δ β} {a : Act δ β} {c : β} {d : δ} (h : Step t a t') (awake : a ≠ .sweep)
    (lasts : a ≠ .ended c) (speaks : SpeaksOver c d t) (here : ∃ x ∈ t, x.device = d) :
    ∃ x ∈ t', x.device = d := by
  have edited (pre post : Table δ β) (y : Link δ β) (app : Option β)
      (here : ∃ x ∈ pre ++ y :: post, x.device = d) : ∃ x ∈ pre ++ { y with app } :: post, x.device = d := by
    simp only [List.mem_append, List.mem_cons, or_and_right, exists_or, exists_eq_left] at here ⊢
    exact here
  cases h with
  | report b e =>
      rcases report_cases b e t with ⟨-, same⟩ | ⟨-, grown⟩
      · rwa [same]
      · obtain ⟨x, member, device⟩ := here
        exact ⟨x, by rw [grown]; exact List.mem_append_left _ member, device⟩
  | pair b e =>
      rcases pair_cases b e t with ⟨pre, y, post, rfl, -, -, paired⟩ | ⟨-, same⟩
      · rw [paired]
        exact edited pre post y _ here
      · rwa [same]
  | leave b =>
      rcases leave_cases b t with ⟨pre, y, post, rfl, -, left_⟩ | same
      · rw [left_]
        exact edited pre post y _ here
      · rwa [same]
  | ended b =>
      rcases ended_cases b t with ⟨pre, y, post, rfl, -, ⟨-, left_⟩ | ⟨-, spoken, left_⟩⟩ | ⟨-, same⟩
      · rw [left_]
        exact edited pre post y _ here
      · -- the link that is dropped spoke over another connection
        obtain ⟨x, member, device⟩ := here
        have other : x ≠ y := by
          rintro rfl
          exact lasts (congrArg Act.ended (Option.some.inj (spoken.symm.trans (speaks x member device))))
        refine ⟨x, ?_, device⟩
        rw [left_]
        simp only [List.mem_append, List.mem_cons] at member ⊢
        tauto
      · rwa [same]
  | sweep => exact absurd rfl awake
  | quiet => exact here

/-! ## Apps that keep their device -/

/-- The device is in the table and `c` is its app and nobody else's. -/
def OnlyApp (c : β) (d : δ) (t : Table δ β) : Prop :=
  (∃ x ∈ t, x.device = d ∧ x.app = some c) ∧ ∀ x ∈ t, x.app = some c → x.device = d

/-- What ends a pairing of `c` with `d`, or starts a new one of either. -/
def Act.Unpairs (c : β) (d : δ) (t : Table δ β) : Act δ β → Prop
  | .pair b e => (b = c ∧ e ≠ d ∧ ∃ x ∈ t, x.device = e) ∨ (b ≠ c ∧ e = d)
  | .leave b => b = c
  | .ended b => b = c
  | _ => False

/-- A pairing survives every step that does not end it, unless the device drops
out of the table; a sweep is asked about separately. -/
theorem Step.onlyApp {t t' : Table δ β} {a : Act δ β} {c : β} {d : δ} (h : Step t a t')
    (kept : ¬ a.Unpairs c d t) (still : ∃ x ∈ t', x.device = d)
    (timely : a = .sweep → ∃ x ∈ t', x.device = d ∧ x.app = some c)
    (unique : WellFormed t) (base : OnlyApp c d t) : OnlyApp c d t' := by
  obtain ⟨⟨z, inTable, deviceZ, appZ⟩, only⟩ := base
  constructor
  · obtain ⟨x, member, device⟩ := still
    rcases h.origin member with ⟨y, inOld, same, _, app⟩ | ⟨b, e, _, rfl, absent⟩
    · have same_link : y = z := unique.unique inOld inTable (same.symm.trans (device.trans deviceZ.symm))
      subst same_link
      rcases app with keep | ⟨_, b, appB, left_⟩ | ⟨_, swept⟩ | ⟨b, act, now⟩
      · exact ⟨x, member, device, keep.trans appZ⟩
      · cases Option.some.inj (appB.symm.trans appZ)
        rcases left_ with rfl | rfl
        · exact absurd rfl kept
        · exact absurd rfl kept
      · exact timely swept
      · subst act
        by_cases own : b = c
        · subst own
          exact ⟨x, member, device, now⟩
        · exact absurd (.inr ⟨own, deviceZ⟩) kept
    · exact absurd (deviceZ.trans device.symm) (absent z inTable)
  · intro x member paired
    rcases h.origin member with ⟨y, inOld, same, _, app⟩ | ⟨b, e, _, rfl, _⟩
    · rw [same]
      rcases app with keep | ⟨none_, _⟩ | ⟨none_, _⟩ | ⟨b, act, now⟩
      · exact only y inOld (keep ▸ paired)
      · rw [none_] at paired
        cases paired
      · rw [none_] at paired
        cases paired
      · cases Option.some.inj (now.symm.trans paired)
        subst act
        by_contra other
        exact kept (.inl ⟨rfl, other, y, inOld, rfl⟩)
    · cases paired

theorem paired_pair {c : β} {d : δ} {t : Table δ β} (known : ∃ x ∈ t, x.device = d) :
    ∃ x ∈ pair c d t, x.device = d ∧ x.app = some c := by
  rcases pair_cases c d t with ⟨pre, y, post, _, device, _, paired⟩ | ⟨absent, _⟩
  · rw [paired]
    exact ⟨{ y with app := some c }, by simp, device, rfl⟩
  · obtain ⟨x, member, device⟩ := known
    exact absurd device (absent x member)

/-- Pairing a known device makes `c` its only app exactly when no other link had it. -/
theorem onlyApp_pair_iff {c : β} {d : δ} {t : Table δ β} (unique : WellFormed t)
    (known : ∃ x ∈ t, x.device = d) :
    OnlyApp c d (pair c d t) ↔ ∀ x ∈ t, x.app = some c → x.device = d := by
  rcases pair_cases c d t with ⟨pre, y, post, rfl, device, _, paired⟩ | ⟨absent, _⟩
  · rw [paired]
    constructor
    · rintro ⟨_, only⟩ x member app
      rcases mem_edited (z := y) (y := { y with app := some c }) member with other | rfl
      · exact only x other app
      · exact device
    · intro others
      refine ⟨⟨{ y with app := some c }, by simp, device, rfl⟩, fun x member app => ?_⟩
      rcases mem_edited (y := y) member with other | rfl
      · exact others x other app
      · exact device
  · obtain ⟨x, member, device⟩ := known
    exact absurd device (absent x member)

/-! ## Where a pairing comes from -/

/-- The last pairing of the device is with `c`. -/
def LastPaired (acts : List (Act δ β)) (c : β) (d : δ) : Prop :=
  ∃ before after, acts = before ++ .pair c d :: after ∧ ∀ b, .pair b d ∉ after

theorem LastPaired.append {acts : List (Act δ β)} {a : Act δ β} {c : β} {d : δ} (h : LastPaired acts c d)
    (other : ∀ b, a ≠ .pair b d) : LastPaired (acts ++ [a]) c d := by
  obtain ⟨before, after, rfl, none⟩ := h
  refine ⟨before, after ++ [a], by simp, fun b member => ?_⟩
  rcases List.mem_append.mp member with old | new
  · exact none b old
  · exact other b (List.mem_singleton.mp new).symm

/-- Every app in the table was the last to be paired with its device. -/
def Requested (acts : List (Act δ β)) (t : Table δ β) : Prop :=
  ∀ x ∈ t, ∀ c, x.app = some c → LastPaired acts c x.device

theorem Step.requested {t t' : Table δ β} {a : Act δ β} {acts : List (Act δ β)} (h : Step t a t')
    (unique : WellFormed t) (base : Requested acts t) : Requested (acts ++ [a]) t' := by
  intro x member c app
  by_cases again : ∃ b, a = .pair b x.device
  · obtain ⟨b, rfl⟩ := again
    have known : ∃ y ∈ t, y.device = x.device := by
      rcases h.origin member with ⟨y, inOld, device, -⟩ | ⟨_, _, act, -⟩
      · exact ⟨y, inOld, device.symm⟩
      · cases act
    obtain ⟨y, inNew, device, paired⟩ := paired_pair (c := b) known
    rw [← h.of_pair] at inNew
    have same : x = y := (h.wellFormed unique).unique member inNew device.symm
    rw [same, paired] at app
    cases app
    exact ⟨acts, [], rfl, fun b member => nomatch member⟩
  · rcases h.origin member with ⟨y, inOld, device, -, keep | ⟨none, -⟩ | ⟨none, -⟩ | ⟨b, act, -⟩⟩ |
        ⟨_, _, _, rfl, -⟩
    · rw [device]
      refine (base y inOld c (keep ▸ app)).append fun b act => again ⟨b, ?_⟩
      rw [act, device]
    · rw [none] at app
      cases app
    · rw [none] at app
      cases app
    · exact absurd ⟨b, by rw [act, device]⟩ again
    · cases app

end MusicPlayer.Pairing
