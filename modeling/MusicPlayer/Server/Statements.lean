import MusicPlayer.Server.Database
import MusicPlayer.Lib.Quoted

/-! The statements class `DataBase` builds, and the statements MySQL reads in
their texts. -/
namespace MusicPlayer.Server
open CBytes Quoted

/-- The columns the three selects ask for. -/
inductive Columns
  | all
  | password
  | deviceid
  deriving DecidableEq, Repr

/-- The five statements, without their fields. -/
inductive Kind
  | select (columns : Columns)
  | insert
  | update
  deriving DecidableEq, Repr

inductive Statement
  | select (columns : Columns) (appid : Bytes)
  | insert (appid password : Bytes)
  | update (deviceid appid : Bytes)
  deriving DecidableEq

def Statement.kind : Statement → Kind
  | .select columns _ => .select columns
  | .insert _ _ => .insert
  | .update _ _ => .update

/-- The fields in the order in which they stand in the text. -/
def Statement.fields : Statement → List Bytes
  | .select _ appid => [appid]
  | .insert appid password => [appid, password]
  | .update deviceid appid => [deviceid, appid]

def Kind.template : Kind → Template
  | .select .all => ⟨lit "select * from account where appid = '", [lit ";"]⟩
  | .select .password => ⟨lit "select password from account where appid = '", [lit ";"]⟩
  | .select .deviceid => ⟨lit "select deviceid from account where appid = '", [lit ";"]⟩
  | .insert => ⟨lit "insert into account (appid,password) values ('", [lit ",'", lit ");"]⟩
  | .update => ⟨lit "update account set deviceid = '", [lit " where appid = '", lit ";"]⟩

def Kind.statement : Kind → List Bytes → Option Statement
  | .select columns, [appid] => some (.select columns appid)
  | .insert, [appid, password] => some (.insert appid password)
  | .update, [deviceid, appid] => some (.update deviceid appid)
  | _, _ => none

def kinds : List Kind := [.select .all, .select .password, .select .deviceid, .insert, .update]

/-- The statement a text is, if it is one of the five. -/
def readStatement (text : Bytes) : Option Statement :=
  kinds.findSome? fun kind => (kind.template.read text).bind kind.statement

/-! ## The texts -/

/-- The text `DataBase` builds of a statement. -/
def Statement.text : Statement → Bytes
  | .select .all appid => selectUsr appid
  | .select .password appid => selectPassword appid
  | .select .deviceid appid => selectDeviceid appid
  | .insert appid password => insertUsr appid password
  | .update deviceid appid => updateUsr appid deviceid

/-- The statement as its text has it, each field up to its first zero byte. -/
def Statement.heard : Statement → Statement
  | .select columns appid => .select columns (cstr appid)
  | .insert appid password => .insert (cstr appid) (cstr password)
  | .update deviceid appid => .update (cstr deviceid) (cstr appid)

theorem text_heard (st : Statement) : st.heard.text = st.text := by
  rcases st with ⟨_ | _ | _, appid⟩ | ⟨appid, password⟩ | ⟨deviceid, appid⟩
  all_goals simp only [Statement.heard, Statement.text, selectUsr, selectPassword, selectDeviceid, insertUsr,
    updateUsr, cstr_cstr]

theorem length_fields (st : Statement) : st.fields.length = st.kind.template.tails.length := by
  rcases st with ⟨_ | _ | _, _⟩ | _ | _ <;> rfl

theorem text_eq_fill (st : Statement) : st.text = st.kind.template.fill (st.fields.map cstr) := by
  rcases st with ⟨_ | _ | _, appid⟩ | ⟨appid, password⟩ | ⟨deviceid, appid⟩
  all_goals
    simp only [Statement.text, selectUsr, selectPassword, selectDeviceid, insertUsr, updateUsr,
      Statement.kind, Kind.template, Statement.fields, Template.fill, fillTails, List.map_cons,
      List.map_nil, List.append_nil, List.append_assoc]
    rfl

/-! ## What is read in them -/

theorem statement_eq_some {kind : Kind} {values : List Bytes} {st : Statement} :
    kind.statement values = some st ↔ st.kind = kind ∧ st.fields = values := by
  constructor
  · intro h
    unfold Kind.statement at h
    split at h
    all_goals cases h
    all_goals exact ⟨rfl, rfl⟩
  · rintro ⟨rfl, rfl⟩
    cases st <;> rfl

theorem mem_kinds (kind : Kind) : kind ∈ kinds := by
  rcases kind with ⟨_ | _ | _⟩ | _ | _ <;> decide

/-- No text starts like two of the statements. -/
theorem heads_apart {kind other : Kind} (prefix_ : kind.template.head <+: other.template.head) :
    kind = other := by
  have apart : ∀ kind ∈ kinds, ∀ other ∈ kinds, kind.template.head <+: other.template.head →
      kind = other := by decide
  exact apart kind (mem_kinds kind) other (mem_kinds other) prefix_

theorem read_head {t : Template} {text : Bytes} {values : List Bytes} (h : t.read text = some values) :
    t.head <+: text := by
  obtain ⟨rest, found, -⟩ := Option.bind_eq_some_iff.mp h
  rw [stripPrefix_eq_some.mp found]
  exact List.prefix_append _ _

theorem readStatement_eq_some {text : Bytes} {st : Statement} :
    readStatement text = some st ↔ st.kind.template.read text = some st.fields := by
  constructor
  · intro h
    obtain ⟨kind, -, found⟩ := List.exists_of_findSome?_eq_some h
    obtain ⟨values, read, same⟩ := Option.bind_eq_some_iff.mp found
    obtain ⟨rfl, rfl⟩ := statement_eq_some.mp same
    exact read
  · intro read
    have only : ∀ kind : Kind, kind ≠ st.kind → (kind.template.read text).bind kind.statement = none := by
      intro kind other
      cases found : kind.template.read text with
      | none => rfl
      | some values =>
          rcases List.prefix_or_prefix_of_prefix (read_head found) (read_head read) with one | two
          · exact absurd (heads_apart one) other
          · exact absurd (heads_apart two).symm other
    obtain ⟨before, after, split, fresh⟩ := List.eq_append_cons_of_mem (mem_kinds st.kind)
    refine List.findSome?_eq_some_iff.mpr ⟨before, st.kind, after, split, ?_, ?_⟩
    · rw [read, Option.bind_some]
      exact statement_eq_some.mpr ⟨rfl, rfl⟩
    · intro kind member
      exact only kind (fun same => fresh (same ▸ member))

theorem total_cstr (values : List Bytes) :
    total (values.map cstr) ≤ total values ∧
      (total (values.map cstr) = total values → ∀ v ∈ values, 0 ∉ v) := by
  induction values with
  | nil => exact ⟨Nat.le_refl 0, fun _ v member => nomatch member⟩
  | cons value values ih =>
      obtain ⟨less, free⟩ := ih
      have short := length_cstr_le value
      simp only [total, List.map_cons, List.sum_cons] at less free ⊢
      refine ⟨by omega, fun same => ?_⟩
      intro v member
      rcases List.mem_cons.mp member with rfl | later
      · exact not_mem_of_length_cstr (by omega)
      · exact free (by omega) v later

theorem tails_end (kind : Kind) : ∀ tail ∈ kind.template.tails, tail ≠ [] ∧ tail.head? ≠ some quote := by
  rcases kind with ⟨_ | _ | _⟩ | _ | _ <;> decide

/-- A statement is read in its text exactly if every field is a C string that a
literal carries. -/
theorem readStatement_text_iff (st : Statement) :
    readStatement st.text = some st ↔ ∀ field ∈ st.fields, 0 ∉ field ∧ Carried field := by
  have arity : (st.fields.map cstr).length = st.kind.template.tails.length := by
    rw [List.length_map, length_fields]
  rw [readStatement_eq_some, text_eq_fill]
  constructor
  · intro read
    obtain ⟨less, carried⟩ := Template.read_total _ arity read
    obtain ⟨more, free⟩ := total_cstr st.fields
    exact fun field member => ⟨free (by omega) field member, carried (by omega) field member⟩
  · intro plain
    rw [map_cstr_eq_self fun field member => (plain field member).1]
    exact Template.read_fill _ (length_fields st) (tails_end _) fun field member => (plain field member).2

/-- The text around the fields. -/
def Kind.around (kind : Kind) : Nat :=
  kind.template.head.length + kind.template.tails.length + total kind.template.tails

theorem length_text {st : Statement} (plain : ∀ field ∈ st.fields, 0 ∉ field) :
    st.text.length = st.kind.around + total st.fields := by
  rw [text_eq_fill, map_cstr_eq_self plain, Template.length_fill _ (length_fields st), Kind.around]
  omega

/-- The text fits its buffer and is read as the statement it was built from. -/
def Faithful (st : Statement) : Prop := st.text.length < 256 ∧ readStatement st.text = some st

theorem faithful_iff (st : Statement) : Faithful st ↔
    (∀ field ∈ st.fields, 0 ∉ field ∧ Carried field) ∧ st.kind.around + total st.fields < 256 := by
  rw [Faithful, readStatement_text_iff]
  constructor
  · rintro ⟨short, plain⟩
    rw [length_text fun field member => (plain field member).1] at short
    exact ⟨plain, short⟩
  · rintro ⟨plain, short⟩
    rw [← length_text fun field member => (plain field member).1] at short
    exact ⟨short, plain⟩

end MusicPlayer.Server
