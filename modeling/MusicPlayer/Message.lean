import MusicPlayer.Lib.CBytes
import MusicPlayer.Lib.Outcome
import Mathlib.Data.Rat.Defs

/-! What goes over the wire: packets, the JSON values in them as jsoncpp and
json-c hand them to the program, and the ways the program can fail outside its
own error paths. -/
namespace MusicPlayer
open CBytes

/-- Behaviour the language leaves undefined, and exceptions nobody catches. -/
inductive Fault
  | outOfBounds
  | nullPointer
  | endIterator
  | erasedIterator
  | uninitialised
  | divideByZero
  | assertion
  | jsonException
  deriving DecidableEq, Repr

/-- The send buffer `char [1024]`, filled with the length and then the text, up
to the bytes that are sent. Both programs build their packets this way. -/
def packet (o : ByteOrder) (text : Bytes) : Except Fault Bytes :=
  if text.length + 4 ≤ 1024 then .ok (frame o text) else .error .outOfBounds

theorem packet_eq_ok {o : ByteOrder} {text sent : Bytes} :
    packet o text = .ok sent ↔ text.length ≤ 1020 ∧ sent = frame o text := by
  unfold packet
  split
  · simp only [Except.ok.injEq, eq_comm]
    exact ⟨fun same => ⟨by omega, same⟩, And.right⟩
  · simp only [reduceCtorEq, false_iff, not_and]
    omega

/-- One `readdir` entry: its name and whether it is a regular file. -/
structure Dirent where
  name : Bytes
  regular : Bool
  deriving DecidableEq

/-- A JSON value. A real carries the text the library prints for it; the
members of an object stand in the order the library keeps them, each key once. -/
inductive Json
  | null
  | bool (b : Bool)
  | int (n : Int)
  | real (value : Rat) (printed : Bytes)
  | string (s : Bytes)
  | array (elems : List Json)
  | object (members : List (Bytes × Json))

namespace Json

/-- Reading a member; a missing one reads as null. -/
def member (key : Bytes) : Json → Json
  | .object members => (members.lookup key).getD .null
  | _ => .null

/-- No member's name has a zero byte in it. -/
def PlainNames : Json → Prop
  | .object members => ∀ name ∈ members.map Prod.fst, 0 ∉ name
  | _ => True

/-- A new null member, in its place by key. -/
def insertNull (key : Bytes) : List (Bytes × Json) → List (Bytes × Json)
  | [] => [(key, .null)]
  | (k, v) :: rest =>
      if key < k then (key, .null) :: (k, v) :: rest else (k, v) :: insertNull key rest

/-- jsoncpp's `operator[]` on a value that is not const: a missing member is
created as null, and only null and objects have members. -/
def touch (key : Bytes) : Json → Except Fault Json
  | .null => .ok (.object [(key, .null)])
  | .object members =>
      .ok (.object (if (members.lookup key).isSome then members else insertNull key members))
  | _ => .error .jsonException

/-- `value == "..."`: no conversion is made. -/
def isString (v : Json) (s : Bytes) : Bool :=
  match v with
  | .string t => t == s
  | _ => false

/-- The test the dispatchers make on the `cmd` member. -/
def isCmd (v : Json) (name : String) : Bool := (v.member (lit "cmd")).isString (lit name)

def asString : Json → Except Fault Bytes
  | .null => .ok []
  | .bool b => .ok (lit (if b then "true" else "false"))
  | .int n => .ok (lit (toString n))
  | .real _ printed => .ok printed
  | .string s => .ok s
  | .array _ => .error .jsonException
  | .object _ => .error .jsonException

def intRange (n : Int) : Except Fault Int :=
  if -2147483648 ≤ n ∧ n ≤ 2147483647 then .ok n else .error .jsonException

def asInt : Json → Except Fault Int
  | .null => .ok 0
  | .bool b => .ok (if b then 1 else 0)
  | .int n => intRange n
  | .real value _ =>
      if -2147483648 ≤ value ∧ value ≤ 2147483647 then .ok (value.num.tdiv value.den)
      else .error .jsonException
  | .string _ => .error .jsonException
  | .array _ => .error .jsonException
  | .object _ => .error .jsonException

theorem lookup_insertNull {key : Bytes} {members : List (Bytes × Json)}
    (fresh : members.lookup key = none) (k : Bytes) :
    ((insertNull key members).lookup k).getD .null = (members.lookup k).getD .null := by
  induction members with
  | nil =>
      simp only [insertNull, List.lookup_cons, List.lookup_nil]
      split <;> rfl
  | cons first rest ih =>
      obtain ⟨name, v⟩ := first
      unfold insertNull
      split
      · rw [List.lookup_cons]
        split
        next same =>
          cases eq_of_beq same
          rw [fresh]
          rfl
        next => rfl
      · rw [List.lookup_cons] at fresh
        rw [List.lookup_cons, List.lookup_cons]
        split at fresh
        · cases fresh
        · split
          · rfl
          · exact ih fresh

/-- Reading a member through `operator[]` creates it at most, and changes no member's value. -/
theorem member_touch {key : Bytes} {v v' : Json} (h : v.touch key = .ok v') (k : Bytes) :
    v'.member k = v.member k := by
  cases v with
  | null =>
      cases h
      simp only [member, List.lookup_cons, List.lookup_nil]
      split <;> rfl
  | object members =>
      cases h
      simp only [member]
      cases known : members.lookup key with
      | none => simpa [known] using lookup_insertNull known k
      | some m => simp
  | bool b => cases h
  | int n => cases h
  | real value printed => cases h
  | string s => cases h
  | array elems => cases h

theorem lookup_insertNull_self {key : Bytes} {members : List (Bytes × Json)} :
    ((insertNull key members).lookup key).isSome = true := by
  induction members with
  | nil => simp [insertNull]
  | cons first rest ih =>
      obtain ⟨name, v⟩ := first
      unfold insertNull
      split
      · simp
      · rw [List.lookup_cons]
        split
        · rfl
        · exact ih

/-- What has been looked at is there. -/
theorem touch_touch {key : Bytes} {v v' : Json} (h : v.touch key = .ok v') : v'.touch key = .ok v' := by
  cases v with
  | null =>
      cases h
      simp [touch]
  | object members =>
      cases h
      cases known : (members.lookup key).isSome with
      | true => simp [touch, known]
      | false => simp [touch, lookup_insertNull_self]
  | bool b => cases h
  | int n => cases h
  | real value printed => cases h
  | string s => cases h
  | array elems => cases h

theorem isString_iff {v : Json} {s : Bytes} : v.isString s = true ↔ v = .string s := by
  cases v <;> simp [isString]

theorem isCmd_touch {key : Bytes} {v v' : Json} (h : v.touch key = .ok v') (name : String) :
    v'.isCmd name = v.isCmd name := by
  rw [isCmd, isCmd, member_touch h]

/-- Looking at a member that is there creates nothing. -/
theorem touch_of_isCmd {v : Json} {name : String} (h : v.isCmd name = true) :
    v.touch (lit "cmd") = .ok v := by
  have text := isString_iff.mp h
  cases v with
  | object members =>
      cases known : members.lookup (lit "cmd") with
      | none => simp [member, known] at text
      | some m => simp [touch, known]
  | null => simp [member] at text
  | bool b => simp [member] at text
  | int n => simp [member] at text
  | real value printed => simp [member] at text
  | string s => simp [member] at text
  | array elems => simp [member] at text

/-- A message has one command. -/
theorem isCmd_unique {v : Json} {name other : String} (h : v.isCmd name = true) :
    v.isCmd other = (lit name == lit other) := by
  rw [isCmd, isString_iff.mp h]
  rfl

theorem not_isCmd {v : Json} {name other : String} (h : v.isCmd name = true)
    (fresh : (lit name == lit other) = false) : ¬ v.isCmd other = true := by
  rw [isCmd_unique h, fresh]
  decide

@[simp] theorem isString_string (t s : Bytes) : (Json.string t).isString s = (t == s) := rfl

@[simp] theorem asString_string (s : Bytes) : (Json.string s).asString = .ok s := rfl

end Json
end MusicPlayer
