import MusicPlayer.App.Remote
import MusicPlayer.Server.Routing

/-! The list of songs in the player window, and the list the speaker plays. -/
namespace MusicPlayer.App
open CBytes Program Runs Speaker
open Server (Bev Codec PLayerInfo Registry)

/-- What `UploadMusic` sends. -/
def listing (names : List Bytes) : Json :=
  .object [(lit "cmd", .string (lit "upload_music")), (lit "music", .array (names.map .string))]

/-- The uploads among the calls. -/
def uploaded : Call → Option Json
  | .send obj => if command obj = lit "upload_music" then some obj else none
  | _ => none

/-! ## What a function does to the list -/

/-- Online, the program leaves the list as `names` or uploads the one it leaves. -/
def Keeps (names : List Bytes) (p : Code) : Prop :=
  ∀ ⦃out t⦄, Yields uploaded p out t →
    t.deviceMode = .online ∧ (out = [] ∧ t.musicHead = names ∨ out.getLast? = some (listing t.musicHead))

/-- It uploads the list it leaves. -/
def Renews (p : Code) : Prop :=
  ∀ ⦃out t⦄, Yields uploaded p out t → t.deviceMode = .online ∧ out.getLast? = some (listing t.musicHead)

section Rules
variable {names : List Bytes} {p : Code}

theorem Renews.keeps (h : Renews p) : Keeps names p :=
  fun _ _ run => ⟨(h run).1, .inr (h run).2⟩

theorem Keeps.andThen {f : Memory → Code} (first : Keeps names p)
    (second : ∀ m, m.deviceMode = .online → Keeps m.musicHead (f m)) : Keeps names (p.andThen f) := by
  intro out t run
  obtain ⟨before, after, m, rfl, one, two⟩ := yields_andThen run
  obtain ⟨online, left⟩ := first one
  obtain ⟨still, last⟩ := second m online two
  refine ⟨still, ?_⟩
  rcases last with ⟨rfl, same⟩ | last
  · rw [List.append_nil, same]
    exact left
  · exact .inr (by rw [List.getLast?_append, last, Option.some_or])

theorem Renews.andThen {f : Memory → Code} (first : Renews p)
    (second : ∀ m, m.deviceMode = .online → Keeps m.musicHead (f m)) : Renews (p.andThen f) := by
  intro out t run
  obtain ⟨before, after, m, rfl, one, two⟩ := yields_andThen run
  obtain ⟨online, left⟩ := first one
  obtain ⟨still, last⟩ := second m online two
  refine ⟨still, ?_⟩
  rcases last with ⟨rfl, same⟩ | last
  · rw [List.append_nil, same]
    exact left
  · rw [List.getLast?_append, last, Option.some_or]

end Rules

/-! ## Each function -/

variable (j : JsonC)

/-- The text of the list. -/
def shown (names : List Bytes) : Bytes := names.flatMap fun name => name ++ lit "\n"

/-- What is shown once all of this has arrived. -/
def arrived (coming : List Json) (w : Remote) : Remote := coming.foldl (fun w obj => reciveReply obj w) w

variable (k : Codec) (dev app : Bev)

/-- The speaker, the uploads on their way to the server, its registry, what is on its way
from there to the app, and the window. -/
structure View where
  speaker : Memory
  uploads : List Json
  registry : Registry
  coming : List Json
  window : Remote

inductive Glimpse
  | serve (uploads : List Json)
  | upload
  | registry
  | other
  | click (c : Click)
  | show_

/-- The node `UploadMusic` finds for `dev` names `app`. -/
def Paired (l : Registry) : Prop :=
  ∃ pre it post, l = pre ++ it :: post ∧ it.dBev = some dev ∧ it.aBev = some app ∧
    ∀ other ∈ pre, other.dBev ≠ some dev

/-- An upload that comes to the server finds the two paired. -/
def Forwards (v : View) (g : Glimpse) : Prop := g = .upload → Paired dev app v.registry

/-- The list the window comes to show is the speaker's. -/
def View.Agrees (v : View) : Prop :=
  (arrived (v.coming ++ v.uploads) v.window).musicList = shown v.speaker.musicHead

variable {j k dev app}

variable (j k dev app)

end MusicPlayer.App
