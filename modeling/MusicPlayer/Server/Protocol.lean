import MusicPlayer.Server.Dispatch

/-! The messages the programs mean to send the server, field by field. -/
namespace MusicPlayer.Server
open CBytes

inductive FieldType
  | text
  | number

def FieldType.Holds : FieldType → Json → Prop
  | .text, v => ∃ s, v = .string s
  | .number, v => ∃ n, v = .int n ∧ -2147483648 ≤ n ∧ n ≤ 2147483647

/-- Every command of `ReadCb` with the fields its handler reads. -/
def protocol : List (String × List (String × FieldType)) :=
  [("get_music_list", [("singer", .text)]),
    ("info", [("deviceid", .text), ("cur_music", .text), ("mode", .number), ("volume", .number)]),
    ("app_info", [("deviceid", .text), ("appid", .text)]), ("upload_music", []),
    ("app_register", [("appid", .text), ("password", .text)]),
    ("app_login", [("appid", .text), ("password", .text)]),
    ("app_bind", [("appid", .text), ("deviceid", .text)]), ("app_offline", []),
    ("app_capture_cur_musiclist", [])] ++
  (appCommands ++ devReplies).map fun name => (name, [])

/-- A command of the protocol with all its fields, each of its type. -/
def WellTyped (v : Json) : Prop :=
  ∃ name fields, (name, fields) ∈ protocol ∧ v.isCmd name = true ∧
    ∀ f ∈ fields, f.2.Holds (v.member (lit f.1))

theorem protocol_distinct : (protocol.map fun c => lit c.1).Nodup := by
  have names : (protocol.map fun c => lit c.1) =
      ["get_music_list", "info", "app_info", "upload_music", "app_register", "app_login", "app_bind",
        "app_offline", "app_capture_cur_musiclist", "app_start", "app_stop", "app_suspend",
        "app_continue", "app_prev", "app_next", "app_upvolume", "app_downvolume", "app_circle",
        "app_sequence", "app_start_reply", "app_stop_reply", "app_suspend_reply",
        "app_continue_reply", "app_prev_reply", "app_next_reply", "app_upvolume_reply",
        "app_downvolume_reply", "app_circle_reply", "app_sequence_reply"].map lit := rfl
  rw [names]
  decide +kernel

/-- Which fields are asked for goes by the command's name. -/
theorem wellTyped_iff {v : Json} {name : String} {fields : List (String × FieldType)}
    (known : (name, fields) ∈ protocol) (cmd : v.isCmd name = true) :
    WellTyped v ↔ ∀ f ∈ fields, f.2.Holds (v.member (lit f.1)) := by
  constructor
  · rintro ⟨name', fields', known', cmd', typed⟩
    have same : lit name = lit name' := by
      rw [Json.isCmd_unique cmd] at cmd'
      exact beq_iff_eq.mp cmd'
    have entry := List.inj_on_of_nodup_map protocol_distinct known known' same
    rw [(Prod.mk.inj entry).2]
    exact typed
  · exact fun typed => ⟨name, fields, known, cmd, typed⟩

end MusicPlayer.Server
