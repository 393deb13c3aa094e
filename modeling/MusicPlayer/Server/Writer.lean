import MusicPlayer.Server.Isolation

/-! The text jsoncpp's `FastWriter` makes of a value, and whether what the
server lists and forwards fits into its send buffer. -/
namespace MusicPlayer.Server
open CBytes FirstMatch

/-! ## `FastWriter`

As in jsoncpp 1.7.4, the library the server's build directory links. -/

def hexDigit (n : Nat) : UInt8 := UInt8.ofNat (if n < 10 then 48 + n else 55 + n)

/-- One character inside quotes: the two-character escapes, `\u00XX` for the
other control characters, and every other byte as it is. -/
def quoteChar (b : UInt8) : Bytes :=
  if b = 34 then lit "\\\""
  else if b = 92 then lit "\\\\"
  else if b = 8 then lit "\\b"
  else if b = 12 then lit "\\f"
  else if b = 10 then lit "\\n"
  else if b = 13 then lit "\\r"
  else if b = 9 then lit "\\t"
  else if b < 32 then lit "\\u00" ++ [hexDigit (b.toNat / 16), hexDigit (b.toNat % 16)]
  else [b]

def valueToQuotedString (s : Bytes) : Bytes := lit "\"" ++ s.flatMap quoteChar ++ lit "\""

mutual

def writeValue : Json → Bytes
  | .null => lit "null"
  | .bool b => lit (if b then "true" else "false")
  | .int n => lit (toString n)
  | .real _ printed => printed
  | .string s => valueToQuotedString s
  | .array elems => lit "[" ++ writeElems elems ++ lit "]"
  | .object members => lit "\x7b" ++ writeMembers members ++ lit "\x7d"

def writeElems : List Json → Bytes
  | [] => []
  | [v] => writeValue v
  | v :: w :: rest => writeValue v ++ lit "," ++ writeElems (w :: rest)

def writeMembers : List (Bytes × Json) → Bytes
  | [] => []
  | [(name, v)] => valueToQuotedString name ++ lit ":" ++ writeValue v
  | (name, v) :: w :: rest =>
      valueToQuotedString name ++ lit ":" ++ writeValue v ++ lit "," ++ writeMembers (w :: rest)

end

/-- `FastWriter().write(val)`. -/
def fastWrite (val : Json) : Bytes := writeValue val ++ lit "\n"

/-- The library with its own writer; what the reader makes of a text is a parameter. -/
def jsoncpp (order : ByteOrder) (parse : Bytes → Bool × Json) : Codec where
  order
  parse
  write := fastWrite

/-! ## How long the text is -/

def escaped (s : Bytes) : Nat :=
  (s.map fun b =>
    if b = 34 ∨ b = 92 ∨ b = 8 ∨ b = 12 ∨ b = 10 ∨ b = 13 ∨ b = 9 then 2
    else if b < 32 then 6 else 1).sum

mutual

def textLength : Json → Nat
  | .null => 4
  | .bool b => if b then 4 else 5
  | .int n => (lit (toString n)).length
  | .real _ printed => printed.length
  | .string s => escaped s + 2
  | .array [] => 2
  | .array (v :: rest) => 1 + elemsLength (v :: rest)
  | .object [] => 2
  | .object (m :: rest) => 1 + membersLength (m :: rest)

/-- Each element with the comma or bracket behind it. -/
def elemsLength : List Json → Nat
  | [] => 0
  | v :: rest => textLength v + 1 + elemsLength rest

def membersLength : List (Bytes × Json) → Nat
  | [] => 0
  | (name, v) :: rest => escaped name + 3 + textLength v + 1 + membersLength rest

end

theorem length_quoteChar (b : UInt8) :
    (quoteChar b).length =
      if b = 34 ∨ b = 92 ∨ b = 8 ∨ b = 12 ∨ b = 10 ∨ b = 13 ∨ b = 9 then 2
      else if b < 32 then 6 else 1 := by
  unfold quoteChar
  by_cases pair : b = 34 ∨ b = 92 ∨ b = 8 ∨ b = 12 ∨ b = 10 ∨ b = 13 ∨ b = 9
  · rw [if_pos pair]
    rcases pair with rfl | rfl | rfl | rfl | rfl | rfl | rfl <;> rfl
  · rw [if_neg pair]
    simp only [not_or] at pair
    obtain ⟨quote, slash, back, feed, line, carriage, tab⟩ := pair
    rw [if_neg quote, if_neg slash, if_neg back, if_neg feed, if_neg line, if_neg carriage, if_neg tab]
    split <;> rfl

theorem length_valueToQuotedString (s : Bytes) : (valueToQuotedString s).length = escaped s + 2 := by
  have one : (lit "\"").length = 1 := rfl
  have chars : (s.flatMap quoteChar).length = escaped s := by
    rw [List.length_flatMap, escaped]
    simp only [length_quoteChar]
  rw [valueToQuotedString, List.length_append, List.length_append, one, chars]
  omega

mutual

theorem length_writeValue : ∀ v : Json, (writeValue v).length = textLength v
  | .null => rfl
  | .bool true => rfl
  | .bool false => rfl
  | .int _ => by rw [writeValue, textLength]
  | .real _ _ => by rw [writeValue, textLength]
  | .string s => by rw [writeValue, textLength, length_valueToQuotedString]
  | .array [] => by
      rw [writeValue, writeElems, textLength]
      rfl
  | .array (v :: rest) => by
      have inner := length_writeElems (v :: rest) (List.cons_ne_nil v rest)
      have left_ : (lit "[").length = 1 := rfl
      have right_ : (lit "]").length = 1 := rfl
      rw [writeValue, textLength, List.length_append, List.length_append, left_, right_]
      omega
  | .object [] => by
      rw [writeValue, writeMembers, textLength]
      rfl
  | .object (m :: rest) => by
      have inner := length_writeMembers (m :: rest) (List.cons_ne_nil m rest)
      have left_ : (lit "\x7b").length = 1 := rfl
      have right_ : (lit "\x7d").length = 1 := rfl
      rw [writeValue, textLength, List.length_append, List.length_append, left_, right_]
      omega

theorem length_writeElems : ∀ elems : List Json, elems ≠ [] →
    (writeElems elems).length + 1 = elemsLength elems
  | [], some_ => absurd rfl some_
  | [v], _ => by
      rw [writeElems, elemsLength, elemsLength, length_writeValue v]
  | v :: w :: rest, _ => by
      have later := length_writeElems (w :: rest) (List.cons_ne_nil w rest)
      have comma : (lit ",").length = 1 := rfl
      rw [writeElems, elemsLength, List.length_append, List.length_append, comma, length_writeValue v]
      omega

theorem length_writeMembers : ∀ members : List (Bytes × Json), members ≠ [] →
    (writeMembers members).length + 1 = membersLength members
  | [], some_ => absurd rfl some_
  | [(name, v)], _ => by
      have colon : (lit ":").length = 1 := rfl
      rw [writeMembers, membersLength, membersLength, List.length_append, List.length_append, colon,
        length_valueToQuotedString, length_writeValue v]
  | (name, v) :: w :: rest, _ => by
      have later := length_writeMembers (w :: rest) (List.cons_ne_nil w rest)
      have colon : (lit ":").length = 1 := rfl
      have comma : (lit ",").length = 1 := rfl
      rw [writeMembers, membersLength, List.length_append, List.length_append, List.length_append,
        List.length_append, colon, comma, length_valueToQuotedString, length_writeValue v]
      omega

end

example : fastWrite (.object [(lit "cmd", .string (lit "a\nb")), (lit "n", .array [.int (-3), .null])]) =
    lit "\x7b\"cmd\":\"a\\nb\",\"n\":[-3,null]\x7d\n" := by decide

theorem escaped_append (s t : Bytes) : escaped (s ++ t) = escaped s + escaped t := by
  simp only [escaped, List.map_append, List.sum_append]

theorem escaped_replicate (n : Nat) (b : UInt8) : escaped (List.replicate n b) = n * escaped [b] := by
  simp only [escaped, List.map_replicate, List.sum_replicate_nat, List.map_cons, List.map_nil,
    List.sum_cons, List.sum_nil, Nat.add_zero]

/-! ## What a report gains on the way

`DevUpdateList` reads four members, and each one that is missing is created. -/

def has (key : Bytes) : Json → Bool
  | .object members => (members.lookup key).isSome
  | _ => false

/-- The bytes of `"key":null` and a comma, where the member is missing. -/
def gained (v : Json) (key : Bytes) : Nat := if has key v then 0 else escaped key + 8

def reportKeys : List Bytes := [lit "deviceid", lit "cur_music", lit "mode", lit "volume"]

def reportLength (v : Json) : Nat := textLength v + (reportKeys.map (gained v)).sum

theorem lookup_insertNull_ne {key k : Bytes} (other : k ≠ key) (members : List (Bytes × Json)) :
    (Json.insertNull key members).lookup k = members.lookup k := by
  have apart : (k == key) = false := by simpa using other
  induction members with
  | nil => simp [Json.insertNull, List.lookup_cons, apart]
  | cons first rest ih =>
      obtain ⟨name, v⟩ := first
      unfold Json.insertNull
      split
      · rw [List.lookup_cons, apart]
      · rw [List.lookup_cons, List.lookup_cons, ih]

theorem membersLength_insertNull (key : Bytes) (members : List (Bytes × Json)) :
    membersLength (Json.insertNull key members) = membersLength members + (escaped key + 8) := by
  induction members with
  | nil =>
      simp only [Json.insertNull, membersLength, textLength]
      omega
  | cons first rest ih =>
      obtain ⟨name, v⟩ := first
      unfold Json.insertNull
      split
      · simp only [membersLength, textLength]
        omega
      · simp only [membersLength, ih]
        omega

/-- An object with members, as every message with a command is. -/
def HasMembers (v : Json) : Prop := ∃ m rest, v = .object (m :: rest)

theorem hasMembers_of_isCmd {v : Json} {name : String} (h : v.isCmd name = true) : HasMembers v := by
  have text := Json.isString_iff.mp h
  cases v with
  | object members =>
      cases members with
      | nil => cases text
      | cons m rest => exact ⟨m, rest, rfl⟩
  | null => cases text
  | bool b => cases text
  | int n => cases text
  | real value printed => cases text
  | string s => cases text
  | array elems => cases text

theorem touch_gains {v : Json} (object : HasMembers v) (key : Bytes) :
    ∃ v', v.touch key = .ok v' ∧ HasMembers v' ∧ textLength v' = textLength v + gained v key ∧
      ∀ k, k ≠ key → has k v' = has k v := by
  obtain ⟨m, rest, rfl⟩ := object
  cases known : ((m :: rest).lookup key).isSome with
  | true =>
      refine ⟨.object (m :: rest), by rw [Json.touch, if_pos known], ⟨m, rest, rfl⟩, ?_, fun _ _ => rfl⟩
      rw [gained, has, if_pos known, Nat.add_zero]
  | false =>
      have length := membersLength_insertNull key (m :: rest)
      have other : ∀ k, k ≠ key →
          has k (.object (Json.insertNull key (m :: rest))) = has k (.object (m :: rest)) := by
        intro k apart
        rw [has, lookup_insertNull_ne apart, has]
      have touched : (Json.object (m :: rest)).touch key =
          .ok (.object (Json.insertNull key (m :: rest))) := by
        rw [Json.touch, known]
        rfl
      have gains : gained (.object (m :: rest)) key = escaped key + 8 := by
        rw [gained, has, known]
        rfl
      cases inserted : Json.insertNull key (m :: rest) with
      | nil =>
          rw [inserted, membersLength] at length
          omega
      | cons m' rest' =>
          rw [inserted] at length other touched
          refine ⟨_, touched, ⟨m', rest', rfl⟩, ?_, other⟩
          rw [textLength, textLength, gains, length]
          omega

/-- The value `DevUpdateList` forwards. -/
theorem touch_report {v : Json} (object : HasMembers v) :
    ∃ v₁ v₂ v₃ v₄, v.touch (lit "deviceid") = .ok v₁ ∧ v₁.touch (lit "cur_music") = .ok v₂ ∧
      v₂.touch (lit "mode") = .ok v₃ ∧ v₃.touch (lit "volume") = .ok v₄ ∧
        textLength v₄ = reportLength v := by
  obtain ⟨v₁, t₁, object₁, length₁, same₁⟩ := touch_gains object (lit "deviceid")
  obtain ⟨v₂, t₂, object₂, length₂, same₂⟩ := touch_gains object₁ (lit "cur_music")
  obtain ⟨v₃, t₃, object₃, length₃, same₃⟩ := touch_gains object₂ (lit "mode")
  obtain ⟨v₄, t₄, _, length₄, _⟩ := touch_gains object₃ (lit "volume")
  refine ⟨v₁, v₂, v₃, v₄, t₁, t₂, t₃, t₄, ?_⟩
  have music : gained v₁ (lit "cur_music") = gained v (lit "cur_music") := by
    rw [gained, same₁ _ (by decide), gained]
  have mode : gained v₂ (lit "mode") = gained v (lit "mode") := by
    rw [gained, same₂ _ (by decide), same₁ _ (by decide), gained]
  have volume : gained v₃ (lit "volume") = gained v (lit "volume") := by
    rw [gained, same₃ _ (by decide), same₂ _ (by decide), same₁ _ (by decide), gained]
  simp only [reportLength, reportKeys, List.map_cons, List.map_nil, List.sum_cons, List.sum_nil]
  omega

/-! ## Where the buffer is left -/

theorem asString_inside (v : Json) : v.asString ≠ .error .outOfBounds := by
  cases v <;> simp [Json.asString]

theorem asInt_inside (v : Json) : v.asInt ≠ .error .outOfBounds := by
  cases v with
  | int n =>
      rw [Json.asInt, Json.intRange]
      split <;> simp
  | real value printed =>
      rw [Json.asInt]
      split <;> simp
  | null => simp [Json.asInt]
  | bool b => simp [Json.asInt]
  | string s => simp [Json.asInt]
  | array elems => simp [Json.asInt]
  | object members => simp [Json.asInt]

section Sending
variable (order : ByteOrder) (parse : Bytes → Bool × Json) {bev : Bev} {v : Json}

/-- `SendData` leaves its buffer exactly when the text, its newline and the
header make more than 1024 bytes. -/
theorem sendData_overruns :
    sendData (jsoncpp order parse) bev v = .error .outOfBounds ↔ 1019 < textLength v := by
  have size : ((jsoncpp order parse).write v).length = textLength v + 1 := by
    change (fastWrite v).length = _
    rw [fastWrite, List.length_append, length_writeValue]
    rfl
  unfold sendData packet
  rw [size]
  split
  · refine iff_of_false ?_ (by omega)
    intro h
    cases h
  · exact iff_of_true rfl (by omega)

theorem send_overruns {α : Type} (g : Send → α) :
    (sendData (jsoncpp order parse) bev v >>= fun sent => .ok (g sent)) = .error .outOfBounds ↔
      1019 < textLength v := by
  rw [Except.bind_eq_error, sendData_overruns]
  simp

variable {opendir : Bytes → Option (List Dirent)} {l : Registry}

omit order parse in
/-- The names of which a reply is made: the first five. -/
def listed (files : List Dirent) : List Bytes :=
  ((files.filter fun f => f.regular && strstr f.name (lit ".mp3")).take 5).map Dirent.name

/-- Around the names the reply has 36 characters, and four around each of them. -/
def ListingFits (opendir : Bytes → Option (List Dirent)) (singer : Bytes) : Prop :=
  ∀ files, opendir (cstr (musicPath ++ singer)) = some files →
    36 + ((listed files).map fun name => escaped singer + escaped name + 4).sum ≤ 1019

theorem elemsLength_strings (texts : List Bytes) :
    elemsLength (texts.map .string) = (texts.map fun text => escaped text + 3).sum := by
  induction texts with
  | nil => rfl
  | cons text texts ih =>
      rw [List.map_cons, elemsLength, ih, List.map_cons, List.sum_cons, textLength]

theorem getMusicName_fits (singer : Bytes) :
    textLength (getMusicName opendir singer) ≤ 1019 ↔ ListingFits opendir singer := by
  have slash : escaped (lit "/") = 1 := rfl
  have cmd : escaped (lit "cmd") = 3 := rfl
  have reply : escaped (lit "reply_music_list") = 16 := rfl
  have music : escaped (lit "music") = 5 := rfl
  unfold getMusicName ListingFits
  cases opendir (cstr (musicPath ++ singer)) with
  | none =>
      refine iff_of_true ?_ (by simp)
      rw [textLength]
      omega
  | some files =>
      simp only [Option.some.injEq, forall_eq']
      have names : ((listed files).map fun name => escaped singer + escaped name + 4) =
          ((((files.filter fun f => f.regular && strstr f.name (lit ".mp3")).map
            fun f => singer ++ lit "/" ++ f.name).take 5).map fun text => escaped text + 3) := by
        rw [listed, ← List.map_take, List.map_map, List.map_map]
        apply List.map_congr_left
        intro f _
        simp only [Function.comp_apply, escaped_append, slash]
        omega
      rw [names]
      generalize (files.filter fun f => f.regular && strstr f.name (lit ".mp3")).map
        (fun f => singer ++ lit "/" ++ f.name) = musicList
      simp only [textLength, membersLength, cmd, reply, music]
      cases musicList with
      | nil =>
          simp only [if_true, textLength, List.take_nil, List.map_nil, List.sum_nil]
          omega
      | cons first more =>
          have array : textLength (.array (((first :: more).take 5).map .string)) =
              1 + elemsLength (((first :: more).take 5).map .string) := by
            rw [List.take_succ_cons, List.map_cons, textLength]
          rw [if_neg (List.cons_ne_nil first more), array, elemsLength_strings]
          omega

/-- A report that goes on to an app. -/
def Reports (v : Json) (l : Registry) : Prop :=
  ∃ d, (v.member (lit "deviceid")).asString = .ok d ∧
    (∃ curMusic, (v.member (lit "cur_music")).asString = .ok curMusic) ∧
    (∃ mode, (v.member (lit "mode")).asInt = .ok mode) ∧
    (∃ volume, (v.member (lit "volume")).asInt = .ok volume) ∧
    ∃ pre it post app, firstMatch (fun it => it.deviceid == d) l = some (pre, it, post) ∧
      it.aBev = some app

theorem devUpdateList_overruns {now : Int} (object : HasMembers v) :
    devUpdateList (jsoncpp order parse) now bev v l = .error .outOfBounds ↔
      Reports v l ∧ 1019 < reportLength v := by
  obtain ⟨v₁, v₂, v₃, v₄, t₁, t₂, t₃, t₄, length⟩ := touch_report object
  unfold devUpdateList Reports
  simp only [t₁, t₂, t₃, t₄, Except.ok_bind, Json.member_touch t₁, Json.member_touch t₂,
    Json.member_touch t₃, Except.bind_eq_error, asString_inside, asInt_inside, false_or]
  rw [← length]
  constructor
  · rintro ⟨d, device, curMusic, music, mode, way, volume, loud, h⟩
    cases found : firstMatch (fun it => it.deviceid == d) l with
    | none =>
        rw [found] at h
        cases h
    | some parts =>
        obtain ⟨pre, it, post⟩ := parts
        rw [found] at h
        dsimp only at h
        rcases Option.eq_none_or_eq_some it.aBev with paired | ⟨app, paired⟩
        · rw [paired] at h
          cases h
        · rw [paired] at h
          have exceeds := (send_overruns order parse _).mp h
          exact ⟨⟨d, device, ⟨curMusic, music⟩, ⟨mode, way⟩, ⟨volume, loud⟩,
            pre, it, post, app, found, paired⟩, exceeds⟩
  · rintro ⟨⟨d, device, ⟨curMusic, music⟩, ⟨mode, way⟩, ⟨volume, loud⟩,
      pre, it, post, app, found, paired⟩, exceeds⟩
    refine ⟨d, device, curMusic, music, mode, way, volume, loud, ?_⟩
    rw [found]
    dsimp only
    rw [paired]
    exact (send_overruns order parse _).mpr exceeds

/-- The far end of the first node that passes the test. -/
def firstLink (p : PLayerInfo → Bool) (far : PLayerInfo → Option Bev) (l : Registry) : Option Bev :=
  (firstMatch p l).bind fun found => far found.2.1

theorem uploadMusic_overruns :
    uploadMusic (jsoncpp order parse) bev v l = .error .outOfBounds ↔
      (firstLink (fun it => it.dBev == some bev) PLayerInfo.aBev l).isSome ∧ 1019 < textLength v := by
  unfold uploadMusic firstLink
  cases firstMatch (fun it => it.dBev == some bev) l with
  | none => exact iff_of_false (by intro h; cases h) (by simp)
  | some parts =>
      obtain ⟨pre, it, post⟩ := parts
      rw [Option.bind_some]
      dsimp only
      cases it.aBev with
      | none => exact iff_of_false (by intro h; cases h) (by simp)
      | some app =>
          rw [Option.isSome_some, eq_self, true_and]
          exact send_overruns order parse _

/-- The server's own answer is short. -/
theorem offlineReply_fits : textLength offlineReply ≤ 1019 := by decide

/-- The node that is searched for is the first on which both ends are there. -/
theorem some_link (p : PLayerInfo → Bool) (far : PLayerInfo → Option Bev) (l : Registry) :
    (firstLink (fun it => p it && (far it).isSome) far l).isSome ↔
      ∃ it ∈ l, p it = true ∧ (far it).isSome := by
  unfold firstLink
  cases found : firstMatch (fun it => p it && (far it).isSome) l with
  | none =>
      refine iff_of_false (by simp) ?_
      rintro ⟨it, member, hit, there⟩
      have miss := firstMatch_eq_none.mp found it member
      rw [hit, there] at miss
      cases miss
  | some parts =>
      obtain ⟨pre, it, post⟩ := parts
      obtain ⟨rfl, hit, _⟩ := firstMatch_eq_some.mp found
      rw [Bool.and_eq_true] at hit
      exact iff_of_true hit.2 ⟨it, by simp, hit⟩

theorem transAppCmd_overruns :
    transAppCmd (jsoncpp order parse) bev v l = .error .outOfBounds ↔
      (∃ it ∈ l, it.aBev = some bev ∧ it.dBev.isSome) ∧ 1019 < textLength v := by
  have short := offlineReply_fits
  have linked := some_link (fun it => it.aBev == some bev) PLayerInfo.dBev l
  simp only [beq_iff_eq] at linked
  rw [← linked]
  unfold transAppCmd firstLink
  cases (firstMatch (fun it => it.aBev == some bev && it.dBev.isSome) l).bind (·.2.1.dBev) with
  | none =>
      refine iff_of_false ?_ (by simp)
      intro h
      have exceeds := (send_overruns order parse _).mp h
      omega
  | some dev =>
      rw [Option.isSome_some, eq_self, true_and]
      exact send_overruns order parse _

theorem transDevReply_overruns :
    transDevReply (jsoncpp order parse) bev v l = .error .outOfBounds ↔
      (∃ it ∈ l, it.dBev = some bev ∧ it.aBev.isSome) ∧ 1019 < textLength v := by
  have short := offlineReply_fits
  have linked := some_link (fun it => it.dBev == some bev) PLayerInfo.aBev l
  simp only [beq_iff_eq] at linked
  rw [← linked]
  unfold transDevReply firstLink
  cases (firstMatch (fun it => it.dBev == some bev && it.aBev.isSome) l).bind (·.2.1.aBev) with
  | none =>
      refine iff_of_false ?_ (by simp)
      intro h
      have exceeds := (send_overruns order parse _).mp h
      omega
  | some app =>
      rw [Option.isSome_some, eq_self, true_and]
      exact send_overruns order parse _

/-- The request goes to the speaker of every node of the app, so the first decides. -/
theorem captureCurMusicList_overruns :
    captureCurMusicList (jsoncpp order parse) bev v l = .error .outOfBounds ↔
      (firstLink (fun it => it.aBev == some bev) PLayerInfo.dBev l).isSome ∧ 1019 < textLength v := by
  induction l with
  | nil => simp [captureCurMusicList, firstLink, firstMatch]
  | cons it rest ih =>
      rw [captureCurMusicList]
      by_cases own : it.aBev = some bev
      · have found : firstLink (fun it => it.aBev == some bev) PLayerInfo.dBev (it :: rest) = it.dBev := by
          rw [firstLink, firstMatch, if_pos (by simpa using own), Option.bind_some]
        rw [if_pos own, found]
        cases it.dBev with
        | none => exact iff_of_false (by intro h; cases h) (by simp)
        | some dev =>
            rw [Option.isSome_some, eq_self, true_and]
            constructor
            · intro h
              rcases Except.bind_eq_error.mp h with failed | ⟨sent, _, more⟩
              · exact (sendData_overruns order parse).mp failed
              · rcases Except.bind_eq_error.mp more with later | ⟨rest', _, done_⟩
                · exact (ih.mp later).2
                · cases done_
            · intro exceeds
              exact Except.bind_eq_error.mpr (.inl ((sendData_overruns order parse).mpr exceeds))
      · have found : firstLink (fun it => it.aBev == some bev) PLayerInfo.dBev (it :: rest) =
            firstLink (fun it => it.aBev == some bev) PLayerInfo.dBev rest := by
          rw [firstLink, firstMatch, if_neg (by simpa using own), firstLink, Option.bind_map]
          rfl
        rw [if_neg own, ih, found]

/-! ## Every message that is listed or forwarded -/

/-- The commands whose handlers send a value of any size. -/
def Relays (v : Json) : Prop :=
  v.isCmd "get_music_list" = true ∨ v.isCmd "info" = true ∨ v.isCmd "upload_music" = true ∨
    appCommands.any v.isCmd = true ∨ devReplies.any v.isCmd = true ∨
      v.isCmd "app_capture_cur_musiclist" = true

/-- The reply's names are short enough, and so is a message that is forwarded. -/
structure Sendable (opendir : Bytes → Option (List Dirent)) (bev : Bev) (v : Json) (l : Registry) : Prop where
  list : v.isCmd "get_music_list" = true →
    ∀ singer, (v.member (lit "singer")).asString = .ok singer → ListingFits opendir singer
  info : v.isCmd "info" = true → Reports v l → reportLength v ≤ 1019
  upload : v.isCmd "upload_music" = true →
    (firstLink (fun it => it.dBev == some bev) PLayerInfo.aBev l).isSome → textLength v ≤ 1019
  command : appCommands.any v.isCmd = true →
    (∃ it ∈ l, it.aBev = some bev ∧ it.dBev.isSome) → textLength v ≤ 1019
  answer : devReplies.any v.isCmd = true →
    (∃ it ∈ l, it.dBev = some bev ∧ it.aBev.isSome) → textLength v ≤ 1019
  capture : v.isCmd "app_capture_cur_musiclist" = true →
    (firstLink (fun it => it.aBev == some bev) PLayerInfo.dBev l).isSome → textLength v ≤ 1019

end Sending

section Commands
variable {v : Json} {opendir : Bytes → Option (List Dirent)} {bev : Bev} {l : Registry}

/-- A message of one command fits when that command's condition holds. -/
theorem sendable_list (cmd : v.isCmd "get_music_list" = true) :
    Sendable opendir bev v l ↔
      ∀ singer, (v.member (lit "singer")).asString = .ok singer → ListingFits opendir singer := by
  refine ⟨fun h => h.list cmd, fun holds => ⟨fun _ => holds, ?_, ?_, ?_, ?_, ?_⟩⟩ <;> intro c
  · exact absurd c (Json.not_isCmd cmd (by decide))
  · exact absurd c (Json.not_isCmd cmd (by decide))
  · exact absurd c (not_any cmd (by decide))
  · exact absurd c (not_any cmd (by decide))
  · exact absurd c (Json.not_isCmd cmd (by decide))

theorem sendable_info (cmd : v.isCmd "info" = true) :
    Sendable opendir bev v l ↔ (Reports v l → reportLength v ≤ 1019) := by
  refine ⟨fun h => h.info cmd, fun holds => ⟨?_, fun _ => holds, ?_, ?_, ?_, ?_⟩⟩ <;> intro c
  · exact absurd c (Json.not_isCmd cmd (by decide))
  · exact absurd c (Json.not_isCmd cmd (by decide))
  · exact absurd c (not_any cmd (by decide))
  · exact absurd c (not_any cmd (by decide))
  · exact absurd c (Json.not_isCmd cmd (by decide))

theorem sendable_upload (cmd : v.isCmd "upload_music" = true) :
    Sendable opendir bev v l ↔
      ((firstLink (fun it => it.dBev == some bev) PLayerInfo.aBev l).isSome → textLength v ≤ 1019) := by
  refine ⟨fun h => h.upload cmd, fun holds => ⟨?_, ?_, fun _ => holds, ?_, ?_, ?_⟩⟩ <;> intro c
  · exact absurd c (Json.not_isCmd cmd (by decide))
  · exact absurd c (Json.not_isCmd cmd (by decide))
  · exact absurd c (not_any cmd (by decide))
  · exact absurd c (not_any cmd (by decide))
  · exact absurd c (Json.not_isCmd cmd (by decide))

theorem sendable_command (cmd : appCommands.any v.isCmd = true) :
    Sendable opendir bev v l ↔
      ((∃ it ∈ l, it.aBev = some bev ∧ it.dBev.isSome) → textLength v ≤ 1019) := by
  refine ⟨fun h => h.command cmd, fun holds => ⟨?_, ?_, ?_, fun _ => holds, ?_, ?_⟩⟩ <;> intro c
  · exact absurd c (not_single cmd (by decide))
  · exact absurd c (not_single cmd (by decide))
  · exact absurd c (not_single cmd (by decide))
  · exact absurd c (command_no_answer cmd)
  · exact absurd c (not_single cmd (by decide))

theorem sendable_answer (cmd : devReplies.any v.isCmd = true) :
    Sendable opendir bev v l ↔
      ((∃ it ∈ l, it.dBev = some bev ∧ it.aBev.isSome) → textLength v ≤ 1019) := by
  refine ⟨fun h => h.answer cmd, fun holds => ⟨?_, ?_, ?_, ?_, fun _ => holds, ?_⟩⟩ <;> intro c
  · exact absurd c (not_single cmd (by decide))
  · exact absurd c (not_single cmd (by decide))
  · exact absurd c (not_single cmd (by decide))
  · exact absurd cmd (command_no_answer c)
  · exact absurd c (not_single cmd (by decide))

theorem sendable_capture (cmd : v.isCmd "app_capture_cur_musiclist" = true) :
    Sendable opendir bev v l ↔
      ((firstLink (fun it => it.aBev == some bev) PLayerInfo.dBev l).isSome → textLength v ≤ 1019) := by
  refine ⟨fun h => h.capture cmd, fun holds => ⟨?_, ?_, ?_, ?_, ?_, fun _ => holds⟩⟩ <;> intro c
  · exact absurd c (Json.not_isCmd cmd (by decide))
  · exact absurd c (Json.not_isCmd cmd (by decide))
  · exact absurd c (Json.not_isCmd cmd (by decide))
  · exact absurd c (not_any cmd (by decide))
  · exact absurd c (not_any cmd (by decide))

end Commands

/-- What a handler's own result is wrapped into makes no difference to its faults. -/
theorem then_return {α β : Type} {x : Except Fault α} (g : α → β) {e : Fault} :
    (x >>= fun a => .ok (g a)) = .error e ↔ x = .error e := by
  rw [Except.bind_eq_error]
  simp

variable {δ : Type} (m : Mysql δ)

/-- For every message that is answered with a list or forwarded, whatever the
directory and the registry hold: what is sent fits the buffer exactly when the
names, or the message, are short enough. -/
theorem sends_fit_iff (order : ByteOrder) (parse : Bytes → Bool × Json) (now : Int)
    (opendir : Bytes → Option (List Dirent)) (bev : Bev) (v : Json) (s : State δ) (relays : Relays v) :
    dispatch m (jsoncpp order parse) now opendir bev v s ≠ .error .outOfBounds ↔
      Sendable opendir bev v s.onlineList := by
  rw [← not_iff_not, not_not]
  rcases relays with cmd | cmd | cmd | cmd | cmd | cmd
  · rw [dispatch_list m _ cmd, sendable_list cmd, Except.bind_eq_error, or_iff_right (asString_inside _)]
    simp only [not_forall, ← getMusicName_fits, not_le]
    refine exists_congr fun singer => ?_
    rw [exists_prop]
    exact and_congr_right fun _ => send_overruns order parse _
  · rw [dispatch_info m _ cmd, sendable_info cmd, Classical.not_imp, not_le,
      ← devUpdateList_overruns order parse (hasMembers_of_isCmd cmd)]
    exact then_return _
  · rw [dispatch_upload_music m _ cmd, sendable_upload cmd, Classical.not_imp, not_le,
      ← uploadMusic_overruns order parse]
    split
    next none_ =>
      rw [none_]
      refine iff_of_false ?_ ?_ <;> intro h <;> cases h
    next => exact then_return _
  · rw [dispatch_app_command m _ cmd, sendable_command cmd, Classical.not_imp, not_le,
      ← transAppCmd_overruns order parse]
    exact then_return _
  · rw [dispatch_dev_reply m _ cmd, sendable_answer cmd, Classical.not_imp, not_le,
      ← transDevReply_overruns order parse]
    exact then_return _
  · rw [dispatch_capture m _ cmd, sendable_capture cmd, Classical.not_imp, not_le,
      ← captureCurMusicList_overruns order parse]
    exact then_return _

/-- A request for the tracks of the singer `a`. -/
def listRequest : Json :=
  .object [(lit "cmd", .string (lit "get_music_list")), (lit "singer", .string (lit "a"))]

def anyText (_ : Bytes) : Bool × Json := (true, listRequest)

/-- A directory that holds one track. -/
def oneName (_ : Bytes) : Option (List Dirent) := some [⟨lit "x.mp3", true⟩]

theorem one_name_fits :
    dispatch noAccounts (jsoncpp .little anyText) 0 oneName 1 listRequest ⟨[], ()⟩ ≠ .error .outOfBounds := by
  refine (sends_fit_iff noAccounts .little anyText 0 oneName 1 listRequest ⟨[], ()⟩ (.inl rfl)).mpr ?_
  rw [sendable_list rfl]
  intro singer asked files present
  cases asked
  cases present
  decide

/-- A name of 255 bytes, the longest a directory entry can have. -/
def longName (b : UInt8) : Bytes := List.replicate 251 b ++ lit ".mp3"

def fiveNames (_ : Bytes) : Option (List Dirent) :=
  some ([97, 98, 99, 100, 101].map fun b => ⟨longName b, true⟩)

/-- An app's command of 1020 bytes in the writer's own form. -/
def longCommand : Json :=
  .object [(lit "cmd", .string (lit "app_start")), (lit "pad", .string (List.replicate 992 65))]

def pairedNode : PLayerInfo := ⟨lit "d", lit "a", [], 0, 0, 0, some 0, some 2, some 1⟩

theorem fiveNames_overrun : ¬ ListingFits fiveNames (lit "a") := by
  intro fits
  have names : listed ([97, 98, 99, 100, 101].map fun b => ⟨longName b, true⟩) =
      [97, 98, 99, 100, 101].map longName := by
    have all : (([97, 98, 99, 100, 101].map fun b => (⟨longName b, true⟩ : Dirent)).filter
        fun f => f.regular && strstr f.name (lit ".mp3")) =
          [97, 98, 99, 100, 101].map fun b => ⟨longName b, true⟩ := by
      rw [List.filter_eq_self]
      intro f member
      obtain ⟨b, _, rfl⟩ := List.mem_map.mp member
      have track : lit ".mp3" <:+: longName b := (List.suffix_append _ _).isInfix
      simpa [strstr] using track
    rw [listed, all]
    rfl
  have room := fits _ rfl
  rw [names] at room
  have long : ∀ b ∈ ([97, 98, 99, 100, 101] : Bytes), escaped (longName b) = 255 := by
    intro b member
    have plain : ([97, 98, 99, 100, 101] : Bytes).all (escaped [·] == 1) = true := by decide
    have one : escaped [b] = 1 := beq_iff_eq.mp (List.all_eq_true.mp plain b member)
    have ending : escaped (lit ".mp3") = 4 := rfl
    rw [longName, escaped_append, escaped_replicate, one, ending]
  have a : escaped (lit "a") = 1 := rfl
  simp only [List.map_cons, List.map_nil, List.sum_cons, List.sum_nil, long, a, List.mem_cons, true_or,
    or_true] at room
  omega

theorem longCommand_length : textLength longCommand = 1020 := by
  have pad : escaped (List.replicate 992 65) = 992 := by
    rw [escaped_replicate]
    rfl
  rw [longCommand, textLength]
  simp only [membersLength, textLength, pad]
  rfl

/-- Neither limit is met: five long names make a reply that does not fit, and a
command that has been received whole does not fit when it is forwarded. -/
theorem reply_and_command_overrun :
    dispatch noAccounts (jsoncpp .little anyText) 0 fiveNames 1 listRequest ⟨[], ()⟩ = .error .outOfBounds ∧
      (∃ fuel res, serverReadData .little fuel (frame .little (writeValue longCommand)) zeroed = .ok res) ∧
        dispatch noAccounts (jsoncpp .little fun _ => (true, longCommand)) 0 oneName 1 longCommand
          ⟨[pairedNode], ()⟩ = .error .outOfBounds := by
  have size := (length_writeValue longCommand).trans longCommand_length
  refine ⟨?_, ?_, ?_⟩
  · rw [dispatch_list noAccounts _ rfl, Except.bind_eq_error]
    refine .inr ⟨lit "a", rfl, (send_overruns .little anyText _).mpr ?_⟩
    rw [← not_le, getMusicName_fits]
    exact fiveNames_overrun
  · rw [serverReadData_returns_iff]
    have header : readInt .little ((frame .little (writeValue longCommand)).take 4) = (1020 : Nat) := by
      have front := take_frame .little (writeValue longCommand) []
      rw [List.append_nil] at front
      rw [front, size]
      exact readInt_intBytes .little (by omega)
    refine ⟨?_, ?_, ?_, .inl ?_⟩
    · rw [length_frame, size]
      omega
    · rw [header]
      omega
    · rw [header, List.length_drop, length_frame, size]
    · rw [header]
      decide
  · rw [dispatch_app_command noAccounts _ rfl]
    refine (then_return _).mpr ((transAppCmd_overruns .little _).mpr ⟨?_, ?_⟩)
    · exact ⟨pairedNode, List.mem_singleton.mpr rfl, rfl, rfl⟩
    · rw [longCommand_length]
      omega

end MusicPlayer.Server
