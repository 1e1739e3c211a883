import YappaCore.Lib.Record
import YappaCore.Server.Broadcast
import YappaCore.Server.Groups
import YappaCore.Server.Persisted

/-!
The JSON that crosses Redis, Kafka and the sockets: what the derived `Serialize` and `Deserialize`
of `src/protocol/mod.rs` and `src/server/ws.rs` write and accept, on the values that `serde_json`
reads from a text and writes as one.

`ServerMessage.deserialize_eq_some`: which values are read as a message. `published_read_back`: what
a run publishes and produces is read back as it was, whatever the order of its fields and whatever
fields come in addition. `realised_iff`: which pairs of parse attempts a text of a client can lead
to.
-/

namespace YappaCore

open Lib

/-! ### Values -/

/-- A JSON value as it is written: the entries of an object with repeated names and in their order,
and of a number whether it is an unsigned integer of 64 bits. -/
inductive Json where
  | null
  | bool (value : Bool)
  | unsigned (value : UInt64)
  | number (text : String)
  | str (value : String)
  | arr (items : List Json)
  | obj (entries : List (String × Json))

namespace Json

/-- A `String`. -/
def string : Json → Option String
  | .str value => some value
  | _ => none

/-- A `u64`. -/
def u64 : Json → Option UInt64
  | .unsigned value => some value
  | _ => none

/-- A `Uuid`. -/
def uuid (json : Json) : Option Uuid := json.string.bind parseUuid

/-- A unit variant: its name, or an object with its name and `null`. -/
def variant {α : Type} (named : String → Option α) : Json → Option α
  | .str name => named name
  | .obj [(name, .null)] => named name
  | _ => none

/-- The fields of a struct: an object with each of them once, or an array of their values. -/
def fields (names : List String) : Json → Option (List Json)
  | .obj entries => Record.read names entries
  | .arr items => if items.length = names.length then some items else none
  | _ => none

/-- The value holds the fields: its entries with their names are the fields with the values, in some
order, or it is the array of the values. -/
def Holds (names : List String) (values : List Json) (json : Json) : Prop :=
  names.length = values.length ∧
    ((∃ entries, json = .obj entries ∧ (Record.known names entries).Perm (names.zip values)) ∨
      json = .arr values)

theorem fields_eq_some {names : List String} (distinct : names.Nodup) {json : Json}
    {values : List Json} : json.fields names = some values ↔ json.Holds names values := by
  cases json with
  | obj entries =>
      simp only [fields, Record.read_eq_some distinct, Holds, obj.injEq, reduceCtorEq, or_false,
        exists_eq_left']
  | arr items =>
      simp only [fields, Holds, reduceCtorEq, false_and, exists_false, false_or, arr.injEq]
      constructor
      · intro same
        obtain ⟨length, all⟩ := Option.ite_none_right_eq_some.mp same
        obtain rfl := Option.some.inj all
        exact ⟨length.symm, rfl⟩
      · rintro ⟨length, rfl⟩
        rw [if_pos length.symm]
  | _ => simp [fields, Holds]

end Json

/-! ### The text of an id is read back -/

theorem hexDigit_hexChar {d : Nat} (small : d < 16) : hexDigit (hexChar d) = some d := by
  have all : ∀ d < 16, hexDigit (hexChar d) = some d := by decide
  exact all d small

/-- The digits of a number are read after others. -/
theorem foldlM_hexDigits (k n m : Nat) :
    (hexDigits k n).foldlM (fun n c => (hexDigit c).map (16 * n + ·)) m =
      some (m * 16 ^ k + n % 16 ^ k) := by
  induction k generalizing n with
  | zero => simp [hexDigits, Nat.mod_one]
  | succ k ih =>
      rw [hexDigits, List.foldlM_append, ih]
      have digit : n % 16 < 16 := Nat.mod_lt _ (by omega)
      simp only [Option.bind_eq_bind, Option.bind_some, List.foldlM_cons, List.foldlM_nil,
        hexDigit_hexChar digit, Option.map_some, Option.pure_def]
      have split := Nat.mod_mul (x := n) (a := 16) (b := 16 ^ k)
      rw [pow_succ, Nat.mul_comm (16 ^ k) 16, split, Nat.mul_left_comm m]
      congr 1
      omega

theorem parseHex_hexDigits (id : Uuid) : parseHex (hexDigits 32 id.toNat) = some id := by
  unfold parseHex
  rw [foldlM_hexDigits, Option.map_some, Nat.zero_mul, Nat.zero_add]
  congr 1
  apply BitVec.eq_of_toNat_eq
  have bound := id.isLt
  rw [BitVec.toNat_ofNat]
  omega

theorem length_hexDigits (k n : Nat) : (hexDigits k n).length = k := by
  induction k generalizing n with
  | zero => rfl
  | succ k ih => rw [hexDigits, List.length_append, ih, List.length_singleton]

/-- The hyphenated form is parsed as its digits. -/
theorem parseHyphenated_parts {a b c d e : List Char} (la : a.length = 8) (lb : b.length = 4)
    (lc : c.length = 4) (ld : d.length = 4) (le : e.length = 12) :
    parseHyphenated (a ++ '-' :: b ++ '-' :: c ++ '-' :: d ++ '-' :: e) =
      parseHex (a ++ b ++ c ++ d ++ e) := by
  have hyphens : ∀ n x y, List.length x = n → (x ++ '-' :: y)[n]? = some '-' := by
    rintro n x y rfl
    rw [List.getElem?_append_right (Nat.le_refl _), Nat.sub_self, List.getElem?_cons_zero]
  have after : ∀ (n : Nat) (x y : List Char), x.length = n → (x ++ '-' :: y).drop (n + 1) = y := by
    rintro n x y rfl
    rw [List.drop_length_add_append, List.drop_succ_cons, List.drop_zero]
  have part : ∀ (n : Nat) (x y : List Char), x.length = n → (x ++ y).take n = x := by
    rintro n x y rfl
    exact List.take_left
  have whole : a ++ '-' :: b ++ '-' :: c ++ '-' :: d ++ '-' :: e =
      a ++ '-' :: (b ++ '-' :: (c ++ '-' :: (d ++ '-' :: e))) := by simp
  have second : a ++ '-' :: b ++ '-' :: c ++ '-' :: d ++ '-' :: e =
      (a ++ '-' :: b) ++ '-' :: (c ++ '-' :: (d ++ '-' :: e)) := by simp
  have third : a ++ '-' :: b ++ '-' :: c ++ '-' :: d ++ '-' :: e =
      (a ++ '-' :: b ++ '-' :: c) ++ '-' :: (d ++ '-' :: e) := by simp
  unfold parseHyphenated
  rw [if_pos]
  · congr 1
    rw [whole, part 8 a _ la, after 8 a _ la, part 4 b _ lb, ← whole, second,
      after 13 _ _ (by simp [la, lb]), part 4 c _ lc, ← second, third,
      after 18 _ _ (by simp [la, lb, lc]), part 4 d _ ld, ← third,
      after 23 _ _ (by simp [la, lb, lc, ld])]
  · refine ⟨by simp [la, lb, lc, ld, le], ?_, ?_, ?_, ?_⟩
    · rw [whole, hyphens 8 a _ la]
    · rw [second, hyphens 13 _ _ (by simp [la, lb])]
    · rw [third, hyphens 18 _ _ (by simp [la, lb, lc])]
    · rw [hyphens 23 _ _ (by simp [la, lb, lc, ld])]

/-- The text of an id is parsed as the id. -/
theorem parseUuid_uuidText (id : Uuid) : parseUuid (uuidText id) = some id := by
  have length := length_hexDigits 32 id.toNat
  have parts : (uuidText id).toList = (hexDigits 32 id.toNat).take 8 ++
      '-' :: ((hexDigits 32 id.toNat).drop 8).take 4 ++
      '-' :: ((hexDigits 32 id.toNat).drop 12).take 4 ++
      '-' :: ((hexDigits 32 id.toNat).drop 16).take 4 ++ '-' :: (hexDigits 32 id.toNat).drop 20 :=
    String.toList_ofList
  have size : (uuidText id).toList.length = 36 := by
    rw [parts]
    simp [length]
  unfold parseUuid
  simp only [size]
  rw [parts, parseHyphenated_parts (by simp [length]) (by simp [length]) (by simp [length])
    (by simp [length]) (by simp [length]), ← List.take_add, ← List.take_add, ← List.take_add,
    List.take_append_drop, parseHex_hexDigits]

/-! ### The types of the messages -/

def ChannelType.ofWire : String → Option ChannelType
  | "DM" => some .dm
  | "GROUP" => some .group
  | "COMMUNITY" => some .community
  | _ => none

/-- The variant's name in JSON, as serde writes it. -/
def GroupMessageType.wire : GroupMessageType → String
  | .join => "JOIN"
  | .leave => "LEAVE"
  | .create => "CREATE"
  | .delete => "DELETE"

def GroupMessageType.ofWire : String → Option GroupMessageType
  | "JOIN" => some .join
  | "LEAVE" => some .leave
  | "CREATE" => some .create
  | "DELETE" => some .delete
  | _ => none

theorem ChannelType.ofWire_eq_some {name : String} {type : ChannelType} :
    ofWire name = some type ↔ name = type.wire := by
  constructor
  · intro named
    unfold ofWire at named
    split at named <;> cases named <;> rfl
  · rintro rfl
    cases type <;> rfl

theorem GroupMessageType.ofWire_eq_some {name : String} {type : GroupMessageType} :
    ofWire name = some type ↔ name = type.wire := by
  constructor
  · intro named
    unfold ofWire at named
    split at named <;> cases named <;> rfl
  · rintro rfl
    cases type <;> rfl

/-! ### Reading and writing -/

namespace Json

/-- The value is the text of an id, in any of its forms. -/
def Spells (json : Json) (id : Uuid) : Prop := ∃ text, json = .str text ∧ parseUuid text = some id

/-- The value is the name of a variant, alone or in an object. -/
def Names (json : Json) (name : String) : Prop := json = .str name ∨ json = .obj [(name, .null)]

theorem string_eq_some {json : Json} {text : String} :
    json.string = some text ↔ json = .str text := by
  cases json <;> simp [string]

theorem u64_eq_some {json : Json} {n : UInt64} : json.u64 = some n ↔ json = .unsigned n := by
  cases json <;> simp [u64]

theorem uuid_eq_some {json : Json} {id : Uuid} : json.uuid = some id ↔ json.Spells id := by
  simp only [uuid, Option.bind_eq_some_iff, string_eq_some, Spells]

theorem variant_eq_some {α : Type} {named : String → Option α} {wire : α → String}
    (spec : ∀ {name value}, named name = some value ↔ name = wire value) {json : Json} {value : α} :
    json.variant named = some value ↔ json.Names (wire value) := by
  unfold variant Names
  split
  · rw [spec]
    simp
  · rw [spec]
    simp
  · rename_i text object
    simp only [reduceCtorEq, false_iff, not_or]
    exact ⟨fun same => text _ same, fun same => object _ same⟩

end Json

def MessagePayload.fields : List String := ["text", "meta"]

def ServerMessage.fields : List String :=
  ["type", "message_id", "tenant_id", "channel_type", "channel_id", "sender_id", "timestamp",
   "conversation_id", "payload"]

def GroupMessage.fields : List String := ["msg_type", "tenant_id", "group_id", "user_id"]

def WsMessage.fields : List String := ["channel_type", "user_id", "content"]

section Messages

-- The text of a value as `serde_json` writes it, and the value of a text.
variable (render : Json → String) (value : String → Json)

/-- `MessagePayload::deserialize`. -/
def MessagePayload.deserialize (json : Json) : Option MessagePayload :=
  match json.fields MessagePayload.fields with
  | some [text, metadata] => text.string.map fun text => { text, metadata := render metadata }
  | _ => none

/-- `MessagePayload::serialize`. -/
def MessagePayload.serialize (payload : MessagePayload) : Json :=
  .obj (MessagePayload.fields.zip [.str payload.text, value payload.metadata])

/-- `ServerMessage::deserialize`. -/
def ServerMessage.deserialize (json : Json) : Option ServerMessage :=
  match json.fields ServerMessage.fields with
  | some [type, messageId, tenantId, channelType, channelId, senderId, timestamp, conversationId,
      payload] => do
      let msgType ← type.string
      let messageId ← messageId.uuid
      let tenantId ← tenantId.string
      let channelType ← channelType.variant ChannelType.ofWire
      let channelId ← channelId.string
      let senderId ← senderId.string
      let timestamp ← timestamp.u64
      let conversationId ← conversationId.uuid
      let payload ← MessagePayload.deserialize render payload
      return { msgType, messageId, tenantId, channelType, channelId, senderId, timestamp,
               conversationId, payload }
  | _ => none

/-- The values of the fields that `ServerMessage::serialize` writes. -/
def ServerMessage.values (msg : ServerMessage) : List Json :=
  [.str msg.msgType, .str (uuidText msg.messageId), .str msg.tenantId, .str msg.channelType.wire,
   .str msg.channelId, .str msg.senderId, .unsigned msg.timestamp,
   .str (uuidText msg.conversationId), msg.payload.serialize value]

/-- `ServerMessage::serialize`. -/
def ServerMessage.serialize (msg : ServerMessage) : Json :=
  .obj (ServerMessage.fields.zip (msg.values value))

/-- `GroupMessage::deserialize`. -/
def GroupMessage.deserialize (json : Json) : Option GroupMessage :=
  match json.fields GroupMessage.fields with
  | some [msgType, tenantId, groupId, userId] => do
      let msgType ← msgType.variant GroupMessageType.ofWire
      let tenantId ← tenantId.string
      let groupId ← groupId.string
      let userId ← userId.string
      return { msgType, tenantId, groupId, userId }
  | _ => none

/-- `WsMessage::deserialize`. -/
def WsMessage.deserialize (json : Json) : Option WsMessage :=
  match json.fields WsMessage.fields with
  | some [channelType, userId, content] => do
      let channelType ← channelType.variant ChannelType.ofWire
      let userId ← userId.string
      let content ← content.string
      return { channelType, userId, content }
  | _ => none

/-- The two parse attempts of `handle_text_message` on a text that is a JSON value. -/
def TextFrame.ofJson (json : Json) : TextFrame where
  groupMessage := GroupMessage.deserialize json
  wsMessage := WsMessage.deserialize json

variable {render value}

theorem MessagePayload.deserialize_eq_some {json : Json} {payload : MessagePayload} :
    deserialize render json = some payload ↔ ∃ metadata,
      json.Holds fields [.str payload.text, metadata] ∧ render metadata = payload.metadata := by
  constructor
  · intro accepted
    unfold deserialize at accepted
    split at accepted
    · rename_i text metadata found
      obtain ⟨words, isText, rfl⟩ := Option.map_eq_some_iff.mp accepted
      rw [Json.string_eq_some] at isText
      subst isText
      exact ⟨metadata, (Json.fields_eq_some (by decide)).mp found, rfl⟩
    · simp at accepted
  · rintro ⟨metadata, holds, rendered⟩
    unfold deserialize
    rw [(Json.fields_eq_some (by decide)).mpr holds]
    simp only [Json.string, Option.map_some, rendered]

/-- A value is read as a message exactly when it holds the nine fields, each of its type, once and
in any order, whatever other entries it has. -/
theorem ServerMessage.deserialize_eq_some {json : Json} {msg : ServerMessage} :
    deserialize render json = some msg ↔
      ∃ messageId channelType conversationId payload metadata,
        json.Holds fields [.str msg.msgType, messageId, .str msg.tenantId, channelType,
          .str msg.channelId, .str msg.senderId, .unsigned msg.timestamp, conversationId, payload] ∧
        messageId.Spells msg.messageId ∧ channelType.Names msg.channelType.wire ∧
        conversationId.Spells msg.conversationId ∧
        payload.Holds MessagePayload.fields [.str msg.payload.text, metadata] ∧
        render metadata = msg.payload.metadata := by
  constructor
  · intro accepted
    unfold deserialize at accepted
    split at accepted
    · rename_i type messageId tenantId channelType channelId senderId timestamp conversationId
        payload found
      have holds := (Json.fields_eq_some (by decide)).mp found
      simp only [Option.bind_eq_bind, Option.bind_eq_some_iff, Option.pure_def, Option.some.injEq,
        Json.string_eq_some, Json.u64_eq_some, Json.uuid_eq_some,
        Json.variant_eq_some ChannelType.ofWire_eq_some, MessagePayload.deserialize_eq_some]
        at accepted
      obtain ⟨_, rfl, _, isId, _, rfl, _, isType, _, rfl, _, rfl, _, rfl, _, isConversation, _,
        ⟨metadata, isPayload, rendered⟩, rfl⟩ := accepted
      exact ⟨messageId, channelType, conversationId, payload, metadata, holds, isId, isType,
        isConversation, isPayload, rendered⟩
    · simp at accepted
  · rintro ⟨messageId, channelType, conversationId, payload, metadata, holds, isId, isType,
      isConversation, isPayload, rendered⟩
    unfold deserialize
    rw [(Json.fields_eq_some (by decide)).mpr holds]
    simp only [Json.uuid_eq_some.mpr isId, Json.uuid_eq_some.mpr isConversation,
      (Json.variant_eq_some ChannelType.ofWire_eq_some).mpr isType,
      MessagePayload.deserialize_eq_some.mpr ⟨metadata, isPayload, rendered⟩, Json.string, Json.u64,
      Option.bind_eq_bind, Option.bind_some, Option.pure_def]

/-- What is written is read back under any order of the fields and with any other entries, where
`meta` is. -/
theorem ServerMessage.read_back {msg : ServerMessage}
    (kept : render (value msg.payload.metadata) = msg.payload.metadata)
    {entries : List (String × Json)}
    (same : (Record.known fields entries).Perm (fields.zip (msg.values value))) :
    deserialize render (.obj entries) = some msg := by
  rw [deserialize_eq_some]
  have payload : (msg.payload.serialize value).Holds MessagePayload.fields
      [.str msg.payload.text, value msg.payload.metadata] :=
    ⟨rfl, .inl ⟨_, rfl, .of_eq (Record.known_zip _ _)⟩⟩
  exact ⟨.str (uuidText msg.messageId), .str msg.channelType.wire,
    .str (uuidText msg.conversationId), _, _, ⟨rfl, .inl ⟨entries, rfl, same⟩⟩,
    ⟨_, rfl, parseUuid_uuidText _⟩, .inl rfl, ⟨_, rfl, parseUuid_uuidText _⟩, payload, kept⟩

theorem GroupMessage.deserialize_eq_some {json : Json} {groupState : GroupMessage} :
    deserialize json = some groupState ↔ ∃ msgType,
      json.Holds fields [msgType, .str groupState.tenantId, .str groupState.groupId,
        .str groupState.userId] ∧ msgType.Names groupState.msgType.wire := by
  constructor
  · intro accepted
    unfold deserialize at accepted
    split at accepted
    · rename_i msgType tenantId groupId userId found
      have holds := (Json.fields_eq_some (by decide)).mp found
      simp only [Option.bind_eq_bind, Option.bind_eq_some_iff, Option.pure_def, Option.some.injEq,
        Json.string_eq_some, Json.variant_eq_some GroupMessageType.ofWire_eq_some] at accepted
      obtain ⟨_, isType, _, rfl, _, rfl, _, rfl, rfl⟩ := accepted
      exact ⟨msgType, holds, isType⟩
    · simp at accepted
  · rintro ⟨msgType, holds, isType⟩
    unfold deserialize
    rw [(Json.fields_eq_some (by decide)).mpr holds]
    simp only [(Json.variant_eq_some GroupMessageType.ofWire_eq_some).mpr isType, Json.string,
      Option.bind_eq_bind, Option.bind_some, Option.pure_def]

theorem WsMessage.deserialize_eq_some {json : Json} {payload : WsMessage} :
    deserialize json = some payload ↔ ∃ channelType,
      json.Holds fields [channelType, .str payload.userId, .str payload.content] ∧
        channelType.Names payload.channelType.wire := by
  constructor
  · intro accepted
    unfold deserialize at accepted
    split at accepted
    · rename_i channelType userId content found
      have holds := (Json.fields_eq_some (by decide)).mp found
      simp only [Option.bind_eq_bind, Option.bind_eq_some_iff, Option.pure_def, Option.some.injEq,
        Json.string_eq_some, Json.variant_eq_some ChannelType.ofWire_eq_some] at accepted
      obtain ⟨_, isType, _, rfl, _, rfl, rfl⟩ := accepted
      exact ⟨channelType, holds, isType⟩
    · simp at accepted
  · rintro ⟨channelType, holds, isType⟩
    unfold deserialize
    rw [(Json.fields_eq_some (by decide)).mpr holds]
    simp only [(Json.variant_eq_some ChannelType.ofWire_eq_some).mpr isType, Json.string,
      Option.bind_eq_bind, Option.bind_some, Option.pure_def]

end Messages

/-! ### The frames of clients -/

theorem Json.Holds.mem {names : List String} {values : List Json} {entries : List (String × Json)}
    (holds : (Json.obj entries).Holds names values) {p : String × Json}
    (mem : p ∈ names.zip values) : p ∈ entries := by
  obtain ⟨_, ⟨entries, same, perm⟩ | same⟩ := holds
  · cases same
    exact (Record.mem_known.mp (perm.symm.subset mem)).1
  · cases same

/-- An entry with the name of a field is that of the field. -/
theorem Json.Holds.value {names : List String} {values : List Json} {entries : List (String × Json)}
    (holds : (Json.obj entries).Holds names values) {p : String × Json} (mem : p ∈ entries)
    (field : p.1 ∈ names) : p ∈ names.zip values := by
  obtain ⟨_, ⟨entries, same, perm⟩ | same⟩ := holds
  · cases same
    exact perm.subset (Record.mem_known.mpr ⟨mem, field⟩)
  · cases same

theorem Json.Holds.length_arr {names : List String} {values items : List Json}
    (holds : (Json.arr items).Holds names values) : items.length = names.length := by
  obtain ⟨length, ⟨entries, same, _⟩ | same⟩ := holds
  · cases same
  · cases same
    exact length.symm

/-- An object without a field is not read. -/
theorem Json.fields_of_missing {names : List String} (distinct : names.Nodup)
    {entries : List (String × Json)} {name : String} (field : name ∈ names)
    (missing : ∀ p ∈ entries, p.1 ≠ name) : (Json.obj entries).fields names = none := by
  cases found : (Json.obj entries).fields names with
  | none => rfl
  | some values =>
      have holds := (Json.fields_eq_some distinct).mp found
      have inZip : name ∈ (names.zip values).map Prod.fst := by
        rwa [List.map_fst_zip (Nat.le_of_eq holds.1)]
      obtain ⟨p, mem, rfl⟩ := List.mem_map.mp inZip
      exact absurd rfl (missing p (holds.mem mem))

/-- The values that a command is read from. -/
def GroupMessage.values (groupState : GroupMessage) : List Json :=
  [.str groupState.msgType.wire, .str groupState.tenantId, .str groupState.groupId,
   .str groupState.userId]

/-- The values that a chat message is read from. -/
def WsMessage.values (payload : WsMessage) : List Json :=
  [.str payload.channelType.wire, .str payload.userId, .str payload.content]

theorem GroupMessage.deserialize_obj {groupState : GroupMessage} {entries : List (String × Json)}
    (same : (Record.known fields entries).Perm (fields.zip groupState.values)) :
    deserialize (.obj entries) = some groupState :=
  deserialize_eq_some.mpr ⟨_, ⟨rfl, .inl ⟨entries, rfl, same⟩⟩, .inl rfl⟩

theorem WsMessage.deserialize_obj {payload : WsMessage} {entries : List (String × Json)}
    (same : (Record.known fields entries).Perm (fields.zip payload.values)) :
    deserialize (.obj entries) = some payload :=
  deserialize_eq_some.mpr ⟨_, ⟨rfl, .inl ⟨entries, rfl, same⟩⟩, .inl rfl⟩

/-- A text can be read as what a frame says exactly when it does not have to name two users: the
fields of a command and of a chat message have no other name in common. -/
theorem TextFrame.realised_iff (text : TextFrame) : (∃ json, TextFrame.ofJson json = text) ↔
    ∀ groupState payload, text.groupMessage = some groupState → text.wsMessage = some payload →
      groupState.userId = payload.userId := by
  constructor
  · rintro ⟨json, rfl⟩ groupState payload command chat
    obtain ⟨msgType, asCommand, _⟩ := GroupMessage.deserialize_eq_some.mp command
    obtain ⟨channelType, asChat, _⟩ := WsMessage.deserialize_eq_some.mp chat
    cases json with
    | obj entries =>
        have named : ("user_id", Json.str payload.userId) ∈ entries :=
          asChat.mem (by simp [WsMessage.fields])
        have value := asCommand.value named (by simp [GroupMessage.fields])
        simpa [GroupMessage.fields, eq_comm] using value
    | arr items =>
        -- An array cannot have the length of both.
        have impossible := asCommand.length_arr.symm.trans asChat.length_arr
        exact absurd impossible (by decide)
    | _ => simp [Json.Holds] at asChat
  · intro agree
    obtain ⟨groupMessage, wsMessage⟩ := text
    have group : "group_id" ∈ GroupMessage.fields := by decide
    have content : "content" ∈ WsMessage.fields := by decide
    cases groupMessage with
    | none =>
        cases wsMessage with
        | none => exact ⟨.null, rfl⟩
        | some payload =>
            refine ⟨.obj (WsMessage.fields.zip payload.values), ?_⟩
            have chat : WsMessage.deserialize (.obj (WsMessage.fields.zip payload.values)) =
                some payload := WsMessage.deserialize_obj (.of_eq (Record.known_zip _ _))
            have noCommand := Json.fields_of_missing (by decide) group
              (show ∀ p ∈ WsMessage.fields.zip payload.values, p.1 ≠ "group_id" by
                simp [WsMessage.fields, WsMessage.values])
            unfold ofJson GroupMessage.deserialize
            rw [chat, noCommand]
    | some groupState =>
        cases wsMessage with
        | none =>
            refine ⟨.obj (GroupMessage.fields.zip groupState.values), ?_⟩
            have command : GroupMessage.deserialize
                (.obj (GroupMessage.fields.zip groupState.values)) = some groupState :=
              GroupMessage.deserialize_obj (.of_eq (Record.known_zip _ _))
            have noChat := Json.fields_of_missing (by decide) content
              (show ∀ p ∈ GroupMessage.fields.zip groupState.values, p.1 ≠ "content" by
                simp [GroupMessage.fields, GroupMessage.values])
            unfold ofJson WsMessage.deserialize
            rw [command, noChat]
        | some payload =>
            have user := agree _ _ rfl rfl
            let entries := ("channel_type", Json.str payload.channelType.wire) ::
              GroupMessage.fields.zip groupState.values ++ [("content", .str payload.content)]
            have command : GroupMessage.deserialize (.obj entries) = some groupState :=
              GroupMessage.deserialize_obj (.of_eq (by
                simp [entries, Record.known, GroupMessage.fields, GroupMessage.values]))
            have chat : WsMessage.deserialize (.obj entries) = some payload :=
              WsMessage.deserialize_obj (.of_eq (by
                simp [entries, Record.known, GroupMessage.fields, GroupMessage.values,
                  WsMessage.fields, WsMessage.values, user]))
            refine ⟨.obj entries, ?_⟩
            unfold ofJson
            rw [command, chat]

/-! ### What the server sends -/

/-- What the operation publishes or produces has an empty `meta`. -/
def Effect.Plain : Effect → Prop
  | .publish _ msg | .produce _ _ msg => msg.payload.metadata = "\x7b\x7d"
  | _ => True

namespace Handler

section Plain

variable {state : AppState} {identity : Identity}

theorem plain_persistMessage {msg : ServerMessage} (plain : msg.payload.metadata = "\x7b\x7d") :
    (persistMessage state msg).Always Effect.Plain := by
  rw [persistMessage_eq]
  split
  · exact ⟨plain, fun _ => trivial⟩
  · exact ⟨trivial, fun _ => trivial⟩

theorem plain_handleGroup (groupId : String) : (handleJoin identity groupId).Always Effect.Plain ∧
    (handleLeave identity groupId).Always Effect.Plain ∧
    (handleCreate identity groupId).Always Effect.Plain := by
  refine ⟨?_, ?_, ?_⟩
  · rw [handleJoin_eq]
    refine ⟨trivial, fun found => ?_⟩
    cases found with
    | none => trivial
    | some conversationId =>
        exact ⟨trivial, fun _ => ⟨trivial, fun _ => ⟨trivial, fun _ => ⟨trivial, fun _ =>
          ⟨rfl, fun _ => trivial⟩⟩⟩⟩⟩
  · rw [handleLeave_eq]
    refine (always_parseOrNew trivial groupId).bind fun conversationId => ?_
    exact ⟨trivial, fun _ => ⟨trivial, fun _ => ⟨trivial, fun _ => ⟨trivial, fun _ =>
      ⟨rfl, fun _ => trivial⟩⟩⟩⟩⟩
  · rw [handleCreate_eq]
    refine (always_parseOrNew trivial groupId).bind fun conversationId => ?_
    refine ⟨trivial, fun created => ?_⟩
    cases created with
    | none => trivial
    | some conversationId =>
        exact ⟨trivial, fun _ => ⟨trivial, fun _ => ⟨trivial, fun _ => ⟨trivial, fun _ =>
          ⟨trivial, fun _ => ⟨rfl, fun _ => trivial⟩⟩⟩⟩⟩⟩

theorem plain_handleGroupChat (payload : WsMessage) :
    (handleGroupChat state identity payload).Always Effect.Plain := by
  rw [handleGroupChat_eq]
  refine ⟨trivial, fun member => ?_⟩
  cases member with
  | false => exact ⟨trivial, fun _ => trivial⟩
  | true =>
      refine ⟨trivial, fun _ => ⟨trivial, fun _ => ?_⟩⟩
      refine (always_parseOrNew trivial _).bind fun conversationId => ?_
      exact ⟨rfl, fun _ => plain_persistMessage rfl⟩

theorem plain_handleDm (payload : WsMessage) :
    (handleDm state identity payload).Always Effect.Plain := by
  rw [handleDm_eq]
  exact ⟨trivial, fun _ => ⟨trivial, fun _ => ⟨rfl, fun _ => ⟨rfl, fun _ =>
    plain_persistMessage rfl⟩⟩⟩⟩

theorem plain_handleTextMessage (text : TextFrame) :
    (handleTextMessage text identity state).Always Effect.Plain := by
  unfold handleTextMessage
  cases text.groupMessage with
  | some groupState =>
      obtain ⟨join, leave, create⟩ := @plain_handleGroup identity groupState.groupId
      simp only
      cases groupState.msgType with
      | join => exact join
      | leave => exact leave
      | create => exact create
      | delete => exact ⟨trivial, fun _ => trivial⟩
  | none =>
      simp only
      cases text.wsMessage with
      | none => trivial
      | some payload =>
          simp only
          split
          · exact ⟨trivial, fun _ => trivial⟩
          · cases payload.channelType with
            | dm => exact plain_handleDm payload
            | group => exact plain_handleGroupChat payload
            | community => exact plain_handleGroupChat payload

end Plain

end Handler

namespace Cluster

variable {N : Type} [DecidableEq N]

omit [DecidableEq N] in
/-- What an event puts into the streams, a task publishes. -/
theorem mem_announced {s : Cluster N} {e : Event N} {msg : ServerMessage}
    (mem : msg ∈ announced s e) : ∃ channel, s.Performs e (.publish channel msg) := by
  cases e with
  | perform id choice =>
      simp only [announced] at mem
      split at mem
      · rename_i channel sent next found
        split at mem
        · obtain rfl := List.eq_of_mem_replicate mem
          exact ⟨channel, id, choice, _, next, rfl, found, rfl⟩
        · cases mem
      · cases mem
  | _ => cases mem

/-- Everything that a run publishes and produces has an empty `meta`. -/
theorem plain_sent (state : AppState) (db : Database) {es : List (Event N)} {s : Cluster N}
    (ran : (machine N state).run (start db) es = some s) :
    ∀ msg ∈ log state db es ++ s.kafka.map (·.2.2), msg.payload.metadata = "\x7b\x7d" := by
  let Inv (es : List (Event N)) (s : Cluster N) : Prop :=
    (machine N state).run (start db) es = some s ∧
      (∀ id socket, s.sockets id = some socket → socket.task.Always Effect.Plain) ∧
      ∀ msg ∈ log state db es ++ s.kafka.map (·.2.2), msg.payload.metadata = "\x7b\x7d"
  have init : Inv [] (start db) := by
    refine ⟨rfl, ?_, ?_⟩
    · intro id socket found
      cases found
    · intro msg mem
      cases mem
  have step : ∀ es s e s', Inv es s → (machine N state).step s e = some s' →
      Inv (es ++ [e]) s' := by
    rintro es s e s' ⟨ran, tasks, plain⟩ next
    have h := stepped next
    -- What a task performs now is among what it performs.
    have performed : ∀ op, s.Performs e op → op.Plain := by
      rintro op ⟨id, choice, socket, rest, _, found, task⟩
      have always := tasks id socket found
      rw [task] at always
      exact always.1
    refine ⟨(machine N state).run_snoc.mpr ⟨s, ran, next⟩, ?_, ?_⟩
    · intro id socket found
      exact h.tasks (fun _ task => task.Always Effect.Plain) (fun _ => trivial)
        (fun _ _ _ answer always => always.2 answer) (fun _ => ⟨trivial, fun _ => trivial⟩)
        (fun _ text _ _ _ => Handler.plain_handleTextMessage text) tasks found
    · intro msg mem
      have grown : log state db (es ++ [e]) = log state db es ++ announced s e :=
        Machine.emitted_snoc ran next
      rw [grown] at mem
      rcases List.mem_append.mp mem with sent | produced
      · rcases List.mem_append.mp sent with old | new
        · exact plain msg (List.mem_append_left _ old)
        · obtain ⟨channel, performs⟩ := mem_announced new
          exact performed _ performs
      · rcases h.kafka with same | ⟨record, grown, performs, _⟩
        · rw [same] at produced
          exact plain msg (List.mem_append_right _ produced)
        · rw [grown, List.map_append] at produced
          rcases List.mem_append.mp produced with old | new
          · exact plain msg (List.mem_append_right _ old)
          · obtain rfl := List.mem_singleton.mp new
            exact performed _ performs
  exact (Machine.invariant init step ran).2.2

/-- In every run, what was published and produced is read as it was sent from what serde writes of
it, also when the fields come in another order and with others. -/
theorem published_read_back (state : AppState) (db : Database) {render : Json → String}
    {value : String → Json} (empty : render (value "\x7b\x7d") = "\x7b\x7d") {es : List (Event N)}
    {s : Cluster N} (ran : (machine N state).run (start db) es = some s) {msg : ServerMessage}
    (sent : msg ∈ log state db es ++ s.kafka.map (·.2.2)) :
    ServerMessage.deserialize render (msg.serialize value) = some msg ∧
      ∀ entries, (Record.known ServerMessage.fields entries).Perm
          (ServerMessage.fields.zip (msg.values value)) →
        ServerMessage.deserialize render (.obj entries) = some msg := by
  have plain := plain_sent state db ran msg sent
  have kept : render (value msg.payload.metadata) = msg.payload.metadata := by
    rw [plain]
    exact empty
  exact ⟨ServerMessage.read_back kept (.of_eq (Record.known_zip _ _)),
    fun _ same => ServerMessage.read_back kept same⟩

theorem published_read_back_dm :
    let state : AppState := ⟨true, sha256Names⟩
    let render : Json → String
      | .obj [] => "\x7b\x7d"
      | _ => ""
    let value : String → Json := fun _ => .obj []
    let msg : ServerMessage :=
      ⟨"chat", 9, "acme", .dm, "bob", "ada", 7, sha256Names "ada:bob", ⟨"hi", "\x7b\x7d"⟩⟩
    ∃ s, (machine Bool state).run (start ⟨[], [], []⟩) twoDevices = some s ∧
      ServerMessage.deserialize render (msg.serialize value) = some msg ∧
        ∀ entries, (Record.known ServerMessage.fields entries).Perm
            (ServerMessage.fields.zip (msg.values value)) →
          ServerMessage.deserialize render (.obj entries) = some msg := by
  intro state render value msg
  obtain ⟨s, ran⟩ := Option.isSome_iff_exists.mp
    (show ((machine Bool state).run (start ⟨[], [], []⟩) twoDevices).isSome = true by decide)
  have sent : msg ∈ log state ⟨[], [], []⟩ twoDevices := by decide
  exact ⟨s, ran, published_read_back state ⟨[], [], []⟩ rfl ran (List.mem_append_left _ sent)⟩

end Cluster

end YappaCore
