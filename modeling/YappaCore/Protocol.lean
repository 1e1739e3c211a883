import Mathlib.Data.String.Basic

/-!
The data model of `src/protocol/mod.rs` and `src/auth/mod.rs`: identities, the
messages clients send, the `ServerMessage` envelope that goes through Redis,
Kafka and Postgres, and the two ways a conversation id is computed from text.

Where the source serialises a `ServerMessage` and parses it back, the model
carries the value; a text frame of a client is given by what the two parse
attempts of `handle_text_message` make of it, in any combination. Both are
compared with the JSON itself in `Server/Wire.lean`.
-/

namespace YappaCore

/-- `uuid::Uuid`: 16 bytes. -/
abbrev Uuid := BitVec 128

/-- `auth::Identity`: the tenant and user a token was issued for. Both are the
strings of the token's claims, unrestricted. -/
structure Identity where
  tenantId : String
  userId : String
deriving DecidableEq, Repr

inductive ChannelType where
  | dm
  | group
  | community
deriving DecidableEq, Repr

/-- The variant's name as `{:?}` prints it. -/
def ChannelType.debug : ChannelType → String
  | .dm => "Dm"
  | .group => "Group"
  | .community => "Community"

/-- The variant's name in JSON, as serde writes it. -/
def ChannelType.wire : ChannelType → String
  | .dm => "DM"
  | .group => "GROUP"
  | .community => "COMMUNITY"

inductive GroupMessageType where
  | join
  | leave
  | create
  | delete
deriving DecidableEq, Repr

/-- `MessagePayload`; `metadata` is the JSON text of its field `meta`. -/
structure MessagePayload where
  text : String
  metadata : String
deriving DecidableEq, Repr

/-- The envelope delivered to clients, published to Redis and produced to Kafka. -/
structure ServerMessage where
  msgType : String
  messageId : Uuid
  tenantId : String
  channelType : ChannelType
  channelId : String
  senderId : String
  timestamp : UInt64
  conversationId : Uuid
  payload : MessagePayload
deriving DecidableEq, Repr

/-- A group command. The handler reads `msgType` and `groupId` only: `tenantId`
and `userId` are whatever the client wrote. -/
structure GroupMessage where
  msgType : GroupMessageType
  tenantId : String
  groupId : String
  userId : String
deriving DecidableEq, Repr

/-- `server::ws::WsMessage`: a chat frame. -/
structure WsMessage where
  channelType : ChannelType
  userId : String
  content : String
deriving DecidableEq, Repr

/-- A text frame, as `from_str::<GroupMessage>` and `from_str::<WsMessage>` see it. -/
structure TextFrame where
  groupMessage : Option GroupMessage
  wsMessage : Option WsMessage
deriving DecidableEq, Repr

/-! ### Conversation ids -/

/-- The value of a hexadecimal digit, in either case. -/
def hexDigit (c : Char) : Option Nat :=
  if '0' ≤ c ∧ c ≤ '9' then some (c.toNat - '0'.toNat)
  else if 'a' ≤ c ∧ c ≤ 'f' then some (c.toNat - 'a'.toNat + 10)
  else if 'A' ≤ c ∧ c ≤ 'F' then some (c.toNat - 'A'.toNat + 10)
  else none

def parseHex (digits : List Char) : Option Uuid :=
  (digits.foldlM (fun n c => (hexDigit c).map (16 * n + ·)) 0).map (BitVec.ofNat 128)

/-- The 36-character form, with hyphens between its groups of digits. -/
def parseHyphenated (cs : List Char) : Option Uuid :=
  if cs.length = 36 ∧ cs[8]? = some '-' ∧ cs[13]? = some '-' ∧ cs[18]? = some '-' ∧
      cs[23]? = some '-' then
    parseHex (cs.take 8 ++ (cs.drop 9).take 4 ++ (cs.drop 14).take 4 ++ (cs.drop 19).take 4 ++
      cs.drop 24)
  else none

/-- `str::parse::<Uuid>`: 32 digits, the hyphenated form, or the hyphenated form
in braces or after `urn:uuid:`. -/
def parseUuid (text : String) : Option Uuid :=
  let cs := text.toList
  match cs.length with
  | 32 => parseHex cs
  | 36 => parseHyphenated cs
  | 38 => if cs.head? = some '\x7b' ∧ cs.getLast? = some '\x7d' then parseHyphenated cs.tail.dropLast
      else none
  | 45 => if "urn:uuid:".toList.isPrefixOf cs then parseHyphenated (cs.drop 9) else none
  | _ => none

/-- `generate_dm_conversation_id`: the sorted pair, joined by a colon and hashed.
`sha256Prefix` is the first half of the SHA-256 digest of a text. -/
def generateDmConversationId (sha256Prefix : String → Uuid) (userA userB : String) : Uuid :=
  let participants := if userB < userA then (userB, userA) else (userA, userB)
  sha256Prefix (participants.1 ++ ":" ++ participants.2)

/-- The first half of the SHA-256 digest of four texts. -/
def sha256Names (text : String) : Uuid :=
  if text = "ada:bob" then 0xe0251bdd3df16530e3649e22ddda5e82
  else if text = "ada:eve" then 0x9e66294972c2cacfc9da5e206d99c9c1
  else if text = "bob:eve" then 0x2409b8b01a9ee828de71c81eea504aed
  else if text = "bob:carol" then 0x33761cb1286a8f1ba494fc0760c8d157
  else 0

end YappaCore
