import YappaCore.Lib.Prog
import YappaCore.Db
import YappaCore.Redis

/-!
`handle_text_message` of `src/server/ws.rs` as a program: every read of the clock, every
new id, every statement, registry operation, publish and produce is an operation whose
answer the program goes on with.

The program is what the handler of one frame does in one task; other tasks run between
any two of its operations. `ofFrame_handleTextMessage` says that it keeps to the identity
of its connection and to the group of its command, and `before_handleTextMessage` and
`followed_handleTextMessage` in which order it joins a group and announces the join.
-/

namespace YappaCore

open Lib

/-! ### Operations -/

inductive Effect where
  | now
  | newV4
  | selectGroup (tenantId name : String)
  | insertGroupMember (conversationId : Uuid) (tenantId userId : String)
  | deleteGroupMember (conversationId : Uuid) (userId : String)
  | upsertGroup (conversationId : Uuid) (tenantId name createdBy : String)
  | joinGroup (tenantId groupId userId : String)
  | leaveGroup (tenantId groupId userId : String)
  | createGroup (tenantId groupId : String)
  | deleteGroup (tenantId groupId : String)
  | isUserInGroup (tenantId groupId userId : String)
  | sendMsgToUser (tenantId userId : String) (msg : Message)
  | publish (channel : String) (msg : ServerMessage)
  | produce (topic key : String) (payload : ServerMessage)
  | insertMessages (rows : List MessageRow)
deriving DecidableEq

/-- What an operation answers; a statement, a publish or a produce may fail. -/
@[reducible] def Effect.Answer : Effect → Type
  | .now => UInt64
  | .newV4 => Uuid
  | .selectGroup _ _ => Option Uuid
  | .insertGroupMember _ _ _ => Bool
  | .deleteGroupMember _ _ => Bool
  | .upsertGroup _ _ _ _ => Option Uuid
  | .joinGroup _ _ _ => Unit
  | .leaveGroup _ _ _ => Unit
  | .createGroup _ _ => Unit
  | .deleteGroup _ _ => Unit
  | .isUserInGroup _ _ _ => Bool
  | .sendMsgToUser _ _ _ => Unit
  | .publish _ _ => Bool
  | .produce _ _ _ => Bool
  | .insertMessages _ => Bool

/-- The operation is an SQL statement. -/
def Effect.isStatement : Effect → Bool
  | .selectGroup _ _ | .insertGroupMember _ _ _ | .deleteGroupMember _ _ | .upsertGroup _ _ _ _
  | .insertMessages _ => true
  | .now | .newV4 | .joinGroup _ _ _ | .leaveGroup _ _ _ | .createGroup _ _ | .deleteGroup _ _
  | .isUserInGroup _ _ _ | .sendMsgToUser _ _ _ | .publish _ _ | .produce _ _ _ => false

/-- A task over the operations. -/
abbrev Handler := Prog Effect Effect.Answer

/-- The parts of `AppState` that the handler reads: whether there is a Kafka producer, and
SHA-256 cut to 16 bytes. -/
structure AppState where
  kafka : Bool
  sha256Prefix : String → Uuid

def MAX_PAYLOAD_SIZE : Nat := 64 * 1024

namespace Handler

def perform (op : Effect) : Handler op.Answer := Prog.perform op

/-- `RedisManager::publish`. -/
def publish (userId : String) (msg : ServerMessage) : Handler Bool :=
  perform (.publish (userChannel msg.tenantId userId) msg)

/-- `RedisManager::publish_grp`. -/
def publishGrp (groupId : String) (msg : ServerMessage) : Handler Bool :=
  perform (.publish (groupChannel groupId) msg)

/-- `persist_message`. -/
def persistMessage (state : AppState) (msg : ServerMessage) : Handler Unit := do
  if state.kafka then
    let _ ← perform (.produce "messages" msg.channelId msg)
    pure ()
  else
    let insert (rows : List MessageRow) : Handler Bool := perform (.insertMessages rows)
    let batcher ← MessageBatcher.new.push insert msg
    let _ ← batcher.flush insert
    pure ()

/-- The notice of a group command. -/
def groupNotice (identity : Identity) (groupId msgType : String) (conversationId : Uuid)
    (text : String) : Handler ServerMessage := do
  let messageId ← perform .newV4
  let timestamp ← perform .now
  return { msgType, messageId, tenantId := identity.tenantId, channelId := groupId,
           channelType := .group, senderId := identity.userId, timestamp, conversationId,
           payload := { text, metadata := "\x7b\x7d" } }

/-- `group_id.parse::<Uuid>().unwrap_or_else(|_| Uuid::new_v4())`. -/
def parseOrNew (text : String) : Handler Uuid :=
  match parseUuid text with
  | some id => pure id
  | none => perform .newV4

/-- `GroupMessageType::Join`. -/
def handleJoin (identity : Identity) (groupId : String) : Handler Unit := do
  match ← perform (.selectGroup identity.tenantId groupId) with
  | none => pure ()
  | some conversationId =>
      let _ ← perform (.insertGroupMember conversationId identity.tenantId identity.userId)
      perform (.joinGroup identity.tenantId groupId identity.userId)
      let serverMsg ← groupNotice identity groupId "group_join" conversationId
        (identity.userId ++ " has joined the group")
      let _ ← publishGrp groupId serverMsg
      pure ()

/-- `GroupMessageType::Leave`. -/
def handleLeave (identity : Identity) (groupId : String) : Handler Unit := do
  let conversationId ← parseOrNew groupId
  let _ ← perform (.deleteGroupMember conversationId identity.userId)
  perform (.leaveGroup identity.tenantId groupId identity.userId)
  let serverMsg ← groupNotice identity groupId "group_leave" conversationId
    (identity.userId ++ " has left the group")
  let _ ← publishGrp groupId serverMsg
  pure ()

/-- `GroupMessageType::Create`. -/
def handleCreate (identity : Identity) (groupId : String) : Handler Unit := do
  let conversationId ← parseOrNew groupId
  match ← perform (.upsertGroup conversationId identity.tenantId groupId identity.userId) with
  | none => pure ()
  | some conversationId =>
      let _ ← perform (.insertGroupMember conversationId identity.tenantId identity.userId)
      perform (.createGroup identity.tenantId groupId)
      perform (.joinGroup identity.tenantId groupId identity.userId)
      let serverMsg ← groupNotice identity groupId "group_created" conversationId
        ("Group " ++ groupId ++ " created by " ++ identity.userId)
      let _ ← publishGrp groupId serverMsg
      pure ()

/-- `GroupMessageType::Delete`. -/
def handleDelete (identity : Identity) (groupId : String) : Handler Unit :=
  perform (.deleteGroup identity.tenantId groupId)

/-- `ChannelType::Dm`. -/
def handleDm (state : AppState) (identity : Identity) (payload : WsMessage) : Handler Unit := do
  let messageId ← perform .newV4
  let timestamp ← perform .now
  let serverMsg : ServerMessage :=
    { messageId, msgType := "chat", tenantId := identity.tenantId,
      channelType := payload.channelType, channelId := payload.userId,
      senderId := identity.userId,
      conversationId :=
        generateDmConversationId state.sha256Prefix identity.userId payload.userId,
      timestamp, payload := { text := payload.content, metadata := "\x7b\x7d" } }
  let _ ← publish payload.userId serverMsg
  let _ ← publish identity.userId serverMsg
  persistMessage state serverMsg

/-- `ChannelType::Group | ChannelType::Community`. -/
def handleGroupChat (state : AppState) (identity : Identity) (payload : WsMessage) :
    Handler Unit := do
  if !(← perform (.isUserInGroup identity.tenantId payload.userId identity.userId)) then
    perform (.sendMsgToUser identity.tenantId identity.userId
      (.text "You must join the group before sending messages"))
  else
    let messageId ← perform .newV4
    let timestamp ← perform .now
    let conversationId ← parseOrNew payload.userId
    let serverMsg : ServerMessage :=
      { messageId, msgType := "chat", tenantId := identity.tenantId,
        channelType := payload.channelType, channelId := payload.userId,
        senderId := identity.userId, timestamp, conversationId,
        payload := { text := payload.content, metadata := "\x7b\x7d" } }
    let _ ← publishGrp payload.userId serverMsg
    persistMessage state serverMsg

/-- `handle_text_message`. -/
def handleTextMessage (text : TextFrame) (identity : Identity) (state : AppState) :
    Handler Unit :=
  match text.groupMessage with
  | some groupState =>
      match groupState.msgType with
      | .join => handleJoin identity groupState.groupId
      | .leave => handleLeave identity groupState.groupId
      | .create => handleCreate identity groupState.groupId
      | .delete => handleDelete identity groupState.groupId
  | none =>
      match text.wsMessage with
      | some payload =>
          if payload.content.utf8ByteSize > MAX_PAYLOAD_SIZE then
            perform (.sendMsgToUser identity.tenantId identity.userId (.text "Payload too large"))
          else
            match payload.channelType with
            | .dm => handleDm state identity payload
            | .group => handleGroupChat state identity payload
            | .community => handleGroupChat state identity payload
      | none => pure ()

/-! ### The commands, operation by operation -/

/-- The message of `groupNotice`. -/
def notice (identity : Identity) (groupId msgType : String) (conversationId : Uuid)
    (text : String) (messageId : Uuid) (timestamp : UInt64) : ServerMessage :=
  { msgType, messageId, tenantId := identity.tenantId, channelId := groupId,
    channelType := .group, senderId := identity.userId, timestamp, conversationId,
    payload := { text, metadata := "\x7b\x7d" } }

section Equations

variable (state : AppState) (identity : Identity) (groupId : String)

theorem handleJoin_eq : handleJoin identity groupId =
    .call (.selectGroup identity.tenantId groupId) fun (found : Option Uuid) =>
      match found with
      | none => .ret ()
      | some conversationId =>
          .call (.insertGroupMember conversationId identity.tenantId identity.userId) fun _ =>
            .call (.joinGroup identity.tenantId groupId identity.userId) fun _ =>
              .call .newV4 fun messageId => .call .now fun timestamp =>
                .call (.publish (groupChannel groupId)
                  (notice identity groupId "group_join" conversationId
                    (identity.userId ++ " has joined the group") messageId timestamp)) fun _ =>
                  .ret () := by
  refine congrArg (Prog.call _) (funext fun (found : Option Uuid) => ?_)
  cases found <;> rfl

theorem handleLeave_eq : handleLeave identity groupId =
    (parseOrNew groupId >>= fun conversationId =>
      .call (.deleteGroupMember conversationId identity.userId) fun _ =>
        .call (.leaveGroup identity.tenantId groupId identity.userId) fun _ =>
          .call .newV4 fun messageId => .call .now fun timestamp =>
            .call (.publish (groupChannel groupId)
              (notice identity groupId "group_leave" conversationId
                (identity.userId ++ " has left the group") messageId timestamp)) fun _ =>
              .ret ()) := rfl

theorem handleCreate_eq : handleCreate identity groupId =
    (parseOrNew groupId >>= fun conversationId =>
      .call (.upsertGroup conversationId identity.tenantId groupId identity.userId)
        fun (created : Option Uuid) =>
        match created with
        | none => .ret ()
        | some conversationId =>
            .call (.insertGroupMember conversationId identity.tenantId identity.userId) fun _ =>
              .call (.createGroup identity.tenantId groupId) fun _ =>
                .call (.joinGroup identity.tenantId groupId identity.userId) fun _ =>
                  .call .newV4 fun messageId => .call .now fun timestamp =>
                    .call (.publish (groupChannel groupId)
                      (notice identity groupId "group_created" conversationId
                        ("Group " ++ groupId ++ " created by " ++ identity.userId) messageId
                        timestamp)) fun _ =>
                      .ret ()) := by
  refine congrArg (parseOrNew groupId >>= ·) (funext fun conversationId => ?_)
  refine congrArg (Prog.call _) (funext fun (created : Option Uuid) => ?_)
  cases created <;> rfl

/-- Without Kafka a message is inserted as a batch of one. -/
theorem persistMessage_eq (msg : ServerMessage) : persistMessage state msg =
    if state.kafka then .call (.produce "messages" msg.channelId msg) fun _ => .ret ()
    else .call (.insertMessages [msg.row]) fun _ => .ret () := by
  unfold persistMessage
  cases state.kafka with
  | true => rfl
  | false =>
      let insert : List MessageRow → Handler Bool := fun rows => perform (.insertMessages rows)
      have pushed := MessageBatcher.push_small insert MessageBatcher.new msg (by decide)
      have flushed := MessageBatcher.flush_rows insert ⟨[msg], 1000⟩
      change (MessageBatcher.new.push insert msg >>= fun batcher =>
        batcher.flush insert >>= fun _ => pure ()) = _
      rw [pushed]
      change (MessageBatcher.flush insert ⟨[msg], 1000⟩ >>= fun _ => pure ()) = _
      rw [flushed]
      rfl

/-- The message of a chat frame. -/
def chatMessage (payload : WsMessage) (conversationId messageId : Uuid) (timestamp : UInt64) :
    ServerMessage :=
  { messageId, msgType := "chat", tenantId := identity.tenantId,
    channelType := payload.channelType, channelId := payload.userId,
    senderId := identity.userId, conversationId, timestamp,
    payload := { text := payload.content, metadata := "\x7b\x7d" } }

/-- The message of a direct chat. -/
def dmMessage (payload : WsMessage) (messageId : Uuid) (timestamp : UInt64) : ServerMessage :=
  chatMessage identity payload
    (generateDmConversationId state.sha256Prefix identity.userId payload.userId) messageId timestamp

theorem handleDm_eq (payload : WsMessage) : handleDm state identity payload =
    .call .newV4 fun messageId => .call .now fun timestamp =>
      .call (.publish (userChannel identity.tenantId payload.userId)
        (dmMessage state identity payload messageId timestamp)) fun _ =>
        .call (.publish (userChannel identity.tenantId identity.userId)
          (dmMessage state identity payload messageId timestamp)) fun _ =>
          persistMessage state (dmMessage state identity payload messageId timestamp) := rfl

theorem handleGroupChat_eq (payload : WsMessage) : handleGroupChat state identity payload =
    .call (.isUserInGroup identity.tenantId payload.userId identity.userId) fun (member : Bool) =>
      match member with
      | false => .call (.sendMsgToUser identity.tenantId identity.userId
          (.text "You must join the group before sending messages")) .ret
      | true => .call .newV4 fun messageId => .call .now fun timestamp =>
          parseOrNew payload.userId >>= fun conversationId =>
            .call (.publish (groupChannel payload.userId)
              (chatMessage identity payload conversationId messageId timestamp)) fun _ =>
              persistMessage state
                (chatMessage identity payload conversationId messageId timestamp) := by
  refine congrArg (Prog.call _) (funext fun (member : Bool) => ?_)
  cases member <;> rfl

end Equations

end Handler

/-! ### What a frame can do -/

/-- The group command of a frame and its group. -/
def TextFrame.command (text : TextFrame) : Option (GroupMessageType × String) :=
  text.groupMessage.map fun groupState => (groupState.msgType, groupState.groupId)

/-- A message that makes its sender a member at every listener. -/
def ServerMessage.Announces (msg : ServerMessage) (tenantId groupId userId : String) : Prop :=
  msg.msgType = "group_join" ∧ msg.tenantId = tenantId ∧ msg.channelId = groupId ∧
    msg.senderId = userId

instance (msg : ServerMessage) (tenantId groupId userId : String) :
    Decidable (msg.Announces tenantId groupId userId) := by
  unfold ServerMessage.Announces; infer_instance

namespace Effect

/-- The operation publishes a join of a user. -/
def Announces (tenantId groupId userId : String) : Effect → Prop
  | .publish _ msg => msg.Announces tenantId groupId userId
  | _ => False

/-- What a frame of an identity may do: its operations are on that identity and on the
group of its command, and what it publishes is signed with that identity. -/
def OfFrame (text : TextFrame) (identity : Identity) : Effect → Prop
  | .joinGroup t g u => t = identity.tenantId ∧ u = identity.userId ∧
      (text.command = some (.join, g) ∨ text.command = some (.create, g))
  | .leaveGroup t g u => t = identity.tenantId ∧ u = identity.userId ∧
      text.command = some (.leave, g)
  | .createGroup t g => t = identity.tenantId ∧ text.command = some (.create, g)
  | .deleteGroup t g => t = identity.tenantId ∧ text.command = some (.delete, g)
  | .upsertGroup _ t g u => t = identity.tenantId ∧ u = identity.userId ∧
      text.command = some (.create, g)
  | .sendMsgToUser t u msg => t = identity.tenantId ∧ u = identity.userId ∧
      ∃ words, msg = .text words
  | .publish channel msg => copies channel = 1 ∧ msg.tenantId = identity.tenantId ∧
      msg.senderId = identity.userId ∧
      (msg.msgType = "group_join" →
        msg.channelType = .group ∧ text.command = some (.join, msg.channelId))
  | .now | .newV4 | .selectGroup _ _ | .insertGroupMember _ _ _ | .deleteGroupMember _ _
  | .isUserInGroup _ _ _ | .produce _ _ _ | .insertMessages _ => True

end Effect

namespace Handler

section Frames

variable {text : TextFrame} {identity : Identity} {state : AppState} {groupId : String}

theorem always_parseOrNew {P : Effect → Prop} (newV4 : P .newV4) (words : String) :
    (parseOrNew words).Always P := by
  unfold parseOrNew
  cases parseUuid words with
  | none => exact ⟨newV4, fun _ => trivial⟩
  | some id => trivial

theorem ofFrame_persistMessage (msg : ServerMessage) :
    (persistMessage state msg).Always (Effect.OfFrame text identity) := by
  rw [persistMessage_eq]
  split
  · exact ⟨trivial, fun _ => trivial⟩
  · exact ⟨trivial, fun _ => trivial⟩

theorem ofFrame_handleJoin (command : text.command = some (.join, groupId)) :
    (handleJoin identity groupId).Always (Effect.OfFrame text identity) := by
  rw [handleJoin_eq]
  refine ⟨trivial, fun found => ?_⟩
  cases found with
  | none => trivial
  | some conversationId =>
      refine ⟨trivial, fun _ => ⟨⟨rfl, rfl, .inl command⟩, fun _ => ⟨trivial, fun messageId =>
        ⟨trivial, fun timestamp => ⟨⟨copies_groupChannel _, rfl, rfl, fun _ => ⟨rfl, command⟩⟩,
          fun _ => trivial⟩⟩⟩⟩⟩

theorem ofFrame_handleLeave (command : text.command = some (.leave, groupId)) :
    (handleLeave identity groupId).Always (Effect.OfFrame text identity) := by
  rw [handleLeave_eq]
  refine (always_parseOrNew trivial groupId).bind fun conversationId => ?_
  refine ⟨trivial, fun _ => ⟨⟨rfl, rfl, command⟩, fun _ => ⟨trivial, fun messageId =>
    ⟨trivial, fun timestamp => ⟨⟨copies_groupChannel _, rfl, rfl, fun join => ?_⟩, fun _ =>
      trivial⟩⟩⟩⟩⟩
  simp [notice] at join

theorem ofFrame_handleCreate (command : text.command = some (.create, groupId)) :
    (handleCreate identity groupId).Always (Effect.OfFrame text identity) := by
  rw [handleCreate_eq]
  refine (always_parseOrNew trivial groupId).bind fun conversationId => ?_
  refine ⟨⟨rfl, rfl, command⟩, fun created => ?_⟩
  cases created with
  | none => trivial
  | some conversationId =>
      refine ⟨trivial, fun _ => ⟨⟨rfl, command⟩, fun _ => ⟨⟨rfl, rfl, .inr command⟩, fun _ =>
        ⟨trivial, fun messageId => ⟨trivial, fun timestamp =>
          ⟨⟨copies_groupChannel _, rfl, rfl, fun join => ?_⟩, fun _ => trivial⟩⟩⟩⟩⟩⟩
      simp [notice] at join

theorem ofFrame_handleDm (payload : WsMessage) :
    (handleDm state identity payload).Always (Effect.OfFrame text identity) := by
  have chat : ∀ messageId timestamp,
      (dmMessage state identity payload messageId timestamp).msgType ≠ "group_join" := by
    intro messageId timestamp
    simp [dmMessage, chatMessage]
  rw [handleDm_eq]
  refine ⟨trivial, fun messageId => ⟨trivial, fun timestamp =>
    ⟨⟨copies_userChannel _ _, rfl, rfl, fun join => ?_⟩, fun _ =>
      ⟨⟨copies_userChannel _ _, rfl, rfl, fun join => ?_⟩, fun _ =>
        ofFrame_persistMessage _⟩⟩⟩⟩
  · exact absurd join (chat messageId timestamp)
  · exact absurd join (chat messageId timestamp)

theorem ofFrame_handleGroupChat (payload : WsMessage) :
    (handleGroupChat state identity payload).Always (Effect.OfFrame text identity) := by
  rw [handleGroupChat_eq]
  refine ⟨trivial, fun member => ?_⟩
  cases member with
  | false => exact ⟨⟨rfl, rfl, _, rfl⟩, fun _ => trivial⟩
  | true =>
      refine ⟨trivial, fun messageId => ⟨trivial, fun timestamp =>
        (always_parseOrNew trivial _).bind fun conversationId => ?_⟩⟩
      refine ⟨⟨copies_groupChannel _, rfl, rfl, fun join => ?_⟩, fun _ =>
        ofFrame_persistMessage _⟩
      simp [chatMessage] at join

/-- Whatever a frame holds, its handler keeps to the identity of the connection and to
the group of its command. -/
theorem ofFrame_handleTextMessage (text : TextFrame) (identity : Identity) (state : AppState) :
    (handleTextMessage text identity state).Always (Effect.OfFrame text identity) := by
  unfold handleTextMessage
  cases group : text.groupMessage with
  | some groupState =>
      have command : text.command = some (groupState.msgType, groupState.groupId) := by
        rw [TextFrame.command, group]
        rfl
      simp only
      cases kind : groupState.msgType with
      | join => exact ofFrame_handleJoin (kind ▸ command)
      | leave => exact ofFrame_handleLeave (kind ▸ command)
      | create => exact ofFrame_handleCreate (kind ▸ command)
      | delete => exact ⟨⟨rfl, kind ▸ command⟩, fun _ => trivial⟩
  | none =>
      simp only
      cases text.wsMessage with
      | none => trivial
      | some payload =>
          simp only
          split
          · exact ⟨⟨rfl, rfl, _, rfl⟩, fun _ => trivial⟩
          · cases payload.channelType with
            | dm => exact ofFrame_handleDm payload
            | group => exact ofFrame_handleGroupChat payload
            | community => exact ofFrame_handleGroupChat payload

/-- What a frame may publish is signed with the identity of its connection. -/
theorem publish_of_frame {channel : String} {msg : ServerMessage}
    (may : (handleTextMessage text identity state).May (· = .publish channel msg)) :
    msg.tenantId = identity.tenantId ∧ msg.senderId = identity.userId ∧
      (msg.msgType = "group_join" →
        msg.channelType = .group ∧ text.command = some (.join, msg.channelId)) := by
  obtain ⟨_, own, rfl⟩ := (ofFrame_handleTextMessage text identity state).of_may may
  exact own.2

end Frames

/-! ### Membership and its announcement -/

section Announcements

variable (text : TextFrame) (identity : Identity) (state : AppState) (t g u : String)

/-- The handler of a frame with a group command. -/
theorem handleTextMessage_command {kind : GroupMessageType} {groupId : String}
    (command : text.command = some (kind, groupId)) :
    handleTextMessage text identity state =
      match kind with
      | .join => handleJoin identity groupId
      | .leave => handleLeave identity groupId
      | .create => handleCreate identity groupId
      | .delete => handleDelete identity groupId := by
  unfold TextFrame.command at command
  obtain ⟨⟨msgType, name⟩, parsed, same⟩ := Option.map_eq_some_iff.mp command
  obtain ⟨rfl, rfl⟩ := Prod.mk.inj same
  unfold handleTextMessage
  rw [parsed]
  cases msgType <;> rfl

theorem handleTextMessage_join {groupId : String} (command : text.command = some (.join, groupId)) :
    handleTextMessage text identity state = handleJoin identity groupId :=
  handleTextMessage_command text identity state command

theorem handleTextMessage_leave {groupId : String}
    (command : text.command = some (.leave, groupId)) :
    handleTextMessage text identity state = handleLeave identity groupId :=
  handleTextMessage_command text identity state command

theorem handleTextMessage_create {groupId : String}
    (command : text.command = some (.create, groupId)) :
    handleTextMessage text identity state = handleCreate identity groupId :=
  handleTextMessage_command text identity state command

/-- A handler announces a join only after it joined. -/
theorem before_handleTextMessage : (handleTextMessage text identity state).Before
    (· = .joinGroup t g u) (Effect.Announces t g u) := by
  by_cases join : ∃ groupId, text.command = some (.join, groupId)
  · obtain ⟨groupId, command⟩ := join
    rw [handleTextMessage_join text identity state command, handleJoin_eq]
    refine .inr ⟨id, fun found => ?_⟩
    cases found with
    | none => trivial
    | some conversationId =>
        refine .inr ⟨id, fun _ => ?_⟩
        by_cases own : Effect.joinGroup identity.tenantId groupId identity.userId = .joinGroup t g u
        · exact .inl own
        · refine .inr ⟨id, fun _ => .inr ⟨id, fun _ => .inr ⟨id, fun _ => .inr ⟨?_, fun _ =>
            trivial⟩⟩⟩⟩
          rintro ⟨_, rfl, rfl, rfl⟩
          exact own rfl
  · refine Prog.Always.before ((ofFrame_handleTextMessage text identity state).mono ?_)
    intro op own announces
    cases op with
    | publish channel msg =>
        obtain ⟨_, _, _, joins⟩ := own
        exact join ⟨_, (joins announces.1).2⟩
    | _ => exact announces

/-- Only a `CREATE` joins without announcing it. -/
theorem followed_handleTextMessage (other : text.command ≠ some (.create, g)) :
    (handleTextMessage text identity state).Followed (fun _ _ => True) (· = .joinGroup t g u)
      (Effect.Announces t g u) := by
  by_cases join : text.command = some (.join, g)
  · rw [handleTextMessage_join text identity state join, handleJoin_eq]
    refine ⟨fun same => (nomatch same), fun found => ?_⟩
    cases found with
    | none => trivial
    | some conversationId =>
        refine ⟨fun same => (nomatch same), fun _ => ⟨fun same _ _ => ?_, fun _ =>
          ⟨fun same => (nomatch same), fun _ => ⟨fun same => (nomatch same), fun _ =>
            ⟨fun same => (nomatch same), fun _ => trivial⟩⟩⟩⟩⟩
        obtain ⟨rfl, rfl⟩ : identity.tenantId = t ∧ identity.userId = u := by
          injection same with tenant _ user
          exact ⟨tenant, user⟩
        exact .inr fun _ _ => .inr fun _ _ => .inl ⟨rfl, rfl, rfl, rfl⟩
  · refine Prog.Always.followed ((ofFrame_handleTextMessage text identity state).mono ?_)
    rintro op own rfl
    obtain ⟨_, _, command | command⟩ := own
    · exact join command
    · exact other command

end Announcements

end Handler

end YappaCore
