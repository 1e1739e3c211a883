import YappaCore.Server.Broadcast
import YappaCore.Server.Persisted

/-!
What the frames of one connection become, in any run of any number of nodes.

The handlers of all connections interleave, but those of one connection run one after the other
(`course`): what it did is the handler of its first frame, then that of the second, and so on.
`persisted_in_order`: the messages persisted for a connection are its chats, in the order of the
frames and at most one for each. `sender_order`: every inbox has the messages of one connection in
the order of its frames. `chats_persisted`: where nothing fails no accepted chat is left out.
-/

namespace YappaCore

open Lib Handler

/-! ### Operations with their answers -/

/-- An operation that was performed, and its answer. -/
abbrev Act := (op : Effect) × op.Answer

namespace Act

/-- A publish, a produce or an insert of messages went through. -/
def done : Act → Bool
  | ⟨.publish _ _, (ok : Bool)⟩ => ok
  | ⟨.produce _ _ _, (ok : Bool)⟩ => ok
  | ⟨.insertMessages _, (ok : Bool)⟩ => ok
  | _ => true

/-- The messages that it stored or produced. -/
def stored (act : Act) : List MessageRow := if act.done then act.1.written else []

/-- It checked a membership and found none. -/
def refused : Act → Bool
  | ⟨.isUserInGroup _ _ _, (member : Bool)⟩ => !member
  | _ => false

/-- What it put into every stream. -/
def sent : Act → List ServerMessage
  | ⟨.publish channel msg, (ok : Bool)⟩ => if ok then List.replicate (copies channel) msg else []
  | _ => []

end Act

/-! ### What a handler stores and sends -/

/-- The chat of a frame; one that is also a command is handled as the command. -/
def TextFrame.chat (text : TextFrame) : Option WsMessage :=
  match text.groupMessage with
  | some _ => none
  | none => text.wsMessage

/-- The type of the message that announces a command. -/
def GroupMessageType.notice : GroupMessageType → Option String
  | .join => some "group_join"
  | .leave => some "group_leave"
  | .create => some "group_created"
  | .delete => none

/-- The message is the frame's: a chat with its content to its recipient, or the notice of its
command. -/
structure TextFrame.Says (text : TextFrame) (identity : Identity) (msg : ServerMessage) : Prop where
  tenant : msg.tenantId = identity.tenantId
  sender : msg.senderId = identity.userId
  content : (∃ payload, text.chat = some payload ∧ msg.msgType = "chat" ∧
      msg.channelType = payload.channelType ∧ msg.channelId = payload.userId ∧
      msg.payload.text = payload.content) ∨
    ∃ kind, text.command = some (kind, msg.channelId) ∧ kind.notice = some msg.msgType ∧
      msg.channelType = .group

/-- The row is the frame's chat. -/
structure TextFrame.Chats (text : TextFrame) (identity : Identity) (row : MessageRow) : Prop where
  tenant : row.tenantId = identity.tenantId
  sender : row.senderId = identity.userId
  chats : ∃ payload, text.chat = some payload ∧ row.channelType = payload.channelType.debug ∧
    row.channelId = payload.userId ∧ row.content = payload.content

/-- What the handler of a frame stores: its chat, or nothing. -/
def TextFrame.Stores (text : TextFrame) (identity : Identity) (rows : List MessageRow) : Prop :=
  rows = [] ∨ ∃ row, text.Chats identity row ∧ rows = [row]

/-- What the handler of a frame sends: nothing, or one message, and a direct message to one channel
or to two. -/
def TextFrame.Sends (text : TextFrame) (identity : Identity) (msgs : List ServerMessage) : Prop :=
  msgs = [] ∨ ∃ msg, text.Says identity msg ∧
    (msgs = [msg] ∨ (msg.channelType = .dm ∧ msgs = [msg, msg]))

namespace Handler

/-- An operation that stores no message, whatever its answer. -/
def Unstored (op : Effect) : Prop := op.written = []

theorem stored_of_unstored {op : Effect} (silent : Unstored op) (answer : op.Answer) :
    Act.stored ⟨op, answer⟩ = [] := by
  unfold Act.stored
  rw [silent, ite_self]

section Stores

variable {text : TextFrame} {identity : Identity} {state : AppState} {groupId : String}
  {R : List MessageRow → Prop}

/-- Where nothing else is stored, a message is stored, or it is not. -/
theorem yields_persistMessage {msg : ServerMessage} (nil : R []) (one : R [msg.row]) :
    (persistMessage state msg).Yields Act.stored R := by
  have write : ∀ op (next : op.Answer → Handler Unit), op.written = [msg.row] →
      (∀ answer, next answer = .ret ()) → (Prog.call op next).Yields Act.stored R := by
    intro op next written ends
    refine ⟨nil, fun answer => ?_⟩
    rw [ends answer]
    change R (Act.stored ⟨op, answer⟩ ++ [])
    rw [List.append_nil]
    unfold Act.stored
    rw [written]
    split
    · exact one
    · exact nil
  rw [persistMessage_eq]
  split
  · exact write (.produce "messages" msg.channelId msg) _ rfl fun _ => rfl
  · exact write (.insertMessages [msg.row]) _ rfl fun _ => rfl

theorem yields_parseOrNew {O : Type} {out : Act → List O} {R : List O → Prop} (nil : R [])
    (silent : ∀ id : Uuid, out ⟨.newV4, id⟩ = []) (words : String) {f : Uuid → Handler Unit}
    (rest : ∀ id, (f id).Yields out R) : (parseOrNew words >>= f).Yields out R := by
  unfold parseOrNew
  cases parseUuid words with
  | some id => exact rest id
  | none => exact .call nil silent rest

theorem yields_handleDm {payload : WsMessage} (nil : R [])
    (one : ∀ id time, R [(dmMessage state identity payload id time).row]) :
    (handleDm state identity payload).Yields Act.stored R := by
  rw [handleDm_eq]
  exact .call nil (stored_of_unstored rfl) fun id => .call nil (stored_of_unstored rfl) fun time =>
    .call nil (stored_of_unstored rfl) fun _ => .call nil (stored_of_unstored rfl) fun _ =>
      yields_persistMessage nil (one id time)

theorem yields_handleGroupChat {payload : WsMessage} (nil : R [])
    (one : ∀ c id time, R [(chatMessage identity payload c id time).row]) :
    (handleGroupChat state identity payload).Yields Act.stored R := by
  rw [handleGroupChat_eq]
  refine .call nil (stored_of_unstored rfl) fun member => ?_
  cases member with
  | false => exact .call nil (stored_of_unstored rfl) fun _ => nil
  | true =>
      exact .call nil (stored_of_unstored rfl) fun id =>
        .call nil (stored_of_unstored rfl) fun time =>
          yields_parseOrNew nil (fun _ => rfl) _ fun c =>
            .call nil (stored_of_unstored rfl) fun _ => yields_persistMessage nil (one c id time)

/-- A command stores no message. -/
theorem unstored_command {kind : GroupMessageType} (command : text.command = some (kind, groupId)) :
    (handleTextMessage text identity state).Always Unstored := by
  have silent : Unstored .newV4 := rfl
  rw [handleTextMessage_command text identity state command]
  cases kind with
  | join =>
      simp only
      rw [handleJoin_eq]
      refine ⟨rfl, fun found => ?_⟩
      cases found with
      | none => trivial
      | some id => exact ⟨rfl, fun _ => ⟨rfl, fun _ => ⟨rfl, fun _ => ⟨rfl, fun _ =>
          ⟨rfl, fun _ => trivial⟩⟩⟩⟩⟩
  | leave =>
      simp only
      rw [handleLeave_eq]
      exact (always_parseOrNew silent groupId).bind fun id => ⟨rfl, fun _ => ⟨rfl, fun _ =>
        ⟨rfl, fun _ => ⟨rfl, fun _ => ⟨rfl, fun _ => trivial⟩⟩⟩⟩⟩
  | create =>
      simp only
      rw [handleCreate_eq]
      refine (always_parseOrNew silent groupId).bind fun id => ⟨rfl, fun created => ?_⟩
      cases created with
      | none => trivial
      | some id => exact ⟨rfl, fun _ => ⟨rfl, fun _ => ⟨rfl, fun _ => ⟨rfl, fun _ =>
          ⟨rfl, fun _ => ⟨rfl, fun _ => trivial⟩⟩⟩⟩⟩⟩
  | delete => exact ⟨rfl, fun _ => trivial⟩

/-- The row of a chat's message. -/
theorem chats_row {payload : WsMessage} (chat : text.chat = some payload) (c id : Uuid)
    (time : UInt64) : text.Chats identity (chatMessage identity payload c id time).row :=
  ⟨rfl, rfl, payload, chat, rfl, rfl, rfl⟩

/-- The handler of a chat, or of a frame that is neither command nor chat. -/
theorem handleTextMessage_chat (plain : text.command = none) :
    handleTextMessage text identity state = match text.chat with
      | some payload =>
          if payload.content.utf8ByteSize > MAX_PAYLOAD_SIZE then
            perform (.sendMsgToUser identity.tenantId identity.userId (.text "Payload too large"))
          else if payload.channelType = .dm then handleDm state identity payload
          else handleGroupChat state identity payload
      | none => pure () := by
  have noGroup : text.groupMessage = none := by simpa [TextFrame.command] using plain
  unfold handleTextMessage TextFrame.chat
  rw [noGroup]
  simp only
  cases text.wsMessage with
  | none => rfl
  | some payload =>
      simp only
      cases type : payload.channelType <;> rfl

/-- The handler of a frame stores its chat, or nothing. -/
theorem yields_stored (text : TextFrame) (identity : Identity) (state : AppState) :
    (handleTextMessage text identity state).Yields Act.stored (text.Stores identity) := by
  have nil : text.Stores identity [] := .inl rfl
  cases command : text.command with
  | some pair =>
      have silent := @unstored_command text identity state _ _ command
      exact (silent.mono fun _ => stored_of_unstored).yields nil
  | none =>
      rw [handleTextMessage_chat command]
      cases chat : text.chat with
      | none => exact nil
      | some payload =>
          simp only
          split
          · exact .call nil (stored_of_unstored rfl) fun _ => nil
          · split
            · exact yields_handleDm nil fun id time => .inr ⟨_, chats_row chat _ id time, rfl⟩
            · exact yields_handleGroupChat nil fun c id time =>
                .inr ⟨_, chats_row chat c id time, rfl⟩

end Stores

section Sends

variable {text : TextFrame} {identity : Identity} {state : AppState} {groupId : String}
  {R : List ServerMessage → Prop}

/-- A publish sends its message, or it does not. -/
theorem yields_publish {channel : String} (single : copies channel = 1) {msg : ServerMessage}
    {next : Bool → Handler Unit} (nil : R []) (failed : (next false).Yields Act.sent R)
    (sent : (next true).Yields Act.sent fun msgs => R (msg :: msgs)) :
    (Prog.call (.publish channel msg) next : Handler Unit).Yields Act.sent R := by
  refine ⟨nil, fun (ok : Bool) => ?_⟩
  cases ok with
  | false => exact failed
  | true =>
      have one : Act.sent ⟨.publish channel msg, true⟩ = [msg] := by
        simp only [Act.sent, if_true, single, List.replicate_one]
      rw [one]
      exact sent

theorem yields_notice {msg : ServerMessage} (nil : R []) (one : R [msg]) :
    (Prog.call (.publish (groupChannel groupId) msg) fun _ => .ret () : Handler Unit).Yields
      Act.sent R :=
  yields_publish (copies_groupChannel groupId) nil nil one

/-- What stores a message sends nothing. -/
theorem unsent_persistMessage {msg : ServerMessage} (nil : R []) :
    (persistMessage state msg).Yields Act.sent R := by
  rw [persistMessage_eq]
  split
  · exact .call nil (fun _ => rfl) fun _ => nil
  · exact .call nil (fun _ => rfl) fun _ => nil

theorem sends_command {kind : GroupMessageType} (command : text.command = some (kind, groupId))
    (nil : R []) (one : ∀ msg, text.Says identity msg → R [msg]) :
    (handleTextMessage text identity state).Yields Act.sent R := by
  have told : ∀ name, kind.notice = some name → ∀ c words id time,
      R [notice identity groupId name c words id time] :=
    fun name own c words id time => one _ ⟨rfl, rfl, .inr ⟨kind, command, own, rfl⟩⟩
  rw [handleTextMessage_command text identity state command]
  cases kind with
  | join =>
      simp only
      rw [handleJoin_eq]
      refine .call nil (fun _ => rfl) fun found => ?_
      cases found with
      | none => exact nil
      | some id =>
          exact .call nil (fun _ => rfl) fun _ => .call nil (fun _ => rfl) fun _ =>
            .call nil (fun _ => rfl) fun _ => .call nil (fun _ => rfl) fun _ =>
              yields_notice nil (told _ rfl _ _ _ _)
  | leave =>
      simp only
      rw [handleLeave_eq]
      exact yields_parseOrNew nil (fun _ => rfl) _ fun id => .call nil (fun _ => rfl) fun _ =>
        .call nil (fun _ => rfl) fun _ => .call nil (fun _ => rfl) fun _ =>
          .call nil (fun _ => rfl) fun _ => yields_notice nil (told _ rfl _ _ _ _)
  | create =>
      simp only
      rw [handleCreate_eq]
      refine yields_parseOrNew nil (fun _ => rfl) _ fun id => ?_
      refine .call nil (fun _ => rfl) fun created => ?_
      cases created with
      | none => exact nil
      | some id =>
          exact .call nil (fun _ => rfl) fun _ => .call nil (fun _ => rfl) fun _ =>
            .call nil (fun _ => rfl) fun _ => .call nil (fun _ => rfl) fun _ =>
              .call nil (fun _ => rfl) fun _ => yields_notice nil (told _ rfl _ _ _ _)
  | delete => exact .call nil (fun _ => rfl) fun _ => nil

/-- The handler of a frame sends one message, to one channel or a direct one to two, or nothing. -/
theorem yields_sent (text : TextFrame) (identity : Identity) (state : AppState) :
    (handleTextMessage text identity state).Yields Act.sent (text.Sends identity) := by
  have nil : text.Sends identity [] := .inl rfl
  cases command : text.command with
  | some pair => exact sends_command command nil fun msg own => .inr ⟨msg, own, .inl rfl⟩
  | none =>
      rw [handleTextMessage_chat command]
      cases chat : text.chat with
      | none => exact nil
      | some payload =>
          have chats : ∀ c id time, text.Says identity (chatMessage identity payload c id time) :=
            fun c id time => ⟨rfl, rfl, .inl ⟨payload, chat, rfl, rfl, rfl, rfl⟩⟩
          have one : ∀ c id time, text.Sends identity [chatMessage identity payload c id time] :=
            fun c id time => .inr ⟨_, chats c id time, .inl rfl⟩
          simp only
          split
          · exact .call nil (fun _ => rfl) fun _ => nil
          · split
            · rename_i direct
              rw [handleDm_eq]
              refine .call nil (fun _ => rfl) fun id => .call nil (fun _ => rfl) fun time => ?_
              have second : ∀ {R : List ServerMessage → Prop}, R [] →
                  R [dmMessage state identity payload id time] →
                  (Prog.call (.publish (userChannel identity.tenantId identity.userId)
                    (dmMessage state identity payload id time)) fun _ =>
                      persistMessage state (dmMessage state identity payload id time) :
                    Handler Unit).Yields Act.sent R :=
                fun nil one => yields_publish (copies_userChannel _ _) nil
                  (unsent_persistMessage nil) (unsent_persistMessage one)
              exact yields_publish (copies_userChannel _ _) nil (second nil (one _ id time))
                (second (one _ id time) (.inr ⟨_, chats _ id time, .inr ⟨direct, rfl⟩⟩))
            · rw [handleGroupChat_eq]
              refine .call nil (fun _ => rfl) fun member => ?_
              cases member with
              | false => exact .call nil (fun _ => rfl) fun _ => nil
              | true =>
                  exact .call nil (fun _ => rfl) fun id => .call nil (fun _ => rfl) fun time =>
                    yields_parseOrNew nil (fun _ => rfl) _ fun c =>
                      yields_publish (copies_groupChannel _) nil (unsent_persistMessage nil)
                        (unsent_persistMessage (one c id time))

end Sends

section Returns

variable {text : TextFrame} {identity : Identity} {state : AppState} {R : List MessageRow → Prop}

/-- The operation went through, and the check of a membership found it. -/
def Accepted (op : Effect) (answer : op.Answer) : Prop :=
  Act.done ⟨op, answer⟩ = true ∧ Act.refused ⟨op, answer⟩ = false

theorem returns_persistMessage {msg : ServerMessage} (one : R [msg.row]) :
    (persistMessage state msg).Returns Accepted Act.stored R := by
  have write : ∀ op (next : op.Answer → Handler Unit), op.written = [msg.row] →
      (∀ answer, next answer = .ret ()) → (Prog.call op next).Returns Accepted Act.stored R := by
    intro op next written ends answer accepted
    rw [ends answer]
    change R (Act.stored ⟨op, answer⟩ ++ [])
    rw [List.append_nil]
    unfold Act.stored
    rw [written, if_pos accepted.1]
    exact one
  rw [persistMessage_eq]
  split
  · exact write (.produce "messages" msg.channelId msg) _ rfl fun _ => rfl
  · exact write (.insertMessages [msg.row]) _ rfl fun _ => rfl

/-- The handler of a chat of admissible size that is not refused stores the chat. -/
theorem returns_stored {payload : WsMessage} (chat : text.chat = some payload)
    (size : payload.content.utf8ByteSize ≤ MAX_PAYLOAD_SIZE) :
    (handleTextMessage text identity state).Returns Accepted Act.stored
      fun rows => ∃ row, text.Chats identity row ∧ rows = [row] := by
  have plain : text.command = none := by
    unfold TextFrame.chat at chat
    unfold TextFrame.command
    cases group : text.groupMessage with
    | none => rfl
    | some groupState => simp [group] at chat
  rw [handleTextMessage_chat plain, chat]
  simp only
  rw [if_neg (Nat.not_lt.mpr size)]
  split
  · rw [handleDm_eq]
    exact .call (stored_of_unstored rfl) fun id _ => .call (stored_of_unstored rfl) fun time _ =>
      .call (stored_of_unstored rfl) fun _ _ => .call (stored_of_unstored rfl) fun _ _ =>
        returns_persistMessage ⟨_, chats_row chat _ id time, rfl⟩
  · rw [handleGroupChat_eq]
    refine .call (stored_of_unstored rfl) fun member accepted => ?_
    cases member with
    | false => exact absurd accepted.2 (by simp [Act.refused])
    | true =>
        refine .call (stored_of_unstored rfl) fun id _ =>
          .call (stored_of_unstored rfl) fun time _ => ?_
        unfold parseOrNew
        cases parseUuid payload.userId with
        | some c =>
            exact .call (stored_of_unstored rfl) fun _ _ =>
              returns_persistMessage ⟨_, chats_row chat c id time, rfl⟩
        | none =>
            refine .call (stored_of_unstored rfl) fun c _ => ?_
            exact .call (stored_of_unstored rfl) fun _ _ =>
              returns_persistMessage ⟨_, chats_row chat c id time, rfl⟩

end Returns

end Handler

/-! ### Runs -/

namespace Cluster

variable {N : Type} [DecidableEq N] {state : AppState} {db : Database}

/-- The operation that a connection performs in an event, with its answer. -/
def acted (id : ConnectionId) (s : Cluster N) : Event N → List Act
  | .perform k choice =>
      if k = id then
        match s.sockets k with
        | some ⟨n, _, _, _, .call op _⟩ => [⟨op, (s.perform n choice op).1⟩]
        | _ => []
      else []
  | _ => []

/-- What a connection did in a run. -/
def acts (state : AppState) (db : Database) (es : List (Event N)) (id : ConnectionId) : List Act :=
  (machine N state).emitted (acted id) (start db) es

/-- The frame that an event is for a connection. -/
def framed (id : ConnectionId) : Event N → Option TextFrame
  | .frame k text => if k = id then some text else none
  | _ => none

/-- The frames of a connection. -/
def frames (es : List (Event N)) (id : ConnectionId) : List TextFrame := es.filterMap (framed id)

/-- What a connection runs: it joins `general`, and handles its frames. -/
def programs (state : AppState) (identity : Identity) (frames : List TextFrame) :
    List (Handler Unit) :=
  joinGeneral identity :: frames.map fun text => handleTextMessage text identity state

/-- What a connection did is its programs, one after the other. Of the last one its task is what is
left, unless it was aborted. -/
def Sequenced (state : AppState) (frames : List TextFrame) (acts : List Act) :
    Option (Socket N) → Prop
  | none => frames = [] ∧ acts = []
  | some socket => ∃ traces q, Prog.Course (programs state socket.identity frames) traces q ∧
      traces.flatten = acts ∧
        (socket.task = q ∨ socket.alive = false ∧ ∃ value, socket.task = .ret value)

section Step

variable {es : List (Event N)} {s s' : Cluster N} {e : Event N}

omit [DecidableEq N] in
theorem frames_snoc (id : ConnectionId) :
    frames (es ++ [e]) id = frames es id ++ (framed id e).toList := by
  unfold frames
  rw [List.filterMap_append]
  congr 1

/-- The step lemma, for one connection. -/
theorem sequenced_step (next : (machine N state).step s e = some s') {k : ConnectionId}
    {texts : List TextFrame} {acts : List Act} (inv : Sequenced state texts acts (s.sockets k)) :
    Sequenced state (texts ++ (framed k e).toList) (acts ++ acted k s e) (s'.sockets k) := by
  have other : s'.sockets k = s.sockets k → framed k e = none → acted k s e = [] →
      Sequenced state (texts ++ (framed k e).toList) (acts ++ acted k s e) (s'.sockets k) := by
    intro same noFrame noAct
    rw [same, noFrame, noAct, Option.toList_none, List.append_nil, List.append_nil]
    exact inv
  cases stepped next with
  | @connect id n identity fresh =>
      by_cases own : k = id
      · subst own
        rw [fresh] at inv
        obtain ⟨rfl, rfl⟩ := inv
        have now : (s.connected k n identity).sockets k =
            some ⟨n, identity, true, none, joinGeneral identity⟩ := Function.update_self _ _ _
        rw [now]
        exact ⟨[[]], joinGeneral identity, .intro .nil (.nil _), rfl, .inl rfl⟩
      · exact other (Function.update_of_ne own _ _) rfl rfl
  | @frame id n identity handling value text idle =>
      by_cases own : k = id
      · subst own
        rw [idle] at inv
        obtain ⟨traces, q, course, same, rfl | ⟨dead, _⟩⟩ := inv
        · have now : (s.setSocket k ⟨n, identity, true, some text,
              handleTextMessage text identity state⟩).sockets k = some ⟨n, identity, true,
                some text, handleTextMessage text identity state⟩ := Function.update_self _ _ _
          have framed : framed k (.frame k text : Event N) = some text := if_pos rfl
          rw [now, framed]
          refine ⟨traces ++ [[]], _, ?_, ?_, .inl rfl⟩
          · have longer : programs state identity (texts ++ [text]) =
                programs state identity texts ++ [handleTextMessage text identity state] := by
              simp [programs]
            rw [Option.toList_some, longer]
            exact course.start _
          · rw [List.flatten_append, same]
            rfl
        · simp at dead
      · exact other (Function.update_of_ne own _ _) (if_neg (Ne.symm own)) rfl
  | @perform id n identity alive handling op rest choice busy =>
      by_cases own : k = id
      · subst own
        rw [busy] at inv
        obtain ⟨traces, q, course, same, rfl | ⟨_, value, ended⟩⟩ := inv
        · obtain ⟨traces', later, grown⟩ := course.call (s.perform n choice op).1
          have now : (s.performed k n identity alive handling choice op rest).sockets k =
              some ⟨n, identity, alive, handling, rest (s.perform n choice op).1⟩ :=
            Function.update_self _ _ _
          have acted : acted k s (.perform k choice) = [⟨op, (s.perform n choice op).1⟩] := by
            simp only [acted, if_true, busy]
          have noFrame : framed k (.perform k choice : Event N) = none := rfl
          rw [now, acted, noFrame, Option.toList_none, List.append_nil]
          exact ⟨traces', _, later, grown.trans (by rw [same]), .inl rfl⟩
        · simp at ended
      · refine other ?_ rfl (if_neg (Ne.symm own))
        have update : (s.performed id n identity alive handling choice op rest).sockets k =
            (s.perform n choice op).2.sockets k := Function.update_of_ne own _ _
        rw [update, sockets_perform]
  | @disconnect id n identity handling task live =>
      by_cases own : k = id
      · subst own
        rw [live] at inv
        obtain ⟨traces, q, course, same, rfl | ⟨dead, _⟩⟩ := inv
        · have now : (s.disconnected k n identity handling task).sockets k =
              some ⟨n, identity, false, handling, task⟩ := Function.update_self _ _ _
          have noFrame : framed k (.disconnect k : Event N) = none := rfl
          have noAct : acted k s (.disconnect k) = [] := rfl
          rw [now, noFrame, noAct, Option.toList_none, List.append_nil, List.append_nil]
          exact ⟨traces, task, course, same, .inl rfl⟩
        · simp at dead
      · exact other (Function.update_of_ne own _ _) rfl rfl
  | @abort id n identity handling task gone =>
      by_cases own : k = id
      · subst own
        rw [gone] at inv
        obtain ⟨traces, q, course, same, _⟩ := inv
        have now : (s.setSocket k ⟨n, identity, false, handling, .ret ()⟩).sockets k =
            some ⟨n, identity, false, handling, .ret ()⟩ := Function.update_self _ _ _
        have noFrame : framed k (.abort k : Event N) = none := rfl
        have noAct : acted k s (.abort k) = [] := rfl
        rw [now, noFrame, noAct, Option.toList_none, List.append_nil, List.append_nil]
        exact ⟨traces, q, course, same, .inr ⟨rfl, (), rfl⟩⟩
      · exact other (Function.update_of_ne own _ _) rfl rfl
  | _ => exact other rfl rfl rfl

/-- The run lemma: the handlers of a connection run one after the other. -/
theorem sequenced (ran : (machine N state).run (start db) es = some s) (k : ConnectionId) :
    Sequenced state (frames es k) (acts state db es k) (s.sockets k) := by
  let Inv (es : List (Event N)) (s : Cluster N) : Prop :=
    (machine N state).run (start db) es = some s ∧
      Sequenced state (frames es k) (acts state db es k) (s.sockets k)
  have init : Inv [] (start db) := ⟨rfl, rfl, rfl⟩
  have step : ∀ es s e s', Inv es s → (machine N state).step s e = some s' →
      Inv (es ++ [e]) s' := by
    rintro es s e s' ⟨before, inv⟩ next
    refine ⟨(Machine.run_snoc _).mpr ⟨s, before, next⟩, ?_⟩
    have grown : acts state db (es ++ [e]) k = acts state db es k ++ acted k s e :=
      Machine.emitted_snoc before next
    rw [frames_snoc, grown]
    exact sequenced_step next inv
  exact (Machine.invariant init step ran).2

end Step

section Traces

variable {texts : List TextFrame} {acts : List Act} {socket : Socket N}

omit [DecidableEq N] in
/-- The operations of a connection, frame by frame. -/
theorem Sequenced.traces (inv : Sequenced state texts acts (some socket)) :
    ∃ opening traces, acts = opening ++ traces.flatten ∧
      (joinGeneral socket.identity).Begun opening ∧
      List.Forall₂ (fun text trace => (handleTextMessage text socket.identity state).Begun trace)
        texts traces := by
  obtain ⟨traces, q, course, same, _⟩ := inv
  have begun := course.begun
  unfold programs at begun
  rw [List.forall₂_cons_left_iff] at begun
  obtain ⟨opening, later, first, rest, rfl⟩ := begun
  exact ⟨opening, later, same.symm, first, List.forall₂_map_left_iff.mp rest⟩

omit [DecidableEq N] in
/-- Those of a connection that is idle were handled to the end. -/
theorem Sequenced.traces_idle (inv : Sequenced state texts acts (some socket))
    (alive : socket.alive = true) {value : Unit} (idle : socket.task = .ret value) :
    ∃ opening traces, acts = opening ++ traces.flatten ∧
      (joinGeneral socket.identity).Ended opening ∧
      List.Forall₂ (fun text trace => (handleTextMessage text socket.identity state).Ended trace)
        texts traces := by
  obtain ⟨traces, q, course, same, rfl | ⟨dead, _⟩⟩ := inv
  · rw [idle] at course
    have ended := course.ended
    unfold programs at ended
    rw [List.forall₂_cons_left_iff] at ended
    obtain ⟨opening, later, first, rest, rfl⟩ := ended
    exact ⟨opening, later, same.symm, first, List.forall₂_map_left_iff.mp rest⟩
  · simp [alive] at dead

omit [DecidableEq N] in
/-- What comes out of the frames, where nothing comes out of the join of `general`. -/
theorem Sequenced.outputs {O : Type} {out : Act → List O} {R : TextFrame → List O → Prop}
    (inv : Sequenced state texts acts (some socket))
    (silent : ∀ t g u, out ⟨.joinGroup t g u, ()⟩ = [])
    (yields : ∀ text, (handleTextMessage text socket.identity state).Yields out (R text)) :
    ∃ each : List (List O), acts.flatMap out = each.flatten ∧ List.Forall₂ R texts each := by
  obtain ⟨opening, traces, rfl, first, begun⟩ := inv.traces
  have none : opening.flatMap out = [] := by
    have joins : (joinGeneral socket.identity).Yields out (· = []) :=
      .call rfl (fun _ => silent _ _ _) fun _ => rfl
    exact joins.of_begun first
  refine ⟨traces.map (·.flatMap out), ?_, ?_⟩
  · rw [List.flatMap_append, none, List.nil_append, List.flatMap_def, List.map_flatten,
      List.flatten_flatten, List.map_map]
    rfl
  · rw [List.forall₂_map_right_iff]
    exact begun.imp fun text trace path => (yields text).of_begun path

end Traces

/-! ### Everybody's outputs -/

/-- What comes out of the operation of an event, and of whose. -/
def output {O : Type} (out : Act → List O) (s : Cluster N) (e : Event N) :
    List (ConnectionId × O) :=
  match e with
  | .perform id _ => ((acted id s e).flatMap out).map (Prod.mk id)
  | _ => []

/-- What came out of a run. -/
def outputs {O : Type} (out : Act → List O) (state : AppState) (db : Database)
    (es : List (Event N)) : List (ConnectionId × O) :=
  (machine N state).emitted (output out) (start db) es

/-- One connection's part of it. -/
theorem outputs_of {O : Type} (out : Act → List O) (es : List (Event N)) (id : ConnectionId) :
    ((outputs out state db es).filter (·.1 = id)).map Prod.snd =
      (acts state db es id).flatMap out := by
  have part : ∀ (s : Cluster N) (e : Event N),
      ((output out s e).filter (·.1 = id)).map Prod.snd = (acted id s e).flatMap out := by
    intro s e
    cases e with
    | perform k choice =>
        by_cases own : k = id
        · subst own
          have all : (output out s (.perform k choice)).filter (·.1 = k) =
              output out s (.perform k choice) := by
            rw [List.filter_eq_self]
            intro p mem
            obtain ⟨o, _, rfl⟩ := List.mem_map.mp mem
            exact decide_eq_true rfl
          rw [all]
          simp only [output, List.map_map]
          exact List.map_id _
        · have noAct : acted id s (.perform k choice) = [] := if_neg own
          have nobody : (output out s (.perform k choice)).filter (·.1 = id) = [] := by
            rw [List.filter_eq_nil_iff]
            intro p mem
            obtain ⟨o, _, rfl⟩ := List.mem_map.mp mem
            simpa using own
          rw [nobody, noAct]
          rfl
    | _ => rfl
  unfold outputs acts
  rw [← Machine.emitted_map (M := machine N state) (output out)
      (fun l => (l.filter (·.1 = id)).map Prod.snd) rfl (fun a b => by simp),
    ← Machine.emitted_map (M := machine N state) (acted id) (List.flatMap out) rfl
      (fun a b => List.flatMap_append)]
  congr 1
  funext s e
  exact part s e

/-- Something comes only from connections that were opened. -/
theorem opened_of_output {O : Type} {out : Act → List O} {es : List (Event N)} {s : Cluster N}
    (ran : (machine N state).run (start db) es = some s) {p : ConnectionId × O}
    (mem : p ∈ outputs out state db es) : ∃ socket, s.sockets p.1 = some socket := by
  have inv := sequenced ran p.1
  cases found : s.sockets p.1 with
  | some socket => exact ⟨socket, rfl⟩
  | none =>
      rw [found] at inv
      have own : p.2 ∈ ((outputs out state db es).filter (·.1 = p.1)).map Prod.snd :=
        List.mem_map_of_mem (List.mem_filter.mpr ⟨mem, decide_eq_true rfl⟩)
      rw [outputs_of, inv.2] at own
      exact absurd own List.not_mem_nil

section Store

variable (s : Cluster N) (n : N) (choice : Choice)

/-- An operation adds to what is persisted what it stores. -/
theorem persisted_perform (op : Effect) : (s.perform n choice op).2.persisted.Perm
    (s.persisted ++ Act.stored ⟨op, (s.perform n choice op).1⟩) := by
  have other : op.written = [] → (s.perform n choice op).2.persisted.Perm
      (s.persisted ++ Act.stored ⟨op, (s.perform n choice op).1⟩) := by
    intro silent
    rw [stored_of_unstored silent, List.append_nil]
    unfold persisted
    have table : (s.perform n choice op).2.db.messages = s.db.messages := by
      rcases messages_perform s n choice op with same | ⟨rows, rfl, _, inserted⟩
      · exact same
      · obtain rfl : rows = [] := silent
        obtain ⟨_, after⟩ := insertMessages_eq_some.mp inserted
        rw [← after, List.append_nil]
    have kafka : (s.perform n choice op).2.kafka = s.kafka := by
      rcases kafka_perform s n choice op with same | ⟨topic, key, msg, rfl, _⟩
      · exact same
      · exact absurd silent (by simp [Effect.written])
    rw [table, kafka]
  cases op with
  | produce topic key msg =>
      simp only [perform]
      split
      · have one : Act.stored ⟨.produce topic key msg, true⟩ = [msg.row] := rfl
        rw [one]
        unfold persisted
        simp
      · exact List.Perm.of_eq (List.append_nil _).symm
  | insertMessages rows =>
      simp only [perform]
      split
      · rename_i messages inserted
        obtain ⟨_, after⟩ := insertMessages_eq_some.mp (Option.ite_none_right_eq_some.mp inserted).2
        have all : Act.stored ⟨.insertMessages rows, true⟩ = rows := rfl
        rw [all]
        unfold persisted
        simp only [← after, List.append_assoc]
        exact (List.perm_append_comm).append_left _
      · exact List.Perm.of_eq (List.append_nil _).symm
  | _ => exact other rfl

end Store

theorem persisted_step {s s' : Cluster N} {e : Event N}
    (next : (machine N state).step s e = some s') :
    s'.persisted.Perm (s.persisted ++ (output Act.stored s e).map Prod.snd) := by
  cases stepped next with
  | @perform id n identity alive handling op rest choice busy =>
      have stored : (output Act.stored s (.perform id choice)).map Prod.snd =
          Act.stored ⟨op, (s.perform n choice op).1⟩ := by
        simp only [output, acted, if_true, busy, List.map_map, List.flatMap_singleton]
        exact List.map_id _
      rw [stored]
      exact persisted_perform s n choice op
  | _ => exact List.Perm.of_eq (List.append_nil _).symm

/-- What is persisted is what was, and what the connections stored. -/
theorem persisted_outputs {es : List (Event N)} {s : Cluster N}
    (ran : (machine N state).run (start db) es = some s) :
    s.persisted.Perm (db.messages ++ (outputs Act.stored state db es).map Prod.snd) := by
  let Inv (es : List (Event N)) (s : Cluster N) : Prop :=
    (machine N state).run (start db) es = some s ∧
      s.persisted.Perm (db.messages ++ (outputs Act.stored state db es).map Prod.snd)
  have init : Inv [] (start db) := ⟨rfl, List.Perm.refl _⟩
  have step : ∀ es s e s', Inv es s → (machine N state).step s e = some s' →
      Inv (es ++ [e]) s' := by
    rintro es s e s' ⟨before, inv⟩ next
    refine ⟨(Machine.run_snoc _).mpr ⟨s, before, next⟩, ?_⟩
    have grown : outputs Act.stored state db (es ++ [e]) =
        outputs Act.stored state db es ++ output Act.stored s e := Machine.emitted_snoc before next
    rw [grown, List.map_append, ← List.append_assoc]
    exact (persisted_step next).trans (inv.append_right _)
  exact (Machine.invariant init step ran).2

/-- The published messages are those that the connections sent, in that order. -/
theorem log_outputs (es : List (Event N)) :
    log state db es = (outputs Act.sent state db es).map Prod.snd := by
  have each : ∀ (s : Cluster N) (e : Event N),
      announced s e = (output Act.sent s e).map Prod.snd := by
    intro s e
    cases e with
    | perform id choice =>
        have plain : (output Act.sent s (.perform id choice)).map Prod.snd =
            (acted id s (.perform id choice)).flatMap Act.sent := by
          simp only [output, List.map_map]
          exact List.map_id _
        rw [plain]
        simp only [announced, acted, if_true]
        cases s.sockets id with
        | none => rfl
        | some socket =>
            obtain ⟨n, identity, alive, handling, task⟩ := socket
            cases task with
            | ret value => rfl
            | call op rest =>
                simp only [List.flatMap_singleton]
                cases op with
                | publish channel msg =>
                    by_cases ok : choice.ok = true
                    · simp [perform, ok, Act.sent]
                    · simp [perform, ok, Act.sent]
                | _ => rfl
    | _ => rfl
  unfold log outputs
  rw [← Machine.emitted_map (M := machine N state) (output Act.sent) (List.map Prod.snd) rfl
    (fun _ _ => List.map_append)]
  congr 1
  funext s e
  exact each s e

/-- After any run of any number of nodes: the messages in the table and in Kafka are those that
were there and those stored for some connection, and those of one connection are the chats of its
frames, in their order and each at most once, whatever failed and whatever the others did. -/
theorem persisted_in_order (state : AppState) (db : Database) {es : List (Event N)} {s : Cluster N}
    (ran : (machine N state).run (start db) es = some s) :
    s.persisted.Perm (db.messages ++ (outputs Act.stored state db es).map Prod.snd) ∧
    (∀ p ∈ outputs Act.stored state db es, ∃ socket, s.sockets p.1 = some socket) ∧
    ∀ id socket, s.sockets id = some socket → ∃ each : List (List MessageRow),
      ((outputs Act.stored state db es).filter (·.1 = id)).map Prod.snd = each.flatten ∧
        List.Forall₂ (fun text rows => text.Stores socket.identity rows) (frames es id) each := by
  refine ⟨persisted_outputs ran, fun p mem => opened_of_output ran mem, fun id socket found => ?_⟩
  have inv := sequenced ran id
  rw [found] at inv
  rw [outputs_of]
  exact inv.outputs (fun _ _ _ => rfl) fun text => yields_stored text socket.identity state

theorem persisted_in_order_dm :
    let state : AppState := ⟨true, sha256Names⟩
    let es := sendDm 1 "acme" "ada" "bob" 5
    ∃ s, (machine Unit state).run (start ⟨[], [], []⟩) es = some s ∧ s.persisted.length = 1 ∧
      s.persisted.Perm ((outputs Act.stored state ⟨[], [], []⟩ es).map Prod.snd) ∧
      (∀ p ∈ outputs Act.stored state ⟨[], [], []⟩ es, ∃ socket, s.sockets p.1 = some socket) ∧
      ∀ id socket, s.sockets id = some socket → ∃ each : List (List MessageRow),
        ((outputs Act.stored state ⟨[], [], []⟩ es).filter (·.1 = id)).map Prod.snd =
            each.flatten ∧
          List.Forall₂ (fun text rows => text.Stores socket.identity rows) (frames es id) each := by
  intro state es
  obtain ⟨s, ran, one⟩ : ∃ s ∈ (machine Unit state).run (start ⟨[], [], []⟩) es,
      s.persisted.length = 1 := by decide
  exact ⟨s, ran, one, persisted_in_order state ⟨[], [], []⟩ ran⟩

/-- In every run, every message in the inbox of a connection can be told its sender's connection so
that, whatever else is in between, those of one connection are in the order of its frames: each
frame's message comes once, or a direct message that was sent to two channels twice, before those of
later frames. -/
theorem sender_order (state : AppState) (db : Database) {es : List (Event N)} {s : Cluster N}
    (ran : (machine N state).run (start db) es = some s) (n : N) (c : ConnectionId) :
    ∃ tagged : List (ConnectionId × ServerMessage),
      inbox state db es s n c = tagged.map Prod.snd ∧
      (∀ p ∈ tagged, ∃ socket, s.sockets p.1 = some socket) ∧
      ∀ id socket, s.sockets id = some socket → ∃ each : List (List ServerMessage),
        ((tagged.filter (·.1 = id)).map Prod.snd).Sublist each.flatten ∧
          List.Forall₂ (fun text msgs => text.Sends socket.identity msgs) (frames es id) each := by
  have within : (inbox state db es s n c).Sublist
      ((outputs Act.sent state db es).map Prod.snd) := by
    rw [← log_outputs, ← hears_announced ran n]
    exact ((posted state db ran).sublist n c).trans (List.sublist_append_left _ _)
  obtain ⟨tagged, sub, same⟩ := List.sublist_map_iff.mp within
  refine ⟨tagged, same, fun p mem => opened_of_output ran (sub.subset mem), ?_⟩
  intro id socket found
  have inv := sequenced ran id
  rw [found] at inv
  obtain ⟨each, flat, sends⟩ :=
    inv.outputs (fun _ _ _ => rfl) fun text => yields_sent text socket.identity state
  refine ⟨each, ?_, sends⟩
  rw [← flat, ← outputs_of]
  exact (sub.filter _).map _

theorem sender_order_dm :
    let state : AppState := ⟨true, sha256Names⟩
    ∃ s, (machine Bool state).run (start ⟨[], [], []⟩) twoDevices = some s ∧
      ∃ tagged : List (ConnectionId × ServerMessage),
        inbox state ⟨[], [], []⟩ twoDevices s true 1 = tagged.map Prod.snd ∧
        (∀ p ∈ tagged, ∃ socket, s.sockets p.1 = some socket) ∧
        ∀ id socket, s.sockets id = some socket → ∃ each : List (List ServerMessage),
          ((tagged.filter (·.1 = id)).map Prod.snd).Sublist each.flatten ∧
            List.Forall₂ (fun text msgs => text.Sends socket.identity msgs)
              (frames twoDevices id) each := by
  intro state
  obtain ⟨s, ran⟩ := Option.isSome_iff_exists.mp
    (show ((machine Bool state).run (start ⟨[], [], []⟩) twoDevices).isSome = true by decide)
  exact ⟨s, ran, sender_order state ⟨[], [], []⟩ ran true 1⟩

/-- The operations of a connection that is idle, frame by frame, where none of its publishes,
produces and inserts failed. -/
theorem handled_done {es : List (Event N)} {s : Cluster N}
    (ran : (machine N state).run (start db) es = some s) {id : ConnectionId} {socket : Socket N}
    (found : s.sockets id = some socket) (alive : socket.alive = true)
    (idle : socket.task = .ret ()) (went : ∀ act ∈ acts state db es id, act.done = true) :
    ∃ opening traces, acts state db es id = opening ++ traces.flatten ∧
      (joinGeneral socket.identity).Ended opening ∧
      List.Forall₂ (fun text trace => (∀ act ∈ trace, Act.done act = true) ∧
        (handleTextMessage text socket.identity state).Ended trace) (frames es id) traces := by
  have inv := sequenced ran id
  rw [found] at inv
  obtain ⟨opening, traces, same, first, ended⟩ := inv.traces_idle alive idle
  refine ⟨opening, traces, same, first, ?_⟩
  have all : ∀ trace ∈ traces, ∀ act ∈ trace, Act.done act = true := by
    intro trace mem act done
    refine went act ?_
    rw [same]
    exact List.mem_append_right _ (List.mem_flatten_of_mem mem done)
  exact ((List.forall₂_and_left _ _).mpr ⟨all, ended.flip⟩).flip

/-- Where nothing that a connection published, produced or inserted failed, and it is idle: what it
did is its opening and one run of the handler for each frame, and every chat of admissible size
whose handler was not told that its sender is no member is stored. -/
theorem chats_persisted (state : AppState) (db : Database) {es : List (Event N)} {s : Cluster N}
    (ran : (machine N state).run (start db) es = some s) {id : ConnectionId} {socket : Socket N}
    (found : s.sockets id = some socket) (alive : socket.alive = true)
    (idle : socket.task = .ret ()) (went : ∀ act ∈ acts state db es id, act.done = true) :
    ∃ opening traces, acts state db es id = opening ++ traces.flatten ∧
      (joinGeneral socket.identity).Ended opening ∧
      List.Forall₂ (fun text trace =>
        (handleTextMessage text socket.identity state).Ended trace ∧
        ∀ payload, text.chat = some payload → payload.content.utf8ByteSize ≤ MAX_PAYLOAD_SIZE →
        (∀ act ∈ trace, Act.refused act = false) →
        ∃ row, text.Chats socket.identity row ∧ trace.flatMap Act.stored = [row])
        (frames es id) traces := by
  obtain ⟨opening, traces, same, first, handled⟩ := handled_done ran found alive idle went
  refine ⟨opening, traces, same, first, handled.imp ?_⟩
  rintro text trace ⟨done, ends⟩
  refine ⟨ends, fun payload chat size member => ?_⟩
  exact (returns_stored chat size).of_ended ends fun act mem => ⟨done act mem, member act mem⟩

theorem chats_persisted_dm :
    let state : AppState := ⟨true, sha256Names⟩
    let es := sendDm 1 "acme" "ada" "bob" 5
    ∃ s, (machine Unit state).run (start ⟨[], [], []⟩) es = some s ∧
      ∃ opening traces, acts state ⟨[], [], []⟩ es 1 = opening ++ traces.flatten ∧
        (joinGeneral ⟨"acme", "ada"⟩).Ended opening ∧
        List.Forall₂ (fun text trace =>
          (handleTextMessage text ⟨"acme", "ada"⟩ state).Ended trace ∧
          ∀ payload, text.chat = some payload → payload.content.utf8ByteSize ≤ MAX_PAYLOAD_SIZE →
          (∀ act ∈ trace, Act.refused act = false) →
          ∃ row, text.Chats ⟨"acme", "ada"⟩ row ∧ trace.flatMap Act.stored = [row])
          (frames es 1) traces := by
  intro state es
  obtain ⟨s, ran, socket, found, alive, identity, resting, went⟩ :
      ∃ s ∈ (machine Unit state).run (start ⟨[], [], []⟩) es, ∃ socket ∈ s.sockets 1,
        socket.alive = true ∧ socket.identity = ⟨"acme", "ada"⟩ ∧ idle socket = true ∧
        ∀ act ∈ acts state ⟨[], [], []⟩ es 1, act.done = true := by decide
  have stored := chats_persisted state ⟨[], [], []⟩ ran found alive (task_of_idle resting) went
  rw [identity] at stored
  exact ⟨s, ran, stored⟩

end Cluster

end YappaCore
