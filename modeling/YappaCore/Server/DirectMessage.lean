import YappaCore.Server.Ws

/-!
One direct message, from the frame to the queues: the handler's two publishes, the copies
that every node's listener gets, and what the listeners do with them.

The two publishes carry one message on the recipient's and on the sender's channel, and
the listener routes both to the message's `channel_id`, the recipient.
`queue_deliver_recipient` and `channels_deliver_other` say what that comes to, and
`dm_delivered_once_iff` when it is one copy for each of the two.
-/

namespace YappaCore

open Lib Handler

/-! ### From the handler to the listeners -/

/-- Answer an operation, and note a publish that succeeded. -/
def record (answers : (op : Effect) → op.Answer) (op : Effect)
    (log : List (String × ServerMessage)) : op.Answer × List (String × ServerMessage) :=
  (answers op,
    match op with
    | .publish channel msg => if answers (.publish channel msg) then log ++ [(channel, msg)] else log
    | _ => log)

/-- The publishes of a task that is run to its end. -/
def published (answers : (op : Effect) → op.Answer) (task : Handler Unit) :
    List (String × ServerMessage) :=
  (task.exec (record answers) []).2

/-- What every listener gets of them. -/
def received (sent : List (String × ServerMessage)) : List ServerMessage :=
  sent.flatMap fun (channel, msg) => List.replicate (copies channel) msg

/-- A node after its listener handled some messages. -/
def Node.deliver (node : Node) (msgs : List ServerMessage) : Node :=
  msgs.foldl Node.handleMessage node

/-- Each accepting connection of the two users got the message once, and no other connection got
anything, neither one of somebody else nor a closed or full one of theirs. -/
structure DeliveredOnce (before after : Node) (tenantId userA userB : String)
    (msg : ServerMessage) : Prop where
  reached : ∀ u id sender, u = userA ∨ u = userB →
    before.registry.sender? tenantId u id = some sender →
    (before.channels sender.channel).Accepts →
    (after.channels sender.channel).queue =
      (before.channels sender.channel).queue ++ [.json msg]
  others : ∀ t u id sender,
    ¬ (t = tenantId ∧ (u = userA ∨ u = userB) ∧ (before.channels sender.channel).Accepts) →
    before.registry.sender? t u id = some sender →
    (after.channels sender.channel).queue = (before.channels sender.channel).queue

section Frame

variable (state : AppState) (identity : Identity) (recipient content : String)

/-- A direct chat frame. -/
def dmFrame : TextFrame := ⟨none, some ⟨.dm, recipient, content⟩⟩

theorem handleTextMessage_dm (small : content.utf8ByteSize ≤ MAX_PAYLOAD_SIZE) :
    handleTextMessage (dmFrame recipient content) identity state =
      handleDm state identity ⟨.dm, recipient, content⟩ := by
  have fits : ¬ content.utf8ByteSize > MAX_PAYLOAD_SIZE := Nat.not_lt.mpr small
  simp only [handleTextMessage, dmFrame, if_neg fits]

/-- The handler publishes one message twice, and each listener gets it twice. -/
theorem received_dm {answers : (op : Effect) → op.Answer}
    (small : content.utf8ByteSize ≤ MAX_PAYLOAD_SIZE)
    (succeed : ∀ channel msg, answers (.publish channel msg) = true) :
    received (published answers (handleTextMessage (dmFrame recipient content) identity state)) =
      List.replicate 2
        (dmMessage state identity ⟨.dm, recipient, content⟩ (answers .newV4) (answers .now)) := by
  have persisted : ∀ msg log, ((persistMessage state msg).exec (record answers) log).2 = log := by
    intro msg log
    rw [persistMessage_eq]
    split <;> rfl
  rw [handleTextMessage_dm state identity recipient content small, handleDm_eq]
  unfold published
  simp only [Prog.exec_call, persisted, record, succeed, if_true, List.nil_append,
    List.singleton_append]
  simp only [received, List.flatMap_cons, List.flatMap_nil, copies_userChannel, List.append_nil]
  rfl

end Frame

/-! ### Two copies at a listener -/

section Listener

variable {node : Node} {msg : ServerMessage} (chat : msg.msgType ≠ "group_join")
  (dm : msg.channelType = .dm)

include chat dm

theorem handleMessage_dm (node : Node) :
    node.handleMessage msg = node.sendMsgToUser msg.tenantId msg.channelId (.json msg) := by
  unfold Node.handleMessage
  simp only [chat, if_false, dm]

/-- The recipient's connections take both copies, or one if there is room for one. -/
theorem queue_deliver_recipient (separate : node.Separate) {id : ConnectionId}
    {sender : SocketSender}
    (found : node.registry.sender? msg.tenantId msg.channelId id = some sender)
    (accepts : (node.channels sender.channel).Accepts) :
    ((node.deliver (List.replicate 2 msg)).channels sender.channel).queue =
      (node.channels sender.channel).queue ++ [.json msg] ++
        if (node.channels sender.channel).queue.length + 1 < CHANNEL_CAPACITY then [.json msg]
        else [] := by
  have first := Node.channels_sendMsgToUser (.json msg) separate ⟨id, sender, found, rfl⟩
  have kept : (node.sendMsgToUser msg.tenantId msg.channelId (.json msg)).registry.sender?
      msg.tenantId msg.channelId id = some sender :=
    (Node.sender?_sendMsgToUser (.json msg) separate).mpr ⟨found, fun _ => accepts⟩
  have second := Node.channels_sendMsgToUser (.json msg) (separate.sendMsgToUser (.json msg))
    ⟨id, sender, kept, rfl⟩
  have once := Channel.queue_offer (.json msg) (node.channels sender.channel)
  have opened := Channel.isOpen_offer (.json msg) (node.channels sender.channel)
  rw [if_pos accepts] at once
  change (((node.handleMessage msg).handleMessage msg).channels sender.channel).queue = _
  rw [handleMessage_dm chat dm, handleMessage_dm chat dm, second, first, Channel.queue_offer, once]
  have room : ((node.channels sender.channel).offer (.json msg)).Accepts ↔
      (node.channels sender.channel).queue.length + 1 < CHANNEL_CAPACITY := by
    unfold Channel.Accepts
    rw [opened, once, List.length_append]
    exact ⟨fun both => both.2, fun more => ⟨accepts.1, more⟩⟩
  by_cases more : (node.channels sender.channel).queue.length + 1 < CHANNEL_CAPACITY
  · rw [if_pos more, if_pos (room.mpr more)]
  · rw [if_neg more, if_neg fun two => more (room.mp two), List.append_nil]

/-- Nobody else gets a copy, the sender included. -/
theorem channels_deliver_other (separate : node.Separate) {t u : String} {id : ConnectionId}
    {sender : SocketSender} (found : node.registry.sender? t u id = some sender)
    (other : ¬ (t = msg.tenantId ∧ u = msg.channelId)) (n : Nat) :
    (node.deliver (List.replicate n msg)).channels sender.channel =
      node.channels sender.channel := by
  have unreached : ∀ later : Node,
      (∀ id' sender', later.registry.sender? msg.tenantId msg.channelId id' = some sender' →
        node.registry.sender? msg.tenantId msg.channelId id' = some sender') →
      ¬ later.Reaches msg.tenantId msg.channelId sender.channel := by
    rintro later fewer ⟨id', sender', found', here⟩
    obtain ⟨tenant, user, _⟩ := separate _ _ _ _ _ _ _ _ found (fewer id' sender' found') here.symm
    exact other ⟨tenant, user⟩
  suffices ∀ later : Node, (∀ id' sender',
      later.registry.sender? msg.tenantId msg.channelId id' = some sender' →
      node.registry.sender? msg.tenantId msg.channelId id' = some sender') →
      (later.deliver (List.replicate n msg)).channels sender.channel =
        later.channels sender.channel from this node fun _ _ same => same
  induction n with
  | zero => exact fun _ _ => rfl
  | succ n ih =>
      intro later fewer
      change ((later.handleMessage msg).deliver (List.replicate n msg)).channels _ = _
      rw [ih, handleMessage_dm chat dm]
      · exact later.channels_sendMsgToUser_of_not_reaches _ _ _ (unreached later fewer)
      · intro id' sender' found'
        exact fewer id' sender' (sender?_of_handleMessage later msg found')

/-- A channel that is closed or full stays as it is. -/
theorem channels_deliver_refused (separate : node.Separate) {k : ConnectionId}
    (refuses : ¬ (node.channels k).Accepts) (n : Nat) :
    (node.deliver (List.replicate n msg)).channels k = node.channels k := by
  induction n generalizing node with
  | zero => rfl
  | succ n ih =>
      have kept : (node.handleMessage msg).channels k = node.channels k := by
        rw [handleMessage_dm chat dm]
        by_cases reaches : node.Reaches msg.tenantId msg.channelId k
        · rw [Node.channels_sendMsgToUser (.json msg) separate reaches,
            Channel.offer_of_not_accepts refuses]
        · exact node.channels_sendMsgToUser_of_not_reaches _ _ _ reaches
      have separate' : (node.handleMessage msg).Separate := by
        rw [handleMessage_dm chat dm]
        exact separate.sendMsgToUser (.json msg)
      change ((node.handleMessage msg).deliver (List.replicate n msg)).channels k = _
      rw [ih separate' (kept ▸ refuses), kept]

/-- Two copies come down to one each exactly when the recipient's accepting channels have room
for one and the sender, unless it is the recipient, has no accepting channel. -/
theorem deliveredOnce_twice_iff (separate : node.Separate) (userId : String) :
    DeliveredOnce node (node.deliver (List.replicate 2 msg)) msg.tenantId userId msg.channelId
      msg ↔
    (∀ id sender, node.registry.sender? msg.tenantId msg.channelId id = some sender →
      (node.channels sender.channel).Accepts →
      (node.channels sender.channel).queue.length + 1 = CHANNEL_CAPACITY) ∧
    (userId ≠ msg.channelId → ∀ id sender,
      node.registry.sender? msg.tenantId userId id = some sender →
      ¬ (node.channels sender.channel).Accepts) := by
  constructor
  · intro delivered
    refine ⟨fun id sender found accepts => ?_, fun differ id sender found accepts => ?_⟩
    · have once := delivered.reached msg.channelId id sender (.inr rfl) found accepts
      rw [queue_deliver_recipient chat dm separate found accepts] at once
      have below := accepts.2
      by_contra wrong
      rw [if_pos (by omega)] at once
      simp at once
    · have once := delivered.reached userId id sender (.inl rfl) found accepts
      rw [channels_deliver_other chat dm separate found (fun own => differ own.2) 2] at once
      simp at once
  · rintro ⟨recipients, senders⟩
    have toRecipient : ∀ id sender,
        node.registry.sender? msg.tenantId msg.channelId id = some sender →
        (node.channels sender.channel).Accepts →
        ((node.deliver (List.replicate 2 msg)).channels sender.channel).queue =
          (node.channels sender.channel).queue ++ [.json msg] := by
      intro id sender found accepts
      have last := recipients id sender found accepts
      rw [queue_deliver_recipient chat dm separate found accepts, if_neg (by omega),
        List.append_nil]
    constructor
    · rintro u id sender (rfl | rfl) found accepts
      · by_cases same : u = msg.channelId
        · rw [same] at found
          exact toRecipient id sender found accepts
        · exact absurd accepts (senders same id sender found)
      · exact toRecipient id sender found accepts
    · intro t u id sender other found
      by_cases accepts : (node.channels sender.channel).Accepts
      · rw [channels_deliver_other chat dm separate found
          (fun own => other ⟨own.1, .inr own.2, accepts⟩) 2]
      · rw [channels_deliver_refused chat dm separate accepts 2]

end Listener

/-- A direct message whose publishes succeed reaches the accepting connections of recipient
and sender once each, and no other connection, exactly when every accepting connection of the
recipient has room for one message only, and the sender, unless it is the recipient, has
none. -/
theorem dm_delivered_once_iff {N : Type*} (nodes : N → Node) (state : AppState)
    (identity : Identity) (recipient content : String) (answers : (op : Effect) → op.Answer)
    (separate : ∀ n, (nodes n).Separate) (small : content.utf8ByteSize ≤ MAX_PAYLOAD_SIZE)
    (succeed : ∀ channel msg, answers (.publish channel msg) = true) :
    (∀ n, DeliveredOnce (nodes n)
      ((nodes n).deliver (received
        (published answers (handleTextMessage (dmFrame recipient content) identity state))))
      identity.tenantId identity.userId recipient
      (dmMessage state identity ⟨.dm, recipient, content⟩ (answers .newV4) (answers .now))) ↔
    (∀ n id sender, (nodes n).registry.sender? identity.tenantId recipient id = some sender →
      ((nodes n).channels sender.channel).Accepts →
      ((nodes n).channels sender.channel).queue.length + 1 = CHANNEL_CAPACITY) ∧
    (identity.userId ≠ recipient → ∀ n id sender,
      (nodes n).registry.sender? identity.tenantId identity.userId id = some sender →
      ¬ ((nodes n).channels sender.channel).Accepts) := by
  rw [received_dm state identity recipient content small succeed]
  generalize sent : dmMessage state identity ⟨.dm, recipient, content⟩ (answers .newV4)
    (answers .now) = msg
  have chat : msg.msgType ≠ "group_join" := by
    rw [← sent]
    simp [dmMessage, chatMessage]
  have dm : msg.channelType = .dm := by rw [← sent]; rfl
  have tenant : identity.tenantId = msg.tenantId := by rw [← sent]; rfl
  have channel : recipient = msg.channelId := by rw [← sent]; rfl
  rw [tenant, channel]
  simp only [deliveredOnce_twice_iff chat dm (separate _) identity.userId]
  constructor
  · exact fun both => ⟨fun n => (both n).1, fun differ n => (both n).2 differ⟩
  · rintro ⟨recipients, senders⟩ n
    exact ⟨recipients n, fun differ => senders differ n⟩

/-! ### Two users of one tenant on one node -/

/-- Every operation succeeds. -/
def succeeding : (op : Effect) → op.Answer
  | .now => 7
  | .newV4 => 1
  | .selectGroup _ _ | .upsertGroup _ _ _ _ => some 2
  | .insertGroupMember _ _ _ | .deleteGroupMember _ _ => true
  | .joinGroup _ _ _ | .leaveGroup _ _ _ | .createGroup _ _ | .deleteGroup _ _ => ()
  | .isUserInGroup _ _ _ => true
  | .sendMsgToUser _ _ _ => ()
  | .publish _ _ | .produce _ _ _ => true
  | .insertMessages _ => true

/-- A node with one connection of each of two users, and what waits for the second. -/
def pair (waiting : List Message) (bounded : waiting.length ≤ CHANNEL_CAPACITY) : Node where
  registry := (ConnectionRegistry.new.insert ⟨"acme", "ada"⟩ 1 ⟨1⟩).insert ⟨"acme", "bob"⟩ 2 ⟨2⟩
  channels := fun id => if id = 2 then ⟨true, waiting, bounded⟩ else ⟨false, [], Nat.zero_le _⟩

theorem sender?_pair {waiting : List Message} {bounded : waiting.length ≤ CHANNEL_CAPACITY}
    {t u : String} {id : ConnectionId} {sender : SocketSender}
    (found : (pair waiting bounded).registry.sender? t u id = some sender) :
    t = "acme" ∧ sender.channel = id ∧ (u = "bob" ∧ id = 2 ∨ u = "ada" ∧ id = 1) := by
  unfold pair at found
  rw [ConnectionRegistry.sender?_insert] at found
  split at found
  · rename_i bob
    obtain ⟨rfl, rfl, rfl⟩ := bob
    obtain rfl := Option.some.inj found
    exact ⟨rfl, rfl, .inl ⟨rfl, rfl⟩⟩
  · rw [ConnectionRegistry.sender?_insert] at found
    split at found
    · rename_i ada
      obtain ⟨rfl, rfl, rfl⟩ := ada
      obtain rfl := Option.some.inj found
      exact ⟨rfl, rfl, .inr ⟨rfl, rfl⟩⟩
    · simp [ConnectionRegistry.sender?, ConnectionRegistry.new] at found

theorem separate_pair (waiting : List Message) (bounded : waiting.length ≤ CHANNEL_CAPACITY) :
    (pair waiting bounded).Separate := by
  intro t u c sender t' u' c' sender' found found' same
  obtain ⟨rfl, rfl, first⟩ := sender?_pair found
  obtain ⟨rfl, rfl, second⟩ := sender?_pair found'
  refine ⟨rfl, ?_, same⟩
  rcases first with ⟨rfl, one⟩ | ⟨rfl, one⟩ <;> rcases second with ⟨rfl, other⟩ | ⟨rfl, other⟩
  · rfl
  · rw [one, other] at same
    exact absurd same (by decide)
  · rw [one, other] at same
    exact absurd same (by decide)
  · rfl

/-- There is one copy where the recipient's channel has room for one message and the
sender's is closed. -/
theorem dm_delivered_once_full :
    let waiting := List.replicate 255 Message.ping
    let node := pair waiting (by rw [List.length_replicate]; decide)
    let state : AppState := ⟨true, sha256Names⟩
    DeliveredOnce node (node.deliver (received (published succeeding
        (handleTextMessage (dmFrame "bob" "hi") ⟨"acme", "ada"⟩ state))))
      "acme" "ada" "bob" (dmMessage state ⟨"acme", "ada"⟩ ⟨.dm, "bob", "hi"⟩ 1 7) := by
  intro waiting node state
  refine (dm_delivered_once_iff (fun _ : Unit => node) state ⟨"acme", "ada"⟩ "bob" "hi" succeeding
    (fun _ => separate_pair waiting _) (by decide) (fun _ _ => rfl)).mpr ⟨?_, ?_⟩ ()
  · intro _ id sender found _
    obtain ⟨_, rfl, ⟨_, here⟩ | ⟨other, _⟩⟩ := sender?_pair found
    · rw [here]
      change waiting.length + 1 = CHANNEL_CAPACITY
      rw [List.length_replicate]
      rfl
    · exact absurd other (by decide)
  · intro _ _ id sender found accepts
    obtain ⟨_, rfl, ⟨other, _⟩ | ⟨_, here⟩⟩ := sender?_pair found
    · exact absurd other (by decide)
    · rw [here] at accepts
      exact absurd accepts.1 (by decide)

/-- The recipient gets two copies and the sender none. -/
theorem dm_doubled_for_recipient :
    let node : Node :=
      { registry :=
          (ConnectionRegistry.new.insert ⟨"acme", "ada"⟩ 1 ⟨1⟩).insert ⟨"acme", "bob"⟩ 2 ⟨2⟩
        channels := fun _ => Channel.new }
    let state : AppState := ⟨true, sha256Names⟩
    let msg := dmMessage state ⟨"acme", "ada"⟩ ⟨.dm, "bob", "hi"⟩ 1 7
    let after := node.deliver (received (published succeeding
      (handleTextMessage (dmFrame "bob" "hi") ⟨"acme", "ada"⟩ state)))
    (after.channels 2).queue = [.json msg, .json msg] ∧ (after.channels 1).queue = [] ∧
      ¬ DeliveredOnce node after "acme" "ada" "bob" msg := by
  intro node state msg after
  have copies : after = node.deliver (List.replicate 2 msg) :=
    congrArg node.deliver (received_dm state ⟨"acme", "ada"⟩ "bob" "hi" (by decide)
      fun _ _ => rfl)
  have twice : (after.channels 2).queue = [.json msg, .json msg] := by
    rw [copies]
    decide
  refine ⟨twice, by rw [copies]; decide, fun delivered => ?_⟩
  have once := delivered.reached "bob" 2 ⟨2⟩ (.inr rfl) (by decide) (by decide)
  rw [twice] at once
  exact absurd once (by decide)

end YappaCore
