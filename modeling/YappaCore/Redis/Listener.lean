import YappaCore.Connection.Removal
import YappaCore.Redis

/-!
The listener of one process beside the other tasks that use its registry.

A step is the handling of one message of the stream, or one access of another task to the
two maps or to a channel, in any interleaving; a removal takes its two steps.
`delivered_in_order`: the group messages that are enqueued on a connection while it is
registered are those of the stream, in its order and once each, that found the connection's
user a member.
-/

namespace YappaCore

open Lib

/-! ### What a message does to the flat table -/

namespace ServerMessage

/-- The listener fans the message out to a group. -/
def ToGroup (msg : ServerMessage) : Prop := msg.msgType = "group_join" ∨ msg.channelType ≠ .dm

instance (msg : ServerMessage) : Decidable msg.ToGroup := by
  unfold ToGroup; infer_instance

/-- The user is a member of the message's group when the message is fanned out: a join makes
its sender one before that. -/
def FindsMember (msg : ServerMessage) (node : Node) (userId : String) : Prop :=
  node.registry.isUserInGroup msg.tenantId msg.channelId userId = true ∨
    msg.msgType = "group_join" ∧ userId = msg.senderId

instance (msg : ServerMessage) (node : Node) (userId : String) :
    Decidable (msg.FindsMember node userId) := by
  unfold FindsMember; infer_instance

/-- The connections that a message goes to. -/
def GoesTo (msg : ServerMessage) (node : Node) (key : Key) : Prop :=
  key.tenantId = msg.tenantId ∧
    if msg.ToGroup then msg.FindsMember node key.userId else key.userId = msg.channelId

end ServerMessage

namespace Node

/-- A group message of a node that has the connections of another one. -/
theorem flat_sendMsgToGroup_of_inner {node sending : Node} (separate : node.Separate)
    (inner : sending.registry.inner = node.registry.inner)
    (channels : sending.channels = node.channels) {tenantId groupId : String} (msg : Message)
    {keys : Key → Prop}
    (members : ∀ key : Key, key.tenantId = tenantId ∧
      sending.registry.isUserInGroup tenantId groupId key.userId = true ↔ keys key) :
    (sending.sendMsgToGroup tenantId groupId msg).flat =
      { node.flat with member := sending.registry.isUserInGroup }.send keys msg := by
  have senders : ∀ t u id, sending.registry.sender? t u id = node.registry.sender? t u id := by
    intro t u id
    unfold ConnectionRegistry.sender?
    rw [inner]
  have own : sending.Separate := by
    intro t u id sender t' u' id' sender' found found'
    rw [senders] at found found'
    exact separate t u id sender t' u' id' sender' found found'
  have same : sending.flat = { node.flat with member := sending.registry.isUserInGroup } := by
    unfold flat
    rw [channels]
    congr 1
    funext key
    exact senders key.tenantId key.userId key.connectionId
  rw [flat_sendMsgToGroup own, ← same]
  unfold Flat.sendMsgToGroup
  congr 1
  funext key
  exact propext (members key)

/-- The handling of a message is one send to the connections it goes to. -/
theorem flat_handleMessage {node : Node} (separate : node.Separate) (msg : ServerMessage) :
    (node.handleMessage msg).flat =
      { node.flat with member := (node.handleMessage msg).registry.isUserInGroup }.send
        (msg.GoesTo node) (.json msg) := by
  -- Only a join changes the members, and it does so before the fan-out.
  have sent : ∃ member : String → String → String → Bool, (node.handleMessage msg).flat =
      { node.flat with member }.send (msg.GoesTo node) (.json msg) := by
    unfold handleMessage
    by_cases join : msg.msgType = "group_join"
    · simp only [join, if_true]
      let joined : Node := { node with
        registry := node.registry.joinGroup msg.tenantId msg.channelId msg.senderId }
      refine ⟨joined.registry.isUserInGroup,
        @flat_sendMsgToGroup_of_inner node joined separate rfl rfl _ _ _ _ fun key => ?_⟩
      rw [ConnectionRegistry.isUserInGroup_joinGroup]
      simp [ServerMessage.GoesTo, ServerMessage.ToGroup, ServerMessage.FindsMember, join, or_comm]
    · simp only [join, if_false]
      cases kind : msg.channelType with
      | dm =>
          refine ⟨node.registry.isUserInGroup, ?_⟩
          rw [flat_sendMsgToUser separate]
          unfold Flat.sendMsgToUser
          congr 1
          funext key
          simp [ServerMessage.GoesTo, ServerMessage.ToGroup, join, kind]
      | group | community =>
          refine ⟨node.registry.isUserInGroup,
            @flat_sendMsgToGroup_of_inner node node separate rfl rfl _ _ _ _ fun key => ?_⟩
          simp [ServerMessage.GoesTo, ServerMessage.ToGroup, ServerMessage.FindsMember, join, kind]
  obtain ⟨member, sent⟩ := sent
  have after : (node.handleMessage msg).registry.isUserInGroup = member :=
    congrArg Flat.member sent
  rw [after]
  exact sent

end Node

/-! ### Steps -/

/-- A process with the stream that its listener has yet to read. -/
structure Listening where
  node : Node
  stream : List ServerMessage
  /-- The connection ids that were given out. -/
  used : List ConnectionId
  /-- The removals between their two steps, each with `should_remove_tenant`. -/
  removing : List (Identity × Bool)

namespace Listening

/-- An access to the registry or to a channel. A connection that starts is a `connect` and, as
a step of its own, the `joinGroup` of the group every user is in. -/
inductive Event where
  | handle
  | connect (identity : Identity) (id : ConnectionId)
  | removeConnection (identity : Identity) (id : ConnectionId)
  | removeTenant (index : Nat)
  | joinGroup (tenantId groupId userId : String)
  | leaveGroup (tenantId groupId userId : String)
  | createGroup (tenantId groupId : String)
  | deleteGroup (tenantId groupId : String)
  /-- A handler tells a user what was wrong with a frame. -/
  | reply (tenantId userId text : String)
  /-- The heartbeat of a connection. -/
  | ping (tenantId userId : String)
  | drain (channel : ConnectionId)
  | hangUp (channel : ConnectionId)

/-- Replace the registry. -/
def setRegistry (s : Listening) (registry : ConnectionRegistry) : Listening :=
  { s with node := { s.node with registry } }

/-- Replace a channel. -/
def setChannel (s : Listening) (k : ConnectionId) (channel : Channel) : Listening :=
  { s with node := { s.node with channels := Function.update s.node.channels k channel } }

def step (s : Listening) : Event → Option Listening
  | .handle =>
      match s.stream with
      | [] => none
      | msg :: rest => some { s with node := s.node.handleMessage msg, stream := rest }
  | .connect identity id =>
      if id ∈ s.used then none
      else
        some
          { s with
            node :=
              { registry := s.node.registry.insert identity id ⟨id⟩
                channels := Function.update s.node.channels id Channel.new }
            used := id :: s.used }
  | .removeConnection identity id =>
      let (registry, shouldRemoveTenant) := s.node.registry.removeConnection identity id
      some { s.setRegistry registry with
        removing := s.removing ++ [(identity, shouldRemoveTenant)] }
  | .removeTenant index =>
      s.removing[index]?.map fun (identity, shouldRemoveTenant) =>
        { s.setRegistry (s.node.registry.removeTenant identity shouldRemoveTenant) with
          removing := s.removing.eraseIdx index }
  | .joinGroup t g u => some (s.setRegistry (s.node.registry.joinGroup t g u))
  | .leaveGroup t g u => some (s.setRegistry (s.node.registry.leaveGroup t g u))
  | .createGroup t g => some (s.setRegistry (s.node.registry.createGroup t g))
  | .deleteGroup t g => some (s.setRegistry (s.node.registry.deleteGroup t g))
  | .reply t u text => some { s with node := s.node.sendMsgToUser t u (.text text) }
  | .ping t u => some { s with node := s.node.sendMsgToUser t u .ping }
  | .drain k => (s.node.channels k).recv.map fun (_, rest) => s.setChannel k rest
  | .hangUp k => some (s.setChannel k (s.node.channels k).hangUp)

def machine : Machine Listening Event := ⟨step⟩

/-- A process without connections, with any groups and any stream to come. -/
def start (groups : Table String (Table String (Table String Unit))) (channels : Channels)
    (stream : List ServerMessage) : Listening :=
  ⟨Call.start groups channels, stream, [], []⟩

/-! ### What a connection is sent -/

/-- The group message that a frame is. -/
def groupMessage : Message → Option ServerMessage
  | .json msg => if msg.channelType = .dm then none else some msg
  | .text _ | .ping => none

/-- The group messages that a step puts in the channel of a registered connection. -/
def enqueued (key : Key) (s : Listening) (e : Event) : List ServerMessage :=
  match s.node.registry.find key, step s e with
  | some sender, some after =>
      let before := (s.node.channels sender.channel).queue
      ((after.node.channels sender.channel).queue.drop before.length).filterMap groupMessage
  | _, _ => []

/-- A group message for a connection: it is registered, and its user is a member. -/
def Addressed (key : Key) (node : Node) (msg : ServerMessage) : Prop :=
  (node.registry.find key).isSome = true ∧ msg.channelType ≠ .dm ∧
    msg.tenantId = key.tenantId ∧ msg.FindsMember node key.userId

instance (key : Key) (node : Node) (msg : ServerMessage) : Decidable (Addressed key node msg) := by
  unfold Addressed; infer_instance

/-- The message of the stream that a step handles, and whether it is for the connection. -/
def handled (key : Key) (s : Listening) : Event → List (ServerMessage × Bool)
  | .handle => s.stream.head?.toList.map fun msg => (msg, decide (Addressed key s.node msg))
  | _ => []

/-- A group message for the connection does not find its channel full or closed. -/
def Accepting (key : Key) (s : Listening) : Event → Prop
  | .handle => ∀ msg ∈ s.stream.head?, Addressed key s.node msg →
      ∀ sender ∈ s.node.registry.find key, (s.node.channels sender.channel).Accepts
  | _ => True

instance (key : Key) (s : Listening) (e : Event) : Decidable (Accepting key s e) := by
  unfold Accepting
  cases e <;> infer_instance

/-! ### The channel of a connection -/

/-- A registered connection's channel after the handling of a message. -/
theorem queue_handleMessage {node : Node} (separate : node.Separate) (msg : ServerMessage)
    {key : Key} {sender : SocketSender} (found : node.registry.find key = some sender) :
    (msg.GoesTo node key ∧ ((node.handleMessage msg).channels sender.channel).queue =
        ((node.channels sender.channel).offer (.json msg)).queue) ∨
      (¬ msg.GoesTo node key ∧ ((node.handleMessage msg).channels sender.channel).queue =
        (node.channels sender.channel).queue) := by
  have channels : (node.handleMessage msg).channels =
      (node.flat.send (msg.GoesTo node) (.json msg)).channels :=
    congrArg Flat.channels (Node.flat_handleMessage separate msg)
  have leads : node.flat.Leads (msg.GoesTo node) sender.channel ↔ msg.GoesTo node key :=
    (Node.separate_flat.mpr separate).leads_iff found
  by_cases goes : msg.GoesTo node key
  · refine .inl ⟨goes, ?_⟩
    rw [channels, Flat.channels_send (leads.mpr goes)]
    rfl
  · refine .inr ⟨goes, ?_⟩
    rw [channels, Flat.channels_send_of_not (goes ∘ leads.mp)]
    rfl

/-- A step that neither handles a message nor registers anybody: what it adds to a channel is
no group message. -/
structure Quiet (s s' : Listening) : Prop where
  stream : s'.stream = s.stream
  used : s'.used = s.used
  find : ∀ key sender, s'.node.registry.find key = some sender →
    s.node.registry.find key = some sender
  queue : ∀ k, ∃ taken added, (s'.node.channels k).queue =
    (s.node.channels k).queue.drop taken ++ added ∧ ∀ msg ∈ added, groupMessage msg = none

/-- A step that leaves the channels as they are. -/
theorem Quiet.of_channels {s s' : Listening} (stream : s'.stream = s.stream)
    (used : s'.used = s.used)
    (find : ∀ key sender, s'.node.registry.find key = some sender →
      s.node.registry.find key = some sender)
    (channels : s'.node.channels = s.node.channels) : Quiet s s' where
  stream := stream
  used := used
  find := find
  queue := by
    intro k
    refine ⟨0, [], ?_, by simp⟩
    rw [channels, List.drop_zero, List.append_nil]

theorem Quiet.sendMsgToUser (s : Listening) (t u : String) {msg : Message}
    (none : groupMessage msg = none) :
    Quiet s { s with node := s.node.sendMsgToUser t u msg } where
  stream := rfl
  used := rfl
  find := fun _ _ found => s.node.sender?_of_sendMsgToUser t u msg found
  queue := by
    intro k
    obtain ⟨n, queue⟩ := s.node.queue_sendMsgToUser t u msg k
    refine ⟨0, List.replicate n msg, queue, fun other mem => ?_⟩
    rw [List.eq_of_mem_replicate mem]
    exact none

theorem Quiet.setChannel (s : Listening) (k : ConnectionId) {channel : Channel} (taken : ℕ)
    (queue : channel.queue = (s.node.channels k).queue.drop taken) :
    Quiet s (s.setChannel k channel) where
  stream := rfl
  used := rfl
  find := fun _ _ found => found
  queue := by
    intro k'
    have after : (s.setChannel k channel).node.channels k' =
        if k' = k then channel else s.node.channels k' := Function.update_apply _ _ _ _
    rw [after]
    by_cases here : k' = k
    · refine ⟨taken, [], ?_, by simp⟩
      rw [if_pos here, here, List.append_nil, queue]
    · refine ⟨0, [], ?_, by simp⟩
      rw [if_neg here, List.drop_zero, List.append_nil]

/-- What a step can do. -/
theorem step_cases {s s' : Listening} {e : Event} (next : step s e = some s') :
    (∃ msg rest, e = .handle ∧ s.stream = msg :: rest ∧
      s' = { s with node := s.node.handleMessage msg, stream := rest }) ∨
    (∃ identity id, e = .connect identity id ∧ id ∉ s.used ∧
      s' = { s with
        node :=
          { registry := s.node.registry.insert identity id ⟨id⟩
            channels := Function.update s.node.channels id Channel.new }
        used := id :: s.used }) ∨
    e ≠ .handle ∧ Quiet s s' := by
  cases e with
  | handle =>
      simp only [step] at next
      split at next
      · simp at next
      · rename_i msg rest waiting
        exact .inl ⟨msg, rest, rfl, waiting, (Option.some.inj next).symm⟩
  | connect identity id =>
      simp only [step] at next
      split at next
      · simp at next
      · rename_i fresh
        exact .inr (.inl ⟨identity, id, rfl, fresh, (Option.some.inj next).symm⟩)
  | removeConnection identity id =>
      obtain rfl := Option.some.inj next
      exact .inr (.inr ⟨by simp, .of_channels rfl rfl
        (fun _ _ found => Interleaved.find_of_removeConnection found) rfl⟩)
  | removeTenant index =>
      obtain ⟨⟨identity, flag⟩, _, rfl⟩ := Option.map_eq_some_iff.mp next
      refine .inr (.inr ⟨by simp, .of_channels rfl rfl (fun key sender found => ?_) rfl⟩)
      simp only [setRegistry, Interleaved.find_removeTenant] at found
      split at found
      · simp at found
      · exact found
  | joinGroup t g u | leaveGroup t g u | createGroup t g | deleteGroup t g =>
      obtain rfl := Option.some.inj next
      exact .inr (.inr ⟨by simp, .of_channels rfl rfl (fun _ _ found => found) rfl⟩)
  | reply t u text =>
      obtain rfl := Option.some.inj next
      exact .inr (.inr ⟨by simp, .sendMsgToUser s t u rfl⟩)
  | ping t u =>
      obtain rfl := Option.some.inj next
      exact .inr (.inr ⟨by simp, .sendMsgToUser s t u rfl⟩)
  | drain k =>
      obtain ⟨⟨msg, rest⟩, taken, rfl⟩ := Option.map_eq_some_iff.mp next
      refine .inr (.inr ⟨by simp, .setChannel s k 1 ?_⟩)
      rw [Channel.queue_recv taken]
      rfl
  | hangUp k =>
      obtain rfl := Option.some.inj next
      exact .inr (.inr ⟨by simp, .setChannel s k 0 rfl⟩)

/-! ### Channels of their own -/

/-- Connections have channels of their own, made for ids that were given out. -/
structure Sound (s : Listening) : Prop where
  separate : s.node.Separate
  given : ∀ key sender, s.node.registry.find key = some sender → sender.channel ∈ s.used

theorem sound_start (groups : Table String (Table String (Table String Unit)))
    (channels : Channels) (stream : List ServerMessage) :
    Sound (start groups channels stream) where
  separate := Call.separate_start groups channels
  given := by
    intro key sender found
    simp [start, Call.start, ConnectionRegistry.find, ConnectionRegistry.sender?] at found

/-- A step that registers nobody. -/
theorem Sound.of_find {s s' : Listening} (sound : Sound s) (used : s'.used = s.used)
    (before : ∀ key sender, s'.node.registry.find key = some sender →
      s.node.registry.find key = some sender) : Sound s' where
  separate := by
    intro t u id sender t' u' id' sender' found found'
    exact sound.separate t u id sender t' u' id' sender' (before ⟨t, u, id⟩ sender found)
      (before ⟨t', u', id'⟩ sender' found')
  given := by
    intro key sender found
    rw [used]
    exact sound.given key sender (before key sender found)

/-- A new connection has an id that was not given out before. -/
theorem Sound.connect {s : Listening} (sound : Sound s) (identity : Identity) {id : ConnectionId}
    (fresh : id ∉ s.used) :
    Sound { s with
      node :=
        { registry := s.node.registry.insert identity id ⟨id⟩
          channels := Function.update s.node.channels id Channel.new }
      used := id :: s.used } := by
  have own : Call.Own s.node (Call.key identity id) ⟨id⟩ := by
    rintro ⟨key, sender⟩ mem same
    have found := (s.node.registry.mem_entries key sender).mp mem
    have given := sound.given key sender found
    rw [same] at given
    exact absurd given fresh
  have inserted : Call.machine.step s.node (.insert identity id ⟨id⟩) =
      some { s.node with registry := s.node.registry.insert identity id ⟨id⟩ } := if_pos own
  have separate := Call.separate_step sound.separate inserted
  have table : (s.node.registry.insert identity id ⟨id⟩).find =
      Function.update s.node.registry.find (Call.key identity id) (some ⟨id⟩) :=
    congrArg Flat.table (Call.flat_insert s.node identity id ⟨id⟩)
  refine ⟨separate, fun key sender found => ?_⟩
  simp only [table] at found
  by_cases new : key = Call.key identity id
  · rw [new, Function.update_self] at found
    rw [← Option.some.inj found]
    exact List.mem_cons_self
  · rw [Function.update_of_ne new] at found
    exact List.mem_cons_of_mem _ (sound.given key sender found)

theorem sound_step {s s' : Listening} {e : Event} (sound : Sound s)
    (next : step s e = some s') : Sound s' := by
  rcases step_cases next with
    ⟨msg, rest, rfl, _, rfl⟩ | ⟨identity, id, rfl, fresh, rfl⟩ | ⟨_, quiet⟩
  · exact sound.of_find rfl fun _ _ found => sender?_of_handleMessage s.node msg found
  · exact sound.connect identity fresh
  · exact sound.of_find quiet.used quiet.find

/-! ### One step -/

theorem enqueued_of_find_none {s : Listening} {e : Event} {key : Key}
    (absent : s.node.registry.find key = none) : enqueued key s e = [] := by
  unfold enqueued
  rw [absent]

/-- What is added to the queue of a registered connection is enqueued. -/
theorem enqueued_of_queue {s s' : Listening} {e : Event} {key : Key} {sender : SocketSender}
    (next : step s e = some s') (found : s.node.registry.find key = some sender)
    {added : List Message}
    (queue : (s'.node.channels sender.channel).queue =
      (s.node.channels sender.channel).queue ++ added) :
    enqueued key s e = added.filterMap groupMessage := by
  unfold enqueued
  rw [found, next]
  simp only [queue, List.drop_left]

theorem enqueued_of_queue_eq {s s' : Listening} {e : Event} {key : Key} {sender : SocketSender}
    (next : step s e = some s') (found : s.node.registry.find key = some sender)
    (same : (s'.node.channels sender.channel).queue = (s.node.channels sender.channel).queue) :
    enqueued key s e = [] :=
  enqueued_of_queue next found (same.trans (List.append_nil _).symm)

theorem handled_of_ne {s : Listening} {e : Event} {key : Key} (other : e ≠ .handle) :
    handled key s e = [] := by
  cases e with
  | handle => exact absurd rfl other
  | _ => rfl

/-- A message for a connection is one that the listener sends there. -/
theorem addressed_iff {node : Node} {key : Key} {msg : ServerMessage}
    (registered : (node.registry.find key).isSome = true) :
    Addressed key node msg ↔ msg.channelType ≠ .dm ∧ msg.GoesTo node key := by
  unfold Addressed ServerMessage.GoesTo
  simp only [registered, true_and, eq_comm]
  constructor
  · rintro ⟨kind, tenant, member⟩
    exact ⟨kind, tenant, by rwa [if_pos (.inr kind)]⟩
  · rintro ⟨kind, tenant, member⟩
    exact ⟨kind, tenant, by rwa [if_pos (.inr kind)] at member⟩

/-- The handling of a message enqueues it once if it is for the connection, and else nothing. -/
theorem enqueued_handle {s : Listening} {msg : ServerMessage} {rest : List ServerMessage}
    (sound : Sound s) {key : Key} (waiting : s.stream = msg :: rest)
    (accepting : Accepting key s .handle) :
    enqueued key s .handle = if Addressed key s.node msg then [msg] else [] := by
  have next : step s .handle =
      some { s with node := s.node.handleMessage msg, stream := rest } := by
    simp only [step, waiting]
  cases found : s.node.registry.find key with
  | none =>
      have away : ¬ Addressed key s.node msg := by simp [Addressed, found]
      rw [enqueued_of_find_none found, if_neg away]
  | some sender =>
      have addressed := @addressed_iff s.node key msg (by rw [found]; rfl)
      rcases queue_handleMessage sound.separate msg found with ⟨goes, queue⟩ | ⟨away, queue⟩
      · rw [Channel.queue_offer] at queue
        by_cases accepts : (s.node.channels sender.channel).Accepts
        · rw [if_pos accepts] at queue
          rw [enqueued_of_queue next found queue]
          by_cases kind : msg.channelType = .dm
          · simp [groupMessage, addressed, kind]
          · simp [groupMessage, addressed, kind, goes]
        · rw [if_neg accepts] at queue
          have other : ¬ Addressed key s.node msg := fun both =>
            accepts (accepting msg (by rw [waiting]; rfl) both sender found)
          rw [enqueued_of_queue_eq next found queue, if_neg other]
      · rw [enqueued_of_queue_eq next found queue, if_neg fun both => away (addressed.mp both).2]

/-- What a channel gets in another step is no group message. -/
theorem enqueued_quiet {s s' : Listening} {e : Event} {key : Key} (next : step s e = some s')
    (quiet : Quiet s s') : enqueued key s e = [] := by
  cases found : s.node.registry.find key with
  | none => exact enqueued_of_find_none found
  | some sender =>
      obtain ⟨taken, added, queue, none⟩ := quiet.queue sender.channel
      unfold enqueued
      rw [found, next]
      refine List.filterMap_eq_nil_iff.mpr fun msg mem => none msg ?_
      rw [queue, List.drop_append, List.drop_drop] at mem
      rcases List.mem_append.mp mem with old | new
      · rw [List.drop_of_length_le (Nat.le_add_left _ _)] at old
        simp at old
      · exact List.mem_of_mem_drop new

/-- A new connection's channel is not that of a registered one. -/
theorem enqueued_connect {s s' : Listening} (sound : Sound s) {identity : Identity}
    {id : ConnectionId} (key : Key) (fresh : id ∉ s.used)
    (next : step s (.connect identity id) = some s')
    (channels : s'.node.channels = Function.update s.node.channels id Channel.new) :
    enqueued key s (.connect identity id) = [] := by
  cases found : s.node.registry.find key with
  | none => exact enqueued_of_find_none found
  | some sender =>
      have other : sender.channel ≠ id := fun here => fresh (here ▸ sound.given key sender found)
      apply enqueued_of_queue_eq next found
      rw [channels, Function.update_of_ne other]

/-- A step enqueues the message it handles if it is for the connection, and nothing else. -/
theorem enqueued_eq {s s' : Listening} {e : Event} (sound : Sound s) {key : Key}
    (accepting : Accepting key s e) (next : step s e = some s') :
    enqueued key s e = ((handled key s e).filter Prod.snd).map Prod.fst := by
  rcases step_cases next with
    ⟨msg, rest, rfl, waiting, _⟩ | ⟨identity, id, rfl, fresh, rfl⟩ | ⟨other, quiet⟩
  · rw [enqueued_handle sound waiting accepting]
    simp only [handled, waiting, List.head?_cons, Option.toList_some, List.map_cons,
      List.map_nil, List.filter_cons, decide_eq_true_eq]
    split <;> rfl
  · exact enqueued_connect sound key fresh next rfl
  · rw [enqueued_quiet next quiet, handled_of_ne other]
    rfl

/-- The messages that were handled and those to come are the stream. -/
theorem handled_stream {s s' : Listening} {e : Event} (key : Key) (next : step s e = some s') :
    (handled key s e).map Prod.fst ++ s'.stream = s.stream := by
  rcases step_cases next with
    ⟨msg, rest, rfl, waiting, rfl⟩ | ⟨identity, id, rfl, _, rfl⟩ | ⟨other, quiet⟩
  · simp [handled, waiting]
  · rfl
  · rw [handled_of_ne other, quiet.stream]
    rfl

/-! ### Runs -/

/-- In every interleaving, for a connection whose channel no group message finds full or
closed: the group messages that are enqueued on it while it is registered are, in the order
of the stream and once each, those that found it registered and its user a member. -/
theorem delivered_in_order (groups : Table String (Table String (Table String Unit)))
    (channels : Channels) (stream : List ServerMessage) (key : Key) {events : List Event}
    {s : Listening} (ran : machine.run (start groups channels stream) events = some s)
    (accepting : machine.Steps (Accepting key) (start groups channels stream) events) :
    ∃ (visits : List (ServerMessage × Bool)) (record : List ServerMessage),
      (machine.recording (handled key)).run (start groups channels stream, []) events =
        some (s, visits) ∧
      (machine.recording (enqueued key)).run (start groups channels stream, []) events =
        some (s, record) ∧
      visits.map Prod.fst ++ s.stream = stream ∧
      record = (visits.filter Prod.snd).map Prod.fst := by
  obtain ⟨visits, visited⟩ := @Machine.exists_recording _ _ _ _ (handled key) _ _ _ ran []
  have sound := sound_start groups channels stream
  have recorded := @Machine.run_recording_map _ _ machine _ _ _ _ (Accepting key) Sound
    (fun visits => (visits.filter Prod.snd).map Prod.fst)
    (fun a b => by rw [List.filter_append, List.map_append])
    (fun _ _ _ inv next => sound_step inv next)
    (fun _ _ _ inv ok next => enqueued_eq inv ok next) _ _ _ _ _ sound visited accepting
  refine ⟨visits, _, visited, recorded, ?_, rfl⟩
  let Inv : List Event → Listening × List (ServerMessage × Bool) → Prop := fun _ p =>
    p.2.map Prod.fst ++ p.1.stream = stream
  have init : Inv [] (start groups channels stream, []) := rfl
  have whole : Inv events (s, visits) := by
    refine Machine.invariant init (fun _ p e q before next => ?_) visited
    obtain ⟨stepped, grown⟩ := Machine.step_recording next
    change q.2.map Prod.fst ++ q.1.stream = stream
    rw [grown, List.map_append, List.append_assoc, handled_stream key stepped]
    exact before
  exact whole

/-- A join makes its sender a member for its own fan-out; a message that comes after the
user left is not for the connection. -/
theorem delivered_in_order_leave :
    let join : ServerMessage := ⟨"group_join", 1, "acme", .group, "team", "ada", 0, 7, ⟨"", ""⟩⟩
    let chat : ServerMessage := ⟨"chat", 2, "acme", .group, "team", "bob", 0, 7, ⟨"hi", ""⟩⟩
    let key : Key := ⟨"acme", "ada", 1⟩
    let first := start ∅ (fun _ => Channel.new) [join, chat, chat]
    let events : List Event :=
      [.connect ⟨"acme", "ada"⟩ 1, .handle, .handle, .drain 1, .leaveGroup "acme" "team" "ada",
        .handle]
    ∃ s : Listening, s.stream = [] ∧
      ∃ (visits : List (ServerMessage × Bool)) (record : List ServerMessage),
        (machine.recording (handled key)).run (first, []) events = some (s, visits) ∧
        (machine.recording (enqueued key)).run (first, []) events = some (s, record) ∧
        visits.map Prod.fst ++ s.stream = [join, chat, chat] ∧
        record = (visits.filter Prod.snd).map Prod.fst := by
  intro join chat key first events
  obtain ⟨s, ran, done⟩ : ∃ s ∈ machine.run first events, s.stream = [] := by decide
  have accepting : machine.Steps (Accepting key) first events := by decide
  exact ⟨s, done, delivered_in_order ∅ (fun _ => Channel.new) [join, chat, chat] key ran accepting⟩

end Listening

end YappaCore
