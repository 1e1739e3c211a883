import YappaCore.Lib.Table
import YappaCore.Protocol

/-!
The connection registry of `src/connection/mod.rs`: two nested tables, of senders by
tenant, user and connection and of group members by tenant, group and user, and the
bounded channels the senders lead to.

A channel outlives its entry in the registry: a connection that is removed or evicted
keeps what was queued for it. `Node` is the registry of one process with its channels.

* `sender?` and `isUserInGroup` are what the nested tables come to, and `sender?_insert`,
  `sender?_remove`, `isUserInGroup_joinGroup` and so on what each operation does to them.
* `channels_sendMsgToUser` and `sender?_sendMsgToUser`: a message goes once to each accepting
  channel of the user and nowhere else, and the other connections of the user are evicted.
* `channels_sendMsgToGroup`: a group message goes to connections of members only.
-/

namespace YappaCore

open Lib

/-! ### Channels -/

def CHANNEL_CAPACITY : Nat := 256

abbrev ConnectionId := Uuid

/-- `axum::extract::ws::Message`, as far as the server sends it. `json` is a text: the
serialised message. -/
inductive Message where
  | text (text : String)
  | json (msg : ServerMessage)
  | ping
deriving DecidableEq, Repr

/-- The channel of a connection: whether its receiver is there, and what waits in it. -/
structure Channel where
  isOpen : Bool
  queue : List Message
  bounded : queue.length ≤ CHANNEL_CAPACITY
deriving DecidableEq

inductive TrySendError where
  | full
  | closed
deriving DecidableEq, Repr

namespace Channel

/-- `mpsc::channel(CHANNEL_CAPACITY)`. -/
def new : Channel := ⟨true, [], Nat.zero_le _⟩

/-- `Sender::try_send`. -/
def trySend (msg : Message) (channel : Channel) : Except TrySendError Channel :=
  if !channel.isOpen then .error .closed
  else if room : channel.queue.length < CHANNEL_CAPACITY then
    .ok { channel with
      queue := channel.queue ++ [msg]
      bounded := by
        rw [List.length_append]
        exact room }
  else .error .full

/-- `Receiver::recv`, when a message waits. -/
def recv (channel : Channel) : Option (Message × Channel) :=
  match waiting : channel.queue with
  | [] => none
  | msg :: rest => some (msg, { channel with
      queue := rest
      bounded := by
        have bounded := channel.bounded
        rw [waiting] at bounded
        exact Nat.le_of_succ_le bounded })

/-- The receiver is dropped. -/
def hangUp (channel : Channel) : Channel := { channel with isOpen := false }

/-- The channel is open and not full. -/
def Accepts (channel : Channel) : Prop :=
  channel.isOpen = true ∧ channel.queue.length < CHANNEL_CAPACITY

instance (channel : Channel) : Decidable channel.Accepts := by
  unfold Accepts; infer_instance

/-- The channel after an attempt to send. -/
def offer (msg : Message) (channel : Channel) : Channel :=
  match channel.trySend msg with
  | .ok sent => sent
  | .error _ => channel

/-- An accepting channel takes the message at its end. -/
theorem trySend_of_accepts {channel : Channel} (accepts : channel.Accepts) (msg : Message) :
    ∃ sent, channel.trySend msg = .ok sent ∧ sent.isOpen = channel.isOpen ∧
      sent.queue = channel.queue ++ [msg] := by
  obtain ⟨isOpen, room⟩ := accepts
  unfold trySend
  rw [isOpen]
  exact ⟨_, dif_pos room, rfl, rfl⟩

theorem trySend_of_not_accepts {channel : Channel} (refuses : ¬ channel.Accepts) (msg : Message) :
    ∃ error, channel.trySend msg = .error error := by
  unfold trySend
  by_cases closed : (!channel.isOpen) = true
  · exact ⟨.closed, if_pos closed⟩
  · rw [if_neg closed]
    have full : ¬ channel.queue.length < CHANNEL_CAPACITY := fun room =>
      refuses ⟨by simpa using closed, room⟩
    exact ⟨.full, dif_neg full⟩

theorem offer_of_not_accepts {channel : Channel} (refuses : ¬ channel.Accepts) (msg : Message) :
    channel.offer msg = channel := by
  obtain ⟨error, refused⟩ := trySend_of_not_accepts refuses msg
  unfold offer
  rw [refused]

theorem queue_recv {channel rest : Channel} {msg : Message} (taken : channel.recv = some (msg, rest)) :
    channel.queue = msg :: rest.queue := by
  unfold recv at taken
  split at taken
  · simp at taken
  · rename_i first others waiting
    obtain ⟨rfl, rfl⟩ := Prod.mk.inj (Option.some.inj taken)
    exact waiting

theorem queue_offer (msg : Message) (channel : Channel) : (channel.offer msg).queue =
    if channel.Accepts then channel.queue ++ [msg] else channel.queue := by
  by_cases accepts : channel.Accepts
  · obtain ⟨sent, taken, _, queue⟩ := trySend_of_accepts accepts msg
    unfold offer
    rw [if_pos accepts, taken]
    exact queue
  · rw [if_neg accepts, offer_of_not_accepts accepts]

theorem isOpen_offer (msg : Message) (channel : Channel) :
    (channel.offer msg).isOpen = channel.isOpen := by
  by_cases accepts : channel.Accepts
  · obtain ⟨sent, taken, isOpen, _⟩ := trySend_of_accepts accepts msg
    unfold offer
    rw [taken]
    exact isOpen
  · rw [offer_of_not_accepts accepts]

end Channel

/-- `mpsc::Sender<Message>`: the channel that was made for a connection. -/
structure SocketSender where
  channel : ConnectionId
deriving DecidableEq, Repr

/-! ### `ConnectionRegistry` -/

structure ConnectionRegistry where
  /-- tenant, user, connection: the sender. -/
  inner : Table String (Table String (Table ConnectionId SocketSender))
  /-- tenant, group, user: the members. -/
  groups : Table String (Table String (Table String Unit))
deriving DecidableEq

namespace ConnectionRegistry

def new : ConnectionRegistry := ⟨∅, ∅⟩

def insert (registry : ConnectionRegistry) (identity : Identity) (connectionId : ConnectionId)
    (sender : SocketSender) : ConnectionRegistry :=
  { registry with
    inner := registry.inner.upsert identity.tenantId ∅ fun users =>
      users.upsert identity.userId ∅ fun connections => connections.insert connectionId sender }

def joinGroup (registry : ConnectionRegistry) (tenantId groupId userId : String) :
    ConnectionRegistry :=
  { registry with
    groups := registry.groups.upsert tenantId ∅ fun groups =>
      groups.upsert groupId ∅ fun members => members.insert userId () }

def leaveGroup (registry : ConnectionRegistry) (tenantId groupId userId : String) :
    ConnectionRegistry :=
  { registry with
    groups := registry.groups.alter tenantId fun groups =>
      groups.alter groupId fun members => members.erase userId }

def createGroup (registry : ConnectionRegistry) (tenantId groupId : String) :
    ConnectionRegistry :=
  { registry with
    groups := registry.groups.upsert tenantId ∅ fun groups =>
      groups.upsert groupId ∅ id }

def deleteGroup (registry : ConnectionRegistry) (tenantId groupId : String) :
    ConnectionRegistry :=
  { registry with
    groups := registry.groups.alter tenantId fun groups => groups.erase groupId }

/-- `remove` while it holds the tenant's entry: the connection goes, and the user with
the last one. The flag is `should_remove_tenant`. -/
def removeConnection (registry : ConnectionRegistry) (identity : Identity)
    (connectionId : ConnectionId) : ConnectionRegistry × Bool :=
  match registry.inner.lookup identity.tenantId with
  | none => (registry, false)
  | some users =>
      match users.lookup identity.userId with
      | none => (registry, false)
      | some connections =>
          let connections := connections.erase connectionId
          let users := if connections.entries.isEmpty then users.erase identity.userId
            else users.insert identity.userId connections
          ({ registry with inner := registry.inner.insert identity.tenantId users },
            users.entries.isEmpty)

/-- `remove` after it dropped the tenant's entry. -/
def removeTenant (registry : ConnectionRegistry) (identity : Identity) (shouldRemoveTenant : Bool) :
    ConnectionRegistry :=
  if shouldRemoveTenant then
    { registry with inner := registry.inner.erase identity.tenantId }
  else registry

def remove (registry : ConnectionRegistry) (identity : Identity) (connectionId : ConnectionId) :
    ConnectionRegistry :=
  let removed := registry.removeConnection identity connectionId
  removed.1.removeTenant identity removed.2

def isUserInGroup (registry : ConnectionRegistry) (tenantId groupId userId : String) : Bool :=
  match registry.groups.lookup tenantId with
  | none => false
  | some groups =>
      match groups.lookup groupId with
      | none => false
      | some members => (members.lookup userId).isSome

/-- The sender of a connection. -/
def sender? (registry : ConnectionRegistry) (tenantId userId : String)
    (connectionId : ConnectionId) : Option SocketSender :=
  (registry.inner.lookup tenantId).bind fun users =>
    (users.lookup userId).bind fun connections => connections.lookup connectionId

/-- The users `send_msg_to_group` goes through. -/
def members (registry : ConnectionRegistry) (tenantId groupId : String) : List String :=
  match registry.groups.lookup tenantId with
  | none => []
  | some groups =>
      match groups.lookup groupId with
      | none => []
      | some members => members.keys

/-! ### What the operations do to senders and members -/

section Senders

variable (registry : ConnectionRegistry) (identity : Identity) (connectionId : ConnectionId)

theorem sender?_insert (sender : SocketSender) (tenantId userId : String) (id : ConnectionId) :
    (registry.insert identity connectionId sender).sender? tenantId userId id =
      if tenantId = identity.tenantId ∧ userId = identity.userId ∧ id = connectionId then
        some sender
      else registry.sender? tenantId userId id := by
  unfold sender? insert
  simp only [Table.lookup_upsert]
  by_cases tenant : tenantId = identity.tenantId
  · subst tenant
    simp only [if_true, Option.bind_some, Table.lookup_upsert, true_and]
    by_cases user : userId = identity.userId
    · subst user
      simp only [if_true, Option.bind_some, Table.lookup_insert_eq, true_and]
      split
      · rfl
      · rw [Table.lookup_getD, Table.lookup_getD]
        cases registry.inner.lookup identity.tenantId <;> rfl
    · simp only [user, if_false, false_and]
      rw [Table.lookup_getD]
      cases registry.inner.lookup identity.tenantId <;> rfl
  · simp [tenant]

/-- Writing back a user's connections, or removing the user with the last one. -/
theorem lookup_writeBack (users : Table String (Table ConnectionId SocketSender))
    (connections : Table ConnectionId SocketSender) (user userId : String) (id : ConnectionId) :
    ((if connections.entries.isEmpty then users.erase user
        else users.insert user connections).lookup userId).bind (·.lookup id) =
      if userId = user then connections.lookup id
      else (users.lookup userId).bind (·.lookup id) := by
  split
  · rename_i empty
    rw [Table.lookup_erase_eq]
    split
    · rw [Table.lookup_of_isEmpty id connections empty]
      rfl
    · rfl
  · rw [Table.lookup_insert_eq]
    split <;> rfl

/-- Nothing is found for a tenant without users. -/
theorem sender?_removeTenant (shouldRemoveTenant : Bool)
    (empty : shouldRemoveTenant = true →
      ∀ users, registry.inner.lookup identity.tenantId = some users → users.entries.isEmpty = true)
    (tenantId userId : String) (id : ConnectionId) :
    (registry.removeTenant identity shouldRemoveTenant).sender? tenantId userId id =
      registry.sender? tenantId userId id := by
  unfold removeTenant
  split
  · rename_i flag
    unfold sender?
    simp only [Table.lookup_erase_eq]
    split
    · rename_i same
      subst same
      cases found : registry.inner.lookup identity.tenantId with
      | none => rfl
      | some users =>
          simp [Table.lookup_of_isEmpty userId users (empty flag users found)]
    · rfl
  · rfl

/-- `remove` finds no connections of the user, or takes one of those it finds. -/
theorem removeConnection_cases :
    (registry.removeConnection identity connectionId = (registry, false) ∧
      ∀ id, registry.sender? identity.tenantId identity.userId id = none) ∨
    ∃ users connections, registry.inner.lookup identity.tenantId = some users ∧
      users.lookup identity.userId = some connections ∧
      registry.removeConnection identity connectionId =
        let connections := connections.erase connectionId
        let users := if connections.entries.isEmpty then users.erase identity.userId
          else users.insert identity.userId connections
        ({ registry with inner := registry.inner.insert identity.tenantId users },
          users.entries.isEmpty) := by
  unfold removeConnection sender?
  cases tenant : registry.inner.lookup identity.tenantId with
  | none => exact .inl ⟨rfl, fun _ => rfl⟩
  | some users =>
      cases user : users.lookup identity.userId with
      | none => exact .inl ⟨by simp only [user], fun _ => by simp only [user, Option.bind_some]; rfl⟩
      | some connections => exact .inr ⟨users, connections, rfl, user, by simp only [user]⟩

theorem sender?_removeConnection (tenantId userId : String) (id : ConnectionId) :
    (registry.removeConnection identity connectionId).1.sender? tenantId userId id =
      if tenantId = identity.tenantId ∧ userId = identity.userId ∧ id = connectionId then none
      else registry.sender? tenantId userId id := by
  rcases registry.removeConnection_cases identity connectionId with
    ⟨same, absent⟩ | ⟨users, connections, tenant, user, removed⟩
  · rw [same]
    split
    · rename_i own
      rw [own.1, own.2.1]
      exact absent id
    · rfl
  · rw [removed]
    unfold sender?
    simp only [Table.lookup_insert_eq]
    by_cases sameTenant : tenantId = identity.tenantId
    · subst sameTenant
      simp only [if_true, Option.bind_some, lookup_writeBack, true_and, tenant]
      by_cases sameUser : userId = identity.userId
      · subst sameUser
        simp only [if_true, true_and, user, Option.bind_some, Table.lookup_erase_eq]
      · simp only [sameUser, if_false, false_and]
    · simp only [sameTenant, if_false, false_and]

theorem sender?_remove (tenantId userId : String) (id : ConnectionId) :
    (registry.remove identity connectionId).sender? tenantId userId id =
      if tenantId = identity.tenantId ∧ userId = identity.userId ∧ id = connectionId then none
      else registry.sender? tenantId userId id := by
  unfold remove
  rw [sender?_removeTenant, sender?_removeConnection]
  intro flag users found
  rcases registry.removeConnection_cases identity connectionId with
    ⟨same, absent⟩ | ⟨old, connections, tenant, user, removed⟩
  · rw [same] at flag
    simp at flag
  · rw [removed] at flag found
    simp only [Table.lookup_insert_eq, if_true, Option.some.injEq] at found
    rw [← found]
    exact flag

theorem groups_removeTenant (shouldRemoveTenant : Bool) :
    (registry.removeTenant identity shouldRemoveTenant).groups = registry.groups := by
  unfold removeTenant
  split <;> rfl

theorem groups_remove : (registry.remove identity connectionId).groups = registry.groups := by
  unfold remove
  rw [groups_removeTenant]
  rcases registry.removeConnection_cases identity connectionId with
    ⟨same, absent⟩ | ⟨old, connections, tenant, user, removed⟩
  · rw [same]
  · rw [removed]

end Senders

section Members

variable (registry : ConnectionRegistry) (tenantId groupId userId t g u : String)

theorem isUserInGroup_eq : registry.isUserInGroup tenantId groupId userId =
    ((registry.groups.lookup tenantId).bind fun groups =>
      (groups.lookup groupId).bind fun members => members.lookup userId).isSome := by
  unfold isUserInGroup
  cases registry.groups.lookup tenantId with
  | none => rfl
  | some groups => cases group : groups.lookup groupId <;> simp [group]

/-- A group message goes to the members. -/
theorem mem_members : u ∈ registry.members t g ↔ registry.isUserInGroup t g u = true := by
  rw [isUserInGroup_eq]
  unfold members
  cases registry.groups.lookup t with
  | none => simp
  | some groups =>
      cases group : groups.lookup g with
      | none => simp [group]
      | some members =>
          simp only [group, Option.bind_some]
          exact AList.mem_keys.symm.trans AList.lookup_isSome.symm

theorem isUserInGroup_joinGroup : (registry.joinGroup tenantId groupId userId).isUserInGroup t g u =
    (decide (t = tenantId ∧ g = groupId ∧ u = userId) || registry.isUserInGroup t g u) := by
  rw [isUserInGroup_eq, isUserInGroup_eq]
  unfold joinGroup
  simp only [Table.lookup_upsert]
  by_cases tenant : t = tenantId
  · subst tenant
    simp only [if_true, Option.bind_some, Table.lookup_upsert, true_and]
    by_cases group : g = groupId
    · subst group
      simp only [if_true, Option.bind_some, Table.lookup_insert_eq, true_and, Table.lookup_getD]
      by_cases user : u = userId
      · simp [user]
      · simp only [user, if_false, decide_false, Bool.false_or]
        cases registry.groups.lookup t <;> rfl
    · simp only [group, if_false, false_and, decide_false, Bool.false_or, Table.lookup_getD]
      cases registry.groups.lookup t <;> rfl
  · simp [tenant]

theorem isUserInGroup_leaveGroup :
    (registry.leaveGroup tenantId groupId userId).isUserInGroup t g u =
      (!decide (t = tenantId ∧ g = groupId ∧ u = userId) && registry.isUserInGroup t g u) := by
  rw [isUserInGroup_eq, isUserInGroup_eq]
  unfold leaveGroup
  simp only [Table.lookup_alter]
  by_cases tenant : t = tenantId
  · subst tenant
    simp only [if_true, true_and]
    cases registry.groups.lookup t with
    | none => simp
    | some groups =>
        simp only [Option.map_some, Option.bind_some, Table.lookup_alter]
        by_cases group : g = groupId
        · subst group
          simp only [if_true, true_and]
          cases groups.lookup g with
          | none => simp
          | some members =>
              simp only [Option.map_some, Option.bind_some, Table.lookup_erase_eq]
              by_cases user : u = userId <;> simp [user]
        · simp [group]
  · simp [tenant]

theorem isUserInGroup_createGroup :
    (registry.createGroup tenantId groupId).isUserInGroup t g u = registry.isUserInGroup t g u := by
  rw [isUserInGroup_eq, isUserInGroup_eq]
  unfold createGroup
  simp only [Table.lookup_upsert]
  by_cases tenant : t = tenantId
  · subst tenant
    simp only [if_true, Option.bind_some, Table.lookup_upsert]
    by_cases group : g = groupId
    · subst group
      simp only [if_true, Option.bind_some, Table.lookup_getD, id]
      cases registry.groups.lookup t <;> rfl
    · simp only [group, if_false, Table.lookup_getD]
      cases registry.groups.lookup t <;> rfl
  · simp [tenant]

theorem isUserInGroup_deleteGroup :
    (registry.deleteGroup tenantId groupId).isUserInGroup t g u =
      (!decide (t = tenantId ∧ g = groupId) && registry.isUserInGroup t g u) := by
  rw [isUserInGroup_eq, isUserInGroup_eq]
  unfold deleteGroup
  simp only [Table.lookup_alter]
  by_cases tenant : t = tenantId
  · subst tenant
    simp only [if_true, true_and]
    cases registry.groups.lookup t with
    | none => simp
    | some groups =>
        simp only [Option.map_some, Option.bind_some, Table.lookup_erase_eq]
        by_cases group : g = groupId <;> simp [group]
  · simp [tenant]

end Members

end ConnectionRegistry

/-! ### Sending -/

/-- The channels of a process. -/
abbrev Channels := ConnectionId → Channel

/-- Try to send to each of a user's connections; the second part lists the stale ones. -/
def fanOut (msg : Message) : List ((_ : ConnectionId) × SocketSender) → Channels →
    Channels × List ConnectionId
  | [], channels => (channels, [])
  | ⟨connectionId, sender⟩ :: rest, channels =>
      match (channels sender.channel).trySend msg with
      | .ok sent => fanOut msg rest (Function.update channels sender.channel sent)
      | .error _ =>
          let (channels, stale) := fanOut msg rest channels
          (channels, connectionId :: stale)

/-- A process: its registry and the channels of its connections. -/
structure Node where
  registry : ConnectionRegistry
  channels : Channels

namespace Node

/-- `send_msg_to_user`. -/
def sendMsgToUser (node : Node) (tenantId userId : String) (msg : Message) : Node :=
  match node.registry.inner.lookup tenantId with
  | none => node
  | some users =>
      match users.lookup userId with
      | none => node
      | some connections =>
          let (channels, stale) := fanOut msg connections.entries node.channels
          let connections := connections.eraseAll stale
          let users := if connections.entries.isEmpty then users.erase userId
            else users.insert userId connections
          { registry := { node.registry with inner := node.registry.inner.insert tenantId users }
            channels }

/-- `send_msg_to_group`. -/
def sendMsgToGroup (node : Node) (tenantId groupId : String) (msg : Message) : Node :=
  (node.registry.members tenantId groupId).foldl
    (fun node userId => node.sendMsgToUser tenantId userId msg) node

end Node

/-! ### What a send does -/

section FanOut

variable (msg : Message)

/-- Only the channels of the entries change. -/
theorem fanOut_channel_of_ne {entries : List ((_ : ConnectionId) × SocketSender)}
    {k : ConnectionId} (other : ∀ entry ∈ entries, entry.2.channel ≠ k) (channels : Channels) :
    (fanOut msg entries channels).1 k = channels k := by
  induction entries generalizing channels with
  | nil => rfl
  | cons entry rest ih =>
      have later := ih fun entry mem => other entry (List.mem_cons_of_mem _ mem)
      have here : k ≠ entry.2.channel := Ne.symm (other entry List.mem_cons_self)
      unfold fanOut
      split
      · rw [later, Function.update_of_ne here]
      · exact later channels

/-- A channel grows by copies of the message. -/
theorem fanOut_queue (entries : List ((_ : ConnectionId) × SocketSender)) (channels : Channels)
    (k : ConnectionId) : ∃ n, ((fanOut msg entries channels).1 k).queue =
      (channels k).queue ++ List.replicate n msg := by
  induction entries generalizing channels with
  | nil => exact ⟨0, (List.append_nil _).symm⟩
  | cons entry rest ih =>
      unfold fanOut
      split
      · rename_i sent taken
        obtain ⟨n, queue⟩ := ih (Function.update channels entry.2.channel sent)
        by_cases here : k = entry.2.channel
        · subst here
          have accepts : (channels entry.2.channel).Accepts := by
            by_contra refuses
            obtain ⟨error, refused⟩ := Channel.trySend_of_not_accepts refuses msg
            rw [refused] at taken
            simp at taken
          obtain ⟨sent', taken', _, grown⟩ := Channel.trySend_of_accepts accepts msg
          obtain rfl : sent' = sent := Except.ok.inj (taken'.symm.trans taken)
          refine ⟨n + 1, ?_⟩
          rw [queue, Function.update_self, grown, List.append_assoc]
          rfl
        · rw [Function.update_of_ne here] at queue
          exact ⟨n, queue⟩
      · exact ih channels

section Distinct

variable {entries : List ((_ : ConnectionId) × SocketSender)}
  (distinct : (entries.map fun entry => entry.2.channel).Nodup)

include distinct

/-- Each entry's channel is offered the message once. -/
theorem fanOut_channel {entry : (_ : ConnectionId) × SocketSender} (mem : entry ∈ entries)
    (channels : Channels) : (fanOut msg entries channels).1 entry.2.channel =
      (channels entry.2.channel).offer msg := by
  induction entries generalizing channels with
  | nil => simp at mem
  | cons first rest ih =>
      rw [List.map_cons, List.nodup_cons] at distinct
      obtain ⟨alone, distinct⟩ := distinct
      have others : ∀ entry ∈ rest, entry.2.channel ≠ first.2.channel := fun entry mem same =>
        alone (List.mem_map.mpr ⟨entry, mem, same⟩)
      unfold fanOut
      rcases List.mem_cons.mp mem with rfl | mem
      · split
        · rename_i sent taken
          rw [fanOut_channel_of_ne msg others, Function.update_self]
          unfold Channel.offer
          rw [taken]
        · rename_i error refused
          rw [fanOut_channel_of_ne msg others]
          unfold Channel.offer
          rw [refused]
      · split
        · rw [ih distinct mem, Function.update_of_ne (others entry mem)]
        · exact ih distinct mem channels

/-- The stale connections are those whose channel does not accept. -/
theorem mem_stale (channels : Channels) (id : ConnectionId) :
    id ∈ (fanOut msg entries channels).2 ↔
      ∃ entry ∈ entries, entry.1 = id ∧ ¬ (channels entry.2.channel).Accepts := by
  induction entries generalizing channels with
  | nil => simp [fanOut]
  | cons first rest ih =>
      rw [List.map_cons, List.nodup_cons] at distinct
      obtain ⟨alone, distinct⟩ := distinct
      have others : ∀ entry ∈ rest, entry.2.channel ≠ first.2.channel := fun entry mem same =>
        alone (List.mem_map.mpr ⟨entry, mem, same⟩)
      by_cases accepts : (channels first.2.channel).Accepts
      · obtain ⟨sent, taken, _⟩ := Channel.trySend_of_accepts accepts msg
        have step : (fanOut msg (first :: rest) channels).2 =
            (fanOut msg rest (Function.update channels first.2.channel sent)).2 := by
          simp only [fanOut, taken]
        rw [step, ih distinct]
        constructor
        · rintro ⟨entry, mem, same, refuses⟩
          rw [Function.update_of_ne (others entry mem)] at refuses
          exact ⟨entry, List.mem_cons_of_mem _ mem, same, refuses⟩
        · rintro ⟨entry, mem, same, refuses⟩
          rcases List.mem_cons.mp mem with rfl | mem
          · exact absurd accepts refuses
          · refine ⟨entry, mem, same, ?_⟩
            rwa [Function.update_of_ne (others entry mem)]
      · obtain ⟨error, refused⟩ := Channel.trySend_of_not_accepts accepts msg
        have step : (fanOut msg (first :: rest) channels).2 =
            first.1 :: (fanOut msg rest channels).2 := by
          simp only [fanOut, refused]
        rw [step, List.mem_cons, ih distinct]
        constructor
        · rintro (rfl | ⟨entry, mem, same, refuses⟩)
          · exact ⟨first, List.mem_cons_self, rfl, accepts⟩
          · exact ⟨entry, List.mem_cons_of_mem _ mem, same, refuses⟩
        · rintro ⟨entry, mem, same, refuses⟩
          rcases List.mem_cons.mp mem with rfl | mem
          · exact .inl same.symm
          · exact .inr ⟨entry, mem, same, refuses⟩

end Distinct

end FanOut

namespace Node

/-- A channel is that of a registered connection of a user. -/
def Reaches (node : Node) (tenantId userId : String) (k : ConnectionId) : Prop :=
  ∃ connectionId sender, node.registry.sender? tenantId userId connectionId = some sender ∧
    sender.channel = k

/-- Every registered connection has a channel of its own. -/
def Separate (node : Node) : Prop :=
  ∀ t u c sender t' u' c' sender', node.registry.sender? t u c = some sender →
    node.registry.sender? t' u' c' = some sender' → sender.channel = sender'.channel →
    t = t' ∧ u = u' ∧ c = c'

variable (node : Node) (tenantId userId : String) (msg : Message)

/-- `send_msg_to_user` finds no connections, or goes through those it finds. -/
theorem sendMsgToUser_cases :
    (node.sendMsgToUser tenantId userId msg = node ∧
      ∀ id, node.registry.sender? tenantId userId id = none) ∨
    ∃ connections : Table ConnectionId SocketSender,
      (∀ id, node.registry.sender? tenantId userId id = connections.lookup id) ∧
      (node.sendMsgToUser tenantId userId msg).channels =
        (fanOut msg connections.entries node.channels).1 ∧
      (node.sendMsgToUser tenantId userId msg).registry.groups = node.registry.groups ∧
      ∀ t u id, (node.sendMsgToUser tenantId userId msg).registry.sender? t u id =
        if t = tenantId ∧ u = userId then
          (connections.eraseAll (fanOut msg connections.entries node.channels).2).lookup id
        else node.registry.sender? t u id := by
  unfold sendMsgToUser ConnectionRegistry.sender?
  cases tenant : node.registry.inner.lookup tenantId with
  | none => exact .inl ⟨rfl, fun _ => rfl⟩
  | some users =>
      cases user : users.lookup userId with
      | none =>
          refine .inl ⟨by simp only [user], fun id => ?_⟩
          simp only [user, Option.bind_some]
          rfl
      | some connections =>
          simp only [user]
          refine .inr ⟨connections, fun id => by simp only [Option.bind_some, user], rfl,
            trivial, ?_⟩
          intro t u id
          simp only [Table.lookup_insert_eq]
          by_cases sameTenant : t = tenantId
          · subst sameTenant
            simp only [if_true, Option.bind_some, true_and, tenant]
            exact ConnectionRegistry.lookup_writeBack users _ userId u id
          · simp only [sameTenant, if_false, false_and]

theorem groups_sendMsgToUser :
    (node.sendMsgToUser tenantId userId msg).registry.groups = node.registry.groups := by
  rcases node.sendMsgToUser_cases tenantId userId msg with ⟨same, _⟩ | ⟨_, _, _, groups, _⟩
  · rw [same]
  · exact groups

/-- A send registers nobody. -/
theorem sender?_of_sendMsgToUser {t u : String} {id : ConnectionId} {sender : SocketSender}
    (found : (node.sendMsgToUser tenantId userId msg).registry.sender? t u id = some sender) :
    node.registry.sender? t u id = some sender := by
  rcases node.sendMsgToUser_cases tenantId userId msg with
    ⟨same, _⟩ | ⟨connections, before, _, _, after⟩
  · rwa [same] at found
  · rw [after] at found
    split at found
    · rename_i own
      rw [Table.lookup_eraseAll] at found
      split at found
      · simp at found
      · rw [own.1, own.2, before]
        exact found
    · exact found

/-- Nothing is sent to channels of others. -/
theorem channels_sendMsgToUser_of_not_reaches {k : ConnectionId}
    (other : ¬ node.Reaches tenantId userId k) :
    (node.sendMsgToUser tenantId userId msg).channels k = node.channels k := by
  rcases node.sendMsgToUser_cases tenantId userId msg with
    ⟨same, _⟩ | ⟨connections, before, channels, _, _⟩
  · rw [same]
  · rw [channels]
    refine fanOut_channel_of_ne msg (fun entry mem here => other ?_) node.channels
    refine ⟨entry.1, entry.2, ?_, here⟩
    rw [before]
    exact (Table.mem_entries_iff entry.1 connections).mp mem

theorem queue_sendMsgToUser (k : ConnectionId) :
    ∃ n, ((node.sendMsgToUser tenantId userId msg).channels k).queue =
      (node.channels k).queue ++ List.replicate n msg := by
  rcases node.sendMsgToUser_cases tenantId userId msg with
    ⟨same, _⟩ | ⟨connections, _, channels, _, _⟩
  · rw [same]
    exact ⟨0, (List.append_nil _).symm⟩
  · rw [channels]
    exact fanOut_queue msg connections.entries node.channels k

section Separate

variable {node tenantId userId} (separate : node.Separate)

include separate

/-- The connections of a user have distinct channels. -/
theorem Separate.nodup {connections : Table ConnectionId SocketSender}
    (found : ∀ id, node.registry.sender? tenantId userId id = connections.lookup id) :
    (connections.entries.map fun entry => entry.2.channel).Nodup := by
  have entries : connections.entries.Nodup := connections.nodupKeys.nodup
  apply entries.map_on
  rintro ⟨id, sender⟩ mem ⟨id', sender'⟩ mem' same
  have first := (Table.mem_entries_iff id connections).mp mem
  have second := (Table.mem_entries_iff id' connections).mp mem'
  rw [← found] at first second
  obtain ⟨_, _, rfl⟩ := separate _ _ _ _ _ _ _ _ first second same
  rw [first] at second
  rw [Option.some.inj second]

/-- Each channel of the user is offered the message once. -/
theorem channels_sendMsgToUser {k : ConnectionId} (reaches : node.Reaches tenantId userId k) :
    (node.sendMsgToUser tenantId userId msg).channels k = (node.channels k).offer msg := by
  obtain ⟨id, sender, found, rfl⟩ := reaches
  rcases node.sendMsgToUser_cases tenantId userId msg with
    ⟨_, absent⟩ | ⟨connections, before, channels, _, _⟩
  · rw [absent] at found
    simp at found
  · rw [channels]
    have mem : (⟨id, sender⟩ : (_ : ConnectionId) × SocketSender) ∈ connections.entries :=
      (Table.mem_entries_iff id connections).mpr (before id ▸ found)
    exact fanOut_channel msg (separate.nodup before) mem node.channels

/-- The user keeps the connections whose channel accepted; nobody else loses any. -/
theorem sender?_sendMsgToUser {t u : String} {id : ConnectionId} {sender : SocketSender} :
    (node.sendMsgToUser tenantId userId msg).registry.sender? t u id = some sender ↔
      node.registry.sender? t u id = some sender ∧
        (t = tenantId ∧ u = userId → (node.channels sender.channel).Accepts) := by
  rcases node.sendMsgToUser_cases tenantId userId msg with
    ⟨same, absent⟩ | ⟨connections, before, _, _, after⟩
  · rw [same]
    refine ⟨fun found => ⟨found, ?_⟩, fun both => both.1⟩
    rintro ⟨rfl, rfl⟩
    rw [absent] at found
    simp at found
  · rw [after]
    by_cases own : t = tenantId ∧ u = userId
    · obtain ⟨rfl, rfl⟩ := own
      rw [if_pos ⟨rfl, rfl⟩, Table.lookup_eraseAll, before]
      have stale := mem_stale msg (separate.nodup before) node.channels id
      constructor
      · intro found
        split at found
        · simp at found
        · rename_i kept
          refine ⟨found, fun _ => ?_⟩
          by_contra refuses
          exact kept (stale.mpr ⟨⟨id, sender⟩, (Table.mem_entries_iff id connections).mpr found,
            rfl, refuses⟩)
      · rintro ⟨found, accepts⟩
        rw [if_neg, found]
        intro evicted
        obtain ⟨⟨id', sender'⟩, mem, rfl, refuses⟩ := stale.mp evicted
        have other := (Table.mem_entries_iff id' connections).mp mem
        rw [found] at other
        obtain rfl := Option.some.inj other
        exact refuses (accepts ⟨rfl, rfl⟩)
    · rw [if_neg own]
      exact ⟨fun found => ⟨found, fun both => absurd both own⟩, fun both => both.1⟩

theorem Separate.sendMsgToUser : (node.sendMsgToUser tenantId userId msg).Separate := by
  intro t u c sender t' u' c' sender' found found'
  exact separate t u c sender t' u' c' sender'
    (node.sender?_of_sendMsgToUser tenantId userId msg found)
    (node.sender?_of_sendMsgToUser tenantId userId msg found')

end Separate

/-! ### Sending to a group -/

section Group

variable (users : List String)

/-- Send to each user of a list. -/
theorem groups_foldl_sendMsgToUser :
    (users.foldl (fun node userId => node.sendMsgToUser tenantId userId msg) node).registry.groups =
      node.registry.groups := by
  induction users generalizing node with
  | nil => rfl
  | cons user rest ih => rw [List.foldl_cons, ih, groups_sendMsgToUser]

theorem sender?_of_foldl_sendMsgToUser {t u : String} {id : ConnectionId} {sender : SocketSender}
    (found : (users.foldl (fun node userId => node.sendMsgToUser tenantId userId msg)
      node).registry.sender? t u id = some sender) :
    node.registry.sender? t u id = some sender := by
  induction users generalizing node with
  | nil => exact found
  | cons user rest ih => exact node.sender?_of_sendMsgToUser tenantId user msg (ih _ found)

theorem channels_foldl_sendMsgToUser {k : ConnectionId}
    (others : ∀ user ∈ users, ¬ node.Reaches tenantId user k) :
    (users.foldl (fun node userId => node.sendMsgToUser tenantId userId msg) node).channels k =
      node.channels k := by
  induction users generalizing node with
  | nil => rfl
  | cons user rest ih =>
      rw [List.foldl_cons, ih]
      · exact node.channels_sendMsgToUser_of_not_reaches tenantId user msg
          (others user List.mem_cons_self)
      · rintro other mem ⟨id, sender, found, here⟩
        exact others other (List.mem_cons_of_mem _ mem)
          ⟨id, sender, node.sender?_of_sendMsgToUser tenantId user msg found, here⟩

theorem queue_foldl_sendMsgToUser (k : ConnectionId) : ∃ n,
    ((users.foldl (fun node userId => node.sendMsgToUser tenantId userId msg)
      node).channels k).queue = (node.channels k).queue ++ List.replicate n msg := by
  induction users generalizing node with
  | nil => exact ⟨0, (List.append_nil _).symm⟩
  | cons user rest ih =>
      obtain ⟨n, first⟩ := node.queue_sendMsgToUser tenantId user msg k
      obtain ⟨m, later⟩ := ih (node.sendMsgToUser tenantId user msg)
      refine ⟨n + m, ?_⟩
      rw [List.foldl_cons, later, first, List.append_assoc, List.replicate_append_replicate]

end Group

variable (groupId : String)

theorem groups_sendMsgToGroup :
    (node.sendMsgToGroup tenantId groupId msg).registry.groups = node.registry.groups :=
  node.groups_foldl_sendMsgToUser tenantId msg _

theorem sender?_of_sendMsgToGroup {t u : String} {id : ConnectionId} {sender : SocketSender}
    (found : (node.sendMsgToGroup tenantId groupId msg).registry.sender? t u id = some sender) :
    node.registry.sender? t u id = some sender :=
  node.sender?_of_foldl_sendMsgToUser tenantId msg _ found

/-- Nothing is sent to channels of users that are not members. -/
theorem channels_sendMsgToGroup {k : ConnectionId}
    (others : ∀ user, node.registry.isUserInGroup tenantId groupId user = true →
      ¬ node.Reaches tenantId user k) :
    (node.sendMsgToGroup tenantId groupId msg).channels k = node.channels k := by
  refine node.channels_foldl_sendMsgToUser tenantId msg _ fun user mem => others user ?_
  exact (node.registry.mem_members tenantId groupId user).mp mem

theorem queue_sendMsgToGroup (k : ConnectionId) :
    ∃ n, ((node.sendMsgToGroup tenantId groupId msg).channels k).queue =
      (node.channels k).queue ++ List.replicate n msg :=
  node.queue_foldl_sendMsgToUser tenantId msg _ k

end Node

end YappaCore
