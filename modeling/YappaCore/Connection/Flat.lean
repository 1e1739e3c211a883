import Mathlib.Data.List.Perm.Basic
import YappaCore.Lib.Machine
import YappaCore.Connection

/-!
The connections of the registry as one flat table: a key of tenant, user and connection
leads to a channel, and nothing of the nesting shows.

`Flat` is that table with its four operations, each a statement about all keys at once.
The maps of the source are iterated in no particular order, so a call of the registry
carries the orders its loops go through. `registry_refines_flat`: whatever they are, every
sequence of calls does to the nested tables what it does to the flat one, and a send to a
group is a send to each member, in any order of the members.
-/

namespace YappaCore

open Lib

/-! ### The flat table -/

structure Key where
  tenantId : String
  userId : String
  connectionId : ConnectionId
deriving DecidableEq, Repr

/-- Which channel each key leads to, the channels, and the members of the groups. -/
structure Flat where
  table : Key → Option SocketSender
  channels : Channels
  member : String → String → String → Bool

namespace Flat

/-- Add a key, or replace what it led to. -/
def insert (flat : Flat) (key : Key) (sender : SocketSender) : Flat :=
  { flat with table := Function.update flat.table key (some sender) }

def remove (flat : Flat) (key : Key) : Flat :=
  { flat with table := Function.update flat.table key none }

/-- A channel is that of a key in a set. -/
def Leads (flat : Flat) (keys : Key → Prop) (k : ConnectionId) : Prop :=
  ∃ key sender, keys key ∧ flat.table key = some sender ∧ sender.channel = k

open Classical in
/-- Every channel of the keys that is open and not full gets the message at its end; the
keys of the others are deleted, and what waits in those channels stays as it is. -/
noncomputable def send (flat : Flat) (keys : Key → Prop) (msg : Message) : Flat :=
  { flat with
    table := fun key =>
      if keys key then (flat.table key).filter fun sender => (flat.channels sender.channel).Accepts
      else flat.table key
    channels := fun k =>
      if flat.Leads keys k then (flat.channels k).offer msg else flat.channels k }

noncomputable def sendMsgToUser (flat : Flat) (tenantId userId : String) (msg : Message) : Flat :=
  flat.send (fun key => key.tenantId = tenantId ∧ key.userId = userId) msg

/-- One send to the connections of all members. -/
noncomputable def sendMsgToGroup (flat : Flat) (tenantId groupId : String) (msg : Message) :
    Flat :=
  flat.send (fun key => key.tenantId = tenantId ∧ flat.member tenantId groupId key.userId = true)
    msg

/-- No two keys lead to one channel. -/
def Separate (flat : Flat) : Prop :=
  ∀ key key' sender sender', flat.table key = some sender → flat.table key' = some sender' →
    sender.channel = sender'.channel → key = key'

variable {flat : Flat} {keys keys' : Key → Prop} {msg : Message}

theorem table_send {key : Key} {sender : SocketSender} :
    (flat.send keys msg).table key = some sender ↔
      flat.table key = some sender ∧ (keys key → (flat.channels sender.channel).Accepts) := by
  unfold send
  by_cases own : keys key
  · simp [own, Option.filter_eq_some_iff]
  · simp [own]

theorem channels_send {k : ConnectionId} (leads : flat.Leads keys k) :
    (flat.send keys msg).channels k = (flat.channels k).offer msg := if_pos leads

theorem channels_send_of_not {k : ConnectionId} (away : ¬ flat.Leads keys k) :
    (flat.send keys msg).channels k = flat.channels k := if_neg away

theorem Separate.send (separate : flat.Separate) : (flat.send keys msg).Separate := by
  intro key key' sender sender' found found' same
  exact separate key key' sender sender' (table_send.mp found).1 (table_send.mp found').1 same

/-- A key is inserted with a channel that no other key leads to. -/
theorem Separate.insert (separate : flat.Separate) {key : Key} {sender : SocketSender}
    (alone : ∀ key' sender', flat.table key' = some sender' → sender'.channel = sender.channel →
      key' = key) : (flat.insert key sender).Separate := by
  intro key₁ key₂ sender₁ sender₂ found₁ found₂ same
  simp only [Flat.insert] at found₁ found₂
  by_cases first : key₁ = key
  · by_cases second : key₂ = key
    · rw [first, second]
    · rw [first, Function.update_self] at found₁
      rw [Function.update_of_ne second] at found₂
      obtain rfl := Option.some.inj found₁
      rw [first, alone key₂ sender₂ found₂ same.symm]
  · rw [Function.update_of_ne first] at found₁
    by_cases second : key₂ = key
    · rw [second, Function.update_self] at found₂
      obtain rfl := Option.some.inj found₂
      rw [second, alone key₁ sender₁ found₁ same]
    · rw [Function.update_of_ne second] at found₂
      exact separate key₁ key₂ sender₁ sender₂ found₁ found₂ same

theorem Separate.remove (separate : flat.Separate) (key : Key) : (flat.remove key).Separate := by
  have kept : ∀ {key' sender'}, (flat.remove key).table key' = some sender' →
      flat.table key' = some sender' := by
    intro key' sender' found
    simp only [Flat.remove] at found
    by_cases own : key' = key
    · rw [own, Function.update_self] at found
      simp at found
    · rwa [Function.update_of_ne own] at found
  intro key₁ key₂ sender₁ sender₂ found₁ found₂ same
  exact separate key₁ key₂ sender₁ sender₂ (kept found₁) (kept found₂) same

/-- The channel of a key is reached through that key only. -/
theorem Separate.leads_iff (separate : flat.Separate) {key : Key} {sender : SocketSender}
    (found : flat.table key = some sender) : flat.Leads keys sender.channel ↔ keys key := by
  constructor
  · rintro ⟨other, sender', own, found', same⟩
    obtain rfl := separate other key sender' sender found' found same
    exact own
  · exact fun own => ⟨key, sender, own, found, rfl⟩

/-- A send to no keys changes nothing. -/
theorem send_none (none : ∀ key, ¬ keys key) : flat.send keys msg = flat := by
  have nowhere : ∀ k, ¬ flat.Leads keys k := fun k ⟨key, _, own, _⟩ => none key own
  unfold Flat.send
  simp [none, nowhere]

/-- A channel that leads from one of two sets without a common key does not lead from the other. -/
theorem Separate.leads_once (separate : flat.Separate) (disjoint : ∀ key, keys key → ¬ keys' key)
    {k : ConnectionId} (first : flat.Leads keys k) : ¬ flat.Leads keys' k := by
  obtain ⟨key, sender, own, found, rfl⟩ := first
  rintro ⟨key', sender', own', found', same⟩
  obtain rfl := separate key key' sender sender' found found' same.symm
  exact disjoint key own own'

/-- A send to the one changes nothing about the other. -/
theorem leads_send (disjoint : ∀ key, keys key → ¬ keys' key) (k : ConnectionId) :
    (flat.send keys msg).Leads keys' k ↔ flat.Leads keys' k := by
  constructor
  · rintro ⟨key, sender, own, found, here⟩
    exact ⟨key, sender, own, (table_send.mp found).1, here⟩
  · rintro ⟨key, sender, own, found, here⟩
    exact ⟨key, sender, own, table_send.mpr ⟨found, fun both => absurd own (disjoint key both)⟩,
      here⟩

theorem leads_or (k : ConnectionId) : flat.Leads (fun key => keys key ∨ keys' key) k ↔
    flat.Leads keys k ∨ flat.Leads keys' k := by
  unfold Leads
  simp only [or_and_right, exists_or]

/-- Sends to two sets of keys without a common one are a send to both. -/
theorem send_send (separate : flat.Separate) (disjoint : ∀ key, keys key → ¬ keys' key) :
    (flat.send keys msg).send keys' msg = flat.send (fun key => keys key ∨ keys' key) msg := by
  have once : ∀ k, flat.Leads keys k → ¬ flat.Leads keys' k := fun _ => separate.leads_once disjoint
  have second : ∀ k, (flat.send keys msg).Leads keys' k ↔ flat.Leads keys' k := leads_send disjoint
  have both : ∀ k, flat.Leads (fun key => keys key ∨ keys' key) k ↔
      flat.Leads keys k ∨ flat.Leads keys' k := leads_or
  have channels : ((flat.send keys msg).send keys' msg).channels =
      (flat.send (fun key => keys key ∨ keys' key) msg).channels := by
    funext k
    by_cases first : flat.Leads keys k
    · have later : ¬ (flat.send keys msg).Leads keys' k := fun leads =>
        once k first ((second k).mp leads)
      rw [channels_send_of_not later, channels_send first, channels_send ((both k).mpr (.inl first))]
    · by_cases later : flat.Leads keys' k
      · rw [channels_send ((second k).mpr later), channels_send_of_not first,
          channels_send ((both k).mpr (.inr later))]
      · have neither : ¬ flat.Leads (fun key => keys key ∨ keys' key) k := fun leads =>
          ((both k).mp leads).elim first later
        rw [channels_send_of_not (later ∘ (second k).mp), channels_send_of_not first,
          channels_send_of_not neither]
  have table : ((flat.send keys msg).send keys' msg).table =
      (flat.send (fun key => keys key ∨ keys' key) msg).table := by
    funext key
    refine Option.ext fun sender => ?_
    simp only [table_send]
    constructor
    · rintro ⟨⟨found, first⟩, later⟩
      refine ⟨found, fun own => ?_⟩
      rcases own with own | own
      · exact first own
      · rw [channels_send_of_not fun leads => once _ leads ⟨key, sender, own, found, rfl⟩] at later
        exact later own
    · rintro ⟨found, accepts⟩
      refine ⟨⟨found, fun own => accepts (.inl own)⟩, fun own => ?_⟩
      rw [channels_send_of_not fun leads => once _ leads ⟨key, sender, own, found, rfl⟩]
      exact accepts (.inr own)
  change Flat.mk _ _ _ = Flat.mk _ _ _
  exact congrArg₂ (fun table channels => Flat.mk table channels flat.member) table channels

/-- Sends to users one after the other are one send to them all. -/
theorem foldl_sendMsgToUser (separate : flat.Separate) (tenantId : String) {users : List String}
    (distinct : users.Nodup) :
    users.foldl (fun flat userId => flat.sendMsgToUser tenantId userId msg) flat =
      flat.send (fun key => key.tenantId = tenantId ∧ key.userId ∈ users) msg := by
  induction users generalizing flat with
  | nil => exact (send_none fun key own => by simp at own).symm
  | cons user rest ih =>
      obtain ⟨alone, distinct⟩ := List.nodup_cons.mp distinct
      have first : (flat.sendMsgToUser tenantId user msg).Separate := separate.send
      rw [List.foldl_cons, ih first distinct, sendMsgToUser, send_send separate]
      · congr 1
        funext key
        simp only [List.mem_cons, ← and_or_left]
      · rintro key ⟨_, rfl⟩ ⟨_, later⟩
        exact alone later

end Flat

/-! ### The nested tables as a flat one -/

namespace ConnectionRegistry

def find (registry : ConnectionRegistry) (key : Key) : Option SocketSender :=
  registry.sender? key.tenantId key.userId key.connectionId

/-- All keys with their senders. -/
def entries (registry : ConnectionRegistry) : List (Key × SocketSender) :=
  registry.inner.entries.flatMap fun ⟨tenantId, users⟩ =>
    users.entries.flatMap fun ⟨userId, connections⟩ =>
      connections.entries.map fun ⟨connectionId, sender⟩ =>
        (⟨tenantId, userId, connectionId⟩, sender)

theorem mem_entries (registry : ConnectionRegistry) (key : Key) (sender : SocketSender) :
    (key, sender) ∈ registry.entries ↔ registry.find key = some sender := by
  obtain ⟨t, u, id⟩ := key
  simp only [entries, find, sender?, List.mem_flatMap, List.mem_map, Option.bind_eq_some_iff]
  constructor
  · rintro ⟨⟨t', users⟩, tenant, ⟨u', connections⟩, user, ⟨id', sender'⟩, here, same⟩
    obtain ⟨⟨rfl, rfl, rfl⟩, rfl⟩ : (t' = t ∧ u' = u ∧ id' = id) ∧ sender' = sender := by
      simpa using same
    exact ⟨users, (Table.mem_entries_iff _ _).mp tenant, connections,
      (Table.mem_entries_iff _ _).mp user, (Table.mem_entries_iff _ _).mp here⟩
  · rintro ⟨users, tenant, connections, user, here⟩
    exact ⟨⟨t, users⟩, (Table.mem_entries_iff _ _).mpr tenant, ⟨u, connections⟩,
      (Table.mem_entries_iff _ _).mpr user, ⟨id, sender⟩, (Table.mem_entries_iff _ _).mpr here, rfl⟩

end ConnectionRegistry

namespace Node

/-- What a node comes to. -/
def flat (node : Node) : Flat :=
  ⟨node.registry.find, node.channels, node.registry.isUserInGroup⟩

theorem separate_flat {node : Node} : node.flat.Separate ↔ node.Separate := by
  constructor
  · intro separate t u id sender t' u' id' sender' found found' same
    have keys := separate ⟨t, u, id⟩ ⟨t', u', id'⟩ sender sender' found found' same
    injection keys with tenant user connection
    exact ⟨tenant, user, connection⟩
  · rintro separate ⟨t, u, id⟩ ⟨t', u', id'⟩ sender sender' found found' same
    obtain ⟨rfl, rfl, rfl⟩ := separate t u id sender t' u' id' sender' found found' same
    rfl

/-- A channel reached through a user is one that the user's keys lead to. -/
theorem reaches_iff_leads {node : Node} {tenantId userId : String} {k : ConnectionId} :
    node.Reaches tenantId userId k ↔
      node.flat.Leads (fun key => key.tenantId = tenantId ∧ key.userId = userId) k := by
  constructor
  · rintro ⟨id, sender, found, here⟩
    exact ⟨⟨tenantId, userId, id⟩, sender, ⟨rfl, rfl⟩, found, here⟩
  · rintro ⟨⟨t, u, id⟩, sender, ⟨rfl, rfl⟩, found, here⟩
    exact ⟨id, sender, found, here⟩

/-- `send_msg_to_user` is a send to the user's keys. -/
theorem flat_sendMsgToUser {node : Node} (separate : node.Separate) (tenantId userId : String)
    (msg : Message) :
    (node.sendMsgToUser tenantId userId msg).flat = node.flat.sendMsgToUser tenantId userId msg := by
  have table : (node.sendMsgToUser tenantId userId msg).registry.find =
      (node.flat.sendMsgToUser tenantId userId msg).table := by
    funext key
    refine Option.ext fun sender => ?_
    unfold Flat.sendMsgToUser
    rw [Flat.table_send]
    exact sender?_sendMsgToUser msg separate
  have channels : (node.sendMsgToUser tenantId userId msg).channels =
      (node.flat.sendMsgToUser tenantId userId msg).channels := by
    funext k
    unfold Flat.sendMsgToUser
    by_cases reaches : node.Reaches tenantId userId k
    · rw [channels_sendMsgToUser msg separate reaches,
        Flat.channels_send (reaches_iff_leads.mp reaches)]
      rfl
    · rw [node.channels_sendMsgToUser_of_not_reaches tenantId userId msg reaches,
        Flat.channels_send_of_not (reaches ∘ reaches_iff_leads.mpr)]
      rfl
  have member : (node.sendMsgToUser tenantId userId msg).registry.isUserInGroup =
      node.registry.isUserInGroup := by
    funext t g u
    rw [ConnectionRegistry.isUserInGroup_eq, groups_sendMsgToUser,
      ← ConnectionRegistry.isUserInGroup_eq]
  change Flat.mk _ _ _ = Flat.mk _ _ _
  rw [table, channels, member]
  rfl

/-! ### Calls and the orders of their loops -/

/-- `send_msg_to_user` when `connections.iter()` goes through the connections in an order. -/
def sendMsgToUserIn (node : Node) (order : List ((_ : ConnectionId) × SocketSender))
    (tenantId userId : String) (msg : Message) : Option Node :=
  match node.registry.inner.lookup tenantId with
  | none => some node
  | some users =>
      match users.lookup userId with
      | none => some node
      | some connections =>
          if order.Perm connections.entries then
            let (channels, stale) := fanOut msg order node.channels
            let connections := connections.eraseAll stale
            let users := if connections.entries.isEmpty then users.erase userId
              else users.insert userId connections
            some
              { registry := { node.registry with
                  inner := node.registry.inner.insert tenantId users }
                channels }
          else none

/-- `send_msg_to_group` when `members.iter()` goes through the members in an order, and the
send to each through its connections in one. -/
def sendMsgToGroupIn (node : Node)
    (orders : List (String × List ((_ : ConnectionId) × SocketSender)))
    (tenantId groupId : String) (msg : Message) : Option Node :=
  if (orders.map Prod.fst).Perm (node.registry.members tenantId groupId) then
    orders.foldlM (fun node visit => node.sendMsgToUserIn visit.2 tenantId visit.1 msg) node
  else none

/-- With channels of their own, the order of the connections makes no difference to the
channels after a fan-out, nor to which connections are stale. -/
theorem fanOut_perm (msg : Message) {order entries : List ((_ : ConnectionId) × SocketSender)}
    (perm : order.Perm entries) (distinct : (entries.map fun entry => entry.2.channel).Nodup)
    (channels : Channels) :
    (fanOut msg order channels).1 = (fanOut msg entries channels).1 ∧
      ∀ id, id ∈ (fanOut msg order channels).2 ↔ id ∈ (fanOut msg entries channels).2 := by
  have distinct' : (order.map fun entry => entry.2.channel).Nodup :=
    (perm.map _).nodup_iff.mpr distinct
  constructor
  · funext k
    by_cases here : ∃ entry ∈ entries, entry.2.channel = k
    · obtain ⟨entry, mem, rfl⟩ := here
      rw [fanOut_channel msg distinct mem, fanOut_channel msg distinct' (perm.mem_iff.mpr mem)]
    · rw [fanOut_channel_of_ne msg fun entry mem same => here ⟨entry, mem, same⟩,
        fanOut_channel_of_ne msg fun entry mem same => here ⟨entry, perm.mem_iff.mp mem, same⟩]
  · intro id
    rw [mem_stale msg distinct, mem_stale msg distinct']
    simp only [perm.mem_iff]

/-- The order of the connections makes no difference to what the tables come to. -/
theorem flat_sendMsgToUserIn {node node' : Node} (separate : node.Separate)
    {order : List ((_ : ConnectionId) × SocketSender)} {tenantId userId : String} {msg : Message}
    (sent : node.sendMsgToUserIn order tenantId userId msg = some node') :
    node'.flat = (node.sendMsgToUser tenantId userId msg).flat := by
  unfold sendMsgToUserIn at sent
  unfold sendMsgToUser
  cases tenant : node.registry.inner.lookup tenantId with
  | none =>
      rw [tenant] at sent
      rw [← Option.some.inj sent]
  | some users =>
      cases user : users.lookup userId with
      | none =>
          simp only [tenant, user] at sent ⊢
          rw [← Option.some.inj sent]
      | some connections =>
          simp only [tenant, user] at sent ⊢
          split at sent
          · rename_i perm
            rw [← Option.some.inj sent]
            have found : ∀ id,
                node.registry.sender? tenantId userId id = connections.lookup id := by
              intro id
              simp only [ConnectionRegistry.sender?, tenant, Option.bind_some, user]
            obtain ⟨channels, stale⟩ := fanOut_perm msg perm (separate.nodup found) node.channels
            have kept : ∀ id,
                (connections.eraseAll (fanOut msg order node.channels).2).lookup id =
                (connections.eraseAll
                  (fanOut msg connections.entries node.channels).2).lookup id := by
              intro id
              simp only [Table.lookup_eraseAll, stale]
            unfold flat
            rw [channels]
            congr 1
            funext ⟨t, u, id⟩
            simp only [ConnectionRegistry.find, ConnectionRegistry.sender?, Table.lookup_insert_eq]
            split
            · simp only [Option.bind_some, ConnectionRegistry.lookup_writeBack, kept]
            · rfl
          · simp at sent

/-- Sends to users in some order, each through its connections in some order, are sends to
the users one by one. -/
theorem flat_foldlM_sendMsgToUserIn {node node' : Node} (separate : node.Separate)
    {tenantId : String} {msg : Message}
    {orders : List (String × List ((_ : ConnectionId) × SocketSender))}
    (sent : orders.foldlM
      (fun node visit => node.sendMsgToUserIn visit.2 tenantId visit.1 msg) node = some node') :
    node'.flat = (orders.map Prod.fst).foldl
      (fun flat userId => flat.sendMsgToUser tenantId userId msg) node.flat := by
  induction orders generalizing node with
  | nil =>
      cases sent
      rfl
  | cons visit rest ih =>
      rw [List.foldlM_cons] at sent
      obtain ⟨next, first, later⟩ := Option.bind_eq_some_iff.mp sent
      have here : next.flat = node.flat.sendMsgToUser tenantId visit.1 msg :=
        (flat_sendMsgToUserIn separate first).trans (flat_sendMsgToUser separate _ _ _)
      have kept : next.Separate := by
        rw [← separate_flat, here]
        exact (separate_flat.mpr separate).send
      rw [ih kept later, here]
      rfl

theorem nodup_members (registry : ConnectionRegistry) (tenantId groupId : String) :
    (registry.members tenantId groupId).Nodup := by
  unfold ConnectionRegistry.members
  split
  · exact List.nodup_nil
  · split
    · exact List.nodup_nil
    · rename_i members _
      exact members.keys_nodup

/-- `send_msg_to_group` is one send to the connections of all members. -/
theorem flat_sendMsgToGroupIn {node node' : Node} (separate : node.Separate)
    {orders : List (String × List ((_ : ConnectionId) × SocketSender))}
    {tenantId groupId : String} {msg : Message}
    (sent : node.sendMsgToGroupIn orders tenantId groupId msg = some node') :
    node'.flat = node.flat.sendMsgToGroup tenantId groupId msg := by
  unfold sendMsgToGroupIn at sent
  split at sent
  · rename_i perm
    have distinct : (orders.map Prod.fst).Nodup :=
      perm.nodup_iff.mpr (nodup_members node.registry tenantId groupId)
    rw [flat_foldlM_sendMsgToUserIn separate sent,
      Flat.foldl_sendMsgToUser (separate_flat.mpr separate) tenantId distinct]
    unfold Flat.sendMsgToGroup
    congr 1
    funext key
    have member : key.userId ∈ orders.map Prod.fst ↔
        node.flat.member tenantId groupId key.userId = true :=
      perm.mem_iff.trans (node.registry.mem_members tenantId groupId key.userId)
    rw [member]
  · simp at sent

/-! ### The orders of the tables themselves -/

/-- The model's sends go through the tables in the order in which they hold their entries. -/
theorem exists_sendMsgToUserIn (node : Node) (tenantId userId : String) (msg : Message) :
    ∃ order, node.sendMsgToUserIn order tenantId userId msg =
      some (node.sendMsgToUser tenantId userId msg) := by
  unfold sendMsgToUserIn sendMsgToUser
  cases tenant : node.registry.inner.lookup tenantId with
  | none => exact ⟨[], rfl⟩
  | some users =>
      cases user : users.lookup userId with
      | none => exact ⟨[], by simp only [user]⟩
      | some connections =>
          refine ⟨connections.entries, ?_⟩
          simp only [user]
          exact if_pos (List.Perm.refl _)

theorem exists_sendMsgToGroupIn (node : Node) (tenantId groupId : String) (msg : Message) :
    ∃ orders, node.sendMsgToGroupIn orders tenantId groupId msg =
      some (node.sendMsgToGroup tenantId groupId msg) := by
  have visits : ∀ (users : List String) (node : Node),
      ∃ orders : List (String × List ((_ : ConnectionId) × SocketSender)),
        orders.map Prod.fst = users ∧
        orders.foldlM (fun node visit => node.sendMsgToUserIn visit.2 tenantId visit.1 msg) node =
          some (users.foldl (fun node userId => node.sendMsgToUser tenantId userId msg) node) := by
    intro users
    induction users with
    | nil => exact fun node => ⟨[], rfl, rfl⟩
    | cons user rest ih =>
        intro node
        obtain ⟨order, first⟩ := node.exists_sendMsgToUserIn tenantId user msg
        obtain ⟨orders, rfl, later⟩ := ih (node.sendMsgToUser tenantId user msg)
        refine ⟨(user, order) :: orders, rfl, ?_⟩
        rw [List.foldlM_cons, first]
        exact later
  obtain ⟨orders, users, sent⟩ := visits (node.registry.members tenantId groupId) node
  refine ⟨orders, ?_⟩
  unfold sendMsgToGroupIn sendMsgToGroup
  rw [if_pos (List.Perm.of_eq users), sent]

theorem flat_sendMsgToGroup {node : Node} (separate : node.Separate) (tenantId groupId : String)
    (msg : Message) : (node.sendMsgToGroup tenantId groupId msg).flat =
      node.flat.sendMsgToGroup tenantId groupId msg := by
  obtain ⟨orders, sent⟩ := node.exists_sendMsgToGroupIn tenantId groupId msg
  exact flat_sendMsgToGroupIn separate sent

end Node

/-! ### Sequences of calls -/

/-- A call of the registry with the orders its loops go through, or what happens to a
channel: its client takes a message, or drops the receiver. -/
inductive Call where
  | insert (identity : Identity) (connectionId : ConnectionId) (sender : SocketSender)
  | remove (identity : Identity) (connectionId : ConnectionId)
  | sendMsgToUser (tenantId userId : String) (msg : Message)
      (order : List ((_ : ConnectionId) × SocketSender))
  | sendMsgToGroup (tenantId groupId : String) (msg : Message)
      (orders : List (String × List ((_ : ConnectionId) × SocketSender)))
  | drain (channel : ConnectionId)
  | close (channel : ConnectionId)

namespace Call

/-- The key of a connection. -/
def key (identity : Identity) (connectionId : ConnectionId) : Key :=
  ⟨identity.tenantId, identity.userId, connectionId⟩

/-- A sender is the only one to its channel, apart from the one it replaces. -/
def Own (node : Node) (key : Key) (sender : SocketSender) : Prop :=
  ∀ entry ∈ node.registry.entries, entry.2.channel = sender.channel → entry.1 = key

instance (node : Node) (key : Key) (sender : SocketSender) : Decidable (Own node key sender) := by
  unfold Own; infer_instance

/-- A call on the nested tables. A connection is inserted with a channel of its own. -/
def step (node : Node) : Call → Option Node
  | .insert identity connectionId sender =>
      if Own node (key identity connectionId) sender then
        some { node with registry := node.registry.insert identity connectionId sender }
      else none
  | .remove identity connectionId =>
      some { node with registry := node.registry.remove identity connectionId }
  | .sendMsgToUser tenantId userId msg order => node.sendMsgToUserIn order tenantId userId msg
  | .sendMsgToGroup tenantId groupId msg orders =>
      node.sendMsgToGroupIn orders tenantId groupId msg
  | .drain channel =>
      (node.channels channel).recv.map fun (_, rest) =>
        { node with channels := Function.update node.channels channel rest }
  | .close channel =>
      some { node with
        channels := Function.update node.channels channel (node.channels channel).hangUp }

def machine : Machine Node Call := ⟨step⟩

/-- A call on the flat table, where no order matters. -/
noncomputable def flatStep (flat : Flat) : Call → Option Flat
  | .insert identity connectionId sender => some (flat.insert (key identity connectionId) sender)
  | .remove identity connectionId => some (flat.remove (key identity connectionId))
  | .sendMsgToUser tenantId userId msg _ => some (flat.sendMsgToUser tenantId userId msg)
  | .sendMsgToGroup tenantId groupId msg _ => some (flat.sendMsgToGroup tenantId groupId msg)
  | .drain channel =>
      (flat.channels channel).recv.map fun (_, rest) =>
        { flat with channels := Function.update flat.channels channel rest }
  | .close channel =>
      some { flat with
        channels := Function.update flat.channels channel (flat.channels channel).hangUp }

noncomputable def flatMachine : Machine Flat Call := ⟨flatStep⟩

/-- A registry without connections, with any groups and any channels. -/
def start (groups : Table String (Table String (Table String Unit))) (channels : Channels) : Node :=
  ⟨⟨∅, groups⟩, channels⟩

theorem separate_start (groups : Table String (Table String (Table String Unit)))
    (channels : Channels) : (start groups channels).Separate := by
  intro t u id sender t' u' id' sender' found
  simp [start, ConnectionRegistry.sender?] at found

theorem update_key (table : Key → Option SocketSender) (identity : Identity)
    (connectionId : ConnectionId) (value : Option SocketSender) (t u : String)
    (id : ConnectionId) :
    Function.update table (key identity connectionId) value ⟨t, u, id⟩ =
      if t = identity.tenantId ∧ u = identity.userId ∧ id = connectionId then value
      else table ⟨t, u, id⟩ := by
  by_cases own : t = identity.tenantId ∧ u = identity.userId ∧ id = connectionId
  · obtain ⟨rfl, rfl, rfl⟩ := own
    rw [if_pos ⟨rfl, rfl, rfl⟩]
    exact Function.update_self (key identity id) _ _
  · have other : (⟨t, u, id⟩ : Key) ≠ key identity connectionId := by
      intro same
      injection same with tenant user connection
      exact own ⟨tenant, user, connection⟩
    rw [if_neg own, Function.update_of_ne other]

theorem flat_insert (node : Node) (identity : Identity) (connectionId : ConnectionId)
    (sender : SocketSender) :
    ({ node with registry := node.registry.insert identity connectionId sender } : Node).flat =
      node.flat.insert (key identity connectionId) sender := by
  unfold Node.flat Flat.insert
  congr 1
  funext ⟨t, u, id⟩
  rw [update_key]
  exact node.registry.sender?_insert identity connectionId sender t u id

theorem flat_remove (node : Node) (identity : Identity) (connectionId : ConnectionId) :
    ({ node with registry := node.registry.remove identity connectionId } : Node).flat =
      node.flat.remove (key identity connectionId) := by
  have member : (node.registry.remove identity connectionId).isUserInGroup =
      node.registry.isUserInGroup := by
    funext t g u
    rw [ConnectionRegistry.isUserInGroup_eq, ConnectionRegistry.groups_remove,
      ← ConnectionRegistry.isUserInGroup_eq]
  unfold Node.flat Flat.remove
  rw [member]
  congr 1
  funext ⟨t, u, id⟩
  rw [update_key]
  exact node.registry.sender?_remove identity connectionId t u id

/-- A call does to the flat table what it does to the nested ones. -/
theorem simulates {node node' : Node} {call : Call} (separate : node.Separate)
    (next : machine.step node call = some node') :
    flatMachine.step node.flat call = some node'.flat := by
  cases call with
  | insert identity connectionId sender =>
      simp only [machine, step] at next
      split at next
      · obtain rfl := Option.some.inj next
        exact congrArg some (flat_insert node identity connectionId sender).symm
      · simp at next
  | remove identity connectionId =>
      obtain rfl := Option.some.inj next
      exact congrArg some (flat_remove node identity connectionId).symm
  | sendMsgToUser tenantId userId msg order =>
      have sent := Node.flat_sendMsgToUserIn separate next
      rw [Node.flat_sendMsgToUser separate] at sent
      exact congrArg some sent.symm
  | sendMsgToGroup tenantId groupId msg orders =>
      exact congrArg some (Node.flat_sendMsgToGroupIn separate next).symm
  | drain channel =>
      obtain ⟨⟨msg, rest⟩, taken, rfl⟩ := Option.map_eq_some_iff.mp next
      change ((node.channels channel).recv.map _) = _
      rw [taken]
      rfl
  | close channel =>
      obtain rfl := Option.some.inj next
      rfl

/-- Keys keep channels of their own. -/
theorem separate_step {node node' : Node} {call : Call} (separate : node.Separate)
    (next : machine.step node call = some node') : node'.Separate := by
  have flat := simulates separate next
  have before := Node.separate_flat.mpr separate
  rw [← Node.separate_flat]
  cases call with
  | insert identity connectionId sender =>
      simp only [machine, step] at next
      split at next
      · rename_i own
        rw [← Option.some.inj flat]
        exact before.insert fun key' sender' found same =>
          own (key', sender') ((node.registry.mem_entries key' sender').mpr found) same
      · simp at next
  | remove identity connectionId =>
      rw [← Option.some.inj flat]
      exact before.remove _
  | sendMsgToUser tenantId userId msg order =>
      rw [← Option.some.inj flat]
      exact before.send
  | sendMsgToGroup tenantId groupId msg orders =>
      rw [← Option.some.inj flat]
      exact before.send
  | drain channel =>
      obtain ⟨⟨msg, rest⟩, taken, rfl⟩ := Option.map_eq_some_iff.mp next
      exact before
  | close channel =>
      obtain rfl := Option.some.inj next
      exact before

/-- Every sequence of calls, whatever orders their loops go through, does to the nested
tables what it does to the flat table; and in every state it leads to, each send has orders
to go through, and a send to a group is a send to each of its members, in any order of
them. -/
theorem registry_refines_flat (groups : Table String (Table String (Table String Unit)))
    (channels : Channels) {calls : List Call} {node : Node}
    (ran : machine.run (start groups channels) calls = some node) :
    flatMachine.run (start groups channels).flat calls = some node.flat ∧
      (∀ tenantId userId msg, ∃ order node',
        machine.step node (.sendMsgToUser tenantId userId msg order) = some node') ∧
      (∀ tenantId groupId msg, ∃ orders node',
        machine.step node (.sendMsgToGroup tenantId groupId msg orders) = some node') ∧
      ∀ (tenantId groupId : String) (msg : Message) (users : List String), users.Nodup →
        (∀ u, u ∈ users ↔ node.flat.member tenantId groupId u = true) →
        node.flat.sendMsgToGroup tenantId groupId msg =
          users.foldl (fun flat userId => flat.sendMsgToUser tenantId userId msg) node.flat := by
  have init := separate_start groups channels
  refine ⟨Machine.run_of_simulation Node.flat (fun _ _ _ => separate_step) (fun _ _ _ => simulates)
    init ran, ?_, ?_, ?_⟩
  · intro tenantId userId msg
    obtain ⟨order, sent⟩ := node.exists_sendMsgToUserIn tenantId userId msg
    exact ⟨order, _, sent⟩
  · intro tenantId groupId msg
    obtain ⟨orders, sent⟩ := node.exists_sendMsgToGroupIn tenantId groupId msg
    exact ⟨orders, _, sent⟩
  · have separate : node.Separate :=
      Machine.invariant init (fun _ _ _ _ before next => separate_step before next) ran
    intro tenantId groupId msg users distinct members
    rw [Flat.foldl_sendMsgToUser (Node.separate_flat.mpr separate) tenantId distinct]
    unfold Flat.sendMsgToGroup
    simp only [members]

/-- A message to a group of two, the second of whom has a closed channel and is gone when
its own removal comes. -/
theorem registry_refines_flat_eviction :
    let registry := (ConnectionRegistry.new.joinGroup "acme" "team" "ada").joinGroup
      "acme" "team" "bob"
    let channels : Channels := fun _ => Channel.new
    let calls : List Call :=
      [.insert ⟨"acme", "ada"⟩ 1 ⟨1⟩, .insert ⟨"acme", "bob"⟩ 2 ⟨2⟩, .close 2,
        .sendMsgToGroup "acme" "team" .ping [("bob", [⟨2, ⟨2⟩⟩]), ("ada", [⟨1, ⟨1⟩⟩])],
        .remove ⟨"acme", "bob"⟩ 2]
    ∃ node : Node, machine.run (start registry.groups channels) calls = some node ∧
      (node.channels 1).queue = [.ping] ∧
      flatMachine.run (start registry.groups channels).flat calls = some node.flat ∧
      (∀ tenantId userId msg, ∃ order node',
        machine.step node (.sendMsgToUser tenantId userId msg order) = some node') ∧
      (∀ tenantId groupId msg, ∃ orders node',
        machine.step node (.sendMsgToGroup tenantId groupId msg orders) = some node') ∧
      ∀ (tenantId groupId : String) (msg : Message) (users : List String), users.Nodup →
        (∀ u, u ∈ users ↔ node.flat.member tenantId groupId u = true) →
        node.flat.sendMsgToGroup tenantId groupId msg =
          users.foldl (fun flat userId => flat.sendMsgToUser tenantId userId msg) node.flat := by
  intro registry channels calls
  obtain ⟨node, ran, queue⟩ : ∃ node ∈ Call.machine.run (start registry.groups channels) calls,
      (node.channels 1).queue = [.ping] := by decide
  exact ⟨node, ran, queue, registry_refines_flat registry.groups channels ran⟩

end Call

end YappaCore
