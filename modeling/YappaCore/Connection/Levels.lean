import YappaCore.Connection.Flat

/-!
The levels of `ConnectionRegistry::inner`, and when one of them is empty. A connection leaves the
table through `remove`, which takes an empty user and then an empty tenant out, or through the
eviction in `send_msg_to_user`, which takes an empty user out and leaves the tenant.

* `usersTidy_run`: no call leaves a user without connections, in any run.
* `clean_iff_leavesOne`: no tenant is left without users in a run exactly when no send of the run
  finds all the connections of its tenant full or closed.
-/

namespace YappaCore

open Lib

namespace ConnectionRegistry

/-! ### Levels -/

/-- Every user entry has a connection. -/
def UsersTidy (registry : ConnectionRegistry) : Prop :=
  ∀ t users, registry.inner.lookup t = some users →
    ∀ u connections, users.lookup u = some connections → connections.entries.isEmpty = false

/-- So has every tenant entry a user. -/
structure Tidy (registry : ConnectionRegistry) : Prop where
  tenants : ∀ t users, registry.inner.lookup t = some users → users.entries.isEmpty = false
  users : registry.UsersTidy

/-- The connections of a user. -/
def user? (registry : ConnectionRegistry) (tenantId userId : String) :
    Option (Table ConnectionId SocketSender) :=
  (registry.inner.lookup tenantId).bind fun users => users.lookup userId

theorem sender?_eq_bind (registry : ConnectionRegistry) (tenantId userId : String)
    (connectionId : ConnectionId) : registry.sender? tenantId userId connectionId =
      (registry.user? tenantId userId).bind fun connections => connections.lookup connectionId :=
  (Option.bind_assoc _ _ _).symm

/-- A tenant has a registered connection. -/
def Connected (registry : ConnectionRegistry) (t : String) : Prop :=
  ∃ u id, (registry.sender? t u id).isSome = true

/-- A table with entries finds one of them. -/
theorem exists_lookup {κ V : Type} [DecidableEq κ] {table : Table κ V}
    (some : table.entries.isEmpty = false) : ∃ key, (table.lookup key).isSome = true := by
  cases entries : table.entries with
  | nil => simp [entries] at some
  | cons entry rest =>
      refine ⟨entry.1, AList.lookup_isSome.mpr (AList.mem_keys.mpr ?_)⟩
      unfold AList.keys
      rw [entries]
      exact List.mem_cons_self

theorem isEmpty_of_lookup {κ V : Type} [DecidableEq κ] {table : Table κ V} {key : κ} {value : V}
    (found : table.lookup key = some value) : table.entries.isEmpty = false := by
  cases empty : table.entries.isEmpty with
  | false => rfl
  | true =>
      rw [Table.lookup_of_isEmpty key table empty] at found
      simp at found

variable {registry : ConnectionRegistry}

theorem connected_iff {t : String} : registry.Connected t ↔
    ∃ users, registry.inner.lookup t = some users ∧
      ∃ u connections, users.lookup u = some connections ∧
        ∃ id sender, connections.lookup id = some sender := by
  unfold Connected sender?
  simp only [Option.isSome_iff_exists, Option.bind_eq_some_iff]
  constructor
  · rintro ⟨u, id, sender, users, tenant, connections, user, found⟩
    exact ⟨users, tenant, u, connections, user, id, sender, found⟩
  · rintro ⟨users, tenant, u, connections, user, id, sender, found⟩
    exact ⟨u, id, sender, users, tenant, connections, user, found⟩

/-- With tidy users a tenant has users if and only if it is connected. -/
theorem tidy_iff : registry.Tidy ↔ registry.UsersTidy ∧
    ∀ t, (registry.inner.lookup t).isSome = true → registry.Connected t := by
  constructor
  · intro tidy
    refine ⟨tidy.users, fun t present => connected_iff.mpr ?_⟩
    obtain ⟨users, tenant⟩ := Option.isSome_iff_exists.mp present
    obtain ⟨u, some⟩ := exists_lookup (tidy.tenants t users tenant)
    obtain ⟨connections, user⟩ := Option.isSome_iff_exists.mp some
    obtain ⟨id, some⟩ := exists_lookup (tidy.users t users tenant u connections user)
    obtain ⟨sender, found⟩ := Option.isSome_iff_exists.mp some
    exact ⟨users, tenant, u, connections, user, id, sender, found⟩
  · rintro ⟨usersTidy, connected⟩
    refine ⟨fun t users tenant => ?_, usersTidy⟩
    have present : (registry.inner.lookup t).isSome = true := by
      rw [tenant]
      rfl
    obtain ⟨users', tenant', u, connections, user, _⟩ := connected_iff.mp (connected t present)
    obtain rfl : users = users' := Option.some.inj (tenant.symm.trans tenant')
    exact isEmpty_of_lookup user

/-- A tidy registry without connections has no entries. -/
theorem Tidy.inner_eq_empty (tidy : registry.Tidy)
    (gone : ∀ t u id, registry.sender? t u id = none) : registry.inner = ∅ := by
  refine AList.ext ?_
  by_contra entries
  have some : registry.inner.entries.isEmpty = false := by
    rw [← Bool.not_eq_true, List.isEmpty_iff]
    exact entries
  obtain ⟨t, present⟩ := exists_lookup some
  obtain ⟨u, id, found⟩ := (tidy_iff.mp tidy).2 t present
  rw [gone] at found
  simp at found

/-! ### Insertions and removals -/

section Calls

variable (registry : ConnectionRegistry) (identity : Identity) (connectionId : ConnectionId)

/-- Writing back a user's connections leaves no user without connections. -/
theorem writeBack_isEmpty {users : Table String (Table ConnectionId SocketSender)}
    {connections : Table ConnectionId SocketSender} {user : String}
    (before : ∀ u connections, users.lookup u = some connections →
      connections.entries.isEmpty = false) :
    ∀ u connections',
      (if connections.entries.isEmpty then users.erase user
        else users.insert user connections).lookup u = some connections' →
      connections'.entries.isEmpty = false := by
  intro u connections' found
  split at found
  · rw [Table.lookup_erase_eq] at found
    split at found
    · simp at found
    · exact before u connections' found
  · rename_i some
    rw [Table.lookup_insert_eq] at found
    split at found
    · obtain rfl := Option.some.inj found
      exact Bool.eq_false_of_not_eq_true some
    · exact before u connections' found

theorem UsersTidy.insert {registry : ConnectionRegistry} (tidy : registry.UsersTidy)
    (sender : SocketSender) : (registry.insert identity connectionId sender).UsersTidy := by
  intro t users tenant u connections user
  unfold ConnectionRegistry.insert at tenant
  rw [Table.lookup_upsert] at tenant
  split at tenant
  · obtain rfl := Option.some.inj tenant
    rw [Table.lookup_upsert] at user
    split at user
    · obtain rfl := Option.some.inj user
      exact isEmpty_of_lookup (AList.lookup_insert _)
    · rw [Table.lookup_getD] at user
      obtain ⟨old, tenant, user⟩ := Option.bind_eq_some_iff.mp user
      exact tidy _ old tenant u connections user
  · exact tidy t users tenant u connections user

theorem Tidy.insert {registry : ConnectionRegistry} (tidy : registry.Tidy)
    (sender : SocketSender) : (registry.insert identity connectionId sender).Tidy := by
  obtain ⟨usersTidy, connected⟩ := tidy_iff.mp tidy
  refine tidy_iff.mpr ⟨usersTidy.insert identity connectionId sender, fun t present => ?_⟩
  by_cases own : t = identity.tenantId
  · refine ⟨identity.userId, connectionId, ?_⟩
    rw [sender?_insert, if_pos ⟨own, rfl, rfl⟩]
    rfl
  · unfold ConnectionRegistry.insert at present
    rw [Table.lookup_upsert, if_neg own] at present
    obtain ⟨u, id, found⟩ := connected t present
    refine ⟨u, id, ?_⟩
    rw [sender?_insert, if_neg fun both => own both.1]
    exact found

/-- The tenant's users are written back, and taken out where there are none. -/
theorem lookup_removeTenant (users : Table String (Table ConnectionId SocketSender)) (t : String) :
    (({ registry with inner := registry.inner.insert identity.tenantId users } :
        ConnectionRegistry).removeTenant identity users.entries.isEmpty).inner.lookup t =
      if t = identity.tenantId then
        if users.entries.isEmpty = true then none else some users
      else registry.inner.lookup t := by
  unfold removeTenant
  by_cases empty : users.entries.isEmpty = true
  · rw [if_pos empty, if_pos empty, Table.lookup_erase_eq]
    split
    · rfl
    · rename_i other
      exact (Table.lookup_insert_eq _ _ _ _).trans (if_neg other)
  · rw [if_neg empty, if_neg empty]
    exact Table.lookup_insert_eq _ _ _ _

/-- `remove` finds no connections of the user, or writes back the others and takes the tenant out
with the last user. -/
theorem remove_cases : registry.remove identity connectionId = registry ∨
    ∃ users connections users', registry.inner.lookup identity.tenantId = some users ∧
      (users' = if (AList.erase connectionId connections).entries.isEmpty then
          users.erase identity.userId
        else users.insert identity.userId (connections.erase connectionId)) ∧
      ∀ t, (registry.remove identity connectionId).inner.lookup t =
        if t = identity.tenantId then
          if users'.entries.isEmpty = true then none else some users'
        else registry.inner.lookup t := by
  unfold remove
  rcases registry.removeConnection_cases identity connectionId with
    ⟨same, _⟩ | ⟨users, connections, tenant, _, removed⟩
  · left
    rw [same]
    rfl
  · refine .inr ⟨users, connections, _, tenant, rfl, fun t => ?_⟩
    rw [removed]
    exact registry.lookup_removeTenant identity _ t

theorem UsersTidy.remove {registry : ConnectionRegistry} (tidy : registry.UsersTidy) :
    (registry.remove identity connectionId).UsersTidy := by
  rcases registry.remove_cases identity connectionId with
    same | ⟨users, connections, kept, tenant, written, after⟩
  · rwa [same]
  · intro t users' tenant' u connections' user'
    rw [after] at tenant'
    split at tenant'
    · split at tenant'
      · simp at tenant'
      · rw [← Option.some.inj tenant', written] at user'
        exact writeBack_isEmpty (tidy _ users tenant) u connections' user'
    · exact tidy t users' tenant' u connections' user'

theorem Tidy.remove {registry : ConnectionRegistry} (tidy : registry.Tidy) :
    (registry.remove identity connectionId).Tidy := by
  refine ⟨?_, tidy.users.remove identity connectionId⟩
  rcases registry.remove_cases identity connectionId with
    same | ⟨users, connections, kept, tenant, _, after⟩
  · rw [same]
    exact tidy.tenants
  · intro t users' tenant'
    rw [after] at tenant'
    split at tenant'
    · split at tenant'
      · simp at tenant'
      · rename_i some
        obtain rfl := Option.some.inj tenant'
        exact Bool.eq_false_of_not_eq_true some
    · exact tidy.tenants t users' tenant'

end Calls

end ConnectionRegistry

/-! ### Evictions -/

section FanOut

variable (msg : Message)

/-- A channel that is full or closed stays as it is. -/
theorem fanOut_of_not_accepts (entries : List ((_ : ConnectionId) × SocketSender))
    (channels : Channels) {k : ConnectionId} (refuses : ¬ (channels k).Accepts) :
    (fanOut msg entries channels).1 k = channels k := by
  induction entries generalizing channels with
  | nil => rfl
  | cons entry rest ih =>
      unfold fanOut
      split
      · rename_i sent taken
        have here : k ≠ entry.2.channel := by
          rintro rfl
          obtain ⟨error, refused⟩ := Channel.trySend_of_not_accepts refuses msg
          rw [refused] at taken
          simp at taken
        have same : Function.update channels entry.2.channel sent k = channels k :=
          Function.update_of_ne here _ _
        exact (ih _ (same ▸ refuses)).trans same
      · exact ih channels refuses

theorem exists_of_stale {entries : List ((_ : ConnectionId) × SocketSender)} {channels : Channels}
    {id : ConnectionId} (stale : id ∈ (fanOut msg entries channels).2) :
    ∃ entry ∈ entries, entry.1 = id := by
  induction entries generalizing channels with
  | nil => simp [fanOut] at stale
  | cons first rest ih =>
      unfold fanOut at stale
      split at stale
      · obtain ⟨entry, mem, same⟩ := ih stale
        exact ⟨entry, List.mem_cons_of_mem _ mem, same⟩
      · rcases List.mem_cons.mp stale with same | stale
        · exact ⟨first, List.mem_cons_self, same.symm⟩
        · obtain ⟨entry, mem, same⟩ := ih stale
          exact ⟨entry, List.mem_cons_of_mem _ mem, same⟩

/-- A connection is left if and only if a channel of the user accepts, whatever channels the
connections share. -/
theorem exists_not_stale {entries : List ((_ : ConnectionId) × SocketSender)}
    (distinct : (entries.map (·.1)).Nodup) (channels : Channels) :
    (∃ entry ∈ entries, entry.1 ∉ (fanOut msg entries channels).2) ↔
      ∃ entry ∈ entries, (channels entry.2.channel).Accepts := by
  induction entries with
  | nil => simp
  | cons first rest ih =>
      rw [List.map_cons, List.nodup_cons] at distinct
      obtain ⟨alone, distinct⟩ := distinct
      by_cases accepts : (channels first.2.channel).Accepts
      · obtain ⟨sent, taken, _⟩ := Channel.trySend_of_accepts accepts msg
        have step : (fanOut msg (first :: rest) channels).2 =
            (fanOut msg rest (Function.update channels first.2.channel sent)).2 := by
          simp only [fanOut, taken]
        refine ⟨fun _ => ⟨first, List.mem_cons_self, accepts⟩, fun _ => ?_⟩
        refine ⟨first, List.mem_cons_self, fun stale => alone ?_⟩
        rw [step] at stale
        obtain ⟨entry, mem, same⟩ := exists_of_stale msg stale
        exact List.mem_map.mpr ⟨entry, mem, same⟩
      · obtain ⟨error, refused⟩ := Channel.trySend_of_not_accepts accepts msg
        have step : (fanOut msg (first :: rest) channels).2 =
            first.1 :: (fanOut msg rest channels).2 := by
          simp only [fanOut, refused]
        rw [step]
        constructor
        · rintro ⟨entry, mem, kept⟩
          rw [List.mem_cons, not_or] at kept
          have later : entry ∈ rest := (List.mem_cons.mp mem).resolve_left fun same =>
            kept.1 (congrArg Sigma.fst same)
          obtain ⟨other, there, takes⟩ := (ih distinct).mp ⟨entry, later, kept.2⟩
          exact ⟨other, List.mem_cons_of_mem _ there, takes⟩
        · rintro ⟨entry, mem, takes⟩
          have later : entry ∈ rest := (List.mem_cons.mp mem).resolve_left fun same =>
            accepts (same ▸ takes)
          obtain ⟨other, there, kept⟩ := (ih distinct).mpr ⟨entry, later, takes⟩
          refine ⟨other, List.mem_cons_of_mem _ there, ?_⟩
          rw [List.mem_cons, not_or]
          refine ⟨fun same => alone ?_, kept⟩
          exact List.mem_map.mpr ⟨other, there, same⟩

variable {connections : Table ConnectionId SocketSender}
  {order : List ((_ : ConnectionId) × SocketSender)} (perm : order.Perm connections.entries)

include perm

/-- A user keeps a connection if and only if a channel of the user accepts. -/
theorem exists_kept_iff (channels : Channels) :
    (∃ id, ((connections.eraseAll (fanOut msg order channels).2).lookup id).isSome = true) ↔
      ∃ id sender, connections.lookup id = some sender ∧ (channels sender.channel).Accepts := by
  have distinct : (order.map (·.1)).Nodup := (perm.map _).nodup_iff.mpr connections.keys_nodup
  have survivor := exists_not_stale msg distinct channels
  have entry_iff : ∀ id sender, (⟨id, sender⟩ : (_ : ConnectionId) × SocketSender) ∈ order ↔
      connections.lookup id = some sender := fun id sender =>
    perm.mem_iff.trans (Table.mem_entries_iff id connections)
  simp only [Table.lookup_eraseAll]
  constructor
  · rintro ⟨id, found⟩
    split at found
    · simp at found
    · rename_i fresh
      obtain ⟨sender, there⟩ := Option.isSome_iff_exists.mp found
      obtain ⟨⟨id', sender'⟩, mem, accepts⟩ :=
        survivor.mp ⟨⟨id, sender⟩, (entry_iff id sender).mpr there, fresh⟩
      exact ⟨id', sender', (entry_iff id' sender').mp mem, accepts⟩
  · rintro ⟨id, sender, found, accepts⟩
    obtain ⟨⟨id', sender'⟩, mem, fresh⟩ :=
      survivor.mpr ⟨⟨id, sender⟩, (entry_iff id sender).mpr found, accepts⟩
    refine ⟨id', ?_⟩
    rw [if_neg fresh, (entry_iff id' sender').mp mem]
    rfl

/-- A channel that changes is one of the user, and accepts. -/
theorem exists_of_fanOut_ne {channels : Channels} {k : ConnectionId}
    (changed : (fanOut msg order channels).1 k ≠ channels k) :
    ∃ id sender, connections.lookup id = some sender ∧ sender.channel = k ∧
      (channels k).Accepts := by
  have accepts : (channels k).Accepts := by
    by_contra refuses
    exact changed (fanOut_of_not_accepts msg order channels refuses)
  by_contra none
  refine changed (fanOut_channel_of_ne msg (fun entry mem here => none ?_) channels)
  exact ⟨entry.1, entry.2,
    (Table.mem_entries_iff entry.1 connections).mp (perm.mem_iff.mp mem), here, accepts⟩

end FanOut

/-- What a send to a user does to the levels, and to the channels. -/
structure Visit (node : Node) (tenantId userId : String) (node' : Node) : Prop where
  present : ∀ t, (node'.registry.inner.lookup t).isSome = (node.registry.inner.lookup t).isSome
  tidy : node.registry.UsersTidy → node'.registry.UsersTidy
  others : ∀ t u id, ¬ (t = tenantId ∧ u = userId) →
    node'.registry.sender? t u id = node.registry.sender? t u id
  kept : (∃ id, (node'.registry.sender? tenantId userId id).isSome = true) ↔
    ∃ id sender, node.registry.sender? tenantId userId id = some sender ∧
      (node.channels sender.channel).Accepts
  changed : ∀ k, node'.channels k ≠ node.channels k →
    ∃ id sender, node.registry.sender? tenantId userId id = some sender ∧
      sender.channel = k ∧ (node.channels k).Accepts

namespace Node

/-- `send_msg_to_user` finds no entry of the user, or writes back the connections that are not
stale. -/
theorem sendMsgToUserIn_cases {node node' : Node}
    {order : List ((_ : ConnectionId) × SocketSender)} {tenantId userId : String} {msg : Message}
    (sent : node.sendMsgToUserIn order tenantId userId msg = some node') :
    (node' = node ∧ node.registry.user? tenantId userId = none) ∨
    ∃ users connections kept, node.registry.inner.lookup tenantId = some users ∧
      users.lookup userId = some connections ∧ order.Perm connections.entries ∧
      kept = connections.eraseAll (fanOut msg order node.channels).2 ∧
      node'.channels = (fanOut msg order node.channels).1 ∧
      node'.registry.inner = node.registry.inner.insert tenantId
        (if kept.entries.isEmpty then users.erase userId else users.insert userId kept) := by
  unfold sendMsgToUserIn at sent
  unfold ConnectionRegistry.user?
  cases tenant : node.registry.inner.lookup tenantId with
  | none =>
      rw [tenant] at sent
      exact .inl ⟨(Option.some.inj sent).symm, rfl⟩
  | some users =>
      cases user : users.lookup userId with
      | none =>
          simp only [tenant, user] at sent
          exact .inl ⟨(Option.some.inj sent).symm, user⟩
      | some connections =>
          simp only [tenant, user] at sent
          split at sent
          · rename_i perm
            rw [← Option.some.inj sent]
            exact .inr ⟨users, connections, _, rfl, user, perm, rfl, rfl, rfl⟩
          · simp at sent

theorem visit {node node' : Node} {order : List ((_ : ConnectionId) × SocketSender)}
    {tenantId userId : String} {msg : Message}
    (sent : node.sendMsgToUserIn order tenantId userId msg = some node') :
    Visit node tenantId userId node' := by
  rcases node.sendMsgToUserIn_cases sent with
    ⟨rfl, absent⟩ | ⟨users, connections, kept, tenant, user, perm, left, channels, inner⟩
  · refine ⟨fun _ => rfl, id, fun _ _ _ _ => rfl, ?_, fun k changed => absurd rfl changed⟩
    simp only [ConnectionRegistry.sender?_eq_bind, absent, Option.bind_none]
    simp
  · have before : ∀ id, node.registry.sender? tenantId userId id = connections.lookup id := by
      intro id
      rw [ConnectionRegistry.sender?, tenant, Option.bind_some, user, Option.bind_some]
    have after : ∀ u id, node'.registry.sender? tenantId u id =
        if u = userId then kept.lookup id else node.registry.sender? tenantId u id := by
      intro u id
      unfold ConnectionRegistry.sender?
      rw [inner, Table.lookup_insert_eq, if_pos rfl, Option.bind_some, tenant, Option.bind_some]
      exact ConnectionRegistry.lookup_writeBack users kept userId u id
    refine ⟨fun t => ?_, fun tidy => ?_, fun t u id other => ?_, ?_, fun k changed => ?_⟩
    · rw [inner, Table.lookup_insert_eq]
      split
      · rename_i own
        rw [own, tenant]
        rfl
      · rfl
    · intro t users' tenant' u connections' user'
      rw [inner, Table.lookup_insert_eq] at tenant'
      split at tenant'
      · rw [← Option.some.inj tenant'] at user'
        exact ConnectionRegistry.writeBack_isEmpty (tidy _ users tenant) u connections' user'
      · exact tidy t users' tenant' u connections' user'
    · by_cases own : t = tenantId
      · subst own
        rw [after, if_neg fun same => other ⟨rfl, same⟩]
      · unfold ConnectionRegistry.sender?
        rw [inner, Table.lookup_insert_eq, if_neg own]
    · simp only [after, if_true, left, before]
      exact exists_kept_iff msg perm node.channels
    · rw [channels] at changed
      simp only [before]
      exact exists_of_fanOut_ne msg perm changed

/-- Sends to users one after the other: a tenant is left with connections if and only if one of
them belongs to none of the users, or its channel accepts. -/
structure Visits (node : Node) (tenantId : String) (users : List String) (node' : Node) : Prop where
  present : ∀ t, (node'.registry.inner.lookup t).isSome = (node.registry.inner.lookup t).isSome
  tidy : node.registry.UsersTidy → node'.registry.UsersTidy
  others : ∀ t, t ≠ tenantId → ∀ u id,
    node'.registry.sender? t u id = node.registry.sender? t u id
  connected : node'.registry.Connected tenantId ↔
    ∃ u id sender, node.registry.sender? tenantId u id = some sender ∧
      (u ∈ users → (node.channels sender.channel).Accepts)

theorem Visits.nil (node : Node) (tenantId : String) : Visits node tenantId [] node := by
  refine ⟨fun _ => rfl, id, fun _ _ _ _ => rfl, ?_⟩
  unfold ConnectionRegistry.Connected
  simp only [Option.isSome_iff_exists, List.not_mem_nil, false_implies, and_true]

theorem Visits.cons {node next node' : Node} {tenantId userId : String} {users : List String}
    (new : userId ∉ users) (first : Visit node tenantId userId next)
    (later : Visits next tenantId users node') :
    Visits node tenantId (userId :: users) node' := by
  refine ⟨fun t => (later.present t).trans (first.present t), later.tidy ∘ first.tidy,
    fun t other u id => ?_, later.connected.trans ?_⟩
  · rw [later.others t other, first.others t u id fun both => other both.1]
  -- a user that keeps a connection is not visited again
  have kept : (∃ id sender, node.registry.sender? tenantId userId id = some sender ∧
      (node.channels sender.channel).Accepts) →
      ∃ u id sender, next.registry.sender? tenantId u id = some sender ∧
        (u ∈ users → (next.channels sender.channel).Accepts) := by
    intro accepting
    obtain ⟨id, found⟩ := first.kept.mpr accepting
    obtain ⟨sender, found⟩ := Option.isSome_iff_exists.mp found
    exact ⟨userId, id, sender, found, fun again => absurd again new⟩
  constructor
  · rintro ⟨u, id, sender, found, accepts⟩
    by_cases own : u = userId
    · subst own
      have some : (next.registry.sender? tenantId u id).isSome = true := by
        rw [found]
        rfl
      obtain ⟨id', sender', there, takes⟩ := first.kept.mp ⟨id, some⟩
      exact ⟨u, id', sender', there, fun _ => takes⟩
    · rw [first.others _ _ _ fun both => own both.2] at found
      refine ⟨u, id, sender, found, fun mem => ?_⟩
      have takes := accepts ((List.mem_cons.mp mem).resolve_left own)
      by_cases same : next.channels sender.channel = node.channels sender.channel
      · exact same ▸ takes
      · obtain ⟨_, _, _, _, before⟩ := first.changed _ same
        exact before
  · rintro ⟨u, id, sender, found, accepts⟩
    by_cases own : u = userId
    · subst own
      exact kept ⟨id, sender, found, accepts List.mem_cons_self⟩
    · by_cases same : next.channels sender.channel = node.channels sender.channel
      · refine ⟨u, id, sender, ?_, fun mem => ?_⟩
        · rw [first.others _ _ _ fun both => own both.2, found]
        · rw [same]
          exact accepts (List.mem_cons_of_mem _ mem)
      · obtain ⟨id', sender', there, here, takes⟩ := first.changed _ same
        exact kept ⟨id', sender', there, here.symm ▸ takes⟩

theorem visits {node node' : Node} {tenantId : String} {msg : Message}
    {orders : List (String × List ((_ : ConnectionId) × SocketSender))}
    (distinct : (orders.map Prod.fst).Nodup)
    (sent : orders.foldlM (fun node visit => node.sendMsgToUserIn visit.2 tenantId visit.1 msg)
      node = some node') :
    Visits node tenantId (orders.map Prod.fst) node' := by
  induction orders generalizing node with
  | nil =>
      cases sent
      exact .nil _ tenantId
  | cons visit rest ih =>
      rw [List.foldlM_cons] at sent
      obtain ⟨next, first, later⟩ := Option.bind_eq_some_iff.mp sent
      rw [List.map_cons, List.nodup_cons] at distinct
      exact .cons distinct.1 (node.visit first) (ih distinct.2 later)

theorem visits_sendMsgToUserIn {node node' : Node}
    {order : List ((_ : ConnectionId) × SocketSender)} {tenantId userId : String} {msg : Message}
    (sent : node.sendMsgToUserIn order tenantId userId msg = some node') :
    Visits node tenantId [userId] node' :=
  .cons List.not_mem_nil (node.visit sent) (.nil node' tenantId)

/-- A group message visits the members. -/
theorem visits_sendMsgToGroupIn {node node' : Node}
    {orders : List (String × List ((_ : ConnectionId) × SocketSender))}
    {tenantId groupId : String} {msg : Message}
    (sent : node.sendMsgToGroupIn orders tenantId groupId msg = some node') :
    ∃ users, (∀ u, u ∈ users ↔ node.registry.isUserInGroup tenantId groupId u = true) ∧
      Visits node tenantId users node' := by
  unfold sendMsgToGroupIn at sent
  split at sent
  · rename_i perm
    have distinct := perm.nodup_iff.mpr (nodup_members node.registry tenantId groupId)
    exact ⟨_, fun u => perm.mem_iff.trans (node.registry.mem_members tenantId groupId u),
      visits distinct sent⟩
  · simp at sent

end Node

/-! ### Runs -/

namespace Levels

/-- A call of the registry with the orders its loops go through, or what else happens: the groups
change, and a channel is drained, filled or closed. A call tries to send to a connection once, so
what happens to its channel meanwhile counts as before the call or after it. -/
inductive Event where
  | insert (identity : Identity) (connectionId : ConnectionId) (sender : SocketSender)
  | remove (identity : Identity) (connectionId : ConnectionId)
  | sendMsgToUser (tenantId userId : String) (msg : Message)
      (order : List ((_ : ConnectionId) × SocketSender))
  | sendMsgToGroup (tenantId groupId : String) (msg : Message)
      (orders : List (String × List ((_ : ConnectionId) × SocketSender)))
  | groups (groups : Table String (Table String (Table String Unit)))
  | channel (k : ConnectionId) (channel : Channel)

def step (node : Node) : Event → Option Node
  | .insert identity connectionId sender =>
      some { node with registry := node.registry.insert identity connectionId sender }
  | .remove identity connectionId =>
      some { node with registry := node.registry.remove identity connectionId }
  | .sendMsgToUser tenantId userId msg order => node.sendMsgToUserIn order tenantId userId msg
  | .sendMsgToGroup tenantId groupId msg orders =>
      node.sendMsgToGroupIn orders tenantId groupId msg
  | .groups groups => some { node with registry := { node.registry with groups } }
  | .channel k channel => some { node with channels := Function.update node.channels k channel }

def machine : Machine Node Event := ⟨step⟩

/-- The empty registry, with channels of any kind. -/
def start (channels : Channels) : Node := ⟨.new, channels⟩

/-- The levels of the registry: no empty one, and none at all without connections. -/
structure Clean (node : Node) : Prop where
  tidy : node.registry.Tidy
  gone : (∀ t u id, node.registry.sender? t u id = none) → node.registry.inner = ∅

/-- A connected tenant has a connection that is not of these users, or whose channel accepts. -/
def Spares (node : Node) (tenantId : String) (users : String → Prop) : Prop :=
  node.registry.Connected tenantId →
    ∃ u id sender, node.registry.sender? tenantId u id = some sender ∧
      (users u → (node.channels sender.channel).Accepts)

/-- No send finds all the connections of its tenant full or closed. -/
def LeavesOne (node : Node) : Event → Prop
  | .sendMsgToUser tenantId userId _ _ => Spares node tenantId (· = userId)
  | .sendMsgToGroup tenantId groupId _ _ =>
      Spares node tenantId fun u => node.registry.isUserInGroup tenantId groupId u = true
  | _ => True

theorem clean_iff {node : Node} : Clean node ↔ node.registry.Tidy :=
  ⟨Clean.tidy, fun tidy => ⟨tidy, tidy.inner_eq_empty⟩⟩

/-- After sends to users of a tenant the registry is tidy if and only if they spare one of its
connections. -/
theorem tidy_iff_spares {node node' : Node} {tenantId : String} {users : List String}
    (visits : Node.Visits node tenantId users node') (tidy : node.registry.Tidy) :
    node'.registry.Tidy ↔ Spares node tenantId (· ∈ users) := by
  obtain ⟨usersTidy, connected⟩ := ConnectionRegistry.tidy_iff.mp tidy
  constructor
  · rintro tidy' ⟨u, id, found⟩
    apply visits.connected.mp
    refine (ConnectionRegistry.tidy_iff.mp tidy').2 tenantId ?_
    rw [visits.present]
    obtain ⟨sender, found⟩ := Option.isSome_iff_exists.mp found
    obtain ⟨users, tenant, _⟩ := Option.bind_eq_some_iff.mp found
    rw [tenant]
    rfl
  · intro spares
    refine ConnectionRegistry.tidy_iff.mpr ⟨visits.tidy usersTidy, fun t present => ?_⟩
    rw [visits.present] at present
    have before := connected t present
    by_cases own : t = tenantId
    · subst own
      exact visits.connected.mpr (spares before)
    · obtain ⟨u, id, found⟩ := before
      refine ⟨u, id, ?_⟩
      rw [visits.others t own]
      exact found

/-- A step keeps a tidy registry tidy if and only if it leaves a connection. -/
theorem tidy_step {node node' : Node} {e : Event} (next : machine.step node e = some node')
    (tidy : node.registry.Tidy) : node'.registry.Tidy ↔ LeavesOne node e := by
  cases e with
  | insert identity connectionId sender =>
      cases next
      exact iff_of_true (tidy.insert identity connectionId sender) trivial
  | remove identity connectionId =>
      cases next
      exact iff_of_true (tidy.remove identity connectionId) trivial
  | sendMsgToUser tenantId userId msg order =>
      have visits := Node.visits_sendMsgToUserIn next
      have spared := tidy_iff_spares visits tidy
      simp only [List.mem_singleton] at spared
      exact spared
  | sendMsgToGroup tenantId groupId msg orders =>
      obtain ⟨users, members, visits⟩ := Node.visits_sendMsgToGroupIn next
      have spared := tidy_iff_spares visits tidy
      simp only [members] at spared
      exact spared
  | groups groups =>
      cases next
      exact iff_of_true ⟨tidy.tenants, tidy.users⟩ trivial
  | channel k channel =>
      cases next
      exact iff_of_true tidy trivial

/-- No step leaves a user without connections. -/
theorem usersTidy_step {node node' : Node} {e : Event} (next : machine.step node e = some node')
    (tidy : node.registry.UsersTidy) : node'.registry.UsersTidy := by
  cases e with
  | insert identity connectionId sender =>
      cases next
      exact tidy.insert identity connectionId sender
  | remove identity connectionId =>
      cases next
      exact tidy.remove identity connectionId
  | sendMsgToUser tenantId userId msg order =>
      exact (Node.visits_sendMsgToUserIn next).tidy tidy
  | sendMsgToGroup tenantId groupId msg orders =>
      obtain ⟨users, _, visits⟩ := Node.visits_sendMsgToGroupIn next
      exact visits.tidy tidy
  | groups groups =>
      cases next
      exact tidy
  | channel k channel =>
      cases next
      exact tidy

theorem usersTidy_run {channels : Channels} {es : List Event} {node : Node}
    (ran : machine.run (start channels) es = some node) : node.registry.UsersTidy := by
  let Inv (_ : List Event) (node : Node) : Prop := node.registry.UsersTidy
  have init : Inv [] (start channels) := by
    intro t users tenant
    simp [start, ConnectionRegistry.new] at tenant
  have step : ∀ es node e node', Inv es node → machine.step node e = some node' →
      Inv (es ++ [e]) node' := fun _ _ _ _ tidy next => usersTidy_step next tidy
  exact Machine.invariant init step ran

/-- The registry has no empty level in any state of a run if and only if no send of the run
finds all the connections of its tenant full or closed. -/
theorem clean_iff_leavesOne (channels : Channels) (es : List Event) :
    machine.Along Clean (start channels) es ↔ machine.Steps LeavesOne (start channels) es := by
  have empty : Clean (start channels) := by
    refine clean_iff.mpr ⟨fun t users tenant => ?_, fun t users tenant => ?_⟩
    · simp [start, ConnectionRegistry.new] at tenant
    · simp [start, ConnectionRegistry.new] at tenant
  refine Machine.along_iff_steps (fun _ clean => clean) ?_ ?_ empty es
  · intro node e node' clean ok next
    exact clean_iff.mpr ((tidy_step next clean.tidy).mpr ok)
  · intro node e node' clean next clean'
    exact (tidy_step next clean.tidy).mp clean'.tidy

/-- A message evicts the only connection of a tenant, whose receiver is gone; the removal of that
connection then finds no user, and the tenant stays. -/
theorem eviction_leaves_tenant :
    ¬ ∀ (channels : Channels) (es : List Event) (node : Node),
      machine.run (start channels) es = some node → Clean node := by
  intro clean
  obtain ⟨node, ran, left⟩ : ∃ node ∈ machine.run (start fun _ => .new)
      [.insert ⟨"acme", "ada"⟩ 1 ⟨1⟩, .channel 1 Channel.new.hangUp,
        .sendMsgToUser "acme" "ada" .ping [⟨1, ⟨1⟩⟩], .remove ⟨"acme", "ada"⟩ 1],
      (node.registry.inner.lookup "acme").any (·.entries.isEmpty) = true := by
    decide
  obtain ⟨users, tenant, empty⟩ := (Option.any_eq_true _ _).mp left
  have some := (clean _ _ node ran).tidy.tenants "acme" users tenant
  rw [empty] at some
  exact absurd some (by decide)

end Levels

end YappaCore
