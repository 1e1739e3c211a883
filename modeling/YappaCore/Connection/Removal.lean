import YappaCore.Connection.Flat

/-!
`ConnectionRegistry::remove` as the two steps it takes: the first one runs under the guard
of the tenant's entry and decides whether the tenant goes, the second one runs after the
guard is dropped and takes the tenant out, with whatever is there by then.

`kept_registered_iff`: whatever the calls and their interleaving, a connection that was
inserted and that nothing removed or found full or closed stays registered exactly when
every tenant that a second step takes out has no connections at that moment.
-/

namespace YappaCore

open Lib

/-- A process whose calls interleave. -/
structure Interleaved where
  node : Node
  /-- The removals between their two steps, each with `should_remove_tenant`. -/
  removing : List (Identity × Bool)
  /-- The connections that were inserted and since then were neither the argument of a
  removal nor found full or closed. -/
  kept : Key → Bool

namespace Interleaved

/-! ### Steps -/

inductive Event where
  | call (call : Call)
  | removeConnection (identity : Identity) (connectionId : ConnectionId)
  | removeTenant (index : Nat)

/-- A key leads to a channel that is full or closed. -/
def stale (node : Node) (key : Key) : Bool :=
  (node.registry.find key).any fun sender => !decide (node.channels sender.channel).Accepts

/-- A call finds the channel of a key full or closed. -/
def finds (node : Node) : Call → Key → Bool
  | .sendMsgToUser tenantId userId _ _, key =>
      decide (key.tenantId = tenantId ∧ key.userId = userId) && stale node key
  | .sendMsgToGroup tenantId groupId _ _, key =>
      decide (key.tenantId = tenantId ∧
        node.registry.isUserInGroup tenantId groupId key.userId = true) && stale node key
  | _, _ => false

/-- The connections that are to be there after a call. -/
def keptAfter (node : Node) (kept : Key → Bool) (call : Call) : Key → Bool :=
  match call with
  | .insert identity connectionId _ =>
      Function.update kept (Call.key identity connectionId) true
  | call => fun key => kept key && !finds node call key

/-- A removal in one piece, which does not happen here. -/
def removes : Call → Bool
  | .remove _ _ => true
  | _ => false

def step (s : Interleaved) : Event → Option Interleaved
  | .call call =>
      if removes call then none
      else
        (Call.machine.step s.node call).map fun node =>
          { s with node, kept := keptAfter s.node s.kept call }
  | .removeConnection identity connectionId =>
      let (registry, shouldRemoveTenant) :=
        s.node.registry.removeConnection identity connectionId
      some
        { node := { s.node with registry }
          removing := s.removing ++ [(identity, shouldRemoveTenant)]
          kept := Function.update s.kept (Call.key identity connectionId) false }
  | .removeTenant index =>
      s.removing[index]?.map fun (identity, shouldRemoveTenant) =>
        { s with
          node := { s.node with
            registry := s.node.registry.removeTenant identity shouldRemoveTenant }
          removing := s.removing.eraseIdx index }

def machine : Machine Interleaved Event := ⟨step⟩

def start (groups : Table String (Table String (Table String Unit))) (channels : Channels) :
    Interleaved := ⟨Call.start groups channels, [], fun _ => false⟩

/-- The connections that are to be there are. -/
def Registered (s : Interleaved) : Prop :=
  ∀ key, s.kept key = true → (s.node.registry.find key).isSome = true

/-- A tenant that goes has no connections. -/
def TenantEmpty (s : Interleaved) : Event → Prop
  | .removeTenant index => ∀ identity, s.removing[index]? = some (identity, true) →
      ∀ key, key.tenantId = identity.tenantId → s.node.registry.find key = none
  | _ => True

/-! ### What the steps do to the registrations -/

theorem find_removeTenant (registry : ConnectionRegistry) (identity : Identity)
    (shouldRemoveTenant : Bool) (key : Key) :
    (registry.removeTenant identity shouldRemoveTenant).find key =
      if shouldRemoveTenant = true ∧ key.tenantId = identity.tenantId then none
      else registry.find key := by
  unfold ConnectionRegistry.removeTenant ConnectionRegistry.find ConnectionRegistry.sender?
  by_cases flag : shouldRemoveTenant = true
  · by_cases own : key.tenantId = identity.tenantId
    · rw [if_pos flag, if_pos ⟨flag, own⟩, Table.lookup_erase_eq, if_pos own]
      rfl
    · rw [if_pos flag, if_neg fun both => own both.2, Table.lookup_erase_eq, if_neg own]
  · rw [if_neg flag, if_neg fun both => flag both.1]

theorem find_removeConnection (registry : ConnectionRegistry) (identity : Identity)
    (connectionId : ConnectionId) :
    (registry.removeConnection identity connectionId).1.find =
      Function.update registry.find (Call.key identity connectionId) none := by
  funext ⟨t, u, id⟩
  rw [Call.update_key]
  exact registry.sender?_removeConnection identity connectionId t u id

/-- A key that is still there after the first step of a removal. -/
theorem find_of_removeConnection {registry : ConnectionRegistry} {identity : Identity}
    {connectionId : ConnectionId} {key : Key} {sender : SocketSender}
    (found : (registry.removeConnection identity connectionId).1.find key = some sender) :
    registry.find key = some sender := by
  rw [find_removeConnection] at found
  by_cases own : key = Call.key identity connectionId
  · rw [own, Function.update_self] at found
    simp at found
  · rwa [Function.update_of_ne own] at found

/-- After a send a key is there if it was and was not found full or closed. -/
theorem isSome_send {node node' : Node} {keys : Key → Prop} {msg : Message}
    (sent : node.flat.send keys msg = node'.flat) (key : Key) [Decidable (keys key)] :
    (node'.registry.find key).isSome =
      ((node.registry.find key).isSome && !(decide (keys key) && stale node key)) := by
  have after : ∀ sender, node'.registry.find key = some sender ↔
      node.registry.find key = some sender ∧ (keys key → (node.channels sender.channel).Accepts) := by
    intro sender
    change node'.flat.table key = some sender ↔ _
    rw [← sent, Flat.table_send]
    rfl
  unfold stale
  cases found : node.registry.find key with
  | none =>
      have gone : node'.registry.find key = none := by
        refine Option.eq_none_iff_forall_ne_some.mpr fun sender there => ?_
        rw [found] at after
        simpa using ((after sender).mp there).1
      rw [gone]
      rfl
  | some sender =>
      rw [found] at after
      by_cases kept : keys key → (node.channels sender.channel).Accepts
      · rw [(after sender).mpr ⟨rfl, kept⟩]
        by_cases own : keys key
        · simp [own, kept own]
        · simp [own]
      · obtain ⟨own, refuses⟩ := Classical.not_imp.mp kept
        have gone : node'.registry.find key = none := by
          refine Option.eq_none_iff_forall_ne_some.mpr fun other there => ?_
          obtain ⟨same, accepts⟩ := (after other).mp there
          exact refuses (Option.some.inj same ▸ accepts own)
        rw [gone]
        simp [own, refuses]

/-- Every connection that is registered is to be there, and conversely. -/
structure Exact (s : Interleaved) : Prop where
  separate : s.node.Separate
  registered : ∀ key, s.kept key = (s.node.registry.find key).isSome

theorem exact_start (groups : Table String (Table String (Table String Unit)))
    (channels : Channels) : Exact (start groups channels) where
  separate := Call.separate_start groups channels
  registered := fun _ => rfl

theorem Exact.call {s : Interleaved} (inv : Exact s) {call : Call} {node : Node}
    (other : removes call = false)
    (next : Call.machine.step s.node call = some node) :
    Exact { s with node, kept := keptAfter s.node s.kept call } where
  separate := Call.separate_step inv.separate next
  registered := by
    intro key
    have flat := Call.simulates inv.separate next
    have before := inv.registered key
    cases call with
    | insert identity connectionId sender =>
        have table : node.registry.find = Function.update s.node.registry.find
            (Call.key identity connectionId) (some sender) :=
          (congrArg Flat.table (Option.some.inj flat)).symm
        simp only [keptAfter, table]
        by_cases own : key = Call.key identity connectionId
        · subst own
          rw [Function.update_self, Function.update_self]
          rfl
        · rw [Function.update_of_ne own, Function.update_of_ne own]
          exact before
    | remove identity connectionId => simp [removes] at other
    | sendMsgToUser tenantId userId msg order =>
        rw [isSome_send (Option.some.inj flat) key, ← before]
        rfl
    | sendMsgToGroup tenantId groupId msg orders =>
        rw [isSome_send (Option.some.inj flat) key, ← before]
        rfl
    | drain channel =>
        obtain ⟨_, _, rfl⟩ := Option.map_eq_some_iff.mp next
        rw [← before]
        exact Bool.and_true _
    | close channel =>
        obtain rfl := Option.some.inj next
        rw [← before]
        exact Bool.and_true _

/-- The first step of a removal takes out its own connection only. -/
theorem Exact.removeConnection {s : Interleaved} (inv : Exact s) (identity : Identity)
    (connectionId : ConnectionId) (removing : List (Identity × Bool)) :
    Exact
      { node := { s.node with
          registry := (s.node.registry.removeConnection identity connectionId).1 }
        removing
        kept := Function.update s.kept (Call.key identity connectionId) false } where
  separate := by
    intro t u id sender t' u' id' sender' found found'
    have before : s.node.registry.sender? t u id = some sender :=
      @find_of_removeConnection _ identity connectionId ⟨t, u, id⟩ sender found
    have before' : s.node.registry.sender? t' u' id' = some sender' :=
      @find_of_removeConnection _ identity connectionId ⟨t', u', id'⟩ sender' found'
    exact inv.separate t u id sender t' u' id' sender' before before'
  registered := by
    intro key
    simp only [find_removeConnection]
    by_cases own : key = Call.key identity connectionId
    · rw [own, Function.update_self, Function.update_self]
      rfl
    · rw [Function.update_of_ne own, Function.update_of_ne own]
      exact inv.registered key

/-- The second step takes out nothing when the tenant has no connections. -/
theorem Exact.removeTenant {s : Interleaved} (inv : Exact s) (identity : Identity)
    (shouldRemoveTenant : Bool) (removing : List (Identity × Bool))
    (empty : shouldRemoveTenant = true →
      ∀ key, key.tenantId = identity.tenantId → s.node.registry.find key = none) :
    Exact
      { s with
        node := { s.node with
          registry := s.node.registry.removeTenant identity shouldRemoveTenant }
        removing } := by
  have same : (s.node.registry.removeTenant identity shouldRemoveTenant).find =
      s.node.registry.find := by
    funext key
    rw [find_removeTenant]
    split
    · rename_i gone
      exact (empty gone.1 key gone.2).symm
    · rfl
  refine ⟨?_, ?_⟩
  · intro t u id sender t' u' id' sender' found found'
    have before : s.node.registry.sender? t u id = some sender :=
      (congrFun same ⟨t, u, id⟩).symm.trans found
    have before' : s.node.registry.sender? t' u' id' = some sender' :=
      (congrFun same ⟨t', u', id'⟩).symm.trans found'
    exact inv.separate t u id sender t' u' id' sender' before before'
  · intro key
    rw [same]
    exact inv.registered key

theorem exact_step {s s' : Interleaved} {e : Event} (inv : Exact s) (ok : TenantEmpty s e)
    (next : machine.step s e = some s') : Exact s' := by
  cases e with
  | call call =>
      simp only [machine, step] at next
      split at next
      · simp at next
      · rename_i other
        obtain ⟨node, called, rfl⟩ := Option.map_eq_some_iff.mp next
        exact inv.call (Bool.eq_false_iff.mpr other) called
  | removeConnection identity connectionId =>
      obtain rfl := Option.some.inj next
      exact inv.removeConnection identity connectionId _
  | removeTenant index =>
      obtain ⟨⟨identity, shouldRemoveTenant⟩, pending, rfl⟩ := Option.map_eq_some_iff.mp next
      refine inv.removeTenant identity shouldRemoveTenant _ fun flag => ?_
      subst flag
      exact ok identity pending

/-- A second step after which nothing is missing took out no connection. -/
theorem tenantEmpty_of_registered {s s' : Interleaved} {e : Event} (inv : Exact s)
    (next : machine.step s e = some s') (registered : Registered s') : TenantEmpty s e := by
  cases e with
  | call call => trivial
  | removeConnection identity connectionId => trivial
  | removeTenant index =>
      intro identity pending key own
      obtain ⟨_, pending', rfl⟩ := Option.map_eq_some_iff.mp next
      obtain rfl := Option.some.inj (pending.symm.trans pending')
      by_contra there
      have kept : s.kept key = true := by
        rw [inv.registered key]
        exact Option.isSome_iff_ne_none.mpr there
      have found := registered key kept
      simp only [find_removeTenant] at found
      simp [own] at found

/-- In every interleaving, the connections that were inserted, not removed and not found
full or closed are all registered throughout exactly when no second step of a removal
takes out a tenant that has connections again. -/
theorem kept_registered_iff (groups : Table String (Table String (Table String Unit)))
    (channels : Channels) (events : List Event) :
    machine.Along Registered (start groups channels) events ↔
      machine.Steps TenantEmpty (start groups channels) events :=
  Machine.along_iff_steps
    (fun _ inv key kept => (inv.registered key).symm.trans kept)
    (fun _ _ _ inv ok next => exact_step inv ok next)
    (fun _ _ _ inv next registered => tenantEmpty_of_registered inv next registered)
    (exact_start groups channels) events

/-- The last connection of a tenant goes, another user of the tenant connects before the
second step, and the second step takes the new connection out. -/
theorem removal_drops_new_connection :
    ¬ ∀ (groups : Table String (Table String (Table String Unit))) (channels : Channels)
      (events : List Event) (s : Interleaved),
      machine.run (start groups channels) events = some s → Registered s := by
  intro registered
  let events : List Event :=
    [.call (.insert ⟨"acme", "ada"⟩ 1 ⟨1⟩), .removeConnection ⟨"acme", "ada"⟩ 1,
      .call (.insert ⟨"acme", "bob"⟩ 2 ⟨2⟩), .removeTenant 0]
  obtain ⟨s, ran, kept, gone⟩ : ∃ s ∈ machine.run (start ∅ fun _ => Channel.new) events,
      s.kept ⟨"acme", "bob", 2⟩ = true ∧ s.node.registry.find ⟨"acme", "bob", 2⟩ = none := by
    decide
  have there := registered ∅ (fun _ => Channel.new) events s ran _ kept
  rw [gone] at there
  simp at there

end Interleaved

end YappaCore
