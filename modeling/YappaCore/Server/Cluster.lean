import YappaCore.Db.Groups
import YappaCore.Lib.Machine
import YappaCore.Server.Ws

/-!
Any number of nodes over one Redis and one Postgres, as a machine whose events are the
moments at which tasks of the source can interleave: a connection opens or goes away, a
client sends a frame, a handler performs its next operation, the heartbeat pings, the send
task takes a message, a channel closes, a listener handles the next published message.

The receive task of a connection handles one frame at a time. A connection that goes away
drops its guard and with it its registration; its handler may get some operations further
before it is aborted. The id of a new connection is not that of an earlier one. Every
published message comes once for each matching pattern to every listener, in the order of
publication.

`Stepped` lists the events that are possible and where they lead; the lemmas on `perform`
say what one operation changes of the connections, the streams, the registrations, the
queues and the members.
-/

namespace YappaCore

open Lib

/-- A connection: where it was opened and by whom, whether its guard is alive, the frame
its receive task handles or handled last, and what is left of the handler. -/
structure Socket (N : Type) where
  node : N
  identity : Identity
  alive : Bool
  handling : Option TextFrame
  task : Handler Unit

/-- The answers the environment chooses: a time, a fresh id, whether a statement, a publish
or a produce goes through, and the database's clock. -/
structure Choice where
  time : UInt64
  uuid : Uuid
  ok : Bool
  dbTime : Int

structure Cluster (N : Type) where
  nodes : N → Node
  /-- What each listener has yet to handle. -/
  streams : N → List ServerMessage
  sockets : ConnectionId → Option (Socket N)
  db : Database
  kafka : List (String × String × ServerMessage)

namespace Cluster

variable {N : Type} [DecidableEq N]

def start (db : Database) : Cluster N where
  nodes := fun _ => ⟨.new, fun _ => ⟨false, [], Nat.zero_le _⟩⟩
  streams := fun _ => []
  sockets := fun _ => none
  db
  kafka := []

inductive Event (N : Type) where
  | connect (id : ConnectionId) (node : N) (identity : Identity)
  | frame (id : ConnectionId) (text : TextFrame)
  | perform (id : ConnectionId) (choice : Choice)
  | ping (id : ConnectionId)
  | disconnect (id : ConnectionId)
  | abort (id : ConnectionId)
  | drain (node : N) (id : ConnectionId)
  | hangUp (node : N) (id : ConnectionId)
  | deliver (node : N)

/-! ### Updates -/

/-- Replace a node. -/
def setNode (s : Cluster N) (n : N) (node : Node) : Cluster N :=
  { s with nodes := Function.update s.nodes n node }

/-- Replace the registry of a node. -/
def setRegistry (s : Cluster N) (n : N) (registry : ConnectionRegistry) : Cluster N :=
  s.setNode n { s.nodes n with registry }

/-- Replace a channel of a node. -/
def setChannel (s : Cluster N) (n : N) (id : ConnectionId) (channel : Channel) : Cluster N :=
  s.setNode n { s.nodes n with channels := Function.update (s.nodes n).channels id channel }

/-- Replace a connection. -/
def setSocket (s : Cluster N) (id : ConnectionId) (socket : Socket N) : Cluster N :=
  { s with sockets := Function.update s.sockets id (some socket) }

/-- `PUBLISH`: every listener gets a copy for each pattern that matches. -/
def published (s : Cluster N) (channel : String) (msg : ServerMessage) : Cluster N :=
  { s with streams := fun n => s.streams n ++ List.replicate (copies channel) msg }

/-! ### Operations -/

/-- Perform an operation of a handler on a node: its answer and the state after it. -/
def perform (s : Cluster N) (n : N) (choice : Choice) : (op : Effect) → op.Answer × Cluster N
  | .now => (choice.time, s)
  | .newV4 => (choice.uuid, s)
  | .selectGroup tenantId name => (if choice.ok then s.db.selectGroup tenantId name else none, s)
  | .insertGroupMember conversationId tenantId userId =>
      match if choice.ok then
          s.db.insertGroupMember conversationId tenantId userId choice.dbTime else none with
      | some db => (true, { s with db })
      | none => (false, s)
  | .deleteGroupMember conversationId userId =>
      match if choice.ok then s.db.deleteGroupMember conversationId userId else none with
      | some db => (true, { s with db })
      | none => (false, s)
  | .upsertGroup conversationId tenantId name createdBy =>
      match if choice.ok then
          s.db.upsertGroup conversationId tenantId name createdBy choice.dbTime else none with
      | some (id, db) => (some id, { s with db })
      | none => (none, s)
  | .joinGroup tenantId groupId userId =>
      ((), s.setRegistry n ((s.nodes n).registry.joinGroup tenantId groupId userId))
  | .leaveGroup tenantId groupId userId =>
      ((), s.setRegistry n ((s.nodes n).registry.leaveGroup tenantId groupId userId))
  | .createGroup tenantId groupId =>
      ((), s.setRegistry n ((s.nodes n).registry.createGroup tenantId groupId))
  | .deleteGroup tenantId groupId =>
      ((), s.setRegistry n ((s.nodes n).registry.deleteGroup tenantId groupId))
  | .isUserInGroup tenantId groupId userId =>
      ((s.nodes n).registry.isUserInGroup tenantId groupId userId, s)
  | .sendMsgToUser tenantId userId msg =>
      ((), s.setNode n ((s.nodes n).sendMsgToUser tenantId userId msg))
  | .publish channel msg =>
      if choice.ok then (true, s.published channel msg) else (false, s)
  | .produce topic key payload =>
      if choice.ok then (true, { s with kafka := s.kafka ++ [(topic, key, payload)] })
      else (false, s)
  | .insertMessages rows =>
      match if choice.ok then insertMessages s.db.messages rows else none with
      | some messages => (true, { s with db := { s.db with messages } })
      | none => (false, s)

/-! ### Events -/

/-- What a new connection does before its tasks run: it joins the group `general` of its
node. -/
def joinGeneral (identity : Identity) : Handler Unit :=
  .call (.joinGroup identity.tenantId "general" identity.userId) .ret

/-- A connection is registered with a new channel. -/
def connected (s : Cluster N) (id : ConnectionId) (n : N) (identity : Identity) : Cluster N :=
  (s.setNode n
    { registry := (s.nodes n).registry.insert identity id ⟨id⟩
      channels := Function.update (s.nodes n).channels id Channel.new }).setSocket id
    ⟨n, identity, true, none, joinGeneral identity⟩

/-- A handler performed an operation. -/
def performed (s : Cluster N) (id : ConnectionId) (n : N) (identity : Identity) (alive : Bool)
    (handling : Option TextFrame) (choice : Choice) (op : Effect)
    (next : op.Answer → Handler Unit) : Cluster N :=
  (s.perform n choice op).2.setSocket id
    ⟨n, identity, alive, handling, next (s.perform n choice op).1⟩

/-- The guard of a connection is dropped. -/
def disconnected (s : Cluster N) (id : ConnectionId) (n : N) (identity : Identity)
    (handling : Option TextFrame) (task : Handler Unit) : Cluster N :=
  (s.setRegistry n ((s.nodes n).registry.remove identity id)).setSocket id
    ⟨n, identity, false, handling, task⟩

/-- A listener handled the first message of its stream. -/
def delivered (s : Cluster N) (n : N) (msg : ServerMessage) (rest : List ServerMessage) :
    Cluster N :=
  { s.setNode n ((s.nodes n).handleMessage msg) with
    streams := Function.update s.streams n rest }

def step (state : AppState) (s : Cluster N) : Event N → Option (Cluster N)
  | .connect id n identity =>
      match s.sockets id with
      | none => some (s.connected id n identity)
      | some _ => none
  | .frame id text =>
      match s.sockets id with
      | some ⟨n, identity, true, _, .ret _⟩ =>
          some (s.setSocket id
            ⟨n, identity, true, some text, Handler.handleTextMessage text identity state⟩)
      | _ => none
  | .perform id choice =>
      match s.sockets id with
      | some ⟨n, identity, alive, handling, .call op next⟩ =>
          some (s.performed id n identity alive handling choice op next)
      | _ => none
  | .ping id =>
      match s.sockets id with
      | some ⟨n, identity, true, _, .ret _⟩ =>
          some (s.setNode n ((s.nodes n).sendMsgToUser identity.tenantId identity.userId .ping))
      | _ => none
  | .disconnect id =>
      match s.sockets id with
      | some ⟨n, identity, true, handling, task⟩ =>
          some (s.disconnected id n identity handling task)
      | _ => none
  | .abort id =>
      match s.sockets id with
      | some ⟨n, identity, false, handling, _⟩ =>
          some (s.setSocket id ⟨n, identity, false, handling, .ret ()⟩)
      | _ => none
  | .drain n id =>
      match ((s.nodes n).channels id).recv with
      | some (_, channel) => some (s.setChannel n id channel)
      | none => none
  | .hangUp n id => some (s.setChannel n id ((s.nodes n).channels id).hangUp)
  | .deliver n =>
      match s.streams n with
      | msg :: rest => some (s.delivered n msg rest)
      | [] => none

def machine (N : Type) [DecidableEq N] (state : AppState) : Machine (Cluster N) (Event N) :=
  ⟨step state⟩

/-! ### What an event does -/

/-- The events that are possible in a state and where they lead. -/
inductive Stepped (state : AppState) (s : Cluster N) : Event N → Cluster N → Prop where
  | connect {id n} (identity) (fresh : s.sockets id = none) :
      Stepped state s (.connect id n identity) (s.connected id n identity)
  | frame {id n identity handling value} (text)
      (idle : s.sockets id = some ⟨n, identity, true, handling, .ret value⟩) :
      Stepped state s (.frame id text) (s.setSocket id
        ⟨n, identity, true, some text, Handler.handleTextMessage text identity state⟩)
  | perform {id n identity alive handling op next} (choice)
      (busy : s.sockets id = some ⟨n, identity, alive, handling, .call op next⟩) :
      Stepped state s (.perform id choice)
        (s.performed id n identity alive handling choice op next)
  | ping {id n identity handling value}
      (idle : s.sockets id = some ⟨n, identity, true, handling, .ret value⟩) :
      Stepped state s (.ping id)
        (s.setNode n ((s.nodes n).sendMsgToUser identity.tenantId identity.userId .ping))
  | disconnect {id n identity handling task}
      (live : s.sockets id = some ⟨n, identity, true, handling, task⟩) :
      Stepped state s (.disconnect id) (s.disconnected id n identity handling task)
  | abort {id n identity handling task}
      (gone : s.sockets id = some ⟨n, identity, false, handling, task⟩) :
      Stepped state s (.abort id) (s.setSocket id ⟨n, identity, false, handling, .ret ()⟩)
  | drain {n id msg channel} (waiting : ((s.nodes n).channels id).recv = some (msg, channel)) :
      Stepped state s (.drain n id) (s.setChannel n id channel)
  | hangUp (n id) :
      Stepped state s (.hangUp n id) (s.setChannel n id ((s.nodes n).channels id).hangUp)
  | deliver {n msg rest} (first : s.streams n = msg :: rest) :
      Stepped state s (.deliver n) (s.delivered n msg rest)

theorem stepped {state : AppState} {s s' : Cluster N} {e : Event N}
    (h : (machine N state).step s e = some s') : Stepped state s e s' := by
  cases e with
  | connect id n identity =>
      simp only [machine, step] at h
      split at h
      · rename_i fresh
        exact Option.some.inj h ▸ .connect identity fresh
      · simp at h
  | frame id text =>
      simp only [machine, step] at h
      split at h
      · rename_i idle
        exact Option.some.inj h ▸ .frame text idle
      · simp at h
  | perform id choice =>
      simp only [machine, step] at h
      split at h
      · rename_i busy
        exact Option.some.inj h ▸ .perform choice busy
      · simp at h
  | ping id =>
      simp only [machine, step] at h
      split at h
      · rename_i idle
        exact Option.some.inj h ▸ .ping idle
      · simp at h
  | disconnect id =>
      simp only [machine, step] at h
      split at h
      · rename_i live
        exact Option.some.inj h ▸ .disconnect live
      · simp at h
  | abort id =>
      simp only [machine, step] at h
      split at h
      · rename_i gone
        exact Option.some.inj h ▸ .abort gone
      · simp at h
  | drain n id =>
      simp only [machine, step] at h
      split at h
      · rename_i waiting
        exact Option.some.inj h ▸ .drain waiting
      · simp at h
  | hangUp n id =>
      simp only [machine, step] at h
      exact Option.some.inj h ▸ .hangUp n id
  | deliver n =>
      simp only [machine, step] at h
      split at h
      · rename_i first
        exact Option.some.inj h ▸ .deliver first
      · simp at h

/-! ### What an operation does -/

/-- The members of a group on a node. -/
def member (s : Cluster N) (n : N) (tenantId groupId userId : String) : Bool :=
  (s.nodes n).registry.isUserInGroup tenantId groupId userId

/-- Whether a user is a member of a group after an operation. -/
def memberAfter (t g u : String) (before : Bool) : Effect → Bool
  | .joinGroup t' g' u' => decide (t = t' ∧ g = g' ∧ u = u') || before
  | .leaveGroup t' g' u' => !decide (t = t' ∧ g = g' ∧ u = u') && before
  | .deleteGroup t' g' => !decide (t = t' ∧ g = g') && before
  | _ => before

theorem nodes_setNode (s : Cluster N) (n : N) (node : Node) : (s.setNode n node).nodes n = node := by
  simp [setNode]

theorem nodes_setNode_of_ne (s : Cluster N) {n m : N} (other : m ≠ n) (node : Node) :
    (s.setNode n node).nodes m = s.nodes m := by
  simp [setNode, Function.update_of_ne other]

omit [DecidableEq N] in
/-- Two nodes with the same groups have the same members. -/
theorem member_congr {s s' : Cluster N} {n : N}
    (groups : (s'.nodes n).registry.groups = (s.nodes n).registry.groups) (t g u : String) :
    s'.member n t g u = s.member n t g u := by
  unfold member
  rw [ConnectionRegistry.isUserInGroup_eq, groups, ← ConnectionRegistry.isUserInGroup_eq]

/-- A listener that handles a join has one more member. -/
theorem member_delivered (s : Cluster N) {n : N} {msg : ServerMessage}
    (join : msg.msgType = "group_join") (rest : List ServerMessage) (t g u : String) :
    (s.delivered n msg rest).member n t g u =
      (decide (t = msg.tenantId ∧ g = msg.channelId ∧ u = msg.senderId) || s.member n t g u) := by
  have groups := groups_handleMessage (s.nodes n) msg
  rw [if_pos join] at groups
  have node : (s.delivered n msg rest).nodes n = (s.nodes n).handleMessage msg :=
    nodes_setNode s n _
  unfold member
  rw [node, ConnectionRegistry.isUserInGroup_eq, groups, ← ConnectionRegistry.isUserInGroup_eq,
    ConnectionRegistry.isUserInGroup_joinGroup]

/-- Which operations are about a user's membership. -/
theorem memberAfter_cases (t g u : String) (op : Effect) :
    op = .joinGroup t g u ∨ op = .leaveGroup t g u ∨ op = .deleteGroup t g ∨
      ∀ before, memberAfter t g u before op = before := by
  cases op with
  | joinGroup t' g' u' =>
      by_cases own : t = t' ∧ g = g' ∧ u = u'
      · obtain ⟨rfl, rfl, rfl⟩ := own
        exact .inl rfl
      · exact .inr (.inr (.inr fun before => by simp [memberAfter, own]))
  | leaveGroup t' g' u' =>
      by_cases own : t = t' ∧ g = g' ∧ u = u'
      · obtain ⟨rfl, rfl, rfl⟩ := own
        exact .inr (.inl rfl)
      · exact .inr (.inr (.inr fun before => by simp [memberAfter, own]))
  | deleteGroup t' g' =>
      by_cases own : t = t' ∧ g = g'
      · obtain ⟨rfl, rfl⟩ := own
        exact .inr (.inr (.inl rfl))
      · exact .inr (.inr (.inr fun before => by simp [memberAfter, own]))
  | _ => exact .inr (.inr (.inr fun _ => rfl))

section Perform

variable (s : Cluster N) (n : N) (choice : Choice) (op : Effect)

theorem sockets_perform : (s.perform n choice op).2.sockets = s.sockets := by
  cases op <;> simp only [perform] <;> (try split) <;> rfl

theorem streams_perform (m : N) : (s.perform n choice op).2.streams m =
    match op with
    | .publish channel msg =>
        if choice.ok then s.streams m ++ List.replicate (copies channel) msg else s.streams m
    | _ => s.streams m := by
  cases op <;> simp only [perform] <;> (try split) <;> simp_all [published, setRegistry, setNode]

/-- The tables after an operation: a statement that fails leaves them as they are. -/
theorem db_perform : (s.perform n choice op).2.db =
    match op with
    | .insertGroupMember id t u =>
        (if choice.ok then s.db.insertGroupMember id t u choice.dbTime else none).getD s.db
    | .deleteGroupMember id u => (if choice.ok then s.db.deleteGroupMember id u else none).getD s.db
    | .upsertGroup id t g u =>
        ((if choice.ok then s.db.upsertGroup id t g u choice.dbTime else none).map (·.2)).getD s.db
    | .insertMessages rows => { s.db with
        messages := (if choice.ok then insertMessages s.db.messages rows else none).getD
          s.db.messages }
    | _ => s.db := by
  cases op <;> simp only [perform] <;> (try split) <;> simp_all [published, setRegistry, setNode]

/-- A lookup that answers with an id found the group. -/
theorem selected_of_answer {t g : String} {id : Uuid}
    (answer : (s.perform n choice (.selectGroup t g)).1 = some id) :
    s.db.selectGroup t g = some id := by
  simp only [perform] at answer
  split at answer
  · exact answer
  · simp at answer

/-- An upsert that answers with an id went through. -/
theorem upserted_of_answer {id id' : Uuid} {t g u : String}
    (answer : (s.perform n choice (.upsertGroup id t g u)).1 = some id') :
    choice.ok = true ∧ s.db.upsertGroup id t g u choice.dbTime =
      some (id', (s.perform n choice (.upsertGroup id t g u)).2.db) := by
  simp only [perform] at answer ⊢
  by_cases ok : choice.ok = true
  · cases upserted : s.db.upsertGroup id t g u choice.dbTime with
    | none => simp [ok, upserted] at answer
    | some created =>
        obtain ⟨id'', db⟩ := created
        simp only [ok, if_true, upserted, Option.some.injEq] at answer ⊢
        exact ⟨trivial, Prod.ext answer rfl⟩
  · simp [ok] at answer

/-- Groups and their members change by the statements on them that succeed. -/
theorem groups_perform_cases :
    (s.perform n choice op).2.db.groups = s.db.groups ∧
        (s.perform n choice op).2.db.groupMembers = s.db.groupMembers ∨
    (∃ id t u, op = .insertGroupMember id t u ∧
      s.db.insertGroupMember id t u choice.dbTime = some (s.perform n choice op).2.db) ∨
    (∃ id u, op = .deleteGroupMember id u ∧
      s.db.deleteGroupMember id u = some (s.perform n choice op).2.db) ∨
    ∃ id t g u id', op = .upsertGroup id t g u ∧ choice.ok = true ∧
      s.db.upsertGroup id t g u choice.dbTime = some (id', (s.perform n choice op).2.db) := by
  cases op with
  | insertGroupMember id t u =>
      simp only [perform]
      split
      · rename_i db inserted
        split at inserted
        · exact .inr (.inl ⟨id, t, u, rfl, inserted⟩)
        · simp at inserted
      · exact .inl ⟨rfl, rfl⟩
  | deleteGroupMember id u =>
      simp only [perform]
      split
      · rename_i db deleted
        split at deleted
        · exact .inr (.inr (.inl ⟨id, u, rfl, deleted⟩))
        · simp at deleted
      · exact .inl ⟨rfl, rfl⟩
  | upsertGroup id t g u =>
      simp only [perform]
      split
      · rename_i id' db upserted
        split at upserted
        · rename_i ok
          exact .inr (.inr (.inr ⟨id, t, g, u, id', rfl, ok, upserted⟩))
        · simp at upserted
      · exact .inl ⟨rfl, rfl⟩
  | publish channel msg => simp only [perform]; split <;> exact .inl ⟨rfl, rfl⟩
  | produce topic key payload => simp only [perform]; split <;> exact .inl ⟨rfl, rfl⟩
  | insertMessages rows => simp only [perform]; split <;> exact .inl ⟨rfl, rfl⟩
  | _ => exact .inl ⟨rfl, rfl⟩

/-- Every operation keeps the constraints of the tables. -/
theorem schema_perform {s : Cluster N} (schema : s.db.Schema) :
    (s.perform n choice op).2.db.Schema := by
  rcases groups_perform_cases s n choice op with ⟨groups, members⟩ | ⟨_, _, _, _, inserted⟩ |
    ⟨_, _, _, deleted⟩ | ⟨_, _, _, _, _, _, _, upserted⟩
  · exact schema.congr groups members
  · exact schema.insertGroupMember inserted
  · exact schema.deleteGroupMember deleted
  · exact schema.upsertGroup upserted

/-- A message that a publish puts into one stream is in all of them. -/
theorem mem_streams_perform {m : N} {msg : ServerMessage}
    (mem : msg ∈ (s.perform n choice op).2.streams m) :
    msg ∈ s.streams m ∨ ∃ channel, op = .publish channel msg ∧
      ∀ k, msg ∈ (s.perform n choice op).2.streams k := by
  rw [streams_perform] at mem
  cases op with
  | publish channel sent =>
      simp only at mem
      by_cases ok : choice.ok = true
      · rw [if_pos ok] at mem
        rcases List.mem_append.mp mem with old | new
        · exact .inl old
        · obtain rfl := List.eq_of_mem_replicate new
          refine .inr ⟨channel, rfl, fun k => ?_⟩
          rw [streams_perform]
          simp only [if_pos ok]
          exact List.mem_append_right _ new
      · rw [if_neg ok] at mem
        exact .inl mem
  | _ => exact .inl mem

/-- Nothing leaves a stream by an operation. -/
theorem mem_streams_perform_of_mem {m : N} {msg : ServerMessage} (mem : msg ∈ s.streams m) :
    msg ∈ (s.perform n choice op).2.streams m := by
  rw [streams_perform]
  cases op with
  | publish channel sent =>
      simp only
      split
      · exact List.mem_append_left _ mem
      · exact mem
  | _ => exact mem

/-- The node that the operation runs on is the only one it changes. -/
theorem nodes_perform_of_ne {m : N} (other : m ≠ n) :
    (s.perform n choice op).2.nodes m = s.nodes m := by
  cases op <;> simp only [perform] <;> (try split) <;>
    simp [published, setRegistry, setNode, Function.update_of_ne other]

/-- The node after an operation. -/
theorem nodes_perform : (s.perform n choice op).2.nodes n =
    match op with
    | .joinGroup t g u => { s.nodes n with registry := (s.nodes n).registry.joinGroup t g u }
    | .leaveGroup t g u => { s.nodes n with registry := (s.nodes n).registry.leaveGroup t g u }
    | .createGroup t g => { s.nodes n with registry := (s.nodes n).registry.createGroup t g }
    | .deleteGroup t g => { s.nodes n with registry := (s.nodes n).registry.deleteGroup t g }
    | .sendMsgToUser t u msg => (s.nodes n).sendMsgToUser t u msg
    | _ => s.nodes n := by
  cases op <;> simp only [perform] <;> (try split) <;>
    simp [published, setRegistry, setNode]

theorem member_perform (m : N) (t g u : String) : (s.perform n choice op).2.member m t g u =
    if m = n then memberAfter t g u (s.member m t g u) op else s.member m t g u := by
  unfold member
  by_cases here : m = n
  · subst here
    rw [if_pos rfl, nodes_perform]
    cases op with
    | joinGroup t' g' u' => exact ConnectionRegistry.isUserInGroup_joinGroup _ t' g' u' t g u
    | leaveGroup t' g' u' => exact ConnectionRegistry.isUserInGroup_leaveGroup _ t' g' u' t g u
    | createGroup t' g' => exact ConnectionRegistry.isUserInGroup_createGroup _ t' g' t g u
    | deleteGroup t' g' => exact ConnectionRegistry.isUserInGroup_deleteGroup _ t' g' t g u
    | sendMsgToUser t' u' msg =>
        simp only [memberAfter]
        rw [ConnectionRegistry.isUserInGroup_eq, Node.groups_sendMsgToUser,
          ← ConnectionRegistry.isUserInGroup_eq]
    | _ => rfl
  · rw [if_neg here, nodes_perform_of_ne s n choice op here]

/-- An operation registers nobody. -/
theorem sender?_of_perform {m : N} {t u : String} {id : ConnectionId} {sender : SocketSender}
    (found : ((s.perform n choice op).2.nodes m).registry.sender? t u id = some sender) :
    (s.nodes m).registry.sender? t u id = some sender := by
  by_cases here : m = n
  · subst here
    rw [nodes_perform] at found
    cases op with
    | sendMsgToUser t' u' msg => exact (s.nodes m).sender?_of_sendMsgToUser t' u' msg found
    | _ => exact found
  · rwa [nodes_perform_of_ne s n choice op here] at found

/-- An operation queues only what it sends to the client itself. -/
theorem queue_perform (m : N) (k : ConnectionId) :
    ((s.perform n choice op).2.nodes m).channels k = (s.nodes m).channels k ∨
    ∃ t u msg i, op = .sendMsgToUser t u msg ∧
      (((s.perform n choice op).2.nodes m).channels k).queue =
        ((s.nodes m).channels k).queue ++ List.replicate i msg := by
  by_cases here : m = n
  · subst here
    rw [nodes_perform]
    cases op with
    | sendMsgToUser t u msg =>
        obtain ⟨i, queue⟩ := (s.nodes m).queue_sendMsgToUser t u msg k
        exact .inr ⟨t, u, msg, i, rfl, queue⟩
    | _ => exact .inl rfl
  · exact .inl (by rw [nodes_perform_of_ne s n choice op here])

end Perform

/-! ### Connections, registrations and streams after an event -/

/-- An event performs an operation. -/
def Performs (s : Cluster N) (e : Event N) (op : Effect) : Prop :=
  ∃ id choice socket next, e = .perform id choice ∧ s.sockets id = some socket ∧
    socket.task = .call op next

/-- What an event makes of a connection: a frame starts a handler, the handler performs an
operation or is aborted, or the handler is as it was. -/
def Moved (state : AppState) (s : Cluster N) (e : Event N) (id : ConnectionId)
    (socket socket' : Socket N) : Prop :=
  (∃ text, e = .frame id text ∧ socket.task = .ret () ∧ socket'.handling = some text ∧
    socket'.task = Handler.handleTextMessage text socket.identity state) ∨
  socket'.handling = socket.handling ∧
    ((∃ choice op next, e = .perform id choice ∧ socket.task = .call op next ∧
        socket'.task = next (s.perform socket.node choice op).1) ∨
      e = .abort id ∧ socket'.task = .ret () ∨ socket'.task = socket.task)

section Stepped

variable {state : AppState} {s s' : Cluster N} {e : Event N} (h : Stepped state s e s')

include h

/-- A connection stays on its node and with its identity. -/
theorem Stepped.moved {id : ConnectionId} {socket : Socket N}
    (found : s.sockets id = some socket) :
    ∃ socket', s'.sockets id = some socket' ∧ socket'.node = socket.node ∧
      socket'.identity = socket.identity ∧ Moved state s e id socket socket' := by
  have same : s'.sockets id = s.sockets id →
      ∃ socket', s'.sockets id = some socket' ∧ socket'.node = socket.node ∧
        socket'.identity = socket.identity ∧ Moved state s e id socket socket' :=
    fun same => ⟨socket, same.trans found, rfl, rfl, .inr ⟨rfl, .inr (.inr rfl)⟩⟩
  cases h with
  | @connect id' n identity fresh =>
      by_cases here : id = id'
      · rw [here, fresh] at found
        simp at found
      · exact same (Function.update_of_ne here _ _)
  | @frame id' n identity handling value text idle =>
      by_cases here : id = id'
      · subst here
        obtain rfl := Option.some.inj (found.symm.trans idle)
        exact ⟨_, Function.update_self id _ _, rfl, rfl, .inl ⟨text, rfl, rfl, rfl, rfl⟩⟩
      · exact same (Function.update_of_ne here _ _)
  | @perform id' n identity alive handling op next choice busy =>
      by_cases here : id = id'
      · subst here
        obtain rfl := Option.some.inj (found.symm.trans busy)
        exact ⟨_, Function.update_self id _ _, rfl, rfl,
          .inr ⟨rfl, .inl ⟨choice, op, next, rfl, rfl, rfl⟩⟩⟩
      · exact same ((Function.update_of_ne here _ _).trans
          (congrFun (sockets_perform s n choice op) id))
  | @disconnect id' n identity handling task live =>
      by_cases here : id = id'
      · subst here
        obtain rfl := Option.some.inj (found.symm.trans live)
        exact ⟨_, Function.update_self id _ _, rfl, rfl, .inr ⟨rfl, .inr (.inr rfl)⟩⟩
      · exact same (Function.update_of_ne here _ _)
  | @abort id' n identity handling task gone =>
      by_cases here : id = id'
      · subst here
        obtain rfl := Option.some.inj (found.symm.trans gone)
        exact ⟨_, Function.update_self id _ _, rfl, rfl, .inr ⟨rfl, .inr (.inl ⟨rfl, rfl⟩)⟩⟩
      · exact same (Function.update_of_ne here _ _)
  | ping _ => exact same rfl
  | drain _ => exact same rfl
  | hangUp _ _ => exact same rfl
  | deliver _ => exact same rfl

/-- A connection that was not there was opened by the event. -/
theorem Stepped.opened {id : ConnectionId} {socket' : Socket N} (absent : s.sockets id = none)
    (found : s'.sockets id = some socket') :
    e = .connect id socket'.node socket'.identity ∧ socket'.handling = none ∧
      socket'.task = joinGeneral socket'.identity := by
  have other : ∀ {sockets : ConnectionId → Option (Socket N)} {id' : ConnectionId}
      {old new : Socket N}, sockets = s.sockets → s.sockets id' = some old →
      Function.update sockets id' (some new) id ≠ some socket' := by
    rintro sockets id' old new rfl there found
    by_cases here : id = id'
    · rw [here, there] at absent
      simp at absent
    · rw [Function.update_of_ne here, absent] at found
      simp at found
  cases h with
  | @connect id' n identity fresh =>
      by_cases here : id = id'
      · subst here
        obtain rfl := Option.some.inj ((Function.update_self id _ _).symm.trans found)
        exact ⟨rfl, rfl, rfl⟩
      · have old := (Function.update_of_ne here _ _).symm.trans found
        exact absurd (absent.symm.trans old) (by simp)
  | frame text idle => exact absurd found (other rfl idle)
  | perform choice busy => exact absurd found (other (sockets_perform _ _ _ _) busy)
  | disconnect live => exact absurd found (other rfl live)
  | abort gone => exact absurd found (other rfl gone)
  | ping _ => exact absurd (absent.symm.trans found) (by simp)
  | drain _ => exact absurd (absent.symm.trans found) (by simp)
  | hangUp _ _ => exact absurd (absent.symm.trans found) (by simp)
  | deliver _ => exact absurd (absent.symm.trans found) (by simp)

/-- A connection is new, or it was there with the same owner. -/
theorem Stepped.socket {id : ConnectionId} {socket' : Socket N}
    (found : s'.sockets id = some socket') :
    (e = .connect id socket'.node socket'.identity ∧ socket'.handling = none ∧
      socket'.task = joinGeneral socket'.identity) ∨
    ∃ socket, s.sockets id = some socket ∧ socket'.node = socket.node ∧
      socket'.identity = socket.identity ∧ Moved state s e id socket socket' := by
  cases before : s.sockets id with
  | none => exact .inl (h.opened before found)
  | some socket =>
      obtain ⟨socket'', there, moved⟩ := h.moved before
      obtain rfl := Option.some.inj (there.symm.trans found)
      exact .inr ⟨socket, rfl, moved⟩

/-- What the tasks that an event starts have, and what operations keep, every task has. -/
theorem Stepped.tasks (P : Option TextFrame → Handler Unit → Prop)
    (ret : ∀ handling, P handling (.ret ()))
    (next : ∀ handling op next answer, P handling (.call op next) → P handling (next answer))
    (general : ∀ identity, P none (joinGeneral identity))
    (frame : ∀ id text socket, e = .frame id text → s.sockets id = some socket →
      P (some text) (Handler.handleTextMessage text socket.identity state))
    (before : ∀ id socket, s.sockets id = some socket → P socket.handling socket.task)
    {id : ConnectionId} {socket : Socket N} (found : s'.sockets id = some socket) :
    P socket.handling socket.task := by
  rcases h.socket found with ⟨_, none, new⟩ | ⟨old, here, _, _, moved⟩
  · rw [none, new]
    exact general _
  · rcases moved with ⟨text, started, _, handling, handler⟩ | ⟨handling, moved⟩
    · rw [handling, handler]
      exact frame id text old started here
    · have had := before id old here
      rw [handling]
      rcases moved with ⟨choice, op, rest, _, was, now⟩ | ⟨_, ended⟩ | same
      · rw [was] at had
        rw [now]
        exact next _ op rest _ had
      · rw [ended]
        exact ret _
      · rwa [same]

/-- A registration is new, or it was there. -/
theorem Stepped.sender? {n : N} {t u : String} {id : ConnectionId} {sender : SocketSender}
    (found : (s'.nodes n).registry.sender? t u id = some sender) :
    (s.nodes n).registry.sender? t u id = some sender ∨
      e = .connect id n ⟨t, u⟩ ∧ sender = ⟨id⟩ := by
  -- Where one node is replaced by one that registers nobody.
  have kept : ∀ {n' : N} {node : Node}, s'.nodes = (s.setNode n' node).nodes →
      (node.registry.sender? t u id = some sender →
        (s.nodes n').registry.sender? t u id = some sender) →
      (s.nodes n).registry.sender? t u id = some sender := by
    intro n' node nodes own
    rw [nodes] at found
    by_cases here : n = n'
    · subst here
      rw [nodes_setNode] at found
      exact own found
    · rwa [nodes_setNode_of_ne s here] at found
  cases h with
  | @connect id' n' identity fresh =>
      by_cases here : n = n'
      · subst here
        simp only [connected, setSocket, setNode, Function.update_self,
          ConnectionRegistry.sender?_insert] at found
        split at found
        · rename_i own
          obtain ⟨rfl, rfl, rfl⟩ := own
          exact .inr ⟨rfl, (Option.some.inj found).symm⟩
        · exact .inl found
      · simp only [connected, setSocket, setNode, Function.update_of_ne here] at found
        exact .inl found
  | frame text idle => exact .inl found
  | perform choice busy => exact .inl (sender?_of_perform _ _ _ _ found)
  | ping idle => exact .inl (kept rfl (Node.sender?_of_sendMsgToUser _ _ _ _))
  | disconnect live =>
      refine .inl (kept rfl fun own => ?_)
      rw [ConnectionRegistry.sender?_remove] at own
      split at own
      · simp at own
      · exact own
  | abort gone => exact .inl found
  | drain waiting => exact .inl (kept rfl fun own => own)
  | hangUp n' id' => exact .inl (kept rfl fun own => own)
  | deliver first => exact .inl (kept rfl (sender?_of_handleMessage _ _))

/-- A message in a stream was there, or a task just published it. -/
theorem Stepped.mem_streams {n : N} {msg : ServerMessage} (mem : msg ∈ s'.streams n) :
    msg ∈ s.streams n ∨ ∃ id socket channel next, s.sockets id = some socket ∧
      socket.task = .call (.publish channel msg) next ∧ ∀ k, msg ∈ s'.streams k := by
  cases h with
  | @perform id' n' identity alive handling op next choice busy =>
      rcases mem_streams_perform s n' choice op mem with old | ⟨channel, rfl, everywhere⟩
      · exact .inl old
      · exact .inr ⟨id', _, channel, next, busy, rfl, everywhere⟩
  | @deliver n' first rest streams =>
      simp only [delivered] at mem
      by_cases here : n = n'
      · subst here
        rw [Function.update_self] at mem
        exact .inl (streams ▸ List.mem_cons_of_mem first mem)
      · rw [Function.update_of_ne here] at mem
        exact .inl mem
  | connect identity fresh => exact .inl mem
  | frame text idle => exact .inl mem
  | ping idle => exact .inl mem
  | disconnect live => exact .inl mem
  | abort gone => exact .inl mem
  | drain waiting => exact .inl mem
  | hangUp n' id' => exact .inl mem

/-- Nothing leaves a stream but what its listener handles. -/
theorem Stepped.mem_streams_of_mem {n : N} {msg : ServerMessage} (mem : msg ∈ s.streams n) :
    msg ∈ s'.streams n ∨ e = .deliver n ∧ ∃ rest, s.streams n = msg :: rest := by
  cases h with
  | @perform id' n' identity alive handling op next choice busy =>
      exact .inl (mem_streams_perform_of_mem s n' choice op mem)
  | @deliver n' first rest streams =>
      by_cases here : n = n'
      · subst here
        rw [streams] at mem
        rcases List.mem_cons.mp mem with rfl | later
        · exact .inr ⟨rfl, rest, streams⟩
        · refine .inl ?_
          simp only [delivered, Function.update_self]
          exact later
      · refine .inl ?_
        simp only [delivered, Function.update_of_ne here]
        exact mem
  | connect identity fresh => exact .inl mem
  | frame text idle => exact .inl mem
  | ping idle => exact .inl mem
  | disconnect live => exact .inl mem
  | abort gone => exact .inl mem
  | drain waiting => exact .inl mem
  | hangUp n' id' => exact .inl mem

/-- The state after a handler's operation. -/
theorem Stepped.performed {id : ConnectionId} {choice : Choice} {socket : Socket N} {op : Effect}
    {next : op.Answer → Handler Unit} (performs : e = .perform id choice)
    (found : s.sockets id = some socket) (task : socket.task = .call op next) :
    s' = s.performed id socket.node socket.identity socket.alive socket.handling choice op next := by
  subst performs
  cases h with
  | perform choice busy =>
      obtain rfl := Option.some.inj (found.symm.trans busy)
      injection task with same rest
      subst same
      rw [eq_of_heq rest]

/-- The tables change by the operations of handlers. -/
theorem Stepped.db : s'.db = s.db ∨ ∃ id choice socket op next, e = .perform id choice ∧
    s.sockets id = some socket ∧ socket.task = .call op next ∧
    s'.db = (s.perform socket.node choice op).2.db := by
  cases h with
  | @perform id n identity alive handling op next choice busy =>
      exact .inr ⟨id, choice, _, op, next, rfl, busy, rfl, rfl⟩
  | _ => exact .inl rfl

theorem Stepped.schema (schema : s.db.Schema) : s'.db.Schema := by
  rcases h.db with same | ⟨_, choice, socket, op, _, _, _, _, after⟩
  · exact same ▸ schema
  · exact after ▸ schema_perform socket.node choice op schema

/-- Groups change by the `CREATE`s whose statement succeeds. -/
theorem Stepped.groups : s'.db.groups = s.db.groups ∨
    ∃ id choice socket c t g u next c', e = .perform id choice ∧ s.sockets id = some socket ∧
      socket.task = .call (.upsertGroup c t g u) next ∧ choice.ok = true ∧
      s.db.upsertGroup c t g u choice.dbTime = some (c', s'.db) := by
  rcases h.db with same | ⟨id, choice, socket, op, next, performs, found, task, after⟩
  · exact .inl (congrArg (·.groups) same)
  · rw [after]
    rcases groups_perform_cases s socket.node choice op with ⟨groups, _⟩ | ⟨_, _, _, _, inserted⟩ |
      ⟨_, _, _, deleted⟩ | ⟨c, t, g, u, c', rfl, ok, upserted⟩
    · exact .inl groups
    · exact .inl (Database.groups_insertGroupMember inserted)
    · exact .inl (Database.groups_deleteGroupMember deleted)
    · exact .inr ⟨id, choice, socket, c, t, g, u, next, c', performs, found, task, ok, upserted⟩

/-- A publish that succeeds puts its message into every stream. -/
theorem Stepped.published {id : ConnectionId} {choice : Choice} {socket : Socket N}
    {channel : String} {msg : ServerMessage} {next : Bool → Handler Unit}
    (performs : e = .perform id choice) (found : s.sockets id = some socket)
    (task : socket.task = .call (.publish channel msg) next) (ok : choice.ok = true)
    (once : copies channel = 1) (n : N) : msg ∈ s'.streams n := by
  rw [h.performed performs found task]
  change msg ∈ (s.perform _ choice (.publish channel msg)).2.streams n
  rw [streams_perform]
  simp [ok, once]

/-- Members change by the operations of handlers and by the joins that listeners handle. -/
theorem Stepped.member (t g u : String) :
    (∀ n, s'.member n t g u = s.member n t g u) ∨
    (∃ id choice socket op next, e = .perform id choice ∧ s.sockets id = some socket ∧
      socket.task = .call op next ∧ ∀ n, s'.member n t g u =
        if n = socket.node then memberAfter t g u (s.member n t g u) op
        else s.member n t g u) ∨
    ∃ k msg rest, e = .deliver k ∧ s.streams k = msg :: rest ∧ msg.Announces t g u ∧
      ∀ n, s'.member n t g u = (decide (n = k) || s.member n t g u) := by
  have registry : ∀ {n' : N} {node : Node} {s' : Cluster N}, s'.nodes = (s.setNode n' node).nodes →
      node.registry.groups = (s.nodes n').registry.groups →
      ∀ n, s'.member n t g u = s.member n t g u := by
    intro n' node s' nodes groups n
    refine member_congr ?_ t g u
    rw [nodes]
    by_cases here : n = n'
    · subst here
      rw [nodes_setNode, groups]
    · rw [nodes_setNode_of_ne s here]
  cases h with
  | connect identity fresh => exact .inl (registry rfl rfl)
  | frame text idle => exact .inl fun _ => rfl
  | @perform id n' identity alive handling op next choice busy =>
      exact .inr (.inl ⟨id, choice, _, op, next, rfl, busy, rfl, fun n =>
        member_perform s n' choice op n t g u⟩)
  | ping idle => exact .inl (registry rfl (Node.groups_sendMsgToUser _ _ _ _))
  | disconnect live => exact .inl (registry rfl (ConnectionRegistry.groups_remove _ _ _))
  | abort gone => exact .inl fun _ => rfl
  | drain waiting => exact .inl (registry rfl rfl)
  | hangUp n' id => exact .inl (registry rfl rfl)
  | @deliver k msg rest first =>
      by_cases announces : msg.Announces t g u
      · refine .inr (.inr ⟨k, msg, rest, rfl, first, announces, fun n => ?_⟩)
        obtain ⟨join, rfl, rfl, rfl⟩ := announces
        by_cases here : n = k
        · subst here
          rw [member_delivered s join rest, decide_eq_true ⟨rfl, rfl, rfl⟩, decide_eq_true rfl]
        · rw [decide_eq_false here, Bool.false_or]
          exact member_congr (congrArg (·.registry.groups) (nodes_setNode_of_ne s here _)) _ _ _
      · refine .inl fun n => ?_
        by_cases join : msg.msgType = "group_join"
        · by_cases here : n = k
          · subst here
            rw [member_delivered s join rest, decide_eq_false, Bool.false_or]
            rintro ⟨rfl, rfl, rfl⟩
            exact announces ⟨join, rfl, rfl, rfl⟩
          · exact member_congr (congrArg (·.registry.groups) (nodes_setNode_of_ne s here _)) _ _ _
        · have groups := groups_handleMessage (s.nodes k) msg
          rw [if_neg join] at groups
          exact registry rfl groups n

/-- The members after a handler's operation. -/
theorem Stepped.member_performed {id : ConnectionId} {choice : Choice} {socket : Socket N}
    {op : Effect} {next : op.Answer → Handler Unit} (performs : e = .perform id choice)
    (found : s.sockets id = some socket) (task : socket.task = .call op next) (n : N)
    (t g u : String) : s'.member n t g u =
      if n = socket.node then memberAfter t g u (s.member n t g u) op else s.member n t g u := by
  rw [h.performed performs found task]
  exact member_perform s socket.node choice op n t g u

/-- A user gets in by a join only: one that a handler performs or one that the listener
handles. -/
theorem Stepped.stays_out {n : N} {t g u : String} (absent : s.member n t g u = false)
    (noJoin : ¬ s.Performs e (.joinGroup t g u))
    (silent : ∀ msg ∈ s.streams n, ¬ msg.Announces t g u) : s'.member n t g u = false := by
  rcases h.member t g u with same | ⟨id, choice, socket, op, next, performs, found, task, after⟩ |
    ⟨k, msg, rest, _, first, announces, after⟩
  · rw [same, absent]
  · rw [after, absent]
    rcases memberAfter_cases t g u op with rfl | rfl | rfl | same
    · exact absurd ⟨id, choice, socket, next, performs, found, task⟩ noJoin
    · simp [memberAfter]
    · simp [memberAfter]
    · rw [same, ite_self]
  · rw [after, absent, Bool.or_false, decide_eq_false]
    rintro rfl
    exact silent msg (first ▸ List.mem_cons_self) announces

/-- A user gets out by an operation of a handler only. -/
theorem Stepped.stays_in {n : N} {t g u : String} (here : s.member n t g u = true)
    (noLeave : ¬ s.Performs e (.leaveGroup t g u)) (noDelete : ¬ s.Performs e (.deleteGroup t g)) :
    s'.member n t g u = true := by
  rcases h.member t g u with same | ⟨id, choice, socket, op, next, performs, found, task, after⟩ |
    ⟨k, msg, rest, _, _, _, after⟩
  · rw [same, here]
  · rw [after, here]
    rcases memberAfter_cases t g u op with rfl | rfl | rfl | same
    · simp [memberAfter]
    · exact absurd ⟨id, choice, socket, next, performs, found, task⟩ noLeave
    · exact absurd ⟨id, choice, socket, next, performs, found, task⟩ noDelete
    · rw [same, ite_self]
  · rw [after, here, Bool.or_true]

end Stepped

end Cluster

end YappaCore
