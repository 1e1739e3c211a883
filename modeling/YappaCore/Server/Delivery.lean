import YappaCore.Server.Cluster

/-!
Who receives what over any run of any number of nodes: every queued message was built
from a frame of its sender, stays in the sender's tenant, and reaches the addressee of a
direct message or a member of the group only.

`Authentic` is the invariant: it names the frame behind every message, whether a task has
yet to publish it or a stream carries it, and the owner of every registration.
`Authentic.step` keeps it over each event, `enqueued_delivery` says that only a listener
queues messages, and `live_delivery` puts the two together.
-/

namespace YappaCore

open Lib Handler

namespace Cluster

variable {N : Type} {state : AppState}

/-! ### Where a message comes from -/

/-- A frame that the message was built from came in on a connection that its sender
opened. -/
def Origin (state : AppState) (es : List (Event N)) (m : ServerMessage) : Prop :=
  ∃ id node text, .connect id node ⟨m.tenantId, m.senderId⟩ ∈ es ∧ .frame id text ∈ es ∧
    ∃ channel, (handleTextMessage text ⟨m.tenantId, m.senderId⟩ state).May
      (· = .publish channel m)

theorem Origin.mono {es : List (Event N)} {m : ServerMessage} (origin : Origin state es m)
    (e : Event N) : Origin state (es ++ [e]) m := by
  obtain ⟨id, node, text, opened, received, built⟩ := origin
  exact ⟨id, node, text, List.mem_append_left _ opened, List.mem_append_left _ received, built⟩

/-- A join is announced as a group message. -/
theorem Origin.join {es : List (Event N)} {m : ServerMessage} (origin : Origin state es m)
    (join : m.msgType = "group_join") : m.channelType = .group := by
  obtain ⟨_, _, _, _, _, _, built⟩ := origin
  obtain ⟨_, _, joins⟩ := publish_of_frame built
  exact (joins join).1

/-- An operation publishes only messages with an origin, and sends its client no
message. -/
def Genuine (state : AppState) (es : List (Event N)) : Effect → Prop
  | .publish _ m => Origin state es m
  | .sendMsgToUser _ _ msg => ∀ m, msg ≠ .json m
  | _ => True

theorem Genuine.mono {es : List (Event N)} {op : Effect} (genuine : Genuine state es op)
    (e : Event N) : Genuine state (es ++ [e]) op := by
  cases op with
  | publish channel m => exact Origin.mono genuine e
  | sendMsgToUser t u msg => exact genuine
  | _ => trivial

/-- The handler of a frame is genuine. -/
theorem genuine_handleTextMessage {es : List (Event N)} {id : ConnectionId} {node : N}
    {identity : Identity} {text : TextFrame} (opened : .connect id node identity ∈ es)
    (received : .frame id text ∈ es) :
    (handleTextMessage text identity state).Always (Genuine state es) := by
  refine Prog.always_of_may fun op may => ?_
  obtain ⟨op, own, rfl⟩ := (ofFrame_handleTextMessage text identity state).of_may may
  cases op with
  | publish channel m =>
      obtain ⟨_, tenant, sender, _⟩ := own
      have identity_eq : identity = ⟨m.tenantId, m.senderId⟩ := by rw [tenant, sender]
      rw [identity_eq] at opened may
      exact ⟨id, node, text, opened, received, channel, may⟩
  | sendMsgToUser t u msg =>
      obtain ⟨_, _, words, rfl⟩ := own
      exact fun m same => (nomatch same)
  | _ => trivial

/-! ### The invariant -/

/-- After the events `es`: every connection was opened by its owner, every registration
belongs to the owner of its connection, and every message that is about to be published
or in a stream has an origin. -/
structure Authentic (state : AppState) (es : List (Event N)) (s : Cluster N) : Prop where
  owners : ∀ id socket, s.sockets id = some socket →
    .connect id socket.node socket.identity ∈ es
  registered : ∀ n t u id sender, (s.nodes n).registry.sender? t u id = some sender →
    sender = ⟨id⟩ ∧ ∃ socket, s.sockets id = some socket ∧ socket.identity = ⟨t, u⟩
  tasks : ∀ id socket, s.sockets id = some socket → socket.task.Always (Genuine state es)
  streams : ∀ n m, m ∈ s.streams n → Origin state es m

theorem Authentic.init (db : Database) : Authentic state [] (start db : Cluster N) where
  owners := fun _ _ found => nomatch found
  registered := by
    intro n t u id sender found
    simp [start, ConnectionRegistry.new, ConnectionRegistry.sender?] at found
  tasks := fun _ _ found => nomatch found
  streams := fun _ _ mem => nomatch mem

variable [DecidableEq N]

theorem Authentic.step {es : List (Event N)} {s s' : Cluster N} {e : Event N}
    (inv : Authentic state es s) (next : (machine N state).step s e = some s') :
    Authentic state (es ++ [e]) s' := by
  have h := stepped next
  have now : e ∈ es ++ [e] := List.mem_append_right es List.mem_cons_self
  refine ⟨?_, ?_, ?_, ?_⟩
  · intro id socket' found
    rcases h.socket found with ⟨rfl, _⟩ | ⟨socket, here, node, identity, _⟩
    · exact now
    · rw [node, identity]
      exact List.mem_append_left _ (inv.owners id socket here)
  · intro n t u id sender found
    rcases h.sender? found with before | ⟨rfl, rfl⟩
    · obtain ⟨same, socket, here, identity⟩ := inv.registered n t u id sender before
      obtain ⟨socket', there, _, kept, _⟩ := h.moved here
      exact ⟨same, socket', there, kept.trans identity⟩
    · cases h with
      | connect identity fresh => exact ⟨rfl, _, Function.update_self _ _ _, rfl⟩
  · intro id socket found
    refine h.tasks (fun _ task => task.Always (Genuine state (es ++ [e])))
      (fun _ => trivial) (fun _ op rest answer always => always.2 answer) ?_ ?_ ?_ found
    · exact fun identity => ⟨trivial, fun _ => trivial⟩
    · rintro id' text opener rfl here
      exact genuine_handleTextMessage
        (List.mem_append_left _ (inv.owners id' opener here)) now
    · intro id' socket' here
      exact (inv.tasks id' socket' here).mono fun op genuine => genuine.mono e
  · intro n m mem
    rcases h.mem_streams mem with old | ⟨id, socket, channel, rest, here, task, _⟩
    · exact (inv.streams n m old).mono e
    · have genuine := inv.tasks id socket here
      rw [task] at genuine
      exact Origin.mono genuine.1 e

/-- The invariant holds after every run. -/
theorem authentic (state : AppState) (db : Database) {es : List (Event N)} {s : Cluster N}
    (ran : (machine N state).run (start db) es = some s) : Authentic state es s :=
  Machine.invariant (Authentic.init db) (fun _ _ _ _ inv next => inv.step next) ran

omit [DecidableEq N] in
/-- No two connections of a node share a channel. -/
theorem Authentic.separate {es : List (Event N)} {s : Cluster N} (inv : Authentic state es s)
    (n : N) : (s.nodes n).Separate := by
  intro t u id sender t' u' id' sender' found found' same
  obtain ⟨rfl, socket, here, identity⟩ := inv.registered n t u id sender found
  obtain ⟨rfl, socket', here', identity'⟩ := inv.registered n t' u' id' sender' found'
  obtain rfl : id = id' := same
  obtain rfl := Option.some.inj (here.symm.trans here')
  have owner := identity.symm.trans identity'
  injection owner with tenant user
  exact ⟨tenant, user, rfl⟩

/-! ### What queues a message -/

/-- A message was put into a channel. -/
def Enqueued (m : ServerMessage) (before after : Channel) : Prop :=
  before.queue.count (.json m) < after.queue.count (.json m)

theorem not_enqueued_self (m : ServerMessage) (channel : Channel) :
    ¬ Enqueued m channel channel := Nat.lt_irrefl _

/-- Copies of something else are not the message. -/
theorem enqueued_replicate {m : ServerMessage} {before after : Channel} {msg : Message} {i : ℕ}
    (queue : after.queue = before.queue ++ List.replicate i msg)
    (enqueued : Enqueued m before after) : msg = .json m := by
  unfold Enqueued at enqueued
  rw [queue, List.count_append, List.count_replicate] at enqueued
  by_contra other
  rw [if_neg (by simpa using other)] at enqueued
  exact absurd enqueued (Nat.lt_irrefl _)

/-- Where one channel is replaced, the message was put into that one. -/
theorem enqueued_update {m : ServerMessage} {channels : Channels} {k id : ConnectionId}
    {channel : Channel}
    (enqueued : Enqueued m (channels k) (Function.update channels id channel k)) :
    k = id ∧ Enqueued m (channels id) channel := by
  by_cases own : k = id
  · subst own
    rw [Function.update_self] at enqueued
    exact ⟨rfl, enqueued⟩
  · rw [Function.update_of_ne own] at enqueued
    exact absurd enqueued (not_enqueued_self m _)

/-- Tasks send their clients no messages, so only a listener queues one: the first of its
stream. -/
theorem enqueued_delivery {es : List (Event N)} {s s' : Cluster N} {e : Event N}
    (inv : Authentic state es s) (h : Stepped state s e s') {n : N} {k : ConnectionId}
    {m : ServerMessage} (enqueued : Enqueued m ((s.nodes n).channels k) ((s'.nodes n).channels k)) :
    ∃ rest, e = .deliver n ∧ s.streams n = m :: rest ∧ s' = s.delivered n m rest := by
  have unchanged : (s'.nodes n).channels k ≠ (s.nodes n).channels k := by
    intro same
    rw [same] at enqueued
    exact not_enqueued_self m _ enqueued
  -- Where one node is replaced, the channel is one of that node.
  have replaced : ∀ {n' : N} {node : Node}, s'.nodes = (s.setNode n' node).nodes →
      n = n' ∧ Enqueued m ((s.nodes n').channels k) (node.channels k) := by
    intro n' node nodes
    rw [nodes] at enqueued
    by_cases here : n = n'
    · subst here
      rw [nodes_setNode] at enqueued
      exact ⟨rfl, enqueued⟩
    · rw [nodes_setNode_of_ne s here] at enqueued
      exact absurd enqueued (not_enqueued_self m _)
  cases h with
  | @connect id n' identity fresh =>
      obtain ⟨rfl, enqueued⟩ := replaced rfl
      obtain ⟨rfl, enqueued⟩ := enqueued_update enqueued
      simp [Enqueued, Channel.new] at enqueued
  | frame text idle => exact absurd rfl unchanged
  | @perform id n' identity alive handling op next choice busy =>
      rcases s.queue_perform n' choice op n k with same | ⟨t, u, msg, i, rfl, queue⟩
      · exact absurd same unchanged
      · have genuine := (inv.tasks id _ busy).1
        exact absurd (enqueued_replicate queue enqueued) (genuine m)
  | @ping id n' identity handling value idle =>
      obtain ⟨rfl, enqueued⟩ := replaced rfl
      obtain ⟨i, queue⟩ := (s.nodes n).queue_sendMsgToUser identity.tenantId identity.userId .ping k
      exact absurd (enqueued_replicate queue enqueued) (by simp)
  | disconnect live =>
      obtain ⟨rfl, enqueued⟩ := replaced rfl
      exact absurd enqueued (not_enqueued_self m _)
  | abort gone => exact absurd rfl unchanged
  | @drain n' id msg channel waiting =>
      obtain ⟨rfl, enqueued⟩ := replaced rfl
      obtain ⟨rfl, enqueued⟩ := enqueued_update enqueued
      have queue := Channel.queue_recv waiting
      simp only [Enqueued, queue, List.count_cons] at enqueued
      omega
  | hangUp n' id =>
      obtain ⟨rfl, enqueued⟩ := replaced rfl
      obtain ⟨rfl, enqueued⟩ := enqueued_update enqueued
      exact absurd enqueued (Nat.lt_irrefl _)
  | @deliver n' msg rest first =>
      obtain ⟨rfl, enqueued⟩ := replaced rfl
      obtain ⟨i, queue⟩ := queue_handleMessage (s.nodes n) msg k
      obtain rfl := Message.json.inj (enqueued_replicate queue enqueued)
      exact ⟨rest, rfl, first, rfl⟩

/-- A message queued on a registered connection is of the owner's tenant and is handled at
that moment; the owner is its addressee or a member of its group. -/
theorem enqueued_addressed {es : List (Event N)} {s s' : Cluster N} {e : Event N}
    (inv : Authentic state es s) (h : Stepped state s e s') {n : N} {t u : String}
    {id : ConnectionId} {sender : SocketSender}
    (registered : (s.nodes n).registry.sender? t u id = some sender) {m : ServerMessage}
    (enqueued : Enqueued m ((s.nodes n).channels sender.channel)
      ((s'.nodes n).channels sender.channel)) :
    e = .deliver n ∧ m ∈ s.streams n ∧ m.tenantId = t ∧
      if m.msgType = "group_join" ∨ m.channelType ≠ .dm then
        s'.member n t m.channelId u = true
      else u = m.channelId := by
  obtain ⟨rest, rfl, first, rfl⟩ := enqueued_delivery inv h enqueued
  have after : (s.delivered n m rest).nodes n = (s.nodes n).handleMessage m :=
    nodes_setNode s n _
  rw [after] at enqueued
  have changed : ((s.nodes n).handleMessage m).channels sender.channel ≠
      (s.nodes n).channels sender.channel := by
    intro same
    rw [same] at enqueued
    exact not_enqueued_self m _ enqueued
  obtain ⟨addressee, ⟨id', sender', found, same⟩, addressed⟩ :=
    reaches_of_handleMessage (s.nodes n) m changed
  -- The channel that was reached is that of one connection, so the two owners are one.
  obtain ⟨rfl, rfl, _⟩ := inv.separate n _ _ id' sender' t u id sender found registered same
  refine ⟨rfl, first ▸ List.mem_cons_self, rfl, ?_⟩
  unfold member
  rw [after]
  exact addressed

/-! ### Tenant isolation, authenticity and confidentiality -/

/-- Whatever the clients send and however connections, operations and deliveries are
interleaved, a message that is queued on a registered connection belongs to the tenant of
its owner, was built from a frame of its sender, and is addressed to the owner: as a party
of a direct message, or as a member of the group on that node at that moment. -/
theorem live_delivery (state : AppState) (db : Database) {es : List (Event N)}
    {s s' : Cluster N} {e : Event N} (ran : (machine N state).run (start db) es = some s)
    (next : (machine N state).step s e = some s') {n : N} {t u : String} {id : ConnectionId}
    {sender : SocketSender} (registered : (s.nodes n).registry.sender? t u id = some sender)
    {m : ServerMessage} (enqueued : Enqueued m ((s.nodes n).channels sender.channel)
      ((s'.nodes n).channels sender.channel)) :
    m.tenantId = t ∧ Origin state es m ∧
      (m.channelType = .dm → u = m.channelId ∨ u = m.senderId) ∧
      (m.channelType ≠ .dm → s'.member n t m.channelId u = true) := by
  have inv := authentic state db ran
  obtain ⟨_, handled, tenant, addressed⟩ :=
    enqueued_addressed inv (stepped next) registered enqueued
  have origin : Origin state es m := inv.streams n m handled
  refine ⟨tenant, origin, fun dm => ?_, fun other => ?_⟩
  · have direct : ¬ (m.msgType = "group_join" ∨ m.channelType ≠ .dm) := by
      rintro (join | other)
      · have group := origin.join join
        rw [dm] at group
        simp at group
      · exact other dm
    rw [if_neg direct] at addressed
    exact .inl addressed
  · rwa [if_pos (.inr other)] at addressed

/-- A direct message from one node to a connection on another. -/
theorem live_delivery_dm :
    let state : AppState := ⟨true, sha256Names⟩
    let choice : Choice := ⟨7, 9, true, 7⟩
    let es : List (Event Bool) :=
      [.connect 1 true ⟨"acme", "bob"⟩, .connect 2 false ⟨"acme", "ada"⟩, .perform 2 choice,
        .frame 2 ⟨none, some ⟨.dm, "bob", "hi"⟩⟩, .perform 2 choice, .perform 2 choice,
        .perform 2 choice]
    let m := dmMessage state ⟨"acme", "ada"⟩ ⟨.dm, "bob", "hi"⟩ 9 7
    ∃ s s', (machine Bool state).run (start ⟨[], [], []⟩) es = some s ∧
      (machine Bool state).step s (.deliver true) = some s' ∧
      m.tenantId = "acme" ∧ Origin state es m ∧
      (m.channelType = .dm → "bob" = m.channelId ∨ "bob" = m.senderId) ∧
      (m.channelType ≠ .dm → s'.member true "acme" m.channelId "bob" = true) := by
  intro state choice es m
  obtain ⟨s', ran', after⟩ : ∃ s' ∈ (machine Bool state).run (start ⟨[], [], []⟩)
      (es ++ [.deliver true]), ((s'.nodes true).channels 1).queue = [.json m] := by decide
  obtain ⟨s, ran, next⟩ := (Machine.run_snoc _).mp ran'
  obtain ⟨t, same, registered, before⟩ : ∃ s ∈ (machine Bool state).run (start ⟨[], [], []⟩) es,
      (s.nodes true).registry.sender? "acme" "bob" 1 = some ⟨1⟩ ∧
      ((s.nodes true).channels 1).queue = [] := by decide
  obtain rfl := Option.some.inj (same.symm.trans ran)
  have enqueued : Enqueued m ((t.nodes true).channels 1) ((s'.nodes true).channels 1) := by
    unfold Enqueued
    rw [before, after]
    decide
  exact ⟨t, s', ran, next, live_delivery state _ ran next registered enqueued⟩

end Cluster

end YappaCore
