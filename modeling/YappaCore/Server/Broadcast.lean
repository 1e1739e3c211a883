import YappaCore.Redis.Listener
import YappaCore.Server.Delivery

/-!
What clients are sent against what is published, over any run of any number of nodes.

Every listener takes the published messages in the order of publication (`hears_announced`).
The inbox of a connection is what its send task took from its channel and what waits there.
`inbox_complete`: a connection that is still registered has in it, in that order and once each,
every message that its node handled and that went to it; a send that does not get through takes
the registration away. `inbox_sublist`: whatever became of a connection, its inbox has the order
of publication. `devices_agree`: of two connections of a user, on any nodes, one has the last
direct messages of the other.
-/

namespace YappaCore

open Lib

/-- The message that a frame to a client carries. -/
def Message.payload : Message → Option ServerMessage
  | .json msg => some msg
  | .text _ | .ping => none

namespace ServerMessage

instance (msg : ServerMessage) (node : Node) (key : Key) : Decidable (msg.GoesTo node key) := by
  unfold GoesTo; infer_instance

/-- The listener sends the message to the connections of one user. -/
def DirectTo (msg : ServerMessage) (tenantId userId : String) : Prop :=
  ¬ msg.ToGroup ∧ msg.tenantId = tenantId ∧ msg.channelId = userId

instance (msg : ServerMessage) (t u : String) : Decidable (msg.DirectTo t u) := by
  unfold DirectTo; infer_instance

theorem DirectTo.goesTo {msg : ServerMessage} {key : Key}
    (direct : msg.DirectTo key.tenantId key.userId) (node : Node) : msg.GoesTo node key := by
  obtain ⟨one, tenant, user⟩ := direct
  refine ⟨tenant.symm, ?_⟩
  rw [if_neg one]
  exact user.symm

end ServerMessage

namespace Cluster

variable {N : Type} [DecidableEq N] {state : AppState}

/-! ### What an event publishes, handles and takes -/

omit [DecidableEq N] in
/-- What an event puts into every stream: a publish that goes through, once for each pattern that
its channel matches. -/
def announced (s : Cluster N) : Event N → List ServerMessage
  | .perform id choice =>
      match s.sockets id with
      | some ⟨_, _, _, _, .call (.publish channel msg) _⟩ =>
          if choice.ok then List.replicate (copies channel) msg else []
      | _ => []
  | _ => []

/-- The message that an event takes from the stream of a node. -/
def hears (n : N) (s : Cluster N) : Event N → List ServerMessage
  | .deliver m => if m = n then (s.streams n).head?.toList else []
  | _ => []

/-- That message, and whether it goes to a connection that is registered on the node. -/
def visits (n : N) (key : Key) (s : Cluster N) (e : Event N) : List (ServerMessage × Bool) :=
  (hears n s e).map fun msg =>
    (msg, decide (((s.nodes n).registry.find key).isSome = true ∧ msg.GoesTo (s.nodes n) key))

/-- The messages that wait in a channel of a node. -/
def waiting (s : Cluster N) (n : N) (id : ConnectionId) : List ServerMessage :=
  ((s.nodes n).channels id).queue.filterMap Message.payload

/-- The message that a send task takes from a channel of a node. -/
def received (n : N) (id : ConnectionId) (s : Cluster N) : Event N → List ServerMessage
  | .drain m k =>
      if m = n ∧ k = id then
        ((s.nodes n).channels id).queue.head?.toList.filterMap Message.payload
      else []
  | _ => []

/-- What the client of a connection was sent in a run: what was taken, and what waits. -/
def inbox (state : AppState) (db : Database) (es : List (Event N)) (s : Cluster N) (n : N)
    (id : ConnectionId) : List ServerMessage :=
  (machine N state).emitted (received n id) (start db) es ++ s.waiting n id

/-- What a node handled in a run. -/
def heardBy (state : AppState) (db : Database) (es : List (Event N)) (n : N) :
    List ServerMessage :=
  (machine N state).emitted (hears n) (start db) es

/-- What was published in a run. -/
def log (state : AppState) (db : Database) (es : List (Event N)) : List ServerMessage :=
  (machine N state).emitted announced (start db) es

theorem hears_of_ne {n : N} {s : Cluster N} {e : Event N} (other : e ≠ .deliver n) :
    hears n s e = [] := by
  cases e with
  | deliver m =>
      have different : m ≠ n := fun same => other (same ▸ rfl)
      exact if_neg different
  | _ => rfl

theorem hears_deliver {n : N} {s : Cluster N} {msg : ServerMessage} {rest : List ServerMessage}
    (first : s.streams n = msg :: rest) : hears n s (.deliver n) = [msg] := by
  simp only [hears, if_true, first]
  rfl

theorem map_fst_visits (n : N) (key : Key) (s : Cluster N) (e : Event N) :
    (visits n key s e).map Prod.fst = hears n s e := by
  unfold visits
  rw [List.map_map]
  exact List.map_id _

/-! ### The streams -/

/-- An event takes from the front of a stream what it handles, and puts at its end what it
publishes. -/
theorem streams_step (n : N) {s s' : Cluster N} {e : Event N}
    (next : (machine N state).step s e = some s') :
    hears n s e ++ s'.streams n = s.streams n ++ announced s e := by
  have same : ∀ {s' : Cluster N} {e : Event N}, hears n s e = [] → announced s e = [] →
      s'.streams n = s.streams n → hears n s e ++ s'.streams n = s.streams n ++ announced s e := by
    intro s' e none nothing stream
    rw [none, nothing, List.nil_append, List.append_nil, stream]
  cases stepped next with
  | @perform id n' identity alive handling op rest choice busy =>
      have stream : (s.performed id n' identity alive handling choice op rest).streams n =
          (s.perform n' choice op).2.streams n := rfl
      rw [stream, streams_perform]
      simp only [hears, announced, busy, List.nil_append]
      cases op with
      | publish channel msg =>
          simp only
          split
          · rfl
          · exact (List.append_nil _).symm
      | _ => exact (List.append_nil _).symm
  | @deliver m msg rest first =>
      by_cases here : m = n
      · subst here
        rw [hears_deliver first, first]
        have after : (s.delivered m msg rest).streams m = rest := Function.update_self _ _ _
        rw [after]
        exact (List.append_nil _).symm
      · refine same (if_neg here) rfl ?_
        exact Function.update_of_ne (Ne.symm here) _ _
  | _ => exact same rfl rfl rfl

/-- What a node handled and what waits in its stream is what was published, in that order. -/
theorem hears_announced {db : Database} {es : List (Event N)} {s : Cluster N}
    (ran : (machine N state).run (start db) es = some s) (n : N) :
    heardBy state db es n ++ s.streams n = log state db es := by
  have balance : ∀ (s : Cluster N) (e : Event N) (s' : Cluster N),
      (machine N state).step s e = some s' →
        hears n s e ++ s'.streams n = s.streams n ++ announced s e :=
    fun _ _ _ next => streams_step n next
  exact @Machine.emitted_flow _ _ _ _ (fun s => s.streams n) announced (hears n) balance _ _ _ ran

/-! ### The channels -/

/-- A channel after the handling of a message: that of a registered connection is offered it, or
the channel is as it was. -/
theorem queue_handleMessage_cases {node : Node} (separate : node.Separate) (msg : ServerMessage)
    (k : ConnectionId) :
    (∃ key sender, node.registry.find key = some sender ∧ sender.channel = k) ∧
      ((node.handleMessage msg).channels k).queue = (node.channels k).queue ++ [.json msg] ∨
    ((node.handleMessage msg).channels k).queue = (node.channels k).queue := by
  have channels : (node.handleMessage msg).channels =
      (node.flat.send (msg.GoesTo node) (.json msg)).channels :=
    congrArg Flat.channels (Node.flat_handleMessage separate msg)
  rw [channels]
  by_cases leads : node.flat.Leads (msg.GoesTo node) k
  · rw [Flat.channels_send leads, Channel.queue_offer]
    obtain ⟨key, sender, _, found, here⟩ := leads
    split
    · exact .inl ⟨⟨key, sender, found, here⟩, rfl⟩
    · exact .inr rfl
  · rw [Flat.channels_send_of_not leads]
    exact .inr rfl

/-- A connection that is registered after the handling of a message was so before, and has the
message in its channel if it goes to it: one that does not take it is evicted. -/
theorem find_handleMessage {node : Node} (separate : node.Separate) {msg : ServerMessage}
    {key : Key}
    {sender : SocketSender} (found : (node.handleMessage msg).registry.find key = some sender) :
    node.registry.find key = some sender ∧
      ((node.handleMessage msg).channels sender.channel).queue =
        (node.channels sender.channel).queue ++
          if msg.GoesTo node key then [.json msg] else [] := by
  have table : (node.handleMessage msg).registry.find =
      (node.flat.send (msg.GoesTo node) (.json msg)).table :=
    congrArg Flat.table (Node.flat_handleMessage separate msg)
  rw [table] at found
  obtain ⟨before, accepts⟩ := Flat.table_send.mp found
  refine ⟨before, ?_⟩
  rcases Listening.queue_handleMessage separate msg before with ⟨goes, queue⟩ | ⟨away, queue⟩
  · have room : (node.channels sender.channel).Accepts := accepts goes
    rw [queue, Channel.queue_offer, if_pos room, if_pos goes]
  · rw [queue, if_neg away, List.append_nil]

/-- An event handles a message of the node, opens the channel, or puts no message into it. -/
theorem queue_step {es : List (Event N)} {s s' : Cluster N} {e : Event N}
    (inv : Authentic state es s) (h : Stepped state s e s') (n : N) (k : ConnectionId) :
    (∃ msg rest, e = .deliver n ∧ s.streams n = msg :: rest ∧
      s'.nodes n = (s.nodes n).handleMessage msg) ∨
    e ≠ .deliver n ∧
      ((∃ identity, e = .connect k n identity ∧ s.sockets k = none ∧ s'.waiting n k = []) ∨
        received n k s e ++ s'.waiting n k = s.waiting n k) := by
  -- Where one node is replaced by one whose channel holds the same messages.
  have replaced : ∀ {n' : N} {node : Node}, s'.nodes = (s.setNode n' node).nodes →
      (n = n' → (node.channels k).queue.filterMap Message.payload = s.waiting n' k) →
      s'.waiting n k = s.waiting n k := by
    intro n' node nodes same
    unfold waiting at same ⊢
    rw [nodes]
    by_cases here : n = n'
    · subst here
      rw [nodes_setNode]
      exact same rfl
    · rw [nodes_setNode_of_ne s here]
  -- Copies of something else are no messages.
  have quiet : ∀ {before after : List Message} {msg : Message} {i : ℕ},
      after = before ++ List.replicate i msg → msg.payload = none →
      after.filterMap Message.payload = before.filterMap Message.payload := by
    intro before after msg i queue none
    rw [queue, List.filterMap_append, List.filterMap_replicate_of_none none, List.append_nil]
  cases h with
  | @connect id n' identity fresh =>
      refine .inr ⟨by simp, ?_⟩
      by_cases here : n = n' ∧ k = id
      · obtain ⟨rfl, rfl⟩ := here
        refine .inl ⟨identity, rfl, fresh, ?_⟩
        unfold waiting
        simp [connected, setSocket, setNode, Channel.new]
      · let opened : Node := ⟨(s.nodes n').registry.insert identity id ⟨id⟩,
          Function.update (s.nodes n').channels id Channel.new⟩
        refine .inr (@replaced n' opened rfl fun same => ?_)
        have other : k ≠ id := fun own => here ⟨same, own⟩
        simp only [opened, Function.update_of_ne other]
        rfl
  | frame text idle => exact .inr ⟨by simp, .inr rfl⟩
  | @perform id n' identity alive handling op next choice busy =>
      refine .inr ⟨by simp, .inr ?_⟩
      change ((((s.perform n' choice op).2.nodes n).channels k).queue).filterMap Message.payload = _
      rcases s.queue_perform n' choice op n k with same | ⟨t, u, msg, i, rfl, queue⟩
      · rw [same]
        rfl
      · refine quiet queue ?_
        have genuine := (inv.tasks id _ busy).1
        cases msg with
        | json m => exact absurd rfl (genuine m)
        | text words => rfl
        | ping => rfl
  | @ping id n' identity handling value idle =>
      refine .inr ⟨by simp, .inr (replaced rfl fun same => ?_)⟩
      obtain ⟨i, queue⟩ :=
        (s.nodes n').queue_sendMsgToUser identity.tenantId identity.userId .ping k
      exact quiet queue rfl
  | disconnect live => exact .inr ⟨by simp, .inr (replaced rfl fun _ => rfl)⟩
  | abort gone => exact .inr ⟨by simp, .inr rfl⟩
  | @drain n' id msg channel taken =>
      refine .inr ⟨by simp, .inr ?_⟩
      have queue := Channel.queue_recv taken
      by_cases here : n' = n ∧ id = k
      · obtain ⟨rfl, rfl⟩ := here
        simp only [received, waiting, setChannel, setNode, Function.update_self, queue,
          and_self, if_true, List.head?_cons, Option.toList_some]
        rw [← List.filterMap_append]
        rfl
      · have none : received n k s (.drain n' id) = [] := if_neg here
        rw [none]
        refine replaced rfl fun same => ?_
        have other : k ≠ id := fun own => here ⟨same.symm, own.symm⟩
        simp only [Function.update_of_ne other]
        rfl
  | hangUp n' id =>
      refine .inr ⟨by simp, .inr (replaced rfl fun _ => ?_)⟩
      by_cases own : k = id
      · subst own
        simp only [Function.update_self]
        rfl
      · simp only [Function.update_of_ne own]
        rfl
  | @deliver n' msg rest first =>
      by_cases here : n' = n
      · subst here
        exact .inl ⟨msg, rest, rfl, first, nodes_setNode s n' _⟩
      · refine .inr ⟨by simp [here], .inr (replaced rfl fun same => absurd same.symm here)⟩

/-! ### Inboxes -/

section Step

variable {db : Database} {es : List (Event N)} {s s' : Cluster N} {e : Event N}

theorem heardBy_snoc (ran : (machine N state).run (start db) es = some s)
    (next : (machine N state).step s e = some s') (n : N) :
    heardBy state db (es ++ [e]) n = heardBy state db es n ++ hears n s e :=
  Machine.emitted_snoc ran next

theorem inbox_snoc (ran : (machine N state).run (start db) es = some s)
    (next : (machine N state).step s e = some s') (n : N) (k : ConnectionId) :
    inbox state db (es ++ [e]) s' n k = (machine N state).emitted (received n k) (start db) es ++
      (received n k s e ++ s'.waiting n k) := by
  unfold inbox
  rw [Machine.emitted_snoc ran next, List.append_assoc]

/-- An event handles a message of the node, opens the connection, or leaves the inbox as it is. -/
theorem inbox_step (inv : Authentic state es s)
    (ran : (machine N state).run (start db) es = some s)
    (next : (machine N state).step s e = some s') (n : N) (k : ConnectionId) :
    (∃ msg, hears n s e = [msg] ∧ s'.nodes n = (s.nodes n).handleMessage msg ∧
      ∀ added, (((s.nodes n).handleMessage msg).channels k).queue =
          ((s.nodes n).channels k).queue ++ added →
        inbox state db (es ++ [e]) s' n k =
          inbox state db es s n k ++ added.filterMap Message.payload) ∨
    hears n s e = [] ∧
      (s.sockets k = none ∧
          (inbox state db es s n k = [] → inbox state db (es ++ [e]) s' n k = []) ∨
        inbox state db (es ++ [e]) s' n k = inbox state db es s n k) := by
  rw [inbox_snoc ran next]
  rcases queue_step inv (stepped next) n k with
    ⟨msg, rest, rfl, first, node⟩ | ⟨other, ⟨identity, rfl, fresh, empty⟩ | same⟩
  · refine .inl ⟨msg, hears_deliver first, node, fun added queue => ?_⟩
    have none : received n k s (.deliver n) = [] := rfl
    unfold inbox waiting
    rw [none, List.nil_append, node, queue, List.filterMap_append, List.append_assoc]
  · refine .inr ⟨hears_of_ne other, .inl ⟨fresh, fun nothing => ?_⟩⟩
    have none : received n k s (.connect k n identity) = [] := rfl
    obtain ⟨before, _⟩ := List.append_eq_nil_iff.mp nothing
    rw [none, empty, before]
    rfl
  · refine .inr ⟨hears_of_ne other, .inr ?_⟩
    rw [same]
    rfl

/-- A connection that is registered after an event: the event opened it, or it was registered and
its inbox has grown by what the event handled and goes to it. -/
theorem inbox_step_of_find (inv : Authentic state es s)
    (ran : (machine N state).run (start db) es = some s)
    (next : (machine N state).step s e = some s') {n : N} {key : Key} {sender : SocketSender}
    (found : (s'.nodes n).registry.find key = some sender) :
    hears n s e = [] ∧ s.sockets key.connectionId = none ∧
        (inbox state db es s n key.connectionId = [] →
          inbox state db (es ++ [e]) s' n key.connectionId = []) ∨
      (s.nodes n).registry.find key = some sender ∧
        inbox state db (es ++ [e]) s' n key.connectionId =
          inbox state db es s n key.connectionId ++
            ((visits n key s e).filter Prod.snd).map Prod.fst := by
  have step := inbox_step inv ran next n key.connectionId
  rcases (stepped next).sender? found with before | ⟨rfl, _⟩
  · refine .inr ⟨before, ?_⟩
    obtain ⟨own, socket, here, _⟩ := inv.registered n _ _ _ sender before
    rcases step with ⟨msg, only, node, grows⟩ | ⟨none, ⟨fresh, _⟩ | same⟩
    · rw [node] at found
      obtain ⟨registered, queue⟩ := find_handleMessage (inv.separate n) found
      rw [own] at queue
      rw [grows _ queue]
      unfold visits
      rw [only]
      by_cases goes : msg.GoesTo (s.nodes n) key
      · simp [goes, registered, Message.payload]
      · simp [goes]
    · rw [fresh] at here
      simp at here
    · unfold visits
      rw [same, none]
      exact (List.append_nil _).symm
  · have none : hears n s (.connect key.connectionId n ⟨key.tenantId, key.userId⟩) = [] := rfl
    rcases step with ⟨msg, only, _⟩ | ⟨_, ⟨fresh, empty⟩ | same⟩
    · simp [none] at only
    · exact .inl ⟨none, fresh, empty⟩
    · cases stepped next with
      | connect identity fresh => exact .inl ⟨none, fresh, fun nothing => same.trans nothing⟩

end Step

/-- After a run: the inbox of a connection that was not opened is empty; every inbox is part of
what its node handled; that of a registered connection has all that went to it, and from some
point on all that is sent to its user. -/
structure Posted (state : AppState) (db : Database) (es : List (Event N)) (s : Cluster N) :
    Prop where
  ran : (machine N state).run (start db) es = some s
  unopened : ∀ n k, s.sockets k = none → inbox state db es s n k = []
  unvisited : ∀ n key, s.sockets key.connectionId = none →
    ((machine N state).emitted (visits n key) (start db) es).filter Prod.snd = []
  sublist : ∀ n k, (inbox state db es s n k).Sublist (heardBy state db es n)
  complete : ∀ n key sender, (s.nodes n).registry.find key = some sender →
    inbox state db es s n key.connectionId =
      (((machine N state).emitted (visits n key) (start db) es).filter Prod.snd).map Prod.fst
  direct : ∀ n key sender, (s.nodes n).registry.find key = some sender →
    ∃ opened ≤ (heardBy state db es n).length,
      (inbox state db es s n key.connectionId).filter
          (fun msg => msg.DirectTo key.tenantId key.userId) =
        ((heardBy state db es n).drop opened).filter
          fun msg => msg.DirectTo key.tenantId key.userId

theorem Posted.init (db : Database) : Posted state db [] (start db : Cluster N) where
  ran := rfl
  unopened := fun _ _ _ => rfl
  unvisited := fun _ _ _ => rfl
  sublist := fun _ _ => List.Sublist.refl _
  complete := by
    intro n key sender found
    simp [start, ConnectionRegistry.new, ConnectionRegistry.find, ConnectionRegistry.sender?]
      at found
  direct := by
    intro n key sender found
    simp [start, ConnectionRegistry.new, ConnectionRegistry.find, ConnectionRegistry.sender?]
      at found

section Posted

variable {db : Database} {es : List (Event N)} {s s' : Cluster N} {e : Event N}

theorem visits_snoc (ran : (machine N state).run (start db) es = some s)
    (next : (machine N state).step s e = some s') (n : N) (key : Key) :
    ((machine N state).emitted (visits n key) (start db) (es ++ [e])).filter Prod.snd =
      ((machine N state).emitted (visits n key) (start db) es).filter Prod.snd ++
        (visits n key s e).filter Prod.snd := by
  rw [Machine.emitted_snoc ran next, List.filter_append]

/-- A connection that was not opened is not registered, so no message goes to it. -/
theorem visits_of_unopened (inv : Authentic state es s) {key : Key}
    (fresh : s.sockets key.connectionId = none) (n : N) :
    (visits n key s e).filter Prod.snd = [] := by
  have absent : (s.nodes n).registry.find key = none := by
    refine Option.eq_none_iff_forall_ne_some.mpr fun sender found => ?_
    obtain ⟨_, socket, here, _⟩ := inv.registered n _ _ _ sender found
    rw [fresh] at here
    simp at here
  unfold visits
  rw [absent, List.filter_map, List.map_eq_nil_iff, List.filter_eq_nil_iff]
  simp

/-- Connections stay opened. -/
theorem unopened_before (next : (machine N state).step s e = some s') {k : ConnectionId}
    (fresh : s'.sockets k = none) : s.sockets k = none := by
  cases before : s.sockets k with
  | none => rfl
  | some socket =>
      obtain ⟨socket', after, _⟩ := (stepped next).moved before
      rw [fresh] at after
      simp at after

/-- The inbox of any connection grows by at most what the event handles. -/
theorem Posted.sublist_step (posted : Posted state db es s) (inv : Authentic state es s)
    (next : (machine N state).step s e = some s') (n : N) (k : ConnectionId) :
    (inbox state db (es ++ [e]) s' n k).Sublist (heardBy state db (es ++ [e]) n) := by
  rw [heardBy_snoc posted.ran next]
  have before := posted.sublist n k
  rcases inbox_step inv posted.ran next n k with
    ⟨msg, only, _, grows⟩ | ⟨none, ⟨fresh, empty⟩ | same⟩
  · rw [only]
    rcases queue_handleMessage_cases (inv.separate n) msg k with ⟨_, queue⟩ | queue
    · rw [grows _ queue]
      exact before.append (List.Sublist.refl _)
    · rw [grows [] (queue.trans (List.append_nil _).symm)]
      exact before.append (List.nil_sublist _)
  · rw [empty (posted.unopened n k fresh)]
    exact List.nil_sublist _
  · rw [none, same, List.append_nil]
    exact before

theorem Posted.unopened_step (posted : Posted state db es s) (inv : Authentic state es s)
    (next : (machine N state).step s e = some s') (n : N) {k : ConnectionId}
    (fresh : s'.sockets k = none) : inbox state db (es ++ [e]) s' n k = [] := by
  have before := unopened_before next fresh
  have empty := posted.unopened n k before
  rcases inbox_step inv posted.ran next n k with
    ⟨msg, _, _, grows⟩ | ⟨_, ⟨_, stays⟩ | same⟩
  · rcases queue_handleMessage_cases (inv.separate n) msg k with
      ⟨⟨key, sender, found, here⟩, _⟩ | queue
    · obtain ⟨rfl, socket, opened, _⟩ := inv.registered n _ _ _ sender found
      rw [← here, opened] at before
      simp at before
    · rw [grows [] (queue.trans (List.append_nil _).symm), empty]
      rfl
  · exact stays empty
  · rw [same, empty]

/-- What an event handles for the user of a registered connection goes to it. -/
theorem direct_visits {n : N} {key : Key}
    (registered : ((s.nodes n).registry.find key).isSome = true) :
    (((visits n key s e).filter Prod.snd).map Prod.fst).filter
        (fun msg => msg.DirectTo key.tenantId key.userId) =
      (hears n s e).filter fun msg => msg.DirectTo key.tenantId key.userId := by
  unfold visits
  rw [List.filter_map, List.filter_filter, List.filter_map, List.map_map]
  refine (List.map_id _).trans (List.filter_congr fun msg _ => ?_)
  by_cases direct : msg.DirectTo key.tenantId key.userId
  · simp [direct, registered, direct.goesTo]
  · simp [direct]

theorem Posted.step (posted : Posted state db es s) (inv : Authentic state es s)
    (next : (machine N state).step s e = some s') : Posted state db (es ++ [e]) s' where
  ran := (Machine.run_snoc _).mpr ⟨s, posted.ran, next⟩
  unopened := fun n _ fresh => posted.unopened_step inv next n fresh
  sublist := posted.sublist_step inv next
  unvisited := by
    intro n key fresh
    have before := unopened_before next fresh
    rw [visits_snoc posted.ran next, posted.unvisited n key before, visits_of_unopened inv before n]
    rfl
  complete := by
    intro n key sender found
    rw [visits_snoc posted.ran next, List.map_append]
    rcases inbox_step_of_find inv posted.ran next found with ⟨_, fresh, empty⟩ | ⟨before, grows⟩
    · rw [empty (posted.unopened n _ fresh), posted.unvisited n key fresh,
        visits_of_unopened inv fresh n]
      rfl
    · rw [grows, posted.complete n key sender before]
  direct := by
    intro n key sender found
    rw [heardBy_snoc posted.ran next]
    rcases inbox_step_of_find inv posted.ran next found with ⟨none, fresh, empty⟩ | ⟨before, grows⟩
    · refine ⟨(heardBy state db es n).length, by simp, ?_⟩
      rw [empty (posted.unopened n _ fresh), none, List.append_nil, List.drop_length]
    · obtain ⟨opened, within, same⟩ := posted.direct n key sender before
      refine ⟨opened, by rw [List.length_append]; omega, ?_⟩
      have registered : ((s.nodes n).registry.find key).isSome = true := by rw [before]; rfl
      rw [grows, List.filter_append, same, direct_visits registered,
        List.drop_append_of_le_length within, List.filter_append]

theorem posted (state : AppState) (db : Database)
    (ran : (machine N state).run (start db) es = some s) : Posted state db es s := by
  let Inv (es : List (Event N)) (s : Cluster N) : Prop :=
    Authentic state es s ∧ Posted state db es s
  have init : Inv [] (start db) := ⟨.init db, .init db⟩
  have step : ∀ es s e s', Inv es s → (machine N state).step s e = some s' → Inv (es ++ [e]) s' :=
    fun _ _ _ _ inv next => ⟨inv.1.step next, inv.2.step inv.1 next⟩
  exact (Machine.invariant init step ran).2

end Posted

/-! ### What clients are sent -/

/-- In every run, a connection that is still registered at its end was sent exactly what its
node's listener handled and that went to it at that moment, in the order of publication and once
each. What the listener has yet to handle is in its stream. -/
theorem inbox_complete (state : AppState) (db : Database) {es : List (Event N)} {s : Cluster N}
    (ran : (machine N state).run (start db) es = some s) {n : N} {key : Key} {sender : SocketSender}
    (registered : (s.nodes n).registry.find key = some sender) :
    let seen := (machine N state).emitted (visits n key) (start db) es
    seen.map Prod.fst ++ s.streams n = log state db es ∧
      inbox state db es s n key.connectionId = (seen.filter Prod.snd).map Prod.fst := by
  intro seen
  refine ⟨?_, (posted state db ran).complete n key sender registered⟩
  have fsts : seen.map Prod.fst = heardBy state db es n := by
    have map := Machine.emitted_map (M := machine N state) (visits n key) (List.map Prod.fst) rfl
      (fun _ _ => List.map_append) (start db) es
    rw [← map]
    unfold heardBy
    congr 1
    funext s e
    exact map_fst_visits n key s e
  rw [fsts]
  exact hears_announced ran n

/-- Bob's first connection, one of Ada's, and a direct message of hers that Bob's second connection,
on the other node, meets half way: its first copy is handled there before it opens. -/
def twoDevices : List (Event Bool) :=
  let choice : Choice := ⟨7, 9, true, 7⟩
  [.connect 1 true ⟨"acme", "bob"⟩, .connect 2 false ⟨"acme", "ada"⟩, .perform 2 choice,
    .frame 2 ⟨none, some ⟨.dm, "bob", "hi"⟩⟩, .perform 2 choice, .perform 2 choice,
    .perform 2 choice, .perform 2 choice, .deliver true, .deliver false,
    .connect 3 false ⟨"acme", "bob"⟩, .drain true 1, .deliver true, .deliver false]

theorem inbox_complete_dm :
    let state : AppState := ⟨true, sha256Names⟩
    let key : Key := ⟨"acme", "bob", 1⟩
    ∃ s, (machine Bool state).run (start ⟨[], [], []⟩) twoDevices = some s ∧
      let seen := (machine Bool state).emitted (visits true key) (start ⟨[], [], []⟩) twoDevices
      seen.map Prod.fst ++ s.streams true = log state ⟨[], [], []⟩ twoDevices ∧
        inbox state ⟨[], [], []⟩ twoDevices s true 1 = (seen.filter Prod.snd).map Prod.fst := by
  intro state key
  obtain ⟨s, ran, registered⟩ : ∃ s ∈ (machine Bool state).run (start ⟨[], [], []⟩) twoDevices,
      (s.nodes true).registry.find key = some ⟨1⟩ := by decide
  exact ⟨s, ran, inbox_complete state ⟨[], [], []⟩ ran registered⟩

/-- In every run and for every connection, the inbox is a subsequence of what was published: no
two clients see two messages in different orders. -/
theorem inbox_sublist (state : AppState) (db : Database) {es : List (Event N)} {s : Cluster N}
    (ran : (machine N state).run (start db) es = some s) (n : N) (id : ConnectionId) :
    (inbox state db es s n id).Sublist (log state db es) := by
  rw [← hears_announced ran n]
  exact ((posted state db ran).sublist n id).trans (List.sublist_append_left _ _)

theorem inbox_sublist_dm :
    let state : AppState := ⟨true, sha256Names⟩
    ∃ s, (machine Bool state).run (start ⟨[], [], []⟩) twoDevices = some s ∧
      (inbox state ⟨[], [], []⟩ twoDevices s false 3).Sublist
        (log state ⟨[], [], []⟩ twoDevices) := by
  intro state
  obtain ⟨s, ran⟩ := Option.isSome_iff_exists.mp
    (show ((machine Bool state).run (start ⟨[], [], []⟩) twoDevices).isSome = true by decide)
  exact ⟨s, ran, inbox_sublist state ⟨[], [], []⟩ ran false 3⟩

/-- Once no message is in flight to their nodes, of two registered connections of one user the
one has the last direct messages of the other. -/
theorem devices_agree (state : AppState) (db : Database) {es : List (Event N)} {s : Cluster N}
    (ran : (machine N state).run (start db) es = some s) {n m : N} {t u : String}
    {id id' : ConnectionId} {sender sender' : SocketSender}
    (first : (s.nodes n).registry.sender? t u id = some sender)
    (second : (s.nodes m).registry.sender? t u id' = some sender')
    (quiet : s.streams n = []) (quiet' : s.streams m = []) :
    let direct (inbox : List ServerMessage) := inbox.filter fun msg => msg.DirectTo t u
    direct (inbox state db es s n id) <:+ direct (inbox state db es s m id') ∨
      direct (inbox state db es s m id') <:+ direct (inbox state db es s n id) := by
  intro direct
  have posted := posted state db ran
  have all : ∀ k, s.streams k = [] → heardBy state db es k = log state db es := by
    intro k empty
    rw [← hears_announced ran k, empty, List.append_nil]
  obtain ⟨opened, _, same⟩ := posted.direct n ⟨t, u, id⟩ sender first
  obtain ⟨opened', _, same'⟩ := posted.direct m ⟨t, u, id'⟩ sender' second
  rw [all n quiet] at same
  rw [all m quiet'] at same'
  have later : ∀ i j, i ≤ j →
      direct ((log state db es).drop j) <:+ direct ((log state db es).drop i) := by
    intro i j le
    refine List.IsSuffix.filter _ ?_
    rw [← Nat.add_sub_cancel' le, ← List.drop_drop]
    exact List.drop_suffix _ _
  change direct _ <:+ direct _ ∨ direct _ <:+ direct _
  have one : direct (inbox state db es s n id) = direct ((log state db es).drop opened) := same
  have other : direct (inbox state db es s m id') = direct ((log state db es).drop opened') := same'
  rw [one, other]
  rcases Nat.le_total opened opened' with le | le
  · exact .inr (later _ _ le)
  · exact .inl (later _ _ le)

/-- The second connection has the second copy only. -/
theorem devices_agree_dm :
    let state : AppState := ⟨true, sha256Names⟩
    let direct (inbox : List ServerMessage) := inbox.filter fun msg => msg.DirectTo "acme" "bob"
    ∃ s, (machine Bool state).run (start ⟨[], [], []⟩) twoDevices = some s ∧
      (direct (inbox state ⟨[], [], []⟩ twoDevices s true 1) <:+
          direct (inbox state ⟨[], [], []⟩ twoDevices s false 3) ∨
        direct (inbox state ⟨[], [], []⟩ twoDevices s false 3) <:+
          direct (inbox state ⟨[], [], []⟩ twoDevices s true 1)) := by
  intro state direct
  obtain ⟨s, ran, first, second, quiet, quiet'⟩ :
      ∃ s ∈ (machine Bool state).run (start ⟨[], [], []⟩) twoDevices,
        (s.nodes true).registry.sender? "acme" "bob" 1 = some ⟨1⟩ ∧
        (s.nodes false).registry.sender? "acme" "bob" 3 = some ⟨3⟩ ∧
        s.streams true = [] ∧ s.streams false = [] := by decide
  exact ⟨s, ran, devices_agree state ⟨[], [], []⟩ ran first second quiet quiet'⟩

end Cluster

end YappaCore
