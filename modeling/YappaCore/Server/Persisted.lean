import YappaCore.Protocol.Participants
import YappaCore.Server.Conversations
import YappaCore.Server.DirectMessage
import YappaCore.Server.Durability

/-!
What the handlers of a run persist, and where its conversation ids come from: the hash of two
names, the name of a group that is the text of an id, or an id drawn for the message.

`files_handleTextMessage` says what a handler knows when it persists a message, and `Archived` is
the invariant over the tables, the handlers and everything persisted so far: a chat that names its
conversation has a row of `groups` behind it, and a drawn id belongs to the connection that drew
it.
-/

namespace YappaCore

open Lib Handler

/-! ### Where a conversation id comes from -/

inductive IdSource where
  | pair (text : String)
  | name (id : Uuid)
  | drawn (id : Uuid)
deriving DecidableEq

def IdSource.id (sha256Prefix : String → Uuid) : IdSource → Uuid
  | .pair text => sha256Prefix text
  | .name id => id
  | .drawn id => id

/-- What the frame of a stored message says of its conversation id; a name that is no text of an
id leaves it to the environment. -/
def MessageRow.source (row : MessageRow) : IdSource :=
  if row.channelType = ChannelType.dm.debug then .pair (combined row.senderId row.channelId)
  else
    match parseUuid row.channelId with
    | some id => .name id
    | none => .drawn row.conversationId

/-- What a handler learns: that somebody is a member of a group, and an id that was drawn. -/
inductive Learned where
  | member (t g : String)
  | drew (id : Uuid)

/-- What the conversation id of a row rests on. -/
def IdSource.Backed (known : Learned → Prop) (t g : String) : IdSource → Prop
  | .pair _ => True
  | .name _ => known (.member t g)
  | .drawn id => known (.drew id)

/-- A message of a tenant whose conversation id is the one of its source. -/
structure Filed (sha256Prefix : String → Uuid) (t : String) (known : Learned → Prop)
    (row : MessageRow) : Prop where
  tenant : row.tenantId = t
  id : row.conversationId = row.source.id sha256Prefix
  backed : row.source.Backed known t row.channelId

theorem Filed.mono {sha256Prefix : String → Uuid} {t : String} {known known' : Learned → Prop}
    (more : ∀ fact, known fact → known' fact) {row : MessageRow}
    (filed : Filed sha256Prefix t known row) : Filed sha256Prefix t known' row where
  tenant := filed.tenant
  id := filed.id
  backed := by
    have backed := filed.backed
    cases source : row.source with
    | pair text => trivial
    | name id =>
        rw [source] at backed
        exact more _ backed
    | drawn id =>
        rw [source] at backed
        exact more _ backed

namespace IdSource

variable (sha256Prefix : String → Uuid)

/-- Two sources that give one id and are not both names, nor both drawn. -/
def crosses : IdSource → IdSource → Bool
  | .pair text, .pair text' => text = text'
  | .name _, .name _ => false
  | .drawn _, .drawn _ => false
  | a, b => a.id sha256Prefix = b.id sha256Prefix

/-- Sources of one id are one name, one drawn id, or cross, where the hash does not collide. -/
theorem of_id_eq {texts : Set String} (injective : Set.InjOn sha256Prefix texts) {a b : IdSource}
    (inside : ∀ text, a = .pair text → text ∈ texts) (inside' : ∀ text, b = .pair text → text ∈ texts)
    (same : a.id sha256Prefix = b.id sha256Prefix) :
    (∃ id, a = .name id ∧ b = .name id) ∨ (∃ id, a = .drawn id ∧ b = .drawn id) ∨
      a.crosses sha256Prefix b = true := by
  cases a with
  | pair text =>
      cases b with
      | pair text' =>
          exact .inr (.inr (decide_eq_true (injective (inside _ rfl) (inside' _ rfl) same)))
      | name id => exact .inr (.inr (decide_eq_true same))
      | drawn id => exact .inr (.inr (decide_eq_true same))
  | name id =>
      cases b with
      | pair text => exact .inr (.inr (decide_eq_true same))
      | name id' => exact .inl ⟨id, rfl, congrArg _ (Eq.symm same)⟩
      | drawn id' => exact .inr (.inr (decide_eq_true same))
  | drawn id =>
      cases b with
      | pair text => exact .inr (.inr (decide_eq_true same))
      | name id' => exact .inr (.inr (decide_eq_true same))
      | drawn id' => exact .inr (.inl ⟨id, rfl, congrArg _ (Eq.symm same)⟩)

theorem crosses_comm (a b : IdSource) : a.crosses sha256Prefix b = b.crosses sha256Prefix a := by
  cases a <;> cases b <;> simp only [crosses, eq_comm]

end IdSource

/-! ### Handlers -/

namespace Effect

/-- What an answer teaches. -/
def Teaches : (op : Effect) → op.Answer → Learned → Prop
  | .isUserInGroup t g _, answer, fact => answer = true ∧ fact = .member t g
  | .newV4, id, fact => fact = .drew id
  | _, _, _ => False

/-- What is persisted is filed, under the key of its channel, and a group whose name is the text
of an id is stored under that id. -/
def Files (sha256Prefix : String → Uuid) (t : String) (known : Learned → Prop) : Effect → Prop
  | .produce _ key msg => key = msg.channelId ∧ Filed sha256Prefix t known msg.row
  | .insertMessages rows => ∃ msg : ServerMessage, rows = [msg.row] ∧
      Filed sha256Prefix t known msg.row
  | .upsertGroup id _ g _ => ∀ x, parseUuid g = some x → id = x
  | _ => True

theorem Files.mono {sha256Prefix : String → Uuid} {t : String} (K K' : Learned → Prop)
    (op : Effect) (more : ∀ fact, K fact → K' fact) (files : op.Files sha256Prefix t K) :
    op.Files sha256Prefix t K' := by
  cases op with
  | produce topic key msg => exact ⟨files.1, files.2.mono more⟩
  | insertMessages rows =>
      obtain ⟨msg, rfl, filed⟩ := files
      exact ⟨msg, rfl, filed.mono more⟩
  | _ => exact files

end Effect

namespace Handler

/-- A handler that files all it persists. -/
def Files (sha256Prefix : String → Uuid) (t : String) (known : Learned → Prop)
    (task : Handler Unit) : Prop :=
  task.Informed Effect.Teaches (Effect.Files sha256Prefix t) known

section Handlers

variable {state : AppState} {identity : Identity} {g : String} {known : Learned → Prop}

theorem files_persistMessage {msg : ServerMessage}
    (filed : Filed state.sha256Prefix identity.tenantId known msg.row) :
    Files state.sha256Prefix identity.tenantId known (persistMessage state msg) := by
  rw [persistMessage_eq]
  split
  · exact ⟨⟨rfl, filed⟩, fun _ => trivial⟩
  · exact ⟨⟨msg, rfl, filed⟩, fun _ => trivial⟩

/-- What follows an id knows that it was read or drawn. -/
theorem files_parseOrNew {t : String} {f : Uuid → Handler Unit}
    (read : ∀ id, parseUuid g = some id → Files state.sha256Prefix t known (f id))
    (drawn : parseUuid g = none → ∀ id, Files state.sha256Prefix t
      (fun fact => known fact ∨ fact = .drew id) (f id)) :
    Files state.sha256Prefix t known (parseOrNew g >>= f) := by
  unfold parseOrNew
  cases parsed : parseUuid g with
  | some id => exact read id parsed
  | none => exact ⟨trivial, drawn parsed⟩

theorem files_join : Files state.sha256Prefix identity.tenantId known (handleJoin identity g) := by
  rw [handleJoin_eq]
  refine ⟨trivial, fun found => ?_⟩
  cases found with
  | none => trivial
  | some id =>
      exact ⟨trivial, fun _ => ⟨trivial, fun _ => ⟨trivial, fun _ => ⟨trivial, fun _ =>
        ⟨trivial, fun _ => trivial⟩⟩⟩⟩⟩

/-- What follows an id that is the one the name is a text of, if it is one. -/
theorem files_parseOrNew_of_own {t : String} {f : Uuid → Handler Unit}
    (each : ∀ id known, (∀ x, parseUuid g = some x → id = x) →
      Files state.sha256Prefix t known (f id)) :
    Files state.sha256Prefix t known (parseOrNew g >>= f) := by
  refine files_parseOrNew (fun id parsed => each id _ ?_) fun none id => each id _ ?_
  · intro x same
    exact Option.some.inj (parsed.symm.trans same)
  · intro x same
    simp [none] at same

theorem files_leave :
    Files state.sha256Prefix identity.tenantId known (handleLeave identity g) := by
  rw [handleLeave_eq]
  exact files_parseOrNew_of_own fun id known _ => ⟨trivial, fun _ => ⟨trivial, fun _ => ⟨trivial,
    fun _ => ⟨trivial, fun _ => ⟨trivial, fun _ => trivial⟩⟩⟩⟩⟩

theorem files_create :
    Files state.sha256Prefix identity.tenantId known (handleCreate identity g) := by
  rw [handleCreate_eq]
  refine files_parseOrNew_of_own fun id known own => ⟨own, fun created => ?_⟩
  cases created with
  | none => trivial
  | some id =>
      exact ⟨trivial, fun _ => ⟨trivial, fun _ => ⟨trivial, fun _ => ⟨trivial, fun _ =>
        ⟨trivial, fun _ => ⟨trivial, fun _ => trivial⟩⟩⟩⟩⟩⟩

theorem files_dm {payload : WsMessage} (dm : payload.channelType = .dm) :
    Files state.sha256Prefix identity.tenantId known (handleDm state identity payload) := by
  have source : ∀ messageId timestamp,
      (dmMessage state identity payload messageId timestamp).row.source =
        .pair (combined identity.userId payload.userId) := by
    intro messageId timestamp
    refine if_pos ?_
    change payload.channelType.debug = ChannelType.dm.debug
    rw [dm]
  rw [handleDm_eq]
  refine ⟨trivial, fun messageId => ⟨trivial, fun timestamp => ⟨trivial, fun _ => ⟨trivial, fun _ =>
    files_persistMessage ⟨rfl, ?_, ?_⟩⟩⟩⟩⟩
  · rw [source]
    exact generateDmConversationId_eq _ _ _
  · rw [source]
    trivial

theorem files_groupChat {payload : WsMessage} (group : payload.channelType ≠ .dm) :
    Files state.sha256Prefix identity.tenantId known (handleGroupChat state identity payload) := by
  have type : payload.channelType.debug ≠ ChannelType.dm.debug := by
    cases kind : payload.channelType with
    | dm => exact absurd kind group
    | group => decide
    | community => decide
  have source : ∀ id messageId timestamp,
      (chatMessage identity payload id messageId timestamp).row.source =
        match parseUuid payload.userId with
        | some id => .name id
        | none => .drawn id := fun _ _ _ => if_neg type
  rw [handleGroupChat_eq]
  refine ⟨trivial, fun member => ?_⟩
  cases member with
  | false => exact ⟨trivial, fun _ => trivial⟩
  | true =>
      refine ⟨trivial, fun messageId => ⟨trivial, fun timestamp => ?_⟩⟩
      apply files_parseOrNew
      · intro id parsed
        refine ⟨trivial, fun _ => files_persistMessage ⟨rfl, ?_, ?_⟩⟩
        · rw [source, parsed]
          rfl
        · rw [source, parsed]
          exact .inl (.inl (.inl (.inr ⟨rfl, rfl⟩)))
      · intro none id
        refine ⟨trivial, fun _ => files_persistMessage ⟨rfl, ?_, ?_⟩⟩
        · rw [source, none]
          rfl
        · rw [source, none]
          exact .inl (.inr rfl)

/-- The handler of a frame files what it persists under the tenant of its connection. -/
theorem files_handleTextMessage (text : TextFrame) (identity : Identity) (state : AppState) :
    Files state.sha256Prefix identity.tenantId known (handleTextMessage text identity state) := by
  unfold handleTextMessage
  cases text.groupMessage with
  | some groupState =>
      simp only
      cases groupState.msgType with
      | join => exact files_join
      | leave => exact files_leave
      | create => exact files_create
      | delete => exact ⟨trivial, fun _ => trivial⟩
  | none =>
      simp only
      cases text.wsMessage with
      | none => trivial
      | some payload =>
          simp only
          split
          · exact ⟨trivial, fun _ => trivial⟩
          · cases type : payload.channelType with
            | dm => exact files_dm type
            | group => exact files_groupChat (by simp [type])
            | community => exact files_groupChat (by simp [type])

end Handlers

end Handler

/-! ### The store over runs -/

/-- The rows that an operation writes, if it goes through. -/
def Effect.written : Effect → List MessageRow
  | .produce _ _ msg => [msg.row]
  | .insertMessages rows => rows
  | _ => []

/-- Every group whose name is the text of an id is stored under that id. -/
def Database.Named (db : Database) : Prop :=
  ∀ t g id x, db.GroupStored t g id → parseUuid g = some x → id = x

theorem Database.Named.empty : Named ⟨[], [], []⟩ := by
  rintro t g id x ⟨row, mem, _⟩
  exact absurd mem List.not_mem_nil

namespace Cluster

variable {N : Type} [DecidableEq N] {state : AppState} {db : Database}

/-- The messages persisted so far, in the table or in Kafka. -/
def persisted (s : Cluster N) : List MessageRow := s.db.messages ++ s.kafka.map (·.2.2.row)

/-- The id that an event draws, and for whose handler. -/
def draws (s : Cluster N) : Event N → List (ConnectionId × Uuid)
  | .perform id choice =>
      match s.sockets id with
      | some ⟨_, _, _, _, .call .newV4 _⟩ => [(id, choice.uuid)]
      | _ => []
  | _ => []

/-- The ids drawn in a run. -/
def drawn (state : AppState) (db : Database) (es : List (Event N)) : List (ConnectionId × Uuid) :=
  (machine N state).emitted draws (start db) es

/-- What the connection has learned so far. -/
def Knows (drawn : List (ConnectionId × Uuid)) (s : Cluster N) (id : ConnectionId) : Learned → Prop
  | .member t g => g = "general" ∨ s.HasRow t g
  | .drew x => (id, x) ∈ drawn

/-- The rows that an event persists. -/
def persisting (s : Cluster N) : Event N → List MessageRow
  | .perform id choice =>
      match s.sockets id with
      | some ⟨_, _, _, _, .call op _⟩ => if choice.ok then op.written else []
      | _ => []
  | _ => []

omit [DecidableEq N] in
theorem mem_persisting {s : Cluster N} {e : Event N} {row : MessageRow} : row ∈ s.persisting e ↔
    ∃ id choice socket op next, e = .perform id choice ∧ s.sockets id = some socket ∧
      socket.task = .call op next ∧ choice.ok = true ∧ row ∈ op.written := by
  constructor
  · intro mem
    cases e with
    | perform id choice =>
        simp only [persisting] at mem
        split at mem
        · rename_i n identity alive handling op next found
          split at mem
          · rename_i ok
            exact ⟨id, choice, _, op, next, rfl, found, rfl, ok, mem⟩
          · exact absurd mem List.not_mem_nil
        · exact absurd mem List.not_mem_nil
    | _ => exact absurd mem List.not_mem_nil
  · rintro ⟨id, choice, ⟨n, identity, alive, handling, task⟩, op, next, rfl, found, rfl, ok, mem⟩
    simp only [persisting, found, ok, if_true]
    exact mem

section Perform

variable (s : Cluster N) (n : N) (choice : Choice) (op : Effect)

/-- The table of messages changes by an insert that succeeds. -/
theorem messages_perform : (s.perform n choice op).2.db.messages = s.db.messages ∨
    ∃ rows, op = .insertMessages rows ∧ choice.ok = true ∧
      insertMessages s.db.messages rows = some (s.perform n choice op).2.db.messages := by
  cases op with
  | insertMessages rows =>
      simp only [perform]
      split
      · rename_i inserted
        exact .inr ⟨rows, rfl, Option.ite_none_right_eq_some.mp inserted⟩
      · exact .inl rfl
  | insertGroupMember id t u =>
      simp only [perform]
      split
      · rename_i inserted
        exact .inl (Database.messages_insertGroupMember (Option.ite_none_right_eq_some.mp inserted).2)
      · exact .inl rfl
  | deleteGroupMember id u =>
      simp only [perform]
      split
      · rename_i deleted
        exact .inl (Database.messages_deleteGroupMember (Option.ite_none_right_eq_some.mp deleted).2)
      · exact .inl rfl
  | upsertGroup id t g u =>
      simp only [perform]
      split
      · rename_i upserted
        exact .inl (Database.messages_upsertGroup (Option.ite_none_right_eq_some.mp upserted).2)
      · exact .inl rfl
  | publish channel msg => simp only [perform]; split <;> exact .inl rfl
  | produce topic key payload => simp only [perform]; split <;> exact .inl rfl
  | _ => exact .inl rfl

/-- Kafka takes what is produced. -/
theorem kafka_perform : (s.perform n choice op).2.kafka = s.kafka ∨
    ∃ topic key msg, op = .produce topic key msg ∧ choice.ok = true ∧
      (s.perform n choice op).2.kafka = s.kafka ++ [(topic, key, msg)] := by
  cases op with
  | produce topic key msg =>
      by_cases ok : choice.ok = true
      · exact .inr ⟨topic, key, msg, rfl, ok, by simp [perform, ok]⟩
      · exact .inl (by simp [perform, ok])
  | publish channel msg => simp only [perform]; split <;> exact .inl rfl
  | insertMessages rows => simp only [perform]; split <;> exact .inl rfl
  | insertGroupMember id t u => simp only [perform]; split <;> exact .inl rfl
  | deleteGroupMember id u => simp only [perform]; split <;> exact .inl rfl
  | upsertGroup id t g u => simp only [perform]; split <;> exact .inl rfl
  | _ => exact .inl rfl

/-- A row that is persisted after an operation was before, or the operation wrote it. -/
theorem mem_persisted_perform {row : MessageRow}
    (mem : row ∈ (s.perform n choice op).2.persisted) :
    row ∈ s.persisted ∨ choice.ok = true ∧ row ∈ op.written := by
  rcases List.mem_append.mp mem with stored | produced
  · rcases messages_perform s n choice op with same | ⟨rows, rfl, ok, inserted⟩
    · exact .inl (List.mem_append_left _ (same ▸ stored))
    · obtain ⟨_, after⟩ := insertMessages_eq_some.mp inserted
      rw [← after] at stored
      rcases List.mem_append.mp stored with old | new
      · exact .inl (List.mem_append_left _ old)
      · exact .inr ⟨ok, new⟩
  · rcases kafka_perform s n choice op with same | ⟨topic, key, msg, rfl, ok, grown⟩
    · exact .inl (List.mem_append_right _ (same ▸ produced))
    · rw [grown, List.map_append, List.mem_append] at produced
      rcases produced with old | new
      · exact .inl (List.mem_append_right _ old)
      · exact .inr ⟨ok, new⟩

end Perform

section Step

variable {s s' : Cluster N} {e : Event N} (h : Stepped state s e s')

include h

/-- A row that is persisted after an event was before, or the event persisted it. -/
theorem Stepped.mem_persisted {row : MessageRow} (mem : row ∈ s'.persisted) :
    row ∈ s.persisted ∨ row ∈ s.persisting e := by
  cases h with
  | @perform id n identity alive handling op next choice busy =>
      rcases mem_persisted_perform s n choice op mem with old | ⟨ok, writes⟩
      · exact .inl old
      · exact .inr (mem_persisting.mpr ⟨id, choice, _, op, next, rfl, busy, rfl, ok, writes⟩)
  | _ => exact .inl mem

/-- Kafka is as it was before an event, or the event produced one record more. -/
theorem Stepped.kafka : s'.kafka = s.kafka ∨ ∃ record : String × String × ServerMessage,
    s'.kafka = s.kafka ++ [record] ∧ s.Performs e (.produce record.1 record.2.1 record.2.2) ∧
      record.2.2.row ∈ s.persisting e := by
  cases h with
  | @perform id n identity alive handling op next choice busy =>
      rcases kafka_perform s n choice op with same | ⟨topic, key, msg, rfl, ok, grown⟩
      · exact .inl same
      · exact .inr ⟨(topic, key, msg), grown, ⟨id, choice, _, next, rfl, busy, rfl⟩,
          mem_persisting.mpr ⟨id, choice, _, _, next, rfl, busy, rfl, ok, List.mem_singleton_self _⟩⟩
  | _ => exact .inl rfl

end Step

/-! ### The archive -/

/-- A member's group is `general`, or has a row. -/
theorem row_of_member (schema : db.Schema) {es : List (Event N)} {s : Cluster N}
    (ran : (machine N state).run (start db) es = some s) {n : N} {t g u : String}
    (member : s.member n t g u = true) : g = "general" ∨ s.HasRow t g := by
  rcases (enrolled state db ran).members n t g u member with ⟨general, _⟩ | granted
  · exact .inl general
  · exact .inr (row_of_granted schema ran granted)

/-- After the events `es`: everything persisted is filed under the tenant of a connection, by what
that connection had learned, and the handlers will file the rest. -/
structure Archived (state : AppState) (db : Database) (es : List (Event N)) (s : Cluster N) :
    Prop where
  ran : (machine N state).run (start db) es = some s
  tasks : ∀ id socket, s.sockets id = some socket →
    Handler.Files state.sha256Prefix socket.identity.tenantId (Knows (drawn state db es) s id) socket.task
  named : s.db.Named
  rows : ∀ row ∈ s.persisted, ∃ id socket, s.sockets id = some socket ∧
    Filed state.sha256Prefix socket.identity.tenantId (Knows (drawn state db es) s id) row
  keys : ∀ record ∈ s.kafka, record.2.1 = record.2.2.channelId

theorem Archived.init (named : db.Named) (empty : db.messages = []) :
    Archived state db [] (start db : Cluster N) where
  ran := rfl
  tasks := by
    intro id socket found
    simp [start] at found
  named := named
  rows := by
    intro row mem
    simp [persisted, start, empty] at mem
  keys := by
    intro record mem
    simp [start] at mem

section ArchivedStep

variable {es : List (Event N)} {s s' : Cluster N} {e : Event N} (schema : db.Schema)
  (inv : Archived state db es s) (next : (machine N state).step s e = some s')

include schema inv next

theorem Archived.knows_step {id : ConnectionId} {fact : Learned}
    (known : Knows (drawn state db es) s id fact) :
    Knows (drawn state db (es ++ [e])) s' id fact := by
  cases fact with
  | member t g =>
      rcases known with general | row
      · exact .inl general
      · exact .inr ((stepped next).hasRow (schema_run schema inv.ran) row)
  | drew x =>
      rw [drawn, Machine.emitted_snoc inv.ran next]
      exact List.mem_append_left _ known

/-- What an operation taught is known after it. -/
theorem Archived.knows_of_teaches {id : ConnectionId} {choice : Choice} {socket : Socket N}
    {op : Effect} {later : op.Answer → Handler Unit} (performs : e = .perform id choice)
    (found : s.sockets id = some socket) (task : socket.task = .call op later) {fact : Learned}
    (teaches : op.Teaches (s.perform socket.node choice op).1 fact) :
    Knows (drawn state db (es ++ [e])) s' id fact := by
  cases op with
  | isUserInGroup t g u =>
      obtain ⟨member, rfl⟩ := teaches
      rcases row_of_member schema inv.ran member with general | row
      · exact .inl general
      · exact .inr ((stepped next).hasRow (schema_run schema inv.ran) row)
  | newV4 =>
      obtain rfl : fact = .drew choice.uuid := teaches
      obtain ⟨n, identity, alive, handling, _⟩ := socket
      obtain rfl := task
      have draws : s.draws e = [(id, choice.uuid)] := by
        rw [performs]
        simp only [draws, found]
      change (id, choice.uuid) ∈ drawn state db (es ++ [e])
      rw [drawn, Machine.emitted_snoc inv.ran next, draws]
      exact List.mem_append_right _ (List.mem_singleton_self _)
  | _ => exact teaches.elim

theorem Archived.tasks_step {id : ConnectionId} {socket : Socket N}
    (found : s'.sockets id = some socket) :
    Handler.Files state.sha256Prefix socket.identity.tenantId
      (Knows (drawn state db (es ++ [e])) s' id) socket.task := by
  rcases (stepped next).socket found with ⟨_, _, new⟩ | ⟨old, here, _, identity, moved⟩
  · rw [new]
    exact ⟨trivial, fun _ => trivial⟩
  · have before := inv.tasks id old here
    rw [identity]
    rcases moved with ⟨text, _, _, _, handler⟩ |
      ⟨_, ⟨choice, op, following, performs, task, later⟩ | ⟨_, ended⟩ | same⟩
    · rw [handler]
      exact files_handleTextMessage text old.identity state
    · rw [task] at before
      rw [later]
      refine Prog.Informed.mono Effect.Files.mono ?_ (before.2 _)
      rintro fact (known | taught)
      · exact inv.knows_step schema next known
      · exact inv.knows_of_teaches schema next performs here task taught
    · rw [ended]
      trivial
    · rw [same]
      exact before.mono Effect.Files.mono fun _ known => inv.knows_step schema next known

/-- A `CREATE` stores a group whose name is the text of an id under that id. -/
theorem Archived.named_step : s'.db.Named := by
  intro t g c x stored text
  rcases (stepped next).groups with same |
    ⟨id, choice, socket, c', t', g', u, later, id', _, found, task, _, upserted⟩
  · exact inv.named t g c x ((Database.groupStored_congr same t g c).mp stored) text
  · have now := ((schema_run schema inv.ran).groupStored_upsert upserted t g c).mp stored
    split at now
    · rename_i own
      obtain ⟨rfl, rfl⟩ := own
      have files := inv.tasks id socket found
      rw [task] at files
      rw [now]
      exact files.1 x text
    · exact inv.named t g c x now text

/-- What an event persists is filed under the tenant of its connection. -/
theorem Archived.filed_of_persisting {row : MessageRow} (mem : row ∈ s.persisting e) :
    ∃ id socket, s'.sockets id = some socket ∧
      Filed state.sha256Prefix socket.identity.tenantId
        (Knows (drawn state db (es ++ [e])) s' id) row := by
  obtain ⟨id, choice, socket, op, later, _, found, task, _, writes⟩ := mem_persisting.mp mem
  obtain ⟨socket', there, _, identity, _⟩ := (stepped next).moved found
  have files := inv.tasks id socket found
  rw [task] at files
  refine ⟨id, socket', there, ?_⟩
  rw [identity]
  cases op with
  | produce topic key msg =>
      obtain rfl := List.mem_singleton.mp writes
      exact files.1.2.mono fun _ known => inv.knows_step schema next known
  | insertMessages rows =>
      obtain ⟨msg, rfl, filed⟩ := files.1
      obtain rfl := List.mem_singleton.mp writes
      exact filed.mono fun _ known => inv.knows_step schema next known
  | _ => exact absurd writes List.not_mem_nil

omit schema next in
/-- An event persists one row at most. -/
theorem Archived.persisting_unique {row row' : MessageRow} (mem : row ∈ s.persisting e)
    (mem' : row' ∈ s.persisting e) : row = row' := by
  obtain ⟨id, choice, socket, op, next, rfl, found, task, _, writes⟩ := mem_persisting.mp mem
  obtain ⟨_, _, socket', op', next', performs, found', task', _, writes'⟩ := mem_persisting.mp mem'
  obtain ⟨rfl, rfl⟩ := Event.perform.inj performs
  obtain rfl := Option.some.inj (found.symm.trans found')
  injection task.symm.trans task' with same
  subst same
  have files := inv.tasks id socket found
  rw [task] at files
  cases op with
  | produce topic key msg => rw [List.mem_singleton.mp writes, List.mem_singleton.mp writes']
  | insertMessages rows =>
      obtain ⟨msg, rfl, _⟩ := files.1
      rw [List.mem_singleton.mp writes, List.mem_singleton.mp writes']
  | _ => exact absurd writes List.not_mem_nil

theorem Archived.step : Archived state db (es ++ [e]) s' where
  ran := by
    rw [Machine.run_append, inv.ran, Option.bind_some]
    simp [next]
  tasks := fun _ _ found => inv.tasks_step schema next found
  named := inv.named_step schema next
  rows := by
    intro row mem
    rcases (stepped next).mem_persisted mem with old | new
    · obtain ⟨id, socket, found, filed⟩ := inv.rows row old
      obtain ⟨socket', there, _, identity, _⟩ := (stepped next).moved found
      refine ⟨id, socket', there, ?_⟩
      rw [identity]
      exact filed.mono fun _ known => inv.knows_step schema next known
    · exact inv.filed_of_persisting schema next new
  keys := by
    intro record mem
    rcases (stepped next).kafka with same | ⟨new, grown, ⟨id, _, socket, _, _, found, task⟩, _⟩
    · exact inv.keys record (same ▸ mem)
    · rw [grown, List.mem_append, List.mem_singleton] at mem
      rcases mem with old | rfl
      · exact inv.keys record old
      · have files := inv.tasks id socket found
        rw [task] at files
        exact files.1.1

end ArchivedStep

/-- Every run from a store without messages keeps its archive. -/
theorem archived (state : AppState) {db : Database} (schema : db.Schema) (named : db.Named)
    (empty : db.messages = []) {es : List (Event N)} {s : Cluster N}
    (ran : (machine N state).run (start db) es = some s) : Archived state db es s := by
  refine Machine.invariant (Archived.init named empty) ?_ ran
  exact fun _ _ _ _ inv next => inv.step schema next

/-! ### Ids of the archive -/

/-- The texts that are hashed for the direct messages persisted so far. -/
def pairTexts (s : Cluster N) : Set String := {text | ∃ row ∈ s.persisted, row.source = .pair text}

section Ids

variable {es : List (Event N)} {s : Cluster N} (inv : Archived state db es s)
  {row row' : MessageRow} (mem : row ∈ s.persisted) (mem' : row' ∈ s.persisted)

include inv mem

theorem Archived.id_eq : row.conversationId = row.source.id state.sha256Prefix := by
  obtain ⟨_, _, _, filed⟩ := inv.rows row mem
  exact filed.id

/-- A chat under a name that is the text of an id is in the conversation of a stored group. -/
theorem Archived.groupStored {id : Uuid} (source : row.source = .name id) :
    s.db.GroupStored row.tenantId row.channelId id := by
  obtain ⟨_, _, _, filed⟩ := inv.rows row mem
  have backed := filed.backed
  have parsed : parseUuid row.channelId = some id := by
    unfold MessageRow.source at source
    split at source
    · simp at source
    · split at source
      · rename_i text
        rw [text, IdSource.name.inj source]
      · simp at source
  rw [source] at backed
  rcases backed with general | ⟨c, stored⟩
  · have drawn : parseUuid "general" = none := by decide
    rw [general, drawn] at parsed
    simp at parsed
  · rw [← filed.tenant] at stored
    rwa [← inv.named _ _ _ _ stored parsed]

include mem'

/-- Messages of one conversation have one name, one drawn id, or sources that cross. -/
theorem Archived.sources_of_conversation (injective : Set.InjOn state.sha256Prefix s.pairTexts)
    (conversation : row'.conversationId = row.conversationId) :
    (∃ id, row.source = .name id ∧ row'.source = .name id) ∨
      (∃ id, row.source = .drawn id ∧ row'.source = .drawn id) ∨
        row.source.crosses state.sha256Prefix row'.source = true := by
  have same : row.source.id state.sha256Prefix = row'.source.id state.sha256Prefix := by
    rw [← inv.id_eq mem, ← inv.id_eq mem']
    exact conversation.symm
  exact IdSource.of_id_eq _ injective (fun text own => ⟨row, mem, own⟩)
    (fun text own => ⟨row', mem', own⟩) same

/-- Two chats of one name are of one group. -/
theorem Archived.group_eq (schema : s.db.Schema) {id : Uuid} (source : row.source = .name id)
    (source' : row'.source = .name id) :
    row'.tenantId = row.tenantId ∧ row'.channelId = row.channelId :=
  schema.name_unique (inv.groupStored mem source) (inv.groupStored mem' source')

/-- An id that is drawn once is one connection's. -/
theorem Archived.tenant_eq (fresh : ((drawn state db es).map (·.2)).Nodup) {id : Uuid}
    (source : row.source = .drawn id) (source' : row'.source = .drawn id) :
    row.tenantId = row'.tenantId := by
  obtain ⟨cid, socket, found, filed⟩ := inv.rows row mem
  obtain ⟨cid', socket', found', filed'⟩ := inv.rows row' mem'
  have backed := filed.backed
  have backed' := filed'.backed
  rw [source] at backed
  rw [source'] at backed'
  obtain rfl : cid = cid' := congrArg Prod.fst (List.inj_on_of_nodup_map fresh backed backed' rfl)
  obtain rfl := Option.some.inj (found.symm.trans found')
  rw [filed.tenant, filed'.tenant]

end Ids

omit [DecidableEq N] in
/-- Where one text is hashed, nothing collides. -/
theorem injOn_of_one_pair {sha256Prefix : String → Uuid} {s : Cluster N} {text : String}
    (one : ∀ row ∈ s.persisted, row.source = .pair text) : Set.InjOn sha256Prefix s.pairTexts := by
  rintro text₁ ⟨row₁, mem₁, source₁⟩ text₂ ⟨row₂, mem₂, source₂⟩ _
  rw [one row₁ mem₁] at source₁
  rw [one row₂ mem₂] at source₂
  exact (IdSource.pair.inj source₁).symm.trans (IdSource.pair.inj source₂)

/-- A user connects and sends a direct message. -/
def sendDm (id : ConnectionId) (t u recipient : String) (uuid : Uuid) : List (Event Unit) :=
  [.connect id () ⟨t, u⟩, .perform id ⟨7, uuid, true, 7⟩, .frame id (dmFrame recipient "hi")] ++
    [.perform id ⟨7, uuid + 1, true, 7⟩, .perform id ⟨7, uuid + 2, true, 7⟩,
      .perform id ⟨7, uuid + 3, true, 7⟩, .perform id ⟨7, uuid + 4, true, 7⟩,
      .perform id ⟨7, uuid + 5, true, 7⟩]

end Cluster

end YappaCore
