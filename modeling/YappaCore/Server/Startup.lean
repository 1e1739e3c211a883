import YappaCore.Db.Startup
import YappaCore.Server.Persisted

/-!
Whether what users do can keep a server from starting again.

A start fails where a chat of a group without a row is in the conversation of a stored group. The
only such chats are those of `general`, whose ids are drawn. `Rooted` says for which frame every id
in the tables was drawn, so that two rows with one id were made for one frame; `starts_again` is
what that gives: a later start goes through unless a user created a group named by an id that the
server drew.
-/

namespace YappaCore

open Lib Handler

/-! ### Which frame an id was drawn for -/

/-- What is known of a chat that a handler persists: it answers no command, its sender was found in
its group, and its conversation id is that of the group's name or was drawn. -/
structure MessageRow.Rooted (handling : Option TextFrame) (t : String) (known : Learned → Prop)
    (row : MessageRow) : Prop where
  tenant : row.tenantId = t
  chat : handling.bind TextFrame.command = none
  member : row.channelType ≠ ChannelType.dm.debug → known (.member t row.channelId)
  drawn : row.channelType ≠ ChannelType.dm.debug → parseUuid row.channelId = none →
    known (.drew row.conversationId)

theorem MessageRow.Rooted.mono {handling : Option TextFrame} {t : String}
    {known known' : Learned → Prop} (more : ∀ fact, known fact → known' fact) {row : MessageRow}
    (rooted : row.Rooted handling t known) : row.Rooted handling t known' where
  tenant := rooted.tenant
  chat := rooted.chat
  member := fun group => more _ (rooted.member group)
  drawn := fun group none => more _ (rooted.drawn group none)

namespace Effect

/-- A group gets an id that is drawn for a `CREATE`, or that its name is the text of; what is
persisted is rooted. -/
def Roots (handling : Option TextFrame) (t : String) (known : Learned → Prop) : Effect → Prop
  | .upsertGroup id _ g _ => (∃ g, handling.bind TextFrame.command = some (.create, g)) ∧
      (parseUuid g = none → known (.drew id))
  | .produce _ _ msg => msg.row.Rooted handling t known
  | .insertMessages rows => ∀ row ∈ rows, row.Rooted handling t known
  | _ => True

theorem Roots.mono {handling : Option TextFrame} {t : String} (K K' : Learned → Prop) (op : Effect)
    (more : ∀ fact, K fact → K' fact) (roots : op.Roots handling t K) : op.Roots handling t K' := by
  cases op with
  | upsertGroup id t' g u => exact ⟨roots.1, fun none => more _ (roots.2 none)⟩
  | produce topic key msg => exact MessageRow.Rooted.mono more roots
  | insertMessages rows => exact fun row mem => (roots row mem).mono more
  | _ => exact roots

end Effect

namespace Handler

/-- A handler that roots all it stores. -/
def Roots (handling : Option TextFrame) (t : String) (known : Learned → Prop)
    (task : Handler Unit) : Prop :=
  task.Informed Effect.Teaches (Effect.Roots handling t) known

section Handlers

variable {text : TextFrame} {state : AppState} {identity : Identity} {g : String}
  {known : Learned → Prop}

theorem roots_persistMessage {handling : Option TextFrame} {t : String} {msg : ServerMessage}
    (rooted : msg.row.Rooted handling t known) :
    Roots handling t known (persistMessage state msg) := by
  rw [persistMessage_eq]
  split
  · exact ⟨rooted, fun _ => trivial⟩
  · refine ⟨fun row mem => ?_, fun _ => trivial⟩
    rw [List.mem_singleton.mp mem]
    exact rooted

/-- What follows an id knows that it was drawn, if the name is the text of none. -/
theorem roots_parseOrNew {handling : Option TextFrame} {t : String} {f : Uuid → Handler Unit}
    (rest : ∀ id known', (∀ fact, known fact → known' fact) →
      (parseUuid g = none → known' (.drew id)) → Roots handling t known' (f id)) :
    Roots handling t known (parseOrNew g >>= f) := by
  unfold parseOrNew
  cases parsed : parseUuid g with
  | some id =>
      apply rest id known (fun _ had => had)
      intro none
      simp [parsed] at none
  | none => exact ⟨trivial, fun id => rest id _ (fun _ => .inl) fun _ => .inr rfl⟩

theorem roots_join (handling : Option TextFrame) :
    Roots handling identity.tenantId known (handleJoin identity g) := by
  rw [handleJoin_eq]
  refine ⟨trivial, fun found => ?_⟩
  cases found with
  | none => trivial
  | some id =>
      exact ⟨trivial, fun _ => ⟨trivial, fun _ => ⟨trivial, fun _ => ⟨trivial, fun _ =>
        ⟨trivial, fun _ => trivial⟩⟩⟩⟩⟩

theorem roots_leave (handling : Option TextFrame) :
    Roots handling identity.tenantId known (handleLeave identity g) := by
  rw [handleLeave_eq]
  exact roots_parseOrNew fun id known' _ _ => ⟨trivial, fun _ => ⟨trivial, fun _ => ⟨trivial,
    fun _ => ⟨trivial, fun _ => ⟨trivial, fun _ => trivial⟩⟩⟩⟩⟩

theorem roots_create (create : text.command = some (.create, g)) :
    Roots (some text) identity.tenantId known (handleCreate identity g) := by
  rw [handleCreate_eq]
  refine roots_parseOrNew fun id known' _ drew => ⟨⟨⟨g, create⟩, drew⟩, fun created => ?_⟩
  cases created with
  | none => trivial
  | some id =>
      exact ⟨trivial, fun _ => ⟨trivial, fun _ => ⟨trivial, fun _ => ⟨trivial, fun _ =>
        ⟨trivial, fun _ => ⟨trivial, fun _ => trivial⟩⟩⟩⟩⟩⟩

theorem roots_dm {payload : WsMessage} (chat : text.command = none)
    (dm : payload.channelType = .dm) :
    Roots (some text) identity.tenantId known (handleDm state identity payload) := by
  have type : payload.channelType.debug = ChannelType.dm.debug := by rw [dm]
  rw [handleDm_eq]
  exact ⟨trivial, fun _ => ⟨trivial, fun _ => ⟨trivial, fun _ => ⟨trivial, fun _ =>
    roots_persistMessage
      ⟨rfl, chat, fun group => absurd type group, fun group => absurd type group⟩⟩⟩⟩⟩

theorem roots_groupChat {payload : WsMessage} (chat : text.command = none) :
    Roots (some text) identity.tenantId known (handleGroupChat state identity payload) := by
  rw [handleGroupChat_eq]
  refine ⟨trivial, fun member => ?_⟩
  cases member with
  | false => exact ⟨trivial, fun _ => trivial⟩
  | true =>
      refine ⟨trivial, fun _ => ⟨trivial, fun _ => ?_⟩⟩
      refine roots_parseOrNew fun id known' more drew => ⟨trivial, fun _ => ?_⟩
      have found : known' (.member identity.tenantId payload.userId) :=
        more _ (.inl (.inl (.inr ⟨rfl, rfl⟩)))
      exact roots_persistMessage
        ⟨rfl, chat, fun _ => .inl found, fun _ none => .inl (drew none)⟩

/-- The handler of a frame roots all it stores. -/
theorem roots_handleTextMessage (text : TextFrame) (identity : Identity) (state : AppState) :
    Roots (some text) identity.tenantId known (handleTextMessage text identity state) := by
  cases command : text.command with
  | some pair =>
      obtain ⟨kind, g⟩ := pair
      rw [handleTextMessage_command text identity state command]
      cases kind with
      | join => exact roots_join _
      | leave => exact roots_leave _
      | create => exact roots_create command
      | delete => exact ⟨trivial, fun _ => trivial⟩
  | none =>
      have noGroup : text.groupMessage = none := by
        simpa [TextFrame.command] using command
      unfold handleTextMessage
      rw [noGroup]
      simp only
      cases text.wsMessage with
      | none => trivial
      | some payload =>
          simp only
          split
          · exact ⟨trivial, fun _ => trivial⟩
          · cases type : payload.channelType with
            | dm => exact roots_dm command type
            | group => exact roots_groupChat command
            | community => exact roots_groupChat command

end Handlers

end Handler

namespace Cluster

variable {N : Type} [DecidableEq N] {state : AppState} {db : Database}

/-! ### Runs -/

/-- The id that an event draws, for whose handler and which frame. -/
def drawsFor (s : Cluster N) : Event N → List ((ConnectionId × Option TextFrame) × Uuid)
  | .perform id choice =>
      match s.sockets id with
      | some ⟨_, _, _, handling, .call .newV4 _⟩ => [((id, handling), choice.uuid)]
      | _ => []
  | _ => []

/-- The ids drawn in a run, with what they were drawn for. -/
def drawnFor (state : AppState) (db : Database) (es : List (Event N)) :
    List ((ConnectionId × Option TextFrame) × Uuid) :=
  (machine N state).emitted drawsFor (start db) es

omit [DecidableEq N] in
theorem draws_eq (s : Cluster N) (e : Event N) :
    s.draws e = (s.drawsFor e).map fun draw => (draw.1.1, draw.2) := by
  cases e with
  | perform id choice =>
      simp only [draws, drawsFor]
      cases s.sockets id with
      | none => rfl
      | some socket =>
          obtain ⟨n, identity, alive, handling, task⟩ := socket
          cases task with
          | ret value => rfl
          | call op next => cases op <;> rfl
  | _ => rfl

/-- The ids of both records are the same. -/
theorem map_snd_drawnFor (state : AppState) (db : Database) (es : List (Event N)) :
    (drawnFor state db es).map Prod.snd = (drawn state db es).map Prod.snd := by
  have same : drawn state db es = (drawnFor state db es).map fun draw => (draw.1.1, draw.2) := by
    unfold drawnFor
    rw [← Machine.emitted_map (M := machine N state) drawsFor (List.map fun draw =>
      (draw.1.1, draw.2)) rfl (fun _ _ => List.map_append)]
    unfold drawn
    congr 1
    funext s e
    exact draws_eq s e
  rw [same, List.map_map]
  rfl

/-- What the handler of a connection knows while it is at work on a frame. -/
def KnowsFor (drawn : List ((ConnectionId × Option TextFrame) × Uuid)) (s : Cluster N)
    (id : ConnectionId) (handling : Option TextFrame) : Learned → Prop
  | .member t g => g = "general" ∨ s.HasRow t g
  | .drew x => ((id, handling), x) ∈ drawn

/-- After a run: every id that a group is stored under, and every one that a chat carries, was
drawn for the frame that made the row, where it is not that of the group's name. -/
structure Rooted (state : AppState) (db : Database) (es : List (Event N)) (s : Cluster N) :
    Prop where
  ran : (machine N state).run (start db) es = some s
  tasks : ∀ id socket, s.sockets id = some socket →
    Handler.Roots socket.handling socket.identity.tenantId
      (KnowsFor (drawnFor state db es) s id socket.handling) socket.task
  groups : ∀ t g c, s.db.GroupStored t g c → parseUuid g = none →
    (∃ t g, db.GroupStored t g c) ∨ ∃ id text, (∃ g, text.command = some (.create, g)) ∧
      ((id, some text), c) ∈ drawnFor state db es
  chats : ∀ row ∈ s.persisted, ∃ id socket handling, s.sockets id = some socket ∧
    row.Rooted handling socket.identity.tenantId (KnowsFor (drawnFor state db es) s id handling)

theorem Rooted.init (empty : db.messages = []) : Rooted state db [] (start db : Cluster N) where
  ran := rfl
  tasks := by
    intro id socket found
    simp [start] at found
  groups := fun t g c stored _ => .inl ⟨t, g, stored⟩
  chats := by
    intro row mem
    simp [persisted, start, empty] at mem

section RootedStep

variable {es : List (Event N)} {s s' : Cluster N} {e : Event N} (schema : db.Schema)
  (inv : Rooted state db es s) (next : (machine N state).step s e = some s')

include schema inv next

theorem Rooted.knows_step {id : ConnectionId} {handling : Option TextFrame} {fact : Learned}
    (known : KnowsFor (drawnFor state db es) s id handling fact) :
    KnowsFor (drawnFor state db (es ++ [e])) s' id handling fact := by
  cases fact with
  | member t g =>
      rcases known with general | row
      · exact .inl general
      · exact .inr ((stepped next).hasRow (schema_run schema inv.ran) row)
  | drew x =>
      rw [drawnFor, Machine.emitted_snoc inv.ran next]
      exact List.mem_append_left _ known

/-- What an operation taught is known after it. -/
theorem Rooted.knows_of_teaches {id : ConnectionId} {choice : Choice} {socket : Socket N}
    {op : Effect} {later : op.Answer → Handler Unit} (performs : e = .perform id choice)
    (found : s.sockets id = some socket) (task : socket.task = .call op later) {fact : Learned}
    (teaches : op.Teaches (s.perform socket.node choice op).1 fact) :
    KnowsFor (drawnFor state db (es ++ [e])) s' id socket.handling fact := by
  cases op with
  | isUserInGroup t g u =>
      obtain ⟨member, rfl⟩ := teaches
      rcases row_of_member schema inv.ran member with general | row
      · exact .inl general
      · exact .inr ((stepped next).hasRow (schema_run schema inv.ran) row)
  | newV4 =>
      obtain rfl : fact = .drew choice.uuid := teaches
      obtain ⟨n, identity, alive, handling, _⟩ := socket
      obtain rfl := task
      have draws : s.drawsFor e = [((id, handling), choice.uuid)] := by
        rw [performs]
        simp only [drawsFor, found]
      change ((id, handling), choice.uuid) ∈ drawnFor state db (es ++ [e])
      rw [drawnFor, Machine.emitted_snoc inv.ran next, draws]
      exact List.mem_append_right _ (List.mem_singleton_self _)
  | _ => exact teaches.elim

theorem Rooted.tasks_step {id : ConnectionId} {socket : Socket N}
    (found : s'.sockets id = some socket) :
    Handler.Roots socket.handling socket.identity.tenantId
      (KnowsFor (drawnFor state db (es ++ [e])) s' id socket.handling) socket.task := by
  rcases (stepped next).socket found with ⟨_, _, new⟩ | ⟨old, here, _, identity, moved⟩
  · rw [new]
    exact ⟨trivial, fun _ => trivial⟩
  · have before := inv.tasks id old here
    rw [identity]
    rcases moved with ⟨text, _, _, handling, handler⟩ |
      ⟨handling, ⟨choice, op, following, performs, task, later⟩ | ⟨_, ended⟩ | same⟩
    · rw [handler, handling]
      exact roots_handleTextMessage text old.identity state
    · rw [task] at before
      rw [later, handling]
      refine Prog.Informed.mono Effect.Roots.mono ?_ (before.2 _)
      rintro fact (known | taught)
      · exact inv.knows_step schema next known
      · exact inv.knows_of_teaches schema next performs here task taught
    · rw [ended]
      trivial
    · rw [same, handling]
      exact before.mono Effect.Roots.mono fun _ known => inv.knows_step schema next known

/-- A `CREATE` stores a group under an id that was drawn for it. -/
theorem Rooted.groups_step {t g : String} {c : Uuid} (stored : s'.db.GroupStored t g c)
    (unnamed : parseUuid g = none) : (∃ t g, db.GroupStored t g c) ∨
      ∃ id text, (∃ g, text.command = some (.create, g)) ∧
        ((id, some text), c) ∈ drawnFor state db (es ++ [e]) := by
  have old : s.db.GroupStored t g c → (∃ t g, db.GroupStored t g c) ∨
      ∃ id text, (∃ g, text.command = some (.create, g)) ∧
        ((id, some text), c) ∈ drawnFor state db (es ++ [e]) := by
    intro before
    refine (inv.groups t g c before unnamed).imp_right ?_
    rintro ⟨id, text, create, drew⟩
    have known : KnowsFor (drawnFor state db es) s id (some text) (.drew c) := drew
    exact ⟨id, text, create, inv.knows_step schema next known⟩
  rcases (stepped next).groups with same |
    ⟨id, choice, socket, c', t', g', u, later, id', _, found, task, _, upserted⟩
  · exact old ((Database.groupStored_congr same t g c).mp stored)
  · have now := ((schema_run schema inv.ran).groupStored_upsert upserted t g c).mp stored
    split at now
    · rename_i own
      obtain ⟨rfl, rfl⟩ := own
      have roots := inv.tasks id socket found
      rw [task] at roots
      obtain ⟨⟨name, create⟩, drew⟩ := roots.1
      obtain ⟨text, handling, command⟩ := Option.bind_eq_some_iff.mp create
      have known := inv.knows_step schema next (drew unnamed)
      rw [handling, ← now] at known
      exact .inr ⟨id, text, ⟨name, command⟩, known⟩
    · exact old now

/-- What an event persists is rooted. -/
theorem Rooted.chats_step {row : MessageRow} (mem : row ∈ s'.persisted) :
    ∃ id socket handling, s'.sockets id = some socket ∧
      row.Rooted handling socket.identity.tenantId
        (KnowsFor (drawnFor state db (es ++ [e])) s' id handling) := by
  rcases (stepped next).mem_persisted mem with old | new
  · obtain ⟨id, socket, handling, found, rooted⟩ := inv.chats row old
    obtain ⟨socket', there, _, identity, _⟩ := (stepped next).moved found
    refine ⟨id, socket', handling, there, ?_⟩
    rw [identity]
    exact rooted.mono fun _ known => inv.knows_step schema next known
  · obtain ⟨id, choice, socket, op, later, _, found, task, _, writes⟩ := mem_persisting.mp new
    obtain ⟨socket', there, _, identity, _⟩ := (stepped next).moved found
    have roots := inv.tasks id socket found
    rw [task] at roots
    refine ⟨id, socket', socket.handling, there, ?_⟩
    rw [identity]
    cases op with
    | produce topic key msg =>
        obtain rfl := List.mem_singleton.mp writes
        exact MessageRow.Rooted.mono (fun _ known => inv.knows_step schema next known) roots.1
    | insertMessages rows =>
        exact (roots.1 row writes).mono fun _ known => inv.knows_step schema next known
    | _ => exact absurd writes List.not_mem_nil

theorem Rooted.step : Rooted state db (es ++ [e]) s' where
  ran := (Machine.run_snoc _).mpr ⟨s, inv.ran, next⟩
  tasks := fun _ _ found => inv.tasks_step schema next found
  groups := fun _ _ _ stored unnamed => inv.groups_step schema next stored unnamed
  chats := fun _ mem => inv.chats_step schema next mem

end RootedStep

theorem rooted (state : AppState) (schema : db.Schema) (empty : db.messages = [])
    {es : List (Event N)} {s : Cluster N} (ran : (machine N state).run (start db) es = some s) :
    Rooted state db es s := by
  refine Machine.invariant (Rooted.init empty) ?_ ran
  exact fun _ _ _ _ inv next => inv.step schema next

/-! ### The next start -/

section Starts

variable {es : List (Event N)} {s : Cluster N} (inv : Rooted state db es s)
  {row row' : MessageRow} (mem : row ∈ s.persisted)

include inv mem

/-- A group message of a group without a row is one of `general`. -/
theorem Rooted.general_of_unknown (group : row.channelType ≠ ChannelType.dm.debug)
    (unknown : ∀ id, ¬ s.db.GroupStored row.tenantId row.channelId id) :
    row.channelId = "general" := by
  obtain ⟨id, socket, handling, _, rooted⟩ := inv.chats row mem
  rcases rooted.member group with general | ⟨c, stored⟩
  · exact general
  · rw [← rooted.tenant] at stored
    exact absurd stored (unknown c)

/-- Where a group's name is the text of no id, the id of a message to it was drawn. -/
theorem Rooted.mem_drawn (group : row.channelType ≠ ChannelType.dm.debug)
    (unnamed : parseUuid row.channelId = none) :
    row.conversationId ∈ (drawn state db es).map Prod.snd := by
  obtain ⟨id, socket, handling, _, rooted⟩ := inv.chats row mem
  rw [← map_snd_drawnFor]
  exact List.mem_map_of_mem (rooted.drawn group unnamed)

variable (fresh : ((db.groups.map (·.conversationId)) ++ (drawn state db es).map Prod.snd).Nodup)

include fresh

/-- No group of a name that is the text of no id is stored under the id of such a message: the
one is drawn for a `CREATE`, the other for a chat. -/
theorem Rooted.ne_of_unnamed (group : row.channelType ≠ ChannelType.dm.debug)
    (unnamed : parseUuid row.channelId = none) {t g : String} {c : Uuid}
    (stored : s.db.GroupStored t g c) (unnamed' : parseUuid g = none) : c ≠ row.conversationId := by
  rintro rfl
  have drew := inv.mem_drawn mem group unnamed
  obtain ⟨_, once, apart⟩ := List.nodup_append.mp fresh
  rcases inv.groups t g _ stored unnamed' with ⟨t, g, old⟩ | ⟨id, text, ⟨name, create⟩, forCreate⟩
  · obtain ⟨first, there, own⟩ := old.exists_row
    exact apart _ (List.mem_map_of_mem there) _ drew own
  · obtain ⟨id', socket, handling, _, rooted⟩ := inv.chats row mem
    rw [← map_snd_drawnFor] at once
    have same := List.inj_on_of_nodup_map once forCreate (rooted.drawn group unnamed) rfl
    obtain ⟨_, handled⟩ := Prod.mk.inj (Prod.mk.inj same).1
    have chat := rooted.chat
    rw [← handled] at chat
    rw [Option.bind_some, create] at chat
    simp at chat

variable (mem' : row' ∈ s.persisted)

include mem'

/-- Two such messages with one id are of one tenant. -/
theorem Rooted.tenant_eq (group : row.channelType ≠ ChannelType.dm.debug)
    (group' : row'.channelType ≠ ChannelType.dm.debug) (unnamed : parseUuid row.channelId = none)
    (unnamed' : parseUuid row'.channelId = none)
    (conversation : row.conversationId = row'.conversationId) : row.tenantId = row'.tenantId := by
  obtain ⟨id, socket, handling, found, rooted⟩ := inv.chats row mem
  obtain ⟨id', socket', handling', found', rooted'⟩ := inv.chats row' mem'
  have once := (List.nodup_append.mp fresh).2.1
  rw [← map_snd_drawnFor] at once
  have same := List.inj_on_of_nodup_map once (rooted.drawn group unnamed)
    (rooted'.drawn group' unnamed') conversation
  obtain ⟨rfl, _⟩ := Prod.mk.inj (Prod.mk.inj same).1
  obtain rfl := Option.some.inj (found.symm.trans found')
  rw [rooted.tenant, rooted'.tenant]

end Starts

/-- A direct message is none of a group. -/
theorem ne_dm_of_isGroupType {row : MessageRow} (group : isGroupType row.channelType = true) :
    row.channelType ≠ ChannelType.dm.debug := by
  intro dm
  rw [dm] at group
  exact absurd group (by decide)

/-- After any run of any number of nodes over tables without messages, in which groups named by the
text of an id are stored under it, and whichever of the messages that were persisted are in the
table by then: a start goes through, in every order, if the ids that were drawn are new and no group
is named by the text of one of them. -/
theorem starts_again (state : AppState) {db : Database} (schema : db.Schema) (named : db.Named)
    (empty : db.messages = []) {es : List (Event N)} {s : Cluster N}
    (ran : (machine N state).run (start db) es = some s)
    (fresh : ((db.groups.map (·.conversationId)) ++ (drawn state db es).map Prod.snd).Nodup)
    (unused : ∀ group ∈ s.db.groups, ∀ id, parseUuid group.name = some id →
      id ∉ (drawn state db es).map Prod.snd)
    {table : List MessageRow} (within : ∀ row ∈ table, row ∈ s.persisted) :
    ({ s.db with messages := table } : Database).Starts := by
  have inv := rooted state schema empty ran
  have archive := archived state schema named empty ran
  -- A group named by an id is stored under it, and nothing that was drawn is in its conversation.
  have apart : ∀ {t g c x row}, s.db.GroupStored t g c → parseUuid g = some x → row ∈ s.persisted →
      isGroupType row.channelType = true → parseUuid row.channelId = none →
        c ≠ row.conversationId := by
    rintro t g c x row stored text mem group unnamed rfl
    have own := archive.named t g _ x stored text
    obtain ⟨first, there, _, rfl, _⟩ := stored
    refine unused first there x text ?_
    rw [← own]
    exact inv.mem_drawn mem (ne_dm_of_isGroupType group) unnamed
  -- A message of a group named by an id is in the conversation of that group's row.
  have stored : ∀ {row x}, row ∈ s.persisted → isGroupType row.channelType = true →
      parseUuid row.channelId = some x →
        s.db.GroupStored row.tenantId row.channelId row.conversationId := by
    intro row x mem group text
    have source : row.source = .name x := by
      unfold MessageRow.source
      rw [if_neg (ne_dm_of_isGroupType group), text]
    have id := archive.id_eq mem
    rw [source] at id
    rw [id]
    exact archive.groupStored mem source
  have general : ∀ {row}, row ∈ ({ s.db with messages := table } : Database).unknownGroups →
      row ∈ s.persisted ∧ isGroupType row.channelType = true ∧ row.channelId = "general" := by
    intro row unknown
    obtain ⟨mem, group, new⟩ := Database.mem_unknownGroups.mp unknown
    exact ⟨within row mem, group,
      inv.general_of_unknown (within row mem) (ne_dm_of_isGroupType group) new⟩
  have noText : parseUuid "general" = none := by decide
  refine Database.Startable.starts ⟨?_, ?_, ?_⟩
  · intro row unknown first there same
    obtain ⟨mem, group, channel⟩ := general unknown
    have unnamed : parseUuid row.channelId = none := channel ▸ noText
    have here : s.db.GroupStored first.tenantId first.name first.conversationId :=
      ⟨first, there, rfl, rfl, rfl⟩
    cases text : parseUuid first.name with
    | none =>
        exact inv.ne_of_unnamed mem fresh (ne_dm_of_isGroupType group) unnamed here text same
    | some x => exact apart here text mem group unnamed same
  · intro row unknown other unknown' same
    obtain ⟨mem, group, channel⟩ := general unknown
    obtain ⟨mem', group', channel'⟩ := general unknown'
    refine ⟨?_, channel.trans channel'.symm⟩
    exact inv.tenant_eq mem fresh mem' (ne_dm_of_isGroupType group) (ne_dm_of_isGroupType group')
      (channel ▸ noText) (channel' ▸ noText) same
  · intro row mem other mem' group group' conversation _ _ _
    have here := within row mem
    have there := within other mem'
    cases text : parseUuid row.channelId with
    | none =>
        cases text' : parseUuid other.channelId with
        | none =>
            exact inv.tenant_eq here fresh there (ne_dm_of_isGroupType group)
              (ne_dm_of_isGroupType group') text text' conversation
        | some x =>
            exact absurd conversation.symm (apart (stored there group' text') text' here group text)
    | some x =>
        cases text' : parseUuid other.channelId with
        | none => exact absurd conversation (apart (stored here group text) text there group' text')
        | some y =>
            have first := stored here group text
            rw [conversation] at first
            exact ((schema_run schema ran).name_unique (stored there group' text') first).1

/-- A user says something in `general`, in a conversation with a drawn id, and creates the groups
with the names given. -/
def gossip (names : List String) : List (Event Unit) :=
  let performs (uuids : List Uuid) : List (Event Unit) :=
    uuids.map fun uuid => .perform 1 ⟨7, uuid, true, 7⟩
  let creates (name : String) : List (Event Unit) :=
    [.frame 1 ⟨some ⟨.create, "acme", name, "ada"⟩, none⟩] ++ performs [2, 3, 4, 6, 7, 8, 9]
  [.connect 1 () ⟨"acme", "ada"⟩, .perform 1 ⟨7, 1, true, 7⟩,
    .frame 1 ⟨none, some ⟨.group, "general", "hi"⟩⟩] ++ performs [20, 21, 22, 5, 24, 25] ++
    names.flatMap creates

theorem starts_again_general :
    let state : AppState := ⟨false, fun _ => 0⟩
    ∃ s, (machine Unit state).run (start ⟨[], [], []⟩) (gossip []) = some s ∧
      s.persisted.length = 1 ∧
      ({ s.db with messages := s.persisted } : Database).Starts := by
  intro state
  obtain ⟨s, ran, one, none⟩ : ∃ s ∈ (machine Unit state).run (start ⟨[], [], []⟩) (gossip []),
      s.persisted.length = 1 ∧ s.db.groups = [] := by decide
  refine ⟨s, ran, one, ?_⟩
  refine starts_again state (.empty []) .empty rfl ran (by decide) ?_ fun _ mem => mem
  intro group mem
  rw [none] at mem
  exact absurd mem List.not_mem_nil

/-- A group that is named by the id of a message in `general` keeps the server from starting. -/
example : let state : AppState := ⟨false, fun _ => 0⟩
    ∃ s, (machine Unit state).run (start ⟨[], [], []⟩)
        (gossip ["00000000-0000-0000-0000-000000000005"]) = some s ∧
      ¬ ({ s.db with messages := s.persisted } : Database).Starts := by
  intro state
  obtain ⟨s, ran, row, unknown, group, stored, same⟩ :
      ∃ s ∈ (machine Unit state).run (start ⟨[], [], []⟩)
        (gossip ["00000000-0000-0000-0000-000000000005"]),
        ∃ row ∈ ({ s.db with messages := s.persisted } : Database).unknownGroups,
          ∃ group ∈ s.db.groups, group.conversationId = row.conversationId := by decide
  exact ⟨s, ran, fun starts => starts.free unknown stored same⟩

end Cluster

end YappaCore
