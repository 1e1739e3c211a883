import YappaCore.Server.Cluster

/-!
The conversation ids of group messages, over any run of any number of nodes.

Four handlers put an id into a message: `JOIN` looks it up, `CREATE` gets it from its insert,
`LEAVE` and chats compute it from the name of the group. `Traced` is the invariant over the
tables, the handlers and the messages sent so far; `one_conversation` is what it gives when no
`LEAVE`, chat or `CREATE` of the run names a group by another id than the stored one.
-/

namespace YappaCore

open Lib Handler

/-! ### Where an id comes from -/

/-- The group that a `LEAVE` or a group chat names. -/
def TextFrame.named (text : TextFrame) : Option String :=
  match text.command with
  | some (.leave, g) => some g
  | some _ => none
  | none => text.wsMessage.bind fun payload =>
      if payload.channelType = .dm then none else some payload.userId

/-- If the name of its group is the text of an id, the message carries that id. -/
def ServerMessage.FromName (msg : ServerMessage) : Prop :=
  ∀ id, parseUuid msg.channelId = some id → msg.conversationId = id

namespace Effect

/-- A statement answers the id that a group is stored under: its tenant, its name, its id. -/
def Tells : (op : Effect) → op.Answer → String × String × Uuid → Prop
  | .selectGroup t g, answer, fact => ∃ id : Uuid, some id = answer ∧ fact = (t, g, id)
  | .upsertGroup _ t g _, answer, fact => ∃ id : Uuid, some id = answer ∧ fact = (t, g, id)
  | _, _, _ => False

/-- The ids that a handler uses: a `LEAVE` or chat and an insert use the one that the name is the
text of, if it is one; other group messages carry one that is known to be the stored one. -/
def Sourced (handling : Option TextFrame) (t : String) (known : String × String × Uuid → Prop) :
    Effect → Prop
  | .publish _ msg => msg.channelType ≠ .dm → msg.tenantId = t ∧
      (handling.bind TextFrame.named = some msg.channelId ∧ msg.FromName ∨
        known (t, msg.channelId, msg.conversationId))
  | .upsertGroup id _ g _ => ∀ x, parseUuid g = some x → id = x
  | _ => True

theorem Sourced.mono {handling : Option TextFrame} {t : String}
    (K K' : String × String × Uuid → Prop) (op : Effect) (more : ∀ fact, K fact → K' fact)
    (sourced : op.Sourced handling t K) : op.Sourced handling t K' := by
  cases op with
  | publish channel msg =>
      intro group
      obtain ⟨tenant, named | known⟩ := sourced group
      · exact ⟨tenant, .inl named⟩
      · exact ⟨tenant, .inr (more _ known)⟩
  | _ => exact sourced

end Effect

namespace Handler

/-- A handler all of whose ids have a source. -/
def Sourced (handling : Option TextFrame) (t : String) (known : String × String × Uuid → Prop)
    (task : Handler Unit) : Prop :=
  task.Informed Effect.Tells (Effect.Sourced handling t) known

section Handlers

variable {text : TextFrame} {state : AppState} {identity : Identity} {g : String}
  {known : String × String × Uuid → Prop}

/-- What follows a computed id knows what it was computed from. -/
theorem sourced_parseOrNew {handling : Option TextFrame} {t : String} {f : Uuid → Handler Unit}
    (rest : ∀ id, (∀ x, parseUuid g = some x → id = x) → ∀ known, Sourced handling t known (f id)) :
    Sourced handling t known (parseOrNew g >>= f) := by
  unfold parseOrNew
  cases parsed : parseUuid g with
  | some id =>
      apply rest id
      intro x same
      exact Option.some.inj (parsed.symm.trans same)
  | none =>
      refine ⟨trivial, fun id => ?_⟩
      apply rest id
      intro x same
      simp [parsed] at same

theorem sourced_join : Sourced (some text) identity.tenantId known (handleJoin identity g) := by
  rw [handleJoin_eq]
  refine ⟨trivial, fun found => ?_⟩
  cases found with
  | none => trivial
  | some id =>
      refine ⟨trivial, fun _ => ⟨trivial, fun _ => ⟨trivial, fun _ => ⟨trivial, fun _ =>
        ⟨fun _ => ⟨rfl, .inr ?_⟩, fun _ => trivial⟩⟩⟩⟩⟩
      exact .inl (.inl (.inl (.inl (.inr ⟨id, rfl, rfl⟩))))

theorem sourced_leave (leave : text.command = some (.leave, g)) :
    Sourced (some text) identity.tenantId known (handleLeave identity g) := by
  have named : text.named = some g := by
    unfold TextFrame.named
    rw [leave]
  rw [handleLeave_eq]
  apply sourced_parseOrNew
  intro id fromName known
  exact ⟨trivial, fun _ => ⟨trivial, fun _ => ⟨trivial, fun _ => ⟨trivial, fun _ =>
    ⟨fun _ => ⟨rfl, .inl ⟨named, fromName⟩⟩, fun _ => trivial⟩⟩⟩⟩⟩

theorem sourced_create : Sourced (some text) identity.tenantId known (handleCreate identity g) := by
  rw [handleCreate_eq]
  apply sourced_parseOrNew
  intro id fromName known
  refine ⟨fromName, fun created => ?_⟩
  cases created with
  | none => trivial
  | some id =>
      refine ⟨trivial, fun _ => ⟨trivial, fun _ => ⟨trivial, fun _ => ⟨trivial, fun _ =>
        ⟨trivial, fun _ => ⟨fun _ => ⟨rfl, .inr ?_⟩, fun _ => trivial⟩⟩⟩⟩⟩⟩
      exact .inl (.inl (.inl (.inl (.inl (.inr ⟨id, rfl, rfl⟩)))))

theorem sourced_persistMessage (handling : Option TextFrame) (t : String) (msg : ServerMessage) :
    Sourced handling t known (persistMessage state msg) := by
  rw [persistMessage_eq]
  split
  · exact ⟨trivial, fun _ => trivial⟩
  · exact ⟨trivial, fun _ => trivial⟩

theorem sourced_dm {payload : WsMessage} (dm : payload.channelType = .dm) :
    Sourced (some text) identity.tenantId known (handleDm state identity payload) := by
  rw [handleDm_eq]
  exact ⟨trivial, fun _ => ⟨trivial, fun _ => ⟨fun group => absurd dm group, fun _ =>
    ⟨fun group => absurd dm group, fun _ => sourced_persistMessage _ _ _⟩⟩⟩⟩

theorem sourced_groupChat {payload : WsMessage} (named : text.named = some payload.userId) :
    Sourced (some text) identity.tenantId known (handleGroupChat state identity payload) := by
  rw [handleGroupChat_eq]
  refine ⟨trivial, fun member => ?_⟩
  cases member with
  | false => exact ⟨trivial, fun _ => trivial⟩
  | true =>
      refine ⟨trivial, fun _ => ⟨trivial, fun _ => ?_⟩⟩
      apply sourced_parseOrNew
      intro id fromName known
      exact ⟨fun _ => ⟨rfl, .inl ⟨named, fromName⟩⟩, fun _ => sourced_persistMessage _ _ _⟩

/-- The ids that the handler of a frame uses have a source. -/
theorem sourced_handleTextMessage (text : TextFrame) (identity : Identity) (state : AppState) :
    Sourced (some text) identity.tenantId known (handleTextMessage text identity state) := by
  cases command : text.command with
  | some pair =>
      obtain ⟨kind, g⟩ := pair
      rw [handleTextMessage_command text identity state command]
      cases kind with
      | join => exact sourced_join
      | leave => exact sourced_leave command
      | create => exact sourced_create
      | delete => exact ⟨trivial, fun _ => trivial⟩
  | none =>
      have noGroup : text.groupMessage = none := by
        simpa [TextFrame.command] using command
      unfold handleTextMessage
      rw [noGroup]
      cases chat : text.wsMessage with
      | none => trivial
      | some payload =>
          have named : payload.channelType ≠ .dm → text.named = some payload.userId := by
            intro group
            unfold TextFrame.named
            rw [command, chat]
            exact if_neg group
          simp only
          split
          · exact ⟨trivial, fun _ => trivial⟩
          · cases type : payload.channelType with
            | dm => exact sourced_dm type
            | group => exact sourced_groupChat (named (by simp [type]))
            | community => exact sourced_groupChat (named (by simp [type]))

end Handlers

end Handler

namespace Cluster

variable {N : Type} [DecidableEq N] {state : AppState}

/-! ### The record of what was sent -/

/-- The group message that an event hands to Redis. -/
def sent (s : Cluster N) : Event N → List ServerMessage
  | .perform id _ =>
      match s.sockets id with
      | some ⟨_, _, _, _, .call (.publish _ msg) _⟩ => if msg.channelType = .dm then [] else [msg]
      | _ => []
  | _ => []

/-- The cluster with the group messages that were sent. -/
abbrev recorded (N : Type) [DecidableEq N] (state : AppState) :
    Machine (Cluster N × List ServerMessage) (Event N) :=
  (machine N state).recording sent

/-- If the group is stored, its name is the text of its id. -/
def NamesRow (db : Database) (t g : String) : Prop := ∀ id ∈ db.idsOf t g, parseUuid g = some id

instance (db : Database) (t g : String) : Decidable (NamesRow db t g) :=
  List.decidableBAll (fun id => parseUuid g = some id) (db.idsOf t g)

/-- An event names no group by an id that is not its own: a `LEAVE` or chat of a stored group is
sent only if the group's name is the text of its id; a `CREATE` is stored only if that holds, or
the group is new and its name is the text of an id, or nothing was sent to it. -/
def namesRows (p : Cluster N × List ServerMessage) : Event N → Bool
  | .perform id choice =>
      match p.1.sockets id with
      | some ⟨_, identity, _, handling, .call (.publish _ _) _⟩ =>
          match handling.bind TextFrame.named with
          | some g => NamesRow p.1.db identity.tenantId g
          | none => true
      | some ⟨_, _, _, _, .call (.upsertGroup c t g u) _⟩ =>
          !(choice.ok && (p.1.db.upsertGroup c t g u choice.dbTime).isSome) ||
            (NamesRow p.1.db t g && (p.1.db.idsOf t g ≠ [] || (parseUuid g).isSome ||
              p.2.all fun msg => ¬ (msg.tenantId = t ∧ msg.channelId = g)))
      | _ => true
  | _ => true

/-- After a run: what was sent to a stored group carries the stored id, and the handlers will
send no other. -/
structure Traced (p : Cluster N × List ServerMessage) : Prop where
  schema : p.1.db.Schema
  tasks : ∀ id socket, p.1.sockets id = some socket →
    Handler.Sourced socket.handling socket.identity.tenantId
      (fun fact => p.1.db.GroupStored fact.1 fact.2.1 fact.2.2) socket.task
  carries : ∀ msg ∈ p.2, ∀ c, p.1.db.GroupStored msg.tenantId msg.channelId c →
    msg.conversationId = c
  fromName : ∀ msg ∈ p.2, (∀ c, ¬ p.1.db.GroupStored msg.tenantId msg.channelId c) → msg.FromName

section Step

variable {p q : Cluster N × List ServerMessage} {e : Event N} {id : ConnectionId}
  {choice : Choice} {socket : Socket N}

omit [DecidableEq N] in
theorem namesRow_of_publish (ok : namesRows p (.perform id choice) = true)
    (found : p.1.sockets id = some socket) {channel : String} {msg : ServerMessage}
    {next : Bool → Handler Unit} (task : socket.task = .call (.publish channel msg) next)
    {g : String} (named : socket.handling.bind TextFrame.named = some g) :
    NamesRow p.1.db socket.identity.tenantId g := by
  obtain ⟨n, identity, alive, handling, rest⟩ := socket
  subst task
  simp only [namesRows, found] at ok
  simp only at named
  simpa only [named, decide_eq_true_eq] using ok

omit [DecidableEq N] in
theorem namesRow_of_upsert (ok : namesRows p (.perform id choice) = true)
    (found : p.1.sockets id = some socket) {c c' : Uuid} {t g u : String} {db : Database}
    {next : Option Uuid → Handler Unit} (task : socket.task = .call (.upsertGroup c t g u) next)
    (goes : choice.ok = true)
    (upserted : p.1.db.upsertGroup c t g u choice.dbTime = some (c', db)) :
    NamesRow p.1.db t g ∧ ((∀ x, ¬ p.1.db.GroupStored t g x) → (∃ x, parseUuid g = some x) ∨
      ∀ msg ∈ p.2, ¬ (msg.tenantId = t ∧ msg.channelId = g)) := by
  obtain ⟨n, identity, alive, handling, rest⟩ := socket
  subst task
  simp only [namesRows, found, goes, upserted] at ok
  simp only [Option.isSome_some, Bool.and_self, Bool.not_true, Bool.false_or, Bool.and_eq_true,
    decide_eq_true_eq, Bool.or_eq_true, List.all_eq_true, Option.isSome_iff_exists] at ok
  refine ⟨ok.1, fun none => ?_⟩
  rcases ok.2 with (stored | text) | silent
  · obtain ⟨x, mem⟩ := List.exists_mem_of_ne_nil _ stored
    exact absurd (Database.mem_idsOf.mp mem) (none x)
  · exact .inl text
  · exact .inr silent

/-- What an operation tells is so after it. -/
theorem stored_of_tells {s : Cluster N} (schema : s.db.Schema) {n : N} {op : Effect}
    {fact : String × String × Uuid} (tells : op.Tells (s.perform n choice op).1 fact) :
    (s.perform n choice op).2.db.GroupStored fact.1 fact.2.1 fact.2.2 := by
  cases op with
  | selectGroup t g =>
      obtain ⟨c, answer, rfl⟩ := tells
      have unchanged := db_perform s n choice (.selectGroup t g)
      rw [Database.groupStored_congr (congrArg Database.groups unchanged)]
      exact Database.exists_of_selectGroup (selected_of_answer s n choice answer.symm)
  | upsertGroup c t g u =>
      obtain ⟨c', answer, rfl⟩ := tells
      obtain ⟨_, upserted⟩ := upserted_of_answer s n choice answer.symm
      obtain ⟨rfl, _⟩ := Database.upsertGroup_cases upserted
      apply (schema.groupStored_upsert upserted t g _).mpr
      rw [if_pos ⟨rfl, rfl⟩]
  | _ => exact tells.elim

variable (inv : Traced p) (h : Stepped state p.1 e q.1) (ok : namesRows p e = true)

include inv h ok

/-- The id of a stored group stays. -/
theorem Traced.stays {t g : String} {c : Uuid} (stored : p.1.db.GroupStored t g c) :
    q.1.db.GroupStored t g c := by
  rcases h.groups with same |
    ⟨id, choice, socket, x, t', g', u, next, x', rfl, found, task, goes, upserted⟩
  · exact (Database.groupStored_congr same t g c).mpr stored
  · apply (inv.schema.groupStored_upsert upserted t g c).mpr
    split
    · rename_i own
      obtain ⟨rfl, rfl⟩ := own
      have names := (namesRow_of_upsert ok found task goes upserted).1
      have sourced := inv.tasks id socket found
      rw [task] at sourced
      exact (sourced.1 c (names c (Database.mem_idsOf.mpr stored))).symm
    · exact stored

theorem Traced.tasks_step {socket : Socket N} (found : q.1.sockets id = some socket) :
    Handler.Sourced socket.handling socket.identity.tenantId
      (fun fact => q.1.db.GroupStored fact.1 fact.2.1 fact.2.2) socket.task := by
  have stays : ∀ fact : String × String × Uuid, p.1.db.GroupStored fact.1 fact.2.1 fact.2.2 →
      q.1.db.GroupStored fact.1 fact.2.1 fact.2.2 := fun _ stored => inv.stays h ok stored
  rcases h.socket found with ⟨_, _, new⟩ | ⟨old, here, _, identity, moved⟩
  · rw [new]
    exact ⟨trivial, fun _ => trivial⟩
  · rw [identity]
    rcases moved with ⟨text, _, _, handling, handler⟩ | ⟨handling, moved⟩
    · rw [handling, handler]
      exact sourced_handleTextMessage text old.identity state
    · have before := inv.tasks id old here
      rw [handling]
      rcases moved with ⟨choice, op, next, rfl, task, later⟩ | ⟨_, ended⟩ | same
      · have after : q.1.db = (p.1.perform old.node choice op).2.db :=
          congrArg (·.db) (h.performed rfl here task)
        rw [task] at before
        rw [later]
        apply Prog.Informed.mono Effect.Sourced.mono ?_ (before.2 _)
        rintro fact (known | told)
        · exact stays fact known
        · rw [after]
          exact stored_of_tells inv.schema told
      · rw [ended]
        trivial
      · rw [same]
        exact before.mono Effect.Sourced.mono stays

/-- What was sent before carries the id that its group is stored under now. -/
theorem Traced.carries_step {msg : ServerMessage} (mem : msg ∈ p.2) {c : Uuid}
    (stored : q.1.db.GroupStored msg.tenantId msg.channelId c) : msg.conversationId = c := by
  rcases h.groups with same |
    ⟨id, choice, socket, x, t, g, u, next, x', rfl, found, task, goes, upserted⟩
  · exact inv.carries msg mem c ((Database.groupStored_congr same _ _ c).mp stored)
  · have now := (inv.schema.groupStored_upsert upserted _ _ c).mp stored
    split at now
    · rename_i own
      subst now
      obtain ⟨names, new⟩ := namesRow_of_upsert ok found task goes upserted
      have sourced := inv.tasks id socket found
      rw [task] at sourced
      by_cases before : ∃ y, p.1.db.GroupStored t g y
      · obtain ⟨y, there⟩ := before
        rw [sourced.1 y (names y (Database.mem_idsOf.mpr there))]
        apply inv.carries msg mem y
        rw [own.1, own.2]
        exact there
      · have none : ∀ y, ¬ p.1.db.GroupStored t g y := fun y there => before ⟨y, there⟩
        rcases new none with ⟨y, text⟩ | silent
        · rw [sourced.1 y text]
          apply inv.fromName msg mem
          · rw [own.1, own.2]
            exact none
          · rw [own.2]
            exact text
        · exact absurd own (silent msg mem)
    · exact inv.carries msg mem c now

/-- What an event sends carries the stored id, or the one that its group's name is the text of. -/
theorem Traced.sent_step {msg : ServerMessage} (mem : msg ∈ p.1.sent e) :
    (∀ c, q.1.db.GroupStored msg.tenantId msg.channelId c → msg.conversationId = c) ∧
      ((∀ c, ¬ q.1.db.GroupStored msg.tenantId msg.channelId c) → msg.FromName) := by
  cases e with
  | perform id choice =>
      simp only [sent] at mem
      split at mem
      · rename_i n identity alive handling channel message next found
        have after := h.performed rfl found rfl
        have unchanged : q.1.db = p.1.db := by
          rw [after]
          exact db_perform p.1 n choice (.publish channel message)
        split at mem
        · simp at mem
        · rename_i group
          obtain rfl := List.mem_singleton.mp mem
          obtain ⟨tenant, sourced⟩ := (inv.tasks id _ found).1 group
          rw [unchanged, tenant]
          rcases sourced with ⟨named, fromName⟩ | known
          · refine ⟨fun c stored => ?_, fun _ => fromName⟩
            have names := namesRow_of_publish ok found rfl named
            exact fromName c (names c (Database.mem_idsOf.mpr stored))
          · exact ⟨fun c stored => inv.schema.id_unique known stored, fun none =>
              absurd known (none _)⟩
      · simp at mem
  | _ => simp [sent] at mem

theorem Traced.step (record : q.2 = p.2 ++ p.1.sent e) : Traced q where
  schema := h.schema inv.schema
  tasks := fun _ _ found => inv.tasks_step h ok found
  carries := by
    intro msg mem c stored
    rw [record] at mem
    rcases List.mem_append.mp mem with old | new
    · exact inv.carries_step h ok old stored
    · exact (inv.sent_step h ok new).1 c stored
  fromName := by
    intro msg mem none
    rw [record] at mem
    rcases List.mem_append.mp mem with old | new
    · exact inv.fromName msg old fun c stored => none c (inv.stays h ok stored)
    · exact (inv.sent_step h ok new).2 none

end Step

omit [DecidableEq N] in
theorem Traced.init {db : Database} (schema : db.Schema) : Traced ((start db : Cluster N), []) where
  schema := schema
  tasks := fun _ _ found => nomatch found
  carries := fun _ mem => nomatch mem
  fromName := fun _ mem => nomatch mem

/-- In every run of any number of nodes in which no event names a group by an id that is not
its own, every message sent to a stored group carries the stored id, so that any two messages
of a stored group carry the same. -/
theorem one_conversation (state : AppState) {db : Database} (schema : db.Schema)
    {es : List (Event N)} {s : Cluster N} {record : List ServerMessage}
    (ran : (recorded N state).run (start db, []) es = some (s, record))
    (names : (recorded N state).Steps (fun p e => namesRows p e = true) (start db, []) es) :
    (∀ msg ∈ record, ∀ c, s.db.GroupStored msg.tenantId msg.channelId c →
      msg.conversationId = c) ∧
    ∀ msg ∈ record, ∀ msg' ∈ record, msg'.tenantId = msg.tenantId →
      msg'.channelId = msg.channelId → (∃ c, s.db.GroupStored msg.tenantId msg.channelId c) →
      msg'.conversationId = msg.conversationId := by
  have inv : Traced (s, record) := by
    apply Machine.invariant_steps (Traced.init schema) ?_ ran names
    intro p e q inv ok next
    obtain ⟨stepped', grown⟩ := Machine.step_recording next
    exact inv.step (stepped stepped') ok grown
  refine ⟨inv.carries, ?_⟩
  rintro msg mem msg' mem' tenant group ⟨c, stored⟩
  rw [inv.carries msg mem c stored]
  apply inv.carries msg' mem' c
  rw [tenant, group]
  exact stored

/-- Two users join a team, and the two notices carry one id. -/
theorem one_conversation_joins :
    let state : AppState := ⟨true, fun _ => 0⟩
    let db : Database := ⟨[], [⟨5, "acme", "team", "ada", 0⟩], []⟩
    let join (id : ConnectionId) (u : String) : List (Event Unit) :=
      [.connect id () ⟨"acme", u⟩, .perform id ⟨7, 9, true, 7⟩,
        .frame id ⟨some ⟨.join, "acme", "team", u⟩, none⟩] ++
      List.replicate 6 (.perform id ⟨7, 9, true, 7⟩)
    ∃ s record, (recorded Unit state).run (start db, []) (join 1 "bob" ++ join 2 "eve") =
        some (s, record) ∧ record.length = 2 ∧
      ∀ msg ∈ record, ∀ c, s.db.GroupStored msg.tenantId msg.channelId c →
        msg.conversationId = c := by
  intro state db join
  obtain ⟨⟨s, record⟩, ran, two⟩ :
      ∃ p ∈ (recorded Unit state).run (start db, []) (join 1 "bob" ++ join 2 "eve"),
        p.2.length = 2 := by decide
  have schema : db.Schema := by constructor <;> simp [db, Storable]
  exact ⟨s, record, ran, two, (one_conversation state schema ran (by decide)).1⟩

/-- The answers that the environment gave in a run. -/
def choicesOf (es : List (Event N)) : List Choice :=
  es.filterMap fun e =>
    match e with
    | .perform _ choice => some choice
    | _ => none

/-- A chat to a team that was created under its name: everything goes through and no id is
drawn twice, and the chat carries an id of its own. -/
theorem chat_carries_new_id :
    ¬ ∀ (state : AppState) (es : List (Event Unit)) (s : Cluster Unit)
      (record : List ServerMessage),
      (recorded Unit state).run (start ⟨[], [], []⟩, []) es = some (s, record) →
      (∀ choice ∈ choicesOf es, choice.ok = true) → ((choicesOf es).map (·.uuid)).Nodup →
      ∀ msg ∈ record, ∀ c, s.db.GroupStored msg.tenantId msg.channelId c →
        msg.conversationId = c := by
  intro always
  let state : AppState := ⟨true, fun _ => 0⟩
  let perform (i : Nat) : Event Unit := .perform 1 ⟨7, BitVec.ofNat 128 i, true, 7⟩
  let es : List (Event Unit) :=
    [.connect 1 () ⟨"acme", "bob"⟩, perform 1,
      .frame 1 ⟨some ⟨.create, "acme", "team", "bob"⟩, none⟩] ++ (List.range' 2 8).map perform ++
    [.frame 1 ⟨none, some ⟨.group, "team", "hi"⟩⟩] ++ (List.range' 10 6).map perform
  obtain ⟨⟨s, record⟩, ran, stored, msg, mem, tenant, group, other⟩ :
      ∃ p ∈ (recorded Unit state).run (start ⟨[], [], []⟩, []) es,
        2 ∈ p.1.db.idsOf "acme" "team" ∧ ∃ msg ∈ p.2, msg.tenantId = "acme" ∧
          msg.channelId = "team" ∧ msg.conversationId ≠ 2 := by decide
  apply other
  apply always state es s record ran (by decide) (by decide) msg mem
  rw [tenant, group]
  exact Database.mem_idsOf.mp stored

end Cluster

end YappaCore
