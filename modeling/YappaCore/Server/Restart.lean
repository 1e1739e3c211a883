import YappaCore.Db.Migrations
import YappaCore.Server.Durability
import YappaCore.Server.Persisted

/-!
Restarts of servers over the tables that their users leave behind.

The migrations of a start list every sender of a group message in the conversation of the message.
A `LEAVE` takes a row out of `group_members` and no message out of `messages`, so the next start
can list the user again: `restart_keeps_left_iff` says when it does not. A second start in a row
changes nothing.
-/

namespace YappaCore

open Lib Handler

namespace Database

/-- A user has a row in the conversation of a group. -/
def Listed (db : Database) (t g u : String) : Prop :=
  ∃ group ∈ db.groups, (group.tenantId = t ∧ group.name = g) ∧
    ∃ row ∈ db.groupMembers, row.conversationId = group.conversationId ∧ row.userId = u

instance (db : Database) (t g u : String) : Decidable (db.Listed t g u) := by
  unfold Listed; infer_instance

theorem listed_iff {db : Database} {t g u : String} :
    db.Listed t g u ↔ ∃ id, db.GroupStored t g id ∧ db.MemberStored id u := by
  unfold Listed GroupStored MemberStored
  constructor
  · rintro ⟨group, mem, ⟨tenant, name⟩, listed⟩
    exact ⟨group.conversationId, ⟨group, mem, tenant, name, rfl⟩, listed⟩
  · rintro ⟨_, ⟨group, mem, tenant, name, rfl⟩, listed⟩
    exact ⟨group, mem, ⟨tenant, name⟩, listed⟩

/-- There is a row of a user in the conversation of a group that was not there before. -/
def Adds (db db' : Database) (t g u : String) : Prop :=
  ∃ row ∈ db'.groupMembers, row ∉ db.groupMembers ∧ row.userId = u ∧
    db'.GroupStored t g row.conversationId

/-- Another start changes neither table. -/
def Settled (db : Database) : Prop :=
  ∀ groups members db', db.migrate groups members = some db' →
    db'.groups = db.groups ∧ db'.groupMembers = db.groupMembers

end Database

namespace Cluster

variable {N : Type} [DecidableEq N]

/-- A node starts anew over tables: its connections and what its listener had yet to handle are
gone. -/
def restarted (s : Cluster N) (n : N) (db : Database) : Cluster N where
  nodes := Function.update s.nodes n ((start db).nodes n)
  streams := Function.update s.streams n []
  sockets := fun id => (s.sockets id).map fun socket =>
    if socket.node = n then { socket with alive := false, task := .ret () } else socket
  db
  kafka := s.kafka

/-- The constraints of the table of messages last. -/
theorem Stepped.insertable {state : AppState} {s s' : Cluster N} {e : Event N}
    (h : Stepped state s e s') (insertable : Insertable [] s.db.messages) :
    Insertable [] s'.db.messages := by
  rcases h.db with same | ⟨_, choice, socket, op, _, _, _, _, after⟩
  · exact same ▸ insertable
  · rw [after]
    rcases messages_perform s socket.node choice op with same | ⟨rows, _, _, inserted⟩
    · exact same ▸ insertable
    · exact insertable_insertMessages insertable inserted

end Cluster

namespace Restart

variable {N : Type} [DecidableEq N]

/-! ### Runs -/

/-- The nodes, and the tenant, group and user of every last command that was a `LEAVE` and took
the user's row of the group out. -/
structure State (N : Type) where
  cluster : Cluster N
  left : String → String → String → Bool

/-- An event of the nodes, the consumer inserts messages, or a node starts again; its migrations
go through the first messages that are given. -/
inductive Event (N : Type) where
  | cluster (e : Cluster.Event N)
  | persist (messages : List ServerMessage)
  | restart (n : N) (groups members : List MessageRow)

/-- The connection is one of the user. -/
def isOf (s : Cluster N) (id : ConnectionId) (t u : String) : Bool :=
  (s.sockets id).any fun socket => socket.identity = ⟨t, u⟩

/-- The connection's handler is at work on a `LEAVE` of the group. -/
def leaves (s : Cluster N) (id : ConnectionId) (g : String) : Bool :=
  (s.sockets id).any fun socket => socket.handling.bind TextFrame.command = some (.leave, g)

/-- A new command of the user for the group comes in, or a `LEAVE` takes the row out. -/
def leftAfter (s s' : Cluster N) (left : String → String → String → Bool) :
    Cluster.Event N → String → String → String → Bool
  | .frame id text => fun t g u =>
      left t g u && !(isOf s id t u && text.command.any fun command => command.2 = g)
  | .perform id _ => fun t g u =>
      left t g u || isOf s id t u && leaves s id g &&
        decide (s.db.Listed t g u ∧ ¬ s'.db.Listed t g u)
  | _ => left

def step (state : AppState) (s : State N) : Event N → Option (State N)
  | .cluster e => ((Cluster.machine N state).step s.cluster e).map fun cluster =>
      ⟨cluster, leftAfter s.cluster cluster s.left e⟩
  | .persist messages =>
      (insertMessages s.cluster.db.messages (messages.map ServerMessage.row)).map fun table =>
        { s with cluster := { s.cluster with db := { s.cluster.db with messages := table } } }
  | .restart n groups members => (s.cluster.db.migrate groups members).map fun db =>
      { s with cluster := s.cluster.restarted n db }

def machine (N : Type) [DecidableEq N] (state : AppState) : Machine (State N) (Event N) :=
  ⟨step state⟩

def start (db : Database) : State N := ⟨Cluster.start db, fun _ _ _ => false⟩

/-- A user who left has left a group with a row. -/
structure LeftRows (s : State N) : Prop where
  schema : s.cluster.db.Schema
  insertable : Insertable [] s.cluster.db.messages
  row : ∀ t g u, s.left t g u = true → s.cluster.HasRow t g

theorem leftRows_step {state : AppState} {s s' : State N} {e : Event N} (inv : LeftRows s)
    (next : (machine N state).step s e = some s') : LeftRows s' := by
  cases e with
  | cluster e =>
      obtain ⟨cluster, moved, rfl⟩ := Option.map_eq_some_iff.mp next
      have h := Cluster.stepped moved
      refine ⟨h.schema inv.schema, h.insertable inv.insertable, fun t g u left =>
        h.hasRow inv.schema ?_⟩
      cases e with
      | frame id text =>
          obtain ⟨before, _⟩ := Bool.and_eq_true_iff.mp left
          exact inv.row t g u before
      | perform id choice =>
          rcases Bool.or_eq_true_iff.mp left with before | now
          · exact inv.row t g u before
          · obtain ⟨_, taken⟩ := Bool.and_eq_true_iff.mp now
            obtain ⟨c, stored, _⟩ := Database.listed_iff.mp (of_decide_eq_true taken).1
            exact ⟨c, stored⟩
      | _ => exact inv.row t g u left
  | persist messages =>
      obtain ⟨table, inserted, rfl⟩ := Option.map_eq_some_iff.mp next
      exact ⟨inv.schema.congr rfl rfl, insertable_insertMessages inv.insertable inserted, inv.row⟩
  | restart n groups members =>
      obtain ⟨db, migrated, rfl⟩ := Option.map_eq_some_iff.mp next
      refine ⟨inv.schema.migrate inv.insertable.1 migrated, ?_, fun t g u left => ?_⟩
      · change Insertable [] db.messages
        rw [Database.messages_migrate migrated]
        exact inv.insertable
      · obtain ⟨c, stored⟩ := inv.row t g u left
        exact ⟨c, (Database.groupStored_migrate migrated ⟨c, stored⟩ c).mpr stored⟩

theorem leftRows_run (state : AppState) {db : Database} (schema : db.Schema)
    (insertable : Insertable [] db.messages) {es : List (Event N)} {s : State N}
    (ran : (machine N state).run (start db) es = some s) : LeftRows s := by
  let Inv (_ : List (Event N)) (s : State N) : Prop := LeftRows s
  have init : Inv [] (start db) :=
    ⟨schema, insertable, fun _ _ _ left => absurd left Bool.false_ne_true⟩
  have step : ∀ es s e s', Inv es s → (machine N state).step s e = some s' →
      Inv (es ++ [e]) s' := fun _ _ _ _ inv next => leftRows_step inv next
  exact Machine.invariant init step ran

/-! ### The next start -/

/-- A start adds no row for a user of a group that is stored if and only if the user is listed
already or wrote no message in the conversation of the group. -/
theorem adds_iff {db db' : Database} {groups members : List MessageRow}
    (migrated : db.migrate groups members = some db') {t g : String}
    (stored : ∃ id, db.GroupStored t g id) (u : String) : db.Adds db' t g u ↔
      ∃ id, db.GroupStored t g id ∧ ¬ db.MemberStored id u ∧ db.WroteIn id u := by
  have same := Database.groupStored_migrate migrated stored
  constructor
  · rintro ⟨row, mem, new, rfl, there⟩
    obtain old | added := Database.mem_groupMembers_migrate migrated mem
    · exact absurd old new
    · exact ⟨row.conversationId, (same _).mp there, added⟩
  · rintro ⟨id, there, unlisted, wrote⟩
    obtain ⟨row, mem, rfl, rfl⟩ :=
      (Database.memberStored_migrate migrated there u).mpr (.inr wrote)
    exact ⟨row, mem, fun old => unlisted ⟨row, old, rfl, rfl⟩, rfl, (same _).mpr there⟩

/-- After any run of any number of nodes over tables that meet their constraints, however often the
nodes started again, the next start of one adds no row for a user and a group whose last command
was a `LEAVE` that took the row out, if and only if no such user without a row has written a group
message in the conversation of the group; and a further start changes nothing. -/
theorem restart_keeps_left_iff (state : AppState) {db : Database} (schema : db.Schema)
    (insertable : Insertable [] db.messages) {es : List (Event N)} {s s' : State N}
    (ran : (machine N state).run (start db) es = some s) {n : N} {groups members : List MessageRow}
    (next : (machine N state).step s (.restart n groups members) = some s') :
    ((∀ t g u, s.left t g u = true → ¬ s.cluster.db.Adds s'.cluster.db t g u) ∧
        s'.cluster.db.Settled) ↔
      ∀ t g u, s.left t g u = true → ∀ id, s.cluster.db.GroupStored t g id →
        ¬ s.cluster.db.MemberStored id u → ¬ s.cluster.db.WroteIn id u := by
  have inv := leftRows_run state schema insertable ran
  obtain ⟨db', migrated, rfl⟩ := Option.map_eq_some_iff.mp next
  have settled : db'.Settled := by
    intro groups' members' db'' again
    obtain ⟨_, _, rfl⟩ := (Database.migrate_again_iff migrated).mp again
    exact ⟨rfl, rfl⟩
  have adds := fun t g u left => adds_iff (t := t) (g := g) migrated (inv.row t g u left) u
  change ((∀ t g u, s.left t g u = true → ¬ s.cluster.db.Adds db' t g u) ∧ db'.Settled) ↔ _
  rw [and_iff_left settled]
  constructor
  · intro kept t g u left id stored unlisted wrote
    exact kept t g u left ((adds t g u left).mpr ⟨id, stored, unlisted, wrote⟩)
  · intro silent t g u left added
    obtain ⟨id, stored, unlisted, wrote⟩ := (adds t g u left).mp added
    exact silent t g u left id stored unlisted wrote

/-- Every statement, publish and produce of the event goes through. -/
def goesThrough : Event N → Bool
  | .cluster (.perform _ choice) => choice.ok
  | _ => true

/-- A name that is the text of an id. -/
def idName : String := "00000000-0000-0000-0000-000000000005"

/-- A user creates a group of that name, says something in it and leaves it. -/
def visit (chats : List String) : List (Event Unit) :=
  let performs (uuids : List Uuid) : List (Cluster.Event Unit) :=
    uuids.map fun uuid => .perform 1 ⟨7, uuid, true, 7⟩
  let command (kind : GroupMessageType) : List (Cluster.Event Unit) :=
    [.frame 1 ⟨some ⟨kind, "acme", idName, "ada"⟩, none⟩]
  let said : List (Cluster.Event Unit) := chats.flatMap fun content =>
    [.frame 1 ⟨none, some ⟨.group, idName, content⟩⟩] ++ performs [20, 21, 22, 23, 24]
  let events : List (Cluster.Event Unit) :=
    [.connect 1 () ⟨"acme", "ada"⟩] ++ performs [1] ++ command .create ++
      performs [2, 3, 4, 5, 6, 7, 8] ++ said ++ command .leave ++ performs [9, 10, 11, 12, 13]
  events.map .cluster

/-- A user who said nothing stays out. -/
theorem restart_keeps_silent :
    let state : AppState := ⟨false, fun _ => 0⟩
    ∃ s s', (machine Unit state).run (start ⟨[], [], []⟩) (visit []) = some s ∧
      (machine Unit state).step s (.restart () [] []) = some s' ∧
      s.left "acme" idName "ada" = true ∧
      (∀ t g u, s.left t g u = true → ¬ s.cluster.db.Adds s'.cluster.db t g u) ∧
        s'.cluster.db.Settled := by
  intro state
  obtain ⟨s, ran, left, silent, s', next, _⟩ :
      ∃ s ∈ (machine Unit state).run (start ⟨[], [], []⟩) (visit []),
        s.left "acme" idName "ada" = true ∧
        s.cluster.db.messages = [] ∧
        ∃ s' ∈ (machine Unit state).step s (.restart () [] []), s'.cluster.db.messages = [] := by
    decide
  refine ⟨s, s', ran, next, left, (restart_keeps_left_iff state (.empty []) (by decide) ran next).mpr
    fun t g u _ id _ _ wrote => ?_⟩
  obtain ⟨message, mem, _⟩ := wrote
  rw [silent] at mem
  exact List.not_mem_nil mem

/-- A user who said something is listed again after the `LEAVE`, in a run in which everything
goes through. -/
theorem restart_undoes_leave :
    ¬ ∀ (state : AppState) (es : List (Event Unit)) (s s' : State Unit)
      (groups members : List MessageRow),
      (machine Unit state).run (start ⟨[], [], []⟩) es = some s →
      (∀ e ∈ es, goesThrough e = true) →
      (machine Unit state).step s (.restart () groups members) = some s' →
      ∀ t g u, s.left t g u = true → ¬ s.cluster.db.Adds s'.cluster.db t g u := by
  intro always
  let state : AppState := ⟨false, fun _ => 0⟩
  let chat : MessageRow := ⟨21, "acme", 5, "Group", idName, "ada", "hi", 7⟩
  obtain ⟨s, ran, left, groups, members, s', next, stored, row, mem, conversation, user⟩ :
      ∃ s ∈ (machine Unit state).run (start ⟨[], [], []⟩) (visit ["hi"]),
        s.left "acme" idName "ada" = true ∧ s.cluster.db.groups = [⟨5, "acme", idName, "ada", 7⟩] ∧
        s.cluster.db.groupMembers = [] ∧
        ∃ s' ∈ (machine Unit state).step s (.restart () [] [chat]),
          s'.cluster.db.groups = [⟨5, "acme", idName, "ada", 7⟩] ∧
          ∃ row ∈ s'.cluster.db.groupMembers, row.conversationId = 5 ∧ row.userId = "ada" := by
    decide
  refine always state _ s s' [] [chat] ran (by decide) next "acme" idName "ada" left
    ⟨row, mem, ?_, user, ?_⟩
  · rw [members]
    exact List.not_mem_nil
  · rw [conversation]
    exact ⟨_, stored ▸ List.mem_singleton_self _, rfl, rfl, rfl⟩

end Restart

end YappaCore
