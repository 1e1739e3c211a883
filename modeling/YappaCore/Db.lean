import Mathlib.Data.List.Nodup
import YappaCore.Protocol

/-!
The Postgres side: the tables of `migrations/`, the statements the handlers
execute with the outcome Postgres gives them, and `MessageBatcher` of
`src/db/mod.rs`.

A statement is atomic. It fails, and changes nothing, when it breaks a
constraint of the schema or binds a text holding a zero byte, which a `TEXT`
column rejects. `MessageBatcher` is written over an arbitrary monad with an
insert operation: the consumer runs it against a table, the WebSocket handler
as part of its program.

`rows_ofMessages` and `rebuild_ofMessages` say what the column-wise insert writes
and what the error path puts back; `flush_rows` and `push_small` are the rules of
the batcher.
-/

namespace YappaCore

/-! ### Tables -/

/-- A row of `messages`, in the order of the insert's columns. `createdAt` is in
whole seconds since the epoch. -/
structure MessageRow where
  messageId : Uuid
  tenantId : String
  conversationId : Uuid
  channelType : String
  channelId : String
  senderId : String
  content : String
  createdAt : Int
deriving DecidableEq, Repr

structure GroupRow where
  conversationId : Uuid
  tenantId : String
  name : String
  createdBy : String
  createdAt : Int
deriving DecidableEq, Repr

structure GroupMemberRow where
  conversationId : Uuid
  tenantId : String
  userId : String
  joinedAt : Int
deriving DecidableEq, Repr

structure Database where
  messages : List MessageRow
  groups : List GroupRow
  groupMembers : List GroupMemberRow
deriving DecidableEq, Repr

/-- A text Postgres can store: one without a zero byte. -/
def Storable (text : String) : Prop := '\x00' ∉ text.toList

instance (text : String) : Decidable (Storable text) := by
  unfold Storable; infer_instance

def MessageRow.Storable (row : MessageRow) : Prop :=
  YappaCore.Storable row.tenantId ∧ YappaCore.Storable row.channelType ∧
    YappaCore.Storable row.channelId ∧ YappaCore.Storable row.senderId ∧
    YappaCore.Storable row.content

instance (row : MessageRow) : Decidable row.Storable := by
  unfold MessageRow.Storable; infer_instance

/-! ### Statements -/

/-- The rows can be inserted by one statement: every text can be stored and the
primary key stays unique, inside the statement and against the table. -/
def Insertable (table rows : List MessageRow) : Prop :=
  (∀ row ∈ rows, row.Storable) ∧ (rows.map (·.messageId)).Nodup ∧
    ∀ row ∈ rows, row.messageId ∉ table.map (·.messageId)

instance (table rows : List MessageRow) : Decidable (Insertable table rows) := by
  unfold Insertable; infer_instance

/-- `INSERT INTO messages … SELECT * FROM UNNEST(…)`. -/
def insertMessages (table rows : List MessageRow) : Option (List MessageRow) :=
  if Insertable table rows then some (table ++ rows) else none

/-- Rows can be inserted by one statement exactly when they can by two, one after the other. -/
theorem insertable_append {table first second : List MessageRow} :
    Insertable table (first ++ second) ↔
      Insertable table first ∧ Insertable (table ++ first) second := by
  unfold Insertable
  simp only [List.map_append, List.nodup_append, List.mem_append, List.mem_map, not_or, not_exists,
    not_and]
  constructor
  · rintro ⟨storable, ⟨nodup, nodup', disjoint⟩, new⟩
    refine ⟨⟨fun row mem => storable row (.inl mem), nodup, fun row mem => new row (.inl mem)⟩,
      fun row mem => storable row (.inr mem), nodup', fun row mem => ⟨new row (.inr mem), ?_⟩⟩
    exact fun other there same => disjoint _ ⟨other, there, rfl⟩ _ ⟨row, mem, rfl⟩ same
  · rintro ⟨⟨storable, nodup, new⟩, storable', nodup', new'⟩
    refine ⟨?_, ⟨nodup, nodup', ?_⟩, ?_⟩
    · rintro row (mem | mem)
      · exact storable row mem
      · exact storable' row mem
    · rintro _ ⟨other, there, rfl⟩ _ ⟨row, mem, rfl⟩ same
      exact (new' row mem).2 other there same
    · rintro row (mem | mem)
      · exact new row mem
      · exact (new' row mem).1

theorem insertMessages_eq_some {table rows table' : List MessageRow} :
    insertMessages table rows = some table' ↔ Insertable table rows ∧ table ++ rows = table' := by
  unfold insertMessages
  rw [Option.ite_none_right_eq_some, Option.some_inj]

/-- An insert keeps the constraints of the table. -/
theorem insertable_insertMessages {table rows table' : List MessageRow}
    (insertable : Insertable [] table) (inserted : insertMessages table rows = some table') :
    Insertable [] table' := by
  obtain ⟨more, rfl⟩ := insertMessages_eq_some.mp inserted
  exact insertable_append.mpr ⟨insertable, more⟩

/-- Rows that are inserted one after the other are all there, if they can be inserted. -/
theorem foldl_insertMessages {table rows : List MessageRow} (insertable : Insertable table rows) :
    rows.foldl (fun table row => (insertMessages table [row]).getD table) table = table ++ rows := by
  induction rows generalizing table with
  | nil => exact (List.append_nil table).symm
  | cons row rest ih =>
      obtain ⟨first, later⟩ := insertable_append.mp (List.singleton_append ▸ insertable)
      have inserted : insertMessages table [row] = some (table ++ [row]) := if_pos first
      rw [List.foldl_cons, inserted, Option.getD_some, ih later, List.append_assoc,
        List.singleton_append]

theorem Insertable.perm {table rows rows' : List MessageRow} (same : rows.Perm rows')
    (insertable : Insertable table rows) : Insertable table rows' := by
  obtain ⟨storable, nodup, new⟩ := insertable
  refine ⟨fun row mem => storable row (same.mem_iff.mpr mem), ?_, fun row mem =>
    new row (same.mem_iff.mpr mem)⟩
  exact (same.map _).nodup_iff.mp nodup

namespace Database

/-- `SELECT conversation_id FROM groups WHERE tenant_id = $1 AND name = $2`, by
`fetch_one`: no row is an error too. -/
def selectGroup (db : Database) (tenantId name : String) : Option Uuid :=
  if Storable tenantId ∧ Storable name then
    (db.groups.find? fun row => row.tenantId = tenantId ∧ row.name = name).map (·.conversationId)
  else none

/-- `INSERT INTO group_members … ON CONFLICT (conversation_id, user_id) DO NOTHING`;
the conversation must be one of `groups`. -/
def insertGroupMember (db : Database) (conversationId : Uuid) (tenantId userId : String)
    (now : Int) : Option Database :=
  if ¬ (Storable tenantId ∧ Storable userId) then none
  else if db.groupMembers.any fun row => row.conversationId = conversationId ∧ row.userId = userId
    then some db
  else if db.groups.any fun row => row.conversationId = conversationId then
    some { db with groupMembers := db.groupMembers ++ [⟨conversationId, tenantId, userId, now⟩] }
  else none

/-- `DELETE FROM group_members WHERE conversation_id = $1 AND user_id = $2`. -/
def deleteGroupMember (db : Database) (conversationId : Uuid) (userId : String) :
    Option Database :=
  if Storable userId then
    some { db with groupMembers := db.groupMembers.filter fun row =>
      ¬ (row.conversationId = conversationId ∧ row.userId = userId) }
  else none

/-- `INSERT INTO groups … ON CONFLICT (tenant_id, name) DO UPDATE SET
conversation_id = EXCLUDED.conversation_id RETURNING conversation_id`. A new id
must not be the primary key of another row, and an id that members reference
cannot be changed. -/
def upsertGroup (db : Database) (conversationId : Uuid) (tenantId name createdBy : String)
    (now : Int) : Option (Uuid × Database) :=
  if ¬ (Storable tenantId ∧ Storable name ∧ Storable createdBy) then none
  else
    match db.groups.find? fun row => row.tenantId = tenantId ∧ row.name = name with
    | none =>
        if db.groups.any fun row => row.conversationId = conversationId then none
        else some (conversationId,
          { db with groups := db.groups ++ [⟨conversationId, tenantId, name, createdBy, now⟩] })
    | some old =>
        if old.conversationId = conversationId then some (conversationId, db)
        else if db.groups.any fun row => row.conversationId = conversationId then none
        else if db.groupMembers.any fun row => row.conversationId = old.conversationId then none
        else some (conversationId,
          { db with groups := db.groups.map fun row =>
              if row.tenantId = tenantId ∧ row.name = name then { row with conversationId }
              else row })

theorem selectGroup_congr {db db' : Database} (groups : db'.groups = db.groups)
    (tenantId name : String) : db'.selectGroup tenantId name = db.selectGroup tenantId name := by
  unfold selectGroup
  rw [groups]

/-- A group that is found has a row. -/
theorem exists_of_selectGroup {db : Database} {tenantId name : String} {id : Uuid}
    (found : db.selectGroup tenantId name = some id) :
    ∃ row ∈ db.groups, row.tenantId = tenantId ∧ row.name = name ∧ row.conversationId = id := by
  unfold selectGroup at found
  split at found
  · obtain ⟨row, first, rfl⟩ := Option.map_eq_some_iff.mp found
    have own := List.find?_some first
    simp only [decide_eq_true_eq] at own
    exact ⟨row, List.mem_of_find?_eq_some first, own.1, own.2, rfl⟩
  · simp at found

/-- Members come and go without a change to the groups. -/
theorem groups_insertGroupMember {db db' : Database} {conversationId : Uuid}
    {tenantId userId : String} {now : Int}
    (inserted : db.insertGroupMember conversationId tenantId userId now = some db') :
    db'.groups = db.groups := by
  unfold insertGroupMember at inserted
  split at inserted
  · simp at inserted
  · split at inserted
    · rw [← Option.some.inj inserted]
    · split at inserted
      · rw [← Option.some.inj inserted]
      · simp at inserted

theorem groups_deleteGroupMember {db db' : Database} {conversationId : Uuid} {userId : String}
    (deleted : db.deleteGroupMember conversationId userId = some db') :
    db'.groups = db.groups := by
  unfold deleteGroupMember at deleted
  split at deleted
  · rw [← Option.some.inj deleted]
  · simp at deleted

end Database

/-! ### Timestamps -/

/-- `DateTime::<Utc>::from_timestamp(secs, 0)`: the whole seconds chrono represents. -/
def fromTimestamp (secs : Int) : Option Int :=
  if -8334601228800 ≤ secs ∧ secs ≤ 8210266876799 then some secs else none

/-- The `created_at` bound for a message: the cast to `i64`, and the epoch where
chrono has no date. -/
def createdAt (timestamp : UInt64) : Int := (fromTimestamp timestamp.toInt64.toInt).getD 0

theorem fromTimestamp_eq_some {secs found : Int} (represented : fromTimestamp secs = some found) :
    found = secs := by
  unfold fromTimestamp at represented
  split at represented
  · exact (Option.some.inj represented).symm
  · simp at represented

/-- A time that chrono has is stored as it is. -/
theorem createdAt_of_represented {timestamp : UInt64}
    (represented : (fromTimestamp timestamp.toInt64.toInt).isSome = true) :
    createdAt timestamp = timestamp.toInt64.toInt := by
  obtain ⟨secs, found⟩ := Option.isSome_iff_exists.mp represented
  rw [createdAt, found, Option.getD_some, fromTimestamp_eq_some found]

/-! ### The batch insert -/

/-- The column vectors of `MessageBatcher::flush`, in the order they are bound. -/
structure Columns where
  ids : List Uuid
  tenants : List String
  conversations : List Uuid
  channelType : List String
  channelId : List String
  senders : List String
  contents : List String
  times : List UInt64

def Columns.ofMessages (messages : List ServerMessage) : Columns where
  ids := messages.map (·.messageId)
  tenants := messages.map (·.tenantId)
  conversations := messages.map (·.conversationId)
  channelType := messages.map (·.channelType.debug)
  channelId := messages.map (·.channelId)
  senders := messages.map (·.senderId)
  contents := messages.map (·.payload.text)
  times := messages.map (·.timestamp)

/-- `UNNEST` of eight arrays: the rows across them. -/
def unnest : List Uuid → List String → List Uuid → List String → List String → List String →
    List String → List Int → List MessageRow
  | id :: ids, tenant :: tenants, conversation :: conversations, type :: types,
    channel :: channels, sender :: senders, content :: contents, time :: times =>
      ⟨id, tenant, conversation, type, channel, sender, content, time⟩ ::
        unnest ids tenants conversations types channels senders contents times
  | _, _, _, _, _, _, _, _ => []

/-- The rows of the insert. -/
def Columns.rows (columns : Columns) : List MessageRow :=
  unnest columns.ids columns.tenants columns.conversations columns.channelType columns.channelId
    columns.senders columns.contents (columns.times.map createdAt)

/-- The channel type the error path reads back from its debug text. -/
def ChannelType.ofDebug : String → ChannelType
  | "Group" => .group
  | "Dm" => .dm
  | _ => .dm

/-- The messages the error path rebuilds from the columns. -/
def Columns.rebuild (columns : Columns) : List ServerMessage :=
  let rec go : List Uuid → List String → List Uuid → List String → List String → List String →
      List String → List UInt64 → List ServerMessage
    | id :: ids, tenant :: tenants, conversation :: conversations, type :: types,
      channel :: channels, sender :: senders, content :: contents, time :: times =>
        { msgType := "chat", messageId := id, tenantId := tenant,
          channelType := .ofDebug type, channelId := channel, senderId := sender,
          timestamp := time, conversationId := conversation,
          payload := { text := content, metadata := "\x7b\x7d" } } ::
          go ids tenants conversations types channels senders contents times
    | _, _, _, _, _, _, _, _ => []
  go columns.ids columns.tenants columns.conversations columns.channelType columns.channelId
    columns.senders columns.contents columns.times

/-- The row a message is stored as. -/
def ServerMessage.row (message : ServerMessage) : MessageRow where
  messageId := message.messageId
  tenantId := message.tenantId
  conversationId := message.conversationId
  channelType := message.channelType.debug
  channelId := message.channelId
  senderId := message.senderId
  content := message.payload.text
  createdAt := createdAt message.timestamp

/-- What a failed flush makes of a message. -/
def ServerMessage.rebuilt (message : ServerMessage) : ServerMessage :=
  { message with
    msgType := "chat"
    channelType := .ofDebug message.channelType.debug
    payload := { message.payload with metadata := "\x7b\x7d" } }

/-- The column-wise insert writes one row a message, column by column its own. -/
@[simp] theorem rows_ofMessages (messages : List ServerMessage) :
    (Columns.ofMessages messages).rows = messages.map ServerMessage.row := by
  induction messages with
  | nil => rfl
  | cons message rest ih =>
      simp only [Columns.rows, Columns.ofMessages, List.map_cons, unnest, List.cons.injEq] at ih ⊢
      exact ⟨rfl, ih⟩

/-- The error path rebuilds the messages in order. -/
@[simp] theorem rebuild_ofMessages (messages : List ServerMessage) :
    (Columns.ofMessages messages).rebuild = messages.map ServerMessage.rebuilt := by
  induction messages with
  | nil => rfl
  | cons message rest ih =>
      simp only [Columns.rebuild, Columns.ofMessages, List.map_cons, Columns.rebuild.go,
        List.cons.injEq] at ih ⊢
      exact ⟨rfl, ih⟩

/-- A table that inserts of messages made, from an empty one. -/
inductive Written : List MessageRow → Prop where
  | empty : Written []
  | insert {table table' : List MessageRow} (messages : List ServerMessage) :
      Written table → insertMessages table (messages.map ServerMessage.row) = some table' →
        Written table'

/-- Such a table holds the rows of some messages, under the constraints. -/
theorem written_iff {table : List MessageRow} : Written table ↔
    ∃ messages : List ServerMessage, table = messages.map ServerMessage.row ∧ Insertable [] table := by
  constructor
  · intro written
    induction written with
    | empty => exact ⟨[], rfl, by simp [Insertable]⟩
    | insert messages _ inserted ih =>
        obtain ⟨before, rfl, insertable⟩ := ih
        have after := insertable_insertMessages insertable inserted
        obtain ⟨_, rfl⟩ := insertMessages_eq_some.mp inserted
        exact ⟨before ++ messages, List.map_append.symm, after⟩
  · rintro ⟨messages, rfl, insertable⟩
    exact .insert messages .empty (insertMessages_eq_some.mpr ⟨insertable, List.nil_append _⟩)

/-- What is written of a message's time is one that chrono represents. -/
theorem Written.represented {table : List MessageRow} (written : Written table) {row : MessageRow}
    (mem : row ∈ table) : (fromTimestamp row.createdAt).isSome = true := by
  obtain ⟨messages, rfl, _⟩ := written_iff.mp written
  obtain ⟨message, _, rfl⟩ := List.mem_map.mp mem
  change (fromTimestamp (createdAt message.timestamp)).isSome = true
  unfold createdAt
  cases found : fromTimestamp message.timestamp.toInt64.toInt with
  | none => rfl
  | some secs =>
      rw [Option.getD_some, fromTimestamp_eq_some found, found]
      rfl

theorem Written.storable {table : List MessageRow} (written : Written table) {row : MessageRow}
    (mem : row ∈ table) : row.Storable := by
  obtain ⟨_, _, insertable⟩ := written_iff.mp written
  exact insertable.1 row mem

/-! ### `MessageBatcher` -/

structure MessageBatcher where
  buffer : List ServerMessage
  capacity : Nat

namespace MessageBatcher

variable {m : Type → Type} [Monad m]

def new : MessageBatcher := ⟨[], 1000⟩

/-- Insert the buffer in one statement; on an error the buffer is rebuilt from the
columns that were bound. -/
def flush (insert : List MessageRow → m Bool) (batcher : MessageBatcher) : m MessageBatcher :=
  if batcher.buffer.isEmpty then pure batcher
  else do
    let columns := Columns.ofMessages batcher.buffer
    if ← insert columns.rows then pure { batcher with buffer := [] }
    else pure { batcher with buffer := columns.rebuild }

def push (insert : List MessageRow → m Bool) (batcher : MessageBatcher) (message : ServerMessage) :
    m MessageBatcher :=
  let batcher := { batcher with buffer := batcher.buffer ++ [message] }
  if batcher.buffer.length ≥ batcher.capacity then batcher.flush insert else pure batcher

/-- A flush is one insert of the buffer's rows; the buffer is empty after a success
and holds the rebuilt messages after a failure. -/
theorem flush_rows (insert : List MessageRow → m Bool) (batcher : MessageBatcher) :
    batcher.flush insert =
      if batcher.buffer = [] then pure batcher
      else insert (batcher.buffer.map ServerMessage.row) >>= fun stored =>
        pure { batcher with
          buffer := if stored then [] else batcher.buffer.map ServerMessage.rebuilt } := by
  unfold flush
  by_cases empty : batcher.buffer = []
  · simp [empty]
  · simp only [List.isEmpty_iff, empty, if_false, rows_ofMessages, rebuild_ofMessages]
    congr 1
    funext stored
    cases stored <;> rfl

/-- Below its capacity a batcher only collects. -/
theorem push_small (insert : List MessageRow → m Bool) (batcher : MessageBatcher)
    (message : ServerMessage) (small : batcher.buffer.length + 1 < batcher.capacity) :
    batcher.push insert message = pure { batcher with buffer := batcher.buffer ++ [message] } := by
  have below : ¬ batcher.capacity ≤ batcher.buffer.length + 1 := by omega
  simp [push, below]

end MessageBatcher

end YappaCore
