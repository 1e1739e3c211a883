import YappaCore.Kafka.Consumer
import YappaCore.Server.Frames

/-!
The two ways of `persist_message`: a batch of one that is inserted at once, and a record that the
consumer reads back, collects and inserts with others.

`messages_persistAll` and `kafka_persistAll` say what the handlers leave in the table and in
Kafka, `Carried` is the invariant of a consumer whose statements and commits succeed, and
`modes_store_same` that in the end both tables hold the same rows.
-/

namespace YappaCore

open Lib Handler

/-! ### The two modes of the handler -/

/-- `persist_message` for one message after the other. -/
def Handler.persistAll (state : AppState) : List ServerMessage → Handler Unit
  | [] => pure ()
  | message :: rest => do
      persistMessage state message
      persistAll state rest

namespace Cluster

variable {N : Type} [DecidableEq N] (n : N) {sha256Prefix : String → Uuid} {choices : ℕ → Choice}
  (ok : ∀ i, (choices i).ok = true)

include ok

/-- Without Kafka every message is inserted, or lost. -/
theorem messages_persistAll_foldl (messages : List ServerMessage) (s : Cluster N) :
    (finish n (persistAll ⟨false, sha256Prefix⟩ messages) choices s).db.messages =
      (messages.map ServerMessage.row).foldl
        (fun table row => (insertMessages table [row]).getD table) s.db.messages := by
  induction messages generalizing choices s with
  | nil => rfl
  | cons message rest ih =>
      have start : persistAll ⟨false, sha256Prefix⟩ (message :: rest) =
          .call (.insertMessages [message.row]) fun _ => persistAll ⟨false, sha256Prefix⟩ rest := by
        rw [persistAll, persistMessage_eq]
        rfl
      have inserted : (s.perform n (choices 0) (.insertMessages [message.row])).2.db.messages =
          (insertMessages s.db.messages [message.row]).getD s.db.messages := by
        rw [db_perform]
        simp only [ok 0, if_true]
      rw [start, finish_call, ih fun i => ok (i + 1), inserted, List.map_cons, List.foldl_cons]

/-- What can be inserted is. -/
theorem messages_persistAll (messages : List ServerMessage) (s : Cluster N)
    (insertable : Insertable s.db.messages (messages.map ServerMessage.row)) :
    (finish n (persistAll ⟨false, sha256Prefix⟩ messages) choices s).db.messages =
      s.db.messages ++ messages.map ServerMessage.row := by
  rw [messages_persistAll_foldl n ok, foldl_insertMessages insertable]

/-- With Kafka every message is produced. -/
theorem kafka_persistAll (messages : List ServerMessage) (s : Cluster N) :
    (finish n (persistAll ⟨true, sha256Prefix⟩ messages) choices s).kafka =
      s.kafka ++ messages.map fun message => ("messages", message.channelId, message) := by
  induction messages generalizing choices s with
  | nil => exact (List.append_nil _).symm
  | cons message rest ih =>
      have start : persistAll ⟨true, sha256Prefix⟩ (message :: rest) =
          .call (.produce "messages" message.channelId message) fun _ =>
            persistAll ⟨true, sha256Prefix⟩ rest := by
        rw [persistAll, persistMessage_eq]
        rfl
      have produced : (s.perform n (choices 0)
          (.produce "messages" message.channelId message)).2.kafka =
          s.kafka ++ [("messages", message.channelId, message)] := by
        simp [perform, ok 0]
      rw [start, finish_call, ih (fun i => ok (i + 1)), produced, List.append_assoc]
      rfl

end Cluster

/-! ### The consumer -/

/-- The message of a well-formed record. -/
def Record.message? : Record → Option ServerMessage
  | .message msg => some msg
  | .noPayload => none
  | .malformed => none

/-- The messages of a log. -/
def messagesOf (log : List Record) : List ServerMessage := log.filterMap Record.message?

namespace Consumer

/-- The insert and the commit of the iteration succeed, if it comes to them. -/
def Event.succeeds : Event → Bool
  | .shutdown answers => answers.reachable && answers.commit
  | .deadline answers => answers.reachable && answers.commit
  | .recv answers => answers.reachable && answers.commit
  | .recvError => true

/-- The messages consumed so far are in the table, behind what was there, or in the buffer. -/
structure Carried (log : List Record) (table : List MessageRow) (s : Consumer) : Prop where
  split : ∃ stored, s.table = table ++ stored.map ServerMessage.row ∧
    stored ++ s.buf = messagesOf (log.take s.position)
  small : s.buf.length < BATCH_MAX_SIZE

theorem carried_start (log : List Record) (table : List MessageRow) :
    Carried log table (start table) where
  split := ⟨[], (List.append_nil table).symm, rfl⟩
  small := Nat.zero_lt_succ _

/-- An event takes in the next record. -/
theorem messagesOf_take (log : List Record) (s : Consumer) (e : Event) :
    messagesOf (log.take (s.position + consumed e)) =
      messagesOf (log.take s.position) ++ taken log s e := by
  cases e with
  | recv answers =>
      simp only [consumed, taken, messagesOf, List.take_add_one, List.filterMap_append]
      congr 1
      cases log[s.position]? with
      | none => rfl
      | some record => cases record <;> rfl
  | _ => exact (List.append_nil _).symm

theorem succeeds_of_flushed {log : List Record} {s : Consumer} {e : Event} {answers : Answers}
    (ok : e.succeeds = true) (flushes : flushed log s e = some answers) :
    answers.reachable = true ∧ answers.commit = true := by
  cases e with
  | recvError => simp [flushed] at flushes
  | recv given =>
      simp only [flushed] at flushes
      split at flushes
      · split at flushes
        · exact Option.some.inj flushes ▸ Bool.and_eq_true_iff.mp ok
        · simp at flushes
      · simp at flushes
  | _ =>
      simp only [flushed] at flushes
      split at flushes
      · simp at flushes
      · exact Option.some.inj flushes ▸ Bool.and_eq_true_iff.mp ok

/-- An iteration whose insert and commit succeed carries every message. -/
theorem carried_step {log : List Record} {table : List MessageRow}
    (insertable : Insertable table ((messagesOf log).map ServerMessage.row)) {s s' : Consumer}
    {e : Event} (inv : Carried log table s) (ok : e.succeeds = true)
    (step : (machine log).step s e = some s') : Carried log table s' := by
  obtain ⟨stored, before, consumed⟩ := inv.split
  obtain ⟨small, below⟩ := arrive_bounded log inv.small e
  have arrived : stored ++ (arrive log s e).buf = messagesOf (log.take (arrive log s e).position) := by
    change stored ++ (s.buf ++ taken log s e) = _
    rw [← List.append_assoc, consumed]
    exact (messagesOf_take log s e).symm
  obtain ⟨_, ⟨none, rfl⟩ | ⟨answers, flushes, rfl⟩⟩ := step_cases step
  · exact ⟨⟨stored, before, arrived⟩, below none⟩
  · obtain ⟨reachable, commit⟩ := succeeds_of_flushed ok flushes
    have accepted : Insertable s.table ((arrive log s e).buf.map ServerMessage.row) := by
      rw [← List.take_append_drop (arrive log s e).position log, messagesOf, List.filterMap_append,
        List.map_append] at insertable
      have upTo := (insertable_append.mp insertable).1
      change Insertable table ((messagesOf _).map _) at upTo
      rw [← arrived, List.map_append] at upTo
      rw [before]
      exact (insertable_append.mp upTo).2
    have grown : tableAfter answers.reachable s.table (arrive log s e).buf =
        s.table ++ (arrive log s e).buf.map ServerMessage.row := by
      rw [tableAfter_eq _ _ small, if_pos ⟨reachable, accepted⟩]
    simp only [Consumer.finish, flushAndCommit, commit, if_true]
    refine ⟨⟨stored ++ (arrive log s e).buf, ?_, ?_⟩, Nat.zero_lt_succ _⟩
    · change tableAfter answers.reachable s.table (arrive log s e).buf = _
      rw [grown, before, List.map_append, List.append_assoc]
    · rw [List.append_nil]
      exact arrived

/-- A consumer that came to the end of the log with an empty buffer has stored all of it. -/
theorem table_of_drained {log : List Record} {table : List MessageRow}
    (insertable : Insertable table ((messagesOf log).map ServerMessage.row)) {events : List Event}
    {s : Consumer} (ran : (machine log).run (start table) events = some s)
    (ok : ∀ e ∈ events, e.succeeds = true) (all : s.position = log.length) (flushed : s.buf = []) :
    s.table = table ++ (messagesOf log).map ServerMessage.row := by
  have carried : Carried log table s := by
    have steps : (machine log).Steps (fun _ e => e.succeeds = true) (start table) events :=
      Machine.steps_of_mem (fun e mem _ => ok e mem) _
    refine Machine.invariant_steps (carried_start log table) ?_ ran steps
    exact fun s e s' inv ok next => carried_step insertable inv ok next
  obtain ⟨stored, rows, consumed⟩ := carried.split
  rw [flushed, List.append_nil, all, List.take_length] at consumed
  rw [rows, consumed]

end Consumer

/-! ### The two modes together -/

/-- Rows that are new are there once. -/
theorem filter_of_insertable {table rows : List MessageRow} (insertable : Insertable table rows)
    {row : MessageRow} (mem : row ∈ rows) :
    (table ++ rows).filter (fun other => other.messageId = row.messageId) = [row] := by
  rw [List.filter_append, filter_messageId_of_notMem (insertable.2.2 row mem), List.nil_append]
  exact filter_messageId_of_nodup insertable.2.1 mem

/-- Rows are insertable together exactly when one insert each succeeds, one after the other. -/
theorem insertable_iff_one_by_one (table rows : List MessageRow) : Insertable table rows ↔
    (rows.foldlM (fun table row => insertMessages table [row]) table).isSome = true := by
  induction rows generalizing table with
  | nil => simp [Insertable]
  | cons row rest ih =>
      rw [← List.singleton_append, insertable_append, ih, List.singleton_append, List.foldlM_cons]
      unfold insertMessages
      by_cases first : Insertable table [row]
      · simp [first]
      · simp [first]

open Cluster in
/-- Messages that the table takes, with distinct ids, are passed to `persist_message` in either
mode, and nothing fails. With Kafka the log holds what was produced, in any order and with any
malformed or empty records between, and a consumer reads it to its end under any schedule of
flushes, the last of them after its last message. Then the two tables hold the same rows, each
message exactly once. -/
theorem modes_store_same {N : Type} [DecidableEq N] (n : N) (sha256Prefix : String → Uuid)
    (db : Database) (messages : List ServerMessage)
    (insertable : Insertable db.messages (messages.map ServerMessage.row))
    {direct produce : ℕ → Choice} (directOk : ∀ i, (direct i).ok = true)
    (produceOk : ∀ i, (produce i).ok = true) {log : List Record}
    (delivered : (messagesOf log).Perm
      ((finish n (persistAll ⟨true, sha256Prefix⟩ messages) produce (start db)).kafka.map (·.2.2)))
    {events : List Consumer.Event} (ok : ∀ e ∈ events, e.succeeds = true) {s : Consumer}
    (ran : (Consumer.machine log).run (Consumer.start db.messages) events = some s)
    (all : s.position = log.length) (flushed : s.buf = []) :
    let table := (finish n (persistAll ⟨false, sha256Prefix⟩ messages) direct
      (start db)).db.messages
    s.table.Perm table ∧ ∀ message ∈ messages,
      table.filter (fun row => row.messageId = message.messageId) = [message.row] ∧
        s.table.filter (fun row => row.messageId = message.messageId) = [message.row] := by
  intro table
  have inserted : table = db.messages ++ messages.map ServerMessage.row :=
    messages_persistAll n directOk messages (start db) insertable
  have same : (messagesOf log).Perm messages := by
    rw [kafka_persistAll n produceOk messages (start db)] at delivered
    simpa [start, Function.comp_def] using delivered
  have rows := same.map ServerMessage.row
  have insertable' := insertable.perm rows.symm
  have consumed := Consumer.table_of_drained insertable' ran ok all flushed
  rw [inserted, consumed]
  refine ⟨rows.append_left _, fun message mem => ⟨?_, ?_⟩⟩
  · exact filter_of_insertable insertable (List.mem_map_of_mem mem)
  · exact filter_of_insertable insertable' (List.mem_map_of_mem (same.mem_iff.mpr mem))

/-- Two messages, produced in one order and read in the other between a malformed and an empty
record, one flushed by the deadline and one by the shutdown. -/
theorem modes_store_same_two :
    let messages := [greeting 1 "hi", greeting 2 "again"]
    let log : List Record :=
      [.malformed, .message (greeting 2 "again"), .noPayload, .message (greeting 1 "hi")]
    let fine : Answers := ⟨true, true⟩
    let events : List Consumer.Event :=
      [.recv fine, .recv fine, .deadline fine, .recv fine, .recv fine, .shutdown fine]
    let table := (Cluster.finish () (persistAll ⟨false, fun _ => 0⟩ messages)
      (fun _ => ⟨7, 9, true, 7⟩) (Cluster.start ⟨[], [], []⟩)).db.messages
    ∃ s, (Consumer.machine log).run (Consumer.start []) events = some s ∧ s.table.Perm table := by
  intro messages log fine events table
  obtain ⟨s, ran, all, flushed⟩ : ∃ s ∈ (Consumer.machine log).run (Consumer.start []) events,
      s.position = log.length ∧ s.buf = [] := by decide
  let choices : ℕ → Choice := fun _ => ⟨7, 9, true, 7⟩
  have always : ∀ i, (choices i).ok = true := fun _ => rfl
  have delivered : (messagesOf log).Perm ((Cluster.finish () (persistAll ⟨true, fun _ => 0⟩ messages)
      choices (Cluster.start ⟨[], [], []⟩)).kafka.map (·.2.2)) := by decide
  exact ⟨s, ran, (modes_store_same () (fun _ => 0) ⟨[], [], []⟩ messages (by decide) always always
    delivered (by decide) ran all flushed).1⟩

end YappaCore
