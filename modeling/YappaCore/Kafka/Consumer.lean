import YappaCore.Lib.Machine
import YappaCore.Db

/-!
`KafkaConsumer` of `src/kafka/consumer.rs`: the loop that buffers records,
flushes the buffer to Postgres and commits the offset.

The loop is a machine over a log of records. Its events are the four ways an
iteration ends (shutdown, the deadline, a record, a receive error), and each
carries what Postgres and Kafka answer in that iteration. `flushed` names the
buffer an event flushes, and `step_cases` says what a step does in terms of it.

* `acknowledged_stored_iff`: a run keeps every acknowledged record in the table
  exactly when none of its commits follows a flush that lost a message.
* `flushBatch_stores_iff`: a flush stores every message that could be stored on
  its own exactly when the batch as a whole can be inserted, or no message of it
  can.
-/

namespace YappaCore

open Lib

def BATCH_MAX_SIZE : Nat := 500

/-- A record of the log: its payload may be missing, or fail to parse. -/
inductive Record where
  | noPayload
  | malformed
  | message (message : ServerMessage)
deriving DecidableEq, Repr

/-! ### Flushing a batch -/

section FlushBatch

variable {m : Type → Type} [Monad m]

/-- `KafkaConsumer::flush_batch`: the batch goes through a `MessageBatcher` of its
own, which is dropped at the end. -/
def flushBatch (insert : List MessageRow → m Bool) (batch : List ServerMessage) : m Unit := do
  let messageBatcher ← batch.foldlM (MessageBatcher.push insert) MessageBatcher.new
  let _ ← messageBatcher.flush insert
  pure ()

variable [LawfulMonad m]

/-- A batch that stays below the capacity is only collected. -/
theorem foldlM_push_small (insert : List MessageRow → m Bool) (batch : List ServerMessage)
    (batcher : MessageBatcher) (small : batcher.buffer.length + batch.length < batcher.capacity) :
    batch.foldlM (MessageBatcher.push insert) batcher =
      pure { batcher with buffer := batcher.buffer ++ batch } := by
  induction batch generalizing batcher with
  | nil => simp
  | cons message rest ih =>
      rw [List.length_cons] at small
      rw [List.foldlM_cons, MessageBatcher.push_small insert batcher message (by omega), pure_bind,
        ih]
      · simp
      · simp only [List.length_append, List.length_singleton]
        omega

/-- A batch of the consumer's size is one insert, and its outcome is not returned. -/
theorem flushBatch_eq (insert : List MessageRow → m Bool) {batch : List ServerMessage}
    (small : batch.length ≤ BATCH_MAX_SIZE) :
    flushBatch insert batch =
      if batch = [] then pure ()
      else insert (batch.map ServerMessage.row) >>= fun _ => pure () := by
  have below : ([] : List ServerMessage).length + batch.length < 1000 := by
    simp only [BATCH_MAX_SIZE, List.length_nil] at small ⊢
    omega
  unfold flushBatch
  rw [foldlM_push_small insert batch MessageBatcher.new below, pure_bind,
    MessageBatcher.flush_rows]
  by_cases empty : batch = []
  · simp [empty, MessageBatcher.new]
  · simp [empty, MessageBatcher.new]

end FlushBatch

/-- The insert as Postgres executes it on the table, when it can be reached. -/
def insertInto (reachable : Bool) (rows : List MessageRow) : StateM (List MessageRow) Bool :=
  fun table =>
    match if reachable then insertMessages table rows else none with
    | some table => (true, table)
    | none => (false, table)

/-- The table after a flush. -/
def tableAfter (reachable : Bool) (table : List MessageRow) (batch : List ServerMessage) :
    List MessageRow :=
  (flushBatch (insertInto reachable) batch table).2

/-- A flush of the consumer adds the whole batch, or nothing. -/
theorem tableAfter_eq (reachable : Bool) (table : List MessageRow) {batch : List ServerMessage}
    (small : batch.length ≤ BATCH_MAX_SIZE) :
    tableAfter reachable table batch =
      if reachable ∧ Insertable table (batch.map ServerMessage.row) then
        table ++ batch.map ServerMessage.row
      else table := by
  unfold tableAfter
  rw [flushBatch_eq _ small]
  by_cases empty : batch = []
  · rw [if_pos empty, empty]
    split
    · exact (List.append_nil table).symm
    · rfl
  · rw [if_neg empty]
    have inserted : ((insertInto reachable (batch.map ServerMessage.row)) table).2 =
        if reachable ∧ Insertable table (batch.map ServerMessage.row) then
          table ++ batch.map ServerMessage.row
        else table := by
      by_cases accepted : Insertable table (batch.map ServerMessage.row) <;>
        cases reachable <;> simp [accepted, insertInto, insertMessages]
    exact inserted

/-- Rows already in the table stay as they are. -/
theorem prefix_tableAfter (reachable : Bool) (table : List MessageRow)
    {batch : List ServerMessage} (small : batch.length ≤ BATCH_MAX_SIZE) :
    table <+: tableAfter reachable table batch := by
  rw [tableAfter_eq reachable table small]
  split
  · exact List.prefix_append table _
  · exact List.prefix_refl table

/-! ### The storable messages of a batch -/

/-- What a flush of `batch` owes, with the table `after` it: every message that
could be inserted on its own is there, as the one row of its id, and the rows of
`table` are unchanged. -/
def StoresStorable (table : List MessageRow) (batch : List ServerMessage)
    (after : List MessageRow) : Prop :=
  (∀ message ∈ batch, Insertable table [message.row] →
    after.filter (fun row => row.messageId = message.messageId) = [message.row]) ∧
    table <+: after

theorem filter_messageId_of_notMem {table : List MessageRow} {id : Uuid}
    (absent : id ∉ table.map (·.messageId)) :
    table.filter (fun row => row.messageId = id) = [] := by
  rw [List.filter_eq_nil_iff]
  intro row member same
  exact absent (List.mem_map.mpr ⟨row, member, of_decide_eq_true same⟩)

/-- With distinct ids, a row is the only one of its id. -/
theorem filter_messageId_of_nodup {rows : List MessageRow} {row : MessageRow}
    (nodup : (rows.map (·.messageId)).Nodup) (member : row ∈ rows) :
    rows.filter (fun other => other.messageId = row.messageId) = [row] := by
  induction rows with
  | nil => simp at member
  | cons first rest ih =>
      rw [List.map_cons, List.nodup_cons] at nodup
      rcases List.mem_cons.mp member with rfl | later
      · rw [List.filter_cons_of_pos (by simp), filter_messageId_of_notMem nodup.1]
      · have differs : ¬ first.messageId = row.messageId := fun same =>
          nodup.1 (same ▸ List.mem_map_of_mem later)
        rw [List.filter_cons_of_neg (by simpa using differs), ih nodup.2 later]

/-- A flush with the database reachable stores every message of the batch that
could be inserted on its own exactly when the whole batch is insertable, or no
message of it is: one element that Postgres rejects takes the others with it. -/
theorem flushBatch_stores_iff (table : List MessageRow) (batch : List ServerMessage)
    (small : batch.length ≤ BATCH_MAX_SIZE) :
    StoresStorable table batch (tableAfter true table batch) ↔
      Insertable table (batch.map ServerMessage.row) ∨
        ∀ message ∈ batch, ¬ Insertable table [message.row] := by
  constructor
  · rintro ⟨stores, _⟩
    by_contra neither
    rw [not_or, not_forall] at neither
    obtain ⟨rejected, message, some⟩ := neither
    obtain ⟨member, alone⟩ := Classical.not_imp.mp some
    rw [not_not] at alone
    have only := stores message member alone
    have absent : message.messageId ∉ table.map (·.messageId) := alone.2.2 message.row (List.mem_singleton_self _)
    rw [tableAfter_eq true table small, if_neg (by simp [rejected]),
      filter_messageId_of_notMem absent] at only
    simp at only
  · intro condition
    refine ⟨fun message member alone => ?_, prefix_tableAfter true table small⟩
    have accepted : Insertable table (batch.map ServerMessage.row) := by
      rcases condition with accepted | none
      · exact accepted
      · exact absurd alone (none message member)
    have absent : message.messageId ∉ table.map (·.messageId) := alone.2.2 message.row (List.mem_singleton_self _)
    rw [tableAfter_eq true table small, if_pos ⟨rfl, accepted⟩, List.filter_append,
      filter_messageId_of_notMem absent, List.nil_append]
    exact filter_messageId_of_nodup accepted.2.1 (List.mem_map_of_mem member)

/-- A chat message from alice to bob. -/
def greeting (id : Uuid) (text : String) : ServerMessage where
  msgType := "chat"
  messageId := id
  tenantId := "acme"
  channelType := .dm
  channelId := "bob"
  senderId := "alice"
  timestamp := 1739280000
  conversationId := 0
  payload := { text, metadata := "\x7b\x7d" }

/-- A batch of three new messages over a table of two, and one of the two messages again. -/
theorem flushBatch_stores_three :
    let table := [(greeting 1 "hi").row, (greeting 2 "again").row]
    let new :=
      [greeting 3 "and", greeting 4 "again", { greeting 5 "too" with tenantId := "globex" }]
    let old := [greeting 2 "again", greeting 1 "hi"]
    StoresStorable table new (tableAfter true table new) ∧
      StoresStorable table old (tableAfter true table old) :=
  ⟨(flushBatch_stores_iff _ _ (by decide)).mpr (.inl (by decide)),
    (flushBatch_stores_iff _ _ (by decide)).mpr (.inr (by decide))⟩

/-- A redelivered message keeps a new one of the same batch out of the table. -/
theorem redelivery_loses_batch :
    ¬ ∀ (table : List MessageRow) (batch : List ServerMessage), batch.length ≤ BATCH_MAX_SIZE →
      StoresStorable table batch (tableAfter true table batch) := by
  intro stores
  have stored := stores [(greeting 1 "hi").row] [greeting 1 "hi", greeting 2 "again"] (by decide)
  exact absurd (stored.1 (greeting 2 "again") (by simp) (by decide)) (by decide)

/-! ### The consumer loop -/

/-- What Postgres and Kafka answer in one iteration: whether an insert can reach
the database, and whether the commit is accepted. -/
structure Answers where
  reachable : Bool
  commit : Bool
deriving DecidableEq, Repr

/-- The consumer between two iterations. `position` is the offset of the next
record, `committed` the offset last committed. -/
structure Consumer where
  position : Nat
  committed : Nat
  buf : List ServerMessage
  table : List MessageRow
  running : Bool
deriving DecidableEq, Repr

namespace Consumer

/-- A consumer that starts on an empty commit history, over any table. -/
def start (table : List MessageRow) : Consumer := ⟨0, 0, [], table, true⟩

/-- `flush_batch` and `commit()?`: a refused commit ends the loop. -/
def flushAndCommit (s : Consumer) (answers : Answers) : Consumer :=
  let flushed := { s with buf := [], table := tableAfter answers.reachable s.table s.buf }
  if answers.commit then { flushed with committed := s.position }
  else { flushed with running := false }

/-- The branch of an elapsed deadline, and of a shutdown before it returns. -/
def flushPending (s : Consumer) (answers : Answers) : Consumer :=
  if s.buf.isEmpty then s else s.flushAndCommit answers

/-- The branch of a received record. -/
def receive (s : Consumer) (record : Record) (answers : Answers) : Consumer :=
  let s := { s with position := s.position + 1 }
  match record with
  | .noPayload => s
  | .malformed => s
  | .message message =>
      let s := { s with buf := s.buf ++ [message] }
      if s.buf.length ≥ BATCH_MAX_SIZE then s.flushAndCommit answers else s

/-- How an iteration of the loop ends. -/
inductive Event where
  | shutdown (answers : Answers)
  | deadline (answers : Answers)
  | recv (answers : Answers)
  | recvError
deriving DecidableEq, Repr

/-- One iteration of `KafkaConsumer::run` over the log. -/
def iterate (log : List Record) (s : Consumer) : Event → Option Consumer
  | .shutdown answers =>
      if s.running then some { s.flushPending answers with running := false } else none
  | .deadline answers => if s.running then some (s.flushPending answers) else none
  | .recv answers =>
      if s.running then (log[s.position]?).map fun record => s.receive record answers else none
  | .recvError => if s.running then some s else none

def machine (log : List Record) : Machine Consumer Event := ⟨iterate log⟩

/-! ### What an iteration does -/

/-- The message of the record that the event brings, if it is well-formed. -/
def taken (log : List Record) (s : Consumer) : Event → List ServerMessage
  | .recv _ =>
      match log[s.position]? with
      | some (.message message) => [message]
      | _ => []
  | _ => []

/-- How far the event moves the position. -/
def consumed : Event → Nat
  | .recv _ => 1
  | _ => 0

/-- The consumer once the event's record is in the buffer. -/
def arrive (log : List Record) (s : Consumer) (e : Event) : Consumer :=
  { s with position := s.position + consumed e, buf := s.buf ++ taken log s e }

/-- The answers of the flush that the event makes, if it makes one. -/
def flushed (log : List Record) (s : Consumer) : Event → Option Answers
  | .shutdown answers => if s.buf = [] then none else some answers
  | .deadline answers => if s.buf = [] then none else some answers
  | .recv answers =>
      match log[s.position]? with
      | some (.message _) => if s.buf.length + 1 ≥ BATCH_MAX_SIZE then some answers else none
      | _ => none
  | .recvError => none

/-- A shutdown ends the loop. -/
def stops : Event → Bool
  | .shutdown _ => true
  | _ => false

def finish (s : Consumer) (e : Event) : Consumer := { s with running := s.running && !stops e }

/-- An iteration takes in what arrived, flushes and commits or does not, and ends
the loop on a shutdown. -/
theorem step_cases {log : List Record} {s s' : Consumer} {e : Event}
    (step : (machine log).step s e = some s') :
    s.running = true ∧
      ((flushed log s e = none ∧ s' = (arrive log s e).finish e) ∨
        ∃ answers, flushed log s e = some answers ∧
          s' = ((arrive log s e).flushAndCommit answers).finish e) := by
  have live : s.running = true := by
    cases e <;> simp only [machine, iterate] at step <;> split at step <;> trivial
  refine ⟨live, ?_⟩
  cases e with
  | shutdown answers =>
      simp only [machine, iterate, live, if_true, Option.some.injEq] at step
      subst step
      by_cases empty : s.buf = []
      · left
        simp [flushed, arrive, taken, consumed, flushPending, finish, stops, empty]
      · right
        exact ⟨answers, by simp [flushed, empty],
          by simp [arrive, taken, consumed, flushPending, finish, stops, empty]⟩
  | deadline answers =>
      simp only [machine, iterate, live, if_true, Option.some.injEq] at step
      subst step
      by_cases empty : s.buf = []
      · left
        have idle : s.flushPending answers = s := by simp [flushPending, empty]
        refine ⟨by simp [flushed, empty], ?_⟩
        rw [idle]
        simp [arrive, taken, consumed, finish, stops]
      · right
        exact ⟨answers, by simp [flushed, empty],
          by simp [arrive, taken, consumed, flushPending, finish, stops, empty]⟩
  | recv answers =>
      simp only [machine, iterate, live, if_true, Option.map_eq_some_iff] at step
      obtain ⟨record, next, rfl⟩ := step
      cases record with
      | noPayload =>
          left
          simp [flushed, arrive, taken, consumed, receive, finish, stops, next]
      | malformed =>
          left
          simp [flushed, arrive, taken, consumed, receive, finish, stops, next]
      | message message =>
          by_cases full : s.buf.length + 1 ≥ BATCH_MAX_SIZE
          · right
            exact ⟨answers, by simp [flushed, next, full],
              by simp [arrive, taken, consumed, receive, finish, stops, next, full]⟩
          · left
            simp [flushed, arrive, taken, consumed, receive, finish, stops, next, full]
  | recvError =>
      simp only [machine, iterate, live, if_true, Option.some.injEq] at step
      subst step
      simp [flushed, arrive, taken, consumed, finish, stops]

/-- Between iterations the buffer is below the batch size; what is flushed is not
above it. -/
theorem arrive_bounded (log : List Record) {s : Consumer} (bounded : s.buf.length < BATCH_MAX_SIZE)
    (e : Event) :
    (arrive log s e).buf.length ≤ BATCH_MAX_SIZE ∧
      (flushed log s e = none → (arrive log s e).buf.length < BATCH_MAX_SIZE) := by
  cases e with
  | recv answers =>
      cases next : log[s.position]? with
      | none => simp [arrive, taken, next, bounded, le_of_lt bounded]
      | some record =>
          cases record with
          | noPayload => simp [arrive, taken, next, bounded, le_of_lt bounded]
          | malformed => simp [arrive, taken, next, bounded, le_of_lt bounded]
          | message message =>
              simp only [arrive, taken, flushed, next, List.length_append, List.length_singleton]
              exact ⟨bounded, fun none => by simpa using none⟩
  | _ => simp [arrive, taken, bounded, le_of_lt bounded]

/-! ### The rows of the table -/

/-- The event flushes a batch that holds the message, and Postgres takes the batch's columns. -/
structure Accepts (log : List Record) (s : Consumer) (e : Event) (message : ServerMessage) :
    Prop where
  batched : message ∈ (arrive log s e).buf
  flushes : ∃ answers, flushed log s e = some answers ∧ answers.reachable = true
  fits : Insertable s.table (Columns.ofMessages (arrive log s e).buf).rows

/-- Rows stay in the table, and the buffer stays below the batch size. -/
theorem prefix_step {log : List Record} {s s' : Consumer} {e : Event}
    (bounded : s.buf.length < BATCH_MAX_SIZE) (step : (machine log).step s e = some s') :
    s.table <+: s'.table ∧ s'.buf.length < BATCH_MAX_SIZE := by
  obtain ⟨small, below⟩ := arrive_bounded log bounded e
  obtain ⟨_, ⟨none, rfl⟩ | ⟨answers, _, rfl⟩⟩ := step_cases step
  · exact ⟨List.prefix_refl s.table, below none⟩
  · have kept := prefix_tableAfter answers.reachable s.table small
    unfold flushAndCommit
    split
    · exact ⟨kept, Nat.zero_lt_succ _⟩
    · exact ⟨kept, Nat.zero_lt_succ _⟩

theorem prefix_run {log : List Record} {s s' : Consumer} {es : List Event}
    (bounded : s.buf.length < BATCH_MAX_SIZE) (ran : (machine log).run s es = some s') :
    s.table <+: s'.table ∧ s'.buf.length < BATCH_MAX_SIZE := by
  induction es generalizing s with
  | nil =>
      obtain rfl := Option.some.inj ran
      exact ⟨List.prefix_refl _, bounded⟩
  | cons e es ih =>
      obtain ⟨t, first, rest⟩ := Option.bind_eq_some_iff.mp ran
      obtain ⟨kept, below⟩ := prefix_step bounded first
      obtain ⟨kept', below'⟩ := ih below rest
      exact ⟨kept.trans kept', below'⟩

/-- The row of a message that Postgres takes is in the table. -/
theorem mem_table_of_accepts {log : List Record} {s s' : Consumer} {e : Event}
    {message : ServerMessage} (bounded : s.buf.length < BATCH_MAX_SIZE)
    (accepted : Accepts log s e message) (step : (machine log).step s e = some s') :
    message.row ∈ s'.table := by
  obtain ⟨small, _⟩ := arrive_bounded log bounded e
  obtain ⟨answers, flushes, reachable⟩ := accepted.flushes
  obtain ⟨_, ⟨none, _⟩ | ⟨answers', flushes', rfl⟩⟩ := step_cases step
  · rw [none] at flushes
    simp at flushes
  · obtain rfl := Option.some.inj (flushes'.symm.trans flushes)
    have fits := accepted.fits
    rw [rows_ofMessages] at fits
    have stored : message.row ∈ tableAfter answers'.reachable s.table (arrive log s e).buf := by
      rw [tableAfter_eq _ _ small, if_pos ⟨reachable, fits⟩]
      exact List.mem_append_right _ (List.mem_map_of_mem accepted.batched)
    unfold flushAndCommit
    split
    · exact stored
    · exact stored

/-! ### Acknowledged records -/

/-- Every well-formed record below the committed offset is in the table. -/
def AckedStored (log : List Record) (s : Consumer) : Prop :=
  ∀ i < s.committed, ∀ message, log[i]? = some (.message message) → message.row ∈ s.table

/-- The commit of this iteration, if it makes one, loses nothing: the insert before
it is accepted, or all messages of the batch are in the table already. -/
def Lossless (log : List Record) (s : Consumer) (e : Event) : Prop :=
  ∀ answers, flushed log s e = some answers → answers.commit = true →
    (answers.reachable = true ∧
      Insertable s.table ((arrive log s e).buf.map ServerMessage.row)) ∨
    ∀ message ∈ (arrive log s e).buf, message.row ∈ s.table

/-- Every consumed message is accounted for: the acknowledged ones are in the table
and, while the loop runs, the others are there or in the buffer. -/
structure Accounted (log : List Record) (s : Consumer) : Prop where
  acked : AckedStored log s
  waiting : s.running = true → ∀ i < s.position, ∀ message,
    log[i]? = some (.message message) → message ∈ s.buf ∨ message.row ∈ s.table
  buffered : ∀ message ∈ s.buf, ∃ i < s.position, log[i]? = some (.message message)

theorem accounted_start (log : List Record) (table : List MessageRow) :
    Accounted log (start table) where
  acked := by simp [AckedStored, start]
  waiting := by simp [start]
  buffered := by simp [start]

/-- Ending the loop changes nothing that is accounted for. -/
theorem Accounted.finish {log : List Record} {s : Consumer} (h : Accounted log s) (e : Event) :
    Accounted log (s.finish e) where
  acked := h.acked
  waiting := fun live => h.waiting (Bool.and_eq_true_iff.mp live).1
  buffered := h.buffered

/-- Taking in a record keeps every message accounted for. -/
theorem Accounted.arrive {log : List Record} {s : Consumer} (h : Accounted log s) (e : Event) :
    Accounted log (arrive log s e) where
  acked := h.acked
  waiting := by
    intro live i below message at_i
    simp only [Consumer.arrive, List.mem_append] at below ⊢
    by_cases before : i < s.position
    · rcases h.waiting live i before message at_i with waits | stored
      · exact .inl (.inl waits)
      · exact .inr stored
    · cases e with
      | recv answers =>
          have here : i = s.position := by
            simp only [consumed] at below
            omega
          subst here
          exact .inl (.inr (by simp [taken, at_i]))
      | _ => exact absurd below before
  buffered := by
    intro message member
    rcases List.mem_append.mp member with old | new
    · obtain ⟨i, below, at_i⟩ := h.buffered message old
      exact ⟨i, Nat.lt_add_right _ below, at_i⟩
    · cases e with
      | recv answers =>
          refine ⟨s.position, Nat.lt_succ_self _, ?_⟩
          simp only [taken] at new
          split at new
          · rename_i other next
            rw [next, List.mem_singleton.mp new]
          · simp at new
      | _ => simp [taken] at new

/-- After a flush that loses nothing every consumed message is in the table, and
the commit may cover them all. -/
theorem Accounted.flushAndCommit {log : List Record} {s : Consumer} (h : Accounted log s)
    (live : s.running = true) (small : s.buf.length ≤ BATCH_MAX_SIZE) (answers : Answers)
    (lossless : answers.commit = true →
      (answers.reachable = true ∧ Insertable s.table (s.buf.map ServerMessage.row)) ∨
        ∀ message ∈ s.buf, message.row ∈ s.table) :
    Accounted log (s.flushAndCommit answers) := by
  have kept : ∀ row ∈ s.table, row ∈ tableAfter answers.reachable s.table s.buf := fun _ row =>
    (prefix_tableAfter answers.reachable s.table small).subset row
  cases accepted : answers.commit with
  | false =>
      refine ⟨fun i below message at_i => ?_, ?_, ?_⟩
      · simp only [Consumer.flushAndCommit, accepted] at below ⊢
        exact kept _ (h.acked i below message at_i)
      · simp [Consumer.flushAndCommit, accepted]
      · simp [Consumer.flushAndCommit, accepted]
  | true =>
      have stored : ∀ i < s.position, ∀ message, log[i]? = some (.message message) →
          message.row ∈ tableAfter answers.reachable s.table s.buf := by
        intro i below message at_i
        rcases h.waiting live i below message at_i with waits | stored
        · rcases lossless accepted with ok | already
          · rw [tableAfter_eq answers.reachable s.table small, if_pos ok]
            exact List.mem_append_right _ (List.mem_map_of_mem waits)
          · exact kept _ (already message waits)
        · exact kept _ stored
      refine ⟨?_, ?_, ?_⟩
      · simpa [AckedStored, Consumer.flushAndCommit, accepted] using stored
      · intro _ i below message at_i
        simp only [Consumer.flushAndCommit, accepted] at below ⊢
        exact .inr (stored i below message at_i)
      · simp [Consumer.flushAndCommit, accepted]

/-- The invariant of the loop. -/
def LoopInv (log : List Record) (s : Consumer) : Prop :=
  Accounted log s ∧ s.buf.length < BATCH_MAX_SIZE

/-- An iteration that loses nothing keeps the loop's invariant. -/
theorem loopInv_step {log : List Record} {s s' : Consumer} {e : Event} (inv : LoopInv log s)
    (lossless : Lossless log s e) (step : (machine log).step s e = some s') : LoopInv log s' := by
  obtain ⟨accounted, bounded⟩ := inv
  obtain ⟨small, below⟩ := arrive_bounded log bounded e
  obtain ⟨live, ⟨none, rfl⟩ | ⟨answers, flushes, rfl⟩⟩ := step_cases step
  · exact ⟨(accounted.arrive e).finish e, below none⟩
  · have after := (accounted.arrive e).flushAndCommit live small answers (lossless answers flushes)
    refine ⟨after.finish e, ?_⟩
    cases accepted : answers.commit <;>
      simp [Consumer.finish, Consumer.flushAndCommit, accepted, BATCH_MAX_SIZE]

/-- An iteration after which every acknowledged record is in the table has lost
nothing: a commit covers the whole batch it flushed. -/
theorem lossless_of_ackedStored {log : List Record} {s s' : Consumer} {e : Event}
    (inv : LoopInv log s) (step : (machine log).step s e = some s') (acked : AckedStored log s') :
    Lossless log s e := by
  obtain ⟨accounted, bounded⟩ := inv
  obtain ⟨small, _⟩ := arrive_bounded log bounded e
  intro answers flushes commits
  obtain ⟨_, ⟨none, _⟩ | ⟨answers', flushes', rfl⟩⟩ := step_cases step
  · rw [none] at flushes
    simp at flushes
  · obtain rfl : answers' = answers := Option.some.inj (flushes'.symm.trans flushes)
    by_cases ok : answers'.reachable = true ∧
        Insertable s.table ((arrive log s e).buf.map ServerMessage.row)
    · exact .inl ok
    · right
      intro message member
      obtain ⟨i, below, at_i⟩ := (accounted.arrive e).buffered message member
      have stored := acked i (by simpa [Consumer.finish, Consumer.flushAndCommit, commits] using below)
        message at_i
      have unchanged : tableAfter answers'.reachable s.table (arrive log s e).buf = s.table := by
        rw [tableAfter_eq _ _ small, if_neg ok]
      simp only [Consumer.finish, Consumer.flushAndCommit, commits, if_true] at stored
      change message.row ∈ tableAfter answers'.reachable s.table (arrive log s e).buf at stored
      rwa [unchanged] at stored

/-- In every run of the consumer, every record below the committed offset is in the
table throughout exactly when every commit of the run follows a flush that lost
nothing. -/
theorem acknowledged_stored_iff (log : List Record) (table : List MessageRow)
    (events : List Event) :
    (machine log).Along (AckedStored log) (start table) events ↔
      (machine log).Steps (Lossless log) (start table) events :=
  Machine.along_iff_steps (fun _ inv => inv.1.acked) (fun _ _ _ inv ok step => loopInv_step inv ok step)
    (fun _ _ _ inv step acked => lossless_of_ackedStored inv step acked)
    ⟨accounted_start log table, by simp [start, BATCH_MAX_SIZE]⟩ events

/-- One record, one deadline at which Postgres cannot be reached: the offset is
committed and the message is gone. -/
theorem failed_flush_loses_record :
    ¬ ∀ (log : List Record) (table : List MessageRow) (events : List Event) (s : Consumer),
      (machine log).run (start table) events = some s → AckedStored log s := by
  intro acknowledged
  have stored := acknowledged [.message (greeting 1 "hi")] []
    [.recv ⟨true, true⟩, .deadline ⟨false, true⟩] _ rfl 0 (by decide) (greeting 1 "hi") rfl
  revert stored
  decide

end Consumer

end YappaCore
