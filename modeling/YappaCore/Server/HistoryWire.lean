import YappaCore.Kafka.Consumer
import YappaCore.Server.Injection
import YappaCore.Server.Persisted

/-!
The history of a channel, and what its users were sent. A message is delivered with its channel
type as serde writes it, and stored under the name that `{:?}` prints.

`history_misses_live`: the history of the channel that a delivered message names does not have the
message. `history_finds_stored` and `response_row` say what a request under the stored name finds:
all of the message but its channel type.

`timestamp_read_back`: the time of a message that a consumer stored comes back as it was sent when
its cast to `i64` is a second that chrono has, and as 0 otherwise.
-/

namespace YappaCore

open Lib Lib.Paging

/-! ### What was delivered -/

/-- The channel that the fields of a delivered message name. -/
def ServerMessage.wirePath (message : ServerMessage) : ChannelPath :=
  ⟨message.tenantId, message.channelType.wire, message.channelId⟩

/-- The fields of a delivered message that the history has too. -/
def ServerMessage.entry (message : ServerMessage) : MessageResponse where
  messageId := uuidText message.messageId
  channelType := message.channelType.wire
  channelId := message.channelId
  senderId := message.senderId
  text := message.payload.text
  timestamp := message.timestamp
  conversationId := uuidText message.conversationId

theorem ChannelType.wire_ne_debug (type type' : ChannelType) : type.wire ≠ type'.debug := by
  cases type <;> cases type' <;> decide

/-- The row of a message gives back its fields, but for the channel type, where chrono has the
time. -/
theorem response_row {message : ServerMessage}
    (represented : (fromTimestamp message.timestamp.toInt64.toInt).isSome = true) :
    message.row.response = { message.entry with channelType := message.channelType.debug } := by
  have time : (Int64.ofInt message.row.createdAt).toUInt64 = message.timestamp := by
    change (Int64.ofInt (createdAt message.timestamp)).toUInt64 = _
    rw [createdAt_of_represented represented, Int64.ofInt_toInt]
    rfl
  unfold MessageRow.response
  rw [time]
  rfl

/-! ### Tables that the server writes -/

namespace Cluster

variable {N : Type} [DecidableEq N]

/-- In every run without Kafka or with it, the table is one that inserts of messages made. -/
theorem written_run (state : AppState) {db : Database} (schema : db.Schema) (named : db.Named)
    (empty : db.messages = []) {es : List (Event N)} {s : Cluster N}
    (ran : (machine N state).run (start db) es = some s) : Written s.db.messages := by
  let Inv (es : List (Event N)) (s : Cluster N) : Prop := Archived state db es s ∧ Written s.db.messages
  have init : Inv [] (start db) := by
    refine ⟨.init named empty, ?_⟩
    change Written db.messages
    rw [empty]
    exact .empty
  have step : ∀ es s e s', Inv es s → (machine N state).step s e = some s' → Inv (es ++ [e]) s' := by
    rintro es s e s' ⟨inv, written⟩ next
    have h := stepped next
    refine ⟨inv.step schema next, ?_⟩
    cases h with
    | @perform id n identity alive handling op next choice busy =>
        rcases messages_perform s n choice op with same | ⟨rows, rfl, _, inserted⟩
        · exact same ▸ written
        · have files := inv.tasks id _ busy
          obtain ⟨message, rfl, _⟩ := files.1
          exact .insert [message] written inserted
    | _ => exact written
  exact (Machine.invariant init step ran).2

end Cluster

/-- So is the table that a consumer leaves. -/
theorem Consumer.written_run (log : List Record) {table : List MessageRow} (written : Written table)
    {es : List Consumer.Event} {s : Consumer}
    (ran : (Consumer.machine log).run (Consumer.start table) es = some s) : Written s.table := by
  let Inv (_ : List Consumer.Event) (s : Consumer) : Prop :=
    Written s.table ∧ s.buf.length < BATCH_MAX_SIZE
  have init : Inv [] (Consumer.start table) := ⟨written, Nat.zero_lt_succ _⟩
  have step : ∀ es s e s', Inv es s → (Consumer.machine log).step s e = some s' →
      Inv (es ++ [e]) s' := by
    rintro es s e s' ⟨written, bounded⟩ next
    obtain ⟨small, below⟩ := Consumer.arrive_bounded log bounded e
    obtain ⟨_, ⟨none, rfl⟩ | ⟨answers, _, rfl⟩⟩ := Consumer.step_cases next
    · exact ⟨written, below none⟩
    · have after : Written (tableAfter answers.reachable s.table (Consumer.arrive log s e).buf) := by
        rw [tableAfter_eq _ _ small]
        split
        · rename_i accepted
          refine .insert (Consumer.arrive log s e).buf written ?_
          rw [insertMessages, if_pos accepted.2]
        · exact written
      unfold Consumer.flushAndCommit
      split
      · exact ⟨after, Nat.zero_lt_succ _⟩
      · exact ⟨after, Nat.zero_lt_succ _⟩
  exact (Machine.invariant init step ran).1

/-! ### What the history finds -/

section Requests

variable (pg : Postgres) {table : List MessageRow} (written : Written table)

include written

/-- No row is stored under a channel type as serde writes it. -/
theorem channelRows_wirePath (message : ServerMessage) :
    channelRows table message.wirePath = [] := by
  obtain ⟨messages, rfl, _⟩ := written_iff.mp written
  rw [channelRows, List.filter_eq_nil_iff]
  intro row mem own
  obtain ⟨stored, _, rfl⟩ := List.mem_map.mp mem
  have type := congrArg ChannelPath.channelType (of_decide_eq_true own)
  exact message.channelType.wire_ne_debug stored.channelType type.symm

theorem history_wirePath (message : ServerMessage) (limit : Option Int) :
    (getChannelHistory pg table message.wirePath ⟨none, limit⟩).2 = [] := by
  rw [List.eq_nil_iff_forall_not_mem]
  intro entry mem
  obtain ⟨_, row, first, _⟩ := (mem_history _ _ _).mp mem
  have there := (pg.order.perm _).mem_iff.mp (List.mem_of_mem_take first)
  rw [channelRows_wirePath written] at there
  exact List.not_mem_nil there

/-- A request under the stored name finds a message that has fewer than 100 others of its channel
which are as new. -/
theorem history_finds_stored (reachable : pg.ok = true) {row : MessageRow} (mem : row ∈ table)
    (newest : (channelRows table row.path).countP
      (fun other => other ≠ row ∧ row.createdAt ≤ other.createdAt) < 100) :
    row.response ∈ (getChannelHistory pg table row.path ⟨none, some 100⟩).2 := by
  have storable := written.storable mem
  have answers : pg.Answers row.path := ⟨reachable, storable.1, storable.2.1, storable.2.2.1⟩
  have there : row ∈ channelRows table row.path := List.mem_filter.mpr ⟨mem, decide_eq_true rfl⟩
  have perm := pg.order.perm (channelRows table row.path)
  have first : row ∈ (pg.order.arrange (channelRows table row.path)).take 100 := by
    refine mem_take_of_few (r := fun a b => b.createdAt ≤ a.createdAt) (pg.order.sorted _)
      (perm.mem_iff.mpr there) ?_
    rw [perm.countP_eq]
    exact newest
  exact (mem_history _ _ _).mpr ⟨⟨answers, by decide⟩, row, first, rfl⟩

/-- The history of the channel that a delivered message names does not have the message. -/
theorem history_misses_live (message : ServerMessage) :
    message.entry ∉ (getChannelHistory pg table message.wirePath ⟨none, some 100⟩).2 := by
  rw [history_wirePath pg written]
  exact List.not_mem_nil

end Requests

/-- A table of one message. -/
theorem history_misses_greeting :
    let message := greeting 1 "hi"
    message.entry ∉ (getChannelHistory plainPostgres [message.row] message.wirePath
      ⟨none, some 100⟩).2 := by
  intro message
  have written : Written [message.row] := written_iff.mpr ⟨[message], rfl, by decide⟩
  exact history_misses_live plainPostgres written message

/-- A direct message that was stored in a run, and is the only one, is not in its history. -/
theorem delivered_not_in_history :
    ¬ ∀ (pg : Postgres) (state : AppState) (es : List (Cluster.Event Unit)) (s : Cluster Unit)
      (message : ServerMessage), pg.ok = true →
      (Cluster.machine Unit state).run (Cluster.start ⟨[], [], []⟩) es = some s →
      message.row ∈ s.db.messages → s.db.messages.length ≤ 100 →
      message.entry ∈ (getChannelHistory pg s.db.messages message.wirePath ⟨none, some 100⟩).2 := by
  intro always
  let state : AppState := ⟨false, sha256Names⟩
  let message := Handler.dmMessage state ⟨"acme", "ada"⟩ ⟨.dm, "bob", "hi"⟩ 11 7
  obtain ⟨s, ran, stored⟩ : ∃ s ∈ (Cluster.machine Unit state).run (Cluster.start ⟨[], [], []⟩)
      (Cluster.sendDm 1 "acme" "ada" "bob" 10), s.db.messages = [message.row] := by
    decide
  have written : Written s.db.messages := by
    rw [stored]
    exact written_iff.mpr ⟨[message], rfl, by decide⟩
  have found := always plainPostgres state _ s message rfl ran (by simp [stored]) (by simp [stored])
  rw [history_wirePath plainPostgres written] at found
  exact List.not_mem_nil found

/-! ### Timestamps -/

/-- The timestamps that survive: those up to the last second chrono has, and those whose cast to
`i64` is a second before 1970 that it has. -/
def Survives (timestamp : UInt64) : Prop :=
  timestamp.toNat ≤ 8210266876799 ∨ 18446735739108322816 ≤ timestamp.toNat

instance (timestamp : UInt64) : Decidable (Survives timestamp) := by
  unfold Survives; infer_instance

theorem toInt_toInt64 (timestamp : UInt64) : timestamp.toInt64.toInt =
    if timestamp.toNat < 9223372036854775808 then (timestamp.toNat : Int)
    else timestamp.toNat - 18446744073709551616 := by
  have word := BitVec.toInt_eq_toNat_cond timestamp.toBitVec
  change timestamp.toBitVec.toInt = _
  rw [word]
  change (if 2 * timestamp.toNat < _ then (timestamp.toNat : Int) else timestamp.toNat - _) = _
  split <;> split <;> omega

/-- They are those whose cast to `i64` chrono represents. -/
theorem isSome_fromTimestamp (timestamp : UInt64) :
    (fromTimestamp timestamp.toInt64.toInt).isSome = true ↔ Survives timestamp := by
  have below := timestamp.toNat_lt
  have cast := toInt_toInt64 timestamp
  unfold fromTimestamp Survives
  split
  · rename_i inside
    refine ⟨fun _ => ?_, fun _ => rfl⟩
    split at cast <;> omega
  · rename_i outside
    refine ⟨fun found => by simp at found, fun survives => ?_⟩
    split at cast <;> omega

/-- What a history gives back for the time of a stored message. -/
theorem timestamp_row (message : ServerMessage) : message.row.response.timestamp =
    if Survives message.timestamp then message.timestamp else 0 := by
  by_cases survives : Survives message.timestamp
  · rw [if_pos survives, response_row ((isSome_fromTimestamp _).mpr survives)]
    rfl
  · have unrepresented : fromTimestamp message.timestamp.toInt64.toInt = none := by
      rw [← Option.not_isSome_iff_eq_none, isSome_fromTimestamp]
      exact survives
    rw [if_neg survives]
    change (Int64.ofInt (createdAt message.timestamp)).toUInt64 = 0
    rw [createdAt, unrepresented]
    rfl

/-- Exactly these survive. -/
theorem timestamp_row_eq_iff (message : ServerMessage) :
    message.row.response.timestamp = message.timestamp ↔ Survives message.timestamp := by
  rw [timestamp_row]
  split
  · rename_i survives
    exact ⟨fun _ => survives, fun _ => rfl⟩
  · rename_i lost
    refine ⟨fun same => ?_, fun survives => absurd survives lost⟩
    rw [← same]
    exact .inl (Nat.zero_le _)

/-- A message has one row in a table that inserts made. -/
theorem Written.row_eq {table : List MessageRow} (written : Written table) {row row' : MessageRow}
    (mem : row ∈ table) (mem' : row' ∈ table) (same : row.messageId = row'.messageId) :
    row = row' := by
  obtain ⟨_, _, _, distinct, _⟩ := written_iff.mp written
  exact List.inj_on_of_nodup_map distinct mem mem' same

/-- A message whose batch a consumer flushes and Postgres takes has one row in the table from then
on. Every history request that fetches the row gives back the message's time, or 0; and so do all
entries with the message's id, where the request's `before` is closed. -/
theorem timestamp_read_back (log : List Record) {table : List MessageRow} (written : Written table)
    {before after : List Consumer.Event} {e : Consumer.Event} {s s' : Consumer}
    {message : ServerMessage}
    (ran : (Consumer.machine log).run (Consumer.start table) before = some s)
    (accepted : Consumer.Accepts log s e message)
    (later : (Consumer.machine log).run s (e :: after) = some s') :
    ∃ row, s'.table.filter (fun row => row.messageId = message.messageId) = [row] ∧
      ∀ (pg : Postgres) (path : ChannelPath) (query : HistoryQuery),
        (∀ rows, historyRows pg s'.table path query = some rows → row ∈ rows →
          row.response ∈ (getChannelHistory pg s'.table path query).2 ∧
            row.response.timestamp =
              if Survives message.timestamp then message.timestamp else 0) ∧
        ((∀ before ∈ query.before, Closed before) →
          ∀ entry ∈ (getChannelHistory pg s'.table path query).2,
            entry.messageId = uuidText message.messageId →
            entry.timestamp = if Survives message.timestamp then message.timestamp else 0) := by
  have empty : (Consumer.start table).buf.length < BATCH_MAX_SIZE := Nat.zero_lt_succ _
  have bounded : s.buf.length < BATCH_MAX_SIZE := (Consumer.prefix_run empty ran).2
  obtain ⟨t, first, rest⟩ := Option.bind_eq_some_iff.mp later
  have below : t.buf.length < BATCH_MAX_SIZE := (Consumer.prefix_step bounded first).2
  have stored : message.row ∈ s'.table :=
    (Consumer.prefix_run below rest).1.subset (Consumer.mem_table_of_accepts bounded accepted first)
  have whole : (Consumer.machine log).run (Consumer.start table) (before ++ e :: after) =
      some s' := by
    rw [Machine.run_append, ran]
    exact later
  have written' := Consumer.written_run log written whole
  obtain ⟨_, _, _, distinct, _⟩ := written_iff.mp written'
  refine ⟨message.row, filter_messageId_of_nodup distinct stored, fun pg path query => ⟨?_, ?_⟩⟩
  · intro rows fetched mem
    refine ⟨?_, timestamp_row message⟩
    unfold getChannelHistory
    rw [fetched]
    exact List.mem_map_of_mem mem
  · intro closed entry shown same
    unfold getChannelHistory at shown
    cases fetched : historyRows pg s'.table path query with
    | none =>
        rw [fetched] at shown
        exact absurd shown List.not_mem_nil
    | some rows =>
        rw [fetched] at shown
        obtain ⟨row, mem, rfl⟩ := List.mem_map.mp shown
        have there := List.mem_of_mem_filter (fetched_subset closed fetched mem)
        obtain rfl := written'.row_eq there stored (uuidText_injective same)
        exact timestamp_row message

/-- A consumer over a table with a message reads two more, one of them of the second before 1970
as a `u64`, and flushes them. -/
theorem timestamp_read_back_wrapped :
    let message := { greeting 3 "hi" with timestamp := 18446744073709551615 }
    let log : List Record := [.message (greeting 2 "hi"), .malformed, .message message]
    let table := [(greeting 1 "hi").row]
    let good : Answers := ⟨true, true⟩
    ∃ s s', (Consumer.machine log).run (Consumer.start table) [.recv good, .recv good, .recv good] =
        some s ∧ Consumer.Accepts log s (.deadline good) message ∧
      (Consumer.machine log).run s [.deadline good, .recvError] = some s' ∧
      ∃ entry ∈ (getChannelHistory plainPostgres s'.table message.row.path ⟨none, some 100⟩).2,
        entry.messageId = uuidText 3 ∧ entry.timestamp = 18446744073709551615 := by
  intro message log table good
  let read : Consumer := ⟨3, 0, [greeting 2 "hi", message], table, true⟩
  have ran : (Consumer.machine log).run (Consumer.start table)
      [.recv good, .recv good, .recv good] = some read := rfl
  have accepted : Consumer.Accepts log read (.deadline good) message :=
    ⟨by decide, ⟨good, by decide, rfl⟩, by decide⟩
  obtain ⟨s', later, stored⟩ : ∃ s' ∈ (Consumer.machine log).run read
      [.deadline good, .recvError],
      s'.table = [(greeting 1 "hi").row, (greeting 2 "hi").row, message.row] := by
    decide
  have written : Written table := written_iff.mpr ⟨[greeting 1 "hi"], rfl, by decide⟩
  obtain ⟨row, only, times⟩ := timestamp_read_back log written ran accepted later
  have written' : Written s'.table := by
    rw [stored]
    exact written_iff.mpr ⟨[greeting 1 "hi", greeting 2 "hi", message], rfl, by decide⟩
  have shown := history_finds_stored plainPostgres written' rfl
    (show message.row ∈ s'.table by simp [stored]) (by rw [stored]; decide)
  refine ⟨_, _, ran, accepted, later, message.row.response, shown, rfl, ?_⟩
  have noBefore : ∀ before ∈ (⟨none, some 100⟩ : HistoryQuery).before, Closed before :=
    fun _ none => absurd none (Option.not_mem_none _)
  exact ((times _ _ _).2 noBefore _ shown rfl).trans (if_pos (by decide))

/-- The first second that chrono does not have is stored as the epoch. -/
theorem timestamp_lost :
    ¬ ∀ (log : List Record) (before after : List Consumer.Event) (e : Consumer.Event)
      (s s' : Consumer) (message : ServerMessage) (pg : Postgres) (path : ChannelPath)
      (query : HistoryQuery),
      (Consumer.machine log).run (Consumer.start []) before = some s →
      Consumer.Accepts log s e message →
      (Consumer.machine log).run s (e :: after) = some s' →
      (∀ before ∈ query.before, Closed before) →
      ∀ entry ∈ (getChannelHistory pg s'.table path query).2,
        entry.messageId = uuidText message.messageId → entry.timestamp = message.timestamp := by
  intro survives
  let message := { greeting 1 "hi" with timestamp := 8210266876800 }
  let good : Answers := ⟨true, true⟩
  let read : Consumer := ⟨1, 0, [message], [], true⟩
  have ran : (Consumer.machine [.message message]).run (Consumer.start []) [.recv good] =
      some read := rfl
  have accepted : Consumer.Accepts [.message message] read (.deadline good) message :=
    ⟨by decide, ⟨good, by decide, rfl⟩, by decide⟩
  obtain ⟨s', later, stored⟩ : ∃ s' ∈ (Consumer.machine [.message message]).run read
      [.deadline good], s'.table = [message.row] := by
    decide
  have written : Written s'.table := by
    rw [stored]
    exact written_iff.mpr ⟨[message], rfl, by decide⟩
  have shown := history_finds_stored plainPostgres written rfl
    (show message.row ∈ s'.table by simp [stored]) (by rw [stored]; decide)
  have noBefore : ∀ before ∈ (⟨none, some 100⟩ : HistoryQuery).before, Closed before :=
    fun _ none => absurd none (Option.not_mem_none _)
  have kept := survives _ _ _ _ _ _ _ _ _ _ ran accepted later noBefore _ shown rfl
  exact absurd kept (by decide)

end YappaCore
