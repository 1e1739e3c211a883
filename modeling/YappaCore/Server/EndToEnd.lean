import YappaCore.Server.Injection
import YappaCore.Server.InOrder
import YappaCore.Server.Persistence

/-!
From a client's frame to the history of its channel, over any run of any number of nodes and of the
consumers that read what they produced.

`history_sent`: what a request is shown, a connection of that tenant wrote into that channel.
`history_shows`: what a connection wrote and was not refused is shown, unless there are as many rows
at least as new as the request has room for.
-/

namespace YappaCore

open Lib Lib.Paging Handler

/-! ### The table -/

namespace Consumer

theorem taken_subset (log : List Record) (s : Consumer) (e : Event) :
    taken log s e ⊆ messagesOf log := by
  intro message mem
  have upTo : message ∈ messagesOf (log.take (s.position + consumed e)) := by
    rw [messagesOf_take]
    exact List.mem_append_right _ mem
  exact ((List.take_sublist _ log).filterMap _).subset upTo

/-- Whatever fails, a consumer adds to the table only messages that it read. -/
theorem table_subset {log : List Record} {table : List MessageRow} {events : List Event}
    {c : Consumer} (ran : (machine log).run (start table) events = some c) :
    c.table ⊆ table ++ (messagesOf log).map ServerMessage.row := by
  let Inv (_ : List Event) (s : Consumer) : Prop :=
    (s.buf ⊆ messagesOf log ∧ s.buf.length < BATCH_MAX_SIZE) ∧
      s.table ⊆ table ++ (messagesOf log).map ServerMessage.row
  have init : Inv [] (start table) :=
    ⟨⟨List.nil_subset _, Nat.zero_lt_succ _⟩, List.subset_append_left _ _⟩
  have step : ∀ es s e s', Inv es s → (machine log).step s e = some s' → Inv (es ++ [e]) s' := by
    rintro es s e s' ⟨⟨read, bounded⟩, inside⟩ next
    obtain ⟨small, below⟩ := arrive_bounded log bounded e
    have arrived : (arrive log s e).buf ⊆ messagesOf log :=
      List.append_subset.mpr ⟨read, taken_subset log s e⟩
    obtain ⟨_, ⟨none, rfl⟩ | ⟨answers, _, rfl⟩⟩ := step_cases next
    · exact ⟨⟨arrived, below none⟩, inside⟩
    · have after : tableAfter answers.reachable s.table (arrive log s e).buf ⊆
          table ++ (messagesOf log).map ServerMessage.row := by
        rw [tableAfter_eq _ _ small]
        split
        · refine List.append_subset.mpr ⟨inside, ?_⟩
          exact List.Subset.trans (List.map_subset _ arrived) (List.subset_append_right _ _)
        · exact inside
      unfold flushAndCommit
      split
      · exact ⟨⟨List.nil_subset _, Nat.zero_lt_succ _⟩, after⟩
      · exact ⟨⟨List.nil_subset _, Nat.zero_lt_succ _⟩, after⟩
  exact (Machine.invariant init step ran).2

end Consumer

/-- The tables of a cluster's database: what its nodes inserted, and then what consumers did, one
after the other, each with some of what was produced as its log, in any order and as often as it
comes. -/
inductive Cluster.Filled {N : Type} (s : Cluster N) : List MessageRow → Prop
  | inserted : Filled s s.db.messages
  | consumed {table : List MessageRow} {log : List Record} {events : List Consumer.Event}
      {c : Consumer} (before : Filled s table)
      (produced : messagesOf log ⊆ s.kafka.map (·.2.2))
      (ran : (Consumer.machine log).run (Consumer.start table) events = some c) : Filled s c.table

theorem Cluster.Filled.subset {N : Type} {s : Cluster N} {table : List MessageRow}
    (filled : s.Filled table) : table ⊆ s.persisted := by
  induction filled with
  | inserted => exact List.subset_append_left _ _
  | consumed before produced ran ih =>
      have rows := List.map_subset ServerMessage.row produced
      rw [List.map_map] at rows
      refine List.Subset.trans (Consumer.table_subset ran) (List.append_subset.mpr ⟨ih, ?_⟩)
      exact List.Subset.trans rows (List.subset_append_right _ _)

/-! ### What a request is shown -/

/-- A row is shown if there are fewer others as new as it in its channel than the request has
room. -/
theorem shown_of_few {pg : Postgres} {table : List MessageRow} {row : MessageRow}
    (here : row ∈ table) {limit : Option Int} (answers : pg.Answers row.path)
    (few : ((channelRows table row.path).countP fun other =>
      other ≠ row ∧ row.createdAt ≤ other.createdAt : ℕ) < HistoryQuery.rows ⟨none, limit⟩) :
    row.response ∈ (getChannelHistory pg table row.path ⟨none, limit⟩).2 := by
  have positive : 0 ≤ HistoryQuery.rows ⟨none, limit⟩ := by omega
  have perm := pg.order.perm (channelRows table row.path)
  refine (mem_history pg row.path table).mpr ⟨⟨answers, positive⟩, row, ?_, rfl⟩
  refine mem_take_of_few (pg.order.sorted _) (perm.mem_iff.mpr ?_) ?_
  · exact List.mem_filter.mpr ⟨here, decide_eq_true rfl⟩
  · rw [perm.countP_eq]
    omega

namespace Cluster

variable {N : Type} [DecidableEq N] {state : AppState} {db : Database}

/-- What a connection stored is persisted. -/
theorem mem_persisted_of_act {es : List (Event N)} {s : Cluster N}
    (ran : (machine N state).run (start db) es = some s) {id : ConnectionId} {row : MessageRow}
    (mem : row ∈ (acts state db es id).flatMap Act.stored) : row ∈ s.persisted := by
  rw [← outputs_of] at mem
  obtain ⟨p, own, rfl⟩ := List.mem_map.mp mem
  refine (persisted_outputs ran).mem_iff.mpr (List.mem_append_right _ ?_)
  exact List.mem_map_of_mem (List.mem_of_mem_filter own)

/-- What is persisted was there, or a connection stored it for one of its frames. -/
theorem stored_of_persisted {es : List (Event N)} {s : Cluster N}
    (ran : (machine N state).run (start db) es = some s) {row : MessageRow}
    (mem : row ∈ s.persisted) : row ∈ db.messages ∨ ∃ id socket, s.sockets id = some socket ∧
      ∃ text ∈ frames es id, text.Chats socket.identity row := by
  rcases List.mem_append.mp ((persisted_outputs ran).mem_iff.mp mem) with old | new
  · exact .inl old
  · obtain ⟨⟨id, row⟩, output, rfl⟩ := List.mem_map.mp new
    obtain ⟨socket, found⟩ := opened_of_output ran output
    have inv := sequenced ran id
    rw [found] at inv
    obtain ⟨each, all, stores⟩ :=
      inv.outputs (fun _ _ _ => rfl) fun text => yields_stored text socket.identity state
    have own : row ∈ ((outputs Act.stored state db es).filter (·.1 = id)).map Prod.snd :=
      List.mem_map_of_mem (List.mem_filter.mpr ⟨output, decide_eq_true rfl⟩)
    rw [outputs_of, all] at own
    obtain ⟨rows, part, inside⟩ := List.mem_flatten.mp own
    obtain ⟨i, bound, rfl⟩ := List.mem_iff_getElem.mp part
    have bound' : i < (frames es id).length := stores.length_eq ▸ bound
    rcases stores.get bound' bound with none | ⟨row', chats, one⟩
    · rw [List.get_eq_getElem] at none
      rw [none] at inside
      exact absurd inside List.not_mem_nil
    · rw [List.get_eq_getElem] at one
      rw [one] at inside
      obtain rfl := List.mem_singleton.mp inside
      exact .inr ⟨id, socket, found, _, List.getElem_mem bound', chats⟩

/-- In every run over a table without messages, and whatever consumers did: what the history of a
channel shows, a connection of that tenant wrote into that channel, as the user and in the words
that it shows. -/
theorem history_sent (state : AppState) {db : Database} (empty : db.messages = [])
    {es : List (Event N)} {s : Cluster N} (ran : (machine N state).run (start db) es = some s)
    {table : List MessageRow} (filled : s.Filled table) (pg : Postgres) (path : ChannelPath)
    {query : HistoryQuery} (closed : ∀ before ∈ query.before, Closed before)
    {message : MessageResponse} (shown : message ∈ (getChannelHistory pg table path query).2) :
    ∃ id socket, s.sockets id = some socket ∧
      socket.identity = ⟨path.tenantId, message.senderId⟩ ∧
      ∃ text ∈ frames es id, ∃ payload, text.chat = some payload ∧
        payload.channelType.debug = path.channelType ∧ payload.userId = path.channelId ∧
        message.channelType = path.channelType ∧ message.channelId = path.channelId ∧
        message.text = payload.content := by
  unfold getChannelHistory at shown
  cases fetched : historyRows pg table path query with
  | none =>
      rw [fetched] at shown
      exact absurd shown List.not_mem_nil
  | some rows =>
      rw [fetched] at shown
      obtain ⟨row, mem, rfl⟩ := List.mem_map.mp shown
      obtain ⟨there, channel⟩ := List.mem_filter.mp (fetched_subset closed fetched mem)
      obtain rfl := of_decide_eq_true channel
      rcases stored_of_persisted ran (filled.subset there) with old | ⟨id, socket, found, rest⟩
      · rw [empty] at old
        exact absurd old List.not_mem_nil
      · obtain ⟨text, sent, chats⟩ := rest
        obtain ⟨payload, chat, type, channelId, content⟩ := chats.chats
        exact ⟨id, socket, found, congrArg₂ Identity.mk chats.tenant.symm chats.sender.symm, text,
          sent, payload, chat, type.symm, channelId.symm, rfl, rfl, content⟩

theorem history_sent_dm :
    let state : AppState := ⟨false, sha256Names⟩
    let es := sendDm 1 "acme" "ada" "bob" 5
    let path : ChannelPath := ⟨"acme", "Dm", "bob"⟩
    ∃ s, (machine Unit state).run (start ⟨[], [], []⟩) es = some s ∧
      ∃ message ∈ (getChannelHistory plainPostgres s.db.messages path ⟨none, none⟩).2,
        ∃ id socket, s.sockets id = some socket ∧
          socket.identity = ⟨path.tenantId, message.senderId⟩ ∧
          ∃ text ∈ frames es id, ∃ payload, text.chat = some payload ∧
            payload.channelType.debug = path.channelType ∧ payload.userId = path.channelId ∧
            message.channelType = path.channelType ∧ message.channelId = path.channelId ∧
            message.text = payload.content := by
  intro state es path
  obtain ⟨s, ran, one, channel⟩ : ∃ s ∈ (machine Unit state).run (start ⟨[], [], []⟩) es,
      s.db.messages.length = 1 ∧ ∀ row ∈ s.db.messages, row.path = path := by decide
  obtain ⟨row, table⟩ := List.length_eq_one_iff.mp one
  have here : row ∈ s.db.messages := by
    rw [table]
    exact List.mem_singleton_self row
  have answers : plainPostgres.Answers row.path := by
    rw [channel row here]
    decide
  have alone : (channelRows s.db.messages row.path).countP
      (fun other => other ≠ row ∧ row.createdAt ≤ other.createdAt) = 0 := by
    rw [table]
    simp [channelRows]
  have shown := @shown_of_few plainPostgres s.db.messages row here none answers
    (by rw [alone]; decide)
  rw [channel row here] at shown
  have noBefore : ∀ before ∈ (⟨none, none⟩ : HistoryQuery).before, Closed before :=
    fun _ none => absurd none (Option.not_mem_none _)
  exact ⟨s, ran, _, shown,
    history_sent state rfl ran .inserted plainPostgres path noBefore shown⟩

/-- In every run: for a chat of admissible size that an idle connection's handler did not refuse,
where none of its publishes, produces and inserts failed, the handler stored one row, and that row
is shown in the history of its channel once what was persisted is in the table, unless there are as
many other rows at least as new as the request has room for. -/
theorem history_shows (state : AppState) (db : Database) {es : List (Event N)} {s : Cluster N}
    (ran : (machine N state).run (start db) es = some s) {id : ConnectionId} {socket : Socket N}
    (found : s.sockets id = some socket) (alive : socket.alive = true)
    (idle : socket.task = .ret ()) (went : ∀ act ∈ acts state db es id, act.done = true)
    {table : List MessageRow} (caughtUp : s.persisted ⊆ table) :
    ∃ opening traces, acts state db es id = opening ++ traces.flatten ∧
      (joinGeneral socket.identity).Ended opening ∧
      List.Forall₂ (fun text trace =>
        (handleTextMessage text socket.identity state).Ended trace ∧
        ∀ payload, text.chat = some payload → payload.content.utf8ByteSize ≤ MAX_PAYLOAD_SIZE →
        (∀ act ∈ trace, Act.refused act = false) →
        ∃ row, text.Chats socket.identity row ∧ trace.flatMap Act.stored = [row] ∧
          ∀ (pg : Postgres) (limit : Option Int), pg.Answers row.path →
          ((channelRows table row.path).countP fun other =>
            other ≠ row ∧ row.createdAt ≤ other.createdAt : ℕ) < HistoryQuery.rows ⟨none, limit⟩ →
          row.response ∈ (getChannelHistory pg table row.path ⟨none, limit⟩).2)
        (frames es id) traces := by
  obtain ⟨opening, traces, same, first, handled⟩ := handled_done ran found alive idle went
  refine ⟨opening, traces, same, first, ?_⟩
  have inside : ∀ trace ∈ traces, ∀ row ∈ trace.flatMap Act.stored, row ∈ table := by
    intro trace mem row stored
    obtain ⟨act, performed, wrote⟩ := List.mem_flatMap.mp stored
    have own : act ∈ acts state db es id := by
      rw [same]
      exact List.mem_append_right _ (List.mem_flatten_of_mem mem performed)
    exact caughtUp (mem_persisted_of_act ran (List.mem_flatMap.mpr ⟨act, own, wrote⟩))
  refine ((List.forall₂_and_left _ _).mpr ⟨inside, handled.flip⟩).flip.imp ?_
  rintro text trace ⟨kept, done, ends⟩
  refine ⟨ends, fun payload chat size member => ?_⟩
  obtain ⟨row, chats, one⟩ :=
    (returns_stored chat size).of_ended ends fun act mem => ⟨done act mem, member act mem⟩
  refine ⟨row, chats, one, fun pg limit answers few => shown_of_few (kept row ?_) answers few⟩
  rw [one]
  exact List.mem_singleton_self row

theorem history_shows_dm :
    let state : AppState := ⟨false, sha256Names⟩
    let es := sendDm 1 "acme" "ada" "bob" 5
    ∃ s, (machine Unit state).run (start ⟨[], [], []⟩) es = some s ∧
      ∃ opening traces, acts state ⟨[], [], []⟩ es 1 = opening ++ traces.flatten ∧
        (joinGeneral ⟨"acme", "ada"⟩).Ended opening ∧
        List.Forall₂ (fun text trace =>
          (handleTextMessage text ⟨"acme", "ada"⟩ state).Ended trace ∧
          ∀ payload, text.chat = some payload → payload.content.utf8ByteSize ≤ MAX_PAYLOAD_SIZE →
          (∀ act ∈ trace, Act.refused act = false) →
          ∃ row, text.Chats ⟨"acme", "ada"⟩ row ∧ trace.flatMap Act.stored = [row] ∧
            ∀ (pg : Postgres) (limit : Option Int), pg.Answers row.path →
            ((channelRows s.db.messages row.path).countP fun other =>
              other ≠ row ∧ row.createdAt ≤ other.createdAt : ℕ) <
                HistoryQuery.rows ⟨none, limit⟩ →
            row.response ∈ (getChannelHistory pg s.db.messages row.path ⟨none, limit⟩).2)
          (frames es 1) traces := by
  intro state es
  obtain ⟨s, ran, direct, socket, found, alive, identity, resting, went⟩ :
      ∃ s ∈ (machine Unit state).run (start ⟨[], [], []⟩) es, s.kafka = [] ∧
        ∃ socket ∈ s.sockets 1, socket.alive = true ∧ socket.identity = ⟨"acme", "ada"⟩ ∧
        idle socket = true ∧ ∀ act ∈ acts state ⟨[], [], []⟩ es 1, act.done = true := by decide
  have caughtUp : s.persisted ⊆ s.db.messages := by
    unfold persisted
    rw [direct, List.map_nil, List.append_nil]
    exact List.Subset.refl _
  have shown :=
    history_shows state ⟨[], [], []⟩ ran found alive (task_of_idle resting) went caughtUp
  rw [identity] at shown
  exact ⟨s, ran, shown⟩

end Cluster

end YappaCore
