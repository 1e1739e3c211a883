import Mathlib.Algebra.Order.Group.Multiset
import Mathlib.Algebra.Order.BigOperators.Group.Finset
import Mathlib.Data.Fintype.EquivFin
import YappaCore.Server.InOrder

/-!
How much work the frames of any number of clients make, and that it gets done.

A handler has at most eight operations and publishes at most one message, on at most two channels; a
listener publishes nothing. `comes_to_rest`: what was opened and sent bounds what the nodes ever do
for it, and whatever Redis, Kafka and Postgres answer, they can do all of it.
-/

namespace YappaCore

open Lib Handler

/-! ### One frame -/

namespace Handler

theorem within_parseOrNew (text : String) : (parseOrNew text).Within 1 := by
  unfold parseOrNew
  cases parseUuid text with
  | some id => exact Prog.within_ret id
  | none => exact fun id => Prog.within_ret id

theorem within_persistMessage (state : AppState) (msg : ServerMessage) :
    (persistMessage state msg).Within 1 := by
  rw [persistMessage_eq]
  split
  · exact fun _ => Prog.within_ret ()
  · exact fun _ => Prog.within_ret ()

/-- The handler of a frame has at most eight operations, those of a `CREATE`. -/
theorem within_handleTextMessage (text : TextFrame) (identity : Identity) (state : AppState) :
    (handleTextMessage text identity state).Within 8 := by
  have create : ∀ groupId, (handleCreate identity groupId).Within 8 := by
    intro groupId
    rw [handleCreate_eq]
    refine @Prog.Within.bind _ _ _ _ _ 1 7 _ (within_parseOrNew groupId) fun conversationId => ?_
    refine .call fun (created : Option Uuid) => ?_
    cases created with
    | none => exact Prog.within_ret ()
    | some id => exact fun _ _ _ _ _ _ => Prog.within_ret ()
  have join : ∀ groupId, (handleJoin identity groupId).Within 6 := by
    intro groupId
    rw [handleJoin_eq]
    refine .call fun (found : Option Uuid) => ?_
    cases found with
    | none => exact Prog.within_ret ()
    | some id => exact fun _ _ _ _ _ => Prog.within_ret ()
  have leave : ∀ groupId, (handleLeave identity groupId).Within 6 := by
    intro groupId
    rw [handleLeave_eq]
    refine @Prog.Within.bind _ _ _ _ _ 1 5 _ (within_parseOrNew groupId) fun conversationId => ?_
    exact fun _ _ _ _ _ => Prog.within_ret ()
  have dm : ∀ payload, (handleDm state identity payload).Within 5 := by
    intro payload
    rw [handleDm_eq]
    exact fun _ _ _ _ => within_persistMessage state _
  have group : ∀ payload, (handleGroupChat state identity payload).Within 6 := by
    intro payload
    rw [handleGroupChat_eq]
    refine .call fun (member : Bool) => ?_
    cases member with
    | false => exact fun _ => Prog.within_ret ()
    | true =>
        refine .call fun messageId => .call fun timestamp => ?_
        refine @Prog.Within.bind _ _ _ _ _ 1 2 _ (within_parseOrNew payload.userId) fun id => ?_
        exact fun _ => within_persistMessage state _
  unfold handleTextMessage
  split
  · split
    · exact (join _).mono (by decide)
    · exact (leave _).mono (by decide)
    · exact create _
    · exact fun _ => Prog.within_ret ()
  · split
    · split
      · exact fun _ => Prog.within_ret ()
      · split
        · exact (dm _).mono (by decide)
        · exact (group _).mono (by decide)
        · exact (group _).mono (by decide)
    · exact Prog.within_ret ()

end Handler

theorem TextFrame.Sends.length_le {text : TextFrame} {identity : Identity}
    {msgs : List ServerMessage} (sends : text.Sends identity msgs) : msgs.length ≤ 2 := by
  rcases sends with rfl | ⟨msg, _, rfl | ⟨_, rfl⟩⟩
  · exact Nat.zero_le 2
  · exact Nat.le_succ 1
  · exact Nat.le_refl 2

/-! ### Whose work it is -/

namespace Cluster

variable {N : Type} [DecidableEq N] {state : AppState} {db : Database}

namespace Event

omit [DecidableEq N]

/-- The connection that an event opens. -/
def opener : Event N → Option ConnectionId
  | .connect id _ _ => some id
  | _ => none

/-- The connection that sends a frame. -/
def sender : Event N → Option ConnectionId
  | .frame id _ => some id
  | _ => none

/-- The connection whose handler performs an operation. -/
def performer : Event N → Option ConnectionId
  | .perform id _ => some id
  | _ => none

/-- The node whose listener handles a message. -/
def listener : Event N → Option N
  | .deliver n => some n
  | _ => none

end Event

omit [DecidableEq N] in
/-- A list for each of the frames. -/
theorem length_flatten_le {α β : Type} {R : α → List β → Prop} {bound : ℕ}
    (each : ∀ a l, R a l → l.length ≤ bound) {as : List α} {ls : List (List β)}
    (related : List.Forall₂ R as ls) : ls.flatten.length ≤ bound * as.length := by
  induction related with
  | nil => exact Nat.zero_le _
  | cons first rest ih =>
      have := each _ _ first
      rw [List.flatten_cons, List.length_append, List.length_cons, Nat.mul_succ]
      omega

omit [DecidableEq N] in
theorem length_frames (es : List (Event N)) (id : ConnectionId) :
    (frames es id).length = (es.filterMap Event.sender).count id := by
  induction es with
  | nil => rfl
  | cons e es ih =>
      cases e with
      | frame k text =>
          by_cases own : k = id
          · subst own
            have mine : framed k (.frame k text : Event N) = some text := if_pos rfl
            unfold frames at ih ⊢
            rw [List.filterMap_cons_some mine, List.length_cons, ih]
            simp [Event.sender]
          · have other : framed id (.frame k text : Event N) = none := if_neg own
            unfold frames at ih ⊢
            rw [List.filterMap_cons_none other, ih]
            simp [Event.sender, own]
      | _ => exact ih

section Run

variable {es : List (Event N)} {s : Cluster N}

/-- What came out of one connection's operations. -/
theorem count_outputs {O : Type} (out : Act → List O) (es : List (Event N)) (id : ConnectionId) :
    ((outputs out state db es).map Prod.fst).count id =
      ((acts state db es id).flatMap out).length := by
  rw [← outputs_of, List.length_map, List.count_eq_countP, List.countP_map,
    ← List.countP_eq_length_filter]
  refine List.countP_congr fun p _ => ?_
  simp

/-- A connection has at most eight operations for a frame, and one when it is opened. -/
theorem length_acts_le (ran : (machine N state).run (start db) es = some s) (id : ConnectionId) :
    (acts state db es id).length ≤
      (es.filterMap Event.opener).count id + 8 * (es.filterMap Event.sender).count id := by
  have inv := sequenced ran id
  rw [← length_frames]
  cases found : s.sockets id with
  | none =>
      rw [found] at inv
      rw [inv.2]
      exact Nat.zero_le _
  | some socket =>
      rw [found] at inv
      obtain ⟨opening, traces, same, first, begun⟩ := inv.traces
      have joined : (joinGeneral socket.identity).Within 1 := fun _ => Prog.within_ret ()
      have one := joined.of_begun first
      have rest := length_flatten_le (fun text trace path =>
        (within_handleTextMessage text socket.identity state).of_begun path) begun
      have opened : 0 < (es.filterMap Event.opener).count id := by
        rw [List.count_pos_iff]
        exact List.mem_filterMap.mpr ⟨_, (authentic state db ran).owners id socket found, rfl⟩
      rw [same, List.length_append]
      omega

/-- Of a frame at most two messages are sent. -/
theorem length_sent_le (ran : (machine N state).run (start db) es = some s) (id : ConnectionId) :
    ((acts state db es id).flatMap Act.sent).length ≤
      2 * (es.filterMap Event.sender).count id := by
  have inv := sequenced ran id
  rw [← length_frames]
  cases found : s.sockets id with
  | none =>
      rw [found] at inv
      rw [inv.2]
      exact Nat.zero_le _
  | some socket =>
      rw [found] at inv
      obtain ⟨each, all, sends⟩ :=
        inv.outputs (fun _ _ _ => rfl) fun text => yields_sent text socket.identity state
      rw [all]
      exact length_flatten_le (fun text msgs => TextFrame.Sends.length_le) sends

/-- The operations of a run. -/
theorem performers_outputs (ran : (machine N state).run (start db) es = some s) :
    (outputs (fun act => [act]) state db es).map Prod.fst = es.filterMap Event.performer := by
  unfold outputs
  rw [← Machine.emitted_map (M := machine N state) (output fun act => [act]) (List.map Prod.fst) rfl
    fun _ _ => List.map_append]
  refine Machine.emitted_event ?_ ran
  intro s e s' next
  cases stepped next with
  | perform choice busy => simp [output, acted, busy, Event.performer]
  | _ => rfl

/-- All nodes together perform at most eight operations for a frame. -/
theorem performers_le (ran : (machine N state).run (start db) es = some s) :
    (es.filterMap Event.performer).length ≤
      (es.filterMap Event.opener).length + 8 * (es.filterMap Event.sender).length := by
  have part : (es.filterMap Event.performer : Multiset ConnectionId) ≤
      (es.filterMap Event.opener : Multiset ConnectionId) +
        8 • (es.filterMap Event.sender : Multiset ConnectionId) := by
    rw [Multiset.le_iff_count]
    intro id
    rw [Multiset.count_add, Multiset.count_nsmul, Multiset.coe_count, Multiset.coe_count,
      Multiset.coe_count, ← performers_outputs ran, count_outputs, List.flatMap_singleton']
    exact length_acts_le ran id
  have card := Multiset.card_le_card part
  rwa [Multiset.card_add, Multiset.card_nsmul, Multiset.coe_card, Multiset.coe_card,
    Multiset.coe_card] at card

/-- A frame puts at most two messages into a stream. -/
theorem length_log_le (ran : (machine N state).run (start db) es = some s) :
    (log state db es).length ≤ 2 * (es.filterMap Event.sender).length := by
  have part : ((outputs Act.sent state db es).map Prod.fst : Multiset ConnectionId) ≤
      2 • (es.filterMap Event.sender : Multiset ConnectionId) := by
    rw [Multiset.le_iff_count]
    intro id
    rw [Multiset.count_nsmul, Multiset.coe_count, Multiset.coe_count, count_outputs]
    exact length_sent_le ran id
  have card := Multiset.card_le_card part
  rwa [Multiset.card_nsmul, Multiset.coe_card, Multiset.coe_card, List.length_map,
    ← List.length_map (f := Prod.snd), ← log_outputs] at card

/-- What a listener handled and what waits for it is what was published. -/
theorem listened (ran : (machine N state).run (start db) es = some s) (n : N) :
    (es.filterMap Event.listener).count n + (s.streams n).length = (log state db es).length := by
  have marks : (heardBy state db es n).map (fun _ => n) =
      es.filterMap fun e => e.listener.filter (· == n) := by
    unfold heardBy
    rw [← Machine.emitted_map (M := machine N state) (hears n) (List.map fun _ => n) rfl
      fun _ _ => List.map_append]
    refine Machine.emitted_event ?_ ran
    intro s e s' next
    cases stepped next with
    | @deliver m msg rest first =>
        by_cases own : m = n
        · subst own
          rw [hears_deliver first]
          simp [Event.listener, Option.filter]
        · rw [hears_of_ne fun same => own (Event.deliver.inj same)]
          simp [Event.listener, own]
    | _ => rfl
  have heard : (heardBy state db es n).length = (es.filterMap Event.listener).count n := by
    rw [List.count_eq_length_filter, List.filter_filterMap, ← marks, List.length_map]
  rw [← heard, ← hears_announced ran n, List.length_append]

end Run

/-! ### Rest -/

/-- The nodes go on with what there is: a handler's operation is answered, or a listener handles a
message. -/
def GoesOn (answer : Cluster N → Choice) (s : Cluster N) : Event N → Prop
  | .perform _ choice => choice = answer s
  | .deliver _ => True
  | _ => False

/-- They can until there is nothing left to do. -/
theorem exists_goesOn (state : AppState) (answer : Cluster N → Choice) {s : Cluster N}
    (busy : ¬ s.Quiescent) : ∃ e s', GoesOn answer s e ∧ (machine N state).step s e = some s' := by
  by_cases stream : ∃ n, s.streams n ≠ []
  · obtain ⟨n, some⟩ := stream
    obtain ⟨msg, rest, first⟩ := List.exists_cons_of_ne_nil some
    refine ⟨.deliver n, s.delivered n msg rest, trivial, ?_⟩
    simp only [machine, step, first]
  · have empty : ∀ n, s.streams n = [] := fun n => by_contra fun some => stream ⟨n, some⟩
    obtain ⟨id, socket, found, running⟩ :
        ∃ id socket, s.sockets id = some socket ∧ socket.task ≠ .ret () := by
      by_contra none
      refine busy ⟨empty, fun id socket found => ?_⟩
      exact by_contra fun running => none ⟨id, socket, found, running⟩
    obtain ⟨n, identity, alive, handling, task⟩ := socket
    cases task with
    | ret value => exact absurd rfl running
    | call op next =>
        refine ⟨.perform id (answer s),
          s.performed id n identity alive handling (answer s) op next, rfl, ?_⟩
        simp only [machine, step, found]

/-- Going on, they open nothing and send no frame, and all they do is counted. -/
theorem goesOn_counts {answer : Cluster N → Choice} {s s' : Cluster N} {later : List (Event N)}
    (ran : (machine N state).run s later = some s')
    (steps : (machine N state).Steps (GoesOn answer) s later) :
    later.filterMap Event.opener = [] ∧ later.filterMap Event.sender = [] ∧
      later.length =
        (later.filterMap Event.performer).length + (later.filterMap Event.listener).length := by
  let Inv (later : List (Event N)) (_ : Cluster N) : Prop :=
    later.filterMap Event.opener = [] ∧ later.filterMap Event.sender = [] ∧
      later.length =
        (later.filterMap Event.performer).length + (later.filterMap Event.listener).length
  have init : Inv [] s := ⟨rfl, rfl, rfl⟩
  have step : ∀ later s e s', Inv later s → GoesOn answer s e →
      (machine N state).step s e = some s' → Inv (later ++ [e]) s' := by
    rintro later s e s' ⟨noOpen, noFrame, all⟩ goes _
    have snoc : ∀ {β : Type} (f : Event N → Option β),
        (later ++ [e]).filterMap f = later.filterMap f ++ (f e).toList := by
      intro β f
      rw [List.filterMap_append]
      congr 1
    obtain ⟨opens, sends, one⟩ : e.opener = none ∧ e.sender = none ∧
        e.performer.toList.length + e.listener.toList.length = 1 := by
      cases e with
      | perform id choice => exact ⟨rfl, rfl, rfl⟩
      | deliver n => exact ⟨rfl, rfl, rfl⟩
      | _ => exact goes.elim
    refine ⟨?_, ?_, ?_⟩
    · rw [snoc, noOpen, opens]
      rfl
    · rw [snoc, noFrame, sends]
      rfl
    · rw [snoc, snoc, List.length_append, List.length_append, List.length_append, all,
        List.length_singleton]
      omega
  exact Machine.invariant_trace init step ran steps

/-- What is done for the frames of a run, by its end or later. -/
theorem work_le {es later : List (Event N)} {s s' : Cluster N}
    (ran : (machine N state).run (start db) es = some s)
    (ran' : (machine N state).run s later = some s')
    (noOpen : later.filterMap Event.opener = []) (noFrame : later.filterMap Event.sender = []) :
    ((es ++ later).filterMap Event.performer).length ≤
        (es.filterMap Event.opener).length + 8 * (es.filterMap Event.sender).length ∧
      ∀ n, ((es ++ later).filterMap Event.listener).count n + (s'.streams n).length ≤
        2 * (es.filterMap Event.sender).length := by
  have all : (machine N state).run (start db) (es ++ later) = some s' := by
    rw [Machine.run_append, ran, Option.bind_some, ran']
  have opened : (es ++ later).filterMap Event.opener = es.filterMap Event.opener := by
    rw [List.filterMap_append, noOpen, List.append_nil]
  have sent : (es ++ later).filterMap Event.sender = es.filterMap Event.sender := by
    rw [List.filterMap_append, noFrame, List.append_nil]
  rw [← opened, ← sent]
  refine ⟨performers_le all, fun n => ?_⟩
  rw [listened all n]
  exact length_log_le all

/-- Finitely many nodes do not go on for ever. -/
theorem goesOn_bounded [Fintype N] {es later : List (Event N)} {s s' : Cluster N}
    (ran : (machine N state).run (start db) es = some s)
    (ran' : (machine N state).run s later = some s') {answer : Cluster N → Choice}
    (steps : (machine N state).Steps (GoesOn answer) s later) :
    later.length ≤ (es.filterMap Event.opener).length + 8 * (es.filterMap Event.sender).length +
      Fintype.card N * (2 * (es.filterMap Event.sender).length) := by
  obtain ⟨noOpen, noFrame, all⟩ := goesOn_counts ran' steps
  obtain ⟨performed, handled⟩ := work_le ran ran' noOpen noFrame
  have total : (later.filterMap Event.listener).length ≤
      Fintype.card N * (2 * (es.filterMap Event.sender).length) := by
    have each : ∑ n : N, (later.filterMap Event.listener : Multiset N).count n =
        (later.filterMap Event.listener).length :=
      Multiset.sum_count_eq_card fun n _ => Finset.mem_univ n
    rw [← each]
    refine Finset.sum_le_card_nsmul _ _ _ fun n _ => ?_
    have here := handled n
    rw [List.filterMap_append, List.count_append] at here
    rw [Multiset.coe_count]
    omega
  rw [List.filterMap_append, List.length_append] at performed
  omega

/-- After any run, of any number of nodes: however it goes on, as long as no connection is opened
and no frame comes, the handlers perform at most eight operations for each frame that came and one
for each connection, and each listener handles at most two messages for a frame. And whatever the
services answer, finitely many nodes can go on until nothing is left to do. -/
theorem comes_to_rest (state : AppState) (db : Database) {es : List (Event N)}
    {s : Cluster N} (ran : (machine N state).run (start db) es = some s) :
    (∀ later s', (machine N state).run s later = some s' →
      later.filterMap Event.opener = [] → later.filterMap Event.sender = [] →
      ((es ++ later).filterMap Event.performer).length ≤
          (es.filterMap Event.opener).length + 8 * (es.filterMap Event.sender).length ∧
        ∀ n, ((es ++ later).filterMap Event.listener).count n + (s'.streams n).length ≤
          2 * (es.filterMap Event.sender).length) ∧
      (Finite N → ∀ answer : Cluster N → Choice, ∃ later s',
        (machine N state).run s later = some s' ∧
          (machine N state).Steps (GoesOn answer) s later ∧ s'.Quiescent) := by
  refine ⟨fun later s' ran' noOpen noFrame => work_le ran ran' noOpen noFrame,
    fun finite answer => ?_⟩
  have := Fintype.ofFinite N
  exact Machine.exists_finished (fun _ => exists_goesOn state answer)
    fun later s' ran' steps => goesOn_bounded ran ran' steps

/-- Ada's handler has published her direct message once. -/
theorem comes_to_rest_dm :
    let state : AppState := ⟨false, sha256Names⟩
    let es : List (Event Bool) :=
      [.connect 1 true ⟨"acme", "ada"⟩] ++ performs 1 ++ [.frame 1 (dmFrame "bob" "hi")] ++
        performs 3
    ∃ s, (machine Bool state).run (start ⟨[], [], []⟩) es = some s ∧ s.streams false ≠ [] ∧
      (∀ later s', (machine Bool state).run s later = some s' →
        later.filterMap Event.opener = [] → later.filterMap Event.sender = [] →
        ((es ++ later).filterMap Event.performer).length ≤ 1 + 8 * 1 ∧
          ∀ n, ((es ++ later).filterMap Event.listener).count n + (s'.streams n).length ≤ 2 * 1) ∧
        ∀ answer : Cluster Bool → Choice, ∃ later s', (machine Bool state).run s later = some s' ∧
          (machine Bool state).Steps (GoesOn answer) s later ∧ s'.Quiescent := by
  intro state es
  obtain ⟨s, ran, waits⟩ : ∃ s ∈ (machine Bool state).run (start ⟨[], [], []⟩) es,
      s.streams false ≠ [] := by decide
  obtain ⟨work, rest⟩ := comes_to_rest state ⟨[], [], []⟩ ran
  exact ⟨s, ran, waits, work, rest inferInstance⟩

end Cluster

end YappaCore
