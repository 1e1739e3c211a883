import Mathlib.Logic.Function.Iterate
import YappaCore.Kafka.Consumer

/-!
The consumer loop over discrete time, in milliseconds. A turn of the loop starts a deadline of
its own and ends with the next record or with that deadline, whichever comes first; a flush
takes no time.

`turn` is one iteration of `Consumer.machine` (`step_turn`), and `fresh_iff` says when no message
waits longer than the batch window.
-/

namespace YappaCore

open Lib

def BATCH_MAX_WAIT : Nat := 250

/-- The consumer at the start of a turn, with the times at which the messages of its buffer were
received. -/
structure Timed where
  now : Nat
  consumer : Consumer
  receivedAt : List Nat

namespace Timed

def start (table : List MessageRow) : Timed := ⟨0, .start table, []⟩

/-- The records, in the order of the log. -/
def logOf (arrivals : List (Nat × Record)) : List Record := arrivals.map (·.2)

/-- How a turn ends, and when. The deadline is polled before the consumer, and a record that is
there already is taken at once. -/
def ending (arrivals : List (Nat × Record)) (s : Timed) : Consumer.Event × Nat :=
  match arrivals[s.consumer.position]? with
  | some (arrival, _) =>
      if max s.now arrival < s.now + BATCH_MAX_WAIT then (.recv ⟨true, true⟩, max s.now arrival)
      else (.deadline ⟨true, true⟩, s.now + BATCH_MAX_WAIT)
  | none => (.deadline ⟨true, true⟩, s.now + BATCH_MAX_WAIT)

/-- One turn of `KafkaConsumer::run`. -/
def turn (arrivals : List (Nat × Record)) (s : Timed) : Timed :=
  let (event, time) := s.ending arrivals
  match Consumer.iterate (logOf arrivals) s.consumer event with
  | none => s
  | some consumer =>
      { now := time
        consumer
        receivedAt :=
          if consumer.buf.isEmpty then []
          else s.receivedAt ++ (Consumer.taken (logOf arrivals) s.consumer event).map fun _ => time }

/-- The loop after a number of turns. -/
def after (arrivals : List (Nat × Record)) (table : List MessageRow) (turns : Nat) : Timed :=
  (turn arrivals)^[turns] (start table)

/-- Every message of the buffer was received at most the batch window ago. -/
def Fresh (s : Timed) : Prop := ∀ time ∈ s.receivedAt, s.now ≤ time + BATCH_MAX_WAIT

/-- The record completes a batch. -/
def fills (s : Timed) : Record → Bool
  | .message _ => s.consumer.buf.length + 1 ≥ BATCH_MAX_SIZE
  | _ => false

/-- A record that comes before the deadline of the turn, and does not complete the batch, comes
before the window of every waiting message is over. -/
def Timely (arrivals : List (Nat × Record)) (s : Timed) : Prop :=
  ∀ arrival record, arrivals[s.consumer.position]? = some (arrival, record) →
    max s.now arrival < s.now + BATCH_MAX_WAIT → s.fills record = false →
      ∀ time ∈ s.receivedAt, max s.now arrival ≤ time + BATCH_MAX_WAIT

/-! ### Turns -/

/-- The loop runs, and there is a time for every message of the buffer. -/
structure Clocked (s : Timed) : Prop where
  running : s.consumer.running = true
  times : s.receivedAt.length = s.consumer.buf.length

/-- A turn ends with a record before its deadline, or with the deadline. -/
theorem turn_cases (arrivals : List (Nat × Record)) (s : Timed) :
    (∃ arrival record, arrivals[s.consumer.position]? = some (arrival, record) ∧
      max s.now arrival < s.now + BATCH_MAX_WAIT) ∨
    s.ending arrivals = (.deadline ⟨true, true⟩, s.now + BATCH_MAX_WAIT) ∧ s.Timely arrivals := by
  unfold ending
  cases next : arrivals[s.consumer.position]? with
  | none => exact .inr ⟨rfl, fun arrival record some => by simp [next] at some⟩
  | some pair =>
      obtain ⟨arrival, record⟩ := pair
      by_cases before : max s.now arrival < s.now + BATCH_MAX_WAIT
      · exact .inl ⟨arrival, record, rfl, before⟩
      · refine .inr ⟨by simp only [before, if_false], fun arrival' record' same early => ?_⟩
        obtain ⟨rfl, rfl⟩ := Prod.mk.inj (Option.some.inj (next.symm.trans same))
        exact absurd early before

/-- After the deadline nothing is left in the buffer, and the loop goes on. -/
theorem flushPending_ok (s : Consumer) : (s.flushPending ⟨true, true⟩).buf = [] ∧
    (s.flushPending ⟨true, true⟩).running = s.running := by
  unfold Consumer.flushPending
  by_cases none : s.buf = []
  · simp [none]
  · simp [none, Consumer.flushAndCommit]

section Turn

variable {arrivals : List (Nat × Record)} {s : Timed} (inv : s.Clocked)

include inv

/-- With an empty buffer nothing waits. -/
theorem Clocked.receivedAt_of_empty (empty : s.consumer.buf = []) : s.receivedAt = [] := by
  have none := inv.times
  rw [empty] at none
  exact List.length_eq_zero_iff.mp none

/-- The turn that the deadline ends leaves an empty buffer. -/
theorem Clocked.turn_deadline {time : Nat}
    (ends : s.ending arrivals = (.deadline ⟨true, true⟩, time)) :
    (s.turn arrivals).consumer = s.consumer.flushPending ⟨true, true⟩ ∧
      (s.turn arrivals).now = time ∧ (s.turn arrivals).receivedAt = [] := by
  unfold turn
  simp [ends, Consumer.iterate, inv.running, (flushPending_ok s.consumer).1]

/-- The turn that a record ends takes it in. -/
theorem Clocked.turn_recv {arrival : Nat} {record : Record}
    (next : arrivals[s.consumer.position]? = some (arrival, record))
    (before : max s.now arrival < s.now + BATCH_MAX_WAIT) :
    (s.turn arrivals).consumer = s.consumer.receive record ⟨true, true⟩ ∧
      (s.turn arrivals).now = max s.now arrival ∧
      (s.turn arrivals).receivedAt =
        if s.fills record then []
        else s.receivedAt ++ match record with
          | .message _ => [max s.now arrival]
          | _ => [] := by
  have ends : s.ending arrivals = (.recv ⟨true, true⟩, max s.now arrival) := by
    unfold ending
    simp only [next, before, if_true]
  have logged : (logOf arrivals)[s.consumer.position]? = some record := by
    simp [logOf, next]
  unfold turn
  simp only [ends, Consumer.iterate, inv.running, if_true, logged, Option.map_some, Consumer.taken]
  refine ⟨trivial, trivial, ?_⟩
  have kept : (if s.consumer.buf = [] then [] else s.receivedAt) = s.receivedAt := by
    split
    · rename_i empty
      exact (inv.receivedAt_of_empty empty).symm
    · rfl
  cases record with
  | noPayload => simpa [Consumer.receive, fills] using kept
  | malformed => simpa [Consumer.receive, fills] using kept
  | message message =>
      by_cases full : s.consumer.buf.length + 1 ≥ BATCH_MAX_SIZE
      · simp [Consumer.receive, fills, full, Consumer.flushAndCommit]
      · simp [Consumer.receive, fills, full]

theorem Clocked.turn : (s.turn arrivals).Clocked := by
  rcases turn_cases arrivals s with ⟨arrival, record, next, before⟩ | ⟨ends, _⟩
  · obtain ⟨consumer, _, received⟩ := inv.turn_recv next before
    constructor
    · rw [consumer]
      cases record with
      | message message =>
          unfold Consumer.receive
          by_cases full : s.consumer.buf.length + 1 ≥ BATCH_MAX_SIZE
          · simp [full, Consumer.flushAndCommit, inv.running]
          · simp [full, inv.running]
      | _ => exact inv.running
    · rw [consumer, received]
      cases record with
      | message message =>
          unfold Consumer.receive fills
          by_cases full : s.consumer.buf.length + 1 ≥ BATCH_MAX_SIZE
          · simp [full, Consumer.flushAndCommit]
          · simp [full, inv.times]
      | _ => simpa [fills, Consumer.receive] using inv.times
  · obtain ⟨consumer, _, received⟩ := inv.turn_deadline ends
    obtain ⟨empty, running⟩ := flushPending_ok s.consumer
    constructor
    · rw [consumer, running]
      exact inv.running
    · rw [consumer, received, empty]
      rfl

/-- A turn keeps every message within its window exactly when its record is timely. -/
theorem Clocked.fresh_turn_iff : (s.turn arrivals).Fresh ↔ s.Timely arrivals := by
  rcases turn_cases arrivals s with ⟨arrival, record, next, before⟩ | ⟨ends, timely⟩
  · obtain ⟨_, now, received⟩ := inv.turn_recv next before
    have own : s.Timely arrivals ↔ (s.fills record = false →
        ∀ time ∈ s.receivedAt, max s.now arrival ≤ time + BATCH_MAX_WAIT) := by
      constructor
      · exact fun timely => timely arrival record next before
      · intro only arrival' record' same _
        obtain ⟨rfl, rfl⟩ := Prod.mk.inj (Option.some.inj (next.symm.trans same))
        exact only
    unfold Fresh
    rw [own, now, received]
    cases full : s.fills record with
    | true => simp
    | false =>
        cases record with
        | message message =>
            simp only [Bool.false_eq_true, if_false, List.mem_append, List.mem_singleton,
              true_implies]
            constructor
            · exact fun fresh time mem => fresh time (.inl mem)
            · rintro timely time (mem | rfl)
              · exact timely time mem
              · exact Nat.le_add_right _ _
        | _ => simp
  · obtain ⟨_, _, received⟩ := inv.turn_deadline ends
    refine iff_of_true ?_ timely
    intro time mem
    rw [received] at mem
    exact absurd mem List.not_mem_nil

/-- A turn is an iteration of the loop. -/
theorem Clocked.step_turn : (Consumer.machine (logOf arrivals)).step s.consumer
    (s.ending arrivals).1 = some (s.turn arrivals).consumer := by
  rcases turn_cases arrivals s with ⟨arrival, record, next, before⟩ | ⟨ends, _⟩
  · have logged : (logOf arrivals)[s.consumer.position]? = some record := by
      simp [logOf, next]
    rw [(inv.turn_recv next before).1]
    simp [Consumer.machine, Consumer.iterate, inv.running, ending, next, before, logged]
  · rw [(inv.turn_deadline ends).1, ends]
    simp [Consumer.machine, Consumer.iterate, inv.running]

end Turn

/-! ### Any number of turns -/

theorem clocked (arrivals : List (Nat × Record)) (table : List MessageRow) (turns : Nat) :
    (after arrivals table turns).Clocked := by
  induction turns with
  | zero => exact ⟨rfl, rfl⟩
  | succ turns ih =>
      unfold after at ih ⊢
      rw [Function.iterate_succ_apply']
      exact ih.turn

/-- For every arrival sequence, no message waits longer than the batch window at the start of any
turn exactly when every record that is received into a waiting buffer, and does not complete a
batch, comes within the window of every message there. -/
theorem fresh_iff (arrivals : List (Nat × Record)) (table : List MessageRow) :
    (∀ turns, (after arrivals table turns).Fresh) ↔
      ∀ turns, (after arrivals table turns).Timely arrivals := by
  have next : ∀ turns, (after arrivals table (turns + 1)).Fresh ↔
      (after arrivals table turns).Timely arrivals := by
    intro turns
    rw [← (clocked arrivals table turns).fresh_turn_iff]
    unfold after
    rw [Function.iterate_succ_apply']
  constructor
  · exact fun fresh turns => (next turns).mp (fresh (turns + 1))
  · intro timely turns
    cases turns with
    | zero => exact fun time mem => absurd mem List.not_mem_nil
    | succ turns => exact (next turns).mpr (timely turns)

/-- Three messages, 200 ms apart: after the third the first has waited 400 ms. -/
theorem steady_arrivals_delay_flush :
    ¬ ∀ (arrivals : List (Nat × Record)) (table : List MessageRow) (turns : Nat),
      (after arrivals table turns).Fresh := by
  intro fresh
  have waited := fresh [(0, .message (greeting 1 "hi")), (200, .message (greeting 2 "there")),
    (400, .message (greeting 3 "again"))] [] 3 0 (by decide)
  revert waited
  decide

end Timed

end YappaCore
