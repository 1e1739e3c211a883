import YappaCore.Db
import YappaCore.Lib.Machine

/-!
A `MessageBatcher` over whole sequences of `push` and `flush`, each with the outcome of the
insert it makes, if it makes one.

`flush_insertAs` and `push_insertAs` say what one call does, and `intact_along_iff` when nothing
is lost or altered: the error path reads the channel type back from its debug text and knows
two of the three names.
-/

namespace YappaCore

open Lib

/-! ### Rows of rebuilt messages -/

/-- A failed flush keeps the row of a message unless it is for a community. -/
theorem row_rebuilt_iff (message : ServerMessage) :
    message.rebuilt.row = message.row ↔ message.channelType ≠ .community := by
  unfold ServerMessage.rebuilt ServerMessage.row
  cases message.channelType with
  | dm => simp [ChannelType.debug, ChannelType.ofDebug]
  | group => simp [ChannelType.debug, ChannelType.ofDebug]
  | community => simp [ChannelType.debug, ChannelType.ofDebug]

theorem rows_rebuilt_iff (messages : List ServerMessage) :
    (messages.map ServerMessage.rebuilt).map ServerMessage.row = messages.map ServerMessage.row ↔
      ∀ message ∈ messages, message.channelType ≠ .community := by
  rw [List.map_map, List.map_inj_left]
  exact forall₂_congr fun message _ => row_rebuilt_iff message

/-! ### Calls -/

/-- A batcher, the rows it inserted so far, and the messages pushed so far. -/
structure Batching where
  batcher : MessageBatcher
  inserted : List MessageRow
  pushed : List ServerMessage

namespace Batching

def start : Batching := ⟨.new, [], []⟩

/-- A call, and whether the insert that it may make succeeds. -/
inductive Call where
  | push (message : ServerMessage) (ok : Bool)
  | flush (ok : Bool)

def Call.ok : Call → Bool
  | .push _ ok => ok
  | .flush ok => ok

/-- An insert that goes through, or fails and inserts nothing. -/
def insertAs (ok : Bool) (rows : List MessageRow) : StateM (List MessageRow) Bool := fun inserted =>
  if ok then (true, inserted ++ rows) else (false, inserted)

def step (s : Batching) : Call → Option Batching
  | .push message ok =>
      let (batcher, inserted) := s.batcher.push (insertAs ok) message s.inserted
      some ⟨batcher, inserted, s.pushed ++ [message]⟩
  | .flush ok =>
      let (batcher, inserted) := s.batcher.flush (insertAs ok) s.inserted
      some ⟨batcher, inserted, s.pushed⟩

def machine : Machine Batching Call := ⟨step⟩

/-- What a call tries to insert: the buffer, at a `push` only once it is full. -/
def attempted (s : Batching) : Call → List ServerMessage
  | .push message _ =>
      if s.batcher.buffer.length + 1 ≥ s.batcher.capacity then s.batcher.buffer ++ [message] else []
  | .flush _ => s.batcher.buffer

/-- What stays in the buffer without an attempt. -/
def waiting (s : Batching) : Call → List ServerMessage
  | .push message _ =>
      if s.batcher.buffer.length + 1 ≥ s.batcher.capacity then [] else s.batcher.buffer ++ [message]
  | .flush _ => []

/-- The messages that a call pushes. -/
def Call.pushes : Call → List ServerMessage
  | .push message _ => [message]
  | .flush _ => []

theorem flush_insertAs (ok : Bool) (batcher : MessageBatcher) (inserted : List MessageRow) :
    batcher.flush (insertAs ok) inserted =
      if ok then ({ batcher with buffer := [] }, inserted ++ batcher.buffer.map ServerMessage.row)
      else ({ batcher with buffer := batcher.buffer.map ServerMessage.rebuilt }, inserted) := by
  rw [MessageBatcher.flush_rows]
  obtain ⟨buffer, capacity⟩ := batcher
  by_cases empty : buffer = []
  · subst empty
    cases ok
    · rfl
    · exact congrArg (Prod.mk _) (List.append_nil inserted).symm
  · simp only [empty, if_false]
    cases ok <;> rfl

theorem push_insertAs (ok : Bool) (batcher : MessageBatcher) (message : ServerMessage)
    (inserted : List MessageRow) :
    batcher.push (insertAs ok) message inserted =
      if batcher.buffer.length + 1 ≥ batcher.capacity then
        MessageBatcher.flush (insertAs ok) { batcher with buffer := batcher.buffer ++ [message] }
          inserted
      else ({ batcher with buffer := batcher.buffer ++ [message] }, inserted) := by
  unfold MessageBatcher.push
  simp only [List.length_append, List.length_singleton]
  split <;> rfl

/-- A call pushes its message and attempts an insert: what it attempted is inserted, or is put
back rebuilt. -/
theorem step_cases {s s' : Batching} {call : Call} (next : machine.step s call = some s') :
    s'.pushed = s.pushed ++ call.pushes ∧
      s.attempted call ++ s.waiting call = s.batcher.buffer ++ call.pushes ∧
      if call.ok then
        s'.inserted = s.inserted ++ (s.attempted call).map ServerMessage.row ∧
          s'.batcher.buffer = s.waiting call
      else
        s'.inserted = s.inserted ∧
          s'.batcher.buffer = (s.attempted call).map ServerMessage.rebuilt ++ s.waiting call := by
  cases call with
  | push message ok =>
      simp only [machine, step, push_insertAs] at next
      unfold attempted waiting Call.pushes Call.ok
      by_cases full : s.batcher.buffer.length + 1 ≥ s.batcher.capacity
      · simp only [full, if_true, flush_insertAs] at next ⊢
        cases ok <;> cases next <;> simp
      · simp only [full, if_false] at next ⊢
        cases ok <;> cases next <;> simp
  | flush ok =>
      simp only [machine, step, flush_insertAs] at next
      unfold attempted waiting Call.pushes Call.ok
      cases ok <;> cases next <;> simp

/-! ### Nothing lost, nothing altered -/

/-- The inserted rows and those of the buffer are the rows of the messages pushed, in order. -/
def Intact (s : Batching) : Prop :=
  s.inserted ++ s.batcher.buffer.map ServerMessage.row = s.pushed.map ServerMessage.row

/-- The call's insert goes through, or there is no community message in what it attempts. -/
def Keeps (s : Batching) (call : Call) : Prop :=
  call.ok = true ∨ ∀ message ∈ s.attempted call, message.channelType ≠ .community

instance (s : Batching) (call : Call) : Decidable (s.Keeps call) := by
  unfold Keeps; infer_instance

theorem intact_step_iff {s s' : Batching} {call : Call} (intact : s.Intact)
    (next : machine.step s call = some s') : s'.Intact ↔ s.Keeps call := by
  obtain ⟨pushed, parts, moved⟩ := step_cases next
  have rows := congrArg (List.map ServerMessage.row) parts
  rw [List.map_append, List.map_append] at rows
  unfold Intact at intact ⊢
  rw [pushed, List.map_append, ← intact]
  cases ok : call.ok with
  | true =>
      rw [ok, if_pos rfl] at moved
      obtain ⟨inserted, buffer⟩ := moved
      rw [inserted, buffer, List.append_assoc, rows, ← List.append_assoc]
      exact iff_of_true rfl (.inl ok)
  | false =>
      rw [ok, if_neg Bool.false_ne_true] at moved
      obtain ⟨inserted, buffer⟩ := moved
      unfold Keeps
      rw [inserted, buffer, List.append_assoc, ← rows, List.append_cancel_left_eq, List.map_append,
        List.append_cancel_right_eq, rows_rebuilt_iff, ok]
      simp

/-- In every sequence of calls, at every point the inserted rows with those of the buffer are the
rows of the messages pushed, exactly when no call of the sequence fails to insert a community
message. -/
theorem intact_along_iff (calls : List Call) :
    machine.Along Intact start calls ↔ machine.Steps Keeps start calls := by
  have init : start.Intact := rfl
  refine Machine.along_iff_steps (fun _ intact => intact) ?_ ?_ init calls
  · exact fun _ _ _ intact keeps next => (intact_step_iff intact next).mpr keeps
  · exact fun _ _ _ intact next after => (intact_step_iff intact next).mp after

/-- A message to a community. -/
def announcement (id : Uuid) (text : String) : ServerMessage where
  msgType := "chat"
  messageId := id
  tenantId := "acme"
  channelType := .community
  channelId := "plaza"
  senderId := "ada"
  timestamp := 1739280000
  conversationId := 0
  payload := { text, metadata := "\x7b\x7d" }

/-- A community message whose first insert fails is inserted as a direct one. -/
theorem retried_as_dm :
    ¬ ∀ (calls : List Call) (s : Batching), machine.run start calls = some s → s.Intact := by
  intro always
  have intact := always [.push (announcement 1 "hi") true, .flush false, .flush true] _ rfl
  revert intact
  unfold Intact
  decide

end Batching

end YappaCore
