import YappaCore.Kafka.Consumer
import YappaCore.Server.Injection

/-!
Paging through the history of a channel: request after request, each with `before` set to the
timestamp of the last message received, until a page is empty.

`receivesAll_iff`: a client receives every message once exactly when no page ends between two
messages of the same second, or at a time before 1970.
-/

namespace YappaCore

open Lib Lib.Paging

/-- The body of the `i`-th request of a client, after it received a last timestamp. -/
def requested (pg : ℕ → Postgres) (table : List MessageRow) (path : ChannelPath) (limit : ℕ)
    (i : ℕ) (before : Option UInt64) : List MessageResponse :=
  (getChannelHistory (pg i) table path ⟨before.map toString, some limit⟩).2

/-- The client's loop ends, and the pages hold the messages of the channel, each as often as it
is there, the newest first. -/
def ReceivesAll (pg : ℕ → Postgres) (table : List MessageRow) (path : ChannelPath)
    (limit : ℕ) : Prop :=
  ∃ fuel pages, pageThrough MessageResponse.timestamp (requested pg table path limit) fuel 0 none =
      some pages ∧
    ∃ rows : List MessageRow, pages.flatten = rows.map MessageRow.response ∧
      rows.Perm (channelRows table path) ∧ rows.Pairwise fun a b => b.createdAt ≤ a.createdAt

/-! ### Cursors -/

/-- The timestamp of a row, as the client gives it back. -/
def wireTime (createdAt : Int) : UInt64 := (Int64.ofInt createdAt).toUInt64

theorem toNat_wireTime (k : Int) : ((wireTime k).toNat : Int) = k % 18446744073709551616 := by
  change (((Int64.ofInt k).toBitVec.toNat : ℕ) : Int) = _
  rw [Int64.toBitVec_ofInt, BitVec.toNat_ofInt, Int.toNat_of_nonneg (by omega)]
  rfl

/-- Times from 1970 on come back as they are, earlier ones as numbers without a time. -/
theorem wireTime_cases {k : Int} (represented : (fromTimestamp k).isSome = true) :
    0 ≤ k ∧ ((wireTime k).toNat : Int) = k ∧ (wireTime k).toNat < END_TIMESTAMP ∨
      k < 0 ∧ ¬ (wireTime k).toNat < END_TIMESTAMP := by
  have wrapped := toNat_wireTime k
  unfold fromTimestamp at represented
  unfold END_TIMESTAMP
  split at represented
  · omega
  · simp at represented

theorem eq_of_map_eq {α β : Type} {f : α → β} {s : Set α} (injective : Set.InjOn f s)
    {l l' : List α} (inside : ∀ a ∈ l, a ∈ s) (inside' : ∀ a ∈ l', a ∈ s)
    (same : l.map f = l'.map f) : l = l' := by
  induction l generalizing l' with
  | nil => exact (List.map_eq_nil_iff.mp same.symm).symm
  | cons a l ih =>
      obtain ⟨b, rest, rfl, first, later⟩ := List.map_eq_cons_iff.mp same.symm
      rw [injective (inside a List.mem_cons_self) (inside' b List.mem_cons_self) first.symm,
        ih (fun a mem => inside a (List.mem_cons_of_mem _ mem))
          (fun a mem => inside' a (List.mem_cons_of_mem _ mem)) later.symm]

section Requests

variable {pg : ℕ → Postgres} (reachable : ∀ i, (pg i).ok = true) {table : List MessageRow}
  (written : Written table) (path : ChannelPath) {limit : ℕ} (small : limit ≤ 100)

include reachable written small

/-- A request fetches the rows of the page below its cursor. -/
theorem requested_eq (i : ℕ) {cursor : Option Int}
    (represented : ∀ k ∈ cursor, (fromTimestamp k).isSome = true) :
    requested pg table path limit i (cursor.map wireTime) =
      (page (fun i => (pg i).order) (0 ≤ ·) limit (channelRows table path) i cursor).map
        MessageRow.response := by
  have count : ∀ before, HistoryQuery.rows ⟨before, some limit⟩ = limit := by
    intro before
    change min (limit : Int) 100 = limit
    omega
  by_cases answers : (pg i).Answers path
  · cases cursor with
    | none =>
        unfold requested getChannelHistory
        rw [Option.map_none, Option.map_none, historyRows_none, count, if_pos ⟨answers, by omega⟩]
        simp [page, below]
    | some k =>
        have text : toString (wireTime k) = (wireTime k).toNat.repr := rfl
        unfold requested getChannelHistory
        rw [Option.map_some, Option.map_some, text, historyRows_seconds, count]
        rcases wireTime_cases (represented k rfl) with ⟨positive, same, before⟩ | ⟨negative, out⟩
        · rw [if_pos ⟨⟨answers, before⟩, by omega⟩, same]
          simp [page, below, positive]
        · rw [if_neg fun both => out both.1.2]
          simp [page, negative]
  · -- A path with a text that cannot be bound is that of no row.
    have nobody : channelRows table path = [] := by
      rw [channelRows, List.filter_eq_nil_iff]
      intro row mem own
      have storable := written.storable mem
      obtain rfl := of_decide_eq_true own
      exact answers ⟨reachable i, storable.1, storable.2.1, storable.2.2.1⟩
    unfold requested getChannelHistory
    rw [historyRows_of_not_answers (pg i) path table answers, nobody]
    simp [page, below, (arrange_eq_nil (pg i).order).mpr rfl]

omit reachable small in
/-- A message is told by what is received of it. -/
theorem response_injOn : Set.InjOn MessageRow.response {row | row ∈ table} := by
  intro row mem row' mem' same
  obtain ⟨_, _, insertable⟩ := written_iff.mp written
  have texts := congrArg MessageResponse.messageId same
  simp only [MessageRow.response] at texts
  exact List.inj_on_of_nodup_map insertable.2.1 mem mem' (uuidText_injective texts)

/-- The client receives everything when the pages of the table's rows are complete. -/
theorem receivesAll_iff_complete : ReceivesAll pg table path limit ↔
    Complete MessageRow.createdAt
      (page (fun i => (pg i).order) (0 ≤ ·) limit (channelRows table path)) 0 none
      (channelRows table path) := by
  have inside : ∀ i cursor, ∀ row ∈ page (fun i => (pg i).order) (0 ≤ ·) limit
      (channelRows table path) i cursor, row ∈ table := by
    intro i cursor row mem
    unfold page at mem
    split at mem
    · have there := ((pg i).order.perm _).mem_iff.mp (List.mem_of_mem_take mem)
      exact (List.mem_filter.mp (List.mem_filter.mp there).1).1
    · exact absurd mem List.not_mem_nil
  have mapped : ∀ fuel, pageThrough MessageResponse.timestamp (requested pg table path limit) fuel
      0 none = (pageThrough MessageRow.createdAt (page (fun i => (pg i).order) (0 ≤ ·) limit
        (channelRows table path)) fuel 0 none).map (List.map (List.map MessageRow.response)) := by
    intro fuel
    refine pageThrough_map MessageRow.response wireTime
      (fun k => (fromTimestamp k).isSome = true) ?_ ?_ fuel 0 none (by simp)
    · exact fun i cursor row mem => ⟨written.represented (inside i cursor row mem), rfl⟩
    · exact fun i cursor represented => requested_eq reachable written path small i represented
  constructor
  · rintro ⟨fuel, received, ends, rows, whole, perm, sorted⟩
    rw [mapped] at ends
    obtain ⟨pages, paged, rfl⟩ := Option.map_eq_some_iff.mp ends
    have own : ∀ row ∈ pages.flatten, row ∈ table := by
      intro row mem
      obtain ⟨i, cursor, received⟩ := mem_of_mem_pages paged mem
      exact inside i cursor row received
    have there : ∀ row ∈ rows, row ∈ table := fun row mem =>
      (List.mem_filter.mp (perm.mem_iff.mp mem)).1
    rw [← List.map_flatten] at whole
    have same : pages.flatten = rows := eq_of_map_eq (response_injOn written) own there whole
    exact ⟨fuel, pages, paged, same ▸ perm, same ▸ sorted⟩
  · rintro ⟨fuel, pages, ends, perm, sorted⟩
    refine ⟨fuel, pages.map (List.map MessageRow.response), ?_, pages.flatten, ?_, perm, sorted⟩
    · rw [mapped, ends]
      rfl
    · rw [List.map_flatten]

end Requests

/-- A client that reads the history of a channel with pages of `limit` rows, from 1 to 100,
receives every message exactly once, the newest first, if and only if no page ends inside a second
or before 1970 while there are more rows. -/
theorem receivesAll_iff {pg : ℕ → Postgres} (reachable : ∀ i, (pg i).ok = true)
    {table : List MessageRow} (written : Written table) (path : ChannelPath) {limit : ℕ}
    (positive : 0 < limit) (small : limit ≤ 100) :
    ReceivesAll pg table path limit ↔
      Aligned (0 ≤ ·) limit (keys MessageRow.createdAt (channelRows table path)) := by
  rw [receivesAll_iff_complete reachable written path small, complete_start_iff _ _ _ positive]

/-- A row of a channel, by its id and time. -/
def atSecond (id : Uuid) (timestamp : UInt64) : ServerMessage :=
  { greeting id "hi" with timestamp }

/-- Three messages, two of them in one second, are read with pages of two. -/
theorem receivesAll_iff_three :
    let table := [atSecond 1 1739280000, atSecond 2 1739280001, atSecond 3 1739280001].map
      ServerMessage.row
    ReceivesAll (fun _ => plainPostgres) table ⟨"acme", "Dm", "bob"⟩ 2 := by
  intro table
  have written : Written table := written_iff.mpr ⟨_, rfl, by decide⟩
  apply (receivesAll_iff (fun _ => rfl) written _ (by decide) (by decide)).mpr
  have times : keys MessageRow.createdAt (channelRows table ⟨"acme", "Dm", "bob"⟩) =
      [1739280001, 1739280001, 1739280000] := by
    decide +kernel
  rw [times, aligned_iff (by decide) rfl rfl]
  exact ⟨by decide, aligned_of_short (by decide)⟩

/-- Two messages of one second are not both received with pages of one. -/
theorem page_ends_inside_second :
    ¬ ∀ (pg : ℕ → Postgres) (table : List MessageRow) (path : ChannelPath) (limit : ℕ),
      (∀ i, (pg i).ok = true) → Written table → 0 < limit → limit ≤ 100 →
      ReceivesAll pg table path limit := by
  intro always
  let table := [atSecond 1 1739280000, atSecond 2 1739280000].map ServerMessage.row
  have written : Written table := written_iff.mpr ⟨_, rfl, by decide⟩
  have received := always (fun _ => plainPostgres) table ⟨"acme", "Dm", "bob"⟩ 1 (fun _ => rfl)
    written (by decide) (by decide)
  have times : keys MessageRow.createdAt (channelRows table ⟨"acme", "Dm", "bob"⟩) =
      [1739280000, 1739280000] := by
    decide +kernel
  have complete := (receivesAll_iff_complete (fun _ => rfl) written _ (by decide)).mp received
  rw [complete_start_iff _ _ _ (by decide), times, aligned_iff (by decide) rfl rfl] at complete
  exact absurd complete.1.1 (lt_irrefl _)

end YappaCore
