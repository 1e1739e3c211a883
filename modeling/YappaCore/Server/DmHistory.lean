import Mathlib.Data.Sym.Sym2
import YappaCore.Server.Injection
import YappaCore.Server.Persistence

/-!
The history of direct messages. A direct message is stored under the id of its recipient, and the
statement of `get_channel_history` asks for the channel id, not for the conversation.

`one_conversation_iff`: the rows of an answer are of one conversation exactly when no two messages
of different senders fit on the page.
-/

namespace YappaCore

open Lib Lib.Paging

/-! ### Tables of direct messages -/

/-- A direct message, by its frame and what its handler drew for it. -/
structure DirectMessage where
  sender : String
  recipient : String
  content : String
  messageId : Uuid
  timestamp : UInt64
deriving DecidableEq, Repr

/-- What the handler of a user of the tenant makes of it. -/
def DirectMessage.message (state : AppState) (tenantId : String) (dm : DirectMessage) :
    ServerMessage :=
  Handler.dmMessage state ⟨tenantId, dm.sender⟩ ⟨.dm, dm.recipient, dm.content⟩ dm.messageId
    dm.timestamp

/-- The table after some direct messages of a tenant; one that cannot be inserted is lost. -/
def dmTable (state : AppState) (tenantId : String) (dms : List DirectMessage) : List MessageRow :=
  dms.foldl (fun table dm => (insertMessages table [(dm.message state tenantId).row]).getD table) []

section Table

variable (state : AppState) (tenantId : String) (dms : List DirectMessage)

/-- It holds direct messages, under the constraints. -/
theorem dmTable_eq : ∃ stored : List DirectMessage,
    dmTable state tenantId dms = stored.map (fun dm => (dm.message state tenantId).row) ∧
      Insertable [] (dmTable state tenantId dms) := by
  unfold dmTable
  induction dms using List.reverseRecOn with
  | nil => exact ⟨[], rfl, by simp [Insertable]⟩
  | append_singleton dms dm ih =>
      obtain ⟨stored, same, insertable⟩ := ih
      rw [List.foldl_append, List.foldl_cons, List.foldl_nil]
      unfold insertMessages
      split
      · rename_i more
        rw [Option.getD_some]
        refine ⟨stored ++ [dm], ?_, insertable_append.mpr ⟨insertable, more⟩⟩
        rw [List.map_append, ← same]
        rfl
      · exact ⟨stored, same, insertable⟩

/-- Messages that the table takes are all there. -/
theorem dmTable_of_insertable
    (insertable : Insertable [] (dms.map fun dm => (dm.message state tenantId).row)) :
    dmTable state tenantId dms = dms.map fun dm => (dm.message state tenantId).row := by
  have all := foldl_insertMessages insertable
  rwa [List.foldl_map, List.nil_append] at all

open Cluster in
/-- The table is what `persist_message` leaves of the messages, without Kafka. -/
theorem messages_persistAll_dms {N : Type} [DecidableEq N] (n : N) (sha256Prefix : String → Uuid)
    {choices : ℕ → Choice} (ok : ∀ i, (choices i).ok = true) :
    (finish n (Handler.persistAll ⟨false, sha256Prefix⟩
      (dms.map (DirectMessage.message ⟨false, sha256Prefix⟩ tenantId))) choices
        (start ⟨[], [], []⟩)).db.messages = dmTable ⟨false, sha256Prefix⟩ tenantId dms := by
  rw [messages_persistAll_foldl n ok, List.map_map, List.foldl_map]
  rfl

variable {state tenantId dms} {path : ChannelPath} {row row' : MessageRow}

/-- In a channel, messages of one sender are of one conversation. -/
theorem conversation_of_sender (mem : row ∈ channelRows (dmTable state tenantId dms) path)
    (mem' : row' ∈ channelRows (dmTable state tenantId dms) path)
    (sender : row'.senderId = row.senderId) : row'.conversationId = row.conversationId := by
  obtain ⟨stored, same, _⟩ := dmTable_eq state tenantId dms
  have filed : ∀ row ∈ channelRows (dmTable state tenantId dms) path, row.conversationId =
      generateDmConversationId state.sha256Prefix row.senderId path.channelId := by
    intro row mem
    obtain ⟨there, own⟩ := List.mem_filter.mp mem
    rw [same] at there
    obtain ⟨dm, _, rfl⟩ := List.mem_map.mp there
    rw [← of_decide_eq_true own]
    rfl
  rw [filed row mem, filed row' mem', sender]

end Table

/-! ### Answers -/

/-- The rows are of one conversation. -/
def OneConversation (body : List MessageResponse) : Prop :=
  ∀ message ∈ body, ∀ message' ∈ body, message'.conversationId = message.conversationId ∧
    s(message'.senderId, message'.channelId) = s(message.senderId, message.channelId)

/-- Two rows of different senders never come on one page: with the newer one, and the rows newer
than the other, the page is full. -/
def SendersApart (limit : Int) (rows : List MessageRow) : Prop :=
  ∀ x ∈ rows, ∀ y ∈ rows, x.senderId ≠ y.senderId → y.createdAt ≤ x.createdAt →
    limit < others MessageRow.createdAt rows x y + 2

/-- Then the rows of a page are of one sender. -/
theorem sender_eq_of_mem_take (order : NewestFirst MessageRow.createdAt) {rows : List MessageRow}
    (nodup : rows.Nodup) {limit : Int} (apart : SendersApart limit rows) {row row' : MessageRow}
    (first : row ∈ (order.arrange rows).take limit.toNat)
    (first' : row' ∈ (order.arrange rows).take limit.toNat) : row'.senderId = row.senderId := by
  have there : ∀ row ∈ (order.arrange rows).take limit.toNat, row ∈ rows := fun row first =>
    (order.perm rows).mem_iff.mp (List.mem_of_mem_take first)
  have older : ∀ x ∈ (order.arrange rows).take limit.toNat,
      ∀ y ∈ (order.arrange rows).take limit.toNat, y.createdAt ≤ x.createdAt →
        x.senderId = y.senderId := by
    intro x firstX y firstY newer
    by_contra differ
    have room := others_of_mem_take order nodup (fun same => differ (congrArg _ same)) firstX firstY
    have full := apart x (there x firstX) y (there y firstY) differ newer
    omega
  rcases le_total row'.createdAt row.createdAt with newer | newer
  · exact (older row first row' first' newer).symm
  · exact older row' first' row first newer

/-- Whatever the order of rows of one second, the answer to a request for the history of a channel
is of one conversation if and only if no two messages of the channel with different senders fit on
the page. -/
theorem one_conversation_iff (state : AppState) (tenantId : String) (dms : List DirectMessage)
    (path : ChannelPath) (limit : Option Int) :
    (∀ pg, OneConversation
      (getChannelHistory pg (dmTable state tenantId dms) path ⟨none, limit⟩).2) ↔
    SendersApart (HistoryQuery.rows ⟨none, limit⟩)
      (channelRows (dmTable state tenantId dms) path) := by
  obtain ⟨_, _, insertable⟩ := dmTable_eq state tenantId dms
  have nodup : (channelRows (dmTable state tenantId dms) path).Nodup :=
    (List.Nodup.of_map _ insertable.2.1).filter _
  constructor
  · intro always x memX y memY differ newer
    by_contra room
    let pg : Postgres := { plainPostgres with order := pairFirst MessageRow.createdAt x y }
    have storable := insertable.1 x (List.mem_filter.mp memX).1
    obtain rfl := of_decide_eq_true (List.mem_filter.mp memX).2
    have answers : pg.Answers x.path := ⟨rfl, storable.1, storable.2.1, storable.2.2.1⟩
    obtain ⟨firstX, firstY⟩ := mem_take_pairFirst (n := (HistoryQuery.rows ⟨none, limit⟩).toNat) nodup
      (fun same => differ (congrArg _ same)) memX memY newer (by omega)
    have received : ∀ row ∈ (pg.order.arrange (channelRows (dmTable state tenantId dms) x.path)).take
        (HistoryQuery.rows ⟨none, limit⟩).toNat, row.response ∈
          (getChannelHistory pg (dmTable state tenantId dms) x.path ⟨none, limit⟩).2 :=
      fun row first => (mem_history _ _ _).mpr ⟨⟨answers, by omega⟩, row, first, rfl⟩
    have pair := (always pg _ (received x firstX) _ (received y firstY)).2
    have channel : y.channelId = x.channelId :=
      congrArg ChannelPath.channelId (of_decide_eq_true (List.mem_filter.mp memY).2)
    change s(y.senderId, y.channelId) = s(x.senderId, x.channelId) at pair
    rw [channel] at pair
    exact differ (Sym2.congr_left.mp pair).symm
  · rintro apart pg message mem message' mem'
    obtain ⟨⟨_, positive⟩, row, first, rfl⟩ := (mem_history _ _ _).mp mem
    obtain ⟨_, row', first', rfl⟩ := (mem_history _ _ _).mp mem'
    have there := (pg.order.perm _).mem_iff.mp (List.mem_of_mem_take first)
    have there' := (pg.order.perm _).mem_iff.mp (List.mem_of_mem_take first')
    have sender := sender_eq_of_mem_take pg.order nodup apart first first'
    have channel : row'.channelId = row.channelId := by
      have own := of_decide_eq_true (List.mem_filter.mp there).2
      have own' := of_decide_eq_true (List.mem_filter.mp there').2
      exact congrArg ChannelPath.channelId (own'.trans own.symm)
    refine ⟨congrArg uuidText (conversation_of_sender there there' sender), ?_⟩
    change s(row'.senderId, row'.channelId) = s(row.senderId, row.channelId)
    rw [sender, channel]

/-- Bob's history holds what ada and carol wrote to him. -/
theorem history_mixes_senders :
    ¬ ∀ (state : AppState) (tenantId : String) (dms : List DirectMessage) (pg : Postgres)
      (channelId : String) (limit : Option Int), OneConversation (getChannelHistory pg
        (dmTable state tenantId dms) ⟨tenantId, ChannelType.dm.debug, channelId⟩ ⟨none, limit⟩).2 := by
  intro always
  let state : AppState := ⟨true, sha256Names⟩
  let first : DirectMessage := ⟨"ada", "bob", "hi", 1, 7⟩
  let second : DirectMessage := ⟨"carol", "bob", "hello", 2, 7⟩
  have table : dmTable state "acme" [first, second] =
      [(first.message state "acme").row, (second.message state "acme").row] :=
    dmTable_of_insertable state "acme" [first, second] (by decide)
  have page : (plainPostgres.order.arrange (channelRows (dmTable state "acme" [first, second])
      ⟨"acme", "Dm", "bob"⟩)).take 50 =
        [(first.message state "acme").row, (second.message state "acme").row] := by
    rw [table]
    decide +kernel
  have received : ∀ row ∈ [(first.message state "acme").row, (second.message state "acme").row],
      row.response ∈ (getChannelHistory plainPostgres (dmTable state "acme" [first, second])
        ⟨"acme", "Dm", "bob"⟩ ⟨none, none⟩).2 := by
    intro row mem
    exact (mem_history _ _ _).mpr ⟨by decide, row, page ▸ mem, rfl⟩
  have pair := (always state "acme" [first, second] plainPostgres "bob" none _
    (received (first.message state "acme").row (by simp)) _
    (received (second.message state "acme").row (by simp))).2
  exact absurd pair (by decide)

end YappaCore
