import YappaCore.Server.Persisted

/-!
The Kafka keys of conversations. A record's key is the channel id of its message, which for a
direct message is the recipient, while the conversation is that of the pair.

`one_key` says when all records of a conversation of a tenant have one key: when no record is
produced whose conversation has records under another channel id already.
-/

namespace YappaCore

open Lib Handler

namespace IdSource

/-- Two sources that give one id and are not both names. -/
def shares (sha256Prefix : String → Uuid) (a b : IdSource) : Bool :=
  a.crosses sha256Prefix b ||
    match a, b with
    | .drawn id, .drawn id' => id = id'
    | _, _ => false

theorem shares_comm (sha256Prefix : String → Uuid) (a b : IdSource) :
    a.shares sha256Prefix b = b.shares sha256Prefix a := by
  unfold shares
  rw [crosses_comm]
  cases a <;> cases b <;> simp only [eq_comm]

end IdSource

namespace Cluster

variable {N : Type} [DecidableEq N] {state : AppState}

/-- An event persists no message whose id is shared with a record of its tenant under another
channel id: no direct message of a pair, or of pairs whose names are joined to one text, to another
recipient than before; no chat under a name that is the text of another conversation's id; no drawn
id that is another conversation's. -/
def keepsKey (sha256Prefix : String → Uuid) (s : Cluster N) (e : Event N) : Bool :=
  (s.persisting e).all fun row => s.kafka.all fun record =>
    record.2.2.tenantId ≠ row.tenantId || record.2.2.channelId = row.channelId ||
      !row.source.shares sha256Prefix record.2.2.row.source

/-- Records of a tenant under different channel ids share no id. -/
def KeysApart (sha256Prefix : String → Uuid) (s : Cluster N) : Prop :=
  ∀ record ∈ s.kafka, ∀ record' ∈ s.kafka, record'.2.2.tenantId = record.2.2.tenantId →
    record'.2.2.channelId ≠ record.2.2.channelId →
    record.2.2.row.source.shares sha256Prefix record'.2.2.row.source = false

theorem Stepped.keysApart {sha256Prefix : String → Uuid} {s s' : Cluster N} {e : Event N}
    (h : Stepped state s e s') (keeps : keepsKey sha256Prefix s e = true)
    (apart : KeysApart sha256Prefix s) : KeysApart sha256Prefix s' := by
  rcases h.kafka with same | ⟨new, grown, _, persists⟩
  · unfold KeysApart
    rw [same]
    exact apart
  · have separate : ∀ record ∈ s.kafka, record.2.2.tenantId = new.2.2.tenantId →
        record.2.2.channelId ≠ new.2.2.channelId →
        new.2.2.row.source.shares sha256Prefix record.2.2.row.source = false := by
      intro record mem tenant channel
      have kept := List.all_eq_true.mp (List.all_eq_true.mp keeps _ persists) record mem
      change (decide (record.2.2.tenantId ≠ new.2.2.tenantId) ||
        decide (record.2.2.channelId = new.2.2.channelId) || _) = true at kept
      simpa [tenant, channel] using kept
    intro record mem record' mem' tenant channel
    rw [grown, List.mem_append, List.mem_singleton] at mem mem'
    rcases mem with old | rfl
    · rcases mem' with old' | rfl
      · exact apart record old record' old' tenant channel
      · rw [IdSource.shares_comm]
        exact separate record old tenant.symm channel.symm
    · rcases mem' with old' | rfl
      · exact separate record' old' tenant channel
      · exact absurd rfl channel

/-- In a run in which every step keeps the key, the records of a conversation of a tenant have one
key. -/
theorem one_key (state : AppState) {db : Database} (schema : db.Schema) (named : db.Named)
    (empty : db.messages = []) {es : List (Event N)} {s : Cluster N}
    (ran : (machine N state).run (start db) es = some s)
    (keeps : (machine N state).Steps (fun s e => keepsKey state.sha256Prefix s e = true)
      (start db) es)
    (injective : Set.InjOn state.sha256Prefix s.pairTexts) :
    ∀ record ∈ s.kafka, ∀ record' ∈ s.kafka, record'.2.2.tenantId = record.2.2.tenantId →
      record'.2.2.conversationId = record.2.2.conversationId → record'.2.1 = record.2.1 := by
  have inv := archived state schema named empty ran
  have apart : KeysApart state.sha256Prefix s := by
    refine Machine.invariant_steps ?_ ?_ ran keeps
    · intro record mem
      exact absurd mem List.not_mem_nil
    · exact fun s e s' apart kept next => (stepped next).keysApart kept apart
  intro record mem record' mem' tenant conversation
  rw [inv.keys record mem, inv.keys record' mem']
  have stored : ∀ record ∈ s.kafka, record.2.2.row ∈ s.persisted := fun record mem =>
    List.mem_append_right _ (List.mem_map_of_mem mem)
  by_contra channel
  have shared := apart record mem record' mem' tenant channel
  rcases inv.sources_of_conversation (stored record mem) (stored record' mem') injective
    conversation with ⟨id, name, name'⟩ | ⟨id, drawn, drawn'⟩ | crosses
  · exact channel (inv.group_eq (stored record mem) (stored record' mem') (schema_run schema ran)
      name name').2
  · simp [IdSource.shares, drawn, drawn'] at shared
  · simp [IdSource.shares, crosses] at shared

/-- Two messages of ada to bob have one key. -/
theorem one_key_one_way :
    let state : AppState := ⟨true, sha256Names⟩
    ∃ s, (machine Unit state).run (start ⟨[], [], []⟩)
        (sendDm 1 "acme" "ada" "bob" 10 ++ sendDm 2 "acme" "ada" "bob" 20) = some s ∧
      s.kafka.length = 2 ∧
      ∀ record ∈ s.kafka, ∀ record' ∈ s.kafka, record'.2.2.tenantId = record.2.2.tenantId →
        record'.2.2.conversationId = record.2.2.conversationId → record'.2.1 = record.2.1 := by
  intro state
  obtain ⟨s, ran, two, one⟩ : ∃ s ∈ (machine Unit state).run (start ⟨[], [], []⟩)
      (sendDm 1 "acme" "ada" "bob" 10 ++ sendDm 2 "acme" "ada" "bob" 20), s.kafka.length = 2 ∧
        ∀ row ∈ s.persisted, row.source = .pair "ada:bob" := by decide
  exact ⟨s, ran, two, one_key state (.empty []) .empty rfl ran (by decide) (injOn_of_one_pair one)⟩

/-- A message and its answer are in one conversation and have two keys. -/
theorem answer_has_other_key :
    ¬ ∀ (state : AppState) (es : List (Event Unit)) (s : Cluster Unit),
      (machine Unit state).run (start ⟨[], [], []⟩) es = some s →
      Set.InjOn state.sha256Prefix s.pairTexts →
      ∀ record ∈ s.kafka, ∀ record' ∈ s.kafka, record'.2.2.tenantId = record.2.2.tenantId →
        record'.2.2.conversationId = record.2.2.conversationId → record'.2.1 = record.2.1 := by
  intro always
  let state : AppState := ⟨true, sha256Names⟩
  obtain ⟨s, ran, one, record, mem, record', mem', tenant, conversation, key⟩ :
      ∃ s ∈ (machine Unit state).run (start ⟨[], [], []⟩)
        (sendDm 1 "acme" "ada" "bob" 10 ++ sendDm 2 "acme" "bob" "ada" 20),
        (∀ row ∈ s.persisted, row.source = .pair "ada:bob") ∧
        ∃ record ∈ s.kafka, ∃ record' ∈ s.kafka, record'.2.2.tenantId = record.2.2.tenantId ∧
          record'.2.2.conversationId = record.2.2.conversationId ∧ record'.2.1 ≠ record.2.1 := by
    decide
  exact key (always state _ s ran (injOn_of_one_pair one) record mem record' mem' tenant conversation)

end Cluster

end YappaCore
