import YappaCore.Server.Persisted

/-!
Conversations and tenants. The conversation id of a direct message is a hash of two user names
and nothing else, and the one of a chat may be its group's name; only the rows of `groups` tie an
id to a tenant.

`one_tenant` says when no conversation spans tenants: when no message is persisted whose id
crosses that of a message of another tenant.
-/

namespace YappaCore

open Lib Handler

namespace Cluster

variable {N : Type} [DecidableEq N] {state : AppState}

/-- An event persists no message whose id crosses that of another tenant's: no direct message of a
pair whose names are joined to the same text there, no chat under a name that is the text of an id
there, and none whose own id is a name there. -/
def keepsTenant (sha256Prefix : String → Uuid) (s : Cluster N) (e : Event N) : Bool :=
  (s.persisting e).all fun row => s.persisted.all fun old =>
    old.tenantId = row.tenantId || !row.source.crosses sha256Prefix old.source

/-- Messages of different tenants have no sources that cross. -/
def TenantsApart (sha256Prefix : String → Uuid) (s : Cluster N) : Prop :=
  ∀ row ∈ s.persisted, ∀ row' ∈ s.persisted, row'.tenantId ≠ row.tenantId →
    row.source.crosses sha256Prefix row'.source = false

theorem Stepped.tenantsApart {db : Database} {es : List (Event N)} {s s' : Cluster N} {e : Event N}
    (inv : Archived state db es s) (h : Stepped state s e s')
    (keeps : keepsTenant state.sha256Prefix s e = true)
    (apart : TenantsApart state.sha256Prefix s) : TenantsApart state.sha256Prefix s' := by
  have separate : ∀ new ∈ s.persisting e, ∀ old ∈ s.persisted, old.tenantId ≠ new.tenantId →
      new.source.crosses state.sha256Prefix old.source = false := by
    intro new persists old mem tenant
    have kept := List.all_eq_true.mp (List.all_eq_true.mp keeps new persists) old mem
    simpa [tenant] using kept
  intro row mem row' mem' tenant
  rcases h.mem_persisted mem with old | new
  · rcases h.mem_persisted mem' with old' | new'
    · exact apart row old row' old' tenant
    · rw [IdSource.crosses_comm]
      exact separate row' new' row old tenant.symm
  · rcases h.mem_persisted mem' with old' | new'
    · exact separate row new row' old' tenant
    · exact absurd (congrArg MessageRow.tenantId (inv.persisting_unique new' new)) tenant

/-- In a run in which every step keeps to its tenant, and no id is drawn twice, the persisted
messages of a conversation are of one tenant. -/
theorem one_tenant (state : AppState) {db : Database} (schema : db.Schema) (named : db.Named)
    (empty : db.messages = []) {es : List (Event N)} {s : Cluster N}
    (ran : (machine N state).run (start db) es = some s)
    (keeps : (machine N state).Steps (fun s e => keepsTenant state.sha256Prefix s e = true)
      (start db) es)
    (fresh : ((drawn state db es).map (·.2)).Nodup)
    (injective : Set.InjOn state.sha256Prefix s.pairTexts) :
    ∀ row ∈ s.persisted, ∀ row' ∈ s.persisted, row'.conversationId = row.conversationId →
      row'.tenantId = row.tenantId := by
  let Inv (es : List (Event N)) (s : Cluster N) : Prop :=
    Archived state db es s ∧ TenantsApart state.sha256Prefix s
  have init : Inv [] (start db) := by
    refine ⟨.init named empty, ?_⟩
    intro row mem
    simp [persisted, start, empty] at mem
  have step : ∀ es s e s', Inv es s → keepsTenant state.sha256Prefix s e = true →
      (machine N state).step s e = some s' → Inv (es ++ [e]) s' := by
    rintro es s e s' ⟨inv, apart⟩ kept next
    exact ⟨inv.step schema next, (stepped next).tenantsApart inv kept apart⟩
  obtain ⟨inv, apart⟩ : Inv es s := Machine.invariant_trace init step ran keeps
  intro row mem row' mem' conversation
  by_contra tenant
  rcases inv.sources_of_conversation mem mem' injective conversation with
    ⟨id, name, name'⟩ | ⟨id, drawn, drawn'⟩ | crosses
  · exact tenant (inv.group_eq mem mem' (schema_run schema ran) name name').1
  · exact tenant (inv.tenant_eq mem mem' fresh drawn drawn').symm
  · rw [apart row mem row' mem' tenant] at crosses
    simp at crosses

/-- Users of two tenants write to each other under other names, and their messages are in different
conversations. -/
theorem one_tenant_two :
    let state : AppState := ⟨true, sha256Names⟩
    ∃ s, (machine Unit state).run (start ⟨[], [], []⟩)
        (sendDm 1 "acme" "ada" "bob" 10 ++ sendDm 2 "globex" "eve" "bob" 20) = some s ∧
      s.persisted.length = 2 ∧
      ∀ row ∈ s.persisted, ∀ row' ∈ s.persisted, row'.conversationId = row.conversationId →
        row'.tenantId = row.tenantId := by
  intro state
  obtain ⟨s, ran, two, texts⟩ : ∃ s ∈ (machine Unit state).run (start ⟨[], [], []⟩)
      (sendDm 1 "acme" "ada" "bob" 10 ++ sendDm 2 "globex" "eve" "bob" 20),
      s.persisted.length = 2 ∧
        ∀ row ∈ s.persisted, row.source = .pair "ada:bob" ∨ row.source = .pair "bob:eve" := by
    decide
  have injective : Set.InjOn state.sha256Prefix s.pairTexts := by
    have either : ∀ text ∈ s.pairTexts, text = "ada:bob" ∨ text = "bob:eve" := by
      rintro text ⟨row, mem, source⟩
      rcases texts row mem with first | second
      · exact .inl (IdSource.pair.inj (source.symm.trans first))
      · exact .inr (IdSource.pair.inj (source.symm.trans second))
    have differ : state.sha256Prefix "ada:bob" ≠ state.sha256Prefix "bob:eve" := by decide
    intro a memA b memB same
    rcases either a memA with rfl | rfl <;> rcases either b memB with rfl | rfl
    · rfl
    · exact absurd same differ
    · exact absurd same.symm differ
    · rfl
  exact ⟨s, ran, two, one_tenant state (.empty []) .empty rfl ran (by decide) (by decide) injective⟩

/-- Users of the same names in two tenants share a conversation. -/
theorem tenants_share_conversation :
    ¬ ∀ (state : AppState) (es : List (Event Unit)) (s : Cluster Unit),
      (machine Unit state).run (start ⟨[], [], []⟩) es = some s →
      ((drawn state ⟨[], [], []⟩ es).map (·.2)).Nodup → Set.InjOn state.sha256Prefix s.pairTexts →
      ∀ row ∈ s.persisted, ∀ row' ∈ s.persisted, row'.conversationId = row.conversationId →
        row'.tenantId = row.tenantId := by
  intro always
  let state : AppState := ⟨true, sha256Names⟩
  obtain ⟨s, ran, one, row, mem, row', mem', conversation, tenant⟩ :
      ∃ s ∈ (machine Unit state).run (start ⟨[], [], []⟩)
        (sendDm 1 "acme" "ada" "bob" 10 ++ sendDm 2 "globex" "ada" "bob" 20),
        (∀ row ∈ s.persisted, row.source = .pair "ada:bob") ∧
        ∃ row ∈ s.persisted, ∃ row' ∈ s.persisted,
          row'.conversationId = row.conversationId ∧ row'.tenantId ≠ row.tenantId := by
    decide
  exact tenant (always state _ s ran (by decide) (injOn_of_one_pair one) row mem row' mem'
    conversation)

end Cluster

end YappaCore
