import Mathlib.Data.Finset.Card
import Mathlib.Data.Finset.Dedup
import YappaCore.Server.Durability

/-!
What `get_tenant_groups` lists over the runs of any number of nodes.

`listing_exact`: the listing of a tenant has each of its stored groups once, with the number of the
users stored for it. `listing_lasts`: a listed group stays listed as it is, and its id changes only
where it has no members.
-/

namespace YappaCore

open Lib

/-! ### One listing -/

namespace Database

variable {db : Database} {t : String}

/-- The rows of a tenant's groups. -/
def groupsOf (db : Database) (tenantId : String) : List GroupRow :=
  db.groups.filter (·.tenantId = tenantId)

/-- The listing is made of these rows, in some order; a name that cannot be stored has none. -/
theorem listing_perm (schema : db.Schema) (t : String) :
    ((getTenantGroups true db t).2).Perm
      ((db.groupsOf t).map fun row => row.response db.groupMembers) := by
  unfold getTenantGroups
  by_cases storable : Storable t
  · rw [if_pos ⟨rfl, storable⟩]
    exact (List.perm_insertionSort _ _).map _
  · have none : db.groupsOf t = [] := by
      rw [groupsOf, List.filter_eq_nil_iff]
      intro row mem own
      exact storable (of_decide_eq_true own ▸ (schema.groupTexts row mem).1)
    rw [if_neg fun both => storable both.2, none]
    exact List.Perm.refl _

theorem mem_listing (schema : db.Schema) {response : GroupResponse} :
    response ∈ (getTenantGroups true db t).2 ↔
      ∃ row ∈ db.groupsOf t, row.response db.groupMembers = response := by
  rw [(listing_perm schema t).mem_iff, List.mem_map]

/-- The users that are stored for a conversation. -/
def usersOf (db : Database) (id : Uuid) : Finset String :=
  ((db.groupMembers.filter (·.conversationId = id)).map (·.userId)).toFinset

theorem mem_usersOf {id : Uuid} {u : String} : u ∈ db.usersOf id ↔ db.MemberStored id u := by
  unfold usersOf MemberStored
  simp only [List.mem_toFinset, List.mem_map, List.mem_filter, decide_eq_true_eq, and_assoc]

/-- Under the constraints a listed group counts its users. -/
theorem Schema.memberCount (schema : db.Schema) (row : GroupRow) :
    (row.response db.groupMembers).memberCount = (db.usersOf row.conversationId).card := by
  have distinct : ((db.groupMembers.filter (·.conversationId = row.conversationId)).map
      (·.userId)).Nodup := by
    have keys := (schema.memberKeys.of_map _).filter
      (fun member => decide (member.conversationId = row.conversationId))
    refine keys.map_on ?_
    intro member mem member' mem' same
    obtain ⟨there, own⟩ := List.mem_filter.mp mem
    obtain ⟨there', own'⟩ := List.mem_filter.mp mem'
    refine List.inj_on_of_nodup_map schema.memberKeys there there' ?_
    rw [of_decide_eq_true own, of_decide_eq_true own', same]
  unfold usersOf
  rw [List.toFinset_card_of_nodup distinct, List.length_map, ← List.countP_eq_length_filter]
  rfl

end Database

namespace Cluster

variable {N : Type} [DecidableEq N] {state : AppState}

/-- After any run, the listing of a tenant names each of its groups once, under the id that it is
stored under, and counts the users that are stored for that id. -/
theorem listing_exact (state : AppState) {db : Database} (schema : db.Schema)
    {es : List (Event N)} {s : Cluster N} (ran : (machine N state).run (start db) es = some s)
    (t : String) :
    let listing := (getTenantGroups true s.db t).2
    (listing.map (·.name)).Nodup ∧ (listing.map (·.conversationId)).Nodup ∧
      (∀ g id, s.db.GroupStored t g id →
        ∃ response ∈ listing, response.name = g ∧ response.conversationId = uuidText id) ∧
      ∀ response ∈ listing, ∃ id, s.db.GroupStored t response.name id ∧
        response.conversationId = uuidText id ∧
        ∃ users : Finset String, (∀ u, u ∈ users ↔ s.db.MemberStored id u) ∧
          response.memberCount = users.card := by
  intro listing
  have now := schema_run schema ran
  have perm := Database.listing_perm now t
  have rows : (s.db.groupsOf t).Nodup := (now.groupIds.of_map _).filter _
  have each : ∀ {β : Type} {f : GroupRow → β}, (∀ row ∈ s.db.groupsOf t, ∀ row' ∈ s.db.groupsOf t,
      f row = f row' → row = row') → ((s.db.groupsOf t).map f).Nodup := by
    intro β f injective
    exact rows.map_on fun row mem row' mem' same => injective row mem row' mem' same
  refine ⟨?_, ?_, ?_, ?_⟩
  · rw [(perm.map _).nodup_iff, List.map_map]
    refine each fun row mem row' mem' same => ?_
    obtain ⟨there, own⟩ := List.mem_filter.mp mem
    obtain ⟨there', own'⟩ := List.mem_filter.mp mem'
    exact now.row_of_name there there'
      ((of_decide_eq_true own).trans (of_decide_eq_true own').symm) same
  · rw [(perm.map _).nodup_iff, List.map_map]
    refine each fun row mem row' mem' same => ?_
    exact now.row_of_id (List.mem_of_mem_filter mem) (List.mem_of_mem_filter mem')
      (uuidText_injective same)
  · rintro g id ⟨row, mem, tenant, rfl, rfl⟩
    have own : row ∈ s.db.groupsOf t := List.mem_filter.mpr ⟨mem, decide_eq_true tenant⟩
    exact ⟨_, (Database.mem_listing now).mpr ⟨row, own, rfl⟩, rfl, rfl⟩
  · intro response listed
    obtain ⟨row, own, rfl⟩ := (Database.mem_listing now).mp listed
    obtain ⟨mem, tenant⟩ := List.mem_filter.mp own
    exact ⟨row.conversationId, ⟨row, mem, of_decide_eq_true tenant, rfl, rfl⟩, rfl,
      s.db.usersOf row.conversationId, fun u => Database.mem_usersOf, now.memberCount row⟩

/-- Ada creates a team, the listing has it, and she deletes it. -/
theorem listing_exact_team :
    let state : AppState := ⟨true, fun _ => 0⟩
    ∃ s, (machine Unit state).run (start ⟨[], [], []⟩) teamCreatedDeleted = some s ∧
      let listing := (getTenantGroups true s.db "acme").2
      listing.length = 1 ∧ (listing.map (·.name)).Nodup ∧
        (listing.map (·.conversationId)).Nodup ∧
        (∀ g id, s.db.GroupStored "acme" g id →
          ∃ response ∈ listing, response.name = g ∧ response.conversationId = uuidText id) ∧
        ∀ response ∈ listing, ∃ id, s.db.GroupStored "acme" response.name id ∧
          response.conversationId = uuidText id ∧
          ∃ users : Finset String, (∀ u, u ∈ users ↔ s.db.MemberStored id u) ∧
            response.memberCount = users.card := by
  intro state
  obtain ⟨s, ran, one⟩ : ∃ s ∈ (machine Unit state).run (start ⟨[], [], []⟩) teamCreatedDeleted,
      (getTenantGroups true s.db "acme").2.length = 1 := by decide
  exact ⟨s, ran, one, listing_exact state (.empty []) ran "acme"⟩

/-- A row of a group stays as it is, but for its id where that has no members. -/
theorem Stepped.groupRow {s s' : Cluster N} {e : Event N} (h : Stepped state s e s')
    (schema : s.db.Schema) {row : GroupRow} (mem : row ∈ s.db.groups) :
    ∃ id, { row with conversationId := id } ∈ s'.db.groups ∧
      (id = row.conversationId ∨ ∀ u, ¬ s.db.MemberStored row.conversationId u) := by
  have kept : row ∈ s'.db.groups → ∃ id, { row with conversationId := id } ∈ s'.db.groups ∧
      (id = row.conversationId ∨ ∀ u, ¬ s.db.MemberStored row.conversationId u) := fun there =>
    ⟨row.conversationId, there, .inl rfl⟩
  rcases h.groups with same | ⟨_, choice, _, c, t, g, u, _, c', _, _, _, _, upserted⟩
  · exact kept (same ▸ mem)
  · obtain ⟨_, _, ⟨_, _, after⟩ | ⟨_, after⟩ | ⟨⟨old, stored, none⟩, _, after⟩⟩ :=
      Database.upsertGroup_cases upserted
    · refine kept ?_
      rw [after]
      exact List.mem_append_left _ mem
    · exact kept (after ▸ mem)
    · by_cases own : row.tenantId = t ∧ row.name = g
      · -- The id of this group is the one that has no members.
        have same : old = row.conversationId :=
          schema.id_unique stored ⟨row, mem, own.1, own.2, rfl⟩
        refine ⟨c, ?_, .inr (same ▸ none)⟩
        rw [after]
        exact List.mem_map.mpr ⟨row, mem, Database.renumber_eq own.1 own.2⟩
      · refine kept ?_
        rw [after]
        exact List.mem_map.mpr ⟨row, mem, Database.renumber_of_ne own⟩

/-- The listing of the tenant counts members for the group. -/
def CountsMembers (s : Cluster N) (t g : String) : Prop :=
  ∃ response ∈ (getTenantGroups true s.db t).2, response.name = g ∧ 0 < response.memberCount

omit [DecidableEq N] in
/-- Where the listing counts members for a group, its id has some. -/
theorem CountsMembers.exists_member {s : Cluster N} {t g : String} (counts : s.CountsMembers t g)
    (schema : s.db.Schema) {row : GroupRow} (mem : row ∈ s.db.groups)
    (tenant : row.tenantId = t) (name : row.name = g) :
    ∃ u, s.db.MemberStored row.conversationId u := by
  obtain ⟨response, listed, named, positive⟩ := counts
  obtain ⟨row', own, rfl⟩ := (Database.mem_listing schema).mp listed
  obtain ⟨mem', tenant'⟩ := List.mem_filter.mp own
  obtain rfl := schema.row_of_name mem mem' (tenant.trans (of_decide_eq_true tenant').symm)
    (name.trans named.symm)
  rw [schema.memberCount row, Finset.card_pos] at positive
  obtain ⟨u, listed⟩ := positive
  exact ⟨u, Database.mem_usersOf.mp listed⟩

/-- Over any run, a listed group stays listed with its name, its creator and the time of its
creation, and under its id as long as the listing counts members for it. -/
theorem listing_lasts (state : AppState) {s s' : Cluster N} (schema : s.db.Schema)
    {es : List (Event N)} (ran : (machine N state).run s es = some s') {t : String}
    {response : GroupResponse} (listed : response ∈ (getTenantGroups true s.db t).2) :
    ∃ response' ∈ (getTenantGroups true s'.db t).2, response'.name = response.name ∧
      response'.createdBy = response.createdBy ∧ response'.createdAt = response.createdAt ∧
      ((machine N state).Steps (fun s _ => s.CountsMembers t response.name) s es →
        response'.conversationId = response.conversationId) := by
  obtain ⟨row, own, rfl⟩ := (Database.mem_listing schema).mp listed
  obtain ⟨mem, tenant⟩ := List.mem_filter.mp own
  have tenant := of_decide_eq_true tenant
  let Counts (s : Cluster N) (_ : Event N) : Prop := s.CountsMembers t row.name
  let Inv (es : List (Event N)) (s' : Cluster N) : Prop :=
    (machine N state).run s es = some s' ∧ s'.db.Schema ∧
      ∃ id, { row with conversationId := id } ∈ s'.db.groups ∧
        ((machine N state).Steps Counts s es → id = row.conversationId)
  have init : Inv [] s := ⟨rfl, schema, row.conversationId, mem, fun _ => rfl⟩
  have step : ∀ es s₁ e s₂, Inv es s₁ → (machine N state).step s₁ e = some s₂ →
      Inv (es ++ [e]) s₂ := by
    rintro es s₁ e s₂ ⟨before, schema₁, id, there, same⟩ next
    have h := stepped next
    obtain ⟨id', there', unchanged⟩ := h.groupRow schema₁ there
    refine ⟨(machine N state).run_snoc.mpr ⟨s₁, before, next⟩, h.schema schema₁, id', there', ?_⟩
    intro counts
    obtain ⟨earlier, now⟩ := (Machine.steps_snoc before next).mp counts
    rcases unchanged with kept | none
    · exact kept.trans (same earlier)
    · obtain ⟨u, stored⟩ := now.exists_member schema₁ there tenant rfl
      exact absurd stored (none u)
  obtain ⟨_, schema', id, there, same⟩ := Machine.invariant init step ran
  have own' : { row with conversationId := id } ∈ s'.db.groupsOf t :=
    List.mem_filter.mpr ⟨there, decide_eq_true tenant⟩
  exact ⟨_, (Database.mem_listing schema').mpr ⟨_, own', rfl⟩, rfl, rfl, rfl,
    fun counts => congrArg uuidText (same counts)⟩

/-- A user connects and creates the team, and the listener hears of it. -/
def teamCreated : List (Event Unit) :=
  [.connect 1 () ⟨"acme", "ada"⟩] ++ performs 1 ++ [.frame 1 (teamFrame .create)] ++ performs 8 ++
    [.deliver ()]

/-- The team is listed after it was created, and still after it was deleted. -/
theorem listing_lasts_team :
    let state : AppState := ⟨true, fun _ => 0⟩
    let deleted : List (Event Unit) := [.frame 1 (teamFrame .delete)] ++ performs 1
    ∃ s, (machine Unit state).run (start ⟨[], [], []⟩) teamCreated = some s ∧
      ∃ response ∈ (getTenantGroups true s.db "acme").2,
        ∃ s', (machine Unit state).run s deleted = some s' ∧
        ∃ response' ∈ (getTenantGroups true s'.db "acme").2, response'.name = response.name ∧
          response'.createdBy = response.createdBy ∧ response'.createdAt = response.createdAt ∧
          ((machine Unit state).Steps (fun s _ => s.CountsMembers "acme" response.name) s deleted →
            response'.conversationId = response.conversationId) := by
  intro state deleted
  obtain ⟨s, ran, one, s', ran', _⟩ :
      ∃ s ∈ (machine Unit state).run (start ⟨[], [], []⟩) teamCreated,
        (getTenantGroups true s.db "acme").2.length = 1 ∧
        ∃ s' ∈ (machine Unit state).run s deleted, True := by decide
  obtain ⟨response, only⟩ := List.length_eq_one_iff.mp one
  have listed : response ∈ (getTenantGroups true s.db "acme").2 := by
    rw [only]
    exact List.mem_singleton_self response
  have schema := schema_run (.empty []) ran
  exact ⟨s, ran, response, listed, s', ran', listing_lasts state schema ran' listed⟩

end Cluster

end YappaCore
