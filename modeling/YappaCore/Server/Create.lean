import YappaCore.Db.Groups
import YappaCore.Server.Frames
import YappaCore.Server.Membership

/-!
What a `CREATE` leaves behind when nothing fails for a while: the row of the group, the row of
its creator, and the creator's membership on the node.

The handler draws a new id for a group whose name is not the text of one, and its upsert writes
that id over the one of the row, which the members of the group reference. `created_iff` says
when the group comes out as it should.
-/

namespace YappaCore

open Lib Handler

namespace Cluster

variable {N : Type} [DecidableEq N]

/-- What a `CREATE` owes: the group is stored, under the id that it had if it was stored before,
and its creator is listed there and a member on the node. -/
structure Created (n : N) (identity : Identity) (g : String) (before after : Cluster N) : Prop where
  row : ∃ id, after.db.GroupStored identity.tenantId g id ∧
    (∀ old, before.db.GroupStored identity.tenantId g old → id = old) ∧
      after.db.MemberStored id identity.userId
  member : after.member n identity.tenantId g identity.userId = true

/-- The group is not stored, the id is in no row, and the three texts can be stored. -/
structure Creatable (db : Database) (identity : Identity) (g : String) (id : Uuid) : Prop where
  unknown : ∀ old, ¬ db.GroupStored identity.tenantId g old
  unused : ∀ row ∈ db.groups, row.conversationId ≠ id
  texts : Storable identity.tenantId ∧ Storable g ∧ Storable identity.userId

section Create

variable (n : N) (choices : ℕ → Choice) (s : Cluster N) {identity : Identity} {g : String}

/-- A `CREATE` whose upsert is refused does nothing. -/
theorem finish_refused (ok : ∀ i, (choices i).ok = true) (notText : parseUuid g = none)
    (refused : s.db.upsertGroup (choices 0).uuid identity.tenantId g identity.userId
      (choices 1).dbTime = none) :
    (finish n (handleCreate identity g) choices s).db = s.db ∧
      (finish n (handleCreate identity g) choices s).member n = s.member n := by
  have id : conversationOf g choices = (choices 0).uuid := by simp [conversationOf, notText]
  have later : afterParse g choices = fun i => choices (i + 1) := by simp [afterParse, notText]
  constructor
  · rw [db_handleCreate, id, later]
    simp only [ok, if_true, refused]
  · funext t g' u
    rw [member_finish, operations_handleCreate, id, later]
    simp only [perform, ok, if_true, refused, newIds, notText]
    rfl

/-- A `CREATE` whose upsert goes through lists the creator and joins the group. -/
theorem finish_upserted (ok : ∀ i, (choices i).ok = true) (notText : parseUuid g = none)
    {id : Uuid} {db : Database}
    (upserted : s.db.upsertGroup (choices 0).uuid identity.tenantId g identity.userId
      (choices 1).dbTime = some (id, db)) :
    (finish n (handleCreate identity g) choices s).db =
        (db.insertGroupMember id identity.tenantId identity.userId (choices 2).dbTime).getD db ∧
      (finish n (handleCreate identity g) choices s).member n identity.tenantId g identity.userId =
        true := by
  have new : conversationOf g choices = (choices 0).uuid := by simp [conversationOf, notText]
  have later : afterParse g choices = fun i => choices (i + 1) := by simp [afterParse, notText]
  constructor
  · rw [db_handleCreate, new, later]
    simp only [ok, if_true, upserted]
  · rw [member_finish, operations_handleCreate, new, later]
    simp [perform, ok, upserted, newIds, notText, memberAfter]

/-- What is owed after a `CREATE` whose upsert is refused was there before. -/
theorem created_of_refused_iff (schema : s.db.Schema) (ok : ∀ i, (choices i).ok = true)
    (notText : parseUuid g = none)
    (refused : s.db.upsertGroup (choices 0).uuid identity.tenantId g identity.userId
      (choices 1).dbTime = none) :
    Created n identity g s (finish n (handleCreate identity g) choices s) ↔
      ∃ old, s.db.GroupStored identity.tenantId g old ∧ s.db.MemberStored old identity.userId ∧
        s.member n identity.tenantId g identity.userId = true := by
  obtain ⟨db, member⟩ := finish_refused n choices s ok notText refused
  constructor
  · rintro ⟨⟨id, stored, _, listed⟩, joined⟩
    rw [db] at stored listed
    rw [member] at joined
    exact ⟨id, stored, listed, joined⟩
  · rintro ⟨old, stored, listed, joined⟩
    refine ⟨⟨old, ?_, fun old' stored' => schema.id_unique stored stored', ?_⟩, ?_⟩
    · rwa [db]
    · rwa [db]
    · rwa [member]

/-- An upsert that goes through leaves what is owed if the group had no other id. -/
theorem created_of_upserted_iff (schema : s.db.Schema) (ok : ∀ i, (choices i).ok = true)
    (notText : parseUuid g = none) {id : Uuid} {db : Database}
    (upserted : s.db.upsertGroup (choices 0).uuid identity.tenantId g identity.userId
      (choices 1).dbTime = some (id, db)) :
    Created n identity g s (finish n (handleCreate identity g) choices s) ↔
      ∀ old, s.db.GroupStored identity.tenantId g old → (choices 0).uuid = old := by
  obtain ⟨tables, joined⟩ := finish_upserted n choices s ok notText upserted
  obtain ⟨rfl, ⟨tenant, name, user⟩, _⟩ := Database.upsertGroup_cases upserted
  have stored : db.GroupStored identity.tenantId g (choices 0).uuid :=
    (schema.groupStored_upsert upserted _ _ _).mpr (by simp)
  obtain ⟨db', inserted⟩ := Database.exists_insertGroupMember tenant user stored.exists_row
    (choices 2).dbTime
  rw [inserted, Option.getD_some] at tables
  have after : ∀ t' g' x, db'.GroupStored t' g' x ↔ db.GroupStored t' g' x :=
    Database.groupStored_congr (Database.groups_insertGroupMember inserted)
  constructor
  · rintro ⟨⟨x, there, same, _⟩, _⟩
    rw [tables, after] at there
    rw [← (schema.upsertGroup upserted).id_unique there stored]
    exact same
  · intro same
    refine ⟨⟨(choices 0).uuid, ?_, same, ?_⟩, joined⟩
    · rw [tables, after]
      exact stored
    · rw [tables]
      exact (Database.memberStored_insert inserted).mpr (.inr ⟨rfl, rfl⟩)

end Create

/-- What a `CREATE` of a group whose name is no id does when no statement fails on its own: in
every state that meets the constraints, it leaves the group as it owes exactly when the group is
not stored and can be, or is stored under the very id that was drawn, or has the creator listed
and as a member already. -/
theorem created_iff (n : N) {choices : ℕ → Choice} {s : Cluster N} (state : AppState)
    {identity : Identity} {text : TextFrame} {g : String} (schema : s.db.Schema)
    (create : text.command = some (.create, g)) (notText : parseUuid g = none)
    (ok : ∀ i, (choices i).ok = true) :
    Created n identity g s (finish n (handleTextMessage text identity state) choices s) ↔
      Creatable s.db identity g (choices 0).uuid ∨
        ∃ old, s.db.GroupStored identity.tenantId g old ∧
          ((choices 0).uuid = old ∧ Storable identity.userId ∨
            s.db.MemberStored old identity.userId ∧
              s.member n identity.tenantId g identity.userId = true) := by
  rw [handleTextMessage_create text identity state create]
  -- The upsert decides: refused, it changes nothing.
  cases upserted : s.db.upsertGroup (choices 0).uuid identity.tenantId g identity.userId
      (choices 1).dbTime with
  | none =>
      rw [created_of_refused_iff n choices s schema ok notText upserted]
      constructor
      · rintro ⟨id, stored, listed, joined⟩
        exact .inr ⟨id, stored, .inr ⟨listed, joined⟩⟩
      · rintro (new | ⟨old, stored, ⟨rfl, user⟩ | ⟨listed, joined⟩⟩)
        · have goes := Database.upsertGroup_of_new new.texts new.unknown new.unused
            (choices 1).dbTime
          simp [goes] at upserted
        · simp [schema.upsertGroup_of_same stored user] at upserted
        · exact ⟨old, stored, listed, joined⟩
  | some created =>
      obtain ⟨id, db⟩ := created
      rw [created_of_upserted_iff n choices s schema ok notText upserted]
      obtain ⟨rfl, texts, done⟩ := Database.upsertGroup_cases upserted
      constructor
      · intro same
        rcases done with ⟨unknown, unused, _⟩ | ⟨before, _⟩ | ⟨⟨old, before, _⟩, _⟩
        · exact .inl ⟨unknown, unused, texts⟩
        · exact .inr ⟨_, before, .inl ⟨rfl, texts.2.2⟩⟩
        · exact .inr ⟨old, before, .inl ⟨same old before, texts.2.2⟩⟩
      · rintro (new | ⟨old', stored', ⟨rfl, _⟩ | ⟨listed, _⟩⟩) old before
        · exact absurd before (new.unknown old)
        · exact schema.id_unique stored' before
        · -- A group with a member is not given another id.
          rcases done with ⟨unknown, _⟩ | ⟨same, _⟩ | ⟨⟨old'', there, noMembers⟩, _⟩
          · exact absurd before (unknown old)
          · exact schema.id_unique same before
          · exact absurd (schema.id_unique stored' there ▸ listed) (noMembers _)

/-- The first `CREATE` of a team, and one of a team that exists by a member of it. -/
theorem created_iff_first :
    let state : AppState := ⟨true, fun _ => 0⟩
    let ada : Identity := ⟨"acme", "ada"⟩
    let after (s : Cluster Unit) : Cluster Unit :=
      finish () (handleTextMessage (teamFrame .create) ada state) (fun _ => ⟨7, 9, true, 7⟩) s
    Created () ada "team" (start ⟨[], [], []⟩) (after (start ⟨[], [], []⟩)) ∧
      ∃ s, (machine Unit state).run (start teamDb) aloneJoined = some s ∧
        s.db.GroupStored "acme" "team" 5 ∧ Created () ada "team" s (after s) := by
  intro state ada after
  constructor
  · have new : Creatable (start ⟨[], [], []⟩ : Cluster Unit).db ada "team" 9 := by
      refine ⟨?_, fun row mem => absurd mem List.not_mem_nil, by decide⟩
      rintro old ⟨row, mem, _⟩
      exact absurd mem List.not_mem_nil
    exact (created_iff () state (.empty []) rfl (by decide) fun _ => rfl).mpr (.inl new)
  · obtain ⟨s, ran, groups, members, joined⟩ :
        ∃ s ∈ (machine Unit state).run (start teamDb) aloneJoined, s.db.groups = teamDb.groups ∧
          s.db.groupMembers = [⟨5, "acme", "ada", 7⟩] ∧
          s.member () "acme" "team" "ada" = true := by decide
    have schema : teamDb.Schema :=
      ⟨by decide, by decide, by decide, by decide, by decide, by decide⟩
    have stored : s.db.GroupStored "acme" "team" 5 := by
      refine ⟨⟨5, "acme", "team", "ada", 0⟩, ?_, rfl, rfl, rfl⟩
      rw [groups]
      exact List.mem_singleton_self _
    have listed : s.db.MemberStored 5 "ada" := by
      refine ⟨⟨5, "acme", "ada", 7⟩, ?_, rfl, rfl⟩
      rw [members]
      exact List.mem_singleton_self _
    have schema' : s.db.Schema := @Machine.invariant _ _ _ (fun _ s => s.db.Schema) _ schema
      (fun _ _ _ _ schema next => (stepped next).schema schema) _ _ ran
    refine ⟨s, ran, stored, ?_⟩
    exact (created_iff () state schema' rfl (by decide) fun _ => rfl).mpr
      (.inr ⟨5, stored, .inr ⟨listed, joined⟩⟩)

/-- Ada creates the team, then bob does: his `CREATE` is refused, and he is no member. -/
theorem second_create_refused :
    ¬ ∀ (state : AppState) (es : List (Event Unit)) (s : Cluster Unit) (choices : ℕ → Choice)
      (identity : Identity) (text : TextFrame) (g : String),
      (machine Unit state).run (start ⟨[], [], []⟩) es = some s →
      text.command = some (.create, g) → parseUuid g = none → (∀ i, (choices i).ok = true) →
      Created () identity g s (finish () (handleTextMessage text identity state) choices s) := by
  intro creates
  let state : AppState := ⟨true, fun _ => 0⟩
  let es : List (Event Unit) :=
    [.connect 1 () ⟨"acme", "ada"⟩] ++ performs 1 ++ [.frame 1 (teamFrame .create)] ++ performs 8
  let choices : ℕ → Choice := fun _ => ⟨8, 5, true, 8⟩
  let text : TextFrame := ⟨some ⟨.create, "acme", "team", "bob"⟩, none⟩
  obtain ⟨s, ran, stranger⟩ : ∃ s ∈ (machine Unit state).run (start ⟨[], [], []⟩) es,
      (finish () (handleTextMessage text ⟨"acme", "bob"⟩ state) choices s).member () "acme" "team"
        "bob" = false := by decide
  have created := creates state es s choices ⟨"acme", "bob"⟩ text "team" ran rfl (by decide)
    fun _ => rfl
  have member := created.member
  rw [stranger] at member
  simp at member

end Cluster

end YappaCore
