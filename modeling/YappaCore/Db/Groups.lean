import YappaCore.Db

/-!
The tables `groups` and `group_members` as two relations: which conversation id the group of
a tenant is stored under, and which users are listed in a conversation.

`Schema` is what the constraints of `migrations/003_create_groups.sql` and the text columns
say of the rows. Under it a name has one id and an id one name, each statement is a short
description of the two relations after it, and each statement keeps it.
-/

namespace YappaCore

namespace Database

/-- The group of a tenant is stored under a conversation id. -/
def GroupStored (db : Database) (tenantId name : String) (id : Uuid) : Prop :=
  ∃ row ∈ db.groups, row.tenantId = tenantId ∧ row.name = name ∧ row.conversationId = id

/-- The ids that it is stored under. -/
def idsOf (db : Database) (tenantId name : String) : List Uuid :=
  (db.groups.filter fun row => row.tenantId = tenantId ∧ row.name = name).map (·.conversationId)

/-- A user is listed in a conversation. -/
def MemberStored (db : Database) (id : Uuid) (userId : String) : Prop :=
  ∃ row ∈ db.groupMembers, row.conversationId = id ∧ row.userId = userId

theorem groupStored_congr {db db' : Database} (groups : db'.groups = db.groups) (t g : String)
    (id : Uuid) : db'.GroupStored t g id ↔ db.GroupStored t g id := by
  unfold GroupStored
  rw [groups]

theorem memberStored_congr {db db' : Database} (members : db'.groupMembers = db.groupMembers)
    (id : Uuid) (u : String) : db'.MemberStored id u ↔ db.MemberStored id u := by
  unfold MemberStored
  rw [members]

theorem mem_idsOf {db : Database} {t g : String} {id : Uuid} :
    id ∈ db.idsOf t g ↔ db.GroupStored t g id := by
  unfold idsOf GroupStored
  simp only [List.mem_map, List.mem_filter, decide_eq_true_eq, and_assoc]

theorem GroupStored.exists_row {db : Database} {t g : String} {id : Uuid}
    (stored : db.GroupStored t g id) : ∃ group ∈ db.groups, group.conversationId = id := by
  obtain ⟨row, mem, _, _, same⟩ := stored
  exact ⟨row, mem, same⟩

/-- The constraints of the two tables. -/
structure Schema (db : Database) : Prop where
  /-- `conversation_id UUID PRIMARY KEY`. -/
  groupIds : (db.groups.map (·.conversationId)).Nodup
  /-- `UNIQUE (tenant_id, name)`. -/
  groupNames : (db.groups.map fun row => (row.tenantId, row.name)).Nodup
  /-- `PRIMARY KEY (conversation_id, user_id)`. -/
  memberKeys : (db.groupMembers.map fun row => (row.conversationId, row.userId)).Nodup
  /-- `REFERENCES groups(conversation_id)`. -/
  references : ∀ row ∈ db.groupMembers, ∃ group ∈ db.groups,
    group.conversationId = row.conversationId
  groupTexts : ∀ row ∈ db.groups,
    Storable row.tenantId ∧ Storable row.name ∧ Storable row.createdBy
  memberTexts : ∀ row ∈ db.groupMembers, Storable row.tenantId ∧ Storable row.userId

/-- Empty tables meet them. -/
theorem Schema.empty (messages : List MessageRow) : Schema ⟨messages, [], []⟩ where
  groupIds := List.nodup_nil
  groupNames := List.nodup_nil
  memberKeys := List.nodup_nil
  references := fun _ mem => absurd mem List.not_mem_nil
  groupTexts := fun _ mem => absurd mem List.not_mem_nil
  memberTexts := fun _ mem => absurd mem List.not_mem_nil

/-- The constraints are about two tables. -/
theorem Schema.congr {db db' : Database} (schema : db.Schema) (groups : db'.groups = db.groups)
    (members : db'.groupMembers = db.groupMembers) : db'.Schema where
  groupIds := groups ▸ schema.groupIds
  groupNames := groups ▸ schema.groupNames
  memberKeys := members ▸ schema.memberKeys
  references := groups ▸ members ▸ schema.references
  groupTexts := groups ▸ schema.groupTexts
  memberTexts := members ▸ schema.memberTexts

section Relations

variable {db : Database} (schema : db.Schema) {t g t' g' u : String} {id id' : Uuid}

include schema

theorem Schema.row_of_name {row row' : GroupRow} (mem : row ∈ db.groups) (mem' : row' ∈ db.groups)
    (tenant : row.tenantId = row'.tenantId) (name : row.name = row'.name) : row = row' := by
  refine List.inj_on_of_nodup_map schema.groupNames mem mem' ?_
  rw [tenant, name]

theorem Schema.row_of_id {row row' : GroupRow} (mem : row ∈ db.groups) (mem' : row' ∈ db.groups)
    (same : row.conversationId = row'.conversationId) : row = row' :=
  List.inj_on_of_nodup_map schema.groupIds mem mem' same

/-- A group is stored under one id. -/
theorem Schema.id_unique (first : db.GroupStored t g id) (second : db.GroupStored t g id') :
    id = id' := by
  obtain ⟨row, mem, rfl, rfl, rfl⟩ := first
  obtain ⟨row', mem', tenant, name, rfl⟩ := second
  rw [schema.row_of_name mem mem' tenant.symm name.symm]

/-- An id is that of one group. -/
theorem Schema.name_unique (first : db.GroupStored t g id) (second : db.GroupStored t' g' id) :
    t' = t ∧ g' = g := by
  obtain ⟨row, mem, rfl, rfl, rfl⟩ := first
  obtain ⟨row', mem', rfl, rfl, same⟩ := second
  rw [schema.row_of_id mem' mem same]
  exact ⟨rfl, rfl⟩

theorem Schema.storable_of_group (stored : db.GroupStored t g id) : Storable t ∧ Storable g := by
  obtain ⟨row, mem, rfl, rfl, _⟩ := stored
  exact ⟨(schema.groupTexts row mem).1, (schema.groupTexts row mem).2.1⟩

theorem Schema.storable_of_member (listed : db.MemberStored id u) : Storable u := by
  obtain ⟨row, mem, _, rfl⟩ := listed
  exact (schema.memberTexts row mem).2

/-! ### Lookups -/

/-- A lookup finds the id that the group is stored under. -/
theorem Schema.selectGroup_iff : db.selectGroup t g = some id ↔ db.GroupStored t g id := by
  constructor
  · exact exists_of_selectGroup
  · intro stored
    obtain ⟨tenant, name⟩ := schema.storable_of_group stored
    unfold selectGroup
    rw [if_pos ⟨tenant, name⟩]
    obtain ⟨row, mem, own⟩ := stored
    cases found : db.groups.find? fun row => row.tenantId = t ∧ row.name = g with
    | none =>
        have other := List.find?_eq_none.mp found row mem
        simp [own.1, own.2.1] at other
    | some row' =>
        have own' := List.find?_some found
        simp only [decide_eq_true_eq] at own'
        rw [Option.map_some, schema.row_of_name (List.mem_of_find?_eq_some found) mem
          (own'.1.trans own.1.symm) (own'.2.trans own.2.1.symm), own.2.2]

end Relations

/-! ### Members -/

section Members

variable {db db' : Database} {t u u' : String} {id id' : Uuid} {now : Int}

/-- An insert of a member leaves the tables as they are, or adds a row. -/
theorem insertGroupMember_cases (inserted : db.insertGroupMember id t u now = some db') :
    (Storable t ∧ Storable u) ∧
      (db' = db ∧ db.MemberStored id u ∨
        ¬ db.MemberStored id u ∧ (∃ group ∈ db.groups, group.conversationId = id) ∧
          db' = { db with groupMembers := db.groupMembers ++ [⟨id, t, u, now⟩] }) := by
  unfold insertGroupMember at inserted
  split at inserted
  · simp at inserted
  · rename_i texts
    refine ⟨not_not.mp texts, ?_⟩
    split at inserted
    · rename_i present
      obtain ⟨row, mem, own⟩ := List.any_eq_true.mp present
      exact .inl ⟨(Option.some.inj inserted).symm, row, mem, by simpa using own⟩
    · rename_i absent
      split at inserted
      · rename_i group
        obtain ⟨row, mem, own⟩ := List.any_eq_true.mp group
        refine .inr ⟨?_, ⟨row, mem, by simpa using own⟩, (Option.some.inj inserted).symm⟩
        rintro ⟨row', mem', own'⟩
        exact absent (List.any_eq_true.mpr ⟨row', mem', by simpa using own'⟩)
      · simp at inserted

/-- Another user is listed. -/
theorem memberStored_append (row : GroupMemberRow) (x : Uuid) (v : String) :
    ({ db with groupMembers := db.groupMembers ++ [row] } : Database).MemberStored x v ↔
      db.MemberStored x v ∨ row.conversationId = x ∧ row.userId = v := by
  unfold MemberStored
  simp only [List.mem_append, List.mem_singleton, or_and_right, exists_or, exists_eq_left]

/-- After an insert the user is listed too. -/
theorem memberStored_insert (inserted : db.insertGroupMember id t u now = some db') :
    db'.MemberStored id' u' ↔ db.MemberStored id' u' ∨ id' = id ∧ u' = u := by
  obtain ⟨_, ⟨rfl, listed⟩ | ⟨_, _, rfl⟩⟩ := insertGroupMember_cases inserted
  · constructor
    · exact .inl
    · rintro (before | ⟨rfl, rfl⟩)
      · exact before
      · exact listed
  · rw [memberStored_append]
    exact or_congr_right ⟨fun own => ⟨own.1.symm, own.2.symm⟩, fun own => ⟨own.1.symm, own.2.symm⟩⟩

/-- Texts that can be stored are inserted into the conversation of a group. -/
theorem exists_insertGroupMember (tenant : Storable t) (user : Storable u)
    (group : ∃ group ∈ db.groups, group.conversationId = id) (now : Int) :
    ∃ db', db.insertGroupMember id t u now = some db' := by
  unfold insertGroupMember
  rw [if_neg (not_not.mpr ⟨tenant, user⟩)]
  split
  · exact ⟨db, rfl⟩
  · obtain ⟨row, mem, own⟩ := group
    rw [if_pos (List.any_eq_true.mpr ⟨row, mem, by simpa using own⟩)]
    exact ⟨_, rfl⟩

/-- A user who is not listed in the conversation of a group can be, under texts that can be
stored. -/
theorem Schema.appendMember (schema : db.Schema) {row : GroupMemberRow}
    (unlisted : ¬ db.MemberStored row.conversationId row.userId)
    (group : ∃ group ∈ db.groups, group.conversationId = row.conversationId)
    (texts : Storable row.tenantId ∧ Storable row.userId) :
    ({ db with groupMembers := db.groupMembers ++ [row] } : Database).Schema := by
  refine { schema with memberKeys := ?_, references := ?_, memberTexts := ?_ }
  · rw [List.map_append, List.nodup_append]
    refine ⟨schema.memberKeys, List.nodup_singleton _, ?_⟩
    rintro key mem key' mem' rfl
    obtain ⟨old, there, same⟩ := List.mem_map.mp mem
    obtain rfl := List.mem_singleton.mp mem'
    obtain ⟨own, user⟩ := Prod.mk.inj same
    exact unlisted ⟨old, there, own, user⟩
  · intro other mem
    rcases List.mem_append.mp mem with old | new
    · exact schema.references other old
    · rw [List.mem_singleton.mp new]
      exact group
  · intro other mem
    rcases List.mem_append.mp mem with old | new
    · exact schema.memberTexts other old
    · rw [List.mem_singleton.mp new]
      exact texts

theorem Schema.insertGroupMember (schema : db.Schema)
    (inserted : db.insertGroupMember id t u now = some db') : db'.Schema := by
  obtain ⟨texts, ⟨rfl, _⟩ | ⟨absent, group, rfl⟩⟩ := insertGroupMember_cases inserted
  · exact schema
  · exact schema.appendMember absent group texts

/-- After a delete the user is not listed in that conversation. -/
theorem memberStored_delete (deleted : db.deleteGroupMember id u = some db') :
    db'.MemberStored id' u' ↔ db.MemberStored id' u' ∧ ¬ (id' = id ∧ u' = u) := by
  unfold deleteGroupMember at deleted
  split at deleted
  · rw [← Option.some.inj deleted]
    unfold MemberStored
    simp only [List.mem_filter, decide_eq_true_eq]
    constructor
    · rintro ⟨row, ⟨mem, other⟩, rfl, rfl⟩
      exact ⟨⟨row, mem, rfl, rfl⟩, other⟩
    · rintro ⟨⟨row, mem, rfl, rfl⟩, other⟩
      exact ⟨row, ⟨mem, other⟩, rfl, rfl⟩
  · simp at deleted

/-- Members come and go without a change to the messages. -/
theorem messages_insertGroupMember (inserted : db.insertGroupMember id t u now = some db') :
    db'.messages = db.messages := by
  obtain ⟨_, ⟨rfl, _⟩ | ⟨_, _, rfl⟩⟩ := insertGroupMember_cases inserted
  · rfl
  · rfl

theorem messages_deleteGroupMember (deleted : db.deleteGroupMember id u = some db') :
    db'.messages = db.messages := by
  unfold deleteGroupMember at deleted
  split at deleted
  · rw [← Option.some.inj deleted]
  · simp at deleted

theorem Schema.deleteGroupMember (schema : db.Schema)
    (deleted : db.deleteGroupMember id u = some db') : db'.Schema := by
  unfold Database.deleteGroupMember at deleted
  split at deleted
  · rw [← Option.some.inj deleted]
    have kept : ∀ row ∈ db.groupMembers.filter fun row =>
        ¬ (row.conversationId = id ∧ row.userId = u), row ∈ db.groupMembers :=
      fun row mem => (List.mem_filter.mp mem).1
    exact { schema with
      memberKeys := (List.filter_sublist.map _).nodup schema.memberKeys
      references := fun row mem => schema.references row (kept row mem)
      memberTexts := fun row mem => schema.memberTexts row (kept row mem) }
  · simp at deleted

end Members

/-! ### Groups -/

section Groups

variable {db db' : Database} {t g u : String} {id id' : Uuid} {now : Int}

/-- The row with a new id, if it is that of the group. -/
def renumber (t g : String) (id : Uuid) (row : GroupRow) : GroupRow :=
  if row.tenantId = t ∧ row.name = g then { row with conversationId := id } else row

theorem renumber_eq {row : GroupRow} (tenant : row.tenantId = t) (name : row.name = g) :
    renumber t g id row = { row with conversationId := id } := if_pos ⟨tenant, name⟩

theorem renumber_of_ne {row : GroupRow} (other : ¬ (row.tenantId = t ∧ row.name = g)) :
    renumber t g id row = row := if_neg other

@[simp] theorem tenantId_renumber (row : GroupRow) :
    (renumber t g id row).tenantId = row.tenantId := by
  unfold renumber
  split <;> rfl

@[simp] theorem name_renumber (row : GroupRow) : (renumber t g id row).name = row.name := by
  unfold renumber
  split <;> rfl

@[simp] theorem createdBy_renumber (row : GroupRow) :
    (renumber t g id row).createdBy = row.createdBy := by
  unfold renumber
  split <;> rfl

/-- An upsert adds a group, finds it as it is to be, or gives a group without members a new
id. -/
theorem upsertGroup_cases
    (upserted : db.upsertGroup id t g u now = some (id', db')) :
    id' = id ∧ (Storable t ∧ Storable g ∧ Storable u) ∧
      ((∀ old, ¬ db.GroupStored t g old) ∧ (∀ row ∈ db.groups, row.conversationId ≠ id) ∧
          db' = { db with groups := db.groups ++ [⟨id, t, g, u, now⟩] } ∨
        db.GroupStored t g id ∧ db' = db ∨
        (∃ old, db.GroupStored t g old ∧ ∀ u', ¬ db.MemberStored old u') ∧
          (∀ row ∈ db.groups, row.conversationId ≠ id) ∧
          db' = { db with groups := db.groups.map (renumber t g id) }) := by
  have absent : ∀ {rows : List GroupRow}, ¬ (rows.any fun row => row.conversationId = id) →
      ∀ row ∈ rows, row.conversationId ≠ id := by
    intro rows none row mem same
    exact none (List.any_eq_true.mpr ⟨row, mem, by simpa using same⟩)
  unfold upsertGroup at upserted
  split at upserted
  · simp at upserted
  · rename_i texts
    split at upserted
    · rename_i none
      split at upserted
      · simp at upserted
      · rename_i free
        obtain ⟨rfl, rfl⟩ := Prod.mk.inj (Option.some.inj upserted)
        refine ⟨rfl, not_not.mp texts, .inl ⟨?_, absent free, rfl⟩⟩
        rintro old ⟨row, mem, tenant, name, _⟩
        have other := List.find?_eq_none.mp none row mem
        simp [tenant, name] at other
    · rename_i old found
      have own := List.find?_some found
      simp only [decide_eq_true_eq] at own
      have stored : db.GroupStored t g old.conversationId :=
        ⟨old, List.mem_of_find?_eq_some found, own.1, own.2, rfl⟩
      split at upserted
      · rename_i same
        obtain ⟨rfl, rfl⟩ := Prod.mk.inj (Option.some.inj upserted)
        exact ⟨rfl, not_not.mp texts, .inr (.inl ⟨same ▸ stored, rfl⟩)⟩
      · split at upserted
        · simp at upserted
        · rename_i free
          split at upserted
          · simp at upserted
          · rename_i noMembers
            obtain ⟨rfl, rfl⟩ := Prod.mk.inj (Option.some.inj upserted)
            refine ⟨rfl, not_not.mp texts, .inr (.inr ⟨⟨_, stored, ?_⟩, absent free, rfl⟩)⟩
            rintro u' ⟨row, mem, same, _⟩
            exact noMembers (List.any_eq_true.mpr ⟨row, mem, by simpa using same⟩)

/-- Nor does an upsert of a group change them. -/
theorem messages_upsertGroup (upserted : db.upsertGroup id t g u now = some (id', db')) :
    db'.messages = db.messages := by
  obtain ⟨_, _, ⟨_, _, rfl⟩ | ⟨_, rfl⟩ | ⟨_, _, rfl⟩⟩ := upsertGroup_cases upserted
  · rfl
  · rfl
  · rfl

/-- A group that is not stored is added under an id that is in no row. -/
theorem upsertGroup_of_new (texts : Storable t ∧ Storable g ∧ Storable u)
    (none : ∀ old, ¬ db.GroupStored t g old) (free : ∀ row ∈ db.groups, row.conversationId ≠ id)
    (now : Int) : db.upsertGroup id t g u now =
      some (id, { db with groups := db.groups ++ [⟨id, t, g, u, now⟩] }) := by
  have unknown : (db.groups.find? fun row => row.tenantId = t ∧ row.name = g) = Option.none := by
    rw [List.find?_eq_none]
    intro row mem own
    exact none row.conversationId ⟨row, mem, (of_decide_eq_true own).1, (of_decide_eq_true own).2, rfl⟩
  have unused : ¬ (db.groups.any fun row => row.conversationId = id) := by
    intro used
    obtain ⟨row, mem, same⟩ := List.any_eq_true.mp used
    exact free row mem (of_decide_eq_true same)
  unfold upsertGroup
  rw [if_neg (not_not.mpr texts), unknown]
  simp only [unused, Bool.false_eq_true, if_false]

/-- A group that is stored under the id stays as it is. -/
theorem Schema.upsertGroup_of_same (schema : db.Schema) (stored : db.GroupStored t g id)
    (user : Storable u) (now : Int) : db.upsertGroup id t g u now = some (id, db) := by
  obtain ⟨tenant, name⟩ := schema.storable_of_group stored
  unfold Database.upsertGroup
  rw [if_neg (not_not.mpr ⟨tenant, name, user⟩)]
  obtain ⟨row, mem, own⟩ := stored
  cases found : db.groups.find? fun row => row.tenantId = t ∧ row.name = g with
  | none =>
      have other := List.find?_eq_none.mp found row mem
      simp [own.1, own.2.1] at other
  | some row' =>
      have own' := List.find?_some found
      simp only [decide_eq_true_eq] at own'
      have same := schema.row_of_name (List.mem_of_find?_eq_some found) mem
        (own'.1.trans own.1.symm) (own'.2.trans own.2.1.symm)
      simp only [same, own.2.2, if_true]

/-- An upsert lists nobody. -/
theorem groupMembers_upsert (upserted : db.upsertGroup id t g u now = some (id', db')) :
    db'.groupMembers = db.groupMembers := by
  obtain ⟨_, _, ⟨_, _, rfl⟩ | ⟨_, rfl⟩ | ⟨_, _, rfl⟩⟩ := upsertGroup_cases upserted
  · rfl
  · rfl
  · rfl

/-- Another group is stored. -/
theorem groupStored_append (row : GroupRow) (t' g' : String) (x : Uuid) :
    ({ db with groups := db.groups ++ [row] } : Database).GroupStored t' g' x ↔
      db.GroupStored t' g' x ∨ row.tenantId = t' ∧ row.name = g' ∧ row.conversationId = x := by
  unfold GroupStored
  simp only [List.mem_append, List.mem_singleton, or_and_right, exists_or, exists_eq_left]

/-- The group that is renumbered is stored under the new id, the others as before. -/
theorem groupStored_renumber (t' g' : String) (x : Uuid) :
    ({ db with groups := db.groups.map (renumber t g id) } : Database).GroupStored t' g' x ↔
      if t' = t ∧ g' = g then (∃ old, db.GroupStored t g old) ∧ id = x
      else db.GroupStored t' g' x := by
  unfold GroupStored
  simp only [List.mem_map, exists_exists_and_eq_and, tenantId_renumber, name_renumber]
  split
  · rename_i own
    obtain ⟨rfl, rfl⟩ := own
    constructor
    · rintro ⟨row, mem, tenant, name, same⟩
      rw [renumber_eq tenant name] at same
      exact ⟨⟨_, row, mem, tenant, name, rfl⟩, same⟩
    · rintro ⟨⟨_, row, mem, tenant, name, _⟩, rfl⟩
      exact ⟨row, mem, tenant, name, by rw [renumber_eq tenant name]⟩
  · rename_i other
    refine exists_congr fun row => and_congr_right fun _ => ?_
    refine and_congr_right fun tenant => and_congr_right fun name => ?_
    rw [renumber_of_ne (tenant ▸ name ▸ other)]

/-- A group with a new id, a new name and texts that can be stored can be added. -/
theorem Schema.append (schema : db.Schema) {row : GroupRow}
    (newId : ∀ old ∈ db.groups, old.conversationId ≠ row.conversationId)
    (newName : ∀ old, ¬ db.GroupStored row.tenantId row.name old)
    (texts : Storable row.tenantId ∧ Storable row.name ∧ Storable row.createdBy) :
    ({ db with groups := db.groups ++ [row] } : Database).Schema := by
  refine { schema with groupIds := ?_, groupNames := ?_, references := ?_, groupTexts := ?_ }
  · rw [List.map_append, List.nodup_append]
    refine ⟨schema.groupIds, List.nodup_singleton _, ?_⟩
    rintro key mem key' mem' rfl
    obtain ⟨old, there, same⟩ := List.mem_map.mp mem
    obtain rfl := List.mem_singleton.mp mem'
    exact newId old there same
  · rw [List.map_append, List.nodup_append]
    refine ⟨schema.groupNames, List.nodup_singleton _, ?_⟩
    rintro key mem key' mem' rfl
    obtain ⟨old, there, same⟩ := List.mem_map.mp mem
    obtain rfl := List.mem_singleton.mp mem'
    obtain ⟨tenant, name⟩ := Prod.mk.inj same
    exact newName old.conversationId ⟨old, there, tenant, name, rfl⟩
  · intro member mem
    obtain ⟨group, there, same⟩ := schema.references member mem
    exact ⟨group, List.mem_append_left _ there, same⟩
  · intro group mem
    rcases List.mem_append.mp mem with old | new
    · exact schema.groupTexts group old
    · rw [List.mem_singleton.mp new]
      exact texts

/-- A group without members can get a new id. -/
theorem Schema.renumber (schema : db.Schema)
    (newId : ∀ old ∈ db.groups, old.conversationId ≠ id)
    (noMembers : ∀ old, db.GroupStored t g old → ∀ u', ¬ db.MemberStored old u') :
    ({ db with groups := db.groups.map (renumber t g id) } : Database).Schema := by
  have names : (db.groups.map (Database.renumber t g id)).map (fun row => (row.tenantId, row.name)) =
      db.groups.map fun row => (row.tenantId, row.name) := by
    rw [List.map_map]
    refine List.map_congr_left fun row _ => ?_
    simp only [Function.comp_apply, tenantId_renumber, name_renumber]
  refine { schema with groupIds := ?_, groupNames := ?_, references := ?_, groupTexts := ?_ }
  · rw [List.map_map]
    refine List.Nodup.map_on ?_ (List.Nodup.of_map _ schema.groupIds)
    intro row mem row' mem' same
    simp only [Function.comp_apply, Database.renumber] at same
    split at same
    · rename_i own
      split at same
      · rename_i own'
        exact schema.row_of_name mem mem' (own.1.trans own'.1.symm) (own.2.trans own'.2.symm)
      · exact absurd same.symm (newId row' mem')
    · split at same
      · exact absurd same (newId row mem)
      · exact schema.row_of_id mem mem' same
  · change ((db.groups.map _).map fun row : GroupRow => (row.tenantId, row.name)).Nodup
    rw [names]
    exact schema.groupNames
  · intro member mem
    obtain ⟨group, there, same⟩ := schema.references member mem
    refine ⟨group, List.mem_map.mpr ⟨group, there, renumber_of_ne ?_⟩, same⟩
    rintro ⟨tenant, name⟩
    exact noMembers group.conversationId ⟨group, there, tenant, name, rfl⟩ member.userId
      ⟨member, mem, same.symm, rfl⟩
  · intro row mem
    obtain ⟨old, there, rfl⟩ := List.mem_map.mp mem
    simp only [tenantId_renumber, name_renumber, createdBy_renumber]
    exact schema.groupTexts old there

section Upsert

variable (schema : db.Schema) (upserted : db.upsertGroup id t g u now = some (id', db'))

include schema upserted

/-- After an upsert the group is stored under the new id, and the others as before. -/
theorem Schema.groupStored_upsert (t' g' : String) (x : Uuid) : db'.GroupStored t' g' x ↔
    if t' = t ∧ g' = g then x = id else db.GroupStored t' g' x := by
  obtain ⟨_, _, ⟨none, _, rfl⟩ | ⟨stored, rfl⟩ | ⟨⟨old, stored, _⟩, _, rfl⟩⟩ :=
    upsertGroup_cases upserted
  · rw [groupStored_append]
    split
    · rename_i own
      obtain ⟨rfl, rfl⟩ := own
      simp [none x, eq_comm]
    · rename_i other
      refine or_iff_left fun own => other ⟨own.1.symm, own.2.1.symm⟩
  · split
    · rename_i own
      obtain ⟨rfl, rfl⟩ := own
      exact ⟨fun there => schema.id_unique there stored, fun same => same ▸ stored⟩
    · exact Iff.rfl
  · rw [groupStored_renumber]
    split
    · exact ⟨fun both => both.2.symm, fun same => ⟨⟨old, stored⟩, same.symm⟩⟩
    · exact Iff.rfl

theorem Schema.upsertGroup : db'.Schema := by
  obtain ⟨_, texts, ⟨none, free, rfl⟩ | ⟨_, rfl⟩ | ⟨⟨old, stored, noMembers⟩, free, rfl⟩⟩ :=
    upsertGroup_cases upserted
  · exact schema.append free none texts
  · exact schema
  · refine schema.renumber free fun old' stored' => ?_
    rw [schema.id_unique stored' stored]
    exact noMembers

/-- A group that an upsert gives a new id has no members. -/
theorem Schema.memberStored_upsert (new : ¬ db.GroupStored t g id) (u' : String) :
    ¬ db.MemberStored id u' := by
  rintro ⟨row, mem, rfl, _⟩
  obtain ⟨group, there, same⟩ := schema.references row mem
  obtain ⟨_, _, ⟨_, free, _⟩ | ⟨stored, _⟩ | ⟨_, free, _⟩⟩ := upsertGroup_cases upserted
  · exact free group there same
  · exact new stored
  · exact free group there same

end Upsert

end Groups

end Database

end YappaCore
