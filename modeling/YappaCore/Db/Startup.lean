import YappaCore.Db.Migrations

/-!
When a server comes up. `app::run` ends with a panic when a statement of
`migrations/003_create_groups.sql` fails, so a table of messages on which one does keeps every
server down.

`starts_iff` says which tables a start goes through, in whatever order Postgres takes the groups.
`upgrade` is about tables of an older server, whose `groups` may have several rows of one name:
what the block of the script that adds the constraint leaves of them, and what the start makes of
that.
-/

namespace YappaCore

namespace Earliest

variable {α κ : Type} {key : α → κ} {time : α → Int} {rows firsts firsts' : List α}

/-- The groups may come in any order. -/
theorem perm (earliest : Earliest key time rows firsts) (same : firsts.Perm firsts') :
    Earliest key time rows firsts' where
  sub := fun row mem => earliest.sub row (same.mem_iff.mpr mem)
  distinct := (same.map key).nodup_iff.mp earliest.distinct
  least := by
    intro row mem
    obtain ⟨first, there, own⟩ := earliest.least row mem
    exact ⟨first, same.mem_iff.mp there, own⟩

/-- A row's group can come first. -/
theorem exists_cons [DecidableEq α] [DecidableEq κ] (key : α → κ) (time : α → Int) {rows : List α}
    {row : α} (mem : row ∈ rows) :
    ∃ first rest, key first = key row ∧ Earliest key time rows (first :: rest) := by
  obtain ⟨firsts, earliest⟩ := exists_firsts key time rows
  obtain ⟨first, there, same, _⟩ := earliest.least row mem
  exact ⟨first, firsts.erase first, same, earliest.perm (List.perm_cons_erase there)⟩

/-- Two rows' groups can come first. -/
theorem exists_cons_cons [DecidableEq α] [DecidableEq κ] (key : α → κ) (time : α → Int)
    {rows : List α} {row row' : α} (mem : row ∈ rows) (mem' : row' ∈ rows)
    (other : key row' ≠ key row) :
    ∃ first first' rest, key first = key row ∧ key first' = key row' ∧
      Earliest key time rows (first :: first' :: rest) := by
  obtain ⟨first, rest, same, earliest⟩ := exists_cons key time mem
  obtain ⟨first', there, same', _⟩ := earliest.least row' mem'
  rcases List.mem_cons.mp there with rfl | later
  · exact absurd (same'.symm.trans same) other
  · exact ⟨first, first', rest.erase first', same, same',
      earliest.perm ((List.perm_cons_erase later).cons first)⟩

end Earliest

namespace Database

/-! ### Tables a start goes through -/

/-- A start goes through, whatever first messages Postgres takes and in whatever order. -/
def Starts (db : Database) : Prop :=
  ∀ groups, Earliest (fun message => (message.conversationId, message.tenantId, message.channelId))
      MessageRow.createdAt db.unknownGroups groups →
    ∃ filled, db.backfillGroups groups = some filled ∧
      ∀ members, Earliest (fun message => (message.conversationId, message.tenantId,
          message.senderId)) MessageRow.createdAt filled.unlistedSenders members →
        ∃ db', filled.backfillMembers members = some db'

/-- A group message is in a conversation that a start lists its sender in: that of a stored group,
or that of a message whose group is not stored. -/
def Settles (db : Database) (message : MessageRow) : Prop :=
  (∃ group ∈ db.groups, group.conversationId = message.conversationId) ∨
    ∃ other ∈ db.unknownGroups, other.conversationId = message.conversationId

/-- Conversations are kept apart: the messages of a group that is not stored are in no
conversation of a stored group, nor of another group that is not stored; and nobody who is not
listed in a conversation shares it with a user of the same name and another tenant. -/
structure Startable (db : Database) : Prop where
  free : ∀ message ∈ db.unknownGroups, ∀ group ∈ db.groups,
    group.conversationId ≠ message.conversationId
  apart : ∀ message ∈ db.unknownGroups, ∀ other ∈ db.unknownGroups,
    message.conversationId = other.conversationId →
      message.tenantId = other.tenantId ∧ message.channelId = other.channelId
  oneTenant : ∀ message ∈ db.messages, ∀ other ∈ db.messages,
    isGroupType message.channelType = true → isGroupType other.channelType = true →
      message.conversationId = other.conversationId → message.senderId = other.senderId →
        db.Settles message → ¬ db.MemberStored message.conversationId message.senderId →
          message.tenantId = other.tenantId

section Groups

variable {db cur filled : Database} {firsts : List MessageRow}

/-- Where the conversations are kept apart, no insert meets the id of another group. -/
theorem Startable.exists_foldlM (startable : db.Startable)
    (known : ∀ row ∈ cur.groups, row ∈ db.groups ∨ ∃ message ∈ db.unknownGroups,
      row = message.groupRow)
    (sub : ∀ first ∈ firsts, first ∈ db.unknownGroups) :
    ∃ filled, firsts.foldlM backfillGroup cur = some filled := by
  induction firsts generalizing cur with
  | nil => exact ⟨cur, rfl⟩
  | cons first rest ih =>
      rw [List.forall_mem_cons] at sub
      obtain ⟨here, later⟩ := sub
      rw [List.foldlM_cons]
      unfold backfillGroup
      split
      · exact ih known later
      · rename_i new
        rw [if_neg, Option.bind_eq_bind, Option.bind_some]
        · refine ih (fun row mem => ?_) later
          rcases List.mem_append.mp mem with old | added
          · exact known row old
          · exact .inr ⟨first, here, List.mem_singleton.mp added⟩
        · intro taken
          obtain ⟨row, mem, same⟩ := List.any_eq_true.mp taken
          have same : row.conversationId = first.conversationId := of_decide_eq_true same
          rcases known row mem with old | ⟨message, there, rfl⟩
          · exact startable.free first here row old same
          · have own := startable.apart message there first here same
            exact new (List.any_eq_true.mpr ⟨_, mem, decide_eq_true own⟩)

/-- The ids of the groups after the first statement are those of stored groups and of the messages
that were taken. -/
theorem conversations_filled
    (folded : firsts.foldlM backfillGroup db = some filled) :
    ∀ row ∈ filled.groups, row ∈ db.groups ∨ ∃ first ∈ firsts, row = first.groupRow := by
  induction firsts generalizing db with
  | nil =>
      cases folded
      exact fun row mem => .inl mem
  | cons first rest ih =>
      rw [List.foldlM_cons] at folded
      obtain ⟨next, now, later⟩ := Option.bind_eq_some_iff.mp folded
      intro row mem
      rcases ih later row mem with before | ⟨other, there, rfl⟩
      · rcases backfillGroup_cases now with ⟨_, rfl⟩ | ⟨_, _, rfl⟩
        · exact .inl before
        · rcases List.mem_append.mp before with old | added
          · exact .inl old
          · exact .inr ⟨first, List.mem_cons_self, List.mem_singleton.mp added⟩
      · exact .inr ⟨other, List.mem_cons_of_mem _ there, rfl⟩

/-- Rows stay. -/
theorem groups_filled (folded : firsts.foldlM backfillGroup db = some filled) :
    ∀ row ∈ db.groups, row ∈ filled.groups := by
  induction firsts generalizing db with
  | nil =>
      cases folded
      exact fun _ mem => mem
  | cons first rest ih =>
      rw [List.foldlM_cons] at folded
      obtain ⟨next, now, later⟩ := Option.bind_eq_some_iff.mp folded
      intro row mem
      rcases backfillGroup_cases now with ⟨_, rfl⟩ | ⟨_, _, rfl⟩
      · exact ih later row mem
      · exact ih later row (List.mem_append_left _ mem)

/-- A group that is not stored gets the id of the first of its messages that is taken. -/
theorem groupRow_mem_filled {first : MessageRow} {rest : List MessageRow}
    (unknown : first ∈ db.unknownGroups)
    (folded : (first :: rest).foldlM backfillGroup db = some filled) :
    first.groupRow ∈ filled.groups := by
  rw [List.foldlM_cons] at folded
  obtain ⟨next, now, later⟩ := Option.bind_eq_some_iff.mp folded
  rcases backfillGroup_cases now with ⟨⟨id, stored⟩, _⟩ | ⟨_, _, rfl⟩
  · exact absurd stored ((mem_unknownGroups.mp unknown).2.2 id)
  · exact groups_filled later _ (List.mem_append_right _ List.mem_cons_self)

end Groups

section Starts

variable {db : Database}

theorem Startable.starts (startable : db.Startable) : db.Starts := by
  intro groups earliest
  obtain ⟨filled, folded⟩ :=
    startable.exists_foldlM (fun row mem => .inl mem) earliest.sub
  have after := filled_foldlM folded
  refine ⟨filled, backfillGroups_eq_some.mpr ⟨earliest, folded⟩, fun members firsts => ?_⟩
  refine ⟨_, backfillMembers_eq_some.mpr ⟨firsts, nodup_of_oneTenant firsts ?_, rfl⟩⟩
  intro message mem other mem' conversation sender
  obtain ⟨there, group, ⟨row, stored, same⟩, unlisted⟩ := mem_unlistedSenders.mp mem
  obtain ⟨there', group', _, _⟩ := mem_unlistedSenders.mp mem'
  rw [after.messages] at there there'
  rw [memberStored_congr after.groupMembers] at unlisted
  refine startable.oneTenant message there other there' group group' conversation sender ?_ unlisted
  rcases conversations_filled folded row stored with old | ⟨first, taken, rfl⟩
  · exact .inl ⟨row, old, same⟩
  · exact .inr ⟨first, earliest.sub first taken, same⟩

/-- Where a start may take a group first, it takes the message's id for it. -/
theorem Starts.exists_filled (starts : db.Starts) {message : MessageRow}
    (settles : db.Settles message) :
    ∃ filled groups, Filled db groups filled ∧
      (∃ row ∈ filled.groups, row.conversationId = message.conversationId) ∧
      ∀ members, Earliest (fun message => (message.conversationId, message.tenantId,
          message.senderId)) MessageRow.createdAt filled.unlistedSenders members →
        ∃ db', filled.backfillMembers members = some db' := by
  rcases settles with ⟨row, mem, same⟩ | ⟨other, unknown, same⟩
  · obtain ⟨groups, earliest⟩ := Earliest.exists_firsts (fun message : MessageRow =>
      (message.conversationId, message.tenantId, message.channelId)) MessageRow.createdAt
      db.unknownGroups
    obtain ⟨filled, first, second⟩ := starts groups earliest
    obtain ⟨_, folded⟩ := backfillGroups_eq_some.mp first
    exact ⟨filled, groups, filled_foldlM folded, ⟨row, groups_filled folded row mem, same⟩, second⟩
  · obtain ⟨first, rest, own, earliest⟩ := Earliest.exists_cons (fun message : MessageRow =>
      (message.conversationId, message.tenantId, message.channelId)) MessageRow.createdAt unknown
    obtain ⟨filled, went, second⟩ := starts (first :: rest) earliest
    obtain ⟨_, folded⟩ := backfillGroups_eq_some.mp went
    have taken := groupRow_mem_filled (earliest.sub first List.mem_cons_self) folded
    obtain ⟨conversation, _⟩ := Prod.mk.inj own
    exact ⟨filled, first :: rest, filled_foldlM folded,
      ⟨first.groupRow, taken, conversation.trans same⟩, second⟩

/-- A message whose group is not stored may come first. -/
theorem Starts.free (starts : db.Starts) {message : MessageRow}
    (unknown : message ∈ db.unknownGroups)
    {group : GroupRow} (stored : group ∈ db.groups) :
    group.conversationId ≠ message.conversationId := by
  intro same
  obtain ⟨first, rest, own, earliest⟩ := Earliest.exists_cons (fun message : MessageRow =>
    (message.conversationId, message.tenantId, message.channelId)) MessageRow.createdAt unknown
  obtain ⟨filled, went, _⟩ := starts (first :: rest) earliest
  obtain ⟨_, folded⟩ := backfillGroups_eq_some.mp went
  rw [List.foldlM_cons] at folded
  obtain ⟨next, now, _⟩ := Option.bind_eq_some_iff.mp folded
  obtain ⟨conversation, _⟩ := Prod.mk.inj own
  rcases backfillGroup_cases now with ⟨⟨id, known⟩, _⟩ | ⟨_, free, _⟩
  · exact (mem_unknownGroups.mp (earliest.sub first List.mem_cons_self)).2.2 id known
  · exact free group stored (same.trans conversation.symm)

/-- A start goes through in every order exactly where conversations are kept apart. -/
theorem starts_iff : db.Starts ↔ db.Startable := by
  refine ⟨fun starts => ⟨fun _ unknown _ stored => starts.free unknown stored, ?_, ?_⟩,
    Startable.starts⟩
  · intro message unknown other unknown' same
    by_contra differ
    obtain ⟨first, first', rest, own, own', earliest⟩ := Earliest.exists_cons_cons
      (fun message : MessageRow => (message.conversationId, message.tenantId, message.channelId))
      MessageRow.createdAt unknown unknown' (fun keys => differ (by
        obtain ⟨_, names⟩ := Prod.mk.inj keys
        obtain ⟨tenant, channel⟩ := Prod.mk.inj names
        exact ⟨tenant.symm, channel.symm⟩))
    obtain ⟨filled, went, _⟩ := starts _ earliest
    obtain ⟨_, folded⟩ := backfillGroups_eq_some.mp went
    rw [List.foldlM_cons] at folded
    obtain ⟨next, now, folded⟩ := Option.bind_eq_some_iff.mp folded
    rw [List.foldlM_cons] at folded
    obtain ⟨_, second, _⟩ := Option.bind_eq_some_iff.mp folded
    obtain ⟨_, _, new⟩ := mem_unknownGroups.mp (earliest.sub first List.mem_cons_self)
    obtain ⟨_, _, new'⟩ := mem_unknownGroups.mp
      (earliest.sub first' (List.mem_cons_of_mem _ List.mem_cons_self))
    simp only [Prod.mk.injEq] at own own'
    -- The first group takes the id, and the second one is not stored yet.
    rcases backfillGroup_cases now with ⟨⟨id, known⟩, _⟩ | ⟨_, _, rfl⟩
    · exact new id known
    · rcases backfillGroup_cases second with ⟨⟨id, known⟩, _⟩ | ⟨_, free, _⟩
      · rcases (groupStored_append first.groupRow _ _ _).mp known with old | ⟨tenant, channel, _⟩
        · exact new' id old
        · refine differ ⟨own.2.1.symm.trans (tenant.trans own'.2.1), ?_⟩
          exact own.2.2.symm.trans (channel.trans own'.2.2)
      · refine free first.groupRow (List.mem_append_right _ List.mem_cons_self) ?_
        exact own.1.trans (same.trans own'.1.symm)
  · intro message mem other mem' group group' conversation sender settles unlisted
    obtain ⟨filled, groups, after, known, second⟩ := starts.exists_filled settles
    obtain ⟨members, firsts⟩ := Earliest.exists_firsts (fun message : MessageRow =>
      (message.conversationId, message.tenantId, message.senderId)) MessageRow.createdAt
      filled.unlistedSenders
    obtain ⟨db', listed⟩ := second members firsts
    have unlisted' : ¬ filled.MemberStored message.conversationId message.senderId := by
      rwa [memberStored_congr after.groupMembers]
    refine exists_backfillMembers_iff.mp ⟨members, db', listed⟩ message
      (mem_unlistedSenders.mpr ⟨after.messages ▸ mem, group, known, unlisted'⟩) other
      (mem_unlistedSenders.mpr ⟨after.messages ▸ mem', group', ?_, ?_⟩) conversation sender
    · rwa [← conversation]
    · rwa [← conversation, ← sender]

end Starts

end Database

/-! ### One row a name -/

/-- The rows that stay when all are deleted but the one with the least position of each key. -/
def firstOfKey {α κ : Type} [DecidableEq κ] (key : α → κ) (rows : List α) : List α :=
  (rows.zipIdx.filter fun row => rows.zipIdx.all fun other =>
    key other.1 = key row.1 → row.2 ≤ other.2).map Prod.fst

section FirstOfKey

variable {α κ : Type} [DecidableEq κ] {key : α → κ} {rows : List α}

theorem firstOfKey_sublist : (firstOfKey key rows).Sublist rows := by
  have kept := (List.filter_sublist (p := fun row : α × ℕ => rows.zipIdx.all fun other =>
    key other.1 = key row.1 → row.2 ≤ other.2) (l := rows.zipIdx)).map Prod.fst
  rwa [List.zipIdx_map_fst] at kept

/-- A row stays if no row before it has its key. -/
theorem mem_firstOfKey {row : α} : row ∈ firstOfKey key rows ↔
    ∃ i, rows[i]? = some row ∧
      ∀ (j : ℕ) other, rows[j]? = some other → key other = key row → i ≤ j := by
  unfold firstOfKey
  simp only [List.mem_map, List.mem_filter, List.mem_zipIdx_iff_getElem?, List.all_eq_true,
    decide_eq_true_eq, Prod.exists, Prod.forall]
  constructor
  · rintro ⟨row, i, ⟨here, least⟩, rfl⟩
    exact ⟨i, here, fun j other there same => least other j there same⟩
  · rintro ⟨i, here, least⟩
    exact ⟨row, i, ⟨here, fun other j there same => least j other there same⟩, rfl⟩

theorem mem_firstOfKey_iff_find? {row : α} : row ∈ firstOfKey key rows ↔
    rows.find? (fun other => key other = key row) = some row := by
  rw [mem_firstOfKey, List.find?_eq_some_iff_getElem]
  simp only [decide_true, true_and, Bool.not_eq_true', decide_eq_false_iff_not]
  constructor
  · rintro ⟨i, here, least⟩
    obtain ⟨within, same⟩ := List.getElem?_eq_some_iff.mp here
    refine ⟨i, within, same, fun j before own => ?_⟩
    have later := least j _ (List.getElem?_eq_getElem (before.trans within)) own
    omega
  · rintro ⟨i, within, same, first⟩
    refine ⟨i, List.getElem?_eq_some_iff.mpr ⟨within, same⟩, fun j other there own => ?_⟩
    by_contra before
    obtain ⟨_, rfl⟩ := List.getElem?_eq_some_iff.mp there
    exact first j (by omega) own

/-- No two rows that stay have one key. -/
theorem nodup_firstOfKey : ((firstOfKey key rows).map key).Nodup := by
  have positions : (rows.zipIdx.map Prod.snd).Nodup := by
    rw [List.zipIdx_map_snd]
    exact List.nodup_range'
  unfold firstOfKey
  rw [List.map_map]
  refine List.Nodup.map_on ?_ (positions.of_map.filter _)
  rintro ⟨row, i⟩ mem ⟨other, j⟩ mem' same
  simp only [List.mem_filter, List.mem_zipIdx_iff_getElem?, List.all_eq_true, decide_eq_true_eq,
    Prod.forall, Function.comp_apply] at mem mem' same
  have le := mem.2 other j mem'.1 same.symm
  have ge := mem'.2 row i mem.1 same
  obtain rfl : i = j := by omega
  rw [mem.1] at mem'
  rw [Option.some.inj mem'.1]

theorem firstOfKey_of_nodup (distinct : (rows.map key).Nodup) : firstOfKey key rows = rows := by
  unfold firstOfKey
  rw [List.filter_eq_self.mpr, List.zipIdx_map_fst]
  simp only [List.mem_zipIdx_iff_getElem?, List.all_eq_true, decide_eq_true_eq, Prod.forall]
  intro row i here other j there same
  have within : i < (rows.map key).length := by
    rw [List.length_map]
    exact (List.getElem?_eq_some_iff.mp here).1
  have one : i = j := by
    rw [← List.getElem?_inj within distinct, List.getElem?_map, List.getElem?_map, here, there,
      Option.map_some, Option.map_some, same]
  exact one.le

end FirstOfKey

/-! ### The script on tables of an older server -/

/-- The name of a group in its tenant. -/
def GroupRow.fullName (row : GroupRow) : String × String := (row.tenantId, row.name)

namespace Database

/-- The block that adds `UNIQUE (tenant_id, name)`, the rows of `groups` being in the order of their
`ctid`: it is skipped where the constraint is there, and an error where two rows of one name are
left. A group that is deleted takes its members with it. -/
def constrain (db : Database) (constrained : Bool) : Option Database :=
  if constrained then some db
  else
    let groups := firstOfKey GroupRow.fullName db.groups
    let deleted := db.groups.filter fun row => row ∉ groups
    let groupMembers := db.groupMembers.filter fun row =>
      ¬ deleted.any fun group => group.conversationId = row.conversationId
    if (groups.map GroupRow.fullName).Nodup then some { db with groups, groupMembers } else none

/-- The whole script. -/
def startup (db : Database) (constrained : Bool) (groups members : List MessageRow) :
    Option Database :=
  (db.constrain constrained).bind fun db => db.migrate groups members

/-- The constraints of the tables before the block, where names may repeat. -/
structure OldSchema (db : Database) : Prop where
  groupIds : (db.groups.map (·.conversationId)).Nodup
  memberKeys : (db.groupMembers.map fun row => (row.conversationId, row.userId)).Nodup
  references : ∀ row ∈ db.groupMembers, ∃ group ∈ db.groups,
    group.conversationId = row.conversationId
  groupTexts : ∀ row ∈ db.groups,
    Storable row.tenantId ∧ Storable row.name ∧ Storable row.createdBy
  memberTexts : ∀ row ∈ db.groupMembers, Storable row.tenantId ∧ Storable row.userId

/-- The row of a name that the block keeps. -/
def keptRow (db : Database) (t g : String) : Option GroupRow :=
  db.groups.find? fun row => row.fullName = (t, g)

section Upgrade

variable {db db' : Database} {groups members : List MessageRow}

/-- The block never fails: one row of each name is left. -/
theorem constrain_eq_some : db.constrain false = some db' ↔
    { db with
      groups := firstOfKey GroupRow.fullName db.groups
      groupMembers := db.groupMembers.filter fun row =>
        ¬ (db.groups.filter fun row => row ∉ firstOfKey GroupRow.fullName db.groups).any
          fun group => group.conversationId = row.conversationId } = db' := by
  unfold constrain
  rw [if_neg Bool.false_ne_true]
  simp only [nodup_firstOfKey, if_true, Option.some.injEq]

theorem mem_groups_constrain (fixed : db.constrain false = some db') {row : GroupRow} :
    row ∈ db'.groups ↔ db.keptRow row.tenantId row.name = some row := by
  obtain rfl := constrain_eq_some.mp fixed
  exact mem_firstOfKey_iff_find?

/-- The members that stay are those of the groups that stay. -/
theorem mem_groupMembers_constrain (schema : db.OldSchema) (fixed : db.constrain false = some db')
    {row : GroupMemberRow} : row ∈ db'.groupMembers ↔
      row ∈ db.groupMembers ∧ ∃ group ∈ db'.groups, group.conversationId = row.conversationId := by
  obtain rfl := constrain_eq_some.mp fixed
  simp only [List.mem_filter, List.any_eq_true, decide_eq_true_eq, not_exists, not_and]
  refine and_congr_right fun mem => ⟨fun stays => ?_, fun ⟨group, kept, own⟩ => ?_⟩
  · obtain ⟨group, there, own⟩ := schema.references row mem
    by_contra gone
    exact stays group ⟨there, fun kept => gone ⟨group, kept, own⟩⟩ own
  · rintro other ⟨there, deleted⟩ same
    have one : other = group := List.inj_on_of_nodup_map schema.groupIds there
      (firstOfKey_sublist.subset kept) (same.trans own.symm)
    exact deleted (one ▸ kept)

/-- After the block the tables meet the constraints of the script. -/
theorem OldSchema.constrain (schema : db.OldSchema) (fixed : db.constrain false = some db') :
    db'.Schema := by
  have members : ∀ row ∈ db'.groupMembers, row ∈ db.groupMembers ∧ ∃ group ∈ db'.groups,
      group.conversationId = row.conversationId :=
    fun _ mem => (mem_groupMembers_constrain schema fixed).mp mem
  obtain rfl := constrain_eq_some.mp fixed
  have within := @firstOfKey_sublist _ _ _ GroupRow.fullName db.groups
  exact {
    groupIds := schema.groupIds.sublist (within.map _)
    groupNames := nodup_firstOfKey
    memberKeys := schema.memberKeys.sublist (List.filter_sublist.map _)
    references := fun row mem => (members row mem).2
    groupTexts := fun row mem => schema.groupTexts row (within.subset mem)
    memberTexts := fun row mem => schema.memberTexts row (members row mem).1 }

/-- Which id a name is stored under after the block. -/
theorem groupStored_constrain (fixed : db.constrain false = some db') (t g : String) (id : Uuid) :
    db'.GroupStored t g id ↔ (db.keptRow t g).map (·.conversationId) = some id := by
  constructor
  · rintro ⟨row, mem, rfl, rfl, rfl⟩
    rw [(mem_groups_constrain fixed).mp mem]
    rfl
  · intro kept
    obtain ⟨row, found, rfl⟩ := Option.map_eq_some_iff.mp kept
    have name : row.fullName = (t, g) := by simpa using List.find?_some found
    obtain ⟨rfl, rfl⟩ := Prod.mk.inj name
    exact ⟨row, (mem_groups_constrain fixed).mpr found, rfl, rfl, rfl⟩

/-- A name that has a row keeps one. -/
theorem keptRow_isSome {t g : String} {id : Uuid} (stored : db.GroupStored t g id) :
    ∃ row, db.keptRow t g = some row := by
  obtain ⟨row, mem, rfl, rfl, _⟩ := stored
  exact Option.isSome_iff_exists.mp (List.find?_isSome.mpr ⟨row, mem, decide_eq_true rfl⟩)

theorem messages_constrain (fixed : db.constrain false = some db') :
    db'.messages = db.messages := by
  obtain rfl := constrain_eq_some.mp fixed
  rfl

theorem groups_constrain_subset (fixed : db.constrain false = some db') :
    db'.groups ⊆ db.groups := by
  obtain rfl := constrain_eq_some.mp fixed
  exact firstOfKey_sublist.subset

/-- A name that is stored is so after the block. -/
theorem exists_groupStored_constrain (fixed : db.constrain false = some db') {t g : String}
    {id : Uuid} (stored : db.GroupStored t g id) : ∃ id, db'.GroupStored t g id := by
  obtain ⟨row, first⟩ := keptRow_isSome stored
  exact ⟨row.conversationId, (groupStored_constrain fixed t g _).mpr (by rw [first]; rfl)⟩

/-- A group that stays has the members that it had. -/
theorem memberStored_constrain (schema : db.OldSchema) (fixed : db.constrain false = some db')
    {row : GroupRow} (stays : row ∈ db'.groups) (u : String) :
    db'.MemberStored row.conversationId u ↔ db.MemberStored row.conversationId u := by
  constructor
  · rintro ⟨member, listed, own⟩
    exact ⟨member, ((mem_groupMembers_constrain schema fixed).mp listed).1, own⟩
  · rintro ⟨member, listed, own⟩
    refine ⟨member, (mem_groupMembers_constrain schema fixed).mpr ⟨listed, row, stays, ?_⟩, own⟩
    exact own.1.symm

/-- A group that is deleted has no members left. -/
theorem not_memberStored_constrain (schema : db.OldSchema)
    (fixed : db.constrain false = some db') {row : GroupRow} (mem : row ∈ db.groups)
    (deleted : db.keptRow row.tenantId row.name ≠ some row) (u : String) :
    ¬ db'.MemberStored row.conversationId u := by
  rintro ⟨member, listed, own, _⟩
  obtain ⟨_, group, there, same⟩ := (mem_groupMembers_constrain schema fixed).mp listed
  have one : group = row := List.inj_on_of_nodup_map schema.groupIds
    (groups_constrain_subset fixed there) mem (same.trans own)
  exact deleted ((mem_groups_constrain fixed).mp (one ▸ there))

/-- What a start makes of the tables of an older server. -/
structure Upgraded (db db' : Database) : Prop where
  schema : db'.Schema
  messages : db'.messages = db.messages
  /-- The first row of a name stays as it is. -/
  kept : ∀ row, db.keptRow row.tenantId row.name = some row → row ∈ db'.groups
  /-- The other rows are those of messages, for names that had no row. -/
  rest : ∀ row ∈ db'.groups, db.keptRow row.tenantId row.name = some row ∨
    (∀ id, ¬ db.GroupStored row.tenantId row.name id) ∧
      ∃ message ∈ db.messages, isGroupType message.channelType = true ∧ row = message.groupRow
  stored : ∀ t g old, db.GroupStored t g old → ∀ id, db'.GroupStored t g id ↔
    (db.keptRow t g).map (·.conversationId) = some id
  backfilled : ∀ message ∈ db.messages, isGroupType message.channelType = true →
    ∃ id, db'.GroupStored message.tenantId message.channelId id
  /-- Members of a row that stays stay as they are. -/
  membersKept : ∀ row, db.keptRow row.tenantId row.name = some row →
    ∀ member ∈ db.groupMembers, member.conversationId = row.conversationId →
      member ∈ db'.groupMembers
  /-- The members of a group are those that it had and those who wrote in its conversation. -/
  members : ∀ row ∈ db'.groups, ∀ u, db'.MemberStored row.conversationId u ↔
    (row ∈ db.groups ∧ db.MemberStored row.conversationId u) ∨ db.WroteIn row.conversationId u
  /-- Of a row that was deleted only those are left who wrote in its conversation. -/
  gone : ∀ row ∈ db.groups, db.keptRow row.tenantId row.name ≠ some row → ∀ u,
    db'.MemberStored row.conversationId u → db.WroteIn row.conversationId u
  again : ∀ constrained, db'.startup constrained [] [] = some db'

/-- After the migrations another start finds nothing to do, with the block or without it. -/
theorem startup_again {fixed : Database} (after : db'.Schema)
    (migrated : fixed.migrate groups members = some db') (constrained : Bool) :
    db'.startup constrained [] [] = some db' := by
  have same : db'.constrain constrained = some db' := by
    cases constrained with
    | true => rfl
    | false =>
        rw [constrain_eq_some]
        have names : firstOfKey GroupRow.fullName db'.groups = db'.groups :=
          firstOfKey_of_nodup after.groupNames
        have deleted : (db'.groups.filter fun row => row ∉ db'.groups) = [] := by
          rw [List.filter_eq_nil_iff]
          intro row mem
          simp [mem]
        have members : (db'.groupMembers.filter fun row =>
            ¬ ([] : List GroupRow).any fun group => group.conversationId = row.conversationId) =
              db'.groupMembers := List.filter_eq_self.mpr fun _ _ => rfl
        rw [names, deleted, members]
  unfold startup
  rw [same, Option.bind_some]
  exact (migrate_again_iff migrated).mpr ⟨rfl, rfl, rfl⟩

/-- The rows of `groups` after the migrations are those before them and some for messages whose
group was not stored. -/
theorem mem_groups_migrate (migrated : db.migrate groups members = some db') {row : GroupRow}
    (mem : row ∈ db'.groups) :
    row ∈ db.groups ∨ ∃ message ∈ db.unknownGroups, row = message.groupRow := by
  obtain ⟨filled, first, _, _, same⟩ := migrate_some migrated
  obtain ⟨earliest, folded⟩ := backfillGroups_eq_some.mp first
  rcases conversations_filled folded row (same ▸ mem) with old | ⟨message, taken, rfl⟩
  · exact .inl old
  · exact .inr ⟨message, earliest.sub message taken, rfl⟩

theorem groups_subset_migrate (migrated : db.migrate groups members = some db') :
    db.groups ⊆ db'.groups := by
  obtain ⟨filled, first, _, _, same⟩ := migrate_some migrated
  rw [same]
  exact groups_filled (backfillGroups_eq_some.mp first).2

/-- After the migrations the group of every group message is stored. -/
theorem exists_groupStored_migrate (migrated : db.migrate groups members = some db')
    {message : MessageRow} (mem : message ∈ db.messages)
    (group : isGroupType message.channelType = true) :
    ∃ id, db'.GroupStored message.tenantId message.channelId id := by
  by_contra unknown
  have missing : message ∈ db'.unknownGroups :=
    mem_unknownGroups.mpr ⟨by rwa [messages_migrate migrated], group, not_exists.mp unknown⟩
  rw [(migrate_done migrated).1] at missing
  exact List.not_mem_nil missing

theorem groupMembers_subset_migrate (migrated : db.migrate groups members = some db') :
    db.groupMembers ⊆ db'.groupMembers := by
  obtain ⟨filled, _, after, second, _⟩ := migrate_some migrated
  obtain ⟨_, _, rfl⟩ := backfillMembers_eq_some.mp second
  rw [← after.groupMembers]
  exact List.subset_append_left _ _

/-- What is listed after the migrations in the conversation of a group whose row they added: those
who wrote there. -/
theorem memberStored_added (schema : db.Schema) (after : db'.Schema)
    (migrated : db.migrate groups members = some db') {row : GroupRow} (mem : row ∈ db'.groups)
    (new : row ∉ db.groups) (u : String) :
    db'.MemberStored row.conversationId u ↔ db.WroteIn row.conversationId u := by
  have none : ¬ db.MemberStored row.conversationId u := by
    rintro ⟨member, listed, own, _⟩
    obtain ⟨group, there, same⟩ := schema.references member listed
    have one : group = row := List.inj_on_of_nodup_map after.groupIds
      (groups_subset_migrate migrated there) mem (same.trans own)
    exact new (one ▸ there)
  obtain ⟨filled, _, between, second, same⟩ := migrate_some migrated
  have wrote : filled.WroteIn row.conversationId u ↔ db.WroteIn row.conversationId u := by
    unfold WroteIn
    rw [between.messages]
  have known : ∃ group ∈ filled.groups, group.conversationId = row.conversationId :=
    ⟨row, same ▸ mem, rfl⟩
  rw [memberStored_backfillMembers second, memberStored_congr between.groupMembers, wrote]
  exact ⟨fun listed => listed.elim (fun old => absurd old none) And.right,
    fun wrote => .inr ⟨known, wrote⟩⟩

/-- A start over tables of an older server, when it goes through. -/
theorem upgrade (schema : db.OldSchema) (texts : ∀ message ∈ db.messages, message.Storable)
    (started : db.startup false groups members = some db') : db.Upgraded db' := by
  obtain ⟨fixed, block, migrated⟩ := Option.bind_eq_some_iff.mp started
  have messages := messages_constrain block
  have between := schema.constrain block
  have after : db'.Schema := between.migrate (messages ▸ texts) migrated
  have wrote : ∀ id u, fixed.WroteIn id u ↔ db.WroteIn id u := by
    intro id u
    unfold WroteIn
    rw [messages]
  have kept : ∀ {row : GroupRow}, db.keptRow row.tenantId row.name = some row ↔
      row ∈ fixed.groups := (mem_groups_constrain block).symm
  have inside : fixed.groups ⊆ db.groups := groups_constrain_subset block
  have added : ∀ row ∈ db'.groups, row ∈ fixed.groups ∨
      (∀ id, ¬ db.GroupStored row.tenantId row.name id) ∧
        ∃ message ∈ db.messages, isGroupType message.channelType = true ∧
          row = message.groupRow := by
    intro row mem
    rcases mem_groups_migrate migrated mem with old | ⟨message, unknown, rfl⟩
    · exact .inl old
    · obtain ⟨there, group, none⟩ := mem_unknownGroups.mp unknown
      refine .inr ⟨fun id stored => ?_, message, messages ▸ there, group, rfl⟩
      obtain ⟨id', stored'⟩ := exists_groupStored_constrain block stored
      exact none id' stored'
  refine ⟨after, (messages_migrate migrated).trans messages, ?_, ?_, ?_, ?_, ?_, ?_, ?_,
    startup_again after migrated⟩
  · exact fun row first => groups_subset_migrate migrated (kept.mp first)
  · exact fun row mem => (added row mem).imp_left kept.mpr
  · intro t g old stored id
    rw [groupStored_migrate migrated (exists_groupStored_constrain block stored),
      groupStored_constrain block]
  · exact fun message mem group => exists_groupStored_migrate migrated (messages ▸ mem) group
  · intro row first member listed own
    refine groupMembers_subset_migrate migrated ?_
    exact (mem_groupMembers_constrain schema block).mpr ⟨listed, row, kept.mp first, own.symm⟩
  · intro row mem u
    rcases added row mem with old | ⟨none, _⟩
    · have stored : fixed.GroupStored row.tenantId row.name row.conversationId :=
        ⟨row, old, rfl, rfl, rfl⟩
      rw [memberStored_migrate migrated stored, wrote, memberStored_constrain schema block old]
      exact or_congr_left ⟨fun listed => ⟨inside old, listed⟩, And.right⟩
    · have new : row ∉ db.groups := fun there => none _ ⟨row, there, rfl, rfl, rfl⟩
      rw [memberStored_added between after migrated mem (fun old => new (inside old)), wrote]
      exact ⟨.inr, fun either => either.resolve_left fun both => new both.1⟩
  · rintro row mem deleted u ⟨member, listed, own⟩
    rcases mem_groupMembers_migrate migrated listed with old | ⟨_, new⟩
    · exact absurd ⟨member, old, own⟩ (not_memberStored_constrain schema block mem deleted u)
    · obtain ⟨id, rfl⟩ := own
      exact id ▸ (wrote _ _).mp new

/-- Two rows of one name, a message in the conversation of each, and one of a group without a row:
the second conversation loses its group and its member, its message lists nobody, and the third
group gets a row and a member. -/
theorem upgrade_two_rows :
    let first : MessageRow := ⟨1, "acme", 5, "Group", "team", "bob", "hi", 0⟩
    let second : MessageRow := ⟨2, "acme", 6, "Group", "team", "eve", "hi", 0⟩
    let third : MessageRow := ⟨3, "acme", 7, "Group", "club", "zoe", "hi", 1⟩
    let db : Database := ⟨[first, second, third],
      [⟨5, "acme", "team", "ada", 0⟩, ⟨6, "acme", "team", "eve", 0⟩],
      [⟨5, "acme", "ada", 0⟩, ⟨6, "acme", "eve", 0⟩]⟩
    ∃ db', db.startup false [third] [first, third] = some db' ∧ db.Upgraded db' := by
  intro first second third db
  have schema : db.OldSchema :=
    ⟨by decide, by decide, by decide, by decide, by decide⟩
  obtain ⟨db', started⟩ := Option.isSome_iff_exists.mp
    (show (db.startup false [third] [first, third]).isSome = true by decide)
  exact ⟨db', started, upgrade schema (by decide) started⟩

end Upgrade

end Database

end YappaCore
