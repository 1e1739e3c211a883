import Mathlib.Data.List.Nodup
import Mathlib.Tactic.MkIffOfInductiveProp
import YappaCore.Db.Groups

/-!
What `migrations/003_create_groups.sql` does at every start: the tables, the constraint and the
indexes are there, and two statements fill `groups` and `group_members` from the messages. They run
in one transaction; `none` is an error, which leaves the tables as they were and ends the start.

`groupStored_migrate` and `mem_groupMembers_migrate` say what a start adds, and
`migrate_again_iff` that after it another one adds nothing. `exists_backfillMembers_iff` says when
the second statement fails.
-/

namespace YappaCore

/-! ### Grouping -/

/-- What a `GROUP BY` with the data of the earliest row of each group gives: one row of each group,
which is as early as any. The order of the groups, and which of several earliest rows is taken,
is left open. -/
@[mk_iff]
structure Earliest {α κ : Type} (key : α → κ) (time : α → Int) (rows firsts : List α) : Prop where
  sub : ∀ row ∈ firsts, row ∈ rows
  distinct : (firsts.map key).Nodup
  least : ∀ row ∈ rows, ∃ first ∈ firsts, key first = key row ∧ time first ≤ time row

namespace Earliest

variable {α κ : Type} {key : α → κ} {time : α → Int} {rows firsts : List α}

instance [DecidableEq α] [DecidableEq κ] : Decidable (Earliest key time rows firsts) :=
  decidable_of_iff _ (earliest_iff key time rows firsts).symm

theorem nil : Earliest key time [] [] :=
  ⟨fun _ => id, List.nodup_nil, fun _ mem => absurd mem List.not_mem_nil⟩

/-- No rows, no groups. -/
theorem eq_nil (earliest : Earliest key time [] firsts) : firsts = [] :=
  List.eq_nil_iff_forall_not_mem.mpr fun row mem => List.not_mem_nil (earliest.sub row mem)

/-- A row of a new group. -/
theorem add (earliest : Earliest key time rows firsts) {row : α}
    (new : ∀ first ∈ firsts, key first ≠ key row) :
    Earliest key time (row :: rows) (row :: firsts) := by
  refine ⟨?_, ?_, ?_⟩
  · rw [List.forall_mem_cons]
    exact ⟨List.mem_cons_self, fun other there => List.mem_cons_of_mem _ (earliest.sub other there)⟩
  · rw [List.map_cons, List.nodup_cons]
    refine ⟨fun mem => ?_, earliest.distinct⟩
    obtain ⟨first, there, same⟩ := List.mem_map.mp mem
    exact new first there same
  · rw [List.forall_mem_cons]
    refine ⟨⟨row, List.mem_cons_self, rfl, le_rfl⟩, fun other there => ?_⟩
    obtain ⟨first, before, own, least⟩ := earliest.least other there
    exact ⟨first, List.mem_cons_of_mem _ before, own, least⟩

/-- A row of a group whose first is as early. -/
theorem skip (earliest : Earliest key time rows firsts) {row first : α} (mem : first ∈ firsts)
    (same : key first = key row) (early : time first ≤ time row) :
    Earliest key time (row :: rows) firsts := by
  refine ⟨fun other there => List.mem_cons_of_mem _ (earliest.sub other there),
    earliest.distinct, ?_⟩
  rw [List.forall_mem_cons]
  exact ⟨⟨first, mem, same, early⟩, earliest.least⟩

/-- A row that is earlier than the first of its group takes its place. -/
theorem replace [DecidableEq κ] (earliest : Earliest key time rows firsts) {row first : α}
    (mem : first ∈ firsts) (same : key first = key row) (late : time row ≤ time first) :
    Earliest key time (row :: rows)
      (firsts.map fun other => if key other = key row then row else other) := by
  have here : row ∈ firsts.map fun other => if key other = key row then row else other :=
    List.mem_map.mpr ⟨first, mem, if_pos same⟩
  refine ⟨?_, ?_, ?_⟩
  · intro other there
    obtain ⟨old, before, rfl⟩ := List.mem_map.mp there
    split
    · exact List.mem_cons_self
    · exact List.mem_cons_of_mem _ (earliest.sub old before)
  · have keys : (firsts.map fun other => if key other = key row then row else other).map key =
        firsts.map key := by
      rw [List.map_map]
      refine List.map_congr_left fun other _ => ?_
      simp only [Function.comp_apply]
      split
      · rename_i own
        exact own.symm
      · rfl
    rw [keys]
    exact earliest.distinct
  · rw [List.forall_mem_cons]
    refine ⟨⟨row, here, rfl, le_rfl⟩, fun other there => ?_⟩
    obtain ⟨old, before, own, least⟩ := earliest.least other there
    by_cases group : key old = key row
    · have equal : old = first :=
        List.inj_on_of_nodup_map earliest.distinct before mem (group.trans same.symm)
      rw [equal] at least
      exact ⟨row, here, group.symm.trans own, late.trans least⟩
    · exact ⟨old, List.mem_map.mpr ⟨old, before, if_neg group⟩, own, least⟩

/-- Rows can always be grouped. -/
theorem exists_firsts [DecidableEq κ] (key : α → κ) (time : α → Int) (rows : List α) :
    ∃ firsts, Earliest key time rows firsts := by
  induction rows with
  | nil => exact ⟨[], nil⟩
  | cons row rest ih =>
      obtain ⟨firsts, earliest⟩ := ih
      by_cases known : ∃ first ∈ firsts, key first = key row
      · obtain ⟨first, mem, same⟩ := known
        rcases le_total (time first) (time row) with early | late
        · exact ⟨_, earliest.skip mem same early⟩
        · exact ⟨_, earliest.replace mem same late⟩
      · exact ⟨_, earliest.add fun first mem same => known ⟨first, mem, same⟩⟩

end Earliest

/-! ### The two statements -/

/-- `channel_type ILIKE 'group'`. -/
def isGroupType (channelType : String) : Bool :=
  channelType.toList.map Char.toLower = "group".toList

/-- The row of `groups` for the earliest message of one. -/
def MessageRow.groupRow (first : MessageRow) : GroupRow :=
  ⟨first.conversationId, first.tenantId, first.channelId, first.senderId, first.createdAt⟩

/-- The row of `group_members` for the earliest message of one. -/
def MessageRow.memberRow (first : MessageRow) : GroupMemberRow :=
  ⟨first.conversationId, first.tenantId, first.senderId, first.createdAt⟩

namespace Database

/-- The group messages whose group is not in `groups`. -/
def unknownGroups (db : Database) : List MessageRow :=
  db.messages.filter fun message => isGroupType message.channelType ∧
    ¬ db.groups.any fun row => row.tenantId = message.tenantId ∧ row.name = message.channelId

/-- The insert of one row, `ON CONFLICT (tenant_id, name) DO NOTHING`. -/
def backfillGroup (db : Database) (first : MessageRow) : Option Database :=
  if db.groups.any fun row => row.tenantId = first.tenantId ∧ row.name = first.channelId then some db
  else if db.groups.any fun row => row.conversationId = first.conversationId then none
  else some { db with groups := db.groups ++ [first.groupRow] }

/-- `INSERT INTO groups … SELECT … GROUP BY conversation_id, tenant_id, channel_id`. -/
def backfillGroups (db : Database) (firsts : List MessageRow) : Option Database :=
  if Earliest (fun message => (message.conversationId, message.tenantId, message.channelId))
      MessageRow.createdAt db.unknownGroups firsts then
    firsts.foldlM backfillGroup db
  else none

/-- The group messages in a conversation of `groups` whose sender is not listed in it. -/
def unlistedSenders (db : Database) : List MessageRow :=
  db.messages.filter fun message => isGroupType message.channelType ∧
    (db.groups.any fun row => row.conversationId = message.conversationId) ∧
    ¬ db.groupMembers.any fun row =>
      row.conversationId = message.conversationId ∧ row.userId = message.senderId

/-- The insert of one row: a user is listed once in a conversation. -/
def backfillMember (db : Database) (first : MessageRow) : Option Database :=
  if db.groupMembers.any fun row =>
      row.conversationId = first.conversationId ∧ row.userId = first.senderId then none
  else some { db with groupMembers := db.groupMembers ++ [first.memberRow] }

/-- `INSERT INTO group_members … SELECT … GROUP BY m.conversation_id, m.tenant_id, m.sender_id`. -/
def backfillMembers (db : Database) (firsts : List MessageRow) : Option Database :=
  if Earliest (fun message => (message.conversationId, message.tenantId, message.senderId))
      MessageRow.createdAt db.unlistedSenders firsts then
    firsts.foldlM backfillMember db
  else none

/-- The migrations of a start, when Postgres goes through these first messages. -/
def migrate (db : Database) (groups members : List MessageRow) : Option Database :=
  (db.backfillGroups groups).bind fun db => db.backfillMembers members

/-- A user sent a group message in a conversation. -/
def WroteIn (db : Database) (id : Uuid) (userId : String) : Prop :=
  ∃ message ∈ db.messages, isGroupType message.channelType = true ∧
    message.conversationId = id ∧ message.senderId = userId

instance (db : Database) (id : Uuid) (userId : String) : Decidable (db.WroteIn id userId) := by
  unfold WroteIn; infer_instance

/-! ### The groups of a start -/

section Groups

variable {db db' : Database}

theorem mem_unknownGroups {message : MessageRow} : message ∈ db.unknownGroups ↔
    message ∈ db.messages ∧ isGroupType message.channelType = true ∧
      ∀ id, ¬ db.GroupStored message.tenantId message.channelId id := by
  unfold unknownGroups GroupStored
  simp only [List.mem_filter, decide_eq_true_eq, List.any_eq_true]
  refine and_congr_right fun _ => and_congr_right fun _ => ?_
  constructor
  · rintro none id ⟨row, mem, tenant, name, _⟩
    exact none ⟨row, mem, tenant, name⟩
  · rintro none ⟨row, mem, tenant, name⟩
    exact none row.conversationId ⟨row, mem, tenant, name, rfl⟩

/-- A row is skipped when its group is there, and added when its group and its id are new. -/
theorem backfillGroup_cases {first : MessageRow} (filled : db.backfillGroup first = some db') :
    (∃ id, db.GroupStored first.tenantId first.channelId id) ∧ db' = db ∨
      (∀ id, ¬ db.GroupStored first.tenantId first.channelId id) ∧
        (∀ row ∈ db.groups, row.conversationId ≠ first.conversationId) ∧
        db' = { db with groups := db.groups ++ [first.groupRow] } := by
  unfold backfillGroup at filled
  split at filled
  · rename_i known
    obtain ⟨row, mem, own⟩ := List.any_eq_true.mp known
    have own := of_decide_eq_true own
    exact .inl ⟨⟨_, row, mem, own.1, own.2, rfl⟩, (Option.some.inj filled).symm⟩
  · rename_i new
    split at filled
    · simp at filled
    · rename_i free
      refine .inr ⟨?_, fun row mem same => free ?_, (Option.some.inj filled).symm⟩
      · rintro id ⟨row, mem, tenant, name, _⟩
        exact new (List.any_eq_true.mpr ⟨row, mem, decide_eq_true ⟨tenant, name⟩⟩)
      · exact List.any_eq_true.mpr ⟨row, mem, decide_eq_true same⟩

theorem Schema.foldlM_backfillGroup {firsts : List MessageRow} (schema : db.Schema)
    (texts : ∀ first ∈ firsts, first.Storable)
    (filled : firsts.foldlM Database.backfillGroup db = some db') : db'.Schema := by
  induction firsts generalizing db with
  | nil =>
      cases filled
      exact schema
  | cons first rest ih =>
      rw [List.foldlM_cons] at filled
      rw [List.forall_mem_cons] at texts
      obtain ⟨⟨tenant, _, channel, sender, _⟩, others⟩ := texts
      obtain ⟨next, now, later⟩ := Option.bind_eq_some_iff.mp filled
      refine ih ?_ others later
      rcases backfillGroup_cases now with ⟨_, rfl⟩ | ⟨new, free, rfl⟩
      · exact schema
      · exact schema.append free new ⟨tenant, channel, sender⟩

/-- What the rows of `groups` are after the first statement. -/
structure Filled (db : Database) (firsts : List MessageRow) (db' : Database) : Prop where
  messages : db'.messages = db.messages
  groupMembers : db'.groupMembers = db.groupMembers
  kept : ∀ t g, (∃ id, db.GroupStored t g id) →
    ∀ id, db'.GroupStored t g id ↔ db.GroupStored t g id
  stored : ∀ first ∈ firsts, ∃ id, db'.GroupStored first.tenantId first.channelId id

theorem filled_foldlM {firsts : List MessageRow} (filled : firsts.foldlM backfillGroup db = some db') :
    Filled db firsts db' := by
  induction firsts generalizing db with
  | nil =>
      cases filled
      exact ⟨rfl, rfl, fun _ _ _ _ => Iff.rfl, fun _ mem => absurd mem List.not_mem_nil⟩
  | cons first rest ih =>
      rw [List.foldlM_cons] at filled
      obtain ⟨next, now, later⟩ := Option.bind_eq_some_iff.mp filled
      have after := ih later
      rcases backfillGroup_cases now with ⟨known, rfl⟩ | ⟨new, _, rfl⟩
      · refine ⟨after.messages, after.groupMembers, after.kept, ?_⟩
        rw [List.forall_mem_cons]
        refine ⟨?_, after.stored⟩
        obtain ⟨id, stored⟩ := known
        exact ⟨id, (after.kept _ _ ⟨id, stored⟩ id).mpr stored⟩
      · have same : ∀ t g id, ({ db with groups := db.groups ++ [first.groupRow] } :
            Database).GroupStored t g id ↔ db.GroupStored t g id ∨
              first.tenantId = t ∧ first.channelId = g ∧ first.conversationId = id :=
          groupStored_append first.groupRow
        have here := (same first.tenantId first.channelId first.conversationId).mpr
          (.inr ⟨rfl, rfl, rfl⟩)
        refine ⟨after.messages, after.groupMembers, fun t g stored id => ?_, ?_⟩
        · obtain ⟨old, stored⟩ := stored
          have still := (same t g old).mpr (.inl stored)
          rw [after.kept t g ⟨old, still⟩, same]
          refine or_iff_left ?_
          rintro ⟨rfl, rfl, _⟩
          exact new old stored
        · rw [List.forall_mem_cons]
          exact ⟨⟨_, (after.kept _ _ ⟨_, here⟩ _).mpr here⟩, after.stored⟩

theorem backfillGroups_eq_some {firsts : List MessageRow} :
    db.backfillGroups firsts = some db' ↔
      Earliest (fun message => (message.conversationId, message.tenantId, message.channelId))
          MessageRow.createdAt db.unknownGroups firsts ∧
        firsts.foldlM backfillGroup db = some db' := by
  unfold backfillGroups
  rw [Option.ite_none_right_eq_some]

/-- After it every group message has its group. -/
theorem unknownGroups_backfillGroups {firsts : List MessageRow}
    (filled : db.backfillGroups firsts = some db') : db'.unknownGroups = [] := by
  obtain ⟨earliest, folded⟩ := backfillGroups_eq_some.mp filled
  have after := filled_foldlM folded
  rw [List.eq_nil_iff_forall_not_mem]
  intro message mem
  obtain ⟨there, group, unknown⟩ := mem_unknownGroups.mp mem
  rw [after.messages] at there
  by_cases before : ∃ id, db.GroupStored message.tenantId message.channelId id
  · obtain ⟨id, stored⟩ := before
    exact unknown id ((after.kept _ _ ⟨id, stored⟩ id).mpr stored)
  · obtain ⟨first, firstMem, same, _⟩ := earliest.least message
      (mem_unknownGroups.mpr ⟨there, group, not_exists.mp before⟩)
    simp only [Prod.mk.injEq] at same
    obtain ⟨id, stored⟩ := after.stored first firstMem
    rw [same.2.1, same.2.2] at stored
    exact unknown id stored

end Groups

/-! ### The members of a start -/

section Members

variable {db db' : Database} {firsts : List MessageRow}

theorem mem_unlistedSenders {message : MessageRow} : message ∈ db.unlistedSenders ↔
    message ∈ db.messages ∧ isGroupType message.channelType = true ∧
      (∃ group ∈ db.groups, group.conversationId = message.conversationId) ∧
      ¬ db.MemberStored message.conversationId message.senderId := by
  unfold unlistedSenders MemberStored
  simp only [List.mem_filter, decide_eq_true_eq, List.any_eq_true]

theorem backfillMember_eq_some {first : MessageRow} : db.backfillMember first = some db' ↔
    ¬ db.MemberStored first.conversationId first.senderId ∧
      { db with groupMembers := db.groupMembers ++ [first.memberRow] } = db' := by
  unfold backfillMember MemberStored
  rw [Option.ite_none_left_eq_some, Option.some_inj]
  simp only [List.any_eq_true, decide_eq_true_eq]

/-- The rows are added if none of their users is listed and no two are of one user and one
conversation. -/
theorem foldlM_backfillMember_eq_some : firsts.foldlM backfillMember db = some db' ↔
    (∀ first ∈ firsts, ¬ db.MemberStored first.conversationId first.senderId) ∧
      (firsts.map fun first => (first.conversationId, first.senderId)).Nodup ∧
      { db with groupMembers := db.groupMembers ++ firsts.map MessageRow.memberRow } = db' := by
  induction firsts generalizing db with
  | nil =>
      rw [List.foldlM_nil, List.map_nil, List.map_nil, List.append_nil]
      exact ⟨fun same => ⟨fun _ mem => absurd mem List.not_mem_nil, List.nodup_nil,
        Option.some.inj same⟩, fun ⟨_, _, same⟩ => congrArg some same⟩
  | cons first rest ih =>
      have rows : db.groupMembers ++ (first :: rest).map MessageRow.memberRow =
          db.groupMembers ++ [first.memberRow] ++ rest.map MessageRow.memberRow := by
        rw [List.map_cons, List.append_assoc, List.singleton_append]
      rw [List.foldlM_cons, List.forall_mem_cons, List.map_cons, List.nodup_cons, rows]
      constructor
      · intro filled
        obtain ⟨next, now, later⟩ := Option.bind_eq_some_iff.mp filled
        obtain ⟨unlisted, rfl⟩ := backfillMember_eq_some.mp now
        obtain ⟨others, nodup, same⟩ := ih.mp later
        have free : ∀ other ∈ rest, ¬ db.MemberStored other.conversationId other.senderId ∧
            ¬ (first.conversationId = other.conversationId ∧ first.senderId = other.senderId) :=
          fun other mem => not_or.mp fun listed =>
            others other mem ((memberStored_append first.memberRow _ _).mpr listed)
        refine ⟨⟨unlisted, fun other mem => (free other mem).1⟩, ⟨fun mem => ?_, nodup⟩, same⟩
        obtain ⟨other, there, own⟩ := List.mem_map.mp mem
        obtain ⟨conversation, sender⟩ := Prod.mk.inj own
        exact (free other there).2 ⟨conversation.symm, sender.symm⟩
      · rintro ⟨⟨unlisted, others⟩, ⟨new, nodup⟩, same⟩
        refine Option.bind_eq_some_iff.mpr
          ⟨_, backfillMember_eq_some.mpr ⟨unlisted, rfl⟩, ih.mpr ⟨?_, nodup, same⟩⟩
        intro other mem listed
        rcases (memberStored_append first.memberRow _ _).mp listed with old | ⟨conversation, sender⟩
        · exact others other mem old
        · exact new (List.mem_map.mpr ⟨other, mem, Prod.ext conversation.symm sender.symm⟩)

theorem backfillMembers_eq_some : db.backfillMembers firsts = some db' ↔
    Earliest (fun message => (message.conversationId, message.tenantId, message.senderId))
        MessageRow.createdAt db.unlistedSenders firsts ∧
      (firsts.map fun first => (first.conversationId, first.senderId)).Nodup ∧
      { db with groupMembers := db.groupMembers ++ firsts.map MessageRow.memberRow } = db' := by
  unfold backfillMembers
  rw [Option.ite_none_right_eq_some, foldlM_backfillMember_eq_some]
  refine and_congr_right fun earliest => and_iff_right fun first mem => ?_
  exact (mem_unlistedSenders.mp (earliest.sub first mem)).2.2.2

/-- If unlisted users of one name in one conversation are of one tenant, no two first messages
are of one user and one conversation. -/
theorem nodup_of_oneTenant
    (earliest : Earliest (fun message => (message.conversationId, message.tenantId,
      message.senderId)) MessageRow.createdAt db.unlistedSenders firsts)
    (oneTenant : ∀ message ∈ db.unlistedSenders, ∀ other ∈ db.unlistedSenders,
      message.conversationId = other.conversationId → message.senderId = other.senderId →
        message.tenantId = other.tenantId) :
    (firsts.map fun first => (first.conversationId, first.senderId)).Nodup := by
  refine List.Nodup.map_on ?_ earliest.distinct.of_map
  intro first mem first' mem' same
  obtain ⟨conversation, sender⟩ := Prod.mk.inj same
  have tenant := oneTenant first (earliest.sub first mem) first' (earliest.sub first' mem')
    conversation sender
  refine List.inj_on_of_nodup_map earliest.distinct mem mem' ?_
  rw [conversation, tenant, sender]

/-- The second statement goes through unless two users of one name, of different tenants, wrote
in one conversation and are not listed there. -/
theorem exists_backfillMembers_iff : (∃ firsts db', db.backfillMembers firsts = some db') ↔
    ∀ message ∈ db.unlistedSenders, ∀ other ∈ db.unlistedSenders,
      message.conversationId = other.conversationId → message.senderId = other.senderId →
        message.tenantId = other.tenantId := by
  constructor
  · rintro ⟨firsts, db', filled⟩ message mem other mem' conversation sender
    obtain ⟨earliest, nodup, _⟩ := backfillMembers_eq_some.mp filled
    obtain ⟨first, there, same, _⟩ := earliest.least message mem
    obtain ⟨first', there', same', _⟩ := earliest.least other mem'
    simp only [Prod.mk.injEq] at same same'
    have one : first = first' := by
      refine List.inj_on_of_nodup_map nodup there there' ?_
      rw [same.1, same.2.2, same'.1, same'.2.2, conversation, sender]
    rw [← same.2.1, ← same'.2.1, one]
  · intro oneTenant
    obtain ⟨firsts, earliest⟩ := Earliest.exists_firsts (fun message : MessageRow =>
      (message.conversationId, message.tenantId, message.senderId)) MessageRow.createdAt
      db.unlistedSenders
    exact ⟨firsts, _, backfillMembers_eq_some.mpr
      ⟨earliest, nodup_of_oneTenant earliest oneTenant, rfl⟩⟩

theorem Schema.foldlM_backfillMember (schema : db.Schema)
    (known : ∀ first ∈ firsts, ∃ group ∈ db.groups, group.conversationId = first.conversationId)
    (texts : ∀ first ∈ firsts, first.Storable)
    (filled : firsts.foldlM Database.backfillMember db = some db') : db'.Schema := by
  induction firsts generalizing db with
  | nil =>
      cases filled
      exact schema
  | cons first rest ih =>
      rw [List.foldlM_cons] at filled
      rw [List.forall_mem_cons] at known texts
      obtain ⟨next, now, later⟩ := Option.bind_eq_some_iff.mp filled
      obtain ⟨unlisted, rfl⟩ := backfillMember_eq_some.mp now
      obtain ⟨⟨tenant, _, _, sender, _⟩, others⟩ := texts
      exact ih (schema.appendMember unlisted known.1 ⟨tenant, sender⟩) known.2 others later

/-- The users that are listed then: those who were, and those who wrote in a conversation of a
group. -/
theorem memberStored_backfillMembers (filled : db.backfillMembers firsts = some db') (id : Uuid)
    (u : String) : db'.MemberStored id u ↔ db.MemberStored id u ∨
      (∃ group ∈ db.groups, group.conversationId = id) ∧ db.WroteIn id u := by
  obtain ⟨earliest, _, rfl⟩ := backfillMembers_eq_some.mp filled
  constructor
  · rintro ⟨row, mem, rfl, rfl⟩
    rcases List.mem_append.mp mem with old | new
    · exact .inl ⟨row, old, rfl, rfl⟩
    · obtain ⟨first, there, rfl⟩ := List.mem_map.mp new
      obtain ⟨message, group, known, _⟩ := mem_unlistedSenders.mp (earliest.sub first there)
      exact .inr ⟨known, first, message, group, rfl, rfl⟩
  · rintro (⟨row, mem, own⟩ | ⟨known, message, mem, group, rfl, rfl⟩)
    · exact ⟨row, List.mem_append_left _ mem, own⟩
    · by_cases listed : db.MemberStored message.conversationId message.senderId
      · obtain ⟨row, old, own⟩ := listed
        exact ⟨row, List.mem_append_left _ old, own⟩
      · obtain ⟨first, there, same, _⟩ := earliest.least message
          (mem_unlistedSenders.mpr ⟨mem, group, known, listed⟩)
        simp only [Prod.mk.injEq] at same
        exact ⟨first.memberRow, List.mem_append_right _ (List.mem_map_of_mem there), same.1,
          same.2.2⟩

/-- Then nobody is left to list. -/
theorem unlistedSenders_backfillMembers (filled : db.backfillMembers firsts = some db') :
    db'.unlistedSenders = [] := by
  have listed := memberStored_backfillMembers filled
  obtain ⟨_, _, rfl⟩ := backfillMembers_eq_some.mp filled
  rw [List.eq_nil_iff_forall_not_mem]
  intro message mem
  obtain ⟨there, group, known, unlisted⟩ := mem_unlistedSenders.mp mem
  exact unlisted ((listed _ _).mpr (.inr ⟨known, message, there, group, rfl, rfl⟩))

end Members

/-! ### Starts -/

section Starts

variable {db db' : Database} {groups members : List MessageRow}

/-- A start fills one table after the other. -/
theorem migrate_some (migrated : db.migrate groups members = some db') : ∃ filled,
    db.backfillGroups groups = some filled ∧ Filled db groups filled ∧
      filled.backfillMembers members = some db' ∧ db'.groups = filled.groups := by
  obtain ⟨filled, first, second⟩ := Option.bind_eq_some_iff.mp migrated
  obtain ⟨_, folded⟩ := backfillGroups_eq_some.mp first
  refine ⟨filled, first, filled_foldlM folded, second, ?_⟩
  obtain ⟨_, _, rfl⟩ := backfillMembers_eq_some.mp second
  rfl

/-- It reads the messages only. -/
theorem messages_migrate (migrated : db.migrate groups members = some db') :
    db'.messages = db.messages := by
  obtain ⟨filled, _, after, second, _⟩ := migrate_some migrated
  obtain ⟨_, _, rfl⟩ := backfillMembers_eq_some.mp second
  exact after.messages

/-- It keeps the constraints of the two tables. -/
theorem Schema.migrate (schema : db.Schema) (texts : ∀ message ∈ db.messages, message.Storable)
    (migrated : db.migrate groups members = some db') : db'.Schema := by
  obtain ⟨filled, first, second⟩ := Option.bind_eq_some_iff.mp migrated
  obtain ⟨earliest, folded⟩ := backfillGroups_eq_some.mp first
  have between : filled.Schema := schema.foldlM_backfillGroup
    (fun row mem => texts row (mem_unknownGroups.mp (earliest.sub row mem)).1) folded
  unfold backfillMembers at second
  obtain ⟨earliest', folded'⟩ := Option.ite_none_right_eq_some.mp second
  have written : ∀ row ∈ members, row ∈ db.messages ∧
      ∃ group ∈ filled.groups, group.conversationId = row.conversationId := by
    intro row mem
    obtain ⟨there, _, known, _⟩ := mem_unlistedSenders.mp (earliest'.sub row mem)
    exact ⟨(filled_foldlM folded).messages ▸ there, known⟩
  exact between.foldlM_backfillMember (fun row mem => (written row mem).2)
    (fun row mem => texts row (written row mem).1) folded'

/-- A group that is stored keeps its id. -/
theorem groupStored_migrate (migrated : db.migrate groups members = some db') {t g : String}
    (stored : ∃ id, db.GroupStored t g id) (id : Uuid) :
    db'.GroupStored t g id ↔ db.GroupStored t g id := by
  obtain ⟨filled, _, after, _, same⟩ := migrate_some migrated
  rw [groupStored_congr same]
  exact after.kept t g stored id

/-- What is listed in the conversation of a stored group: the rows that were, and a row for each
user who wrote there. -/
theorem memberStored_migrate (migrated : db.migrate groups members = some db') {t g : String}
    {id : Uuid} (stored : db.GroupStored t g id) (u : String) :
    db'.MemberStored id u ↔ db.MemberStored id u ∨ db.WroteIn id u := by
  obtain ⟨filled, _, after, second, _⟩ := migrate_some migrated
  have known : ∃ group ∈ filled.groups, group.conversationId = id :=
    ((after.kept t g ⟨id, stored⟩ id).mpr stored).exists_row
  have wrote : filled.WroteIn id u ↔ db.WroteIn id u := by
    unfold WroteIn
    rw [after.messages]
  rw [memberStored_backfillMembers second, memberStored_congr after.groupMembers, wrote]
  exact or_congr_right (and_iff_right known)

/-- A row that a start adds is that of a user who was not listed and wrote there. -/
theorem mem_groupMembers_migrate (migrated : db.migrate groups members = some db')
    {row : GroupMemberRow} (mem : row ∈ db'.groupMembers) : row ∈ db.groupMembers ∨
      ¬ db.MemberStored row.conversationId row.userId ∧
        db.WroteIn row.conversationId row.userId := by
  obtain ⟨filled, _, after, second, _⟩ := migrate_some migrated
  obtain ⟨earliest, _, rfl⟩ := backfillMembers_eq_some.mp second
  rcases List.mem_append.mp mem with old | new
  · exact .inl (after.groupMembers ▸ old)
  · obtain ⟨first, there, rfl⟩ := List.mem_map.mp new
    obtain ⟨message, group, _, unlisted⟩ := mem_unlistedSenders.mp (earliest.sub first there)
    rw [memberStored_congr after.groupMembers] at unlisted
    exact .inr ⟨unlisted, first, after.messages ▸ message, group, rfl, rfl⟩

/-- After it there is nothing left to fill. -/
theorem migrate_done (migrated : db.migrate groups members = some db') :
    db'.unknownGroups = [] ∧ db'.unlistedSenders = [] := by
  obtain ⟨filled, first, _, second, _⟩ := migrate_some migrated
  refine ⟨?_, unlistedSenders_backfillMembers second⟩
  have done := unknownGroups_backfillGroups first
  obtain ⟨_, _, rfl⟩ := backfillMembers_eq_some.mp second
  exact done

/-- So a second start goes through, and changes nothing. -/
theorem migrate_again_iff (migrated : db.migrate groups members = some db')
    {groups' members' : List MessageRow} {db'' : Database} :
    db'.migrate groups' members' = some db'' ↔ groups' = [] ∧ members' = [] ∧ db'' = db' := by
  obtain ⟨noGroups, noMembers⟩ := migrate_done migrated
  constructor
  · intro again
    obtain ⟨next, first, second⟩ := Option.bind_eq_some_iff.mp again
    obtain ⟨earliest, folded⟩ := backfillGroups_eq_some.mp first
    rw [noGroups] at earliest
    obtain rfl := earliest.eq_nil
    obtain rfl := Option.some.inj folded
    obtain ⟨earliest', _, rfl⟩ := backfillMembers_eq_some.mp second
    rw [noMembers] at earliest'
    obtain rfl := earliest'.eq_nil
    exact ⟨rfl, rfl, by rw [List.map_nil, List.append_nil]⟩
  · rintro ⟨rfl, rfl, rfl⟩
    refine Option.bind_eq_some_iff.mpr ⟨db'', backfillGroups_eq_some.mpr ?_,
      backfillMembers_eq_some.mpr ?_⟩
    · rw [noGroups]
      exact ⟨Earliest.nil, rfl⟩
    · rw [noMembers, List.map_nil, List.map_nil, List.append_nil]
      exact ⟨Earliest.nil, List.nodup_nil, rfl⟩

end Starts

end Database

end YappaCore
