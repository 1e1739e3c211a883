import YappaCore.Db.Groups
import YappaCore.Server.Frames

/-!
What a group command of one tenant does to the rows of `groups` and `group_members` of the
other tenants.

`JOIN` and `CREATE` address rows by the tenant of their connection; `LEAVE` addresses them by a
conversation id that the client chose and by a user name, which several tenants may have.
`others_kept_iff` says when the rows of the others stay as they are.
-/

namespace YappaCore

open Lib Handler

namespace Database

/-- The rows of `groups` and `group_members` of every tenant but `t` are the same in both. -/
def SameForOthers (t : String) (db db' : Database) : Prop :=
  db'.groups.filter (·.tenantId ≠ t) = db.groups.filter (·.tenantId ≠ t) ∧
    db'.groupMembers.filter (·.tenantId ≠ t) = db.groupMembers.filter (·.tenantId ≠ t)

variable {db db' db'' : Database} {t g u : String} {id id' : Uuid} {now : Int}

theorem SameForOthers.refl (t : String) (db : Database) : SameForOthers t db db := ⟨rfl, rfl⟩

theorem SameForOthers.trans (first : SameForOthers t db db') (second : SameForOthers t db' db'') :
    SameForOthers t db db'' :=
  ⟨second.1.trans first.1, second.2.trans first.2⟩

/-- A statement that may fail leaves what it leaves when it succeeds. -/
theorem SameForOthers.attempt {statement : Option Database} (ok : Bool)
    (succeeds : ∀ db', statement = some db' → SameForOthers t db db') :
    SameForOthers t db ((if ok then statement else none).getD db) := by
  cases ok with
  | false => exact .refl t db
  | true =>
      cases statement with
      | none => exact .refl t db
      | some db' => exact succeeds db' rfl

/-- A member is inserted for its own tenant. -/
theorem sameForOthers_insert (inserted : db.insertGroupMember id t u now = some db') :
    SameForOthers t db db' := by
  obtain ⟨_, ⟨rfl, _⟩ | ⟨_, _, rfl⟩⟩ := insertGroupMember_cases inserted
  · exact .refl t _
  · refine ⟨rfl, ?_⟩
    rw [List.filter_append]
    simp

/-- A group is inserted or updated for its own tenant. -/
theorem sameForOthers_upsert (upserted : db.upsertGroup id t g u now = some (id', db')) :
    SameForOthers t db db' := by
  obtain ⟨_, _, ⟨_, _, rfl⟩ | ⟨_, rfl⟩ | ⟨_, _, rfl⟩⟩ := upsertGroup_cases upserted
  · refine ⟨?_, rfl⟩
    rw [List.filter_append]
    simp
  · exact .refl t _
  · refine ⟨?_, rfl⟩
    have same : ∀ row ∈ db.groups.filter (·.tenantId ≠ t), renumber t g id row = row := by
      intro row mem
      have foreign : row.tenantId ≠ t := by simpa using (List.mem_filter.mp mem).2
      exact renumber_of_ne fun own => foreign own.1
    have tenants : ((fun row : GroupRow => decide (row.tenantId ≠ t)) ∘ renumber t g id) =
        fun row => decide (row.tenantId ≠ t) := by
      funext row
      simp only [Function.comp_apply, tenantId_renumber]
    rw [List.filter_map, tenants, List.map_congr_left same, List.map_id']

/-- Members are taken out of a conversation by their names: those of other tenants stay exactly
when there is none of that name. -/
theorem sameForOthers_delete_iff (deleted : db.deleteGroupMember id u = some db') (t : String) :
    SameForOthers t db db' ↔
      ∀ row ∈ db.groupMembers, row.conversationId = id → row.userId = u → row.tenantId = t := by
  unfold deleteGroupMember at deleted
  split at deleted
  · rw [← Option.some.inj deleted]
    unfold SameForOthers
    simp only [true_and]
    rw [List.filter_comm, List.filter_eq_self]
    simp only [List.mem_filter, decide_eq_true_eq]
    constructor
    · intro kept row mem own user
      by_contra foreign
      exact kept row ⟨mem, foreign⟩ ⟨own, user⟩
    · rintro none row ⟨mem, foreign⟩ ⟨own, user⟩
      exact foreign (none row mem own user)
  · simp at deleted

end Database

namespace Cluster

variable {N : Type} [DecidableEq N] {n : N} {choices : ℕ → Choice} {s : Cluster N}
  {identity : Identity} {g : String}

theorem sameForOthers_join : Database.SameForOthers identity.tenantId s.db
    (finish n (handleJoin identity g) choices s).db := by
  rw [db_handleJoin]
  split
  · exact .refl _ _
  · exact .attempt _ fun _ inserted => Database.sameForOthers_insert inserted

theorem sameForOthers_create : Database.SameForOthers identity.tenantId s.db
    (finish n (handleCreate identity g) choices s).db := by
  rw [db_handleCreate]
  split
  · exact .refl _ _
  · rename_i id db created
    split at created
    · exact (Database.sameForOthers_upsert created).trans
        (.attempt _ fun _ inserted => Database.sameForOthers_insert inserted)
    · simp at created

/-- The `DELETE` of a `LEAVE` takes out a member of another tenant: one of the same name in the
conversation that it addresses. -/
def LeavesForeign (s : Cluster N) (choices : ℕ → Choice) (identity : Identity) (g : String) :
    Prop :=
  (afterParse g choices 0).ok = true ∧ Storable identity.userId ∧
    ∃ row ∈ s.db.groupMembers, row.conversationId = conversationOf g choices ∧
      row.userId = identity.userId ∧ row.tenantId ≠ identity.tenantId

theorem sameForOthers_leave_iff : Database.SameForOthers identity.tenantId s.db
    (finish n (handleLeave identity g) choices s).db ↔ ¬ s.LeavesForeign choices identity g := by
  rw [db_handleLeave]
  unfold LeavesForeign
  by_cases ok : (afterParse g choices 0).ok = true
  · rw [if_pos ok]
    by_cases storable : Storable identity.userId
    · obtain ⟨db, deleted⟩ : ∃ db, s.db.deleteGroupMember (conversationOf g choices)
          identity.userId = some db := ⟨_, if_pos storable⟩
      rw [deleted, Option.getD_some, Database.sameForOthers_delete_iff deleted]
      simp only [ok, storable, true_and, not_exists, not_and, not_not]
    · have fails : s.db.deleteGroupMember (conversationOf g choices) identity.userId = none :=
        if_neg storable
      rw [fails]
      exact iff_of_true (.refl _ _) fun foreign => storable foreign.2.1
  · rw [if_neg ok]
    exact iff_of_true (.refl _ _) fun foreign => ok foreign.1

/-- Whatever the tables hold and whatever group a command of a tenant names, the rows of the
other tenants stay exactly as they are, unless it is a `LEAVE` whose conversation lists a user
of the same name for another tenant. -/
theorem others_kept_iff (n : N) (choices : ℕ → Choice) (s : Cluster N) (state : AppState)
    (identity : Identity) (groupState : GroupMessage) (chat : Option WsMessage) :
    Database.SameForOthers identity.tenantId s.db
        (finish n (handleTextMessage ⟨some groupState, chat⟩ identity state) choices s).db ↔
      ¬ (groupState.msgType = .leave ∧ s.LeavesForeign choices identity groupState.groupId) := by
  unfold handleTextMessage
  cases kind : groupState.msgType with
  | join => simpa [kind] using sameForOthers_join
  | leave => simpa [kind] using sameForOthers_leave_iff
  | create => simpa [kind] using sameForOthers_create
  | delete => simpa [kind, db_handleDelete] using Database.SameForOthers.refl identity.tenantId s.db

/-- Two users of one name in two tenants: one creates a group whose name is the text of an id,
the other leaves that group without ever having been there. -/
theorem leave_deletes_foreign_row :
    ¬ ∀ (state : AppState) (es : List (Event Unit)) (s : Cluster Unit) (choices : ℕ → Choice)
      (identity : Identity) (groupState : GroupMessage) (chat : Option WsMessage),
      (machine Unit state).run (start ⟨[], [], []⟩) es = some s →
      Database.SameForOthers identity.tenantId s.db
        (finish () (handleTextMessage ⟨some groupState, chat⟩ identity state) choices s).db := by
  intro always
  let state : AppState := ⟨true, fun _ => 0⟩
  let name := "00000000-0000-0000-0000-000000000005"
  let choice : Choice := ⟨7, 9, true, 7⟩
  let es : List (Event Unit) :=
    [.connect 1 () ⟨"globex", "bob"⟩, .perform 1 choice,
      .frame 1 ⟨some ⟨.create, "globex", name, "bob"⟩, none⟩] ++ List.replicate 7 (.perform 1 choice)
  obtain ⟨s, ran, rows⟩ : ∃ s ∈ (machine Unit state).run (start ⟨[], [], []⟩) es,
      s.db.groupMembers = [⟨5, "globex", "bob", 7⟩] := by decide
  have kept := always state es s (fun _ => choice) ⟨"acme", "bob"⟩
    ⟨.leave, "acme", name, "bob"⟩ none ran
  refine sameForOthers_leave_iff.mp kept ⟨by decide, by decide, ⟨5, "globex", "bob", 7⟩, ?_⟩
  rw [rows]
  decide

end Cluster

end YappaCore
