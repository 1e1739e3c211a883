import YappaCore.Db.Groups
import YappaCore.Server.Frames

/-!
One node that handles `JOIN`, `LEAVE` and `CREATE` frames one at a time, its listener hearing
what each published before the next: the members in the registry against the rows of `groups`
and `group_members`.

`Mirrors` is the agreement of the two, with a rule for each statement. A `JOIN` looks the id of
the group up and a `CREATE` sets it, but a `LEAVE` computes it from the name:
`agree_along_iff` says for which frames the agreement lasts.
-/

namespace YappaCore

open Lib Handler

/-! ### Members and rows -/

namespace Database

/-- A user is a member of a group exactly when listed in the conversation that the group is
stored under; `general` is not stored. -/
def Mirrors (db : Database) (member : String → String → String → Bool) : Prop :=
  ∀ t g u, g ≠ "general" →
    (member t g u = true ↔ ∃ id, db.GroupStored t g id ∧ db.MemberStored id u)

section Mirrors

variable {db db' : Database} {member : String → String → String → Bool} (schema : db.Schema)
  (mirrors : db.Mirrors member) {t g u : String} {id id' : Uuid} {now : Int}

include schema mirrors

/-- A member that is listed in the conversation of its group. -/
theorem Mirrors.insert (stored : db.GroupStored t g id)
    (inserted : db.insertGroupMember id t u now = some db') :
    db'.Mirrors fun t' g' u' => decide (t' = t ∧ g' = g ∧ u' = u) || member t' g' u' := by
  intro t' g' u' other
  have groups := groupStored_congr (groups_insertGroupMember inserted)
  simp only [groups, memberStored_insert inserted, Bool.or_eq_true, decide_eq_true_eq,
    mirrors t' g' u' other]
  constructor
  · rintro (⟨rfl, rfl, rfl⟩ | ⟨x, there, listed⟩)
    · exact ⟨id, stored, .inr ⟨rfl, rfl⟩⟩
    · exact ⟨x, there, .inl listed⟩
  · rintro ⟨x, there, listed | ⟨rfl, rfl⟩⟩
    · exact .inr ⟨x, there, listed⟩
    · obtain ⟨rfl, rfl⟩ := schema.name_unique stored there
      exact .inl ⟨rfl, rfl, rfl⟩

/-- A group that is new, that is as it was, or that gets a new id while it has no members. -/
theorem Mirrors.upsert (upserted : db.upsertGroup id t g u now = some (id', db')) :
    db'.Mirrors member := by
  intro t' g' u' other
  have listed := memberStored_congr (groupMembers_upsert upserted)
  simp only [schema.groupStored_upsert upserted, listed, mirrors t' g' u' other]
  by_cases own : t' = t ∧ g' = g
  · obtain ⟨rfl, rfl⟩ := own
    simp only [and_self, if_true, exists_eq_left]
    by_cases same : db.GroupStored t' g' id
    · constructor
      · rintro ⟨x, there, listed⟩
        exact schema.id_unique there same ▸ listed
      · exact fun listed => ⟨id, same, listed⟩
    · refine iff_of_false ?_ (schema.memberStored_upsert upserted same u')
      rintro ⟨x, there, listed⟩
      obtain ⟨_, _, ⟨none, _⟩ | ⟨stored, _⟩ | ⟨⟨old, stored, noMembers⟩, _⟩⟩ :=
        upsertGroup_cases upserted
      · exact none x there
      · exact same stored
      · exact noMembers u' (schema.id_unique there stored ▸ listed)
  · simp only [own, if_false]

/-- Taking a user out of a group and out of a conversation is the same exactly when, among the
groups that the user is in, the conversation is that of this group. -/
theorem Mirrors.delete_iff (deleted : db.deleteGroupMember id u = some db') :
    db'.Mirrors (fun t' g' u' => !decide (t' = t ∧ g' = g ∧ u' = u) && member t' g' u') ↔
      ∀ t' g', g' ≠ "general" → member t' g' u = true →
        (db.GroupStored t' g' id ↔ t' = t ∧ g' = g) := by
  have groups := groupStored_congr (groups_deleteGroupMember deleted)
  unfold Mirrors
  simp only [groups, memberStored_delete deleted, Bool.and_eq_true, Bool.not_eq_true',
    decide_eq_false_iff_not]
  constructor
  · intro after t' g' other before
    obtain ⟨x, there, listed⟩ := (mirrors t' g' u other).mp before
    constructor
    · intro stored
      by_contra kept
      obtain ⟨y, there', _, still⟩ :=
        (after t' g' u other).mp ⟨fun own => kept ⟨own.1, own.2.1⟩, before⟩
      exact still ⟨schema.id_unique there' stored, rfl⟩
    · intro own
      by_contra elsewhere
      have differs : x ≠ id := fun same => elsewhere (same ▸ there)
      exact ((after t' g' u other).mpr ⟨x, there, listed, fun same => differs same.1⟩).1
        ⟨own.1, own.2, rfl⟩
  · intro own t' g' u' other
    constructor
    · rintro ⟨kept, before⟩
      obtain ⟨x, there, listed⟩ := (mirrors t' g' u' other).mp before
      refine ⟨x, there, listed, ?_⟩
      rintro ⟨rfl, rfl⟩
      obtain ⟨tenant, name⟩ := (own t' g' other before).mp there
      exact kept ⟨tenant, name, rfl⟩
    · rintro ⟨x, there, listed, kept⟩
      have before := (mirrors t' g' u' other).mpr ⟨x, there, listed⟩
      refine ⟨?_, before⟩
      rintro ⟨rfl, rfl, rfl⟩
      exact kept ⟨schema.id_unique there ((own t' g' other before).mpr ⟨rfl, rfl⟩), rfl⟩

end Mirrors

end Database

namespace Cluster

/-! ### The listener hears everything -/

section Heard

variable {N : Type} [DecidableEq N]

/-- The listener of a node handled everything in its stream. -/
def heard (s : Cluster N) (n : N) : Cluster N :=
  { s.setNode n ((s.streams n).foldl Node.handleMessage (s.nodes n)) with
    streams := Function.update s.streams n [] }

/-- The listener gets there by handling one message after the other. -/
theorem run_heard (state : AppState) (s : Cluster N) (n : N) :
    ∃ es : List (Event N), (machine N state).run s es = some (s.heard n) := by
  generalize waiting : s.streams n = msgs
  induction msgs generalizing s with
  | nil =>
      refine ⟨[], congrArg some ?_⟩
      unfold heard setNode
      rw [waiting, List.foldl_nil, Function.update_eq_self]
      rw [← waiting, Function.update_eq_self]
  | cons msg rest ih =>
      have first : (machine N state).step s (.deliver n) = some (s.delivered n msg rest) := by
        simp only [machine, step, waiting]
      have later : (s.delivered n msg rest).streams n = rest := by simp [delivered]
      obtain ⟨es, ran⟩ := ih (s.delivered n msg rest) later
      refine ⟨.deliver n :: es, ?_⟩
      rw [Machine.run_cons, first, Option.bind_some, ran]
      unfold heard
      rw [later, waiting]
      simp [delivered, setNode]

/-- Hearing a list of messages makes the members that they announce. -/
theorem isUserInGroup_hear (msgs : List ServerMessage) (node : Node) (t g u : String) :
    (msgs.foldl Node.handleMessage node).registry.isUserInGroup t g u = true ↔
      node.registry.isUserInGroup t g u = true ∨ ∃ msg ∈ msgs, msg.Announces t g u := by
  induction msgs generalizing node with
  | nil => simp
  | cons msg rest ih =>
      have one : (node.handleMessage msg).registry.isUserInGroup t g u = true ↔
          node.registry.isUserInGroup t g u = true ∨ msg.Announces t g u := by
        rw [ConnectionRegistry.isUserInGroup_eq, groups_handleMessage]
        split
        · rename_i join
          rw [← ConnectionRegistry.isUserInGroup_eq, ConnectionRegistry.isUserInGroup_joinGroup,
            Bool.or_eq_true, decide_eq_true_eq, or_comm]
          unfold ServerMessage.Announces
          simp only [join, true_and, @eq_comm _ t, @eq_comm _ g, @eq_comm _ u]
        · rename_i other
          rw [← ConnectionRegistry.isUserInGroup_eq]
          exact (or_iff_left fun announces => other announces.1).symm
      rw [List.foldl_cons, ih, one, or_assoc]
      simp

theorem member_heard (s : Cluster N) (n : N) (t g u : String) :
    (s.heard n).member n t g u = true ↔
      s.member n t g u = true ∨ ∃ msg ∈ s.streams n, msg.Announces t g u := by
  have node : (s.heard n).nodes n = (s.streams n).foldl Node.handleMessage (s.nodes n) :=
    nodes_setNode s n _
  unfold member
  rw [node]
  exact isUserInGroup_hear _ _ t g u

theorem heard_setSocket (s : Cluster N) (n : N) (id : ConnectionId) (socket : Socket N) :
    (s.setSocket id socket).heard n = (s.heard n).setSocket id socket := rfl

end Heard

/-! ### Frames one at a time -/

/-- A frame of a user and the choices of its handling. -/
structure Frame where
  identity : Identity
  text : TextFrame
  choices : ℕ → Choice

/-- A `JOIN`, `LEAVE` or `CREATE` of a group other than `general`. -/
def Frame.onGroup (frame : Frame) : Bool :=
  match frame.text.command with
  | some (.delete, _) => false
  | some (_, g) => g ≠ "general"
  | none => false

/-- Every statement of a handler goes through, unless the database itself rejects it. -/
def statementsPass {N : Type} [DecidableEq N] (n : N) :
    Handler Unit → (ℕ → Choice) → Cluster N → Bool
  | .ret _, _, _ => true
  | .call op next, choices, s => (!op.isStatement || (choices 0).ok) &&
      statementsPass n (next (s.perform n (choices 0) op).1) (fun i => choices (i + 1))
        (s.perform n (choices 0) op).2

theorem statementsPass_parseOrNew {N : Type} [DecidableEq N] (n : N) (groupId : String)
    (f : Uuid → Handler Unit) (choices : ℕ → Choice) (s : Cluster N) :
    statementsPass n (parseOrNew groupId >>= f) choices s =
      statementsPass n (f (conversationOf groupId choices)) (afterParse groupId choices) s := by
  unfold parseOrNew conversationOf afterParse
  cases parseUuid groupId <;> rfl

/-- The state after a frame was handled and the listener heard what it published. -/
def handled (state : AppState) (s : Cluster Unit) (frame : Frame) : Cluster Unit :=
  (finish () (handleTextMessage frame.text frame.identity state) frame.choices s).heard ()

/-- Group frames one after the other. -/
def groupFrames (state : AppState) : Machine (Cluster Unit) Frame where
  step s frame :=
    if frame.onGroup && statementsPass () (handleTextMessage frame.text frame.identity state)
        frame.choices s then
      some (s.handled state frame)
    else none

/-- Sent by a connection of the user that has nothing else to do, the frame is a run of the
cluster. -/
theorem run_handled (state : AppState) {s : Cluster Unit} {frame : Frame} {id : ConnectionId}
    {handling : Option TextFrame} {value : Unit}
    (idle : s.sockets id = some ⟨(), frame.identity, true, handling, .ret value⟩) :
    ∃ es : List (Event Unit), (machine Unit state).run s (.frame id frame.text :: es) =
      some ((s.handled state frame).setSocket id
        ⟨(), frame.identity, true, some frame.text, .ret ()⟩) := by
  obtain ⟨es, ran⟩ := run_frame state frame.text frame.choices idle
  obtain ⟨fs, heard⟩ := run_heard state ((finish () (handleTextMessage frame.text frame.identity
    state) frame.choices s).setSocket id ⟨(), frame.identity, true, some frame.text, .ret ()⟩) ()
  refine ⟨es ++ fs, ?_⟩
  rw [← List.cons_append, Machine.run_append, ran, Option.bind_some, heard, heard_setSocket]
  rfl

/-- What a frame announces it has done on its own node before. -/
theorem member_handled (state : AppState) {s : Cluster Unit} (quiet : s.streams () = [])
    (frame : Frame) (t g u : String) : (s.handled state frame).member () t g u =
      (operations () (handleTextMessage frame.text frame.identity state) frame.choices s).foldl
        (memberAfter t g u) (s.member () t g u) := by
  rw [← member_finish, Bool.eq_iff_iff]
  unfold handled
  rw [member_heard]
  refine or_iff_left_of_imp ?_
  rintro ⟨msg, mem, announces⟩
  rcases mem_streams_finish () _ s mem with old | ⟨channel, published⟩
  · rw [quiet] at old
    simp at old
  · have own := forall_operations () _ s (ofFrame_handleTextMessage _ _ state) _ published
    obtain ⟨join, rfl, rfl, rfl⟩ := announces
    have command := (own.2.2.2 join).2
    rw [handleTextMessage_join _ _ state command] at published ⊢
    rw [member_finish, operations_handleJoin]
    rw [operations_handleJoin] at published
    cases found : (s.perform () (frame.choices 0)
        (.selectGroup frame.identity.tenantId msg.channelId)).1 with
    | none =>
        rw [found] at published
        simp at published
    | some id => simp [memberAfter, own.2.1, own.2.2.1]

/-- New ids make nobody a member. -/
theorem fold_newIds (groupId t g u : String) (before : Bool) :
    (newIds groupId).foldl (memberAfter t g u) before = before := by
  unfold newIds
  split <;> rfl

/-! ### Agreement -/

/-- The registry and the tables agree on who is in which group. -/
def Agree (s : Cluster Unit) : Prop := s.db.Mirrors (s.member ())

/-- The frame keeps the agreement: a `JOIN` of a group that is there is by a user whose name can
be stored, and the conversation of a `LEAVE` is that of its group and of no other group that
the user is in. -/
def MatchesRows (s : Cluster Unit) (frame : Frame) : Prop :=
  match frame.text.command with
  | some (.join, g) => (∃ id, s.db.GroupStored frame.identity.tenantId g id) →
      Storable frame.identity.userId
  | some (.leave, g) => ∀ t' g', g' ≠ "general" →
      s.member () t' g' frame.identity.userId = true →
      (s.db.GroupStored t' g' (conversationOf g frame.choices) ↔
        t' = frame.identity.tenantId ∧ g' = g)
  | _ => True

/-- Between two frames: the tables meet their constraints and agree with the registry, and the
listener has nothing left. -/
structure Consistent (s : Cluster Unit) : Prop where
  schema : s.db.Schema
  agree : s.Agree
  quiet : s.streams () = []

/-- Nothing is stored and nobody is in. -/
theorem agree_start (messages : List MessageRow) : (start ⟨messages, [], []⟩).Agree := by
  intro t g u _
  refine iff_of_false Bool.false_ne_true ?_
  rintro ⟨id, ⟨row, mem, _⟩, _⟩
  exact List.not_mem_nil mem

section Frames

variable {state : AppState} {s : Cluster Unit} {frame : Frame} {g : String}

theorem schema_handled (schema : s.db.Schema) : (s.handled state frame).db.Schema := by
  have toEnd : ∀ (task : Handler Unit) choices (s : Cluster Unit), s.db.Schema →
      (finish () task choices s).db.Schema := by
    intro task
    induction task with
    | ret value => exact fun _ _ schema => schema
    | call op next ih => exact fun choices s schema => ih _ _ _ (schema_perform () _ op schema)
  exact toEnd _ _ s schema

/-- The members when a user was added. -/
def added (s : Cluster Unit) (t g u : String) : String → String → String → Bool :=
  fun t' g' u' => decide (t' = t ∧ g' = g ∧ u' = u) || s.member () t' g' u'

/-- The members when a user was taken out. -/
def removed (s : Cluster Unit) (t g u : String) : String → String → String → Bool :=
  fun t' g' u' => !decide (t' = t ∧ g' = g ∧ u' = u) && s.member () t' g' u'

section Outcome

variable (quiet : s.streams () = [])
  (pass : statementsPass () (handleTextMessage frame.text frame.identity state) frame.choices s)

include quiet pass

/-- A `JOIN` does nothing, or joins the group and lists the user in its conversation. -/
theorem handled_join (join : frame.text.command = some (.join, g)) :
    (s.db.selectGroup frame.identity.tenantId g = none ∧ (s.handled state frame).db = s.db ∧
      (s.handled state frame).member () = s.member ()) ∨
    ∃ id, s.db.selectGroup frame.identity.tenantId g = some id ∧
      (s.handled state frame).db = (s.db.insertGroupMember id frame.identity.tenantId
        frame.identity.userId (frame.choices 1).dbTime).getD s.db ∧
      (s.handled state frame).member () = s.added frame.identity.tenantId g frame.identity.userId := by
  have members := member_handled state quiet frame
  have tables : (s.handled state frame).db =
      (finish () (handleTextMessage frame.text frame.identity state) frame.choices s).db := rfl
  rw [handleTextMessage_join _ _ state join] at pass members tables
  rw [handleJoin_eq, statementsPass] at pass
  obtain ⟨selects, later⟩ := Bool.and_eq_true_iff.mp pass
  have select : (frame.choices 0).ok = true := selects
  have answer : (s.perform () (frame.choices 0) (.selectGroup frame.identity.tenantId g)).1 =
      s.db.selectGroup frame.identity.tenantId g := if_pos select
  rw [answer] at later
  rw [db_handleJoin, if_pos select] at tables
  simp only [operations_handleJoin, answer] at members
  cases found : s.db.selectGroup frame.identity.tenantId g with
  | none =>
      rw [found] at tables members
      exact .inl ⟨rfl, tables, funext₃ members⟩
  | some id =>
      rw [found] at tables members later
      obtain ⟨inserts, _⟩ := Bool.and_eq_true_iff.mp later
      have insert : (frame.choices 1).ok = true := inserts
      simp only [insert, if_true] at tables
      exact .inr ⟨id, rfl, tables, funext₃ members⟩

/-- A `LEAVE` leaves the group and takes the user out of a conversation. -/
theorem handled_leave (leave : frame.text.command = some (.leave, g)) :
    (s.handled state frame).db = (s.db.deleteGroupMember (conversationOf g frame.choices)
      frame.identity.userId).getD s.db ∧
    (s.handled state frame).member () =
      s.removed frame.identity.tenantId g frame.identity.userId := by
  have members := member_handled state quiet frame
  have tables : (s.handled state frame).db =
      (finish () (handleTextMessage frame.text frame.identity state) frame.choices s).db := rfl
  rw [handleTextMessage_leave _ _ state leave] at pass members tables
  rw [handleLeave_eq, statementsPass_parseOrNew] at pass
  obtain ⟨deletes, _⟩ := Bool.and_eq_true_iff.mp pass
  have delete : (afterParse g frame.choices 0).ok = true := deletes
  rw [db_handleLeave, if_pos delete] at tables
  refine ⟨tables, funext₃ fun t g' u => ?_⟩
  rw [members, operations_handleLeave, List.foldl_append, fold_newIds]
  rfl

/-- A `CREATE` does nothing, or stores the group, lists the user and joins the group. -/
theorem handled_create (create : frame.text.command = some (.create, g)) :
    ((s.handled state frame).db = s.db ∧ (s.handled state frame).member () = s.member ()) ∨
    ∃ id db now now', s.db.upsertGroup (conversationOf g frame.choices) frame.identity.tenantId g
        frame.identity.userId now = some (id, db) ∧
      (s.handled state frame).db = (db.insertGroupMember id frame.identity.tenantId
        frame.identity.userId now').getD db ∧
      (s.handled state frame).member () =
        s.added frame.identity.tenantId g frame.identity.userId := by
  have members := member_handled state quiet frame
  have tables : (s.handled state frame).db =
      (finish () (handleTextMessage frame.text frame.identity state) frame.choices s).db := rfl
  rw [handleTextMessage_create _ _ state create] at pass members tables
  rw [handleCreate_eq, statementsPass_parseOrNew] at pass
  obtain ⟨upserts, later⟩ := Bool.and_eq_true_iff.mp pass
  have upsert : (afterParse g frame.choices 0).ok = true := upserts
  rw [db_handleCreate, if_pos upsert] at tables
  simp only [operations_handleCreate, List.foldl_append, fold_newIds, perform, upsert, if_true]
    at members later
  cases upserted : s.db.upsertGroup (conversationOf g frame.choices) frame.identity.tenantId g
      frame.identity.userId (afterParse g frame.choices 0).dbTime with
  | none =>
      rw [upserted] at tables members
      exact .inl ⟨tables, funext₃ members⟩
  | some created =>
      obtain ⟨id, db⟩ := created
      rw [upserted] at tables members later
      obtain ⟨inserts, _⟩ := Bool.and_eq_true_iff.mp later
      have insert : (afterParse g frame.choices 1).ok = true := inserts
      simp only [insert, if_true] at tables
      exact .inr ⟨id, db, _, _, upserted, tables,
        funext₃ members⟩

end Outcome

/-- A `JOIN` keeps the agreement unless it joins a user whose name cannot be stored. -/
theorem agree_join_iff (inv : Consistent s) (join : frame.text.command = some (.join, g))
    (other : g ≠ "general")
    (pass : statementsPass () (handleTextMessage frame.text frame.identity state) frame.choices s) :
    (s.handled state frame).Agree ↔
      ((∃ id, s.db.GroupStored frame.identity.tenantId g id) → Storable frame.identity.userId) := by
  unfold Agree
  rcases handled_join inv.quiet pass join with ⟨none, db, member⟩ | ⟨id, found, db, member⟩
  · rw [db, member]
    refine iff_of_true inv.agree ?_
    rintro ⟨id, stored⟩
    rw [inv.schema.selectGroup_iff.mpr stored] at none
    simp at none
  · have stored := inv.schema.selectGroup_iff.mp found
    rw [db, member]
    constructor
    · intro agree _
      by_contra unstorable
      have fails : s.db.insertGroupMember id frame.identity.tenantId frame.identity.userId
          (frame.choices 1).dbTime = none := by
        unfold Database.insertGroupMember
        exact if_pos fun texts => unstorable texts.2
      rw [fails, Option.getD_none] at agree
      have joined : s.added frame.identity.tenantId g frame.identity.userId frame.identity.tenantId
          g frame.identity.userId = true := by simp [added]
      obtain ⟨x, _, listed⟩ := (agree _ _ _ other).mp joined
      exact unstorable (inv.schema.storable_of_member listed)
    · intro storable
      obtain ⟨db', inserted⟩ := Database.exists_insertGroupMember
        (inv.schema.storable_of_group stored).1 (storable ⟨id, stored⟩) stored.exists_row
        (frame.choices 1).dbTime
      rw [inserted, Option.getD_some]
      exact inv.agree.insert inv.schema stored inserted

/-- A `LEAVE` keeps the agreement when its conversation is that of its group, among the groups
that the user is in. -/
theorem agree_leave_iff (inv : Consistent s) (leave : frame.text.command = some (.leave, g))
    (pass : statementsPass () (handleTextMessage frame.text frame.identity state) frame.choices s) :
    (s.handled state frame).Agree ↔ ∀ t' g', g' ≠ "general" →
      s.member () t' g' frame.identity.userId = true →
      (s.db.GroupStored t' g' (conversationOf g frame.choices) ↔
        t' = frame.identity.tenantId ∧ g' = g) := by
  obtain ⟨db, member⟩ := handled_leave inv.quiet pass leave
  unfold Agree
  rw [db, member]
  by_cases storable : Storable frame.identity.userId
  · obtain ⟨db', deleted⟩ : ∃ db', s.db.deleteGroupMember (conversationOf g frame.choices)
        frame.identity.userId = some db' := ⟨_, if_pos storable⟩
    rw [deleted]
    exact inv.agree.delete_iff inv.schema deleted
  · -- A user whose name cannot be stored is in no group, and leaves none.
    have outside : ∀ t' g', g' ≠ "general" → s.member () t' g' frame.identity.userId = false := by
      intro t' g' other
      by_contra inside
      obtain ⟨x, _, listed⟩ := (inv.agree t' g' _ other).mp (Bool.not_eq_false _ ▸ inside)
      exact storable (inv.schema.storable_of_member listed)
    have fails : s.db.deleteGroupMember (conversationOf g frame.choices)
        frame.identity.userId = none := if_neg storable
    rw [fails, Option.getD_none]
    refine iff_of_true (fun t' g' u' other => ?_) fun t' g' other inside => ?_
    · rw [← inv.agree t' g' u' other]
      unfold removed
      by_cases own : t' = frame.identity.tenantId ∧ g' = g ∧ u' = frame.identity.userId
      · rw [own.2.2, outside t' g' other, Bool.and_false]
      · rw [decide_eq_false own, Bool.not_false, Bool.true_and]
    · rw [outside t' g' other] at inside
      simp at inside

/-- A `CREATE` keeps the agreement. -/
theorem agree_create (inv : Consistent s) (create : frame.text.command = some (.create, g))
    (pass : statementsPass () (handleTextMessage frame.text frame.identity state) frame.choices s) :
    (s.handled state frame).Agree := by
  unfold Agree
  rcases handled_create inv.quiet pass create with ⟨db, member⟩ |
    ⟨id, db, now, now', upserted, db', member⟩
  · rw [db, member]
    exact inv.agree
  · obtain ⟨rfl, texts, _⟩ := Database.upsertGroup_cases upserted
    have stored := (inv.schema.groupStored_upsert upserted frame.identity.tenantId g _).mpr
      (by rw [if_pos ⟨rfl, rfl⟩])
    obtain ⟨db'', inserted⟩ := Database.exists_insertGroupMember texts.1 texts.2.2
      stored.exists_row now'
    rw [db', member, inserted, Option.getD_some]
    exact (inv.agree.upsert inv.schema upserted).insert (inv.schema.upsertGroup upserted) stored
      inserted

/-- A frame keeps the agreement exactly when it matches the rows. -/
theorem agree_handled_iff (inv : Consistent s) (group : frame.onGroup = true)
    (pass : statementsPass () (handleTextMessage frame.text frame.identity state) frame.choices s) :
    (s.handled state frame).Agree ↔ s.MatchesRows frame := by
  unfold Frame.onGroup at group
  unfold MatchesRows
  cases command : frame.text.command with
  | none => simp [command] at group
  | some pair =>
      obtain ⟨kind, g⟩ := pair
      cases kind with
      | join =>
          have other : g ≠ "general" := by simpa [command] using group
          exact agree_join_iff inv command other pass
      | leave => exact agree_leave_iff inv command pass
      | create => exact iff_of_true (agree_create inv command pass) trivial
      | delete => simp [command] at group

/-- Whatever a frame does, the tables meet their constraints after it and its echoes are
heard. -/
theorem Consistent.handled (inv : Consistent s) (agree : (s.handled state frame).Agree) :
    Consistent (s.handled state frame) where
  schema := schema_handled inv.schema
  agree := agree
  quiet := by simp [Cluster.handled, heard]

end Frames

/-- From an agreement of registry and tables, over any sequence of `JOIN`, `LEAVE` and `CREATE`
frames of any users on groups other than `general`, with every statement going through unless
the database rejects it and every echo heard before the next frame: the two agree after each
frame exactly when each frame matches the rows. -/
theorem agree_along_iff (state : AppState) {s : Cluster Unit} (schema : s.db.Schema)
    (agree : s.Agree) (quiet : s.streams () = []) (frames : List Frame) :
    (groupFrames state).Along Agree s frames ↔ (groupFrames state).Steps MatchesRows s frames := by
  have taken : ∀ s frame s', (groupFrames state).step s frame = some s' →
      (frame.onGroup = true ∧ statementsPass () (handleTextMessage frame.text frame.identity state)
        frame.choices s = true) ∧ s' = s.handled state frame := by
    intro s frame s' next
    simp only [groupFrames] at next
    split at next
    · rename_i allowed
      exact ⟨Bool.and_eq_true_iff.mp allowed, (Option.some.inj next).symm⟩
    · simp at next
  have inv : Consistent s := ⟨schema, agree, quiet⟩
  refine Machine.along_iff_steps (fun _ now => now.agree) ?_ ?_ inv frames
  · intro s frame s' inv ok next
    obtain ⟨⟨group, pass⟩, rfl⟩ := taken s frame s' next
    exact inv.handled ((agree_handled_iff inv group pass).mpr ok)
  · intro s frame s' inv next agree
    obtain ⟨⟨group, pass⟩, rfl⟩ := taken s frame s' next
    exact (agree_handled_iff inv group pass).mp agree

/-- One user creates a group that is named by the text of its id, another one joins and leaves
it: the row of the leaver is gone. -/
theorem agree_along_create_join :
    let state : AppState := ⟨true, fun _ => 0⟩
    let choices : ℕ → Choice := fun i => ⟨7, BitVec.ofNat 128 (i + 9), true, 7⟩
    let g := "00000000-0000-0000-0000-000000000005"
    let frames : List Frame :=
      [⟨⟨"acme", "bob"⟩, ⟨some ⟨.create, "acme", g, "bob"⟩, none⟩, choices⟩,
        ⟨⟨"acme", "ada"⟩, ⟨some ⟨.join, "acme", g, "ada"⟩, none⟩, choices⟩,
        ⟨⟨"acme", "ada"⟩, ⟨some ⟨.leave, "acme", g, "ada"⟩, none⟩, choices⟩]
    (∃ s, (groupFrames state).run (start ⟨[], [], []⟩) frames = some s ∧
      s.db.groupMembers = [⟨5, "acme", "bob", 7⟩]) ∧
      (groupFrames state).Along Agree (start ⟨[], [], []⟩) frames := by
  intro state choices g frames
  obtain ⟨s, ran, rows⟩ : ∃ s ∈ (groupFrames state).run (start ⟨[], [], []⟩) frames,
      s.db.groupMembers = [⟨5, "acme", "bob", 7⟩] := by decide
  refine ⟨⟨s, ran, rows⟩, ?_⟩
  refine (agree_along_iff state (Database.Schema.empty []) (agree_start []) rfl _).mpr ?_
  intro s created
  refine ⟨trivial, fun s' joined => ⟨fun _ => ?_, fun s'' left => ⟨?_, trivial⟩⟩⟩
  · decide
  · obtain ⟨both, entered, group⟩ : ∃ s ∈ (groupFrames state).run (start ⟨[], [], []⟩)
        (frames.take 2), s.db.groups = [⟨5, "acme", g, "bob", 7⟩] := by decide
    have same : (groupFrames state).run (start ⟨[], [], []⟩) (frames.take 2) = some s' :=
      Option.bind_eq_some_iff.mpr ⟨s, created, Option.bind_eq_some_iff.mpr ⟨s', joined, rfl⟩⟩
    obtain rfl := Option.some.inj (entered.symm.trans same)
    have conversation : conversationOf g choices = 5 := by decide
    intro t' g' _ _
    rw [conversation]
    constructor
    · rintro ⟨row, mem, rfl, rfl, _⟩
      rw [group, List.mem_singleton] at mem
      subst mem
      exact ⟨rfl, rfl⟩
    · rintro ⟨rfl, rfl⟩
      exact ⟨_, group ▸ List.mem_singleton_self _, rfl, rfl, rfl⟩

/-- A team that its only member creates and leaves: the new id of the `LEAVE` is not that of the
team, and the row stays. -/
theorem leave_keeps_row :
    ¬ ∀ (state : AppState) (s : Cluster Unit) (frames : List Frame), s.db.Schema → s.Agree →
      s.streams () = [] → (groupFrames state).Along Agree s frames := by
  intro always
  let state : AppState := ⟨true, fun _ => 0⟩
  let choices : ℕ → Choice := fun _ => ⟨7, 5, true, 7⟩
  let choices' : ℕ → Choice := fun _ => ⟨7, 9, true, 7⟩
  let frames : List Frame :=
    [⟨⟨"acme", "bob"⟩, ⟨some ⟨.create, "acme", "team", "bob"⟩, none⟩, choices⟩,
      ⟨⟨"acme", "bob"⟩, ⟨some ⟨.leave, "acme", "team", "bob"⟩, none⟩, choices'⟩]
  obtain ⟨s, ran, out, group, row⟩ : ∃ s ∈ (groupFrames state).run (start ⟨[], [], []⟩) frames,
      s.member () "acme" "team" "bob" = false ∧
      s.db.groups = [⟨5, "acme", "team", "bob", 7⟩] ∧
      s.db.groupMembers = [⟨5, "acme", "bob", 7⟩] := by decide
  have agree := (always state _ frames (Database.Schema.empty []) (agree_start []) rfl).last ran
  have there := (agree "acme" "team" "bob" (by decide)).mpr
    ⟨5, ⟨_, group ▸ List.mem_singleton_self _, rfl, rfl, rfl⟩,
      ⟨_, row ▸ List.mem_singleton_self _, rfl, rfl⟩⟩
  rw [out] at there
  simp at there

end Cluster

end YappaCore
