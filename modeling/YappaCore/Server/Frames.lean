import YappaCore.Server.Cluster

/-!
Whole frames: the handler of a frame run to its end on a node while nothing else happens,
each of its operations with a choice of its own.

`finish` is the state after, `operations` what was performed on the way, and `run_frame`
places both in the machine of the cluster: a frame handled without interruption is one of
its runs. `member_finish` reads the members after a frame off its operations, and the
equations `operations_handleJoin` and so on say what the handlers of group frames perform.

`published_by_member_iff`: a frame puts messages into groups of its sender only, except when
it is a `LEAVE` of a group that the sender is not in.
-/

namespace YappaCore

open Lib Handler

namespace Cluster

variable {N : Type} [DecidableEq N]

/-! ### Running a handler to its end -/

/-- The state after a handler ran to its end on a node. -/
def finish (n : N) : Handler Unit → (ℕ → Choice) → Cluster N → Cluster N
  | .ret _, _, s => s
  | .call op next, choices, s =>
      finish n (next (s.perform n (choices 0) op).1) (fun i => choices (i + 1))
        (s.perform n (choices 0) op).2

/-- The operations that it performed. -/
def operations (n : N) : Handler Unit → (ℕ → Choice) → Cluster N → List Effect
  | .ret _, _, _ => []
  | .call op next, choices, s =>
      op :: operations n (next (s.perform n (choices 0) op).1) (fun i => choices (i + 1))
        (s.perform n (choices 0) op).2

section Finish

variable (n : N) (choices : ℕ → Choice) (s : Cluster N)

@[simp] theorem finish_ret (value : Unit) : finish n (.ret value) choices s = s := rfl

@[simp] theorem finish_call (op : Effect) (next : op.Answer → Handler Unit) :
    finish n (.call op next) choices s =
      finish n (next (s.perform n (choices 0) op).1) (fun i => choices (i + 1))
        (s.perform n (choices 0) op).2 := rfl

@[simp] theorem operations_ret (value : Unit) : operations n (.ret value) choices s = [] := rfl

@[simp] theorem operations_call (op : Effect) (next : op.Answer → Handler Unit) :
    operations n (.call op next) choices s =
      op :: operations n (next (s.perform n (choices 0) op).1) (fun i => choices (i + 1))
        (s.perform n (choices 0) op).2 := rfl

/-- What always holds of a handler's operations holds of those it performs. -/
theorem forall_operations {P : Effect → Prop} {task : Handler Unit} (always : task.Always P) :
    ∀ op ∈ operations n task choices s, P op := by
  induction task generalizing choices s with
  | ret value => exact fun op mem => nomatch mem
  | call op next ih =>
      intro op' mem
      rcases List.mem_cons.mp mem with rfl | later
      · exact always.1
      · exact ih _ _ _ (always.2 _) op' later

/-- The members after a handler are those that its operations leave. -/
theorem member_finish (task : Handler Unit) (t g u : String) :
    (finish n task choices s).member n t g u =
      (operations n task choices s).foldl (memberAfter t g u) (s.member n t g u) := by
  induction task generalizing choices s with
  | ret value => rfl
  | call op next ih =>
      rw [finish_call, ih, operations_call, List.foldl_cons, member_perform, if_pos rfl]

/-- A message in a stream after a handler was there before or was published by it. -/
theorem mem_streams_finish {task : Handler Unit} {m : N} {msg : ServerMessage}
    (mem : msg ∈ (finish n task choices s).streams m) :
    msg ∈ s.streams m ∨ ∃ channel, .publish channel msg ∈ operations n task choices s := by
  induction task generalizing choices s with
  | ret value => exact .inl mem
  | call op next ih =>
      rcases ih _ _ _ mem with before | ⟨channel, later⟩
      · rcases mem_streams_perform s n (choices 0) op before with old | ⟨channel, rfl, _⟩
        · exact .inl old
        · exact .inr ⟨channel, List.mem_cons_self⟩
      · exact .inr ⟨channel, List.mem_cons_of_mem op later⟩

/-- What a handler does has nothing to do with the record of any connection. -/
theorem finish_setSocket (task : Handler Unit) (id : ConnectionId) (socket : Socket N) :
    finish n task choices (s.setSocket id socket) = (finish n task choices s).setSocket id socket := by
  have once : ∀ (choice : Choice) (op : Effect) (s : Cluster N),
      (s.setSocket id socket).perform n choice op =
        ((s.perform n choice op).1, (s.perform n choice op).2.setSocket id socket) := by
    intro choice op s
    cases op <;> simp only [perform, setSocket] <;> (try split) <;> rfl
  induction task generalizing choices s with
  | ret value => rfl
  | call op next ih => rw [finish_call, finish_call, once, ih]

omit [DecidableEq N] in
theorem setSocket_setSocket (id : ConnectionId) (first second : Socket N) :
    (s.setSocket id first).setSocket id second = s.setSocket id second := by
  unfold setSocket
  rw [Function.update_idem]

omit [DecidableEq N] in
theorem setSocket_self {s : Cluster N} {id : ConnectionId} {socket : Socket N}
    (found : s.sockets id = some socket) : s.setSocket id socket = s := by
  unfold setSocket
  rw [← found, Function.update_eq_self]

end Finish

/-- Uninterrupted, the rest of a handler is a run of the cluster. -/
theorem run_finish (state : AppState) {s : Cluster N} {id : ConnectionId} {n : N}
    {identity : Identity} {alive : Bool} {handling : Option TextFrame} (task : Handler Unit)
    (choices : ℕ → Choice)
    (busy : s.sockets id = some ⟨n, identity, alive, handling, task⟩) :
    ∃ es : List (Event N), (machine N state).run s es =
      some ((finish n task choices s).setSocket id ⟨n, identity, alive, handling, .ret ()⟩) := by
  induction task generalizing choices s with
  | ret value => exact ⟨[], congrArg some (setSocket_self busy).symm⟩
  | call op next ih =>
      have first : (machine N state).step s (.perform id (choices 0)) =
          some (s.performed id n identity alive handling (choices 0) op next) := by
        simp only [machine, step, busy]
      have later : (s.performed id n identity alive handling (choices 0) op next).sockets id =
          some ⟨n, identity, alive, handling, next (s.perform n (choices 0) op).1⟩ :=
        Function.update_self id _ _
      obtain ⟨es, ran⟩ := ih _ (fun i => choices (i + 1)) later
      refine ⟨.perform id (choices 0) :: es, ?_⟩
      rw [Machine.run_cons, first, Option.bind_some, ran, finish_call, performed, finish_setSocket,
        setSocket_setSocket]

/-- A frame that is handled without interruption is a run of the cluster. -/
theorem run_frame (state : AppState) {s : Cluster N} {id : ConnectionId} {n : N}
    {identity : Identity} {handling : Option TextFrame} {value : Unit} (text : TextFrame)
    (choices : ℕ → Choice)
    (idle : s.sockets id = some ⟨n, identity, true, handling, .ret value⟩) :
    ∃ es : List (Event N), (machine N state).run s (.frame id text :: es) =
      some ((finish n (handleTextMessage text identity state) choices s).setSocket id
        ⟨n, identity, true, some text, .ret ()⟩) := by
  have first : (machine N state).step s (.frame id text) = some (s.setSocket id
      ⟨n, identity, true, some text, handleTextMessage text identity state⟩) := by
    simp only [machine, step, idle]
  have busy : (s.setSocket id ⟨n, identity, true, some text,
      handleTextMessage text identity state⟩).sockets id =
      some ⟨n, identity, true, some text, handleTextMessage text identity state⟩ :=
    Function.update_self id _ s.sockets
  obtain ⟨es, ran⟩ := run_finish state _ choices busy
  refine ⟨es, ?_⟩
  rw [Machine.run_cons, first, Option.bind_some, ran, finish_setSocket, setSocket_setSocket]

/-! ### What the handlers of group frames perform -/

/-- The id of a group that `CREATE`, `LEAVE` and chats use: the one its name is the text of, or
a new one. -/
def conversationOf (groupId : String) (choices : ℕ → Choice) : Uuid :=
  (parseUuid groupId).getD (choices 0).uuid

/-- The new id that this takes. -/
def newIds (groupId : String) : List Effect :=
  match parseUuid groupId with
  | some _ => []
  | none => [.newV4]

theorem publish_notMem_newIds (groupId channel : String) (msg : ServerMessage) :
    Effect.publish channel msg ∉ newIds groupId := by
  unfold newIds
  split <;> simp

/-- The choices after it. -/
def afterParse (groupId : String) (choices : ℕ → Choice) : ℕ → Choice :=
  match parseUuid groupId with
  | some _ => choices
  | none => fun i => choices (i + 1)

section Handlers

variable (n : N) (choices : ℕ → Choice) (s : Cluster N) (state : AppState) (identity : Identity)
  (groupId : String)

theorem finish_parseOrNew (f : Uuid → Handler Unit) :
    finish n (parseOrNew groupId >>= f) choices s =
      finish n (f (conversationOf groupId choices)) (afterParse groupId choices) s := by
  unfold parseOrNew conversationOf afterParse
  cases parseUuid groupId <;> rfl

theorem operations_parseOrNew (f : Uuid → Handler Unit) :
    operations n (parseOrNew groupId >>= f) choices s = newIds groupId ++
      operations n (f (conversationOf groupId choices)) (afterParse groupId choices) s := by
  unfold parseOrNew conversationOf afterParse newIds
  cases parseUuid groupId <;> rfl

/-- A `JOIN` looks the group up and, if it is found, joins it and announces the join. -/
theorem operations_handleJoin : operations n (handleJoin identity groupId) choices s =
    .selectGroup identity.tenantId groupId ::
      match (s.perform n (choices 0) (.selectGroup identity.tenantId groupId)).1 with
      | none => []
      | some conversationId =>
          [.insertGroupMember conversationId identity.tenantId identity.userId,
            .joinGroup identity.tenantId groupId identity.userId, .newV4, .now,
            .publish (groupChannel groupId) (notice identity groupId "group_join" conversationId
              (identity.userId ++ " has joined the group") (choices 3).uuid (choices 4).time)] := by
  rw [handleJoin_eq, operations_call]
  cases (s.perform n (choices 0) (.selectGroup identity.tenantId groupId)).1 <;> rfl

/-- A `LEAVE` leaves the group and announces it, whether or not there is such a group. -/
theorem operations_handleLeave : operations n (handleLeave identity groupId) choices s =
    newIds groupId ++
      [.deleteGroupMember (conversationOf groupId choices) identity.userId,
        .leaveGroup identity.tenantId groupId identity.userId, .newV4, .now,
        .publish (groupChannel groupId) (notice identity groupId "group_leave"
          (conversationOf groupId choices) (identity.userId ++ " has left the group")
          (afterParse groupId choices 2).uuid (afterParse groupId choices 3).time)] := by
  rw [handleLeave_eq, operations_parseOrNew]
  rfl

/-- A `CREATE` inserts the group and, if that succeeds, joins it and announces it. -/
theorem operations_handleCreate : operations n (handleCreate identity groupId) choices s =
    newIds groupId ++
      .upsertGroup (conversationOf groupId choices) identity.tenantId groupId identity.userId ::
      match (s.perform n (afterParse groupId choices 0) (.upsertGroup
          (conversationOf groupId choices) identity.tenantId groupId identity.userId)).1 with
      | none => []
      | some conversationId =>
          [.insertGroupMember conversationId identity.tenantId identity.userId,
            .createGroup identity.tenantId groupId,
            .joinGroup identity.tenantId groupId identity.userId, .newV4, .now,
            .publish (groupChannel groupId) (notice identity groupId "group_created"
              conversationId ("Group " ++ groupId ++ " created by " ++ identity.userId)
              (afterParse groupId choices 4).uuid (afterParse groupId choices 5).time)] := by
  rw [handleCreate_eq, operations_parseOrNew, operations_call]
  cases (s.perform n (afterParse groupId choices 0) (.upsertGroup
    (conversationOf groupId choices) identity.tenantId groupId identity.userId)).1 <;> rfl

theorem operations_handleDelete : operations n (handleDelete identity groupId) choices s =
    [.deleteGroup identity.tenantId groupId] := rfl

/-! ### What the handlers of group frames do to the tables -/

/-- A `JOIN` lists the user in the conversation of the group that it found. -/
theorem db_handleJoin : (finish n (handleJoin identity groupId) choices s).db =
    match if (choices 0).ok then s.db.selectGroup identity.tenantId groupId else none with
    | none => s.db
    | some id =>
        (if (choices 1).ok then
          s.db.insertGroupMember id identity.tenantId identity.userId (choices 1).dbTime
        else none).getD s.db := by
  have found : (s.perform n (choices 0) (.selectGroup identity.tenantId groupId)).1 =
      if (choices 0).ok then s.db.selectGroup identity.tenantId groupId else none := rfl
  rw [handleJoin_eq, finish_call, found]
  cases if (choices 0).ok then s.db.selectGroup identity.tenantId groupId else none with
  | none => exact db_perform s n (choices 0) (.selectGroup identity.tenantId groupId)
  | some id => simp only [finish_call, finish_ret, db_perform]

/-- A `LEAVE` takes the user out of the conversation that the name is the text of, or out of a
new one. -/
theorem db_handleLeave : (finish n (handleLeave identity groupId) choices s).db =
    (if (afterParse groupId choices 0).ok then
      s.db.deleteGroupMember (conversationOf groupId choices) identity.userId
    else none).getD s.db := by
  rw [handleLeave_eq, finish_parseOrNew]
  simp only [finish_call, finish_ret, db_perform]

/-- A `CREATE` stores the group and lists the user in its conversation. -/
theorem db_handleCreate : (finish n (handleCreate identity groupId) choices s).db =
    match if (afterParse groupId choices 0).ok then
      s.db.upsertGroup (conversationOf groupId choices) identity.tenantId groupId identity.userId
        (afterParse groupId choices 0).dbTime else none with
    | none => s.db
    | some (id, db) =>
        (if (afterParse groupId choices 1).ok then
          db.insertGroupMember id identity.tenantId identity.userId
            (afterParse groupId choices 1).dbTime
        else none).getD db := by
  rw [handleCreate_eq, finish_parseOrNew, finish_call]
  simp only [perform]
  cases if (afterParse groupId choices 0).ok then
      s.db.upsertGroup (conversationOf groupId choices) identity.tenantId groupId identity.userId
        (afterParse groupId choices 0).dbTime else none with
  | none => rfl
  | some created => simp only [finish_call, finish_ret, db_perform]

theorem db_handleDelete : (finish n (handleDelete identity groupId) choices s).db = s.db := rfl

/-! ### What is published -/

/-- Messages are persisted without being published. -/
theorem always_persistMessage (msg : ServerMessage) :
    (persistMessage state msg).Always fun op => ∀ channel m, op ≠ .publish channel m := by
  rw [persistMessage_eq]
  split
  · exact ⟨fun _ _ => by simp, fun _ => trivial⟩
  · exact ⟨fun _ _ => by simp, fun _ => trivial⟩

/-- A direct message is published as one. -/
theorem always_handleDm {payload : WsMessage} (dm : payload.channelType = .dm) :
    (handleDm state identity payload).Always fun op =>
      ∀ channel m, op = .publish channel m → m.channelType = .dm := by
  have type : ∀ messageId timestamp,
      (dmMessage state identity payload messageId timestamp).channelType = .dm :=
    fun _ _ => dm
  have persist := always_persistMessage state
  rw [handleDm_eq]
  refine ⟨by simp, fun messageId => ⟨by simp, fun timestamp => ⟨?_, fun _ => ⟨?_, fun _ => ?_⟩⟩⟩⟩
  · rintro channel m same
    injection same with _ same
    exact same ▸ type messageId timestamp
  · rintro channel m same
    injection same with _ same
    exact same ▸ type messageId timestamp
  · exact (persist _).mono fun op other channel m same => absurd same (other channel m)

/-- A chat goes to its group, and only from a member. -/
theorem operations_handleGroupChat (payload : WsMessage) :
    ∀ channel m, .publish channel m ∈ operations n (handleGroupChat state identity payload) choices s →
      m.channelId = payload.userId ∧
        s.member n identity.tenantId payload.userId identity.userId = true := by
  intro channel m mem
  rw [handleGroupChat_eq, operations_call] at mem
  rcases List.mem_cons.mp mem with same | later
  · simp at same
  · have answer : (s.perform n (choices 0)
        (.isUserInGroup identity.tenantId payload.userId identity.userId)).1 =
        s.member n identity.tenantId payload.userId identity.userId := rfl
    rw [answer] at later
    cases member : s.member n identity.tenantId payload.userId identity.userId with
    | false =>
        rw [member] at later
        simp at later
    | true =>
        rw [member] at later
        simp only [operations_call, operations_parseOrNew, List.mem_cons, List.mem_append] at later
        rcases later with same | same | new | same | persisted
        · simp at same
        · simp at same
        · unfold newIds at new
          split at new <;> simp at new
        · injection same with _ same
          exact ⟨same ▸ rfl, rfl⟩
        · exact absurd rfl (forall_operations n _ _ (always_persistMessage state _) _ persisted
            channel m)

end Handlers

/-! ### Who publishes to a group -/

section Publish

variable (n : N) (choices : ℕ → Choice) (s : Cluster N) (state : AppState) (identity : Identity)
  (text : TextFrame)

/-- Every group message that the handling of a frame publishes is for a group that its
sender is a member of on that node, right before the frame or right after it. -/
def PublishesAsMember : Prop :=
  ∀ channel m, .publish channel m ∈ operations n (handleTextMessage text identity state) choices s →
    m.channelType ≠ .dm →
    s.member n identity.tenantId m.channelId identity.userId = true ∨
    (finish n (handleTextMessage text identity state) choices s).member n identity.tenantId
      m.channelId identity.userId = true

variable {n choices s state identity text}

/-- The joins that are announced are in force when the frame is done. -/
theorem publishesAsMember_join {g : String} (join : text.command = some (.join, g)) :
    PublishesAsMember n choices s state identity text := by
  intro channel m mem _
  rw [handleTextMessage_join text identity state join] at mem ⊢
  rw [member_finish, operations_handleJoin]
  rw [operations_handleJoin] at mem
  cases found : (s.perform n (choices 0) (.selectGroup identity.tenantId g)).1 with
  | none =>
      rw [found] at mem
      simp at mem
  | some conversationId =>
      rw [found] at mem
      have published : m.channelId = g := by
        simp only [List.mem_cons, reduceCtorEq, false_or, List.not_mem_nil, or_false] at mem
        injection mem with _ same
        exact same ▸ rfl
      right
      rw [published]
      simp [memberAfter]

theorem publishesAsMember_create {g : String} (create : text.command = some (.create, g)) :
    PublishesAsMember n choices s state identity text := by
  intro channel m mem _
  rw [handleTextMessage_create text identity state create] at mem ⊢
  rw [member_finish, operations_handleCreate]
  rw [operations_handleCreate] at mem
  have silent := publish_notMem_newIds g channel m
  cases created : (s.perform n (afterParse g choices 0) (.upsertGroup
      (conversationOf g choices) identity.tenantId g identity.userId)).1 with
  | none =>
      rw [created] at mem
      simp [silent] at mem
  | some conversationId =>
      rw [created] at mem
      have published : m.channelId = g := by
        simp only [List.mem_append, silent, List.mem_cons, reduceCtorEq, false_or,
          List.not_mem_nil, or_false] at mem
        injection mem with _ same
        exact same ▸ rfl
      right
      rw [published, List.foldl_append]
      simp [memberAfter]

/-- A `LEAVE` is announced to the group whether or not its sender was in it. -/
theorem publishesAsMember_leave_iff {g : String} (leave : text.command = some (.leave, g)) :
    PublishesAsMember n choices s state identity text ↔
      s.member n identity.tenantId g identity.userId = true := by
  unfold PublishesAsMember
  simp only [handleTextMessage_leave text identity state leave, member_finish,
    operations_handleLeave]
  constructor
  · intro published
    rcases published (groupChannel g) _
      (List.mem_append_right _ (.tail _ (.tail _ (.tail _ (.tail _ (.head _))))))
      (by simp [notice]) with before | after
    · exact before
    · simp [notice, memberAfter] at after
  · intro member channel m mem _
    have own : m.channelId = g := by
      simp only [List.mem_append, publish_notMem_newIds, List.mem_cons, reduceCtorEq, false_or,
        List.not_mem_nil, or_false] at mem
      injection mem with _ same
      exact same ▸ rfl
    rw [own]
    exact .inl member

/-- A `DELETE` publishes nothing. -/
theorem publishesAsMember_delete {g : String} (delete : text.command = some (.delete, g)) :
    PublishesAsMember n choices s state identity text := by
  intro channel m mem _
  rw [handleTextMessage_command text identity state delete] at mem
  simp [operations_handleDelete] at mem

/-- A chat is published after its sender was found in the group. -/
theorem publishesAsMember_chat (noCommand : text.command = none) :
    PublishesAsMember n choices s state identity text := by
  have noGroup : text.groupMessage = none := by
    simpa [TextFrame.command] using noCommand
  intro channel m mem group
  unfold handleTextMessage at mem
  simp only [noGroup] at mem
  cases chat : text.wsMessage with
  | none =>
      simp only [chat] at mem
      exact absurd mem List.not_mem_nil
  | some payload =>
      simp only [chat] at mem
      split at mem
      · exact absurd mem (by simp [Handler.perform, Prog.perform])
      · cases type : payload.channelType with
        | dm =>
            simp only [type] at mem
            exact absurd (forall_operations n choices s (always_handleDm state identity type)
              _ mem channel m rfl) group
        | group | community =>
            simp only [type] at mem
            obtain ⟨own, member⟩ :=
              operations_handleGroupChat n choices s state identity payload channel m mem
            exact .inl (own ▸ member)

/-- The group messages that a frame publishes are for groups that its sender is a member of,
right before or right after, exactly when it is not a `LEAVE` of a group that the sender is
not in. -/
theorem published_by_member_iff : PublishesAsMember n choices s state identity text ↔
    ∀ g, text.command = some (.leave, g) →
      s.member n identity.tenantId g identity.userId = true := by
  constructor
  · exact fun published g leave => (publishesAsMember_leave_iff leave).mp published
  · intro leaves
    cases command : text.command with
    | none => exact publishesAsMember_chat command
    | some pair =>
        obtain ⟨kind, g⟩ := pair
        cases kind with
        | join => exact publishesAsMember_join command
        | leave => exact (publishesAsMember_leave_iff command).mpr (leaves g command)
        | create => exact publishesAsMember_create command
        | delete => exact publishesAsMember_delete command

/-- A user who never joined the team leaves it, and the team is told. -/
theorem leave_published_by_stranger :
    ¬ ∀ (state : AppState) (db : Database) (es : List (Event Unit)) (s : Cluster Unit)
      (identity : Identity) (text : TextFrame) (choices : ℕ → Choice),
      (machine Unit state).run (start db) es = some s →
      PublishesAsMember () choices s state identity text := by
  intro always
  let state : AppState := ⟨true, fun _ => 0⟩
  let db : Database := ⟨[], [⟨5, "acme", "team", "ada", 0⟩], []⟩
  let es : List (Event Unit) := [.connect 1 () ⟨"acme", "bob"⟩, .perform 1 ⟨7, 9, true, 7⟩]
  let text : TextFrame := ⟨some ⟨.leave, "acme", "team", "bob"⟩, none⟩
  obtain ⟨s, ran, stranger⟩ : ∃ s ∈ (machine Unit state).run (start db) es,
      s.member () "acme" "team" "bob" = false := by decide
  have published := always state db es s ⟨"acme", "bob"⟩ text (fun _ => ⟨7, 9, true, 7⟩) ran
  have member := (publishesAsMember_leave_iff rfl).mp published
  rw [stranger] at member
  simp at member

end Publish

end Cluster

end YappaCore
