import Mathlib.Data.List.TakeWhile
import YappaCore.Connection.Levels
import YappaCore.Redis.Listener

/-!
`RedisManager::listener` on a stream of payloads. A text that is no message is skipped; a payload
that is not UTF-8 leaves the loop, which `app::run` starts once.

`listener_eq_valid_iff`: a stream does to the registry and the queues what its messages alone do
if and only if those behind the first payload that is not UTF-8 find nobody to go to. A handled
message that finds somebody cannot be undone by later ones: queues only grow, users only go and
members only come (`Advances`).
-/

namespace YappaCore

open Lib

/-! ### The loop -/

/-- `listener` on the payloads of a stream: the node that it leaves. -/
def Node.listener (node : Node) : List Payload → Node
  | [] => node
  | payload :: rest =>
      match node.listen payload with
      | .ok node => node.listener rest
      | .error () => node

namespace Payload

/-- The message of a payload that is one. -/
def message? : Payload → Option ServerMessage
  | .message msg => some msg
  | _ => none

def isMessage (payload : Payload) : Bool := payload.message?.isSome

end Payload

/-- The node once the messages among some payloads are handled. -/
def Node.handleAll (node : Node) (stream : List Payload) : Node :=
  (stream.filterMap Payload.message?).foldl Node.handleMessage node

/-- The loop handles the messages up to the first payload that is not UTF-8. -/
theorem Node.listener_eq (node : Node) (stream : List Payload) :
    node.listener stream = node.handleAll (stream.takeWhile (· ≠ .notUtf8)) := by
  induction stream generalizing node with
  | nil => rfl
  | cons payload rest ih =>
      cases payload with
      | message msg => exact ih (node.handleMessage msg)
      | otherText => exact ih node
      | notUtf8 => rfl

theorem Node.listener_valid (node : Node) (stream : List Payload) :
    node.listener (stream.filter Payload.isMessage) = node.handleAll stream := by
  induction stream generalizing node with
  | nil => rfl
  | cons payload rest ih =>
      cases payload with
      | message msg => exact ih (node.handleMessage msg)
      | otherText => exact ih node
      | notUtf8 => exact ih node

theorem Node.handleAll_append (node : Node) (first second : List Payload) :
    node.handleAll (first ++ second) = (node.handleAll first).handleAll second := by
  unfold handleAll
  rw [List.filterMap_append, List.foldl_append]

/-! ### What a node holds -/

/-- What is found in two maps of maps, and the channels. -/
structure Contents where
  inner : String → Option (String → Option (ConnectionId → Option SocketSender))
  groups : String → Option (String → Option (String → Option Unit))
  channels : Channels

/-- What is found in a map of maps. -/
def readings {κ κ' κ'' V : Type} [DecidableEq κ] [DecidableEq κ'] [DecidableEq κ'']
    (table : Table κ (Table κ' (Table κ'' V))) : κ → Option (κ' → Option (κ'' → Option V)) :=
  fun key => (table.lookup key).map fun inner key' =>
    (inner.lookup key').map fun leaf key'' => leaf.lookup key''

def Node.contents (node : Node) : Contents :=
  ⟨readings node.registry.inner, readings node.registry.groups, node.channels⟩

section Readings

variable {κ κ' κ'' V : Type} [DecidableEq κ] [DecidableEq κ'] [DecidableEq κ'']
  (table : Table κ (Table κ' (Table κ'' V))) (key : κ) (key' : κ') (key'' : κ'')

theorem isSome_readings : ((readings table key).bind fun inner => inner key').isSome =
    ((table.lookup key).bind fun inner => inner.lookup key').isSome := by
  unfold readings
  cases table.lookup key with
  | none => rfl
  | some inner => exact Option.isSome_map

theorem bind_readings :
    ((readings table key).bind fun inner => (inner key').bind fun leaf => leaf key'') =
      (table.lookup key).bind fun inner =>
        (inner.lookup key').bind fun leaf => leaf.lookup key'' := by
  unfold readings
  cases table.lookup key with
  | none => rfl
  | some inner =>
      rw [Option.map_some, Option.bind_some, Option.bind_some, Option.bind_map]
      rfl

end Readings

/-- There is an entry of the user. -/
def Node.HasUser (node : Node) (tenantId userId : String) : Prop :=
  (node.registry.user? tenantId userId).isSome = true

instance (node : Node) (tenantId userId : String) : Decidable (node.HasUser tenantId userId) := by
  unfold Node.HasUser; infer_instance

section Same

variable {node node' : Node} (same : node.contents = node'.contents)

include same

theorem hasUser_congr (t u : String) : node.HasUser t u ↔ node'.HasUser t u := by
  have inner : readings node.registry.inner = readings node'.registry.inner :=
    congrArg Contents.inner same
  unfold Node.HasUser ConnectionRegistry.user?
  rw [← isSome_readings, ← isSome_readings, inner]

theorem isUserInGroup_congr (t g u : String) :
    node.registry.isUserInGroup t g u = node'.registry.isUserInGroup t g u := by
  have groups : readings node.registry.groups = readings node'.registry.groups :=
    congrArg Contents.groups same
  rw [ConnectionRegistry.isUserInGroup_eq, ConnectionRegistry.isUserInGroup_eq, ← bind_readings,
    ← bind_readings, groups]

end Same

/-! ### Nothing is undone -/

/-- Queues grow, users go and members come. -/
structure Advances (node node' : Node) : Prop where
  queues : ∀ k, (node.channels k).queue.length ≤ (node'.channels k).queue.length
  users : ∀ t u, node'.HasUser t u → node.HasUser t u
  members : ∀ t g u, node.registry.isUserInGroup t g u = true →
    node'.registry.isUserInGroup t g u = true

/-- One of these happened. -/
inductive Progress (node node' : Node) : Prop where
  | queued (k : ConnectionId)
      (longer : (node.channels k).queue.length < (node'.channels k).queue.length)
  | dropped (t u : String) (was : node.HasUser t u) (gone : ¬ node'.HasUser t u)
  | joined (t g u : String) (new : ¬ node.registry.isUserInGroup t g u = true)
      (now : node'.registry.isUserInGroup t g u = true)

variable {node next node' : Node}

theorem Advances.refl (node : Node) : Advances node node :=
  ⟨fun _ => le_rfl, fun _ _ => id, fun _ _ _ => id⟩

theorem Advances.trans (first : Advances node next) (second : Advances next node') :
    Advances node node' where
  queues k := (first.queues k).trans (second.queues k)
  users t u := first.users t u ∘ second.users t u
  members t g u := second.members t g u ∘ first.members t g u

theorem Advances.progress (first : Advances node next) (second : Progress next node') :
    Progress node node' := by
  cases second with
  | queued k longer => exact .queued k ((first.queues k).trans_lt longer)
  | dropped t u was gone => exact .dropped t u (first.users t u was) gone
  | joined t g u new now => exact .joined t g u (new ∘ first.members t g u) now

theorem Progress.advances (first : Progress node next) (second : Advances next node') :
    Progress node node' := by
  cases first with
  | queued k longer => exact .queued k (longer.trans_le (second.queues k))
  | dropped t u was gone => exact .dropped t u was (gone ∘ second.users t u)
  | joined t g u new now => exact .joined t g u new (second.members t g u now)

/-- Progress shows in the contents. -/
theorem Progress.contents_ne (progress : Progress node node') : node'.contents ≠ node.contents := by
  intro same
  cases progress with
  | queued k longer =>
      have queue := congrFun (congrArg Contents.channels same) k
      change node'.channels k = node.channels k at queue
      rw [queue] at longer
      exact lt_irrefl _ longer
  | dropped t u was gone => exact gone ((hasUser_congr same t u).mpr was)
  | joined t g u new now => exact new ((isUserInGroup_congr same t g u).symm.trans now)

/-! ### Sends -/

/-- A channel that accepts gets longer, whatever connections share it. -/
theorem queue_fanOut_lt (msg : Message) {entries : List ((_ : ConnectionId) × SocketSender)}
    {entry : (_ : ConnectionId) × SocketSender} (mem : entry ∈ entries) {channels : Channels}
    (accepts : (channels entry.2.channel).Accepts) :
    (channels entry.2.channel).queue.length <
      ((fanOut msg entries channels).1 entry.2.channel).queue.length := by
  induction entries generalizing channels with
  | nil => simp at mem
  | cons first rest ih =>
      unfold fanOut
      split
      · rename_i sent taken
        by_cases here : entry.2.channel = first.2.channel
        · obtain ⟨sent', taken', _, queue⟩ := Channel.trySend_of_accepts accepts msg
          rw [here, taken] at taken'
          obtain rfl := Except.ok.inj taken'
          obtain ⟨n, grown⟩ := fanOut_queue msg rest
            (Function.update channels first.2.channel sent) entry.2.channel
          rw [grown, here, Function.update_self, queue, here]
          simp only [List.length_append, List.length_singleton, List.length_replicate]
          omega
        · have same : Function.update channels first.2.channel sent entry.2.channel =
              channels entry.2.channel := Function.update_of_ne here _ _
          have later : entry ∈ rest := (List.mem_cons.mp mem).resolve_left fun equal =>
            here (equal ▸ rfl)
          have longer := ih later (same.symm ▸ accepts)
          rwa [same] at longer
      · rename_i error refused
        have later : entry ∈ rest := by
          refine (List.mem_cons.mp mem).resolve_left fun equal => ?_
          obtain ⟨sent, taken, _⟩ := Channel.trySend_of_accepts (equal ▸ accepts) msg
          rw [refused] at taken
          simp at taken
        exact ih later accepts

namespace Node

section User

variable (node : Node) (tenantId userId : String) (msg : Message)

/-- The users after a send to one. -/
theorem hasUser_sendMsgToUser {t u : String}
    (found : (node.sendMsgToUser tenantId userId msg).HasUser t u) : node.HasUser t u := by
  obtain ⟨order, sent⟩ := node.exists_sendMsgToUserIn tenantId userId msg
  rcases Node.sendMsgToUserIn_cases sent with
    ⟨same, _⟩ | ⟨users, connections, kept, tenant, user, _, _, _, inner⟩
  · rwa [same] at found
  · unfold HasUser ConnectionRegistry.user? at found ⊢
    rw [inner, Table.lookup_insert_eq] at found
    split at found
    · rename_i own
      rw [own, tenant, Option.bind_some]
      rw [Option.bind_some] at found
      by_cases there : u = userId
      · rw [there, user]
        rfl
      · split at found
        · rwa [Table.lookup_erase_eq, if_neg there] at found
        · rwa [Table.lookup_insert_eq, if_neg there] at found
    · exact found

theorem advances_sendMsgToUser : Advances node (node.sendMsgToUser tenantId userId msg) := by
  refine ⟨fun k => ?_, fun t u => node.hasUser_sendMsgToUser tenantId userId msg,
    fun t g u member => ?_⟩
  · obtain ⟨n, queue⟩ := node.queue_sendMsgToUser tenantId userId msg k
    rw [queue, List.length_append]
    exact Nat.le_add_right _ _
  · rwa [ConnectionRegistry.isUserInGroup_eq, groups_sendMsgToUser,
      ← ConnectionRegistry.isUserInGroup_eq]

variable {node tenantId userId}

/-- Without an entry of the user nothing happens. -/
theorem sendMsgToUser_of_not_hasUser (absent : ¬ node.HasUser tenantId userId) :
    node.sendMsgToUser tenantId userId msg = node := by
  obtain ⟨order, sent⟩ := node.exists_sendMsgToUserIn tenantId userId msg
  rcases Node.sendMsgToUserIn_cases sent with ⟨same, _⟩ | ⟨users, connections, _, tenant, user, _⟩
  · exact same
  · refine absurd ?_ absent
    unfold HasUser ConnectionRegistry.user?
    rw [tenant, Option.bind_some, user]
    rfl

/-- With one, a queue gets longer or the entry goes. -/
theorem progress_sendMsgToUser (present : node.HasUser tenantId userId) :
    Progress node (node.sendMsgToUser tenantId userId msg) := by
  obtain ⟨order, sent⟩ := node.exists_sendMsgToUserIn tenantId userId msg
  rcases Node.sendMsgToUserIn_cases sent with
    ⟨_, absent⟩ | ⟨users, connections, kept, tenant, user, perm, left, channels, inner⟩
  · unfold HasUser at present
    rw [absent] at present
    simp at present
  · by_cases accepting : ∃ entry ∈ order, (node.channels entry.2.channel).Accepts
    · obtain ⟨entry, mem, accepts⟩ := accepting
      refine .queued entry.2.channel ?_
      rw [channels]
      exact queue_fanOut_lt msg mem accepts
    · have distinct : (order.map (·.1)).Nodup :=
        (perm.map _).nodup_iff.mpr connections.keys_nodup
      have stale : ∀ entry ∈ order, entry.1 ∈ (fanOut msg order node.channels).2 := by
        by_contra fresh
        push Not at fresh
        exact accepting ((exists_not_stale msg distinct node.channels).mp fresh)
      have nothing : kept.entries.isEmpty = true := by
        by_contra some
        obtain ⟨id, found⟩ :=
          ConnectionRegistry.exists_lookup (Bool.eq_false_of_not_eq_true some)
        rw [left, Table.lookup_eraseAll] at found
        split at found
        · simp at found
        · rename_i fresh
          obtain ⟨sender, there⟩ := Option.isSome_iff_exists.mp found
          exact fresh (stale ⟨id, sender⟩
            (perm.mem_iff.mpr ((Table.mem_entries_iff id connections).mpr there)))
      refine .dropped tenantId userId present fun still => ?_
      unfold HasUser ConnectionRegistry.user? at still
      rw [inner, if_pos nothing, Table.lookup_insert_eq, if_pos rfl, Option.bind_some,
        Table.lookup_erase_eq, if_pos rfl] at still
      simp at still

end User

section Users

variable {node : Node} {tenantId : String} (msg : Message) {users : List String}

theorem advances_foldl (node : Node) (tenantId : String) (users : List String) :
    Advances node (users.foldl (fun node userId => node.sendMsgToUser tenantId userId msg) node) := by
  induction users generalizing node with
  | nil => exact .refl node
  | cons user rest ih => exact (node.advances_sendMsgToUser tenantId user msg).trans (ih _)

theorem foldl_of_not_hasUser (absent : ∀ user ∈ users, ¬ node.HasUser tenantId user) :
    users.foldl (fun node userId => node.sendMsgToUser tenantId userId msg) node = node := by
  induction users with
  | nil => rfl
  | cons user rest ih =>
      rw [List.foldl_cons, sendMsgToUser_of_not_hasUser msg (absent user List.mem_cons_self)]
      exact ih fun other mem => absent other (List.mem_cons_of_mem _ mem)

theorem progress_foldl {user : String} (mem : user ∈ users) (present : node.HasUser tenantId user) :
    Progress node
      (users.foldl (fun node userId => node.sendMsgToUser tenantId userId msg) node) := by
  induction users with
  | nil => simp at mem
  | cons first rest ih =>
      by_cases here : node.HasUser tenantId first
      · exact (progress_sendMsgToUser msg here).advances (advances_foldl msg _ tenantId rest)
      · rw [List.foldl_cons, sendMsgToUser_of_not_hasUser msg here]
        refine ih ((List.mem_cons.mp mem).resolve_left fun same => ?_)
        exact here (same ▸ present)

end Users

/-! ### Messages -/

/-- The message is fanned out to the user. -/
def Addresses (node : Node) (msg : ServerMessage) (userId : String) : Prop :=
  if msg.ToGroup then node.registry.isUserInGroup msg.tenantId msg.channelId userId = true
  else userId = msg.channelId

/-- The message finds nobody: no entry of a user it is fanned out to, and its join is of a
member. -/
structure Ignores (node : Node) (msg : ServerMessage) : Prop where
  join : msg.msgType = "group_join" →
    node.registry.isUserInGroup msg.tenantId msg.channelId msg.senderId = true
  absent : ∀ user, node.Addresses msg user → ¬ node.HasUser msg.tenantId user

/-- The node after the join of a message, if it is one. -/
def join (node : Node) (msg : ServerMessage) : Node :=
  if msg.msgType = "group_join" then
    { node with
      registry := node.registry.joinGroup msg.tenantId msg.channelId msg.senderId }
  else node

/-- A message is a join and sends to the users it is fanned out to then. -/
theorem handleMessage_eq (node : Node) (msg : ServerMessage) :
    ∃ users : List String, (∀ user, user ∈ users ↔ (node.join msg).Addresses msg user) ∧
      node.handleMessage msg = users.foldl
        (fun node userId => node.sendMsgToUser msg.tenantId userId (.json msg))
        (node.join msg) := by
  have members := fun user =>
    (node.join msg).registry.mem_members msg.tenantId msg.channelId user
  unfold handleMessage Addresses
  by_cases joins : msg.msgType = "group_join"
  · have toGroup : msg.ToGroup := .inl joins
    have joined : node.join msg = { node with
        registry := node.registry.joinGroup msg.tenantId msg.channelId msg.senderId } :=
      if_pos joins
    simp only [joins, if_true, toGroup]
    exact ⟨_, members, joined ▸ rfl⟩
  · have same : node.join msg = node := if_neg joins
    rw [same] at members ⊢
    simp only [joins, if_false]
    cases kind : msg.channelType with
    | dm =>
        have direct : ¬ msg.ToGroup := fun either => either.elim joins fun other => other kind
        simp only [direct, if_false]
        exact ⟨[msg.channelId], fun user => List.mem_singleton, rfl⟩
    | group =>
        have toGroup : msg.ToGroup := .inr (by rw [kind]; decide)
        simp only [toGroup, if_true]
        exact ⟨_, members, rfl⟩
    | community =>
        have toGroup : msg.ToGroup := .inr (by rw [kind]; decide)
        simp only [toGroup, if_true]
        exact ⟨_, members, rfl⟩

section Message

variable {node node' : Node} {msg : ServerMessage}

theorem ignores_congr (same : node.contents = node'.contents) :
    node.Ignores msg ↔ node'.Ignores msg := by
  have addresses : ∀ user, node.Addresses msg user ↔ node'.Addresses msg user := by
    intro user
    unfold Addresses
    rw [isUserInGroup_congr same]
  constructor
  · intro ignores
    refine ⟨fun joins => ?_, fun user addressed => ?_⟩
    · rw [← isUserInGroup_congr same]
      exact ignores.join joins
    · rw [← hasUser_congr same]
      exact ignores.absent user ((addresses user).mpr addressed)
  · intro ignores
    refine ⟨fun joins => ?_, fun user addressed => ?_⟩
    · rw [isUserInGroup_congr same]
      exact ignores.join joins
    · rw [hasUser_congr same]
      exact ignores.absent user ((addresses user).mp addressed)

/-- The join of a member changes nothing that is found. -/
theorem contents_join (member : msg.msgType = "group_join" →
      node.registry.isUserInGroup msg.tenantId msg.channelId msg.senderId = true) :
    (node.join msg).contents = node.contents := by
  unfold join
  split
  · rename_i joins
    have found := member joins
    rw [ConnectionRegistry.isUserInGroup_eq] at found
    obtain ⟨_, found⟩ := Option.isSome_iff_exists.mp found
    obtain ⟨groups, tenant, found⟩ := Option.bind_eq_some_iff.mp found
    obtain ⟨members, group, own⟩ := Option.bind_eq_some_iff.mp found
    have same : readings (node.registry.joinGroup msg.tenantId msg.channelId msg.senderId).groups =
        readings node.registry.groups := by
      funext t
      unfold readings ConnectionRegistry.joinGroup
      rw [Table.lookup_upsert, tenant, Option.getD_some]
      split
      · rename_i sameTenant
        rw [sameTenant, tenant, Option.map_some, Option.map_some]
        congr 1
        funext g
        rw [Table.lookup_upsert, group, Option.getD_some]
        split
        · rename_i sameGroup
          rw [sameGroup, group, Option.map_some, Option.map_some]
          congr 1
          funext u
          rw [Table.lookup_insert_eq]
          split
          · rename_i sameUser
            rw [sameUser, own]
          · rfl
        · rfl
      · rfl
    unfold contents
    rw [same]
    rfl
  · rfl

theorem advances_join (node : Node) (msg : ServerMessage) : Advances node (node.join msg) := by
  unfold join
  split
  · refine ⟨fun _ => le_rfl, fun _ _ => id, fun t g u member => ?_⟩
    rw [ConnectionRegistry.isUserInGroup_joinGroup, member, Bool.or_true]
  · exact .refl node

theorem advances_handleMessage (node : Node) (msg : ServerMessage) :
    Advances node (node.handleMessage msg) := by
  obtain ⟨users, _, handled⟩ := node.handleMessage_eq msg
  rw [handled]
  exact (node.advances_join msg).trans (advances_foldl _ _ _ users)

/-- A message that finds nobody changes nothing that is found. -/
theorem contents_of_ignores (ignores : node.Ignores msg) :
    (node.handleMessage msg).contents = node.contents := by
  have joined := contents_join ignores.join
  obtain ⟨users, addressed, handled⟩ := node.handleMessage_eq msg
  rw [handled, foldl_of_not_hasUser _ fun user mem => ?_, joined]
  exact ((ignores_congr joined).mpr ignores).absent user ((addressed user).mp mem)

/-- A message that finds somebody does something. -/
theorem progress_of_not_ignores (finds : ¬ node.Ignores msg) :
    Progress node (node.handleMessage msg) := by
  obtain ⟨users, addressed, handled⟩ := node.handleMessage_eq msg
  rw [handled]
  by_cases member : msg.msgType = "group_join" →
      node.registry.isUserInGroup msg.tenantId msg.channelId msg.senderId = true
  · have joined := contents_join member
    have some : ∃ user, (node.join msg).Addresses msg user ∧
        (node.join msg).HasUser msg.tenantId user := by
      by_contra nobody
      push Not at nobody
      refine finds ((ignores_congr joined).mp ⟨fun joins => ?_, nobody⟩)
      rw [isUserInGroup_congr joined]
      exact member joins
    obtain ⟨user, there, present⟩ := some
    exact (node.advances_join msg).progress
      (progress_foldl _ ((addressed user).mpr there) present)
  · obtain ⟨joins, new⟩ := Classical.not_imp.mp member
    refine Progress.advances (.joined msg.tenantId msg.channelId msg.senderId new ?_)
      (advances_foldl _ _ _ users)
    unfold join
    rw [if_pos joins, ConnectionRegistry.isUserInGroup_joinGroup]
    simp

end Message

/-- Messages leave the contents as they are if and only if all of them find nobody. -/
theorem contents_foldl_iff (node : Node) (msgs : List ServerMessage) :
    (msgs.foldl handleMessage node).contents = node.contents ↔ ∀ msg ∈ msgs, node.Ignores msg := by
  induction msgs generalizing node with
  | nil => simp
  | cons msg rest ih =>
      have advances : ∀ (msgs : List ServerMessage) (node : Node),
          Advances node (msgs.foldl handleMessage node) := by
        intro msgs
        induction msgs with
        | nil => exact .refl
        | cons msg rest ih => exact fun node => (node.advances_handleMessage msg).trans (ih _)
      rw [List.foldl_cons, List.forall_mem_cons]
      by_cases ignores : node.Ignores msg
      · have same := contents_of_ignores ignores
        rw [← same, ih]
        simp only [ignores, true_and, ignores_congr same]
      · refine iff_of_false ?_ fun both => ignores both.1
        exact ((progress_of_not_ignores ignores).advances (advances rest _)).contents_ne

end Node

/-! ### Streams -/

/-- The listener leaves the same after a stream as after its messages alone if and only if every
message behind the first payload that is not UTF-8 finds nobody at the node as it is when that
payload comes. -/
theorem listener_eq_valid_iff (node : Node) (stream : List Payload) :
    (node.listener stream).contents = (node.listener (stream.filter Payload.isMessage)).contents ↔
      ∀ msg, .message msg ∈ stream.dropWhile (· ≠ .notUtf8) →
        (node.handleAll (stream.takeWhile (· ≠ .notUtf8))).Ignores msg := by
  have parts : stream.takeWhile (· ≠ .notUtf8) ++ stream.dropWhile (· ≠ .notUtf8) = stream :=
    List.takeWhile_append_dropWhile
  have messages : ∀ msg, msg ∈ (stream.dropWhile (· ≠ .notUtf8)).filterMap Payload.message? ↔
      Payload.message msg ∈ stream.dropWhile (· ≠ .notUtf8) := by
    intro msg
    rw [List.mem_filterMap]
    constructor
    · rintro ⟨payload, mem, own⟩
      cases payload with
      | message other =>
          obtain rfl := Option.some.inj own
          exact mem
      | otherText => simp [Payload.message?] at own
      | notUtf8 => simp [Payload.message?] at own
    · exact fun mem => ⟨_, mem, rfl⟩
  have whole : node.handleAll stream =
      (node.handleAll (stream.takeWhile (· ≠ .notUtf8))).handleAll
        (stream.dropWhile (· ≠ .notUtf8)) := by
    rw [← Node.handleAll_append, parts]
  rw [node.listener_eq, node.listener_valid, whole, eq_comm]
  refine (Node.contents_foldl_iff _ _).trans ?_
  simp only [messages]

/-- A direct message behind a payload that is not UTF-8 is not delivered. -/
theorem listener_stops :
    ¬ ∀ (node : Node) (stream : List Payload),
      (node.listener stream).contents =
        (node.listener (stream.filter Payload.isMessage)).contents := by
  intro same
  let node : Node :=
    ⟨ConnectionRegistry.new.insert ⟨"acme", "bob"⟩ 1 ⟨1⟩, fun _ => .new⟩
  let msg : ServerMessage :=
    { msgType := "chat", messageId := 1, tenantId := "acme", channelType := .dm
      channelId := "bob", senderId := "ada", timestamp := 1739280000, conversationId := 0
      payload := ⟨"hi", "\x7b\x7d"⟩ }
  have queues := congrArg (fun contents => (contents.channels 1).queue)
    (same node [.notUtf8, .message msg])
  exact absurd queues (by decide)

/-- A stream of texts, whatever they are, is handled to its end. -/
theorem listener_eq_valid (node : Node) {stream : List Payload} (utf8 : .notUtf8 ∉ stream) :
    node.listener stream = node.listener (stream.filter Payload.isMessage) := by
  have all : stream.takeWhile (· ≠ .notUtf8) = stream :=
    List.takeWhile_eq_self_iff.mpr fun payload mem =>
      decide_eq_true fun same => utf8 (same ▸ mem)
  rw [node.listener_eq, node.listener_valid, all]

end YappaCore
