import Mathlib.Data.List.Infix
import YappaCore.Connection

/-!
The Pub/Sub side of `src/redis/mod.rs`: the channels a message is published on, the two
patterns a listener subscribes to, and the listener's handling of one payload.

A subscriber gets a published payload once for each of its patterns that the channel
matches: once for either kind of channel, whatever the ids in its name
(`copies_userChannel`, `copies_groupChannel`). The listener routes by the fields of the
message alone, so the channel says nothing about where a message goes.
-/

namespace YappaCore

/-! ### Channels and patterns -/

/-- The channel of `publish`. -/
def userChannel (tenantId userId : String) : String := "user:" ++ tenantId ++ ":" ++ userId

/-- The channel of `publish_grp`. -/
def groupChannel (groupId : String) : String := "group:" ++ groupId

/-- The patterns of `psubscribe`. -/
def patterns : List String := ["user:*:*", "group:*"]

/-- A channel matches a pattern, where `*` stands for any text. -/
def globMatch : List Char → List Char → Bool
  | [], text => text.isEmpty
  | c :: pattern, text =>
      if c = '*' then text.tails.any (globMatch pattern)
      else
        match text with
        | [] => false
        | d :: text => c = d && globMatch pattern text

/-- How many times a subscriber gets a payload published on a channel. -/
def copies (channel : String) : Nat :=
  (patterns.filter fun pattern => globMatch pattern.toList channel.toList).length

theorem globMatch_star (pattern text : List Char) :
    globMatch ('*' :: pattern) text = text.tails.any (globMatch pattern) := by
  simp [globMatch]

/-- A literal start of a pattern is matched by itself only. -/
theorem globMatch_literal {literal : List Char} (plain : '*' ∉ literal)
    (pattern text : List Char) :
    globMatch (literal ++ pattern) (literal ++ text) = globMatch pattern text := by
  induction literal with
  | nil => rfl
  | cons c rest ih =>
      have first : c ≠ '*' := fun same => plain (same ▸ List.mem_cons_self)
      have later : '*' ∉ rest := fun mem => plain (List.mem_cons_of_mem c mem)
      simp [globMatch, first, ih later]

/-- A closing star matches everything. -/
theorem globMatch_star_nil (text : List Char) : globMatch ['*'] text = true := by
  rw [globMatch_star, List.any_eq_true]
  exact ⟨[], (List.mem_tails _ _).mpr List.nil_suffix, rfl⟩

theorem globMatch_star_append {pattern text : List Char} (matches_ : globMatch pattern text = true)
    (skipped : List Char) : globMatch ('*' :: pattern) (skipped ++ text) = true := by
  rw [globMatch_star, List.any_eq_true]
  exact ⟨text, (List.mem_tails _ _).mpr (List.suffix_append skipped text), matches_⟩

/-- A payload on a user's channel reaches a subscriber once. -/
theorem copies_userChannel (tenantId userId : String) : copies (userChannel tenantId userId) = 1 := by
  have user : globMatch "user:*:*".toList (userChannel tenantId userId).toList = true := by
    have text : (userChannel tenantId userId).toList =
        "user:".toList ++ (tenantId.toList ++ (":".toList ++ userId.toList)) := by
      simp [userChannel]
    have pattern : "user:*:*".toList = "user:".toList ++ '*' :: (":".toList ++ ['*']) := rfl
    rw [text, pattern, globMatch_literal (by decide)]
    refine globMatch_star_append ?_ _
    rw [globMatch_literal (by decide)]
    exact globMatch_star_nil _
  have group : globMatch "group:*".toList (userChannel tenantId userId).toList = false := by
    have text : (userChannel tenantId userId).toList =
        'u' :: ("ser:".toList ++ tenantId.toList ++ ":".toList ++ userId.toList) := by
      simp [userChannel]
    rw [text]
    rfl
  unfold copies patterns
  rw [List.filter_cons, user, if_pos rfl, List.filter_cons, group, if_neg (by decide)]
  rfl

/-- A payload on a group's channel reaches a subscriber once. -/
theorem copies_groupChannel (groupId : String) : copies (groupChannel groupId) = 1 := by
  have user : globMatch "user:*:*".toList (groupChannel groupId).toList = false := by
    have text : (groupChannel groupId).toList = 'g' :: ("roup:".toList ++ groupId.toList) := by
      simp [groupChannel]
    rw [text]
    rfl
  have group : globMatch "group:*".toList (groupChannel groupId).toList = true := by
    have text : (groupChannel groupId).toList = "group:".toList ++ groupId.toList := by
      simp [groupChannel]
    have pattern : "group:*".toList = "group:".toList ++ ['*'] := rfl
    rw [text, pattern, globMatch_literal (by decide)]
    exact globMatch_star_nil _
  unfold copies patterns
  rw [List.filter_cons, user, if_neg (by decide), List.filter_cons, group, if_pos rfl]
  rfl

/-! ### The listener -/

/-- What a subscriber receives: a text that parses as a `ServerMessage`, another text,
or bytes that are not UTF-8. -/
inductive Payload where
  | message (msg : ServerMessage)
  | otherText
  | notUtf8
deriving DecidableEq, Repr

/-- The body of the listener's loop for a parsed message. -/
def Node.handleMessage (node : Node) (serverMsg : ServerMessage) : Node :=
  let wsMsg := Message.json serverMsg
  if serverMsg.msgType = "group_join" then
    let joined := { node with
      registry :=
        node.registry.joinGroup serverMsg.tenantId serverMsg.channelId serverMsg.senderId }
    joined.sendMsgToGroup serverMsg.tenantId serverMsg.channelId wsMsg
  else
    match serverMsg.channelType with
    | .dm => node.sendMsgToUser serverMsg.tenantId serverMsg.channelId wsMsg
    | .group => node.sendMsgToGroup serverMsg.tenantId serverMsg.channelId wsMsg
    | .community => node.sendMsgToGroup serverMsg.tenantId serverMsg.channelId wsMsg

/-- One payload: the node after it, or the error that ends the loop. -/
def Node.listen (node : Node) : Payload → Except Unit Node
  | .message msg => .ok (node.handleMessage msg)
  | .otherText => .ok node
  | .notUtf8 => .error ()

section Listener

variable (node : Node) (msg : ServerMessage)

/-- Only a join changes the members that a delivery finds. -/
theorem groups_handleMessage : (node.handleMessage msg).registry.groups =
    if msg.msgType = "group_join" then
      (node.registry.joinGroup msg.tenantId msg.channelId msg.senderId).groups
    else node.registry.groups := by
  unfold Node.handleMessage
  by_cases join : msg.msgType = "group_join"
  · simp only [join, if_true]
    exact Node.groups_sendMsgToGroup _ _ _ _
  · simp only [join, if_false]
    cases msg.channelType with
    | dm => exact node.groups_sendMsgToUser _ _ _
    | group => exact node.groups_sendMsgToGroup _ _ _
    | community => exact node.groups_sendMsgToGroup _ _ _

/-- A delivery registers nobody. -/
theorem sender?_of_handleMessage {t u : String} {id : ConnectionId} {sender : SocketSender}
    (found : (node.handleMessage msg).registry.sender? t u id = some sender) :
    node.registry.sender? t u id = some sender := by
  unfold Node.handleMessage at found
  by_cases join : msg.msgType = "group_join"
  · simp only [join, if_true] at found
    have before := Node.sender?_of_sendMsgToGroup _ _ _ _ found
    exact before
  · simp only [join, if_false] at found
    cases kind : msg.channelType with
    | dm =>
        rw [kind] at found
        exact node.sender?_of_sendMsgToUser _ _ _ found
    | group =>
        rw [kind] at found
        exact node.sender?_of_sendMsgToGroup _ _ _ found
    | community =>
        rw [kind] at found
        exact node.sender?_of_sendMsgToGroup _ _ _ found

/-- A delivery adds copies of the message to a queue, and nothing else. -/
theorem queue_handleMessage (k : ConnectionId) :
    ∃ n, ((node.handleMessage msg).channels k).queue =
      (node.channels k).queue ++ List.replicate n (.json msg) := by
  unfold Node.handleMessage
  by_cases join : msg.msgType = "group_join"
  · simp only [join, if_true]
    exact Node.queue_sendMsgToGroup _ _ _ _ k
  · simp only [join, if_false]
    cases msg.channelType with
    | dm => exact node.queue_sendMsgToUser _ _ _ k
    | group => exact node.queue_sendMsgToGroup _ _ _ k
    | community => exact node.queue_sendMsgToGroup _ _ _ k

/-- A delivery reaches connections of the tenant only: those of the user that a direct
message names, and those of the members of the group at that moment. -/
theorem reaches_of_handleMessage {k : ConnectionId}
    (changed : (node.handleMessage msg).channels k ≠ node.channels k) :
    ∃ u, node.Reaches msg.tenantId u k ∧
      if msg.msgType = "group_join" ∨ msg.channelType ≠ .dm then
        (node.handleMessage msg).registry.isUserInGroup msg.tenantId msg.channelId u = true
      else u = msg.channelId := by
  have toGroup : ∀ sending : Node, sending.registry.inner = node.registry.inner →
      sending.channels = node.channels →
      (sending.sendMsgToGroup msg.tenantId msg.channelId (.json msg)).channels k ≠
        node.channels k →
      ∃ u, node.Reaches msg.tenantId u k ∧
        (sending.sendMsgToGroup msg.tenantId msg.channelId (.json msg)).registry.isUserInGroup
          msg.tenantId msg.channelId u = true := by
    intro sending inner channels changed
    by_contra none
    refine changed ((sending.channels_sendMsgToGroup _ _ _ fun user member reaches => ?_).trans
      (congrFun channels k))
    obtain ⟨id, sender, found, here⟩ := reaches
    refine none ⟨user, ⟨id, sender, ?_, here⟩, ?_⟩
    · unfold ConnectionRegistry.sender? at found ⊢
      rwa [← inner]
    · rw [ConnectionRegistry.isUserInGroup_eq, Node.groups_sendMsgToGroup,
        ← ConnectionRegistry.isUserInGroup_eq]
      exact member
  unfold Node.handleMessage at changed ⊢
  by_cases join : msg.msgType = "group_join"
  · simp only [join, if_true, true_or] at changed ⊢
    exact toGroup _ rfl rfl changed
  · simp only [join, if_false, false_or] at changed ⊢
    cases kind : msg.channelType with
    | dm =>
        simp only [kind, ne_eq, not_true_eq_false, if_false] at changed ⊢
        refine ⟨msg.channelId, ?_, rfl⟩
        by_contra other
        exact changed (node.channels_sendMsgToUser_of_not_reaches _ _ _ other)
    | group =>
        simp only [kind, ne_eq, reduceCtorEq, not_false_eq_true, if_true] at changed ⊢
        exact toGroup node rfl rfl changed
    | community =>
        simp only [kind, ne_eq, reduceCtorEq, not_false_eq_true, if_true] at changed ⊢
        exact toGroup node rfl rfl changed

end Listener

end YappaCore
