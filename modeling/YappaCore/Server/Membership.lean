import YappaCore.Server.Delivery

/-!
What the nodes hold of a group's members. A `JOIN` reaches every node: its handler publishes
what every listener turns into a member. `LEAVE`, `CREATE` and `DELETE` change one node
only.

`Has` is a member or a join that is coming to a node. While each operation of a handler is
`Replicated`, all nodes have the same (`Stepped.agree`), so they hold the same members when
nothing is in flight; and where a `LEAVE` finds nobody else with the member and no join on
its way, the user is `Gone` until it joins again (`Stepped.gone_step`). `members_agree` is the two
together, over runs.
-/

namespace YappaCore

open Lib Handler

namespace Cluster

variable {N : Type}

/-! ### Joins on their way -/

/-- A join that a node will handle: it is in the node's stream, or a handler is bound to
publish it. -/
def Coming (s : Cluster N) (n : N) (t g u : String) : Prop :=
  (∃ msg ∈ s.streams n, msg.Announces t g u) ∨
  ∃ id socket, s.sockets id = some socket ∧
    socket.task.Must (fun _ _ => True) (Effect.Announces t g u)

/-- A node has a member, or will. -/
def Has (s : Cluster N) (n : N) (t g u : String) : Prop :=
  s.member n t g u = true ∨ s.Coming n t g u

/-- A join that was made and that a node may yet handle: it is in the node's stream, or a
handler may publish it without joining first. -/
def Unsettled (s : Cluster N) (n : N) (t g u : String) : Prop :=
  (∃ msg ∈ s.streams n, msg.Announces t g u) ∨
  ∃ id socket, s.sockets id = some socket ∧
    ¬ socket.task.Before (· = .joinGroup t g u) (Effect.Announces t g u)

/-- No node has the member, and no join that was made is on its way. -/
def Gone (s : Cluster N) (t g u : String) : Prop :=
  ∀ n, s.member n t g u = false ∧ ¬ s.Unsettled n t g u

/-- No message is in flight and no handler is running. -/
def Quiescent (s : Cluster N) : Prop :=
  (∀ n, s.streams n = []) ∧ ∀ id socket, s.sockets id = some socket → socket.task = .ret ()

/-! ### Which operations leave all nodes with the same members -/

/-- An operation of a connection's handler does to all nodes what it does to its own: a
`CREATE` joins a user that all other nodes have; a `LEAVE` is of a user that no other node
has and that no join made before brings back; each member that a `DELETE` removes is on no
other node, or comes back. -/
def Replicated (s : Cluster N) (socket : Socket N) : Effect → Prop
  | .joinGroup t g u => g ≠ "general" →
      socket.handling.bind TextFrame.command = some (.create, g) →
      ∀ m, m ≠ socket.node → s.Has m t g u
  | .leaveGroup t g u => g ≠ "general" →
      ∀ m, ¬ s.Unsettled m t g u ∧ (m ≠ socket.node → s.member m t g u = false)
  | .deleteGroup t g => g ≠ "general" → ∀ u, s.member socket.node t g u = true →
      s.Coming socket.node t g u ∨ ∀ m, m ≠ socket.node → ¬ s.Has m t g u
  | _ => True

/-- The operation of an event is `Replicated`. -/
def InStep (s : Cluster N) : Event N → Prop
  | .perform id _ => ∀ socket op next, s.sockets id = some socket →
      socket.task = .call op next → s.Replicated socket op
  | _ => True

/-- Statements and publishes succeed, and handlers run to their end. -/
def Undisturbed (s : Cluster N) : Event N → Prop
  | .perform _ choice => choice.ok = true
  | .abort id => ∀ socket, s.sockets id = some socket → socket.task = .ret ()
  | _ => True

/-! ### Handlers -/

/-- A publish reaches every listener once. -/
def Effect.OnceEach : Effect → Prop
  | .publish channel _ => copies channel = 1
  | _ => True

/-- What all handlers have: each publish reaches every listener, and except in a `CREATE` a
join is announced. -/
structure Announcing (handling : Option TextFrame) (task : Handler Unit) : Prop where
  once : task.Always Effect.OnceEach
  announced : ∀ t g u, g ≠ "general" →
    handling.bind TextFrame.command ≠ some (.create, g) →
    task.Followed (fun _ _ => True) (· = .joinGroup t g u) (Effect.Announces t g u)

theorem announcing_handleTextMessage (text : TextFrame) (identity : Identity)
    (state : AppState) : Announcing (some text) (handleTextMessage text identity state) where
  once := by
    refine (ofFrame_handleTextMessage text identity state).mono fun op own => ?_
    cases op with
    | publish channel msg => exact own.1
    | _ => trivial
  announced := fun t g u _ other => followed_handleTextMessage text identity state t g u other

theorem announcing_joinGeneral (identity : Identity) : Announcing none (joinGeneral identity) where
  once := ⟨trivial, fun _ => trivial⟩
  announced := by
    intro t g u other _
    refine ⟨fun same => ?_, fun _ => trivial⟩
    injection same with _ group _
    exact absurd group.symm other

theorem Announcing.next {handling : Option TextFrame} {op : Effect}
    {next : op.Answer → Handler Unit} (announcing : Announcing handling (.call op next))
    (answer : op.Answer) : Announcing handling (next answer) where
  once := announcing.once.2 answer
  announced := fun t g u other command => (announcing.announced t g u other command).2 answer

/-- All handlers announce what they join. -/
def AllAnnouncing (s : Cluster N) : Prop :=
  ∀ id socket, s.sockets id = some socket → Announcing socket.handling socket.task

variable [DecidableEq N] {state : AppState}

/-- Handlers announce what they join after every event. -/
theorem Stepped.allAnnouncing {s s' : Cluster N} {e : Event N} (h : Stepped state s e s')
    (before : s.AllAnnouncing) : s'.AllAnnouncing := by
  intro id socket found
  refine h.tasks Announcing (fun _ => ⟨trivial, fun _ _ _ _ _ => trivial⟩)
    (fun _ _ _ answer announcing => announcing.next answer) announcing_joinGeneral ?_ before found
  exact fun _ text socket _ _ => announcing_handleTextMessage text socket.identity state

/-! ### Steps that keep the nodes in agreement -/

section Step

variable {s s' : Cluster N} {e : Event N} (h : Stepped state s e s') {t g u : String}

include h

/-- A join that is coming keeps coming until it is handled. -/
theorem Stepped.has_of_coming (ok : s.Undisturbed e) (announcing : s.AllAnnouncing) {n : N}
    (coming : s.Coming n t g u) : s'.Has n t g u := by
  rcases coming with ⟨msg, mem, announces⟩ | ⟨id, socket, found, must⟩
  · rcases h.mem_streams_of_mem mem with later | ⟨rfl, rest, first⟩
    · exact .inr (.inl ⟨msg, later, announces⟩)
    · refine .inl ?_
      cases h with
      | deliver streams =>
          obtain ⟨rfl, rfl⟩ := List.cons.inj (streams.symm.trans first)
          obtain ⟨join, rfl, rfl, rfl⟩ := announces
          rw [member_delivered s join, decide_eq_true ⟨rfl, rfl, rfl⟩, Bool.true_or]
  · obtain ⟨socket', there, _, _, moved⟩ := h.moved found
    rcases moved with ⟨_, _, ended, _, _⟩ | ⟨_, ⟨choice, op, next, rfl, task, now⟩ | ⟨rfl, _⟩ | same⟩
    · rw [ended] at must
      exact absurd must (Prog.must_ret _)
    · have once := (announcing id socket found).once
      rw [task] at must once
      rcases must with announces | later
      · cases op with
        | publish channel msg =>
            exact .inr (.inl ⟨msg, h.published rfl found task ok once.1 n, announces⟩)
        | _ => exact announces.elim
      · exact .inr (.inr ⟨id, socket', there, now ▸ later _ trivial⟩)
    · rw [ok socket found] at must
      exact absurd must (Prog.must_ret _)
    · exact .inr (.inr ⟨id, socket', there, same ▸ must⟩)

/-- A join that comes to one node and did not before comes to all. -/
theorem Stepped.coming {n : N} (coming : s'.Coming n t g u) :
    s.Coming n t g u ∨ ∀ m, s'.Coming m t g u := by
  rcases coming with ⟨msg, mem, announces⟩ | owed
  · rcases h.mem_streams mem with old | ⟨_, _, _, _, _, _, everywhere⟩
    · exact .inl (.inl ⟨msg, old, announces⟩)
    · exact .inr fun m => .inl ⟨msg, everywhere m, announces⟩
  · exact .inr fun m => .inr owed

/-- Where members only grow, and grow on all nodes, agreement is kept. -/
theorem Stepped.agree_of_grow (ok : s.Undisturbed e) (announcing : s.AllAnnouncing)
    (agree : ∀ n m, s.Has n t g u → s.Has m t g u)
    (grow : ∀ n, s.member n t g u = true → s'.member n t g u = true)
    (new : ∀ n, s'.member n t g u = true → s.Has n t g u ∨ ∀ m, s'.Has m t g u) :
    ∀ n m, s'.Has n t g u → s'.Has m t g u := by
  intro n m has
  have kept : s.Has n t g u → s'.Has m t g u := by
    intro before
    rcases agree n m before with here | coming
    · exact .inl (grow m here)
    · exact h.has_of_coming ok announcing coming
  rcases has with here | coming
  · rcases new n here with before | all
    · exact kept before
    · exact all m
  · rcases h.coming coming with before | all
    · exact kept (.inr before)
    · exact .inr (all m)

theorem Stepped.agree_of_same (ok : s.Undisturbed e) (announcing : s.AllAnnouncing)
    (agree : ∀ n m, s.Has n t g u → s.Has m t g u)
    (same : ∀ n, s'.member n t g u = s.member n t g u) :
    ∀ n m, s'.Has n t g u → s'.Has m t g u :=
  h.agree_of_grow ok announcing agree (fun n here => (same n).trans here)
    (fun n here => .inl (.inl ((same n).symm.trans here)))

/-- A join that a handler performs is announced after it, or is of a user that the other nodes
have. -/
theorem Stepped.agree_joinGroup (ok : s.Undisturbed e) (announcing : s.AllAnnouncing)
    (other : g ≠ "general") (agree : ∀ n m, s.Has n t g u → s.Has m t g u) {id : ConnectionId}
    {choice : Choice} {socket : Socket N} {next : Unit → Handler Unit}
    (performs : e = .perform id choice) (found : s.sockets id = some socket)
    (task : socket.task = .call (.joinGroup t g u) next)
    (replicated : s.Replicated socket (.joinGroup t g u)) :
    ∀ n m, s'.Has n t g u → s'.Has m t g u := by
  have after : ∀ n, s'.member n t g u =
      if n = socket.node then true else s.member n t g u := by
    intro n
    rw [h.member_performed performs found task]
    simp [memberAfter]
  have joined : s'.member socket.node t g u = true := by rw [after, if_pos rfl]
  have grow : ∀ n, s.member n t g u = true → s'.member n t g u = true := by
    intro n here
    rw [after, here, ite_self]
  refine h.agree_of_grow ok announcing agree grow fun n here => ?_
  by_cases own : n = socket.node
  · refine .inr fun m => ?_
    by_cases create : socket.handling.bind TextFrame.command = some (.create, g)
    · by_cases same : m = socket.node
      · exact .inl (same ▸ joined)
      · rcases replicated other create m same with there | coming
        · exact .inl (grow m there)
        · exact h.has_of_coming ok announcing coming
    · have followed := (announcing id socket found).announced t g u other create
      rw [task] at followed
      have owed : s'.sockets id = some ⟨socket.node, socket.identity, socket.alive,
          socket.handling, next ()⟩ := by
        rw [h.performed performs found task]
        exact Function.update_self id _ _
      exact .inr (.inr ⟨id, _, owed, followed.1 rfl () trivial⟩)
  · rw [after, if_neg own] at here
    exact .inl (.inl here)

/-- A leave is of a user that no other node has and that no join on the way brings back. -/
theorem Stepped.agree_leaveGroup (ok : s.Undisturbed e) (announcing : s.AllAnnouncing)
    (other : g ≠ "general") {id : ConnectionId} {choice : Choice} {socket : Socket N}
    {next : Unit → Handler Unit} (performs : e = .perform id choice)
    (found : s.sockets id = some socket) (task : socket.task = .call (.leaveGroup t g u) next)
    (replicated : s.Replicated socket (.leaveGroup t g u)) :
    ∀ n m, s'.Has n t g u → s'.Has m t g u := by
  have nobody : ∀ n, s'.member n t g u = false := by
    intro n
    rw [h.member_performed performs found task]
    split
    · simp [memberAfter]
    · rename_i away
      exact (replicated other n).2 away
  rintro n m (here | coming)
  · rw [nobody] at here
    simp at here
  · rcases h.coming coming with (⟨msg, mem, announces⟩ | owed) | all
    · exact absurd (.inl ⟨msg, mem, announces⟩) (replicated other n).1
    · exact h.has_of_coming ok announcing (.inr owed)
    · exact .inr (all m)

/-- A member that a delete takes out is on no other node, or comes back. -/
theorem Stepped.agree_deleteGroup (ok : s.Undisturbed e) (announcing : s.AllAnnouncing)
    (other : g ≠ "general") (agree : ∀ n m, s.Has n t g u → s.Has m t g u) {id : ConnectionId}
    {choice : Choice} {socket : Socket N} {next : Unit → Handler Unit}
    (performs : e = .perform id choice) (found : s.sockets id = some socket)
    (task : socket.task = .call (.deleteGroup t g) next)
    (replicated : s.Replicated socket (.deleteGroup t g)) :
    ∀ n m, s'.Has n t g u → s'.Has m t g u := by
  have after : ∀ n, s'.member n t g u =
      if n = socket.node then false else s.member n t g u := by
    intro n
    rw [h.member_performed performs found task]
    simp [memberAfter]
  by_cases was : s.member socket.node t g u = true
  · by_cases back : s.Coming socket.node t g u
    · intro n m _
      by_cases own : m = socket.node
      · exact own ▸ h.has_of_coming ok announcing back
      · rcases agree _ m (.inl was) with here | coming
        · exact .inl (by rw [after, if_neg own, here])
        · exact h.has_of_coming ok announcing coming
    · have alone := (replicated other u was).resolve_left back
      rintro n m (here | coming)
      · rw [after] at here
        split at here
        · simp at here
        · rename_i away
          exact absurd (.inl here) (alone n away)
      · rcases h.coming coming with before | all
        · by_cases own : n = socket.node
          · exact absurd (own ▸ before) back
          · exact absurd (.inr before) (alone n own)
        · exact .inr (all m)
  · refine h.agree_of_same ok announcing agree fun n => ?_
    rw [after]
    split
    · rename_i own
      rw [own, Bool.eq_false_iff.mpr was]
    · rfl

/-- All nodes have the same members, or will, after a step that meets the condition. -/
theorem Stepped.agree (ok : s.Undisturbed e) (inStep : s.InStep e)
    (announcing : s.AllAnnouncing) (other : g ≠ "general")
    (agree : ∀ n m, s.Has n t g u → s.Has m t g u) :
    ∀ n m, s'.Has n t g u → s'.Has m t g u := by
  rcases h.member t g u with same | ⟨id, choice, socket, op, next, performs, found, task, after⟩ |
    ⟨k, msg, rest, _, first, announces, after⟩
  · exact h.agree_of_same ok announcing agree same
  · have replicated : s.Replicated socket op := by
      subst performs
      exact inStep socket op next found task
    rcases memberAfter_cases t g u op with rfl | rfl | rfl | same
    · exact h.agree_joinGroup ok announcing other agree performs found task replicated
    · exact h.agree_leaveGroup ok announcing other performs found task replicated
    · exact h.agree_deleteGroup ok announcing other agree performs found task replicated
    · refine h.agree_of_same ok announcing agree fun n => ?_
      rw [after, same, ite_self]
  · refine h.agree_of_grow ok announcing agree (fun n here => ?_) fun n here => ?_
    · rw [after, here, Bool.or_true]
    · by_cases own : n = k
      · refine .inl (.inr (.inl ⟨msg, ?_, announces⟩))
        rw [own, first]
        exact List.mem_cons_self
      · rw [after, decide_eq_false own, Bool.false_or] at here
        exact .inl (.inl here)

/-- Without a join no join becomes unsettled. -/
theorem Stepped.settled (noJoin : ¬ s.Performs e (.joinGroup t g u))
    (settled : ∀ n, ¬ s.Unsettled n t g u) : ∀ n, ¬ s'.Unsettled n t g u := by
  intro n
  have before : ∀ id socket, s.sockets id = some socket →
      socket.task.Before (· = .joinGroup t g u) (Effect.Announces t g u) := by
    intro id socket found
    by_contra early
    exact settled n (.inr ⟨id, socket, found, early⟩)
  rintro (⟨msg, mem, announces⟩ | ⟨id, socket', found, early⟩)
  · rcases h.mem_streams mem with old | ⟨id, socket, channel, next, here, task, _⟩
    · exact settled n (.inl ⟨msg, old, announces⟩)
    · have late := before id socket here
      rw [task] at late
      rcases late with same | ⟨silent, _⟩
      · exact nomatch same
      · exact silent announces
  · apply early
    rcases h.socket found with ⟨_, _, general⟩ | ⟨socket, here, _, _, moved⟩
    · rw [general]
      exact .inr ⟨fun announces => announces, fun _ => trivial⟩
    · rcases moved with ⟨text, _, _, _, handler⟩ |
        ⟨_, ⟨choice, op, next, performs, task, now⟩ | ⟨_, ended⟩ | same⟩
      · rw [handler]
        exact before_handleTextMessage text socket.identity state t g u
      · have late := before id socket here
        rw [task] at late
        rw [now]
        rcases late with rfl | ⟨_, rest⟩
        · exact absurd ⟨id, choice, socket, next, performs, here, task⟩ noJoin
        · exact rest _
      · rw [ended]
        trivial
      · rw [same]
        exact before id socket here

/-- A user that is gone stays gone until it joins. -/
theorem Stepped.gone_step (gone : s.Gone t g u) (noJoin : ¬ s.Performs e (.joinGroup t g u)) :
    s'.Gone t g u := by
  have settled := h.settled noJoin fun n => (gone n).2
  have silent : ∀ n, ∀ msg ∈ s.streams n, ¬ msg.Announces t g u :=
    fun n msg mem announces => (gone n).2 (.inl ⟨msg, mem, announces⟩)
  exact fun n => ⟨h.stays_out (gone n).1 noJoin (silent n), settled n⟩

/-- A `LEAVE` that meets the condition makes the user gone. -/
theorem Stepped.gone_of_leave (inStep : s.InStep e) (other : g ≠ "general")
    (leaves : s.Performs e (.leaveGroup t g u)) : s'.Gone t g u := by
  obtain ⟨id, choice, socket, next, performs, found, task⟩ := leaves
  have alone : s.Replicated socket (.leaveGroup t g u) := by
    subst performs
    exact inStep socket _ next found task
  have noJoin : ¬ s.Performs e (.joinGroup t g u) := by
    rintro ⟨id', choice', socket', next', performs', found', task'⟩
    injection performs.symm.trans performs' with same
    subst same
    obtain rfl := Option.some.inj (found.symm.trans found')
    injection task.symm.trans task' with op
    exact nomatch op
  have settled := h.settled noJoin fun n => (alone other n).1
  refine fun n => ⟨?_, settled n⟩
  rw [h.member_performed performs found task]
  split
  · simp [memberAfter]
  · rename_i away
    exact (alone other n).2 away

end Step

/-! ### Agreement over runs -/

/-- In a run the user left the group, and no handler joined it since. -/
def HasLeft (state : AppState) (db : Database) (es : List (Event N)) (t g u : String) : Prop :=
  ∃ before e after s s', es = before ++ e :: after ∧
    (machine N state).run (start db) before = some s ∧ (machine N state).step s e = some s' ∧
    s.Performs e (.leaveGroup t g u) ∧
    (machine N state).Steps (fun s e => ¬ s.Performs e (.joinGroup t g u)) s' after

omit [DecidableEq N] in
theorem not_coming_of_quiescent {s : Cluster N} (quiet : s.Quiescent) (n : N) (t g u : String) :
    ¬ s.Coming n t g u := by
  rintro (⟨msg, mem, _⟩ | ⟨id, socket, found, must⟩)
  · rw [quiet.1 n] at mem
    exact absurd mem List.not_mem_nil
  · rw [quiet.2 id socket found] at must
    exact absurd must (Prog.must_ret _)

/-- All nodes have the same members, or will, after a run of steps that meet the
condition. -/
theorem agree_run (db : Database) {es : List (Event N)} {s : Cluster N}
    (ran : (machine N state).run (start db) es = some s)
    (undisturbed : (machine N state).Steps Undisturbed (start db) es)
    (inStep : (machine N state).Steps InStep (start db) es) {t g u : String}
    (other : g ≠ "general") : ∀ n m, s.Has n t g u → s.Has m t g u := by
  let Inv : Cluster N → Prop := fun s =>
    s.AllAnnouncing ∧ ∀ n m, s.Has n t g u → s.Has m t g u
  have init : Inv (start db) := by
    have none : (start db : Cluster N).AllAnnouncing := by
      intro id socket found
      simp [start] at found
    refine ⟨none, ?_⟩
    rintro n m (here | ⟨msg, mem, _⟩ | ⟨id, socket, found, _⟩)
    · simp [member, start, ConnectionRegistry.new, ConnectionRegistry.isUserInGroup] at here
    · simp [start] at mem
    · simp [start] at found
  have inv : Inv s := by
    refine Machine.invariant_steps init ?_ ran (undisturbed.and inStep)
    intro s e s' inv ok next
    have h := stepped next
    exact ⟨h.allAnnouncing inv.1, h.agree ok.1 ok.2 inv.1 other inv.2⟩
  exact inv.2

/-- A user that left in a run of steps that meet the condition is gone. -/
theorem gone_run (db : Database) {es : List (Event N)} {s : Cluster N}
    (ran : (machine N state).run (start db) es = some s)
    (inStep : (machine N state).Steps InStep (start db) es) {t g u : String}
    (other : g ≠ "general") (left : HasLeft state db es t g u) : s.Gone t g u := by
  obtain ⟨before, e, after, s₀, s₁, rfl, ran₀, next, leaves, noJoins⟩ := left
  obtain ⟨ok, _⟩ := ((Machine.steps_append ran₀ _).mp inStep).2 s₁ next
  have rest : (machine N state).run s₁ after = some s := by
    rw [Machine.run_append, ran₀] at ran
    simpa [next] using ran
  let Inv : Cluster N → Prop := fun s => s.Gone t g u
  have init : Inv s₁ := (stepped next).gone_of_leave ok other leaves
  have inv : Inv s :=
    Machine.invariant_steps init (fun s e s' gone noJoin next =>
      (stepped next).gone_step gone noJoin) rest noJoins
  exact inv

/-- In an undisturbed run in which every operation of a handler is replicated, all nodes
have the same members of every group but `general` whenever nothing is in flight, and
nothing sent to a group is queued for a user that left it and has not joined again. -/
theorem members_agree (state : AppState) (db : Database) {es : List (Event N)} {s : Cluster N}
    (ran : (machine N state).run (start db) es = some s)
    (undisturbed : (machine N state).Steps Undisturbed (start db) es)
    (inStep : (machine N state).Steps InStep (start db) es) {t g u : String}
    (other : g ≠ "general") :
    (s.Quiescent → ∀ n m, s.member n t g u = s.member m t g u) ∧
    (HasLeft state db es t g u → ∀ n e s' id sender m, (machine N state).step s e = some s' →
      (s.nodes n).registry.sender? t u id = some sender →
      Enqueued m ((s.nodes n).channels sender.channel) ((s'.nodes n).channels sender.channel) →
      m.channelType ≠ .dm → m.channelId ≠ g) := by
  constructor
  · intro quiet n m
    have agree : ∀ n m, s.member n t g u = true → s.member m t g u = true := by
      intro n m here
      have has := agree_run db ran undisturbed inStep other n m (.inl here)
      exact has.resolve_right (not_coming_of_quiescent quiet m t g u)
    rw [Bool.eq_iff_iff]
    exact ⟨agree n m, agree m n⟩
  · rintro left n e s' id sender m next registered enqueued group rfl
    have gone := gone_run db ran inStep other left
    obtain ⟨rfl, _, _, addressed⟩ :=
      enqueued_addressed (authentic state db ran) (stepped next) registered enqueued
    rw [if_pos (.inr group)] at addressed
    have noJoin : ¬ s.Performs (.deliver n) (.joinGroup t m.channelId u) := by
      rintro ⟨_, _, _, _, performs, _⟩
      exact nomatch performs
    have absent := ((stepped next).gone_step gone noJoin n).1
    rw [addressed] at absent
    simp at absent

/-! ### One user, two nodes -/

/-- No handler is left to run. -/
def idle (socket : Socket N) : Bool :=
  match socket.task with
  | .ret _ => true
  | .call _ _ => false

omit [DecidableEq N] in
theorem task_of_idle {socket : Socket N} (ended : idle socket = true) : socket.task = .ret () := by
  unfold idle at ended
  split at ended
  · assumption
  · simp at ended

/-- Where one connection was opened, it is the one to look at. -/
theorem quiescent_of_one {db : Database} {es : List (Event N)} {s : Cluster N}
    (ran : (machine N state).run (start db) es = some s) {id : ConnectionId}
    (one : ∀ id' n identity, .connect id' n identity ∈ es → id' = id)
    (streams : ∀ n, s.streams n = [])
    (ended : ∀ socket ∈ s.sockets id, idle socket = true) : s.Quiescent := by
  refine ⟨streams, fun id' socket found => ?_⟩
  obtain rfl := one id' _ _ ((authentic state db ran).owners id' socket found)
  exact task_of_idle (ended socket found)

/-- Operations that are replicated whatever the nodes hold. -/
def alwaysReplicated (handling : Option TextFrame) : Effect → Bool
  | .joinGroup _ g _ => g = "general" || handling.bind TextFrame.command ≠ some (.create, g)
  | .leaveGroup _ g _ => g = "general"
  | .deleteGroup _ g => g = "general"
  | _ => true

/-- Every operation of the events is one of those. -/
def alwaysInStep (s : Cluster N) : Event N → Bool
  | .perform id _ =>
      match s.sockets id with
      | some ⟨_, _, _, handling, .call op _⟩ => alwaysReplicated handling op
      | _ => true
  | _ => true

omit [DecidableEq N] in
theorem inStep_of_always {s : Cluster N} {e : Event N} (always : s.alwaysInStep e = true) :
    s.InStep e := by
  cases e with
  | perform id choice =>
      intro socket op next found task
      obtain ⟨n, identity, alive, handling, task'⟩ := socket
      obtain rfl : task' = .call op next := task
      simp only [alwaysInStep, found] at always
      cases op with
      | joinGroup t g u =>
          intro other create
          have handled : handling.bind TextFrame.command = some (.create, g) := create
          simp [alwaysReplicated, other, handled] at always
      | leaveGroup t g u =>
          intro other
          simp [alwaysReplicated, other] at always
      | deleteGroup t g =>
          intro other
          simp [alwaysReplicated, other] at always
      | _ => trivial
  | _ => trivial

/-- Events that disturb nothing whatever the state is. -/
def orderly : Event N → Bool
  | .perform _ choice => choice.ok
  | .abort _ => false
  | _ => true

theorem undisturbed_of_orderly {es : List (Event N)} (all : es.all orderly = true)
    (s : Cluster N) : (machine N state).Steps Undisturbed s es := by
  refine Machine.steps_of_mem (fun e mem s => ?_) s
  have ok := List.all_eq_true.mp all e mem
  cases e with
  | perform id choice => exact ok
  | abort id => simp [orderly] at ok
  | _ => trivial

/-- A group that exists. -/
def teamDb : Database := ⟨[], [⟨5, "acme", "team", "ada", 0⟩], []⟩

def teamFrame (kind : GroupMessageType) : TextFrame := ⟨some ⟨kind, "acme", "team", "ada"⟩, none⟩

def performs (count : ℕ) : List (Event N) :=
  List.replicate count (.perform 1 ⟨7, 9, true, 7⟩)

/-- A `JOIN` on one of two nodes. -/
def teamJoined : List (Event Bool) :=
  [.connect 1 false ⟨"acme", "ada"⟩] ++ performs 1 ++ [.frame 1 (teamFrame .join)] ++ performs 6 ++
    [.deliver false, .deliver true]

/-- And a `LEAVE` after it. -/
def teamLeft : List (Event Bool) :=
  teamJoined ++ [.frame 1 (teamFrame .leave)] ++ performs 6 ++ [.deliver false, .deliver true]

/-- Quiescence of the two runs. -/
theorem quiescent_team {es : List (Event Bool)} {s : Cluster Bool}
    (ran : (machine Bool state).run (start teamDb) es = some s)
    (few : ∀ e ∈ es, e ∈ teamLeft) (streams : ∀ n, s.streams n = [])
    (ended : ∀ socket ∈ s.sockets 1, idle socket = true) : s.Quiescent := by
  refine quiescent_of_one ran (fun id n identity mem => ?_) streams ended
  have one : id = 1 ∧ n = false ∧ identity = ⟨"acme", "ada"⟩ := by
    simpa [teamLeft, teamJoined, performs] using few _ mem
  exact one.1

/-- The operation that an event performs. -/
def operation (s : Cluster N) : Event N → Option Effect
  | .perform id _ => (s.sockets id).bind fun socket =>
      match socket.task with
      | .call op _ => some op
      | .ret _ => none
  | _ => none

omit [DecidableEq N] in
theorem operation_eq_some {s : Cluster N} {e : Event N} {op : Effect} :
    s.operation e = some op ↔ s.Performs e op := by
  constructor
  · intro performed
    cases e with
    | perform id choice =>
        obtain ⟨socket, found, same⟩ := Option.bind_eq_some_iff.mp performed
        cases task : socket.task with
        | ret value => simp [task] at same
        | call op' next =>
            simp only [task, Option.some.injEq] at same
            subst same
            exact ⟨id, choice, socket, next, rfl, found, task⟩
    | _ => exact absurd performed (by simp [operation])
  · rintro ⟨id, choice, socket, next, rfl, found, task⟩
    simp [operation, found, task]

instance (s : Cluster N) (e : Event N) (op : Effect) : Decidable (s.Performs e op) :=
  decidable_of_iff _ operation_eq_some

/-- A join that is settled stays so while nobody joins. -/
theorem settled_run {es : List (Event N)} {s s' : Cluster N} {t g u : String}
    (ran : (machine N state).run s es = some s') (settled : ∀ n, ¬ s.Unsettled n t g u)
    (noJoin : (machine N state).Steps (fun s e => ¬ s.Performs e (.joinGroup t g u)) s es) :
    ∀ n, ¬ s'.Unsettled n t g u := by
  let Inv : Cluster N → Prop := fun s => ∀ n, ¬ s.Unsettled n t g u
  have step : ∀ s e s', Inv s → ¬ s.Performs e (.joinGroup t g u) →
      (machine N state).step s e = some s' → Inv s' := by
    intro s e s' settled none next
    exact (stepped next).settled none settled
  exact Machine.invariant_steps (show Inv s from settled) step ran noJoin

omit [DecidableEq N] in
theorem settled_of_quiescent {s : Cluster N} (quiet : s.Quiescent) (t g u : String) (n : N) :
    ¬ s.Unsettled n t g u := by
  rintro (⟨msg, mem, _⟩ | ⟨id, socket, found, early⟩)
  · rw [quiet.1 n] at mem
    exact absurd mem List.not_mem_nil
  · rw [quiet.2 id socket found] at early
    exact early trivial

omit [DecidableEq N] in
/-- On a single node only a join that is not settled is in the way of a `LEAVE`. -/
theorem inStep_of_single [Subsingleton N] {s : Cluster N} {e : Event N}
    (settled : ∀ t g u, s.Performs e (.leaveGroup t g u) → ∀ n, ¬ s.Unsettled n t g u) :
    s.InStep e := by
  cases e with
  | perform id choice =>
      intro socket op next found task
      cases op with
      | joinGroup t g u => exact fun _ _ m away => absurd (Subsingleton.elim m socket.node) away
      | leaveGroup t g u =>
          exact fun _ m => ⟨settled t g u ⟨id, choice, socket, next, rfl, found, task⟩ m,
            fun away => absurd (Subsingleton.elim m socket.node) away⟩
      | deleteGroup t g =>
          exact fun _ _ _ => .inr fun m away => absurd (Subsingleton.elim m socket.node) away
      | _ => trivial
  | _ => trivial

/-- A `JOIN` on a single node, up to the `LEAVE` after it. -/
def aloneJoined : List (Event Unit) :=
  [.connect 1 () ⟨"acme", "ada"⟩] ++ performs 1 ++ [.frame 1 (teamFrame .join)] ++ performs 6 ++
    [.deliver ()]

def leaving : List (Event Unit) := [.frame 1 (teamFrame .leave)] ++ performs 2

/-- The `JOIN` is replicated: both nodes have the member. And a `LEAVE` on a single node meets the
condition once the `JOIN` is settled: its notice, which waits, does not go to the user. -/
theorem members_agree_join :
    let state : AppState := ⟨true, fun _ => 0⟩
    (∃ s, (machine Bool state).run (start teamDb) teamJoined = some s ∧ s.Quiescent ∧
      s.member false "acme" "team" "ada" = true ∧ s.member true "acme" "team" "ada" = true) ∧
    let es := aloneJoined ++ leaving ++ performs 4
    ∃ s, (machine Unit state).run (start teamDb) es = some s ∧
      (∃ msg ∈ s.streams (), msg.channelId = "team") ∧
      HasLeft state teamDb es "acme" "team" "ada" ∧
      ∀ n e s' id sender m, (machine Unit state).step s e = some s' →
        (s.nodes n).registry.sender? "acme" "ada" id = some sender →
        Enqueued m ((s.nodes n).channels sender.channel) ((s'.nodes n).channels sender.channel) →
        m.channelType ≠ .dm → m.channelId ≠ "team" := by
  intro state
  constructor
  · obtain ⟨s, ran, streams, ended, here⟩ :
        ∃ s ∈ (machine Bool state).run (start teamDb) teamJoined,
          (∀ n, s.streams n = []) ∧ (∀ socket ∈ s.sockets 1, idle socket = true) ∧
          s.member false "acme" "team" "ada" = true := by decide
    have quiet : s.Quiescent :=
      quiescent_team ran (fun e mem => by simp [teamLeft, mem]) streams ended
    have always : (machine Bool state).Steps (fun s e => s.alwaysInStep e = true) (start teamDb)
        teamJoined := by decide
    have agree : ∀ n m, s.member n "acme" "team" "ada" = s.member m "acme" "team" "ada" :=
      (members_agree state teamDb ran (undisturbed_of_orderly (by decide) _)
        (always.mono fun _ _ => inStep_of_always) (by decide)).1 quiet
    exact ⟨s, ran, quiet, here, (agree true false).trans here⟩
  · intro es
    let leave : Event Unit := .perform 1 ⟨7, 9, true, 7⟩
    let NoJoin (s : Cluster Unit) (e : Event Unit) : Prop :=
      ¬ s.Performs e (.joinGroup "acme" "team" "ada")
    obtain ⟨s₁, joined, streams, ended, noJoin⟩ :
        ∃ s ∈ (machine Unit state).run (start teamDb) aloneJoined, s.streams () = [] ∧
          (∀ socket ∈ s.sockets 1, idle socket = true) ∧
          (machine Unit state).Steps NoJoin s leaving := by decide
    obtain ⟨s₂, reached, leaves, s₃, left, always, noJoin', s, ran, waits⟩ :
        ∃ s ∈ (machine Unit state).run (start teamDb) (aloneJoined ++ leaving),
          s.Performs leave (.leaveGroup "acme" "team" "ada") ∧
          ∃ s' ∈ (machine Unit state).step s leave,
            (machine Unit state).Steps (fun s e => s.alwaysInStep e = true) s' (performs 3) ∧
            (machine Unit state).Steps NoJoin s' (performs 3) ∧
            ∃ s'' ∈ (machine Unit state).run s' (performs 3),
              ∃ msg ∈ s''.streams (), msg.channelId = "team" := by decide
    have quiet : s₁.Quiescent :=
      quiescent_of_one joined (fun id n identity mem => by
        have one : id = 1 ∧ n = () ∧ identity = ⟨"acme", "ada"⟩ := by
          simpa [aloneJoined, performs] using mem
        exact one.1) (fun _ => streams) ended
    have between : (machine Unit state).run s₁ leaving = some s₂ := by
      rw [Machine.run_append, joined] at reached
      exact reached
    have settled := settled_run between (settled_of_quiescent quiet "acme" "team" "ada") noJoin
    have inStep : s₂.InStep leave := by
      refine inStep_of_single fun t g u performs => ?_
      have same := (operation_eq_some.mpr performs).symm.trans (operation_eq_some.mpr leaves)
      simp only [Option.some.injEq, Effect.leaveGroup.injEq] at same
      obtain ⟨rfl, rfl, rfl⟩ := same
      exact settled
    have steps : (machine Unit state).Steps InStep (start teamDb) es := by
      have before : (machine Unit state).Steps (fun s e => s.alwaysInStep e = true) (start teamDb)
          (aloneJoined ++ leaving) := by decide
      refine (Machine.steps_append reached _).mpr ⟨before.mono fun _ _ => inStep_of_always, ?_⟩
      intro s' next
      obtain rfl := Option.some.inj (left.symm.trans next)
      exact ⟨inStep, always.mono fun _ _ => inStep_of_always⟩
    have whole : (machine Unit state).run (start teamDb) es = some s := by
      rw [Machine.run_append, reached, Option.bind_some]
      change ((machine Unit state).step s₂ leave).bind _ = _
      rw [left, Option.bind_some]
      exact ran
    have hasLeft : HasLeft state teamDb es "acme" "team" "ada" :=
      ⟨aloneJoined ++ leaving, leave, performs 3, s₂, s₃, rfl, reached, left, leaves, noJoin'⟩
    exact ⟨s, whole, waits, hasLeft, (members_agree state teamDb whole
      (undisturbed_of_orderly (by decide) _) steps (by decide)).2 hasLeft⟩

/-- The `LEAVE` is not: the other node keeps the member. -/
theorem leave_stays_on_other_node :
    let state : AppState := ⟨true, fun _ => 0⟩
    ∃ s, (machine Bool state).run (start teamDb) teamLeft = some s ∧
      (machine Bool state).Steps Undisturbed (start teamDb) teamLeft ∧ s.Quiescent ∧
      s.member false "acme" "team" "ada" = false ∧ s.member true "acme" "team" "ada" = true := by
  intro state
  obtain ⟨s, ran, streams, ended, here, there⟩ :
      ∃ s ∈ (machine Bool state).run (start teamDb) teamLeft,
        (∀ n, s.streams n = []) ∧ (∀ socket ∈ s.sockets 1, idle socket = true) ∧
        s.member false "acme" "team" "ada" = false ∧
        s.member true "acme" "team" "ada" = true := by decide
  exact ⟨s, ran, undisturbed_of_orderly (by decide) _,
    quiescent_team ran (fun _ mem => mem) streams ended, here, there⟩

end Cluster

end YappaCore
