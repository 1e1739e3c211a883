import YappaCore.Server.Delivery

/-!
How a user becomes a member of a group on some node, over any run of any number of nodes:
by its own connection on that node, which joins `general`, or because a `JOIN` of its own
found the group in the database, or a `CREATE` of its own put it there.

A join can be on its way for long: a handler has yet to perform it, or a stream carries its
announcement. `Enrolled` is the invariant over members, handlers and streams, and
`members_earned` what it says of members.
-/

namespace YappaCore

open Lib Handler

/-! ### Handlers -/

namespace Effect

/-- The lookup of a `JOIN` found the group. -/
def Found (t g : String) : (op : Effect) → op.Answer → Prop
  | .selectGroup t' g', found => t' = t ∧ g' = g ∧ Option.isSome found = true
  | _, _ => False

/-- The insert of a `CREATE` succeeded. -/
def Created (t g u : String) : (op : Effect) → op.Answer → Prop
  | .upsertGroup _ t' g' u', created => t' = t ∧ g' = g ∧ u' = u ∧ Option.isSome created = true
  | _, _ => False

/-- The operation makes the user a member, here or at the listeners, in another way than
connecting does. -/
def Enrols (t g u : String) (op : Effect) : Prop :=
  op.Announces t g u ∨ g ≠ "general" ∧ op = .joinGroup t g u

end Effect

namespace Handler

variable {text : TextFrame} {state : AppState} {t g u : String}

/-- What a `JOIN` does comes after its lookup found the group. -/
theorem awaits_join (join : text.command = some (.join, g)) :
    (handleTextMessage text ⟨t, u⟩ state).Awaits (Effect.Found t g) (Effect.Enrols t g u) := by
  rw [handleTextMessage_join text ⟨t, u⟩ state join, handleJoin_eq]
  refine ⟨by simp [Effect.Enrols, Effect.Announces], fun found => ?_⟩
  cases found with
  | none => exact .inr trivial
  | some conversationId => exact .inl ⟨rfl, rfl, rfl⟩

/-- What a `CREATE` does comes after its insert succeeded. -/
theorem awaits_create (create : text.command = some (.create, g)) :
    (handleTextMessage text ⟨t, u⟩ state).Awaits (Effect.Created t g u)
      (Effect.Enrols t g u) := by
  rw [handleTextMessage_create text ⟨t, u⟩ state create, handleCreate_eq]
  refine Prog.Awaits.bind (always_parseOrNew ?_ g) fun conversationId => ?_
  · simp [Effect.Enrols, Effect.Announces]
  · refine ⟨by simp [Effect.Enrols, Effect.Announces], fun created => ?_⟩
    cases created with
    | none => exact .inr trivial
    | some conversationId => exact .inl ⟨rfl, rfl, rfl, rfl⟩

/-- Other frames make nobody a member. -/
theorem always_not_enrols (noJoin : text.command ≠ some (.join, g))
    (noCreate : text.command ≠ some (.create, g)) :
    (handleTextMessage text ⟨t, u⟩ state).Always fun op => ¬ op.Enrols t g u := by
  refine (ofFrame_handleTextMessage text ⟨t, u⟩ state).mono fun op own => ?_
  rintro (announces | ⟨_, rfl⟩)
  · cases op with
    | publish channel msg =>
        obtain ⟨join, rfl, rfl, rfl⟩ := announces
        exact noJoin (own.2.2.2 join).2
    | _ => exact announces
  · exact own.2.2.elim noJoin noCreate

end Handler

namespace Cluster

variable {N : Type} [DecidableEq N] {state : AppState} {db : Database}

/-! ### What a user has earned -/

/-- In the run, the handler of a frame performs an operation in the state `s`: the
connection was opened with the identity, and the frame came in on it. -/
def PerformedFor (state : AppState) (db : Database) (es : List (Event N)) (identity : Identity)
    (text : TextFrame) (s : Cluster N) (choice : Choice) (op : Effect) : Prop :=
  ∃ before id after, es = before ++ .perform id choice :: after ∧
    (machine N state).run (start db) before = some s ∧
    ∃ node alive next, .connect id node identity ∈ before ∧ .frame id text ∈ before ∧
      s.sockets id = some ⟨node, identity, alive, some text, .call op next⟩

theorem PerformedFor.mono {es : List (Event N)} {identity : Identity} {text : TextFrame}
    {s : Cluster N} {choice : Choice} {op : Effect}
    (performed : PerformedFor state db es identity text s choice op) (e : Event N) :
    PerformedFor state db (es ++ [e]) identity text s choice op := by
  obtain ⟨before, id, after, rfl, rest⟩ := performed
  exact ⟨before, id, after ++ [e], by simp, rest⟩

/-- A `JOIN` of the user was handled at a moment when the table of groups had the group, or
a `CREATE` of the user whose insert into the table succeeded. -/
def Granted (state : AppState) (db : Database) (es : List (Event N)) (t g u : String) : Prop :=
  (∃ text s choice, PerformedFor state db es ⟨t, u⟩ text s choice (.selectGroup t g) ∧
    text.command = some (.join, g) ∧ ∃ row ∈ s.db.groups, row.tenantId = t ∧ row.name = g) ∨
  ∃ text s choice conversationId,
    PerformedFor state db es ⟨t, u⟩ text s choice (.upsertGroup conversationId t g u) ∧
    text.command = some (.create, g) ∧ choice.ok = true ∧
    (s.db.upsertGroup conversationId t g u choice.dbTime).isSome = true

theorem Granted.mono {es : List (Event N)} {t g u : String} (granted : Granted state db es t g u)
    (e : Event N) : Granted state db (es ++ [e]) t g u := by
  rcases granted with ⟨text, s, choice, performed, rest⟩ | ⟨text, s, choice, id, performed, rest⟩
  · exact .inl ⟨text, s, choice, performed.mono e, rest⟩
  · exact .inr ⟨text, s, choice, id, performed.mono e, rest⟩

/-- The user opened a connection on the node and the group is `general`, or the membership
was granted. -/
def Earned (state : AppState) (db : Database) (es : List (Event N)) (n : N) (t g u : String) :
    Prop :=
  (g = "general" ∧ ∃ id, .connect id n ⟨t, u⟩ ∈ es) ∨ Granted state db es t g u

/-! ### The invariant -/

/-- A handler will make the user a member only after it is told that the group is there. -/
def Waits (es : List (Event N)) (id : ConnectionId) (socket : Socket N) (t g u : String) : Prop :=
  socket.task.Always (fun op => ¬ op.Enrols t g u) ∨
  ∃ text, socket.handling = some text ∧ .frame id text ∈ es ∧
    (text.command = some (.join, g) ∧
        socket.task.Awaits (Effect.Found t g) (Effect.Enrols t g u) ∨
      text.command = some (.create, g) ∧
        socket.task.Awaits (Effect.Created t g u) (Effect.Enrols t g u))

/-- After the events `es`: members have earned it, a handler makes only its own user a
member and only what was granted, and every announced join was granted. -/
structure Enrolled (state : AppState) (db : Database) (es : List (Event N)) (s : Cluster N) :
    Prop where
  ran : (machine N state).run (start db) es = some s
  members : ∀ n t g u, s.member n t g u = true → Earned state db es n t g u
  own : ∀ id socket, s.sockets id = some socket → socket.task.Always fun op =>
    ∀ t g u, op = .joinGroup t g u ∨ op.Announces t g u → socket.identity = ⟨t, u⟩
  tasks : ∀ id socket t g u, s.sockets id = some socket → socket.identity = ⟨t, u⟩ →
    Granted state db es t g u ∨ Waits es id socket t g u
  streams : ∀ n, ∀ msg ∈ s.streams n, ∀ t g u, msg.Announces t g u → Granted state db es t g u

theorem Enrolled.init : Enrolled state db [] (start db : Cluster N) where
  ran := rfl
  members := by
    intro n t g u member
    simp [Cluster.member, start, ConnectionRegistry.new, ConnectionRegistry.isUserInGroup] at member
  own := fun _ _ found => nomatch found
  tasks := fun _ _ _ _ _ found => nomatch found
  streams := fun _ _ mem => nomatch mem

omit [DecidableEq N] in
theorem Waits.mono {es : List (Event N)} {id : ConnectionId} {socket : Socket N}
    {t g u : String} (waits : Waits es id socket t g u) (e : Event N) :
    Waits (es ++ [e]) id socket t g u := by
  rcases waits with silent | ⟨text, handling, received, rest⟩
  · exact .inl silent
  · exact .inr ⟨text, handling, List.mem_append_left _ received, rest⟩

/-- A lookup that finds the group was made when the table had it. -/
theorem row_of_found {s : Cluster N} {n : N} {choice : Choice} {op : Effect} {t g : String}
    (found : op.Found t g (s.perform n choice op).1) :
    op = .selectGroup t g ∧ ∃ row ∈ s.db.groups, row.tenantId = t ∧ row.name = g := by
  cases op with
  | selectGroup t' g' =>
      obtain ⟨rfl, rfl, some⟩ := found
      obtain ⟨conversationId, answer⟩ := Option.isSome_iff_exists.mp some
      obtain ⟨row, mem, tenant, name, _⟩ :=
        Database.exists_of_selectGroup (selected_of_answer s n choice answer)
      exact ⟨rfl, row, mem, tenant, name⟩
  | _ => exact found.elim

/-- An insert that answers with an id went through. -/
theorem upserts_of_created {s : Cluster N} {n : N} {choice : Choice} {op : Effect}
    {t g u : String} (created : op.Created t g u (s.perform n choice op).1) :
    ∃ conversationId, op = .upsertGroup conversationId t g u ∧ choice.ok = true ∧
      (s.db.upsertGroup conversationId t g u choice.dbTime).isSome = true := by
  cases op with
  | upsertGroup conversationId t' g' u' =>
      obtain ⟨rfl, rfl, rfl, some⟩ := created
      obtain ⟨id, answer⟩ := Option.isSome_iff_exists.mp some
      obtain ⟨ok, upserted⟩ := upserted_of_answer s n choice answer
      exact ⟨conversationId, rfl, ok, by rw [upserted]; rfl⟩
  | _ => exact created.elim

/-- A handler that waits does not make the user a member yet, and after its operation it
still waits, or the membership is granted. -/
theorem Enrolled.next {es : List (Event N)} {s : Cluster N} (inv : Enrolled state db es s)
    {id : ConnectionId} {n : N} {alive : Bool} {handling : Option TextFrame} {op : Effect}
    {next : op.Answer → Handler Unit} {t g u : String}
    (busy : s.sockets id = some ⟨n, ⟨t, u⟩, alive, handling, .call op next⟩)
    (waits : Waits es id (⟨n, ⟨t, u⟩, alive, handling, .call op next⟩ : Socket N) t g u)
    (choice : Choice) :
    ¬ op.Enrols t g u ∧ (Granted state db (es ++ [.perform id choice]) t g u ∨
      Waits (es ++ [.perform id choice]) id
        (⟨n, ⟨t, u⟩, alive, handling, next (s.perform n choice op).1⟩ : Socket N) t g u) := by
  have opened := (authentic state db inv.ran).owners id _ busy
  have performed : ∀ text, handling = some text → .frame id text ∈ es →
      PerformedFor state db (es ++ [.perform id choice]) ⟨t, u⟩ text s choice op := by
    rintro text rfl received
    exact ⟨es, id, [], rfl, inv.ran, n, alive, next, opened, received, busy⟩
  rcases waits with silent | ⟨text, handles, received, ⟨join, awaits⟩ | ⟨create, awaits⟩⟩
  · exact ⟨silent.1, .inr (.inl (silent.2 _))⟩
  · refine ⟨awaits.1, ?_⟩
    rcases awaits.2 (s.perform n choice op).1 with found | later
    · obtain ⟨rfl, row⟩ := row_of_found found
      exact .inl (.inl ⟨text, s, choice, performed text handles received, join, row⟩)
    · exact .inr (.inr ⟨text, handles, List.mem_append_left _ received, .inl ⟨join, later⟩⟩)
  · refine ⟨awaits.1, ?_⟩
    rcases awaits.2 (s.perform n choice op).1 with created | later
    · obtain ⟨conversationId, rfl, upserts⟩ := upserts_of_created created
      exact .inl (.inr ⟨text, s, choice, conversationId, performed text handles received, create,
        upserts⟩)
    · exact .inr (.inr ⟨text, handles, List.mem_append_left _ received, .inr ⟨create, later⟩⟩)

/-- An operation that makes a user a member, other than a new connection's, is of the
user's own handler and was granted. -/
theorem Enrolled.granted_of_enrols {es : List (Event N)} {s : Cluster N}
    (inv : Enrolled state db es s) {id : ConnectionId} {socket : Socket N} {op : Effect}
    {next : op.Answer → Handler Unit} {t g u : String} (found : s.sockets id = some socket)
    (task : socket.task = .call op next) (enrols : op.Enrols t g u) :
    Granted state db es t g u := by
  have own := inv.own id socket found
  rw [task] at own
  have identity : socket.identity = ⟨t, u⟩ := own.1 t g u (by
    rcases enrols with announces | ⟨_, same⟩
    · exact .inr announces
    · exact .inl same)
  rcases inv.tasks id socket t g u found identity with granted | waits
  · exact granted
  · rcases waits with silent | ⟨text, _, _, ⟨_, awaits⟩ | ⟨_, awaits⟩⟩
    · rw [task] at silent
      exact absurd enrols silent.1
    · rw [task] at awaits
      exact absurd enrols awaits.1
    · rw [task] at awaits
      exact absurd enrols awaits.1

section Step

variable {es : List (Event N)} {s s' : Cluster N} {e : Event N} (inv : Enrolled state db es s)
  (h : Stepped state s e s')

include inv h

theorem Enrolled.members_step {n : N} {t g u : String} (member : s'.member n t g u = true) :
    Earned state db (es ++ [e]) n t g u := by
  have earlier : ∀ {m : N}, s.member m t g u = true → Earned state db (es ++ [e]) m t g u := by
    intro m before
    rcases inv.members m t g u before with ⟨general, id, opened⟩ | granted
    · exact .inl ⟨general, id, List.mem_append_left _ opened⟩
    · exact .inr (granted.mono e)
  rcases h.member t g u with same | ⟨id, choice, socket, op, rest, rfl, found, task, after⟩ |
    ⟨k, msg, rest, rfl, first, announces, after⟩
  · exact earlier ((same n).symm.trans member)
  · rw [after] at member
    split at member
    · rename_i here
      subst here
      rcases memberAfter_cases t g u op with rfl | rfl | rfl | same
      · by_cases general : g = "general"
        · have own := inv.own id socket found
          rw [task] at own
          have opened := (authentic state db inv.ran).owners id socket found
          rw [own.1 t g u (.inl rfl)] at opened
          exact .inl ⟨general, id, List.mem_append_left _ opened⟩
        · exact .inr ((inv.granted_of_enrols found task (.inr ⟨general, rfl⟩)).mono _)
      · simp [memberAfter] at member
      · simp [memberAfter] at member
      · exact earlier ((same _).symm.trans member)
    · exact earlier member
  · rw [after] at member
    rcases Bool.or_eq_true_iff.mp member with _ | before
    · exact .inr ((inv.streams k msg (first ▸ List.mem_cons_self) t g u announces).mono _)
    · exact earlier before

theorem Enrolled.own_step {id : ConnectionId} {socket : Socket N}
    (found : s'.sockets id = some socket) : socket.task.Always fun op =>
      ∀ t g u, op = .joinGroup t g u ∨ op.Announces t g u → socket.identity = ⟨t, u⟩ := by
  rcases h.socket found with ⟨_, _, new⟩ | ⟨old, here, _, identity, moved⟩
  · rw [new]
    refine ⟨?_, fun _ => trivial⟩
    rintro t g u (same | announces)
    · injection same with tenant _ user
      rw [← tenant, ← user]
    · exact announces.elim
  · rw [identity]
    rcases moved with ⟨text, _, _, _, handler⟩ |
      ⟨_, ⟨choice, op, rest, _, task, later⟩ | ⟨_, ended⟩ | same⟩
    · rw [handler]
      refine (ofFrame_handleTextMessage text old.identity state).mono fun op own => ?_
      rintro t g u (rfl | announces)
      · rw [own.1, own.2.1]
      · cases op with
        | publish channel msg =>
            obtain ⟨_, rfl, _, rfl⟩ := announces
            rw [own.2.1, own.2.2.1]
        | _ => exact announces.elim
    · have own := inv.own id old here
      rw [task] at own
      rw [later]
      exact own.2 _
    · rw [ended]
      trivial
    · rw [same]
      exact inv.own id old here

theorem Enrolled.tasks_step {id : ConnectionId} {socket : Socket N} {t g u : String}
    (found : s'.sockets id = some socket) (identity : socket.identity = ⟨t, u⟩) :
    Granted state db (es ++ [e]) t g u ∨ Waits (es ++ [e]) id socket t g u := by
  have now : e ∈ es ++ [e] := List.mem_append_right es List.mem_cons_self
  rcases h.socket found with ⟨_, _, new⟩ | ⟨old, here, node, owner, moved⟩
  · refine .inr (.inl ?_)
    rw [new]
    refine ⟨?_, fun _ => trivial⟩
    rintro (announces | ⟨other, same⟩)
    · exact announces
    · injection same with _ general _
      exact other general.symm
  · rw [owner] at identity
    rcases moved with ⟨text, rfl, _, handling, handler⟩ | ⟨handling, moved⟩
    · refine .inr ?_
      rw [identity] at handler
      unfold Waits
      rw [handler]
      by_cases join : text.command = some (.join, g)
      · exact .inr ⟨text, handling, now, .inl ⟨join, awaits_join join⟩⟩
      · by_cases create : text.command = some (.create, g)
        · exact .inr ⟨text, handling, now, .inr ⟨create, awaits_create create⟩⟩
        · exact .inl (always_not_enrols join create)
    · rcases inv.tasks id old t g u here identity with granted | waits
      · exact .inl (granted.mono e)
      · rcases moved with ⟨choice, op, rest, rfl, task, later⟩ | ⟨_, ended⟩ | same
        · obtain ⟨n, owner', alive, frame, task'⟩ := old
          subst task identity
          have moved := (inv.next here waits choice).2
          unfold Waits at moved ⊢
          rw [handling, later]
          exact moved
        · refine .inr (.inl ?_)
          rw [ended]
          trivial
        · have kept := waits.mono e
          unfold Waits at kept ⊢
          rw [handling, same]
          exact .inr kept

theorem Enrolled.streams_step {n : N} {msg : ServerMessage} (mem : msg ∈ s'.streams n)
    {t g u : String} (announces : msg.Announces t g u) : Granted state db (es ++ [e]) t g u := by
  rcases h.mem_streams mem with old | ⟨id, socket, channel, rest, found, task, _⟩
  · exact (inv.streams n msg old t g u announces).mono e
  · exact (inv.granted_of_enrols found task (.inl announces)).mono e

end Step

theorem Enrolled.step {es : List (Event N)} {s s' : Cluster N} {e : Event N}
    (inv : Enrolled state db es s) (next : (machine N state).step s e = some s') :
    Enrolled state db (es ++ [e]) s' where
  ran := (Machine.run_snoc _).mpr ⟨s, inv.ran, next⟩
  members := fun _ _ _ _ member => inv.members_step (stepped next) member
  own := fun _ _ found => inv.own_step (stepped next) found
  tasks := fun _ _ _ _ _ found identity => inv.tasks_step (stepped next) found identity
  streams := fun _ _ mem _ _ _ announces => inv.streams_step (stepped next) mem announces

/-- The invariant holds after every run. -/
theorem enrolled (state : AppState) (db : Database) {es : List (Event N)} {s : Cluster N}
    (ran : (machine N state).run (start db) es = some s) : Enrolled state db es s :=
  Machine.invariant Enrolled.init (fun _ _ _ _ inv next => inv.step next) ran

/-- Whatever frames the clients send and however connections, operations and deliveries are
interleaved, a member of a group on a node has earned it itself. -/
theorem members_earned (state : AppState) (db : Database) {es : List (Event N)} {s : Cluster N}
    (ran : (machine N state).run (start db) es = some s) {n : N} {t g u : String}
    (member : s.member n t g u = true) : Earned state db es n t g u :=
  (enrolled state db ran).members n t g u member

/-- A `JOIN` whose frame names another tenant and user makes its sender a member on the
other node, once the announcement is handled there. -/
theorem members_earned_join :
    let state : AppState := ⟨true, fun _ => 0⟩
    let db : Database := ⟨[], [⟨5, "acme", "team", "ada", 0⟩], []⟩
    let es : List (Event Bool) :=
      [.connect 1 true ⟨"acme", "bob"⟩, .perform 1 ⟨7, 9, true, 7⟩,
        .frame 1 ⟨some ⟨.join, "globex", "team", "eve"⟩, none⟩] ++
      List.replicate 6 (.perform 1 ⟨7, 9, true, 7⟩) ++ [.deliver false]
    ∃ s, (machine Bool state).run (start db) es = some s ∧
      s.member false "acme" "team" "bob" = true ∧ Earned state db es false "acme" "team" "bob" := by
  intro state db es
  obtain ⟨s, ran, member⟩ : ∃ s ∈ (machine Bool state).run (start db) es,
      s.member false "acme" "team" "bob" = true := by decide
  exact ⟨s, ran, member, members_earned state db ran member⟩

end Cluster

end YappaCore
