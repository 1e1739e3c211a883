import YappaCore.Server.Membership

/-!
One node, one user, one group that exists: the user sends `JOIN` and `LEAVE`, each after the
one before was handled, while the node's listener handles the messages they published.

The listener turns every `group_join` into a member, its own node's included, and does
nothing for a `group_leave`. So a `LEAVE` lasts if the listener had handled every join by
then. `LastWins` is the invariant and `last_command_wins` what it gives over runs.
-/

namespace YappaCore

open Lib Handler

namespace Cluster

variable {N : Type}

/-! ### Runs of commands -/

/-- The command of the last frame. -/
def lastCommand (es : List (Event N)) : Option GroupMessageType :=
  es.foldl (fun last e =>
    match e with
    | .frame _ text => text.command.map (·.1)
    | _ => last) none

theorem lastCommand_frame (es : List (Event N)) (id : ConnectionId) (text : TextFrame) :
    lastCommand (es ++ [.frame id text]) = text.command.map (·.1) := by
  unfold lastCommand
  rw [List.foldl_append]
  rfl

theorem lastCommand_other (es : List (Event N)) {e : Event N}
    (other : ∀ id text, e ≠ .frame id text) : lastCommand (es ++ [e]) = lastCommand es := by
  unfold lastCommand
  rw [List.foldl_append]
  cases e with
  | frame id text => exact absurd rfl (other id text)
  | _ => rfl

/-- The only frames are a user's `JOIN`s and `LEAVE`s of a group, each sent after the frames
before it were handled, and nothing disturbs their handlers. -/
def Commands (s : Cluster N) (t g u : String) : Event N → Prop
  | .frame id text =>
      (∀ id' socket, s.sockets id' = some socket →
        socket.handling = none ∨ socket.task = .ret ()) ∧
      (∀ socket, s.sockets id = some socket → socket.identity = ⟨t, u⟩) ∧
      (text.command = some (.join, g) ∨ text.command = some (.leave, g))
  | e => s.Undisturbed e

theorem Commands.undisturbed {t g u : String} {s : Cluster N} {e : Event N}
    (commands : s.Commands t g u e) : s.Undisturbed e := by
  cases e with
  | frame id text => trivial
  | _ => exact commands

/-- A `LEAVE` takes the user out only when no join of the user is in a stream. -/
def Heard (s : Cluster N) (t g u : String) (e : Event N) : Prop :=
  s.Performs e (.leaveGroup t g u) → ∀ n, ∀ msg ∈ s.streams n, ¬ msg.Announces t g u

/-! ### Handlers -/

/-- A group is found when it is looked up. -/
def Finds (t g : String) : (op : Effect) → op.Answer → Prop
  | .selectGroup t' g', found => t' = t → g' = g → Option.isSome found = true
  | _, _ => True

/-- What the handlers do after a command: no group is made or deleted, and after a `JOIN`
the user is not taken out, after anything else neither joined nor announced. -/
def Follows (last : Option GroupMessageType) (t g u : String) (op : Effect) : Prop :=
  (∀ id name createdBy t', op ≠ .upsertGroup id t' name createdBy) ∧ op ≠ .deleteGroup t g ∧
    if last = some .join then op ≠ .leaveGroup t g u
    else op ≠ .joinGroup t g u ∧ ¬ op.Announces t g u

/-- A connection joins `general` and nothing else before its first frame. -/
def General (op : Effect) : Prop := ∃ t u, op = .joinGroup t "general" u

theorem General.follows {op : Effect} (general : General op) {g : String} (other : g ≠ "general")
    (last : Option GroupMessageType) (t u : String) : Follows last t g u op := by
  obtain ⟨t', u', rfl⟩ := general
  refine ⟨fun _ _ _ _ same => (nomatch same), fun same => (nomatch same), ?_⟩
  split
  · exact fun same => (nomatch same)
  · refine ⟨fun same => ?_, id⟩
    injection same with _ group _
    exact other group.symm

section Handlers

variable {state : AppState} {text : TextFrame} {t g u : String}

theorem follows_join (join : text.command = some (.join, g)) :
    (handleTextMessage text ⟨t, u⟩ state).Always (Follows (some .join) t g u) := by
  refine (ofFrame_handleTextMessage text ⟨t, u⟩ state).mono fun op own => ⟨?_, ?_, ?_⟩
  · rintro id name createdBy t' rfl
    have create := own.2.2
    rw [join] at create
    simp at create
  · rintro rfl
    have delete := own.2
    rw [join] at delete
    simp at delete
  · rw [if_pos rfl]
    rintro rfl
    have leave := own.2.2
    rw [join] at leave
    simp at leave

theorem follows_leave (leave : text.command = some (.leave, g)) :
    (handleTextMessage text ⟨t, u⟩ state).Always (Follows (some .leave) t g u) := by
  refine (ofFrame_handleTextMessage text ⟨t, u⟩ state).mono fun op own => ⟨?_, ?_, ?_⟩
  · rintro id name createdBy t' rfl
    have create := own.2.2
    rw [leave] at create
    simp at create
  · rintro rfl
    have delete := own.2
    rw [leave] at delete
    simp at delete
  · rw [if_neg (by decide)]
    constructor
    · rintro rfl
      have joins := own.2.2
      rw [leave] at joins
      simp at joins
    · intro announces
      cases op with
      | publish channel msg =>
          have join := (own.2.2.2 announces.1).2
          rw [leave] at join
          simp at join
      | _ => exact announces

/-- A `JOIN` of a group that is found joins it. -/
theorem must_join (join : text.command = some (.join, g)) :
    (handleTextMessage text ⟨t, u⟩ state).Must (Finds t g) (· = .joinGroup t g u) := by
  rw [handleTextMessage_join text ⟨t, u⟩ state join, handleJoin_eq]
  refine .inr fun found ok => ?_
  cases found with
  | none => exact absurd (ok rfl rfl) (by simp)
  | some conversationId => exact .inr fun _ _ => .inl rfl

/-- A `LEAVE` leaves. -/
theorem must_leave (leave : text.command = some (.leave, g)) :
    (handleTextMessage text ⟨t, u⟩ state).Must (Finds t g) (· = .leaveGroup t g u) := by
  rw [handleTextMessage_leave text ⟨t, u⟩ state leave, handleLeave_eq]
  exact Prog.Must.bind fun conversationId => .inr fun _ _ => .inl rfl

end Handlers

/-! ### The invariant -/

variable [DecidableEq N] {state : AppState}

/-- Only `CREATE` writes the table of groups. -/
theorem groups_perform (s : Cluster N) (n : N) (choice : Choice) (op : Effect)
    (noCreate : ∀ id name createdBy t, op ≠ .upsertGroup id t name createdBy) :
    (s.perform n choice op).2.db.groups = s.db.groups := by
  rcases groups_perform_cases s n choice op with ⟨groups, _⟩ | ⟨_, _, _, _, inserted⟩ |
    ⟨_, _, _, deleted⟩ | ⟨id, t, name, createdBy, _, create, _⟩
  · exact groups
  · exact Database.groups_insertGroupMember inserted
  · exact Database.groups_deleteGroupMember deleted
  · exact absurd create (noCreate id name createdBy t)

/-- A statement that succeeds finds a group that exists. -/
theorem finds_perform {s : Cluster N} {t g : String} (groupExists : (s.db.selectGroup t g).isSome)
    (n : N) {choice : Choice} (ok : choice.ok = true) (op : Effect) :
    Finds t g op (s.perform n choice op).1 := by
  cases op with
  | selectGroup t' g' =>
      rintro rfl rfl
      simp only [perform, ok, if_true]
      exact groupExists
  | _ => trivial

/-- After the events `es`: the group exists, the handlers follow the last command, and after
a `JOIN` the user is a member or its handler is about to join it; otherwise the handler is
about to take the user out, or the user is out and no join is in the stream. -/
structure LastWins (t g u : String) (es : List (Event Unit)) (s : Cluster Unit) : Prop where
  groupExists : (s.db.selectGroup t g).isSome
  general : ∀ id socket, s.sockets id = some socket → socket.handling = none →
    socket.task.Always General
  follows : ∀ id socket, s.sockets id = some socket →
    socket.task.Always (Follows (lastCommand es) t g u)
  joined : lastCommand es = some .join → s.member () t g u = true ∨
    ∃ id socket, s.sockets id = some socket ∧
      socket.task.Must (Finds t g) (· = .joinGroup t g u)
  out : lastCommand es ≠ some .join →
    (∃ id socket, s.sockets id = some socket ∧
      socket.task.Must (Finds t g) (· = .leaveGroup t g u)) ∨
    s.member () t g u = false ∧ ∀ msg ∈ s.streams (), ¬ msg.Announces t g u

theorem LastWins.init {t g u : String} {db : Database} (groupExists : (db.selectGroup t g).isSome) :
    LastWins t g u [] (start db) where
  groupExists := groupExists
  general := fun _ _ found => nomatch found
  follows := fun _ _ found => nomatch found
  joined := fun last => nomatch last
  out := by
    refine fun _ => .inr ⟨?_, fun msg mem => nomatch mem⟩
    simp [member, start, ConnectionRegistry.new, ConnectionRegistry.isUserInGroup]

/-- What an event performs follows the last command. -/
theorem LastWins.follows_of_performs {t g u : String} {es : List (Event Unit)} {s : Cluster Unit}
    (inv : LastWins t g u es s) {e : Event Unit} {op : Effect} (performs : s.Performs e op) :
    Follows (lastCommand es) t g u op := by
  obtain ⟨id, choice, socket, next, _, found, task⟩ := performs
  have follows := inv.follows id socket found
  rw [task] at follows
  exact follows.1

section Step

variable {t g u : String} {es : List (Event Unit)} {s s' : Cluster Unit} {e : Event Unit}
  (inv : LastWins t g u es s) (h : Stepped state s e s')

include inv h

theorem LastWins.groupExists_step : (s'.db.selectGroup t g).isSome := by
  have same : s'.db.groups = s.db.groups := by
    cases h with
    | @perform id n identity alive handling op next choice busy =>
        have follows := inv.follows id _ busy
        exact groups_perform s n choice op follows.1.1
    | _ => rfl
  rw [Database.selectGroup_congr same]
  exact inv.groupExists

/-- What the user's handler is bound to do, it does or is still bound to do. -/
theorem LastWins.must_step (ok : s.Undisturbed e) (other : ∀ id text, e ≠ .frame id text)
    {id : ConnectionId} {socket : Socket Unit} (found : s.sockets id = some socket)
    {op : Effect} (must : socket.task.Must (Finds t g) (· = op)) :
    s.Performs e op ∨ ∃ id socket, s'.sockets id = some socket ∧
      socket.task.Must (Finds t g) (· = op) := by
  obtain ⟨socket', there, _, _, moved⟩ := h.moved found
  rcases moved with ⟨text, frame, _⟩ |
    ⟨_, ⟨choice, op', next, rfl, task, now⟩ | ⟨rfl, _⟩ | same⟩
  · exact absurd frame (other id text)
  · rw [task] at must
    rcases must with rfl | later
    · exact .inl ⟨id, choice, socket, next, rfl, found, task⟩
    · refine .inr ⟨id, socket', there, ?_⟩
      rw [now]
      exact later _ (finds_perform inv.groupExists socket.node ok op')
  · rw [ok socket found] at must
    exact absurd must (Prog.must_ret _)
  · exact .inr ⟨id, socket', there, same ▸ must⟩

omit inv in
theorem Stepped.general (before : ∀ id socket, s.sockets id = some socket →
    socket.handling = none → socket.task.Always General) {id : ConnectionId}
    {socket : Socket Unit} (found : s'.sockets id = some socket) :
    socket.handling = none → socket.task.Always General := by
  refine h.tasks (fun handling task => handling = none → task.Always General)
    (fun _ _ => trivial) (fun _ _ _ answer always none => (always none).2 answer) ?_ ?_ before found
  · exact fun identity _ => ⟨⟨_, _, rfl⟩, fun _ => trivial⟩
  · exact fun _ _ _ _ _ none => nomatch none

theorem LastWins.follows_step (commands : s.Commands t g u e) (other : g ≠ "general")
    {id : ConnectionId} {socket : Socket Unit} (found : s'.sockets id = some socket) :
    socket.task.Always (Follows (lastCommand (es ++ [e])) t g u) := by
  refine h.tasks (fun _ task => task.Always (Follows (lastCommand (es ++ [e])) t g u))
    (fun _ => trivial) (fun _ _ _ answer always => always.2 answer) ?_ ?_ ?_ found
  · exact fun identity => ⟨General.follows ⟨_, _, rfl⟩ other _ t u, fun _ => trivial⟩
  · rintro id text socket rfl here
    obtain ⟨_, owner, command⟩ := commands
    rw [lastCommand_frame, owner socket here]
    rcases command with join | leave
    · rw [join]
      exact follows_join join
    · rw [leave]
      exact follows_leave leave
  · intro id socket here
    by_cases frame : ∃ id text, e = .frame id text
    · obtain ⟨_, text, rfl⟩ := frame
      rcases commands.1 id socket here with none | ended
      · exact (inv.general id socket here none).mono fun op general =>
          general.follows other _ t u
      · rw [ended]
        trivial
    · rw [lastCommand_other es fun id text same => frame ⟨id, text, same⟩]
      exact inv.follows id socket here

/-- After a `JOIN` the user is or becomes a member, and stays one. -/
theorem LastWins.joined_step (commands : s.Commands t g u e)
    (last : lastCommand (es ++ [e]) = some .join) : s'.member () t g u = true ∨
    ∃ id socket, s'.sockets id = some socket ∧
      socket.task.Must (Finds t g) (· = .joinGroup t g u) := by
  by_cases frame : ∃ id text, e = .frame id text
  · obtain ⟨id, text, rfl⟩ := frame
    obtain ⟨_, owner, command⟩ := commands
    rw [lastCommand_frame] at last
    cases h with
    | @frame _ n identity handling value text idle =>
        rcases command with join | leave
        · obtain rfl : identity = ⟨t, u⟩ := owner _ idle
          exact .inr ⟨id, _, Function.update_self id _ _, must_join join⟩
        · rw [leave] at last
          simp at last
  · have other : ∀ id text, e ≠ .frame id text := fun id text same => frame ⟨id, text, same⟩
    rw [lastCommand_other es other] at last
    rcases inv.joined last with here | ⟨id, socket, found, must⟩
    · refine .inl (h.stays_in here ?_ ?_)
      · intro leaves
        obtain ⟨_, _, stays⟩ := inv.follows_of_performs leaves
        rw [if_pos last] at stays
        exact stays rfl
      · intro deletes
        obtain ⟨_, noDelete, _⟩ := inv.follows_of_performs deletes
        exact noDelete rfl
    · rcases inv.must_step h commands.undisturbed other found must with
        ⟨id, choice, socket, next, performs, found, task⟩ | later
      · left
        rw [h.member_performed performs found task]
        simp [memberAfter]
      · exact .inr later

/-- Otherwise the user gets out once nothing brings it back, and stays out. -/
theorem LastWins.out_step (commands : s.Commands t g u e) (heard : s.Heard t g u e)
    (last : lastCommand (es ++ [e]) ≠ some .join) :
    (∃ id socket, s'.sockets id = some socket ∧
      socket.task.Must (Finds t g) (· = .leaveGroup t g u)) ∨
    s'.member () t g u = false ∧ ∀ msg ∈ s'.streams (), ¬ msg.Announces t g u := by
  by_cases frame : ∃ id text, e = .frame id text
  · obtain ⟨id, text, rfl⟩ := frame
    obtain ⟨_, owner, command⟩ := commands
    rw [lastCommand_frame] at last
    cases h with
    | @frame _ n identity handling value text idle =>
        rcases command with join | leave
        · rw [join] at last
          simp at last
        · obtain rfl : identity = ⟨t, u⟩ := owner _ idle
          exact .inl ⟨id, _, Function.update_self id _ _, must_leave leave⟩
  · have other : ∀ id text, e ≠ .frame id text := fun id text same => frame ⟨id, text, same⟩
    rw [lastCommand_other es other] at last
    have silent : (∀ msg ∈ s.streams (), ¬ msg.Announces t g u) →
        ∀ msg ∈ s'.streams (), ¬ msg.Announces t g u := by
      intro before msg mem announces
      rcases h.mem_streams mem with old | ⟨id, socket, channel, next, found, task, _⟩
      · exact before msg old announces
      · have follows := inv.follows id socket found
        rw [task] at follows
        obtain ⟨⟨_, _, quiet⟩, _⟩ := follows
        rw [if_neg last] at quiet
        exact quiet.2 announces
    rcases inv.out last with ⟨id, socket, found, must⟩ | ⟨absent, none⟩
    · rcases inv.must_step h commands.undisturbed other found must with leaves | later
      · right
        have none := heard leaves ()
        obtain ⟨id, choice, socket, next, performs, found, task⟩ := leaves
        refine ⟨?_, silent none⟩
        rw [h.member_performed performs found task]
        simp [memberAfter]
      · exact .inl later
    · refine .inr ⟨h.stays_out absent ?_ none, silent none⟩
      intro joins
      obtain ⟨_, _, quiet⟩ := inv.follows_of_performs joins
      rw [if_neg last] at quiet
      exact quiet.1 rfl

theorem LastWins.step (commands : s.Commands t g u e) (heard : s.Heard t g u e)
    (other : g ≠ "general") : LastWins t g u (es ++ [e]) s' where
  groupExists := inv.groupExists_step h
  general := fun _ _ found => h.general inv.general found
  follows := fun _ _ found => inv.follows_step h commands other found
  joined := inv.joined_step h commands
  out := inv.out_step h commands heard

end Step

/-! ### The last command over runs -/

/-- On one node, where every `LEAVE` finds the joins of its user handled, the user is a
member exactly when its last command was a `JOIN`, whenever nothing is in flight. -/
theorem last_command_wins (state : AppState) (db : Database) {t g u : String}
    (other : g ≠ "general") (groupExists : (db.selectGroup t g).isSome) {es : List (Event Unit)}
    {s : Cluster Unit} (ran : (machine Unit state).run (start db) es = some s)
    (commands : (machine Unit state).Steps (Commands · t g u) (start db) es)
    (heard : (machine Unit state).Steps (Heard · t g u) (start db) es) (quiet : s.Quiescent) :
    s.member () t g u = true ↔ lastCommand es = some .join := by
  have inv : LastWins t g u es s :=
    Machine.invariant_trace (LastWins.init groupExists)
      (fun _ _ _ _ inv ok next => inv.step (stepped next) ok.1 ok.2 other) ran
      (commands.and heard)
  have idle : ∀ {A : (op : Effect) → op.Answer → Prop} {P : Effect → Prop},
      ¬ ∃ id socket, s.sockets id = some socket ∧ socket.task.Must A P := by
    rintro A P ⟨id, socket, found, must⟩
    rw [quiet.2 id socket found] at must
    exact Prog.must_ret _ must
  constructor
  · intro here
    by_contra last
    obtain ⟨absent, _⟩ := (inv.out last).resolve_left idle
    rw [here] at absent
    simp at absent
  · exact fun last => (inv.joined last).resolve_right idle

/-! ### Before and after the echo -/

/-- Commands that one connection sends one by one. -/
def oneByOne (s : Cluster N) (id : ConnectionId) (t g u : String) : Event N → Bool
  | .frame id' text => id' = id && (s.sockets id).all (fun socket =>
      idle socket && socket.identity = ⟨t, u⟩) &&
      (text.command = some (.join, g) || text.command = some (.leave, g))
  | .connect id' _ _ => id' = id
  | e => orderly e

theorem commands_of_oneByOne {db : Database} {es : List (Event N)} {id : ConnectionId}
    {t g u : String}
    (steps : (machine N state).Steps (fun s e => s.oneByOne id t g u e = true) (start db) es) :
    (machine N state).Steps (Commands · t g u) (start db) es := by
  let Inv : Cluster N → Prop := fun s => ∀ id' socket, s.sockets id' = some socket → id' = id
  have init : Inv (start db) := fun _ _ found => nomatch found
  refine Machine.Steps.of_inv (fun s e s' one ok next id' socket found => ?_)
    (fun s e one ok => ?_) init steps
  · rcases (stepped next).socket found with ⟨rfl, _, _⟩ | ⟨old, here, _⟩
    · simpa [oneByOne] using ok
    · exact one id' old here
  · cases e with
    | frame id' text =>
        simp only [oneByOne, Bool.and_eq_true, decide_eq_true_eq, Bool.or_eq_true,
          Option.all_eq_true] at ok
        obtain ⟨⟨rfl, sockets⟩, command⟩ := ok
        refine ⟨fun id socket found => ?_, fun socket found => (sockets socket found).2, command⟩
        obtain rfl := one id socket found
        exact .inr (task_of_idle (sockets socket found).1)
    | abort id' => simp [oneByOne, orderly] at ok
    | perform id' choice => exact ok
    | _ => trivial

/-- No handler takes anybody out while a join is in the stream. -/
def joinsHandled (s : Cluster Unit) : Event Unit → Bool
  | .perform id _ =>
      match s.sockets id with
      | some ⟨_, _, _, _, .call (.leaveGroup _ _ _) _⟩ =>
          (s.streams ()).all fun msg => msg.msgType ≠ "group_join"
      | _ => true
  | _ => true

theorem heard_of_joinsHandled {s : Cluster Unit} {e : Event Unit} (t g u : String)
    (handled : s.joinsHandled e = true) : s.Heard t g u e := by
  rintro ⟨id, choice, ⟨n, identity, alive, handling, task⟩, next, rfl, found, leaves⟩ _ msg mem
    announces
  obtain rfl : task = .call (.leaveGroup t g u) next := leaves
  simp only [joinsHandled, found, List.all_eq_true, decide_eq_true_eq] at handled
  exact handled msg mem announces.1

/-- `JOIN`, its echo, `LEAVE`. -/
def echoHandled : List (Event Unit) :=
  [.connect 1 () ⟨"acme", "ada"⟩] ++ performs 1 ++ [.frame 1 (teamFrame .join)] ++ performs 6 ++
    [.deliver ()] ++ [.frame 1 (teamFrame .leave)] ++ performs 6 ++ [.deliver ()]

/-- `JOIN`, `LEAVE`, the echo of the `JOIN`. -/
def echoLate : List (Event Unit) :=
  [.connect 1 () ⟨"acme", "ada"⟩] ++ performs 1 ++ [.frame 1 (teamFrame .join)] ++ performs 6 ++
    [.frame 1 (teamFrame .leave)] ++ performs 6 ++ [.deliver (), .deliver ()]

/-- A `LEAVE` after the echo takes the user out. -/
theorem last_command_wins_after_echo :
    let state : AppState := ⟨true, fun _ => 0⟩
    ∃ s, (machine Unit state).run (start teamDb) echoHandled = some s ∧ s.Quiescent ∧
      s.member () "acme" "team" "ada" = false := by
  intro state
  obtain ⟨s, ran, streams, ended⟩ :
      ∃ s ∈ (machine Unit state).run (start teamDb) echoHandled,
        s.streams () = [] ∧ ∀ socket ∈ s.sockets 1, idle socket = true := by decide
  have quiet : s.Quiescent := by
    refine quiescent_of_one ran (fun id n identity mem => ?_) (fun _ => streams) ended
    have one : id = 1 ∧ identity = ⟨"acme", "ada"⟩ := by simpa [echoHandled, performs] using mem
    exact one.1
  have commands : (machine Unit state).Steps (fun s e =>
      s.oneByOne 1 "acme" "team" "ada" e = true) (start teamDb) echoHandled := by decide
  have handled : (machine Unit state).Steps (fun s e => s.joinsHandled e = true) (start teamDb)
      echoHandled := by decide
  have wins : s.member () "acme" "team" "ada" = true ↔ lastCommand echoHandled = some .join :=
    last_command_wins state teamDb (by decide) (by decide) ran (commands_of_oneByOne commands)
      (handled.mono fun _ _ => heard_of_joinsHandled _ _ _) quiet
  refine ⟨s, ran, quiet, Bool.eq_false_iff.mpr fun here => ?_⟩
  exact absurd (wins.mp here) (by decide)

/-- The echo of a `JOIN` undoes the `LEAVE` after it. -/
theorem echo_undoes_leave :
    let state : AppState := ⟨true, fun _ => 0⟩
    ∃ s, (machine Unit state).run (start teamDb) echoLate = some s ∧
      (machine Unit state).Steps (Commands · "acme" "team" "ada") (start teamDb) echoLate ∧
      s.Quiescent ∧ lastCommand echoLate = some .leave ∧
      s.member () "acme" "team" "ada" = true := by
  intro state
  obtain ⟨s, ran, streams, ended, here⟩ :
      ∃ s ∈ (machine Unit state).run (start teamDb) echoLate,
        s.streams () = [] ∧ (∀ socket ∈ s.sockets 1, idle socket = true) ∧
        s.member () "acme" "team" "ada" = true := by decide
  have commands : (machine Unit state).Steps (fun s e =>
      s.oneByOne 1 "acme" "team" "ada" e = true) (start teamDb) echoLate := by decide
  refine ⟨s, ran, commands_of_oneByOne commands, ?_, by decide, here⟩
  refine quiescent_of_one ran (fun id n identity mem => ?_) (fun _ => streams) ended
  have one : id = 1 ∧ identity = ⟨"acme", "ada"⟩ := by simpa [echoLate, performs] using mem
  exact one.1

end Cluster

end YappaCore
