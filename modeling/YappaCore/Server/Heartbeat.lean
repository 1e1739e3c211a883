import YappaCore.Server.Session

/-!
The receive task of `handle_socket` in `src/server/ws.rs` against a clock, in milliseconds: when
its heartbeat ends it. The task waits for the next frame and for the next tick, and of what is there
when it wakes it takes either. It wakes up to `late` after the moment at which something was there:
timers fire after their deadline, and the task has to be scheduled. While the handler of a text runs
it does nothing else, so that frames wait and ticks are missed; the missed ticks follow at once. It
is aborted, at any moment, when the send task has ended.

`run_session`: its iterations are those of the sessions' machine. `silent_ends`: when a task whose
client is silent ends. `tolerates_iff`: how slow the answers to its pings and the handlers may
be for a task never to end by a tick.
-/

namespace YappaCore

open Lib

namespace Sessions

/-- `HEARTBEAT_INTERVAL`, in milliseconds. -/
def HEARTBEAT_INTERVAL : Nat := 15 * 1000

/-- The loop goes on after it. -/
def Received.keeps : Received → Bool
  | .text | .binary | .ping | .pong => true
  | .close | .error | .ended | .tick => false

theorem recvTask_of_keeps {received : Received} (keeps : received.keeps = true)
    (lastActivity now : Nat) : recvTask lastActivity now received = some now := by
  cases received with
  | text | binary | ping | pong => rfl
  | close | error | ended | tick => exact absurd keeps (by simp [Received.keeps])

end Sessions

namespace Heartbeat

open Sessions

/-- What the stream has for the task at some time, and how long the handler runs if it is a
text. -/
structure Arrival where
  time : Nat
  received : Received
  work : Nat
deriving DecidableEq, Repr

/-- How long the task is busy with it. -/
def Arrival.busy (arrival : Arrival) : Nat :=
  match arrival.received with
  | .text => arrival.work
  | _ => 0

/-- All that the stream will have, in the order of arrival. -/
structure Feed where
  arrivals : List Arrival
  inOrder : arrivals.Pairwise fun first second => first.time ≤ second.time
  noTick : ∀ arrival ∈ arrivals, arrival.received ≠ .tick

/-- The task between two iterations: `now` is when it is free for the next one. Without a last
activity the loop has ended. -/
structure State where
  now : Nat
  position : Nat
  due : Nat
  lastActivity : Option Nat
deriving DecidableEq, Repr

/-- The first tick of the interval is due at once. -/
def start : State := ⟨0, 0, 0, some 0⟩

namespace State

/-- When there is something to take: at once, or when the next frame comes or the next tick is
due. -/
def ready (feed : Feed) (s : State) : Nat :=
  max s.now (match feed.arrivals[s.position]? with
    | some arrival => min arrival.time s.due
    | none => s.due)

/-- The times at which the task may go on: at once where something is there, and otherwise up to
`late` after it is. -/
def Wakes (late : Nat) (feed : Feed) (s : State) (time : Nat) : Prop :=
  s.ready feed ≤ time ∧ (time = s.now ∨ s.now < s.ready feed ∧ time ≤ s.ready feed + late)

instance (late : Nat) (feed : Feed) (s : State) (time : Nat) :
    Decidable (s.Wakes late feed time) := by
  unfold Wakes; infer_instance

/-- After the iteration that takes an arrival. -/
def took (s : State) (last : Nat) (arrival : Arrival) (time : Nat) : State :=
  { s with
    now := time + arrival.busy
    position := s.position + 1
    lastActivity := recvTask last time arrival.received }

/-- After the iteration that takes a tick; a tick that was missed does not move the next one. -/
def ticked (s : State) (last time : Nat) : State :=
  { s with
    now := time
    due := s.due + HEARTBEAT_INTERVAL
    lastActivity := recvTask last time .tick }

end State

/-- The branch of the `select!` that is taken and when, or the end of the task by
`recv_task.abort()`, before its next iteration. -/
inductive Event where
  | frame (time : Nat)
  | tick (time : Nat)
  | abort
deriving DecidableEq, Repr

/-- One iteration, or the abort. -/
def step (late : Nat) (feed : Feed) (s : State) : Event → Option State
  | .frame time =>
      match s.lastActivity, feed.arrivals[s.position]? with
      | some last, some arrival =>
          if s.Wakes late feed time ∧ arrival.time ≤ time then some (s.took last arrival time)
          else none
      | _, _ => none
  | .tick time =>
      match s.lastActivity with
      | some last =>
          if s.Wakes late feed time ∧ s.due ≤ time then some (s.ticked last time) else none
      | none => none
  | .abort =>
      match s.lastActivity with
      | some _ => some { s with lastActivity := none }
      | none => none

def machine (late : Nat) (feed : Feed) : Machine State Event := ⟨step late feed⟩

/-- The ping that an iteration sends. -/
def pinged (s : State) : Event → List Nat
  | .tick time =>
      if (s.lastActivity.bind fun last => recvTask last time .tick).isSome then [time] else []
  | _ => []

/-- When the task sent its pings in a run. -/
def pings (late : Nat) (feed : Feed) (es : List Event) : List Nat :=
  (machine late feed).emitted pinged start es

/-! ### Iterations -/

section Steps

variable {late : Nat} {feed : Feed} {s s' : State} {time : Nat}

theorem step_frame : (machine late feed).step s (.frame time) = some s' ↔
    ∃ last arrival, s.lastActivity = some last ∧ feed.arrivals[s.position]? = some arrival ∧
      s.Wakes late feed time ∧ arrival.time ≤ time ∧ s' = s.took last arrival time := by
  simp only [machine, step]
  cases s.lastActivity with
  | none => simp
  | some last =>
      cases feed.arrivals[s.position]? with
      | none => simp
      | some arrival => simp [and_assoc, eq_comm]

theorem step_tick : (machine late feed).step s (.tick time) = some s' ↔
    ∃ last, s.lastActivity = some last ∧ s.Wakes late feed time ∧ s.due ≤ time ∧
      s' = s.ticked last time := by
  simp only [machine, step]
  cases s.lastActivity with
  | none => simp
  | some last => simp [and_assoc, eq_comm]

theorem step_abort : (machine late feed).step s .abort = some s' ↔
    s.lastActivity ≠ none ∧ s' = { s with lastActivity := none } := by
  simp only [machine, step]
  cases s.lastActivity with
  | none => simp
  | some last => simp [eq_comm]

/-- A task that has ended does nothing. -/
theorem not_step_of_ended {e : Event} (ended : s.lastActivity = none) :
    (machine late feed).step s e ≠ some s' := by
  intro next
  cases e with
  | frame time =>
      obtain ⟨_, _, alive, _⟩ := step_frame.mp next
      simp [ended] at alive
  | tick time =>
      obtain ⟨_, alive, _⟩ := step_tick.mp next
      simp [ended] at alive
  | abort => exact (step_abort.mp next).1 ended

theorem State.Wakes.now_le (wakes : s.Wakes late feed time) : s.now ≤ time :=
  (Nat.le_max_left _ _).trans wakes.1

/-- A tick is taken at once or up to `late` after it is due. -/
theorem State.Wakes.le_due (wakes : s.Wakes late feed time) :
    time = s.now ∨ time ≤ s.due + late := by
  refine wakes.2.imp_right fun ⟨waits, bound⟩ => ?_
  cases there : feed.arrivals[s.position]? with
  | none =>
      simp only [State.ready, there] at waits bound
      omega
  | some arrival =>
      simp only [State.ready, there] at waits bound
      omega

/-- And up to `late` after the next frame is there. -/
theorem State.Wakes.le_frame (wakes : s.Wakes late feed time) {arrival : Arrival}
    (there : feed.arrivals[s.position]? = some arrival) :
    time = s.now ∨ time ≤ arrival.time + late := by
  refine wakes.2.imp_right fun ⟨waits, bound⟩ => ?_
  simp only [State.ready, there] at waits bound
  omega

theorem recvTask_tick (last now : Nat) : recvTask last now .tick =
    if now ≤ last + HEARTBEAT_TIMEOUT then some last else none := by
  simp only [recvTask]
  by_cases late : now ≤ last + HEARTBEAT_TIMEOUT
  · rw [if_pos late, if_neg (by omega)]
  · rw [if_neg late, if_pos (by omega)]

theorem lastActivity_ticked (s : State) (last time : Nat) : (s.ticked last time).lastActivity =
    if time ≤ last + HEARTBEAT_TIMEOUT then some last else none := recvTask_tick last time

theorem pinged_tick {last : Nat} (alive : s.lastActivity = some last) :
    pinged s (.tick time) = if time ≤ last + HEARTBEAT_TIMEOUT then [time] else [] := by
  simp only [pinged, alive, Option.bind_some, recvTask_tick]
  by_cases early : time ≤ last + HEARTBEAT_TIMEOUT
  · simp [early]
  · simp [early]

end Steps

/-! ### The machine of the sessions -/

/-- An iteration is one of the receive task of a session with this last activity, and the abort
follows an iteration of its send task. -/
theorem step_session {late : Nat} {feed : Feed} {s s' : State} {e : Event}
    (next : (machine late feed).step s e = some s') {limiter : TenantLimiter}
    {all : Sessions.State} {session : Session} (mem : session ∈ all.sessions)
    (phase : session.phase = afterRecv s.lastActivity) :
    ∃ f, (Sessions.machine limiter).step all f =
      some (all.enter session (afterRecv s'.lastActivity)) := by
  have recv : ∀ last now received, s.lastActivity = some last →
      s'.lastActivity = recvTask last now received →
        (Sessions.machine limiter).step all (.recv session now received) =
          some (all.enter session (afterRecv s'.lastActivity)) := by
    intro last now received alive after
    have live : session.phase = .live last := by rw [phase, alive]; rfl
    simp only [Sessions.machine, Sessions.step, live]
    rw [if_pos mem, after]
  cases e with
  | frame time =>
      obtain ⟨last, arrival, alive, _, _, _, rfl⟩ := step_frame.mp next
      exact ⟨_, recv last time arrival.received alive rfl⟩
  | tick time =>
      obtain ⟨last, alive, _, _, rfl⟩ := step_tick.mp next
      exact ⟨_, recv last time .tick alive rfl⟩
  | abort =>
      obtain ⟨some, rfl⟩ := step_abort.mp next
      obtain ⟨last, alive⟩ := Option.ne_none_iff_exists'.mp some
      have live : session.phase = .live last := by rw [phase, alive]; rfl
      refine ⟨.send session .error, ?_⟩
      simp only [Sessions.machine, Sessions.step, live]
      rw [if_pos mem]
      rfl

/-- A run of the task is one of the session: the sessions are as before, but for that one. -/
theorem run_session {late : Nat} {feed : Feed} {s s' : State} {es : List Event}
    (ran : (machine late feed).run s es = some s') {limiter : TenantLimiter} {all : Sessions.State}
    {session : Session} (mem : session ∈ all.sessions)
    (phase : session.phase = afterRecv s.lastActivity) :
    ∃ fs all', (Sessions.machine limiter).run all fs = some all' ∧ all'.redis = all.redis ∧
      all'.sessions =
        { session with phase := afterRecv s'.lastActivity } ::ₘ all.sessions.erase session := by
  induction es generalizing s all session with
  | nil =>
      cases ran
      refine ⟨[], all, rfl, rfl, ?_⟩
      rw [← phase]
      exact (Multiset.cons_erase mem).symm
  | cons e es ih =>
      obtain ⟨t, first, rest⟩ := Option.bind_eq_some_iff.mp ran
      obtain ⟨f, next⟩ := @step_session _ _ _ _ _ first limiter _ _ mem phase
      let moved : Session := { session with phase := afterRecv t.lastActivity }
      have there : moved ∈ (all.enter session (afterRecv t.lastActivity)).sessions :=
        Multiset.mem_cons_self _ _
      obtain ⟨fs, all', later, redis, sessions⟩ := ih rest there rfl
      refine ⟨f :: fs, all', ?_, redis, ?_⟩
      · rw [Machine.run_cons, next]
        exact later
      · have others : (all.enter session (afterRecv t.lastActivity)).sessions.erase moved =
            all.sessions.erase session := Multiset.erase_cons_head _ _
        rw [sessions, others]

/-! ### A silent client -/

/-- The next tick is at most an interval away, and not later than the first one that may end the
task. -/
structure Paced (s : State) : Prop where
  soon : s.due ≤ s.now + HEARTBEAT_INTERVAL
  last_le : ∀ last, s.lastActivity = some last → last ≤ s.now
  due_le : ∀ last, s.lastActivity = some last →
    s.due ≤ last + HEARTBEAT_TIMEOUT + HEARTBEAT_INTERVAL

theorem Paced.init : Paced start := by
  refine ⟨Nat.zero_le _, fun last alive => ?_, fun last _ => Nat.zero_le _⟩
  obtain rfl := Option.some.inj alive
  exact Nat.le_refl 0

section Paced

variable {late : Nat} {feed : Feed} {s : State} (paced : Paced s) {last time : Nat}
  (wakes : s.Wakes late feed time)

include paced wakes

theorem Paced.ticked (alive : s.lastActivity = some last) (due : s.due ≤ time) :
    Paced (s.ticked last time) := by
  have now := wakes.now_le
  have before := paced.last_le last alive
  have kept : ∀ last', (s.ticked last time).lastActivity = some last' →
      last' = last ∧ time ≤ last + HEARTBEAT_TIMEOUT := by
    intro last' still
    rw [lastActivity_ticked] at still
    split at still
    · rename_i early
      exact ⟨(Option.some.inj still).symm, early⟩
    · simp at still
  constructor
  · simp only [State.ticked]
    omega
  · intro last' still
    obtain ⟨rfl, _⟩ := kept last' still
    exact before.trans now
  · intro last' still
    obtain ⟨rfl, early⟩ := kept last' still
    simp only [State.ticked]
    omega

theorem Paced.took {arrival : Arrival} (noTick : arrival.received ≠ .tick) :
    Paced (s.took last arrival time) := by
  have soon := paced.soon
  have free := wakes.now_le
  have now : ∀ last', (s.took last arrival time).lastActivity = some last' → last' = time := by
    intro last' still
    have ends : (s.took last arrival time).lastActivity =
        recvTask last time arrival.received := rfl
    rw [ends] at still
    cases kind : arrival.received with
    | tick => exact absurd kind noTick
    | text | binary | ping | pong =>
        rw [kind] at still
        exact (Option.some.inj still).symm
    | close | error | ended =>
        rw [kind] at still
        simp [recvTask] at still
  constructor
  · simp only [State.took]
    omega
  · intro last' still
    rw [now last' still]
    exact Nat.le_add_right _ _
  · intro last' still
    rw [now last' still]
    simp only [State.took]
    omega

end Paced

theorem paced {late : Nat} {feed : Feed} {es : List Event} {s : State}
    (ran : (machine late feed).run start es = some s) : Paced s := by
  let Inv (_ : List Event) (s : State) : Prop := Paced s
  have step : ∀ es s e s', Inv es s → (machine late feed).step s e = some s' →
      Inv (es ++ [e]) s' := by
    intro es s e s' inv next
    cases e with
    | frame time =>
        obtain ⟨last, arrival, _, there, wakes, _, rfl⟩ := step_frame.mp next
        exact Paced.took inv wakes (feed.noTick arrival (List.mem_of_getElem? there))
    | tick time =>
        obtain ⟨last, alive, wakes, due, rfl⟩ := step_tick.mp next
        exact Paced.ticked inv wakes alive due
    | abort =>
        obtain ⟨_, rfl⟩ := step_abort.mp next
        have before : Paced s := inv
        exact ⟨before.soon, by simp, by simp⟩
  have init : Inv [] start := Paced.init
  exact Machine.invariant init step ran

/-- What a silent task may have come to after some more events: it is alive and only took ticks,
it was aborted, or a tick ended it in time. -/
inductive Silent (late : Nat) (s : State) (last : Nat) (more : List Event) (s' : State) : Prop
  | alive (same : s'.lastActivity = some last) (position : s'.position = s.position)
      (ticks : s.due + HEARTBEAT_INTERVAL * more.length = s'.due)
      (due : s'.due ≤ last + HEARTBEAT_TIMEOUT + HEARTBEAT_INTERVAL)
      (now : s'.now ≤ max s.now (last + HEARTBEAT_TIMEOUT))
  | aborted (ended : s'.lastActivity = none) {earlier : List Event}
      (last : more = earlier ++ [.abort])
  | timedOut (ended : s'.lastActivity = none) {earlier : List Event} {time : Nat}
      (final : more = earlier ++ [.tick time]) (after : last + HEARTBEAT_TIMEOUT < time)
      (soon : time ≤ max s.now (last + HEARTBEAT_TIMEOUT + HEARTBEAT_INTERVAL + late))

/-- The run lemma for a task to which nothing more comes. -/
theorem silent {late : Nat} {feed : Feed} {s : State} {last : Nat} (paced : Paced s)
    (alive : s.lastActivity = some last) (nothing : feed.arrivals[s.position]? = none)
    {more : List Event} {s' : State} (ran : (machine late feed).run s more = some s') :
    Silent late s last more s' ∧ HEARTBEAT_INTERVAL * more.length ≤
      last + HEARTBEAT_TIMEOUT + 2 * HEARTBEAT_INTERVAL := by
  let Inv (more : List Event) (s' : State) : Prop := Silent late s last more s' ∧
    HEARTBEAT_INTERVAL * more.length ≤ last + HEARTBEAT_TIMEOUT + 2 * HEARTBEAT_INTERVAL
  have init : Inv [] s := by
    refine ⟨.alive alive rfl rfl (paced.due_le last alive) (Nat.le_max_left _ _), ?_⟩
    exact Nat.zero_le _
  have step : ∀ more t e t', Inv more t → (machine late feed).step t e = some t' →
      Inv (more ++ [e]) t' := by
    rintro more t e t' ⟨silent, _⟩ next
    cases silent with
    | aborted ended _ => exact absurd next (not_step_of_ended ended)
    | timedOut ended _ _ _ => exact absurd next (not_step_of_ended ended)
    | alive same position ticks due now =>
        have length : HEARTBEAT_INTERVAL * (more ++ [e]).length ≤
            last + HEARTBEAT_TIMEOUT + 2 * HEARTBEAT_INTERVAL := by
          rw [List.length_append, List.length_singleton, Nat.mul_succ]
          omega
        refine ⟨?_, length⟩
        cases e with
        | frame time =>
            obtain ⟨_, _, _, there, _⟩ := step_frame.mp next
            rw [position, nothing] at there
            simp at there
        | abort =>
            obtain ⟨_, rfl⟩ := step_abort.mp next
            exact .aborted rfl rfl
        | tick time =>
            obtain ⟨last', still, wakes, ready, rfl⟩ := step_tick.mp next
            obtain rfl := Option.some.inj (same.symm.trans still)
            have lastActivity := lastActivity_ticked t last time
            by_cases early : time ≤ last + HEARTBEAT_TIMEOUT
            · rw [if_pos early] at lastActivity
              refine .alive lastActivity position ?_ ?_ ?_
              · rw [List.length_append, List.length_singleton, Nat.mul_succ]
                simp only [State.ticked]
                omega
              · simp only [State.ticked]
                omega
              · simp only [State.ticked]
                omega
            · rw [if_neg early] at lastActivity
              refine .timedOut lastActivity rfl (Nat.lt_of_not_le early) ?_
              rcases wakes.le_due with same | bound
              · omega
              · omega
  exact Machine.invariant init step ran

/-- After the last frame of a client, whatever came before, in whatever order frames and ticks were
taken and however late: as long as the task is alive a tick can be taken, it takes so many at most,
and the tick that ends it comes more than the timeout after the last activity, and at most the
timeout, an interval and the lateness after it or when the handler of the last frame returns.
Otherwise the task is aborted first. -/
theorem silent_ends {late : Nat} {feed : Feed} {es : List Event} {s : State} {last : Nat}
    (ran : (machine late feed).run start es = some s) (alive : s.lastActivity = some last)
    (nothing : feed.arrivals[s.position]? = none) {more : List Event} {s' : State}
    (ran' : (machine late feed).run s more = some s') :
    HEARTBEAT_INTERVAL * more.length ≤ last + HEARTBEAT_TIMEOUT + 2 * HEARTBEAT_INTERVAL ∧
      ((s'.lastActivity = some last ∧
          ∃ time s'', (machine late feed).step s' (.tick time) = some s'') ∨
        (s'.lastActivity = none ∧ ∃ earlier, more = earlier ++ [.abort]) ∨
        (s'.lastActivity = none ∧ ∃ earlier time, more = earlier ++ [.tick time] ∧
          last + HEARTBEAT_TIMEOUT < time ∧
          time ≤ max s.now (last + HEARTBEAT_TIMEOUT + HEARTBEAT_INTERVAL + late))) := by
  obtain ⟨silent, length⟩ := silent (paced ran) alive nothing ran'
  refine ⟨length, ?_⟩
  cases silent with
  | alive same position _ _ _ =>
      have ready : s'.ready feed = max s'.now s'.due := by
        simp only [State.ready, position, nothing]
      have wakes : s'.Wakes late feed (max s'.now s'.due) := by
        unfold State.Wakes
        rw [ready]
        omega
      refine .inl ⟨same, max s'.now s'.due, s'.ticked last (max s'.now s'.due), ?_⟩
      exact step_tick.mpr ⟨last, same, wakes, Nat.le_max_right _ _, rfl⟩
  | aborted ended final => exact .inr (.inl ⟨ended, _, final⟩)
  | timedOut ended final after soon => exact .inr (.inr ⟨ended, _, _, final, after, soon⟩)

/-- A text that came soon after the task began, and nothing after it: its handler takes until
20.1 s, and the third tick from then on, due at 45 s and a millisecond late, ends the task. -/
theorem silent_ends_text :
    let feed : Feed := ⟨[⟨100, .text, 20000⟩], by simp, by simp⟩
    let more : List Event := [.tick 20100, .tick 30001, .tick 45001]
    ∃ s s', (machine 1 feed).run start [.tick 0, .frame 100] = some s ∧
      (machine 1 feed).run s more = some s' ∧ s'.lastActivity = none ∧
      HEARTBEAT_INTERVAL * more.length ≤ 100 + HEARTBEAT_TIMEOUT + 2 * HEARTBEAT_INTERVAL ∧
      ((s'.lastActivity = some 100 ∧
          ∃ time s'', (machine 1 feed).step s' (.tick time) = some s'') ∨
        (s'.lastActivity = none ∧ ∃ earlier, more = earlier ++ [.abort]) ∨
        (s'.lastActivity = none ∧ ∃ earlier time, more = earlier ++ [.tick time] ∧
          100 + HEARTBEAT_TIMEOUT < time ∧
          time ≤ max s.now (100 + HEARTBEAT_TIMEOUT + HEARTBEAT_INTERVAL + 1))) := by
  intro feed more
  have ran : (machine 1 feed).run start [.tick 0, .frame 100] =
      some ⟨20100, 1, 15000, some 100⟩ := by decide
  have ran' : (machine 1 feed).run ⟨20100, 1, 15000, some 100⟩ more =
      some ⟨45001, 1, 60000, none⟩ := by decide
  exact ⟨_, _, ran, ran', rfl, silent_ends ran rfl rfl ran'⟩

/-! ### A client that answers -/

/-- Every ping has an answer, at most that long after it was sent. -/
def Answered (feed : Feed) (answer : Nat) (pings : List Nat) : Prop :=
  ∀ ping ∈ pings, ∃ arrival ∈ feed.arrivals, ping ≤ arrival.time ∧ arrival.time ≤ ping + answer

/-- A task that is not aborted goes on where the client only sends what the loop goes on after,
answers every ping within `answer`, and no handler runs longer than `work`. -/
def Tolerates (late answer work : Nat) : Prop :=
  ∀ feed : Feed, (∀ arrival ∈ feed.arrivals, arrival.received.keeps = true ∧ arrival.busy ≤ work) →
    ∀ es s, (machine late feed).run start es = some s → .abort ∉ es →
      Answered feed answer (pings late feed es) → s.lastActivity.isSome = true

/-- The state of a task that goes on. Its last activity is recent, or it has sent a ping since
then, and that soon after it. -/
structure Kept (feed : Feed) (late work : Nat) (pings : List Nat) (s : State) (last : Nat) :
    Prop where
  alive : s.lastActivity = some last
  last_le : last ≤ s.now
  timely : s.now ≤ last + HEARTBEAT_TIMEOUT
  taken : ∀ arrival ∈ feed.arrivals.take s.position, arrival.time ≤ last
  recent : (s.due ≤ last + HEARTBEAT_INTERVAL ∧ s.now ≤ last + work) ∨
    ∃ ping ∈ pings, last < ping ∧ ping ≤ last + max work (HEARTBEAT_INTERVAL + late)

theorem Kept.init (feed : Feed) (late work : Nat) : Kept feed late work [] start 0 := by
  refine ⟨rfl, Nat.le_refl 0, Nat.zero_le _, ?_, .inl ⟨Nat.zero_le _, Nat.zero_le _⟩⟩
  intro arrival mem
  exact absurd mem List.not_mem_nil

section Kept

variable {feed : Feed} {late answer work : Nat} {sent : List Nat} {s : State} {last time : Nat}
  (kept : Kept feed late work sent s last) (wakes : s.Wakes late feed time)

include kept

/-- An arrival after the last activity has not been taken, and the next one is not later. -/
theorem Kept.next_le {arrival : Arrival} (mem : arrival ∈ feed.arrivals)
    (after : last < arrival.time) :
    ∃ next, feed.arrivals[s.position]? = some next ∧ next.time ≤ arrival.time := by
  obtain ⟨i, here⟩ := List.getElem?_of_mem mem
  have untaken : s.position ≤ i := by
    by_contra old
    have early := kept.taken arrival (List.mem_of_getElem? (i := i) (by
      rw [List.getElem?_take_of_lt (Nat.lt_of_not_le old), here]))
    omega
  obtain ⟨bound, rfl⟩ := List.getElem?_eq_some_iff.mp here
  have there : s.position < feed.arrivals.length := by omega
  refine ⟨_, List.getElem?_eq_getElem there, ?_⟩
  rcases Nat.lt_or_eq_of_le untaken with lt | same
  · exact List.pairwise_iff_getElem.mp feed.inOrder s.position i there bound lt
  · simp only [same, Nat.le_refl]

include wakes

theorem Kept.took (soon : s.due ≤ s.now + HEARTBEAT_INTERVAL)
    (short : work ≤ HEARTBEAT_TIMEOUT) {arrival : Arrival}
    (there : feed.arrivals[s.position]? = some arrival) (came : arrival.time ≤ time)
    (keeps : arrival.received.keeps = true) (brief : arrival.busy ≤ work) :
    Kept feed late work sent (s.took last arrival time) time := by
  have free := wakes.now_le
  have later : last ≤ time := kept.last_le.trans free
  refine ⟨recvTask_of_keeps keeps _ _, Nat.le_add_right _ _, ?_, ?_, .inl ⟨?_, ?_⟩⟩
  · exact Nat.add_le_add_left (brief.trans short) _
  · intro other mem
    have position : (s.took last arrival time).position = s.position + 1 := rfl
    rw [position, List.take_add_one, there, Option.toList_some, List.mem_append] at mem
    rcases mem with old | new
    · exact (kept.taken other old).trans later
    · rw [List.mem_singleton.mp new]
      exact came
  · exact soon.trans (Nat.add_le_add_right free _)
  · exact Nat.add_le_add_left brief _

/-- The tick comes in time: soon after a recent activity, or no later than the answer to the ping
that was sent since then. -/
theorem Kept.in_time (quick : answer + 2 * late ≤ HEARTBEAT_INTERVAL)
    (both : answer + late + work ≤ HEARTBEAT_TIMEOUT) (answered : Answered feed answer sent) :
    time ≤ last + HEARTBEAT_TIMEOUT := by
  have timely := kept.timely
  unfold HEARTBEAT_INTERVAL at quick
  unfold HEARTBEAT_TIMEOUT at both timely ⊢
  rcases kept.recent with ⟨due, now⟩ | ⟨ping, mem, after, soon⟩
  · unfold HEARTBEAT_INTERVAL at due
    rcases wakes.le_due with same | bound
    · omega
    · omega
  · unfold HEARTBEAT_INTERVAL at soon
    obtain ⟨arrival, came, low, high⟩ := answered ping mem
    obtain ⟨next, there, first⟩ := kept.next_le came (Nat.lt_of_lt_of_le after low)
    rcases wakes.le_frame there with same | bound
    · omega
    · omega

theorem Kept.ticked (due : s.due ≤ time) (early : time ≤ last + HEARTBEAT_TIMEOUT) :
    Kept feed late work (sent ++ [time]) (s.ticked last time) last := by
  have free := wakes.now_le
  refine ⟨?_, kept.last_le.trans free, early, kept.taken, ?_⟩
  · rw [lastActivity_ticked, if_pos early]
  · rcases kept.recent with ⟨near, now⟩ | ⟨ping, mem, after, soon⟩
    · have bound := wakes.le_due
      by_cases later : last < time
      · exact .inr ⟨time, List.mem_append_right _ List.mem_cons_self, later, by omega⟩
      · refine .inl ⟨?_, ?_⟩
        · simp only [State.ticked]
          omega
        · simp only [State.ticked]
          omega
    · exact .inr ⟨ping, List.mem_append_left _ mem, after, soon⟩

end Kept

/-- The run lemma: a task of such a client goes on. -/
theorem kept {feed : Feed} {late answer work : Nat}
    (stays : ∀ arrival ∈ feed.arrivals, arrival.received.keeps = true ∧ arrival.busy ≤ work)
    (quick : answer + 2 * late ≤ HEARTBEAT_INTERVAL)
    (both : answer + late + work ≤ HEARTBEAT_TIMEOUT) {es : List Event} {s : State}
    (ran : (machine late feed).run start es = some s) (whole : .abort ∉ es)
    (answered : Answered feed answer (pings late feed es)) :
    ∃ last, Kept feed late work (pings late feed es) s last := by
  let Inv (es : List Event) (s : State) : Prop := (machine late feed).run start es = some s ∧
    (.abort ∉ es → Answered feed answer (pings late feed es) →
      ∃ last, Kept feed late work (pings late feed es) s last)
  have init : Inv [] start := ⟨rfl, fun _ _ => ⟨0, Kept.init feed late work⟩⟩
  have step : ∀ es s e s', Inv es s → (machine late feed).step s e = some s' →
      Inv (es ++ [e]) s' := by
    rintro es s e s' ⟨before, inv⟩ next
    refine ⟨(Machine.run_snoc _).mpr ⟨s, before, next⟩, fun whole => ?_⟩
    have grown : pings late feed (es ++ [e]) = pings late feed es ++ pinged s e :=
      Machine.emitted_snoc before next
    rw [grown]
    intro answered
    have earlier : Answered feed answer (pings late feed es) :=
      fun ping mem => answered ping (List.mem_append_left _ mem)
    obtain ⟨last, kept⟩ := inv (fun mem => whole (List.mem_append_left _ mem)) earlier
    cases e with
    | frame time =>
        obtain ⟨last', arrival, alive, there, wakes, came, rfl⟩ := step_frame.mp next
        obtain rfl := Option.some.inj (kept.alive.symm.trans alive)
        obtain ⟨keeps, brief⟩ := stays arrival (List.mem_of_getElem? there)
        refine ⟨time, ?_⟩
        rw [show pinged s (.frame time) = [] from rfl, List.append_nil]
        exact kept.took wakes (paced before).soon (by omega) there came keeps brief
    | tick time =>
        obtain ⟨last', alive, wakes, due, rfl⟩ := step_tick.mp next
        obtain rfl := Option.some.inj (kept.alive.symm.trans alive)
        have early := kept.in_time wakes quick both earlier
        rw [pinged_tick alive, if_pos early]
        exact ⟨last, kept.ticked wakes due early⟩
    | abort => exact absurd (List.mem_append_right _ List.mem_cons_self) whole
  exact (Machine.invariant init step ran).2 whole answered

/-! ### How slow a client may be -/

/-- A client that answers the first ping at once, and the second one late. -/
def slowClient (second answer : Nat) : Feed where
  arrivals := [⟨0, .pong, 0⟩, ⟨second + answer, .pong, 0⟩]
  inOrder := by simp
  noTick := by simp

/-- A client that sends a text just before the second tick is due, and answers late what was sent
when its handler returned. -/
def busyClient (answer work : Nat) : Feed where
  arrivals := [⟨0, .pong, 0⟩, ⟨14999, .text, work⟩, ⟨14999 + work + answer, .pong, 0⟩]
  inOrder := by simp; omega
  noTick := by simp

section Ends

variable {late answer work : Nat}

/-- A tick that is taken while the next arrival of the feed is still there to come. -/
theorem step_waiting {feed : Feed} {now position due last time : Nat} (arrival : Arrival)
    (there : feed.arrivals[position]? = some arrival)
    (ready : max now (min arrival.time due) ≤ time)
    (wakes : time = now ∨ now < min arrival.time due ∧ time ≤ min arrival.time due + late)
    (passed : due ≤ time) :
    (machine late feed).step ⟨now, position, due, some last⟩ (.tick time) =
      some ⟨time, position, due + 15000,
        if time ≤ last + 30000 then some last else none⟩ := by
  let s : State := ⟨now, position, due, some last⟩
  have there' : feed.arrivals[s.position]? = some arrival := there
  have moment : s.ready feed = max now (min arrival.time due) := by
    simp only [State.ready, there', s]
  have woken : s.Wakes late feed time := by
    unfold State.Wakes
    rw [moment]
    refine ⟨ready, wakes.imp id fun ⟨waits, bound⟩ => ⟨?_, ?_⟩⟩
    · exact Nat.lt_of_lt_of_le waits (Nat.le_max_right _ _)
    · exact bound.trans (Nat.add_le_add_right (Nat.le_max_right _ _) _)
  have next := step_tick.mpr ⟨last, rfl, woken, passed, rfl⟩
  have after := lastActivity_ticked s last time
  unfold HEARTBEAT_TIMEOUT at after
  rw [next, ← after]
  rfl

/-- A frame that comes before the next tick is taken when it is there. -/
theorem step_taken {feed : Feed} {now position due last : Nat} (arrival : Arrival)
    (there : feed.arrivals[position]? = some arrival) (first : arrival.time ≤ max now due)
    (keeps : arrival.received.keeps = true) :
    (machine late feed).step ⟨now, position, due, some last⟩ (.frame (max now arrival.time)) =
      some ⟨max now arrival.time + arrival.busy, position + 1, due,
        some (max now arrival.time)⟩ := by
  let s : State := ⟨now, position, due, some last⟩
  have there' : feed.arrivals[s.position]? = some arrival := there
  have moment : s.ready feed = max now (min arrival.time due) := by
    simp only [State.ready, there', s]
  have woken : s.Wakes late feed (max now arrival.time) := by
    have free : s.now = now := rfl
    unfold State.Wakes
    rw [moment, free]
    omega
  have next := step_frame.mpr ⟨last, arrival, rfl, there, woken, Nat.le_max_right _ _, rfl⟩
  rw [next, ← recvTask_of_keeps keeps last (max now arrival.time)]
  rfl

/-- The second tick comes at `second` and the third one at 30001, before the answer to the ping of
the second one is there or when the task has just waited for it. -/
theorem slowClient_ends {second : Nat} (low : 15000 ≤ second) (high : second ≤ 15000 + late)
    (before : second < 30000) (lateness : 0 < late) (delay : 0 < answer)
    (slow : 30000 < second + answer + late) :
    let es : List Event := [.tick 0, .frame 0, .tick second, .tick 30001]
    (machine late (slowClient second answer)).run start es = some ⟨30001, 1, 45000, none⟩ ∧
      Answered (slowClient second answer) answer (pings late (slowClient second answer) es) := by
  intro es
  let M := machine late (slowClient second answer)
  let late_pong : Arrival := ⟨second + answer, .pong, 0⟩
  have opens : M.step start (.tick 0) = some ⟨0, 0, 15000, some 0⟩ :=
    step_waiting ⟨0, .pong, 0⟩ rfl (Nat.le_refl 0) (.inl rfl) (Nat.le_refl 0)
  have pong : M.step ⟨0, 0, 15000, some 0⟩ (.frame 0) = some ⟨0, 1, 15000, some 0⟩ :=
    step_taken ⟨0, .pong, 0⟩ rfl (Nat.zero_le _) rfl
  have ticked : M.step ⟨0, 1, 15000, some 0⟩ (.tick second) = some ⟨second, 1, 30000, some 0⟩ := by
    have next := @step_waiting late (slowClient second answer) 0 1 15000 0 second late_pong rfl
      (by simp only [late_pong]; omega) (.inr (by simp only [late_pong]; omega)) low
    rw [if_pos (by omega)] at next
    exact next
  have last : M.step ⟨second, 1, 30000, some 0⟩ (.tick 30001) = some ⟨30001, 1, 45000, none⟩ :=
    step_waiting late_pong rfl (by simp only [late_pong]; omega)
      (.inr (by simp only [late_pong]; omega)) (by omega)
  constructor
  · change M.run start es = _
    simp only [es, Machine.run_cons, Machine.run_nil, opens, pong, ticked, last, Option.bind_some]
  · have sent : pings late (slowClient second answer) es = [0, second] := by
      change M.emitted pinged start es = _
      rw [Machine.emitted_cons opens, Machine.emitted_cons pong, Machine.emitted_cons ticked,
        Machine.emitted_cons last, pinged_tick rfl, pinged_tick rfl, pinged_tick rfl,
        if_pos (Nat.zero_le _), if_pos (by unfold HEARTBEAT_TIMEOUT; omega), if_neg (by decide)]
      rfl
    intro ping mem
    rw [sent] at mem
    simp only [List.mem_cons, List.not_mem_nil, or_false] at mem
    rcases mem with rfl | rfl
    · exact ⟨⟨0, .pong, 0⟩, List.mem_cons_self, Nat.le_refl 0, Nat.zero_le _⟩
    · exact ⟨late_pong, List.mem_cons_of_mem _ List.mem_cons_self, Nat.le_add_right _ _,
        Nat.le_refl _⟩

/-- The task takes the text before the second tick. -/
theorem busyClient_text : (machine late (busyClient answer work)).step start (.tick 0) =
      some ⟨0, 0, 15000, some 0⟩ ∧
    (machine late (busyClient answer work)).step ⟨0, 0, 15000, some 0⟩ (.frame 0) =
      some ⟨0, 1, 15000, some 0⟩ ∧
    (machine late (busyClient answer work)).step ⟨0, 1, 15000, some 0⟩ (.frame 14999) =
      some ⟨14999 + work, 2, 15000, some 14999⟩ := by
  refine ⟨?_, ?_, ?_⟩
  · exact step_waiting ⟨0, .pong, 0⟩ rfl (Nat.le_refl 0) (.inl rfl) (Nat.le_refl 0)
  · exact step_taken ⟨0, .pong, 0⟩ rfl (Nat.zero_le _) rfl
  · exact step_taken ⟨14999, .text, work⟩ rfl (by simp only; omega) rfl

/-- A handler that runs longer than the timeout ends its own task. -/
theorem busyClient_stalls (long : 30000 < work) :
    let es : List Event := [.tick 0, .frame 0, .frame 14999, .tick (14999 + work)]
    (machine late (busyClient answer work)).run start es =
        some ⟨14999 + work, 2, 30000, none⟩ ∧
      Answered (busyClient answer work) answer (pings late (busyClient answer work) es) := by
  intro es
  let M := machine late (busyClient answer work)
  let pong : Arrival := ⟨14999 + work + answer, .pong, 0⟩
  obtain ⟨opens, first, text⟩ := @busyClient_text late answer work
  have last : M.step ⟨14999 + work, 2, 15000, some 14999⟩ (.tick (14999 + work)) =
      some ⟨14999 + work, 2, 30000, none⟩ := by
    have next := @step_waiting late (busyClient answer work) (14999 + work) 2 15000 14999
      (14999 + work) pong rfl (by omega) (.inl rfl) (by omega)
    rw [if_neg (by omega)] at next
    exact next
  constructor
  · simp only [es, Machine.run_cons, Machine.run_nil, opens, first, text, Option.bind_some]
    exact congrArg (·.bind some) last
  · have sent : pings late (busyClient answer work) es = [0] := by
      change M.emitted pinged start es = _
      rw [Machine.emitted_cons opens, Machine.emitted_cons first, Machine.emitted_cons text,
        Machine.emitted_cons last, pinged_tick rfl, pinged_tick rfl, if_pos (Nat.zero_le _),
        if_neg (by unfold HEARTBEAT_TIMEOUT; omega)]
      rfl
    intro ping mem
    obtain rfl := List.mem_singleton.mp (sent ▸ mem)
    exact ⟨⟨0, .pong, 0⟩, List.mem_cons_self, Nat.le_refl 0, Nat.zero_le _⟩

/-- A handler that runs over two ticks, and a late answer to the pings that follow it, end the
task. -/
theorem busyClient_ends (long : 15000 < work) (brief : work ≤ 30000) (delay : 0 < answer)
    (both : 30000 < answer + late + work) :
    let es : List Event := [.tick 0, .frame 0, .frame 14999, .tick (14999 + work),
      .tick (14999 + work), .tick 45000]
    (machine late (busyClient answer work)).run start es = some ⟨45000, 2, 60000, none⟩ ∧
      Answered (busyClient answer work) answer (pings late (busyClient answer work) es) := by
  intro es
  let M := machine late (busyClient answer work)
  let pong : Arrival := ⟨14999 + work + answer, .pong, 0⟩
  obtain ⟨opens, first, text⟩ := @busyClient_text late answer work
  have missed : ∀ due ≤ 30000, M.step ⟨14999 + work, 2, due, some 14999⟩ (.tick (14999 + work)) =
      some ⟨14999 + work, 2, due + 15000, some 14999⟩ := by
    intro due passed
    have next := @step_waiting late (busyClient answer work) (14999 + work) 2 due 14999
      (14999 + work) pong rfl (by omega) (.inl rfl) (by omega)
    rw [if_pos (by omega)] at next
    exact next
  have second := missed 15000 (by omega)
  have third := missed 30000 (by omega)
  have last : M.step ⟨14999 + work, 2, 45000, some 14999⟩ (.tick 45000) =
      some ⟨45000, 2, 60000, none⟩ :=
    step_waiting pong rfl (by simp only [pong]; omega) (.inr (by simp only [pong]; omega))
      (Nat.le_refl _)
  constructor
  · change M.run start es = _
    simp only [es, Machine.run_cons, Machine.run_nil]
    rw [opens, Option.bind_some, first, Option.bind_some, text, Option.bind_some, second,
      Option.bind_some, third, Option.bind_some, last, Option.bind_some]
  · have sent : pings late (busyClient answer work) es = [0, 14999 + work, 14999 + work] := by
      change M.emitted pinged start es = _
      rw [Machine.emitted_cons opens, Machine.emitted_cons first, Machine.emitted_cons text,
        Machine.emitted_cons second, Machine.emitted_cons third, Machine.emitted_cons last,
        pinged_tick rfl, pinged_tick rfl, pinged_tick rfl, pinged_tick rfl,
        if_pos (Nat.zero_le _), if_pos (by unfold HEARTBEAT_TIMEOUT; omega), if_neg (by decide)]
      rfl
    intro ping mem
    rw [sent] at mem
    simp only [List.mem_cons, List.not_mem_nil, or_false, or_self] at mem
    rcases mem with rfl | rfl
    · exact ⟨⟨0, .pong, 0⟩, List.mem_cons_self, Nat.le_refl 0, Nat.zero_le _⟩
    · exact ⟨pong, List.mem_cons_of_mem _ (List.mem_cons_of_mem _ List.mem_cons_self),
        Nat.le_add_right _ _, Nat.le_refl _⟩

end Ends

/-- The answers and the handlers that a task tolerates whose ticks are up to `late` late: an answer
and twice the lateness within an interval, and an answer, the lateness and a handler within the
timeout. -/
theorem tolerates_iff (late answer work : Nat) (lateness : 0 < late) (delay : 0 < answer) :
    Tolerates late answer work ↔ answer + 2 * late ≤ HEARTBEAT_INTERVAL ∧
      answer + late + work ≤ HEARTBEAT_TIMEOUT := by
  constructor
  · intro tolerates
    have quick : answer + 2 * late ≤ HEARTBEAT_INTERVAL := by
      by_contra slow
      unfold HEARTBEAT_INTERVAL at slow
      let second := 15000 + min late 14999
      obtain ⟨ran, answered⟩ := @slowClient_ends late answer second (by omega) (by omega) (by omega)
        lateness delay (by omega)
      have stays : ∀ arrival ∈ (slowClient second answer).arrivals,
          arrival.received.keeps = true ∧ arrival.busy ≤ work := by
        intro arrival mem
        simp only [slowClient, List.mem_cons, List.not_mem_nil, or_false] at mem
        rcases mem with rfl | rfl
        · exact ⟨rfl, Nat.zero_le _⟩
        · exact ⟨rfl, Nat.zero_le _⟩
      have goes := tolerates _ stays _ _ ran (by simp) answered
      simp at goes
    refine ⟨quick, ?_⟩
    have stays : ∀ arrival ∈ (busyClient answer work).arrivals,
        arrival.received.keeps = true ∧ arrival.busy ≤ work := by
      intro arrival mem
      simp only [busyClient, List.mem_cons, List.not_mem_nil, or_false] at mem
      rcases mem with rfl | rfl | rfl
      · exact ⟨rfl, Nat.zero_le _⟩
      · exact ⟨rfl, Nat.le_refl _⟩
      · exact ⟨rfl, Nat.zero_le _⟩
    by_contra long
    unfold HEARTBEAT_TIMEOUT at long
    unfold HEARTBEAT_INTERVAL at quick
    by_cases brief : work ≤ 30000
    · obtain ⟨ran, answered⟩ := @busyClient_ends late answer work (by omega) brief delay (by omega)
      have goes := tolerates _ stays _ _ ran (by simp) answered
      simp at goes
    · obtain ⟨ran, answered⟩ := @busyClient_stalls late answer work (Nat.lt_of_not_le brief)
      have goes := tolerates _ stays _ _ ran (by simp) answered
      simp at goes
  · rintro ⟨quick, both⟩ feed stays es s ran whole answered
    obtain ⟨last, kept⟩ := kept stays quick both ran whole answered
    rw [kept.alive]
    rfl

/-- With ticks up to a millisecond late, a task tolerates handlers of 10 s and answers after
14.998 s, and not answers after 14.999 s. -/
theorem tolerates_iff_millisecond :
    (0 < 1 ∧ 0 < 14998 ∧ Tolerates 1 14998 10000) ∧ (0 < 14999 ∧ ¬Tolerates 1 14999 10000) := by
  have enough := (tolerates_iff 1 14998 10000 (by decide) (by decide)).mpr (by decide)
  have slow : ¬Tolerates 1 14999 10000 := fun tolerates =>
    absurd ((tolerates_iff 1 14999 10000 (by decide) (by decide)).mp tolerates) (by decide)
  exact ⟨⟨by decide, by decide, enough⟩, by decide, slow⟩

end Heartbeat

end YappaCore
