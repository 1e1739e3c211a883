import YappaCore.Lib.Machine
import YappaCore.Limits

/-!
The life of a connection in `src/server/ws.rs`: `ws_handler` takes a slot of the
limiter and answers the upgrade, `handle_socket` runs until one of its two tasks ends,
and dropping its guard spawns the task that gives the slot back.

The sessions of all nodes are one bag over one Redis. Every event of every session
may come at any time, a call of the limiter may fail to reach Redis, and the callback
of an upgrade that fails is dropped without being run.

* `recorded_stay_counted`: connections that Redis knows stay counted, as long as no
  connection admitted on an error gives back a reference of another.
* `slots_returned_iff`: with Redis working, what is left when nothing is open is
  exactly the slots of failed upgrades.
-/

namespace YappaCore

open Lib

namespace Sessions

/-! ### The handler and the two tasks -/

/-- What `ws_handler` answers. -/
inductive Response where
  | unauthorized
  | tooManyRequests
  | upgrade (identity : Identity)
deriving DecidableEq, Repr

/-- `ws_handler`, from the outcome of the token check. -/
def wsHandler (limiter : TenantLimiter) (authenticated : Option Identity) (reached : Bool)
    (redis : Redis) : Response × Redis :=
  match authenticated with
  | none => (.unauthorized, redis)
  | some identity =>
      let (allowed, redis) := limiter.acquire identity reached redis
      if !allowed then (.tooManyRequests, redis) else (.upgrade identity, redis)

/-- `HEARTBEAT_TIMEOUT`, in milliseconds. -/
def HEARTBEAT_TIMEOUT : Nat := 30 * 1000

/-- What the receive task selects: a frame, an error or the end of the stream, or a
tick of the heartbeat. -/
inductive Received where
  | text
  | binary
  | ping
  | pong
  | close
  | error
  | ended
  | tick
deriving DecidableEq, Repr

/-- One iteration of the receive task: the time of the last activity, or `none` when
the loop breaks. -/
def recvTask (lastActivity now : Nat) : Received → Option Nat
  | .text => some now
  | .binary => some now
  | .ping => some now
  | .pong => some now
  | .close => none
  | .error => none
  | .ended => none
  | .tick => if now - lastActivity > HEARTBEAT_TIMEOUT then none else some lastActivity

/-- What an iteration of the send task meets: a message sent, refused or timed out, or
a channel that every sender left, as after an eviction from the registry. -/
inductive Sent where
  | ok
  | error
  | timeout
  | channelClosed
deriving DecidableEq, Repr

/-- Whether the send task goes on. -/
def sendTask : Sent → Bool
  | .ok => true
  | .error => false
  | .timeout => false
  | .channelClosed => false

end Sessions

/-- Where a session is: between the answer and the callback, in `handle_socket`, or with
its guard dropped and the release task yet to run. -/
inductive Phase where
  | upgrading
  | live (lastActivity : Nat)
  | releasing
deriving DecidableEq, Repr

/-- An admitted connection; `recorded` when its acquire script ran. -/
structure Session where
  identity : Identity
  phase : Phase
  recorded : Bool
deriving DecidableEq, Repr

namespace Sessions

/-! ### The machine -/

structure State where
  redis : Redis
  sessions : Multiset Session

def start : State := ⟨Redis.empty, 0⟩

inductive Event where
  /-- A request of a client, after its token was checked. -/
  | request (authenticated : Option Identity) (reached : Bool)
  /-- The upgrade fails after the answer; the callback is dropped. -/
  | upgradeFails (session : Session)
  | upgraded (session : Session) (now : Nat)
  | recv (session : Session) (now : Nat) (received : Received)
  | send (session : Session) (sent : Sent)
  /-- The spawned task of a dropped guard runs. -/
  | release (session : Session) (reached : Bool)
deriving DecidableEq

/-- After a request for an authenticated identity. -/
def State.requested (limiter : TenantLimiter) (identity : Identity) (reached : Bool) (s : State) :
    State :=
  match wsHandler limiter (some identity) reached s.redis with
  | (.upgrade identity, redis) =>
      { redis, sessions := ⟨identity, .upgrading, reached⟩ ::ₘ s.sessions }
  | (_, redis) => { s with redis }

/-- Put a session of the bag into another phase. -/
def State.enter (s : State) (session : Session) (phase : Phase) : State :=
  { s with sessions := { session with phase } ::ₘ s.sessions.erase session }

/-- After the release task of a session. -/
def State.released (s : State) (session : Session) (reached : Bool) : State :=
  { redis := TenantLimiter.release session.identity reached s.redis
    sessions := s.sessions.erase session }

/-- The phase after an iteration of the receive task; a loop that ends drops the guard. -/
def afterRecv : Option Nat → Phase
  | some lastActivity => .live lastActivity
  | none => .releasing

def step (limiter : TenantLimiter) (s : State) : Event → Option State
  | .request none _ => some s
  | .request (some identity) reached => some (s.requested limiter identity reached)
  | .upgradeFails session =>
      if session ∈ s.sessions ∧ session.phase = .upgrading then
        some { s with sessions := s.sessions.erase session }
      else none
  | .upgraded session now =>
      if session ∈ s.sessions ∧ session.phase = .upgrading then some (s.enter session (.live now))
      else none
  | .recv session now received =>
      match session.phase with
      | .live lastActivity =>
          if session ∈ s.sessions then
            some (s.enter session (afterRecv (recvTask lastActivity now received)))
          else none
      | _ => none
  | .send session sent =>
      match session.phase with
      | .live lastActivity =>
          if session ∈ s.sessions then
            some (s.enter session (if sendTask sent then .live lastActivity else .releasing))
          else none
      | _ => none
  | .release session reached =>
      if session ∈ s.sessions ∧ session.phase = .releasing then some (s.released session reached)
      else none

def machine (limiter : TenantLimiter) : Machine State Event := ⟨step limiter⟩

/-! ### What an event does -/

/-- The identity whose slot an event drops with its callback. -/
def leakedBy : Event → Option Identity
  | .upgradeFails session => some session.identity
  | _ => none

/-- An event is a request, moves a session that is not being released to another
phase, loses one in an upgrade, or releases one. -/
theorem step_cases {limiter : TenantLimiter} {s s' : State} {e : Event}
    (stepped : (machine limiter).step s e = some s') :
    (∃ reached, e = .request none reached ∧ s' = s) ∨
    (∃ identity reached, e = .request (some identity) reached ∧
      s' = s.requested limiter identity reached) ∨
    (∃ session phase, session ∈ s.sessions ∧ session.phase ≠ .releasing ∧ leakedBy e = none ∧
      s' = s.enter session phase) ∨
    (∃ session, e = .upgradeFails session ∧ session ∈ s.sessions ∧
      s' = { s with sessions := s.sessions.erase session }) ∨
    (∃ session reached, e = .release session reached ∧ session ∈ s.sessions ∧
      session.phase = .releasing ∧ s' = s.released session reached) := by
  cases e with
  | request authenticated reached =>
      cases authenticated with
      | none => exact .inl ⟨reached, rfl, (Option.some.inj stepped).symm⟩
      | some identity => exact .inr (.inl ⟨identity, reached, rfl, (Option.some.inj stepped).symm⟩)
  | upgradeFails session =>
      simp only [machine, step] at stepped
      split at stepped
      · rename_i possible
        exact .inr (.inr (.inr (.inl
          ⟨session, rfl, possible.1, (Option.some.inj stepped).symm⟩)))
      · simp at stepped
  | upgraded session now =>
      simp only [machine, step] at stepped
      split at stepped
      · rename_i possible
        refine .inr (.inr (.inl ⟨session, .live now, possible.1, ?_, rfl, ?_⟩))
        · simp [possible.2]
        · exact (Option.some.inj stepped).symm
      · simp at stepped
  | recv session now received =>
      simp only [machine, step] at stepped
      split at stepped
      · rename_i lastActivity live
        split at stepped
        · rename_i possible
          refine .inr (.inr (.inl ⟨session, _, possible, ?_, rfl, (Option.some.inj stepped).symm⟩))
          simp [live]
        · simp at stepped
      · simp at stepped
  | send session sent =>
      simp only [machine, step] at stepped
      split at stepped
      · rename_i lastActivity live
        split at stepped
        · rename_i possible
          refine .inr (.inr (.inl ⟨session, _, possible, ?_, rfl, (Option.some.inj stepped).symm⟩))
          simp [live]
        · simp at stepped
      · simp at stepped
  | release session reached =>
      simp only [machine, step] at stepped
      split at stepped
      · rename_i possible
        exact .inr (.inr (.inr (.inr
          ⟨session, reached, rfl, possible.1, possible.2, (Option.some.inj stepped).symm⟩)))
      · simp at stepped

/-- A request is admitted with a new session, or changes nothing but the key space. -/
theorem requested_eq (limiter : TenantLimiter) (identity : Identity) (reached : Bool) (s : State) :
    s.requested limiter identity reached =
      { redis := (limiter.acquire identity reached s.redis).2
        sessions := if (limiter.acquire identity reached s.redis).1 then
            ⟨identity, .upgrading, reached⟩ ::ₘ s.sessions
          else s.sessions } := by
  unfold State.requested wsHandler
  cases allowed : (limiter.acquire identity reached s.redis).1 <;> simp [allowed]

/-! ### Connections that Redis knows -/

/-- The identities of the sessions whose acquire script ran, those being released
included. -/
def recordedOf (sessions : Multiset Session) : Multiset Identity :=
  (sessions.filter (·.recorded)).map Session.identity

/-- The identities of the recorded sessions that are being upgraded or open. -/
def liveRecordedOf (sessions : Multiset Session) : Multiset Identity :=
  (sessions.filter fun session => session.recorded ∧ session.phase ≠ .releasing).map
    Session.identity

/-- Redis counts every recorded connection that is open: its count covers them, its users
are online, and there are no more of them than the cap. -/
structure Counted (limiter : TenantLimiter) (s : State) : Prop where
  count : ∀ identity,
    ((liveRecordedOf s.sessions).count identity : Int) ≤ conncount s.redis identity
  online : ∀ identity ∈ liveRecordedOf s.sessions,
    identity.userId ∈ onlineUsers s.redis identity.tenantId
  capacity : ∀ tenantId, (usersHolding (liveRecordedOf s.sessions) tenantId).card ≤ limiter.maxUsers

/-- A call takes and gives back references of its own connection: the acquire script runs
for a user that its counter is counted for, and the release script of a connection
that was admitted on an error finds no recorded connection on its counter, or more
references than those. -/
def OwnReference (s : State) : Event → Prop
  | .request (some identity) true => Known s.redis identity
  | .release session true => session.recorded = true ∨
      RefCount.refs Identity.connCount (recordedOf s.sessions) session.identity.connCount = 0 ∨
      (RefCount.refs Identity.connCount (recordedOf s.sessions) session.identity.connCount : Int) <
        conncount s.redis session.identity
  | _ => True

instance (s : State) : ∀ e, Decidable (OwnReference s e)
  | .request (some identity) true => inferInstanceAs (Decidable (Known s.redis identity))
  | .release session true => inferInstanceAs (Decidable (session.recorded = true ∨ _ ∨ _))
  | .request none _ | .request (some _) false | .upgradeFails _ | .upgraded _ _ | .recv _ _ _ |
    .send _ _ | .release _ false => isTrue trivial

theorem liveRecorded_le (sessions : Multiset Session) :
    liveRecordedOf sessions ≤ recordedOf sessions := by
  refine Multiset.map_le_map (Multiset.monotone_filter_right sessions fun session both => ?_)
  exact both.1

theorem recorded_cons (session : Session) (sessions : Multiset Session) :
    recordedOf (session ::ₘ sessions) =
      if session.recorded then session.identity ::ₘ recordedOf sessions else recordedOf sessions := by
  unfold recordedOf
  cases known : session.recorded <;> simp [known]

/-- A session in another phase is recorded as before. -/
theorem recorded_enter {s : State} {session : Session} (mem : session ∈ s.sessions)
    (phase : Phase) : recordedOf (s.enter session phase).sessions = recordedOf s.sessions := by
  obtain ⟨rest, same⟩ := Multiset.exists_cons_of_mem mem
  unfold State.enter
  rw [same, Multiset.erase_cons_head, recorded_cons, recorded_cons]

/-- An event whose calls keep to their own references leaves recorded sessions counted. -/
theorem covered_step {limiter : TenantLimiter} {s s' : State} {e : Event}
    (covered : Covered limiter (recordedOf s.sessions) s.redis) (own : OwnReference s e)
    (stepped : (machine limiter).step s e = some s') :
    Covered limiter (recordedOf s'.sessions) s'.redis := by
  rcases step_cases stepped with ⟨reached, rfl, rfl⟩ | ⟨identity, reached, rfl, rfl⟩ |
    ⟨session, phase, mem, _, _, rfl⟩ | ⟨session, rfl, mem, rfl⟩ |
    ⟨session, reached, rfl, mem, _, rfl⟩
  · exact covered
  · rw [requested_eq]
    cases reached with
    | false =>
        rw [acquire_unreached, if_pos rfl, recorded_cons]
        exact covered
    | true =>
        have after := covered.acquire own
        unfold heldAfter at after
        cases allowed : (limiter.acquire identity true s.redis).1 with
        | false => simpa [allowed] using after
        | true =>
            rw [allowed] at after
            simp only [if_true] at after ⊢
            rw [recorded_cons]
            exact after
  · rw [recorded_enter mem]
    exact covered
  · obtain ⟨rest, same⟩ := Multiset.exists_cons_of_mem mem
    apply covered.mono
    rw [same, Multiset.erase_cons_head, recorded_cons]
    split
    · exact Multiset.le_cons_self _ _
    · exact le_refl _
  · obtain ⟨rest, same⟩ := Multiset.exists_cons_of_mem mem
    unfold State.released
    rw [same, Multiset.erase_cons_head]
    rw [same, recorded_cons] at covered
    cases reached with
    | false =>
        rw [release_unreached]
        split at covered
        · exact covered.mono (Multiset.le_cons_self _ _)
        · exact covered
    | true =>
        by_cases known : session.recorded = true
        · rw [if_pos known] at covered
          exact covered.release
        · rw [if_neg known] at covered
          rcases own with known' | spare
          · exact absurd known' known
          · rw [same, recorded_cons, if_neg known] at spare
            exact covered.release_spare spare

/-- In a run whose calls keep to their own references, every open connection whose acquire
script ran stays counted, whatever calls fail to reach Redis. -/
theorem recorded_stay_counted (limiter : TenantLimiter) {es : List Event} {s : State}
    (ran : (machine limiter).run start es = some s)
    (own : (machine limiter).Steps OwnReference start es) : Counted limiter s := by
  have covered : Covered limiter (recordedOf s.sessions) s.redis := by
    refine @Machine.invariant_steps _ _ _ _ (fun s => Covered limiter (recordedOf s.sessions) s.redis)
      _ covered_empty ?_ _ _ ran own
    intro s e s' covered own stepped
    exact covered_step covered own stepped
  have live := covered.mono (liveRecorded_le s.sessions)
  exact ⟨live.le_conncount, fun identity mem => live.online mem, live.card_le⟩

/-- A user connects, connects again while Redis is down, and another user connects; the second
connection closes after the first, and the other user's stays counted. -/
theorem recorded_stay_counted_second_device :
    let ada : Identity := ⟨"acme", "ada"⟩
    let bob : Identity := ⟨"acme", "bob"⟩
    let first : Session := ⟨ada, .live 0, true⟩
    let second : Session := ⟨ada, .live 0, false⟩
    let other : Session := ⟨bob, .live 0, true⟩
    let es : List Event :=
      [.request (some ada) true, .upgraded { first with phase := .upgrading } 0,
        .request (some ada) false, .upgraded { second with phase := .upgrading } 0,
        .request (some bob) true, .upgraded { other with phase := .upgrading } 0,
        .recv first 1 .close, .release { first with phase := .releasing } true,
        .recv second 1 .close, .release { second with phase := .releasing } true]
    ∃ s, (machine ⟨5⟩).run start es = some s ∧ s.sessions = {other} ∧ Counted ⟨5⟩ s := by
  intro ada bob first second other es
  obtain ⟨s, ran, left⟩ : ∃ s ∈ (machine ⟨5⟩).run start es, s.sessions = {other} := by decide
  have own : (machine ⟨5⟩).Steps OwnReference start es := by decide
  exact ⟨s, ran, left, recorded_stay_counted ⟨5⟩ ran own⟩

/-- A user's second device connects while Redis does not answer; when it leaves, the reference
of the first device is given back. -/
theorem unrecorded_release_undercounts :
    let ada : Identity := ⟨"acme", "ada"⟩
    let first : Session := ⟨ada, .live 0, true⟩
    let second : Session := ⟨ada, .live 0, false⟩
    ∃ s, (machine ⟨5⟩).run start
        [.request (some ada) true, .upgraded { first with phase := .upgrading } 0,
          .request (some ada) false, .upgraded { second with phase := .upgrading } 0,
          .recv second 1 .close, .release { second with phase := .releasing } true] = some s ∧
      s.sessions = {first} ∧ conncount s.redis ada = 0 ∧ onlineUsers s.redis "acme" = ∅ ∧
      ¬ Counted ⟨5⟩ s := by
  intro ada first second
  obtain ⟨s, ran, sessions, count, online⟩ : ∃ s ∈ (machine ⟨5⟩).run start
      [.request (some ada) true, .upgraded { first with phase := .upgrading } 0,
        .request (some ada) false, .upgraded { second with phase := .upgrading } 0,
        .recv second 1 .close, .release { second with phase := .releasing } true],
      s.sessions = {first} ∧ conncount s.redis ada = 0 ∧ onlineUsers s.redis "acme" = ∅ := by
    decide
  refine ⟨s, ran, sessions, count, online, fun counted => ?_⟩
  have under := counted.count ada
  rw [sessions, count] at under
  exact absurd under (by decide)

/-! ### Slots that are given back -/

/-- The slots whose callback was dropped in a run. -/
def leaked (es : List Event) : Multiset Identity := (es.filterMap leakedBy : List Identity)

theorem leaked_snoc (es : List Event) (e : Event) :
    leaked (es ++ [e]) = leaked es + (leakedBy e).elim 0 ({·}) := by
  unfold leaked
  rw [List.filterMap_append, ← Multiset.coe_add]
  cases dropped : leakedBy e with
  | none => simp [dropped]
  | some identity => simp [dropped]

/-- The slots that are taken: one for each session, and one for each dropped callback. -/
def slots (es : List Event) (sessions : Multiset Session) : Multiset Identity :=
  sessions.map Session.identity + leaked es

/-- Every call of the limiter reaches Redis. -/
def Reached : Event → Prop
  | .request _ reached => reached = true
  | .release _ reached => reached = true
  | _ => True

/-- Nobody is admitted on a counter that is counted for somebody else. -/
def Uncontended (s : State) : Event → Prop
  | .request (some identity) _ => Known s.redis identity
  | _ => True

instance : ∀ e, Decidable (Reached e)
  | .request _ reached => inferInstanceAs (Decidable (reached = true))
  | .release _ reached => inferInstanceAs (Decidable (reached = true))
  | .upgradeFails _ | .upgraded _ _ | .recv _ _ _ | .send _ _ => isTrue trivial

instance (s : State) : ∀ e, Decidable (Uncontended s e)
  | .request (some identity) _ => inferInstanceAs (Decidable (Known s.redis identity))
  | .request none _ | .upgradeFails _ | .upgraded _ _ | .recv _ _ _ | .send _ _ |
    .release _ _ => isTrue trivial

/-- The key space counts exactly the slots that are taken. -/
theorem held_step {limiter : TenantLimiter} {es : List Event} {s s' : State} {e : Event}
    (held : Held limiter (slots es s.sessions) s.redis) (reached : Reached e)
    (uncontended : Uncontended s e) (stepped : (machine limiter).step s e = some s') :
    Held limiter (slots (es ++ [e]) s'.sessions) s'.redis := by
  unfold slots at held ⊢
  rw [leaked_snoc]
  rcases step_cases stepped with ⟨_, rfl, rfl⟩ | ⟨identity, ran, rfl, rfl⟩ |
    ⟨session, phase, mem, _, keeps, rfl⟩ | ⟨session, rfl, mem, rfl⟩ |
    ⟨session, ran, rfl, mem, _, rfl⟩
  · simpa [leakedBy] using held
  · obtain rfl : ran = true := reached
    have after := held.acquire (held.known_iff.mp uncontended)
    unfold heldAfter at after
    rw [requested_eq]
    cases allowed : (limiter.acquire identity true s.redis).1 with
    | false => simpa [allowed, leakedBy] using after
    | true => simpa [allowed, leakedBy] using after
  · obtain ⟨rest, same⟩ := Multiset.exists_cons_of_mem mem
    unfold State.enter
    rw [same] at held
    rw [keeps, same, Multiset.erase_cons_head]
    simpa using held
  · obtain ⟨rest, same⟩ := Multiset.exists_cons_of_mem mem
    rw [same, Multiset.map_cons, Multiset.cons_add] at held
    rw [same, Multiset.erase_cons_head]
    have moved : rest.map Session.identity + (leaked es + {session.identity}) =
        session.identity ::ₘ (rest.map Session.identity + leaked es) := by
      rw [← Multiset.add_assoc, Multiset.add_comm, Multiset.singleton_add]
    simpa [leakedBy, moved] using held
  · obtain ⟨rest, same⟩ := Multiset.exists_cons_of_mem mem
    obtain rfl : ran = true := reached
    unfold State.released
    rw [same, Multiset.map_cons, Multiset.cons_add] at held
    rw [same, Multiset.erase_cons_head]
    simpa [leakedBy] using held.release

/-- In every run with Redis working in which nobody is admitted on somebody else's counter,
once no session is left every count is 0 and nobody is online exactly when no upgrade failed. -/
theorem slots_returned_iff (limiter : TenantLimiter) {es : List Event} {s : State}
    (ran : (machine limiter).run start es = some s) (reached : ∀ e ∈ es, Reached e)
    (uncontended : (machine limiter).Steps Uncontended start es) (quiet : s.sessions = 0) :
    ((∀ identity, conncount s.redis identity = 0) ∧ ∀ tenantId, onlineUsers s.redis tenantId = ∅) ↔
      ∀ session, .upgradeFails session ∉ es := by
  let Inv : List Event → State → Prop := fun es s => (∀ e ∈ es, Reached e) →
    Held limiter (slots es s.sessions) s.redis
  have inv : Inv es s := by
    refine Machine.invariant_trace (fun _ => held_empty) ?_ ran uncontended
    intro es s e s' inv uncontended stepped reached
    refine held_step (inv fun f mem => ?_) (reached e ?_) uncontended stepped
    · exact reached f (List.mem_append_left [e] mem)
    · exact List.mem_append_right es (List.mem_singleton_self e)
  have held := inv reached
  have dropped : slots es s.sessions = leaked es := by
    unfold slots
    rw [quiet, Multiset.map_zero, Multiset.zero_add]
  rw [dropped] at held
  constructor
  · rintro ⟨counts, _⟩ session failed
    have taken : session.identity ∈ leaked es :=
      Multiset.mem_coe.mpr (List.mem_filterMap.mpr ⟨_, failed, rfl⟩)
    have positive : 0 < RefCount.refs Identity.connCount (leaked es) session.identity.connCount :=
      RefCount.refs_pos.mpr ⟨session.identity, taken, rfl⟩
    have counted := held.conncount session.identity
    rw [counts session.identity] at counted
    omega
  · intro none
    have empty : leaked es = 0 := by
      refine Multiset.eq_zero_of_forall_notMem fun identity taken => ?_
      obtain ⟨e, mem, drops⟩ := List.mem_filterMap.mp (Multiset.mem_coe.mp taken)
      cases e with
      | upgradeFails session => exact none session mem
      | _ => simp [leakedBy] at drops
    rw [empty] at held
    refine ⟨fun identity => held.conncount identity, fun tenantId => ?_⟩
    rw [held.onlineUsers]
    rfl

/-- Two devices of a user and a device of another come and go, one of them evicted. -/
theorem slots_returned_devices :
    let ada : Identity := ⟨"acme", "ada"⟩
    let bob : Identity := ⟨"acme", "bob"⟩
    let requested (identity : Identity) : Session := ⟨identity, .upgrading, true⟩
    let opened (identity : Identity) : Session := ⟨identity, .live 0, true⟩
    let closed (identity : Identity) : Session := ⟨identity, .releasing, true⟩
    let es : List Event := [.request (some ada) true, .request (some ada) true,
      .upgraded (requested ada) 0, .request (some bob) true, .upgraded (requested ada) 0,
      .upgraded (requested bob) 0, .send (opened ada) .channelClosed, .recv (opened bob) 31000 .tick,
      .release (closed bob) true, .recv (opened ada) 5 .close, .release (closed ada) true,
      .release (closed ada) true]
    ∃ s, (machine ⟨2⟩).run start es = some s ∧
      (∀ identity, conncount s.redis identity = 0) ∧ ∀ tenantId, onlineUsers s.redis tenantId = ∅ := by
  intro ada bob requested opened closed es
  obtain ⟨s, ran, quiet⟩ : ∃ s ∈ (machine ⟨2⟩).run start es, s.sessions = 0 := by decide
  have uncontended : (machine ⟨2⟩).Steps Uncontended start es := by decide
  refine ⟨s, ran, (slots_returned_iff ⟨2⟩ ran (by decide) uncontended quiet).mpr fun session => ?_⟩
  intro failed
  simp [es] at failed

/-- A client that goes away between the answer and the upgrade keeps its slot for good. -/
theorem failed_upgrade_keeps_slot :
    let ada : Identity := ⟨"acme", "ada"⟩
    ∃ s, (machine ⟨1⟩).run start
        [.request (some ada) true, .upgradeFails ⟨ada, .upgrading, true⟩] = some s ∧
      s.sessions = 0 ∧ conncount s.redis ada = 1 ∧ onlineUsers s.redis "acme" = {"ada"} ∧
      (wsHandler ⟨1⟩ (some ⟨"acme", "bob"⟩) true s.redis).1 = .tooManyRequests := by
  intro ada
  exact ⟨_, rfl, by decide, by decide, by decide, by decide⟩

end Sessions

end YappaCore
