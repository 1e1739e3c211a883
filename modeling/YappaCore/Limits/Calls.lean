import YappaCore.Lib.Machine
import YappaCore.Limits

/-!
The calls that the nodes make on one limiter: any interleaving of `acquire` and of
`release` calls, each `release` for a connection that an `acquire` admitted and that
is not released yet. Every call reaches Redis and a script is one step.

* `Exact`: the invariant over tenants without a closing brace. The key space counts
  the connections that are held and nothing else.
* `limiter_exact`: what the callers of such tenants see in every reachable state.
-/

namespace YappaCore

open Lib

namespace Calls

/-- A call of the node `node`. -/
inductive Call (N : Type*) where
  | acquire (node : N) (identity : Identity)
  | release (node : N) (identity : Identity)

/-- The identity a call is for. -/
def Call.identity {N : Type*} : Call N → Identity
  | .acquire _ identity => identity
  | .release _ identity => identity

/-- The key space, the connections admitted and not yet released, and the answers
that `acquire` gave so far. -/
structure State where
  redis : Redis
  held : Multiset Identity
  answers : List (Identity × Bool)

def start : State := ⟨Redis.empty, 0, []⟩

/-- After a call of `acquire`. -/
def State.acquired (limiter : TenantLimiter) (identity : Identity) (s : State) : State :=
  let (admitted, redis) := limiter.acquire identity true s.redis
  { redis
    held := heldAfter admitted identity s.held
    answers := s.answers ++ [(identity, admitted)] }

/-- After a call of `release`. -/
def State.released (identity : Identity) (s : State) : State :=
  { s with redis := TenantLimiter.release identity true s.redis
           held := s.held.erase identity }

/-- One call. A release gives back a connection that is held. -/
def step {N : Type*} (limiter : TenantLimiter) (s : State) : Call N → Option State
  | .acquire _ identity => some (s.acquired limiter identity)
  | .release _ identity => if identity ∈ s.held then some (s.released identity) else none

def machine (N : Type*) (limiter : TenantLimiter) : Machine State (Call N) := ⟨step limiter⟩

/-! ### What a call does -/

theorem answers_acquired (limiter : TenantLimiter) (identity : Identity) (s : State) :
    (s.acquired limiter identity).answers =
      s.answers ++ [(identity, (limiter.acquire identity true s.redis).1)] := rfl

/-- A step is an `acquire`, or a `release` of a held connection. -/
theorem step_cases {N : Type*} {limiter : TenantLimiter} {s s' : State} {call : Call N}
    (stepped : (machine N limiter).step s call = some s') :
    (∃ node identity, call = .acquire node identity ∧ s' = s.acquired limiter identity) ∨
    (∃ node identity, call = .release node identity ∧ identity ∈ s.held ∧
      s' = s.released identity) := by
  cases call with
  | acquire node identity =>
      left
      exact ⟨node, identity, rfl, (Option.some.inj stepped).symm⟩
  | release node identity =>
      right
      simp only [machine, step] at stepped
      split at stepped
      · rename_i held
        exact ⟨node, identity, rfl, held, (Option.some.inj stepped).symm⟩
      · simp at stepped

/-- An `acquire` that is granted adds a connection of its identity. -/
theorem count_held_acquired (limiter : TenantLimiter) (identity other : Identity) (s : State) :
    (s.acquired limiter identity).held.count other =
      if (limiter.acquire identity true s.redis).1 = true ∧ other = identity then
        s.held.count other + 1
      else s.held.count other := by
  change (heldAfter (limiter.acquire identity true s.redis).1 identity s.held).count other = _
  unfold heldAfter
  cases (limiter.acquire identity true s.redis).1 with
  | false => simp
  | true => simp only [if_true, Multiset.count_cons, true_and]; split <;> rfl

/-- A `release` takes a connection of its identity. -/
theorem count_held_released (identity other : Identity) (s : State) :
    (s.released identity).held.count other =
      if other = identity then s.held.count other - 1 else s.held.count other := by
  change (s.held.erase identity).count other = _
  by_cases same : other = identity
  · subst same
    rw [if_pos rfl, Multiset.count_erase_self]
  · rw [if_neg same, Multiset.count_erase_of_ne same]

/-! ### Exactness -/

/-- The tenants whose counters never share a key. -/
def BraceFree (identity : Identity) : Prop := '\x7d' ∉ identity.tenantId.toList

theorem BraceFree.eq_of_connCount {identity other : Identity} (free : BraceFree identity)
    (free' : BraceFree other) (same : other.connCount = identity.connCount) :
    other = identity := by
  obtain ⟨tenant, user⟩ := connCountKey_inj_of_braceFree free' free same
  cases identity
  cases other
  simp_all

/-- The held connections are what the key space counts, and brace-free tenants hold them. -/
structure Exact (limiter : TenantLimiter) (s : State) : Prop where
  held : Held limiter s.held s.redis
  free : ∀ identity ∈ s.held, BraceFree identity

theorem exact_start (limiter : TenantLimiter) : Exact limiter start where
  held := held_empty
  free := fun identity mem => absurd mem (Multiset.notMem_zero identity)

/-- Nobody else holds a connection on the counter of a brace-free tenant's user. -/
theorem Exact.alone {limiter : TenantLimiter} {s : State} (exact : Exact limiter s)
    {identity : Identity} (free : BraceFree identity) :
    ∀ other ∈ s.held, other.connCount = identity.connCount → other = identity := by
  intro other mem same
  exact free.eq_of_connCount (exact.free other mem) same

theorem Exact.acquired {limiter : TenantLimiter} {s : State} (exact : Exact limiter s)
    {identity : Identity} (free : BraceFree identity) :
    Exact limiter (s.acquired limiter identity) where
  held := exact.held.acquire (exact.alone free)
  free := by
    intro other held
    rw [← Multiset.count_pos, count_held_acquired] at held
    split at held
    · rename_i granted
      exact granted.2 ▸ free
    · exact exact.free other (Multiset.count_pos.mp held)

theorem Exact.released {limiter : TenantLimiter} {s : State} (exact : Exact limiter s)
    {identity : Identity} (mem : identity ∈ s.held) : Exact limiter (s.released identity) where
  held := by
    have held := exact.held
    rw [← Multiset.cons_erase mem] at held
    exact held.release
  free := by
    intro other held
    exact exact.free other (Multiset.mem_of_mem_erase held)

/-- Every call for a brace-free tenant keeps the limiter exact. -/
theorem exact_step {N : Type*} {limiter : TenantLimiter} {s s' : State} {call : Call N}
    (exact : Exact limiter s) (free : BraceFree call.identity)
    (stepped : (machine N limiter).step s call = some s') : Exact limiter s' := by
  rcases step_cases stepped with ⟨node, identity, rfl, rfl⟩ | ⟨node, identity, rfl, held, rfl⟩
  · exact exact.acquired free
  · exact exact.released held

/-- The limiter is exact after every run of calls for brace-free tenants. -/
theorem exact_run {N : Type*} {limiter : TenantLimiter} {calls : List (Call N)} {s : State}
    (ran : (machine N limiter).run start calls = some s)
    (free : ∀ call ∈ calls, BraceFree call.identity) : Exact limiter s := by
  have steps : (machine N limiter).Steps (fun _ call => BraceFree call.identity) start calls :=
    Machine.steps_of_mem (fun call mem _ => free call mem) start
  refine Machine.invariant_steps (exact_start limiter) ?_ ran steps
  intro s call s' exact free stepped
  exact exact_step exact free stepped

/-- The count of a brace-free tenant's user is the number of connections it holds. -/
theorem Exact.conncount {limiter : TenantLimiter} {s : State} (exact : Exact limiter s)
    {identity : Identity} (free : BraceFree identity) :
    conncount s.redis identity = s.held.count identity := by
  rw [exact.held.conncount]
  have same : RefCount.refs Identity.connCount s.held identity.connCount =
      s.held.count identity := by
    refine Multiset.countP_congr rfl fun other mem => propext ?_
    constructor
    · exact fun sameKey => (exact.alone free other mem sameKey).symm
    · exact fun sameIdentity => congrArg Identity.connCount sameIdentity.symm
  rw [same]

/-- Over tenants without a closing brace the limiter is exact: in every state that calls of
any nodes lead to, a user is admitted when it holds a connection or fewer than
`maxUsers` users do, its count is the number of connections it holds, it is online
exactly when it holds one, and nothing is left when everything is released. -/
theorem limiter_exact {N : Type*} (limiter : TenantLimiter) {calls : List (Call N)} {s : State}
    (ran : (machine N limiter).run start calls = some s)
    (free : ∀ call ∈ calls, '\x7d' ∉ call.identity.tenantId.toList) :
    (∀ identity : Identity, '\x7d' ∉ identity.tenantId.toList →
      ((limiter.acquire identity true s.redis).1 = true ↔
        identity ∈ s.held ∨
          (usersHolding s.held identity.tenantId).card < limiter.maxUsers) ∧
      conncount s.redis identity = s.held.count identity ∧
      (identity.userId ∈ onlineUsers s.redis identity.tenantId ↔
        1 ≤ s.held.count identity)) ∧
    (∀ tenantId, (onlineUsers s.redis tenantId).card ≤ limiter.maxUsers) ∧
    (s.held = 0 → (∀ tenantId, onlineUsers s.redis tenantId = ∅) ∧
      ∀ identity : Identity, '\x7d' ∉ identity.tenantId.toList →
        conncount s.redis identity = 0) := by
  have exact := exact_run ran free
  refine ⟨fun identity mem => ⟨?_, exact.conncount mem, ?_⟩, exact.held.card_le, ?_⟩
  · exact exact.held.acquire_iff (exact.alone mem)
  · rw [exact.held.onlineUsers, mem_usersHolding]
    exact Multiset.count_pos.symm
  · intro released
    constructor
    · intro tenantId
      rw [exact.held.onlineUsers, released]
      rfl
    · intro identity mem
      rw [exact.conncount mem, released]
      rfl

/-- Two devices of one user on two nodes, and a second user refused at the cap of one. -/
theorem limiter_exact_two_devices :
    let ada : Identity := ⟨"acme", "ada"⟩
    let bob : Identity := ⟨"acme", "bob"⟩
    let calls : List (Call Bool) := [.acquire true ada, .acquire false ada, .acquire true bob,
      .release true ada]
    ∃ s, (machine Bool ⟨1⟩).run start calls = some s ∧ s.held = {ada} ∧
      conncount s.redis ada = 1 ∧ (TenantLimiter.acquire ⟨1⟩ bob true s.redis).1 = false := by
  intro ada bob calls
  have ran : ∃ s, (machine Bool ⟨1⟩).run start calls = some s ∧ s.held = {ada} :=
    ⟨_, rfl, by decide⟩
  obtain ⟨s, ran, held⟩ := ran
  have exact := (limiter_exact ⟨1⟩ ran (by decide)).1
  refine ⟨s, ran, held, ?_, ?_⟩
  · rw [(exact ada (by decide)).2.1, held]
    decide
  · have refused := (exact bob (by decide)).1
    rw [held] at refused
    rw [Bool.eq_false_iff]
    exact fun admitted => absurd (refused.mp admitted) (by decide)

end Calls

end YappaCore
