import YappaCore.Limits.Calls

/-!
Two tenants on one limiter. A tenant sees the answers of its calls, its online set
and its counters; `NonInterfering` says that these are the same with the other
tenant's calls and without them.

The scripts of a call touch one counter and one online set, so the calls of a tenant
are not seen where its keys are not (`Shadow`). Online sets are never shared. Counters
are when one tenant's name is the other's followed by `}:` and any text, and then a
single admitted call shows: `isolation_iff`.
-/

namespace YappaCore

open Lib

namespace Calls

/-! ### Keys of two tenants -/

/-- Two tenants have users whose counters share a key. -/
def SharesCounter (t₁ t₂ : String) : Prop := ∃ u₁ u₂, connCountKey t₁ u₁ = connCountKey t₂ u₂

/-- No key of one tenant's users is a key of the other's. -/
def KeysApart (t₁ t₂ : String) : Prop :=
  ∀ u₁ u₂, ∀ key ∈ [onlineKey t₁, connCountKey t₁ u₁],
    key ∉ [onlineKey t₂, connCountKey t₂ u₂]

/-- Counters are shared exactly between a tenant and one that extends its name. -/
theorem sharesCounter_iff {t₁ t₂ : String} (distinct : t₁ ≠ t₂) :
    SharesCounter t₁ t₂ ↔ ∃ rest, Extends t₁ t₂ rest ∨ Extends t₂ t₁ rest := by
  constructor
  · rintro ⟨u₁, u₂, same⟩
    rcases (connCountKey_eq_iff t₁ u₁ t₂ u₂).mp same with ⟨eq, _⟩ | ⟨rest, ⟨longer, _⟩ | ⟨longer, _⟩⟩
    · exact absurd eq distinct
    · exact ⟨rest, .inl longer⟩
    · exact ⟨rest, .inr longer⟩
  · rintro ⟨rest, longer | longer⟩
    · refine ⟨rest ++ "\x7d:" ++ "", "", ?_⟩
      exact (connCountKey_eq_iff _ _ _ _).mpr (.inr ⟨rest, .inl ⟨longer, rfl⟩⟩)
    · refine ⟨"", rest ++ "\x7d:" ++ "", ?_⟩
      exact (connCountKey_eq_iff _ _ _ _).mpr (.inr ⟨rest, .inr ⟨longer, rfl⟩⟩)

/-- Two tenants' keys can only meet in a counter. -/
theorem keysApart_iff {t₁ t₂ : String} (distinct : t₁ ≠ t₂) :
    KeysApart t₁ t₂ ↔ ¬ SharesCounter t₁ t₂ := by
  constructor
  · rintro apart ⟨u₁, u₂, same⟩
    exact apart u₁ u₂ (connCountKey t₁ u₁) (by simp) (by simp [same])
  · intro unshared u₁ u₂ key mem mem'
    simp only [List.mem_cons, List.not_mem_nil, or_false] at mem mem'
    rcases mem with rfl | rfl
    · rcases mem' with same | same
      · exact distinct (onlineKey_injective same)
      · exact onlineKey_ne_connCountKey _ _ _ same
    · rcases mem' with same | same
      · exact onlineKey_ne_connCountKey _ _ _ same.symm
      · exact unshared ⟨u₁, u₂, same⟩

/-! ### What a tenant sees -/

/-- Two states look the same to a tenant. -/
structure SameFor (tenantId : String) (s s' : State) : Prop where
  answers : s.answers.filter (·.1.tenantId = tenantId) =
    s'.answers.filter (·.1.tenantId = tenantId)
  online : onlineUsers s.redis tenantId = onlineUsers s'.redis tenantId
  counts : ∀ userId, conncount s.redis ⟨tenantId, userId⟩ = conncount s'.redis ⟨tenantId, userId⟩

/-- In every run of calls of two tenants, the first sees what it sees when the second's calls
are erased. -/
def NonInterfering (N : Type*) (limiter : TenantLimiter) (t₁ t₂ : String) : Prop :=
  ∀ (calls : List (Call N)) (s : State),
    (∀ call ∈ calls, call.identity.tenantId = t₁ ∨ call.identity.tenantId = t₂) →
    (machine N limiter).run start calls = some s →
    ∃ s', (machine N limiter).run start (calls.filter (·.identity.tenantId = t₁)) = some s' ∧
      SameFor t₁ s s'

/-! ### The run without the other tenant -/

/-- Nothing is held or counted: the state of a limiter that admits nobody. -/
structure Idle (s : State) : Prop where
  held : s.held = 0
  counts : ∀ key, s.redis.count key = 0

/-- The state of a run and of the same run without another tenant's calls agree on
what belongs to the first tenant. -/
structure Shadow (tenantId : String) (s s' : State) : Prop where
  typed : Typed s.redis
  typed' : Typed s'.redis
  agree : RefCount.Agree (Set.range (connCountKey tenantId)) {onlineKey tenantId}
    s.redis.view s'.redis.view
  held : ∀ userId, s.held.count ⟨tenantId, userId⟩ = s'.held.count ⟨tenantId, userId⟩
  answers : s.answers.filter (·.1.tenantId = tenantId) =
    s'.answers.filter (·.1.tenantId = tenantId)

theorem shadow_start (tenantId : String) : Shadow tenantId start start where
  typed := typed_empty
  typed' := typed_empty
  agree := ⟨fun _ _ => rfl, fun _ _ => rfl⟩
  held := fun _ => rfl
  answers := rfl

theorem Shadow.sameFor {tenantId : String} {s s' : State} (shadow : Shadow tenantId s s') :
    SameFor tenantId s s' where
  answers := shadow.answers
  online := shadow.agree.members _ rfl
  counts := fun userId => shadow.agree.count _ ⟨userId, rfl⟩

section Steps

variable {N : Type*} {limiter : TenantLimiter} {s s' s₂ : State} {call : Call N}

/-- A limiter with no room admits nobody and counts nothing. -/
theorem idle_acquire (full : limiter.maxUsers = 0) (idle : Idle s) (typed : Typed s.redis)
    (identity : Identity) : (limiter.acquire identity true s.redis).1 = false ∧
      (limiter.acquire identity true s.redis).2.view = s.redis.view := by
  obtain ⟨answer, after⟩ := acquire_view typed identity limiter
  have refused : (viewAcquire limiter identity s.redis.view).1 = false := by
    rw [Bool.eq_false_iff]
    intro admitted
    unfold viewAcquire at admitted
    rcases (RefCount.acquire_admits _ _ _ _ _).mp admitted with used | room
    · exact used (idle.counts _)
    · omega
  refine ⟨answer.trans refused, after.trans ?_⟩
  exact RefCount.acquire_refused _ _ _ _ _ refused

theorem idle_step (full : limiter.maxUsers = 0) (idle : Idle s) (typed : Typed s.redis)
    (stepped : (machine N limiter).step s call = some s₂) : Idle s₂ := by
  rcases step_cases stepped with ⟨_, identity, rfl, rfl⟩ | ⟨_, identity, rfl, held, rfl⟩
  · obtain ⟨refused, same⟩ := idle_acquire full idle typed identity
    constructor
    · change heldAfter (limiter.acquire identity true s.redis).1 identity s.held = 0
      rw [refused, idle.held]
      rfl
    · intro key
      exact (congrArg (fun view => view.count key) same).trans (idle.counts key)
  · rw [idle.held] at held
    exact absurd held (Multiset.notMem_zero identity)

/-- An `acquire` of the tenant itself is answered the same in both runs. -/
theorem Shadow.acquired {identity : Identity} (shadow : Shadow identity.tenantId s s') :
    Shadow identity.tenantId (s.acquired limiter identity) (s'.acquired limiter identity) := by
  have slot : identity.connCount ∈ Set.range (connCountKey identity.tenantId) :=
    ⟨identity.userId, rfl⟩
  obtain ⟨answer, after⟩ := acquire_view shadow.typed identity limiter
  obtain ⟨answer', after'⟩ := acquire_view shadow.typed' identity limiter
  have same : (limiter.acquire identity true s.redis).1 =
      (limiter.acquire identity true s'.redis).1 := by
    rw [answer, answer']
    exact shadow.agree.acquire_fst slot rfl limiter.maxUsers identity.userId
  constructor
  · exact acquire_typed shadow.typed identity limiter
  · exact acquire_typed shadow.typed' identity limiter
  · change RefCount.Agree _ _ (limiter.acquire identity true s.redis).2.view
      (limiter.acquire identity true s'.redis).2.view
    rw [after, after']
    exact shadow.agree.acquire slot rfl limiter.maxUsers identity.userId
  · intro userId
    rw [count_held_acquired, count_held_acquired, same, shadow.held userId]
  · rw [answers_acquired, answers_acquired, List.filter_append, List.filter_append,
      shadow.answers, same]

/-- A `release` of the tenant itself is made in both runs. -/
theorem Shadow.released {identity : Identity} (shadow : Shadow identity.tenantId s s') :
    Shadow identity.tenantId (s.released identity) (s'.released identity) := by
  have slot : identity.connCount ∈ Set.range (connCountKey identity.tenantId) :=
    ⟨identity.userId, rfl⟩
  constructor
  · exact release_typed shadow.typed identity
  · exact release_typed shadow.typed' identity
  · change RefCount.Agree _ _ (TenantLimiter.release identity true s.redis).view
      (TenantLimiter.release identity true s'.redis).view
    rw [release_view shadow.typed identity, release_view shadow.typed' identity]
    exact shadow.agree.release slot identity.userId
  · intro userId
    rw [count_held_released, count_held_released, shadow.held userId]
  · exact shadow.answers

/-- A call of the tenant itself is made in both runs and answered the same. -/
theorem shadow_own (shadow : Shadow call.identity.tenantId s s')
    (stepped : (machine N limiter).step s call = some s₂) :
    ∃ s₂', (machine N limiter).step s' call = some s₂' ∧
      Shadow call.identity.tenantId s₂ s₂' := by
  rcases step_cases stepped with ⟨node, identity, rfl, rfl⟩ | ⟨node, identity, rfl, held, rfl⟩
  · exact ⟨s'.acquired limiter identity, rfl, shadow.acquired⟩
  · have held' : identity ∈ s'.held := by
      have before : s.held.count identity = s'.held.count identity := shadow.held identity.userId
      rw [← Multiset.count_pos] at held ⊢
      exact before ▸ held
    exact ⟨s'.released identity, if_pos held', shadow.released⟩

/-- A call of another tenant is not seen, when nobody is admitted or no counter is
shared. -/
theorem shadow_other {t₁ t₂ : String} (distinct : t₁ ≠ t₂)
    (quiet : limiter.maxUsers = 0 ∨ ¬ SharesCounter t₁ t₂)
    (idle : limiter.maxUsers = 0 → Idle s) (shadow : Shadow t₁ s s')
    (other : call.identity.tenantId = t₂)
    (stepped : (machine N limiter).step s call = some s₂) : Shadow t₁ s₂ s' := by
  have quietFor : ∀ identity : Identity, identity.tenantId = t₂ →
      (∀ userId, (⟨t₁, userId⟩ : Identity) ≠ identity) ∧
      identity.online ∉ ({onlineKey t₁} : Set String) ∧
      (¬ SharesCounter t₁ t₂ → identity.connCount ∉ Set.range (connCountKey t₁)) := by
    rintro identity rfl
    refine ⟨fun userId same => distinct (congrArg Identity.tenantId same), ?_, ?_⟩
    · exact fun same => distinct (onlineKey_injective same).symm
    · rintro unshared ⟨userId, same⟩
      exact unshared ⟨userId, _, same⟩
  rcases step_cases stepped with ⟨node, identity, rfl, rfl⟩ | ⟨node, identity, rfl, held, rfl⟩
  · obtain ⟨differ, group, slot⟩ := quietFor identity other
    refine ⟨acquire_typed shadow.typed identity limiter, shadow.typed', ?_, ?_, ?_⟩
    · change RefCount.Agree _ _ (limiter.acquire identity true s.redis).2.view s'.redis.view
      rcases quiet with full | unshared
      · rw [(idle_acquire full (idle full) shadow.typed identity).2]
        exact shadow.agree
      · rw [(acquire_view shadow.typed identity limiter).2]
        exact shadow.agree.acquire_left (slot unshared) group limiter.maxUsers identity.userId
    · intro userId
      rw [count_held_acquired, if_neg fun granted => differ userId granted.2]
      exact shadow.held userId
    · have skipped : identity.tenantId ≠ t₁ := fun own => distinct (own.symm.trans other)
      rw [answers_acquired, List.filter_append, List.filter_singleton, shadow.answers]
      simp [skipped]
  · obtain ⟨differ, group, slot⟩ := quietFor identity other
    refine ⟨release_typed shadow.typed identity, shadow.typed', ?_, ?_, shadow.answers⟩
    · change RefCount.Agree _ _ (TenantLimiter.release identity true s.redis).view s'.redis.view
      rcases quiet with full | unshared
      · rw [(idle full).held] at held
        exact absurd held (Multiset.notMem_zero identity)
      · rw [release_view shadow.typed identity]
        exact shadow.agree.release_left (slot unshared) group identity.userId
    · intro userId
      rw [count_held_released, if_neg (differ userId)]
      exact shadow.held userId

end Steps

/-- Without shared counters, or with nobody admitted, a tenant's calls run the same
without the other tenant's. -/
theorem nonInterfering_of_quiet {N : Type*} {limiter : TenantLimiter} {t₁ t₂ : String}
    (distinct : t₁ ≠ t₂) (quiet : limiter.maxUsers = 0 ∨ ¬ SharesCounter t₁ t₂) :
    NonInterfering N limiter t₁ t₂ := by
  intro calls s tenants ran
  let Ok : State → Call N → Prop := fun _ call =>
    call.identity.tenantId = t₁ ∨ call.identity.tenantId = t₂
  let Inv : List (Call N) → State → Prop := fun calls s => (limiter.maxUsers = 0 → Idle s) ∧
    ∃ s', (machine N limiter).run start (calls.filter (·.identity.tenantId = t₁)) = some s' ∧
      Shadow t₁ s s'
  have steps : (machine N limiter).Steps Ok start calls :=
    Machine.steps_of_mem (fun call mem _ => tenants call mem) start
  have inv : Inv calls s := by
    refine Machine.invariant_trace ⟨fun _ => ⟨rfl, fun _ => rfl⟩, start, rfl, shadow_start t₁⟩ ?_
      ran steps
    rintro calls s call s₂ ⟨idle, s', erased, shadow⟩ tenant stepped
    refine ⟨fun full => idle_step full (idle full) shadow.typed stepped, ?_⟩
    rw [List.filter_append]
    rcases tenant with rfl | other
    · obtain ⟨s₂', stepped', after⟩ := shadow_own shadow stepped
      refine ⟨s₂', ?_, after⟩
      rw [List.filter_singleton]
      simp only [decide_true]
      exact (Machine.run_snoc _).mpr ⟨s', erased, stepped'⟩
    · refine ⟨s', ?_, shadow_other distinct quiet idle shadow other stepped⟩
      have skipped : call.identity.tenantId ≠ t₁ := fun own => distinct (own.symm.trans other)
      rw [List.filter_singleton]
      simpa [skipped] using erased
  obtain ⟨_, s', erased, shadow⟩ := inv
  exact ⟨s', erased, shadow.sameFor⟩

/-- One admitted call of a tenant shows in a counter it shares. -/
theorem not_nonInterfering_of_shared {N : Type*} (node : N) {limiter : TenantLimiter}
    {t₁ t₂ : String} (distinct : t₁ ≠ t₂) (room : limiter.maxUsers ≠ 0)
    (shared : SharesCounter t₁ t₂) : ¬ NonInterfering N limiter t₁ t₂ := by
  obtain ⟨u₁, u₂, same⟩ := shared
  intro noninterfering
  have ran : (machine N limiter).run start [.acquire node ⟨t₂, u₂⟩] =
      some (start.acquired limiter ⟨t₂, u₂⟩) := rfl
  obtain ⟨s', erased, sameFor⟩ := noninterfering _ _ (by simp [Call.identity]) ran
  have skipped : t₂ ≠ t₁ := Ne.symm distinct
  rw [List.filter_singleton] at erased
  obtain rfl : start = s' := by simpa [Call.identity, skipped] using erased
  have counts := sameFor.counts u₁
  have counted : conncount (start.acquired limiter ⟨t₂, u₂⟩).redis ⟨t₁, u₁⟩ = 1 := by
    change conncount (limiter.acquire ⟨t₂, u₂⟩ true Redis.empty).2 ⟨t₁, u₁⟩ = 1
    rw [acquire_eq typed_empty]
    simp [conncount, Identity.connCount, same, Redis.count, Redis.members, Redis.empty, room,
      Identity.online, Ne.symm (onlineKey_ne_connCountKey t₂ t₂ u₂)]
  have uncounted : conncount start.redis ⟨t₁, u₁⟩ = 0 := rfl
  rw [counted, uncounted] at counts
  exact absurd counts (by decide)

/-- A tenant is not seen through the limiter exactly when nobody is admitted, or neither
tenant's name is the other's followed by `}:` and any text; and in the second case,
only there, all keys differ. -/
theorem isolation_iff {N : Type*} (node : N) (limiter : TenantLimiter) {t₁ t₂ : String}
    (distinct : t₁ ≠ t₂) :
    (NonInterfering N limiter t₁ t₂ ↔
      limiter.maxUsers = 0 ∨ ¬ ∃ rest, Extends t₁ t₂ rest ∨ Extends t₂ t₁ rest) ∧
    (KeysApart t₁ t₂ ↔ ¬ ∃ rest, Extends t₁ t₂ rest ∨ Extends t₂ t₁ rest) := by
  rw [← sharesCounter_iff distinct]
  refine ⟨⟨fun noninterfering => ?_, nonInterfering_of_quiet distinct⟩, keysApart_iff distinct⟩
  by_cases full : limiter.maxUsers = 0
  · exact .inl full
  · right
    intro shared
    exact not_nonInterfering_of_shared node distinct full shared noninterfering

/-- Tenants named by plain words are isolated. -/
theorem isolation_acme_globex :
    NonInterfering Bool ⟨2⟩ "acme" "globex" ∧ KeysApart "acme" "globex" := by
  have iff := isolation_iff true ⟨2⟩ (show "acme" ≠ "globex" by decide)
  have apart : ¬ ∃ rest, Extends "acme" "globex" rest ∨ Extends "globex" "acme" rest := by
    rw [← sharesCounter_iff (by decide)]
    rintro ⟨u₁, u₂, same⟩
    exact absurd (connCountKey_inj_of_braceFree (by decide) (by decide) same).1 (by decide)
  exact ⟨iff.1.mpr (.inr apart), iff.2.mpr apart⟩

/-- A user of the tenant `a}:b` makes the first connection of the user `b}:c` of the tenant `a`
look like a second one, and with a cap of one user `a` gets two. -/
theorem colliding_tenant_defeats_cap :
    ¬ NonInterfering Unit ⟨1⟩ "a" "a\x7d:b" ∧ ¬ KeysApart "a" "a\x7d:b" := by
  constructor
  · intro noninterfering
    let calls : List (Call Unit) := [.acquire () ⟨"a\x7d:b", "c"⟩, .acquire () ⟨"a", "b\x7d:c"⟩,
      .acquire () ⟨"a", "d"⟩]
    obtain ⟨s', erased, sameFor⟩ := noninterfering calls _ (by decide) rfl
    obtain rfl := Option.some.inj erased
    exact absurd sameFor.answers (by decide)
  · intro apart
    exact apart "b\x7d:c" "c" (connCountKey "a" "b\x7d:c") (by decide) (by decide)

end Calls

end YappaCore
