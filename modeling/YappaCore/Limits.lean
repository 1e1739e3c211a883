import YappaCore.Lib.RefCount
import YappaCore.Protocol

/-!
The tenant limiter of `src/limits/mod.rs`: the two Lua scripts over a Redis key
space, the keys they are called with, and `acquire` and `release`.

Redis is one name space of typed values; a command on a key of the other type is
an error that ends the script and keeps what it wrote before. Counters are
unbounded integers. `view` reads a key space as counters and sets by key, and
`acquire_view`, `release_view` say that on it the scripts are the operations of
`Lib.RefCount`.

The keys of `TenantLimiter::keys` are injective in the tenant for the online set
(`onlineKey_injective`), and join two free strings for the counter:
`connCountKey_eq_iff` says exactly when two of those coincide.
-/

namespace YappaCore

open Lib

/-! ### Redis -/

inductive RedisValue where
  | int (n : Int)
  | set (members : Finset String)
deriving DecidableEq

/-- The key space. -/
abbrev Redis := String → Option RedisValue

inductive RedisError where
  | wrongType
deriving DecidableEq, Repr

/-- A Lua script: atomic, and ended by the first error of a command. -/
abbrev Script := ExceptT RedisError (StateM Redis)

namespace Redis

def empty : Redis := fun _ => none

/-- The integer at a key, a missing one read as 0. -/
def count (redis : Redis) (key : String) : Int :=
  match redis key with
  | some (.int n) => n
  | _ => 0

/-- The set at a key, a missing one read as empty. -/
def members (redis : Redis) (key : String) : Finset String :=
  match redis key with
  | some (.set members) => members
  | _ => ∅

/-- `INCR` and `DECR`. -/
def incrBy (delta : Int) (key : String) : Script Int := fun redis =>
  match redis key with
  | some (.set _) => (.error .wrongType, redis)
  | _ => (.ok (redis.count key + delta),
      Function.update redis key (some (.int (redis.count key + delta))))

/-- `SCARD`. -/
def scard (key : String) : Script Nat := fun redis =>
  match redis key with
  | some (.int _) => (.error .wrongType, redis)
  | _ => (.ok (redis.members key).card, redis)

/-- `SADD`. -/
def sadd (key member : String) : Script Unit := fun redis =>
  match redis key with
  | some (.int _) => (.error .wrongType, redis)
  | _ => (.ok (), Function.update redis key (some (.set (insert member (redis.members key)))))

/-- `SREM`: a set that becomes empty is removed. -/
def srem (key member : String) : Script Unit := fun redis =>
  match redis key with
  | some (.int _) => (.error .wrongType, redis)
  | _ =>
      let rest := (redis.members key).erase member
      (.ok (), Function.update redis key (if rest = ∅ then none else some (.set rest)))

/-- `DEL`. -/
def del (key : String) : Script Unit := fun redis => (.ok (), Function.update redis key none)

end Redis

open Redis

/-! ### The scripts -/

/-- `ACQUIRE_SCRIPT`. -/
def acquireScript (online refc user : String) (maxn : Nat) : Script Int := do
  let cnt ← incrBy 1 refc
  if cnt = 1 then
    if (← scard online) ≥ maxn then
      let _ ← incrBy (-1) refc
      return 0
    sadd online user
  return 1

/-- `RELEASE_SCRIPT`. -/
def releaseScript (online refc user : String) : Script Int := do
  let cnt ← incrBy (-1) refc
  if cnt ≤ 0 then
    srem online user
    del refc
  return 1

/-! ### `TenantLimiter` -/

structure TenantLimiter where
  maxUsers : Nat
deriving DecidableEq, Repr

/-- `online:{tenant}`. -/
def onlineKey (tenantId : String) : String := "online:\x7b" ++ tenantId ++ "\x7d"

/-- `conncount:{tenant}:user`. -/
def connCountKey (tenantId userId : String) : String :=
  "conncount:\x7b" ++ tenantId ++ "\x7d:" ++ userId

/-- The key of the tenant's online set. -/
def Identity.online (identity : Identity) : String := onlineKey identity.tenantId

/-- The key of the user's counter. -/
def Identity.connCount (identity : Identity) : String :=
  connCountKey identity.tenantId identity.userId

namespace TenantLimiter

/-- `TenantLimiter::keys`. -/
def keys (identity : Identity) : String × String := (identity.online, identity.connCount)

/-- The answer `acquire` makes of a script's reply: an error admits. -/
def admits : Except RedisError Int → Bool
  | .ok 1 => true
  | .ok _ => false
  | .error _ => true

/-- `TenantLimiter::acquire`. A call that does not reach Redis runs no script and
ends in an error. -/
def acquire (limiter : TenantLimiter) (identity : Identity) (reached : Bool) (redis : Redis) :
    Bool × Redis :=
  let (online, refc) := keys identity
  if reached then
    let (res, redis) := acquireScript online refc identity.userId limiter.maxUsers redis
    (admits res, redis)
  else (true, redis)

/-- `TenantLimiter::release`. -/
def release (identity : Identity) (reached : Bool) (redis : Redis) : Redis :=
  let (online, refc) := keys identity
  if reached then (releaseScript online refc identity.userId redis).2 else redis

end TenantLimiter

/-! ### The keys -/

theorem toList_onlineKey (t : String) :
    (onlineKey t).toList = "online:\x7b".toList ++ t.toList ++ ['\x7d'] := by
  simp [onlineKey]

theorem toList_connCountKey (t u : String) : (connCountKey t u).toList =
    "conncount:\x7b".toList ++ (t.toList ++ ['\x7d', ':'] ++ u.toList) := by
  simp [connCountKey]

theorem onlineKey_injective : Function.Injective onlineKey := by
  intro t t' same
  have lists := congrArg String.toList same
  rw [toList_onlineKey, toList_onlineKey] at lists
  exact String.toList_inj.mp (List.append_cancel_left (List.append_cancel_right lists))

/-- An online set and a counter never share a key. -/
theorem onlineKey_ne_connCountKey (t t' u : String) : onlineKey t ≠ connCountKey t' u := by
  intro same
  have lists := congrArg String.toList same
  rw [toList_onlineKey, toList_connCountKey] at lists
  simp at lists

/-- Where one text goes past a shorter one that is followed by `}:`, it starts with it. -/
theorem exists_rest_of_append {a b c d : List Char} (shorter : a.length < b.length)
    (same : a ++ ['\x7d', ':'] ++ c = b ++ ['\x7d', ':'] ++ d) :
    ∃ rest, b = a ++ ['\x7d', ':'] ++ rest ∧ c = rest ++ ['\x7d', ':'] ++ d := by
  rw [List.append_assoc, List.append_assoc, List.append_eq_append_iff] at same
  rcases same with ⟨beyond, rfl, rest⟩ | ⟨beyond, rfl, _⟩
  · match beyond with
    | [] => simp at shorter
    | [_] => simp at rest
    | first :: second :: beyond =>
        simp only [List.cons_append, List.nil_append, List.cons.injEq] at rest
        obtain ⟨rfl, rfl, tail⟩ := rest
        exact ⟨beyond, by simp, by simpa using tail⟩
  · simp only [List.length_append] at shorter
    omega

/-- The second tenant's name is the first's followed by `}:` and more. -/
def Extends (t t' rest : String) : Prop := t' = t ++ "\x7d:" ++ rest

/-- The counters of two identities coincide when they are the same identity, or one
tenant extends the other by a text that the other user's name starts with. -/
theorem connCountKey_eq_iff (t u t' u' : String) :
    connCountKey t u = connCountKey t' u' ↔
      (t = t' ∧ u = u') ∨
        ∃ rest, (Extends t t' rest ∧ Extends rest u u') ∨ (Extends t' t rest ∧ Extends rest u' u) := by
  have text : ∀ {a b c : String}, a = b ++ "\x7d:" ++ c ↔
      a.toList = b.toList ++ ['\x7d', ':'] ++ c.toList := by
    intro a b c
    rw [← String.toList_inj, String.toList_append, String.toList_append]
    rfl
  rw [← String.toList_inj, toList_connCountKey, toList_connCountKey, List.append_cancel_left_eq]
  constructor
  · intro same
    rcases lt_trichotomy t.toList.length t'.toList.length with shorter | equal | longer
    · obtain ⟨rest, tenant, user⟩ := exists_rest_of_append shorter same
      exact .inr ⟨String.ofList rest, .inl ⟨text.mpr (by simpa using tenant),
        text.mpr (by simpa using user)⟩⟩
    · rw [List.append_assoc, List.append_assoc] at same
      obtain ⟨tenant, tail⟩ := List.append_inj same equal
      exact .inl ⟨String.toList_inj.mp tenant, String.toList_inj.mp (List.append_cancel_left tail)⟩
    · obtain ⟨rest, tenant, user⟩ := exists_rest_of_append longer same.symm
      exact .inr ⟨String.ofList rest, .inr ⟨text.mpr (by simpa using tenant),
        text.mpr (by simpa using user)⟩⟩
  · rintro (⟨rfl, rfl⟩ | ⟨rest, ⟨tenant, user⟩ | ⟨tenant, user⟩⟩)
    · rfl
    · rw [text.mp tenant, text.mp user]
      simp
    · rw [text.mp tenant, text.mp user]
      simp

/-- The counter keys of tenants without a closing brace are distinct. -/
theorem connCountKey_inj_of_braceFree {t u t' u' : String} (free : '\x7d' ∉ t.toList)
    (free' : '\x7d' ∉ t'.toList) (same : connCountKey t u = connCountKey t' u') :
    t = t' ∧ u = u' := by
  rcases (connCountKey_eq_iff t u t' u').mp same with eq | ⟨rest, ⟨rfl, _⟩ | ⟨rfl, _⟩⟩
  · exact eq
  · simp at free'
  · simp at free

/-! ### The scripts as operations on counters and sets -/

/-- A key space as counters and sets by key. -/
def Redis.view (redis : Redis) : RefCount String String String := ⟨redis.count, redis.members⟩

/-- The limiter's keys hold what its scripts put there: sets and integers. -/
structure Typed (redis : Redis) : Prop where
  online : ∀ t n, redis (onlineKey t) ≠ some (.int n)
  connCount : ∀ t u members, redis (connCountKey t u) ≠ some (.set members)

theorem typed_empty : Typed Redis.empty where
  online := by simp [Redis.empty]
  connCount := by simp [Redis.empty]

namespace Redis

variable {redis : Redis} {key : String}

theorem incrBy_eq (int : ∀ members, redis key ≠ some (.set members)) (delta : Int) :
    incrBy delta key redis = (.ok (redis.count key + delta),
      Function.update redis key (some (.int (redis.count key + delta)))) := by
  unfold incrBy
  split
  · rename_i members holds
    exact absurd holds (int members)
  · rfl

theorem scard_eq (set : ∀ n, redis key ≠ some (.int n)) :
    scard key redis = (.ok (redis.members key).card, redis) := by
  unfold scard
  split
  · rename_i n holds
    exact absurd holds (set n)
  · rfl

theorem sadd_eq (set : ∀ n, redis key ≠ some (.int n)) (member : String) :
    sadd key member redis =
      (.ok (), Function.update redis key (some (.set (insert member (redis.members key))))) := by
  unfold sadd
  split
  · rename_i n holds
    exact absurd holds (set n)
  · rfl

theorem srem_eq (set : ∀ n, redis key ≠ some (.int n)) (member : String) :
    srem key member redis =
      (.ok (), Function.update redis key
        (if (redis.members key).erase member = ∅ then none
          else some (.set ((redis.members key).erase member)))) := by
  unfold srem
  split
  · rename_i n holds
    exact absurd holds (set n)
  · rfl

@[simp] theorem count_update (value : Option RedisValue) (key' : String) :
    count (Function.update redis key value) key' =
      if key' = key then (match value with | some (.int n) => n | _ => 0)
      else redis.count key' := by
  unfold count
  by_cases same : key' = key
  · subst same
    simp
  · simp [same]

@[simp] theorem members_update (value : Option RedisValue) (key' : String) :
    members (Function.update redis key value) key' =
      if key' = key then (match value with | some (.set members) => members | _ => ∅)
      else redis.members key' := by
  unfold members
  by_cases same : key' = key
  · subst same
    simp
  · simp [same]

/-- A key that holds no integer counts 0. -/
theorem count_of_set (set : ∀ n, redis key ≠ some (.int n)) : redis.count key = 0 := by
  unfold count
  split
  · rename_i n holds
    exact absurd holds (set n)
  · rfl

/-- A key that holds no set has no members. -/
theorem members_of_int (int : ∀ members, redis key ≠ some (.set members)) :
    redis.members key = ∅ := by
  unfold members
  split
  · rename_i members holds
    exact absurd holds (int members)
  · rfl

end Redis

section Scripts

variable {redis : Redis} {online refc : String}

/-- A command that succeeds hands its reply and the new key space on. -/
theorem script_bind_ok {α β : Type} {script : Script α} {reply : α} {redis' : Redis}
    (ran : script redis = (.ok reply, redis')) (next : α → Script β) :
    (script >>= next) redis = next reply redis' := by
  simp [bind, ExceptT.bind, ExceptT.mk, StateT.bind, ran, ExceptT.bindCont]

/-- A script that only answers leaves the key space alone. -/
theorem script_pure {α : Type} (reply : α) (redis : Redis) :
    (pure reply : Script α) redis = (.ok reply, redis) := rfl

/-- `ACQUIRE_SCRIPT` on keys of the right types. A refused user's counter is left at 0. -/
theorem acquireScript_eq (set : ∀ n, redis online ≠ some (.int n))
    (int : ∀ members, redis refc ≠ some (.set members)) (apart : online ≠ refc) (user : String)
    (maxn : Nat) : acquireScript online refc user maxn redis =
      if redis.count refc = 0 then
        if maxn ≤ (redis.members online).card then
          (.ok 0, Function.update redis refc (some (.int 0)))
        else (.ok 1, Function.update (Function.update redis refc (some (.int 1))) online
          (some (.set (insert user (redis.members online)))))
      else (.ok 1, Function.update redis refc (some (.int (redis.count refc + 1)))) := by
  unfold acquireScript
  rw [script_bind_ok (incrBy_eq int 1)]
  by_cases fresh : redis.count refc = 0
  · have set' : ∀ n, Function.update redis refc (some (.int (redis.count refc + 1))) online ≠
        some (.int n) := fun n => by simpa [apart] using set n
    rw [if_pos fresh, if_pos (by omega), script_bind_ok (scard_eq set')]
    by_cases full : maxn ≤ (redis.members online).card
    · rw [if_pos full, if_pos (by simpa [apart] using full),
        script_bind_ok (incrBy_eq (by simp) (-1))]
      simp [fresh, script_pure]
    · rw [if_neg full, if_neg (by simpa [apart] using full), script_bind_ok (sadd_eq set' user)]
      simp [fresh, apart, script_pure]
  · rw [if_neg fresh, if_neg (by omega)]
    rfl

/-- `RELEASE_SCRIPT` on keys of the right types. -/
theorem releaseScript_eq (set : ∀ n, redis online ≠ some (.int n))
    (int : ∀ members, redis refc ≠ some (.set members)) (apart : online ≠ refc) (user : String) :
    (releaseScript online refc user redis).2 =
      if redis.count refc ≤ 1 then
        Function.update (Function.update redis online
          (if (redis.members online).erase user = ∅ then none
            else some (.set ((redis.members online).erase user)))) refc none
      else Function.update redis refc (some (.int (redis.count refc - 1))) := by
  unfold releaseScript
  rw [script_bind_ok (incrBy_eq int (-1))]
  by_cases last : redis.count refc ≤ 1
  · have set' : ∀ n, Function.update redis refc (some (.int (redis.count refc + -1))) online ≠
        some (.int n) := fun n => by simpa [apart] using set n
    rw [if_pos last, if_pos (by omega), script_bind_ok (srem_eq set' user),
      members_update, if_neg apart]
    change Function.update (Function.update (Function.update redis refc _) online _) refc none = _
    rw [Function.update_comm apart, Function.update_idem, Function.update_comm apart.symm]
  · rw [if_neg last, if_neg (by omega)]
    rfl

end Scripts

/-! ### The limiter refines reference-counted membership -/

theorem acquire_unreached (limiter : TenantLimiter) (identity : Identity) (redis : Redis) :
    limiter.acquire identity false redis = (true, redis) := rfl

theorem release_unreached (identity : Identity) (redis : Redis) :
    TenantLimiter.release identity false redis = redis := rfl

/-- Writing an integer where there was no set changes one counter. -/
theorem view_update_int {redis : Redis} {key : String}
    (int : ∀ members, redis key ≠ some (.set members)) (n : Int) :
    view (Function.update redis key (some (.int n))) =
      { redis.view with count := Function.update redis.count key n } := by
  have none := members_of_int int
  simp only [view, RefCount.mk.injEq]
  constructor
  · funext key'
    simp [Function.update_apply]
  · funext key'
    by_cases same : key' = key
    · simp [same, none]
    · simp [same]

/-- Removing a key that held no set resets one counter. -/
theorem view_update_none_int {redis : Redis} {key : String}
    (int : ∀ members, redis key ≠ some (.set members)) :
    view (Function.update redis key none) =
      { redis.view with count := Function.update redis.count key 0 } := by
  have none := members_of_int int
  simp only [view, RefCount.mk.injEq]
  constructor
  · funext key'
    simp [Function.update_apply]
  · funext key'
    by_cases same : key' = key
    · simp [same, none]
    · simp [same]

/-- Writing a set, or nothing for the empty one, where there was no integer changes
one set. -/
theorem view_update_set {redis : Redis} {key : String} (set : ∀ n, redis key ≠ some (.int n))
    {value : Option RedisValue} {members : Finset String}
    (holds : value = some (.set members) ∨ value = none ∧ members = ∅) :
    view (Function.update redis key value) =
      { redis.view with members := Function.update redis.members key members } := by
  have zero := count_of_set set
  simp only [view, RefCount.mk.injEq]
  rcases holds with rfl | ⟨rfl, rfl⟩
  all_goals
    constructor
    · funext key'
      by_cases same : key' = key
      · simp [same, zero]
      · simp [same]
    · funext key'
      simp [Function.update_apply]

/-- The limiter writes integers at its counters only. -/
theorem Typed.update_connCount {redis : Redis} (typed : Typed redis) (t u : String)
    {value : Option RedisValue} (int : ∀ members, value ≠ some (.set members)) :
    Typed (Function.update redis (connCountKey t u) value) where
  online := fun t' n => by
    rw [Function.update_of_ne (onlineKey_ne_connCountKey t' t u)]
    exact typed.online t' n
  connCount := fun t' u' members => by
    by_cases same : connCountKey t' u' = connCountKey t u
    · rw [same, Function.update_self]
      exact int members
    · rw [Function.update_of_ne same]
      exact typed.connCount t' u' members

/-- The limiter writes sets at its online keys only. -/
theorem Typed.update_online {redis : Redis} (typed : Typed redis) (t : String)
    {value : Option RedisValue} (set : ∀ n, value ≠ some (.int n)) :
    Typed (Function.update redis (onlineKey t) value) where
  online := fun t' n => by
    by_cases same : onlineKey t' = onlineKey t
    · rw [same, Function.update_self]
      exact set n
    · rw [Function.update_of_ne same]
      exact typed.online t' n
  connCount := fun t' u' members => by
    rw [Function.update_of_ne (onlineKey_ne_connCountKey t t' u').symm]
    exact typed.connCount t' u' members

section Refinement

/-- What `acquire` does to the counters and sets. -/
def viewAcquire (limiter : TenantLimiter) (identity : Identity)
    (view : RefCount String String String) : Bool × RefCount String String String :=
  view.acquire limiter.maxUsers identity.connCount identity.online identity.userId

/-- What `release` does to the counters and sets. -/
def viewRelease (identity : Identity) (view : RefCount String String String) :
    RefCount String String String :=
  view.release identity.connCount identity.online identity.userId

theorem viewAcquire_refused {limiter : TenantLimiter} {identity : Identity}
    {view : RefCount String String String} (refused : (viewAcquire limiter identity view).1 = false) :
    (viewAcquire limiter identity view).2 = view :=
  RefCount.acquire_refused _ _ _ _ _ refused

theorem Identity.online_ne_connCount (identity : Identity) :
    identity.online ≠ identity.connCount :=
  onlineKey_ne_connCountKey identity.tenantId identity.tenantId identity.userId

variable {redis : Redis} (typed : Typed redis) (identity : Identity)

include typed

theorem Typed.online_ne_int (n : Int) : redis identity.online ≠ some (.int n) :=
  typed.online identity.tenantId n

theorem Typed.connCount_ne_set (members : Finset String) :
    redis identity.connCount ≠ some (.set members) :=
  typed.connCount identity.tenantId identity.userId members

theorem Typed.update_counter (n : Int) :
    Typed (Function.update redis identity.connCount (some (.int n))) :=
  typed.update_connCount identity.tenantId identity.userId (by simp)

/-- The outcome of a call of `acquire` that reaches Redis. -/
theorem acquire_eq (limiter : TenantLimiter) :
    limiter.acquire identity true redis =
      if redis.count identity.connCount = 0 then
        if limiter.maxUsers ≤ (redis.members identity.online).card then
          (false, Function.update redis identity.connCount (some (.int 0)))
        else (true, Function.update
          (Function.update redis identity.connCount (some (.int 1))) identity.online
          (some (.set (insert identity.userId (redis.members identity.online)))))
      else (true, Function.update redis identity.connCount
        (some (.int (redis.count identity.connCount + 1)))) := by
  have script := acquireScript_eq (typed.online_ne_int identity) (typed.connCount_ne_set identity)
    identity.online_ne_connCount identity.userId limiter.maxUsers
  simp only [TenantLimiter.acquire, TenantLimiter.keys, if_true, script]
  split
  · split <;> rfl
  · rfl

/-- A call of `acquire` that reaches Redis takes a reference on the user's counter, in
the tenant's online set, and answers whether it was granted. -/
theorem acquire_view (limiter : TenantLimiter) :
    (limiter.acquire identity true redis).1 = (viewAcquire limiter identity redis.view).1 ∧
      (limiter.acquire identity true redis).2.view = (viewAcquire limiter identity redis.view).2 := by
  have int := typed.connCount_ne_set identity
  rw [acquire_eq typed]
  unfold viewAcquire RefCount.acquire
  by_cases fresh : redis.count identity.connCount = 0
  · by_cases full : limiter.maxUsers ≤ (redis.members identity.online).card
    · simp only [view, fresh, full, if_true, true_and]
      change view _ = view redis
      rw [view_update_int int, ← fresh, Function.update_eq_self]
      rfl
    · have counted := (typed.update_counter identity 1).online_ne_int identity
      simp only [view, fresh, full, if_true, if_false, true_and]
      change view _ = _
      have same : members (Function.update redis identity.connCount (some (.int 1))) =
          redis.members := congrArg RefCount.members (view_update_int int 1)
      rw [view_update_set counted (.inl rfl), view_update_int int, same]
  · simp only [view, fresh, if_false, true_and]
    exact view_update_int int _

theorem acquire_typed (limiter : TenantLimiter) :
    Typed (limiter.acquire identity true redis).2 := by
  rw [acquire_eq typed]
  split
  · split
    · exact typed.update_counter identity 0
    · exact (typed.update_counter identity 1).update_online identity.tenantId (by simp)
  · exact typed.update_counter identity _

/-- The outcome of a call of `release` that reaches Redis. -/
theorem release_eq : TenantLimiter.release identity true redis =
    if redis.count identity.connCount ≤ 1 then
      Function.update (Function.update redis identity.online
        (if (redis.members identity.online).erase identity.userId = ∅ then none
          else some (.set ((redis.members identity.online).erase identity.userId))))
        identity.connCount none
    else Function.update redis identity.connCount
      (some (.int (redis.count identity.connCount - 1))) :=
  releaseScript_eq (typed.online_ne_int identity) (typed.connCount_ne_set identity)
    identity.online_ne_connCount identity.userId

/-- A call of `release` that reaches Redis gives a reference back. -/
theorem release_view : (TenantLimiter.release identity true redis).view =
    viewRelease identity redis.view := by
  have int := typed.connCount_ne_set identity
  rw [release_eq typed]
  unfold viewRelease RefCount.release
  by_cases last : redis.count identity.connCount ≤ 1
  · rw [if_pos last]
    simp only [view, last, if_true]
    change view _ = _
    have int' : ∀ value members, Function.update redis identity.online value identity.connCount ≠
        some (.set members) := fun value members => by
      rw [Function.update_of_ne identity.online_ne_connCount.symm]
      exact int members
    have erased : view (Function.update redis identity.online
        (if (redis.members identity.online).erase identity.userId = ∅ then none
          else some (.set ((redis.members identity.online).erase identity.userId)))) =
        { redis.view with
          members := Function.update redis.members identity.online
            ((redis.members identity.online).erase identity.userId) } := by
      refine view_update_set (typed.online_ne_int identity) ?_
      split
      · rename_i gone
        exact .inr ⟨rfl, gone⟩
      · exact .inl rfl
    have counts := congrArg RefCount.count erased
    have sets := congrArg RefCount.members erased
    rw [view_update_none_int (int' _), RefCount.mk.injEq]
    exact ⟨congrArg (Function.update · identity.connCount 0) counts, sets⟩
  · rw [if_neg last]
    simp only [view, last, if_false]
    exact view_update_int int _

theorem release_typed : Typed (TenantLimiter.release identity true redis) := by
  rw [release_eq typed]
  split
  · refine Typed.update_connCount (typed.update_online identity.tenantId ?_) _ _ (by simp)
    intro n
    split <;> simp
  · exact typed.update_counter identity _

end Refinement

/-! ### Connections and the key space -/

/-- The number of references of an identity, a missing counter read as 0. -/
def conncount (redis : Redis) (identity : Identity) : Int := redis.count identity.connCount

/-- The online users of a tenant. -/
def onlineUsers (redis : Redis) (tenantId : String) : Finset String :=
  redis.members (onlineKey tenantId)

/-- An identity whose counter is in use is online. -/
def Known (redis : Redis) (identity : Identity) : Prop :=
  conncount redis identity ≠ 0 → identity.userId ∈ onlineUsers redis identity.tenantId

instance (redis : Redis) (identity : Identity) : Decidable (Known redis identity) :=
  inferInstanceAs (Decidable (_ → _))

/-- The distinct users of a tenant that hold a connection. -/
def usersHolding (held : Multiset Identity) (tenantId : String) : Finset String :=
  ((held.filter (·.tenantId = tenantId)).map Identity.userId).toFinset

/-- The connections held after an answer of `acquire`. -/
def heldAfter (admitted : Bool) (identity : Identity) (held : Multiset Identity) :
    Multiset Identity :=
  if admitted then identity ::ₘ held else held

theorem mem_usersHolding {held : Multiset Identity} {tenantId userId : String} :
    userId ∈ usersHolding held tenantId ↔ (⟨tenantId, userId⟩ : Identity) ∈ held := by
  unfold usersHolding
  rw [Multiset.mem_toFinset, Multiset.mem_map]
  constructor
  · rintro ⟨identity, mem, rfl⟩
    obtain ⟨held, rfl⟩ := Multiset.mem_filter.mp mem
    exact held
  · intro mem
    exact ⟨_, Multiset.mem_filter.mpr ⟨mem, rfl⟩, rfl⟩

theorem Identity.eq_of_online (a b : Identity) (online : a.online = b.online)
    (user : a.userId = b.userId) : a = b := by
  cases a
  cases b
  have tenant := onlineKey_injective online
  simp_all

/-- The key space counts the connections `held` and nothing else. -/
structure Held (limiter : TenantLimiter) (held : Multiset Identity) (redis : Redis) : Prop where
  typed : Typed redis
  holds : RefCount.Holds Identity.connCount Identity.online Identity.userId held redis.view
  bounded : RefCount.Bounded limiter.maxUsers redis.view

/-- The key space counts the connections `held`, and may count more. -/
structure Covered (limiter : TenantLimiter) (held : Multiset Identity) (redis : Redis) : Prop where
  typed : Typed redis
  covers : RefCount.Covers Identity.connCount Identity.online Identity.userId held redis.view
  bounded : RefCount.Bounded limiter.maxUsers redis.view

section Held

variable {limiter : TenantLimiter} {held : Multiset Identity} {redis : Redis}
  {identity : Identity}

theorem held_empty : Held limiter 0 Redis.empty where
  typed := typed_empty
  holds := RefCount.holds_empty
  bounded := RefCount.bounded_empty _

theorem Held.conncount (state : Held limiter held redis) (identity : Identity) :
    conncount redis identity = RefCount.refs Identity.connCount held identity.connCount :=
  state.holds.count identity.connCount

/-- The online users of a tenant are those that hold a connection. -/
theorem Held.onlineUsers (state : Held limiter held redis) (tenantId : String) :
    onlineUsers redis tenantId = usersHolding held tenantId := by
  ext userId
  rw [mem_usersHolding]
  refine (state.holds.member_iff (onlineKey tenantId) userId).trans ?_
  constructor
  · rintro ⟨identity, mem, sameTenant, rfl⟩
    obtain rfl := onlineKey_injective sameTenant
    exact mem
  · intro mem
    exact ⟨_, mem, rfl, rfl⟩

theorem Held.card_le (state : Held limiter held redis) (tenantId : String) :
    (YappaCore.onlineUsers redis tenantId).card ≤ limiter.maxUsers := state.bounded _

/-- An identity is known when no other one holds a connection on its counter. -/
theorem Held.known_iff (state : Held limiter held redis) : Known redis identity ↔
    ∀ other ∈ held, other.connCount = identity.connCount → other = identity :=
  state.holds.known_iff Identity.eq_of_online

/-- `acquire` grants a user that holds a connection, and one that does not while there
is room. -/
theorem Held.acquire_iff (state : Held limiter held redis)
    (free : ∀ other ∈ held, other.connCount = identity.connCount → other = identity) :
    (limiter.acquire identity true redis).1 = true ↔
      identity ∈ held ∨ (usersHolding held identity.tenantId).card < limiter.maxUsers := by
  rw [(acquire_view state.typed identity limiter).1, ← state.onlineUsers]
  exact state.holds.acquire_iff free

theorem Held.acquire (state : Held limiter held redis)
    (free : ∀ other ∈ held, other.connCount = identity.connCount → other = identity) :
    Held limiter (heldAfter (limiter.acquire identity true redis).1 identity held)
      (limiter.acquire identity true redis).2 := by
  obtain ⟨answer, after⟩ := acquire_view state.typed identity limiter
  refine ⟨acquire_typed state.typed identity limiter, ?_, ?_⟩
  · rw [after, answer]
    unfold heldAfter
    cases admitted : (viewAcquire limiter identity redis.view).1 with
    | false =>
        rw [viewAcquire_refused admitted]
        exact state.holds
    | true => exact state.holds.acquire free admitted
  · rw [after]
    exact state.bounded.acquire _ _ _

theorem Held.release (state : Held limiter (identity ::ₘ held) redis) :
    Held limiter held (TenantLimiter.release identity true redis) := by
  have after := release_view state.typed identity
  refine ⟨release_typed state.typed identity, ?_, ?_⟩
  · rw [after]
    exact state.holds.release Identity.eq_of_online
  · rw [after]
    exact state.bounded.release _ _ _

theorem covered_empty : Covered limiter 0 Redis.empty where
  typed := typed_empty
  covers := RefCount.covers_empty
  bounded := RefCount.bounded_empty _

theorem Covered.mono (state : Covered limiter held redis) {held' : Multiset Identity}
    (le : held' ≤ held) : Covered limiter held' redis :=
  ⟨state.typed, state.covers.mono le, state.bounded⟩

/-- The connections of an identity are counted. -/
theorem Covered.le_conncount (state : Covered limiter held redis) (identity : Identity) :
    (held.count identity : Int) ≤ conncount redis identity := by
  have counted : held.count identity ≤ RefCount.refs Identity.connCount held identity.connCount := by
    unfold RefCount.refs Multiset.count
    rw [Multiset.countP_eq_card_filter, Multiset.countP_eq_card_filter]
    refine Multiset.card_le_card (Multiset.monotone_filter_right held fun other same => ?_)
    rw [same]
  exact (Int.ofNat_le.mpr counted).trans (state.covers.count identity.connCount)

theorem Covered.online (state : Covered limiter held redis) (mem : identity ∈ held) :
    identity.userId ∈ YappaCore.onlineUsers redis identity.tenantId :=
  state.covers.member identity mem

/-- No tenant has more than `maxUsers` distinct users with a connection. -/
theorem Covered.card_le (state : Covered limiter held redis) (tenantId : String) :
    (usersHolding held tenantId).card ≤ limiter.maxUsers := by
  have bounded : (YappaCore.onlineUsers redis tenantId).card ≤ limiter.maxUsers :=
    state.bounded (onlineKey tenantId)
  have online : usersHolding held tenantId ⊆ YappaCore.onlineUsers redis tenantId := by
    intro userId mem
    have holds : (⟨tenantId, userId⟩ : Identity) ∈ held := mem_usersHolding.mp mem
    have online := state.online holds
    exact online
  exact (Finset.card_le_card online).trans bounded

theorem Covered.acquire (state : Covered limiter held redis) (known : Known redis identity) :
    Covered limiter (heldAfter (limiter.acquire identity true redis).1 identity held)
      (limiter.acquire identity true redis).2 := by
  obtain ⟨answer, after⟩ := acquire_view state.typed identity limiter
  refine ⟨acquire_typed state.typed identity limiter, ?_, ?_⟩
  · rw [after, answer]
    unfold heldAfter
    cases admitted : (viewAcquire limiter identity redis.view).1 with
    | false =>
        rw [viewAcquire_refused admitted]
        exact state.covers
    | true => exact state.covers.acquire known admitted
  · rw [after]
    exact state.bounded.acquire _ _ _

theorem Covered.release (state : Covered limiter (identity ::ₘ held) redis) :
    Covered limiter held (TenantLimiter.release identity true redis) := by
  have after := release_view state.typed identity
  refine ⟨release_typed state.typed identity, ?_, ?_⟩
  · rw [after]
    exact state.covers.release Identity.eq_of_online
  · rw [after]
    exact state.bounded.release _ _ _

/-- A release for a connection that is not counted leaves the others counted, on a counter
that has none of them or one reference to spare. -/
theorem Covered.release_spare (state : Covered limiter held redis)
    (spare : RefCount.refs Identity.connCount held identity.connCount = 0 ∨
      (RefCount.refs Identity.connCount held identity.connCount : Int) <
        YappaCore.conncount redis identity) :
    Covered limiter held (TenantLimiter.release identity true redis) := by
  have after := release_view state.typed identity
  refine ⟨release_typed state.typed identity, ?_, ?_⟩
  · rw [after]
    exact state.covers.release_spare Identity.eq_of_online spare
  · rw [after]
    exact state.bounded.release _ _ _

end Held

end YappaCore
