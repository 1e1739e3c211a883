import Mathlib.Data.List.Sort
import YappaCore.Db.Groups

/-!
`get_tenant_groups` of `src/server/groups.rs`: the groups of a tenant with the number of their
members, the newest first.

`listed_iff` says which names the response holds.
-/

namespace YappaCore

/-! ### The text of an id -/

/-- A digit in lower case. -/
def hexChar (digit : Nat) : Char :=
  if digit < 10 then Char.ofNat ('0'.toNat + digit) else Char.ofNat ('a'.toNat + (digit - 10))

/-- The last `k` hexadecimal digits of a number. -/
def hexDigits : Nat → Nat → List Char
  | 0, _ => []
  | k + 1, n => hexDigits k (n / 16) ++ [hexChar (n % 16)]

/-- `conversation_id::text`: the hyphenated form. -/
def uuidText (id : Uuid) : String :=
  let digits := hexDigits 32 id.toNat
  String.ofList (digits.take 8 ++ '-' :: (digits.drop 8).take 4 ++ '-' :: (digits.drop 12).take 4 ++
    '-' :: (digits.drop 16).take 4 ++ '-' :: digits.drop 20)

theorem hexChar_inj {d e : Nat} (small : d < 16) (small' : e < 16) (same : hexChar d = hexChar e) :
    d = e := by
  have all : ∀ d < 16, ∀ e < 16, hexChar d = hexChar e → d = e := by decide
  exact all d small e small' same

theorem hexDigits_inj {k n m : Nat} (small : n < 16 ^ k) (small' : m < 16 ^ k)
    (same : hexDigits k n = hexDigits k m) : n = m := by
  induction k generalizing n m with
  | zero => omega
  | succ k ih =>
      rw [pow_succ] at small small'
      obtain ⟨front, last⟩ := List.append_inj' same rfl
      have high := ih (by omega) (by omega) front
      have low := hexChar_inj (by omega) (by omega) (List.cons.inj last).1
      omega

theorem not_mem_hexDigits (k n : Nat) : '-' ∉ hexDigits k n := by
  induction k generalizing n with
  | zero => exact List.not_mem_nil
  | succ k ih =>
      have digit : ∀ d < 16, '-' ≠ hexChar d := by decide
      rw [hexDigits, List.mem_append, List.mem_singleton, not_or]
      exact ⟨ih _, digit _ (Nat.mod_lt _ (by omega))⟩

/-- The hyphens take nothing away. -/
theorem filter_uuidText (id : Uuid) :
    (uuidText id).toList.filter (· ≠ '-') = hexDigits 32 id.toNat := by
  have digits : (hexDigits 32 id.toNat).filter (· ≠ '-') = hexDigits 32 id.toNat := by
    rw [List.filter_eq_self]
    intro c mem
    rw [decide_eq_true_eq]
    rintro rfl
    exact not_mem_hexDigits _ _ mem
  unfold uuidText
  generalize hexDigits 32 id.toNat = ds at digits
  have parts : ds.take 8 ++ ((ds.drop 8).take 4 ++ ((ds.drop 12).take 4 ++
      ((ds.drop 16).take 4 ++ ds.drop 20))) = ds := by
    have next : ∀ i, (ds.drop i).take 4 ++ ds.drop (i + 4) = ds.drop i := by
      intro i
      rw [← List.drop_drop, List.take_append_drop]
    rw [next 16, next 12, next 8, List.take_append_drop]
  calc _ = (ds.take 8 ++ ((ds.drop 8).take 4 ++ ((ds.drop 12).take 4 ++
        ((ds.drop 16).take 4 ++ ds.drop 20)))).filter (· ≠ '-') := by simp
    _ = ds := by rw [parts, digits]

/-- An id is told by its text. -/
theorem uuidText_injective : Function.Injective uuidText := by
  intro id id' same
  have digits : hexDigits 32 id.toNat = hexDigits 32 id'.toNat := by
    rw [← filter_uuidText, same, filter_uuidText]
  apply BitVec.eq_of_toNat_eq
  exact hexDigits_inj (k := 32) (by have := id.isLt; omega) (by have := id'.isLt; omega) digits

/-! ### The endpoint -/

structure GroupResponse where
  conversationId : String
  name : String
  createdBy : String
  createdAt : UInt64
  memberCount : Nat
deriving DecidableEq, Repr

/-- A group with the rows of `group_members` that `LEFT JOIN` finds for it. -/
def GroupRow.response (members : List GroupMemberRow) (row : GroupRow) : GroupResponse where
  conversationId := uuidText row.conversationId
  name := row.name
  createdBy := row.createdBy
  createdAt := (Int64.ofInt row.createdAt).toUInt64
  memberCount := members.countP (·.conversationId = row.conversationId)

/-- `get_tenant_groups`: the status and the body. Groups that were created at the same time come
in the order of the table; `ok` says whether the database answers. -/
def getTenantGroups (ok : Bool) (db : Database) (tenantId : String) : Nat × List GroupResponse :=
  if ok ∧ Storable tenantId then
    let rows := db.groups.filter (·.tenantId = tenantId)
    (200, (rows.insertionSort (·.createdAt ≥ ·.createdAt)).map (·.response db.groupMembers))
  else (500, [])

/-- The response lists exactly the names of the tenant's stored groups. -/
theorem listed_iff (ok : Bool) (db : Database) (t g : String) :
    (∃ response ∈ (getTenantGroups ok db t).2, response.name = g) ↔
      (ok = true ∧ Storable t) ∧ ∃ id, db.GroupStored t g id := by
  unfold getTenantGroups
  by_cases answers : ok = true ∧ Storable t
  · rw [if_pos answers]
    simp only [List.mem_map, List.mem_insertionSort, List.mem_filter, decide_eq_true_eq,
      exists_exists_and_eq_and, answers, true_and]
    constructor
    · rintro ⟨row, ⟨mem, tenant⟩, name⟩
      exact ⟨row.conversationId, row, mem, tenant, name, rfl⟩
    · rintro ⟨id, row, mem, tenant, name, _⟩
      exact ⟨row, ⟨mem, tenant⟩, name⟩
  · rw [if_neg answers]
    simp [answers]

end YappaCore
