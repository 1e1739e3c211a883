import Mathlib.Data.Finset.Card
import Mathlib.Data.Multiset.Filter

/-!
Reference-counted membership with a capacity: a counter for each slot, a set of
members for each group, and two operations that keep a user in its group for as
long as its counter is positive. A group never takes more than `max` members.

Two invariants tie a state to the multiset of references that are out. The slots of
distinct users may coincide.

* `Holds`: every count is the number of references out on its slot and the members
  are the users of the references; kept as long as no reference is taken on a slot
  that another user has one on.
* `Covers`: no count is below that number, and users of references are members; kept
  also when a release gives back a reference that was never taken, on a slot with
  one to spare.

`Agree` compares two states on some slots and groups; operations elsewhere do not
change it.
-/

namespace Lib

/-- Counters by slot and members by group. -/
structure RefCount (κ ω U : Type*) where
  count : κ → Int
  members : ω → Finset U

namespace RefCount

variable {κ ω U : Type*}

def empty : RefCount κ ω U := ⟨fun _ => 0, fun _ => ∅⟩

/-! ### References that are out -/

section References

/-- No group exceeds its capacity. -/
def Bounded (max : Nat) (r : RefCount κ ω U) : Prop := ∀ g, (r.members g).card ≤ max

theorem bounded_empty (max : Nat) : Bounded max (empty : RefCount κ ω U) := by
  intro g
  simp [empty]

variable {α : Type*} (slot : α → κ) (group : α → ω) (user : α → U)

/-- Whoever finds its counter in use is the user it is counted for. -/
def Known (r : RefCount κ ω U) (a : α) : Prop :=
  r.count (slot a) ≠ 0 → user a ∈ r.members (group a)

variable [DecidableEq κ]

/-- The number of references out on a slot. -/
def refs (held : Multiset α) (k : κ) : Nat := held.countP (slot · = k)

/-- Counts and members are those of the references that are out, and no two users
have references out on one slot. -/
structure Holds (held : Multiset α) (r : RefCount κ ω U) : Prop where
  count : ∀ k, r.count k = refs slot held k
  member_iff : ∀ g u, u ∈ r.members g ↔ ∃ a ∈ held, group a = g ∧ user a = u
  alone : ∀ a ∈ held, ∀ b ∈ held, slot a = slot b → a = b

/-- Counts are at least the references that are out, and their users are members. -/
structure Covers (held : Multiset α) (r : RefCount κ ω U) : Prop where
  count : ∀ k, (refs slot held k : Int) ≤ r.count k
  member : ∀ a ∈ held, user a ∈ r.members (group a)

variable {slot group user}

theorem refs_cons (a : α) (held : Multiset α) (k : κ) :
    refs slot (a ::ₘ held) k = refs slot held k + if slot a = k then 1 else 0 :=
  Multiset.countP_cons _ a held

theorem refs_pos {held : Multiset α} {k : κ} : 0 < refs slot held k ↔ ∃ a ∈ held, slot a = k :=
  Multiset.countP_pos

theorem refs_mono {held held' : Multiset α} (le : held ≤ held') (k : κ) :
    refs slot held k ≤ refs slot held' k := Multiset.countP_le_of_le _ le

theorem holds_empty : Holds slot group user 0 (empty : RefCount κ ω U) where
  count := fun _ => rfl
  member_iff := by simp [empty]
  alone := by simp

theorem covers_empty : Covers slot group user 0 (empty : RefCount κ ω U) where
  count := fun _ => le_refl _
  member := by simp

theorem Covers.mono {held held' : Multiset α} {r : RefCount κ ω U} (le : held' ≤ held)
    (covers : Covers slot group user held r) : Covers slot group user held' r where
  count := fun k => (Int.ofNat_le.mpr (refs_mono le k)).trans (covers.count k)
  member := fun a mem => covers.member a (Multiset.mem_of_le le mem)

/-- When counts are exact, a user may take a slot that no other has a reference on. -/
theorem Holds.known_iff {held : Multiset α} {r : RefCount κ ω U} {a : α}
    (holds : Holds slot group user held r)
    (named : ∀ a b, group a = group b → user a = user b → a = b) :
    Known slot group user r a ↔ ∀ b ∈ held, slot b = slot a → b = a := by
  constructor
  · intro known b mem same
    have used : 0 < refs slot held (slot a) := refs_pos.mpr ⟨b, mem, same⟩
    have counted := holds.count (slot a)
    obtain ⟨c, memC, sameGroup, sameUser⟩ := (holds.member_iff _ _).mp (known (by omega))
    obtain rfl := named c a sameGroup sameUser
    exact holds.alone b mem c memC same
  · intro free used
    have counted := holds.count (slot a)
    obtain ⟨b, mem, same⟩ := refs_pos.mp (show 0 < refs slot held (slot a) by omega)
    obtain rfl := free b mem same
    exact (holds.member_iff _ _).mpr ⟨b, mem, rfl, rfl⟩

end References

/-! ### The operations -/

variable [DecidableEq κ] [DecidableEq ω] [DecidableEq U]

/-- Take a reference on slot `k` for user `u` of group `g`. The first reference
makes `u` a member, and is refused when the group is full. -/
def acquire (max : Nat) (r : RefCount κ ω U) (k : κ) (g : ω) (u : U) : Bool × RefCount κ ω U :=
  if r.count k = 0 then
    if max ≤ (r.members g).card then (false, r)
    else (true, { count := Function.update r.count k 1
                  members := Function.update r.members g (insert u (r.members g)) })
  else (true, { r with count := Function.update r.count k (r.count k + 1) })

/-- Give a reference back; the last one ends the membership. -/
def release (r : RefCount κ ω U) (k : κ) (g : ω) (u : U) : RefCount κ ω U :=
  if r.count k ≤ 1 then
    { count := Function.update r.count k 0
      members := Function.update r.members g ((r.members g).erase u) }
  else { r with count := Function.update r.count k (r.count k - 1) }

section Rules

variable (max : Nat) (r : RefCount κ ω U) (k : κ) (g : ω) (u : U)

/-- A reference is granted on a slot in use, and on a new one while the group has room. -/
theorem acquire_admits : (r.acquire max k g u).1 = true ↔
    r.count k ≠ 0 ∨ (r.members g).card < max := by
  unfold acquire
  by_cases fresh : r.count k = 0
  · by_cases full : max ≤ (r.members g).card
    · simp [fresh, full]
    · simp [fresh, full, not_le.mp full]
  · simp [fresh]

theorem acquire_refused (refused : (r.acquire max k g u).1 = false) :
    (r.acquire max k g u).2 = r := by
  unfold acquire at refused ⊢
  split at refused
  · rename_i fresh
    split at refused
    · rename_i full
      rw [if_pos fresh, if_pos full]
    · simp at refused
  · simp at refused

theorem acquire_count (admitted : (r.acquire max k g u).1 = true) (k' : κ) :
    (r.acquire max k g u).2.count k' = if k' = k then r.count k + 1 else r.count k' := by
  unfold acquire at admitted ⊢
  split at admitted
  · rename_i fresh
    split at admitted
    · simp at admitted
    · rename_i room
      rw [if_pos fresh, if_neg room, fresh]
      simp [Function.update_apply]
  · rename_i used
    rw [if_neg used]
    simp [Function.update_apply]

theorem acquire_members (admitted : (r.acquire max k g u).1 = true) (g' : ω) :
    (r.acquire max k g u).2.members g' =
      if g' = g ∧ r.count k = 0 then insert u (r.members g') else r.members g' := by
  unfold acquire at admitted ⊢
  split at admitted
  · rename_i fresh
    split at admitted
    · simp at admitted
    · rename_i room
      rw [if_pos fresh, if_neg room]
      by_cases here : g' = g
      · subst here
        simp [fresh]
      · simp [here]
  · rename_i used
    rw [if_neg used, if_neg fun both => used both.2]

theorem release_count (k' : κ) : (r.release k g u).count k' =
    if k' = k then (if r.count k ≤ 1 then 0 else r.count k - 1) else r.count k' := by
  unfold release
  by_cases last : r.count k ≤ 1 <;> simp [last, Function.update_apply]

theorem release_members (g' : ω) : (r.release k g u).members g' =
    if g' = g ∧ r.count k ≤ 1 then (r.members g').erase u else r.members g' := by
  unfold release
  by_cases last : r.count k ≤ 1
  · by_cases here : g' = g
    · subst here
      simp [last]
    · simp [last, here]
  · simp [last]

end Rules

/-! ### Capacity -/

theorem Bounded.acquire {max : Nat} {r : RefCount κ ω U} (bounded : Bounded max r) (k : κ) (g : ω)
    (u : U) : Bounded max (r.acquire max k g u).2 := by
  intro g'
  cases admitted : (r.acquire max k g u).1 with
  | false =>
      rw [acquire_refused max r k g u admitted]
      exact bounded g'
  | true =>
      rw [acquire_members max r k g u admitted]
      split
      · rename_i new
        rcases (acquire_admits max r k g u).mp admitted with used | room
        · exact absurd new.2 used
        · rw [new.1]
          exact (Finset.card_insert_le _ _).trans room
      · exact bounded g'

theorem Bounded.release {max : Nat} {r : RefCount κ ω U} (bounded : Bounded max r) (k : κ) (g : ω)
    (u : U) : Bounded max (r.release k g u) := by
  intro g'
  rw [release_members]
  split
  · exact Finset.card_erase_le.trans (bounded g')
  · exact bounded g'

/-! ### The operations keep the invariants -/

section Preservation

variable {α : Type*} {slot : α → κ} {group : α → ω} {user : α → U} {held : Multiset α}
  {max : Nat} {r : RefCount κ ω U} {a : α}

/-- A user with a reference out is granted another, and one without while there is room. -/
theorem Holds.acquire_iff (holds : Holds slot group user held r)
    (free : ∀ b ∈ held, slot b = slot a → b = a) :
    (r.acquire max (slot a) (group a) (user a)).1 = true ↔
      a ∈ held ∨ (r.members (group a)).card < max := by
  have counted := holds.count (slot a)
  have used : r.count (slot a) ≠ 0 ↔ a ∈ held := by
    constructor
    · intro used
      obtain ⟨b, mem, same⟩ := refs_pos.mp (show 0 < refs slot held (slot a) by omega)
      exact free b mem same ▸ mem
    · intro mem
      have positive : 0 < refs slot held (slot a) := refs_pos.mpr ⟨a, mem, rfl⟩
      omega
  rw [acquire_admits, used]

/-- A granted reference is one more that is out. -/
theorem Holds.acquire (holds : Holds slot group user held r)
    (free : ∀ b ∈ held, slot b = slot a → b = a)
    (admitted : (r.acquire max (slot a) (group a) (user a)).1 = true) :
    Holds slot group user (a ::ₘ held) (r.acquire max (slot a) (group a) (user a)).2 := by
  have counted := holds.count (slot a)
  refine ⟨fun k => ?_, fun g u => ?_, ?_⟩
  · have before := holds.count k
    rw [acquire_count max r _ _ _ admitted, refs_cons]
    by_cases here : k = slot a
    · rw [if_pos here, if_pos here.symm, counted, here]
      rfl
    · rw [if_neg here, if_neg (Ne.symm here), before]
      rfl
  · have before := holds.member_iff g u
    rw [acquire_members max r _ _ _ admitted]
    have old : (∃ b ∈ held, group b = g ∧ user b = u) →
        ∃ b ∈ a ::ₘ held, group b = g ∧ user b = u := by
      rintro ⟨b, mem, named⟩
      exact ⟨b, Multiset.mem_cons_of_mem mem, named⟩
    by_cases new : g = group a ∧ r.count (slot a) = 0
    · obtain ⟨rfl, fresh⟩ := new
      rw [if_pos ⟨rfl, fresh⟩, Finset.mem_insert, before]
      constructor
      · rintro (rfl | member)
        · exact ⟨a, Multiset.mem_cons_self a held, rfl, rfl⟩
        · exact old member
      · rintro ⟨b, mem, sameGroup, sameUser⟩
        rcases Multiset.mem_cons.mp mem with rfl | mem
        · exact .inl sameUser.symm
        · exact .inr ⟨b, mem, sameGroup, sameUser⟩
    · rw [if_neg new, before]
      refine ⟨old, ?_⟩
      rintro ⟨b, mem, sameGroup, sameUser⟩
      rcases Multiset.mem_cons.mp mem with rfl | mem
      · -- the slot is in use, and only by the user itself
        have used : r.count (slot b) ≠ 0 := fun fresh => new ⟨sameGroup.symm, fresh⟩
        obtain ⟨c, memC, same⟩ := refs_pos.mp (show 0 < refs slot held (slot b) by omega)
        obtain rfl := free c memC same
        exact ⟨c, memC, sameGroup, sameUser⟩
      · exact ⟨b, mem, sameGroup, sameUser⟩
  · intro b memB c memC same
    rcases Multiset.mem_cons.mp memB with new | old
    · rcases Multiset.mem_cons.mp memC with new' | old'
      · rw [new, new']
      · rw [new] at same ⊢
        exact (free c old' same.symm).symm
    · rcases Multiset.mem_cons.mp memC with new' | old'
      · rw [new'] at same ⊢
        exact free b old same
      · exact holds.alone b old c old' same

/-- A reference given back is one less. -/
theorem Holds.release (holds : Holds slot group user (a ::ₘ held) r)
    (named : ∀ a b, group a = group b → user a = user b → a = b) :
    Holds slot group user held (r.release (slot a) (group a) (user a)) := by
  have here := holds.count (slot a)
  rw [refs_cons, if_pos rfl] at here
  refine ⟨fun k => ?_, fun g u => ?_, ?_⟩
  · have before := holds.count k
    rw [refs_cons] at before
    rw [release_count]
    by_cases same : k = slot a
    · subst same
      rw [if_pos rfl]
      split <;> omega
    · rw [if_neg same, before, if_neg (Ne.symm same), Nat.add_zero]
  · have before := holds.member_iff g u
    rw [release_members]
    by_cases last : g = group a ∧ r.count (slot a) ≤ 1
    · obtain ⟨rfl, last⟩ := last
      rw [if_pos ⟨rfl, last⟩, Finset.mem_erase, before]
      have gone : refs slot held (slot a) = 0 := by omega
      constructor
      · rintro ⟨other, b, mem, sameGroup, sameUser⟩
        rcases Multiset.mem_cons.mp mem with rfl | mem
        · exact absurd sameUser.symm other
        · exact ⟨b, mem, sameGroup, sameUser⟩
      · rintro ⟨b, mem, sameGroup, sameUser⟩
        refine ⟨fun same => ?_, b, Multiset.mem_cons_of_mem mem, sameGroup, sameUser⟩
        obtain rfl := named b a sameGroup (sameUser.trans same)
        have positive : 0 < refs slot held (slot b) := refs_pos.mpr ⟨b, mem, rfl⟩
        omega
    · rw [if_neg last, before]
      constructor
      · rintro ⟨b, mem, sameGroup, sameUser⟩
        rcases Multiset.mem_cons.mp mem with rfl | mem
        · -- more references are out on the slot, all of them of this user
          have more : ¬ r.count (slot b) ≤ 1 := fun le => last ⟨sameGroup.symm, le⟩
          obtain ⟨c, memC, same⟩ := refs_pos.mp (show 0 < refs slot held (slot b) by omega)
          obtain rfl := holds.alone c (Multiset.mem_cons_of_mem memC) b
            (Multiset.mem_cons_self b held) same
          exact ⟨c, memC, sameGroup, sameUser⟩
        · exact ⟨b, mem, sameGroup, sameUser⟩
      · rintro ⟨b, mem, sameGroup, sameUser⟩
        exact ⟨b, Multiset.mem_cons_of_mem mem, sameGroup, sameUser⟩
  · intro b memB c memC same
    exact holds.alone b (Multiset.mem_cons_of_mem memB) c (Multiset.mem_cons_of_mem memC) same

theorem Covers.acquire (covers : Covers slot group user held r)
    (known : Known slot group user r a)
    (admitted : (r.acquire max (slot a) (group a) (user a)).1 = true) :
    Covers slot group user (a ::ₘ held) (r.acquire max (slot a) (group a) (user a)).2 := by
  have members := acquire_members max r _ _ _ admitted
  refine ⟨fun k => ?_, fun b mem => ?_⟩
  · have before := covers.count k
    rw [acquire_count max r _ _ _ admitted, refs_cons]
    by_cases here : k = slot a
    · subst here
      rw [if_pos rfl, if_pos rfl]
      omega
    · rw [if_neg here, if_neg (Ne.symm here)]
      omega
  · rw [members]
    rcases Multiset.mem_cons.mp mem with rfl | mem
    · by_cases fresh : r.count (slot b) = 0
      · rw [if_pos ⟨rfl, fresh⟩]
        exact Finset.mem_insert_self _ _
      · rw [if_neg fun both => fresh both.2]
        exact known fresh
    · split
      · exact Finset.mem_insert_of_mem (covers.member b mem)
      · exact covers.member b mem

/-- Giving a reference back that is not among the covered ones is harmless on a slot that has
none or one to spare. -/
theorem Covers.release_spare (covers : Covers slot group user held r)
    (named : ∀ a b, group a = group b → user a = user b → a = b)
    (spare : refs slot held (slot a) = 0 ∨ (refs slot held (slot a) : Int) < r.count (slot a)) :
    Covers slot group user held (r.release (slot a) (group a) (user a)) := by
  refine ⟨fun k => ?_, fun b mem => ?_⟩
  · have before := covers.count k
    rw [release_count]
    by_cases here : k = slot a
    · subst here
      rw [if_pos rfl]
      split <;> omega
    · rw [if_neg here]
      exact before
  · rw [release_members]
    split
    · rename_i last
      refine Finset.mem_erase.mpr ⟨fun sameUser => ?_, covers.member b mem⟩
      obtain rfl := named b a last.1 sameUser
      have positive : 0 < refs slot held (slot b) := refs_pos.mpr ⟨b, mem, rfl⟩
      omega
    · exact covers.member b mem

theorem Covers.release (covers : Covers slot group user (a ::ₘ held) r)
    (named : ∀ a b, group a = group b → user a = user b → a = b) :
    Covers slot group user held (r.release (slot a) (group a) (user a)) := by
  have here := covers.count (slot a)
  rw [refs_cons, if_pos rfl] at here
  have rest := covers.mono (Multiset.le_cons_self held a)
  exact rest.release_spare named (.inr (by omega))

end Preservation

/-! ### The operations are local -/

/-- Two states agree on a set of slots and a set of groups. -/
structure Agree (K : Set κ) (G : Set ω) (r r' : RefCount κ ω U) : Prop where
  count : ∀ k ∈ K, r.count k = r'.count k
  members : ∀ g ∈ G, r.members g = r'.members g

section Locality

variable {K : Set κ} {G : Set ω} {r r' : RefCount κ ω U} {k : κ} {g : ω}

/-- On states that agree on its slot and group, a request gets one answer. -/
theorem Agree.acquire_fst (agree : Agree K G r r') (slot : k ∈ K) (group : g ∈ G) (max : Nat)
    (u : U) : (r.acquire max k g u).1 = (r'.acquire max k g u).1 := by
  rw [Bool.eq_iff_iff, acquire_admits, acquire_admits, agree.count k slot, agree.members g group]

theorem Agree.acquire (agree : Agree K G r r') (slot : k ∈ K) (group : g ∈ G) (max : Nat)
    (u : U) : Agree K G (r.acquire max k g u).2 (r'.acquire max k g u).2 := by
  have answer := agree.acquire_fst slot group max u
  cases admitted : (r.acquire max k g u).1 with
  | false =>
      rw [acquire_refused max r k g u admitted,
        acquire_refused max r' k g u (answer.symm.trans admitted)]
      exact agree
  | true =>
      have admitted' := answer.symm.trans admitted
      refine ⟨fun k' slot' => ?_, fun g' group' => ?_⟩
      · rw [acquire_count max r k g u admitted, acquire_count max r' k g u admitted',
          agree.count k slot, agree.count k' slot']
      · rw [acquire_members max r k g u admitted, acquire_members max r' k g u admitted',
          agree.count k slot, agree.members g' group']

theorem Agree.release (agree : Agree K G r r') (slot : k ∈ K) (u : U) :
    Agree K G (r.release k g u) (r'.release k g u) := by
  refine ⟨fun k' slot' => ?_, fun g' group' => ?_⟩
  · rw [release_count, release_count, agree.count k slot, agree.count k' slot']
  · rw [release_members, release_members, agree.count k slot, agree.members g' group']

/-- A request on another slot and another group is not seen. -/
theorem Agree.acquire_left (agree : Agree K G r r') (slot : k ∉ K) (group : g ∉ G) (max : Nat)
    (u : U) : Agree K G (r.acquire max k g u).2 r' := by
  cases admitted : (r.acquire max k g u).1 with
  | false =>
      rw [acquire_refused max r k g u admitted]
      exact agree
  | true =>
      refine ⟨fun k' slot' => ?_, fun g' group' => ?_⟩
      · have differ : k' ≠ k := fun same => slot (same ▸ slot')
        rw [acquire_count max r k g u admitted, if_neg differ]
        exact agree.count k' slot'
      · have differ : g' ≠ g := fun same => group (same ▸ group')
        rw [acquire_members max r k g u admitted, if_neg fun both => differ both.1]
        exact agree.members g' group'

theorem Agree.release_left (agree : Agree K G r r') (slot : k ∉ K) (group : g ∉ G) (u : U) :
    Agree K G (r.release k g u) r' := by
  refine ⟨fun k' slot' => ?_, fun g' group' => ?_⟩
  · have differ : k' ≠ k := fun same => slot (same ▸ slot')
    rw [release_count, if_neg differ]
    exact agree.count k' slot'
  · have differ : g' ≠ g := fun same => group (same ▸ group')
    rw [release_members, if_neg fun both => differ both.1]
    exact agree.members g' group'

end Locality

end RefCount

end Lib
