import Mathlib.Data.List.Sort
import Mathlib.Data.Prod.Lex

/-!
Reading a table page by page, the greatest keys first, with the last key received as the cursor
of the next page.

A `NewestFirst` is a way to arrange rows by their keys: ties come in any order. `pageThrough` is
the loop of a client, and `complete_iff` says when it receives everything: when no page ends
inside a tie.
-/

namespace Lib

/-- A way to arrange rows by their keys, the greatest first. -/
structure NewestFirst {α K : Type*} [LinearOrder K] (key : α → K) where
  arrange : List α → List α
  perm : ∀ rows, (arrange rows).Perm rows
  sorted : ∀ rows, (arrange rows).Pairwise fun a b => key b ≤ key a

namespace Paging

variable {α K : Type*}

/-- The loop of a client: request page after page, each below the key of the last row received,
until one is empty. The fuel is the number of requests it may make; `request` is told how many
were made before. -/
def pageThrough (key : α → K) (request : ℕ → Option K → List α) :
    ℕ → ℕ → Option K → Option (List (List α))
  | 0, _, _ => none
  | fuel + 1, i, cursor =>
      match (request i cursor).getLast? with
      | none => some []
      | some last =>
          (pageThrough key request fuel (i + 1) (some (key last))).map (request i cursor :: ·)

section Loop

variable {key : α → K} {request : ℕ → Option K → List α}

/-- The pages of a loop that ends, after the first. -/
theorem pageThrough_cons {fuel i : ℕ} {cursor : Option K} {pages : List (List α)} {last : α}
    (some_last : (request i cursor).getLast? = some last) :
    pageThrough key request (fuel + 1) i cursor = some pages ↔
      ∃ rest, pageThrough key request fuel (i + 1) (some (key last)) = some rest ∧
        request i cursor :: rest = pages := by
  rw [pageThrough, some_last]
  exact Option.map_eq_some_iff

/-- What is received comes from a request. -/
theorem mem_of_mem_pages {fuel i : ℕ} {cursor : Option K} {pages : List (List α)}
    (ends : pageThrough key request fuel i cursor = some pages) {row : α}
    (mem : row ∈ pages.flatten) : ∃ i cursor, row ∈ request i cursor := by
  induction fuel generalizing i cursor pages with
  | zero => simp [pageThrough] at ends
  | succ fuel ih =>
      cases found : (request i cursor).getLast? with
      | none =>
          rw [pageThrough, found] at ends
          obtain rfl := Option.some.inj ends
          simp at mem
      | some last =>
          obtain ⟨rest, later, rfl⟩ := (pageThrough_cons found).mp ends
          rcases List.mem_append.mp mem with first | others
          · exact ⟨i, cursor, first⟩
          · exact ih later others

/-- Requests and cursors seen through a map give the same pages, mapped, where the map is right on
all keys that can be received. -/
theorem pageThrough_map {β L : Type*} {key' : β → L} {request' : ℕ → Option L → List β}
    (f : α → β) (g : K → L) (valid : K → Prop)
    (keys : ∀ i cursor, ∀ row ∈ request i cursor, valid (key row) ∧ key' (f row) = g (key row))
    (requests : ∀ i cursor, (∀ c ∈ cursor, valid c) →
      request' i (cursor.map g) = (request i cursor).map f)
    (fuel i : ℕ) (cursor : Option K) (start : ∀ c ∈ cursor, valid c) :
    pageThrough key' request' fuel i (cursor.map g) =
      (pageThrough key request fuel i cursor).map (List.map (List.map f)) := by
  induction fuel generalizing i cursor with
  | zero => rfl
  | succ fuel ih =>
      rw [pageThrough, pageThrough, requests i cursor start, List.getLast?_map]
      cases found : (request i cursor).getLast? with
      | none => rfl
      | some last =>
          obtain ⟨inside, same⟩ := keys i cursor last (List.mem_of_getLast? found)
          have rest := ih (i + 1) (some (key last)) (by simpa using inside)
          rw [Option.map_some] at rest
          simp only [Option.map_some, same, rest, Option.map_map]
          rfl

end Loop

/-! ### Pages of a table -/

variable [LinearOrder K] {key : α → K}

/-- The keys of some rows, the greatest first. -/
def keys (key : α → K) (rows : List α) : List K := (rows.map key).insertionSort (· ≥ ·)

theorem map_arrange (order : NewestFirst key) (rows : List α) :
    (order.arrange rows).map key = keys key rows := by
  have sorted : ((order.arrange rows).map key).Pairwise (· ≥ ·) :=
    List.pairwise_map.mpr (order.sorted rows)
  have same : ((order.arrange rows).map key).Perm (keys key rows) :=
    ((order.perm rows).map key).trans (List.perm_insertionSort _ _).symm
  exact same.eq_of_pairwise' sorted (List.pairwise_insertionSort _ _)

theorem keys_perm {rows rows' : List α} (same : rows.Perm rows') : keys key rows = keys key rows' := by
  have perm : (keys key rows).Perm (keys key rows') :=
    (List.perm_insertionSort _ _).trans ((same.map key).trans (List.perm_insertionSort _ _).symm)
  exact perm.eq_of_pairwise' (List.pairwise_insertionSort _ _) (List.pairwise_insertionSort _ _)

theorem length_keys (rows : List α) : (keys key rows).length = rows.length := by
  simp [keys]

theorem keys_of_sorted {rows : List α} (desc : rows.Pairwise fun a b => key b ≤ key a) :
    keys key rows = rows.map key :=
  (List.pairwise_map.mpr desc).insertionSort_eq

/-- The rows below a cursor. -/
def below (key : α → K) (cursor : Option K) (rows : List α) : List α :=
  rows.filter fun row => cursor.all fun c => key row < c

@[simp] theorem below_none (rows : List α) : below key none rows = rows := by
  simp [below]

/-- A page: the first rows below the cursor, if the cursor can be used. -/
def page (orders : ℕ → NewestFirst key) (usable : K → Bool) (limit : ℕ) (rows : List α) (i : ℕ)
    (cursor : Option K) : List α :=
  if cursor.all usable then ((orders i).arrange (below key cursor rows)).take limit else []

/-- No page ends inside a tie, or at a key that cannot be used, while there are more rows: the
keys come `limit` at a time, the greatest first. -/
def Aligned (usable : K → Bool) (limit : ℕ) (keys : List K) : Prop :=
  ∀ k, 0 < k → ∀ last ∈ keys[k * limit - 1]?, ∀ next ∈ keys[k * limit]?,
    next < last ∧ usable last = true

theorem aligned_of_short {usable : K → Bool} {limit : ℕ} {keys : List K}
    (short : keys.length ≤ limit) : Aligned usable limit keys := by
  intro k positive last _ next mem
  obtain ⟨inside, _⟩ := List.getElem?_eq_some_iff.mp mem
  have := Nat.le_mul_of_pos_left limit positive
  omega

/-- The first page, and the others. -/
theorem aligned_iff {usable : K → Bool} {limit : ℕ} (positive : 0 < limit) {keys : List K}
    {last next : K} (isLast : keys[limit - 1]? = some last) (isNext : keys[limit]? = some next) :
    Aligned usable limit keys ↔
      (next < last ∧ usable last = true) ∧ Aligned usable limit (keys.drop limit) := by
  have shifted : ∀ k, 0 < k → (keys.drop limit)[k * limit - 1]? = keys[(k + 1) * limit - 1]? ∧
      (keys.drop limit)[k * limit]? = keys[(k + 1) * limit]? := by
    intro k pos
    have := Nat.le_mul_of_pos_left limit pos
    rw [List.getElem?_drop, List.getElem?_drop, Nat.succ_mul]
    exact ⟨congrArg _ (by omega), congrArg _ (by omega)⟩
  constructor
  · intro aligned
    refine ⟨aligned 1 Nat.one_pos last (by rwa [Nat.one_mul]) next (by rwa [Nat.one_mul]), ?_⟩
    intro k pos last' mem next' mem'
    rw [(shifted k pos).1] at mem
    rw [(shifted k pos).2] at mem'
    exact aligned (k + 1) (Nat.succ_pos k) last' mem next' mem'
  · rintro ⟨first, rest⟩ k pos last' mem next' mem'
    obtain rfl | ⟨j, pos', rfl⟩ : k = 1 ∨ ∃ j, 0 < j ∧ k = j + 1 := by
      cases k with
      | zero => omega
      | succ j =>
          rcases Nat.eq_zero_or_pos j with rfl | pos'
          · exact .inl rfl
          · exact .inr ⟨j, pos', rfl⟩
    · rw [Nat.one_mul] at mem mem'
      obtain rfl := Option.some.inj (isLast.symm.trans mem)
      obtain rfl := Option.some.inj (isNext.symm.trans mem')
      exact first
    · rw [← (shifted j pos').1] at mem
      rw [← (shifted j pos').2] at mem'
      exact rest j pos' last' mem next' mem'

/-! ### Complete reads -/

/-- The loop ends, and it received the rows, each as often as it is there, the greatest keys
first. -/
def Complete (key : α → K) (request : ℕ → Option K → List α) (i : ℕ) (cursor : Option K)
    (rows : List α) : Prop :=
  ∃ fuel pages, pageThrough key request fuel i cursor = some pages ∧
    pages.flatten.Perm rows ∧ pages.flatten.Pairwise fun a b => key b ≤ key a

section Pages

variable {orders : ℕ → NewestFirst key} {usable : K → Bool} {limit : ℕ} {rows : List α}

theorem arrange_eq_nil (order : NewestFirst key) {rows : List α} :
    order.arrange rows = [] ↔ rows = [] := by
  constructor
  · intro empty
    exact List.nil_perm.mp (empty ▸ order.perm rows)
  · rintro rfl
    exact List.perm_nil.mp (order.perm [])

/-- A page is below its cursor. -/
theorem lt_of_mem_below {cursor : Option K} {row : α} (mem : row ∈ below key cursor rows) :
    ∀ c ∈ cursor, key row < c := by
  rintro c rfl
  simpa [below] using (List.mem_filter.mp mem).2

theorem below_of_mem_page {i : ℕ} {c : K} {row : α}
    (mem : row ∈ page orders usable limit rows i (some c)) : key row < c := by
  unfold page at mem
  split at mem
  · have inside := ((orders i).perm _).mem_iff.mp (List.mem_of_mem_take mem)
    exact lt_of_mem_below inside c rfl
  · exact absurd mem List.not_mem_nil

/-- So are the pages that come after it. -/
theorem below_of_mem_pages {fuel i : ℕ} {c : K} {pages : List (List α)}
    (ends : pageThrough key (page orders usable limit rows) fuel i (some c) = some pages) {row : α}
    (mem : row ∈ pages.flatten) : key row < c := by
  induction fuel generalizing i c pages with
  | zero => simp [pageThrough] at ends
  | succ fuel ih =>
      cases found : (page orders usable limit rows i (some c)).getLast? with
      | none =>
          rw [pageThrough, found] at ends
          obtain rfl := Option.some.inj ends
          simp at mem
      | some last =>
          obtain ⟨rest, later, rfl⟩ := (pageThrough_cons found).mp ends
          rcases List.mem_append.mp mem with first | others
          · exact below_of_mem_page first
          · exact (ih later others).trans (below_of_mem_page (List.mem_of_getLast? found))

/-- A lower cursor cuts off more of the same rows. -/
theorem below_below {cursor : Option K} {c : K} (lower : ∀ c' ∈ cursor, c < c') :
    below key (some c) rows = (below key cursor rows).filter fun row => key row < c := by
  unfold below
  rw [List.filter_filter]
  refine List.filter_congr fun row _ => ?_
  cases cursor with
  | none => simp
  | some c' =>
      simp only [Option.all_some]
      by_cases under : key row < c
      · simp [under, under.trans (lower c' rfl)]
      · simp [under]

/-- What stands before a row has no smaller key. -/
theorem le_of_mem_take {sorted : List α} (desc : sorted.Pairwise fun a b => key b ≤ key a) {n : ℕ}
    {row a : α} (here : sorted[n]? = some row) (mem : a ∈ sorted.take (n + 1)) :
    key row ≤ key a := by
  obtain ⟨bound, rfl⟩ := List.getElem?_eq_some_iff.mp here
  obtain ⟨j, inside, rfl⟩ := List.mem_iff_getElem.mp mem
  rw [List.length_take] at inside
  rw [List.getElem_take]
  rcases Nat.lt_or_ge j n with before | not
  · exact List.pairwise_iff_getElem.mp desc j n (by omega) bound before
  · obtain rfl : j = n := by omega
    exact le_rfl

/-- What is below the last row of a page is what comes after the page, if the tie ends there. -/
theorem filter_lt_eq_drop {sorted : List α} (desc : sorted.Pairwise fun a b => key b ≤ key a)
    {last next : α} (isLast : sorted[limit - 1]? = some last) (isNext : sorted[limit]? = some next)
    (tieEnds : key next < key last) (positive : 0 < limit) :
    (sorted.filter fun row => key row < key last) = sorted.drop limit := by
  have split := List.take_append_drop limit sorted
  have desc' := desc
  rw [← split, List.pairwise_append] at desc'
  obtain ⟨first, second, _⟩ := desc'
  have front : ∀ row ∈ sorted.take limit, ¬ key row < key last := by
    intro row mem
    rw [← Nat.sub_add_cancel positive] at mem
    exact not_lt.mpr (le_of_mem_take desc isLast mem)
  have back : ∀ row ∈ sorted.drop limit, key row < key last := by
    intro row mem
    have headed : (sorted.drop limit).head? = some next := by
      rw [List.head?_drop, isNext]
    cases rest : sorted.drop limit with
    | nil => simp [rest] at headed
    | cons head tail =>
        rw [rest] at headed mem second
        obtain rfl := Option.some.inj headed
        rcases List.mem_cons.mp mem with rfl | later
        · exact tieEnds
        · exact (List.rel_of_pairwise_cons second later).trans_lt tieEnds
  calc (sorted.filter fun row => key row < key last)
      = (sorted.take limit ++ sorted.drop limit).filter fun row => key row < key last := by
        rw [split]
    _ = [] ++ sorted.drop limit := by
        rw [List.filter_append]
        congr 1
        · exact List.filter_eq_nil_iff.mpr fun row mem => by simpa using front row mem
        · exact List.filter_eq_self.mpr fun row mem => by simpa using back row mem
    _ = sorted.drop limit := List.nil_append _

/-- With a first page that is not empty, the pages are that page and those below its last row. -/
theorem complete_cons {request : ℕ → Option K → List α} {i : ℕ} {cursor : Option K} {last : α}
    (found : (request i cursor).getLast? = some last) (rows : List α) :
    Complete key request i cursor rows ↔
      ∃ fuel rest, pageThrough key request fuel (i + 1) (some (key last)) = some rest ∧
        (request i cursor ++ rest.flatten).Perm rows ∧
        (request i cursor ++ rest.flatten).Pairwise fun a b => key b ≤ key a := by
  constructor
  · rintro ⟨fuel, pages, ends, perm, desc⟩
    cases fuel with
    | zero => simp [pageThrough] at ends
    | succ fuel =>
        obtain ⟨rest, later, rfl⟩ := (pageThrough_cons found).mp ends
        exact ⟨fuel, rest, later, perm, desc⟩
  · rintro ⟨fuel, rest, later, perm, desc⟩
    exact ⟨fuel + 1, _, (pageThrough_cons found).mpr ⟨rest, later, rfl⟩, perm, desc⟩

/-- A page that ends inside a tie, or at a key that cannot be used, is followed by pages that
leave out the row after it. -/
theorem clean_of_perm {sorted : List α} (desc : sorted.Pairwise fun a b => key b ≤ key a)
    {last next : α} (isNext : sorted[limit]? = some next) {fuel i : ℕ} {rest : List (List α)}
    (later : pageThrough key (page orders usable limit rows) fuel i (some (key last)) = some rest)
    (all : (sorted.take limit ++ rest.flatten).Perm sorted) :
    key next < key last ∧ usable (key last) = true := by
  obtain ⟨bound, _⟩ := List.getElem?_eq_some_iff.mp isNext
  have full : (sorted.take limit).length = limit := by
    rw [List.length_take, Nat.min_eq_left (by omega)]
  constructor
  · -- Otherwise there are more rows that are not below the cursor than the page has.
    by_contra tie
    have received := all.countP_eq fun row => key last ≤ key row
    have none : rest.flatten.countP (fun row => key last ≤ key row) = 0 := by
      rw [List.countP_eq_zero]
      intro row mem
      simpa using below_of_mem_pages later mem
    have few := List.countP_le_length (p := fun row => decide (key last ≤ key row))
      (l := sorted.take limit)
    have many : (sorted.take (limit + 1)).countP (fun row => key last ≤ key row) = limit + 1 := by
      rw [List.countP_eq_length.mpr, List.length_take, Nat.min_eq_left (by omega)]
      intro row mem
      rw [decide_eq_true_eq]
      exact (not_lt.mp tie).trans (le_of_mem_take desc isNext mem)
    have whole := (List.take_sublist (limit + 1) sorted).countP_le
      (p := fun row => decide (key last ≤ key row))
    rw [List.countP_append, none] at received
    omega
  · -- Otherwise the loop ends here.
    by_contra unusable
    have empty : rest = [] := by
      cases fuel with
      | zero => simp [pageThrough] at later
      | succ fuel =>
          have stop : page orders usable limit rows i (some (key last)) = [] := by
            rw [page, if_neg (by simpa using unusable)]
          rw [pageThrough, stop] at later
          exact (Option.some.inj later).symm
    have counted := all.length_eq
    rw [empty, List.flatten_nil, List.append_nil, full] at counted
    omega

variable (orders usable rows)

/-- A page that is not full is the last one with rows. -/
theorem complete_of_short {i : ℕ} {cursor : Option K} (valid : cursor.all usable = true)
    (short : (below key cursor rows).length ≤ limit) :
    Complete key (page orders usable limit rows) i cursor (below key cursor rows) := by
  have whole : page orders usable limit rows i cursor = (orders i).arrange (below key cursor rows) := by
    rw [page, if_pos valid]
    apply List.take_of_length_le
    rw [((orders i).perm _).length_eq]
    exact short
  have perm := (orders i).perm (below key cursor rows)
  have desc := (orders i).sorted (below key cursor rows)
  rw [← whole] at perm desc
  cases found : (page orders usable limit rows i cursor).getLast? with
  | none =>
      rw [List.getLast?_eq_none_iff.mp found] at perm
      refine ⟨1, [], ?_, perm, List.Pairwise.nil⟩
      rw [pageThrough, found]
  | some last =>
      have least : ∀ row ∈ below key cursor rows, key last ≤ key row := by
        intro row mem
        obtain ⟨front, split⟩ := List.getLast?_eq_some_iff.mp found
        rw [split] at desc perm
        rcases List.mem_append.mp (perm.mem_iff.mpr mem) with before | same
        · exact (List.pairwise_append.mp desc).2.2 row before last (List.mem_singleton_self last)
        · rw [List.mem_singleton.mp same]
      have nothing : page orders usable limit rows (i + 1) (some (key last)) = [] := by
        have inside : last ∈ below key cursor rows :=
          perm.mem_iff.mp (List.mem_of_getLast? found)
        have lower := lt_of_mem_below inside
        have empty : below key (some (key last)) rows = [] := by
          rw [below_below lower, List.filter_eq_nil_iff]
          intro row mem
          simpa using least row mem
        rw [page, empty, (arrange_eq_nil _).mpr rfl, List.take_nil, ite_self]
      apply (complete_cons found _).mpr
      refine ⟨1, [], ?_, ?_, ?_⟩
      · rw [pageThrough, nothing]
        rfl
      · simpa using perm
      · simpa using desc

/-- The loop receives every row exactly once, the greatest keys first, if and only if no page
ends inside a tie or at a key that cannot be used while there are more rows. -/
theorem complete_iff (positive : 0 < limit) (i : ℕ) (cursor : Option K)
    (valid : cursor.all usable = true) :
    Complete key (page orders usable limit rows) i cursor (below key cursor rows) ↔
      Aligned usable limit (keys key (below key cursor rows)) := by
  induction size : (below key cursor rows).length using Nat.strong_induction_on
    generalizing i cursor with
  | _ count ih =>
  rcases Nat.lt_or_ge limit (below key cursor rows).length with long | short
  · have perm := (orders i).perm (below key cursor rows)
    have desc := (orders i).sorted (below key cursor rows)
    have times := map_arrange (orders i) (below key cursor rows)
    have paged : page orders usable limit rows i cursor =
        ((orders i).arrange (below key cursor rows)).take limit := if_pos valid
    generalize (orders i).arrange (below key cursor rows) = sorted at perm desc times paged
    have total := perm.length_eq
    obtain ⟨last, isLast⟩ : ∃ last, sorted[limit - 1]? = some last :=
      ⟨_, List.getElem?_eq_getElem (by omega)⟩
    obtain ⟨next, isNext⟩ : ∃ next, sorted[limit]? = some next :=
      ⟨_, List.getElem?_eq_getElem (by omega)⟩
    have found : (page orders usable limit rows i cursor).getLast? = some last := by
      rw [paged, List.getLast?_eq_getElem?, List.length_take, Nat.min_eq_left (by omega),
        List.getElem?_take_of_lt (by omega), isLast]
    have cut : (keys key (below key cursor rows))[limit - 1]? = some (key last) ∧
        (keys key (below key cursor rows))[limit]? = some (key next) := by
      rw [← times, List.getElem?_map, List.getElem?_map, isLast, isNext]
      exact ⟨rfl, rfl⟩
    rw [aligned_iff positive cut.1 cut.2, complete_cons found]
    by_cases clean : key next < key last ∧ usable (key last) = true
    · -- The rest is what is below the last row of the page.
      have lower := lt_of_mem_below (perm.mem_iff.mp (List.mem_of_getElem? isLast))
      have remaining : (below key (some (key last)) rows).Perm (sorted.drop limit) := by
        rw [below_below lower, ← filter_lt_eq_drop desc isLast isNext clean.1 positive]
        exact (perm.filter _).symm
      have dropped : keys key (below key (some (key last)) rows) =
          (keys key (below key cursor rows)).drop limit := by
        rw [keys_perm remaining, keys_of_sorted (desc.sublist (List.drop_sublist _ _)), ← times,
          List.map_drop]
      have smaller : (below key (some (key last)) rows).length < count := by
        rw [remaining.length_eq, List.length_drop]
        omega
      rw [← dropped, ← ih _ smaller (i + 1) (some (key last)) (by simpa using clean.2) rfl, paged]
      constructor
      · rintro ⟨fuel, rest, later, all, order⟩
        refine ⟨clean, fuel, rest, later, ?_, (List.pairwise_append.mp order).2.1⟩
        refine List.Perm.trans ?_ remaining.symm
        apply (List.perm_append_left_iff (sorted.take limit)).mp
        rw [List.take_append_drop]
        exact all.trans perm.symm
      · rintro ⟨_, fuel, rest, later, all, order⟩
        refine ⟨fuel, rest, later, ?_, List.pairwise_append.mpr ⟨?_, order, ?_⟩⟩
        · have both := ((all.trans remaining).append_left (sorted.take limit))
          rw [List.take_append_drop] at both
          exact both.trans perm
        · exact desc.sublist (List.take_sublist _ _)
        · intro a memA b memB
          have under : key b < key last := below_of_mem_pages later memB
          rw [← Nat.sub_add_cancel positive] at memA
          exact under.le.trans (le_of_mem_take desc isLast memA)
    · refine iff_of_false ?_ fun both => clean both.1
      rintro ⟨fuel, rest, later, all, _⟩
      rw [paged] at all
      exact clean (clean_of_perm desc isNext later (all.trans perm.symm))
  · refine iff_of_true (complete_of_short orders usable rows valid short) ?_
    apply aligned_of_short
    rwa [length_keys]

/-- From the start it receives the whole table on that condition. -/
theorem complete_start_iff (positive : 0 < limit) :
    Complete key (page orders usable limit rows) 0 none rows ↔
      Aligned usable limit (keys key rows) := by
  have start := complete_iff orders usable rows positive 0 none rfl
  rwa [below_none] at start

end Pages

/-! ### What a page can hold -/

section First

variable {rows : List α} {n : ℕ} {x y : α}

/-- With a row, a page holds every row of a greater key. -/
theorem mem_take_of_greater (order : NewestFirst key) (mem : y ∈ (order.arrange rows).take n)
    (there : x ∈ rows) (greater : key y < key x) : x ∈ (order.arrange rows).take n := by
  have desc := order.sorted rows
  have inside := (order.perm rows).mem_iff.mpr there
  rw [← List.take_append_drop n (order.arrange rows)] at desc inside
  rcases List.mem_append.mp inside with front | back
  · exact front
  · exact absurd greater (not_lt.mpr ((List.pairwise_append.mp desc).2.2 y mem x back))

/-- A row with few rows before it is in the first page. -/
theorem mem_take_of_few [DecidableEq α] {r : α → α → Prop} [DecidableRel r] {sorted : List α}
    (arranged : sorted.Pairwise r) (mem : y ∈ sorted)
    (few : sorted.countP (fun a => a ≠ y ∧ r a y) < n) : y ∈ sorted.take n := by
  rw [← List.take_append_drop n sorted] at arranged mem
  rcases List.mem_append.mp mem with front | back
  · exact front
  · by_contra out
    have before : ∀ a ∈ sorted.take n, a ≠ y ∧ r a y := fun a there =>
      ⟨fun same => out (same ▸ there), (List.pairwise_append.mp arranged).2.2 a there y back⟩
    have long : n ≤ sorted.length := by
      by_contra short
      rw [List.drop_of_length_le (by omega)] at back
      exact List.not_mem_nil back
    have many : (sorted.take n).countP (fun a => a ≠ y ∧ r a y) = n := by
      rw [List.countP_eq_length.mpr fun a there => decide_eq_true (before a there), List.length_take,
        Nat.min_eq_left long]
    have whole := (List.take_sublist n sorted).countP_le (p := fun a => decide (a ≠ y ∧ r a y))
    omega

variable [DecidableEq α]

/-- How many rows of greater keys than `y` there are besides `x`. -/
def others (key : α → K) (rows : List α) (x y : α) : ℕ := rows.countP fun a => key y < key a ∧ a ≠ x

/-- Two rows of a page leave room for all rows of greater keys. -/
theorem others_of_mem_take (order : NewestFirst key) (nodup : rows.Nodup) (differ : x ≠ y)
    (memX : x ∈ (order.arrange rows).take n) (memY : y ∈ (order.arrange rows).take n) :
    others key rows x y + 2 ≤ n := by
  have kept := nodup.filter fun a => key y < key a ∧ a ≠ x
  have distinct : (x :: y :: rows.filter fun a => key y < key a ∧ a ≠ x).Nodup := by
    rw [List.nodup_cons, List.nodup_cons]
    exact ⟨by simp [differ], by simp, kept⟩
  have inside : (x :: y :: rows.filter fun a => key y < key a ∧ a ≠ x) ⊆
      (order.arrange rows).take n := by
    intro a mem
    rcases List.mem_cons.mp mem with rfl | mem
    · exact memX
    · rcases List.mem_cons.mp mem with rfl | mem
      · exact memY
      · obtain ⟨there, greater⟩ := List.mem_filter.mp mem
        exact mem_take_of_greater order memY there (of_decide_eq_true greater).1
  have length := (List.subperm_of_subset distinct inside).length_le
  have bound := List.length_take_le n (order.arrange rows)
  rw [List.length_cons, List.length_cons, ← List.countP_eq_length_filter] at length
  unfold others
  omega

/-- The key with a rank among the rows that have it. -/
def ranked (key : α → K) (x y a : α) : K ×ₗ ℕ :=
  toLex (key a, if a = x then 2 else if a = y then 1 else 0)

/-- The order in which `x` and `y` come before the other rows of their keys. -/
def pairFirst (key : α → K) (x y : α) : NewestFirst key where
  arrange rows := rows.insertionSort fun a b => ranked key x y b ≤ ranked key x y a
  perm := List.perm_insertionSort _
  sorted rows := by
    have total : Std.Total fun a b : α => ranked key x y b ≤ ranked key x y a :=
      ⟨fun a b => le_total _ _⟩
    have trans : IsTrans α fun a b : α => ranked key x y b ≤ ranked key x y a :=
      ⟨fun _ _ _ first second => second.trans first⟩
    refine (List.pairwise_insertionSort _ rows).imp fun {a b} le => ?_
    rcases Prod.Lex.le_iff.mp le with lt | ⟨same, _⟩
    · exact le_of_lt lt
    · exact le_of_eq same

/-- Two rows that leave room for all rows of greater keys can share a page. -/
theorem mem_take_pairFirst (nodup : rows.Nodup) (differ : x ≠ y) (thereX : x ∈ rows)
    (thereY : y ∈ rows) (greater : key y ≤ key x) (room : others key rows x y + 2 ≤ n) :
    x ∈ ((pairFirst key x y).arrange rows).take n ∧
      y ∈ ((pairFirst key x y).arrange rows).take n := by
  have total : Std.Total fun a b : α => ranked key x y b ≤ ranked key x y a :=
    ⟨fun a b => le_total _ _⟩
  have trans : IsTrans α fun a b : α => ranked key x y b ≤ ranked key x y a :=
    ⟨fun _ _ _ first second => second.trans first⟩
  have perm := (pairFirst key x y).perm rows
  have sorted := List.pairwise_insertionSort
    (fun a b : α => ranked key x y b ≤ ranked key x y a) rows
  have beforeX : ∀ a, a ≠ x ∧ ranked key x y x ≤ ranked key x y a → key y < key a ∧ a ≠ x := by
    rintro a ⟨other, le⟩
    refine ⟨?_, other⟩
    rcases Prod.Lex.le_iff.mp le with lt | ⟨_, rank⟩
    · exact greater.trans_lt lt
    · simp only [ranked, ofLex_toLex, other, if_true, if_false] at rank
      split at rank <;> omega
  have beforeY : ∀ a, a ≠ y ∧ ranked key x y y ≤ ranked key x y a →
      (key y < key a ∧ a ≠ x) ∨ a = x := by
    rintro a ⟨other, le⟩
    by_cases own : a = x
    · exact .inr own
    · refine .inl ⟨?_, own⟩
      rcases Prod.Lex.le_iff.mp le with lt | ⟨_, rank⟩
      · exact lt
      · simp [ranked, own, other, differ.symm] at rank
  constructor
  · refine mem_take_of_few sorted (perm.mem_iff.mpr thereX) ?_
    have few := List.countP_mono_left (l := rows) (p := fun a =>
      decide (a ≠ x ∧ ranked key x y x ≤ ranked key x y a)) (q := fun a =>
      decide (key y < key a ∧ a ≠ x)) fun a _ yes => decide_eq_true (beforeX a (of_decide_eq_true yes))
    rw [perm.countP_eq]
    unfold others at room
    omega
  · refine mem_take_of_few sorted (perm.mem_iff.mpr thereY) ?_
    have inside : (rows.filter fun a => a ≠ y ∧ ranked key x y y ≤ ranked key x y a) ⊆
        x :: rows.filter fun a => key y < key a ∧ a ≠ x := by
      intro a mem
      obtain ⟨there, yes⟩ := List.mem_filter.mp mem
      rcases beforeY a (of_decide_eq_true yes) with greater' | rfl
      · exact List.mem_cons_of_mem x (List.mem_filter.mpr ⟨there, decide_eq_true greater'⟩)
      · exact List.mem_cons_self
    have few := (List.subperm_of_subset (nodup.filter _) inside).length_le
    rw [List.length_cons, ← List.countP_eq_length_filter, ← List.countP_eq_length_filter] at few
    rw [perm.countP_eq]
    unfold others at room
    omega

end First

end Paging

end Lib
