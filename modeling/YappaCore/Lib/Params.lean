import Mathlib.Data.List.Induction
import Mathlib.Logic.Function.Basic

/-!
Texts of parameters: parts between separators, each a name and a value around its first `eq`, and
the last value of a name wins.

`split_iff` says what the parts of a text are, and `value_eq_some` from it where in a text the value
of a name stands.
-/

namespace Lib

namespace Params

variable {α : Type*} [DecidableEq α]

/-- What stands before the first `eq` of a part and what after it, if it has one. -/
def pair (eq : α) : List α → Option (List α × List α)
  | [] => none
  | c :: rest => if c = eq then some ([], rest) else (pair eq rest).map fun p => (c :: p.1, p.2)

/-- The names and values of a text; parts without `eq` are skipped. -/
def pairs (sep eq : α) (text : List α) : List (List α × List α) :=
  (text.splitOn sep).filterMap (pair eq)

/-- A map filled from pairs, one after the other. -/
def collect {κ V : Type*} [DecidableEq κ] (entries : List (κ × V)) : κ → Option V :=
  entries.foldl (fun map entry => Function.update map entry.1 (some entry.2)) fun _ => none

theorem pair_eq_some {eq : α} {part name value : List α} :
    pair eq part = some (name, value) ↔ part = name ++ eq :: value ∧ eq ∉ name := by
  induction part generalizing name with
  | nil => simp [pair]
  | cons c rest ih =>
      unfold pair
      by_cases here : c = eq
      · subst here
        rw [if_pos rfl]
        constructor
        · intro same
          cases same
          exact ⟨rfl, List.not_mem_nil⟩
        · rintro ⟨split, plain⟩
          cases name with
          | nil => exact congrArg some (congrArg _ (List.cons.inj split).2)
          | cons d name =>
              obtain ⟨rfl, _⟩ := List.cons.inj split
              exact absurd List.mem_cons_self plain
      · rw [if_neg here, Option.map_eq_some_iff]
        constructor
        · rintro ⟨⟨front, back⟩, found, same⟩
          cases same
          obtain ⟨rfl, plain⟩ := ih.mp found
          refine ⟨rfl, fun mem => ?_⟩
          rcases List.mem_cons.mp mem with rfl | later
          · exact here rfl
          · exact plain later
        · rintro ⟨split, plain⟩
          cases name with
          | nil => exact absurd (List.cons.inj split).1 here
          | cons d name =>
              obtain ⟨rfl, rfl⟩ := List.cons.inj split
              have rest : eq ∉ name := fun mem => plain (List.mem_cons_of_mem _ mem)
              exact ⟨(name, value), ih.mpr ⟨rfl, rest⟩, rfl⟩

/-- The last entry of a key is the one that stays. -/
theorem collect_eq_some {κ V : Type*} [DecidableEq κ] {entries : List (κ × V)} {key : κ}
    {value : V} : collect entries key = some value ↔
      ∃ earlier later, entries = earlier ++ (key, value) :: later ∧ ∀ p ∈ later, p.1 ≠ key := by
  induction entries using List.reverseRecOn with
  | nil => simp [collect]
  | append_singleton entries entry ih =>
      obtain ⟨key', value'⟩ := entry
      have last : collect (entries ++ [(key', value')]) =
          Function.update (collect entries) key' (some value') := by
        unfold collect
        rw [List.foldl_append]
        rfl
      rw [last]
      by_cases own : key = key'
      · subst own
        rw [Function.update_self, Option.some.injEq]
        constructor
        · rintro rfl
          exact ⟨entries, [], rfl, fun _ none => absurd none List.not_mem_nil⟩
        · rintro ⟨earlier, later, same, others⟩
          cases later using List.reverseRecOn with
          | nil =>
              have ends := List.append_inj_right' same rfl
              simpa using ends
          | append_singleton later p =>
              rw [← List.cons_append, ← List.append_assoc] at same
              have ends := (List.append_inj' same rfl).2
              obtain rfl := List.singleton_inj.mp ends
              exact absurd rfl (others _ (List.mem_append_right _ (List.mem_singleton_self _)))
      · rw [Function.update_of_ne own, ih]
        constructor
        · rintro ⟨earlier, later, rfl, others⟩
          refine ⟨earlier, later ++ [(key', value')], by simp, fun p mem => ?_⟩
          rcases List.mem_append.mp mem with old | new
          · exact others p old
          · obtain rfl := List.mem_singleton.mp new
            exact Ne.symm own
        · rintro ⟨earlier, later, same, others⟩
          cases later using List.reverseRecOn with
          | nil =>
              have ends := List.append_inj_right' same rfl
              simp [Ne.symm own] at ends
          | append_singleton later p =>
              rw [← List.cons_append, ← List.append_assoc] at same
              obtain ⟨rfl, _⟩ := List.append_inj' same rfl
              exact ⟨earlier, later, rfl, fun p mem => others p (List.mem_append_left _ mem)⟩

/-! ### The parts of a text -/

theorem not_mem_of_mem_splitOn {sep : α} {text part : List α} (mem : part ∈ text.splitOn sep) :
    sep ∉ part := by
  induction text generalizing part with
  | nil =>
      obtain rfl : part = [] := by simpa using mem
      exact List.not_mem_nil
  | cons c rest ih =>
      rw [List.splitOn_cons_eq_if_modifyHead] at mem
      obtain ⟨first, others, split⟩ := List.exists_cons_of_ne_nil (List.splitOn_ne_nil sep rest)
      rw [split] at ih mem
      split at mem
      · rcases List.mem_cons.mp mem with rfl | later
        · exact List.not_mem_nil
        · exact ih later
      · rename_i differs
        rcases List.mem_cons.mp mem with rfl | later
        · rw [List.mem_cons, not_or]
          exact ⟨fun same => differs (beq_iff_eq.mpr same.symm), ih List.mem_cons_self⟩
        · exact ih (List.mem_cons_of_mem _ later)

/-- The text in front of a part, by the parts before it. -/
def Opens (sep : α) (front : List α) (before : List (List α)) : Prop :=
  front = [] ∧ before = [] ∨ ∃ text, front = text ++ [sep] ∧ text.splitOn sep = before

/-- The text behind a part, by the parts after it. -/
def Closes (sep : α) (back : List α) (after : List (List α)) : Prop :=
  back = [] ∧ after = [] ∨ ∃ text, back = sep :: text ∧ text.splitOn sep = after

theorem splitOn_of_opens {sep : α} {front part back : List α} {before after : List (List α)}
    (opens : Opens sep front before) (plain : sep ∉ part) (closes : Closes sep back after) :
    (front ++ part ++ back).splitOn sep = before ++ part :: after := by
  have rest : (part ++ back).splitOn sep = part :: after := by
    rcases closes with ⟨rfl, rfl⟩ | ⟨text, rfl, rfl⟩
    · rw [List.append_nil, List.splitOn_eq_singleton plain]
    · rw [List.splitOn_append_cons_self_of_not_mem plain]
  rcases opens with ⟨rfl, rfl⟩ | ⟨text, rfl, rfl⟩
  · rw [List.nil_append, rest, List.nil_append]
  · rw [List.append_assoc, List.append_assoc, List.singleton_append, List.splitOn_append_cons_self,
      rest]

/-- The parts around one are those of the texts around it. -/
theorem split_iff {sep : α} {text part : List α} {before after : List (List α)} :
    text.splitOn sep = before ++ part :: after ↔ sep ∉ part ∧ ∃ front back,
      text = front ++ part ++ back ∧ Opens sep front before ∧ Closes sep back after := by
  constructor
  · intro split
    have plain : ∀ other ∈ before ++ part :: after, sep ∉ other := fun other mem =>
      not_mem_of_mem_splitOn (split ▸ mem)
    have own := plain part (List.mem_append_right _ List.mem_cons_self)
    have opens : ∃ front, Opens sep front before := by
      cases before with
      | nil => exact ⟨[], .inl ⟨rfl, rfl⟩⟩
      | cons first others =>
          refine ⟨_, .inr ⟨[sep].intercalate (first :: others), rfl, ?_⟩⟩
          exact List.splitOn_intercalate sep
            (fun other mem => plain other (List.mem_append_left _ mem)) (List.cons_ne_nil _ _)
    have closes : ∃ back, Closes sep back after := by
      cases after with
      | nil => exact ⟨[], .inl ⟨rfl, rfl⟩⟩
      | cons first others =>
          refine ⟨_, .inr ⟨[sep].intercalate (first :: others), rfl, ?_⟩⟩
          exact List.splitOn_intercalate sep (fun other mem => plain other
            (List.mem_append_right _ (List.mem_cons_of_mem _ mem))) (List.cons_ne_nil _ _)
    obtain ⟨front, opens⟩ := opens
    obtain ⟨back, closes⟩ := closes
    refine ⟨own, front, back, ?_, opens, closes⟩
    have joined : [sep].intercalate (text.splitOn sep) = text := List.intercalate_splitOn sep
    rw [← joined, split, ← splitOn_of_opens opens own closes, List.intercalate_splitOn]
  · rintro ⟨plain, front, back, rfl, opens, closes⟩
    exact splitOn_of_opens opens plain closes

/-- A text without a separator in front of another is part of its first part. -/
theorem splitOn_append {sep : α} {front : List α} (plain : sep ∉ front) (text : List α) :
    ∃ first others, (front ++ text).splitOn sep = (front ++ first) :: others := by
  obtain ⟨first, others, split⟩ := List.exists_cons_of_ne_nil (List.splitOn_ne_nil sep text)
  obtain ⟨own, lead, back, rfl, opens, closes⟩ := (@split_iff _ _ _ _ _ [] _).mp split
  obtain rfl : lead = [] := by
    rcases opens with ⟨none, _⟩ | ⟨_, _, nothing⟩
    · exact none
    · exact absurd nothing (List.splitOn_ne_nil sep _)
  refine ⟨first, others, (@split_iff _ _ _ _ _ [] _).mpr ⟨?_, [], back, by simp, opens, closes⟩⟩
  rw [List.mem_append, not_or]
  exact ⟨plain, own⟩

/-! ### The value of a name -/

/-- The value that the last pair with a name gives it. -/
def value (sep eq : α) (name text : List α) : Option (List α) := collect (pairs sep eq text) name

section Value

variable {sep eq : α} {name : List α}

/-- Behind a separator some part begins as the text there does. -/
theorem exists_part_of_closes {start back : List α} {after : List (List α)}
    (plain : sep ∉ start) (closes : Closes sep back after) {a b : List α}
    (here : back = a ++ sep :: (start ++ b)) : ∃ w, start ++ w ∈ after := by
  rcases closes with ⟨rfl, _⟩ | ⟨text, rfl, rfl⟩
  · simp at here
  · obtain ⟨w, others, split⟩ := splitOn_append plain b
    refine ⟨w, ?_⟩
    cases a with
    | nil =>
        obtain rfl := (List.cons.inj here).2
        rw [split]
        exact List.mem_cons_self
    | cons c a =>
        have same : text = a ++ sep :: (start ++ b) := (List.cons.inj here).2
        rw [same, List.splitOn_append_cons_self, split]
        exact List.mem_append_right _ List.mem_cons_self

/-- Every part stands behind a separator. -/
theorem exists_of_mem_closes {back part : List α} {after : List (List α)}
    (closes : Closes sep back after) (mem : part ∈ after) :
    ∃ a b, back = a ++ sep :: (part ++ b) := by
  rcases closes with ⟨_, rfl⟩ | ⟨text, rfl, rfl⟩
  · exact absurd mem List.not_mem_nil
  · obtain ⟨before, later, split⟩ := List.append_of_mem mem
    obtain ⟨_, front, rest, rfl, opens, _⟩ := split_iff.mp split
    rcases opens with ⟨rfl, _⟩ | ⟨earlier, rfl, _⟩
    · exact ⟨[], rest, by simp⟩
    · exact ⟨sep :: earlier, rest, by simp⟩

/-- A name has a value where it stands at the start or behind a separator, with the value up to the
next separator or the end, and is not given another one behind that. -/
theorem value_eq_some (differ : sep ≠ eq) (noSep : sep ∉ name) (noEq : eq ∉ name)
    {text v : List α} : value sep eq name text = some v ↔
      sep ∉ v ∧ ∃ front back, text = front ++ (name ++ eq :: v) ++ back ∧
        (front = [] ∨ ∃ earlier, front = earlier ++ [sep]) ∧
        (back = [] ∨ ∃ later, back = sep :: later) ∧
        ∀ a b, back ≠ a ++ sep :: (name ++ eq :: b) := by
  unfold value pairs
  rw [collect_eq_some]
  constructor
  · rintro ⟨earlier, later, parts, others⟩
    obtain ⟨first, rest, split, _, rest'⟩ := List.filterMap_eq_append_iff.mp parts
    obtain ⟨skipped, part, after, rfl, _, found, rfl⟩ := List.filterMap_eq_cons_iff.mp rest'
    rw [← List.append_assoc] at split
    obtain ⟨own, front, back, rfl, opens, closes⟩ := split_iff.mp split
    obtain ⟨rfl, _⟩ := pair_eq_some.mp found
    refine ⟨fun mem => own ?_, front, back, rfl, ?_, ?_, ?_⟩
    · exact List.mem_append_right _ (List.mem_cons_of_mem _ mem)
    · exact opens.imp And.left fun ⟨text, same, _⟩ => ⟨text, same⟩
    · exact closes.imp And.left fun ⟨text, same, _⟩ => ⟨text, same⟩
    · intro a b again
      have start : sep ∉ name ++ [eq] := by
        rw [List.mem_append, List.mem_singleton, not_or]
        exact ⟨noSep, differ⟩
      obtain ⟨w, mem⟩ := @exists_part_of_closes _ _ _ _ _ _ start closes a b (by simpa using again)
      have named : pair eq (name ++ [eq] ++ w) = some (name, w) :=
        pair_eq_some.mpr ⟨by simp, noEq⟩
      exact others _ (List.mem_filterMap.mpr ⟨_, mem, named⟩) rfl
  · rintro ⟨noSep', front, back, rfl, opens, closes, last⟩
    have own : sep ∉ name ++ eq :: v := by
      rw [List.mem_append, List.mem_cons, not_or, not_or]
      exact ⟨noSep, differ, noSep'⟩
    obtain ⟨before, opens⟩ : ∃ before, Opens sep front before := by
      rcases opens with rfl | ⟨text, rfl⟩
      · exact ⟨[], .inl ⟨rfl, rfl⟩⟩
      · exact ⟨_, .inr ⟨text, rfl, rfl⟩⟩
    obtain ⟨after, closes⟩ : ∃ after, Closes sep back after := by
      rcases closes with rfl | ⟨text, rfl⟩
      · exact ⟨[], .inl ⟨rfl, rfl⟩⟩
      · exact ⟨_, .inr ⟨text, rfl, rfl⟩⟩
    have found : pair eq (name ++ eq :: v) = some (name, v) := pair_eq_some.mpr ⟨rfl, noEq⟩
    refine ⟨before.filterMap (pair eq), after.filterMap (pair eq), ?_, ?_⟩
    · rw [splitOn_of_opens opens own closes, List.filterMap_append, List.filterMap_cons_some found]
    · rintro ⟨name', w⟩ mem rfl
      obtain ⟨part, there, named⟩ := List.mem_filterMap.mp mem
      obtain ⟨rfl, _⟩ := pair_eq_some.mp named
      obtain ⟨a, b, again⟩ := exists_of_mem_closes closes there
      exact last a (w ++ b) (by simpa using again)

end Value

end Params

end Lib
