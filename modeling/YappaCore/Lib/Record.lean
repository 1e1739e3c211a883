import Mathlib.Data.List.Forall2
import Mathlib.Data.List.Nodup
import Mathlib.Logic.Function.Basic

/-!
Records read from lists of named values: the entries come in any order, a name that is no field is
skipped, a field that comes twice or not at all is an error.

`collect` is the loop over the entries, and `read_eq_some` says what it accepts: the entries with
the names of fields are the fields with their values, in some order.
-/

namespace Lib

namespace Record

variable {κ V : Type*} [DecidableEq κ]

/-- Read entries into the fields, of which those in `seen` have a value. -/
def collect (fields : List κ) : (κ → Option V) → List (κ × V) → Option (κ → Option V)
  | seen, [] => some seen
  | seen, (name, value) :: rest =>
      if name ∈ fields then
        match seen name with
        | some _ => none
        | none => collect fields (Function.update seen name (some value)) rest
      else collect fields seen rest

/-- The values of the fields, if all have one. -/
def values (seen : κ → Option V) : List κ → Option (List V)
  | [] => some []
  | name :: rest => (seen name).bind fun value => (values seen rest).map (value :: ·)

def read (fields : List κ) (entries : List (κ × V)) : Option (List V) :=
  (collect fields (fun _ => none) entries).bind fun seen => values seen fields

/-- The entries with the names of fields. -/
def known (fields : List κ) (entries : List (κ × V)) : List (κ × V) :=
  entries.filter (·.1 ∈ fields)

section Collect

variable {fields : List κ} {seen seen' : κ → Option V} {entries : List (κ × V)}

theorem mem_known {p : κ × V} : p ∈ known fields entries ↔ p ∈ entries ∧ p.1 ∈ fields := by
  unfold known
  rw [List.mem_filter, decide_eq_true_eq]

theorem known_zip (fields : List κ) (vs : List V) :
    known fields (fields.zip vs) = fields.zip vs := by
  unfold known
  rw [List.filter_eq_self]
  exact fun p mem => decide_eq_true (List.of_mem_zip mem).1

/-- What was read is what had been and the entries with the names of fields, each of them new. -/
theorem collect_spec (collected : collect fields seen entries = some seen') :
    ((known fields entries).map Prod.fst).Nodup ∧ (∀ p ∈ known fields entries, seen p.1 = none) ∧
      ∀ name value, seen' name = some value ↔
        seen name = some value ∨ (name, value) ∈ known fields entries := by
  induction entries generalizing seen with
  | nil =>
      obtain rfl := Option.some.inj collected
      simp [known]
  | cons entry rest ih =>
      obtain ⟨name, value⟩ := entry
      unfold collect at collected
      by_cases field : name ∈ fields
      · rw [if_pos field] at collected
        have first : known fields ((name, value) :: rest) = (name, value) :: known fields rest :=
          List.filter_cons_of_pos (decide_eq_true field)
        rw [first]
        cases new : seen name with
        | some old => simp [new] at collected
        | none =>
            simp only [new] at collected
            obtain ⟨nodup, fresh, spec⟩ := ih collected
            have others : ∀ p ∈ known fields rest, p.1 ≠ name := by
              rintro p mem rfl
              have taken := fresh p mem
              rw [Function.update_self] at taken
              simp at taken
            refine ⟨List.nodup_cons.mpr ⟨?_, nodup⟩, ?_, ?_⟩
            · intro mem
              obtain ⟨p, there, same⟩ := List.mem_map.mp mem
              exact others p there same
            · intro p mem
              rcases List.mem_cons.mp mem with rfl | later
              · exact new
              · have free := fresh p later
                rwa [Function.update_of_ne (others p later)] at free
            · intro name' value'
              rw [spec, List.mem_cons]
              by_cases own : name' = name
              · subst own
                rw [Function.update_self, new]
                simp [eq_comm]
              · rw [Function.update_of_ne own]
                simp [own]
      · rw [if_neg field] at collected
        have skipped : known fields ((name, value) :: rest) = known fields rest :=
          List.filter_cons_of_neg (by simpa using field)
        rw [skipped]
        exact ih collected

/-- Entries whose names of fields are new and come once can be read. -/
theorem exists_collect (nodup : ((known fields entries).map Prod.fst).Nodup)
    (fresh : ∀ p ∈ known fields entries, seen p.1 = none) :
    ∃ seen', collect fields seen entries = some seen' := by
  induction entries generalizing seen with
  | nil => exact ⟨seen, rfl⟩
  | cons entry rest ih =>
      obtain ⟨name, value⟩ := entry
      unfold collect
      by_cases field : name ∈ fields
      · have first : known fields ((name, value) :: rest) = (name, value) :: known fields rest :=
          List.filter_cons_of_pos (decide_eq_true field)
        rw [first] at nodup fresh
        obtain ⟨once, nodup⟩ := List.nodup_cons.mp nodup
        have new : seen name = none := fresh _ List.mem_cons_self
        rw [if_pos field]
        simp only [new]
        refine ih nodup fun p mem => ?_
        have other : p.1 ≠ name := fun same => once (List.mem_map.mpr ⟨p, mem, same⟩)
        rw [Function.update_of_ne other]
        exact fresh p (List.mem_cons_of_mem _ mem)
      · have skipped : known fields ((name, value) :: rest) = known fields rest :=
          List.filter_cons_of_neg (by simpa using field)
        rw [skipped] at nodup fresh
        rw [if_neg field]
        exact ih nodup fresh

end Collect

omit [DecidableEq κ] in
theorem values_eq_some {seen : κ → Option V} {fields : List κ} {vs : List V} :
    values seen fields = some vs ↔
      List.Forall₂ (fun name value => seen name = some value) fields vs := by
  induction fields generalizing vs with
  | nil =>
      rw [List.forall₂_nil_left_iff]
      exact ⟨fun same => (Option.some.inj same).symm, fun same => congrArg some same.symm⟩
  | cons name rest ih =>
      rw [List.forall₂_cons_left_iff]
      simp only [values, Option.bind_eq_some_iff, Option.map_eq_some_iff, ih]
      constructor
      · rintro ⟨value, found, later, all, rfl⟩
        exact ⟨value, later, found, all, rfl⟩
      · rintro ⟨value, later, found, all, rfl⟩
        exact ⟨value, found, later, all, rfl⟩

/-- A record is read exactly where the entries with the names of fields are the fields with the
values, in some order. -/
theorem read_eq_some {fields : List κ} (distinct : fields.Nodup) {entries : List (κ × V)}
    {vs : List V} : read fields entries = some vs ↔
      fields.length = vs.length ∧ (known fields entries).Perm (fields.zip vs) := by
  constructor
  · intro done
    obtain ⟨seen, collected, all⟩ := Option.bind_eq_some_iff.mp done
    obtain ⟨nodup, _, spec⟩ := collect_spec collected
    obtain ⟨length, each⟩ := List.forall₂_iff_zip.mp (values_eq_some.mp all)
    have names : (fields.zip vs).map Prod.fst = fields := List.map_fst_zip (Nat.le_of_eq length)
    refine ⟨length, (List.perm_ext_iff_of_nodup (List.Nodup.of_map _ nodup) ?_).mpr ?_⟩
    · exact List.Nodup.of_map Prod.fst (names.symm ▸ distinct)
    · rintro ⟨name, value⟩
      have there : (name, value) ∈ known fields entries ↔ seen name = some value := by
        rw [spec]
        simp
      rw [there]
      constructor
      · intro found
        have field : name ∈ (fields.zip vs).map Prod.fst := by
          rw [names]
          exact (mem_known.mp (there.mpr found)).2
        obtain ⟨⟨name, value'⟩, mem, rfl⟩ := List.mem_map.mp field
        obtain rfl : value' = value := Option.some.inj ((each mem).symm.trans found)
        exact mem
      · exact fun mem => each mem
  · rintro ⟨length, perm⟩
    have names : (fields.zip vs).map Prod.fst = fields := List.map_fst_zip (Nat.le_of_eq length)
    have nodup : ((known fields entries).map Prod.fst).Nodup := by
      rw [(perm.map Prod.fst).nodup_iff, names]
      exact distinct
    obtain ⟨seen, collected⟩ :=
      @exists_collect _ _ _ fields (fun _ => none) entries nodup fun _ _ => rfl
    obtain ⟨_, _, spec⟩ := collect_spec collected
    refine Option.bind_eq_some_iff.mpr ⟨seen, collected, values_eq_some.mpr ?_⟩
    refine List.forall₂_iff_zip.mpr ⟨length, fun mem => (spec _ _).mpr (.inr ?_)⟩
    exact perm.symm.subset mem

end Record

end Lib
