import Mathlib.Data.Set.Function
import Mathlib.Data.Sym.Sym2.Order
import YappaCore.Protocol

/-!
Which pairs of users share a direct conversation. The id is the hash of the two names, sorted
and joined by a colon; names may hold colons themselves, so a text can be the join of two
different pairs.

`identifies_pair_iff`: the id tells two pairs apart exactly when neither is a resplit of the
other.
-/

namespace YappaCore

/-- The text that `generate_dm_conversation_id` hashes. -/
def combined (userA userB : String) : String := min userA userB ++ ":" ++ max userA userB

theorem generateDmConversationId_eq (sha256Prefix : String → Uuid) (userA userB : String) :
    generateDmConversationId sha256Prefix userA userB = sha256Prefix (combined userA userB) := by
  unfold generateDmConversationId combined
  by_cases swapped : userB < userA
  · simp [swapped, min_eq_right swapped.le, max_eq_left swapped.le]
  · simp [swapped, min_eq_left (not_lt.mp swapped), max_eq_right (not_lt.mp swapped)]

/-- A pair and another one that has the same join, with the colon between the names moved. -/
def Resplit (a b c d : String) : Prop :=
  ∃ x y z, (min a b = x ∧ max a b = y ++ ":" ++ z) ∧ min c d = x ++ ":" ++ y ∧ max c d = z

/-- A text that is joined in two ways is joined at one colon, or at two of its colons. -/
theorem append_colon_eq_iff {a b c d : String} : a ++ ":" ++ b = c ++ ":" ++ d ↔
    (a = c ∧ b = d) ∨ (∃ y, c = a ++ ":" ++ y ∧ b = y ++ ":" ++ d) ∨
      ∃ y, a = c ++ ":" ++ y ∧ d = y ++ ":" ++ b := by
  have lists : ∀ {x y : String}, x = y ↔ x.toList = y.toList := String.toList_inj.symm
  have one : ":".toList = [':'] := rfl
  constructor
  · intro same
    rw [lists] at same
    simp only [String.toList_append, one, List.append_assoc, List.singleton_append] at same
    rcases List.append_eq_append_iff.mp same with ⟨front, longer, rest⟩ | ⟨front, longer, rest⟩
    · cases front with
      | nil =>
          refine .inl ⟨lists.mpr (by simpa using longer.symm), lists.mpr ?_⟩
          simpa using rest
      | cons first front =>
          obtain ⟨rfl, later⟩ := List.cons.inj rest
          refine .inr (.inl ⟨String.ofList front, lists.mpr ?_, lists.mpr ?_⟩)
          · simp [longer, one]
          · simp [later, one]
    · cases front with
      | nil =>
          refine .inl ⟨lists.mpr (by simpa using longer), lists.mpr ?_⟩
          simpa using rest.symm
      | cons first front =>
          obtain ⟨rfl, later⟩ := List.cons.inj rest
          refine .inr (.inr ⟨String.ofList front, lists.mpr ?_, lists.mpr ?_⟩)
          · simp [longer, one]
          · simp [later, one]
  · rintro (⟨rfl, rfl⟩ | ⟨y, rfl, rfl⟩ | ⟨y, rfl, rfl⟩)
    · rfl
    · simp only [String.append_assoc]
    · simp only [String.append_assoc]

/-- Two pairs are joined to one text exactly when they are one pair or a resplit of each other. -/
theorem combined_eq_iff (a b c d : String) : combined a b = combined c d ↔
    s(a, b) = s(c, d) ∨ Resplit a b c d ∨ Resplit c d a b := by
  have pairs : s(a, b) = s(c, d) ↔ min a b = min c d ∧ max a b = max c d := by
    rw [← Sym2.inf_eq_inf_and_sup_eq_sup]
    rfl
  unfold combined Resplit
  rw [append_colon_eq_iff, pairs]
  refine or_congr Iff.rfl (or_congr ?_ ?_)
  · constructor
    · rintro ⟨y, first, second⟩
      exact ⟨_, y, _, ⟨rfl, second⟩, first, rfl⟩
    · rintro ⟨_, y, _, ⟨rfl, second⟩, first, rfl⟩
      exact ⟨y, first, second⟩
  · constructor
    · rintro ⟨y, first, second⟩
      exact ⟨_, y, _, ⟨rfl, second⟩, first, rfl⟩
    · rintro ⟨_, y, _, ⟨rfl, second⟩, first, rfl⟩
      exact ⟨y, first, second⟩

/-- A resplit is another pair. -/
theorem Resplit.ne {a b c d : String} (resplit : Resplit a b c d) : s(a, b) ≠ s(c, d) := by
  intro same
  obtain ⟨x, y, z, ⟨first, _⟩, longer, _⟩ := resplit
  have least : min a b = min c d := congrArg Sym2.inf same
  have length := congrArg String.length (first.symm.trans (least.trans longer))
  rw [String.length_append, String.length_append] at length
  have one : ":".length = 1 := rfl
  omega

/-- A pair without colons in its names is no resplit of one. -/
theorem not_resplit_of_no_colon {a b c d : String} (left : ':' ∉ a.toList) (right : ':' ∉ b.toList) :
    ¬ Resplit a b c d ∧ ¬ Resplit c d a b := by
  have least : ':' ∉ (min a b).toList := by
    rcases min_choice a b with same | same <;> rwa [same]
  have greatest : ':' ∉ (max a b).toList := by
    rcases max_choice a b with same | same <;> rwa [same]
  constructor
  · rintro ⟨x, y, z, ⟨_, second⟩, _, _⟩
    apply greatest
    rw [second]
    simp
  · rintro ⟨x, y, z, _, first, _⟩
    apply least
    rw [first]
    simp

/-- Where the hash does not collide on the texts it is given, two pairs have the same id exactly
when they are the same unordered pair, if and only if neither is a resplit of the other. -/
theorem identifies_pair_iff {sha256Prefix : String → Uuid} {texts : Set String}
    (injective : Set.InjOn sha256Prefix texts) {a b c d : String} (first : combined a b ∈ texts)
    (second : combined c d ∈ texts) :
    (generateDmConversationId sha256Prefix a b = generateDmConversationId sha256Prefix c d ↔
      s(a, b) = s(c, d)) ↔ ¬ Resplit a b c d ∧ ¬ Resplit c d a b := by
  rw [generateDmConversationId_eq, generateDmConversationId_eq, injective.eq_iff first second,
    combined_eq_iff]
  constructor
  · intro only
    exact ⟨fun resplit => resplit.ne (only.mp (.inr (.inl resplit))),
      fun resplit => resplit.ne (only.mp (.inr (.inr resplit))).symm⟩
  · rintro ⟨none, none'⟩
    simp only [none, none', or_false]

/-- The direct conversations of ada with bob and with eve. -/
theorem identifies_pair_iff_names :
    (generateDmConversationId sha256Names "bob" "ada" =
        generateDmConversationId sha256Names "ada" "bob") ∧
      generateDmConversationId sha256Names "bob" "ada" ≠
        generateDmConversationId sha256Names "ada" "eve" := by
  have differ : sha256Names "ada:bob" ≠ sha256Names "ada:eve" := by decide
  have injective : Set.InjOn sha256Names {"ada:bob", "ada:eve"} := by
    rintro text (rfl | rfl) text' (rfl | rfl) same
    · rfl
    · exact absurd same differ
    · exact absurd same.symm differ
    · rfl
  have bob : combined "bob" "ada" = "ada:bob" := by decide
  have bob' : combined "ada" "bob" = "ada:bob" := by decide
  have eve : combined "ada" "eve" = "ada:eve" := by decide
  have names := fun c d => not_resplit_of_no_colon (a := "bob") (b := "ada") (c := c) (d := d)
    (by decide) (by decide)
  constructor
  · apply ((identifies_pair_iff injective (by simp [bob]) (by simp [bob'])).mpr (names _ _)).mpr
    exact Sym2.eq_swap
  · intro same
    have pair := ((identifies_pair_iff injective (by simp [bob]) (by simp [eve])).mpr
      (names _ _)).mp same
    simp at pair

/-- Two pairs of users with colons in their names share a conversation, whatever the hash. -/
theorem pairs_share_conversation :
    ¬ ∀ (sha256Prefix : String → Uuid) (texts : Set String), Set.InjOn sha256Prefix texts →
      ∀ a b c d, combined a b ∈ texts → combined c d ∈ texts →
        (generateDmConversationId sha256Prefix a b = generateDmConversationId sha256Prefix c d ↔
          s(a, b) = s(c, d)) := by
  intro identifies
  have same : combined "a" "b:c" = combined "a:b" "c" := by decide
  have pair := (identifies (fun _ => 0) {combined "a" "b:c"} (Set.injOn_singleton _ _) "a" "b:c"
    "a:b" "c" rfl same.symm).mp rfl
  simp at pair

end YappaCore
