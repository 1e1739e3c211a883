import YappaCore.Server.Enrolment
import YappaCore.Server.Groups
import YappaCore.Server.Membership

/-!
What a `DELETE` of a group leaves behind. It takes the group out of the registry of its node and
leaves the row of `groups`, which no statement ever deletes; `JOIN` and `get_tenant_groups` read
that row.

`row_of_granted` says that members of a group have a row behind them, and `durable_iff` when a
`DELETE` lasts: when there was no row.
-/

namespace YappaCore

open Lib Handler

namespace Cluster

variable {N : Type} [DecidableEq N] {state : AppState} {t g : String}

/-! ### Rows over runs -/

/-- The table of groups has the group. -/
def HasRow (s : Cluster N) (t g : String) : Prop := ∃ id, s.db.GroupStored t g id

/-- The event is the statement of a `CREATE` of the group that goes through. -/
def Creates (s : Cluster N) (e : Event N) (t g : String) : Prop :=
  ∃ id choice socket c u next, e = .perform id choice ∧ s.sockets id = some socket ∧
    socket.task = .call (.upsertGroup c t g u) next ∧ choice.ok = true ∧
    (s.db.upsertGroup c t g u choice.dbTime).isSome = true

section Step

variable {s s' : Cluster N} {e : Event N} (h : Stepped state s e s') (schema : s.db.Schema)

include h schema

/-- A group that has a row keeps one. -/
theorem Stepped.hasRow (row : s.HasRow t g) : s'.HasRow t g := by
  obtain ⟨c, stored⟩ := row
  rcases h.groups with same | ⟨_, _, _, x, t', g', _, _, _, _, _, _, _, upserted⟩
  · exact ⟨c, (Database.groupStored_congr same t g c).mpr stored⟩
  · by_cases own : t = t' ∧ g = g'
    · refine ⟨x, (schema.groupStored_upsert upserted t g x).mpr ?_⟩
      rw [if_pos own]
    · refine ⟨c, (schema.groupStored_upsert upserted t g c).mpr ?_⟩
      rwa [if_neg own]

/-- A group gets a row by a `CREATE`. -/
theorem Stepped.hasRow_of_not_creates (noCreate : ¬ s.Creates e t g) (row : s'.HasRow t g) :
    s.HasRow t g := by
  obtain ⟨c, stored⟩ := row
  rcases h.groups with same |
    ⟨id, choice, socket, x, t', g', u, next, x', performs, found, task, ok, upserted⟩
  · exact ⟨c, (Database.groupStored_congr same t g c).mp stored⟩
  · have before := (schema.groupStored_upsert upserted t g c).mp stored
    by_cases own : t = t' ∧ g = g'
    · obtain ⟨rfl, rfl⟩ := own
      exact absurd ⟨id, choice, socket, x, u, next, performs, found, task, ok, by rw [upserted]; rfl⟩
        noCreate
    · rw [if_neg own] at before
      exact ⟨c, before⟩

/-- After a `CREATE` the group has one. -/
theorem Stepped.hasRow_of_creates (creates : s.Creates e t g) : s'.HasRow t g := by
  obtain ⟨id, choice, socket, c, u, next, performs, found, task, ok, goes⟩ := creates
  obtain ⟨⟨c', db⟩, upserted⟩ := Option.isSome_iff_exists.mp goes
  have after : s'.db = db := by
    rw [h.performed performs found task]
    change (s.perform socket.node choice (.upsertGroup c t g u)).2.db = db
    rw [db_perform]
    simp [ok, upserted]
  refine ⟨c, ?_⟩
  rw [after]
  apply (schema.groupStored_upsert upserted t g c).mpr
  rw [if_pos ⟨rfl, rfl⟩]

end Step

/-- Over a run the constraints last. -/
theorem schema_run {s s' : Cluster N} {es : List (Event N)} (schema : s.db.Schema)
    (ran : (machine N state).run s es = some s') : s'.db.Schema := by
  refine @Machine.invariant _ _ _ (fun _ s' => s'.db.Schema) s schema ?_ es s' ran
  exact fun _ _ _ _ schema next => (stepped next).schema schema

/-- Over a run rows last. -/
theorem hasRow_run {s s' : Cluster N} {es : List (Event N)} (schema : s.db.Schema)
    (row : s.HasRow t g) (ran : (machine N state).run s es = some s') : s'.HasRow t g := by
  let Inv (_ : List (Event N)) (s' : Cluster N) : Prop := s'.db.Schema ∧ s'.HasRow t g
  have inv : Inv es s' := by
    refine Machine.invariant ⟨schema, row⟩ ?_ ran
    rintro _ s₁ e s₂ ⟨schema₁, row₁⟩ next
    exact ⟨(stepped next).schema schema₁, (stepped next).hasRow schema₁ row₁⟩
  exact inv.2

/-- Without a `CREATE` a run adds no row for the group. -/
theorem no_row_run {s s' : Cluster N} {es : List (Event N)} (schema : s.db.Schema)
    (none : ¬ s.HasRow t g) (ran : (machine N state).run s es = some s')
    (noCreate : (machine N state).Steps (fun s e => ¬ s.Creates e t g) s es) :
    ¬ s'.HasRow t g := by
  let Inv (s' : Cluster N) : Prop := s'.db.Schema ∧ ¬ s'.HasRow t g
  have inv : Inv s' := by
    refine Machine.invariant_steps ⟨schema, none⟩ ?_ ran noCreate
    rintro s₁ e s₂ ⟨schema₁, none₁⟩ silent next
    exact ⟨(stepped next).schema schema₁, fun row =>
      none₁ ((stepped next).hasRow_of_not_creates schema₁ silent row)⟩
  exact inv.2

/-- A membership that was granted is of a group that has a row. -/
theorem row_of_granted {db : Database} (schema : db.Schema) {es : List (Event N)} {s : Cluster N}
    (ran : (machine N state).run (start db) es = some s) {u : String}
    (granted : Granted state db es t g u) : s.HasRow t g := by
  rcases granted with ⟨text, s₁, choice, performed, _, row⟩ |
    ⟨text, s₁, choice, c, performed, _, ok, goes⟩
  · obtain ⟨before, id, after, rfl, first, _⟩ := performed
    obtain ⟨row, mem, tenant, name⟩ := row
    have schema₁ := schema_run schema first
    rw [Machine.run_append, first, Option.bind_some] at ran
    exact hasRow_run schema₁ ⟨_, row, mem, tenant, name, rfl⟩ ran
  · obtain ⟨before, id, after, rfl, first, node, alive, next, _, _, found⟩ := performed
    have schema₁ := schema_run schema first
    rw [Machine.run_append, first, Option.bind_some] at ran
    obtain ⟨s₂, create, rest⟩ := Option.bind_eq_some_iff.mp ran
    have creates : s₁.Creates (.perform id choice) t g :=
      ⟨id, choice, _, c, u, next, rfl, found, rfl, ok, goes⟩
    exact hasRow_run ((stepped create).schema schema₁)
      ((stepped create).hasRow_of_creates schema₁ creates) rest

/-! ### Durable deletes -/

/-- In the run a `DELETE` of the group was handled. -/
structure Deleted (state : AppState) (db : Database) (es : List (Event Unit)) (s : Cluster Unit)
    (t g : String) : Prop where
  ran : (machine Unit state).run (start db) es = some s
  performed : ∃ before e after s₁, es = before ++ e :: after ∧
    (machine Unit state).run (start db) before = some s₁ ∧ s₁.Performs e (.deleteGroup t g)

/-- Until a `CREATE` of the group goes through, no handler gets to join a user to it, nobody is
a member, and it is not listed. -/
def Durable (state : AppState) (s : Cluster Unit) (t g : String) : Prop :=
  ∀ (es : List (Event Unit)) (s' : Cluster Unit), (machine Unit state).run s es = some s' →
    (machine Unit state).Steps (fun s e => ¬ s.Creates e t g) s es →
    (∀ e u, ¬ s'.Performs e (.joinGroup t g u)) ∧ (∀ u, s'.member () t g u = false) ∧
      ∀ ok, ∀ response ∈ (getTenantGroups ok s'.db t).2, response.name ≠ g

/-- After a `DELETE` of a group other than `general`, as in any state that a run reaches, what the
`DELETE` owes holds exactly when there is no row of the group. -/
theorem durable_iff (state : AppState) {db : Database} (schema : db.Schema)
    {es : List (Event Unit)} {s : Cluster Unit} (other : g ≠ "general")
    (ran : (machine Unit state).run (start db) es = some s) :
    Durable state s t g ↔ ¬ s.HasRow t g := by
  have schema' := schema_run schema ran
  constructor
  · rintro durable ⟨c, stored⟩
    have storable := (schema'.storable_of_group stored).1
    obtain ⟨response, mem, name⟩ := (listed_iff true s.db t g).mpr ⟨⟨rfl, storable⟩, c, stored⟩
    exact (durable [] s rfl trivial).2.2 true response mem name
  · intro none es' s' later noCreate
    have absent := no_row_run schema' none later noCreate
    have whole : (machine Unit state).run (start db) (es ++ es') = some s' := by
      rw [Machine.run_append, ran, Option.bind_some, later]
    have inv := enrolled state db whole
    have ungranted : ∀ u, ¬ Granted state db (es ++ es') t g u := fun u granted =>
      absent (row_of_granted schema whole granted)
    refine ⟨?_, fun u => ?_, ?_⟩
    · rintro e u ⟨id, choice, socket, next, _, found, task⟩
      exact ungranted u (inv.granted_of_enrols found task (.inr ⟨other, rfl⟩))
    · by_contra member
      rcases inv.members () t g u (Bool.not_eq_false _ ▸ member) with ⟨general, _⟩ | granted
      · exact other general
      · exact ungranted u granted
    · intro ok response mem name
      exact absent ((listed_iff ok s'.db t g).mp ⟨response, mem, name⟩).2

/-- The event performs no `CREATE`'s statement. -/
def noUpsert (s : Cluster N) : Event N → Bool
  | .perform id _ =>
      match s.sockets id with
      | some ⟨_, _, _, _, .call (.upsertGroup _ _ _ _) _⟩ => false
      | _ => true
  | _ => true

omit [DecidableEq N] in
theorem not_creates_of_noUpsert {s : Cluster N} {e : Event N} (none : s.noUpsert e = true) :
    ¬ s.Creates e t g := by
  rintro ⟨id, choice, ⟨n, identity, alive, handling, rest⟩, c, u, next, rfl, found, task, _⟩
  obtain rfl : rest = .call (.upsertGroup c t g u) next := task
  simp [noUpsert, found] at none

/-- A user connects and deletes the team. -/
def teamDeleted : List (Event Unit) :=
  [.connect 1 () ⟨"acme", "ada"⟩] ++ performs 1 ++ [.frame 1 (teamFrame .delete)] ++ performs 1

/-- The user creates it first, and the listener hears of it. -/
def teamCreatedDeleted : List (Event Unit) :=
  [.connect 1 () ⟨"acme", "ada"⟩] ++ performs 1 ++ [.frame 1 (teamFrame .create)] ++ performs 8 ++
    [.deliver (), .frame 1 (teamFrame .delete)] ++ performs 1

/-- The `DELETE` of a team that was never created is durable. -/
theorem durable_iff_unknown :
    let state : AppState := ⟨true, fun _ => 0⟩
    ∃ s, Deleted state ⟨[], [], []⟩ teamDeleted s "acme" "team" ∧
      Durable state s "acme" "team" := by
  intro state
  obtain ⟨s, ran, none⟩ : ∃ s ∈ (machine Unit state).run (start ⟨[], [], []⟩) teamDeleted,
      s.db.idsOf "acme" "team" = [] := by decide
  have deleted : Deleted state ⟨[], [], []⟩ teamDeleted s "acme" "team" :=
    ⟨ran, teamDeleted.dropLast, .perform 1 ⟨7, 9, true, 7⟩, [], _, rfl, rfl,
      1, _, _, _, rfl, rfl, rfl⟩
  refine ⟨s, deleted, (durable_iff state (.empty []) (by decide) ran).mpr ?_⟩
  rintro ⟨c, stored⟩
  have listed := Database.mem_idsOf.mpr stored
  rw [none] at listed
  exact List.not_mem_nil listed

/-- A team is created and deleted, and everything is handled. Then its creator joins it. -/
theorem deleted_group_is_joined :
    ¬ ∀ (state : AppState) (db : Database) (es : List (Event Unit)) (s : Cluster Unit)
      (t g : String), db.Schema → g ≠ "general" → Deleted state db es s t g → s.Quiescent →
      Durable state s t g := by
  intro always
  let state : AppState := ⟨true, fun _ => 0⟩
  obtain ⟨s, ran, streams, ended, silent, s', joined, member⟩ :
      ∃ s ∈ (machine Unit state).run (start ⟨[], [], []⟩) teamCreatedDeleted,
        s.streams () = [] ∧ (∀ socket ∈ s.sockets 1, idle socket = true) ∧
        (machine Unit state).Steps (fun s e => s.noUpsert e = true) s
          ([.frame 1 (teamFrame .join)] ++ performs 6) ∧
        ∃ s' ∈ (machine Unit state).run s ([.frame 1 (teamFrame .join)] ++ performs 6),
          s'.member () "acme" "team" "ada" = true := by decide
  have deleted : Deleted state ⟨[], [], []⟩ teamCreatedDeleted s "acme" "team" :=
    ⟨ran, teamCreatedDeleted.dropLast, .perform 1 ⟨7, 9, true, 7⟩, [], _, rfl, rfl,
      1, _, _, _, rfl, rfl, rfl⟩
  have quiet : s.Quiescent := by
    refine quiescent_of_one ran (fun id n identity mem => ?_) (fun _ => streams) ended
    have one : id = 1 ∧ identity = ⟨"acme", "ada"⟩ := by
      simpa [teamCreatedDeleted, performs] using mem
    exact one.1
  have durable := always state _ _ s "acme" "team" (.empty []) (by decide) deleted quiet
  have out := (durable _ s' joined (silent.mono fun _ _ => not_creates_of_noUpsert)).2.1 "ada"
  rw [member] at out
  simp at out

end Cluster

end YappaCore
