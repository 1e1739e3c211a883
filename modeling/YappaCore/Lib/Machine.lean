import Mathlib.Data.List.Induction

/-!
Labelled machines: a partial step function whose labels carry every choice the
environment makes, so that a run is a list of labels and is reproducible.

* `invariant_trace`: the induction over runs, for properties of the state and of
  the labels read so far that a step preserves when it meets a condition;
  `invariant_steps` is its use for properties of the state alone, `invariant` the one
  for properties that every step preserves.
* `recording`: the machine that also keeps what its steps emit; `run_recording_map` compares
  two records of one run, and `emitted_flow` what goes into a queue and comes out of it.
* `run_of_simulation`: a simulation step by step is one of whole runs.
* `exists_finished`: a machine that can go on until it is finished, but not for ever, finishes.
* `along_iff_steps`: where a violation shows in the very next state, a property
  holds in every state of a run exactly when every step of the run meets the
  condition.
-/

namespace Lib

/-- A machine: `step s e` is the state after the event `e`, if `e` is possible in `s`. -/
structure Machine (S E : Type*) where
  step : S → E → Option S

namespace Machine

variable {S E : Type*} (M : Machine S E)

/-- The state after a list of events. -/
def run (s : S) : List E → Option S
  | [] => some s
  | e :: es => (M.step s e).bind fun s' => run s' es

@[simp] theorem run_nil (s : S) : M.run s [] = some s := rfl

@[simp] theorem run_cons (s : S) (e : E) (es : List E) :
    M.run s (e :: es) = (M.step s e).bind fun s' => M.run s' es := rfl

theorem run_append (s : S) (es fs : List E) :
    M.run s (es ++ fs) = (M.run s es).bind fun s' => M.run s' fs := by
  induction es generalizing s with
  | nil => rfl
  | cons e es ih =>
      cases h : M.step s e with
      | none => simp [h]
      | some s' => simp [h, ih]

/-- A run ending in `e` is a run to some state and a last step from it. -/
theorem run_snoc {s s'' : S} {es : List E} {e : E} :
    M.run s (es ++ [e]) = some s'' ↔ ∃ s', M.run s es = some s' ∧ M.step s' e = some s'' := by
  rw [run_append]
  cases h : M.run s es with
  | none => simp
  | some s' => cases M.step s' e <;> simp

/-! ### Properties of every state, conditions on every step -/

/-- `P` holds in every state the run passes through, the first and the last included. -/
def Along (P : S → Prop) (s : S) : List E → Prop
  | [] => P s
  | e :: es => P s ∧ ∀ s', M.step s e = some s' → Along P s' es

/-- Every step the run takes meets the condition `Ok` on its state and event. -/
def Steps (Ok : S → E → Prop) (s : S) : List E → Prop
  | [] => True
  | e :: es => ∀ s', M.step s e = some s' → Ok s e ∧ Steps Ok s' es

@[simp] theorem steps_nil (Ok : S → E → Prop) (s : S) : M.Steps Ok s [] := trivial

@[simp] theorem steps_cons (Ok : S → E → Prop) (s : S) (e : E) (es : List E) :
    M.Steps Ok s (e :: es) ↔ ∀ s', M.step s e = some s' → Ok s e ∧ M.Steps Ok s' es := Iff.rfl

/-- A decidable condition can be checked along a run. -/
instance decidableSteps (Ok : S → E → Prop) [∀ s e, Decidable (Ok s e)] :
    ∀ s es, Decidable (M.Steps Ok s es)
  | _, [] => isTrue trivial
  | s, e :: es =>
      match stepped : M.step s e with
      | none => isTrue fun _ possible => nomatch stepped.symm.trans possible
      | some t =>
          have := decidableSteps Ok t es
          decidable_of_iff (Ok s e ∧ M.Steps Ok t es)
            ⟨fun both _ possible => Option.some.inj (stepped.symm.trans possible) ▸ both,
              fun all => all t stepped⟩

variable {M}

/-- The condition on a longer run is the condition on its two parts. -/
theorem steps_append {Ok : S → E → Prop} {s s' : S} {es : List E} (ran : M.run s es = some s')
    (fs : List E) : M.Steps Ok s (es ++ fs) ↔ M.Steps Ok s es ∧ M.Steps Ok s' fs := by
  induction es generalizing s with
  | nil =>
      cases ran
      simp
  | cons e es ih =>
      obtain ⟨t, first, rest⟩ := Option.bind_eq_some_iff.mp ran
      simp [first, ih rest, and_assoc]

theorem steps_snoc {Ok : S → E → Prop} {s s' s'' : S} {es : List E} {e : E}
    (ran : M.run s es = some s') (last : M.step s' e = some s'') :
    M.Steps Ok s (es ++ [e]) ↔ M.Steps Ok s es ∧ Ok s' e := by
  rw [steps_append ran]
  simp [last]

/-- A condition that each event of the list meets in every state. -/
theorem steps_of_mem {Ok : S → E → Prop} {es : List E} (all : ∀ e ∈ es, ∀ s, Ok s e) (s : S) :
    M.Steps Ok s es := by
  induction es generalizing s with
  | nil => trivial
  | cons e es ih =>
      intro s' _
      exact ⟨all e List.mem_cons_self s, ih (fun f mem => all f (List.mem_cons_of_mem e mem)) s'⟩

theorem Steps.mono {Ok Ok' : S → E → Prop} (weaker : ∀ s e, Ok s e → Ok' s e) {s : S}
    {es : List E} (steps : M.Steps Ok s es) : M.Steps Ok' s es := by
  induction es generalizing s with
  | nil => trivial
  | cons e es ih =>
      intro s' first
      obtain ⟨ok, rest⟩ := steps s' first
      exact ⟨weaker s e ok, ih rest⟩

/-- Two conditions that every step meets. -/
theorem Steps.and {Ok Ok' : S → E → Prop} {s : S} {es : List E} (first : M.Steps Ok s es)
    (second : M.Steps Ok' s es) : M.Steps (fun s e => Ok s e ∧ Ok' s e) s es := by
  induction es generalizing s with
  | nil => trivial
  | cons e es ih =>
      intro s' next
      obtain ⟨ok, rest⟩ := first s' next
      obtain ⟨ok', rest'⟩ := second s' next
      exact ⟨⟨ok, ok'⟩, ih rest rest'⟩

/-- A condition that follows from another one in the states the run can be in. -/
theorem Steps.of_inv {Ok Ok' : S → E → Prop} {Inv : S → Prop}
    (keeps : ∀ s e s', Inv s → Ok s e → M.step s e = some s' → Inv s')
    (gives : ∀ s e, Inv s → Ok s e → Ok' s e) {s : S} (inv : Inv s) {es : List E}
    (steps : M.Steps Ok s es) : M.Steps Ok' s es := by
  induction es generalizing s with
  | nil => trivial
  | cons e es ih =>
      intro s' next
      obtain ⟨ok, rest⟩ := steps s' next
      exact ⟨gives s e inv ok, ih (keeps s e s' inv ok next) rest⟩

/-- What holds along a run holds where it ends. -/
theorem Along.last {P : S → Prop} {s s' : S} {es : List E} (along : M.Along P s es)
    (ran : M.run s es = some s') : P s' := by
  induction es generalizing s with
  | nil =>
      cases ran
      exact along
  | cons e es ih =>
      obtain ⟨t, first, rest⟩ := Option.bind_eq_some_iff.mp ran
      exact ih (along.2 t first) rest

/-! ### Induction over runs -/

/-- Induction over runs whose steps meet `Ok`, for a property of the events read
so far and the state they lead to. -/
theorem invariant_trace {Ok : S → E → Prop} {Inv : List E → S → Prop} {s₀ : S}
    (init : Inv [] s₀)
    (step : ∀ es s e s', Inv es s → Ok s e → M.step s e = some s' → Inv (es ++ [e]) s')
    {es : List E} {s : S} (ran : M.run s₀ es = some s) (steps : M.Steps Ok s₀ es) :
    Inv es s := by
  induction es using List.reverseRecOn generalizing s with
  | nil =>
      cases ran
      exact init
  | append_singleton es e ih =>
      obtain ⟨t, before, last⟩ := M.run_snoc.mp ran
      obtain ⟨earlier, ok⟩ := (steps_snoc before last).mp steps
      exact step es t e s (ih before earlier) ok last

/-- A property that steps meeting `Ok` preserve holds after every run of such steps. -/
theorem invariant_steps {Ok : S → E → Prop} {Inv : S → Prop} {s₀ : S} (init : Inv s₀)
    (step : ∀ s e s', Inv s → Ok s e → M.step s e = some s' → Inv s')
    {es : List E} {s : S} (ran : M.run s₀ es = some s) (steps : M.Steps Ok s₀ es) : Inv s :=
  @invariant_trace _ _ M Ok (fun _ => Inv) s₀ init (fun _ => step) es s ran steps

/-- Induction over all runs, for a property of the events read so far and the state they
lead to. -/
theorem invariant {Inv : List E → S → Prop} {s₀ : S} (init : Inv [] s₀)
    (step : ∀ es s e s', Inv es s → M.step s e = some s' → Inv (es ++ [e]) s')
    {es : List E} {s : S} (ran : M.run s₀ es = some s) : Inv es s :=
  have free : M.Steps (fun _ _ => True) s₀ es := steps_of_mem (fun _ _ _ => trivial) s₀
  invariant_trace init (fun es s e s' inv _ => step es s e s' inv) ran free

/-- A map under which each step, from a state that meets the invariant, is a step of
another machine takes runs to runs. -/
theorem run_of_simulation {S' : Type*} {M' : Machine S' E} {Inv : S → Prop} (abs : S → S')
    (keeps : ∀ s e s', Inv s → M.step s e = some s' → Inv s')
    (simulates : ∀ s e s', Inv s → M.step s e = some s' → M'.step (abs s) e = some (abs s'))
    {s s' : S} (inv : Inv s) {es : List E} (ran : M.run s es = some s') :
    M'.run (abs s) es = some (abs s') := by
  induction es generalizing s with
  | nil =>
      cases ran
      rfl
  | cons e es ih =>
      obtain ⟨t, first, rest⟩ := Option.bind_eq_some_iff.mp ran
      rw [run_cons, simulates s e t inv first, Option.bind_some]
      exact ih (keeps s e t inv first) rest

/-- Where a good step is possible in every state that is not finished, and no run of good steps is
longer than the bound, one of them finishes. -/
theorem exists_finished {Good : S → E → Prop} {Finished : S → Prop} {s : S} {bound : ℕ}
    (progress : ∀ t, ¬ Finished t → ∃ e t', Good t e ∧ M.step t e = some t')
    (bounded : ∀ es t, M.run s es = some t → M.Steps Good s es → es.length ≤ bound) :
    ∃ es t, M.run s es = some t ∧ M.Steps Good s es ∧ Finished t := by
  have longer : ∀ k, ∃ es t, M.run s es = some t ∧ M.Steps Good s es ∧
      (Finished t ∨ es.length = k) := by
    intro k
    induction k with
    | zero => exact ⟨[], s, rfl, trivial, .inr rfl⟩
    | succ k ih =>
        obtain ⟨es, t, ran, steps, finished | long⟩ := ih
        · exact ⟨es, t, ran, steps, .inl finished⟩
        · by_cases finished : Finished t
          · exact ⟨es, t, ran, steps, .inl finished⟩
          · obtain ⟨e, t', good, next⟩ := progress t finished
            refine ⟨es ++ [e], t', M.run_snoc.mpr ⟨t, ran, next⟩, ?_, .inr ?_⟩
            · exact (steps_snoc ran next).mpr ⟨steps, good⟩
            · rw [List.length_append, long, List.length_singleton]
  obtain ⟨es, t, ran, steps, finished | long⟩ := longer (bound + 1)
  · exact ⟨es, t, ran, steps, finished⟩
  · have := bounded es t ran steps
    omega

/-! ### Recording -/

/-- The machine that keeps a record of what each step emits, a function of the state before it
and of its event. -/
def recording {O : Type*} (M : Machine S E) (emit : S → E → List O) : Machine (S × List O) E where
  step p e := (M.step p.1 e).map fun s => (s, p.2 ++ emit p.1 e)

/-- What the steps of a run emit. -/
def emitted {O : Type*} (M : Machine S E) (emit : S → E → List O) (s : S) : List E → List O
  | [] => []
  | e :: es => emit s e ++ (M.step s e).elim [] fun s' => M.emitted emit s' es

section Recording

variable {O : Type*} {emit : S → E → List O}

theorem emitted_cons {s s' : S} {e : E} (first : M.step s e = some s') (es : List E) :
    M.emitted emit s (e :: es) = emit s e ++ M.emitted emit s' es := by
  simp only [emitted, first, Option.elim_some]

theorem emitted_snoc {s s' s'' : S} {es : List E} {e : E} (ran : M.run s es = some s')
    (last : M.step s' e = some s'') :
    M.emitted emit s (es ++ [e]) = M.emitted emit s es ++ emit s' e := by
  induction es generalizing s with
  | nil =>
      cases ran
      simp [emitted, last]
  | cons e es ih =>
      obtain ⟨t, first, rest⟩ := Option.bind_eq_some_iff.mp ran
      simp only [List.cons_append, emitted, first, Option.elim_some, ih rest, List.append_assoc]

/-- Emissions that only depend on the event. -/
theorem emitted_event {f : E → Option O}
    (each : ∀ s e s', M.step s e = some s' → emit s e = (f e).toList) {s s' : S} {es : List E}
    (ran : M.run s es = some s') : M.emitted emit s es = es.filterMap f := by
  induction es generalizing s with
  | nil => rfl
  | cons e es ih =>
      obtain ⟨t, first, rest⟩ := Option.bind_eq_some_iff.mp ran
      rw [emitted_cons first, each s e t first, ih rest]
      cases emission : f e with
      | none =>
          rw [List.filterMap_cons_none emission]
          rfl
      | some o =>
          rw [List.filterMap_cons_some emission]
          rfl

/-- What the steps emit through a map that keeps joins is the map of what they emit. -/
theorem emitted_map {O' : Type*} (emit : S → E → List O') (map : List O' → List O)
    (nil : map [] = []) (append : ∀ a b, map (a ++ b) = map a ++ map b) (s : S) (es : List E) :
    M.emitted (fun s e => map (emit s e)) s es = map (M.emitted emit s es) := by
  induction es generalizing s with
  | nil => exact nil.symm
  | cons e es ih =>
      unfold emitted
      rw [append]
      congr 1
      cases M.step s e with
      | none => exact nil.symm
      | some s' => exact ih s'

/-- A queue: where each step takes from its front and puts at its end, what a run has taken and
what waits after it are what waited before and what it put in. -/
theorem emitted_flow {waiting : S → List O} {put take : S → E → List O}
    (balance : ∀ s e s', M.step s e = some s' → take s e ++ waiting s' = waiting s ++ put s e)
    {s s' : S} {es : List E} (ran : M.run s es = some s') :
    M.emitted take s es ++ waiting s' = waiting s ++ M.emitted put s es := by
  induction es generalizing s with
  | nil =>
      cases ran
      simp [emitted]
  | cons e es ih =>
      obtain ⟨t, first, rest⟩ := Option.bind_eq_some_iff.mp ran
      simp only [emitted, first, Option.elim_some]
      rw [List.append_assoc, ih rest, ← List.append_assoc, balance s e t first, List.append_assoc]

theorem step_recording {p q : S × List O} {e : E}
    (next : (M.recording emit).step p e = some q) :
    M.step p.1 e = some q.1 ∧ q.2 = p.2 ++ emit p.1 e := by
  obtain ⟨s, there, rfl⟩ := Option.map_eq_some_iff.mp next
  exact ⟨there, rfl⟩

/-- Every run can be recorded. -/
theorem exists_recording {s s' : S} {es : List E} (ran : M.run s es = some s') (record : List O) :
    ∃ record', (M.recording emit).run (s, record) es = some (s', record') := by
  induction es generalizing s record with
  | nil =>
      cases ran
      exact ⟨record, rfl⟩
  | cons e es ih =>
      obtain ⟨t, first, rest⟩ := Option.bind_eq_some_iff.mp ran
      obtain ⟨record', later⟩ := ih rest (record ++ emit s e)
      refine ⟨record', ?_⟩
      rw [run_cons]
      simp only [recording, first, Option.map_some, Option.bind_some]
      exact later

/-- Two records of a run: where every step emits what a map makes of its other emissions,
so does the run. -/
theorem run_recording_map {O' : Type*} {emit' : S → E → List O'} {Ok : S → E → Prop}
    {Inv : S → Prop} (map : List O' → List O) (append : ∀ a b, map (a ++ b) = map a ++ map b)
    (keeps : ∀ s e s', Inv s → M.step s e = some s' → Inv s')
    (emits : ∀ s e s', Inv s → Ok s e → M.step s e = some s' → emit s e = map (emit' s e))
    {s s' : S} {record record' : List O'} {es : List E} (inv : Inv s)
    (ran : (M.recording emit').run (s, record) es = some (s', record'))
    (steps : M.Steps Ok s es) :
    (M.recording emit).run (s, map record) es = some (s', map record') := by
  induction es generalizing s record with
  | nil =>
      cases ran
      rfl
  | cons e es ih =>
      obtain ⟨⟨t, seen⟩, first, rest⟩ := Option.bind_eq_some_iff.mp ran
      obtain ⟨next, grown⟩ := step_recording first
      simp only at next grown
      subst grown
      obtain ⟨ok, later⟩ := steps t next
      rw [run_cons]
      simp only [recording, next, Option.map_some, Option.bind_some]
      rw [emits s e t inv ok next, ← append]
      exact ih (keeps s e t inv next) rest later

end Recording

/-- A violation that shows at once: if good steps keep `Inv`, `Inv` gives `P`, and
`P` after a step means that the step was good, then `P` holds along a run exactly
when every step of the run is good. -/
theorem along_iff_steps {Ok : S → E → Prop} {Inv P : S → Prop}
    (holds : ∀ s, Inv s → P s)
    (keeps : ∀ s e s', Inv s → Ok s e → M.step s e = some s' → Inv s')
    (detects : ∀ s e s', Inv s → M.step s e = some s' → P s' → Ok s e)
    {s : S} (inv : Inv s) (es : List E) : M.Along P s es ↔ M.Steps Ok s es := by
  induction es generalizing s with
  | nil => exact ⟨fun _ => trivial, fun _ => holds s inv⟩
  | cons e es ih =>
      constructor
      · rintro ⟨_, along⟩ s' first
        have now : P s' := by
          cases es with
          | nil => exact along s' first
          | cons f fs => exact (along s' first).1
        have ok := detects s e s' inv first now
        exact ⟨ok, (ih (keeps s e s' inv ok first)).mp (along s' first)⟩
      · intro steps
        refine ⟨holds s inv, fun s' first => ?_⟩
        obtain ⟨ok, rest⟩ := steps s' first
        exact (ih (keeps s e s' inv ok first)).mpr rest

end Machine

end Lib
