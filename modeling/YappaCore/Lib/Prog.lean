import Mathlib.Data.List.Forall2

/-!
Effectful programs as trees of operations: `Prog Op Ans α` performs operations
`op : Op`, receives an answer in `Ans op` for each, and ends with a value. The
tree says what a program asks for and in which order; what an operation does is
left to whoever runs it, one operation at a time (`Prog.call`) or to the end
(`Prog.exec`).

Seven readings of the paths of a program, with their rules for sequencing:

* `Always P`: every operation of every path satisfies `P`;
* `May P`: some path performs an operation in `P`;
* `Must A P`: every path whose answers satisfy `A` performs one;
* `Before Q P`: on every path, no operation in `P` comes before one in `Q`;
* `Followed A P Q`: after an operation in `P`, every path whose answers satisfy `A`
  performs one in `Q`;
* `Awaits G P`: on every path, an operation in `P` comes only after one that got an
  answer in `G`;
* `Informed tell P K`: on every path, each operation satisfies `P` of what is known by then,
  which is `K` and what the answers told.

`Path` is one path up to some point, and `Course` that of programs that are run one after the other.
`Within` bounds the length of every path; `Yields` and `Returns` say what comes out on every path,
and on every path to the end.
-/

namespace Lib

/-- A program over the operations `Op` with answers `Ans`. -/
inductive Prog (Op : Type) (Ans : Op → Type) (α : Type) where
  | ret (value : α)
  | call (op : Op) (next : Ans op → Prog Op Ans α)

namespace Prog

variable {Op : Type} {Ans : Op → Type} {α β : Type}

def bind : Prog Op Ans α → (α → Prog Op Ans β) → Prog Op Ans β
  | .ret value, f => f value
  | .call op next, f => .call op fun answer => (next answer).bind f

instance : Monad (Prog Op Ans) where
  pure := .ret
  bind := bind

/-- The program that performs `op` and returns its answer. -/
def perform (op : Op) : Prog Op Ans (Ans op) := .call op .ret

/-! ### Running to the end -/

/-- Run a program to its end against a handler that answers each operation and
updates a state. -/
def exec {σ : Type} (handler : (op : Op) → σ → Ans op × σ) : Prog Op Ans α → σ → α × σ
  | .ret value, s => (value, s)
  | .call op next, s => exec handler (next (handler op s).1) (handler op s).2

@[simp] theorem exec_call {σ : Type} (handler : (op : Op) → σ → Ans op × σ) (op : Op)
    (next : Ans op → Prog Op Ans α) (s : σ) :
    exec handler (call op next) s = exec handler (next (handler op s).1) (handler op s).2 := rfl

/-! ### Paths -/

/-- Every operation of every path satisfies `P`. -/
def Always (P : Op → Prop) : Prog Op Ans α → Prop
  | .ret _ => True
  | .call op next => P op ∧ ∀ answer, (next answer).Always P

/-- Some path performs an operation satisfying `P`. -/
def May (P : Op → Prop) : Prog Op Ans α → Prop
  | .ret _ => False
  | .call op next => P op ∨ ∃ answer, (next answer).May P

/-- Every path whose answers satisfy `A` performs an operation satisfying `P`. -/
def Must (A : (op : Op) → Ans op → Prop) (P : Op → Prop) : Prog Op Ans α → Prop
  | .ret _ => False
  | .call op next => P op ∨ ∀ answer, A op answer → (next answer).Must A P

/-- On every path, no operation in `P` comes before one in `Q`. -/
def Before (Q P : Op → Prop) : Prog Op Ans α → Prop
  | .ret _ => True
  | .call op next => Q op ∨ (¬ P op ∧ ∀ answer, (next answer).Before Q P)

/-- After an operation in `P`, every path whose answers satisfy `A` performs one in `Q`. -/
def Followed (A : (op : Op) → Ans op → Prop) (P Q : Op → Prop) : Prog Op Ans α → Prop
  | .ret _ => True
  | .call op next => (P op → ∀ answer, A op answer → (next answer).Must A Q) ∧
      ∀ answer, (next answer).Followed A P Q

/-- On every path, an operation in `P` comes only after one that got an answer in `G`. -/
def Awaits (G : (op : Op) → Ans op → Prop) (P : Op → Prop) : Prog Op Ans α → Prop
  | .ret _ => True
  | .call op next => ¬ P op ∧ ∀ answer, G op answer ∨ (next answer).Awaits G P

/-- On every path, each operation satisfies `P` of what is known by then: `K` and what the
answers before it told. -/
def Informed {Fact : Type} (tell : (op : Op) → Ans op → Fact → Prop)
    (P : (Fact → Prop) → Op → Prop) (K : Fact → Prop) : Prog Op Ans α → Prop
  | .ret _ => True
  | .call op next => P K op ∧
      ∀ answer, (next answer).Informed tell P fun fact => K fact ∨ tell op answer fact

section Paths

variable {P P' Q : Op → Prop} {A : (op : Op) → Ans op → Prop}

@[simp] theorem may_ret (value : α) : ¬ (ret value : Prog Op Ans α).May P := id

@[simp] theorem must_ret (value : α) : ¬ (ret value : Prog Op Ans α).Must A P := id

theorem Always.mono (weaker : ∀ op, P op → P' op) {p : Prog Op Ans α} (h : p.Always P) :
    p.Always P' := by
  induction p with
  | ret value => trivial
  | call op next ih => exact ⟨weaker op h.1, fun answer => ih answer (h.2 answer)⟩

theorem Always.bind {p : Prog Op Ans α} {f : α → Prog Op Ans β} (first : p.Always P)
    (rest : ∀ value, (f value).Always P) : (p >>= f).Always P := by
  induction p with
  | ret value => exact rest value
  | call op next ih => exact ⟨first.1, fun answer => ih answer (first.2 answer)⟩

/-- An operation that may be performed satisfies what always holds. -/
theorem Always.of_may {p : Prog Op Ans α} (always : p.Always P) (may : p.May Q) :
    ∃ op, P op ∧ Q op := by
  induction p with
  | ret value => exact absurd may (may_ret value)
  | call op next ih =>
      rcases may with here | ⟨answer, later⟩
      · exact ⟨op, always.1, here⟩
      · exact ih answer (always.2 answer) later

/-- What holds of each operation that may be performed always holds. -/
theorem always_of_may {p : Prog Op Ans α} (each : ∀ op, p.May (· = op) → P op) : p.Always P := by
  induction p with
  | ret value => trivial
  | call op next ih =>
      exact ⟨each op (.inl rfl), fun answer =>
        ih answer fun later may => each later (.inr ⟨answer, may⟩)⟩

/-- What comes after a program that ends is performed. -/
theorem Must.bind {p : Prog Op Ans α} {f : α → Prog Op Ans β}
    (rest : ∀ value, (f value).Must A P) : (p >>= f).Must A P := by
  induction p with
  | ret value => exact rest value
  | call op next ih => exact .inr fun answer _ => ih answer

/-- A program that never performs `P` never performs it too early. -/
theorem Always.before {p : Prog Op Ans α} (h : p.Always fun op => ¬ P op) : p.Before Q P := by
  induction p with
  | ret value => trivial
  | call op next ih => exact .inr ⟨h.1, fun answer => ih answer (h.2 answer)⟩

/-- A program that never performs `P` need not perform anything after it. -/
theorem Always.followed {p : Prog Op Ans α} (h : p.Always fun op => ¬ P op) :
    p.Followed A P Q := by
  induction p with
  | ret value => trivial
  | call op next ih => exact ⟨fun here => absurd here h.1, fun answer => ih answer (h.2 answer)⟩

/-- Waiting starts after a program that does not perform `P`. -/
theorem Awaits.bind {p : Prog Op Ans α} {f : α → Prog Op Ans β}
    (silent : p.Always fun op => ¬ P op) (rest : ∀ value, (f value).Awaits A P) :
    (p >>= f).Awaits A P := by
  induction p with
  | ret value => exact rest value
  | call op next ih => exact ⟨silent.1, fun answer => .inr (ih answer (silent.2 answer))⟩

/-- What is done knowing less is done knowing more. -/
theorem Informed.mono {Fact : Type} {tell : (op : Op) → Ans op → Fact → Prop}
    {P : (Fact → Prop) → Op → Prop}
    (more : ∀ (K K' : Fact → Prop) (op : Op), (∀ fact, K fact → K' fact) → P K op → P K' op)
    {K K' : Fact → Prop} (known : ∀ fact, K fact → K' fact) {p : Prog Op Ans α}
    (informed : p.Informed tell P K) : p.Informed tell P K' := by
  induction p generalizing K K' with
  | ret value => trivial
  | call op next ih =>
      exact ⟨more K K' op known informed.1, fun answer =>
        ih answer (fun fact => Or.imp_left (known fact)) (informed.2 answer)⟩

end Paths

/-! ### What was done by some point -/

/-- `Path p acts q`: of the program `p` the operations `acts` were done and answered, and `q` is
left. -/
inductive Path : Prog Op Ans α → List ((op : Op) × Ans op) → Prog Op Ans α → Prop
  | nil (p) : Path p [] p
  | cons {op : Op} {next : Ans op → Prog Op Ans α} {q acts} (answer : Ans op)
      (rest : Path (next answer) acts q) : Path (call op next) (⟨op, answer⟩ :: acts) q

theorem Path.snoc {p : Prog Op Ans α} {acts : List ((op : Op) × Ans op)} {op : Op}
    {next : Ans op → Prog Op Ans α} (path : Path p acts (call op next)) (answer : Ans op) :
    Path p (acts ++ [⟨op, answer⟩]) (next answer) := by
  generalize left : call op next = q at path
  induction path with
  | nil p =>
      rw [← left]
      exact .cons answer (.nil _)
  | cons earlier rest ih => exact .cons earlier (ih left)

/-- The program was run to its end. -/
def Ended (p : Prog Op Ans α) (acts : List ((op : Op) × Ans op)) : Prop :=
  ∃ value, Path p acts (ret value)

/-- The program was run, perhaps not to its end. -/
def Begun (p : Prog Op Ans α) (acts : List ((op : Op) × Ans op)) : Prop := ∃ q, Path p acts q

theorem Ended.begun {p : Prog Op Ans α} {acts : List ((op : Op) × Ans op)} (ended : p.Ended acts) :
    p.Begun acts := by
  obtain ⟨value, path⟩ := ended
  exact ⟨ret value, path⟩

/-- No path has more than so many operations. -/
def Within : Prog Op Ans α → ℕ → Prop
  | .ret _, _ => True
  | .call _ _, 0 => False
  | .call _ next, n + 1 => ∀ answer, (next answer).Within n

section Within

variable {p : Prog Op Ans α} {m n : ℕ}

theorem within_ret (value : α) : (ret value : Prog Op Ans α).Within n := trivial

theorem Within.call {op : Op} {next : Ans op → Prog Op Ans α}
    (rest : ∀ answer, (next answer).Within n) : (call op next).Within (n + 1) := rest

theorem Within.mono (within : p.Within m) (le : m ≤ n) : p.Within n := by
  induction p generalizing m n with
  | ret value => trivial
  | call op next ih =>
      cases m with
      | zero => exact within.elim
      | succ m =>
          cases n with
          | zero => omega
          | succ n => exact fun answer => ih answer (within answer) (Nat.le_of_succ_le_succ le)

theorem Within.bind {f : α → Prog Op Ans β} (first : p.Within m)
    (rest : ∀ value, (f value).Within n) : (p >>= f).Within (m + n) := by
  induction p generalizing m with
  | ret value => exact (rest value).mono (Nat.le_add_left n m)
  | call op next ih =>
      cases m with
      | zero => exact first.elim
      | succ m =>
          rw [Nat.succ_add]
          exact fun answer => ih answer (first answer)

theorem Within.of_begun (within : p.Within n) {acts : List ((op : Op) × Ans op)}
    (begun : p.Begun acts) : acts.length ≤ n := by
  obtain ⟨q, path⟩ := begun
  induction path generalizing n with
  | nil p => exact Nat.zero_le n
  | cons answer rest ih =>
      cases n with
      | zero => exact within.elim
      | succ n => exact Nat.succ_le_succ (ih (within answer))

end Within

/-- Programs run one after the other: all but the last to their end, and of the last `q` is
left. -/
inductive Course :
    List (Prog Op Ans α) → List (List ((op : Op) × Ans op)) → Prog Op Ans α → Prop
  | intro {earlier traces last acts q} (ended : List.Forall₂ Ended earlier traces)
      (path : Path last acts q) : Course (earlier ++ [last]) (traces ++ [acts]) q

section Courses

variable {programs : List (Prog Op Ans α)} {traces : List (List ((op : Op) × Ans op))}
  {q : Prog Op Ans α}

/-- The next operation is the last program's. -/
theorem Course.call {op : Op} {next : Ans op → Prog Op Ans α}
    (course : Course programs traces (call op next)) (answer : Ans op) :
    ∃ traces', Course programs traces' (next answer) ∧
      traces'.flatten = traces.flatten ++ [⟨op, answer⟩] := by
  cases course with
  | @intro earlier traces last acts _ ended path =>
      refine ⟨traces ++ [acts ++ [⟨op, answer⟩]], .intro ended (path.snoc answer), ?_⟩
      simp

/-- A program is started when the last one has ended. -/
theorem Course.start {value : α} (course : Course programs traces (ret value))
    (p : Prog Op Ans α) : Course (programs ++ [p]) (traces ++ [[]]) p := by
  cases course with
  | intro ended path =>
      exact .intro (List.rel_append ended (.cons ⟨value, path⟩ .nil)) (.nil p)

theorem Course.begun (course : Course programs traces q) : List.Forall₂ Begun programs traces := by
  cases course with
  | intro ended path =>
      exact List.rel_append (ended.imp fun _ _ => Ended.begun) (.cons ⟨q, path⟩ .nil)

theorem Course.ended {value : α} (course : Course programs traces (ret value)) :
    List.Forall₂ Ended programs traces := by
  cases course with
  | intro ended path => exact List.rel_append ended (.cons ⟨value, path⟩ .nil)

end Courses

section Outputs

variable {O : Type} {out : ((op : Op) × Ans op) → List O} {A : (op : Op) → Ans op → Prop}

/-- At every point of every path, what came out of it satisfies `R`. -/
def Yields (out : ((op : Op) × Ans op) → List O) (R : List O → Prop) : Prog Op Ans α → Prop
  | .ret _ => R []
  | .call op next => R [] ∧
      ∀ answer, (next answer).Yields out fun outputs => R (out ⟨op, answer⟩ ++ outputs)

/-- At the end of every path whose answers satisfy `A`, what came out of it satisfies `R`. -/
def Returns (A : (op : Op) → Ans op → Prop) (out : ((op : Op) × Ans op) → List O)
    (R : List O → Prop) : Prog Op Ans α → Prop
  | .ret _ => R []
  | .call op next =>
      ∀ answer, A op answer →
        (next answer).Returns A out fun outputs => R (out ⟨op, answer⟩ ++ outputs)

theorem Yields.of_begun {R : List O → Prop} {p : Prog Op Ans α} (yields : p.Yields out R)
    {acts : List ((op : Op) × Ans op)} (begun : p.Begun acts) : R (acts.flatMap out) := by
  obtain ⟨q, path⟩ := begun
  induction path generalizing R with
  | nil p =>
      cases p with
      | ret value => exact yields
      | call op next => exact yields.1
  | cons answer rest ih => exact ih (yields.2 answer)

theorem Returns.of_ended {R : List O → Prop} {p : Prog Op Ans α} (returns : p.Returns A out R)
    {acts : List ((op : Op) × Ans op)} (ended : p.Ended acts)
    (answers : ∀ act ∈ acts, A act.1 act.2) : R (acts.flatMap out) := by
  obtain ⟨value, path⟩ := ended
  generalize left : ret value = q at path
  induction path generalizing R with
  | nil p =>
      rw [← left] at returns
      exact returns
  | cons answer rest ih =>
      rw [List.forall_mem_cons] at answers
      exact ih (returns answer answers.1) answers.2 left

/-- An operation without an output. -/
theorem Yields.call {R : List O → Prop} {op : Op} {next : Ans op → Prog Op Ans α} (nil : R [])
    (silent : ∀ answer, out ⟨op, answer⟩ = []) (rest : ∀ answer, (next answer).Yields out R) :
    (call op next).Yields out R := by
  refine ⟨nil, fun answer => ?_⟩
  rw [silent answer]
  exact rest answer

/-- A program of which nothing comes out. -/
theorem Always.yields {p : Prog Op Ans α}
    (silent : p.Always fun op => ∀ answer, out ⟨op, answer⟩ = []) {R : List O → Prop} (nil : R []) :
    p.Yields out R := by
  induction p with
  | ret value => exact nil
  | call op next ih => exact .call nil silent.1 fun answer => ih answer (silent.2 answer)

theorem Returns.call {R : List O → Prop} {op : Op} {next : Ans op → Prog Op Ans α}
    (silent : ∀ answer, out ⟨op, answer⟩ = [])
    (rest : ∀ answer, A op answer → (next answer).Returns A out R) :
    (call op next).Returns A out R := by
  intro answer holds
  rw [silent answer]
  exact rest answer holds

end Outputs

end Prog

end Lib
