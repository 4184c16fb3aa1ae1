import Mathlib.Logic.Basic
import Mathlib.Logic.Function.Basic
import Mathlib.Tactic.TypeStar

/-!
Contract: labelled transition systems given by a partial step function, their
runs, and the induction rules for invariants of runs.

Owns:
- `execute`, the replay of one explicit schedule;
- `Run`, the states reached when every step taken meets a condition;
- the invariant rule `Run.invariant`;
- which threads a table of threads has when one entry changed.

A system supplies its own state, label and step function, and a concurrency model is an
interleaving of the labels of the parties.
-/

namespace AiTools.Lib.Transition

variable {State Label : Type*}

/-- Replay a schedule. `none` when one of its steps is not enabled. -/
def execute (step : State → Label → Option State) : State → List Label → Option State
  | state, [] => some state
  | state, label :: rest =>
    match step state label with
    | none => none
    | some next => execute step next rest

/-- The states reached from `start` by steps that all meet `ok`. -/
inductive Run (step : State → Label → Option State) (ok : State → Label → Prop)
    (start : State) : State → Prop where
  | refl : Run step ok start start
  | tail {state next : State} (label : Label) (before : Run step ok start state)
      (allowed : ok state label) (ran : step state label = some next) :
      Run step ok start next

/-- The states reached from `start` by any steps. -/
abbrev Reachable (step : State → Label → Option State) (start : State) : State → Prop :=
  Run step (fun _ _ => True) start

variable {step : State → Label → Option State} {ok : State → Label → Prop} {start : State}
variable {state finish : State}

/-- What holds at the start and is kept by every allowed step holds in every
state of every run. -/
theorem Run.invariant {Holds : State → Prop} (atStart : Holds start)
    (preserved : ∀ state label next, Holds state → ok state label →
      step state label = some next → Holds next)
    {state : State} (run : Run step ok start state) : Holds state := by
  induction run with
  | refl => exact atStart
  | tail label _ allowed ran ih =>
    exact preserved _ label _ ih allowed ran

theorem Run.trans {middle : State} (first : Run step ok start middle)
    (second : Run step ok middle finish) : Run step ok start finish := by
  induction second with
  | refl => exact first
  | tail label _ allowed ran ih =>
    exact .tail label ih allowed ran

theorem Run.reachable (run : Run step ok start state) : Reachable step start state := by
  induction run with
  | refl => exact .refl
  | tail label _ _ ran ih => exact .tail label ih trivial ran

/-- Every step of a schedule is enabled and allowed. -/
def Permitted (step : State → Label → Option State) (ok : State → Label → Prop) :
    State → List Label → Prop
  | _, [] => True
  | state, label :: rest =>
    ok state label ∧ ∃ next, step state label = some next ∧ Permitted step ok next rest

instance Permitted.decide (step : State → Label → Option State) (ok : State → Label → Prop)
    [∀ state label, Decidable (ok state label)] :
    ∀ (start : State) (labels : List Label), Decidable (Permitted step ok start labels)
  | _, [] => isTrue trivial
  | start, label :: rest =>
    match ran : step start label with
    | none => isFalse fun permitted => by
      obtain ⟨_, next, taken, _⟩ := permitted
      rw [ran] at taken
      cases taken
    | some next =>
      have := Permitted.decide step ok next rest
      decidable_of_iff (ok start label ∧ Permitted step ok next rest) (by
        rw [Permitted, ran]
        constructor
        · rintro ⟨allowed, later⟩
          exact ⟨allowed, next, rfl, later⟩
        · rintro ⟨allowed, _, taken, later⟩
          cases taken
          exact ⟨allowed, later⟩)

theorem run_of_permitted : ∀ {start : State} (labels : List Label), Permitted step ok start labels →
      execute step start labels = some finish → Run step ok start finish
  | start, [], _, replayed => by
    have same : start = finish := Option.some.inj replayed
    subst same
    exact .refl
  | start, label :: rest, permitted, replayed => by
    obtain ⟨allowed, next, ran, later⟩ := permitted
    rw [execute, ran] at replayed
    have first : Run step ok start next := .tail label .refl allowed ran
    exact first.trans (run_of_permitted rest later replayed)

/-- A schedule that replays is a run, when its labels are allowed in every
state. -/
theorem run_of_execute :
    ∀ {start : State} (labels : List Label), execute step start labels = some finish →
      (∀ label ∈ labels, ∀ state, ok state label) → Run step ok start finish
  | start, [], replayed, _ => by
    have same : start = finish := Option.some.inj replayed
    subst same
    exact .refl
  | start, label :: rest, replayed, allowed => by
    rw [execute] at replayed
    cases ran : step start label with
    | none => simp [ran] at replayed
    | some next =>
      rw [ran] at replayed
      have first : Run step ok start next :=
        .tail label .refl (allowed label (by simp) start) ran
      exact first.trans (run_of_execute rest replayed
        fun later member => allowed later (List.mem_cons_of_mem _ member))

theorem reachable_of_execute {start : State} (labels : List Label)
    (replayed : execute step start labels = some finish) : Reachable step start finish :=
  run_of_execute labels replayed fun _ _ _ => trivial

theorem update_eq_some {Thread : Type*} {threads : Nat → Option Thread} {id other : Nat}
    {next : Option Thread} {found : Thread}
    (isFound : Function.update threads id next other = some found) :
    other = id ∧ next = some found ∨ other ≠ id ∧ threads other = some found := by
  by_cases same : other = id
  · subst same
    rw [Function.update_self] at isFound
    exact .inl ⟨rfl, isFound⟩
  · rw [Function.update_of_ne same] at isFound
    exact .inr ⟨same, isFound⟩

end AiTools.Lib.Transition
