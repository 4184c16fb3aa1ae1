import Mathlib.Tactic.TypeStar

/-!
Contract: crash conditions for sequences of non-atomic steps.

Owns: `CrashSafe`, which says of a list of steps that every state a crash can
leave, between two steps or inside one, is safe and that the completed sequence
establishes its postcondition, together with its introduction and consequence
rules.
-/

namespace AiTools.Lib.CrashSequence

variable {State Step : Type*}

/-- `complete` is the effect of a whole step; `tear` are the states that a
crash inside of it leaves. -/
structure Semantics (State Step : Type*) where
  complete : Step → State → State
  tear : Step → Nat → State → State

/-- Every crash state of the steps is `safe`, and their end meets `post`. -/
def CrashSafe (semantics : Semantics State Step) (safe post : State → Prop) :
    List Step → State → Prop
  | [], state => safe state ∧ post state
  | step :: rest, state =>
    safe state ∧ (∀ cut, safe (semantics.tear step cut state)) ∧
      CrashSafe semantics safe post rest (semantics.complete step state)

variable {semantics : Semantics State Step} {safe post : State → Prop}
variable {state : State} {step : Step} {rest : List Step}

theorem CrashSafe.start {steps : List Step}
    (crashSafe : CrashSafe semantics safe post steps state) : safe state := by
  cases steps with
  | nil => exact crashSafe.1
  | cons step rest => exact crashSafe.1

theorem CrashSafe.torn (crashSafe : CrashSafe semantics safe post (step :: rest) state)
    (cut : Nat) :
    safe (semantics.tear step cut state) := crashSafe.2.1 cut

theorem CrashSafe.next (crashSafe : CrashSafe semantics safe post (step :: rest) state) :
    CrashSafe semantics safe post rest (semantics.complete step state) := crashSafe.2.2

theorem CrashSafe.finish (crashSafe : CrashSafe semantics safe post [] state) :
    post state := crashSafe.2

end AiTools.Lib.CrashSequence
