import Mathlib.Data.List.Basic

/-!
Contract: logs, which grow at their end.
-/

namespace AiTools.Lib.Log

variable {Entry : Type*}

/-- Every entry is as it has to be behind the entries before it. -/
def Everywhere (holds : List Entry → Entry → Prop) (log : List Entry) : Prop :=
  ∀ before entry after, log = before ++ entry :: after → holds before entry

variable {holds : List Entry → Entry → Prop}

theorem everywhere_nil : Everywhere holds [] := by
  intro before entry after isLog
  exact absurd isLog.symm (List.append_ne_nil_of_right_ne_nil _ (List.cons_ne_nil _ _))

theorem Everywhere.concat {log : List Entry} {last : Entry} (everywhere : Everywhere holds log)
    (isLast : holds log last) : Everywhere holds (log ++ [last]) := by
  intro before entry after isLog
  rcases List.eq_nil_or_concat after with isNil | ⟨front, final, isAfter⟩
  · rw [isNil] at isLog
    obtain ⟨same, sameLast⟩ := List.append_inj' isLog rfl
    cases sameLast
    exact same ▸ isLast
  · rw [isAfter, List.concat_eq_append, ← List.cons_append, ← List.append_assoc] at isLog
    exact everywhere before entry front (List.append_inj' isLog rfl).1

end AiTools.Lib.Log
