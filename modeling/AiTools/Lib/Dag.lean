import Mathlib.Data.Fintype.Card
import Mathlib.Data.Set.Finite.Basic
import Mathlib.Logic.Relation
import Mathlib.Order.WellFounded

/-!
Contract: relations without cycles, and how they grow.
-/

namespace AiTools.Lib.Dag

open Relation

variable {Node : Type*} {edge : Node → Node → Prop}

/-- No node reaches itself. -/
def Acyclic (edge : Node → Node → Prop) : Prop := ∀ node, ¬ TransGen edge node node

theorem Acyclic.mono {fewer : Node → Node → Prop} (acyclic : Acyclic edge)
    (sub : ∀ first second, fewer first second → edge first second) : Acyclic fewer :=
  fun node cycle => acyclic node (TransGen.mono sub _ _ cycle)

/-- The relation with edges from `source` to each of `targets`. -/
def extend (edge : Node → Node → Prop) (source : Node) (targets : Node → Prop)
    (first second : Node) : Prop :=
  edge first second ∨ first = source ∧ targets second

variable {source : Node} {targets : Node → Prop}

/-- A path either was there before, or goes through `source` and one of its targets. -/
theorem extend_path {first last : Node} (path : TransGen (extend edge source targets) first last) :
    TransGen edge first last ∨
      ReflTransGen edge first source ∧ ∃ target, targets target ∧ ReflTransGen edge target last := by
  induction path with
  | single step =>
    rcases step with old | ⟨isSource, isTarget⟩
    · exact .inl (.single old)
    · rw [isSource]
      exact .inr ⟨.refl, _, isTarget, .refl⟩
  | tail _ step ih =>
    rcases ih with before | ⟨toSource, target, isTarget, before⟩
    · rcases step with old | ⟨isSource, isTarget⟩
      · exact .inl (before.tail old)
      · rw [isSource] at before
        exact .inr ⟨before.to_reflTransGen, _, isTarget, .refl⟩
    · rcases step with old | ⟨_, isNew⟩
      · exact .inr ⟨toSource, target, isTarget, before.tail old⟩
      · exact .inr ⟨toSource, _, isNew, .refl⟩

theorem Acyclic.extend (acyclic : Acyclic edge)
    (others : ∀ target, targets target → target ≠ source)
    (free : ∀ target, targets target → ¬ TransGen edge target source) :
    Acyclic (extend edge source targets) := by
  intro node cycle
  rcases extend_path cycle with before | ⟨toSource, target, isTarget, back⟩
  · exact acyclic node before
  · rcases reflTransGen_iff_eq_or_transGen.mp (back.trans toSource) with same | reaches
    · exact others target isTarget same.symm
    · exact free target isTarget reaches

theorem Acyclic.exists_least (acyclic : Acyclic edge) {nodes : List Node}
    (nonempty : nodes ≠ []) :
    ∃ node ∈ nodes, ∀ other ∈ nodes, ¬ edge node other := by
  let reaches : { node // node ∈ nodes } → { node // node ∈ nodes } → Prop :=
    fun first second => TransGen edge second.val first.val
  have : Finite { node // node ∈ nodes } := List.finite_toSet nodes
  have : Std.Irrefl reaches := ⟨fun node => acyclic node.val⟩
  have : IsTrans _ reaches := ⟨fun _ _ _ first second => second.trans first⟩
  have founded : WellFounded reaches := Finite.wellFounded_of_trans_of_irrefl reaches
  obtain ⟨start, isStart⟩ := List.exists_mem_of_ne_nil nodes nonempty
  obtain ⟨⟨least, isLeast⟩, _, never⟩ := founded.has_min Set.univ ⟨⟨start, isStart⟩, trivial⟩
  exact ⟨least, isLeast, fun other isOther step => never ⟨other, isOther⟩ trivial (.single step)⟩

inductive PathOf (edge : Node → Node → Prop) : Nat → Node → Node → Prop where
  | refl {node : Node} : PathOf edge 0 node node
  | step {length : Nat} {first second last : Node} (isEdge : edge first second)
      (rest : PathOf edge length second last) : PathOf edge (length + 1) first last

/-- The longest path out of the node has that length. -/
structure IsHeight (edge : Node → Node → Prop) (node : Node) (height : Nat) : Prop where
  reached : ∃ last, PathOf edge height node last
  longest : ∀ length last, PathOf edge length node last → length ≤ height

section
variable {height : Node → Nat}

theorem isHeight_of (falls : ∀ first second, edge first second → height second < height first)
    (attained : ∀ node, height node = 0 ∨ ∃ next, edge node next ∧ height node = height next + 1)
    (node : Node) : IsHeight edge node (height node) := by
  constructor
  case reached =>
    generalize isHeight : height node = length
    induction length generalizing node with
    | zero => exact ⟨node, .refl⟩
    | succ length ih =>
      rcases attained node with isZero | ⟨next, isEdge, isNext⟩
      · omega
      · obtain ⟨last, rest⟩ := ih next (by omega)
        exact ⟨last, .step isEdge rest⟩
  case longest =>
    intro length last path
    induction path with
    | refl => exact Nat.zero_le _
    | step isEdge _ ih =>
      have isLower := falls _ _ isEdge
      omega

theorem acyclic_of (falls : ∀ first second, edge first second → height second < height first) :
    Acyclic edge := by
  have lower : ∀ first last, TransGen edge first last → height last < height first := by
    intro first last path
    induction path with
    | single isEdge => exact falls _ _ isEdge
    | tail _ isEdge ih => exact (falls _ _ isEdge).trans ih
  exact fun node cycle => Nat.lt_irrefl _ (lower node node cycle)

end

end AiTools.Lib.Dag
