import AiTools.Grove.WorktreeStacking

/-!
Contract: the tree that the worktrees of a project are shown as (`worktree-tree.ts`).

The names of a list of worktrees are distinct, so its maps have no key twice.
-/

namespace AiTools.Grove.WorktreeTree

open AiTools.Lib.Keyed AiTools.Grove.Config
open AiTools.Grove.WorktreeStacking (StackedParents EndsAtRoot unseen_lt)

structure Worktree where
  name : String
  path : String
  branch : String
  stackParentName : Option String
deriving DecidableEq

structure WorktreeTreeNode where
  worktree : Worktree
  depth : Nat
  descendantCount : Nat
  children : List WorktreeTreeNode

/-- The loop from `current` on. An empty name is no parent to it. -/
def hasParentCycle (parentByChild : StackedParents) (seen : List String) (current : String) :
    Bool :=
  match _found : parentByChild.find? current with
  | none => false
  | some edge =>
    if edge.parent = "" then false
    else if current ∈ seen then true
    else hasParentCycle parentByChild (current :: seen) edge.parent
termination_by (parentByChild.entries.filter (·.child ∉ seen)).length
decreasing_by
  obtain ⟨isIn, isCurrent⟩ := Table.find?_eq_some_iff.mp _found
  subst isCurrent
  exact unseen_lt isIn ‹_›

/-- The edge to another worktree of the list. -/
def parentEdge? (worktrees : List Worktree) (worktree : Worktree) : Option StackedParent :=
  match worktree.stackParentName with
  | none => none
  | some parentName =>
    if parentName ≠ worktree.name ∧ parentName ∈ worktrees.map Worktree.name then
      some ⟨worktree.name, parentName⟩
    else none

variable {worktrees : List Worktree}

theorem child_of_parentEdge? {worktree : Worktree} {edge : StackedParent}
    (isEdge : parentEdge? worktrees worktree = some edge) :
    edge.child = worktree.name := by
  unfold parentEdge? at isEdge
  split at isEdge
  · cases isEdge
  · split_ifs at isEdge
    cases isEdge
    rfl

theorem map_child_sublist (listed worktrees : List Worktree) :
    ((worktrees.filterMap (parentEdge? listed)).map StackedParent.child).Sublist
      (worktrees.map Worktree.name) := by
  induction worktrees with
  | nil => exact .slnil
  | cons worktree rest ih =>
    cases isEdge : parentEdge? listed worktree with
    | none =>
      rw [List.filterMap_cons_none isEdge]
      exact ih.cons _
    | some edge =>
      rw [List.filterMap_cons_some isEdge, List.map_cons, List.map_cons,
        child_of_parentEdge? isEdge]
      exact ih.cons_cons _

def parentByChild (worktrees : Table Worktree.name) : StackedParents where
  entries := worktrees.entries.filterMap (parentEdge? worktrees.entries)
  nodup := worktrees.nodup.sublist (map_child_sublist _ _)

def invalidChildren (worktrees : Table Worktree.name) : List String :=
  ((parentByChild worktrees).entries.map StackedParent.child).filter
    (hasParentCycle (parentByChild worktrees) [])

/-- The name under which the loop over the worktrees puts one of them. -/
def parentName? (worktrees : Table Worktree.name) (worktree : Worktree) : Option String :=
  match (parentByChild worktrees).find? worktree.name with
  | none => none
  | some edge =>
    if edge.parent ≠ "" ∧ worktree.name ∉ invalidChildren worktrees then some edge.parent
    else none

def childrenByParent (worktrees : Table Worktree.name) (parentName : String) : List Worktree :=
  worktrees.entries.filter fun worktree => parentName? worktrees worktree = some parentName

def roots (worktrees : Table Worktree.name) : List Worktree :=
  worktrees.entries.filter fun worktree => parentName? worktrees worktree = none

theorem unvisited_lt {child : Worktree} {ancestors : List String} (isIn : child ∈ worktrees)
    (isNew : child.name ∉ ancestors) :
    (worktrees.filter (·.name ∉ child.name :: ancestors)).length <
      (worktrees.filter (·.name ∉ ancestors)).length := by
  have isPart : worktrees.filter (·.name ∉ child.name :: ancestors) =
      (worktrees.filter (·.name ∉ ancestors)).filter (·.name ≠ child.name) := by
    rw [List.filter_filter]
    refine List.filter_congr fun other _ => ?_
    rw [Bool.eq_iff_iff, Bool.and_eq_true, decide_eq_true_eq, decide_eq_true_eq,
      decide_eq_true_eq, List.mem_cons, not_or]
  rw [isPart, List.length_filter_lt_length_iff_exists]
  refine ⟨child, List.mem_filter.mpr ⟨isIn, decide_eq_true isNew⟩, ?_⟩
  simp

def buildNode (worktrees : Table Worktree.name) (worktree : Worktree) (depth : Nat)
    (ancestors : List String) : WorktreeTreeNode :=
  let nextAncestors := worktree.name :: ancestors
  let below := (childrenByParent worktrees worktree.name).filter (·.name ∉ nextAncestors)
  let children := below.attach.map fun child =>
    buildNode worktrees child.1 (depth + 1) nextAncestors
  { worktree, depth
    descendantCount := children.foldl (fun count child => count + 1 + child.descendantCount) 0
    children }
termination_by (worktrees.entries.filter (·.name ∉ worktree.name :: ancestors)).length
decreasing_by
  have isBelow := List.mem_filter.mp child.2
  exact unvisited_lt (List.mem_filter.mp isBelow.1).1 (of_decide_eq_true isBelow.2)

mutual

/-- A node and those beneath it, each with the worktrees that are shown above it. -/
def shown (above : List Worktree) : WorktreeTreeNode → List (List Worktree × WorktreeTreeNode)
  | ⟨worktree, depth, descendantCount, children⟩ =>
    (above, ⟨worktree, depth, descendantCount, children⟩) :: shownAll (above ++ [worktree]) children

def shownAll (above : List Worktree) :
    List WorktreeTreeNode → List (List Worktree × WorktreeTreeNode)
  | [] => []
  | node :: rest => shown above node ++ shownAll above rest

end

/-- The nodes that are built, so the names that are visited. -/
def visited (tree : List WorktreeTreeNode) : List String :=
  (shownAll [] tree).map fun item => item.2.worktree.name

def buildWorktreeTree (worktrees : Table Worktree.name) : List WorktreeTreeNode :=
  worktrees.entries.foldl (fun tree worktree =>
      if worktree.name ∈ visited tree then tree
      else tree ++ [buildNode worktrees worktree 0 []])
    ((roots worktrees).map fun root => buildNode worktrees root 0 [])

/-- The parent is another worktree that exists. -/
def HasParent (worktrees : List Worktree) (child parent : String) : Prop :=
  ∃ worktree ∈ worktrees, worktree.name = child ∧ worktree.stackParentName = some parent ∧
    parent ≠ child ∧ parent ∈ worktrees.map Worktree.name

/-- The parent exists, and the ancestors reach a root without a cycle. -/
def Placed (worktrees : List Worktree) (worktree parent : Worktree) : Prop :=
  HasParent worktrees worktree.name parent.name ∧
    ∃ count, EndsAtRoot (HasParent worktrees) worktree.name count

structure Faithful (worktrees : List Worktree) (tree : List WorktreeTreeNode) : Prop where
  once : ((shownAll [] tree).map fun item => item.2.worktree).Perm worktrees
  roots : ∀ worktree ∈ worktrees, worktree ∈ tree.map WorktreeTreeNode.worktree ↔
    ¬∃ parent ∈ worktrees, Placed worktrees worktree parent
  children : ∀ item ∈ shownAll [] tree, ∀ worktree ∈ worktrees,
    worktree ∈ item.2.children.map WorktreeTreeNode.worktree ↔
      Placed worktrees worktree item.2.worktree
  depth : ∀ item ∈ shownAll [] tree, item.2.depth = item.1.length
  descendantCount : ∀ item ∈ shownAll [] tree,
    item.2.descendantCount + 1 = (shown item.1 item.2).length
  rootOrder : (tree.map WorktreeTreeNode.worktree).Sublist worktrees
  siblingOrder : ∀ item ∈ shownAll [] tree,
    (item.2.children.map WorktreeTreeNode.worktree).Sublist worktrees

end AiTools.Grove.WorktreeTree
