import AiTools.Grove.WorktreeTree

/-!
Contract: every worktree is shown once, where its ancestors say.
-/

namespace AiTools.Grove.WorktreeTree

open AiTools.Lib.Keyed AiTools.Grove.Config
open AiTools.Grove.WorktreeStacking (StackedParents EndsAtRoot unseen_lt stackParentChainHasCycle
  filteredStackedParents Links endsAtRoot_of_loop loop_of_endsAtRoot)
open List (foldl_cons map_id map_map mem_cons mem_flatMap mem_map)

variable {worktrees : Table Worktree.name}

/-! ## Parents -/

variable {listed above : List Worktree} {edge : StackedParent} {parents : StackedParents}
  {seen ancestors : List String} {current name : String} {root : Worktree}

theorem parentEdge?_eq_some {worktree : Worktree} : parentEdge? listed worktree = some edge ↔
      edge.child = worktree.name ∧ worktree.stackParentName = some edge.parent ∧
        edge.parent ≠ worktree.name ∧ edge.parent ∈ listed.map Worktree.name := by
  unfold parentEdge?
  cases isParent : worktree.stackParentName with
  | none => simp
  | some parentName =>
    dsimp only
    constructor
    · intro isEdge
      split_ifs at isEdge with isOther
      cases isEdge
      exact ⟨rfl, rfl, isOther.1, isOther.2⟩
    · rintro ⟨isChild, same, isOther⟩
      cases same
      rw [if_pos isOther, ← isChild]

theorem mem_parentByChild {child parent : String} :
    (⟨child, parent⟩ : StackedParent) ∈ (parentByChild worktrees).entries ↔
      HasParent worktrees.entries child parent := by
  unfold parentByChild HasParent
  rw [List.mem_filterMap]
  refine exists_congr fun worktree => and_congr_right fun _ => ?_
  rw [parentEdge?_eq_some]
  constructor
  · rintro ⟨rfl, rest⟩
    exact ⟨rfl, rest⟩
  · rintro ⟨rfl, rest⟩
    exact ⟨rfl, rest⟩

theorem hasParent_of_edge (isEdge : edge ∈ (parentByChild worktrees).entries) :
    HasParent worktrees.entries edge.child edge.parent := mem_parentByChild.mp isEdge

theorem HasParent.names {child parent : String} (hasParent : HasParent listed child parent) :
    child ≠ parent ∧ child ∈ listed.map Worktree.name ∧ parent ∈ listed.map Worktree.name := by
  obtain ⟨worktree, isIn, rfl, -, isOther, isListed⟩ := hasParent
  exact ⟨isOther.symm, List.mem_map_of_mem isIn, isListed⟩

/-- The worktrees as the stored parents are normalized for. -/
def stacked (worktrees : Table Worktree.name) : List WorktreeStacking.Worktree :=
  worktrees.entries.map fun worktree => ⟨worktree.name, 0⟩

theorem map_name_stacked : (stacked worktrees).map WorktreeStacking.Worktree.name =
    worktrees.entries.map Worktree.name := by
  rw [stacked, map_map]
  rfl

theorem links_eq : Links (parentByChild worktrees) (stacked worktrees) =
    HasParent worktrees.entries := by
  funext child parent
  unfold Links
  rw [mem_parentByChild, map_name_stacked, eq_iff_iff]
  exact ⟨And.left, fun hasParent => ⟨hasParent, hasParent.names⟩⟩

theorem filtered_eq : filteredStackedParents (parentByChild worktrees) (stacked worktrees) =
      parentByChild worktrees := by
  have isAll : (filteredStackedParents (parentByChild worktrees) (stacked worktrees)).entries =
      (parentByChild worktrees).entries := by
    refine List.filter_eq_self.mpr fun edge isEdge => ?_
    have names := (hasParent_of_edge isEdge).names
    rw [map_name_stacked, Bool.and_eq_true, Bool.and_eq_true, decide_eq_true_eq,
      decide_eq_true_eq, decide_eq_true_eq]
    exact ⟨⟨names.1, names.2.1⟩, names.2.2⟩
  exact Table.mk.injEq .. ▸ isAll

theorem hasParentCycle_root (isRoot : parents.find? current = none) :
    hasParentCycle parents seen current = false ∧
      stackParentChainHasCycle parents seen current = false := by
  constructor
  · rw [hasParentCycle]
    split
    · rfl
    · rename_i edge isEdge
      cases isRoot.symm.trans isEdge
  · rw [stackParentChainHasCycle]
    split
    · rfl
    · rename_i edge isEdge
      cases isRoot.symm.trans isEdge

theorem hasParentCycle_edge (isEdge : parents.find? current = some edge)
    (notEmpty : edge.parent ≠ "") :
    hasParentCycle parents seen current = (if current ∈ seen then true
        else hasParentCycle parents (current :: seen) edge.parent) := by
  rw [hasParentCycle]
  split
  · rename_i isRoot
    cases isRoot.symm.trans isEdge
  · rename_i other isOther
    cases isOther.symm.trans isEdge
    exact if_neg notEmpty

theorem stackCycle_edge (isEdge : parents.find? current = some edge) :
    stackParentChainHasCycle parents seen current = (if current ∈ seen then true
        else stackParentChainHasCycle parents (current :: seen) edge.parent) := by
  rw [stackParentChainHasCycle]
  split
  · rename_i isRoot
    cases isRoot.symm.trans isEdge
  · rename_i other isOther
    cases isOther.symm.trans isEdge
    rfl

theorem hasParentCycle_eq (noEmptyName : ∀ edge ∈ parents.entries, edge.parent ≠ "")
    (seen : List String) (current : String) :
    hasParentCycle parents seen current = stackParentChainHasCycle parents seen current := by
  obtain ⟨left, isLeft⟩ : ∃ left,
    (parents.entries.filter (·.child ∉ seen)).length = left := ⟨_, rfl⟩
  induction left using Nat.strong_induction_on generalizing seen current with
  | _ left ih =>
    cases isFound : parents.find? current with
    | none =>
      obtain ⟨first, second⟩ := @hasParentCycle_root parents seen current isFound
      rw [first, second]
    | some edge =>
      obtain ⟨isIn, isCurrent⟩ := Table.find?_eq_some_iff.mp isFound
      rw [hasParentCycle_edge isFound (noEmptyName edge isIn), stackCycle_edge isFound]
      split_ifs with isSeen
      · rfl
      · subst isCurrent
        exact ih _ (isLeft ▸ unseen_lt isIn isSeen) _ _ rfl

/-- A name is no empty text. -/
def Named (worktrees : Table Worktree.name) : Prop :=
  ∀ worktree ∈ worktrees.entries, worktree.name ≠ ""

theorem Named.parent (named : Named worktrees) {child parent : String}
    (hasParent : HasParent worktrees.entries child parent) : parent ≠ "" := by
  obtain ⟨worktree, isIn, rfl⟩ := mem_map.mp hasParent.names.2.2
  exact named worktree isIn

theorem cycle_iff (named : Named worktrees) :
    hasParentCycle (parentByChild worktrees) [] name = false ↔
      ∃ count, EndsAtRoot (HasParent worktrees.entries) name count := by
  rw [hasParentCycle_eq fun edge isEdge =>
    named.parent (hasParent_of_edge isEdge)]
  rw [← @filtered_eq worktrees, ← links_eq]
  refine ⟨endsAtRoot_of_loop [] name, ?_⟩
  rintro ⟨count, ends⟩
  exact loop_of_endsAtRoot ends [] nofun

theorem parentName?_eq_some (named : Named worktrees) {worktree : Worktree} {parent : String} :
    parentName? worktrees worktree = some parent ↔
      HasParent worktrees.entries worktree.name parent ∧
        ∃ count, EndsAtRoot (HasParent worktrees.entries) worktree.name count := by
  have isValid : worktree.name ∈ invalidChildren worktrees ↔
      worktree.name ∈ (parentByChild worktrees).entries.map StackedParent.child ∧
        ¬∃ count, EndsAtRoot (HasParent worktrees.entries) worktree.name count := by
    rw [invalidChildren, List.mem_filter, ← cycle_iff named, Bool.not_eq_false]
  unfold parentName?
  constructor
  · intro isParent
    split at isParent
    · cases isParent
    · rename_i edge isEdge
      obtain ⟨isIn, isChild⟩ := Table.find?_eq_some_iff.mp isEdge
      split_ifs at isParent with isPlaced
      cases isParent
      have isListed : worktree.name ∈
          (parentByChild worktrees).entries.map StackedParent.child :=
        mem_map.mpr ⟨edge, isIn, isChild⟩
      refine ⟨isChild ▸ hasParent_of_edge isIn, ?_⟩
      by_contra isCycle
      exact isPlaced.2 (isValid.mpr ⟨isListed, isCycle⟩)
  · rintro ⟨hasParent, ends⟩
    have isEdge : (parentByChild worktrees).find? worktree.name = some ⟨worktree.name, parent⟩ :=
      Table.find?_eq_some_iff.mpr ⟨mem_parentByChild.mpr hasParent, rfl⟩
    rw [isEdge]
    exact if_pos ⟨named.parent hasParent, fun isInvalid => (isValid.mp isInvalid).2 ends⟩

theorem HasParent.unique {child first second : String}
    (isFirst : HasParent worktrees.entries child first)
    (isSecond : HasParent worktrees.entries child second) : first = second := by
  rw [← links_eq] at isFirst isSecond
  exact isFirst.unique isSecond

theorem ends_unique {first second : Nat}
    (isFirst : EndsAtRoot (HasParent worktrees.entries) name first)
    (isSecond : EndsAtRoot (HasParent worktrees.entries) name second) : first = second := by
  rw [← links_eq] at isFirst isSecond
  exact isFirst.unique isSecond

/-- The loop puts the one under the other. -/
def UnderOne (worktrees : Table Worktree.name) (child parent : Worktree) : Prop :=
  child ∈ worktrees.entries ∧ parent ∈ worktrees.entries ∧
    parentName? worktrees child = some parent.name

abbrev Under (worktrees : Table Worktree.name) : Worktree → Worktree → Prop :=
  Relation.ReflTransGen (UnderOne worktrees)

theorem underOne_unique : Relator.RightUnique (UnderOne worktrees) := by
  rintro child first second ⟨-, isFirst, firstName⟩ ⟨-, isSecond, secondName⟩
  exact worktrees.eq_of_key isFirst isSecond (Option.some.inj (firstName.symm.trans secondName))

theorem UnderOne.ends (named : Named worktrees) {child parent : Worktree}
    (isUnder : UnderOne worktrees child parent) :
    ∃ count, EndsAtRoot (HasParent worktrees.entries) parent.name count ∧
      EndsAtRoot (HasParent worktrees.entries) child.name (count + 1) := by
  obtain ⟨hasParent, count, ends⟩ := (parentName?_eq_some named).mp isUnder.2.2
  cases ends with
  | root noParent => exact absurd hasParent (noParent _)
  | link isLink parentEnds =>
    rw [isLink.unique hasParent] at parentEnds
    exact ⟨_, parentEnds, .link hasParent parentEnds⟩

theorem further_of_transGen (named : Named worktrees) {child parent : Worktree}
    (isUnder : Relation.TransGen (UnderOne worktrees) child parent) :
    ∃ first last, EndsAtRoot (HasParent worktrees.entries) child.name first ∧
      EndsAtRoot (HasParent worktrees.entries) parent.name last ∧ last < first := by
  induction isUnder with
  | single isOne =>
    obtain ⟨count, parentEnds, childEnds⟩ := isOne.ends named
    exact ⟨count + 1, count, childEnds, parentEnds, Nat.lt_succ_self count⟩
  | tail _ isOne ih =>
    obtain ⟨first, middle, firstEnds, middleEnds, isMore⟩ := ih
    obtain ⟨count, parentEnds, childEnds⟩ := isOne.ends named
    have same := ends_unique middleEnds childEnds
    exact ⟨first, count, firstEnds, parentEnds, by omega⟩

theorem not_underSelf (named : Named worktrees) {worktree : Worktree} :
    ¬Relation.TransGen (UnderOne worktrees) worktree worktree := by
  intro isUnder
  obtain ⟨first, last, firstEnds, lastEnds, isMore⟩ := further_of_transGen named isUnder
  have same := ends_unique firstEnds lastEnds
  omega

theorem mem_childrenByParent {child parent : Worktree} (isParent : parent ∈ worktrees.entries) :
    child ∈ childrenByParent worktrees parent.name ↔ UnderOne worktrees child parent := by
  rw [childrenByParent, List.mem_filter, decide_eq_true_eq]
  exact ⟨fun isChild => ⟨isChild.1, isParent, isChild.2⟩, fun isChild => ⟨isChild.1, isChild.2.2⟩⟩

theorem sibling_unique (named : Named worktrees) {worktree first second parent : Worktree}
    (isFirst : Under worktrees worktree first) (isSecond : Under worktrees worktree second)
    (firstUnder : UnderOne worktrees first parent)
    (secondUnder : UnderOne worktrees second parent) : first = second := by
  have not_above : ∀ {low high : Worktree}, UnderOne worktrees low parent →
      UnderOne worktrees high parent → Under worktrees low high → low = high := by
    intro low high lowUnder highUnder isUnder
    rcases isUnder.cases_head with same | ⟨next, isNext, isLater⟩
    · exact same
    · rw [underOne_unique isNext lowUnder] at isLater
      exact absurd (Relation.TransGen.tail' isLater highUnder) (not_underSelf named)
  rcases Relation.ReflTransGen.total_of_right_unique underOne_unique isFirst isSecond with
    isUnder | isUnder
  · exact not_above firstUnder secondUnder isUnder
  · exact (not_above secondUnder firstUnder isUnder).symm

theorem root_unique {worktree first second : Worktree} (isFirst : Under worktrees worktree first)
    (isSecond : Under worktrees worktree second) (firstRoot : parentName? worktrees first = none)
    (secondRoot : parentName? worktrees second = none) : first = second := by
  have not_above : ∀ {low high : Worktree}, parentName? worktrees low = none →
      Under worktrees low high → low = high := by
    intro low high isRoot isUnder
    rcases isUnder.cases_head with same | ⟨next, isNext, -⟩
    · exact same
    · cases isRoot.symm.trans isNext.2.2
  rcases Relation.ReflTransGen.total_of_right_unique underOne_unique isFirst isSecond with
    isUnder | isUnder
  · exact not_above firstRoot isUnder
  · exact (not_above secondRoot isUnder).symm

theorem exists_root (named : Named worktrees) {worktree : Worktree}
    (isIn : worktree ∈ worktrees.entries) :
    ∃ root ∈ roots worktrees, Under worktrees worktree root := by
  cases isParent : parentName? worktrees worktree with
  | none => exact ⟨worktree, List.mem_filter.mpr ⟨isIn, decide_eq_true isParent⟩, .refl⟩
  | some parentName =>
    obtain ⟨count, ends⟩ := ((parentName?_eq_some named).mp isParent).2
    clear isParent
    obtain ⟨name, isName⟩ : ∃ name, name = worktree.name := ⟨_, rfl⟩
    rw [← isName] at ends
    induction ends generalizing worktree with
    | root noParent =>
      refine ⟨worktree, List.mem_filter.mpr ⟨isIn, decide_eq_true ?_⟩, .refl⟩
      by_contra isSome
      obtain ⟨parent, isParent⟩ := Option.ne_none_iff_exists'.mp isSome
      exact noParent parent (isName ▸ ((parentName?_eq_some named).mp isParent).1)
    | @link child parent count isLink ends ih =>
      obtain ⟨above, isAbove, aboveName⟩ := mem_map.mp isLink.names.2.2
      obtain ⟨root, isRoot, isUnder⟩ := ih isAbove aboveName.symm
      have isOne : parentName? worktrees worktree = some above.name :=
        (parentName?_eq_some named).mpr
          ⟨aboveName ▸ isName ▸ isLink, count + 1, isName ▸ .link isLink ends⟩
      exact ⟨root, isRoot, .head ⟨isIn, isAbove, isOne⟩ isUnder⟩

/-! ## What a node shows -/

/-- The ancestors are nearer to the root. -/
def Ranked (worktrees : Table Worktree.name) (worktree : Worktree) (ancestors : List String) :
    Prop :=
  (∃ count, EndsAtRoot (HasParent worktrees.entries) worktree.name count ∧
    ∀ ancestor ∈ ancestors, ∃ fewer < count,
      EndsAtRoot (HasParent worktrees.entries) ancestor fewer) ∨
  childrenByParent worktrees worktree.name = []

theorem Ranked.child (named : Named worktrees) {worktree child : Worktree}
    (ranked : Ranked worktrees worktree ancestors) (isIn : worktree ∈ worktrees.entries)
    (isChild : child ∈ childrenByParent worktrees worktree.name) :
    child.name ∉ worktree.name :: ancestors ∧
      Ranked worktrees child (worktree.name :: ancestors) := by
  rcases ranked with ⟨count, ends, areNearer⟩ | isEmpty
  · obtain ⟨same, parentEnds, childEnds⟩ :=
      ((mem_childrenByParent isIn).mp isChild).ends named
    cases ends_unique ends parentEnds
    have allNearer : ∀ ancestor ∈ worktree.name :: ancestors, ∃ fewer < count + 1,
        EndsAtRoot (HasParent worktrees.entries) ancestor fewer := by
      intro ancestor isAncestor
      rcases mem_cons.mp isAncestor with rfl | isOlder
      · exact ⟨count, Nat.lt_succ_self count, ends⟩
      · obtain ⟨fewer, isFewer, ancestorEnds⟩ := areNearer ancestor isOlder
        exact ⟨fewer, by omega, ancestorEnds⟩
    refine ⟨fun isAncestor => ?_, .inl ⟨count + 1, childEnds, allNearer⟩⟩
    obtain ⟨fewer, isFewer, ancestorEnds⟩ := allNearer child.name isAncestor
    have same := ends_unique ancestorEnds childEnds
    omega
  · simp [isEmpty] at isChild

/-- No child is among its ancestors, so the tree is as deep as the chains are long. -/
theorem buildNode_ranked (named : Named worktrees) {worktree : Worktree}
    (ranked : Ranked worktrees worktree ancestors) (isIn : worktree ∈ worktrees.entries)
    (depth : Nat) :
    (buildNode worktrees worktree depth ancestors).worktree = worktree ∧
    (buildNode worktrees worktree depth ancestors).depth = depth ∧
    (buildNode worktrees worktree depth ancestors).children =
      (childrenByParent worktrees worktree.name).map fun child =>
        buildNode worktrees child (depth + 1) (worktree.name :: ancestors) := by
  have isAll : (childrenByParent worktrees worktree.name).filter
      (·.name ∉ worktree.name :: ancestors) = childrenByParent worktrees worktree.name :=
    List.filter_eq_self.mpr fun child isChild =>
      decide_eq_true (ranked.child named isIn isChild).1
  rw [buildNode]
  refine ⟨rfl, rfl, ?_⟩
  dsimp only
  rw [isAll]
  exact @List.attach_map_val _ _ _ fun child =>
    buildNode worktrees child (depth + 1) (worktree.name :: ancestors)

theorem buildNode_descendantCount (worktree : Worktree) (depth : Nat) (ancestors : List String) :
    (buildNode worktrees worktree depth ancestors).descendantCount =
      (buildNode worktrees worktree depth ancestors).children.foldl
        (fun count child => count + 1 + child.descendantCount) 0 := by
  rw [buildNode]

theorem shownAll_eq (above : List Worktree) (nodes : List WorktreeTreeNode) :
    shownAll above nodes = nodes.flatMap (shown above) := by
  induction nodes with
  | nil => rfl
  | cons node rest ih =>
    rw [shownAll, ih, List.flatMap_cons]

theorem shown_eq (above : List Worktree) (node : WorktreeTreeNode) : shown above node =
      (above, node) :: node.children.flatMap (shown (above ++ [node.worktree])) := by
  cases node
  rw [shown, shownAll_eq]

theorem foldl_descendantCount {nodes : List WorktreeTreeNode}
    (each : ∀ node ∈ nodes, node.descendantCount + 1 = (shown above node).length) : ∀ count,
    nodes.foldl (fun count child => count + 1 + child.descendantCount) count =
      count + (nodes.flatMap (shown above)).length := by
  induction nodes with
  | nil => exact fun count => rfl
  | cons node rest ih =>
    intro count
    obtain ⟨first, later⟩ := List.forall_mem_cons.mp each
    rw [foldl_cons, ih later, List.flatMap_cons, List.length_append, ← first]
    omega

/-- What a node shows is right of itself. -/
structure Right (worktrees : Table Worktree.name) (above : List Worktree)
    (node : WorktreeTreeNode) : Prop where
  isIn : node.worktree ∈ worktrees.entries
  depth : node.depth = above.length
  descendantCount : node.descendantCount + 1 = (shown above node).length
  children : node.children.map WorktreeTreeNode.worktree =
    childrenByParent worktrees node.worktree.name

def worktreesShown (above : List Worktree) (node : WorktreeTreeNode) : List Worktree :=
  (shown above node).map fun item => item.2.worktree

structure Shows (worktrees : Table Worktree.name) (above : List Worktree) (worktree : Worktree)
    (node : WorktreeTreeNode) : Prop where
  isWorktree : node.worktree = worktree
  right : ∀ item ∈ shown above node, Right worktrees item.1 item.2
  mem : ∀ other, other ∈ worktreesShown above node ↔ Under worktrees other worktree
  nodup : (worktreesShown above node).Nodup

theorem worktreesShown_eq (above : List Worktree) (node : WorktreeTreeNode) :
    worktreesShown above node = node.worktree ::
      node.children.flatMap (worktreesShown (above ++ [node.worktree])) := by
  rw [worktreesShown, shown_eq, List.map_cons, List.map_flatMap]
  rfl

theorem under_iff {other worktree : Worktree} (isIn : worktree ∈ worktrees.entries) :
    Under worktrees other worktree ↔ other = worktree ∨
      ∃ child ∈ childrenByParent worktrees worktree.name, Under worktrees other child := by
  refine (Relation.ReflTransGen.cases_tail_iff _ other worktree).trans ?_
  refine or_congr eq_comm (exists_congr fun child => ?_)
  rw [mem_childrenByParent isIn, and_comm]

theorem nodup_flatMap {tops : List Worktree}
    {build : Worktree → WorktreeTreeNode} (areDifferent : tops.Nodup)
    (each : ∀ top ∈ tops, Shows worktrees above top (build top))
    (isUnique : ∀ first ∈ tops, ∀ second ∈ tops, ∀ other, Under worktrees other first →
      Under worktrees other second → first = second) :
    (tops.flatMap fun top => worktreesShown above (build top)).Nodup := by
  rw [List.nodup_flatMap]
  refine ⟨fun top isTop => (each top isTop).nodup, ?_⟩
  refine areDifferent.imp_of_mem fun {first second} isFirst isSecond isOther => ?_
  intro other inFirst inSecond
  exact isOther (isUnique first isFirst second isSecond other
    (((each first isFirst).mem other).mp inFirst) (((each second isSecond).mem other).mp inSecond))

theorem buildNode_shows (named : Named worktrees) {worktree : Worktree}
    (ranked : Ranked worktrees worktree ancestors) (isIn : worktree ∈ worktrees.entries)
    (above : List Worktree) :
    Shows worktrees above worktree
      (buildNode worktrees worktree above.length ancestors) := by
  obtain ⟨left, isLeft⟩ : ∃ left,
    (worktrees.entries.filter (·.name ∉ worktree.name :: ancestors)).length = left := ⟨_, rfl⟩
  induction left using Nat.strong_induction_on generalizing worktree ancestors above with
  | _ left ih =>
    obtain ⟨isWorktree, isDepth, areChildren⟩ :=
      buildNode_ranked named ranked isIn above.length
    have isCount := @buildNode_descendantCount worktrees worktree above.length ancestors
    generalize buildNode worktrees worktree above.length ancestors = node at *
    have childIn : ∀ child ∈ childrenByParent worktrees worktree.name,
        child ∈ worktrees.entries := fun child isChild => (List.mem_filter.mp isChild).1
    have each : ∀ child ∈ childrenByParent worktrees worktree.name,
        Shows worktrees (above ++ [worktree]) child
          (buildNode worktrees child (above.length + 1) (worktree.name :: ancestors)) := by
      intro child isChild
      have step := ranked.child named isIn isChild
      have isFewer := unvisited_lt (childIn child isChild) step.1
      have shows := ih _ (isLeft ▸ isFewer) step.2 (childIn child isChild)
        (above ++ [worktree]) rfl
      rwa [List.length_append] at shows
    have eachNode : ∀ child ∈ node.children, ∀ item ∈ shown (above ++ [worktree]) child,
        Right worktrees item.1 item.2 := by
      rw [areChildren]
      intro built isBuilt
      obtain ⟨child, isChild, rfl⟩ := mem_map.mp isBuilt
      exact (each child isChild).right
    have selfShown : ∀ child : WorktreeTreeNode,
        (above ++ [worktree], child) ∈ shown (above ++ [worktree]) child := by
      intro child
      rw [shown_eq]
      exact List.mem_cons_self
    have isShown : worktreesShown above node = worktree ::
        (childrenByParent worktrees worktree.name).flatMap fun child =>
          worktreesShown (above ++ [worktree])
            (buildNode worktrees child (above.length + 1) (worktree.name :: ancestors)) := by
      rw [worktreesShown_eq, isWorktree, areChildren, List.flatMap_map]
    refine ⟨isWorktree, ?_, ?_, ?_⟩
    · rw [shown_eq, isWorktree]
      refine List.forall_mem_cons.mpr ⟨⟨isWorktree ▸ isIn, isDepth, ?_, ?_⟩, ?_⟩
      · rw [shown_eq, isWorktree, List.length_cons, isCount,
          foldl_descendantCount fun child isChild =>
            (eachNode child isChild _ (selfShown child)).descendantCount, Nat.zero_add]
        rfl
      · rw [isWorktree, areChildren, map_map]
        exact List.map_congr_left (fun child isChild => (each child isChild).isWorktree) |>.trans
          (map_id _)
      · intro item isItem
        obtain ⟨child, isChild, isBelow⟩ := mem_flatMap.mp isItem
        exact eachNode child isChild item isBelow
    · intro other
      rw [isShown, mem_cons, mem_flatMap, under_iff isIn]
      refine or_congr_right (exists_congr fun child => and_congr_right fun isChild => ?_)
      exact (each child isChild).mem other
    · rw [isShown, List.nodup_cons]
      constructor
      · intro isBelow
        obtain ⟨child, isChild, inChild⟩ := mem_flatMap.mp isBelow
        have isUnder := ((each child isChild).mem worktree).mp inChild
        exact not_underSelf named
          (Relation.TransGen.tail' isUnder ((mem_childrenByParent isIn).mp isChild))
      · refine nodup_flatMap (worktrees.entries_nodup.filter _) each ?_
        intro first isFirst second isSecond other firstUnder secondUnder
        exact sibling_unique named firstUnder secondUnder
          ((mem_childrenByParent isIn).mp isFirst) ((mem_childrenByParent isIn).mp isSecond)

theorem root_ranked (named : Named worktrees) (isIn : root ∈ worktrees.entries) :
    Ranked worktrees root [] := by
  cases isEmpty : childrenByParent worktrees root.name with
  | nil => exact .inr isEmpty
  | cons child rest =>
    have isChild : child ∈ childrenByParent worktrees root.name := isEmpty ▸ List.mem_cons_self
    obtain ⟨count, ends, -⟩ := ((mem_childrenByParent isIn).mp isChild).ends named
    exact .inl ⟨count, ends, nofun⟩

/-- The trees of the roots show every worktree, so that none is left for the last loop. -/
theorem buildWorktreeTree_eq (named : Named worktrees) : buildWorktreeTree worktrees =
      (roots worktrees).map fun root => buildNode worktrees root 0 [] := by
  unfold buildWorktreeTree
  have areVisited : ∀ worktree ∈ worktrees.entries, worktree.name ∈
      visited ((roots worktrees).map fun root => buildNode worktrees root 0 []) := by
    intro worktree isIn
    obtain ⟨root, isRoot, isUnder⟩ := exists_root named isIn
    have rootIn := (List.mem_filter.mp isRoot).1
    have shows := buildNode_shows named (root_ranked named rootIn) rootIn []
    obtain ⟨item, isItem, isWorktree⟩ := mem_map.mp ((shows.mem worktree).mpr isUnder)
    unfold visited
    rw [shownAll_eq]
    refine mem_map.mpr ⟨item, mem_flatMap.mpr
      ⟨_, List.mem_map_of_mem isRoot, isItem⟩, ?_⟩
    rw [isWorktree]
  generalize (roots worktrees).map (fun root => buildNode worktrees root 0 []) = tree at *
  generalize worktrees.entries = listed at areVisited ⊢
  induction listed with
  | nil => rfl
  | cons worktree rest ih =>
    obtain ⟨first, later⟩ := List.forall_mem_cons.mp areVisited
    rw [foldl_cons, if_pos first]
    exact ih later

theorem placed_iff (named : Named worktrees) {worktree parent : Worktree} :
    Placed worktrees.entries worktree parent ↔
      parentName? worktrees worktree = some parent.name := (parentName?_eq_some named).symm

theorem worktreeTreeFaithful (named : Named worktrees) :
    Faithful worktrees.entries (buildWorktreeTree worktrees) := by
  have eachRoot : ∀ root ∈ roots worktrees,
      Shows worktrees [] root (buildNode worktrees root 0 []) := fun root isRoot =>
    have isIn := (List.mem_filter.mp isRoot).1
    buildNode_shows named (root_ranked named isIn) isIn []
  have areRoots : (buildWorktreeTree worktrees).map WorktreeTreeNode.worktree =
      roots worktrees := by
    rw [buildWorktreeTree_eq named, map_map]
    exact (List.map_congr_left fun root isRoot => (eachRoot root isRoot).isWorktree).trans
      (map_id _)
  have isShown : shownAll [] (buildWorktreeTree worktrees) =
      (roots worktrees).flatMap fun root => shown [] (buildNode worktrees root 0 []) := by
    rw [buildWorktreeTree_eq named, shownAll_eq, List.flatMap_map]
  have areRight : ∀ item ∈ shownAll [] (buildWorktreeTree worktrees),
      Right worktrees item.1 item.2 := by
    intro item isItem
    rw [isShown] at isItem
    obtain ⟨root, isRoot, isBelow⟩ := mem_flatMap.mp isItem
    exact (eachRoot root isRoot).right item isBelow
  refine ⟨?_, ?_, ?_, fun item isItem => (areRight item isItem).depth,
    fun item isItem => (areRight item isItem).descendantCount, ?_, ?_⟩
  · rw [isShown, List.map_flatMap]
    refine (List.perm_ext_iff_of_nodup ?_ worktrees.entries_nodup).mpr fun worktree => ?_
    · refine nodup_flatMap (worktrees.entries_nodup.filter _) eachRoot ?_
      intro first isFirst second isSecond other firstUnder secondUnder
      exact root_unique firstUnder secondUnder
        (of_decide_eq_true (List.mem_filter.mp isFirst).2)
        (of_decide_eq_true (List.mem_filter.mp isSecond).2)
    · rw [mem_flatMap]
      constructor
      · rintro ⟨root, isRoot, isBelow⟩
        rcases (((eachRoot root isRoot).mem worktree).mp isBelow).cases_head with rfl | isNext
        · exact (List.mem_filter.mp isRoot).1
        · obtain ⟨next, isNext, -⟩ := isNext
          exact isNext.1
      · intro isIn
        obtain ⟨root, isRoot, isUnder⟩ := exists_root named isIn
        exact ⟨root, isRoot, ((eachRoot root isRoot).mem worktree).mpr isUnder⟩
  · intro worktree isIn
    rw [areRoots, roots, List.mem_filter, decide_eq_true_eq]
    constructor
    · rintro ⟨-, isRoot⟩ ⟨parent, -, isPlaced⟩
      cases isRoot.symm.trans ((placed_iff named).mp isPlaced)
    · intro notPlaced
      refine ⟨isIn, ?_⟩
      by_contra isSome
      obtain ⟨name, isParent⟩ := Option.ne_none_iff_exists'.mp isSome
      obtain ⟨hasParent, ends⟩ := (parentName?_eq_some named).mp isParent
      obtain ⟨parent, parentIn, rfl⟩ := mem_map.mp hasParent.names.2.2
      exact notPlaced ⟨parent, parentIn, hasParent, ends⟩
  · intro item isItem worktree isIn
    have right := areRight item isItem
    rw [right.children, mem_childrenByParent right.isIn, placed_iff named]
    exact ⟨fun isUnder => isUnder.2.2, fun isParent => ⟨isIn, right.isIn, isParent⟩⟩
  · rw [areRoots]
    exact List.filter_sublist
  · intro item isItem
    rw [(areRight item isItem).children]
    exact List.filter_sublist

def worktree (name : String) (stackParentName : Option String) : Worktree :=
  ⟨name, "/tmp/" ++ name, name, stackParentName⟩

/-- A cycle of two with a worktree on it, and one with a chain of two below it. -/
def cycleAndChain : Table Worktree.name where
  entries := [worktree "a" (some "b"), worktree "b" (some "a"), worktree "c" (some "a"),
    worktree "d" none, worktree "e" (some "d"), worktree "f" (some "e")]
  nodup := by decide

theorem worktreeTreeFaithful_cycleAndChain :
    Faithful cycleAndChain.entries (buildWorktreeTree cycleAndChain) :=
  worktreeTreeFaithful (by unfold Named; decide)

theorem mem_foldl_roots (listed : List Worktree) {tree : List WorktreeTreeNode}
    (isIn : root ∈ tree.map WorktreeTreeNode.worktree) :
    root ∈ (listed.foldl (fun tree worktree =>
      if worktree.name ∈ visited tree then tree
      else tree ++ [buildNode worktrees worktree 0 []]) tree).map WorktreeTreeNode.worktree := by
  induction listed generalizing tree with
  | nil => exact isIn
  | cons worktree rest ih =>
    rw [foldl_cons]
    apply ih
    split_ifs
    · exact isIn
    · rw [List.map_append]
      exact List.mem_append_left _ isIn

theorem mem_of_roots (isRoot : root ∈ roots worktrees) :
    root ∈ (buildWorktreeTree worktrees).map WorktreeTreeNode.worktree := by
  refine mem_foldl_roots worktrees.entries ?_
  rw [map_map]
  refine mem_map.mpr ⟨root, isRoot, ?_⟩
  change (buildNode worktrees root 0 []).worktree = root
  rw [buildNode]

/-- Under a worktree with an empty name. -/
def underNoName : Table Worktree.name where
  entries := [worktree "" none, worktree "a" (some "")]
  nodup := by decide

theorem not_worktreeTreeFaithful :
    ¬∀ worktrees, Faithful worktrees.entries (buildWorktreeTree worktrees) := by
  intro faithful
  have isIn : worktree "a" (some "") ∈ underNoName.entries := by decide
  have isRoot : worktree "a" (some "") ∈ roots underNoName := by decide
  have hasParent : HasParent underNoName.entries "a" "" :=
    ⟨worktree "a" (some ""), isIn, rfl, rfl, by decide, by decide⟩
  have atRoot : ∀ parent, ¬HasParent underNoName.entries "" parent := by
    rintro parent ⟨listed, isListed, isName, isParent, -⟩
    rcases List.mem_pair.mp isListed with rfl | rfl
    · cases isParent
    · exact absurd isName (by decide)
  refine ((faithful underNoName).roots _ isIn).mp (mem_of_roots isRoot)
    ⟨worktree "" none, by decide, hasParent, 1, .link hasParent (.root atRoot)⟩

end AiTools.Grove.WorktreeTree
