import AiTools.Grove.SplitTree

/-!
Contract: the operations on split trees are inverse to each other and keep well-formed trees.
-/

namespace AiTools.Grove.SplitTree

open List (all_map filterMap_map flatMap_congr flatMap_cons flatMap_map flatMap_singleton
  forall_mem_cons forall_mem_singleton length_map map_cons map_flatMap map_map mem_filterMap
  mem_pair mem_singleton mem_singleton_self nodup_cons)

theorem toLayoutTemplates_eq (children : List SplitNode) :
    toLayoutTemplates children = children.map toLayoutTemplate := by
  induction children with
  | nil => rfl
  | cons child rest ih => rw [toLayoutTemplates, ih, map_cons]

theorem setLeafLabels_eq (paneId : String) (label : Option Label) (children : List SplitNode) :
    setLeafLabels paneId label children = children.map (setLeafLabel paneId label) := by
  induction children with
  | nil => rfl
  | cons child rest ih => rw [setLeafLabels, ih, map_cons]

theorem splitNodes_eq (targetPtyId : String) (direction : Direction) (insertion : SplitInsertion)
    (children : List SplitNode) : splitNodes targetPtyId direction insertion children =
      children.map (splitNode targetPtyId direction insertion) := by
  induction children with
  | nil => rfl
  | cons child rest ih => rw [splitNodes, ih, map_cons]

theorem removeNodes_eq (targetPtyId : String) (children : List SplitNode) :
    removeNodes targetPtyId children = children.map (removeNode targetPtyId) := by
  induction children with
  | nil => rfl
  | cons child rest ih => rw [removeNodes, ih, map_cons]

theorem zipWith_on (targetPtyId : String) (children : List SplitNode) :
    List.zipWith Removed.on children (removeNodes targetPtyId children) =
      children.map fun child => (removeNode targetPtyId child).on child := by
  rw [removeNodes_eq, List.zipWith_map_right, List.zipWith_self]

theorem length_retainedIndices (next : List (Option SplitNode)) : ∀ index,
    (retainedIndices index next).length = next.reduceOption.length := by
  induction next with
  | nil => exact fun _ => rfl
  | cons first rest ih =>
    intro index
    cases first with
    | none => exact ih _
    | some kept => exact congrArg (· + 1) (ih _)

/-- The tree that is left. -/
def remove (targetPtyId : String) (node : SplitNode) : Option SplitNode :=
  (removeNode targetPtyId node).on node

def leavesLeft (left : Option SplitNode) : List Leaf := (left.map leaves).getD []

variable {node : SplitNode} {children others : List SplitNode} {newSizes : List ℚ} {path : List Nat}
variable {targetPtyId : String}

theorem remove_of_same (isSame : (removeNode targetPtyId node).isSame = true) :
    remove targetPtyId node = some node := by
  unfold remove
  cases isRemoved : removeNode targetPtyId node with
  | same => rfl
  | null | node other => rw [isRemoved] at isSame; cases isSame

theorem reduceOption_map_some (children : List SplitNode) :
    (children.map some).reduceOption = children := by
  rw [List.reduceOption, filterMap_map]
  exact List.filterMap_some

/-- What can be left of a branch: it as it was, nothing, the one child that is left, or a branch
with fewer children or with other ones. -/
theorem remove_branch (targetPtyId id : String) (type : Direction) (children : List SplitNode)
    (sizes : Option (List ℚ)) {filtered : List SplitNode}
    (isFiltered : filtered = (children.map (remove targetPtyId)).reduceOption) :
    (remove targetPtyId (.branch id type children sizes) = some (.branch id type children sizes) ∧
      filtered = children) ∨
    (remove targetPtyId (.branch id type children sizes) = none ∧ filtered = []) ∨
    (∃ only, remove targetPtyId (.branch id type children sizes) = some only ∧ filtered = [only]) ∨
    (2 ≤ filtered.length ∧ ∃ newSizes, remove targetPtyId (.branch id type children sizes) =
        some (.branch id type filtered newSizes) ∧
      (filtered.length = children.length → newSizes = sizes) ∧
      (filtered.length ≠ children.length → Sized filtered.length newSizes)) := by
  have isNext := zipWith_on targetPtyId children
  by_cases allSame : (removeNodes targetPtyId children).all Removed.isSame = true
  · refine .inl ⟨?_, ?_⟩
    · rw [remove, removeNode, if_pos allSame]
      rfl
    · have areSame : children.map (remove targetPtyId) = children.map some := by
        refine List.map_congr_left fun child isChild => remove_of_same ?_
        rw [removeNodes_eq, all_map] at allSame
        exact List.all_eq_true.mp allSame child isChild
      rw [isFiltered, areSame, reduceOption_map_some]
  · right
    rw [remove, removeNode, if_neg allSame, isNext]
    change filtered = (children.map fun child =>
      (removeNode targetPtyId child).on child).reduceOption at isFiltered
    dsimp only
    rcases filtered with _ | ⟨last, _ | ⟨second, rest⟩⟩
    · rw [← isFiltered]
      exact .inl ⟨rfl, rfl⟩
    · rw [← isFiltered]
      exact .inr (.inl ⟨last, rfl, rfl⟩)
    · have isLength := length_retainedIndices (children.map fun child =>
        (removeNode targetPtyId child).on child) 0
      rw [← isFiltered] at isLength ⊢
      refine .inr (.inr ⟨by simp, ?_⟩)
      dsimp only
      split_ifs with sameLength
      · exact ⟨sizes, rfl, fun _ => rfl, fun other => absurd sameLength other⟩
      · refine ⟨_, rfl, fun same => absurd same sameLength, fun _ => ?_⟩
        rw [← isLength]
        exact rebalanceBranchSizes_sized sizes (by rw [isLength]; simp)

theorem flatMap_reduceOption (parts : List (Option SplitNode)) :
    parts.reduceOption.flatMap leaves = parts.flatMap leavesLeft := by
  induction parts with
  | nil => rfl
  | cons first rest ih =>
    rw [flatMap_cons, ← ih]
    cases first with
    | none | some kept => rfl

theorem leavesLeft_remove (targetPtyId : String) (node : SplitNode) :
    leavesLeft (remove targetPtyId node) =
      (leaves node).filter fun leaf => leaf.ptyId ≠ some targetPtyId := by
  induction node using SplitNode.induction with
  | leaf leaf =>
    unfold remove removeNode
    by_cases isTarget : leaf.ptyId = some targetPtyId <;> simp [isTarget, leavesLeft, leaves, Removed.on]
  | branch id type children sizes ih =>
    obtain ⟨filtered, isFiltered⟩ : ∃ filtered,
      filtered = (children.map (remove targetPtyId)).reduceOption := ⟨_, rfl⟩
    have areLeaves : filtered.flatMap leaves =
        (children.flatMap leaves).filter fun leaf => leaf.ptyId ≠ some targetPtyId := by
      rw [isFiltered, flatMap_reduceOption, flatMap_map, List.filter_flatMap]
      exact flatMap_congr ih
    rw [leaves_branch, ← areLeaves]
    obtain ⟨isLeft, same⟩ | ⟨isLeft, same⟩ | ⟨only, isLeft, same⟩ | ⟨-, newSizes, isLeft, -⟩ :=
      remove_branch targetPtyId id type children sizes isFiltered <;> rw [isLeft]
    · rw [same]
      exact leaves_branch id type children sizes
    · rw [same]
      rfl
    · rw [same, flatMap_singleton]
      rfl
    · exact leaves_branch id type filtered newSizes

theorem remove_shaped {left : SplitNode} (shaped : Shaped node)
    (isLeft : remove targetPtyId node = some left) : Shaped left := by
  induction shaped generalizing left with
  | leaf leaf =>
    unfold remove removeNode at isLeft
    split_ifs at isLeft
    · cases isLeft
    · cases isLeft
      exact .leaf leaf
  | @branch id type children sizes isMany isSized areShaped ih =>
    obtain ⟨filtered, isFiltered⟩ : ∃ filtered,
      filtered = (children.map (remove targetPtyId)).reduceOption := ⟨_, rfl⟩
    have filteredShaped : ∀ child ∈ filtered, Shaped child := by
      intro child isChild
      rw [isFiltered, List.reduceOption_mem_iff, List.mem_map] at isChild
      obtain ⟨given, isGiven, isLeft⟩ := isChild
      exact ih given isGiven isLeft
    obtain ⟨isAll, same⟩ | ⟨isNone, same⟩ | ⟨only, isOnly, same⟩ |
        ⟨stillMany, newSizes, isBranch, whenSame, whenOther⟩ :=
      remove_branch targetPtyId id type children sizes isFiltered
    · cases isAll.symm.trans isLeft
      exact .branch id type isMany isSized areShaped
    · cases isNone.symm.trans isLeft
    · cases isOnly.symm.trans isLeft
      exact filteredShaped left (same ▸ mem_singleton_self left)
    · cases isBranch.symm.trans isLeft
      refine .branch id type stillMany ?_ filteredShaped
      by_cases sameLength : filtered.length = children.length
      · rw [whenSame sameLength, sameLength]
        exact isSized
      · exact whenOther sameLength

theorem ptyIds_branch (id : String) (type : Direction) (children : List SplitNode)
    (sizes : Option (List ℚ)) : ptyIds (.branch id type children sizes) = children.flatMap ptyIds := by
  rw [ptyIds, leaves_branch, List.filterMap_flatMap]
  rfl

theorem leafIds_branch (id : String) (type : Direction) (children : List SplitNode)
    (sizes : Option (List ℚ)) :
    leafIds (.branch id type children sizes) = children.flatMap leafIds := by
  rw [leafIds, leaves_branch, map_flatMap]
  rfl

theorem remove_wellFormed {left : SplitNode} (wellFormed : WellFormed node)
    (isLeft : remove targetPtyId node = some left) : WellFormed left := by
  have areLeaves := leavesLeft_remove targetPtyId node
  rw [isLeft] at areLeaves
  change leaves left = _ at areLeaves
  refine ⟨remove_shaped wellFormed.shaped isLeft, ?_, ?_⟩
  · rw [leafIds, areLeaves]
    exact wellFormed.leafIds.sublist (List.filter_sublist.map _)
  · rw [ptyIds, areLeaves]
    exact wellFormed.ptyIds.sublist (List.filter_sublist.filterMap _)

theorem leavesLeft_remove_at (areDifferent : (ptyIds node).Nodup) {before after : List Leaf}
    {leaf : Leaf} (areLeaves : leaves node = before ++ leaf :: after)
    (isTarget : leaf.ptyId = some targetPtyId) :
    leavesLeft (remove targetPtyId node) = before ++ after := by
  rw [ptyIds, areLeaves, List.filterMap_append, List.filterMap_cons_some isTarget] at areDifferent
  have notOther : ∀ other ∈ before ++ after, other.ptyId ≠ some targetPtyId := by
    intro other isOther same
    have isIn : targetPtyId ∈ (before ++ after).filterMap Leaf.ptyId :=
      mem_filterMap.mpr ⟨other, isOther, same⟩
    rw [List.filterMap_append] at isIn
    exact (nodup_cons.mp (List.nodup_middle.mp areDifferent)).1 isIn
  rw [leavesLeft_remove, areLeaves, List.filter_append, List.filter_cons_of_neg (by simp [isTarget]),
    ← List.filter_append, List.filter_eq_self]
  exact fun other isOther => decide_eq_true (notOther other isOther)

mutual

/-- How many children the branch at the path has. -/
def childCountAt : SplitNode → List Nat → Option Nat
  | .leaf _, _ => none
  | .branch _ _ children _, [] => some children.length
  | .branch _ _ children _, head :: rest => childCountAmong children head rest

def childCountAmong : List SplitNode → Nat → List Nat → Option Nat
  | [], _, _ => none
  | child :: _, 0, path => childCountAt child path
  | _ :: others, head + 1, path => childCountAmong others head path

end

/-- A panel has a ratio for each of its panes. -/
def Fits (newSizes : List ℚ) (node : SplitNode) (path : List Nat) : Prop :=
  ∀ count, childCountAt node path = some count → newSizes.length = count

/-- Another tree with the same panes, and as well shaped. -/
structure Resized (node next : SplitNode) : Prop where
  leaves : leaves next = leaves node
  shaped : Shaped node → Shaped next

section Splitting

variable {targetPtyId : String} {direction : Direction} {insertion : SplitInsertion}

theorem removeNode_of_fresh {ptyId : String} (isFresh : ptyId ∉ ptyIds node) :
    removeNode ptyId node = .same := by
  induction node using SplitNode.induction with
  | leaf leaf =>
    rw [removeNode, if_neg]
    rintro isSame
    exact isFresh (mem_filterMap.mpr ⟨leaf, mem_singleton_self leaf, isSame⟩)
  | branch id type children sizes ih =>
    rw [ptyIds_branch, List.mem_flatMap] at isFresh
    have allSame : (removeNodes ptyId children).all Removed.isSame = true := by
      rw [removeNodes_eq, all_map, List.all_eq_true]
      intro child isChild
      change (removeNode ptyId child).isSame = true
      rw [ih child isChild fun isIn => isFresh ⟨child, isChild, isIn⟩]
      rfl
    rw [removeNode, if_pos allSame]

theorem remove_splitNode (shaped : Shaped node) (isFresh : insertion.ptyId ∉ ptyIds node) :
    remove insertion.ptyId (splitNode targetPtyId direction insertion node) = some node := by
  induction shaped with
  | leaf leaf =>
    rw [splitNode]
    split_ifs with isTarget
    · have isKept := removeNode_of_fresh isFresh
      have isGone : removeNode insertion.ptyId
          (.leaf ⟨insertion.leafId, some insertion.ptyId, none⟩) = .null := if_pos rfl
      rw [remove, removeNode]
      simp only [removeNodes, isKept, isGone]
      rfl
    · rw [remove, removeNode_of_fresh isFresh]
      rfl
  | @branch id type children sizes isMany isSized areShaped ih =>
    rw [ptyIds_branch, List.mem_flatMap] at isFresh
    have areBack : children = ((children.map (splitNode targetPtyId direction insertion)).map
        (remove insertion.ptyId)).reduceOption := by
      have areSome : (children.map (splitNode targetPtyId direction insertion)).map
          (remove insertion.ptyId) = children.map some := by
        rw [map_map]
        exact List.map_congr_left fun child isChild =>
          ih child isChild fun isIn => isFresh ⟨child, isChild, isIn⟩
      rw [areSome, reduceOption_map_some]
    rw [splitNode, splitNodes_eq]
    obtain ⟨isAll, same⟩ | ⟨-, same⟩ | ⟨last, -, same⟩ | ⟨-, newSizes, isBranch, whenSame, -⟩ :=
      remove_branch insertion.ptyId id type _ sizes areBack
    · rw [isAll, ← same]
    · simp [same] at isMany
    · simp [same] at isMany
    · rw [isBranch, whenSame (length_map _).symm]

theorem splitNode_shaped (shaped : Shaped node) :
    Shaped (splitNode targetPtyId direction insertion node) := by
  induction shaped with
  | leaf leaf =>
    rw [splitNode]
    split_ifs
    · refine .branch _ _ (Nat.le_refl 2) ⟨_, rfl, rfl⟩ fun child isChild => ?_
      rcases mem_pair.mp isChild with rfl | rfl
      · exact .leaf leaf
      · exact .leaf _
    · exact .leaf leaf
  | branch id type isMany isSized areShaped ih =>
    rw [splitNode, splitNodes_eq]
    refine .branch id type ?_ ?_ (List.forall_mem_map.mpr ih)
    · rwa [length_map]
    · rwa [length_map]

def SplitInsertion.leaf (insertion : SplitInsertion) : Leaf :=
  ⟨insertion.leafId, some insertion.ptyId, none⟩

def splitLeaf (targetPtyId : String) (insertion : SplitInsertion) (leaf : Leaf) : List Leaf :=
  if leaf.ptyId = some targetPtyId then [leaf, insertion.leaf] else [leaf]

theorem leaves_splitNode (node : SplitNode) :
    leaves (splitNode targetPtyId direction insertion node) =
      (leaves node).flatMap (splitLeaf targetPtyId insertion) := by
  induction node using SplitNode.induction with
  | leaf leaf =>
    rw [splitNode, leaves, flatMap_singleton, splitLeaf]
    split_ifs <;> rfl
  | branch id type children sizes ih =>
    rw [splitNode, splitNodes_eq, leaves_branch, leaves_branch, flatMap_map,
      List.flatMap_assoc]
    exact flatMap_congr ih

theorem flatMap_splitLeaf : ∀ {panes : List Leaf}, (panes.filterMap Leaf.ptyId).Nodup →
    panes.flatMap (splitLeaf targetPtyId insertion) = panes ∨
      (panes.flatMap (splitLeaf targetPtyId insertion)).Perm (insertion.leaf :: panes)
  | [], _ => .inl rfl
  | pane :: rest, areDifferent => by
    have later : (rest.filterMap Leaf.ptyId).Nodup :=
      areDifferent.sublist ((List.sublist_cons_self pane rest).filterMap _)
    have ih := @flatMap_splitLeaf rest later
    rw [flatMap_cons, splitLeaf]
    split_ifs with isTarget
    · right
      rw [List.filterMap_cons_some isTarget, nodup_cons] at areDifferent
      have areSame : rest.flatMap (splitLeaf targetPtyId insertion) = rest := by
        have areSingle : ∀ other ∈ rest, splitLeaf targetPtyId insertion other = [other] :=
          fun other isOther => if_neg fun same =>
            areDifferent.1 (mem_filterMap.mpr ⟨other, isOther, same⟩)
        rw [flatMap_congr areSingle]
        exact List.flatMap_singleton' rest
      rw [areSame]
      exact .swap insertion.leaf pane rest
    · rcases ih with same | isPerm
      · exact .inl (congrArg (pane :: ·) same)
      · exact .inr ((isPerm.cons pane).trans (.swap insertion.leaf pane rest))

theorem splitNode_wellFormed (wellFormed : WellFormed node) (isFresh : Fresh insertion node) :
    WellFormed (splitNode targetPtyId direction insertion node) := by
  have areLeaves := @leaves_splitNode targetPtyId direction insertion node
  refine ⟨splitNode_shaped wellFormed.shaped, ?_, ?_⟩
  · rw [leafIds, areLeaves]
    rcases @flatMap_splitLeaf targetPtyId insertion _ wellFormed.ptyIds with same | isPerm
    · rw [same]
      exact wellFormed.leafIds
    · exact (isPerm.map Leaf.id).nodup_iff.mpr
        (nodup_cons.mpr ⟨isFresh.leafId, wellFormed.leafIds⟩)
  · rw [ptyIds, areLeaves]
    rcases @flatMap_splitLeaf targetPtyId insertion _ wellFormed.ptyIds with same | isPerm
    · rw [same]
      exact wellFormed.ptyIds
    · exact (isPerm.filterMap Leaf.ptyId).nodup_iff.mpr
        (nodup_cons.mpr ⟨isFresh.ptyId, wellFormed.ptyIds⟩)

end Splitting

/-- The panes stay, in their order, with terminals that are again all different. -/
theorem wellFormed_of_sameIds {next : SplitNode} (wellFormed : WellFormed node)
    (shaped : Shaped next) (sameIds : leafIds next = leafIds node) (ptyIds : (ptyIds next).Nodup) :
    WellFormed next :=
  ⟨shaped, sameIds ▸ wellFormed.leafIds, ptyIds⟩

theorem toLayoutTemplate_shaped (shaped : Shaped node) : Shaped (toLayoutTemplate node) := by
  induction shaped with
  | leaf leaf => exact .leaf _
  | branch id type isMany isSized areShaped ih =>
    rw [toLayoutTemplate, toLayoutTemplates_eq]
    refine .branch id type ?_ ?_ (List.forall_mem_map.mpr ih)
    · rwa [length_map]
    · rw [length_map]
      exact normalizeBranchSizes_sized _ isMany

theorem leaves_toLayoutTemplate (node : SplitNode) : leaves (toLayoutTemplate node) =
    (leaves node).map fun leaf => ⟨leaf.id, none, normalizePaneLabel leaf.label⟩ := by
  induction node using SplitNode.induction with
  | leaf leaf => rfl
  | branch id type children sizes ih =>
    rw [toLayoutTemplate, toLayoutTemplates_eq, leaves_branch, leaves_branch, flatMap_map,
      map_flatMap]
    exact flatMap_congr ih

theorem leafIds_toLayoutTemplate (node : SplitNode) :
    leafIds (toLayoutTemplate node) = leafIds node := by
  rw [leafIds, leaves_toLayoutTemplate, map_map]
  rfl

theorem ptyIds_toLayoutTemplate (node : SplitNode) : ptyIds (toLayoutTemplate node) = [] := by
  rw [ptyIds, leaves_toLayoutTemplate, filterMap_map, List.filterMap_eq_nil_iff]
  exact fun _ _ => rfl

theorem setLeafLabel_shaped (shaped : Shaped node) (paneId : String) (label : Option Label) :
    Shaped (setLeafLabel paneId label node) := by
  induction shaped with
  | leaf leaf =>
    rw [setLeafLabel]
    split_ifs
    · exact .leaf _
    · exact .leaf leaf
  | branch id type isMany isSized areShaped ih =>
    rw [setLeafLabel, setLeafLabels_eq]
    refine .branch id type ?_ ?_ (List.forall_mem_map.mpr ih)
    · rwa [length_map]
    · rwa [length_map]

theorem leaves_setLeafLabel (paneId : String) (label : Option Label) (node : SplitNode) :
    leaves (setLeafLabel paneId label node) = (leaves node).map fun leaf =>
      if leaf.id = paneId then { leaf with label := normalizePaneLabel label } else leaf := by
  induction node using SplitNode.induction with
  | leaf leaf =>
    rw [setLeafLabel, leaves, List.map_singleton]
    split_ifs <;> rfl
  | branch id type children sizes ih =>
    rw [setLeafLabel, setLeafLabels_eq, leaves_branch, leaves_branch, flatMap_map,
      map_flatMap]
    exact flatMap_congr ih

theorem setLeafLabel_wellFormed (wellFormed : WellFormed node) (paneId : String)
    (label : Option Label) : WellFormed (setLeafLabel paneId label node) := by
  refine wellFormed_of_sameIds wellFormed (setLeafLabel_shaped wellFormed.shaped paneId label) ?_ ?_
  · rw [leafIds, leaves_setLeafLabel, map_map]
    refine List.map_congr_left fun leaf _ => ?_
    dsimp only [Function.comp]
    split_ifs <;> rfl
  · have areSame : ptyIds (setLeafLabel paneId label node) = ptyIds node := by
      rw [ptyIds, leaves_setLeafLabel, filterMap_map]
      refine List.filterMap_congr fun leaf _ => ?_
      dsimp only [Function.comp]
      split_ifs <;> rfl
    rw [areSame]
    exact wellFormed.ptyIds

theorem Resized.refl (node : SplitNode) : Resized node node := ⟨rfl, id⟩

theorem flatMap_resized (areResized : List.Forall₂ Resized children others) :
    others.flatMap leaves = children.flatMap leaves := by
  induction areResized with
  | nil => rfl
  | cons isResized _ ih =>
    rw [flatMap_cons, flatMap_cons, isResized.leaves, ih]

theorem shaped_resized (areResized : List.Forall₂ Resized children others)
    (areShaped : ∀ child ∈ children, Shaped child) : ∀ child ∈ others, Shaped child := by
  induction areResized with
  | nil => exact areShaped
  | cons isResized _ ih =>
    obtain ⟨first, later⟩ := forall_mem_cons.mp areShaped
    exact forall_mem_cons.mpr ⟨isResized.shaped first, ih later⟩

theorem resized_branch {id : String} {type : Direction} {sizes newSizes : Option (List ℚ)}
    (areResized : List.Forall₂ Resized children others)
    (isSized : Sized children.length sizes → 2 ≤ children.length → Sized children.length newSizes) :
    Resized (.branch id type children sizes) (.branch id type others newSizes) := by
  refine ⟨?_, fun shaped => ?_⟩
  · rw [leaves_branch, leaves_branch, flatMap_resized areResized]
  · cases shaped with
    | branch _ _ isMany wasSized areShaped =>
      have sameLength := areResized.length_eq
      refine .branch id type (sameLength ▸ isMany) ?_ (shaped_resized areResized areShaped)
      exact sameLength ▸ isSized wasSized isMany

theorem setSizesAmong_resized {newSizes : List ℚ}
    (each : ∀ child ∈ children, Fits newSizes child path →
      Resized child (setSizesAtPath newSizes child path)) {head : Nat}
    (fits : ∀ count, childCountAmong children head path = some count → newSizes.length = count) :
    List.Forall₂ Resized children (setSizesAmong newSizes children head path) := by
  induction children generalizing head with
  | nil => exact .nil
  | cons child others ih =>
    obtain ⟨first, later⟩ := forall_mem_cons.mp each
    cases head with
    | zero => exact .cons (first fits) (List.forall₂_same.mpr fun other _ => .refl other)
    | succ head => exact .cons (.refl child) (ih later fits)

theorem setSizesAtPath_resized (node : SplitNode) : ∀ {path : List Nat}, Fits newSizes node path →
      Resized node (setSizesAtPath newSizes node path) := by
  induction node using SplitNode.induction with
  | leaf leaf =>
    intro path _
    rw [setSizesAtPath]
    exact .refl _
  | branch id type children sizes ih =>
    intro path fits
    cases path with
    | nil =>
      exact resized_branch (List.forall₂_same.mpr fun child _ => .refl child)
        fun _ _ => ⟨newSizes, rfl, fits _ rfl⟩
    | cons head rest =>
      exact resized_branch (setSizesAmong_resized
        (fun child isChild => ih child isChild) fits) fun isSized _ => isSized

theorem setSizesAtPath_wellFormed (wellFormed : WellFormed node) (fits : Fits newSizes node path) :
    WellFormed (setSizesAtPath newSizes node path) := by
  have isResized := setSizesAtPath_resized node fits
  refine wellFormed_of_sameIds wellFormed (isResized.shaped wellFormed.shaped) ?_ ?_
  · rw [leafIds, leafIds, isResized.leaves]
  · rw [ptyIds, isResized.leaves]
    exact wellFormed.ptyIds

/-! ## Restoring -/

/-- Panes with terminals from the ids, in their order; the other ids are left. -/
structure Assigned (children others : List SplitNode) (ids left : List String) : Prop where
  length : others.length = children.length
  leafIds : others.flatMap leafIds = children.flatMap leafIds
  ptyIds : others.flatMap ptyIds = ids.take (children.flatMap leaves).length
  left : left = ids.drop (children.flatMap leaves).length
  shaped : (∀ child ∈ children, Shaped child) → ∀ other ∈ others, Shaped other

theorem Assigned.cons {child other : SplitNode} {rest : List SplitNode}
    {ids middle left : List String} (first : Assigned [child] [other] ids middle)
    (later : Assigned rest others middle left) :
    Assigned (child :: rest) (other :: others) ids left := by
  have firstIds := first.leafIds
  have firstPtyIds := first.ptyIds
  have isMiddle := first.left
  simp only [flatMap_singleton] at firstIds firstPtyIds isMiddle
  refine ⟨congrArg (· + 1) later.length, ?_, ?_, ?_, fun areShaped => ?_⟩
  · rw [flatMap_cons, flatMap_cons, firstIds, later.leafIds]
  · rw [flatMap_cons, flatMap_cons, List.length_append, List.take_add, firstPtyIds,
      later.ptyIds, isMiddle]
  · rw [flatMap_cons, List.length_append, later.left, isMiddle, List.drop_drop]
  · obtain ⟨firstShaped, restShaped⟩ := forall_mem_cons.mp areShaped
    exact forall_mem_cons.mpr
      ⟨first.shaped (forall_mem_singleton.mpr firstShaped) other (mem_singleton_self other),
        later.shaped restShaped⟩

theorem assignPtyIdsTo_assigned (each : ∀ child ∈ children, ∀ ids,
      Assigned [child] [(assignPtyIds child ids).1] ids (assignPtyIds child ids).2) : ∀ ids,
    Assigned children (assignPtyIdsTo children ids).1 ids (assignPtyIdsTo children ids).2 := by
  induction children with
  | nil => exact fun ids => ⟨rfl, rfl, rfl, rfl, fun areShaped => areShaped⟩
  | cons child rest ih =>
    obtain ⟨first, later⟩ := forall_mem_cons.mp each
    exact fun ids => (first ids).cons (ih later _)

theorem assignPtyIds_assigned (node : SplitNode) : ∀ ids,
    Assigned [node] [(assignPtyIds node ids).1] ids (assignPtyIds node ids).2 := by
  induction node using SplitNode.induction with
  | leaf leaf =>
    intro ids
    refine ⟨rfl, rfl, ?_, by simp [assignPtyIds, leaves], fun _ other isOther => ?_⟩
    · cases ids <;> simp [assignPtyIds, leaves, ptyIds]
    · rw [mem_singleton.mp isOther, assignPtyIds]
      exact .leaf _
  | branch id type children sizes ih =>
    intro ids
    have all := assignPtyIdsTo_assigned ih ids
    rw [assignPtyIds]
    refine ⟨rfl, ?_, ?_, ?_, fun areShaped other isOther => ?_⟩
    · rw [flatMap_singleton, flatMap_singleton, leafIds_branch, leafIds_branch,
        all.leafIds]
    · rw [flatMap_singleton, flatMap_singleton, ptyIds_branch, leaves_branch, all.ptyIds]
    · rw [flatMap_singleton, leaves_branch, all.left]
    · rw [mem_singleton.mp isOther]
      cases forall_mem_singleton.mp areShaped with
      | branch _ _ isMany _ childrenShaped =>
        refine .branch id type (all.length ▸ isMany) ?_ (all.shaped childrenShaped)
        rw [all.length]
        exact normalizeBranchSizes_sized sizes isMany

/-- The same panes, whose labels are normalized. -/
structure Reread (children others : List SplitNode) : Prop where
  length : others.length = children.length
  leafIds : others.flatMap leafIds = children.flatMap leafIds
  ptyIds : others.flatMap ptyIds = children.flatMap ptyIds
  shaped : (∀ child ∈ children, Shaped child) → ∀ other ∈ others, Shaped other

theorem normalizeSplitTrees_reread {createId : Nat → String} (each : ∀ child ∈ children, ∀ created,
      Reread [child] [(normalizeSplitTree createId child.persisted created).1]) : ∀ created,
    Reread children (normalizeSplitTrees createId (SplitNode.persistedAll children) created).1 := by
  induction children with
  | nil => exact fun _ => ⟨rfl, rfl, rfl, fun areShaped => areShaped⟩
  | cons child rest ih =>
    intro created
    obtain ⟨first, later⟩ := forall_mem_cons.mp each
    have isFirst := first created
    have areLater := ih later
      (normalizeSplitTree createId child.persisted created).2
    have firstIds := isFirst.leafIds
    have firstPtyIds := isFirst.ptyIds
    simp only [flatMap_singleton] at firstIds firstPtyIds
    rw [SplitNode.persistedAll, normalizeSplitTrees]
    refine ⟨congrArg (· + 1) areLater.length, ?_, ?_, fun areShaped => ?_⟩
    · rw [flatMap_cons, flatMap_cons, firstIds, areLater.leafIds]
    · rw [flatMap_cons, flatMap_cons, firstPtyIds, areLater.ptyIds]
    · obtain ⟨firstShaped, restShaped⟩ := forall_mem_cons.mp areShaped
      exact forall_mem_cons.mpr
        ⟨isFirst.shaped (forall_mem_singleton.mpr firstShaped) _ (mem_singleton_self _),
          areLater.shaped restShaped⟩

theorem normalizeSplitTree_reread (createId : Nat → String) (node : SplitNode) : ∀ created,
    Reread [node] [(normalizeSplitTree createId node.persisted created).1] := by
  induction node using SplitNode.induction with
  | leaf leaf =>
    intro created
    refine ⟨rfl, rfl, rfl, fun _ other isOther => ?_⟩
    rw [mem_singleton.mp isOther]
    exact .leaf _
  | branch id type children sizes ih =>
    intro created
    have all := normalizeSplitTrees_reread ih created
    have isBranch : (normalizeSplitTree createId
        (SplitNode.branch id type children sizes).persisted created).1 = .branch id type
          (normalizeSplitTrees createId (SplitNode.persistedAll children) created).1
          (normalizeBranchSizes sizes (normalizeSplitTrees createId
            (SplitNode.persistedAll children) created).1.length) := rfl
    rw [isBranch]
    refine ⟨rfl, ?_, ?_, fun areShaped other isOther => ?_⟩
    · rw [flatMap_singleton, flatMap_singleton, leafIds_branch, leafIds_branch,
        all.leafIds]
    · rw [flatMap_singleton, flatMap_singleton, ptyIds_branch, ptyIds_branch, all.ptyIds]
    · rw [mem_singleton.mp isOther]
      cases forall_mem_singleton.mp areShaped with
      | branch _ _ isMany _ childrenShaped =>
        have stillMany := all.length ▸ isMany
        exact .branch id type stillMany (normalizeBranchSizes_sized sizes stillMany)
          (all.shaped childrenShaped)

theorem assignPtyIds_wellFormed (wellFormed : WellFormed node) {ids : List String}
    (areDifferent : ids.Nodup) : WellFormed (assignPtyIds node ids).1 := by
  have assigned := assignPtyIds_assigned node ids
  refine wellFormed_of_sameIds wellFormed ?_ ?_ ?_
  · exact assigned.shaped (forall_mem_singleton.mpr wellFormed.shaped) _
      (mem_singleton_self _)
  · have sameIds := assigned.leafIds
    rwa [flatMap_singleton, flatMap_singleton] at sameIds
  · have areTaken := assigned.ptyIds
    rw [flatMap_singleton] at areTaken
    rw [areTaken]
    exact areDifferent.sublist (List.take_sublist _ ids)

theorem normalizeSplitTree_wellFormed (wellFormed : WellFormed node) (createId : Nat → String)
    (created : Nat) :
    WellFormed (normalizeSplitTree createId node.persisted created).1 := by
  have reread := normalizeSplitTree_reread createId node created
  have sameIds := reread.leafIds
  have samePtyIds := reread.ptyIds
  simp only [flatMap_singleton] at sameIds samePtyIds
  refine wellFormed_of_sameIds wellFormed ?_ sameIds (samePtyIds ▸ wellFormed.ptyIds)
  exact reread.shaped (forall_mem_singleton.mpr wellFormed.shaped) _
    (mem_singleton_self _)

/-- Sizes included. -/
def SplitsBack (tree : SplitNode) : Prop :=
  ∀ pane ∈ leaves tree, ∀ targetPtyId, pane.ptyId = some targetPtyId →
    ∀ direction insertion, Fresh insertion tree →
      remove insertion.ptyId (splitNode targetPtyId direction insertion tree) = some tree

def RemovesOne (tree : SplitNode) : Prop :=
  ∀ before pane after targetPtyId, leaves tree = before ++ pane :: after →
    pane.ptyId = some targetPtyId → leavesLeft (remove targetPtyId tree) = before ++ after

structure StaysWellFormed (tree : SplitNode) : Prop where
  split : ∀ targetPtyId direction insertion, Fresh insertion tree →
    WellFormed (splitNode targetPtyId direction insertion tree)
  remove : ∀ targetPtyId left, remove targetPtyId tree = some left → WellFormed left
  template : WellFormed (toLayoutTemplate tree)
  normalize : ∀ createId created, WellFormed (normalizeSplitTree createId tree.persisted created).1
  assign : ∀ ids : List String, ids.Nodup → WellFormed (assignPtyIds tree ids).1
  label : ∀ paneId label, WellFormed (setLeafLabel paneId label tree)
  sizes : ∀ newSizes path, Fits newSizes tree path → WellFormed (setSizesAtPath newSizes tree path)

def Restores (tree : SplitNode) : Prop :=
  ∀ createId ids, let again := restored createId (toLayoutTemplate tree) ids
    leafIds again = leafIds tree ∧ countLeaves again = countLeaves tree ∧
      ptyIds again = ids.take (countLeaves tree)

theorem restores (tree : SplitNode) : Restores tree := by
  intro createId ids
  have reread := (normalizeSplitTree_reread createId (toLayoutTemplate tree) 0).leafIds
  have assigned := assignPtyIds_assigned
    (normalizeSplitTree createId (toLayoutTemplate tree).persisted 0).1 ids
  have sameIds := assigned.leafIds
  have areTaken := assigned.ptyIds
  simp only [flatMap_singleton] at reread sameIds areTaken
  rw [reread, leafIds_toLayoutTemplate] at sameIds
  have isCount : (leaves (normalizeSplitTree createId
      (toLayoutTemplate tree).persisted 0).1).length = countLeaves tree := by
    rw [leafIds_toLayoutTemplate] at reread
    have sameLength := congrArg List.length reread
    rwa [leafIds, leafIds, length_map, length_map, ← countLeaves_eq tree] at sameLength
  refine ⟨sameIds, ?_, isCount ▸ areTaken⟩
  have sameLength := congrArg List.length sameIds
  rw [leafIds, leafIds, length_map, length_map] at sameLength
  rw [countLeaves_eq, countLeaves_eq tree]
  exact sameLength

theorem splitTreeAlgebra {tree : SplitNode} (wellFormed : WellFormed tree) :
    SplitsBack tree ∧ (∀ any : SplitNode, (ptyIds any).Nodup → RemovesOne any) ∧
      StaysWellFormed tree ∧ Restores tree := by
  refine ⟨?_, ?_, ?_, restores tree⟩
  · intro _ _ _ _ _ insertion isFresh
    exact remove_splitNode wellFormed.shaped isFresh.ptyId
  · intro any areDifferent before pane after targetPtyId areLeaves isTarget
    exact leavesLeft_remove_at areDifferent areLeaves isTarget
  · exact {
      split := fun _ _ _ isFresh => splitNode_wellFormed wellFormed isFresh
      remove := fun _ _ isLeft => remove_wellFormed wellFormed isLeft
      template := wellFormed_of_sameIds wellFormed (toLayoutTemplate_shaped wellFormed.shaped)
        (leafIds_toLayoutTemplate tree) (by rw [ptyIds_toLayoutTemplate]; exact List.nodup_nil)
      normalize := normalizeSplitTree_wellFormed wellFormed
      assign := fun _ areDifferent => assignPtyIds_wellFormed wellFormed areDifferent
      label := setLeafLabel_wellFormed wellFormed
      sizes := fun _ _ fits => setSizesAtPath_wellFormed wellFormed fits }

/-- Two panes side by side, the second one over a third. -/
def threePanes : SplitNode :=
  .branch "row" .horizontal
    [.leaf ⟨"a", some "pty-a", none⟩, .branch "column" .vertical
      [.leaf ⟨"b", some "pty-b", none⟩, .leaf ⟨"c", some "pty-c", none⟩] (some [1 / 4, 3 / 4])]
    (some [1 / 3, 2 / 3])

def fourth : SplitInsertion := ⟨"split", "d", "pty-d"⟩

theorem threePanes_wellFormed : WellFormed threePanes := by
  refine ⟨.branch _ _ (Nat.le_refl 2) ⟨_, rfl, rfl⟩ fun child isChild => ?_, by decide, by decide⟩
  rcases mem_pair.mp isChild with rfl | rfl
  · exact .leaf _
  · refine .branch _ _ (Nat.le_refl 2) ⟨_, rfl, rfl⟩ fun child isChild => ?_
    rcases mem_pair.mp isChild with rfl | rfl <;> exact .leaf _

theorem splitTreeAlgebra_threePanes :
    remove "pty-d" (splitNode "pty-b" .vertical fourth threePanes) = some threePanes ∧
      leafIds (splitNode "pty-b" .vertical fourth threePanes) = ["a", "b", "d", "c"] :=
  ⟨(splitTreeAlgebra threePanes_wellFormed).1 ⟨"b", some "pty-b", none⟩ (by decide) "pty-b" rfl
    .vertical fourth ⟨by decide, by decide⟩, by decide⟩

end AiTools.Grove.SplitTree
