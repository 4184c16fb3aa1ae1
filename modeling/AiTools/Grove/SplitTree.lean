import Mathlib
import AiTools.Lib.Utf16

/-!
Contract: the tree of a tab's split panes (`split-tree.ts`).

A child list that is missing is an empty one, as every operation reads it. Sizes are rational.
-/

namespace AiTools.Grove.SplitTree

def terminalPaneLabelMaxLength : Nat := 20

/-- Text in UTF-16 code units. -/
abbrev Label := List UInt16

inductive Direction where
  | horizontal
  | vertical

structure Leaf where
  id : String
  ptyId : Option String
  label : Option Label
deriving DecidableEq

inductive SplitNode where
  | leaf (leaf : Leaf)
  | branch (id : String) (type : Direction) (children : List SplitNode) (sizes : Option (List ℚ))

/-- What is read of a layout file. Without a direction, the type is "leaf" or not one at all. -/
inductive PersistedSplitNode where
  | mk (id : Option String) (type : Option Direction) (ptyId : Option String)
      (label : Option Label) (children : List PersistedSplitNode) (sizes : Option (List ℚ))

structure SplitInsertion where
  branchId : String
  leafId : String
  ptyId : String

def normalizeRatios (sizes : List ℚ) : Option (List ℚ) :=
  let clamped := sizes.map (max · 0)
  let total := clamped.sum
  if 0 < total then some (clamped.map (· / total)) else none

def evenRatios (count : Nat) : Option (List ℚ) :=
  if 1 < count then some (List.replicate count (1 / count)) else none

def normalizeBranchSizes (sizes : Option (List ℚ)) (childCount : Nat) : Option (List ℚ) :=
  if childCount ≤ 1 then none
  else match sizes with
    | none => evenRatios childCount
    | some sizes =>
      if sizes.length ≠ childCount then evenRatios childCount
      else (normalizeRatios sizes).or (evenRatios childCount)

def rebalanceBranchSizes (sizes : Option (List ℚ)) (retainedIndices : List Nat) :
    Option (List ℚ) :=
  if retainedIndices.length ≤ 1 then none
  else match sizes with
    | none | some [] => evenRatios retainedIndices.length
    | some sizes =>
      (normalizeRatios (retainedIndices.map fun index => sizes[index]?.getD 0)).or
        (evenRatios retainedIndices.length)

/-- The units that `trim` takes away. -/
def isWhiteSpace (unit : UInt16) : Bool :=
  (0x09 ≤ unit && unit ≤ 0x0d) || (0x2000 ≤ unit && unit ≤ 0x200a) ||
    [0x20, 0xa0, 0x1680, 0x2028, 0x2029, 0x202f, 0x205f, 0x3000, 0xfeff].contains unit

def trim (text : Label) : Label := (text.dropWhile isWhiteSpace).rdropWhile isWhiteSpace

def normalizePaneLabel (label : Option Label) : Option Label :=
  let trimmed := label.map fun label => (trim label).take terminalPaneLabelMaxLength
  if trimmed = some [] then none else trimmed

/-- As many sizes as children. -/
def Sized (count : Nat) (sizes : Option (List ℚ)) : Prop :=
  ∃ list, sizes = some list ∧ list.length = count

variable {count : Nat}

theorem evenRatios_sized (isMany : 2 ≤ count) : Sized count (evenRatios count) :=
  ⟨_, if_pos isMany, List.length_replicate⟩

theorem normalizeRatios_or_sized {sizes : List ℚ} (isMany : 2 ≤ count)
    (isLength : sizes.length = count) :
    Sized count ((normalizeRatios sizes).or (evenRatios count)) := by
  unfold normalizeRatios
  dsimp only
  split_ifs with isPositive
  · exact ⟨_, rfl, by rw [List.length_map, List.length_map, isLength]⟩
  · exact evenRatios_sized isMany

theorem normalizeBranchSizes_sized (sizes : Option (List ℚ)) (isMany : 2 ≤ count) :
    Sized count (normalizeBranchSizes sizes count) := by
  unfold normalizeBranchSizes
  rw [if_neg (by omega)]
  cases sizes with
  | none => exact evenRatios_sized isMany
  | some sizes =>
    dsimp only
    split_ifs with isOther
    · exact evenRatios_sized isMany
    · exact normalizeRatios_or_sized isMany (not_not.mp isOther)

theorem rebalanceBranchSizes_sized (sizes : Option (List ℚ)) {retainedIndices : List Nat}
    (isMany : 2 ≤ retainedIndices.length) :
    Sized retainedIndices.length (rebalanceBranchSizes sizes retainedIndices) := by
  unfold rebalanceBranchSizes
  rw [if_neg (by omega)]
  split
  · exact evenRatios_sized isMany
  · exact evenRatios_sized isMany
  · exact normalizeRatios_or_sized isMany (List.length_map _)

/-! ## Operations -/

/-- What `removeNode` returns: the node that it was given, no node, or another one. -/
inductive Removed where
  | same
  | null
  | node (node : SplitNode)

def Removed.isSame : Removed → Bool
  | .same => true
  | _ => false

def Removed.on (given : SplitNode) : Removed → Option SplitNode
  | .same => some given
  | .null => none
  | .node other => some other

def retainedIndices : Nat → List (Option SplitNode) → List Nat
  | _, [] => []
  | index, none :: rest => retainedIndices (index + 1) rest
  | index, some _ :: rest => index :: retainedIndices (index + 1) rest

section Recursions

variable (createId : Nat → String) (targetPtyId : String) (direction : Direction)
  (insertion : SplitInsertion) (paneId : String) (label : Option Label) (newSizes : List ℚ)

mutual

/-- `created` counts the calls of `createId`. -/
def normalizeSplitTree : PersistedSplitNode → Nat → SplitNode × Nat
  | .mk id? type? ptyId label children sizes, created =>
    let id := id?.getD (createId created)
    let created := if id?.isSome then created else created + 1
    match type? with
    | none => (.leaf ⟨id, ptyId, normalizePaneLabel label⟩, created)
    | some type =>
      let normalized := normalizeSplitTrees children created
      (.branch id type normalized.1 (normalizeBranchSizes sizes normalized.1.length), normalized.2)

def normalizeSplitTrees : List PersistedSplitNode → Nat → List SplitNode × Nat
  | [], created => ([], created)
  | child :: rest, created =>
    let first := normalizeSplitTree child created
    let others := normalizeSplitTrees rest first.2
    (first.1 :: others.1, others.2)

end

mutual

def toLayoutTemplate : SplitNode → SplitNode
  | .leaf leaf => .leaf ⟨leaf.id, none, normalizePaneLabel leaf.label⟩
  | .branch id type children sizes =>
    .branch id type (toLayoutTemplates children) (normalizeBranchSizes sizes children.length)

def toLayoutTemplates : List SplitNode → List SplitNode
  | [] => []
  | child :: rest => toLayoutTemplate child :: toLayoutTemplates rest

end

mutual

def countLeaves : SplitNode → Nat
  | .leaf _ => 1
  | .branch _ _ children _ => countLeavesOf children

def countLeavesOf : List SplitNode → Nat
  | [] => 0
  | child :: rest => countLeaves child + countLeavesOf rest

end

mutual

/-- The ids that are left are the second part: `ids.shift()`. -/
def assignPtyIds : SplitNode → List String → SplitNode × List String
  | .leaf leaf, ids => (.leaf ⟨leaf.id, ids.head?, normalizePaneLabel leaf.label⟩, ids.tail)
  | .branch id type children sizes, ids =>
    let assigned := assignPtyIdsTo children ids
    (.branch id type assigned.1 (normalizeBranchSizes sizes children.length), assigned.2)

def assignPtyIdsTo : List SplitNode → List String → List SplitNode × List String
  | [], ids => ([], ids)
  | child :: rest, ids =>
    let first := assignPtyIds child ids
    let others := assignPtyIdsTo rest first.2
    (first.1 :: others.1, others.2)

end

mutual

def setLeafLabel : SplitNode → SplitNode
  | .leaf leaf =>
    if leaf.id = paneId then .leaf { leaf with label := normalizePaneLabel label } else .leaf leaf
  | .branch id type children sizes => .branch id type (setLeafLabels children) sizes

def setLeafLabels : List SplitNode → List SplitNode
  | [] => []
  | child :: rest => setLeafLabel child :: setLeafLabels rest

end

mutual

def splitNode : SplitNode → SplitNode
  | .leaf leaf =>
    if leaf.ptyId = some targetPtyId then
      .branch insertion.branchId direction
        [.leaf leaf, .leaf ⟨insertion.leafId, some insertion.ptyId, none⟩] (some [1 / 2, 1 / 2])
    else .leaf leaf
  | .branch id type children sizes => .branch id type (splitNodes children) sizes

def splitNodes : List SplitNode → List SplitNode
  | [] => []
  | child :: rest => splitNode child :: splitNodes rest

end

mutual

def removeNode : SplitNode → Removed
  | .leaf leaf => if leaf.ptyId = some targetPtyId then .null else .same
  | .branch id type children sizes =>
    let removed := removeNodes children
    if removed.all Removed.isSame then .same
    else
      let next := List.zipWith Removed.on children removed
      match next.reduceOption with
      | [] => .null
      | [only] => .node only
      | filtered =>
        if filtered.length = children.length then .node (.branch id type filtered sizes)
        else .node (.branch id type filtered
          (rebalanceBranchSizes sizes (retainedIndices 0 next)))

def removeNodes : List SplitNode → List Removed
  | [] => []
  | child :: rest => removeNode child :: removeNodes rest

end

mutual

/-- A leaf has no use for sizes. -/
def setSizesAtPath : SplitNode → List Nat → SplitNode
  | .leaf leaf, _ => .leaf leaf
  | .branch id type children _, [] => .branch id type children (some newSizes)
  | .branch id type children sizes, head :: rest =>
    .branch id type (setSizesAmong children head rest) sizes

def setSizesAmong : List SplitNode → Nat → List Nat → List SplitNode
  | [], _, _ => []
  | child :: others, 0, path => setSizesAtPath child path :: others
  | child :: others, head + 1, path => child :: setSizesAmong others head path

end

end Recursions

mutual

/-- The file that a tree is written to, read again. -/
def SplitNode.persisted : SplitNode → PersistedSplitNode
  | .leaf pane => .mk (some pane.id) none pane.ptyId pane.label [] none
  | .branch id type children sizes =>
    .mk (some id) (some type) none none (SplitNode.persistedAll children) sizes

def SplitNode.persistedAll : List SplitNode → List PersistedSplitNode
  | [] => []
  | child :: rest => child.persisted :: SplitNode.persistedAll rest

end

/-- The tree that a template is restored to, with the terminals `ids`. -/
def restored (createId : Nat → String) (template : SplitNode) (ids : List String) : SplitNode :=
  (assignPtyIds (normalizeSplitTree createId template.persisted 0).1 ids).1

mutual

def leaves : SplitNode → List Leaf
  | .leaf leaf => [leaf]
  | .branch _ _ children _ => leavesOf children

def leavesOf : List SplitNode → List Leaf
  | [] => []
  | child :: rest => leaves child ++ leavesOf rest

end

inductive Shaped : SplitNode → Prop where
  | leaf (leaf : Leaf) : Shaped (.leaf leaf)
  | branch (id : String) (type : Direction) {children : List SplitNode}
      {sizes : Option (List ℚ)} (isMany : 2 ≤ children.length)
      (isSized : Sized children.length sizes) (areShaped : ∀ child ∈ children, Shaped child) :
      Shaped (.branch id type children sizes)

def ptyIds (node : SplitNode) : List String := (leaves node).filterMap Leaf.ptyId

def leafIds (node : SplitNode) : List String := (leaves node).map Leaf.id

structure WellFormed (node : SplitNode) : Prop where
  shaped : Shaped node
  leafIds : (leafIds node).Nodup
  ptyIds : (ptyIds node).Nodup

structure Fresh (insertion : SplitInsertion) (node : SplitNode) : Prop where
  leafId : insertion.leafId ∉ leafIds node
  ptyId : insertion.ptyId ∉ ptyIds node

theorem SplitNode.induction {motive : SplitNode → Prop} (leaf : ∀ leaf, motive (.leaf leaf))
    (branch : ∀ id type children sizes, (∀ child ∈ children, motive child) →
      motive (.branch id type children sizes)) (node : SplitNode) : motive node :=
  @SplitNode.rec motive (fun children => ∀ child ∈ children, motive child) leaf branch
    (fun _ isNone => absurd isNone List.not_mem_nil)
    (fun _ _ first others => List.forall_mem_cons.mpr ⟨first, others⟩) node

theorem leavesOf_eq (children : List SplitNode) : leavesOf children = children.flatMap leaves := by
  induction children with
  | nil => rfl
  | cons child rest ih =>
    rw [leavesOf, ih, List.flatMap_cons]

theorem leaves_branch (id : String) (type : Direction) (children : List SplitNode)
    (sizes : Option (List ℚ)) :
    leaves (.branch id type children sizes) = children.flatMap leaves := leavesOf_eq children

theorem countLeaves_eq (node : SplitNode) : countLeaves node = (leaves node).length := by
  induction node using SplitNode.induction with
  | leaf => rfl
  | branch id type children sizes ih =>
    rw [leaves_branch, countLeaves]
    induction children with
    | nil => rfl
    | cons child rest others =>
      obtain ⟨first, later⟩ := List.forall_mem_cons.mp ih
      rw [countLeavesOf, first, others later, List.flatMap_cons, List.length_append]

end AiTools.Grove.SplitTree
