import AiTools.Lib.Keyed
import Mathlib

/-!
Contract: the graph of `whip graph` (`graph.go`).
-/

namespace AiTools.Whip.Graph

open AiTools.Lib.Keyed

structure GraphNode where
  id : String
  title : String
  dependsOn : List String

abbrev Layers := Table (Prod.fst : String × Nat → String)

def Layers.layer? (layers : Layers) (id : String) : Option Nat := (layers.find? id).map Prod.snd

/-- A map read, which gives zero where there is no entry. -/
def Layers.read (layers : Layers) (id : String) : Nat := (layers.layer? id).getD 0

/-- The pairs `(dep, n.ID)` that the first loop goes through, as often as they are listed. -/
def edges (nodes : List GraphNode) : List (String × String) :=
  nodes.flatMap fun node => node.dependsOn.map fun dep => (dep, node.id)

def children (nodes : List GraphNode) (dep : String) : List String :=
  ((edges nodes).filter fun edge => edge.1 = dep).map Prod.snd

def inDegree (nodes : List GraphNode) (id : String) : Int :=
  (edges nodes).countP fun edge => edge.2 = id

/-- The state of the sort. Of the processed nodes the source keeps the number only. -/
structure Sorting where
  inDegree : String → Int
  layers : Layers
  queue : List String
  processed : List String

def Sorting.onNode (sorting : Sorting) (node : GraphNode) : Sorting :=
  if sorting.inDegree node.id = 0 then
    { sorting with
      queue := sorting.queue ++ [node.id]
      layers := sorting.layers.put (node.id, 0) }
  else sorting

def start (nodes : List GraphNode) : Sorting :=
  nodes.foldl Sorting.onNode ⟨inDegree nodes, .empty, [], []⟩

def Sorting.onChild (id : String) (sorting : Sorting) (child : String) : Sorting :=
  let newLayer := sorting.layers.read id + 1
  let left := sorting.inDegree child - 1
  { sorting with
    layers :=
      if sorting.layers.read child < newLayer then sorting.layers.put (child, newLayer)
      else sorting.layers
    inDegree := Function.update sorting.inDegree child left
    queue := if left = 0 then sorting.queue ++ [child] else sorting.queue }

/-- One turn of the loop, while there is something in the queue. -/
def Sorting.turn (nodes : List GraphNode) (sorting : Sorting) : Sorting :=
  match sorting.queue with
  | [] => sorting
  | id :: queue =>
    (children nodes id).foldl (Sorting.onChild id)
      { sorting with queue := queue, processed := sorting.processed ++ [id] }

def Sorting.loop (nodes : List GraphNode) : Nat → Sorting → Sorting
  | 0, sorting => sorting
  | turns + 1, sorting => Sorting.loop nodes turns (sorting.turn nodes)

/-- `nil` for a cycle. No more turns are taken than there are nodes (see `loop_ended`). -/
def assignLayers (nodes : List GraphNode) : Option Layers :=
  let sorting := Sorting.loop nodes nodes.length (start nodes)
  if sorting.processed.length < nodes.length then none else some sorting.layers

/-- The last node of that id. -/
def nodeMap (nodes : List GraphNode) (id : String) : Option GraphNode :=
  nodes.reverse.find? fun node => node.id = id

/-- The position of the last node of that id, or zero. -/
def inputOrder (nodes : List GraphNode) (id : String) : Nat :=
  ((nodes.zipIdx.reverse.find? fun entry => entry.1.id = id).map Prod.snd).getD 0

def maxLayer (layers : Layers) : Nat := (layers.entries.map Prod.snd).foldl max 0

def layerGroup (nodes : List GraphNode) (layers : Layers) (layer : Nat) : List String :=
  ((layers.entries.filter fun entry => entry.2 = layer).map Prod.fst).insertionSort
    fun first second => inputOrder nodes first ≤ inputOrder nodes second

def formatLabel (id title : String) : String := if title = "" then id else id ++ ": " ++ title

/-- `none` stands for a panic, as everywhere below. -/
def truncateRunes (s : String) (maxLen : Int) : Option String :=
  if (s.length : Int) ≤ maxLen then some s
  else if maxLen ≤ 1 then if maxLen < 0 then none else some (String.ofList (s.toList.take maxLen.toNat))
  else some (String.ofList (s.toList.take (maxLen - 1).toNat) ++ "…")

/-- `strings.Repeat`. -/
def repeats (s : String) (count : Int) : Option String :=
  if count < 0 then none else some (String.join (List.replicate count.toNat s))

def padH : Nat := 1

def maxW : Nat := 20

def hGap : Nat := 4

def GraphNode.width (node : GraphNode) : Nat :=
  min ((formatLabel node.id node.title).length + padH * 2 + 2) maxW

def boxWidth (nodes : List GraphNode) (id : String) : Int :=
  ((nodeMap nodes id).map fun node => (node.width : Int)).getD 0

def joinParts (parts : List String) : String :=
  (String.join (List.replicate hGap " ")).intercalate parts

def renderTopBorder (nodes : List GraphNode) (group : List String) : Option String := do
  let parts ← group.mapM fun id => do
    let line ← repeats "─" (boxWidth nodes id - 2)
    return "┌" ++ line ++ "┐"
  return joinParts parts

def renderMiddle (nodes : List GraphNode) (group : List String) : Option String := do
  let parts ← group.mapM fun id => do
    let node ← nodeMap nodes id
    let innerW := boxWidth nodes id - 2
    let label ← truncateRunes (formatLabel node.id node.title) (innerW - padH * 2)
    let rightPad := max (innerW - padH - label.length) 0
    let left ← repeats " " padH
    let right ← repeats " " rightPad
    return "│" ++ left ++ label ++ right ++ "│"
  return joinParts parts

/-- Some node of a later layer depends on the id. -/
def hasChild (nodes : List GraphNode) (layers : Layers) (id : String) : Bool :=
  nodes.any fun node => node.dependsOn.any fun dep =>
    dep = id && layers.read id < layers.read node.id

def renderBottomBorder (nodes : List GraphNode) (layers : Layers) (hasNextLayer : Bool)
    (group : List String) : Option String := do
  let parts ← group.mapM fun id => do
    let w := boxWidth nodes id
    if hasNextLayer && hasChild nodes layers id then
      let mid := (w - 2).tdiv 2
      let left ← repeats "─" mid
      let right ← repeats "─" (w - 3 - mid)
      return "└" ++ left ++ "┬" ++ right ++ "┘"
    else
      let line ← repeats "─" (w - 2)
      return "└" ++ line ++ "┘"
  return joinParts parts

/-- The three lines of each layer that has nodes. -/
def renderRows (nodes : List GraphNode) (layers : Layers) : Option (List (List String)) :=
  ((List.range (maxLayer layers + 1)).filter fun layer => layerGroup nodes layers layer ≠ []).mapM
    fun layer => do
      let group := layerGroup nodes layers layer
      let topLine ← renderTopBorder nodes group
      let midLine ← renderMiddle nodes group
      let botLine ← renderBottomBorder nodes layers (layer < maxLayer layers) group
      return [topLine, midLine, botLine]

/-- The boxes, or the text for a cycle. -/
def renderGraph (nodes : List GraphNode) : Option (Except String (List (List String))) :=
  if nodes = [] then some (.ok [])
  else
    match assignLayers nodes with
    | none => some (.error "Error: cycle detected in dependency graph")
    | some layers => (renderRows nodes layers).map .ok

end AiTools.Whip.Graph
