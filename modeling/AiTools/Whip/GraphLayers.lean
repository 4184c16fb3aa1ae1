import AiTools.Lib.Dag
import AiTools.Whip.Graph

/-!
Contract: the layers of the graph are the heights of its nodes.
-/

namespace AiTools.Whip.Graph

open AiTools.Lib.Dag
open AiTools.Lib.Keyed
open List (append_nil countP_cons count_eq_zero length_map map_append mem_append mem_append_left
  mem_cons mem_cons_self mem_map mem_singleton nodup_append)
open Option (ne_none_iff_exists' some_ne_none)

variable {nodes : List GraphNode}

theorem layer?_put (layers : Layers) (id other : String) (layer : Nat) :
    Layers.layer? (layers.put (id, layer)) other =
      if id = other then some layer else layers.layer? other := by
  unfold Layers.layer?
  rw [Table.find?_put]
  split_ifs
  · rfl
  · rfl

variable {layers : Layers} {id dep : String} {layer : Nat} {sorting : Sorting}
  {processed : List String}

theorem read_eq (found : layers.layer? id = some layer) : layers.read id = layer := by
  unfold Layers.read
  rw [found]
  rfl

theorem mem_edges :
    (dep, id) ∈ edges nodes ↔ ∃ node ∈ nodes, node.id = id ∧ dep ∈ node.dependsOn := by
  unfold edges
  rw [List.mem_flatMap]
  constructor
  · rintro ⟨node, isNode, isPair⟩
    obtain ⟨other, isDep, same⟩ := mem_map.mp isPair
    cases same
    exact ⟨node, isNode, rfl, isDep⟩
  · rintro ⟨node, isNode, rfl, isDep⟩
    exact ⟨node, isNode, mem_map.mpr ⟨dep, isDep, rfl⟩⟩

theorem mem_children : id ∈ children nodes dep ↔ (dep, id) ∈ edges nodes := by
  unfold children
  rw [mem_map]
  constructor
  · rintro ⟨⟨first, second⟩, isEdge, rfl⟩
    obtain ⟨isEdge, isDep⟩ := List.mem_filter.mp isEdge
    rw [← of_decide_eq_true isDep]
    exact isEdge
  · intro isEdge
    exact ⟨(dep, id), List.mem_filter.mpr ⟨isEdge, decide_eq_true rfl⟩, rfl⟩

theorem count_children (dep id : String) : (children nodes dep).count id =
      (edges nodes).countP fun edge => edge.1 = dep ∧ edge.2 = id := by
  unfold children
  rw [List.count, List.countP_map, List.countP_filter]
  apply List.countP_congr
  intro edge _
  simp [and_comm]

/-- What the loop over the children leaves. -/
structure After (id : String) (height : Nat) (children : List String) (sorting next : Sorting) :
    Prop where
  inDegree : ∀ other, next.inDegree other = sorting.inDegree other - children.count other
  layers : ∀ other, next.layers.layer? other =
    if other ∈ children then some (max (sorting.layers.read other) (height + 1))
    else sorting.layers.layer? other
  queue : ∃ added, next.queue = sorting.queue ++ added ∧ added.Nodup ∧
    ∀ other, other ∈ added ↔ other ∈ children ∧ sorting.inDegree other = children.count other
  processed : next.processed = sorting.processed

theorem onChild_layers {child : String} (other : String) :
    (Sorting.onChild id sorting child).layers.layer? other =
      if other = child then some (max (sorting.layers.read child) (sorting.layers.read id + 1))
      else sorting.layers.layer? other := by
  unfold Sorting.onChild
  dsimp only
  split_ifs with isNewer same same
  · rw [layer?_put, if_pos same.symm, Nat.max_eq_right isNewer.le]
  · rw [layer?_put, if_neg (Ne.symm same)]
  · rw [same, Nat.max_eq_left (Nat.le_of_not_lt isNewer)]
    cases found : sorting.layers.layer? child with
    | none =>
      have isZero : sorting.layers.read child = 0 := by
        unfold Layers.read
        rw [found]
        rfl
      omega
    | some layer => rw [read_eq found]
  · rfl

theorem foldl_onChild {height : Nat} (children : List String) :
    ∀ sorting : Sorting, id ∉ children → sorting.layers.read id = height →
      (∀ other, (children.count other : Int) ≤ max 0 (sorting.inDegree other)) →
      After id height children sorting (children.foldl (Sorting.onChild id) sorting) := by
  induction children with
  | nil =>
    intro sorting _ _ _
    exact ⟨fun other => by simp, fun other => by simp,
      ⟨[], by simp, List.nodup_nil, by simp⟩, rfl⟩
  | cons child later ih =>
    intro sorting isOther isHeight counted
    rw [mem_cons, not_or] at isOther
    have heightKept : (Sorting.onChild id sorting child).layers.read id = height := by
      unfold Layers.read
      rw [onChild_layers, if_neg isOther.1]
      exact isHeight
    have degree : ∀ other, (Sorting.onChild id sorting child).inDegree other =
        if other = child then sorting.inDegree child - 1 else sorting.inDegree other := by
      intro other
      show Function.update sorting.inDegree child (sorting.inDegree child - 1) other = _
      rw [Function.update_apply]
    have count : ∀ other, ((child :: later).count other : Int) =
        later.count other + if other = child then 1 else 0 := by
      intro other
      rw [List.count_cons]
      by_cases same : other = child
      · simp [same]
      · simp [same, Ne.symm same]
    obtain ⟨inDegree, layers, ⟨added, queue, distinct, members⟩, processed⟩ :=
      ih (Sorting.onChild id sorting child) isOther.2 heightKept (by
        intro other
        have own := counted other
        rw [count] at own
        rw [degree]
        split_ifs at own ⊢ with same
        · subst same
          omega
        · omega)
    rw [List.foldl_cons]
    constructor
    case inDegree =>
      intro other
      rw [inDegree, degree, count]
      split_ifs with same
      · rw [same]
        omega
      · omega
    case layers =>
      intro other
      rw [layers]
      unfold Layers.read
      rw [onChild_layers]
      by_cases same : other = child
      · rw [if_pos same, same, isHeight]
        rw [if_pos mem_cons_self, Option.getD_some, Nat.max_assoc, Nat.max_self]
        split_ifs
        · rfl
        · rfl
      · rw [if_neg same]
        simp [same]
    case queue =>
      have own := counted child
      rw [count, if_pos rfl] at own
      have isQueue : (Sorting.onChild id sorting child).queue =
          if sorting.inDegree child - 1 = 0 then sorting.queue ++ [child] else sorting.queue := rfl
      by_cases isLast : sorting.inDegree child - 1 = 0
      · have notLater : child ∉ later := by
          rw [← count_eq_zero]
          omega
        have notAdded : child ∉ added := fun isAdded =>
          notLater ((members child).mp isAdded).1
        rw [if_pos isLast] at isQueue
        refine ⟨child :: added, by rw [queue, isQueue]; simp,
          List.nodup_cons.mpr ⟨notAdded, distinct⟩, ?_⟩
        intro other
        rw [mem_cons, members, count, degree, mem_cons]
        by_cases same : other = child
        · subst same
          have none := count_eq_zero.mpr notLater
          simp only [true_or, true_and, if_true, true_iff]
          omega
        · simp [same]
      · rw [if_neg isLast] at isQueue
        refine ⟨added, by rw [queue, isQueue], distinct, ?_⟩
        intro other
        rw [members, count, degree, mem_cons]
        by_cases same : other = child
        · subst same
          simp only [true_or, true_and, if_true]
          constructor
          · rintro ⟨_, isCount⟩
            omega
          · intro isCount
            refine ⟨?_, by omega⟩
            rw [← List.count_pos_iff]
            omega
        · simp [same]
    case processed => exact processed

/-! ## The invariant -/

/-- The edges to the node whose first end is not processed yet. -/
def openEdges (nodes : List GraphNode) (processed : List String) (id : String) : Nat :=
  (edges nodes).countP fun edge => edge.2 = id ∧ edge.1 ∉ processed

theorem openEdges_eq_zero :
    openEdges nodes processed id = 0 ↔ ∀ dep, (dep, id) ∈ edges nodes → dep ∈ processed := by
  unfold openEdges
  rw [List.countP_eq_zero]
  constructor
  · intro none dep isEdge
    have closed := none (dep, id) isEdge
    simpa using closed
  · intro all edge isEdge
    obtain ⟨dep, child⟩ := edge
    simp only [decide_eq_true_eq, not_and, not_not]
    rintro rfl
    exact all dep isEdge

theorem openEdges_concat (isNew : id ∉ processed) (other : String) :
    openEdges nodes processed other =
      openEdges nodes (processed ++ [id]) other + (children nodes id).count other := by
  rw [count_children]
  unfold openEdges
  induction edges nodes with
  | nil => rfl
  | cons edge later ih =>
    rw [countP_cons, countP_cons, countP_cons, ih]
    obtain ⟨dep, child⟩ := edge
    by_cases isChild : child = other
    · by_cases isDep : dep = id
      · subst isDep
        simp [isChild, isNew]
        omega
      · simp [isChild, isDep]
        omega
    · simp [isChild]

structure Sound (nodes : List GraphNode) (sorting : Sorting) : Prop where
  distinct : (sorting.processed ++ sorting.queue).Nodup
  degree : ∀ id, sorting.inDegree id = openEdges nodes sorting.processed id
  ready : ∀ id, id ∈ sorting.processed ++ sorting.queue ↔
    id ∈ nodes.map GraphNode.id ∧ sorting.inDegree id = 0
  rises : ∀ dep id, (dep, id) ∈ edges nodes → dep ∈ sorting.processed →
    sorting.layers.read dep < sorting.layers.read id
  attained : ∀ id, sorting.layers.read id = 0 ∨ ∃ dep, (dep, id) ∈ edges nodes ∧
    dep ∈ sorting.processed ∧ sorting.layers.read id = sorting.layers.read dep + 1
  layered : ∀ id ∈ sorting.processed ++ sorting.queue, sorting.layers.layer? id ≠ none
  listed : ∀ id, sorting.layers.layer? id ≠ none → id ∈ nodes.map GraphNode.id

theorem edge_listed (isEdge : (dep, id) ∈ edges nodes) : id ∈ nodes.map GraphNode.id := by
  obtain ⟨node, isNode, isId, _⟩ := mem_edges.mp isEdge
  exact mem_map.mpr ⟨node, isNode, isId⟩

theorem foldl_onNode (distinct : (nodes.map GraphNode.id).Nodup) (degrees : String → Int) :
    ∃ layers : Layers, ∃ queue : List String,
      nodes.foldl Sorting.onNode ⟨degrees, .empty, [], []⟩ = ⟨degrees, layers, queue, []⟩ ∧
        queue.Nodup ∧ (∀ id, id ∈ queue ↔ id ∈ nodes.map GraphNode.id ∧ degrees id = 0) ∧
        ∀ id, layers.layer? id = if id ∈ queue then some 0 else none := by
  induction nodes using List.reverseRecOn with
  | nil => exact ⟨.empty, [], rfl, List.nodup_nil, by simp, fun id => rfl⟩
  | append_singleton earlier node ih =>
    rw [map_append, nodup_append] at distinct
    obtain ⟨layers, queue, folded, isNodup, members, isLayer⟩ := ih distinct.1
    have isNew : node.id ∉ queue := fun isQueued =>
      distinct.2.2 _ ((members node.id).mp isQueued).1 node.id (by simp) rfl
    rw [List.foldl_concat, folded]
    unfold Sorting.onNode
    dsimp only
    split_ifs with isZero
    · refine ⟨_, _, rfl, ?_, ?_, ?_⟩
      · rw [nodup_append]
        refine ⟨isNodup, List.nodup_singleton _, ?_⟩
        rintro other isOther last isLast rfl
        rw [mem_singleton.mp isLast] at isOther
        exact isNew isOther
      · intro id
        rw [mem_append, members, map_append, mem_append]
        by_cases same : id = node.id
        · simp [same, isZero]
        · simp [same]
      · intro id
        rw [layer?_put, isLayer]
        by_cases same : id = node.id
        · simp [same]
        · simp [same, Ne.symm same]
    · refine ⟨_, _, rfl, isNodup, ?_, isLayer⟩
      intro id
      rw [members, map_append, mem_append]
      by_cases same : id = node.id
      · simp [same, isZero]
      · simp [same]

theorem start_sound (distinct : (nodes.map GraphNode.id).Nodup) : Sound nodes (start nodes) := by
  obtain ⟨layers, queue, isStart, isNodup, members, isLayer⟩ :=
    foldl_onNode distinct (inDegree nodes)
  have isZero : ∀ id, layers.read id = 0 := by
    intro id
    unfold Layers.read
    rw [isLayer]
    split_ifs <;> rfl
  unfold start
  rw [isStart]
  constructor
  case distinct => exact isNodup
  case degree =>
    intro id
    show inDegree nodes id = openEdges nodes [] id
    unfold inDegree openEdges
    simp
  case ready => exact members
  case rises => exact fun dep id _ isDone => absurd isDone List.not_mem_nil
  case attained => exact fun id => .inl (isZero id)
  case layered =>
    intro id isQueued
    have isIn : id ∈ queue := isQueued
    show layers.layer? id ≠ none
    rw [isLayer, if_pos isIn]
    exact some_ne_none 0
  case listed =>
    intro id
    show layers.layer? id ≠ none → _
    rw [isLayer]
    split_ifs with isQueued
    · exact fun _ => ((members id).mp isQueued).1
    · exact fun never => absurd rfl never

theorem turn_sound (sound : Sound nodes sorting) {queue : List String}
    (isQueue : sorting.queue = id :: queue) :
    Sound nodes (sorting.turn nodes) ∧
      (sorting.turn nodes).processed = sorting.processed ++ [id] := by
  have distinct := sound.distinct
  have ready := sound.ready
  rw [isQueue] at distinct ready
  have isReady : id ∈ sorting.processed ++ id :: queue := by simp
  have isNew : id ∉ sorting.processed := fun isDone =>
    (List.disjoint_of_nodup_append distinct) isDone mem_cons_self
  have isClosed : ∀ other, other ∈ sorting.processed ++ id :: queue →
      ∀ dep, (dep, other) ∈ edges nodes → dep ∈ sorting.processed := by
    intro other isOther
    have isZero := ((ready other).mp isOther).2
    rw [sound.degree] at isZero
    exact openEdges_eq_zero.mp (by exact_mod_cast isZero)
  -- Nothing that is ready is a child of the node.
  have notChild : ∀ other ∈ sorting.processed ++ id :: queue, other ∉ children nodes id :=
    fun other isOther isChild => isNew (isClosed other isOther id (mem_children.mp isChild))
  obtain ⟨height, isHeight⟩ : ∃ height, sorting.layers.read id = height := ⟨_, rfl⟩
  have after : After id height (children nodes id)
      { sorting with queue := queue, processed := sorting.processed ++ [id] }
      (sorting.turn nodes) := by
    unfold Sorting.turn
    rw [isQueue]
    refine foldl_onChild (children nodes id) _ (notChild id isReady) isHeight ?_
    intro other
    show _ ≤ max 0 (sorting.inDegree other)
    have split : openEdges nodes sorting.processed other = _ := openEdges_concat isNew other
    rw [sound.degree]
    omega
  obtain ⟨inDegree, layers, ⟨added, isAdded, addedDistinct, members⟩, processed⟩ := after
  dsimp only at inDegree layers isAdded members processed
  have kept : ∀ other ∈ sorting.processed ++ id :: queue,
      (sorting.turn nodes).layers.read other = sorting.layers.read other := by
    intro other isOther
    unfold Layers.read
    rw [layers, if_neg (notChild other isOther)]
  have grows : ∀ other, sorting.layers.read other ≤ (sorting.turn nodes).layers.read other := by
    intro other
    by_cases isChild : other ∈ children nodes id
    · rw [read_eq ((layers other).trans (if_pos isChild))]
      exact Nat.le_max_left _ _
    · unfold Layers.read
      rw [layers, if_neg isChild]
  have degree : ∀ other, (sorting.turn nodes).inDegree other =
      openEdges nodes (sorting.processed ++ [id]) other := by
    intro other
    rw [inDegree, sound.degree, openEdges_concat isNew]
    omega
  have isAll : (sorting.turn nodes).processed ++ (sorting.turn nodes).queue =
      (sorting.processed ++ id :: queue) ++ added := by
    rw [processed, isAdded]
    simp
  refine ⟨?_, processed⟩
  constructor
  case distinct =>
    rw [isAll, nodup_append]
    refine ⟨distinct, addedDistinct, ?_⟩
    rintro other isOther last isLast rfl
    exact notChild other isOther ((members other).mp isLast).1
  case degree =>
    rw [processed]
    exact degree
  case ready =>
    intro other
    rw [isAll, mem_append, ready, members, inDegree]
    constructor
    · rintro (⟨isListed, isZero⟩ | ⟨isChild, isCount⟩)
      · have isOther := (ready other).mpr ⟨isListed, isZero⟩
        rw [count_eq_zero.mpr (notChild other isOther), isZero]
        exact ⟨isListed, rfl⟩
      · exact ⟨edge_listed (mem_children.mp isChild), by omega⟩
    · rintro ⟨isListed, isZero⟩
      by_cases isChild : other ∈ children nodes id
      · exact .inr ⟨isChild, by omega⟩
      · rw [count_eq_zero.mpr isChild] at isZero
        exact .inl ⟨isListed, by simpa using isZero⟩
  case rises =>
    intro dep other isEdge isDone
    rw [processed, mem_append, mem_singleton] at isDone
    rcases isDone with isOld | rfl
    · rw [kept dep (mem_append_left _ isOld)]
      exact (sound.rises dep other isEdge isOld).trans_le (grows other)
    · rw [kept dep isReady, isHeight,
        read_eq ((layers other).trans (if_pos (mem_children.mpr isEdge)))]
      exact Nat.lt_of_succ_le (Nat.le_max_right _ _)
  case attained =>
    intro other
    have old : sorting.layers.read other = 0 ∨ ∃ dep, (dep, other) ∈ edges nodes ∧
        dep ∈ (sorting.turn nodes).processed ∧
        sorting.layers.read other = (sorting.turn nodes).layers.read dep + 1 := by
      rcases sound.attained other with isZero | ⟨dep, isEdge, isDone, isLayer⟩
      · exact .inl isZero
      · refine .inr ⟨dep, isEdge, ?_, ?_⟩
        · rw [processed]
          exact mem_append_left _ isDone
        · rw [kept dep (mem_append_left _ isDone)]
          exact isLayer
    by_cases isChild : other ∈ children nodes id
    · have isLayer := read_eq ((layers other).trans (if_pos isChild))
      rcases Nat.le_total (sorting.layers.read other) (height + 1) with isLower | isHigher
      · refine .inr ⟨id, mem_children.mp isChild, by rw [processed]; simp, ?_⟩
        rw [isLayer, kept id isReady, isHeight]
        exact Nat.max_eq_right isLower
      · have same : (sorting.turn nodes).layers.read other = sorting.layers.read other :=
          isLayer.trans (Nat.max_eq_left isHigher)
        rw [same]
        exact old
    · have same : (sorting.turn nodes).layers.read other = sorting.layers.read other := by
        unfold Layers.read
        rw [layers, if_neg isChild]
      rw [same]
      exact old
  case layered =>
    intro other isOther
    rw [isAll, mem_append] at isOther
    rw [layers]
    split_ifs with isChild
    · exact some_ne_none _
    · rcases isOther with isOld | isNewlyReady
      · apply sound.layered
        rw [isQueue]
        exact isOld
      · exact absurd ((members other).mp isNewlyReady).1 isChild
  case listed =>
    intro other
    rw [layers]
    split_ifs with isChild
    · exact fun _ => edge_listed (mem_children.mp isChild)
    · exact sound.listed other

theorem loop_of_empty (isEmpty : sorting.queue = []) (turns : Nat) :
    Sorting.loop nodes turns sorting = sorting := by
  induction turns with
  | zero => rfl
  | succ turns ih =>
    have same : sorting.turn nodes = sorting := by
      unfold Sorting.turn
      rw [isEmpty]
    rw [Sorting.loop, same, ih]

theorem loop_sound (turns : Nat) : ∀ sorting : Sorting, Sound nodes sorting →
    Sound nodes (Sorting.loop nodes turns sorting) ∧
      ((Sorting.loop nodes turns sorting).queue = [] ∨
        (Sorting.loop nodes turns sorting).processed.length =
          sorting.processed.length + turns) := by
  induction turns with
  | zero => exact fun sorting sound => ⟨sound, .inr rfl⟩
  | succ turns ih =>
    intro sorting sound
    cases isQueue : sorting.queue with
    | nil =>
      rw [loop_of_empty isQueue]
      exact ⟨sound, .inl isQueue⟩
    | cons id queue =>
      obtain ⟨isSound, processed⟩ := turn_sound sound isQueue
      obtain ⟨laterSound, isEmpty | isLength⟩ :=
        ih (sorting.turn nodes) isSound
      · exact ⟨laterSound, .inl isEmpty⟩
      · refine ⟨laterSound, .inr ?_⟩
        rw [Sorting.loop, isLength, processed, List.length_append, List.length_singleton]
        omega

theorem Sound.length_le (sound : Sound nodes sorting) :
    sorting.processed.length + sorting.queue.length ≤ nodes.length := by
  have sameLength : (nodes.map GraphNode.id).length = nodes.length := length_map _
  rw [← List.length_append, ← sameLength]
  exact (sound.distinct.subperm fun id isReady => ((sound.ready id).mp isReady).1).length_le

theorem loop_ended (distinct : (nodes.map GraphNode.id).Nodup) :
    Sound nodes (Sorting.loop nodes nodes.length (start nodes)) ∧
      (Sorting.loop nodes nodes.length (start nodes)).queue = [] := by
  obtain ⟨sound, isEmpty | isLength⟩ := loop_sound nodes.length _ (start_sound distinct)
  · exact ⟨sound, isEmpty⟩
  · refine ⟨sound, List.length_eq_zero_iff.mp ?_⟩
    have bound := sound.length_le
    omega

/-- The dependencies among the listed nodes. -/
def Needs (nodes : List GraphNode) (id dep : String) : Prop :=
  (dep, id) ∈ edges nodes ∧ dep ∈ nodes.map GraphNode.id

/-- When the sort ends, a node that is left out has a dependency that is left out. -/
theorem Sound.left_out (sound : Sound nodes sorting) (isEmpty : sorting.queue = [])
    (isListed : id ∈ nodes.map GraphNode.id) (isOut : id ∉ sorting.processed) :
    ∃ dep, (dep, id) ∈ edges nodes ∧ dep ∉ sorting.processed := by
  by_contra none
  push Not at none
  have isZero : sorting.inDegree id = 0 := by
    rw [sound.degree, openEdges_eq_zero.mpr none]
    rfl
  have isReady := (sound.ready id).mpr ⟨isListed, isZero⟩
  rw [isEmpty, append_nil] at isReady
  exact isOut isReady

theorem Sound.all_processed (sound : Sound nodes sorting) (isEmpty : sorting.queue = [])
    (distinct : (nodes.map GraphNode.id).Nodup) :
    nodes.length ≤ sorting.processed.length ↔
      ∀ id ∈ nodes.map GraphNode.id, id ∈ sorting.processed := by
  have isNodup := sound.distinct
  have ready := sound.ready
  rw [isEmpty, append_nil] at isNodup ready
  have isSubperm : sorting.processed.Subperm (nodes.map GraphNode.id) :=
    isNodup.subperm fun id isDone => ((ready id).mp isDone).1
  constructor
  · intro isLong id isListed
    have isPerm := isSubperm.perm_of_length_le (by rw [length_map]; exact isLong)
    exact isPerm.mem_iff.mpr isListed
  · intro all
    have isShort := (distinct.subperm all).length_le
    rwa [length_map] at isShort

/-- Layers are found only for a graph whose dependencies are all listed, and they are its
heights. -/
theorem assignLayers_some (distinct : (nodes.map GraphNode.id).Nodup)
    (isLayered : assignLayers nodes = some layers) :
    (∀ dep id, (dep, id) ∈ edges nodes → dep ∈ nodes.map GraphNode.id) ∧
      (∀ id dep, Needs nodes id dep → layers.read dep < layers.read id) ∧
      (∀ id, layers.read id = 0 ∨ ∃ dep, Needs nodes id dep ∧
        layers.read id = layers.read dep + 1) ∧
      (∀ id, layers.layer? id ≠ none ↔ id ∈ nodes.map GraphNode.id) := by
  obtain ⟨sound, isEmpty⟩ := loop_ended distinct
  simp only [assignLayers] at isLayered
  split_ifs at isLayered with isShort
  have all := (sound.all_processed isEmpty distinct).mp (Nat.le_of_not_lt isShort)
  have ready := sound.ready
  rw [isEmpty, append_nil] at ready
  have isClosed : ∀ dep id, (dep, id) ∈ edges nodes →
      dep ∈ (Sorting.loop nodes nodes.length (start nodes)).processed := by
    intro dep id isEdge
    have isZero := ((ready id).mp (all id (edge_listed isEdge))).2
    rw [sound.degree] at isZero
    exact openEdges_eq_zero.mp (by exact_mod_cast isZero) dep isEdge
  have isListed : ∀ dep id, (dep, id) ∈ edges nodes → dep ∈ nodes.map GraphNode.id :=
    fun dep id isEdge => ((ready dep).mp (isClosed dep id isEdge)).1
  cases isLayered
  refine ⟨isListed, ?_, ?_, ?_⟩
  · exact fun id dep needs => sound.rises dep id needs.1 (isClosed dep id needs.1)
  · intro id
    rcases sound.attained id with isZero | ⟨dep, isEdge, _, isNext⟩
    · exact .inl isZero
    · exact .inr ⟨dep, ⟨isEdge, isListed dep id isEdge⟩, isNext⟩
  · exact fun id => ⟨sound.listed id, fun isNode =>
      sound.layered id (mem_append_left _ (all id isNode))⟩

theorem assignLayers_none (distinct : (nodes.map GraphNode.id).Nodup)
    (isNone : assignLayers nodes = none)
    (isListed : ∀ dep id, (dep, id) ∈ edges nodes → dep ∈ nodes.map GraphNode.id) :
    ¬Acyclic (Needs nodes) := by
  intro acyclic
  obtain ⟨sound, isEmpty⟩ := loop_ended distinct
  simp only [assignLayers] at isNone
  split_ifs at isNone with isShort
  have notAll := mt (sound.all_processed isEmpty distinct).mpr (Nat.not_le_of_lt isShort)
  push Not at notAll
  obtain ⟨id, isNode, isOut⟩ := notAll
  have nonempty : (nodes.map GraphNode.id).filter (fun id =>
      id ∉ (Sorting.loop nodes nodes.length (start nodes)).processed) ≠ [] :=
    List.ne_nil_of_mem (List.mem_filter.mpr ⟨isNode, decide_eq_true isOut⟩)
  obtain ⟨least, isLeast, never⟩ := acyclic.exists_least nonempty
  obtain ⟨leastListed, leastOut⟩ := List.mem_filter.mp isLeast
  obtain ⟨dep, isEdge, depOut⟩ :=
    sound.left_out isEmpty leastListed (of_decide_eq_true leastOut)
  have depListed := isListed dep least isEdge
  exact never dep (List.mem_filter.mpr ⟨depListed, decide_eq_true depOut⟩) ⟨isEdge, depListed⟩

/-! ## The boxes -/

theorem mapM_ne_none {Item Result : Type} {f : Item → Option Result} {items : List Item}
    (all : ∀ item ∈ items, f item ≠ none) : items.mapM f ≠ none := by
  induction items with
  | nil => simp
  | cons item later ih =>
    obtain ⟨first, isFirst⟩ := ne_none_iff_exists'.mp (all item mem_cons_self)
    obtain ⟨rest, isRest⟩ := ne_none_iff_exists'.mp
      (ih fun other isLater => all other (List.mem_cons_of_mem _ isLater))
    rw [List.mapM_cons, isFirst, isRest]
    exact some_ne_none _

theorem bind_ne_none {Item Result : Type} {found : Option Item} {f : Item → Option Result}
    (isFound : found ≠ none) (all : ∀ item, found = some item → f item ≠ none) :
    found >>= f ≠ none := by
  obtain ⟨item, isItem⟩ := ne_none_iff_exists'.mp isFound
  rw [isItem]
  exact all item isItem

theorem repeats_ne_none {s : String} {count : Int} (isCount : 0 ≤ count) :
    repeats s count ≠ none := by
  unfold repeats
  rw [if_neg (Int.not_lt.mpr isCount)]
  exact some_ne_none _

theorem truncateRunes_ne_none {s : String} {maxLen : Int} (isCount : 0 ≤ maxLen) :
    truncateRunes s maxLen ≠ none := by
  unfold truncateRunes
  split_ifs
  · exact some_ne_none _
  · omega
  · exact some_ne_none _
  · exact some_ne_none _

theorem nodeMap_of_listed (isListed : id ∈ nodes.map GraphNode.id) : nodeMap nodes id ≠ none := by
  obtain ⟨node, isNode, isId⟩ := mem_map.mp isListed
  intro isNone
  have never := List.find?_eq_none.mp isNone node (List.mem_reverse.mpr isNode)
  simp [isId] at never

theorem boxWidth_of_listed (isListed : id ∈ nodes.map GraphNode.id) : 4 ≤ boxWidth nodes id := by
  obtain ⟨node, isNode⟩ := ne_none_iff_exists'.mp (nodeMap_of_listed isListed)
  unfold boxWidth
  rw [isNode]
  show (4 : Int) ≤ ((min ((formatLabel node.id node.title).length + padH * 2 + 2) maxW : Nat) : Int)
  unfold padH maxW
  omega

section
variable {group : List String} (isListed : ∀ id ∈ group, id ∈ nodes.map GraphNode.id)
include isListed

theorem renderTopBorder_ne_none : renderTopBorder nodes group ≠ none := by
  unfold renderTopBorder
  refine bind_ne_none (mapM_ne_none fun id isIn => ?_) fun _ _ => some_ne_none _
  have wide := boxWidth_of_listed (isListed id isIn)
  exact bind_ne_none (repeats_ne_none (by omega)) fun _ _ => some_ne_none _

theorem renderMiddle_ne_none : renderMiddle nodes group ≠ none := by
  unfold renderMiddle
  refine bind_ne_none (mapM_ne_none fun id isIn => ?_) fun _ _ => some_ne_none _
  have wide := boxWidth_of_listed (isListed id isIn)
  refine bind_ne_none (nodeMap_of_listed (isListed id isIn)) fun node _ => ?_
  refine bind_ne_none (truncateRunes_ne_none ?_) fun label _ => ?_
  · show (0 : Int) ≤ boxWidth nodes id - 2 - 1 * 2
    omega
  · refine bind_ne_none (repeats_ne_none (by decide)) fun _ _ => ?_
    exact bind_ne_none (repeats_ne_none (le_max_right _ _)) fun _ _ => some_ne_none _

theorem renderBottomBorder_ne_none (layers : Layers) (hasNextLayer : Bool) :
    renderBottomBorder nodes layers hasNextLayer group ≠ none := by
  unfold renderBottomBorder
  refine bind_ne_none (mapM_ne_none fun id isIn => ?_) fun _ _ => some_ne_none _
  have wide := boxWidth_of_listed (isListed id isIn)
  have isHalf : (boxWidth nodes id - 2).tdiv 2 = (boxWidth nodes id - 2) / 2 :=
    Int.tdiv_eq_ediv_of_nonneg (by omega)
  dsimp only
  split_ifs
  · rw [isHalf]
    refine bind_ne_none (repeats_ne_none (by omega)) fun _ _ => ?_
    exact bind_ne_none (repeats_ne_none (by omega)) fun _ _ => some_ne_none _
  · exact bind_ne_none (repeats_ne_none (by omega)) fun _ _ => some_ne_none _

end

theorem mem_layerGroup (isIn : id ∈ layerGroup nodes layers layer) : layers.layer? id ≠ none := by
  unfold layerGroup at isIn
  rw [List.mem_insertionSort] at isIn
  obtain ⟨entry, isEntry, rfl⟩ := mem_map.mp isIn
  unfold Layers.layer?
  rw [Table.find?_eq_some_iff.mpr ⟨(List.mem_filter.mp isEntry).1, rfl⟩]
  exact some_ne_none _

theorem renderGraph_ne_none (distinct : (nodes.map GraphNode.id).Nodup) :
    renderGraph nodes ≠ none := by
  unfold renderGraph
  split_ifs
  · exact some_ne_none _
  · cases isLayered : assignLayers nodes with
    | none => exact some_ne_none _
    | some layers =>
      obtain ⟨_, _, _, layered⟩ := assignLayers_some distinct isLayered
      have drawn : renderRows nodes layers ≠ none := by
        refine mapM_ne_none fun layer _ => ?_
        have isListed : ∀ id ∈ layerGroup nodes layers layer, id ∈ nodes.map GraphNode.id :=
          fun id isIn => (layered id).mp (mem_layerGroup isIn)
        refine bind_ne_none (renderTopBorder_ne_none isListed) fun _ _ => ?_
        refine bind_ne_none (renderMiddle_ne_none isListed) fun _ _ => ?_
        exact bind_ne_none (renderBottomBorder_ne_none isListed layers _) fun _ _ =>
          some_ne_none _
      obtain ⟨rows, isRows⟩ := ne_none_iff_exists'.mp drawn
      dsimp only
      rw [isRows]
      exact some_ne_none _

/-- No layers for a cycle only, otherwise the heights of the nodes, and a rendering that finds
every node. -/
structure Layered (nodes : List GraphNode) : Prop where
  cycle : assignLayers nodes = none ↔ ¬Acyclic (Needs nodes)
  height : ∀ layers, assignLayers nodes = some layers → ∀ node ∈ nodes,
    ∃ height, layers.layer? node.id = some height ∧ IsHeight (Needs nodes) node.id height
  lower : ∀ layers, assignLayers nodes = some layers → ∀ id dep, Needs nodes id dep →
    layers.read dep < layers.read id
  drawn : renderGraph nodes ≠ none

/-- A graph is layered rightly when all its dependencies are listed, or it has a cycle anyway, and
only then. -/
theorem layered_iff (distinct : (nodes.map GraphNode.id).Nodup) : Layered nodes ↔
      (∀ node ∈ nodes, ∀ dep ∈ node.dependsOn, dep ∈ nodes.map GraphNode.id) ∨
        ¬Acyclic (Needs nodes) := by
  have isListed : (∀ node ∈ nodes, ∀ dep ∈ node.dependsOn, dep ∈ nodes.map GraphNode.id) ↔
      ∀ dep id, (dep, id) ∈ edges nodes → dep ∈ nodes.map GraphNode.id := by
    constructor
    · intro all dep id isEdge
      obtain ⟨node, isNode, _, isDep⟩ := mem_edges.mp isEdge
      exact all node isNode dep isDep
    · exact fun all node isNode dep isDep =>
        all dep node.id (mem_edges.mpr ⟨node, isNode, rfl, isDep⟩)
  rw [isListed]
  constructor
  · intro layered
    cases isLayered : assignLayers nodes with
    | none => exact .inr (layered.cycle.mp isLayered)
    | some layers => exact .inl (assignLayers_some distinct isLayered).1
  · intro condition
    constructor
    case cycle =>
      constructor
      · intro isNone
        rcases condition with isListed | isCyclic
        · exact assignLayers_none distinct isNone isListed
        · exact isCyclic
      · intro isCyclic
        cases isLayered : assignLayers nodes with
        | none => rfl
        | some layers => exact absurd (acyclic_of (assignLayers_some distinct isLayered).2.1) isCyclic
    case height =>
      intro layers isLayered node isNode
      obtain ⟨_, falls, attained, layered⟩ := assignLayers_some distinct isLayered
      obtain ⟨height, isHeight⟩ := ne_none_iff_exists'.mp
        ((layered node.id).mpr (List.mem_map_of_mem isNode))
      refine ⟨height, isHeight, ?_⟩
      rw [← read_eq isHeight]
      exact isHeight_of falls attained node.id
    case lower => exact fun layers isLayered => (assignLayers_some distinct isLayered).2.1
    case drawn => exact renderGraph_ne_none distinct

/-- "C" depends on "B" twice, and on "A" directly and through "B". -/
def chain : List GraphNode := [⟨"C", "", ["B", "A", "B"]⟩, ⟨"A", "", []⟩, ⟨"B", "", ["A"]⟩]

theorem layered_iff_chain : Layered chain ∧ (assignLayers chain).map Table.entries =
    some [("C", 2), ("B", 1), ("A", 0)] :=
  ⟨(layered_iff (by decide)).mpr (.inl (by decide)), rfl⟩

/-- One task whose dependency is not shown. -/
def dangling : List GraphNode := [⟨"B", "", ["A"]⟩]

/-- A dependency that is not listed is reported as a cycle. -/
theorem not_layered :
    renderGraph dangling = some (.error "Error: cycle detected in dependency graph") ∧
      ¬Layered dangling := by
  refine ⟨rfl, fun layered => ?_⟩
  apply layered.cycle.mp rfl
  intro node cycle
  have noEdge : ∀ id dep, ¬Needs dangling id dep := by
    rintro id dep ⟨isEdge, isListed⟩
    cases mem_singleton.mp isEdge
    revert isListed
    decide
  obtain ⟨_, isEdge, _⟩ := Relation.TransGen.head'_iff.mp cycle
  exact noEdge _ _ isEdge

end AiTools.Whip.Graph
