import AiTools.GitDiff.ContextGaps
import AiTools.Lib.Transition
import Mathlib

/-!
Contract: the context lines that the view loads into the gaps of a diff.
-/

namespace AiTools.GitDiff.ContextLoading

open AiTools.GitDiff.ContextGaps AiTools.Lib.Transition
open Function (update_of_ne update_self)

structure LoadedContextLine where
  key : Nat × Int
  offset : Int
  content : String
  oldLineNumber : Int
  newLineNumber : Int

structure GapLoadState where
  headLines : List LoadedContextLine
  tailLines : List LoadedContextLine
  headLoadedCount : Nat
  tailLoadedCount : Nat
  previousLoadCount : Nat
  nextLoadCount : Nat
  loadingHead : Bool
  loadingTail : Bool

inductive GapLoadDirection where
  | head
  | tail
deriving DecidableEq

structure GapLoadPlan where
  startOffset : Int
  requestedCount : Int
  loadingKey : GapLoadDirection

structure GapMiddleLoadPlan where
  head : Option GapLoadPlan
  tail : Option GapLoadPlan

def firstGapLoadCount : Nat := 5

def secondGapLoadCount : Nat := 7

def emptyGapState : GapLoadState := ⟨[], [], 0, 0, 0, firstGapLoadCount, false, false⟩

def isGapLoading (state : GapLoadState) : Bool := state.loadingHead || state.loadingTail

def getGapRemainingCount (gap : DiffContextGap) (state : GapLoadState) : Int :=
  max (gap.count - min gap.count (state.headLoadedCount + state.tailLoadedCount : Nat)) 0

def advanceGapLoadCount (state : GapLoadState) : GapLoadState :=
  { state with
    previousLoadCount := state.nextLoadCount
    nextLoadCount :=
      if 0 < state.previousLoadCount then state.previousLoadCount + state.nextLoadCount
      else secondGapLoadCount }

def planGapLoad (gap : DiffContextGap) (state : GapLoadState) (direction : GapLoadDirection) :
    Option GapLoadPlan :=
  if isGapLoading state ∨ getGapRemainingCount gap state ≤ 0 then none
  else
    let requestedCount := min (state.nextLoadCount : Int) (getGapRemainingCount gap state)
    match direction with
    | .head => some ⟨state.headLoadedCount, requestedCount, .head⟩
    | .tail => some ⟨gap.count - state.tailLoadedCount - requestedCount, requestedCount, .tail⟩

def planGapMiddleLoad (gap : DiffContextGap) (state : GapLoadState) : Option GapMiddleLoadPlan :=
  let remainingCount := getGapRemainingCount gap state
  if isGapLoading state ∨ remainingCount ≤ 0 then none
  else
    let counts : Int × Int :=
      if remainingCount > (state.nextLoadCount : Int) * 2 then
        (state.nextLoadCount, state.nextLoadCount)
      else ((remainingCount + 1) / 2, remainingCount / 2)
    some {
      head := if 0 < counts.1 then some ⟨state.headLoadedCount, counts.1, .head⟩ else none
      tail :=
        if 0 < counts.2 then
          some ⟨gap.count - state.tailLoadedCount - counts.2, counts.2, .tail⟩
        else none }

def markGapLoading (state : GapLoadState) (plan : GapLoadPlan) : GapLoadState :=
  { state with
    loadingHead := plan.loadingKey = .head
    loadingTail := plan.loadingKey = .tail }

def clearGapLoading (state : GapLoadState) : GapLoadState :=
  { state with loadingHead := false, loadingTail := false }

def createLoadedContextLines (gap : DiffContextGap) (startOffset : Int) (lines : List String) :
    List LoadedContextLine :=
  lines.mapIdx fun index content =>
    let offset := startOffset + index
    ⟨(gap.slot, offset), offset, content, gap.oldStart + offset, gap.newStart + offset⟩

/-- The first line of an offset stays. -/
def dedupeLoadedLines (lines : List LoadedContextLine) : List LoadedContextLine :=
  (lines.foldl (fun kept line =>
    if kept.any (·.offset = line.offset) then kept else kept ++ [line]) []).insertionSort
      fun left right => left.offset ≤ right.offset

def contiguousFrom (nextOffset step : Int) : List LoadedContextLine → Nat
  | [] => 0
  | line :: rest =>
    if line.offset ≠ nextOffset then 0 else contiguousFrom (nextOffset + step) step rest + 1

def countContiguousHeadLines (lines : List LoadedContextLine) : Nat := contiguousFrom 0 1 lines

def countContiguousTailLines (gapCount : Int) (lines : List LoadedContextLine) : Nat :=
  contiguousFrom (gapCount - 1) (-1) lines.reverse

def mergeGapLines (state : GapLoadState) (gap : DiffContextGap) (direction : GapLoadDirection)
    (lines : List LoadedContextLine) : GapLoadState :=
  let merged :=
    match direction with
    | .head =>
      let headLines := dedupeLoadedLines (state.headLines ++ lines)
      { state with headLines, headLoadedCount := countContiguousHeadLines headLines }
    | .tail =>
      let tailLines := dedupeLoadedLines (lines ++ state.tailLines)
      { state with tailLines, tailLoadedCount := countContiguousTailLines gap.count tailLines }
  { merged with loadingHead := false, loadingTail := false }

/-- What the section is given. `lines` are those of the displayed file, and no part of the identity
of the gap states. -/
structure Shown where
  path : String
  oldPath : Option String
  isCommitView : Bool
  isStaged : Bool
  commitHash : Option String
  diff : FileDiff
  lines : Int → String

structure GapStateIdentity where
  path : String
  oldPath : Option String
  status : FileDiffStatus
  displayLineCount : Nat
  isCommitView : Bool
  isStaged : Bool
  commitHash : Option String
  gaps : List (Option DiffContextGap)
deriving DecidableEq

def Shown.identity (shown : Shown) : GapStateIdentity :=
  ⟨shown.path, shown.oldPath, shown.diff.status, shown.diff.displayLineCount, shown.isCommitView,
    shown.isStaged, shown.commitHash, buildContextGapSlots shown.diff⟩

def Shown.gap? (shown : Shown) (slot : Nat) : Option DiffContextGap :=
  (buildContextGapSlots shown.diff)[slot]?.join

inductive Plan where
  | single (plan : GapLoadPlan)
  | around (plan : GapMiddleLoadPlan)

/-- The plans of a load for the start and for the end of the gap. -/
def Plan.halves : Plan → GapMiddleLoadPlan
  | .single plan =>
    match plan.loadingKey with
    | .head => ⟨some plan, none⟩
    | .tail => ⟨none, some plan⟩
  | .around plan => plan

/-- A load in flight. `lines` are those of the file it has been sent for. -/
structure Load where
  gap : DiffContextGap
  plan : Plan
  lines : Int → String

structure Section where
  shown : Shown
  gapStates : Nat → GapLoadState
  loads : Nat → Option Load
  issued : Nat

def opened (shown : Shown) : Section where
  shown := shown
  gapStates := fun _ => emptyGapState
  loads := fun _ => none
  issued := 0

/-- The first lines of what a plan has asked for. -/
def fetched (gap : DiffContextGap) (lines : Int → String) (startOffset : Int) (count : Nat) :
    List String :=
  (List.range count).map fun (index : Nat) => lines (gap.displayStart + startOffset + index)

/-- The update behind the await of `loadGapContext`. -/
def finishLoad (gap : DiffContextGap) (plan : GapLoadPlan) (loaded : Option (List String))
    (state : GapLoadState) : GapLoadState :=
  match loaded with
  | none => clearGapLoading state
  | some lines =>
    advanceGapLoadCount (mergeGapLines state gap plan.loadingKey
      (createLoadedContextLines gap plan.startOffset lines))

def mergeLoaded (gap : DiffContextGap) (direction : GapLoadDirection) (plan : Option GapLoadPlan)
    (loaded : Option (List String)) (state : GapLoadState) : GapLoadState :=
  match plan, loaded with
  | some plan, some lines =>
    mergeGapLines state gap direction (createLoadedContextLines gap plan.startOffset lines)
  | _, _ => state

/-- The update behind the await of `loadGapContextAround`. -/
def finishAround (gap : DiffContextGap) (plan : GapMiddleLoadPlan)
    (loadedHead loadedTail : Option (List String)) (state : GapLoadState) : GapLoadState :=
  let nextState := mergeLoaded gap .tail plan.tail loadedTail
    (mergeLoaded gap .head plan.head loadedHead state)
  clearGapLoading
    (if loadedHead.isSome ∨ loadedTail.isSome then advanceGapLoadCount nextState else nextState)

/-- How many lines the replies have. `none` stands for a command that failed. -/
structure Reply where
  head : Option Nat
  tail : Option Nat

def Reply.of (reply : Reply) : GapLoadDirection → Option Nat
  | .head => reply.head
  | .tail => reply.tail

def Load.fetch (load : Load) (plan : GapLoadPlan) (count : Option Nat) : Option (List String) :=
  count.map (fetched load.gap load.lines plan.startOffset)

def Load.finish (load : Load) (reply : Reply) (state : GapLoadState) : GapLoadState :=
  match load.plan with
  | .single plan => finishLoad load.gap plan (load.fetch plan (reply.of plan.loadingKey)) state
  | .around plan =>
    finishAround load.gap plan (plan.head.bind fun plan => load.fetch plan reply.head)
      (plan.tail.bind fun plan => load.fetch plan reply.tail) state

/-- A reply has no more lines than were asked for. -/
structure Load.Answers (load : Load) (reply : Reply) : Prop where
  head : ∀ plan count, load.plan.halves.head = some plan → reply.head = some count →
    (count : Int) ≤ plan.requestedCount
  tail : ∀ plan count, load.plan.halves.tail = some plan → reply.tail = some count →
    (count : Int) ≤ plan.requestedCount

def Section.start (view : Section) (gap : DiffContextGap) (plan : Plan) (state : GapLoadState) :
    Section :=
  { view with
    gapStates := Function.update view.gapStates gap.slot state
    loads := Function.update view.loads view.issued (some ⟨gap, plan, view.shown.lines⟩)
    issued := view.issued + 1 }

def Section.loadGapContext (view : Section) (gap : DiffContextGap) (direction : GapLoadDirection) :
    Section :=
  let currentState := view.gapStates gap.slot
  match planGapLoad gap currentState direction with
  | none => view
  | some plan => view.start gap (.single plan) (markGapLoading currentState plan)

def Section.loadGapContextAround (view : Section) (gap : DiffContextGap) : Section :=
  let currentState := view.gapStates gap.slot
  match planGapMiddleLoad gap currentState with
  | none => view
  | some plan => view.start gap (.around plan)
      { currentState with loadingHead := plan.head.isSome, loadingTail := plan.tail.isSome }

/-- The section is keyed by the path: for another path it is a new one, which the loads of the old
one do not reach. -/
def Section.show (view : Section) (shown : Shown) : Section :=
  if shown.path ≠ view.shown.path then { opened shown with issued := view.issued }
  else if shown.identity = view.shown.identity then { view with shown }
  else { view with shown, gapStates := fun _ => emptyGapState }

inductive Label where
  | load (slot : Nat) (direction : GapLoadDirection)
  | loadAround (slot : Nat)
  | reply (id : Nat) (reply : Reply)
  | show (shown : Shown)

def step (view : Section) : Label → Option Section
  | .load slot direction =>
    (view.shown.gap? slot).map fun gap => view.loadGapContext gap direction
  | .loadAround slot => (view.shown.gap? slot).map view.loadGapContextAround
  | .reply id reply =>
    (view.loads id).map fun load =>
      { view with
        gapStates := Function.update view.gapStates load.gap.slot
          (load.finish reply (view.gapStates load.gap.slot))
        loads := Function.update view.loads id none }
  | .show shown => some (view.show shown)

/-- The replies are those that a backend can give. -/
def Given (view : Section) : Label → Prop
  | .reply id reply => ∀ load, view.loads id = some load → load.Answers reply
  | _ => True

/-- Lines of the file at consecutive offsets of the gap. -/
def contextLines (gap : DiffContextGap) (lines : Int → String) (startOffset : Int) (count : Nat) :
    List LoadedContextLine :=
  createLoadedContextLines gap startOffset (fetched gap lines startOffset count)

/-- A full load of the gap, of one of the three kinds. -/
def fullLoad (gap : DiffContextGap) (lines : Int → String) (state : GapLoadState) :
    Option GapLoadDirection → GapLoadState
  | some direction =>
    match planGapLoad gap state direction with
    | none => state
    | some plan => Load.finish ⟨gap, .single plan, lines⟩
        ⟨some plan.requestedCount.toNat, some plan.requestedCount.toNat⟩
        (markGapLoading state plan)
  | none =>
    match planGapMiddleLoad gap state with
    | none => state
    | some plan => Load.finish ⟨gap, .around plan, lines⟩
        ⟨plan.head.map (·.requestedCount.toNat), plan.tail.map (·.requestedCount.toNat)⟩
        { state with loadingHead := plan.head.isSome, loadingTail := plan.tail.isSome }

structure GapShown (gap : DiffContextGap) (lines : Int → String) (state : GapLoadState) :
    Prop where
  head : state.headLines = contextLines gap lines 0 state.headLines.length
  tail : state.tailLines =
    contextLines gap lines (gap.count - state.tailLines.length) state.tailLines.length
  disjoint : (state.headLines.length + state.tailLines.length : Int) ≤ gap.count
  remaining : getGapRemainingCount gap state =
    gap.count - state.headLines.length - state.tailLines.length
  ends : isGapLoading state = false → ∀ kinds : List (Option GapLoadDirection),
    getGapRemainingCount gap state ≤ kinds.length →
      getGapRemainingCount gap (kinds.foldl (fullLoad gap lines) state) = 0 ∧
        (∀ direction, planGapLoad gap (kinds.foldl (fullLoad gap lines) state) direction = none) ∧
          planGapMiddleLoad gap (kinds.foldl (fullLoad gap lines) state) = none

structure ContextShown (view : Section) : Prop where
  gaps : ∀ slot gap, view.shown.gap? slot = some gap →
    GapShown gap view.shown.lines (view.gapStates slot)
  single : ∀ first second firstLoad secondLoad, view.loads first = some firstLoad →
    view.loads second = some secondLoad → firstLoad.gap.slot = secondLoad.gap.slot →
      first = second

/-- The lines that the gaps hide are the same. -/
def SameHidden (before after : Shown) : Prop :=
  ∀ slot gap, after.gap? slot = some gap → ∀ line, gap.displayStart ≤ line →
    line < gap.displayStart + gap.count → before.lines line = after.lines line

/-- A reply for the end of a gap has all the lines or none, and a diff of the same file is shown
when no load is in flight, or in place of one that has the same gaps and hidden lines. -/
def Clean (view : Section) (label : Label) : Prop :=
  Given view label ∧
    match label with
    | .reply id reply => ∀ load, view.loads id = some load → ∀ plan count,
        load.plan.halves.tail = some plan → reply.tail = some count →
          count = 0 ∨ (count : Int) = plan.requestedCount
    | .show shown => shown.path = view.shown.path →
        if shown.identity = view.shown.identity then SameHidden view.shown shown
        else ∀ id, view.loads id = none
    | _ => True

section
variable (gap : DiffContextGap) (lines : Int → String)

def lineAt (offset : Int) : LoadedContextLine :=
  ⟨(gap.slot, offset), offset, lines (gap.displayStart + offset), gap.oldStart + offset,
    gap.newStart + offset⟩

theorem contextLines_eq (startOffset : Int) (count : Nat) :
    contextLines gap lines startOffset count =
      (List.range count).map fun (index : Nat) => lineAt gap lines (startOffset + index) := by
  unfold contextLines createLoadedContextLines fetched
  apply List.ext_getElem
  · simp
  · intro index isFirst isSecond
    simp [lineAt, Int.add_assoc]

theorem contextLines_length (startOffset : Int) (count : Nat) :
    (contextLines gap lines startOffset count).length = count := by
  rw [contextLines_eq, List.length_map, List.length_range]

theorem contextLines_append (startOffset : Int) (first second : Nat) :
    contextLines gap lines startOffset first ++
        contextLines gap lines (startOffset + first) second =
      contextLines gap lines startOffset (first + second) := by
  rw [contextLines_eq, contextLines_eq, contextLines_eq, List.range_add, List.map_append,
    List.map_map]
  congr 1
  apply List.map_congr_left
  intro index _
  show lineAt gap lines _ = lineAt gap lines (startOffset + (first + index : Nat))
  congr 1
  push_cast
  omega

theorem contextLines_cons (startOffset : Int) (count : Nat) :
    contextLines gap lines startOffset (count + 1) =
      lineAt gap lines startOffset :: contextLines gap lines (startOffset + 1) count := by
  rw [Nat.add_comm, ← contextLines_append, contextLines_eq]
  simp

theorem contextLines_snoc (startOffset : Int) (count : Nat) :
    contextLines gap lines startOffset (count + 1) =
      contextLines gap lines startOffset count ++ [lineAt gap lines (startOffset + count)] := by
  rw [← contextLines_append, contextLines_eq gap lines (startOffset + count)]
  simp

theorem contextLines_sorted (startOffset : Int) (count : Nat) :
    (contextLines gap lines startOffset count).Pairwise fun left right =>
      left.offset < right.offset := by
  rw [contextLines_eq, List.pairwise_map]
  refine List.pairwise_lt_range.imp fun {left right} isLess => ?_
  show startOffset + (left : Int) < startOffset + right
  omega

theorem contextLines_congr {other : Int → String} {startOffset : Int} {count : Nat}
    (agree : ∀ index : Nat, index < count → lines (gap.displayStart + startOffset + index) =
      other (gap.displayStart + startOffset + index)) :
    contextLines gap lines startOffset count = contextLines gap other startOffset count := by
  unfold contextLines fetched
  congr 1
  exact List.map_congr_left fun index isIn => agree index (List.mem_range.mp isIn)

theorem contiguousFrom_contextLines (count : Nat) : ∀ startOffset : Int,
    contiguousFrom startOffset 1 (contextLines gap lines startOffset count) = count := by
  induction count with
  | zero => exact fun _ => rfl
  | succ count ih =>
    intro startOffset
    rw [contextLines_cons]
    unfold contiguousFrom
    rw [if_neg (fun differs => differs rfl), ih]

theorem contiguousFrom_reverse (startOffset : Int) (count : Nat) :
    contiguousFrom (startOffset + count - 1) (-1)
      (contextLines gap lines startOffset count).reverse = count := by
  induction count with
  | zero => rfl
  | succ count ih =>
    rw [contextLines_snoc, List.reverse_append]
    show contiguousFrom _ _ (lineAt gap lines (startOffset + count) :: _) = _
    have isNext : startOffset + ((count + 1 : Nat) : Int) - 1 = startOffset + count := by
      push_cast
      omega
    unfold contiguousFrom
    rw [isNext, if_neg (fun differs => differs rfl)]
    have isBefore : startOffset + (count : Int) + -1 = startOffset + count - 1 := by omega
    rw [isBefore]
    exact congrArg (· + 1) ih

end

theorem foldl_kept (lines : List LoadedContextLine) : ∀ kept : List LoadedContextLine,
    (kept ++ lines).Pairwise (fun left right => left.offset < right.offset) →
      lines.foldl (fun kept line =>
        if kept.any (·.offset = line.offset) then kept else kept ++ [line]) kept =
          kept ++ lines := by
  induction lines with
  | nil => exact fun kept _ => (List.append_nil kept).symm
  | cons line rest ih =>
    intro kept sorted
    have isNew : kept.any (fun other => other.offset = line.offset) = false := by
      rw [List.any_eq_false]
      intro other isIn
      have isLess := (List.pairwise_append.mp sorted).2.2 other isIn line (List.mem_cons_self ..)
      simp only [decide_eq_true_eq]
      omega
    rw [List.foldl_cons, isNew, if_neg Bool.false_ne_true, ih, List.append_assoc]
    · rfl
    · rw [List.append_assoc]
      exact sorted

theorem dedupe_sorted {lines : List LoadedContextLine}
    (sorted : lines.Pairwise fun left right => left.offset < right.offset) :
    dedupeLoadedLines lines = lines := by
  unfold dedupeLoadedLines
  rw [foldl_kept lines [] sorted]
  exact (sorted.imp le_of_lt).insertionSort_eq

structure Filled (gap : DiffContextGap) (lines : Int → String) (state : GapLoadState) :
    Prop where
  head : state.headLines = contextLines gap lines 0 state.headLoadedCount
  tail : state.tailLines =
    contextLines gap lines (gap.count - state.tailLoadedCount) state.tailLoadedCount
  within : (state.headLoadedCount + state.tailLoadedCount : Int) ≤ gap.count
  next : 0 < state.nextLoadCount

section
variable {gap : DiffContextGap} {lines : Int → String} {state : GapLoadState}

theorem Filled.flags (filled : Filled gap lines state) (loadingHead loadingTail : Bool) :
    Filled gap lines { state with loadingHead, loadingTail } :=
  ⟨filled.head, filled.tail, filled.within, filled.next⟩

theorem Filled.advance (filled : Filled gap lines state) :
    Filled gap lines (advanceGapLoadCount state) := by
  refine ⟨filled.head, filled.tail, filled.within, ?_⟩
  have next := filled.next
  unfold advanceGapLoadCount secondGapLoadCount
  dsimp only
  split_ifs <;> omega

theorem Filled.mergeHead (filled : Filled gap lines state) (count : Nat)
    (within : (state.headLoadedCount + state.tailLoadedCount + count : Int) ≤ gap.count) :
    Filled gap lines (mergeGapLines state gap .head
        (contextLines gap lines state.headLoadedCount count)) ∧
      (mergeGapLines state gap .head
        (contextLines gap lines state.headLoadedCount count)).headLoadedCount =
          state.headLoadedCount + count := by
  have isHead : dedupeLoadedLines (state.headLines ++
      contextLines gap lines state.headLoadedCount count) =
        contextLines gap lines 0 (state.headLoadedCount + count) := by
    have appended := contextLines_append gap lines 0 state.headLoadedCount count
    rw [Int.zero_add] at appended
    rw [filled.head, appended, dedupe_sorted (contextLines_sorted gap lines 0 _)]
  have isCount : countContiguousHeadLines (contextLines gap lines 0
      (state.headLoadedCount + count)) = state.headLoadedCount + count :=
    contiguousFrom_contextLines gap lines _ 0
  unfold mergeGapLines
  dsimp only
  rw [isHead, isCount]
  refine ⟨⟨rfl, filled.tail, ?_, filled.next⟩, rfl⟩
  push_cast
  omega

theorem Filled.mergeTail (filled : Filled gap lines state) (startOffset : Int) (count : Nat)
    (within : (state.headLoadedCount + state.tailLoadedCount + count : Int) ≤ gap.count)
    (ends : count = 0 ∨ startOffset = gap.count - state.tailLoadedCount - count) :
    Filled gap lines (mergeGapLines state gap .tail
        (contextLines gap lines startOffset count)) ∧
      (mergeGapLines state gap .tail
        (contextLines gap lines startOffset count)).tailLoadedCount =
          state.tailLoadedCount + count := by
  have isAppended : contextLines gap lines startOffset count ++ state.tailLines =
      contextLines gap lines (gap.count - (state.tailLoadedCount + count : Nat))
        (state.tailLoadedCount + count) := by
    rw [filled.tail]
    rcases ends with rfl | rfl
    · rfl
    · have appended := contextLines_append gap lines (gap.count - state.tailLoadedCount - count)
        count state.tailLoadedCount
      have isStart : gap.count - (state.tailLoadedCount : Int) - count + count =
        gap.count - state.tailLoadedCount := by omega
      have isFirst : gap.count - (state.tailLoadedCount : Int) - count =
          gap.count - (state.tailLoadedCount + count : Nat) := by
        push_cast
        omega
      rw [isStart, Nat.add_comm count] at appended
      rw [appended, isFirst]
  have isTail : dedupeLoadedLines (contextLines gap lines startOffset count ++ state.tailLines) =
      contextLines gap lines (gap.count - (state.tailLoadedCount + count : Nat))
        (state.tailLoadedCount + count) := by
    rw [isAppended, dedupe_sorted (contextLines_sorted gap lines _ _)]
  have isCount : countContiguousTailLines gap.count (contextLines gap lines
      (gap.count - (state.tailLoadedCount + count : Nat)) (state.tailLoadedCount + count)) =
        state.tailLoadedCount + count := by
    have counted := contiguousFrom_reverse gap lines
      (gap.count - (state.tailLoadedCount + count : Nat)) (state.tailLoadedCount + count)
    rw [Int.sub_add_cancel] at counted
    exact counted
  unfold mergeGapLines
  dsimp only
  rw [isTail, isCount]
  refine ⟨⟨filled.head, rfl, ?_, filled.next⟩, rfl⟩
  push_cast
  omega

theorem remaining_eq (filled : Filled gap lines state) : getGapRemainingCount gap state =
    gap.count - state.headLoadedCount - state.tailLoadedCount := by
  have within := filled.within
  unfold getGapRemainingCount
  push_cast
  omega

end

/-! ## A load -/

/-- The plan asks for what comes next at an end of the gap. -/
structure Fits (gap : DiffContextGap) (state : GapLoadState) (plan : GapMiddleLoadPlan) :
    Prop where
  head : ∀ half, plan.head = some half →
    half.startOffset = state.headLoadedCount ∧ 0 < half.requestedCount
  tail : ∀ half, plan.tail = some half →
    half.startOffset = gap.count - state.tailLoadedCount - half.requestedCount ∧
      0 < half.requestedCount
  within : (plan.head.elim 0 (·.requestedCount)) + (plan.tail.elim 0 (·.requestedCount)) ≤
    gap.count - state.headLoadedCount - state.tailLoadedCount
  some : plan.head.isSome ∨ plan.tail.isSome

/-- The files have the same lines in the gap. -/
def Agree (gap : DiffContextGap) (first second : Int → String) : Prop :=
  ∀ line, gap.displayStart ≤ line → line < gap.displayStart + gap.count →
    first line = second line

section
variable {gap : DiffContextGap} {lines other : Int → String} {state : GapLoadState}

theorem contextLines_agree (agree : Agree gap other lines) {startOffset : Int} {count : Nat}
    (isLower : 0 ≤ startOffset) (isUpper : startOffset + count ≤ gap.count) :
    contextLines gap other startOffset count = contextLines gap lines startOffset count :=
  contextLines_congr gap other fun index isIn => agree _ (by omega) (by omega)

theorem mergeLoaded_head {plan : Option GapLoadPlan} {count : Option Nat}
    (filled : Filled gap lines state) (agree : Agree gap other lines)
    (fits : ∀ half, plan = some half → half.startOffset = state.headLoadedCount)
    (within : (state.headLoadedCount + state.tailLoadedCount : Int) +
      plan.elim 0 (·.requestedCount) ≤ gap.count)
    (answers : ∀ half asked, plan = some half → count = some asked →
      (asked : Int) ≤ half.requestedCount) : ∃ gained : Nat,
        let next := mergeLoaded gap .head plan
          (plan.bind fun half => count.map (fetched gap other half.startOffset)) state
        Filled gap lines next ∧ next.headLoadedCount = state.headLoadedCount + gained ∧
          next.tailLoadedCount = state.tailLoadedCount ∧
            (gained : Int) ≤ max (plan.elim 0 (·.requestedCount)) 0 ∧
              ∀ half asked, plan = some half → count = some asked → gained = asked := by
  cases plan with
  | none =>
    exact ⟨0, filled, rfl, rfl, Int.le_refl 0, nofun⟩
  | some half =>
    cases count with
    | none =>
      exact ⟨0, filled, rfl, rfl, le_max_right _ _, nofun⟩
    | some asked =>
      have isLess := answers half asked rfl rfl
      have isStart := fits half rfl
      have within : (state.headLoadedCount + state.tailLoadedCount : Int) +
          half.requestedCount ≤ gap.count := within
      have isSame : contextLines gap other half.startOffset asked =
          contextLines gap lines state.headLoadedCount asked := by
        rw [isStart]
        exact contextLines_agree agree (by omega) (by omega)
      obtain ⟨merged, isHead⟩ := filled.mergeHead asked (by omega)
      refine ⟨asked, ?_⟩
      show Filled gap lines (mergeGapLines state gap .head
        (contextLines gap other half.startOffset asked)) ∧ _
      rw [isSame]
      refine ⟨merged, ?_, rfl, le_max_of_le_left isLess, fun _ _ _ isAsked => by
        cases isAsked
        rfl⟩
      show (mergeGapLines state gap .head
        (contextLines gap other half.startOffset asked)).headLoadedCount = _
      rw [isSame]
      exact isHead

theorem mergeLoaded_tail (plan : Option GapLoadPlan) (count : Option Nat)
    (filled : Filled gap lines state) (agree : Agree gap other lines)
    (fits : ∀ half, plan = some half →
      half.startOffset = gap.count - state.tailLoadedCount - half.requestedCount)
    (within : (state.headLoadedCount + state.tailLoadedCount : Int) +
      plan.elim 0 (·.requestedCount) ≤ gap.count)
    (ends : ∀ half asked, plan = some half → count = some asked →
      asked = 0 ∨ (asked : Int) = half.requestedCount) : ∃ gained : Nat,
        let next := mergeLoaded gap .tail plan
          (plan.bind fun half => count.map (fetched gap other half.startOffset)) state
        Filled gap lines next ∧ next.tailLoadedCount = state.tailLoadedCount + gained ∧
          next.headLoadedCount = state.headLoadedCount ∧
            ∀ half asked, plan = some half → count = some asked → gained = asked := by
  cases plan with
  | none => exact ⟨0, filled, rfl, rfl, nofun⟩
  | some half =>
    cases count with
    | none => exact ⟨0, filled, rfl, rfl, nofun⟩
    | some asked =>
      have isEnd := ends half asked rfl rfl
      have isStart := fits half rfl
      have within : (state.headLoadedCount + state.tailLoadedCount : Int) +
          half.requestedCount ≤ gap.count := within
      have room : (state.headLoadedCount + state.tailLoadedCount + asked : Int) ≤
          gap.count := by
        have filledWithin := filled.within
        omega
      have isSame : contextLines gap other half.startOffset asked =
          contextLines gap lines half.startOffset asked := by
        rcases isEnd with rfl | isAll
        · rfl
        · exact contextLines_agree agree (by omega) (by omega)
      obtain ⟨merged, isTail⟩ := filled.mergeTail half.startOffset asked room
        (isEnd.imp id fun isAll => by omega)
      refine ⟨asked, ?_⟩
      show Filled gap lines (mergeGapLines state gap .tail
        (contextLines gap other half.startOffset asked)) ∧ _
      rw [isSame]
      refine ⟨merged, ?_, rfl, fun _ _ _ isAsked => by
        cases isAsked
        rfl⟩
      show (mergeGapLines state gap .tail
        (contextLines gap other half.startOffset asked)).tailLoadedCount = _
      rw [isSame]
      exact isTail

end

theorem Load.finish_eq (load : Load) (reply : Reply) (state : GapLoadState) :
    load.finish reply state = finishAround load.gap load.plan.halves
      (load.plan.halves.head.bind fun half => load.fetch half reply.head)
      (load.plan.halves.tail.bind fun half => load.fetch half reply.tail) state := by
  rcases load with ⟨gap, plan, lines⟩
  cases plan with
  | around plan => rfl
  | single plan =>
    rcases plan with ⟨startOffset, requestedCount, loadingKey⟩
    rcases reply with ⟨head, tail⟩
    cases loadingKey with
    | head => cases head <;> rfl
    | tail => cases tail <;> rfl

section
variable (load : Load) (reply : Reply) {lines : Int → String} {state : GapLoadState}

theorem finish_filled (filled : Filled load.gap lines state)
    (agree : Agree load.gap load.lines lines)
    (fits : Fits load.gap state load.plan.halves) (answers : load.Answers reply)
    (ends : ∀ plan count, load.plan.halves.tail = some plan → reply.tail = some count →
      count = 0 ∨ (count : Int) = plan.requestedCount) :
    Filled load.gap lines (load.finish reply state) ∧
      isGapLoading (load.finish reply state) = false ∧
        ∃ head tail : Nat,
          (load.finish reply state).headLoadedCount = state.headLoadedCount + head ∧
          (load.finish reply state).tailLoadedCount = state.tailLoadedCount + tail ∧
            (∀ half asked, load.plan.halves.head = some half → reply.head = some asked →
              head = asked) ∧
            (∀ half asked, load.plan.halves.tail = some half → reply.tail = some asked →
              tail = asked) := by
  rw [Load.finish_eq]
  have filledWithin := filled.within
  have within := fits.within
  have tailLower : 0 ≤ load.plan.halves.tail.elim 0 (·.requestedCount) := by
    cases isTail : load.plan.halves.tail with
    | none => exact Int.le_refl 0
    | some half => exact le_of_lt (fits.tail half isTail).2
  have headLower : 0 ≤ load.plan.halves.head.elim 0 (·.requestedCount) := by
    cases isHead : load.plan.halves.head with
    | none => exact Int.le_refl 0
    | some half => exact le_of_lt (fits.head half isHead).2
  obtain ⟨head, headFilled, isHead, sameTail, headUpper, isHeadAsked⟩ :=
    mergeLoaded_head filled agree (fun half isHalf => (fits.head half isHalf).1) (by omega)
      answers.head
  obtain ⟨tail, tailFilled, isTail, sameHead, isTailAsked⟩ :=
    mergeLoaded_tail load.plan.halves.tail reply.tail headFilled agree
      (fun half isHalf => by
        rw [sameTail]
        exact (fits.tail half isHalf).1)
      (by
        rw [isHead, sameTail]
        push_cast
        omega)
      ends
  unfold finishAround
  dsimp only
  refine ⟨?_, rfl, head, tail, ?_, ?_, isHeadAsked, isTailAsked⟩
  · apply Filled.flags
    split_ifs
    · exact tailFilled.advance
    · exact tailFilled
  · split_ifs <;> exact sameHead.trans isHead
  · split_ifs <;> exact isTail.trans (congrArg (· + tail) sameTail)

end

section
variable {gap : DiffContextGap} {lines : Int → String} {state : GapLoadState}

theorem plan_fits (filled : Filled gap lines state) {direction : GapLoadDirection}
    {plan : GapLoadPlan} (isPlan : planGapLoad gap state direction = some plan) :
    isGapLoading state = false ∧ Fits gap state (Plan.single plan).halves := by
  have remaining := remaining_eq filled
  have next := filled.next
  unfold planGapLoad at isPlan
  split_ifs at isPlan with isIdle
  rw [not_or] at isIdle
  refine ⟨Bool.eq_false_iff.mpr isIdle.1, ?_⟩
  cases direction with
  | head =>
    cases isPlan
    refine ⟨fun half isHalf => ?_, fun half isHalf => ?_, ?_, Or.inl rfl⟩
    · cases isHalf
      exact ⟨rfl, by dsimp only; omega⟩
    · cases isHalf
    · show min (state.nextLoadCount : Int) _ + 0 ≤ _
      omega
  | tail =>
    cases isPlan
    refine ⟨fun half isHalf => ?_, fun half isHalf => ?_, ?_, Or.inr rfl⟩
    · cases isHalf
    · cases isHalf
      exact ⟨rfl, by dsimp only; omega⟩
    · show 0 + min (state.nextLoadCount : Int) _ ≤ _
      omega

theorem halves_fit {head tail : Int} (isPositive : 0 < head) (isLower : 0 ≤ tail)
    (within : head + tail ≤ gap.count - state.headLoadedCount - state.tailLoadedCount) :
    Fits gap state
      { head := if 0 < head then some ⟨state.headLoadedCount, head, .head⟩ else none
        tail :=
          if 0 < tail then some ⟨gap.count - state.tailLoadedCount - tail, tail, .tail⟩
          else none } := by
  rw [if_pos isPositive]
  refine ⟨fun half isHalf => ?_, fun half isHalf => ?_, ?_, Or.inl rfl⟩
  · cases isHalf
    exact ⟨rfl, isPositive⟩
  · dsimp only at isHalf
    split_ifs at isHalf with hasTail
    cases isHalf
    exact ⟨rfl, hasTail⟩
  · dsimp only
    split_ifs with hasTail
    · exact within
    · show head + 0 ≤ _
      omega

theorem middlePlan_fits (filled : Filled gap lines state) {plan : GapMiddleLoadPlan}
    (isPlan : planGapMiddleLoad gap state = some plan) :
    isGapLoading state = false ∧ Fits gap state plan := by
  have remaining := remaining_eq filled
  have next := filled.next
  simp only [planGapMiddleLoad] at isPlan
  by_cases isDone : isGapLoading state = true ∨ getGapRemainingCount gap state ≤ 0
  · simp [if_pos isDone] at isPlan
  · rw [if_neg isDone] at isPlan
    rw [not_or] at isDone
    refine ⟨Bool.eq_false_iff.mpr isDone.1, ?_⟩
    cases isPlan
    apply halves_fit <;> split_ifs <;> dsimp only <;> omega

theorem fullLoad_progress (filled : Filled gap lines state) (isIdle : isGapLoading state = false)
    (kind : Option GapLoadDirection) : Filled gap lines (fullLoad gap lines state kind) ∧
      isGapLoading (fullLoad gap lines state kind) = false ∧
        getGapRemainingCount gap (fullLoad gap lines state kind) ≤
          max (getGapRemainingCount gap state - 1) 0 := by
  have isFull : ∀ (plan : Plan) (reply : Reply) (loading : GapLoadState),
      Filled gap lines loading → loading.headLoadedCount = state.headLoadedCount →
      loading.tailLoadedCount = state.tailLoadedCount → Fits gap loading plan.halves →
      (∀ half, plan.halves.head = some half → reply.head = some half.requestedCount.toNat) →
      (∀ half, plan.halves.tail = some half → reply.tail = some half.requestedCount.toNat) →
      Filled gap lines (Load.finish ⟨gap, plan, lines⟩ reply loading) ∧
        isGapLoading (Load.finish ⟨gap, plan, lines⟩ reply loading) = false ∧
          getGapRemainingCount gap (Load.finish ⟨gap, plan, lines⟩ reply loading) ≤
            max (getGapRemainingCount gap state - 1) 0 := by
    intro plan reply loading loadingFilled sameHead sameTail fits isHead isTail
    obtain ⟨finished, notLoading, head, tail, gainedHead, gainedTail, isHeadGain, isTailGain⟩ :=
      finish_filled ⟨gap, plan, lines⟩ reply loadingFilled
        (fun _ _ _ => rfl) fits
        ⟨fun half count isHalf isCount => by
            have isAsked := Option.some.inj ((isHead half isHalf).symm.trans isCount)
            have isPositive := (fits.head half isHalf).2
            omega,
          fun half count isHalf isCount => by
            have isAsked := Option.some.inj ((isTail half isHalf).symm.trans isCount)
            have isPositive := (fits.tail half isHalf).2
            omega⟩
        (fun half count isHalf isCount => by
          have isAsked := Option.some.inj ((isTail half isHalf).symm.trans isCount)
          have isPositive := (fits.tail half isHalf).2
          right
          omega)
    refine ⟨finished, notLoading, ?_⟩
    rw [remaining_eq finished, remaining_eq filled, gainedHead, gainedTail, sameHead, sameTail]
    rcases fits.some with hasHead | hasTail
    · obtain ⟨half, isHalf⟩ := Option.isSome_iff_exists.mp hasHead
      have gained := isHeadGain half _ isHalf (isHead half isHalf)
      have isPositive := (fits.head half isHalf).2
      push_cast
      omega
    · obtain ⟨half, isHalf⟩ := Option.isSome_iff_exists.mp hasTail
      have gained := isTailGain half _ isHalf (isTail half isHalf)
      have isPositive := (fits.tail half isHalf).2
      push_cast
      omega
  have stays : (∀ direction, planGapLoad gap state direction = none →
      getGapRemainingCount gap state ≤ 0) ∧ (planGapMiddleLoad gap state = none →
        getGapRemainingCount gap state ≤ 0) := by
    refine ⟨fun direction noPlan => ?_, fun noPlan => ?_⟩
    · unfold planGapLoad at noPlan
      split_ifs at noPlan with isDone
      · rcases isDone with isBusy | isDone
        · simp [isIdle] at isBusy
        · exact isDone
      · cases direction <;> cases noPlan
    · simp only [planGapMiddleLoad] at noPlan
      split_ifs at noPlan with isDone
      rcases isDone with isBusy | isDone
      · simp [isIdle] at isBusy
      · exact isDone
  cases kind with
  | some direction =>
    dsimp only [fullLoad]
    cases isPlan : planGapLoad gap state direction with
    | none => exact ⟨filled, isIdle, le_max_of_le_right (stays.1 direction isPlan)⟩
    | some plan =>
      obtain ⟨_, fits⟩ := plan_fits filled isPlan
      refine isFull (.single plan)
        ⟨some plan.requestedCount.toNat, some plan.requestedCount.toNat⟩
        (markGapLoading state plan) (filled.flags _ _) rfl rfl
        ⟨fits.head, fits.tail, fits.within, fits.some⟩ ?_ ?_
      all_goals
        intro half isHalf
        rcases plan with ⟨startOffset, requestedCount, loadingKey⟩
        cases loadingKey <;> cases isHalf
        rfl
  | none =>
    dsimp only [fullLoad]
    cases isPlan : planGapMiddleLoad gap state with
    | none => exact ⟨filled, isIdle, le_max_of_le_right (stays.2 isPlan)⟩
    | some plan =>
      obtain ⟨_, fits⟩ := middlePlan_fits filled isPlan
      refine isFull (.around plan) ⟨plan.head.map (·.requestedCount.toNat),
        plan.tail.map (·.requestedCount.toNat)⟩
        { state with loadingHead := plan.head.isSome, loadingTail := plan.tail.isSome }
        (filled.flags _ _) rfl rfl
        ⟨fits.head, fits.tail, fits.within, fits.some⟩ ?_ ?_
      · intro half isHalf
        show plan.head.map _ = _
        rw [show plan.head = some half from isHalf]
        rfl
      · intro half isHalf
        show plan.tail.map _ = _
        rw [show plan.tail = some half from isHalf]
        rfl

theorem fullLoads_end (kinds : List (Option GapLoadDirection)) : ∀ state : GapLoadState,
    Filled gap lines state → isGapLoading state = false →
      getGapRemainingCount gap state ≤ kinds.length →
        Filled gap lines (kinds.foldl (fullLoad gap lines) state) ∧
          getGapRemainingCount gap (kinds.foldl (fullLoad gap lines) state) = 0 := by
  induction kinds with
  | nil =>
    intro state filled _ isShort
    have isLower : 0 ≤ getGapRemainingCount gap state := le_max_right _ _
    exact ⟨filled, le_antisymm isShort isLower⟩
  | cons kind rest ih =>
    intro state filled isIdle isShort
    obtain ⟨nextFilled, nextIdle, isLess⟩ := fullLoad_progress filled isIdle kind
    rw [List.length_cons] at isShort
    push_cast at isShort
    exact ih _ nextFilled nextIdle (by omega)

theorem Filled.shown (filled : Filled gap lines state) : GapShown gap lines state := by
  have isHead : state.headLines.length = state.headLoadedCount := by
    rw [filled.head, contextLines_length]
  have isTail : state.tailLines.length = state.tailLoadedCount := by
    rw [filled.tail, contextLines_length]
  refine ⟨?_, ?_, ?_, ?_, fun isIdle kinds isShort => ?_⟩
  · rw [isHead]
    exact filled.head
  · rw [isTail]
    exact filled.tail
  · rw [isHead, isTail]
    exact filled.within
  · rw [isHead, isTail]
    exact remaining_eq filled
  · have isDone := (fullLoads_end kinds state filled isIdle isShort).2
    refine ⟨isDone, fun direction => ?_, ?_⟩
    · unfold planGapLoad
      rw [isDone, if_pos (Or.inr (Int.le_refl 0))]
    · unfold planGapMiddleLoad
      rw [isDone, if_pos (Or.inr (Int.le_refl 0))]

end

/-! ## Runs -/

theorem laterGaps_slot (count : Nat) (rest : List DiffHunk) :
    ∀ (slot index : Nat) (current : DiffHunk) (gap : DiffContextGap),
      (laterGaps count slot current rest)[index]? = some (some gap) →
        gap.slot = slot + index ∧ 0 < gap.count := by
  induction rest with
  | nil =>
    intro slot index current gap isGap
    cases index with
    | zero =>
      obtain ⟨rfl, isPositive⟩ := eq_of_slotOf (Option.some.inj isGap)
      exact ⟨rfl, isPositive⟩
    | succ index => cases isGap
  | cons next rest ih =>
    intro slot index current gap isGap
    cases index with
    | zero =>
      obtain ⟨rfl, isPositive⟩ := eq_of_slotOf (Option.some.inj isGap)
      exact ⟨rfl, isPositive⟩
    | succ index =>
      obtain ⟨isSlot, isPositive⟩ := ih (slot + 1) index next gap isGap
      exact ⟨by omega, isPositive⟩

theorem gap?_slot {shown : Shown} {slot : Nat} {gap : DiffContextGap}
    (isGap : shown.gap? slot = some gap) : gap.slot = slot ∧ 0 < gap.count := by
  unfold Shown.gap? at isGap
  rw [Option.join_eq_some_iff] at isGap
  unfold buildContextGapSlots at isGap
  split at isGap
  · cases isGap
  · rename_i first rest isHunks
    split_ifs at isGap
    · rw [List.getElem?_replicate] at isGap
      split_ifs at isGap
      cases isGap
    · cases slot with
      | zero =>
        obtain ⟨rfl, isPositive⟩ := eq_of_slotOf (Option.some.inj isGap)
        exact ⟨rfl, isPositive⟩
      | succ slot =>
        obtain ⟨isSlot, isPositive⟩ := laterGaps_slot _ rest 1 slot first gap isGap
        exact ⟨by omega, isPositive⟩

/-- A load asks for what comes next in a gap of the diff on screen. -/
structure InFlight (view : Section) (load : Load) : Prop where
  shown : view.shown.gap? load.gap.slot = some load.gap
  fits : Fits load.gap (view.gapStates load.gap.slot) load.plan.halves
  loading : isGapLoading (view.gapStates load.gap.slot) = true
  agree : Agree load.gap load.lines view.shown.lines

structure Sound (view : Section) : Prop where
  filled : ∀ slot gap, view.shown.gap? slot = some gap →
    Filled gap view.shown.lines (view.gapStates slot)
  loads : ∀ id load, view.loads id = some load → InFlight view load
  single : ∀ first second firstLoad secondLoad, view.loads first = some firstLoad →
    view.loads second = some secondLoad → firstLoad.gap.slot = secondLoad.gap.slot →
      first = second

theorem opened_sound (shown : Shown) (issued : Nat) :
    Sound { opened shown with issued := issued } where
  filled := by
    intro slot gap isGap
    have isPositive := (gap?_slot isGap).2
    refine ⟨rfl, rfl, ?_, (Nat.succ_pos 4 : 0 < firstGapLoadCount)⟩
    show ((0 : Nat) + (0 : Nat) : Int) ≤ gap.count
    omega
  loads := by
    intro id load isLoad
    cases isLoad
  single := by
    intro first second firstLoad secondLoad isFirst
    cases isFirst

section
variable {view : Section}

theorem Sound.start (sound : Sound view) {gap : DiffContextGap} {plan : Plan}
    {state : GapLoadState} (isGap : view.shown.gap? gap.slot = some gap)
    (isIdle : isGapLoading (view.gapStates gap.slot) = false)
    (filled : Filled gap view.shown.lines state) (fits : Fits gap state plan.halves)
    (isLoading : isGapLoading state = true) : Sound (view.start gap plan state) := by
  have otherSlot : ∀ id load, view.loads id = some load → load.gap.slot ≠ gap.slot := by
    intro id load isLoad sameSlot
    have loading := (sound.loads id load isLoad).loading
    simp [sameSlot, isIdle] at loading
  refine ⟨fun slot other isOther => ?_, fun id load isLoad => ?_,
    fun first second firstLoad secondLoad isFirst isSecond sameSlot => ?_⟩
  · show Filled other view.shown.lines (Function.update view.gapStates gap.slot state slot)
    by_cases sameSlot : slot = gap.slot
    · subst sameSlot
      cases Option.some.inj (isGap.symm.trans isOther)
      rw [update_self]
      exact filled
    · rw [update_of_ne sameSlot]
      exact sound.filled slot other isOther
  · rcases update_eq_some isLoad with ⟨_, isNew⟩ | ⟨_, isOld⟩
    · cases isNew
      refine ⟨isGap, ?_, ?_, fun _ _ _ => rfl⟩
      · show Fits gap (Function.update view.gapStates gap.slot state gap.slot) plan.halves
        rw [update_self]
        exact fits
      · show isGapLoading (Function.update view.gapStates gap.slot state gap.slot) = true
        rw [update_self]
        exact isLoading
    · have inFlight := sound.loads id load isOld
      have isOther := otherSlot id load isOld
      refine ⟨inFlight.shown, ?_, ?_, inFlight.agree⟩
      · show Fits load.gap (Function.update view.gapStates gap.slot state load.gap.slot) _
        rw [update_of_ne isOther]
        exact inFlight.fits
      · show isGapLoading (Function.update view.gapStates gap.slot state load.gap.slot) = true
        rw [update_of_ne isOther]
        exact inFlight.loading
  · rcases update_eq_some isFirst with ⟨firstNew, isNew⟩ | ⟨_, isOld⟩
    · cases isNew
      rcases update_eq_some isSecond with ⟨secondNew, _⟩ | ⟨_, isOld⟩
      · exact firstNew.trans secondNew.symm
      · exact absurd sameSlot.symm (otherSlot second secondLoad isOld)
    · rcases update_eq_some isSecond with ⟨_, isNew⟩ | ⟨_, isSecondOld⟩
      · cases isNew
        exact absurd sameSlot (otherSlot first firstLoad isOld)
      · exact sound.single first second firstLoad secondLoad isOld isSecondOld sameSlot

variable {slot : Nat}

theorem loadGapContext_sound (sound : Sound view) {gap : DiffContextGap}
    (isGap : view.shown.gap? slot = some gap) (direction : GapLoadDirection) :
    Sound (view.loadGapContext gap direction) := by
  have isSlot := (gap?_slot isGap).1
  subst isSlot
  have filled := sound.filled _ gap isGap
  unfold Section.loadGapContext
  dsimp only
  cases isPlan : planGapLoad gap (view.gapStates gap.slot) direction with
  | none => exact sound
  | some plan =>
    obtain ⟨isIdle, fits⟩ := plan_fits filled isPlan
    refine sound.start isGap isIdle (filled.flags _ _)
      ⟨fits.head, fits.tail, fits.within, fits.some⟩ ?_
    unfold markGapLoading isGapLoading
    rcases plan with ⟨startOffset, requestedCount, loadingKey⟩
    cases loadingKey <;> rfl

theorem loadGapContextAround_sound (sound : Sound view) {gap : DiffContextGap}
    (isGap : view.shown.gap? slot = some gap) : Sound (view.loadGapContextAround gap) := by
  have isSlot := (gap?_slot isGap).1
  subst isSlot
  have filled := sound.filled _ gap isGap
  unfold Section.loadGapContextAround
  dsimp only
  cases isPlan : planGapMiddleLoad gap (view.gapStates gap.slot) with
  | none => exact sound
  | some plan =>
    obtain ⟨isIdle, fits⟩ := middlePlan_fits filled isPlan
    refine sound.start isGap isIdle (filled.flags _ _)
      ⟨fits.head, fits.tail, fits.within, fits.some⟩ ?_
    unfold isGapLoading
    rw [Bool.or_eq_true]
    exact fits.some

theorem reply_sound (sound : Sound view) {id : Nat} {reply : Reply} {load : Load}
    (isLoad : view.loads id = some load) (answers : load.Answers reply)
    (ends : ∀ plan count, load.plan.halves.tail = some plan → reply.tail = some count →
      count = 0 ∨ (count : Int) = plan.requestedCount) :
    Sound { view with
      gapStates := Function.update view.gapStates load.gap.slot
        (load.finish reply (view.gapStates load.gap.slot))
      loads := Function.update view.loads id none } := by
  have inFlight := sound.loads id load isLoad
  have finished := (finish_filled load reply (sound.filled _ _ inFlight.shown) inFlight.agree
    inFlight.fits answers ends).1
  refine ⟨fun slot other isOther => ?_, fun otherId other isOther => ?_,
    fun first second firstLoad secondLoad isFirst isSecond sameSlot => ?_⟩
  · show Filled other view.shown.lines (Function.update view.gapStates _ _ slot)
    by_cases sameSlot : slot = load.gap.slot
    · subst sameSlot
      cases Option.some.inj (inFlight.shown.symm.trans isOther)
      rw [update_self]
      exact finished
    · rw [update_of_ne sameSlot]
      exact sound.filled slot other isOther
  · rcases update_eq_some isOther with ⟨_, isNone⟩ | ⟨notSame, isOld⟩
    · cases isNone
    · have otherFlight := sound.loads otherId other isOld
      have otherSlot : other.gap.slot ≠ load.gap.slot := fun sameSlot =>
        notSame (sound.single otherId id other load isOld isLoad sameSlot)
      refine ⟨otherFlight.shown, ?_, ?_, otherFlight.agree⟩
      · show Fits other.gap (Function.update view.gapStates _ _ other.gap.slot) _
        rw [update_of_ne otherSlot]
        exact otherFlight.fits
      · show isGapLoading (Function.update view.gapStates _ _ other.gap.slot) = true
        rw [update_of_ne otherSlot]
        exact otherFlight.loading
  · rcases update_eq_some isFirst with ⟨_, isNone⟩ | ⟨_, firstOld⟩
    · cases isNone
    · rcases update_eq_some isSecond with ⟨_, isNone⟩ | ⟨_, secondOld⟩
      · cases isNone
      · exact sound.single first second firstLoad secondLoad firstOld secondOld sameSlot

theorem gap?_of_identity {first second : Shown} (sameIdentity : first.identity = second.identity)
    (slot : Nat) : first.gap? slot = second.gap? slot := by
  have sameGaps : buildContextGapSlots first.diff = buildContextGapSlots second.diff :=
    congrArg GapStateIdentity.gaps sameIdentity
  unfold Shown.gap?
  rw [sameGaps]

theorem show_sound (sound : Sound view) {shown : Shown} (clean : Clean view (.show shown)) :
    Sound (view.show shown) := by
  have clean : shown.path = view.shown.path →
      if shown.identity = view.shown.identity then SameHidden view.shown shown
      else ∀ id, view.loads id = none := clean.2
  unfold Section.show
  split_ifs with otherPath sameIdentity
  · exact opened_sound shown view.issued
  · have same := clean (not_not.mp otherPath)
    rw [if_pos sameIdentity] at same
    refine ⟨fun slot gap isGap => ?_, fun id load isLoad => ?_, sound.single⟩
    · have filled := sound.filled slot gap ((gap?_of_identity sameIdentity slot).symm.trans isGap)
      have within := filled.within
      refine ⟨?_, ?_, within, filled.next⟩
      · exact filled.head.trans
          (contextLines_agree (same slot gap isGap) (Int.le_refl 0) (by omega))
      · exact filled.tail.trans
          (contextLines_agree (same slot gap isGap) (by omega) (by omega))
    · have inFlight := sound.loads id load isLoad
      have isShown := (gap?_of_identity sameIdentity load.gap.slot).trans inFlight.shown
      refine ⟨isShown, inFlight.fits, inFlight.loading, fun line isLower isUpper => ?_⟩
      exact (inFlight.agree line isLower isUpper).trans
        (same load.gap.slot load.gap isShown line isLower isUpper)
  · have noLoads := clean (not_not.mp otherPath)
    rw [if_neg sameIdentity] at noLoads
    refine ⟨(opened_sound shown view.issued).filled, fun id load isLoad => ?_,
      fun first _ _ _ isFirst => ?_⟩
    · cases (noLoads id).symm.trans isLoad
    · cases (noLoads first).symm.trans isFirst

theorem step_sound (sound : Sound view) {label : Label} (clean : Clean view label)
    {next : Section} (ran : step view label = some next) : Sound next := by
  cases label with
  | load slot direction =>
    obtain ⟨gap, isGap, rfl⟩ := Option.map_eq_some_iff.mp ran
    exact loadGapContext_sound sound isGap direction
  | loadAround slot =>
    obtain ⟨gap, isGap, rfl⟩ := Option.map_eq_some_iff.mp ran
    exact loadGapContextAround_sound sound isGap
  | reply id reply =>
    obtain ⟨load, isLoad, rfl⟩ := Option.map_eq_some_iff.mp ran
    exact reply_sound sound isLoad (clean.1 load isLoad) (clean.2 load isLoad)
  | «show» shown =>
    cases ran
    exact show_sound sound clean

end

theorem contextShown {shown : Shown} {finish : Section}
    (run : Run step Clean (opened shown) finish) : ContextShown finish := by
  have sound : Sound finish :=
    run.invariant (opened_sound shown 0) fun _ _ _ sound clean ran =>
      step_sound sound clean ran
  exact ⟨fun slot gap isGap => (sound.filled slot gap isGap).shown, sound.single⟩

/-- Ten lines, of which the last one has changed. -/
def lastChanged (text : String) : Shown where
  path := "a.txt"
  oldPath := none
  isCommitView := false
  isStaged := false
  commitHash := none
  diff := ⟨.modified, [⟨7, 4, 7, 4⟩], 10⟩
  lines := fun _ => text

/-- Twelve lines, of which the last one has changed. -/
def lastChangedLater (text : String) : Shown :=
  { lastChanged text with diff := ⟨.modified, [⟨9, 4, 9, 4⟩], 12⟩ }

def loadHead : List Label := [.load 0 .head, .reply 0 ⟨some 5, none⟩]

theorem contextShown_loadHead : ∃ finish, execute step (opened (lastChanged "a")) loadHead =
    some finish ∧ ContextShown finish := by
  refine ⟨_, rfl, @contextShown (lastChanged "a") _ (run_of_permitted loadHead ?_ rfl)⟩
  refine ⟨⟨trivial, trivial⟩, _, rfl, ⟨?_, ?_⟩, _, rfl, trivial⟩
  · intro load isLoad
    cases isLoad
    refine ⟨fun plan count isPlan isCount => ?_, fun plan count isPlan => ?_⟩
    · cases isPlan
      cases isCount
      decide
    · cases isPlan
  · intro load isLoad plan count isPlan
    cases isLoad
    cases isPlan

def replacedInFlight : List Label :=
  [.load 0 .head, .show (lastChangedLater "b"), .reply 0 ⟨some 5, none⟩]

/-- The lines of the old diff are shown in the gap of the new one. -/
theorem not_contextShown : ¬∀ (shown : Shown) (finish : Section),
    Run step Given (opened shown) finish → ContextShown finish := by
  intro allShown
  have run : ∃ finish, Run step Given (opened (lastChanged "a")) finish ∧
      finish.shown.gap? 0 = some ⟨0, 8, 1, 1, 1⟩ ∧
        ((finish.gapStates 0).headLines.head?.map (·.content)) = some "a" ∧
          finish.shown.lines 1 = "b" ∧ (finish.gapStates 0).headLines.length = 5 := by
    refine ⟨_, run_of_permitted replacedInFlight ?_ rfl, rfl, rfl, rfl, rfl⟩
    refine ⟨trivial, _, rfl, trivial, _, rfl, ?_, _, rfl, trivial⟩
    intro load isLoad
    cases isLoad
    refine ⟨fun plan count isPlan isCount => ?_, fun plan count isPlan => ?_⟩
    · cases isPlan
      cases isCount
      decide
    · cases isPlan
  obtain ⟨finish, isRun, isGap, isOld, isNew, hasLength⟩ := run
  have shown := (allShown _ finish isRun).gaps 0 _ isGap
  rw [shown.head, hasLength, contextLines_eq] at isOld
  have isContent : finish.shown.lines 1 = "a" := Option.some.inj isOld
  rw [isNew] at isContent
  exact absurd isContent (by decide)

end AiTools.GitDiff.ContextLoading
