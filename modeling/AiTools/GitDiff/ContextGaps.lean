import Mathlib

/-!
Contract: the gaps between the hunks of a file diff, in which the view offers context.
-/

namespace AiTools.GitDiff.ContextGaps

structure DiffHunk where
  oldStart : Nat
  oldCount : Nat
  newStart : Nat
  newCount : Nat

inductive FileDiffStatus where
  | added
  | deleted
  | modified
  | renamed
  | conflicted
deriving DecidableEq

structure FileDiff where
  status : FileDiffStatus
  hunks : List DiffHunk
  displayLineCount : Nat

structure DiffContextGap where
  slot : Nat
  count : Int
  displayStart : Int
  oldStart : Int
  newStart : Int
deriving DecidableEq

def sharedGapCount (oldGapCount newGapCount : Int) : Int :=
  if oldGapCount ≤ 0 ∨ newGapCount ≤ 0 then 0 else min oldGapCount newGapCount

/-- A slot stays `null` when its gap has no lines. -/
def slotOf (gap : DiffContextGap) : Option DiffContextGap := if 0 < gap.count then some gap else none

def leadingGap (firstHunk : DiffHunk) : Option DiffContextGap :=
  slotOf ⟨0, sharedGapCount (firstHunk.oldStart - 1) (firstHunk.newStart - 1), 1, 1, 1⟩

def middleGap (slot : Nat) (current next : DiffHunk) : Option DiffContextGap :=
  let oldStart : Int := current.oldStart + current.oldCount
  let newStart : Int := current.newStart + current.newCount
  slotOf ⟨slot, sharedGapCount (next.oldStart - oldStart) (next.newStart - newStart), newStart,
    oldStart, newStart⟩

def trailingGap (slot displayLineCount : Nat) (lastHunk : DiffHunk) : Option DiffContextGap :=
  let displayEnd : Int := lastHunk.newStart + lastHunk.newCount - 1
  slotOf ⟨slot, max (displayLineCount - displayEnd) 0, displayEnd + 1,
    lastHunk.oldStart + lastHunk.oldCount, lastHunk.newStart + lastHunk.newCount⟩

/-- The loop over the hunks from the current one on, and the trailing gap. -/
def laterGaps (displayLineCount : Nat) :
    Nat → DiffHunk → List DiffHunk → List (Option DiffContextGap)
  | slot, current, [] => [trailingGap slot displayLineCount current]
  | slot, current, next :: rest =>
    middleGap slot current next :: laterGaps displayLineCount (slot + 1) next rest

def buildContextGapSlots (diff : FileDiff) : List (Option DiffContextGap) :=
  match diff.hunks with
  | [] => []
  | firstHunk :: rest =>
    if diff.status = .added ∨ diff.status = .deleted then
      List.replicate (diff.hunks.length + 1) none
    else leadingGap firstHunk :: laterGaps diff.displayLineCount 1 firstHunk rest

/-- What a hunk covers, and the unchanged lines behind it up to the next hunk. -/
structure Block where
  old : Nat
  new : Nat
  after : Nat
  nonempty : 0 < old ∨ 0 < new

/-- Both versions of a file: unchanged lines, and then blocks. -/
structure Layout where
  lead : Nat
  blocks : List Block

/-- The start of a range behind some lines. An empty range names the line before it. -/
def rangeStart (before count : Nat) : Nat := if count = 0 then before else before + 1

def Block.hunk (block : Block) (oldBefore newBefore : Nat) : DiffHunk :=
  ⟨rangeStart oldBefore block.old, block.old, rangeStart newBefore block.new, block.new⟩

def hunksFrom : Nat → Nat → List Block → List DiffHunk
  | _, _, [] => []
  | oldBefore, newBefore, block :: rest =>
    block.hunk oldBefore newBefore ::
      hunksFrom (oldBefore + block.old + block.after) (newBefore + block.new + block.after) rest

theorem hunksFrom_cons (oldBefore newBefore : Nat) (block : Block) (rest : List Block) :
    hunksFrom oldBefore newBefore (block :: rest) = block.hunk oldBefore newBefore ::
      hunksFrom (oldBefore + block.old + block.after) (newBefore + block.new + block.after) rest :=
  rfl

def linesFrom : Nat → List Block → Nat
  | newBefore, [] => newBefore
  | newBefore, block :: rest => linesFrom (newBefore + block.new + block.after) rest

def Layout.diff (layout : Layout) (status : FileDiffStatus) : FileDiff :=
  ⟨status, hunksFrom layout.lead layout.lead layout.blocks, linesFrom layout.lead layout.blocks⟩

/-- Lines of a run of unchanged lines that starts behind some lines. -/
def InRun (oldBefore newBefore count : Nat) (old new : Int) : Prop :=
  oldBefore < old ∧ old ≤ oldBefore + count ∧ old - oldBefore = new - newBefore

/-- An old line and a new line that are the same unchanged line. -/
def PairsFrom : Nat → Nat → List Block → Int → Int → Prop
  | _, _, [], _, _ => False
  | oldBefore, newBefore, block :: rest, old, new =>
    InRun (oldBefore + block.old) (newBefore + block.new) block.after old new ∨
      PairsFrom (oldBefore + block.old + block.after) (newBefore + block.new + block.after) rest
        old new

def Layout.Pairs (layout : Layout) (old new : Int) : Prop :=
  InRun 0 0 layout.lead old new ∨ PairsFrom layout.lead layout.lead layout.blocks old new

def DiffContextGap.covers (gap : DiffContextGap) (line : Int) : Bool :=
  gap.displayStart ≤ line ∧ line < gap.displayStart + gap.count

def DiffHunk.covers (hunk : DiffHunk) (line : Int) : Bool :=
  hunk.newStart ≤ line ∧ line < hunk.newStart + hunk.newCount

/-- How many gaps and hunks have the line. -/
def shown (slots : List (Option DiffContextGap)) (hunks : List DiffHunk) (line : Int) : Nat :=
  slots.countP (fun slot => slot.any (·.covers line)) + hunks.countP (·.covers line)

structure Tiles (layout : Layout) (diff : FileDiff) (slots : List (Option DiffContextGap)) :
    Prop where
  disjoint : ∀ line : Int, shown slots diff.hunks line ≤ 1
  once : ∀ line : Int, 1 ≤ line → line ≤ diff.displayLineCount → shown slots diff.hunks line = 1
  starts : ∀ gap, some gap ∈ slots → 1 ≤ gap.displayStart
  paired : ∀ gap, some gap ∈ slots → gap.displayStart = gap.newStart ∧ ∀ offset, 0 ≤ offset →
    offset < gap.count → layout.Pairs (gap.oldStart + offset) (gap.newStart + offset)

def Block.TwoSided (block : Block) : Prop := 0 < block.old ∧ 0 < block.new

def ExactFrom : Block → List Block → Prop
  | last, [] => 0 < last.new ∧ (0 < last.after → 0 < last.old)
  | block, next :: rest => (0 < block.after → block.TwoSided ∧ next.TwoSided) ∧ ExactFrom next rest

/-- The hunks around unchanged lines have lines of both versions, the last hunk has new lines, and
a file without hunks has no lines. -/
def Layout.Exact (layout : Layout) : Prop :=
  match layout.blocks with
  | [] => layout.lead = 0
  | first :: rest => (0 < layout.lead → first.TwoSided) ∧ ExactFrom first rest

theorem slotOf_covers (gap : DiffContextGap) (line : Int) :
    (slotOf gap).any (·.covers line) = gap.covers line := by
  unfold slotOf
  split_ifs with isPositive
  · rfl
  · show false = decide _
    symm
    rw [decide_eq_false_iff_not]
    omega

theorem rangeStart_eq (before count : Nat) :
    (rangeStart before count : Int) = before + 1 - if count = 0 then 1 else 0 := by
  unfold rangeStart
  split_ifs <;> omega

theorem hunk_covers (block : Block) (oldBefore newBefore : Nat) (line : Int) :
    (block.hunk oldBefore newBefore).covers line = true ↔
      newBefore < line ∧ line ≤ newBefore + block.new := by
  unfold DiffHunk.covers Block.hunk
  rw [decide_eq_true_iff]
  dsimp only
  rw [rangeStart_eq]
  split_ifs <;> omega

theorem shown_cons (slot : Option DiffContextGap) (slots : List (Option DiffContextGap))
    (hunks : List DiffHunk) (line : Int) : shown (slot :: slots) hunks line =
      shown slots hunks line + if slot.any (·.covers line) then 1 else 0 := by
  unfold shown
  rw [List.countP_cons]
  omega

theorem shown_cons_hunk (slots : List (Option DiffContextGap)) (hunk : DiffHunk)
    (hunks : List DiffHunk) (line : Int) : shown slots (hunk :: hunks) line =
      shown slots hunks line + if hunk.covers line then 1 else 0 := by
  unfold shown
  rw [List.countP_cons]
  omega

theorem le_linesFrom (rest : List Block) : ∀ before : Nat, before ≤ linesFrom before rest := by
  induction rest with
  | nil => exact fun _ => Nat.le_refl _
  | cons block rest ih =>
    intro before
    have later := ih (before + block.new + block.after)
    unfold linesFrom
    omega

theorem sharedGapCount_le (oldGapCount newGapCount : Int) :
    sharedGapCount oldGapCount newGapCount ≤ 0 ∨
      sharedGapCount oldGapCount newGapCount ≤ oldGapCount ∧
        sharedGapCount oldGapCount newGapCount ≤ newGapCount := by
  unfold sharedGapCount
  split_ifs <;> omega

variable {first last : Block} {lead : Nat} {gap : DiffContextGap} {layout : Layout}
  {status : FileDiffStatus}

theorem leading_covers (exact : 0 < lead → first.TwoSided) (line : Int) :
    (leadingGap (first.hunk lead lead)).any (·.covers line) = true ↔ 1 ≤ line ∧ line ≤ lead := by
  unfold leadingGap
  rw [slotOf_covers]
  unfold DiffContextGap.covers Block.hunk sharedGapCount
  rw [decide_eq_true_iff]
  dsimp only
  rw [rangeStart_eq, rangeStart_eq]
  unfold Block.TwoSided at exact
  split_ifs <;> omega

theorem middle_covers {block next : Block} (oldBefore newBefore slot : Nat)
    (exact : 0 < block.after → block.TwoSided ∧ next.TwoSided) (line : Int) :
    (middleGap slot (block.hunk oldBefore newBefore)
        (next.hunk (oldBefore + block.old + block.after)
          (newBefore + block.new + block.after))).any (·.covers line) = true ↔
      newBefore + block.new < line ∧ line ≤ newBefore + block.new + block.after := by
  unfold middleGap
  dsimp only
  rw [slotOf_covers]
  unfold DiffContextGap.covers Block.hunk sharedGapCount
  rw [decide_eq_true_iff]
  dsimp only
  simp only [rangeStart_eq]
  have nonempty := block.nonempty
  unfold Block.TwoSided at exact
  split_ifs <;> omega

theorem trailing_covers (oldBefore newBefore slot : Nat) (exact : 0 < last.new) (line : Int) :
    (trailingGap slot (newBefore + last.new + last.after)
        (last.hunk oldBefore newBefore)).any (·.covers line) = true ↔
      newBefore + last.new < line ∧ line ≤ (newBefore + last.new + last.after : Nat) := by
  unfold trailingGap
  dsimp only
  rw [slotOf_covers]
  unfold DiffContextGap.covers Block.hunk
  rw [decide_eq_true_iff]
  dsimp only
  rw [rangeStart_eq]
  split_ifs <;> omega

theorem shown_later (rest : List Block) : ∀ (oldBefore newBefore slot : Nat) (block : Block),
    ExactFrom block rest → ∀ line, shown
      (laterGaps (linesFrom newBefore (block :: rest)) slot (block.hunk oldBefore newBefore)
        (hunksFrom (oldBefore + block.old + block.after) (newBefore + block.new + block.after) rest))
      (hunksFrom (oldBefore + block.old + block.after) (newBefore + block.new + block.after) rest)
      line = if newBefore + block.new < line ∧ line ≤ linesFrom newBefore (block :: rest) then 1
        else 0 := by
  induction rest with
  | nil =>
    intro oldBefore newBefore slot block exact line
    have covers := trailing_covers oldBefore newBefore slot exact.1 line
    unfold hunksFrom laterGaps
    rw [shown_cons]
    exact (Nat.zero_add _).trans (if_congr covers rfl rfl)
  | cons next rest ih =>
    intro oldBefore newBefore slot block exact line
    have covers := middle_covers oldBefore newBefore slot exact.1 line
    have covered := hunk_covers next (oldBefore + block.old + block.after)
      (newBefore + block.new + block.after) line
    have within := le_linesFrom rest
      (newBefore + block.new + block.after + next.new + next.after)
    have later := ih (oldBefore + block.old + block.after)
      (newBefore + block.new + block.after) (slot + 1) next exact.2 line
    unfold hunksFrom laterGaps
    rw [shown_cons, shown_cons_hunk, if_congr covers rfl rfl, if_congr covered rfl rfl]
    unfold linesFrom at later ⊢
    unfold linesFrom
    split_ifs at later ⊢ <;> omega

def Paired (pairs : Int → Int → Prop) (gap : DiffContextGap) : Prop :=
  gap.displayStart = gap.newStart ∧ ∀ offset, 0 ≤ offset → offset < gap.count →
    pairs (gap.oldStart + offset) (gap.newStart + offset)

theorem eq_of_slotOf {found : DiffContextGap} (isFound : slotOf gap = some found) :
    found = gap ∧ 0 < gap.count := by
  unfold slotOf at isFound
  split_ifs at isFound with isPositive
  exact ⟨(Option.some.inj isFound).symm, isPositive⟩

theorem middle_paired {block next : Block} {oldBefore newBefore slot : Nat}
    (exact : 0 < block.after → block.TwoSided ∧ next.TwoSided)
    (isGap : middleGap slot (block.hunk oldBefore newBefore)
      (next.hunk (oldBefore + block.old + block.after)
        (newBefore + block.new + block.after)) = some gap) : 1 ≤ gap.displayStart ∧
      Paired (InRun (oldBefore + block.old) (newBefore + block.new) block.after) gap := by
  obtain ⟨rfl, isPositive⟩ := eq_of_slotOf isGap
  unfold Block.TwoSided at exact
  have nonempty := block.nonempty
  unfold sharedGapCount Block.hunk at isPositive
  unfold Paired InRun sharedGapCount Block.hunk
  dsimp only at isPositive ⊢
  simp only [rangeStart_eq] at isPositive ⊢
  refine ⟨?_, trivial, fun offset isLower isUpper => ?_⟩
  · split_ifs at isPositive ⊢ <;> omega
  · push_cast
    split_ifs at isPositive isUpper ⊢ <;> omega

theorem trailing_paired {oldBefore newBefore slot : Nat} (exact : ExactFrom last [])
    (isGap : trailingGap slot (newBefore + last.new + last.after)
      (last.hunk oldBefore newBefore) = some gap) : 1 ≤ gap.displayStart ∧
      Paired (InRun (oldBefore + last.old) (newBefore + last.new) last.after) gap := by
  obtain ⟨rfl, isPositive⟩ := eq_of_slotOf isGap
  obtain ⟨hasNew, hasOld⟩ := exact
  unfold Block.hunk at isPositive
  unfold Paired InRun Block.hunk
  dsimp only at isPositive ⊢
  simp only [rangeStart_eq] at isPositive ⊢
  refine ⟨?_, by omega, fun offset isLower isUpper => ?_⟩
  · split_ifs at isPositive ⊢ <;> omega
  · push_cast at isPositive isUpper ⊢
    split_ifs at isPositive isUpper ⊢ <;> omega

theorem later_paired (rest : List Block) : ∀ (oldBefore newBefore slot : Nat) (block : Block),
    ExactFrom block rest → ∀ gap, some gap ∈
      laterGaps (linesFrom newBefore (block :: rest)) slot (block.hunk oldBefore newBefore)
        (hunksFrom (oldBefore + block.old + block.after) (newBefore + block.new + block.after)
          rest) →
      1 ≤ gap.displayStart ∧ Paired (PairsFrom oldBefore newBefore (block :: rest)) gap := by
  induction rest with
  | nil =>
    intro oldBefore newBefore slot block exact gap isIn
    have isGap := (List.mem_singleton.mp isIn).symm
    obtain ⟨starts, isStart, paired⟩ := trailing_paired exact isGap
    exact ⟨starts, isStart, fun offset isLower isUpper =>
      Or.inl (paired offset isLower isUpper)⟩
  | cons next rest ih =>
    intro oldBefore newBefore slot block exact gap isIn
    unfold hunksFrom laterGaps at isIn
    rcases List.mem_cons.mp isIn with isMiddle | isLater
    · obtain ⟨starts, isStart, paired⟩ := middle_paired exact.1 isMiddle.symm
      exact ⟨starts, isStart, fun offset isLower isUpper =>
        Or.inl (paired offset isLower isUpper)⟩
    · obtain ⟨starts, isStart, paired⟩ := ih _ _ _ _ exact.2 gap isLater
      exact ⟨starts, isStart, fun offset isLower isUpper =>
        Or.inr (paired offset isLower isUpper)⟩

theorem leading_paired (isGap : leadingGap (first.hunk lead lead) = some gap) :
    1 ≤ gap.displayStart ∧ Paired (InRun 0 0 lead) gap := by
  obtain ⟨rfl, isPositive⟩ := eq_of_slotOf isGap
  refine ⟨Int.le_refl 1, rfl, fun offset isLower isUpper => ?_⟩
  dsimp only at isPositive isUpper
  unfold InRun
  have isWithin := sharedGapCount_le ((first.hunk lead lead).oldStart - 1)
    ((first.hunk lead lead).newStart - 1)
  have isStart : ((first.hunk lead lead).oldStart : Int) ≤ lead + 1 := by
    show (rangeStart lead first.old : Int) ≤ lead + 1
    rw [rangeStart_eq]
    split_ifs <;> omega
  push_cast
  omega

/-! ## A tiled layout is exact -/

theorem lower_of_pairsFrom (rest : List Block) : ∀ {oldBefore newBefore : Nat} {block : Block}
    {old new : Int}, PairsFrom oldBefore newBefore (block :: rest) old new →
      oldBefore + block.old < old ∧ newBefore + block.new < new := by
  induction rest with
  | nil =>
    rintro oldBefore newBefore block old new (⟨isAfter, _, same⟩ | isNone)
    · push_cast at isAfter same
      omega
    · cases isNone
  | cons next rest ih =>
    rintro oldBefore newBefore block old new (⟨isAfter, _, same⟩ | isLater)
    · push_cast at isAfter same
      omega
    · have isLower := ih isLater
      push_cast at isLower
      omega

section
variable {pairs : Int → Int → Prop} {oldBefore newBefore : Nat} {block : Block} {rest : List Block}

/-- What is unchanged lies before the block, or behind it. -/
def Splits (pairs : Int → Int → Prop) (oldBefore newBefore : Nat) (blocks : List Block) : Prop :=
  ∀ old new, pairs old new →
    old ≤ oldBefore ∧ new ≤ newBefore ∨ PairsFrom oldBefore newBefore blocks old new

theorem Splits.next (splits : Splits pairs oldBefore newBefore (block :: rest)) :
    Splits pairs (oldBefore + block.old + block.after) (newBefore + block.new + block.after)
      rest := by
  intro old new isPair
  rcases splits old new isPair with ⟨isOld, isNew⟩ | ⟨isAfter, isUpper, same⟩ | isLater
  · left
    push_cast
    omega
  · left
    push_cast at isAfter isUpper same ⊢
    omega
  · exact .inr isLater

/-- A gap right behind a block has its lines only when the block has lines of both versions. -/
theorem twoSided_of_paired (splits : Splits pairs oldBefore newBefore (block :: rest))
    (isPositive : 0 < gap.count) (paired : Paired pairs gap)
    (isOld : gap.oldStart = rangeStart oldBefore block.old + block.old)
    (isNew : gap.newStart = rangeStart newBefore block.new + block.new) : block.TwoSided := by
  have isPair := paired.2 0 (Int.le_refl 0) isPositive
  have nonempty := block.nonempty
  rw [Int.add_zero, Int.add_zero, isOld, isNew, rangeStart_eq, rangeStart_eq] at isPair
  unfold Block.TwoSided
  rcases splits _ _ isPair with ⟨isBeforeOld, isBeforeNew⟩ | isLater
  · split_ifs at isBeforeOld isBeforeNew <;> omega
  · have isLower := lower_of_pairsFrom rest isLater
    split_ifs at isLower <;> omega

variable {slot : Nat}

theorem middle_start {next : DiffHunk} (splits : Splits pairs oldBefore newBefore (block :: rest))
    (isGap : middleGap slot (block.hunk oldBefore newBefore) next = some gap)
    (paired : Paired pairs gap) :
    block.TwoSided ∧ gap.displayStart = newBefore + block.new + 1 := by
  obtain ⟨rfl, isPositive⟩ := eq_of_slotOf isGap
  have twoSided := twoSided_of_paired splits isPositive paired rfl rfl
  refine ⟨twoSided, ?_⟩
  show (rangeStart newBefore block.new : Int) + block.new = _
  rw [rangeStart_eq, if_neg (by have := twoSided.2; omega)]
  omega

theorem trailing_start {count : Nat} (splits : Splits pairs oldBefore newBefore (block :: rest))
    (isGap : trailingGap slot count (block.hunk oldBefore newBefore) = some gap)
    (paired : Paired pairs gap) :
    block.TwoSided ∧ gap.displayStart = newBefore + block.new + 1 := by
  obtain ⟨rfl, isPositive⟩ := eq_of_slotOf isGap
  have twoSided := twoSided_of_paired splits isPositive paired rfl rfl
  refine ⟨twoSided, ?_⟩
  show (rangeStart newBefore block.new : Int) + block.new - 1 + 1 = _
  rw [rangeStart_eq, if_neg (by have := twoSided.2; omega)]
  omega

end

section
variable {pairs : Int → Int → Prop}

theorem later_start (rest : List Block) : ∀ {oldBefore newBefore slot count : Nat} {block : Block},
    Splits pairs oldBefore newBefore (block :: rest) → ∀ gap, some gap ∈
      laterGaps count slot (block.hunk oldBefore newBefore)
        (hunksFrom (oldBefore + block.old + block.after) (newBefore + block.new + block.after)
          rest) → Paired pairs gap → newBefore + block.new < gap.displayStart := by
  induction rest with
  | nil =>
    intro oldBefore newBefore slot count block splits gap isIn paired
    have isGap := (List.mem_singleton.mp isIn).symm
    have isStart := (trailing_start splits isGap paired).2
    omega
  | cons next rest ih =>
    intro oldBefore newBefore slot count block splits gap isIn paired
    unfold hunksFrom laterGaps at isIn
    rcases List.mem_cons.mp isIn with isMiddle | isLater
    · have isStart := (middle_start splits isMiddle.symm paired).2
      omega
    · have isStart := ih splits.next gap isLater paired
      push_cast at isStart
      omega

theorem hunks_start (rest : List Block) : ∀ (oldBefore newBefore : Nat) (line : Int),
    line ≤ newBefore → (hunksFrom oldBefore newBefore rest).countP (·.covers line) = 0 := by
  induction rest with
  | nil => exact fun _ _ _ _ => rfl
  | cons block rest ih =>
    intro oldBefore newBefore line isBefore
    have later := ih (oldBefore + block.old + block.after)
      (newBefore + block.new + block.after) line (by push_cast; omega)
    unfold hunksFrom
    rw [List.countP_cons_of_neg, later]
    rw [hunk_covers]
    omega

variable {line : Int}

theorem slots_start {slots : List (Option DiffContextGap)}
    (isBefore : ∀ gap, some gap ∈ slots → line < gap.displayStart) :
    slots.countP (fun slot => slot.any (·.covers line)) = 0 := by
  rw [List.countP_eq_zero]
  intro slot isIn covers
  cases slot with
  | none => cases covers
  | some gap =>
    have isLower := (of_decide_eq_true covers).1
    exact absurd (isBefore gap isIn) (not_lt.mpr isLower)

/-- The slot behind a block has unchanged lines only, and the last of them only when the next block
has lines of both versions. -/
theorem middle_within {oldBefore newBefore slot : Nat} {block next : Block} {rest : List Block}
    (splits : Splits pairs oldBefore newBefore (block :: rest))
    (paired : ∀ gap, middleGap slot (block.hunk oldBefore newBefore)
      (next.hunk (oldBefore + block.old + block.after) (newBefore + block.new + block.after)) =
        some gap → Paired pairs gap) (isCovered : (middleGap slot (block.hunk oldBefore newBefore)
      (next.hunk (oldBefore + block.old + block.after)
        (newBefore + block.new + block.after))).any (·.covers line) = true) :
    block.TwoSided ∧ line ≤ newBefore + block.new + block.after ∧
      (line = newBefore + block.new + block.after → next.TwoSided) := by
  cases isMiddle : middleGap slot (block.hunk oldBefore newBefore)
      (next.hunk (oldBefore + block.old + block.after) (newBefore + block.new + block.after)) with
  | none =>
    rw [isMiddle] at isCovered
    cases isCovered
  | some gap =>
    have twoSided := (middle_start splits isMiddle (paired gap isMiddle)).1
    simp only [middleGap] at isCovered
    rw [slotOf_covers] at isCovered
    have isUpper := of_decide_eq_true isCovered
    have bounds := sharedGapCount_le
      (rangeStart (oldBefore + block.old + block.after) next.old -
        (rangeStart oldBefore block.old + block.old))
      (rangeStart (newBefore + block.new + block.after) next.new -
        (rangeStart newBefore block.new + block.new))
    refine ⟨twoSided, ?_⟩
    simp only [Block.hunk] at isUpper
    unfold Block.TwoSided at twoSided ⊢
    simp only [rangeStart_eq] at isUpper bounds
    push_cast at isUpper bounds
    split_ifs at isUpper bounds <;> omega

theorem exact_of_shown (rest : List Block) : ∀ (oldBefore newBefore slot : Nat) (block : Block),
    Splits pairs oldBefore newBefore (block :: rest) →
    (∀ gap, some gap ∈ laterGaps (linesFrom newBefore (block :: rest)) slot
      (block.hunk oldBefore newBefore)
      (hunksFrom (oldBefore + block.old + block.after) (newBefore + block.new + block.after) rest) →
        Paired pairs gap) →
    (∀ line : Int, newBefore + block.new < line → line ≤ linesFrom newBefore (block :: rest) →
      0 < shown (laterGaps (linesFrom newBefore (block :: rest)) slot
        (block.hunk oldBefore newBefore)
        (hunksFrom (oldBefore + block.old + block.after) (newBefore + block.new + block.after)
          rest))
        (hunksFrom (oldBefore + block.old + block.after) (newBefore + block.new + block.after)
          rest) line) →
    ExactFrom block rest := by
  induction rest with
  | nil =>
    intro oldBefore newBefore slot block splits paired _
    have twoSided : ∀ gap, trailingGap slot (newBefore + block.new + block.after)
        (block.hunk oldBefore newBefore) = some gap → block.TwoSided := fun gap isGap =>
      (trailing_start splits isGap (paired gap (List.mem_singleton.mpr isGap.symm))).1
    unfold trailingGap slotOf Block.hunk at twoSided
    dsimp only at twoSided
    rw [rangeStart_eq] at twoSided
    unfold Block.TwoSided at twoSided
    push_cast at twoSided
    refine ⟨?_, fun hasAfter => ?_⟩
    · by_contra noNew
      rw [if_pos (by split_ifs <;> omega)] at twoSided
      exact noNew (twoSided _ rfl).2
    · rw [if_pos (by split_ifs <;> omega)] at twoSided
      exact (twoSided _ rfl).1
  | cons next rest ih =>
    intro oldBefore newBefore slot block splits paired isShown
    have within := le_linesFrom rest
      (newBefore + block.new + block.after + next.new + next.after)
    unfold hunksFrom laterGaps at paired isShown
    have latePaired := fun gap isIn => paired gap (List.mem_cons_of_mem _ isIn)
    have middlePaired := fun gap isGap =>
      paired gap (List.mem_cons.mpr (.inl (Eq.symm isGap)))
    have starts := fun gap isIn => later_start rest splits.next gap isIn (latePaired gap isIn)
    refine ⟨fun hasAfter => ?_, ?_⟩
    · -- the last unchanged line behind the block is a line of its own slot
      have isLast := isShown (newBefore + block.new + block.after : Nat) (by push_cast; omega)
        (by unfold linesFrom linesFrom; exact_mod_cast le_trans (by omega) within)
      rw [shown_cons, shown_cons_hunk] at isLast
      unfold shown at isLast
      rw [hunks_start _ _ _ _ (by push_cast; omega), slots_start (by
        intro gap isIn
        have isStart := starts gap isIn
        push_cast at isStart ⊢
        omega), if_neg (by rw [hunk_covers]; omega)] at isLast
      split_ifs at isLast with isCovered
      · obtain ⟨twoSided, _, nextTwoSided⟩ := middle_within splits middlePaired isCovered
        exact ⟨twoSided, nextTwoSided (by push_cast; omega)⟩
      · exact absurd isLast (lt_irrefl 0)
    · refine ih _ _ (slot + 1) next splits.next latePaired ?_
      intro line isAfter isIn
      have isLine := isShown line (by push_cast at isAfter; omega) isIn
      rw [shown_cons, shown_cons_hunk, if_neg (by rw [hunk_covers]; push_cast at isAfter ⊢; omega)]
        at isLine
      split_ifs at isLine with isCovered
      · have isWithin := (middle_within splits middlePaired isCovered).2.1
        push_cast at isAfter
        omega
      · exact isLine

end

/-! ## The claim -/

theorem layout_splits (layout : Layout) :
    Splits layout.Pairs layout.lead layout.lead layout.blocks := by
  rintro old new (⟨isAfter, isUpper, same⟩ | isLater)
  · left
    push_cast at isAfter isUpper same
    omega
  · exact .inr isLater

theorem slots_eq {rest : List Block}
    (isShown : status = .modified ∨ status = .renamed ∨ status = .conflicted)
    (isBlocks : layout.blocks = first :: rest) : buildContextGapSlots (layout.diff status) =
      leadingGap (first.hunk layout.lead layout.lead) ::
        laterGaps (linesFrom layout.lead (first :: rest)) 1 (first.hunk layout.lead layout.lead)
          (hunksFrom (layout.lead + first.old + first.after)
            (layout.lead + first.new + first.after) rest) := by
  unfold buildContextGapSlots Layout.diff
  rw [isBlocks, hunksFrom_cons]
  dsimp only
  rw [if_neg]
  rcases isShown with rfl | rfl | rfl <;> exact of_decide_eq_true rfl

theorem tiles_of_exact (isShown : status = .modified ∨ status = .renamed ∨ status = .conflicted)
    (exact : layout.Exact) :
    Tiles layout (layout.diff status) (buildContextGapSlots (layout.diff status)) := by
  cases isBlocks : layout.blocks with
  | nil =>
    unfold Layout.Exact at exact
    rw [isBlocks] at exact
    have noHunks : (layout.diff status).hunks = [] := by
      show hunksFrom _ _ layout.blocks = []
      rw [isBlocks]
      rfl
    have noLines : (layout.diff status).displayLineCount = 0 := by
      show linesFrom layout.lead layout.blocks = 0
      rw [isBlocks]
      exact exact
    have noSlots : buildContextGapSlots (layout.diff status) = [] := by
      unfold buildContextGapSlots
      rw [noHunks]
    rw [noSlots]
    refine ⟨fun line => ?_, fun line isLower isUpper => ?_, fun gap isIn => ?_, fun gap isIn => ?_⟩
    · rw [noHunks]
      exact Nat.zero_le 1
    · rw [noLines] at isUpper
      omega
    · cases isIn
    · cases isIn
  | cons first rest =>
    unfold Layout.Exact at exact
    rw [isBlocks] at exact
    obtain ⟨exactLead, exactLater⟩ := exact
    have isHunks : (layout.diff status).hunks = first.hunk layout.lead layout.lead ::
        hunksFrom (layout.lead + first.old + first.after) (layout.lead + first.new + first.after)
          rest := by
      show hunksFrom _ _ layout.blocks = _
      rw [isBlocks]
      rfl
    have isCount : (layout.diff status).displayLineCount =
        linesFrom layout.lead (first :: rest) := by
      show linesFrom layout.lead layout.blocks = _
      rw [isBlocks]
    have within := le_linesFrom rest (layout.lead + first.new + first.after)
    have isLine : ∀ line, shown (buildContextGapSlots (layout.diff status))
        (layout.diff status).hunks line =
          if 1 ≤ line ∧ line ≤ (layout.diff status).displayLineCount then 1 else 0 := by
      intro line
      have covers := leading_covers exactLead line
      have covered := hunk_covers first layout.lead layout.lead line
      have later := shown_later rest layout.lead layout.lead 1 first exactLater line
      rw [slots_eq isShown isBlocks, isHunks, isCount, shown_cons, shown_cons_hunk,
        if_congr covers rfl rfl, if_congr covered rfl rfl, later]
      unfold linesFrom
      split_ifs <;> omega
    have paired : ∀ gap, some gap ∈ buildContextGapSlots (layout.diff status) →
        1 ≤ gap.displayStart ∧ Paired layout.Pairs gap := by
      intro gap isIn
      rw [slots_eq isShown isBlocks] at isIn
      rcases List.mem_cons.mp isIn with isLeading | isLater
      · obtain ⟨starts, isStart, isPair⟩ := leading_paired isLeading.symm
        exact ⟨starts, isStart, fun offset isLower isUpper =>
          Or.inl (isPair offset isLower isUpper)⟩
      · obtain ⟨starts, isStart, isPair⟩ := later_paired rest _ _ _ _ exactLater gap isLater
        refine ⟨starts, isStart, fun offset isLower isUpper => .inr ?_⟩
        rw [isBlocks]
        exact isPair offset isLower isUpper
    refine ⟨fun line => ?_, fun line isLower isUpper => ?_, fun gap isIn => (paired gap isIn).1,
      fun gap isIn => (paired gap isIn).2⟩
    · rw [isLine]
      split_ifs <;> omega
    · rw [isLine, if_pos ⟨isLower, isUpper⟩]

theorem exact_of_tiles (isShown : status = .modified ∨ status = .renamed ∨ status = .conflicted)
    (tiles : Tiles layout (layout.diff status) (buildContextGapSlots (layout.diff status))) :
    layout.Exact := by
  have splits := layout_splits layout
  have once := tiles.once
  have isPaired := tiles.paired
  unfold Layout.diff at once
  unfold Layout.Exact
  cases isBlocks : layout.blocks with
  | nil =>
    have noSlots : buildContextGapSlots (layout.diff status) = [] := by
      unfold buildContextGapSlots Layout.diff
      rw [isBlocks]
      rfl
    unfold Layout.diff at noSlots
    rw [noSlots, isBlocks] at once
    by_contra hasLines
    have isOnce := once 1 (Int.le_refl 1) (by
      show (1 : Int) ≤ (layout.lead : Nat)
      omega)
    cases isOnce
  | cons first rest =>
    have isSlots := slots_eq isShown isBlocks
    unfold Layout.diff at isSlots
    rw [isSlots, isBlocks] at once
    rw [slots_eq isShown isBlocks] at isPaired
    rw [isBlocks] at splits
    have within := le_linesFrom rest (layout.lead + first.new + first.after)
    have latePaired : ∀ gap, some gap ∈ _ → Paired layout.Pairs gap :=
      fun gap isIn => isPaired gap (List.mem_cons_of_mem _ isIn)
    have starts := fun gap isIn => later_start rest splits gap isIn (latePaired gap isIn)
    rw [hunksFrom_cons] at once
    have bounds := sharedGapCount_le (rangeStart layout.lead first.old - 1)
      (rangeStart layout.lead first.new - 1)
    simp only [rangeStart_eq] at bounds
    refine ⟨fun hasLead => ?_, ?_⟩
    · have isLast := once layout.lead (by omega) (by
        unfold linesFrom
        omega)
      rw [shown_cons, shown_cons_hunk] at isLast
      unfold shown at isLast
      rw [hunks_start _ _ _ _ (by push_cast; omega), slots_start (by
        intro gap isIn
        have isStart := starts gap isIn
        omega), if_neg (by rw [hunk_covers]; omega)] at isLast
      split_ifs at isLast with isCovered
      · unfold leadingGap at isCovered
        rw [slotOf_covers] at isCovered
        have isUpper := of_decide_eq_true isCovered
        simp only [Block.hunk] at isUpper
        unfold Block.TwoSided
        simp only [rangeStart_eq] at isUpper
        split_ifs at isUpper bounds <;> omega
      · omega
    · refine exact_of_shown rest _ _ 1 first splits latePaired fun line isAfter isIn => ?_
      have isOnce := once line (by omega) isIn
      rw [shown_cons, shown_cons_hunk, if_neg (by rw [hunk_covers]; omega)] at isOnce
      have notLead : ¬(leadingGap (first.hunk layout.lead layout.lead)).any (·.covers line) = true
          := by
        intro isCovered
        unfold leadingGap at isCovered
        rw [slotOf_covers] at isCovered
        have isUpper := of_decide_eq_true isCovered
        simp only [Block.hunk] at isUpper
        simp only [rangeStart_eq] at isUpper
        split_ifs at isUpper bounds <;> omega
      rw [if_neg notLead] at isOnce
      omega

theorem contextGaps_tile_iff (layout : Layout) (status : FileDiffStatus)
    (isShown : status = .modified ∨ status = .renamed ∨ status = .conflicted) :
    Tiles layout (layout.diff status) (buildContextGapSlots (layout.diff status)) ↔
      layout.Exact :=
  ⟨exact_of_tiles isShown, tiles_of_exact isShown⟩

/-- Two changed lines with context around them, in a file of thirty lines. -/
def oneChange : Layout := ⟨10, [⟨8, 8, 12, .inl (by decide)⟩]⟩

theorem contextGaps_tile_oneChange :
    Tiles oneChange (oneChange.diff .modified) (buildContextGapSlots (oneChange.diff .modified)) := by
  refine (contextGaps_tile_iff oneChange .modified (Or.inl rfl)).mpr ⟨fun _ => ?_, ?_, fun _ => ?_⟩
  · exact ⟨by decide, by decide⟩
  · exact (by decide : 0 < 8)
  · exact (by decide : 0 < 8)

/-- Three lines, all of which are removed: the trailing gap is the line zero. -/
def emptied : Layout := ⟨0, [⟨3, 0, 0, .inl (by decide)⟩]⟩

theorem not_contextGaps_tile : ¬∀ (layout : Layout) (status : FileDiffStatus),
      status = .modified ∨ status = .renamed ∨ status = .conflicted →
        Tiles layout (layout.diff status) (buildContextGapSlots (layout.diff status)) := by
  intro allTile
  have tiles := allTile emptied .modified (Or.inl rfl)
  have starts := tiles.starts ⟨1, 1, 0, 4, 0⟩ (by decide)
  exact absurd starts (by decide)

end AiTools.GitDiff.ContextGaps
