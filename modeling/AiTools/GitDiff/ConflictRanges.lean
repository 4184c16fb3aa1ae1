import Mathlib

/-!
Contract: the ranges of lines that the diff of a conflicted file shows.
-/

namespace AiTools.GitDiff.ConflictRanges

open List (cons_ne_nil mem_cons mem_cons_of_mem mem_cons_self mem_reverse pairwise_cons)

abbrev Line := List Char

def conflictContextLines : Nat := 3

def startsConflict (line : Line) : Bool := (List.replicate 7 '<').isPrefixOf line

def endsConflict (line : Line) : Bool := (List.replicate 7 '>').isPrefixOf line

variable (lines : List Line)

def IsStart (index : Nat) : Prop := ∃ line, lines[index]? = some line ∧ startsConflict line = true

/-- The first closing line behind the index, or the end of the file. -/
def closing (index : Nat) : Nat := index + 1 + (lines.drop (index + 1)).findIdx endsConflict

/-- Where the block of a starting line ends, the closing line included. -/
def blockEnd (index : Nat) : Nat :=
  if closing lines index < lines.length then closing lines index + 1 else closing lines index

/-- Where the range of a block ends. -/
def contextEnd (index : Nat) : Nat :=
  min (blockEnd lines index + conflictContextLines) lines.length

/-- The newest range comes first. -/
def addRange (ranges : List (Nat × Nat)) (start finish : Nat) : List (Nat × Nat) :=
  match ranges with
  | (previousStart, previousEnd) :: rest =>
    if start ≤ previousEnd then (previousStart, max previousEnd finish) :: rest
    else (start, finish) :: ranges
  | [] => [(start, finish)]

section
variable {lines}
variable {index : Nat}

theorem closing_le (isWithin : index < lines.length) : closing lines index ≤ lines.length := by
  have isFound : (lines.drop (index + 1)).findIdx endsConflict ≤ (lines.drop (index + 1)).length :=
    List.findIdx_le_length
  rw [List.length_drop] at isFound
  unfold closing
  omega

theorem lt_closing (index : Nat) : index < closing lines index := by
  unfold closing
  omega

theorem blockEnd_le (isWithin : index < lines.length) : blockEnd lines index ≤ lines.length := by
  have isClosing := closing_le isWithin
  unfold blockEnd
  split_ifs <;> omega

theorem lt_blockEnd (index : Nat) : index < blockEnd lines index := by
  have isClosing : index < closing lines index := lt_closing index
  unfold blockEnd
  split_ifs <;> omega

theorem lt_contextEnd (isWithin : index < lines.length) :
    index < contextEnd lines index :=
  lt_min ((lt_blockEnd index).trans_le (Nat.le_add_right _ _)) isWithin

end

/-- The loop goes on behind what it has widened. -/
def rangesFrom (index : Nat) (ranges : List (Nat × Nat)) : List (Nat × Nat) :=
  if isWithin : index < lines.length then
    if startsConflict lines[index] then
      rangesFrom (contextEnd lines index)
        (addRange ranges (index - conflictContextLines) (contextEnd lines index))
    else rangesFrom (index + 1) ranges
  else ranges
termination_by lines.length - index
decreasing_by
  · have isLater := lt_contextEnd isWithin
    omega
  · omega

def conflictedContextRanges : List (Nat × Nat) :=
  match rangesFrom lines 0 [] with
  | [] => if lines = [] then [] else [(0, lines.length)]
  | ranges => ranges.reverse

def Covers (ranges : List (Nat × Nat)) (index : Nat) : Prop :=
  ∃ range ∈ ranges, range.1 ≤ index ∧ blockEnd lines index ≤ range.2

structure CoversConflicts (ranges : List (Nat × Nat)) : Prop where
  within : ∀ range ∈ ranges, range.1 < range.2 ∧ range.2 ≤ lines.length
  apart : ranges.Pairwise fun earlier later => earlier.2 < later.1
  covers : ∀ index, IsStart lines index → Covers lines ranges index

/-- The lines at which the scan arrives. -/
inductive Arrives : Nat → Prop where
  | first : Arrives 0
  | plain {index : Nat} (arrives : Arrives index) (isWithin : index < lines.length)
      (notStart : ¬IsStart lines index) : Arrives (index + 1)
  | block {index : Nat} (arrives : Arrives index) (isStart : IsStart lines index) :
      Arrives (contextEnd lines index)

/-- A block that begins in the context behind another one ends there as well, or is followed so
closely by a starting line that the ranges become one. -/
def Spaced : Prop :=
  ∀ index later, Arrives lines index → IsStart lines index → IsStart lines later →
    blockEnd lines index ≤ later → later < contextEnd lines index →
    blockEnd lines later ≤ contextEnd lines index ∨
      ∃ next, IsStart lines next ∧ contextEnd lines index ≤ next ∧
        next ≤ contextEnd lines index + conflictContextLines

section
variable {lines}
variable {index later inner finish : Nat} {line : Line}

theorem IsStart.lt (isStart : IsStart lines index) : index < lines.length := by
  obtain ⟨line, isLine, _⟩ := isStart
  exact (List.getElem?_eq_some_iff.mp isLine).1

theorem isStart_iff (isWithin : index < lines.length) :
    IsStart lines index ↔ startsConflict lines[index] = true := by
  unfold IsStart
  rw [List.getElem?_eq_getElem isWithin]
  constructor
  · rintro ⟨line, isLine, starts⟩
    rw [Option.some.inj isLine]
    exact starts
  · exact fun starts => ⟨_, rfl, starts⟩

theorem not_ends {other : Nat} (isAfter : index < other) (isBefore : other < closing lines index)
    (isLine : lines[other]? = some line) : endsConflict line = false := by
  unfold closing at isBefore
  have notFound : other - (index + 1) < (lines.drop (index + 1)).findIdx endsConflict := by omega
  have notEnds := List.not_of_lt_findIdx notFound
  rw [List.getElem_drop] at notEnds
  obtain ⟨isWithin, rfl⟩ := List.getElem?_eq_some_iff.mp isLine
  have same : index + 1 + (other - (index + 1)) = other := by omega
  simpa only [same] using notEnds

theorem ends_closing (isWithin : closing lines index < lines.length)
    (isLine : lines[closing lines index]? = some line) : endsConflict line = true := by
  have isFound : (lines.drop (index + 1)).findIdx endsConflict <
      (lines.drop (index + 1)).length := by
    rw [List.length_drop]
    unfold closing at isWithin
    omega
  have ends := List.findIdx_getElem (w := isFound)
  rw [List.getElem_drop] at ends
  obtain ⟨_, rfl⟩ := List.getElem?_eq_some_iff.mp isLine
  exact ends

theorem closing_le_of_ends {other : Nat} (isAfter : index < other)
    (isLine : lines[other]? = some line) (ends : endsConflict line = true) :
    closing lines index ≤ other := by
  by_contra isLater
  simp [not_ends isAfter (Nat.lt_of_not_le isLater) isLine] at ends

theorem closing_mono (isLater : index ≤ later) (isWithin : later < lines.length) :
    closing lines index ≤ closing lines later := by
  by_cases isClosed : closing lines later < lines.length
  · have isLine := List.getElem?_eq_getElem isClosed
    exact closing_le_of_ends (isLater.trans_lt (lt_closing later)) isLine
      (ends_closing isClosed isLine)
  · exact (closing_le (isLater.trans_lt isWithin)).trans (Nat.le_of_not_lt isClosed)

theorem blockEnd_eq (isWithin : index < lines.length) :
    blockEnd lines index = min (closing lines index + 1) lines.length := by
  have isClosing := closing_le isWithin
  unfold blockEnd
  split_ifs <;> omega

theorem blockEnd_mono (isLater : index ≤ later) (isWithin : later < lines.length) :
    blockEnd lines index ≤ blockEnd lines later := by
  have mono := closing_mono isLater isWithin
  rw [blockEnd_eq (isLater.trans_lt isWithin), blockEnd_eq isWithin]
  omega

theorem not_starts_of_ends (ends : endsConflict line = true) : startsConflict line = false := by
  by_contra starts
  obtain ⟨rest, isLine⟩ :=
    List.isPrefixOf_iff_prefix.mp (Bool.eq_true_of_not_eq_false starts)
  obtain ⟨other, sameLine⟩ := List.isPrefixOf_iff_prefix.mp ends
  have sameFirst := congrArg List.head? (isLine.trans sameLine.symm)
  exact absurd (Option.some.inj sameFirst) (by decide)

theorem blockEnd_inside (isInner : inner < blockEnd lines index) (isAfter : index < inner)
    (isStart : IsStart lines inner) :
    blockEnd lines inner ≤ blockEnd lines index := by
  have isWithin := isStart.lt
  have outerWithin := isAfter.trans isWithin
  rw [blockEnd_eq isWithin]
  rw [blockEnd_eq outerWithin] at isInner ⊢
  by_cases isClosed : closing lines index < lines.length
  · have isLine := List.getElem?_eq_getElem isClosed
    have ends := ends_closing isClosed isLine
    have notClosing : inner ≠ closing lines index := by
      rintro rfl
      simp [isStart_iff isWithin, not_starts_of_ends ends] at isStart
    have isBehind : inner < closing lines index := by omega
    have closes := closing_le_of_ends isBehind isLine ends
    omega
  · omega

variable (lines) in
/-- What the loop keeps of the ranges. -/
structure Ordered (index : Nat) (ranges : List (Nat × Nat)) : Prop where
  within : ∀ range ∈ ranges, range.1 < range.2 ∧ range.2 ≤ lines.length
  apart : ranges.Pairwise fun later earlier => earlier.2 < later.1
  behind : ∀ range ∈ ranges, range.2 ≤ index

theorem addRange_cases {ranges : List (Nat × Nat)} (behind : ∀ range ∈ ranges, range.2 ≤ index)
    (isLater : index < finish) (start : Nat) :
    (∃ previous rest, ranges = previous :: rest ∧ start ≤ previous.2 ∧
        addRange ranges start finish = (previous.1, finish) :: rest) ∨
      (∀ previous ∈ ranges.head?, previous.2 < start) ∧
        addRange ranges start finish = (start, finish) :: ranges := by
  cases ranges with
  | nil => exact .inr ⟨nofun, rfl⟩
  | cons previous rest =>
    unfold addRange
    dsimp only
    split_ifs with isJoined
    · refine .inl ⟨previous, rest, rfl, isJoined, ?_⟩
      have isBehind := behind previous mem_cons_self
      rw [max_eq_right (by omega)]
    · refine .inr ⟨fun other isHead => ?_, rfl⟩
      cases isHead
      exact Nat.lt_of_not_le isJoined

theorem Ordered.addRange {ranges : List (Nat × Nat)} (ordered : Ordered lines index ranges)
    (isWithin : index < lines.length) :
    Ordered lines (contextEnd lines index)
      (addRange ranges (index - conflictContextLines) (contextEnd lines index)) := by
  have isLater := lt_contextEnd isWithin
  have isEnd : contextEnd lines index ≤ lines.length := min_le_right _ _
  rcases addRange_cases ordered.behind isLater (index - conflictContextLines) with
    ⟨previous, rest, rfl, isJoined, added⟩ | ⟨isApart, added⟩
  · rw [added]
    have isBehind := ordered.behind previous mem_cons_self
    have isRange := ordered.within previous mem_cons_self
    obtain ⟨headApart, restApart⟩ := pairwise_cons.mp ordered.apart
    refine ⟨fun range isIn => ?_, pairwise_cons.mpr ⟨headApart, restApart⟩,
      fun range isIn => ?_⟩
    · rcases mem_cons.mp isIn with rfl | isRest
      · exact ⟨by dsimp only; omega, isEnd⟩
      · exact ordered.within range (mem_cons_of_mem _ isRest)
    · rcases mem_cons.mp isIn with rfl | isRest
      · exact le_rfl
      · exact (ordered.behind range (mem_cons_of_mem _ isRest)).trans isLater.le
  · rw [added]
    refine ⟨fun range isIn => ?_, pairwise_cons.mpr ⟨fun range isIn => ?_, ordered.apart⟩,
      fun range isIn => ?_⟩
    · rcases mem_cons.mp isIn with rfl | isOld
      · exact ⟨by dsimp only; omega, isEnd⟩
      · exact ordered.within range isOld
    · cases ranges with
      | nil => cases isIn
      | cons previous rest =>
        have headApart := isApart previous rfl
        rcases mem_cons.mp isIn with rfl | isRest
        · exact headApart
        · have isBelow := (pairwise_cons.mp ordered.apart).1 range isRest
          have isRange := (ordered.within previous mem_cons_self).1
          dsimp only
          omega
    · rcases mem_cons.mp isIn with rfl | isOld
      · exact le_rfl
      · exact (ordered.behind range isOld).trans isLater.le

theorem rangesFrom_ordered : ∀ (index : Nat) (ranges : List (Nat × Nat)),
    Ordered lines index ranges →
    ∃ finish, Ordered lines finish (rangesFrom lines index ranges) := by
  intro index ranges
  fun_induction rangesFrom lines index ranges with
  | case1 index ranges isWithin _ ih =>
    exact fun ordered => ih (ordered.addRange isWithin)
  | case2 index ranges isWithin _ ih =>
    exact fun ordered => ih ⟨ordered.within, ordered.apart,
      fun range isIn => (ordered.behind range isIn).trans (Nat.le_succ _)⟩
  | case3 index ranges _ => exact fun ordered => ⟨index, ordered⟩

/-! ## Coverage -/

theorem addRange_ne_nil (ranges : List (Nat × Nat)) (start finish : Nat) :
    addRange ranges start finish ≠ [] := by
  unfold addRange
  split
  · split_ifs
    · exact cons_ne_nil _ _
    · exact cons_ne_nil _ _
  · exact cons_ne_nil _ _

theorem rangesFrom_ne_nil (index : Nat) (ranges : List (Nat × Nat)) :
    ranges ≠ [] → rangesFrom lines index ranges ≠ [] := by
  fun_induction rangesFrom lines index ranges with
  | case1 index ranges _ _ ih =>
    exact fun _ => ih (addRange_ne_nil _ _ _)
  | case2 _ _ _ _ ih => exact ih
  | case3 _ _ _ => exact id

/-- What begins at a line or behind it, in the newest range, is covered when it ends there. -/
theorem covers_addRange {ranges : List (Nat × Nat)} (ordered : Ordered lines index ranges)
    (isLater : index < finish) (start : Nat) (covers : Covers lines ranges inner) :
    Covers lines (addRange ranges start finish) inner := by
  obtain ⟨range, isIn, isBelow, isAbove⟩ := covers
  rcases addRange_cases ordered.behind isLater start with
    ⟨previous, rest, rfl, _, added⟩ | ⟨_, added⟩
  · rw [added]
    rcases mem_cons.mp isIn with rfl | isRest
    · have isBehind := ordered.behind range mem_cons_self
      exact ⟨_, mem_cons_self, isBelow, isAbove.trans (isBehind.trans isLater.le)⟩
    · exact ⟨range, mem_cons_of_mem _ isRest, isBelow, isAbove⟩
  · rw [added]
    exact ⟨range, mem_cons_of_mem _ isIn, isBelow, isAbove⟩

/-- The newest range ends at the end that was added, and begins no later than where it was. -/
theorem addRange_newest {start : Nat} {ranges : List (Nat × Nat)}
    (ordered : Ordered lines index ranges) (isLater : index < finish) (isStart : start ≤ index) :
    ∃ newest rest, addRange ranges start finish = newest :: rest ∧
      newest.1 ≤ index ∧ newest.2 = finish := by
  rcases addRange_cases ordered.behind isLater start with
    ⟨previous, rest, rfl, _, added⟩ | ⟨_, added⟩
  · have isRange := (ordered.within previous mem_cons_self).1
    have isBehind := ordered.behind previous mem_cons_self
    exact ⟨_, _, added, by dsimp only; omega, rfl⟩
  · exact ⟨_, _, added, isStart, rfl⟩

variable (lines) in
/-- The newest range will be joined to the next one. -/
def Waiting (index : Nat) (ranges : List (Nat × Nat)) (inner : Nat) : Prop :=
  ∃ newest rest next, ranges = newest :: rest ∧ newest.1 ≤ inner ∧ IsStart lines next ∧
    index ≤ next ∧ next ≤ newest.2 + conflictContextLines

variable (lines) in
def CoversUpTo (index : Nat) (ranges : List (Nat × Nat)) : Prop :=
  ∀ inner, IsStart lines inner → inner < index →
    Covers lines ranges inner ∨ Waiting lines index ranges inner

theorem CoversUpTo.block {ranges : List (Nat × Nat)} (spaced : Spaced lines)
    (arrives : Arrives lines index) (isStart : IsStart lines index)
    (ordered : Ordered lines index ranges) (covers : CoversUpTo lines index ranges) :
    CoversUpTo lines (contextEnd lines index)
      (addRange ranges (index - conflictContextLines) (contextEnd lines index)) := by
  have isWithin := isStart.lt
  have isLater := lt_contextEnd isWithin
  have isBlock : blockEnd lines index ≤ contextEnd lines index :=
    le_min (Nat.le_add_right _ _) (blockEnd_le isWithin)
  obtain ⟨newest, rest, added, isBelow, isEnd⟩ :=
    addRange_newest ordered isLater (Nat.sub_le index conflictContextLines)
  have covered : ∀ inner, index ≤ inner → blockEnd lines inner ≤ contextEnd lines index →
      Covers lines (addRange ranges (index - conflictContextLines) (contextEnd lines index))
        inner := by
    intro inner isInner ends
    rw [added]
    exact ⟨newest, mem_cons_self, isBelow.trans isInner, by rw [isEnd]; exact ends⟩
  intro inner isInner isBefore
  rcases Nat.lt_or_ge inner index with isEarlier | isNotEarlier
  · left
    rcases covers inner isInner isEarlier with isCovered | isWaiting
    · exact covers_addRange ordered isLater _ isCovered
    · obtain ⟨previous, others, next, rfl, isPrevious, _, isNext, isClose⟩ := isWaiting
      -- The newest range is joined to this one, which ends behind the block.
      have mono := blockEnd_mono isEarlier.le isWithin
      have joined : addRange (previous :: others) (index - conflictContextLines)
          (contextEnd lines index) =
            (previous.1, max previous.2 (contextEnd lines index)) :: others := by
        unfold addRange
        exact if_pos (by omega)
      rw [joined]
      exact ⟨_, mem_cons_self, isPrevious, mono.trans (isBlock.trans (le_max_right _ _))⟩
  · rcases Nat.lt_or_ge inner (blockEnd lines index) with isInside | isBehind
    · left
      rcases Nat.eq_or_lt_of_le isNotEarlier with rfl | isAfter
      · exact covered index le_rfl isBlock
      · exact covered inner isNotEarlier ((blockEnd_inside isInside isAfter isInner).trans isBlock)
    · rcases spaced index inner arrives isStart isInner isBehind isBefore with
        ends | ⟨next, isNext, isAfter, isClose⟩
      · exact .inl (covered inner isNotEarlier ends)
      · right
        rw [added]
        refine ⟨newest, rest, next, rfl, isBelow.trans isNotEarlier, isNext, isAfter, ?_⟩
        rw [isEnd]
        exact isClose

theorem rangesFrom_covers (spaced : Spaced lines) (index : Nat) (ranges : List (Nat × Nat)) :
    Arrives lines index → Ordered lines index ranges →
    CoversUpTo lines index ranges →
    ∀ inner, IsStart lines inner → Covers lines (rangesFrom lines index ranges) inner := by
  fun_induction rangesFrom lines index ranges with
  | case1 index ranges isWithin starts ih =>
    intro arrives ordered covers
    have isStart := (isStart_iff isWithin).mpr starts
    exact ih (.block arrives isStart) (ordered.addRange isWithin)
      (covers.block spaced arrives isStart ordered)
  | case2 index ranges isWithin notStarts ih =>
    intro arrives ordered covers
    have notStart : ¬IsStart lines index := mt (isStart_iff isWithin).mp notStarts
    refine ih (.plain arrives isWithin notStart)
      ⟨ordered.within, ordered.apart, fun range isIn =>
        (ordered.behind range isIn).trans (Nat.le_succ _)⟩ fun inner isInner isBefore => ?_
    have notHere : inner ≠ index := by
      rintro rfl
      exact notStart isInner
    rcases covers inner isInner (by omega) with isCovered | isWaiting
    · exact .inl isCovered
    · obtain ⟨newest, rest, next, isRanges, isBelow, isNext, isAfter, isClose⟩ := isWaiting
      have notNext : next ≠ index := by
        rintro rfl
        exact notStart isNext
      exact .inr ⟨newest, rest, next, isRanges, isBelow, isNext, by omega, isClose⟩
  | case3 index ranges notWithin =>
    intro _ _ covers inner isInner
    have isWithin := isInner.lt
    rcases covers inner isInner (by omega) with isCovered | ⟨_, _, next, _, _, isNext, isAfter, _⟩
    · exact isCovered
    · have nextWithin := isNext.lt
      omega

theorem rangesFrom_stays {bound : Nat} (index : Nat) (ranges : List (Nat × Nat)) :
    (∀ range ∈ ranges, range.2 ≤ bound ∨ bound < range.1) →
    (∀ next, IsStart lines next → index ≤ next → bound + conflictContextLines < next) →
    ∀ range ∈ rangesFrom lines index ranges, range.2 ≤ bound ∨ bound < range.1 := by
  fun_induction rangesFrom lines index ranges with
  | case1 index ranges isWithin starts ih =>
    intro stay areFar
    have isStart := (isStart_iff isWithin).mpr starts
    have isFar := areFar index isStart le_rfl
    have isLater := lt_contextEnd isWithin
    refine ih (fun range isIn => ?_)
      fun next isNext isAfter => areFar next isNext (isLater.le.trans isAfter)
    unfold addRange at isIn
    split at isIn
    · rename_i previousStart previousEnd rest
      have previous := stay (previousStart, previousEnd) mem_cons_self
      dsimp only at previous
      split_ifs at isIn with isJoined
      · rcases mem_cons.mp isIn with rfl | isRest
        · dsimp only
          omega
        · exact stay range (mem_cons_of_mem _ isRest)
      · rcases mem_cons.mp isIn with rfl | isOld
        · dsimp only
          omega
        · exact stay range isOld
    · rw [List.mem_singleton.mp isIn]
      dsimp only
      omega
  | case2 index ranges isWithin notStarts ih =>
    exact fun stay areFar => ih stay fun next isNext isAfter =>
      areFar next isNext ((Nat.le_succ _).trans isAfter)
  | case3 _ _ _ => exact fun stay _ => stay

theorem Arrives.ranges (arrives : Arrives lines index) : ∃ ranges, Ordered lines index ranges ∧
      rangesFrom lines 0 [] = rangesFrom lines index ranges := by
  induction arrives with
  | first =>
    exact ⟨[], ⟨nofun, List.Pairwise.nil, nofun⟩, rfl⟩
  | @plain index _ isWithin notStart ih =>
    obtain ⟨ranges, ordered, same⟩ := ih
    refine ⟨ranges, ⟨ordered.within, ordered.apart, fun range isIn =>
      (ordered.behind range isIn).trans (Nat.le_succ _)⟩, same.trans ?_⟩
    rw [rangesFrom, dif_pos isWithin, if_neg (mt (isStart_iff isWithin).mpr notStart)]
  | @block index _ isStart ih =>
    obtain ⟨ranges, ordered, same⟩ := ih
    have isWithin := isStart.lt
    refine ⟨_, ordered.addRange isWithin, same.trans ?_⟩
    rw [rangesFrom, dif_pos isWithin, if_pos ((isStart_iff isWithin).mp isStart)]

theorem rangesFrom_nil_ordered : ∃ finish, Ordered lines finish (rangesFrom lines 0 []) := by
  obtain ⟨ranges, ordered, same⟩ := (Arrives.first : Arrives lines 0).ranges
  rw [same]
  exact rangesFrom_ordered 0 ranges ordered

theorem CoversConflicts.of_ranges
    (covers : ∀ index, IsStart lines index → Covers lines (rangesFrom lines 0 []) index) :
    CoversConflicts lines (conflictedContextRanges lines) := by
  obtain ⟨_, ordered⟩ : ∃ finish, Ordered lines finish (rangesFrom lines 0 []) :=
    rangesFrom_nil_ordered
  unfold conflictedContextRanges
  cases found : rangesFrom lines 0 [] with
  | nil =>
    rw [found] at covers
    have noStart : ∀ index, ¬IsStart lines index := by
      intro index isStart
      obtain ⟨_, isIn, _⟩ := covers index isStart
      cases isIn
    dsimp only
    split_ifs with isEmpty
    · exact ⟨nofun, List.Pairwise.nil,
        fun index isStart => absurd isStart (noStart index)⟩
    · refine ⟨fun range isIn => ?_, List.pairwise_singleton _ _,
        fun index isStart => absurd isStart (noStart index)⟩
      rw [List.mem_singleton.mp isIn]
      exact ⟨List.length_pos_iff.mpr isEmpty, le_rfl⟩
  | cons newest rest =>
    rw [found] at covers ordered
    refine ⟨fun range isIn => ordered.within range (mem_reverse.mp isIn),
      List.pairwise_reverse.mpr ordered.apart, fun index isStart => ?_⟩
    obtain ⟨range, isIn, isRange⟩ := covers index isStart
    exact ⟨range, mem_reverse.mpr isIn, isRange⟩

/-- A block that begins in the context behind another, ends behind it and is not followed closely
is in no range. -/
theorem not_covers (arrives : Arrives lines index)
    (isStart : IsStart lines index) (isBefore : later < contextEnd lines index)
    (isLong : contextEnd lines index < blockEnd lines later)
    (areFar : ∀ next, IsStart lines next → contextEnd lines index ≤ next →
      contextEnd lines index + conflictContextLines < next) :
    ¬Covers lines (conflictedContextRanges lines) later := by
  have isWithin := isStart.lt
  obtain ⟨before, ordered, same⟩ := arrives.ranges
  have next : rangesFrom lines 0 [] = rangesFrom lines (contextEnd lines index)
      (addRange before (index - conflictContextLines) (contextEnd lines index)) := by
    rw [same, rangesFrom, dif_pos isWithin, if_pos ((isStart_iff isWithin).mp isStart)]
  have notNil : rangesFrom lines 0 [] ≠ [] := by
    rw [next]
    exact rangesFrom_ne_nil _ _ (addRange_ne_nil _ _ _)
  have stays : ∀ range ∈ rangesFrom lines 0 [],
      range.2 ≤ contextEnd lines index ∨ contextEnd lines index < range.1 := by
    rw [next]
    exact rangesFrom_stays _ _
      (fun range isIn => .inl ((ordered.addRange isWithin).behind range isIn)) areFar
  rintro ⟨range, isIn, isBelow, isAbove⟩
  have isRange : range ∈ rangesFrom lines 0 [] := by
    unfold conflictedContextRanges at isIn
    split at isIn
    · contradiction
    · exact mem_reverse.mp isIn
  rcases stays range isRange with isEarlier | isLater
  · omega
  · omega

end

theorem conflictRanges_cover_iff (lines : List Line) :
    CoversConflicts lines (conflictedContextRanges lines) ↔ Spaced lines := by
  constructor
  · intro covers index later arrives isStart isLater _ isBefore
    by_contra notSpaced
    push Not at notSpaced
    obtain ⟨isLong, areFar⟩ := notSpaced
    exact not_covers arrives isStart isBefore isLong areFar (covers.covers later isLater)
  · intro spaced
    refine CoversConflicts.of_ranges (rangesFrom_covers spaced 0 [] .first
      ⟨(fun _ isIn => nomatch isIn), List.Pairwise.nil, (fun _ isIn => nomatch isIn)⟩ ?_)
    intro _ _ isBefore
    exact absurd isBefore (Nat.not_lt_zero _)

/-- The second block begins in the context behind the first one. -/
def closeBlocks : List Line :=
  ["<<<<<<<".toList, ">>>>>>>".toList, "<<<<<<<".toList, "a".toList, "b".toList, "c".toList,
    ">>>>>>>".toList]

theorem not_conflictRanges_cover :
    ¬CoversConflicts closeBlocks (conflictedContextRanges closeBlocks) := by
  intro covers
  have isFirst : IsStart closeBlocks 0 := ⟨_, rfl, by decide⟩
  have isSecond : IsStart closeBlocks 2 := ⟨_, rfl, by decide⟩
  have isEnd : contextEnd closeBlocks 0 = 5 := by decide
  have isLong : contextEnd closeBlocks 0 < blockEnd closeBlocks 2 := by
    rw [isEnd]
    decide
  refine not_covers .first isFirst (by rw [isEnd]; decide) isLong (fun next isNext isAfter => ?_)
    (covers.covers 2 isSecond)
  rw [isEnd] at isAfter
  have isWithin := isNext.lt
  obtain ⟨line, isLine, starts⟩ := isNext
  change next < 7 at isWithin
  obtain rfl | rfl : next = 5 ∨ next = 6 := by omega
  · cases isLine
    exact absurd starts (by decide)
  · cases isLine
    exact absurd starts (by decide)

end AiTools.GitDiff.ConflictRanges
