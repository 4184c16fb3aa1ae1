import AiTools.Daemon.ModeState.Sequences
import AiTools.Daemon.ModeState.FoldSafe
import Mathlib

/-!
Contract: the modes that a tracker can reach.
-/

namespace AiTools.Daemon.ModeState

open AiTools.Lib.Transition (Run)

/-- A number may have a leading plus. -/
def unsigned (text : Bytes) : Bytes :=
  match text with
  | 0x2b :: rest => rest
  | _ => text

def isNumber (text : Bytes) : Bool :=
  unsigned text ≠ [] && (unsigned text).all fun byte => 0x30 ≤ byte && byte ≤ 0x39

/-- The number that a parameter spells. -/
def number (text : Bytes) : Option Nat :=
  if isNumber text then
    some ((unsigned text).foldl (fun value byte => 10 * value + (byte - 0x30).toNat) 0)
  else none

/-- The numbers of a sequence, in order. -/
def carried (params : Bytes) : List Nat := (params.splitOn semicolon).filterMap number

def narrow (value : Nat) : Option UInt32 :=
  if value < 2 ^ 32 then some (UInt32.ofNat value) else none

theorem parseU32_eq (text : Bytes) : parseU32 text = (number text).bind narrow := by
  have same : parseU32 text =
      if unsigned text ≠ [] ∧ (unsigned text).all fun byte => 0x30 ≤ byte && byte ≤ 0x39 then
        narrow ((unsigned text).foldl (fun value byte => 10 * value + (byte - 0x30).toNat) 0)
      else none := rfl
  rw [same, number, isNumber]
  simp only [Bool.and_eq_true, decide_eq_true_eq]
  split_ifs <;> rfl

theorem filterMap_narrow (values : List Nat) : values.filterMap narrow =
    (values.filter fun value => decide (value < 2 ^ 32)).map UInt32.ofNat := by
  induction values with
  | nil => rfl
  | cons value rest ih =>
    by_cases isSmall : value < 2 ^ 32
    · have isNarrow : narrow value = some (UInt32.ofNat value) := if_pos isSmall
      rw [List.filterMap_cons_some isNarrow, List.filter_cons_of_pos (by simpa using isSmall),
        List.map_cons, ih]
    · have notNarrow : narrow value = none := if_neg isSmall
      rw [List.filterMap_cons_none notNarrow, List.filter_cons_of_neg (by simpa using isSmall), ih]

theorem splitParams_eq (params : Bytes) : splitParams params =
    ((carried params).filter fun value => decide (value < 2 ^ 32)).map UInt32.ofNat := by
  rw [← filterMap_narrow, carried, List.filterMap_filterMap]
  unfold splitParams
  exact congrArg (List.filterMap · _) (funext parseU32_eq)

/-- What `CSI Pt ; Pb r` sets. -/
def regionOf (params : Bytes) : Option (UInt16 × UInt16) :=
  match splitParams params with
  | top :: bottom :: _ =>
    if 1 ≤ top ∧ top < bottom then some (top.toUInt16, bottom.toUInt16) else none
  | _ => none

/-- The region is one, and has the first two numbers of the sequence. -/
def RegionOf (params : Bytes) (region : UInt16 × UInt16) : Prop :=
  1 ≤ region.1 ∧ region.1 < region.2 ∧ (carried params).take 2 = [region.1.toNat, region.2.toNat]

/-- Where the first two numbers below 2^32 are a region, the bottom is below 2^16, and no other
number stands before it. -/
def RegionFits (params : Bytes) : Prop :=
  ∀ top bottom rest, ((carried params).filter fun value => decide (value < 2 ^ 32)) =
      top :: bottom :: rest → 1 ≤ top → top < bottom →
    bottom < 2 ^ 16 ∧ (carried params).take 2 = [top, bottom]

theorem toUInt16_toNat {value : Nat} (isSmall : value < 2 ^ 32) :
    (UInt32.ofNat value).toUInt16.toNat = value % 2 ^ 16 := by
  rw [UInt32.toNat_toUInt16, UInt32.toNat_ofNat_of_lt' isSmall]

theorem regionOf_iff (params : Bytes) :
    (∀ region, regionOf params = some region → RegionOf params region) ↔ RegionFits params := by
  have small : ∀ {values : List Nat},
      ((carried params).filter fun value => decide (value < 2 ^ 32)) = values →
      ∀ value ∈ values, value < 2 ^ 32 := by
    rintro _ rfl value isIn
    exact of_decide_eq_true (List.mem_filter.mp isIn).2
  constructor
  · intro right top bottom rest numbers isTop isRegion
    have topSmall := small numbers top List.mem_cons_self
    have bottomSmall := small numbers bottom (List.mem_cons_of_mem _ List.mem_cons_self)
    have isSet : regionOf params =
        some ((UInt32.ofNat top).toUInt16, (UInt32.ofNat bottom).toUInt16) := by
      unfold regionOf
      rw [splitParams_eq, numbers]
      refine if_pos ⟨?_, ?_⟩
      · rw [UInt32.le_iff_toNat_le, UInt32.toNat_ofNat_of_lt' topSmall]
        exact isTop
      · rw [UInt32.lt_iff_toNat_lt, UInt32.toNat_ofNat_of_lt' topSmall,
          UInt32.toNat_ofNat_of_lt' bottomSmall]
        exact isRegion
    obtain ⟨_, _, firstTwo⟩ := right _ isSet
    dsimp only at firstTwo
    rw [toUInt16_toNat topSmall, toUInt16_toNat bottomSmall] at firstTwo
    have topLow : top % 2 ^ 16 < 2 ^ 32 := (Nat.mod_le _ _).trans_lt topSmall
    have bottomLow : bottom % 2 ^ 16 < 2 ^ 32 := (Nat.mod_le _ _).trans_lt bottomSmall
    -- Both numbers are kept by the filter, so they are the ones it begins with.
    have same : [top % 2 ^ 16, bottom % 2 ^ 16] ++
        (((carried params).drop 2).filter fun value => decide (value < 2 ^ 32)) =
          top :: bottom :: rest := by
      rw [← numbers]
      conv_rhs => rw [← List.take_append_drop 2 (carried params), firstTwo, List.filter_append]
      congr 1
      rw [List.filter_cons_of_pos (by simpa using topLow),
        List.filter_cons_of_pos (by simpa using bottomLow), List.filter_nil]
    injection same with sameTop sameRest
    injection sameRest with sameBottom _
    refine ⟨?_, ?_⟩
    · rw [← sameBottom]
      exact Nat.mod_lt _ (by norm_num)
    · rw [firstTwo, sameTop, sameBottom]
  · intro fits region isSet
    unfold regionOf at isSet
    rw [splitParams_eq] at isSet
    cases numbers : (carried params).filter fun value => decide (value < 2 ^ 32) with
    | nil =>
      rw [numbers] at isSet
      cases isSet
    | cons top later =>
      cases later with
      | nil =>
        rw [numbers] at isSet
        cases isSet
      | cons bottom rest =>
        have topSmall := small numbers top List.mem_cons_self
        have bottomSmall := small numbers bottom (List.mem_cons_of_mem _ List.mem_cons_self)
        rw [numbers] at isSet
        simp only [List.map_cons] at isSet
        split_ifs at isSet with isRegion
        rw [UInt32.le_iff_toNat_le, UInt32.lt_iff_toNat_lt,
          UInt32.toNat_ofNat_of_lt' topSmall, UInt32.toNat_ofNat_of_lt' bottomSmall] at isRegion
        obtain ⟨isTop, isBelow⟩ := isRegion
        obtain ⟨isLow, firstTwo⟩ := fits top bottom rest numbers isTop isBelow
        cases isSet
        have topNat : (UInt32.ofNat top).toUInt16.toNat = top := by
          rw [toUInt16_toNat topSmall, Nat.mod_eq_of_lt (isBelow.trans isLow)]
        have bottomNat : (UInt32.ofNat bottom).toUInt16.toNat = bottom := by
          rw [toUInt16_toNat bottomSmall, Nat.mod_eq_of_lt isLow]
        refine ⟨?_, ?_, ?_⟩
        · rw [UInt16.le_iff_toNat_le, topNat]
          exact isTop
        · rw [UInt16.lt_iff_toNat_lt, topNat, bottomNat]
          exact isBelow
        · rw [topNat, bottomNat]
          exact firstTwo

theorem setPrivateMode_modes (enabled : Bool) (chunkStart : Nat)
    (sofar : State × List (Nat × Split)) (param : UInt32) :
    (setPrivateMode enabled chunkStart sofar param).1.kittyStack = sofar.1.kittyStack ∧
      ((setPrivateMode enabled chunkStart sofar param).1.scrollRegion = sofar.1.scrollRegion ∨
        (setPrivateMode enabled chunkStart sofar param).1.scrollRegion = none) := by
  unfold setPrivateMode
  dsimp only
  split_ifs
  · exact ⟨rfl, .inl rfl⟩
  · exact ⟨rfl, .inl rfl⟩
  · exact ⟨rfl, .inr rfl⟩
  · exact ⟨rfl, .inr rfl⟩
  · exact ⟨rfl, .inl rfl⟩

theorem privateModes_modes (enabled : Bool) (chunkStart : Nat) (params : List UInt32) :
    ∀ sofar : State × List (Nat × Split),
      (params.foldl (setPrivateMode enabled chunkStart) sofar).1.kittyStack = sofar.1.kittyStack ∧
        ((params.foldl (setPrivateMode enabled chunkStart) sofar).1.scrollRegion =
            sofar.1.scrollRegion ∨
          (params.foldl (setPrivateMode enabled chunkStart) sofar).1.scrollRegion = none) := by
  induction params with
  | nil => exact fun _ => ⟨rfl, .inl rfl⟩
  | cons param later ih =>
    intro sofar
    obtain ⟨firstStack, firstRegion⟩ := setPrivateMode_modes enabled chunkStart sofar param
    obtain ⟨sameStack, region⟩ := ih
      (setPrivateMode enabled chunkStart sofar param)
    rw [List.foldl_cons]
    refine ⟨sameStack.trans firstStack, ?_⟩
    rcases region with same | noRegion
    · rw [same]
      exact firstRegion
    · exact .inr noRegion

theorem applyCsi_region (self : State) (params : Bytes) (chunkStart chunkEnd : Nat) :
    (applyCsi self none params 0x72 chunkStart chunkEnd).1.scrollRegion = regionOf params := rfl

section
variable {self : State} {marker : Option UInt8} {params : Bytes} {finalByte : UInt8}
  {chunkStart chunkEnd : Nat}

theorem applyCsi_kittyStack (isBounded : self.kittyStack.length ≤ kittyStackCap) :
    (applyCsi self marker params finalByte chunkStart chunkEnd).1.kittyStack.length ≤
      kittyStackCap := by
  have replaced : ∀ next : UInt32, (self.kittyStack.dropLast ++ [next]).length ≤ kittyStackCap := by
    intro next
    rw [List.length_append, List.length_dropLast, List.length_singleton]
    unfold kittyStackCap at isBounded ⊢
    omega
  unfold applyCsi
  dsimp only
  split_ifs with isPrivate isPush isRoom
  · rw [(privateModes_modes _ _ _ _).1]
    exact isBounded
  · rw [List.length_append]
    exact isRoom
  · exact isBounded
  · exact (List.length_take_le' _ _).trans isBounded
  all_goals first
    | exact isBounded
    | exact replaced _

theorem applyCsi_otherRegion (isOther : ¬(marker = none ∧ finalByte = 0x72)) :
    (applyCsi self marker params finalByte chunkStart chunkEnd).1.scrollRegion = self.scrollRegion ∨
      (applyCsi self marker params finalByte chunkStart chunkEnd).1.scrollRegion = none := by
  unfold applyCsi
  dsimp only
  split_ifs
  · exact (privateModes_modes _ _ _ _).2
  all_goals exact .inl rfl

end

/-! ## One byte -/

/-- The parameters of the sequence `CSI Pt ; Pb r` that the byte completes. -/
def Walk.regionParams (walk : Walk) (code : UInt8) : Option Bytes :=
  if walk.state = .csi ∧ code = 0x72 ∧ (csiMarker walk.body).1 = none then
    some (csiMarker walk.body).2
  else none

/-- The parameters of these sequences over some bytes, in order. -/
def regionSequences (offset : Nat → Nat) : Walk → Bytes → List Bytes
  | _, [] => []
  | walk, code :: rest =>
    (walk.regionParams code).toList ++ regionSequences offset (walk.step offset code) rest

/-- The recorded region has the numbers of the last sequence that set one. -/
def RegionKept (region : Option (UInt16 × UInt16)) (sequences : List Bytes) : Prop :=
  ∀ recorded, region = some recorded →
    ∃ params, sequences.getLast? = some params ∧ RegionOf params recorded

theorem regionKept_none (sequences : List Bytes) : RegionKept none sequences := by
  rintro recorded ⟨⟩

structure Bounded (walk : Walk) : Prop where
  sound : walk.Sound
  opened : walk.Opened
  kittyStack : walk.self.kittyStack.length ≤ kittyStackCap

variable {walk : Walk}

theorem step_bounded (bounded : Bounded walk) (offset : Nat → Nat) (code : UInt8) :
    Bounded (walk.step offset code) := by
  obtain ⟨added, moves⟩ := step_moves bounded.sound offset code
  refine ⟨step_sound bounded.sound offset code,
    step_opened bounded.sound bounded.opened offset code, ?_⟩
  have effect := moves.effect
  generalize (walk.step offset code).self = next at effect ⊢
  cases effect with
  | none same | capture same =>
    rw [same.kittyStack]
    exact bounded.kittyStack
  | reset noStack _ =>
    rw [noStack]
    exact Nat.zero_le _
  | csi _ => exact applyCsi_kittyStack bounded.kittyStack

theorem step_region (sound : walk.Sound) (offset : Nat → Nat) (code : UInt8)
    {sequences : List Bytes} (kept : RegionKept walk.self.scrollRegion sequences)
    (fits : ∀ params ∈ (walk.regionParams code).toList, RegionFits params) :
    RegionKept (walk.step offset code).self.scrollRegion
      (sequences ++ (walk.regionParams code).toList) := by
  by_cases isRegion : walk.state = .csi ∧ code = 0x72 ∧ (csiMarker walk.body).1 = none
  · have isParams : walk.regionParams code = some (csiMarker walk.body).2 := if_pos isRegion
    obtain ⟨isCsi, rfl, noMarker⟩ := isRegion
    have isSet : (walk.step offset 0x72).self.scrollRegion = regionOf (csiMarker walk.body).2 := by
      unfold Walk.step Walk.onCode
      simp only [isCsi, noMarker, reduceCtorEq, if_false]
      exact applyCsi_region _ _ (offset walk.seqStart) (offset (walk.seen.length + 1))
    rw [isParams] at fits ⊢
    rw [isSet]
    intro recorded isRecorded
    refine ⟨_, List.getLast?_concat, ?_⟩
    exact (regionOf_iff _).mpr (fits _ (List.mem_singleton_self _)) recorded isRecorded
  · have noParams : walk.regionParams code = none := if_neg isRegion
    rw [noParams, Option.toList_none, List.append_nil]
    obtain ⟨added, moves⟩ := step_moves sound offset code
    have effect := moves.effect
    generalize (walk.step offset code).self = next at effect ⊢
    cases effect with
    | none same | capture same =>
      rw [same.scrollRegion]
      exact kept
    | reset _ noRegion =>
      rw [noRegion]
      exact regionKept_none _
    | csi isCsi =>
      have isOther : ¬((csiMarker walk.body).1 = none ∧ code = 0x72) := fun isDecstbm =>
        isRegion ⟨isCsi, isDecstbm.2, isDecstbm.1⟩
      rcases applyCsi_otherRegion isOther with same | noRegion
      · rw [same]
        exact kept
      · rw [noRegion]
        exact regionKept_none _

theorem foldl_bounded (offset : Nat → Nat) (bytes : Bytes) : ∀ {walk : Walk}, Bounded walk →
    Bounded (bytes.foldl (Walk.step offset) walk) := by
  induction bytes with
  | nil => exact id
  | cons code later ih =>
    exact fun bounded => ih (step_bounded bounded offset code)

theorem foldl_region (offset : Nat → Nat) (bytes : Bytes) :
    ∀ {walk : Walk} {sequences : List Bytes}, walk.Sound →
      RegionKept walk.self.scrollRegion sequences →
      (∀ params ∈ regionSequences offset walk bytes, RegionFits params) →
      RegionKept (bytes.foldl (Walk.step offset) walk).self.scrollRegion
        (sequences ++ regionSequences offset walk bytes) := by
  induction bytes with
  | nil =>
    intro walk sequences _ kept _
    rw [regionSequences, List.append_nil]
    exact kept
  | cons code later ih =>
    intro walk sequences sound kept fits
    rw [regionSequences] at fits ⊢
    rw [← List.append_assoc]
    have first := step_region sound offset code kept
      fun params isIn => fits params (List.mem_append_left _ isIn)
    exact ih (step_sound sound offset code) first
      fun params isIn => fits params (List.mem_append_right _ isIn)

/-- The sequences that set the scroll region and end in the chunk. -/
def State.regionSequences (self : State) (chunk : Bytes) : List Bytes :=
  ModeState.regionSequences (ChunkMap.mk self.scanTail.length chunk.length).offset
    (Walk.fresh { self with scanTail := [] }) (self.scanTail ++ chunk)

/-- A tracker with the sequences that have set its scroll region so far. -/
structure Tracked where
  self : State
  sequences : List Bytes

def track (tracked : Tracked) : Call → Option Tracked
  | .scan chunk =>
    some ⟨(tracked.self.scan chunk).1, tracked.sequences ++ tracked.self.regionSequences chunk⟩
  | .takeBells => some { tracked with self := tracked.self.takeBells.2 }

def Tracked.new : Tracked := ⟨State.new, []⟩

def RegionsFit (tracked : Tracked) : Call → Prop
  | .scan chunk => ∀ params ∈ tracked.self.regionSequences chunk, RegionFits params
  | .takeBells => True

structure WellFormed (tracked : Tracked) : Prop where
  scrollRegion : RegionKept tracked.self.scrollRegion tracked.sequences
  kittyStack : tracked.self.kittyStack.length ≤ kittyStackCap
  tailShort : tracked.self.scanTail.length ≤ maxPartialEscapeTail
  tailOpens : tracked.self.scanTail = [] ∨ ∃ rest, tracked.self.scanTail = escByte :: rest

theorem park_opens (opened : walk.Opened) :
    park walk.pending = [] ∨ ∃ rest, park walk.pending = escByte :: rest := by
  unfold park
  split_ifs
  · exact .inl rfl
  · by_cases ground : walk.state = .ground
    · exact .inl (Walk.pending_of_ground ground)
    · rw [Walk.pending_of_sequence ground]
      exact .inr (opened.starts ground)

theorem park_short (pending : Bytes) : (park pending).length ≤ maxPartialEscapeTail := by
  unfold park
  split_ifs with isLong
  · exact Nat.zero_le _
  · exact Nat.le_of_not_lt isLong

theorem modes_wellFormed {tracked : Tracked} (run : Run track RegionsFit Tracked.new tracked) :
    WellFormed tracked := by
  apply run.invariant
  · exact ⟨regionKept_none _, Nat.zero_le _, Nat.zero_le _, .inl rfl⟩
  · intro before label next wellFormed fits tracks
    cases label with
    | scan chunk =>
      rw [track, Option.some.injEq] at tracks
      subst tracks
      have isRun := scanned_eq_run before.self chunk
      have isBounded : Bounded (before.self.scanned chunk) := by
        rw [isRun]
        exact foldl_bounded _ _ ⟨fresh_sound _, ground_opened rfl, wellFormed.kittyStack⟩
      refine ⟨?_, ?_, ?_, ?_⟩
      · show RegionKept (before.self.scan chunk).1.scrollRegion _
        rw [scan_eq, isRun]
        exact foldl_region _ _ (fresh_sound _) wellFormed.scrollRegion fits
      · show (before.self.scan chunk).1.kittyStack.length ≤ _
        rw [scan_eq]
        exact isBounded.kittyStack
      · show (before.self.scan chunk).1.scanTail.length ≤ _
        rw [scan_eq]
        exact park_short _
      · show (before.self.scan chunk).1.scanTail = [] ∨ _
        rw [scan_eq]
        exact park_opens isBounded.opened
    | takeBells =>
      rw [track, Option.some.injEq] at tracks
      subst tracks
      exact ⟨wellFormed.scrollRegion, wellFormed.kittyStack, wellFormed.tailShort,
        wellFormed.tailOpens⟩

/-- `CSI 2 ; 9 r` -/
def smallRegion : Bytes := [0x1b, 0x5b, 0x32, 0x3b, 0x39, 0x72]

theorem modes_wellFormed_smallRegion :
    WellFormed ⟨(State.new.scan smallRegion).1, [[0x32, 0x3b, 0x39]]⟩ := by
  have sequences : State.new.regionSequences smallRegion = [[0x32, 0x3b, 0x39]] := by decide
  refine modes_wellFormed (.tail (.scan smallRegion) .refl ?_ ?_)
  · intro params isIn top bottom rest numbers _ _
    rw [show Tracked.new.self = State.new from rfl, sequences] at isIn
    rw [List.mem_singleton.mp isIn] at numbers ⊢
    have isCarried : carried [0x32, 0x3b, 0x39] = [2, 9] := by decide
    rw [isCarried] at numbers ⊢
    cases numbers
    exact ⟨by norm_num, rfl⟩
  · show some (Tracked.mk _ (State.new.regionSequences smallRegion)) = _
    rw [sequences]
    rfl

/-- `CSI 1 ; 65537 r` -/
def wideRegion : Bytes := [0x1b, 0x5b, 0x31, 0x3b, 0x36, 0x35, 0x35, 0x33, 0x37, 0x72]

/-- The bottom is cut to sixteen bits, and is 1. -/
theorem not_modes_wellFormed :
    ¬∀ tracked, Run track (fun _ _ => True) Tracked.new tracked → WellFormed tracked := by
  intro allWellFormed
  have wellFormed := allWellFormed _ (.tail (.scan wideRegion) .refl trivial rfl)
  have isRecorded : (State.new.scan wideRegion).1.scrollRegion = some (1, 1) := by decide
  obtain ⟨_, _, isRegion⟩ := wellFormed.scrollRegion _ isRecorded
  exact absurd isRegion.2.1 (by decide)

end AiTools.Daemon.ModeState
