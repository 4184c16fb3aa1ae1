import AiTools.Terminal.PasteFrames

/-!
Contract: when a paste is split without loss, and leaves paste mode closed.
-/

namespace AiTools.Terminal.InputQueue

open AiTools.Lib

/-- What the ceiling leaves of the input. -/
def afterCeiling (input : Bytes) (ceilingBytes : Nat) : Bytes :=
  if ceilingBytes < input.length then
    input.take (markerSafeCut input (utf8BoundaryAtOrBefore input ceilingBytes))
  else input

def InsideMarker (bytes : Bytes) (place : Nat) : Prop :=
  ∃ start, isMarkerStartAt bytes start = true ∧ start < place ∧ place < start + 6

/-- Strictly inside a well-formed character. -/
def InsideChar (bytes : Bytes) (place : Nat) : Prop :=
  ∃ char start, String.utf8EncodeChar char <+: bytes.drop start ∧ start < place ∧
    place < start + (String.utf8EncodeChar char).length

/-- The last marker is an opener. -/
def EndsOpen (bytes : Bytes) : Prop :=
  ∃ start, isMarkerStartAt bytes start = true ∧ bytes[start + 4]? = some 0x30 ∧
    ∀ later, isMarkerStartAt bytes later = true → later ≤ start

structure Split (input : Bytes) (chunkBytes ceilingBytes : Nat) (chunks : List Bytes) : Prop where
  filled : ∀ chunk ∈ chunks, chunk ≠ []
  short : ∀ chunk ∈ chunks, chunk.length ≤ chunkBytes
  lossless : chunks.flatten = afterCeiling input ceilingBytes ∨
    chunks.flatten = afterCeiling input ceilingBytes ++ pasteCloseMarker
  uncut : ∀ before after, chunks = before ++ after →
    ¬InsideMarker chunks.flatten before.flatten.length ∧
      ¬InsideChar chunks.flatten before.flatten.length
  closed : ceilingBytes < input.length → ¬EndsOpen chunks.flatten

/-- The positions that the lead bytes lead to. -/
inductive Scanned (data : Bytes) : Nat → Prop where
  | start : Scanned data 0
  | next {index : Nat} (scanned : Scanned data index) (isInside : index < data.length) :
      Scanned data (index + utf8CodePointLength data[index])

variable {data bytes input : Bytes} {chunkBytes ceilingBytes chunkStart index place start : Nat}

theorem marker_bytes (isMarker : isMarkerStartAt bytes start = true) (isAfter : start < place)
    (isBefore : place < start + 6) :
    ∃ byte, bytes[place]? = some byte ∧ byte < 0x80 ∧ byte ≠ 0x1b := by
  unfold isMarkerStartAt at isMarker
  simp only [Bool.and_eq_true, Bool.or_eq_true, beq_iff_eq] at isMarker
  obtain ⟨⟨⟨⟨⟨-, second⟩, third⟩, fourth⟩, fifth⟩, sixth⟩ := isMarker
  obtain rfl | rfl | rfl | rfl | rfl : place = start + 1 ∨ place = start + 2 ∨ place = start + 3 ∨
    place = start + 4 ∨ place = start + 5 := by omega
  · exact ⟨_, second, by decide, by decide⟩
  · exact ⟨_, third, by decide, by decide⟩
  · exact ⟨_, fourth, by decide, by decide⟩
  · rcases fifth with isOpener | isCloser
    · exact ⟨_, isOpener, by decide, by decide⟩
    · exact ⟨_, isCloser, by decide, by decide⟩
  · exact ⟨_, sixth, by decide, by decide⟩

theorem not_insideMarker_of_escape (isEscape : bytes[place]? = some 0x1b) :
    ¬InsideMarker bytes place := by
  rintro ⟨start, isMarker, isAfter, isBefore⟩
  obtain ⟨byte, isByte, -, notEscape⟩ := marker_bytes isMarker isAfter isBefore
  exact notEscape (Option.some.inj (isByte.symm.trans isEscape))

theorem insideChar_continues (isInside : InsideChar bytes place) :
    ∃ byte, bytes[place]? = some byte ∧ Utf8.isContinuation byte = true := by
  obtain ⟨char, start, ⟨rest, isRest⟩, isAfter, isBefore⟩ := isInside
  obtain ⟨offset, rfl⟩ := Nat.exists_eq_add_of_lt isAfter
  have isOffset : offset + 1 < (String.utf8EncodeChar char).length := by omega
  refine ⟨_, ?_, Utf8.encodeChar_continues isOffset⟩
  have isThere : (bytes.drop start)[offset + 1]? = (String.utf8EncodeChar char)[offset + 1]? := by
    rw [← isRest, List.getElem?_append_left isOffset]
  rw [List.getElem?_drop, ← Nat.add_assoc] at isThere
  rw [isThere, List.getElem?_eq_getElem isOffset]

theorem ascii_not_continuation : ∀ {byte : UInt8}, byte < 0x80 → Utf8.isContinuation byte = false := by
  intro byte isAscii
  have masked : ∀ bits : BitVec 8, bits < 0x80 → ((bits &&& 0xc0) == 0x80) = false := by decide
  refine beq_eq_false_iff_ne.mpr fun same => ?_
  exact beq_eq_false_iff_ne.mp (masked _ isAscii) (UInt8.toBitVec_inj.mpr same)

theorem not_insideChar_of_ascii {byte : UInt8} (isByte : bytes[place]? = some byte)
    (isAscii : byte < 0x80) : ¬InsideChar bytes place := by
  intro isInside
  obtain ⟨other, isOther, continues⟩ := insideChar_continues isInside
  cases Option.some.inj (isByte.symm.trans isOther)
  exact Bool.noConfusion ((ascii_not_continuation isAscii).symm.trans continues)

theorem isMarkerStartAt_append (more : Bytes) (isWithin : start + 6 ≤ data.length) :
    isMarkerStartAt (data ++ more) start = isMarkerStartAt data start := by
  unfold isMarkerStartAt
  repeat rw [List.getElem?_append_left (by omega)]

theorem marker_fits (isMarker : isMarkerStartAt bytes start = true) : start + 6 ≤ bytes.length := by
  unfold isMarkerStartAt at isMarker
  simp only [Bool.and_eq_true, beq_iff_eq] at isMarker
  have isThere := (List.getElem?_eq_some_iff.mp isMarker.2).1
  omega

theorem InsideChar.append (isInside : InsideChar data place) (more : Bytes) :
    InsideChar (data ++ more) place := by
  obtain ⟨char, start, isPrefix, isAfter, isBefore⟩ := isInside
  have isLength := isPrefix.length_le
  rw [List.length_drop] at isLength
  refine ⟨char, start, ?_, isAfter, isBefore⟩
  rw [List.drop_append_of_le_length (by omega)]
  exact isPrefix.trans (List.prefix_append _ _)

theorem InsideChar.lt (isInside : InsideChar data place) : place < data.length := by
  obtain ⟨byte, isByte, -⟩ := insideChar_continues isInside
  exact (List.getElem?_eq_some_iff.mp isByte).1

theorem getElem?_close (data : Bytes) : (data ++ pasteCloseMarker)[data.length]? = some 0x1b := by
  rw [List.getElem?_append_right (Nat.le_refl _), Nat.sub_self]
  rfl

theorem insideChar_of_close (isInside : InsideChar (data ++ pasteCloseMarker) place)
    (isBefore : place ≤ data.length) : InsideChar data place := by
  obtain ⟨char, start, isPrefix, isAfter, isWithin⟩ := isInside
  have fits : start + (String.utf8EncodeChar char).length ≤ data.length := by
    by_contra isBeyond
    exact not_insideChar_of_ascii (getElem?_close data) (by decide)
      ⟨char, start, isPrefix, by omega, by omega⟩
  refine ⟨char, start, ?_, isAfter, isWithin⟩
  rw [List.drop_append_of_le_length (by omega)] at isPrefix
  exact List.prefix_of_prefix_length_le isPrefix (List.prefix_append _ _)
    (by rw [List.length_drop]; omega)

theorem insideMarker_of_close (isInside : InsideMarker (data ++ pasteCloseMarker) place)
    (isBefore : place ≤ data.length) : InsideMarker data place := by
  obtain ⟨start, isMarker, isAfter, isWithin⟩ := isInside
  have fits : start + 6 ≤ data.length := by
    by_contra isBeyond
    exact not_insideMarker_of_escape (getElem?_close data) ⟨start, isMarker, by omega, by omega⟩
  exact ⟨start, isMarkerStartAt_append pasteCloseMarker fits ▸ isMarker, isAfter, isWithin⟩

/-! ## The breaks -/

/-- Where a chunk may begin. -/
structure Break (data : Bytes) (place : Nat) : Prop where
  notInside : ¬InsideMarker data place
  isBreak : (Scanned data place ∧ (InsideChar data place → 6 ≤ place)) ∨ data[place]? = some 0x1b

theorem Break.zero : Break data 0 where
  notInside := fun ⟨_, _, isAfter, _⟩ => absurd isAfter (Nat.not_lt_zero _)
  isBreak := .inl ⟨.start, fun ⟨_, _, _, isAfter, _⟩ => absurd isAfter (Nat.not_lt_zero _)⟩

theorem utf8CodePointLength_le (lead : UInt8) : utf8CodePointLength lead ≤ 4 := by
  unfold utf8CodePointLength
  split_ifs
  all_goals decide

theorem utf8CodePointLength_ascii {lead : UInt8} (isAscii : lead < 0x80) :
    utf8CodePointLength lead = 1 := if_pos isAscii

theorem utf8CodePointLength_continuation {byte : UInt8}
    (continues : Utf8.isContinuation byte = true) : utf8CodePointLength byte = 1 := by
  have masked : ∀ bits : BitVec 8, ((bits &&& 0xc0) == 0x80) = true →
      bits &&& 0xe0 ≠ 0xc0 ∧ bits &&& 0xf0 ≠ 0xe0 ∧ bits &&& 0xf8 ≠ 0xf0 := by decide
  obtain ⟨notTwo, notThree, notFour⟩ := masked byte.toBitVec
    (beq_iff_eq.mpr (UInt8.toBitVec_inj.mpr (beq_iff_eq.mp continues)))
  have two : byte &&& 0xe0 ≠ 0xc0 := fun same => notTwo (congrArg UInt8.toBitVec same)
  have three : byte &&& 0xf0 ≠ 0xe0 := fun same => notThree (congrArg UInt8.toBitVec same)
  have four : byte &&& 0xf8 ≠ 0xf0 := fun same => notFour (congrArg UInt8.toBitVec same)
  unfold utf8CodePointLength
  rw [if_neg two, if_neg three, if_neg four, ite_self]

/-- A chunk that is full ends after its start, at the scan or at a marker that the scan is in. -/
theorem adjustBreak_spec (isLarge : 6 ≤ chunkBytes) (isStart : Break data chunkStart)
    (scanned : Scanned data index) (isInside : index < data.length) (isAfter : chunkStart < index)
    (isFull : chunkBytes < index - chunkStart + utf8CodePointLength data[index]) :
    chunkStart < adjustBreak data index chunkStart ∧ adjustBreak data index chunkStart ≤ index ∧
      index - adjustBreak data index chunkStart + utf8CodePointLength data[index] ≤ chunkBytes ∧
      Break data (adjustBreak data index chunkStart) := by
  have isShort := utf8CodePointLength_le data[index]
  unfold adjustBreak
  split
  · rename_i marker found
    obtain ⟨isBefore, isNear, isMarker⟩ := straddled?_some found
    obtain ⟨isLater, isMarker⟩ := of_decide_eq_true isMarker
    obtain ⟨byte, isByte, isAscii, -⟩ := marker_bytes isMarker isBefore (by omega)
    have isOne : utf8CodePointLength data[index] = 1 := by
      rw [List.getElem?_eq_getElem isInside] at isByte
      exact utf8CodePointLength_ascii (Option.some.inj isByte ▸ isAscii)
    have isEscape := isMarkerStartAt_escape isMarker
    -- a marker at the start of the chunk leaves room for its own bytes
    rw [if_neg (by omega)]
    exact ⟨by omega, by omega, by omega, not_insideMarker_of_escape isEscape, .inr isEscape⟩
  · rename_i notFound
    refine ⟨isAfter, Nat.le_refl _, by omega, ?_, .inl ⟨scanned, fun isInsideChar => ?_⟩⟩
    · rintro ⟨marker, isMarker, isBefore, isNear⟩
      have isLater : chunkStart ≤ marker := by
        by_contra isEarlier
        exact isStart.notInside ⟨marker, isMarker, by omega, by omega⟩
      have notMarker := straddled?_none notFound isBefore (by omega)
      exact of_decide_eq_false notMarker ⟨isLater, isMarker⟩
    · obtain ⟨byte, isByte, continues⟩ := insideChar_continues isInsideChar
      rw [List.getElem?_eq_getElem isInside] at isByte
      have isOne := utf8CodePointLength_continuation (Option.some.inj isByte ▸ continues)
      omega

structure Chunked (data : Bytes) (chunkBytes chunkStart : Nat) (chunks : List Bytes) : Prop where
  filled : ∀ chunk ∈ chunks, chunk ≠ []
  short : ∀ chunk ∈ chunks, chunk.length ≤ chunkBytes
  breaks : ∀ before after, chunks = before ++ after → before ≠ [] → after ≠ [] →
    Break data (chunkStart + before.flatten.length)

theorem length_subarray {finish : Nat} (isBefore : finish ≤ data.length) :
    (subarray data chunkStart finish).length = finish - chunkStart := by
  rw [subarray, List.length_take, List.length_drop]
  omega

theorem Chunked.cons {next : Nat} {later : List Bytes} (chunked : Chunked data chunkBytes next later)
    (isNext : Break data next) (isAfter : chunkStart < next) (isWithin : next ≤ data.length)
    (fits : next - chunkStart ≤ chunkBytes) :
    Chunked data chunkBytes chunkStart (subarray data chunkStart next :: later) := by
  have isLength : (subarray data chunkStart next).length = next - chunkStart :=
    length_subarray isWithin
  refine ⟨fun chunk isChunk => ?_, fun chunk isChunk => ?_, ?_⟩
  · rcases List.mem_cons.mp isChunk with rfl | isLater
    · exact List.ne_nil_of_length_pos (by omega)
    · exact chunked.filled chunk isLater
  · rcases List.mem_cons.mp isChunk with rfl | isLater
    · exact isLength ▸ fits
    · exact chunked.short chunk isLater
  · intro before after same notFirst notLast
    cases before with
    | nil => exact absurd rfl notFirst
    | cons first before =>
      obtain ⟨rfl, isLater⟩ := List.cons.inj same
      rw [List.flatten_cons, List.length_append, isLength]
      by_cases isFirst : before = []
      · subst isFirst
        rwa [List.flatten_nil, List.length_nil, Nat.add_zero, Nat.add_sub_cancel' (by omega)]
      · have isBreak := chunked.breaks before after isLater isFirst notLast
        rwa [← Nat.add_assoc, Nat.add_sub_cancel' (by omega)]

theorem splitFrom_chunked {curBytes : Nat} (isLarge : 6 ≤ chunkBytes)
    (isStart : Break data chunkStart) (scanned : Scanned data index) (isAfter : chunkStart ≤ index)
    (isCount : curBytes = index - chunkStart) (fits : curBytes ≤ chunkBytes) :
    Chunked data chunkBytes chunkStart (splitFrom data chunkBytes chunkStart index curBytes) := by
  fun_induction splitFrom data chunkBytes chunkStart index curBytes with
  | case1 chunkStart index curBytes isInside length isFull next pushed stayed =>
    subst isCount
    obtain ⟨isLater, isBefore, isRoom, isNext⟩ :=
      adjustBreak_spec isLarge isStart scanned isInside (by omega) isFull.2
    rw [if_neg (Nat.not_lt.mpr isBefore)]
    refine Chunked.cons ?_ isNext isLater (by omega) (by omega)
    exact stayed isNext (scanned.next isInside) (by omega) (by omega)
      isRoom
  | case2 chunkStart index curBytes isInside length notFull ih =>
    have isShort := utf8CodePointLength_le data[index]
    exact ih isStart (scanned.next isInside) (by omega) (by omega) (by omega)
  | case3 chunkStart index curBytes notInside isLeft =>
    refine ⟨fun chunk isChunk => ?_, fun chunk isChunk => ?_, fun before after same => ?_⟩
    · rw [List.mem_singleton.mp isChunk]
      exact List.drop_eq_nil_iff.not.mpr (Nat.not_le.mpr isLeft)
    · rw [List.mem_singleton.mp isChunk, List.length_drop]
      omega
    · intro notFirst notLast
      rcases List.append_eq_singleton_iff.mp same.symm with ⟨isNil, -⟩ | ⟨-, isNil⟩
      · exact absurd isNil notFirst
      · exact absurd isNil notLast
  | case4 chunkStart index curBytes notInside notLeft =>
    refine ⟨fun _ isChunk => (by cases isChunk), fun _ isChunk => (by cases isChunk), ?_⟩
    intro before after same notFirst
    exact absurd (List.append_eq_nil_iff.mp same.symm).1 notFirst

/-- The marker that is written after the data. -/
def closers (input : Bytes) (ceilingBytes : Nat) : List Bytes :=
  if ceilingBytes < input.length && hasUnmatchedPasteOpener (afterCeiling input ceilingBytes) then
    [pasteCloseMarker]
  else []

theorem markerSafeCut_le (bytes : Bytes) (cut : Nat) : markerSafeCut bytes cut ≤ cut := by
  unfold markerSafeCut
  cases found : straddled? (isMarkerStartAt bytes) cut with
  | none => exact Nat.le_refl _
  | some start => exact Nat.le_of_lt (straddled?_some found).1

theorem cut_le (bytes : Bytes) (limit : Nat) :
    markerSafeCut bytes (utf8BoundaryAtOrBefore bytes limit) ≤ limit :=
  (markerSafeCut_le _ _).trans ((backToBoundary_le _ _).trans (Nat.min_le_left _ _))

theorem splitPasteInput_eq (input : Bytes) (chunkBytes ceilingBytes : Nat) :
    splitPasteInput input chunkBytes ceilingBytes =
      splitFrom (afterCeiling input ceilingBytes) chunkBytes 0 0 0 ++ closers input ceilingBytes := by
  have isNone : splitFrom [] chunkBytes 0 0 0 = [] := by
    rw [splitFrom, dif_neg (by decide), if_neg (by decide)]
  unfold splitPasteInput closers afterCeiling
  by_cases isLong : ceilingBytes < input.length
  · have isCut := cut_le input ceilingBytes
    simp only [if_pos isLong, decide_eq_true isLong, Bool.true_and,
      decide_eq_true (Nat.lt_of_le_of_lt isCut isLong)]
    split_ifs with isNil isOpen
    · rw [isNil] at isOpen
      cases isOpen
    · rw [isNil, isNone]
      rfl
    · rfl
    · rfl
  · simp only [if_neg isLong, List.take_length, Nat.lt_irrefl, decide_eq_false isLong,
      decide_false, Bool.false_and, Bool.false_eq_true, if_false, List.append_nil]
    split_ifs with isNil
    · rw [isNil, isNone]
    · rfl

theorem flatten_splitPasteInput_eq (input : Bytes) (chunkBytes ceilingBytes : Nat) :
    (splitPasteInput input chunkBytes ceilingBytes).flatten =
      afterCeiling input ceilingBytes ++ (closers input ceilingBytes).flatten := by
  rw [splitPasteInput_eq, List.flatten_append, flatten_splitFrom _ _ _ _ _ (Nat.le_refl 0),
    List.drop_zero]

theorem not_endsOpen_close (data : Bytes) : ¬EndsOpen (data ++ pasteCloseMarker) := by
  rintro ⟨start, isMarker, isOpener, isLast⟩
  have closer (offset : Nat) :
      (data ++ pasteCloseMarker)[data.length + offset]? = pasteCloseMarker[offset]? := by
    rw [List.getElem?_append_right (by omega), Nat.add_sub_cancel_left]
  have isCloser : isMarkerStartAt (data ++ pasteCloseMarker) data.length = true := by
    have first := closer 0
    rw [Nat.add_zero] at first
    rw [isMarkerStartAt, first, closer, closer, closer, closer, closer]
    rfl
  have isBefore := isLast _ isCloser
  have fits := marker_fits isMarker
  rw [List.length_append, show pasteCloseMarker.length = 6 from rfl] at fits
  obtain rfl : start = data.length := by omega
  rw [closer] at isOpener
  cases isOpener

/-! ## Splitting -/

theorem closers_cases (input : Bytes) (ceilingBytes : Nat) :
    closers input ceilingBytes = [] ∨ closers input ceilingBytes = [pasteCloseMarker] := by
  unfold closers
  split_ifs
  · exact .inr rfl
  · exact .inl rfl

/-- A place of the data is inside what it was inside of without the closing marker. -/
theorem uncut_of_break (scans : ∀ index ≥ 6, Scanned data index → ¬InsideChar data index)
    {closing : Bytes} (isClosing : closing = [] ∨ closing = pasteCloseMarker)
    (isBreak : Break data place) (isBefore : place ≤ data.length) :
    ¬InsideMarker (data ++ closing) place ∧ ¬InsideChar (data ++ closing) place := by
  have notInside : ¬InsideChar data place := by
    intro isInside
    rcases isBreak.isBreak with ⟨scanned, isLate⟩ | isEscape
    · exact scans place (isLate isInside) scanned isInside
    · exact not_insideChar_of_ascii isEscape (by decide) isInside
  rcases isClosing with rfl | rfl
  · rw [List.append_nil]
    exact ⟨isBreak.notInside, notInside⟩
  · exact ⟨fun isInside => isBreak.notInside (insideMarker_of_close isInside isBefore),
      fun isInside => notInside (insideChar_of_close isInside isBefore)⟩

theorem uncut_end (bytes : Bytes) :
    ¬InsideMarker bytes bytes.length ∧ ¬InsideChar bytes bytes.length := by
  refine ⟨?_, fun isInside => absurd isInside.lt (Nat.lt_irrefl _)⟩
  rintro ⟨start, isMarker, -, isBefore⟩
  have fits := marker_fits isMarker
  omega

theorem uncut_of_chunked {chunks closing before after : List Bytes}
    (chunked : Chunked data chunkBytes 0 chunks) (isFlat : chunks.flatten = data)
    (isClosing : closing = [] ∨ closing = [pasteCloseMarker])
    (scans : ∀ index ≥ 6, Scanned data index → ¬InsideChar data index)
    (same : chunks ++ closing = before ++ after) :
    ¬InsideMarker (data ++ closing.flatten) before.flatten.length ∧
      ¬InsideChar (data ++ closing.flatten) before.flatten.length := by
  -- a place at the end of the data is the end, or where the closing marker begins
  have isEnd : before = chunks → ¬InsideMarker (data ++ closing.flatten) before.flatten.length ∧
      ¬InsideChar (data ++ closing.flatten) before.flatten.length := by
    rintro rfl
    rw [isFlat]
    rcases isClosing with rfl | rfl
    · rw [List.flatten_nil, List.append_nil]
      exact uncut_end _
    · exact ⟨not_insideMarker_of_escape (getElem?_close _),
        not_insideChar_of_ascii (getElem?_close _) (by decide)⟩
  rcases List.append_eq_append_iff.mp same with ⟨added, isBefore, isAfter⟩ | ⟨left, isFirst, -⟩
  · by_cases isNil : added = []
    · exact isEnd (by rw [isBefore, isNil, List.append_nil])
    · have isAll : before.flatten = data ++ closing.flatten := by
        rcases isClosing with rfl | rfl
        · exact absurd (List.append_eq_nil_iff.mp isAfter.symm).1 isNil
        · rcases List.append_eq_singleton_iff.mp isAfter.symm with ⟨isNone, -⟩ | ⟨isOne, -⟩
          · exact absurd isNone isNil
          · rw [isBefore, isOne, List.flatten_append, isFlat]
      rw [isAll]
      exact uncut_end _
  · by_cases isLeft : left = []
    · exact isEnd (by rw [isFirst, isLeft, List.append_nil])
    · have isPart := congrArg List.length (isFlat.symm.trans (congrArg List.flatten isFirst))
      rw [List.flatten_append, List.length_append] at isPart
      have isFlatClosing : closing.flatten = [] ∨ closing.flatten = pasteCloseMarker := by
        rcases isClosing with rfl | rfl
        · exact .inl rfl
        · exact .inr rfl
      refine uncut_of_break scans isFlatClosing ?_ (by omega)
      by_cases isNil : before = []
      · exact isNil ▸ Break.zero
      · exact Nat.zero_add before.flatten.length ▸ chunked.breaks before left isFirst isNil isLeft

theorem split_of_sound (isLarge : 6 ≤ chunkBytes)
    (scans : ∀ index ≥ 6, Scanned (afterCeiling input ceilingBytes) index →
      ¬InsideChar (afterCeiling input ceilingBytes) index)
    (closes : ceilingBytes < input.length → EndsOpen (afterCeiling input ceilingBytes) →
      hasUnmatchedPasteOpener (afterCeiling input ceilingBytes) = true) :
    Split input chunkBytes ceilingBytes (splitPasteInput input chunkBytes ceilingBytes) := by
  have chunked := splitFrom_chunked isLarge Break.zero
    (@Scanned.start (afterCeiling input ceilingBytes)) (Nat.le_refl 0) rfl (Nat.zero_le _)
  have isFlat := flatten_splitFrom (afterCeiling input ceilingBytes) chunkBytes 0 0 0 (Nat.le_refl 0)
  have isClosing := closers_cases input ceilingBytes
  have isCloser : ∀ chunk ∈ closers input ceilingBytes, chunk = pasteCloseMarker := by
    rcases isClosing with isNone | isOne
    · simp [isNone]
    · simp [isOne]
  refine ⟨?_, ?_, ?_, fun before after same => ?_, fun isLong => ?_⟩
  · rw [splitPasteInput_eq]
    exact List.forall_mem_append.mpr ⟨chunked.filled,
      fun chunk isChunk => isCloser chunk isChunk ▸ List.cons_ne_nil _ _⟩
  · rw [splitPasteInput_eq]
    exact List.forall_mem_append.mpr ⟨chunked.short,
      fun chunk isChunk => isCloser chunk isChunk ▸ isLarge⟩
  · rw [flatten_splitPasteInput_eq]
    rcases isClosing with isNone | isOne
    · exact .inl (by rw [isNone]; exact List.append_nil _)
    · exact .inr (by rw [isOne]; rfl)
  · rw [flatten_splitPasteInput_eq]
    exact uncut_of_chunked chunked isFlat isClosing scans ((splitPasteInput_eq ..).symm.trans same)
  · rw [flatten_splitPasteInput_eq]
    cases isOpen : hasUnmatchedPasteOpener (afterCeiling input ceilingBytes) with
    | true =>
      rw [closers, decide_eq_true isLong, isOpen]
      exact not_endsOpen_close _
    | false =>
      rw [closers, isOpen, Bool.and_false, if_neg Bool.false_ne_true, List.flatten_nil,
        List.append_nil]
      exact fun endsOpen => Bool.noConfusion (isOpen.symm.trans (closes isLong endsOpen))

theorem splitFrom_scanned (scanned : Scanned data index) (fits : index ≤ chunkBytes) :
    splitFrom data chunkBytes 0 0 0 = splitFrom data chunkBytes 0 index index := by
  induction scanned with
  | start => rfl
  | next scanned isInside ih =>
    refine (ih (by omega)).trans ?_
    rw [splitFrom, dif_pos isInside]
    exact if_neg (by omega)

theorem splitFrom_full (scanned : Scanned data index) (isLate : 6 ≤ index)
    (isInside : InsideChar data index) :
    ∃ rest, splitFrom data index 0 0 0 = subarray data 0 index :: rest := by
  have isBefore := isInside.lt
  have notMarker : straddled? (fun start => 0 ≤ start ∧ isMarkerStartAt data start) index = none := by
    cases found : straddled? (fun start => 0 ≤ start ∧ isMarkerStartAt data start) index with
    | none => rfl
    | some marker =>
      obtain ⟨isEarlier, isNear, isMarker⟩ := straddled?_some found
      obtain ⟨byte, isByte, isAscii, -⟩ :=
        marker_bytes (of_decide_eq_true isMarker).2 isEarlier (by omega)
      exact absurd isInside (not_insideChar_of_ascii isByte isAscii)
  have isBreak : adjustBreak data index 0 = index := by
    unfold adjustBreak
    rw [notMarker]
  have isPos := utf8CodePointLength_pos data[index]
  rw [splitFrom_scanned scanned (Nat.le_refl _), splitFrom, dif_pos isBefore]
  dsimp only
  rw [if_pos ⟨by omega, by omega⟩, isBreak]
  exact ⟨_, rfl⟩

/-- Splitting is without loss, and closed, for every size of the chunks, just when the scan comes
to no place in a character and an open end is counted as one. -/
theorem split_iff (input : Bytes) (ceilingBytes : Nat) : (∀ chunkBytes ≥ 6,
      Split input chunkBytes ceilingBytes (splitPasteInput input chunkBytes ceilingBytes)) ↔
    (∀ index ≥ 6, Scanned (afterCeiling input ceilingBytes) index →
        ¬InsideChar (afterCeiling input ceilingBytes) index) ∧
      (ceilingBytes < input.length → EndsOpen (afterCeiling input ceilingBytes) →
        hasUnmatchedPasteOpener (afterCeiling input ceilingBytes) = true) := by
  constructor
  · refine fun splits => ⟨fun index isLate scanned isInside => ?_, fun isLong endsOpen => ?_⟩
    · obtain ⟨rest, isSplit⟩ := splitFrom_full scanned isLate isInside
      have isEq := splitPasteInput_eq input index ceilingBytes
      rw [isSplit] at isEq
      have notInside := ((splits index isLate).uncut [_] _ isEq).2
      rw [List.flatten_singleton, length_subarray (Nat.le_of_lt isInside.lt), Nat.sub_zero,
        flatten_splitPasteInput_eq] at notInside
      exact notInside (isInside.append _)
    · by_contra notOpen
      have notEndsOpen := (splits 6 (Nat.le_refl 6)).closed isLong
      rw [flatten_splitPasteInput_eq, closers, Bool.eq_false_iff.mpr notOpen, Bool.and_false,
        if_neg Bool.false_ne_true, List.flatten_nil, List.append_nil] at notEndsOpen
      exact notEndsOpen endsOpen
  · exact fun ⟨scans, closes⟩ chunkBytes isLarge => split_of_sound isLarge scans closes

/-- `ESC[201~ESC[200~aa`. -/
def crossed : Bytes := pasteCloseMarker ++ opener ++ [0x61, 0x61]

theorem afterCeiling_crossed :
    afterCeiling crossed 13 = pasteCloseMarker ++ opener ++ [0x61] := by decide

theorem not_split : ¬∀ input chunkBytes ceilingBytes, 6 ≤ chunkBytes →
    Split input chunkBytes ceilingBytes (splitPasteInput input chunkBytes ceilingBytes) := by
  intro splits
  have notEndsOpen := (splits crossed 6 13 (Nat.le_refl 6)).closed (by decide)
  have isClosers : closers crossed 13 = [] := by decide
  rw [flatten_splitPasteInput_eq, isClosers, afterCeiling_crossed] at notEndsOpen
  refine notEndsOpen ⟨6, by decide, by decide, fun later isMarker => ?_⟩
  have fits := marker_fits isMarker
  by_contra isLater
  obtain rfl : later = 7 := by
    have isLength : (pasteCloseMarker ++ opener ++ [0x61] ++ ([] : List Bytes).flatten).length =
        13 := rfl
    omega
  exact absurd isMarker (by decide)

end AiTools.Terminal.InputQueue
