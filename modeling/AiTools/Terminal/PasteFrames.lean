import AiTools.Terminal.InputQueue

/-!
Contract: what is written of a paste is its frame.
-/

namespace AiTools.Terminal.InputQueue

open AiTools.Lib AiTools.Lib.Transition AiTools.Terminal.BracketedPaste
open List (append_assoc append_nil cons_ne_nil flatten_cons length_append map_cons mem_cons
  take_length)

theorem straddled?_some {isMarker : Nat → Bool} {cut start : Nat}
    (found : straddled? isMarker cut = some start) :
    start < cut ∧ cut ≤ start + 5 ∧ isMarker start = true := by
  obtain ⟨distance, isDistance, isStart⟩ := List.exists_of_findSome?_eq_some found
  split_ifs at isStart with isMarked
  cases isStart
  have bounds : 1 ≤ distance ∧ distance ≤ 5 := by
    simp only [mem_cons, List.not_mem_nil, or_false] at isDistance
    omega
  exact ⟨by omega, by omega, isMarked.2⟩

theorem straddled?_none {isMarker : Nat → Bool} {cut start : Nat}
    (notFound : straddled? isMarker cut = none) (isBefore : start < cut)
    (isNear : cut ≤ start + 5) : isMarker start = false := by
  have isDistance : cut - start ∈ [1, 2, 3, 4, 5] := by
    simp only [mem_cons, List.not_mem_nil, or_false]
    omega
  have notMarked := List.findSome?_eq_none_iff.mp notFound (cut - start) isDistance
  rw [Nat.sub_sub_self (Nat.le_of_lt isBefore)] at notMarked
  by_contra isMarked
  rw [if_pos ⟨Nat.sub_le .., Bool.not_eq_false _ ▸ isMarked⟩] at notMarked
  cases notMarked

theorem le_adjustBreak {data : Bytes} {index chunkStart : Nat} (isAfter : chunkStart ≤ index) :
    chunkStart ≤ adjustBreak data index chunkStart := by
  unfold adjustBreak
  split
  · rename_i start found
    obtain ⟨_, _, isMarker⟩ := straddled?_some found
    have isStart : chunkStart ≤ start := (of_decide_eq_true isMarker).1
    split_ifs
    · omega
    · exact isStart
  · exact isAfter

theorem subarray_append (data : Bytes) {start finish : Nat} (isAfter : start ≤ finish) :
    subarray data start finish ++ data.drop finish = data.drop start := by
  have split := List.take_append_drop (finish - start) (data.drop start)
  rwa [List.drop_drop, Nat.add_sub_cancel' isAfter] at split

theorem flatten_splitFrom (data : Bytes) (chunkBytes chunkStart index curBytes : Nat)
    (isAfter : chunkStart ≤ index) :
    (splitFrom data chunkBytes chunkStart index curBytes).flatten = data.drop chunkStart := by
  fun_induction splitFrom data chunkBytes chunkStart index curBytes with
  | case1 chunkStart index curBytes isInside length isFull next pushed stayed =>
    have isLater : (if index < next then splitFrom data chunkBytes next next 0
        else splitFrom data chunkBytes next (index + length) (index - next + length)).flatten =
        data.drop next := by
      split_ifs with isPushed
      · exact pushed isPushed (Nat.le_refl _)
      · exact stayed (by omega)
    rw [flatten_cons, isLater]
    exact subarray_append data (le_adjustBreak isAfter)
  | case2 chunkStart index curBytes isInside length notFull ih =>
    exact ih (by omega)
  | case3 chunkStart index curBytes notInside isLeft =>
    rw [flatten_cons, List.flatten_nil, append_nil]
  | case4 chunkStart index curBytes notInside notLeft =>
    rw [List.drop_eq_nil_of_le (Nat.not_lt.mp notLeft), List.flatten_nil]

theorem backToBoundary_le (bytes : Bytes) (limit : Nat) : backToBoundary bytes limit ≤ limit := by
  induction limit with
  | zero => exact Nat.le_refl 0
  | succ limit ih =>
    rw [backToBoundary]
    split_ifs
    · exact Nat.le_succ_of_le ih
    · exact Nat.le_refl _

variable {bytes : Bytes}

theorem le_backToBoundary {boundary limit : Nat} (isBelow : boundary ≤ limit)
    (isBoundary : bytes[boundary]?.any Utf8.isContinuation = false) :
    boundary ≤ backToBoundary bytes limit := by
  induction limit with
  | zero => exact isBelow
  | succ limit ih =>
    rw [backToBoundary]
    split_ifs with isInside
    · rcases Nat.lt_or_eq_of_le isBelow with isLower | rfl
      · exact ih (Nat.le_of_lt_succ isLower)
      · exact Bool.noConfusion (isBoundary.symm.trans isInside)
    · exact isBelow

theorem backToBoundary_isBoundary {limit : Nat} (notZero : 0 < backToBoundary bytes limit) :
    bytes[backToBoundary bytes limit]?.any Utf8.isContinuation = false := by
  induction limit with
  | zero => exact absurd notZero (Nat.lt_irrefl 0)
  | succ limit ih =>
    rw [backToBoundary] at notZero ⊢
    split_ifs at notZero ⊢ with isInside
    · exact ih notZero
    · exact Bool.not_eq_true _ ▸ isInside

/-! ## The frame -/

theorem isMarkerStartAt_escape {index : Nat}
    (isMarker : isMarkerStartAt bytes index = true) : bytes[index]? = some 0x1b := by
  simp only [isMarkerStartAt, Bool.and_eq_true] at isMarker
  exact beq_iff_eq.mp isMarker.1.1.1.1.1

theorem pasteBalance_zero (noEscape : 0x1b ∉ bytes) (skip : Nat) : pasteBalance skip bytes = 0 := by
  induction bytes generalizing skip with
  | nil => cases skip <;> rfl
  | cons byte rest ih =>
    have later := ih fun isLater => noEscape (List.mem_cons_of_mem _ isLater)
    cases skip with
    | succ skip => exact later skip
    | zero =>
      have notMarker : isMarkerStartAt (byte :: rest) 0 = false := by
        refine Bool.eq_false_iff.mpr fun isMarker => noEscape ?_
        exact List.mem_of_getElem? (isMarkerStartAt_escape isMarker)
      rw [pasteBalance, notMarker]
      exact later 0

/-- `ESC[200~`. -/
def opener : Bytes := [0x1b, 0x5b, 0x32, 0x30, 0x30, 0x7e]

theorem hasUnmatchedPasteOpener_opener {body : Bytes} (noEscape : 0x1b ∉ body) :
    hasUnmatchedPasteOpener (opener ++ body) = true := by
  have balance : pasteBalance 0 (opener ++ body) = 1 + pasteBalance 0 body := rfl
  rw [hasUnmatchedPasteOpener, balance, pasteBalance_zero noEscape]
  rfl

section
variable {body : Bytes}

/-- The frame of a paste. -/
def framed (body : Bytes) : Bytes := opener ++ body ++ pasteCloseMarker

theorem length_framed : (framed body).length = 12 + body.length := by
  simp only [framed, length_append]
  show 6 + body.length + 6 = _
  omega

theorem framed_close (offset : Nat) :
    (framed body)[6 + body.length + offset]? = pasteCloseMarker[offset]? := by
  have length : (opener ++ body).length = 6 + body.length := length_append
  rw [framed, List.getElem?_append_right (by omega), length, Nat.add_sub_cancel_left]

theorem framed_body {index : Nat} (isBody : index < body.length) :
    (framed body)[6 + index]? = body[index]? := by
  rw [framed, append_assoc, List.getElem?_append_right (Nat.le_add_right 6 index),
    show 6 + index - opener.length = index from Nat.add_sub_cancel_left 6 index,
    List.getElem?_append_left isBody]

theorem framed_opener {index : Nat} (isOpener : index < 6) :
    (framed body)[index]? = opener[index]? := by
  rw [framed, append_assoc, List.getElem?_append_left isOpener]

theorem marker_of_framed {index : Nat} (noEscape : 0x1b ∉ body)
    (isMarker : isMarkerStartAt (framed body) index = true) :
    index = 0 ∨ index = 6 + body.length := by
  have isEscape := isMarkerStartAt_escape isMarker
  rcases Nat.lt_or_ge index 6 with isOpener | isLater
  · have onlyFirst : ∀ place < 6, opener[place]? = some 0x1b → place = 0 := by decide
    exact .inl (onlyFirst index isOpener (framed_opener isOpener ▸ isEscape))
  · obtain ⟨place, rfl⟩ := Nat.exists_eq_add_of_le isLater
    rcases Nat.lt_or_ge place body.length with isBody | isCloser
    · rw [framed_body isBody] at isEscape
      exact absurd (List.mem_of_getElem? isEscape) noEscape
    · obtain ⟨offset, rfl⟩ := Nat.exists_eq_add_of_le isCloser
      rw [← Nat.add_assoc, framed_close] at isEscape
      cases offset with
      | zero => exact .inr (Nat.add_zero _)
      | succ offset =>
        have onlyFirst : ∀ place < 5, pasteCloseMarker[place + 1]? ≠ some 0x1b := by decide
        have isPlace : offset + 1 < 6 := (List.getElem?_eq_some_iff.mp isEscape).1
        exact absurd isEscape (onlyFirst offset (by omega))

theorem isMarkerStartAt_close : isMarkerStartAt (framed body) (6 + body.length) = true := by
  have first : (framed body)[6 + body.length]? = some 0x1b := framed_close 0
  rw [isMarkerStartAt, first, framed_close, framed_close, framed_close, framed_close, framed_close]
  rfl

theorem boundary_framed {chars : List Char} (isBody : body = Utf8.encode chars) :
    (framed body)[6]?.any Utf8.isContinuation = false := by
  cases body with
  | nil => rfl
  | cons byte rest =>
    have isFirst : (framed (byte :: rest))[6]? = some byte :=
      @framed_body (byte :: rest) 0 (Nat.succ_pos _)
    rw [isFirst]
    exact Utf8.encode_first (isBody ▸ rfl : (Utf8.encode chars)[0]? = some byte)

theorem take_framed {index : Nat} (isBody : index ≤ body.length) :
    (framed body).take (6 + index) = opener ++ body.take index := by
  have length : opener.length = 6 := rfl
  rw [framed, append_assoc, List.take_append, length, Nat.add_sub_cancel_left,
    List.take_of_length_le (by rw [length]; exact Nat.le_add_right 6 index),
    List.take_append_of_le_length isBody]

theorem cut_framed {chars : List Char} {ceilingBytes : Nat} (isBody : body = Utf8.encode chars)
    (noEscape : 0x1b ∉ body) (isAbove : 6 ≤ ceilingBytes)
    (isLong : ceilingBytes < (framed body).length) :
    ∃ index ≤ body.length,
      markerSafeCut (framed body) (utf8BoundaryAtOrBefore (framed body) ceilingBytes) = 6 + index ∧
      ∃ count, body.take index = Utf8.encode (chars.take count) := by
  have isMin : min ceilingBytes (framed body).length = ceilingBytes :=
    Nat.min_eq_left (Nat.le_of_lt isLong)
  unfold utf8BoundaryAtOrBefore
  rw [isMin]
  have isLater : 6 ≤ backToBoundary (framed body) ceilingBytes :=
    le_backToBoundary isAbove (boundary_framed isBody)
  have isBoundary := backToBoundary_isBoundary (Nat.lt_of_lt_of_le (by decide) isLater)
  have isCut := backToBoundary_le (framed body) ceilingBytes
  generalize backToBoundary (framed body) ceilingBytes = cut at isLater isBoundary isCut
  rw [length_framed] at isLong
  unfold markerSafeCut
  cases found : straddled? (isMarkerStartAt (framed body)) cut with
  | some start =>
    obtain ⟨isBefore, isNear, isMarker⟩ := straddled?_some found
    rcases marker_of_framed noEscape isMarker with rfl | rfl
    · omega
    · refine ⟨body.length, Nat.le_refl _, rfl, chars.length, ?_⟩
      rw [take_length, take_length, isBody]
  | none =>
    have isBefore : cut ≤ 6 + body.length := by
      by_contra isInCloser
      have notMarker : isMarkerStartAt (framed body) (6 + body.length) = false :=
        straddled?_none found (by omega) (by omega)
      exact Bool.noConfusion (notMarker.symm.trans isMarkerStartAt_close)
    obtain ⟨index, rfl⟩ := Nat.exists_eq_add_of_le isLater
    have isIndex : index ≤ body.length := Nat.le_of_add_le_add_left isBefore
    refine ⟨index, isIndex, rfl, ?_⟩
    rw [isBody] at isIndex ⊢
    refine Utf8.take_encode chars isIndex fun byte isByte => ?_
    have isInside : index < (Utf8.encode chars).length := (List.getElem?_eq_some_iff.mp isByte).1
    rw [isBody, framed_body isInside, isByte] at isBoundary
    exact isBoundary

theorem flatten_splitPasteInput {chars : List Char} {chunkBytes ceilingBytes : Nat}
    (isBody : body = Utf8.encode chars) (noEscape : 0x1b ∉ body) (isAbove : 6 ≤ ceilingBytes) :
    ∃ count, (splitPasteInput (framed body) chunkBytes ceilingBytes).flatten =
        framed (Utf8.encode (chars.take count)) ∧
      0x1b ∉ Utf8.encode (chars.take count) ∧
      ((framed body).length ≤ ceilingBytes → Utf8.encode (chars.take count) = body) := by
  unfold splitPasteInput
  split_ifs with isLong
  · obtain ⟨index, isIndex, isCut, count, isPrefix⟩ := cut_framed isBody noEscape isAbove isLong
    have noEscapeNow : 0x1b ∉ Utf8.encode (chars.take count) :=
      isPrefix ▸ fun isEscape => noEscape (List.mem_of_mem_take isEscape)
    have isShorter : 6 + index < (framed body).length := by
      rw [length_framed]
      omega
    refine ⟨count, ?_, noEscapeNow, fun isShort => absurd isLong (Nat.not_lt.mpr isShort)⟩
    simp only [isCut, take_framed isIndex, isPrefix, decide_eq_true isShorter,
      hasUnmatchedPasteOpener_opener noEscapeNow, Bool.and_self, if_true]
    have notNil : opener ++ Utf8.encode (chars.take count) ≠ [] := cons_ne_nil _ _
    rw [if_neg notNil, List.flatten_append, flatten_splitFrom _ _ _ _ _ (Nat.le_refl 0)]
    rfl
  · refine ⟨chars.length, ?_, ?_, fun _ => ?_⟩
    · have notNil : framed body ≠ [] := cons_ne_nil _ _
      simp only [take_length, ← isBody, Nat.lt_irrefl, decide_false, Bool.false_and,
        Bool.false_eq_true, if_false, append_nil]
      rw [if_neg notNil, flatten_splitFrom _ _ _ _ _ (Nat.le_refl 0)]
      rfl
    · rwa [take_length, ← isBody]
    · rw [take_length, isBody]

end

theorem isQueryReply_framed (body : Bytes) : isQueryReply (framed body) = false := by
  have noShape :
      (queryReplyShapes.any fun shape => (shape ((framed body).drop 2)).isSome) = false := rfl
  rw [isQueryReply, noShape, Bool.and_false]

theorem escape_notMem_textEncode {text : Text} (noEscape : ESCAPE ∉ text) :
    0x1b ∉ textEncode text := by
  intro isEscape
  obtain ⟨char, isChar, isByte⟩ := List.mem_flatMap.mp isEscape
  have isAscii := Utf8.mem_encodeChar_ascii (by decide) isByte
  obtain ⟨unit, isUnit, same⟩ :=
    Utf16.mem_of_mem_chars (by decide) (by decide) isChar isAscii
  have isEscapeUnit : unit = ESCAPE := UInt16.toNat_inj.mp same
  exact noEscape (isEscapeUnit ▸ isUnit)

theorem textEncode_start : textEncode bracketedPasteStart = opener := by decide

theorem textEncode_end : textEncode bracketedPasteEnd = pasteCloseMarker := by decide

theorem textEncode_buildPasteOutput (clipboardText : Text) :
    textEncode (buildPasteOutput clipboardText true) =
      framed (textEncode (pasted clipboardText)) := by
  have start (text : Text) : Utf16.chars (bracketedPasteStart ++ text) =
      Utf16.chars bracketedPasteStart ++ Utf16.chars text := rfl
  have output : buildPasteOutput clipboardText true =
      bracketedPasteStart ++ pasted clipboardText ++ bracketedPasteEnd := rfl
  rw [framed, ← textEncode_start, ← textEncode_end, output]
  unfold textEncode
  rw [Utf16.chars_append _ _ rfl, start]
  simp only [Utf8.encode, List.flatMap_append]

/-- What the queue writes of an input. -/
def writtenAs (data : Bytes) : Bytes :=
  if pasteDirectMaxBytes < data.length then
    (splitPasteInput data pasteChunkBytes pasteCeilingBytes).flatten
  else data

theorem framed_writtenAs (clipboardText : Text) :
    Framed clipboardText (writtenAs (textEncode (buildPasteOutput clipboardText true))) := by
  have noEscape : 0x1b ∉ textEncode (pasted clipboardText) :=
    escape_notMem_textEncode (escape_notMem_sanitize _)
  unfold Framed writtenAs
  rw [textEncode_start, textEncode_end, textEncode_buildPasteOutput]
  split_ifs
  · obtain ⟨count, isFramed, noEscapeNow, isWhole⟩ :=
      @flatten_splitPasteInput _ _ pasteChunkBytes pasteCeilingBytes rfl noEscape (by decide)
    exact ⟨_, count, isFramed, rfl, noEscapeNow, isWhole⟩
  · refine ⟨textEncode (pasted clipboardText), (Utf16.chars (pasted clipboardText)).length, rfl, ?_,
      noEscape, fun _ => rfl⟩
    rw [take_length]
    rfl

/-! ## The operations of the queue -/

@[simp] theorem bytesIn_append (paste : Nat) (first second : List Piece) :
    bytesIn paste (first ++ second) = bytesIn paste first ++ bytesIn paste second :=
  List.flatMap_append

@[simp] theorem bytesOf_append (paste : Nat) (first second : List Segment) :
    bytesOf paste (first ++ second) = bytesOf paste first ++ bytesOf paste second := by
  simp [bytesOf]

theorem bytesOf_cons (paste : Nat) (segment : Segment) (segments : List Segment) :
    bytesOf paste (segment :: segments) =
      bytesIn paste segment.pieces ++ bytesOf paste segments := by
  simp [bytesOf]

theorem length_bytesIn_le (paste : Nat) (pieces : List Piece) :
    (bytesIn paste pieces).length ≤ (pieces.map fun piece => piece.data.length).sum := by
  induction pieces with
  | nil => exact Nat.le_refl 0
  | cons piece pieces ih =>
    have isShare : (if piece.paste = some paste then piece.data else []).length ≤
        piece.data.length := by
      split_ifs
      · exact Nat.le_refl _
      · exact Nat.zero_le _
    simp only [bytesIn, List.flatMap_cons, length_append, map_cons, List.sum_cons]
    exact Nat.add_le_add isShare ih

/-- What is written for an input, of one paste. -/
def Piece.share (piece : Piece) (paste : Nat) (data : Bytes) : Bytes :=
  if piece.paste = some paste then data else []

theorem bytesIn_single (piece : Piece) (paste : Nat) :
    bytesIn paste [piece] = piece.share paste piece.data := by
  simp [bytesIn, Piece.share]

namespace PtyInputQueue

variable (queue : PtyInputQueue) (paste : Nat)

/-- The bytes of the paste, written or not. -/
def total : Bytes :=
  bytesOf paste queue.writes ++ bytesOf paste queue.fifo ++ bytesIn paste queue.pendingInteractive

theorem total_drainLoop : queue.drainLoop.total paste = queue.total paste := by
  unfold drainLoop
  split
  · rfl
  · rename_i segment fifo isFifo
    simp [total, isFifo, bytesOf]

theorem total_ensureDraining : queue.ensureDraining.total paste = queue.total paste := by
  unfold ensureDraining
  split_ifs
  · rfl
  · exact total_drainLoop queue paste

theorem total_flushPendingInteractive :
    queue.flushPendingInteractive.total paste = queue.total paste := by
  unfold flushPendingInteractive
  split_ifs with isEmpty
  · have noBytes : bytesIn paste queue.pendingInteractive = [] := by
      have isLess := length_bytesIn_le paste queue.pendingInteractive
      exact List.length_eq_zero_iff.mp (Nat.le_zero.mp (isEmpty ▸ isLess))
    simp only [total, noBytes]
    rfl
  · simp [total, bytesOf, bytesIn]

variable {piece : Piece}

theorem total_insertReplyAheadOfPaste (isOther : piece.paste = none) :
    (queue.insertReplyAheadOfPaste piece).total paste = queue.total paste := by
  have same : bytesOf paste (queue.insertReplyAheadOfPaste piece).fifo =
      bytesOf paste queue.fifo := by
    have split : queue.fifo.takeWhile (·.kind ≠ .paste) ++ queue.fifo.dropWhile (·.kind ≠ .paste) =
        queue.fifo := List.takeWhile_append_dropWhile
    have noBytes : bytesIn paste [piece] = [] := by simp [bytesIn, isOther]
    rw [insertReplyAheadOfPaste, bytesOf_append, bytesOf_cons, noBytes, List.nil_append,
      ← bytesOf_append, split]
  simp only [total, same]
  rfl

theorem total_pushPaste (nothingPending : queue.pendingInteractive = []) :
    (queue.pushPaste piece).total paste = queue.total paste ++ piece.share paste
      (splitPasteInput piece.data pasteChunkBytes pasteCeilingBytes).flatten := by
  have chunks (pieces : List Bytes) : bytesOf paste (pieces.map fun chunk =>
      ⟨.paste, [{ piece with data := chunk }]⟩) = piece.share paste pieces.flatten := by
    induction pieces with
    | nil => simp [bytesOf, bytesIn, Piece.share]
    | cons chunk pieces ih =>
      rw [map_cons, bytesOf_cons, ih, bytesIn_single]
      unfold Piece.share
      split_ifs
      · rw [flatten_cons]
      · rfl
  simp only [total, pushPaste, nothingPending, bytesOf_append, chunks]
  simp [bytesIn]

theorem total_makeRoom (size : Nat) : (queue.makeRoom size).total paste = queue.total paste := by
  unfold makeRoom
  split_ifs
  · rw [total_ensureDraining, total_flushPendingInteractive]
  · rfl

theorem total_appendInteractive : (queue.appendInteractive piece).total paste =
      queue.total paste ++ piece.share paste piece.data := by
  have appended (room : PtyInputQueue) :
      ({ room with pendingInteractive := room.pendingInteractive ++ [piece] }).total paste =
        room.total paste ++ piece.share paste piece.data := by
    simp [total, bytesIn_single]
  rw [← total_makeRoom queue paste piece.data.length, ← appended, appendInteractive]
  dsimp only
  split_ifs
  · rw [total_ensureDraining, total_flushPendingInteractive]
  · rfl

theorem flushPendingInteractive_pending :
    queue.flushPendingInteractive.pendingInteractive = [] := by
  unfold flushPendingInteractive
  split_ifs
  · rfl
  · rfl

theorem total_enqueue (notReply : isQueryReply piece.data = true → piece.paste = none) :
    (queue.enqueue piece).total paste =
      queue.total paste ++ piece.share paste (writtenAs piece.data) := by
  have noShare (isOther : piece.paste = none) (data : Bytes) : piece.share paste data = [] := by
    simp [Piece.share, isOther]
  unfold enqueue
  split_ifs with isEmpty isReply isLong
  · have noBytes : writtenAs piece.data = [] := by rw [isEmpty]; rfl
    rw [noBytes, Piece.share, ite_self, append_nil]
  · have isOther := notReply (Bool.and_eq_true_iff.mp isReply).1
    rw [total_ensureDraining, total_insertReplyAheadOfPaste queue paste isOther,
      noShare isOther, append_nil]
  · rw [total_ensureDraining, total_pushPaste _ paste (flushPendingInteractive_pending queue),
      total_flushPendingInteractive, writtenAs, if_pos isLong]
  · rw [total_appendInteractive, writtenAs, if_neg isLong]

theorem total_runScheduled : queue.runScheduled.total paste = queue.total paste := by
  unfold runScheduled
  rw [total_ensureDraining, total_flushPendingInteractive]
  rfl

end PtyInputQueue

/-- What is queued has a write in flight before it, and what is pending a microtask. -/
structure Awake (queue : PtyInputQueue) : Prop where
  draining : queue.fifo ≠ [] → queue.draining = true
  scheduled : queue.pendingInteractive ≠ [] → queue.interactiveScheduled = true

namespace PtyInputQueue

variable (queue : PtyInputQueue)

theorem awake_drainLoop (nothingPending : queue.pendingInteractive ≠ [] →
    queue.interactiveScheduled = true) : Awake queue.drainLoop := by
  unfold drainLoop
  split
  · rename_i isFifo
    exact ⟨absurd isFifo, nothingPending⟩
  · exact ⟨fun _ => rfl, nothingPending⟩

theorem awake_ensureDraining (nothingPending : queue.pendingInteractive ≠ [] →
    queue.interactiveScheduled = true) : Awake queue.ensureDraining := by
  unfold ensureDraining
  split_ifs with isDone
  · refine ⟨fun notNil => ?_, nothingPending⟩
    rcases Bool.or_eq_true_iff.mp isDone with isDraining | isNil
    · exact isDraining
    · exact absurd (of_decide_eq_true isNil) notNil
  · exact awake_drainLoop queue nothingPending

theorem ensureDraining_pending :
    queue.ensureDraining.pendingInteractive = queue.pendingInteractive := by
  unfold ensureDraining drainLoop
  split_ifs
  · rfl
  · split
    all_goals rfl

theorem awake_flush : Awake queue.flushPendingInteractive.ensureDraining :=
  awake_ensureDraining _ fun notNil => absurd (flushPendingInteractive_pending queue) notNil

end PtyInputQueue

variable {queue : PtyInputQueue}

theorem Awake.makeRoom (awake : Awake queue) (size : Nat) : Awake (queue.makeRoom size) := by
  unfold PtyInputQueue.makeRoom
  split_ifs
  · exact queue.awake_flush
  · exact awake

theorem Awake.enqueue (awake : Awake queue) (piece : Piece) : Awake (queue.enqueue piece) := by
  unfold PtyInputQueue.enqueue
  split_ifs
  · exact awake
  · exact PtyInputQueue.awake_ensureDraining _ awake.scheduled
  · exact PtyInputQueue.awake_ensureDraining _ fun notNil =>
      absurd queue.flushPendingInteractive_pending notNil
  · unfold PtyInputQueue.appendInteractive
    dsimp only
    split_ifs
    · exact PtyInputQueue.awake_flush _
    · exact ⟨(awake.makeRoom _).draining, fun _ => rfl⟩

structure Sound (sys : System) : Prop where
  totals : ∀ paste text, sys.pastes[paste]? = some text → sys.queue.total paste =
    writtenAs (textEncode (buildPasteOutput text true))
  unused : ∀ paste, sys.pastes.length ≤ paste → sys.queue.total paste = []
  awake : Awake sys.queue

theorem initial_sound : Sound initial where
  totals _ _ isPaste := by cases isPaste
  unused _ _ := rfl
  awake := ⟨absurd rfl, absurd rfl⟩

theorem Sound.same {sys : System} (sound : Sound sys)
    (totals : ∀ paste, queue.total paste = sys.queue.total paste) (awake : Awake queue) :
    Sound { sys with queue } where
  totals paste text isPaste := (totals paste).trans (sound.totals paste text isPaste)
  unused paste isUnused := (totals paste).trans (sound.unused paste isUnused)
  awake := awake

theorem Sound.pastes {sys : System} (sound : Sound sys) (text : Text)
    {piece : Piece} (isPiece : piece = ⟨some sys.pastes.length,
      textEncode (buildPasteOutput text true)⟩) :
    Sound ⟨sys.queue.enqueue piece, sys.pastes ++ [text]⟩ := by
  have notReply : isQueryReply piece.data = true → piece.paste = none := by
    intro isReply
    simp [isPiece, textEncode_buildPasteOutput, isQueryReply_framed] at isReply
  have totals (paste : Nat) := PtyInputQueue.total_enqueue sys.queue paste notReply
  have awake := sound.awake.enqueue piece
  subst isPiece
  refine ⟨fun paste other isPaste => ?_, fun paste isUnused => ?_, awake⟩
  · rw [totals]
    rcases Nat.lt_or_ge paste sys.pastes.length with isOlder | isNew
    · have wasPaste : sys.pastes[paste]? = some other := by
        rwa [List.getElem?_append_left isOlder] at isPaste
      have isOther : some sys.pastes.length ≠ some paste :=
        fun same => Nat.ne_of_lt isOlder (Option.some.inj same).symm
      rw [Piece.share, if_neg isOther, append_nil]
      exact sound.totals paste other wasPaste
    · have same : paste = sys.pastes.length := by
        have isWithin := (List.getElem?_eq_some_iff.mp isPaste).1
        rw [length_append, List.length_singleton] at isWithin
        omega
      subst same
      rw [List.getElem?_concat_length] at isPaste
      cases isPaste
      rw [sound.unused _ (Nat.le_refl _), Piece.share, if_pos rfl]
      rfl
  · rw [length_append, List.length_singleton] at isUnused
    have isOther : some sys.pastes.length ≠ some paste :=
      fun same => Nat.ne_of_lt isUnused (Option.some.inj same)
    rw [totals, Piece.share, if_neg isOther, append_nil]
    exact sound.unused paste (Nat.le_of_succ_le isUnused)

theorem step_sound {sys next : System} {label : Label} (sound : Sound sys)
    (intercepted : Intercepted sys label) (ran : step sys label = some next) : Sound next := by
  cases label with
  | input data =>
    cases ran
    refine sound.same (fun paste => ?_) (sound.awake.enqueue _)
    rw [PtyInputQueue.total_enqueue _ paste fun _ => rfl]
    exact append_nil _
  | paste text =>
    cases intercepted
    cases ran
    exact sound.pastes text rfl
  | microtask =>
    simp only [step] at ran
    split_ifs at ran
    cases ran
    exact sound.same (PtyInputQueue.total_runScheduled _) (PtyInputQueue.awake_flush _)
  | settled =>
    simp only [step] at ran
    split_ifs at ran
    cases ran
    exact sound.same (PtyInputQueue.total_drainLoop _)
      (PtyInputQueue.awake_drainLoop _ sound.awake.scheduled)

/-- The queue goes on by itself. -/
def Settles (_ : System) : Label → Prop
  | .microtask => True
  | .settled => True
  | _ => False

theorem drains (sys : System) (awake : Awake sys.queue)
    (nothingPending : sys.queue.pendingInteractive = []) :
    ∃ later, Run step Settles sys later ∧ Idle later := by
  obtain ⟨⟨fifo, pending, scheduled, draining, writes⟩, pastes⟩ := sys
  subst nothingPending
  induction fifo generalizing draining writes with
  | nil =>
    cases draining with
    | false => exact ⟨_, .refl, rfl, rfl, rfl⟩
    | true => exact ⟨_, .tail .settled .refl trivial rfl, rfl, rfl, rfl⟩
  | cons segment fifo ih =>
    have isDraining : draining = true := awake.draining (cons_ne_nil _ _)
    subst isDraining
    obtain ⟨later, run, isIdle⟩ := ih true (writes ++ [segment])
      ⟨fun _ => rfl, absurd rfl⟩
    exact ⟨later, Run.trans (.tail .settled .refl trivial rfl) run, isIdle⟩

theorem comes_idle (sys : System) (awake : Awake sys.queue) :
    ∃ later, Run step Settles sys later ∧ Idle later := by
  by_cases nothingPending : sys.queue.pendingInteractive = []
  · exact drains sys awake nothingPending
  · have ran : step sys .microtask =
        some { sys with queue := sys.queue.runScheduled } :=
      if_pos (awake.scheduled nothingPending)
    have flushed : sys.queue.runScheduled.pendingInteractive = [] :=
      (PtyInputQueue.ensureDraining_pending _).trans
        (PtyInputQueue.flushPendingInteractive_pending _)
    obtain ⟨later, run, isIdle⟩ := drains { sys with queue := sys.queue.runScheduled }
      (PtyInputQueue.awake_flush _) flushed
    exact ⟨later, Run.trans (.tail .microtask .refl trivial ran) run, isIdle⟩

/-- While no paste is left to xterm, what is written of a paste is a part of its frame from the
left, and all of it once nothing is left to write, as it comes to be when the writes settle. -/
theorem pasteFramed {finish : System} (run : Run step Intercepted initial finish) {paste : Nat}
    {text : Text} (isPaste : finish.pastes[paste]? = some text) :
    ∃ output, Framed text output ∧ bytesOf paste finish.queue.writes <+: output ∧
      (Idle finish → bytesOf paste finish.queue.writes = output) ∧
      ∃ later, Run step Settles finish later ∧ Idle later := by
  have sound : Sound finish := run.invariant initial_sound
    fun _ _ _ sound intercepted ran => step_sound sound intercepted ran
  have total := sound.totals paste text isPaste
  refine ⟨_, framed_writtenAs text, ?_, fun isIdle => ?_, comes_idle finish sound.awake⟩
  · rw [← total, PtyInputQueue.total, append_assoc]
    exact List.prefix_append _ _
  · obtain ⟨noSegment, nothingPending, _⟩ := isIdle
    rw [← total, PtyInputQueue.total, noSegment, nothingPending]
    simp [bytesOf, bytesIn]

/-- A closing marker in the clipboard. -/
def hostile : Text := [0x61] ++ bracketedPasteEnd ++ [0x0a]

theorem pasteFramed_hostile : ∃ finish, Run step Intercepted initial finish ∧ Idle finish ∧
      bytesOf 0 finish.queue.writes = opener ++
        [0x61, 0xe2, 0x90, 0x9b, 0x5b, 0x32, 0x30, 0x31, 0x7e, 0x0d] ++ pasteCloseMarker ∧
      ∃ output, Framed hostile output ∧ bytesOf 0 finish.queue.writes = output := by
  let labels : List Label := [.paste hostile false, .microtask, .settled]
  obtain ⟨finish, replayed, isIdle, isPaste, isWritten⟩ :
      ∃ finish, execute step initial labels = some finish ∧
        Idle finish ∧ finish.pastes[0]? = some hostile ∧ bytesOf 0 finish.queue.writes = opener ++
          [0x61, 0xe2, 0x90, 0x9b, 0x5b, 0x32, 0x30, 0x31, 0x7e, 0x0d] ++ pasteCloseMarker :=
    ⟨_, rfl, ⟨rfl, rfl, rfl⟩, rfl, by decide⟩
  have run : Run step Intercepted initial finish := run_of_execute labels replayed
    (by simp [labels, Intercepted])
  obtain ⟨output, isFramed, _, isWhole, _⟩ := pasteFramed run isPaste
  exact ⟨finish, run, isIdle, isWritten, output, isFramed, isWhole isIdle⟩

/-- xterm's own paste lets the closing marker through. -/
theorem not_pasteFramed : ¬∀ finish, Reachable step initial finish → ∀ (paste : Nat) text,
    finish.pastes[paste]? = some text →
      ∃ output, Framed text output ∧ bytesOf paste finish.queue.writes <+: output := by
  intro areFramed
  obtain ⟨finish, replayed, isPaste, isWritten⟩ :
      ∃ finish, execute step initial [.paste hostile true, .microtask] = some finish ∧
        finish.pastes[0]? = some hostile ∧ bytesOf 0 finish.queue.writes =
          opener ++ 0x61 :: pasteCloseMarker ++ 0x0d :: pasteCloseMarker :=
    ⟨_, rfl, rfl, by decide⟩
  obtain ⟨_, ⟨body, count, rfl, _, noEscape, _⟩, isPrefix⟩ :=
    areFramed finish (reachable_of_execute _ replayed) 0 hostile isPaste
  rw [isWritten, textEncode_start, textEncode_end, append_assoc, append_assoc,
    List.prefix_append_right_inj] at isPrefix
  -- The first escape behind the opener would be in the body, or the frame end with it.
  cases body with
  | nil => cases (List.cons_prefix_cons.mp isPrefix).1
  | cons first rest =>
    have isPrefix := (List.cons_prefix_cons.mp isPrefix).2
    cases rest with
    | nil => exact absurd isPrefix.length_le (by decide)
    | cons second rest =>
      obtain rfl := (List.cons_prefix_cons.mp isPrefix).1
      simp at noEscape

end AiTools.Terminal.InputQueue
