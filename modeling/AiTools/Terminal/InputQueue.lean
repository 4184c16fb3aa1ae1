import Mathlib
import AiTools.Lib.Transition
import AiTools.Terminal.BracketedPaste

/-!
Contract: the input queue of a terminal (`terminal-input-queue.ts`).

Beside the code's state each input says which paste it is, and the writes that were issued are
recorded; a write that is rejected is reported and the loop goes on.
-/

namespace AiTools.Terminal.InputQueue

open AiTools.Lib AiTools.Terminal.BracketedPaste

abbrev Bytes := List UInt8

def coalesceMax : Nat := 4096

def pasteDirectMaxBytes : Nat := 64 * 1024

def pasteChunkBytes : Nat := 16 * 1024

def pasteCeilingBytes : Nat := 8 * 1024 * 1024

def isDigit (byte : UInt8) : Bool := 0x30 ≤ byte && byte ≤ 0x39

/-- `\d+`; no digit follows it in any of the shapes. -/
def afterDigits (bytes : Bytes) : Option Bytes :=
  if bytes.takeWhile isDigit = [] then none else some (bytes.dropWhile isDigit)

def expect (byte : UInt8) : Bytes → Option Bytes
  | [] => none
  | first :: rest => if first = byte then some rest else none

def atEnd (bytes : Bytes) : Option Bytes := if bytes = [] then some [] else none

/-- `[\d;]*`. -/
def afterParameters (bytes : Bytes) : Bytes :=
  bytes.dropWhile fun byte => isDigit byte || byte = 0x3b

/-- The alternatives of `QUERY_REPLY_BODY_RE`. -/
def queryReplyShapes : List (Bytes → Option Bytes) :=
  [fun body => afterDigits body >>= expect 0x3b >>= afterDigits >>= expect 0x52 >>= atEnd,
    fun body => expect 0x3f body >>= afterDigits >>= expect 0x3b >>= afterDigits >>= expect 0x3b >>=
      afterDigits >>= expect 0x52 >>= atEnd,
    fun body => (expect 0x3f body).map afterParameters >>= expect 0x63 >>= atEnd,
    fun body => (expect 0x3e body).map afterParameters >>= expect 0x63 >>= atEnd,
    fun body => expect 0x30 body >>= expect 0x6e >>= atEnd]

def isQueryReply (bytes : Bytes) : Bool :=
  4 ≤ bytes.length && bytes.length < 64 && bytes.take 2 == [0x1b, 0x5b] &&
    (bytes.drop 2).all (· < 0x80) &&
    queryReplyShapes.any fun shape => (shape (bytes.drop 2)).isSome

/-- An index beyond the end reads `undefined`. -/
def isMarkerStartAt (bytes : Bytes) (index : Nat) : Bool :=
  bytes[index]? == some 0x1b && bytes[index + 1]? == some 0x5b && bytes[index + 2]? == some 0x32 &&
    bytes[index + 3]? == some 0x30 &&
    (bytes[index + 4]? == some 0x30 || bytes[index + 4]? == some 0x31) &&
    bytes[index + 5]? == some 0x7e

def utf8CodePointLength (lead : UInt8) : Nat :=
  if lead < 0x80 then 1
  else if lead &&& 0xe0 = 0xc0 then 2
  else if lead &&& 0xf0 = 0xe0 then 3
  else if lead &&& 0xf8 = 0xf0 then 4
  else 1

/-- The loop of `utf8BoundaryAtOrBefore`. -/
def backToBoundary (bytes : Bytes) : Nat → Nat
  | 0 => 0
  | cut + 1 =>
    if bytes[cut + 1]?.any Utf8.isContinuation then backToBoundary bytes cut else cut + 1

def utf8BoundaryAtOrBefore (bytes : Bytes) (limit : Nat) : Nat :=
  backToBoundary bytes (min limit bytes.length)

/-- How far before the cut a marker starts that goes beyond it. -/
def straddled? (isMarker : Nat → Bool) (cut : Nat) : Option Nat :=
  [1, 2, 3, 4, 5].findSome? fun distance =>
    if distance ≤ cut ∧ isMarker (cut - distance) then some (cut - distance) else none

def markerSafeCut (bytes : Bytes) (cut : Nat) : Nat :=
  (straddled? (isMarkerStartAt bytes) cut).getD cut

/-- `ESC[201~`. -/
def pasteCloseMarker : Bytes := [0x1b, 0x5b, 0x32, 0x30, 0x31, 0x7e]

/-- The loop of `hasUnmatchedPasteOpener`; `skip` bytes belong to a marker that was counted. -/
def pasteBalance : Nat → Bytes → Int
  | _, [] => 0
  | skip + 1, _ :: rest => pasteBalance skip rest
  | 0, byte :: rest =>
    if isMarkerStartAt (byte :: rest) 0 then
      (if (byte :: rest)[4]? = some 0x30 then 1 else -1) + pasteBalance 5 rest
    else pasteBalance 0 rest

def hasUnmatchedPasteOpener (data : Bytes) : Bool := 0 < pasteBalance 0 data

def subarray (data : Bytes) (start finish : Nat) : Bytes := (data.drop start).take (finish - start)

/-- A marker of the data that starts at the chunk rides alone, any other leads the next chunk. -/
def adjustBreak (data : Bytes) (index chunkStart : Nat) : Nat :=
  match straddled? (fun start => chunkStart ≤ start ∧ isMarkerStartAt data start) index with
  | some start => if start = chunkStart then start + 6 else start
  | none => index

theorem utf8CodePointLength_pos (lead : UInt8) : 0 < utf8CodePointLength lead := by
  unfold utf8CodePointLength
  split_ifs
  all_goals decide

/-- The loop of `splitPasteInput`. -/
def splitFrom (data : Bytes) (chunkBytes chunkStart index curBytes : Nat) : List Bytes :=
  if isInside : index < data.length then
    let length := utf8CodePointLength data[index]
    if 0 < curBytes ∧ chunkBytes < curBytes + length then
      let next := adjustBreak data index chunkStart
      subarray data chunkStart next :: if index < next then splitFrom data chunkBytes next next 0
        else splitFrom data chunkBytes next (index + length) (index - next + length)
    else splitFrom data chunkBytes chunkStart (index + length) (curBytes + length)
  else if chunkStart < data.length then [data.drop chunkStart]
  else []
termination_by data.length - index
decreasing_by
  all_goals
    have isLonger := utf8CodePointLength_pos data[index]
    omega

def splitPasteInput (input : Bytes) (chunkBytes ceilingBytes : Nat) : List Bytes :=
  let finish :=
    if ceilingBytes < input.length then
      markerSafeCut input (utf8BoundaryAtOrBefore input ceilingBytes)
    else input.length
  let data := input.take finish
  if data = [] then []
  else
    splitFrom data chunkBytes 0 0 0 ++
      if finish < input.length && hasUnmatchedPasteOpener data then [pasteCloseMarker] else []

inductive SegmentKind where
  | interactive
  | paste
  | reply
deriving DecidableEq

/-- A part of an input; `paste` has the number of the paste that it comes from. -/
structure Piece where
  paste : Option Nat
  data : Bytes

structure Segment where
  kind : SegmentKind
  pieces : List Piece

structure PtyInputQueue where
  fifo : List Segment
  pendingInteractive : List Piece
  interactiveScheduled : Bool
  draining : Bool
  writes : List Segment

namespace PtyInputQueue

def pendingInteractiveBytes (queue : PtyInputQueue) : Nat :=
  (queue.pendingInteractive.map fun piece => piece.data.length).sum

/-- The drain loop up to its next `await`. -/
def drainLoop (queue : PtyInputQueue) : PtyInputQueue :=
  match queue.fifo with
  | [] => { queue with draining := false }
  | segment :: fifo =>
    { queue with fifo, draining := true, writes := queue.writes ++ [segment] }

def ensureDraining (queue : PtyInputQueue) : PtyInputQueue :=
  if queue.draining || queue.fifo = [] then queue else queue.drainLoop

def flushPendingInteractive (queue : PtyInputQueue) : PtyInputQueue :=
  if queue.pendingInteractiveBytes = 0 then { queue with pendingInteractive := [] }
  else
    { queue with
      fifo := queue.fifo ++ [⟨.interactive, queue.pendingInteractive⟩]
      pendingInteractive := [] }

def hasPendingPasteChunk (queue : PtyInputQueue) : Bool := queue.fifo.any (·.kind = .paste)

/-- Behind what is queued before the first chunk of a paste. -/
def insertReplyAheadOfPaste (queue : PtyInputQueue) (piece : Piece) : PtyInputQueue :=
  { queue with
    fifo := queue.fifo.takeWhile (·.kind ≠ .paste) ++ ⟨.reply, [piece]⟩ ::
      queue.fifo.dropWhile (·.kind ≠ .paste) }

/-- A chunk that would go above the cap is not coalesced with what is pending. -/
def makeRoom (queue : PtyInputQueue) (size : Nat) : PtyInputQueue :=
  if 0 < queue.pendingInteractiveBytes ∧ coalesceMax < queue.pendingInteractiveBytes + size then
    queue.flushPendingInteractive.ensureDraining
  else queue

def appendInteractive (queue : PtyInputQueue) (piece : Piece) : PtyInputQueue :=
  let room := queue.makeRoom piece.data.length
  let appended := { room with pendingInteractive := room.pendingInteractive ++ [piece] }
  if coalesceMax ≤ appended.pendingInteractiveBytes then
    appended.flushPendingInteractive.ensureDraining
  else { appended with interactiveScheduled := true }

/-- The chunks of a paste, behind what is queued. -/
def pushPaste (queue : PtyInputQueue) (piece : Piece) : PtyInputQueue :=
  { queue with
    fifo := queue.fifo ++ (splitPasteInput piece.data pasteChunkBytes pasteCeilingBytes).map
        fun chunk => ⟨.paste, [{ piece with data := chunk }]⟩ }

def enqueue (queue : PtyInputQueue) (piece : Piece) : PtyInputQueue :=
  if piece.data = [] then queue
  else if isQueryReply piece.data && queue.hasPendingPasteChunk then
    (queue.insertReplyAheadOfPaste piece).ensureDraining
  else if pasteDirectMaxBytes < piece.data.length then
    (queue.flushPendingInteractive.pushPaste piece).ensureDraining
  else queue.appendInteractive piece

/-- The microtask that `appendInteractive` has scheduled. -/
def runScheduled (queue : PtyInputQueue) : PtyInputQueue :=
  ({ queue with interactiveScheduled := false }).flushPendingInteractive.ensureDraining

end PtyInputQueue

structure System where
  queue : PtyInputQueue
  pastes : List Text

inductive Label where
  /-- What is typed, and what the emulator sends. -/
  | input (data : Bytes)
  /-- A text is pasted while the bracketed-paste mode is on. -/
  | paste (clipboardText : Text) (isComposing : Bool)
  | microtask
  /-- The write in flight is resolved or rejected. -/
  | settled

def step (sys : System) : Label → Option System
  | .input data => some { sys with queue := sys.queue.enqueue ⟨none, data⟩ }
  | .paste clipboardText isComposing =>
    some
      { queue := sys.queue.enqueue
          ⟨some sys.pastes.length, textEncode (pasteOutput clipboardText isComposing)⟩
        pastes := sys.pastes ++ [clipboardText] }
  | .microtask =>
    if sys.queue.interactiveScheduled then
      some { sys with queue := sys.queue.runScheduled }
    else none
  | .settled =>
    if sys.queue.draining then some { sys with queue := sys.queue.drainLoop } else none

def initial : System := ⟨⟨[], [], false, false, []⟩, []⟩

/-- No paste is left to xterm. -/
def Intercepted (_ : System) : Label → Prop
  | .paste _ isComposing => isComposing = false
  | _ => True

/-- The bytes of the paste among these pieces. -/
def bytesIn (paste : Nat) (pieces : List Piece) : Bytes :=
  pieces.flatMap fun piece => if piece.paste = some paste then piece.data else []

def bytesOf (paste : Nat) (segments : List Segment) : Bytes :=
  bytesIn paste (segments.flatMap Segment.pieces)

/-- What the text is pasted as, before the frame. -/
def pasted (clipboardText : Text) : Text :=
  sanitizeBracketedPasteText (normalizePasteNewlines clipboardText)

/-- A frame around the sanitised text, or around a prefix of it that is cut at a code point. -/
def Framed (clipboardText : Text) (output : Bytes) : Prop :=
  ∃ body count,
    output = textEncode bracketedPasteStart ++ body ++ textEncode bracketedPasteEnd ∧
    body = Utf8.encode ((Utf16.chars (pasted clipboardText)).take count) ∧ 0x1b ∉ body ∧
    ((textEncode (buildPasteOutput clipboardText true)).length ≤ pasteCeilingBytes →
      body = textEncode (pasted clipboardText))

/-- Nothing is left to write. -/
def Idle (sys : System) : Prop :=
  sys.queue.fifo = [] ∧ sys.queue.pendingInteractive = [] ∧ sys.queue.draining = false

end AiTools.Terminal.InputQueue
