import AiTools.Lib.TaggedFrames
import Mathlib.Data.UInt

/-!
Contract: the framed incremental log `output.log` of the terminal history.
-/

namespace AiTools.Daemon.History

open AiTools.Lib
open AiTools.Lib.TaggedFrames

/-- `GCKL`, the magic of the stream codec. -/
def streamFrameMagic : List UInt8 := [0x47, 0x43, 0x4b, 0x4c]

def logHeaderBytes : Nat := 9
def logFormatVersion : UInt8 := 1
def frameBatch : UInt8 := 0x01
def frameOutput : UInt8 := 0x02
def frameResize : UInt8 := 0x03
def frameClear : UInt8 := 0x04
def defaultLogMaxBytes : Nat := 256 * 1024

inductive HistoryRecord where
  | output (bytes : List UInt8)
  | resize (cols rows : UInt16)
  | clear

def HistoryRecord.outputBytes : HistoryRecord → UInt64
  | .output bytes => UInt64.ofNat bytes.length
  | _ => 0

/-- `records.iter().map(HistoryRecord::output_bytes).sum()`. -/
def recordsOutputBytes (records : List HistoryRecord) : UInt64 :=
  (records.map HistoryRecord.outputBytes).sum

@[simp] theorem recordsOutputBytes_nil : recordsOutputBytes [] = 0 := rfl

@[simp] theorem recordsOutputBytes_cons (record : HistoryRecord) (rest : List HistoryRecord) :
    recordsOutputBytes (record :: rest) = record.outputBytes + recordsOutputBytes rest := by
  simp [recordsOutputBytes]

@[simp] theorem recordsOutputBytes_append (left right : List HistoryRecord) :
    recordsOutputBytes (left ++ right) = recordsOutputBytes left + recordsOutputBytes right := by
  simp [recordsOutputBytes]

/-- The record's payload length fits the `u32` of its frame. The pending buffer
that the records come from holds at most 2 MiB. -/
def HistoryRecord.Encodable : HistoryRecord → Prop
  | .output bytes => bytes.length < 2 ^ 32
  | _ => True

structure LogBatch where
  seq : UInt64
  records : List HistoryRecord

def LogBatch.Encodable (batch : LogBatch) : Prop :=
  ∀ record ∈ batch.records, record.Encodable

structure DecodedLog where
  generation : UInt32
  batches : List LogBatch
  truncatedTail : Bool

def encodeLogHeader (generation : UInt32) : List UInt8 :=
  streamFrameMagic ++ logFormatVersion :: LittleEndian.encode 4 generation.toNat

/-- The generation of a readable header. -/
def decodeLogHeader (buf : List UInt8) : Option UInt32 :=
  if buf.length < logHeaderBytes then none
  else if buf.take 4 ≠ streamFrameMagic ∨ buf[4]? ≠ some logFormatVersion then none
  else some (UInt32.ofNat (LittleEndian.decode ((buf.drop 5).take 4)))

def pushFrame (out : List UInt8) (kind : UInt8) (payload : List UInt8) : List UInt8 :=
  out ++ encodeFrame ⟨kind, payload⟩

def pushRecord (out : List UInt8) : HistoryRecord → List UInt8
  | .output bytes => pushFrame out frameOutput bytes
  | .resize cols rows =>
    pushFrame out frameResize
      (LittleEndian.encode 2 cols.toNat ++ LittleEndian.encode 2 rows.toNat)
  | .clear => pushFrame out frameClear []

/-- A leading `Batch(seq)` frame, then one frame per record. -/
def encodeLogBatch (seq : UInt64) (records : List HistoryRecord) : List UInt8 :=
  records.foldl pushRecord (pushFrame [] frameBatch (LittleEndian.encode 8 seq.toNat))

/-- The decoder's loop variables: the finished batches, the open one, and the
cumulative Output bytes of the finished ones. -/
structure DecodeState where
  batches : List LogBatch
  current : Option LogBatch
  running : UInt64

def DecodeState.start : DecodeState := ⟨[], none, 0⟩

/-- Close the open batch, checking its byte accounting. -/
def closeBatch (state : DecodeState) : Option DecodeState :=
  match state.current with
  | none => some state
  | some prev =>
    -- A seq gap: a range was lost, so the whole log is dropped.
    if prev.seq ≠ state.running + recordsOutputBytes prev.records then none
    else some ⟨state.batches ++ [prev], none, prev.seq⟩

def LogBatch.push (batch : LogBatch) (record : HistoryRecord) : LogBatch :=
  { batch with records := batch.records ++ [record] }

/-- The body of the decoder's loop, for one complete frame. -/
def onFrame (state : DecodeState) (kind : UInt8) (payload : List UInt8) : Option DecodeState :=
  if kind = frameBatch then
    if payload.length ≠ 8 then none
    else
      match closeBatch state with
      | none => none
      | some closed =>
        some { closed with
          current := some ⟨UInt64.ofNat (LittleEndian.decode payload), []⟩ }
  else
    match state.current with
    | none => none
    | some cur =>
      if kind = frameOutput then
        some { state with current := some (cur.push (.output payload)) }
      else if kind = frameResize then
        if payload.length ≠ 4 then none
        else
          some { state with
            current := some (cur.push (.resize
              (UInt16.ofNat (LittleEndian.decode (payload.take 2)))
              (UInt16.ofNat (LittleEndian.decode (payload.drop 2))))) }
      else if kind = frameClear then
        some { state with current := some (cur.push .clear) }
      else none

def decodeLog (buf : List UInt8) : Option DecodedLog :=
  match decodeLogHeader buf with
  | none => none
  | some generation =>
    match scan onFrame (buf.drop logHeaderBytes) .start with
    | none => none
    | some (state, truncatedTail) =>
      match closeBatch state with
      | none => none
      | some closed => some ⟨generation, closed.batches, truncatedTail⟩

def recordFrame : HistoryRecord → Frame
  | .output bytes => ⟨frameOutput, bytes⟩
  | .resize cols rows =>
    ⟨frameResize, LittleEndian.encode 2 cols.toNat ++ LittleEndian.encode 2 rows.toNat⟩
  | .clear => ⟨frameClear, []⟩

def seqFrame (seq : UInt64) : Frame := ⟨frameBatch, LittleEndian.encode 8 seq.toNat⟩

def LogBatch.frames (batch : LogBatch) : List Frame :=
  seqFrame batch.seq :: batch.records.map recordFrame

def encodeBatches (batches : List LogBatch) : List UInt8 :=
  batches.flatMap fun batch => encodeLogBatch batch.seq batch.records

/-- The bytes of a log of one generation. -/
def encodeLog (generation : UInt32) (batches : List LogBatch) : List UInt8 :=
  encodeLogHeader generation ++ encodeBatches batches

theorem encodeLogBatch_frames (seq : UInt64) (records : List HistoryRecord) :
    encodeLogBatch seq records = encodeFrames (LogBatch.frames ⟨seq, records⟩) := by
  have folded : ∀ (pending : List HistoryRecord) (out : List UInt8),
      pending.foldl pushRecord out = out ++ encodeFrames (pending.map recordFrame) := by
    intro pending
    induction pending with
    | nil => simp
    | cons record rest ih =>
      intro out
      rw [List.foldl_cons, ih]
      cases record <;> simp [pushRecord, pushFrame, recordFrame]
  rw [encodeLogBatch, folded]
  simp [pushFrame, LogBatch.frames, seqFrame]

@[simp] theorem encodeBatches_nil : encodeBatches [] = [] := rfl

@[simp] theorem encodeBatches_cons (batch : LogBatch) (rest : List LogBatch) :
    encodeBatches (batch :: rest) = encodeFrames batch.frames ++ encodeBatches rest := by
  simp [encodeBatches, encodeLogBatch_frames]

@[simp] theorem encodeBatches_append (left right : List LogBatch) :
    encodeBatches (left ++ right) = encodeBatches left ++ encodeBatches right := by
  simp [encodeBatches]

theorem encodeBatches_frames (batches : List LogBatch) :
    encodeBatches batches = encodeFrames (batches.flatMap LogBatch.frames) := by
  induction batches with
  | nil => rfl
  | cons batch rest ih =>
    rw [encodeBatches_cons, ih, List.flatMap_cons, encodeFrames_append]

theorem seqFrame_fits (seq : UInt64) : (seqFrame seq).Fits := by
  simp [seqFrame, Frame.Fits]

theorem recordFrame_fits {record : HistoryRecord} (encodable : record.Encodable) :
    (recordFrame record).Fits := by
  cases record with
  | output bytes => exact encodable
  | resize cols rows | clear => simp [recordFrame, Frame.Fits]

theorem LogBatch.frames_fit {batch : LogBatch} (encodable : batch.Encodable) :
    ∀ frame ∈ batch.frames, frame.Fits := by
  intro frame member
  simp only [LogBatch.frames, List.mem_cons, List.mem_map] at member
  rcases member with rfl | ⟨record, recordMember, rfl⟩
  · exact seqFrame_fits batch.seq
  · exact recordFrame_fits (encodable record recordMember)

@[simp] theorem encodeLogHeader_length (generation : UInt32) :
    (encodeLogHeader generation).length = logHeaderBytes := by
  simp [encodeLogHeader, streamFrameMagic, logHeaderBytes]

theorem decodeLogHeader_encodeLogHeader (generation : UInt32) (rest : List UInt8) :
    decodeLogHeader (encodeLogHeader generation ++ rest) = some generation := by
  have small : generation.toNat < 256 ^ 4 := by
    have bound := generation.toNat_lt
    omega
  have taken : (((encodeLogHeader generation ++ rest).drop 5).take 4) =
      LittleEndian.encode 4 generation.toNat := by
    have length : (LittleEndian.encode 4 generation.toNat).length = 4 := by simp
    simp only [encodeLogHeader, streamFrameMagic, List.cons_append, List.nil_append,
      List.drop_succ_cons, List.drop_zero]
    rw [List.take_append_of_le_length (by omega), List.take_of_length_le (by omega)]
  unfold decodeLogHeader
  rw [if_neg (by simp), if_neg (by simp [encodeLogHeader, streamFrameMagic]), taken,
    LittleEndian.decode_encode_of_lt small]
  simp

theorem onFrame_recordFrame (state : DecodeState) (cur : LogBatch) (record : HistoryRecord)
    (isOpen : state.current = some cur) :
    onFrame state (recordFrame record).kind (recordFrame record).payload =
      some { state with current := some (cur.push record) } := by
  cases record with
  | output bytes =>
    simp [onFrame, recordFrame, isOpen, frameOutput, frameBatch]
  | resize cols rows =>
    have colsFit : cols.toNat < 256 ^ 2 := by
      have bound := cols.toNat_lt
      omega
    have rowsFit : rows.toNat < 256 ^ 2 := by
      have bound := rows.toNat_lt
      omega
    simp [onFrame, recordFrame, isOpen, frameResize, frameOutput, frameBatch,
      LittleEndian.decode_encode_of_lt colsFit, LittleEndian.decode_encode_of_lt rowsFit]
  | clear =>
    simp [onFrame, recordFrame, isOpen, frameResize, frameOutput, frameBatch, frameClear]

/-- The client fold of `scan`, over frames. -/
def foldFrames (frames : List Frame) (state : DecodeState) : Option DecodeState :=
  frames.foldlM (fun current frame => onFrame current frame.kind frame.payload) state

theorem foldFrames_append (left right : List Frame) (state : DecodeState) :
    foldFrames (left ++ right) state = (foldFrames left state).bind (foldFrames right) := by
  simp only [foldFrames, List.foldlM_append]
  rfl

theorem foldFrames_records (records : List HistoryRecord) (state : DecodeState)
    (cur : LogBatch) (isOpen : state.current = some cur) :
    foldFrames (records.map recordFrame) state =
      some { state with current := some { cur with records := cur.records ++ records } } := by
  induction records generalizing state cur with
  | nil => simp [foldFrames, ← isOpen]
  | cons record rest ih =>
    have ran := onFrame_recordFrame state cur record isOpen
    have later := ih
      { state with current := some (cur.push record) } (cur.push record) rfl
    simp only [foldFrames, List.map_cons, List.foldlM_cons, ran] at later ⊢
    rw [Option.bind_eq_bind, Option.bind_some, later]
    simp [LogBatch.push]

theorem foldFrames_batch (state : DecodeState) (batch : LogBatch) : foldFrames batch.frames state =
      (closeBatch state).bind fun closed => some { closed with current := some batch } := by
  have seqFits : batch.seq.toNat < 256 ^ 8 := by
    have bound := batch.seq.toNat_lt
    omega
  have opened : onFrame state (seqFrame batch.seq).kind (seqFrame batch.seq).payload =
      (closeBatch state).bind fun closed =>
        some { closed with current := some ⟨batch.seq, []⟩ } := by
    simp only [onFrame, seqFrame, if_true, LittleEndian.encode_length,
      LittleEndian.decode_encode_of_lt seqFits]
    cases closeBatch state <;> simp
  rw [LogBatch.frames, show seqFrame batch.seq :: batch.records.map recordFrame =
    [seqFrame batch.seq] ++ batch.records.map recordFrame from rfl, foldFrames_append]
  have first : foldFrames [seqFrame batch.seq] state = (closeBatch state).bind fun closed =>
      some { closed with current := some ⟨batch.seq, []⟩ } := by
    simp [foldFrames, opened]
  rw [first]
  cases closeBatch state with
  | none => rfl
  | some closed =>
    simp only [Option.bind_some]
    rw [foldFrames_records batch.records _ ⟨batch.seq, []⟩ rfl]
    simp

/-- Sequence accounting: every batch's `seq` is the running Output-byte total
behind it. -/
def SeqConsistent : UInt64 → List LogBatch → Prop
  | _, [] => True
  | running, batch :: rest =>
    batch.seq = running + recordsOutputBytes batch.records ∧ SeqConsistent batch.seq rest

instance seqConsistentDecidable : ∀ (running : UInt64) (batches : List LogBatch),
    Decidable (SeqConsistent running batches)
  | _, [] => isTrue trivial
  | _, batch :: rest =>
    have : Decidable (SeqConsistent batch.seq rest) :=
      seqConsistentDecidable batch.seq rest
    inferInstanceAs (Decidable (_ ∧ _))

/-- Folding whole batches and closing the last one accepts exactly the
consistent batch lists. The induction moves the open batch of one step into the
close of the next. -/
theorem foldFrames_batches (batches : List LogBatch) (state : DecodeState) :
    ((foldFrames (batches.flatMap LogBatch.frames) state).bind closeBatch).map
        DecodeState.batches =
      (closeBatch state).bind fun closed =>
        if SeqConsistent closed.running batches then some (closed.batches ++ batches)
        else none := by
  induction batches generalizing state with
  | nil =>
    cases closing : closeBatch state with
    | none => simp [foldFrames, closing]
    | some closed => simp [foldFrames, closing, SeqConsistent]
  | cons batch rest ih =>
    rw [List.flatMap_cons, foldFrames_append, foldFrames_batch]
    cases closeBatch state with
    | none => rfl
    | some closed =>
      simp only [Option.bind_some]
      rw [ih]
      by_cases accounted : batch.seq = closed.running + recordsOutputBytes batch.records
      · simp [closeBatch, SeqConsistent, ← accounted]
      · simp [closeBatch, SeqConsistent, accounted]

/-- What is left of a frame when its write was cut: nothing, or a proper part. -/
structure TornFrame where
  frame : Frame
  fits : frame.Fits
  part : Nat
  inside : part < (encodeFrame frame).length

def TornFrame.bytes (torn : TornFrame) : List UInt8 := (encodeFrame torn.frame).take torn.part

theorem scan_tornFrame (torn : TornFrame) (state : DecodeState) :
    scan onFrame torn.bytes state = some (state, decide (0 < torn.part)) := by
  by_cases positive : 0 < torn.part
  · rw [TornFrame.bytes, scan_torn onFrame torn.fits positive torn.inside]
    simp [positive]
  · have empty : torn.part = 0 := by omega
    simp [TornFrame.bytes, empty]

/-- The exact result of decoding: a log of whole batches with a torn frame
behind them is accepted if and only if its sequence numbers are consistent, and
then gives exactly those batches. -/
theorem decodeLog_torn (generation : UInt32) (batches : List LogBatch)
    (encodable : ∀ batch ∈ batches, batch.Encodable) (torn : TornFrame) :
    decodeLog (encodeLog generation batches ++ torn.bytes) = if SeqConsistent 0 batches then
        some ⟨generation, batches, decide (0 < torn.part)⟩
      else none := by
  have fits : ∀ frame ∈ batches.flatMap LogBatch.frames, frame.Fits := by
    intro frame member
    obtain ⟨batch, batchMember, frameMember⟩ := List.mem_flatMap.mp member
    exact batch.frames_fit (encodable batch batchMember) frame frameMember
  have scanned : scan onFrame (encodeBatches batches ++ torn.bytes) .start =
      (foldFrames (batches.flatMap LogBatch.frames) .start).bind fun state =>
        some (state, decide (0 < torn.part)) := by
    rw [encodeBatches_frames, scan_encodeFrames onFrame fits]
    exact congrArg _ (funext (scan_tornFrame torn))
  have dropped : (encodeLog generation batches ++ torn.bytes).drop logHeaderBytes =
      encodeBatches batches ++ torn.bytes := by
    rw [encodeLog, List.append_assoc, List.drop_append, List.drop_of_length_le (by simp)]
    simp
  have folded := foldFrames_batches batches .start
  rw [show closeBatch .start = some .start from rfl, Option.bind_some] at folded
  rw [decodeLog, dropped, scanned, encodeLog, List.append_assoc, decodeLogHeader_encodeLogHeader]
  cases result : foldFrames (batches.flatMap LogBatch.frames) .start with
  | none =>
    rw [result] at folded
    by_cases consistent : SeqConsistent 0 batches
    · simp [DecodeState.start, consistent] at folded
    · simp [consistent]
  | some state =>
    rw [result] at folded
    simp only [Option.bind_some]
    cases closing : closeBatch state with
    | none =>
      by_cases consistent : SeqConsistent 0 batches
      · simp [DecodeState.start, consistent, closing] at folded
      · simp [consistent]
    | some closed =>
      by_cases consistent : SeqConsistent 0 batches
      · simp [DecodeState.start, consistent, closing] at folded
        simp [consistent, folded]
      · simp [DecodeState.start, consistent, closing] at folded

theorem emptyFrame_fits : (⟨0, []⟩ : Frame).Fits := by simp [Frame.Fits]

theorem encodeFrame_pos (frame : Frame) : 0 < (encodeFrame frame).length := by
  rw [encodeFrame_length]
  omega

/-- The torn frame of a log whose last write finished. -/
def TornFrame.none : TornFrame where
  frame := ⟨0, []⟩
  fits := emptyFrame_fits
  part := 0
  inside := encodeFrame_pos _

@[simp] theorem TornFrame.none_bytes : TornFrame.none.bytes = [] := rfl

theorem decodeLog_encodeLog (generation : UInt32) (batches : List LogBatch)
    (encodable : ∀ batch ∈ batches, batch.Encodable) :
    decodeLog (encodeLog generation batches) =
      if SeqConsistent 0 batches then some ⟨generation, batches, false⟩ else none := by
  have decoded := decodeLog_torn generation batches encodable .none
  rw [TornFrame.none_bytes, List.append_nil] at decoded
  exact decoded

variable {decoded : DecodedLog}

theorem decodeLogHeader_of_decodes {buf : List UInt8} (decodes : decodeLog buf = some decoded) :
    decodeLogHeader buf = some decoded.generation := by
  unfold decodeLog at decodes
  cases header : decodeLogHeader buf with
  | none => simp [header] at decodes
  | some generation =>
    rw [header] at decodes
    dsimp only at decodes
    split at decodes
    · cases decodes
    · split at decodes
      · cases decodes
      · cases decodes
        rfl

theorem decodeLog_header_take {generation : UInt32} {cut : Nat}
    (decodes : decodeLog ((encodeLogHeader generation).take cut) = some decoded) :
    decoded.batches = [] := by
  by_cases whole : logHeaderBytes ≤ cut
  · have header : (encodeLogHeader generation).take cut = encodeLog generation [] := by
      rw [List.take_of_length_le (by simpa using whole), encodeLog, encodeBatches_nil,
        List.append_nil]
    rw [header, decodeLog_encodeLog generation [] (by simp),
      if_pos (show SeqConsistent 0 [] from trivial)] at decodes
    cases decodes
    rfl
  · have short : decodeLogHeader ((encodeLogHeader generation).take cut) = none := by
      unfold decodeLogHeader
      rw [if_pos]
      simp only [List.length_take, encodeLogHeader_length]
      omega
    rw [decodeLogHeader_of_decodes decodes] at short
    cases short

end AiTools.Daemon.History
