import AiTools.Daemon.History.Log
import AiTools.Lib.FrameStream
import AiTools.Lib.Utf8
import Mathlib.Data.List.GetD

/-!
Contract: the frames of the stream socket.
-/

namespace AiTools.Daemon.Framing

open AiTools.Lib
open AiTools.Lib.FrameStream
open AiTools.Daemon.History (streamFrameMagic)

abbrev Bytes := List UInt8

def streamFrameHeaderBytes : Nat := 4 + 1 + 2 + 8 + 4

def maxStreamFramePayload : Nat := 16 * 1024 * 1024

def maxSessionIdBytes : Nat := 4096

def kindData : UInt8 := 0x02
def kindResize : UInt8 := 0x03
def kindExit : UInt8 := 0x10

inductive StreamFrameKind where
  | data
  | resize
  | exit
deriving DecidableEq

def StreamFrameKind.toU8 : StreamFrameKind → UInt8
  | .data => kindData
  | .resize => kindResize
  | .exit => kindExit

def StreamFrameKind.fromU8 (v : UInt8) : Option StreamFrameKind :=
  if v = kindData then some .data
  else if v = kindResize then some .resize
  else if v = kindExit then some .exit
  else none

structure StreamFrame where
  kind : StreamFrameKind
  sessionId : String
  seq : UInt64
  payload : Bytes
deriving DecidableEq

inductive FrameError where
  | badMagic
  | unknownKind (kind : UInt8)
  | oversizedPayload (len cap : Nat)
  | oversizedSessionId (len cap : Nat)
  | invalidSessionId
deriving DecidableEq

def StreamFrame.encode (frame : StreamFrame) : Except FrameError Bytes :=
  let sid := Utf8.bytes frame.sessionId
  if maxSessionIdBytes < sid.length then
    .error (.oversizedSessionId sid.length maxSessionIdBytes)
  else if maxStreamFramePayload < frame.payload.length then
    .error (.oversizedPayload frame.payload.length maxStreamFramePayload)
  else
    .ok (streamFrameMagic ++ [frame.kind.toU8] ++ LittleEndian.encode 2 sid.length ++
      LittleEndian.encode 8 frame.seq.toNat ++ LittleEndian.encode 4 frame.payload.length ++
      sid ++ frame.payload)

theorem StreamFrame.encodes_iff (frame : StreamFrame) : (∃ bytes, frame.encode = .ok bytes) ↔
    (Utf8.bytes frame.sessionId).length ≤ maxSessionIdBytes ∧
      frame.payload.length ≤ maxStreamFramePayload := by
  unfold StreamFrame.encode
  dsimp only
  split_ifs with longId longPayload <;> simp <;> omega

structure Header where
  kind : StreamFrameKind
  sidLen : Nat
  seq : UInt64
  payloadLen : Nat

/-- `buf[start..start + len]`. -/
def field (start len : Nat) (buf : Bytes) : Bytes := (buf.drop start).take len

/-- The first part of `next_frame`, which reads the header alone. -/
def readHeader (buf : Bytes) : Except FrameError Header :=
  if field 0 4 buf ≠ streamFrameMagic then .error .badMagic
  else
    match StreamFrameKind.fromU8 (buf.getD 4 0) with
    | none => .error (.unknownKind (buf.getD 4 0))
    | some kind =>
      let sidLen := LittleEndian.decode (field 5 2 buf)
      let seq := UInt64.ofNat (LittleEndian.decode (field 7 8 buf))
      let payloadLen := LittleEndian.decode (field 15 4 buf)
      if maxSessionIdBytes < sidLen then .error (.oversizedSessionId sidLen maxSessionIdBytes)
      else if maxStreamFramePayload < payloadLen then
        .error (.oversizedPayload payloadLen maxStreamFramePayload)
      else .ok ⟨kind, sidLen, seq, payloadLen⟩

def Header.payloadEnd (header : Header) : Nat :=
  streamFrameHeaderBytes + header.sidLen + header.payloadLen

/-- The second part, for a buffer that holds the frame. -/
def readBody (header : Header) (buf : Bytes) : Except FrameError (Option (StreamFrame × Bytes)) :=
  match Utf8.text? (field streamFrameHeaderBytes header.sidLen buf) with
  | none => .error .invalidSessionId
  | some sessionId =>
    .ok (some (⟨header.kind, sessionId, header.seq,
      field (streamFrameHeaderBytes + header.sidLen) header.payloadLen buf⟩,
      buf.drop header.payloadEnd))

/-- The frame and the bytes that `drain` leaves, or `None`. -/
def nextFrame (buf : Bytes) : Except FrameError (Option (StreamFrame × Bytes)) :=
  if buf.length < streamFrameHeaderBytes then .ok none
  else
    match readHeader buf with
    | .error err => .error err
    | .ok header => if buf.length < header.payloadEnd then .ok none else readBody header buf

variable {buf : Bytes}

theorem field_append {start len : Nat} (inside : start + len ≤ buf.length) (more : Bytes) :
    field start len (buf ++ more) = field start len buf := by
  unfold field
  rw [List.drop_append_of_le_length (by omega), List.take_append_of_le_length]
  rw [List.length_drop]
  omega

theorem readHeader_append (whole : streamFrameHeaderBytes ≤ buf.length) (more : Bytes) :
    readHeader (buf ++ more) = readHeader buf := by
  unfold streamFrameHeaderBytes at whole
  unfold readHeader
  rw [field_append (by omega), field_append (by omega), field_append (by omega),
    field_append (by omega), List.getD_append _ _ _ _ (by omega)]

theorem readBody_append {header : Header} (whole : header.payloadEnd ≤ buf.length) (more : Bytes) :
    readBody header (buf ++ more) =
      (readBody header buf).map (Option.map fun framed => (framed.1, framed.2 ++ more)) := by
  have bodyEnd : streamFrameHeaderBytes + header.sidLen + header.payloadLen ≤ buf.length := whole
  unfold readBody
  rw [field_append (by omega), field_append (by omega), List.drop_append_of_le_length whole]
  split <;> rfl

theorem nextFrame_append (decided : nextFrame buf ≠ .ok none) (more : Bytes) :
    nextFrame (buf ++ more) =
      (nextFrame buf).map (Option.map fun framed => (framed.1, framed.2 ++ more)) := by
  by_cases short : buf.length < streamFrameHeaderBytes
  · exact absurd (if_pos short) decided
  · have whole : streamFrameHeaderBytes ≤ buf.length := Nat.le_of_not_lt short
    have wholeLonger : ¬ (buf ++ more).length < streamFrameHeaderBytes := by
      rw [List.length_append]
      omega
    unfold nextFrame at decided ⊢
    rw [if_neg short] at decided ⊢
    rw [if_neg wholeLonger, readHeader_append whole]
    cases isHeader : readHeader buf with
    | error err => rfl
    | ok header =>
      rw [isHeader] at decided
      dsimp only at decided ⊢
      by_cases partial_ : buf.length < header.payloadEnd
      · exact absurd (if_pos partial_) decided
      · have bodyLonger : ¬ (buf ++ more).length < header.payloadEnd := by
          rw [List.length_append]
          omega
        rw [if_neg partial_, if_neg bodyLonger]
        exact readBody_append (Nat.le_of_not_lt partial_) more

theorem nextFrame_consumes {rest : Bytes} {frame : StreamFrame}
    (isFrame : nextFrame buf = .ok (some (frame, rest))) : rest.length < buf.length := by
  unfold nextFrame at isFrame
  split at isFrame
  · cases isFrame
  · next whole =>
    split at isFrame
    · cases isFrame
    · next header _ =>
      split at isFrame
      · cases isFrame
      · unfold readBody at isFrame
        split at isFrame
        · cases isFrame
        · cases isFrame
          rw [List.length_drop]
          unfold Header.payloadEnd
          unfold streamFrameHeaderBytes at whole ⊢
          omega

theorem nextFrame_incremental : Incremental nextFrame where
  consumes := nextFrame_consumes
  frame_append := by
    intro buf frame rest isFrame more
    have decided : nextFrame buf ≠ .ok none := by
      rw [isFrame]
      simp
    rw [nextFrame_append decided, isFrame]
    rfl
  error_append := by
    intro buf err isError more
    have decided : nextFrame buf ≠ .ok none := by
      rw [isError]
      simp
    rw [nextFrame_append decided, isError]
    rfl

@[simp] theorem fromU8_toU8 (kind : StreamFrameKind) :
    StreamFrameKind.fromU8 kind.toU8 = some kind := by
  cases kind <;> rfl

section
variable {frame : StreamFrame} {sidBytes rest : Bytes}

/-- What `encode` writes, and what lies behind it. -/
def wire (frame : StreamFrame) (sidBytes rest : Bytes) : Bytes :=
  streamFrameMagic ++ [frame.kind.toU8] ++ LittleEndian.encode 2 sidBytes.length ++
    LittleEndian.encode 8 frame.seq.toNat ++ LittleEndian.encode 4 frame.payload.length ++
    (sidBytes ++ (frame.payload ++ rest))

theorem wire_length : (wire frame sidBytes rest).length =
    streamFrameHeaderBytes + sidBytes.length + frame.payload.length + rest.length := by
  simp [wire, streamFrameMagic, streamFrameHeaderBytes]
  omega

theorem readHeader_wire (sidShort : sidBytes.length ≤ maxSessionIdBytes)
    (payloadShort : frame.payload.length ≤ maxStreamFramePayload) :
    readHeader (wire frame sidBytes rest) =
      .ok ⟨frame.kind, sidBytes.length, frame.seq, frame.payload.length⟩ := by
  have magic : field 0 4 (wire frame sidBytes rest) = streamFrameMagic := rfl
  have kind : (wire frame sidBytes rest).getD 4 0 = frame.kind.toU8 := rfl
  have sid : field 5 2 (wire frame sidBytes rest) = LittleEndian.encode 2 sidBytes.length := rfl
  have seq : field 7 8 (wire frame sidBytes rest) = LittleEndian.encode 8 frame.seq.toNat := rfl
  have payload : field 15 4 (wire frame sidBytes rest) =
    LittleEndian.encode 4 frame.payload.length := rfl
  have sidFits : sidBytes.length < 256 ^ 2 := by
    unfold maxSessionIdBytes at sidShort
    omega
  have seqFits : frame.seq.toNat < 256 ^ 8 := frame.seq.toNat_lt
  have payloadFits : frame.payload.length < 256 ^ 4 := by
    unfold maxStreamFramePayload at payloadShort
    omega
  unfold readHeader
  rw [magic, kind, sid, seq, payload, if_neg (not_not.mpr rfl), fromU8_toU8]
  dsimp only
  rw [LittleEndian.decode_encode_of_lt sidFits, LittleEndian.decode_encode_of_lt seqFits,
    LittleEndian.decode_encode_of_lt payloadFits, if_neg (Nat.not_lt.mpr sidShort),
    if_neg (Nat.not_lt.mpr payloadShort), UInt64.ofNat_toNat]

theorem drop_wire (count : Nat) : (wire frame sidBytes rest).drop (streamFrameHeaderBytes + count) =
    (sidBytes ++ (frame.payload ++ rest)).drop count := by
  rw [← List.drop_drop]
  rfl

theorem readBody_wire (isSid : sidBytes = Utf8.bytes frame.sessionId) :
    readBody ⟨frame.kind, sidBytes.length, frame.seq, frame.payload.length⟩
      (wire frame sidBytes rest) = .ok (some (frame, rest)) := by
  have sid : field streamFrameHeaderBytes sidBytes.length (wire frame sidBytes rest) =
      sidBytes := by
    unfold field
    rw [← Nat.add_zero streamFrameHeaderBytes, drop_wire, List.drop_zero, List.take_left]
  have payload : field (streamFrameHeaderBytes + sidBytes.length) frame.payload.length
      (wire frame sidBytes rest) = frame.payload := by
    unfold field
    rw [drop_wire, List.drop_left, List.take_left]
  unfold readBody Header.payloadEnd
  dsimp only
  rw [sid, payload, Nat.add_assoc, drop_wire, ← List.drop_drop, List.drop_left, List.drop_left,
    isSid, Utf8.text?_bytes]

end

theorem nextFrame_encode {frame : StreamFrame} {bytes : Bytes} (encoded : frame.encode = .ok bytes)
    (rest : Bytes) : nextFrame (bytes ++ rest) = .ok (some (frame, rest)) := by
  unfold StreamFrame.encode at encoded
  dsimp only at encoded
  split_ifs at encoded with sidLong payloadLong
  cases encoded
  have isWire : streamFrameMagic ++ [frame.kind.toU8] ++
      LittleEndian.encode 2 (Utf8.bytes frame.sessionId).length ++
      LittleEndian.encode 8 frame.seq.toNat ++ LittleEndian.encode 4 frame.payload.length ++
      Utf8.bytes frame.sessionId ++ frame.payload ++ rest =
        wire frame (Utf8.bytes frame.sessionId) rest := by
    unfold wire
    rw [List.append_assoc, List.append_assoc]
  rw [isWire]
  unfold nextFrame
  rw [wire_length, if_neg (by omega),
    readHeader_wire (Nat.not_lt.mp sidLong) (Nat.not_lt.mp payloadLong)]
  dsimp only
  unfold Header.payloadEnd
  dsimp only
  rw [if_neg (by omega), readBody_wire rfl]

theorem reads_encoded {frames : List StreamFrame} {encodings : List Bytes}
    (encoded : List.Forall₂ (fun frame bytes => StreamFrame.encode frame = .ok bytes)
      frames encodings) : Reads nextFrame encodings.flatten frames [] := by
  induction encoded with
  | nil => exact .nil []
  | cons first _ ih =>
    rw [List.flatten_cons]
    exact .cons (nextFrame_encode first _) ih

/-- **Frame streaming is chunk-independent and lossless.** Over a stream of encoded frames
every drained run yields the frames and holds nothing back; over any bytes every two
drained runs yield the same frames and the same first error. -/
theorem streaming_lossless {calls others : List (Call UInt8)}
    (drained : (run nextFrame calls).Drained nextFrame)
    (drained' : (run nextFrame others).Drained nextFrame) :
    (∀ frames encodings, List.Forall₂ (fun frame bytes => StreamFrame.encode frame = .ok bytes)
        frames encodings → fed calls = encodings.flatten →
      run nextFrame calls = ⟨frames, none, []⟩) ∧
      (fed calls = fed others → run nextFrame calls = run nextFrame others) := by
  constructor
  · intro frames encodings encoded isStream
    have reads := reads_encoded encoded
    rw [← isStream] at reads
    exact run_of_reads nextFrame_incremental reads rfl drained
  · intro sameBytes
    exact run_eq_of_fed nextFrame_incremental sameBytes drained drained'

/-- Two bytes of output, of which no text consists. -/
def outputFrame : StreamFrame := ⟨.data, "s1", 7, [0x41, 0xff]⟩

def outputBytes : Bytes :=
  [0x47, 0x43, 0x4b, 0x4c, 0x02, 2, 0, 7, 0, 0, 0, 0, 0, 0, 0, 2, 0, 0, 0, 0x73, 0x31, 0x41, 0xff]

theorem outputFrame_encode : outputFrame.encode = .ok outputBytes := by
  decide +kernel

/-- The frame in two pieces, cut inside its header. -/
def cutCalls : List (Call UInt8) :=
  [.feed (outputBytes.take 6), .next, .feed (outputBytes.drop 6)]

theorem streaming_lossless_cutCalls : ∃ count,
    (run nextFrame (cutCalls ++ List.replicate count .next)).Drained nextFrame ∧
      run nextFrame (cutCalls ++ List.replicate count .next) = ⟨[outputFrame], none, []⟩ := by
  obtain ⟨count, drained⟩ := run_drains nextFrame_incremental cutCalls
  refine ⟨count, drained, (streaming_lossless drained drained).1 _ [outputBytes]
    (.cons outputFrame_encode .nil) ?_⟩
  simp [fed, cutCalls, List.flatMap_replicate]

end AiTools.Daemon.Framing
