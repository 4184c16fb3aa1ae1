import AiTools.Daemon.Framing

/-!
Contract: the decoder with its buffer, and what it takes from it.
-/

namespace AiTools.Daemon.Framing

open AiTools.Lib
open AiTools.Lib.FrameStream
open AiTools.Daemon.History (streamFrameMagic)

structure StreamDecoder where
  buf : Bytes

def StreamDecoder.feed (decoder : StreamDecoder) (bytes : Bytes) : StreamDecoder :=
  ⟨decoder.buf ++ bytes⟩

/-- The result and the buffer behind it: only a whole frame is drained. -/
def StreamDecoder.nextFrame (decoder : StreamDecoder) :
    Except FrameError (Option StreamFrame) × StreamDecoder :=
  match Framing.nextFrame decoder.buf with
  | .error err => (.error err, decoder)
  | .ok none => (.ok none, decoder)
  | .ok (some (frame, rest)) => (.ok (some frame), ⟨rest⟩)

/-- Feeds and pulls in their order. -/
def StreamDecoder.calls (decoder : StreamDecoder) (calls : List (Call UInt8)) : StreamDecoder :=
  calls.foldl (fun decoder call => match call with
    | .feed bytes => decoder.feed bytes
    | .next => decoder.nextFrame.2) decoder

/-! ## The parts of a frame -/

variable {buf : Bytes} {header : Header}

theorem field_length {start len : Nat} (inside : start + len ≤ buf.length) :
    (field start len buf).length = len := by
  unfold field
  rw [List.length_take, List.length_drop]
  omega

theorem field_append_drop (start len : Nat) (buf : Bytes) :
    field start len buf ++ buf.drop (start + len) = buf.drop start := by
  unfold field
  rw [← List.drop_drop, List.take_append_drop]

theorem toU8_of_fromU8 {byte : UInt8} {kind : StreamFrameKind}
    (isKind : StreamFrameKind.fromU8 byte = some kind) : kind.toU8 = byte := by
  unfold StreamFrameKind.fromU8 at isKind
  split_ifs at isKind with isData isResize isExit
  · cases isKind
    exact isData.symm
  · cases isKind
    exact isResize.symm
  · cases isKind
    exact isExit.symm

/-- What a header that is accepted says of the buffer. -/
structure HeaderOf (buf : Bytes) (header : Header) : Prop where
  magic : field 0 4 buf = streamFrameMagic
  kind : buf.getD 4 0 = header.kind.toU8
  sid : field 5 2 buf = LittleEndian.encode 2 header.sidLen
  seq : field 7 8 buf = LittleEndian.encode 8 header.seq.toNat
  payload : field 15 4 buf = LittleEndian.encode 4 header.payloadLen
  sidShort : header.sidLen ≤ maxSessionIdBytes
  payloadShort : header.payloadLen ≤ maxStreamFramePayload

theorem field_encode {start len : Nat} (inside : start + len ≤ buf.length) :
    field start len buf = LittleEndian.encode len (LittleEndian.decode (field start len buf)) := by
  have isLength := field_length inside
  conv_rhs => arg 1; rw [← isLength]
  exact (LittleEndian.encode_decode _).symm

theorem headerOf (whole : streamFrameHeaderBytes ≤ buf.length)
    (isHeader : readHeader buf = .ok header) : HeaderOf buf header := by
  unfold streamFrameHeaderBytes at whole
  unfold readHeader at isHeader
  split at isHeader
  · cases isHeader
  · rename_i isMagic
    split at isHeader
    · cases isHeader
    · rename_i kind isKind
      dsimp only at isHeader
      split_ifs at isHeader with sidLong payloadLong
      have seqFits : LittleEndian.decode (field 7 8 buf) < 2 ^ 64 := by
        have bound := LittleEndian.decode_lt (field 7 8 buf)
        rw [field_length (by omega)] at bound
        exact bound
      cases isHeader
      constructor
      case magic => exact not_not.mp isMagic
      case kind => exact (toU8_of_fromU8 isKind).symm
      case sid => exact field_encode (by omega)
      case seq =>
        dsimp only
        rw [UInt64.toNat_ofNat_of_lt' seqFits]
        exact field_encode (by omega)
      case payload => exact field_encode (by omega)
      case sidShort => exact Nat.le_of_not_lt sidLong
      case payloadShort => exact Nat.le_of_not_lt payloadLong

/-- A buffer with an accepted header is the header's encoding and what follows it. -/
theorem HeaderOf.buf_eq (isHeader : HeaderOf buf header)
    (whole : streamFrameHeaderBytes ≤ buf.length) :
    buf = streamFrameMagic ++ [header.kind.toU8] ++ LittleEndian.encode 2 header.sidLen ++
      LittleEndian.encode 8 header.seq.toNat ++ LittleEndian.encode 4 header.payloadLen ++
      buf.drop streamFrameHeaderBytes := by
  unfold streamFrameHeaderBytes at whole
  have kind : [buf.getD 4 0] ++ buf.drop 5 = buf.drop 4 := by
    rw [List.drop_eq_getElem_cons (by omega : 4 < buf.length), List.getD_eq_getElem _ _ (by omega)]
    rfl
  rw [← isHeader.magic, ← isHeader.kind, ← isHeader.sid, ← isHeader.seq, ← isHeader.payload]
  simp only [List.append_assoc]
  have first := field_append_drop 0 4 buf
  have sid := field_append_drop 5 2 buf
  have seq := field_append_drop 7 8 buf
  have payload := field_append_drop 15 4 buf
  unfold streamFrameHeaderBytes
  rw [payload, seq, sid, kind, first, List.drop_zero]

theorem encode_of_nextFrame {rest : Bytes} {frame : StreamFrame}
    (isFrame : nextFrame buf = .ok (some (frame, rest))) :
    ∃ bytes, frame.encode = .ok bytes ∧ buf = bytes ++ rest := by
  unfold nextFrame at isFrame
  split at isFrame
  · cases isFrame
  · rename_i notShort
    have whole : streamFrameHeaderBytes ≤ buf.length := Nat.le_of_not_lt notShort
    split at isFrame
    · cases isFrame
    · rename_i header isHeader
      split at isFrame
      · cases isFrame
      · rename_i notPartial
        have inside : header.payloadEnd ≤ buf.length := Nat.le_of_not_lt notPartial
        unfold Header.payloadEnd at inside
        have accepted := headerOf whole isHeader
        unfold readBody at isFrame
        split at isFrame
        · cases isFrame
        · rename_i sessionId isText
          cases isFrame
          have isSid := Utf8.bytes_of_text? isText
          have sidLength : (Utf8.bytes sessionId).length = header.sidLen := by
            rw [isSid, field_length (by omega)]
          have payloadLength : (field (streamFrameHeaderBytes + header.sidLen) header.payloadLen
              buf).length = header.payloadLen := field_length (by omega)
          refine ⟨streamFrameMagic ++ [header.kind.toU8] ++ LittleEndian.encode 2 header.sidLen ++
            LittleEndian.encode 8 header.seq.toNat ++ LittleEndian.encode 4 header.payloadLen ++
            field streamFrameHeaderBytes header.sidLen buf ++
            field (streamFrameHeaderBytes + header.sidLen) header.payloadLen buf, ?_, ?_⟩
          · unfold StreamFrame.encode
            dsimp only
            rw [sidLength, payloadLength, if_neg (Nat.not_lt.mpr accepted.sidShort),
              if_neg (Nat.not_lt.mpr accepted.payloadShort), isSid]
          · unfold Header.payloadEnd
            rw [List.append_assoc, List.append_assoc, field_append_drop, field_append_drop]
            exact accepted.buf_eq whole

theorem nextFrame_of_error {err : FrameError} (isError : nextFrame buf = .error err)
    (more : Bytes) : nextFrame (buf ++ more) = .error err :=
  nextFrame_incremental.error_append isError more

/-- **Decoding is canonical and error-atomic.** -/
theorem decoding_canonical (decoder : StreamDecoder) :
    (∀ frame, decoder.nextFrame.1 = .ok (some frame) →
      ∃ bytes, frame.encode = .ok bytes ∧ decoder.buf = bytes ++ decoder.nextFrame.2.buf) ∧
    (decoder.nextFrame.1 = .ok none → decoder.nextFrame.2 = decoder) ∧
    ∀ err, decoder.nextFrame.1 = .error err → decoder.nextFrame.2 = decoder ∧
      ∀ calls, (decoder.calls calls).nextFrame.1 = .error err := by
  obtain ⟨buf⟩ := decoder
  refine ⟨?_, ?_, ?_⟩
  · intro frame isFrame
    unfold StreamDecoder.nextFrame at isFrame ⊢
    cases pulled : nextFrame buf with
    | error err => rw [pulled] at isFrame; cases isFrame
    | ok found =>
      cases found with
      | none => rw [pulled] at isFrame; cases isFrame
      | some decoded =>
        rw [pulled] at isFrame
        cases isFrame
        exact encode_of_nextFrame pulled
  · intro isNone
    unfold StreamDecoder.nextFrame at isNone ⊢
    cases pulled : nextFrame buf with
    | error err => rfl
    | ok found =>
      cases found with
      | none => rfl
      | some decoded => rw [pulled] at isNone; cases isNone
  · intro err isError
    have failed : ∀ decoder : StreamDecoder, decoder.nextFrame.1 = .error err ↔
        nextFrame decoder.buf = .error err := by
      intro decoder
      unfold StreamDecoder.nextFrame
      cases nextFrame decoder.buf with
      | error other => simp
      | ok found => cases found <;> simp
    have kept : ∀ decoder : StreamDecoder, decoder.nextFrame.1 = .error err →
        decoder.nextFrame.2 = decoder := by
      intro decoder isError
      have pulled := (failed decoder).mp isError
      unfold StreamDecoder.nextFrame
      rw [pulled]
    refine ⟨kept _ isError, fun calls => ?_⟩
    induction calls using List.reverseRecOn with
    | nil => exact isError
    | append_singleton calls call ih =>
      have step : StreamDecoder.calls ⟨buf⟩ (calls ++ [call]) = (match call with
          | .feed bytes => (StreamDecoder.calls ⟨buf⟩ calls).feed bytes
          | .next => (StreamDecoder.calls ⟨buf⟩ calls).nextFrame.2) := by
        unfold StreamDecoder.calls
        rw [List.foldl_concat]
      rw [step]
      cases call with
      | feed bytes =>
        exact (failed _).mpr (nextFrame_of_error ((failed _).mp ih) bytes)
      | next =>
        dsimp only
        rw [kept _ ih]
        exact ih

/-- A frame with the first byte of the next one behind it. -/
theorem decoding_canonical_outputFrame : ∃ bytes, outputFrame.encode = .ok bytes ∧
    outputBytes ++ [0x47] =
      bytes ++ (StreamDecoder.mk (outputBytes ++ [0x47])).nextFrame.2.buf := by
  have decoded : (StreamDecoder.mk (outputBytes ++ [0x47])).nextFrame.1 =
      .ok (some outputFrame) := by
    decide +kernel
  exact (decoding_canonical ⟨outputBytes ++ [0x47]⟩).1 outputFrame decoded

end AiTools.Daemon.Framing
