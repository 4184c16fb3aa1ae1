import AiTools.Lib.LittleEndian

/-!
Contract: streams of `kind, u32 length, payload` frames and the reader that
hands each complete frame to a client.
-/

namespace AiTools.Lib.TaggedFrames

open AiTools.Lib

structure Frame where
  kind : UInt8
  payload : List UInt8

/-- The payload length fits the four length bytes. -/
def Frame.Fits (frame : Frame) : Prop := frame.payload.length < 2 ^ 32

def encodeFrame (frame : Frame) : List UInt8 :=
  frame.kind :: (LittleEndian.encode 4 frame.payload.length ++ frame.payload)

def encodeFrames (frames : List Frame) : List UInt8 := frames.flatMap encodeFrame

@[simp] theorem encodeFrame_length (frame : Frame) :
    (encodeFrame frame).length = 5 + frame.payload.length := by
  simp [encodeFrame]
  omega

@[simp] theorem encodeFrames_nil : encodeFrames [] = [] := rfl

@[simp] theorem encodeFrames_cons (frame : Frame) (rest : List Frame) :
    encodeFrames (frame :: rest) = encodeFrame frame ++ encodeFrames rest := rfl

@[simp] theorem encodeFrames_append (left right : List Frame) :
    encodeFrames (left ++ right) = encodeFrames left ++ encodeFrames right := by
  simp [encodeFrames]

variable {σ : Type*}

/-- Fold `onFrame` over the complete frames of a buffer, in order. `none` when
the client rejects a frame; the flag is true when bytes of an incomplete frame
were left over. -/
def scan (onFrame : σ → UInt8 → List UInt8 → Option σ) : List UInt8 → σ → Option (σ × Bool)
  | [], state => some (state, false)
  | kind :: len0 :: len1 :: len2 :: len3 :: rest, state =>
    let len := LittleEndian.decode [len0, len1, len2, len3]
    if rest.length < len then some (state, true)
    else
      match onFrame state kind (rest.take len) with
      | none => none
      | some next => scan onFrame (rest.drop len) next
  | _, state => some (state, true)
termination_by buffer => buffer.length
decreasing_by simp only [List.length_drop, List.length_cons]; omega

variable (onFrame : σ → UInt8 → List UInt8 → Option σ)

@[simp] theorem scan_nil (state : σ) : scan onFrame [] state = some (state, false) := by
  rw [scan]

private theorem encodeFrame_header (frame : Frame) : ∃ len0 len1 len2 len3,
    LittleEndian.encode 4 frame.payload.length = [len0, len1, len2, len3] ∧
    encodeFrame frame = frame.kind :: len0 :: len1 :: len2 :: len3 :: frame.payload :=
  ⟨_, _, _, _, rfl, rfl⟩

variable {frame : Frame}

private theorem decode_header (fits : frame.Fits) {header : List UInt8}
    (equal : LittleEndian.encode 4 frame.payload.length = header) :
    LittleEndian.decode header = frame.payload.length := by
  rw [← equal]
  apply LittleEndian.decode_encode_of_lt
  have bound : frame.payload.length < 2 ^ 32 := fits
  omega

theorem scan_encodeFrame (fits : frame.Fits) (rest : List UInt8) (state : σ) :
    scan onFrame (encodeFrame frame ++ rest) state =
      match onFrame state frame.kind frame.payload with
      | none => none
      | some next => scan onFrame rest next := by
  obtain ⟨len0, len1, len2, len3, header, encoded⟩ := encodeFrame_header frame
  have len := decode_header fits header
  rw [encoded]
  simp only [List.cons_append]
  rw [scan]
  simp only [len, List.length_append]
  rw [if_neg (by omega)]
  simp

theorem scan_encodeFrames {frames : List Frame} (fits : ∀ frame ∈ frames, frame.Fits)
    (rest : List UInt8) (state : σ) :
    scan onFrame (encodeFrames frames ++ rest) state =
      (frames.foldlM (fun current frame => onFrame current frame.kind frame.payload) state).bind
        (scan onFrame rest) := by
  induction frames generalizing state with
  | nil => simp
  | cons frame frames ih =>
    have headFits : frame.Fits := fits frame (by simp)
    have tailFits : ∀ frame ∈ frames, frame.Fits := fun later member =>
      fits later (List.mem_cons_of_mem frame member)
    rw [encodeFrames_cons, List.append_assoc, scan_encodeFrame onFrame headFits]
    cases ran : onFrame state frame.kind frame.payload with
    | none => simp [ran]
    | some next => simp [ran, ih tailFits]

/-- A proper part of one frame is left over, and nothing of it reaches the
client. -/
theorem scan_torn (fits : frame.Fits) {cut : Nat} (positive : 0 < cut)
    (inside : cut < (encodeFrame frame).length) (state : σ) :
    scan onFrame ((encodeFrame frame).take cut) state = some (state, true) := by
  obtain ⟨len0, len1, len2, len3, header, encoded⟩ := encodeFrame_header frame
  have len := decode_header fits header
  rw [encodeFrame_length] at inside
  rw [encoded]
  match cut, positive with
  | 1, _ => simp [scan]
  | 2, _ => simp [scan]
  | 3, _ => simp [scan]
  | 4, _ => simp [scan]
  | cut + 5, _ =>
    simp only [List.take_succ_cons]
    rw [scan]
    simp only [len, List.length_take]
    rw [if_pos (by omega)]

end AiTools.Lib.TaggedFrames
