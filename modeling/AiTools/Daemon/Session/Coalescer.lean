import AiTools.Daemon.Framing
import AiTools.Lib.Transition
import Mathlib.Data.List.TakeWhile

/-!
Contract: the coalescer between the reader thread and the stream, and the sequence that
each delivered frame carries.

The flusher wakes at any time. Byte counters stand as numbers up to the frame.
-/

namespace AiTools.Daemon.Session.Coalescer

open AiTools.Lib.Transition
open AiTools.Daemon.Framing (StreamFrame)

abbrev Bytes := List UInt8

def outputFlushSize : Nat := 64 * 1024

def maxPendingBytes : Nat := outputFlushSize * 64

/-- The reader thread's buffer. -/
def readBufBytes : Nat := 4096

def isContinuationByte (b : UInt8) : Bool := b &&& 0xc0 == 0x80

/-- The bytes that a push drops: what is over the cap, up to the next lead byte. -/
def overflow (pending : Bytes) : Nat :=
  if maxPendingBytes < pending.length then
    let excess := pending.length - maxPendingBytes
    excess + ((pending.drop excess).takeWhile isContinuationByte).length
  else 0

/-- What the flusher has drained and is about to hand to `on_output`. `position` is the
place of its last byte in the output, and `dropped` what was dropped before it. -/
structure Batch where
  data : Bytes
  position : Nat
  dropped : Nat

structure Delivered where
  seq : Nat
  payload : Bytes
  position : Nat
  dropped : Nat
deriving DecidableEq

/-- `reading` is a chunk that `tee` has ingested and that is about to be pushed. `output`,
`pushed` and `dropped` are history: the bytes ingested, and how many of them were pushed
and dropped. -/
structure System where
  sessionId : String
  ingestSeq : Nat := 0
  reading : Option Bytes := none
  pending : Bytes := []
  truncated : Bool := false
  closed : Bool := false
  batch : Option Batch := none
  seq : Nat := 0
  delivered : List Delivered := []
  output : Bytes := []
  pushed : Nat := 0
  dropped : Nat := 0

def System.initial (sessionId : String) : System where
  sessionId := sessionId

inductive Label where
  | tee (chunk : Bytes)
  | push
  | drain
  | onOutput
  | close

def System.push (sys : System) (data : Bytes) : System :=
  let pending := sys.pending ++ data
  { sys with
    reading := none
    pending := pending.drop (overflow pending)
    truncated := sys.truncated || decide (maxPendingBytes < pending.length)
    pushed := sys.pushed + data.length
    dropped := sys.dropped + min (overflow pending) pending.length }

/-- `StreamSink::on_output`. A frame that does not encode is not sent. -/
def System.onOutput (sys : System) (batch : Batch) : System :=
  let total := sys.seq + batch.data.length
  let frame : StreamFrame := ⟨.data, sys.sessionId, UInt64.ofNat total, batch.data⟩
  { sys with
    batch := none
    seq := total
    delivered := match frame.encode with
      | .ok _ => sys.delivered ++ [⟨total, batch.data, batch.position, batch.dropped⟩]
      | .error _ => sys.delivered }

def step (sys : System) : Label → Option System
  | .tee chunk =>
    match sys.reading with
    | none =>
      if chunk = [] ∨ readBufBytes < chunk.length ∨ sys.closed then none
      else some { sys with
        ingestSeq := sys.ingestSeq + chunk.length
        reading := some chunk
        output := sys.output ++ chunk }
    | some _ => none
  | .push => sys.reading.map sys.push
  | .drain =>
    match sys.batch with
    | none =>
      if sys.pending = [] then none
      else some { sys with
        pending := []
        batch := some ⟨sys.pending, sys.pushed, sys.dropped⟩ }
    | some _ => none
  | .onOutput => sys.batch.map sys.onOutput
  | .close =>
    match sys.reading with
    | none => some { sys with closed := true }
    | some _ => none

/-- In every run whose steps all meet `ok`, each delivered frame holds the output up to
some place and is stamped with that place. -/
def StampsAgree (ok : System → Label → Prop) : Prop :=
  ∀ sessionId sys, Run step ok (.initial sessionId) sys →
    sys.ingestSeq = sys.output.length ∧ ∀ frame ∈ sys.delivered,
      frame.payload <:+ sys.output.take frame.position ∧
        frame.position ≤ sys.ingestSeq ∧ frame.seq = frame.position

/-- A push stays within the cap. -/
def Uncapped (sys : System) : Label → Prop
  | .push => ∀ chunk, sys.reading = some chunk →
      sys.pending.length + chunk.length ≤ maxPendingBytes
  | _ => True

/-! ## The invariant -/

/-- The bytes that the flusher holds. -/
def System.held (sys : System) : Nat :=
  match sys.batch with
  | none => 0
  | some batch => batch.data.length

def System.unpushed (sys : System) : Nat :=
  match sys.reading with
  | none => 0
  | some chunk => chunk.length

structure Sound (sys : System) : Prop where
  ingested : sys.ingestSeq = sys.output.length
  pushed : sys.output.length = sys.pushed + sys.unpushed
  reading : ∀ {chunk}, sys.reading = some chunk → chunk = sys.output.drop sys.pushed
  tail : sys.pending <:+ sys.output.take sys.pushed
  count : sys.seq + sys.held + sys.pending.length + sys.dropped = sys.pushed
  batch : ∀ {batch}, sys.batch = some batch →
    batch.data <:+ sys.output.take batch.position ∧ batch.position ≤ sys.pushed ∧
      sys.seq + batch.data.length + batch.dropped = batch.position
  delivered : ∀ {frame}, frame ∈ sys.delivered →
    frame.payload <:+ sys.output.take frame.position ∧ frame.position ≤ sys.pushed ∧
      frame.seq + frame.dropped = frame.position

theorem initial_sound (sessionId : String) : Sound (.initial sessionId) where
  ingested := rfl
  pushed := rfl
  reading := by simp [System.initial]
  tail := by simp [System.initial]
  count := rfl
  batch := by simp [System.initial]
  delivered := by simp [System.initial]

variable {sys : System} {label : Label}

theorem tee_sound (sound : Sound sys) (idle : sys.reading = none) (chunk : Bytes) :
    Sound { sys with
      ingestSeq := sys.ingestSeq + chunk.length
      reading := some chunk
      output := sys.output ++ chunk } := by
  have allPushed : sys.output.length = sys.pushed := by
    have pushed := sound.pushed
    unfold System.unpushed at pushed
    rwa [idle] at pushed
  have kept : ∀ {position}, position ≤ sys.pushed →
      (sys.output ++ chunk).take position = sys.output.take position := by
    intro position inside
    rw [List.take_append_of_le_length (by omega)]
  exact {
    ingested := by
      show sys.ingestSeq + chunk.length = (sys.output ++ chunk).length
      rw [sound.ingested, List.length_append]
    pushed := by
      show (sys.output ++ chunk).length = sys.pushed + chunk.length
      rw [List.length_append, allPushed]
    reading := by
      intro read isRead
      cases isRead
      show chunk = (sys.output ++ chunk).drop sys.pushed
      rw [← allPushed, List.drop_left]
    tail := by
      show sys.pending <:+ (sys.output ++ chunk).take sys.pushed
      rw [kept (Nat.le_refl _)]
      exact sound.tail
    count := sound.count
    batch := by
      intro batch isBatch
      obtain ⟨isSuffix, inside, counted⟩ := sound.batch isBatch
      refine ⟨?_, inside, counted⟩
      show batch.data <:+ (sys.output ++ chunk).take batch.position
      rw [kept inside]
      exact isSuffix
    delivered := by
      intro frame member
      obtain ⟨isSuffix, inside, counted⟩ := sound.delivered member
      refine ⟨?_, inside, counted⟩
      show frame.payload <:+ (sys.output ++ chunk).take frame.position
      rw [kept inside]
      exact isSuffix }

theorem push_sound (sound : Sound sys) {chunk : Bytes}
    (isReading : sys.reading = some chunk) : Sound (sys.push chunk) := by
  have isChunk := sound.reading isReading
  have allPushed : sys.output.length = sys.pushed + chunk.length := by
    have pushed := sound.pushed
    unfold System.unpushed at pushed
    rwa [isReading] at pushed
  have whole : sys.output.take (sys.pushed + chunk.length) =
      sys.output.take sys.pushed ++ chunk := by
    rw [List.take_add, ← isChunk, List.take_length]
  exact {
    ingested := sound.ingested
    pushed := allPushed
    reading := fun isRead => by cases isRead
    tail := by
      show (sys.pending ++ chunk).drop (overflow (sys.pending ++ chunk)) <:+
        sys.output.take (sys.pushed + chunk.length)
      rw [whole]
      obtain ⟨front, joined⟩ := sound.tail
      refine (List.drop_suffix _ _).trans ⟨front, ?_⟩
      rw [← joined, List.append_assoc]
    count := by
      have counted := sound.count
      have held : (sys.push chunk).held = sys.held := rfl
      rw [held]
      show sys.seq + sys.held +
        ((sys.pending ++ chunk).drop (overflow (sys.pending ++ chunk))).length +
        (sys.dropped + min (overflow (sys.pending ++ chunk)) (sys.pending ++ chunk).length) =
          sys.pushed + chunk.length
      rw [List.length_drop]
      have joined : (sys.pending ++ chunk).length = sys.pending.length + chunk.length :=
        List.length_append
      omega
    batch := by
      intro batch isBatch
      obtain ⟨isSuffix, inside, counted⟩ := sound.batch isBatch
      exact ⟨isSuffix, Nat.le_add_right_of_le inside, counted⟩
    delivered := by
      intro frame member
      obtain ⟨isSuffix, inside, counted⟩ := sound.delivered member
      exact ⟨isSuffix, Nat.le_add_right_of_le inside, counted⟩ }

theorem drain_sound (sound : Sound sys) (noBatch : sys.batch = none) :
    Sound { sys with
      pending := []
      batch := some ⟨sys.pending, sys.pushed, sys.dropped⟩ } := by
  have counted := sound.count
  have noneHeld : sys.held = 0 := by
    unfold System.held
    rw [noBatch]
  rw [noneHeld] at counted
  exact {
    __ := sound
    tail := List.nil_suffix
    count := by
      show sys.seq + sys.pending.length + 0 + sys.dropped = sys.pushed
      omega
    batch := by
      intro batch isBatch
      cases isBatch
      refine ⟨sound.tail, Nat.le_refl _, ?_⟩
      show sys.seq + sys.pending.length + sys.dropped = sys.pushed
      omega
    delivered := sound.delivered }

theorem onOutput_sound (sound : Sound sys) {batch : Batch}
    (isBatch : sys.batch = some batch) : Sound (sys.onOutput batch) := by
  obtain ⟨isSuffix, inside, position⟩ := sound.batch isBatch
  have counted := sound.count
  have held : sys.held = batch.data.length := by
    unfold System.held
    rw [isBatch]
  rw [held] at counted
  exact {
    __ := sound
    count := by
      show sys.seq + batch.data.length + 0 + sys.pending.length + sys.dropped =
        sys.pushed
      omega
    batch := fun isNext => by cases isNext
    delivered := by
      intro frame member
      simp only [System.onOutput] at member
      split at member
      · rw [List.mem_append, List.mem_singleton] at member
        rcases member with earlier | isNew
        · exact sound.delivered earlier
        · rw [isNew]
          exact ⟨isSuffix, inside, position⟩
      · exact sound.delivered member }

theorem step_sound {next : System} (sound : Sound sys)
    (ran : step sys label = some next) : Sound next := by
  cases label with
  | tee chunk =>
    simp only [step] at ran
    split at ran
    · next idle =>
      split_ifs at ran
      cases ran
      exact tee_sound sound idle chunk
    · contradiction
  | push =>
    simp only [step, Option.map_eq_some_iff] at ran
    obtain ⟨chunk, isReading, isNext⟩ := ran
    rw [← isNext]
    exact push_sound sound isReading
  | drain =>
    simp only [step] at ran
    split at ran
    · next noBatch =>
      split_ifs at ran
      cases ran
      exact drain_sound sound noBatch
    · contradiction
  | onOutput =>
    simp only [step, Option.map_eq_some_iff] at ran
    obtain ⟨batch, isBatch, isNext⟩ := ran
    rw [← isNext]
    exact onOutput_sound sound isBatch
  | close =>
    simp only [step] at ran
    split at ran
    · cases ran
      exact ⟨sound.ingested, sound.pushed, sound.reading, sound.tail, sound.count, sound.batch,
        sound.delivered⟩
    · contradiction

/-- Nothing has been dropped so far. -/
structure Complete (sys : System) : Prop where
  dropped : sys.dropped = 0
  batch : ∀ {batch}, sys.batch = some batch → batch.dropped = 0
  delivered : ∀ {frame}, frame ∈ sys.delivered → frame.dropped = 0

theorem step_complete {next : System} (complete : Complete sys) (ok : Uncapped sys label)
    (ran : step sys label = some next) : Complete next := by
  cases label with
  | tee chunk =>
    simp only [step] at ran
    split at ran
    · split_ifs at ran
      cases ran
      exact ⟨complete.dropped, complete.batch, complete.delivered⟩
    · contradiction
  | push =>
    simp only [step, Option.map_eq_some_iff] at ran
    obtain ⟨chunk, isReading, isNext⟩ := ran
    have short := ok chunk isReading
    have noOverflow : overflow (sys.pending ++ chunk) = 0 := by
      unfold overflow
      rw [if_neg (by rw [List.length_append]; omega)]
    rw [← isNext]
    refine ⟨?_, complete.batch, complete.delivered⟩
    show sys.dropped + min (overflow (sys.pending ++ chunk)) _ = 0
    rw [noOverflow, complete.dropped, Nat.zero_min]
  | drain =>
    simp only [step] at ran
    split at ran
    · split_ifs at ran
      cases ran
      refine ⟨complete.dropped, ?_, complete.delivered⟩
      intro batch isBatch
      cases isBatch
      exact complete.dropped
    · contradiction
  | onOutput =>
    simp only [step, Option.map_eq_some_iff] at ran
    obtain ⟨batch, isBatch, isNext⟩ := ran
    rw [← isNext]
    refine ⟨complete.dropped, by simp [System.onOutput], ?_⟩
    intro frame member
    simp only [System.onOutput] at member
    split at member
    · rw [List.mem_append, List.mem_singleton] at member
      rcases member with earlier | isNew
      · exact complete.delivered earlier
      · rw [isNew]
        exact complete.batch isBatch
    · exact complete.delivered member
  | close =>
    simp only [step] at ran
    split at ran
    · cases ran
      exact ⟨complete.dropped, complete.batch, complete.delivered⟩
    · contradiction

theorem reachable_sound {sessionId : String} {ok : System → Label → Prop}
    (run : Run step ok (.initial sessionId) sys) : Sound sys :=
  run.invariant (initial_sound sessionId) fun _ _ _ sound _ ran => step_sound sound ran

/-- **The stamps agree with the ingestion as long as nothing is dropped**, and from the
first drop on no stamp does. -/
theorem stampsAgree {sessionId : String} {sys : System}
    (reachable : Reachable step (.initial sessionId) sys) :
    (Run step Uncapped (.initial sessionId) sys →
      sys.ingestSeq = sys.output.length ∧ ∀ frame ∈ sys.delivered,
        frame.payload <:+ sys.output.take frame.position ∧
          frame.position ≤ sys.ingestSeq ∧ frame.seq = frame.position) ∧
      ∀ frame ∈ sys.delivered, frame.seq = frame.position ↔ frame.dropped = 0 := by
  have sound := reachable_sound reachable
  constructor
  · intro run
    have complete : Complete sys := by
      apply run.invariant
      · exact ⟨rfl, by simp [System.initial], by simp [System.initial]⟩
      · intro _ _ _ before ok ran
        exact step_complete before ok ran
    refine ⟨sound.ingested, ?_⟩
    intro frame member
    obtain ⟨isSuffix, inside, counted⟩ := sound.delivered member
    have nothing := complete.delivered member
    have pushed := sound.pushed
    have ingested := sound.ingested
    exact ⟨isSuffix, by omega, by omega⟩
  · intro frame member
    obtain ⟨_, _, counted⟩ := sound.delivered member
    omega

/-! ## A flusher that does not keep up -/

section
variable {chunk : Bytes}

/-- A chunk that has been read a number of times. -/
def repeated (chunk : Bytes) (reads : Nat) : Bytes := (List.replicate reads chunk).flatten

theorem repeated_succ (reads : Nat) :
    repeated chunk (reads + 1) = repeated chunk reads ++ chunk := by
  unfold repeated
  rw [List.replicate_succ', List.flatten_append, List.flatten_singleton]

theorem repeated_length (reads : Nat) : (repeated chunk reads).length = reads * chunk.length := by
  induction reads with
  | zero => simp [repeated]
  | succ reads ih =>
    rw [repeated_succ, List.length_append, ih, Nat.succ_mul]

/-- The flusher has drained nothing of what was read. -/
def stalled (chunk : Bytes) (reads : Nat) : System :=
  { System.initial "s1" with
    ingestSeq := (repeated chunk reads).length
    pending := repeated chunk reads
    output := repeated chunk reads
    pushed := (repeated chunk reads).length }

/-- The reader has ingested one more chunk. -/
def teed (chunk : Bytes) (reads : Nat) : System :=
  { stalled chunk reads with
    ingestSeq := (repeated chunk (reads + 1)).length
    reading := some chunk
    output := repeated chunk (reads + 1) }

theorem tee_stalled (whole : chunk.length = readBufBytes) (reads : Nat) :
    step (stalled chunk reads) (.tee chunk) = some (teed chunk reads) := by
  have accepted : ¬ (chunk = [] ∨ readBufBytes < chunk.length ∨
      (stalled chunk reads).closed = true) := by
    rintro (empty | long | closed)
    · rw [empty] at whole
      contradiction
    · omega
    · cases closed
  have taken : step (stalled chunk reads) (.tee chunk) = some { stalled chunk reads with
      ingestSeq := (repeated chunk reads).length + chunk.length
      reading := some chunk
      output := repeated chunk reads ++ chunk } := if_neg accepted
  rw [taken, ← List.length_append, ← repeated_succ]
  rfl

variable {reads : Nat}

theorem push_teed (whole : chunk.length = readBufBytes) (room : reads < 1024) :
    step (teed chunk reads) .push = some (stalled chunk (reads + 1)) := by
  have pending : (teed chunk reads).pending ++ chunk = repeated chunk (reads + 1) :=
    (repeated_succ reads).symm
  have short : ¬ maxPendingBytes < (repeated chunk (reads + 1)).length := by
    rw [repeated_length, whole]
    unfold maxPendingBytes outputFlushSize readBufBytes
    omega
  have noOverflow : overflow (repeated chunk (reads + 1)) = 0 := if_neg short
  have pushed : step (teed chunk reads) .push = some ((teed chunk reads).push chunk) := rfl
  have total : (teed chunk reads).pushed + chunk.length = (repeated chunk (reads + 1)).length := by
    rw [repeated_succ, List.length_append]
    rfl
  rw [pushed]
  unfold System.push
  dsimp only
  rw [pending, noOverflow, decide_eq_false short, List.drop_zero, Nat.zero_min, total]
  rfl

theorem stalled_reachable (whole : chunk.length = readBufBytes) (room : reads ≤ 1024) :
    Reachable step (.initial "s1") (stalled chunk reads) := by
  induction reads with
  | zero => exact .refl
  | succ reads ih =>
    have teedReachable : Reachable step (.initial "s1") (teed chunk reads) :=
      .tail _ (ih (Nat.le_of_succ_le room)) trivial (tee_stalled whole reads)
    exact .tail _ teedReachable trivial (push_teed whole room)

theorem overflow_repeated (whole : chunk.length = readBufBytes)
    (lead : ∀ b ∈ chunk, isContinuationByte b = false) :
    overflow (repeated chunk 1025) = readBufBytes := by
  have long : maxPendingBytes < (repeated chunk 1025).length := by
    rw [repeated_length, whole]
    decide
  have excess : (repeated chunk 1025).length - maxPendingBytes = readBufBytes := by
    rw [repeated_length, whole]
    decide
  have noMore : ((repeated chunk 1025).drop readBufBytes).takeWhile isContinuationByte = [] := by
    rw [List.takeWhile_eq_nil_iff]
    intro nonempty
    have isLead := lead (((repeated chunk 1025).drop readBufBytes)[0]) (by
      have member := List.mem_of_mem_drop (List.getElem_mem nonempty)
      unfold repeated at member
      obtain ⟨part, isPart, inPart⟩ := List.mem_flatten.mp member
      rw [List.eq_of_mem_replicate isPart] at inPart
      exact inPart)
    rw [List.get_eq_getElem, isLead]
    exact Bool.false_ne_true
  unfold overflow
  rw [if_pos long]
  dsimp only
  rw [excess, noMore, List.length_nil, Nat.add_zero]

end

theorem encode_short (seq : UInt64) {data : Bytes} (short : data.length ≤ maxPendingBytes) :
    ∃ bytes, (⟨.data, "s1", seq, data⟩ : StreamFrame).encode = .ok bytes := by
  have sidShort : ¬ Framing.maxSessionIdBytes < (AiTools.Lib.Utf8.bytes "s1").length := by
    decide +kernel
  have payloadShort : ¬ Framing.maxStreamFramePayload < data.length := by
    unfold Framing.maxStreamFramePayload
    unfold maxPendingBytes outputFlushSize at short
    omega
  unfold StreamFrame.encode
  dsimp only
  rw [if_neg sidShort, if_neg payloadShort]
  exact ⟨_, rfl⟩

/-- The first frame after a drop is stamped one read too low. -/
theorem not_stampsAgree : ¬ StampsAgree fun _ _ => True := by
  intro agree
  obtain ⟨chunk, whole, lead⟩ : ∃ chunk : Bytes, chunk.length = readBufBytes ∧
      ∀ b ∈ chunk, isContinuationByte b = false := by
    refine ⟨List.replicate readBufBytes 0x41, List.length_replicate, ?_⟩
    intro b member
    rw [List.eq_of_mem_replicate member]
    rfl
  have teedReachable : Reachable step (.initial "s1") (teed chunk 1024) :=
    .tail _ (stalled_reachable whole (Nat.le_refl _)) trivial (tee_stalled whole 1024)
  have pending : (teed chunk 1024).pending ++ chunk = repeated chunk 1025 :=
    (repeated_succ 1024).symm
  have excess := overflow_repeated whole lead
  let full := (teed chunk 1024).push chunk
  have kept : full.pending.length = maxPendingBytes := by
    show (((teed chunk 1024).pending ++ chunk).drop
      (overflow ((teed chunk 1024).pending ++ chunk))).length = _
    rw [pending, excess, List.length_drop, repeated_length, whole]
    decide
  have pushedReachable : Reachable step (.initial "s1") full :=
    .tail .push teedReachable trivial rfl
  let batch : Batch := ⟨full.pending, full.pushed, full.dropped⟩
  have drained : step full .drain = some { full with pending := [], batch := some batch } := by
    have nonempty : ¬ full.pending = [] := by
      intro empty
      rw [empty] at kept
      contradiction
    exact if_neg nonempty
  let flushed : System := { full with pending := [], batch := some batch }
  have flushedReachable : Reachable step (.initial "s1") flushed :=
    pushedReachable.tail .drain trivial drained
  have sent : Reachable step (.initial "s1") (flushed.onOutput batch) :=
    flushedReachable.tail .onOutput trivial rfl
  let frame : Delivered :=
    ⟨0 + batch.data.length, batch.data, batch.position, batch.dropped⟩
  have isDelivered : frame ∈ (flushed.onOutput batch).delivered := by
    obtain ⟨bytes, encoded⟩ := encode_short (UInt64.ofNat (0 + batch.data.length))
      (Nat.le_of_eq kept)
    have encodes : (⟨.data, flushed.sessionId, UInt64.ofNat (flushed.seq + batch.data.length),
        batch.data⟩ : StreamFrame).encode = .ok bytes := encoded
    unfold System.onOutput
    dsimp only
    rw [encodes]
    exact List.mem_append_right _ (List.mem_singleton_self _)
  have stamped := ((agree "s1" _ sent).2 _ isDelivered).2.2
  have position : batch.position = 1025 * readBufBytes := by
    show (repeated chunk 1024).length + chunk.length = _
    rw [repeated_length, whole]
    rfl
  have stamp : frame.seq = maxPendingBytes := by
    show 0 + batch.data.length = _
    rw [Nat.zero_add]
    exact kept
  rw [stamp, show frame.position = _ from position] at stamped
  contradiction

/-- One byte is read, pushed, drained and delivered. -/
def oneRead : List Label := [.tee [0x41], .push, .drain, .onOutput]

theorem stampsAgree_oneRead :
    ∃ sys frame, Run step Uncapped (.initial "s1") sys ∧ frame ∈ sys.delivered ∧
      frame.payload = [0x41] ∧ frame.seq = frame.position := by
  have permitted : Permitted step Uncapped (.initial "s1") oneRead := by
    refine ⟨trivial, _, rfl, ?_, _, rfl, trivial, _, rfl, trivial, _, rfl, trivial⟩
    intro chunk isReading
    cases isReading
    decide
  obtain ⟨sys, replayed, isDelivered⟩ :
      ∃ sys, execute step (.initial "s1") oneRead = some sys ∧
        sys.delivered = [⟨1, [0x41], 1, 0⟩] :=
    ⟨_, rfl, by decide +kernel⟩
  have run := run_of_permitted oneRead permitted replayed
  have member : (⟨1, [0x41], 1, 0⟩ : Delivered) ∈ sys.delivered := by
    rw [isDelivered]
    exact List.mem_singleton_self _
  have agree := (stampsAgree (reachable_of_execute _ replayed)).1 run
  exact ⟨sys, _, run, member, rfl, (agree.2 _ member).2.2⟩

end AiTools.Daemon.Session.Coalescer
