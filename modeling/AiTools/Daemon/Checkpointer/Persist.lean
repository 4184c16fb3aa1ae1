import AiTools.Daemon.History.CrashSafety
import AiTools.Daemon.Session.Output

/-!
Contract: what the history of one session holds after its persists.

A session whose full checkpoint fails is no longer persisted.
-/

namespace AiTools.Daemon.Checkpointer

open AiTools.Lib.TaggedFrames
open AiTools.Lib.Transition
open AiTools.Daemon.History
open AiTools.Daemon.Session

/-! ## The persist pass -/

/-- What `build_checkpoint` reads from a session beside its ring. The snapshot is
`none` when the emulator is poisoned. -/
structure SourceReads where
  snapshot : Option DaemonSnapshot
  cwd : Option String
  appliedSize : UInt16 × UInt16
  outputSequence : UInt64

def buildCheckpoint (ringTail : List UInt8) (source : SourceReads) : Checkpoint :=
  match source.snapshot with
  | some snap =>
    { snapshotAnsi := snap.snapshotAnsi
      scrollbackAnsi := ringTail
      rehydrateSequences := snap.rehydrateSequences
      pendingEscapeTail := snap.pendingEscapeTail
      cwd := snap.cwd.or source.cwd
      cols := snap.cols
      rows := snap.rows
      isAlternateScreen := snap.isAlternateScreen
      kittyKeyboardFlags := snap.kittyKeyboardFlags
      lastTitle := snap.title
      scrollbackSeq := snap.outputSequence
      generation := 0
      checkpointedAtMs := 0 }
  | none =>
    { snapshotAnsi := []
      scrollbackAnsi := ringTail
      rehydrateSequences := []
      pendingEscapeTail := []
      cwd := source.cwd
      cols := source.appliedSize.1
      rows := source.appliedSize.2
      isAlternateScreen := false
      kittyKeyboardFlags := 0
      lastTitle := none
      scrollbackSeq := source.outputSequence
      generation := 0
      checkpointedAtMs := 0 }

@[simp] theorem buildCheckpoint_ring (ringTail : List UInt8) (source : SourceReads) :
    (buildCheckpoint ringTail source).scrollbackAnsi = ringTail := by
  unfold buildCheckpoint
  split <;> rfl

/-- The directory after all steps of an operation. -/
def finishRun (disk : Disk) (run : WriterRun) : Disk :=
  run.steps.foldl DiskStep.apply disk

/-- The directory after an operation whose last step failed, `cut` bytes into its
write. -/
def failRun (disk : Disk) (cut : Nat) (run : WriterRun) : Disk :=
  match run.steps.getLast? with
  | none => disk
  | some last => last.tear (run.steps.dropLast.foldl DiskStep.apply disk) cut

/-- Where the one persist that may be in flight for a session stands. -/
inductive Phase where
  | idle
  /-- `take_pending` returned records that are not yet appended. -/
  | taken (records : List HistoryRecord)
  /-- A full checkpoint is due and the ring not yet read. -/
  | anchoring
  /-- The checkpoint is built and not yet written. -/
  | built (checkpoint : Checkpoint)

/-- One session. `teeing` is a chunk that the reader has appended to the ring but
not yet to the pending records; `clearing` counts clears between the same two
points. The last four fields are history variables: the output since the last
clear as the ring and as the records have seen it, the one that the persist in
flight is to show, and the one that the last completed persist has to show. -/
structure System where
  ring : Ring
  pending : PendingOutput
  historyEnabled : Bool
  teeing : Option (List UInt8)
  clearing : Nat
  phase : Phase
  disk : Disk
  writer : HistoryWriter
  output : List UInt8
  recorded : List UInt8
  target : List UInt8
  persisted : Option (List UInt8)

inductive Label where
  | teeRing (chunk : List UInt8)
  | teePush
  | clearRing
  | clearPush
  | resize (cols rows : UInt16)
  | enableHistory
  /-- A tick's `persist`, or with `finalFlush` the one of `flush_all`. -/
  | persist (finalFlush : Bool)
  | append
  | appendFails (cut : Nat)
  | readRing (source : SourceReads)
  | writeCheckpoint (nowMs : UInt64)

/-- The pending records after a push, which is inert until history is enabled. -/
def System.pushed (sys : System) (push : PendingOutput → PendingOutput) : PendingOutput :=
  if sys.historyEnabled then push sys.pending else sys.pending

def step (limit : Nat) (sys : System) : Label → Option System
  | .teeRing chunk =>
    match sys.teeing with
    | some _ => none
    | none =>
      some { sys with
        ring := appendScrollbackCapped sys.ring chunk limit
        teeing := some chunk
        output := sys.output ++ chunk }
  | .teePush =>
    match sys.teeing with
    | none => none
    | some chunk =>
      some { sys with
        pending := sys.pushed fun pending => pending.pushOutput chunk
        teeing := none
        recorded := sys.recorded ++ chunk }
  | .clearRing =>
    some { sys with
      ring := ⟨[], false⟩
      clearing := sys.clearing + 1
      output := [] }
  | .clearPush =>
    match sys.clearing with
    | 0 => none
    | clearing + 1 =>
      some { sys with
        pending := sys.pushed fun pending => pending.pushRecord .clear
        clearing := clearing
        recorded := [] }
  | .resize cols rows =>
    some { sys with
      pending := sys.pushed fun pending => pending.pushRecord (.resize cols rows) }
  | .enableHistory => some { sys with historyEnabled := true }
  | .persist finalFlush =>
    match sys.phase with
    | .idle =>
      if finalFlush ∨ sys.writer.needsFullAnchor then
        some { sys with phase := .anchoring }
      else
        let take := sys.pending.take.1
        let pending := sys.pending.take.2
        if take.overflowed then some { sys with pending := pending, phase := .anchoring }
        else if take.records.isEmpty then
          some { sys with pending := pending, persisted := some sys.recorded }
        else
          some { sys with
            pending := pending
            phase := .taken take.records
            target := sys.recorded }
    | _ => none
  | .append =>
    match sys.phase with
    | .taken records =>
      match sys.writer.appendIncrements sys.disk records with
      | (.appended, run) =>
        some { sys with
          disk := finishRun sys.disk run
          writer := run.writer
          phase := .idle
          persisted := some sys.target }
      | (.needsCheckpoint, run) =>
        some { sys with writer := run.writer, phase := .anchoring }
    | _ => none
  | .appendFails cut =>
    match sys.phase with
    | .taken records =>
      match sys.writer.appendIncrements sys.disk records with
      | (.appended, run) =>
        some { sys with
          disk := failRun sys.disk cut run
          writer := (sys.writer.resolveLogState sys.disk).forceFullAnchor
          phase := .idle }
      | (.needsCheckpoint, _) => none
    | _ => none
  | .readRing source =>
    match sys.phase with
    | .anchoring =>
      some { sys with
        phase := .built (buildCheckpoint sys.ring.buf source)
        target := sys.output }
    | _ => none
  | .writeCheckpoint nowMs =>
    match sys.phase with
    | .built checkpoint =>
      let run := sys.writer.checkpoint sys.disk checkpoint nowMs
      some { sys with
        disk := finishRun sys.disk run
        writer := run.writer
        phase := .idle
        persisted := some sys.target }
    | _ => none

/-- Nothing relies on the pending records: a full checkpoint comes first. -/
def System.Unanchored (sys : System) : Prop :=
  sys.phase = .anchoring ∨ sys.phase = .idle ∧ sys.writer.needsFullAnchor = true

/-- Records that change no scrollback. -/
def Inert (records : List HistoryRecord) : Prop := ∀ base, replay base records = base

/-- A failed append tore inside the `Batch` frame, or after records that change
nothing in a batch without further Output bytes. -/
def HarmlessTear (records : List HistoryRecord) (cut : Nat) : Prop :=
  cut < batchFrameSize ∨ recordsOutputBytes (recordSurvivors records (cut - batchFrameSize)).1 =
        recordsOutputBytes records ∧
      Inert (recordSurvivors records (cut - batchFrameSize)).1

/-- A full checkpoint leaves the pending records in place, so it reads the ring
only while these would change nothing on it and no tee or clear stands between
ring and records, or while they have overflowed. Output and clears do not
overtake each other between the two, and are recorded unless a full checkpoint
follows. -/
def Exact (sys : System) : Label → Prop
  | .teeRing _ => sys.clearing = 0
  | .teePush => sys.historyEnabled = true ∨ sys.Unanchored
  | .clearPush => sys.teeing = none ∧ (sys.historyEnabled = true ∨ sys.Unanchored)
  | .readRing source =>
    (sys.pending.overflowed = true ∨ sys.teeing = none ∧ sys.clearing = 0 ∧
        replay sys.ring.buf sys.pending.records = sys.ring.buf) ∧
      (sys.ring.buf = [] → (buildCheckpoint sys.ring.buf source).isAlternateScreen = false ∨
          (buildCheckpoint sys.ring.buf source).snapshotAnsi = [])
  | .writeCheckpoint nowMs =>
    ∀ sessionMeta, sys.disk.sessionMeta = some sessionMeta →
      nowMs = 0 ∨ sessionMeta.startedAtMs ≤ nowMs
  | .appendFails cut => ∀ records, sys.phase = .taken records → HarmlessTear records cut
  | _ => True

/-- A session that was just registered: its meta is written, its writer waits for
the anchor, and no output is between ring and records. -/
structure Registered (limit : Nat) (sys : System) : Prop where
  eligible : ∃ sessionMeta, sys.disk.sessionMeta = some sessionMeta ∧
    sessionMeta.endedAtMs = none
  unanchored : sys.writer.needsFullAnchor = true
  cap : sys.writer.logMaxBytes = defaultLogMaxBytes
  phase : sys.phase = .idle
  ring : sys.ring.buf = newest limit sys.output
  settled : sys.teeing = none ∧ sys.clearing = 0 ∧ sys.recorded = sys.output
  persisted : sys.persisted = none

variable {σ : Type*} (emulator : DaemonEmulator σ)

/-- A cold restore of the directory shows a scrollback. -/
def Displays (disk : Disk) (scrollback : List UInt8) : Prop :=
  ∀ ignoreCleanEnd, ∃ restore,
    HistoryReader.detectColdRestore emulator disk ignoreCleanEnd = some restore ∧
      restore.scrollbackForReplay = scrollback

variable {disk : Disk} {cp : Checkpoint} {batches : List (List HistoryRecord)}
  {writer : HistoryWriter} {records : List HistoryRecord} {cut limit : Nat} {nowMs : UInt64}
  {sys later next : System}

theorem displays_unique {emulator : DaemonEmulator σ} {first second : List UInt8}
    (left : Displays emulator disk first) (right : Displays emulator disk second) :
    first = second := by
  obtain ⟨restore, restored, shown⟩ := left false
  obtain ⟨other, otherRestored, otherShown⟩ := right false
  rw [restored] at otherRestored
  cases otherRestored
  exact shown.symm.trans otherShown

/-- A checkpoint that a restore takes for its ring. -/
structure Usable (disk : Disk) (cp : Checkpoint) : Prop where
  eligible : ∃ sessionMeta, disk.sessionMeta = some sessionMeta ∧ sessionMeta.endedAtMs = none ∧
    (cp.checkpointedAtMs = 0 ∨ sessionMeta.startedAtMs ≤ cp.checkpointedAtMs)
  onDisk : disk.checkpoint = .present cp
  plain : cp.scrollback = cp.scrollbackAnsi

/-- The checkpoint is on disk, the log holds exactly the batches behind it, and
the writer goes on from there. -/
structure Anchored (disk : Disk) (writer : HistoryWriter) (cp : Checkpoint)
    (batches : List (List HistoryRecord)) : Prop where
  usable : Usable disk cp
  log : disk.log = some (encodeLog cp.generation (stampBatches 0 batches))
  encodable : ∀ records ∈ batches, ∀ record ∈ records, record.Encodable
  generation : writer.logGeneration = some cp.generation
  bytes : ∃ bytes, writer.logBytes = some bytes ∧ bytes ≠ 0
  appended : writer.appendedOutputBytes = recordsOutputBytes batches.flatten

variable {emulator}

theorem Usable.displays (usable : Usable disk cp) {buf : List UInt8} {log : DecodedLog}
    (onDisk : disk.log = some buf) (decodes : decodeLog buf = some log)
    (paired : log.generation = cp.generation) :
    Displays emulator disk
      (replay cp.scrollbackAnsi (log.batches.flatMap LogBatch.records)) := by
  intro ignoreCleanEnd
  obtain ⟨sessionMeta, metaOnDisk, unended, current⟩ := usable.eligible
  exact HistoryReader.detectColdRestore_paired emulator ignoreCleanEnd metaOnDisk unended
    usable.onDisk current usable.plain onDisk decodes paired

theorem decodeLog_stamped (generation : UInt32)
    (encodable : ∀ records ∈ batches, ∀ record ∈ records, record.Encodable) :
    decodeLog (encodeLog generation (stampBatches 0 batches)) =
      some ⟨generation, stampBatches 0 batches, false⟩ := by
  rw [decodeLog_encodeLog generation _ (stampBatches_encodable 0 encodable),
    if_pos (stampBatches_consistent 0 batches)]

theorem Anchored.displays (anchored : Anchored disk writer cp batches) :
    Displays emulator disk (replay cp.scrollbackAnsi batches.flatten) := by
  have displays : Displays emulator disk _ :=
    anchored.usable.displays anchored.log
      (decodeLog_stamped cp.generation anchored.encodable) rfl
  rwa [stampBatches_records] at displays

/-- The three results of an append behind an anchor: nothing for no records, a
refusal at the log's cap, or the batch behind the log. -/
theorem Anchored.append_cases (anchored : Anchored disk writer cp batches)
    (cap : writer.logMaxBytes = defaultLogMaxBytes) (nonempty : records ≠ []) :
    writer.appendIncrements disk records = (.needsCheckpoint, ⟨[], writer⟩) ∨
      (∀ member ∈ batches ++ [records], ∀ record ∈ member, record.Encodable) ∧
        ∃ next : HistoryWriter, writer.appendIncrements disk records =
            (.appended, ⟨[.appendLog (encodeFrames (nextBatch batches records).frames)], next⟩) ∧
          next.logMaxBytes = writer.logMaxBytes ∧
          next.logGeneration = writer.logGeneration ∧
          (∃ bytes, next.logBytes = some bytes ∧ bytes ≠ 0) ∧
          next.appendedOutputBytes = (nextBatch batches records).seq := by
  obtain ⟨bytes, hasBytes, positive⟩ := anchored.bytes
  have stamped : writer.stampedBatch records = nextBatch batches records := by
    rw [HistoryWriter.stampedBatch, anchored.appended]
    rfl
  rcases @HistoryWriter.appendIncrements_cases disk _ _ _ _ anchored.generation hasBytes
    nonempty with refused | ⟨small, result⟩
  · exact .inl refused
  · rw [stamped, if_neg positive, if_neg positive, List.nil_append] at result
    rw [stamped, cap] at small
    have capSmall : defaultLogMaxBytes < 2 ^ 32 := by decide
    refine .inr ⟨?_, _, result, rfl, rfl, ⟨_, rfl, by omega⟩, rfl⟩
    intro member inside
    rcases List.mem_append.mp inside with earlier | last
    · exact anchored.encodable member earlier
    · rw [List.mem_singleton] at last
      subst last
      apply @encodable_of_size (nextBatch batches member)
      exact Nat.lt_of_le_of_lt small capSmall

theorem Anchored.append {next : HistoryWriter} (anchored : Anchored disk writer cp batches)
    (encodable : ∀ member ∈ batches ++ [records], ∀ record ∈ member, record.Encodable)
    (generation : next.logGeneration = writer.logGeneration)
    (bytes : ∃ bytes, next.logBytes = some bytes ∧ bytes ≠ 0)
    (appended : next.appendedOutputBytes = (nextBatch batches records).seq) :
    Anchored
      (finishRun disk ⟨[.appendLog (encodeFrames (nextBatch batches records).frames)], next⟩)
      next cp (batches ++ [records]) where
  usable := ⟨anchored.usable.eligible, anchored.usable.onDisk, anchored.usable.plain⟩
  log := by
    change disk.log.map _ = _
    rw [anchored.log, Option.map_some, ← encodeLog_snoc]
  encodable := encodable
  generation := generation.trans anchored.generation
  bytes := bytes
  appended := by
    rw [appended]
    change recordsOutputBytes batches.flatten + recordsOutputBytes records = _
    simp

theorem Anchored.tear {next : HistoryWriter} (anchored : Anchored disk writer cp batches)
    (encodable : ∀ member ∈ batches ++ [records], ∀ record ∈ member, record.Encodable)
    (harmless : HarmlessTear records cut) :
    Displays emulator
      (failRun disk cut ⟨[.appendLog (encodeFrames (nextBatch batches records).frames)], next⟩)
      (replay cp.scrollbackAnsi batches.flatten) := by
  have usable : Usable
      (failRun disk cut ⟨[.appendLog (encodeFrames (nextBatch batches records).frames)], next⟩)
      cp := ⟨anchored.usable.eligible, anchored.usable.onDisk, anchored.usable.plain⟩
  have log : (failRun disk cut
      ⟨[.appendLog (encodeFrames (nextBatch batches records).frames)], next⟩).log =
        some (encodeLog cp.generation (stampBatches 0 batches) ++
          (encodeFrames (nextBatch batches records).frames).take cut) := by
    change disk.log.map _ = _
    rw [anchored.log]
    rfl
  obtain ⟨truncatedTail, decodes⟩ := decodeLog_snoc_take cp.generation encodable cut
  by_cases inFrame : cut < batchFrameSize
  · have none : (survivors [nextBatch batches records] cut).1 = [] := by
      rw [survivors, if_pos inFrame]
    rw [none, List.append_nil, if_pos (stampBatches_consistent 0 batches)] at decodes
    have displays : Displays emulator _ _ := usable.displays log decodes rfl
    rwa [stampBatches_records] at displays
  · obtain ⟨accounted, inert⟩ := harmless.resolve_left inFrame
    rw [survivors_singleton_of_le (by omega), if_pos] at decodes
    · have displays : Displays emulator _ _ := usable.displays log decodes rfl
      rw [List.flatMap_append, stampBatches_records, replay_append] at displays
      simp only [List.flatMap_cons, List.flatMap_nil, List.append_nil] at displays
      rwa [show (nextBatch batches records).records = records from rfl, inert] at displays
    · exact (snoc_consistent_iff batches records _).mpr accounted

theorem anchored_checkpoint (writer : HistoryWriter)
    (eligible : ∃ sessionMeta, disk.sessionMeta = some sessionMeta ∧
      sessionMeta.endedAtMs = none ∧ (nowMs = 0 ∨ sessionMeta.startedAtMs ≤ nowMs))
    (plain : cp.scrollback = cp.scrollbackAnsi) :
    ∃ stamped, Anchored (finishRun disk (writer.checkpoint disk cp nowMs))
        (writer.checkpoint disk cp nowMs).writer stamped [] ∧
      stamped.scrollbackAnsi = cp.scrollbackAnsi :=
  ⟨{ cp with
      generation := HistoryWriter.nextGeneration disk writer
      checkpointedAtMs := nowMs },
    { usable := ⟨eligible, rfl, plain⟩
      log := by simp [finishRun, HistoryWriter.checkpoint, DiskStep.apply, encodeLog, stampBatches]
      encodable := by simp
      generation := rfl
      bytes := ⟨logHeaderBytes, rfl, by simp [logHeaderBytes]⟩
      appended := rfl }, rfl⟩

/-! ## The invariant -/

/-- What the disk, the persist in flight and the pending records are worth
together: replayed in this order they show the recorded output, unless a full
checkpoint is due. -/
def Tracked (limit : Nat) (disk : Disk) (writer : HistoryWriter) (phase : Phase)
    (pending : PendingOutput) (recorded target : List UInt8) : Prop :=
  match phase with
  | .idle =>
    writer.needsFullAnchor = true ∨ ∃ cp batches, Anchored disk writer cp batches ∧
        (pending.overflowed = true ∨
          Covers limit (replay (replay cp.scrollbackAnsi batches.flatten) pending.records)
            recorded)
  | .taken records =>
    records ≠ [] ∧ ∃ cp batches, Anchored disk writer cp batches ∧
        Covers limit (replay (replay cp.scrollbackAnsi batches.flatten) records) target ∧
        (pending.overflowed = true ∨
          Covers limit (replay (replay (replay cp.scrollbackAnsi batches.flatten) records)
            pending.records) recorded)
  | .anchoring => True
  | .built cp =>
    cp.scrollback = cp.scrollbackAnsi ∧ Covers limit cp.scrollbackAnsi target ∧
      (pending.overflowed = true ∨ Covers limit (replay cp.scrollbackAnsi pending.records) recorded)

/-- How far the records lag behind the ring. -/
def Lag (sys : System) : Prop :=
  if sys.clearing = 0 then
    match sys.teeing with
    | none => sys.recorded = sys.output
    | some chunk => sys.output = sys.recorded ++ chunk
  else sys.output = []

variable (emulator) in
structure Sound (limit : Nat) (sys : System) : Prop where
  eligible : ∃ sessionMeta, sys.disk.sessionMeta = some sessionMeta ∧
    sessionMeta.endedAtMs = none
  cap : sys.writer.logMaxBytes = defaultLogMaxBytes
  ring : sys.ring.buf = newest limit sys.output
  lag : Lag sys
  tracked : Tracked limit sys.disk sys.writer sys.phase sys.pending sys.recorded
    sys.target
  persisted : ∀ expected, sys.persisted = some expected →
    ∃ scrollback, Displays emulator sys.disk scrollback ∧ Covers limit scrollback expected

theorem Tracked.push (change : List UInt8 → List UInt8) (push : PendingOutput → PendingOutput)
    (grows : ∀ base, (push sys.pending).overflowed = false → sys.pending.overflowed = false ∧
        replay base (push sys.pending).records = change (replay base sys.pending.records))
    (covers : ∀ shown output, Covers limit shown output → Covers limit (change shown) (change output))
    (enabled : sys.historyEnabled = true ∨ sys.Unanchored)
    (tracked : Tracked limit sys.disk sys.writer sys.phase sys.pending sys.recorded sys.target) :
    Tracked limit sys.disk sys.writer sys.phase (sys.pushed push)
      (change sys.recorded) sys.target := by
  have kept : ∀ base, sys.historyEnabled = true → (sys.pending.overflowed = true ∨
        Covers limit (replay base sys.pending.records) sys.recorded) →
      ((sys.pushed push).overflowed = true ∨
        Covers limit (replay base (sys.pushed push).records) (change sys.recorded)) := by
    intro base isEnabled before
    have taken : sys.pushed push = push sys.pending := by
      simp [System.pushed, isEnabled]
    rw [taken]
    by_cases fits : (push sys.pending).overflowed = false
    · obtain ⟨before_, replayed⟩ := grows base fits
      rw [replayed]
      rw [before_] at before
      exact .inr (covers _ _ (before.resolve_left (by simp)))
    · exact .inl (by simpa using fits)
  unfold Tracked at tracked ⊢
  cases phase : sys.phase with
  | anchoring => trivial
  | idle =>
    rw [phase] at tracked
    rcases tracked with due | ⟨cp, batches, anchored, before⟩
    · exact .inl due
    · rcases enabled with isEnabled | anchoring | ⟨_, due⟩
      · exact .inr ⟨cp, batches, anchored, kept _ isEnabled before⟩
      · simp [phase] at anchoring
      · exact .inl due
  | taken records =>
    rw [phase] at tracked
    obtain ⟨nonempty, cp, batches, anchored, aimed, before⟩ := tracked
    rcases enabled with isEnabled | anchoring | ⟨idle, _⟩
    · exact ⟨nonempty, cp, batches, anchored, aimed, kept _ isEnabled before⟩
    · simp [phase] at anchoring
    · simp [phase] at idle
  | built cp =>
    rw [phase] at tracked
    obtain ⟨plain, aimed, before⟩ := tracked
    rcases enabled with isEnabled | anchoring | ⟨idle, _⟩
    · exact ⟨plain, aimed, kept _ isEnabled before⟩
    · simp [phase] at anchoring
    · simp [phase] at idle

theorem Lag.push_tee (lag : Lag sys) {chunk : List UInt8} (teeing : sys.teeing = some chunk)
    (clearing : later.clearing = sys.clearing) (settled : later.teeing = none)
    (output : later.output = sys.output) (recorded : later.recorded = sys.recorded ++ chunk) :
    Lag later := by
  unfold Lag at lag ⊢
  rw [clearing, output, settled, recorded]
  rw [teeing] at lag
  split_ifs at lag ⊢
  · exact lag.symm
  · exact lag

/-- The pending records, the output and the phase may change in a step that
leaves the disk and the writer alone. -/
theorem Sound.of_same_disk (sound : Sound emulator limit sys)
    (disk : later.disk = sys.disk) (writer : later.writer = sys.writer)
    (persisted : later.persisted = sys.persisted)
    (ring : later.ring.buf = newest limit later.output) (lag : Lag later)
    (tracked : Tracked limit later.disk later.writer later.phase later.pending later.recorded
      later.target) : Sound emulator limit later where
  eligible := by
    rw [disk]
    exact sound.eligible
  cap := by
    rw [writer]
    exact sound.cap
  ring := ring
  lag := lag
  tracked := tracked
  persisted := by
    rw [persisted, disk]
    exact sound.persisted

theorem persist_sound (sound : Sound emulator limit sys) {finalFlush : Bool}
    (ran : step limit sys (.persist finalFlush) = some next) :
    Sound emulator limit next := by
  unfold step at ran
  dsimp only at ran
  have tracked := sound.tracked
  unfold Tracked at tracked
  cases phase : sys.phase with
  | idle =>
    rw [phase] at ran tracked
    dsimp only at ran
    by_cases full : finalFlush = true ∨ sys.writer.needsFullAnchor = true
    · rw [if_pos full] at ran
      cases ran
      exact sound.of_same_disk rfl rfl rfl sound.ring sound.lag trivial
    rw [if_neg full] at ran
    obtain ⟨cp, batches, anchored, before⟩ := tracked.resolve_left fun due => full (.inr due)
    by_cases overflowed : sys.pending.take.1.overflowed = true
    · rw [if_pos overflowed] at ran
      cases ran
      exact sound.of_same_disk rfl rfl rfl sound.ring sound.lag trivial
    rw [if_neg overflowed] at ran
    have shown := before.resolve_left overflowed
    by_cases empty : sys.pending.take.1.records.isEmpty = true
    · rw [if_pos empty] at ran
      cases ran
      rw [show sys.pending.records = [] from List.isEmpty_iff.mp empty] at shown
      refine
        { eligible := sound.eligible
          __ := sound
          tracked := .inr ⟨cp, batches, anchored, .inr shown⟩
          persisted := ?_ }
      intro expected isExpected
      cases isExpected
      exact ⟨_, anchored.displays, shown⟩
    · rw [if_neg empty] at ran
      cases ran
      refine sound.of_same_disk rfl rfl rfl sound.ring sound.lag ?_
      exact ⟨by simpa using empty, cp, batches, anchored, shown, .inr shown⟩
  | taken records | anchoring | built cp => simp [phase] at ran

theorem append_sound (sound : Sound emulator limit sys)
    (ran : step limit sys .append = some next) : Sound emulator limit next := by
  unfold step at ran
  dsimp only at ran
  have tracked := sound.tracked
  unfold Tracked at tracked
  cases phase : sys.phase with
  | taken records =>
    rw [phase] at ran tracked
    dsimp only at ran
    obtain ⟨nonempty, cp, batches, anchored, aimed, before⟩ := tracked
    rcases anchored.append_cases sound.cap nonempty with
      refused | ⟨encodable, writer, result, cap, generation, bytes, appended⟩
    · rw [refused] at ran
      cases ran
      exact sound.of_same_disk rfl rfl rfl sound.ring sound.lag trivial
    · rw [result] at ran
      cases ran
      have later := anchored.append encodable generation bytes appended
      have flat : replay cp.scrollbackAnsi (batches ++ [records]).flatten =
          replay (replay cp.scrollbackAnsi batches.flatten) records := by
        rw [List.flatten_append, replay_append]
        simp
      refine
        { eligible := sound.eligible
          cap := cap.trans sound.cap
          __ := sound
          tracked := .inr ⟨cp, _, later, by rw [flat]; exact before⟩
          persisted := ?_ }
      intro expected isExpected
      cases isExpected
      exact ⟨_, later.displays, by rw [flat]; exact aimed⟩
  | idle | anchoring | built cp => simp [phase] at ran

theorem appendFails_sound (sound : Sound emulator limit sys)
    (exact_ : Exact sys (.appendFails cut))
    (ran : step limit sys (.appendFails cut) = some next) : Sound emulator limit next := by
  unfold step at ran
  dsimp only at ran
  have tracked := sound.tracked
  unfold Tracked at tracked
  cases phase : sys.phase with
  | taken records =>
    rw [phase] at ran tracked
    dsimp only at ran
    obtain ⟨nonempty, cp, batches, anchored, aimed, before⟩ := tracked
    rcases anchored.append_cases sound.cap nonempty with
      refused | ⟨encodable, writer, result, cap, generation, bytes, appended⟩
    · simp [refused] at ran
    · rw [result] at ran
      cases ran
      refine
        { eligible := sound.eligible
          cap := (HistoryWriter.resolveLogState_cap sys.disk sys.writer).trans sound.cap
          __ := sound
          tracked := .inl rfl
          persisted := ?_ }
      intro expected isExpected
      obtain ⟨scrollback, displays, covers⟩ := sound.persisted expected isExpected
      rw [displays_unique displays anchored.displays] at covers
      exact ⟨_, anchored.tear encodable (exact_ records phase), covers⟩
  | idle | anchoring | built cp => simp [phase] at ran

theorem readRing_sound (sound : Sound emulator limit sys) {source : SourceReads}
    (exact_ : Exact sys (.readRing source))
    (ran : step limit sys (.readRing source) = some next) : Sound emulator limit next := by
  unfold step at ran
  dsimp only at ran
  cases phase : sys.phase with
  | anchoring =>
    rw [phase] at ran
    cases ran
    obtain ⟨pending, alternate⟩ := exact_
    have aimed : Covers limit sys.ring.buf sys.output := by
      rw [sound.ring]
      exact covers_newest limit sys.output
    refine sound.of_same_disk rfl rfl rfl sound.ring sound.lag ⟨?_, ?_, ?_⟩
    · unfold Checkpoint.scrollback
      split_ifs with standIn
      · obtain ⟨emptyRing, isAlternate⟩ := standIn
        rw [buildCheckpoint_ring] at emptyRing
        rcases alternate emptyRing with normal | bodyless
        · simp [isAlternate] at normal
        · rw [bodyless, buildCheckpoint_ring, emptyRing]
      · rfl
    · rw [buildCheckpoint_ring]
      exact aimed
    · rcases pending with overflowed | ⟨settled, cleared, harmless⟩
      · exact .inl overflowed
      · right
        have lag := sound.lag
        unfold Lag at lag
        rw [if_pos cleared, settled] at lag
        dsimp only at lag
        rw [buildCheckpoint_ring, harmless, lag]
        exact aimed
  | idle | taken records | built cp => simp [phase] at ran

theorem writeCheckpoint_sound (sound : Sound emulator limit sys)
    (exact_ : Exact sys (.writeCheckpoint nowMs))
    (ran : step limit sys (.writeCheckpoint nowMs) = some next) :
    Sound emulator limit next := by
  unfold step at ran
  dsimp only at ran
  have tracked := sound.tracked
  unfold Tracked at tracked
  cases phase : sys.phase with
  | built cp =>
    rw [phase] at ran tracked
    dsimp only at ran
    cases ran
    obtain ⟨plain, aimed, before⟩ := tracked
    obtain ⟨sessionMeta, metaOnDisk, unended⟩ := sound.eligible
    obtain ⟨stamped, anchored, ring⟩ := anchored_checkpoint sys.writer
      ⟨sessionMeta, metaOnDisk, unended, exact_ sessionMeta metaOnDisk⟩ plain
    have shown : replay stamped.scrollbackAnsi ([] : List (List HistoryRecord)).flatten =
        cp.scrollbackAnsi := ring
    refine
      { eligible := sound.eligible
        cap := (HistoryWriter.resolveLogState_cap sys.disk sys.writer).trans sound.cap
        __ := sound
        tracked := .inr ⟨stamped, [], anchored, by rw [shown]; exact before⟩
        persisted := ?_ }
    intro expected isExpected
    cases isExpected
    exact ⟨_, anchored.displays, by rw [shown]; exact aimed⟩
  | idle | taken records | anchoring => simp [phase] at ran

theorem step_sound {label : Label} (sound : Sound emulator limit sys)
    (exact_ : Exact sys label) (ran : step limit sys label = some next) :
    Sound emulator limit next := by
  have lag := sound.lag
  cases label with
  | teeRing chunk =>
    unfold step at ran
    dsimp only at ran
    cases settled : sys.teeing with
    | some other => simp [settled] at ran
    | none =>
      rw [settled] at ran
      cases ran
      refine sound.of_same_disk rfl rfl rfl (appendScrollbackCapped_newest sound.ring chunk)
        ?_ sound.tracked
      unfold Lag at lag ⊢
      rw [if_pos (show sys.clearing = 0 from exact_), settled] at lag
      rw [if_pos (show sys.clearing = 0 from exact_)]
      dsimp only at lag ⊢
      rw [lag]
  | teePush =>
    unfold step at ran
    dsimp only at ran
    cases teeing : sys.teeing with
    | none => simp [teeing] at ran
    | some chunk =>
      rw [teeing] at ran
      cases ran
      refine sound.of_same_disk rfl rfl rfl sound.ring
        (lag.push_tee teeing rfl rfl rfl rfl) ?_
      exact Tracked.push (· ++ chunk) (fun pending => pending.pushOutput chunk)
        (fun base fits => PendingOutput.pushOutput_replay fits base)
        (fun shown output covers => covers.append chunk) exact_ sound.tracked
  | clearRing =>
    cases ran
    refine sound.of_same_disk rfl rfl rfl (by simp) ?_ sound.tracked
    unfold Lag
    rw [if_neg (Nat.succ_ne_zero _)]
  | clearPush =>
    obtain ⟨settled, enabled⟩ := exact_
    unfold step at ran
    dsimp only at ran
    cases clearing : sys.clearing with
    | zero => simp [clearing] at ran
    | succ remaining =>
      rw [clearing] at ran
      cases ran
      have cleared : sys.output = [] := by
        unfold Lag at lag
        rwa [if_neg (by omega)] at lag
      refine sound.of_same_disk rfl rfl rfl sound.ring ?_ ?_
      · unfold Lag
        dsimp only
        rw [settled, cleared]
        split_ifs <;> rfl
      · exact Tracked.push (fun _ => []) (fun pending => pending.pushRecord .clear)
          (fun base fits => PendingOutput.pushRecord_replay fits base)
          (fun _ _ _ => covers_refl limit []) enabled sound.tracked
  | resize cols rows =>
    cases ran
    refine sound.of_same_disk rfl rfl rfl sound.ring sound.lag ?_
    by_cases enabled : sys.historyEnabled = true
    · exact Tracked.push id (fun pending => pending.pushRecord (.resize cols rows))
        (fun base fits => PendingOutput.pushRecord_replay fits base)
        (fun _ _ covers => covers) (.inl enabled) sound.tracked
    · have same : (sys.pushed fun pending => pending.pushRecord (.resize cols rows)) =
          sys.pending := by simp [System.pushed, enabled]
      rw [same]
      exact sound.tracked
  | enableHistory =>
    cases ran
    exact sound.of_same_disk rfl rfl rfl sound.ring sound.lag sound.tracked
  | persist finalFlush => exact persist_sound sound ran
  | append => exact append_sound sound ran
  | appendFails cut => exact appendFails_sound sound exact_ ran
  | readRing source => exact readRing_sound sound exact_ ran
  | writeCheckpoint nowMs => exact writeCheckpoint_sound sound exact_ ran

theorem registered_sound {start : System} (registered : Registered limit start) :
    Sound emulator limit start where
  __ := registered
  lag := by
    obtain ⟨settled, cleared, recorded⟩ := registered.settled
    unfold Lag
    rw [if_pos cleared, settled]
    exact recorded
  tracked := by
    rw [registered.phase]
    exact .inl registered.unanchored
  persisted := by
    rw [registered.persisted]
    simp

variable (emulator)

/-- **Lossless history.** In every exact run of a registered session, from its
first completed persist on, a cold restore shows the output since the last clear
as the last completed persist saw it: every byte once and in order, less at most
bytes that the ring's cap had dropped from its head. -/
theorem restore_covers_persisted {limit : Nat} {start sys : System}
    (registered : Registered limit start) (run : Run (step limit) Exact start sys)
    (ignoreCleanEnd : Bool) {expected : List UInt8} (persisted : sys.persisted = some expected) :
    ∃ restore, HistoryReader.detectColdRestore emulator sys.disk ignoreCleanEnd = some restore ∧
        Covers limit restore.scrollbackForReplay expected := by
  have sound : Sound emulator limit sys :=
    run.invariant (registered_sound registered) fun _ _ _ sound allowed ran =>
      step_sound sound allowed ran
  obtain ⟨scrollback, displays, covers⟩ := sound.persisted expected persisted
  obtain ⟨restore, restored, shown⟩ := displays ignoreCleanEnd
  exact ⟨restore, restored, by rw [shown]; exact covers⟩

/-- A session that was opened with an empty ring. -/
def openedSystem : System where
  ring := ⟨[], false⟩
  pending := .empty
  historyEnabled := true
  teeing := none
  clearing := 0
  phase := .idle
  disk := ⟨some sampleMeta, .absent, none⟩
  writer := (HistoryWriter.openSession sampleMeta).writer
  output := []
  recorded := []
  target := []
  persisted := none

theorem openedSystem_registered (limit : Nat) : Registered limit openedSystem where
  eligible := ⟨sampleMeta, rfl, rfl⟩
  unanchored := rfl
  cap := rfl
  phase := rfl
  ring := (newest_nil limit).symm
  settled := ⟨rfl, rfl, rfl⟩
  persisted := rfl

/-- The reads of a session whose emulator is poisoned. -/
def poisonedSource : SourceReads := ⟨none, none, (80, 24), 0⟩

/-- The anchor is written before the first output. -/
def anchorFirst : List Label :=
  [.persist false, .readRing poisonedSource, .writeCheckpoint 5, .teeRing [65], .teePush,
    .persist false, .append]

/-- The first output comes before the anchor is written. -/
def outputFirst : List Label :=
  [.teeRing [65], .teePush, .persist false, .readRing poisonedSource, .writeCheckpoint 5,
    .teeRing [66], .teePush, .persist false, .append]

/-- What a schedule persists, and the scrollback of a cold restore after it. -/
def persistedAndRestored (labels : List Label) :
    Option (Option (List UInt8) × Option (List UInt8)) :=
  (execute (step 4096) openedSystem labels).map fun sys =>
    (sys.persisted, (HistoryReader.detectColdRestore blankEmulator sys.disk false).map
      ColdRestore.scrollbackForReplay)

theorem anchorFirst_permitted : Permitted (step 4096) Exact openedSystem anchorFirst := by
  refine ⟨trivial, _, rfl, ⟨.inr ⟨rfl, rfl, rfl⟩, fun _ => .inl rfl⟩, _, rfl, ?_, _, rfl, rfl,
    _, rfl, .inl rfl, _, rfl, trivial, _, rfl, trivial, _, rfl, trivial⟩
  intro sessionMeta metaOnDisk
  cases metaOnDisk
  exact .inr (by decide)

/-- The session that is anchored first restores its output `A`. -/
theorem restore_covers_persisted_anchorFirst :
    ∃ sys restore, execute (step 4096) openedSystem anchorFirst = some sys ∧
      HistoryReader.detectColdRestore blankEmulator sys.disk false = some restore ∧
      Covers 4096 restore.scrollbackForReplay [65] := by
  have outcome : persistedAndRestored anchorFirst = some (some [65], some [65]) := by
    decide +kernel
  obtain ⟨sys, replayed, results⟩ := Option.map_eq_some_iff.mp outcome
  have persisted : sys.persisted = some [65] := congrArg Prod.fst results
  obtain ⟨restore, restored, covers⟩ := restore_covers_persisted blankEmulator
    (openedSystem_registered 4096) (run_of_permitted _ anchorFirst_permitted replayed) false
    persisted
  exact ⟨sys, restore, replayed, restored, covers⟩

/-- The anchor leaves the pending `A` in place, and the next increment writes it
again: the output `AB` is restored as `AAB`. -/
theorem increment_repeats_anchor :
    ¬ ∀ start sys, Registered 4096 start → Reachable (step 4096) start sys →
      ∀ expected, sys.persisted = some expected → ∃ restore,
          HistoryReader.detectColdRestore blankEmulator sys.disk false = some restore ∧
            Covers 4096 restore.scrollbackForReplay expected := by
  intro lossless
  have outcome : persistedAndRestored outputFirst = some (some [65, 66], some [65, 65, 66]) := by
    decide +kernel
  obtain ⟨sys, replayed, results⟩ := Option.map_eq_some_iff.mp outcome
  have persisted : sys.persisted = some [65, 66] := congrArg Prod.fst results
  have shown : (HistoryReader.detectColdRestore blankEmulator sys.disk false).map
      ColdRestore.scrollbackForReplay = some [65, 65, 66] := congrArg Prod.snd results
  obtain ⟨restore, restored, covers⟩ := lossless openedSystem sys
    (openedSystem_registered 4096) (reachable_of_execute _ replayed) _ persisted
  rw [restored] at shown
  rw [Option.some.inj shown] at covers
  have long := covers.1.length_le
  simp at long

end AiTools.Daemon.Checkpointer
