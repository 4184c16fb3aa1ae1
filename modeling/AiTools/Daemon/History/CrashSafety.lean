import AiTools.Lib.CrashSequence
import AiTools.Lib.Transition
import AiTools.Daemon.History.Reader
import AiTools.Daemon.History.Writer

/-!
Contract: what a cold restore can show after any sequence of writer operations
and any crash.
-/

namespace AiTools.Daemon.History

open AiTools.Lib.CrashSequence
open AiTools.Lib.TaggedFrames
open AiTools.Lib.Transition

/-- One state of a session's history: the base and the batches appended to it in
its generation. -/
structure HistoryState where
  base : Option Checkpoint
  batches : List (List HistoryRecord)

/-- The directory, and what happened to it. `had` are the states that the
history of the session named by `meta.json` has had, the newest first; `torn`
are its appends that a crash interrupted, with the state they were made in. -/
structure Durable where
  disk : Disk
  had : List HistoryState
  torn : List (HistoryState × List HistoryRecord)

def Durable.current (durable : Durable) : HistoryState :=
  durable.had.head?.getD ⟨none, []⟩

/-- A restore may show a state that the history had, or such a state with the
records of an interrupted append that carry all of its Output bytes. -/
def Durable.Allows (durable : Durable) (base : Option Checkpoint)
    (records : List HistoryRecord) : Prop :=
  (∃ batches, ⟨base, batches⟩ ∈ durable.had ∧ records = batches.flatten) ∨
    ∃ batches attempted kept lost, (⟨base, batches⟩, attempted) ∈ durable.torn ∧
      attempted = kept ++ lost ∧ Silent lost ∧ records = batches.flatten ++ kept

variable {durable later : Durable} {records : List HistoryRecord} {buf : List UInt8}
  {writer next : HistoryWriter} {operation : Operation} {sys : System}

theorem Durable.Allows.mono {base : Option Checkpoint} (allows : durable.Allows base records)
    (had : durable.had ⊆ later.had) (torn : durable.torn ⊆ later.torn) :
    later.Allows base records := by
  rcases allows with ⟨batches, member, same⟩ | ⟨batches, attempted, kept, lost, member, rest⟩
  · exact .inl ⟨batches, had member, same⟩
  · exact .inr ⟨batches, attempted, kept, lost, torn member, rest⟩

/-! ## The system -/

inductive Operation where
  | openSession (sessionMeta : SessionMeta)
  | registerWriter
  | appendIncrements (records : List HistoryRecord)
  | checkpoint (checkpoint : Checkpoint) (nowMs : UInt64)
  | stampEnded (exitCode : Option Int32) (nowMs : UInt64)
  | reopen

/-- The steps of an operation and the writer after it. A writer is opened only
where none holds the directory. A warm writer does not append before its first
checkpoint: `needs_full_anchor` is set until then. -/
def Operation.start (disk : Disk) (writer : Option HistoryWriter) : Operation → Option WriterRun
  | .openSession sessionMeta =>
    if writer.isNone then some (HistoryWriter.openSession sessionMeta) else none
  | .registerWriter => if writer.isNone then some HistoryWriter.registerWriter else none
  | .appendIncrements records =>
    match writer with
    | some writer =>
      if writer.logBytes.isSome then some (writer.appendIncrements disk records).2 else none
    | none => none
  | .checkpoint cp nowMs => writer.map fun writer => writer.checkpoint disk cp nowMs
  | .stampEnded exitCode nowMs => writer.map fun writer => writer.stampEnded disk exitCode nowMs
  | .reopen => writer.map fun writer => writer.reopen disk

/-- A completed step, and the state that the history reaches by it. The fresh
meta of a new session ends the history of the previous one. -/
def Operation.complete (operation : Operation) (step : DiskStep) (durable : Durable) : Durable :=
  let disk := step.apply durable.disk
  match operation, step with
  | .openSession _, .writeMeta _ => ⟨disk, [⟨none, []⟩], []⟩
  | .checkpoint _ _, .renameCheckpoint cp =>
    { durable with disk := disk, had := ⟨some cp, []⟩ :: durable.had }
  | .appendIncrements records, .appendLog _ =>
    { durable with
      disk := disk
      had := ⟨durable.current.base, durable.current.batches ++ [records]⟩ :: durable.had }
  | _, _ => { durable with disk := disk }

/-- A crash inside a step. -/
def Operation.tear (operation : Operation) (step : DiskStep) (cut : Nat) (durable : Durable) :
    Durable :=
  let disk := step.tear durable.disk cut
  match operation, step with
  | .appendIncrements records, .appendLog _ =>
    { durable with disk := disk, torn := (durable.current, records) :: durable.torn }
  | _, _ => { durable with disk := disk }

def Operation.semantics (operation : Operation) : Semantics Durable DiskStep :=
  ⟨operation.complete, operation.tear⟩

/-- An operation under way: the steps it has still to take. -/
structure Running where
  operation : Operation
  steps : List DiskStep
  writer : HistoryWriter

structure System where
  durable : Durable
  writer : Option HistoryWriter
  running : Option Running

def System.initial : System := ⟨⟨Disk.empty, [], []⟩, none, none⟩

inductive Label where
  | begin (operation : Operation)
  | advance
  /-- The process dies, or drops its writer. -/
  | crash (cut : Nat)

def step (sys : System) : Label → Option System
  | .begin operation =>
    match sys.running with
    | some _ => none
    | none =>
      match operation.start sys.durable.disk sys.writer with
      | none => none
      | some run => some ⟨sys.durable, none, some ⟨operation, run.steps, run.writer⟩⟩
  | .advance =>
    match sys.running with
    | none => none
    | some ⟨_, [], writer⟩ => some ⟨sys.durable, some writer, none⟩
    | some ⟨operation, next :: rest, writer⟩ =>
      some ⟨operation.complete next sys.durable, none, some ⟨operation, rest, writer⟩⟩
  | .crash cut =>
    match sys.running with
    | some ⟨operation, next :: _, _⟩ =>
      some ⟨operation.tear next cut sys.durable, none, none⟩
    | _ => some ⟨sys.durable, none, none⟩

/-- The 32-bit generation does not wrap to zero in this step. -/
def NoGenerationWrap (sys : System) (label : Label) : Prop :=
  ∀ cp nowMs writer, label = .begin (.checkpoint cp nowMs) → sys.writer = some writer →
    HistoryWriter.nextGeneration sys.durable.disk writer ≠ 0

def generationOf (base : Option Checkpoint) : UInt32 :=
  (base.map Checkpoint.generation).getD 0

/-- What the reader can make of the disk is allowed: a checkpoint on disk is one
that the session took, and a log that decodes continues a state of the base that
it pairs with. -/
structure Recoverable (durable : Durable) : Prop where
  intact : durable.disk.checkpoint ≠ .unreadable
  anchored : ∀ cp, durable.disk.checkpoint = .present cp →
    ⟨some cp, []⟩ ∈ durable.had ∧ cp.generation ≠ 0
  logged : ∀ buf decoded, durable.disk.log = some buf → decodeLog buf = some decoded →
    decoded.batches ≠ [] → (decoded.generation = 0 →
        durable.Allows none (decoded.batches.flatMap LogBatch.records)) ∧
      ∀ cp, durable.disk.checkpoint = .present cp → cp.generation = decoded.generation →
        durable.Allows (some cp) (decoded.batches.flatMap LogBatch.records)

/-- The writer knows the log on disk: it continues the newest state. -/
structure Continues (writer : HistoryWriter) (durable : Durable) : Prop where
  inHad : durable.current ∈ durable.had
  base : durable.current.base = durable.disk.checkpoint.read
  generation : writer.logGeneration = some (generationOf durable.current.base)
  file : (writer.logBytes = some 0 ∧ durable.disk.log = none ∧ durable.current.batches = []) ∨
      (∃ bytes, writer.logBytes = some bytes ∧ bytes ≠ 0) ∧
        durable.disk.log = some (encodeLog (generationOf durable.current.base)
          (stampBatches 0 durable.current.batches))
  appended : writer.appendedOutputBytes = recordsOutputBytes durable.current.batches.flatten
  encodable : ∀ records ∈ durable.current.batches, ∀ record ∈ records, record.Encodable

/-- A writer is warm or continues the log. -/
structure WriterSound (writer : HistoryWriter) (durable : Durable) : Prop where
  cap : writer.logMaxBytes = defaultLogMaxBytes
  position : writer.logBytes = none ∨ Continues writer durable

structure System.Sound (sys : System) : Prop where
  recoverable : Recoverable sys.durable
  idle : ∀ writer, sys.writer = some writer → WriterSound writer sys.durable
  busy : ∀ running, sys.running = some running →
    CrashSafe running.operation.semantics Recoverable (WriterSound running.writer)
      running.steps sys.durable

theorem Recoverable.of_files (recoverable : Recoverable durable)
    (checkpoint : later.disk.checkpoint = durable.disk.checkpoint)
    (log : later.disk.log = durable.disk.log) (had : durable.had ⊆ later.had)
    (torn : durable.torn ⊆ later.torn) : Recoverable later where
  intact := by
    rw [checkpoint]
    exact recoverable.intact
  anchored cp present := by
    rw [checkpoint] at present
    obtain ⟨member, positive⟩ := recoverable.anchored cp present
    exact ⟨had member, positive⟩
  logged buf decoded onDisk decodes nonempty := by
    rw [log] at onDisk
    rw [checkpoint]
    obtain ⟨bare, paired⟩ := recoverable.logged buf decoded onDisk decodes nonempty
    refine ⟨fun zero => (bare zero).mono had torn, ?_⟩
    intro cp present same
    exact (paired cp present same).mono had torn

theorem Recoverable.of_empty_log (intact : durable.disk.checkpoint ≠ .unreadable)
    (anchored : ∀ cp, durable.disk.checkpoint = .present cp →
      ⟨some cp, []⟩ ∈ durable.had ∧ cp.generation ≠ 0)
    (empty : ∀ buf decoded, durable.disk.log = some buf → decodeLog buf = some decoded →
      decoded.batches = []) : Recoverable durable where
  intact := intact
  anchored := anchored
  logged buf decoded onDisk decodes nonempty := absurd (empty buf decoded onDisk decodes) nonempty

theorem Recoverable.of_log (intact : durable.disk.checkpoint ≠ .unreadable)
    (anchored : ∀ cp, durable.disk.checkpoint = .present cp →
      ⟨some cp, []⟩ ∈ durable.had ∧ cp.generation ≠ 0) (onDisk : durable.disk.log = some buf)
    (continues : ∀ decoded, decodeLog buf = some decoded →
      decoded.generation = generationOf durable.disk.checkpoint.read ∧
        durable.Allows durable.disk.checkpoint.read
          (decoded.batches.flatMap LogBatch.records)) : Recoverable durable where
  intact := intact
  anchored := anchored
  logged other decoded otherOnDisk decodes _ := by
    rw [onDisk] at otherOnDisk
    cases otherOnDisk
    obtain ⟨generation, allows⟩ := continues decoded decodes
    constructor
    · intro zero
      cases file : durable.disk.checkpoint with
      | absent => simpa [file, CheckpointFile.read] using allows
      | unreadable => exact absurd file intact
      | present cp =>
        rw [generation, file] at zero
        exact absurd zero (anchored cp file).2
    · intro cp present _
      rwa [present] at allows

theorem Recoverable.of_meta (recoverable : Recoverable durable) (sessionMeta : Option SessionMeta)
    (same : later = { durable with disk := { durable.disk with sessionMeta := sessionMeta } }) :
    Recoverable later := by
  subst same
  exact recoverable.of_files rfl rfl (List.Subset.refl _) (List.Subset.refl _)

theorem Continues.of_meta (continues : Continues writer durable) (sessionMeta : Option SessionMeta)
    (generation : next.logGeneration = writer.logGeneration)
    (bytes : next.logBytes = writer.logBytes)
    (appended : next.appendedOutputBytes = writer.appendedOutputBytes) :
    Continues next { durable with disk := { durable.disk with sessionMeta := sessionMeta } } where
  __ := continues
  generation := generation.trans continues.generation
  file := by
    rw [bytes]
    exact continues.file
  appended := appended.trans continues.appended

/-! ## Crash conditions of the operations -/

/-- Unlinking first means that a half-opened directory holds nothing to restore
beside the old meta. -/
theorem openSession_crashSafe (recoverable : Recoverable durable) (sessionMeta : SessionMeta) :
    CrashSafe (Operation.openSession sessionMeta).semantics Recoverable
      (WriterSound (HistoryWriter.openSession sessionMeta).writer)
      (HistoryWriter.openSession sessionMeta).steps durable := by
  have unlinked : Recoverable { durable with
      disk := { durable.disk with checkpoint := .absent } } :=
    { intact := by simp
      anchored := by simp
      logged := by
        intro buf decoded onDisk decodes nonempty
        exact ⟨(recoverable.logged buf decoded onDisk decodes nonempty).1, by simp⟩ }
  have bare : Recoverable { durable with
      disk := { durable.disk with checkpoint := .absent, log := none } } :=
    Recoverable.of_empty_log (by simp) (by simp) (by simp)
  refine ⟨recoverable, fun _ => recoverable, unlinked, fun _ => unlinked, bare, ?_, ?_, ?_⟩
  · intro cut
    exact bare.of_meta none rfl
  · exact Recoverable.of_empty_log (by simp [Operation.semantics, Operation.complete,
      DiskStep.apply]) (by simp [Operation.semantics, Operation.complete, DiskStep.apply])
      (by simp [Operation.semantics, Operation.complete, DiskStep.apply])
  · refine ⟨rfl, .inr ?_⟩
    exact
      { inHad := by simp [Durable.current, Operation.semantics, Operation.complete]
        base := rfl
        generation := rfl
        file := .inl ⟨rfl, rfl, rfl⟩
        appended := rfl
        encodable := by simp [Durable.current, Operation.semantics, Operation.complete] }

theorem metaWrite_crashSafe (recoverable : Recoverable durable) (sound : WriterSound writer durable)
    (sessionMeta : SessionMeta) (completes : operation.complete (.writeMeta sessionMeta) durable =
      { durable with disk := { durable.disk with sessionMeta := some sessionMeta } })
    (tears : ∀ cut, operation.tear (.writeMeta sessionMeta) cut durable =
      { durable with disk := { durable.disk with sessionMeta := none } })
    (generation : next.logGeneration = writer.logGeneration)
    (bytes : next.logBytes = writer.logBytes)
    (appended : next.appendedOutputBytes = writer.appendedOutputBytes)
    (cap : next.logMaxBytes = writer.logMaxBytes) :
    CrashSafe operation.semantics Recoverable (WriterSound next) [.writeMeta sessionMeta]
      durable := by
  refine ⟨recoverable, ?_, ?_, ?_⟩
  · intro cut
    exact recoverable.of_meta none (tears cut)
  · exact recoverable.of_meta (some sessionMeta) completes
  · change WriterSound next (operation.complete (.writeMeta sessionMeta) durable)
    rw [completes]
    refine ⟨cap.trans sound.cap, ?_⟩
    rcases sound.position with warm | continues
    · exact .inl (bytes.trans warm)
    · exact .inr (continues.of_meta (some sessionMeta) generation bytes appended)

theorem reopen_crashSafe (recoverable : Recoverable durable) (sound : WriterSound writer durable) :
    CrashSafe Operation.reopen.semantics Recoverable
      (WriterSound (writer.reopen durable.disk).writer) (writer.reopen durable.disk).steps
      durable := by
  unfold HistoryWriter.reopen
  cases durable.disk.sessionMeta with
  | none =>
    refine ⟨recoverable, sound.cap, ?_⟩
    rcases sound.position with warm | continues
    · exact .inl warm
    · exact .inr
        { inHad := continues.inHad
          __ := continues
          encodable := continues.encodable }
  | some sessionMeta =>
    exact metaWrite_crashSafe recoverable sound _ rfl (fun _ => rfl) rfl rfl rfl rfl

theorem stampEnded_crashSafe (recoverable : Recoverable durable)
    (sound : WriterSound writer durable) (exitCode : Option Int32) (nowMs : UInt64) :
    CrashSafe (Operation.stampEnded exitCode nowMs).semantics Recoverable
      (WriterSound (writer.stampEnded durable.disk exitCode nowMs).writer)
      (writer.stampEnded durable.disk exitCode nowMs).steps durable := by
  unfold HistoryWriter.stampEnded
  cases durable.disk.sessionMeta with
  | none => exact ⟨recoverable, sound⟩
  | some sessionMeta =>
    exact metaWrite_crashSafe recoverable sound _ rfl (fun _ => rfl) rfl rfl rfl rfl

/-- The generation that a writer goes on from is the one of every log that can
be read. -/
theorem resolvedGeneration (sound : WriterSound writer durable) {decoded : DecodedLog}
    (onDisk : durable.disk.log = some buf) (decodes : decodeLog buf = some decoded) :
    HistoryWriter.nextGeneration durable.disk writer = decoded.generation + 1 := by
  unfold HistoryWriter.nextGeneration
  rcases sound.position with warm | continues
  · rw [HistoryWriter.resolveLogState_of_decodes warm onDisk decodes]
    rfl
  · rcases continues.file with ⟨_, noLog, _⟩ | ⟨⟨bytes, hasBytes, _⟩, log⟩
    · simp [noLog] at onDisk
    · rw [HistoryWriter.resolveLogState_of_resolved continues.generation hasBytes,
        continues.generation]
      have header := decodeLogHeader_of_decodes decodes
      rw [log] at onDisk
      cases onDisk
      rw [encodeLog, decodeLogHeader_encodeLogHeader] at header
      rw [Option.getD_some, Option.some.inj header]

theorem checkpoint_crashSafe (recoverable : Recoverable durable)
    (sound : WriterSound writer durable) (cp : Checkpoint) (nowMs : UInt64)
    (noWrap : HistoryWriter.nextGeneration durable.disk writer ≠ 0) :
    CrashSafe (Operation.checkpoint cp nowMs).semantics Recoverable
      (WriterSound (writer.checkpoint durable.disk cp nowMs).writer)
      (writer.checkpoint durable.disk cp nowMs).steps durable := by
  obtain ⟨stamped, isStamped⟩ : ∃ stamped : Checkpoint, stamped =
      { cp with
        generation := HistoryWriter.nextGeneration durable.disk writer
        checkpointedAtMs := nowMs } := ⟨_, rfl⟩
  have generation : stamped.generation = HistoryWriter.nextGeneration durable.disk writer := by
    rw [isStamped]
  have anchored : ∀ log, ∀ found, CheckpointFile.present stamped = .present found →
      (⟨some found, []⟩ : HistoryState) ∈
        (Durable.mk ⟨durable.disk.sessionMeta, .present stamped, log⟩
          (⟨some stamped, []⟩ :: durable.had) durable.torn).had ∧ found.generation ≠ 0 := by
    intro log found same
    cases same
    exact ⟨List.mem_cons_self, by rw [generation]; exact noWrap⟩
  have renamed : Recoverable
      ⟨{ durable.disk with checkpoint := .present stamped },
        ⟨some stamped, []⟩ :: durable.had, durable.torn⟩ :=
    { intact := by simp
      anchored := anchored _
      logged := by
        intro buf decoded onDisk decodes nonempty
        constructor
        · intro zero
          exact ((recoverable.logged buf decoded onDisk decodes nonempty).1 zero).mono
            (List.subset_cons_self _ _) (List.Subset.refl _)
        · intro found same paired
          cases same
          rw [generation, resolvedGeneration sound onDisk decodes] at paired
          simp at paired }
  have reset : ∀ cut, Recoverable
      ⟨{ durable.disk with
          checkpoint := .present stamped
          log := some ((encodeLogHeader stamped.generation).take cut) },
        ⟨some stamped, []⟩ :: durable.had, durable.torn⟩ := by
    intro cut
    apply Recoverable.of_empty_log
    · simp
    · exact anchored _
    · intro buf decoded onDisk decodes
      cases onDisk
      exact decodeLog_header_take decodes
  unfold HistoryWriter.checkpoint
  dsimp only
  rw [← isStamped, ← generation]
  refine ⟨recoverable, fun _ => recoverable, renamed, reset, ?_, ?_, .inr ?_⟩
  · have whole := reset (encodeLogHeader stamped.generation).length
    rwa [List.take_length] at whole
  · exact (HistoryWriter.resolveLogState_cap durable.disk writer).trans sound.cap
  · exact
      { inHad := List.mem_cons_self
        base := rfl
        generation := rfl
        file := .inr ⟨⟨logHeaderBytes, rfl, by decide⟩, by
          simp [Operation.semantics, Operation.complete, DiskStep.apply, Durable.current,
            encodeLog, stampBatches, generationOf]⟩
        appended := rfl
        encodable := by simp [Durable.current, Operation.semantics, Operation.complete] }

/-- The directory of a writer whose log is `encodeLog` of the newest state. -/
structure Logging (durable : Durable) : Prop where
  inHad : durable.current ∈ durable.had
  base : durable.current.base = durable.disk.checkpoint.read
  log : durable.disk.log = some (encodeLog (generationOf durable.current.base)
    (stampBatches 0 durable.current.batches))
  encodable : ∀ records ∈ durable.current.batches, ∀ record ∈ records, record.Encodable

/-- The log file rewritten. -/
def Durable.withLog (durable : Durable) (bytes : List UInt8) : Durable :=
  { durable with disk := { durable.disk with log := some bytes } }

/-- The bytes of a batch after the newest state's log. -/
def Durable.nextFrames (durable : Durable) (records : List HistoryRecord) : List UInt8 :=
  encodeFrames (nextBatch durable.current.batches records).frames

/-- Appending a batch: a crash leaves a prefix of it, which decodes to whole
batches and at most a part of this one that has all of its Output bytes. -/
theorem appendLog_crashSafe {durable : Durable} {next : HistoryWriter}
    {records : List HistoryRecord} (recoverable : Recoverable durable) (logging : Logging durable)
    (small : batchSize (nextBatch durable.current.batches records) ≤ defaultLogMaxBytes)
    (cap : next.logMaxBytes = defaultLogMaxBytes)
    (generation : next.logGeneration = some (generationOf durable.current.base))
    (bytes : ∃ bytes, next.logBytes = some bytes ∧ bytes ≠ 0)
    (appended : next.appendedOutputBytes =
      recordsOutputBytes durable.current.batches.flatten + recordsOutputBytes records) :
    CrashSafe (Operation.appendIncrements records).semantics Recoverable (WriterSound next)
      [.appendLog (durable.nextFrames records)] durable := by
  have capSmall : defaultLogMaxBytes < 2 ^ 32 := by decide
  have encodable : ∀ member ∈ durable.current.batches ++ [records],
      ∀ record ∈ member, record.Encodable := by
    intro member inside
    rcases List.mem_append.mp inside with earlier | last
    · exact logging.encodable member earlier
    · rw [List.mem_singleton] at last
      subst last
      exact encodable_of_size (Nat.lt_of_le_of_lt small capSmall)
  have decodedTorn : ∀ cut decoded, decodeLog (encodeLog (generationOf durable.current.base)
          (stampBatches 0 durable.current.batches) ++ (durable.nextFrames records).take cut) =
        some decoded →
      decoded.generation = generationOf durable.disk.checkpoint.read ∧
        Durable.Allows ⟨durable.disk, durable.had, (durable.current, records) :: durable.torn⟩
          durable.disk.checkpoint.read (decoded.batches.flatMap LogBatch.records) := by
    intro cut decoded decodes
    obtain ⟨same, whole | ⟨kept, lost, split, zero, partial_⟩⟩ :=
      decodeLog_torn_append encodable cut decodes
    · rw [← logging.base]
      exact ⟨same, .inl ⟨durable.current.batches, logging.inHad, whole⟩⟩
    · rw [← logging.base]
      refine ⟨same, .inr ⟨durable.current.batches, records, kept, lost, List.mem_cons_self,
        split, ?_, partial_⟩⟩
      have size := outputLength_le_size (nextBatch durable.current.batches records)
      change outputLength records ≤ _ at size
      rw [split, outputLength_append, ← split] at size
      exact silent_of_recordsOutputBytes (by omega) zero
  have wholeLog := encodeLog_snoc (generationOf durable.current.base) durable.current.batches
    records
  refine ⟨recoverable, ?_, ?_, cap, .inr ?_⟩
  · intro cut
    apply Recoverable.of_log
    · exact recoverable.intact
    · exact recoverable.anchored
    · change durable.disk.log.map _ = _
      rw [logging.log]
      rfl
    · exact decodedTorn cut
  · apply Recoverable.of_log
    · exact recoverable.intact
    · intro cp present
      obtain ⟨member, positive⟩ := recoverable.anchored cp present
      exact ⟨List.mem_cons_of_mem _ member, positive⟩
    · change durable.disk.log.map _ = _
      rw [logging.log, Option.map_some, Durable.nextFrames, ← wholeLog]
    · intro decoded decodes
      rw [decodeLog_encodeLog _ _ (stampBatches_encodable 0 encodable),
        if_pos (stampBatches_consistent 0 _)] at decodes
      cases decodes
      refine ⟨congrArg generationOf logging.base, .inl
        ⟨durable.current.batches ++ [records], ?_, stampBatches_records 0 _⟩⟩
      change (⟨durable.disk.checkpoint.read, _⟩ : HistoryState) ∈ _ :: _
      rw [← logging.base]
      exact List.mem_cons_self
  · exact
      { inHad := List.mem_cons_self
        base := logging.base
        generation := generation
        file := by
          refine .inr ⟨bytes, ?_⟩
          change durable.disk.log.map _ = _
          rw [logging.log, Option.map_some, Durable.nextFrames, ← wholeLog]
          rfl
        appended := by
          rw [appended]
          change _ = recordsOutputBytes (durable.current.batches ++ [records]).flatten
          simp
        encodable := encodable }

theorem append_crashSafe (recoverable : Recoverable durable) (sound : WriterSound writer durable)
    (resolved : writer.logBytes.isSome) (records : List HistoryRecord) :
    CrashSafe (Operation.appendIncrements records).semantics Recoverable
      (WriterSound (writer.appendIncrements durable.disk records).2.writer)
      (writer.appendIncrements durable.disk records).2.steps durable := by
  rcases sound.position with warm | continues
  · simp [warm] at resolved
  · by_cases nonempty : records = []
    · subst nonempty
      exact ⟨recoverable, sound⟩
    · obtain ⟨bytes, hasBytes⟩ := Option.isSome_iff_exists.mp resolved
      rcases @HistoryWriter.appendIncrements_cases durable.disk _ _ _ _
        continues.generation hasBytes nonempty with refused | ⟨small, result⟩
      · rw [refused]
        exact ⟨recoverable, sound⟩
      · rw [result]
        have frames : encodeFrames (writer.stampedBatch records).frames =
            durable.nextFrames records := by
          rw [HistoryWriter.stampedBatch, continues.appended]
          rfl
        rw [HistoryWriter.stampedBatch, continues.appended, sound.cap] at small
        rw [frames]
        rcases continues.file with ⟨empty, noLog, noBatches⟩ | ⟨⟨size, hasSize, positive⟩, log⟩
        · -- A fresh log: its header is written first.
          rw [hasBytes] at empty
          cases empty
          have header : ∀ cut, Recoverable (durable.withLog
              ((encodeLogHeader (generationOf durable.current.base)).take cut)) := by
            intro cut
            apply Recoverable.of_empty_log
            · exact recoverable.intact
            · exact recoverable.anchored
            · intro buf decoded onDisk decodes
              cases onDisk
              exact decodeLog_header_take decodes
          have whole := header (encodeLogHeader (generationOf durable.current.base)).length
          rw [List.take_length] at whole
          refine ⟨recoverable, header, ?_⟩
          refine @appendLog_crashSafe (durable.withLog
            (encodeLogHeader (generationOf durable.current.base))) _ _ whole ?_ small sound.cap
            continues.generation ?_ ?_
          · refine ⟨continues.inHad, continues.base, ?_, continues.encodable⟩
            change some _ = some (encodeLog _ (stampBatches 0 durable.current.batches))
            rw [noBatches, stampBatches, encodeLog, encodeBatches_nil, List.append_nil]
            rfl
          · exact ⟨_, rfl, by simp [logHeaderBytes]⟩
          · rw [HistoryWriter.stampedBatch, continues.appended]
            rfl
        · rw [hasBytes] at hasSize
          cases hasSize
          rw [if_neg positive]
          apply appendLog_crashSafe recoverable
          · exact ⟨continues.inHad, continues.base, log, continues.encodable⟩
          · exact small
          · exact sound.cap
          · exact continues.generation
          · exact ⟨_, rfl, by rw [if_neg positive]; omega⟩
          · rw [← continues.appended]
            rfl

/-! ## Runs -/

theorem begin_crashSafe (sound : sys.Sound) {run : WriterRun}
    (started : operation.start sys.durable.disk sys.writer = some run)
    (noWrap : NoGenerationWrap sys (.begin operation)) :
    CrashSafe operation.semantics Recoverable (WriterSound run.writer) run.steps
      sys.durable := by
  have recoverable := sound.recoverable
  cases operation with
  | openSession sessionMeta =>
    unfold Operation.start at started
    split_ifs at started
    cases started
    exact openSession_crashSafe recoverable sessionMeta
  | registerWriter =>
    unfold Operation.start at started
    split_ifs at started
    cases started
    exact ⟨recoverable, rfl, .inl rfl⟩
  | appendIncrements records =>
    unfold Operation.start at started
    cases held : sys.writer with
    | none => simp [held] at started
    | some writer =>
      rw [held] at started
      dsimp only at started
      split_ifs at started with resolved
      cases started
      exact append_crashSafe recoverable (sound.idle writer held) resolved records
  | checkpoint cp nowMs =>
    unfold Operation.start at started
    cases held : sys.writer with
    | none => simp [held] at started
    | some writer =>
      rw [held] at started
      cases started
      exact checkpoint_crashSafe recoverable (sound.idle writer held) cp nowMs
        (noWrap cp nowMs writer rfl held)
  | stampEnded exitCode nowMs =>
    unfold Operation.start at started
    cases held : sys.writer with
    | none => simp [held] at started
    | some writer =>
      rw [held] at started
      cases started
      exact stampEnded_crashSafe recoverable (sound.idle writer held) exitCode nowMs
  | reopen =>
    unfold Operation.start at started
    cases held : sys.writer with
    | none => simp [held] at started
    | some writer =>
      rw [held] at started
      cases started
      exact reopen_crashSafe recoverable (sound.idle writer held)

theorem initial_sound : System.initial.Sound where
  recoverable :=
    { intact := by simp [System.initial, Disk.empty]
      anchored := by simp [System.initial, Disk.empty]
      logged := by simp [System.initial, Disk.empty] }
  idle := by simp [System.initial]
  busy := by simp [System.initial]

/-- One step keeps the invariant: an operation starts crash-safe, its steps
consume its crash condition, and a crash leaves a safe disk without a writer. -/
theorem step_sound {next : System} {label : Label} (sound : sys.Sound)
    (noWrap : NoGenerationWrap sys label) (ran : step sys label = some next) :
    next.Sound := by
  unfold step at ran
  cases label with
  | begin operation =>
    dsimp only at ran
    cases busy : sys.running with
    | some running => simp [busy] at ran
    | none =>
      rw [busy] at ran
      dsimp only at ran
      cases started : operation.start sys.durable.disk sys.writer with
      | none => simp [started] at ran
      | some run =>
        rw [started] at ran
        cases ran
        refine ⟨sound.recoverable, by simp, ?_⟩
        intro running isRunning
        cases isRunning
        exact begin_crashSafe sound started noWrap
  | advance =>
    dsimp only at ran
    cases busy : sys.running with
    | none => simp [busy] at ran
    | some running =>
      have crashSafe := sound.busy running busy
      obtain ⟨operation, steps, writer⟩ := running
      rw [busy] at ran
      cases steps with
      | nil =>
        cases ran
        refine ⟨sound.recoverable, ?_, by simp⟩
        intro held isHeld
        cases isHeld
        exact crashSafe.finish
      | cons first rest =>
        cases ran
        refine ⟨crashSafe.next.start, by simp, ?_⟩
        intro running isRunning
        cases isRunning
        exact crashSafe.next
  | crash cut =>
    dsimp only at ran
    cases busy : sys.running with
    | none =>
      rw [busy] at ran
      cases ran
      exact ⟨sound.recoverable, by simp, by simp⟩
    | some running =>
      have crashSafe := sound.busy running busy
      obtain ⟨operation, steps, writer⟩ := running
      rw [busy] at ran
      cases steps with
      | nil =>
        cases ran
        exact ⟨sound.recoverable, by simp, by simp⟩
      | cons first rest =>
        cases ran
        exact ⟨crashSafe.torn cut, by simp, by simp⟩

theorem run_sound (run : Run step NoGenerationWrap .initial sys) :
    sys.Sound :=
  run.invariant initial_sound fun _ _ _ sound allowed ran => step_sound sound allowed ran

variable {σ : Type*} (emulator : DaemonEmulator σ)

/-- **Crash consistency.** In every state that writer operations and crashes can
reach, a cold restore shows a state that the history of the session named by the
meta had, or such a state with the part of an interrupted append that carries all
of its Output bytes; and a readable, not cleanly ended directory with a
checkpoint of this session does restore. -/
theorem coldRestore_consistent {sys : System}
    (run : Run step NoGenerationWrap .initial sys) (ignoreCleanEnd : Bool) :
    (∀ restore, HistoryReader.detectColdRestore emulator sys.durable.disk ignoreCleanEnd =
          some restore →
        restore.degraded = false ∧
          ∃ base records, sys.durable.Allows base records ∧ restore.Shows base records) ∧
      ∀ sessionMeta checkpoint, sys.durable.disk.sessionMeta = some sessionMeta →
        sessionMeta.endedAtMs = none ∨ ignoreCleanEnd = true →
        sys.durable.disk.checkpoint = .present checkpoint →
        checkpoint.checkpointedAtMs = 0 ∨ sessionMeta.startedAtMs ≤ checkpoint.checkpointedAtMs →
        (HistoryReader.detectColdRestore emulator sys.durable.disk ignoreCleanEnd).isSome := by
  have recoverable := (run_sound run).recoverable
  constructor
  · intro restore restored
    obtain ⟨whole, ⟨buf, log, onDisk, decodes, nonempty, paired, shows⟩ |
      ⟨checkpoint, present, shows⟩⟩ :=
      HistoryReader.detectColdRestore_shows emulator recoverable.intact restored
    · refine ⟨whole, _, _, ?_, shows⟩
      obtain ⟨bare, continued⟩ := recoverable.logged buf log onDisk decodes nonempty
      cases file : sys.durable.disk.checkpoint with
      | absent =>
        rw [file] at paired
        exact bare paired
      | unreadable => exact absurd file recoverable.intact
      | present checkpoint =>
        rw [file] at paired
        exact continued checkpoint file paired.symm
    · refine ⟨whole, some checkpoint, [], ?_, shows⟩
      cases file : sys.durable.disk.checkpoint with
      | absent | unreadable => simp [file, CheckpointFile.read] at present
      | present found =>
        rw [file] at present
        cases present
        exact .inl ⟨[], (recoverable.anchored _ file).1, rfl⟩
  · intro sessionMeta checkpoint metaOnDisk unended onDisk current
    exact HistoryReader.detectColdRestore_isSome emulator metaOnDisk unended onDisk current

/-! ## Runs on fixed inputs -/

def sampleMeta : SessionMeta := .new none 80 24 1

/-- A checkpoint with the one byte `X` in its ring. -/
def sampleCheckpoint (generation : UInt32) : Checkpoint where
  snapshotAnsi := []
  scrollbackAnsi := [88]
  rehydrateSequences := []
  pendingEscapeTail := []
  cwd := none
  cols := 80
  rows := 24
  isAlternateScreen := false
  kittyKeyboardFlags := 0
  lastTitle := none
  scrollbackSeq := 1
  generation := generation
  checkpointedAtMs := 5

def openSchedule : List Label :=
  [.begin (.openSession sampleMeta), .advance, .advance, .advance, .advance]

def checkpointSchedule : List Label :=
  [.begin (.checkpoint (sampleCheckpoint 0) 5), .advance, .advance, .advance]

/-- The directory of an opened session after a checkpoint of a generation. -/
def anchoredSystem (had : List HistoryState) (generation : UInt32) : System where
  durable :=
    { disk :=
        { sessionMeta := some sampleMeta
          checkpoint := .present (sampleCheckpoint generation)
          log := some (encodeLogHeader generation) }
      had := had
      torn := [] }
  writer :=
    some
      { logGeneration := some generation
        logBytes := some logHeaderBytes
        appendedOutputBytes := 0
        needsFullAnchor := false
        logMaxBytes := defaultLogMaxBytes }
  running := none

theorem openSchedule_anchored : execute step .initial (openSchedule ++ checkpointSchedule) =
      some (anchoredSystem [⟨some (sampleCheckpoint 1), []⟩, ⟨none, []⟩] 1) := rfl

/-- A session that was opened and checkpointed once restores its checkpoint. -/
theorem coldRestore_consistent_anchored : ∃ restore, HistoryReader.detectColdRestore blankEmulator
        (anchoredSystem [⟨some (sampleCheckpoint 1), []⟩, ⟨none, []⟩] 1).durable.disk false =
          some restore ∧ restore.degraded = false := by
  have opened : Run step NoGenerationWrap .initial
      ⟨⟨⟨some sampleMeta, .absent, none⟩, [⟨none, []⟩], []⟩,
        some (HistoryWriter.openSession sampleMeta).writer, none⟩ := by
    apply run_of_execute openSchedule rfl
    intro label member state cp nowMs writer isCheckpoint
    rw [isCheckpoint] at member
    simp [openSchedule] at member
  have begun := opened.tail (.begin (.checkpoint (sampleCheckpoint 0) 5))
    (by
      intro cp nowMs writer _ held
      cases held
      decide) rfl
  have run : Run step NoGenerationWrap .initial
      (anchoredSystem [⟨some (sampleCheckpoint 1), []⟩, ⟨none, []⟩] 1) := by
    refine begun.trans (run_of_execute [.advance, .advance, .advance] rfl ?_)
    intro label member state cp nowMs writer isCheckpoint
    rw [isCheckpoint] at member
    simp at member
  have consistent := coldRestore_consistent blankEmulator run false
  obtain ⟨restore, restored⟩ := Option.isSome_iff_exists.mp
    (consistent.2 sampleMeta (sampleCheckpoint 1) rfl (Or.inl rfl) rfl (Or.inr (by decide)))
  exact ⟨restore, restored, (consistent.1 restore restored).1⟩

/-- The states that a restore may show when an append is all or nothing. -/
def Durable.WholeAppends (durable : Durable) (state : HistoryState) : Prop :=
  state ∈ durable.had ∨ ∃ before attempted, (before, attempted) ∈ durable.torn ∧
      state = ⟨before.base, before.batches ++ [attempted]⟩

theorem checkpointSchedule_anchored (had : List HistoryState) (generation : UInt32) :
    execute step (anchoredSystem had generation) checkpointSchedule =
      some (anchoredSystem (⟨some (sampleCheckpoint (generation + 1)), []⟩ :: had)
        (generation + 1)) := rfl

/-- The newest state and all earlier ones after checkpoints alone. -/
structure Anchored (had : List HistoryState) (generation : UInt32) : Prop where
  newest : had.head? = some ⟨some (sampleCheckpoint generation), []⟩
  states : ∀ state ∈ had, state.batches = [] ∧
    (state.base = none ∨ ∃ older, state.base = some (sampleCheckpoint older))

theorem anchored_reachable (count : Nat) :
    ∃ had, Reachable step .initial (anchoredSystem had (1 + UInt32.ofNat count)) ∧
      Anchored had (1 + UInt32.ofNat count) := by
  induction count with
  | zero =>
    refine ⟨_, reachable_of_execute _ openSchedule_anchored, rfl, ?_⟩
    intro state member
    simp only [List.mem_cons, List.not_mem_nil, or_false] at member
    rcases member with rfl | rfl
    · exact ⟨rfl, .inr ⟨1, rfl⟩⟩
    · exact ⟨rfl, .inl rfl⟩
  | succ count ih =>
    obtain ⟨had, reachable, anchored⟩ := ih
    have counted : 1 + UInt32.ofNat (count + 1) = 1 + UInt32.ofNat count + 1 := by
      rw [UInt32.ofNat_add, UInt32.add_assoc]
      rfl
    rw [counted]
    refine ⟨⟨some (sampleCheckpoint (1 + UInt32.ofNat count + 1)), []⟩ :: had, ?_, rfl, ?_⟩
    · exact reachable.trans
        (reachable_of_execute _ (checkpointSchedule_anchored had (1 + UInt32.ofNat count)))
    · intro state member
      rcases List.mem_cons.mp member with rfl | earlier
      · exact ⟨rfl, .inr ⟨_, rfl⟩⟩
      · exact anchored.states state earlier

theorem not_shows_without_records {restore : ColdRestore} {state : HistoryState}
    (shown : restore.scrollbackForReplay = [65]) (noBatches : state.batches = [])
    (base : state.base = none ∨ ∃ older, state.base = some (sampleCheckpoint older)) :
    ¬ restore.Shows state.base state.batches.flatten := by
  intro shows
  rw [noBatches] at shows
  rcases base with bare | ⟨older, anchored⟩
  · rw [bare] at shows
    rcases shows with replayed | ⟨_, checkpoint, present, _⟩
    · rw [shown] at replayed
      cases replayed
    · cases present
  · rw [anchored] at shows
    rcases shows with replayed | ⟨_, checkpoint, present, replayed⟩
    · rw [shown] at replayed
      cases replayed
    · cases present
      rw [shown] at replayed
      cases replayed

/-- Two runs restore a state that no prefix of the operations had. A crash
inside the `Clear` frame of the batch `A, Clear` restores `XA`. And after
`2 ^ 32` checkpoints the generation is zero again, so that a crash between the
two unlinks of the next session restores the log `A` without its base `X`. -/
theorem restore_between_states : (∃ sys restore, Reachable step .initial sys ∧
      HistoryReader.detectColdRestore blankEmulator sys.durable.disk false = some restore ∧
      ∀ state, sys.durable.WholeAppends state →
        ¬ restore.Shows state.base state.batches.flatten) ∧
    ∃ sys restore, Reachable step .initial sys ∧ sys.durable.torn = [] ∧
      HistoryReader.detectColdRestore blankEmulator sys.durable.disk false = some restore ∧
      ∀ state, sys.durable.WholeAppends state →
        ¬ restore.Shows state.base state.batches.flatten := by
  constructor
  · have replayed : execute step .initial (openSchedule ++ checkpointSchedule ++
        [.begin (.appendIncrements [.output [65], .clear]), .crash 20]) =
      some ⟨⟨⟨some sampleMeta, .present (sampleCheckpoint 1), some (encodeLogHeader 1 ++
          (encodeLogBatch 1 [.output [65], .clear]).take 20)⟩,
        [⟨some (sampleCheckpoint 1), []⟩, ⟨none, []⟩],
        [(⟨some (sampleCheckpoint 1), []⟩, [.output [65], .clear])]⟩, none, none⟩ := rfl
    refine ⟨_, ⟨[88, 65], [], none, 80, 24, false, [], false⟩,
      reachable_of_execute _ replayed, by decide +kernel, ?_⟩
    intro state had shows
    have states : state = ⟨some (sampleCheckpoint 1), []⟩ ∨ state = ⟨none, []⟩ ∨
        state = ⟨some (sampleCheckpoint 1), [[.output [65], .clear]]⟩ := by
      rcases had with member | ⟨before, attempted, member, rfl⟩
      · simp only [List.mem_cons, List.not_mem_nil, or_false] at member
        rcases member with rfl | rfl
        · exact .inl rfl
        · exact .inr (Or.inl rfl)
      · simp only [List.mem_singleton, Prod.mk.injEq] at member
        obtain ⟨rfl, rfl⟩ := member
        exact .inr (Or.inr rfl)
    rcases shows with replayed | ⟨_, checkpoint, present, replayed⟩
    · rcases states with rfl | rfl | rfl <;> cases replayed
    · rcases states with rfl | rfl | rfl <;> cases present <;> cases replayed
  · obtain ⟨had, reachable, anchored⟩ := anchored_reachable (2 ^ 32 - 1)
    rw [show 1 + UInt32.ofNat (2 ^ 32 - 1) = 0 from rfl] at reachable anchored
    have replayed : execute step (anchoredSystem had 0)
        [.begin (.appendIncrements [.output [65]]), .advance, .advance, .crash 0,
          .begin (.openSession sampleMeta), .advance] =
      some ⟨⟨⟨some sampleMeta, .absent,
          some (encodeLogHeader 0 ++ encodeLogBatch 1 [.output [65]])⟩,
        ⟨(had.head?.getD ⟨none, []⟩).base,
          (had.head?.getD ⟨none, []⟩).batches ++ [[.output [65]]]⟩ :: had, []⟩, none,
        some ⟨.openSession sampleMeta, [.removeLog, .writeMeta sampleMeta],
          (HistoryWriter.openSession sampleMeta).writer⟩⟩ := rfl
    have restored : HistoryReader.detectColdRestore blankEmulator ⟨some sampleMeta, .absent,
        some (encodeLogHeader 0 ++ encodeLogBatch 1 [.output [65]])⟩ false =
      some ⟨[65], [], none, 80, 24, false, [], false⟩ := by decide +kernel
    refine ⟨_, _, reachable.trans (reachable_of_execute _ replayed), rfl, restored, ?_⟩
    intro state had_
    rcases had_ with member | ⟨before, attempted, member, _⟩
    · rcases List.mem_cons.mp member with rfl | earlier
      · rw [anchored.newest]
        intro shows
        rcases shows with replayed | ⟨noRecords, _⟩
        · cases replayed
        · cases noRecords
      · exact not_shows_without_records rfl (anchored.states state earlier).1
          (anchored.states state earlier).2
    · cases member

end AiTools.Daemon.History
