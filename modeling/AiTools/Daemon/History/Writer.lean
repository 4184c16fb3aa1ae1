import AiTools.Daemon.History.Disk

/-!
Contract: `HistoryWriter`, the per-session disk writer.

Owns: its state and its operations, each as the disk steps it takes from a
directory and the writer it leaves, and the spec lemmas of log resolution and
append.
-/

namespace AiTools.Daemon.History

open AiTools.Lib.TaggedFrames

/-- The owner lock and the paths are left out: a directory has at most one
writer at a time. `logGeneration` and `logBytes` are `none` until a warm writer
has resolved them from the log. -/
structure HistoryWriter where
  logGeneration : Option UInt32
  logBytes : Option Nat
  appendedOutputBytes : UInt64
  needsFullAnchor : Bool
  logMaxBytes : Nat

/-- What one operation does: its disk steps, in order, and the writer after it. -/
structure WriterRun where
  steps : List DiskStep
  writer : HistoryWriter

inductive AppendOutcome where
  | appended
  | needsCheckpoint

namespace HistoryWriter

/-- A genuinely new session: the stale checkpoint and log go before the fresh
meta is written. -/
def openSession (sessionMeta : SessionMeta) : WriterRun where
  steps := [.removeCheckpoint, .removeLog, .writeMeta sessionMeta]
  writer :=
    { logGeneration := some 0
      logBytes := some 0
      appendedOutputBytes := 0
      needsFullAnchor := true
      logMaxBytes := defaultLogMaxBytes }

/-- A warm reattach: the files on disk stay as they are. -/
def registerWriter : WriterRun where
  steps := []
  writer :=
    { logGeneration := none
      logBytes := none
      appendedOutputBytes := 0
      needsFullAnchor := true
      logMaxBytes := defaultLogMaxBytes }

def checkpointGeneration (disk : Disk) : Option UInt32 :=
  disk.checkpoint.read.map Checkpoint.generation

/-- The state of a log that the next append rewrites from scratch. -/
def restartLog (disk : Disk) (writer : HistoryWriter) : HistoryWriter :=
  { writer with
    logBytes := some 0
    logGeneration := some ((checkpointGeneration disk).getD 0)
    appendedOutputBytes := 0 }

def resolveLogState (disk : Disk) (writer : HistoryWriter) : HistoryWriter :=
  if writer.logBytes.isSome ∧ writer.logGeneration.isSome then writer
  else
    match disk.log with
    | some buf =>
      match decodeLogHeader buf with
      | some generation =>
        { writer with
          logGeneration := some generation
          logBytes := some buf.length
          appendedOutputBytes :=
            ((decodeLog buf).bind fun decoded =>
              decoded.batches.getLast?.map LogBatch.seq).getD 0 }
      | none => restartLog disk writer
    | none => restartLog disk writer

def appendIncrements (disk : Disk) (writer : HistoryWriter) (records : List HistoryRecord) :
    AppendOutcome × WriterRun :=
  if records.isEmpty then (.appended, ⟨[], writer⟩)
  else
    let resolved := resolveLogState disk writer
    let seq := resolved.appendedOutputBytes + recordsOutputBytes records
    let batch := encodeLogBatch seq records
    let current := max (resolved.logBytes.getD 0) logHeaderBytes
    if resolved.logMaxBytes < current + batch.length then (.needsCheckpoint, ⟨[], resolved⟩)
    else
      -- The header is written lazily, so a warm reattach never clobbers a log.
      let header : List DiskStep :=
        if resolved.logBytes = some 0 then
          [.writeLog (encodeLogHeader (resolved.logGeneration.getD 0))]
        else []
      let written := if resolved.logBytes = some 0 then logHeaderBytes
        else resolved.logBytes.getD logHeaderBytes
      (.appended,
        { steps := header ++ [.appendLog batch]
          writer :=
            { resolved with
              logBytes := some (written + batch.length)
              appendedOutputBytes := seq } })

/-- The generation that the next checkpoint of a writer is stamped with. -/
def nextGeneration (disk : Disk) (writer : HistoryWriter) : UInt32 :=
  (resolveLogState disk writer).logGeneration.getD 0 + 1

/-- A full checkpoint: the durable rename comes first, then the log is reset to
a header of the new generation. -/
def checkpoint (disk : Disk) (writer : HistoryWriter) (checkpoint : Checkpoint)
    (nowMs : UInt64) : WriterRun :=
  let generation := nextGeneration disk writer
  { steps :=
      [.renameCheckpoint
        { checkpoint with generation := generation, checkpointedAtMs := nowMs },
       .writeLog (encodeLogHeader generation)]
    writer :=
      { resolveLogState disk writer with
        logGeneration := some generation
        logBytes := some logHeaderBytes
        appendedOutputBytes := 0
        needsFullAnchor := false } }

def forceFullAnchor (writer : HistoryWriter) : HistoryWriter :=
  { writer with needsFullAnchor := true }

def stampEnded (disk : Disk) (writer : HistoryWriter) (exitCode : Option Int32)
    (nowMs : UInt64) : WriterRun :=
  match disk.sessionMeta with
  | none => ⟨[], writer⟩
  | some sessionMeta =>
    ⟨[.writeMeta { sessionMeta with endedAtMs := some nowMs, exitCode := exitCode }], writer⟩

def reopen (disk : Disk) (writer : HistoryWriter) : WriterRun where
  steps :=
    match disk.sessionMeta with
    | none => []
    | some sessionMeta => [.writeMeta { sessionMeta with endedAtMs := none, exitCode := none }]
  writer := writer.forceFullAnchor

variable {disk : Disk} {writer : HistoryWriter} {generation : UInt32} {bytes : Nat}

theorem resolveLogState_of_resolved (hasGeneration : writer.logGeneration = some generation)
    (hasBytes : writer.logBytes = some bytes) : resolveLogState disk writer = writer := by
  unfold resolveLogState
  simp [hasGeneration, hasBytes]

theorem resolveLogState_cap (disk : Disk) (writer : HistoryWriter) :
    (resolveLogState disk writer).logMaxBytes = writer.logMaxBytes := by
  unfold resolveLogState
  split
  · rfl
  · split
    · split <;> rfl
    · rfl

theorem resolveLogState_of_decodes {buf : List UInt8} {decoded : DecodedLog}
    (warm : writer.logBytes = none) (log : disk.log = some buf)
    (decodes : decodeLog buf = some decoded) :
    (resolveLogState disk writer).logGeneration = some decoded.generation := by
  have header : decodeLogHeader buf = some decoded.generation := decodeLogHeader_of_decodes decodes
  unfold resolveLogState
  simp [warm, log, header]

/-- The batch that a writer with a resolved log stamps records into. -/
def stampedBatch (writer : HistoryWriter) (records : List HistoryRecord) : LogBatch :=
  ⟨writer.appendedOutputBytes + recordsOutputBytes records, records⟩

/-- What an append of a writer with a resolved log does: nothing when the batch
would exceed the cap, else a header for an empty log and the batch. -/
theorem appendIncrements_cases {records : List HistoryRecord}
    (hasGeneration : writer.logGeneration = some generation)
    (hasBytes : writer.logBytes = some bytes) (nonempty : records ≠ []) :
    appendIncrements disk writer records = (.needsCheckpoint, ⟨[], writer⟩) ∨
      batchSize (writer.stampedBatch records) ≤ writer.logMaxBytes ∧
        appendIncrements disk writer records = (.appended,
            { steps :=
                (if bytes = 0 then [.writeLog (encodeLogHeader generation)] else []) ++
                  [.appendLog (encodeFrames (writer.stampedBatch records).frames)]
              writer :=
                { writer with
                  logBytes :=
                    some ((if bytes = 0 then logHeaderBytes else bytes) +
                      batchSize (writer.stampedBatch records))
                  appendedOutputBytes := (writer.stampedBatch records).seq } }) := by
  have encoded : encodeLogBatch (writer.appendedOutputBytes + recordsOutputBytes records)
      records = encodeFrames (writer.stampedBatch records).frames := encodeLogBatch_frames _ _
  have size : (encodeFrames (writer.stampedBatch records).frames).length =
      batchSize (writer.stampedBatch records) := rfl
  unfold appendIncrements
  rw [if_neg (by simpa using nonempty), resolveLogState_of_resolved hasGeneration hasBytes]
  dsimp only
  rw [encoded, size]
  simp only [hasBytes, hasGeneration, Option.getD_some]
  by_cases tooLong :
      writer.logMaxBytes < max bytes logHeaderBytes + batchSize (writer.stampedBatch records)
  · exact .inl (if_pos tooLong)
  · rw [if_neg tooLong]
    refine .inr ⟨by omega, ?_⟩
    by_cases empty : bytes = 0
    · subst empty
      simp [stampedBatch]
    · simp [empty, stampedBatch]

end HistoryWriter

end AiTools.Daemon.History
