import AiTools.Daemon.History.LogSalvage

/-!
Contract: the session directory of the terminal history and its disk steps.

A rename and an unlink are atomic; a whole-file write truncates first and leaves a
prefix; an append leaves a prefix; a proper prefix of `meta.json` cannot be read.
-/

namespace AiTools.Daemon.History

/-- `meta.json`. A session without an end time is eligible for a cold restore. -/
structure SessionMeta where
  cwd : Option String
  cols : UInt16
  rows : UInt16
  startedAtMs : UInt64
  endedAtMs : Option UInt64
  exitCode : Option Int32

def SessionMeta.new (cwd : Option String) (cols rows : UInt16) (nowMs : UInt64) : SessionMeta where
  cwd := cwd
  cols := cols
  rows := rows
  startedAtMs := nowMs
  endedAtMs := none
  exitCode := none

/-- `checkpoint.json`. -/
structure Checkpoint where
  snapshotAnsi : List UInt8
  scrollbackAnsi : List UInt8
  rehydrateSequences : List UInt8
  pendingEscapeTail : List UInt8
  cwd : Option String
  cols : UInt16
  rows : UInt16
  isAlternateScreen : Bool
  kittyKeyboardFlags : UInt32
  lastTitle : Option String
  scrollbackSeq : UInt64
  generation : UInt32
  checkpointedAtMs : UInt64

inductive CheckpointFile where
  | absent
  | unreadable
  | present (checkpoint : Checkpoint)

/-- `Checkpoint::read`. -/
def CheckpointFile.read : CheckpointFile → Option Checkpoint
  | .present checkpoint => some checkpoint
  | _ => none

/-- `checkpoint_path.exists()`. -/
def CheckpointFile.exists : CheckpointFile → Bool
  | .absent => false
  | _ => true

/-- The session directory. `sessionMeta` is what `SessionMeta::read` returns:
`none` for a missing and for an unreadable file. -/
structure Disk where
  sessionMeta : Option SessionMeta
  checkpoint : CheckpointFile
  log : Option (List UInt8)

def Disk.empty : Disk := ⟨none, .absent, none⟩

inductive DiskStep where
  | removeCheckpoint
  | removeLog
  | writeMeta (sessionMeta : SessionMeta)
  /-- The durable replace of `checkpoint.json`: its temporary file is never read. -/
  | renameCheckpoint (checkpoint : Checkpoint)
  | writeLog (bytes : List UInt8)
  | appendLog (bytes : List UInt8)

def DiskStep.apply (disk : Disk) : DiskStep → Disk
  | .removeCheckpoint => { disk with checkpoint := .absent }
  | .removeLog => { disk with log := none }
  | .writeMeta sessionMeta => { disk with sessionMeta := some sessionMeta }
  | .renameCheckpoint checkpoint => { disk with checkpoint := .present checkpoint }
  | .writeLog bytes => { disk with log := some bytes }
  | .appendLog bytes => { disk with log := disk.log.map (· ++ bytes) }

/-- The directory after a crash inside a step, `cut` bytes into its write. -/
def DiskStep.tear (disk : Disk) (cut : Nat) : DiskStep → Disk
  | .removeCheckpoint => disk
  | .removeLog => disk
  | .writeMeta _ => { disk with sessionMeta := none }
  | .renameCheckpoint _ => disk
  | .writeLog bytes => { disk with log := some (bytes.take cut) }
  | .appendLog bytes => { disk with log := disk.log.map (· ++ bytes.take cut) }

end AiTools.Daemon.History
