import AiTools.Daemon.Emulator
import AiTools.Daemon.History.Disk

/-!
Contract: `HistoryReader`, which composes a cold restore from a directory.

Owns: `detectColdRestore` with its fallback chain (log replay, checkpoint alone,
nothing), and the law that a restore comes from a checkpoint and the records of
a log of the same generation.
-/

namespace AiTools.Daemon.History

structure ColdRestore where
  scrollbackForReplay : List UInt8
  finalScreenAnsi : List UInt8
  cwd : Option String
  cols : UInt16
  rows : UInt16
  isAlternateScreen : Bool
  pendingEscapeTail : List UInt8
  degraded : Bool
deriving DecidableEq

/-- The byte-exact scrollback behind one record. -/
def replayRecord (scrollback : List UInt8) : HistoryRecord → List UInt8
  | .output bytes => scrollback ++ bytes
  | .resize _ _ => scrollback
  | .clear => []

def replay (base : List UInt8) (records : List HistoryRecord) : List UInt8 :=
  records.foldl replayRecord base

@[simp] theorem replay_nil (base : List UInt8) : replay base [] = base := rfl

@[simp] theorem replay_cons (base : List UInt8) (record : HistoryRecord)
    (rest : List HistoryRecord) :
    replay base (record :: rest) = replay (replayRecord base record) rest := rfl

theorem replay_append (base : List UInt8) (left right : List HistoryRecord) :
    replay base (left ++ right) = replay (replay base left) right := by
  simp [replay]

variable {σ : Type*} (emulator : DaemonEmulator σ)

namespace HistoryReader

/-- `HistoryReader::finish`. -/
def finish (scratch : σ) (scrollbackForReplay : List UInt8) (checkpoint : Option Checkpoint)
    (sessionMeta : SessionMeta) (degraded : Bool) : ColdRestore :=
  let snap := emulator.snapshot scratch 0
  { scrollbackForReplay := scrollbackForReplay
    finalScreenAnsi :=
      if snap.isAlternateScreen ∧ snap.scrollbackAnsi = [] then snap.snapshotAnsi
      else snap.scrollbackAnsi
    cwd := ((checkpoint.bind Checkpoint.cwd).or snap.cwd).or sessionMeta.cwd
    cols := snap.cols
    rows := snap.rows
    isAlternateScreen := snap.isAlternateScreen
    pendingEscapeTail := (checkpoint.map Checkpoint.pendingEscapeTail).getD snap.pendingEscapeTail
    degraded := degraded }

/-- `CSI ? 1049 h`, the alternate screen. -/
def enterAlternateScreen : List UInt8 := [0x1b, 0x5b, 0x3f, 0x31, 0x30, 0x34, 0x39, 0x68]

def checkpointBaseBytes (checkpoint : Checkpoint) : List UInt8 :=
  if checkpoint.scrollbackAnsi = [] ∧ checkpoint.isAlternateScreen then
    enterAlternateScreen ++ checkpoint.rehydrateSequences ++ checkpoint.snapshotAnsi
  else checkpoint.scrollbackAnsi

/-- One record of the log, on the scratch screen and the scrollback. -/
def replayOnScreen (state : σ × List UInt8) (record : HistoryRecord) : σ × List UInt8 :=
  match record with
  | .output bytes => (emulator.process state.1 bytes, state.2 ++ bytes)
  | .resize cols rows => (emulator.resize state.1 cols rows, state.2)
  | .clear => (state.1, [])

def restoreFromLog (disk : Disk) (sessionMeta : SessionMeta) (checkpoint : Option Checkpoint)
    (checkpointTorn : Bool) : Option ColdRestore :=
  match disk.log with
  | none => none
  | some buf =>
    match decodeLog buf with
    | none => none
    | some log =>
      if log.batches.isEmpty then none
      else
        let mismatch : Bool :=
          match checkpoint with
          | some cp => log.generation != cp.generation
          | none => !checkpointTorn && log.generation != 0
        if mismatch then none
        else
          let degraded := checkpoint.isNone && checkpointTorn
          let cols := max ((checkpoint.map Checkpoint.cols).getD sessionMeta.cols) 1
          let rows := max ((checkpoint.map Checkpoint.rows).getD sessionMeta.rows) 1
          let fresh := emulator.new rows cols
          let base : σ × List UInt8 :=
            match checkpoint with
            | some cp => (emulator.process fresh (checkpointBaseBytes cp), cp.scrollbackAnsi)
            | none => (fresh, [])
          let final := log.batches.foldl
            (fun state batch => batch.records.foldl (replayOnScreen emulator) state) base
          some (finish emulator final.1 final.2 checkpoint sessionMeta degraded)

def restoreFromCheckpoint (cp : Checkpoint) (sessionMeta : SessionMeta) : ColdRestore :=
  let scratch := emulator.process (emulator.new (max cp.rows 1) (max cp.cols 1))
    (checkpointBaseBytes cp)
  let scrollback :=
    if cp.scrollbackAnsi = [] ∧ cp.isAlternateScreen then cp.snapshotAnsi else cp.scrollbackAnsi
  finish emulator scratch scrollback (some cp) sessionMeta false

def detectColdRestore (disk : Disk) (ignoreCleanEnd : Bool) : Option ColdRestore :=
  match disk.sessionMeta with
  | none => none
  | some sessionMeta =>
    if sessionMeta.endedAtMs.isSome ∧ ¬ ignoreCleanEnd then none
    else
      let checkpoint := disk.checkpoint.read
      -- A checkpoint older than this session belongs to a previous one.
      let previous : Bool :=
        match checkpoint with
        | some cp => cp.checkpointedAtMs != 0 && cp.checkpointedAtMs < sessionMeta.startedAtMs
        | none => false
      if previous then none
      else
        let checkpointTorn := checkpoint.isNone && disk.checkpoint.exists
        match restoreFromLog emulator disk sessionMeta checkpoint checkpointTorn with
        | some restore => some restore
        | none => checkpoint.map fun cp => restoreFromCheckpoint emulator cp sessionMeta

/-! ## What a restore shows -/

theorem replayOnScreen_scrollback (records : List HistoryRecord) (state : σ × List UInt8) :
    (records.foldl (replayOnScreen emulator) state).2 = replay state.2 records := by
  induction records generalizing state with
  | nil => rfl
  | cons record rest ih =>
    rw [List.foldl_cons, ih, replay_cons]
    cases record <;> rfl

theorem replayOnScreen_batches (batches : List LogBatch) (state : σ × List UInt8) :
    (batches.foldl (fun state batch => batch.records.foldl (replayOnScreen emulator) state)
      state).2 = replay state.2 (batches.flatMap LogBatch.records) := by
  induction batches generalizing state with
  | nil => rfl
  | cons batch rest ih =>
    rw [List.foldl_cons, ih, replayOnScreen_scrollback, List.flatMap_cons, replay_append]

end HistoryReader

/-- The scrollback of a checkpoint that nothing follows: the alternate screen's
body stands in for an empty ring. -/
def Checkpoint.scrollback (checkpoint : Checkpoint) : List UInt8 :=
  if checkpoint.scrollbackAnsi = [] ∧ checkpoint.isAlternateScreen then checkpoint.snapshotAnsi
  else checkpoint.scrollbackAnsi

/-- The raw ring of a checkpoint, empty without one. -/
def ringOf (base : Option Checkpoint) : List UInt8 :=
  (base.map Checkpoint.scrollbackAnsi).getD []

/-- A restore shows a checkpoint's ring with records replayed on it, or, without
records, the checkpoint alone. -/
def ColdRestore.Shows (restore : ColdRestore) (base : Option Checkpoint)
    (records : List HistoryRecord) : Prop :=
  restore.scrollbackForReplay = replay (ringOf base) records ∨
    records = [] ∧ ∃ checkpoint, base = some checkpoint ∧
      restore.scrollbackForReplay = checkpoint.scrollback

namespace HistoryReader

variable {disk : Disk} {sessionMeta : SessionMeta} {restore : ColdRestore} {ignoreCleanEnd : Bool}
  {checkpoint : Checkpoint}

/-- A log restore is the replay of a decoded log of the checkpoint's generation,
or of generation zero when there is no checkpoint. -/
theorem restoreFromLog_shows {checkpoint : Option Checkpoint}
    (restored : restoreFromLog emulator disk sessionMeta checkpoint false = some restore) :
    ∃ buf log, disk.log = some buf ∧ decodeLog buf = some log ∧ log.batches ≠ [] ∧
      log.generation = (checkpoint.map Checkpoint.generation).getD 0 ∧
      restore.scrollbackForReplay =
        replay (ringOf checkpoint) (log.batches.flatMap LogBatch.records) ∧
      restore.degraded = false := by
  unfold restoreFromLog at restored
  cases onDisk : disk.log with
  | none => simp [onDisk] at restored
  | some buf =>
    rw [onDisk] at restored
    dsimp only at restored
    cases decodes : decodeLog buf with
    | none => simp [decodes] at restored
    | some log =>
      rw [decodes] at restored
      dsimp only at restored
      split_ifs at restored with empty mismatch
      have nonempty : log.batches ≠ [] := by simpa using empty
      refine ⟨buf, log, rfl, decodes, nonempty, ?_, ?_, ?_⟩
      · cases checkpoint with
        | none | some cp => simpa using mismatch
      · cases restored
        cases checkpoint with
        | none | some cp => exact replayOnScreen_batches emulator _ _
      · cases restored
        simp [finish]

/-- Every restore of a directory whose checkpoint file is not torn comes from
its checkpoint alone, or from it and the records of a log that pairs with it. -/
theorem detectColdRestore_shows (intact : disk.checkpoint ≠ .unreadable)
    (restored : detectColdRestore emulator disk ignoreCleanEnd = some restore) :
    restore.degraded = false ∧
      ((∃ buf log, disk.log = some buf ∧ decodeLog buf = some log ∧ log.batches ≠ [] ∧
          log.generation = (disk.checkpoint.read.map Checkpoint.generation).getD 0 ∧
          restore.Shows disk.checkpoint.read (log.batches.flatMap LogBatch.records)) ∨
        ∃ checkpoint, disk.checkpoint.read = some checkpoint ∧
          restore.Shows (some checkpoint) []) := by
  unfold detectColdRestore at restored
  cases onDisk : disk.sessionMeta with
  | none => simp [onDisk] at restored
  | some sessionMeta =>
    rw [onDisk] at restored
    dsimp only at restored
    have notTorn : (disk.checkpoint.read.isNone && disk.checkpoint.exists) = false := by
      cases file : disk.checkpoint with
      | absent | present checkpoint => rfl
      | unreadable => exact absurd file intact
    rw [notTorn] at restored
    split_ifs at restored with ended previous
    cases fromLog : restoreFromLog emulator disk sessionMeta disk.checkpoint.read false with
    | some found =>
      rw [fromLog] at restored
      cases restored
      obtain ⟨buf, log, logOnDisk, decodes, nonempty, paired, shown, whole⟩ :=
        restoreFromLog_shows emulator fromLog
      exact ⟨whole, .inl ⟨buf, log, logOnDisk, decodes, nonempty, paired, .inl shown⟩⟩
    | none =>
      rw [fromLog] at restored
      cases file : disk.checkpoint.read with
      | none => simp [file] at restored
      | some checkpoint =>
        rw [file] at restored
        cases restored
        exact ⟨rfl, .inr ⟨checkpoint, rfl, .inr ⟨rfl, checkpoint, rfl, rfl⟩⟩⟩

/-- A restore from a checkpoint and a log of its generation shows the ring with
the log's records replayed on it. -/
theorem detectColdRestore_paired (ignoreCleanEnd : Bool) {buf : List UInt8} {log : DecodedLog}
    (metaOnDisk : disk.sessionMeta = some sessionMeta) (unended : sessionMeta.endedAtMs = none)
    (onDisk : disk.checkpoint = .present checkpoint) (current : checkpoint.checkpointedAtMs = 0 ∨
      sessionMeta.startedAtMs ≤ checkpoint.checkpointedAtMs)
    (plain : checkpoint.scrollback = checkpoint.scrollbackAnsi)
    (logOnDisk : disk.log = some buf) (decodes : decodeLog buf = some log)
    (paired : log.generation = checkpoint.generation) :
    ∃ restore, detectColdRestore emulator disk ignoreCleanEnd = some restore ∧
      restore.scrollbackForReplay =
        replay checkpoint.scrollbackAnsi (log.batches.flatMap LogBatch.records) := by
  have read : disk.checkpoint.read = some checkpoint := by
    rw [onDisk]
    rfl
  have ended : ¬ (sessionMeta.endedAtMs.isSome ∧ ¬ ignoreCleanEnd = true) := by
    simp [unended]
  have previous : ¬ (checkpoint.checkpointedAtMs != 0 &&
      decide (checkpoint.checkpointedAtMs < sessionMeta.startedAtMs)) = true := by
    rcases current with synthetic | later
    · simp [synthetic]
    · simp [later]
  unfold detectColdRestore
  rw [metaOnDisk]
  dsimp only
  rw [if_neg ended, read]
  dsimp only
  rw [if_neg previous]
  unfold restoreFromLog
  rw [logOnDisk]
  dsimp only
  rw [decodes]
  dsimp only
  by_cases empty : log.batches = []
  · rw [if_pos (by simp [empty])]
    refine ⟨_, rfl, ?_⟩
    rw [empty, List.flatMap_nil, replay_nil, ← plain]
    rfl
  · rw [if_neg (by simpa using empty), if_neg (by simp [paired])]
    exact ⟨_, rfl, replayOnScreen_batches emulator _ _⟩

/-- A readable directory whose session did not end cleanly restores as soon as
it holds a checkpoint of this session. -/
theorem detectColdRestore_isSome (metaOnDisk : disk.sessionMeta = some sessionMeta)
    (unended : sessionMeta.endedAtMs = none ∨ ignoreCleanEnd = true)
    (onDisk : disk.checkpoint = .present checkpoint) (current : checkpoint.checkpointedAtMs = 0 ∨
      sessionMeta.startedAtMs ≤ checkpoint.checkpointedAtMs) :
    (detectColdRestore emulator disk ignoreCleanEnd).isSome := by
  unfold detectColdRestore
  rw [metaOnDisk]
  dsimp only
  rw [if_neg, if_neg]
  · cases restoreFromLog emulator disk sessionMeta disk.checkpoint.read
        (disk.checkpoint.read.isNone && disk.checkpoint.exists) with
    | some restore => rfl
    | none => simp [onDisk, CheckpointFile.read]
  · rw [onDisk]
    rcases current with synthetic | later
    · simp [CheckpointFile.read, synthetic]
    · simp [CheckpointFile.read, later]
  · intro refused
    rcases unended with open_ | ignored
    · simp [open_] at refused
    · exact refused.2 ignored

end HistoryReader

end AiTools.Daemon.History
