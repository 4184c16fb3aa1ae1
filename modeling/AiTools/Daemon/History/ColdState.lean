import AiTools.Daemon.EmulatorProcess
import AiTools.Daemon.History.Reader
import AiTools.Daemon.ModeState.FoldSafe
import Mathlib

/-!
Contract: the terminal state that a cold restore reports behind a replayed log.

Owns `daemonEmulator`, the emulator over vt100, and what the base of a checkpoint and then a log
leave: in vt100 fed alone, in the mode scan of the stream, and in the scrollback.
Does not own vt100, a parameter that takes a stream in any pieces.
-/

namespace AiTools.Daemon.History

open EmulatorProcess
open ModeState (State)

/-- vt100, as far as a cold restore uses it. -/
structure Vt100 (σ : Type*) extends Parser σ where
  new (rows cols : UInt16) : σ
  setSize (screen : σ) (rows cols : UInt16) : σ
  size (screen : σ) : UInt16 × UInt16
  /-- `rehydrate_preamble`, which a cold restore does not read. -/
  rehydratePreamble (screen : σ) (modes : State) : List UInt8

variable {σ : Type*}

structure Vt100.Streams (vt : Vt100 σ) : Prop where
  nil : ∀ screen, vt.process screen [] = screen
  append : ∀ screen first second,
    vt.process (vt.process screen first) second = vt.process screen (first ++ second)

/-- The snapshot is the one without the absolute cursor tail. -/
def daemonEmulator (vt : Vt100 σ) : DaemonEmulator (Emulator σ) where
  new rows cols := ⟨vt.new rows cols, State.new, none, none⟩
  process self chunk := (self.process vt.toParser chunk).1
  resize self cols rows := { self with screen := vt.setSize self.screen rows cols }
  snapshot self outputSequence :=
    let isAlt := vt.alternateScreen self.screen
    let body := vt.contentsFormatted self.screen
    { scrollbackAnsi := if isAlt then self.primaryFrozen.getD [] else body
      rehydrateSequences := vt.rehydratePreamble self.screen self.modes
      snapshotAnsi := if isAlt then body else []
      pendingEscapeTail := self.modes.scanTail
      cols := (vt.size self.screen).2
      rows := (vt.size self.screen).1
      isAlternateScreen := isAlt
      kittyKeyboardFlags := self.modes.kittyStack.getLast?.getD 0
      cwd := self.modes.cwd
      title := self.modes.title
      outputSequence := outputSequence }

/-! ## What the stream leaves -/

def HistoryRecord.output? : HistoryRecord → Option (List UInt8)
  | .output bytes => some bytes
  | _ => none

/-- The base of the checkpoint, and the output of the log behind it. -/
def chunks (checkpoint : Option Checkpoint) (records : List HistoryRecord) : List (List UInt8) :=
  (checkpoint.map HistoryReader.checkpointBaseBytes).toList ++
    records.filterMap HistoryRecord.output?

def scanned (checkpoint : Option Checkpoint) (records : List HistoryRecord) : State :=
  State.new.scanChunks (chunks checkpoint records)

/-- vt100 alone, behind a record. -/
def Vt100.behind (vt : Vt100 σ) (screen : σ) : HistoryRecord → σ
  | .output bytes => vt.process screen bytes
  | .resize cols rows => vt.setSize screen rows cols
  | .clear => screen

/-- vt100 alone, behind the base and the log. -/
def Vt100.left (vt : Vt100 σ) (sessionMeta : SessionMeta) (checkpoint : Option Checkpoint)
    (records : List HistoryRecord) : σ :=
  let cols := max ((checkpoint.map Checkpoint.cols).getD sessionMeta.cols) 1
  let rows := max ((checkpoint.map Checkpoint.rows).getD sessionMeta.rows) 1
  let base := (checkpoint.map HistoryReader.checkpointBaseBytes).getD []
  records.foldl vt.behind (vt.process (vt.new rows cols) base)

def knownCwd (sessionMeta : SessionMeta) (checkpoint : Option Checkpoint) : Option String :=
  (checkpoint.bind Checkpoint.cwd).or sessionMeta.cwd

/-- A restore reports the state that is left. The working directory is the last one reported, or
the one known before when the stream reports none. -/
structure ColdRestore.Reports (restore : ColdRestore) (vt : Vt100 σ) (sessionMeta : SessionMeta)
    (checkpoint : Option Checkpoint) (records : List HistoryRecord) : Prop where
  pendingEscapeTail : restore.pendingEscapeTail = (scanned checkpoint records).scanTail
  cwd : restore.cwd = (scanned checkpoint records).cwd.or (knownCwd sessionMeta checkpoint)
  isAlternateScreen : restore.isAlternateScreen =
    vt.alternateScreen (vt.left sessionMeta checkpoint records)
  size : (restore.rows, restore.cols) = vt.size (vt.left sessionMeta checkpoint records)
  finalScreenAnsi : vt.alternateScreen (vt.left sessionMeta checkpoint records) = false →
    restore.finalScreenAnsi = vt.contentsFormatted (vt.left sessionMeta checkpoint records)
  scrollback : restore.scrollbackForReplay = replay (ringOf checkpoint) records

/-- The scan of the base and the log ends with the escape tail of the checkpoint, and finds no
working directory but the checkpoint's, if that has one. -/
def Checkpoint.EndsAs (checkpoint : Checkpoint) (records : List HistoryRecord) : Prop :=
  checkpoint.pendingEscapeTail = (scanned (some checkpoint) records).scanTail ∧
    ∀ reported stale, (scanned (some checkpoint) records).cwd = some reported →
      checkpoint.cwd = some stale → stale = reported

/-! ## The emulator feeds vt100 the stream -/

section
variable {vt : Vt100 σ} (streams : vt.Streams)

/-- Whatever the splits are, the chunk is fed up to the cursor. -/
def Along (vt : Vt100 σ) (screen : σ) (modes : State) (chunk : List UInt8)
    (progress : Progress σ) : Prop :=
  progress.cursor ≤ chunk.length ∧ progress.self.modes = modes ∧
    progress.self.screen = vt.process screen (chunk.take progress.cursor)

include streams

theorem Along.feed {screen : σ} {modes : State} {chunk : List UInt8} {progress : Progress σ}
    (along : Along vt screen modes chunk progress) {finish : Nat}
    (isLater : progress.cursor ≤ finish) (isWithin : finish ≤ chunk.length) :
    Along vt screen modes chunk (progress.feed vt.toParser chunk finish) := by
  refine ⟨isWithin, along.2.1, ?_⟩
  show vt.process progress.self.screen (slice chunk progress.cursor finish) = _
  rw [along.2.2, streams.append, take_append_slice chunk isLater]
  rfl

theorem Along.onSplit {screen : σ} {modes : State} {chunk : List UInt8} {progress : Progress σ}
    (along : Along vt screen modes chunk progress) (split : Nat × ModeState.Split) :
    Along vt screen modes chunk (progress.onSplit vt.toParser chunk split) := by
  have act : ∀ {progress : Progress σ}, Along vt screen modes chunk progress →
      Along vt screen modes chunk (progress.act vt.toParser split.2) := by
    intro progress along
    unfold Progress.act
    split
    · split_ifs <;> exact along
    · exact along
  unfold Progress.onSplit
  dsimp only
  split_ifs with isBehind
  · exact act (along.feed streams isBehind.le (min_le_right _ _))
  · exact act along

theorem process_eq (self : Emulator σ) (chunk : List UInt8) :
    (self.process vt.toParser chunk).1.modes = (self.modes.scan chunk).1 ∧
      (self.process vt.toParser chunk).1.screen = vt.process self.screen chunk := by
  have start : Along vt self.screen (self.modes.scan chunk).1 chunk
      ⟨{ self with modes := (self.modes.scan chunk).1 }, 0, []⟩ :=
    ⟨Nat.zero_le _, rfl, (streams.nil _).symm⟩
  have reconciled : ∀ {progress : Progress σ},
      Along vt self.screen (self.modes.scan chunk).1 chunk progress →
      progress.cursor = chunk.length →
      (progress.self.reconcileAlt vt.toParser).modes = (self.modes.scan chunk).1 ∧
        (progress.self.reconcileAlt vt.toParser).screen = vt.process self.screen chunk := by
    rintro progress ⟨_, modes, screen⟩ isEnd
    rw [isEnd, List.take_length] at screen
    unfold Emulator.reconcileAlt
    split_ifs <;> exact ⟨modes, screen⟩
  unfold Emulator.process
  dsimp only
  have atSplits := List.foldlRecOn (self.modes.scan chunk).2 (Progress.onSplit vt.toParser chunk)
    start fun _ along split _ => along.onSplit streams split
  split_ifs with isWhole isRest
  · exact reconciled (start.feed streams (Nat.zero_le _) le_rfl) rfl
  · exact reconciled (atSplits.feed streams isRest.le le_rfl) rfl
  · exact reconciled atSplits (le_antisymm atSplits.1 (Nat.le_of_not_lt isRest))

theorem foldl_replay (records : List HistoryRecord) : ∀ (self : Emulator σ) (ring : List UInt8),
    let final := records.foldl (HistoryReader.replayOnScreen (daemonEmulator vt)) (self, ring)
    final.1.modes = self.modes.scanChunks (records.filterMap HistoryRecord.output?) ∧
      final.1.screen = records.foldl vt.behind self.screen ∧ final.2 = replay ring records := by
  induction records with
  | nil => exact fun _ _ => ⟨rfl, rfl, rfl⟩
  | cons record later ih =>
    intro self ring
    cases record with
    | output bytes =>
      obtain ⟨modes, screen⟩ := process_eq streams self bytes
      have rest := ih (self.process vt.toParser bytes).1 (ring ++ bytes)
      rw [modes, screen] at rest
      exact rest
    | resize cols rows => exact ih { self with screen := vt.setSize self.screen rows cols } ring
    | clear => exact ih self []

omit streams

theorem foldl_batches (emulator : DaemonEmulator σ) (batches : List LogBatch) :
    ∀ state : σ × List UInt8,
    batches.foldl (fun state batch =>
        batch.records.foldl (HistoryReader.replayOnScreen emulator) state) state =
      (batches.flatMap LogBatch.records).foldl (HistoryReader.replayOnScreen emulator) state := by
  induction batches with
  | nil => exact fun _ => rfl
  | cons batch later ih =>
    intro state
    rw [List.foldl_cons, ih, List.flatMap_cons, List.foldl_append]

include streams

theorem restoreFromLog_eq {disk : Disk} {sessionMeta : SessionMeta}
    {checkpoint : Option Checkpoint} {checkpointTorn : Bool} {buf : List UInt8} {log : DecodedLog}
    {restore : ColdRestore} (onDisk : disk.log = some buf) (decodes : decodeLog buf = some log)
    (restored : HistoryReader.restoreFromLog (daemonEmulator vt) disk sessionMeta checkpoint
      checkpointTorn = some restore) :
    ∃ scratch : Emulator σ,
      scratch.modes = scanned checkpoint (log.batches.flatMap LogBatch.records) ∧
      scratch.screen = vt.left sessionMeta checkpoint (log.batches.flatMap LogBatch.records) ∧
      restore = HistoryReader.finish (daemonEmulator vt) scratch
        (replay (ringOf checkpoint) (log.batches.flatMap LogBatch.records)) checkpoint sessionMeta
        (checkpoint.isNone && checkpointTorn) := by
  unfold HistoryReader.restoreFromLog at restored
  rw [onDisk] at restored
  dsimp only at restored
  rw [decodes] at restored
  dsimp only at restored
  split_ifs at restored
  rw [foldl_batches] at restored
  cases checkpoint with
  | none =>
    obtain ⟨modes, screen, ring⟩ := foldl_replay streams (log.batches.flatMap LogBatch.records)
      ((daemonEmulator vt).new (max sessionMeta.rows 1) (max sessionMeta.cols 1)) []
    refine ⟨_, modes, ?_, ?_⟩
    · rw [screen]
      exact congrArg (List.foldl _ · _) (streams.nil _).symm
    · rw [show replay (ringOf none) _ = _ from ring.symm]
      exact (Option.some.inj restored).symm
  | some cp =>
    obtain ⟨baseModes, baseScreen⟩ := process_eq streams
      ((daemonEmulator vt).new (max cp.rows 1) (max cp.cols 1))
      (HistoryReader.checkpointBaseBytes cp)
    obtain ⟨modes, screen, ring⟩ := foldl_replay streams (log.batches.flatMap LogBatch.records)
      ((daemonEmulator vt).process ((daemonEmulator vt).new (max cp.rows 1) (max cp.cols 1))
        (HistoryReader.checkpointBaseBytes cp)) cp.scrollbackAnsi
    refine ⟨_, modes.trans ?_, screen.trans ?_, ?_⟩
    · exact congrArg (State.scanChunks · _) baseModes
    · exact congrArg (List.foldl _ · _) baseScreen
    · rw [show replay (ringOf (some cp)) _ = _ from ring.symm]
      exact (Option.some.inj restored).symm

/-- **A cold restore reports what the stream leaves** precisely when the tail and the directory of
the checkpoint are those that the scan of the base and the log ends with. -/
theorem restoreFromLog_iff {disk : Disk} {sessionMeta : SessionMeta}
    {checkpoint : Option Checkpoint} {checkpointTorn : Bool} {buf : List UInt8} {log : DecodedLog}
    {restore : ColdRestore} (onDisk : disk.log = some buf) (decodes : decodeLog buf = some log)
    (restored : HistoryReader.restoreFromLog (daemonEmulator vt) disk sessionMeta checkpoint
      checkpointTorn = some restore) :
    restore.Reports vt sessionMeta checkpoint (log.batches.flatMap LogBatch.records) ↔
      ∀ cp, checkpoint = some cp → cp.EndsAs (log.batches.flatMap LogBatch.records) := by
  obtain ⟨scratch, modes, screen, rfl⟩ := restoreFromLog_eq streams onDisk decodes restored
  have final : vt.alternateScreen scratch.screen = false →
      (HistoryReader.finish (daemonEmulator vt) scratch (replay (ringOf checkpoint)
        (log.batches.flatMap LogBatch.records)) checkpoint sessionMeta
        (checkpoint.isNone && checkpointTorn)).finalScreenAnsi =
          vt.contentsFormatted scratch.screen := by
    intro notAlt
    simp [HistoryReader.finish, daemonEmulator, notAlt]
  rw [screen] at final
  have alternate := congrArg vt.alternateScreen screen
  have size := congrArg vt.size screen
  cases checkpoint with
  | none =>
    refine iff_of_true ⟨?_, ?_, alternate, size, final, rfl⟩ (by rintro _ ⟨⟩)
    · exact congrArg State.scanTail modes
    · exact congrArg (fun modes : State => modes.cwd.or sessionMeta.cwd) modes
  | some cp =>
    have cwd : (HistoryReader.finish (daemonEmulator vt) scratch (replay (ringOf (some cp))
        (log.batches.flatMap LogBatch.records)) (some cp) sessionMeta false).cwd =
          (cp.cwd.or (scanned (some cp) (log.batches.flatMap LogBatch.records)).cwd).or
            sessionMeta.cwd := by
      rw [← modes]
      rfl
    constructor
    · rintro reports _ ⟨⟩
      refine ⟨reports.pendingEscapeTail, fun reported stale isReported isStale => ?_⟩
      have sameCwd := cwd.symm.trans reports.cwd
      rw [isReported, isStale] at sameCwd
      exact Option.some.inj sameCwd
    · intro endsAs
      obtain ⟨sameTail, sameCwd⟩ := endsAs cp rfl
      refine ⟨sameTail, cwd.trans ?_, alternate, size, final, rfl⟩
      show _ = (scanned (some cp) _).cwd.or (cp.cwd.or sessionMeta.cwd)
      cases isStale : cp.cwd with
      | none => rfl
      | some stale =>
        cases isReported : (scanned (some cp) (log.batches.flatMap LogBatch.records)).cwd with
        | none => rfl
        | some reported =>
          rw [sameCwd reported stale isReported isStale]
          rfl

end

/-- A screen with the bytes it got and its size, which shows the text before the first escape. -/
def textVt : Vt100 (List UInt8 × UInt16 × UInt16) where
  process screen bytes := (screen.1 ++ bytes, screen.2)
  alternateScreen _ := false
  contentsFormatted screen := screen.1.takeWhile (· ≠ 0x1b)
  cursorPosition _ := (0, 1)
  new rows cols := ([], rows, cols)
  setSize screen rows cols := (screen.1, rows, cols)
  size screen := screen.2
  rehydratePreamble _ _ := []

theorem textVt_streams : textVt.Streams :=
  ⟨fun _ => Prod.ext (List.append_nil _) rfl,
    fun _ _ _ => Prod.ext (List.append_assoc _ _ _) rfl⟩

/-- The ring of the checkpoint ends inside an escape sequence. -/
def checkpointInEscape (pendingEscapeTail : List UInt8) : Checkpoint where
  snapshotAnsi := []
  scrollbackAnsi := [0x61, 0x1b]
  rehydrateSequences := []
  pendingEscapeTail := pendingEscapeTail
  cwd := none
  cols := 80
  rows := 24
  isAlternateScreen := false
  kittyKeyboardFlags := 0
  lastTitle := none
  scrollbackSeq := 2
  generation := 1
  checkpointedAtMs := 5

/-- The log of that checkpoint, with one batch of output. -/
def diskAfter (output : List UInt8) : Disk :=
  ⟨some (.new none 80 24 1), .absent,
    some (encodeLog 1 [⟨UInt64.ofNat output.length, [.output output]⟩])⟩

/-- The sequence goes on and another one begins in the log: the tail is the checkpoint's again. -/
theorem restoreFromLog_iff_reopened :
    ∃ restore, HistoryReader.restoreFromLog (daemonEmulator textVt) (diskAfter [0x5b, 0x6d, 0x1b])
        (.new none 80 24 1) (some (checkpointInEscape [0x1b])) false = some restore ∧
      restore.Reports textVt (.new none 80 24 1) (some (checkpointInEscape [0x1b]))
        [.output [0x5b, 0x6d, 0x1b]] := by
  have decodes : decodeLog (encodeLog 1 [⟨3, [.output [0x5b, 0x6d, 0x1b]]⟩]) =
      some ⟨1, [⟨3, [.output [0x5b, 0x6d, 0x1b]]⟩], false⟩ := by
    rw [decodeLog_encodeLog _ _ (by simp [LogBatch.Encodable, HistoryRecord.Encodable])]
    exact if_pos (by decide)
  obtain ⟨restore, restored⟩ : ∃ restore, HistoryReader.restoreFromLog (daemonEmulator textVt)
      (diskAfter [0x5b, 0x6d, 0x1b]) (.new none 80 24 1) (some (checkpointInEscape [0x1b])) false =
        some restore := by
    unfold HistoryReader.restoreFromLog
    dsimp only [diskAfter]
    erw [decodes]
    exact ⟨_, rfl⟩
  refine ⟨restore, restored, (restoreFromLog_iff textVt_streams rfl decodes restored).mpr ?_⟩
  rintro _ ⟨⟩
  refine ⟨by decide, fun _ _ _ isStale => ?_⟩
  cases isStale

/-- The log ends the sequence, and the restore still reports the tail of the checkpoint. -/
theorem not_restoreFromLog_reports : ¬∀ (disk : Disk) (sessionMeta : SessionMeta)
    (checkpoint : Option Checkpoint) (checkpointTorn : Bool) (buf : List UInt8) (log : DecodedLog)
    (restore : ColdRestore), disk.log = some buf → decodeLog buf = some log →
    HistoryReader.restoreFromLog (daemonEmulator textVt) disk sessionMeta checkpoint
      checkpointTorn = some restore →
    restore.Reports textVt sessionMeta checkpoint (log.batches.flatMap LogBatch.records) := by
  intro reports
  have decodes : decodeLog (encodeLog 1 [⟨2, [.output [0x5b, 0x6d]]⟩]) =
      some ⟨1, [⟨2, [.output [0x5b, 0x6d]]⟩], false⟩ := by
    rw [decodeLog_encodeLog _ _ (by simp [LogBatch.Encodable, HistoryRecord.Encodable])]
    exact if_pos (by decide)
  obtain ⟨restore, restored, tail⟩ : ∃ restore, HistoryReader.restoreFromLog
      (daemonEmulator textVt) (diskAfter [0x5b, 0x6d]) (.new none 80 24 1)
      (some (checkpointInEscape [0x1b])) false = some restore ∧
        restore.pendingEscapeTail = [0x1b] := by
    unfold HistoryReader.restoreFromLog
    dsimp only [diskAfter]
    erw [decodes]
    exact ⟨_, rfl, rfl⟩
  have isLeft := (reports _ _ _ _ _ _ restore rfl decodes restored).pendingEscapeTail
  rw [tail] at isLeft
  exact absurd isLeft (by decide)

end AiTools.Daemon.History
