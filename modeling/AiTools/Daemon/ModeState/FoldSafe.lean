import AiTools.Daemon.ModeState.ParkedTail
import AiTools.Lib.Transition

/-!
Contract: scanning a stream in chunks and scanning it whole.

Does not own: streams whose parked tail grows beyond the limit.
-/

namespace AiTools.Daemon.ModeState

open AiTools.Lib.Transition (Reachable)

/-- The walk of `scan`, whose state still lacks the new tail. -/
def State.scanned (self : State) (chunk : Bytes) : Walk :=
  walk { self with scanTail := [] } (self.scanTail ++ chunk) ⟨self.scanTail.length, chunk.length⟩

theorem scanned_eq_run (self : State) (chunk : Bytes) :
    self.scanned chunk = run (ChunkMap.mk self.scanTail.length chunk.length).offset
      { self with scanTail := [] } (self.scanTail ++ chunk) :=
  walk_eq_run _ _ _

theorem scanned_seen (self : State) (chunk : Bytes) :
    (self.scanned chunk).seen = self.scanTail ++ chunk := by
  rw [scanned_eq_run]
  exact foldl_step_seen _ _ _

theorem scanned_sound (self : State) (chunk : Bytes) : (self.scanned chunk).Sound := by
  rw [scanned_eq_run]
  exact run_sound _ _ _

theorem scanned_scanTail (self : State) (chunk : Bytes) :
    (self.scanned chunk).self.scanTail = [] := by
  rw [scanned_eq_run, run_scanTail]

/-- What becomes of the pending bytes. -/
def park (pending : Bytes) : Bytes := if maxPartialEscapeTail < pending.length then [] else pending

theorem park_of_short {pending : Bytes} (short : pending.length ≤ maxPartialEscapeTail) :
    park pending = pending :=
  if_neg (Nat.not_lt.mpr short)

theorem scan_eq (self : State) (chunk : Bytes) :
    self.scan chunk = ({ (self.scanned chunk).self with
      scanTail := park (self.scanned chunk).pending }, (self.scanned chunk).out) := by
  unfold Walk.pending
  rw [scanned_seen]
  rfl

variable {self : State}

theorem withoutTail (noTail : self.scanTail = []) : { self with scanTail := [] } = self := by
  rw [← noTail]

/-- The bytes a walk leaves pending from anywhere, and that `scan` keeps. -/
structure Parked (tail : Bytes) : Prop where
  short : tail.length ≤ maxPartialEscapeTail
  replayed : ∀ offset self, (run offset self tail).self = self ∧ (run offset self tail).out = [] ∧
    (run offset self tail).pending = tail

theorem nil_parked : Parked [] where
  short := Nat.zero_le _
  replayed := fun _ _ => ⟨rfl, rfl, rfl⟩

theorem park_parked {walk : Walk} (sound : walk.Sound) : Parked (park walk.pending) := by
  unfold park
  split_ifs with long
  · exact nil_parked
  · exact ⟨Nat.not_lt.mp long, sound.replayed⟩

theorem Parked.rescan {tail : Bytes} (parked : Parked tail) (noTail : self.scanTail = []) :
    self.scan tail = ({ self with scanTail := tail }, []) := by
  obtain ⟨sameSelf, noSplit, samePending⟩ :=
    parked.replayed (ChunkMap.mk 0 tail.length).offset self
  have scanned : self.scanned tail = run (ChunkMap.mk 0 tail.length).offset self tail := by
    rw [scanned_eq_run, withoutTail noTail, noTail]
    rfl
  rw [scan_eq, scanned, sameSelf, noSplit, samePending, park_of_short parked.short]

theorem scan_nil (parked : Parked self.scanTail) : self.scan [] = (self, []) := by
  obtain ⟨sameSelf, noSplit, samePending⟩ :=
    parked.replayed (ChunkMap.mk self.scanTail.length 0).offset { self with scanTail := [] }
  have scanned : self.scanned [] = run (ChunkMap.mk self.scanTail.length 0).offset
      { self with scanTail := [] } self.scanTail := by
    rw [scanned_eq_run, List.append_nil]
    rfl
  rw [scan_eq, scanned, sameSelf, noSplit, samePending, park_of_short parked.short]

/-- What a session does with its tracker. -/
inductive Call where
  | scan (chunk : Bytes)
  | takeBells

def call (self : State) : Call → Option State
  | .scan chunk => some (self.scan chunk).1
  | .takeBells => some self.takeBells.2

theorem reachable_parked (reachable : Reachable call State.new self) : Parked self.scanTail := by
  apply reachable.invariant
  · exact nil_parked
  · intro state label next parked _ called
    cases label with
    | scan chunk =>
      rw [call, Option.some.injEq] at called
      rw [← called, scan_eq]
      exact park_parked (scanned_sound state chunk)
    | takeBells =>
      rw [call, Option.some.injEq] at called
      rw [← called]
      exact parked

/-- Where a split stands when its sequence completes in a chunk that starts at
`chunkStart`. A snapshot belongs to the start of its sequence, of which a chunk sees only
its own bytes. -/
def placeInChunk (chunkStart place : Nat) : Split → Nat
  | .captureSavedCursor => place
  | .snapshotPrimary => max place chunkStart

/-- A split of the joined scan, and the same split when the stream is cut at `start`. -/
def MovesWith (start : Nat) (whole part : Nat × Split) : Prop :=
  whole.2 = part.2 ∧ start + part.1 = placeInChunk start whole.1 whole.2

/-- The walk of a joined scan at the place of the cut. -/
def State.scannedTo (self : State) (chunk later : Bytes) : Walk :=
  run (ChunkMap.mk self.scanTail.length (chunk.length + later.length)).offset
    { self with scanTail := [] } (self.scanTail ++ chunk)

theorem scanned_append (self : State) (chunk later : Bytes) :
    self.scanned (chunk ++ later) = later.foldl
      (Walk.step (ChunkMap.mk self.scanTail.length (chunk.length + later.length)).offset)
      (self.scannedTo chunk later) := by
  rw [scanned_eq_run, List.length_append, ← List.append_assoc]
  unfold run State.scannedTo
  rw [List.foldl_append]
  rfl

theorem scannedTo_follows (self : State) (chunk later : Bytes) :
    Follows Eq 0 [] (self.scannedTo chunk later) (self.scanned chunk) := by
  have same : ∀ index ≤ (self.scanTail ++ chunk).length,
      (ChunkMap.mk self.scanTail.length (chunk.length + later.length)).offset (index + 0) =
        (ChunkMap.mk self.scanTail.length chunk.length).offset index := by
    intro index inside
    rw [List.length_append] at inside
    unfold ChunkMap.offset
    dsimp only
    omega
  have start : Follows Eq 0 [] (Walk.fresh { self with scanTail := [] })
      (Walk.fresh { self with scanTail := [] }) := {
    self := rfl
    out := ⟨[], rfl, .nil⟩
    seen := ⟨[], rfl, rfl⟩
    state := rfl
    seqStart := fun pending => absurd rfl pending
    bodyStart := by
      rintro (isCsi | isOsc | isOscEsc) <;> contradiction }
  rw [scanned_eq_run]
  apply foldl_follows 0 (self.scanTail ++ chunk).length _ _ _ start
  · exact Nat.zero_le _
  · exact Nat.le_of_eq (Nat.zero_add _)
  · intro index inside
    rw [same index inside]
  · intro index _ inside
    rw [same index inside]

theorem scanned_follows (self : State) (chunk later : Bytes) :
    Follows (MovesWith chunk.length) (self.scannedTo chunk later).pendingStart
      (self.scannedTo chunk later).out (self.scanned (chunk ++ later))
      (({ (self.scanned chunk).self with scanTail := (self.scanned chunk).pending } : State).scanned
        later) := by
  have before := scannedTo_follows self chunk later
  have sound : (self.scannedTo chunk later).Sound := run_sound _ _ _
  have seen : (self.scannedTo chunk later).seen = self.scanTail ++ chunk := foldl_step_seen _ _ _
  have lengths : (self.scannedTo chunk later).pendingStart +
      (self.scanned chunk).pending.length = self.scanTail.length + chunk.length := by
    have inside := sound.pendingStart_le
    rw [← before.pending]
    unfold Walk.pending
    rw [List.length_drop]
    rw [seen, List.length_append] at inside ⊢
    omega
  have resumed : Follows (MovesWith chunk.length) _ _ _ _ := sound.resumed
    (ChunkMap.mk (self.scanned chunk).pending.length later.length).offset
  rw [before.pending, before.self] at resumed
  have second : ({ (self.scanned chunk).self with
      scanTail := (self.scanned chunk).pending } : State).scanned later = later.foldl
        (Walk.step (ChunkMap.mk (self.scanned chunk).pending.length later.length).offset)
        (run (ChunkMap.mk (self.scanned chunk).pending.length later.length).offset
          (self.scanned chunk).self (self.scanned chunk).pending) := by
    have noTail : ({ (self.scanned chunk).self with scanTail := [] } : State) =
        (self.scanned chunk).self := withoutTail (scanned_scanTail self chunk)
    rw [scanned_eq_run]
    unfold run
    dsimp only
    rw [noTail, List.foldl_append]
  have seenTail : (run (ChunkMap.mk (self.scanned chunk).pending.length later.length).offset
      (self.scanned chunk).self (self.scanned chunk).pending).seen =
        (self.scanned chunk).pending := foldl_step_seen _ _ _
  rw [scanned_append, second]
  apply foldl_follows (self.scanned chunk).pending.length
    ((self.scanned chunk).pending.length + later.length) _ _ _ resumed
  · rw [seenTail]
  · rw [seenTail]
  · intro index inside
    refine ⟨rfl, ?_⟩
    unfold placeInChunk ChunkMap.offset
    dsimp only
    omega
  · intro index afterTail inside
    refine ⟨rfl, ?_⟩
    unfold placeInChunk ChunkMap.offset
    dsimp only
    omega

theorem scan_append {chunk : Bytes}
    (short : (self.scanned chunk).pending.length ≤ maxPartialEscapeTail) (later : Bytes) :
    (self.scan (chunk ++ later)).1 = ((self.scan chunk).1.scan later).1 ∧
      ∃ splits, (self.scan (chunk ++ later)).2 = (self.scan chunk).2 ++ splits ∧
        List.Forall₂ (MovesWith chunk.length) splits ((self.scan chunk).1.scan later).2 := by
  have before := scannedTo_follows self chunk later
  have after := scanned_follows self chunk later
  have sameOut : (self.scannedTo chunk later).out = (self.scanned chunk).out := by
    obtain ⟨splits, isOut, same⟩ := before.out
    rw [List.forall₂_eq_eq_eq] at same
    rw [isOut, same]
    rfl
  rw [sameOut] at after
  rw [scan_eq self chunk, park_of_short short, scan_eq self (chunk ++ later), scan_eq _ later]
  refine ⟨?_, after.out⟩
  dsimp only
  rw [after.self, after.pending]

/-- No chunk leaves more bytes pending than `scan` parks. -/
def Fits : State → List Bytes → Prop
  | _, [] => True
  | self, chunk :: later =>
    (self.scanned chunk).pending.length ≤ maxPartialEscapeTail ∧ Fits (self.scan chunk).1 later

def State.scanChunks (self : State) (chunks : List Bytes) : State :=
  chunks.foldl (fun state chunk => (state.scan chunk).1) self

/-- A reported split, with the place in the stream where its chunk starts. -/
structure Report where
  chunkStart : Nat
  offset : Nat
  kind : Split
deriving DecidableEq

/-- The splits of the scans, for a stream that goes on at `start`. -/
def State.reports (self : State) (start : Nat) : List Bytes → List Report
  | [] => []
  | chunk :: later =>
    (self.scan chunk).2.map (fun split => ⟨start, split.1, split.2⟩) ++
      (self.scan chunk).1.reports (start + chunk.length) later

/-- The same split, seen by one scan of the stream that goes on at `start` and by the
scan of the chunk in which its sequence completes. -/
def SameSplit (start : Nat) (whole : Nat × Split) (report : Report) : Prop :=
  whole.2 = report.kind ∧ report.chunkStart + report.offset =
    placeInChunk report.chunkStart (start + whole.1) whole.2

theorem reports_start_le {report : Report} : ∀ {chunks : List Bytes} {self : State} {start : Nat},
      report ∈ self.reports start chunks → start ≤ report.chunkStart := by
  intro chunks
  induction chunks with
  | nil => exact nofun
  | cons chunk later ih =>
    intro self start member
    rw [State.reports, List.mem_append, List.mem_map] at member
    rcases member with ⟨split, _, isReport⟩ | member
    · rw [← isReport]
    · exact Nat.le_trans (Nat.le_add_right _ _) (ih member)

/-- The splits of the first chunk, as the joined scan and as the first scan report them. -/
theorem first_sameSplit (start : Nat) (splits : List (Nat × Split)) :
    List.Forall₂ (SameSplit start) splits
      (splits.map fun split => (⟨start, split.1, split.2⟩ : Report)) := by
  rw [List.forall₂_map_right_iff, List.forall₂_same]
  intro split _
  refine ⟨rfl, ?_⟩
  cases split.2 with
  | captureSavedCursor => rfl
  | snapshotPrimary => exact (Nat.max_eq_left (Nat.le_add_right _ _)).symm

theorem later_sameSplit {start length : Nat} {splits parts : List (Nat × Split)} :
    ∀ {reports : List Report}, List.Forall₂ (MovesWith length) splits parts →
      List.Forall₂ (SameSplit (start + length)) parts reports →
      (∀ report ∈ reports, start + length ≤ report.chunkStart) →
      List.Forall₂ (SameSplit start) splits reports := by
  intro reports moves
  induction moves generalizing reports with
  | nil =>
    intro same _
    rw [List.forall₂_nil_left_iff.mp same]
    exact .nil
  | @cons whole part splits parts moved _ ih =>
    intro same after
    cases same with
    | @cons _ report _ later sameHead sameTail =>
      have afterHead := after report List.mem_cons_self
      refine .cons ⟨moved.1.trans sameHead.1, ?_⟩ (ih sameTail
        fun other member => after other (List.mem_cons_of_mem _ member))
      have place := sameHead.2
      have shift := moved.2
      rw [← moved.1] at place
      cases isKind : whole.2 with
      | captureSavedCursor | snapshotPrimary =>
        simp only [isKind, placeInChunk] at place shift ⊢
        omega

theorem scanChunks_eq_scan {chunks : List Bytes} :
    ∀ {self : State}, Parked self.scanTail → Fits self chunks → ∀ start,
      self.scanChunks chunks = (self.scan chunks.flatten).1 ∧
        List.Forall₂ (SameSplit start) (self.scan chunks.flatten).2 (self.reports start chunks) := by
  induction chunks with
  | nil =>
    intro self parked _ start
    rw [List.flatten_nil, scan_nil parked]
    exact ⟨rfl, .nil⟩
  | cons chunk later ih =>
    intro self parked fits start
    have parkedNext : Parked (self.scan chunk).1.scanTail := by
      rw [scan_eq]
      exact park_parked (scanned_sound self chunk)
    obtain ⟨sameState, sameSplits⟩ :=
      ih parkedNext fits.2 (start + chunk.length)
    obtain ⟨joinedState, splits, joinedSplits, moves⟩ := scan_append fits.1 later.flatten
    rw [List.flatten_cons]
    constructor
    · rw [joinedState, ← sameState]
      rfl
    · rw [joinedSplits, State.reports]
      exact List.rel_append (first_sameSplit start _)
        (later_sameSplit moves sameSplits fun _ => reports_start_le)

/-- **Scanning is fold-safe.** A tracker that scans a stream in chunks whose pending bytes
all fit ends in the state of one scan of the stream and reports the same splits, and its
parked tail, scanned on its own by a tracker without a tail, is parked again. -/
theorem scan_foldSafe {self : State} (reachable : Reachable call State.new self)
    {chunks : List Bytes} (fits : Fits self chunks) (start : Nat) :
    self.scanChunks chunks = (self.scan chunks.flatten).1 ∧
      List.Forall₂ (SameSplit start) (self.scan chunks.flatten).2 (self.reports start chunks) ∧
      ∀ other : State, other.scanTail = [] → other.scan (self.scanChunks chunks).scanTail =
          ({ other with scanTail := (self.scanChunks chunks).scanTail }, []) := by
  obtain ⟨sameState, sameSplits⟩ := scanChunks_eq_scan (reachable_parked reachable) fits start
  refine ⟨sameState, sameSplits, ?_⟩
  intro other noTail
  have parked : Parked (self.scanChunks chunks).scanTail := by
    rw [sameState, scan_eq]
    exact park_parked (scanned_sound self _)
  exact parked.rescan noTail

/-- A bell, then an alt-screen switch cut behind its ESC and inside its parameter, then a
cursor save. -/
def cutStream : List Bytes :=
  [[0x61, 0x07, 0x1b], [0x5b, 0x3f, 0x31], [0x30, 0x34, 0x39, 0x68, 0x1b, 0x37]]

theorem cutStream_fits : Fits State.new cutStream := by
  refine ⟨?_, ?_, ?_, trivial⟩ <;> decide +kernel

theorem scan_foldSafe_cutStream : Reachable call State.new State.new ∧ Fits State.new cutStream ∧
      State.new.scanChunks cutStream = (State.new.scan cutStream.flatten).1 ∧
      List.Forall₂ (SameSplit 0) (State.new.scan cutStream.flatten).2
        (State.new.reports 0 cutStream) ∧
      State.new.reports 0 cutStream = [⟨6, 0, .snapshotPrimary⟩, ⟨6, 6, .captureSavedCursor⟩] :=
  have safe := scan_foldSafe .refl cutStream_fits 0
  ⟨.refl, cutStream_fits, safe.1, safe.2.1, by decide +kernel⟩

end AiTools.Daemon.ModeState
