import AiTools.Lib.Space
import AiTools.Lib.UnifiedDiff

/-!
Contract: the diff of a file as git2 prints it, and as `parse_diff` keeps it.

Any script between the two contents is a change, cut anywhere into hunks.
-/

namespace AiTools.GitDiff

open AiTools.Lib.UnifiedDiff
open AiTools.Lib.Space

structure DiffLine where
  lineType : Origin
  content : Text
  oldLineNumber : Option Nat
  newLineNumber : Option Nat
  index : Nat

structure DiffHunk where
  header : Text
  lines : List DiffLine
  oldStart : Nat
  oldCount : Nat
  newStart : Nat
  newCount : Nat

structure FileDiff where
  path : Text
  oldPath : Option Text
  status : String
  hunks : List DiffHunk
  displayLineCount : Nat

inductive DeltaStatus where
  | added
  | untracked
  | deleted
  | renamed
  | modified
  | other

structure Delta where
  newPath : Option Text
  oldPath : Option Text
  status : DeltaStatus

structure PrintedHunk where
  header : Text
  oldStart : Nat
  oldLines : Nat
  newStart : Nat
  newLines : Nat

/-- One call of the callback. -/
structure PrintedLine where
  delta : Delta
  hunk : Option PrintedHunk
  origin : Char
  content : Text
  oldLineno : Option Nat
  newLineno : Option Nat

def DeltaStatus.name : DeltaStatus → String
  | .added => "added"
  | .untracked => "added"
  | .deleted => "deleted"
  | .renamed => "renamed"
  | .modified => "modified"
  | .other => "modified"

def Delta.path (delta : Delta) : Text := delta.newPath.getD []

def Delta.newFile (delta : Delta) : FileDiff where
  path := delta.path
  oldPath := delta.oldPath
  status := delta.status.name
  hunks := []
  displayLineCount := 0

def PrintedHunk.newHunk (hunk : PrintedHunk) : DiffHunk where
  header := trim hunk.header
  lines := []
  oldStart := hunk.oldStart
  oldCount := hunk.oldLines
  newStart := hunk.newStart
  newCount := hunk.newLines

def FileDiff.pushHunk (file : FileDiff) (hunk : PrintedHunk) : FileDiff :=
  { file with hunks := file.hunks ++ [hunk.newHunk] }

def FileDiff.needHunk (file : FileDiff) (hunk : PrintedHunk) : Bool :=
  match file.hunks.getLast? with
  | none => true
  | some last => last.oldStart ≠ hunk.oldStart || last.newStart ≠ hunk.newStart

def DiffHunk.pushLine (hunk : DiffHunk) (line : DiffLine) : DiffHunk :=
  { hunk with lines := hunk.lines ++ [line] }

/-- A line of the last file, with the counter of changed lines. The lines that mark a
missing line break come with origins of their own, which fall through. -/
def FileDiff.onLine (file : FileDiff) (lineIndex : Nat) (line : PrintedLine) : FileDiff × Nat :=
  if line.origin = 'H' then
    match line.hunk with
    | some hunk => (file.pushHunk hunk, lineIndex)
    | none => (file, lineIndex)
  else
    match readOrigin line.origin with
    | none => (file, lineIndex)
    | some lineType =>
      let file := match line.hunk with
        | some hunk => if file.needHunk hunk then file.pushHunk hunk else file
        | none => file
      match file.hunks.getLast? with
      | none => (file, lineIndex)
      | some current =>
        let line := ⟨lineType, line.content, line.oldLineno, line.newLineno, lineIndex⟩
        ({ file with hunks := file.hunks.dropLast ++ [current.pushLine line] }, lineIndex + 1)

structure Parse where
  files : List FileDiff
  lineIndex : Nat

def Parse.onLine (parse : Parse) (line : PrintedLine) : Parse :=
  let parse := match parse.files.getLast? with
    | some last =>
      if last.path = line.delta.path then parse
      else ⟨parse.files ++ [line.delta.newFile], 0⟩
    | none => ⟨parse.files ++ [line.delta.newFile], 0⟩
  match parse.files.getLast? with
  | none => parse
  | some last =>
    let (file, lineIndex) := last.onLine parse.lineIndex line
    ⟨parse.files.dropLast ++ [file], lineIndex⟩

def parseDiff (printed : List PrintedLine) : List FileDiff :=
  (printed.foldl Parse.onLine ⟨[], 0⟩).files

/-- The unchanged lines before a hunk, the hunk, and what its header says behind the
ranges. -/
structure Region where
  gap : List Text
  edits : List Edit
  heading : Text
  oneLine : '\n' ∉ heading

theorem noHeading : '\n' ∉ ([] : Text) := List.not_mem_nil

def Region.oldLines (region : Region) : List Text := region.gap ++ oldSide region.edits

def Region.newLines (region : Region) : List Text := region.gap ++ newSide region.edits

structure FileChange where
  delta : Delta
  regions : List Region
  rest : List Text

/-- The change leads from the one content to the other. -/
def FileChange.Between (change : FileChange) (old new : Text) : Prop :=
  splitLines old = change.regions.flatMap Region.oldLines ++ change.rest ∧
    splitLines new = change.regions.flatMap Region.newLines ++ change.rest

instance (change : FileChange) (old new : Text) : Decidable (change.Between old new) :=
  inferInstanceAs (Decidable (_ ∧ _))

/-- The range of lines after the ones before it. -/
def rangeAfter (before count : Nat) : Range := ⟨if count = 0 then before else before + 1, count⟩

/-- The hunk of a region whose gap ends after `old` and `new` lines. -/
def Region.printedHunk (region : Region) (old new : Nat) : PrintedHunk :=
  let oldRange := rangeAfter old (oldSide region.edits).length
  let newRange := rangeAfter new (newSide region.edits).length
  { header := headerLine oldRange.short newRange.short (region.heading ++ ['\n'])
    oldStart := oldRange.start
    oldLines := oldRange.count
    newStart := newRange.start
    newLines := newRange.count }

def oldLineno (old : Nat) (edit : Edit) : Option Nat :=
  if edit.origin = .add then none else some (old + 1)

def newLineno (new : Nat) (edit : Edit) : Option Nat :=
  if edit.origin = .remove then none else some (new + 1)

/-- The lines of the old content that the edit takes. -/
def oldStep (edit : Edit) : Nat := if edit.origin = .add then 0 else 1

def newStep (edit : Edit) : Nat := if edit.origin = .remove then 0 else 1

def noNewlineOrigin : Origin → Char
  | .context => '='
  | .remove => '>'
  | .add => '<'

def noNewlineMarker : Text := "\n\\ No newline at end of file\n".toList

def printEdits (delta : Delta) (hunk : PrintedHunk) : Nat → Nat → List Edit → List PrintedLine
  | _, _, [] => []
  | old, new, edit :: later =>
    ⟨delta, some hunk, edit.origin.mark, edit.content, oldLineno old edit, newLineno new edit⟩ ::
    ((if Ended edit.content then []
      else [⟨delta, some hunk, noNewlineOrigin edit.origin, noNewlineMarker, none, none⟩]) ++
      printEdits delta hunk (old + oldStep edit) (new + newStep edit) later)

def printRegions (delta : Delta) : Nat → Nat → List Region → List PrintedLine
  | _, _, [] => []
  | old, new, region :: later =>
    let hunk := region.printedHunk (old + region.gap.length) (new + region.gap.length)
    ⟨delta, some hunk, 'H', hunk.header, none, none⟩ ::
      (printEdits delta hunk (old + region.gap.length) (new + region.gap.length) region.edits ++
        printRegions delta (old + region.oldLines.length) (new + region.newLines.length) later)

/-- What git2 prints for the change: the lines of each hunk below the header of the
file. -/
def FileChange.print (change : FileChange) : List PrintedLine :=
  ⟨change.delta, none, 'F', [], none, none⟩ :: printRegions change.delta 0 0 change.regions

/-! ## What `parse_diff` keeps of it -/

/-- The lines of a hunk, counted on from `index`. -/
def numbered : Nat → Nat → Nat → List Edit → List DiffLine
  | _, _, _, [] => []
  | old, new, index, edit :: later =>
    ⟨edit.origin, edit.content, oldLineno old edit, newLineno new edit, index⟩ ::
      numbered (old + oldStep edit) (new + newStep edit) (index + 1) later

def Region.hunk (region : Region) (old new index : Nat) : DiffHunk :=
  { (region.printedHunk old new).newHunk with lines := numbered old new index region.edits }

def hunks : Nat → Nat → Nat → List Region → List DiffHunk
  | _, _, _, [] => []
  | old, new, index, region :: later =>
    region.hunk (old + region.gap.length) (new + region.gap.length) index ::
      hunks (old + region.oldLines.length) (new + region.newLines.length)
        (index + region.edits.length) later

def FileChange.fileDiff (change : FileChange) : FileDiff :=
  { change.delta.newFile with hunks := hunks 0 0 0 change.regions }

def FileDiff.onLines (state : FileDiff × Nat) (printed : List PrintedLine) : FileDiff × Nat :=
  printed.foldl (fun state line => state.1.onLine state.2 line) state

variable {file : FileDiff} {done : List DiffHunk} {current : DiffHunk} {delta : Delta} {index : Nat}
  {change : FileChange}

theorem needHunk_last {hunk : PrintedHunk} (isLast : file.hunks = done ++ [current])
    (oldStart : current.oldStart = hunk.oldStart) (newStart : current.newStart = hunk.newStart) :
    file.needHunk hunk = false := by
  unfold FileDiff.needHunk
  rw [isLast, List.getLast?_concat]
  simp [oldStart, newStart]

theorem onLine_edit {hunk : PrintedHunk} (isLast : file.hunks = done ++ [current])
    (oldStart : current.oldStart = hunk.oldStart) (newStart : current.newStart = hunk.newStart)
    (delta : Delta) (edit : Edit) (oldNo newNo : Option Nat) (index : Nat) :
    file.onLine index ⟨delta, some hunk, edit.origin.mark, edit.content, oldNo, newNo⟩ =
      ({ file with hunks := done ++
        [current.pushLine ⟨edit.origin, edit.content, oldNo, newNo, index⟩] }, index + 1) := by
  have notHeader : edit.origin.mark ≠ 'H' := by cases edit.origin <;> decide
  have origin : readOrigin edit.origin.mark = some edit.origin := by cases edit.origin <;> rfl
  unfold FileDiff.onLine
  rw [if_neg notHeader]
  dsimp only
  rw [origin]
  dsimp only
  rw [needHunk_last isLast oldStart newStart]
  simp [isLast]

theorem onLine_marker (file : FileDiff) (index : Nat) (delta : Delta) (hunk : PrintedHunk)
    (origin : Origin) : file.onLine index ⟨delta, some hunk, noNewlineOrigin origin,
      noNewlineMarker, none, none⟩ = (file, index) := by
  cases origin <;> rfl

/-- The lines of a hunk, numbered on; the marks of missing line breaks are lost. -/
theorem onLines_printEdits {hunk : PrintedHunk} (edits : List Edit) :
    ∀ (file : FileDiff) (current : DiffHunk) (old new index : Nat),
      file.hunks = done ++ [current] → current.oldStart = hunk.oldStart →
        current.newStart = hunk.newStart →
        FileDiff.onLines (file, index) (printEdits delta hunk old new edits) =
          ({ file with hunks := done ++
            [{ current with lines := current.lines ++ numbered old new index edits }] },
            index + edits.length) := by
  induction edits with
  | nil =>
    intro file current old new index isLast _ _
    unfold FileDiff.onLines printEdits numbered
    simp [← isLast]
  | cons edit later ih =>
    intro file current old new index isLast oldStart newStart
    have pushed := onLine_edit isLast oldStart newStart delta edit (oldLineno old edit)
      (newLineno new edit) index
    have rest := ih
      { file with hunks := done ++ [current.pushLine
        ⟨edit.origin, edit.content, oldLineno old edit, newLineno new edit, index⟩] }
      (current.pushLine
        ⟨edit.origin, edit.content, oldLineno old edit, newLineno new edit, index⟩)
      (old + oldStep edit) (new + newStep edit) (index + 1) rfl oldStart newStart
    unfold FileDiff.onLines at rest ⊢
    rw [printEdits, List.foldl_cons, pushed, List.foldl_append]
    split
    · rw [List.foldl_nil, rest]
      simp [DiffHunk.pushLine, numbered, List.append_assoc, Nat.add_assoc, Nat.add_comm 1]
    · rw [List.foldl_cons, onLine_marker, List.foldl_nil, rest]
      simp [DiffHunk.pushLine, numbered, List.append_assoc, Nat.add_assoc, Nat.add_comm 1]

theorem onLines_printRegions (regions : List Region) :
    ∀ (file : FileDiff) (old new index : Nat), ∃ finalIndex,
      FileDiff.onLines (file, index) (printRegions delta old new regions) =
        ({ file with hunks := file.hunks ++ hunks old new index regions }, finalIndex) := by
  induction regions with
  | nil =>
    intro file old new index
    exact ⟨index, by simp [FileDiff.onLines, printRegions, hunks]⟩
  | cons region later ih =>
    intro file old new index
    let printed := region.printedHunk (old + region.gap.length) (new + region.gap.length)
    have own : FileDiff.onLines (file.pushHunk printed, index) (printEdits delta printed
        (old + region.gap.length) (new + region.gap.length) region.edits) = _ :=
      onLines_printEdits region.edits (file.pushHunk printed) printed.newHunk _ _ index rfl rfl
        rfl
    obtain ⟨finalIndex, rest⟩ := ih
      { file with hunks := file.hunks ++
        [region.hunk (old + region.gap.length) (new + region.gap.length) index] }
      (old + region.oldLines.length) (new + region.newLines.length)
      (index + region.edits.length)
    refine ⟨finalIndex, ?_⟩
    unfold FileDiff.onLines at own rest ⊢
    rw [printRegions, List.foldl_cons, List.foldl_append]
    have header : file.onLine index ⟨delta, some printed, 'H', printed.header, none, none⟩ =
        (file.pushHunk printed, index) := rfl
    rw [header, own]
    exact rest.trans (by simp [hunks, List.append_assoc])

theorem onLine_path (file : FileDiff) (index : Nat) (line : PrintedLine) :
    (file.onLine index line).1.path = file.path := by
  unfold FileDiff.onLine FileDiff.pushHunk
  grind

theorem printEdits_delta {hunk : PrintedHunk} (edits : List Edit) :
    ∀ (old new : Nat), ∀ line ∈ printEdits delta hunk old new edits, line.delta = delta := by
  induction edits with
  | nil =>
    intro old new line member
    cases member
  | cons edit later ih =>
    intro old new line member
    rw [printEdits, List.mem_cons, List.mem_append] at member
    rcases member with rfl | marker | inLater
    · rfl
    · split at marker
      · cases marker
      · rw [List.mem_singleton.mp marker]
    · exact ih _ _ line inLater

theorem printRegions_delta (regions : List Region) :
    ∀ (old new : Nat), ∀ line ∈ printRegions delta old new regions, line.delta = delta := by
  induction regions with
  | nil =>
    intro old new line member
    cases member
  | cons region later ih =>
    intro old new line member
    rw [printRegions, List.mem_cons, List.mem_append] at member
    rcases member with rfl | inHunk | inLater
    · rfl
    · exact printEdits_delta region.edits _ _ line inHunk
    · exact ih _ _ line inLater

theorem foldl_onLine :
    ∀ {printed : List PrintedLine}, (∀ line ∈ printed, line.delta.path = file.path) →
      printed.foldl Parse.onLine ⟨[file], index⟩ = ⟨[(FileDiff.onLines (file, index) printed).1],
          (FileDiff.onLines (file, index) printed).2⟩ := by
  intro printed
  induction printed generalizing file index with
  | nil => exact fun _ => rfl
  | cons line later ih =>
    intro samePath
    have first : Parse.onLine ⟨[file], index⟩ line =
        ⟨[(file.onLine index line).1], (file.onLine index line).2⟩ := by
      unfold Parse.onLine
      simp [samePath line List.mem_cons_self]
    have path : (file.onLine index line).1.path = file.path := onLine_path file index line
    rw [List.foldl_cons, first, ih]
    · rfl
    · intro other member
      rw [path]
      exact samePath other (List.mem_cons_of_mem _ member)

/-- `parse_diff` keeps the hunks of the change, with their lines numbered through. -/
theorem parseDiff_print (change : FileChange) : parseDiff change.print = [change.fileDiff] := by
  obtain ⟨finalIndex, parsed⟩ :=
    onLines_printRegions change.regions change.delta.newFile 0 0 0
  have samePath : ∀ line ∈ printRegions change.delta 0 0 change.regions,
      line.delta.path = change.delta.newFile.path := by
    intro line member
    rw [printRegions_delta _ _ _ line member]
    rfl
  have first : Parse.onLine ⟨[], 0⟩ ⟨change.delta, none, 'F', [], none, none⟩ =
      ⟨[change.delta.newFile], 0⟩ := rfl
  unfold parseDiff FileChange.print
  rw [List.foldl_cons, first, foldl_onLine samePath, parsed]
  rfl

theorem numbered_indices (edits : List Edit) :
    ∀ old new index, (numbered old new index edits).map DiffLine.index =
      List.range' index edits.length := by
  induction edits with
  | nil => exact fun _ _ _ => rfl
  | cons edit later ih =>
    intro old new index
    rw [numbered, List.map_cons, ih, List.length_cons, List.range'_succ]

theorem hunks_indices (regions : List Region) :
    ∀ old new index, ∃ count, ((hunks old new index regions).flatMap DiffHunk.lines).map
      DiffLine.index = List.range' index count := by
  induction regions with
  | nil => exact fun _ _ _ => ⟨0, rfl⟩
  | cons region later ih =>
    intro old new index
    obtain ⟨count, rest⟩ := ih (old + region.oldLines.length)
      (new + region.newLines.length) (index + region.edits.length)
    refine ⟨region.edits.length + count, ?_⟩
    rw [hunks, List.flatMap_cons, List.map_append, rest, List.range'_append_1.symm]
    congr 1
    exact numbered_indices region.edits _ _ index

theorem parseDiff_indices (parsed : parseDiff change.print = [file]) :
    ((file.hunks.flatMap DiffHunk.lines).map DiffLine.index).Nodup := by
  rw [parseDiff_print] at parsed
  cases parsed
  obtain ⟨count, indices⟩ := hunks_indices change.regions 0 0 0
  show (((hunks 0 0 0 change.regions).flatMap DiffHunk.lines).map DiffLine.index).Nodup
  rw [indices]
  exact List.nodup_range'

/-- The old lines of a hunk. -/
def oldLines (lines : List DiffLine) : List Text :=
  (lines.filter fun line => line.lineType ≠ .add).map DiffLine.content

def newLines (lines : List DiffLine) : List Text :=
  (lines.filter fun line => line.lineType ≠ .remove).map DiffLine.content

/-- The lines of the old content before the hunk. -/
def FileChange.oldBefore (change : FileChange) (index : Nat) : List Text :=
  (change.regions.take index).flatMap Region.oldLines ++ (change.regions[index]?).elim [] Region.gap

def FileChange.newBefore (change : FileChange) (index : Nat) : List Text :=
  (change.regions.take index).flatMap Region.newLines ++ (change.regions[index]?).elim [] Region.gap

def FileChange.oldAfter (change : FileChange) (index : Nat) : List Text :=
  (change.regions.drop (index + 1)).flatMap Region.oldLines ++ change.rest

def FileChange.newAfter (change : FileChange) (index : Nat) : List Text :=
  (change.regions.drop (index + 1)).flatMap Region.newLines ++ change.rest

/-- The hunk is the one of that index: its lines stand in both contents where its
ranges say, and its header says the same ranges. -/
structure Placed (change : FileChange) (old new : Text) (index : Nat) (hunk : DiffHunk) : Prop
    where
  oldPlace : splitLines old = change.oldBefore index ++ oldLines hunk.lines ++ change.oldAfter index
  newPlace : splitLines new = change.newBefore index ++ newLines hunk.lines ++ change.newAfter index
  oldRange : (⟨hunk.oldStart, (oldLines hunk.lines).length⟩ : Range) =
    rangeAfter (change.oldBefore index).length (oldLines hunk.lines).length
  newRange : (⟨hunk.newStart, (newLines hunk.lines).length⟩ : Range) =
    rangeAfter (change.newBefore index).length (newLines hunk.lines).length
  header : ∃ tail, '\n' ∉ tail ∧ hunk.header =
    headerLine (Range.short ⟨hunk.oldStart, (oldLines hunk.lines).length⟩)
      (Range.short ⟨hunk.newStart, (newLines hunk.lines).length⟩) tail

theorem oldLines_numbered (edits : List Edit) :
    ∀ old new index, oldLines (numbered old new index edits) = oldSide edits := by
  induction edits with
  | nil => exact fun _ _ _ => rfl
  | cons edit later ih =>
    intro old new index
    have rest := ih (old + oldStep edit) (new + newStep edit) (index + 1)
    unfold oldLines oldSide at rest ⊢
    by_cases isAdd : edit.origin = .add <;> simpa [numbered, isAdd] using rest

theorem newLines_numbered (edits : List Edit) :
    ∀ old new index, newLines (numbered old new index edits) = newSide edits := by
  induction edits with
  | nil => exact fun _ _ _ => rfl
  | cons edit later ih =>
    intro old new index
    have rest := ih (old + oldStep edit) (new + newStep edit) (index + 1)
    unfold newLines newSide at rest ⊢
    by_cases isRemove : edit.origin = .remove <;> simpa [numbered, isRemove] using rest

theorem trim_headerLine (old new tail : Text) :
    trim (headerLine old new tail) = headerLine old new (trimEnd tail) := by
  have regroup : ∀ tail, headerLine old new tail =
      '@' :: '@' :: ' ' :: '-' :: (old ++ ' ' :: '+' :: (new ++ [' ', '@'])) ++ '@' :: tail := by
    intro tail
    simp [headerLine]
  have notSpace : isSpace '@' = false := by decide
  rw [regroup, regroup, ← trimEnd_append _ notSpace]
  exact trim_of_head notSpace _

theorem region_header (region : Region) (old new index : Nat) :
    ∃ tail, '\n' ∉ tail ∧ (region.hunk old new index).header =
      headerLine (rangeAfter old (oldSide region.edits).length).short
        (rangeAfter new (newSide region.edits).length).short tail := by
  refine ⟨trimEnd region.heading, fun member => region.oneLine (mem_of_mem_trimEnd member), ?_⟩
  have isBreak : isSpace '\n' = true := by decide
  rw [← trimEnd_concat region.heading isBreak]
  exact trim_headerLine _ _ _

theorem hunks_getElem? {regions : List Region} : ∀ {old new index i : Nat} {hunk : DiffHunk},
      (hunks old new index regions)[i]? = some hunk →
      ∃ region, regions[i]? = some region ∧ ∃ first, hunk =
        region.hunk (old + ((regions.take i).flatMap Region.oldLines ++ region.gap).length)
          (new + ((regions.take i).flatMap Region.newLines ++ region.gap).length) first := by
  induction regions with
  | nil =>
    exact nofun
  | cons region later ih =>
    intro old new index i hunk found
    cases i with
    | zero =>
      rw [hunks, List.getElem?_cons_zero] at found
      cases found
      exact ⟨region, rfl, index, rfl⟩
    | succ i =>
      rw [hunks, List.getElem?_cons_succ] at found
      obtain ⟨other, isOther, first, isHunk⟩ := ih found
      refine ⟨other, by rw [List.getElem?_cons_succ, isOther], first, ?_⟩
      rw [isHunk, List.take_succ_cons, List.flatMap_cons, List.flatMap_cons]
      simp only [List.length_append, Nat.add_assoc]

theorem placed_of_parsed {old new : Text} (between : change.Between old new)
    (parsed : parseDiff change.print = [file]) {hunk : DiffHunk}
    (found : file.hunks[index]? = some hunk) : Placed change old new index hunk := by
  rw [parseDiff_print] at parsed
  cases parsed
  obtain ⟨region, isRegion, first, isHunk⟩ := hunks_getElem? found
  have isOld : oldLines hunk.lines = oldSide region.edits := by
    rw [isHunk]
    exact oldLines_numbered _ _ _ _
  have isNew : newLines hunk.lines = newSide region.edits := by
    rw [isHunk]
    exact newLines_numbered _ _ _ _
  have cut : change.regions =
      change.regions.take index ++ region :: change.regions.drop (index + 1) := by
    obtain ⟨inside, isGet⟩ := List.getElem?_eq_some_iff.mp isRegion
    rw [← isGet, ← List.drop_eq_getElem_cons inside, List.take_append_drop]
  rw [Nat.zero_add, Nat.zero_add] at isHunk
  constructor
  case oldPlace =>
    rw [between.1, isOld]
    unfold FileChange.oldBefore FileChange.oldAfter
    rw [isRegion]
    conv_lhs => rw [cut]
    simp [Region.oldLines]
  case newPlace =>
    rw [between.2, isNew]
    unfold FileChange.newBefore FileChange.newAfter
    rw [isRegion]
    conv_lhs => rw [cut]
    simp [Region.newLines]
  case oldRange =>
    rw [isOld]
    unfold FileChange.oldBefore
    rw [isRegion, isHunk]
    rfl
  case newRange =>
    rw [isNew]
    unfold FileChange.newBefore
    rw [isRegion, isHunk]
    rfl
  case header =>
    rw [isOld, isNew, isHunk]
    exact region_header region _ _ first

end AiTools.GitDiff
