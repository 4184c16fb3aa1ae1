import AiTools.GitDiff.Parse

/-!
Contract: the patches that the stage, unstage and discard commands hand to
`git apply`.
-/

namespace AiTools.GitDiff

open AiTools.Lib.UnifiedDiff
open AiTools.Lib.Space

def formatPatchLine (mark : Char) (content : Text) : Text :=
  if Ended (mark :: content) then mark :: content else mark :: content ++ ['\n']

/-- The two lines that name the file. -/
def patchHeader (oldPath filePath : Text) : Text :=
  "--- a/".toList ++ oldPath ++ "\n+++ b/".toList ++ filePath ++ ['\n']

def buildHunkPatch (filePath : Text) (oldPath : Option Text) (hunk : DiffHunk) : Text :=
  patchHeader (oldPath.getD filePath) filePath ++
    ((if Ended hunk.header then hunk.header else hunk.header ++ ['\n']) ++
      (hunk.lines.map fun line =>
        line.lineType.mark ::
          (if Ended line.content then line.content else line.content ++ ['\n'])).flatten)

structure PatchBody where
  patchLines : List Text
  oldCount : Nat
  newCount : Nat
  hasChanges : Bool

def PatchBody.onLine (selected : List Nat) (patch : PatchBody) (line : DiffLine) : PatchBody :=
  match line.lineType with
  | .add =>
    if line.index ∈ selected then
      { patch with
        patchLines := patch.patchLines ++ [formatPatchLine '+' line.content]
        newCount := patch.newCount + 1
        hasChanges := true }
    else patch
  | .remove =>
    if line.index ∈ selected then
      { patch with
        patchLines := patch.patchLines ++ [formatPatchLine '-' line.content]
        oldCount := patch.oldCount + 1
        hasChanges := true }
    else
      -- The line stays, so it is context.
      { patch with
        patchLines := patch.patchLines ++ [formatPatchLine ' ' line.content]
        oldCount := patch.oldCount + 1
        newCount := patch.newCount + 1 }
  | .context =>
    { patch with
      patchLines := patch.patchLines ++ [formatPatchLine ' ' line.content]
      oldCount := patch.oldCount + 1
      newCount := patch.newCount + 1 }

def buildSelectivePatch (filePath : Text) (oldPath : Option Text) (hunk : DiffHunk)
    (selected : List Nat) : Except String Text :=
  let body := hunk.lines.foldl (PatchBody.onLine selected) ⟨[], 0, 0, false⟩
  if body.hasChanges then
    .ok (patchHeader (oldPath.getD filePath) filePath ++
      (headerLine (Range.full ⟨hunk.oldStart, body.oldCount⟩)
          (Range.full ⟨hunk.newStart, body.newCount⟩) ['\n'] ++
        body.patchLines.flatten))
  else .error "No changes selected"

def getHunk (diff : FileDiff) (hunkIndex : Nat) : Except String DiffHunk :=
  match diff.hunks[hunkIndex]? with
  | some hunk => .ok hunk
  | none => .error ("Hunk index " ++ toString hunkIndex ++ " out of range (file has " ++
      toString diff.hunks.length ++ " hunks)")

/-- `get_unstaged_diff` and `get_staged_diff`, which differ in their `kind`. -/
def getDiff (kind : String) (printed : List PrintedLine) (filePath : Text) :
    Except String FileDiff :=
  match parseDiff printed with
  | diff :: _ => .ok diff
  | [] => .error ("No " ++ kind ++ " diff for " ++ String.ofList filePath)

/-- The hunk of a patch for the file. -/
def readPatch (oldPath filePath patch : Text) : Option Hunk :=
  (expect (patchHeader oldPath filePath) patch).bind readHunk

inductive Direction where
  | forward
  | reverse

/-- The hunk that goes forward when the patch goes this way. -/
def Direction.turn : Direction → Hunk → Hunk
  | .forward, hunk => hunk
  | .reverse, hunk => hunk.reverse

/-- What `git apply` reports, without the words of its own errors. -/
def gitOutcome : Option Text → Except String Text
  | some result => .ok result
  | none => .error "git apply failed: "

@[simp] theorem gitOutcome_ok {applied : Option Text} {result : Text} :
    gitOutcome applied = .ok result ↔ applied = some result := by
  cases applied <;> simp [gitOutcome]

/-- `git apply` to the file's content. -/
def applyPatch (direction : Direction) (oldPath filePath patch content : Text) :
    Except String Text :=
  gitOutcome ((readPatch oldPath filePath patch).bind fun hunk =>
    applyHunk (direction.turn hunk) content)

def hunkCommand (kind : String) (direction : Direction) (printed : List PrintedLine)
    (filePath : Text) (hunkIndex : Nat) (content : Text) : Except String Text := do
  let diff ← getDiff kind printed filePath
  let hunk ← getHunk diff hunkIndex
  let patch := buildHunkPatch filePath diff.oldPath hunk
  applyPatch direction (diff.oldPath.getD filePath) filePath patch content

/-- From the content of the index to the content it gets; `discardLines` changes the file of
the working directory. -/
def stageHunk := hunkCommand "unstaged" .forward

def linesCommand (kind : String) (direction : Direction) (printed : List PrintedLine)
    (filePath : Text) (hunkIndex : Nat) (lineIndices : List Nat) (content : Text) :
    Except String Text := do
  let diff ← getDiff kind printed filePath
  let hunk ← getHunk diff hunkIndex
  let patch ← buildSelectivePatch filePath diff.oldPath hunk lineIndices
  applyPatch direction (diff.oldPath.getD filePath) filePath patch content

def stageLines := linesCommand "unstaged" .forward

def unstageLines := linesCommand "staged" .reverse

/-- The line with the line break that a patch line always gets. -/
def endLine (line : Text) : Text := if Ended line then line else line ++ ['\n']

theorem endLine_ended (line : Text) : Ended (endLine line) := by
  unfold endLine
  split
  · assumption
  · exact ⟨line, rfl⟩

theorem endLine_of_ended {line : Text} (ended : Ended line) : endLine line = line := if_pos ended

theorem length_endLine (line : Text) :
    (endLine line).length = line.length + if Ended line then 0 else 1 := by
  unfold endLine
  split <;> simp

theorem flatten_endLine_length (lines : List Text) :
    lines.flatten.length ≤ (lines.map endLine).flatten.length := by
  induction lines with
  | nil => exact Nat.le_refl 0
  | cons line later ih =>
    simp only [List.map_cons, List.flatten_cons, List.length_append, length_endLine]
    omega

theorem flatten_endLine {lines : List Text} :
    (lines.map endLine).flatten = lines.flatten ↔ ∀ line ∈ lines, Ended line := by
  constructor
  · intro same
    have lengths : (lines.map endLine).flatten.length = lines.flatten.length := by rw [same]
    clear same
    induction lines with
    | nil => exact nofun
    | cons line later ih =>
      have longer := flatten_endLine_length later
      simp only [List.map_cons, List.flatten_cons, List.length_append, length_endLine] at lengths
      split at lengths
      · rename_i ended
        intro other member
        rcases List.mem_cons.mp member with rfl | inLater
        · exact ended
        · exact ih (by omega) other inLater
      · omega
  · intro ended
    have same : lines.map endLine = lines.map id :=
      List.map_congr_left fun line member => endLine_of_ended (ended line member)
    rw [same, List.map_id]

theorem map_endLine_eq {lines : List Text} :
    lines.map endLine = lines ↔ ∀ line ∈ lines, Ended line := by
  constructor
  · intro same
    exact flatten_endLine.mp (by rw [same])
  · intro ended
    have same : lines.map endLine = lines.map id :=
      List.map_congr_left fun line member => endLine_of_ended (ended line member)
    rw [same, List.map_id]

theorem mark_ended {mark : Char} (notBreak : mark ≠ '\n') (content : Text) :
    Ended (mark :: content) ↔ Ended content := by
  unfold Ended
  constructor
  · rintro ⟨body, isBody⟩
    cases body with
    | nil =>
      rw [List.nil_append] at isBody
      cases isBody
      exact absurd rfl notBreak
    | cons c later =>
      rw [List.cons_append] at isBody
      cases isBody
      exact ⟨later, rfl⟩
  · rintro ⟨body, rfl⟩
    exact ⟨mark :: body, rfl⟩

theorem Origin.mark_ne_break (origin : Origin) : origin.mark ≠ '\n' := by
  cases origin <;> decide

theorem formatPatchLine_mark (origin : Origin) (content : Text) :
    formatPatchLine origin.mark content = Edit.line ⟨origin, endLine content⟩ := by
  unfold formatPatchLine endLine Edit.line
  by_cases ended : Ended content
  · rw [if_pos ((mark_ended (Origin.mark_ne_break origin) content).mpr ended), if_pos ended]
  · rw [if_neg (fun marked => ended
      ((mark_ended (Origin.mark_ne_break origin) content).mp marked)), if_neg ended]
    rfl

theorem line_endLine (origin : Origin) {content : Text} (isLine : IsLine content) :
    Ended (Edit.line ⟨origin, endLine content⟩) ∧ IsLine (Edit.line ⟨origin, endLine content⟩) := by
  constructor
  · exact (mark_ended (Origin.mark_ne_break origin) _).mpr (endLine_ended content)
  · obtain ⟨body, isBody⟩ := endLine_ended content
    have noBreak : '\n' ∉ body := by
      by_cases ended : Ended content
      · rw [endLine_of_ended ended] at isBody
        unfold IsLine at isLine
        rwa [isBody, List.dropLast_concat] at isLine
      · unfold endLine at isBody
        rw [if_neg ended] at isBody
        rw [← List.append_inj_left' isBody rfl]
        intro member
        rcases List.eq_nil_or_concat content with empty | ⟨front, last, isContent⟩
        · simp [empty] at member
        · unfold IsLine at isLine
          rw [isContent, List.concat_eq_append, List.dropLast_concat] at isLine
          rw [isContent, List.concat_eq_append, List.mem_append] at member
          rcases member with inFront | isLast
          · exact isLine inFront
          · exact ended ⟨front, by rw [isContent, List.concat_eq_append,
              ← List.mem_singleton.mp isLast]⟩
    unfold IsLine Edit.line
    show '\n' ∉ (origin.mark :: endLine content).dropLast
    rw [isBody, ← List.cons_append, List.dropLast_concat, List.mem_cons]
    rintro (isMark | inBody)
    · exact Origin.mark_ne_break origin isMark.symm
    · exact noBreak inBody

/-! ## What `git apply` reads -/

/-- The edit of the patch that stands for the line. -/
def selectedEdit (selected : List Nat) (line : DiffLine) : Option Edit :=
  match line.lineType with
  | .add => if line.index ∈ selected then some ⟨.add, endLine line.content⟩ else none
  | .remove =>
    if line.index ∈ selected then some ⟨.remove, endLine line.content⟩
    else some ⟨.context, endLine line.content⟩
  | .context => some ⟨.context, endLine line.content⟩

def selectedEdits (selected : List Nat) (lines : List DiffLine) : List Edit :=
  lines.filterMap (selectedEdit selected)

/-- The lines once the selected changes are made and no others. -/
def stagedLines (selected : List Nat) (lines : List DiffLine) : List Text :=
  (lines.filter fun line => match line.lineType with
    | .context => true
    | .add => line.index ∈ selected
    | .remove => line.index ∉ selected).map DiffLine.content

theorem oldSide_selectedEdits (selected : List Nat) (lines : List DiffLine) :
    oldSide (selectedEdits selected lines) = (oldLines lines).map endLine := by
  induction lines with
  | nil => rfl
  | cons line later ih =>
    obtain ⟨lineType, content, oldNo, newNo, index⟩ := line
    unfold selectedEdits oldSide oldLines at ih ⊢
    by_cases isSelected : index ∈ selected <;> cases lineType <;>
      simpa [selectedEdit, isSelected] using ih

theorem newSide_selectedEdits (selected : List Nat) (lines : List DiffLine) :
    newSide (selectedEdits selected lines) = (stagedLines selected lines).map endLine := by
  induction lines with
  | nil => rfl
  | cons line later ih =>
    obtain ⟨lineType, content, oldNo, newNo, index⟩ := line
    unfold selectedEdits newSide stagedLines at ih ⊢
    by_cases isSelected : index ∈ selected <;> cases lineType <;>
      simpa [selectedEdit, isSelected] using ih

theorem foldl_onLine_body (selected : List Nat) (lines : List DiffLine) :
    ∀ body : PatchBody, lines.foldl (PatchBody.onLine selected) body =
      { patchLines := body.patchLines ++ (selectedEdits selected lines).map Edit.line
        oldCount := body.oldCount + (oldSide (selectedEdits selected lines)).length
        newCount := body.newCount + (newSide (selectedEdits selected lines)).length
        hasChanges := body.hasChanges ||
          lines.any fun line => line.lineType ≠ .context && line.index ∈ selected } := by
  induction lines with
  | nil =>
    intro body
    simp [selectedEdits, oldSide, newSide]
  | cons line later ih =>
    intro body
    obtain ⟨lineType, content, oldNo, newNo, index⟩ := line
    have marked := fun origin => formatPatchLine_mark origin content
    have context : formatPatchLine ' ' content = Edit.line ⟨.context, endLine content⟩ :=
      marked .context
    have add : formatPatchLine '+' content = Edit.line ⟨.add, endLine content⟩ := marked .add
    have remove : formatPatchLine '-' content = Edit.line ⟨.remove, endLine content⟩ :=
      marked .remove
    rw [List.foldl_cons, ih]
    by_cases isSelected : index ∈ selected <;> cases lineType <;>
      simp [PatchBody.onLine, selectedEdits, selectedEdit, oldSide, newSide, isSelected, context,
        add, remove, List.append_assoc, Nat.add_assoc, Nat.add_comm 1]

theorem readPatch_header (oldPath filePath body : Text) :
    readPatch oldPath filePath (patchHeader oldPath filePath ++ body) = readHunk body := by
  unfold readPatch
  rw [expect_append]
  rfl

variable {lines : List DiffLine} {selected : List Nat}

theorem selectedEdits_lines (isLine : ∀ line ∈ lines, IsLine line.content) :
    ∀ edit ∈ selectedEdits selected lines, Ended edit.line ∧ IsLine edit.line := by
  intro edit member
  obtain ⟨line, inLines, isEdit⟩ := List.mem_filterMap.mp member
  have own : ∃ origin, edit = ⟨origin, endLine line.content⟩ := by
    unfold selectedEdit at isEdit
    grind
  obtain ⟨origin, rfl⟩ := own
  exact line_endLine origin (isLine line inLines)

theorem selectedEdits_changes
    (chosen : ∃ line ∈ lines, line.lineType ≠ .context ∧ line.index ∈ selected) :
    ∃ edit ∈ selectedEdits selected lines, edit.origin ≠ .context := by
  obtain ⟨line, member, isChange, isSelected⟩ := chosen
  refine ⟨⟨line.lineType, endLine line.content⟩, List.mem_filterMap.mpr ⟨line, member, ?_⟩, isChange⟩
  unfold selectedEdit
  cases origin : line.lineType <;> simp_all

variable {hunk : DiffHunk}

/-- The patch of a selection says what the selection does, except that it ends every
line. -/
theorem readPatch_selective (filePath : Text)
    (oldPath : Option Text) (isLine : ∀ line ∈ hunk.lines, IsLine line.content)
    (chosen : ∃ line ∈ hunk.lines, line.lineType ≠ .context ∧ line.index ∈ selected) :
    ∃ patch, buildSelectivePatch filePath oldPath hunk selected = .ok patch ∧
      readPatch (oldPath.getD filePath) filePath patch =
        some ⟨⟨hunk.oldStart, (oldLines hunk.lines).length⟩,
          ⟨hunk.newStart, (stagedLines selected hunk.lines).length⟩,
          selectedEdits selected hunk.lines⟩ := by
  have changes : (hunk.lines.any fun line =>
      line.lineType ≠ .context && line.index ∈ selected) = true := by
    obtain ⟨line, member, isChange, isSelected⟩ := chosen
    exact List.any_eq_true.mpr ⟨line, member, by simp [isChange, isSelected]⟩
  have oldCount : (oldSide (selectedEdits selected hunk.lines)).length =
      (oldLines hunk.lines).length := by
    rw [oldSide_selectedEdits, List.length_map]
  have newCount : (newSide (selectedEdits selected hunk.lines)).length =
      (stagedLines selected hunk.lines).length := by
    rw [newSide_selectedEdits, List.length_map]
  unfold buildSelectivePatch
  dsimp only
  rw [foldl_onLine_body]
  simp only [changes, Bool.or_true, if_true, oldCount, newCount, Nat.zero_add, List.nil_append]
  refine ⟨_, rfl, ?_⟩
  rw [readPatch_header]
  apply readHunk_lines _ _ (selectedEdits_lines isLine) oldCount newCount
    (selectedEdits_changes chosen)
  · have oneLine := headerLine_oneLine
      (Range.full_oneLine ⟨hunk.oldStart, (oldLines hunk.lines).length⟩)
      (Range.full_oneLine ⟨hunk.newStart, (stagedLines selected hunk.lines).length⟩)
      List.not_mem_nil
    have whole := line_of_oneLine oneLine
    rwa [headerLine_append] at whole
  · exact readHeader_headerLine (readRange_full _) (readRange_full _) _

/-- The edit of the patch of a whole hunk. -/
def wholeEdit (line : DiffLine) : Edit := ⟨line.lineType, endLine line.content⟩

theorem selectedEdits_all (all : ∀ line ∈ lines, line.lineType ≠ .context → line.index ∈ selected) :
    selectedEdits selected lines = lines.map wholeEdit := by
  induction lines with
  | nil => rfl
  | cons line later ih =>
    have rest := ih fun other member =>
      all other (List.mem_cons_of_mem _ member)
    have own : selectedEdit selected line = some (wholeEdit line) := by
      have isSelected := all line List.mem_cons_self
      obtain ⟨lineType, content, oldNo, newNo, index⟩ := line
      cases lineType <;> simp_all [selectedEdit, wholeEdit]
    unfold selectedEdits at rest ⊢
    rw [List.filterMap_cons, own, rest, List.map_cons]

theorem stagedLines_all (all : ∀ line ∈ lines, line.lineType ≠ .context → line.index ∈ selected) :
    stagedLines selected lines = newLines lines := by
  unfold stagedLines newLines
  congr 1
  apply List.filter_congr
  intro line member
  have isSelected := all line member
  cases origin : line.lineType <;> simp_all

theorem readPatch_hunk (filePath : Text)
    (oldPath : Option Text) (isLine : ∀ line ∈ hunk.lines, IsLine line.content)
    (chosen : ∃ line ∈ hunk.lines, line.lineType ≠ .context ∧ line.index ∈ selected)
    (all : ∀ line ∈ hunk.lines, line.lineType ≠ .context → line.index ∈ selected)
    {tail : Text} (oneLine : '\n' ∉ tail)
    (header : hunk.header = headerLine (Range.short ⟨hunk.oldStart, (oldLines hunk.lines).length⟩)
        (Range.short ⟨hunk.newStart, (stagedLines selected hunk.lines).length⟩) tail) :
    readPatch (oldPath.getD filePath) filePath (buildHunkPatch filePath oldPath hunk) =
      some ⟨⟨hunk.oldStart, (oldLines hunk.lines).length⟩,
        ⟨hunk.newStart, (stagedLines selected hunk.lines).length⟩,
        selectedEdits selected hunk.lines⟩ := by
  have noBreak := headerLine_oneLine
    (Range.short_oneLine ⟨hunk.oldStart, (oldLines hunk.lines).length⟩)
    (Range.short_oneLine ⟨hunk.newStart, (stagedLines selected hunk.lines).length⟩) oneLine
  rw [← header] at noBreak
  have notEnded : ¬ Ended hunk.header := by
    rintro ⟨body, isBody⟩
    rw [isBody] at noBreak
    exact noBreak (by simp)
  have body : (hunk.lines.map fun line => line.lineType.mark ::
      (if Ended line.content then line.content else line.content ++ ['\n'])) =
        (selectedEdits selected hunk.lines).map Edit.line := by
    rw [selectedEdits_all all, List.map_map]
    rfl
  unfold buildHunkPatch
  rw [readPatch_header, if_neg notEnded, body]
  apply readHunk_lines (line_of_oneLine noBreak) _ (selectedEdits_lines isLine)
  · rw [oldSide_selectedEdits, List.length_map]
  · rw [newSide_selectedEdits, List.length_map]
  · exact selectedEdits_changes chosen
  · rw [header, headerLine_append]
    exact readHeader_headerLine (readRange_short _) (readRange_short _) _

theorem Placed.isLine {change : FileChange} {old new : Text} {index : Nat}
    (placed : Placed change old new index hunk) : ∀ line ∈ hunk.lines, IsLine line.content := by
  intro line member
  by_cases isAdd : line.lineType = .add
  · have inNew : line.content ∈ newLines hunk.lines := by
      apply List.mem_map_of_mem
      exact List.mem_filter.mpr ⟨member, by simp [isAdd]⟩
    have inContent : line.content ∈ splitLines new := by
      rw [placed.newPlace]
      simp [inNew]
    exact (isLine_of_mem_splitLines inContent).2
  · have inOld : line.content ∈ oldLines hunk.lines := by
      apply List.mem_map_of_mem
      exact List.mem_filter.mpr ⟨member, by simp [isAdd]⟩
    have inContent : line.content ∈ splitLines old := by
      rw [placed.oldPlace]
      simp [inOld]
    exact (isLine_of_mem_splitLines inContent).2

/-- The hunk of the patch of a selection. -/
def selectiveHunk (hunk : DiffHunk) (selected : List Nat) : Hunk where
  old := ⟨hunk.oldStart, (oldLines hunk.lines).length⟩
  new := ⟨hunk.newStart, (stagedLines selected hunk.lines).length⟩
  edits := selectedEdits selected hunk.lines

section
variable {change : FileChange} {old new : Text} {file : FileDiff} {index : Nat} {hunk : DiffHunk}
  {selected : List Nat}

theorem linesCommand_eq (parsed : parseDiff change.print = [file])
    (found : file.hunks[index]? = some hunk) (placed : Placed change old new index hunk)
    (chosen : ∃ line ∈ hunk.lines, line.lineType ≠ .context ∧ line.index ∈ selected)
    (kind : String) (direction : Direction) (filePath content : Text) :
    linesCommand kind direction change.print filePath index selected content =
      gitOutcome (applyHunk (direction.turn (selectiveHunk hunk selected)) content) := by
  obtain ⟨patch, built, read⟩ :=
    readPatch_selective filePath file.oldPath placed.isLine chosen
  have diff : getDiff kind change.print filePath = .ok file := by
    unfold getDiff
    rw [parsed]
  have isHunk : getHunk file index = .ok hunk := by
    unfold getHunk
    rw [found]
  unfold linesCommand
  rw [diff]
  show (getHunk file index >>= _) = _
  rw [isHunk]
  show (buildSelectivePatch filePath file.oldPath hunk selected >>= _) = _
  rw [built]
  show applyPatch direction (file.oldPath.getD filePath) filePath patch content = _
  unfold applyPatch
  rw [read]
  rfl

theorem linesCommand_all (parsed : parseDiff change.print = [file])
    (found : file.hunks[index]? = some hunk) (placed : Placed change old new index hunk)
    (chosen : ∃ line ∈ hunk.lines, line.lineType ≠ .context ∧ line.index ∈ selected)
    (all : ∀ line ∈ hunk.lines, line.lineType ≠ .context → line.index ∈ selected)
    (kind : String) (direction : Direction) (filePath content : Text) :
    linesCommand kind direction change.print filePath index selected content =
      hunkCommand kind direction change.print filePath index content := by
  have staged : stagedLines selected hunk.lines = newLines hunk.lines := stagedLines_all all
  obtain ⟨tail, oneLine, header⟩ := placed.header
  rw [← staged] at header
  have read := readPatch_hunk filePath file.oldPath placed.isLine chosen all oneLine header
  have diff : getDiff kind change.print filePath = .ok file := by
    unfold getDiff
    rw [parsed]
  have isHunk : getHunk file index = .ok hunk := by
    unfold getHunk
    rw [found]
  rw [linesCommand_eq parsed found placed chosen]
  unfold hunkCommand
  rw [diff]
  show _ = (getHunk file index >>= _)
  rw [isHunk]
  show _ = applyPatch direction (file.oldPath.getD filePath) filePath
    (buildHunkPatch filePath file.oldPath hunk) content
  unfold applyPatch
  rw [read]
  rfl

end

/-! ## What an exact command leaves -/

/-- The lines once the selected changes are undone and no others. -/
def unstagedLines (selected : List Nat) (lines : List DiffLine) : List Text :=
  (lines.filter fun line => match line.lineType with
    | .context => true
    | .add => line.index ∉ selected
    | .remove => line.index ∈ selected).map DiffLine.content

/-- The lines of the hunk in the content that the patch changes. -/
def Direction.own : Direction → List DiffLine → List Text
  | .forward => oldLines
  | .reverse => newLines

/-- The lines of the hunk once the selected changes are made, or undone. -/
def Direction.kept : Direction → List Nat → List DiffLine → List Text
  | .forward => stagedLines
  | .reverse => unstagedLines

def Direction.before : Direction → FileChange → Nat → List Text
  | .forward => FileChange.oldBefore
  | .reverse => FileChange.newBefore

def Direction.after : Direction → FileChange → Nat → List Text
  | .forward => FileChange.oldAfter
  | .reverse => FileChange.newAfter

/-- No line of the hunk that the patch keeps stands behind its last selected change. -/
def endsChanged (selected : List Nat) (lines : List DiffLine) : Bool :=
  (lines.filter fun line => line.lineType ≠ .add || line.index ∈ selected).getLast?.all fun line =>
    line.lineType ≠ .context && line.index ∈ selected

/-- What `git apply` looks for in the content. It begins at the start of the other range,
and every line of a patch is ended. -/
def Direction.search : Direction → DiffHunk → List Nat → Search
  | .forward, hunk, selected => ⟨hunk.newStart - 1, (oldLines hunk.lines).map endLine,
      hunk.oldStart ≤ 1, endsChanged selected hunk.lines⟩
  | .reverse, hunk, selected => ⟨hunk.oldStart - 1, (stagedLines selected hunk.lines).map endLine,
      hunk.newStart ≤ 1, endsChanged selected hunk.lines⟩

/-- What it puts there. -/
def Direction.given : Direction → List Nat → List DiffLine → List Text
  | .forward, selected, lines => (stagedLines selected lines).map endLine
  | .reverse, _, lines => (oldLines lines).map endLine

/-- The change from `sought` to `given` at the place is the one from `own` to `kept`: the lines
between the two places can stand on either side of it. -/
def Slides (before own kept after sought given : List Text) (place : Nat) : Prop :=
  (∃ front between back, before = front ++ between ∧ place = front.length ∧
    between ++ own ++ after = sought ++ back ∧
    (between ++ kept ++ after).flatten = (given ++ back).flatten) ∨
  ∃ between back, place = before.length + between.length ∧
    own ++ after = between ++ sought ++ back ∧
    (kept ++ after).flatten = (between ++ given ++ back).flatten

theorem slides_iff {before own kept after sought given : List Text} {place : Nat} :
    Slides before own kept after sought given place ↔
      ∃ front back, front.length = place ∧ before ++ own ++ after = front ++ sought ++ back ∧
        (before ++ kept ++ after).flatten = (front ++ given ++ back).flatten := by
  constructor
  · rintro (⟨front, between, back, rfl, rfl, lines, text⟩ | ⟨between, back, rfl, lines, text⟩)
    · refine ⟨front, back, rfl, ?_, ?_⟩
      · simpa using lines
      · simpa using text
    · refine ⟨before ++ between, back, List.length_append, ?_, ?_⟩
      · simpa using lines
      · simpa using text
  · rintro ⟨front, back, rfl, lines, text⟩
    rw [List.append_assoc, List.append_assoc] at lines
    rcases List.append_eq_append_iff.mp lines with ⟨between, rfl, rest⟩ | ⟨between, rfl, rest⟩
    · refine Or.inr ⟨between, back, List.length_append, by simpa using rest, ?_⟩
      simpa using text
    · refine Or.inl ⟨front, between, back, rfl, rfl, by simpa using rest.symm, ?_⟩
      simpa using text

/-- The change slides from the place that `git apply` takes to the hunk. -/
def Direction.Lands (direction : Direction) (change : FileChange) (index : Nat) (hunk : DiffHunk)
    (selected : List Nat) : Prop :=
  let before := direction.before change index
  let own := direction.own hunk.lines
  let after := direction.after change index
  let search := direction.search hunk selected
  ∃ place, search.Nearest (before ++ own ++ after) place ∧
    Slides before own (direction.kept selected hunk.lines) after search.sought
      (direction.given selected hunk.lines) place

theorem selectedEdits_eq (selected : List Nat) (lines : List DiffLine) :
    selectedEdits selected lines =
      (lines.filter fun line => line.lineType ≠ .add || line.index ∈ selected).map fun line =>
        Edit.mk (if line.index ∈ selected then line.lineType else .context)
          (endLine line.content) := by
  rw [← List.filterMap_eq_map, List.filterMap_filter]
  apply List.filterMap_congr
  rintro ⟨lineType, content, oldNo, newNo, index⟩ _
  by_cases isSelected : index ∈ selected <;> cases lineType <;> simp [selectedEdit, isSelected]

theorem search_turn (direction : Direction) (hunk : DiffHunk) (selected : List Nat) :
    (direction.turn (selectiveHunk hunk selected)).search = direction.search hunk selected := by
  have last : ∀ edits : List Edit, ((edits.map Edit.reverse).getLast?.map Edit.origin ≠
      some .context) ↔ (edits.getLast?.map Edit.origin ≠ some .context) := by
    intro edits
    rw [List.getLast?_map]
    rcases edits.getLast? with _ | ⟨origin, content⟩
    · rfl
    · cases origin <;> simp [Edit.reverse]
  have ends : decide ((selectedEdits selected hunk.lines).getLast?.map Edit.origin ≠
      some .context) = endsChanged selected hunk.lines := by
    unfold endsChanged
    rw [selectedEdits_eq, List.getLast?_map]
    cases (hunk.lines.filter fun line =>
      line.lineType ≠ .add || line.index ∈ selected).getLast? with
    | none => rfl
    | some line => by_cases isSelected : line.index ∈ selected <;> simp [isSelected]
  cases direction with
  | forward =>
    show Search.mk _ (oldSide (selectedEdits selected hunk.lines)) _ _ = Search.mk _ _ _ _
    congr 1
    · exact oldSide_selectedEdits selected hunk.lines
  | reverse =>
    show Search.mk _ (oldSide ((selectedEdits selected hunk.lines).map Edit.reverse)) _
      (decide _) = Search.mk _ _ _ _
    congr 1
    · rw [oldSide_reverse, newSide_selectedEdits]
    · rw [← ends]
      exact decide_eq_decide.mpr (last _)

/-- **A command is exact** precisely when its change slides from the place that git takes to
the hunk. -/
theorem linesCommand_exact {change : FileChange} {old new : Text} {file : FileDiff} {index : Nat}
    {hunk : DiffHunk} {selected : List Nat} (parsed : parseDiff change.print = [file])
    (found : file.hunks[index]? = some hunk) (placed : Placed change old new index hunk)
    (chosen : ∃ line ∈ hunk.lines, line.lineType ≠ .context ∧ line.index ∈ selected)
    (kind : String) (direction : Direction) (filePath : Text) {content : Text}
    (lines : splitLines content = direction.before change index ++ direction.own hunk.lines ++
      direction.after change index) :
    linesCommand kind direction change.print filePath index selected content =
        .ok (direction.before change index ++ direction.kept selected hunk.lines ++
          direction.after change index).flatten ↔
      direction.Lands change index hunk selected := by
  have sought : oldSide (direction.turn (selectiveHunk hunk selected)).edits =
      (direction.search hunk selected).sought := by
    rw [← search_turn]
    rfl
  have given : newSide (direction.turn (selectiveHunk hunk selected)).edits =
      direction.given selected hunk.lines := by
    cases direction with
    | forward => exact newSide_selectedEdits selected hunk.lines
    | reverse =>
      show newSide ((selectedEdits selected hunk.lines).map Edit.reverse) = _
      rw [newSide_reverse]
      exact oldSide_selectedEdits selected hunk.lines
  rw [linesCommand_eq parsed found placed chosen, gitOutcome_ok, applyHunk_eq_some, sought, given,
    search_turn, lines]
  unfold Direction.Lands
  constructor
  · rintro ⟨front, back, nearest, sameLines, sameText⟩
    exact ⟨front.length, nearest, slides_iff.mpr ⟨front, back, rfl, sameLines, sameText⟩⟩
  · rintro ⟨place, nearest, slides⟩
    obtain ⟨front, back, rfl, sameLines, sameText⟩ := slides_iff.mp slides
    exact ⟨front, back, nearest, sameLines, sameText⟩

end AiTools.GitDiff
