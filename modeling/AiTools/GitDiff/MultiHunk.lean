import AiTools.GitDiff.LineRequests
import AiTools.GitDiff.StageLines
import AiTools.GitDiff.UnstageLines
import AiTools.Lib.Transition

/-!
Contract: a selection over several hunks, whose requests are executed in any order.
-/

namespace AiTools.GitDiff

open AiTools.Lib.UnifiedDiff
open AiTools.Lib.Transition
open List (filter_congr filter_map map_map mem_flatMap mem_map mem_map_of_mem)

/-- The lines of a diff for which a selection and a hunk do not count. -/
def DiffLine.plain (line : DiffLine) : DiffLine :=
  { line with oldLineNumber := none, newLineNumber := none }

theorem Direction.kept_congr (direction : Direction) {selected other : List Nat}
    {lines : List DiffLine} (same : ∀ line ∈ lines, line.index ∈ selected ↔ line.index ∈ other) :
    direction.kept selected lines = direction.kept other lines := by
  cases direction with
  | forward =>
    show stagedLines _ _ = stagedLines _ _
    unfold stagedLines
    congr 1
    apply filter_congr
    intro line member
    cases line.lineType <;> simp [same line member]
  | reverse =>
    show unstagedLines _ _ = unstagedLines _ _
    unfold unstagedLines
    congr 1
    apply filter_congr
    intro line member
    cases line.lineType <;> simp [same line member]

theorem Direction.kept_none (direction : Direction) {selected : List Nat} {lines : List DiffLine}
    (none : ∀ line ∈ lines, line.index ∉ selected) :
    direction.kept selected lines = direction.own lines := by
  cases direction with
  | forward =>
    show stagedLines _ _ = oldLines _
    unfold stagedLines oldLines
    congr 1
    apply filter_congr
    intro line member
    cases line.lineType <;> simp [none line member]
  | reverse =>
    show unstagedLines _ _ = newLines _
    unfold unstagedLines newLines
    congr 1
    apply filter_congr
    intro line member
    cases line.lineType <;> simp [none line member]

theorem Direction.kept_plain (direction : Direction) (selected : List Nat)
    (lines : List DiffLine) :
    direction.kept selected (lines.map DiffLine.plain) = direction.kept selected lines := by
  cases direction with
  | forward =>
    show stagedLines _ _ = stagedLines _ _
    unfold stagedLines
    rw [filter_map, map_map]
    rfl
  | reverse =>
    show unstagedLines _ _ = unstagedLines _ _
    unfold unstagedLines
    rw [filter_map, map_map]
    rfl

theorem Direction.own_plain (direction : Direction) (lines : List DiffLine) :
    direction.own (lines.map DiffLine.plain) = direction.own lines := by
  have none : ∀ lines : List DiffLine, direction.kept [] lines = direction.own lines :=
    fun lines => direction.kept_none fun line _ => List.not_mem_nil
  rw [← none, ← none, direction.kept_plain]

/-! ## The lines of the file -/

/-- The regions with the selected changes of their hunks made. -/
def Direction.lines (direction : Direction) (selected : List Nat) (regions : List Region)
    (hunks : List DiffHunk) : List Text :=
  (regions.zip hunks).flatMap fun shown => shown.1.gap ++ direction.kept selected shown.2.lines

/-- The file with the selected changes of the shown diff made, and no others. -/
def FileChange.chosen (change : FileChange) (direction : Direction) (selected : List Nat) :
    List Text :=
  direction.lines selected change.regions change.fileDiff.hunks ++ change.rest

def FileChange.chosenBefore (change : FileChange) (direction : Direction) (selected : List Nat)
    (position : Nat) : List Text :=
  direction.lines selected (change.regions.take position)
      (change.fileDiff.hunks.take position) ++
    (change.regions[position]?).elim [] Region.gap

def FileChange.chosenAfter (change : FileChange) (direction : Direction) (selected : List Nat)
    (position : Nat) : List Text :=
  direction.lines selected (change.regions.drop (position + 1))
    (change.fileDiff.hunks.drop (position + 1)) ++ change.rest

theorem length_hunks (regions : List Region) :
    ∀ old new index, (hunks old new index regions).length = regions.length := by
  induction regions with
  | nil => exact fun _ _ _ => rfl
  | cons region later ih =>
    intro old new index
    rw [hunks, List.length_cons, List.length_cons, ih]

variable {direction : Direction}

theorem Direction.lines_congr {selected other : List Nat}
    {hunks : List DiffHunk} (same : ∀ hunk ∈ hunks, ∀ line ∈ hunk.lines,
      line.index ∈ selected ↔ line.index ∈ other) (regions : List Region) :
    direction.lines selected regions hunks = direction.lines other regions hunks := by
  unfold Direction.lines
  apply List.flatMap_congr
  intro shown isShown
  rw [direction.kept_congr (same shown.2 (List.of_mem_zip isShown).2)]

variable {change : FileChange}

theorem chosen_eq {position : Nat} {hunk : DiffHunk}
    (found : change.fileDiff.hunks[position]? = some hunk) (direction : Direction)
    (selected : List Nat) :
    change.chosen direction selected = change.chosenBefore direction selected position ++
      direction.kept selected hunk.lines ++ change.chosenAfter direction selected position := by
  obtain ⟨region, isRegion, _⟩ := hunks_getElem? found
  have cut : ∀ {Item : Type} {items : List Item} {item : Item}, items[position]? = some item →
      items = items.take position ++ item :: items.drop (position + 1) := by
    intro Item items item isItem
    obtain ⟨inside, isGet⟩ := List.getElem?_eq_some_iff.mp isItem
    rw [← isGet, ← List.drop_eq_getElem_cons inside, List.take_append_drop]
  have sameLength : (change.regions.take position).length =
      (change.fileDiff.hunks.take position).length := by
    rw [List.length_take, List.length_take]
    congr 1
    exact (length_hunks change.regions 0 0 0).symm
  unfold FileChange.chosen FileChange.chosenBefore FileChange.chosenAfter
  rw [isRegion]
  unfold Direction.lines
  conv_lhs => rw [cut isRegion, cut found, List.zip_append sameLength]
  simp

theorem chosen_nil {old new : Text} (between : change.Between old new) (direction : Direction) :
    change.chosen direction [] = splitLines (match direction with
      | .forward => old
      | .reverse => new) := by
  have own : ∀ regions old new index, direction.lines [] regions (hunks old new index regions) =
      regions.flatMap (match direction with
        | .forward => Region.oldLines
        | .reverse => Region.newLines) := by
    intro regions
    induction regions with
    | nil => exact fun _ _ _ => rfl
    | cons region later ih =>
      intro old new index
      have rest := ih (old + region.oldLines.length)
        (new + region.newLines.length) (index + region.edits.length)
      have none : direction.kept [] (numbered (old + region.gap.length)
          (new + region.gap.length) index region.edits) = direction.own _ :=
        direction.kept_none fun line _ => List.not_mem_nil
      unfold Direction.lines at rest ⊢
      rw [hunks, List.zip_cons_cons, List.flatMap_cons, rest, List.flatMap_cons]
      congr 1
      show region.gap ++ direction.kept [] (numbered _ _ _ _) = _
      rw [none]
      cases direction with
      | forward => exact congrArg (region.gap ++ ·) (oldLines_numbered _ _ _ _)
      | reverse => exact congrArg (region.gap ++ ·) (newLines_numbered _ _ _ _)
  unfold FileChange.chosen
  rw [show change.fileDiff.hunks = hunks 0 0 0 change.regions from rfl, own]
  cases direction with
  | forward => exact between.1.symm
  | reverse => exact between.2.symm

/-- Every diff is one between its contents. -/
def Git.Faithful (git : Git) : Prop := ∀ old new, (git old new).Between old new

section
variable {git : Git} {direction : Direction} {index against : Text} {position : Nat}
  {hunk : DiffHunk}

theorem splitLines_index (faithful : git.Faithful)
    (found : (direction.change git index against).fileDiff.hunks[position]? = some hunk) :
    splitLines index = direction.before (direction.change git index against) position ++
      direction.own hunk.lines ++
      direction.after (direction.change git index against) position := by
  cases direction with
  | forward =>
    exact (placed_of_parsed (faithful index against) (parseDiff_print _) found).oldPlace
  | reverse =>
    exact (placed_of_parsed (faithful against index) (parseDiff_print _) found).newPlace

theorem action_exact (faithful : git.Faithful) (different : index ≠ against)
    (found : (direction.change git index against).fileDiff.hunks[position]? = some hunk)
    {selected : List Nat}
    (chosen : ∃ line ∈ hunk.lines, line.lineType ≠ .context ∧ line.index ∈ selected)
    (lands : direction.Lands (direction.change git index against) position hunk selected)
    (filePath : Text) :
    direction.action (direction.printed git index against) filePath position selected index =
      .ok (direction.before (direction.change git index against) position ++
        direction.kept selected hunk.lines ++
        direction.after (direction.change git index against) position).flatten := by
  have lines := splitLines_index faithful found
  unfold Direction.printed
  rw [if_neg different]
  cases direction with
  | forward =>
    have placed := placed_of_parsed (faithful index against) (parseDiff_print _) found
    exact (linesCommand_exact (parseDiff_print _) found placed chosen "unstaged" .forward
      filePath lines).mpr lands
  | reverse =>
    have placed := placed_of_parsed (faithful against index) (parseDiff_print _) found
    exact (linesCommand_exact (parseDiff_print _) found placed chosen "staged" .reverse
      filePath lines).mpr lands

end

/-- The lines of the requests executed so far. -/
def Staging.done (staging : Staging) : List Nat := staging.executed.flatMap LinesRequest.lineIndices

/-- The diff that the request reads has, at its position, the hunk that was shown there: the same
lines under the same indices, behind the same text. -/
structure Unmoved (git : Git) (direction : Direction) (against : Text) (shown : FileChange)
    (staging : Staging) (request : LinesRequest) (shownHunk hunk : DiffHunk) : Prop where
  different : staging.index ≠ against
  found : (direction.change git staging.index against).fileDiff.hunks[request.hunkIndex]? =
    some hunk
  sameLines : hunk.lines.map DiffLine.plain = shownHunk.lines.map DiffLine.plain
  samePlace : (direction.before (direction.change git staging.index against)
      request.hunkIndex).flatten =
    (shown.chosenBefore direction staging.done request.hunkIndex).flatten

/-- The request still finds its hunk, and git a place from which its change slides to it. -/
def Clean (git : Git) (direction : Direction) (against : Text) (shown : FileChange)
    (staging : Staging) (request : LinesRequest) : Prop :=
  ∀ shownHunk, shown.fileDiff.hunks[request.hunkIndex]? = some shownHunk →
    ∃ hunk, Unmoved git direction against shown staging request shownHunk hunk ∧
      direction.Lands (direction.change git staging.index against) request.hunkIndex hunk
        request.lineIndices

/-! ## The invariant -/

theorem position_unique (shown : FileChange) {first second lineIdx : Nat}
    {firstHunk secondHunk : DiffHunk} (isFirst : shown.fileDiff.hunks[first]? = some firstHunk)
    (isSecond : shown.fileDiff.hunks[second]? = some secondHunk)
    (inFirst : lineIdx ∈ firstHunk.lines.map DiffLine.index)
    (inSecond : lineIdx ∈ secondHunk.lines.map DiffLine.index) : first = second := by
  have nodup := parseDiff_indices (parseDiff_print shown)
  rw [List.map_flatMap, List.nodup_flatMap] at nodup
  have apart := List.pairwise_iff_getElem.mp nodup.2
  obtain ⟨firstInside, firstGet⟩ := List.getElem?_eq_some_iff.mp isFirst
  obtain ⟨secondInside, secondGet⟩ := List.getElem?_eq_some_iff.mp isSecond
  rw [← firstGet] at inFirst
  rw [← secondGet] at inSecond
  rcases Nat.lt_trichotomy first second with before | same | behind
  · exact absurd inSecond (apart first second firstInside secondInside before inFirst)
  · exact same
  · exact absurd inFirst (apart second first secondInside firstInside behind inSecond)

structure Sound (direction : Direction) (shown : FileChange) (issued : List LinesRequest)
    (staging : Staging) : Prop where
  all : (staging.executed ++ staging.waiting).Perm issued
  noErrors : staging.errors = []
  index : staging.index = (shown.chosen direction staging.done).flatten

theorem start_sound {git : Git} (faithful : git.Faithful)
    {index against : Text} (issued : List LinesRequest) :
    Sound direction (direction.change git index against) issued (Staging.start index issued) := by
  refine ⟨List.Perm.refl issued, rfl, ?_⟩
  show index = ((direction.change git index against).chosen direction []).flatten
  have own : (direction.change git index against).chosen direction [] = splitLines index := by
    cases direction with
    | forward => exact chosen_nil (faithful index against) .forward
    | reverse => exact chosen_nil (faithful against index) .reverse
  rw [own, flatten_splitLines]

section
variable {git : Git} {direction : Direction} {against : Text} {shown : FileChange}
  {selected : List Nat} {issued : List LinesRequest} {staging : Staging} {request : LinesRequest}

theorem Sound.notDone (sound : Sound direction shown issued staging)
    (isIssued : Issued shown.fileDiff.hunks selected issued) (isWaiting : request ∈ staging.waiting)
    {shownHunk : DiffHunk} (isShown : shown.fileDiff.hunks[request.hunkIndex]? = some shownHunk) :
    ∀ line ∈ shownHunk.lines, line.index ∉ staging.done := by
  intro line isLine isDone
  obtain ⟨other, isOther, inOther⟩ := mem_flatMap.mp isDone
  have otherIssued : other ∈ issued := sound.all.mem_iff.mp (List.mem_append_left _ isOther)
  obtain ⟨otherHunk, isOtherHunk, otherShows⟩ := (isIssued.fits other otherIssued).hunk
  have samePosition := position_unique shown isOtherHunk isShown (otherShows _ inOther)
    (mem_map_of_mem isLine)
  have nodup := (sound.all.map LinesRequest.hunkIndex).nodup_iff.mpr isIssued.distinct
  rw [List.map_append] at nodup
  have apart := List.disjoint_of_nodup_append nodup
  exact apart (mem_map_of_mem isOther) (samePosition ▸ mem_map_of_mem isWaiting)

theorem notAsked (isIssued : Issued shown.fileDiff.hunks selected issued)
    (isRequest : request ∈ issued) {position : Nat} {hunk : DiffHunk}
    (isHunk : shown.fileDiff.hunks[position]? = some hunk) (isOther : position ≠ request.hunkIndex) :
    ∀ line ∈ hunk.lines, line.index ∉ request.lineIndices := by
  intro line isLine asked
  obtain ⟨own, isOwn, shows⟩ := (isIssued.fits request isRequest).hunk
  exact isOther (position_unique shown isHunk isOwn (mem_map_of_mem isLine)
    (shows _ asked))

theorem other_position {Item : Type} {items : List Item} {position : Nat} {item : Item}
    (member : item ∈ items.take position ∨ item ∈ items.drop (position + 1)) :
    ∃ other, items[other]? = some item ∧ other ≠ position := by
  rcases member with before | behind
  · obtain ⟨other, inside, isItem⟩ := List.mem_take_iff_getElem.mp before
    exact ⟨other, by rw [List.getElem?_eq_getElem (by omega), isItem], by omega⟩
  · obtain ⟨other, inside, isItem⟩ := List.mem_drop_iff_getElem.mp behind
    exact ⟨position + 1 + other, by rw [List.getElem?_eq_getElem (by omega), isItem], by omega⟩

theorem chosen_request (isIssued : Issued shown.fileDiff.hunks selected issued)
    (isRequest : request ∈ issued) {hunk : DiffHunk}
    (isHunk : shown.fileDiff.hunks[request.hunkIndex]? = some hunk) {done : List Nat}
    (notDone : ∀ line ∈ hunk.lines, line.index ∉ done) :
    shown.chosen direction (done ++ request.lineIndices) =
      shown.chosenBefore direction done request.hunkIndex ++
        direction.kept request.lineIndices hunk.lines ++
        shown.chosenAfter direction done request.hunkIndex := by
  have elsewhere : ∀ other, (other ∈ shown.fileDiff.hunks.take request.hunkIndex ∨
      other ∈ shown.fileDiff.hunks.drop (request.hunkIndex + 1)) → ∀ line ∈ other.lines,
        line.index ∈ done ++ request.lineIndices ↔ line.index ∈ done := by
    intro other member line isLine
    obtain ⟨position, isOther, isElse⟩ := other_position member
    rw [List.mem_append, or_iff_left (notAsked isIssued isRequest isOther isElse line isLine)]
  have own : direction.kept (done ++ request.lineIndices) hunk.lines =
      direction.kept request.lineIndices hunk.lines := by
    apply direction.kept_congr
    intro line isLine
    rw [List.mem_append, or_iff_right (notDone line isLine)]
  rw [chosen_eq isHunk, own]
  unfold FileChange.chosenBefore FileChange.chosenAfter
  rw [Direction.lines_congr (fun other member => elsewhere other (Or.inl member)),
    Direction.lines_congr (fun other member => elsewhere other (Or.inr member))]

/-- What follows the hunk is where it was shown, because what stands before it is. -/
theorem Unmoved.sameRest (faithful : git.Faithful) {shownHunk hunk : DiffHunk}
    (unmoved : Unmoved git direction against shown staging request shownHunk hunk)
    (isShown : shown.fileDiff.hunks[request.hunkIndex]? = some shownHunk)
    (notDone : ∀ line ∈ shownHunk.lines, line.index ∉ staging.done)
    (index : staging.index = (shown.chosen direction staging.done).flatten) :
    (direction.after (direction.change git staging.index against) request.hunkIndex).flatten =
      (shown.chosenAfter direction staging.done request.hunkIndex).flatten := by
  have own : direction.kept staging.done shownHunk.lines = direction.own hunk.lines := by
    rw [direction.kept_none notDone, ← direction.own_plain, ← unmoved.sameLines,
      direction.own_plain]
  have read := congrArg List.flatten (splitLines_index faithful unmoved.found)
  rw [flatten_splitLines, List.flatten_append, List.flatten_append, unmoved.samePlace] at read
  rw [chosen_eq isShown, own, List.flatten_append, List.flatten_append] at index
  exact List.append_cancel_left (read.symm.trans index)

theorem step_sound (faithful : git.Faithful)
    (changes : ∀ lineIdx ∈ selected, ∀ hunk ∈ shown.fileDiff.hunks, ∀ line ∈ hunk.lines,
      line.index = lineIdx → line.lineType ≠ .context)
    (isIssued : Issued shown.fileDiff.hunks selected issued)
    (sound : Sound direction shown issued staging)
    (clean : Clean git direction against shown staging request) {next : Staging}
    (ran : staging.step direction git against request = some next) :
    Sound direction shown issued next := by
  unfold Staging.step at ran
  split at ran
  · rename_i isWaiting
    have isRequest : request ∈ issued := sound.all.mem_iff.mp (List.mem_append_right _ isWaiting)
    obtain ⟨⟨shownHunk, isShown, shows⟩, filled, isSelected⟩ := isIssued.fits request isRequest
    obtain ⟨hunk, unmoved, lands⟩ := clean shownHunk isShown
    have notDone := sound.notDone isIssued isWaiting isShown
    have sameRest := unmoved.sameRest faithful isShown notDone sound.index
    have chosen : ∃ line ∈ hunk.lines, line.lineType ≠ .context ∧
        line.index ∈ request.lineIndices := by
      obtain ⟨lineIdx, asked⟩ := List.exists_mem_of_ne_nil _ filled
      obtain ⟨line, isLine, isIndex⟩ := mem_map.mp (shows lineIdx asked)
      have isPlain : line.plain ∈ hunk.lines.map DiffLine.plain := by
        rw [unmoved.sameLines]
        exact mem_map_of_mem isLine
      obtain ⟨reread, isReread, same⟩ := mem_map.mp isPlain
      have sameType : reread.plain.lineType = line.plain.lineType := by rw [same]
      have sameIndex : reread.plain.index = line.plain.index := by rw [same]
      refine ⟨reread, isReread, ?_, ?_⟩
      swap
      · rw [show reread.index = line.index from sameIndex, isIndex]
        exact asked
      rw [show reread.lineType = line.lineType from sameType]
      exact changes lineIdx (isSelected lineIdx asked) shownHunk
        (List.mem_of_getElem? isShown) line isLine isIndex
    have keptSame : direction.kept request.lineIndices hunk.lines =
        direction.kept request.lineIndices shownHunk.lines := by
      rw [← direction.kept_plain, unmoved.sameLines, direction.kept_plain]
    have exact := action_exact faithful unmoved.different unmoved.found chosen lands
      request.filePath
    dsimp only at ran
    rw [exact] at ran
    cases ran
    have isDone : (staging.executed ++ [request]).flatMap LinesRequest.lineIndices =
        staging.done ++ request.lineIndices := by
      rw [List.flatMap_append, List.flatMap_singleton]
      rfl
    constructor
    case all =>
      show ((staging.executed ++ [request]) ++ staging.waiting.erase request).Perm issued
      rw [List.append_assoc]
      exact ((List.perm_cons_erase isWaiting).symm.append_left staging.executed).trans sound.all
    case noErrors => exact sound.noErrors
    case index =>
      show _ = (shown.chosen direction
        ((staging.executed ++ [request]).flatMap LinesRequest.lineIndices)).flatten
      rw [isDone, chosen_request isIssued isRequest isShown notDone]
      simp only [List.flatten_append]
      rw [unmoved.samePlace, sameRest, keptSame]
  · cases ran

end

/-- Nothing failed, the requests executed so far changed their lines and nothing else did, and
once all are executed the selected lines are staged, or unstaged. -/
structure Exact (direction : Direction) (shown : FileChange) (selected : List Nat)
    (staging : Staging) : Prop where
  noErrors : staging.errors = []
  done : staging.index = (shown.chosen direction staging.done).flatten
  all : staging.waiting = [] → staging.index = (shown.chosen direction selected).flatten

/-- The file whose diff is shown is the first one with selected lines, which are changes. -/
structure Displayed (git : Git) (direction : Direction) (index against : Text)
    (selectedLines : Text → List Nat) (diffs : List FileDiff) (file : FileDiff) : Prop where
  parsed : parseDiff (direction.printed git index against) = [file]
  first : diffs.find? (fun diff => selectedLines diff.path ≠ []) = some file
  changes : ∀ lineIdx ∈ selectedLines file.path, ∃ hunk ∈ file.hunks, ∃ line ∈ hunk.lines,
    line.index = lineIdx ∧ line.lineType ≠ .context

theorem Displayed.file_eq {git : Git} {index against : Text}
    {selectedLines : Text → List Nat} {diffs : List FileDiff} {file : FileDiff}
    (displayed : Displayed git direction index against selectedLines diffs file) :
    file = (direction.change git index against).fileDiff := by
  have parsed := displayed.parsed
  unfold Direction.printed at parsed
  split at parsed
  · cases parsed
  · rw [parseDiff_print] at parsed
    exact (List.singleton_inj.mp parsed).symm

/-- In all runs of the requests of a selection. -/
def MultiHunkExact
    (ok : Git → Direction → Text → FileChange → Staging → LinesRequest → Prop) : Prop :=
  ∀ (git : Git), git.Faithful → ∀ direction index against selectedLines diffs file,
    Displayed git direction index against selectedLines diffs file → ∀ finish,
      Run (Staging.step direction git against)
        (ok git direction against (direction.change git index against))
        (Staging.start index (handleKeyDown selectedLines diffs)) finish →
      Exact direction (direction.change git index against) (selectedLines file.path) finish

/-- A selection over several hunks is exact as long as every request still finds its hunk where
it was shown. -/
theorem multiHunk_exact {git : Git} (faithful : git.Faithful) {direction : Direction}
    {index against : Text} {selectedLines : Text → List Nat} {diffs : List FileDiff}
    {file : FileDiff} (displayed : Displayed git direction index against selectedLines diffs file)
    {finish : Staging}
    (run : Run (Staging.step direction git against)
      (Clean git direction against (direction.change git index against))
      (Staging.start index (handleKeyDown selectedLines diffs)) finish) :
    Exact direction (direction.change git index against) (selectedLines file.path) finish := by
  obtain ⟨parsed, first, changes⟩ := displayed
  have isFile := Displayed.file_eq ⟨parsed, first, changes⟩
  have issued := handleKeyDown_issued first fun lineIdx isSelected => by
    obtain ⟨hunk, isHunk, line, isLine, isIndex, _⟩ := changes lineIdx isSelected
    exact ⟨hunk, isHunk, mem_map.mpr ⟨line, isLine, isIndex⟩⟩
  have distinct : ((file.hunks.flatMap DiffHunk.lines).map DiffLine.index).Nodup := by
    rw [isFile]
    exact parseDiff_indices (parseDiff_print _)
  have everyLine : ∀ lineIdx ∈ selectedLines file.path, ∀ hunk ∈ file.hunks,
      ∀ line ∈ hunk.lines, line.index = lineIdx → line.lineType ≠ .context := by
    intro lineIdx isSelected hunk isHunk line isLine isIndex
    obtain ⟨own, isOwn, change, isChange, sameIndex, notContext⟩ := changes lineIdx isSelected
    have same : line = change := List.inj_on_of_nodup_map distinct
      (mem_flatMap.mpr ⟨hunk, isHunk, isLine⟩) (mem_flatMap.mpr ⟨own, isOwn, isChange⟩)
      (isIndex.trans sameIndex.symm)
    rw [same]
    exact notContext
  rw [isFile] at issued everyLine
  rw [isFile]
  have sound := run.invariant (start_sound faithful _)
    fun _ _ _ sound clean ran => step_sound faithful everyLine issued sound clean ran
  refine ⟨sound.noErrors, sound.index, ?_⟩
  intro noneWaiting
  have all := sound.all
  rw [noneWaiting, List.append_nil] at all
  rw [sound.index]
  unfold FileChange.chosen
  rw [Direction.lines_congr]
  intro hunk isHunk line isLine
  constructor
  · intro isDone
    obtain ⟨request, isRequest, asked⟩ := mem_flatMap.mp isDone
    exact (issued.fits request (all.mem_iff.mp isRequest)).isSelected _ asked
  · intro isSelected
    obtain ⟨request, isRequest, asked⟩ := issued.covers _ isSelected
    exact mem_flatMap.mpr ⟨request, all.mem_iff.mpr isRequest, asked⟩

/-- All old lines go and all new ones come. -/
def wholeChange (old new : Text) : FileChange where
  delta := ⟨some ['f'], some ['f'], .modified⟩
  regions := [⟨[], (splitLines old).map (Edit.mk .remove) ++ (splitLines new).map (Edit.mk .add),
    [], noHeading⟩]
  rest := []

theorem wholeChange_between (old new : Text) : (wholeChange old new).Between old new := by
  constructor <;>
    simp [wholeChange, Region.oldLines, Region.newLines, oldSide, newSide, filter_map,
      Function.comp_def]

/-- A diff that is as given between some contents. -/
def gitOf (known : List ((Text × Text) × FileChange)) : Git := fun old new =>
  (known.find? fun entry => entry.1 = (old, new)).elim (wholeChange old new) Prod.snd

theorem gitOf_faithful {known : List ((Text × Text) × FileChange)}
    (between : ∀ entry ∈ known, entry.2.Between entry.1.1 entry.1.2) : (gitOf known).Faithful := by
  intro old new
  unfold gitOf
  cases found : known.find? fun entry => entry.1 = (old, new) with
  | none => exact wholeChange_between old new
  | some entry =>
    have isKey : entry.1 = (old, new) := by simpa using List.find?_some found
    have isBetween := between entry (List.mem_of_find?_eq_some found)
    rw [isKey] at isBetween
    exact isBetween

def textLine (c : Char) : Text := [c, '\n']

def contextLines (lines : List Char) : List Edit := lines.map fun c => ⟨.context, textLine c⟩

def addLines (lines : List Char) : List Edit := lines.map fun c => ⟨.add, textLine c⟩

def textOf (lines : List Char) : Text := (lines.map textLine).flatten

def modifiedFile (regions : List Region) : FileChange where
  delta := ⟨some ['f'], some ['f'], .modified⟩
  regions := regions
  rest := []

def region (gap : List Char) (edits : List Edit) : Region :=
  ⟨gap.map textLine, edits, [], noHeading⟩

def lastRegion : Region :=
  region ['4'] (contextLines ['5', '6', '7'] ++ addLines ['r'])

/-- Two lines are added before seven others, and one behind them. -/
def threeAdded : FileChange :=
  modifiedFile [region [] (addLines ['p', 'q'] ++ contextLines ['1', '2', '3']), lastRegion]

def firstStaged : FileChange :=
  modifiedFile [region [] (contextLines ['p'] ++ addLines ['q'] ++ contextLines ['1', '2', '3']),
    lastRegion]

def seven : Text := textOf ['1', '2', '3', '4', '5', '6', '7']

def withFirst : Text := textOf ['p', '1', '2', '3', '4', '5', '6', '7']

def withThree : Text := textOf ['p', 'q', '1', '2', '3', '4', '5', '6', '7', 'r']

def someGit : Git :=
  gitOf [((seven, withThree), threeAdded), ((withFirst, withThree), firstStaged)]

def someLines : Text → List Nat := fun _ => [8, 0]

/-- The last line and the first are staged, the first one first. -/
theorem multiHunk_exact_firstAndLast : ∃ finish, Run (Staging.step .forward someGit withThree)
        (Clean someGit .forward withThree threeAdded)
        (Staging.start seven (handleKeyDown someLines [threeAdded.fileDiff])) finish ∧
      finish.index = textOf ['p', '1', '2', '3', '4', '5', '6', '7', 'r'] ∧
      Exact .forward threeAdded [8, 0] finish := by
  have faithful : someGit.Faithful := gitOf_faithful (by decide)
  have displayed : Displayed someGit .forward seven withThree someLines
      [threeAdded.fileDiff] threeAdded.fileDiff := ⟨rfl, rfl, by decide⟩
  have replayed : execute (Staging.step .forward someGit withThree)
      (Staging.start seven (handleKeyDown someLines [threeAdded.fileDiff]))
      [⟨['f'], 0, [0]⟩, ⟨['f'], 1, [8]⟩] =
        some ⟨textOf ['p', '1', '2', '3', '4', '5', '6', '7', 'r'], [],
          [⟨['f'], 0, [0]⟩, ⟨['f'], 1, [8]⟩], []⟩ := rfl
  have permitted : Permitted (Staging.step .forward someGit withThree)
      (Clean someGit .forward withThree threeAdded)
      (Staging.start seven (handleKeyDown someLines [threeAdded.fileDiff]))
      [⟨['f'], 0, [0]⟩, ⟨['f'], 1, [8]⟩] := by
    refine ⟨?_, _, rfl, ?_, _, rfl, trivial⟩
    · intro shownHunk isShown
      cases isShown
      exact ⟨_, ⟨by decide, rfl, rfl, rfl⟩, 0, Search.find_eq_some.mp rfl,
        Or.inr ⟨[], ['4', '5', '6', '7'].map textLine, rfl, rfl, rfl⟩⟩
    · intro shownHunk isShown
      cases isShown
      exact ⟨_, ⟨by decide, rfl, rfl, rfl⟩, 5, Search.find_eq_some.mp rfl,
        Or.inr ⟨[], [], rfl, rfl, rfl⟩⟩
  have run := run_of_permitted _ permitted replayed
  exact ⟨_, run, rfl, multiHunk_exact faithful displayed run⟩

/-- A line is added before seven others, and one behind them. -/
def twoAdded : FileChange :=
  modifiedFile [region [] (addLines ['p'] ++ contextLines ['1', '2', '3']), lastRegion]

def onlyLast : FileChange :=
  modifiedFile [region ['p', '1', '2', '3', '4'] lastRegion.edits]

def withTwo : Text := textOf ['p', '1', '2', '3', '4', '5', '6', '7', 'r']

def wholeGit : Git := gitOf [((seven, withTwo), twoAdded), ((withFirst, withTwo), onlyLast)]

def wholeLines : Text → List Nat := fun _ => [0, 7]

/-- Once the first hunk is staged there is no second one. -/
theorem not_multiHunk_exact : ¬MultiHunkExact fun _ _ _ _ _ _ => True := by
  intro exact
  have displayed : Displayed wholeGit .forward seven withTwo wholeLines
      [twoAdded.fileDiff] twoAdded.fileDiff := ⟨rfl, rfl, by decide⟩
  have replayed : execute (Staging.step .forward wholeGit withTwo)
      (Staging.start seven (handleKeyDown wholeLines [twoAdded.fileDiff]))
      [⟨['f'], 0, [0]⟩, ⟨['f'], 1, [7]⟩] = some ⟨withFirst, [], [⟨['f'], 0, [0]⟩, ⟨['f'], 1, [7]⟩],
          ["Hunk index 1 out of range (file has 1 hunks)"]⟩ := rfl
  have isExact := exact wholeGit (gitOf_faithful (by decide)) .forward seven withTwo wholeLines
    [twoAdded.fileDiff] _ displayed _ (reachable_of_execute _ replayed)
  cases isExact.noErrors

end AiTools.GitDiff
