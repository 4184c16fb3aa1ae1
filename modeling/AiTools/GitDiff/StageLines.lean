import AiTools.GitDiff.Patch

/-!
Contract: staging selected lines of a hunk.
-/

namespace AiTools.GitDiff

open AiTools.Lib.UnifiedDiff

/-- Staging the lines makes the selected changes in the old content and leaves every other
byte, and with every change selected it does what staging the hunk does. -/
def StagesExactly (change : FileChange) (old filePath : Text) (index : Nat) (hunk : DiffHunk)
    (selected : List Nat) : Prop :=
  stageLines change.print filePath index selected old =
      .ok (change.oldBefore index ++ stagedLines selected hunk.lines ++
        change.oldAfter index).flatten ∧
    ((∀ line ∈ hunk.lines, line.lineType ≠ .context → line.index ∈ selected) →
      ∀ content, stageLines change.print filePath index selected content =
        stageHunk change.print filePath index content)

/-- What the patch reads and writes: the old lines, and of the added ones those that
are selected. -/
theorem ended_iff {lines : List DiffLine} {selected : List Nat} :
    (∀ line ∈ lines, (line.lineType = .add → line.index ∈ selected) → Ended line.content) ↔
      (∀ line ∈ oldLines lines, Ended line) ∧ ∀ line ∈ stagedLines selected lines, Ended line := by
  unfold oldLines stagedLines
  simp only [List.forall_mem_map, List.mem_filter]
  constructor
  · intro ended
    refine ⟨fun line kept => ended line kept.1 ?_, fun line kept => ended line kept.1 ?_⟩
    · exact fun isAdd => absurd isAdd (by simpa using kept.2)
    · intro isAdd
      simpa [isAdd] using kept.2
  · rintro ⟨oldEnded, stagedEnded⟩ line inLines written
    by_cases isAdd : line.lineType = .add
    · exact stagedEnded line ⟨inLines, by simpa [isAdd] using written isAdd⟩
    · exact oldEnded line ⟨inLines, by simpa using isAdd⟩

theorem slides_own_iff {before own kept after : List Text} :
    Slides before own kept after (own.map endLine) (kept.map endLine) before.length ↔
      (∀ line ∈ own, Ended line) ∧ ∀ line ∈ kept, Ended line := by
  rw [slides_iff]
  constructor
  · rintro ⟨front, back, sameLength, sameLines, sameText⟩
    rw [List.append_assoc, List.append_assoc] at sameLines
    obtain ⟨rfl, sameRest⟩ := List.append_inj sameLines sameLength.symm
    obtain ⟨isOwn, rfl⟩ := List.append_inj sameRest (List.length_map _).symm
    refine ⟨map_endLine_eq.mp isOwn.symm, flatten_endLine.mp ?_⟩
    simpa using sameText.symm
  · rintro ⟨ownEnded, keptEnded⟩
    refine ⟨before, after, rfl, ?_, ?_⟩
    · rw [map_endLine_eq.mpr ownEnded]
    · rw [map_endLine_eq.mpr keptEnded]

/-- Git takes the place of the hunk, and no line break is missing; or it takes another place,
from which the change slides to the hunk. -/
def StagesThere (change : FileChange) (index : Nat) (hunk : DiffHunk) (selected : List Nat) :
    Prop :=
  let before := change.oldBefore index
  let search := Direction.forward.search hunk selected
  ∃ place, search.Nearest (before ++ oldLines hunk.lines ++ change.oldAfter index) place ∧
    if place = before.length then
      ∀ line ∈ hunk.lines, (line.lineType = .add → line.index ∈ selected) → Ended line.content
    else
      Slides before (oldLines hunk.lines) (stagedLines selected hunk.lines) (change.oldAfter index)
        search.sought ((stagedLines selected hunk.lines).map endLine) place

/-- **Staging lines is exact** precisely when every line that the patch reads or writes is ended
and git takes the place of the hunk, unless the lines between repeat. -/
theorem stageLines_exact_iff {change : FileChange} {old new : Text}
    (between : change.Between old new) {file : FileDiff}
    (parsed : parseDiff change.print = [file]) {index : Nat} {hunk : DiffHunk}
    (found : file.hunks[index]? = some hunk) {selected : List Nat}
    (chosen : ∃ line ∈ hunk.lines, line.lineType ≠ .context ∧ line.index ∈ selected)
    (filePath : Text) :
    StagesExactly change old filePath index hunk selected ↔
      StagesThere change index hunk selected := by
  have placed := placed_of_parsed between parsed found
  have whole : (∀ line ∈ hunk.lines, line.lineType ≠ .context → line.index ∈ selected) →
      ∀ content, stageLines change.print filePath index selected content =
        stageHunk change.print filePath index content :=
    fun all => linesCommand_all parsed found placed chosen all "unstaged" .forward filePath
  unfold StagesExactly
  rw [and_iff_left whole]
  refine (linesCommand_exact parsed found placed chosen "unstaged" .forward filePath
    placed.oldPlace).trans (exists_congr fun place => and_congr_right fun _ => ?_)
  split_ifs with isOwn
  · rw [isOwn, ended_iff]
    exact slides_own_iff
  · rfl

/-- "a\n" becomes "a\nb\n". -/
def appended : FileChange where
  delta := ⟨some ['f'], some ['f'], .modified⟩
  regions := [⟨[], [⟨.context, ['a', '\n']⟩, ⟨.add, ['b', '\n']⟩], [], noHeading⟩]
  rest := []

theorem stageLines_exact_appended : ∃ hunk, appended.fileDiff.hunks[0]? = some hunk ∧
      StagesExactly appended ['a', '\n'] ['f'] 0 hunk [1] := by
  have between : appended.Between ['a', '\n'] ['a', '\n', 'b', '\n'] := by decide
  refine ⟨_, rfl, ?_⟩
  exact (stageLines_exact_iff between (parseDiff_print appended) rfl (by decide) ['f']).mpr
    ⟨0, Search.find_eq_some.mp rfl, (if_pos rfl).mpr (by decide)⟩

/-- "a\n" becomes "b", without a line break. -/
def replacedLast : FileChange where
  delta := ⟨some ['f'], some ['f'], .modified⟩
  regions := [⟨[], [⟨.remove, ['a', '\n']⟩, ⟨.add, ['b']⟩], [], noHeading⟩]
  rest := []

def ones (count : Nat) : List Text := List.replicate count ['1', '\n']

/-- Eleven lines "1" get a line "p" before them and a line "q" behind the seventh. -/
def amongOnes : FileChange where
  delta := ⟨some ['f'], some ['f'], .modified⟩
  regions := [⟨[], ⟨.add, ['p', '\n']⟩ :: (ones 3).map (Edit.mk .context), [], noHeading⟩,
    ⟨ones 1, (ones 3).map (Edit.mk .context) ++ ⟨.add, ['q', '\n']⟩ ::
      (ones 3).map (Edit.mk .context), [], noHeading⟩]
  rest := ones 1

/-- Staging the whole change of a file whose last line loses its line break stages the
line with a line break, and "q" alone is staged one line too low. -/
theorem stageLines_adds_break : (replacedLast.Between ['a', '\n'] ['b'] ∧
      ∃ hunk, replacedLast.fileDiff.hunks[0]? = some hunk ∧
        stageLines replacedLast.print ['f'] 0 [0, 1] ['a', '\n'] = .ok ['b', '\n'] ∧
        ¬ StagesExactly replacedLast ['a', '\n'] ['f'] 0 hunk [0, 1]) ∧
    ∃ old new hunk, amongOnes.Between old new ∧ amongOnes.fileDiff.hunks[1]? = some hunk ∧
      stageLines amongOnes.print ['f'] 1 [7] old =
        .ok (ones 8 ++ [['q', '\n']] ++ ones 3).flatten ∧
      ¬ StagesExactly amongOnes old ['f'] 1 hunk [7] := by
  have staged : stageLines replacedLast.print ['f'] 0 [0, 1] ['a', '\n'] = .ok ['b', '\n'] := by
    rfl
  have low : stageLines amongOnes.print ['f'] 1 [7] (ones 11).flatten =
      .ok (ones 8 ++ [['q', '\n']] ++ ones 3).flatten := by
    rfl
  refine ⟨⟨by decide, _, rfl, staged, ?_⟩, (ones 11).flatten,
    (['p', '\n'] :: ones 7 ++ ['q', '\n'] :: ones 4).flatten, _, by decide, rfl, low, ?_⟩
  · rintro ⟨isExact, _⟩
    rw [staged] at isExact
    revert isExact
    decide
  · rintro ⟨isExact, _⟩
    rw [low] at isExact
    revert isExact
    decide

end AiTools.GitDiff
