import AiTools.GitDiff.Patch
import AiTools.Lib.Grouping

/-!
Contract: the requests for the selected lines of a shown diff, and their execution.

How the diff is found is a parameter. The file stays in the index, and nothing else writes it.
-/

namespace AiTools.GitDiff

open AiTools.Lib.UnifiedDiff
open AiTools.Lib.Grouping

structure LinesRequest where
  filePath : Text
  hunkIndex : Nat
  lineIndices : List Nat
deriving DecidableEq

/-- The first hunk that shows a line of that index. -/
def hunkOf (hunks : List DiffHunk) (lineIdx : Nat) : Option Nat :=
  hunks.findIdx? fun hunk => hunk.lines.any fun line => line.index = lineIdx

def linesByHunk (hunks : List DiffHunk) (fileLines : List Nat) : List (Nat × List Nat) :=
  group (hunkOf hunks) fileLines

/-- The requests for the first file with selected lines. -/
def handleKeyDown (selectedLines : Text → List Nat) : List FileDiff → List LinesRequest
  | [] => []
  | diff :: later =>
    if selectedLines diff.path = [] then handleKeyDown selectedLines later
    else (linesByHunk diff.hunks (selectedLines diff.path)).map fun entry =>
      ⟨diff.path, entry.1, entry.2⟩

/-- The diff from the first content to the second. -/
abbrev Git := Text → Text → FileChange

/-- `stage_lines` changes the first content of its diff, the index, against the working
directory; `unstage_lines` the second, the index, against the head. -/
def Direction.change (direction : Direction) (git : Git) (index against : Text) : FileChange :=
  match direction with
  | .forward => git index against
  | .reverse => git against index

/-- What the diff of the file prints: nothing, when the contents are the same. -/
def Direction.printed (direction : Direction) (git : Git) (index against : Text) :
    List PrintedLine :=
  if index = against then [] else (direction.change git index against).print

/-- `isStaged ? unstageLines : stageLines`. -/
def Direction.action : Direction →
    List PrintedLine → Text → Nat → List Nat → Text → Except String Text
  | .forward => stageLines
  | .reverse => unstageLines

/-- The index while requests are executed, each as a whole. -/
structure Staging where
  index : Text
  waiting : List LinesRequest
  executed : List LinesRequest
  errors : List String

def Staging.start (index : Text) (issued : List LinesRequest) : Staging := ⟨index, issued, [], []⟩

/-- One of the waiting requests is executed; an error of it is shown and changes nothing. -/
def Staging.step (direction : Direction) (git : Git) (against : Text) (staging : Staging)
    (request : LinesRequest) : Option Staging :=
  if request ∈ staging.waiting then
    let printed := direction.printed git staging.index against
    let staging := { staging with
      waiting := staging.waiting.erase request
      executed := staging.executed ++ [request] }
    match direction.action printed request.filePath request.hunkIndex request.lineIndices
        staging.index with
    | .ok index => some { staging with index := index }
    | .error error => some { staging with errors := staging.errors ++ [error] }
  else none

/-- A request has lines of its hunk. -/
structure LinesRequest.Fits (hunks : List DiffHunk) (selected : List Nat)
    (request : LinesRequest) : Prop where
  hunk : ∃ hunk, hunks[request.hunkIndex]? = some hunk ∧
    ∀ lineIdx ∈ request.lineIndices, lineIdx ∈ hunk.lines.map DiffLine.index
  filled : request.lineIndices ≠ []
  isSelected : ∀ lineIdx ∈ request.lineIndices, lineIdx ∈ selected

/-- Every selected line is in one request, and no two requests are for one hunk. -/
structure Issued (hunks : List DiffHunk) (selected : List Nat) (issued : List LinesRequest) :
    Prop where
  fits : ∀ request ∈ issued, request.Fits hunks selected
  distinct : (issued.map LinesRequest.hunkIndex).Nodup
  covers : ∀ lineIdx ∈ selected, ∃ request ∈ issued, lineIdx ∈ request.lineIndices

variable {hunks : List DiffHunk} {lineIdx : Nat}

theorem hunkOf_eq_some {position : Nat} (found : hunkOf hunks lineIdx = some position) :
    ∃ hunk, hunks[position]? = some hunk ∧ lineIdx ∈ hunk.lines.map DiffLine.index := by
  obtain ⟨inside, shows, _⟩ := List.findIdx?_eq_some_iff_getElem.mp found
  refine ⟨hunks[position], List.getElem?_eq_getElem inside, ?_⟩
  obtain ⟨line, member, isLine⟩ := List.any_eq_true.mp shows
  exact List.mem_map.mpr ⟨line, member, by simpa using isLine⟩

theorem hunkOf_isSome {hunk : DiffHunk} (isHunk : hunk ∈ hunks)
    (shown : lineIdx ∈ hunk.lines.map DiffLine.index) :
    ∃ position, hunkOf hunks lineIdx = some position := by
  apply Option.isSome_iff_exists.mp
  unfold hunkOf
  rw [List.findIdx?_isSome, List.any_eq_true]
  obtain ⟨line, member, isLine⟩ := List.mem_map.mp shown
  exact ⟨hunk, isHunk, List.any_eq_true.mpr ⟨line, member, by simpa using isLine⟩⟩

theorem handleKeyDown_issued {selectedLines : Text → List Nat} {diffs : List FileDiff}
    {diff : FileDiff} (first : diffs.find? (fun diff => selectedLines diff.path ≠ []) = some diff)
    (shown : ∀ lineIdx ∈ selectedLines diff.path, ∃ hunk ∈ diff.hunks,
      lineIdx ∈ hunk.lines.map DiffLine.index) :
    Issued diff.hunks (selectedLines diff.path) (handleKeyDown selectedLines diffs) := by
  have own : handleKeyDown selectedLines diffs =
      (linesByHunk diff.hunks (selectedLines diff.path)).map fun entry =>
        ⟨diff.path, entry.1, entry.2⟩ := by
    induction diffs with
    | nil => cases first
    | cons other later ih =>
      unfold handleKeyDown
      rw [List.find?_cons] at first
      split at first
      · rename_i isFirst
        cases first
        rw [if_neg (of_decide_eq_true isFirst)]
      · rename_i notFirst
        have none : selectedLines other.path = [] := by
          simpa using of_decide_eq_false notFirst
        rw [if_pos none]
        exact ih first
  have groups := group_groups (hunkOf diff.hunks) (selectedLines diff.path)
  rw [own]
  constructor
  case fits =>
    intro request isRequest
    obtain ⟨⟨position, lines⟩, isEntry, rfl⟩ := List.mem_map.mp isRequest
    have members := groups.members position lines isEntry
    have filled := groups.filled position lines isEntry
    have own : ∀ lineIdx ∈ lines, hunkOf diff.hunks lineIdx = some position :=
      fun lineIdx member => ((members lineIdx).mp member).2
    refine ⟨?_, filled, fun lineIdx member => ((members lineIdx).mp member).1⟩
    obtain ⟨lineIdx, isLine⟩ := List.exists_mem_of_ne_nil lines filled
    obtain ⟨hunk, isHunk, _⟩ := hunkOf_eq_some (own lineIdx isLine)
    refine ⟨hunk, isHunk, ?_⟩
    intro other isOther
    obtain ⟨sameHunk, isSame, inHunk⟩ := hunkOf_eq_some (own other isOther)
    rw [isHunk] at isSame
    cases isSame
    exact inHunk
  case distinct =>
    rw [List.map_map]
    exact groups.distinct
  case covers =>
    intro lineIdx isSelected
    obtain ⟨hunk, isHunk, inHunk⟩ := shown lineIdx isSelected
    obtain ⟨position, found⟩ := hunkOf_isSome isHunk inHunk
    obtain ⟨⟨key, lines⟩, isEntry, rfl⟩ :=
      List.mem_map.mp (groups.covers lineIdx isSelected position found)
    exact ⟨⟨diff.path, key, lines⟩, List.mem_map.mpr ⟨(key, lines), isEntry, rfl⟩,
      (groups.members key lines isEntry lineIdx).mpr ⟨isSelected, found⟩⟩

end AiTools.GitDiff
