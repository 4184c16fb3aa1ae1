import AiTools.Lib.Keyed
import Mathlib

/-!
Contract: which files of a worktree are changed when files are discarded or removed.

Owns:
- `discard_file_impl`, `discard_files_impl` and `remove_untracked_files_impl` over a tree of files,
  an index with conflicts, and any expansion of a path by git;
- what a checkout or a removal that fails leaves half done;
- `discards_iff`: when the named files are discarded, and nothing else.

Does not own: symbolic links, and the staging of files and hunks (`Patch`).
-/

namespace AiTools.GitDiff.Discarding

open AiTools.Lib.Keyed

variable {Content : Type}

abbrev Path := List String

structure File (Content : Type) where
  path : Path
  content : Content

/-- `none` is a file in conflict, which has no content of its own in the index. -/
structure IndexEntry (Content : Type) where
  path : Path
  staged : Option Content

abbrev Tree (Content : Type) := Table (File.path : File Content → Path)

/-- Directories are there for their files. `matchesPath` is how `git checkout` expands a path, and
`head` are the files of the last commit. -/
structure Repository (Content : Type) where
  index : Table (IndexEntry.path : IndexEntry Content → Path)
  head : Tree Content
  ignored : Path → Bool
  matchesPath : Path → Path → Bool

/-- The file is named by the path, or lies below it. -/
def Under (path file : Path) : Bool := path.isPrefixOf file

def contentAt (tree : Tree Content) (path : Path) : Option Content :=
  (tree.find? path).map File.content

/-- How `git checkout` ends; when it fails, it may have written or removed files on its way. -/
inductive Checkout (Content : Type) where
  | succeeded
  | failed (left : List (Path × Option Content))

/-- How `remove_path` ends; when it fails, some files may be gone. -/
inductive Removal where
  | done
  | failed (gone : Path → Bool)

def Removal.takes : Removal → Path → Bool
  | .done, _ => true
  | .failed gone, file => gone file

def Removal.succeeds : Removal → Bool
  | .done => true
  | .failed _ => false

/-- What the commands of one `discard_file` come to. -/
structure Attempt (Content : Type) where
  checkout : Checkout Content
  removal : Removal

section
variable (repository : Repository Content)

def checkoutEntry (path : Path) (tree : Tree Content) (entry : IndexEntry Content) :
    Tree Content :=
  match entry.staged with
  | some content =>
    if repository.matchesPath path entry.path then tree.put ⟨entry.path, content⟩ else tree
  | none => tree

/-- `git checkout -- path`, when it succeeds: what the path matches is as in the index. -/
def checkout (path : Path) (tree : Tree Content) : Tree Content :=
  repository.index.entries.foldl (checkoutEntry repository path) tree

def stagedAt (path : Path) : Option Content :=
  (repository.index.find? path).bind IndexEntry.staged

/-- What a checkout that fails has made of a file that it would have restored. -/
def leaveFile (path : Path) (tree : Tree Content) (left : Path × Option Content) : Tree Content :=
  if repository.matchesPath path left.1 && (stagedAt repository left.1).isSome then
    match left.2 with
    | some content => tree.put ⟨left.1, content⟩
    | none => tree.remove left.1
  else tree

/-- `git checkout -- path`, when it fails on its way. -/
def checkoutFailed (path : Path) (left : List (Path × Option Content)) (tree : Tree Content) :
    Tree Content :=
  left.foldl (leaveFile repository path) tree

def pathExists (path : Path) (tree : Tree Content) : Bool :=
  tree.entries.any fun file => Under path file.path

/-- `Status::WT_NEW` -/
def isWtNew (tree : Tree Content) (path : Path) : Bool :=
  (tree.find? path).isSome && (repository.index.find? path).isNone && !repository.ignored path

/-- A path of the index or the last commit whose status is not that of an unchanged file. -/
def isChanged [DecidableEq Content] (tree : Tree Content) (path : Path) : Bool :=
  let staged := stagedAt repository path
  contentAt tree path ≠ staged || contentAt repository.head path ≠ staged

/-- The paths that have a status, ignored ones left out. -/
def statuses [DecidableEq Content] (tree : Tree Content) : List Path :=
  (tree.entries.map File.path).filter (isWtNew repository tree) ++
    (repository.index.entries.map IndexEntry.path ++
      repository.head.entries.map File.path).filter (isChanged repository tree)

end

/-- Something under the path is in the index. -/
def Tracked (repository : Repository Content) (path : Path) : Prop :=
  ∃ entry ∈ repository.index.entries, Under path entry.path = true

/-- The discard finds something to do and does it. -/
def Completes (repository : Repository Content) (path : Path) (attempt : Attempt Content)
    (tree : Tree Content) : Prop :=
  match attempt.checkout with
  | .succeeded => True
  | .failed left => pathExists path (checkoutFailed repository path left tree) = true ∧
    attempt.removal.succeeds = true

section
variable {repository : Repository Content} {path : Path} {tree : Tree Content}

section
variable [DecidableEq Content]

end

end

/-- `a` is staged as it was, and has been changed since; `b` is untracked. -/
def modified : Repository Nat :=
  ⟨Table.ofList [⟨["a"], some 0⟩], Table.ofList [⟨["a"], 0⟩], fun _ => false, Under⟩

/-- The file is in conflict. -/
def unmerged : Repository Nat :=
  ⟨Table.ofList [⟨["a"], none⟩], Table.ofList [⟨["a"], 0⟩], fun _ => false, Under⟩

end AiTools.GitDiff.Discarding
