import Mathlib

/-!
Contract: the git commands of a source sync, and of a merge with the default branch.

Owns:
- a repository as far as these commands see it: HEAD, the index and the working tree as lists of
  changes, the merge or rebase in progress, and the stash list that all worktrees share;
- each git command as a function of its outcome, which comes from outside, and so do the entries
  that other worktrees push;
- `refresh_source_repo` and `merge_default_branch_impl`, with every error on the way.

Does not own: what the sync keeps and what its errors leave (`SourceSyncSafety`).
-/

namespace AiTools.Grove.SourceSync

/-- A change to one path. -/
abbrev Edit := String

structure Head where
  branch : String
  commit : Nat
deriving DecidableEq

/-- `staged` is the index against HEAD, and `unstaged` the working tree against the index. -/
structure Work where
  head : Head
  staged : List Edit
  unstaged : List Edit
deriving DecidableEq

def Work.changes (work : Work) : List Edit := work.staged ++ work.unstaged

inductive OperationKind where
  | merge
  | rebase
deriving DecidableEq

structure Operation where
  kind : OperationKind
  start : Work
deriving DecidableEq

/-- What is left of an operation in progress behind a `git checkout` or a `git reset --hard`, which
remove `MERGE_HEAD` and leave the state of a rebase. -/
def unmerged (operation : Option Operation) : Option Operation :=
  operation.filter fun operation => operation.kind = .rebase

/-- The commit of a stash entry: the one that the push of this sync makes, or another. -/
inductive StashRef where
  | own
  | other (number : Nat)
deriving DecidableEq

structure Entry where
  ref : StashRef
  staged : List Edit
  unstaged : List Edit

/-- An entry that this sync has not made. -/
structure Foreign where
  number : Nat
  staged : List Edit
  unstaged : List Edit

def Foreign.entry (foreign : Foreign) : Entry :=
  ⟨.other foreign.number, foreign.staged, foreign.unstaged⟩

/-- The stash list is shared by all worktrees, the newest entry first. `applied` and `dropped` are
history. -/
structure Repo where
  work : Work
  operation : Option Operation
  stash : List Entry
  applied : List StashRef
  dropped : List StashRef

def Repo.initial (work : Work) (operation : Option Operation) (stash : List Foreign) : Repo where
  work := work
  operation := operation
  stash := stash.map Foreign.entry
  applied := []
  dropped := []

inductive Outcome where
  | failed
  | done
  /-- The command reports success and has had no effect. -/
  | nothing
deriving DecidableEq

/-- How a merge or a rebase ends. A conflict leaves its edits in the tree. -/
inductive Joining where
  | refused
  | conflicted (commit : Nat) (conflicts : List Edit)
  | joined (commit : Nat)
  | nothing

/-- Other worktrees push on the list. -/
def Repo.othersPush (repo : Repo) (entries : List Foreign) : Repo :=
  { repo with stash := entries.map Foreign.entry ++ repo.stash }

/-- `git stash push --include-untracked`, which resets the tree once it has saved an entry. -/
def Repo.stashPush (outcome : Outcome) (repo : Repo) : Bool × Repo :=
  match outcome with
  | .failed => (false, repo)
  | .nothing => (true, repo)
  | .done => (true, { repo with
      work := { repo.work with staged := [], unstaged := [] }
      operation := unmerged repo.operation
      stash := ⟨.own, repo.work.staged, repo.work.unstaged⟩ :: repo.stash })

/-- A checkout that succeeds ends a merge in progress, also when HEAD is there already. -/
def Repo.checkout (outcome : Outcome) (head : Head) (repo : Repo) : Bool × Repo :=
  match outcome with
  | .failed => (false, repo)
  | .nothing => (true, { repo with operation := unmerged repo.operation })
  | .done => (true, { repo with
      work := { repo.work with head := head }
      operation := unmerged repo.operation })

def Repo.joinFree (kind : OperationKind) (repo : Repo) : Joining → Bool × Repo
  | .refused => (false, repo)
  | .nothing => (true, repo)
  | .conflicted commit conflicts => (false, { repo with
      work := ⟨{ repo.work.head with commit := commit }, repo.work.staged,
        repo.work.unstaged ++ conflicts⟩
      operation := some ⟨kind, repo.work⟩ })
  | .joined commit => (true, { repo with
      work := { repo.work with head := { repo.work.head with commit := commit } } })

/-- A merge or a rebase does not start while one is in progress. -/
def Repo.join (kind : OperationKind) (outcome : Joining) (repo : Repo) : Bool × Repo :=
  if repo.operation.isSome then (false, repo) else repo.joinFree kind outcome

/-- `git merge --abort` and `git rebase --abort` -/
def Repo.abort (outcome : Outcome) (repo : Repo) : Repo :=
  match outcome, repo.operation with
  | .done, some operation => { repo with work := operation.start, operation := none }
  | _, _ => repo

/-- `git stash apply`, which does not restore the index. -/
def Repo.stashApply (outcome : Outcome) (ref : StashRef) (repo : Repo) : Bool × Repo :=
  match outcome, repo.stash.find? fun entry => entry.ref = ref with
  | .nothing, some _ => (true, repo)
  | .done, some entry => (true, { repo with
      work := { repo.work with
        unstaged := repo.work.unstaged ++ (entry.staged ++ entry.unstaged) }
      applied := repo.applied ++ [ref] })
  | _, _ => (false, repo)

/-- `git stash drop`, by a position in the list -/
def Repo.stashDrop (outcome : Outcome) (position : Nat) (repo : Repo) : Bool × Repo :=
  match outcome, repo.stash[position]? with
  | .nothing, some _ => (true, repo)
  | .done, some entry => (true, { repo with
      stash := repo.stash.eraseIdx position
      dropped := repo.dropped ++ [entry.ref] })
  | _, _ => (false, repo)

inductive SyncError where
  | defaultBranch
  | stashPush
  | stashRef
  | checkout (branch : String)
  | fetch
  | pull
  /-- The context of a restore behind a sync that has succeeded. -/
  | completed
  | notRestored (context : SyncError) (ref : StashRef)
  | stashList
  | missing (ref : StashRef)
  | notDropped (context : SyncError) (ref : StashRef) (position : Nat)
  | both (base restore : SyncError)
deriving DecidableEq

/-- The message has the entry's commit in it. -/
def SyncError.names (ref : StashRef) : SyncError → Bool
  | .notRestored context named => named = ref || context.names ref
  | .missing named => named = ref
  | .notDropped context named _ => named = ref || context.names ref
  | .both base restore => base.names ref || restore.names ref
  | _ => false

/-- What the commands do in one run, and what other worktrees push in between. `otherStatus` is a
status that a stash does not save, such as a changed submodule. -/
structure Commands where
  defaultBranch : Option String
  statuses : Bool
  otherStatus : Bool
  beforePush : List Foreign
  stashPush : Outcome
  beforeRef : List Foreign
  stashRef : Bool
  checkout : Outcome
  commit : Nat
  fetch : Bool
  pull : Joining
  abort : Outcome
  beforeApply : List Foreign
  stashApply : Outcome
  beforeList : List Foreign
  stashList : Bool
  beforeDrop : List Foreign
  stashDrop : Outcome

section
variable (git : Commands)

def hasLocalSourceChanges (repo : Repo) : Bool :=
  git.statuses && (repo.work.changes ≠ [] || git.otherStatus)

/-- The reference is whatever stands first once the push has returned. -/
def createSourceSyncStash (repo : Repo) : Except SyncError (Option StashRef) × Repo :=
  if hasLocalSourceChanges git repo then
    match (repo.othersPush git.beforePush).stashPush git.stashPush with
    | (false, pushed) => (.error .stashPush, pushed)
    | (true, pushed) =>
      let shared := pushed.othersPush git.beforeRef
      match git.stashRef, shared.stash with
      | true, entry :: _ => (.ok (some entry.ref), shared)
      | _, _ => (.error .stashRef, shared)
  else (.ok none, repo)

/-- The position is that of the entry when the list was printed. -/
def restoreSourceSyncStash (ref : StashRef) (context : SyncError) (repo : Repo) :
    Except SyncError Unit × Repo :=
  match (repo.othersPush git.beforeApply).stashApply git.stashApply ref with
  | (false, applied) => (.error (.notRestored context ref), applied)
  | (true, applied) =>
    let listed := applied.othersPush git.beforeList
    if git.stashList then
      match listed.stash.findIdx? fun entry => entry.ref = ref with
      | none => (.error (.missing ref), listed)
      | some position =>
        match (listed.othersPush git.beforeDrop).stashDrop git.stashDrop position with
        | (false, dropped) => (.error (.notDropped context ref position), dropped)
        | (true, dropped) => (.ok (), dropped)
    else (.error .stashList, listed)

/-- The checkout, the fetch and the pull, with the error of the first that fails. -/
def syncBranch (branch : String) (repo : Repo) : Option SyncError × Repo :=
  match repo.checkout git.checkout ⟨branch, git.commit⟩ with
  | (false, switched) => (some (.checkout branch), switched)
  | (true, switched) =>
    if git.fetch then
      match switched.join .rebase git.pull with
      | (false, pulled) => (some .pull, pulled.abort git.abort)
      | (true, pulled) => (none, pulled)
    else (some .fetch, switched)

def refreshSourceRepo (repo : Repo) : Except SyncError Unit × Repo :=
  match git.defaultBranch with
  | none => (.error .defaultBranch, repo)
  | some branch =>
    match createSourceSyncStash git repo with
    | (.error error, created) => (.error error, created)
    | (.ok stashRef, created) =>
      match syncBranch git branch created, stashRef with
      | (some base, synced), some ref =>
        -- `restore_after_error`
        match restoreSourceSyncStash git ref base synced with
        | (.error restore, restored) => (.error (.both base restore), restored)
        | (.ok (), restored) => (.error base, restored)
      | (some base, synced), none => (.error base, synced)
      | (none, synced), some ref => restoreSourceSyncStash git ref .completed synced
      | (none, synced), none => (.ok (), synced)

end

end AiTools.Grove.SourceSync
