import AiTools.Lib.Effect
import Mathlib.Data.List.Infix

/-!
Contract: the synchronisation of a vault's repository, git command by git command.

Others push on top of the remote. A commit that is rebased stays the commit that it was.
-/

namespace AiTools.Vaultkey.Sync

open AiTools.Lib.Effect

/-- A commit of this machine from before the call, a commit of another machine, or the commit of
an attempt of the call. -/
inductive Commit where
  | mine (id : Nat)
  | theirs (id : Nat)
  | made (attempt : Nat)
deriving DecidableEq

/-- `conflict` is that of a rebase. A push that is `lost` has reached the remote, and is reported
as failed. -/
inductive Outcome where
  | ok
  | fail
  | conflict
  | lost
deriving DecidableEq

/-- What others push just before a command, and how the command goes. -/
structure Happening where
  pushed : List Nat
  outcome : Outcome

/-- How the load of the vault and the operation go, and whether the vault's file then differs
from the committed one. -/
structure Operation where
  succeeds : Bool
  dirty : Bool

/-- The happenings by the number of the command, the operations by that of the attempt. -/
structure Env where
  git : Nat → Happening
  op : Nat → Operation

/-- `tracking` is the upstream as last fetched, none without an upstream. `dirty` says that the
vault's file differs from the committed one, `clock` counts the commands. -/
structure Repo where
  head : List Commit
  tracking : Option (List Commit)
  remote : List Commit
  dirty : Bool
  clock : Nat

inductive SyncError where
  | conflict
  | git (operation : String)
  | op

abbrev Action := EStateM SyncError Repo

/-- The commits that the upstream does not have. -/
def Repo.ahead (repo : Repo) (upstream : List Commit) : List Commit :=
  repo.head.filter (· ∉ upstream)

/-- The local commits on top of the remote. -/
def Repo.rebased (repo : Repo) : Repo :=
  { repo with
    head := repo.remote ++ repo.ahead repo.remote
    tracking := some repo.remote }

variable (env : Env)

/-- What the next command finds. -/
def Repo.atCommand (repo : Repo) : Repo :=
  { repo with
    remote := repo.remote ++ (env.git repo.clock).pushed.map .theirs
    clock := repo.clock + 1 }

def happen : Action Outcome := fun repo => .ok (env.git repo.clock).outcome (repo.atCommand env)

/-- `git pull --rebase`, and `git rebase --abort` after a conflict. -/
def gitPull : Action Unit := do
  let outcome ← happen env
  let repo ← get
  if repo.tracking = none ∨ repo.dirty then throw (.git "git pull")
  else
    match outcome with
    | .ok => set repo.rebased
    | .conflict =>
      -- There are commits to replay, and something new to replay them on.
      if repo.ahead repo.remote = [] ∨ repo.remote <+: repo.head then set repo.rebased
      else do
        set { repo with tracking := some repo.remote }
        throw .conflict
    | _ => throw (.git "git pull")

def aheadCount : Action Nat := do
  let repo ← get
  match repo.tracking with
  | none => return 0
  | some upstream => return (repo.ahead upstream).length

def resetToUpstream : Action Unit := do
  if (← happen env) ≠ .ok then throw (.git "git fetch")
  modify fun repo => { repo with tracking := repo.tracking.map fun _ => repo.remote }
  if (← happen env) ≠ .ok then throw (.git "git reset")
  let repo ← get
  match repo.tracking with
  | none => throw (.git "git reset")
  | some upstream => set { repo with head := upstream, dirty := false }

/-- `git add` and, when that stages anything, `git commit`. -/
def commitStaged (attempt : Nat) : Action Unit := do
  if (← happen env) ≠ .ok then throw (.git "git add")
  if (← get).dirty then
    if (← happen env) ≠ .ok then throw (.git "git commit")
    modify fun repo => { repo with head := repo.head ++ [.made attempt], dirty := false }

/-- `git push -u origin HEAD`, which the remote takes only on top of what it has. -/
def pushHead : Action Bool := do
  let outcome ← happen env
  let repo ← get
  if repo.remote <+: repo.head then
    match outcome with
    | .ok =>
      set { repo with remote := repo.head, tracking := some repo.head }
      return true
    | .lost =>
      set { repo with remote := repo.head }
      return false
    | _ => return false
  else return false

def pushLoop : Nat → Action Unit
  | 0 => throw (.git "git push")
  | left + 1 => do
    if (← pushHead env) then pure ()
    else
      if (← get).tracking.isSome then gitPull env
      pushLoop left

def gitSync (attempt : Nat) : Action Unit := do
  commitStaged env attempt
  if (← get).tracking.isSome then
    gitPull env
    if (← aheadCount) = 0 then pure () else pushLoop env 3
  else pushLoop env 3

/-- `LoadVault` and the operation. -/
def runOp (attempt : Nat) : Action Unit := do
  modify fun repo => { repo with dirty := (env.op attempt).dirty }
  if !(env.op attempt).succeeds then throw .op

/-- The first pull, whose other failures are left to the sync. -/
def pullFirst : Action Unit := do
  match ← caught (gitPull env) with
  | .error .conflict => throw .conflict
  | _ => pure ()

/-- Drops the commit that the attempt has just made. -/
def recover : Action Unit := do
  if (← aheadCount) ≠ 1 then throw .conflict
  resetToUpstream env

/-- The loop, with how many attempts are left. It yields the attempt that was synced. -/
def attempts : Nat → Nat → Action Nat
  | _, 0 => throw .conflict
  | attempt, left + 1 => do
    runOp env attempt
    match ← caught (gitSync env attempt) with
    | .ok _ => return attempt
    | .error .conflict =>
      recover env
      attempts (attempt + 1) left
    | .error error => throw error

def syncMutation : Action Nat := do
  pullFirst env
  attempts env 0 2

end AiTools.Vaultkey.Sync
