import AiTools.Lib.Transition
import AiTools.Whip.Task
import Mathlib.Data.List.Sort

/-!
Contract: the directories of one task id, one file operation at a time.

A directory is a number, since a rename takes the lock file and the temporary files along. The
stats of one search for the task are one step.
-/

namespace AiTools.Whip.TaskFiles

inductive Request where
  | update
  | save (task : Task)
  | prompt

/-- An operation between two of its file operations. `lock` is the directory of the lock
file that it has opened, and `dir` that of its temporary file. -/
inductive Operation where
  | resolved (request : Request) (workspace : String)
  | lockDirMade (request : Request) (workspace : String)
  | lockOpened (request : Request) (lock : Nat)
  | locked (request : Request) (lock : Nat)
  | saving (task : Task) (lock : Nat)
  | writing (task : Task) (lock : Nat)
  | creating (task : Task) (lock : Nat)
  | tempWritten (task : Task) (dir lock : Nat)
  | writingPrompt (workspace : String) (lock : Nat)
  | archiveable
  | archiving (src : String)

/-- `written` is the record that the last finished write left, for the statements alone. -/
structure System where
  workspaces : List String := []
  taskDirs : String → Option Nat := fun _ => none
  archiveDir : Option Nat := none
  records : Nat → Option Task := fun _ => none
  locks : Nat → Option Nat := fun _ => none
  nextDir : Nat := 0
  ops : Nat → Option Operation := fun _ => none
  written : Option Task := none

/-- A store that does not know the id. -/
def System.initial : System := {}

def System.hasRecord (sys : System) (workspace : String) : Bool :=
  ((sys.taskDirs workspace).bind sys.records).isSome

def System.findTaskWorkspace (sys : System) : Option String :=
  (globalWorkspaceName :: sys.workspaces).find? sys.hasRecord

/-- The workspace of `taskDir`. -/
def System.taskDir (sys : System) : String :=
  sys.findTaskWorkspace.getD globalWorkspaceName

def System.loadTaskUnlocked (sys : System) : Option Task :=
  (sys.taskDirs sys.taskDir).bind sys.records

/-- `ensurePrivateDir` of the task's directory in the workspace. -/
def System.ensurePrivateDir (sys : System) (workspace : String) : System :=
  match sys.taskDirs workspace with
  | some _ => sys
  | none =>
    { sys with
      workspaces :=
        if workspace = globalWorkspaceName ∨ workspace ∈ sys.workspaces then
          sys.workspaces
        else sys.workspaces.orderedInsert (· ≤ ·) workspace
      taskDirs := Function.update sys.taskDirs workspace (some sys.nextDir)
      nextDir := sys.nextDir + 1 }

inductive Label where
  | start (op : Nat) (request : Request)
  | archive (op : Nat) (blockedBy : List String)
  | advance (op : Nat)
  | update (op : Nat) (fn : Task → Option Task)
  | abort (op : Nat)

def System.goto (sys : System) (op : Nat) (operation : Operation) : System :=
  { sys with ops := Function.update sys.ops op (some operation) }

/-- The end of an operation, which closes the lock file. -/
def System.finish (sys : System) (op lock : Nat) : System :=
  { sys with
    locks := if sys.locks lock = some op then Function.update sys.locks lock none
      else sys.locks
    ops := Function.update sys.ops op none }

/-- The lock file that the operation has open. -/
def Operation.lock? : Operation → Option Nat
  | .lockOpened _ lock => some lock
  | .locked _ lock => some lock
  | .saving _ lock => some lock
  | .writing _ lock => some lock
  | .creating _ lock => some lock
  | .tempWritten _ _ lock => some lock
  | .writingPrompt _ lock => some lock
  | _ => none

/-- The next file operation. `none` where it fails or waits. -/
def System.advance (sys : System) (op : Nat) : Operation → Option System
  | .resolved request workspace =>
    some ((sys.ensurePrivateDir workspace).goto op (.lockDirMade request workspace))
  | .lockDirMade request workspace =>
    (sys.taskDirs workspace).map fun dir => sys.goto op (.lockOpened request dir)
  | .lockOpened request lock =>
    match sys.locks lock with
    | some _ => none
    | none => some ({ sys with locks := Function.update sys.locks lock (some op) }.goto op
        (.locked request lock))
  | .locked (.save task) lock => some (sys.goto op (.saving task lock))
  | .locked .prompt lock => some (sys.goto op (.writingPrompt sys.taskDir lock))
  | .locked .update _ => none
  -- `saveTaskUnlocked` makes the directory, and `atomicWriteFile` makes it once more.
  | .saving task lock =>
    some ((sys.ensurePrivateDir task.workspace).goto op (.writing task lock))
  | .writing task lock =>
    some ((sys.ensurePrivateDir task.workspace).goto op (.creating task lock))
  | .creating task lock =>
    (sys.taskDirs task.workspace).map fun dir => sys.goto op (.tempWritten task dir lock)
  -- The temporary file is there under its path as long as its directory is.
  | .tempWritten task dir lock =>
    if sys.taskDirs task.workspace = some dir then
      some ({ sys with
        records := Function.update sys.records dir (some task)
        written := some task }.finish op lock)
    else none
  | .writingPrompt workspace lock => some ((sys.ensurePrivateDir workspace).finish op lock)
  | .archiveable => some (sys.goto op (.archiving sys.taskDir))
  -- The rename of `archiveTask` takes no lock. A directory with files is not replaced.
  | .archiving src =>
    match sys.taskDirs src, sys.archiveDir with
    | some dir, none => some { sys with
        taskDirs := Function.update sys.taskDirs src none
        archiveDir := some dir
        ops := Function.update sys.ops op none }
    | _, _ => none

def step (sys : System) : Label → Option System
  | .start op request =>
    match sys.ops op, request with
    | none, .save task => some (sys.goto op (.resolved request task.workspace))
    | none, _ => some (sys.goto op (.resolved request sys.taskDir))
    | some _, _ => none
  | .archive op blockedBy =>
    match sys.ops op, sys.loadTaskUnlocked with
    | none, some task =>
      if task.status.isTerminal ∧ blockedBy = [] then some (sys.goto op .archiveable)
      else none
    | _, _ => none
  | .advance op => (sys.ops op).bind (sys.advance op)
  | .update op fn =>
    match sys.ops op with
    | some (.locked .update lock) =>
      (sys.loadTaskUnlocked.bind fn).map fun task => sys.goto op (.saving task lock)
    | _ => none
  | .abort op =>
    match sys.ops op with
    | some operation =>
      match operation.lock? with
      | some lock => some (sys.finish op lock)
      | none => some { sys with ops := Function.update sys.ops op none }
    | none => none

end AiTools.Whip.TaskFiles
