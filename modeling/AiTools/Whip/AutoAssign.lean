import AiTools.Whip.StoreCommands
import Mathlib.Logic.Function.Basic

/-!
Contract: the `complete` commands of several processes, each with the assignment of the
dependents of what it completed.

Of the other commands there are only the updates of records. Files can be read and written, and
spawns succeed. The name that a task reports to, times and sessions are given with the step.
-/

namespace AiTools.Whip.AutoAssign

/-- Where a `complete` is. `completing`, `reserving` and `recording` hold the lock of the
task that they have loaded. `listing` reads the records for `GetDependents`, `checking` and
`reserving` those for `AreDependenciesMet`; `rest` are the dependents still to come. -/
inductive Stage where
  | completing (loaded : Task)
  | listing (unread : List String) (seen : List Task)
  | walking (rest : List Task)
  | checking (dep : Task) (unread unmet : List String) (rest : List Task)
  | reserving (loaded : Task) (unread unmet : List String) (rest : List Task)
  | prompting (id : String) (rest : List Task)
  | spawning (id : String) (rest : List Task)
  | recording (loaded : Task) (rest : List Task)
  | done

structure Process where
  completes : String
  source : LaunchSource
  note : String
  stage : Stage

/-- `locks` are the holders of the lock files of the tasks. -/
structure System where
  store : Store
  locks : String → Option Nat
  procs : Nat → Option Process

def System.initial (store : Store) : System := ⟨store, fun _ => none, fun _ => none⟩

/-- `masterIRC` is the name that `resolveTaskMasterIRC` yields. -/
structure Given where
  now : Time
  masterIRC : String
  runner : String
  sessionID : String

inductive Label where
  | complete (process : Nat) (id : String) (source : LaunchSource) (note : String)
  | advance (process : Nat) (given : Given)
  | update (record : Task)

/-- A dependency that `AreDependenciesMet` finds not completed. -/
def isUnmet (store : Store) (id : String) : Bool :=
  match store.findTask id with
  | none => false
  | some dep => dep.status ≠ .completed

/-- The entries of the directories that `ListTasks` goes through. -/
def listedIDs (store : Store) : List String := store.workspaceNames.flatMap store.taskIDs

/-- The end of `UpdateTask`: the record is saved, unless the update or the check of the
workspaces has failed. -/
def save (store : Store) (updated : Except String Task) : Option (Task × Store) :=
  match updated with
  | .error _ => none
  | .ok task =>
    match store.validateTaskDependencyWorkspaces task with
    | .error _ => none
    | .ok _ => some (task, store.putTask task)

namespace System

def goto (sys : System) (process : Nat) (proc : Process) (stage : Stage) : System :=
  { sys with procs := Function.update sys.procs process (some { proc with stage := stage }) }

def unlock (sys : System) (id : String) : System :=
  { sys with locks := Function.update sys.locks id none }

/-- `UpdateTask` up to its load: none while the lock is held. Without a record the update
fails, and the process goes on with `missing`. -/
def load (sys : System) (process : Nat) (proc : Process) (id : String)
    (loaded : Task → Stage) (missing : Stage) : Option System :=
  match sys.store.findTask id, sys.locks id with
  | none, _ => some (sys.goto process proc missing)
  | some _, some _ => none
  | some task, none =>
    some ({ sys with locks := Function.update sys.locks id (some process) }.goto process
      proc (loaded task))

/-- The save of what was loaded, and the release of the lock. -/
def finish (sys : System) (process : Nat) (proc : Process) (id : String)
    (updated : Except String Task) (saved : Task → Store → Stage) (failed : Stage) : System :=
  match save sys.store updated with
  | none => (sys.unlock id).goto process proc failed
  | some (task, store) =>
    ({ sys with store := store }.unlock id).goto process proc (saved task store)

/-- `AutoAssignDependents` names itself to `AssignTask`. -/
def autoAssign : LaunchSource := ⟨"auto", "auto-assign"⟩

def advance (sys : System) (process : Nat) (proc : Process) (given : Given) : Option System :=
  match proc.stage with
  | .completing loaded =>
    some (sys.finish process proc loaded.id
      (completeTask loaded proc.source proc.note given.now)
      (fun _ store => .listing (listedIDs store) []) .done)
  | .listing (id :: unread) seen =>
    some (sys.goto process proc
      (.listing unread (seen ++ (sys.store.findTask id).toList)))
  | .listing [] seen =>
    some (sys.goto process proc
      (.walking ((byCreation seen).filter fun task => proc.completes ∈ task.dependsOn)))
  | .walking [] => some (sys.goto process proc .done)
  | .walking (dep :: rest) =>
    if dep.status = .created then
      some (sys.goto process proc (.checking dep dep.dependsOn [] rest))
    else some (sys.goto process proc (.walking rest))
  | .checking dep (id :: unread) unmet rest =>
    some (sys.goto process proc (.checking dep unread
      (if isUnmet sys.store id then unmet ++ [id] else unmet) rest))
  | .checking dep [] [] rest =>
    sys.load process proc dep.id (fun task => .reserving task task.dependsOn [] rest)
      (.walking rest)
  | .checking _ [] (_ :: _) rest => some (sys.goto process proc (.walking rest))
  | .reserving loaded (id :: unread) unmet rest =>
    some (sys.goto process proc (.reserving loaded unread
      (if isUnmet sys.store id then unmet ++ [id] else unmet) rest))
  | .reserving loaded [] unmet rest =>
    some (sys.finish process proc loaded.id
      (reserveTask loaded autoAssign unmet given.masterIRC given.now)
      (fun task _ => .prompting task.id rest) (.walking rest))
  -- `SavePrompt` holds the lock for the write alone.
  | .prompting id rest =>
    match sys.locks id with
    | some _ => none
    | none => some (sys.goto process proc (.spawning id rest))
  | .spawning id rest => sys.load process proc id (.recording · rest) (.walking rest)
  | .recording loaded rest =>
    some (sys.finish process proc loaded.id
      (.ok (spawnedTask loaded autoAssign given.runner given.sessionID given.now))
      (fun _ _ => .walking rest) (.walking rest))
  | .done => none

end System

def step (sys : System) : Label → Option System
  | .complete process id source note =>
    match sys.procs process with
    | some _ => none
    | none => sys.load process ⟨id, source, note, .done⟩ id .completing .done
  | .advance process given =>
    match sys.procs process with
    | none => none
    | some proc => sys.advance process proc given
  -- The `UpdateTask` of another command, from its lock to its release. Only `complete` completes.
  | .update record =>
    match sys.store.findTask record.id, sys.locks record.id with
    | some before, none =>
      if record.path = before.path ∧ (record.status = .completed → before.status = .completed)
      then (save sys.store (.ok record)).map fun saved => { sys with store := saved.2 }
      else none
    | _, _ => none

/-- No other command touches the task. -/
def Spares (task : Task) (_ : System) (label : Label) : Prop :=
  ∀ record, label = .update record → record.id ≠ task.id

/-- Every process that was started has ended. -/
def System.Finished (sys : System) : Prop :=
  ∀ process proc, sys.procs process = some proc → proc.stage = .done

/-- How often the task was assigned. -/
def assignments (task : Task) : Nat := task.events.countP (·.action = "assigned")

end AiTools.Whip.AutoAssign
