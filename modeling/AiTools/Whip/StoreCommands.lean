import AiTools.Lib.Effect
import AiTools.Whip.Store

/-!
Contract: the commands on the task store, each from its start to its end.

A command that fails keeps what it has written by then. The ids and names of a command are those
that its arguments resolve to; times, sessions and the error text of the operating system are given
with the command.
-/

namespace AiTools.Whip

open AiTools.Lib.Keyed AiTools.Lib.Effect

/-- `saveTask` is numbered within its command. -/
inductive Io where
  | saveTask (id : String) (update : Nat)
  | savePrompt (id : String)
  | spawn (id : String)
  | stopSession (id : String)
  | bindWorkspace (name : String)
  | saveWorkspace (name : String)
  | renameTask (id : String)
  | saveIndex (id : String)
  | removeArchived (id : String)
  | releaseWorktree (name : String)
  | removeWorkspace (name : String)

structure Spawned where
  runner : String
  sessionID : String

structure Env where
  fails : Io → Bool
  osError : String
  now : String → Nat → Time
  spawned : String → Spawned
  stopErr : String → Option String
  shellPID : Int
  defaultMasterIRCName : String
  worktreePath : String

/-- Nothing fails outside the program. -/
def quietEnv : Env where
  fails := fun _ => false
  osError := ""
  now := fun _ _ => 0
  spawned := fun _ => ⟨"tmux", ""⟩
  stopErr := fun _ => none
  shellPID := 1
  defaultMasterIRCName := "wp-master"
  worktreePath := ""

abbrev Action := EStateM String Store

def Env.attempt (env : Env) (io : Io) : Action Unit := require (env.fails io = false) env.osError

@[simp] theorem after_attempt {env : Env} {io : Io} {post : Unit → Store → Prop}
    {fails : Store → Prop} {store : Store} :
    After (env.attempt io) post fails store ↔
      (env.fails io = false → post () store) ∧ (env.fails io = true → fails store) := by
  unfold Env.attempt
  rw [after_require, Bool.not_eq_false]

/-! ## Writes -/

namespace Store

def putTask (store : Store) (task : Task) : Store := { store with tasks := store.tasks.put task }

def putWorkspace (store : Store) (workspace : Workspace) : Store :=
  { store with workspaces := store.workspaces.put workspace.marshaled }

/-- The rename of the directory of an active task. -/
def moveToArchive (store : Store) (task : Task) : Store :=
  { store with
    tasks := store.tasks.remove task.path
    archive := store.archive.put task }

def removeArchived (store : Store) (id : String) : Store :=
  { store with archive := store.archive.remove id }

/-- `RemoveAll` of the directory of a workspace, with the tasks in it. -/
def removeWorkspaceDir (store : Store) (name : String) : Store :=
  { store with
    tasks := store.tasks.filter fun task => task.workspace ≠ name
    workspaces := store.workspaces.remove name }

variable {store : Store}

theorem workspaceNames_putTask {before after : Task} (isEntry : before ∈ store.tasks.entries)
    (samePath : after.path = before.path) :
    (store.putTask after).workspaceNames = store.workspaceNames := by
  have sameMembers : ∀ name, name ∈ (store.putTask after).tasks.entries.map Task.workspace ↔
      name ∈ store.tasks.entries.map Task.workspace := by
    intro name
    have sameWorkspace : after.workspace = before.workspace := congrArg Prod.fst samePath
    simp only [List.mem_map]
    constructor
    · rintro ⟨task, isTask, isName⟩
      rcases Table.mem_put.mp isTask with isNew | ⟨isOld, _⟩
      · rw [isNew, sameWorkspace] at isName
        exact ⟨before, isEntry, isName⟩
      · exact ⟨task, isOld, isName⟩
    · rintro ⟨task, isTask, isName⟩
      by_cases isBefore : task.path = after.path
      · refine ⟨after, Table.mem_put.mpr (.inl rfl), ?_⟩
        rw [← isName]
        exact (congrArg Prod.fst isBefore).symm
      · exact ⟨task, Table.mem_put.mpr (.inr ⟨isTask, isBefore⟩), isName⟩
  unfold workspaceNames
  congr 1
  refine List.Perm.eq_of_pairwise (fun _ _ _ _ => le_antisymm)
    (List.pairwise_insertionSort _ _) (List.pairwise_insertionSort _ _) ?_
  refine (List.perm_insertionSort _ _).trans (.trans ?_ (List.perm_insertionSort _ _).symm)
  rw [List.perm_ext_iff_of_nodup (List.nodup_dedup _) (List.nodup_dedup _)]
  intro name
  have sameWorkspaces : (store.putTask after).workspaces = store.workspaces := rfl
  rw [List.mem_dedup, List.mem_dedup, List.mem_filter, List.mem_filter, List.mem_append,
    List.mem_append, sameMembers, sameWorkspaces]

/-- A record that is written over another is found in its place, and every other id where it
was. -/
theorem findTask_putTask {before after : Task} (isFound : store.findTask after.id = some before)
    (samePath : after.path = before.path) (id : String) :
    (store.putTask after).findTask id = if id = after.id then some after else store.findTask id := by
  have isEntry := (findTask_mem isFound).1
  have lookup : ∀ path, (store.putTask after).tasks.find? path =
      if after.path = path then some after else store.tasks.find? path :=
    Table.find?_put store.tasks after
  have isBefore : store.tasks.find? after.path = some before :=
    Table.find?_eq_some_iff.mpr ⟨isEntry, samePath.symm⟩
  have sameSearch : (store.putTask after).findTaskWorkspace id = store.findTaskWorkspace id := by
    unfold findTaskWorkspace
    rw [workspaceNames_putTask isEntry samePath]
    congr 1
    funext workspace
    rw [lookup]
    split_ifs with isAfter
    · rw [← isAfter, isBefore]
      rfl
    · rfl
  unfold findTask
  rw [sameSearch]
  split_ifs with isAfter
  · unfold findTask at isFound
    rw [← isAfter] at isFound
    obtain ⟨workspace, isWorkspace, isRecord⟩ := Option.bind_eq_some_iff.mp isFound
    have samePlace : after.path = (workspace, id) :=
      samePath.trans (Table.find?_eq_some_iff.mp isRecord).2
    rw [isWorkspace, Option.bind_some, lookup, if_pos samePlace]
  · congr 1
    funext workspace
    rw [lookup, if_neg]
    intro samePlace
    exact isAfter (congrArg Prod.snd samePlace).symm

def saveTask (env : Env) (update : Nat) (task : Task) : Action Unit := do
  let store ← get
  lift (store.validateTaskDependencyWorkspaces task)
  env.attempt (.saveTask task.id update)
  modify fun store => store.putTask task

def updateTask (env : Env) (update : Nat) (id : String) (fn : Task → Except String Task) :
    Action Task := do
  let store ← get
  let task ← lift (store.loadTask id)
  let updated ← lift (fn task)
  saveTask env update updated
  return updated

theorem after_saveTask (env : Env) (update : Nat) (task : Task) (store : Store) :
    After (saveTask env update task) (fun _ next => next = store.putTask task)
      (fun next => next = store) store := by
  unfold saveTask
  simp only [after_bind, after_get]
  refine after_lift ?_ rfl
  intro _ _
  simp

theorem after_updateTask (env : Env) (update : Nat) (id : String)
    (fn : Task → Except String Task) (store : Store) :
    After (updateTask env update id fn)
      (fun updated next => next = store.putTask updated ∧
        ∃ before, store.findTask id = some before ∧ fn before = .ok updated)
      (fun next => next = store) store := by
  unfold updateTask
  simp only [after_bind, after_get]
  refine after_lift ?_ rfl
  intro before isLoaded
  refine after_lift ?_ rfl
  intro updated isUpdated
  refine (after_saveTask env update updated store).mono ?_ (fun _ same => same)
  intro _ next isNext
  exact ⟨isNext, before, loadTask_eq_ok isLoaded, isUpdated⟩

/-- `loadOrInitWorkspace`. -/
def loadOrInitWorkspace (store : Store) (name : String) : Workspace :=
  (store.workspaces.find? name).getD ⟨name, .active, some [], ""⟩

/-- With the outcome of the binding to a directory or a git worktree. -/
def ensureWorkspace (env : Env) (name : String) : Action Unit :=
  if name = globalWorkspaceName then pure ()
  else do
    let store ← get
    let workspace := store.loadOrInitWorkspace name
    require (workspace.status ≠ .archived)
      ("workspace " ++ name ++ " is archived; delete it before reusing the name")
    env.attempt (.bindWorkspace name)
    env.attempt (.saveWorkspace name)
    modify fun store => store.putWorkspace { workspace with worktreePath := env.worktreePath }

end Store

/-- What `create` is given. -/
structure NewTask where
  id : String
  title : String
  type : String
  workspace : String
  role : String
  backend : String
  review : Bool

/-- `NewTask`, and what `create` sets. A lead task is always gated by a review. -/
def NewTask.task (spec : NewTask) (now : Time) : Task where
  id := spec.id
  title := spec.title
  type := spec.type
  workspace := spec.workspace
  status := .created
  backend := spec.backend
  review := spec.review || spec.role = taskRoleLead
  role := spec.role
  createdAt := now
  updatedAt := now
  events := [⟨now, "cli", "create", "created", none, .created, spec.title⟩]

namespace Store

def createTask (env : Env) (spec : NewTask) : Action Unit := do
  require (spec.role = "" ∨ spec.role = taskRoleLead)
    ("invalid role \"" ++ spec.role ++ "\": must be \"lead\" or omitted")
  require (spec.role = taskRoleLead → spec.workspace ≠ globalWorkspaceName)
    "--role lead requires a named workspace (use --workspace)"
  ensureWorkspace env spec.workspace
  let store ← get
  require (spec.role = taskRoleLead → store.findWorkspaceLead spec.workspace = none)
    ("workspace \"" ++ spec.workspace ++ "\" already has an active lead task")
  saveTask env 0 (spec.task (env.now spec.id 0))

def depTask (env : Env) (id : String) (after : List String) : Action Unit := do
  require (after ≠ []) "at least one --after flag required"
  let store ← get
  let task ← lift (store.loadTask id)
  lift (after.forM fun depID => store.checkDependency task depID)
  saveTask env 0 (addDependencies task after (env.now id 0))

def workspaceMasterIRCName (workspace : String) : String :=
  if workspace = globalWorkspaceName then "wp-master" else "wp-master-" ++ workspace

/-- The name of the workspace's active lead, for a task that is not one itself. -/
def leadIRCName (store : Store) (task : Task) : Option String :=
  if task.role = taskRoleLead then none
  else
    ((store.findWorkspaceLead task.workspace).map Task.ircName).filter fun ircName => ircName ≠ ""

def resolveTaskMasterIRC (store : Store) (task : Task) (masterIRC : String) : String :=
  if trimSpace masterIRC ≠ "" then trimSpace masterIRC
  else (store.leadIRCName task).getD (workspaceMasterIRCName task.workspace)

/-- The first update of `AssignTask`. -/
def reserve (env : Env) (id : String) (source : LaunchSource) (masterIRC : String) :
    Action Task := do
  let store ← get
  updateTask env 0 id fun task =>
    reserveTask task source (store.areDependenciesMet task).2
      (store.resolveTaskMasterIRC task masterIRC) (env.now id 0)

/-- `AssignTask` once the task is reserved. -/
def finalizeAssignedTaskSpawn (env : Env) (id : String) (source : LaunchSource)
    (prev : TaskRuntimeSnapshot) : Action Task :=
  if env.fails (.savePrompt id) then do
    let _ ← ignoring (updateTask env 1 id fun task =>
      .ok (promptFailed task source prev (env.now id 1)))
    throw env.osError
  else if env.fails (.spawn id) then do
    let _ ← ignoring (updateTask env 1 id fun task =>
      .ok (spawnFailed task source prev env.osError (env.now id 1)))
    throw ("failed to spawn session: " ++ env.osError)
  else
    updateTask env 1 id fun task =>
      .ok (spawnedTask task source (env.spawned id).runner (env.spawned id).sessionID
        (env.now id 1))

def assignTask (env : Env) (id : String) (source : LaunchSource) (masterIRC : String) :
    Action Task := do
  let store ← get
  let before ← lift (store.loadTask id)
  let _ ← reserve env id source masterIRC
  finalizeAssignedTaskSpawn env id source (captureTaskRuntimeSnapshot before)

/-- The name that `AutoAssignDependents` passes on. -/
def autoMasterIRC (store : Store) (env : Env) (dep : Task) : String :=
  (store.leadIRCName dep).getD
    (if dep.workspace = globalWorkspaceName then env.defaultMasterIRCName
    else workspaceMasterIRCName dep.workspace)

def autoAssign (env : Env) (dep : Task) : Action Unit := do
  let store ← get
  if dep.status = .created ∧ (store.areDependenciesMet dep).1 then
    let _ ← ignoring (assignTask env dep.id ⟨"auto", "auto-assign"⟩ (store.autoMasterIRC env dep))

def autoAssignDependents (env : Env) (completedID : String) : Action Unit := do
  let store ← get
  (store.getDependents completedID).forM fun dep => autoAssign env dep

def startTask (env : Env) (id : String) (source : LaunchSource) (note : String) : Action Task :=
  updateTask env 0 id fun task => Whip.startTask task source env.shellPID note (env.now id 0)

def reviewTask (env : Env) (id : String) (source : LaunchSource) (note : String) : Action Task :=
  updateTask env 0 id fun task => Whip.reviewTask task source note (env.now id 0)

def requestChangesTask (env : Env) (id : String) (source : LaunchSource) (note : String) :
    Action Task :=
  updateTask env 0 id fun task => Whip.requestChangesTask task source note (env.now id 0)

def approveTask (env : Env) (id : String) (source : LaunchSource) (note : String) : Action Task :=
  updateTask env 0 id fun task => Whip.approveTask task source note (env.now id 0)

def completeTask (env : Env) (id : String) (source : LaunchSource) (note : String) :
    Action Task :=
  updateTask env 0 id fun task => Whip.completeTask task source note (env.now id 0)

def failTask (env : Env) (id : String) (source : LaunchSource) (note : String) : Action Task := do
  let _ ← updateTask env 0 id fun task => Whip.failTask task source note (env.now id 0)
  updateTask env 1 id fun task =>
    .ok (clearedTask task source (env.stopErr id) "task session stopped after failure"
      (env.now id 1))

def cancelTask (env : Env) (id : String) (source : LaunchSource) (note : String) :
    Action Task := do
  let _ ← updateTask env 0 id fun task => Whip.cancelTask task source note (env.now id 0)
  updateTask env 1 id fun task =>
    .ok (clearedTask task source (env.stopErr id) "task session stopped after cancel"
      (env.now id 1))

def addTaskNote (env : Env) (id : String) (source : LaunchSource) (note : String) : Action Task :=
  updateTask env 0 id fun task => Whip.addTaskNote task source note (env.now id 0)

def changeTaskType (env : Env) (id newType : String) : Action Task :=
  updateTask env 0 id fun task => .ok (Whip.changeTaskType task newType (env.now id 0))

/-! ## The archive -/

/-- The directory of the task is renamed into the archive, where it must be the first of
its name. -/
def archiveTask (env : Env) (id : String) : Action Unit := do
  let store ← get
  let task ← lift (ofOption env.osError (store.findTask id))
  require (store.archive.find? id = none) env.osError
  env.attempt (.renameTask id)
  modify fun store => store.moveToArchive task

/-- The record that `appendArchivedTaskToWorkspace` saves, when it saves one. -/
def withArchivedTask (store : Store) (task : Task) : Option Workspace :=
  if task.workspace = globalWorkspaceName then none
  else
    match store.workspaces.find? task.workspace with
    | none => none
    | some workspace =>
      let ids := workspace.archivedTaskIDs.getD []
      if task.id ∈ ids then none
      else some { workspace with archivedTaskIDs := some (ids ++ [task.id]) }

/-- The record that `removeArchivedTaskFromWorkspace` saves, when it saves one. -/
def withoutArchivedTask (store : Store) (task : Task) : Option Workspace :=
  if task.workspace = globalWorkspaceName then none
  else
    match store.workspaces.find? task.workspace with
    | none => none
    | some workspace =>
      match workspace.archivedTaskIDs with
      | none => none
      | some ids =>
        if task.id ∈ ids then
          some { workspace with archivedTaskIDs := some (ids.filter (· ≠ task.id)) }
        else none

def saveIndex (env : Env) (id : String) (record : Option Workspace) : Action Unit :=
  match record with
  | none => pure ()
  | some workspace => do
    env.attempt (.saveIndex id)
    modify fun store => store.putWorkspace workspace

def appendArchivedTaskToWorkspace (env : Env) (task : Task) : Action Unit := do
  let store ← get
  saveIndex env task.id (store.withArchivedTask task)

def removeArchivedTaskFromWorkspace (env : Env) (task : Task) : Action Unit := do
  let store ← get
  saveIndex env task.id (store.withoutArchivedTask task)

theorem after_archiveTask (env : Env) (id : String) (store : Store) : After (archiveTask env id)
      (fun _ next => ∃ task, store.findTask id = some task ∧ store.archive.find? id = none ∧
        next = store.moveToArchive task)
      (fun next => next = store) store := by
  unfold archiveTask
  simp only [after_bind, after_get]
  refine after_lift ?_ rfl
  intro task isFound
  simp only [after_require, after_attempt, after_modify]
  exact ⟨fun isFree => ⟨fun _ => ⟨task, ofOption_eq_ok isFound, isFree, rfl⟩, fun _ => trivial⟩,
    fun _ => trivial⟩

theorem after_saveIndex (env : Env) (id : String) (record : Option Workspace) (store : Store) :
    After (saveIndex env id record)
      (fun _ next => (record = none ∧ next = store) ∨
        ∃ workspace, record = some workspace ∧ env.fails (.saveIndex id) = false ∧
          next = store.putWorkspace workspace)
      (fun next => next = store ∧ record ≠ none ∧ env.fails (.saveIndex id) = true) store := by
  cases record with
  | none => exact .inl ⟨rfl, rfl⟩
  | some workspace =>
    unfold saveIndex
    simp only [after_bind, after_attempt, after_modify]
    exact ⟨fun isOk => .inr ⟨workspace, rfl, isOk, rfl⟩, fun failed => ⟨trivial, by simp, failed⟩⟩

/-- `ArchiveTask`: moves a single archiveable active task to the archive. -/
def archiveSingleTask (env : Env) (id : String) : Action Unit := do
  let store ← get
  let task ← lift (store.loadTask id)
  lift (archiveabilityError task (archiveDependencyBlockers store.listTasks))
  archiveTask env id
  appendArchivedTaskToWorkspace env task

/-- The tasks that `ArchiveTerminal` archives: those of a named workspace stay. -/
def archiveableTasks (store : Store) : List Task :=
  store.listTasks.filter fun task =>
    (taskArchiveability task (archiveDependencyBlockers store.listTasks)).1 ∧
      task.workspace = globalWorkspaceName

def archiveTerminal (env : Env) : Action Nat := do
  let store ← get
  store.archiveableTasks.forM fun task => do
    archiveTask env task.id
    appendArchivedTaskToWorkspace env task
  return store.archiveableTasks.length

def teardownTaskRuntimeForArchive (env : Env) (id : String) : Action Unit := do
  let store ← get
  let _ ← lift (store.loadTask id)
  env.attempt (.stopSession id)
  let _ ← updateTask env 0 id fun task =>
    .ok (clearedTask task ⟨"system", "workspace archive"⟩ none "workspace archive teardown"
      (env.now id 0))

/-- The checks of `ArchiveWorkspace`, up to the first write. -/
def checkArchiveWorkspace (store : Store) (name : String) : Except String Workspace := do
  demand (name ≠ globalWorkspaceName) "global is not a named workspace"
  let workspace ← store.loadWorkspace name
  demand (workspace.status ≠ .archived) ("workspace " ++ name ++ " is already archived")
  store.validateWorkspaceDependencyBoundary name
  validateWorkspaceTerminalTasks name (store.listTasksInWorkspace name)
  (store.listTasksInWorkspace name).forM fun task =>
    (archiveabilityError task (archiveDependencyBlockers store.listTasks)).mapError fun err =>
      "workspace " ++ name ++ " cannot be archived: " ++ err
  return workspace

def archiveWorkspaceTask (env : Env) (task : Task) : Action Unit := do
  teardownTaskRuntimeForArchive env task.id
  archiveTask env task.id
  appendArchivedTaskToWorkspace env task

/-- With the outcome of the check, the auto-save and the removal of the worktree. -/
def archiveWorkspace (env : Env) (name : String) : Action Nat := do
  let store ← get
  let workspace ← lift (store.checkArchiveWorkspace name)
  (store.listTasksInWorkspace name).forM fun task => archiveWorkspaceTask env task
  require (workspace.worktreePath ≠ "" → env.fails (.releaseWorktree name) = false) env.osError
  env.attempt (.saveWorkspace name)
  -- The record that was loaded before the tasks were archived, its index included.
  modify fun store => store.putWorkspace { workspace with status := .archived, worktreePath := "" }
  return (store.listTasksInWorkspace name).length

/-- The checks of `DeleteArchivedTask`. -/
def checkDeleteArchivedTask (store : Store) (id : String) : Except String Task :=
  match store.archive.find? id with
  | none =>
    match store.findTask id with
    | some _ => .error ("task " ++ id ++ " is active; archive it before deleting")
    | none => .error ("archived task " ++ id ++ " not found")
  | some task =>
    match store.workspaces.find? task.workspace with
    | none => .ok task
    | some workspace =>
      if task.workspace ≠ globalWorkspaceName ∧ workspace.status ≠ .archived then
        .error ("task " ++ id ++ " belongs to active workspace " ++ task.workspace ++
          "; archive the workspace before deleting its archived tasks")
      else .ok task

def deleteArchivedTask (env : Env) (id : String) : Action Unit := do
  let store ← get
  let task ← lift (store.checkDeleteArchivedTask id)
  env.attempt (.removeArchived id)
  modify fun store => store.removeArchived id
  removeArchivedTaskFromWorkspace env task

/-- The checks of `DeleteArchivedWorkspace`, and the archived tasks that it deletes. -/
def checkDeleteArchivedWorkspace (store : Store) (name : String) :
    Except String (List Task) := do
  demand (name ≠ globalWorkspaceName) "global is not a named workspace"
  let workspace ← store.loadWorkspace name
  demand (workspace.status = .archived)
    ("workspace " ++ name ++ " is active; archive it before deleting")
  let archived ← store.listArchivedTasksInWorkspace name
  store.validateWorkspaceDependencyBoundary name
  validateWorkspaceTerminalTasks name (store.listTasksInWorkspace name)
  demand (store.listTasksInWorkspace name = [])
    ("workspace " ++ name ++
      " still has active task records; archive the workspace cleanly before deleting")
  return archived

def deleteArchivedWorkspace (env : Env) (name : String) : Action Nat := do
  let store ← get
  let archived ← lift (store.checkDeleteArchivedWorkspace name)
  archived.forM fun task => deleteArchivedTask env task.id
  env.attempt (.removeWorkspace name)
  modify fun store => store.removeWorkspaceDir name
  return archived.length

end Store

inductive Command where
  | create (spec : NewTask)
  | dep (id : String) (after : List String)
  | assign (id : String) (source : LaunchSource) (masterIRC : String)
  | autoAssign (completedID : String)
  | start (id : String) (source : LaunchSource) (note : String)
  | review (id : String) (source : LaunchSource) (note : String)
  | requestChanges (id : String) (source : LaunchSource) (note : String)
  | approve (id : String) (source : LaunchSource) (note : String)
  | complete (id : String) (source : LaunchSource) (note : String)
  | fail (id : String) (source : LaunchSource) (note : String)
  | cancel (id : String) (source : LaunchSource) (note : String)
  | note (id : String) (source : LaunchSource) (note : String)
  | changeType (id newType : String)
  | archiveTask (id : String)
  | archiveTerminal
  | archiveWorkspace (name : String)
  | deleteArchivedTask (id : String)
  | deleteArchivedWorkspace (name : String)

def Command.run (env : Env) : Command → Action Unit
  | .create spec => Store.createTask env spec
  | .dep id after => Store.depTask env id after
  | .assign id source masterIRC => discard (Store.assignTask env id source masterIRC)
  | .autoAssign completedID => Store.autoAssignDependents env completedID
  | .start id source text => discard (Store.startTask env id source text)
  | .review id source text => discard (Store.reviewTask env id source text)
  | .requestChanges id source text => discard (Store.requestChangesTask env id source text)
  | .approve id source text => discard (Store.approveTask env id source text)
  | .complete id source text => discard (Store.completeTask env id source text)
  | .fail id source text => discard (Store.failTask env id source text)
  | .cancel id source text => discard (Store.cancelTask env id source text)
  | .note id source text => discard (Store.addTaskNote env id source text)
  | .changeType id newType => discard (Store.changeTaskType env id newType)
  | .archiveTask id => Store.archiveSingleTask env id
  | .archiveTerminal => discard (Store.archiveTerminal env)
  | .archiveWorkspace name => discard (Store.archiveWorkspace env name)
  | .deleteArchivedTask id => Store.deleteArchivedTask env id
  | .deleteArchivedWorkspace name => discard (Store.deleteArchivedWorkspace env name)

/-- A whole command, with what it is given. It leaves what it has written, also when it
fails. -/
structure CommandLine where
  env : Env
  command : Command

def Store.step (store : Store) (line : CommandLine) : Option Store :=
  match line.command.run line.env store with
  | .ok _ next => some next
  | .error _ next => some next

theorem Store.step_after {store next : Store} {line : CommandLine} {Holds : Store → Prop}
    (after : After (line.command.run line.env) (fun _ => Holds) Holds store)
    (stepped : store.step line = some next) : Holds next := by
  unfold After at after
  unfold Store.step at stepped
  split at stepped
  · rename_i ran
    rw [ran] at after
    cases stepped
    exact after
  · rename_i ran
    rw [ran] at after
    cases stepped
    exact after

end AiTools.Whip
