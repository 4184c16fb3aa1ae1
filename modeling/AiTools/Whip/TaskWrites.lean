import AiTools.Lib.FileTree
import AiTools.Lib.GoText

/-!
Contract: the writes of the task store that take a task's lock, and what its readers see.

The disk fails only by the shape of its tree.
-/

namespace AiTools.Whip.TaskWrites

open AiTools.Lib.FileTree

/-- A record, as far as the store reads it. -/
structure StoredTask where
  id : String
  workspace : String
  status : String
  dependsOn : List String
  createdAt : Nat

def validStatuses : List String :=
  ["created", "assigned", "in_progress", "review", "approved", "failed", "completed", "canceled"]

/-- What the standard library does: `strings.ToLower`, the JSON text of a record, and `sort.Slice`
by the time of creation, which leaves the order of equal times open. -/
structure Standard where
  toLower : String → String
  unmarshal : String → Option StoredTask
  marshal : StoredTask → String
  sortByCreatedAt : List StoredTask → List StoredTask

/-- The store's directory is a clean absolute path. -/
structure Store where
  baseDir : Path
  areNames : AreNames baseDir
  standard : Standard

inductive StoreError where
  | invalidStatus (status : String)
  | crossWorkspace (task workspace dependency dependencyWorkspace : String)
  | notFound (id : String)
  | corrupt (id : String)
  | loadedStatus (id status : String)
  | noTasks
  | ambiguous (idPrefix : String) (matches_ : List String)
  | callback (message : String)
  | system
deriving DecidableEq

def GlobalWorkspaceName : String := "global"
def tasksDir : String := "tasks"
def taskFile : String := "task.json"
def taskLockFile : String := "task.lock"
def promptFile : String := "prompt.txt"
def archiveDir : String := "archive"
def workspacesDir : String := "workspaces"

variable (store : Store)

def normalizeWorkspaceName (name : String) : String :=
  let name := store.standard.toLower (String.ofList (Lib.GoText.trimSpace name.toList))
  if name = "" ∨ name = GlobalWorkspaceName then GlobalWorkspaceName else name

def workspaceDir (workspace : String) : Path :=
  let workspace := normalizeWorkspaceName store workspace
  if workspace = GlobalWorkspaceName then store.baseDir
  else join (join store.baseDir workspacesDir) workspace

def workspaceTasksDir (workspace : String) : Path :=
  join (workspaceDir store workspace) tasksDir

def taskDirInWorkspace (workspace id : String) : Path :=
  join (workspaceTasksDir store workspace) id

/-- The names in the directory of the workspaces. -/
def workspaceEntries (tree : Tree) : List String :=
  match tree.readDir (join store.baseDir workspacesDir) with
  | .directories names => names
  | _ => []

/-- The global workspace comes first, then the first one that has a record. -/
def findTaskWorkspace (tree : Tree) (id : String) : Option String :=
  if (tree.kind (join (taskDirInWorkspace store GlobalWorkspaceName id) taskFile)).isSome then
    some GlobalWorkspaceName
  else
    (workspaceEntries store tree).findSome? fun name =>
      let workspace := normalizeWorkspaceName store name
      if (tree.kind (join (taskDirInWorkspace store workspace id) taskFile)).isSome then
        some workspace
      else none

def taskDir (tree : Tree) (id : String) : Path :=
  taskDirInWorkspace store ((findTaskWorkspace store tree id).getD GlobalWorkspaceName) id

def readTask (tree : Tree) (path : Path) (id : String) : Except StoreError StoredTask :=
  match tree.kind path with
  | some .dir => .error .system
  | some (.file content) =>
    match store.standard.unmarshal content with
    | none => .error (.corrupt id)
    | some task => .ok { task with workspace := normalizeWorkspaceName store task.workspace }
  | none => .error (if tree.isBlocked path then .system else .notFound id)

def loadTask (tree : Tree) (id : String) : Except StoreError StoredTask := do
  let task ← readTask store tree (join (taskDir store tree id) taskFile) id
  if task.status ∈ validStatuses then pure task else throw (.loadedStatus id task.status)

def loadArchivedTask (tree : Tree) (id : String) : Except StoreError StoredTask :=
  readTask store tree (join (join (join store.baseDir archiveDir) id) taskFile) id

def listWorkspaceNames (tree : Tree) : List String :=
  GlobalWorkspaceName :: (workspaceEntries store tree).map (normalizeWorkspaceName store)

/-- Directories whose record cannot be loaded are passed over. -/
def listTasks (tree : Tree) : Except StoreError (List StoredTask) := do
  let tasks ← (listWorkspaceNames store tree).mapM fun workspace =>
    match tree.readDir (workspaceTasksDir store workspace) with
    | .notExist => pure []
    | .failed => throw StoreError.system
    | .directories names => pure (names.filterMap fun name => (loadTask store tree name).toOption)
  pure (store.standard.sortByCreatedAt tasks.flatten)

def countTasksInWorkspace (tree : Tree) (name : String) : Except StoreError Nat :=
  match tree.readDir (workspaceTasksDir store name) with
  | .notExist => .ok 0
  | .failed => .error .system
  | .directories names => .ok names.length

def hasPrefix (text idPrefix : String) : Bool := idPrefix.toList.isPrefixOf text.toList

def chooseMatch (idPrefix : String) : List String → Except StoreError String
  | [] => .error (.notFound idPrefix)
  | [found] => .ok found
  | matches_ => .error (.ambiguous idPrefix matches_)

/-- An exact match ends the search. -/
def resolveIn (tree : Tree) (idPrefix : String) :
    List String → List String → Bool → Except StoreError String
  | [], matches_, foundAny =>
    if foundAny then chooseMatch idPrefix matches_ else .error .noTasks
  | workspace :: rest, matches_, foundAny =>
    match tree.readDir (workspaceTasksDir store workspace) with
    | .notExist => resolveIn tree idPrefix rest matches_ foundAny
    | .failed => .error .system
    | .directories names =>
      if names.contains idPrefix then .ok idPrefix
      else
        resolveIn tree idPrefix rest
          (matches_ ++ names.filter fun name => hasPrefix name idPrefix) true

def resolveID (tree : Tree) (idPrefix : String) : Except StoreError String :=
  resolveIn store tree idPrefix (listWorkspaceNames store tree) [] false

def resolveArchivedID (tree : Tree) (idPrefix : String) : Except StoreError String :=
  match tree.readDir (join store.baseDir archiveDir) with
  | .notExist => .error (.notFound idPrefix)
  | .failed => .error .system
  | .directories names =>
    if names.contains idPrefix then .ok idPrefix
    else chooseMatch idPrefix (names.filter fun name => hasPrefix name idPrefix)

/-- A call that returns an error, or none. -/
abbrev Write := Tree → Tree × Option StoreError

/-- The lock file is made with its directory before it is locked. -/
def withTaskLock (dir : Path) (fn : Write) : Write := fun tree =>
  match tree.mkdirAll dir with
  | none => (tree, some .system)
  | some made =>
    match made.openFile dir taskLockFile with
    | none => (made, some .system)
    | some locked => fn locked

/-- The first dependency in another workspace. A dependency that there is no record of counts for
nothing. -/
def validateTaskDependencyWorkspaces (tree : Tree) (task : StoredTask) : Option StoreError :=
  let workspace := normalizeWorkspaceName store task.workspace
  task.dependsOn.findSome? fun depID =>
    if depID = "" then none
    else
      match (loadTask store tree depID).toOption.or
          (loadArchivedTask store tree depID).toOption with
      | none => none
      | some dependency =>
        let depWorkspace := normalizeWorkspaceName store dependency.workspace
        if depWorkspace = workspace then none
        else some (.crossWorkspace task.id workspace depID depWorkspace)

def atomicWriteFile (dir : Path) (name content : String) : Write := fun tree =>
  match tree.writeFile dir name content with
  | (next, true) => (next, none)
  | (next, false) => (next, some .system)

def saveTaskUnlocked (task : StoredTask) : Write := fun tree =>
  let task := { task with workspace := normalizeWorkspaceName store task.workspace }
  if task.status ∉ validStatuses then (tree, some (.invalidStatus task.status))
  else
    match validateTaskDependencyWorkspaces store tree task with
    | some error => (tree, some error)
    | none =>
      let dir := taskDirInWorkspace store task.workspace task.id
      match tree.mkdirAll dir with
      | none => (tree, some .system)
      | some made => atomicWriteFile dir taskFile (store.standard.marshal task) made

inductive Call where
  | SaveTask (task : StoredTask)
  | UpdateTask (id : String) (fn : StoredTask → Except String StoredTask)
  | SavePrompt (id content : String)

/-- The directory that the call takes its lock in. -/
def Call.lockDir (tree : Tree) : Call → Path
  | .SaveTask task =>
    taskDirInWorkspace store (normalizeWorkspaceName store task.workspace) task.id
  | .UpdateTask id _ => taskDir store tree id
  | .SavePrompt id _ => taskDir store tree id

/-- What the call does when it has the lock. -/
def Call.locked : Call → Write
  | .SaveTask task => saveTaskUnlocked store task
  | .UpdateTask id fn => fun tree =>
    match loadTask store tree id with
    | .error error => (tree, some error)
    | .ok task =>
      match fn task with
      | .error message => (tree, some (.callback message))
      | .ok changed => saveTaskUnlocked store changed tree
  | .SavePrompt id content => fun tree =>
    atomicWriteFile (taskDir store tree id) promptFile content tree

def Call.run (call : Call) : Write := fun tree =>
  withTaskLock (call.lockDir store tree) (call.locked store) tree

/-- Every reader gives the same result for every argument. -/
structure NoTrace (tree next : Tree) : Prop where
  loadTask : ∀ id, loadTask store next id = loadTask store tree id
  listTasks : listTasks store next = listTasks store tree
  countTasksInWorkspace : ∀ name,
    countTasksInWorkspace store next name = countTasksInWorkspace store tree name
  resolveID : ∀ idPrefix, resolveID store next idPrefix = resolveID store tree idPrefix
  resolveArchivedID : ∀ idPrefix,
    resolveArchivedID store next idPrefix = resolveArchivedID store tree idPrefix

/-- The lock is there already, or its directory cannot be made. -/
def LockStands (tree : Tree) (dir : Path) : Prop :=
  tree.kind (dir ++ [taskLockFile]) ≠ none ∨ tree.mkdirAll dir = none

/-- A call that fails has changed nothing. -/
def Write.Keeps (write : Write) : Prop :=
  ∀ tree next error, write tree = (next, some error) → next = tree

theorem atomicWriteFile_keeps (dir : Path) (name content : String) :
    Write.Keeps (atomicWriteFile dir name content) := by
  intro tree next error failed
  unfold atomicWriteFile at failed
  split at failed
  · cases failed
  · rename_i isFailed
    cases failed
    exact Tree.writeFile_failed isFailed

variable {tree next : Tree} {dir path : Path} {error : StoreError} {id : String}

theorem mkdirAll_atomicWriteFile {made : Tree} {name content : String}
    (isMade : tree.mkdirAll dir = some made)
    (failed : atomicWriteFile dir name content made = (next, some error)) : next = tree := by
  have isSame := atomicWriteFile_keeps dir name content _ _ _ failed
  subst isSame
  have isDir := Tree.mkdirAll_isDir isMade
  unfold atomicWriteFile Tree.writeFile at failed
  rw [Tree.mkdirAll_of_isDir isDir] at failed
  dsimp only at failed
  cases isPut : next.put dir name (.file content) with
  | none => exact Tree.mkdirAll_put_eq_none isMade isPut
  | some put =>
    simp [isPut] at failed

theorem saveTaskUnlocked_keeps (task : StoredTask) : Write.Keeps (saveTaskUnlocked store task) := by
  intro tree next error failed
  simp only [saveTaskUnlocked] at failed
  by_cases isValid : task.status ∉ validStatuses
  · rw [if_pos isValid] at failed
    cases failed
    rfl
  · rw [if_neg isValid] at failed
    split at failed
    · cases failed
      rfl
    · split at failed
      · cases failed
        rfl
      · rename_i isMade
        exact mkdirAll_atomicWriteFile isMade failed

theorem Call.locked_keeps (call : Call) : Write.Keeps (call.locked store) := by
  cases call with
  | SaveTask task => exact saveTaskUnlocked_keeps store task
  | UpdateTask id fn =>
    intro tree next error failed
    simp only [Call.locked] at failed
    split at failed
    · cases failed
      rfl
    · split at failed
      · cases failed
        rfl
      · exact saveTaskUnlocked_keeps store _ _ _ _ failed
  | SavePrompt id content =>
    intro tree next error failed
    exact atomicWriteFile_keeps _ _ _ _ _ _ failed

/-- A lock that stands is all that a failed call finds; otherwise it leaves the lock behind. -/
theorem withTaskLock_failed {fn : Write} (keeps : fn.Keeps)
    (failed : withTaskLock dir fn tree = (next, some error)) :
    (LockStands tree dir → next = tree) ∧
      (¬LockStands tree dir → ∃ made, tree.mkdirAll dir = some made ∧
        next.kind = Function.update made.kind (dir ++ [taskLockFile]) (some (.file ""))) := by
  unfold withTaskLock at failed
  split at failed
  · rename_i notMade
    cases failed
    exact ⟨fun _ => rfl, fun notStanding => absurd (Or.inr notMade) notStanding⟩
  · rename_i made isMade
    have sameLock := Tree.mkdirAll_below isMade taskLockFile
    have standing : LockStands tree dir → made = tree := by
      intro stands
      have isThere := stands.resolve_right (by rw [isMade]; exact Option.some_ne_none _)
      have isDir := tree.closed _ _ isThere
      rw [Tree.mkdirAll_of_isDir isDir] at isMade
      exact (Option.some.inj isMade).symm
    unfold Tree.openFile at failed
    rw [sameLock] at failed
    cases isLock : tree.kind (dir ++ [taskLockFile]) with
    | some kind =>
      have stands : LockStands tree dir := Or.inl (by rw [isLock]; exact Option.some_ne_none _)
      refine ⟨fun _ => ?_, absurd stands⟩
      rw [isLock] at failed
      cases kind with
      | dir =>
        cases failed
        exact standing stands
      | file content =>
        exact (keeps _ _ _ failed).trans (standing stands)
    | none =>
      have notStanding : ¬LockStands tree dir := by
        rintro (isThere | notMade)
        · exact isThere isLock
        · simp [isMade] at notMade
      refine ⟨fun stands => absurd stands notStanding, fun _ => ⟨made, isMade, ?_⟩⟩
      rw [isLock] at failed
      dsimp only at failed
      cases isPut : made.put dir taskLockFile (.file "") with
      | none =>
        refine absurd ⟨Tree.mkdirAll_isDir isMade, .inr ?_⟩ (Tree.put_eq_none isPut)
        rw [sameLock, isLock]
        exact (Option.some_ne_none _).symm
      | some locked =>
        rw [isPut] at failed
        rw [keeps _ _ _ failed]
        exact (Tree.put_eq_some isPut).2

theorem isName_taskLockFile : IsName taskLockFile :=
  ⟨by decide, by decide, by decide, by decide⟩

theorem isName_taskFile : IsName taskFile :=
  ⟨by decide, by decide, by decide, by decide⟩

theorem taskDirInWorkspace_areNames (workspace id : String) :
    AreNames (taskDirInWorkspace store workspace id) := by
  refine join_areNames (join_areNames ?_ _) _
  unfold workspaceDir
  dsimp only
  split_ifs
  · exact store.areNames
  · exact join_areNames (join_areNames store.areNames _) _

theorem Call.lockDir_areNames (call : Call) (tree : Tree) : AreNames (call.lockDir store tree) := by
  cases call <;> exact taskDirInWorkspace_areNames store _ _

variable {store}

/-- The tasks directories in which a record is looked for. -/
def searched (store : Store) (tree : Tree) : List Path :=
  workspaceTasksDir store GlobalWorkspaceName ::
    (workspaceEntries store tree).map fun name =>
      workspaceTasksDir store (normalizeWorkspaceName store name)

/-- An id that leads to one path from everywhere, where there is nothing, has no workspace. -/
theorem findTaskWorkspace_eq_none (leads : ∀ dir ∈ searched store tree, join dir id = path)
    (isMissing : tree.kind (join path taskFile) = none) :
    findTaskWorkspace store tree id = none := by
  have atGlobal : taskDirInWorkspace store GlobalWorkspaceName id = path :=
    leads _ List.mem_cons_self
  unfold findTaskWorkspace
  rw [atGlobal, isMissing, if_neg (by simp)]
  refine List.findSome?_eq_none_iff.mpr fun name isName => ?_
  have atWorkspace : taskDirInWorkspace store (normalizeWorkspaceName store name) id = path :=
    leads _ (List.mem_cons_of_mem _ (List.mem_map_of_mem isName))
  dsimp only
  rw [atWorkspace, isMissing, if_neg (by simp)]

theorem loadTask_eq_error (leads : ∀ dir ∈ searched store tree, join dir id = path)
    (isMissing : tree.kind (join path taskFile) = none) :
    loadTask store tree id =
      .error (if tree.isBlocked (join path taskFile) then .system else .notFound id) := by
  have atGlobal : taskDirInWorkspace store GlobalWorkspaceName id = path :=
    leads _ List.mem_cons_self
  unfold loadTask taskDir readTask
  rw [findTaskWorkspace_eq_none leads isMissing, Option.getD_none, atGlobal, isMissing]
  rfl

theorem isBlocked_eq_true {above : Path} {content : String}
    (isFile : tree.kind above = some (.file content)) (isAbove : above <+: path) :
    tree.isBlocked path = true := by
  unfold Tree.isBlocked
  refine List.any_eq_true.mpr ⟨above, (List.mem_inits _ _).mpr isAbove, ?_⟩
  rw [isFile]

theorem isBlocked_eq_false
    (noFile : ∀ above, above <+: path → tree.kind above = none ∨ tree.kind above = some .dir) :
    tree.isBlocked path = false := by
  unfold Tree.isBlocked
  refine List.any_eq_false.mpr fun above isAbove => ?_
  rcases noFile above ((List.mem_inits _ _).mp isAbove) with isMissing | isDir
  · rw [isMissing]
    exact Bool.false_ne_true
  · rw [isDir]
    exact Bool.false_ne_true

theorem trace_of_lock {made : Tree} (areNames : AreNames dir)
    (isMissing : tree.kind (dir ++ [taskLockFile]) = none) (isMade : tree.mkdirAll dir = some made)
    (kinds : next.kind = Function.update made.kind (dir ++ [taskLockFile]) (some (.file ""))) :
    ¬NoTrace store tree next := by
  intro noTrace
  have lockNames : AreNames (dir ++ [taskLockFile]) := by
    intro part isPart
    rcases List.mem_append.mp isPart with isOld | isLock
    · exact areNames part isOld
    · rw [List.mem_singleton.mp isLock]
      exact isName_taskLockFile
  have isFile : next.kind (dir ++ [taskLockFile]) = some (.file "") := by
    rw [kinds]
    exact Function.update_self _ _ _
  obtain ⟨limit, isLimit⟩ := exists_limit (searched store tree ++ searched store next)
  obtain ⟨id, leads⟩ := exists_join lockNames (by simp) limit
  have below : join (dir ++ [taskLockFile]) taskFile = dir ++ [taskLockFile] ++ [taskFile] :=
    join_name isName_taskFile
  -- There is no record below the lock, neither before nor afterwards.
  have notBefore : tree.kind (join (dir ++ [taskLockFile]) taskFile) = none := by
    rw [below]
    by_contra isSome
    simp [tree.closed _ _ isSome] at isMissing
  have notAfter : next.kind (join (dir ++ [taskLockFile]) taskFile) = none := by
    rw [below]
    by_contra isSome
    simp [next.closed _ _ isSome] at isFile
  have before := loadTask_eq_error
    (fun path isPath => leads path (isLimit path (List.mem_append_left _ isPath))) notBefore
  have after := loadTask_eq_error
    (fun path isPath => leads path (isLimit path (List.mem_append_right _ isPath))) notAfter
  have same := noTrace.loadTask id
  rw [before, after] at same
  have blocked : next.isBlocked (join (dir ++ [taskLockFile]) taskFile) = true := by
    rw [below]
    exact isBlocked_eq_true isFile (List.prefix_append _ _)
  have notBlocked : tree.isBlocked (join (dir ++ [taskLockFile]) taskFile) = false := by
    refine isBlocked_eq_false fun above isAbove => ?_
    rw [below] at isAbove notBefore
    rcases List.prefix_concat_iff.mp isAbove with rfl | isAbove
    · exact .inl notBefore
    · rcases List.prefix_concat_iff.mp isAbove with rfl | isAbove
      · exact .inl isMissing
      · exact Tree.mkdirAll_above isMade isAbove
  simp [blocked, notBlocked] at same

theorem failedWrite_iff {tree next : Tree} {call : Call} {error : StoreError}
    (failed : call.run store tree = (next, some error)) :
    NoTrace store tree next ↔ LockStands tree (call.lockDir store tree) := by
  obtain ⟨stays, changes⟩ := withTaskLock_failed (call.locked_keeps store) failed
  constructor
  · intro noTrace
    by_contra notStanding
    obtain ⟨made, isMade, kinds⟩ := changes notStanding
    have isMissing : tree.kind (call.lockDir store tree ++ [taskLockFile]) = none := by
      by_contra isThere
      exact notStanding (Or.inl isThere)
    exact trace_of_lock (call.lockDir_areNames store tree) isMissing isMade kinds noTrace
  · intro stands
    rw [stays stands]
    exact ⟨fun _ => rfl, rfl, fun _ => rfl, fun _ => rfl, fun _ => rfl⟩

/-- A store without a record. -/
def emptyStore : Store where
  baseDir := ["whip"]
  areNames := by
    intro part isPart
    rw [List.mem_singleton.mp isPart]
    exact ⟨by decide, by decide, by decide, by decide⟩
  standard := ⟨fun name => name, fun _ => none, fun _ => "", fun tasks => tasks⟩

def updateUnknown : Call := .UpdateTask "t1" fun task => .ok task

theorem eq_of_failed {result : Tree × Option StoreError} (failed : result.2 = some error) :
    result = (result.1, some error) := by
  rw [← failed]

theorem updateUnknown_failed : (updateUnknown.run emptyStore .empty).2 = some (.notFound "t1") := by
  decide +kernel

/-- The second update of an unknown task leaves no trace, for the first one has left its lock. -/
theorem failedWrite_iff_again : NoTrace emptyStore (updateUnknown.run emptyStore .empty).1
        (updateUnknown.run emptyStore (updateUnknown.run emptyStore .empty).1).1 ↔
      LockStands (updateUnknown.run emptyStore .empty).1
        (updateUnknown.lockDir emptyStore (updateUnknown.run emptyStore .empty).1) := by
  have failed : (updateUnknown.run emptyStore (updateUnknown.run emptyStore .empty).1).2 =
      some (.notFound "t1") := by decide +kernel
  exact failedWrite_iff (eq_of_failed failed)

/-- An update of an unknown task fails, and its id is found from then on. -/
theorem not_noTrace : ¬∀ (store : Store) (tree next : Tree) (call : Call) (error : StoreError),
    call.run store tree = (next, some error) → NoTrace store tree next := by
  intro allKeep
  have noTrace := allKeep emptyStore .empty _ updateUnknown (.notFound "t1")
    (eq_of_failed updateUnknown_failed)
  have before : (resolveID emptyStore .empty "t1").toOption = none := by decide +kernel
  have after : (resolveID emptyStore (updateUnknown.run emptyStore .empty).1 "t1").toOption =
      some "t1" := by decide +kernel
  rw [noTrace.resolveID "t1", before] at after
  cases after

end AiTools.Whip.TaskWrites
