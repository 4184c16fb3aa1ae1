import AiTools.Lib.Keyed
import AiTools.Whip.Task
import Mathlib.Data.List.Sort
import Mathlib.Data.List.Dedup
import Mathlib.Data.String.Basic

/-!
Contract: the store of the task board, with its active tasks, its archive and the
records of the named workspaces.

A record lies under its own workspace and id. A task directory without a record is no task, and
names of workspaces are given as the store normalizes them.
-/

namespace AiTools.Whip

open AiTools.Lib.Keyed

inductive WorkspaceStatus where
  | active
  | archived
deriving DecidableEq

/-- `archivedTaskIDs` is the index of the archived tasks, and is nil when the record
has none. -/
structure Workspace where
  name : String
  status : WorkspaceStatus
  archivedTaskIDs : Option (List String)
  worktreePath : String

/-- What is written: the field is marked `omitempty`. -/
def Workspace.marshaled (workspace : Workspace) : Workspace :=
  if workspace.archivedTaskIDs = some [] then { workspace with archivedTaskIDs := none }
  else workspace

def Task.path (task : Task) : String × String := (task.workspace, task.id)

structure Store where
  tasks : Table Task.path
  archive : Table Task.id
  workspaces : Table Workspace.name

/-- The order of the lists: `sort.Slice` by `CreatedAt`. -/
def byCreation (tasks : List Task) : List Task :=
  tasks.insertionSort fun first second => first.createdAt ≤ second.createdAt

namespace Store

def empty : Store := ⟨.empty, .empty, .empty⟩

/-- `listWorkspaceNames`: the global one, and the directory in the order of its names. -/
def workspaceNames (store : Store) : List String :=
  globalWorkspaceName ::
    ((store.tasks.entries.map Task.workspace ++ store.workspaces.entries.map Workspace.name).filter
      (· ≠ globalWorkspaceName)).dedup.insertionSort (· ≤ ·)

def findTaskWorkspace (store : Store) (id : String) : Option String :=
  store.workspaceNames.find? fun workspace => (store.tasks.find? (workspace, id)).isSome

/-- The record at `taskPath`. -/
def findTask (store : Store) (id : String) : Option Task :=
  (store.findTaskWorkspace id).bind fun workspace => store.tasks.find? (workspace, id)

def loadTask (store : Store) (id : String) : Except String Task :=
  match store.findTask id with
  | some task => .ok task
  | none => .error ("task " ++ id ++ " not found")

/-- The entries of the directory of a workspace's tasks. -/
def taskIDs (store : Store) (workspace : String) : List String :=
  (store.tasks.entries.filter fun task => task.workspace = workspace).map Task.id

def listTasksInWorkspace (store : Store) (name : String) : List Task :=
  byCreation ((store.taskIDs name).filterMap store.findTask)

def listTasks (store : Store) : List Task :=
  byCreation
    (store.workspaceNames.flatMap fun name => (store.taskIDs name).filterMap store.findTask)

def getDependents (store : Store) (id : String) : List Task :=
  store.listTasks.filter fun task => id ∈ task.dependsOn

def findWorkspaceLead (store : Store) (workspace : String) : Option Task :=
  if workspace = globalWorkspaceName then none
  else
    store.listTasks.find? fun task =>
      task.workspace = workspace ∧ task.role = taskRoleLead ∧ task.status.isActive

/-- Whether the dependencies are met, and those that are not. -/
def areDependenciesMet (store : Store) (task : Task) : Bool × List String :=
  let unmet := task.dependsOn.filter fun id =>
    match store.findTask id with
    -- A task that is not in the active store counts as met.
    | none => false
    | some dep => dep.status ≠ .completed
  (unmet.isEmpty, unmet)

def listArchivedTasks (store : Store) : List Task := byCreation store.archive.entries

def loadWorkspace (store : Store) (name : String) : Except String Workspace :=
  if name = globalWorkspaceName then .error "global does not use workspace metadata"
  else
    match store.workspaces.find? name with
    | some workspace => .ok workspace
    | none => .error ("workspace " ++ name ++ " not found")

def archivedIn (store : Store) (name : String) : List Task :=
  store.listArchivedTasks.filter fun task => task.workspace = name

def countArchivedTasksInWorkspace (store : Store) (name : String) : Except String Nat :=
  if name = globalWorkspaceName then .ok 0
  else do
    let workspace ← store.loadWorkspace name
    match workspace.archivedTaskIDs with
    | some ids => return ids.length
    | none => return (store.archivedIn name).length

def listArchivedTasksInWorkspace (store : Store) (name : String) : Except String (List Task) :=
  if name = globalWorkspaceName then .ok []
  else do
    let workspace ← store.loadWorkspace name
    match workspace.archivedTaskIDs with
    | some ids => return byCreation (ids.filterMap store.archive.find?)
    | none => return store.archivedIn name

/-! ## What the lists hold -/

variable {store : Store} {id : String}

theorem mem_workspaceNames {task : Task} (member : task ∈ store.tasks.entries) :
    task.workspace ∈ store.workspaceNames := by
  unfold workspaceNames
  by_cases isGlobal : task.workspace = globalWorkspaceName
  · rw [isGlobal]
    exact List.mem_cons_self
  · apply List.mem_cons_of_mem
    rw [(List.perm_insertionSort _ _).mem_iff, List.mem_dedup, List.mem_filter]
    refine ⟨List.mem_append_left _ (List.mem_map_of_mem member), ?_⟩
    simpa using isGlobal

theorem findTask_mem {task : Task} (found : store.findTask id = some task) :
    task ∈ store.tasks.entries ∧ task.id = id := by
  unfold findTask at found
  rw [Option.bind_eq_some_iff] at found
  obtain ⟨workspace, _, isRecord⟩ := found
  rw [Table.find?_eq_some_iff] at isRecord
  exact ⟨isRecord.1, congrArg Prod.snd isRecord.2⟩

theorem findTask_of_mem {task : Task} (member : task ∈ store.tasks.entries) :
    ∃ found, store.findTask task.id = some found := by
  have isRecord : store.tasks.find? (task.workspace, task.id) = some task :=
    Table.find?_eq_some_iff.mpr ⟨member, rfl⟩
  cases isWorkspace : store.findTaskWorkspace task.id with
  | none =>
    unfold findTaskWorkspace at isWorkspace
    have never := List.find?_eq_none.mp isWorkspace _ (mem_workspaceNames member)
    rw [isRecord] at never
    exact absurd rfl never
  | some workspace =>
    have isSome := List.find?_some isWorkspace
    obtain ⟨found, isFound⟩ := Option.isSome_iff_exists.mp isSome
    refine ⟨found, ?_⟩
    unfold findTask
    rw [isWorkspace]
    exact isFound

/-- The global workspace is looked at first, then the others by name. -/
def LooksFirst (first second : String) : Prop :=
  first = globalWorkspaceName ∨ second ≠ globalWorkspaceName ∧ first ≤ second

theorem workspaceNames_ordered (store : Store) : store.workspaceNames.Pairwise LooksFirst := by
  unfold workspaceNames
  rw [List.pairwise_cons]
  refine ⟨fun _ _ => .inl rfl, ?_⟩
  have sorted := List.pairwise_insertionSort (fun first second : String => first ≤ second)
    ((store.tasks.entries.map Task.workspace ++ store.workspaces.entries.map Workspace.name).filter
      (· ≠ globalWorkspaceName)).dedup
  refine sorted.imp_of_mem ?_
  intro first second _ isSecond inOrder
  rw [(List.perm_insertionSort _ _).mem_iff, List.mem_dedup, List.mem_filter] at isSecond
  exact .inr ⟨by simpa using isSecond.2, inOrder⟩

theorem LooksFirst.antisymm {first second : String} (looks : LooksFirst first second)
    (back : LooksFirst second first) : first = second := by
  rcases looks with isGlobal | ⟨notGlobal, inOrder⟩
  · rcases back with bothGlobal | ⟨notGlobal, _⟩
    · rw [isGlobal, bothGlobal]
    · exact absurd isGlobal notGlobal
  · rcases back with isGlobal | ⟨_, backwards⟩
    · exact absurd isGlobal notGlobal
    · exact le_antisymm inOrder backwards

theorem findTaskWorkspace_first {workspace : String}
    (found : store.findTaskWorkspace id = some workspace) {task : Task}
    (member : task ∈ store.tasks.entries) (isId : task.id = id) :
    LooksFirst workspace task.workspace := by
  obtain ⟨_, before, later, isSplit, notBefore⟩ := List.find?_eq_some_iff_append.mp found
  have isName := mem_workspaceNames member
  have isHere : (store.tasks.find? (task.workspace, id)).isSome = true := by
    have isPath : task.path = (task.workspace, id) := Prod.ext rfl isId
    rw [Table.find?_eq_some_iff.mpr ⟨member, isPath⟩]
    rfl
  have ordered := store.workspaceNames_ordered
  rw [isSplit] at isName ordered
  rcases List.mem_append.mp isName with isBefore | isLater
  · have missing := notBefore _ isBefore
    rw [isHere] at missing
    cases missing
  · rcases List.mem_cons.mp isLater with isSame | isAfter
    · rw [isSame]
      by_cases isGlobal : workspace = globalWorkspaceName
      · exact .inl isGlobal
      · exact .inr ⟨isGlobal, le_refl _⟩
    · exact (List.pairwise_cons.mp (List.pairwise_append.mp ordered).2.1).1 _ isAfter

theorem findTask_first {found : Task} (isFound : store.findTask id = some found) {task : Task}
    (member : task ∈ store.tasks.entries) (isId : task.id = id) :
    LooksFirst found.workspace task.workspace := by
  unfold findTask at isFound
  rw [Option.bind_eq_some_iff] at isFound
  obtain ⟨workspace, isWorkspace, isRecord⟩ := isFound
  have isPath := (Table.find?_eq_some_iff.mp isRecord).2
  rw [show found.workspace = workspace from congrArg Prod.fst isPath]
  exact findTaskWorkspace_first isWorkspace member isId

theorem findTask_workspace {store next : Store} {id : String} {before after : Task}
    (isBefore : store.findTask id = some before) (isAfter : next.findTask id = some after)
    (same : ∀ path : String × String, path.2 = id →
      ((∃ task ∈ store.tasks.entries, task.path = path) ↔
        ∃ task ∈ next.tasks.entries, task.path = path)) :
    after.workspace = before.workspace := by
  obtain ⟨beforeMember, beforeId⟩ := findTask_mem isBefore
  obtain ⟨afterMember, afterId⟩ := findTask_mem isAfter
  obtain ⟨moved, movedMember, movedPath⟩ :=
    (same before.path beforeId).mp ⟨before, beforeMember, rfl⟩
  obtain ⟨old, oldMember, oldPath⟩ := (same after.path afterId).mpr ⟨after, afterMember, rfl⟩
  have movedWorkspace : moved.workspace = before.workspace := congrArg Prod.fst movedPath
  have oldWorkspace : old.workspace = after.workspace := congrArg Prod.fst oldPath
  have movedId : moved.id = before.id := congrArg Prod.snd movedPath
  have oldId : old.id = after.id := congrArg Prod.snd oldPath
  have afterFirst := findTask_first isAfter movedMember (movedId.trans beforeId)
  have beforeFirst := findTask_first isBefore oldMember (oldId.trans afterId)
  rw [movedWorkspace] at afterFirst
  rw [oldWorkspace] at beforeFirst
  exact afterFirst.antisymm beforeFirst

theorem loadTask_eq_ok {task : Task} (isLoaded : store.loadTask id = .ok task) :
    store.findTask id = some task := by
  unfold loadTask at isLoaded
  split at isLoaded
  · cases isLoaded
    assumption
  · cases isLoaded

theorem byCreation_perm (tasks : List Task) : (byCreation tasks).Perm tasks :=
  List.perm_insertionSort _ _

theorem mem_byCreation {tasks : List Task} {task : Task} : task ∈ byCreation tasks ↔ task ∈ tasks :=
  (byCreation_perm tasks).mem_iff

theorem mem_taskIDs {workspace : String} : id ∈ store.taskIDs workspace ↔
      ∃ task ∈ store.tasks.entries, task.workspace = workspace ∧ task.id = id := by
  unfold taskIDs
  simp [and_assoc]

theorem mem_listTasksInWorkspace {name : String} {task : Task} :
    task ∈ store.listTasksInWorkspace name ↔ ∃ entry ∈ store.tasks.entries, entry.workspace = name ∧
        store.findTask entry.id = some task := by
  unfold listTasksInWorkspace
  rw [mem_byCreation, List.mem_filterMap]
  constructor
  · rintro ⟨id, isEntry, found⟩
    obtain ⟨entry, member, isName, isId⟩ := mem_taskIDs.mp isEntry
    rw [← isId] at found
    exact ⟨entry, member, isName, found⟩
  · rintro ⟨entry, member, isName, found⟩
    exact ⟨entry.id, mem_taskIDs.mpr ⟨entry, member, isName, rfl⟩, found⟩

theorem mem_listTasks {task : Task} : task ∈ store.listTasks ↔
      ∃ entry ∈ store.tasks.entries, store.findTask entry.id = some task := by
  unfold listTasks
  rw [mem_byCreation, List.mem_flatMap]
  constructor
  · rintro ⟨name, _, member⟩
    obtain ⟨id, isEntry, found⟩ := List.mem_filterMap.mp member
    obtain ⟨entry, member, _, isId⟩ := mem_taskIDs.mp isEntry
    rw [← isId] at found
    exact ⟨entry, member, found⟩
  · rintro ⟨entry, member, found⟩
    refine ⟨entry.workspace, mem_workspaceNames member, List.mem_filterMap.mpr ?_⟩
    exact ⟨entry.id, mem_taskIDs.mpr ⟨entry, member, rfl, rfl⟩, found⟩

/-- No dependency lies in another workspace. -/
def validateTaskDependencyWorkspaces (store : Store) (task : Task) : Except String Unit :=
  task.dependsOn.forM fun depID =>
    if depID = "" then .ok ()
    else
      match store.findTask depID <|> store.archive.find? depID with
      | none => .ok ()
      | some dep =>
        if dep.workspace ≠ task.workspace then
          .error ("cross-workspace dependencies are not allowed: task " ++ task.id ++ " is in " ++
            task.workspace ++ " but dependency " ++ depID ++ " is in " ++ dep.workspace)
        else .ok ()

/-- What `dep` asks of one prerequisite. -/
def checkDependency (store : Store) (task : Task) (depID : String) : Except String Unit :=
  if depID = task.id then .error "task cannot depend on itself"
  else do
    let dependency ← store.loadTask depID
    if dependency.workspace ≠ task.workspace then
      throw ("cross-workspace dependencies are not allowed: task " ++ task.id ++ " is in " ++
        task.workspace ++ " but dependency " ++ dependency.id ++ " is in " ++ dependency.workspace)

def validateWorkspaceTerminalTasks (name : String) (tasks : List Task) : Except String Unit :=
  match tasks.find? fun task => !task.status.isTerminal with
  | none => .ok ()
  | some task =>
    .error ("workspace " ++ name ++ " has non-terminal task " ++ task.id ++ " (" ++ task.title ++
      ", " ++ task.status.name ++
      "); archive/delete is allowed only when all workspace tasks are terminal")

/-- `workspaceByTaskID`: an archived task overrides an active one. -/
def workspaceOfTask (store : Store) (id : String) : Option String :=
  ((store.archive.find? id) <|> store.findTask id).map Task.workspace

def validateWorkspaceDependencyBoundary (store : Store) (name : String) : Except String Unit :=
  (store.listTasks ++ store.listArchivedTasks).forM fun task =>
    task.dependsOn.forM fun depID =>
      match store.workspaceOfTask depID with
      | none => .ok ()
      | some workspace =>
        if workspace ≠ task.workspace ∧ (task.workspace = name ∨ workspace = name) then
          .error ("workspace " ++ name ++ " has cross-workspace dependency: task " ++ task.id ++
            " is in " ++ task.workspace ++ " but dependency " ++ depID ++ " is in " ++ workspace)
        else .ok ()

end Store

/-- The non-terminal tasks that depend on a task. -/
def archiveDependencyBlockers (tasks : List Task) (id : String) : List String :=
  ((tasks.filter fun task => !task.status.isTerminal ∧ id ∈ task.dependsOn).map
    Task.id).dedup.insertionSort (· ≤ ·)

theorem archiveDependencyBlockers_eq_nil {tasks : List Task} {id : String} :
    archiveDependencyBlockers tasks id = [] ↔
      ∀ task ∈ tasks, task.status.isTerminal = false → id ∉ task.dependsOn := by
  unfold archiveDependencyBlockers
  rw [← List.length_eq_zero_iff, List.length_insertionSort, List.length_eq_zero_iff,
    List.dedup_eq_nil, List.map_eq_nil_iff, List.filter_eq_nil_iff]
  simp

def taskArchiveability (task : Task) (blockers : String → List String) : Bool × List String :=
  if !task.status.isTerminal then (false, [])
  else if blockers task.id = [] then (true, [])
  else (false, blockers task.id)

def archiveabilityError (task : Task) (blockers : String → List String) : Except String Unit :=
  if !task.status.isTerminal then
    .error ("task " ++ task.id ++ " is " ++ task.status.name ++
      "; only completed or canceled tasks can be archived")
  else if (taskArchiveability task blockers).2 ≠ [] then
    .error ("task " ++ task.id ++
      " cannot be archived; non-terminal dependents still reference it: " ++
      ", ".intercalate (taskArchiveability task blockers).2)
  else .ok ()

variable {task : Task} {blockers : String → List String}

theorem taskArchiveability_iff : (taskArchiveability task blockers).1 = true ↔
      task.status.isTerminal = true ∧ blockers task.id = [] := by
  unfold taskArchiveability
  split_ifs <;> simp_all

theorem archiveabilityError_eq_ok {result : Unit}
    (isOk : archiveabilityError task blockers = .ok result) :
    task.status.isTerminal = true ∧ blockers task.id = [] := by
  unfold archiveabilityError taskArchiveability at isOk
  split_ifs at isOk
  simp_all

end AiTools.Whip
