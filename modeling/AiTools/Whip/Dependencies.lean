import AiTools.Whip.Lifecycle
import AiTools.Whip.StoreCommands

/-!
Contract: a task is assigned only after its prerequisites were completed.
-/

namespace AiTools.Whip.Dependencies

open AiTools.Lib.Transition AiTools.Lib.Keyed AiTools.Lib.Effect

/-- The dependencies of the tasks that are not terminal are in the active store. -/
def PrerequisitesPresent (store : Store) : Prop :=
  ∀ task ∈ store.tasks.entries, task.status.isTerminal = false →
    ∀ id ∈ task.dependsOn, ∃ dep, store.findTask id = some dep

/-- `AssignTask` succeeds only when every dependency is completed. -/
def AssignsCompleted (store : Store) : Prop :=
  ∀ env id source masterIRC assigned next,
    Store.assignTask env id source masterIRC store = .ok assigned next →
      ∃ task, store.findTask id = some task ∧
        ∀ depID ∈ task.dependsOn, ∃ dep, store.findTask depID = some dep ∧ dep.status = .completed

/-- In every run from the empty store whose commands all meet `ok`, prerequisites are
present, and a task is assigned only when they are completed. -/
def DependenciesRespected (ok : Store → CommandLine → Prop) : Prop :=
  ∀ store, Run Store.step ok .empty store → PrerequisitesPresent store ∧ AssignsCompleted store

/-- The id that `create` draws is not that of an active task of another workspace. -/
def FreshAcrossWorkspaces (store : Store) (line : CommandLine) : Prop :=
  match line.command with
  | .create spec => ∀ task ∈ store.tasks.entries, task.id = spec.id →
      task.workspace = spec.workspace
  | _ => True

/-- The update leaves what the dependencies rest on, and opens no terminal task. -/
structure SameEdges (before after : Task) : Prop where
  path : after.path = before.path
  dependsOn : after.dependsOn = before.dependsOn
  stillOpen : after.status.isTerminal = false → before.status.isTerminal = false

theorem SameEdges.id {before after : Task} (edges : SameEdges before after) :
    after.id = before.id := congrArg Prod.snd edges.path

theorem withNote_path (task : Task) (source : LaunchSource) (note : String) (now : Time) :
    (task.withNote source note now).path = task.path := by
  unfold Task.withNote
  split <;> rfl

theorem withNote_dependsOn (task : Task) (source : LaunchSource) (note : String) (now : Time) :
    (task.withNote source note now).dependsOn = task.dependsOn := by
  unfold Task.withNote
  split <;> rfl

theorem stillOpen_of_advances {before after : Task} (advances : Advances before after)
    (isOpen : after.status.isTerminal = false) : before.status.isTerminal = false := by
  rcases advances.2 with same | allowed
  · rw [← same]
    exact isOpen
  · exact allowed.not_terminal

variable {task updated : Task} {source : LaunchSource} {note : String} {now : Time}

theorem transitionTaskStatus_edges {action : String} {newStatus : TaskStatus}
    {allowedFrom : List TaskStatus} (inTable : ∀ status ∈ allowedFrom, Allowed status newStatus)
    (isOk : transitionTaskStatus task source action newStatus note allowedFrom now = .ok updated) :
    SameEdges task updated := by
  have advances := transitionTaskStatus_advances inTable isOk
  obtain ⟨_, result⟩ := requireTaskStatuses_bind isOk
  cases result
  exact ⟨withNote_path _ _ _ _, withNote_dependsOn _ _ _ _, stillOpen_of_advances advances⟩

theorem startTask_edges {shellPID : Int}
    (isOk : startTask task source shellPID note now = .ok updated) :
    SameEdges task updated := by
  have advances := startTask_advances isOk
  obtain ⟨_, result⟩ := requireTaskStatuses_bind isOk
  cases result
  exact ⟨withNote_path _ _ _ _, withNote_dependsOn _ _ _ _, stillOpen_of_advances advances⟩

theorem completeTask_edges (isOk : completeTask task source note now = .ok updated) :
    SameEdges task updated := by
  have advances := completeTask_advances isOk
  obtain ⟨_, result⟩ := requireTaskStatuses_bind isOk
  split at result
  · cases result
  · cases result
    exact ⟨withNote_path _ _ _ _, withNote_dependsOn _ _ _ _, stillOpen_of_advances advances⟩

theorem addTaskNote_edges (isOk : addTaskNote task source note now = .ok updated) :
    SameEdges task updated := by
  unfold addTaskNote at isOk
  split at isOk
  · cases isOk
  · cases isOk
    exact ⟨rfl, rfl, fun isOpen => isOpen⟩

theorem reserveTask_edges {unmet : List String} {masterIRC : String}
    (isOk : reserveTask task source unmet masterIRC now = .ok updated) :
    SameEdges task updated ∧ unmet = [] ∧ task.status.isTerminal = false ∧
      updated.status = .assigned := by
  obtain ⟨reserved, advances⟩ := reserveTask_advances isOk
  obtain ⟨_, result⟩ := requireTaskStatuses_bind isOk
  have isOpen : task.status.isTerminal = false := by
    rcases reserved with status | status <;> rw [status] <;> rfl
  split at result
  · cases result
  · rename_i met
    cases result
    exact ⟨⟨rfl, rfl, fun _ => isOpen⟩, not_not.mp met, isOpen, rfl⟩

theorem clearedTask_edges (task : Task) (source : LaunchSource) (stopErr : Option String)
    (detail : String) (now : Time) :
    SameEdges task (clearedTask task source stopErr detail now) ∧
      (clearedTask task source stopErr detail now).status = task.status := by
  unfold clearedTask
  cases stopErr <;> exact ⟨⟨rfl, rfl, fun isOpen => isOpen⟩, rfl⟩

theorem mem_addDependencies {after : List String} {id : String}
    (member : id ∈ (addDependencies task after now).dependsOn) :
    id ∈ task.dependsOn ∨ id ∈ after := by
  have folded : ∀ (rest known : List String),
      id ∈ rest.foldl (fun known id => if id ∈ known then known else known ++ [id]) known →
        id ∈ known ∨ id ∈ rest := by
    intro rest
    induction rest with
    | nil => exact fun _ isKnown => .inl isKnown
    | cons first rest ih =>
      intro known isFolded
      rcases ih _ isFolded with isKnown | isLater
      · dsimp only at isKnown
        split_ifs at isKnown
        · exact .inl isKnown
        · rcases List.mem_append.mp isKnown with isOld | isFirst
          · exact .inl isOld
          · rw [List.mem_singleton.mp isFirst]
            exact .inr List.mem_cons_self
      · exact .inr (List.mem_cons_of_mem _ isLater)
  exact folded after task.dependsOn member

/-- No two active tasks share an id, and open tasks find their dependencies. -/
structure Sound (store : Store) : Prop where
  unique : ∀ {first second}, first ∈ store.tasks.entries → second ∈ store.tasks.entries →
    first.id = second.id → first = second
  present : ∀ {task}, task ∈ store.tasks.entries → task.status.isTerminal = false →
    ∀ id ∈ task.dependsOn, ∃ dep ∈ store.tasks.entries, dep.id = id

theorem empty_sound : Sound .empty where
  unique := nofun
  present := nofun

/-- No open task waits for the id. -/
def Unneeded (store : Store) (id : String) : Prop :=
  ∀ task ∈ store.tasks.entries, task.status.isTerminal = false → id ∉ task.dependsOn

section
variable {store : Store}

theorem Sound.findTask_eq (sound : Sound store)
    (member : task ∈ store.tasks.entries) : store.findTask task.id = some task := by
  obtain ⟨found, isFound⟩ := Store.findTask_of_mem member
  obtain ⟨isEntry, sameId⟩ := Store.findTask_mem isFound
  rw [isFound, sound.unique isEntry member sameId]

theorem Sound.mem_listTasks (sound : Sound store) :
    task ∈ store.listTasks ↔ task ∈ store.tasks.entries := by
  rw [Store.mem_listTasks]
  constructor
  · rintro ⟨entry, _, isFound⟩
    exact (Store.findTask_mem isFound).1
  · intro member
    exact ⟨task, member, sound.findTask_eq member⟩

theorem Sound.sameTasks (sound : Sound store) {next : Store} (same : next.tasks = store.tasks) :
    Sound next where
  unique := by
    rw [same]
    exact sound.unique
  present := by
    rw [same]
    exact sound.present

theorem Sound.putTask (sound : Sound store)
    (only : ∀ other ∈ store.tasks.entries, other.id = task.id → other.path = task.path)
    (present : task.status.isTerminal = false →
      ∀ id ∈ task.dependsOn, ∃ dep ∈ store.tasks.entries, dep.id = id) :
    Sound (store.putTask task) := by
  have kept : ∀ {id}, (∃ dep ∈ store.tasks.entries, dep.id = id) →
      ∃ dep ∈ (store.putTask task).tasks.entries, dep.id = id := by
    rintro id ⟨dep, isEntry, isId⟩
    by_cases samePath : dep.path = task.path
    · refine ⟨task, Table.mem_put.mpr (.inl rfl), ?_⟩
      rw [← isId]
      exact (congrArg Prod.snd samePath).symm
    · exact ⟨dep, Table.mem_put.mpr (.inr ⟨isEntry, samePath⟩), isId⟩
  constructor
  · intro first second isFirst isSecond sameId
    rcases Table.mem_put.mp isFirst with firstNew | ⟨firstOld, firstPath⟩
    · rcases Table.mem_put.mp isSecond with secondNew | ⟨secondOld, secondPath⟩
      · rw [firstNew, secondNew]
      · rw [firstNew] at sameId
        exact absurd (only second secondOld sameId.symm) secondPath
    · rcases Table.mem_put.mp isSecond with secondNew | ⟨secondOld, _⟩
      · rw [secondNew] at sameId
        exact absurd (only first firstOld sameId) firstPath
      · exact sound.unique firstOld secondOld sameId
  · intro other isOther isOpen id isDep
    rcases Table.mem_put.mp isOther with isNew | ⟨isOld, _⟩
    · rw [isNew] at isOpen isDep
      exact kept (present isOpen id isDep)
    · exact kept (sound.present isOld isOpen id isDep)

theorem Sound.update (sound : Sound store) {before after : Task}
    (isEntry : before ∈ store.tasks.entries) (edges : SameEdges before after) :
    Sound (store.putTask after) := by
  apply sound.putTask
  · intro other isOther sameId
    rw [edges.path, sound.unique isOther isEntry (sameId.trans edges.id)]
  · intro isOpen id isDep
    rw [edges.dependsOn] at isDep
    exact sound.present isEntry (edges.stillOpen isOpen) id isDep

theorem Unneeded.update {id : String} (unneeded : Unneeded store id) {before after : Task}
    (isEntry : before ∈ store.tasks.entries) (edges : SameEdges before after) :
    Unneeded (store.putTask after) id := by
  intro other isOther isOpen
  rcases Table.mem_put.mp isOther with isNew | ⟨isOld, _⟩
  · rw [isNew] at isOpen ⊢
    rw [edges.dependsOn]
    exact unneeded before isEntry (edges.stillOpen isOpen)
  · exact unneeded other isOld isOpen

theorem Sound.moveToArchive (sound : Sound store)
    (unneeded : Unneeded store task.id) : Sound (store.moveToArchive task) := by
  constructor
  · intro first second isFirst isSecond sameId
    exact sound.unique (Table.mem_remove.mp isFirst).1 (Table.mem_remove.mp isSecond).1 sameId
  · intro other isOther isOpen id isDep
    have isOld := (Table.mem_remove.mp isOther).1
    obtain ⟨dep, isEntry, isId⟩ := sound.present isOld isOpen id isDep
    refine ⟨dep, Table.mem_remove.mpr ⟨isEntry, ?_⟩, isId⟩
    intro samePath
    have isTask : id = task.id := by
      rw [← isId]
      exact congrArg Prod.snd samePath
    rw [isTask] at isDep
    exact unneeded other isOld isOpen isDep

theorem Unneeded.moveToArchive {id : String} (unneeded : Unneeded store id) (task : Task) :
    Unneeded (store.moveToArchive task) id :=
  fun other isOther => unneeded other (Table.mem_remove.mp isOther).1

theorem Sound.removeWorkspaceDir (sound : Sound store) {name : String}
    (deserted : ∀ task ∈ store.tasks.entries, task.workspace ≠ name) :
    Sound (store.removeWorkspaceDir name) := by
  have kept : ∀ {task}, task ∈ (store.removeWorkspaceDir name).tasks.entries ↔
      task ∈ store.tasks.entries := by
    intro task
    unfold Store.removeWorkspaceDir
    rw [Table.mem_filter]
    exact ⟨And.left, fun member => ⟨member, by simpa using deserted task member⟩⟩
  constructor
  · intro first second isFirst isSecond
    exact sound.unique (kept.mp isFirst) (kept.mp isSecond)
  · intro task isTask isOpen id isDep
    obtain ⟨dep, isEntry, isId⟩ := sound.present (kept.mp isTask) isOpen id isDep
    exact ⟨dep, kept.mpr isEntry, isId⟩

theorem unneeded_of_blockers (sound : Sound store) {id : String}
    (unblocked : archiveDependencyBlockers store.listTasks id = []) : Unneeded store id := by
  rw [archiveDependencyBlockers_eq_nil] at unblocked
  intro task isEntry isOpen
  exact unblocked task (sound.mem_listTasks.mpr isEntry) isOpen

end

/-! ## Commands -/

/-- The command keeps the invariant, whether it succeeds or fails. -/
def Keeps {α : Type} (action : Action α) : Prop :=
  ∀ store, Sound store → After action (fun _ => Sound) Sound store

section
variable {store : Store} {env : Env} {fn : Task → Except String Task} {name : String}

theorem updateTask_sound (sound : Sound store) {update : Nat} {id : String}
    (edges : ∀ before after, store.findTask id = some before → fn before = .ok after →
      SameEdges before after) :
    After (Store.updateTask env update id fn) (fun _ => Sound) Sound store := by
  refine (Store.after_updateTask env update id fn store).mono ?_ ?_
  · rintro updated next ⟨isNext, before, isFound, isUpdated⟩
    rw [isNext]
    exact sound.update (Store.findTask_mem isFound).1 (edges before updated isFound isUpdated)
  · intro next same
    rw [same]
    exact sound

theorem updateTask_keeps {update : Nat} {id : String}
    (edges : ∀ before after, fn before = .ok after → SameEdges before after) :
    Keeps (Store.updateTask env update id fn) :=
  fun _ sound => updateTask_sound sound fun before after _ => edges before after

theorem Keeps.bind {α β : Type} {first : Action α} {later : α → Action β}
    (firstKeeps : Keeps first) (laterKeeps : ∀ result, Keeps (later result)) :
    Keeps (first >>= later) := by
  intro store sound
  rw [after_bind]
  exact (firstKeeps store sound).mono
    laterKeeps fun _ kept => kept

theorem ensureWorkspace_keeps (name : String) : Keeps (Store.ensureWorkspace env name) := by
  intro store sound
  unfold Store.ensureWorkspace
  split
  · exact sound
  · simp only [after_bind, after_get, after_require, after_attempt, after_modify]
    have kept : ∀ workspace, Sound (store.putWorkspace workspace) :=
      fun _ => sound.sameTasks rfl
    exact ⟨fun _ => ⟨fun _ => ⟨fun _ => kept _, fun _ => sound⟩, fun _ => sound⟩, fun _ => sound⟩

theorem ensureWorkspace_tasks (name : String) :
    After (Store.ensureWorkspace env name) (fun _ next => next.tasks = store.tasks)
      (fun _ => True) store := by
  unfold Store.ensureWorkspace
  split
  · rfl
  · simp only [after_bind, after_get, after_require, after_attempt, after_modify]
    exact ⟨fun _ => ⟨fun _ => ⟨fun _ => rfl, fun _ => trivial⟩, fun _ => trivial⟩, fun _ => trivial⟩

theorem createTask_sound (sound : Sound store) {spec : NewTask}
    (isFresh : ∀ task ∈ store.tasks.entries, task.id = spec.id → task.workspace = spec.workspace) :
    After (Store.createTask env spec) (fun _ => Sound) Sound store := by
  unfold Store.createTask
  simp only [after_bind, after_get, after_require]
  refine ⟨fun _ => ⟨fun _ => ?_, fun _ => sound⟩, fun _ => sound⟩
  have kept : After (Store.ensureWorkspace env spec.workspace) (fun _ => Sound) Sound store :=
    ensureWorkspace_keeps spec.workspace store sound
  refine (kept.and (ensureWorkspace_tasks spec.workspace)).mono ?_ (fun _ both => both.1)
  rintro _ next ⟨nextSound, sameTasks⟩
  refine ⟨fun _ => ?_, fun _ => nextSound⟩
  refine (Store.after_saveTask env 0 _ next).mono ?_ ?_
  · intro _ last isLast
    rw [isLast]
    apply nextSound.putTask
    · intro other isOther sameId
      rw [sameTasks] at isOther
      exact Prod.ext (isFresh other isOther sameId) sameId
    · intro _ id isDep
      exact absurd isDep List.not_mem_nil
  · intro last same
    rw [same]
    exact nextSound

theorem checkDependency_present {depID : String}
    (isOk : store.checkDependency task depID = .ok ()) :
    ∃ dep ∈ store.tasks.entries, dep.id = depID := by
  unfold Store.checkDependency Store.loadTask at isOk
  split_ifs at isOk
  cases found : store.findTask depID with
  | none =>
    rw [found] at isOk
    cases isOk
  | some dep => exact ⟨dep, Store.findTask_mem found⟩

theorem depTask_keeps (id : String) (after : List String) : Keeps (Store.depTask env id after) := by
  intro store sound
  unfold Store.depTask
  simp only [after_bind, after_get, after_require]
  refine ⟨fun _ => ?_, fun _ => sound⟩
  refine after_lift ?_ sound
  intro task isLoaded
  refine after_lift ?_ sound
  intro _ isChecked
  have isEntry := (Store.findTask_mem (Store.loadTask_eq_ok isLoaded)).1
  refine (Store.after_saveTask env 0 _ store).mono ?_ ?_
  · intro _ next isNext
    rw [isNext]
    apply sound.putTask
    · intro other isOther sameId
      rw [sound.unique isOther isEntry sameId]
      rfl
    · intro isOpen depID isDep
      rcases mem_addDependencies isDep with isOld | isNew
      · exact sound.present isEntry isOpen depID isOld
      · exact checkDependency_present (forM_eq_ok isChecked depID isNew)
  · intro next same
    rw [same]
    exact sound

theorem reserve_sound (sound : Sound store) {id : String} {masterIRC : String} :
    After (Store.reserve env id source masterIRC)
      (fun _ next => Sound next ∧ ∀ task, next.findTask id = some task →
        task.status.isTerminal = false) Sound store := by
  unfold Store.reserve
  simp only [after_bind, after_get]
  refine (Store.after_updateTask env 0 id _ store).mono ?_ ?_
  · rintro updated next ⟨isNext, before, isFound, isReserved⟩
    obtain ⟨edges, _, _, isAssigned⟩ := reserveTask_edges isReserved
    obtain ⟨isEntry, isId⟩ := Store.findTask_mem isFound
    have nextSound : Sound next := by
      rw [isNext]
      exact sound.update isEntry edges
    refine ⟨nextSound, ?_⟩
    intro task isTask
    obtain ⟨taskEntry, taskId⟩ := Store.findTask_mem isTask
    have isUpdated : updated ∈ next.tasks.entries := by
      rw [isNext]
      exact Table.mem_put.mpr (.inl rfl)
    rw [nextSound.unique taskEntry isUpdated (taskId.trans (edges.id.trans isId).symm), isAssigned]
    rfl
  · intro next same
    rw [same]
    exact sound

theorem rollBackTask_edges (isOpen : task.status.isTerminal = false)
    (source : LaunchSource) (prev : TaskRuntimeSnapshot) (note detail : String) (now : Time) :
    SameEdges task (rollBackTask task source prev note detail now) :=
  ⟨rfl, rfl, fun _ => isOpen⟩

theorem finalizeAssignedTaskSpawn_sound (sound : Sound store) {id : String}
    (isOpen : ∀ task, store.findTask id = some task → task.status.isTerminal = false)
    {prev : TaskRuntimeSnapshot} :
    After (Store.finalizeAssignedTaskSpawn env id source prev) (fun _ => Sound) Sound store := by
  have rollsBack : ∀ note detail now,
      After (Store.updateTask env 1 id fun task =>
        .ok (rollBackTask task source prev note detail now)) (fun _ => Sound) Sound store := by
    intro note detail now
    refine updateTask_sound sound fun before after isFound isOk => ?_
    cases isOk
    exact rollBackTask_edges (isOpen before isFound) _ _ _ _ _
  unfold Store.finalizeAssignedTaskSpawn
  split_ifs
  · simp only [after_bind, after_ignoring, after_throw]
    exact rollsBack _ _ _
  · simp only [after_bind, after_ignoring, after_throw]
    exact rollsBack _ _ _
  · refine updateTask_sound sound ?_
    intro before after _ isOk
    cases isOk
    exact ⟨rfl, rfl, fun isOpen => isOpen⟩

theorem assignTask_keeps (id : String) (source : LaunchSource) (masterIRC : String) :
    Keeps (Store.assignTask env id source masterIRC) := by
  intro store sound
  unfold Store.assignTask
  simp only [after_bind, after_get]
  refine after_lift ?_ sound
  intro before _
  refine (reserve_sound sound).mono ?_ (fun _ kept => kept)
  rintro _ next ⟨nextSound, isOpen⟩
  exact finalizeAssignedTaskSpawn_sound nextSound isOpen

theorem autoAssign_keeps (dep : Task) : Keeps (Store.autoAssign env dep) := by
  intro store sound
  unfold Store.autoAssign
  simp only [after_bind, after_get]
  split_ifs
  · simp only [after_bind, after_ignoring, after_pure]
    exact assignTask_keeps _ _ _ store sound
  · exact sound

theorem autoAssignDependents_keeps (completedID : String) :
    Keeps (Store.autoAssignDependents env completedID) := by
  intro store sound
  unfold Store.autoAssignDependents
  simp only [after_bind, after_get]
  exact after_forM (fun _ => Sound) sound fun dep _ next nextSound =>
    autoAssign_keeps dep next nextSound

theorem clearing_keeps (id : String) (source : LaunchSource) (stopErr : Option String)
    (detail : String) (now : Time) :
    Keeps (Store.updateTask env 1 id fun task =>
      .ok (clearedTask task source stopErr detail now)) := by
  refine updateTask_keeps fun before after isOk => ?_
  cases isOk
  exact (clearedTask_edges _ _ _ _ _).1

theorem failTask_keeps (id : String) (source : LaunchSource) (note : String) :
    Keeps (Store.failTask env id source note) :=
  (updateTask_keeps fun _ _ isOk => transitionTaskStatus_edges (by decide) isOk).bind
    fun _ => clearing_keeps _ _ _ _ _

theorem cancelTask_keeps (id : String) (source : LaunchSource) (note : String) :
    Keeps (Store.cancelTask env id source note) :=
  (updateTask_keeps fun _ _ isOk => transitionTaskStatus_edges (by decide) isOk).bind
    fun _ => clearing_keeps _ _ _ _ _

/-! ## The archive -/

theorem archiveTask_sound (sound : Sound store) {id : String} (unneeded : Unneeded store id) :
    After (Store.archiveTask env id)
      (fun _ next => Sound next ∧ ∀ other, Unneeded store other → Unneeded next other) Sound
      store := by
  refine (Store.after_archiveTask env id store).mono ?_ ?_
  · rintro _ next ⟨task, isFound, _, isNext⟩
    rw [isNext]
    refine ⟨sound.moveToArchive ?_, fun other isUnneeded => isUnneeded.moveToArchive task⟩
    rw [(Store.findTask_mem isFound).2]
    exact unneeded
  · intro next same
    rw [same]
    exact sound

theorem saveIndex_tasks (id : String) (record : Option Workspace) (store : Store) :
    After (Store.saveIndex env id record) (fun _ next => next.tasks = store.tasks)
      (fun next => next.tasks = store.tasks) store := by
  refine (Store.after_saveIndex env id record store).mono ?_ ?_
  · rintro _ next (⟨_, same⟩ | ⟨workspace, _, _, isNext⟩)
    · rw [same]
    · rw [isNext]
      rfl
  · rintro next ⟨same, _⟩
    rw [same]

theorem appendArchivedTaskToWorkspace_tasks (task : Task) (store : Store) :
    After (Store.appendArchivedTaskToWorkspace env task) (fun _ next => next.tasks = store.tasks)
      (fun next => next.tasks = store.tasks) store := by
  unfold Store.appendArchivedTaskToWorkspace
  simp only [after_bind, after_get]
  exact saveIndex_tasks _ _ store

theorem Unneeded.sameTasks {id : String} (unneeded : Unneeded store id) {next : Store}
    (same : next.tasks = store.tasks) : Unneeded next id := by
  unfold Unneeded
  rw [same]
  exact unneeded

theorem archiveAndAppend_sound (sound : Sound store) (unneeded : Unneeded store task.id) :
    After (Store.archiveTask env task.id >>= fun _ => Store.appendArchivedTaskToWorkspace env task)
      (fun _ next => Sound next ∧ ∀ other, Unneeded store other → Unneeded next other) Sound
      store := by
  rw [after_bind]
  refine (archiveTask_sound sound unneeded).mono ?_ (fun _ kept => kept)
  rintro _ next ⟨nextSound, stillUnneeded⟩
  refine (appendArchivedTaskToWorkspace_tasks task next).mono ?_ ?_
  · intro _ last same
    exact ⟨nextSound.sameTasks same, fun other isUnneeded =>
      (stillUnneeded other isUnneeded).sameTasks same⟩
  · intro last same
    exact nextSound.sameTasks same

/-- The loop invariant of the archivals. -/
def Archiving (rest : List Task) (store : Store) : Prop :=
  Sound store ∧ ∀ task ∈ rest, Unneeded store task.id

theorem archiveSingleTask_keeps (id : String) : Keeps (Store.archiveSingleTask env id) := by
  intro store sound
  unfold Store.archiveSingleTask
  rw [after_bind, after_get, after_bind]
  refine after_lift ?_ sound
  intro task isLoaded
  rw [after_bind]
  refine after_lift ?_ sound
  intro _ isArchiveable
  have unneeded := unneeded_of_blockers sound (archiveabilityError_eq_ok isArchiveable).2
  rw [← (Store.findTask_mem (Store.loadTask_eq_ok isLoaded)).2]
  exact (archiveAndAppend_sound sound unneeded).mono (fun _ _ kept => kept.1) (fun _ kept => kept)

theorem archiveTerminal_keeps : Keeps (Store.archiveTerminal env) := by
  intro store sound
  unfold Store.archiveTerminal
  rw [after_bind, after_get, after_bind]
  have start : Archiving store.archiveableTasks store := by
    refine ⟨sound, ?_⟩
    intro task member
    unfold Store.archiveableTasks at member
    rw [List.mem_filter, decide_eq_true_eq] at member
    exact unneeded_of_blockers sound (taskArchiveability_iff.mp member.2.1).2
  refine (after_forM Archiving start ?_).mono (fun _ _ holds => holds.1) (fun _ kept => kept)
  rintro task rest next ⟨nextSound, unneeded⟩
  refine (archiveAndAppend_sound nextSound (unneeded task List.mem_cons_self)).mono ?_
    (fun _ kept => kept)
  rintro _ last ⟨lastSound, stillUnneeded⟩
  exact ⟨lastSound, fun other isLater =>
    stillUnneeded other.id (unneeded other (List.mem_cons_of_mem _ isLater))⟩

theorem teardownTaskRuntimeForArchive_sound (sound : Sound store) (id : String) :
    After (Store.teardownTaskRuntimeForArchive env id)
      (fun _ next => Sound next ∧ ∀ other, Unneeded store other → Unneeded next other) Sound
      store := by
  unfold Store.teardownTaskRuntimeForArchive
  simp only [after_bind, after_get]
  refine after_lift ?_ sound
  intro _ _
  simp only [after_attempt, after_pure]
  refine ⟨fun _ => ?_, fun _ => sound⟩
  refine (Store.after_updateTask env 0 id _ store).mono ?_ ?_
  · rintro updated next ⟨isNext, before, isFound, isUpdated⟩
    cases isUpdated
    have isEntry := (Store.findTask_mem isFound).1
    have edges := (clearedTask_edges before ⟨"system", "workspace archive"⟩ none
      "workspace archive teardown" (env.now id 0)).1
    rw [isNext]
    exact ⟨sound.update isEntry edges, fun other isUnneeded => isUnneeded.update isEntry edges⟩
  · intro next same
    rw [same]
    exact sound

theorem archiveWorkspaceTask_sound (sound : Sound store) (unneeded : Unneeded store task.id) :
    After (Store.archiveWorkspaceTask env task)
      (fun _ next => Sound next ∧ ∀ other, Unneeded store other → Unneeded next other) Sound
      store := by
  unfold Store.archiveWorkspaceTask
  rw [after_bind]
  refine (teardownTaskRuntimeForArchive_sound sound task.id).mono ?_ (fun _ kept => kept)
  rintro _ next ⟨nextSound, stillUnneeded⟩
  refine (archiveAndAppend_sound nextSound (stillUnneeded _ unneeded)).mono ?_
    (fun _ kept => kept)
  rintro _ last ⟨lastSound, unneededToo⟩
  exact ⟨lastSound, fun other isUnneeded => unneededToo other (stillUnneeded other isUnneeded)⟩

theorem checkArchiveWorkspace_unneeded (sound : Sound store) {workspace : Workspace}
    (isOk : store.checkArchiveWorkspace name = .ok workspace) :
    ∀ task ∈ store.listTasksInWorkspace name, Unneeded store task.id := by
  unfold Store.checkArchiveWorkspace at isOk
  iterate 5 obtain ⟨_, _, isOk⟩ := except_bind_eq_ok isOk
  obtain ⟨_, areArchiveable, _⟩ := except_bind_eq_ok isOk
  intro task member
  have isArchiveable := mapError_eq_ok (forM_eq_ok areArchiveable task member)
  exact unneeded_of_blockers sound (archiveabilityError_eq_ok isArchiveable).2

theorem archiveWorkspace_keeps (name : String) : Keeps (Store.archiveWorkspace env name) := by
  intro store sound
  unfold Store.archiveWorkspace
  rw [after_bind, after_get, after_bind]
  refine after_lift ?_ sound
  intro workspace isChecked
  rw [after_bind]
  have start : Archiving (store.listTasksInWorkspace name) store :=
    ⟨sound, checkArchiveWorkspace_unneeded sound isChecked⟩
  refine (after_forM Archiving start ?_).mono ?_ (fun _ kept => kept)
  · rintro task rest next ⟨nextSound, unneeded⟩
    refine (archiveWorkspaceTask_sound nextSound (unneeded task List.mem_cons_self)).mono ?_
      (fun _ kept => kept)
    rintro _ last ⟨lastSound, stillUnneeded⟩
    exact ⟨lastSound, fun other isLater =>
      stillUnneeded other.id (unneeded other (List.mem_cons_of_mem _ isLater))⟩
  · rintro _ next ⟨nextSound, _⟩
    simp only [after_bind, after_require, after_attempt, after_modify, after_pure]
    exact ⟨fun _ => ⟨fun _ => nextSound.sameTasks rfl, fun _ => nextSound⟩, fun _ => nextSound⟩

theorem deleteArchivedTask_tasks (id : String) (store : Store) :
    After (Store.deleteArchivedTask env id) (fun _ next => next.tasks = store.tasks)
      (fun next => next.tasks = store.tasks) store := by
  unfold Store.deleteArchivedTask Store.removeArchivedTaskFromWorkspace
  simp only [after_bind, after_get]
  refine after_lift ?_ rfl
  intro task _
  simp only [after_attempt, after_modify]
  exact ⟨fun _ => saveIndex_tasks _ _ (store.removeArchived id), fun _ => trivial⟩

theorem checkDeleteArchivedWorkspace_deserted {archived : List Task}
    (isOk : store.checkDeleteArchivedWorkspace name = .ok archived) :
    ∀ task ∈ store.tasks.entries, task.workspace ≠ name := by
  unfold Store.checkDeleteArchivedWorkspace at isOk
  iterate 6 obtain ⟨_, _, isOk⟩ := except_bind_eq_ok isOk
  obtain ⟨_, isDeserted, _⟩ := except_bind_eq_ok isOk
  intro task member isName
  obtain ⟨found, isFound⟩ := Store.findTask_of_mem member
  have isListed := Store.mem_listTasksInWorkspace.mpr ⟨task, member, isName, isFound⟩
  rw [demand_eq_ok isDeserted] at isListed
  exact List.not_mem_nil isListed

theorem deleteArchivedWorkspace_keeps (name : String) :
    Keeps (Store.deleteArchivedWorkspace env name) := by
  intro store sound
  unfold Store.deleteArchivedWorkspace
  rw [after_bind, after_get, after_bind]
  refine after_lift ?_ sound
  intro archived isChecked
  have deserted := checkDeleteArchivedWorkspace_deserted isChecked
  rw [after_bind]
  refine (after_forM (fun _ next => next.tasks = store.tasks) rfl ?_).mono ?_
    (fun next same => sound.sameTasks same)
  · intro task _ next same
    refine (deleteArchivedTask_tasks task.id next).mono ?_ ?_
    · intro _ last lastSame
      exact lastSame.trans same
    · intro last lastSame
      exact lastSame.trans same
  · intro _ next same
    have nextSound := sound.sameTasks same
    simp only [after_bind, after_attempt, after_modify, after_pure]
    refine ⟨fun _ => nextSound.removeWorkspaceDir ?_, fun _ => nextSound⟩
    rw [same]
    exact deserted

end

variable {store : Store}

theorem command_sound (sound : Sound store) {line : CommandLine}
    (isFresh : FreshAcrossWorkspaces store line) :
    After (line.command.run line.env) (fun _ => Sound) Sound store := by
  obtain ⟨env, command⟩ := line
  cases command with
  | create spec => exact createTask_sound sound isFresh
  | dep id after => exact depTask_keeps id after store sound
  | assign id source masterIRC =>
    exact after_discard.mpr (assignTask_keeps id source masterIRC store sound)
  | autoAssign completedID => exact autoAssignDependents_keeps completedID store sound
  | start id source note =>
    exact after_discard.mpr (updateTask_keeps (fun _ _ isOk => startTask_edges isOk) store sound)
  | review id source note | requestChanges id source note | approve id source note =>
    refine after_discard.mpr (updateTask_keeps (fun _ _ isOk => ?_) store sound)
    exact transitionTaskStatus_edges (by decide) isOk
  | complete id source note =>
    exact after_discard.mpr
      (updateTask_keeps (fun _ _ isOk => completeTask_edges isOk) store sound)
  | fail id source note => exact after_discard.mpr (failTask_keeps id source note store sound)
  | cancel id source note => exact after_discard.mpr (cancelTask_keeps id source note store sound)
  | note id source text =>
    exact after_discard.mpr
      (updateTask_keeps (fun _ _ isOk => addTaskNote_edges isOk) store sound)
  | changeType id newType =>
    refine after_discard.mpr (updateTask_keeps (fun _ _ isOk => ?_) store sound)
    cases isOk
    exact ⟨rfl, rfl, fun isOpen => isOpen⟩
  | archiveTask id => exact archiveSingleTask_keeps id store sound
  | archiveTerminal => exact after_discard.mpr (archiveTerminal_keeps store sound)
  | archiveWorkspace name => exact after_discard.mpr (archiveWorkspace_keeps name store sound)
  | deleteArchivedTask id =>
    exact (deleteArchivedTask_tasks id store).mono (fun _ _ same => sound.sameTasks same)
      (fun _ same => sound.sameTasks same)
  | deleteArchivedWorkspace name =>
    exact after_discard.mpr (deleteArchivedWorkspace_keeps name store sound)

theorem run_sound {store : Store} (run : Run Store.step FreshAcrossWorkspaces .empty store) :
    Sound store :=
  run.invariant empty_sound fun _ _ _ sound isFresh ran =>
    Store.step_after (command_sound sound isFresh) ran

theorem Sound.prerequisitesPresent (sound : Sound store) : PrerequisitesPresent store := by
  intro task isEntry isOpen id isDep
  obtain ⟨dep, depEntry, isId⟩ := sound.present isEntry isOpen id isDep
  rw [← isId]
  exact ⟨dep, sound.findTask_eq depEntry⟩

theorem Sound.assignsCompleted (sound : Sound store) : AssignsCompleted store := by
  intro env id source masterIRC assigned next succeeded
  have reserved : After (Store.assignTask env id source masterIRC)
      (fun _ _ => ∃ task, store.findTask id = some task ∧ ∀ depID ∈ task.dependsOn,
        ∃ dep, store.findTask depID = some dep ∧ dep.status = .completed) (fun _ => True)
      store := by
    unfold Store.assignTask Store.reserve
    simp only [after_bind, after_get]
    refine after_lift ?_ trivial
    intro _ _
    refine (Store.after_updateTask env 0 id _ store).mono ?_ (fun _ _ => trivial)
    rintro updated _ ⟨_, task, isFound, isReserved⟩
    refine .of_forall (fun _ _ => ⟨task, isFound, ?_⟩) (fun _ => trivial)
    obtain ⟨_, met, isOpen, _⟩ := reserveTask_edges isReserved
    intro depID isDep
    obtain ⟨dep, isPresent⟩ := sound.prerequisitesPresent task (Store.findTask_mem isFound).1
      isOpen depID isDep
    refine ⟨dep, isPresent, ?_⟩
    unfold Store.areDependenciesMet at met
    have isMet := List.filter_eq_nil_iff.mp met depID isDep
    rw [isPresent] at isMet
    simpa using isMet
  exact reserved.ok succeeded

/-- **A task is assigned only after its prerequisites were completed**, as long as no two
workspaces draw the same id. -/
theorem dependenciesRespected {store : Store}
    (run : Run Store.step FreshAcrossWorkspaces .empty store) :
    PrerequisitesPresent store ∧ AssignsCompleted store :=
  ⟨(run_sound run).prerequisitesPresent, (run_sound run).assignsCompleted⟩

def cli : LaunchSource := ⟨"cli", "task"⟩

def taskIn (workspace id : String) : NewTask := ⟨id, "t", "coding", workspace, "", "", false⟩

/-- A task of the workspace waits for one that is canceled. A global task of its id hides
it while the dependency is archived, and is archived itself. -/
def hiddenDependent : List Command :=
  [.create (taskIn "lane" "d"), .create (taskIn "lane" "x"), .dep "x" ["d"], .cancel "d" cli "",
    .create (taskIn globalWorkspaceName "x"), .archiveTask "d", .cancel "x" cli "",
    .archiveTask "x"]

theorem not_dependenciesRespected : ¬ DependenciesRespected fun _ _ => True := by
  intro respected
  obtain ⟨store, replayed, isMissing, assigned, next, succeeded, task, isFound, isDep⟩ :
      ∃ store, execute Store.step .empty (hiddenDependent.map (⟨quietEnv, ·⟩)) = some store ∧
        store.findTask "d" = none ∧
          ∃ assigned next, Store.assignTask quietEnv "x" cli "" store = .ok assigned next ∧
            ∃ task, store.findTask "x" = some task ∧ "d" ∈ task.dependsOn :=
    ⟨_, rfl, rfl, _, _, rfl, _, rfl, List.mem_singleton_self _⟩
  obtain ⟨found, isX, completed⟩ :=
    (respected store (reachable_of_execute _ replayed)).2 _ _ _ _ _ _ succeeded
  rw [isFound] at isX
  cases isX
  obtain ⟨dep, isPresent, _⟩ := completed "d" isDep
  rw [isMissing] at isPresent
  cases isPresent

/-- The dependency is completed before its dependent is assigned. -/
def completedFirst : List Command :=
  [.create (taskIn "lane" "d"), .create (taskIn "lane" "x"), .dep "x" ["d"],
    .assign "d" cli "", .start "d" cli "", .complete "d" cli ""]

theorem dependenciesRespected_completedFirst :
    ∃ store assigned next, Run Store.step FreshAcrossWorkspaces .empty store ∧
      Store.assignTask quietEnv "x" cli "" store = .ok assigned next ∧
        ∃ task, store.findTask "x" = some task ∧ ∀ depID ∈ task.dependsOn,
          ∃ dep, store.findTask depID = some dep ∧ dep.status = .completed := by
  obtain ⟨store, replayed, assigned, next, succeeded⟩ :
      ∃ store, execute Store.step .empty (completedFirst.map (⟨quietEnv, ·⟩)) = some store ∧
        ∃ assigned next, Store.assignTask quietEnv "x" cli "" store = .ok assigned next :=
    ⟨_, rfl, _, _, rfl⟩
  have permitted : Permitted Store.step FreshAcrossWorkspaces .empty
      (completedFirst.map (⟨quietEnv, ·⟩)) := by
    refine ⟨fun task member => absurd member List.not_mem_nil, _, rfl, ?_, _, rfl, trivial, _,
      rfl, trivial, _, rfl, trivial, _, rfl, trivial, _, rfl, trivial⟩
    intro task member _
    rw [List.mem_singleton.mp member]
    rfl
  have run := run_of_permitted _ permitted replayed
  exact ⟨store, assigned, next, run, succeeded, (dependenciesRespected run).2 _ _ _ _ _ _ succeeded⟩

end AiTools.Whip.Dependencies
