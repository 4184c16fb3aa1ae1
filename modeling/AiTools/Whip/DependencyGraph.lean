import AiTools.Lib.Dag
import AiTools.Whip.Dependencies

/-!
Contract: the prerequisites of the tasks form a graph without cycles within each workspace.

An id is a node: what two stored tasks with one id list belongs to that id.
-/

namespace AiTools.Whip.DependencyGraph

open AiTools.Lib.Transition AiTools.Lib.Keyed AiTools.Lib.Effect AiTools.Lib.Dag Relation
open AiTools.Whip.Dependencies
open List (mem_cons mem_cons_self not_mem_nil)

/-- The record of the task lies in the store, as an active or an archived one. -/
def Stored (store : Store) (task : Task) : Prop :=
  task ∈ store.tasks.entries ∨ task ∈ store.archive.entries

/-- A stored task with the id lists `dep`. -/
def WaitsFor (store : Store) (id dep : String) : Prop :=
  ∃ task, Stored store task ∧ task.id = id ∧ dep ∈ task.dependsOn

/-- The dependencies of the stored tasks are a DAG inside each workspace. -/
structure Layered (store : Store) : Prop where
  acyclic : Acyclic (WaitsFor store)
  sameWorkspace : ∀ {task dep}, Stored store task → Stored store dep →
    dep.id ∈ task.dependsOn → dep.workspace = task.workspace
  nodup : ∀ {task}, Stored store task → task.dependsOn.Nodup
  /-- No set of tasks blocks itself: one of them waits for none of the others. -/
  unblocked : ∀ tasks : List Task, tasks ≠ [] → (∀ task ∈ tasks, Stored store task) →
    ∃ task ∈ tasks, ∀ other ∈ tasks, other.id ∉ task.dependsOn

/-- In every run from the empty store whose commands all meet `ok`, the dependencies are
a DAG. -/
def StaysLayered (ok : Store → CommandLine → Prop) : Prop :=
  ∀ store, Run Store.step ok .empty store → Layered store

/-- The checks that `dep` makes of the task and the prerequisites. -/
def Accepts (store : Store) (id : String) (after : List String) : Prop :=
  ∃ task, store.findTask id = some task ∧ ∀ depID ∈ after, store.checkDependency task depID = .ok ()

/-- No prerequisite that `dep` accepts waits for the task already, and `create` draws an id
that no task of another workspace has or lists. -/
def Unentangled (store : Store) (line : CommandLine) : Prop :=
  match line.command with
  | .create spec => ∀ task, Stored store task →
      task.id = spec.id ∨ spec.id ∈ task.dependsOn → task.workspace = spec.workspace
  | .dep id after => Accepts store id after → ∀ depID ∈ after, ¬ TransGen (WaitsFor store) depID id
  | _ => True

structure Sound (store : Store) : Prop where
  acyclic : Acyclic (WaitsFor store)
  sameWorkspace : ∀ {task dep}, Stored store task → Stored store dep →
    dep.id ∈ task.dependsOn → dep.workspace = task.workspace
  nodup : ∀ {task}, Stored store task → task.dependsOn.Nodup
  /-- An id belongs to one workspace. -/
  oneWorkspace : ∀ {first second}, Stored store first → Stored store second →
    first.id = second.id → first.workspace = second.workspace

variable {store : Store}

theorem Sound.layered (sound : Sound store) : Layered store where
  __ := sound
  unblocked := by
    intro tasks nonempty areStored
    have someIds : tasks.map Task.id ≠ [] := by simpa using nonempty
    obtain ⟨id, isId, never⟩ := sound.acyclic.exists_least someIds
    obtain ⟨task, member, rfl⟩ := List.mem_map.mp isId
    refine ⟨task, member, fun other isOther isDep => ?_⟩
    exact never other.id (List.mem_map_of_mem isOther) ⟨task, areStored task member, rfl, isDep⟩

variable {task : Task} {after : List String} {id : String}

theorem not_stored_empty : ¬ Stored .empty task := by
  rintro (isTask | isTask) <;> exact not_mem_nil isTask

theorem empty_sound : Sound .empty where
  acyclic := by
    intro id cycle
    obtain ⟨_, ⟨task, isStored, _⟩, _⟩ := TransGen.head'_iff.mp cycle
    exact not_stored_empty isStored
  sameWorkspace := fun isTask => absurd isTask not_stored_empty
  nodup := fun isTask => absurd isTask not_stored_empty
  oneWorkspace := fun isTask => absurd isTask not_stored_empty

/-- Every record of `next` has the path and the dependencies of one in `store`. -/
def Inherits (store next : Store) : Prop :=
  ∀ task, Stored next task →
    ∃ old, Stored store old ∧ old.path = task.path ∧ old.dependsOn = task.dependsOn

instance : Std.Refl Inherits := ⟨fun _ task isStored => ⟨task, isStored, rfl, rfl⟩⟩

instance : IsTrans Store Inherits where
  trans := by
    intro store middle next first second task isStored
    obtain ⟨between, isBetween, samePath, sameDeps⟩ := second task isStored
    obtain ⟨old, isOld, oldPath, oldDeps⟩ := first between isBetween
    exact ⟨old, isOld, oldPath.trans samePath, oldDeps.trans sameDeps⟩

section
variable {store next : Store}

/-- Every record has the path of an old one, and lists what that one listed. The records of
`source` may list `after` besides, which lies in their workspace and does not wait for them. -/
theorem Sound.grow (sound : Sound store) {source : String}
    (grows : ∀ task, Stored next task → ∃ old, Stored store old ∧ old.path = task.path ∧
      ∀ id ∈ task.dependsOn, id ∈ old.dependsOn ∨ old.id = source ∧ id ∈ after)
    (nodup : ∀ task, Stored next task → task.dependsOn.Nodup) (others : ∀ id ∈ after, id ≠ source)
    (free : ∀ id ∈ after, ¬ TransGen (WaitsFor store) id source)
    (within : ∀ task dep, Stored store task → Stored store dep → task.id = source →
      dep.id ∈ after → dep.workspace = task.workspace) : Sound next where
  acyclic := by
    refine (sound.acyclic.extend others free).mono ?_
    rintro id dep ⟨task, isStored, isId, isDep⟩
    obtain ⟨old, isOld, samePath, listed⟩ := grows task isStored
    have oldId : old.id = id := (congrArg Prod.snd samePath).trans isId
    rcases listed dep isDep with wasListed | ⟨isSource, isAdded⟩
    · exact .inl ⟨old, isOld, oldId, wasListed⟩
    · exact .inr ⟨oldId.symm.trans isSource, isAdded⟩
  sameWorkspace := by
    intro task dep isTask isDep isListed
    obtain ⟨oldTask, isOldTask, taskPath, listed⟩ := grows task isTask
    obtain ⟨oldDep, isOldDep, depPath, _⟩ := grows dep isDep
    rw [← show oldDep.id = dep.id from congrArg Prod.snd depPath] at isListed
    calc dep.workspace
        = oldDep.workspace := (congrArg Prod.fst depPath).symm
      _ = oldTask.workspace := by
          rcases listed oldDep.id isListed with wasListed | ⟨isSource, isAdded⟩
          · exact sound.sameWorkspace isOldTask isOldDep wasListed
          · exact within oldTask oldDep isOldTask isOldDep isSource isAdded
      _ = task.workspace := congrArg Prod.fst taskPath
  nodup := fun {task} isTask => nodup task isTask
  oneWorkspace := by
    intro first second isFirst isSecond sameId
    obtain ⟨oldFirst, isOldFirst, firstPath, _⟩ := grows first isFirst
    obtain ⟨oldSecond, isOldSecond, secondPath, _⟩ := grows second isSecond
    have sameOldId : oldFirst.id = oldSecond.id :=
      (congrArg Prod.snd firstPath).trans (sameId.trans (congrArg Prod.snd secondPath).symm)
    calc first.workspace
        = oldFirst.workspace := (congrArg Prod.fst firstPath).symm
      _ = oldSecond.workspace := sound.oneWorkspace isOldFirst isOldSecond sameOldId
      _ = second.workspace := congrArg Prod.fst secondPath

theorem Sound.inherits (sound : Sound store) (inherits : Inherits store next) : Sound next := by
  have grows : ∀ task, Stored next task → ∃ old, Stored store old ∧ old.path = task.path ∧
      ∀ id ∈ task.dependsOn, id ∈ old.dependsOn ∨ old.id = "" ∧ id ∈ [] := by
    intro task isStored
    obtain ⟨old, isOld, samePath, sameDeps⟩ := inherits task isStored
    refine ⟨old, isOld, samePath, fun id isDep => .inl ?_⟩
    rw [sameDeps]
    exact isDep
  refine sound.grow grows ?_ nofun
    nofun
    (fun _ _ _ _ _ isNone => absurd isNone not_mem_nil)
  intro task isTask
  obtain ⟨old, isOld, _, sameDeps⟩ := inherits task isTask
  rw [← sameDeps]
  exact sound.nodup isOld

theorem inherits_of_stored (fewer : ∀ task, Stored next task → Stored store task) :
    Inherits store next := fun task isStored => ⟨task, fewer task isStored, rfl, rfl⟩

theorem stored_putTask {other : Task} (isStored : Stored (store.putTask task) other) :
    other = task ∨ Stored store other := by
  rcases isStored with isTask | isArchived
  · rcases Table.mem_put.mp isTask with isNew | ⟨isOld, _⟩
    · exact .inl isNew
    · exact .inr (.inl isOld)
  · exact .inr (.inr isArchived)

theorem putTask_inherits {before after : Task} (isEntry : before ∈ store.tasks.entries)
    (samePath : after.path = before.path) (sameDeps : after.dependsOn = before.dependsOn) :
    Inherits store (store.putTask after) := by
  intro task isStored
  rcases stored_putTask isStored with isNew | isOld
  · rw [isNew]
    exact ⟨before, .inl isEntry, samePath.symm, sameDeps.symm⟩
  · exact ⟨task, isOld, rfl, rfl⟩

theorem Sound.putFresh (sound : Sound store) (isFresh : task.dependsOn = [])
    (unentangled : ∀ other, Stored store other → other.id = task.id ∨ task.id ∈ other.dependsOn →
      other.workspace = task.workspace) : Sound (store.putTask task) where
  acyclic := by
    refine sound.acyclic.mono ?_
    rintro id dep ⟨other, isStored, isId, isDep⟩
    rcases stored_putTask isStored with isNew | isOld
    · rw [isNew, isFresh] at isDep
      exact absurd isDep not_mem_nil
    · exact ⟨other, isOld, isId, isDep⟩
  sameWorkspace := by
    intro other dep isOther isDep isListed
    rcases stored_putTask isOther with isNew | isOld
    · rw [isNew, isFresh] at isListed
      exact absurd isListed not_mem_nil
    · rcases stored_putTask isDep with isNew | isOldDep
      · rw [isNew] at isListed ⊢
        exact (unentangled other isOld (.inr isListed)).symm
      · exact sound.sameWorkspace isOld isOldDep isListed
  nodup := by
    intro other isOther
    rcases stored_putTask isOther with isNew | isOld
    · rw [isNew, isFresh]
      exact List.nodup_nil
    · exact sound.nodup isOld
  oneWorkspace := by
    intro first second isFirst isSecond sameId
    rcases stored_putTask isFirst with firstNew | firstOld
    · rcases stored_putTask isSecond with secondNew | secondOld
      · rw [firstNew, secondNew]
      · rw [firstNew] at sameId ⊢
        exact (unentangled second secondOld (.inl sameId.symm)).symm
    · rcases stored_putTask isSecond with secondNew | secondOld
      · rw [secondNew] at sameId ⊢
        exact unentangled first firstOld (.inl sameId)
      · exact sound.oneWorkspace firstOld secondOld sameId

theorem addDependencies_nodup (nodup : task.dependsOn.Nodup) (after : List String)
    (now : Time) : (addDependencies task after now).dependsOn.Nodup := by
  have folded : ∀ (rest known : List String), known.Nodup →
      (rest.foldl (fun known id => if id ∈ known then known else known ++ [id]) known).Nodup := by
    intro rest
    induction rest with
    | nil => exact fun _ isNodup => isNodup
    | cons first rest ih =>
      intro known isNodup
      apply ih
      dsimp only
      split_ifs with isKnown
      · exact isNodup
      · rw [← List.concat_eq_append]
        exact isNodup.concat isKnown
  exact folded after task.dependsOn nodup

/-- The prerequisites lie in the task's own workspace, and are not the task itself. -/
theorem checkDependency_eq_ok {depID : String} (isOk : store.checkDependency task depID = .ok ()) :
    depID ≠ task.id ∧ ∃ dep, store.findTask depID = some dep ∧ dep.workspace = task.workspace := by
  unfold Store.checkDependency Store.loadTask at isOk
  split_ifs at isOk with isSelf
  refine ⟨isSelf, ?_⟩
  cases found : store.findTask depID with
  | none =>
    rw [found] at isOk
    cases isOk
  | some dep =>
    rw [found] at isOk
    refine ⟨dep, rfl, ?_⟩
    by_contra differs
    dsimp only [bind, Except.bind] at isOk
    simp [if_pos differs] at isOk

theorem Sound.putDependent (sound : Sound store) (isEntry : task ∈ store.tasks.entries) {now : Time}
    (isOk : ∀ depID ∈ after, store.checkDependency task depID = .ok ())
    (free : ∀ depID ∈ after, ¬ TransGen (WaitsFor store) depID task.id) :
    Sound (store.putTask (addDependencies task after now)) := by
  refine sound.grow ?_ ?_ (fun depID isDep => (checkDependency_eq_ok (isOk depID isDep)).1) free ?_
  · intro other isStored
    rcases stored_putTask isStored with isNew | isOld
    · rw [isNew]
      refine ⟨task, .inl isEntry, rfl, fun id isDep => ?_⟩
      exact (mem_addDependencies isDep).imp_right fun isAdded => ⟨rfl, isAdded⟩
    · exact ⟨other, isOld, rfl, fun _ isDep => .inl isDep⟩
  · intro other isStored
    rcases stored_putTask isStored with isNew | isOld
    · rw [isNew]
      exact addDependencies_nodup (sound.nodup (.inl isEntry)) after now
    · exact sound.nodup isOld
  · intro other dep isOther isDep isTask isAdded
    obtain ⟨_, found, isFound, isWorkspace⟩ := checkDependency_eq_ok (isOk dep.id isAdded)
    obtain ⟨foundEntry, sameId⟩ := Store.findTask_mem isFound
    calc dep.workspace
        = found.workspace := sound.oneWorkspace isDep (.inl foundEntry) sameId.symm
      _ = task.workspace := isWorkspace
      _ = other.workspace := sound.oneWorkspace (.inl isEntry) isOther isTask.symm

theorem ensureWorkspace_stored (env : Env) (name : String) (store : Store) :
    After (Store.ensureWorkspace env name)
      (fun _ next => ∀ task, Stored next task ↔ Stored store task)
      (fun next => ∀ task, Stored next task ↔ Stored store task) store := by
  unfold Store.ensureWorkspace
  split
  · exact fun _ => Iff.rfl
  · simp only [after_bind, after_get, after_require, after_attempt, after_modify]
    exact ⟨fun _ => ⟨fun _ => ⟨fun _ _ => Iff.rfl, fun _ _ => trivial⟩, fun _ _ => trivial⟩,
      fun _ _ => trivial⟩

theorem createTask_sound (sound : Sound store) {env : Env} {spec : NewTask}
    (unentangled : ∀ task, Stored store task →
      task.id = spec.id ∨ spec.id ∈ task.dependsOn → task.workspace = spec.workspace) :
    After (Store.createTask env spec) (fun _ => Sound) Sound store := by
  unfold Store.createTask
  simp only [after_bind, after_get, after_require]
  refine ⟨fun _ => ⟨fun _ => ?_, fun _ => sound⟩, fun _ => sound⟩
  refine (ensureWorkspace_stored env spec.workspace store).mono ?_
    (fun next same => sound.inherits (inherits_of_stored fun task => (same task).mp))
  intro _ next same
  have nextSound : Sound next := sound.inherits (inherits_of_stored fun task => (same task).mp)
  refine ⟨fun _ => ?_, fun _ => nextSound⟩
  refine (Store.after_saveTask env 0 _ next).mono ?_ ?_
  · intro _ last isLast
    rw [isLast]
    exact nextSound.putFresh rfl fun other isOther => unentangled other ((same other).mp isOther)
  · intro last sameStore
    rw [sameStore]
    exact nextSound

theorem depTask_sound (sound : Sound store) {env : Env}
    (free : Accepts store id after → ∀ depID ∈ after, ¬ TransGen (WaitsFor store) depID id) :
    After (Store.depTask env id after) (fun _ => Sound) Sound store := by
  unfold Store.depTask
  simp only [after_bind, after_get, after_require]
  refine ⟨fun _ => ?_, fun _ => sound⟩
  refine after_lift ?_ sound
  intro task isLoaded
  refine after_lift ?_ sound
  intro _ isChecked
  have isFound := Store.loadTask_eq_ok isLoaded
  have isOk := forM_eq_ok isChecked
  obtain ⟨isEntry, isId⟩ := Store.findTask_mem isFound
  refine (Store.after_saveTask env 0 _ store).mono ?_ ?_
  · intro _ next isNext
    rw [isNext]
    refine sound.putDependent isEntry isOk ?_
    rw [isId]
    exact free ⟨task, isFound, isOk⟩
  · intro next same
    rw [same]
    exact sound

end

section
variable {env : Env} {update : Nat} {fn : Task → Except String Task}

theorem updateTask_relates (edges : ∀ before after, fn before = .ok after →
      after.path = before.path ∧ after.dependsOn = before.dependsOn) :
    Relates Inherits (Store.updateTask env update id fn) := by
  intro store
  refine (Store.after_updateTask env update id fn store).mono ?_ ?_
  · rintro updated next ⟨isNext, before, isFound, isUpdated⟩
    obtain ⟨samePath, sameDeps⟩ := edges before updated isUpdated
    rw [isNext]
    exact putTask_inherits (Store.findTask_mem isFound).1 samePath sameDeps
  · intro next same
    rw [same]
    exact refl store

theorem updateTask_relates_of_edges
    (edges : ∀ before after, fn before = .ok after → SameEdges before after) :
    Relates Inherits (Store.updateTask env update id fn) :=
  updateTask_relates fun before after isOk =>
    ⟨(edges before after isOk).path, (edges before after isOk).dependsOn⟩

theorem attempt_relates (io : Io) : Relates Inherits (env.attempt io) := .require _ _

theorem assignTask_relates (id : String) (source : LaunchSource) (masterIRC : String) :
    Relates Inherits (Store.assignTask env id source masterIRC) := by
  have reserves : Relates Inherits (Store.reserve env id source masterIRC) :=
    .bind .get fun _ => updateTask_relates_of_edges fun _ _ isOk => (reserveTask_edges isOk).1
  have rollsBack : ∀ prev note detail now, Relates Inherits
      (Store.updateTask env 1 id fun task =>
        .ok (rollBackTask task source prev note detail now)) := by
    intro prev note detail now
    refine updateTask_relates fun _ _ isOk => ?_
    cases isOk
    exact ⟨rfl, rfl⟩
  have finalizes : ∀ prev,
      Relates Inherits (Store.finalizeAssignedTaskSpawn env id source prev) := by
    intro prev
    unfold Store.finalizeAssignedTaskSpawn
    split_ifs
    · exact (rollsBack _ _ _ _).ignoring.bind fun _ => .throw _
    · exact (rollsBack _ _ _ _).ignoring.bind fun _ => .throw _
    · refine updateTask_relates fun _ _ isOk => ?_
      cases isOk
      exact ⟨rfl, rfl⟩
  exact .bind .get fun _ => .bind (.lift _) fun _ => reserves.bind fun _ => finalizes _

theorem autoAssignDependents_relates (completedID : String) :
    Relates Inherits (Store.autoAssignDependents env completedID) := by
  have assigns : ∀ dep, Relates Inherits (Store.autoAssign env dep) := by
    intro dep
    refine .bind .get fun store => ?_
    split_ifs
    · exact (assignTask_relates _ _ _).ignoring.bind fun _ => .pure _
    · exact .pure _
  exact .bind .get fun _ => .forM assigns

theorem clearing_relates (update : Nat) (id : String) (source : LaunchSource)
    (stopErr : Option String) (detail : String) (now : Time) :
    Relates Inherits (Store.updateTask env update id fun task =>
      .ok (clearedTask task source stopErr detail now)) := by
  refine updateTask_relates_of_edges fun before after isOk => ?_
  cases isOk
  exact (clearedTask_edges _ _ _ _ _).1

theorem saveIndex_relates (id : String) (record : Option Workspace) :
    Relates Inherits (Store.saveIndex env id record) := by
  cases record with
  | none => exact .pure _
  | some workspace =>
    exact (attempt_relates _).bind fun _ =>
      .modify fun _ => inherits_of_stored fun _ isStored => isStored

theorem archiveTask_relates (id : String) : Relates Inherits (Store.archiveTask env id) := by
  intro store
  refine (Store.after_archiveTask env id store).mono ?_ ?_
  · rintro _ next ⟨task, isFound, _, isNext⟩
    rw [isNext]
    refine inherits_of_stored ?_
    rintro other (isTask | isArchived)
    · exact .inl (Table.mem_remove.mp isTask).1
    · rcases Table.mem_put.mp isArchived with isMoved | ⟨isOld, _⟩
      · rw [isMoved]
        exact .inl (Store.findTask_mem isFound).1
      · exact .inr isOld
  · intro next same
    rw [same]
    exact refl store

theorem appendArchivedTaskToWorkspace_relates (task : Task) :
    Relates Inherits (Store.appendArchivedTaskToWorkspace env task) :=
  .bind .get fun _ => saveIndex_relates _ _

theorem archiveSingleTask_relates (id : String) :
    Relates Inherits (Store.archiveSingleTask env id) :=
  .bind .get fun _ => .bind (.lift _) fun _ => .bind (.lift _) fun _ =>
    (archiveTask_relates id).bind fun _ => appendArchivedTaskToWorkspace_relates _

theorem archiveTerminal_relates : Relates Inherits (Store.archiveTerminal env) :=
  .bind .get fun _ => .bind (.forM fun _ => (archiveTask_relates _).bind fun _ =>
    appendArchivedTaskToWorkspace_relates _) fun _ => .pure _

theorem archiveWorkspaceTask_relates (task : Task) :
    Relates Inherits (Store.archiveWorkspaceTask env task) := by
  have tearsDown : Relates Inherits (Store.teardownTaskRuntimeForArchive env task.id) :=
    .bind .get fun _ => .bind (.lift _) fun _ => .bind (attempt_relates _) fun _ =>
      (clearing_relates _ _ _ _ _ _).bind fun _ => .pure _
  exact tearsDown.bind fun _ => (archiveTask_relates _).bind fun _ =>
    appendArchivedTaskToWorkspace_relates _

theorem archiveWorkspace_relates (name : String) :
    Relates Inherits (Store.archiveWorkspace env name) :=
  .bind .get fun _ => .bind (.lift _) fun _ => .bind (.forM archiveWorkspaceTask_relates) fun _ =>
    .bind (.require _ _) fun _ => .bind (attempt_relates _) fun _ =>
      .bind (.modify fun _ => inherits_of_stored fun _ isStored => isStored) fun _ => .pure _

theorem deleteArchivedTask_relates (id : String) :
    Relates Inherits (Store.deleteArchivedTask env id) := by
  refine .bind .get fun _ => .bind (.lift _) fun _ => .bind (attempt_relates _) fun _ =>
    .bind (.modify fun store => inherits_of_stored ?_) fun _ =>
      .bind .get fun _ => saveIndex_relates _ _
  rintro task (isTask | isArchived)
  · exact .inl isTask
  · exact .inr (Table.mem_remove.mp isArchived).1

theorem deleteArchivedWorkspace_relates (name : String) :
    Relates Inherits (Store.deleteArchivedWorkspace env name) := by
  refine .bind .get fun _ => .bind (.lift _) fun _ =>
    .bind (.forM fun task => deleteArchivedTask_relates task.id) fun _ =>
      .bind (attempt_relates _) fun _ =>
        .bind (.modify fun store => inherits_of_stored ?_) fun _ => .pure _
  rintro task (isTask | isArchived)
  · exact .inl (Table.mem_filter.mp isTask).1
  · exact .inr isArchived

end

/-! ## Runs -/

theorem Sound.relates {α : Type} (sound : Sound store) {action : Action α}
    (relates : Relates Inherits action) : After action (fun _ => Sound) Sound store :=
  (relates store).mono (fun _ _ inherits => sound.inherits inherits)
    fun _ inherits => sound.inherits inherits

theorem command_sound (sound : Sound store) {line : CommandLine}
    (unentangled : Unentangled store line) :
    After (line.command.run line.env) (fun _ => Sound) Sound store := by
  obtain ⟨env, command⟩ := line
  cases command with
  | create spec => exact createTask_sound sound unentangled
  | dep id after => exact depTask_sound sound unentangled
  | assign id source masterIRC =>
    exact sound.relates (assignTask_relates id source masterIRC).discard
  | autoAssign completedID => exact sound.relates (autoAssignDependents_relates completedID)
  | start id source note =>
    exact sound.relates
      (updateTask_relates_of_edges fun _ _ isOk => startTask_edges isOk).discard
  | review id source note | requestChanges id source note | approve id source note =>
    exact sound.relates
      (updateTask_relates_of_edges fun _ _ isOk =>
        transitionTaskStatus_edges (by decide) isOk).discard
  | complete id source note =>
    exact sound.relates
      (updateTask_relates_of_edges fun _ _ isOk => completeTask_edges isOk).discard
  | fail id source note | cancel id source note =>
    exact sound.relates
      ((updateTask_relates_of_edges fun _ _ isOk =>
        transitionTaskStatus_edges (by decide) isOk).bind fun _ =>
          clearing_relates _ _ _ _ _ _).discard
  | note id source text =>
    exact sound.relates
      (updateTask_relates_of_edges fun _ _ isOk => addTaskNote_edges isOk).discard
  | changeType id newType =>
    refine sound.relates (updateTask_relates fun _ _ isOk => ?_).discard
    cases isOk
    exact ⟨rfl, rfl⟩
  | archiveTask id => exact sound.relates (archiveSingleTask_relates id)
  | archiveTerminal => exact sound.relates archiveTerminal_relates.discard
  | archiveWorkspace name => exact sound.relates (archiveWorkspace_relates name).discard
  | deleteArchivedTask id => exact sound.relates (deleteArchivedTask_relates id)
  | deleteArchivedWorkspace name =>
    exact sound.relates (deleteArchivedWorkspace_relates name).discard

theorem run_sound {store : Store} (run : Run Store.step Unentangled .empty store) : Sound store :=
  run.invariant empty_sound fun _ _ _ sound unentangled ran =>
    Store.step_after (command_sound sound unentangled) ran

theorem mem_addDependencies_of {now : Time} (isListed : id ∈ task.dependsOn ∨ id ∈ after) :
    id ∈ (addDependencies task after now).dependsOn := by
  have folded : ∀ (rest known : List String), id ∈ known ∨ id ∈ rest →
      id ∈ rest.foldl (fun known id => if id ∈ known then known else known ++ [id]) known := by
    intro rest
    induction rest with
    | nil => exact fun known isKnown => isKnown.resolve_right not_mem_nil
    | cons first rest ih =>
      intro known isListed
      apply ih
      dsimp only
      rcases isListed with isKnown | isRest
      · left
        split_ifs
        · exact isKnown
        · exact List.mem_append_left _ isKnown
      · rcases mem_cons.mp isRest with isFirst | isLater
        · left
          rw [isFirst]
          split_ifs with wasKnown
          · exact wasKnown
          · exact List.mem_append_right _ (List.mem_singleton_self _)
        · exact .inr isLater
  exact folded after task.dependsOn isListed

theorem depTask_writes {next : Store} {env : Env}
    (succeeded : Store.depTask env id after store = .ok () next) :
    ∃ task, store.findTask id = some task ∧
      next = store.putTask (addDependencies task after (env.now id 0)) := by
  have wrote : After (Store.depTask env id after)
      (fun _ last => ∃ task, store.findTask id = some task ∧
        last = store.putTask (addDependencies task after (env.now id 0))) (fun _ => True) store := by
    unfold Store.depTask
    simp only [after_bind, after_get, after_require]
    refine ⟨fun _ => ?_, fun _ => trivial⟩
    refine after_lift (fun task isLoaded => ?_) trivial
    refine after_lift (fun _ _ => ?_) trivial
    refine (Store.after_saveTask env 0 _ store).mono ?_ (fun _ _ => trivial)
    exact fun _ last isLast => ⟨task, Store.loadTask_eq_ok isLoaded, isLast⟩
  exact wrote.ok succeeded

theorem depTask_waitsFor {next : Store} {env : Env}
    (succeeded : Store.depTask env id after store = .ok () next) :
    (∀ depID ∈ after, WaitsFor next id depID) ∧
      ∀ first second, WaitsFor store first second → WaitsFor next first second := by
  obtain ⟨task, isFound, isNext⟩ := depTask_writes succeeded
  obtain ⟨isEntry, isId⟩ := Store.findTask_mem isFound
  have isStored : Stored next (addDependencies task after (env.now id 0)) := by
    rw [isNext]
    exact .inl (Table.mem_put.mpr (.inl rfl))
  refine ⟨fun depID isDep => ⟨_, isStored, isId, mem_addDependencies_of (.inr isDep)⟩, ?_⟩
  rintro first second ⟨other, isOther, isFirst, isSecond⟩
  by_cases isTask : other = task
  · rw [isTask] at isFirst isSecond
    exact ⟨_, isStored, isFirst, mem_addDependencies_of (.inl isSecond)⟩
  · refine ⟨other, ?_, isFirst, isSecond⟩
    rw [isNext]
    refine isOther.imp_left fun otherEntry => Table.mem_put.mpr (.inr ⟨otherEntry, ?_⟩)
    exact fun samePath => isTask (store.tasks.eq_of_key otherEntry isEntry samePath)

theorem depTask_closes {next : Store} {env : Env} {depID : String}
    (succeeded : Store.depTask env id after store = .ok () next) (isDep : depID ∈ after)
    (waits : TransGen (WaitsFor store) depID id) : ¬ Layered next := by
  obtain ⟨added, kept⟩ := depTask_waitsFor succeeded
  intro layered
  have back : TransGen (WaitsFor next) depID id := TransGen.mono kept _ _ waits
  exact layered.acyclic id (.head (added depID isDep) back)

/-- **The dependencies stay a DAG** as long as no prerequisite waits for the task that it is
given to, and no two workspaces share an id. -/
theorem staysLayered {store : Store} (run : Run Store.step Unentangled .empty store) :
    Layered store ∧ ∀ env id after next, Store.depTask env id after store = .ok () next →
        (∃ depID ∈ after, TransGen (WaitsFor store) depID id) → ¬ Layered next :=
  ⟨(run_sound run).layered, fun _ _ _ _ succeeded ⟨_, isDep, waits⟩ =>
    depTask_closes succeeded isDep waits⟩

def waitingForEachOther : List Command :=
  [.create (taskIn globalWorkspaceName "x"), .create (taskIn globalWorkspaceName "y"),
    .dep "x" ["y"], .dep "y" ["x"]]

theorem not_staysLayered : ¬ StaysLayered fun _ _ => True := by
  intro stays
  obtain ⟨store, replayed, first, second⟩ :
      ∃ store, execute Store.step .empty (waitingForEachOther.map (⟨quietEnv, ·⟩)) = some store ∧
        WaitsFor store "x" "y" ∧ WaitsFor store "y" "x" := by
    refine ⟨_, rfl, ⟨_, .inl (List.mem_cons_of_mem _ mem_cons_self), rfl, ?_⟩,
      ⟨_, .inl mem_cons_self, rfl, ?_⟩⟩ <;> exact List.mem_singleton_self _
  exact (stays store (reachable_of_execute _ replayed)).acyclic "x" (.head first (.single second))

/-- One task waits for the other, which is named twice. -/
def waitingForOne : List Command :=
  [.create (taskIn "lane" "x"), .create (taskIn "lane" "y"), .dep "x" ["y", "y"]]

theorem staysLayered_waitingForOne :
    ∃ store, Run Store.step Unentangled .empty store ∧ WaitsFor store "x" "y" ∧ Layered store := by
  obtain ⟨store, replayed, waits⟩ :
      ∃ store, execute Store.step .empty (waitingForOne.map (⟨quietEnv, ·⟩)) = some store ∧
        WaitsFor store "x" "y" :=
    ⟨_, rfl, _, .inl mem_cons_self, rfl, List.mem_singleton_self _⟩
  have permitted : Permitted Store.step Unentangled .empty
      (waitingForOne.map (⟨quietEnv, ·⟩)) := by
    refine ⟨fun task isStored => absurd isStored not_stored_empty, _, rfl, ?_, _, rfl, ?_, _, rfl,
      trivial⟩
    · rintro task (isTask | isArchived) _
      · rw [List.mem_singleton.mp isTask]
        rfl
      · exact absurd isArchived not_mem_nil
    · intro _ depID _ waits
      obtain ⟨_, ⟨task, isStored, _, isDep⟩, _⟩ := TransGen.head'_iff.mp waits
      have listsNothing : task.dependsOn = [] := by
        rcases isStored with isTask | isArchived
        · rcases mem_cons.mp isTask with isFirst | isSecond
          · rw [isFirst]
            rfl
          · rw [List.mem_singleton.mp isSecond]
            rfl
        · exact absurd isArchived not_mem_nil
      rw [listsNothing] at isDep
      exact absurd isDep not_mem_nil
  have run := run_of_permitted _ permitted replayed
  exact ⟨store, run, waits, (staysLayered run).1⟩

end AiTools.Whip.DependencyGraph
