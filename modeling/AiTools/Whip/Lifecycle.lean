import AiTools.Lib.Transition
import AiTools.Whip.Task
import Mathlib.Data.List.Chain

/-!
Contract: the life of one task of the board under every order of the commands.

An update that returns an error, or that fails to save, is no step. What an update reads beside the
task (other tasks, the environment, the outcome of a spawn) is given with its step.
-/

namespace AiTools.Whip

open AiTools.Lib.Transition

/-- A command between two of its steps. `assigning` has reserved the task and is
about to save the prompt, `spawning` has saved it; `clearing` has failed or canceled
the task; `dep` holds the copy that it has loaded. -/
inductive Operation where
  | assigning (source : LaunchSource) (prev : TaskRuntimeSnapshot)
  | spawning (source : LaunchSource) (prev : TaskRuntimeSnapshot)
  | clearing (source : LaunchSource) (detail : String)
  | dep (loaded : Task)

structure System where
  task : Task
  ops : Nat → Option Operation

def System.initial (task : Task) : System := ⟨task, fun _ => none⟩

inductive Label where
  | assign (op : Nat) (source : LaunchSource) (unmet : List String) (masterIRC : String)
      (now : Time)
  | promptSaved (op : Nat)
  | promptFails (op : Nat) (now : Time)
  | spawned (op : Nat) (runner sessionID : String) (now : Time)
  | spawnFails (op : Nat) (spawnErr : String) (now : Time)
  | start (source : LaunchSource) (shellPID : Int) (note : String) (now : Time)
  | review (source : LaunchSource) (note : String) (now : Time)
  | requestChanges (source : LaunchSource) (note : String) (now : Time)
  | approve (source : LaunchSource) (note : String) (now : Time)
  | complete (source : LaunchSource) (note : String) (now : Time)
  | fail (op : Nat) (source : LaunchSource) (note : String) (now : Time)
  | cancel (op : Nat) (source : LaunchSource) (note : String) (now : Time)
  | clear (op : Nat) (stopErr : Option String) (now : Time)
  | archive (now : Time)
  | note (source : LaunchSource) (note : String) (now : Time)
  | changeType (newType : String) (now : Time)
  | depLoad (op : Nat)
  | depSave (op : Nat) (after : List String) (now : Time)

/-- One `UpdateTask`: load, update and save under the lock of the task. -/
def System.update (system : System) (updated : Except String Task) : Option System :=
  match updated with
  | .ok task => some { system with task := task }
  | .error _ => none

/-- An update that is a command's first step. -/
def System.begin (system : System) (op : Nat) (operation : Operation)
    (updated : Except String Task) : Option System :=
  match system.ops op, updated with
  | none, .ok task => some ⟨task, Function.update system.ops op (some operation)⟩
  | _, _ => none

/-- A save that is a command's last step. -/
def System.finish (system : System) (op : Nat) (task : Task) : System :=
  ⟨task, Function.update system.ops op none⟩

def step (system : System) : Label → Option System
  | .assign op source unmet masterIRC now =>
    system.begin op (.assigning source (captureTaskRuntimeSnapshot system.task))
      (reserveTask system.task source unmet masterIRC now)
  | .promptSaved op =>
    match system.ops op with
    | some (.assigning source prev) =>
      some { system with ops := Function.update system.ops op (some (.spawning source prev)) }
    | _ => none
  | .promptFails op now =>
    match system.ops op with
    | some (.assigning source prev) =>
      some (system.finish op (promptFailed system.task source prev now))
    | _ => none
  | .spawned op runner sessionID now =>
    match system.ops op with
    | some (.spawning source _) =>
      some (system.finish op (spawnedTask system.task source runner sessionID now))
    | _ => none
  | .spawnFails op spawnErr now =>
    match system.ops op with
    | some (.spawning source prev) =>
      some (system.finish op (spawnFailed system.task source prev spawnErr now))
    | _ => none
  | .start source shellPID note now =>
    system.update (startTask system.task source shellPID note now)
  | .review source note now => system.update (reviewTask system.task source note now)
  | .requestChanges source note now =>
    system.update (requestChangesTask system.task source note now)
  | .approve source note now => system.update (approveTask system.task source note now)
  | .complete source note now => system.update (completeTask system.task source note now)
  | .fail op source note now =>
    system.begin op (.clearing source "task session stopped after failure")
      (failTask system.task source note now)
  | .cancel op source note now =>
    system.begin op (.clearing source "task session stopped after cancel")
      (cancelTask system.task source note now)
  | .clear op stopErr now =>
    match system.ops op with
    | some (.clearing source detail) =>
      some (system.finish op (clearedTask system.task source stopErr detail now))
    | _ => none
  | .archive now =>
    system.update (.ok (clearedTask system.task ⟨"system", "workspace archive"⟩ none
      "workspace archive teardown" now))
  | .note source note now => system.update (addTaskNote system.task source note now)
  | .changeType newType now => system.update (.ok (changeTaskType system.task newType now))
  | .depLoad op =>
    match system.ops op with
    | none => some { system with ops := Function.update system.ops op (some (.dep system.task)) }
    | _ => none
  | .depSave op after now =>
    match system.ops op with
    -- `SaveTask` takes the lock for the write alone.
    | some (.dep loaded) => some (system.finish op (addDependencies loaded after now))
    | _ => none

/-- Each event starts at the status that the one before it left. -/
def EventsChain (events : List TaskEvent) : Prop :=
  events.IsChain fun earlier later => later.fromStatus = some earlier.toStatus

/-- In every run from a fresh task whose steps all meet `ok`, the status moves only
as `transition` says, a terminal status stays, and the events form a chain. -/
def LifecycleRespected (ok : System → Label → Prop)
    (transition : Label → TaskStatus → TaskStatus → Prop) : Prop :=
  ∀ task system, task.Created → Run step ok (System.initial task) system →
    (∀ label next, ok system label → step system label = some next →
      next.task.status = system.task.status ∨
        transition label system.task.status next.task.status) ∧
    (system.task.status.isTerminal = true → ∀ later, Run step ok system later →
      later.task.status = system.task.status) ∧
    EventsChain system.task.events

/-- A rollback finds the task assigned, and `dep` saves at the status it loaded. -/
def Undisturbed (system : System) : Label → Prop
  | .promptFails _ _ => system.task.status = .assigned
  | .spawnFails _ _ _ => system.task.status = .assigned
  | .depSave op _ _ => ∀ loaded, system.ops op = some (.dep loaded) →
      system.task.status = loaded.status
  | _ => True

/-- A step of the lifecycle table, or the rollback of an `AssignTask`. -/
def TableOrRollback : Label → TaskStatus → TaskStatus → Prop
  | .promptFails _ _, before, after =>
    Allowed before after ∨ before = .assigned ∧ after = .created
  | .spawnFails _ _ _, before, after =>
    Allowed before after ∨ before = .assigned ∧ after = .created
  | _, before, after => Allowed before after

/-! ## What one update does -/

/-- The events lead from one status to another. -/
def Leads : TaskStatus → List TaskEvent → TaskStatus → Prop
  | before, [], after => before = after
  | before, event :: later, after =>
    event.fromStatus = some before ∧ Leads event.toStatus later after

variable {before after : TaskStatus} {task updated : Task} {allowed : List TaskStatus}
  {source : LaunchSource} {note : String} {now : Time} {prev : TaskRuntimeSnapshot}
  {system next : System} {operation : Operation} {label : Label}

theorem Leads.append {middle : TaskStatus} {earlier later : List TaskEvent}
    (first : Leads before earlier middle) (second : Leads middle later after) :
    Leads before (earlier ++ later) after := by
  induction earlier generalizing before with
  | nil =>
    have same : before = middle := first
    rw [same]
    exact second
  | cons event rest ih =>
    exact ⟨first.1, ih first.2⟩

/-- The events are a chain that ends at the task's own status. -/
def Task.Chained (task : Task) : Prop :=
  EventsChain task.events ∧ (task.events.getLast?).map TaskEvent.toStatus = some task.status

theorem Task.Created.chained (created : task.Created) : task.Chained := by
  obtain ⟨status, now, events⟩ := created
  unfold Task.Chained EventsChain
  rw [events, status]
  exact ⟨List.isChain_singleton _, rfl⟩

theorem chain_append {events recorded : List TaskEvent} (chain : EventsChain events)
    (last : (events.getLast?).map TaskEvent.toStatus = some before)
    (leads : Leads before recorded after) :
    EventsChain (events ++ recorded) ∧
      ((events ++ recorded).getLast?).map TaskEvent.toStatus = some after := by
  induction recorded generalizing events before with
  | nil =>
    have same : before = after := leads
    rw [List.append_nil, ← same]
    exact ⟨chain, last⟩
  | cons event rest ih =>
    have extended : EventsChain (events ++ [event]) := by
      unfold EventsChain
      rw [List.isChain_append]
      refine ⟨chain, List.isChain_singleton _, ?_⟩
      intro earlier isLast later isHead
      rw [Option.mem_def.mp isLast] at last
      cases isHead
      rw [leads.1, ← last]
      rfl
    have ends : ((events ++ [event]).getLast?).map TaskEvent.toStatus = some event.toStatus := by
      rw [List.getLast?_concat]
      rfl
    have whole := ih extended ends leads.2
    rw [List.append_assoc] at whole
    exact whole

/-- The update records events that lead to the task's new status. -/
def Records (before after : Task) : Prop :=
  ∃ recorded, after.events = before.events ++ recorded ∧ Leads before.status recorded after.status

theorem Records.chained {before after : Task} (records : Records before after)
    (chained : before.Chained) : after.Chained := by
  obtain ⟨recorded, events, leads⟩ := records
  unfold Task.Chained
  rw [events]
  exact chain_append chained.1 chained.2 leads

theorem Records.recordEvent {before moved : Task} (records : Records before moved)
    (source : LaunchSource) (action detail : String) (now : Time) :
    Records before
      (moved.recordEvent source action (some moved.status) moved.status detail now) := by
  obtain ⟨recorded, events, leads⟩ := records
  refine ⟨recorded ++ [⟨now, source.actor, source.command, action, some moved.status,
    moved.status, detail⟩], ?_, ?_⟩
  · unfold Task.recordEvent
    rw [events, List.append_assoc]
  · exact leads.append ⟨rfl, rfl⟩

theorem Records.withNote {before moved : Task} (records : Records before moved)
    (source : LaunchSource) (note : String) (now : Time) :
    Records before (moved.withNote source note now) := by
  unfold Task.withNote
  split
  · have noted : Records before (moved.addNote note now) := records
    exact noted.recordEvent source "note" note now
  · exact records

@[simp] theorem withNote_status (task : Task) (source : LaunchSource) (note : String)
    (now : Time) : (task.withNote source note now).status = task.status := by
  unfold Task.withNote
  split <;> rfl

/-- The update records its events, and moves the status along the table or not at
all. -/
def Advances (before after : Task) : Prop :=
  Records before after ∧ (after.status = before.status ∨ Allowed before.status after.status)

theorem requireTaskStatuses_ok {result : Unit}
    (required : requireTaskStatuses task allowed = .ok result) : task.status ∈ allowed := by
  unfold requireTaskStatuses at required
  split at required
  · assumption
  · cases required

theorem requireTaskStatuses_bind {rest : Unit → Except String Task}
    (isOk : (requireTaskStatuses task allowed >>= rest) = .ok updated) :
    task.status ∈ allowed ∧ rest () = .ok updated := by
  cases required : requireTaskStatuses task allowed with
  | error message =>
    rw [required] at isOk
    cases isOk
  | ok _ =>
    rw [required] at isOk
    exact ⟨requireTaskStatuses_ok required, isOk⟩

theorem transitionTaskStatus_advances {action : String} {newStatus : TaskStatus}
    {allowedFrom : List TaskStatus} (inTable : ∀ status ∈ allowedFrom, Allowed status newStatus)
    (isOk : transitionTaskStatus task source action newStatus note allowedFrom now = .ok updated) :
    Advances task updated := by
  obtain ⟨member, result⟩ := requireTaskStatuses_bind isOk
  cases result
  constructor
  · apply Records.withNote
    exact ⟨[_], rfl, rfl, rfl⟩
  · right
    rw [withNote_status]
    exact inTable _ member

theorem startTask_advances {shellPID : Int}
    (isOk : startTask task source shellPID note now = .ok updated) : Advances task updated := by
  obtain ⟨member, result⟩ := requireTaskStatuses_bind isOk
  cases result
  constructor
  · apply Records.withNote
    exact ⟨[_], rfl, rfl, rfl⟩
  · right
    rw [withNote_status, List.mem_singleton.mp member]
    show Allowed .assigned .inProgress
    decide

theorem completeTask_advances (isOk : completeTask task source note now = .ok updated) :
    Advances task updated := by
  obtain ⟨member, result⟩ := requireTaskStatuses_bind isOk
  split at result
  · cases result
  · cases result
    constructor
    · apply Records.withNote
      exact ⟨[_], rfl, rfl, rfl⟩
    · right
      rw [withNote_status]
      have inTable : ∀ status ∈ [TaskStatus.inProgress, .approved], Allowed status .completed := by
        decide
      exact inTable _ member

theorem reserveTask_advances {unmet : List String} {masterIRC : String}
    (isOk : reserveTask task source unmet masterIRC now = .ok updated) :
    (task.status = .created ∨ task.status = .failed) ∧ Advances task updated := by
  obtain ⟨member, result⟩ := requireTaskStatuses_bind isOk
  split at result
  · cases result
  · cases result
    have reserved : task.status = .created ∨ task.status = .failed := by simpa using member
    refine ⟨reserved, ⟨[_], rfl, rfl, rfl⟩, .inr ?_⟩
    show Allowed task.status .assigned
    rcases reserved with status | status <;> rw [status] <;> decide

theorem spawnedTask_advances (task : Task) (source : LaunchSource) (runner sessionID : String)
    (now : Time) : Advances task (spawnedTask task source runner sessionID now) :=
  ⟨⟨[_], rfl, rfl, rfl⟩, .inl rfl⟩

theorem clearedTask_advances (task : Task) (source : LaunchSource) (stopErr : Option String)
    (detail : String) (now : Time) :
    Advances task (clearedTask task source stopErr detail now) := by
  have kept : Records task { clearTaskRuntime task with updatedAt := now } :=
    ⟨[], (List.append_nil _).symm, rfl⟩
  unfold clearedTask
  cases stopErr with
  | none => exact ⟨kept.recordEvent source "runtime_cleared" detail now, .inl rfl⟩
  | some err =>
    have warned := kept.recordEvent source "warning" err now
    exact ⟨warned.recordEvent source "runtime_cleared" detail now, .inl rfl⟩

theorem addTaskNote_advances (isOk : addTaskNote task source note now = .ok updated) :
    Advances task updated := by
  unfold addTaskNote at isOk
  split at isOk
  · cases isOk
  · cases isOk
    exact ⟨⟨[_], rfl, rfl, rfl⟩, .inl rfl⟩

theorem changeTaskType_advances (task : Task) (newType : String) (now : Time) :
    Advances task (changeTaskType task newType now) :=
  ⟨⟨[_], rfl, rfl, rfl⟩, .inl rfl⟩

/-- The rollback says that it starts at `assigned`, which is right when the task
still is. -/
theorem rollBackTask_records (assigned : task.status = .assigned) (source : LaunchSource)
    (prev : TaskRuntimeSnapshot) (note detail : String) (now : Time) :
    Records task (rollBackTask task source prev note detail now) := by
  refine ⟨[_], rfl, ?_, rfl⟩
  rw [assigned]

theorem rollBackTask_moves (assigned : task.status = .assigned)
    (reserved : prev.status = .created ∨ prev.status = .failed) :
    Allowed task.status prev.status ∨ task.status = .assigned ∧ prev.status = .created := by
  rcases reserved with created | failed
  · exact .inr ⟨assigned, created⟩
  · left
    rw [assigned, failed]
    decide

/-! ## The invariant -/

/-- A reservation was made where `AssignTask` allows it, and the copy of `dep` is a
task as the store has had it. -/
def Operation.Sound : Operation → Prop
  | .assigning _ prev => prev.status = .created ∨ prev.status = .failed
  | .spawning _ prev => prev.status = .created ∨ prev.status = .failed
  | .clearing _ _ => True
  | .dep loaded => loaded.Chained

structure Sound (system : System) : Prop where
  chained : system.task.Chained
  pending : ∀ op operation, system.ops op = some operation → operation.Sound

theorem initial_sound (created : task.Created) : Sound (System.initial task) where
  chained := created.chained
  pending := by
    intro op operation found
    cases found

/-- What a step leaves to show: the invariant, and a move that `TableOrRollback`
knows. -/
def Kept (label : Label) (system next : System) : Prop :=
  Sound next ∧ (next.task.status = system.task.status ∨
      TableOrRollback label system.task.status next.task.status)

theorem Sound.setOp (sound : Sound system) (chained : task.Chained) (op : Nat)
    (begun : operation.Sound) : Sound ⟨task, Function.update system.ops op (some operation)⟩ where
  chained := chained
  pending := by
    intro other found isFound
    change Function.update system.ops op (some operation) other = some found at isFound
    by_cases same : other = op
    · rw [same, Function.update_self] at isFound
      cases isFound
      exact begun
    · rw [Function.update_of_ne same] at isFound
      exact sound.pending other found isFound

theorem Sound.finish (sound : Sound system) (chained : task.Chained) (op : Nat) :
    Sound (system.finish op task) where
  chained := chained
  pending := by
    intro other found isFound
    change Function.update system.ops op none other = some found at isFound
    by_cases same : other = op
    · simp [same, Function.update_self] at isFound
    · rw [Function.update_of_ne same] at isFound
      exact sound.pending other found isFound

theorem update_kept (sound : Sound system) {updated : Except String Task}
    (advances : ∀ task, updated = .ok task → Advances system.task task)
    (ran : system.update updated = some next) :
    Sound next ∧ (next.task.status = system.task.status ∨
      Allowed system.task.status next.task.status) := by
  cases updated with
  | error message => cases ran
  | ok task =>
    cases ran
    obtain ⟨records, moves⟩ := advances task rfl
    exact ⟨⟨records.chained sound.chained, sound.pending⟩, moves⟩

theorem begin_kept (sound : Sound system) {op : Nat} {updated : Except String Task}
    (advances : ∀ task, updated = .ok task → operation.Sound ∧ Advances system.task task)
    (ran : system.begin op operation updated = some next) :
    Sound next ∧ (next.task.status = system.task.status ∨
      Allowed system.task.status next.task.status) := by
  unfold System.begin at ran
  split at ran
  · rename_i task _
    cases ran
    obtain ⟨begun, records, moves⟩ := advances task rfl
    exact ⟨sound.setOp (records.chained sound.chained) op begun, moves⟩
  · cases ran

theorem finish_kept (sound : Sound system) (op : Nat) (advances : Advances system.task task) :
    Sound (system.finish op task) ∧ ((system.finish op task).task.status = system.task.status ∨
      Allowed system.task.status (system.finish op task).task.status) :=
  ⟨sound.finish (advances.1.chained sound.chained) op, advances.2⟩

/-- A rollback that finds the task assigned takes it back to where `AssignTask` found
it. -/
theorem rollBack_kept (sound : Sound system) (op : Nat)
    (reserved : prev.status = .created ∨ prev.status = .failed)
    (assigned : system.task.status = .assigned) (source : LaunchSource) (note detail : String)
    (now : Time) :
    Sound (system.finish op (rollBackTask system.task source prev note detail now)) ∧
      (Allowed system.task.status prev.status ∨
        system.task.status = .assigned ∧ prev.status = .created) := by
  have records := rollBackTask_records assigned source prev note detail now
  exact ⟨sound.finish (records.chained sound.chained) op, rollBackTask_moves assigned reserved⟩

theorem step_kept (sound : Sound system) (undisturbed : Undisturbed system label)
    (ran : step system label = some next) :
    Kept label system next := by
  cases label with
  | assign op source unmet masterIRC now =>
    refine begin_kept sound ?_ ran
    intro task isOk
    exact reserveTask_advances isOk
  | promptSaved op =>
    simp only [step] at ran
    split at ran
    · rename_i source prev isOp
      cases ran
      have reserved : prev.status = .created ∨ prev.status = .failed :=
        sound.pending op _ isOp
      exact ⟨sound.setOp sound.chained op reserved, .inl rfl⟩
    · cases ran
  | promptFails op now | spawnFails op spawnErr now =>
    simp only [step] at ran
    split at ran
    · rename_i source prev isOp
      cases ran
      obtain ⟨soundNext, moves⟩ :=
        rollBack_kept sound op (sound.pending op _ isOp) undisturbed source _ _ now
      exact ⟨soundNext, .inr moves⟩
    · cases ran
  | spawned op runner sessionID now =>
    simp only [step] at ran
    split at ran
    · cases ran
      exact finish_kept sound op (spawnedTask_advances _ _ _ _ _)
    · cases ran
  | start source shellPID note now =>
    refine update_kept sound ?_ ran
    intro task isOk
    exact startTask_advances isOk
  | review source note now | requestChanges source note now | approve source note now =>
    refine update_kept sound ?_ ran
    intro task isOk
    exact transitionTaskStatus_advances (by decide) isOk
  | complete source note now =>
    refine update_kept sound ?_ ran
    intro task isOk
    exact completeTask_advances isOk
  | fail op source note now | cancel op source note now =>
    refine begin_kept sound ?_ ran
    intro task isOk
    exact ⟨trivial, transitionTaskStatus_advances (by decide) isOk⟩
  | clear op stopErr now =>
    simp only [step] at ran
    split at ran
    · cases ran
      exact finish_kept sound op (clearedTask_advances _ _ _ _ _)
    · cases ran
  | archive now =>
    simp only [step] at ran
    refine update_kept sound ?_ ran
    intro task isOk
    cases isOk
    exact clearedTask_advances _ _ _ _ _
  | note source note now =>
    refine update_kept sound ?_ ran
    intro task isOk
    exact addTaskNote_advances isOk
  | changeType newType now =>
    simp only [step] at ran
    refine update_kept sound ?_ ran
    intro task isOk
    cases isOk
    exact changeTaskType_advances _ _ _
  | depLoad op =>
    simp only [step] at ran
    split at ran
    · cases ran
      exact ⟨sound.setOp sound.chained op sound.chained, .inl rfl⟩
    · cases ran
  | depSave op after now =>
    simp only [step] at ran
    split at ran
    · rename_i loaded isOp
      cases ran
      have chained : (addDependencies loaded after now).Chained := sound.pending op _ isOp
      exact ⟨sound.finish chained op, .inl (undisturbed loaded isOp).symm⟩
    · cases ran

theorem run_sound {start : System} (sound : Sound start) (run : Run step Undisturbed start system) :
    Sound system :=
  run.invariant sound fun _ _ _ before undisturbed ran =>
    (step_kept before undisturbed ran).1

theorem TableOrRollback.not_terminal (moves : TableOrRollback label before after) :
    before.isTerminal = false := by
  cases label with
  | promptFails _ _ | spawnFails _ _ _ =>
    rcases moves with allowed | ⟨assigned, _⟩
    · exact allowed.not_terminal
    · rw [assigned]
      rfl
  | _ => exact Allowed.not_terminal moves

theorem step_terminal (sound : Sound system) (terminal : system.task.status.isTerminal = true)
    (undisturbed : Undisturbed system label) (ran : step system label = some next) :
    next.task.status = system.task.status := by
  rcases (step_kept sound undisturbed ran).2 with same | moves
  · exact same
  · simp [moves.not_terminal] at terminal

theorem run_terminal {later : System} (sound : Sound system)
    (terminal : system.task.status.isTerminal = true) (run : Run step Undisturbed system later) :
    later.task.status = system.task.status := by
  induction run with
  | refl => rfl
  | tail label before undisturbed ran ih =>
    rw [← ih] at terminal ⊢
    exact step_terminal (run_sound sound before) terminal undisturbed ran

/-- While a rollback finds its reservation in place and `dep` saves at the status it
loaded, the lifecycle is that of the table and the rollback. -/
theorem lifecycle_respected : LifecycleRespected Undisturbed TableOrRollback := by
  intro task system created run
  have sound := run_sound (initial_sound created) run
  refine ⟨?_, ?_, sound.chained.1⟩
  · intro label next undisturbed ran
    exact (step_kept sound undisturbed ran).2
  · intro terminal later
    exact run_terminal sound terminal

/-- A task as `create` saves it. -/
def fresh : Task where
  id := "a1"
  title := "task"
  type := "coding"
  workspace := globalWorkspaceName
  status := .created
  createdAt := 0
  updatedAt := 0
  events := [⟨0, "cli", "create", "created", none, .created, "task"⟩]

theorem fresh_created : fresh.Created := ⟨rfl, 0, rfl⟩

/-- `AssignTask` up to its spawn. -/
def reserve : List Label :=
  [.assign 0 ⟨"cli", "assign"⟩ [] "wp-master" 1, .promptSaved 0]

/-- A failed spawn takes the task from `assigned` to `created`, which is no
transition of the table; and when the task was canceled meanwhile, the rollback, or the
save of a `dep` that loaded it before, takes it back from `canceled`. -/
theorem rollback_off_table : (¬ LifecycleRespected (fun _ _ => True) fun _ => Allowed) ∧
      (¬ LifecycleRespected (fun _ _ => True) TableOrRollback) ∧
      ∃ system next, execute step (System.initial fresh)
          [.depLoad 0, .cancel 1 ⟨"cli", "cancel"⟩ "" 2] = some system ∧
        system.task.status = .canceled ∧ step system (.depSave 0 [] 3) = some next ∧
        next.task.status = .created := by
  refine ⟨?_, ?_, _, _, rfl, rfl, rfl, rfl⟩
  · intro respected
    obtain ⟨system, replayed, before, next, ran, after⟩ :
        ∃ system, execute step (System.initial fresh) reserve = some system ∧
          system.task.status = .assigned ∧
          ∃ next, step system (.spawnFails 0 "no tmux" 2) = some next ∧
            next.task.status = .created :=
      ⟨_, rfl, rfl, _, rfl, rfl⟩
    have moves := (respected fresh system fresh_created (reachable_of_execute _ replayed)).1
      _ next trivial ran
    rw [before, after] at moves
    revert moves
    decide
  · intro respected
    obtain ⟨system, replayed, before, next, ran, after⟩ :
        ∃ system, execute step (System.initial fresh)
            (reserve ++ [.cancel 1 ⟨"cli", "cancel"⟩ "" 2]) = some system ∧
          system.task.status = .canceled ∧
          ∃ next, step system (.spawnFails 0 "no tmux" 3) = some next ∧
            next.task.status = .created :=
      ⟨_, rfl, rfl, _, rfl, rfl⟩
    have terminal := (respected fresh system fresh_created (reachable_of_execute _ replayed)).2.1
      (by rw [before]; rfl)
    have same := terminal next (.tail _ .refl trivial ran)
    rw [before, after] at same
    cases same

end AiTools.Whip
