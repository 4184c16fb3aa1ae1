import AiTools.Whip.Lifecycle

/-!
Contract: a task in an active status carries the assignment that `AssignTask` wrote.
-/

namespace AiTools.Whip.LiveAssignment

open AiTools.Lib.Transition

structure Assignment where
  ircName : String
  assignedAt : Option Time

def assignment (task : Task) : Assignment := ⟨task.ircName, task.assignedAt⟩

/-- `written` is what the last reservation wrote. -/
structure History where
  system : System
  written : Option Assignment

def History.initial (task : Task) : History := ⟨.initial task, none⟩

def written (history : History) (next : System) : Label → Option Assignment
  | .assign _ _ _ _ _ => some (assignment next.task)
  | _ => history.written

def step (history : History) (label : Label) : Option History :=
  (Whip.step history.system label).map fun next => ⟨next, written history next label⟩

/-- An active task carries what the last reservation wrote, and that is not cleared. -/
def History.Live (history : History) : Prop :=
  history.system.task.status.isActive = true →
    history.written = some (assignment history.system.task) ∧ history.system.task.assignedAt ≠ none

/-- No command is between two of its updates. -/
def History.Idle (history : History) : Prop := ∀ op, history.system.ops op = none

/-- In every run whose steps all meet `ok`, assignments are live whenever no command is
under way. -/
def AssignmentsLive (ok : History → Label → Prop) : Prop :=
  ∀ task history, task.Created → Run step ok (.initial task) history → history.Idle → history.Live

/-- A step of the commands that move a task along its lifecycle. -/
def OfLifecycle : Label → Prop
  | .archive _ | .note _ _ _ | .changeType _ _ | .depLoad _ | .depSave _ _ _ => False
  | _ => True

/-- A runtime is cleared only while the task is not active, and `dep` saves the status
and the assignment that the task has. -/
def Undisturbed (history : History) : Label → Prop
  | .clear _ _ _ => history.system.task.status.isActive = false
  | .archive _ => history.system.task.status.isActive = false
  | .depSave op _ _ => ∀ loaded, history.system.ops op = some (.dep loaded) →
      loaded.status = history.system.task.status ∧
        assignment loaded = assignment history.system.task
  | _ => True

/-- The update makes no task active, and leaves the assignment of an active one. -/
def Keeps (before after : Task) : Prop :=
  after.status.isActive = true →
    before.status.isActive = true ∧ assignment after = assignment before

theorem withNote_assignment (task : Task) (source : LaunchSource) (note : String) (now : Time) :
    assignment (task.withNote source note now) = assignment task := by
  unfold Task.withNote
  split <;> rfl

variable {task : Task} {source : LaunchSource} {note masterIRC : String} {now : Time}
  {unmet : List String} {next : System} {updated : Except String Task} {op : Nat}

theorem transitionTaskStatus_keeps {updated : Task} {action : String} {newStatus : TaskStatus}
    {allowedFrom : List TaskStatus}
    (fromActive : newStatus.isActive = true → ∀ status ∈ allowedFrom, status.isActive = true)
    (isOk : transitionTaskStatus task source action newStatus note allowedFrom now = .ok updated) :
    Keeps task updated := by
  obtain ⟨member, result⟩ := requireTaskStatuses_bind isOk
  cases result
  intro active
  rw [withNote_status] at active
  rw [withNote_assignment]
  exact ⟨fromActive active _ member, rfl⟩

theorem startTask_keeps {updated : Task} {shellPID : Int}
    (isOk : startTask task source shellPID note now = .ok updated) :
    Keeps task updated := by
  obtain ⟨member, result⟩ := requireTaskStatuses_bind isOk
  cases result
  intro _
  rw [withNote_assignment, List.mem_singleton.mp member]
  exact ⟨rfl, rfl⟩

theorem completeTask_keeps {updated : Task}
    (isOk : completeTask task source note now = .ok updated) :
    Keeps task updated := by
  obtain ⟨_, result⟩ := requireTaskStatuses_bind isOk
  split at result
  · cases result
  · cases result
    intro active
    rw [withNote_status] at active
    cases active

theorem addTaskNote_keeps {updated : Task} (isOk : addTaskNote task source note now = .ok updated) :
    Keeps task updated := by
  unfold addTaskNote at isOk
  split at isOk
  · cases isOk
  · cases isOk
    exact fun active => ⟨active, rfl⟩

theorem reserveTask_writes {updated : Task}
    (isOk : reserveTask task source unmet masterIRC now = .ok updated) :
    task.status.isActive = false ∧ updated.assignedAt = some now := by
  obtain ⟨reserved, _⟩ := reserveTask_advances isOk
  obtain ⟨_, result⟩ := requireTaskStatuses_bind isOk
  split at result
  · cases result
  · cases result
    rcases reserved with status | status <;> rw [status] <;> exact ⟨rfl, rfl⟩

@[simp] theorem clearedTask_status (task : Task) (source : LaunchSource)
    (stopErr : Option String) (detail : String) (now : Time) :
    (clearedTask task source stopErr detail now).status = task.status := by
  unfold clearedTask
  cases stopErr <;> rfl

@[simp] theorem clearedTask_assignedAt (task : Task) (source : LaunchSource)
    (stopErr : Option String) (detail : String) (now : Time) :
    (clearedTask task source stopErr detail now).assignedAt = none := by
  unfold clearedTask
  cases stopErr <;> rfl

/-- A rollback takes the task to a status that is not active. -/
def RollsBack : Operation → Prop
  | .assigning _ prev => prev.status.isActive = false
  | .spawning _ prev => prev.status.isActive = false
  | .clearing _ _ => True
  | .dep _ => True

structure Sound (history : History) : Prop where
  live : history.Live
  pending : ∀ op operation, history.system.ops op = some operation → RollsBack operation

theorem initial_sound (created : task.Created) : Sound (.initial task) where
  live := by
    intro active
    have isActive : task.status.isActive = true := active
    rw [created.1] at isActive
    cases isActive
  pending := by
    intro op operation found
    cases found

section
variable {history : History} {ops : Nat → Option Operation} {after : Task}

theorem Sound.kept (sound : Sound history) (keeps : Keeps history.system.task after)
    (pending : ∀ op operation, ops op = some operation → RollsBack operation) :
    Sound ⟨⟨after, ops⟩, history.written⟩ where
  live := by
    intro active
    obtain ⟨wasActive, same⟩ := keeps active
    obtain ⟨written, assigned⟩ := sound.live wasActive
    refine ⟨written.trans (congrArg some same.symm), ?_⟩
    have sameTime : after.assignedAt = history.system.task.assignedAt :=
      congrArg Assignment.assignedAt same
    show after.assignedAt ≠ none
    rw [sameTime]
    exact assigned
  pending := pending

theorem Sound.set (sound : Sound history) (op : Nat) {operation : Operation}
    (rollsBack : RollsBack operation) (other : Nat) (found : Operation)
    (isFound : Function.update history.system.ops op (some operation) other = some found) :
    RollsBack found := by
  rw [Function.update_apply] at isFound
  split_ifs at isFound
  · cases isFound
    exact rollsBack
  · exact sound.pending other found isFound

theorem Sound.ended (sound : Sound history) (op other : Nat) (found : Operation)
    (isFound : Function.update history.system.ops op none other = some found) :
    RollsBack found := by
  rw [Function.update_apply] at isFound
  split_ifs at isFound
  exact sound.pending other found isFound

end

/-! ## Steps -/

variable {history : History}

theorem update_sound (sound : Sound history)
    (keeps : ∀ task, updated = .ok task → Keeps history.system.task task)
    (ran : history.system.update updated = some next) : Sound ⟨next, history.written⟩ := by
  cases updated with
  | error message => cases ran
  | ok task =>
    cases ran
    exact sound.kept (keeps task rfl) sound.pending

theorem begin_sound (sound : Sound history) {detail : String}
    (keeps : ∀ task, updated = .ok task → Keeps history.system.task task)
    (ran : history.system.begin op (.clearing source detail) updated = some next) :
    Sound ⟨next, history.written⟩ := by
  unfold System.begin at ran
  split at ran
  · rename_i task _
    cases ran
    exact sound.kept (keeps task rfl) (sound.set op trivial)
  · cases ran

theorem assign_sound (sound : Sound history)
    (ran : Whip.step history.system (.assign op source unmet masterIRC now) = some next) :
    Sound ⟨next, some (assignment next.task)⟩ := by
  simp only [Whip.step, System.begin] at ran
  split at ran
  · rename_i task _ isOk
    cases ran
    obtain ⟨inactive, assigned⟩ := reserveTask_writes isOk
    refine ⟨?_, sound.set op inactive⟩
    intro _
    refine ⟨rfl, ?_⟩
    show task.assignedAt ≠ none
    rw [assigned]
    simp
  · cases ran

theorem rollBack_keeps (task : Task) {prev : TaskRuntimeSnapshot}
    (inactive : prev.status.isActive = false) (source : LaunchSource) (note detail : String)
    (now : Time) : Keeps task (rollBackTask task source prev note detail now) := by
  intro active
  have isPrev : prev.status.isActive = true := active
  simp [inactive] at isPrev

theorem clearedTask_keeps (inactive : task.status.isActive = false) (source : LaunchSource)
    (stopErr : Option String) (detail : String) (now : Time) :
    Keeps task (clearedTask task source stopErr detail now) := by
  intro active
  simp [clearedTask_status, inactive] at active

theorem spawnedTask_keeps (task : Task) (source : LaunchSource) (runner sessionID : String)
    (now : Time) : Keeps task (spawnedTask task source runner sessionID now) :=
  fun active => ⟨active, rfl⟩

theorem step_sound {next : History} {label : Label} (sound : Sound history)
    (undisturbed : Undisturbed history label) (ran : step history label = some next) :
    Sound next := by
  unfold step at ran
  rw [Option.map_eq_some_iff] at ran
  obtain ⟨system, ran, isNext⟩ := ran
  rw [← isNext]
  cases label with
  | assign op source unmet masterIRC now => exact assign_sound sound ran
  | promptSaved op =>
    simp only [Whip.step] at ran
    split at ran
    · rename_i source prev isOp
      cases ran
      have rollsBack : RollsBack (.assigning source prev) := sound.pending op _ isOp
      exact sound.kept (fun active => ⟨active, rfl⟩) (sound.set op rollsBack)
    · cases ran
  | promptFails op now | spawnFails op spawnErr now =>
    simp only [Whip.step] at ran
    split at ran
    · rename_i source prev isOp
      cases ran
      have inactive : prev.status.isActive = false := sound.pending op _ isOp
      exact sound.kept (rollBack_keeps _ inactive _ _ _ _) (sound.ended op)
    · cases ran
  | spawned op runner sessionID now =>
    simp only [Whip.step] at ran
    split at ran
    · cases ran
      exact sound.kept (spawnedTask_keeps _ _ _ _ _) (sound.ended op)
    · cases ran
  | start source shellPID note now =>
    exact update_sound sound (fun task isOk => startTask_keeps isOk) ran
  | review source note now | requestChanges source note now | approve source note now =>
    refine update_sound sound ?_ ran
    intro task isOk
    exact transitionTaskStatus_keeps (by decide) isOk
  | complete source note now =>
    exact update_sound sound (fun task isOk => completeTask_keeps isOk) ran
  | fail op source note now | cancel op source note now =>
    refine begin_sound sound ?_ ran
    intro task isOk
    exact transitionTaskStatus_keeps (by decide) isOk
  | clear op stopErr now =>
    simp only [Whip.step] at ran
    split at ran
    · cases ran
      exact sound.kept (clearedTask_keeps undisturbed _ _ _ _) (sound.ended op)
    · cases ran
  | archive now =>
    simp only [Whip.step] at ran
    refine update_sound sound ?_ ran
    intro task isOk
    cases isOk
    exact clearedTask_keeps undisturbed _ _ _ _
  | note source note now =>
    exact update_sound sound (fun task isOk => addTaskNote_keeps isOk) ran
  | changeType newType now =>
    simp only [Whip.step] at ran
    refine update_sound sound ?_ ran
    intro task isOk
    cases isOk
    exact fun active => ⟨active, rfl⟩
  | depLoad op =>
    simp only [Whip.step] at ran
    split at ran
    · cases ran
      exact sound.kept (fun active => ⟨active, rfl⟩) (sound.set op trivial)
    · cases ran
  | depSave op after now =>
    simp only [Whip.step] at ran
    split at ran
    · rename_i loaded isOp
      cases ran
      obtain ⟨sameStatus, sameAssignment⟩ := undisturbed loaded isOp
      refine sound.kept ?_ (sound.ended op)
      intro active
      have wasActive : loaded.status.isActive = true := active
      rw [sameStatus] at wasActive
      exact ⟨wasActive, sameAssignment⟩
    · cases ran

theorem clear_active {next : History} {stopErr : Option String}
    (active : history.system.task.status.isActive = true)
    (ran : step history (.clear op stopErr now) = some next) : ¬ next.Live := by
  intro live
  unfold step at ran
  rw [Option.map_eq_some_iff] at ran
  obtain ⟨system, ran, isNext⟩ := ran
  rw [← isNext] at live
  simp only [Whip.step] at ran
  split at ran
  · rename_i source detail _
    cases ran
    have stillActive :
        (clearedTask history.system.task source stopErr detail now).status.isActive = true := by
      rw [clearedTask_status]
      exact active
    exact (live stillActive).2 (clearedTask_assignedAt _ _ _ _ _)
  · cases ran

/-- **Assignments are live as long as no runtime of an active task is cleared**, and a
runtime of an active task that is cleared is a live assignment lost. -/
theorem assignmentsLive {task : Task} (created : task.Created) {history : History}
    (run : Run step Undisturbed (.initial task) history) :
    history.Live ∧ ∀ op stopErr now next, history.system.task.status.isActive = true →
      step history (.clear op stopErr now) = some next → ¬ next.Live := by
  have sound : Sound history := run.invariant (initial_sound created)
    fun _ _ _ before undisturbed ran => step_sound before undisturbed ran
  exact ⟨sound.live, fun _ _ _ _ active ran => clear_active active ran⟩

/-- Assigns the fresh task and spawns its session. -/
def assigned : List Label :=
  [.assign 0 ⟨"cli", "assign"⟩ [] "wp-master" 1, .promptSaved 0, .spawned 0 "tmux" "" 2]

/-- The task fails, is assigned again, and then the failure clears its runtime. -/
def assignedWhileFailing : List Label :=
  assigned ++ [.fail 1 ⟨"cli", "fail"⟩ "" 3, .assign 2 ⟨"cli", "assign"⟩ [] "wp-master" 4,
    .promptSaved 2, .spawned 2 "tmux" "" 5, .clear 1 none 6]

theorem not_assignmentsLive : ¬ AssignmentsLive fun _ label => OfLifecycle label := by
  intro live
  obtain ⟨history, replayed, idle, active, cleared⟩ :
      ∃ history, execute step (.initial fresh) assignedWhileFailing = some history ∧
        history.Idle ∧ history.system.task.status.isActive = true ∧
          history.system.task.assignedAt = none := by
    refine ⟨_, rfl, ?_, rfl, rfl⟩
    intro op
    rcases op with _ | _ | _ | op <;> rfl
  have permitted : Permitted step (fun _ label => OfLifecycle label) (.initial fresh)
      assignedWhileFailing :=
    ⟨trivial, _, rfl, trivial, _, rfl, trivial, _, rfl, trivial, _, rfl, trivial, _, rfl,
      trivial, _, rfl, trivial, _, rfl, trivial, _, rfl, trivial⟩
  have run := run_of_permitted assignedWhileFailing permitted replayed
  exact (live fresh history fresh_created run idle active).2 cleared

theorem assignmentsLive_assigned : ∃ history, Run step Undisturbed (.initial fresh) history ∧
      history.system.task.status = .assigned ∧
        history.written = some ⟨"wp-a1", some 1⟩ ∧ history.Live := by
  obtain ⟨history, replayed, isAssigned, isWritten⟩ :
      ∃ history, execute step (.initial fresh) assigned = some history ∧
        history.system.task.status = .assigned ∧ history.written = some ⟨"wp-a1", some 1⟩ :=
    ⟨_, rfl, rfl, rfl⟩
  have permitted : Permitted step Undisturbed (.initial fresh) assigned :=
    ⟨trivial, _, rfl, trivial, _, rfl, trivial, _, rfl, trivial⟩
  have run := run_of_permitted assigned permitted replayed
  exact ⟨history, run, isAssigned, isWritten, (assignmentsLive fresh_created run).1⟩

end AiTools.Whip.LiveAssignment
