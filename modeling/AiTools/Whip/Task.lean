import AiTools.Lib.Space

/-!
Contract: a task of the board and the updates of its stored record.

Times are given, one for each update; the store normalizes the workspace name on every load and
save.
-/

namespace AiTools.Whip

open AiTools.Lib.Space

inductive TaskStatus where
  | created
  | assigned
  | inProgress
  | review
  | approved
  | failed
  | completed
  | canceled
deriving DecidableEq

def TaskStatus.name : TaskStatus → String
  | .created => "created"
  | .assigned => "assigned"
  | .inProgress => "in_progress"
  | .review => "review"
  | .approved => "approved"
  | .failed => "failed"
  | .completed => "completed"
  | .canceled => "canceled"

def TaskStatus.isTerminal (status : TaskStatus) : Bool :=
  status == .completed || status == .canceled

def TaskStatus.isActive (status : TaskStatus) : Bool :=
  status == .assigned || status == .inProgress || status == .review || status == .approved

structure TaskLifecycleActionSpec where
  name : String
  from_ : List TaskStatus
  to_ : TaskStatus

def taskLifecycleActionSpecs : List TaskLifecycleActionSpec :=
  [ ⟨"assign", [.created, .failed], .assigned⟩,
    ⟨"start", [.assigned], .inProgress⟩,
    ⟨"review", [.inProgress], .review⟩,
    ⟨"request-changes", [.review], .inProgress⟩,
    ⟨"approve", [.review], .approved⟩,
    ⟨"complete", [.inProgress, .approved], .completed⟩,
    ⟨"fail", [.assigned, .inProgress, .review, .approved], .failed⟩,
    ⟨"cancel", [.created, .assigned, .inProgress, .review, .approved, .failed], .canceled⟩ ]

/-- The transition stands in the lifecycle table. -/
def Allowed (before after : TaskStatus) : Prop :=
  ∃ spec ∈ taskLifecycleActionSpecs, before ∈ spec.from_ ∧ spec.to_ = after

instance (before after : TaskStatus) : Decidable (Allowed before after) :=
  inferInstanceAs (Decidable (∃ spec ∈ taskLifecycleActionSpecs, _ ∧ _))

/-- The table of `ValidateTransition`. -/
def transitionTargets : TaskStatus → List TaskStatus
  | .created => [.assigned, .canceled]
  | .assigned => [.inProgress, .failed, .canceled]
  | .inProgress => [.review, .completed, .failed, .canceled]
  | .review => [.inProgress, .approved, .failed, .canceled]
  | .approved => [.completed, .failed, .canceled]
  | .failed => [.assigned, .canceled]
  | .completed => []
  | .canceled => []

theorem allowed_iff_transitionTargets (before after : TaskStatus) :
    Allowed before after ↔ after ∈ transitionTargets before := by
  cases before <;> cases after <;> decide

theorem Allowed.not_terminal {before after : TaskStatus} (allowed : Allowed before after) :
    before.isTerminal = false := by
  rw [allowed_iff_transitionTargets] at allowed
  cases before <;> first | rfl | cases allowed

abbrev Time := Nat

structure Note where
  timestamp : Time
  status : TaskStatus
  content : String
deriving DecidableEq

/-- `fromStatus` is absent in the event of the creation. -/
structure TaskEvent where
  timestamp : Time
  actor : String
  command : String
  action : String
  fromStatus : Option TaskStatus
  toStatus : TaskStatus
  detail : String
deriving DecidableEq

structure Task where
  id : String
  title : String
  type : String
  workspace : String
  status : TaskStatus
  backend : String := ""
  runner : String := ""
  ircName : String := ""
  masterIRCName : String := ""
  sessionID : String := ""
  shellPID : Int := 0
  note : String := ""
  notes : List Note := []
  review : Bool := false
  role : String := ""
  dependsOn : List String := []
  createdAt : Time
  updatedAt : Time
  assignedAt : Option Time := none
  heartbeatAt : Option Time := none
  completedAt : Option Time := none
  events : List TaskEvent := []
deriving DecidableEq

structure LaunchSource where
  actor : String
  command : String

def Task.addNote (task : Task) (content : String) (now : Time) : Task :=
  { task with
    note := content
    notes := task.notes ++ [⟨now, task.status, content⟩] }

def Task.recordEvent (task : Task) (source : LaunchSource) (action : String)
    (before : Option TaskStatus) (after : TaskStatus) (detail : String) (now : Time) : Task :=
  { task with
    events := task.events ++ [⟨now, source.actor, source.command, action, before, after, detail⟩] }

/-- `strings.TrimSpace`. -/
def trimSpace (text : String) : String := String.ofList (trim text.toList)

/-- The note that ends an update, when there is one. -/
def Task.withNote (task : Task) (source : LaunchSource) (note : String) (now : Time) : Task :=
  if trimSpace note ≠ "" then
    (task.addNote note now).recordEvent source "note" (some task.status) task.status note now
  else task

/-! ## The updates -/

def formatTaskStatusSet (statuses : List TaskStatus) : String :=
  "|".intercalate (statuses.map TaskStatus.name)

def requireTaskStatuses (task : Task) (allowed : List TaskStatus) : Except String Unit :=
  if task.status ∈ allowed then .ok ()
  else .error ("task " ++ task.id ++ " is " ++ task.status.name ++ "; expected " ++
    formatTaskStatusSet allowed)

def transitionTaskStatus (task : Task) (source : LaunchSource) (action : String)
    (newStatus : TaskStatus) (note : String) (allowedFrom : List TaskStatus) (now : Time) :
    Except String Task := do
  requireTaskStatuses task allowedFrom
  let moved := { task with
    status := newStatus
    completedAt := if newStatus.isTerminal then some now else none
    updatedAt := now }
  return (moved.recordEvent source action (some task.status) newStatus "" now).withNote source
    note now

def reviewTask (task : Task) (source : LaunchSource) (note : String) (now : Time) :
    Except String Task :=
  transitionTaskStatus task source "reviewed" .review note [.inProgress] now

def requestChangesTask (task : Task) (source : LaunchSource) (note : String) (now : Time) :
    Except String Task :=
  transitionTaskStatus task source "requested_changes" .inProgress note [.review] now

def approveTask (task : Task) (source : LaunchSource) (note : String) (now : Time) :
    Except String Task :=
  transitionTaskStatus task source "approved" .approved note [.review] now

/-- The first update of `FailTask`. -/
def failTask (task : Task) (source : LaunchSource) (note : String) (now : Time) :
    Except String Task :=
  transitionTaskStatus task source "failed" .failed note
    [.assigned, .inProgress, .review, .approved] now

/-- The first update of `CancelTask`. -/
def cancelTask (task : Task) (source : LaunchSource) (note : String) (now : Time) :
    Except String Task :=
  transitionTaskStatus task source "canceled" .canceled note
    [.created, .assigned, .inProgress, .review, .approved, .failed] now

/-- With the PID that `resolveStartShellPID` yields. -/
def startTask (task : Task) (source : LaunchSource) (shellPID : Int) (note : String)
    (now : Time) : Except String Task := do
  requireTaskStatuses task [.assigned]
  let started := { task with
    status := .inProgress
    shellPID := shellPID
    heartbeatAt := some now
    updatedAt := now }
  return (started.recordEvent source "started" (some task.status) .inProgress
    ("shell_pid=" ++ toString shellPID) now).withNote source note now

def completeTask (task : Task) (source : LaunchSource) (note : String) (now : Time) :
    Except String Task := do
  requireTaskStatuses task [.inProgress, .approved]
  if task.review ∧ task.status = .inProgress then
    throw ("task " ++ task.id ++ " requires review; use `whip task review " ++ task.id ++ "` first")
  let completed := { task with
    status := .completed
    completedAt := some now
    updatedAt := now }
  return (completed.recordEvent source "completed" (some task.status) .completed "" now).withNote
    source note now

def globalWorkspaceName : String := "global"

def leadIRCPrefix : String := "wp-lead"

def taskRoleLead : String := "lead"

def defaultBackendName : String := "claude"

def workspaceLeadIRCName (workspace : String) : String :=
  if workspace = globalWorkspaceName then "" else leadIRCPrefix ++ "-" ++ workspace

structure TaskRuntimeSnapshot where
  status : TaskStatus
  runner : String
  ircName : String
  masterIRCName : String
  sessionID : String
  shellPID : Int
  assignedAt : Option Time
  heartbeatAt : Option Time
  completedAt : Option Time
  updatedAt : Time

def captureTaskRuntimeSnapshot (task : Task) : TaskRuntimeSnapshot where
  status := task.status
  runner := task.runner
  ircName := task.ircName
  masterIRCName := task.masterIRCName
  sessionID := task.sessionID
  shellPID := task.shellPID
  assignedAt := task.assignedAt
  heartbeatAt := task.heartbeatAt
  completedAt := task.completedAt
  updatedAt := task.updatedAt

def restoreTaskRuntimeSnapshot (task : Task) (snapshot : TaskRuntimeSnapshot) : Task :=
  { task with
    status := snapshot.status
    runner := snapshot.runner
    ircName := snapshot.ircName
    masterIRCName := snapshot.masterIRCName
    sessionID := snapshot.sessionID
    shellPID := snapshot.shellPID
    assignedAt := snapshot.assignedAt
    heartbeatAt := snapshot.heartbeatAt
    completedAt := snapshot.completedAt
    updatedAt := snapshot.updatedAt }

def prepareAssignedTask (task : Task) (masterIRC : String) (now : Time) : Task :=
  { task with
    ircName :=
      if task.role = taskRoleLead then workspaceLeadIRCName task.workspace else "wp-" ++ task.id
    masterIRCName := masterIRC
    backend := if task.backend = "" then defaultBackendName else task.backend
    status := .assigned
    runner := ""
    shellPID := 0
    heartbeatAt := none
    completedAt := none
    assignedAt := some now
    updatedAt := now }

/-- The reservation of `AssignTask`, given the dependencies that are not met and
the name that `resolveTaskMasterIRC` yields. -/
def reserveTask (task : Task) (source : LaunchSource) (unmet : List String) (masterIRC : String)
    (now : Time) : Except String Task := do
  requireTaskStatuses task [.created, .failed]
  if unmet ≠ [] then
    throw ("unmet dependencies: " ++ ", ".intercalate unmet)
  let prepared := prepareAssignedTask task masterIRC now
  return prepared.recordEvent source "assigned" (some task.status) .assigned
    ("irc=" ++ prepared.ircName ++ " master=" ++ prepared.masterIRCName) now

/-- The rollback of `AssignTask`. It writes the saved status without a look at the
current one. -/
def rollBackTask (task : Task) (source : LaunchSource) (prev : TaskRuntimeSnapshot)
    (note detail : String) (now : Time) : Task :=
  let restored := { restoreTaskRuntimeSnapshot task prev with updatedAt := now }
  (restored.addNote note now).recordEvent source "reverted" (some .assigned) restored.status
    detail now

def promptFailed (task : Task) (source : LaunchSource) (prev : TaskRuntimeSnapshot)
    (now : Time) : Task :=
  rollBackTask task source prev "assign aborted before spawn: failed to save prompt"
    "failed to save prompt" now

def spawnFailed (task : Task) (source : LaunchSource) (prev : TaskRuntimeSnapshot)
    (spawnErr : String) (now : Time) : Task :=
  rollBackTask task source prev ("assign spawn failed: " ++ spawnErr) spawnErr now

/-- The last update of a successful `AssignTask`, with the session id of its own
copy of the task. -/
def spawnedTask (task : Task) (source : LaunchSource) (runner sessionID : String) (now : Time) :
    Task :=
  let spawned := { task with
    runner := runner
    sessionID := if sessionID ≠ "" then sessionID else task.sessionID
    updatedAt := now }
  spawned.recordEvent source "spawned" (some task.status) task.status
    ("runner=" ++ runner ++ " session_id=" ++ spawned.sessionID) now

def clearTaskRuntime (task : Task) : Task :=
  { task with
    runner := ""
    ircName := ""
    masterIRCName := ""
    shellPID := 0
    assignedAt := none
    heartbeatAt := none }

/-- The second update of `FailTask` and `CancelTask`, and that of a workspace's
archival. -/
def clearedTask (task : Task) (source : LaunchSource) (stopErr : Option String)
    (detail : String) (now : Time) : Task :=
  let cleared := { clearTaskRuntime task with updatedAt := now }
  let warned := match stopErr with
    | some err => cleared.recordEvent source "warning" (some task.status) task.status err now
    | none => cleared
  warned.recordEvent source "runtime_cleared" (some task.status) task.status detail now

def addTaskNote (task : Task) (source : LaunchSource) (note : String) (now : Time) :
    Except String Task :=
  if trimSpace note = "" then .error "note cannot be empty"
  else
    .ok ({ task.addNote note now with updatedAt := now }.recordEvent source "note"
      (some task.status) task.status note now)

def statsLabel (value : String) : String :=
  if trimSpace value = "" then "(unset)" else trimSpace value

def changeTaskType (task : Task) (newType : String) (now : Time) : Task :=
  { task with type := newType, updatedAt := now }.recordEvent ⟨"cli", "type"⟩ "type_changed"
    (some task.status) task.status (statsLabel task.type ++ " -> " ++ newType) now

/-- What `dep` does to the copy of the task that it loaded. -/
def addDependencies (task : Task) (after : List String) (now : Time) : Task :=
  { task with
    dependsOn := after.foldl
      (fun known id => if id ∈ known then known else known ++ [id]) task.dependsOn
    updatedAt := now }

/-- A fresh task as the `create` command saves it. -/
def Task.Created (task : Task) : Prop :=
  task.status = .created ∧
    ∃ now, task.events = [⟨now, "cli", "create", "created", none, .created, task.title⟩]

end AiTools.Whip
