import AiTools.Grove.JsonFile
import Mathlib.Logic.Function.Basic

/-!
Contract: the mission store and the mission directories, one file operation at a time.

The worktrees are below the directory of their mission and go with it. Beside the code's state are
recorded what the operations that went through have promised, and which directories a listing has
removed.
-/

namespace AiTools.Grove.Missions

structure MissionProject where
  projectId : String
  branch : String
  path : String

structure Mission where
  id : String
  name : String
  branchName : Option String
  projects : List MissionProject
  collapsed : Bool

abbrev MissionStore := List Mission

namespace MissionStore

def ids (store : MissionStore) : List String := store.map Mission.id

def HasProject (store : MissionStore) (missionId projectId : String) : Prop :=
  ∃ mission ∈ store, mission.id = missionId ∧
    ∃ project ∈ mission.projects, project.projectId = projectId

/-- `missions.iter_mut().find`, and the change of what it finds. -/
def update (missionId : String) (change : Mission → Mission) : MissionStore → MissionStore
  | [] => []
  | mission :: rest =>
    if mission.id = missionId then change mission :: rest
    else mission :: update missionId change rest

def addProject (store : MissionStore) (missionId : String) (project : MissionProject) :
    MissionStore :=
  update missionId (fun mission => { mission with projects := mission.projects ++ [project] })
    store

def removeProject (store : MissionStore) (missionId projectId : String) : MissionStore :=
  update missionId (fun mission =>
    { mission with projects := mission.projects.filter (·.projectId ≠ projectId) }) store

def reconcileProjects (store : MissionStore) (projectIds : List String) : MissionStore :=
  store.map fun mission =>
    { mission with projects := mission.projects.filter (·.projectId ∈ projectIds) }

/-- The result of `reconcile_missions`. -/
def reconcileChanges (store : MissionStore) (projectIds : List String) : Bool :=
  store.any fun mission =>
    (mission.projects.filter (·.projectId ∈ projectIds)).length ≠ mission.projects.length

end MissionStore

/-- What is done under the lock, between two reads of the store. -/
inductive Round where
  | create (name : String) (branchName : Option String)
  | add (missionId projectId repo : String)
  | remove (missionId projectId : String)
  | setCollapsed (missionId : String) (collapsed : Bool)
  -- `delete_mission` looks for the mission, removes its projects and its directory, and then
  -- the mission.
  | find (missionId : String)
  | removeDir (missionId : String)
  | drop (missionId : String)
  | reconcile (projectIds : List String)

/-- What a save means once it went through. -/
inductive Change where
  | created (missionId : String)
  | added (missionId projectId : String)
  | removed (missionId projectId : String)
  | dropped (missionId : String)
  | other

structure Save where
  content : MissionStore
  change : Change
  later : List Round

/-- What `reconcile_missions` goes on with when the directories are swept. -/
inductive AfterSweep where
  | unlocked (projectIds : List String) (changed : Bool)
  | locked (store : MissionStore) (changed : Bool)

/-- The next file operation of a thread. `config`, `peek` and an unlocked sweep are those of
`load_missions` before it takes the lock. -/
inductive Stage where
  | config
  | peek (projectIds : List String)
  | scan (known : List String) (after : AfterSweep)
  | sweep (known left : List String) (after : AfterSweep)
  | lock (round : Round)
  | lookup (missionId projectId repo : String)
  | read (round : Round) (later : List Round)
  | choose (store : MissionStore) (name : String) (branchName : Option String)
  | makeDir (store : MissionStore) (mission : Mission)
  | addWorktree (store : MissionStore) (missionId : String) (project : MissionProject)
  | removeDir (missionId : String) (later : List Round)
  | truncate (save : Save)
  | fill (save : Save)
  | rename (save : Save)

inductive Call where
  | list
  | create (name : String) (branchName : Option String)
  | add (missionId projectId repo : String)
  | remove (missionId projectId : String)
  | delete (missionId : String)
  | setCollapsed (missionId : String) (collapsed : Bool)

def Call.start : Call → Stage
  | .list => .config
  | .create name branchName => .lock (.create name branchName)
  | .add missionId projectId repo => .lock (.add missionId projectId repo)
  | .remove missionId projectId => .lock (.remove missionId projectId)
  | .delete missionId => .lock (.find missionId)
  | .setCollapsed missionId collapsed => .lock (.setCollapsed missionId collapsed)

structure Thread where
  process : Nat
  stage : Stage

/-- `owed` and `owedProjects` are the missions and the projects that operations have stored and
none has removed since, `removed` the projects that were removed and not added again, `gone`
the directories that a listing removed. A project keeps its id for good: `used` are the ids
given so far. -/
structure Disk where
  store : JsonFile MissionStore
  tmp : Option (JsonFile MissionStore)
  dirs : List String
  registered : List String
  used : List String
  owed : List String
  owedProjects : List (String × String)
  removed : List (String × String)
  gone : List String

/-- `locks` are the holders of `mission_store_write_lock`, one for each process. -/
structure System where
  disk : Disk
  locks : Nat → Option Nat
  threads : Nat → Option Thread

/-- How a file operation goes, and the candidate of `generate_mission_id`. -/
structure Given where
  ok : Bool
  id : String

inductive Label where
  | start (thread : Nat) (process : Nat) (call : Call)
  | advance (thread : Nat) (given : Given)
  | register (projectId : String)
  | unregister (projectId : String)

def Disk.load (disk : Disk) (readable : Bool) : MissionStore := disk.store.loadOr [] readable

def Change.owed (owed : List String) : Change → List String
  | .created missionId => missionId :: owed
  | .dropped missionId => owed.filter (· ≠ missionId)
  | _ => owed

def Change.owedProjects (owed : List (String × String)) : Change → List (String × String)
  | .added missionId projectId => (missionId, projectId) :: owed
  | .removed missionId projectId => owed.filter (· ≠ (missionId, projectId))
  | .dropped missionId => owed.filter (·.1 ≠ missionId)
  | _ => owed

def Change.removals (owed removed : List (String × String)) : Change → List (String × String)
  | .added missionId projectId => removed.filter (· ≠ (missionId, projectId))
  | .removed missionId projectId => (missionId, projectId) :: removed
  | .dropped missionId => owed.filter (·.1 = missionId) ++ removed
  | _ => removed

/-- A save has replaced the store. -/
def Disk.saved (disk : Disk) (save : Save) : Disk :=
  { disk with
    store := .whole save.content
    tmp := none
    owed := save.change.owed disk.owed
    owedProjects := save.change.owedProjects disk.owedProjects
    removed := save.change.removals disk.owedProjects disk.removed }

/-! ## Steps -/

namespace System

def goto (sys : System) (id : Nat) (thread : Thread) (stage : Stage) : System :=
  { sys with
    threads := Function.update sys.threads id (some { thread with stage := stage }) }

/-- The thread returns, and what it holds of the lock with it. -/
def finish (sys : System) (id : Nat) (thread : Thread) : System :=
  { sys with
    threads := Function.update sys.threads id none
    locks := if sys.locks thread.process = some id
      then Function.update sys.locks thread.process none else sys.locks }

def onDisk (sys : System) (disk : Disk) : System := { sys with disk }

/-- The next round of an operation that has gone well so far. -/
def proceed (sys : System) (id : Nat) (thread : Thread) : List Round → System
  | [] => sys.finish id thread
  | .add missionId projectId repo :: _ =>
    sys.goto id thread (.lookup missionId projectId repo)
  | .removeDir missionId :: later => sys.goto id thread (.removeDir missionId later)
  | round :: later => sys.goto id thread (.read round later)

/-- What a round makes of the store that it has read. -/
def afterRead (sys : System) (id : Nat) (thread : Thread) (store : MissionStore)
    (later : List Round) : Round → System
  | .create name branchName => sys.goto id thread (.choose store name branchName)
  | .add missionId projectId repo =>
    match store.find? (·.id = missionId) with
    | none => sys.finish id thread
    | some mission =>
      if mission.projects.any (·.projectId = projectId) then sys.finish id thread
      else sys.goto id thread (.addWorktree store missionId
        { projectId
          branch := mission.branchName.getD ("mission/" ++ missionId)
          path := missionId ++ "/" ++ repo })
  | .remove missionId projectId =>
    match store.find? (·.id = missionId) with
    | none => sys.finish id thread
    | some mission =>
      if mission.projects.any (·.projectId = projectId) then
        sys.goto id thread (.truncate
          ⟨store.removeProject missionId projectId, .removed missionId projectId, later⟩)
      else sys.finish id thread
  | .setCollapsed missionId collapsed =>
    match store.find? (·.id = missionId) with
    | none => sys.finish id thread
    | some _ => sys.goto id thread (.truncate
        ⟨MissionStore.update missionId ({ · with collapsed }) store, .other, later⟩)
  | .find missionId =>
    match store.find? (·.id = missionId) with
    | none => sys.finish id thread
    | some mission => sys.proceed id thread
        (mission.projects.map (.remove missionId ·.projectId) ++
          [.removeDir missionId, .drop missionId])
  | .removeDir _ => sys.finish id thread
  | .drop missionId => sys.goto id thread (.truncate
      ⟨store.filter (·.id ≠ missionId), .dropped missionId, later⟩)
  | .reconcile projectIds => sys.goto id thread
      (.scan store.ids (.locked (store.reconcileProjects projectIds)
        (store.reconcileChanges projectIds)))

/-- The directories are swept. -/
def afterSweep (sys : System) (id : Nat) (thread : Thread) : AfterSweep → System
  | .unlocked projectIds changed =>
    if changed then sys.goto id thread (.lock (.reconcile projectIds))
    else sys.finish id thread
  | .locked store changed =>
    if changed then sys.goto id thread (.truncate ⟨store, .other, []⟩)
    else sys.finish id thread

def advance (sys : System) (id : Nat) (thread : Thread) (given : Given) : Option System :=
  let disk := sys.disk
  match thread.stage with
  | .config => some (sys.goto id thread (.peek (if given.ok then disk.registered else [])))
  | .peek projectIds =>
    let store := disk.load given.ok
    some (sys.goto id thread
      (.scan store.ids (.unlocked projectIds (store.reconcileChanges projectIds))))
  | .scan known after =>
    some (sys.goto id thread (.sweep known (if given.ok then disk.dirs else []) after))
  | .sweep _ [] after => some (sys.afterSweep id thread after)
  | .sweep known (name :: left) after =>
    if given.ok = true ∧ name ∉ known then
      some ((sys.onDisk { disk with
        dirs := disk.dirs.filter (· ≠ name)
        gone := name :: disk.gone }).goto id thread (.sweep known left after))
    else some (sys.goto id thread (.sweep known left after))
  | .lock round =>
    match sys.locks thread.process with
    | some _ => none
    | none =>
      some ({ sys with
        locks := Function.update sys.locks thread.process (some id) }.proceed id thread
          [round])
  | .lookup missionId projectId repo =>
    if given.ok = true ∧ projectId ∈ disk.registered then
      some (sys.goto id thread (.read (.add missionId projectId repo) []))
    else some (sys.finish id thread)
  | .read round later =>
    some (sys.afterRead id thread (disk.load given.ok) later round)
  -- An invalid branch name is an error.
  | .choose store name branchName =>
    if given.ok = false then some (sys.finish id thread)
    else if given.id ∈ store.ids ∨ given.id ∈ disk.dirs then some sys
    else some (sys.goto id thread (.makeDir store ⟨given.id, name, branchName, [], false⟩))
  | .makeDir store mission =>
    if given.ok then
      some ((sys.onDisk { disk with
        dirs := mission.id :: disk.dirs
        gone := disk.gone.filter (· ≠ mission.id) }).goto id thread
          (.truncate ⟨store ++ [mission], .created mission.id, []⟩))
    else some (sys.finish id thread)
  -- The directory of the mission is made again if it is not there.
  | .addWorktree store missionId project =>
    let sys := sys.onDisk { disk with dirs := missionId :: disk.dirs }
    if given.ok then
      some (sys.goto id thread (.truncate ⟨store.addProject missionId project,
        .added missionId project.projectId, []⟩))
    else some (sys.finish id thread)
  | .removeDir missionId later =>
    if given.ok then
      some ((sys.onDisk { disk with dirs := disk.dirs.filter (· ≠ missionId) }).proceed
        id thread later)
    else some (sys.finish id thread)
  | .truncate save =>
    if given.ok then
      some ((sys.onDisk { disk with tmp := some .torn }).goto id thread (.fill save))
    else some (sys.finish id thread)
  | .fill save =>
    if given.ok then
      some ((sys.onDisk { disk with tmp := some (.whole save.content) }).goto id thread
        (.rename save))
    else some (sys.finish id thread)
  -- The file that is renamed is the one that is there.
  | .rename save =>
    match disk.tmp, given.ok with
    | some file, true =>
      some ((sys.onDisk { disk.saved save with store := file }).proceed id thread
        save.later)
    | _, _ => some ((sys.onDisk { disk with tmp := none }).finish id thread)

end System

def step (sys : System) : Label → Option System
  | .start id process call =>
    match sys.threads id with
    | some _ => none
    | none => some { sys with
        threads := Function.update sys.threads id (some ⟨process, call.start⟩) }
  | .advance id given =>
    match sys.threads id with
    | none => none
    | some thread => sys.advance id thread given
  | .register projectId =>
    if projectId ∈ sys.disk.used then none
    else some (sys.onDisk { sys.disk with
      registered := projectId :: sys.disk.registered
      used := projectId :: sys.disk.used })
  | .unregister projectId =>
    some (sys.onDisk { sys.disk with
      registered := sys.disk.registered.filter (· ≠ projectId) })

/-- What is promised to hold of the store. A project that is no longer registered may go. -/
structure Kept (disk : Disk) : Prop where
  missions : ∀ id ∈ disk.owed, id ∈ (disk.load true).ids
  projects : ∀ pair ∈ disk.owedProjects, pair.2 ∈ disk.registered →
    (disk.load true).HasProject pair.1 pair.2
  stayRemoved : ∀ pair ∈ disk.removed, ¬ (disk.load true).HasProject pair.1 pair.2
  dirs : ∀ id ∈ (disk.load true).ids, id ∉ disk.gone

end AiTools.Grove.Missions
