import AiTools.Lib.Space
import AiTools.Lib.Transition
import Mathlib

/-!
Contract: the list of projects in the window, its snapshots from the backend, and its mutations.

The backend may answer with any projects.
-/

namespace AiTools.Grove.ProjectStore

open AiTools.Lib.Transition
open Function (update_of_ne update_self)

structure Worktree where
  name : String
  path : String
  branch : String
  stackParentName : Option String

structure Project where
  id : String
  name : String
  url : String
  sourcePath : String
  worktrees : List Worktree
  baseBranch : Option String
  collapsed : Bool
  categoryId : String
  focused : Bool

/-- What `String.prototype.trim` removes. -/
def isTrimmed (char : Char) : Bool :=
  (Lib.Space.isSpace char && char.val != 0x85) || char.val == 0xFEFF

def normalizeProjectUrl (url : String) : String :=
  let trimmed := (url.toList.dropWhile isTrimmed).rdropWhile isTrimmed
  let noSlashes := trimmed.rdropWhile fun char => char = '/'
  String.ofList (if ".git".toList.isSuffixOf noSlashes then noSlashes.rdrop 4 else noSlashes)

def sameProjectIdentity (left right : Project) : Bool :=
  left.id = right.id || left.sourcePath = right.sourcePath ||
    normalizeProjectUrl left.url = normalizeProjectUrl right.url

def upsertProject (projects : List Project) (project : Project) : List Project :=
  let nextProjects := projects.map fun existing =>
    if sameProjectIdentity existing project then project else existing
  if projects.any fun existing => sameProjectIdentity existing project then nextProjects
  else nextProjects ++ [project]

def upsertWorktree (worktrees : List Worktree) (worktree : Worktree) : List Worktree :=
  match worktrees.findIdx? fun existing => existing.name = worktree.name with
  | none => worktrees ++ [worktree]
  | some index => worktrees.set index worktree

/-- The named worktrees first, in the order of the names. -/
def reorderWorktrees (remaining : List Worktree) : List String → List Worktree
  | [] => remaining
  | name :: order =>
    match remaining.find? fun worktree => worktree.name = name with
    | none => reorderWorktrees remaining order
    | some found =>
      found :: reorderWorktrees (remaining.eraseP fun worktree => worktree.name = name) order

/-- Of projects with one id the last one counts. -/
def reorder (projects : List Project) (projectIds : List String) : List Project :=
  projectIds.filterMap fun id => projects.reverse.find? fun project => project.id = id

def updateProject (projects : List Project) (id : String) (change : Project → Project) :
    List Project :=
  projects.map fun project => if project.id = id then change project else project

/-- The mutations that mark their start, and are committed when the backend has answered. -/
inductive Mutation where
  | removeProject (id : String)
  | addWorktree (projectId name : String)
  | addStackedWorktree (projectId parentName name : String)
  | removeWorktree (projectId name : String)
  | setWorktreeOrder (projectId : String) (order : List String)
  | renameProject (projectId name : String)
  | setProjectCategory (projectId categoryId : String)
  | setProjectFocus (projectId : String) (focused : Bool)
  | setBaseBranch (projectId : String) (branch : Option String)

/-- A worktree that is there already is not asked for. -/
def Mutation.isRefused (projects : List Project) : Mutation → Bool
  | .addWorktree projectId name | .addStackedWorktree projectId _ name =>
    match projects.find? fun project => project.id = projectId with
    | none => false
    | some project => project.worktrees.any fun worktree => worktree.name = name
  | _ => false

/-- The answer of the backend matters when a worktree is added. -/
def Mutation.commit (projects : List Project) (answer : Worktree) : Mutation → List Project
  | .removeProject id => projects.filter fun project => project.id ≠ id
  | .addWorktree projectId _ | .addStackedWorktree projectId _ _ =>
    updateProject projects projectId fun project =>
      { project with worktrees := upsertWorktree project.worktrees answer }
  | .removeWorktree projectId name =>
    updateProject projects projectId fun project =>
      { project with worktrees := project.worktrees.filter fun worktree => worktree.name ≠ name }
  | .setWorktreeOrder projectId order =>
    updateProject projects projectId fun project =>
      { project with worktrees := reorderWorktrees project.worktrees order }
  | .renameProject projectId name =>
    updateProject projects projectId fun project => { project with name := name }
  | .setProjectCategory projectId categoryId =>
    updateProject projects projectId fun project => { project with categoryId := categoryId }
  | .setProjectFocus projectId focused =>
    updateProject projects projectId fun project => { project with focused := focused }
  | .setBaseBranch projectId branch =>
    updateProject projects projectId fun project => { project with baseBranch := branch }

/-- What the backend has done already when the store hears of it: the answers to `startClone`, the
end of a clone, and the deletion of a category. -/
inductive Announcement where
  | alreadyExists (project : Project)
  | cloning (id : String)
  | completeClone (id : String) (project : Project)
  | deletedCategory (categoryId : String)

structure ProjectsSnapshotToken where
  requestId : Nat
  mutationEpoch : Nat

structure ProjectState where
  projects : List Project
  cloningProjects : List String
  loading : Bool
  projectsSnapshotRequestId : Nat
  projectsMutationEpoch : Nat

inductive SnapshotRequest where
  | load
  | sync
  | refresh (id : String)

/-- A refresh is answered by one project. -/
inductive Snapshot where
  | projects (projects : List Project)
  | project (project : Project)

def SnapshotRequest.takes : SnapshotRequest → Snapshot → Bool
  | .load, .projects _ | .sync, .projects _ | .refresh _, .project _ => true
  | _, _ => false

/-- `made` is history: the mutations that the backend had made when it answered. -/
structure Served where
  snapshot : Snapshot
  made : List Nat

inductive Call where
  | snapshot (request : SnapshotRequest) (token : ProjectsSnapshotToken) (served : Option Served)
  | mutation (mutation : Mutation) (made : Bool)
  /-- A mutation that is committed before the backend is asked. -/
  | committed (made : Bool)
  | announced (announcement : Announcement)

/-- `committed` and `made` are history: the calls whose mutation is committed to the store, and
those whose mutation the backend has made. -/
structure System where
  state : ProjectState
  calls : Nat → Option Call := fun _ => none
  issued : Nat := 0
  committed : List Nat := []
  made : List Nat := []

def initial : System where
  state := ⟨[], [], false, 0, 0⟩

def ProjectState.canApplyProjectsSnapshot (state : ProjectState) (token : ProjectsSnapshotToken) :
    Bool :=
  state.projectsSnapshotRequestId = token.requestId &&
    state.projectsMutationEpoch = token.mutationEpoch

def ProjectState.applyProjectsSnapshot (state : ProjectState) (token : ProjectsSnapshotToken)
    (snapshot : Snapshot) : ProjectState :=
  if state.canApplyProjectsSnapshot token then
    match snapshot with
    | .projects projects => { state with projects := projects }
    | .project project => { state with projects := upsertProject state.projects project }
  else state

def ProjectState.finishProjectsSnapshotLoad (state : ProjectState)
    (token : ProjectsSnapshotToken) : ProjectState :=
  if state.projectsSnapshotRequestId = token.requestId then { state with loading := false }
  else state

def System.issue (sys : System) (call : Call) : System :=
  { sys with
    calls := Function.update sys.calls sys.issued (some call)
    issued := sys.issued + 1 }

def System.setCall (sys : System) (id : Nat) (call : Option Call) : System :=
  { sys with calls := Function.update sys.calls id call }

def System.beginProjectsSnapshotRequest (sys : System) (request : SnapshotRequest)
    (loading : Bool) : System :=
  let requestId := sys.state.projectsSnapshotRequestId + 1
  let token := ⟨requestId, sys.state.projectsMutationEpoch⟩
  { sys with
    state :=
      { sys.state with
        projectsSnapshotRequestId := requestId
        loading := loading || sys.state.loading } }.issue (.snapshot request token none)

def System.markProjectMutationStarted (sys : System) : System :=
  { sys with
    state :=
      { sys.state with projectsMutationEpoch := sys.state.projectsMutationEpoch + 1 } }

def System.commitProjectMutation (sys : System) (id : Nat)
    (updater : ProjectState → ProjectState) : System :=
  { sys with
    state :=
      { updater sys.state with
        projectsMutationEpoch := sys.state.projectsMutationEpoch + 1 }
    committed := sys.committed ++ [id] }

def System.loadProjects (sys : System) : System :=
  sys.beginProjectsSnapshotRequest .load true

def System.syncProjects (sys : System) : System :=
  sys.beginProjectsSnapshotRequest .sync false

def System.refreshProject (sys : System) (id : String) : System :=
  sys.beginProjectsSnapshotRequest (.refresh id) false

def System.mutate (sys : System) (mutation : Mutation) : System :=
  let marked := sys.markProjectMutationStarted
  if mutation.isRefused marked.state.projects then marked
  else marked.issue (.mutation mutation false)

def System.reorderProjects (sys : System) (projectIds : List String) : System :=
  (sys.commitProjectMutation sys.issued fun state =>
    { state with projects := reorder state.projects projectIds }).issue (.committed false)

def System.toggleProjectCollapse (sys : System) (id : String) : System :=
  match sys.state.projects.find? fun project => project.id = id with
  | none => sys
  | some project =>
    let collapsed := !project.collapsed
    (sys.commitProjectMutation sys.issued fun state =>
      { state with
        projects := updateProject state.projects id fun project =>
          { project with collapsed := collapsed } }).issue (.committed false)

/-- The end of a clone counts when the store knows of the clone. -/
def System.deliver (sys : System) (id : Nat) : Announcement → System
  | .alreadyExists project =>
    sys.commitProjectMutation id fun state =>
      { state with projects := upsertProject state.projects project }
  | .cloning cloning =>
    { sys with
      state :=
        { sys.state with
          cloningProjects := sys.state.cloningProjects ++ [cloning] } }
  | .completeClone cloning project =>
    if cloning ∈ sys.state.cloningProjects then
      sys.commitProjectMutation id fun state =>
        { state with
          cloningProjects := state.cloningProjects.filter fun other => other ≠ cloning
          projects := upsertProject state.projects project }
    else sys
  | .deletedCategory categoryId =>
    sys.commitProjectMutation id fun state =>
      { state with
        projects := state.projects.map fun project =>
          if project.categoryId = categoryId then { project with categoryId := "default" }
          else project }

/-- What a request for a snapshot does last. -/
def System.finish (sys : System) (request : SnapshotRequest) (token : ProjectsSnapshotToken) :
    System :=
  match request with
  | .load => { sys with state := sys.state.finishProjectsSnapshotLoad token }
  | _ => sys

inductive Label where
  | loadProjects
  | syncProjects
  | refreshProject (id : String)
  | mutate (mutation : Mutation)
  | reorderProjects (projectIds : List String)
  | toggleProjectCollapse (id : String)
  /-- The backend does something of its own. -/
  | announce (announcement : Announcement)
  /-- The backend makes the mutation of a call. -/
  | make (id : Nat)
  /-- The backend answers a request for a snapshot. -/
  | serve (id : Nat) (snapshot : Snapshot)
  /-- The answer reaches the store. -/
  | succeed (id : Nat) (worktree : Worktree)
  | fail (id : Nat)

def step (sys : System) : Label → Option System
  | .loadProjects => some sys.loadProjects
  | .syncProjects => some sys.syncProjects
  | .refreshProject id => some (sys.refreshProject id)
  | .mutate mutation => some (sys.mutate mutation)
  | .reorderProjects projectIds => some (sys.reorderProjects projectIds)
  | .toggleProjectCollapse id => some (sys.toggleProjectCollapse id)
  | .announce announcement =>
    some { sys.issue (.announced announcement) with made := sys.made ++ [sys.issued] }
  | .make id =>
    match sys.calls id with
    | some (.mutation mutation false) =>
      some { sys.setCall id (some (.mutation mutation true)) with
        made := sys.made ++ [id] }
    | some (.committed false) =>
      some { sys.setCall id (some (.committed true)) with
        made := sys.made ++ [id] }
    | _ => none
  | .serve id snapshot =>
    match sys.calls id with
    | some (.snapshot request token none) =>
      if request.takes snapshot then
        some (sys.setCall id (some (.snapshot request token (some ⟨snapshot, sys.made⟩))))
      else none
    | _ => none
  | .succeed id worktree =>
    let answered := sys.setCall id none
    match sys.calls id with
    | some (.snapshot request token (some served)) =>
      some ({ answered with
        state := answered.state.applyProjectsSnapshot token served.snapshot }.finish request
          token)
    | some (.mutation mutation true) =>
      some (answered.commitProjectMutation id fun state =>
        { state with projects := mutation.commit state.projects worktree })
    | some (.committed true) => some answered
    | some (.announced announcement) => some (answered.deliver id announcement)
    | _ => none
  | .fail id =>
    let answered := sys.setCall id none
    match sys.calls id with
    | some (.snapshot request token _) => some (answered.finish request token)
    | some (.mutation _ _) | some (.committed _) => some answered
    | _ => none

/-- A snapshot that can be applied reflects what is committed. -/
def Reflects (sys : System) : Prop :=
  ∀ id request token served, sys.calls id = some (.snapshot request token (some served)) →
    sys.state.canApplyProjectsSnapshot token = true →
    ∀ mutation ∈ sys.committed, mutation ∈ served.made

/-- Without a request the loading flag is out. -/
def LoadingEnds (sys : System) : Prop :=
  (∀ id request token served, sys.calls id ≠ some (.snapshot request token served)) →
    sys.state.loading = false

structure Fresh (sys : System) : Prop where
  reflects : Reflects sys
  loadingEnds : LoadingEnds sys

/-- No sync and no refresh is begun while the loading flag is set, and the backend does not answer
a request that is not stale before it has made what is committed. -/
def Clean (sys : System) : Label → Prop
  | .syncProjects | .refreshProject _ => sys.state.loading = false
  | .serve id _ => ∀ request token, sys.calls id = some (.snapshot request token none) →
      sys.state.canApplyProjectsSnapshot token = true →
      ∀ mutation ∈ sys.committed, mutation ∈ sys.made
  | _ => True

/-! ## The actions keep it -/

section
variable {sys : System}

/-- The tokens are not ahead of the store, and the loading flag is set by the newest request. -/
structure Sound (sys : System) : Prop where
  bounded : ∀ id, sys.calls id ≠ none → id < sys.issued
  behind : ∀ id request token served,
    sys.calls id = some (.snapshot request token served) →
    token.requestId ≤ sys.state.projectsSnapshotRequestId ∧
      token.mutationEpoch ≤ sys.state.projectsMutationEpoch
  loading : sys.state.loading = true → ∃ id token served,
    sys.calls id = some (.snapshot .load token served) ∧
      token.requestId = sys.state.projectsSnapshotRequestId
  reflects : Reflects sys

theorem initial_sound : Sound initial where
  bounded := fun _ isCall => absurd rfl isCall
  behind := fun _ _ _ _ isCall => nomatch isCall
  loading := nofun
  reflects := fun _ _ _ _ isCall => nomatch isCall

theorem Sound.fresh (sound : Sound sys) : Fresh sys where
  reflects := sound.reflects
  loadingEnds := by
    intro noRequest
    by_contra isLoading
    obtain ⟨id, token, served, isCall, _⟩ := sound.loading (Bool.eq_true_of_not_eq_false isLoading)
    exact noRequest id .load token served isCall

variable {token : ProjectsSnapshotToken} {calls : Nat → Option Call} {id : Nat} {call : Option Call}
  {next : System} {request : SnapshotRequest}

theorem canApply_iff {state : ProjectState} :
    state.canApplyProjectsSnapshot token = true ↔
      state.projectsSnapshotRequestId = token.requestId ∧
        state.projectsMutationEpoch = token.mutationEpoch := by
  unfold ProjectState.canApplyProjectsSnapshot
  rw [Bool.and_eq_true, decide_eq_true_iff, decide_eq_true_iff]

theorem Sound.unissued (sound : Sound sys) : sys.calls sys.issued = none := by
  by_contra isCall
  exact absurd (sound.bounded _ isCall) (Nat.lt_irrefl _)

/-- The requests for snapshots are the same in both tables. -/
def SameSnapshots (calls next : Nat → Option Call) : Prop :=
  ∀ id request token served, next id = some (.snapshot request token served) ↔
    calls id = some (.snapshot request token served)

theorem sameSnapshots_update
    (notOld : ∀ request token served, calls id ≠ some (.snapshot request token served))
    (notNew : ∀ request token served, call ≠ some (.snapshot request token served)) :
    SameSnapshots calls (Function.update calls id call) := by
  intro other request token served
  by_cases same : other = id
  · subst same
    rw [update_self]
    exact iff_of_false (notNew request token served) (notOld request token served)
  · rw [update_of_ne same]

theorem bounded_update {issued : Nat} (bounded : ∀ other, calls other ≠ none → other < issued)
    (isBelow : id < issued) :
    ∀ other, Function.update calls id call other ≠ none → other < issued := by
  intro other isCall
  by_cases same : other = id
  · rw [same]
    exact isBelow
  · rw [update_of_ne same] at isCall
    exact bounded other isCall

theorem Sound.beside (sound : Sound sys) (bounded : ∀ id, next.calls id ≠ none → id < next.issued)
    (snapshots : SameSnapshots sys.calls next.calls) (sameRequest :
      next.state.projectsSnapshotRequestId = sys.state.projectsSnapshotRequestId)
    (sameLoading : next.state.loading = sys.state.loading)
    (isStale : next.state.projectsMutationEpoch = sys.state.projectsMutationEpoch ∧
        next.committed = sys.committed ∨
      sys.state.projectsMutationEpoch < next.state.projectsMutationEpoch) : Sound next where
  bounded := bounded
  behind := by
    intro id request token served isCall
    obtain ⟨requestBehind, epochBehind⟩ :=
      sound.behind id request token served ((snapshots id request token served).mp isCall)
    rw [sameRequest]
    refine ⟨requestBehind, epochBehind.trans ?_⟩
    rcases isStale with ⟨sameEpoch, _⟩ | isLater
    · exact sameEpoch.ge
    · exact isLater.le
  loading := by
    intro isLoading
    obtain ⟨id, token, served, isCall, isNewest⟩ := sound.loading (sameLoading ▸ isLoading)
    exact ⟨id, token, served, (snapshots id .load token served).mpr isCall,
      isNewest.trans sameRequest.symm⟩
  reflects := by
    intro id request token served isCall canApply
    have wasCall := (snapshots id request token (some served)).mp isCall
    obtain ⟨atRequest, atEpoch⟩ := canApply_iff.mp canApply
    rcases isStale with ⟨sameEpoch, sameCommitted⟩ | isLater
    · rw [sameCommitted]
      refine sound.reflects id request token served wasCall (canApply_iff.mpr ?_)
      exact ⟨sameRequest.symm.trans atRequest, sameEpoch.symm.trans atEpoch⟩
    · have notAhead := (sound.behind id request token _ wasCall).2
      omega

theorem Sound.begin (sound : Sound sys) (request : SnapshotRequest) {loading : Bool}
    (isClean : loading = true ∧ request = .load ∨
      loading = false ∧ sys.state.loading = false) :
    Sound (sys.beginProjectsSnapshotRequest request loading) where
  bounded := bounded_update
    (fun id isCall => (sound.bounded id isCall).trans (Nat.lt_succ_self _)) (Nat.lt_succ_self _)
  behind := by
    intro id other token served isCall
    rcases update_eq_some isCall with ⟨_, isNew⟩ | ⟨_, wasCall⟩
    · cases isNew
      exact ⟨le_rfl, le_rfl⟩
    · obtain ⟨requestBehind, epochBehind⟩ := sound.behind id other token served wasCall
      exact ⟨requestBehind.trans (Nat.le_succ _), epochBehind⟩
  loading := by
    intro isLoading
    rcases isClean with ⟨_, rfl⟩ | ⟨rfl, notLoading⟩
    · exact ⟨sys.issued, _, none, update_self _ _ _, rfl⟩
    · exact absurd (notLoading.symm.trans isLoading) Bool.false_ne_true
  reflects := by
    intro id other token served isCall canApply
    rcases update_eq_some isCall with ⟨_, isNew⟩ | ⟨_, wasCall⟩
    · cases isNew
    · have notAhead := (sound.behind id other token _ wasCall).1
      have isNewest : sys.state.projectsSnapshotRequestId + 1 = token.requestId :=
        (canApply_iff.mp canApply).1
      omega

theorem reflects_serve_iff (snapshot : Snapshot) (reflects : Reflects sys) :
    Reflects (sys.setCall id
        (some (.snapshot request token (some ⟨snapshot, sys.made⟩)))) ↔
      (sys.state.canApplyProjectsSnapshot token = true →
        ∀ mutation ∈ sys.committed, mutation ∈ sys.made) := by
  constructor
  · exact fun allReflect => allReflect id request token _ (update_self _ _ _)
  · intro isClean other otherRequest otherToken served isOther canApply
    rcases update_eq_some isOther with ⟨_, isServed⟩ | ⟨_, wasCall⟩
    · cases isServed
      exact isClean canApply
    · exact reflects other otherRequest otherToken served wasCall canApply

theorem Sound.serve (sound : Sound sys) (snapshot : Snapshot)
    (isCall : sys.calls id = some (.snapshot request token none))
    (isClean : sys.state.canApplyProjectsSnapshot token = true →
      ∀ mutation ∈ sys.committed, mutation ∈ sys.made) :
    Sound (sys.setCall id (some (.snapshot request token (some ⟨snapshot, sys.made⟩)))) where
  bounded := bounded_update sound.bounded
    (sound.bounded id (by rw [isCall]; exact Option.some_ne_none _))
  behind := by
    intro other otherRequest otherToken served isOther
    rcases update_eq_some isOther with ⟨_, isServed⟩ | ⟨_, wasCall⟩
    · cases isServed
      exact sound.behind id request token none isCall
    · exact sound.behind other otherRequest otherToken served wasCall
  loading := by
    intro isLoading
    obtain ⟨load, loadToken, served, isLoad, isNewest⟩ := sound.loading isLoading
    by_cases same : load = id
    · subst same
      rw [isCall] at isLoad
      cases isLoad
      exact ⟨load, token, _, update_self _ _ _, isNewest⟩
    · exact ⟨load, loadToken, served, (update_of_ne same _ _).trans isLoad, isNewest⟩
  reflects := (reflects_serve_iff snapshot sound.reflects).mpr isClean

theorem Sound.drop (sound : Sound sys) (calls : next.calls = Function.update sys.calls id none)
    (issued : next.issued = sys.issued) (sameRequest :
      next.state.projectsSnapshotRequestId = sys.state.projectsSnapshotRequestId)
    (sameEpoch : next.state.projectsMutationEpoch = sys.state.projectsMutationEpoch)
    (sameCommitted : next.committed = sys.committed)
    (isLoading : next.state.loading = true → sys.state.loading = true ∧
      ∀ token served, sys.calls id = some (.snapshot .load token served) →
        token.requestId ≠ sys.state.projectsSnapshotRequestId) : Sound next where
  bounded := by
    rw [calls, issued]
    intro other isCall
    by_cases same : other = id
    · subst same
      exact absurd (update_self _ _ _) isCall
    · rw [update_of_ne same] at isCall
      exact sound.bounded other isCall
  behind := by
    rw [calls, sameRequest, sameEpoch]
    intro other request token served isCall
    rcases update_eq_some isCall with ⟨_, isGone⟩ | ⟨_, wasCall⟩
    · cases isGone
    · exact sound.behind other request token served wasCall
  loading := by
    intro stillLoading
    obtain ⟨wasLoading, notNewest⟩ := isLoading stillLoading
    obtain ⟨load, token, served, isLoad, isNewest⟩ := sound.loading wasLoading
    rw [calls, sameRequest]
    refine ⟨load, token, served, ?_, isNewest⟩
    by_cases same : load = id
    · subst same
      exact absurd isNewest (notNewest token served isLoad)
    · rw [update_of_ne same, isLoad]
  reflects := by
    intro other request token served isCall canApply
    rw [calls] at isCall
    rw [sameCommitted]
    rcases update_eq_some isCall with ⟨_, isGone⟩ | ⟨_, wasCall⟩
    · cases isGone
    · refine sound.reflects other request token served wasCall (canApply_iff.mpr ?_)
      obtain ⟨atRequest, atEpoch⟩ := canApply_iff.mp canApply
      exact ⟨sameRequest.symm.trans atRequest, sameEpoch.symm.trans atEpoch⟩

theorem applyProjectsSnapshot_eq (state : ProjectState) (token : ProjectsSnapshotToken)
    (snapshot : Snapshot) : ∃ projects,
      state.applyProjectsSnapshot token snapshot = { state with projects := projects } := by
  unfold ProjectState.applyProjectsSnapshot
  split_ifs
  · cases snapshot with
    | projects projects => exact ⟨projects, rfl⟩
    | project project => exact ⟨upsertProject state.projects project, rfl⟩
  · exact ⟨state.projects, rfl⟩

theorem Sound.finish (sound : Sound sys) {served : Option Served}
    (isCall : sys.calls id = some (.snapshot request token served)) (projects : List Project) :
    Sound (({ sys.setCall id none with
      state := { sys.state with projects := projects } } : System).finish request token) := by
  cases request with
  | load =>
    unfold System.finish ProjectState.finishProjectsSnapshotLoad
    dsimp only [System.setCall]
    split_ifs with isNewest
    · refine sound.drop rfl rfl rfl rfl rfl fun isLoading => ?_
      cases isLoading
    · refine sound.drop rfl rfl rfl rfl rfl fun isLoading => ⟨isLoading, ?_⟩
      intro other otherServed isOther same
      rw [isCall] at isOther
      cases isOther
      exact isNewest same.symm
  | sync | refresh =>
    refine sound.drop rfl rfl rfl rfl rfl fun isLoading => ⟨isLoading, ?_⟩
    intro other otherServed isOther
    simp [isCall] at isOther

theorem Sound.issue (sound : Sound sys) {call : Call}
    (isStale : next.state.projectsMutationEpoch = sys.state.projectsMutationEpoch ∧
        next.committed = sys.committed ∨
      sys.state.projectsMutationEpoch < next.state.projectsMutationEpoch)
    (calls : next.calls = Function.update sys.calls sys.issued (some call) := by rfl)
    (notSnapshot : ∀ request token served, call ≠ .snapshot request token served := by
      rintro _ _ _ ⟨⟩)
    (issued : next.issued = sys.issued + 1 := by rfl)
    (sameRequest : next.state.projectsSnapshotRequestId = sys.state.projectsSnapshotRequestId := by
      rfl)
    (sameLoading : next.state.loading = sys.state.loading := by rfl) : Sound next := by
  refine sound.beside ?_ ?_ sameRequest sameLoading isStale
  · rw [calls, issued]
    exact bounded_update (fun id isCall => (sound.bounded id isCall).trans (Nat.lt_succ_self _))
      (Nat.lt_succ_self _)
  · rw [calls]
    refine sameSnapshots_update (fun request token served isCall => ?_)
      fun request token served isCall => notSnapshot request token served (Option.some.inj isCall)
    simp [sound.unissued] at isCall

theorem Sound.answer (sound : Sound sys) {old : Call} {call : Option Call}
    (isOld : sys.calls id = some old)
    (isStale : next.state.projectsMutationEpoch = sys.state.projectsMutationEpoch ∧
        next.committed = sys.committed ∨
      sys.state.projectsMutationEpoch < next.state.projectsMutationEpoch)
    (calls : next.calls = Function.update sys.calls id call := by rfl)
    (notOld : ∀ request token served, old ≠ .snapshot request token served := by
      rintro _ _ _ ⟨⟩)
    (notNew : ∀ request token served, call ≠ some (.snapshot request token served) := by
      rintro _ _ _ ⟨⟩)
    (issued : next.issued = sys.issued := by rfl)
    (sameRequest : next.state.projectsSnapshotRequestId = sys.state.projectsSnapshotRequestId := by
      rfl)
    (sameLoading : next.state.loading = sys.state.loading := by rfl) : Sound next := by
  refine sound.beside ?_ ?_ sameRequest sameLoading isStale
  · rw [calls, issued]
    exact bounded_update sound.bounded
      (sound.bounded id (by rw [isOld]; exact Option.some_ne_none _))
  · rw [calls]
    refine sameSnapshots_update (fun request token served isCall => ?_) notNew
    rw [isOld] at isCall
    exact notOld request token served (Option.some.inj isCall)

theorem step_sound (sys : System) (label : Label) (next : System) (sound : Sound sys)
    (clean : Clean sys label) (ran : step sys label = some next) : Sound next := by
  cases label with
  | loadProjects =>
    cases ran
    exact sound.begin .load (Or.inl ⟨rfl, rfl⟩)
  | syncProjects =>
    cases ran
    exact sound.begin .sync (Or.inr ⟨rfl, clean⟩)
  | refreshProject id =>
    cases ran
    exact sound.begin (.refresh id) (Or.inr ⟨rfl, clean⟩)
  | mutate mutation =>
    cases ran
    unfold System.mutate
    dsimp only
    split_ifs
    · exact sound.beside sound.bounded (fun _ _ _ _ => Iff.rfl) rfl rfl
        (Or.inr (Nat.lt_succ_self _))
    · exact sound.issue (.inr (Nat.lt_succ_self _))
  | reorderProjects projectIds =>
    cases ran
    exact sound.issue (.inr (Nat.lt_succ_self _))
  | toggleProjectCollapse id =>
    cases ran
    unfold System.toggleProjectCollapse
    split
    · exact sound
    · exact sound.issue (.inr (Nat.lt_succ_self _))
  | announce announcement =>
    cases ran
    exact sound.issue (.inl ⟨rfl, rfl⟩)
  | make id =>
    simp only [step] at ran
    split at ran
    · rename_i isCall
      cases ran
      exact sound.answer isCall (.inl ⟨rfl, rfl⟩)
    · rename_i isCall
      cases ran
      exact sound.answer isCall (.inl ⟨rfl, rfl⟩)
    · cases ran
  | serve id snapshot =>
    simp only [step] at ran
    split at ran
    · rename_i request token isCall
      split_ifs at ran
      cases ran
      exact sound.serve snapshot isCall (clean request token isCall)
    · cases ran
  | succeed id worktree =>
    simp only [step] at ran
    split at ran
    · rename_i request token served isCall
      cases ran
      obtain ⟨projects, isApplied⟩ :=
        applyProjectsSnapshot_eq sys.state token served.snapshot
      have sameState : (sys.setCall id none).state = sys.state := rfl
      rw [sameState, isApplied]
      exact sound.finish isCall projects
    · rename_i isCall
      cases ran
      exact sound.answer isCall (.inr (Nat.lt_succ_self _))
    · rename_i isCall
      cases ran
      exact sound.answer isCall (.inl ⟨rfl, rfl⟩)
    · rename_i announcement isCall
      cases ran
      cases announcement with
      | alreadyExists project | deletedCategory categoryId =>
        exact sound.answer isCall (.inr (Nat.lt_succ_self _))
      | cloning cloning =>
        exact sound.answer isCall (.inl ⟨rfl, rfl⟩)
      | completeClone cloning project =>
        unfold System.deliver
        dsimp only
        split_ifs
        · exact sound.answer isCall (.inr (Nat.lt_succ_self _))
        · exact sound.answer isCall (.inl ⟨rfl, rfl⟩)
    · cases ran
  | fail id =>
    simp only [step] at ran
    split at ran
    · rename_i request token served isCall
      cases ran
      exact sound.finish isCall sys.state.projects
    · rename_i isCall
      cases ran
      exact sound.answer isCall (.inl ⟨rfl, rfl⟩)
    · rename_i isCall
      cases ran
      exact sound.answer isCall (.inl ⟨rfl, rfl⟩)
    · cases ran

end

theorem freshSnapshots {finish : System} (run : Run step Clean initial finish) : Fresh finish :=
  (run.invariant initial_sound step_sound).fresh

/-- A new order that the backend has saved, and a sync after it. -/
def syncAfterReorder : List Label :=
  [.reorderProjects ["b", "a"], .make 0, .syncProjects, .serve 1 (.projects [])]

theorem freshSnapshots_syncAfterReorder : ∃ finish,
    execute step initial syncAfterReorder = some finish ∧ finish.committed = [0] ∧
      Fresh finish := by
  have permitted : Permitted step Clean initial syncAfterReorder := by
    refine ⟨trivial, _, rfl, trivial, _, rfl, rfl, _, rfl, ?_, _, rfl, trivial⟩
    exact fun _ _ _ _ _ isCommitted => isCommitted
  exact ⟨_, rfl, rfl, freshSnapshots (run_of_permitted _ permitted rfl)⟩

/-- A sync is answered before the new order is saved, and a sync during a load keeps the flag. -/
theorem not_freshSnapshots :
    (¬∀ finish, Reachable step initial finish → Reflects finish) ∧
      ¬∀ finish, Reachable step initial finish → LoadingEnds finish := by
  constructor
  · intro allReflect
    have reached := allReflect _ (reachable_of_execute
      [.reorderProjects ["b", "a"], .syncProjects, .serve 1 (.projects [])] rfl)
    exact absurd (reached 1 _ _ _ rfl rfl 0 List.mem_cons_self) List.not_mem_nil
  · intro allEnd
    have reached := allEnd _ (reachable_of_execute
      [.loadProjects, .syncProjects, .serve 0 (.projects []), .serve 1 (.projects []),
        .succeed 0 ⟨"", "", "", none⟩, .succeed 1 ⟨"", "", "", none⟩] rfl)
    have isOut := reached fun id request token served isCall => by
      rcases id with _ | _ | id <;> cases isCall
    cases isOut

end AiTools.Grove.ProjectStore
