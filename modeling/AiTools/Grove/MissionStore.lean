import AiTools.Lib.Transition
import Mathlib

/-!
Contract: the mission list of the app, and the calls that change it.
-/

namespace AiTools.Grove.MissionStore

open AiTools.Lib.Transition

abbrev Text := List Char

/-- The projects are given by their ids. -/
structure Mission where
  id : Text
  projects : List Text
  collapsed : Bool
  deriving DecidableEq

def Has (missions : List Mission) (id : Text) : Prop := ∃ mission ∈ missions, mission.id = id

def HasProject (missions : List Mission) (missionId projectId : Text) : Prop :=
  ∃ mission ∈ missions, mission.id = missionId ∧ projectId ∈ mission.projects

instance (missions : List Mission) (id : Text) : Decidable (Has missions id) :=
  inferInstanceAs (Decidable (∃ mission ∈ missions, mission.id = id))

instance (missions : List Mission) (missionId projectId : Text) :
    Decidable (HasProject missions missionId projectId) :=
  inferInstanceAs
    (Decidable (∃ mission ∈ missions, mission.id = missionId ∧ projectId ∈ mission.projects))

/-- Each mission is there once, and each project once in its mission. -/
structure Once (missions : List Mission) : Prop where
  ids : (missions.map Mission.id).Nodup
  projects : ∀ mission ∈ missions, mission.projects.Nodup

def without (id : Text) (missions : List Mission) : List Mission := missions.filter (·.id ≠ id)

/-- Changes the one mission with the id. -/
def update (id : Text) (change : Mission → Mission) (missions : List Mission) : List Mission :=
  missions.map fun mission => if mission.id = id then change mission else mission

def addTo (missionId projectId : Text) : List Mission → List Mission :=
  update missionId fun mission => { mission with projects := mission.projects ++ [projectId] }

def removeFrom (missionId projectId : Text) : List Mission → List Mission :=
  update missionId fun mission =>
    { mission with projects := mission.projects.filter (· ≠ projectId) }

def collapse (missionId : Text) (collapsed : Bool) : List Mission → List Mission :=
  update missionId fun mission => { mission with collapsed }

/-- A deletion that fails has removed the first of the projects. -/
def dropFrom (missionId : Text) (removed : Nat) : List Mission → List Mission :=
  update missionId fun mission => { mission with projects := mission.projects.drop removed }

inductive Request where
  | load
  | create
  | delete (id : Text)
  | addProject (missionId projectId : Text)
  | removeProject (missionId projectId : Text)
  | setCollapsed (missionId : Text) (collapsed : Bool)
  deriving DecidableEq

/-- A call in flight. Once it is performed, it has its reply and the time. -/
inductive Call where
  | requested (request : Request)
  | failed (request : Request)
  | listed (time : Nat) (missions : List Mission)
  | created (time : Nat) (mission : Mission)
  | deleted (time : Nat) (id : Text)
  | added (time : Nat) (missionId projectId : Text)
  | removed (time : Nat) (missionId projectId : Text)
  | wasCollapsed (missionId : Text) (collapsed : Bool)
  deriving DecidableEq

namespace Call

def request : Call → Request
  | requested request | failed request => request
  | listed _ _ => .load
  | created _ _ => .create
  | deleted _ id => .delete id
  | added _ missionId projectId => .addProject missionId projectId
  | removed _ missionId projectId => .removeProject missionId projectId
  | wasCollapsed missionId collapsed => .setCollapsed missionId collapsed

def isRequested : Call → Bool
  | requested _ => true
  | _ => false

/-- When the missions of the backend were changed. -/
def changedAt : Call → Nat
  | created time _ | deleted time _ | added time _ _ | removed time _ _ => time
  | _ => 0

end Call

structure Store where
  missions : List Mission := []
  deletingMissions : List Text := []
  deletingMissionProjects : List Text := []
  addingMissionProjects : List Text := []
  loading : Bool := false

def key (missionId projectId : Text) : Text := missionId ++ ':' :: projectId

namespace Store

def projects (store : Store) (id : Text) : List Text :=
  ((store.missions.find? (·.id = id)).map Mission.projects).getD []

/-- Up to the call of the backend. -/
def request (store : Store) : Request → Store
  | .load => { store with loading := true }
  | .create => store
  | .delete id =>
    { store with
      deletingMissions := id :: store.deletingMissions
      deletingMissionProjects :=
        (store.projects id).map (key id) ++ store.deletingMissionProjects }
  | .addProject missionId projectId =>
    { store with
      addingMissionProjects := key missionId projectId :: store.addingMissionProjects }
  | .removeProject missionId projectId =>
    { store with
      deletingMissionProjects := key missionId projectId :: store.deletingMissionProjects }
  | .setCollapsed missionId collapsed =>
    { store with missions := collapse missionId collapsed store.missions }

/-- The flags of an action are taken back in any case. -/
def cleared (store : Store) : Request → Store
  | .load => { store with loading := false }
  | .create => store
  | .delete id =>
    { store with
      deletingMissions := store.deletingMissions.filter (· ≠ id)
      deletingMissionProjects :=
        store.deletingMissionProjects.filter fun key => ¬ (id ++ [':']) <+: key }
  | .addProject missionId projectId =>
    { store with
      addingMissionProjects :=
        store.addingMissionProjects.filter (· ≠ key missionId projectId) }
  | .removeProject missionId projectId =>
    { store with
      deletingMissionProjects :=
        store.deletingMissionProjects.filter (· ≠ key missionId projectId) }
  | .setCollapsed _ _ => store

/-- The missions behind a reply. -/
def replied (missions : List Mission) : Call → List Mission
  | .listed _ listed => listed
  | .created _ mission => missions ++ [mission]
  | .deleted _ id => without id missions
  | .added _ missionId projectId => addTo missionId projectId missions
  | .removed _ missionId projectId => removeFrom missionId projectId missions
  | _ => missions

def reply (store : Store) (call : Call) : Store :=
  { store.cleared call.request with missions := replied store.missions call }

end Store

/-- The missions that the backend has deleted, those that the store has shown, the number of calls
that are performed, and the time of the latest change that has its reply are for the record. -/
structure State where
  backend : List Mission
  deleted : List Mission := []
  store : Store := {}
  calls : List Call := []
  shown : List Text := []
  clock : Nat := 0
  replied : Nat := 0

/-- A creation comes with the id, and a failed deletion with how many projects it has removed. -/
inductive Outcome where
  | succeeds (id : Text)
  | fails (removed : Nat)

inductive Label where
  | request (request : Request)
  | perform (request : Request) (outcome : Outcome)
  | reply (call : Call)

/-- What the backend has behind a call, and what the call is then. -/
def performed (backend : List Mission) (time : Nat) :
    Request → Outcome → Option (List Mission × Call)
  | .delete id, .fails removed => some (dropFrom id removed backend, .failed (.delete id))
  | request, .fails _ => some (backend, .failed request)
  | .load, .succeeds _ => some (backend, .listed time backend)
  | .create, .succeeds id =>
    if Has backend id then none
    else some (backend ++ [⟨id, [], false⟩], .created time ⟨id, [], false⟩)
  | .delete id, .succeeds _ =>
    if Has backend id then some (without id backend, .deleted time id) else none
  | .addProject missionId projectId, .succeeds _ =>
    if Has backend missionId ∧ ¬ HasProject backend missionId projectId then
      some (addTo missionId projectId backend, .added time missionId projectId)
    else none
  | .removeProject missionId projectId, .succeeds _ =>
    if HasProject backend missionId projectId then
      some (removeFrom missionId projectId backend, .removed time missionId projectId)
    else none
  | .setCollapsed missionId collapsed, .succeeds _ =>
    if Has backend missionId then
      some (collapse missionId collapsed backend, .wasCollapsed missionId collapsed)
    else none

def deletedBy (backend : List Mission) : Call → List Mission
  | .deleted _ id => backend.filter (·.id = id)
  | _ => []

def shownBy : Call → List Text
  | .listed _ missions => missions.map Mission.id
  | .created _ mission => [mission.id]
  | _ => []

/-- A click on the toggle sets what the mission has not. -/
def toggles (store : Store) : Request → Bool
  | .setCollapsed missionId collapsed =>
    (store.missions.find? (·.id = missionId)).map (!·.collapsed) = some collapsed
  | _ => true

def step (state : State) : Label → Option State
  | .request request =>
    if toggles state.store request then
      some { state with
        store := state.store.request request
        calls := .requested request :: state.calls }
    else none
  | .perform request outcome =>
    if .requested request ∈ state.calls then
      (performed state.backend (state.clock + 1) request outcome).map fun (backend, call) =>
        { state with
          backend
          deleted := state.deleted ++ deletedBy state.backend call
          calls := call :: state.calls.erase (.requested request)
          clock := state.clock + 1 }
    else none
  | .reply call =>
    if call ∈ state.calls ∧ call.isRequested = false then
      some { state with
        store := state.store.reply call
        calls := state.calls.erase call
        shown := shownBy call ++ state.shown
        replied := max state.replied call.changedAt }
    else none

def start (backend : List Mission) : State := { backend }

variable {calls : List Call} {call : Call} {store : Store}

theorem mem_erase_of_request_ne {other : Call} (isThere : call ∈ calls)
    (different : call.request ≠ other.request) : call ∈ calls.erase other :=
  (List.mem_erase_of_ne fun same => different (congrArg Call.request same)).mpr isThere

theorem performed_request {backend next : List Mission} {time : Nat} {request : Request}
    {outcome : Outcome} (isPerformed : performed backend time request outcome = some (next, call)) :
    call.request = request := by
  cases outcome with
  | succeeds id => cases request <;> simp only [performed] at isPerformed <;> grind [Call.request]
  | fails removed => cases request <;> cases isPerformed <;> rfl

/-- Each flag is that of a call in flight, which takes it back. -/
structure Flagged (store : Store) (calls : List Call) : Prop where
  loading : store.loading = true → ∃ call ∈ calls, call.request = .load
  deletingMission : ∀ id ∈ store.deletingMissions, ∃ call ∈ calls, call.request = .delete id
  deletingProject : ∀ flag ∈ store.deletingMissionProjects, ∃ call ∈ calls,
    (∃ id, call.request = .delete id ∧ (id ++ [':']) <+: flag) ∨
      ∃ missionId projectId, call.request = .removeProject missionId projectId ∧
        flag = key missionId projectId
  addingProject : ∀ flag ∈ store.addingMissionProjects, ∃ call ∈ calls,
    ∃ missionId projectId, call.request = .addProject missionId projectId ∧
      flag = key missionId projectId

theorem Flagged.mono {next : List Call} (flagged : Flagged store calls)
    (kept : ∀ call ∈ calls, ∃ other ∈ next, other.request = call.request) :
    Flagged store next := by
  constructor
  · intro isLoading
    obtain ⟨call, isCall, isLoad⟩ := flagged.loading isLoading
    obtain ⟨other, isOther, same⟩ := kept call isCall
    exact ⟨other, isOther, same.trans isLoad⟩
  · intro id isFlag
    obtain ⟨call, isCall, isDelete⟩ := flagged.deletingMission id isFlag
    obtain ⟨other, isOther, same⟩ := kept call isCall
    exact ⟨other, isOther, same.trans isDelete⟩
  · intro flag isFlag
    obtain ⟨call, isCall, isOne⟩ := flagged.deletingProject flag isFlag
    obtain ⟨other, isOther, same⟩ := kept call isCall
    exact ⟨other, isOther, by rwa [same]⟩
  · intro flag isFlag
    obtain ⟨call, isCall, isAdd⟩ := flagged.addingProject flag isFlag
    obtain ⟨other, isOther, same⟩ := kept call isCall
    exact ⟨other, isOther, by rwa [same]⟩

theorem key_isPrefix (missionId projectId : Text) :
    (missionId ++ [':']) <+: key missionId projectId :=
  ⟨projectId, by rw [key, List.append_assoc, List.singleton_append]⟩

theorem Flagged.request (flagged : Flagged store calls) (request : Request) :
    Flagged (store.request request) (.requested request :: calls) := by
  have before := flagged.mono
    fun call isCall => ⟨call, List.mem_cons_of_mem (Call.requested request) isCall, rfl⟩
  have isThere : Call.requested request ∈ .requested request :: calls := List.mem_cons_self
  obtain ⟨loading, deletingMission, deletingProject, addingProject⟩ := before
  cases request with
  | load => exact ⟨fun _ => ⟨_, isThere, rfl⟩, deletingMission, deletingProject, addingProject⟩
  | create => exact ⟨loading, deletingMission, deletingProject, addingProject⟩
  | delete id =>
    refine ⟨loading, fun other isFlag => ?_, fun flag isFlag => ?_, addingProject⟩
    · rcases List.mem_cons.mp isFlag with rfl | isBefore
      · exact ⟨_, isThere, rfl⟩
      · exact deletingMission other isBefore
    · rcases List.mem_append.mp isFlag with isNew | isBefore
      · obtain ⟨projectId, _, rfl⟩ := List.mem_map.mp isNew
        exact ⟨_, isThere, .inl ⟨id, rfl, key_isPrefix id projectId⟩⟩
      · exact deletingProject flag isBefore
  | addProject missionId projectId =>
    refine ⟨loading, deletingMission, deletingProject, fun flag isFlag => ?_⟩
    rcases List.mem_cons.mp isFlag with rfl | isBefore
    · exact ⟨_, isThere, missionId, projectId, rfl, rfl⟩
    · exact addingProject flag isBefore
  | removeProject missionId projectId =>
    refine ⟨loading, deletingMission, fun flag isFlag => ?_, addingProject⟩
    rcases List.mem_cons.mp isFlag with rfl | isBefore
    · exact ⟨_, isThere, .inr ⟨missionId, projectId, rfl, rfl⟩⟩
    · exact deletingProject flag isBefore
  | setCollapsed missionId collapsed =>
    exact ⟨loading, deletingMission, deletingProject, addingProject⟩

/-- The flags that a request takes back are those that its call is alone to account for. -/
theorem Flagged.cleared (flagged : Flagged store calls) (call : Call) :
    Flagged (store.cleared call.request) (calls.erase call) := by
  -- A flag that stays is one of another call, which is still there.
  have stays : ∀ other ∈ calls, other.request ≠ call.request → other ∈ calls.erase call :=
    fun other isThere different => mem_erase_of_request_ne isThere different
  obtain ⟨loading, deletingMission, deletingProject, addingProject⟩ := flagged
  generalize call.request = request at stays ⊢
  constructor
  · intro isLoading
    have wasLoading : store.loading = true ∧ request ≠ .load := by
      cases request with
      | load => cases isLoading
      | _ => exact ⟨isLoading, nofun⟩
    obtain ⟨other, isOther, isLoad⟩ := loading wasLoading.1
    exact ⟨other, stays other isOther (isLoad ▸ wasLoading.2.symm), isLoad⟩
  · intro id isFlag
    have wasFlag : id ∈ store.deletingMissions ∧ request ≠ .delete id := by
      cases request with
      | delete other =>
        obtain ⟨isBefore, differs⟩ := List.mem_filter.mp isFlag
        exact ⟨isBefore, fun same => of_decide_eq_true differs (Request.delete.inj same).symm⟩
      | _ => exact ⟨isFlag, nofun⟩
    obtain ⟨other, isOther, isDelete⟩ := deletingMission id wasFlag.1
    exact ⟨other, stays other isOther (isDelete ▸ wasFlag.2.symm), isDelete⟩
  · intro flag isFlag
    have wasFlag : flag ∈ store.deletingMissionProjects ∧
        (∀ id, (id ++ [':']) <+: flag → request ≠ .delete id) ∧
        ∀ missionId projectId, flag = key missionId projectId →
          request ≠ .removeProject missionId projectId := by
      cases request with
      | delete id =>
        obtain ⟨isBefore, notPrefix⟩ := List.mem_filter.mp isFlag
        exact ⟨isBefore, fun other isPrefix same =>
          of_decide_eq_true notPrefix (Request.delete.inj same ▸ isPrefix), fun _ _ _ => nofun⟩
      | removeProject missionId projectId =>
        obtain ⟨isBefore, differs⟩ := List.mem_filter.mp isFlag
        refine ⟨isBefore, fun _ _ => nofun, fun _ _ isKey same => of_decide_eq_true differs ?_⟩
        cases same
        exact isKey
      | _ => exact ⟨isFlag, fun _ _ => nofun, fun _ _ _ => nofun⟩
    obtain ⟨other, isOther, isOne⟩ := deletingProject flag wasFlag.1
    refine ⟨other, stays other isOther ?_, isOne⟩
    rcases isOne with ⟨id, isDelete, isPrefix⟩ | ⟨missionId, projectId, isRemove, isKey⟩
    · exact isDelete ▸ (wasFlag.2.1 id isPrefix).symm
    · exact isRemove ▸ (wasFlag.2.2 missionId projectId isKey).symm
  · intro flag isFlag
    have wasFlag : flag ∈ store.addingMissionProjects ∧
        ∀ missionId projectId, flag = key missionId projectId →
          request ≠ .addProject missionId projectId := by
      cases request with
      | addProject missionId projectId =>
        obtain ⟨isBefore, differs⟩ := List.mem_filter.mp isFlag
        refine ⟨isBefore, fun _ _ isKey same => of_decide_eq_true differs ?_⟩
        cases same
        exact isKey
      | _ => exact ⟨isFlag, fun _ _ _ => nofun⟩
    obtain ⟨other, isOther, missionId, projectId, isAdd, isKey⟩ := addingProject flag wasFlag.1
    refine ⟨other, stays other isOther ?_, missionId, projectId, isAdd, isKey⟩
    exact isAdd ▸ (wasFlag.2 missionId projectId isKey).symm

theorem Flagged.of_missions (flagged : Flagged store calls) (missions : List Mission) :
    Flagged { store with missions } calls :=
  ⟨flagged.loading, flagged.deletingMission, flagged.deletingProject, flagged.addingProject⟩

theorem flagged_run {backend : List Mission} {state : State}
    (run : Reachable step (start backend) state) : Flagged state.store state.calls := by
  refine @Run.invariant _ _ _ _ _ (fun state => Flagged state.store state.calls) ?_ ?_ _ run
  · refine ⟨fun isLoading => ?_, fun _ isFlag => ?_, fun _ isFlag => ?_, fun _ isFlag => ?_⟩
    · cases isLoading
    all_goals cases isFlag
  · intro state label next flagged _ isStep
    cases label with
    | request request =>
      rw [step] at isStep
      split at isStep
      · rw [← Option.some.inj isStep]
        exact flagged.request request
      · cases isStep
    | perform request outcome =>
      rw [step] at isStep
      split at isStep
      · obtain ⟨⟨backend, call⟩, isPerformed, rfl⟩ := Option.map_eq_some_iff.mp isStep
        refine flagged.mono fun other isOther => ?_
        by_cases same : other = .requested request
        · exact ⟨call, List.mem_cons_self, by rw [performed_request isPerformed, same]; rfl⟩
        · exact ⟨other, List.mem_cons_of_mem _ ((List.mem_erase_of_ne same).mpr isOther), rfl⟩
      · cases isStep
    | reply call =>
      rw [step] at isStep
      split at isStep
      · rw [← Option.some.inj isStep]
        exact (flagged.cleared call).of_missions _
      · cases isStep

end AiTools.Grove.MissionStore
