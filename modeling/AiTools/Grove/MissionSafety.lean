import AiTools.Grove.Missions
import AiTools.Lib.Transition
import Mathlib.Data.List.Nodup

/-!
Contract: what the missions keep over every interleaving of listings and operations.
-/

namespace AiTools.Grove.Missions

open AiTools.Lib.Transition
open List (map_cons mem_append mem_cons mem_map mem_map_of_mem mem_singleton not_mem_nil)

/-- Between `lock_mission_store_writes` and the return. -/
def Stage.holds : Stage → Bool
  | .config => false
  | .peek _ => false
  | .scan _ (.unlocked _ _) => false
  | .sweep _ _ (.unlocked _ _) => false
  | .lock _ => false
  | _ => true

/-- A listing without the lock, between its read of the store and the last removal. -/
def Stage.sweeps : Stage → Bool
  | .scan _ (.unlocked _ _) => true
  | .sweep _ _ (.unlocked _ _) => true
  | _ => false

def Change.creates : Change → Bool
  | .created _ => true
  | _ => false

/-- A `create_mission` between its directory and its save. -/
def Stage.creates : Stage → Bool
  | .truncate save => save.change.creates
  | .fill save => save.change.creates
  | .rename save => save.change.creates
  | _ => false

/-- The projects that a listing without the lock has read from the config. -/
def Stage.projectIds? : Stage → Option (List String)
  | .peek projectIds => some projectIds
  | .scan _ (.unlocked projectIds _) => some projectIds
  | .sweep _ _ (.unlocked projectIds _) => some projectIds
  | .lock (.reconcile projectIds) => some projectIds
  | _ => none

/-- All threads are at a stage of the kind. -/
def System.All (sys : System) (kind : Thread → Prop) : Prop :=
  ∀ id thread, sys.threads id = some thread → kind thread

/-- Reads of listings, and those that a whole store is written after, succeed; the sweep of a
listing without the lock and the making of a mission do not overlap, nor do operations of
different processes; a project that is added was registered when the listings under way read
the config. -/
def Stage.Clean (sys : System) (thread : Thread) (given : Given) : Stage → Prop
  | .config => given.ok = true
  | .peek _ => given.ok = true ∧ sys.All fun other => other.stage.creates = false
  | .lock _ => sys.All fun other =>
    other.stage.holds = true → other.process = thread.process
  | .read (.create _ _) _ => given.ok = true
  | .read (.drop _) _ => given.ok = true
  | .read (.reconcile _) _ => given.ok = true
  | .makeDir _ _ => sys.All fun other => other.stage.sweeps = false
  | .rename ⟨_, .added _ projectId, _⟩ => sys.All fun other =>
    ∀ projectIds, other.stage.projectIds? = some projectIds → projectId ∈ projectIds
  | _ => True

def Clean (sys : System) : Label → Prop
  | .advance id given =>
    ∀ thread, sys.threads id = some thread → thread.stage.Clean sys thread given
  | _ => True

/-! ## Changes of a store -/

namespace MissionStore

variable {store : MissionStore} {missionId projectId : String}
variable {change : Mission → Mission} {first second : String}

theorem update_eq_map (distinct : store.ids.Nodup) : update missionId change store =
      store.map fun mission => if mission.id = missionId then change mission else mission := by
  induction store with
  | nil => rfl
  | cons mission rest ih =>
    rw [ids, map_cons, List.nodup_cons] at distinct
    rw [update, map_cons]
    split_ifs with isMission
    · refine congrArg (change mission :: ·) ?_
      symm
      refine (List.map_congr_left fun other isOther => if_neg ?_).trans (List.map_id rest)
      intro same
      exact distinct.1 (isMission.trans same.symm ▸ mem_map_of_mem isOther)
    · exact congrArg (mission :: ·) (ih distinct.2)

theorem ids_update (keeps : ∀ mission, (change mission).id = mission.id) :
    (update missionId change store).ids = store.ids := by
  induction store with
  | nil => rfl
  | cons mission rest ih =>
    rw [update]
    split_ifs
    · exact congrArg (· :: ids rest) (keeps mission)
    · exact congrArg (mission.id :: ·) ih

theorem hasProject_update (distinct : store.ids.Nodup)
    (keeps : ∀ mission, (change mission).id = mission.id) :
    (update missionId change store).HasProject first second ↔
      ∃ mission ∈ store, mission.id = first ∧ ∃ project ∈
        (if mission.id = missionId then change mission else mission).projects,
        project.projectId = second := by
  unfold HasProject
  rw [update_eq_map distinct]
  constructor
  · rintro ⟨_, isMapped, isId, hasProject⟩
    obtain ⟨mission, isMission, rfl⟩ := mem_map.mp isMapped
    refine ⟨mission, isMission, ?_, hasProject⟩
    split_ifs at isId
    · rwa [keeps] at isId
    · exact isId
  · rintro ⟨mission, isMission, isId, hasProject⟩
    refine ⟨_, mem_map_of_mem isMission, ?_, hasProject⟩
    split_ifs
    · rwa [keeps]
    · exact isId

theorem hasProject_addProject (distinct : store.ids.Nodup) (isMission : missionId ∈ store.ids)
    (project : MissionProject) :
    (store.addProject missionId project).HasProject first second ↔
      store.HasProject first second ∨ first = missionId ∧ second = project.projectId := by
  unfold addProject
  refine (hasProject_update distinct fun _ => ?_).trans ?_
  · rfl
  constructor
  · rintro ⟨mission, isStored, isId, found, isFound, isProject⟩
    split_ifs at isFound with isMissionId
    · rcases mem_append.mp isFound with isOld | isNew
      · exact .inl ⟨mission, isStored, isId, found, isOld, isProject⟩
      · rw [mem_singleton.mp isNew] at isProject
        exact .inr ⟨isId.symm.trans isMissionId, isProject.symm⟩
    · exact .inl ⟨mission, isStored, isId, found, isFound, isProject⟩
  · rintro (⟨mission, isStored, isId, found, isFound, isProject⟩ | ⟨rfl, rfl⟩)
    · refine ⟨mission, isStored, isId, found, ?_, isProject⟩
      split_ifs
      · exact List.mem_append_left _ isFound
      · exact isFound
    · obtain ⟨mission, isStored, isId⟩ := mem_map.mp isMission
      refine ⟨mission, isStored, isId, project, ?_, rfl⟩
      rw [if_pos isId]
      exact List.mem_append_right _ (mem_singleton.mpr rfl)

theorem hasProject_removeProject (distinct : store.ids.Nodup) :
    (store.removeProject missionId projectId).HasProject first second ↔
      store.HasProject first second ∧ (first, second) ≠ (missionId, projectId) := by
  unfold removeProject
  refine (hasProject_update distinct fun _ => ?_).trans ?_
  · rfl
  constructor
  · rintro ⟨mission, isStored, isId, found, isFound, isProject⟩
    split_ifs at isFound with isMissionId
    · obtain ⟨isOld, different⟩ := List.mem_filter.mp isFound
      refine ⟨⟨mission, isStored, isId, found, isOld, isProject⟩, fun same => ?_⟩
      rw [isProject, (Prod.mk.inj same).2] at different
      simp at different
    · refine ⟨⟨mission, isStored, isId, found, isFound, isProject⟩, fun same => ?_⟩
      exact isMissionId (isId.trans (Prod.mk.inj same).1)
  · rintro ⟨⟨mission, isStored, isId, found, isFound, isProject⟩, different⟩
    refine ⟨mission, isStored, isId, found, ?_, isProject⟩
    split_ifs with isMissionId
    · refine List.mem_filter.mpr ⟨isFound, decide_eq_true fun same => different ?_⟩
      rw [← isId, isMissionId, ← isProject, same]
    · exact isFound

theorem hasProject_reconcileProjects {projectIds : List String} :
    (store.reconcileProjects projectIds).HasProject first second ↔
      store.HasProject first second ∧ second ∈ projectIds := by
  unfold HasProject reconcileProjects
  simp only [mem_map, exists_exists_and_eq_and, List.mem_filter, decide_eq_true_eq]
  constructor
  · rintro ⟨mission, isStored, isId, found, ⟨isFound, isKnown⟩, rfl⟩
    exact ⟨⟨mission, isStored, isId, found, isFound, rfl⟩, isKnown⟩
  · rintro ⟨⟨mission, isStored, isId, found, isFound, rfl⟩, isKnown⟩
    exact ⟨mission, isStored, isId, found, ⟨isFound, isKnown⟩, rfl⟩

theorem ids_reconcileProjects (projectIds : List String) :
    (store.reconcileProjects projectIds).ids = store.ids := by
  unfold ids reconcileProjects
  rw [List.map_map]
  rfl

theorem mem_ids_filter {id : String} :
    id ∈ ids (store.filter (·.id ≠ missionId)) ↔ id ∈ store.ids ∧ id ≠ missionId := by
  unfold ids
  simp only [mem_map, List.mem_filter, decide_eq_true_eq]
  constructor
  · rintro ⟨mission, ⟨isStored, different⟩, rfl⟩
    exact ⟨⟨mission, isStored, rfl⟩, different⟩
  · rintro ⟨⟨mission, isStored, rfl⟩, different⟩
    exact ⟨mission, ⟨isStored, different⟩, rfl⟩

theorem hasProject_filter : HasProject (store.filter (·.id ≠ missionId)) first second ↔
      store.HasProject first second ∧ first ≠ missionId := by
  unfold HasProject
  simp only [List.mem_filter, decide_eq_true_eq]
  constructor
  · rintro ⟨mission, ⟨isStored, different⟩, rfl, hasProject⟩
    exact ⟨⟨mission, isStored, rfl, hasProject⟩, different⟩
  · rintro ⟨⟨mission, isStored, rfl, hasProject⟩, different⟩
    exact ⟨mission, ⟨isStored, different⟩, rfl, hasProject⟩

theorem ids_concat (mission : Mission) : ids (store ++ [mission]) = store.ids ++ [mission.id] :=
  List.map_append

theorem hasProject_concat {mission : Mission} (noProjects : mission.projects = []) :
    HasProject (store ++ [mission]) first second ↔ store.HasProject first second := by
  constructor
  · rintro ⟨found, isFound, isId, project, isProject, isSecond⟩
    rcases mem_append.mp isFound with isStored | isNew
    · exact ⟨found, isStored, isId, project, isProject, isSecond⟩
    · rw [mem_singleton.mp isNew, noProjects] at isProject
      exact absurd isProject not_mem_nil
  · rintro ⟨found, isStored, hasProject⟩
    exact ⟨found, List.mem_append_left _ isStored, hasProject⟩

end MissionStore

/-- A listing drops no project that is owed. -/
def Covers (disk : Disk) (projectIds : List String) : Prop :=
  ∀ pair ∈ disk.owedProjects, pair.2 ∈ disk.registered → pair.2 ∈ projectIds

/-- All goes on if the save replaces the store. -/
structure Ready (disk : Disk) (save : Save) : Prop where
  kept : Kept (disk.saved save)
  distinct : (MissionStore.ids save.content).Nodup
  fewer : ∀ id ∈ MissionStore.ids save.content,
    id ∈ (disk.load true).ids ∨ save.change = .created id
  used : ∀ pair ∈ (disk.saved save).owedProjects, pair.2 ∈ disk.used
  later : ∀ projectIds, .reconcile projectIds ∉ save.later

def AfterSweep.Fits (disk : Disk) : AfterSweep → Prop
  | .unlocked projectIds _ => Covers disk projectIds
  | .locked store _ => Ready disk ⟨store, .other, []⟩

def Round.Fits (disk : Disk) : Round → Prop
  | .reconcile projectIds => Covers disk projectIds
  | _ => True

/-- What a thread has read is still so. -/
def Stage.Fits (disk : Disk) : Stage → Prop
  | .config => True
  | .peek projectIds => Covers disk projectIds
  | .scan known after => (∀ id ∈ (disk.load true).ids, id ∈ known) ∧ after.Fits disk
  | .sweep known _ after => (∀ id ∈ (disk.load true).ids, id ∈ known) ∧ after.Fits disk
  | .lock round => round.Fits disk
  | .lookup _ _ _ => True
  | .read round later => round.Fits disk ∧ (∀ projectIds, .reconcile projectIds ∉ later) ∧
      ∀ missionId projectId repo, round = .add missionId projectId repo → projectId ∈ disk.used
  | .choose store _ _ => store = disk.load true
  | .makeDir store mission =>
    store = disk.load true ∧ mission.id ∉ store.ids ∧ mission.projects = []
  | .addWorktree store missionId project =>
    store = disk.load true ∧ missionId ∈ store.ids ∧ project.projectId ∈ disk.used
  | .removeDir _ later => ∀ projectIds, .reconcile projectIds ∉ later
  | .truncate save => Ready disk save
  | .fill save => Ready disk save
  | .rename save => Ready disk save ∧ disk.tmp = some (.whole save.content)

structure Disk.Sound (disk : Disk) : Prop where
  kept : Kept disk
  distinct : (disk.load true).ids.Nodup
  owedUsed : ∀ pair ∈ disk.owedProjects, pair.2 ∈ disk.used
  registeredUsed : ∀ id ∈ disk.registered, id ∈ disk.used

structure Sound (sys : System) : Prop where
  disk : sys.disk.Sound
  fits : sys.All fun thread => thread.stage.Fits sys.disk
  held : ∀ id thread, sys.threads id = some thread → thread.stage.holds = true →
    sys.locks thread.process = some id
  single : ∀ {first second firstThread secondThread},
    sys.threads first = some firstThread → sys.threads second = some secondThread →
      firstThread.stage.holds = true → secondThread.stage.holds = true → first = second
  apart : sys.All fun thread => thread.stage.sweeps = true →
    sys.All fun other => other.stage.creates = false

section
variable {disk next : Disk} {stage : Stage} {projectIds : List String}

theorem Covers.mono (covers : Covers disk projectIds)
    (owed : ∀ pair ∈ next.owedProjects, pair.2 ∈ next.registered →
      pair ∈ disk.owedProjects ∧ pair.2 ∈ disk.registered) : Covers next projectIds :=
  fun pair isOwed isRegistered =>
    covers pair (owed pair isOwed isRegistered).1 (owed pair isOwed isRegistered).2

theorem Stage.Fits.unheld (fits : stage.Fits disk) (unheld : stage.holds = false)
    (covers : ∀ projectIds, stage.projectIds? = some projectIds → Covers disk projectIds →
      Covers next projectIds)
    (fewer : stage.sweeps = true → ∀ id ∈ (next.load true).ids, id ∈ (disk.load true).ids) :
    stage.Fits next := by
  cases stage with
  | config => trivial
  | peek projectIds => exact covers projectIds rfl fits
  | scan known after | sweep known left after =>
    cases after with
    | unlocked projectIds changed =>
      exact ⟨fun id isId => fits.1 id (fewer rfl id isId), covers projectIds rfl fits.2⟩
    | locked store changed => cases unheld
  | lock round =>
    cases round with
    | reconcile projectIds => exact covers projectIds rfl fits
    | _ => trivial
  | _ => cases unheld

/-- Directories, removals by listings and the config. -/
structure Beside (disk next : Disk) : Prop where
  store : next.store = disk.store
  tmp : next.tmp = disk.tmp
  owed : next.owed = disk.owed
  owedProjects : next.owedProjects = disk.owedProjects
  removed : next.removed = disk.removed
  used : ∀ id ∈ disk.used, id ∈ next.used
  registered : ∀ id ∈ disk.used, id ∈ next.registered → id ∈ disk.registered

theorem Beside.load (beside : Beside disk next) : next.load true = disk.load true := by
  unfold Disk.load
  rw [beside.store]

theorem Beside.kept (beside : Beside disk next) (kept : Kept disk)
    (owedUsed : ∀ pair ∈ disk.owedProjects, pair.2 ∈ disk.used)
    (spared : ∀ id ∈ (disk.load true).ids, id ∈ next.gone → id ∈ disk.gone) : Kept next where
  missions := by
    rw [beside.owed, beside.load]
    exact kept.missions
  projects := by
    rw [beside.owedProjects, beside.load]
    exact fun pair isOwed isRegistered =>
      kept.projects pair isOwed (beside.registered _ (owedUsed pair isOwed) isRegistered)
  stayRemoved := by
    rw [beside.removed, beside.load]
    exact kept.stayRemoved
  dirs := by
    rw [beside.load]
    exact fun id isId isGone => kept.dirs id isId (spared id isId isGone)

theorem Beside.covers (beside : Beside disk next) (sound : disk.Sound)
    (covers : Covers disk projectIds) : Covers next projectIds := by
  refine covers.mono ?_
  rw [beside.owedProjects]
  exact fun pair isOwed isRegistered =>
    ⟨isOwed, beside.registered _ (sound.owedUsed pair isOwed) isRegistered⟩

theorem Beside.ready (beside : Beside disk next) {save : Save} (ready : Ready disk save)
    (spared : ∀ id ∈ MissionStore.ids save.content, id ∈ next.gone → id ∈ disk.gone) :
    Ready next save := by
  have saved : Beside (disk.saved save) (next.saved save) := by
    refine ⟨rfl, rfl, ?_, ?_, ?_, beside.used, beside.registered⟩
    · exact congrArg save.change.owed beside.owed
    · exact congrArg save.change.owedProjects beside.owedProjects
    · exact congrArg₂ save.change.removals beside.owedProjects beside.removed
  refine ⟨saved.kept ready.kept ready.used spared, ready.distinct, ?_, ?_, ready.later⟩
  · rw [beside.load]
    exact ready.fewer
  · rw [saved.owedProjects]
    exact fun pair isOwed => beside.used _ (ready.used pair isOwed)

/-- What a thread is going to save. -/
def Stage.save? : Stage → Option Save
  | .scan _ (.locked store _) => some ⟨store, .other, []⟩
  | .sweep _ _ (.locked store _) => some ⟨store, .other, []⟩
  | .truncate save => some save
  | .fill save => some save
  | .rename save => some save
  | _ => none

theorem Stage.Fits.beside (fits : stage.Fits disk) (beside : Beside disk next)
    (sound : disk.Sound) (spared : ∀ save, stage.save? = some save →
      ∀ id ∈ MissionStore.ids save.content, id ∈ next.gone → id ∈ disk.gone) :
    stage.Fits next := by
  cases stage with
  | config | lookup missionId projectId repo => trivial
  | peek projectIds => exact beside.covers sound fits
  | scan known after | sweep known left after =>
    refine ⟨by rw [beside.load]; exact fits.1, ?_⟩
    cases after with
    | unlocked projectIds changed => exact beside.covers sound fits.2
    | locked store changed => exact beside.ready fits.2 (spared _ rfl)
  | lock round =>
    cases round with
    | reconcile projectIds => exact beside.covers sound fits
    | _ => trivial
  | read round later =>
    refine ⟨?_, fits.2.1, fun _ _ _ isAdd => beside.used _ (fits.2.2 _ _ _ isAdd)⟩
    cases round with
    | reconcile projectIds => exact beside.covers sound fits.1
    | _ => trivial
  | choose store name branchName => exact Eq.trans fits beside.load.symm
  | makeDir store mission => exact ⟨fits.1.trans beside.load.symm, fits.2⟩
  | addWorktree store missionId project =>
    exact ⟨fits.1.trans beside.load.symm, fits.2.1, beside.used _ fits.2.2⟩
  | removeDir missionId later => exact fits
  | truncate save | fill save => exact beside.ready fits (spared _ rfl)
  | rename save => exact ⟨beside.ready fits.1 (spared _ rfl), beside.tmp.trans fits.2⟩

variable {content : MissionStore} {later : List Round} {missionId projectId : String}

theorem ready_other (sound : disk.Sound) (sameIds : content.ids = (disk.load true).ids)
    (less : ∀ first second, content.HasProject first second →
      (disk.load true).HasProject first second)
    (owed : ∀ pair ∈ disk.owedProjects, pair.2 ∈ disk.registered → content.HasProject pair.1 pair.2)
    (noReconcile : ∀ projectIds, .reconcile projectIds ∉ later) :
    Ready disk ⟨content, .other, later⟩ where
  kept :=
    { missions := fun id isOwed => by
        show id ∈ content.ids
        rw [sameIds]
        exact sound.kept.missions id isOwed
      projects := owed
      stayRemoved := fun pair isRemoved has => sound.kept.stayRemoved pair isRemoved (less _ _ has)
      dirs := fun id isId => sound.kept.dirs id (sameIds ▸ isId) }
  distinct := by
    show content.ids.Nodup
    rw [sameIds]
    exact sound.distinct
  fewer := fun id isId => .inl (sameIds ▸ isId)
  used := sound.owedUsed
  later := noReconcile

theorem ready_collapsed (sound : disk.Sound) {collapsed : Bool}
    (noReconcile : ∀ projectIds, .reconcile projectIds ∉ later) :
    Ready disk ⟨MissionStore.update missionId ({ · with collapsed }) (disk.load true), .other,
      later⟩ := by
  have has : ∀ {first second}, (MissionStore.update missionId ({ · with collapsed })
      (disk.load true)).HasProject first second ↔ (disk.load true).HasProject first second := by
    intro first second
    refine (MissionStore.hasProject_update sound.distinct fun _ => ?_).trans ?_
    · rfl
    · unfold MissionStore.HasProject
      simp only [apply_ite Mission.projects, ite_self]
  exact ready_other sound (MissionStore.ids_update fun _ => rfl) (fun _ _ => has.mp)
    (fun pair isOwed isRegistered => has.mpr (sound.kept.projects pair isOwed isRegistered))
    noReconcile

theorem ready_reconciled (sound : disk.Sound) (covers : Covers disk projectIds) :
    Ready disk ⟨(disk.load true).reconcileProjects projectIds, .other, []⟩ :=
  ready_other sound (MissionStore.ids_reconcileProjects projectIds)
    (fun _ _ has => (MissionStore.hasProject_reconcileProjects.mp has).1)
    (fun pair isOwed isRegistered => MissionStore.hasProject_reconcileProjects.mpr
      ⟨sound.kept.projects pair isOwed isRegistered, covers pair isOwed isRegistered⟩)
    fun _ => not_mem_nil

theorem ready_removed (sound : disk.Sound)
    (noReconcile : ∀ projectIds, .reconcile projectIds ∉ later) :
    Ready disk ⟨(disk.load true).removeProject missionId projectId,
      .removed missionId projectId, later⟩ := by
  have sameIds : ((disk.load true).removeProject missionId projectId).ids = (disk.load true).ids :=
    MissionStore.ids_update fun _ => rfl
  refine ⟨⟨?_, ?_, ?_, ?_⟩, ?_, fun id isId => .inl (sameIds ▸ isId), ?_, noReconcile⟩
  · intro id isOwed
    show id ∈ ((disk.load true).removeProject missionId projectId).ids
    rw [sameIds]
    exact sound.kept.missions id isOwed
  · intro pair isOwed isRegistered
    obtain ⟨isOwed, different⟩ := List.mem_filter.mp isOwed
    exact (MissionStore.hasProject_removeProject sound.distinct).mpr
      ⟨sound.kept.projects pair isOwed isRegistered, of_decide_eq_true different⟩
  · intro pair isRemoved has
    obtain ⟨has, different⟩ := (MissionStore.hasProject_removeProject sound.distinct).mp has
    rcases mem_cons.mp isRemoved with isPair | wasRemoved
    · exact different isPair
    · exact sound.kept.stayRemoved pair wasRemoved has
  · exact fun id isId => sound.kept.dirs id (sameIds ▸ isId)
  · show (MissionStore.ids _).Nodup
    rw [sameIds]
    exact sound.distinct
  · exact fun pair isOwed => sound.owedUsed pair (List.mem_filter.mp isOwed).1

theorem ready_dropped (sound : disk.Sound)
    (noReconcile : ∀ projectIds, .reconcile projectIds ∉ later) :
    Ready disk ⟨(disk.load true).filter (·.id ≠ missionId), .dropped missionId, later⟩ := by
  refine ⟨⟨?_, ?_, ?_, ?_⟩, ?_, ?_, ?_, noReconcile⟩
  · intro id isOwed
    obtain ⟨isOwed, different⟩ := List.mem_filter.mp isOwed
    exact MissionStore.mem_ids_filter.mpr
      ⟨sound.kept.missions id isOwed, of_decide_eq_true different⟩
  · intro pair isOwed isRegistered
    obtain ⟨isOwed, different⟩ := List.mem_filter.mp isOwed
    exact MissionStore.hasProject_filter.mpr
      ⟨sound.kept.projects pair isOwed isRegistered, of_decide_eq_true different⟩
  · intro pair isRemoved has
    obtain ⟨has, different⟩ := MissionStore.hasProject_filter.mp has
    rcases mem_append.mp isRemoved with isDropped | wasRemoved
    · exact different (of_decide_eq_true (List.mem_filter.mp isDropped).2)
    · exact sound.kept.stayRemoved pair wasRemoved has
  · exact fun id isId => sound.kept.dirs id (MissionStore.mem_ids_filter.mp isId).1
  · exact sound.distinct.sublist (List.filter_sublist.map Mission.id)
  · exact fun id isId => .inl (MissionStore.mem_ids_filter.mp isId).1
  · exact fun pair isOwed => sound.owedUsed pair (List.mem_filter.mp isOwed).1

theorem ready_created (sound : disk.Sound) {mission : Mission}
    (fresh : mission.id ∉ (disk.load true).ids) (noProjects : mission.projects = [])
    (present : mission.id ∉ disk.gone) :
    Ready disk ⟨disk.load true ++ [mission], .created mission.id, []⟩ := by
  have isId : ∀ id, id ∈ MissionStore.ids (disk.load true ++ [mission]) ↔
      id ∈ (disk.load true).ids ∨ id = mission.id := by
    intro id
    rw [MissionStore.ids_concat, mem_append, mem_singleton]
  refine ⟨⟨?_, ?_, ?_, ?_⟩, ?_, ?_, sound.owedUsed, fun _ => not_mem_nil⟩
  · intro id isOwed
    rcases mem_cons.mp isOwed with isNew | wasOwed
    · exact (isId id).mpr (.inr isNew)
    · exact (isId id).mpr (.inl (sound.kept.missions id wasOwed))
  · exact fun pair isOwed isRegistered =>
      (MissionStore.hasProject_concat noProjects).mpr (sound.kept.projects pair isOwed isRegistered)
  · exact fun pair isRemoved has =>
      sound.kept.stayRemoved pair isRemoved ((MissionStore.hasProject_concat noProjects).mp has)
  · intro id member
    rcases (isId id).mp member with isStored | rfl
    · exact sound.kept.dirs id isStored
    · exact present
  · show (MissionStore.ids (disk.load true ++ [mission])).Nodup
    rw [MissionStore.ids_concat, List.nodup_append]
    refine ⟨sound.distinct, List.nodup_singleton _, ?_⟩
    rintro first isFirst second isSecond rfl
    exact fresh (mem_singleton.mp isSecond ▸ isFirst)
  · intro id member
    rcases (isId id).mp member with isStored | rfl
    · exact .inl isStored
    · exact .inr rfl

theorem ready_added (sound : disk.Sound) (isMission : missionId ∈ (disk.load true).ids)
    (project : MissionProject) (isUsed : project.projectId ∈ disk.used) :
    Ready disk ⟨(disk.load true).addProject missionId project,
      .added missionId project.projectId, []⟩ := by
  have sameIds : ((disk.load true).addProject missionId project).ids = (disk.load true).ids :=
    MissionStore.ids_update fun _ => rfl
  have has : ∀ {first second}, ((disk.load true).addProject missionId project).HasProject first
      second ↔ (disk.load true).HasProject first second ∨
        first = missionId ∧ second = project.projectId :=
    MissionStore.hasProject_addProject sound.distinct isMission project
  refine ⟨⟨?_, ?_, ?_, ?_⟩, ?_, fun id isId => .inl (sameIds ▸ isId), ?_, fun _ => not_mem_nil⟩
  · intro id isOwed
    show id ∈ ((disk.load true).addProject missionId project).ids
    rw [sameIds]
    exact sound.kept.missions id isOwed
  · intro pair isOwed isRegistered
    rcases mem_cons.mp isOwed with rfl | wasOwed
    · exact has.mpr (.inr ⟨rfl, rfl⟩)
    · exact has.mpr (.inl (sound.kept.projects pair wasOwed isRegistered))
  · intro pair isRemoved isStored
    obtain ⟨wasRemoved, different⟩ := List.mem_filter.mp isRemoved
    rcases has.mp isStored with wasStored | ⟨isFirst, isSecond⟩
    · exact sound.kept.stayRemoved pair wasRemoved wasStored
    · exact of_decide_eq_true different (Prod.ext isFirst isSecond)
  · exact fun id isId => sound.kept.dirs id (sameIds ▸ isId)
  · show (MissionStore.ids _).Nodup
    rw [sameIds]
    exact sound.distinct
  · intro pair isOwed
    rcases mem_cons.mp isOwed with rfl | wasOwed
    · exact isUsed
    · exact sound.owedUsed pair wasOwed

end

section
variable {sys : System} {id : Nat} {thread : Thread} {disk : Disk} {stage : Stage}

/-- The thread has the lock of its process, and no other thread holds any. -/
structure Has (sys : System) (id : Nat) (thread : Thread) : Prop where
  lock : sys.locks thread.process = some id
  alone : ∀ other otherThread, other ≠ id → sys.threads other = some otherThread →
    otherThread.stage.holds = false

theorem Sound.has (sound : Sound sys) (isThread : sys.threads id = some thread)
    (holds : thread.stage.holds = true) : Has sys id thread where
  lock := sound.held id thread isThread holds
  alone other otherThread different isOther := by
    by_contra otherHolds
    rw [Bool.not_eq_false] at otherHolds
    exact different (sound.single isOther isThread otherHolds holds)

theorem Sound.fitsAt (sound : Sound sys) (isThread : sys.threads id = some thread)
    (isStage : thread.stage = stage) : stage.Fits sys.disk :=
  isStage ▸ sound.fits id thread isThread

variable {kind : Thread → Prop} {rounds : List Round} {mission : Mission} {given : Given}
  {round : Round} {after : AfterSweep} {save : Save}

theorem System.All.update {locks : Nat → Option Nat} (all : sys.All kind) (isKind : kind thread) :
    System.All ⟨disk, locks, Function.update sys.threads id (some thread)⟩ kind := by
  intro other otherThread isOther
  rcases update_eq_some isOther with ⟨_, same⟩ | ⟨_, wasOther⟩
  · exact Option.some.inj same ▸ isKind
  · exact all other otherThread wasOther

theorem System.All.goto (all : sys.All kind) (isKind : kind { thread with stage }) :
    (sys.goto id thread stage).All kind :=
  all.update isKind

theorem not_sweeps_creates (sweeps : stage.sweeps = true) : stage.creates = false := by
  cases stage with
  | scan known after | sweep known left after => rfl
  | _ => cases sweeps

theorem Sound.goto (sound : Sound sys) (isDisk : disk.Sound)
    (others : ∀ other otherThread, other ≠ id → sys.threads other = some otherThread →
      otherThread.stage.Fits disk)
    (own : stage.Fits disk)
    (holds : stage.holds = true → Has sys id thread)
    (sweeps : stage.sweeps = true → sys.All fun other => other.stage.creates = false)
    (creates : stage.creates = true → sys.All fun other => other.stage.sweeps = false) :
    Sound ((sys.onDisk disk).goto id thread stage) where
  disk := isDisk
  fits other otherThread isOther := by
    rcases update_eq_some isOther with ⟨rfl, isSelf⟩ | ⟨different, isOther⟩
    · cases isSelf
      exact own
    · exact others other otherThread different isOther
  held other otherThread isOther isHeld := by
    rcases update_eq_some isOther with ⟨rfl, isSelf⟩ | ⟨different, isOther⟩
    · cases isSelf
      exact (holds isHeld).lock
    · exact sound.held other otherThread isOther isHeld
  single := by
    intro first second firstThread secondThread isFirst isSecond firstHolds secondHolds
    rcases update_eq_some isFirst with ⟨rfl, isSelf⟩ | ⟨firstDiffers, wasFirst⟩
    · cases isSelf
      rcases update_eq_some isSecond with ⟨rfl, -⟩ | ⟨secondDiffers, wasSecond⟩
      · rfl
      · simp [(holds firstHolds).alone second secondThread secondDiffers wasSecond] at secondHolds
    · rcases update_eq_some isSecond with ⟨rfl, isSelf⟩ | ⟨secondDiffers, wasSecond⟩
      · cases isSelf
        simp [(holds secondHolds).alone first firstThread firstDiffers wasFirst] at firstHolds
      · exact sound.single wasFirst wasSecond firstHolds secondHolds
  apart := by
    intro first firstThread isFirst isSweep second secondThread isSecond
    rcases update_eq_some isFirst with ⟨rfl, isSelf⟩ | ⟨firstDiffers, wasFirst⟩
    · cases isSelf
      rcases update_eq_some isSecond with ⟨rfl, isSelf⟩ | ⟨secondDiffers, wasSecond⟩
      · cases isSelf
        exact not_sweeps_creates isSweep
      · exact sweeps isSweep second secondThread wasSecond
    · rcases update_eq_some isSecond with ⟨rfl, isSelf⟩ | ⟨secondDiffers, wasSecond⟩
      · cases isSelf
        cases isCreate : stage.creates with
        | false => rfl
        | true =>
          simp [creates isCreate first firstThread wasFirst] at isSweep
      · exact sound.apart first firstThread wasFirst isSweep second secondThread wasSecond

theorem Sound.finish (sound : Sound sys) (isDisk : disk.Sound)
    (others : ∀ other otherThread, other ≠ id → sys.threads other = some otherThread →
      otherThread.stage.Fits disk) :
    Sound ((sys.onDisk disk).finish id thread) where
  disk := isDisk
  fits other otherThread isOther := by
    rcases update_eq_some isOther with ⟨_, isNone⟩ | ⟨different, isOther⟩
    · cases isNone
    · exact others other otherThread different isOther
  held other otherThread isOther isHeld := by
    rcases update_eq_some isOther with ⟨_, isNone⟩ | ⟨different, isOther⟩
    · cases isNone
    · have isLock := sound.held other otherThread isOther isHeld
      show (if sys.locks thread.process = some id then
        Function.update sys.locks thread.process none else sys.locks) otherThread.process = _
      split_ifs with isOwn
      · rw [Function.update_of_ne, isLock]
        intro same
        rw [same, isOwn] at isLock
        exact different (Option.some.inj isLock).symm
      · exact isLock
  single := by
    intro first second firstThread secondThread isFirst isSecond firstHolds secondHolds
    rcases update_eq_some isFirst with ⟨_, isNone⟩ | ⟨_, isFirst⟩
    · cases isNone
    · rcases update_eq_some isSecond with ⟨_, isNone⟩ | ⟨_, isSecond⟩
      · cases isNone
      · exact sound.single isFirst isSecond firstHolds secondHolds
  apart := by
    intro first firstThread isFirst isSweep second secondThread isSecond
    rcases update_eq_some isFirst with ⟨_, isNone⟩ | ⟨_, isFirst⟩
    · cases isNone
    · rcases update_eq_some isSecond with ⟨_, isNone⟩ | ⟨_, isSecond⟩
      · cases isNone
      · exact sound.apart first firstThread isFirst isSweep second secondThread isSecond

theorem Sound.proceed (sound : Sound sys) (isDisk : disk.Sound)
    (others : ∀ other otherThread, other ≠ id → sys.threads other = some otherThread →
      otherThread.stage.Fits disk) (has : Has sys id thread)
    (fits : ∀ round later, rounds = round :: later →
      round.Fits disk ∧ ∀ projectIds, .reconcile projectIds ∉ later) :
    Sound ((sys.onDisk disk).proceed id thread rounds) := by
  cases rounds with
  | nil => exact sound.finish isDisk others
  | cons round later =>
    obtain ⟨own, noReconcile⟩ := fits round later rfl
    cases round with
    | add missionId projectId repo =>
      exact sound.goto isDisk others trivial (fun _ => has) Bool.noConfusion Bool.noConfusion
    | removeDir missionId =>
      exact sound.goto isDisk others noReconcile (fun _ => has) Bool.noConfusion
        Bool.noConfusion
    | _ =>
      exact sound.goto isDisk others ⟨own, noReconcile, fun _ _ _ => Round.noConfusion⟩
        (fun _ => has) Bool.noConfusion Bool.noConfusion

theorem fits_of_noReconcile (noReconcile : ∀ projectIds, .reconcile projectIds ∉ rounds)
    (round : Round) (later : List Round) (isRounds : rounds = round :: later) :
    round.Fits disk ∧ ∀ projectIds, .reconcile projectIds ∉ later := by
  subst isRounds
  refine ⟨?_, fun projectIds isLater => noReconcile projectIds (List.mem_cons_of_mem _ isLater)⟩
  cases round with
  | reconcile projectIds => exact absurd List.mem_cons_self (noReconcile projectIds)
  | _ => trivial

theorem Sound.stay (sound : Sound sys) (own : stage.Fits sys.disk)
    (holds : stage.holds = true → Has sys id thread)
    (sweeps : stage.sweeps = true → sys.All fun other => other.stage.creates = false)
    (creates : stage.creates = true → sys.All fun other => other.stage.sweeps = false) :
    Sound (sys.goto id thread stage) :=
  sound.goto sound.disk (fun other otherThread _ isOther => sound.fits other otherThread isOther)
    own holds sweeps creates

theorem Sound.leave (sound : Sound sys) : Sound (sys.finish id thread) :=
  sound.finish sound.disk fun other otherThread _ isOther => sound.fits other otherThread isOther

theorem Sound.hold (sound : Sound sys) (has : Has sys id thread)
    (own : stage.Fits sys.disk) (noSweep : stage.sweeps = false)
    (noCreate : stage.creates = false) : Sound (sys.goto id thread stage) := by
  refine sound.stay own (fun _ => has) ?_ ?_
  · rw [noSweep]
    exact Bool.noConfusion
  · rw [noCreate]
    exact Bool.noConfusion

theorem find_load {readable : Bool} {missionId : String}
    (isFound : (disk.load readable).find? (·.id = missionId) = some mission) :
    disk.load readable = disk.load true ∧ missionId ∈ (disk.load true).ids := by
  cases readable with
  | false =>
    have isEmpty : disk.load false = [] := by
      unfold Disk.load JsonFile.loadOr
      cases disk.store <;> rfl
    simp [isEmpty] at isFound
  | true =>
    have isId := List.find?_some isFound
    exact ⟨rfl, of_decide_eq_true isId ▸
      mem_map_of_mem (List.mem_of_find?_eq_some isFound)⟩

theorem afterRead_sound (sound : Sound sys) (has : Has sys id thread) {later : List Round}
    (fits : (Stage.read round later).Fits sys.disk)
    (clean : (Stage.read round later).Clean sys thread given) :
    Sound (sys.afterRead id thread (sys.disk.load given.ok) later round) := by
  obtain ⟨own, noReconcile, isUsed⟩ := fits
  cases round with
  | create name branchName =>
    exact sound.hold has (congrArg sys.disk.load clean) rfl rfl
  | add missionId projectId repo =>
    dsimp only [System.afterRead]
    cases isFound : (sys.disk.load given.ok).find? (·.id = missionId) with
    | none => exact sound.leave
    | some mission =>
      obtain ⟨isLoad, isMission⟩ := find_load isFound
      dsimp only
      split_ifs
      · exact sound.leave
      · exact sound.hold has ⟨isLoad, isLoad ▸ isMission, isUsed _ _ _ rfl⟩ rfl rfl
  | remove missionId projectId =>
    dsimp only [System.afterRead]
    cases isFound : (sys.disk.load given.ok).find? (·.id = missionId) with
    | none => exact sound.leave
    | some mission =>
      obtain ⟨isLoad, isMission⟩ := find_load isFound
      dsimp only
      split_ifs
      · rw [isLoad]
        exact sound.hold has (ready_removed sound.disk noReconcile) rfl rfl
      · exact sound.leave
  | setCollapsed missionId collapsed =>
    dsimp only [System.afterRead]
    cases isFound : (sys.disk.load given.ok).find? (·.id = missionId) with
    | none => exact sound.leave
    | some mission =>
      obtain ⟨isLoad, isMission⟩ := find_load isFound
      dsimp only
      rw [isLoad]
      exact sound.hold has (ready_collapsed sound.disk noReconcile) rfl rfl
  | find missionId =>
    dsimp only [System.afterRead]
    cases isFound : (sys.disk.load given.ok).find? (·.id = missionId) with
    | none => exact sound.leave
    | some mission =>
      refine sound.proceed sound.disk
        (fun other otherThread _ isOther => sound.fits other otherThread isOther) has
        (fits_of_noReconcile fun projectIds isRound => ?_)
      simp at isRound
  | removeDir missionId => exact sound.leave
  | drop missionId =>
    have isOk : given.ok = true := clean
    rw [isOk]
    exact sound.hold has (ready_dropped sound.disk noReconcile) rfl rfl
  | reconcile projectIds =>
    have isOk : given.ok = true := clean
    rw [isOk]
    exact sound.hold has ⟨fun _ isId => isId, ready_reconciled sound.disk own⟩ rfl rfl

theorem afterSweep_sound (sound : Sound sys) {known left : List String}
    (isThread : sys.threads id = some thread)
    (isStage : thread.stage = .sweep known left after) :
    Sound (sys.afterSweep id thread after) := by
  have fits := sound.fitsAt isThread isStage
  cases after with
  | unlocked projectIds changed =>
    dsimp only [System.afterSweep]
    split_ifs
    · exact sound.stay fits.2 Bool.noConfusion Bool.noConfusion Bool.noConfusion
    · exact sound.leave
  | locked store changed =>
    have has := sound.has isThread (isStage ▸ rfl)
    dsimp only [System.afterSweep]
    split_ifs
    · exact sound.hold has fits.2 rfl rfl
    · exact sound.leave

/-! ## Steps that change the disk -/

theorem creates_holds (creates : stage.creates = true) : stage.holds = true := by
  cases stage with
  | truncate save | fill save | rename save => rfl
  | _ => cases creates

theorem Stage.Fits.ready (fits : stage.Fits disk) (isSave : stage.save? = some save) :
    Ready disk save := by
  cases stage with
  | scan known after | sweep known left after =>
    cases after with
    | unlocked projectIds changed => cases isSave
    | locked store changed => exact Option.some.inj isSave ▸ fits.2
  | truncate save | fill save => exact Option.some.inj isSave ▸ fits
  | rename save => exact Option.some.inj isSave ▸ fits.1
  | _ => cases isSave

theorem created_creates {missionId : String} (isSave : stage.save? = some save)
    (isCreated : save.change = .created missionId) : stage.creates = true := by
  obtain ⟨content, change, later⟩ := save
  cases isCreated
  cases stage with
  | scan known after | sweep known left after => cases after <;> cases isSave
  | truncate save | fill save | rename save =>
    cases isSave
    rfl
  | _ => cases isSave

/-- Without a mission under way, what is saved names missions of the store only. -/
theorem Stage.Fits.stored (fits : stage.Fits disk) (noCreate : stage.creates = false)
    (isSave : stage.save? = some save) :
    ∀ id ∈ MissionStore.ids save.content, id ∈ (disk.load true).ids := by
  intro id isId
  refine ((fits.ready isSave).fewer id isId).resolve_right fun isCreated => ?_
  simp [created_creates isSave isCreated] at noCreate

theorem Beside.sound {next : Disk} (beside : Beside disk next) (sound : disk.Sound)
    (registered : ∀ id ∈ next.registered, id ∈ next.used)
    (spared : ∀ id ∈ (disk.load true).ids, id ∈ next.gone → id ∈ disk.gone) : next.Sound where
  kept := beside.kept sound.kept sound.owedUsed spared
  distinct := by
    rw [beside.load]
    exact sound.distinct
  owedUsed := by
    rw [beside.owedProjects]
    exact fun pair isOwed => beside.used _ (sound.owedUsed pair isOwed)
  registeredUsed := registered

theorem sweep_sound (sound : Sound sys) {known left : List String} {name : String}
    (isThread : sys.threads id = some thread)
    (isStage : thread.stage = .sweep known (name :: left) after) (isUnknown : name ∉ known) :
    Sound ((sys.onDisk { sys.disk with
      dirs := sys.disk.dirs.filter (· ≠ name)
      gone := name :: sys.disk.gone }).goto id thread (.sweep known left after)) := by
  have fits := sound.fitsAt isThread isStage
  have notStored : name ∉ (sys.disk.load true).ids := fun isId => isUnknown (fits.1 name isId)
  have noCreate : sys.All fun other => other.stage.creates = false := by
    intro other otherThread isOther
    cases after with
    | unlocked projectIds changed =>
      exact sound.apart id thread isThread (isStage ▸ rfl) other otherThread isOther
    | locked store changed =>
      by_cases same : other = id
      · subst same
        cases isThread.symm.trans isOther
        rw [isStage]
        rfl
      · have unheld := (sound.has isThread (isStage ▸ rfl)).alone other otherThread same isOther
        exact Bool.eq_false_iff.mpr fun creates =>
          Bool.noConfusion ((creates_holds creates).symm.trans unheld)
  have beside : Beside sys.disk { sys.disk with
      dirs := sys.disk.dirs.filter (· ≠ name)
      gone := name :: sys.disk.gone } :=
    ⟨rfl, rfl, rfl, rfl, rfl, fun _ isUsed => isUsed, fun _ _ isRegistered => isRegistered⟩
  have spared : ∀ id ∈ (sys.disk.load true).ids, id ∈ name :: sys.disk.gone →
      id ∈ sys.disk.gone := fun id isId isGone =>
    (mem_cons.mp isGone).resolve_left fun same => notStored (same ▸ isId)
  have stillFits : ∀ found : Stage, found.Fits sys.disk → found.creates = false →
      found.Fits _ := fun found foundFits noCreate =>
    foundFits.beside beside sound.disk fun save isSave id isId =>
      spared id (foundFits.stored noCreate isSave id isId)
  refine sound.goto (beside.sound sound.disk sound.disk.registeredUsed spared)
    (fun other otherThread _ isOther =>
      stillFits _ (sound.fits other otherThread isOther) (noCreate other otherThread isOther))
    (stillFits (.sweep known left after) fits rfl) ?_ ?_ Bool.noConfusion
  · intro holds
    refine sound.has isThread ?_
    rw [isStage]
    cases after with
    | unlocked projectIds changed => cases holds
    | locked store changed => rfl
  · exact fun _ => noCreate

theorem Sound.others (sound : Sound sys) (has : Has sys id thread) {next : Disk}
    (load : next.load true = sys.disk.load true)
    (covers : ∀ projectIds, Covers sys.disk projectIds → Covers next projectIds) :
    ∀ other otherThread, other ≠ id → sys.threads other = some otherThread →
      otherThread.stage.Fits next :=
  fun other otherThread different isOther =>
    (sound.fits other otherThread isOther).unheld (has.alone other otherThread different isOther)
      (fun projectIds _ => covers projectIds) fun _ _ isId => load ▸ isId

theorem Disk.Sound.withDirs (sound : disk.Sound) (dirs : List String) :
    Disk.Sound { disk with dirs := dirs } :=
  ⟨⟨sound.kept.missions, sound.kept.projects, sound.kept.stayRemoved, sound.kept.dirs⟩,
    sound.distinct, sound.owedUsed, sound.registeredUsed⟩

theorem Disk.Sound.withTmp (sound : disk.Sound) (tmp : Option (JsonFile MissionStore)) :
    Disk.Sound { disk with tmp := tmp } :=
  ⟨⟨sound.kept.missions, sound.kept.projects, sound.kept.stayRemoved, sound.kept.dirs⟩,
    sound.distinct, sound.owedUsed, sound.registeredUsed⟩

theorem Ready.withTmp (ready : Ready disk save) (tmp : Option (JsonFile MissionStore)) :
    Ready { disk with tmp := tmp } save :=
  ⟨ready.kept, ready.distinct, ready.fewer, ready.used, ready.later⟩

theorem makeDir_sound (sound : Sound sys) (has : Has sys id thread)
    (fits : (Stage.makeDir (sys.disk.load true) mission).Fits sys.disk)
    (noSweep : sys.All fun other => other.stage.sweeps = false) :
    Sound ((sys.onDisk { sys.disk with
      dirs := mission.id :: sys.disk.dirs
      gone := sys.disk.gone.filter (· ≠ mission.id) }).goto id thread
        (.truncate ⟨sys.disk.load true ++ [mission], .created mission.id, []⟩)) := by
  have beside : Beside sys.disk { sys.disk with
      dirs := mission.id :: sys.disk.dirs
      gone := sys.disk.gone.filter (· ≠ mission.id) } :=
    ⟨rfl, rfl, rfl, rfl, rfl, fun _ isUsed => isUsed, fun _ _ isRegistered => isRegistered⟩
  have isDisk := beside.sound sound.disk sound.disk.registeredUsed
    fun _ _ isGone => (List.mem_filter.mp isGone).1
  refine sound.goto isDisk (sound.others has rfl fun _ covers => covers)
    (ready_created isDisk fits.2.1 fits.2.2 fun isGone => ?_) (fun _ => has) Bool.noConfusion
    fun _ => noSweep
  exact of_decide_eq_true (List.mem_filter.mp isGone).2 rfl

theorem Sound.noSweep (sound : Sound sys) (isThread : sys.threads id = some thread)
    (creates : thread.stage.creates = true) :
    sys.All fun other => other.stage.sweeps = false := by
  intro other otherThread isOther
  refine Bool.eq_false_iff.mpr fun sweeps => ?_
  have noCreate := sound.apart other otherThread isOther sweeps id thread isThread
  exact Bool.noConfusion (creates.symm.trans noCreate)

theorem Ready.saved (ready : Ready disk save) (sound : disk.Sound) :
    (disk.saved save).Sound :=
  ⟨ready.kept, ready.distinct, ready.used, sound.registeredUsed⟩

theorem saved_sound (sound : Sound sys) (isThread : sys.threads id = some thread)
    (isStage : thread.stage = .rename save)
    (clean : (Stage.rename save).Clean sys thread given) :
    Sound ((sys.onDisk (sys.disk.saved save)).proceed id thread save.later) := by
  have has := sound.has isThread (isStage ▸ rfl)
  have ready := (sound.fitsAt isThread isStage).1
  have others : ∀ other otherThread, other ≠ id → sys.threads other = some otherThread →
      otherThread.stage.Fits (sys.disk.saved save) := by
    intro other otherThread different isOther
    refine (sound.fits other otherThread isOther).unheld
      (has.alone other otherThread different isOther) ?_ ?_
    · intro projectIds isListing covers pair isOwed isRegistered
      obtain ⟨content, change, later⟩ := save
      cases change with
      | added missionId projectId =>
        rcases mem_cons.mp isOwed with rfl | wasOwed
        · exact clean other otherThread isOther projectIds isListing
        · exact covers pair wasOwed isRegistered
      | removed missionId projectId =>
        exact covers pair (List.mem_filter.mp isOwed).1 isRegistered
      | dropped missionId => exact covers pair (List.mem_filter.mp isOwed).1 isRegistered
      | _ => exact covers pair isOwed isRegistered
    · intro sweeps missionId isStored
      have noCreate := sound.apart other otherThread isOther sweeps id thread isThread
      exact (sound.fits id thread isThread).stored noCreate (isStage ▸ rfl) missionId isStored
  exact sound.proceed (ready.saved sound.disk) others has (fits_of_noReconcile ready.later)

theorem lock_sound (sound : Sound sys) (isThread : sys.threads id = some thread)
    (isStage : thread.stage = .lock round) (isFree : sys.locks thread.process = none)
    (clean : sys.All fun other => other.stage.holds = true → other.process = thread.process) :
    Sound ({ sys with
      locks := Function.update sys.locks thread.process (some id) }.proceed id thread
        [round]) := by
  have noHolder : ∀ other otherThread, sys.threads other = some otherThread →
      otherThread.stage.holds = false := by
    intro other otherThread isOther
    refine Bool.eq_false_iff.mpr fun holds => ?_
    have isHeld := sound.held other otherThread isOther holds
    simp [clean other otherThread isOther holds, isFree] at isHeld
  have locked : Sound { sys with
      locks := Function.update sys.locks thread.process (some id) } :=
    { sound with
      held := fun other otherThread isOther holds =>
        Bool.noConfusion ((noHolder other otherThread isOther).symm.trans holds) }
  refine locked.proceed locked.disk
    (fun other otherThread _ isOther => sound.fits other otherThread isOther)
    ⟨Function.update_self ..,
      fun other otherThread _ isOther => noHolder other otherThread isOther⟩ ?_
  intro found later isRounds
  cases isRounds
  exact ⟨sound.fitsAt isThread isStage, fun _ => not_mem_nil⟩

/-- A thread goes on with what it held and what it swept. -/
theorem Sound.move (sound : Sound sys) {next : Stage} (isThread : sys.threads id = some thread)
    (isStage : thread.stage = stage) (own : next.Fits sys.disk)
    (sameHolds : stage.holds = next.holds) (sameSweeps : stage.sweeps = next.sweeps)
    (noCreates : next.creates = false) : Sound (sys.goto id thread next) := by
  refine sound.stay own (fun holds => ?_) (fun sweeps => ?_) fun creates => ?_
  · exact sound.has isThread (isStage ▸ sameHolds.trans holds)
  · exact sound.apart id thread isThread (isStage ▸ sameSweeps.trans sweeps)
  · cases noCreates.symm.trans creates

theorem advance_sound (sound : Sound sys) {next : System}
    (isThread : sys.threads id = some thread) (clean : thread.stage.Clean sys thread given)
    (went : sys.advance id thread given = some next) : Sound next := by
  obtain ⟨stage, isStage⟩ : ∃ stage, thread.stage = stage := ⟨_, rfl⟩
  rw [isStage] at clean
  have fits := sound.fitsAt isThread isStage
  simp only [System.advance, isStage] at went
  cases stage with
  | config =>
    cases went
    have isOk : given.ok = true := clean
    refine sound.stay ?_ Bool.noConfusion Bool.noConfusion Bool.noConfusion
    rw [isOk, if_pos rfl]
    exact fun pair _ isRegistered => isRegistered
  | peek projectIds =>
    cases went
    rw [clean.1]
    exact sound.stay ⟨fun _ isId => isId, fits⟩ Bool.noConfusion (fun _ => clean.2)
      Bool.noConfusion
  | scan known after =>
    cases went
    exact sound.move isThread isStage fits (by cases after <;> rfl) (by cases after <;> rfl) rfl
  | sweep known left after =>
    cases left with
    | nil =>
      cases went
      exact afterSweep_sound sound isThread isStage
    | cons name left =>
      dsimp only at went
      split_ifs at went with isRemoved
      · cases went
        exact sweep_sound sound isThread isStage isRemoved.2
      · cases went
        exact sound.move isThread isStage fits (by cases after <;> rfl) (by cases after <;> rfl) rfl
  | lock round =>
    cases isLock : sys.locks thread.process with
    | some holder =>
      simp [isLock] at went
    | none =>
      rw [isLock] at went
      cases went
      exact lock_sound sound isThread isStage isLock clean
  | lookup missionId projectId repo =>
    have has := sound.has isThread (isStage ▸ rfl)
    dsimp only at went
    split_ifs at went with isFound
    · cases went
      refine sound.hold has ⟨trivial, fun _ => not_mem_nil, ?_⟩ rfl rfl
      intro _ _ _ isAdd
      cases isAdd
      exact sound.disk.registeredUsed _ isFound.2
    · cases went
      exact sound.leave
  | read round later =>
    cases went
    exact afterRead_sound sound (sound.has isThread (isStage ▸ rfl)) fits clean
  | choose store name branchName =>
    have has := sound.has isThread (isStage ▸ rfl)
    dsimp only at went
    split_ifs at went with isError isTaken
    · cases went
      exact sound.leave
    · cases went
      exact sound
    · cases went
      exact sound.hold has ⟨fits, fun isId => isTaken (.inl isId), rfl⟩ rfl rfl
  | makeDir store mission =>
    have has := sound.has isThread (isStage ▸ rfl)
    dsimp only at went
    split_ifs at went
    · cases went
      obtain ⟨rfl, fresh⟩ := fits
      exact makeDir_sound sound has ⟨rfl, fresh⟩ clean
    · cases went
      exact sound.leave
  | addWorktree store missionId project =>
    have has := sound.has isThread (isStage ▸ rfl)
    obtain ⟨rfl, isMission, isUsed⟩ := fits
    have isDisk := sound.disk.withDirs (missionId :: sys.disk.dirs)
    dsimp only at went
    split_ifs at went
    · cases went
      exact sound.goto isDisk (sound.others has rfl fun _ covers => covers)
        (ready_added isDisk isMission project isUsed) (fun _ => has) Bool.noConfusion
        Bool.noConfusion
    · cases went
      exact sound.finish isDisk (sound.others has rfl fun _ covers => covers)
  | removeDir missionId later =>
    have has := sound.has isThread (isStage ▸ rfl)
    dsimp only at went
    split_ifs at went
    · cases went
      exact sound.proceed (sound.disk.withDirs (sys.disk.dirs.filter (· ≠ missionId)))
        (sound.others has rfl fun _ covers => covers) has (fits_of_noReconcile fits)
    · cases went
      exact sound.leave
  | truncate save =>
    have has := sound.has isThread (isStage ▸ rfl)
    dsimp only at went
    split_ifs at went
    · cases went
      exact sound.goto (sound.disk.withTmp _) (sound.others has rfl fun _ covers => covers)
        (fits.withTmp _) (fun _ => has) Bool.noConfusion
        fun creates => sound.noSweep isThread (isStage ▸ creates)
    · cases went
      exact sound.leave
  | fill save =>
    have has := sound.has isThread (isStage ▸ rfl)
    dsimp only at went
    split_ifs at went
    · cases went
      exact sound.goto (sound.disk.withTmp _) (sound.others has rfl fun _ covers => covers)
        ⟨fits.withTmp _, rfl⟩ (fun _ => has) Bool.noConfusion
        fun creates => sound.noSweep isThread (isStage ▸ creates)
    · cases went
      exact sound.leave
  | rename save =>
    have has := sound.has isThread (isStage ▸ rfl)
    rw [fits.2] at went
    cases isOk : given.ok with
    | true =>
      rw [isOk] at went
      cases went
      exact saved_sound sound isThread isStage clean
    | false =>
      rw [isOk] at went
      cases went
      exact sound.finish (sound.disk.withTmp _) (sound.others has rfl fun _ covers => covers)

end

def projectPairs (missions : MissionStore) : List (String × String) :=
  missions.flatMap fun mission =>
    mission.projects.map fun project => (mission.id, project.projectId)

/-- No thread runs, and nothing is promised but what is stored. -/
def opened (missions : MissionStore) (dirs registered : List String) : System where
  disk :=
    { store := .whole missions
      tmp := none
      dirs
      registered
      used := registered ++ (projectPairs missions).map Prod.snd
      owed := missions.ids
      owedProjects := projectPairs missions
      removed := []
      gone := [] }
  locks _ := none
  threads _ := none

/-- In all runs from a store whose missions have ids of their own. -/
def MissionsKept (ok : System → Label → Prop) : Prop :=
  ∀ missions dirs registered, (MissionStore.ids missions).Nodup →
    ∀ finish, Run step ok (opened missions dirs registered) finish → Kept finish.disk

theorem opened_sound {missions : MissionStore} (dirs registered : List String)
    (distinct : missions.ids.Nodup) : Sound (opened missions dirs registered) where
  disk :=
    { kept :=
        { missions := fun _ isOwed => isOwed
          projects := fun pair isOwed _ => by
            obtain ⟨mission, isMission, isPair⟩ := List.mem_flatMap.mp isOwed
            obtain ⟨project, isProject, rfl⟩ := mem_map.mp isPair
            exact ⟨mission, isMission, rfl, project, isProject, rfl⟩
          stayRemoved := List.forall_mem_nil _
          dirs := fun _ _ => not_mem_nil }
      distinct
      owedUsed := fun _ isOwed => List.mem_append_right _ (mem_map_of_mem isOwed)
      registeredUsed := fun _ isRegistered => List.mem_append_left _ isRegistered }
  fits _ _ isThread := nomatch isThread
  held _ _ isThread := nomatch isThread
  single isThread := nomatch isThread
  apart _ _ isThread := nomatch isThread

section
variable {sys next : System} {label : Label}

theorem Sound.beside (sound : Sound sys) {disk : Disk} (beside : Beside sys.disk disk)
    (registered : ∀ id ∈ disk.registered, id ∈ disk.used)
    (sameGone : disk.gone = sys.disk.gone) : Sound (sys.onDisk disk) :=
  { sound with
    disk := beside.sound sound.disk registered fun _ _ isGone => sameGone ▸ isGone
    fits := fun id thread isThread =>
      (sound.fits id thread isThread).beside beside sound.disk
        fun _ _ _ _ isGone => sameGone ▸ isGone }

theorem start_fits (call : Call) (disk : Disk) : call.start.Fits disk := by
  cases call with
  | _ => trivial

theorem step_sound (sound : Sound sys) (clean : Clean sys label)
    (ran : step sys label = some next) : Sound next := by
  cases label with
  | start id process call =>
    simp only [step] at ran
    split at ran
    · cases ran
    · cases ran
      show Sound (sys.goto id ⟨process, call.start⟩ call.start)
      refine sound.stay (start_fits call _) ?_ ?_ ?_
      all_goals cases call with
      | _ => exact Bool.noConfusion
  | advance id given =>
    simp only [step] at ran
    split at ran
    · cases ran
    · rename_i thread isThread
      exact advance_sound sound isThread (clean thread isThread) ran
  | register projectId =>
    simp only [step] at ran
    split_ifs at ran with isUsed
    cases ran
    refine sound.beside ⟨rfl, rfl, rfl, rfl, rfl, fun _ => List.mem_cons_of_mem _, ?_⟩ ?_ rfl
    · intro id wasUsed isRegistered
      refine (mem_cons.mp isRegistered).resolve_left ?_
      rintro rfl
      exact isUsed wasUsed
    · intro id isRegistered
      rcases mem_cons.mp isRegistered with rfl | wasRegistered
      · exact List.mem_cons_self
      · exact List.mem_cons_of_mem _ (sound.disk.registeredUsed id wasRegistered)
  | unregister projectId =>
    cases ran
    refine sound.beside ⟨rfl, rfl, rfl, rfl, rfl, fun _ isUsed => isUsed,
      fun _ _ isRegistered => (List.mem_filter.mp isRegistered).1⟩ ?_ rfl
    exact fun id isRegistered => sound.disk.registeredUsed id (List.mem_filter.mp isRegistered).1

end

/-- What went through stays, what was removed stays away, and no mission loses its directory to
a listing. -/
theorem missionsKept {missions : MissionStore} {dirs registered : List String}
    (distinct : missions.ids.Nodup) {finish : System}
    (run : Run step Clean (opened missions dirs registered) finish) : Kept finish.disk := by
  have sound : Sound finish := run.invariant (opened_sound dirs registered distinct)
    fun _ _ _ sound clean ran => step_sound sound clean ran
  exact sound.disk.kept

def ok (id : String) : Given := ⟨true, id⟩

/-- A mission is made while nothing else runs. -/
def creating : List Label :=
  [.start 0 0 (.create "m" none), .advance 0 (ok ""), .advance 0 (ok ""),
    .advance 0 (ok "00000001"), .advance 0 (ok ""), .advance 0 (ok ""), .advance 0 (ok ""),
    .advance 0 (ok "")]

theorem missionsKept_creating : ∃ finish, Run step Clean (opened [] [] []) finish ∧
      finish.disk.owed = ["00000001"] ∧ Kept finish.disk := by
  obtain ⟨finish, replayed, isOwed⟩ :
      ∃ finish, execute step (opened [] [] []) creating = some finish ∧
        finish.disk.owed = ["00000001"] :=
    ⟨_, rfl, rfl⟩
  have nothing {kind : Thread → Prop} : (opened [] [] []).All kind :=
    fun _ _ isThread => absurd isThread (Option.some_ne_none _).symm
  have permitted : Permitted step Clean (opened [] [] []) creating := by
    refine ⟨trivial, _, rfl, ?_, _, rfl, ?_, _, rfl, ?_, _, rfl, ?_, _, rfl, ?_, _, rfl, ?_, _, rfl,
      ?_, _, rfl, trivial⟩
    all_goals
      intro thread isThread
      obtain rfl := Option.some.inj isThread
    · exact System.All.update nothing Bool.noConfusion
    · rfl
    · trivial
    · show System.All _ fun other => other.stage.sweeps = false
      refine System.All.goto (System.All.goto (System.All.goto ?_ rfl) rfl) rfl
      exact System.All.update nothing rfl
    · trivial
    · trivial
    · trivial
  have run := run_of_permitted creating permitted replayed
  have distinct : (MissionStore.ids []).Nodup := List.nodup_nil
  exact ⟨finish, run, isOwed, missionsKept distinct run⟩

/-- The listing reads the store, the mission is made, the listing sweeps, the mission is
saved. -/
def destroying : List Label :=
  [.start 0 0 .list, .advance 0 (ok ""), .advance 0 (ok ""), .start 1 0 (.create "m" none),
    .advance 1 (ok ""), .advance 1 (ok ""), .advance 1 (ok "00000001"), .advance 1 (ok ""),
    .advance 0 (ok ""), .advance 0 (ok ""), .advance 1 (ok ""), .advance 1 (ok ""),
    .advance 1 (ok "")]

theorem not_missionsKept : ¬ MissionsKept fun _ _ => True := by
  intro kept
  have isRun : ∃ finish, execute step (opened [] [] []) destroying = some finish ∧
      "00000001" ∈ (finish.disk.load true).ids ∧ "00000001" ∈ finish.disk.gone :=
    ⟨_, rfl, by decide, by decide⟩
  obtain ⟨finish, replayed, isStored, isGone⟩ := isRun
  exact (kept [] [] [] List.nodup_nil finish
    (run_of_execute destroying replayed fun _ _ _ => trivial)).dirs _ isStored isGone

end AiTools.Grove.Missions
