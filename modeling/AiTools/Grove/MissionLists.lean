import AiTools.Grove.MissionStore

/-!
Contract: which missions and projects a list has.
-/

namespace AiTools.Grove.MissionStore

section

variable {missions : List Mission} {id missionId projectId : Text}

theorem HasProject.has (has : HasProject missions missionId projectId) :
    Has missions missionId := by
  obtain ⟨mission, isThere, isId, _⟩ := has
  exact ⟨mission, isThere, isId⟩

variable {others : List Mission} {other gone changed project : Text} {collapsed : Bool}
  {change : Mission → Mission}

@[simp] theorem has_append : Has (missions ++ others) id ↔ Has missions id ∨ Has others id := by
  simp only [Has, List.mem_append]
  grind

@[simp] theorem hasProject_append : HasProject (missions ++ others) missionId projectId ↔
      HasProject missions missionId projectId ∨ HasProject others missionId projectId := by
  simp only [HasProject, List.mem_append]
  grind

@[simp] theorem has_new : Has [⟨other, [], collapsed⟩] id ↔ other = id := by
  simp [Has]

@[simp] theorem hasProject_new : ¬ HasProject [⟨other, [], collapsed⟩] missionId projectId := by
  simp [HasProject]

@[simp] theorem has_without : Has (without gone missions) id ↔ Has missions id ∧ id ≠ gone := by
  simp only [Has, without, List.mem_filter, decide_eq_true_eq]
  grind

@[simp] theorem hasProject_without : HasProject (without gone missions) missionId projectId ↔
      HasProject missions missionId projectId ∧ missionId ≠ gone := by
  simp only [HasProject, without, List.mem_filter, decide_eq_true_eq]
  grind

theorem has_update (keepsId : ∀ mission, (change mission).id = mission.id) :
    Has (update changed change missions) id ↔ Has missions id := by
  simp only [Has, update, List.mem_map]
  grind

theorem hasProject_update (keepsId : ∀ mission, (change mission).id = mission.id) :
    HasProject (update changed change missions) missionId projectId ↔
      ∃ mission ∈ missions, mission.id = missionId ∧
        projectId ∈ (if missionId = changed then change mission else mission).projects := by
  simp only [HasProject, update, List.mem_map]
  grind

@[simp] theorem has_addTo {added : Text} :
    Has (addTo added project missions) id ↔ Has missions id := has_update fun _ => rfl

@[simp] theorem has_removeFrom {removed : Text} :
    Has (removeFrom removed project missions) id ↔ Has missions id := has_update fun _ => rfl

@[simp] theorem has_collapse :
    Has (collapse changed collapsed missions) id ↔ Has missions id := has_update fun _ => rfl

@[simp] theorem hasProject_addTo {added : Text} :
    HasProject (addTo added project missions) missionId projectId ↔
      HasProject missions missionId projectId ∨
        missionId = added ∧ projectId = project ∧ Has missions missionId := by
  refine Iff.trans (hasProject_update (by exact fun _ => rfl)) ?_
  rw [HasProject, Has]
  grind

@[simp] theorem hasProject_removeFrom {removed : Text} :
    HasProject (removeFrom removed project missions) missionId projectId ↔
      HasProject missions missionId projectId ∧ ¬ (missionId = removed ∧ projectId = project) := by
  refine Iff.trans (hasProject_update (by exact fun _ => rfl)) ?_
  rw [HasProject]
  grind

@[simp] theorem hasProject_collapse :
    HasProject (collapse changed collapsed missions) missionId projectId ↔
      HasProject missions missionId projectId := by
  refine Iff.trans (hasProject_update (by exact fun _ => rfl)) ?_
  rw [HasProject]
  grind

@[simp] theorem dropFrom_zero {failed : Text} : dropFrom failed 0 missions = missions := by
  simp [dropFrom, update]

@[simp] theorem hasProject_filter : HasProject (missions.filter (·.id = gone)) missionId projectId ↔
      HasProject missions missionId projectId ∧ missionId = gone := by
  simp only [HasProject, List.mem_filter, decide_eq_true_eq]
  grind

@[simp] theorem has_filter :
    Has (missions.filter (·.id = gone)) id ↔ Has missions id ∧ id = gone := by
  simp only [Has, List.mem_filter, decide_eq_true_eq]
  grind

theorem Once.without (once : Once missions) (gone : Text) : Once (without gone missions) :=
  ⟨once.ids.sublist (List.filter_sublist.map _),
    fun mission isThere => once.projects mission (List.mem_of_mem_filter isThere)⟩

theorem Once.append (once : Once missions) {mission : Mission} (isNew : ¬ Has missions mission.id)
    (noProjects : mission.projects = []) : Once (missions ++ [mission]) := by
  constructor
  · rw [List.map_append, List.nodup_append]
    refine ⟨once.ids, List.nodup_singleton _, ?_⟩
    rintro _ isOther _ isThis rfl
    obtain ⟨other, isThere, same⟩ := List.mem_map.mp isOther
    exact isNew ⟨other, isThere, same.trans (List.mem_singleton.mp isThis)⟩
  · intro other isThere
    rcases List.mem_append.mp isThere with isBefore | isLast
    · exact once.projects other isBefore
    · rw [List.mem_singleton.mp isLast, noProjects]
      exact List.nodup_nil

theorem Once.update (once : Once missions) (keepsId : ∀ mission, (change mission).id = mission.id)
    (projects : ∀ mission ∈ missions, mission.id = changed → (change mission).projects.Nodup) :
    Once (update changed change missions) := by
  constructor
  · have sameIds : (MissionStore.update changed change missions).map Mission.id =
        missions.map Mission.id := by
      rw [MissionStore.update, List.map_map]
      refine List.map_congr_left fun mission _ => ?_
      rw [Function.comp_apply]
      split
      · exact keepsId mission
      · rfl
    rw [sameIds]
    exact once.ids
  · intro mission isThere
    obtain ⟨before, isBefore, rfl⟩ := List.mem_map.mp isThere
    split
    · exact projects before isBefore ‹_›
    · exact once.projects before isBefore

theorem Once.addTo (once : Once missions) (isNew : ¬ HasProject missions missionId projectId) :
    Once (addTo missionId projectId missions) := by
  refine once.update (fun _ => rfl) fun mission isThere isId => ?_
  rw [List.nodup_append]
  refine ⟨once.projects mission isThere, List.nodup_singleton _, ?_⟩
  rintro project isBefore _ isLast rfl
  exact isNew ⟨mission, isThere, isId, List.mem_singleton.mp isLast ▸ isBefore⟩

theorem Once.removeFrom (once : Once missions) (missionId projectId : Text) :
    Once (removeFrom missionId projectId missions) :=
  once.update (fun _ => rfl) fun mission isThere _ => (once.projects mission isThere).filter _

theorem Once.collapse (once : Once missions) (missionId : Text) (collapsed : Bool) :
    Once (collapse missionId collapsed missions) :=
  once.update (fun _ => rfl) fun mission isThere _ => once.projects mission isThere

end

end AiTools.Grove.MissionStore
