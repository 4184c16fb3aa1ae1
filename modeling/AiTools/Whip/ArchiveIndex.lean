import AiTools.Lib.Transition
import AiTools.Whip.StoreCommands

/-!
Contract: the index of a workspace describes the archived tasks of the workspace.
-/

namespace AiTools.Whip.ArchiveIndex

open AiTools.Lib.Transition AiTools.Lib.Keyed AiTools.Lib.Effect
open List (mem_cons_of_mem mem_cons_self mem_singleton not_mem_nil)

/-- The index of a workspace: `none` when it has no record, `some none` when its record
has no index. -/
def indexOf (store : Store) (name : String) : Option (Option (List String)) :=
  (store.workspaces.find? name).map Workspace.archivedTaskIDs

/-- The index, when there is one, holds the ids of the archived tasks of the workspace. -/
def Exact (store : Store) (name : String) : Prop :=
  ∀ ids, indexOf store name = some (some ids) → ids.Nodup ∧ ∀ id, id ∈ ids ↔
    ∃ task ∈ store.archive.entries, task.id = id ∧ task.workspace = name

def AllExact (store : Store) : Prop := ∀ name, name ≠ globalWorkspaceName → Exact store name

/-- List and count of a workspace describe its archived records. -/
def ListsArchived (store : Store) : Prop :=
  ∀ name, name ≠ globalWorkspaceName → indexOf store name ≠ none →
    ∃ listed, store.listArchivedTasksInWorkspace name = .ok listed ∧
      listed.Perm (store.archive.entries.filter fun task => task.workspace = name) ∧
        store.countArchivedTasksInWorkspace name = .ok listed.length

/-- The deletion of a workspace leaves no archived record of it behind. -/
def DeletesArchived (store : Store) : Prop :=
  ∀ env name count next, Store.deleteArchivedWorkspace env name store = .ok count next →
    ∀ task ∈ next.archive.entries, task.workspace ≠ name

/-- In every run whose commands all meet `ok`, from a store whose indexes are exact or
missing, lists and deletions are. -/
def IndexRespected (ok : Store → CommandLine → Prop) : Prop :=
  ∀ start store, AllExact start → Run Store.step ok start store →
    ListsArchived store ∧ DeletesArchived store

/-- No save of the workspace's index fails. -/
def SavesIndex (env : Env) (tasks : List Task) (name : String) : Prop :=
  ∀ task ∈ tasks, task.workspace = name → env.fails (.saveIndex task.id) = false

/-- The tasks are appended to an index that is there, or that starts with the first
archived task of the workspace; or to none at all. -/
def AppendsExactly (store : Store) (env : Env) (tasks : List Task) (name : String) : Prop :=
  indexOf store name = none ∨ (SavesIndex env tasks name ∧
      (indexOf store name = some none → ∀ task ∈ store.archive.entries, task.workspace ≠ name)) ∨
    (indexOf store name = some none ∧
      ∀ task ∈ tasks, task.workspace = name → env.fails (.saveIndex task.id) = true)

def Completes (store : Store) (env : Env) (name : String) : Prop :=
  ∃ count next, Store.archiveWorkspace env name store = .ok count next

/-- The archival of a workspace that completes finds no index, or no active task left;
other archivals append exactly; and a deletion saves the index that there is. -/
def Undisturbed (store : Store) (line : CommandLine) : Prop :=
  match line.command with
  | .archiveTask id => ∀ task, store.findTask id = some task →
      task.workspace ≠ globalWorkspaceName → AppendsExactly store line.env [task] task.workspace
  | .archiveWorkspace name =>
    (Completes store line.env name → indexOf store name = some none ∨
      ∀ task ∈ store.listTasksInWorkspace name, task.workspace ≠ name) ∧
    ∀ other, other ≠ globalWorkspaceName → (other = name → ¬ Completes store line.env name) →
      AppendsExactly store line.env (store.listTasksInWorkspace name) other
  | .deleteArchivedTask id => ∀ task, store.archive.find? id = some task →
      ∀ ids, indexOf store task.workspace = some (some ids) → line.env.fails (.saveIndex id) = false
  | .deleteArchivedWorkspace name => ∀ ids, indexOf store name = some (some ids) →
      SavesIndex line.env store.archive.entries name
  | _ => True

section
variable {store : Store} {name : String} {known : Option (List String)}

theorem indexOf_some (isIndex : indexOf store name = some known) :
    ∃ workspace, store.workspaces.find? name = some workspace ∧
      workspace.archivedTaskIDs = known := by
  unfold indexOf at isIndex
  rwa [Option.map_eq_some_iff] at isIndex

theorem loadWorkspace_of_index (named : name ≠ globalWorkspaceName)
    (isIndex : indexOf store name = some known) :
    ∃ workspace, store.loadWorkspace name = .ok workspace ∧ workspace.archivedTaskIDs = known := by
  obtain ⟨workspace, isRecord, isKnown⟩ := indexOf_some isIndex
  refine ⟨workspace, ?_, isKnown⟩
  unfold Store.loadWorkspace
  rw [if_neg named, isRecord]

theorem archivedIn_perm (store : Store) (name : String) : (store.archivedIn name).Perm
      (store.archive.entries.filter fun task => task.workspace = name) :=
  (Store.byCreation_perm _).filter _

theorem filterMap_perm {ids : List String} (nodup : ids.Nodup)
    (exact : ∀ id, id ∈ ids ↔
      ∃ task ∈ store.archive.entries, task.id = id ∧ task.workspace = name) :
    (ids.filterMap store.archive.find?).Perm
        (store.archive.entries.filter fun task => task.workspace = name) ∧
      (ids.filterMap store.archive.find?).length = ids.length := by
  have found : ∀ id ∈ ids, ∃ task, store.archive.find? id = some task ∧ task.workspace = name := by
    intro id member
    obtain ⟨task, isEntry, isId, isName⟩ := (exact id).mp member
    exact ⟨task, Table.find?_eq_some_iff.mpr ⟨isEntry, isId⟩, isName⟩
  constructor
  · rw [List.perm_ext_iff_of_nodup]
    · intro task
      rw [List.mem_filterMap, List.mem_filter, decide_eq_true_eq]
      constructor
      · rintro ⟨id, member, isFound⟩
        obtain ⟨other, isOther, isName⟩ := found id member
        rw [isFound] at isOther
        cases isOther
        exact ⟨(Table.find?_eq_some_iff.mp isFound).1, isName⟩
      · rintro ⟨isEntry, isName⟩
        exact ⟨task.id, (exact task.id).mpr ⟨task, isEntry, rfl, isName⟩,
          Table.find?_eq_some_iff.mpr ⟨isEntry, rfl⟩⟩
    · refine nodup.filterMap ?_
      intro first second task isFirst isSecond
      rw [← (Table.find?_eq_some_iff.mp isFirst).2, ← (Table.find?_eq_some_iff.mp isSecond).2]
    · exact store.archive.entries_nodup.filter _
  · rw [List.filterMap_length_eq_length]
    intro id member
    obtain ⟨task, isFound, _⟩ := found id member
    rw [isFound]
    rfl

theorem listsArchived (exact : AllExact store) : ListsArchived store := by
  intro name named hasRecord
  cases isIndex : indexOf store name with
  | none => exact absurd isIndex hasRecord
  | some known =>
    obtain ⟨workspace, isLoaded, isKnown⟩ := loadWorkspace_of_index named isIndex
    unfold Store.listArchivedTasksInWorkspace Store.countArchivedTasksInWorkspace
    rw [if_neg named, if_neg named, isLoaded]
    cases known with
    | none =>
      refine ⟨store.archivedIn name, ?_, archivedIn_perm store name, ?_⟩
      · dsimp only [bind, Except.bind]
        rw [isKnown]
        rfl
      · dsimp only [bind, Except.bind]
        rw [isKnown]
        rfl
    | some ids =>
      obtain ⟨nodup, holds⟩ := exact name named ids isIndex
      obtain ⟨isPerm, sameLength⟩ := filterMap_perm nodup holds
      have sorted := Store.byCreation_perm (ids.filterMap store.archive.find?)
      refine ⟨byCreation (ids.filterMap store.archive.find?), ?_, sorted.trans isPerm, ?_⟩
      · dsimp only [bind, Except.bind]
        rw [isKnown]
        rfl
      · dsimp only [bind, Except.bind]
        rw [isKnown, sorted.length_eq, sameLength]
        rfl

end

/-- The workspace's index and its archived tasks are the same. -/
structure SameView (store next : Store) (name : String) : Prop where
  index : indexOf next name = indexOf store name
  archived : ∀ task, task.workspace = name →
    (task ∈ next.archive.entries ↔ task ∈ store.archive.entries)

/-- The archive and the records of the workspaces are the same. -/
structure SameArchive (store next : Store) : Prop where
  archive : next.archive = store.archive
  workspaces : next.workspaces = store.workspaces

/-- An exact index, or none while no task of the workspace is archived. -/
def Ready (store : Store) (name : String) : Prop :=
  Exact store name ∧
    (indexOf store name = some none → ∀ task ∈ store.archive.entries, task.workspace ≠ name)

section
variable {store next last : Store} {name : String}

theorem SameView.refl (store : Store) (name : String) : SameView store store name :=
  ⟨rfl, fun _ _ => Iff.rfl⟩

theorem SameView.trans (first : SameView store next name) (second : SameView next last name) :
    SameView store last name :=
  ⟨second.index.trans first.index, fun task isName =>
    (second.archived task isName).trans (first.archived task isName)⟩

theorem SameArchive.refl (store : Store) : SameArchive store store := ⟨rfl, rfl⟩

theorem SameArchive.trans (first : SameArchive store next) (second : SameArchive next last) :
    SameArchive store last :=
  ⟨second.archive.trans first.archive, second.workspaces.trans first.workspaces⟩

theorem SameArchive.sameView (same : SameArchive store next) (name : String) :
    SameView store next name := by
  constructor
  · unfold indexOf
    rw [same.workspaces]
  · intro task _
    rw [same.archive]

theorem Exact.sameView (exact : Exact store name) (same : SameView store next name) :
    Exact next name := by
  intro ids isIndex
  rw [same.index] at isIndex
  obtain ⟨nodup, holds⟩ := exact ids isIndex
  refine ⟨nodup, ?_⟩
  intro id
  rw [holds]
  constructor
  · rintro ⟨task, isEntry, isId, isName⟩
    exact ⟨task, (same.archived task isName).mpr isEntry, isId, isName⟩
  · rintro ⟨task, isEntry, isId, isName⟩
    exact ⟨task, (same.archived task isName).mp isEntry, isId, isName⟩

theorem Ready.sameView (ready : Ready store name) (same : SameView store next name) :
    Ready next name := by
  refine ⟨ready.1.sameView same, ?_⟩
  intro isIndex task isEntry isName
  rw [same.index] at isIndex
  exact ready.2 isIndex task ((same.archived task isName).mp isEntry) isName

theorem exact_of_noIndex (noIndex : indexOf store name = none ∨ indexOf store name = some none) :
    Exact store name := by
  intro ids isIndex
  rcases noIndex with none' | none' <;> rw [none'] at isIndex <;> cases isIndex

theorem marshaled_name (workspace : Workspace) : workspace.marshaled.name = workspace.name := by
  unfold Workspace.marshaled
  split <;> rfl

theorem marshaled_index (workspace : Workspace) : workspace.marshaled.archivedTaskIDs =
      if workspace.archivedTaskIDs = some [] then none else workspace.archivedTaskIDs := by
  unfold Workspace.marshaled
  split <;> rfl

theorem indexOf_putWorkspace (store : Store) (workspace : Workspace) (name : String) :
    indexOf (store.putWorkspace workspace) name =
      if workspace.name = name then some workspace.marshaled.archivedTaskIDs
      else indexOf store name := by
  unfold indexOf Store.putWorkspace
  rw [Table.find?_put, marshaled_name]
  split <;> rfl

theorem putWorkspace_sameView {workspace : Workspace} (different : workspace.name ≠ name) :
    SameView store (store.putWorkspace workspace) name := by
  refine ⟨?_, fun _ _ => Iff.rfl⟩
  rw [indexOf_putWorkspace, if_neg different]

variable {task : Task}

theorem moveToArchive_mem {record : Task} (isFree : store.archive.find? record.id = none) :
    task ∈ (store.moveToArchive record).archive.entries ↔
      task = record ∨ task ∈ store.archive.entries := by
  unfold Store.moveToArchive
  rw [Table.mem_put]
  rw [Table.find?_eq_none_iff] at isFree
  constructor
  · rintro (isRecord | ⟨isOld, _⟩)
    · exact .inl isRecord
    · exact .inr isOld
  · rintro (isRecord | isOld)
    · exact .inl isRecord
    · exact .inr ⟨isOld, isFree task isOld⟩

theorem moveToArchive_sameView {record : Task} (isFree : store.archive.find? record.id = none)
    (different : record.workspace ≠ name) :
    SameView store (store.moveToArchive record) name := by
  refine ⟨rfl, ?_⟩
  intro task isName
  rw [moveToArchive_mem isFree]
  constructor
  · rintro (isRecord | isOld)
    · rw [isRecord] at isName
      exact absurd isName different
    · exact isOld
  · exact .inr

theorem withArchivedTask_eq_none (named : task.workspace ≠ globalWorkspaceName)
    (nothing : store.withArchivedTask task = none) : indexOf store task.workspace = none ∨
      ∃ ids, indexOf store task.workspace = some (some ids) ∧ task.id ∈ ids := by
  unfold Store.withArchivedTask at nothing
  rw [if_neg named] at nothing
  unfold indexOf
  cases isRecord : store.workspaces.find? task.workspace with
  | none => exact .inl rfl
  | some workspace =>
    right
    rw [isRecord] at nothing
    dsimp only at nothing
    split_ifs at nothing with known
    cases isIndex : workspace.archivedTaskIDs with
    | none =>
      rw [isIndex] at known
      exact absurd known not_mem_nil
    | some ids =>
      rw [isIndex] at known
      exact ⟨ids, congrArg some isIndex, known⟩

variable {saved : Workspace}

theorem withArchivedTask_eq_some (isSaved : store.withArchivedTask task = some saved) :
    saved.name = task.workspace ∧ ∃ known, indexOf store task.workspace = some known ∧
      task.id ∉ known.getD [] ∧ saved.archivedTaskIDs = some (known.getD [] ++ [task.id]) := by
  unfold Store.withArchivedTask at isSaved
  split_ifs at isSaved
  unfold indexOf
  cases isRecord : store.workspaces.find? task.workspace with
  | none =>
    simp [isRecord] at isSaved
  | some workspace =>
    rw [isRecord] at isSaved
    dsimp only at isSaved
    split_ifs at isSaved with known
    cases isSaved
    exact ⟨(Table.find?_eq_some_iff.mp isRecord).2, workspace.archivedTaskIDs, rfl, known, rfl⟩

theorem withoutArchivedTask_eq_none (named : task.workspace ≠ globalWorkspaceName)
    (nothing : store.withoutArchivedTask task = none) {ids : List String}
    (isIndex : indexOf store task.workspace = some (some ids)) : task.id ∉ ids := by
  obtain ⟨workspace, isRecord, isIds⟩ := indexOf_some isIndex
  unfold Store.withoutArchivedTask at nothing
  rw [if_neg named, isRecord] at nothing
  dsimp only at nothing
  rw [isIds] at nothing
  dsimp only at nothing
  split_ifs at nothing with known
  exact known

theorem withoutArchivedTask_eq_some (isSaved : store.withoutArchivedTask task = some saved) :
    saved.name = task.workspace ∧ ∃ ids, indexOf store task.workspace = some (some ids) ∧
      saved.archivedTaskIDs = some (ids.filter (· ≠ task.id)) := by
  unfold Store.withoutArchivedTask at isSaved
  split_ifs at isSaved
  unfold indexOf
  cases isRecord : store.workspaces.find? task.workspace with
  | none =>
    simp [isRecord] at isSaved
  | some workspace =>
    rw [isRecord] at isSaved
    dsimp only at isSaved
    cases isIndex : workspace.archivedTaskIDs with
    | none =>
      simp [isIndex] at isSaved
    | some ids =>
      rw [isIndex] at isSaved
      dsimp only at isSaved
      split_ifs at isSaved
      cases isSaved
      exact ⟨(Table.find?_eq_some_iff.mp isRecord).2, ids, congrArg some isIndex, rfl⟩

end

/-! ## The archival of one task -/

/-- The record found under the id is moved, and the index is saved when it must be. -/
def Archives (env : Env) (task : Task) (store next : Store) : Prop :=
  ∃ record, store.findTask task.id = some record ∧ store.archive.find? task.id = none ∧
    ((store.moveToArchive record).withArchivedTask task = none ∧ next = store.moveToArchive record ∨
      ∃ saved, (store.moveToArchive record).withArchivedTask task = some saved ∧
        env.fails (.saveIndex task.id) = false ∧
          next = (store.moveToArchive record).putWorkspace saved)

/-- Nothing is moved, or the index is not saved. -/
def FailsToArchive (env : Env) (task : Task) (store next : Store) : Prop :=
  next = store ∨ ∃ record, store.findTask task.id = some record ∧
    store.archive.find? task.id = none ∧ (store.moveToArchive record).withArchivedTask task ≠ none ∧
        env.fails (.saveIndex task.id) = true ∧ next = store.moveToArchive record

/-- The record that the id finds lies in the workspace of the listed task. -/
def Coherent (store : Store) (tasks : List Task) : Prop :=
  ∀ task ∈ tasks, ∀ record, store.findTask task.id = some record →
    store.archive.find? task.id = none → record.workspace = task.workspace

/-- The state of a workspace's index in a loop that has the tasks left to archive. -/
def Holding (store : Store) (env : Env) (rest : List Task) (name : String) : Prop :=
  indexOf store name = none ∨ (SavesIndex env rest name ∧ Ready store name) ∨
    (indexOf store name = some none ∧
      ∀ task ∈ rest, task.workspace = name → env.fails (.saveIndex task.id) = true)

section
variable {store next : Store} {env : Env} {name : String} {task : Task} {rest : List Task}

theorem after_archiveAndAppend (env : Env) (task : Task) (store : Store) :
    After (Store.archiveTask env task.id >>= fun _ => Store.appendArchivedTaskToWorkspace env task)
      (fun _ => Archives env task store) (FailsToArchive env task store) store := by
  rw [after_bind]
  refine (Store.after_archiveTask env task.id store).mono ?_ (fun _ same => .inl same)
  rintro _ moved ⟨record, isFound, isFree, isMoved⟩
  unfold Store.appendArchivedTaskToWorkspace
  simp only [after_bind, after_get]
  rw [isMoved]
  refine (Store.after_saveIndex env task.id _ _).mono ?_ ?_
  · rintro _ last (⟨nothing, same⟩ | ⟨saved, isSaved, isOk, isLast⟩)
    · exact ⟨record, isFound, isFree, .inl ⟨nothing, same⟩⟩
    · exact ⟨record, isFound, isFree, .inr ⟨saved, isSaved, isOk, isLast⟩⟩
  · rintro last ⟨same, something, failed⟩
    exact .inr ⟨record, isFound, isFree, something, failed, same⟩

theorem Archives.sameView (archives : Archives env task store next)
    (coherent : Coherent store (task :: rest)) (different : task.workspace ≠ name) :
    SameView store next name := by
  obtain ⟨record, isFound, isFree, isNext⟩ := archives
  have isWorkspace := coherent task mem_cons_self record isFound isFree
  rw [← (Store.findTask_mem isFound).2] at isFree
  have moved : SameView store (store.moveToArchive record) name :=
    moveToArchive_sameView isFree (by rwa [isWorkspace])
  rcases isNext with ⟨_, same⟩ | ⟨saved, isSaved, _, isNext⟩
  · rw [same]
    exact moved
  · rw [isNext]
    refine moved.trans (putWorkspace_sameView ?_)
    rw [(withArchivedTask_eq_some isSaved).1]
    exact different

theorem Archives.ready (archives : Archives env task store next)
    (coherent : Coherent store (task :: rest)) (named : task.workspace ≠ globalWorkspaceName)
    (ready : Ready store task.workspace) : Ready next task.workspace := by
  obtain ⟨record, isFound, isFree, isNext⟩ := archives
  have isWorkspace := coherent task mem_cons_self record isFound isFree
  have isId := (Store.findTask_mem isFound).2
  have recordFree : store.archive.find? record.id = none := by rwa [isId]
  have notArchived : ∀ other ∈ store.archive.entries, other.id ≠ task.id :=
    Table.find?_eq_none_iff.mp isFree
  have sameIndex : indexOf (store.moveToArchive record) task.workspace =
      indexOf store task.workspace := rfl
  rcases isNext with ⟨nothing, same⟩ | ⟨saved, isSaved, _, isNext⟩
  · rw [same]
    rcases withArchivedTask_eq_none named nothing with noRecord | ⟨ids, isIndex, known⟩
    · refine ⟨exact_of_noIndex (.inl noRecord), ?_⟩
      intro isIndex
      simp [noRecord] at isIndex
    · rw [sameIndex] at isIndex
      obtain ⟨other, isOther, otherId, _⟩ := ((ready.1 ids isIndex).2 task.id).mp known
      exact absurd otherId (notArchived other isOther)
  · obtain ⟨isName, known, isIndex, isNew, isSavedIndex⟩ := withArchivedTask_eq_some isSaved
    rw [sameIndex] at isIndex
    have described : (known.getD []).Nodup ∧ ∀ id, id ∈ known.getD [] ↔
        ∃ other ∈ store.archive.entries, other.id = id ∧ other.workspace = task.workspace := by
      cases known with
      | none =>
        refine ⟨List.nodup_nil, fun id => ⟨nofun, ?_⟩⟩
        rintro ⟨other, isOther, _, otherName⟩
        exact absurd otherName (ready.2 isIndex other isOther)
      | some ids => exact ready.1 ids isIndex
    have nextIndex : indexOf next task.workspace = some (some (known.getD [] ++ [task.id])) := by
      rw [isNext, indexOf_putWorkspace, if_pos isName, marshaled_index, isSavedIndex, if_neg]
      simp
    refine ⟨?_, fun noIndex => ?_⟩
    · intro ids isIds
      rw [nextIndex] at isIds
      cases isIds
      constructor
      · rw [List.nodup_append]
        refine ⟨described.1, List.nodup_singleton _, ?_⟩
        intro first isFirst second isSecond sameId
        rw [sameId, mem_singleton.mp isSecond] at isFirst
        exact isNew isFirst
      · intro id
        rw [isNext, List.mem_append, described.2, mem_singleton]
        show _ ↔ ∃ other ∈ (store.moveToArchive record).archive.entries, _
        constructor
        · rintro (⟨other, isOther, otherId, otherName⟩ | isTask)
          · exact ⟨other, (moveToArchive_mem recordFree).mpr (.inr isOther), otherId, otherName⟩
          · exact ⟨record, (moveToArchive_mem recordFree).mpr (.inl rfl),
              isId.trans isTask.symm, isWorkspace⟩
        · rintro ⟨other, isOther, otherId, otherName⟩
          rcases (moveToArchive_mem recordFree).mp isOther with isRecord | isOld
          · right
            rw [← otherId, isRecord, isId]
          · exact .inl ⟨other, isOld, otherId, otherName⟩
    · simp [nextIndex] at noIndex

theorem Holding.exact (holding : Holding store env rest name) : Exact store name := by
  rcases holding with noRecord | ⟨_, ready⟩ | ⟨noIndex, _⟩
  · exact exact_of_noIndex (.inl noRecord)
  · exact ready.1
  · exact exact_of_noIndex (.inr noIndex)

theorem Holding.of_appends (appends : AppendsExactly store env rest name)
    (exact : Exact store name) : Holding store env rest name := by
  rcases appends with noRecord | ⟨saves, starts⟩ | noIndex
  · exact .inl noRecord
  · exact .inr (.inl ⟨saves, exact, starts⟩)
  · exact .inr (.inr noIndex)

theorem Holding.sameView (holding : Holding store env rest name)
    (same : SameView store next name) : Holding next env rest name := by
  unfold Holding
  rw [same.index]
  rcases holding with noRecord | ⟨saves, ready⟩ | noIndex
  · exact .inl noRecord
  · exact .inr (.inl ⟨saves, ready.sameView same⟩)
  · exact .inr (.inr noIndex)

theorem Holding.tail (holding : Holding store env (task :: rest) name) :
    Holding store env rest name := by
  rcases holding with noRecord | ⟨saves, ready⟩ | ⟨noIndex, fails⟩
  · exact .inl noRecord
  · exact .inr (.inl ⟨fun other member => saves other (mem_cons_of_mem _ member), ready⟩)
  · exact .inr (.inr ⟨noIndex, fun other member =>
      fails other (mem_cons_of_mem _ member)⟩)

theorem Holding.archives (holding : Holding store env (task :: rest) name)
    (named : name ≠ globalWorkspaceName) (coherent : Coherent store (task :: rest))
    (archives : Archives env task store next) : Holding next env rest name := by
  by_cases isName : task.workspace = name
  · have taskNamed : task.workspace ≠ globalWorkspaceName := by rwa [isName]
    rcases holding with noRecord | ⟨saves, ready⟩ | ⟨noIndex, fails⟩
    · left
      obtain ⟨record, _, _, ⟨_, same⟩ | ⟨saved, isSaved, _, _⟩⟩ := archives
      · rw [same]
        exact noRecord
      · obtain ⟨_, known, isIndex, _⟩ := withArchivedTask_eq_some isSaved
        rw [isName] at isIndex
        exact absurd (noRecord.symm.trans isIndex) (by simp)
    · right
      left
      rw [← isName] at ready ⊢
      refine ⟨?_, archives.ready coherent taskNamed ready⟩
      intro other member otherName
      exact saves other (mem_cons_of_mem _ member) (otherName.trans isName)
    · exfalso
      have failed := fails task mem_cons_self isName
      obtain ⟨record, _, _, ⟨nothing, _⟩ | ⟨saved, _, isOk, _⟩⟩ := archives
      · have sameIndex : indexOf (store.moveToArchive record) task.workspace = some none := by
          rw [isName]
          exact noIndex
        rcases withArchivedTask_eq_none taskNamed nothing with noRecord | ⟨ids, isIndex, _⟩
        · simp [sameIndex] at noRecord
        · simp [sameIndex] at isIndex
      · simp [failed] at isOk
  · exact holding.tail.sameView (archives.sameView coherent isName)

theorem Holding.fails (holding : Holding store env (task :: rest) name)
    (coherent : Coherent store (task :: rest)) (failed : FailsToArchive env task store next) :
    Exact next name := by
  rcases failed with same | ⟨record, isFound, isFree, something, isFail, isNext⟩
  · rw [same]
    exact holding.exact
  · rw [isNext]
    have isWorkspace := coherent task mem_cons_self record isFound isFree
    rw [← (Store.findTask_mem isFound).2] at isFree
    by_cases isName : task.workspace = name
    · rcases holding with noRecord | ⟨saves, _⟩ | ⟨noIndex, _⟩
      · exact exact_of_noIndex (.inl noRecord)
      · simp [saves task mem_cons_self isName] at isFail
      · exact exact_of_noIndex (.inr noIndex)
    · exact holding.exact.sameView (moveToArchive_sameView isFree (by rwa [isWorkspace]))

/-- The active tasks lie at the same paths, and the archive is the same. -/
structure SamePlaces (store next : Store) : Prop where
  archive : SameArchive store next
  paths : ∀ path : String × String, (∃ task ∈ store.tasks.entries, task.path = path) ↔
    ∃ task ∈ next.tasks.entries, task.path = path

theorem Coherent.samePlaces (coherent : Coherent store rest) (same : SamePlaces store next) :
    Coherent next rest := by
  intro task member after isAfter isFree
  rw [same.archive.archive] at isFree
  obtain ⟨entry, isEntry, entryPath⟩ :=
    (same.paths after.path).mpr ⟨after, (Store.findTask_mem isAfter).1, rfl⟩
  have entryId : entry.id = task.id :=
    (congrArg Prod.snd entryPath).trans (Store.findTask_mem isAfter).2
  obtain ⟨before, isBefore⟩ := Store.findTask_of_mem isEntry
  rw [entryId] at isBefore
  rw [Store.findTask_workspace isBefore isAfter fun path _ => same.paths path]
  exact coherent task member before isBefore isFree

theorem Coherent.archives (coherent : Coherent store (task :: rest))
    (archives : Archives env task store next) : Coherent next rest := by
  obtain ⟨record, isFound, isFree, isNext⟩ := archives
  have recordId := (Store.findTask_mem isFound).2
  have moved : next.tasks = (store.moveToArchive record).tasks ∧
      next.archive = (store.moveToArchive record).archive := by
    rcases isNext with ⟨_, same⟩ | ⟨saved, _, _, same⟩ <;> rw [same] <;> exact ⟨rfl, rfl⟩
  intro other member after isAfter otherFree
  have different : other.id ≠ task.id := by
    intro sameId
    rw [moved.2, Table.find?_eq_none_iff] at otherFree
    exact otherFree record (Table.mem_put.mpr (.inl rfl)) (recordId.trans sameId.symm)
  have samePaths : ∀ path : String × String, path.2 = other.id →
      ((∃ task ∈ store.tasks.entries, task.path = path) ↔
        ∃ task ∈ next.tasks.entries, task.path = path) := by
    intro path isId
    rw [moved.1]
    constructor
    · rintro ⟨entry, isEntry, isPath⟩
      refine ⟨entry, Table.mem_remove.mpr ⟨isEntry, ?_⟩, isPath⟩
      intro samePath
      have entryId : path.2 = record.id := by
        rw [← isPath]
        exact congrArg Prod.snd samePath
      exact different (isId.symm.trans (entryId.trans recordId))
    · rintro ⟨entry, isEntry, isPath⟩
      exact ⟨entry, (Table.mem_remove.mp isEntry).1, isPath⟩
  have isEntry : after ∈ store.tasks.entries := by
    have inNext := (Store.findTask_mem isAfter).1
    rw [moved.1] at inNext
    exact (Table.mem_remove.mp inNext).1
  obtain ⟨before, isBefore⟩ := Store.findTask_of_mem isEntry
  rw [(Store.findTask_mem isAfter).2] at isBefore
  rw [Store.findTask_workspace isBefore isAfter samePaths]
  refine coherent other (mem_cons_of_mem _ member) before isBefore ?_
  rw [moved.2] at otherFree
  unfold Store.moveToArchive at otherFree
  rwa [Table.find?_put, recordId, if_neg (Ne.symm different)] at otherFree

theorem coherent_of_found (found : ∀ task ∈ rest, store.findTask task.id = some task) :
    Coherent store rest := by
  intro task member record isFound _
  rw [found task member] at isFound
  cases isFound
  rfl

theorem findTask_of_listed {id : String} (isFound : store.findTask id = some task) :
    store.findTask task.id = some task := by
  rw [(Store.findTask_mem isFound).2]
  exact isFound

end

/-! ## The archivals -/

section
variable {store : Store} {env : Env}

theorem archiveSingleTask_exact (exact : AllExact store) {id : String}
    (appends : ∀ task, store.findTask id = some task → task.workspace ≠ globalWorkspaceName →
      AppendsExactly store env [task] task.workspace) :
    After (Store.archiveSingleTask env id) (fun _ => AllExact) AllExact store := by
  unfold Store.archiveSingleTask
  rw [after_bind, after_get, after_bind]
  refine after_lift ?_ exact
  intro task isLoaded
  have isFound := Store.loadTask_eq_ok isLoaded
  rw [after_bind]
  refine after_lift ?_ exact
  intro _ _
  have isListed := findTask_of_listed isFound
  rw [← (Store.findTask_mem isFound).2]
  have coherent : Coherent store [task] := coherent_of_found fun other member => by
    rw [mem_singleton.mp member]
    exact isListed
  have holding : ∀ name, name ≠ globalWorkspaceName → name = task.workspace →
      Holding store env [task] name := by
    intro name named isName
    rw [isName] at named ⊢
    exact .of_appends (appends task isFound named) (exact _ named)
  refine (after_archiveAndAppend env task store).mono ?_ ?_
  · intro _ next archives name named
    by_cases isName : name = task.workspace
    · exact ((holding name named isName).archives named coherent archives).exact
    · exact (exact name named).sameView (archives.sameView coherent (Ne.symm isName))
  · intro next failed name named
    by_cases isName : name = task.workspace
    · exact (holding name named isName).fails coherent failed
    · rcases failed with same | ⟨record, isRecord, isFree, _, _, isNext⟩
      · rw [same]
        exact exact name named
      · rw [isNext]
        have isWorkspace := coherent task mem_cons_self record isRecord isFree
        rw [← (Store.findTask_mem isRecord).2] at isFree
        refine (exact name named).sameView (moveToArchive_sameView isFree ?_)
        rw [isWorkspace]
        exact Ne.symm isName

theorem archiveTerminal_exact (exact : AllExact store) :
    After (Store.archiveTerminal env) (fun _ => AllExact) AllExact store := by
  unfold Store.archiveTerminal
  rw [after_bind, after_get, after_bind]
  let Invariant := fun (rest : List Task) (next : Store) =>
    Coherent next rest ∧ (∀ task ∈ rest, task.workspace = globalWorkspaceName) ∧ AllExact next
  have start : Invariant store.archiveableTasks store := by
    refine ⟨coherent_of_found ?_, ?_, exact⟩
    · intro task member
      obtain ⟨entry, _, isFound⟩ := Store.mem_listTasks.mp (List.mem_filter.mp member).1
      exact findTask_of_listed isFound
    · intro task member
      have chosen := (List.mem_filter.mp member).2
      rw [decide_eq_true_eq] at chosen
      exact chosen.2
  refine (after_forM Invariant start ?_).mono (fun _ _ holds => holds.2.2) (fun _ kept => kept)
  rintro task rest next ⟨coherent, areGlobal, nextExact⟩
  have isGlobal := areGlobal task mem_cons_self
  have different : ∀ {name}, name ≠ globalWorkspaceName → task.workspace ≠ name := by
    intro name named
    rw [isGlobal]
    exact Ne.symm named
  refine (after_archiveAndAppend env task next).mono ?_ ?_
  · intro _ last archives
    refine ⟨coherent.archives archives, fun other member =>
      areGlobal other (mem_cons_of_mem _ member), ?_⟩
    intro name named
    exact (nextExact name named).sameView (archives.sameView coherent (different named))
  · intro last failed
    rcases failed with same | ⟨record, isRecord, isFree, something, _, _⟩
    · rw [same]
      exact nextExact
    · exfalso
      apply something
      unfold Store.withArchivedTask
      rw [if_pos isGlobal]

theorem teardownTaskRuntimeForArchive_samePlaces (id : String) (store : Store) :
    After (Store.teardownTaskRuntimeForArchive env id) (fun _ => SamePlaces store)
      (fun next => next = store) store := by
  unfold Store.teardownTaskRuntimeForArchive
  simp only [after_bind, after_get]
  refine after_lift ?_ rfl
  intro _ _
  simp only [after_attempt, after_pure]
  refine ⟨fun _ => ?_, fun _ => trivial⟩
  refine (Store.after_updateTask env 0 id _ store).mono ?_ (fun _ same => same)
  rintro updated next ⟨isNext, before, isFound, isUpdated⟩
  cases isUpdated
  have samePath : ∀ detail now, (clearedTask before ⟨"system", "workspace archive"⟩ none detail
      now).path = before.path := fun _ _ => rfl
  rw [isNext]
  refine ⟨⟨rfl, rfl⟩, ?_⟩
  intro path
  constructor
  · rintro ⟨task, isEntry, isPath⟩
    by_cases isBefore : task.path = before.path
    · refine ⟨_, Table.mem_put.mpr (.inl rfl), ?_⟩
      rw [samePath, ← isPath]
      exact isBefore.symm
    · refine ⟨task, Table.mem_put.mpr (.inr ⟨isEntry, ?_⟩), isPath⟩
      rw [samePath]
      exact isBefore
  · rintro ⟨task, isEntry, isPath⟩
    rcases Table.mem_put.mp isEntry with isUpdated | ⟨isOld, _⟩
    · refine ⟨before, (Store.findTask_mem isFound).1, ?_⟩
      rw [← isPath, isUpdated, samePath]
    · exact ⟨task, isOld, isPath⟩

theorem after_archiveWorkspaceTask (env : Env) (task : Task) (store : Store) :
    After (Store.archiveWorkspaceTask env task)
      (fun _ next => ∃ torn, SamePlaces store torn ∧ Archives env task torn next)
      (fun next => ∃ torn, SamePlaces store torn ∧ FailsToArchive env task torn next) store := by
  unfold Store.archiveWorkspaceTask
  rw [after_bind]
  refine (teardownTaskRuntimeForArchive_samePlaces task.id store).mono ?_ ?_
  · intro _ torn places
    exact (after_archiveAndAppend env task torn).mono
      (fun _ _ archives => ⟨torn, places, archives⟩) (fun _ failed => ⟨torn, places, failed⟩)
  · intro next same
    exact ⟨store, ⟨.refl store, fun _ => Iff.rfl⟩, .inl same⟩

theorem coherent_of_listed (name : String) : Coherent store (store.listTasksInWorkspace name) := by
  refine coherent_of_found ?_
  intro task member
  obtain ⟨entry, _, _, isFound⟩ := Store.mem_listTasksInWorkspace.mp member
  exact findTask_of_listed isFound

variable {name : String}

/-- The loop of `ArchiveWorkspace`, seen from a workspace whose tasks it appends. -/
theorem archiveLoop_exact {other : String} (named : other ≠ globalWorkspaceName)
    (exact : Exact store other)
    (appends : AppendsExactly store env (store.listTasksInWorkspace name) other) :
    After ((store.listTasksInWorkspace name).forM fun task => Store.archiveWorkspaceTask env task)
      (fun _ next => Exact next other) (fun next => Exact next other) store := by
  let Invariant := fun (rest : List Task) (next : Store) =>
    Coherent next rest ∧ Holding next env rest other
  have start : Invariant (store.listTasksInWorkspace name) store :=
    ⟨coherent_of_listed name, .of_appends appends exact⟩
  refine (after_forM Invariant start ?_).mono (fun _ _ holds => holds.2.exact) (fun _ kept => kept)
  rintro task rest next ⟨coherent, holding⟩
  refine (after_archiveWorkspaceTask env task next).mono ?_ ?_
  · rintro _ last ⟨torn, places, archives⟩
    have tornCoherent := coherent.samePlaces places
    have tornHolding := holding.sameView (places.archive.sameView other)
    exact ⟨tornCoherent.archives archives, tornHolding.archives named tornCoherent archives⟩
  · rintro last ⟨torn, places, failed⟩
    exact (holding.sameView (places.archive.sameView other)).fails (coherent.samePlaces places)
      failed

theorem archiveLoop_sameView {other : String}
    (different : ∀ task ∈ store.listTasksInWorkspace name, task.workspace ≠ other) :
    After ((store.listTasksInWorkspace name).forM fun task => Store.archiveWorkspaceTask env task)
      (fun _ next => SameView store next other) (fun _ => True) store := by
  let Invariant := fun (rest : List Task) (next : Store) =>
    Coherent next rest ∧ (∀ task ∈ rest, task.workspace ≠ other) ∧ SameView store next other
  have start : Invariant (store.listTasksInWorkspace name) store :=
    ⟨coherent_of_listed name, different, .refl store other⟩
  have looped : After
      ((store.listTasksInWorkspace name).forM fun task => Store.archiveWorkspaceTask env task)
      (fun _ => Invariant []) (fun _ => True) store := by
    refine after_forM Invariant start ?_
    rintro task rest next ⟨coherent, areOthers, same⟩
    refine (after_archiveWorkspaceTask env task next).mono ?_ (fun _ _ => trivial)
    rintro _ last ⟨torn, places, archives⟩
    have tornCoherent := coherent.samePlaces places
    refine ⟨tornCoherent.archives archives, fun later member =>
      areOthers later (mem_cons_of_mem _ member), ?_⟩
    have moved := archives.sameView tornCoherent (areOthers task mem_cons_self)
    exact (same.trans (places.archive.sameView other)).trans moved
  exact looped.mono (fun _ _ holds => holds.2.2) (fun _ _ => trivial)

theorem checkArchiveWorkspace_record {workspace : Workspace}
    (isOk : store.checkArchiveWorkspace name = .ok workspace) :
    workspace.name = name ∧ indexOf store name = some workspace.archivedTaskIDs := by
  unfold Store.checkArchiveWorkspace at isOk
  obtain ⟨_, _, isOk⟩ := except_bind_eq_ok isOk
  obtain ⟨record, isLoaded, isOk⟩ := except_bind_eq_ok isOk
  obtain ⟨_, _, isOk⟩ := except_bind_eq_ok isOk
  obtain ⟨_, _, isOk⟩ := except_bind_eq_ok isOk
  obtain ⟨_, _, isOk⟩ := except_bind_eq_ok isOk
  obtain ⟨_, _, isOk⟩ := except_bind_eq_ok isOk
  cases isOk
  unfold Store.loadWorkspace at isLoaded
  split_ifs at isLoaded
  split at isLoaded
  · rename_i isRecord
    cases isLoaded
    refine ⟨(Table.find?_eq_some_iff.mp isRecord).2, ?_⟩
    unfold indexOf
    rw [isRecord]
    rfl
  · cases isLoaded

theorem archiveWorkspace_exact_other {other : String}
    (named : other ≠ globalWorkspaceName) (exact : Exact store other)
    (appends : AppendsExactly store env (store.listTasksInWorkspace name) other)
    (notCompleted : other = name → ¬ Completes store env name) :
    After (Store.archiveWorkspace env name) (fun _ next => Exact next other)
      (fun next => Exact next other) store := by
  have ran : After (Store.archiveWorkspace env name)
      (fun _ next => other ≠ name → Exact next other) (fun next => Exact next other) store := by
    unfold Store.archiveWorkspace
    rw [after_bind, after_get, after_bind]
    refine after_lift ?_ exact
    intro workspace isChecked
    rw [after_bind]
    refine (archiveLoop_exact named exact appends).mono ?_ (fun _ kept => kept)
    intro _ next nextExact
    simp only [after_bind, after_require, after_attempt, after_modify, after_pure]
    refine ⟨fun _ => ⟨fun _ different => ?_, fun _ => nextExact⟩, fun _ => nextExact⟩
    refine nextExact.sameView (putWorkspace_sameView ?_)
    rw [show ({ workspace with status := .archived, worktreePath := "" } : Workspace).name =
      workspace.name from rfl, (checkArchiveWorkspace_record isChecked).1]
    exact Ne.symm different
  unfold After at ran ⊢
  cases result : Store.archiveWorkspace env name store with
  | ok count next =>
    rw [result] at ran
    exact ran fun isName => notCompleted isName ⟨count, next, result⟩
  | error message next =>
    rwa [result] at ran

theorem archiveWorkspace_exact_completed (exact : Exact store name)
    (unchanged : indexOf store name = some none ∨
      ∀ task ∈ store.listTasksInWorkspace name, task.workspace ≠ name) :
    After (Store.archiveWorkspace env name) (fun _ next => Exact next name) (fun _ => True)
      store := by
  unfold Store.archiveWorkspace
  rw [after_bind, after_get, after_bind]
  refine after_lift ?_ trivial
  intro workspace isChecked
  obtain ⟨isName, isIndex⟩ := checkArchiveWorkspace_record isChecked
  let saved : Workspace := { workspace with status := .archived, worktreePath := "" }
  have savedIndex : ∀ next : Store, indexOf (next.putWorkspace saved) name =
      some (if workspace.archivedTaskIDs = some [] then none else workspace.archivedTaskIDs) := by
    intro next
    rw [indexOf_putWorkspace, if_pos (show saved.name = name from isName), marshaled_index]
  rw [after_bind]
  rcases unchanged with noIndex | isDeserted
  · refine .of_forall ?_ (fun _ => trivial)
    intro _ next
    simp only [after_bind, after_require, after_attempt, after_modify, after_pure]
    refine ⟨fun _ => ⟨fun _ => exact_of_noIndex (.inr ?_), fun _ => trivial⟩, fun _ => trivial⟩
    rw [isIndex] at noIndex
    rw [savedIndex, Option.some.inj noIndex]
    rfl
  · refine (archiveLoop_sameView isDeserted).mono ?_ (fun _ _ => trivial)
    intro _ next same
    simp only [after_bind, after_require, after_attempt, after_modify, after_pure]
    refine ⟨fun _ => ⟨fun _ => ?_, fun _ => trivial⟩, fun _ => trivial⟩
    intro ids isIds
    have wasIds : indexOf store name = some (some ids) := by
      rw [savedIndex] at isIds
      rw [isIndex]
      split_ifs at isIds
      · cases isIds
      · exact isIds
    have nextExact := exact.sameView same
    exact nextExact ids (same.index.trans wasIds)

theorem archiveWorkspace_exact (exact : AllExact store)
    (undisturbed : Undisturbed store ⟨env, .archiveWorkspace name⟩) :
    After (Store.archiveWorkspace env name) (fun _ => AllExact) AllExact store := by
  have each : ∀ other, other ≠ globalWorkspaceName →
      After (Store.archiveWorkspace env name) (fun _ next => Exact next other)
        (fun next => Exact next other) store := by
    intro other named
    by_cases completes : other = name → ¬ Completes store env name
    · exact archiveWorkspace_exact_other named (exact other named)
        (undisturbed.2 other named completes) completes
    · rw [Classical.not_imp, not_not] at completes
      obtain ⟨isName, count, next, result⟩ := completes
      have completed : After (Store.archiveWorkspace env name)
          (fun _ next => Exact next name) (fun _ => True) store :=
        archiveWorkspace_exact_completed (exact name (isName ▸ named))
          (undisturbed.1 ⟨count, next, result⟩)
      unfold After at completed ⊢
      rw [result] at completed ⊢
      rw [isName]
      exact completed
  unfold After at each ⊢
  cases result : Store.archiveWorkspace env name store with
  | ok count next | error message next =>
    intro other named
    have holds := each other named
    rwa [result] at holds

end

/-! ## The deletions -/

/-- The record is removed, and the index is saved when it must be. -/
def Deletes (id : String) (store next : Store) : Prop :=
  ∃ task, store.archive.find? id = some task ∧
    ((store.removeArchived id).withoutArchivedTask task = none ∧ next = store.removeArchived id ∨
      ∃ saved, (store.removeArchived id).withoutArchivedTask task = some saved ∧
        next = (store.removeArchived id).putWorkspace saved)

/-- Nothing is removed, or the index is not saved. -/
def FailsToDelete (env : Env) (id : String) (store next : Store) : Prop :=
  next = store ∨ ∃ task, store.archive.find? id = some task ∧
    (store.removeArchived id).withoutArchivedTask task ≠ none ∧
      env.fails (.saveIndex id) = true ∧ next = store.removeArchived id

section
variable {store next : Store} {env : Env} {id : String} {task : Task}

theorem checkDeleteArchivedTask_found
    (isOk : store.checkDeleteArchivedTask id = .ok task) : store.archive.find? id = some task := by
  unfold Store.checkDeleteArchivedTask at isOk
  split at isOk
  · split at isOk <;> cases isOk
  · rename_i found isFound
    split at isOk
    · cases isOk
      exact isFound
    · split_ifs at isOk
      cases isOk
      exact isFound

theorem after_deleteArchivedTask (env : Env) (id : String) (store : Store) :
    After (Store.deleteArchivedTask env id) (fun _ => Deletes id store)
      (FailsToDelete env id store) store := by
  unfold Store.deleteArchivedTask Store.removeArchivedTaskFromWorkspace
  simp only [after_bind, after_get]
  refine after_lift ?_ (.inl rfl)
  intro task isChecked
  have isFound := checkDeleteArchivedTask_found isChecked
  have isId := (Table.find?_eq_some_iff.mp isFound).2
  simp only [after_attempt, after_modify]
  refine ⟨fun _ => ?_, fun _ => .inl rfl⟩
  refine (Store.after_saveIndex env task.id _ (store.removeArchived id)).mono ?_ ?_
  · rintro _ last (⟨nothing, same⟩ | ⟨saved, isSaved, _, isLast⟩)
    · exact ⟨task, isFound, .inl ⟨nothing, same⟩⟩
    · exact ⟨task, isFound, .inr ⟨saved, isSaved, isLast⟩⟩
  · rintro last ⟨same, something, failed⟩
    rw [isId] at failed
    exact .inr ⟨task, isFound, something, failed, same⟩

theorem removeArchived_mem : task ∈ (store.removeArchived id).archive.entries ↔
      task ∈ store.archive.entries ∧ task.id ≠ id := Table.mem_remove

variable {name : String}

theorem removeArchived_sameView (isFound : store.archive.find? id = some task)
    (different : task.workspace ≠ name) : SameView store (store.removeArchived id) name := by
  obtain ⟨isEntry, isId⟩ := Table.find?_eq_some_iff.mp isFound
  refine ⟨rfl, ?_⟩
  intro other isName
  rw [removeArchived_mem]
  refine ⟨And.left, fun isOther => ⟨isOther, ?_⟩⟩
  intro sameId
  rw [store.archive.eq_of_key isOther isEntry (sameId.trans isId.symm)] at isName
  exact different isName

theorem Deletes.archive (deletes : Deletes id store next) :
    task ∈ next.archive.entries ↔ task ∈ store.archive.entries ∧ task.id ≠ id := by
  obtain ⟨found, _, ⟨_, same⟩ | ⟨saved, _, same⟩⟩ := deletes <;> rw [same] <;>
    exact removeArchived_mem

theorem Deletes.exact (deletes : Deletes id store next) (exact : AllExact store) :
    AllExact next := by
  intro name named
  obtain ⟨task, isFound, isNext⟩ := deletes
  obtain ⟨isEntry, isId⟩ := Table.find?_eq_some_iff.mp isFound
  by_cases isName : task.workspace = name
  · rw [← isName] at named ⊢
    have described : ∀ {ids}, indexOf store task.workspace = some (some ids) →
        task.id ∈ ids := fun isIndex =>
      ((exact _ named _ isIndex).2 task.id).mpr ⟨task, isEntry, rfl, rfl⟩
    rcases isNext with ⟨nothing, same⟩ | ⟨saved, isSaved, same⟩
    · rw [same]
      intro ids isIndex
      exact absurd (described isIndex) (withoutArchivedTask_eq_none named nothing isIndex)
    · obtain ⟨savedName, ids, isIndex, savedIndex⟩ := withoutArchivedTask_eq_some isSaved
      obtain ⟨nodup, holds⟩ := exact _ named ids isIndex
      rw [same]
      intro left isLeft
      rw [indexOf_putWorkspace, if_pos savedName, marshaled_index, savedIndex] at isLeft
      split_ifs at isLeft
      · cases isLeft
      · rw [← Option.some.inj (Option.some.inj isLeft)]
        refine ⟨nodup.filter _, ?_⟩
        intro other
        show _ ↔ ∃ kept ∈ (store.removeArchived id).archive.entries, _
        rw [List.mem_filter, holds, decide_eq_true_eq, isId]
        constructor
        · rintro ⟨⟨kept, isKept, keptId, keptName⟩, different⟩
          refine ⟨kept, removeArchived_mem.mpr ⟨isKept, ?_⟩, keptId, keptName⟩
          rw [keptId]
          exact different
        · rintro ⟨kept, isKept, keptId, keptName⟩
          obtain ⟨wasKept, different⟩ := removeArchived_mem.mp isKept
          rw [keptId] at different
          exact ⟨⟨kept, wasKept, keptId, keptName⟩, different⟩
  · have removed := removeArchived_sameView isFound isName
    rcases isNext with ⟨_, same⟩ | ⟨saved, isSaved, same⟩
    · rw [same]
      exact (exact name named).sameView removed
    · rw [same]
      refine ((exact name named).sameView removed).sameView (putWorkspace_sameView ?_)
      rw [(withoutArchivedTask_eq_some isSaved).1]
      exact isName

theorem FailsToDelete.exact (failed : FailsToDelete env id store next) (exact : AllExact store)
    (saves : ∀ task, store.archive.find? id = some task →
      ∀ ids, indexOf store task.workspace = some (some ids) → env.fails (.saveIndex id) = false) :
    AllExact next := by
  rcases failed with same | ⟨task, isFound, something, isFail, _⟩
  · rw [same]
    exact exact
  · exfalso
    cases isSaved : (store.removeArchived id).withoutArchivedTask task with
    | none => exact something isSaved
    | some saved =>
      obtain ⟨_, ids, isIndex, _⟩ := withoutArchivedTask_eq_some isSaved
      simp [saves task isFound ids isIndex] at isFail

theorem deleteArchivedTask_exact (exact : AllExact store)
    (saves : ∀ task, store.archive.find? id = some task →
      ∀ ids, indexOf store task.workspace = some (some ids) → env.fails (.saveIndex id) = false) :
    After (Store.deleteArchivedTask env id) (fun _ => AllExact) AllExact store :=
  (after_deleteArchivedTask env id store).mono (fun _ _ deletes => deletes.exact exact)
    (fun _ failed => failed.exact exact saves)

theorem Deletes.noIndex (deletes : Deletes id store next)
    (noIndex : ∀ ids, indexOf store name ≠ some (some ids)) :
    ∀ ids, indexOf next name ≠ some (some ids) := by
  intro ids isIndex
  obtain ⟨task, _, ⟨_, same⟩ | ⟨saved, isSaved, same⟩⟩ := deletes
  · rw [same] at isIndex
    exact noIndex ids isIndex
  · obtain ⟨savedName, known, wasIndex, _⟩ := withoutArchivedTask_eq_some isSaved
    rw [same, indexOf_putWorkspace] at isIndex
    split_ifs at isIndex with isName
    · rw [← isName, savedName] at noIndex
      exact noIndex known wasIndex
    · exact noIndex ids isIndex

theorem checkDeleteArchivedWorkspace_listed {archived : List Task}
    (isOk : store.checkDeleteArchivedWorkspace name = .ok archived) (exact : AllExact store) :
    name ≠ globalWorkspaceName ∧ ∀ task, task ∈ archived ↔
      task ∈ store.archive.entries ∧ task.workspace = name := by
  unfold Store.checkDeleteArchivedWorkspace at isOk
  obtain ⟨_, isNamed, isOk⟩ := except_bind_eq_ok isOk
  obtain ⟨workspace, isLoaded, isOk⟩ := except_bind_eq_ok isOk
  obtain ⟨_, _, isOk⟩ := except_bind_eq_ok isOk
  obtain ⟨listed, isListed, isOk⟩ := except_bind_eq_ok isOk
  obtain ⟨_, _, isOk⟩ := except_bind_eq_ok isOk
  obtain ⟨_, _, isOk⟩ := except_bind_eq_ok isOk
  obtain ⟨_, _, isOk⟩ := except_bind_eq_ok isOk
  cases isOk
  have named := demand_eq_ok isNamed
  have hasRecord : indexOf store name ≠ none := by
    intro noRecord
    unfold indexOf at noRecord
    unfold Store.loadWorkspace at isLoaded
    simp [if_neg named, Option.map_eq_none_iff.mp noRecord] at isLoaded
  obtain ⟨described, isDescribed, isPerm, _⟩ := listsArchived exact name named hasRecord
  rw [isListed] at isDescribed
  cases isDescribed
  refine ⟨named, fun task => ?_⟩
  rw [isPerm.mem_iff, List.mem_filter, decide_eq_true_eq]

theorem removeWorkspaceDir_exact (exact : AllExact store) (name : String) :
    AllExact (store.removeWorkspaceDir name) := by
  intro other named
  have isIndex : indexOf (store.removeWorkspaceDir name) other =
      if other = name then none else indexOf store other := by
    unfold indexOf Store.removeWorkspaceDir
    rw [Table.find?_remove]
    split <;> rfl
  by_cases isName : other = name
  · rw [if_pos isName] at isIndex
    exact exact_of_noIndex (.inl isIndex)
  · rw [if_neg isName] at isIndex
    exact (exact other named).sameView ⟨isIndex, fun _ _ => Iff.rfl⟩

/-- What the loop of `DeleteArchivedWorkspace` keeps: it saves the index while there is
one, and deletes only archived tasks of the workspace. -/
structure Deleting (start : Store) (env : Env) (name : String) (rest : List Task)
    (store : Store) : Prop where
  exact : AllExact store
  archived : ∀ task ∈ store.archive.entries, task ∈ start.archive.entries
  listed : ∀ task ∈ rest, task ∈ start.archive.entries ∧ task.workspace = name
  saves : (∀ ids, indexOf store name ≠ some (some ids)) ∨ SavesIndex env start.archive.entries name

theorem Deleting.turn {start : Store} {rest : List Task}
    (deleting : Deleting start env name (task :: rest) store) :
    After (Store.deleteArchivedTask env task.id) (fun _ => Deleting start env name rest) AllExact
      store := by
  obtain ⟨isArchived, isName⟩ := deleting.listed task mem_cons_self
  refine (after_deleteArchivedTask env task.id store).mono ?_ ?_
  · intro _ next deletes
    refine ⟨deletes.exact deleting.exact, ?_, ?_, ?_⟩
    · intro other isOther
      exact deleting.archived other (deletes.archive.mp isOther).1
    · intro other member
      exact deleting.listed other (mem_cons_of_mem _ member)
    · rcases deleting.saves with noIndex | saves
      · exact .inl (deletes.noIndex noIndex)
      · exact .inr saves
  · intro next failed
    refine failed.exact deleting.exact ?_
    intro found isFound ids isIndex
    obtain ⟨isEntry, isId⟩ := Table.find?_eq_some_iff.mp isFound
    have isTask := start.archive.eq_of_key (deleting.archived found isEntry) isArchived isId
    rw [isTask, isName] at isIndex
    rcases deleting.saves with noIndex | saves
    · exact absurd isIndex (noIndex ids)
    · exact saves task isArchived isName

theorem deleteArchivedWorkspace_exact (exact : AllExact store)
    (saves : ∀ ids, indexOf store name = some (some ids) →
      SavesIndex env store.archive.entries name) :
    After (Store.deleteArchivedWorkspace env name) (fun _ => AllExact) AllExact store := by
  unfold Store.deleteArchivedWorkspace
  rw [after_bind, after_get, after_bind]
  refine after_lift ?_ exact
  intro archived isChecked
  rw [after_bind]
  have start : Deleting store env name archived store := by
    refine ⟨exact, fun _ member => member, ?_, ?_⟩
    · intro task member
      exact ((checkDeleteArchivedWorkspace_listed isChecked exact).2 task).mp member
    · by_cases isIndex : ∃ ids, indexOf store name = some (some ids)
      · obtain ⟨ids, isIndex⟩ := isIndex
        exact .inr (saves ids isIndex)
      · exact .inl fun ids isIds => isIndex ⟨ids, isIds⟩
  refine (after_forM (Deleting store env name) start ?_).mono ?_ (fun _ kept => kept)
  · intro task rest next deleting
    exact deleting.turn
  · intro _ next deleting
    simp only [after_bind, after_attempt, after_modify, after_pure]
    exact ⟨fun _ => removeWorkspaceDir_exact deleting.exact name, fun _ => deleting.exact⟩

theorem deletesArchived (exact : AllExact store) : DeletesArchived store := by
  intro env name count next deleted
  have ran : After (Store.deleteArchivedWorkspace env name)
      (fun _ next => ∀ task ∈ next.archive.entries, task.workspace ≠ name) (fun _ => True)
      store := by
    unfold Store.deleteArchivedWorkspace
    rw [after_bind, after_get, after_bind]
    refine after_lift ?_ trivial
    intro archived isChecked
    rw [after_bind]
    let Invariant := fun (rest : List Task) (next : Store) =>
      ∀ task ∈ next.archive.entries, task.workspace = name → task ∈ rest
    have start : Invariant archived store := fun task isEntry isName =>
      ((checkDeleteArchivedWorkspace_listed isChecked exact).2 task).mpr ⟨isEntry, isName⟩
    have looped : After (archived.forM fun task => Store.deleteArchivedTask env task.id)
        (fun _ => Invariant []) (fun _ => True) store := by
      refine after_forM Invariant start ?_
      intro task rest before covered
      refine (after_deleteArchivedTask env task.id before).mono ?_ (fun _ _ => trivial)
      intro _ after deletes other isOther isName
      obtain ⟨wasThere, different⟩ := deletes.archive.mp isOther
      rcases List.mem_cons.mp (covered other wasThere isName) with isTask | isLater
      · rw [isTask] at different
        exact absurd rfl different
      · exact isLater
    refine looped.mono ?_ (fun _ _ => trivial)
    intro _ last covered
    simp only [after_bind, after_attempt, after_modify, after_pure]
    refine ⟨fun _ task isEntry isName => ?_, fun _ => trivial⟩
    exact not_mem_nil (covered task isEntry isName)
  exact ran.ok deleted

end

/-! ## The other commands -/

/-- The command does not touch the archive or the records of the workspaces. -/
def KeepsArchive {α : Type} (action : Action α) : Prop :=
  ∀ store, After action (fun _ => SameArchive store) (SameArchive store) store

section
variable {store : Store} {env : Env} {α : Type}

theorem KeepsArchive.exact {action : Action α} (keeps : KeepsArchive action)
    (exact : AllExact store) : After action (fun _ => AllExact) AllExact store :=
  (keeps store).mono
    (fun _ _ same name named => (exact name named).sameView (same.sameView name))
    (fun _ same name named => (exact name named).sameView (same.sameView name))

theorem KeepsArchive.bind {β : Type} {action : Action α} {later : α → Action β}
    (first : KeepsArchive action) (second : ∀ result, KeepsArchive (later result)) :
    KeepsArchive (action >>= later) := by
  intro store
  rw [after_bind]
  refine (first store).mono ?_ (fun _ same => same)
  intro result next same
  exact (second result next).mono (fun _ _ sameToo => same.trans sameToo)
    (fun _ sameToo => same.trans sameToo)

theorem KeepsArchive.ignoring {action : Action α} (keeps : KeepsArchive action) :
    KeepsArchive (ignoring action) := fun store => after_ignoring.mpr (keeps store)

theorem keepsArchive_get : KeepsArchive (get : Action Store) := fun store => .refl store

theorem keepsArchive_lift (value : Except String α) : KeepsArchive (lift value : Action α) :=
  fun store => after_lift (fun _ _ => .refl store) (.refl store)

theorem keepsArchive_throw (error : String) :
    KeepsArchive (throw error : Action α) := fun store => .refl store

theorem saveTask_keepsArchive (update : Nat) (task : Task) :
    KeepsArchive (Store.saveTask env update task) := by
  intro store
  refine (Store.after_saveTask env update task store).mono ?_ ?_
  · intro _ next isNext
    rw [isNext]
    exact ⟨rfl, rfl⟩
  · intro next same
    rw [same]
    exact .refl store

theorem updateTask_keepsArchive (update : Nat) (id : String) (fn : Task → Except String Task) :
    KeepsArchive (Store.updateTask env update id fn) := by
  intro store
  refine (Store.after_updateTask env update id fn store).mono ?_ ?_
  · rintro _ next ⟨isNext, _⟩
    rw [isNext]
    exact ⟨rfl, rfl⟩
  · intro next same
    rw [same]
    exact .refl store

theorem depTask_keepsArchive (id : String) (after : List String) :
    KeepsArchive (Store.depTask env id after) := by
  intro store
  unfold Store.depTask
  rw [after_bind, after_require]
  refine ⟨fun _ => ?_, fun _ => .refl store⟩
  exact (keepsArchive_get.bind fun store => (keepsArchive_lift _).bind fun task =>
    (keepsArchive_lift _).bind fun _ => saveTask_keepsArchive _ _) store

theorem assignTask_keepsArchive (id : String) (source : LaunchSource) (masterIRC : String) :
    KeepsArchive (Store.assignTask env id source masterIRC) := by
  have finalizes : ∀ prev, KeepsArchive (Store.finalizeAssignedTaskSpawn env id source prev) := by
    intro prev
    unfold Store.finalizeAssignedTaskSpawn
    split_ifs
    · exact (updateTask_keepsArchive _ _ _).ignoring.bind fun _ => keepsArchive_throw _
    · exact (updateTask_keepsArchive _ _ _).ignoring.bind fun _ => keepsArchive_throw _
    · exact updateTask_keepsArchive _ _ _
  exact keepsArchive_get.bind fun store => (keepsArchive_lift _).bind fun before =>
    (keepsArchive_get.bind fun store => updateTask_keepsArchive _ _ _).bind fun _ => finalizes _

theorem autoAssignDependents_keepsArchive (completedID : String) :
    KeepsArchive (Store.autoAssignDependents env completedID) := by
  intro store
  unfold Store.autoAssignDependents
  rw [after_bind, after_get]
  refine after_forM (fun _ => SameArchive store) (.refl store) ?_
  intro dep _ next same
  unfold Store.autoAssign
  rw [after_bind, after_get]
  split_ifs
  · rw [after_bind, after_ignoring]
    exact (assignTask_keepsArchive _ _ _ next).mono (fun _ _ sameToo => same.trans sameToo)
      (fun _ sameToo => same.trans sameToo)
  · exact same

theorem failTask_keepsArchive (id : String) (source : LaunchSource) (note : String) :
    KeepsArchive (Store.failTask env id source note) :=
  (updateTask_keepsArchive _ _ _).bind fun _ => updateTask_keepsArchive _ _ _

theorem cancelTask_keepsArchive (id : String) (source : LaunchSource) (note : String) :
    KeepsArchive (Store.cancelTask env id source note) :=
  (updateTask_keepsArchive _ _ _).bind fun _ => updateTask_keepsArchive _ _ _

theorem ensureWorkspace_exact (exact : AllExact store) (name : String) :
    After (Store.ensureWorkspace env name) (fun _ => AllExact) AllExact store := by
  unfold Store.ensureWorkspace
  split
  · exact exact
  · simp only [after_bind, after_get, after_require, after_attempt, after_modify]
    refine ⟨fun _ => ⟨fun _ => ⟨fun _ => ?_, fun _ => exact⟩, fun _ => exact⟩, fun _ => exact⟩
    intro other named
    let saved : Workspace := { store.loadOrInitWorkspace name with worktreePath := env.worktreePath }
    have savedName : saved.name = name := by
      show (store.loadOrInitWorkspace name).name = name
      unfold Store.loadOrInitWorkspace
      cases isRecord : store.workspaces.find? name with
      | none => rfl
      | some workspace => exact (Table.find?_eq_some_iff.mp isRecord).2
    by_cases isName : name = other
    · have savedIndex : indexOf (store.putWorkspace saved) other =
          some saved.marshaled.archivedTaskIDs := by
        rw [indexOf_putWorkspace, if_pos (savedName.trans isName)]
      intro ids isIndex
      rw [savedIndex, marshaled_index] at isIndex
      split_ifs at isIndex with isEmpty
      · cases isIndex
      · refine exact other named ids ?_
        rw [← isIndex, ← isName]
        unfold indexOf
        show _ = some (store.loadOrInitWorkspace name).archivedTaskIDs
        unfold Store.loadOrInitWorkspace
        cases isRecord : store.workspaces.find? name with
        | none =>
          exfalso
          apply isEmpty
          show (store.loadOrInitWorkspace name).archivedTaskIDs = some []
          unfold Store.loadOrInitWorkspace
          rw [isRecord]
          rfl
        | some workspace => rfl
    · exact (exact other named).sameView
        (putWorkspace_sameView (by rwa [show saved.name = name from savedName]))

theorem createTask_exact (exact : AllExact store) (spec : NewTask) :
    After (Store.createTask env spec) (fun _ => AllExact) AllExact store := by
  unfold Store.createTask
  simp only [after_bind, after_get, after_require]
  refine ⟨fun _ => ⟨fun _ => ?_, fun _ => exact⟩, fun _ => exact⟩
  refine (ensureWorkspace_exact exact spec.workspace).mono ?_ (fun _ kept => kept)
  intro _ next nextExact
  exact ⟨fun _ => (saveTask_keepsArchive _ _).exact nextExact, fun _ => nextExact⟩

end

theorem command_exact {store : Store} (exact : AllExact store) {line : CommandLine}
    (undisturbed : Undisturbed store line) :
    After (line.command.run line.env) (fun _ => AllExact) AllExact store := by
  obtain ⟨env, command⟩ := line
  have updates : ∀ id fn, After (discard (Store.updateTask env 0 id fn)) (fun _ => AllExact)
      AllExact store :=
    fun id fn => after_discard.mpr ((updateTask_keepsArchive 0 id fn).exact exact)
  cases command with
  | create spec => exact createTask_exact exact spec
  | dep id after => exact (depTask_keepsArchive id after).exact exact
  | assign id source masterIRC =>
    exact after_discard.mpr ((assignTask_keepsArchive id source masterIRC).exact exact)
  | autoAssign completedID => exact (autoAssignDependents_keepsArchive completedID).exact exact
  | start id source note | review id source note | requestChanges id source note
  | approve id source note | complete id source note | note id source text
  | changeType id newType => exact updates id _
  | fail id source note =>
    exact after_discard.mpr ((failTask_keepsArchive id source note).exact exact)
  | cancel id source note =>
    exact after_discard.mpr ((cancelTask_keepsArchive id source note).exact exact)
  | archiveTask id => exact archiveSingleTask_exact exact undisturbed
  | archiveTerminal => exact after_discard.mpr (archiveTerminal_exact exact)
  | archiveWorkspace name => exact after_discard.mpr (archiveWorkspace_exact exact undisturbed)
  | deleteArchivedTask id => exact deleteArchivedTask_exact exact undisturbed
  | deleteArchivedWorkspace name =>
    exact after_discard.mpr (deleteArchivedWorkspace_exact exact undisturbed)

/-- **The index is exact as long as no archival overwrites it or starts it late.** -/
theorem indexRespected {start store : Store} (exact : AllExact start)
    (run : Run Store.step Undisturbed start store) : ListsArchived store ∧ DeletesArchived store := by
  have always : AllExact store := run.invariant exact fun _ _ _ before undisturbed stepped =>
    Store.step_after (command_exact before undisturbed) stepped
  exact ⟨listsArchived always, deletesArchived always⟩

theorem empty_exact : AllExact .empty := fun _ _ => exact_of_noIndex (.inl rfl)

def cli : LaunchSource := ⟨"cli", "task"⟩

def laneTask (id : String) : NewTask := ⟨id, "t", "coding", "lane", "", "", false⟩

/-- One task is archived by itself, the other with the workspace, which saves the index
as it was before. -/
def archivedTwice : List Command :=
  [.create (laneTask "a"), .create (laneTask "b"), .cancel "a" cli "", .cancel "b" cli "",
    .archiveTask "a", .archiveWorkspace "lane"]

theorem not_indexRespected : ¬ IndexRespected fun _ _ => True := by
  intro respected
  obtain ⟨store, replayed, count, next, deleted, task, isLeft, isLane⟩ :
      ∃ store, execute Store.step .empty (archivedTwice.map (⟨quietEnv, ·⟩)) = some store ∧
        ∃ count next, Store.deleteArchivedWorkspace quietEnv "lane" store = .ok count next ∧
          ∃ task ∈ next.archive.entries, task.workspace = "lane" :=
    ⟨_, rfl, _, _, rfl, _, List.mem_singleton_self _, rfl⟩
  have reached := reachable_of_execute _ replayed
  exact (respected .empty store empty_exact reached).2 _ _ _ _ deleted task isLeft isLane

/-- A task is canceled and archived. -/
def archivedOnce : List Command :=
  [.create (laneTask "a"), .cancel "a" cli "", .archiveTask "a"]

theorem indexRespected_archivedOnce :
    ∃ store, Run Store.step Undisturbed .empty store ∧ ListsArchived store ∧
      store.countArchivedTasksInWorkspace "lane" = .ok 1 := by
  obtain ⟨store, replayed, counted⟩ :
      ∃ store, execute Store.step .empty (archivedOnce.map (⟨quietEnv, ·⟩)) = some store ∧
        store.countArchivedTasksInWorkspace "lane" = .ok 1 :=
    ⟨_, rfl, rfl⟩
  have permitted : Permitted Store.step Undisturbed .empty
      (archivedOnce.map (⟨quietEnv, ·⟩)) := by
    refine ⟨trivial, _, rfl, trivial, _, rfl, ?_, _, rfl, trivial⟩
    intro task _ _
    refine .inr (Or.inl ⟨fun _ _ _ => rfl, ?_⟩)
    intro _ other member
    exact absurd member not_mem_nil
  have run := run_of_permitted _ permitted replayed
  exact ⟨store, run, (indexRespected empty_exact run).1, counted⟩

end AiTools.Whip.ArchiveIndex
