import AiTools.Whip.TaskFiles

/-!
Contract: a task is either active or archived, under every order of the file operations.
-/

namespace AiTools.Whip.TaskFiles

open AiTools.Lib.Transition
open Function (update_apply update_of_ne)

def System.Active (sys : System) (task : Task) : Prop :=
  ∃ workspace dir, sys.taskDirs workspace = some dir ∧ sys.records dir = some task

def System.Archived (sys : System) (task : Task) : Prop :=
  ∃ dir, sys.archiveDir = some dir ∧ sys.records dir = some task

/-- In every run whose steps all meet `ok`, an archived task is not active, is the last
record that was written, and stays archived and not active from there on. -/
def ArchivingSafe (ok : System → Label → Prop) : Prop :=
  ∀ sys, Run step ok .initial sys → ∀ archived, sys.Archived archived →
    (∀ task, ¬ sys.Active task) ∧ sys.written = some archived ∧
      ∀ later, Run step ok sys later → later.Archived archived ∧ ∀ task, ¬ later.Active task

/-- The operation has written its temporary file and is about to rename it into the
directory. -/
def System.HasTemp (sys : System) (task : Task) (dir : Nat) : Prop :=
  ∃ op lock, sys.ops op = some (.tempWritten task dir lock)

/-- The workspace holds a record of the task, or is about to. -/
def System.HoldsRecord (sys : System) (workspace : String) : Prop :=
  ∃ dir, sys.taskDirs workspace = some dir ∧ (sys.records dir ≠ none ∨
      ∃ task, sys.HasTemp task dir ∧ task.workspace = workspace)

/-- A record's temporary file is created only while the task is not archived, and the
archival finds the record in one workspace only. -/
def Undisturbed (sys : System) : Label → Prop
  | .advance op =>
    (∀ task lock, sys.ops op = some (.creating task lock) → sys.archiveDir = none) ∧
      ∀ src, sys.ops op = some (.archiving src) →
        ∀ workspace, workspace ≠ src → ¬ sys.HoldsRecord workspace
  | _ => True

structure Sound (sys : System) : Prop where
  dirBelow : ∀ {workspace dir}, sys.taskDirs workspace = some dir → dir < sys.nextDir
  archiveBelow : ∀ {dir}, sys.archiveDir = some dir → dir < sys.nextDir
  tempBelow : ∀ {task dir}, sys.HasTemp task dir → dir < sys.nextDir
  freshEmpty : ∀ {dir}, sys.nextDir ≤ dir → sys.records dir = none
  apart : ∀ {workspace other dir}, sys.taskDirs workspace = some dir →
    sys.taskDirs other = some dir → workspace = other
  archiveApart : ∀ {workspace dir}, sys.taskDirs workspace = some dir →
    sys.archiveDir ≠ some dir
  writtenActive : sys.archiveDir = none → ∀ {task}, sys.written = some task →
    sys.Active task
  activeWritten : sys.archiveDir = none → ∀ {task}, sys.Active task → sys.written ≠ none
  archivedWritten : ∀ {dir}, sys.archiveDir = some dir → sys.records dir = sys.written
  notActive : ∀ {archive}, sys.archiveDir = some archive → ∀ {workspace dir},
    sys.taskDirs workspace = some dir → sys.records dir = none
  noTemp : ∀ {archive}, sys.archiveDir = some archive → ∀ {task dir},
    sys.HasTemp task dir → sys.taskDirs task.workspace ≠ some dir

theorem initial_sound : Sound .initial where
  dirBelow := by simp [System.initial]
  archiveBelow := by simp [System.initial]
  tempBelow := by simp [System.HasTemp, System.initial]
  freshEmpty := fun _ => rfl
  apart := by simp [System.initial]
  archiveApart := by simp [System.initial]
  writtenActive := by simp [System.initial]
  activeWritten := by simp [System.Active, System.initial]
  archivedWritten := by simp [System.initial]
  notActive := by simp [System.initial]
  noTemp := by simp [System.initial]

/-- The two systems hold the same directories, and no operation has come to its rename. -/
structure SameStore (sys next : System) : Prop where
  taskDirs : next.taskDirs = sys.taskDirs
  archiveDir : next.archiveDir = sys.archiveDir
  records : next.records = sys.records
  nextDir : next.nextDir = sys.nextDir
  written : next.written = sys.written
  hasTemp : ∀ {task dir}, next.HasTemp task dir → sys.HasTemp task dir

variable {sys next : System} {op dir : Nat} {operation : Operation} {task : Task} {label : Label}

theorem Sound.sameStore (sound : Sound sys) (same : SameStore sys next) : Sound next := by
  have active : ∀ task, next.Active task ↔ sys.Active task := by
    intro task
    unfold System.Active
    rw [same.taskDirs, same.records]
  exact {
    dirBelow := by
      rw [same.taskDirs, same.nextDir]
      exact sound.dirBelow
    archiveBelow := by
      rw [same.archiveDir, same.nextDir]
      exact sound.archiveBelow
    tempBelow := by
      intro task dir hasTemp
      rw [same.nextDir]
      exact sound.tempBelow (same.hasTemp hasTemp)
    freshEmpty := by
      rw [same.records, same.nextDir]
      exact sound.freshEmpty
    apart := by
      rw [same.taskDirs]
      exact sound.apart
    archiveApart := by
      rw [same.taskDirs, same.archiveDir]
      exact sound.archiveApart
    writtenActive := by
      intro unarchived task written
      rw [same.archiveDir] at unarchived
      rw [same.written] at written
      rw [active]
      exact sound.writtenActive unarchived written
    activeWritten := by
      intro unarchived task isActive
      rw [same.archiveDir] at unarchived
      rw [active] at isActive
      rw [same.written]
      exact sound.activeWritten unarchived isActive
    archivedWritten := by
      rw [same.archiveDir, same.records, same.written]
      exact sound.archivedWritten
    notActive := by
      rw [same.archiveDir, same.taskDirs, same.records]
      exact sound.notActive
    noTemp := by
      intro archive isArchive task dir hasTemp
      rw [same.archiveDir] at isArchive
      rw [same.taskDirs]
      exact sound.noTemp isArchive (same.hasTemp hasTemp) }

/-! ## The store operations -/

theorem goto_sameStore (sys : System)
    (noTemp : ∀ task dir lock, operation ≠ .tempWritten task dir lock) :
    SameStore sys (sys.goto op operation) where
  taskDirs := rfl
  archiveDir := rfl
  records := rfl
  nextDir := rfl
  written := rfl
  hasTemp := by
    rintro task dir ⟨other, lock, isTemp⟩
    simp only [System.goto] at isTemp
    rw [update_apply] at isTemp
    split_ifs at isTemp with same
    · exact absurd (Option.some.inj isTemp) (noTemp task dir lock)
    · exact ⟨other, lock, isTemp⟩

theorem without_temp
    (hasTemp : ({ sys with ops := Function.update sys.ops op none } : System).HasTemp
      task dir) : sys.HasTemp task dir := by
  obtain ⟨other, lock, isTemp⟩ := hasTemp
  dsimp only at isTemp
  rw [update_apply] at isTemp
  split_ifs at isTemp
  exact ⟨other, lock, isTemp⟩

theorem finish_sameStore (sys : System) (op lock : Nat) :
    SameStore sys (sys.finish op lock) where
  taskDirs := rfl
  archiveDir := rfl
  records := rfl
  nextDir := rfl
  written := rfl
  hasTemp := without_temp

theorem ensurePrivateDir_sound (sound : Sound sys) (workspace : String) :
    Sound (sys.ensurePrivateDir workspace) := by
  unfold System.ensurePrivateDir
  split
  · exact sound
  · next missing =>
    have entry : ∀ {other dir}, Function.update sys.taskDirs workspace
        (some sys.nextDir) other = some dir →
        (other = workspace ∧ dir = sys.nextDir) ∨ sys.taskDirs other = some dir := by
      intro other dir isEntry
      rw [update_apply] at isEntry
      split_ifs at isEntry with same
      · exact .inl ⟨same, (Option.some.inj isEntry).symm⟩
      · exact .inr isEntry
    have kept : ∀ {task}, sys.Active task → ∃ other dir,
        Function.update sys.taskDirs workspace (some sys.nextDir) other = some dir ∧
          sys.records dir = some task := by
      rintro task ⟨other, dir, isDir, isRecord⟩
      refine ⟨other, dir, ?_, isRecord⟩
      have different : other ≠ workspace := by
        intro same
        rw [same, missing] at isDir
        contradiction
      rw [update_of_ne different]
      exact isDir
    exact {
      dirBelow := by
        intro other dir isEntry
        show dir < sys.nextDir + 1
        rcases entry isEntry with ⟨_, isNew⟩ | isOld
        · omega
        · have below := sound.dirBelow isOld
          omega
      archiveBelow := fun isArchive => Nat.lt_succ_of_lt (sound.archiveBelow isArchive)
      tempBelow := fun hasTemp => Nat.lt_succ_of_lt (sound.tempBelow hasTemp)
      freshEmpty := fun fresh => sound.freshEmpty (Nat.le_of_succ_le fresh)
      apart := by
        intro first second dir isFirst isSecond
        rcases entry isFirst with ⟨firstIs, isNew⟩ | firstOld
        · rcases entry isSecond with ⟨secondIs, _⟩ | secondOld
          · rw [firstIs, secondIs]
          · have below := sound.dirBelow secondOld
            omega
        · rcases entry isSecond with ⟨_, isNew⟩ | secondOld
          · have below := sound.dirBelow firstOld
            omega
          · exact sound.apart firstOld secondOld
      archiveApart := by
        intro other dir isEntry isArchive
        rcases entry isEntry with ⟨_, isNew⟩ | isOld
        · have below := sound.archiveBelow isArchive
          omega
        · exact sound.archiveApart isOld isArchive
      writtenActive := fun unarchived _ written => kept (sound.writtenActive unarchived written)
      activeWritten := by
        rintro unarchived task ⟨other, dir, isEntry, isRecord⟩
        rcases entry isEntry with ⟨_, isNew⟩ | isOld
        · have empty := sound.freshEmpty (Nat.le_of_eq isNew.symm)
          rw [show sys.records dir = some task from isRecord] at empty
          contradiction
        · exact sound.activeWritten unarchived ⟨other, dir, isOld, isRecord⟩
      archivedWritten := sound.archivedWritten
      notActive := by
        intro archive isArchive other dir isEntry
        rcases entry isEntry with ⟨_, isNew⟩ | isOld
        · exact sound.freshEmpty (Nat.le_of_eq isNew.symm)
        · exact sound.notActive isArchive isOld
      noTemp := by
        intro archive isArchive task dir hasTemp isEntry
        rcases entry isEntry with ⟨_, isNew⟩ | isOld
        · have below := sound.tempBelow hasTemp
          omega
        · exact sound.noTemp isArchive hasTemp isOld }

theorem creating_sound (sound : Sound sys) {lock : Nat} (unarchived : sys.archiveDir = none)
    (isDir : sys.taskDirs task.workspace = some dir) :
    Sound (sys.goto op (.tempWritten task dir lock)) := by
  have renames : ∀ {other place}, (sys.goto op (.tempWritten task dir lock)).HasTemp other place →
      (other = task ∧ place = dir) ∨ sys.HasTemp other place := by
    rintro other place ⟨otherOp, otherLock, isTemp⟩
    simp only [System.goto] at isTemp
    rw [update_apply] at isTemp
    split_ifs at isTemp
    · cases isTemp
      exact .inl ⟨rfl, rfl⟩
    · exact .inr ⟨otherOp, otherLock, isTemp⟩
  have impossible : ∀ {archive}, sys.archiveDir ≠ some archive := by
    intro archive
    rw [unarchived]
    simp
  exact {
    __ := sound
    tempBelow := by
      intro other place hasTemp
      rcases renames hasTemp with ⟨_, isPlace⟩ | old
      · rw [isPlace]
        exact sound.dirBelow isDir
      · exact sound.tempBelow old
    noTemp := fun isArchive => absurd isArchive impossible }

theorem publish_sound (sound : Sound sys) (hasTemp : sys.HasTemp task dir)
    (isDir : sys.taskDirs task.workspace = some dir) :
    Sound { sys with
      records := Function.update sys.records dir (some task)
      written := some task } := by
  have unarchived : ∀ {archive}, sys.archiveDir ≠ some archive := fun isArchive =>
    sound.noTemp isArchive hasTemp isDir
  exact {
    __ := sound
    freshEmpty := by
      intro other fresh
      have below := sound.dirBelow isDir
      have different : other ≠ dir := by
        intro same
        rw [same] at fresh
        exact absurd below (Nat.not_lt.mpr fresh)
      show Function.update sys.records dir (some task) other = none
      rw [update_of_ne different]
      exact sound.freshEmpty fresh
    writtenActive := by
      intro _ other written
      cases written
      exact ⟨task.workspace, dir, isDir, Function.update_self _ _ _⟩
    activeWritten := by simp
    archivedWritten := fun isArchive => absurd isArchive unarchived
    notActive := fun isArchive => absurd isArchive unarchived
    noTemp := fun isArchive => absurd isArchive unarchived }

theorem archiving_sound (sound : Sound sys) {src : String}
    (isDir : sys.taskDirs src = some dir) (unarchived : sys.archiveDir = none)
    (alone : ∀ workspace, workspace ≠ src → ¬ sys.HoldsRecord workspace) :
    Sound { sys with
      taskDirs := Function.update sys.taskDirs src none
      archiveDir := some dir } := by
  have entry : ∀ {workspace other}, Function.update sys.taskDirs src none workspace =
      some other → workspace ≠ src ∧ sys.taskDirs workspace = some other := by
    intro workspace other isEntry
    rw [update_apply] at isEntry
    split_ifs at isEntry with same
    exact ⟨same, isEntry⟩
  exact {
    dirBelow := fun isEntry => sound.dirBelow (entry isEntry).2
    archiveBelow := by
      intro other isArchive
      cases isArchive
      exact sound.dirBelow isDir
    __ := sound
    apart := fun isFirst isSecond => sound.apart (entry isFirst).2 (entry isSecond).2
    archiveApart := by
      intro workspace other isEntry isArchive
      cases isArchive
      exact (entry isEntry).1 (sound.apart (entry isEntry).2 isDir)
    writtenActive := by simp
    activeWritten := by simp
    archivedWritten := by
      intro other isArchive
      cases isArchive
      show sys.records dir = sys.written
      cases isWritten : sys.written with
      | none =>
        cases isRecord : sys.records dir with
        | none => rfl
        | some task =>
          exact absurd isWritten (sound.activeWritten unarchived ⟨src, dir, isDir, isRecord⟩)
      | some task =>
        obtain ⟨workspace, place, isPlace, isRecord⟩ := sound.writtenActive unarchived isWritten
        have isSrc : workspace = src := by
          by_contra different
          apply alone workspace different
          refine ⟨place, isPlace, .inl ?_⟩
          rw [isRecord]
          simp
        rw [isSrc, isDir] at isPlace
        rw [Option.some.inj isPlace]
        exact isRecord
    notActive := by
      intro archive _ workspace other isEntry
      by_contra present
      exact alone workspace (entry isEntry).1 ⟨other, (entry isEntry).2, .inl present⟩
    noTemp := by
      intro archive _ task other hasTemp isEntry
      apply alone task.workspace (entry isEntry).1
      exact ⟨other, (entry isEntry).2, .inr ⟨task, hasTemp, rfl⟩⟩ }

theorem advance_sound (sound : Sound sys) (isOp : sys.ops op = some operation)
    (ok : Undisturbed sys (.advance op)) (went : sys.advance op operation = some next) :
    Sound next := by
  have moves : ∀ {before : System} {other : Operation}, Sound before →
      (∀ task dir lock, other ≠ .tempWritten task dir lock) → Sound (before.goto op other) :=
    fun before noTemp => before.sameStore (goto_sameStore _ noTemp)
  cases operation with
  | resolved request workspace =>
    cases went
    exact moves (ensurePrivateDir_sound sound workspace) (by simp)
  | lockDirMade request workspace =>
    simp only [System.advance, Option.map_eq_some_iff] at went
    obtain ⟨dir, _, isNext⟩ := went
    rw [← isNext]
    exact moves sound (by simp)
  | lockOpened request lock =>
    simp only [System.advance] at went
    split at went
    · contradiction
    · cases went
      exact moves (sound.sameStore ⟨rfl, rfl, rfl, rfl, rfl, id⟩) (by simp)
  | locked request lock =>
    cases request with
    | update => cases went
    | save task | prompt =>
      cases went
      exact moves sound (by simp)
  | saving task lock | writing task lock =>
    cases went
    exact moves (ensurePrivateDir_sound sound task.workspace) (by simp)
  | creating task lock =>
    simp only [System.advance, Option.map_eq_some_iff] at went
    obtain ⟨dir, isDir, isNext⟩ := went
    rw [← isNext]
    exact creating_sound sound (ok.1 task lock isOp) isDir
  | tempWritten task dir lock =>
    simp only [System.advance, Option.ite_none_right_eq_some] at went
    obtain ⟨isDir, isNext⟩ := went
    cases isNext
    exact (publish_sound sound ⟨op, lock, isOp⟩ isDir).sameStore (finish_sameStore _ _ _)
  | writingPrompt workspace lock =>
    cases went
    exact (ensurePrivateDir_sound sound workspace).sameStore (finish_sameStore _ _ _)
  | archiveable =>
    cases went
    exact moves sound (by simp)
  | archiving src =>
    simp only [System.advance] at went
    split at went
    · next dir isDir unarchived =>
      cases went
      exact (archiving_sound sound isDir unarchived (ok.2 src isOp)).sameStore
        ⟨rfl, rfl, rfl, rfl, rfl, without_temp⟩
    · contradiction

theorem step_sound (sound : Sound sys) (ok : Undisturbed sys label)
    (ran : step sys label = some next) : Sound next := by
  cases label with
  | start op request =>
    simp only [step] at ran
    split at ran
    · cases ran
      exact sound.sameStore (goto_sameStore _ (by simp))
    · cases ran
      exact sound.sameStore (goto_sameStore _ (by simp))
    · contradiction
  | archive op blockedBy =>
    simp only [step] at ran
    split at ran
    · split_ifs at ran
      cases ran
      exact sound.sameStore (goto_sameStore _ (by simp))
    · contradiction
  | advance op =>
    simp only [step, Option.bind_eq_some_iff] at ran
    obtain ⟨operation, isOp, went⟩ := ran
    exact advance_sound sound isOp ok went
  | update op fn =>
    simp only [step] at ran
    split at ran
    · rw [Option.map_eq_some_iff] at ran
      obtain ⟨task, _, isNext⟩ := ran
      rw [← isNext]
      exact sound.sameStore (goto_sameStore _ (by simp))
    · contradiction
  | abort op =>
    simp only [step] at ran
    split at ran
    · split at ran
      · cases ran
        exact sound.sameStore (finish_sameStore _ _ _)
      · cases ran
        exact sound.sameStore ⟨rfl, rfl, rfl, rfl, rfl, without_temp⟩
    · contradiction

/-! ## Runs -/

theorem run_sound (run : Run step Undisturbed .initial sys) : Sound sys :=
  run.invariant initial_sound fun _ _ _ sound ok ran => step_sound sound ok ran

theorem ensurePrivateDir_keeps (sys : System) (workspace : String) :
    (sys.ensurePrivateDir workspace).archiveDir = sys.archiveDir ∧
      (sys.ensurePrivateDir workspace).records = sys.records := by
  unfold System.ensurePrivateDir
  split <;> exact ⟨rfl, rfl⟩

theorem advance_keeps (sound : Sound sys) {archive : Nat} (isOp : sys.ops op = some operation)
    (isArchive : sys.archiveDir = some archive)
    (went : sys.advance op operation = some next) :
    next.archiveDir = some archive ∧ next.records archive = sys.records archive := by
  cases operation with
  | resolved request workspace | writingPrompt workspace lock =>
    cases went
    obtain ⟨sameArchive, sameRecords⟩ := ensurePrivateDir_keeps sys workspace
    exact ⟨sameArchive.trans isArchive, congrFun sameRecords archive⟩
  | lockDirMade request workspace | creating task lock =>
    simp only [System.advance, Option.map_eq_some_iff] at went
    obtain ⟨dir, _, isNext⟩ := went
    rw [← isNext]
    exact ⟨isArchive, rfl⟩
  | lockOpened request lock =>
    simp only [System.advance] at went
    split at went
    · contradiction
    · cases went
      exact ⟨isArchive, rfl⟩
  | locked request lock =>
    cases request with
    | update => cases went
    | save task | prompt =>
      cases went
      exact ⟨isArchive, rfl⟩
  | saving task lock | writing task lock =>
    cases went
    obtain ⟨sameArchive, sameRecords⟩ := ensurePrivateDir_keeps sys task.workspace
    exact ⟨sameArchive.trans isArchive, congrFun sameRecords archive⟩
  | tempWritten task dir lock =>
    simp only [System.advance, Option.ite_none_right_eq_some] at went
    exact absurd went.1 (sound.noTemp isArchive ⟨op, lock, isOp⟩)
  | archiveable =>
    cases went
    exact ⟨isArchive, rfl⟩
  | archiving src =>
    simp [System.advance, isArchive] at went

theorem step_keeps (sound : Sound sys) {archive : Nat}
    (isArchive : sys.archiveDir = some archive) (ran : step sys label = some next) :
    next.archiveDir = some archive ∧ next.records archive = sys.records archive := by
  cases label with
  | start op request =>
    simp only [step] at ran
    split at ran
    · cases ran
      exact ⟨isArchive, rfl⟩
    · cases ran
      exact ⟨isArchive, rfl⟩
    · contradiction
  | archive op blockedBy =>
    simp only [step] at ran
    split at ran
    · split_ifs at ran
      cases ran
      exact ⟨isArchive, rfl⟩
    · contradiction
  | advance op =>
    simp only [step, Option.bind_eq_some_iff] at ran
    obtain ⟨operation, isOp, went⟩ := ran
    exact advance_keeps sound isOp isArchive went
  | update op fn =>
    simp only [step] at ran
    split at ran
    · rw [Option.map_eq_some_iff] at ran
      obtain ⟨task, _, isNext⟩ := ran
      rw [← isNext]
      exact ⟨isArchive, rfl⟩
    · contradiction
  | abort op =>
    simp only [step] at ran
    split at ran
    · split at ran
      · cases ran
        exact ⟨isArchive, rfl⟩
      · cases ran
        exact ⟨isArchive, rfl⟩
    · contradiction

theorem Sound.archived_not_active (sound : Sound sys) {archived : Task}
    (isArchived : sys.Archived archived) (task : Task) : ¬ sys.Active task := by
  obtain ⟨archive, isArchive, _⟩ := isArchived
  rintro ⟨workspace, dir, isDir, isRecord⟩
  rw [sound.notActive isArchive isDir] at isRecord
  contradiction

/-- **Archiving is safe when no writer of the record is under way.** -/
theorem archivingSafe {sys : System} (run : Run step Undisturbed .initial sys)
    {archived : Task} (isArchived : sys.Archived archived) :
    (∀ task, ¬ sys.Active task) ∧ sys.written = some archived ∧
      ∀ later, Run step Undisturbed sys later →
        later.Archived archived ∧ ∀ task, ¬ later.Active task := by
  have sound := run_sound run
  obtain ⟨archive, isArchive, isRecord⟩ := isArchived
  refine ⟨sound.archived_not_active ⟨archive, isArchive, isRecord⟩, ?_, ?_⟩
  · rw [← sound.archivedWritten isArchive, isRecord]
  · intro later further
    have kept : Sound later ∧ later.archiveDir = some archive ∧
        later.records archive = some archived := by
      apply further.invariant
      · exact ⟨sound, isArchive, isRecord⟩
      · intro before label next holds ok ran
        obtain ⟨nextArchive, sameRecord⟩ := step_keeps holds.1 holds.2.1 ran
        exact ⟨step_sound holds.1 ok ran, nextArchive, sameRecord.trans holds.2.2⟩
    have laterArchived : later.Archived archived := ⟨archive, kept.2.1, kept.2.2⟩
    exact ⟨laterArchived, kept.1.archived_not_active laterArchived⟩

def newTask : Task where
  id := "a1b2c"
  title := "t"
  type := "coding"
  workspace := globalWorkspaceName
  status := .created
  createdAt := 0
  updatedAt := 0

/-- Creates the task and cancels it. -/
def createCanceled : List Label :=
  .start 0 (.save newTask) :: List.replicate 8 (.advance 0) ++
    .start 1 .update :: List.replicate 3 (.advance 1) ++
      .update 1 (fun task => (cancelTask task ⟨"cli", "cancel"⟩ "" 1).toOption) ::
        List.replicate 4 (.advance 1)

/-- A type change loads the canceled task, the task is archived, and the change is
saved. -/
def changeWhileArchived : List Label :=
  createCanceled ++ .start 2 .update :: List.replicate 3 (.advance 2) ++
    .update 2 (fun task => some (changeTaskType task "docs" 2)) ::
      .archive 3 [] :: List.replicate 2 (.advance 3) ++ List.replicate 4 (.advance 2)

theorem not_archivingSafe : ¬ ArchivingSafe fun _ _ => True := by
  intro safe
  obtain ⟨sys, replayed, archived, active⟩ :
      ∃ sys, execute step .initial changeWhileArchived = some sys ∧
        (∃ archived, sys.Archived archived) ∧ ∃ task, sys.Active task :=
    ⟨_, rfl, ⟨_, 0, rfl, rfl⟩, ⟨_, globalWorkspaceName, 1, rfl, rfl⟩⟩
  obtain ⟨archived, isArchived⟩ := archived
  obtain ⟨task, isActive⟩ := active
  exact (safe sys (reachable_of_execute _ replayed) archived isArchived).1 task isActive

/-- Saves a canceled task and archives it, one operation after the other. -/
def archiveCanceled : List Label :=
  .start 0 (.save { newTask with status := .canceled }) :: List.replicate 8 (.advance 0) ++
    .archive 1 [] :: List.replicate 2 (.advance 1)

theorem archiveCanceled_permitted : Permitted step Undisturbed .initial archiveCanceled := by
  have calm : ∀ (sys : System) (op : Nat) (operation : Operation), sys.archiveDir = none →
      sys.ops op = some operation → (∀ src, operation ≠ .archiving src) →
      Undisturbed sys (.advance op) := by
    intro sys op operation unarchived isOp notArchiving
    refine ⟨fun _ _ _ => unarchived, ?_⟩
    intro src isArchiving
    rw [isOp] at isArchiving
    exact absurd (Option.some.inj isArchiving) (notArchiving src)
  refine ⟨trivial, _, rfl, calm _ _ _ rfl rfl (by simp), _, rfl,
    calm _ _ _ rfl rfl (by simp), _, rfl, calm _ _ _ rfl rfl (by simp), _, rfl,
    calm _ _ _ rfl rfl (by simp), _, rfl, calm _ _ _ rfl rfl (by simp), _, rfl,
    calm _ _ _ rfl rfl (by simp), _, rfl, calm _ _ _ rfl rfl (by simp), _, rfl,
    calm _ _ _ rfl rfl (by simp), _, rfl, trivial, _, rfl,
    calm _ _ _ rfl rfl (by simp), _, rfl, ?_, _, rfl, trivial⟩
  refine ⟨fun _ _ _ => rfl, ?_⟩
  rintro src isSrc workspace different ⟨dir, isDir, _⟩
  have same : Operation.archiving globalWorkspaceName = .archiving src := Option.some.inj isSrc
  rw [← Operation.archiving.inj same] at different
  have noDir : Function.update (fun _ => none) globalWorkspaceName (some 0) workspace =
      some dir := isDir
  rw [update_of_ne different] at noDir
  contradiction

theorem archivingSafe_archiveCanceled :
    ∃ sys archived, Run step Undisturbed .initial sys ∧ sys.Archived archived ∧
      ∀ task, ¬ sys.Active task := by
  obtain ⟨sys, replayed, archived, isArchived⟩ :
      ∃ sys, execute step .initial archiveCanceled = some sys ∧
        ∃ archived, sys.Archived archived :=
    ⟨_, rfl, _, 0, rfl, rfl⟩
  have run := run_of_permitted archiveCanceled archiveCanceled_permitted replayed
  exact ⟨sys, archived, run, isArchived, (archivingSafe run isArchived).1⟩

end AiTools.Whip.TaskFiles
