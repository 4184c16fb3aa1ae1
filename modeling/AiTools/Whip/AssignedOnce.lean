import AiTools.Whip.AutoAssign
import AiTools.Whip.Dependencies

/-!
Contract: a task whose dependencies are completed by concurrent `complete` commands is
assigned once.
-/

namespace AiTools.Whip.AutoAssign

open AiTools.Lib.Transition AiTools.Lib.Effect
open Dependencies (completeTask_edges reserveTask_edges)
open Function (update_of_ne update_self)

/-- The record that a process has loaded under its lock. -/
def Stage.loaded : Stage → Option Task
  | .completing loaded => some loaded
  | .reserving loaded _ _ _ => some loaded
  | .recording loaded _ => some loaded
  | _ => none

/-- The task that a process has reserved. -/
def Stage.reserved : Stage → Option String
  | .prompting id _ => some id
  | .spawning id _ => some id
  | .recording loaded _ => some loaded.id
  | _ => none

/-- The process has yet to look at the task, or has found all that it looked at completed. -/
def Stage.Awaits (task : Task) : Stage → Prop
  | .listing unread seen => task.id ∈ unread ∨ task ∈ seen
  | .walking rest => task ∈ rest
  | .checking dep unread unmet rest =>
    (dep = task ∧ unmet = [] ∧ unread ⊆ task.dependsOn) ∨ task ∈ rest
  | .reserving loaded unread unmet rest =>
    (loaded.id = task.id ∧ unmet = [] ∧ unread ⊆ task.dependsOn) ∨ task ∈ rest
  | .prompting _ rest => task ∈ rest
  | .spawning _ rest => task ∈ rest
  | .recording _ rest => task ∈ rest
  | .completing _ => False
  | .done => False

/-- A dependency of the task is not completed. -/
def Unmet (store : Store) (task : Task) : Prop := ∃ id ∈ task.dependsOn, isUnmet store id = true

/-- Nothing has touched the task yet. -/
def Untouched (store : Store) (task : Task) : Prop := store.findTask task.id = some task

/-- The task was assigned once more. -/
def AssignedOnce (store : Store) (task : Task) : Prop :=
  ∃ assigned, store.findTask task.id = some assigned ∧ assigned.status = .assigned ∧
    assignments assigned = assignments task + 1

/-- Ids are found in the same workspaces, and the archive is the same. -/
structure SamePlaces (start store : Store) : Prop where
  active : ∀ id, (store.findTask id).map Task.workspace = (start.findTask id).map Task.workspace
  archive : store.archive = start.archive

/-! ## The invariant -/

structure Sound (start : Store) (task : Task) (sys : System) : Prop where
  places : SamePlaces start sys.store
  /-- What is loaded is locked, and still what the store has. -/
  held : ∀ {process proc loaded}, sys.procs process = some proc →
    proc.stage.loaded = some loaded →
    sys.locks loaded.id = some process ∧ sys.store.findTask loaded.id = some loaded
  named : ∀ {process proc loaded}, sys.procs process = some proc →
    proc.stage = .completing loaded → loaded.id = proc.completes
  target : Untouched sys.store task ∨ AssignedOnce sys.store task
  reserved : ∀ {process proc}, sys.procs process = some proc →
    proc.stage.reserved = some task.id → ¬ Untouched sys.store task
  /-- The last to complete a dependency still has the task before it. -/
  waiting : Untouched sys.store task → Unmet sys.store task ∨
    ∃ process proc, sys.procs process = some proc ∧ proc.completes ∈ task.dependsOn ∧
      proc.stage.Awaits task

section
variable {start : Store} {task : Task} {sys : System}

theorem initial_sound (isFound : start.findTask task.id = some task) (unmet : Unmet start task) :
    Sound start task (.initial start) where
  places := ⟨fun _ => rfl, rfl⟩
  held := nofun
  named := nofun
  target := .inl isFound
  reserved := nofun
  waiting := fun _ => .inl unmet

variable {process : Nat} {proc : Process} {stage : Stage} {store : Store} {id masterIRC : String}
  {next : System} {updated : Except String Task} {record : Task} {source : LaunchSource}
  {now : Time} {unmet : List String}

/-- One process takes a step from `before` to `stage`. Its changes to the store and the locks
spare what the others hold. -/
theorem Sound.moved (sound : Sound start task sys) {locks : String → Option Nat}
    (places : SamePlaces start store)
    (others : ∀ other loaded, other ≠ process → sys.locks loaded.id = some other →
      sys.store.findTask loaded.id = some loaded →
        locks loaded.id = some other ∧ store.findTask loaded.id = some loaded)
    (held : ∀ loaded, stage.loaded = some loaded →
      locks loaded.id = some process ∧ store.findTask loaded.id = some loaded)
    (named : ∀ loaded, stage = .completing loaded → loaded.id = proc.completes)
    (target : Untouched store task ∨ AssignedOnce store task)
    (leaves : Untouched store task → Untouched sys.store task)
    (reserved : stage.reserved = some task.id → ¬ Untouched store task)
    (waiting : Untouched store task → Unmet store task ∨
      (proc.completes ∈ task.dependsOn ∧ stage.Awaits task) ∨
      ∃ other waiter, other ≠ process ∧ sys.procs other = some waiter ∧
        waiter.completes ∈ task.dependsOn ∧ waiter.stage.Awaits task) :
    Sound start task (System.goto ⟨store, locks, sys.procs⟩ process proc stage) where
  places := places
  held := by
    intro other otherProc loaded isOther isLoaded
    by_cases same : other = process
    · rw [same] at isOther ⊢
      cases (update_self process _ sys.procs).symm.trans isOther
      exact held loaded isLoaded
    · have wasOther := (update_of_ne same _ sys.procs).symm.trans isOther
      obtain ⟨locked, isFound⟩ := sound.held wasOther isLoaded
      exact others other loaded same locked isFound
  named := by
    intro other otherProc loaded isOther isCompleting
    by_cases same : other = process
    · rw [same] at isOther
      cases (update_self process _ sys.procs).symm.trans isOther
      exact named loaded isCompleting
    · exact sound.named ((update_of_ne same _ sys.procs).symm.trans isOther)
        isCompleting
  target := target
  reserved := by
    intro other otherProc isOther isReserved
    by_cases same : other = process
    · rw [same] at isOther
      cases (update_self process _ sys.procs).symm.trans isOther
      exact reserved isReserved
    · have wasOther := (update_of_ne same _ sys.procs).symm.trans isOther
      exact fun untouched => sound.reserved wasOther isReserved (leaves untouched)
  waiting := by
    intro untouched
    rcases waiting untouched with unmet | ⟨isDep, awaits⟩ | ⟨other, waiter, different, rest⟩
    · exact .inl unmet
    · exact .inr ⟨process, _, update_self .., isDep, awaits⟩
    · exact .inr ⟨other, waiter, (update_of_ne different ..).trans rest.1, rest.2⟩

theorem Sound.waiter (sound : Sound start task sys) (untouched : Untouched sys.store task)
    (process : Nat) : Unmet sys.store task ∨
      (∃ proc, sys.procs process = some proc ∧ proc.completes ∈ task.dependsOn ∧
        proc.stage.Awaits task) ∨
      ∃ other waiter, other ≠ process ∧ sys.procs other = some waiter ∧
        waiter.completes ∈ task.dependsOn ∧ waiter.stage.Awaits task := by
  rcases sound.waiting untouched with unmet | ⟨other, waiter, isWaiter, rest⟩
  · exact .inl unmet
  · by_cases same : other = process
    · rw [same] at isWaiter
      exact .inr (.inl ⟨waiter, isWaiter, rest⟩)
    · exact .inr (.inr ⟨other, waiter, same, isWaiter, rest⟩)

theorem Sound.goto (sound : Sound start task sys) (isProc : sys.procs process = some proc)
    (loaded : stage.loaded = none ∨ stage.loaded = proc.stage.loaded)
    (reserved : stage.reserved = none ∨ stage.reserved = proc.stage.reserved)
    (named : ∀ record, stage ≠ .completing record)
    (awaits : ¬ Unmet sys.store task → Untouched sys.store task →
      proc.completes ∈ task.dependsOn → proc.stage.Awaits task → stage.Awaits task) :
    Sound start task (sys.goto process proc stage) := by
  have wasLoaded : ∀ record, stage.loaded = some record → proc.stage.loaded = some record := by
    intro record isLoaded
    rcases loaded with isNone | same
    · cases isNone.symm.trans isLoaded
    · exact same.symm.trans isLoaded
  have wasReserved : ∀ id, stage.reserved = some id → proc.stage.reserved = some id := by
    intro id isReserved
    rcases reserved with isNone | same
    · cases isNone.symm.trans isReserved
    · exact same.symm.trans isReserved
  refine sound.moved sound.places (fun _ _ _ locked isFound => ⟨locked, isFound⟩)
    (fun record isLoaded => sound.held isProc (wasLoaded record isLoaded))
    (fun record isCompleting => absurd isCompleting (named record)) sound.target id
    (fun isReserved => sound.reserved isProc (wasReserved _ isReserved)) ?_
  intro untouched
  by_cases unmet : Unmet sys.store task
  · exact .inl unmet
  · refine .inr ((sound.waiter untouched process).resolve_left unmet |>.imp_left ?_)
    rintro ⟨waiter, isWaiter, isDep, waits⟩
    cases isProc.symm.trans isWaiter
    exact ⟨isDep, awaits unmet untouched isDep waits⟩

theorem Sound.load (sound : Sound start task sys)
    {loading : Task → Stage} {missing : Stage} {next : System}
    (ran : sys.load process proc id loading missing = some next)
    (isLoaded : ∀ record, (loading record).loaded = some record)
    (named : ∀ record, record.id = id → loading record = .completing record → id = proc.completes)
    (reserved : ∀ record, record.id = id → (loading record).reserved = some task.id →
      ¬ Untouched sys.store task) (isMissing : missing.loaded = none ∧ missing.reserved = none)
    (awaits : Untouched sys.store task → ∀ old, sys.procs process = some old →
      old.stage.Awaits task → old.completes = proc.completes ∧
        (∀ record, sys.store.findTask id = some record → (loading record).Awaits task) ∧
        (sys.store.findTask id = none → missing.Awaits task)) : Sound start task next := by
  unfold System.load at ran
  have waiting : ∀ stage : Stage, (Untouched sys.store task → ∀ old,
      sys.procs process = some old → old.completes ∈ task.dependsOn → old.stage.Awaits task →
        proc.completes ∈ task.dependsOn ∧ stage.Awaits task) →
      Untouched sys.store task → Unmet sys.store task ∨
        (proc.completes ∈ task.dependsOn ∧ stage.Awaits task) ∨
        ∃ other waiter, other ≠ process ∧ sys.procs other = some waiter ∧
          waiter.completes ∈ task.dependsOn ∧ waiter.stage.Awaits task := by
    intro stage keeps untouched
    refine (sound.waiter untouched process).imp_right (Or.imp_left ?_)
    rintro ⟨old, isOld, isDep, waits⟩
    exact keeps untouched old isOld isDep waits
  cases isFound : sys.store.findTask id with
  | none =>
    rw [isFound] at ran
    cases ran
    refine sound.moved sound.places (fun _ _ _ locked found => ⟨locked, found⟩) ?_ ?_
      sound.target (fun untouched => untouched) ?_ (waiting _ ?_)
    · intro record isRecord
      simp [isMissing.1] at isRecord
    · intro record isCompleting
      have isRecord := congrArg Stage.loaded isCompleting
      rw [isMissing.1] at isRecord
      cases isRecord
    · intro isReserved
      simp [isMissing.2] at isReserved
    · intro untouched old isOld isDep waits
      obtain ⟨sameId, _, whenMissing⟩ := awaits untouched old isOld waits
      exact ⟨sameId ▸ isDep, whenMissing isFound⟩
  | some record =>
    rw [isFound] at ran
    cases isLock : sys.locks id with
    | some holder =>
      simp [isLock] at ran
    | none =>
      rw [isLock] at ran
      cases ran
      have isId : record.id = id := (Store.findTask_mem isFound).2
      refine sound.moved sound.places ?_ ?_ ?_ sound.target (fun untouched => untouched)
        (reserved record isId) (waiting _ ?_)
      · intro other loaded _ locked found
        refine ⟨(update_of_ne ?_ ..).trans locked, found⟩
        intro same
        simp [same, isLock] at locked
      · intro loaded isRecord
        cases (isLoaded record).symm.trans isRecord
        rw [isId]
        exact ⟨update_self .., isFound⟩
      · intro loaded isCompleting
        have isRecord := congrArg Stage.loaded isCompleting
        cases (isLoaded record).symm.trans isRecord
        exact isId.trans (named record isId isCompleting)
      · intro untouched old isOld isDep waits
        obtain ⟨sameId, whenFound, _⟩ := awaits untouched old isOld waits
        exact ⟨sameId ▸ isDep, whenFound record isFound⟩

/-! ## The saves -/

/-- What a save makes of the record under its lock, as far as the task is concerned. -/
structure Saves (task loaded updated : Task) : Prop where
  path : updated.path = loaded.path
  staysAssigned : loaded.status = .assigned →
    updated.status = .assigned ∧ assignments updated = assignments loaded
  assigns : loaded = task → updated.status = .assigned ∧ assignments updated = assignments task + 1

theorem save_eq_some {next : Store} (saved : save store updated = some (record, next)) :
    updated = .ok record ∧ next = store.putTask record := by
  unfold save at saved
  split at saved
  · cases saved
  · split at saved
    · cases saved
    · cases saved
      exact ⟨rfl, rfl⟩

theorem isUnmet_of_ne {next : Store} (same : next.findTask id = store.findTask id) :
    isUnmet next id = isUnmet store id := by
  unfold isUnmet
  rw [same]

theorem Sound.finish (sound : Sound start task sys) (isCreated : task.status = .created)
    (isProc : sys.procs process = some proc) {loaded : Task}
    (isLoaded : proc.stage.loaded = some loaded) {updated : Except String Task}
    {saved : Task → Store → Stage} {failed : Stage}
    (saves : ∀ record, updated = .ok record → Saves task loaded record)
    (isSaved : ∀ record store, (saved record store).loaded = none)
    (isFailed : failed.loaded = none ∧ failed.reserved = none)
    (reserved : ∀ record store, updated = .ok record → (saved record store).reserved = some task.id →
      record.id = task.id ∧ record.status = .assigned)
    (failedAwaits : save sys.store updated = none → Untouched sys.store task →
      proc.stage.Awaits task → failed.Awaits task)
    (savedAwaits : ∀ record store, save sys.store updated = some (record, store) →
      Untouched sys.store task → loaded ≠ task → proc.stage.Awaits task →
        (saved record store).Awaits task)
    (completes : ∀ record store, save sys.store updated = some (record, store) →
      record.status = .completed → loaded.status ≠ .completed →
        proc.completes = loaded.id ∧ (Untouched store task → (saved record store).Awaits task)) :
    Sound start task (sys.finish process proc loaded.id updated saved failed) := by
  obtain ⟨isLocked, isFound⟩ := sound.held isProc isLoaded
  -- The others hold other locks.
  have others : ∀ {other : Nat} {record : Task}, other ≠ process →
      sys.locks record.id = some other → record.id ≠ loaded.id := by
    intro other record different locked same
    rw [same, isLocked] at locked
    exact different (Option.some.inj locked).symm
  have notLoaded : ∀ {stage : Stage} {record}, stage.loaded = none →
      stage.loaded = some record → False := by
    intro stage record isNone isSome
    simp [isNone] at isSome
  unfold System.finish
  cases isSave : save sys.store updated with
  | none =>
    refine sound.moved sound.places ?_ (fun record isRecord => (notLoaded isFailed.1 isRecord).elim)
      ?_ sound.target (fun untouched => untouched) ?_ ?_
    · intro other record different locked found
      exact ⟨(update_of_ne (others different locked) ..).trans locked, found⟩
    · intro record isCompleting
      exact (notLoaded isFailed.1 (congrArg Stage.loaded isCompleting)).elim
    · intro isReserved
      simp [isFailed.2] at isReserved
    · intro untouched
      refine (sound.waiter untouched process).imp_right (Or.imp_left ?_)
      rintro ⟨old, isOld, isDep, waits⟩
      cases isProc.symm.trans isOld
      exact ⟨isDep, failedAwaits isSave untouched waits⟩
  | some pair =>
    obtain ⟨record, store⟩ := pair
    obtain ⟨isOk, isStore⟩ := save_eq_some isSave
    have wrote := saves record isOk
    have sameId : record.id = loaded.id := congrArg Prod.snd wrote.path
    have finds : ∀ id, store.findTask id =
        if id = record.id then some record else sys.store.findTask id := by
      intro id
      rw [isStore]
      exact Store.findTask_putTask (sameId ▸ isFound) wrote.path id
    have elsewhere : ∀ {id}, id ≠ loaded.id → store.findTask id = sys.store.findTask id := by
      intro id different
      rw [finds, if_neg (sameId ▸ different)]
    have here : store.findTask loaded.id = some record := by
      rw [finds, if_pos sameId.symm]
    -- The task itself is saved, or another one.
    have target : Untouched store task ∨ AssignedOnce store task := by
      by_cases isTask : task.id = loaded.id
      · right
        rw [← isTask] at here isFound
        rcases sound.target with untouched | ⟨assigned, isAssigned, status, once⟩
        · cases isFound.symm.trans untouched
          exact ⟨record, here, (wrote.assigns rfl).1, (wrote.assigns rfl).2⟩
        · cases isFound.symm.trans isAssigned
          obtain ⟨stays, same⟩ := wrote.staysAssigned status
          exact ⟨record, here, stays, same.trans once⟩
      · exact sound.target.imp (elsewhere isTask).trans
          fun ⟨assigned, isAssigned, rest⟩ => ⟨assigned, (elsewhere isTask).trans isAssigned, rest⟩
    have touched : task.id = loaded.id → ¬ Untouched store task := by
      intro isTask untouched
      rw [← isTask] at here
      cases here.symm.trans untouched
      rcases sound.target with wasUntouched | ⟨assigned, isAssigned, status, _⟩
      · rw [Untouched, isTask] at wasUntouched
        cases isFound.symm.trans wasUntouched
        have isAssigned := (wrote.assigns rfl).1
        simp [isCreated] at isAssigned
      · rw [isTask] at isAssigned
        cases isFound.symm.trans isAssigned
        have isAssigned := (wrote.staysAssigned status).1
        simp [isCreated] at isAssigned
    have leaves : Untouched store task → Untouched sys.store task := fun untouched =>
      (elsewhere fun isTask => touched isTask untouched).symm.trans untouched
    refine sound.moved ?_ ?_ (fun loaded isRecord => (notLoaded (isSaved _ _) isRecord).elim) ?_
      target leaves ?_ ?_
    · refine ⟨fun id => ?_, ?_⟩
      · rw [← sound.places.active]
        by_cases isHere : id = loaded.id
        · rw [isHere, here, isFound]
          exact congrArg some (congrArg Prod.fst wrote.path)
        · rw [elsewhere isHere]
      · rw [isStore]
        exact sound.places.archive
    · intro other held different locked found
      have isOther := others different locked
      exact ⟨(update_of_ne isOther ..).trans locked, (elsewhere isOther).trans found⟩
    · intro loaded isCompleting
      exact (notLoaded (isSaved _ _) (congrArg Stage.loaded isCompleting)).elim
    · intro isReserved
      exact touched ((reserved record store isOk isReserved).1.symm.trans sameId)
    · intro untouched
      have wasUntouched := leaves untouched
      have notTask : loaded ≠ task := fun isTask =>
        touched (congrArg Task.id isTask).symm untouched
      rcases sound.waiter wasUntouched process with
        ⟨id, isDep, wasUnmet⟩ | ⟨old, isOld, isDep, waits⟩ | rest
      · by_cases isHere : id = loaded.id
        · by_cases isCompleted : record.status = .completed
          · have wasOpen : loaded.status ≠ .completed := by
              intro wasCompleted
              rw [isHere] at wasUnmet
              unfold isUnmet at wasUnmet
              rw [isFound] at wasUnmet
              simp [wasCompleted] at wasUnmet
            obtain ⟨isCompletes, waits⟩ := completes record store isSave isCompleted wasOpen
            refine .inr (.inl ⟨?_, waits untouched⟩)
            rw [isCompletes, ← isHere]
            exact isDep
          · refine .inl ⟨id, isDep, ?_⟩
            unfold isUnmet
            rw [isHere, here]
            simpa using isCompleted
        · refine .inl ⟨id, isDep, ?_⟩
          rw [isUnmet_of_ne (elsewhere isHere)]
          exact wasUnmet
      · cases isProc.symm.trans isOld
        exact .inr (.inl ⟨isDep, savedAwaits record store isSave wasUntouched notTask waits⟩)
      · exact .inr (.inr rest)

theorem completeTask_saves (isCreated : task.status = .created) {loaded updated : Task}
    {note : String} (isOk : completeTask loaded source note now = .ok updated) :
    Saves task loaded updated := by
  have path := (completeTask_edges isOk).path
  obtain ⟨underWay, _⟩ := requireTaskStatuses_bind isOk
  refine ⟨path, ?_, ?_⟩
  · intro isAssigned
    rw [isAssigned] at underWay
    exact absurd underWay (by decide)
  · intro isTask
    rw [isTask, isCreated] at underWay
    exact absurd underWay (by decide)

theorem reserveTask_assigned {loaded updated : Task}
    (isOk : reserveTask loaded source unmet masterIRC now = .ok updated) :
    updated.status = .assigned :=
  (reserveTask_edges isOk).2.2.2

theorem reserveTask_saves {loaded updated : Task}
    (isOk : reserveTask loaded source unmet masterIRC now = .ok updated) :
    Saves task loaded updated := by
  obtain ⟨idle, result⟩ := requireTaskStatuses_bind isOk
  refine ⟨(reserveTask_edges isOk).1.path, ?_, ?_⟩
  · intro wasAssigned
    rw [wasAssigned] at idle
    exact absurd idle (by decide)
  · intro isTask
    refine ⟨reserveTask_assigned isOk, ?_⟩
    split at result
    · cases result
    · cases result
      unfold assignments
      rw [← isTask]
      exact List.countP_append

theorem reserveTask_ok (isCreated : task.status = .created) (source : LaunchSource)
    (masterIRC : String) (now : Time) :
    ∃ assigned, reserveTask task source [] masterIRC now = .ok assigned := by
  unfold reserveTask requireTaskStatuses
  rw [isCreated]
  exact ⟨_, rfl⟩

theorem spawnedTask_saves {loaded : Task} (different : loaded ≠ task) (source : LaunchSource)
    (runner sessionID : String) (now : Time) :
    Saves task loaded (spawnedTask loaded source runner sessionID now) := by
  refine ⟨rfl, ?_, fun isTask => absurd isTask different⟩
  intro isAssigned
  refine ⟨isAssigned, ?_⟩
  exact List.countP_append

theorem SamePlaces.within (places : SamePlaces start store) {before after : Task}
    (path : after.path = before.path) (dependsOn : after.dependsOn = before.dependsOn)
    (within : start.validateTaskDependencyWorkspaces before = .ok ()) :
    store.validateTaskDependencyWorkspaces after = .ok () := by
  unfold Store.validateTaskDependencyWorkspaces at within ⊢
  rw [dependsOn]
  refine forM_of_ok fun depID isDep => ?_
  have atStart := forM_eq_ok within depID isDep
  split_ifs at atStart ⊢ with isEmpty
  · rfl
  · have workspace : after.workspace = before.workspace := congrArg Prod.fst path
    have active := places.active depID
    have sameRecord : (store.findTask depID <|> store.archive.find? depID).map Task.workspace =
        (start.findTask depID <|> start.archive.find? depID).map Task.workspace := by
      have active := places.active depID
      rw [places.archive]
      cases isFound : store.findTask depID <;> cases wasFound : start.findTask depID <;>
        simp_all
    cases isRecord : store.findTask depID <|> store.archive.find? depID with
    | none => rfl
    | some dep =>
      rw [isRecord] at sameRecord
      obtain ⟨old, wasRecord, sameWorkspace⟩ := Option.map_eq_some_iff.mp sameRecord.symm
      rw [wasRecord] at atStart
      simp only [sameWorkspace, workspace] at atStart ⊢
      split_ifs at atStart ⊢ with elsewhere
      rfl

theorem mem_listedIDs (isFound : store.findTask id = some record) : id ∈ listedIDs store := by
  obtain ⟨isEntry, isId⟩ := Store.findTask_mem isFound
  unfold listedIDs
  rw [List.mem_flatMap]
  exact ⟨record.workspace, Store.mem_workspaceNames isEntry,
    Store.mem_taskIDs.mpr ⟨record, isEntry, rfl, isId⟩⟩

/-! ## The steps -/

theorem reserve_saves (isCreated : task.status = .created)
    (within : start.validateTaskDependencyWorkspaces task = .ok ())
    (places : SamePlaces start store) :
    save store (reserveTask task source [] masterIRC now) ≠ none := by
  obtain ⟨assigned, isOk⟩ := reserveTask_ok isCreated source masterIRC now
  have edges := (reserveTask_edges isOk).1
  unfold save
  rw [isOk]
  simp only [places.within edges.path edges.dependsOn within]
  exact Option.some_ne_none _

/-- While every dependency is completed, the next one that is read adds nothing. -/
theorem read_met {unread : List String} (met : ¬ Unmet store task)
    (areDeps : id :: unread ⊆ task.dependsOn) (noUnmet : unmet = []) :
    (if isUnmet store id then unmet ++ [id] else unmet) = [] ∧ unread ⊆ task.dependsOn := by
  obtain ⟨isDep, areLater⟩ := List.cons_subset.mp areDeps
  refine ⟨?_, areLater⟩
  rw [if_neg, noUnmet]
  intro isOpen
  exact met ⟨id, isDep, isOpen⟩

theorem advance_sound (sound : Sound start task sys) (isCreated : task.status = .created)
    (within : start.validateTaskDependencyWorkspaces task = .ok ()) {given : Given}
    (isProc : sys.procs process = some proc)
    (went : sys.advance process proc given = some next) : Sound start task next := by
  obtain ⟨completes, source, note, stage⟩ := proc
  cases stage with
  | completing loaded =>
    cases went
    have isCompletes := sound.named isProc rfl
    refine sound.finish isCreated isProc rfl (fun _ => completeTask_saves isCreated)
      (fun _ _ => rfl) ⟨rfl, rfl⟩ (fun _ _ _ isNone => nomatch isNone)
      (fun _ _ waits => waits.elim) (fun _ _ _ _ _ waits => waits.elim) ?_
    intro record store isSave _ _
    exact ⟨isCompletes.symm, fun untouched => .inl (mem_listedIDs untouched)⟩
  | listing unread seen =>
    cases unread with
    | nil =>
      cases went
      refine sound.goto isProc (.inl rfl) (.inl rfl) (fun _ => Stage.noConfusion) ?_
      intro _ _ isDep waits
      rcases waits with isUnread | isSeen
      · cases isUnread
      · rw [Stage.Awaits, List.mem_filter, Store.mem_byCreation]
        exact ⟨isSeen, decide_eq_true isDep⟩
    | cons id unread =>
      cases went
      refine sound.goto isProc (.inl rfl) (.inl rfl) (fun _ => Stage.noConfusion) ?_
      intro _ untouched _ waits
      rcases waits with isUnread | isSeen
      · rcases List.mem_cons.mp isUnread with isNext | isLater
        · right
          rw [← isNext, show sys.store.findTask task.id = some task from untouched]
          exact List.mem_append_right _ List.mem_cons_self
        · exact .inl isLater
      · exact .inr (List.mem_append_left _ isSeen)
  | walking rest =>
    cases rest with
    | nil =>
      cases went
      exact sound.goto isProc (.inl rfl) (.inl rfl) (fun _ => Stage.noConfusion) nofun
    | cons dep rest =>
      simp only [System.advance] at went
      split_ifs at went with toAssign
      · cases went
        refine sound.goto isProc (.inl rfl) (.inl rfl) (fun _ => Stage.noConfusion) ?_
        intro _ _ _ waits
        rcases List.mem_cons.mp waits with isDep | isLater
        · exact .inl ⟨isDep.symm, rfl, isDep ▸ List.Subset.refl _⟩
        · exact .inr isLater
      · cases went
        refine sound.goto isProc (.inl rfl) (.inl rfl) (fun _ => Stage.noConfusion) ?_
        intro _ _ _ waits
        rcases List.mem_cons.mp waits with isDep | isLater
        · exact absurd (isDep ▸ isCreated) toAssign
        · exact isLater
  | checking dep unread unmet rest =>
    cases unread with
    | cons id unread =>
      cases went
      refine sound.goto isProc (.inl rfl) (.inl rfl) (fun _ => Stage.noConfusion) ?_
      intro met _ _ waits
      exact waits.imp_left fun ⟨isTask, noUnmet, areDeps⟩ =>
        ⟨isTask, read_met met areDeps noUnmet⟩
    | nil =>
      cases unmet with
      | cons id unmet =>
        cases went
        refine sound.goto isProc (.inl rfl) (.inl rfl) (fun _ => Stage.noConfusion) ?_
        intro _ _ _ waits
        exact waits.resolve_left fun ⟨_, noUnmet, _⟩ => nomatch noUnmet
      | nil =>
        refine sound.load went (fun _ => rfl) (fun _ _ => Stage.noConfusion)
          (fun _ _ isNone => nomatch isNone) ⟨rfl, rfl⟩ ?_
        intro untouched old isOld waits
        cases isProc.symm.trans isOld
        refine ⟨rfl, ?_, ?_⟩
        · intro record isFound
          refine Or.imp_left ?_ waits
          rintro ⟨isTask, -, -⟩
          rw [isTask] at isFound
          cases isFound.symm.trans untouched
          exact ⟨rfl, rfl, List.Subset.refl _⟩
        · intro isMissing
          refine Or.resolve_left waits ?_
          rintro ⟨isTask, -, -⟩
          rw [isTask] at isMissing
          cases isMissing.symm.trans untouched
  | reserving loaded unread unmet rest =>
    cases unread with
    | cons id unread =>
      cases went
      refine sound.goto isProc (.inr rfl) (.inl rfl) (fun _ => Stage.noConfusion) ?_
      intro met _ _ waits
      exact waits.imp_left fun ⟨isTask, noUnmet, areDeps⟩ =>
        ⟨isTask, read_met met areDeps noUnmet⟩
    | nil =>
      cases went
      have isFound := (sound.held isProc rfl).2
      have isTarget : Untouched sys.store task → loaded.id = task.id → loaded = task := by
        intro untouched isId
        rw [isId] at isFound
        exact Option.some.inj (isFound.symm.trans untouched)
      refine sound.finish isCreated isProc rfl (fun _ isOk => reserveTask_saves isOk)
        (fun _ _ => rfl) ⟨rfl, rfl⟩ ?_ ?_ ?_ ?_
      · intro record store isOk isReserved
        exact ⟨Option.some.inj isReserved, reserveTask_assigned isOk⟩
      · intro failed untouched waits
        refine Or.resolve_left waits ?_
        rintro ⟨isId, noUnmet, -⟩
        rw [isTarget untouched isId, noUnmet] at failed
        exact reserve_saves isCreated within sound.places failed
      · intro record store isSave untouched different waits
        exact Or.resolve_left waits fun ⟨isId, _, _⟩ => different (isTarget untouched isId)
      · intro record store isSave isCompleted _
        have isAssigned := reserveTask_assigned (save_eq_some isSave).1
        cases isCompleted.symm.trans isAssigned
  | prompting id rest =>
    cases isLock : sys.locks id with
    | some holder => simp [System.advance, isLock] at went
    | none =>
      simp only [System.advance, isLock, Option.some.injEq] at went
      rw [← went]
      exact sound.goto isProc (.inl rfl) (.inr rfl) (fun _ => Stage.noConfusion)
        fun _ _ _ waits => waits
  | spawning id rest =>
    refine sound.load went (fun _ => rfl) (fun _ _ => Stage.noConfusion) ?_ ⟨rfl, rfl⟩ ?_
    · intro record isId isReserved
      refine sound.reserved isProc (Eq.trans (congrArg some isId.symm) isReserved)
    · intro _ old isOld waits
      cases isProc.symm.trans isOld
      exact ⟨rfl, fun _ _ => waits, fun _ => waits⟩
  | recording loaded rest =>
    cases went
    have isFound := (sound.held isProc rfl).2
    have different : loaded ≠ task := by
      intro isTask
      rw [isTask] at isFound
      exact sound.reserved isProc (congrArg some (congrArg Task.id isTask)) isFound
    refine sound.finish isCreated isProc rfl ?_ (fun _ _ => rfl) ⟨rfl, rfl⟩
      (fun _ _ _ isNone => nomatch isNone) (fun _ _ waits => waits)
      (fun _ _ _ _ _ waits => waits) ?_
    · intro record isOk
      cases isOk
      exact spawnedTask_saves different _ _ _ _
    · intro record store isSave isCompleted wasOpen
      cases (save_eq_some isSave).1
      exact absurd isCompleted wasOpen
  | done => cases went

theorem update_sound (sound : Sound start task sys)
    (ran : step sys (.update record) = some next) (different : record.id ≠ task.id) :
    Sound start task next := by
  simp only [step] at ran
  split at ran
  · rename_i before isFound isFree
    split_ifs at ran with keeps
    obtain ⟨⟨saved, store⟩, isSave, isNext⟩ := Option.map_eq_some_iff.mp ran
    cases isNext
    obtain ⟨path, completed⟩ := keeps
    have isStore := (save_eq_some isSave).2
    cases (save_eq_some isSave).1
    have finds : ∀ id, store.findTask id =
        if id = record.id then some record else sys.store.findTask id := by
      intro id
      rw [isStore]
      exact Store.findTask_putTask isFound path id
    have elsewhere : ∀ {id}, id ≠ record.id → store.findTask id = sys.store.findTask id := by
      intro id isOther
      rw [finds, if_neg isOther]
    have sameTask := elsewhere different.symm
    have stillUnmet : Unmet sys.store task → Unmet store task := by
      rintro ⟨id, isDep, wasUnmet⟩
      refine ⟨id, isDep, ?_⟩
      by_cases isHere : id = record.id
      · unfold isUnmet at wasUnmet ⊢
        rw [finds, if_pos isHere]
        rw [isHere, isFound] at wasUnmet
        simp only [ne_eq, decide_eq_true_eq] at wasUnmet ⊢
        exact fun isCompleted => wasUnmet (completed isCompleted)
      · rw [isUnmet_of_ne (elsewhere isHere)]
        exact wasUnmet
    exact {
      places := by
        refine ⟨fun id => ?_, isStore ▸ sound.places.archive⟩
        rw [← sound.places.active, finds]
        split_ifs with isHere
        · rw [isHere, isFound]
          exact congrArg some (congrArg Prod.fst path)
        · rfl
      held := by
        intro process proc loaded isProc isLoaded
        obtain ⟨locked, found⟩ := sound.held isProc isLoaded
        refine ⟨locked, (elsewhere ?_).trans found⟩
        intro isHere
        cases isFree.symm.trans (isHere ▸ locked)
      named := sound.named
      target := by
        unfold Untouched AssignedOnce
        rw [sameTask]
        exact sound.target
      reserved := by
        unfold Untouched
        rw [sameTask]
        exact sound.reserved
      waiting := by
        intro untouched
        exact (sound.waiting (sameTask.symm.trans untouched)).imp_left stillUnmet }
  · cases ran

theorem step_sound (sound : Sound start task sys) (isCreated : task.status = .created)
    (within : start.validateTaskDependencyWorkspaces task = .ok ()) {label : Label}
    (spares : Spares task sys label) (ran : step sys label = some next) :
    Sound start task next := by
  cases label with
  | complete process id source note =>
    simp only [step] at ran
    split at ran
    · cases ran
    · rename_i isFree
      refine sound.load ran (fun _ => rfl) (fun _ _ _ => rfl)
        (fun _ _ isNone => nomatch isNone) ⟨rfl, rfl⟩ ?_
      intro _ old isOld _
      cases isFree.symm.trans isOld
  | advance process given =>
    simp only [step] at ran
    split at ran
    · cases ran
    · rename_i proc isProc
      exact advance_sound sound isCreated within isProc ran
  | update record => exact update_sound sound ran (spares record rfl)

theorem areDependenciesMet_eq_false :
    (store.areDependenciesMet task).1 = false ↔ Unmet store task := by
  unfold Store.areDependenciesMet Unmet isUnmet
  rw [List.isEmpty_eq_false_iff_exists_mem]
  exact exists_congr fun _ => List.mem_filter

/-- A created task with a dependency to be completed is assigned at most once, and once when
all the commands have ended and its dependencies are completed. -/
theorem assignedOnce (isFound : start.findTask task.id = some task)
    (isCreated : task.status = .created)
    (within : start.validateTaskDependencyWorkspaces task = .ok ())
    (unmet : (start.areDependenciesMet task).1 = false)
    (run : Run step (Spares task) (.initial start) sys) :
    (Untouched sys.store task ∨ AssignedOnce sys.store task) ∧
      (sys.Finished → (sys.store.areDependenciesMet task).1 = true →
        AssignedOnce sys.store task) := by
  have sound : Sound start task sys :=
    run.invariant (initial_sound isFound (areDependenciesMet_eq_false.mp unmet))
      fun _ _ _ sound spares ran => step_sound sound isCreated within spares ran
  refine ⟨sound.target, fun finished met => sound.target.resolve_left fun untouched => ?_⟩
  rcases sound.waiting untouched with unmet | ⟨process, proc, isProc, _, waits⟩
  · rw [areDependenciesMet_eq_false.mpr unmet] at met
    cases met
  · rw [finished process proc isProc] at waits
    exact waits

end

/-- A task of `lane` with a status and dependencies. -/
def taskOf (id : String) (status : TaskStatus) (dependsOn : List String) : Task :=
  { (NewTask.task ⟨id, "t", "coding", "lane", "", "", false⟩ 1) with
    status := status
    dependsOn := dependsOn }

def waiting : Task := taskOf "t" .created ["a", "b"]

/-- `t` waits for `a` and `b`, which are under way. -/
def waitingForTwo : Store :=
  ⟨⟨[taskOf "a" .inProgress [], taskOf "b" .inProgress [], waiting], by decide⟩, .empty, .empty⟩

def advances (process count : Nat) : List Label :=
  List.replicate count (.advance process ⟨2, "wp-master", "tmux", ""⟩)

/-- Both commands find `t` created and its dependencies completed, before the first of them
reserves it. -/
def completedTogether : List Label :=
  [.complete 0 "a" ⟨"cli", "complete"⟩ "", .complete 1 "b" ⟨"cli", "complete"⟩ ""] ++
    advances 0 1 ++ advances 1 1 ++ advances 0 7 ++ advances 1 7 ++ advances 0 4 ++ advances 1 5 ++
    advances 0 4

theorem assignedOnce_completedTogether :
    ∃ sys, Run step (Spares waiting) (.initial waitingForTwo) sys ∧
      sys.Finished ∧ AssignedOnce sys.store waiting := by
  obtain ⟨sys, replayed, finished, met⟩ :
      ∃ sys, execute step (.initial waitingForTwo) completedTogether = some sys ∧
        sys.Finished ∧ (sys.store.areDependenciesMet waiting).1 = true := by
    refine ⟨_, rfl, ?_, by decide +kernel⟩
    intro process proc isProc
    rcases process with _ | _ | process
    · cases isProc
      rfl
    · cases isProc
      rfl
    · cases isProc
  have run : Run step (Spares waiting) (.initial waitingForTwo) sys := by
    refine run_of_execute completedTogether replayed ?_
    intro label member _ record isUpdate
    rw [isUpdate] at member
    simp [completedTogether, advances] at member
  exact ⟨sys, run, finished, (assignedOnce rfl rfl rfl rfl run).2 finished met⟩

end AiTools.Whip.AutoAssign
