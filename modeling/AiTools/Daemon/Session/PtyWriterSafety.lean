import AiTools.Daemon.Session.PtyWriter

/-!
Contract: what the queue of writes to a PTY keeps, over any run.
-/

namespace AiTools.Daemon.PtyWriter

open AiTools.Lib.Transition
open Function (update update_of_ne update_self)
open List (append_assoc map_append mem_append mem_append_left mem_append_right mem_cons_self mem_map
  mem_singleton not_mem_nil)

structure Sound (sys : System) : Prop where
  intact : Intact sys
  filled : ∀ job ∈ sys.inner.queue, job.bytes ≠ []
  /-- The call of a queued job has not returned. -/
  owned : ∀ job ∈ sys.inner.queue, ∃ stage,
    sys.calls job.completion = some stage ∧ stage.jobId = some job.id
  same : ∀ job ∈ sys.admitted, ∀ stage, sys.calls job.completion = some stage →
    stage.jobId ≠ none ∧ stage.data = job.bytes
  single : ∀ call other stage otherStage jobId, sys.calls call = some stage →
    sys.calls other = some otherStage → stage.jobId = some jobId →
    otherStage.jobId = some jobId → call = other
  distinct : (sys.admitted.map QueuedWrite.completion).Nodup
  past : ∀ job ∈ sys.admitted, job.completion < sys.started
  fresh : ∀ call, sys.started ≤ call → sys.calls call = none
  full : ∀ call stage, sys.calls call = some stage → stage.data ≠ []
  known : ∀ job ∈ sys.removed, job ∈ sys.admitted
  stored : ∀ call result, sys.slots call = some result →
    ∃ written ∈ sys.written, written.job.completion = call ∧ written.result = result
  storing : ∀ completion result, sys.writer = .storing completion result →
    ∃ written ∈ sys.written, written.job.completion = completion ∧ written.result = result
  taken : ∀ job taken, sys.writer = .writing job taken → taken ≤ job.bytes.length

theorem initial_sound (deadline : Nat) : Sound (initial deadline) where
  intact :=
    { counted := rfl
      limited := .inl (Nat.zero_le _)
      ordered := List.Sublist.refl _
      output := rfl
      whole := fun _ isIn => absurd isIn not_mem_nil
      dropped := fun _ isIn => absurd isIn not_mem_nil
      done := fun _ isIn => absurd isIn not_mem_nil }
  filled := fun _ isIn => absurd isIn not_mem_nil
  owned := nofun
  same := nofun
  single := fun _ _ _ _ _ found => nomatch found
  distinct := List.nodup_nil
  past := nofun
  fresh := fun _ _ => rfl
  full := nofun
  known := nofun
  stored := nofun
  storing := nofun
  taken := nofun

theorem queued_cons (job : QueuedWrite) (queue : List QueuedWrite) :
    queued (job :: queue) = job.bytes.length + queued queue :=
  List.sum_cons

theorem queued_concat (queue : List QueuedWrite) (job : QueuedWrite) :
    queued (queue ++ [job]) = queued queue + job.bytes.length := by
  unfold queued
  rw [map_append, List.sum_append]
  rfl

theorem queued_perm {queue other : List QueuedWrite} (isPerm : queue.Perm other) :
    queued queue = queued other :=
  (isPerm.map _).sum_eq

theorem perm_eraseP {isIt : QueuedWrite → Bool} {found : QueuedWrite} :
    ∀ {queue : List QueuedWrite}, queue.find? isIt = some found →
      queue.Perm (found :: queue.eraseP isIt)
  | [], isFound => nomatch isFound
  | job :: queue, isFound => by
    by_cases isJob : isIt job = true
    · rw [List.find?_cons_of_pos isJob] at isFound
      cases isFound
      rw [List.eraseP_cons_of_pos isJob]
    · rw [List.find?_cons_of_neg isJob] at isFound
      rw [List.eraseP_cons_of_neg isJob]
      exact ((perm_eraseP isFound).cons job).trans (List.Perm.swap _ _ _)

section
variable {sys : System} {call : Nat}

theorem Sound.distinct_line (sound : Sound sys) :
    (sys.line.map QueuedWrite.completion).Nodup :=
  sound.distinct.sublist (sound.intact.ordered.map _)

theorem Sound.nodup_line (sound : Sound sys) : sys.line.Nodup :=
  List.Nodup.of_map _ sound.distinct_line

theorem Sound.notQueued (sound : Sound sys) {written : Written}
    (isWritten : written ∈ sys.written) :
    ∀ job ∈ sys.inner.queue, job.completion ≠ written.job.completion := by
  intro job isQueued same
  have distinct := sound.distinct_line
  unfold System.line at distinct
  rw [map_append] at distinct
  have isFirst : written.job ∈ sys.written.map Written.job ++ sys.writer.job :=
    mem_append_left _ (List.mem_map_of_mem isWritten)
  exact List.disjoint_of_nodup_append distinct (List.mem_map_of_mem isFirst)
    (mem_map.mpr ⟨job, isQueued, same⟩)

variable {stage : Stage} {job : QueuedWrite} {result : WriteResult} {data : Bytes} {jobId : UInt64}
  {taken : Nat}

theorem Sound.notAdmitted (sound : Sound sys) (found : sys.calls call = some stage)
    (noJob : stage.jobId = none) :
    ∀ job ∈ sys.admitted, job.completion ≠ call := by
  rintro job isAdmitted rfl
  exact (sound.same job isAdmitted stage found).1 noJob

theorem Sound.mem_admitted (sound : Sound sys) (isQueued : job ∈ sys.inner.queue) :
    job ∈ sys.admitted :=
  sound.intact.ordered.subset (mem_append_right _ isQueued)

theorem Sound.started (sound : Sound sys) (found : sys.calls call = some stage) :
    call < sys.started := by
  by_contra isLater
  simp [sound.fresh call (Nat.le_of_not_lt isLater)] at found

theorem Sound.goto (sound : Sound sys) {old : Stage} {stage : Option Stage}
    (found : sys.calls call = some old)
    (keeps : ∀ next, stage = some next → next.data = old.data ∧ next.jobId = old.jobId)
    (gone : stage = none → ∀ job ∈ sys.inner.queue, job.completion ≠ call) :
    Sound (sys.goto call stage) where
  intact := { sound.intact with }
  __ := sound
  owned := by
    intro job isQueued
    obtain ⟨owner, isOwner, isId⟩ := sound.owned job isQueued
    by_cases isCall : job.completion = call
    · cases stage with
      | none => exact absurd isCall (gone rfl job isQueued)
      | some next =>
        rw [isCall, found] at isOwner
        cases isOwner
        refine ⟨next, ?_, (keeps next rfl).2.trans isId⟩
        rw [isCall]
        exact update_self _ _ _
    · exact ⟨owner, (update_of_ne isCall _ _).trans isOwner, isId⟩
  same := by
    intro job isAdmitted next isNext
    rcases update_eq_some isNext with ⟨isCall, isStage⟩ | ⟨_, wasNext⟩
    · obtain ⟨sameData, sameId⟩ := keeps next isStage
      rw [sameData, sameId]
      exact sound.same job isAdmitted old (isCall ▸ found)
    · exact sound.same job isAdmitted next wasNext
  single := by
    have was : ∀ id next jobId, (sys.goto call stage).calls id = some next →
        next.jobId = some jobId →
        ∃ before, sys.calls id = some before ∧ before.jobId = some jobId := by
      intro id next jobId isNext isId
      rcases update_eq_some isNext with ⟨rfl, isStage⟩ | ⟨_, wasNext⟩
      · exact ⟨old, found, (keeps next isStage).2.symm.trans isId⟩
      · exact ⟨next, wasNext, isId⟩
    intro first second firstStage secondStage jobId isFirst isSecond firstId secondId
    obtain ⟨firstOld, wasFirst, firstHad⟩ := was first firstStage jobId isFirst firstId
    obtain ⟨secondOld, wasSecond, secondHad⟩ := was second secondStage jobId isSecond secondId
    exact sound.single first second firstOld secondOld jobId wasFirst wasSecond firstHad secondHad
  fresh := by
    intro other isLater
    have isLate : sys.started ≤ other := isLater
    have isStarted := sound.started found
    show update sys.calls call stage other = none
    rw [update_of_ne (by omega)]
    exact sound.fresh other isLate
  full := by
    intro other next isNext
    rcases update_eq_some isNext with ⟨_, isStage⟩ | ⟨_, wasNext⟩
    · rw [(keeps next isStage).1]
      exact sound.full call old found
    · exact sound.full other next wasNext

theorem Intact.reports (intact : Intact sys) (outcome : Outcome)
    (isDone : outcome.result = .ok → outcome.data = [] ∨ ∃ written ∈ sys.written,
      written.job.completion = outcome.call ∧ written.job.bytes = outcome.data ∧
        written.result = .ok) :
    Intact { sys with outcomes := sys.outcomes ++ [outcome] } := by
  refine { intact with done := fun other isOther => ?_ }
  rcases mem_append.mp isOther with isOld | isNew
  · exact intact.done other isOld
  · exact mem_singleton.mp isNew ▸ isDone

/-- A call returns without a job in the queue, and with the truth about a success. -/
theorem Sound.give (sound : Sound sys) {stage : Stage} (found : sys.calls call = some stage)
    (gone : ∀ job ∈ sys.inner.queue, job.completion ≠ call)
    (isDone : result = .ok → ∃ written ∈ sys.written, written.job.completion = call ∧
      written.job.bytes = stage.data ∧ written.result = .ok) :
    Sound (sys.give call stage.data result) := by
  have left : Sound (sys.goto call none) :=
    sound.goto found nofun fun _ => gone
  exact { left with
    intact := left.intact.reports ⟨call, stage.data, result⟩ fun isOk => .inr (isDone isOk) }

theorem Sound.noQueued (sound : Sound sys) (found : sys.calls call = some stage)
    (noJob : stage.jobId = none) :
    ∀ job ∈ sys.inner.queue, job.completion ≠ call :=
  fun job isQueued => sound.notAdmitted found noJob job (sound.mem_admitted isQueued)

/-! ## The writes -/

theorem Sound.write (sound : Sound sys) {deadlineAt : Nat} (isFull : data ≠ []) :
    Sound { sys.goto sys.started (some (.enqueuing data deadlineAt)) with
      started := sys.started + 1 } where
  intact := { sound.intact with }
  __ := sound
  owned := by
    intro job isQueued
    obtain ⟨owner, isOwner, isId⟩ := sound.owned job isQueued
    have isOld := (sound.started isOwner).ne
    exact ⟨owner, (update_of_ne isOld _ _).trans isOwner, isId⟩
  same := by
    intro job isAdmitted next isNext
    rcases update_eq_some isNext with ⟨isStarted, _⟩ | ⟨_, wasNext⟩
    · exact absurd isStarted (sound.past job isAdmitted).ne
    · exact sound.same job isAdmitted next wasNext
  single := by
    intro first second firstStage secondStage jobId isFirst isSecond firstId secondId
    rcases update_eq_some isFirst with ⟨_, isStage⟩ | ⟨_, wasFirst⟩
    · cases isStage
      cases firstId
    rcases update_eq_some isSecond with ⟨_, isStage⟩ | ⟨_, wasSecond⟩
    · cases isStage
      cases secondId
    exact sound.single first second firstStage secondStage jobId wasFirst wasSecond firstId
      secondId
  past := fun job isAdmitted => Nat.lt_succ_of_lt (sound.past job isAdmitted)
  fresh := by
    intro other isLater
    have isLate : sys.started + 1 ≤ other := isLater
    show update sys.calls sys.started _ other = none
    rw [update_of_ne (by omega)]
    exact sound.fresh other (by omega)
  full := by
    intro other next isNext
    rcases update_eq_some isNext with ⟨_, isStage⟩ | ⟨_, wasNext⟩
    · cases isStage
      exact isFull
    · exact sound.full other next wasNext

theorem Sound.pushBack (sound : Sound sys) {deadlineAt : Nat}
    (found : sys.calls call = some (.enqueuing data deadlineAt))
    (isNew : ∀ other stage, sys.calls other = some stage →
      stage.jobId ≠ some sys.inner.nextId) (fits : sys.fits data = true) :
    Sound (sys.pushBack call data deadlineAt) where
  intact :=
    { counted := by
        refine Eq.trans ?_ (queued_concat sys.inner.queue _).symm
        exact congrArg (· + data.length) sound.intact.counted
      limited := by
        unfold System.fits at fits
        rw [Bool.or_eq_true, decide_eq_true_eq, decide_eq_true_eq] at fits
        rcases fits with isZero | isSmall
        · cases isQueue : sys.inner.queue with
          | nil =>
            refine .inr ⟨⟨sys.inner.nextId, data, call⟩, ?_⟩
            exact congrArg (· ++ _) isQueue
          | cons job queue =>
            have isJob : job ∈ sys.inner.queue := isQueue ▸ mem_cons_self
            have someBytes := List.length_pos_iff.mpr (sound.filled job isJob)
            have counted := sound.intact.counted
            rw [isZero, isQueue, queued_cons] at counted
            omega
        · exact .inl isSmall
      ordered := by
        have longer := sound.intact.ordered.append
          (List.Sublist.refl [(⟨sys.inner.nextId, data, call⟩ : QueuedWrite)])
        unfold System.line at longer ⊢
        rwa [append_assoc] at longer
      output := sound.intact.output
      whole := sound.intact.whole
      dropped := by
        intro job isRemoved isInLine
        have isOld := sound.intact.dropped job isRemoved
        have notMine := sound.notAdmitted found rfl job (sound.known job isRemoved)
        have isEither : job ∈ sys.written.map Written.job ++ sys.writer.job ++
            (sys.inner.queue ++ [⟨sys.inner.nextId, data, call⟩]) := isInLine
        rw [← append_assoc] at isEither
        rcases mem_append.mp isEither with wasInLine | isMine
        · exact isOld wasInLine
        · exact notMine (congrArg QueuedWrite.completion (mem_singleton.mp isMine))
      done := sound.intact.done }
  filled := by
    intro job isQueued
    rcases mem_append.mp isQueued with isOld | isMine
    · exact sound.filled job isOld
    · rw [mem_singleton.mp isMine]
      exact sound.full call _ found
  owned := by
    intro job isQueued
    rcases mem_append.mp isQueued with isOld | isMine
    · obtain ⟨owner, isOwner, isId⟩ := sound.owned job isOld
      have isOther := sound.noQueued found rfl job isOld
      exact ⟨owner, (update_of_ne isOther _ _).trans isOwner, isId⟩
    · rw [mem_singleton.mp isMine]
      exact ⟨_, update_self _ _ _, rfl⟩
  same := by
    intro job isAdmitted next isNext
    rcases mem_append.mp isAdmitted with isOld | isMine
    · have isOther := sound.notAdmitted found rfl job isOld
      exact sound.same job isOld next ((update_of_ne isOther _ _).symm.trans isNext)
    · rw [mem_singleton.mp isMine] at isNext ⊢
      have isStage := (update_self _ _ _).symm.trans isNext
      cases isStage
      exact ⟨Option.some_ne_none _, rfl⟩
  single := by
    intro first second firstStage secondStage jobId isFirst isSecond firstId secondId
    rcases update_eq_some isFirst with ⟨rfl, isStage⟩ | ⟨_, wasFirst⟩
    · cases isStage
      rcases update_eq_some isSecond with ⟨rfl, _⟩ | ⟨_, wasSecond⟩
      · rfl
      · exact absurd (secondId.trans firstId.symm) (isNew second secondStage wasSecond)
    · rcases update_eq_some isSecond with ⟨rfl, isStage⟩ | ⟨_, wasSecond⟩
      · cases isStage
        exact absurd (firstId.trans secondId.symm) (isNew first firstStage wasFirst)
      · exact sound.single first second firstStage secondStage jobId wasFirst wasSecond firstId
          secondId
  distinct := by
    show ((sys.admitted ++ [_]).map QueuedWrite.completion).Nodup
    rw [map_append]
    refine List.Nodup.append sound.distinct (List.nodup_singleton _) ?_
    intro completion isOld isMine
    obtain ⟨job, isAdmitted, rfl⟩ := mem_map.mp isOld
    exact sound.notAdmitted found rfl job isAdmitted (mem_singleton.mp isMine)
  past := by
    intro job isAdmitted
    rcases mem_append.mp isAdmitted with isOld | isMine
    · exact sound.past job isOld
    · rw [mem_singleton.mp isMine]
      exact sound.started found
  fresh := by
    intro other isLater
    have isLate : sys.started ≤ other := isLater
    have isStarted := sound.started found
    show update sys.calls call _ other = none
    rw [update_of_ne (by omega)]
    exact sound.fresh other isLate
  full := by
    intro other next isNext
    rcases update_eq_some isNext with ⟨_, isStage⟩ | ⟨_, wasNext⟩
    · cases isStage
      have isFull := sound.full call _ found
      exact isFull
    · exact sound.full other next wasNext
  known := fun job isRemoved => mem_append_left _ (sound.known job isRemoved)
  __ := sound

theorem Sound.enqueue (sound : Sound sys) {deadlineAt : Nat}
    (found : sys.calls call = some (.enqueuing data deadlineAt))
    (isNew : ∀ other stage, sys.calls other = some stage → stage.jobId ≠ some sys.inner.nextId) :
    Sound (sys.enqueue call data deadlineAt) := by
  have gives : ∀ message, Sound (sys.give call data (.err message)) := fun message =>
    sound.give found (sound.noQueued found rfl) nofun
  unfold System.enqueue
  split_ifs with _ fits
  · exact gives _
  · exact sound.pushBack found isNew fits
  · exact gives _
  · exact sound

theorem Sound.poll (sound : Sound sys) {deadlineAt : Nat}
    (found : sys.calls call = some (.waiting data deadlineAt jobId)) :
    Sound (sys.poll call data deadlineAt jobId) := by
  unfold System.poll
  split
  · rename_i result isStored
    obtain ⟨written, isWritten, isMine, isResult⟩ := sound.stored call result isStored
    have isAdmitted : written.job ∈ sys.admitted :=
      sound.intact.ordered.subset (mem_append_left _ (mem_append_left _
        (List.mem_map_of_mem isWritten)))
    have sameData := (sound.same written.job isAdmitted _ (isMine ▸ found)).2
    have given : Sound (sys.give call data result) := by
      refine sound.give found (isMine ▸ sound.notQueued isWritten) fun isOk => ?_
      exact ⟨written, isWritten, isMine, sameData.symm, isResult.trans isOk⟩
    have stored : ∀ other next, update sys.slots call none other = some next →
        ∃ written ∈ sys.written, written.job.completion = other ∧ written.result = next := by
      intro other next isNext
      rcases update_eq_some isNext with ⟨_, isNone⟩ | ⟨_, wasNext⟩
      · cases isNone
      · exact sound.stored other next wasNext
    exact { given with intact := { given.intact with }, stored := stored }
  · split_ifs
    · refine sound.goto found ?_ nofun
      intro next isNext
      cases isNext
      exact ⟨rfl, rfl⟩
    · exact sound

/-- The job that is taken out is the call's own, and the whole of it is taken off the count. -/
theorem Sound.dropQueuedJob (sound : Sound sys)
    (found : sys.calls call = some (.dropping data jobId)) :
    Sound (sys.dropQueuedJob jobId data.length) ∧
      ∀ job ∈ (sys.dropQueuedJob jobId data.length).inner.queue, job.completion ≠ call := by
  have isOwn : ∀ job ∈ sys.inner.queue, job.id = jobId → job.completion = call := by
    intro job isQueued isId
    obtain ⟨owner, isOwner, ownerId⟩ := sound.owned job isQueued
    exact sound.single _ _ _ _ jobId isOwner found (ownerId.trans (congrArg some isId)) rfl
  have isId : ∀ job ∈ sys.inner.queue, job.completion = call → job.id = jobId := by
    intro job isQueued isCall
    obtain ⟨owner, isOwner, ownerId⟩ := sound.owned job isQueued
    rw [isCall, found] at isOwner
    cases isOwner
    exact (Option.some.inj ownerId).symm
  unfold System.dropQueuedJob
  split
  · rename_i job isFound
    have isQueued : job ∈ sys.inner.queue := List.mem_of_find?_eq_some isFound
    have isJob : job.id = jobId := by simpa using List.find?_some isFound
    have isCall := isOwn job isQueued isJob
    have sameData : data = job.bytes :=
      (sound.same job (sound.mem_admitted isQueued) (.dropping data jobId) (isCall ▸ found)).2
    have isPerm := perm_eraseP isFound
    have isLess : (sys.inner.queue.eraseP fun job => job.id = jobId).Sublist
        sys.inner.queue := List.eraseP_sublist
    have count : queued sys.inner.queue = data.length + queued
        (sys.inner.queue.eraseP fun job => job.id = jobId) := by
      rw [queued_perm isPerm, queued_cons, sameData]
    have counted := sound.intact.counted
    have shorter : (sys.written.map Written.job ++ sys.writer.job ++
        sys.inner.queue.eraseP fun job => job.id = jobId).Sublist sys.line :=
      (List.Sublist.refl _).append isLess
    have distinct : (sys.written.map Written.job ++ sys.writer.job ++
        (job :: sys.inner.queue.eraseP fun job => job.id = jobId)).Nodup :=
      (isPerm.append_left _).nodup_iff.mp sound.nodup_line
    have notLeft : job ∉ sys.written.map Written.job ++ sys.writer.job ++
        sys.inner.queue.eraseP fun job => job.id = jobId :=
      (List.nodup_middle.mp distinct).notMem
    constructor
    · exact
        { sound with
          intact :=
            { sound.intact with
              counted := by
                show sys.inner.queuedBytes - data.length =
                  queued (sys.inner.queue.eraseP fun job => job.id = jobId)
                omega
              limited := by
                refine .inl ?_
                show sys.inner.queuedBytes - data.length ≤ _
                rcases sound.intact.limited with isSmall | ⟨only, isOnly⟩
                · omega
                · have lengths := isPerm.length_eq
                  have isOne : sys.inner.queue.length = 1 := by
                    rw [isOnly]
                    rfl
                  rw [isOne, List.length_cons] at lengths
                  have isEmpty := List.length_eq_zero_iff.mp (Nat.succ_injective lengths).symm
                  rw [isEmpty, show queued [] = 0 from rfl] at count
                  omega
              ordered := shorter.trans sound.intact.ordered
              dropped := by
                intro other isRemoved
                rcases mem_append.mp isRemoved with isOld | isMine
                · exact fun isLeft => sound.intact.dropped other isOld (shorter.subset isLeft)
                · rw [mem_singleton.mp isMine]
                  exact notLeft }
          filled := fun other isLeft => sound.filled other (isLess.subset isLeft)
          owned := fun other isLeft => sound.owned other (isLess.subset isLeft)
          known := by
            intro other isRemoved
            rcases mem_append.mp isRemoved with isOld | isMine
            · exact sound.known other isOld
            · rw [mem_singleton.mp isMine]
              exact sound.mem_admitted isQueued }
    · intro other isLeft otherCall
      have sameCompletion : other.completion = job.completion := otherCall.trans isCall.symm
      have isInLine : other ∈ sys.line := mem_append_right _ (isLess.subset isLeft)
      have isSame : other = job := List.inj_on_of_nodup_map sound.distinct_line isInLine
        (mem_append_right _ isQueued) sameCompletion
      exact notLeft (isSame ▸ mem_append_right _ isLeft)
  · rename_i notFound
    refine ⟨sound, fun job isQueued isCall => ?_⟩
    have isNot := List.find?_eq_none.mp notFound job isQueued
    exact isNot (decide_eq_true (isId job isQueued isCall))

/-! ## The writer thread -/

theorem Sound.rest (sound : Sound sys) {writer : WriterThread}
    (before : sys.writer.job = [] ∧ sys.writer.piece = [])
    (after : writer = .idle ∨ writer = .failed ∨ writer = .exited) :
    Sound { sys with writer := writer } := by
  obtain ⟨noJob, noPiece⟩ : writer.job = [] ∧ writer.piece = [] := by
    rcases after with rfl | rfl | rfl <;> exact ⟨rfl, rfl⟩
  have sameLine : sys.written.map Written.job ++ writer.job ++ sys.inner.queue =
      sys.line := by
    unfold System.line
    rw [noJob, before.1]
  exact
    { sound with
      intact :=
        { sound.intact with
          ordered := (congrArg (List.Sublist · sys.admitted) sameLine).mpr sound.intact.ordered
          output := by
            have output := sound.intact.output
            rw [before.2] at output
            show sys.output = _ ++ writer.piece
            rw [noPiece]
            exact output
          dropped := fun other isRemoved isLeft =>
            sound.intact.dropped other isRemoved ((congrArg (other ∈ ·) sameLine).mp isLeft) }
      storing := by
        intro _ _ isStoring
        have isWriter : writer = _ := isStoring
        rcases after with rfl | rfl | rfl <;> cases isWriter
      taken := by
        intro _ _ isWriting
        have isWriter : writer = _ := isWriting
        rcases after with rfl | rfl | rfl <;> cases isWriter }

theorem Sound.dequeue (sound : Sound sys) (isIdle : sys.writer = .idle) {next : System}
    (ran : sys.dequeue = some next) : Sound next := by
  unfold System.dequeue at ran
  split at ran
  · rename_i job queue isQueue
    cases ran
    have counted := sound.intact.counted
    rw [isQueue, queued_cons] at counted
    have isIn : ∀ other ∈ queue, other ∈ sys.inner.queue := fun other isOther =>
      isQueue ▸ List.mem_cons_of_mem _ isOther
    have sameLine : sys.written.map Written.job ++ [job] ++ queue = sys.line := by
      unfold System.line
      rw [isIdle, isQueue]
      simp [WriterThread.job]
    exact
      { sound with
        intact :=
          { sound.intact with
            counted := by
              show sys.inner.queuedBytes - job.bytes.length = queued queue
              omega
            limited := by
              refine .inl ?_
              show sys.inner.queuedBytes - job.bytes.length ≤ _
              rcases sound.intact.limited with isSmall | ⟨only, isOnly⟩
              · omega
              · rw [isQueue] at isOnly
                cases isOnly
                rw [counted]
                simp [queued]
            ordered := (congrArg (List.Sublist · sys.admitted) sameLine).mpr sound.intact.ordered
            output := by
              have output := sound.intact.output
              rwa [isIdle] at output
            dropped := fun other isRemoved isLeft =>
              sound.intact.dropped other isRemoved ((congrArg (other ∈ ·) sameLine).mp isLeft) }
        filled := fun other isOther => sound.filled other (isIn other isOther)
        owned := fun other isOther => sound.owned other (isIn other isOther)
        storing := nofun
        taken := by
          intro other count isWriting
          cases isWriting
          exact Nat.zero_le _ }
  · split_ifs at ran
    cases ran
    exact sound.rest (by rw [isIdle]; exact ⟨rfl, rfl⟩) (.inr (.inr rfl))

theorem Sound.take (sound : Sound sys) {count : Nat}
    (isWriting : sys.writer = .writing job taken) (fits : taken + count ≤ job.bytes.length) :
    Sound { sys with
      writer := .writing job (taken + count)
      output := sys.output ++ (job.bytes.drop taken).take count } := by
  have sameLine : sys.written.map Written.job ++ [job] ++ sys.inner.queue = sys.line := by
    unfold System.line
    rw [isWriting]
    rfl
  exact
    { sound with
      intact :=
        { sound.intact with
          ordered := (congrArg (List.Sublist · sys.admitted) sameLine).mpr sound.intact.ordered
          output := by
            have output := sound.intact.output
            rw [isWriting] at output
            show sys.output ++ _ = _ ++ job.bytes.take (taken + count)
            rw [output, List.take_add, append_assoc]
            rfl
          dropped := fun other isRemoved isLeft =>
            sound.intact.dropped other isRemoved ((congrArg (other ∈ ·) sameLine).mp isLeft) }
      storing := nofun
      taken := by
        intro other size isOther
        cases isOther
        exact fits }

theorem Sound.finish (sound : Sound sys) (isWriting : sys.writer = .writing job taken)
    (isWhole : result = .ok → job.bytes.length ≤ taken) :
    Sound { sys with
      writer := .storing job.completion result
      written := sys.written ++ [⟨job, taken, result⟩] } := by
  have sameLine : (sys.written ++ [(⟨job, taken, result⟩ : Written)]).map Written.job ++ [] ++
      sys.inner.queue = sys.line := by
    unfold System.line
    rw [isWriting, map_append, List.append_nil]
    rfl
  have isEnded : (⟨job, taken, result⟩ : Written) ∈ sys.written ++ [⟨job, taken, result⟩] :=
    mem_append_right _ mem_cons_self
  exact
    { sound with
      intact :=
        { sound.intact with
          ordered := (congrArg (List.Sublist · sys.admitted) sameLine).mpr sound.intact.ordered
          output := by
            have output := sound.intact.output
            rw [isWriting] at output
            show sys.output = (sys.written ++ [_]).flatMap Written.piece ++ []
            rw [output, List.flatMap_append, List.flatMap_singleton, List.append_nil]
            rfl
          whole := by
            intro written isWritten isOk
            rcases mem_append.mp isWritten with isOld | isMine
            · exact sound.intact.whole written isOld isOk
            · rw [mem_singleton.mp isMine] at isOk ⊢
              exact List.take_of_length_le (isWhole isOk)
          dropped := fun other isRemoved isLeft =>
            sound.intact.dropped other isRemoved ((congrArg (other ∈ ·) sameLine).mp isLeft)
          done := by
            intro outcome isOutcome isOk
            refine (sound.intact.done outcome isOutcome isOk).imp_right ?_
            rintro ⟨written, isWritten, isCall⟩
            exact ⟨written, mem_append_left _ isWritten, isCall⟩ }
      stored := by
        intro other next isStored
        obtain ⟨written, isWritten, isMine⟩ := sound.stored other next isStored
        exact ⟨written, mem_append_left _ isWritten, isMine⟩
      storing := by
        intro completion next isStoring
        cases isStoring
        exact ⟨_, isEnded, rfl, rfl⟩
      taken := nofun }

theorem Sound.store (sound : Sound sys) {completion : Nat}
    (isStoring : sys.writer = .storing completion result) :
    Sound { sys with
      slots := update sys.slots completion (some result)
      writer := if result = .ok then .idle else .failed } := by
  have rested : Sound { sys with writer := if result = .ok then .idle else .failed } := by
    refine sound.rest (by rw [isStoring]; exact ⟨rfl, rfl⟩) ?_
    split_ifs
    · exact .inl rfl
    · exact .inr (.inl rfl)
  have stored : ∀ other next, update sys.slots completion (some result) other =
      some next → ∃ written ∈ sys.written, written.job.completion = other ∧
        written.result = next := by
    intro other next isNext
    rcases update_eq_some isNext with ⟨rfl, isResult⟩ | ⟨_, wasNext⟩
    · cases isResult
      exact sound.storing _ _ isStoring
    · exact sound.stored other next wasNext
  exact { rested with intact := { rested.intact with }, stored := stored }

theorem step_sound (sound : Sound sys) {label : Label} (clean : Clean sys label)
    {next : System} (ran : step sys label = some next) : Sound next := by
  unfold step at ran
  cases label with
  | write data =>
    dsimp only at ran
    split_ifs at ran with isEmpty
    · cases ran
      exact
        { sound with
          intact := { sound.intact.reports ⟨sys.started, data, .ok⟩
            fun _ => .inl (List.isEmpty_iff.mp isEmpty) with }
          past := fun job isAdmitted => Nat.lt_succ_of_lt (sound.past job isAdmitted)
          fresh := fun other isLater => sound.fresh other (Nat.le_of_succ_le isLater) }
    · cases ran
      exact sound.write fun isNil => isEmpty (List.isEmpty_iff.mpr isNil)
  | enqueue call =>
    dsimp only at ran
    split at ran
    · rename_i found
      cases ran
      exact sound.enqueue found clean
    · cases ran
  | waitTimedOut call =>
    dsimp only at ran
    split at ran
    · rename_i found
      split_ifs at ran
      cases ran
      exact sound.give found (sound.noQueued found rfl) nofun
    · cases ran
  | poll call =>
    dsimp only at ran
    split at ran
    · rename_i found
      cases ran
      exact sound.poll found
    · cases ran
  | dropQueuedJob call =>
    dsimp only at ran
    split at ran
    · rename_i data jobId found
      cases ran
      obtain ⟨dropped, notQueued⟩ := sound.dropQueuedJob found
      have stillFound : (sys.dropQueuedJob jobId data.length).calls call =
          some (.dropping data jobId) := by
        unfold System.dropQueuedJob
        split <;> exact found
      exact dropped.give stillFound notQueued nofun
    · cases ran
  | dequeue =>
    dsimp only at ran
    split at ran
    · rename_i isIdle
      exact sound.dequeue isIdle ran
    · cases ran
  | take count =>
    dsimp only at ran
    split at ran
    · rename_i isWriting
      split_ifs at ran with fits
      cases ran
      exact sound.take isWriting fits
    · cases ran
  | finish result =>
    dsimp only at ran
    split at ran
    · rename_i isWriting
      split_ifs at ran with notDone
      cases ran
      exact sound.finish isWriting fun isOk => Nat.le_of_not_lt fun isLess =>
        notDone ⟨isOk, isLess⟩
    · cases ran
  | store =>
    dsimp only at ran
    split at ran
    · rename_i isStoring
      cases ran
      exact sound.store isStoring
    · cases ran
  | checkClosed =>
    dsimp only at ran
    split at ran
    · rename_i hasFailed
      cases ran
      refine sound.rest (by rw [hasFailed]; exact ⟨rfl, rfl⟩) ?_
      split_ifs
      · exact .inr (.inr rfl)
      · exact .inl rfl
    · cases ran
  | close | tick duration =>
    cases ran
    exact { sound with intact := { sound.intact with } }

end

/-! ## The callers -/

def Stage.deadlineAt : Stage → Nat
  | .enqueuing _ deadlineAt => deadlineAt
  | .waiting _ deadlineAt _ => deadlineAt
  | .dropping _ _ => 0

/-- How many turns a call takes at most when its deadline is past. -/
def Stage.turns : Stage → Nat
  | .enqueuing _ _ => 3
  | .waiting _ _ _ => 2
  | .dropping _ _ => 1

def System.HasOutcome (sys : System) (call : Nat) : Prop :=
  ∃ outcome ∈ sys.outcomes, outcome.call = call

/-- What every step keeps of the calls that it is not about. -/
structure Frame (sys next : System) (label : Label) : Prop where
  started : sys.started ≤ next.started
  now : sys.now ≤ next.now
  outcomes : ∀ outcome ∈ sys.outcomes, outcome ∈ next.outcomes
  calls : ∀ call, call < sys.started → label.call ≠ some call →
    next.calls call = sys.calls call

section
variable {sys next : System} {label : Label} {call : Nat}

theorem Frame.refl (sys : System) (label : Label) : Frame sys sys label :=
  ⟨le_rfl, le_rfl, fun _ isIn => isIn, fun _ _ _ => rfl⟩

theorem give_frame (data : Bytes) (result : WriteResult) (isOwn : label.call = some call) :
    Frame sys (sys.give call data result) label where
  started := le_rfl
  now := le_rfl
  outcomes := fun _ isIn => mem_append_left _ isIn
  calls := fun other _ notOwn =>
    update_of_ne (fun isCall : other = call => notOwn (isCall ▸ isOwn)) _ _

theorem goto_frame (stage : Option Stage) (isOwn : label.call = some call) :
    Frame sys (sys.goto call stage) label where
  started := le_rfl
  now := le_rfl
  outcomes := fun _ isIn => isIn
  calls := fun other _ notOwn =>
    update_of_ne (fun isCall : other = call => notOwn (isCall ▸ isOwn)) _ _

theorem step_frame (ran : step sys label = some next) : Frame sys next label := by
  unfold step at ran
  cases label with
  | write data =>
    dsimp only at ran
    split_ifs at ran
    · cases ran
      exact ⟨Nat.le_succ _, le_rfl, fun _ isIn => mem_append_left _ isIn, fun _ _ _ => rfl⟩
    · cases ran
      exact ⟨Nat.le_succ _, le_rfl, fun _ isIn => isIn,
        fun _ isStarted _ => update_of_ne isStarted.ne _ _⟩
  | enqueue call =>
    dsimp only at ran
    split at ran
    · cases ran
      unfold System.enqueue
      split_ifs
      · exact give_frame _ _ rfl
      · exact { goto_frame _ rfl with }
      · exact give_frame _ _ rfl
      · exact Frame.refl _ _
    · cases ran
  | waitTimedOut call =>
    dsimp only at ran
    split at ran
    · split_ifs at ran
      cases ran
      exact give_frame _ _ rfl
    · cases ran
  | poll call =>
    dsimp only at ran
    split at ran
    · cases ran
      unfold System.poll
      split
      · exact { give_frame _ _ rfl with }
      · split_ifs
        · exact goto_frame _ rfl
        · exact Frame.refl _ _
    · cases ran
  | dropQueuedJob call =>
    dsimp only at ran
    split at ran
    · cases ran
      unfold System.dropQueuedJob
      split
      · exact { give_frame _ _ rfl with }
      · exact give_frame _ _ rfl
    · cases ran
  | dequeue =>
    dsimp only at ran
    split at ran
    · unfold System.dequeue at ran
      split at ran
      · cases ran
        exact { Frame.refl _ _ with }
      · split_ifs at ran
        cases ran
        exact { Frame.refl _ _ with }
    · cases ran
  | take count | finish result =>
    dsimp only at ran
    split at ran
    · split_ifs at ran
      cases ran
      exact { Frame.refl _ _ with }
    · cases ran
  | store | checkClosed =>
    dsimp only at ran
    split at ran
    · cases ran
      exact { Frame.refl _ _ with }
    · cases ran
  | close =>
    cases ran
    exact { Frame.refl _ _ with }
  | tick duration =>
    cases ran
    exact ⟨le_rfl, Nat.le_add_right _ _, fun _ isIn => isIn, fun _ _ _ => rfl⟩

/-- Where a call is after a turn of its own: it has returned, or it is further on, at least once
its deadline is past. -/
def Advanced (sys next : System) (call : Nat) (stage : Stage) : Prop :=
  next.HasOutcome call ∨ ∃ later, next.calls call = some later ∧
    later.deadlineAt ≤ stage.deadlineAt ∧
      (stage.deadlineAt ≤ sys.now → later.turns < stage.turns)

theorem give_advanced (data : Bytes) (result : WriteResult) (stage : Stage) :
    Advanced sys (next.give call data result) call stage :=
  .inl ⟨_, mem_append_right _ mem_cons_self, rfl⟩

theorem own_step (ran : step sys label = some next) (isOwn : label.call = some call)
    {stage : Stage} (found : sys.calls call = some stage) :
    Advanced sys next call stage := by
  unfold step at ran
  cases label with
  | enqueue id =>
    cases isOwn
    dsimp only at ran
    split at ran
    · rename_i data deadlineAt wasFound
      rw [found] at wasFound
      cases wasFound
      cases ran
      unfold System.enqueue
      split_ifs with _ _ isLate
      · exact give_advanced _ _ _
      · exact .inr ⟨_, update_self _ _ _, le_rfl, fun _ => Nat.lt_succ_self 2⟩
      · exact give_advanced _ _ _
      · exact .inr ⟨_, found, le_rfl, fun late => absurd late isLate⟩
    · cases ran
  | waitTimedOut id =>
    cases isOwn
    dsimp only at ran
    split at ran
    · split_ifs at ran
      cases ran
      exact give_advanced _ _ _
    · cases ran
  | poll id =>
    cases isOwn
    dsimp only at ran
    split at ran
    · rename_i data deadlineAt jobId wasFound
      rw [found] at wasFound
      cases wasFound
      cases ran
      unfold System.poll
      split
      · exact give_advanced _ _ _
      · split_ifs with isLate
        · exact .inr ⟨_, update_self _ _ _, Nat.zero_le _, fun _ => Nat.lt_succ_self 1⟩
        · exact .inr ⟨_, found, le_rfl, fun late => absurd late isLate⟩
    · cases ran
  | dropQueuedJob id =>
    cases isOwn
    dsimp only at ran
    split at ran
    · cases ran
      exact give_advanced _ _ _
    · cases ran
  | write _ | dequeue | take _ | finish _ | store | checkClosed | close | tick _ => cases isOwn

end

section
variable {states : Nat → System} {labels : Nat → Label} {call : Nat}

theorem Schedule.held (schedule : Schedule states labels) {stage : Stage}
    (found : (states 0).calls call = some stage) (isStarted : call < (states 0).started) :
    ∀ index, (states index).HasOutcome call ∨ (call < (states index).started ∧
      ∃ later, (states index).calls call = some later ∧ later.deadlineAt ≤ stage.deadlineAt)
  | 0 => .inr ⟨isStarted, stage, found, le_rfl⟩
  | index + 1 => by
    have ran := schedule.ran index
    have frame := step_frame ran
    rcases schedule.held found isStarted index with isOut | ⟨hasStarted, later, isLater, isSoon⟩
    · obtain ⟨outcome, isIn, isCall⟩ := isOut
      exact .inl ⟨outcome, frame.outcomes outcome isIn, isCall⟩
    · by_cases isOwn : (labels index).call = some call
      · rcases own_step ran isOwn isLater with isOut | ⟨next, isNext, isSooner, _⟩
        · exact .inl isOut
        · exact .inr ⟨hasStarted.trans_le frame.started, next, isNext, isSooner.trans isSoon⟩
      · exact .inr ⟨hasStarted.trans_le frame.started, later,
          (frame.calls call hasStarted isOwn).trans isLater, isSoon⟩

theorem Schedule.settled (schedule : Schedule states labels) :
    ∀ (turns index : Nat) (stage : Stage), (states index).calls call = some stage →
      stage.turns ≤ turns → stage.deadlineAt ≤ (states index).now →
      call < (states index).started → ∃ later, (states later).HasOutcome call := by
  intro turns
  induction turns with
  | zero =>
    intro index stage _ noTurns
    cases stage <;> cases noTurns
  | succ turns ih =>
    intro index stage found fewTurns isLate isStarted
    have notNone : (states index).calls call ≠ none := by
      rw [found]
      exact Option.some_ne_none _
    obtain ⟨turn, isBehind, isOwn⟩ := schedule.turn call index notNone
    obtain ⟨distance, rfl⟩ := Nat.exists_eq_add_of_le isBehind
    clear isBehind notNone
    -- The induction is on the steps of others before the call's own.
    induction distance generalizing index with
    | zero =>
      have ran := schedule.ran index
      have frame := step_frame ran
      rcases own_step ran isOwn found with isOut | ⟨later, isLater, isSooner, isFurther⟩
      · exact ⟨_, isOut⟩
      · exact ih (index + 1) later isLater
          (Nat.le_of_lt_succ ((isFurther isLate).trans_le fewTurns))
          ((isSooner.trans isLate).trans frame.now) (isStarted.trans_le frame.started)
    | succ distance distanceHypothesis =>
      have ran := schedule.ran index
      have frame := step_frame ran
      have later : index + 1 + distance = index + (distance + 1) := by omega
      by_cases ownNow : (labels index).call = some call
      · rcases own_step ran ownNow found with isOut | ⟨next, isNext, isSooner, isFurther⟩
        · exact ⟨_, isOut⟩
        · exact ih (index + 1) next isNext
            (Nat.le_of_lt_succ ((isFurther isLate).trans_le fewTurns))
            ((isSooner.trans isLate).trans frame.now) (isStarted.trans_le frame.started)
      · exact distanceHypothesis (index + 1)
          ((frame.calls call isStarted ownNow).trans found) (isLate.trans frame.now)
          (isStarted.trans_le frame.started) (later ▸ isOwn)

end

theorem Sound.answered {sys : System} (sound : Sound sys) : Answered sys := by
  rintro _ states labels rfl schedule call isWaiting
  obtain ⟨stage, found⟩ := Option.ne_none_iff_exists'.mp isWaiting
  obtain ⟨index, isLate⟩ := schedule.passes stage.deadlineAt
  rcases schedule.held found (sound.started found) index with isOut | ⟨isStarted, later, isLater,
    isSoon⟩
  · exact ⟨index, isOut⟩
  · exact schedule.settled later.turns index later isLater le_rfl (isSoon.trans isLate) isStarted

theorem queueKept {deadline : Nat} {finish : System}
    (run : Run step Clean (initial deadline) finish) : Intact finish ∧ Answered finish := by
  have sound : Sound finish := run.invariant (initial_sound deadline)
    fun _ _ _ sound clean ran => step_sound sound clean ran
  exact ⟨sound.intact, sound.answered⟩

/-- A job is written, and the one behind it is taken out at its deadline. -/
def timedOut : List Label :=
  [.write [1, 2], .enqueue 0, .write [3], .enqueue 1, .dequeue, .take 2, .finish .ok, .store,
    .poll 0, .tick 5, .poll 1, .dropQueuedJob 1]

theorem queueKept_timedOut : ∃ finish, Run step Clean (initial 5) finish ∧ finish.output = [1, 2] ∧
      finish.removed = [⟨1, [3], 1⟩] ∧ Intact finish ∧ Answered finish := by
  obtain ⟨finish, replayed, output, removed⟩ : ∃ finish, execute step (initial 5) timedOut =
      some finish ∧ finish.output = [1, 2] ∧ finish.removed = [⟨1, [3], 1⟩] :=
    ⟨_, rfl, rfl, rfl⟩
  -- The tables of calls are named where a job gets its id.
  have permitted : Permitted step Clean (initial 5) timedOut := by
    refine ⟨trivial, ⟨_, _, _, update (fun _ => none) 0 (some (.enqueuing [1, 2] 5)), _,
      _, _, _, _, _, _, _⟩, rfl, ?_, _, rfl, trivial, ⟨⟨_, _, 1, _⟩, _, _, update
      (update (update (fun _ => none) 0 (some (.enqueuing [1, 2] 5))) 0
        (some (.waiting [1, 2] 5 0))) 1 (some (.enqueuing [3] 5)), _, _, _, _, _, _, _, _⟩, rfl,
      ?_, _, rfl, trivial, _, rfl, trivial, _, rfl, trivial, _, rfl, trivial, _, rfl, trivial, _,
      rfl, trivial, _, rfl, trivial, _, rfl, trivial, _, rfl, trivial⟩
    · intro other stage found isId
      dsimp only at found
      rcases update_eq_some found with ⟨_, isStage⟩ | ⟨_, isNone⟩
      · cases isStage
        cases isId
      · cases isNone
    · intro other stage found isId
      dsimp only at found
      rcases update_eq_some found with ⟨_, isStage⟩ | ⟨_, found⟩
      · cases isStage
        cases isId
      · rcases update_eq_some found with ⟨_, isStage⟩ | ⟨isOther, found⟩
        · cases isStage
          exact absurd isId (by decide)
        · rw [update_of_ne isOther] at found
          cases found
  have run := run_of_permitted timedOut permitted replayed
  exact ⟨finish, run, output, removed, queueKept run⟩

/-- What the claim says of every job that has ended. -/
def Whole (sys : System) : Prop :=
  ∀ written ∈ sys.written, written.piece = written.job.bytes

/-- The PTY takes a part of a job and fails. -/
def cut : List Label := [.write [1, 2], .enqueue 0, .dequeue, .take 1, .finish (.err "EIO")]

theorem not_whole : ¬∀ deadline finish, Reachable step (initial deadline) finish →
    Whole finish := by
  intro whole
  obtain ⟨finish, replayed, written⟩ : ∃ finish, execute step (initial 5) cut = some finish ∧
      finish.written = [⟨⟨0, [1, 2], 0⟩, 1, .err "EIO"⟩] := ⟨_, rfl, rfl⟩
  have isWhole := whole 5 finish (reachable_of_execute cut replayed)
  unfold Whole at isWhole
  rw [written] at isWhole
  exact absurd (isWhole _ mem_cons_self) (by decide)

end AiTools.Daemon.PtyWriter
