import AiTools.Grove.SourceSync

/-!
Contract: what a source sync and a merge leave alone.

Owns:
- `errors_untouched`: when a failed merge or sync leaves HEAD, the index, the working tree and the
  operation in progress as they were;
- `refreshSourceRepo_kept`: the sync applies and drops no entry but its own, and the local changes
  stay in the tree or in that entry.
-/

namespace AiTools.Grove.SourceSync

/-- The list has the own entry, among those of others. -/
def Holds (repo : Repo) (staged unstaged : List Edit) : Prop :=
  ∃ front back : List Foreign, repo.stash =
    front.map Foreign.entry ++ ⟨.own, staged, unstaged⟩ :: back.map Foreign.entry

section
variable {repo : Repo} {staged unstaged : List Edit}

theorem Holds.othersPush (holds : Holds repo staged unstaged) (entries : List Foreign) :
    Holds (repo.othersPush entries) staged unstaged := by
  obtain ⟨front, back, isStash⟩ := holds
  refine ⟨entries ++ front, back, ?_⟩
  show entries.map Foreign.entry ++ repo.stash = _
  rw [isStash, List.map_append, List.append_assoc]

theorem notOwn (foreign : Foreign) : decide (foreign.entry.ref = .own) = false := rfl

theorem find_own (front back : List Foreign) (entry : Entry) (isOwn : entry.ref = .own) :
    (front.map Foreign.entry ++ entry :: back.map Foreign.entry).find?
      (fun other => other.ref = .own) = some entry := by
  induction front with
  | nil => exact List.find?_cons_of_pos (by simpa using isOwn)
  | cons first rest ih =>
    rw [List.map_cons, List.cons_append, List.find?_cons_of_neg (by simp [notOwn])]
    exact ih

theorem findIdx_own (front back : List Foreign) (entry : Entry) (isOwn : entry.ref = .own) :
    (front.map Foreign.entry ++ entry :: back.map Foreign.entry).findIdx?
      (fun other => other.ref = .own) = some front.length := by
  induction front with
  | nil => simp [List.findIdx?_cons, isOwn]
  | cons first rest ih =>
    rw [List.map_cons, List.cons_append, List.findIdx?_cons, notOwn, ih]
    rfl

theorem stashApply_own (holds : Holds repo staged unstaged) (outcome : Outcome) :
    repo.stashApply outcome .own =
      match outcome with
      | .failed => (false, repo)
      | .nothing => (true, repo)
      | .done => (true, { repo with
          work := { repo.work with unstaged := repo.work.unstaged ++ (staged ++ unstaged) }
          applied := repo.applied ++ [.own] }) := by
  obtain ⟨front, back, isStash⟩ := holds
  have isFound := find_own front back ⟨.own, staged, unstaged⟩ rfl
  unfold Repo.stashApply
  rw [isStash, isFound]
  cases outcome <;> rfl

/-- What a restore of the own entry leaves when the apply has taken effect. -/
structure Restored (repo : Repo) (staged unstaged : List Edit) (last : Repo) : Prop where
  work : last.work = { repo.work with unstaged := repo.work.unstaged ++ (staged ++ unstaged) }
  operation : last.operation = repo.operation
  applied : last.applied = repo.applied ++ [.own]

theorem stashDrop_restored {listed last : Repo} {outcome : Outcome} {position : Nat}
    (isLast : (listed.stashDrop outcome position).2 = last)
    (restored : Restored repo staged unstaged listed) : Restored repo staged unstaged last := by
  subst isLast
  unfold Repo.stashDrop
  split <;> exact ⟨restored.work, restored.operation, restored.applied⟩

theorem restore_applied (holds : Holds repo staged unstaged) {git : Commands}
    (isDone : git.stashApply = .done) (context : SyncError) :
    Restored repo staged unstaged (restoreSourceSyncStash git .own context repo).2 := by
  have applies := stashApply_own (holds.othersPush git.beforeApply) git.stashApply
  rw [isDone] at applies
  unfold restoreSourceSyncStash
  rw [isDone, applies]
  dsimp only
  split_ifs
  · split
    · exact ⟨rfl, rfl, rfl⟩
    · rename_i position _
      split
      · rename_i last dropped
        have isLast := congrArg Prod.snd dropped
        show Restored repo staged unstaged last
        exact stashDrop_restored isLast ⟨rfl, rfl, rfl⟩
      · rename_i last dropped
        have isLast := congrArg Prod.snd dropped
        show Restored repo staged unstaged last
        exact stashDrop_restored isLast ⟨rfl, rfl, rfl⟩
  · exact ⟨rfl, rfl, rfl⟩

end

section
variable {git : Commands} {branch : String}

theorem checkout_cases (outcome : Outcome) (head : Head) (repo : Repo) :
    outcome = .failed ∧ repo.checkout outcome head = (false, repo) ∨
      outcome ≠ .failed ∧ ∃ moved, (outcome = .done → moved = head) ∧
        (outcome ≠ .done → moved = repo.work.head) ∧ repo.checkout outcome head =
          (true, { repo with
            work := { repo.work with head := moved }
            operation := unmerged repo.operation }) := by
  cases outcome with
  | failed => exact .inl ⟨rfl, rfl⟩
  | nothing => exact .inr ⟨nofun, repo.work.head, nofun, fun _ => rfl, rfl⟩
  | done => exact .inr ⟨nofun, head, fun _ => rfl, absurd rfl, rfl⟩

structure SameStash (before after : Repo) : Prop where
  stash : after.stash = before.stash
  applied : after.applied = before.applied
  dropped : after.dropped = before.dropped

theorem join_sameStash (kind : OperationKind) (outcome : Joining) (repo : Repo) :
    SameStash repo (repo.join kind outcome).2 := by
  unfold Repo.join
  split_ifs
  · exact ⟨rfl, rfl, rfl⟩
  · cases outcome <;> exact ⟨rfl, rfl, rfl⟩

theorem abort_sameStash (outcome : Outcome) (repo : Repo) : SameStash repo (repo.abort outcome) := by
  unfold Repo.abort
  split <;> exact ⟨rfl, rfl, rfl⟩

theorem checkout_sameStash (outcome : Outcome) (head : Head) (repo : Repo) :
    SameStash repo (repo.checkout outcome head).2 := by
  rcases checkout_cases outcome head repo with ⟨_, same⟩ | ⟨_, _, _, _, same⟩
  · rw [same]
    exact ⟨rfl, rfl, rfl⟩
  · rw [same]
    exact ⟨rfl, rfl, rfl⟩

theorem SameStash.trans {first second third : Repo} (before : SameStash first second)
    (after : SameStash second third) : SameStash first third :=
  ⟨after.stash.trans before.stash, after.applied.trans before.applied,
    after.dropped.trans before.dropped⟩

variable (git branch) in
theorem syncBranch_sameStash (repo : Repo) : SameStash repo (syncBranch git branch repo).2 := by
  have switched := checkout_sameStash git.checkout ⟨branch, git.commit⟩ repo
  unfold syncBranch
  cases isSwitched : repo.checkout git.checkout ⟨branch, git.commit⟩ with
  | mk succeeded next =>
    rw [isSwitched] at switched
    cases succeeded with
    | false => exact switched
    | true =>
      dsimp only
      split_ifs
      · have pulled := join_sameStash .rebase git.pull next
        cases isPulled : next.join .rebase git.pull with
        | mk joined last =>
          rw [isPulled] at pulled
          cases joined with
          | false => exact (switched.trans pulled).trans (abort_sameStash git.abort last)
          | true => exact switched.trans pulled
      · exact switched

end

/-- HEAD, the index, the working tree and the operation in progress. -/
structure Untouched (before after : Repo) : Prop where
  work : after.work = before.work
  operation : after.operation = before.operation

theorem join_free {repo : Repo} (isFree : repo.operation = none) (kind : OperationKind)
    (outcome : Joining) : repo.join kind outcome = repo.joinFree kind outcome := by
  have notStarted : ¬repo.operation.isSome = true := by
    rw [isFree]
    exact Bool.false_ne_true
  exact if_neg notStarted

section
variable {git : Commands} {branch : String}

def Joining.succeeds : Joining → Bool
  | .refused => false
  | .conflicted _ _ => false
  | .joined _ => true
  | .nothing => true

theorem syncBranch_changes {repo : Repo}
    (notEnded : repo.operation = none ∨ git.abort ≠ .done) :
    ∀ edit ∈ repo.work.changes, edit ∈ (syncBranch git branch repo).2.work.changes := by
  have switched : (repo.checkout git.checkout ⟨branch, git.commit⟩).2.work.changes =
        repo.work.changes ∧ (repo.operation = none →
      (repo.checkout git.checkout ⟨branch, git.commit⟩).2.operation = none) := by
    rcases checkout_cases git.checkout ⟨branch, git.commit⟩ repo with
      ⟨_, same⟩ | ⟨_, _, _, _, same⟩
    · rw [same]
      exact ⟨rfl, id⟩
    · rw [same]
      exact ⟨rfl, fun isNone => by rw [isNone]; rfl⟩
  unfold syncBranch
  cases isSwitched : repo.checkout git.checkout ⟨branch, git.commit⟩ with
  | mk succeeded next =>
    rw [isSwitched] at switched
    obtain ⟨sameChanges, staysNone⟩ := switched
    dsimp only at sameChanges staysNone
    rw [← sameChanges]
    cases succeeded with
    | false => exact fun _ isIn => isIn
    | true =>
      dsimp only
      split_ifs
      · cases isOperation : next.operation with
        | some operation =>
          have isRefused : next.join .rebase git.pull = (false, next) := by
            unfold Repo.join
            rw [isOperation]
            rfl
          have notDone : git.abort ≠ .done := by
            rcases notEnded with isNone | notDone
            · simp [staysNone isNone] at isOperation
            · exact notDone
          rw [isRefused]
          dsimp only
          unfold Repo.abort
          split
          · rename_i isDone _
            exact absurd isDone notDone
          · exact fun _ isIn => isIn
        | none =>
          rw [join_free isOperation]
          cases git.pull with
          | refused =>
            dsimp only [Repo.joinFree]
            unfold Repo.abort
            rw [isOperation]
            cases git.abort <;> exact fun _ isIn => isIn
          | nothing | joined _ => exact fun _ isIn => isIn
          | conflicted commit conflicts =>
            dsimp only [Repo.joinFree]
            unfold Repo.abort
            intro edit isIn
            have isKept : edit ∈ next.work.staged ++ (next.work.unstaged ++ conflicts) := by
              rw [← List.append_assoc]
              exact List.mem_append_left _ isIn
            cases git.abort with
            | done => exact isIn
            | failed | nothing => exact isKept
      · exact fun _ isIn => isIn

end

section
variable {git : Commands} {work : Work} {operation : Option Operation} {theirs : List Foreign}

/-- The state behind a push that has saved an entry. -/
def stashed (git : Commands) (work : Work) (operation : Option Operation) (theirs : List Foreign) :
    Repo :=
  { Repo.initial work operation theirs with
    work := { work with staged := [], unstaged := [] }
    operation := unmerged operation
    stash := ⟨.own, work.staged, work.unstaged⟩ ::
      (git.beforePush.map Foreign.entry ++ theirs.map Foreign.entry) }

variable (git work operation theirs) in
theorem stashed_holds : Holds (stashed git work operation theirs) work.staged work.unstaged := by
  refine ⟨[], git.beforePush ++ theirs, ?_⟩
  rw [List.map_append]
  rfl

theorem create_saved
    (isDirty : hasLocalSourceChanges git (Repo.initial work operation theirs) = true)
    (isDone : git.stashPush = .done) (isRead : git.stashRef = true) (noOther : git.beforeRef = []) :
    createSourceSyncStash git (Repo.initial work operation theirs) =
      (.ok (some .own), stashed git work operation theirs) := by
  unfold createSourceSyncStash
  rw [if_pos isDirty, isDone, isRead, noOther]
  rfl

theorem create_failed
    (isDirty : hasLocalSourceChanges git (Repo.initial work operation theirs) = true)
    (isFailed : git.stashPush = .failed) :
    createSourceSyncStash git (Repo.initial work operation theirs) =
      (.error .stashPush, (Repo.initial work operation theirs).othersPush git.beforePush) := by
  unfold createSourceSyncStash
  rw [if_pos isDirty, isFailed]
  rfl

theorem create_clean
    (isClean : hasLocalSourceChanges git (Repo.initial work operation theirs) ≠ true) :
    createSourceSyncStash git (Repo.initial work operation theirs) =
      (.ok none, Repo.initial work operation theirs) :=
  if_neg isClean

variable {repo : Repo}

theorem restore_eq {staged unstaged : List Edit} (holds : Holds repo staged unstaged)
    (isDone : git.stashApply = .done) (isListed : git.stashList = true) (context : SyncError) :
    ∃ (listed : Repo) (front back : List Foreign), listed.dropped = repo.dropped ∧
      listed.stash = front.map Foreign.entry ++ ⟨.own, staged, unstaged⟩ :: back.map Foreign.entry ∧
      restoreSourceSyncStash git .own context repo =
        (if ((listed.othersPush git.beforeDrop).stashDrop git.stashDrop front.length).1 then .ok ()
          else .error (.notDropped context .own front.length),
          ((listed.othersPush git.beforeDrop).stashDrop git.stashDrop front.length).2) := by
  have applies := stashApply_own (holds.othersPush git.beforeApply) git.stashApply
  rw [isDone] at applies
  let applied : Repo := { repo.othersPush git.beforeApply with
    work := { repo.work with unstaged := repo.work.unstaged ++ (staged ++ unstaged) }
    applied := repo.applied ++ [.own] }
  have isHeld : Holds (applied.othersPush git.beforeList) staged unstaged :=
    Holds.othersPush (holds.othersPush git.beforeApply) git.beforeList
  obtain ⟨front, back, isStash⟩ := isHeld
  have isFound := findIdx_own front back ⟨.own, staged, unstaged⟩ rfl
  rw [← isStash] at isFound
  refine ⟨applied.othersPush git.beforeList, front, back, rfl, isStash, ?_⟩
  unfold restoreSourceSyncStash
  rw [isDone, applies]
  dsimp only
  rw [if_pos isListed]
  split
  · rename_i isMissing
    cases isFound.symm.trans isMissing
  · rename_i position isPosition
    cases Option.some.inj (isFound.symm.trans isPosition)
    split
    · rename_i dropped isDropped
      change ((applied.othersPush git.beforeList).othersPush git.beforeDrop).stashDrop git.stashDrop
        front.length = (false, dropped) at isDropped
      rw [isDropped]
      rfl
    · rename_i dropped isDropped
      change ((applied.othersPush git.beforeList).othersPush git.beforeDrop).stashDrop git.stashDrop
        front.length = (true, dropped) at isDropped
      rw [isDropped]
      rfl

theorem stashDrop_own {staged unstaged : List Edit} {front back : List Foreign}
    (isStash : repo.stash =
      front.map Foreign.entry ++ ⟨.own, staged, unstaged⟩ :: back.map Foreign.entry)
    (outcome : Outcome) : ∀ ref ∈ (repo.stashDrop outcome front.length).2.dropped,
      ref ∈ repo.dropped ∨ ref = .own := by
  have isEntry : repo.stash[front.length]? = some ⟨.own, staged, unstaged⟩ := by
    rw [isStash, List.getElem?_append_right (by simp)]
    simp
  unfold Repo.stashDrop
  rw [isEntry]
  cases outcome with
  | failed | nothing => exact fun _ isIn => .inl isIn
  | done =>
    intro ref isIn
    rcases List.mem_append.mp isIn with isOld | isNew
    · exact .inl isOld
    · exact .inr (List.mem_singleton.mp isNew)

/-- Only the own entry is dropped when none is pushed between the list and the drop. -/
theorem restore_drops {staged unstaged : List Edit}
    (holds : Holds repo staged unstaged) (isDone : git.stashApply = .done)
    (noOther : git.stashList = true → git.beforeDrop = []) (context : SyncError) :
    ∀ ref ∈ (restoreSourceSyncStash git .own context repo).2.dropped,
      ref ∈ repo.dropped ∨ ref = .own := by
  cases isListed : git.stashList with
  | true =>
    obtain ⟨listed, front, back, sameDropped, isStash, restores⟩ :=
      restore_eq holds isDone isListed context
    have noPush : listed.othersPush git.beforeDrop = listed := by
      rw [noOther isListed]
      rfl
    have drops := stashDrop_own isStash git.stashDrop
    rw [restores, noPush, ← sameDropped]
    cases isDropped : listed.stashDrop git.stashDrop front.length with
    | mk succeeded last =>
      rw [isDropped] at drops
      cases succeeded <;> exact drops
  | false =>
    have applies := stashApply_own (holds.othersPush git.beforeApply) git.stashApply
    rw [isDone] at applies
    unfold restoreSourceSyncStash
    rw [isDone, applies]
    dsimp only
    rw [isListed]
    exact fun _ isIn => .inl isIn

theorem restore_failed {staged unstaged : List Edit}
    (holds : Holds repo staged unstaged) (isFailed : git.stashApply = .failed)
    (context : SyncError) : restoreSourceSyncStash git .own context repo =
      (.error (.notRestored context .own), repo.othersPush git.beforeApply) := by
  have applies := stashApply_own (holds.othersPush git.beforeApply) git.stashApply
  rw [isFailed] at applies
  unfold restoreSourceSyncStash
  rw [isFailed, applies]

end

/-- The sync comes to its checkout, or stops there behind a stash. -/
def Proceeds (git : Commands) (repo : Repo) : Prop :=
  git.defaultBranch ≠ none ∧ (hasLocalSourceChanges git repo = true → git.stashPush ≠ .failed)

section
variable {git : Commands} {work : Work} {operation : Option Operation} {theirs : List Foreign}

end

/-- One changed file on the default branch. -/
def oneChange : Work := ⟨⟨"main", 1⟩, [], ["a.txt"]⟩

/-- The fetch fails, and the stash is restored. -/
def fetchFails : Commands where
  defaultBranch := some "main"
  statuses := true
  otherStatus := false
  beforePush := []
  stashPush := .done
  beforeRef := []
  stashRef := true
  checkout := .nothing
  commit := 1
  fetch := false
  pull := .refused
  abort := .failed
  beforeApply := []
  stashApply := .done
  beforeList := []
  stashList := true
  beforeDrop := []
  stashDrop := .done

def InTree (changes : List Edit) (repo : Repo) : Prop := ∀ edit ∈ changes, edit ∈ repo.work.changes

/-- Only the own entry was applied and dropped, and the local changes are in the tree or in the own
entry, which the error names. -/
structure Kept (before : Repo) (result : Except SyncError Unit) (after : Repo) : Prop where
  applied : ∀ ref ∈ after.applied, ref = .own
  dropped : ∀ ref ∈ after.dropped, ref = .own
  changes : InTree before.work.changes after ∨ ∃ error, result = .error error ∧
    error.names .own = true ∧ ∃ entry ∈ after.stash, entry.ref = .own ∧
      entry.staged ++ entry.unstaged = before.work.changes

/-- A push that reports success has saved an entry, which stands first when the reference is read;
the apply has an effect; nobody pushes between the list and the drop. Without a stash, no abort ends
an operation that was in progress over local changes. -/
structure SyncSafe (git : Commands) (repo : Repo) : Prop where
  saved : hasLocalSourceChanges git repo = true → git.stashPush = .nothing → git.stashRef = false
  read : hasLocalSourceChanges git repo = true → git.stashPush = .done →
    git.stashRef = true ∧ git.beforeRef = []
  applied : hasLocalSourceChanges git repo = true → git.stashPush = .done →
    git.stashApply ≠ .nothing
  dropped : hasLocalSourceChanges git repo = true → git.stashPush = .done →
    git.stashApply = .done → git.stashList = true → git.beforeDrop = []
  notEnded : hasLocalSourceChanges git repo ≠ true →
    repo.work.changes = [] ∨ repo.operation = none ∨ git.abort ≠ .done

section
variable {git : Commands} {work : Work} {operation : Option Operation} {theirs : List Foreign}

/-- The restore of the own entry, on a list from which nothing was applied or dropped. -/
theorem restore_kept {repo : Repo} {staged unstaged : List Edit} (holds : Holds repo staged unstaged)
    (noApplied : repo.applied = []) (noDropped : repo.dropped = [])
    (hasEffect : git.stashApply ≠ .nothing)
    (noOther : git.stashApply = .done → git.stashList = true → git.beforeDrop = [])
    (context : SyncError) :
    (∀ ref ∈ (restoreSourceSyncStash git .own context repo).2.applied, ref = .own) ∧
      (∀ ref ∈ (restoreSourceSyncStash git .own context repo).2.dropped, ref = .own) ∧
      (InTree (staged ++ unstaged) (restoreSourceSyncStash git .own context repo).2 ∨
        (restoreSourceSyncStash git .own context repo).1 = .error (.notRestored context .own) ∧
          ∃ entry ∈ (restoreSourceSyncStash git .own context repo).2.stash, entry.ref = .own ∧
            entry.staged ++ entry.unstaged = staged ++ unstaged) := by
  cases isApply : git.stashApply with
  | nothing => exact absurd isApply hasEffect
  | failed =>
    rw [restore_failed holds isApply context]
    refine ⟨?_, ?_, .inr ⟨rfl, ⟨.own, staged, unstaged⟩, ?_, rfl, rfl⟩⟩
    · show ∀ ref ∈ repo.applied, ref = .own
      rw [noApplied]
      rintro _ ⟨⟩
    · show ∀ ref ∈ repo.dropped, ref = .own
      rw [noDropped]
      rintro _ ⟨⟩
    · obtain ⟨front, back, isStash⟩ := holds.othersPush git.beforeApply
      dsimp only
      rw [isStash]
      exact List.mem_append_right _ List.mem_cons_self
  | done =>
    have restored := restore_applied holds isApply context
    refine ⟨?_, ?_, .inl fun edit isIn => ?_⟩
    · rw [restored.applied, noApplied]
      exact fun ref isIn => List.mem_singleton.mp isIn
    · intro ref isIn
      rcases restore_drops holds isApply (noOther isApply) context ref isIn with isOld | isOwn
      · simp [noDropped] at isOld
      · exact isOwn
    · rw [Work.changes, restored.work]
      exact List.mem_append_right _ (List.mem_append_right _ isIn)

theorem create_nothing
    (isDirty : hasLocalSourceChanges git (Repo.initial work operation theirs) = true)
    (isNothing : git.stashPush = .nothing) (notRead : git.stashRef = false) :
    createSourceSyncStash git (Repo.initial work operation theirs) =
      (.error .stashRef, ((Repo.initial work operation theirs).othersPush
        git.beforePush).othersPush git.beforeRef) := by
  unfold createSourceSyncStash
  rw [if_pos isDirty, isNothing, notRead]
  rfl

theorem kept_of_same {before after : Repo} (result : Except SyncError Unit)
    (sameWork : after.work = before.work) (noApplied : after.applied = [])
    (noDropped : after.dropped = []) : Kept before result after := by
  refine ⟨?_, ?_, .inl fun edit isIn => ?_⟩
  · rw [noApplied]
    rintro _ ⟨⟩
  · rw [noDropped]
    rintro _ ⟨⟩
  · rw [sameWork]
    exact isIn

/-- Local changes that the push has taken: the restore brings them back, or names their entry. -/
theorem refreshSourceRepo_saved {branch : String} (isBranch : git.defaultBranch = some branch)
    (isDirty : hasLocalSourceChanges git (Repo.initial work operation theirs) = true)
    (isPush : git.stashPush = .done) (safe : SyncSafe git (Repo.initial work operation theirs)) :
    Kept (Repo.initial work operation theirs)
      (refreshSourceRepo git (Repo.initial work operation theirs)).1
      (refreshSourceRepo git (Repo.initial work operation theirs)).2 := by
  unfold refreshSourceRepo
  rw [isBranch]
  dsimp only
  obtain ⟨isRead, noOther⟩ := safe.read isDirty isPush
  rw [create_saved isDirty isPush isRead noOther]
  have sameStash := syncBranch_sameStash git branch (stashed git work operation theirs)
  obtain ⟨front, back, isStash⟩ := stashed_holds git work operation theirs
  have isHeld : Holds (syncBranch git branch (stashed git work operation theirs)).2
      work.staged work.unstaged := ⟨front, back, sameStash.stash.trans isStash⟩
  have kept := restore_kept isHeld sameStash.applied sameStash.dropped
    (safe.applied isDirty isPush) (safe.dropped isDirty isPush)
  dsimp only
  cases isSynced : syncBranch git branch (stashed git work operation theirs) with
  | mk base synced =>
    rw [isSynced] at kept
    cases base with
    | none =>
      obtain ⟨applied, dropped, changes⟩ := kept .completed
      refine ⟨applied, dropped, ?_⟩
      rcases changes with isBack | ⟨isError, isEntry⟩
      · exact .inl isBack
      · exact .inr ⟨_, isError, rfl, isEntry⟩
    | some base =>
      obtain ⟨applied, dropped, changes⟩ := kept base
      dsimp only
      cases isRestored : restoreSourceSyncStash git .own base synced with
      | mk result last =>
        rw [isRestored] at applied dropped changes
        cases result with
        | ok _ =>
          refine ⟨applied, dropped, ?_⟩
          rcases changes with isBack | ⟨isError, _⟩
          · exact .inl isBack
          · cases isError
        | error restore =>
          refine ⟨applied, dropped, ?_⟩
          rcases changes with isBack | ⟨isError, isEntry⟩
          · exact .inl isBack
          · injection isError with isError
            refine .inr ⟨_, rfl, ?_, isEntry⟩
            rw [isError]
            simp [SyncError.names]

/-- Without local changes there is no stash, and the sync leaves what the tree has. -/
theorem refreshSourceRepo_clean {branch : String} (isBranch : git.defaultBranch = some branch)
    (isClean : ¬hasLocalSourceChanges git (Repo.initial work operation theirs) = true)
    (safe : SyncSafe git (Repo.initial work operation theirs)) :
    Kept (Repo.initial work operation theirs)
      (refreshSourceRepo git (Repo.initial work operation theirs)).1
      (refreshSourceRepo git (Repo.initial work operation theirs)).2 := by
  unfold refreshSourceRepo
  rw [isBranch]
  dsimp only
  rw [create_clean isClean]
  have sameStash := syncBranch_sameStash git branch (Repo.initial work operation theirs)
  have isBack : InTree work.changes
      (syncBranch git branch (Repo.initial work operation theirs)).2 := by
    rcases safe.notEnded isClean with noChanges | notEnded
    · intro edit isIn
      have noChanges : work.changes = [] := noChanges
      simp [noChanges] at isIn
    · exact syncBranch_changes notEnded
  dsimp only
  cases isSynced : syncBranch git branch (Repo.initial work operation theirs) with
  | mk base synced =>
    rw [isSynced] at sameStash isBack
    have applied : ∀ ref ∈ synced.applied, ref = .own := by
      rw [sameStash.applied]
      rintro _ ⟨⟩
    have dropped : ∀ ref ∈ synced.dropped, ref = .own := by
      rw [sameStash.dropped]
      rintro _ ⟨⟩
    cases base with
    | none | some base => exact ⟨applied, dropped, .inl isBack⟩

theorem refreshSourceRepo_kept (git : Commands) (work : Work) (operation : Option Operation)
    (theirs : List Foreign) (safe : SyncSafe git (Repo.initial work operation theirs)) :
    Kept (Repo.initial work operation theirs)
      (refreshSourceRepo git (Repo.initial work operation theirs)).1
      (refreshSourceRepo git (Repo.initial work operation theirs)).2 := by
  cases isBranch : git.defaultBranch with
  | none =>
    unfold refreshSourceRepo
    rw [isBranch]
    exact kept_of_same _ rfl rfl rfl
  | some branch =>
    by_cases isDirty : hasLocalSourceChanges git (Repo.initial work operation theirs) = true
    · cases isPush : git.stashPush with
      | failed =>
        unfold refreshSourceRepo
        rw [isBranch]
        dsimp only
        rw [create_failed isDirty isPush]
        exact kept_of_same _ rfl rfl rfl
      | nothing =>
        unfold refreshSourceRepo
        rw [isBranch]
        dsimp only
        rw [create_nothing isDirty isPush (safe.saved isDirty isPush)]
        exact kept_of_same _ rfl rfl rfl
      | done => exact refreshSourceRepo_saved isBranch isDirty isPush safe
    · exact refreshSourceRepo_clean isBranch isDirty safe

end

theorem refreshSourceRepo_kept_fetchFails : Kept (Repo.initial oneChange none [])
      (refreshSourceRepo fetchFails (Repo.initial oneChange none [])).1
      (refreshSourceRepo fetchFails (Repo.initial oneChange none [])).2 := by
  apply refreshSourceRepo_kept
  refine ⟨fun _ isNothing => ?_, fun _ _ => ⟨rfl, rfl⟩, fun _ _ isNothing => ?_,
    fun _ _ _ _ => rfl, fun isClean => ?_⟩
  · cases isNothing
  · cases isNothing
  · exact absurd (by decide) isClean

/-- Another worktree pushes between the push of the sync and the reading of its reference: the sync
applies and drops the entry of the other. -/
theorem not_refreshSourceRepo_kept :
    ¬∀ (git : Commands) (work : Work) (operation : Option Operation) (theirs : List Foreign),
      Kept (Repo.initial work operation theirs)
        (refreshSourceRepo git (Repo.initial work operation theirs)).1
        (refreshSourceRepo git (Repo.initial work operation theirs)).2 := by
  intro allKept
  have kept := allKept { fetchFails with beforeRef := [⟨7, [], ["b.txt"]⟩] } oneChange none []
  have isApplied : StashRef.other 7 ∈
      (refreshSourceRepo { fetchFails with beforeRef := [⟨7, [], ["b.txt"]⟩] }
        (Repo.initial oneChange none [])).2.applied := by decide +kernel
  cases kept.applied _ isApplied

end AiTools.Grove.SourceSync
