import AiTools.Vaultkey.Sync
import Mathlib.Logic.Relation

/-!
Contract: what `SyncMutation` keeps, and what it delivers.
-/

namespace AiTools.Vaultkey.Sync

open AiTools.Lib.Effect Relation

def Commit.isMade : Commit → Bool
  | .made _ => true
  | _ => false

def madeIn (commits : List Commit) : List Commit := commits.filter Commit.isMade

/-- A repository between two calls. -/
structure WellFormed (repo : Repo) : Prop where
  noneMade : madeIn repo.head = [] ∧ madeIn repo.remote = []
  tracked : ∀ upstream, repo.tracking = some upstream → upstream ⊆ repo.remote
  theirs : ∀ id, .theirs id ∈ repo.head → .theirs id ∈ repo.remote

/-- A commit that was there can still be reached. -/
def KeepsCommits (start after : Repo) : Prop :=
  ∀ commit ∈ start.head, commit ∈ after.head ∨ commit ∈ after.remote

/-- Everything is pushed. What the operation changed is one commit on top of the remote, and there
is no other commit of the call. -/
def Delivered (env : Env) (start after : Repo) (attempt : Nat) : Prop :=
  after.head ⊆ after.remote ∧ if (env.op attempt).dirty then
      madeIn after.remote = [.made attempt] ∧
        ∃ below above, after.remote = below ++ .made attempt :: above ∧ start.remote <+: below
    else madeIn after.remote = []

def Safe (env : Env) (start : Repo) : Prop :=
  Ends (syncMutation env)
    (fun result after => KeepsCommits start after ∧
      ∀ attempt, result = .ok attempt → Delivered env start after attempt) start

/-- The first attempt has made no commit, its sync conflicts, one commit is ahead, and it is
dropped. -/
def DropsOffline (env : Env) (start : Repo) : Prop :=
  ∃ pulled operated conflicted dropped,
    pullFirst env start = .ok () pulled ∧ runOp env 0 pulled = .ok () operated ∧
      operated.dirty = false ∧ gitSync env 0 operated = .error .conflict conflicted ∧
        recover env conflicted = .ok () dropped

/-- What a pull or a push does to the repository, command by command. -/
inductive Moves : Repo → Repo → Prop where
  | pushed {repo : Repo} (ids : List Nat) (clock : Nat) :
      Moves repo { repo with remote := repo.remote ++ ids.map .theirs, clock := clock }
  | rebased {repo : Repo} : Moves repo repo.rebased
  | fetched {repo : Repo} : Moves repo { repo with tracking := some repo.remote }
  | landed {repo : Repo} (onTop : repo.remote <+: repo.head) {tracking : Option (List Commit)}
      (isTracking : tracking = repo.tracking ∨ tracking = some repo.head) :
      Moves repo { repo with remote := repo.head, tracking := tracking }

variable {env : Env} {start repo next : Repo}

theorem mem_rebased {commit : Commit} :
    commit ∈ repo.rebased.head ↔ commit ∈ repo.remote ∨ commit ∈ repo.head := by
  unfold Repo.rebased Repo.ahead
  rw [List.mem_append, List.mem_filter, decide_eq_true_eq]
  tauto

theorem madeIn_theirs (ids : List Nat) : madeIn (ids.map .theirs) = [] := by
  unfold madeIn
  rw [List.filter_eq_nil_iff]
  intro commit isTheirs
  obtain ⟨id, _, rfl⟩ := List.mem_map.mp isTheirs
  exact Bool.false_ne_true

theorem madeIn_append (front back : List Commit) :
    madeIn (front ++ back) = madeIn front ++ madeIn back := List.filter_append ..

theorem ahead_eq_nil {upstream : List Commit} : repo.ahead upstream = [] ↔ repo.head ⊆ upstream := by
  unfold Repo.ahead
  rw [List.filter_eq_nil_iff]
  simp only [decide_eq_true_eq, not_not]
  rfl

theorem not_mem_of_madeIn {commits : List Commit} (noneMade : madeIn commits = []) (attempt : Nat) :
    .made attempt ∉ commits := by
  intro isMade
  have isMember : Commit.made attempt ∈ madeIn commits := List.mem_filter.mpr ⟨isMade, rfl⟩
  rw [noneMade] at isMember
  cases isMember

structure Kept (start repo : Repo) : Prop where
  commits : KeepsCommits start repo
  grown : start.remote <+: repo.remote
  tracked : ∀ upstream, repo.tracking = some upstream → upstream ⊆ repo.remote

theorem Kept.moves (kept : Kept start repo) (moves : Moves repo next) : Kept start next := by
  cases moves with
  | pushed ids clock =>
    refine ⟨?_, kept.grown.trans (List.prefix_append _ _), ?_⟩
    · exact fun commit isCommit => (kept.commits commit isCommit).imp_right
        fun isRemote => List.mem_append_left _ isRemote
    · exact fun upstream isUpstream => List.subset_append_of_subset_left _
        (kept.tracked upstream isUpstream)
  | rebased =>
    refine ⟨?_, kept.grown, ?_⟩
    · intro commit isCommit
      exact .inl (mem_rebased.mpr (kept.commits commit isCommit).symm)
    · intro upstream isUpstream
      cases isUpstream
      exact List.Subset.refl _
  | fetched =>
    refine ⟨kept.commits, kept.grown, ?_⟩
    intro upstream isUpstream
    cases isUpstream
    exact List.Subset.refl _
  | landed onTop isTracking =>
    refine ⟨?_, kept.grown.trans onTop, ?_⟩
    · exact fun commit isCommit => (kept.commits commit isCommit).imp_right
        fun isRemote => onTop.subset isRemote
    · intro upstream isUpstream
      rcases isTracking with isOld | isHead
      · exact List.Subset.trans (kept.tracked upstream (isOld ▸ isUpstream)) onTop.subset
      · cases isHead.symm.trans isUpstream
        exact List.Subset.refl _

/-- No commit of the call is there. -/
def Unmade (repo : Repo) : Prop := madeIn repo.head = [] ∧ madeIn repo.remote = []

theorem Unmade.moves (unmade : Unmade repo) (moves : Moves repo next) : Unmade next := by
  obtain ⟨head, remote⟩ := unmade
  cases moves with
  | pushed ids clock =>
    refine ⟨head, ?_⟩
    rw [madeIn_append, remote, madeIn_theirs, List.append_nil]
  | rebased =>
    refine ⟨?_, remote⟩
    rw [Repo.rebased, madeIn_append, remote]
    unfold madeIn Repo.ahead at *
    rw [List.filter_comm, head]
    rfl
  | fetched => exact ⟨head, remote⟩
  | landed => exact ⟨head, head⟩

/-- The attempt's commit is there once: on top of the local branch, or on the remote with all
else. -/
structure Committed (start : Repo) (attempt : Nat) (repo : Repo) : Prop where
  once : madeIn repo.head = [.made attempt]
  placed : (madeIn repo.remote = [] ∧ ∃ front, repo.head = front ++ [.made attempt]) ∨
    (repo.head ⊆ repo.remote ∧ madeIn repo.remote = [.made attempt] ∧
      ∃ below above, repo.remote = below ++ .made attempt :: above ∧ start.remote <+: below)

variable {attempt id : Nat}

theorem Committed.moves (committed : Committed start attempt repo)
    (grown : start.remote <+: repo.remote) (moves : Moves repo next) :
    Committed start attempt next := by
  obtain ⟨once, placed⟩ := committed
  cases moves with
  | pushed ids clock =>
    refine ⟨once, placed.imp ?_ ?_⟩
    · rintro ⟨unlanded, isLast⟩
      exact ⟨by rw [madeIn_append, unlanded, madeIn_theirs, List.append_nil], isLast⟩
    · rintro ⟨below, landed, front, above, isRemote, under⟩
      refine ⟨List.subset_append_of_subset_left _ below, ?_, front, above ++ ids.map .theirs, ?_,
        under⟩
      · rw [madeIn_append, landed, madeIn_theirs, List.append_nil]
      · simp [isRemote]
  | rebased =>
    rcases placed with ⟨unlanded, front, isHead⟩ | ⟨below, landed, isPlaced⟩
    · have notRemote := not_mem_of_madeIn unlanded attempt
      have isAhead : repo.ahead repo.remote =
          front.filter (· ∉ repo.remote) ++ [.made attempt] := by
        unfold Repo.ahead
        rw [isHead, List.filter_append]
        simp [notRemote]
      refine ⟨?_, .inl ⟨unlanded, repo.remote ++ front.filter (· ∉ repo.remote), ?_⟩⟩
      · have aheadMade : madeIn (repo.ahead repo.remote) = [.made attempt] := by
          unfold madeIn Repo.ahead at *
          rw [List.filter_comm, once]
          simp [notRemote]
        rw [Repo.rebased, madeIn_append, unlanded, aheadMade]
        rfl
      · rw [Repo.rebased, isAhead, List.append_assoc]
    · have isHead : repo.rebased.head = repo.remote := by
        rw [Repo.rebased, ahead_eq_nil.mpr below, List.append_nil]
      refine ⟨isHead ▸ landed, .inr ⟨?_, landed, isPlaced⟩⟩
      rw [isHead]
      exact List.Subset.refl _
  | fetched => exact ⟨once, placed⟩
  | landed onTop =>
    refine ⟨once, .inr ⟨List.Subset.refl _, once, ?_⟩⟩
    rcases placed with ⟨unlanded, front, isHead⟩ | ⟨_, _, below, above, isRemote, under⟩
    · refine ⟨front, [], isHead, ?_⟩
      have inHead := grown.trans onTop
      rw [isHead, List.prefix_concat_iff] at inHead
      refine inHead.resolve_left fun whole => ?_
      refine not_mem_of_madeIn unlanded attempt (grown.subset ?_)
      rw [whole]
      exact List.mem_append_right _ List.mem_cons_self
    · obtain ⟨extra, isHead⟩ := onTop
      refine ⟨below, above ++ extra, ?_, under⟩
      show repo.head = _
      rw [← isHead, isRemote]
      simp

theorem allPushed_moves (allPushed : repo.head ⊆ repo.remote) (moves : Moves repo next) :
    next.head ⊆ next.remote := by
  cases moves with
  | pushed ids clock => exact List.subset_append_of_subset_left _ allPushed
  | rebased =>
    intro commit isCommit
    exact (mem_rebased.mp isCommit).elim id fun isHead => allPushed isHead
  | fetched => exact allPushed
  | landed => exact List.Subset.refl _

/-- A commit of this machine that is nowhere. -/
def Gone (commit : Commit) (repo : Repo) : Prop := commit ∉ repo.head ∧ commit ∉ repo.remote

theorem Gone.moves (gone : Gone (.mine id) repo) (moves : Moves repo next) :
    Gone (.mine id) next := by
  obtain ⟨notHead, notRemote⟩ := gone
  cases moves with
  | pushed ids clock =>
    refine ⟨notHead, ?_⟩
    rw [List.mem_append, not_or]
    exact ⟨notRemote, by simp⟩
  | rebased => exact ⟨fun isHead => (mem_rebased.mp isHead).elim notRemote notHead, notRemote⟩
  | fetched => exact ⟨notHead, notRemote⟩
  | landed => exact ⟨notHead, notHead⟩

/-- Without a commit of the call, the local commits are those of the start or of the remote. -/
theorem origin_moves (origin : ∀ commit ∈ repo.head, commit ∈ start.head ∨ commit ∈ repo.remote)
    (moves : Moves repo next) :
    ∀ commit ∈ next.head, commit ∈ start.head ∨ commit ∈ next.remote := by
  cases moves with
  | pushed ids clock =>
    exact fun commit isHead => (origin commit isHead).imp_right
      fun isRemote => List.mem_append_left _ isRemote
  | rebased =>
    exact fun commit isHead => (mem_rebased.mp isHead).elim Or.inr fun wasHead =>
      origin commit wasHead
  | fetched => exact origin
  | landed => exact fun commit isHead => .inr isHead

/-! ## What the commands do -/

theorem ends_happen_bind {α : Type} {later : Outcome → Action α}
    {post : Except SyncError α → Repo → Prop} :
    Ends (happen env >>= later) post repo ↔
      Ends (later (env.git repo.clock).outcome) post (repo.atCommand env) := Iff.rfl

theorem atCommand_moves : Moves repo (repo.atCommand env) := .pushed _ _

/-- A conflict leaves the upstream fetched, and commits that it does not have. -/
def Conflicted (repo : Repo) : Prop :=
  repo.tracking = some repo.remote ∧ repo.ahead repo.remote ≠ []

theorem gitPull_ends : Ends (gitPull env) (fun result next => ReflTransGen Moves repo next ∧
      (result = .ok () → next.tracking = some next.remote) ∧
        (result = .error .conflict → Conflicted next)) repo := by
  rw [gitPull, ends_happen_bind, ends_get_bind]
  have arrives : ReflTransGen Moves repo (repo.atCommand env) := .single atCommand_moves
  by_cases isBlocked : (repo.atCommand env).tracking = none ∨ (repo.atCommand env).dirty = true
  · rw [if_pos isBlocked]
    exact ⟨arrives, nofun, nofun⟩
  · rw [if_neg isBlocked]
    cases (env.git repo.clock).outcome with
    | ok => exact ⟨arrives.tail .rebased, fun _ => rfl, nofun⟩
    | conflict =>
      simp only
      split_ifs with isEmpty
      · exact ⟨arrives.tail .rebased, fun _ => rfl, nofun⟩
      · exact ⟨arrives.tail .fetched, nofun,
          fun _ => ⟨rfl, fun noneAhead => isEmpty (Or.inl noneAhead)⟩⟩
    | fail | lost => exact ⟨arrives, nofun, nofun⟩

theorem pushHead_ends : Ends (pushHead env) (fun result next => ReflTransGen Moves repo next ∧
      (∃ pushed, result = .ok pushed ∧ (pushed = true → next.head ⊆ next.remote))) repo := by
  rw [pushHead, ends_happen_bind, ends_get_bind]
  have arrives : ReflTransGen Moves repo (repo.atCommand env) := .single atCommand_moves
  split_ifs with onTop
  · split
    · exact ⟨arrives.tail (.landed onTop (Or.inr rfl)), _, rfl, fun _ => List.Subset.refl _⟩
    · exact ⟨arrives.tail (.landed onTop (Or.inl rfl)), _, rfl, nofun⟩
    · exact ⟨arrives, _, rfl, nofun⟩
  · exact ⟨arrives, _, rfl, nofun⟩

/-- The end of a sync behind its commit. -/
def Synced (repo : Repo) (result : Except SyncError Unit) (next : Repo) : Prop :=
  ReflTransGen Moves repo next ∧
    ((∀ upstream, next.tracking = some upstream → upstream ⊆ next.remote) →
      result = .ok () → next.head ⊆ next.remote) ∧ (result = .error .conflict → Conflicted next)

theorem Synced.after {middle : Repo} {result : Except SyncError Unit}
    (synced : Synced middle result next) (arrives : ReflTransGen Moves repo middle) :
    Synced repo result next := ⟨arrives.trans synced.1, synced.2⟩

theorem pullThen_ends {later : Action Unit}
    (synced : ∀ {pulled : Repo}, ReflTransGen Moves repo pulled →
      pulled.tracking = some pulled.remote → Ends later (Synced pulled) pulled) :
    Ends (gitPull env >>= fun _ => later) (Synced repo) repo := by
  refine gitPull_ends.bind ?_ ?_
  · rintro _ pulled ⟨arrives, isTracked, _⟩
    exact (synced arrives (isTracked rfl)).mono fun _ _ ended => ended.after arrives
  · rintro error pulled ⟨arrives, _, whenConflict⟩
    refine ⟨arrives, nofun, fun isConflict => ?_⟩
    cases isConflict
    exact whenConflict rfl

theorem pushLoop_ends (left : Nat) : Ends (pushLoop env left) (Synced repo) repo := by
  induction left generalizing repo with
  | zero => exact ⟨.refl, nofun, nofun⟩
  | succ left ih =>
    rw [pushLoop]
    refine pushHead_ends.bind ?_ ?_
    · rintro pushed next ⟨arrives, _, isPushed, whenPushed⟩
      cases isPushed
      cases pushed with
      | true => exact ⟨arrives, fun _ _ => whenPushed rfl, nofun⟩
      | false =>
        refine Ends.mono ?_ fun _ _ synced => Synced.after synced arrives
        simp only [Bool.false_eq_true, if_false]
        rw [ends_get_bind]
        split_ifs
        · exact pullThen_ends fun _ _ => ih
        · exact ih
    · rintro error next ⟨_, _, isPushed, _⟩
      cases isPushed

/-- What an attempt commits: nothing, or its commit on top of the local branch. -/
def CommitsTo (attempt : Nat) (repo committed : Repo) : Prop :=
  (repo.dirty = false ∧ ReflTransGen Moves repo committed) ∨
    (repo.dirty = true ∧ ∃ middle, ReflTransGen Moves repo middle ∧
      committed = { middle with head := middle.head ++ [.made attempt], dirty := false })

theorem commitStaged_ends (attempt : Nat) :
    Ends (commitStaged env attempt) (fun result next =>
      (result = .ok () ∧ CommitsTo attempt repo next) ∨
        (ReflTransGen Moves repo next ∧ ∃ operation, result = .error (.git operation))) repo := by
  rw [commitStaged, ends_happen_bind]
  have arrives : ReflTransGen Moves repo (repo.atCommand env) := .single atCommand_moves
  split_ifs with isAdded
  · exact .inr ⟨arrives, _, rfl⟩
  · show Ends (get >>= _) _ _
    rw [ends_get_bind]
    cases isDirty : (repo.atCommand env).dirty with
    | false => exact .inl ⟨rfl, .inl ⟨isDirty, arrives⟩⟩
    | true =>
      simp only [if_true]
      rw [ends_happen_bind]
      split_ifs with isCommitted
      · exact .inr ⟨arrives.tail atCommand_moves, _, rfl⟩
      · exact .inl ⟨rfl, .inr ⟨isDirty, _, arrives.tail atCommand_moves, rfl⟩⟩

theorem aheadCount_ends :
    Ends aheadCount (fun result next => next = repo ∧ ∃ count, result = .ok count ∧
      ∀ upstream, repo.tracking = some upstream → count = (repo.ahead upstream).length) repo := by
  rw [aheadCount, ends_get_bind]
  cases repo.tracking with
  | none => exact ⟨rfl, _, rfl, nofun⟩
  | some upstream =>
    refine ⟨rfl, _, rfl, fun other isOther => ?_⟩
    rw [Option.some.inj isOther]

theorem gitSync_ends (attempt : Nat) :
    Ends (gitSync env attempt) (fun result next =>
      (∃ committed, CommitsTo attempt repo committed ∧ Synced committed result next) ∨
        (ReflTransGen Moves repo next ∧ ∃ operation, result = .error (.git operation))) repo := by
  rw [gitSync]
  refine (commitStaged_ends attempt).bind ?_ ?_
  · rintro _ committed (⟨_, commits⟩ | ⟨_, _, isError⟩)
    · suffices synced : Ends _ (Synced committed) _ from
        synced.mono fun result next synced => .inl ⟨committed, commits, synced⟩
      rw [ends_get_bind]
      split_ifs with isTracked
      · refine pullThen_ends fun {pulled} _ isPulled => ?_
        refine aheadCount_ends.bind ?_ ?_
        · rintro _ _ ⟨rfl, count, isCount, isAhead⟩
          cases isCount
          split_ifs with isZero
          · refine ⟨.refl, fun _ _ => ?_, nofun⟩
            rw [isAhead _ isPulled] at isZero
            exact ahead_eq_nil.mp (List.eq_nil_of_length_eq_zero isZero)
          · exact pushLoop_ends 3
        · rintro error _ ⟨_, _, isCount, _⟩
          cases isCount
      · exact pushLoop_ends 3
    · cases isError
  · rintro error next (⟨isOk, _⟩ | failed)
    · cases isOk
    · exact .inr failed

/-- The local branch is the upstream, others have pushed in between. -/
def Dropped (repo next : Repo) : Prop :=
  ∃ ids later : List Nat, next.head = repo.remote ++ ids.map .theirs ∧ next.tracking = some next.head ∧
    next.remote = next.head ++ later.map .theirs

/-- The reset takes the upstream as it was just fetched, or the recovery stops before it. -/
theorem recover_ends (conflicted : Conflicted repo) :
    Ends (recover env) (fun result next =>
      (result = .ok () ∧ (repo.ahead repo.remote).length = 1 ∧ Dropped repo next) ∨
        (ReflTransGen Moves repo next ∧ ∃ error, result = .error error)) repo := by
  rw [recover]
  refine aheadCount_ends.bind ?_ ?_
  · rintro _ next ⟨same, count, isCount, isAhead⟩
    cases isCount
    rw [same, isAhead _ conflicted.1]
    split_ifs with notOne
    · exact .inr ⟨.refl, _, rfl⟩
    · show Ends (resetToUpstream env) _ _
      rw [resetToUpstream, ends_happen_bind]
      have fetching : ReflTransGen Moves repo (repo.atCommand env) := .single atCommand_moves
      split_ifs with isFetched
      · exact .inr ⟨fetching, _, rfl⟩
      · show Ends (modify _ >>= _) _ _
        rw [ends_modify_bind, ends_happen_bind]
        have isTracked : (repo.atCommand env).tracking = some repo.remote := conflicted.1
        rw [isTracked]
        split_ifs with isReset
        · exact .inr ⟨(fetching.tail .fetched).tail atCommand_moves, _, rfl⟩
        · exact .inl ⟨rfl, not_not.mp notOne, _, _, rfl, rfl, rfl⟩
  · rintro error _ ⟨_, _, isCount, _⟩
    cases isCount

/-! ## An attempt -/

theorem arrives_keeps {Holds : Repo → Prop}
    (each : ∀ {repo next}, Holds repo → Moves repo next → Holds next)
    (arrives : ReflTransGen Moves repo next) (holds : Holds repo) : Holds next := by
  induction arrives with
  | refl => exact holds
  | tail _ moves ih => exact each ih moves

theorem Kept.arrives (kept : Kept start repo) (arrives : ReflTransGen Moves repo next) :
    Kept start next := arrives_keeps Kept.moves arrives kept

theorem Unmade.arrives (unmade : Unmade repo) (arrives : ReflTransGen Moves repo next) :
    Unmade next := arrives_keeps Unmade.moves arrives unmade

theorem Committed.arrives (committed : Committed start attempt repo) (kept : Kept start repo)
    (arrives : ReflTransGen Moves repo next) :
    Committed start attempt next :=
  (arrives_keeps
    (fun (both : Kept start _ ∧ Committed start attempt _) moves =>
      ⟨both.1.moves moves, both.2.moves both.1.grown moves⟩)
    arrives ⟨kept, committed⟩).2

theorem committed_fresh (unmade : Unmade repo) : Committed start attempt
      { repo with head := repo.head ++ [.made attempt], dirty := false } := by
  refine ⟨?_, .inl ⟨unmade.2, repo.head, rfl⟩⟩
  rw [madeIn_append, unmade.1]
  rfl

theorem kept_commit (kept : Kept start repo) :
    Kept start { repo with head := repo.head ++ [.made attempt], dirty := false } :=
  ⟨fun commit isCommit => (kept.commits commit isCommit).imp_left
    fun isHead => List.mem_append_left _ isHead, kept.grown, kept.tracked⟩

/-- What an attempt has come to, with its commit or without one. -/
def Phase (start : Repo) (attempt : Nat) (repo next : Repo) : Prop :=
  (repo.dirty = true ∧ Committed start attempt next) ∨
    (repo.dirty = false ∧ Unmade next ∧ ReflTransGen Moves repo next)

theorem phase_delivered (phase : Phase start attempt repo next)
    (isDirty : repo.dirty = (env.op attempt).dirty) (allPushed : next.head ⊆ next.remote) :
    Delivered env start next attempt := by
  refine ⟨allPushed, ?_⟩
  rcases phase with ⟨dirty, once, placed⟩ | ⟨clean, unmade, _⟩
  · rw [if_pos (isDirty ▸ dirty)]
    refine (placed.resolve_left ?_).2
    rintro ⟨unlanded, front, isHead⟩
    refine not_mem_of_madeIn unlanded attempt (allPushed ?_)
    rw [isHead]
    exact List.mem_append_right _ List.mem_cons_self
  · rw [if_neg (by rw [← isDirty, clean]; exact Bool.false_ne_true)]
    exact unmade.2

theorem sync_phase (kept : Kept start repo) (unmade : Unmade repo)
    (isDirty : repo.dirty = (env.op attempt).dirty) :
    Ends (gitSync env attempt) (fun result next => Kept start next ∧
      (result = .ok () → Delivered env start next attempt) ∧
        (result = .error .conflict → Conflicted next ∧ Phase start attempt repo next)) repo := by
  refine (gitSync_ends attempt).mono ?_
  rintro result next (⟨committed, commits, arrives, whenOk, whenConflict⟩ |
    ⟨arrives, operation, isError⟩)
  · have keptCommitted : Kept start committed := by
      rcases commits with ⟨_, arrives⟩ | ⟨_, middle, arrives, isCommitted⟩
      · exact kept.arrives arrives
      · rw [isCommitted]
        exact kept_commit (kept.arrives arrives)
    have keptNext := keptCommitted.arrives arrives
    have phase : Phase start attempt repo next := by
      rcases commits with ⟨clean, arrivesFirst⟩ | ⟨dirty, middle, arrivesFirst, isCommitted⟩
      · exact .inr ⟨clean, unmade.arrives (arrivesFirst.trans arrives), arrivesFirst.trans arrives⟩
      · refine .inl ⟨dirty, Committed.arrives ?_ keptCommitted arrives⟩
        rw [isCommitted]
        exact committed_fresh (unmade.arrives arrivesFirst)
    exact ⟨keptNext, fun isOk => phase_delivered phase isDirty (whenOk keptNext.tracked isOk),
      fun isConflict => ⟨whenConflict isConflict, phase⟩⟩
  · refine ⟨kept.arrives arrives, ?_, ?_⟩
    · intro isOk
      cases isError.symm.trans isOk
    · intro isConflict
      cases isError.symm.trans isConflict

theorem kept_dropped (kept : Kept start repo) (dropped : Dropped repo next)
    (pushed : ∀ commit ∈ start.head, commit ∈ repo.head → commit ∈ repo.remote) :
    Kept start next := by
  obtain ⟨ids, later, isHead, isTracking, isRemote⟩ := dropped
  have onRemote : repo.remote <+: next.remote := by
    rw [isRemote, isHead, List.append_assoc]
    exact List.prefix_append _ _
  refine ⟨fun commit isCommit => .inr (onRemote.subset ?_), kept.grown.trans onRemote, ?_⟩
  · exact (kept.commits commit isCommit).elim (pushed commit isCommit) id
  · intro upstream isUpstream
    cases isTracking.symm.trans isUpstream
    rw [isRemote]
    exact List.subset_append_left _ _

theorem dropped_unmade (noneMade : madeIn repo.remote = []) (dropped : Dropped repo next) :
    Unmade next ∧ next.head ⊆ next.remote := by
  obtain ⟨ids, later, isHead, _, isRemote⟩ := dropped
  have head : madeIn next.head = [] := by
    rw [isHead, madeIn_append, noneMade, madeIn_theirs, List.append_nil]
  refine ⟨⟨head, ?_⟩, ?_⟩
  · rw [isRemote, madeIn_append, head, madeIn_theirs, List.append_nil]
  · rw [isRemote]
    exact List.subset_append_left _ _

theorem recover_keeps (wellFormed : WellFormed start) (kept : Kept start repo)
    (conflicted : Conflicted repo) (committed : Committed start attempt repo) :
    Ends (recover env) (fun result next => Kept start next ∧
      (result = .ok () → Unmade next ∧ next.head ⊆ next.remote)) repo := by
  refine (recover_ends conflicted).mono ?_
  rintro result next (⟨_, isOne, dropped⟩ | ⟨arrives, _, isError⟩)
  · obtain ⟨unlanded, front, isHead⟩ := committed.placed.resolve_right
      fun landed => conflicted.2 (ahead_eq_nil.mpr landed.1)
    have isAhead : .made attempt ∈ repo.ahead repo.remote := by
      unfold Repo.ahead
      rw [List.mem_filter, isHead, decide_eq_true_eq]
      exact ⟨List.mem_append_right _ List.mem_cons_self, not_mem_of_madeIn unlanded attempt⟩
    obtain ⟨only, isOnly⟩ := List.length_eq_one_iff.mp isOne
    rw [isOnly, List.mem_singleton] at isAhead
    refine ⟨kept_dropped kept dropped ?_, fun _ => dropped_unmade unlanded dropped⟩
    intro commit isCommit inHead
    by_contra notRemote
    have inAhead : commit ∈ repo.ahead repo.remote :=
      List.mem_filter.mpr ⟨inHead, decide_eq_true notRemote⟩
    rw [isOnly, List.mem_singleton, ← isAhead] at inAhead
    exact not_mem_of_madeIn wellFormed.noneMade.1 attempt (inAhead ▸ isCommit)
  · refine ⟨kept.arrives arrives, fun isOk => ?_⟩
    cases isError.symm.trans isOk

def Ended (env : Env) (start : Repo) (result : Except SyncError Nat) (after : Repo) : Prop :=
  Kept start after ∧ ∀ attempt, result = .ok attempt → Delivered env start after attempt

theorem runOp_ends (attempt : Nat) : Ends (runOp env attempt)
      (fun _ next => next = { repo with dirty := (env.op attempt).dirty }) repo := by
  rw [runOp, ends_modify_bind]
  split_ifs <;> rfl

theorem Kept.operated (kept : Kept start repo) :
    Kept start { repo with dirty := (env.op attempt).dirty } :=
  ⟨kept.commits, kept.grown, kept.tracked⟩

theorem attempt_ends {attempt left : Nat} (kept : Kept start repo) (unmade : Unmade repo)
    (whenConflict : ∀ operated conflicted, runOp env attempt repo = .ok () operated →
        gitSync env attempt operated = .error .conflict conflicted →
          Kept start conflicted → Conflicted conflicted → Phase start attempt operated conflicted →
              Ends (recover env >>= fun _ => attempts env (attempt + 1) left) (Ended env start)
                conflicted) :
    Ends (attempts env attempt (left + 1)) (Ended env start) repo := by
  rw [attempts]
  refine ((runOp_ends attempt).and (ends_ran _ _)).bind ?_ ?_
  · rintro _ operated ⟨isOperated, ranOp, _⟩
    have keptOp : Kept start operated := isOperated ▸ kept.operated
    have unmadeOp : Unmade operated := isOperated ▸ unmade
    have isDirty : operated.dirty = (env.op attempt).dirty := by rw [isOperated]
    refine ((sync_phase keptOp unmadeOp isDirty).and (ends_ran _ _)).caught_bind ?_
    rintro result next ⟨⟨keptNext, whenOk, whenError⟩, _, ranSync⟩
    cases result with
    | ok _ =>
      refine ⟨keptNext, fun synced isSynced => ?_⟩
      cases isSynced
      exact whenOk rfl
    | error error =>
      cases error with
      | conflict =>
        obtain ⟨conflicted, phase⟩ := whenError rfl
        exact whenConflict operated next (ranOp _ rfl) (ranSync _ rfl) keptNext conflicted phase
      | git operation | op => exact ⟨keptNext, nofun⟩
  · rintro error next ⟨isOperated, _⟩
    exact ⟨isOperated ▸ kept.operated, nofun⟩

theorem attempts_pushed (wellFormed : WellFormed start) (left : Nat) (kept : Kept start repo)
    (unmade : Unmade repo) (allPushed : repo.head ⊆ repo.remote) :
    Ends (attempts env attempt left) (Ended env start) repo := by
  induction left generalizing repo attempt with
  | zero => exact ⟨kept, nofun⟩
  | succ left ih =>
    refine attempt_ends kept unmade ?_
    intro operated next ranOp ranSync keptNext conflicted phase
    rcases phase with ⟨_, committed⟩ | ⟨clean, _, arrives⟩
    · refine (recover_keeps wellFormed keptNext conflicted committed).bind ?_ ?_
      · rintro _ dropped ⟨keptDropped, whenOk⟩
        obtain ⟨unmadeDropped, pushedDropped⟩ := whenOk rfl
        exact ih keptDropped unmadeDropped pushedDropped
      · rintro error dropped ⟨keptDropped, _⟩
        exact ⟨keptDropped, nofun⟩
    · have operatedPushed : operated.head ⊆ operated.remote := by
        rw [(runOp_ends attempt).ok ranOp]
        exact allPushed
      exact absurd (ahead_eq_nil.mpr (arrives_keeps allPushed_moves arrives operatedPushed))
        conflicted.2

theorem pullFirst_ends : Ends (pullFirst env) (fun _ next => ReflTransGen Moves repo next) repo := by
  rw [pullFirst]
  refine gitPull_ends.caught_bind ?_
  rintro result next ⟨arrives, _⟩
  split
  · exact arrives
  · exact arrives

theorem start_kept (wellFormed : WellFormed start) : Kept start start :=
  ⟨fun _ isHead => .inl isHead, List.prefix_refl _, wellFormed.tracked⟩

theorem syncMutation_ends (wellFormed : WellFormed start) (notDropped : ¬ DropsOffline env start) :
    Ends (syncMutation env) (Ended env start) start := by
  rw [syncMutation]
  refine (pullFirst_ends.and (ends_ran _ _)).bind ?_ ?_
  · rintro _ pulled ⟨arrives, ranPull, _⟩
    have kept := (start_kept wellFormed).arrives arrives
    have unmade : Unmade pulled := Unmade.arrives wellFormed.noneMade arrives
    refine attempt_ends kept unmade ?_
    intro operated conflicted ranOp ranSync keptConflicted isConflicted phase
    rcases phase with ⟨_, committed⟩ | ⟨clean, _, _⟩
    · refine (recover_keeps wellFormed keptConflicted isConflicted committed).bind ?_ ?_
      · rintro _ dropped ⟨keptDropped, whenOk⟩
        obtain ⟨unmadeDropped, pushedDropped⟩ := whenOk rfl
        exact attempts_pushed wellFormed 1 keptDropped unmadeDropped pushedDropped
      · rintro error dropped ⟨keptDropped, _⟩
        exact ⟨keptDropped, nofun⟩
    · refine ((recover_ends isConflicted).and (ends_ran _ _)).bind ?_ ?_
      · rintro _ dropped ⟨_, ranRecover, _⟩
        exact absurd ⟨pulled, operated, conflicted, dropped, ranPull _ rfl, ranOp, clean, ranSync,
          ranRecover _ rfl⟩ notDropped
      · rintro error next ⟨⟨isOk, _⟩ | ⟨arrivesNext, _⟩, _⟩
        · cases isOk
        · exact ⟨keptConflicted.arrives arrivesNext, nofun⟩
  · rintro error next ⟨arrives, _⟩
    exact ⟨(start_kept wellFormed).arrives arrives, nofun⟩

theorem Gone.arrives (gone : Gone (.mine id) repo) (arrives : ReflTransGen Moves repo next) :
    Gone (.mine id) next := arrives_keeps Gone.moves arrives gone

theorem Gone.commitsTo (gone : Gone (.mine id) repo) (commits : CommitsTo attempt repo next) :
    Gone (.mine id) next := by
  rcases commits with ⟨_, arrives⟩ | ⟨_, middle, arrives, isNext⟩
  · exact gone.arrives arrives
  · have goneMiddle := gone.arrives arrives
    rw [isNext]
    refine ⟨?_, goneMiddle.2⟩
    rw [List.mem_append, not_or]
    exact ⟨goneMiddle.1, by simp⟩

theorem Dropped.gone (dropped : Dropped repo next) (notRemote : .mine id ∉ repo.remote) :
    Gone (.mine id) next := by
  obtain ⟨ids, later, isHead, _, isRemote⟩ := dropped
  have notHead : .mine id ∉ next.head := by
    rw [isHead, List.mem_append, not_or]
    exact ⟨notRemote, by simp⟩
  refine ⟨notHead, ?_⟩
  rw [isRemote, List.mem_append, not_or]
  exact ⟨notHead, by simp⟩

theorem attempts_gone (left : Nat) (gone : Gone (.mine id) repo) :
    Ends (attempts env attempt left) (fun _ next => Gone (.mine id) next) repo := by
  induction left generalizing repo attempt with
  | zero => exact gone
  | succ left ih =>
    rw [attempts]
    refine (runOp_ends attempt).bind ?_ ?_
    · intro _ operated isOperated
      have goneOp : Gone (.mine id) operated := isOperated ▸ gone
      refine (gitSync_ends attempt).caught_bind ?_
      rintro result next (⟨committed, commits, arrives, _, whenConflict⟩ |
        ⟨arrives, operation, isError⟩)
      · have goneNext := (goneOp.commitsTo commits).arrives arrives
        cases result with
        | ok _ => exact goneNext
        | error error =>
          cases error with
          | conflict =>
            refine (recover_ends (whenConflict rfl)).bind ?_ ?_
            · rintro _ dropped (⟨_, _, isDropped⟩ | ⟨_, _, isError⟩)
              · exact ih (isDropped.gone goneNext.2)
              · cases isError
            · rintro error last (⟨isOk, _⟩ | ⟨arrivesLast, _⟩)
              · cases isOk
              · exact goneNext.arrives arrivesLast
          | git operation | op => exact goneNext
      · rw [isError]
        exact goneOp.arrives arrives
    · intro error next isOperated
      exact isOperated ▸ gone

theorem dropsOffline_gone (wellFormed : WellFormed start) {pulled operated conflicted dropped : Repo}
    (ranPull : pullFirst env start = .ok () pulled) (ranOp : runOp env 0 pulled = .ok () operated)
    (clean : operated.dirty = false)
    (ranSync : gitSync env 0 operated = .error .conflict conflicted)
    (ranRecover : recover env conflicted = .ok () dropped) :
    ∃ id, .mine id ∈ start.head ∧ Gone (.mine id) dropped := by
  have arrivesPull := pullFirst_ends.ok ranPull
  have isOperated := (runOp_ends 0).ok ranOp
  rcases (gitSync_ends 0).error ranSync with ⟨committed, commits, arrives, _, whenConflict⟩ |
    ⟨_, _, isError⟩
  · have arrivesSync : ReflTransGen Moves operated conflicted := by
      rcases commits with ⟨_, arrivesFirst⟩ | ⟨dirty, _⟩
      · exact arrivesFirst.trans arrives
      · cases clean.symm.trans dirty
    have pulledOrigin : ∀ commit ∈ pulled.head, commit ∈ start.head ∨ commit ∈ pulled.remote :=
      arrives_keeps origin_moves arrivesPull fun _ isHead => .inl isHead
    have operatedOrigin : ∀ commit ∈ operated.head,
        commit ∈ start.head ∨ commit ∈ operated.remote := isOperated ▸ pulledOrigin
    have operatedKept : Kept start operated :=
      isOperated ▸ ((start_kept wellFormed).arrives arrivesPull).operated
    have origin := arrives_keeps origin_moves arrivesSync operatedOrigin
    have grown := (operatedKept.arrives arrivesSync).grown
    rcases (recover_ends (whenConflict rfl)).ok ranRecover with ⟨_, isOne, isDropped⟩ |
      ⟨_, _, isError⟩
    · obtain ⟨only, isOnly⟩ := List.length_eq_one_iff.mp isOne
      have isAhead : only ∈ conflicted.ahead conflicted.remote := isOnly ▸ List.mem_singleton_self _
      obtain ⟨isHead, notRemote⟩ := List.mem_filter.mp isAhead
      rw [decide_eq_true_eq] at notRemote
      have wasHead := (origin only isHead).resolve_right notRemote
      cases only with
      | mine id => exact ⟨id, wasHead, isDropped.gone notRemote⟩
      | theirs id => exact absurd (grown.subset (wellFormed.theirs id wasHead)) notRemote
      | made attempt => exact absurd wasHead (not_mem_of_madeIn wellFormed.noneMade.1 attempt)
    · cases isError
  · cases isError

/-- **A call is safe exactly when its first attempt does not drop a commit that it has not made.** -/
theorem syncMutation_safe_iff (wellFormed : WellFormed start) : Safe env start ↔ ¬ DropsOffline env start := by
  constructor
  · rintro safe ⟨pulled, operated, conflicted, dropped, ranPull, ranOp, clean, ranSync, ranRecover⟩
    obtain ⟨id, wasHead, gone⟩ :=
      dropsOffline_gone wellFormed ranPull ranOp clean ranSync ranRecover
    have sameRun : syncMutation env start = attempts env 1 1 dropped := by
      rw [syncMutation, bind_of_ok ranPull, attempts, bind_of_ok ranOp,
        bind_of_ok (caught_of_error ranSync)]
      exact bind_of_ok ranRecover
    have staysGone : Ends (syncMutation env) (fun _ next => Gone (.mine id) next) start :=
      (attempts_gone 1 gone).of_run sameRun
    obtain ⟨_, after, ⟨keeps, _⟩, goneAfter⟩ := (Ends.and safe staysGone).exists
    exact (keeps _ wasHead).elim goneAfter.1 goneAfter.2
  · intro notDropped
    exact (syncMutation_ends wellFormed notDropped).mono
      fun _ _ ended => ⟨ended.1.commits, ended.2⟩

/-- One commit is not pushed yet. -/
def oneOffline : Repo := ⟨[.theirs 0, .mine 1], some [.theirs 0], [.theirs 0], false, 0⟩

/-- The first pull is offline, the pull of the sync meets another's push. -/
def changesNothing : Env where
  git := fun command =>
    if command = 0 then ⟨[], .fail⟩ else if command = 2 then ⟨[2], .conflict⟩ else ⟨[], .ok⟩
  op := fun _ => ⟨true, false⟩

theorem oneOffline_wellFormed : WellFormed oneOffline where
  noneMade := ⟨rfl, rfl⟩
  tracked := by
    intro upstream isUpstream
    cases isUpstream
    exact List.Subset.refl _
  theirs := by
    intro id isHead
    simpa [oneOffline] using isHead

theorem not_syncMutation_safe : ¬ ∀ env start, WellFormed start → Safe env start := by
  intro safe
  have ran : syncMutation changesNothing oneOffline =
      .ok 1 ⟨[.theirs 0, .theirs 2], some [.theirs 0, .theirs 2], [.theirs 0, .theirs 2], false,
        7⟩ := rfl
  have keeps := ((safe changesNothing oneOffline oneOffline_wellFormed).ok ran).1
  exact absurd (keeps (.mine 1) (by decide)) (by decide)

/-- Both attempts change the vault, the sync of the first meets another's push. -/
def changesTwice : Env where
  git := fun command => if command = 3 then ⟨[2], .conflict⟩ else ⟨[], .ok⟩
  op := fun _ => ⟨true, true⟩

def allPushed : Repo := ⟨[.theirs 0], some [.theirs 0], [.theirs 0], false, 0⟩

theorem syncMutation_safe_iff_changesTwice :
    (∃ after, syncMutation changesTwice allPushed = .ok 1 after ∧
      after.remote = [.theirs 0, .theirs 2, .made 1]) ∧ Safe changesTwice allPushed := by
  have wellFormed : WellFormed allPushed := by
    refine ⟨⟨rfl, rfl⟩, ?_, fun _ isHead => isHead⟩
    intro upstream isUpstream
    cases isUpstream
    exact List.Subset.refl _
  refine ⟨⟨_, rfl, rfl⟩, (syncMutation_safe_iff wellFormed).mpr ?_⟩
  rintro ⟨pulled, operated, conflicted, dropped, _, ranOp, clean, _⟩
  rw [(runOp_ends 0).ok ranOp] at clean
  cases clean

end AiTools.Vaultkey.Sync
