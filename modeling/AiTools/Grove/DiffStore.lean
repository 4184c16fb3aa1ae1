import AiTools.Lib.Transition
import Mathlib

/-!
Contract: what the diff view shows, and for which worktree, file and view it was loaded.

Of the diffs only the file counts. The backend may answer with anything or not at all.
-/

namespace AiTools.Grove.DiffStore

open AiTools.Lib.Transition

/-! ## The store -/

structure FileStatus where
  path : String
  status : String
  staged : Bool
deriving DecidableEq

structure CommitInfo where
  hash : String
deriving DecidableEq

structure FileDiff where
  path : String

inductive View where
  | changes
  | commit (info : CommitInfo)

structure DiffState where
  commits : List CommitInfo
  fileStatuses : List FileStatus
  currentDiff : Option FileDiff
  commitDiffs : List FileDiff
  selectedView : View
  selectedFile : Option String
  isViewingStaged : Bool
  worktreePath : Option String

inductive Request where
  | getStatus (worktree : String)
  | getCommits (worktree : String)
  | getWorkingDiff (worktree path : String) (staged : Bool)
  | getCommitDiff (worktree hash : String)

/-- `none` stands for a command that failed. -/
inductive Reply where
  | status (next : Option (List FileStatus))
  | commits (next : Option (List CommitInfo))
  | workingDiff (diff : Option FileDiff)
  | commitDiff (diffs : Option (List FileDiff))

/-- What a diff was computed from. -/
inductive Source where
  | working (worktree path : String) (staged : Bool)
  | commit (worktree hash path : String)
deriving DecidableEq

def Source.worktree : Source → String
  | .working worktree _ _ => worktree
  | .commit worktree _ _ => worktree

def Source.path : Source → String
  | .working _ path _ => path
  | .commit _ _ path => path

inductive Mutation where
  | stage
  | unstage
  | discard

/-- A command about a hunk, or about lines of it. `shown` is history: where the diff that the
indices were taken from comes from. -/
structure Command where
  mutation : Mutation
  worktree : String
  path : String
  hunkIndex : Nat
  lineIndices : Option (List Nat)
  shown : Option Source

/-- `statusesOf`, `commitsOf`, `diffOf`, `commitDiffsOf` and `sent` are history: what the data was
loaded for, and the commands. -/
structure System where
  state : DiffState
  requests : Nat → Option Request := fun _ => none
  issued : Nat := 0
  statusesOf : Option String := none
  commitsOf : Option String := none
  diffOf : Option Source := none
  commitDiffsOf : Option (String × String) := none
  sent : List Command := []

def initial : System where
  state := ⟨[], [], none, [], .changes, none, false, none⟩

/-- An empty path counts as none. -/
def truthy (path : Option String) : Option String :=
  path.filter fun path => path ≠ ""

def System.issue (sys : System) (request : Request) : System :=
  { sys with
    requests := Function.update sys.requests sys.issued (some request)
    issued := sys.issued + 1 }

/-- A request for the current worktree, if there is one. -/
def System.load (sys : System) (request : String → Request) : System :=
  match truthy sys.state.worktreePath with
  | some worktree => sys.issue (request worktree)
  | none => sys

def System.loadStatus (sys : System) : System := sys.load .getStatus

def System.loadCommits (sys : System) : System := sys.load .getCommits

def System.loadWorkingDiff (sys : System) (path : String) (staged : Bool) : System :=
  sys.load fun worktree => .getWorkingDiff worktree path staged

def System.loadCommitDiff (sys : System) (hash : String) : System :=
  sys.load fun worktree => .getCommitDiff worktree hash

def System.setWorktreePath (sys : System) (path : Option String) : System :=
  if path = sys.state.worktreePath then sys
  else { sys with state := { initial.state with worktreePath := path } }

def System.select (sys : System) (path : Option String) (staged : Bool) : System :=
  { sys with
    state := { sys.state with selectedFile := path, isViewingStaged := staged } }

def System.show (sys : System) (diff : Option FileDiff) (source : Option Source) : System :=
  { sys with state := { sys.state with currentDiff := diff }, diffOf := source }

def System.selectFile (sys : System) (path : Option String) (staged : Bool) : System :=
  let selected := sys.select path staged
  match truthy path with
  | some path =>
    match selected.state.selectedView with
    | .changes => selected.loadWorkingDiff path staged
    | .commit _ =>
      selected.show (selected.state.commitDiffs.find? fun diff => diff.path = path)
        (selected.commitDiffsOf.map fun (worktree, hash) => .commit worktree hash path)
  | none => selected.show none none

def System.selectView (sys : System) (view : View) : System :=
  match view with
  | .changes =>
    let cleared : System :=
      { sys with
        state :=
          { sys.state with
            selectedView := view
            selectedFile := none
            currentDiff := none
            commitDiffs := [] } }
    match cleared.state.fileStatuses with
    | first :: _ => cleared.selectFile (some first.path) first.staged
    | [] => cleared
  | .commit info =>
    -- What was shown stays until the load completes.
    { sys with state := { sys.state with selectedView := view } }.loadCommitDiff info.hash

/-- The indices are those of the diff that is shown. -/
def System.mutate (sys : System) (mutation : Mutation) (hunkIndex : Nat)
    (lineIndices : Option (List Nat)) : System :=
  match sys.state.currentDiff, truthy sys.state.worktreePath with
  | some diff, some worktree =>
    { sys with
      sent := sys.sent ++
        [⟨mutation, worktree, diff.path, hunkIndex, lineIndices, sys.diffOf⟩] }
  | _, _ => sys

def System.onStatus (sys : System) (worktree : String) (next : Option (List FileStatus)) :
    System :=
  match next with
  | none => sys
  | some next =>
    if sys.state.fileStatuses = next then sys
    else
      { sys with
        state := { sys.state with fileStatuses := next }
        statusesOf := some worktree }

def System.onCommits (sys : System) (worktree : String) (next : Option (List CommitInfo)) :
    System :=
  match next with
  | none => sys
  | some next =>
    if sys.state.commits = next then sys
    else
      { sys with
        state := { sys.state with commits := next }
        commitsOf := some worktree }

def System.onWorkingDiff (sys : System) (worktree path : String) (staged : Bool)
    (diff : Option FileDiff) : System :=
  sys.show diff (some (.working worktree path staged))

def System.onCommitDiff (sys : System) (worktree hash : String)
    (diffs : Option (List FileDiff)) : System :=
  match diffs with
  | none => sys.show none none
  | some diffs =>
    { sys with
      state :=
        { sys.state with
          commitDiffs := diffs
          currentDiff := diffs.head?
          selectedFile := diffs.head?.map FileDiff.path }
      diffOf := diffs.head?.map fun diff => .commit worktree hash diff.path
      commitDiffsOf := some (worktree, hash) }

inductive Label where
  | setWorktreePath (path : Option String)
  | loadStatus
  | loadCommits
  | loadWorkingDiff (path : String) (staged : Bool)
  | loadCommitDiff (hash : String)
  | selectView (view : View)
  | selectFile (path : Option String) (staged : Bool)
  | mutate (mutation : Mutation) (hunkIndex : Nat) (lineIndices : Option (List Nat))
  | complete (id : Nat) (reply : Reply)

def step (sys : System) : Label → Option System
  | .setWorktreePath path => some (sys.setWorktreePath path)
  | .loadStatus => some sys.loadStatus
  | .loadCommits => some sys.loadCommits
  | .loadWorkingDiff path staged => some (sys.loadWorkingDiff path staged)
  | .loadCommitDiff hash => some (sys.loadCommitDiff hash)
  | .selectView view => some (sys.selectView view)
  | .selectFile path staged => some (sys.selectFile path staged)
  | .mutate mutation hunkIndex lineIndices => some (sys.mutate mutation hunkIndex lineIndices)
  | .complete id reply =>
    let answered := { sys with requests := Function.update sys.requests id none }
    match sys.requests id, reply with
    | some (.getStatus worktree), .status next => some (answered.onStatus worktree next)
    | some (.getCommits worktree), .commits next => some (answered.onCommits worktree next)
    | some (.getWorkingDiff worktree path staged), .workingDiff diff =>
      some (answered.onWorkingDiff worktree path staged diff)
    | some (.getCommitDiff worktree hash), .commitDiff diffs =>
      some (answered.onCommitDiff worktree hash diffs)
    | _, _ => none

/-- What the selection asks for. -/
def DiffState.selection (state : DiffState) : Option Source :=
  match state.worktreePath, state.selectedFile with
  | some worktree, some path =>
    match state.selectedView with
    | .changes => some (.working worktree path state.isViewingStaged)
    | .commit info => some (.commit worktree info.hash path)
  | _, _ => none

structure Belongs (sys : System) : Prop where
  statuses : sys.state.fileStatuses = [] ∨
    ∃ worktree, sys.statusesOf = some worktree ∧ sys.state.worktreePath = some worktree
  commits : sys.state.commits = [] ∨
    ∃ worktree, sys.commitsOf = some worktree ∧ sys.state.worktreePath = some worktree
  diff : ∀ diff, sys.state.currentDiff = some diff → ∃ source,
    sys.diffOf = some source ∧ sys.state.selection = some source ∧ source.path = diff.path
  sent : ∀ command ∈ sys.sent, ∃ source, command.shown = some source ∧
    command.worktree = source.worktree ∧ command.path = source.path

/-- A reply comes while what it was asked for is selected, or it has nothing to show. -/
def Fits (state : DiffState) : Option Request → Reply → Prop
  | some (.getStatus worktree), .status next =>
    state.worktreePath = some worktree ∨ next.getD [] = []
  | some (.getCommits worktree), .commits next =>
    state.worktreePath = some worktree ∨ next.getD [] = []
  | some (.getWorkingDiff worktree path staged), .workingDiff diff =>
    ∀ shown, diff = some shown →
      state.selection = some (.working worktree path staged) ∧ shown.path = path
  | some (.getCommitDiff worktree hash), .commitDiff diffs =>
    diffs.getD [] = [] ∨ state.worktreePath = some worktree ∧
      ∃ info : CommitInfo, state.selectedView = .commit info ∧ info.hash = hash
  | _, _ => True

/-- A selection is made while the diff of another one is not shown, and a reply comes while its
own selection stands. -/
def Clean (sys : System) : Label → Prop
  | .selectFile path staged =>
    truthy path = none ∨
      match sys.state.selectedView with
      | .changes => sys.state.currentDiff = none ∨
          (sys.state.selectedFile = path ∧ sys.state.isViewingStaged = staged)
      | .commit info =>
        (∀ diff ∈ sys.state.commitDiffs, some diff.path ≠ path) ∨
          ∃ worktree, sys.state.worktreePath = some worktree ∧
            sys.commitDiffsOf = some (worktree, info.hash)
  | .selectView (.commit info) =>
    sys.state.currentDiff = none ∨
      ∃ shown : CommitInfo, sys.state.selectedView = .commit shown ∧ shown.hash = info.hash
  | .complete id reply => Fits sys.state (sys.requests id) reply
  | _ => True

def DiffBelongs (ok : System → Label → Prop) : Prop :=
  ∀ finish, Run step ok initial finish → Belongs finish

section
variable {sys : System}

theorem initial_belongs : Belongs initial where
  statuses := Or.inl rfl
  commits := Or.inl rfl
  diff := nofun
  sent := fun _ isIn => absurd isIn List.not_mem_nil

theorem truthy_eq_some {path : Option String} {found : String} (isPath : truthy path = some found) :
    path = some found :=
  (Option.filter_eq_some_iff.mp isPath).1

theorem Belongs.load (belongs : Belongs sys) (request : String → Request) :
    Belongs (sys.load request) := by
  unfold System.load
  split
  · exact ⟨belongs.statuses, belongs.commits, belongs.diff, belongs.sent⟩
  · exact belongs

theorem Belongs.show (belongs : Belongs sys) {diff : Option FileDiff} {source : Option Source}
    (isOwn : ∀ shown, diff = some shown → ∃ own, source = some own ∧
      sys.state.selection = some own ∧ own.path = shown.path) :
    Belongs (sys.show diff source) :=
  ⟨belongs.statuses, belongs.commits, isOwn, belongs.sent⟩

theorem Belongs.setWorktreePath (belongs : Belongs sys) (path : Option String) :
    Belongs (sys.setWorktreePath path) := by
  unfold System.setWorktreePath
  split_ifs
  · exact belongs
  · exact ⟨.inl rfl, .inl rfl, nofun, belongs.sent⟩

theorem Belongs.selectFile (belongs : Belongs sys) {path : Option String} {staged : Bool}
    (clean : Clean sys (.selectFile path staged)) :
    Belongs (sys.selectFile path staged) := by
  unfold System.selectFile
  dsimp only
  split
  · rename_i file isFile
    have isPath := truthy_eq_some isFile
    have given := clean.resolve_left (by rw [isFile]; exact Option.some_ne_none _)
    split
    · rename_i isChanges
      have wasChanges : sys.state.selectedView = .changes := isChanges
      rw [wasChanges] at given
      suffices selected : Belongs (sys.select path staged) from selected.load _
      refine ⟨belongs.statuses, belongs.commits, ?_, belongs.sent⟩
      intro diff isShown
      have wasShown : sys.state.currentDiff = some diff := isShown
      rcases given with isNone | ⟨sameFile, sameStaged⟩
      · exact absurd (isNone.symm.trans wasShown) (Option.some_ne_none _).symm
      · have same : sys.select path staged = sys := by
          unfold System.select
          rw [← sameFile, ← sameStaged]
        rw [same]
        exact belongs.diff diff wasShown
    · rename_i info isCommit
      have wasCommit : sys.state.selectedView = .commit info := isCommit
      rw [wasCommit] at given
      have selected : Belongs { sys.select path staged with
          state := { (sys.select path staged).state with currentDiff := none } } :=
        ⟨belongs.statuses, belongs.commits, nofun, belongs.sent⟩
      refine ⟨selected.statuses, selected.commits, ?_, selected.sent⟩
      intro diff isShown
      have isFound : sys.state.commitDiffs.find? (fun diff => diff.path = file) = some diff :=
        isShown
      have diffPath : diff.path = file := by simpa using List.find?_some isFound
      rcases given with isUnknown | ⟨worktree, isWorktree, isOf⟩
      · refine absurd ?_ (isUnknown diff (List.mem_of_find?_eq_some isFound))
        rw [diffPath, isPath]
      · refine ⟨.commit worktree info.hash file, ?_, ?_, diffPath.symm⟩
        · show sys.commitDiffsOf.map _ = _
          rw [isOf]
          rfl
        · unfold DiffState.selection System.show System.select
          dsimp only
          rw [isWorktree, isPath, wasCommit]
  · refine ⟨belongs.statuses, belongs.commits, nofun, belongs.sent⟩

theorem Belongs.selectView (belongs : Belongs sys) {view : View}
    (clean : Clean sys (.selectView view)) : Belongs (sys.selectView view) := by
  unfold System.selectView
  cases view with
  | changes =>
    dsimp only
    have cleared : Belongs
        { sys with
          state :=
            { sys.state with
              selectedView := .changes
              selectedFile := none
              currentDiff := none
              commitDiffs := [] } } :=
      ⟨belongs.statuses, belongs.commits, nofun, belongs.sent⟩
    split
    · exact cleared.selectFile (Or.inr (Or.inl rfl))
    · exact cleared
  | commit info =>
    dsimp only
    suffices viewed : Belongs
        { sys with state := { sys.state with selectedView := .commit info } } from
      viewed.load _
    refine ⟨belongs.statuses, belongs.commits, ?_, belongs.sent⟩
    intro diff isShown
    have wasShown : sys.state.currentDiff = some diff := isShown
    rcases clean with isNone | ⟨shown, isView, sameHash⟩
    · exact absurd (isNone.symm.trans wasShown) (Option.some_ne_none _).symm
    · obtain ⟨source, isSource, isSelected, isPath⟩ := belongs.diff diff wasShown
      refine ⟨source, isSource, ?_, isPath⟩
      rw [← isSelected]
      unfold DiffState.selection
      dsimp only
      rw [isView, ← sameHash]

theorem selection_worktree {state : DiffState} {source : Source}
    (isSelected : state.selection = some source) : state.worktreePath = some source.worktree := by
  unfold DiffState.selection at isSelected
  split at isSelected
  · split at isSelected <;> (cases isSelected; assumption)
  · cases isSelected

theorem Belongs.mutate (belongs : Belongs sys) (mutation : Mutation) (hunkIndex : Nat)
    (lineIndices : Option (List Nat)) : Belongs (sys.mutate mutation hunkIndex lineIndices) := by
  unfold System.mutate
  split
  · rename_i diff worktree isShown isWorktree
    refine ⟨belongs.statuses, belongs.commits, belongs.diff, fun command isIn => ?_⟩
    rcases List.mem_append.mp isIn with isOld | isNew
    · exact belongs.sent command isOld
    · rw [List.mem_singleton.mp isNew]
      obtain ⟨source, isSource, isSelected, isPath⟩ := belongs.diff diff isShown
      have sameWorktree := (truthy_eq_some isWorktree).symm.trans (selection_worktree isSelected)
      exact ⟨source, isSource, Option.some.inj sameWorktree, isPath.symm⟩
  · exact belongs

theorem Belongs.answer (belongs : Belongs sys) {requests : Nat → Option Request} :
    Belongs { sys with requests := requests } :=
  ⟨belongs.statuses, belongs.commits, belongs.diff, belongs.sent⟩

theorem Belongs.onStatus (belongs : Belongs sys) {worktree : String}
    {next : Option (List FileStatus)}
    (fits : sys.state.worktreePath = some worktree ∨ next.getD [] = []) :
    Belongs (sys.onStatus worktree next) := by
  unfold System.onStatus
  split
  · exact belongs
  · split_ifs
    · exact belongs
    · refine ⟨?_, belongs.commits, belongs.diff, belongs.sent⟩
      rcases fits with isCurrent | isEmpty
      · exact .inr ⟨worktree, rfl, isCurrent⟩
      · exact .inl isEmpty

theorem Belongs.onCommits (belongs : Belongs sys) {worktree : String}
    {next : Option (List CommitInfo)}
    (fits : sys.state.worktreePath = some worktree ∨ next.getD [] = []) :
    Belongs (sys.onCommits worktree next) := by
  unfold System.onCommits
  split
  · exact belongs
  · split_ifs
    · exact belongs
    · refine ⟨belongs.statuses, ?_, belongs.diff, belongs.sent⟩
      rcases fits with isCurrent | isEmpty
      · exact .inr ⟨worktree, rfl, isCurrent⟩
      · exact .inl isEmpty

theorem Belongs.onWorkingDiff (belongs : Belongs sys) {worktree path : String} {staged : Bool}
    {diff : Option FileDiff}
    (fits : ∀ shown, diff = some shown →
      sys.state.selection = some (.working worktree path staged) ∧ shown.path = path) :
    Belongs (sys.onWorkingDiff worktree path staged diff) := by
  refine belongs.show fun shown isShown => ?_
  obtain ⟨isSelected, isPath⟩ := fits shown isShown
  exact ⟨_, rfl, isSelected, isPath.symm⟩

theorem Belongs.onCommitDiff (belongs : Belongs sys) {worktree hash : String}
    {diffs : Option (List FileDiff)}
    (fits : diffs.getD [] = [] ∨ sys.state.worktreePath = some worktree ∧
      ∃ info : CommitInfo, sys.state.selectedView = .commit info ∧ info.hash = hash) :
    Belongs (sys.onCommitDiff worktree hash diffs) := by
  unfold System.onCommitDiff
  split
  · exact belongs.show nofun
  · rename_i diffs
    refine ⟨belongs.statuses, belongs.commits, fun diff isShown => ?_, belongs.sent⟩
    have isHead : diffs.head? = some diff := isShown
    rcases fits with isEmpty | ⟨isWorktree, info, isView, rfl⟩
    · have noDiffs : diffs = [] := isEmpty
      simp [noDiffs] at isHead
    · refine ⟨.commit worktree info.hash diff.path, ?_, ?_, rfl⟩
      · show diffs.head?.map _ = _
        rw [isHead]
        rfl
      · unfold DiffState.selection
        dsimp only
        rw [isWorktree, isHead, isView]
        rfl

theorem step_belongs (belongs : Belongs sys) {label : Label} (clean : Clean sys label)
    {next : System} (ran : step sys label = some next) : Belongs next := by
  cases label with
  | setWorktreePath path =>
    cases ran
    exact belongs.setWorktreePath path
  | loadStatus | loadCommits | loadWorkingDiff path staged | loadCommitDiff hash =>
    cases ran
    exact belongs.load _
  | selectView view =>
    cases ran
    exact belongs.selectView clean
  | selectFile path staged =>
    cases ran
    exact belongs.selectFile clean
  | mutate mutation hunkIndex lineIndices =>
    cases ran
    exact belongs.mutate mutation hunkIndex lineIndices
  | complete id reply =>
    have fits : Fits sys.state (sys.requests id) reply := clean
    simp only [step] at ran
    split at ran
    · rename_i isRequest
      cases ran
      rw [isRequest] at fits
      exact belongs.answer.onStatus fits
    · rename_i isRequest
      cases ran
      rw [isRequest] at fits
      exact belongs.answer.onCommits fits
    · rename_i isRequest
      cases ran
      rw [isRequest] at fits
      exact belongs.answer.onWorkingDiff fits
    · rename_i isRequest
      cases ran
      rw [isRequest] at fits
      exact belongs.answer.onCommitDiff fits
    · cases ran

end

theorem diffBelongs {finish : System} (run : Run step Clean initial finish) : Belongs finish :=
  run.invariant initial_belongs fun _ _ _ belongs clean ran =>
    step_belongs belongs clean ran

/-- A file is selected, its diff arrives, and a hunk of it is staged; then a commit is shown. -/
def stagedHunk : List Label :=
  [.setWorktreePath (some "/w"), .loadStatus, .complete 0 (.status (some [⟨"a", "M", false⟩])),
    .selectFile (some "a") false, .complete 1 (.workingDiff (some ⟨"a"⟩)),
    .mutate .stage 0 (some [1, 2]), .selectFile none false, .selectView (.commit ⟨"c0"⟩),
    .complete 2 (.commitDiff (some [⟨"b"⟩]))]

theorem diffBelongs_stagedHunk :
    ∃ finish, Run step Clean initial finish ∧ finish.state.currentDiff = some ⟨"b"⟩ ∧
      finish.sent = [⟨.stage, "/w", "a", 0, some [1, 2], some (.working "/w" "a" false)⟩] ∧
        Belongs finish := by
  obtain ⟨finish, replayed, shown, sent⟩ : ∃ finish,
      execute step initial stagedHunk = some finish ∧ finish.state.currentDiff = some ⟨"b"⟩ ∧
        finish.sent = [⟨.stage, "/w", "a", 0, some [1, 2], some (.working "/w" "a" false)⟩] :=
    ⟨_, rfl, rfl, rfl⟩
  have permitted : Permitted step Clean initial stagedHunk := by
    refine ⟨trivial, _, rfl, trivial, _, rfl, .inl rfl, _, rfl, .inr (Or.inl rfl), _, rfl, ?_,
      _, rfl, trivial, _, rfl, .inl rfl, _, rfl, .inl rfl, _, rfl,
      Or.inr ⟨rfl, ⟨"c0"⟩, rfl, rfl⟩, _, rfl, trivial⟩
    rintro shown ⟨⟩
    exact ⟨rfl, rfl⟩
  have run := run_of_permitted stagedHunk permitted replayed
  exact ⟨finish, run, shown, sent, diffBelongs run⟩

/-- The reply for the first file comes behind the one for the second. -/
def lateReply : List Label :=
  [.setWorktreePath (some "/w"), .selectFile (some "a") false, .selectFile (some "b") false,
    .complete 1 (.workingDiff (some ⟨"b"⟩)), .complete 0 (.workingDiff (some ⟨"a"⟩))]

theorem not_diffBelongs : ¬DiffBelongs fun _ _ => True := by
  intro allBelong
  obtain ⟨finish, replayed, shown, selected, source⟩ : ∃ finish,
      execute step initial lateReply = some finish ∧ finish.state.currentDiff = some ⟨"a"⟩ ∧
        finish.state.selection = some (.working "/w" "b" false) ∧
          finish.diffOf = some (.working "/w" "a" false) := ⟨_, rfl, rfl, rfl, rfl⟩
  obtain ⟨own, isOwn, isSelected, _⟩ :=
    (allBelong finish (reachable_of_execute lateReply replayed)).diff _ shown
  rw [source] at isOwn
  rw [selected] at isSelected
  cases isOwn
  exact absurd isSelected (by decide)

end AiTools.Grove.DiffStore
