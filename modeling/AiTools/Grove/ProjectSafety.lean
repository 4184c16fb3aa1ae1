import AiTools.Grove.Projects
import AiTools.Lib.Transition
import Mathlib.Data.List.Infix

/-!
Contract: what is removed over every interleaving of clones, creations and removals.
-/

namespace AiTools.Grove.Projects

open AiTools.Lib.Transition
open Function (update)

/-- The directory that an operation makes, until it is registered or removed. -/
def Stage.holds : Stage → Option Path
  | .createWorktrees project => some project.dir
  | .work project => some project.dir
  | .working project => some project.dir
  | .removeFailed project => some project.dir
  | _ => none

/-- A project is made from a plain URL where nothing is yet and no other operation is at work, and
removed under a plain URL. -/
def Stage.Clean (sys : System) (id : Nat) : Stage → Prop
  | .createDirs project =>
    IsPlainUrl project.url ∧ sys.tree.occupied project.dir = false ∧
      ∀ other thread, other ≠ id → sys.threads other = some thread →
        thread.stage.holds ≠ some project.dir
  | .find projectId => ∀ entry ∈ sys.config, entry.id = projectId → IsPlainUrl entry.url
  | _ => True

def Clean (sys : System) : Label → Prop
  | .advance id _ _ =>
    match sys.threads id with
    | some ⟨_, stage⟩ => stage.Clean sys id
    | none => True
  | .start _ _ => True

variable {base : Path}

/-- The directory is the one that the URL stands for. -/
def Project.Parsed (base : Path) (project : Project) : Prop :=
  ∃ parts, parseGitUrl project.url = .ok parts ∧ project.dir = projectDir base parts

/-- All that is below the directory was made by the operation. -/
structure Project.Made (tree : Tree) (number : Nat) (project : Project) : Prop where
  isPlain : IsPlainUrl project.url
  own : ∀ node ∈ tree, project.dir <+: node.path → node.maker = some number

/-- The source directory of a project with a plain URL. -/
def IsSource (base : Path) (url : Text) (source : Path) : Prop :=
  ∃ parts, parseGitUrl url = .ok parts ∧ parts.Ordinary ∧
    source = base ++ [parts.host, parts.org, parts.repo] ++ [sourceWorktreeName]

def Stage.Fits (base : Path) (tree : Tree) (number : Nat) : Stage → Prop
  | .load project _ => project.Parsed base
  | .saveReconciled project _ _ => project.Parsed base
  | .createDirs project => project.Parsed base
  | .createWorktrees project => project.Parsed base ∧ project.Made tree number
  | .work project => project.Parsed base ∧ project.Made tree number
  | .working project => project.Parsed base ∧ project.Made tree number
  | .removeFailed project => project.Parsed base ∧ project.Made tree number
  | .save _ => True
  | .find _ => True
  | .saveRemoved _ entry source => IsSource base entry.url source
  | .removeProject entry source => IsSource base entry.url source

structure Sound (base : Path) (sys : System) : Prop where
  kept : Kept base sys
  fits : ∀ id thread, sys.threads id = some thread →
    thread.stage.Fits base sys.tree thread.number
  single : ∀ {first second : Nat} {one other : Thread} {dir : Path},
    sys.threads first = some one → sys.threads second = some other →
      one.stage.holds = some dir → other.stage.holds = some dir → first = second

theorem initial_sound (config : List ProjectEntry) (tree : Tree) :
    Sound base (initial config tree) where
  kept := nofun
  fits := nofun
  single := nofun

variable {project : Project} {path : Path} {stage : Stage} {tree : Tree} {number : Nat}
  {node : Node} {spared : List Path}

theorem Project.Parsed.isPlain (parsed : project.Parsed base) (isPlain : IsPlainUrl project.url) :
    ∃ parts, parseGitUrl project.url = .ok parts ∧ parts.Ordinary ∧
      project.dir = base ++ [parts.host, parts.org, parts.repo] := by
  obtain ⟨parts, isParsed, isDir⟩ := parsed
  have ordinary := (plain_iff_ordinary isParsed).mp isPlain
  exact ⟨parts, isParsed, ordinary, isDir.trans (project_dir_ordinary base ordinary)⟩

theorem Project.Parsed.length (parsed : project.Parsed base) (isPlain : IsPlainUrl project.url) :
    project.dir.length = base.length + 3 := by
  obtain ⟨parts, _, _, isDir⟩ := parsed.isPlain isPlain
  rw [isDir, List.length_append]
  rfl

theorem dir_eq_of_prefix {other : Project} (parsed : project.Parsed base)
    (isPlain : IsPlainUrl project.url) (otherParsed : other.Parsed base)
    (otherPlain : IsPlainUrl other.url) (isBelow : project.dir <+: path)
    (otherBelow : other.dir <+: path) : project.dir = other.dir := by
  have same : project.dir.length = other.dir.length :=
    (parsed.length isPlain).trans (otherParsed.length otherPlain).symm
  exact (List.prefix_of_prefix_length_le isBelow otherBelow same.le).eq_of_length same

theorem Stage.Fits.held {dir : Path} (fits : stage.Fits base tree number)
    (holds : stage.holds = some dir) :
    ∃ project : Project, project.dir = dir ∧ project.Parsed base ∧ project.Made tree number := by
  cases stage with
  | createWorktrees project | work project | working project | removeFailed project =>
    exact ⟨project, Option.some.inj holds, fits⟩
  | _ => cases holds

theorem Stage.Fits.mono {next : Tree} (fits : stage.Fits base tree number)
    (isNew : ∀ dir, stage.holds = some dir → ∀ node ∈ next, dir <+: node.path → node ∈ tree) :
    stage.Fits base next number := by
  have made : ∀ project : Project, stage.holds = some project.dir →
      project.Made tree number → project.Made next number := fun project holds made =>
    ⟨made.isPlain, fun node isNode isBelow =>
      made.own node (isNew _ holds node isNode isBelow) isBelow⟩
  cases stage with
  | createWorktrees project | work project | working project | removeFailed project =>
    exact ⟨fits.1, made project rfl fits.2⟩
  | _ => exact fits

theorem mem_createDirAll {maker : Nat} (isNode : node ∈ tree.createDirAll maker path) :
    node ∈ tree ∨ node.path <+: path ∧ node.maker = some maker := by
  rcases List.mem_append.mp isNode with isOld | isNew
  · exact .inl isOld
  · obtain ⟨dir, isDir, rfl⟩ := List.mem_map.mp isNew
    exact .inr ⟨(List.mem_inits _ _).mp (List.mem_filter.mp isDir).1, rfl⟩

theorem mem_of_mem_removeDirAll (isNode : node ∈ tree.removeDirAll path spared) : node ∈ tree :=
  (List.mem_filter.mp isNode).1

theorem mem_taken (isTaken : node ∈ tree.taken path spared) : node ∈ tree ∧ path <+: node.path := by
  obtain ⟨isNode, isBelow⟩ := List.mem_filter.mp isTaken
  exact ⟨isNode, List.isPrefixOf_iff_prefix.mp (Bool.and_eq_true_iff.mp isBelow).1⟩

theorem not_occupied (isFree : tree.occupied path = false) (isNode : node ∈ tree) :
    ¬path <+: node.path := fun isBelow => by
  have isOccupied : tree.occupied path = true :=
    List.any_eq_true.mpr ⟨node, isNode, List.isPrefixOf_iff_prefix.mpr isBelow⟩
  exact Bool.noConfusion (isFree.symm.trans isOccupied)

/-! ## Steps -/

section
variable {sys : System} {id : Nat} {thread : Thread} {config : List ProjectEntry} {source : Path}

theorem Sound.finish (sound : Sound base sys) {removals : List Removal}
    (isLess : ∀ node ∈ tree, node ∈ sys.tree) (kept : ∀ removal ∈ removals, removal.Kept base) :
    Sound base { sys with
      tree
      config
      removals
      threads := update sys.threads id none } where
  kept := kept
  fits := by
    intro other found isFound
    rcases update_eq_some isFound with ⟨_, isNone⟩ | ⟨_, wasFound⟩
    · cases isNone
    · exact (sound.fits other found wasFound).mono fun _ _ node isNode _ => isLess node isNode
  single := by
    intro first second one other dir isFirst isSecond
    rcases update_eq_some isFirst with ⟨_, isNone⟩ | ⟨_, wasFirst⟩
    · cases isNone
    · rcases update_eq_some isSecond with ⟨_, isNone⟩ | ⟨_, wasSecond⟩
      · cases isNone
      · exact sound.single wasFirst wasSecond

/-- An operation goes on. What it has made in the tree lies in no directory that another holds,
and it holds none that another does. -/
theorem Sound.goto (sound : Sound base sys) (fits : stage.Fits base tree thread.number)
    (isNew : ∀ other found dir, other ≠ id → sys.threads other = some found →
      found.stage.holds = some dir → ∀ node ∈ tree, dir <+: node.path → node ∈ sys.tree)
    (alone : ∀ other found dir, other ≠ id → sys.threads other = some found →
      found.stage.holds = some dir → stage.holds ≠ some dir) : Sound base { sys with
      tree
      config
      threads := update sys.threads id (some { thread with stage }) } where
  kept := sound.kept
  fits := by
    intro other found isFound
    rcases update_eq_some isFound with ⟨rfl, isSome⟩ | ⟨isOther, wasFound⟩
    · cases isSome
      exact fits
    · exact (sound.fits other found wasFound).mono fun dir => isNew other found dir isOther wasFound
  single := by
    intro first second one other dir isFirst isSecond oneHolds otherHolds
    rcases update_eq_some isFirst with ⟨sameFirst, isOne⟩ | ⟨notFirst, wasFirst⟩
    · cases isOne
      rcases update_eq_some isSecond with ⟨sameSecond, _⟩ | ⟨notSecond, wasSecond⟩
      · rw [sameFirst, sameSecond]
      · exact absurd oneHolds (alone second other dir notSecond wasSecond otherHolds)
    · rcases update_eq_some isSecond with ⟨_, isOther⟩ | ⟨_, wasSecond⟩
      · cases isOther
        exact absurd otherHolds (alone first one dir notFirst wasFirst oneHolds)
      · exact sound.single wasFirst wasSecond oneHolds otherHolds

/-- A step that leaves the tree, from a stage that holds what the next one holds. -/
theorem Sound.pass (sound : Sound base sys) (found : sys.threads id = some thread)
    {stage : Stage} (fits : stage.Fits base sys.tree thread.number)
    (holds : ∀ dir, stage.holds = some dir → thread.stage.holds = some dir) :
    Sound base ((sys.onConfig config).goto id thread stage) :=
  sound.goto fits (fun _ _ _ _ _ _ _ isNode _ => isNode)
    fun _ _ _ isOther wasFound otherHolds stageHolds =>
      isOther (sound.single wasFound found otherHolds (holds _ stageHolds))

theorem Sound.return (sound : Sound base sys) :
    Sound base ((sys.onConfig config).finish id) :=
  sound.finish (fun _ isNode => isNode) sound.kept

theorem Sound.loaded (sound : Sound base sys) (found : sys.threads id = some thread)
    (parsed : project.Parsed base) (given : Given)
    (config entries : List ProjectEntry) (purpose : Purpose) :
    Sound base ((sys.onConfig config).loaded id thread given project entries purpose) := by
  cases purpose with
  | check =>
    unfold System.loaded
    dsimp only
    split
    · exact sound.return
    · split
      · exact sound.pass found parsed nofun
      · exact sound.pass found parsed nofun
  | recover =>
    unfold System.loaded
    dsimp only
    split
    · exact sound.return
    · split
      · exact sound.pass found parsed nofun
      · exact sound.return
  | register entry =>
    unfold System.loaded
    dsimp only
    split
    · exact sound.return
    · exact sound.pass found trivial nofun

theorem IsSource.kept {url : Text} (isSource : IsSource base url source) (operation : Nat)
    (tree : Tree) (spared : List Path) :
    Removal.Kept base ⟨.removedProject, operation, url, source.dropLast,
      tree.taken source.dropLast spared⟩ where
  own := by
    obtain ⟨parts, isParsed, ordinary, rfl⟩ := isSource
    exact ⟨parts, isParsed, ordinary, List.dropLast_concat⟩
  below := fun _ isTaken => (mem_taken isTaken).2
  made := nofun

theorem managed_isSource {entry : ProjectEntry} (isPlain : IsPlainUrl entry.url)
    (isManaged : managedSourceDir base entry = some source) : IsSource base entry.url source := by
  unfold managedSourceDir at isManaged
  split at isManaged
  · cases isManaged
  · rename_i parts isParsed
    have ordinary := (plain_iff_ordinary isParsed).mp isPlain
    split at isManaged
    · rename_i isExpected
      cases isManaged
      refine ⟨parts, isParsed, ordinary, ?_⟩
      rw [isExpected, project_dir_ordinary base ordinary]
    · cases isManaged

/-- What an operation with a held directory makes on the way down to it or below it. -/
theorem Sound.make (sound : Sound base sys) (found : sys.threads id = some thread)
    (holds : thread.stage.holds = some project.dir)
    (parsed : project.Parsed base) (made : project.Made sys.tree thread.number)
    (isNew : ∀ node ∈ tree, node ∈ sys.tree ∨ node.maker = some thread.number ∧
      ∃ below, project.dir <+: below ∧ node.path <+: below)
    (fits : project.Made tree thread.number → stage.Fits base tree thread.number)
    (stageHolds : ∀ dir, stage.holds = some dir → dir = project.dir) :
    Sound base ((sys.onTree tree).goto id thread stage) := by
  have ownMade : project.Made tree thread.number := by
    refine ⟨made.isPlain, fun node isNode isBelow => ?_⟩
    rcases isNew node isNode with isOld | ⟨isMade, _⟩
    · exact made.own node isOld isBelow
    · exact isMade
  refine sound.goto (fits ownMade) (fun other found' dir isOther wasFound otherHolds node isNode
    isBelow => ?_) fun other found' dir isOther wasFound otherHolds ownHolds => ?_
  · rcases isNew node isNode with isOld | ⟨_, below, ownBelow, isPrefix⟩
    · exact isOld
    · obtain ⟨otherProject, rfl, otherParsed, otherMade⟩ :=
        (sound.fits other found' wasFound).held otherHolds
      have same := dir_eq_of_prefix otherParsed otherMade.isPlain parsed made.isPlain
        (isBelow.trans isPrefix) ownBelow
      rw [same] at otherHolds
      exact absurd (sound.single wasFound found otherHolds holds) isOther
  · rw [stageHolds dir ownHolds] at otherHolds
    exact isOther (sound.single wasFound found otherHolds holds)

theorem Sound.createDirs (sound : Sound base sys) {project : Project}
    (parsed : project.Parsed base) (isPlain : IsPlainUrl project.url)
    (isFree : sys.tree.occupied project.dir = false)
    (alone : ∀ other found, other ≠ id → sys.threads other = some found →
      found.stage.holds ≠ some project.dir) {dir : Path} (isBelow : project.dir <+: dir) :
    Sound base ((sys.onTree (sys.tree.createDirAll thread.number dir)).goto id thread
      (.createWorktrees project)) := by
  have made : project.Made (sys.tree.createDirAll thread.number dir) thread.number := by
    refine ⟨isPlain, fun node isNode isUnder => ?_⟩
    rcases mem_createDirAll isNode with isOld | ⟨_, isMade⟩
    · exact absurd isUnder (not_occupied isFree isOld)
    · exact isMade
  refine sound.goto ⟨parsed, made⟩ (fun other found' held isOther wasFound otherHolds node isNode
    isUnder => ?_) fun other found' held isOther wasFound otherHolds ownHolds => ?_
  · rcases mem_createDirAll isNode with isOld | ⟨isPrefix, _⟩
    · exact isOld
    · obtain ⟨otherProject, rfl, otherParsed, otherMade⟩ :=
        (sound.fits other found' wasFound).held otherHolds
      have same := dir_eq_of_prefix otherParsed otherMade.isPlain parsed isPlain
        (isUnder.trans isPrefix) isBelow
      rw [same] at otherHolds
      exact absurd otherHolds (alone other found' isOther wasFound)
  · rw [← Option.some.inj ownHolds] at otherHolds
    exact alone other found' isOther wasFound otherHolds

theorem advance_sound (sound : Sound base sys) (found : sys.threads id = some thread)
    (clean : thread.stage.Clean sys id) {given : Given} {work : Work} {next : System}
    (ran : sys.advance base id thread given work = some next) : Sound base next := by
  obtain ⟨number, stage⟩ := thread
  have fits := sound.fits id _ found
  unfold System.advance at ran
  cases stage with
  | load project purpose =>
    dsimp only at ran
    generalize (if given.ok then sys.config else []) = entries at ran
    split at ran
    · cases ran
      exact sound.loaded found fits given sys.config _ purpose
    · cases ran
      exact sound.pass found fits nofun
  | saveReconciled project purpose entries =>
    dsimp only at ran
    split at ran
    · cases ran
      exact sound.loaded found fits given entries entries purpose
    · cases ran
      exact sound.return
  | createDirs project =>
    obtain ⟨isPlain, isFree, alone⟩ := clean
    dsimp only at ran
    have isBelow : project.dir <+: if project.creates then project.source else project.dir := by
      split
      · exact List.prefix_append _ _
      · exact List.prefix_refl _
    split at ran
    · cases ran
      exact @Sound.createDirs base sys id ⟨number, _⟩ sound project fits isPlain isFree alone
        _ isBelow
    · cases ran
      exact sound.return
  | createWorktrees project =>
    dsimp only at ran
    split at ran
    · cases ran
      refine sound.make found rfl fits.1 fits.2 (fun node isNode => ?_)
        (fun made => ⟨fits.1, made⟩) fun _ holds => (Option.some.inj holds).symm
      exact (mem_createDirAll isNode).imp_right fun isMade =>
        ⟨isMade.2, _, List.prefix_append _ _, isMade.1⟩
    · cases ran
      exact sound.return
  | work project =>
    dsimp only at ran
    split at ran
    · cases ran
      exact sound.return
    · split at ran
      · cases ran
        exact sound.pass found fits fun _ holds => holds
      · split at ran
        · cases ran
          exact sound.pass found fits fun _ holds => holds
        · cases ran
          exact sound.pass found fits fun _ holds => holds
  | working project =>
    dsimp only at ran
    split at ran
    · rename_i path directory
      split at ran
      · rename_i isFree
        cases ran
        have isBelow := List.isPrefixOf_iff_prefix.mp (Bool.and_eq_true_iff.mp isFree).1
        have isSame : update sys.threads id (some ⟨number, .working project⟩) =
            sys.threads := by rw [← found, Function.update_eq_self]
        have made : Sound base
            ((sys.onTree (sys.tree ++ [⟨path, directory, some number⟩])).goto id
              ⟨number, .working project⟩ (.working project)) := by
          refine sound.make found rfl fits.1 fits.2 (fun node isNode => ?_)
            (fun made => ⟨fits.1, made⟩) fun _ holds => (Option.some.inj holds).symm
          rcases List.mem_append.mp isNode with isOld | isNew
          · exact .inl isOld
          · rw [List.mem_singleton.mp isNew]
            exact .inr ⟨rfl, path, (List.prefix_append _ _).trans isBelow, List.prefix_refl _⟩
        unfold System.goto at made
        dsimp only [System.onTree] at made
        rwa [isSame] at made
      · cases ran
    · cases ran
      exact sound.pass found fits.1 nofun
    · split at ran
      · cases ran
        exact sound.return
      · cases ran
        exact sound.pass found fits fun _ holds => holds
    · cases ran
      exact sound.return
  | removeFailed project =>
    cases ran
    refine sound.finish (fun _ isNode => mem_of_mem_removeDirAll isNode) ?_
    intro removal isRemoval
    rcases List.mem_cons.mp isRemoval with rfl | isOld
    · refine ⟨fits.1.isPlain fits.2.isPlain, fun _ isTaken => (mem_taken isTaken).2,
        fun _ node isTaken => ?_⟩
      obtain ⟨isNode, isBelow⟩ := mem_taken isTaken
      exact fits.2.own node isNode isBelow
    · exact sound.kept removal isOld
  | save entries =>
    dsimp only at ran
    split at ran
    · cases ran
      exact sound.return
    · cases ran
      exact sound.return
  | find projectId =>
    dsimp only at ran
    split at ran
    · cases ran
      exact sound.return
    · rename_i entry isEntry
      split at ran
      · cases ran
        exact sound.return
      · rename_i source isManaged
        cases ran
        have isListed : entry ∈ sys.config := by
          have isIn := List.mem_of_find?_eq_some isEntry
          split at isIn
          · exact isIn
          · exact absurd isIn List.not_mem_nil
        have isFound := List.find?_some isEntry
        have isId : entry.id = projectId := of_decide_eq_true isFound
        exact sound.pass found (managed_isSource (clean entry isListed isId) isManaged)
          nofun
  | saveRemoved entries entry source =>
    dsimp only at ran
    split at ran
    · cases ran
      exact sound.pass found fits nofun
    · cases ran
      exact sound.return
  | removeProject entry source =>
    cases ran
    refine sound.finish (fun _ isNode => mem_of_mem_removeDirAll isNode) ?_
    intro removal isRemoval
    rcases List.mem_cons.mp isRemoval with rfl | isOld
    · exact IsSource.kept fits number sys.tree given.spared
    · exact sound.kept removal isOld

end

theorem start_sound {sys : System} (sound : Sound base sys) {id : Nat} {call : Call}
    (isFree : sys.threads id = none) (isStart : call.start base = some stage) :
    Sound base { sys with
      threads := update sys.threads id (some ⟨sys.started, stage⟩)
      started := sys.started + 1 } := by
  have prepared : ∀ url creates, Call.start.prepared base url creates = some stage →
      stage.Fits base sys.tree sys.started ∧ stage.holds = none := by
    intro url creates isPrepared
    unfold Call.start.prepared at isPrepared
    split at isPrepared
    · cases isPrepared
    · rename_i parts parsed
      cases isPrepared
      exact ⟨⟨parts, parsed, rfl⟩, rfl⟩
  have fits : stage.Fits base sys.tree sys.started ∧ stage.holds = none := by
    cases call with
    | addProject url | startClone url => exact prepared url false isStart
    | createProject url => exact prepared url true isStart
    | removeProject projectId =>
      cases isStart
      exact ⟨trivial, rfl⟩
  refine ⟨sound.kept, fun other found isFound => ?_,
    fun {first second one other dir} isFirst isSecond oneHolds otherHolds => ?_⟩
  · rcases update_eq_some isFound with ⟨rfl, isSome⟩ | ⟨_, wasFound⟩
    · cases isSome
      exact fits.1
    · exact sound.fits other found wasFound
  · rcases update_eq_some isFirst with ⟨_, isOne⟩ | ⟨_, wasFirst⟩
    · cases isOne
      cases fits.2.symm.trans oneHolds
    · rcases update_eq_some isSecond with ⟨_, isOther⟩ | ⟨_, wasSecond⟩
      · cases isOther
        cases fits.2.symm.trans otherHolds
      · exact sound.single wasFirst wasSecond oneHolds otherHolds

theorem step_sound {sys next : System} {label : Label} (sound : Sound base sys)
    (clean : Clean sys label) (ran : step base sys label = some next) :
    Sound base next := by
  unfold step at ran
  cases label with
  | start id call =>
    dsimp only at ran
    split at ran
    · rename_i stage isFree isStart
      cases ran
      exact start_sound sound isFree isStart
    · cases ran
  | advance id given work =>
    dsimp only at ran
    split at ran
    · cases ran
    · rename_i thread found
      simp only [Clean, found] at clean
      exact advance_sound sound found clean ran

/-- The parts of every such URL are names, and its project is three levels below the base. -/
def PartsOrdinary (ok : Text → Prop) : Prop :=
  ∀ base url parts, ok url → parseGitUrl url = .ok parts →
    parts.Ordinary ∧ projectDir base parts = base ++ [parts.host, parts.org, parts.repo]

/-- In all runs. -/
def ProjectsKept (ok : System → Label → Prop) : Prop :=
  ∀ base config tree finish, Run (step base) ok (initial config tree) finish → Kept base finish

/-- A URL that is accepted stands for a directory three levels below the base when it is plain and
only then, and removals keep to the project and to what the failed clone made. -/
theorem projectsKept {url : Text} {parts : Parts} (parsed : parseGitUrl url = .ok parts)
    {base : Path} {config : List ProjectEntry} {tree : Tree} {finish : System}
    (run : Run (step base) Clean (initial config tree) finish) :
    (IsPlainUrl url ↔
      parts.Ordinary ∧ projectDir base parts = base ++ [parts.host, parts.org, parts.repo]) ∧
    Kept base finish := by
  have sound : Sound base finish := run.invariant (initial_sound config tree)
    fun _ _ _ sound clean ran => step_sound sound clean ran
  refine ⟨⟨fun isPlain => ?_, fun ordinary => (plain_iff_ordinary parsed).mpr ordinary.1⟩,
    sound.kept⟩
  have ordinary := (plain_iff_ordinary parsed).mp isPlain
  exact ⟨ordinary, project_dir_ordinary base ordinary⟩

def fine : Given := ⟨true, fun _ => none, fun _ => 0, []⟩

def groveUrl : Text := "https://h/o/r.git".toList

def home : Path := [['b']]

def groveDir : Path := [['b'], ['h'], ['o'], ['r']]

def groveSource : Path := groveDir ++ [sourceWorktreeName]

/-- Another project of the organisation, with its source. -/
def otherDir : Path := [['b'], ['h'], ['o'], ['s']]

def otherEntry : ProjectEntry :=
  ⟨7, "git@h:o/s".toList, otherDir ++ [sourceWorktreeName]⟩

def otherTree : Tree :=
  [⟨home, true, none⟩, ⟨[['b'], ['h']], true, none⟩, ⟨[['b'], ['h'], ['o']], true, none⟩,
    ⟨otherDir, true, none⟩, ⟨otherEntry.sourcePath, true, none⟩]

/-- A clone fails half way, and the other project is removed. -/
def failsAndRemoves : List Label :=
  [.start 0 (.startClone groveUrl), .advance 0 fine .notRun, .advance 0 fine .notRun,
    .advance 0 fine .notRun, .advance 0 fine (.ends true),
    .advance 0 fine (.writes groveSource true), .advance 0 fine (.ends false),
    .advance 0 fine .notRun, .start 1 (.removeProject 7), .advance 1 fine .notRun,
    .advance 1 fine .notRun, .advance 1 fine .notRun]

theorem projectsKept_failsAndRemoves :
    ∃ finish, Run (step home) Clean (initial [otherEntry] otherTree) finish ∧
      finish.removals.map Removal.dir = [otherDir, groveDir] ∧ Kept home finish := by
  obtain ⟨finish, replayed, isRemoved⟩ :
      ∃ finish, execute (step home) (initial [otherEntry] otherTree) failsAndRemoves =
        some finish ∧ finish.removals.map Removal.dir = [otherDir, groveDir] :=
    ⟨_, rfl, rfl⟩
  have permitted : Permitted (step home) Clean (initial [otherEntry] otherTree)
      failsAndRemoves := by
    -- The threads are named, so that their table is read without running the steps.
    refine ⟨trivial, ⟨_, _, update (fun _ => none) 0 (some _), _, _⟩, rfl, trivial,
      ⟨_, _, update (update (fun _ => none) 0 (some _)) 0 (some _), _, _⟩, rfl,
      ⟨by decide, by decide, ?_⟩, _, rfl, trivial, _, rfl, trivial, _, rfl, trivial, _, rfl,
      trivial, _, rfl, trivial, _, rfl, trivial, _, rfl, ?_, _, rfl, trivial, _, rfl, trivial, _,
      rfl, trivial⟩
    · intro other thread isOther found
      dsimp only at found
      rw [Function.update_of_ne isOther, Function.update_of_ne isOther] at found
      cases found
    · intro entry isEntry _
      rw [List.mem_singleton.mp isEntry]
      decide
  have run := run_of_permitted failsAndRemoves permitted replayed
  exact ⟨finish, run, isRemoved, (@projectsKept groveUrl _ rfl _ _ _ _ run).2⟩

/-- A second clone of the project is started before the first one has made its source. -/
def twoClones : List Label :=
  [.start 0 (.startClone groveUrl), .start 1 (.startClone groveUrl), .advance 0 fine .notRun,
    .advance 1 fine .notRun, .advance 0 fine .notRun, .advance 0 fine .notRun,
    .advance 1 fine .notRun, .advance 1 fine .notRun, .advance 0 fine (.ends true),
    .advance 0 fine (.writes groveSource true),
    .advance 0 fine (.writes (groveSource ++ [".git".toList]) true),
    .advance 0 fine (.ends true), .advance 0 fine .notRun, .advance 0 fine .notRun,
    .advance 1 fine (.ends false), .advance 1 fine .notRun]

/-- A URL that ends in a slash stands for the directory of its organisation, and the clone that
comes second removes what the first one has completed. -/
theorem not_projectsKept : ¬PartsOrdinary (fun _ => True) ∧ ¬ProjectsKept fun _ _ => True := by
  constructor
  · intro ordinary
    have isOrdinary := (ordinary home "https://h/o/".toList ⟨['h'], ['o'], []⟩ trivial rfl).1.repo
    exact isOrdinary.1 rfl
  · intro kept
    obtain ⟨finish, replayed, removal, isRemoval, isFailed, node, isNode, isForeign⟩ :
        ∃ finish, execute (step home) (initial [] []) twoClones = some finish ∧
          ∃ removal ∈ finish.removals, removal.cause = .failedClone ∧
            ∃ node ∈ removal.nodes, node.maker ≠ some removal.operation :=
      ⟨_, rfl, by decide⟩
    have isKept := kept home [] [] finish (reachable_of_execute twoClones replayed)
    exact isForeign ((isKept removal isRemoval).made isFailed node isNode)

end AiTools.Grove.Projects
