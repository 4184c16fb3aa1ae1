import AiTools.Grove.ProjectUrl

/-!
Contract: the projects of the config and their directories, one file operation at a time.

The worktrees are below the directory of their project. Beside the code's state are recorded which
operation made a file, and what every recursive removal took.
-/

namespace AiTools.Grove.Projects

/-- A project entry; the other fields play no part here. -/
structure ProjectEntry where
  id : Nat
  url : Text
  sourcePath : Path
deriving DecidableEq

/-- A file or a directory, and the operation that made it. -/
structure Node where
  path : Path
  directory : Bool
  maker : Option Nat

abbrev Tree := List Node

namespace Tree

def has (tree : Tree) (path : Path) : Bool := tree.any (·.path = path)

def isDir (tree : Tree) (path : Path) : Bool :=
  tree.any fun node => node.path = path && node.directory

/-- Something is there or below. -/
def occupied (tree : Tree) (path : Path) : Bool := tree.any (path.isPrefixOf ·.path)

/-- `create_dir_all`: the directories on the way that are not there. -/
def createDirAll (tree : Tree) (maker : Nat) (path : Path) : Tree :=
  tree ++ (path.inits.filter fun dir => !tree.has dir).map fun dir => ⟨dir, true, some maker⟩

/-- What `remove_dir_all` takes; it can fail half way. -/
def taken (tree : Tree) (path : Path) (spared : List Path) : List Node :=
  tree.filter fun node => path.isPrefixOf node.path && !spared.contains node.path

def removeDirAll (tree : Tree) (path : Path) (spared : List Path) : Tree :=
  tree.filter fun node => !(path.isPrefixOf node.path && !spared.contains node.path)

end Tree

/-- What the operation meets: whether a file operation goes well, what git says is the remote of
a repository, the ids that are drawn, and what a removal does not come to. -/
structure Given where
  ok : Bool
  remote : Path → Option Text
  id : Path → Nat
  spared : List Path

def findMatchingProject (entries : List ProjectEntry) (sourcePath : Path) (url : Text) :
    Option ProjectEntry :=
  entries.find? fun entry =>
    entry.sourcePath = sourcePath || normalizeProjectUrl entry.url = normalizeProjectUrl url

/-- The entries so far, and the paths that were seen. -/
structure Reconciled where
  entries : List ProjectEntry
  seenPaths : List Path

def Reconciled.hasUrl (reconciled : Reconciled) (url : Text) : Bool :=
  reconciled.entries.any (normalizeProjectUrl ·.url = normalizeProjectUrl url)

/-- An entry stays when its source is there and neither its path nor its URL was seen. -/
def keepEntry (tree : Tree) (reconciled : Reconciled) (entry : ProjectEntry) : Reconciled :=
  if !tree.isDir entry.sourcePath || reconciled.seenPaths.contains entry.sourcePath then
    reconciled
  else
    { entries := if reconciled.hasUrl entry.url then reconciled.entries
        else reconciled.entries ++ [entry]
      seenPaths := entry.sourcePath :: reconciled.seenPaths }

/-- A source that is not in the config is found again by its remote. -/
def findEntry (given : Given) (reconciled : Reconciled) (source : Path) : Reconciled :=
  if reconciled.seenPaths.contains source then reconciled
  else match (given.remote source).filter fun url => (parseGitUrl url).isOk with
    | none => reconciled
    | some url =>
      if reconciled.hasUrl url then reconciled
      else ⟨reconciled.entries ++ [⟨given.id source, url, source⟩], source :: reconciled.seenPaths⟩

def isSourceDir (base path : Path) : Bool :=
  base.isPrefixOf path && path.length = base.length + 4 &&
    path.getLast? = some sourceWorktreeName

/-- `scan_source_directories`. -/
def sourceDirs (base : Path) (tree : Tree) : List Path :=
  ((tree.filter fun node => node.directory && isSourceDir base node.path).map
    Node.path).insertionSort (· ≤ ·)

def reconcileProjectEntries (base : Path) (tree : Tree) (given : Given)
    (entries : List ProjectEntry) : List ProjectEntry :=
  ((sourceDirs base tree).foldl (findEntry given)
    (entries.foldl (keepEntry tree) ⟨[], []⟩)).entries

/-- The source of the entry is where its URL puts it. -/
def managedSourceDir (base : Path) (entry : ProjectEntry) : Option Path :=
  match parseGitUrl entry.url with
  | .error _ => none
  | .ok parts =>
    if entry.sourcePath = projectDir base parts ++ [sourceWorktreeName] then
      some entry.sourcePath
    else none

/-! ## Operations -/

/-- What an operation with a URL is about. -/
structure Project where
  url : Text
  dir : Path
  creates : Bool

def Project.source (project : Project) : Path := project.dir ++ [sourceWorktreeName]

def worktrees : Text := "worktrees".toList

/-- What the config is read for. -/
inductive Purpose where
  | check
  | recover
  | register (entry : ProjectEntry)

/-- The next file operation; `working` is git, which writes below the source directory until it
ends. -/
inductive Stage where
  | load (project : Project) (purpose : Purpose)
  | saveReconciled (project : Project) (purpose : Purpose) (entries : List ProjectEntry)
  | createDirs (project : Project)
  | createWorktrees (project : Project)
  | work (project : Project)
  | working (project : Project)
  | removeFailed (project : Project)
  | save (entries : List ProjectEntry)
  | find (id : Nat)
  | saveRemoved (entries : List ProjectEntry) (entry : ProjectEntry) (source : Path)
  | removeProject (entry : ProjectEntry) (source : Path)

inductive Call where
  | addProject (url : Text)
  | startClone (url : Text)
  | createProject (url : Text)
  | removeProject (id : Nat)

/-- The URL is parsed before anything else is done. -/
def Call.start (base : Path) : Call → Option Stage
  | .addProject url => prepared url false
  | .startClone url => prepared url false
  | .createProject url => prepared url true
  | .removeProject id => some (.find id)
where
  prepared (url : Text) (creates : Bool) : Option Stage :=
    match parseGitUrl url with
    | .error _ => none
    | .ok parts => some (.load ⟨url, projectDir base parts, creates⟩ .check)

/-- Operations are numbered as they start. -/
structure Thread where
  number : Nat
  stage : Stage

/-- Whether a removal came after a clone that failed. -/
inductive Cause where
  | failedClone
  | removedProject
deriving DecidableEq

structure Removal where
  cause : Cause
  operation : Nat
  url : Text
  dir : Path
  nodes : List Node

structure System where
  config : List ProjectEntry
  tree : Tree
  threads : Nat → Option Thread
  started : Nat
  removals : List Removal

/-- What git does next. -/
inductive Work where
  | writes (path : Path) (directory : Bool)
  | ends (succeeded : Bool)
  | notRun
deriving DecidableEq

inductive Label where
  | start (thread : Nat) (call : Call)
  | advance (thread : Nat) (given : Given) (work : Work)

namespace System

def goto (sys : System) (id : Nat) (thread : Thread) (stage : Stage) : System :=
  { sys with
    threads := Function.update sys.threads id (some { thread with stage := stage }) }

def finish (sys : System) (id : Nat) : System :=
  { sys with threads := Function.update sys.threads id none }

def onTree (sys : System) (tree : Tree) : System := { sys with tree }

def onConfig (sys : System) (config : List ProjectEntry) : System := { sys with config }

/-- `remove_dir_all`, whose result is dropped. -/
def remove (sys : System) (cause : Cause) (operation : Nat) (url : Text) (dir : Path)
    (spared : List Path) : System :=
  { sys with
    tree := sys.tree.removeDirAll dir spared
    removals := ⟨cause, operation, url, dir, sys.tree.taken dir spared⟩ :: sys.removals }

/-- The config is read and reconciled. -/
def loaded (sys : System) (id : Nat) (thread : Thread) (given : Given) (project : Project)
    (entries : List ProjectEntry) : Purpose → System
  | .check =>
    match findMatchingProject entries project.source project.url with
    | some _ => sys.finish id
    | none =>
      if sys.tree.isDir project.source then
        sys.goto id thread (.load project .recover)
      else sys.goto id thread (.createDirs project)
  -- A source that is no repository is an error.
  | .recover =>
    match findMatchingProject entries project.source project.url with
    | some _ => sys.finish id
    | none =>
      if given.ok then
        let url := ((given.remote project.source).filter fun url =>
          (parseGitUrl url).isOk).getD project.url
        sys.goto id thread
          (.load project (.register ⟨given.id project.source, url, project.source⟩))
      else sys.finish id
  | .register entry =>
    match findMatchingProject entries entry.sourcePath entry.url with
    | some _ => sys.finish id
    | none => sys.goto id thread (.save (entries ++ [entry]))

def advance (base : Path) (sys : System) (id : Nat) (thread : Thread) (given : Given)
    (work : Work) : Option System :=
  match thread.stage with
  -- A config that cannot be read is empty.
  | .load project purpose =>
    let entries := if given.ok then sys.config else []
    let reconciled := reconcileProjectEntries base sys.tree given entries
    if reconciled = entries then some (sys.loaded id thread given project reconciled purpose)
    else some (sys.goto id thread (.saveReconciled project purpose reconciled))
  | .saveReconciled project purpose entries =>
    if given.ok then
      some ((sys.onConfig entries).loaded id thread given project entries purpose)
    else some (sys.finish id)
  | .createDirs project =>
    let dir := if project.creates then project.source else project.dir
    if given.ok then
      some ((sys.onTree (sys.tree.createDirAll thread.number dir)).goto id thread
        (.createWorktrees project))
    else some (sys.finish id)
  | .createWorktrees project =>
    if given.ok then
      some ((sys.onTree (sys.tree.createDirAll thread.number
        (project.dir ++ [worktrees]))).goto id thread (.work project))
    else some (sys.finish id)
  -- `git clone` into a directory that is not empty fails.
  | .work project =>
    if work = .notRun then some (sys.finish id)
    else if project.creates then some (sys.goto id thread (.working project))
    else if sys.tree.any fun node =>
        project.source.isPrefixOf node.path &&
          !(node.path = project.source && node.directory) then
      some (sys.goto id thread (.removeFailed project))
    else some (sys.goto id thread (.working project))
  | .working project =>
    match work with
    | .writes path directory =>
      if project.source.isPrefixOf path && !sys.tree.has path then
        some (sys.onTree (sys.tree ++ [⟨path, directory, some thread.number⟩]))
      else none
    | .ends true =>
      some (sys.goto id thread
        (.load project (.register ⟨given.id project.source, project.url, project.source⟩)))
    | .ends false =>
      if project.creates then some (sys.finish id)
      else some (sys.goto id thread (.removeFailed project))
    | .notRun => some (sys.finish id)
  | .removeFailed project =>
    some ((sys.remove .failedClone thread.number project.url project.dir
      given.spared).finish id)
  | .save entries =>
    if given.ok then some ((sys.onConfig entries).finish id) else some (sys.finish id)
  | .find projectId =>
    let entries := if given.ok then sys.config else []
    match entries.find? (·.id = projectId) with
    | none => some (sys.finish id)
    | some entry =>
      match managedSourceDir base entry with
      | none => some (sys.finish id)
      | some source =>
        some (sys.goto id thread
          (.saveRemoved (entries.eraseP (·.id = projectId)) entry source))
  | .saveRemoved entries entry source =>
    if given.ok then
      some ((sys.onConfig entries).goto id thread (.removeProject entry source))
    else some (sys.finish id)
  | .removeProject entry source =>
    some ((sys.remove .removedProject thread.number entry.url source.dropLast
      given.spared).finish id)

end System

/-- A URL that is not accepted starts nothing. -/
def step (base : Path) (sys : System) : Label → Option System
  | .start id call =>
    match sys.threads id, call.start base with
    | none, some stage => some { sys with
        threads := Function.update sys.threads id (some ⟨sys.started, stage⟩)
        started := sys.started + 1 }
    | _, _ => none
  | .advance id given work =>
    match sys.threads id with
    | none => none
    | some thread => sys.advance base id thread given work

/-- Any projects there may be, with no operation under way. -/
def initial (config : List ProjectEntry) (tree : Tree) : System :=
  ⟨config, tree.map fun node => { node with maker := none }, fun _ => none, 0, []⟩

/-- A removal takes the directory of one project, three levels below the base, and after a clone
that failed nothing but what this clone has made. -/
structure Removal.Kept (base : Path) (removal : Removal) : Prop where
  own : ∃ parts, parseGitUrl removal.url = .ok parts ∧ parts.Ordinary ∧
    removal.dir = base ++ [parts.host, parts.org, parts.repo]
  below : ∀ node ∈ removal.nodes, removal.dir <+: node.path
  made : removal.cause = .failedClone → ∀ node ∈ removal.nodes, node.maker = some removal.operation

def Kept (base : Path) (sys : System) : Prop :=
  ∀ removal ∈ sys.removals, removal.Kept base

end AiTools.Grove.Projects
