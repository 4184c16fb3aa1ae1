import AiTools.Lib.Keyed
import AiTools.Lib.Space

/-!
Contract: the record of `config.json`, and what each operation makes of the record it has loaded.
-/

namespace AiTools.Grove.Config

open AiTools.Lib.Keyed AiTools.Lib.Space

/-! ## Preferences -/

def trimmed (text : String) : String := String.ofList (trim text.toList)

structure IdeMenuItem where
  id : String
  displayName : Option String
  openCommand : Option String
deriving DecidableEq

inductive ProjectCategoryIcon where
  | emoji (value : String)
  | lucide (value : String)
deriving DecidableEq

structure ProjectCategory where
  id : String
  name : String
  color : String
  icon : ProjectCategoryIcon
deriving DecidableEq

inductive TerminalLinkOpenMode where
  | external
  | internal
  | externalWithLocalhostInternal
deriving DecidableEq

inductive ProjectViewMode where
  | default
  | groupByOrgs
deriving DecidableEq

structure GrovePreferences where
  terminalLinkOpenMode : TerminalLinkOpenMode
  projectViewMode : ProjectViewMode
  collapsedProjectOrgs : List String
  projectOrgOrder : List String
  gitGuiMenuItems : List IdeMenuItem
  ideMenuItems : List IdeMenuItem
  projectCategories : List ProjectCategory
  daemonScrollbackBytes : Nat
  legacyPreferredIde : Option IdeMenuItem
deriving DecidableEq

def defaultProjectCategoryId : String := "default"

def isSupportedIdeMenuItemId (id : String) : Bool :=
  id ∈ ["webstorm", "vscode", "xcode", "android-studio", "intellij", "cursor", "sublime"]

def isSupportedGitGuiMenuItemId (id : String) : Bool := id ∈ ["sourcetree", "fork"]

def normalizeMenuItems (isSupportedId : String → Bool) (items : List IdeMenuItem) :
    List IdeMenuItem :=
  items.foldl (fun normalized item =>
    let id := trimmed item.id
    if id = "" ∨ isSupportedId id = false ∨ normalized.any (·.id = id) then normalized
    else normalized ++ [{ item with id }]) []

def isSupportedProjectCategoryIconId (id : String) : Bool :=
  id ∈ ["sprout", "folder", "rocket", "flame", "bug", "wrench", "book", "palette", "database",
    "bot", "terminal", "briefcase", "star", "package", "code", "gem"]

def trimAndLimitChars (value : String) (maxChars : Nat) : String :=
  String.ofList ((trim value.toList).take maxChars)

def normalizeProjectCategoryIcon : ProjectCategoryIcon → Option ProjectCategoryIcon
  | .emoji value =>
    let value := trimAndLimitChars value 4
    if value = "" then none else some (.emoji value)
  | .lucide value =>
    let value := trimmed value
    if value = "" ∨ isSupportedProjectCategoryIconId value = false then none
    else some (.lucide value)

def isAsciiHexdigit (c : Char) : Bool :=
  c.isDigit || ('a' ≤ c && c ≤ 'f') || ('A' ≤ c && c ≤ 'F')

def normalizeProjectCategoryColor (color : String) : Option String :=
  match trim color.toList with
  | '#' :: digits =>
    if digits.length = 6 ∧ digits.all isAsciiHexdigit then
      some (String.ofList ('#' :: digits.map Char.toLower))
    else none
  | _ => none

/-- One step of `normalize_project_categories`. -/
def addCategory (normalized : List ProjectCategory) (category : ProjectCategory) :
    List ProjectCategory :=
  let id := trimmed category.id
  let name := trimAndLimitChars category.name 10
  if id = "" ∨ id = defaultProjectCategoryId ∨ normalized.any (·.id = id) ∨ name = "" then
    normalized
  else
    match normalizeProjectCategoryColor category.color,
        normalizeProjectCategoryIcon category.icon with
    | some color, some icon => normalized ++ [⟨id, name, color, icon⟩]
    | _, _ => normalized

def normalizeProjectCategories (categories : List ProjectCategory) : List ProjectCategory :=
  categories.foldl addCategory []

namespace GrovePreferences

def normalized (preferences : GrovePreferences) : GrovePreferences :=
  let ideMenuItems :=
    if preferences.ideMenuItems = [] then preferences.legacyPreferredIde.toList
    else preferences.ideMenuItems
  { preferences with
    projectOrgOrder := preferences.projectOrgOrder.filter (trimmed · ≠ "")
    gitGuiMenuItems := normalizeMenuItems isSupportedGitGuiMenuItemId preferences.gitGuiMenuItems
    ideMenuItems := normalizeMenuItems isSupportedIdeMenuItemId ideMenuItems
    projectCategories := normalizeProjectCategories preferences.projectCategories
    legacyPreferredIde := none }

def default : GrovePreferences where
  terminalLinkOpenMode := .externalWithLocalhostInternal
  projectViewMode := .default
  collapsedProjectOrgs := []
  projectOrgOrder := []
  gitGuiMenuItems := [⟨"sourcetree", none, none⟩]
  ideMenuItems := [⟨"webstorm", none, none⟩]
  projectCategories := []
  daemonScrollbackBytes := 2 * 1024 * 1024
  legacyPreferredIde := none

/-- `skip_serializing`. -/
def withoutLegacy (preferences : GrovePreferences) : GrovePreferences :=
  { preferences with legacyPreferredIde := none }

/-- `PartialEq` leaves the legacy field out. -/
def same (left right : GrovePreferences) : Bool := left.withoutLegacy = right.withoutLegacy

end GrovePreferences

structure StackedParent where
  child : String
  parent : String
deriving DecidableEq

structure ProjectEntry where
  id : String
  name : String
  url : String
  org : String
  repo : String
  sourcePath : String
  worktreeOrder : List String
  stackedParents : Table StackedParent.child
  baseBranch : Option String
  collapsed : Bool
  focused : Bool
  categoryId : Option String
  envSync : Option (List String)

def normalizeSourcePath (path : String) : String :=
  String.ofList (path.toList.rdropWhile (· = '/'))

/-- On the reversed text. -/
def trimGitSuffixes : List Char → List Char
  | 't' :: 'i' :: 'g' :: '.' :: rest => trimGitSuffixes rest
  | text => text

def normalizeProjectUrl (url : String) : String :=
  String.ofList (trimGitSuffixes (url.toList.rdropWhile (· = '/')).reverse).reverse

def sameProjectEntry (left right : ProjectEntry) : Bool :=
  left.id = right.id && left.name = right.name && left.url = right.url && left.org = right.org &&
    left.repo = right.repo && left.sourcePath = right.sourcePath

def sameProjectEntries (left right : List ProjectEntry) : Bool :=
  left.length = right.length &&
    (left.zip right).all fun entries => sameProjectEntry entries.1 entries.2

def findMatchingProject (entries : List ProjectEntry) (sourcePath url : String) :
    Option ProjectEntry :=
  entries.find? fun entry =>
    normalizeSourcePath entry.sourcePath = normalizeSourcePath sourcePath ||
      normalizeProjectUrl entry.url = normalizeProjectUrl url

/-- `iter_mut().find`, and the change of what it finds. -/
def updateEntry (projectId : String) (change : ProjectEntry → ProjectEntry) :
    List ProjectEntry → List ProjectEntry
  | [] => []
  | entry :: rest =>
    if entry.id = projectId then change entry :: rest
    else entry :: updateEntry projectId change rest

structure GroveConfig (Theme : Type) where
  projects : List ProjectEntry
  baseDir : Option String
  terminalTheme : Option Theme
  preferences : Option GrovePreferences

structure AppConfig (Theme : Type) where
  baseDir : String
  terminalTheme : Option Theme
  preferences : GrovePreferences

variable {Theme : Type}

def GroveConfig.default : GroveConfig Theme := ⟨[], none, none, none⟩

/-- What a save leaves in the file. -/
def GroveConfig.written (config : GroveConfig Theme) : GroveConfig Theme :=
  { config with preferences := config.preferences.map GrovePreferences.withoutLegacy }

/-- `load_app_config().base_dir`. -/
def GroveConfig.baseDirOr (config : GroveConfig Theme) (defaultBaseDir : String) : String :=
  (config.baseDir.filter (trimmed · ≠ "")).getD defaultBaseDir

/-- What is a directory, and the repositories below the base directory in the order of their
paths, with what `project_entry_from_source` makes of them. -/
structure Looked where
  dirs : List String
  found : List (String × Option ProjectEntry)

structure Seen where
  paths : List String
  urls : List String

def keepEntries (looked : Looked) : Seen → List ProjectEntry → List ProjectEntry × Seen
  | seen, [] => ([], seen)
  | seen, entry :: rest =>
    let path := normalizeSourcePath entry.sourcePath
    let url := normalizeProjectUrl entry.url
    if entry.sourcePath ∉ looked.dirs ∨ path ∈ seen.paths then keepEntries looked seen rest
    -- The path counts as seen although the entry goes.
    else if url ∈ seen.urls then
      keepEntries looked { seen with paths := path :: seen.paths } rest
    else
      let kept := keepEntries looked ⟨path :: seen.paths, url :: seen.urls⟩ rest
      (entry :: kept.1, kept.2)

def addFound : Seen → List (String × Option ProjectEntry) → List ProjectEntry
  | _, [] => []
  | seen, (_, none) :: rest => addFound seen rest
  | seen, (sourcePath, some entry) :: rest =>
    let path := normalizeSourcePath sourcePath
    let url := normalizeProjectUrl entry.url
    if path ∈ seen.paths ∨ url ∈ seen.urls then addFound seen rest
    else entry :: addFound ⟨path :: seen.paths, url :: seen.urls⟩ rest

def reconcileProjectEntries (looked : Looked) (entries : List ProjectEntry) : List ProjectEntry :=
  let kept := keepEntries looked ⟨[], []⟩ entries
  kept.1 ++ addFound kept.2 looked.found

def availableProjectCategoryIds (config : GroveConfig Theme) : List String :=
  (config.preferences.getD .default).normalized.projectCategories.map ProjectCategory.id

def normalizeProjectCategoryId (categoryId : Option String) (availableIds : List String) :
    Option String :=
  match categoryId.map trimmed with
  | none => none
  | some categoryId =>
    if categoryId = "" ∨ categoryId = defaultProjectCategoryId then none
    else if categoryId ∈ availableIds then some categoryId
    else none

def reconcileProjectCategories (config : GroveConfig Theme) : GroveConfig Theme × Bool :=
  let normalizedPreferences := (config.preferences.getD .default).normalized
  let availableIds := normalizedPreferences.projectCategories.map ProjectCategory.id
  let preferencesChanged :=
    config.preferences.any fun preferences => !preferences.same normalizedPreferences
  let categoryOf (entry : ProjectEntry) := normalizeProjectCategoryId entry.categoryId availableIds
  ({ config with
      preferences := if preferencesChanged then some normalizedPreferences else config.preferences
      projects := config.projects.map fun entry => { entry with categoryId := categoryOf entry } },
    preferencesChanged || config.projects.any fun entry => entry.categoryId ≠ categoryOf entry)

/-- The config that `load_reconciled_config` returns, and whether it saves it. The categories
that it has normalized go with the entries that it replaces. -/
def reconcileConfig (looked : Looked) (config : GroveConfig Theme) : GroveConfig Theme × Bool :=
  let reconciledProjects := reconcileProjectEntries looked config.projects
  let categorized := reconcileProjectCategories config
  ({ categorized.1 with projects := reconciledProjects },
    !sameProjectEntries categorized.1.projects reconciledProjects || categorized.2)

/-- One load and what follows of it. `setBaseBranch`, `clearStackedParent`, `dropWorktree` and the
stacked parents are those parts of their commands that come after a `load_reconciled` of their
own, which is an operation by itself. -/
inductive Operation (Theme : Type) where
  | saveAppConfig (app : AppConfig Theme)
  | saveGrovePreferences (preferences : GrovePreferences)
  | loadReconciled
  | register (entry : ProjectEntry)
  | removeProject (projectId : String)
  | reorderProjects (projectIds : List String)
  | setWorktreeOrder (projectId : String) (order : List String)
  | setProjectCollapsed (projectId : String) (collapsed : Bool)
  | setProjectFocus (projectId : String) (focused : Bool)
  | renameProject (projectId name : String)
  | setProjectCategory (projectId categoryId : String)
  | deleteProjectCategory (categoryId : String)
  | setBaseBranch (projectId : String) (branch : Option String)
  | setEnvSync (projectId : String) (includePatterns : List String)
  | saveStackedParent (projectId childName parentName : String)
  | rollbackStackedParent (projectId childName parentName : String)
  | clearStackedParent (projectId name : String)
  | dropWorktree (projectId worktreeName : String)

/-- What is refused before anything is loaded. -/
def Operation.check : Operation Theme → Except String (Operation Theme)
  | .renameProject projectId name =>
    if trimmed name = "" then .error "Project name cannot be empty"
    else .ok (.renameProject projectId (trimmed name))
  | .deleteProjectCategory categoryId =>
    if trimmed categoryId = "" ∨ trimmed categoryId = defaultProjectCategoryId then
      .error "Default project category cannot be deleted"
    else .ok (.deleteProjectCategory (trimmed categoryId))
  | operation => .ok operation

/-- The operations that load with `load_reconciled_config`. -/
def Operation.reconciles : Operation Theme → Bool
  | .loadReconciled => true
  | .register _ => true
  | .reorderProjects _ => true
  | .setProjectCategory _ _ => true
  | .deleteProjectCategory _ => true
  | _ => false

/-- An error, a config to be saved, or nothing to save. -/
abbrev Outcome (Theme : Type) := Except String (Option (GroveConfig Theme))

namespace GroveConfig

variable (config : GroveConfig Theme)

def edit (projectId : String) (change : ProjectEntry → ProjectEntry) : Outcome Theme :=
  if config.projects.any (·.id = projectId) then
    .ok (some { config with projects := updateEntry projectId change config.projects })
  else .error ("Project not found: " ++ projectId)

def saveAppConfig (app : AppConfig Theme) : Outcome Theme :=
  .ok (some { config with
    baseDir := some app.baseDir
    terminalTheme := app.terminalTheme
    preferences := some app.preferences.normalized })

def saveGrovePreferences (preferences : GrovePreferences) : Outcome Theme :=
  .ok (some { config with preferences := some preferences.normalized })

def registerProjectEntry (entry : ProjectEntry) : Outcome Theme :=
  match findMatchingProject config.projects entry.sourcePath entry.url with
  | some _ => .ok none
  | none => .ok (some { config with projects := config.projects ++ [entry] })

def removeProject (projectId : String) (managedSourceDir : ProjectEntry → Except String Unit) :
    Outcome Theme :=
  match config.projects.find? (·.id = projectId) with
  | none => .error ("Project not found: " ++ projectId)
  | some entry =>
    (managedSourceDir entry).map fun _ =>
      some { config with projects := config.projects.eraseP (·.id = projectId) }

def reorderProjects (projectIds : List String) : Outcome Theme :=
  .ok (some { config with
    projects := (projectIds.filterMap fun id => config.projects.find? (·.id = id)) ++
      config.projects.filter (·.id ∉ projectIds) })

def setWorktreeOrder (projectId : String) (order : List String) : Outcome Theme :=
  config.edit projectId fun entry => { entry with worktreeOrder := order }

def setProjectCollapsed (projectId : String) (collapsed : Bool) : Outcome Theme :=
  config.edit projectId fun entry => { entry with collapsed }

def setProjectFocus (projectId : String) (focused : Bool) : Outcome Theme :=
  config.edit projectId fun entry => { entry with focused }

def renameProject (projectId name : String) : Outcome Theme :=
  config.edit projectId fun entry => { entry with name }

def setProjectCategory (projectId categoryId : String) : Outcome Theme :=
  let normalized :=
    normalizeProjectCategoryId (some categoryId) (availableProjectCategoryIds config)
  if trimmed categoryId ≠ defaultProjectCategoryId ∧ normalized = none then
    .error ("Project category not found: " ++ trimmed categoryId)
  else config.edit projectId fun entry => { entry with categoryId := normalized }

def deleteProjectCategory (categoryId : String) : Outcome Theme :=
  let preferences := (config.preferences.getD .default).normalized
  let projectCategories := preferences.projectCategories.filter (·.id ≠ categoryId)
  if projectCategories.length = preferences.projectCategories.length then
    .error ("Project category not found: " ++ categoryId)
  else .ok (some { config with
    projects := config.projects.map fun entry =>
      if entry.categoryId = some categoryId then { entry with categoryId := none } else entry
    preferences := some { preferences with projectCategories } })

def setBaseBranch (projectId : String) (branch : Option String) : Outcome Theme :=
  config.edit projectId fun entry => { entry with baseBranch := branch }

def setEnvSync (projectId : String) (includePatterns : List String) : Outcome Theme :=
  config.edit projectId fun entry =>
    { entry with envSync := if includePatterns = [] then none else some includePatterns }

def saveStackedParent (projectId childName parentName : String) : Outcome Theme :=
  config.edit projectId fun entry =>
    { entry with stackedParents := entry.stackedParents.put ⟨childName, parentName⟩ }

def clearStackedParent (projectId name : String) : Outcome Theme :=
  config.edit projectId fun entry =>
    { entry with stackedParents := entry.stackedParents.remove name }

def rollbackStackedParent (projectId childName parentName : String) : Outcome Theme :=
  match config.projects.find? (·.id = projectId) with
  | none => .ok none
  | some entry =>
    if entry.stackedParents.find? childName = some ⟨childName, parentName⟩ then
      config.clearStackedParent projectId childName
    else .ok none

def dropWorktree (projectId worktreeName : String) : Outcome Theme :=
  config.edit projectId fun entry =>
    { entry with
      worktreeOrder := entry.worktreeOrder.filter (· ≠ worktreeName)
      stackedParents := entry.stackedParents.remove worktreeName }

end GroveConfig

/-- The modification of the config that was loaded. -/
def Operation.change (managedSourceDir : ProjectEntry → Except String Unit)
    (config : GroveConfig Theme) : Operation Theme → Outcome Theme
  | .saveAppConfig app => config.saveAppConfig app
  | .saveGrovePreferences preferences => config.saveGrovePreferences preferences
  | .loadReconciled => .ok none
  | .register entry => config.registerProjectEntry entry
  | .removeProject projectId => config.removeProject projectId managedSourceDir
  | .reorderProjects projectIds => config.reorderProjects projectIds
  | .setWorktreeOrder projectId order => config.setWorktreeOrder projectId order
  | .setProjectCollapsed projectId collapsed => config.setProjectCollapsed projectId collapsed
  | .setProjectFocus projectId focused => config.setProjectFocus projectId focused
  | .renameProject projectId name => config.renameProject projectId name
  | .setProjectCategory projectId categoryId => config.setProjectCategory projectId categoryId
  | .deleteProjectCategory categoryId => config.deleteProjectCategory categoryId
  | .setBaseBranch projectId branch => config.setBaseBranch projectId branch
  | .setEnvSync projectId includePatterns => config.setEnvSync projectId includePatterns
  | .saveStackedParent projectId child parent => config.saveStackedParent projectId child parent
  | .rollbackStackedParent projectId child parent =>
    config.rollbackStackedParent projectId child parent
  | .clearStackedParent projectId name => config.clearStackedParent projectId name
  | .dropWorktree projectId worktreeName => config.dropWorktree projectId worktreeName

end AiTools.Grove.Config
