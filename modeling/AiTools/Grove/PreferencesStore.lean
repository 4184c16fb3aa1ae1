import AiTools.Grove.Config
import AiTools.Lib.Transition
import Mathlib

/-!
Contract: the preferences of the store and those of the config, with the requests between them.

The config file is always written.
-/

namespace AiTools.Grove.PreferencesStore

open AiTools.Grove.Config AiTools.Lib.Transition

variable {Theme : Type}

/-! ## The store -/

/-- What the store has, and what `toSaveable` makes of it. -/
structure Saveable where
  terminalLinkOpenMode : TerminalLinkOpenMode
  projectViewMode : ProjectViewMode
  collapsedProjectOrgs : List String
  projectOrgOrder : List String
  ideMenuItems : List IdeMenuItem
  gitGuiMenuItems : List IdeMenuItem
  projectCategories : List ProjectCategory

def Saveable.default : Saveable :=
  ⟨.externalWithLocalhostInternal, .default, [], [], [], [], []⟩

/-- A snapshot as the backend reads it, with the defaults of what is not in it. -/
def Saveable.received (saveable : Saveable) : GrovePreferences where
  terminalLinkOpenMode := saveable.terminalLinkOpenMode
  projectViewMode := saveable.projectViewMode
  collapsedProjectOrgs := saveable.collapsedProjectOrgs
  projectOrgOrder := saveable.projectOrgOrder
  gitGuiMenuItems := saveable.gitGuiMenuItems
  ideMenuItems := saveable.ideMenuItems
  projectCategories := saveable.projectCategories
  daemonScrollbackBytes := GrovePreferences.default.daemonScrollbackBytes
  legacyPreferredIde := none

/-- `normalizePreferences`: an empty list is left out of the answer, and put back. -/
def saveableOf (preferences : GrovePreferences) : Saveable where
  terminalLinkOpenMode := preferences.terminalLinkOpenMode
  projectViewMode := preferences.projectViewMode
  collapsedProjectOrgs := preferences.collapsedProjectOrgs
  projectOrgOrder := preferences.projectOrgOrder
  ideMenuItems := preferences.ideMenuItems
  gitGuiMenuItems := preferences.gitGuiMenuItems
  projectCategories := preferences.projectCategories

inductive Preference where
  | terminalLinkOpenMode
  | projectViewMode
  | collapsedProjectOrgs
  | projectOrgOrder
  | ideMenuItems
  | gitGuiMenuItems
  | projectCategories
  | daemonScrollbackBytes
deriving DecidableEq

/-- The setters that change the store, and then save it. -/
inductive Setter where
  | setTerminalLinkOpenMode (mode : TerminalLinkOpenMode)
  | setProjectViewMode (mode : ProjectViewMode)
  | setProjectOrgCollapsed (org : String) (collapsed : Bool)
  | setProjectOrgOrder (orgOrder : List String)
  | setIdeMenuItems (items : List IdeMenuItem)
  | setGitGuiMenuItems (items : List IdeMenuItem)

def Setter.own : Setter → Preference
  | .setTerminalLinkOpenMode _ => .terminalLinkOpenMode
  | .setProjectViewMode _ => .projectViewMode
  | .setProjectOrgCollapsed _ _ => .collapsedProjectOrgs
  | .setProjectOrgOrder _ => .projectOrgOrder
  | .setIdeMenuItems _ => .ideMenuItems
  | .setGitGuiMenuItems _ => .gitGuiMenuItems

def Setter.set (state : Saveable) : Setter → Saveable
  | .setTerminalLinkOpenMode mode => { state with terminalLinkOpenMode := mode }
  | .setProjectViewMode mode => { state with projectViewMode := mode }
  | .setProjectOrgCollapsed org collapsed =>
    { state with
      collapsedProjectOrgs :=
        if collapsed then (state.collapsedProjectOrgs ++ [org]).eraseDups
        else state.collapsedProjectOrgs.filter (· ≠ org) }
  | .setProjectOrgOrder orgOrder => { state with projectOrgOrder := orgOrder.eraseDups }
  | .setIdeMenuItems items => { state with ideMenuItems := items }
  | .setGitGuiMenuItems items => { state with gitGuiMenuItems := items }

inductive Request where
  | get
  | save (own : Preference) (saveable : Saveable)
  /-- The save of `setProjectCategories`, which goes on with the reply. -/
  | saveCategories (saveable : Saveable)
  | deleteCategory (categoryId : String)

/-- A reply on which the store goes on. -/
inductive Reply where
  | preferences (preferences : GrovePreferences)
  | categoriesSaved (projectCategories : List ProjectCategory)
  | categoryDeleted (categoryId : String)

/-- The persisted preferences before and after a request of an operation. -/
structure Change where
  own : Option Preference
  before : GrovePreferences
  after : GrovePreferences

/-- The requests are in the order in which they were sent. `changes` is history. -/
structure System (Theme : Type) where
  state : Saveable
  loaded : Bool
  config : GroveConfig Theme
  requests : List Request
  replies : List Reply
  changes : List Change

def opened (config : GroveConfig Theme) : System Theme :=
  ⟨.default, false, config, [], [], []⟩

/-- `load_grove_preferences` -/
def persisted (config : GroveConfig Theme) : GrovePreferences :=
  (config.preferences.getD .default).normalized

/-- What an operation has saved, and `none` when it has failed. -/
def savedOf : Outcome Theme → Option (GroveConfig Theme)
  | .ok (some config) => some config.written
  | _ => none

def saveGrovePreferences (config : GroveConfig Theme) (saveable : Saveable) : GroveConfig Theme :=
  (savedOf (config.saveGrovePreferences saveable.received)).getD config

/-- Whether the category has been deleted. A reconciliation is saved in any case. -/
def deleteProjectCategory (looked : Looked) (config : GroveConfig Theme) (categoryId : String) :
    GroveConfig Theme × Bool :=
  let categoryId := trimmed categoryId
  if categoryId = "" ∨ categoryId = defaultProjectCategoryId then (config, false)
  else
    let reconciled := reconcileConfig looked config
    match savedOf (reconciled.1.deleteProjectCategory categoryId) with
    | some saved => (saved, true)
    | none => (if reconciled.2 then reconciled.1.written else config, false)

def Request.own : Request → Option Preference
  | .get => none
  | .save own _ => some own
  | .saveCategories _ => some .projectCategories
  | .deleteCategory _ => some .projectCategories

/-- The config behind a request, and the reply on which the store goes on. -/
def Request.process (looked : Looked) (config : GroveConfig Theme) :
    Request → GroveConfig Theme × List Reply
  | .get => (config, [.preferences (persisted config)])
  | .save _ saveable => (saveGrovePreferences config saveable, [])
  | .saveCategories saveable =>
    (saveGrovePreferences config saveable, [.categoriesSaved saveable.projectCategories])
  | .deleteCategory categoryId =>
    let deleted := deleteProjectCategory looked config categoryId
    (deleted.1, if deleted.2 then [.categoryDeleted categoryId] else [])

namespace System

variable (sys : System Theme)

def send (request : Request) : System Theme :=
  { sys with requests := sys.requests ++ [request] }

def init : System Theme := sys.send .get

def set (setter : Setter) : System Theme :=
  let state := setter.set sys.state
  { sys with state }.send (.save setter.own state)

def setProjectCategories (projectCategories : List ProjectCategory) : System Theme :=
  sys.send (.saveCategories { sys.state with projectCategories })

def deleteProjectCategory (categoryId : String) : System Theme :=
  sys.send (.deleteCategory categoryId)

def receive : Reply → System Theme
  | .preferences preferences => { sys with state := saveableOf preferences, loaded := true }
  | .categoriesSaved projectCategories =>
    { sys with state := { sys.state with projectCategories } }
  | .categoryDeleted categoryId =>
    { sys with
      state := { sys.state with
        projectCategories := sys.state.projectCategories.filter (·.id ≠ categoryId) } }

def process (looked : Looked) (request : Request) (later : List Request) : System Theme :=
  let processed := request.process looked sys.config
  { sys with
    config := processed.1
    requests := later
    replies := sys.replies ++ processed.2
    changes := ⟨request.own, persisted sys.config, persisted processed.1⟩ :: sys.changes }

end System

inductive Label where
  | init
  | set (setter : Setter)
  | setProjectCategories (projectCategories : List ProjectCategory)
  | deleteProjectCategory (categoryId : String)
  | process (looked : Looked)
  | reply (index : Nat)

def step (sys : System Theme) : Label → Option (System Theme)
  | .init => some sys.init
  | .set setter => some (sys.set setter)
  | .setProjectCategories projectCategories => some (sys.setProjectCategories projectCategories)
  | .deleteProjectCategory categoryId => some (sys.deleteProjectCategory categoryId)
  | .process looked =>
    match sys.requests with
    | [] => none
    | request :: later => some (sys.process looked request later)
  | .reply index =>
    sys.replies[index]?.map fun reply =>
      { sys with replies := sys.replies.eraseIdx index }.receive reply

def Preference.Same (first second : GrovePreferences) : Preference → Prop
  | .terminalLinkOpenMode => first.terminalLinkOpenMode = second.terminalLinkOpenMode
  | .projectViewMode => first.projectViewMode = second.projectViewMode
  | .collapsedProjectOrgs => first.collapsedProjectOrgs = second.collapsedProjectOrgs
  | .projectOrgOrder => first.projectOrgOrder = second.projectOrgOrder
  | .ideMenuItems => first.ideMenuItems = second.ideMenuItems
  | .gitGuiMenuItems => first.gitGuiMenuItems = second.gitGuiMenuItems
  | .projectCategories => first.projectCategories = second.projectCategories
  | .daemonScrollbackBytes => first.daemonScrollbackBytes = second.daemonScrollbackBytes

structure PreferencesKept (sys : System Theme) : Prop where
  own : ∀ change ∈ sys.changes, ∀ preference, change.own ≠ some preference →
    preference.Same change.before change.after
  agree : sys.loaded = true → sys.requests = [] → sys.replies = [] →
    saveableOf (persisted sys.config) = sys.state

/-- Nothing that a save leaves out or changes. -/
structure Normal (preferences : GrovePreferences) : Prop where
  normalized : preferences.normalized = preferences
  scrollback : preferences.daemonScrollbackBytes = GrovePreferences.default.daemonScrollbackBytes

def Request.isSave : Request → Bool
  | .save _ _ => true
  | _ => false

/-- No init, and no operation on the categories, is under way. -/
def Quiet (sys : System Theme) : Prop :=
  sys.replies = [] ∧ ∀ request ∈ sys.requests, request.isSave = true

/-- Operations are called behind the first init and while no init and no operation on the categories
is under way, with values that a save does not change. -/
def Clean (sys : System Theme) : Label → Prop
  | .init => Quiet sys
  | .set setter => Quiet sys ∧ sys.loaded = true ∧ Normal (setter.set sys.state).received
  | .setProjectCategories projectCategories => Quiet sys ∧ sys.loaded = true ∧
      Normal { sys.state with projectCategories }.received
  | .deleteProjectCategory categoryId => Quiet sys ∧ sys.loaded = true ∧
      trimmed categoryId = categoryId
  | _ => True

section
variable {preferences : GrovePreferences} {saveable : Saveable} {config : GroveConfig Theme}

theorem Normal.noLegacy (normal : Normal preferences) : preferences.legacyPreferredIde = none := by
  rw [← normal.normalized]
  rfl

theorem Normal.withoutLegacy (normal : Normal preferences) :
    preferences.withoutLegacy = preferences := by
  have noLegacy := normal.noLegacy
  cases preferences
  cases noLegacy
  rfl

theorem saveableOf_received (saveable : Saveable) : saveableOf saveable.received = saveable := rfl

theorem Normal.received (normal : Normal preferences) :
    (saveableOf preferences).received = preferences := by
  have noLegacy := normal.noLegacy
  have scrollback := normal.scrollback
  cases preferences
  cases noLegacy
  cases scrollback
  rfl

theorem persisted_save (normal : Normal saveable.received) :
    persisted (saveGrovePreferences config saveable) = saveable.received := by
  show ((some saveable.received.normalized.withoutLegacy).getD .default).normalized = _
  rw [normal.normalized, normal.withoutLegacy]
  exact normal.normalized

theorem persisted_reconcile (normal : Normal (persisted config)) (looked : Looked) :
    persisted (reconcileConfig looked config).1 = persisted config := by
  show (Option.getD (if _ then some (config.preferences.getD .default).normalized
    else config.preferences) .default).normalized = _
  split_ifs
  · exact normal.normalized
  · rfl

theorem Normal.withCategories (normal : Normal preferences)
    (projectCategories : List ProjectCategory)
    (isNormal : normalizeProjectCategories projectCategories = projectCategories) :
    Normal { preferences with projectCategories } := by
  have normalized := normal.normalized
  refine ⟨?_, normal.scrollback⟩
  unfold GrovePreferences.normalized at normalized ⊢
  dsimp only at normalized ⊢
  rw [isNormal]
  have sameOrder := congrArg GrovePreferences.projectOrgOrder normalized
  have sameGitGui := congrArg GrovePreferences.gitGuiMenuItems normalized
  have sameIde := congrArg GrovePreferences.ideMenuItems normalized
  have noLegacy := normal.noLegacy
  dsimp only at sameOrder sameGitGui sameIde
  rw [sameOrder, sameGitGui, sameIde, noLegacy]

end

/-! ## Deletion -/

theorem addCategory_part {before part : List ProjectCategory} {category added : ProjectCategory}
    (isAdded : addCategory before category = before ++ [added])
    (isPart : ∀ other ∈ part, other ∈ before) :
    addCategory part category = part ++ [added] := by
  unfold addCategory at isAdded ⊢
  dsimp only at isAdded ⊢
  split_ifs at isAdded with isRefused
  · exact absurd (congrArg List.length isAdded) (by simp)
  · rw [not_or, not_or, not_or] at isRefused
    obtain ⟨hasId, notDefault, isNew, hasName⟩ := isRefused
    have partNew : ¬part.any (·.id = trimmed category.id) = true := by
      intro isOld
      obtain ⟨other, isIn, sameId⟩ := List.any_eq_true.mp isOld
      exact isNew (List.any_eq_true.mpr ⟨other, isPart other isIn, sameId⟩)
    rw [if_neg]
    · split at isAdded
      · exact congrArg (part ++ ·) (List.append_cancel_left isAdded)
      · exact absurd (congrArg List.length isAdded) (by simp)
    · rintro (noId | isDefault | isOld | noName)
      · exact hasId noId
      · exact notDefault isDefault
      · exact partNew isOld
      · exact hasName noName

theorem addCategory_cases (before : List ProjectCategory) (category : ProjectCategory) :
    addCategory before category = before ∨
      ∃ added, addCategory before category = before ++ [added] := by
  unfold addCategory
  dsimp only
  split_ifs
  · exact .inl rfl
  · split
    · exact .inr ⟨_, rfl⟩
    · exact .inl rfl

theorem foldl_grows (categories : List ProjectCategory) : ∀ before : List ProjectCategory,
    ∃ later : List ProjectCategory, categories.foldl addCategory before = before ++ later ∧
      later.length ≤ categories.length := by
  induction categories with
  | nil => exact fun before => ⟨[], (List.append_nil before).symm, Nat.le_refl 0⟩
  | cons category rest ih =>
    intro before
    rw [List.foldl_cons]
    rcases addCategory_cases before category with isSame | ⟨added, isAdded⟩
    · obtain ⟨later, isLater, isShort⟩ := ih before
      rw [isSame]
      exact ⟨later, isLater, Nat.le_succ_of_le isShort⟩
    · obtain ⟨later, isLater, isShort⟩ := ih (before ++ [added])
      rw [isAdded, isLater, List.append_assoc]
      exact ⟨added :: later, rfl, Nat.succ_le_succ isShort⟩

theorem foldl_filter (keeps : ProjectCategory → Bool) (categories : List ProjectCategory) :
    ∀ before : List ProjectCategory, categories.foldl addCategory before = before ++ categories →
      (categories.filter keeps).foldl addCategory (before.filter keeps) =
        before.filter keeps ++ categories.filter keeps := by
  induction categories with
  | nil => exact fun before _ => (List.append_nil _).symm
  | cons category rest ih =>
    intro before isNormal
    rw [List.foldl_cons] at isNormal
    rcases addCategory_cases before category with isSame | ⟨added, isAdded⟩
    · obtain ⟨later, isLater, isShort⟩ := foldl_grows rest before
      rw [isSame, isLater] at isNormal
      have sameLength := congrArg List.length (List.append_cancel_left isNormal)
      rw [List.length_cons] at sameLength
      omega
    · obtain ⟨later, isLater, _⟩ := foldl_grows rest (before ++ [added])
      have isCategory : added = category := by
        rw [isAdded, isLater, List.append_assoc] at isNormal
        exact (List.cons.inj (List.append_cancel_left isNormal)).1
      subst isCategory
      rw [isAdded] at isNormal
      have kept := ih (before ++ [added]) (by
        rw [isNormal, List.append_assoc]
        rfl)
      rw [List.filter_append] at kept
      by_cases isKept : keeps added = true
      · rw [List.filter_cons_of_pos isKept] at kept ⊢
        have isPart : ∀ other ∈ before.filter keeps, other ∈ before :=
          fun other isIn => List.mem_of_mem_filter isIn
        rw [List.foldl_cons, addCategory_part isAdded isPart]
        refine kept.trans ?_
        rw [List.append_assoc]
        rfl
      · rw [List.filter_cons_of_neg isKept] at kept ⊢
        rw [List.filter_nil, List.append_nil] at kept
        exact kept

section
variable {config : GroveConfig Theme}

theorem Normal.filterCategories {preferences : GrovePreferences} (normal : Normal preferences)
    (keeps : ProjectCategory → Bool) :
    Normal { preferences with
      projectCategories := preferences.projectCategories.filter keeps } := by
  apply normal.withCategories
  have isNormal := congrArg GrovePreferences.projectCategories normal.normalized
  have kept := foldl_filter keeps preferences.projectCategories [] isNormal
  exact kept

theorem persisted_written_reconcile (normal : Normal (persisted config)) (looked : Looked) :
    persisted (reconcileConfig looked config).1.written = persisted config := by
  have isPersisted := persisted_reconcile normal looked
  cases isPreferences : config.preferences with
  | none =>
    have noPreferences : (reconcileConfig looked config).1.preferences = none := by
      show (if (config.preferences.any _) = true then _ else config.preferences) = none
      rw [isPreferences]
      rfl
    show ((Option.map GrovePreferences.withoutLegacy
      (reconcileConfig looked config).1.preferences).getD .default).normalized =
        (config.preferences.getD .default).normalized
    rw [noPreferences, isPreferences]
    rfl
  | some preferences =>
    have isNormal : preferences.normalized = persisted config := by
      unfold persisted
      rw [isPreferences]
      rfl
    show ((Option.map GrovePreferences.withoutLegacy (if (config.preferences.any fun stored =>
      !stored.same (config.preferences.getD .default).normalized) = true
        then some (config.preferences.getD .default).normalized
        else config.preferences)).getD .default).normalized = _
    rw [isPreferences]
    show ((Option.map GrovePreferences.withoutLegacy
      (if (!preferences.same preferences.normalized) = true then some preferences.normalized
        else some preferences)).getD .default).normalized = _
    rw [isNormal]
    split_ifs with isChanged
    · show (persisted config).withoutLegacy.normalized = _
      rw [normal.withoutLegacy, normal.normalized]
    · have isSame : preferences.withoutLegacy = (persisted config).withoutLegacy := by
        rw [Bool.not_eq_true, Bool.not_eq_false'] at isChanged
        exact of_decide_eq_true isChanged
      show preferences.withoutLegacy.normalized = _
      rw [isSame, normal.withoutLegacy, normal.normalized]

theorem deleteProjectCategory_cases (normal : Normal (persisted config)) (looked : Looked)
    {categoryId : String} (isTrimmed : trimmed categoryId = categoryId) :
    (deleteProjectCategory looked config categoryId).2 = false ∧
        persisted (deleteProjectCategory looked config categoryId).1 = persisted config ∨
      (deleteProjectCategory looked config categoryId).2 = true ∧
        persisted (deleteProjectCategory looked config categoryId).1 =
          { persisted config with
            projectCategories :=
              (persisted config).projectCategories.filter (·.id ≠ categoryId) } := by
  unfold deleteProjectCategory
  dsimp only
  rw [isTrimmed]
  by_cases isRefused : categoryId = "" ∨ categoryId = defaultProjectCategoryId
  · rw [if_pos isRefused]
    exact .inl ⟨rfl, rfl⟩
  · rw [if_neg isRefused]
    have isPersisted := persisted_reconcile normal looked
    unfold GroveConfig.deleteProjectCategory
    dsimp only
    have isLoaded : ((reconcileConfig looked config).1.preferences.getD .default).normalized =
      persisted config := isPersisted
    rw [isLoaded]
    by_cases isMissing : ((persisted config).projectCategories.filter (·.id ≠ categoryId)).length =
      (persisted config).projectCategories.length
    · rw [if_pos isMissing]
      left
      refine ⟨rfl, ?_⟩
      show persisted (if (reconcileConfig looked config).2 = true then
        (reconcileConfig looked config).1.written else config) = _
      split_ifs
      · exact persisted_written_reconcile normal looked
      · rfl
    · rw [if_neg isMissing]
      right
      refine ⟨rfl, ?_⟩
      have filtered := normal.filterCategories fun category => decide (category.id ≠ categoryId)
      show ((some (GrovePreferences.withoutLegacy _)).getD .default).normalized = _
      rw [filtered.withoutLegacy]
      exact filtered.normalized

end

/-! ## Runs -/

/-- What the requests that wait will make of the persisted preferences. -/
def Pending (state : Saveable) (loaded : Bool) : GrovePreferences → List Request → Prop
  | current, [] => loaded = true → saveableOf current = state
  | current, .save own saveable :: later => Normal saveable.received ∧
      (∀ preference, own ≠ preference → preference.Same current saveable.received) ∧
        Pending state loaded saveable.received later
  | current, .get :: later => later = [] ∧ (loaded = true → saveableOf current = state)
  | current, .saveCategories saveable :: later => later = [] ∧ Normal saveable.received ∧
      loaded = true ∧ saveableOf current = state ∧
        saveable = { state with projectCategories := saveable.projectCategories }
  | current, .deleteCategory categoryId :: later => later = [] ∧
      trimmed categoryId = categoryId ∧ loaded = true ∧ saveableOf current = state

/-- What a reply that waits says of the persisted preferences. -/
def Reply.Fits (state : Saveable) (loaded : Bool) (current : GrovePreferences) : Reply → Prop
  | .preferences received => received = current
  | .categoriesSaved projectCategories => loaded = true ∧
      saveableOf current = { state with projectCategories }
  | .categoryDeleted categoryId => loaded = true ∧
      saveableOf current = { state with
        projectCategories := state.projectCategories.filter (·.id ≠ categoryId) }

def Change.Own (change : Change) : Prop :=
  ∀ preference, change.own ≠ some preference → preference.Same change.before change.after

structure Sound (sys : System Theme) : Prop where
  normal : Normal (persisted sys.config)
  waits : sys.replies = [] ∧
      Pending sys.state sys.loaded (persisted sys.config) sys.requests ∨
    ∃ reply, sys.replies = [reply] ∧ sys.requests = [] ∧
      reply.Fits sys.state sys.loaded (persisted sys.config)
  own : ∀ change ∈ sys.changes, change.Own

theorem Preference.Same.refl (preferences : GrovePreferences) (preference : Preference) :
    preference.Same preferences preferences := by
  cases preference <;> rfl

/-- Behind the saves that wait, what is sent next finds the preferences of the store. -/
theorem pending_append {state next : Saveable} {loaded : Bool} {later : List Request}
    (requests : List Request) : ∀ current : GrovePreferences, Normal current →
      (∀ request ∈ requests, request.isSave = true) → Pending state loaded current requests →
        (∀ last, Normal last → (loaded = true → saveableOf last = state) →
          Pending next loaded last later) → Pending next loaded current (requests ++ later) := by
  induction requests with
  | nil => exact fun current normal _ pending follows => follows current normal pending
  | cons request rest ih =>
    intro current normal areSaves pending follows
    cases request with
    | save own saveable =>
      obtain ⟨isNormal, same, waits⟩ := pending
      exact ⟨isNormal, same, ih _ isNormal
        (fun other isIn => areSaves other (List.mem_cons_of_mem _ isIn)) waits follows⟩
    | get => cases areSaves .get (List.mem_cons_self ..)
    | saveCategories saveable => cases areSaves (.saveCategories saveable) (List.mem_cons_self ..)
    | deleteCategory categoryId =>
      cases areSaves (.deleteCategory categoryId) (List.mem_cons_self ..)

theorem Setter.same (setter : Setter) (state : Saveable) (preference : Preference)
    (isOther : setter.own ≠ preference) :
    preference.Same state.received (setter.set state).received := by
  cases setter <;> cases preference <;> first | rfl | exact absurd rfl isOther

theorem process_deleteCategory (looked : Looked) (config : GroveConfig Theme)
    (categoryId : String) :
    (Request.deleteCategory categoryId).process looked config =
      ((deleteProjectCategory looked config categoryId).1,
        if (deleteProjectCategory looked config categoryId).2 then [.categoryDeleted categoryId]
        else []) := rfl

section
variable {sys : System Theme}

theorem Sound.pending (sound : Sound sys) (noReplies : sys.replies = []) :
    Pending sys.state sys.loaded (persisted sys.config) sys.requests := by
  rcases sound.waits with ⟨_, pending⟩ | ⟨reply, isReply, _⟩
  · exact pending
  · simp [noReplies] at isReply

theorem Sound.send (sound : Sound sys) (quiet : Quiet sys) {state : Saveable}
    {request : Request}
    (follows : ∀ last, Normal last → (sys.loaded = true → saveableOf last = sys.state) →
      Pending state sys.loaded last [request]) :
    Sound ({ sys with state }.send request) :=
  ⟨sound.normal, .inl ⟨quiet.1, pending_append sys.requests _ sound.normal quiet.2
    (sound.pending quiet.1) follows⟩, sound.own⟩

theorem Sound.init (sound : Sound sys) (quiet : Quiet sys) : Sound sys.init :=
  sound.send quiet fun _ _ agree => ⟨rfl, agree⟩

theorem Sound.set (sound : Sound sys) (quiet : Quiet sys) (isLoaded : sys.loaded = true)
    {setter : Setter} (isNormal : Normal (setter.set sys.state).received) :
    Sound (sys.set setter) := by
  refine sound.send quiet fun last normal agree => ⟨isNormal, fun preference isOther => ?_,
    fun _ => saveableOf_received _⟩
  rw [← normal.received, agree isLoaded]
  exact setter.same sys.state preference isOther

theorem Sound.setProjectCategories (sound : Sound sys) (quiet : Quiet sys)
    (isLoaded : sys.loaded = true) {projectCategories : List ProjectCategory}
    (isNormal : Normal { sys.state with projectCategories }.received) :
    Sound (sys.setProjectCategories projectCategories) :=
  sound.send quiet fun _ _ agree => ⟨rfl, isNormal, isLoaded, agree isLoaded, rfl⟩

theorem Sound.deleteProjectCategory (sound : Sound sys) (quiet : Quiet sys)
    (isLoaded : sys.loaded = true) {categoryId : String}
    (isTrimmed : trimmed categoryId = categoryId) :
    Sound (sys.deleteProjectCategory categoryId) :=
  sound.send quiet fun _ _ agree => ⟨rfl, isTrimmed, isLoaded, agree isLoaded⟩

theorem Sound.process (sound : Sound sys) (looked : Looked) {request : Request}
    {later : List Request} (isRequests : sys.requests = request :: later) :
    Sound (sys.process looked request later) := by
  have noReplies : sys.replies = [] := by
    rcases sound.waits with ⟨noReplies, _⟩ | ⟨_, _, noRequests, _⟩
    · exact noReplies
    · simp [isRequests] at noRequests
  have pending := sound.pending noReplies
  rw [isRequests] at pending
  have owned : ∀ {after : GrovePreferences}, (∀ preference, request.own ≠ some preference →
        preference.Same (persisted sys.config) after) →
        ∀ change ∈ (⟨request.own, persisted sys.config, after⟩ : Change) :: sys.changes,
          change.Own := by
    intro after isOwn change isIn
    rcases List.mem_cons.mp isIn with rfl | isOld
    · exact isOwn
    · exact sound.own change isOld
  unfold System.process
  dsimp only
  rw [noReplies, List.nil_append]
  cases request with
  | get =>
    obtain ⟨rfl, agree⟩ := pending
    exact ⟨sound.normal, .inr ⟨_, rfl, rfl, rfl⟩,
      owned fun preference _ => Preference.Same.refl _ preference⟩
  | save own saveable =>
    obtain ⟨isNormal, same, waits⟩ := pending
    have isSaved : persisted (saveGrovePreferences sys.config saveable) = saveable.received :=
      persisted_save isNormal
    refine ⟨?_, .inl ⟨rfl, ?_⟩, owned ?_⟩
    · exact isSaved ▸ isNormal
    · show Pending _ _ (persisted (saveGrovePreferences sys.config saveable)) later
      rw [isSaved]
      exact waits
    · intro preference isOther
      show preference.Same _ (persisted (saveGrovePreferences sys.config saveable))
      rw [isSaved]
      exact same preference fun isOwn => isOther (congrArg some isOwn)
  | saveCategories saveable =>
    obtain ⟨rfl, isNormal, isLoaded, agree, isSaveable⟩ := pending
    have isSaved : persisted (saveGrovePreferences sys.config saveable) = saveable.received :=
      persisted_save isNormal
    have fits : (Reply.categoriesSaved saveable.projectCategories).Fits sys.state sys.loaded
        (persisted (saveGrovePreferences sys.config saveable)) := by
      refine ⟨isLoaded, ?_⟩
      rw [isSaved, saveableOf_received]
      exact isSaveable
    refine ⟨?_, .inr ⟨_, rfl, rfl, fits⟩, owned ?_⟩
    · exact isSaved ▸ isNormal
    · intro preference isOther
      show preference.Same _ (persisted (saveGrovePreferences sys.config saveable))
      rw [isSaved, ← sound.normal.received, agree, isSaveable]
      cases preference <;> first | rfl | exact absurd rfl isOther
  | deleteCategory categoryId =>
    obtain ⟨rfl, isTrimmed, isLoaded, agree⟩ := pending
    rcases deleteProjectCategory_cases sound.normal looked isTrimmed with
      ⟨isRefused, isSame⟩ | ⟨isDeleted, isPersisted⟩
    · rw [process_deleteCategory, isRefused]
      refine ⟨?_, .inl ⟨rfl, fun _ => ?_⟩, owned fun preference _ => ?_⟩
      · show Normal
          (persisted (PreferencesStore.deleteProjectCategory looked sys.config categoryId).1)
        rw [isSame]
        exact sound.normal
      · exact (congrArg saveableOf isSame).trans agree
      · dsimp only
        rw [isSame]
        exact Preference.Same.refl _ preference
    · have fits : (Reply.categoryDeleted categoryId).Fits sys.state sys.loaded
          (persisted
            (PreferencesStore.deleteProjectCategory looked sys.config categoryId).1) := by
        refine ⟨isLoaded, ?_⟩
        rw [isPersisted, ← agree]
        rfl
      rw [process_deleteCategory, isDeleted, if_pos rfl]
      dsimp only
      refine ⟨?_, .inr ⟨.categoryDeleted categoryId, rfl, rfl, fits⟩, owned ?_⟩
      · dsimp only
        rw [isPersisted]
        exact sound.normal.filterCategories fun category => decide (category.id ≠ categoryId)
      · intro preference isOther
        rw [isPersisted]
        cases preference <;> first | rfl | exact absurd rfl isOther

theorem Sound.reply (sound : Sound sys) {index : Nat} {reply : Reply}
    (isReply : sys.replies[index]? = some reply) :
    Sound ({ sys with replies := sys.replies.eraseIdx index }.receive reply) := by
  rcases sound.waits with ⟨noReplies, _⟩ | ⟨only, isOnly, noRequests, fits⟩
  · simp [noReplies] at isReply
  · rw [isOnly] at isReply
    cases index with
    | succ index => cases isReply
    | zero =>
      cases isReply
      have erased : sys.replies.eraseIdx 0 = [] := by
        rw [isOnly]
        rfl
      rw [erased]
      cases reply with
      | preferences received =>
        refine ⟨sound.normal, .inl ⟨rfl, ?_⟩, sound.own⟩
        show Pending _ _ (persisted sys.config) sys.requests
        rw [noRequests]
        exact fun _ => congrArg saveableOf fits.symm
      | categoriesSaved projectCategories | categoryDeleted categoryId =>
        refine ⟨sound.normal, .inl ⟨rfl, ?_⟩, sound.own⟩
        show Pending _ _ (persisted sys.config) sys.requests
        rw [noRequests]
        exact fun _ => fits.2

theorem step_sound (sound : Sound sys) {label : Label} (clean : Clean sys label)
    {next : System Theme} (ran : step sys label = some next) : Sound next := by
  cases label with
  | init =>
    cases ran
    exact sound.init clean
  | set setter =>
    cases ran
    exact sound.set clean.1 clean.2.1 clean.2.2
  | setProjectCategories projectCategories =>
    cases ran
    exact sound.setProjectCategories clean.1 clean.2.1 clean.2.2
  | deleteProjectCategory categoryId =>
    cases ran
    exact sound.deleteProjectCategory clean.1 clean.2.1 clean.2.2
  | process looked =>
    cases isRequests : sys.requests with
    | nil =>
      dsimp only [step] at ran
      simp [isRequests] at ran
    | cons request later =>
      dsimp only [step] at ran
      rw [isRequests] at ran
      cases ran
      exact sound.process looked isRequests
  | reply index =>
    obtain ⟨reply, isReply, rfl⟩ := Option.map_eq_some_iff.mp ran
    exact sound.reply isReply

end

theorem preferencesKept {config : GroveConfig Theme} (normal : Normal (persisted config))
    {finish : System Theme} (run : Run step Clean (opened config) finish) :
    PreferencesKept finish := by
  have start : Sound (opened config) :=
    ⟨normal, .inl ⟨rfl, fun isLoaded => by cases isLoaded⟩, fun change isIn => by cases isIn⟩
  have sound : Sound finish :=
    run.invariant start fun _ _ _ sound clean ran => step_sound sound clean ran
  refine ⟨sound.own, fun isLoaded noRequests noReplies => ?_⟩
  have pending := sound.pending noReplies
  rw [noRequests] at pending
  exact pending isLoaded

/-- The organizations are grouped, as the stored preferences say. -/
def grouped : GroveConfig Unit :=
  ⟨[], none, none, some { GrovePreferences.default with projectViewMode := .groupByOrgs }⟩

def setBehindInit : List Label :=
  [.init, .process ⟨[], []⟩, .reply 0, .set (.setTerminalLinkOpenMode .internal), .process ⟨[], []⟩]

theorem grouped_normal : Normal (persisted grouped) := by
  refine ⟨?_, rfl⟩
  decide +kernel

theorem preferencesKept_setBehindInit : ∃ finish,
    execute step (opened grouped) setBehindInit = some finish ∧ PreferencesKept finish := by
  refine ⟨_, rfl, preferencesKept grouped_normal (run_of_permitted setBehindInit ?_ rfl)⟩
  have noRequest : ∀ request ∈ ([] : List Request), request.isSave = true :=
    fun request isIn => by cases isIn
  refine ⟨⟨rfl, noRequest⟩, _, rfl, trivial, _, rfl, trivial, _, rfl,
    ⟨⟨rfl, noRequest⟩, rfl, ⟨?_, rfl⟩⟩, _, rfl, trivial, _, rfl, trivial⟩
  decide +kernel

def setBeforeInit : List Label :=
  [.init, .set (.setTerminalLinkOpenMode .internal), .process ⟨[], []⟩, .process ⟨[], []⟩]

/-- The setter saves the defaults of the store over the stored preferences. -/
theorem not_preferencesKept : ¬∀ (config : GroveConfig Unit) (finish : System Unit),
    Reachable step (opened config) finish → PreferencesKept finish := by
  intro allKept
  have reached : ∃ finish, Reachable step (opened grouped) finish ∧
      finish.changes.head?.map (fun change =>
        (change.own, change.before.projectViewMode, change.after.projectViewMode)) =
          some (some .terminalLinkOpenMode, .groupByOrgs, .default) :=
    ⟨_, reachable_of_execute setBeforeInit rfl, by decide +kernel⟩
  obtain ⟨finish, isReached, isChange⟩ := reached
  obtain ⟨change, isFirst, isViewMode⟩ := Option.map_eq_some_iff.mp isChange
  have kept := (allKept grouped finish isReached).own change (List.mem_of_head? isFirst)
    .projectViewMode
  obtain ⟨isOwn, isChanged⟩ := Prod.mk.inj isViewMode
  obtain ⟨wasGrouped, isDefault⟩ := Prod.mk.inj isChanged
  have same : change.before.projectViewMode = change.after.projectViewMode := by
    apply kept
    rw [isOwn]
    decide
  rw [wasGrouped, isDefault] at same
  cases same

end AiTools.Grove.PreferencesStore
