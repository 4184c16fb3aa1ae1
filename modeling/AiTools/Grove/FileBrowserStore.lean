import AiTools.Lib.Transition
import Mathlib

/-!
Contract: the file tree of the store, and the listings that are loaded into it.

Owns:
- the actions of `useFileBrowserStore`, each `await` a request that any reply can answer later;
- the maps by path as the plain objects that they are, in which the names of `Object.prototype`
  read as if they were there;
- `neverIncomplete`, over the runs whose steps meet `Clean`.

Does not own: the backend's listings, which are arbitrary, and the persistence of the expansion.
-/

namespace AiTools.Grove.FileBrowserStore

open AiTools.Lib.Transition
open Function (update update_of_ne update_self)

variable {Root : Type}

abbrev Path := List String

theorem any_eq_iff {path : Path} {paths : List Path} :
    (paths.any (· = path)) = true ↔ path ∈ paths := by
  simp

local instance decidableMemPath (path : Path) (paths : List Path) : Decidable (path ∈ paths) :=
  decidable_of_iff ((paths.any (· = path)) = true) any_eq_iff

structure DirectoryFileEntry where
  path : Path
  name : String
  isDirectory : Bool
deriving DecidableEq

/-- What a listing of a directory has of an entry. Its path lies in that directory. -/
structure Child where
  name : String
  isDirectory : Bool

def entriesOf (parent : Path) (children : List Child) : List DirectoryFileEntry :=
  children.map fun child => ⟨parent ++ [child.name], child.name, child.isDirectory⟩

/-- `full` is what there would be without the limit. -/
structure DeepDirectoryListing where
  full : List DirectoryFileEntry
  entries : List DirectoryFileEntry
  truncated : Bool
  whole : truncated = false → entries = full

/-- The members of `Object.prototype`. -/
def inheritedNames : List String :=
  ["constructor", "__defineGetter__", "__defineSetter__", "hasOwnProperty", "__lookupGetter__",
    "__lookupSetter__", "isPrototypeOf", "propertyIsEnumerable", "toString", "valueOf", "__proto__",
    "toLocaleString"]

/-- The key of the path in a plain object is such a name. -/
def isInherited : Path → Bool
  | [name] => inheritedNames.contains name
  | _ => false

/-- Whether the property of a plain object reads as truthy; an inherited member is a function or an
object. -/
def reads (own : Path → Bool) (path : Path) : Bool := own path || isInherited path

theorem reads_of_plain {path : Path} (isPlain : isInherited path = false) (own : Path → Bool) :
    reads own path = own path := by
  rw [reads, isPlain, Bool.or_false]

/-- The listings that an action waits for. -/
inductive Request (Root : Type) where
  | children (rootPath : Root) (key : Path)
  | deep (rootPath : Root)
  | refresh (rootPath : Root) (snapshot : List Path)

/-- The maps have what was set in them. A directory that is not in `entriesByParent` has no entries
there. `returned` is history: the listings that the backend has returned. -/
structure System (Root : Type) where
  rootPath : Option Root
  entriesByParent : Path → List DirectoryFileEntry
  loadedParents : Path → Bool
  loadingParents : Path → Bool
  expandedPaths : List Path
  requests : List (Request Root)
  returned : List (Root × Path × List DirectoryFileEntry)

def opened : System Root := ⟨none, fun _ => [], fun _ => false, fun _ => false, [], [], []⟩

/-! ## The actions -/

namespace System

variable (sys : System Root)

/-- `restored` is the expansion that was persisted for the root. -/
def setRootPath [DecidableEq Root] (path : Option Root) (restored : List Path) : System Root :=
  if path = sys.rootPath then sys
  else
    { sys with
      rootPath := path
      entriesByParent := fun _ => []
      loadedParents := fun _ => false
      loadingParents := fun _ => false
      expandedPaths := if path.isSome then restored else [] }

def loadChildren (key : Path) : System Root :=
  match sys.rootPath with
  | none => sys
  | some rootPath =>
    if reads sys.loadedParents key ∨ reads sys.loadingParents key then sys
    else
      { sys with
        loadingParents := update sys.loadingParents key true
        requests := sys.requests ++ [.children rootPath key] }

/-- The subdirectories that are expanded but not loaded, as they were behind the reply. -/
def cascade (snapshot : System Root) : List DirectoryFileEntry → System Root → System Root
  | [], sys => sys
  | entry :: rest, sys =>
    cascade snapshot rest
      (if entry.isDirectory ∧ entry.path ∈ snapshot.expandedPaths ∧
          reads snapshot.loadedParents entry.path = false ∧
          reads snapshot.loadingParents entry.path = false then
        sys.loadChildren entry.path
      else sys)

/-- Entries that are equal are kept, which comes to the same. -/
def stored (key : Path) (next : List DirectoryFileEntry) : System Root :=
  { sys with
    entriesByParent := update sys.entriesByParent key next
    loadedParents := update sys.loadedParents key true
    loadingParents := update sys.loadingParents key false }

/-- `loadChildren` behind its listing. -/
def childrenLoaded [DecidableEq Root] (rootPath : Root) (key : Path)
    (listing : Option (List Child)) : System Root :=
  if sys.rootPath = some rootPath then
    match listing with
    | none => sys.stored key (sys.entriesByParent key)
    | some children =>
      let next := entriesOf key children
      cascade (sys.stored key next) next (sys.stored key next)
  else sys

def expandDirectory (path : Path) : System Root :=
  { sys with
    expandedPaths := if path ∈ sys.expandedPaths then sys.expandedPaths
      else sys.expandedPaths ++ [path] }.loadChildren path

def collapseDirectory (path : Path) : System Root :=
  { sys with expandedPaths := sys.expandedPaths.filter (· ≠ path) }

def collapseDirectoryDeep (path : Path) : System Root :=
  { sys with expandedPaths := sys.expandedPaths.filter fun other => ¬path <+: other }

def collapseAll : System Root := { sys with expandedPaths := [] }

def expandAll : System Root :=
  match sys.rootPath with
  | none => sys
  | some rootPath => { sys with requests := sys.requests ++ [.deep rootPath] }

def deepLoaded [DecidableEq Root] (rootPath : Root) (listing : Option DeepDirectoryListing) :
    System Root :=
  match listing with
  | none => sys
  | some listing =>
    if sys.rootPath = some rootPath then
      -- An inherited member has no `push`: the loop throws before anything is set.
      if listing.entries.any fun entry => isInherited entry.path.dropLast then sys
      else { sys with
        entriesByParent := fun parent => listing.entries.filter (·.path.dropLast = parent)
        loadedParents := fun parent =>
          parent = [] || listing.entries.any fun entry => entry.isDirectory && entry.path = parent
        loadingParents := fun _ => false
        expandedPaths := (listing.entries.filter (·.isDirectory)).map DirectoryFileEntry.path }
    else sys

def refresh : System Root :=
  match sys.rootPath with
  | none => sys
  | some rootPath =>
    { sys with
      requests := sys.requests ++ [.refresh rootPath ([] :: sys.expandedPaths)] }

end System

/-- What has been listed for the parents of a snapshot. -/
structure Refreshed where
  snapshot : List Path
  results : Path → Option (List Child)

namespace Refreshed

variable (refreshed : Refreshed)

def entries (parent : Path) : List DirectoryFileEntry :=
  if parent ∈ refreshed.snapshot then entriesOf parent ((refreshed.results parent).getD []) else []

def existingDirs (path : Path) : Bool :=
  refreshed.snapshot.any fun parent =>
    (refreshed.entries parent).any fun entry => entry.isDirectory && entry.path = path

def isValidParent (parent : Path) : Bool :=
  parent.inits.all fun path => path = [] || refreshed.existingDirs path

/-- The parents that are in the maps afterwards. -/
def has (parent : Path) : Bool :=
  parent ∈ refreshed.snapshot && (refreshed.results parent).isSome && refreshed.isValidParent parent

end Refreshed

def System.refreshed [DecidableEq Root] (sys : System Root) (rootPath : Root)
    (refreshed : Refreshed) : System Root :=
  if sys.rootPath = some rootPath then
    { sys with
      entriesByParent := fun parent =>
        if refreshed.has parent then refreshed.entries parent else []
      loadedParents := refreshed.has
      loadingParents := fun _ => false
      expandedPaths := sys.expandedPaths.filter refreshed.existingDirs }
  else sys

inductive Label (Root : Type) where
  | setRootPath (path : Option Root) (restored : List Path)
  | loadChildren (key : Path)
  | expandDirectory (path : Path)
  | collapseDirectory (path : Path)
  | collapseDirectoryDeep (path : Path)
  | expandAll
  | collapseAll
  | refresh
  | childrenReply (index : Nat) (listing : Option (List Child))
  | deepReply (index : Nat) (listing : Option DeepDirectoryListing)
  | refreshReply (index : Nat) (results : Path → Option (List Child))

namespace System

variable (sys : System Root)

/-- A listing has been returned, or more of them. -/
def answered (index : Nat) (returned : List (Root × Path × List DirectoryFileEntry)) :
    System Root :=
  { sys with
    requests := sys.requests.eraseIdx index
    returned := returned ++ sys.returned }

end System

def childrenReturned (rootPath : Root) (key : Path) (listing : Option (List Child)) :
    List (Root × Path × List DirectoryFileEntry) :=
  listing.toList.map fun children => (rootPath, key, entriesOf key children)

/-- A deep listing without the limit lists the root and each directory in it. -/
def deepReturned (rootPath : Root) (listing : Option DeepDirectoryListing) :
    List (Root × Path × List DirectoryFileEntry) :=
  listing.toList.flatMap fun listing =>
    ([] :: (listing.full.filter (·.isDirectory)).map DirectoryFileEntry.path).map fun parent =>
      (rootPath, parent, listing.full.filter (·.path.dropLast = parent))

def refreshReturned (rootPath : Root) (refreshed : Refreshed) :
    List (Root × Path × List DirectoryFileEntry) :=
  refreshed.snapshot.flatMap fun parent =>
    childrenReturned rootPath parent (refreshed.results parent)

def step [DecidableEq Root] (sys : System Root) : Label Root → Option (System Root)
  | .setRootPath path restored => some (sys.setRootPath path restored)
  | .loadChildren key => some (sys.loadChildren key)
  | .expandDirectory path => some (sys.expandDirectory path)
  | .collapseDirectory path => some (sys.collapseDirectory path)
  | .collapseDirectoryDeep path => some (sys.collapseDirectoryDeep path)
  | .expandAll => some sys.expandAll
  | .collapseAll => some sys.collapseAll
  | .refresh => some sys.refresh
  | .childrenReply index listing =>
    match sys.requests[index]? with
    | some (.children rootPath key) =>
      some ((sys.answered index (childrenReturned rootPath key listing)).childrenLoaded
        rootPath key listing)
    | _ => none
  | .deepReply index listing =>
    match sys.requests[index]? with
    | some (.deep rootPath) =>
      some ((sys.answered index (deepReturned rootPath listing)).deepLoaded rootPath listing)
    | _ => none
  | .refreshReply index results =>
    match sys.requests[index]? with
    | some (.refresh rootPath snapshot) =>
      some ((sys.answered index (refreshReturned rootPath ⟨snapshot, results⟩)).refreshed
        rootPath ⟨snapshot, results⟩)
    | _ => none

def InFlight (sys : System Root) (path : Path) : Prop :=
  ∃ rootPath, sys.rootPath = some rootPath ∧ .children rootPath path ∈ sys.requests

def Covered (sys : System Root) (path : Path) : Prop :=
  sys.loadedParents path = true ∨ InFlight sys path

/-- The path is shown as a directory. -/
def Listed (sys : System Root) (path : Path) : Prop :=
  ∃ parent, ∃ entry ∈ sys.entriesByParent parent, entry.isDirectory = true ∧ entry.path = path

structure NeverIncomplete (sys : System Root) : Prop where
  returned : ∀ rootPath, sys.rootPath = some rootPath → ∀ parent,
    sys.loadedParents parent = true →
      (rootPath, parent, sys.entriesByParent parent) ∈ sys.returned
  expanded : ∀ path ∈ sys.expandedPaths, Listed sys path → Covered sys path

/-- Listings of the root that is shown succeed, a deep one is not truncated, what has been expanded
since a refresh began is still being loaded when it ends, and no directory that is expanded has the
name of a member of `Object.prototype` as its path. -/
def Clean (sys : System Root) : Label Root → Prop
  | .setRootPath _ restored => ∀ path ∈ restored, isInherited path = false
  | .expandDirectory path => isInherited path = false
  | .childrenReply index listing => ∀ rootPath key,
      sys.requests[index]? = some (.children rootPath key) →
        sys.rootPath = some rootPath → listing.isSome = true
  | .deepReply _ listing => ∀ deep, listing = some deep → deep.truncated = false ∧
      ∀ entry ∈ deep.entries, entry.isDirectory = true → isInherited entry.path = false
  | .refreshReply index results => ∀ rootPath snapshot,
      sys.requests[index]? = some (.refresh rootPath snapshot) →
        sys.rootPath = some rootPath → (∀ parent ∈ snapshot, (results parent).isSome = true) ∧
            ∀ path ∈ sys.expandedPaths, path ∉ snapshot → InFlight sys path
  | _ => True

structure Sound (sys : System Root) : Prop where
  complete : NeverIncomplete sys
  empty : sys.rootPath = none → ∀ parent, sys.entriesByParent parent = []
  loading : ∀ path, sys.loadingParents path = true → InFlight sys path
  plain : ∀ path ∈ sys.expandedPaths, isInherited path = false

/-- What an action leaves that only sends requests. -/
structure Kept (sys next : System Root) : Prop where
  rootPath : next.rootPath = sys.rootPath
  entriesByParent : next.entriesByParent = sys.entriesByParent
  loadedParents : next.loadedParents = sys.loadedParents
  expandedPaths : next.expandedPaths = sys.expandedPaths
  returned : next.returned = sys.returned
  requests : sys.requests ⊆ next.requests

section
variable {sys next later : System Root}

theorem Kept.refl (sys : System Root) : Kept sys sys :=
  ⟨rfl, rfl, rfl, rfl, rfl, List.Subset.refl _⟩

theorem Kept.trans (first : Kept sys next) (second : Kept next later) : Kept sys later :=
  ⟨second.rootPath.trans first.rootPath, second.entriesByParent.trans first.entriesByParent,
    second.loadedParents.trans first.loadedParents,
    second.expandedPaths.trans first.expandedPaths, second.returned.trans first.returned,
    fun _ isIn => second.requests (first.requests isIn)⟩

variable {path : Path}

theorem Kept.inFlight (kept : Kept sys next) (inFlight : InFlight sys path) :
    InFlight next path := by
  obtain ⟨rootPath, isRoot, isIn⟩ := inFlight
  exact ⟨rootPath, kept.rootPath.trans isRoot, kept.requests isIn⟩

theorem Kept.covered (kept : Kept sys next) (covered : Covered sys path) :
    Covered next path := by
  rcases covered with isLoaded | inFlight
  · exact .inl (kept.loadedParents ▸ isLoaded)
  · exact .inr (kept.inFlight inFlight)

theorem Kept.complete (kept : Kept sys next) (complete : NeverIncomplete sys) :
    NeverIncomplete next := by
  constructor
  · intro rootPath isRoot parent isLoaded
    rw [kept.returned, kept.entriesByParent]
    rw [kept.loadedParents] at isLoaded
    exact complete.returned rootPath (kept.rootPath ▸ isRoot) parent isLoaded
  · intro path isExpanded isListed
    rw [kept.expandedPaths] at isExpanded
    unfold Listed at isListed
    rw [kept.entriesByParent] at isListed
    exact kept.covered (complete.expanded path isExpanded isListed)

theorem Kept.sound (kept : Kept sys next) (sound : Sound sys)
    (loading : ∀ path, next.loadingParents path = true → InFlight next path) : Sound next := by
  refine ⟨kept.complete sound.complete, fun noRoot parent => ?_, loading,
    kept.expandedPaths ▸ sound.plain⟩
  rw [kept.entriesByParent]
  exact sound.empty (kept.rootPath ▸ noRoot) parent

/-! ## Loads that begin -/

theorem loadChildren_some {rootPath : Root} (isRoot : sys.rootPath = some rootPath)
    (key : Path) : sys.loadChildren key =
      if reads sys.loadedParents key ∨ reads sys.loadingParents key then sys
      else
        { sys with
          loadingParents := update sys.loadingParents key true
          requests := sys.requests ++ [.children rootPath key] } := by
  unfold System.loadChildren
  rw [isRoot]

theorem loadChildren_none (noRoot : sys.rootPath = none) (key : Path) :
    sys.loadChildren key = sys := by
  unfold System.loadChildren
  rw [noRoot]

theorem loadChildren_kept (sys : System Root) (key : Path) :
    Kept sys (sys.loadChildren key) := by
  unfold System.loadChildren
  split
  · exact Kept.refl sys
  · split_ifs
    · exact Kept.refl sys
    · exact ⟨rfl, rfl, rfl, rfl, rfl, List.subset_append_left _ _⟩

theorem loadChildren_loading
    (loading : ∀ path, sys.loadingParents path = true → InFlight sys path) (key : Path) :
    ∀ path, (sys.loadChildren key).loadingParents path = true →
      InFlight (sys.loadChildren key) path := by
  cases isRoot : sys.rootPath with
  | none =>
    rw [loadChildren_none isRoot]
    exact loading
  | some rootPath =>
    rw [loadChildren_some isRoot]
    split_ifs
    · exact loading
    · intro path isLoading
      change update sys.loadingParents key true path = true at isLoading
      by_cases isKey : path = key
      · subst isKey
        exact ⟨rootPath, isRoot, List.mem_append_right _ (List.mem_singleton_self _)⟩
      · rw [update_of_ne isKey] at isLoading
        obtain ⟨other, isOther, isIn⟩ := loading path isLoading
        exact ⟨other, isOther, List.mem_append_left _ isIn⟩

theorem loadChildren_covered
    (loading : ∀ path, sys.loadingParents path = true → InFlight sys path) {key : Path}
    (isPlain : isInherited key = false) (hasRoot : sys.rootPath ≠ none) :
    Covered (sys.loadChildren key) key := by
  obtain ⟨rootPath, isRoot⟩ := Option.ne_none_iff_exists'.mp hasRoot
  rw [loadChildren_some isRoot, reads_of_plain isPlain, reads_of_plain isPlain]
  split_ifs with isKnown
  · rcases isKnown with isLoaded | isLoading
    · exact .inl isLoaded
    · exact .inr (loading key isLoading)
  · exact .inr ⟨rootPath, isRoot, List.mem_append_right _ (List.mem_singleton_self _)⟩

theorem cascade_kept (snapshot : System Root) (entries : List DirectoryFileEntry) :
    ∀ sys : System Root, Kept sys (System.cascade snapshot entries sys) := by
  induction entries with
  | nil => exact Kept.refl
  | cons entry rest ih =>
    intro sys
    rw [System.cascade]
    split_ifs
    · exact (loadChildren_kept sys entry.path).trans (ih _)
    · exact ih sys

theorem cascade_loading (snapshot : System Root) (entries : List DirectoryFileEntry) :
    ∀ sys : System Root, (∀ path, sys.loadingParents path = true → InFlight sys path) →
        ∀ path, (System.cascade snapshot entries sys).loadingParents path = true →
          InFlight (System.cascade snapshot entries sys) path := by
  induction entries with
  | nil => exact fun _ loading => loading
  | cons entry rest ih =>
    intro sys loading
    rw [System.cascade]
    split_ifs
    · exact ih _ (loadChildren_loading loading entry.path)
    · exact ih sys loading

theorem cascade_covered (snapshot : System Root) (entries : List DirectoryFileEntry) :
    ∀ sys : System Root, Kept snapshot sys → sys.rootPath ≠ none →
      (∀ path ∈ snapshot.expandedPaths, isInherited path = false) →
      (∀ path, snapshot.loadingParents path = true → InFlight sys path) →
      (∀ path, sys.loadingParents path = true → InFlight sys path) →
        ∀ entry ∈ entries, entry.isDirectory = true → entry.path ∈ snapshot.expandedPaths →
          Covered (System.cascade snapshot entries sys) entry.path := by
  induction entries with
  | nil => exact nofun
  | cons first rest ih =>
    intro sys kept hasRoot plain wasLoading loading entry isIn isDirectory isExpanded
    rw [System.cascade]
    have begun := loadChildren_kept sys first.path
    rcases List.mem_cons.mp isIn with rfl | isLater
    · have isPlain := plain entry.path isExpanded
      rw [reads_of_plain isPlain, reads_of_plain isPlain]
      by_cases isLoaded : snapshot.loadedParents entry.path = true
      · rw [if_neg fun isNew => by rw [isLoaded] at isNew; cases isNew.2.2.1]
        refine (cascade_kept snapshot rest sys).covered (.inl ?_)
        rw [kept.loadedParents]
        exact isLoaded
      by_cases isLoading : snapshot.loadingParents entry.path = true
      · rw [if_neg fun isNew => by rw [isLoading] at isNew; cases isNew.2.2.2]
        exact (cascade_kept snapshot rest sys).covered (.inr (wasLoading _ isLoading))
      · rw [if_pos ⟨isDirectory, isExpanded, Bool.not_eq_true _ ▸ isLoaded,
          Bool.not_eq_true _ ▸ isLoading⟩]
        exact (cascade_kept snapshot rest _).covered (loadChildren_covered loading isPlain hasRoot)
    · split_ifs
      · exact ih _ (kept.trans begun) (begun.rootPath ▸ hasRoot) plain
          (fun path isLoading => begun.inFlight (wasLoading path isLoading))
          (loadChildren_loading loading first.path) entry isLater isDirectory isExpanded
      · exact ih sys kept hasRoot plain wasLoading loading entry isLater
          isDirectory isExpanded

theorem Sound.setRootPath [DecidableEq Root] (sound : Sound sys) (path : Option Root)
    {restored : List Path} (plain : ∀ path ∈ restored, isInherited path = false) :
    Sound (sys.setRootPath path restored) := by
  unfold System.setRootPath
  by_cases isSame : path = sys.rootPath
  · rw [if_pos isSame]
    exact sound
  · rw [if_neg isSame]
    refine ⟨⟨nofun, fun _ _ isListed => ?_⟩, fun _ _ => rfl, nofun, fun other isIn => ?_⟩
    · obtain ⟨_, _, isIn, _⟩ := isListed
      cases isIn
    · dsimp only at isIn
      split_ifs at isIn
      · exact plain other isIn
      · cases isIn

theorem Sound.loadChildren (sound : Sound sys) (key : Path) :
    Sound (sys.loadChildren key) :=
  (loadChildren_kept sys key).sound sound (loadChildren_loading sound.loading key)

theorem Sound.expandDirectory (sound : Sound sys) {path : Path} (isPlain : isInherited path = false) :
    Sound (sys.expandDirectory path) := by
  unfold System.expandDirectory
  set expanded : System Root := { sys with
    expandedPaths := if path ∈ sys.expandedPaths then sys.expandedPaths
      else sys.expandedPaths ++ [path] } with isExpanded
  have kept := loadChildren_kept expanded path
  have loading : ∀ other, expanded.loadingParents other = true → InFlight expanded other :=
    sound.loading
  have grown (other : Path) (isOther : other ∈ (expanded.loadChildren path).expandedPaths) :
      other ∈ sys.expandedPaths ∨ other = path := by
    rw [kept.expandedPaths, isExpanded] at isOther
    dsimp only at isOther
    split_ifs at isOther
    · exact .inl isOther
    · exact (List.mem_append.mp isOther).imp_right List.mem_singleton.mp
  refine ⟨⟨fun rootPath isRoot parent isLoaded => ?_, fun other isOther isListed => ?_⟩,
    fun noRoot parent => ?_, loadChildren_loading loading path, fun other isOther => ?_⟩
  · rw [kept.returned, kept.entriesByParent]
    rw [kept.loadedParents] at isLoaded
    exact sound.complete.returned rootPath (kept.rootPath ▸ isRoot) parent isLoaded
  · by_cases isPath : other = path
    · subst isPath
      apply loadChildren_covered loading isPlain
      intro noRoot
      unfold Listed at isListed
      rw [kept.entriesByParent] at isListed
      obtain ⟨parent, entry, isIn, _⟩ := isListed
      rw [show expanded.entriesByParent parent = [] from sound.empty noRoot parent] at isIn
      cases isIn
    · apply kept.covered
      apply sound.complete.expanded
      · exact (grown other isOther).resolve_right isPath
      · unfold Listed at isListed
        rwa [kept.entriesByParent] at isListed
  · rw [kept.entriesByParent]
    exact sound.empty (kept.rootPath ▸ noRoot) parent
  · rcases grown other isOther with isOld | rfl
    · exact sound.plain other isOld
    · exact isPlain

theorem Sound.collapse (sound : Sound sys) {expandedPaths : List Path}
    (isPart : ∀ path ∈ expandedPaths, path ∈ sys.expandedPaths) :
    Sound { sys with expandedPaths } :=
  ⟨⟨sound.complete.returned, fun path isExpanded =>
    sound.complete.expanded path (isPart path isExpanded)⟩, sound.empty, sound.loading,
    fun path isExpanded => sound.plain path (isPart path isExpanded)⟩

theorem Sound.request (sound : Sound sys) (request : Request Root) :
    Sound { sys with requests := sys.requests ++ [request] } := by
  have kept : Kept sys { sys with requests := sys.requests ++ [request] } :=
    ⟨rfl, rfl, rfl, rfl, rfl, List.subset_append_left _ _⟩
  exact kept.sound sound fun path isLoading => kept.inFlight (sound.loading path isLoading)

/-! ## Replies -/

theorem mem_eraseIdx_of_ne {requests : List (Request Root)} {index : Nat}
    {gone other : Request Root} (isGone : requests[index]? = some gone) (isIn : other ∈ requests)
    (isOther : gone ≠ other) : other ∈ requests.eraseIdx index := by
  obtain ⟨isBound, isAt⟩ := List.getElem?_eq_some_iff.mp isGone
  rw [List.eraseIdx_eq_take_drop_succ]
  rw [← List.take_append_drop index requests, ← List.getElem_cons_drop isBound, isAt] at isIn
  rcases List.mem_append.mp isIn with isFront | isRest
  · exact List.mem_append_left _ isFront
  · rcases List.mem_cons.mp isRest with isSame | isBack
    · exact absurd isSame.symm isOther
    · exact List.mem_append_right _ isBack

section
variable {index : Nat} {request : Request Root}
  {returned : List (Root × Path × List DirectoryFileEntry)}

theorem answered_inFlight (isRequest : sys.requests[index]? = some request)
    (inFlight : InFlight sys path)
    (isOther : ∀ rootPath, sys.rootPath = some rootPath → request ≠ .children rootPath path) :
    InFlight (sys.answered index returned) path := by
  obtain ⟨rootPath, isRoot, isIn⟩ := inFlight
  exact ⟨rootPath, isRoot, mem_eraseIdx_of_ne isRequest isIn (isOther rootPath isRoot)⟩

/-- A reply that is no listing of a directory of the root leaves what is in flight. -/
theorem Sound.answered (sound : Sound sys)
    (isRequest : sys.requests[index]? = some request)
    (isOther : ∀ path rootPath, sys.rootPath = some rootPath →
      request ≠ .children rootPath path) : Sound (sys.answered index returned) := by
  refine ⟨⟨fun rootPath isRoot parent isLoaded => ?_, fun path isExpanded isListed => ?_⟩,
    sound.empty, fun path isLoading => ?_, sound.plain⟩
  · exact List.mem_append_right _ (sound.complete.returned rootPath isRoot parent isLoaded)
  · rcases sound.complete.expanded path isExpanded isListed with isLoaded | inFlight
    · exact .inl isLoaded
    · exact .inr (answered_inFlight isRequest inFlight (isOther path))
  · exact answered_inFlight isRequest (sound.loading path isLoading) (isOther path)

end

section
variable [DecidableEq Root] {index : Nat} {rootPath : Root}

theorem Sound.childrenLoaded (sound : Sound sys) {key : Path} {listing : Option (List Child)}
    (isRequest : sys.requests[index]? = some (.children rootPath key))
    (succeeds : sys.rootPath = some rootPath → listing.isSome = true) :
    Sound ((sys.answered index (childrenReturned rootPath key listing)).childrenLoaded rootPath
      key listing) := by
  unfold System.childrenLoaded
  by_cases isRoot : sys.rootPath = some rootPath
  · rw [if_pos (show (sys.answered index _).rootPath = some rootPath from isRoot)]
    cases listing with
    | none => cases succeeds isRoot
    | some children =>
      dsimp only
      set next := entriesOf key children with isNext
      set stored := (sys.answered index
        (childrenReturned rootPath key (some children))).stored key next with isStored
      have remains : ∀ path, path ≠ key → InFlight sys path → InFlight stored path := by
        intro path isOther inFlight
        have answered : InFlight (sys.answered index
            (childrenReturned rootPath key (some children))) path :=
          answered_inFlight isRequest inFlight fun _ _ isSame =>
            isOther (Request.children.inj isSame).2.symm
        exact answered
      have loading : ∀ path, stored.loadingParents path = true → InFlight stored path := by
        intro path isLoading
        change update sys.loadingParents key false path = true at isLoading
        by_cases isKey : path = key
        · simp [isKey, update_self] at isLoading
        · rw [update_of_ne isKey] at isLoading
          exact remains path isKey (sound.loading path isLoading)
      have hasRoot : stored.rootPath ≠ none := by
        show sys.rootPath ≠ none
        rw [isRoot]
        exact nofun
      have kept := cascade_kept stored next stored
      have covered := cascade_covered stored next stored (Kept.refl stored) hasRoot
        sound.plain loading loading
      refine ⟨⟨fun other isOther parent isLoaded => ?_, fun path isExpanded isListed => ?_⟩,
        fun noRoot => absurd (kept.rootPath ▸ noRoot) hasRoot,
        cascade_loading stored next stored loading, kept.expandedPaths ▸ sound.plain⟩
      · rw [kept.returned, kept.entriesByParent]
        rw [kept.loadedParents] at isLoaded
        rw [kept.rootPath] at isOther
        have sameRoot : rootPath = other := Option.some.inj (isRoot.symm.trans isOther)
        subst sameRoot
        by_cases isKey : parent = key
        · subst isKey
          apply List.mem_append_left
          show (rootPath, parent, update sys.entriesByParent parent next parent) ∈ _
          rw [update_self]
          exact List.mem_singleton_self _
        · apply List.mem_append_right
          show (rootPath, parent, update sys.entriesByParent key next parent) ∈ _
          rw [update_of_ne isKey]
          apply sound.complete.returned rootPath isRoot parent
          change update sys.loadedParents key true parent = true at isLoaded
          rwa [update_of_ne isKey] at isLoaded
      · rw [kept.expandedPaths] at isExpanded
        unfold Listed at isListed
        rw [kept.entriesByParent] at isListed
        obtain ⟨parent, entry, isIn, isDirectory, rfl⟩ := isListed
        change entry ∈ update sys.entriesByParent key next parent at isIn
        by_cases isKey : parent = key
        · subst isKey
          rw [update_self] at isIn
          exact covered entry isIn isDirectory isExpanded
        · rw [update_of_ne isKey] at isIn
          apply kept.covered
          by_cases ofKey : entry.path = key
          · left
            show update sys.loadedParents key true entry.path = true
            rw [ofKey, update_self]
          · rcases sound.complete.expanded entry.path isExpanded
              ⟨parent, entry, isIn, isDirectory, rfl⟩ with isLoaded | inFlight
            · left
              show update sys.loadedParents key true entry.path = true
              rw [update_of_ne ofKey]
              exact isLoaded
            · exact .inr (remains entry.path ofKey inFlight)
  · rw [if_neg (show (sys.answered index _).rootPath ≠ some rootPath from isRoot)]
    refine sound.answered isRequest fun path other isOther isSame => isRoot ?_
    rw [(Request.children.inj isSame).1]
    exact isOther

theorem Sound.deepLoaded (sound : Sound sys) {listing : Option DeepDirectoryListing}
    (isRequest : sys.requests[index]? = some (.deep rootPath))
    (clean : ∀ deep, listing = some deep → deep.truncated = false ∧
      ∀ entry ∈ deep.entries, entry.isDirectory = true → isInherited entry.path = false) :
    Sound ((sys.answered index (deepReturned rootPath listing)).deepLoaded rootPath
      listing) := by
  have answered : Sound (sys.answered index (deepReturned rootPath listing)) :=
    sound.answered isRequest nofun
  unfold System.deepLoaded
  cases listing with
  | none => exact answered
  | some deep =>
    dsimp only
    by_cases isRoot : sys.rootPath = some rootPath
    · rw [if_pos (show (sys.answered index _).rootPath = some rootPath from isRoot)]
      split_ifs
      · exact answered
      have isFull := deep.whole (clean deep rfl).1
      refine ⟨⟨fun other isOther parent isLoaded => ?_, fun path isExpanded _ => ?_⟩,
        fun noRoot => ?_, nofun, fun path isExpanded => ?_⟩
      · have sameRoot : rootPath = other := Option.some.inj (isRoot.symm.trans isOther)
        subst sameRoot
        apply List.mem_append_left
        refine List.mem_flatMap.mpr ⟨deep, List.mem_singleton_self _, ?_⟩
        refine List.mem_map.mpr ⟨parent, ?_, by dsimp only; rw [isFull]⟩
        rcases Bool.or_eq_true_iff.mp isLoaded with isTop | isDirectory
        · rw [of_decide_eq_true isTop]
          exact List.mem_cons_self ..
        · obtain ⟨entry, isIn, isEntry⟩ := List.any_eq_true.mp isDirectory
          obtain ⟨isDirectory, isPath⟩ := Bool.and_eq_true_iff.mp isEntry
          apply List.mem_cons_of_mem
          rw [← isFull]
          exact List.mem_map.mpr ⟨entry, List.mem_filter.mpr ⟨isIn, isDirectory⟩,
            of_decide_eq_true isPath⟩
      · left
        obtain ⟨entry, isEntry, rfl⟩ := List.mem_map.mp isExpanded
        obtain ⟨isIn, isDirectory⟩ := List.mem_filter.mp isEntry
        refine Bool.or_eq_true_iff.mpr (.inr (List.any_eq_true.mpr ⟨entry, isIn, ?_⟩))
        exact Bool.and_eq_true_iff.mpr ⟨isDirectory, decide_eq_true rfl⟩
      · exact absurd (isRoot.symm.trans noRoot) nofun
      · obtain ⟨entry, isEntry, rfl⟩ := List.mem_map.mp isExpanded
        obtain ⟨isIn, isDirectory⟩ := List.mem_filter.mp isEntry
        exact (clean deep rfl).2 entry isIn isDirectory
    · rw [if_neg (show (sys.answered index _).rootPath ≠ some rootPath from isRoot)]
      exact answered

theorem isValidParent_child {refreshed : Refreshed} {parent : Path} {child : Child}
    (isValid : refreshed.isValidParent parent = true)
    (isThere : refreshed.existingDirs (parent ++ [child.name]) = true) :
    refreshed.isValidParent (parent ++ [child.name]) = true := by
  unfold Refreshed.isValidParent at isValid ⊢
  rw [List.all_eq_true] at isValid ⊢
  intro path isPrefix
  rcases List.prefix_concat_iff.mp ((List.mem_inits _ _).mp isPrefix) with rfl | isOld
  · rw [isThere, Bool.or_true]
  · exact isValid path ((List.mem_inits _ _).mpr isOld)

theorem Sound.refreshed (sound : Sound sys) {refreshed : Refreshed}
    (isRequest : sys.requests[index]? = some (.refresh rootPath refreshed.snapshot))
    (clean : sys.rootPath = some rootPath →
      (∀ parent ∈ refreshed.snapshot, (refreshed.results parent).isSome = true) ∧
        ∀ path ∈ sys.expandedPaths, path ∉ refreshed.snapshot → InFlight sys path) :
    Sound ((sys.answered index (refreshReturned rootPath refreshed)).refreshed rootPath
      refreshed) := by
  have answered : Sound (sys.answered index (refreshReturned rootPath refreshed)) :=
    sound.answered isRequest nofun
  unfold System.refreshed
  by_cases isRoot : sys.rootPath = some rootPath
  · rw [if_pos (show (sys.answered index _).rootPath = some rootPath from isRoot)]
    obtain ⟨succeeds, unasked⟩ := clean isRoot
    refine ⟨⟨fun other isOther parent isLoaded => ?_, fun path isExpanded isListed => ?_⟩,
      fun noRoot => ?_, nofun, fun path isExpanded =>
        sound.plain path (List.mem_filter.mp isExpanded).1⟩
    · have sameRoot : rootPath = other := Option.some.inj (isRoot.symm.trans isOther)
      subst sameRoot
      apply List.mem_append_left
      dsimp only at isLoaded ⊢
      rw [if_pos isLoaded]
      obtain ⟨isAsked, _⟩ := Bool.and_eq_true_iff.mp isLoaded
      obtain ⟨isIn, isSome⟩ := Bool.and_eq_true_iff.mp isAsked
      have inSnapshot : parent ∈ refreshed.snapshot := of_decide_eq_true isIn
      refine List.mem_flatMap.mpr ⟨parent, inSnapshot, ?_⟩
      obtain ⟨children, isChildren⟩ := Option.isSome_iff_exists.mp isSome
      unfold Refreshed.entries
      rw [if_pos inSnapshot, isChildren]
      exact List.mem_singleton_self _
    · obtain ⟨wasExpanded, isThere⟩ := List.mem_filter.mp isExpanded
      obtain ⟨parent, entry, isIn, _, rfl⟩ := isListed
      dsimp only at isIn
      split_ifs at isIn with isLoaded
      · by_cases inSnapshot : entry.path ∈ refreshed.snapshot
        · left
          obtain ⟨isAsked, isValid⟩ := Bool.and_eq_true_iff.mp isLoaded
          have parentIn : parent ∈ refreshed.snapshot :=
            of_decide_eq_true (Bool.and_eq_true_iff.mp isAsked).1
          unfold Refreshed.entries at isIn
          rw [if_pos parentIn] at isIn
          obtain ⟨child, _, rfl⟩ := List.mem_map.mp isIn
          refine Bool.and_eq_true_iff.mpr ⟨Bool.and_eq_true_iff.mpr
            ⟨decide_eq_true inSnapshot, succeeds _ inSnapshot⟩, ?_⟩
          exact isValidParent_child isValid isThere
        · right
          have inFlight : InFlight (sys.answered index (refreshReturned rootPath refreshed))
              entry.path :=
            answered_inFlight isRequest (unasked _ wasExpanded inSnapshot)
              nofun
          exact inFlight
      · cases isIn
    · exact absurd (isRoot.symm.trans noRoot) nofun
  · rw [if_neg (show (sys.answered index _).rootPath ≠ some rootPath from isRoot)]
    exact answered

end

theorem step_sound [DecidableEq Root] (sound : Sound sys) {label : Label Root}
    (clean : Clean sys label) (ran : step sys label = some next) : Sound next := by
  cases label with
  | setRootPath path restored =>
    cases ran
    exact sound.setRootPath path clean
  | loadChildren key =>
    cases ran
    exact sound.loadChildren key
  | expandDirectory path =>
    cases ran
    exact sound.expandDirectory clean
  | collapseDirectory path | collapseDirectoryDeep path =>
    cases ran
    exact sound.collapse fun _ => List.mem_of_mem_filter
  | expandAll =>
    cases ran
    unfold System.expandAll
    split
    · exact sound
    · exact sound.request _
  | collapseAll =>
    cases ran
    exact sound.collapse nofun
  | refresh =>
    cases ran
    unfold System.refresh
    split
    · exact sound
    · exact sound.request _
  | childrenReply index listing =>
    simp only [step] at ran
    split at ran
    · rename_i rootPath key isRequest
      cases ran
      exact sound.childrenLoaded isRequest (clean rootPath key isRequest)
    · cases ran
  | deepReply index listing =>
    simp only [step] at ran
    split at ran
    · rename_i rootPath isRequest
      cases ran
      exact sound.deepLoaded isRequest clean
    · cases ran
  | refreshReply index results =>
    simp only [step] at ran
    split at ran
    · rename_i rootPath snapshot isRequest
      cases ran
      exact Sound.refreshed sound isRequest (clean rootPath snapshot isRequest)
    · cases ran

end

end AiTools.Grove.FileBrowserStore
