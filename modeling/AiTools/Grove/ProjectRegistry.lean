import AiTools.Grove.Config
import AiTools.Lib.Transition
import Mathlib

/-!
Contract: the registered projects over loads, registrations, removals and reorderings.
-/

namespace AiTools.Grove.ProjectRegistry

open AiTools.Grove.Config AiTools.Lib.Keyed AiTools.Lib.Transition
open List (all_cons append_nil map_append map_cons map_map mem_append mem_append_left mem_cons
  mem_cons_of_mem mem_cons_self mem_filterMap mem_map mem_map_of_mem mem_singleton nodup_cons
  nodup_nil not_mem_nil)

variable {Theme : Type}

/-- What `parse_git_url` makes of the URL of a remote. -/
structure Origin where
  url : String
  org : String
  repo : String

/-- `sources` are the directories that `scan_source_directories` finds, in its order, each with the
remote that git has for it. -/
structure Tree where
  dirs : List String
  sources : List (String × Option Origin)

def makeProjectEntry (id name : String) (origin : Origin) (sourcePath : String) : ProjectEntry where
  id := id
  name := name
  url := origin.url
  org := origin.org
  repo := origin.repo
  sourcePath := sourcePath
  worktreeOrder := []
  stackedParents := .empty
  baseBranch := none
  collapsed := false
  focused := false
  categoryId := none
  envSync := none

/-- `project_entry_from_source`, with the id that has been minted for the path. -/
def projectEntryFromSource (ids : String → String) (sourcePath : String) (origin : Origin) :
    ProjectEntry :=
  makeProjectEntry (ids sourcePath) origin.repo origin sourcePath

def Tree.looked (tree : Tree) (ids : String → String) : Looked where
  dirs := tree.dirs
  found := tree.sources.map fun source =>
    (source.1, source.2.map (projectEntryFromSource ids source.1))

/-- The config that a load returns, whether it has been saved, and what is in the file then. -/
structure Loaded (Theme : Type) where
  config : GroveConfig Theme
  writes : Bool
  file : GroveConfig Theme

def loadReconciledConfig (tree : Tree) (ids : String → String) (config : GroveConfig Theme) :
    Loaded Theme :=
  let reconciled := reconcileConfig (tree.looked ids) config
  ⟨reconciled.1, reconciled.2, if reconciled.2 then reconciled.1.written else config⟩

/-- What an outcome leaves in the file. -/
def savedOr (file : GroveConfig Theme) : Outcome Theme → GroveConfig Theme
  | .ok (some config) => config.written
  | _ => file

/-- `reorders` is history: the projects before and after. -/
structure System (Theme : Type) where
  config : GroveConfig Theme
  tree : Tree
  reorders : List (List ProjectEntry × List ProjectEntry)

inductive Label where
  | load (ids : String → String)
  | register (ids : String → String) (id name : String) (origin : Origin) (sourcePath : String)
  | remove (projectId : String) (managedSourceDir : ProjectEntry → Except String Unit)
  | reorder (ids : String → String) (projectIds : List String)
  | disk (tree : Tree)

namespace System

variable (sys : System Theme)

def loaded (ids : String → String) : Loaded Theme :=
  loadReconciledConfig sys.tree ids sys.config

def load (ids : String → String) : System Theme :=
  { sys with config := (sys.loaded ids).file }

def register (ids : String → String) (entry : ProjectEntry) : System Theme :=
  let loaded := sys.loaded ids
  { sys with config := savedOr loaded.file (loaded.config.registerProjectEntry entry) }

/-- The entries are loaded as they are. -/
def remove (projectId : String) (managedSourceDir : ProjectEntry → Except String Unit) :
    System Theme :=
  { sys with
    config := savedOr sys.config (sys.config.removeProject projectId managedSourceDir) }

def reorder (ids : String → String) (projectIds : List String) : System Theme :=
  let loaded := sys.loaded ids
  let config := savedOr loaded.file (loaded.config.reorderProjects projectIds)
  { sys with
    config
    reorders := (loaded.config.projects, config.projects) :: sys.reorders }

end System

def step (sys : System Theme) : Label → Option (System Theme)
  | .load ids => some (sys.load ids)
  | .register ids id name origin sourcePath =>
    some (sys.register ids (makeProjectEntry id name origin sourcePath))
  | .remove projectId managedSourceDir => some (sys.remove projectId managedSourceDir)
  | .reorder ids projectIds => some (sys.reorder ids projectIds)
  | .disk tree => some { sys with tree }

def opened (config : GroveConfig Theme) (tree : Tree) : System Theme := ⟨config, tree, []⟩

def pathKey (entry : ProjectEntry) : String := normalizeSourcePath entry.sourcePath

def urlKey (entry : ProjectEntry) : String := normalizeProjectUrl entry.url

structure Distinct (entries : List ProjectEntry) : Prop where
  paths : (entries.map pathKey).Nodup
  urls : (entries.map urlKey).Nodup

/-- The stored entries come first, as they are and in their order, and then the sources. -/
structure FromStored (tree : Tree) (ids : String → String)
    (stored entries : List ProjectEntry) : Prop where
  parts : ∃ kept added, entries = kept ++ added ∧ kept.Sublist stored ∧
    ∀ entry ∈ added, ∃ source ∈ tree.sources, ∃ origin, source.2 = some origin ∧
      entry = projectEntryFromSource ids source.1 origin
  survives : Distinct stored → ∀ entry ∈ stored, entry.sourcePath ∈ tree.dirs → entry ∈ entries

structure Reconciled (tree : Tree) (config : GroveConfig Theme) (ids later : String → String) :
    Prop where
  distinct : Distinct (loadReconciledConfig tree ids config).config.projects
  fromStored : FromStored tree ids config.projects
    (loadReconciledConfig tree ids config).config.projects
  sameAgain :
    (loadReconciledConfig tree later (loadReconciledConfig tree ids config).file).config.projects =
      (loadReconciledConfig tree ids config).config.projects
  idle :
    (loadReconciledConfig tree later (loadReconciledConfig tree ids config).file).writes = false

structure RegistryKept (sys : System Theme) : Prop where
  reconciled : ∀ ids later, Reconciled sys.tree sys.config ids later
  reordered : ∀ reorder ∈ sys.reorders, reorder.2.Perm reorder.1

def Uncategorized (config : GroveConfig Theme) (entry : ProjectEntry) : Prop :=
  normalizeProjectCategoryId entry.categoryId (availableProjectCategoryIds config) ≠
    entry.categoryId

/-- The paths of the sources are names of directories, a stored entry that repeats the URL of
another has it from its directory, and one normalization of the preferences and the categories
is enough. -/
structure Steady (tree : Tree) (config : GroveConfig Theme) : Prop where
  readable : ∀ source ∈ tree.sources, source.2.isSome = true → source.1 ∈ tree.dirs
  repeated : ∀ before entry after, config.projects = before ++ entry :: after →
    entry.sourcePath ∈ tree.dirs →
      (∃ other ∈ before, other.sourcePath ∈ tree.dirs ∧ urlKey other = urlKey entry) →
        ∀ source ∈ tree.sources, ∀ origin, source.2 = some origin →
          normalizeSourcePath source.1 = pathKey entry →
            normalizeProjectUrl origin.url = urlKey entry
  preferences : ∀ preferences, config.preferences = some preferences →
    preferences.normalized.normalized = preferences.normalized
  categories : ∀ entry ∈ config.projects, entry.sourcePath ∈ tree.dirs → ¬Uncategorized config entry

/-- The ids that are stored, and those minted for the sources. -/
def knownIds (sys : System Theme) (ids : String → String) : List String :=
  sys.config.projects.map ProjectEntry.id ++ sys.tree.sources.map fun source => ids source.1

/-- Each known id names one project, and is given once. -/
def Orderly (known projectIds : List String) : Prop :=
  (projectIds.filter (· ∈ known)).Nodup ∧ ∀ id ∈ projectIds, known.count id ≤ 1

def Clean (sys : System Theme) : Label → Prop
  | .remove _ _ => (sys.config.projects.map urlKey).Nodup
  | .reorder ids projectIds => Orderly (knownIds sys ids) projectIds
  | .disk tree => Steady tree sys.config
  | _ => True

/-! ## Entries that are kept -/

section
variable {looked : Looked}

theorem keepEntries_sublist (entries : List ProjectEntry) : ∀ seen : Seen,
    (keepEntries looked seen entries).1.Sublist entries := by
  induction entries with
  | nil => exact fun _ => .slnil
  | cons entry rest ih =>
    intro seen
    rw [keepEntries]
    dsimp only
    split_ifs
    · exact (ih _).cons entry
    · exact (ih _).cons entry
    · exact (ih _).cons_cons entry

variable (looked) in
theorem keepEntries_seen (entries : List ProjectEntry) : ∀ seen : Seen,
    seen.paths ⊆ (keepEntries looked seen entries).2.paths ∧
      seen.urls ⊆ (keepEntries looked seen entries).2.urls := by
  induction entries with
  | nil => exact fun _ => ⟨List.Subset.refl _, List.Subset.refl _⟩
  | cons entry rest ih =>
    intro seen
    rw [keepEntries]
    dsimp only
    split_ifs
    · exact ih seen
    · obtain ⟨paths, urls⟩ := ih
        { seen with paths := normalizeSourcePath entry.sourcePath :: seen.paths }
      exact ⟨fun path isIn => paths (mem_cons_of_mem _ isIn), urls⟩
    · obtain ⟨paths, urls⟩ := ih
        ⟨normalizeSourcePath entry.sourcePath :: seen.paths,
          normalizeProjectUrl entry.url :: seen.urls⟩
      exact ⟨fun path isIn => paths (mem_cons_of_mem _ isIn),
        fun url isIn => urls (mem_cons_of_mem _ isIn)⟩

variable (looked) in
theorem keepEntries_kept (entries : List ProjectEntry) : ∀ seen : Seen,
    ∀ entry ∈ (keepEntries looked seen entries).1, entry.sourcePath ∈ looked.dirs ∧
      pathKey entry ∉ seen.paths ∧ urlKey entry ∉ seen.urls ∧
        pathKey entry ∈ (keepEntries looked seen entries).2.paths ∧
          urlKey entry ∈ (keepEntries looked seen entries).2.urls := by
  induction entries with
  | nil => exact fun _ entry isIn => by cases isIn
  | cons entry rest ih =>
    intro seen other
    rw [keepEntries]
    dsimp only
    split_ifs with isDropped isRepeated
    · exact ih seen other
    · intro isIn
      obtain ⟨isDir, newPath, isNew⟩ := ih
        { seen with paths := normalizeSourcePath entry.sourcePath :: seen.paths } other isIn
      exact ⟨isDir, fun isOld => newPath (mem_cons_of_mem _ isOld), isNew⟩
    · intro isIn
      rw [not_or, not_not] at isDropped
      have seenLater := keepEntries_seen looked rest
        ⟨normalizeSourcePath entry.sourcePath :: seen.paths,
          normalizeProjectUrl entry.url :: seen.urls⟩
      rcases mem_cons.mp isIn with rfl | isLater
      · exact ⟨isDropped.1, isDropped.2, isRepeated, seenLater.1 (mem_cons_self ..),
          seenLater.2 (mem_cons_self ..)⟩
      · obtain ⟨isDir, newPath, newUrl, isSeen⟩ := ih
          ⟨normalizeSourcePath entry.sourcePath :: seen.paths,
            normalizeProjectUrl entry.url :: seen.urls⟩ other isLater
        exact ⟨isDir, fun isOld => newPath (mem_cons_of_mem _ isOld),
          fun isOld => newUrl (mem_cons_of_mem _ isOld), isSeen⟩

variable (looked) in
theorem keepEntries_distinct (entries : List ProjectEntry) : ∀ seen : Seen,
    Distinct (keepEntries looked seen entries).1 := by
  induction entries with
  | nil => exact fun _ => ⟨nodup_nil, nodup_nil⟩
  | cons entry rest ih =>
    intro seen
    rw [keepEntries]
    dsimp only
    split_ifs
    · exact ih seen
    · exact ih _
    · have isNew := keepEntries_kept looked rest
        ⟨normalizeSourcePath entry.sourcePath :: seen.paths,
          normalizeProjectUrl entry.url :: seen.urls⟩
      have kept := ih
        ⟨normalizeSourcePath entry.sourcePath :: seen.paths,
          normalizeProjectUrl entry.url :: seen.urls⟩
      refine ⟨nodup_cons.mpr ⟨?_, kept.paths⟩, nodup_cons.mpr ⟨?_, kept.urls⟩⟩
      · intro isOld
        obtain ⟨other, isIn, samePath⟩ := mem_map.mp isOld
        exact (isNew other isIn).2.1 (samePath ▸ mem_cons_self ..)
      · intro isOld
        obtain ⟨other, isIn, sameUrl⟩ := mem_map.mp isOld
        exact (isNew other isIn).2.2.1 (sameUrl ▸ mem_cons_self ..)

theorem keepEntries_urls (entries : List ProjectEntry) : ∀ seen : Seen,
    ∀ url ∈ (keepEntries looked seen entries).2.urls, url ∈ seen.urls ∨
      ∃ entry ∈ (keepEntries looked seen entries).1, urlKey entry = url := by
  induction entries with
  | nil => exact fun _ url isIn => .inl isIn
  | cons entry rest ih =>
    intro seen url
    rw [keepEntries]
    dsimp only
    split_ifs
    · exact ih seen url
    · exact ih
        { seen with paths := normalizeSourcePath entry.sourcePath :: seen.paths } url
    · intro isIn
      rcases ih _ url isIn with isOld | ⟨other, isKept, sameUrl⟩
      · rcases mem_cons.mp isOld with rfl | isOlder
        · exact .inr ⟨entry, mem_cons_self .., rfl⟩
        · exact .inl isOlder
      · exact .inr ⟨other, mem_cons_of_mem _ isKept, sameUrl⟩

/-- A path that has been seen is that of an entry that is kept, or of one that has gone for its
URL. -/
theorem keepEntries_paths (before : List ProjectEntry) (entries : List ProjectEntry) :
    ∀ seen : Seen, (∀ url ∈ seen.urls, ∃ other ∈ before, other.sourcePath ∈ looked.dirs ∧
        urlKey other = url) →
      ∀ path ∈ (keepEntries looked seen entries).2.paths, path ∈ seen.paths ∨
        (∃ entry ∈ (keepEntries looked seen entries).1, pathKey entry = path) ∨
          ∃ early entry late, entries = early ++ entry :: late ∧
            entry.sourcePath ∈ looked.dirs ∧ pathKey entry = path ∧
              urlKey entry ∈ (keepEntries looked seen entries).2.urls ∧
                ∃ other ∈ before ++ early, other.sourcePath ∈ looked.dirs ∧
                  urlKey other = urlKey entry := by
  induction entries generalizing before with
  | nil => exact fun _ _ path isIn => .inl isIn
  | cons entry rest ih =>
    intro seen isSeen path
    have later : ∀ url ∈ seen.urls, ∃ other ∈ before ++ [entry],
        other.sourcePath ∈ looked.dirs ∧ urlKey other = url := by
      intro url isIn
      obtain ⟨other, isBefore, isOther⟩ := isSeen url isIn
      exact ⟨other, mem_append_left _ isBefore, isOther⟩
    have regroup : ∀ early : List ProjectEntry,
        before ++ [entry] ++ early = before ++ entry :: early := fun early =>
      List.append_assoc before [entry] early
    rw [keepEntries]
    dsimp only
    split_ifs with isDropped isRepeated
    · intro isIn
      rcases ih (before ++ [entry]) seen later path isIn with
        isOld | isKept | ⟨early, gone, late, rfl, isGone⟩
      · exact .inl isOld
      · exact .inr (.inl isKept)
      · rw [regroup] at isGone
        exact .inr (.inr ⟨entry :: early, gone, late, rfl, isGone⟩)
    · intro isIn
      rw [not_or, not_not] at isDropped
      rcases ih (before ++ [entry])
        { seen with paths := normalizeSourcePath entry.sourcePath :: seen.paths } later path
          isIn with isOld | isKept | ⟨early, gone, late, rfl, isGone⟩
      · rcases mem_cons.mp isOld with rfl | isOlder
        · right; right
          obtain ⟨other, isBefore, isOther⟩ := isSeen _ isRepeated
          refine ⟨[], entry, rest, rfl, isDropped.1, rfl, ?_, other, ?_, isOther⟩
          · exact (keepEntries_seen looked rest _).2 isRepeated
          · rw [append_nil]
            exact isBefore
        · exact .inl isOlder
      · exact .inr (.inl isKept)
      · rw [regroup] at isGone
        exact .inr (.inr ⟨entry :: early, gone, late, rfl, isGone⟩)
    · intro isIn
      rw [not_or, not_not] at isDropped
      have alsoEntry : ∀ url ∈ normalizeProjectUrl entry.url :: seen.urls,
          ∃ other ∈ before ++ [entry], other.sourcePath ∈ looked.dirs ∧ urlKey other = url := by
        intro url isIn
        rcases mem_cons.mp isIn with rfl | isOld
        · exact ⟨entry, List.mem_append_right _ (mem_cons_self ..), isDropped.1, rfl⟩
        · exact later url isOld
      rcases ih (before ++ [entry]) _ alsoEntry path isIn with
        isOld | ⟨other, isKept, samePath⟩ | ⟨early, gone, late, rfl, isGone⟩
      · rcases mem_cons.mp isOld with rfl | isOlder
        · exact .inr (.inl ⟨entry, mem_cons_self .., rfl⟩)
        · exact .inl isOlder
      · exact .inr (.inl ⟨other, mem_cons_of_mem _ isKept, samePath⟩)
      · rw [regroup] at isGone
        exact .inr (.inr ⟨entry :: early, gone, late, rfl, isGone⟩)

theorem keepEntries_all (entries : List ProjectEntry) : ∀ seen : Seen, Distinct entries →
    (∀ entry ∈ entries, pathKey entry ∉ seen.paths ∧ urlKey entry ∉ seen.urls) →
      (keepEntries looked seen entries).1 = entries.filter (·.sourcePath ∈ looked.dirs) := by
  induction entries with
  | nil => exact fun _ _ _ => rfl
  | cons entry rest ih =>
    intro seen distinct isNew
    obtain ⟨newPath, restPaths⟩ := nodup_cons.mp distinct.paths
    obtain ⟨newUrl, restUrls⟩ := nodup_cons.mp distinct.urls
    have restNew : ∀ other ∈ rest, pathKey other ∉ seen.paths ∧ urlKey other ∉ seen.urls :=
      fun other isIn => isNew other (mem_cons_of_mem _ isIn)
    obtain ⟨entryPath, entryUrl⟩ := isNew entry (mem_cons_self ..)
    unfold urlKey at entryUrl
    rw [keepEntries]
    dsimp only
    by_cases isDir : entry.sourcePath ∈ looked.dirs
    · rw [if_neg (by rintro (noDir | isOld); exacts [noDir isDir, entryPath isOld]),
        if_neg entryUrl, List.filter_cons_of_pos (by simpa using isDir)]
      refine congrArg (entry :: ·) (ih _ ⟨restPaths, restUrls⟩ ?_)
      intro other isIn
      obtain ⟨otherPath, otherUrl⟩ := restNew other isIn
      refine ⟨?_, ?_⟩
      · rintro isOld
        rcases mem_cons.mp isOld with same | isOlder
        · exact newPath (mem_map.mpr ⟨other, isIn, same⟩)
        · exact otherPath isOlder
      · rintro isOld
        rcases mem_cons.mp isOld with same | isOlder
        · exact newUrl (mem_map.mpr ⟨other, isIn, same⟩)
        · exact otherUrl isOlder
    · rw [if_pos (.inl isDir), List.filter_cons_of_neg (by simpa using isDir)]
      exact ih seen ⟨restPaths, restUrls⟩ restNew

end

/-! ## Entries that are added -/

/-- The entries that a scan has found lie where they have been found. -/
def Named (found : List (String × Option ProjectEntry)) : Prop :=
  ∀ sourcePath entry, (sourcePath, some entry) ∈ found → entry.sourcePath = sourcePath

theorem Named.rest {source : String × Option ProjectEntry}
    {rest : List (String × Option ProjectEntry)} (named : Named (source :: rest)) : Named rest :=
  fun sourcePath entry isIn => named sourcePath entry (mem_cons_of_mem _ isIn)

theorem addFound_sublist (found : List (String × Option ProjectEntry)) : ∀ seen : Seen,
    (addFound seen found).Sublist (found.filterMap Prod.snd) := by
  induction found with
  | nil => exact fun _ => .slnil
  | cons source rest ih =>
    intro seen
    obtain ⟨sourcePath, found⟩ := source
    cases found with
    | none =>
      rw [addFound, List.filterMap_cons_none rfl]
      exact ih seen
    | some entry =>
      show List.Sublist _ (entry :: rest.filterMap Prod.snd)
      rw [addFound]
      split_ifs
      · exact (ih seen).cons entry
      · exact (ih _).cons_cons entry

theorem addFound_new (found : List (String × Option ProjectEntry)) (named : Named found) :
    ∀ seen : Seen, Distinct (addFound seen found) ∧
      ∀ entry ∈ addFound seen found, pathKey entry ∉ seen.paths ∧ urlKey entry ∉ seen.urls := by
  induction found with
  | nil => exact fun _ => ⟨⟨nodup_nil, nodup_nil⟩, nofun⟩
  | cons source rest ih =>
    intro seen
    obtain ⟨sourcePath, found⟩ := source
    cases found with
    | none => exact ih named.rest seen
    | some entry =>
      have isHere : entry.sourcePath = sourcePath := named _ _ (mem_cons_self ..)
      subst isHere
      rw [addFound]
      split_ifs with isSeen
      · exact ih named.rest seen
      · rw [not_or] at isSeen
        obtain ⟨distinct, isNew⟩ := ih named.rest
          ⟨normalizeSourcePath entry.sourcePath :: seen.paths,
            normalizeProjectUrl entry.url :: seen.urls⟩
        refine ⟨⟨nodup_cons.mpr ⟨?_, distinct.paths⟩,
          nodup_cons.mpr ⟨?_, distinct.urls⟩⟩, ?_⟩
        · intro isOld
          obtain ⟨other, isIn, samePath⟩ := mem_map.mp isOld
          exact (isNew other isIn).1 (samePath ▸ mem_cons_self ..)
        · intro isOld
          obtain ⟨other, isIn, sameUrl⟩ := mem_map.mp isOld
          exact (isNew other isIn).2 (sameUrl ▸ mem_cons_self ..)
        · intro other isIn
          rcases mem_cons.mp isIn with rfl | isLater
          · exact isSeen
          · obtain ⟨newPath, newUrl⟩ := isNew other isLater
            exact ⟨fun isOld => newPath (mem_cons_of_mem _ isOld),
              fun isOld => newUrl (mem_cons_of_mem _ isOld)⟩

theorem addFound_covers (found : List (String × Option ProjectEntry)) (named : Named found) :
    ∀ seen : Seen, ∀ sourcePath entry, (sourcePath, some entry) ∈ found →
      pathKey entry ∈ seen.paths ∨ urlKey entry ∈ seen.urls ∨
        ∃ other ∈ addFound seen found, pathKey other = pathKey entry ∨
          urlKey other = urlKey entry := by
  induction found with
  | nil => exact fun _ _ _ isIn => by cases isIn
  | cons source rest ih =>
    intro seen sourcePath entry isIn
    obtain ⟨firstPath, first⟩ := source
    cases first with
    | none =>
      rcases mem_cons.mp isIn with isFirst | isLater
      · cases isFirst
      · exact ih named.rest seen sourcePath entry isLater
    | some first =>
      have isHere : first.sourcePath = firstPath := named _ _ (mem_cons_self ..)
      subst isHere
      rw [addFound]
      split_ifs with isSeen
      · rcases mem_cons.mp isIn with isFirst | isLater
        · cases isFirst
          exact isSeen.elim .inl fun isOld => .inr (.inl isOld)
        · exact ih named.rest seen sourcePath entry isLater
      · rcases mem_cons.mp isIn with isFirst | isLater
        · cases isFirst
          exact .inr (.inr ⟨entry, mem_cons_self .., .inl rfl⟩)
        · rcases ih named.rest
            ⟨normalizeSourcePath first.sourcePath :: seen.paths,
              normalizeProjectUrl first.url :: seen.urls⟩ sourcePath entry isLater with
            isOld | isOld | ⟨other, isAdded, same⟩
          · rcases mem_cons.mp isOld with same | isOlder
            · exact .inr (.inr ⟨first, mem_cons_self .., .inl same.symm⟩)
            · exact .inl isOlder
          · rcases mem_cons.mp isOld with same | isOlder
            · exact .inr (.inr ⟨first, mem_cons_self .., .inr same.symm⟩)
            · exact .inr (.inl isOlder)
          · exact .inr (.inr ⟨other, mem_cons_of_mem _ isAdded, same⟩)

theorem addFound_none (found : List (String × Option ProjectEntry)) (named : Named found)
    (seen : Seen) (isSeen : ∀ sourcePath entry, (sourcePath, some entry) ∈ found →
      pathKey entry ∈ seen.paths ∨ urlKey entry ∈ seen.urls) : addFound seen found = [] := by
  induction found with
  | nil => rfl
  | cons source rest ih =>
    obtain ⟨firstPath, first⟩ := source
    have restSeen := ih named.rest fun sourcePath entry isIn =>
      isSeen sourcePath entry (mem_cons_of_mem _ isIn)
    cases first with
    | none => exact restSeen
    | some first =>
      have isHere : first.sourcePath = firstPath := named _ _ (mem_cons_self ..)
      subst isHere
      rw [addFound]
      have firstSeen := isSeen _ first (mem_cons_self ..)
      unfold pathKey urlKey at firstSeen
      rw [if_pos firstSeen]
      exact restSeen

section
variable {tree : Tree} {ids : String → String} {config : GroveConfig Theme}
variable {sourcePath : String} {entry : ProjectEntry} {later : String → String}
  {preferences : GrovePreferences} {other : GroveConfig Theme}

theorem mem_found (isIn : (sourcePath, some entry) ∈ (tree.looked ids).found) :
    ∃ source ∈ tree.sources, ∃ origin, source.2 = some origin ∧ source.1 = sourcePath ∧
      entry = projectEntryFromSource ids source.1 origin := by
  obtain ⟨source, isSource, isFound⟩ := mem_map.mp isIn
  obtain ⟨isPath, isEntry⟩ := Prod.mk.inj isFound
  obtain ⟨origin, isOrigin, madeOf⟩ := Option.map_eq_some_iff.mp isEntry
  exact ⟨source, isSource, origin, isOrigin, isPath, madeOf.symm⟩

theorem looked_named : Named (tree.looked ids).found := by
  intro sourcePath entry isIn
  obtain ⟨source, _, origin, _, rfl, rfl⟩ := mem_found isIn
  rfl

variable (ids) in
theorem mem_found_again (isIn : (sourcePath, some entry) ∈ (tree.looked later).found) :
    ∃ before, (sourcePath, some before) ∈ (tree.looked ids).found ∧
      pathKey before = pathKey entry ∧ urlKey before = urlKey entry := by
  obtain ⟨source, isSource, origin, isOrigin, rfl, rfl⟩ := mem_found isIn
  refine ⟨projectEntryFromSource ids source.1 origin, ?_, rfl, rfl⟩
  refine mem_map.mpr ⟨source, isSource, ?_⟩
  rw [isOrigin]
  rfl

variable (tree ids) in
theorem reconcile_distinct (entries : List ProjectEntry) :
    Distinct (reconcileProjectEntries (tree.looked ids) entries) := by
  have kept := keepEntries_distinct (tree.looked ids) entries ⟨[], []⟩
  have isKept := keepEntries_kept (tree.looked ids) entries ⟨[], []⟩
  obtain ⟨added, isAdded⟩ := addFound_new (tree.looked ids).found looked_named
    (keepEntries (tree.looked ids) ⟨[], []⟩ entries).2
  unfold reconcileProjectEntries
  constructor
  · rw [map_append]
    refine kept.paths.append added.paths fun path isOld isNew => ?_
    obtain ⟨old, isOldIn, rfl⟩ := mem_map.mp isOld
    obtain ⟨new, isNewIn, samePath⟩ := mem_map.mp isNew
    exact (isAdded new isNewIn).1 (samePath ▸ (isKept old isOldIn).2.2.2.1)
  · rw [map_append]
    refine kept.urls.append added.urls fun url isOld isNew => ?_
    obtain ⟨old, isOldIn, rfl⟩ := mem_map.mp isOld
    obtain ⟨new, isNewIn, sameUrl⟩ := mem_map.mp isNew
    exact (isAdded new isNewIn).2 (sameUrl ▸ (isKept old isOldIn).2.2.2.2)

theorem reconcile_fromStored (entries : List ProjectEntry) :
    FromStored tree ids entries (reconcileProjectEntries (tree.looked ids) entries) := by
  refine ⟨⟨_, _, rfl, keepEntries_sublist entries _, fun entry isIn => ?_⟩,
    fun distinct entry isIn isDir => ?_⟩
  · have isFound := (addFound_sublist (tree.looked ids).found _).subset isIn
    obtain ⟨⟨sourcePath, found⟩, isIn, isEntry⟩ := mem_filterMap.mp isFound
    cases isEntry
    obtain ⟨source, isSource, origin, isOrigin, _, madeOf⟩ := mem_found isIn
    exact ⟨source, isSource, origin, isOrigin, madeOf⟩
  · apply mem_append_left
    rw [keepEntries_all entries _ distinct fun _ _ => ⟨not_mem_nil, not_mem_nil⟩]
    exact List.mem_filter.mpr ⟨isIn, decide_eq_true isDir⟩

/-- The entries have their directories and are distinct, nothing of the tree is missing, and
preferences and categories are normalized. -/
structure Settled (tree : Tree) (config : GroveConfig Theme) : Prop where
  dirs : ∀ entry ∈ config.projects, entry.sourcePath ∈ tree.dirs
  distinct : Distinct config.projects
  covers : ∀ ids : String → String, ∀ sourcePath entry,
    (sourcePath, some entry) ∈ (tree.looked ids).found →
      pathKey entry ∈ config.projects.map pathKey ∨ urlKey entry ∈ config.projects.map urlKey
  preferences : ∀ preferences, config.preferences = some preferences →
    preferences.withoutLegacy = preferences.normalized
  categories : ∀ entry ∈ config.projects, ¬Uncategorized config entry

theorem sameProjectEntries_self (entries : List ProjectEntry) :
    sameProjectEntries entries entries = true := by
  unfold sameProjectEntries
  rw [decide_eq_true rfl, Bool.true_and]
  induction entries with
  | nil => rfl
  | cons entry rest ih =>
    rw [List.zip_cons_cons, all_cons, ih]
    simp [sameProjectEntry]

theorem keys_of_sameProjectEntries : ∀ {left right : List ProjectEntry},
    sameProjectEntries left right = true →
      left.map ProjectEntry.sourcePath = right.map ProjectEntry.sourcePath ∧
        left.map ProjectEntry.url = right.map ProjectEntry.url
  | [], [], _ => ⟨rfl, rfl⟩
  | [], _ :: _, same => by simp [sameProjectEntries] at same
  | _ :: _, [], same => by simp [sameProjectEntries] at same
  | first :: left, second :: right, same => by
    simp only [sameProjectEntries, List.length_cons, List.zip_cons_cons, all_cons,
      Bool.and_eq_true, decide_eq_true_eq, sameProjectEntry] at same
    obtain ⟨sameLength, ⟨⟨⟨⟨⟨_, _⟩, sameUrl⟩, _⟩, _⟩, samePath⟩, sameRest⟩ := same
    have rest : sameProjectEntries left right = true := by
      simp only [sameProjectEntries, Bool.and_eq_true, decide_eq_true_eq]
      exact ⟨by omega, sameRest⟩
    obtain ⟨paths, urls⟩ := keys_of_sameProjectEntries rest
    rw [map_cons, map_cons, map_cons, map_cons, sameUrl, samePath, paths, urls]
    exact ⟨rfl, rfl⟩

theorem withoutLegacy_twice (steady : preferences.normalized.normalized = preferences.normalized) :
    preferences.withoutLegacy.normalized.normalized = preferences.withoutLegacy.normalized := by
  have sameOrder := congrArg GrovePreferences.projectOrgOrder steady
  have sameGitGui := congrArg GrovePreferences.gitGuiMenuItems steady
  have sameIde := congrArg GrovePreferences.ideMenuItems steady
  have sameCategories := congrArg GrovePreferences.projectCategories steady
  unfold GrovePreferences.normalized at sameOrder sameGitGui sameIde sameCategories ⊢
  unfold GrovePreferences.withoutLegacy
  dsimp only at sameOrder sameGitGui sameIde sameCategories ⊢
  rw [sameOrder, sameGitGui, sameCategories]
  by_cases noItems : preferences.ideMenuItems = []
  · rw [if_pos noItems]
    rfl
  · rw [if_neg noItems] at sameIde ⊢
    by_cases noneLeft : normalizeMenuItems isSupportedIdeMenuItemId preferences.ideMenuItems = []
    · simp only [noneLeft, ↓reduceIte]
      rfl
    · rw [if_neg noneLeft] at sameIde ⊢
      rw [sameIde]

theorem reconcile_preferences (looked : Looked) (config : GroveConfig Theme) :
    (reconcileConfig looked config).1.preferences.map GrovePreferences.withoutLegacy =
      config.preferences.map GrovePreferences.normalized := by
  show Option.map _ (if (config.preferences.any fun stored =>
    !stored.same (config.preferences.getD .default).normalized) = true
      then some (config.preferences.getD .default).normalized else config.preferences) = _
  cases config.preferences with
  | none => rfl
  | some preferences =>
    show Option.map _ (if (!preferences.same preferences.normalized) = true
      then some preferences.normalized else some preferences) = some preferences.normalized
    split_ifs with isChanged
    · rfl
    · rw [Bool.not_eq_true, Bool.not_eq_false'] at isChanged
      exact congrArg some (of_decide_eq_true isChanged)

/-- Preferences that are normal but for the legacy field are normalized at once. -/
theorem normalized_twice (same : preferences.withoutLegacy = preferences.normalized) :
    preferences.normalized.normalized = preferences.normalized := by
  rw [← same]
  have sameIde := congrArg GrovePreferences.ideMenuItems same
  have isNormalized : preferences.withoutLegacy.normalized = preferences.normalized := by
    unfold GrovePreferences.normalized at sameIde ⊢
    unfold GrovePreferences.withoutLegacy at sameIde ⊢
    dsimp only at sameIde ⊢
    by_cases noItems : preferences.ideMenuItems = []
    · rw [if_pos noItems] at sameIde ⊢
      rw [if_pos noItems, ← sameIde, noItems]
      rfl
    · rw [if_neg noItems, if_neg noItems]
  exact isNormalized.trans same.symm

theorem availableIds_normalized
    (isNormalized : other.preferences = config.preferences.map GrovePreferences.normalized)
    (steady : ∀ preferences, config.preferences = some preferences →
      preferences.normalized.normalized = preferences.normalized) :
    availableProjectCategoryIds other = availableProjectCategoryIds config := by
  unfold availableProjectCategoryIds
  rw [isNormalized]
  cases isStored : config.preferences with
  | none => rfl
  | some preferences =>
    show preferences.normalized.normalized.projectCategories.map _ = _
    rw [steady preferences isStored]
    rfl

theorem uncategorized_congr
    (sameIds : availableProjectCategoryIds other = availableProjectCategoryIds config)
    (entry : ProjectEntry) : Uncategorized other entry ↔ Uncategorized config entry := by
  unfold Uncategorized
  rw [sameIds]

theorem reconcileProjectCategories_changed (config : GroveConfig Theme) :
    (reconcileProjectCategories config).2 = false ↔
      (∀ preferences, config.preferences = some preferences →
        preferences.withoutLegacy = preferences.normalized) ∧
          ∀ entry ∈ config.projects, ¬Uncategorized config entry := by
  unfold reconcileProjectCategories
  dsimp only
  rw [Bool.or_eq_false_iff]
  refine and_congr ?_ ?_
  · cases config.preferences with
    | none => simp
    | some preferences =>
      simp only [Option.any_some, Option.getD_some, Bool.not_eq_false', GrovePreferences.same,
        decide_eq_true_eq, Option.some.injEq, forall_eq']
      exact Iff.rfl
  · rw [List.any_eq_false]
    refine forall_congr' fun entry => forall_congr' fun _ => ?_
    unfold Uncategorized availableProjectCategoryIds
    rw [decide_eq_true_eq, ne_comm]

theorem Settled.projects (settled : Settled tree config) (ids : String → String) :
    reconcileProjectEntries (tree.looked ids) config.projects = config.projects := by
  have isKept : (keepEntries (tree.looked ids) ⟨[], []⟩ config.projects).1 = config.projects := by
    rw [keepEntries_all config.projects _ settled.distinct fun _ _ =>
      ⟨not_mem_nil, not_mem_nil⟩]
    exact List.filter_eq_self.mpr fun entry isIn => decide_eq_true (settled.dirs entry isIn)
  have isSeen := keepEntries_kept (tree.looked ids) config.projects ⟨[], []⟩
  rw [isKept] at isSeen
  unfold reconcileProjectEntries
  dsimp only
  rw [isKept, addFound_none _ looked_named, append_nil]
  intro sourcePath entry isFound
  rcases settled.covers ids sourcePath entry isFound with isPath | isUrl
  · obtain ⟨other, isIn, samePath⟩ := mem_map.mp isPath
    exact .inl (samePath ▸ (isSeen other isIn).2.2.2.1)
  · obtain ⟨other, isIn, sameUrl⟩ := mem_map.mp isUrl
    exact .inr (sameUrl ▸ (isSeen other isIn).2.2.2.2)

theorem categorized_projects (config : GroveConfig Theme)
    (categories : ∀ entry ∈ config.projects, ¬Uncategorized config entry) :
    (reconcileProjectCategories config).1.projects = config.projects := by
  refine (List.map_congr_left fun entry isIn => ?_).trans (List.map_id _)
  exact congrArg (fun categoryId => { entry with categoryId })
    (not_not.mp (categories entry isIn))

theorem Settled.idle (settled : Settled tree config) (ids : String → String) :
    (loadReconciledConfig tree ids config).writes = false := by
  have unchanged := (reconcileProjectCategories_changed config).mpr
    ⟨settled.preferences, settled.categories⟩
  show (!sameProjectEntries (reconcileProjectCategories config).1.projects
    (reconcileProjectEntries (tree.looked ids) config.projects) ||
      (reconcileProjectCategories config).2) = false
  rw [categorized_projects config settled.categories, settled.projects ids,
    sameProjectEntries_self, unchanged]
  rfl

theorem repeated_of_nodup {entries : List ProjectEntry} (urls : (entries.map urlKey).Nodup)
    (before : List ProjectEntry) (entry : ProjectEntry) (after : List ProjectEntry)
    (isSplit : entries = before ++ entry :: after) (_ : entry.sourcePath ∈ tree.dirs)
    (isRepeated : ∃ other ∈ before, other.sourcePath ∈ tree.dirs ∧ urlKey other = urlKey entry) :
    ∀ source ∈ tree.sources, ∀ origin, source.2 = some origin →
      normalizeSourcePath source.1 = pathKey entry →
        normalizeProjectUrl origin.url = urlKey entry := by
  obtain ⟨other, isBefore, _, sameUrl⟩ := isRepeated
  rw [isSplit, map_append] at urls
  exact absurd sameUrl ((List.nodup_append.mp urls).2.2 _ (mem_map_of_mem isBefore) _
    (mem_map_of_mem (mem_cons_self ..)))

theorem Settled.steady (settled : Settled tree config)
    (readable : ∀ source ∈ tree.sources, source.2.isSome = true → source.1 ∈ tree.dirs) :
    Steady tree config where
  readable := readable
  repeated := repeated_of_nodup settled.distinct.urls
  preferences := fun preferences isStored =>
    normalized_twice (settled.preferences preferences isStored)
  categories := fun entry isIn _ => settled.categories entry isIn

/-! ### A first load -/

variable (ids) in
theorem Steady.reconcile_dirs (steady : Steady tree config) :
    ∀ entry ∈ reconcileProjectEntries (tree.looked ids) config.projects,
      entry.sourcePath ∈ tree.dirs := by
  intro entry isIn
  rcases mem_append.mp isIn with isKept | isAdded
  · exact (keepEntries_kept _ config.projects _ entry isKept).1
  · have isFound := (addFound_sublist (tree.looked ids).found _).subset isAdded
    obtain ⟨⟨sourcePath, found⟩, isIn, isEntry⟩ := mem_filterMap.mp isFound
    cases isEntry
    obtain ⟨source, isSource, origin, isOrigin, _, rfl⟩ := mem_found isIn
    exact steady.readable source isSource (by rw [isOrigin]; rfl)

variable (ids) in
theorem Steady.reconcile_covers (steady : Steady tree config)
    (isFound : (sourcePath, some entry) ∈ (tree.looked later).found) :
    pathKey entry ∈
        (reconcileProjectEntries (tree.looked ids) config.projects).map pathKey ∨
      urlKey entry ∈ (reconcileProjectEntries (tree.looked ids) config.projects).map urlKey := by
  obtain ⟨first, isFirst, samePath, sameUrl⟩ := mem_found_again ids isFound
  rw [← samePath, ← sameUrl]
  have ofUrl : ∀ url ∈ (keepEntries (tree.looked ids) ⟨[], []⟩ config.projects).2.urls,
      url ∈ (reconcileProjectEntries (tree.looked ids) config.projects).map urlKey := by
    intro url isSeen
    rcases keepEntries_urls config.projects ⟨[], []⟩ url isSeen with isOld | ⟨other, isKept, rfl⟩
    · cases isOld
    · exact mem_map_of_mem (mem_append_left _ isKept)
  rcases addFound_covers (tree.looked ids).found looked_named
    (keepEntries (tree.looked ids) ⟨[], []⟩ config.projects).2 sourcePath first isFirst with
    isPath | isUrl | ⟨other, isAdded, samePath | sameUrl⟩
  · rcases keepEntries_paths [] config.projects ⟨[], []⟩ nofun _ isPath
      with isOld | ⟨other, isKept, samePath⟩ |
        ⟨early, gone, late, isSplit, isDir, samePath, isSeen, isRepeated⟩
    · cases isOld
    · exact .inl (mem_map.mpr ⟨other, mem_append_left _ isKept, samePath⟩)
    · obtain ⟨source, isSource, origin, isOrigin, _, rfl⟩ := mem_found isFirst
      have sameUrl := steady.repeated early gone late isSplit isDir isRepeated source isSource
        origin isOrigin samePath.symm
      right
      show normalizeProjectUrl origin.url ∈ _
      rw [sameUrl]
      exact ofUrl _ isSeen
  · exact .inr (ofUrl _ isUrl)
  · exact .inl (mem_map.mpr ⟨other, List.mem_append_right _ isAdded, samePath⟩)
  · exact .inr (mem_map.mpr ⟨other, List.mem_append_right _ isAdded, sameUrl⟩)

theorem Steady.categories_of_mem (steady : Steady tree config)
    (isNormalized : other.preferences = config.preferences.map GrovePreferences.normalized) :
    ∀ entry ∈ reconcileProjectEntries (tree.looked ids) config.projects,
      ¬Uncategorized other entry := by
  intro entry isIn
  rw [uncategorized_congr (availableIds_normalized isNormalized steady.preferences)]
  rcases mem_append.mp isIn with isKept | isAdded
  · exact steady.categories entry ((keepEntries_sublist config.projects _).subset isKept)
      (keepEntries_kept _ config.projects _ entry isKept).1
  · have isFound := (addFound_sublist (tree.looked ids).found _).subset isAdded
    obtain ⟨⟨sourcePath, found⟩, isIn, isEntry⟩ := mem_filterMap.mp isFound
    cases isEntry
    obtain ⟨source, _, origin, _, _, rfl⟩ := mem_found isIn
    exact not_not.mpr rfl

theorem Steady.preferences_normalized (steady : Steady tree config)
    (isNormalized : other.preferences = config.preferences.map GrovePreferences.normalized) :
    ∀ preferences, other.preferences = some preferences →
      preferences.withoutLegacy = preferences.normalized := by
  intro preferences isStored
  rw [isNormalized] at isStored
  obtain ⟨stored, isOld, rfl⟩ := Option.map_eq_some_iff.mp isStored
  exact (steady.preferences stored isOld).symm

theorem Steady.settled_written (steady : Steady tree config)
    (isNormalized : other.preferences = config.preferences.map GrovePreferences.normalized)
    (isReconciled : other.projects = reconcileProjectEntries (tree.looked ids) config.projects) :
    Settled tree other where
  dirs := by
    rw [isReconciled]
    exact steady.reconcile_dirs ids
  distinct := isReconciled ▸ reconcile_distinct tree ids config.projects
  covers := by
    intro later sourcePath entry isFound
    rw [isReconciled]
    exact steady.reconcile_covers ids isFound
  preferences := steady.preferences_normalized isNormalized
  categories := by
    rw [isReconciled]
    exact steady.categories_of_mem isNormalized

theorem Steady.unwritten (steady : Steady tree config)
    (idle : (loadReconciledConfig tree ids config).writes = false) :
    reconcileProjectEntries (tree.looked ids) config.projects = config.projects ∧
      (reconcileProjectCategories config).2 = false := by
  obtain ⟨isSame, unchanged⟩ := Bool.or_eq_false_iff.mp idle
  rw [Bool.not_eq_false'] at isSame
  obtain ⟨_, categories⟩ := (reconcileProjectCategories_changed config).mp unchanged
  have isSame : sameProjectEntries config.projects
      (reconcileProjectEntries (tree.looked ids) config.projects) = true :=
    categorized_projects config categories ▸ isSame
  obtain ⟨paths, urls⟩ := keys_of_sameProjectEntries isSame
  have distinct : Distinct config.projects := by
    have reconciled := reconcile_distinct tree ids config.projects
    constructor
    · have samePaths := congrArg (List.map normalizeSourcePath) paths
      rw [map_map, map_map] at samePaths
      exact samePaths ▸ reconciled.paths
    · have sameUrls := congrArg (List.map normalizeProjectUrl) urls
      rw [map_map, map_map] at sameUrls
      exact sameUrls ▸ reconciled.urls
  have isKept : (keepEntries (tree.looked ids) ⟨[], []⟩ config.projects).1 = config.projects := by
    rw [keepEntries_all config.projects _ distinct fun _ _ =>
      ⟨not_mem_nil, not_mem_nil⟩]
    refine List.filter_eq_self.mpr fun entry isIn => decide_eq_true ?_
    have isPath : entry.sourcePath ∈ config.projects.map ProjectEntry.sourcePath :=
      mem_map_of_mem isIn
    rw [paths] at isPath
    obtain ⟨other, isOther, samePath⟩ := mem_map.mp isPath
    exact samePath ▸ steady.reconcile_dirs ids other isOther
  refine ⟨?_, unchanged⟩
  have sameLength := congrArg List.length paths
  unfold reconcileProjectEntries at sameLength ⊢
  dsimp only at sameLength ⊢
  rw [isKept] at sameLength ⊢
  rw [List.length_map, List.length_map, List.length_append] at sameLength
  rw [List.eq_nil_of_length_eq_zero (by omega : (addFound _ _).length = 0), append_nil]

theorem Steady.settled (steady : Steady tree config) (ids : String → String) :
    Settled tree (loadReconciledConfig tree ids config).file ∧
      (loadReconciledConfig tree ids config).file.projects =
        reconcileProjectEntries (tree.looked ids) config.projects := by
  by_cases writes : (loadReconciledConfig tree ids config).writes = true
  · have isFile : (loadReconciledConfig tree ids config).file =
        (reconcileConfig (tree.looked ids) config).1.written := if_pos writes
    rw [isFile]
    exact ⟨steady.settled_written (reconcile_preferences _ config) rfl, rfl⟩
  · have isFile : (loadReconciledConfig tree ids config).file = config := if_neg writes
    obtain ⟨isReconciled, unchanged⟩ := steady.unwritten (Bool.not_eq_true _ ▸ writes)
    obtain ⟨preferences, categories⟩ := (reconcileProjectCategories_changed config).mp unchanged
    rw [isFile]
    refine ⟨⟨?_, ?_, ?_, preferences, categories⟩, isReconciled.symm⟩
    · exact isReconciled ▸ steady.reconcile_dirs ids
    · exact isReconciled ▸ reconcile_distinct tree ids config.projects
    · intro later sourcePath entry isFound
      have isCovered := steady.reconcile_covers ids isFound
      rwa [isReconciled] at isCovered

theorem Steady.reconciled (steady : Steady tree config) (ids later : String → String) :
    Reconciled tree config ids later := by
  obtain ⟨settled, isFile⟩ := steady.settled ids
  refine ⟨reconcile_distinct tree ids _, reconcile_fromStored _, ?_, settled.idle later⟩
  exact (settled.projects later).trans isFile

variable (ids) in
theorem Steady.saved (steady : Steady tree config)
    (isNormalized : other.preferences = config.preferences.map GrovePreferences.normalized)
    (urls : (other.projects.map urlKey).Nodup) (isKnown : ∀ entry ∈ other.projects,
      entry ∈ reconcileProjectEntries (tree.looked ids) config.projects ∨
        entry.categoryId = none) : Steady tree other where
  readable := steady.readable
  repeated := repeated_of_nodup urls
  preferences := fun preferences isStored =>
    normalized_twice (steady.preferences_normalized isNormalized preferences isStored)
  categories := by
    intro entry isIn _
    rcases isKnown entry isIn with isReconciled | isNone
    · exact steady.categories_of_mem isNormalized entry isReconciled
    · unfold Uncategorized
      rw [isNone, not_not]
      rfl

end

/-! ## Runs -/

section
variable {sys : System Theme}

structure Sound (sys : System Theme) : Prop where
  steady : Steady sys.tree sys.config
  reordered : ∀ reorder ∈ sys.reorders, reorder.2.Perm reorder.1

theorem Sound.load (sound : Sound sys) (ids : String → String) : Sound (sys.load ids) :=
  ⟨(sound.steady.settled ids).1.steady sound.steady.readable, sound.reordered⟩

theorem Sound.register (sound : Sound sys) (ids : String → String) {entry : ProjectEntry}
    (isNone : entry.categoryId = none) : Sound (sys.register ids entry) := by
  refine ⟨?_, sound.reordered⟩
  show Steady sys.tree (savedOr (sys.loaded ids).file
    ((sys.loaded ids).config.registerProjectEntry entry))
  unfold GroveConfig.registerProjectEntry
  cases isFound : findMatchingProject (sys.loaded ids).config.projects entry.sourcePath
      entry.url with
  | some other => exact (sound.load ids).steady
  | none =>
    have isNormalized := reconcile_preferences (sys.tree.looked ids) sys.config
    refine sound.steady.saved ids isNormalized ?_ ?_
    · show ((reconcileProjectEntries (sys.tree.looked ids) sys.config.projects ++
        [entry]).map urlKey).Nodup
      rw [map_append]
      have distinct := reconcile_distinct sys.tree ids
        sys.config.projects
      refine distinct.urls.append (List.nodup_singleton _) fun url isOld isNew => ?_
      obtain ⟨other, isIn, rfl⟩ := mem_map.mp isOld
      have isOther := List.find?_eq_none.mp isFound other isIn
      refine isOther ?_
      rw [Bool.or_eq_true]
      exact .inr (decide_eq_true (mem_singleton.mp isNew))
    · intro other isIn
      rcases mem_append.mp isIn with isReconciled | isEntry
      · exact .inl isReconciled
      · exact .inr (mem_singleton.mp isEntry ▸ isNone)

theorem Sound.remove (sound : Sound sys) (projectId : String)
    (managedSourceDir : ProjectEntry → Except String Unit)
    (urls : (sys.config.projects.map urlKey).Nodup) :
    Sound (sys.remove projectId managedSourceDir) := by
  refine ⟨?_, sound.reordered⟩
  show Steady sys.tree (savedOr sys.config
    (sys.config.removeProject projectId managedSourceDir))
  unfold GroveConfig.removeProject
  cases sys.config.projects.find? (·.id = projectId) with
  | none => exact sound.steady
  | some entry =>
    dsimp only
    cases managedSourceDir entry with
    | error message => exact sound.steady
    | ok _ =>
      have isPart : (sys.config.projects.eraseP (·.id = projectId)).Sublist
          sys.config.projects := List.eraseP_sublist
      refine ⟨sound.steady.readable, repeated_of_nodup (urls.sublist (isPart.map urlKey)),
        fun preferences isStored => ?_, fun other isIn isDir => ?_⟩
      · obtain ⟨stored, isOld, rfl⟩ := Option.map_eq_some_iff.mp isStored
        exact withoutLegacy_twice (sound.steady.preferences stored isOld)
      · refine (uncategorized_congr ?_ other).not.mpr
          (sound.steady.categories other (isPart.subset isIn) isDir)
        unfold availableProjectCategoryIds
        show List.map _ ((sys.config.preferences.map GrovePreferences.withoutLegacy).getD
          .default).normalized.projectCategories = _
        cases sys.config.preferences <;> rfl

theorem loaded_ids (sys : System Theme) (ids : String → String) :
    ((reconcileProjectEntries (sys.tree.looked ids) sys.config.projects).map
      ProjectEntry.id).Sublist (knownIds sys ids) := by
  unfold reconcileProjectEntries knownIds
  rw [map_append]
  refine ((keepEntries_sublist _ _).map _).append
    (((addFound_sublist _ _).map _).trans ?_)
  show List.Sublist ((List.filterMap Prod.snd (sys.tree.sources.map _)).map _) _
  induction sys.tree.sources with
  | nil => exact .slnil
  | cons source rest ih =>
    obtain ⟨sourcePath, origin⟩ := source
    cases origin with
    | none => exact ih.cons _
    | some origin => exact ih.cons_cons _

variable {entries : List ProjectEntry}

theorem eq_of_count {entry other : ProjectEntry} (isIn : entry ∈ entries)
    (isOther : other ∈ entries) (sameId : other.id = entry.id)
    (once : (entries.map ProjectEntry.id).count entry.id ≤ 1) : other = entry := by
  rw [List.count, List.countP_map, List.countP_eq_length_filter] at once
  have entryIn : entry ∈ entries.filter ((· == entry.id) ∘ ProjectEntry.id) :=
    List.mem_filter.mpr ⟨isIn, beq_self_eq_true _⟩
  have otherIn : other ∈ entries.filter ((· == entry.id) ∘ ProjectEntry.id) :=
    List.mem_filter.mpr ⟨isOther, beq_iff_eq.mpr sameId⟩
  rcases isList : entries.filter ((· == entry.id) ∘ ProjectEntry.id) with _ | ⟨first, later⟩
  · simp [isList] at entryIn
  · rw [isList] at once entryIn otherIn
    have noLater : later = [] := List.eq_nil_of_length_eq_zero (Nat.le_zero.mp
      (Nat.le_of_succ_le_succ once))
    subst noLater
    exact (mem_singleton.mp otherIn).trans (mem_singleton.mp entryIn).symm

theorem reordered_perm {known projectIds : List String} (nodup : entries.Nodup)
    (isKnown : (entries.map ProjectEntry.id).Sublist known) (orderly : Orderly known projectIds) :
    ((projectIds.filterMap fun id => entries.find? (·.id = id)) ++
      entries.filter (·.id ∉ projectIds)).Perm entries := by
  have found : ∀ id entry, entries.find? (·.id = id) = some entry →
      entry ∈ entries ∧ entry.id = id := by
    intro id entry isFound
    have isId := List.find?_some isFound
    exact ⟨List.mem_of_find?_eq_some isFound, of_decide_eq_true isId⟩
  have onlyKnown : (projectIds.filterMap fun id => entries.find? (·.id = id)) =
      (projectIds.filter (· ∈ known)).filterMap fun id => entries.find? (·.id = id) := by
    rw [List.filterMap_filter]
    refine List.filterMap_congr fun id _ => ?_
    split_ifs with isKnownId
    · rfl
    · refine Option.eq_none_iff_forall_ne_some.mpr fun entry isFound => isKnownId ?_
      obtain ⟨isIn, rfl⟩ := found id entry isFound
      exact decide_eq_true (isKnown.subset (mem_map_of_mem isIn))
  have givenNodup : (projectIds.filterMap fun id => entries.find? (·.id = id)).Nodup := by
    rw [onlyKnown]
    refine orderly.1.filterMap fun first second entry isFirst isSecond => ?_
    exact (found first entry isFirst).2.symm.trans (found second entry isSecond).2
  refine (List.perm_ext_iff_of_nodup ?_ nodup).mpr fun entry => ?_
  · refine givenNodup.append (nodup.filter _) fun entry isGiven isRest => ?_
    obtain ⟨id, isId, isFound⟩ := mem_filterMap.mp isGiven
    have notGiven := of_decide_eq_true (List.mem_filter.mp isRest).2
    exact notGiven ((found id entry isFound).2 ▸ isId)
  · rw [mem_append]
    constructor
    · rintro (isGiven | isRest)
      · obtain ⟨id, _, isFound⟩ := mem_filterMap.mp isGiven
        exact (found id entry isFound).1
      · exact List.mem_of_mem_filter isRest
    · intro isIn
      by_cases isGiven : entry.id ∈ projectIds
      · left
        refine mem_filterMap.mpr ⟨entry.id, isGiven, ?_⟩
        cases isFound : entries.find? (·.id = entry.id) with
        | none =>
          have noEntry := List.find?_eq_none.mp isFound entry isIn
          exact absurd (decide_eq_true rfl) noEntry
        | some other =>
          obtain ⟨isOther, sameId⟩ := found entry.id other isFound
          have once := (isKnown.count_le entry.id).trans (orderly.2 entry.id isGiven)
          exact congrArg some (eq_of_count isIn isOther sameId once)
      · exact .inr (List.mem_filter.mpr ⟨isIn, decide_eq_true isGiven⟩)

theorem Sound.reorder (sound : Sound sys) (ids : String → String) {projectIds : List String}
    (orderly : Orderly (knownIds sys ids) projectIds) :
    Sound (sys.reorder ids projectIds) := by
  have distinct := reconcile_distinct sys.tree ids sys.config.projects
  have isPerm := reordered_perm distinct.paths.of_map (loaded_ids sys ids) orderly
  constructor
  · have isNormalized := reconcile_preferences (sys.tree.looked ids) sys.config
    refine sound.steady.saved ids isNormalized ?_ ?_
    · exact (isPerm.map urlKey).nodup_iff.mpr distinct.urls
    · exact fun entry isIn => .inl (isPerm.subset isIn)
  · intro reorder isIn
    rcases mem_cons.mp isIn with rfl | isOld
    · exact isPerm
    · exact sound.reordered reorder isOld

theorem step_sound (sound : Sound sys) {label : Label} (clean : Clean sys label)
    {next : System Theme} (ran : step sys label = some next) : Sound next := by
  cases label with
  | load ids =>
    cases ran
    exact sound.load ids
  | register ids id name origin sourcePath =>
    cases ran
    exact sound.register ids rfl
  | remove projectId managedSourceDir =>
    cases ran
    exact sound.remove projectId managedSourceDir clean
  | reorder ids projectIds =>
    cases ran
    exact sound.reorder ids clean
  | disk tree =>
    cases ran
    exact ⟨clean, sound.reordered⟩

end

theorem registryKept {config : GroveConfig Theme} {tree : Tree} (steady : Steady tree config)
    {finish : System Theme} (run : Run step Clean (opened config tree) finish) :
    RegistryKept finish := by
  have start : Sound (opened config tree) := ⟨steady, fun reorder isIn => by cases isIn⟩
  have sound : Sound finish :=
    run.invariant start fun _ _ _ sound clean ran => step_sound sound clean ran
  exact ⟨sound.steady.reconciled, sound.reordered⟩

def origin : Origin := ⟨"https://host/org/repo", "org", "repo"⟩

def cloned : Tree :=
  ⟨["/base/host/org/repo/source"], [("/base/host/org/repo/source", some origin)]⟩

theorem cloned_steady : Steady cloned (GroveConfig.default : GroveConfig Unit) := by
  refine ⟨by decide, fun before entry after isSplit => ?_, fun _ isStored => (by cases isStored),
    fun entry isIn => (by cases isIn)⟩
  cases before with
  | nil => cases isSplit
  | cons first rest => cases isSplit

def loadThenReorder : List Label :=
  [.load fun _ => "first", .reorder (fun _ => "second") ["unknown", "first", "unknown"]]

theorem registryKept_loadThenReorder : ∃ finish,
    execute step (opened (GroveConfig.default : GroveConfig Unit) cloned) loadThenReorder =
        some finish ∧ RegistryKept finish := by
  refine ⟨_, rfl, registryKept cloned_steady (run_of_permitted loadThenReorder ?_ rfl)⟩
  refine ⟨trivial, _, rfl, ⟨?_, ?_⟩, _, rfl, trivial⟩
  · decide +kernel
  · decide +kernel

/-- The stored project is in a category that there is not. -/
def orphaned : GroveConfig Unit :=
  ⟨[{ makeProjectEntry "id" "repo" origin "/base/host/org/repo/source" with
    categoryId := some "gone" }], none, none, none⟩

/-- A load writes the category as it was, and so does each load that follows. -/
theorem not_registryKept : ¬∀ (config : GroveConfig Unit) (tree : Tree) (finish : System Unit),
    Reachable step (opened config tree) finish → RegistryKept finish := by
  intro allKept
  have idle := ((allKept orphaned cloned _ .refl).reconciled (fun _ => "first")
    fun _ => "second").idle
  revert idle
  decide +kernel

/-- A repeated id repeats its project. -/
example : (savedOr orphaned (orphaned.reorderProjects ["id", "id"])).projects.map ProjectEntry.id =
    ["id", "id"] := by
  decide

end AiTools.Grove.ProjectRegistry
