import AiTools.Grove.Config
import Mathlib.Logic.Function.Iterate

/-!
Contract: the fields of a config, which of them an operation owns, and that it changes no other.
-/

namespace AiTools.Grove.Config

open AiTools.Lib.Keyed

/-- Where a project comes from is one part, its stacked parents and categories are many. -/
inductive Part where
  | origin
  | name
  | worktreeOrder
  | stackedParent (childName : String)
  | baseBranch
  | collapsed
  | focused
  | inCategory (categoryId : String)
  | envSync

def Part.Value : Part → Type
  | .origin => String × String × String × String
  | .name => String
  | .worktreeOrder => List String
  | .stackedParent _ => Option StackedParent
  | .baseBranch => Option String
  | .collapsed => Bool
  | .focused => Bool
  | .inCategory _ => Bool
  | .envSync => Option (List String)

def Part.value : (part : Part) → ProjectEntry → part.Value
  | .origin, entry => (entry.url, entry.org, entry.repo, entry.sourcePath)
  | .name, entry => entry.name
  | .worktreeOrder, entry => entry.worktreeOrder
  | .stackedParent childName, entry => entry.stackedParents.find? childName
  | .baseBranch, entry => entry.baseBranch
  | .collapsed, entry => entry.collapsed
  | .focused, entry => entry.focused
  | .inCategory categoryId, entry => decide (entry.categoryId = some categoryId)
  | .envSync, entry => entry.envSync

/-- `order` is how the entries of two projects stand to each other. -/
inductive Field where
  | baseDir
  | terminalTheme
  | preferences
  | entry (projectId : String) (part : Part)
  | order (first second : String)

variable {Theme : Type}

def GroveConfig.entry? (config : GroveConfig Theme) (projectId : String) : Option ProjectEntry :=
  config.projects.find? (·.id = projectId)

def idsAmong (first second : String) (entries : List ProjectEntry) : List String :=
  (entries.filter fun entry => entry.id = first ∨ entry.id = second).map ProjectEntry.id

/-- Preferences stay the same when they are normalized. -/
def Field.Same (before after : GroveConfig Theme) : Field → Prop
  | .baseDir => after.baseDir = before.baseDir
  | .terminalTheme => after.terminalTheme = before.terminalTheme
  | .preferences => ∃ times,
      after.preferences = before.preferences.map (GrovePreferences.normalized^[times])
  | .entry projectId part =>
    (after.entry? projectId).map part.value = (before.entry? projectId).map part.value
  | .order first second =>
    idsAmong first second after.projects = idsAmong first second before.projects

theorem Field.Same.refl (config : GroveConfig Theme) (field : Field) :
    field.Same config config := by
  cases field with
  | preferences => exact ⟨0, (congrFun Option.map_id _).symm⟩
  | _ => rfl

theorem Field.Same.trans {first second third : GroveConfig Theme} {field : Field}
    (left : field.Same first second) (right : field.Same second third) :
    field.Same first third := by
  cases field with
  | preferences =>
    obtain ⟨before, isSecond⟩ := left
    obtain ⟨after, isThird⟩ := right
    refine ⟨after + before, ?_⟩
    rw [isThird, isSecond, Option.map_map, Function.iterate_add]
  | baseDir | terminalTheme | entry projectId part | order first second => exact Eq.trans right left

def Operation.OwnsPart (projectId : String) (part : Part) : Operation Theme → Prop
  | .register added => projectId = added.id
  | .removeProject removed => projectId = removed
  | .setWorktreeOrder changed _ => projectId = changed ∧ part = .worktreeOrder
  | .setProjectCollapsed changed _ => projectId = changed ∧ part = .collapsed
  | .setProjectFocus changed _ => projectId = changed ∧ part = .focused
  | .renameProject changed _ => projectId = changed ∧ part = .name
  | .setProjectCategory changed _ => projectId = changed ∧ ∃ any, part = .inCategory any
  | .deleteProjectCategory categoryId => part = .inCategory categoryId
  | .setBaseBranch changed _ => projectId = changed ∧ part = .baseBranch
  | .setEnvSync changed _ => projectId = changed ∧ part = .envSync
  | .saveStackedParent changed child _ => projectId = changed ∧ part = .stackedParent child
  | .rollbackStackedParent changed child _ => projectId = changed ∧ part = .stackedParent child
  | .clearStackedParent changed name => projectId = changed ∧ part = .stackedParent name
  | .dropWorktree changed name =>
    projectId = changed ∧ (part = .worktreeOrder ∨ part = .stackedParent name)
  | _ => False

def Operation.OwnsOrder (first second : String) : Operation Theme → Prop
  | .register added => added.id = first ∨ added.id = second
  | .removeProject removed => removed = first ∨ removed = second
  | .reorderProjects _ => True
  | _ => False

def Operation.OwnsPreferences : Operation Theme → Prop
  | .saveAppConfig _ => True
  | .saveGrovePreferences _ => True
  | .deleteProjectCategory _ => True
  | _ => False

def Operation.OwnsBase : Operation Theme → Prop
  | .saveAppConfig _ => True
  | _ => False

def Operation.Owns (operation : Operation Theme) : Field → Prop
  | .baseDir => operation.OwnsBase
  | .terminalTheme => operation.OwnsBase
  | .preferences => operation.OwnsPreferences
  | .entry projectId part => operation.OwnsPart projectId part
  | .order first second => operation.OwnsOrder first second

def ProjectEntry.SameSource (left right : ProjectEntry) : Prop :=
  normalizeSourcePath left.sourcePath = normalizeSourcePath right.sourcePath ∨
    normalizeProjectUrl left.url = normalizeProjectUrl right.url

/-- An entry of the project has no directory, or is the same source as an earlier entry. -/
def Looked.Drops (looked : Looked) (entries : List ProjectEntry) (projectId : String) : Prop :=
  ∃ before entry after, entries = before ++ entry :: after ∧ entry.id = projectId ∧
    (entry.sourcePath ∉ looked.dirs ∨ ∃ other ∈ before, entry.SameSource other)

def Looked.Finds (looked : Looked) (projectId : String) : Prop :=
  ∃ path entry, (path, some entry) ∈ looked.found ∧ entry.id = projectId

def Looked.Touches (looked : Looked) (config : GroveConfig Theme) (projectId : String) : Prop :=
  looked.Drops config.projects projectId ∨ looked.Finds projectId

/-- A reconciliation of the config owns the entries that have to go and those that it finds. -/
def Looked.Owns (looked : Looked) (config : GroveConfig Theme) : Field → Prop
  | .entry projectId _ => looked.Touches config projectId
  | .order first second => looked.Touches config first ∨ looked.Touches config second
  | _ => False

section
variable {looked : Looked} {entries : List ProjectEntry}
variable {wanted : ProjectEntry → Bool} {seen : Seen}

/-- Entries with a directory, and of a source that is not seen before, are kept. -/
theorem filter_keepEntries
    (stays : ∀ before entry after, entries = before ++ entry :: after → wanted entry = true →
      entry.sourcePath ∈ looked.dirs ∧ normalizeSourcePath entry.sourcePath ∉ seen.paths ∧
        normalizeProjectUrl entry.url ∉ seen.urls ∧ ∀ other ∈ before, ¬ entry.SameSource other) :
    (keepEntries looked seen entries).1.filter wanted = entries.filter wanted := by
  induction entries generalizing seen with
  | nil => rfl
  | cons entry rest ih =>
    have later := fun before found after (isRest : rest = before ++ found :: after) =>
      stays (entry :: before) found after (isRest ▸ rfl)
    have fresh : ∀ {before} {found : ProjectEntry},
        (∀ other ∈ entry :: before, ¬ found.SameSource other) →
        normalizeSourcePath found.sourcePath ≠ normalizeSourcePath entry.sourcePath ∧
          normalizeProjectUrl found.url ≠ normalizeProjectUrl entry.url :=
      fun others => not_or.mp (others entry List.mem_cons_self)
    rw [keepEntries]
    dsimp only
    split_ifs with isGone isSeen
    · rw [List.filter_cons_of_neg, ih]
      · intro before found after isRest isWanted
        obtain ⟨isDir, noPath, noUrl, others⟩ := later before found after isRest isWanted
        exact ⟨isDir, noPath, noUrl,
          fun other isBefore => others other (List.mem_cons_of_mem _ isBefore)⟩
      · intro isWanted
        obtain ⟨isDir, noPath, _⟩ := stays [] entry rest rfl isWanted
        exact isGone.elim (· isDir) noPath
    · rw [List.filter_cons_of_neg, ih]
      · intro before found after isRest isWanted
        obtain ⟨isDir, noPath, noUrl, others⟩ := later before found after isRest isWanted
        exact ⟨isDir, List.not_mem_cons_of_ne_of_not_mem (fresh others).1 noPath, noUrl,
          fun other isBefore => others other (List.mem_cons_of_mem _ isBefore)⟩
      · intro isWanted
        obtain ⟨_, _, noUrl, _⟩ := stays [] entry rest rfl isWanted
        exact noUrl isSeen
    · rw [List.filter_cons, List.filter_cons, ih]
      intro before found after isRest isWanted
      obtain ⟨isDir, noPath, noUrl, others⟩ := later before found after isRest isWanted
      exact ⟨isDir, List.not_mem_cons_of_ne_of_not_mem (fresh others).1 noPath,
        List.not_mem_cons_of_ne_of_not_mem (fresh others).2 noUrl,
        fun other isBefore => others other (List.mem_cons_of_mem _ isBefore)⟩

theorem mem_addFound {found : List (String × Option ProjectEntry)} {entry : ProjectEntry}
    (isAdded : entry ∈ addFound seen found) :
    ∃ path, (path, some entry) ∈ found := by
  induction found generalizing seen with
  | nil => cases isAdded
  | cons head rest ih =>
    obtain ⟨path, entry?⟩ := head
    cases entry? with
    | none =>
      obtain ⟨other, isFound⟩ := ih isAdded
      exact ⟨other, List.mem_cons_of_mem _ isFound⟩
    | some first =>
      rw [addFound] at isAdded
      split_ifs at isAdded with isSeen
      · obtain ⟨other, isFound⟩ := ih isAdded
        exact ⟨other, List.mem_cons_of_mem _ isFound⟩
      · rcases List.mem_cons.mp isAdded with rfl | isLater
        · exact ⟨path, List.mem_cons_self⟩
        · obtain ⟨other, isFound⟩ := ih isLater
          exact ⟨other, List.mem_cons_of_mem _ isFound⟩

theorem filter_reconcileProjectEntries (untouched : ∀ entry, wanted entry = true →
      ¬ looked.Drops entries entry.id ∧ ¬ looked.Finds entry.id) :
    (reconcileProjectEntries looked entries).filter wanted = entries.filter wanted := by
  unfold reconcileProjectEntries
  have noneAdded :
      (addFound (keepEntries looked ⟨[], []⟩ entries).2 looked.found).filter wanted = [] := by
    refine List.filter_eq_nil_iff.mpr fun entry isAdded isWanted => ?_
    obtain ⟨path, isFound⟩ := mem_addFound isAdded
    exact (untouched entry isWanted).2 ⟨path, entry, isFound, rfl⟩
  rw [List.filter_append, noneAdded, List.append_nil]
  refine filter_keepEntries fun before entry after isEntries isWanted => ?_
  have noDrop := (untouched entry isWanted).1
  refine ⟨?_, List.not_mem_nil, List.not_mem_nil, fun other isBefore isSame => ?_⟩
  · by_contra noDir
    exact noDrop ⟨before, entry, after, isEntries, rfl, .inl noDir⟩
  · exact noDrop ⟨before, entry, after, isEntries, rfl, .inr ⟨other, isBefore, isSame⟩⟩

theorem reconcile_same (config : GroveConfig Theme) {field : Field}
    (free : ¬ looked.Owns config field) : field.Same config (reconcileConfig looked config).1 := by
  cases field with
  | baseDir | terminalTheme => rfl
  | preferences =>
    simp only [Field.Same, reconcileConfig, reconcileProjectCategories]
    cases config.preferences with
    | none => exact ⟨0, rfl⟩
    | some preferences =>
      split_ifs
      · exact ⟨1, rfl⟩
      · exact ⟨0, rfl⟩
  | entry projectId part =>
    refine congrArg (Option.map part.value) ?_
    unfold GroveConfig.entry?
    rw [← List.head?_filter, ← List.head?_filter]
    refine congrArg List.head? (filter_reconcileProjectEntries fun entry isWanted => ?_)
    rw [of_decide_eq_true isWanted]
    exact not_or.mp free
  | order first second =>
    refine congrArg (List.map ProjectEntry.id)
      (filter_reconcileProjectEntries fun entry isWanted => ?_)
    rcases of_decide_eq_true isWanted with isFirst | isSecond
    · rw [isFirst]
      exact not_or.mp fun touched => free (Or.inl touched)
    · rw [isSecond]
      exact not_or.mp fun touched => free (Or.inr touched)

end

/-! ## Operations -/

theorem idsAmong_eq (first second : String) (entries : List ProjectEntry) :
    idsAmong first second entries =
      (entries.map ProjectEntry.id).filter fun id => id = first ∨ id = second := by
  rw [List.filter_map]
  rfl

section
variable {config next : GroveConfig Theme} {field : Field}

theorem same_of_projects {projects : List ProjectEntry}
    (parts : ∀ projectId part, field = .entry projectId part →
      (projects.find? (·.id = projectId)).map part.value = (config.entry? projectId).map part.value)
    (orders : ∀ first second, field = .order first second →
      idsAmong first second projects = idsAmong first second config.projects) :
    field.Same config { config with projects } := by
  cases field with
  | baseDir | terminalTheme => rfl
  | preferences => exact Field.Same.refl config .preferences
  | entry projectId part => exact parts projectId part rfl
  | order first second => exact orders first second rfl

variable {change : ProjectEntry → ProjectEntry}
  {managedSourceDir : ProjectEntry → Except String Unit}

theorem find?_updateEntry (keepsId : ∀ entry, (change entry).id = entry.id)
    (changed projectId : String) (entries : List ProjectEntry) :
    (updateEntry changed change entries).find? (·.id = projectId) =
      if projectId = changed then (entries.find? (·.id = projectId)).map change
      else entries.find? (·.id = projectId) := by
  induction entries with
  | nil => simp [updateEntry]
  | cons entry rest ih =>
    rw [updateEntry]
    by_cases isChanged : entry.id = changed
    · rw [if_pos isChanged, List.find?_cons, List.find?_cons, keepsId, isChanged]
      by_cases isWanted : changed = projectId
      · simp [isWanted]
      · simp [isWanted, Ne.symm isWanted]
    · rw [if_neg isChanged, List.find?_cons, List.find?_cons, ih]
      by_cases isWanted : entry.id = projectId
      · have other : projectId ≠ changed := isWanted ▸ isChanged
        simp [isWanted, other]
      · simp [isWanted]

theorem ids_updateEntry (keepsId : ∀ entry, (change entry).id = entry.id) (changed : String)
    (entries : List ProjectEntry) :
    (updateEntry changed change entries).map ProjectEntry.id = entries.map ProjectEntry.id := by
  induction entries with
  | nil => rfl
  | cons entry rest ih =>
    rw [updateEntry]
    split_ifs
    · rw [List.map_cons, List.map_cons, keepsId]
    · rw [List.map_cons, List.map_cons, ih]

theorem edit_same {projectId : String} (isNext : config.edit projectId change = .ok (some next))
    (keepsId : ∀ entry, (change entry).id = entry.id)
    (keeps : ∀ part, field = .entry projectId part →
      ∀ entry, part.value (change entry) = part.value entry) : field.Same config next := by
  unfold GroveConfig.edit at isNext
  split_ifs at isNext
  cases isNext
  refine same_of_projects (fun other part isField => ?_) fun first second _ => ?_
  · rw [find?_updateEntry keepsId]
    split_ifs with isChanged
    · subst isChanged
      rw [Option.map_map]
      exact congrArg (Option.map · _) (funext (keeps part isField))
    · rfl
  · rw [idsAmong_eq, idsAmong_eq, ids_updateEntry keepsId]

theorem register_same {added : ProjectEntry}
    (free : ¬ (.register added : Operation Theme).Owns field)
    (isNext : config.registerProjectEntry added = .ok (some next)) : field.Same config next := by
  unfold GroveConfig.registerProjectEntry at isNext
  split at isNext
  · cases isNext
  cases isNext
  refine same_of_projects (fun projectId part isField => ?_) fun first second isField => ?_
  · subst isField
    have different : added.id ≠ projectId := fun same => free same.symm
    rw [List.find?_append, List.find?_cons_of_neg (by simpa using different), List.find?_nil,
      Option.or_none]
    rfl
  · subst isField
    have different : ¬ (added.id = first ∨ added.id = second) := free
    unfold idsAmong
    rw [List.filter_append, List.filter_cons_of_neg (by simpa using different), List.filter_nil,
      List.append_nil]

theorem filter_eraseP {erased wanted : ProjectEntry → Bool}
    (apart : ∀ entry, erased entry = true → wanted entry = false) (entries : List ProjectEntry) :
    (entries.eraseP erased).filter wanted = entries.filter wanted := by
  induction entries with
  | nil => rfl
  | cons entry rest ih =>
    cases isErased : erased entry with
    | true =>
      rw [List.eraseP_cons_of_pos isErased, List.filter_cons_of_neg]
      rw [apart entry isErased]
      exact Bool.false_ne_true
    | false =>
      rw [List.eraseP_cons_of_neg (Bool.eq_false_iff.mp isErased), List.filter_cons,
        List.filter_cons, ih]

theorem removeProject_same {removed : String}
    (free : ¬ (.removeProject removed : Operation Theme).Owns field)
    (isNext : config.removeProject removed managedSourceDir = .ok (some next)) :
    field.Same config next := by
  unfold GroveConfig.removeProject at isNext
  split at isNext
  · cases isNext
  rename_i entry isFound
  cases isManaged : managedSourceDir entry with
  | error _ =>
    rw [isManaged] at isNext
    cases isNext
  | ok _ =>
    rw [isManaged] at isNext
    cases isNext
    refine same_of_projects (fun projectId part isField => ?_) fun first second isField => ?_
    · subst isField
      have different : projectId ≠ removed := free
      unfold GroveConfig.entry?
      rw [← List.head?_filter, ← List.head?_filter, filter_eraseP]
      intro found isRemoved
      have isId := of_decide_eq_true isRemoved
      exact decide_eq_false fun isWanted => different (isWanted.symm.trans isId)
    · subst isField
      have different : ¬ (removed = first ∨ removed = second) := free
      unfold idsAmong
      rw [filter_eraseP]
      intro found isRemoved
      have isId := of_decide_eq_true isRemoved
      exact decide_eq_false fun isWanted => different (isId ▸ isWanted)

theorem find?_reorderProjects (projectIds : List String) (entries : List ProjectEntry)
    (projectId : String) :
    ((projectIds.filterMap fun id => entries.find? (·.id = id)) ++
      entries.filter (·.id ∉ projectIds)).find? (·.id = projectId) =
        entries.find? (·.id = projectId) := by
  have ofListed : ∀ {ids : List String} {entry : ProjectEntry},
      entry ∈ ids.filterMap (fun id => entries.find? (·.id = id)) →
        entry.id ∈ ids ∧ entries.find? (·.id = entry.id) = some entry := by
    intro ids entry isListed
    obtain ⟨id, isId, isEntry⟩ := List.mem_filterMap.mp isListed
    have same : entry.id = id := by simpa using List.find?_some isEntry
    exact ⟨same ▸ isId, same ▸ isEntry⟩
  by_cases isListed : projectId ∈ projectIds
  · cases isStored : entries.find? (·.id = projectId) with
    | none =>
      rw [List.find?_eq_none] at isStored ⊢
      intro entry isEntry
      rcases List.mem_append.mp isEntry with isFirst | isSecond
      · obtain ⟨id, _, isFound⟩ := List.mem_filterMap.mp isFirst
        exact isStored entry (List.mem_of_find?_eq_some isFound)
      · exact isStored entry (List.mem_filter.mp isSecond).1
    | some entry =>
      have isId : entry.id = projectId := by simpa using List.find?_some isStored
      have isFirst : entry ∈ projectIds.filterMap fun id => entries.find? (·.id = id) :=
        List.mem_filterMap.mpr ⟨projectId, isListed, isStored⟩
      cases found : (projectIds.filterMap fun id => entries.find? (·.id = id)).find?
          (·.id = projectId) with
      | none => exact absurd (decide_eq_true isId) (List.find?_eq_none.mp found entry isFirst)
      | some other =>
        have isOther : other.id = projectId := by simpa using List.find?_some found
        have isStoredOther := (ofListed (List.mem_of_find?_eq_some found)).2
        rw [isOther, isStored] at isStoredOther
        rw [List.find?_append, found, Option.some_or, isStoredOther]
  · rw [List.find?_append, List.find?_eq_none.mpr, Option.none_or, List.find?_filter]
    · refine congrArg (List.find? · entries) (funext fun entry => ?_)
      by_cases isId : entry.id = projectId
      · simp [isId, isListed]
      · simp [isId]
    · intro entry isFirst isWanted
      exact isListed (of_decide_eq_true isWanted ▸ (ofListed isFirst).1)

theorem reorderProjects_same {projectIds : List String}
    (free : ¬ (.reorderProjects projectIds : Operation Theme).Owns field)
    (isNext : config.reorderProjects projectIds = .ok (some next)) : field.Same config next := by
  cases isNext
  refine same_of_projects (fun projectId part _ => ?_) fun first second isField => ?_
  · rw [find?_reorderProjects]
    rfl
  · subst isField
    exact absurd trivial free

theorem deleteProjectCategory_same {categoryId : String}
    (free : ¬ (.deleteProjectCategory categoryId : Operation Theme).Owns field)
    (isNext : config.deleteProjectCategory categoryId = .ok (some next)) :
    field.Same config next := by
  simp only [GroveConfig.deleteProjectCategory] at isNext
  split_ifs at isNext
  cases isNext
  cases field with
  | baseDir | terminalTheme => rfl
  | preferences => exact absurd trivial free
  | entry projectId part =>
    simp only [Field.Same, GroveConfig.entry?]
    rw [List.find?_map, Option.map_map]
    have sameIds : ((fun entry : ProjectEntry => decide (entry.id = projectId)) ∘ fun entry =>
        if entry.categoryId = some categoryId then { entry with categoryId := none } else entry) =
        fun entry => decide (entry.id = projectId) := by
      funext entry
      rw [Function.comp_apply]
      split_ifs <;> rfl
    rw [sameIds]
    refine congrArg (Option.map · _) (funext fun entry => ?_)
    rw [Function.comp_apply]
    split_ifs with isCategory
    · cases part with
      | inCategory other =>
        have different : other ≠ categoryId := fun same => free (congrArg Part.inCategory same)
        have notOther : entry.categoryId ≠ some other :=
          fun isOther => different (Option.some.inj (isOther.symm.trans isCategory))
        exact (decide_eq_false notOther).symm
      | _ => rfl
    · rfl
  | order first second =>
    show idsAmong first second _ = idsAmong first second _
    rw [idsAmong_eq, idsAmong_eq, List.map_map]
    refine congrArg (List.filter _) (List.map_congr_left fun entry _ => ?_)
    rw [Function.comp_apply]
    split_ifs <;> rfl

theorem clearStackedParent_same {projectId name : String}
    (free : ¬ field = .entry projectId (.stackedParent name))
    (isNext : config.clearStackedParent projectId name = .ok (some next)) :
    field.Same config next := by
  refine edit_same isNext (fun _ => rfl) fun part isField entry => ?_
  cases part with
  | stackedParent child =>
    have different : child ≠ name := fun same => free (same ▸ isField)
    exact (entry.stackedParents.find?_remove name child).trans (if_neg different)
  | _ => rfl

theorem change_same {operation : Operation Theme}
    (isNext : operation.change managedSourceDir config = .ok (some next))
    (free : ¬ operation.Owns field) : field.Same config next := by
  cases operation with
  | saveAppConfig app =>
    cases isNext
    cases field with
    | entry _ _ | order _ _ => rfl
    | _ => exact absurd trivial free
  | saveGrovePreferences preferences =>
    cases isNext
    cases field with
    | preferences => exact absurd trivial free
    | _ => rfl
  | loadReconciled => cases isNext
  | register added => exact register_same free isNext
  | removeProject removed => exact removeProject_same free isNext
  | reorderProjects projectIds => exact reorderProjects_same free isNext
  | deleteProjectCategory categoryId => exact deleteProjectCategory_same free isNext
  | setWorktreeOrder projectId order =>
    refine edit_same isNext (fun _ => rfl) fun part isField entry => ?_
    cases part with
    | worktreeOrder => exact absurd (isField ▸ ⟨rfl, rfl⟩) free
    | _ => rfl
  | setProjectCollapsed projectId collapsed =>
    refine edit_same isNext (fun _ => rfl) fun part isField entry => ?_
    cases part with
    | collapsed => exact absurd (isField ▸ ⟨rfl, rfl⟩) free
    | _ => rfl
  | setProjectFocus projectId focused =>
    refine edit_same isNext (fun _ => rfl) fun part isField entry => ?_
    cases part with
    | focused => exact absurd (isField ▸ ⟨rfl, rfl⟩) free
    | _ => rfl
  | renameProject projectId name =>
    refine edit_same isNext (fun _ => rfl) fun part isField entry => ?_
    cases part with
    | name => exact absurd (isField ▸ ⟨rfl, rfl⟩) free
    | _ => rfl
  | setProjectCategory projectId categoryId =>
    simp only [Operation.change, GroveConfig.setProjectCategory] at isNext
    split_ifs at isNext
    generalize normalizeProjectCategoryId _ _ = normalized at isNext
    refine edit_same isNext (fun _ => rfl) fun part isField entry => ?_
    cases part with
    | inCategory other => exact absurd (isField ▸ ⟨rfl, other, rfl⟩) free
    | _ => rfl
  | setBaseBranch projectId branch =>
    refine edit_same isNext (fun _ => rfl) fun part isField entry => ?_
    cases part with
    | baseBranch => exact absurd (isField ▸ ⟨rfl, rfl⟩) free
    | _ => rfl
  | setEnvSync projectId includePatterns =>
    refine edit_same isNext (fun _ => rfl) fun part isField entry => ?_
    cases part with
    | envSync => exact absurd (isField ▸ ⟨rfl, rfl⟩) free
    | _ => rfl
  | saveStackedParent projectId child parent =>
    refine edit_same isNext (fun _ => rfl) fun part isField entry => ?_
    cases part with
    | stackedParent other =>
      have different : child ≠ other := fun same => free (isField ▸ same ▸ ⟨rfl, rfl⟩)
      exact (entry.stackedParents.find?_put ⟨child, parent⟩ other).trans (if_neg different)
    | _ => rfl
  | rollbackStackedParent projectId child parent =>
    simp only [Operation.change, GroveConfig.rollbackStackedParent] at isNext
    split at isNext
    · cases isNext
    split_ifs at isNext
    · exact clearStackedParent_same (fun isField => free (isField ▸ ⟨rfl, rfl⟩)) isNext
    · cases isNext
  | clearStackedParent projectId name =>
    exact clearStackedParent_same (fun isField => free (isField ▸ ⟨rfl, rfl⟩)) isNext
  | dropWorktree projectId worktreeName =>
    refine edit_same isNext (fun _ => rfl) fun part isField entry => ?_
    cases part with
    | worktreeOrder => exact absurd (isField ▸ ⟨rfl, .inl rfl⟩) free
    | stackedParent child =>
      have different : child ≠ worktreeName :=
        fun same => free (isField ▸ same ▸ ⟨rfl, .inr rfl⟩)
      exact (entry.stackedParents.find?_remove worktreeName child).trans (if_neg different)
    | _ => rfl

end

end AiTools.Grove.Config
