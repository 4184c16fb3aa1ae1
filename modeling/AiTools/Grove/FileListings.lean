import Mathlib

/-!
Contract: the listings of the files that git reports, of one directory and of all of them.
-/

namespace AiTools.Grove.FileListings

abbrev Name := List Char

/-- A text, cut at its slashes. -/
abbrev Segments := List Name

/-- A slash ends the path of a repository that lies inside of this one. -/
structure Reported where
  names : List Name
  endsInSlash : Bool
  notEmpty : names ≠ []
  namesNotEmpty : ∀ name ∈ names, name ≠ []

def Reported.segments (path : Reported) : Segments :=
  path.names ++ if path.endsInSlash then [[]] else []

def octal (byte : UInt8) : List Char :=
  ['\\', Nat.digitChar (byte.toNat / 64), Nat.digitChar (byte.toNat / 8 % 8),
    Nat.digitChar (byte.toNat % 8)]

def letterOf (c : Char) : Option Char :=
  match c.toNat with
  | 7 => some 'a'
  | 8 => some 'b'
  | 9 => some 't'
  | 10 => some 'n'
  | 11 => some 'v'
  | 12 => some 'f'
  | 13 => some 'r'
  | 34 => some '"'
  | 92 => some '\\'
  | _ => none

def isPrinted (c : Char) : Bool := (letterOf c).isNone && 0x20 ≤ c.toNat && c.toNat < 0x7F

def escape (c : Char) : List Char :=
  match letterOf c with
  | some letter => ['\\', letter]
  | none => if isPrinted c then [c] else (String.utf8EncodeChar c).flatMap octal

def closeQuote : Segments → Segments
  | [] => []
  | [last] => [last ++ ['"']]
  | segment :: rest => segment :: closeQuote rest

/-- The text in quotes. What an escape makes of a character has no slash. -/
def quoted (segments : Segments) : Segments :=
  closeQuote ((segments.map fun name => name.flatMap escape).modifyHead ('"' :: ·))

def Reported.isPlain (path : Reported) : Bool := path.names.all fun name => name.all isPrinted

def Reported.printed (path : Reported) : Segments :=
  if path.isPlain then path.segments else quoted path.segments

structure DirectoryFileEntry where
  path : Segments
  name : Name
  isDirectory : Bool
  depth : Nat

def text (path : Segments) : List Char := List.intercalate ['/'] path

def entryDepth (path : Segments) : Nat := (path.filter (· ≠ [])).length - 1

/-- `strip_prefix` for the parent with a slash behind it. The parent `""` has no segment. -/
def stripPrefix : Segments → Segments → Option Segments
  | [], [] => none
  | [], segment :: rest => some (segment :: rest)
  | _ :: _, [] => none
  | name :: parent, segment :: rest => if name = segment then stripPrefix parent rest else none

/-- The name in the parent that a line stands for, and whether it is a directory. -/
def childOf (parent line : Segments) : Option (Name × Bool) :=
  (stripPrefix parent line).bind fun remainder =>
    (remainder.find? (· ≠ [])).map fun name => (name, 1 < remainder.length)

def childEntry (parent : Segments) (child : Name × Bool) : DirectoryFileEntry :=
  ⟨parent ++ [child.1], child.1, child.2, entryDepth (parent ++ [child.1])⟩

/-- `and_modify` and `or_insert_with`: a directory stays one. -/
def putChild (entries : List DirectoryFileEntry) (entry : DirectoryFileEntry) :
    List DirectoryFileEntry :=
  if entries.any (·.path = entry.path) then
    entries.map fun other =>
      if other.path = entry.path && entry.isDirectory then { other with isDirectory := true }
      else other
  else entries ++ [entry]

/-- `sort_entries` compares these, one behind the other. -/
def order (entry : DirectoryFileEntry) : Bool ×ₗ Name ×ₗ List Char :=
  toLex (!entry.isDirectory, toLex (entry.name, text entry.path))

def sortEntries (entries : List DirectoryFileEntry) : List DirectoryFileEntry :=
  entries.insertionSort fun left right => order left ≤ order right

def children (lines : List Segments) (parent : Segments) : List DirectoryFileEntry :=
  ((lines.filterMap (childOf parent)).map (childEntry parent)).foldl putChild []

/-- The order of the map does not count, as no two entries are equal for `sort_entries`. -/
def listGitChildren (lines : List Segments) (parent : Segments) : List DirectoryFileEntry :=
  sortEntries (children lines parent)

/-- The entry of each part, behind the parts before it. -/
def ancestors (current : Segments) : List Name → List DirectoryFileEntry
  | [] => []
  | part :: rest =>
    ⟨current ++ [part], part, rest ≠ [], current.length⟩ :: ancestors (current ++ [part]) rest

/-- `or_insert_with` -/
def insertNew (entries : List DirectoryFileEntry) (entry : DirectoryFileEntry) :
    List DirectoryFileEntry :=
  if entries.any (·.path = entry.path) then entries else entries ++ [entry]

def insertWithAncestors (entries : List DirectoryFileEntry) (line : Segments) :
    List DirectoryFileEntry :=
  (ancestors [] (line.filter (· ≠ []))).foldl insertNew entries

def deepOrder (entry : DirectoryFileEntry) : List Char ×ₗ Bool ×ₗ Name ×ₗ List Char :=
  toLex (text entry.path.dropLast, order entry)

def sortDeepEntries (entries : List DirectoryFileEntry) : List DirectoryFileEntry :=
  entries.insertionSort fun left right => deepOrder left ≤ deepOrder right

def maxDeepEntries : Nat := 50000

structure DeepDirectoryListing where
  entries : List DirectoryFileEntry
  truncated : Bool

def deepEntries (lines : List Segments) : List DirectoryFileEntry :=
  lines.foldl insertWithAncestors []

def listGitDeep (lines : List Segments) : DeepDirectoryListing :=
  let result := sortDeepEntries (deepEntries lines)
  ⟨result.take maxDeepEntries, maxDeepEntries < result.length⟩

/-- The path is that of something in the directory, or of a repository that is the directory. -/
def Reported.HasBelow (path : Reported) (directory : Segments) : Prop :=
  directory <+: path.names ∧ (path.names ≠ directory ∨ path.endsInSlash = true)

/-- The entry is one of the parent's, as the reported paths have it. -/
structure Right (reported : List Reported) (parent : Segments) (entry : DirectoryFileEntry) :
    Prop where
  path : entry.path = parent ++ [entry.name]
  depth : entry.depth = parent.length
  isThere : ∃ path ∈ reported, entry.path <+: path.names
  isDirectory : entry.isDirectory = true ↔ ∃ path ∈ reported, path.HasBelow entry.path

/-- `normalize_parent_path` leaves no empty part. -/
def Normal (parent : Segments) : Prop := ∀ name ∈ parent, name ≠ []

/-- The paths that git reports for the pathspec of a parent. That of the root is `.`. -/
def matched (matchesPath : Segments → Reported → Bool) (reported : List Reported)
    (parent : Segments) : List Reported :=
  if parent = [] then reported else reported.filter (matchesPath parent)

def childrenOf (matchesPath : Segments → Reported → Bool) (reported : List Reported)
    (parent : Segments) : List DirectoryFileEntry :=
  listGitChildren ((matched matchesPath reported parent).map Reported.printed) parent

structure ListingsAgree (matchesPath : Segments → Reported → Bool) (reported : List Reported) :
    Prop where
  once : ∀ parent, Normal parent →
    ((childrenOf matchesPath reported parent).map DirectoryFileEntry.path).Nodup
  right : ∀ parent, Normal parent → ∀ entry,
    entry ∈ childrenOf matchesPath reported parent ↔ Right reported parent entry
  deep : (listGitDeep (reported.map Reported.printed)).truncated = false → ∀ parent, Normal parent →
      (listGitDeep (reported.map Reported.printed)).entries.filter (·.path.dropLast = parent) =
        childrenOf matchesPath reported parent

/-- The pathspec of a parent matches a path for each name in it, and for each directory in it a path
that shows it to be one. -/
def Matches (matchesPath : Segments → Reported → Bool) (reported : List Reported)
    (parent : Segments) : Prop :=
  ∀ path ∈ reported, ∀ name, parent ++ [name] <+: path.names →
    ∃ other ∈ matched matchesPath reported parent, parent ++ [name] <+: other.names ∧
      (path.HasBelow (parent ++ [name]) → other.HasBelow (parent ++ [name]))

/-- The first of the paths at or below a path is the path itself only where it is a file. -/
def FirstShows (reported : List Reported) : Prop :=
  ∀ directory first, reported.find? (fun path => directory.isPrefixOf path.names) = some first →
    first.names = directory → ∀ path ∈ reported, ¬path.HasBelow directory

/-- The paths and the directories that they lie in. -/
def allPaths (reported : List Reported) : List Segments :=
  (reported.flatMap fun path => path.names.inits.filter (· ≠ [])).dedup

structure ListingsClean (matchesPath : Segments → Reported → Bool) (reported : List Reported) :
    Prop where
  plain : ∀ path ∈ reported, path.isPlain = true
  isMatched : ∀ parent, Normal parent → Matches matchesPath reported parent
  first : (allPaths reported).length ≤ maxDeepEntries → FirstShows reported

section
variable {parent : Segments} {path : Reported} {name : Name}

theorem stripPrefix_append (parent : Segments) {rest : Segments} (notEmpty : rest ≠ []) :
    stripPrefix parent (parent ++ rest) = some rest := by
  induction parent with
  | nil =>
    cases rest with
    | nil => exact absurd rfl notEmpty
    | cons segment rest => rfl
  | cons segment parent ih =>
    rw [List.cons_append, stripPrefix, if_pos rfl, ih]

theorem stripPrefix_some (parent : Segments) : ∀ {line rest : Segments},
    stripPrefix parent line = some rest → line = parent ++ rest := by
  induction parent with
  | nil =>
    intro line rest isRest
    cases line with
    | nil => cases isRest
    | cons segment line =>
      cases isRest
      rfl
  | cons segment parent ih =>
    intro line rest isRest
    cases line with
    | nil => cases isRest
    | cons other line =>
      rw [stripPrefix] at isRest
      split_ifs at isRest with isSame
      rw [isSame, ih isRest, List.cons_append]

theorem find_name (notEmpty : name ≠ []) (rest : Segments) :
    (name :: rest).find? (· ≠ []) = some name :=
  List.find?_cons_of_pos (by simpa using notEmpty)

variable {more : List Name}

theorem childOf_segments (isPath : path.names = parent ++ name :: more) :
    childOf parent path.segments = some (name, more ≠ [] || path.endsInSlash) := by
  have notEmpty : name ≠ [] := path.namesNotEmpty name (by rw [isPath]; simp)
  have isLine : path.segments =
      parent ++ (name :: (more ++ if path.endsInSlash then [[]] else [])) := by
    unfold Reported.segments
    rw [isPath, List.append_assoc, List.cons_append]
  unfold childOf
  rw [isLine, stripPrefix_append parent (List.cons_ne_nil _ _), Option.bind_some,
    find_name notEmpty, Option.map_some]
  congr 2
  cases more <;> cases path.endsInSlash <;> simp

theorem childOf_some {child : Name × Bool} (isChild : childOf parent path.segments = some child) :
    ∃ more, path.names = parent ++ child.1 :: more := by
  obtain ⟨remainder, isRemainder, isName⟩ := Option.bind_eq_some_iff.mp isChild
  obtain ⟨name, isFound, rfl⟩ := Option.map_eq_some_iff.mp isName
  have isLine := stripPrefix_some parent isRemainder
  have notEmpty : name ≠ [] := by simpa using List.find?_some isFound
  -- What follows the names is at most the empty segment of a trailing slash.
  have onlyEmpty : ∀ segment ∈ (if path.endsInSlash then [[]] else [] : Segments),
      segment = [] := by
    split_ifs <;> simp
  rcases List.append_eq_append_iff.mp isLine with ⟨_, _, isTail⟩ | ⟨rest, isNames, isRest⟩
  · have isIn := List.mem_of_find?_eq_some isFound
    exact absurd (onlyEmpty name (by rw [isTail]; exact List.mem_append_right _ isIn)) notEmpty
  · cases rest with
    | nil =>
      have isIn := List.mem_of_find?_eq_some isFound
      rw [isRest, List.nil_append] at isIn
      exact absurd (onlyEmpty name isIn) notEmpty
    | cons first more =>
      have firstNotEmpty : first ≠ [] := path.namesNotEmpty first (by rw [isNames]; simp)
      rw [isRest, List.cons_append, find_name firstNotEmpty] at isFound
      cases isFound
      exact ⟨more, isNames⟩

theorem prefix_iff : parent ++ [name] <+: path.names ↔
    ∃ more, path.names = parent ++ name :: more := by
  constructor
  · rintro ⟨more, isNames⟩
    exact ⟨more, by rw [← isNames, List.append_assoc, List.singleton_append]⟩
  · rintro ⟨more, isNames⟩
    exact ⟨more, by rw [isNames, List.append_assoc, List.singleton_append]⟩

theorem hasBelow_iff (isPath : path.names = parent ++ name :: more) :
    path.HasBelow (parent ++ [name]) ↔ (more ≠ [] || path.endsInSlash) = true := by
  unfold Reported.HasBelow
  rw [and_iff_right (prefix_iff.mpr ⟨more, isPath⟩), isPath, Bool.or_eq_true, decide_eq_true_eq]
  refine or_congr_left (not_congr ?_)
  simp

end

/-! ## The children of a parent -/

section
variable {parent : Segments}

def isDirectoryIn (found : List (Name × Bool)) (name : Name) : Bool :=
  found.any fun child => child.1 = name && child.2

theorem isDirectoryIn_concat (found : List (Name × Bool)) (child : Name × Bool) (name : Name) :
    isDirectoryIn (found ++ [child]) name =
      (isDirectoryIn found name || (child.1 = name && child.2)) := by
  unfold isDirectoryIn
  rw [List.any_append, List.any_cons, List.any_nil, Bool.or_false]

theorem childEntry_path_inj {first second : Name × Bool} :
    (childEntry parent first).path = (childEntry parent second).path ↔ first.1 = second.1 := by
  unfold childEntry
  simp

variable {found : List (Name × Bool)} {new : Name × Bool} {entries : List DirectoryFileEntry}
  {paths : List Reported}

theorem isDirectoryIn_concat_other {name : Name} (isOther : new.1 ≠ name) :
    isDirectoryIn (found ++ [new]) name = isDirectoryIn found name := by
  rw [isDirectoryIn_concat, decide_eq_false isOther, Bool.false_and, Bool.or_false]

theorem isDirectoryIn_concat_new (isNew : ¬∃ child ∈ found, child.1 = new.1) :
    isDirectoryIn (found ++ [new]) new.1 = new.2 := by
  have noneFound : isDirectoryIn found new.1 = false := by
    refine List.any_eq_false.mpr fun child isChild isTrue => ?_
    exact isNew ⟨child, isChild, of_decide_eq_true (Bool.and_eq_true_iff.mp isTrue).1⟩
  rw [isDirectoryIn_concat, noneFound, decide_eq_true rfl, Bool.true_and, Bool.false_or]

theorem childEntry_marked (found : List (Name × Bool)) (new : Name × Bool) (name : Name) :
    (if (childEntry parent (name, isDirectoryIn found name)).path = (childEntry parent new).path &&
        (childEntry parent new).isDirectory then
      { childEntry parent (name, isDirectoryIn found name) with isDirectory := true }
    else childEntry parent (name, isDirectoryIn found name)) =
      childEntry parent (name, isDirectoryIn (found ++ [new]) name) := by
  by_cases isName : new.1 = name
  · subst isName
    have isSame : (childEntry parent (new.1, isDirectoryIn found new.1)).path =
        (childEntry parent new).path := childEntry_path_inj.mpr rfl
    rw [isDirectoryIn_concat, decide_eq_true isSame, decide_eq_true (rfl : new.1 = new.1),
      Bool.true_and, Bool.true_and]
    unfold childEntry
    dsimp only
    split_ifs with isNew
    · rw [isNew, Bool.or_true]
    · rw [Bool.eq_false_of_not_eq_true isNew, Bool.or_false]
  · rw [isDirectoryIn_concat_other isName,
      decide_eq_false fun isSame => isName (childEntry_path_inj.mp isSame).symm, Bool.false_and,
      if_neg Bool.false_ne_true]

theorem mem_foldl_putChild (parent : Segments) (found : List (Name × Bool)) :
    ∀ entry, entry ∈ (found.map (childEntry parent)).foldl putChild [] ↔
      ∃ child ∈ found, entry = childEntry parent (child.1, isDirectoryIn found child.1) := by
  induction found using List.reverseRecOn with
  | nil => simp
  | append_singleton found new ih =>
    intro entry
    rw [List.map_append, List.foldl_append, List.map_singleton, List.foldl_cons, List.foldl_nil]
    have isThere : (((found.map (childEntry parent)).foldl putChild []).any
        (·.path = (childEntry parent new).path)) = true ↔ ∃ child ∈ found, child.1 = new.1 := by
      rw [List.any_eq_true]
      constructor
      · rintro ⟨other, isIn, isSame⟩
        obtain ⟨child, isChild, rfl⟩ := (ih other).mp isIn
        exact ⟨child, isChild, childEntry_path_inj.mp (of_decide_eq_true isSame)⟩
      · rintro ⟨child, isChild, isSame⟩
        exact ⟨_, (ih _).mpr ⟨child, isChild, rfl⟩, decide_eq_true (childEntry_path_inj.mpr isSame)⟩
    by_cases isKnown : ∃ child ∈ found, child.1 = new.1
    · rw [putChild, if_pos (isThere.mpr isKnown), List.mem_map]
      constructor
      · rintro ⟨other, isIn, rfl⟩
        obtain ⟨child, isChild, rfl⟩ := (ih other).mp isIn
        exact ⟨child, List.mem_append_left _ isChild, childEntry_marked found new child.1⟩
      · rintro ⟨child, isChild, rfl⟩
        obtain ⟨known, isKnownIn, isSame⟩ : ∃ known ∈ found, known.1 = child.1 := by
          rcases List.mem_append.mp isChild with isOld | isNew
          · exact ⟨child, isOld, rfl⟩
          · rw [List.mem_singleton.mp isNew]
            exact isKnown
        rw [← isSame]
        exact ⟨_, (ih _).mpr ⟨known, isKnownIn, rfl⟩, childEntry_marked found new known.1⟩
    · rw [putChild, if_neg fun isTrue => isKnown (isThere.mp isTrue), List.mem_append,
        List.mem_singleton, ih]
      have notOld : ∀ child ∈ found, isDirectoryIn (found ++ [new]) child.1 =
          isDirectoryIn found child.1 := fun child isChild =>
        isDirectoryIn_concat_other fun isSame => isKnown ⟨child, isChild, isSame.symm⟩
      have isNew : isDirectoryIn (found ++ [new]) new.1 = new.2 :=
        isDirectoryIn_concat_new isKnown
      constructor
      · rintro (⟨child, isChild, rfl⟩ | rfl)
        · exact ⟨child, List.mem_append_left _ isChild, by rw [notOld child isChild]⟩
        · exact ⟨new, List.mem_append_right _ (List.mem_singleton_self new), by rw [isNew]⟩
      · rintro ⟨child, isChild, rfl⟩
        rcases List.mem_append.mp isChild with isOld | isLast
        · exact .inl ⟨child, isOld, by rw [notOld child isOld]⟩
        · rw [List.mem_singleton.mp isLast, isNew]
          exact .inr rfl

theorem concat_nodup {entry : DirectoryFileEntry}
    (nodup : (entries.map DirectoryFileEntry.path).Nodup)
    (isNew : ¬(entries.any (·.path = entry.path)) = true) :
    ((entries ++ [entry]).map DirectoryFileEntry.path).Nodup := by
  rw [List.map_append, List.map_singleton]
  refine List.nodup_append.mpr ⟨nodup, List.nodup_singleton _, ?_⟩
  intro path isIn other isOther isSame
  obtain ⟨old, isOld, rfl⟩ := List.mem_map.mp isIn
  rw [List.mem_singleton.mp isOther] at isSame
  exact isNew (List.any_eq_true.mpr ⟨old, isOld, decide_eq_true isSame⟩)

/-- What adds entries one behind the other keeps their paths apart where each addition does. -/
theorem foldl_nodup {Added : Type} (add : List DirectoryFileEntry → Added →
      List DirectoryFileEntry) (added : List Added) {start : List DirectoryFileEntry}
    (nodup : (start.map DirectoryFileEntry.path).Nodup)
    (keeps : ∀ entries new, (entries.map DirectoryFileEntry.path).Nodup →
      ((add entries new).map DirectoryFileEntry.path).Nodup) :
    ((added.foldl add start).map DirectoryFileEntry.path).Nodup :=
  List.foldlRecOn (motive := fun entries => (entries.map DirectoryFileEntry.path).Nodup) added add
    nodup fun entries kept new _ => keeps entries new kept

theorem putChild_nodup (entry : DirectoryFileEntry)
    (nodup : (entries.map DirectoryFileEntry.path).Nodup) :
    ((putChild entries entry).map DirectoryFileEntry.path).Nodup := by
  unfold putChild
  split_ifs with isThere
  · rw [List.map_map]
    convert nodup using 2
    funext other
    dsimp only [Function.comp]
    split_ifs <;> rfl
  · exact concat_nodup nodup isThere

theorem listGitChildren_nodup (lines : List Segments) (parent : Segments) :
    ((listGitChildren lines parent).map DirectoryFileEntry.path).Nodup :=
  ((List.perm_insertionSort _ _).map _).nodup_iff.mpr
    (foldl_nodup putChild _ List.nodup_nil fun _ entry nodup => putChild_nodup entry nodup)

theorem mem_listGitChildren {lines : List Segments} {entry : DirectoryFileEntry} :
    entry ∈ listGitChildren lines parent ↔ ∃ child ∈ lines.filterMap (childOf parent),
      entry = childEntry parent
        (child.1, isDirectoryIn (lines.filterMap (childOf parent)) child.1) := by
  unfold listGitChildren sortEntries children
  rw [List.mem_insertionSort, mem_foldl_putChild]

theorem printed_of_isPlain {path : Reported} (isPlain : path.isPlain = true) :
    path.printed = path.segments :=
  if_pos isPlain

theorem map_printed (plain : ∀ path ∈ paths, path.isPlain = true) :
    paths.map Reported.printed = paths.map Reported.segments :=
  List.map_congr_left fun path isIn => printed_of_isPlain (plain path isIn)

theorem entryDepth_eq {name : Name} (normal : Normal parent) (notEmpty : name ≠ []) :
    entryDepth (parent ++ [name]) = parent.length := by
  have allKept : (parent ++ [name]).filter (· ≠ []) = parent ++ [name] := by
    refine List.filter_eq_self.mpr fun other isIn => decide_eq_true ?_
    rcases List.mem_append.mp isIn with isParent | isName
    · exact normal other isParent
    · rw [List.mem_singleton.mp isName]
      exact notEmpty
  unfold entryDepth
  rw [allKept, List.length_append]
  rfl

theorem name_ne_nil {path : Reported} {name : Name} (isIn : parent ++ [name] <+: path.names) :
    name ≠ [] :=
  path.namesNotEmpty name (isIn.subset (by simp))

theorem Right.eq {reported : List Reported} {first second : DirectoryFileEntry}
    (isFirst : Right reported parent first) (isSecond : Right reported parent second)
    (isSame : first.name = second.name) : first = second := by
  have samePath : first.path = second.path := by
    rw [isFirst.path, isSecond.path, isSame]
  have sameDepth := isFirst.depth.trans isSecond.depth.symm
  have sameType : first.isDirectory = second.isDirectory := by
    rw [Bool.eq_iff_iff, isFirst.isDirectory, isSecond.isDirectory, samePath]
  cases first
  cases second
  cases isSame
  cases samePath
  cases sameDepth
  cases sameType
  rfl

theorem mem_children_iff {entry : DirectoryFileEntry} (normal : Normal parent)
    (plain : ∀ path ∈ paths, path.isPlain = true) :
    entry ∈ listGitChildren (paths.map Reported.printed) parent ↔ Right paths parent entry := by
  rw [mem_listGitChildren, map_printed plain]
  have found : ∀ {child : Name × Bool},
      child ∈ (paths.map Reported.segments).filterMap (childOf parent) ↔
        ∃ path ∈ paths, childOf parent path.segments = some child := by
    intro child
    rw [List.filterMap_map, List.mem_filterMap]
    rfl
  have isDirectory : ∀ name, isDirectoryIn
      ((paths.map Reported.segments).filterMap (childOf parent)) name = true ↔
        ∃ path ∈ paths, path.HasBelow (parent ++ [name]) := by
    intro name
    unfold isDirectoryIn
    rw [List.any_eq_true]
    constructor
    · rintro ⟨child, isChild, isTrue⟩
      obtain ⟨isName, isDir⟩ := Bool.and_eq_true_iff.mp isTrue
      obtain ⟨path, isPath, ofPath⟩ := found.mp isChild
      obtain ⟨more, isNames⟩ := childOf_some ofPath
      rw [← of_decide_eq_true isName]
      rw [childOf_segments isNames] at ofPath
      refine ⟨path, isPath, (hasBelow_iff isNames).mpr ?_⟩
      exact (congrArg Prod.snd (Option.some.inj ofPath)).trans isDir
    · rintro ⟨path, isPath, isBelow⟩
      obtain ⟨more, isNames⟩ := prefix_iff.mp isBelow.1
      refine ⟨_, found.mpr ⟨path, isPath, childOf_segments isNames⟩, ?_⟩
      rw [decide_eq_true rfl, Bool.true_and]
      exact (hasBelow_iff isNames).mp isBelow
  constructor
  · rintro ⟨child, isChild, rfl⟩
    obtain ⟨path, isPath, ofPath⟩ := found.mp isChild
    have isUnder := prefix_iff.mpr (childOf_some ofPath)
    exact ⟨rfl, entryDepth_eq normal (name_ne_nil isUnder), ⟨path, isPath, isUnder⟩,
      isDirectory child.1⟩
  · intro isRight
    obtain ⟨path, isPath, isUnder⟩ := isRight.isThere
    rw [isRight.path] at isUnder
    obtain ⟨more, isNames⟩ := prefix_iff.mp isUnder
    have isChild := found.mpr ⟨path, isPath, childOf_segments isNames⟩
    refine ⟨_, isChild, isRight.eq ⟨rfl, entryDepth_eq normal (name_ne_nil isUnder),
      ⟨path, isPath, isUnder⟩, isDirectory entry.name⟩ rfl⟩

end

/-! ## The entries of all lines -/

section
variable {entry : DirectoryFileEntry}

theorem mem_ancestors (parts : List Name) : ∀ {current : Segments} {entry : DirectoryFileEntry},
    entry ∈ ancestors current parts ↔ ∃ front rest, parts = front ++ entry.name :: rest ∧
      entry.path = current ++ front ++ [entry.name] ∧ (entry.isDirectory = true ↔ rest ≠ []) ∧
        entry.depth = current.length + front.length := by
  induction parts with
  | nil =>
    intro current entry
    refine ⟨nofun, ?_⟩
    rintro ⟨front, rest, isParts, _⟩
    exact absurd isParts.symm (by simp)
  | cons part parts ih =>
    intro current entry
    rw [ancestors, List.mem_cons, ih]
    constructor
    · rintro (rfl | ⟨front, rest, isParts, isPath, isDirectory, isDepth⟩)
      · exact ⟨[], parts, rfl, by rw [List.append_nil], decide_eq_true_iff, rfl⟩
      · refine ⟨part :: front, rest, by rw [isParts, List.cons_append], ?_, isDirectory, ?_⟩
        · rw [isPath]
          simp
        · rw [isDepth, List.length_append, List.length_singleton, List.length_cons]
          omega
    · rintro ⟨front, rest, isParts, isPath, isDirectory, isDepth⟩
      cases front with
      | nil =>
        left
        obtain ⟨rfl, rfl⟩ := List.cons.inj isParts
        rw [List.append_nil] at isPath
        rcases entry with ⟨path, name, kind, depth⟩
        have isKind : kind = decide (parts ≠ []) := by
          rw [Bool.eq_iff_iff, decide_eq_true_iff]
          exact isDirectory
        subst isKind
        dsimp only at isPath isDepth ⊢
        rw [isPath, isDepth, List.length_nil, Nat.add_zero]
      | cons first front =>
        right
        obtain ⟨rfl, rfl⟩ := List.cons.inj isParts
        refine ⟨front, rest, rfl, ?_, isDirectory, ?_⟩
        · rw [isPath]
          simp
        · rw [isDepth, List.length_append, List.length_singleton, List.length_cons]
          omega

theorem ancestors_nodup (parts : List Name) : ∀ current : Segments,
    ((ancestors current parts).map DirectoryFileEntry.path).Nodup := by
  induction parts with
  | nil => exact fun _ => List.nodup_nil
  | cons part parts ih =>
    intro current
    rw [ancestors, List.map_cons]
    refine List.nodup_cons.mpr ⟨fun isIn => ?_, ih _⟩
    obtain ⟨later, isLater, isSame⟩ := List.mem_map.mp isIn
    obtain ⟨front, _, _, isPath, _⟩ := (mem_ancestors parts).mp isLater
    have sameLength := congrArg List.length (isPath.symm.trans isSame)
    simp at sameLength

theorem mem_foldl_insertNew (new : List DirectoryFileEntry) :
    ∀ {entries : List DirectoryFileEntry}, (new.map DirectoryFileEntry.path).Nodup →
      (entry ∈ new.foldl insertNew entries ↔
        entry ∈ entries ∨ (entry ∈ new ∧ ∀ other ∈ entries, other.path ≠ entry.path)) := by
  induction new with
  | nil =>
    intro entries _
    exact ⟨.inl, fun isIn => isIn.elim id fun isNew => absurd isNew.1 List.not_mem_nil⟩
  | cons first new ih =>
    intro entries nodup
    obtain ⟨isOnly, restNodup⟩ := List.nodup_cons.mp nodup
    rw [List.foldl_cons, ih restNodup, insertNew]
    by_cases isThere : (entries.any (·.path = first.path)) = true
    · rw [if_pos isThere, List.mem_cons]
      refine or_congr_right (and_congr_left fun isFree => ?_)
      refine ⟨.inr, fun isNew => isNew.elim (fun isFirst => ?_) id⟩
      obtain ⟨other, isOther, isSame⟩ := List.any_eq_true.mp isThere
      exact absurd (isFirst ▸ of_decide_eq_true isSame) (isFree other isOther)
    · rw [if_neg isThere, List.mem_append, List.mem_singleton, List.mem_cons]
      have isFree : ∀ other ∈ entries, other.path ≠ first.path := fun other isOther isSame =>
        isThere (List.any_eq_true.mpr ⟨other, isOther, decide_eq_true isSame⟩)
      constructor
      · rintro ((isOld | rfl) | ⟨isNew, isFreeBoth⟩)
        · exact .inl isOld
        · exact .inr ⟨.inl rfl, isFree⟩
        · exact .inr ⟨.inr isNew, fun other isOther =>
            isFreeBoth other (List.mem_append_left _ isOther)⟩
      · rintro (isOld | ⟨rfl | isNew, isFreeOld⟩)
        · exact .inl (Or.inl isOld)
        · exact .inl (Or.inr rfl)
        · refine .inr ⟨isNew, fun other isOther => ?_⟩
          rcases List.mem_append.mp isOther with isOld | isLast
          · exact isFreeOld other isOld
          · rw [List.mem_singleton.mp isLast]
            exact fun isSame => isOnly (List.mem_map.mpr ⟨entry, isNew, isSame.symm⟩)

theorem insertNew_nodup {entries : List DirectoryFileEntry} (entry : DirectoryFileEntry)
    (nodup : (entries.map DirectoryFileEntry.path).Nodup) :
    ((insertNew entries entry).map DirectoryFileEntry.path).Nodup := by
  unfold insertNew
  split_ifs with isThere
  · exact nodup
  · exact concat_nodup nodup isThere

theorem deepEntries_nodup (lines : List Segments) :
    ((deepEntries lines).map DirectoryFileEntry.path).Nodup :=
  foldl_nodup insertWithAncestors lines List.nodup_nil fun _ _ nodup =>
    foldl_nodup insertNew _ nodup fun _ entry nodup => insertNew_nodup entry nodup

def partsOf (line : Segments) : List Name := line.filter (· ≠ [])

def firstUnder (path : Segments) (lines : List Segments) : Option Segments :=
  lines.find? fun line => path.isPrefixOf (partsOf line)

theorem prefix_of_ancestor {parts : List Name} (isIn : entry ∈ ancestors [] parts) :
    entry.path <+: parts := by
  obtain ⟨front, rest, isParts, isPath, _⟩ := (mem_ancestors parts).mp isIn
  exact ⟨rest, by rw [isPath, isParts]; simp⟩

theorem exists_ancestor {parts path : List Name} (notEmpty : path ≠ []) (isUnder : path <+: parts) :
    ∃ entry ∈ ancestors [] parts, entry.path = path := by
  obtain ⟨rest, rfl⟩ := isUnder
  refine ⟨⟨path, path.getLast notEmpty, rest ≠ [], path.length - 1⟩,
    (mem_ancestors _).mpr ⟨path.dropLast, rest, ?_, ?_, decide_eq_true_iff, ?_⟩, rfl⟩
  · dsimp only
    rw [List.append_cons, List.dropLast_append_getLast]
  · dsimp only
    rw [List.nil_append, List.dropLast_append_getLast]
  · dsimp only
    rw [List.length_dropLast, List.length_nil, Nat.zero_add]

theorem mem_deepEntries (lines : List Segments) : ∀ entry : DirectoryFileEntry,
    entry ∈ deepEntries lines ↔ ∃ line, firstUnder entry.path lines = some line ∧
      entry ∈ ancestors [] (partsOf line) := by
  induction lines using List.reverseRecOn with
  | nil => exact fun entry => ⟨nofun, nofun⟩
  | append_singleton lines line ih =>
    intro entry
    have isLater : deepEntries (lines ++ [line]) =
        (ancestors [] (partsOf line)).foldl insertNew (deepEntries lines) := by
      unfold deepEntries
      rw [List.foldl_append]
      rfl
    rw [isLater, mem_foldl_insertNew _ (ancestors_nodup _ _)]
    unfold firstUnder
    rw [List.find?_append]
    cases isFirst : lines.find? (fun line => entry.path.isPrefixOf (partsOf line)) with
    | some first =>
      rw [Option.some_or]
      have isOld : entry ∈ deepEntries lines ↔ entry ∈ ancestors [] (partsOf first) := by
        rw [ih]
        unfold firstUnder
        rw [isFirst]
        simp
      rw [isOld]
      constructor
      · rintro (isIn | ⟨isNew, isFree⟩)
        · exact ⟨first, rfl, isIn⟩
        -- An earlier line has made an entry for this path, so that no new one is inserted.
        · have notEmpty : entry.path ≠ [] := by
            obtain ⟨front, _, _, isPath, _⟩ := (mem_ancestors _).mp isNew
            rw [isPath]
            simp
          have isUnder := List.find?_some isFirst
          obtain ⟨other, isOther, isSame⟩ := exists_ancestor notEmpty
            (List.isPrefixOf_iff_prefix.mp isUnder)
          refine absurd isSame
            (isFree other ((ih other).mpr ⟨first, ?_, isOther⟩))
          unfold firstUnder
          rw [isSame, isFirst]
      · rintro ⟨_, isSame, isIn⟩
        cases isSame
        exact .inl isIn
    | none =>
      rw [Option.none_or]
      have noneWithPath : ∀ other ∈ deepEntries lines, other.path ≠ entry.path := by
        intro other isOther isSame
        obtain ⟨first, isFound, _⟩ := (ih other).mp isOther
        unfold firstUnder at isFound
        simp [isSame, isFirst] at isFound
      constructor
      · rintro (isOld | ⟨isNew, _⟩)
        · exact absurd rfl (noneWithPath entry isOld)
        · refine ⟨line, ?_, isNew⟩
          rw [List.find?_singleton,
            if_pos (List.isPrefixOf_iff_prefix.mpr (prefix_of_ancestor isNew))]
      · rintro ⟨other, isFound, isIn⟩
        rw [List.find?_singleton] at isFound
        split_ifs at isFound
        cases isFound
        exact .inr ⟨isIn, noneWithPath⟩

end

section
variable {reported : List Reported} {parent : Segments} {entry : DirectoryFileEntry}

theorem partsOf_segments (path : Reported) : partsOf path.segments = path.names := by
  unfold partsOf Reported.segments
  rw [List.filter_append, List.filter_eq_self.mpr fun name isIn =>
    decide_eq_true (path.namesNotEmpty name isIn)]
  split_ifs <;> simp

def firstReported (reported : List Reported) (directory : Segments) : Option Reported :=
  reported.find? fun path => directory.isPrefixOf path.names

theorem prefix_of_firstReported {directory : Segments} {first : Reported}
    (isFirst : firstReported reported directory = some first) : directory <+: first.names := by
  have isUnder := List.find?_some isFirst
  exact List.isPrefixOf_iff_prefix.mp isUnder

theorem firstUnder_printed (plain : ∀ path ∈ reported, path.isPlain = true)
    (directory : Segments) : firstUnder directory (reported.map Reported.printed) =
      (firstReported reported directory).map Reported.segments := by
  unfold firstUnder firstReported
  rw [map_printed plain, List.find?_map]
  congr 2
  funext path
  show directory.isPrefixOf (partsOf path.segments) = _
  rw [partsOf_segments]

theorem mem_deep_iff (plain : ∀ path ∈ reported, path.isPlain = true) :
    entry ∈ deepEntries (reported.map Reported.printed) ↔ ∃ parent first,
      firstReported reported entry.path = some first ∧ entry.path = parent ++ [entry.name] ∧
        entry.depth = parent.length ∧ (entry.isDirectory = true ↔ first.names ≠ entry.path) := by
  rw [mem_deepEntries, firstUnder_printed plain]
  constructor
  · rintro ⟨line, isLine, isIn⟩
    obtain ⟨first, isFirst, rfl⟩ := Option.map_eq_some_iff.mp isLine
    rw [partsOf_segments] at isIn
    obtain ⟨front, rest, isNames, isPath, isDirectory, isDepth⟩ := (mem_ancestors _).mp isIn
    rw [List.nil_append] at isPath
    rw [List.length_nil, Nat.zero_add] at isDepth
    refine ⟨front, first, isFirst, isPath, isDepth, ?_⟩
    rw [isDirectory, isPath, isNames]
    refine not_congr ?_
    simp
  · rintro ⟨parent, first, isFirst, isPath, isDepth, isDirectory⟩
    refine ⟨first.segments, by rw [isFirst, Option.map_some], ?_⟩
    have isUnder := prefix_of_firstReported isFirst
    rw [isPath] at isUnder
    obtain ⟨rest, isNames⟩ := prefix_iff.mp isUnder
    rw [partsOf_segments]
    refine (mem_ancestors _).mpr ⟨parent, rest, isNames, isPath, ?_, ?_⟩
    · rw [isDirectory, isPath, isNames]
      refine not_congr ?_
      simp
    · rw [isDepth, List.length_nil, Nat.zero_add]

end

section
variable {reported : List Reported} {parent : Segments}

theorem escape_ne_nil (c : Char) : escape c ≠ [] := by
  unfold escape
  cases letterOf c with
  | some letter => exact List.cons_ne_nil _ _
  | none =>
    dsimp only
    split_ifs
    · exact List.cons_ne_nil _ _
    · intro isNil
      have noBytes : ∀ byte ∈ String.utf8EncodeChar c, octal byte = [] :=
        List.flatMap_eq_nil_iff.mp isNil
      cases isBytes : String.utf8EncodeChar c with
      | nil =>
        have isLength := String.length_utf8EncodeChar c
        rw [isBytes] at isLength
        have isPositive := Char.utf8Size_pos c
        rw [← isLength] at isPositive
        exact absurd isPositive (Nat.lt_irrefl 0)
      | cons byte rest =>
        have isEmpty := noBytes byte (by rw [isBytes]; exact List.mem_cons_self ..)
        cases isEmpty

theorem length_le_escaped (name : Name) : name.length ≤ (name.flatMap escape).length := by
  induction name with
  | nil => exact Nat.le_refl 0
  | cons c rest ih =>
    have isPositive := List.length_pos_iff.mpr (escape_ne_nil c)
    rw [List.flatMap_cons, List.length_append, List.length_cons]
    omega

theorem quoted_cons (name : Name) (rest : Segments) :
    ∃ tail later, quoted (name :: rest) = ('"' :: (name.flatMap escape ++ tail)) :: later := by
  unfold quoted
  rw [List.map_cons, List.modifyHead_cons]
  cases rest with
  | nil => exact ⟨['"'], [], rfl⟩
  | cons other rest =>
    refine ⟨[], closeQuote ((other :: rest).map fun name => name.flatMap escape), ?_⟩
    rw [List.append_nil]
    rfl

def Reported.head (path : Reported) : Name := path.names.head path.notEmpty

theorem Reported.names_eq (path : Reported) : path.names = path.head :: path.names.tail :=
  (List.cons_head_tail path.notEmpty).symm

/-- A quoted name at the root is no name of a plain path, and longer than its own. -/
theorem quoted_grows (right : ∀ entry, entry ∈ listGitChildren (reported.map Reported.printed) [] ↔
    Right reported [] entry) {path : Reported} (isIn : path ∈ reported)
    (notPlain : path.isPlain = false) :
    ∃ other ∈ reported, other.isPlain = false ∧ path.head.length < other.head.length := by
  obtain ⟨tail, later, isQuoted⟩ := quoted_cons path.head
    (path.names.tail ++ if path.endsInSlash then [[]] else [])
  have isPrinted : path.printed = ('"' :: (path.head.flatMap escape ++ tail)) :: later := by
    unfold Reported.printed Reported.segments
    rw [notPlain, if_neg Bool.false_ne_true, path.names_eq, List.cons_append]
    exact isQuoted
  have isChild : childOf [] path.printed =
      some ('"' :: (path.head.flatMap escape ++ tail), decide (1 < path.printed.length)) := by
    unfold childOf
    rw [isPrinted, stripPrefix, Option.bind_some, find_name (List.cons_ne_nil _ _)]
    rfl
  have isListed := (right _).mp (mem_listGitChildren.mpr
    ⟨_, List.mem_filterMap.mpr ⟨_, List.mem_map.mpr ⟨path, isIn, rfl⟩, isChild⟩, rfl⟩)
  obtain ⟨other, isOther, isUnder⟩ := isListed.isThere
  obtain ⟨more, isNames⟩ := prefix_iff.mp isUnder
  have isHead : other.head = '"' :: (path.head.flatMap escape ++ tail) := by
    have isFirst := other.names_eq.symm.trans isNames
    exact (List.cons.inj isFirst).1
  refine ⟨other, isOther, ?_, ?_⟩
  · unfold Reported.isPlain
    rw [other.names_eq, List.all_cons, isHead, List.all_cons]
    rfl
  · have isLess := length_le_escaped path.head
    rw [isHead, List.length_cons, List.length_append]
    omega

theorem right_plain (right : ∀ entry,
    entry ∈ listGitChildren (reported.map Reported.printed) [] ↔ Right reported [] entry) :
    ∀ path ∈ reported, path.isPlain = true := by
  intro path isIn
  by_contra notPlain
  -- Each quoted path calls for a longer one, and the reported paths are finitely many.
  have grows : ∀ size, ∃ other ∈ reported, other.isPlain = false ∧ size ≤ other.head.length := by
    intro size
    induction size with
    | zero => exact ⟨path, isIn, Bool.eq_false_of_not_eq_true notPlain, Nat.zero_le _⟩
    | succ size ih =>
      obtain ⟨other, isOther, isQuoted, isLong⟩ := ih
      obtain ⟨longer, isLonger, isQuotedToo, isLess⟩ := quoted_grows right isOther isQuoted
      exact ⟨longer, isLonger, isQuotedToo, Nat.lt_of_le_of_lt isLong isLess⟩
  obtain ⟨other, isOther, _, isLong⟩ :=
    grows ((reported.map fun path => path.head.length).sum + 1)
  have isShort : other.head.length ≤ (reported.map fun path => path.head.length).sum :=
    List.single_le_sum (fun _ _ => Nat.zero_le _) _ (List.mem_map.mpr ⟨other, isOther, rfl⟩)
  omega

theorem matched_subset {matchesPath : Segments → Reported → Bool} {path : Reported}
    (isIn : path ∈ matched matchesPath reported parent) : path ∈ reported := by
  unfold matched at isIn
  split_ifs at isIn
  · exact isIn
  · exact (List.mem_filter.mp isIn).1

theorem right_matched_iff {matchesPath : Segments → Reported → Bool} :
    (∀ entry, Right (matched matchesPath reported parent) parent entry ↔
      Right reported parent entry) ↔ Matches matchesPath reported parent := by
  constructor
  · intro same path isPath name isUnder
    classical
    have isRight : Right reported parent ⟨parent ++ [name], name,
        ∃ path ∈ reported, path.HasBelow (parent ++ [name]), parent.length⟩ :=
      ⟨rfl, rfl, ⟨path, isPath, isUnder⟩, decide_eq_true_iff⟩
    have isMatched := (same _).mpr isRight
    by_cases isBelow : path.HasBelow (parent ++ [name])
    · obtain ⟨other, isOther, otherBelow⟩ :=
        isMatched.isDirectory.mp (decide_eq_true ⟨path, isPath, isBelow⟩)
      exact ⟨other, isOther, otherBelow.1, fun _ => otherBelow⟩
    · obtain ⟨other, isOther, otherUnder⟩ := isMatched.isThere
      exact ⟨other, isOther, otherUnder, fun isIt => absurd isIt isBelow⟩
  · intro isMatched entry
    have isThere : entry.path = parent ++ [entry.name] →
        ((∃ path ∈ matched matchesPath reported parent, entry.path <+: path.names) ↔
          ∃ path ∈ reported, entry.path <+: path.names) := by
      intro isPath
      rw [isPath]
      constructor
      · exact fun ⟨path, isIn, isUnder⟩ => ⟨path, matched_subset isIn, isUnder⟩
      · rintro ⟨path, isIn, isUnder⟩
        obtain ⟨other, isOther, otherUnder, _⟩ := isMatched path isIn entry.name isUnder
        exact ⟨other, isOther, otherUnder⟩
    have isDirectory : entry.path = parent ++ [entry.name] →
        ((∃ path ∈ matched matchesPath reported parent, path.HasBelow entry.path) ↔
          ∃ path ∈ reported, path.HasBelow entry.path) := by
      intro isPath
      rw [isPath]
      constructor
      · exact fun ⟨path, isIn, isBelow⟩ => ⟨path, matched_subset isIn, isBelow⟩
      · rintro ⟨path, isIn, isBelow⟩
        obtain ⟨other, isOther, _, shows⟩ := isMatched path isIn entry.name isBelow.1
        exact ⟨other, isOther, shows isBelow⟩
    constructor
    · exact fun isRight => ⟨isRight.path, isRight.depth, (isThere isRight.path).mp isRight.isThere,
        isRight.isDirectory.trans (isDirectory isRight.path)⟩
    · exact fun isRight => ⟨isRight.path, isRight.depth, (isThere isRight.path).mpr isRight.isThere,
        isRight.isDirectory.trans (isDirectory isRight.path).symm⟩

end

/-! ## Both listings -/

section
variable {reported : List Reported} {parent : Segments}

theorem pairwise_sorted {Key : Type} [LinearOrder Key] (key : DirectoryFileEntry → Key)
    (entries : List DirectoryFileEntry) :
    (entries.insertionSort fun left right => key left ≤ key right).Pairwise
      fun left right => key left ≤ key right := by
  have isTotal : Std.Total fun left right : DirectoryFileEntry => key left ≤ key right :=
    ⟨fun left right => le_total (key left) (key right)⟩
  have isTrans : IsTrans DirectoryFileEntry fun left right => key left ≤ key right :=
    ⟨fun _ _ _ => le_trans⟩
  exact List.pairwise_insertionSort _ entries

theorem order_le_of_deepOrder_le {first second : DirectoryFileEntry}
    (isFirst : first.path.dropLast = parent) (isSecond : second.path.dropLast = parent)
    (isOrdered : deepOrder first ≤ deepOrder second) : order first ≤ order second := by
  rcases Prod.Lex.toLex_le_toLex.mp isOrdered with isLess | ⟨_, isLess⟩
  · rw [isFirst, isSecond] at isLess
    exact absurd isLess (lt_irrefl _)
  · exact isLess

theorem filter_deep_eq {deep : List DirectoryFileEntry} {lines : List Segments}
    (nodup : (deep.map DirectoryFileEntry.path).Nodup)
    (same : ∀ entry, entry ∈ deep ∧ entry.path.dropLast = parent ↔
      entry ∈ listGitChildren lines parent)
    (right : ∀ entry, entry ∈ listGitChildren lines parent ↔ Right reported parent entry) :
    (sortDeepEntries deep).filter (·.path.dropLast = parent) = listGitChildren lines parent := by
  have deepNodup : ((sortDeepEntries deep).filter (·.path.dropLast = parent)).Nodup :=
    ((List.perm_insertionSort _ _).nodup_iff.mpr (List.Nodup.of_map _ nodup)).filter _
  have isPerm : ((sortDeepEntries deep).filter (·.path.dropLast = parent)).Perm
      (listGitChildren lines parent) := by
    rw [List.perm_ext_iff_of_nodup deepNodup
      (List.Nodup.of_map _ (listGitChildren_nodup lines parent))]
    intro entry
    rw [← same, List.mem_filter, decide_eq_true_eq]
    refine and_congr_left fun _ => ?_
    exact List.mem_insertionSort _
  refine List.Perm.eq_of_pairwise (fun first second isFirst isSecond le ge => ?_) ?_
    (pairwise_sorted order _) isPerm
  · -- Equal for the order means equal names, and a name has one entry in the parent.
    have isSame := le_antisymm le ge
    have isName : first.name = second.name :=
      congrArg (fun key => (ofLex (ofLex key).2).1) isSame
    exact ((right first).mp (isPerm.mem_iff.mp isFirst)).eq ((right second).mp isSecond) isName
  · refine ((pairwise_sorted deepOrder deep).filter _).imp_of_mem fun isFirst isSecond => ?_
    exact order_le_of_deepOrder_le (of_decide_eq_true (List.mem_filter.mp isFirst).2)
      (of_decide_eq_true (List.mem_filter.mp isSecond).2)

variable {directory : Segments}

theorem firstReported_isSome (isThere : ∃ path ∈ reported, directory <+: path.names) :
    ∃ first, firstReported reported directory = some first := by
  obtain ⟨path, isIn, isUnder⟩ := isThere
  refine Option.isSome_iff_exists.mp (List.find?_isSome.mpr ⟨path, isIn, ?_⟩)
  exact List.isPrefixOf_iff_prefix.mpr isUnder

theorem FirstShows.isDirectory_iff (shows : FirstShows reported) {first : Reported}
    (isFirst : firstReported reported directory = some first) :
    first.names ≠ directory ↔ ∃ path ∈ reported, path.HasBelow directory := by
  constructor
  · exact fun isLonger => ⟨first, List.mem_of_find?_eq_some isFirst,
      prefix_of_firstReported isFirst, .inl isLonger⟩
  · rintro ⟨path, isIn, isBelow⟩ isSame
    exact shows directory first isFirst isSame path isIn isBelow

theorem mem_deep_right (plain : ∀ path ∈ reported, path.isPlain = true)
    (shows : FirstShows reported) {entry : DirectoryFileEntry} :
    entry ∈ deepEntries (reported.map Reported.printed) ∧ entry.path.dropLast = parent ↔
      Right reported parent entry := by
  rw [mem_deep_iff plain]
  constructor
  · rintro ⟨⟨directory, first, isFirst, isPath, isDepth, isDirectory⟩, isParent⟩
    have isSame : directory = parent := by
      rw [isPath, List.dropLast_concat] at isParent
      exact isParent
    subst isSame
    exact ⟨isPath, isDepth, ⟨first, List.mem_of_find?_eq_some isFirst,
      prefix_of_firstReported isFirst⟩, isDirectory.trans (shows.isDirectory_iff isFirst)⟩
  · intro isRight
    obtain ⟨first, isFirst⟩ := firstReported_isSome isRight.isThere
    refine ⟨⟨parent, first, isFirst, isRight.path, isRight.depth,
      isRight.isDirectory.trans (shows.isDirectory_iff isFirst).symm⟩, ?_⟩
    rw [isRight.path, List.dropLast_concat]

theorem length_deepEntries (plain : ∀ path ∈ reported, path.isPlain = true) :
    (deepEntries (reported.map Reported.printed)).length = (allPaths reported).length := by
  rw [← List.length_map DirectoryFileEntry.path]
  refine List.Perm.length_eq ((List.perm_ext_iff_of_nodup (deepEntries_nodup _)
    (List.nodup_dedup _)).mpr fun directory => ?_)
  rw [List.mem_dedup, List.mem_flatMap, List.mem_map]
  constructor
  · rintro ⟨entry, isIn, rfl⟩
    obtain ⟨parent, first, isFirst, isPath, _⟩ := (mem_deep_iff plain).mp isIn
    refine ⟨first, List.mem_of_find?_eq_some isFirst, List.mem_filter.mpr
      ⟨(List.mem_inits _ _).mpr (prefix_of_firstReported isFirst), decide_eq_true ?_⟩⟩
    rw [isPath]
    exact List.concat_ne_nil _ _
  · rintro ⟨path, isIn, isInits⟩
    obtain ⟨isUnder, notEmpty⟩ := List.mem_filter.mp isInits
    obtain ⟨first, isFirst⟩ := firstReported_isSome ⟨path, isIn, (List.mem_inits _ _).mp isUnder⟩
    have hasLast := List.dropLast_append_getLast (of_decide_eq_true notEmpty)
    refine ⟨⟨directory, directory.getLast (of_decide_eq_true notEmpty), first.names ≠ directory,
      directory.dropLast.length⟩, (mem_deep_iff plain).mpr ⟨directory.dropLast, first, isFirst,
        hasLast.symm, rfl, decide_eq_true_iff⟩, rfl⟩

theorem truncated_iff (plain : ∀ path ∈ reported, path.isPlain = true) :
    (listGitDeep (reported.map Reported.printed)).truncated = false ↔
      (allPaths reported).length ≤ maxDeepEntries := by
  have isLength : (sortDeepEntries (deepEntries (reported.map Reported.printed))).length =
      (allPaths reported).length :=
    (List.length_insertionSort _ _).trans (length_deepEntries plain)
  unfold listGitDeep
  dsimp only
  rw [isLength, decide_eq_false_iff_not, Nat.not_lt]

theorem entries_of_complete (plain : ∀ path ∈ reported, path.isPlain = true)
    (isComplete : (allPaths reported).length ≤ maxDeepEntries) :
    (listGitDeep (reported.map Reported.printed)).entries =
      sortDeepEntries (deepEntries (reported.map Reported.printed)) := by
  refine List.take_of_length_le ?_
  rw [← length_deepEntries plain] at isComplete
  exact (List.length_insertionSort _ _).trans_le isComplete

variable {matchesPath : Segments → Reported → Bool}

theorem mem_childrenOf_iff (plain : ∀ path ∈ reported, path.isPlain = true)
    (normal : Normal parent) (entry : DirectoryFileEntry) :
    entry ∈ childrenOf matchesPath reported parent ↔
      Right (matched matchesPath reported parent) parent entry :=
  mem_children_iff normal fun path isIn => plain path (matched_subset isIn)

theorem ListingsClean.agree (clean : ListingsClean matchesPath reported) :
    ListingsAgree matchesPath reported := by
  have right : ∀ parent, Normal parent → ∀ entry,
      entry ∈ childrenOf matchesPath reported parent ↔ Right reported parent entry :=
    fun parent normal entry => (mem_childrenOf_iff clean.plain normal entry).trans
      (right_matched_iff.mpr (clean.isMatched parent normal) entry)
  refine ⟨fun parent _ => listGitChildren_nodup _ _, right, fun isComplete parent normal => ?_⟩
  have isShort := (truncated_iff clean.plain).mp isComplete
  rw [entries_of_complete clean.plain isShort]
  refine filter_deep_eq (deepEntries_nodup _) (fun entry => ?_) (right parent normal)
  exact (mem_deep_right clean.plain (clean.first isShort)).trans (right parent normal entry).symm

theorem ListingsAgree.clean (agree : ListingsAgree matchesPath reported) :
    ListingsClean matchesPath reported := by
  have plain : ∀ path ∈ reported, path.isPlain = true :=
    right_plain (agree.right [] nofun)
  refine ⟨plain, fun parent normal => right_matched_iff.mp fun entry => ?_, ?_⟩
  · exact (mem_childrenOf_iff plain normal entry).symm.trans (agree.right parent normal entry)
  · intro isShort directory first isFirst isSame path isIn isBelow
    have notEmpty : directory ≠ [] := isSame ▸ first.notEmpty
    have hasLast := List.dropLast_append_getLast notEmpty
    have normal : Normal directory.dropLast := fun name isName =>
      first.namesNotEmpty name (isSame ▸ List.mem_of_mem_dropLast isName)
    have isDeep : (⟨directory, directory.getLast notEmpty, false, directory.dropLast.length⟩ :
        DirectoryFileEntry) ∈ deepEntries (reported.map Reported.printed) :=
      (mem_deep_iff plain).mpr ⟨directory.dropLast, first, isFirst, hasLast.symm, rfl,
        ⟨nofun, absurd isSame⟩⟩
    have isListed := agree.deep ((truncated_iff plain).mpr isShort) directory.dropLast normal
    rw [entries_of_complete plain isShort] at isListed
    have isChild : (⟨directory, directory.getLast notEmpty, false, directory.dropLast.length⟩ :
        DirectoryFileEntry) ∈ childrenOf matchesPath reported directory.dropLast := by
      rw [← isListed]
      exact List.mem_filter.mpr ⟨(List.mem_insertionSort _).mpr isDeep, decide_eq_true rfl⟩
    have isRight := (agree.right directory.dropLast normal _).mp isChild
    cases isRight.isDirectory.mpr ⟨path, isIn, isBelow⟩

end

theorem listingsAgree_iff (matchesPath : Segments → Reported → Bool) (reported : List Reported) :
    ListingsAgree matchesPath reported ↔ ListingsClean matchesPath reported :=
  ⟨ListingsAgree.clean, ListingsClean.agree⟩

/-- An `e` with an acute accent. -/
def accented : Reported := ⟨[['é']], false, by decide, by decide⟩

/-- A name that is no ASCII is listed in quotes. -/
theorem not_listingsAgree : ¬∀ (matchesPath : Segments → Reported → Bool)
    (reported : List Reported), ListingsAgree matchesPath reported := by
  intro allAgree
  have clean := (allAgree (fun _ _ => true) [accented]).clean
  exact absurd (clean.plain accented (List.mem_singleton_self accented)) (by decide)

end AiTools.Grove.FileListings
