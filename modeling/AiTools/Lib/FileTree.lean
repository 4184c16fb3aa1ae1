import Mathlib

/-!
Contract: a tree of directories and files, by the paths of its nodes.
-/

namespace AiTools.Lib.FileTree

open List (append_nil cons_ne_nil mem_append mem_cons mem_cons_self mem_map)
open Function (update_of_ne update_self)

/-- The names from the root on. -/
abbrev Path := List String

/-- A part of a path goes below it, stays, or goes up; there is nothing above the root. -/
def enter (path : Path) (part : String) : Path :=
  if part = "" ∨ part = "." then path
  else if part = ".." then path.dropLast
  else path ++ [part]

def join (path : Path) (elem : String) : Path :=
  ((elem.toList.splitOn '/').map String.ofList).foldl enter path

/-! ## Paths of names -/

/-- A part that goes below. -/
structure IsName (part : String) : Prop where
  notEmpty : part ≠ ""
  notDot : part ≠ "."
  notDots : part ≠ ".."
  noSlash : '/' ∉ part.toList

def AreNames (path : Path) : Prop := ∀ part ∈ path, IsName part

variable {path : Path}

theorem enter_name {part : String} (isName : IsName part) : enter path part = path ++ [part] := by
  unfold enter
  rw [if_neg (not_or.mpr ⟨isName.notEmpty, isName.notDot⟩), if_neg isName.notDots]

theorem enter_dots (path : Path) : enter path ".." = path.dropLast := by
  unfold enter
  rw [if_neg (by decide), if_pos rfl]

theorem foldl_enter_names {names : Path} (areNames : AreNames names) : ∀ path : Path,
    names.foldl enter path = path ++ names := by
  induction names with
  | nil => exact fun path => (append_nil path).symm
  | cons name rest ih =>
    intro path
    rw [List.foldl_cons, enter_name (areNames name mem_cons_self),
      ih fun part isPart => areNames part (List.mem_cons_of_mem _ isPart), List.append_assoc]
    rfl

theorem foldl_enter_dots : ∀ (count : Nat) {path : Path}, path.length ≤ count →
    (List.replicate count "..").foldl enter path = []
  | 0, path, isShort => List.length_eq_zero_iff.mp (Nat.le_zero.mp isShort)
  | count + 1, path, isShort => by
    rw [List.replicate_succ, List.foldl_cons, enter_dots]
    refine foldl_enter_dots count ?_
    rw [List.length_dropLast]
    omega

theorem not_mem_splitOn {separator : Char} : ∀ {text : List Char},
    ∀ part ∈ text.splitOn separator, separator ∉ part
  | [] => by simp
  | char :: rest => by
    intro part isPart
    have ih := @not_mem_splitOn separator rest
    rw [List.splitOn_cons_eq_if_modifyHead] at isPart
    split_ifs at isPart with isSeparator
    · rcases mem_cons.mp isPart with rfl | isLater
      · exact List.not_mem_nil
      · exact ih part isLater
    · cases parts : rest.splitOn separator with
      | nil => exact absurd parts (List.splitOn_ne_nil _ _)
      | cons first later =>
        rw [parts] at isPart ih
        rcases mem_cons.mp isPart with rfl | isLater
        · intro isIn
          rcases mem_cons.mp isIn with rfl | isFirst
          · exact isSeparator (beq_self_eq_true _)
          · exact ih first mem_cons_self isFirst
        · exact ih part (List.mem_cons_of_mem _ isLater)

theorem enter_areNames {part : String} (areNames : AreNames path)
    (noSlash : '/' ∉ part.toList) : AreNames (enter path part) := by
  unfold enter
  split_ifs with isHere isAbove
  · exact areNames
  · exact fun other isOther => areNames other (List.mem_of_mem_dropLast isOther)
  · intro other isOther
    rcases mem_append.mp isOther with isOld | isPart
    · exact areNames other isOld
    · rw [List.mem_singleton.mp isPart]
      obtain ⟨notEmpty, notDot⟩ := not_or.mp isHere
      exact ⟨notEmpty, notDot, isAbove, noSlash⟩

theorem foldl_enter_areNames {parts : List String} : ∀ {path : Path}, AreNames path →
    (∀ part ∈ parts, '/' ∉ part.toList) → AreNames (parts.foldl enter path) := by
  induction parts with
  | nil => exact fun areNames _ => areNames
  | cons part rest ih =>
    intro path areNames noSlashes
    exact ih (enter_areNames areNames (noSlashes part mem_cons_self))
      fun other isOther => noSlashes other (List.mem_cons_of_mem _ isOther)

theorem join_areNames (areNames : AreNames path) (elem : String) : AreNames (join path elem) := by
  refine foldl_enter_areNames areNames fun part isPart => ?_
  obtain ⟨text, isText, rfl⟩ := mem_map.mp isPart
  rw [String.toList_ofList]
  exact not_mem_splitOn text isText

variable {name : String}

theorem join_name (isName : IsName name) : join path name = path ++ [name] := by
  unfold join
  rw [List.splitOn_eq_singleton isName.noSlash, List.map_singleton, String.ofList_toList]
  exact enter_name isName

/-- One text leads to a path from all paths that are not too long: up to the root, and down. -/
theorem exists_join {names : Path} (areNames : AreNames names) (notNil : names ≠ [])
    (limit : Nat) : ∃ elem, ∀ path : Path, path.length ≤ limit → join path elem = names := by
  let parts := List.replicate limit ".." ++ names
  have noSlashes : ∀ text ∈ parts.map String.toList, '/' ∉ text := by
    intro text isText
    obtain ⟨part, isPart, rfl⟩ := mem_map.mp isText
    rcases mem_append.mp isPart with isDots | isName
    · rw [List.eq_of_mem_replicate isDots]
      decide
    · exact (areNames part isName).noSlash
  have someParts : parts.map String.toList ≠ [] := by
    rw [Ne, List.map_eq_nil_iff]
    exact List.append_ne_nil_of_right_ne_nil _ notNil
  refine ⟨String.ofList (['/'].intercalate (parts.map String.toList)), fun path isShort => ?_⟩
  unfold join
  rw [String.toList_ofList, List.splitOn_intercalate '/' noSlashes someParts, List.map_map]
  have same : parts.map (String.ofList ∘ String.toList) = parts := by
    refine (List.map_congr_left fun part _ => ?_).trans (List.map_id parts)
    exact String.ofList_toList
  rw [same, List.foldl_append, foldl_enter_dots limit isShort, foldl_enter_names areNames]
  rfl

theorem exists_limit : ∀ paths : List Path, ∃ limit, ∀ path ∈ paths, path.length ≤ limit
  | [] => ⟨0, fun _ isPath => absurd isPath List.not_mem_nil⟩
  | first :: rest => by
    obtain ⟨limit, isLimit⟩ := exists_limit rest
    refine ⟨max first.length limit, fun path isPath => ?_⟩
    rcases mem_cons.mp isPath with rfl | isLater
    · exact Nat.le_max_left _ _
    · exact (isLimit path isLater).trans (Nat.le_max_right _ _)

inductive Kind where
  | dir
  | file (content : String)
deriving DecidableEq

structure Tree where
  kind : Path → Option Kind
  entries : Path → List String
  root : kind [] = some .dir
  closed : ∀ path name, kind (path ++ [name]) ≠ none → kind path = some .dir
  listed : ∀ path name, name ∈ entries path ↔ kind (path ++ [name]) ≠ none

def Tree.empty : Tree where
  kind path := if path = [] then some .dir else none
  entries _ := []
  root := rfl
  closed path name isSome := by
    have notRoot : path ++ [name] ≠ [] := List.append_ne_nil_of_right_ne_nil _ (by simp)
    rw [if_neg notRoot] at isSome
    exact absurd rfl isSome
  listed path name := by
    have notRoot : path ++ [name] ≠ [] := List.append_ne_nil_of_right_ne_nil _ (by simp)
    rw [if_neg notRoot]
    simp

theorem append_singleton_inj {first second : Path} {other : String} :
    first ++ [name] = second ++ [other] ↔ first = second ∧ name = other := by
  constructor
  · intro same
    obtain ⟨isPath, isName⟩ := List.append_inj' same rfl
    exact ⟨isPath, List.cons.inj isName |>.1⟩
  · rintro ⟨rfl, rfl⟩
    rfl

theorem ne_append_singleton (path : Path) (name : String) : path ≠ path ++ [name] :=
  fun same => by simpa using congrArg List.length same

/-- A node goes into a directory. A directory is not replaced by a file. -/
def Tree.CanPut (tree : Tree) (path : Path) (name : String) (kind : Kind) : Prop :=
  tree.kind path = some .dir ∧ (kind = .dir ∨ tree.kind (path ++ [name]) ≠ some .dir)

instance (tree : Tree) (path : Path) (name : String) (kind : Kind) :
    Decidable (tree.CanPut path name kind) :=
  inferInstanceAs (Decidable (_ ∧ _))

def Tree.putNode (tree : Tree) (path : Path) (name : String) (kind : Kind)
    (canPut : tree.CanPut path name kind) : Tree where
  kind := Function.update tree.kind (path ++ [name]) (some kind)
  entries := Function.update tree.entries path
    (if name ∈ tree.entries path then tree.entries path else tree.entries path ++ [name])
  root := (update_of_ne (by simp) _ _).trans tree.root
  closed other below isSome := by
    by_cases isPath : other = path ++ [name]
    · -- Only a directory has something below it.
      subst isPath
      have notNode : path ++ [name] ++ [below] ≠ path ++ [name] :=
        (ne_append_singleton _ _).symm
      rw [update_of_ne notNode] at isSome
      have wasDir := tree.closed _ below isSome
      rw [update_self, canPut.2.resolve_right fun notDir => notDir wasDir]
    · rw [update_of_ne isPath]
      by_cases isNode : other ++ [below] = path ++ [name]
      · rw [(append_singleton_inj.mp isNode).1]
        exact canPut.1
      · rw [update_of_ne isNode] at isSome
        exact tree.closed other below isSome
  listed other below := by
    by_cases isPath : other = path
    · subst isPath
      rw [update_self]
      by_cases isName : below = name
      · subst isName
        rw [update_self]
        refine iff_of_true ?_ (Option.some_ne_none _)
        split_ifs with isListed
        · exact isListed
        · exact List.mem_append_right _ mem_cons_self
      · have notNode : other ++ [below] ≠ other ++ [name] := fun same =>
          isName (append_singleton_inj.mp same).2
        rw [update_of_ne notNode, ← tree.listed other below]
        split_ifs
        · exact Iff.rfl
        · rw [mem_append, List.mem_singleton, or_iff_left isName]
    · have notNode : other ++ [below] ≠ path ++ [name] := fun same =>
        isPath (append_singleton_inj.mp same).1
      rw [update_of_ne isPath, update_of_ne notNode]
      exact tree.listed other below

/-- Fails when there is no directory to put the node into, or one in its place. -/
def Tree.put (tree : Tree) (path : Path) (name : String) (kind : Kind) : Option Tree :=
  if canPut : tree.CanPut path name kind then some (tree.putNode path name kind canPut) else none

variable {tree : Tree}

theorem Tree.put_eq_some {next : Tree} {kind : Kind} (isPut : tree.put path name kind = some next) :
    tree.CanPut path name kind ∧ next.kind = Function.update tree.kind (path ++ [name])
      (some kind) := by
  unfold Tree.put at isPut
  split_ifs at isPut with canPut
  cases isPut
  exact ⟨canPut, rfl⟩

theorem Tree.put_eq_none {kind : Kind}
    (notPut : tree.put path name kind = none) : ¬tree.CanPut path name kind := by
  unfold Tree.put at notPut
  split_ifs at notPut with canPut
  exact canPut

/-! ## Directories -/

/-- The directories from a path on that are missing are made, unless a file is in the way. -/
def Tree.mkdirFrom : Tree → Path → Path → Option Tree
  | tree, _, [] => some tree
  | tree, path, name :: rest =>
    match tree.kind (path ++ [name]) with
    | some .dir => Tree.mkdirFrom tree (path ++ [name]) rest
    | some (.file _) => none
    | none =>
      match tree.put path name .dir with
      | some made => Tree.mkdirFrom made (path ++ [name]) rest
      | none => none

def Tree.mkdirAll (tree : Tree) (path : Path) : Option Tree := tree.mkdirFrom [] path

theorem Tree.kind_above (tree : Tree) : ∀ {below : Path},
    tree.kind (path ++ below) ≠ none → below ≠ [] → tree.kind path = some .dir := by
  intro below
  induction below using List.reverseRecOn with
  | nil => exact fun _ notNil => absurd rfl notNil
  | append_singleton later name ih =>
    intro isSome _
    rw [← List.append_assoc] at isSome
    have isDir := tree.closed _ _ isSome
    cases later with
    | nil => rwa [append_nil] at isDir
    | cons first rest =>
      refine ih ?_ (cons_ne_nil _ _)
      rw [isDir]
      exact Option.some_ne_none _

theorem Tree.mkdirFrom_of_isDir : ∀ {rest path : Path},
    tree.kind (path ++ rest) = some .dir → tree.mkdirFrom path rest = some tree
  | [], _, _ => rfl
  | name :: rest, path, isDir => by
    have whole : path ++ name :: rest = path ++ [name] ++ rest := by simp
    rw [whole] at isDir
    have here : tree.kind (path ++ [name]) = some .dir := by
      cases rest with
      | nil => rwa [append_nil] at isDir
      | cons first later =>
        refine tree.kind_above ?_ (cons_ne_nil first later)
        rw [isDir]
        exact Option.some_ne_none _
    unfold Tree.mkdirFrom
    rw [here]
    exact Tree.mkdirFrom_of_isDir isDir

/-- What is made, and what stays: a node that is new is a directory on the path. -/
theorem Tree.mkdirFrom_spec : ∀ {rest : Path} {tree made : Tree} {path : Path},
    tree.kind path = some .dir → tree.mkdirFrom path rest = some made →
    made.kind (path ++ rest) = some .dir ∧ ∀ other, made.kind other = tree.kind other ∨
        tree.kind other = none ∧ other.length ≤ (path ++ rest).length
  | [], tree, made, path, isDir, isMade => by
    cases isMade
    rw [append_nil]
    exact ⟨isDir, fun _ => .inl rfl⟩
  | name :: rest, tree, made, path, isDir, isMade => by
    have whole : path ++ name :: rest = path ++ [name] ++ rest := by simp
    unfold Tree.mkdirFrom at isMade
    rw [whole]
    split at isMade
    · rename_i isThere
      exact Tree.mkdirFrom_spec isThere isMade
    · cases isMade
    · rename_i isMissing
      split at isMade
      · rename_i step isPut
        obtain ⟨_, kinds⟩ := Tree.put_eq_some isPut
        have isStep : step.kind (path ++ [name]) = some .dir := by
          rw [kinds]
          exact update_self _ _ _
        obtain ⟨isEnd, keeps⟩ := Tree.mkdirFrom_spec isStep isMade
        refine ⟨isEnd, fun other => ?_⟩
        by_cases isNode : other = path ++ [name]
        · subst isNode
          exact .inr ⟨isMissing, by simp⟩
        · have same : step.kind other = tree.kind other := by
            rw [kinds]
            exact update_of_ne isNode _ _
          rw [← same]
          exact keeps other
      · cases isMade

theorem Tree.mkdirAll_of_isDir (isDir : tree.kind path = some .dir) :
    tree.mkdirAll path = some tree :=
  Tree.mkdirFrom_of_isDir isDir

theorem Tree.mkdirAll_isDir {made : Tree}
    (isMade : tree.mkdirAll path = some made) : made.kind path = some .dir :=
  (Tree.mkdirFrom_spec tree.root isMade).1

theorem Tree.mkdirAll_below {made : Tree}
    (isMade : tree.mkdirAll path = some made) (name : String) :
    made.kind (path ++ [name]) = tree.kind (path ++ [name]) := by
  rcases (Tree.mkdirFrom_spec tree.root isMade).2 (path ++ [name]) with same | ⟨_, isShort⟩
  · exact same
  · simp at isShort

theorem Tree.mkdirAll_above {made : Tree} {above : Path}
    (isMade : tree.mkdirAll path = some made) (isAbove : above <+: path) :
    tree.kind above = none ∨ tree.kind above = some .dir := by
  obtain ⟨below, rfl⟩ := isAbove
  have isDir : made.kind above = some .dir := by
    have isEnd := Tree.mkdirAll_isDir isMade
    cases below with
    | nil => rwa [append_nil] at isEnd
    | cons name rest =>
      refine made.kind_above ?_ (cons_ne_nil name rest)
      rw [isEnd]
      exact Option.some_ne_none _
  rcases (Tree.mkdirFrom_spec tree.root isMade).2 above with same | ⟨isMissing, _⟩
  · exact .inr (same.symm.trans isDir)
  · exact .inl isMissing

theorem Tree.mkdirAll_put_eq_none {made : Tree} {kind : Kind}
    (isMade : tree.mkdirAll path = some made) (notPut : made.put path name kind = none) :
    made = tree := by
  have notAble := Tree.put_eq_none notPut
  have isDir : made.kind (path ++ [name]) = some .dir := by
    by_contra notDir
    exact notAble ⟨Tree.mkdirAll_isDir isMade, .inr notDir⟩
  rw [Tree.mkdirAll_below isMade] at isDir
  have wasDir : tree.kind path = some .dir := by
    refine tree.closed path name ?_
    rw [isDir]
    exact Option.some_ne_none _
  rw [Tree.mkdirAll_of_isDir wasDir] at isMade
  exact (Option.some.inj isMade).symm

/-- Opens a file, which is made when there is nothing. -/
def Tree.openFile (tree : Tree) (path : Path) (name : String) : Option Tree :=
  match tree.kind (path ++ [name]) with
  | some (.file _) => some tree
  | some .dir => none
  | none => tree.put path name (.file "")

/-- Writes a new file over what is there, with its directory. -/
def Tree.writeFile (tree : Tree) (path : Path) (name content : String) : Tree × Bool :=
  match tree.mkdirAll path with
  | none => (tree, false)
  | some made =>
    match made.put path name (.file content) with
    | none => (made, false)
    | some next => (next, true)

theorem Tree.writeFile_failed {next : Tree} {content : String}
    (failed : tree.writeFile path name content = (next, false)) : next = tree := by
  unfold Tree.writeFile at failed
  split at failed
  · cases failed
    rfl
  · rename_i made isMade
    split at failed
    · rename_i notPut
      cases failed
      exact Tree.mkdirAll_put_eq_none isMade notPut
    · cases failed

inductive Listing where
  | notExist
  | failed
  | directories (names : List String)

/-- A file stands where the path goes on. -/
def Tree.isBlocked (tree : Tree) (path : Path) : Bool :=
  path.inits.any fun above =>
    match tree.kind above with
    | some (.file _) => true
    | _ => false

/-- The directories in a directory, by name. -/
def Tree.readDir (tree : Tree) (path : Path) : Listing :=
  match tree.kind path with
  | some .dir =>
    .directories (((tree.entries path).filter fun name =>
      tree.kind (path ++ [name]) = some .dir).insertionSort (· ≤ ·))
  | some (.file _) => .failed
  | none => if tree.isBlocked path then .failed else .notExist

end AiTools.Lib.FileTree
