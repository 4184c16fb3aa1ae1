import AiTools.Lib.GoText

/-!
Contract: the directory of a project, cut from the URL of its repository.

A path is the names below the root, without links.
-/

namespace AiTools.Grove.Projects

open AiTools.Lib.GoText (cut)

abbrev Text := List Char

abbrev Path := List Text

def trimGitReversed : Text → Text
  | 't' :: 'i' :: 'g' :: '.' :: rest => trimGitReversed rest
  | text => text

/-- `trim_end_matches(".git")`. -/
def trimGit (text : Text) : Text := (trimGitReversed text.reverse).reverse

/-- `trim_end_matches('/')`. -/
def trimSlashes (text : Text) : Text := (text.reverse.dropWhile (· = '/')).reverse

/-- `strip_prefix`. -/
def stripPrefix? (start text : Text) : Option Text :=
  if start.isPrefixOf text then some (text.drop start.length) else none

def gitAt : Text := "git@".toList

def https : Text := "https://".toList

def http : Text := "http://".toList

structure Parts where
  host : Text
  org : Text
  repo : Text

inductive UrlError where
  | invalidSsh
  | invalidPath
  | unsupported
  | expectedParts

def parseGitUrl (url : Text) : Except UrlError Parts :=
  match stripPrefix? gitAt url with
  | some rest =>
    match cut ':' rest with
    | none => .error .invalidSsh
    | some (host, path) =>
      match (trimGit path).splitOn '/' with
      | org :: repo :: _ => .ok ⟨host, org, repo⟩
      | _ => .error .invalidPath
  | none =>
    match (stripPrefix? https (trimGit url)).or (stripPrefix? http (trimGit url)) with
    | none => .error .unsupported
    | some without_protocol =>
      match without_protocol.splitOn '/' with
      | host :: org :: repo :: _ => .ok ⟨host, org, repo⟩
      | _ => .error .expectedParts

/-- The key under which two URLs are the same. -/
def normalizeProjectUrl (url : Text) : Text := trimGit (trimSlashes url)

/-- Where a name leads from a directory. -/
def enter (path : Path) (name : Text) : Path :=
  if name = [] ∨ name = ['.'] then path
  else if name = ['.', '.'] then path.dropLast
  else path ++ [name]

/-- `PathBuf::join`, resolved; what begins with a slash replaces the path. -/
def join (path : Path) (text : Text) : Path :=
  (text.splitOn '/').foldl enter (if text.head? = some '/' then [] else path)

def projectDir (base : Path) (parts : Parts) : Path :=
  join (join (join base parts.host) parts.org) parts.repo

def sourceWorktreeName : Text := "source".toList

/-- A name of a file in its directory. -/
def IsOrdinary (name : Text) : Prop :=
  name ≠ [] ∧ name ≠ ['.'] ∧ name ≠ ['.', '.'] ∧ '/' ∉ name

instance (name : Text) : Decidable (IsOrdinary name) := inferInstanceAs (Decidable (_ ∧ _))

structure Parts.Ordinary (parts : Parts) : Prop where
  host : IsOrdinary parts.host
  org : IsOrdinary parts.org
  repo : IsOrdinary parts.repo

theorem join_ordinary (path : Path) {name : Text} (isOrdinary : IsOrdinary name) :
    join path name = path ++ [name] := by
  obtain ⟨notEmpty, notDot, notDots, noSlash⟩ := isOrdinary
  have notAbsolute : name.head? ≠ some '/' := fun isFirst =>
    noSlash (List.mem_of_mem_head? isFirst)
  rw [join, List.splitOn_eq_singleton noSlash, if_neg notAbsolute]
  show enter path name = _
  rw [enter, if_neg (not_or.mpr ⟨notEmpty, notDot⟩), if_neg notDots]

variable {parts : Parts} {url : Text}

theorem project_dir_ordinary (base : Path) (ordinary : parts.Ordinary) :
    projectDir base parts = base ++ [parts.host, parts.org, parts.repo] := by
  rw [projectDir, join_ordinary _ ordinary.host, join_ordinary _ ordinary.org,
    join_ordinary _ ordinary.repo, List.append_assoc, List.append_assoc]
  rfl

/-- What stands between the slashes after the scheme, with `.git` at the end left out; after
`git@` the first colon stands for a slash. -/
def pieces (url : Text) : List Text :=
  match stripPrefix? gitAt url with
  | some rest =>
    match cut ':' rest with
    | none => []
    | some (host, path) => host :: (trimGit path).splitOn '/'
  | none =>
    match (stripPrefix? https (trimGit url)).or (stripPrefix? http (trimGit url)) with
    | none => []
    | some without_protocol => without_protocol.splitOn '/'

/-- None of the first three pieces is empty, a dot, two dots or (a host) has a slash. -/
def IsPlainUrl (url : Text) : Prop := ∀ piece ∈ (pieces url).take 3, IsOrdinary piece

instance (url : Text) : Decidable (IsPlainUrl url) := inferInstanceAs (Decidable (∀ _ ∈ _, _))

theorem pieces_of_parsed (parsed : parseGitUrl url = .ok parts) :
    (pieces url).take 3 = [parts.host, parts.org, parts.repo] := by
  unfold parseGitUrl at parsed
  unfold pieces
  split at parsed
  · split at parsed
    · cases parsed
    · split at parsed
      · rename_i org repo later arePieces
        cases parsed
        rw [arePieces]
        rfl
      · cases parsed
  · split at parsed
    · cases parsed
    · split at parsed
      · rename_i host org repo later arePieces
        cases parsed
        rw [arePieces]
        rfl
      · cases parsed

theorem plain_iff_ordinary (parsed : parseGitUrl url = .ok parts) :
    IsPlainUrl url ↔ parts.Ordinary := by
  rw [IsPlainUrl, pieces_of_parsed parsed]
  constructor
  · intro areOrdinary
    exact ⟨areOrdinary _ (by simp), areOrdinary _ (by simp), areOrdinary _ (by simp)⟩
  · rintro ⟨host, org, repo⟩ piece isPiece
    simp only [List.mem_cons, List.not_mem_nil, or_false] at isPiece
    rcases isPiece with rfl | rfl | rfl
    · exact host
    · exact org
    · exact repo

end AiTools.Grove.Projects
