import AiTools.Lib.Space
import Mathlib

/-!
Contract: the binaries that an upgrade replaces, whichever of its steps fails or is the last.

Owns the order of the steps and the disk after each of them.
Does not own: the download and the hash function, which are arbitrary.
-/

namespace AiTools.Upgrade.Install

open AiTools.Lib.Space

abbrev Text := List Char

abbrev Content := List UInt8

structure File where
  content : Content
  isExecutable : Bool

/-- What comes of a step. The process may end before it has taken effect. -/
inductive Attempt (Result : Type) where
  | succeeds (result : Result)
  | fails
  | crashes

/-- `bufio.MaxScanTokenSize` -/
def maxScanTokenSize : Nat := 64 * 1024

def byteLength (line : Text) : Nat := (line.map Char.utf8Size).sum

def fields (line : Text) : List Text := (line.splitOnP isSpace).filter (· ≠ [])

def trimStar : Text → Text
  | '*' :: name => name
  | name => name

/-- `none` is an error: the scanner gives up on a long line. -/
def checksumForAsset (assetName : Text) : List Text → Option Text
  | [] => none
  | line :: rest =>
    if maxScanTokenSize ≤ byteLength line then none
    else
      match fields line with
      | checksum :: name :: _ =>
        if trimStar name = assetName then some checksum else checksumForAsset assetName rest
      | _ => checksumForAsset assetName rest

/-- `strings.EqualFold`, where one of the texts has only hexadecimal digits. -/
def equalFold (first second : Text) : Bool := first.map Char.toLower = second.map Char.toLower

def platformBinaryNameFor (binaryName goos goarch : Text) : Text :=
  let platformBinary := binaryName ++ '-' :: (goos ++ '-' :: goarch)
  if goos = "windows".toList then platformBinary ++ ".exe".toList else platformBinary

def installedBinaryNameFor (binaryName goos : Text) : Text :=
  if goos = "windows".toList then binaryName ++ ".exe".toList else binaryName

/-! ## One tool -/

structure Platform where
  goos : Text
  goarch : Text
  sha256 : Content → Text

structure Tool where
  name : Text
  path : Text

/-- `temp` is the file of the download that is under way. -/
structure Disk where
  installed : Text → Option File
  temp : Option File

structure Attempts where
  manifest : Attempt (List Text)
  createTemp : Attempt Unit
  download : Attempt Content
  hash : Attempt Unit
  chmod : Attempt Unit
  remove : Attempt Unit
  rename : Attempt Unit

inductive DownloadError where
  | manifest
  | checksum (assetName : Text)
  | createTemp
  | download
  | hash
  | mismatch (expected actual : Text)
  | chmod
  | install

inductive Ending where
  | done
  | failed (error : DownloadError)
  | crashed

def Ending.isCrashed : Ending → Bool
  | .crashed => true
  | _ => false

def Attempt.andThen {Result : Type} (attempt : Attempt Result) (disk : Disk)
    (error : DownloadError) (next : Result → Disk × Ending) : Disk × Ending :=
  match attempt with
  | .succeeds result => next result
  | .fails => (disk, .failed error)
  | .crashes => (disk, .crashed)

/-- The deferred `os.Remove`. A process that has ended does not get to it. -/
def cleanedUp (result : Disk × Ending) : Disk × Ending :=
  match result.2 with
  | .crashed => result
  | ending => ({ result.1 with temp := none }, ending)

section
variable (platform : Platform) (tool : Tool) (attempts : Attempts)

/-- `os.Remove`, whose error is ignored, and `os.Rename`. -/
def replaceBinary (file : File) (disk : Disk) : Disk × Ending :=
  let renamed (disk : Disk) : Disk × Ending :=
    attempts.rename.andThen disk .install fun _ =>
      ({ installed := Function.update disk.installed tool.path (some file), temp := none }, .done)
  match attempts.remove with
  | .succeeds _ => renamed { disk with installed := Function.update disk.installed tool.path none }
  | .fails => renamed disk
  | .crashes => (disk, .crashed)

def installDownload (expected : Text) (disk : Disk) : Disk × Ending :=
  attempts.download.andThen disk .download fun content =>
    let fetched : Disk := { disk with temp := some ⟨content, false⟩ }
    attempts.hash.andThen fetched .hash fun _ =>
      if equalFold (platform.sha256 content) expected then
        attempts.chmod.andThen fetched .chmod fun _ =>
          replaceBinary tool attempts ⟨content, true⟩ { disk with temp := some ⟨content, true⟩ }
      else (fetched, .failed (.mismatch expected (platform.sha256 content)))

def Platform.assetOf : Text := platformBinaryNameFor tool.name platform.goos platform.goarch

def downloadBinary (disk : Disk) : Disk × Ending :=
  attempts.manifest.andThen disk .manifest fun lines =>
    match checksumForAsset (platform.assetOf tool) lines with
    | none => (disk, .failed (.checksum (platform.assetOf tool)))
    | some expected =>
      attempts.createTemp.andThen disk .createTemp fun _ =>
        cleanedUp (installDownload platform tool attempts expected
          { disk with temp := some ⟨[], false⟩ })

end

structure Call where
  tool : Tool
  attempts : Attempts

structure Report where
  disk : Disk
  failures : List (Text × DownloadError)
  updatedCount : Nat
  crashed : Bool

/-- The loop of `Run`. A tool that fails does not keep the others from their turn. -/
def upgradeTools (platform : Platform) : List Call → Disk → Report
  | [], disk => ⟨disk, [], 0, false⟩
  | call :: rest, disk =>
    let result := downloadBinary platform call.tool call.attempts disk
    match result.2 with
    | .crashed => ⟨result.1, [], 0, true⟩
    | .failed error =>
      let later := upgradeTools platform rest result.1
      { later with failures := (call.tool.name, error) :: later.failures }
    | .done =>
      let later := upgradeTools platform rest result.1
      { later with updatedCount := later.updatedCount + 1 }

structure Config where
  binaryName : Text
  version : Text
  companionTools : Attempt (List Text)

/-- Where the program that runs is, and the directory of that. -/
structure Location where
  binPath : Text
  installDir : Text

/-- The program itself comes first. -/
def toolsOf (platform : Platform) (config : Config) (location : Location)
    (companions : List Text) : List Tool :=
  ⟨config.binaryName, location.binPath⟩ :: companions.map fun name =>
    ⟨name, location.installDir ++ '/' :: installedBinaryNameFor name platform.goos⟩

def callsOf (tools : List Tool) (attempts : Nat → Attempts) : List Call :=
  tools.mapIdx fun index tool => ⟨tool, attempts index⟩

/-- The tools that get a turn, when none crashes. -/
def Config.calls (config : Config) (platform : Platform) (location : Location)
    (attempts : Nat → Attempts) : List Call :=
  match config.companionTools with
  | .succeeds companions => callsOf (toolsOf platform config location companions) attempts
  | _ => []

def run (platform : Platform) (config : Config) (location : Location)
    (latestVersion : Attempt Text) (attempts : Nat → Attempts) (disk : Disk) : Report :=
  match latestVersion with
  | .crashes => ⟨disk, [], 0, true⟩
  | .fails => ⟨disk, [], 0, false⟩
  | .succeeds latest =>
    if config.version ≠ "dev".toList ∧ latest = config.version then ⟨disk, [], 0, false⟩
    else
      match config.companionTools with
      | .crashes => ⟨disk, [], 0, true⟩
      | .fails => ⟨disk, [], 0, false⟩
      | .succeeds _ => upgradeTools platform (config.calls platform location attempts) disk

/-- A line of the manifest gives the checksum for exactly this asset. -/
def IsEntry (lines : List Text) (assetName checksum : Text) : Prop :=
  ∃ line ∈ lines, ∃ name others, fields line = checksum :: name :: others ∧
    (name = assetName ∨ name = '*' :: assetName)

/-- The complete new binary. -/
def IsNew (platform : Platform) (call : Call) (file : File) : Prop :=
  file.isExecutable = true ∧ ∃ lines checksum, call.attempts.manifest = .succeeds lines ∧
    IsEntry lines (platform.assetOf call.tool) checksum ∧
      equalFold (platform.sha256 file.content) checksum = true

structure Safe (platform : Platform) (call : Call) (before : Disk) (result : Disk × Ending) :
    Prop where
  holds : result.1.installed call.tool.path = before.installed call.tool.path ∨
    ∃ file, result.1.installed call.tool.path = some file ∧ IsNew platform call file
  error : ∀ error, result.2 = .failed error →
    result.1.installed call.tool.path = before.installed call.tool.path
  others : ∀ path, path ≠ call.tool.path → result.1.installed path = before.installed path

def Call.result (platform : Platform) (call : Call) (disk : Disk) : Disk × Ending :=
  downloadBinary platform call.tool call.attempts disk

/-- What holds of every tool that gets its turn. -/
def Each (platform : Platform) (holds : Call → Disk → Prop) : List Call → Disk → Prop
  | [], _ => True
  | call :: rest, disk => holds call disk ∧ ((call.result platform disk).2 ≠ .crashed →
        Each platform holds rest (call.result platform disk).1)

/-- At the end the path of each tool has its binary of the start, or the new one of this tool. -/
def AllHold (platform : Platform) (calls : List Call) (before after : Disk) : Prop :=
  ∀ call ∈ calls, after.installed call.tool.path = before.installed call.tool.path ∨
    ∃ other ∈ calls, other.tool = call.tool ∧
      ∃ file, after.installed call.tool.path = some file ∧ IsNew platform other file

/-- The download is good, and its file may be executed. -/
def ReachesRemoval (platform : Platform) (call : Call) : Prop :=
  ∃ lines expected content, call.attempts.manifest = .succeeds lines ∧
    checksumForAsset (platform.assetOf call.tool) lines = some expected ∧
      call.attempts.createTemp = .succeeds () ∧ call.attempts.download = .succeeds content ∧
        call.attempts.hash = .succeeds () ∧ equalFold (platform.sha256 content) expected = true ∧
            call.attempts.chmod = .succeeds ()

/-- The binary is removed, and nothing is renamed to its path. -/
def Loses (platform : Platform) (call : Call) (disk : Disk) : Prop :=
  ReachesRemoval platform call ∧ (disk.installed call.tool.path).isSome = true ∧
    call.attempts.remove = .succeeds () ∧ call.attempts.rename ≠ .succeeds ()

/-- No two tools have the same path. -/
def Separate (calls : List Call) : Prop :=
  ∀ first ∈ calls, ∀ second ∈ calls, first.tool.path = second.tool.path → first.tool = second.tool

/-! ## One call -/

section
variable {platform : Platform} {call : Call} {disk : Disk}

theorem checksumForAsset_isEntry {assetName checksum : Text} (lines : List Text)
    (isFound : checksumForAsset assetName lines = some checksum) :
    IsEntry lines assetName checksum := by
  induction lines with
  | nil => cases isFound
  | cons line rest ih =>
    have later : checksumForAsset assetName rest = some checksum →
        IsEntry (line :: rest) assetName checksum := fun isLater => by
      obtain ⟨found, isIn, isLine⟩ := ih isLater
      exact ⟨found, List.mem_cons_of_mem _ isIn, isLine⟩
    rw [checksumForAsset] at isFound
    split_ifs at isFound
    split at isFound
    · next first name others isFields =>
        split_ifs at isFound with isName
        · cases isFound
          refine ⟨line, List.mem_cons_self .., name, others, isFields, ?_⟩
          cases name with
          | nil => exact .inl isName
          | cons c rest =>
            by_cases isStar : c = '*'
            · subst isStar
              exact .inr (congrArg _ isName)
            · left
              rw [← isName, trimStar]
              exact fun _ isCons => isStar (List.cons.inj isCons).1
        · exact later isFound
    · exact later isFound

theorem cleanedUp_installed (result : Disk × Ending) :
    (cleanedUp result).1.installed = result.1.installed := by
  unfold cleanedUp
  split <;> rfl

theorem result_of_reaches {lines : List Text} {expected : Text} {content : Content}
    (isManifest : call.attempts.manifest = .succeeds lines)
    (isExpected : checksumForAsset (platform.assetOf call.tool) lines = some expected)
    (hasTemp : call.attempts.createTemp = .succeeds ())
    (isContent : call.attempts.download = .succeeds content)
    (isHashed : call.attempts.hash = .succeeds ())
    (isRight : equalFold (platform.sha256 content) expected = true)
    (isChmod : call.attempts.chmod = .succeeds ()) :
    call.result platform disk = cleanedUp (replaceBinary call.tool call.attempts ⟨content, true⟩
      { disk with temp := some ⟨content, true⟩ }) := by
  unfold Call.result downloadBinary installDownload
  rw [isManifest, hasTemp, isContent, isHashed, isChmod]
  unfold Attempt.andThen
  dsimp only
  rw [isExpected]
  dsimp only
  rw [if_pos isRight]

theorem result_of_not_reaches (notReaches : ¬ReachesRemoval platform call) :
    (call.result platform disk).1.installed = disk.installed := by
  unfold Call.result downloadBinary
  cases isManifest : call.attempts.manifest with
  | fails | crashes => rfl
  | succeeds lines =>
    unfold Attempt.andThen
    dsimp only
    cases isExpected : checksumForAsset (platform.assetOf call.tool) lines with
    | none => rfl
    | some expected =>
      dsimp only
      cases hasTemp : call.attempts.createTemp with
      | fails | crashes => rfl
      | succeeds _ =>
        dsimp only
        rw [cleanedUp_installed]
        unfold installDownload Attempt.andThen
        cases isContent : call.attempts.download with
        | fails | crashes => rfl
        | succeeds content =>
          dsimp only
          cases isHashed : call.attempts.hash with
          | fails | crashes => rfl
          | succeeds _ =>
            dsimp only
            split_ifs with isRight
            · cases isChmod : call.attempts.chmod with
              | fails | crashes => rfl
              | succeeds _ =>
                exact absurd ⟨lines, expected, content, isManifest, isExpected,
                  hasTemp, isContent, isHashed, isRight, isChmod⟩ notReaches
            · rfl

theorem safe_of_unchanged {result : Disk × Ending}
    (isSame : result.1.installed = disk.installed) : Safe platform call disk result :=
  ⟨.inl (by rw [isSame]), fun _ _ => by rw [isSame], fun _ _ => by rw [isSame]⟩

theorem safe_iff (platform : Platform) (call : Call) (disk : Disk) :
    Safe platform call disk (call.result platform disk) ↔ ¬Loses platform call disk := by
  by_cases reaches : ReachesRemoval platform call
  · obtain ⟨lines, expected, content, isManifest, isExpected, hasTemp, isContent, isHashed, isRight,
      isChmod⟩ := reaches
    have isNew : IsNew platform call ⟨content, true⟩ :=
      ⟨rfl, lines, expected, isManifest, checksumForAsset_isEntry lines isExpected, isRight⟩
    have reaches : ReachesRemoval platform call := ⟨lines, expected, content, isManifest,
      isExpected, hasTemp, isContent, isHashed, isRight, isChmod⟩
    rw [result_of_reaches isManifest isExpected hasTemp isContent isHashed isRight isChmod]
    constructor
    · rintro safe ⟨_, isThere, isRemoved, notRenamed⟩
      have isGone : (cleanedUp (replaceBinary call.tool call.attempts ⟨content, true⟩
          { disk with temp := some ⟨content, true⟩ })).1.installed call.tool.path = none := by
        rw [cleanedUp_installed]
        unfold replaceBinary Attempt.andThen
        rw [isRemoved]
        cases isRenamed : call.attempts.rename with
        | succeeds result => exact absurd isRenamed notRenamed
        | fails | crashes => exact Function.update_self ..
      rcases safe.holds with isSame | ⟨file, isFile, _⟩
      · rw [isGone] at isSame
        simp [← isSame] at isThere
      · simp [isGone] at isFile
    · intro notLost
      have renamed : ∀ before : Disk, call.attempts.rename = .succeeds () →
          (∀ path, path ≠ call.tool.path → before.installed path = disk.installed path) →
            Safe platform call disk
              (cleanedUp (call.attempts.rename.andThen before .install fun _ =>
                ({ installed := Function.update before.installed call.tool.path
                    (some ⟨content, true⟩), temp := none }, .done))) := by
        intro before isRenamed sameOthers
        rw [isRenamed]
        refine ⟨.inr ⟨⟨content, true⟩, Function.update_self .., isNew⟩, nofun, ?_⟩
        intro path isOther
        exact (Function.update_of_ne isOther ..).trans (sameOthers path isOther)
      unfold replaceBinary
      dsimp only
      cases isRemoved : call.attempts.remove with
      | crashes => exact safe_of_unchanged (cleanedUp_installed _)
      | fails =>
        dsimp only
        cases isRenamed : call.attempts.rename with
        | succeeds _ =>
          rw [← isRenamed]
          exact renamed _ isRenamed fun _ _ => rfl
        | fails | crashes => exact safe_of_unchanged (cleanedUp_installed _)
      | succeeds _ =>
        dsimp only
        by_cases isRenamed : call.attempts.rename = .succeeds ()
        · exact renamed _ isRenamed fun path isOther => Function.update_of_ne isOther ..
        · -- There was no binary, so that the removal has changed nothing.
          have notThere : disk.installed call.tool.path = none := by
            by_contra isThere
            exact notLost ⟨reaches, Option.isSome_iff_ne_none.mpr isThere, isRemoved, isRenamed⟩
          refine safe_of_unchanged ((cleanedUp_installed _).trans ?_)
          have isSame : Function.update disk.installed call.tool.path none = disk.installed := by
            rw [← notThere, Function.update_eq_self]
          cases isEnding : call.attempts.rename with
          | succeeds _ => exact absurd isEnding isRenamed
          | fails | crashes => exact isSame
  · exact ⟨fun _ loses => reaches loses.1, fun _ =>
      safe_of_unchanged (result_of_not_reaches reaches)⟩

end

section
variable {platform : Platform}

theorem each_congr {holds holds' : Call → Disk → Prop}
    (same : ∀ call disk, holds call disk ↔ holds' call disk) (calls : List Call) :
    ∀ disk, Each platform holds calls disk ↔ Each platform holds' calls disk := by
  induction calls with
  | nil => exact fun _ => Iff.rfl
  | cons call rest ih =>
    exact fun disk => and_congr (same call disk) (imp_congr_right fun _ =>
      ih _)

theorem upgradeTools_disk (call : Call) (rest : List Call) (disk : Disk) :
    (upgradeTools platform (call :: rest) disk).disk =
      if (call.result platform disk).2.isCrashed then (call.result platform disk).1
      else (upgradeTools platform rest (call.result platform disk).1).disk := by
  rw [upgradeTools]
  dsimp only
  show _ = if (downloadBinary platform call.tool call.attempts disk).2.isCrashed then
    (downloadBinary platform call.tool call.attempts disk).1
    else (upgradeTools platform rest (downloadBinary platform call.tool call.attempts disk).1).disk
  cases (downloadBinary platform call.tool call.attempts disk).2 <;> rfl

theorem upgradeTools_holds (calls : List Call) : ∀ disk : Disk,
    Each platform (fun call disk => Safe platform call disk (call.result platform disk)) calls
      disk → ∀ path, (upgradeTools platform calls disk).disk.installed path = disk.installed path ∨
          ∃ call ∈ calls, call.tool.path = path ∧ ∃ file,
            (upgradeTools platform calls disk).disk.installed path = some file ∧
              IsNew platform call file := by
  induction calls with
  | nil => exact fun _ _ _ => .inl rfl
  | cons call rest ih =>
    rintro disk ⟨safe, later⟩ path
    have first : (call.result platform disk).1.installed path = disk.installed path ∨
        call.tool.path = path ∧ ∃ file, (call.result platform disk).1.installed path = some file ∧
          IsNew platform call file := by
      by_cases isPath : call.tool.path = path
      · subst isPath
        exact safe.holds.imp_right fun isNew => ⟨rfl, isNew⟩
      · exact .inl (safe.others path (Ne.symm isPath))
    by_cases isCrashed : (call.result platform disk).2 = .crashed
    · have isLast : (upgradeTools platform (call :: rest) disk).disk =
          (call.result platform disk).1 := by
        rw [upgradeTools_disk, isCrashed]
        rfl
      rw [isLast]
      exact first.imp_right fun ⟨isPath, isNew⟩ => ⟨call, List.mem_cons_self .., isPath, isNew⟩
    · have isLater : (upgradeTools platform (call :: rest) disk).disk =
          (upgradeTools platform rest (call.result platform disk).1).disk := by
        rw [upgradeTools_disk]
        cases isEnding : (call.result platform disk).2 with
        | crashed => exact absurd isEnding isCrashed
        | done | failed error => rfl
      rw [isLater]
      rcases ih _ (later isCrashed) path with isSame | ⟨other, isIn, isNew⟩
      · rw [isSame]
        exact first.imp_right fun ⟨isPath, isNew⟩ => ⟨call, List.mem_cons_self .., isPath, isNew⟩
      · exact .inr ⟨other, List.mem_cons_of_mem _ isIn, isNew⟩

theorem run_disk (config : Config) (location : Location) (latestVersion : Attempt Text)
    (attempts : Nat → Attempts) (disk : Disk) :
    (run platform config location latestVersion attempts disk).disk = disk ∨
      (run platform config location latestVersion attempts disk).disk =
        (upgradeTools platform (config.calls platform location attempts) disk).disk := by
  unfold run
  cases latestVersion with
  | crashes | fails => exact .inl rfl
  | succeeds latest =>
    dsimp only
    split_ifs
    · exact .inl rfl
    · cases config.companionTools with
      | crashes | fails => exact .inl rfl
      | succeeds companions => exact .inr rfl

theorem run_allHold {config : Config} {location : Location} {attempts : Nat → Attempts}
    {disk : Disk} (latestVersion : Attempt Text)
    (separate : Separate (config.calls platform location attempts))
    (clean : Each platform (fun call disk => ¬Loses platform call disk)
      (config.calls platform location attempts) disk) :
    AllHold platform (config.calls platform location attempts) disk
      (run platform config location latestVersion attempts disk).disk := by
  intro call isCall
  rcases run_disk config location latestVersion attempts disk with isSame | isUpgraded
  · rw [isSame]
    exact .inl rfl
  · rw [isUpgraded]
    have allSafe := (each_congr (safe_iff platform) _ disk).mpr clean
    rcases upgradeTools_holds _ disk allSafe call.tool.path with
      isSame | ⟨other, isIn, isPath, isNew⟩
    · exact .inl isSame
    · exact .inr ⟨other, isIn, separate other isIn call isCall isPath, isNew⟩

end

theorem installsSafely_iff (platform : Platform) :
    (∀ call disk, Safe platform call disk (call.result platform disk) ↔ ¬Loses platform call disk) ∧
      (∀ calls disk,
        Each platform (fun call disk => Safe platform call disk (call.result platform disk)) calls
          disk ↔ Each platform (fun call disk => ¬Loses platform call disk) calls disk) ∧
        ∀ config location latestVersion attempts disk,
          Separate (config.calls platform location attempts) →
            Each platform (fun call disk => ¬Loses platform call disk)
              (config.calls platform location attempts) disk →
              AllHold platform (config.calls platform location attempts) disk
                (run platform config location latestVersion attempts disk).disk :=
  ⟨safe_iff platform, each_congr (safe_iff platform),
    fun _ _ latestVersion _ _ separate clean => run_allHold latestVersion separate clean⟩

/-- Every content has the one checksum. -/
def linux : Platform := ⟨"linux".toList, "amd64".toList, fun _ => "00".toList⟩

def manifest : List Text := ["00 whip-linux-amd64".toList, "00 whip-irc-linux-amd64".toList]

def attempted (rename : Attempt Unit) : Attempts where
  manifest := .succeeds manifest
  createTemp := .succeeds ()
  download := .succeeds [1]
  hash := .succeeds ()
  chmod := .succeeds ()
  remove := .succeeds ()
  rename := rename

def installedOld : Disk := ⟨fun _ => some ⟨[0], true⟩, none⟩

def whip : Config := ⟨"whip".toList, "v1".toList, .succeeds ["whip-irc".toList]⟩

def location : Location := ⟨"/bin/whip".toList, "/bin".toList⟩

theorem installsSafely_iff_renamed :
    AllHold linux (whip.calls linux location fun _ => attempted (.succeeds ())) installedOld
      (run linux whip location (.succeeds "v2".toList) (fun _ => attempted (.succeeds ()))
        installedOld).disk := by
  refine (installsSafely_iff linux).2.2 whip location (.succeeds "v2".toList)
    (fun _ => attempted (.succeeds ())) installedOld ?_
    ⟨fun loses => loses.2.2.2 rfl, fun _ => ⟨fun loses => loses.2.2.2 rfl, fun _ => trivial⟩⟩
  intro first isFirst second isSecond isPath
  rcases List.mem_pair.mp isFirst with rfl | rfl <;>
    rcases List.mem_pair.mp isSecond with rfl | rfl
  · rfl
  · exact absurd isPath (by decide)
  · exact absurd isPath (by decide)
  · rfl

/-- The old binary is removed, and the rename fails. -/
theorem not_installsSafely : ¬∀ (platform : Platform) (call : Call) (disk : Disk),
    Safe platform call disk (call.result platform disk) := by
  intro allSafe
  refine (safe_iff linux ⟨⟨"whip".toList, "/bin/whip".toList⟩, attempted .fails⟩ installedOld).mp
    (allSafe _ _ _) ⟨⟨manifest, "00".toList, [1], rfl, by decide, rfl, rfl,
      rfl, by decide, rfl⟩, rfl, rfl, nofun⟩

end AiTools.Upgrade.Install
