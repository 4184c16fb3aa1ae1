import AiTools.Grove.ConfigFields
import AiTools.Grove.JsonFile
import AiTools.Lib.Transition

/-!
Contract: the saves of `config.json` over every interleaving of its readers and writers.

No lock is taken anywhere, so that it does not matter which process a thread is of. Beside the
code's state are recorded the config that the last save has left, and all saves with it.
-/

namespace AiTools.Grove.Config

open AiTools.Lib.Transition

variable {Theme : Type}

/-- `base` is the config that the operation has loaded, or written last, and `later` what goes on
once the save of `load_reconciled_config` is through. -/
structure Save (Theme : Type) where
  base : GroveConfig Theme
  content : GroveConfig Theme
  operation : Operation Theme
  looked : Option Looked
  readable : Bool
  later : Option (Operation Theme)

inductive Stage (Theme : Type) where
  | load (operation : Operation Theme)
  | baseDir (operation : Operation Theme) (config : GroveConfig Theme) (readable : Bool)
  | truncate (save : Save Theme)
  | fill (save : Save Theme)

/-- A save that went through. -/
structure Saved (Theme : Type) where
  before : GroveConfig Theme
  after : GroveConfig Theme
  operation : Operation Theme
  looked : Option Looked
  readable : Bool

structure System (Theme : Type) where
  file : JsonFile (GroveConfig Theme)
  current : GroveConfig Theme
  saves : List (Saved Theme)
  threads : Nat → Option (Stage Theme)

/-- How a file operation goes, what is below a base directory, and `managed_source_dir`. A write
over a longer one `covers` it or leaves its tail. -/
structure Given where
  ok : Bool
  covers : Bool
  defaultBaseDir : String
  looked : String → Looked
  managedSourceDir : ProjectEntry → Except String Unit

inductive Label (Theme : Type) where
  | start (thread : Nat) (operation : Operation Theme)
  | advance (thread : Nat) (given : Given)

namespace System

def goto (sys : System Theme) (id : Nat) (stage : Stage Theme) : System Theme :=
  { sys with threads := Function.update sys.threads id (some stage) }

def finish (sys : System Theme) (id : Nat) : System Theme :=
  { sys with threads := Function.update sys.threads id none }

/-- The operation changes the config, and saves it or returns. -/
def modify (sys : System Theme) (id : Nat) (given : Given) (base config : GroveConfig Theme)
    (looked : Option Looked) (readable : Bool) (operation : Operation Theme) : System Theme :=
  match operation.change given.managedSourceDir config with
  | .ok (some content) => sys.goto id (.truncate
      { base, content, operation, looked, readable, later := none })
  | _ => sys.finish id

/-- The save is through. -/
def saved (sys : System Theme) (save : Save Theme) (covered : Bool) : System Theme :=
  { sys with
    file := if covered then .whole save.content.written else .torn
    current := save.content.written
    saves := ⟨sys.current, save.content.written, save.operation, save.looked, save.readable⟩ ::
      sys.saves }

/-- Another write has come after the truncation. -/
def overlapped (sys : System Theme) : Bool :=
  match sys.file with
  | .whole _ => true
  | _ => false

def advance (sys : System Theme) (id : Nat) (given : Given) : Stage Theme → System Theme
  | .load operation =>
    let config := sys.file.loadOr .default given.ok
    let readable := sys.file.readable given.ok
    if operation.reconciles then sys.goto id (.baseDir operation config readable)
    else sys.modify id given config config none readable operation
  -- The base directory is read from the file again.
  | .baseDir operation config readable =>
    let baseDir := (sys.file.loadOr .default given.ok).baseDirOr given.defaultBaseDir
    let looked := given.looked baseDir
    let reconciled := reconcileConfig looked config
    if reconciled.2 then sys.goto id (.truncate
      { base := config
        content := reconciled.1
        operation := .loadReconciled
        looked := some looked
        readable
        later := some operation })
    else sys.modify id given config reconciled.1 (some looked) readable operation
  | .truncate save =>
    if given.ok then { sys with file := .torn }.goto id (.fill save) else sys.finish id
  | .fill save =>
    if given.ok then
      let next := sys.saved save (!sys.overlapped || given.covers)
      match save.later with
      | none => next.finish id
      | some operation => next.modify id given save.content.written save.content save.looked
          save.readable operation
    else { sys with file := .torn }.finish id

end System

def step (sys : System Theme) : Label Theme → Option (System Theme)
  | .start id operation =>
    match sys.threads id, operation.check with
    | some _, _ => none
    | none, .error _ => some sys
    | none, .ok operation => some (sys.goto id (.load operation))
  | .advance id given => (sys.threads id).map (sys.advance id given)

def Saved.Owns (save : Saved Theme) (field : Field) : Prop :=
  save.operation.Owns field ∨ ∃ looked, save.looked = some looked ∧ looked.Owns save.before field

/-- A save changes the fields that its operation owns in the config that the save before it has
left; what it makes of them comes from a file that could be read; and the file has no other
config than the last one saved. -/
structure Kept (sys : System Theme) : Prop where
  fields : ∀ save ∈ sys.saves, ∀ field, ¬ save.Owns field → field.Same save.before save.after
  readable : ∀ save ∈ sys.saves, save.readable = true
  stored : ∀ config, sys.file = .whole config → config = sys.current

/-- A file is loaded while nobody writes it, and written while it is as the operation knows it.
It holds no `preferredIde`, which is read but not written. -/
def Stage.Clean (file : JsonFile (GroveConfig Theme)) (given : Given) : Stage Theme → Prop
  | .load _ => file.readable given.ok = true ∧
      (file.loadOr .default true).written = file.loadOr .default true
  | .truncate save => file.readable true = true ∧ file.loadOr .default true = save.base
  | _ => True

def Clean (sys : System Theme) : Label Theme → Prop
  | .advance id given => ∀ stage, sys.threads id = some stage → stage.Clean sys.file given
  | _ => True

/-! ## The invariant -/

/-- All goes on if the content replaces the base. -/
structure Save.Fits (save : Save Theme) : Prop where
  readable : save.readable = true
  written : save.content.written = save.content
  fields : ∀ field, ¬ (save.operation.Owns field ∨
    ∃ looked, save.looked = some looked ∧ looked.Owns save.base field) →
      field.Same save.base save.content

def Stage.Fits (file : JsonFile (GroveConfig Theme)) (current : GroveConfig Theme) :
    Stage Theme → Prop
  | .load _ => True
  | .baseDir _ config readable => readable = true ∧ config.written = config
  | .truncate save => save.Fits
  | .fill save => save.Fits ∧ file = .torn ∧ save.base = current

structure Sound (sys : System Theme) : Prop where
  kept : Kept sys
  stored : sys.file.readable true = true → sys.file.loadOr .default true = sys.current
  fits : ∀ id stage, sys.threads id = some stage → stage.Fits sys.file sys.current
  single : ∀ first second firstSave secondSave, sys.threads first = some (.fill firstSave) →
    sys.threads second = some (.fill secondSave) → first = second

section
variable {sys : System Theme} {id : Nat} {stage : Stage Theme} {base config : GroveConfig Theme}
variable {next : GroveConfig Theme} {operation : Operation Theme} {save : Save Theme}

theorem written_of_same (written : config.written = config)
    (same : Field.preferences.Same config next) : next.written = next := by
  obtain ⟨times, isNext⟩ := same
  have kept : next.preferences.map GrovePreferences.withoutLegacy = next.preferences := by
    rw [isNext]
    cases times with
    | zero =>
      rw [Function.iterate_zero, Option.map_id]
      exact congrArg GroveConfig.preferences written
    | succ times =>
      rw [Option.map_map, Function.iterate_succ']
      rfl
  unfold GroveConfig.written
  rw [kept]

theorem written_of_change {managedSourceDir : ProjectEntry → Except String Unit}
    (written : config.written = config)
    (isNext : operation.change managedSourceDir config = .ok (some next)) :
    next.written = next := by
  cases operation with
  | saveAppConfig app | saveGrovePreferences preferences =>
    cases isNext
    rfl
  | deleteProjectCategory categoryId =>
    simp only [Operation.change, GroveConfig.deleteProjectCategory] at isNext
    split_ifs at isNext
    cases isNext
    rfl
  | _ => exact written_of_same written (change_same isNext not_false)

theorem Sound.goto (sound : Sound sys) (own : stage.Fits sys.file sys.current)
    (noFill : ∀ save, stage ≠ .fill save) : Sound (sys.goto id stage) where
  kept := ⟨sound.kept.fields, sound.kept.readable, sound.kept.stored⟩
  stored := sound.stored
  fits other otherStage isOther := by
    rcases update_eq_some isOther with ⟨_, isSelf⟩ | ⟨_, wasOther⟩
    · exact Option.some.inj isSelf ▸ own
    · exact sound.fits other otherStage wasOther
  single first second firstSave secondSave isFirst isSecond := by
    rcases update_eq_some isFirst with ⟨_, isSelf⟩ | ⟨_, wasFirst⟩
    · exact absurd (Option.some.inj isSelf) (noFill firstSave)
    rcases update_eq_some isSecond with ⟨_, isSelf⟩ | ⟨_, wasSecond⟩
    · exact absurd (Option.some.inj isSelf) (noFill secondSave)
    · exact sound.single first second firstSave secondSave wasFirst wasSecond

theorem Sound.finish (sound : Sound sys) : Sound (sys.finish id) where
  kept := ⟨sound.kept.fields, sound.kept.readable, sound.kept.stored⟩
  stored := sound.stored
  fits other otherStage isOther := by
    rcases update_eq_some isOther with ⟨_, isNone⟩ | ⟨_, wasOther⟩
    · cases isNone
    · exact sound.fits other otherStage wasOther
  single first second firstSave secondSave isFirst isSecond := by
    rcases update_eq_some isFirst with ⟨_, isNone⟩ | ⟨_, wasFirst⟩
    · cases isNone
    rcases update_eq_some isSecond with ⟨_, isNone⟩ | ⟨_, wasSecond⟩
    · cases isNone
    · exact sound.single first second firstSave secondSave wasFirst wasSecond

theorem Sound.modify (sound : Sound sys) {given : Given} {looked : Option Looked}
    {operation : Operation Theme} (written : config.written = config)
    (same : ∀ field, ¬ (∃ found, looked = some found ∧ found.Owns base field) →
      field.Same base config) :
    Sound (sys.modify id given base config looked true operation) := by
  unfold System.modify
  split
  · rename_i content isContent
    refine sound.goto ⟨rfl, written_of_change written isContent, fun field free => ?_⟩
      fun save isFill => by cases isFill
    obtain ⟨notOperation, notLooked⟩ := not_or.mp free
    exact (same field notLooked).trans (change_same isContent notOperation)
  · exact sound.finish

theorem Sound.noFill (sound : Sound sys) (readable : sys.file.readable true = true)
    (other : Nat) (save : Save Theme) : sys.threads other ≠ some (.fill save) := by
  intro isFill
  have isTorn := (sound.fits other _ isFill).2.1
  rw [isTorn] at readable
  cases readable

theorem truncate_sound (sound : Sound sys) (fits : save.Fits)
    (readable : sys.file.readable true = true)
    (isBase : sys.file.loadOr .default true = save.base) :
    Sound ({ sys with file := .torn }.goto id (.fill save)) where
  kept := ⟨sound.kept.fields, sound.kept.readable, fun _ isWhole => by cases isWhole⟩
  stored isReadable := by cases isReadable
  fits other otherStage isOther := by
    rcases update_eq_some isOther with ⟨_, isSelf⟩ | ⟨_, wasOther⟩
    · rw [← Option.some.inj isSelf]
      exact ⟨fits, rfl, isBase.symm.trans (sound.stored readable)⟩
    · have wasFits := sound.fits other otherStage wasOther
      cases otherStage with
      | fill otherSave => exact absurd wasOther (sound.noFill readable other otherSave)
      | _ => exact wasFits
  single first second firstSave secondSave isFirst isSecond := by
    rcases update_eq_some isFirst with ⟨rfl, _⟩ | ⟨_, wasFirst⟩
    · rcases update_eq_some isSecond with ⟨rfl, _⟩ | ⟨_, wasSecond⟩
      · rfl
      · exact absurd wasSecond (sound.noFill readable second secondSave)
    · exact absurd wasFirst (sound.noFill readable first firstSave)

theorem fill_sound (sound : Sound sys) (isThread : sys.threads id = some (.fill save))
    (covers : Bool) :
    Sound ((sys.saved save (!sys.overlapped || covers)).finish id) := by
  obtain ⟨fits, isTorn, isBase⟩ := sound.fits id _ isThread
  have isFile : (sys.saved save (!sys.overlapped || covers)).file = .whole save.content := by
    unfold System.saved System.overlapped
    rw [isTorn, fits.written]
    rfl
  have alone : ∀ other otherSave, sys.threads other = some (.fill otherSave) → other = id :=
    fun other otherSave isOther => sound.single other id otherSave save isOther isThread
  constructor
  · refine ⟨fun done isDone field free => ?_, fun done isDone => ?_, fun config isConfig => ?_⟩
    · rcases List.mem_cons.mp isDone with rfl | wasDone
      · show field.Same sys.current save.content.written
        rw [fits.written, ← isBase]
        refine fits.fields field fun owned => free ?_
        rwa [isBase] at owned
      · exact sound.kept.fields done wasDone field free
    · rcases List.mem_cons.mp isDone with rfl | wasDone
      · exact fits.readable
      · exact sound.kept.readable done wasDone
    · have isSame := isFile.symm.trans isConfig
      cases isSame
      exact fits.written.symm
  · intro _
    show (sys.saved save (!sys.overlapped || covers)).file.loadOr _ true =
      save.content.written
    rw [isFile, fits.written]
    rfl
  · intro other otherStage isOther
    rcases update_eq_some isOther with ⟨_, isNone⟩ | ⟨different, wasOther⟩
    · cases isNone
    · have wasFits := sound.fits other otherStage wasOther
      cases otherStage with
      | fill otherSave => exact absurd (alone other otherSave wasOther) different
      | _ => exact wasFits
  · intro first second firstSave secondSave isFirst isSecond
    rcases update_eq_some isFirst with ⟨_, isNone⟩ | ⟨different, wasFirst⟩
    · cases isNone
    · exact absurd (alone first firstSave wasFirst) different

theorem modify_finish (given : Given) (looked : Option Looked) (readable : Bool)
    (operation : Operation Theme) :
    (sys.finish id).modify id given base config looked readable operation =
      sys.modify id given base config looked readable operation := by
  unfold System.modify
  split
  · simp only [System.goto, System.finish, Function.update_idem]
  · simp only [System.finish, Function.update_idem]

theorem advance_sound (sound : Sound sys) {given : Given}
    (isThread : sys.threads id = some stage) (clean : stage.Clean sys.file given) :
    Sound (sys.advance id given stage) := by
  have fits := sound.fits id stage isThread
  cases stage with
  | load operation =>
    obtain ⟨readable, written⟩ := clean
    have isWhole : sys.file.loadOr .default given.ok = sys.file.loadOr .default true := by
      cases isFile : sys.file with
      | whole config =>
        rw [isFile] at readable
        have isOk : given.ok = true := readable
        rw [isOk]
      | _ => rfl
    simp only [System.advance, readable, isWhole]
    split_ifs
    · exact sound.goto ⟨rfl, written⟩ fun save isFill => by cases isFill
    · exact sound.modify written fun field _ => Field.Same.refl _ field
  | baseDir operation config readable =>
    obtain ⟨rfl, written⟩ := fits
    simp only [System.advance]
    have same : ∀ (looked : Looked) field, ¬ looked.Owns config field →
        field.Same config (reconcileConfig looked config).1 :=
      fun looked field free => reconcile_same config free
    split_ifs
    · refine sound.goto ⟨rfl, written_of_same written (same _ .preferences not_false), ?_⟩
        fun save isFill => by cases isFill
      exact fun field free => same _ field fun owned => free (.inr ⟨_, rfl, owned⟩)
    · refine sound.modify (written_of_same written (same _ .preferences not_false)) ?_
      exact fun field free => same _ field fun owned => free ⟨_, rfl, owned⟩
  | truncate save =>
    simp only [System.advance]
    split_ifs
    · exact truncate_sound sound fits clean.1 clean.2
    · exact sound.finish
  | fill save =>
    simp only [System.advance]
    split_ifs
    · have isDone := fill_sound sound isThread given.covers
      split
      · exact isDone
      · rename_i operation _
        rw [← modify_finish, fits.1.readable, fits.1.written]
        exact isDone.modify fits.1.written fun field _ => Field.Same.refl _ field
    · have isTorn : { sys with file := .torn } = sys := by rw [← fits.2.1]
      rw [isTorn]
      exact sound.finish

end

/-- No thread runs. -/
def opened (file : JsonFile (GroveConfig Theme)) : System Theme where
  file
  current := file.loadOr .default true
  saves := []
  threads _ := none

theorem opened_sound (file : JsonFile (GroveConfig Theme)) : Sound (opened file) where
  kept := ⟨List.forall_mem_nil _, List.forall_mem_nil _, fun config isConfig => by
    cases file with
    | whole _ => exact (JsonFile.whole.inj isConfig).symm
    | _ => cases isConfig⟩
  stored _ := rfl
  fits _ _ isThread := nomatch isThread
  single _ _ _ _ isThread := nomatch isThread

theorem step_sound {sys next : System Theme} {label : Label Theme} (sound : Sound sys)
    (clean : Clean sys label) (ran : step sys label = some next) : Sound next := by
  cases label with
  | start id operation =>
    simp only [step] at ran
    split at ran
    · cases ran
    · cases ran
      exact sound
    · cases ran
      exact sound.goto trivial fun save isFill => by cases isFill
  | advance id given =>
    obtain ⟨stage, isThread, rfl⟩ := Option.map_eq_some_iff.mp ran
    exact advance_sound sound isThread (clean stage isThread)

/-- In all runs from any file. -/
def ConfigKept (Theme : Type) (ok : System Theme → Label Theme → Prop) : Prop :=
  ∀ file finish, Run step ok (opened file) finish → Kept finish

/-- No save takes another writer's fields, or starts from a file that could not be read. -/
theorem configKept {file : JsonFile (GroveConfig Theme)} {finish : System Theme}
    (run : Run step Clean (opened file) finish) : Kept finish := by
  have sound : Sound finish := run.invariant (opened_sound file)
    fun _ _ _ sound clean ran => step_sound sound clean ran
  exact sound.kept

def given : Given where
  ok := true
  covers := true
  defaultBaseDir := "/home/.grove"
  looked _ := ⟨[], []⟩
  managedSourceDir _ := .ok ()

def onlyProject : GroveConfig Unit where
  projects := [⟨"p", "repo", "https://h/o/repo", "o", "repo", "/repo", [], .empty, none, false,
    false, none, none⟩]
  baseDir := none
  terminalTheme := none
  preferences := none

/-- One operation after the other. -/
def inTurn : List (Label Unit) :=
  [.start 0 (.saveGrovePreferences .default), .advance 0 given, .advance 0 given,
    .advance 0 given, .start 1 (.setProjectFocus "p" true), .advance 1 given, .advance 1 given,
    .advance 1 given]

theorem configKept_inTurn :
    ∃ finish, Run step Clean (opened (.whole onlyProject)) finish ∧ finish.saves.length = 2 ∧
      (finish.current.entry? "p").map (·.focused) = some true ∧ Kept finish := by
  obtain ⟨finish, replayed, bothSaved, isFocused⟩ :
      ∃ finish, execute step (opened (.whole onlyProject)) inTurn = some finish ∧
        finish.saves.length = 2 ∧ (finish.current.entry? "p").map (·.focused) = some true :=
    ⟨_, rfl, rfl, by decide⟩
  have permitted : Permitted step Clean (opened (.whole onlyProject)) inTurn := by
    refine ⟨trivial, _, rfl, ?_, _, rfl, ?_, _, rfl, ?_, _, rfl, trivial, _, rfl, ?_, _, rfl, ?_, _,
      rfl, ?_, _, rfl, trivial⟩
    all_goals
      intro stage isThread
      obtain rfl := Option.some.inj isThread
    · exact ⟨rfl, rfl⟩
    · exact ⟨rfl, rfl⟩
    · trivial
    · exact ⟨rfl, rfl⟩
    · exact ⟨rfl, rfl⟩
    · trivial
  have run := run_of_permitted inTurn permitted replayed
  exact ⟨finish, run, bothSaved, isFocused, configKept run⟩

/-- The preferences are saved by an operation that has loaded the config while another one was
writing it. -/
def loadedWhileWritten : List (Label Unit) :=
  [.start 1 (.setProjectFocus "p" true), .advance 1 given, .advance 1 given,
    .start 0 (.saveGrovePreferences .default), .advance 0 given, .advance 1 given,
    .advance 0 given, .advance 0 given]

theorem not_configKept : ¬ ConfigKept Unit fun _ _ => True := by
  intro kept
  obtain ⟨finish, replayed, save, isSave, isOperation, notLooked, wasFocused, isGone⟩ :
      ∃ finish, execute step (opened (.whole onlyProject)) loadedWhileWritten = some finish ∧
        ∃ save ∈ finish.saves, save.operation = .saveGrovePreferences .default ∧
          save.looked = none ∧
          (save.before.entry? "p").map (Part.value .focused) = some true ∧
          (save.after.entry? "p").map (Part.value .focused) = none :=
    ⟨_, rfl, _, List.mem_cons_self, rfl, rfl, rfl, rfl⟩
  have run : Run step (fun _ _ => True) (opened (.whole onlyProject)) finish :=
    run_of_execute loadedWhileWritten replayed fun _ _ _ => trivial
  have notOwned : ¬ save.Owns (.entry "p" .focused) := by
    rintro (owned | ⟨looked, isLooked, _⟩)
    · rw [isOperation] at owned
      exact owned
    · rw [notLooked] at isLooked
      cases isLooked
  have same := (kept _ finish run).fields save isSave (.entry "p" .focused) notOwned
  rw [Field.Same, wasFocused, isGone] at same
  cases same

end AiTools.Grove.Config
