import AiTools.Irc.Inbox
import AiTools.Lib.Transition

/-!
Contract: what an inbox keeps over every interleaving of senders, readers and removals.
-/

namespace AiTools.Irc.Inbox

open AiTools.Lib.Keyed AiTools.Lib.Transition
open List (forall_mem_nil mem_append mem_cons mem_cons_of_mem mem_cons_self mem_map)

/-- An `inbox` command between its first listing of the directory and the one of its
`MarkAllRead`. -/
def Stage.reads : Stage → Bool
  | .read _ _ _ => true
  | .display _ _ => true
  | .stat => true
  | .markList => true
  | _ => false

/-- The file that a `MarkAllRead` has read and not yet written. -/
def Stage.rewrites? : Stage → Option Int
  | .write _ file (.mark _) => some file.name
  | _ => none

/-- All threads are at a stage of the kind. -/
def System.All (sys : System) (kind : Stage → Prop) : Prop :=
  ∀ thread stage, sys.threads thread = some stage → kind stage

/-- A message gets a name that none had before, and not while an `inbox` command is between its
two listings. A listed file can be read. A command that displays one message leaves no other
one unread that was not displayed. A `ClearInbox` does not remove the file that a `MarkAllRead`
is about to write. -/
def Stage.Clean (sys : System) (given : Given) : Stage → Prop
  | .write .rename file .send =>
    file.name ∉ sys.disk.used ∧ sys.All fun other => other.reads = false
  | .read _ (_ :: _) _ => given.ok = true
  | .display view messages => view.displayed given.sorted = [] ∨
      ∀ message ∈ messages, message.read = false →
        message.id ∈ sys.disk.shown ∨ message ∈ view.displayed given.sorted
  | .clear (.file name :: _) _ => sys.All fun other => other.rewrites? ≠ some name
  | _ => True

def Clean (sys : System) : Label → Prop
  | .start _ => True
  | .advance thread given =>
    ∀ stage, sys.threads thread = some stage → stage.Clean sys given

/-- A message that was not sent yet. -/
structure Fresh (disk : Disk) (thread : Nat) (message : Message) : Prop where
  own : message.id = thread
  unread : message.read = false
  notCleared : thread ∉ disk.cleared
  notStored : ∀ file ∈ disk.files.entries, file.message.id ≠ thread

/-- What is not read and was not displayed is in one of the files that are left, or among the
messages so far. -/
def Awaits (disk : Disk) (left : List Int) (messages : List Message) : Prop :=
  ∀ file ∈ disk.files.entries, file.message.read = true ∨ file.message.id ∈ disk.shown ∨
    file.name ∈ left ∨ ∃ message ∈ messages, message.id = file.message.id ∧ message.read = false

/-- What is left to be marked was displayed. -/
def Ready (disk : Disk) (left : List Int) : Prop :=
  (∀ name ∈ left, name ∈ disk.used) ∧ ∀ file ∈ disk.files.entries, file.name ∈ left →
      file.message.read = true ∨ file.message.id ∈ disk.shown

/-- The file that is about to be written is still there, and was displayed. -/
structure Rewrites (disk : Disk) (file : MessageFile) : Prop where
  shown : file.message.id ∈ disk.shown
  read : file.message.read = true
  stored : ∃ old ∈ disk.files.entries, old.name = file.name ∧ old.message.id = file.message.id

def Stage.Fits (disk : Disk) (thread : Nat) : Stage → Prop
  | .makeDir message => Fresh disk thread message
  | .clock message => Fresh disk thread message
  | .write _ file .send => Fresh disk thread file.message
  | .write _ file (.mark left) => Rewrites disk file ∧ Ready disk left
  | .list _ => True
  | .read _ left messages => Awaits disk left messages
  | .display _ messages => Awaits disk [] messages
  | .stat => Awaits disk [] []
  | .markList => Awaits disk [] []
  | .mark left => Ready disk left
  | .clearList => True
  | .clear _ _ => True
  | .clearDir => True

structure Disk.Sound (disk : Disk) (next : Nat) : Prop where
  kept : Kept disk
  names : ∀ file ∈ disk.files.entries, file.name ∈ disk.used
  distinct : ∀ first ∈ disk.files.entries, ∀ second ∈ disk.files.entries,
    first.message.id = second.message.id → first = second
  older : ∀ file ∈ disk.files.entries, file.message.id < next
  clearedOlder : ∀ id ∈ disk.cleared, id < next
  absent : disk.present = false → disk.files.entries = []

structure Sound (sys : System) : Prop where
  disk : sys.disk.Sound sys.next
  fits : ∀ thread stage, sys.threads thread = some stage → stage.Fits sys.disk thread
  older : ∀ thread stage, sys.threads thread = some stage → thread < sys.next

/-- How the directory may change beside a thread. -/
structure Moves (disk next : Disk) (thread : Nat) (stage : Stage) : Prop where
  shown : ∀ id ∈ disk.shown, id ∈ next.shown
  used : ∀ name ∈ disk.used, name ∈ next.used
  files : ∀ file ∈ next.files.entries, file ∈ disk.files.entries ∨ (file.message.read = true ∧
      ∃ old ∈ disk.files.entries, old.name = file.name ∧ old.message.id = file.message.id) ∨
    (stage.reads = false ∧ file.name ∉ disk.used ∧ file.message.id ≠ thread)
  cleared : ∀ id ∈ next.cleared, id ∈ disk.cleared ∨
    ∃ file ∈ disk.files.entries, file.message.id = id
  stays : ∀ name, stage.rewrites? = some name → ∀ file ∈ disk.files.entries, file.name = name →
    ∃ new ∈ next.files.entries, new.name = name ∧ new.message.id = file.message.id

section
variable {disk next : Disk} {thread : Nat} {stage : Stage}

theorem Moves.fresh (moves : Moves disk next thread stage) {message : Message}
    (fresh : Fresh disk thread message) : Fresh next thread message where
  __ := fresh
  notCleared isCleared := by
    rcases moves.cleared thread isCleared with wasCleared | ⟨file, isFile, isOwn⟩
    · exact fresh.notCleared wasCleared
    · exact fresh.notStored file isFile isOwn
  notStored file isFile := by
    rcases moves.files file isFile with wasFile | ⟨_, old, wasFile, _, sameId⟩ | ⟨_, _, isOther⟩
    · exact fresh.notStored file wasFile
    · exact sameId ▸ fresh.notStored old wasFile
    · exact isOther

variable {left : List Int}

theorem Moves.awaits (moves : Moves disk next thread stage) (reads : stage.reads = true)
    {messages : List Message} (awaits : Awaits disk left messages) :
    Awaits next left messages := by
  intro file isFile
  rcases moves.files file isFile with wasFile | ⟨isRead, _⟩ | ⟨isOther, _⟩
  · rcases awaits file wasFile with isRead | isShown | isPending
    · exact .inl isRead
    · exact .inr (.inl (moves.shown _ isShown))
    · exact .inr (.inr isPending)
  · exact .inl isRead
  · exact Bool.noConfusion (isOther.symm.trans reads)

theorem Moves.ready (moves : Moves disk next thread stage) (ready : Ready disk left) :
    Ready next left := by
  refine ⟨fun name isLeft => moves.used name (ready.1 name isLeft), fun file isFile isLeft => ?_⟩
  rcases moves.files file isFile with wasFile | ⟨isRead, _⟩ | ⟨_, isNew, _⟩
  · exact (ready.2 file wasFile isLeft).imp_right (moves.shown _)
  · exact .inl isRead
  · exact absurd (ready.1 _ isLeft) isNew

theorem Moves.fits (moves : Moves disk next thread stage) (fits : stage.Fits disk thread) :
    stage.Fits next thread := by
  cases stage with
  | makeDir message | clock message => exact moves.fresh fits
  | write step file job =>
    cases job with
    | send => exact moves.fresh fits
    | mark left =>
      obtain ⟨⟨isShown, isRead, old, wasFile, sameName, sameId⟩, ready⟩ := fits
      obtain ⟨new, isNew, isName, isId⟩ := moves.stays file.name rfl old wasFile sameName
      exact ⟨⟨moves.shown _ isShown, isRead, new, isNew, isName, isId.trans sameId⟩,
        moves.ready ready⟩
  | read view left messages | display view messages | stat | markList => exact moves.awaits rfl fits
  | mark left => exact moves.ready fits
  | _ => trivial

theorem Moves.temps (moves : Moves disk next thread stage) (temps : List Nat) :
    Moves disk { next with temps } thread stage :=
  ⟨moves.shown, moves.used, moves.files, moves.cleared, moves.stays⟩

theorem Moves.of_files (sameFiles : next.files = disk.files) (sameUsed : next.used = disk.used)
    (sameCleared : next.cleared = disk.cleared) (shown : ∀ id ∈ disk.shown, id ∈ next.shown) :
    Moves disk next thread stage where
  shown := shown
  used _ isUsed := sameUsed ▸ isUsed
  files _ isFile := .inl (sameFiles ▸ isFile)
  cleared _ isCleared := .inl (sameCleared ▸ isCleared)
  stays _ _ file isFile isName := ⟨file, sameFiles ▸ isFile, isName, rfl⟩

theorem moves_posted {file : MessageFile} (isNew : file.name ∉ disk.used)
    (names : ∀ old ∈ disk.files.entries, old.name ∈ disk.used) (noReader : stage.reads = false)
    (isOther : file.message.id ≠ thread) : Moves disk (disk.posted file) thread stage where
  shown _ isShown := isShown
  used _ isUsed := mem_cons_of_mem _ isUsed
  files found isFound := by
    rcases Table.mem_put.mp isFound with rfl | ⟨wasFile, _⟩
    · exact .inr (.inr ⟨noReader, isNew, isOther⟩)
    · exact .inl wasFile
  cleared _ isCleared := .inl isCleared
  stays _ _ old wasFile isName := by
    refine ⟨old, Table.mem_put.mpr (.inr ⟨wasFile, fun same => isNew ?_⟩), isName, rfl⟩
    exact same ▸ names old wasFile

theorem moves_marked {file old : MessageFile} (isRead : file.message.read = true)
    (wasFile : old ∈ disk.files.entries) (sameName : old.name = file.name)
    (sameId : old.message.id = file.message.id) : Moves disk (disk.marked file) thread stage where
  shown _ isShown := isShown
  used _ isUsed := isUsed
  files found isFound := by
    rcases Table.mem_put.mp isFound with rfl | ⟨wasFound, _⟩
    · exact .inr (.inl ⟨isRead, old, wasFile, sameName, sameId⟩)
    · exact .inl wasFound
  cleared _ isCleared := .inl isCleared
  stays name _ found wasFound isName := by
    by_cases same : found.name = file.name
    · have isOld : found = old :=
        disk.files.eq_of_key wasFound wasFile (same.trans sameName.symm)
      exact ⟨file, Table.mem_put.mpr (.inl rfl), same.symm.trans isName, isOld ▸ sameId.symm⟩
    · exact ⟨found, Table.mem_put.mpr (.inr ⟨wasFound, same⟩), isName, rfl⟩

theorem moves_removed {entry : Entry} (notRewritten : ∀ name, entry = .file name →
      stage.rewrites? ≠ some name) : Moves disk (disk.removed entry) thread stage := by
  cases entry with
  | temp other => exact .of_files rfl rfl rfl fun _ isShown => isShown
  | file name =>
    refine ⟨fun _ isShown => isShown, fun _ isUsed => isUsed, fun file isFile => ?_,
      fun id isCleared => ?_, fun other isRewritten file isFile isName => ?_⟩
    · exact .inl (Table.mem_remove.mp isFile).1
    · rcases mem_append.mp isCleared with isRemoved | wasCleared
      · obtain ⟨file, isFile, isId⟩ := mem_map.mp isRemoved
        have isFound := Option.mem_toList.mp isFile
        exact .inr ⟨file, (Table.find?_eq_some_iff.mp isFound).1, isId⟩
      · exact .inl wasCleared
    · refine ⟨file, Table.mem_remove.mpr ⟨isFile, fun isRemoved => ?_⟩, isName, rfl⟩
      have sameName : other = name := isName.symm.trans isRemoved
      exact notRewritten name rfl (sameName ▸ isRewritten)

end

namespace Disk

variable {disk : Disk} {next : Nat}

theorem Sound.of_files {other : Disk} (sound : disk.Sound next)
    (sameFiles : other.files = disk.files) (sameUsed : other.used = disk.used)
    (sameSent : other.sent = disk.sent) (sameCleared : other.cleared = disk.cleared)
    (shown : ∀ id ∈ disk.shown, id ∈ other.shown)
    (present : disk.present = true → other.present = true) : other.Sound next := by
  have absent : other.present = false → other.files.entries = [] := by
    intro isAbsent
    rw [sameFiles]
    refine sound.absent (Bool.eq_false_iff.mpr fun isPresent => ?_)
    exact Bool.noConfusion (isAbsent.symm.trans (present isPresent))
  obtain ⟨⟨delivered, shownFirst, stayCleared⟩, names, distinct, older, clearedOlder, _⟩ := sound
  rw [← sameFiles] at delivered shownFirst stayCleared names distinct older
  rw [← sameCleared] at delivered stayCleared clearedOlder
  rw [← sameSent] at delivered
  rw [← sameUsed] at names
  have nowShown := fun file isFile isRead => shown _ (shownFirst file isFile isRead)
  exact ⟨⟨delivered, nowShown, stayCleared⟩, names, distinct, older, clearedOlder, absent⟩

theorem Sound.temps (sound : disk.Sound next) (temps : List Nat) :
    Disk.Sound { disk with temps } next :=
  sound.of_files rfl rfl rfl rfl (fun _ isShown => isShown) fun isPresent => isPresent

variable {file : MessageFile}

theorem Sound.posted {thread : Nat} (sound : disk.Sound next)
    (fresh : Fresh disk thread file.message) (isOlder : thread < next)
    (isNew : file.name ∉ disk.used) (isPresent : disk.present = true) :
    (disk.posted file).Sound next where
  kept :=
    { delivered := fun id isSent => by
        rcases mem_cons.mp isSent with rfl | wasSent
        · exact .inr ⟨file, Table.mem_put.mpr (.inl rfl), rfl⟩
        · refine (sound.kept.delivered id wasSent).imp_right fun ⟨old, isOld, isId⟩ => ?_
          refine ⟨old, Table.mem_put.mpr (.inr ⟨isOld, fun same => isNew ?_⟩), isId⟩
          exact same ▸ sound.names old isOld
      shownFirst := fun found isFound isRead => by
        rcases Table.mem_put.mp isFound with rfl | ⟨wasFound, _⟩
        · exact Bool.noConfusion (fresh.unread.symm.trans isRead)
        · exact sound.kept.shownFirst found wasFound isRead
      stayCleared := fun found isFound => by
        rcases Table.mem_put.mp isFound with rfl | ⟨wasFound, _⟩
        · exact fresh.own ▸ fresh.notCleared
        · exact sound.kept.stayCleared found wasFound }
  names found isFound := by
    rcases Table.mem_put.mp isFound with rfl | ⟨wasFound, _⟩
    · exact mem_cons_self
    · exact mem_cons_of_mem _ (sound.names found wasFound)
  distinct first isFirst second isSecond same := by
    rcases Table.mem_put.mp isFirst with rfl | ⟨wasFirst, _⟩
    · rcases Table.mem_put.mp isSecond with rfl | ⟨wasSecond, _⟩
      · rfl
      · exact absurd (same.symm.trans fresh.own) (fresh.notStored second wasSecond)
    · rcases Table.mem_put.mp isSecond with rfl | ⟨wasSecond, _⟩
      · exact absurd (same.trans fresh.own) (fresh.notStored first wasFirst)
      · exact sound.distinct first wasFirst second wasSecond same
  older found isFound := by
    rcases Table.mem_put.mp isFound with rfl | ⟨wasFound, _⟩
    · exact fresh.own ▸ isOlder
    · exact sound.older found wasFound
  clearedOlder := sound.clearedOlder
  absent isAbsent := Bool.noConfusion (isAbsent.symm.trans isPresent)

theorem Sound.marked (sound : disk.Sound next) (rewrites : Rewrites disk file)
    (isPresent : disk.present = true) :
    (disk.marked file).Sound next := by
  obtain ⟨isShown, _, old, isOld, sameName, sameId⟩ := rewrites
  have others : ∀ {found}, found ∈ disk.files.entries → found.name ≠ file.name →
      found.message.id ≠ file.message.id := by
    intro found isFound different sameIds
    exact different (sound.distinct found isFound old isOld (sameIds.trans sameId.symm) ▸ sameName)
  refine ⟨⟨fun id isSent => ?_, fun found isFound isRead => ?_, fun found isFound => ?_⟩,
    fun found isFound => ?_, fun first isFirst second isSecond same => ?_, fun found isFound => ?_,
    sound.clearedOlder, fun isAbsent => Bool.noConfusion (isAbsent.symm.trans isPresent)⟩
  · refine (sound.kept.delivered id isSent).imp_right fun ⟨found, isFound, isId⟩ => ?_
    by_cases same : found.name = file.name
    · have isOldFile : found = old :=
        disk.files.eq_of_key isFound isOld (same.trans sameName.symm)
      exact ⟨file, Table.mem_put.mpr (.inl rfl), sameId.symm.trans (isOldFile ▸ isId)⟩
    · exact ⟨found, Table.mem_put.mpr (.inr ⟨isFound, same⟩), isId⟩
  · rcases Table.mem_put.mp isFound with rfl | ⟨wasFound, _⟩
    · exact isShown
    · exact sound.kept.shownFirst found wasFound isRead
  · rcases Table.mem_put.mp isFound with rfl | ⟨wasFound, _⟩
    · exact sameId ▸ sound.kept.stayCleared old isOld
    · exact sound.kept.stayCleared found wasFound
  · rcases Table.mem_put.mp isFound with rfl | ⟨wasFound, _⟩
    · exact sameName ▸ sound.names old isOld
    · exact sound.names found wasFound
  · rcases Table.mem_put.mp isFirst with rfl | ⟨wasFirst, firstDiffers⟩
    · rcases Table.mem_put.mp isSecond with rfl | ⟨wasSecond, secondDiffers⟩
      · rfl
      · exact absurd same.symm (others wasSecond secondDiffers)
    · rcases Table.mem_put.mp isSecond with rfl | ⟨wasSecond, _⟩
      · exact absurd same (others wasFirst firstDiffers)
      · exact sound.distinct first wasFirst second wasSecond same
  · rcases Table.mem_put.mp isFound with rfl | ⟨wasFound, _⟩
    · exact sameId ▸ sound.older old isOld
    · exact sound.older found wasFound

theorem Sound.removed (sound : disk.Sound next) (entry : Entry) :
    (disk.removed entry).Sound next := by
  cases entry with
  | temp thread => exact sound.temps _
  | file name =>
    have ofRemoved : ∀ {id}, id ∈ ((disk.files.find? name).toList.map (·.message.id)) →
        ∃ file ∈ disk.files.entries, file.name = name ∧ file.message.id = id := by
      intro id isRemoved
      obtain ⟨file, isFile, isId⟩ := mem_map.mp isRemoved
      obtain ⟨isStored, isName⟩ := Table.find?_eq_some_iff.mp (Option.mem_toList.mp isFile)
      exact ⟨file, isStored, isName, isId⟩
    refine ⟨⟨fun id isSent => ?_, fun file isFile isRead => ?_, fun file isFile isCleared => ?_⟩,
      fun file isFile => ?_, fun first isFirst second isSecond same => ?_, fun file isFile => ?_,
      fun id isCleared => ?_, fun isAbsent => ?_⟩
    · rcases sound.kept.delivered id isSent with wasCleared | ⟨file, isFile, isId⟩
      · exact .inl (List.mem_append_right _ wasCleared)
      · by_cases isName : file.name = name
        · have isFound : disk.files.find? name = some file :=
            Table.find?_eq_some_iff.mpr ⟨isFile, isName⟩
          refine .inl (List.mem_append_left _ (mem_map.mpr ⟨file, ?_, isId⟩))
          exact Option.mem_toList.mpr isFound
        · exact .inr ⟨file, Table.mem_remove.mpr ⟨isFile, isName⟩, isId⟩
    · exact sound.kept.shownFirst file (Table.mem_remove.mp isFile).1 isRead
    · obtain ⟨wasFile, different⟩ := Table.mem_remove.mp isFile
      rcases mem_append.mp isCleared with isRemoved | wasCleared
      · obtain ⟨other, isOther, isName, sameId⟩ := ofRemoved isRemoved
        exact different (sound.distinct other isOther file wasFile sameId ▸ isName)
      · exact sound.kept.stayCleared file wasFile wasCleared
    · exact sound.names file (Table.mem_remove.mp isFile).1
    · exact sound.distinct first (Table.mem_remove.mp isFirst).1 second
        (Table.mem_remove.mp isSecond).1 same
    · exact sound.older file (Table.mem_remove.mp isFile).1
    · rcases mem_append.mp isCleared with isRemoved | wasCleared
      · obtain ⟨file, isFile, _, isId⟩ := ofRemoved isRemoved
        exact isId ▸ sound.older file isFile
      · exact sound.clearedOlder id wasCleared
    · refine List.eq_nil_iff_forall_not_mem.mpr fun file isFile => ?_
      have noFiles := sound.absent isAbsent
      have wasFile := (Table.mem_remove.mp isFile).1
      rw [noFiles] at wasFile
      cases wasFile

end Disk

/-! ## Threads -/

section
variable {sys : System} {thread : Nat} {stage : Stage} {disk : Disk}

theorem Sound.goto (sound : Sound sys) (isDisk : disk.Sound sys.next)
    (others : ∀ other otherStage, other ≠ thread → sys.threads other = some otherStage →
      Moves sys.disk disk other otherStage)
    (isOlder : thread < sys.next) (own : stage.Fits disk thread) :
    Sound ((sys.onDisk disk).goto thread stage) where
  disk := isDisk
  fits other otherStage isOther := by
    rcases update_eq_some isOther with ⟨rfl, isSelf⟩ | ⟨different, wasOther⟩
    · exact Option.some.inj isSelf ▸ own
    · exact (others other otherStage different wasOther).fits (sound.fits other otherStage wasOther)
  older other otherStage isOther := by
    rcases update_eq_some isOther with ⟨rfl, _⟩ | ⟨_, wasOther⟩
    · exact isOlder
    · exact sound.older other otherStage wasOther

theorem Sound.finish (sound : Sound sys) (isDisk : disk.Sound sys.next)
    (others : ∀ other otherStage, other ≠ thread → sys.threads other = some otherStage →
      Moves sys.disk disk other otherStage) :
    Sound ((sys.onDisk disk).finish thread) where
  disk := isDisk
  fits other otherStage isOther := by
    rcases update_eq_some isOther with ⟨_, isNone⟩ | ⟨different, wasOther⟩
    · cases isNone
    · exact (others other otherStage different wasOther).fits (sound.fits other otherStage wasOther)
  older other otherStage isOther := by
    rcases update_eq_some isOther with ⟨_, isNone⟩ | ⟨_, wasOther⟩
    · cases isNone
    · exact sound.older other otherStage wasOther

theorem Sound.aside (sound : Sound sys) (sameFiles : disk.files = sys.disk.files)
    (sameUsed : disk.used = sys.disk.used) (sameSent : disk.sent = sys.disk.sent)
    (sameCleared : disk.cleared = sys.disk.cleared)
    (shown : ∀ id ∈ sys.disk.shown, id ∈ disk.shown)
    (present : sys.disk.present = true → disk.present = true) (isOlder : thread < sys.next)
    (own : stage.Fits sys.disk thread) : Sound ((sys.onDisk disk).goto thread stage) :=
  have moves : ∀ other otherStage, Moves sys.disk disk other otherStage :=
    fun _ _ => .of_files sameFiles sameUsed sameCleared shown
  sound.goto (sound.disk.of_files sameFiles sameUsed sameSent sameCleared shown present)
    (fun other otherStage _ _ => moves other otherStage) isOlder ((moves thread stage).fits own)

theorem Sound.stay (sound : Sound sys) (isOlder : thread < sys.next)
    (own : stage.Fits sys.disk thread) : Sound (sys.goto thread stage) :=
  sound.aside rfl rfl rfl rfl (fun _ isShown => isShown) (fun isPresent => isPresent) isOlder own

theorem Sound.leave (sound : Sound sys) : Sound (sys.finish thread) :=
  sound.finish sound.disk fun _ _ _ _ => .of_files rfl rfl rfl fun _ isShown => isShown

variable {write : WriteStep} {file : MessageFile} {job : Job} {left : List Int} {given : Given}
  {name : Int}

theorem Sound.fail (sound : Sound sys) (isOlder : thread < sys.next)
    (fits : (Stage.write write file job).Fits sys.disk thread) (temps : List Nat) :
    Sound ((sys.onDisk { sys.disk with temps }).fail thread job) := by
  cases job with
  | send =>
    exact sound.finish (sound.disk.temps temps)
      fun _ _ _ _ => .of_files rfl rfl rfl fun _ isShown => isShown
  | mark left =>
    exact sound.aside rfl rfl rfl rfl (fun _ isShown => isShown) (fun isPresent => isPresent)
      isOlder fits.2

theorem Sound.nextWrite (sound : Sound sys) (isOlder : thread < sys.next)
    (fits : (Stage.write write file job).Fits sys.disk thread) (later : WriteStep)
    {present : Bool} (isPresent : sys.disk.present = true → present = true) (temps : List Nat) :
    Sound ((sys.onDisk { sys.disk with present, temps }).goto thread
      (.write later file job)) := by
  refine sound.aside rfl rfl rfl rfl (fun _ isShown => isShown) isPresent isOlder ?_
  cases job with
  | send | mark left => exact fits

theorem posted_sound (sound : Sound sys) (isOlder : thread < sys.next)
    (fresh : Fresh sys.disk thread file.message) (isNew : file.name ∉ sys.disk.used)
    (noReader : sys.All fun other => other.reads = false)
    (isPresent : sys.disk.present = true) :
    Sound ((sys.onDisk ((sys.disk.withoutTemp thread).posted file)).finish thread) := by
  have isDisk := sound.disk.posted fresh isOlder isNew isPresent
  refine sound.finish (isDisk.temps _) fun other stage different isOther => ?_
  have moves : Moves sys.disk (sys.disk.posted file) other stage :=
    moves_posted isNew sound.disk.names (noReader other stage isOther)
      (fresh.own.trans_ne (Ne.symm different))
  exact moves.temps _

theorem marked_sound (sound : Sound sys) (isOlder : thread < sys.next)
    (rewrites : Rewrites sys.disk file) (ready : Ready sys.disk left)
    (isPresent : sys.disk.present = true) :
    Sound ((sys.onDisk ((sys.disk.withoutTemp thread).marked file)).goto thread
      (.mark left)) := by
  have isDisk := sound.disk.marked rewrites isPresent
  obtain ⟨_, isRead, old, isOld, sameName, sameId⟩ := rewrites
  have moves : ∀ other stage, Moves sys.disk (sys.disk.marked file) other stage :=
    fun other stage => moves_marked isRead isOld sameName sameId
  have ownMoves := (moves thread (.mark left)).temps (sys.disk.withoutTemp thread).temps
  exact sound.goto (isDisk.temps _) (fun other stage _ _ => (moves other stage).temps _) isOlder
    (ownMoves.fits ready)

theorem write_sound (sound : Sound sys) (isOlder : thread < sys.next)
    (fits : (Stage.write write file job).Fits sys.disk thread)
    (clean : (Stage.write write file job).Clean sys given) :
    Sound (sys.write thread given file job write) := by
  cases write with
  | makeDir =>
    simp only [System.write]
    split_ifs
    · exact sound.nextWrite isOlder fits .createTemp (fun _ => rfl) _
    · exact sound.fail isOlder fits _
  | createTemp =>
    simp only [System.write]
    split_ifs
    · exact sound.nextWrite isOlder fits .fill (fun isPresent => isPresent) _
    · exact sound.fail isOlder fits _
  | fill =>
    simp only [System.write]
    split_ifs
    · exact sound.nextWrite isOlder fits .rename (fun isPresent => isPresent) _
    · exact sound.fail isOlder fits _
  | rename =>
    simp only [System.write]
    split_ifs with renames
    · cases job with
      | send => exact posted_sound sound isOlder fits clean.1 clean.2 renames.2.1
      | mark left => exact marked_sound sound isOlder fits.1 fits.2 renames.2.1
    · exact sound.fail isOlder fits _

theorem Awaits.next {messages : List Message} (awaits : Awaits disk (name :: left) messages) :
    match disk.files.find? name with
    | none => Awaits disk left messages
    | some file => Awaits disk left (messages ++ [file.message]) := by
  split
  · rename_i notFound
    intro file isFile
    refine (awaits file isFile).imp_right (Or.imp_right (Or.imp_left fun isLeft => ?_))
    refine (mem_cons.mp isLeft).resolve_left fun isName => ?_
    exact Table.find?_eq_none_iff.mp notFound file isFile isName
  · rename_i found isFound
    obtain ⟨isStored, isName⟩ := Table.find?_eq_some_iff.mp isFound
    intro file isFile
    rcases awaits file isFile with isRead | isShown | isLeft | ⟨message, isMessage, isUnread⟩
    · exact .inl isRead
    · exact .inr (.inl isShown)
    · rcases mem_cons.mp isLeft with isFirst | isLater
      · have same : file = found := disk.files.eq_of_key isFile isStored (isFirst.trans isName.symm)
        cases isRead : file.message.read with
        | true => exact .inl rfl
        | false =>
          refine .inr (.inr (.inr ⟨file.message, ?_, rfl, isRead⟩))
          exact List.mem_append_right _ (same ▸ List.mem_singleton_self _)
      · exact .inr (.inr (.inl isLater))
    · exact .inr (.inr (.inr ⟨message, List.mem_append_left _ isMessage, isUnread⟩))

theorem Ready.later (ready : Ready disk (name :: left)) :
    Ready disk left :=
  ⟨fun other isLeft => ready.1 other (mem_cons_of_mem _ isLeft),
    fun file isFile isLeft => ready.2 file isFile (mem_cons_of_mem _ isLeft)⟩

theorem advance_sound (sound : Sound sys) {next : System}
    (isThread : sys.threads thread = some stage) (clean : stage.Clean sys given)
    (went : sys.advance thread given stage = some next) : Sound next := by
  have fits := sound.fits thread stage isThread
  have isOlder := sound.older thread stage isThread
  cases stage with
  | makeDir message =>
    simp only [System.advance] at went
    split_ifs at went
    · cases went
      exact sound.aside rfl rfl rfl rfl (fun _ isShown => isShown) (fun _ => rfl) isOlder fits
    · cases went
      exact sound.leave
  | clock message =>
    simp only [System.advance] at went
    split_ifs at went
    · cases went
      exact sound.stay isOlder ⟨fits.own, fits.unread, fits.notCleared, fits.notStored⟩
    · cases went
      exact sound.leave
  | write step file job =>
    cases went
    exact write_sound sound isOlder fits clean
  | list view =>
    simp only [System.advance] at went
    split_ifs at went with notOk isAbsent isListing
    · cases went
      exact sound.leave
    · cases went
      refine sound.stay isOlder fun file isFile => ?_
      rw [sound.disk.absent isAbsent] at isFile
      cases isFile
    · cases went
      refine sound.stay isOlder fun file isFile => .inr (.inr (.inl ?_))
      exact isListing.mem_iff.mpr (List.mem_map_of_mem isFile)
  | read view left messages =>
    cases left with
    | nil =>
      cases went
      exact sound.stay isOlder fits
    | cons name left =>
      have isOk : given.ok = true := clean
      have awaits := Awaits.next fits
      simp only [System.advance, System.fileAt, isOk, if_true] at went
      cases isFound : sys.disk.files.find? name with
      | none | some file =>
        rw [isFound] at went awaits
        cases went
        exact sound.stay isOlder awaits
  | display view messages =>
    simp only [System.advance] at went
    split_ifs at went
    split at went
    · cases went
      exact sound.leave
    · rename_i displays
      cases went
      have shown : ∀ id ∈ sys.disk.shown,
          id ∈ (sys.disk.displayed (view.displayed given.sorted)).shown :=
        fun id isShown => List.mem_append_right _ isShown
      refine sound.goto (sound.disk.of_files rfl rfl rfl rfl shown fun isPresent => isPresent)
        (fun _ _ _ _ => .of_files rfl rfl rfl shown) isOlder fun file isFile => ?_
      rcases fits file isFile with
        isRead | isShown | isLeft | ⟨message, isMessage, sameId, isUnread⟩
      · exact .inl isRead
      · exact .inr (.inl (shown _ isShown))
      · cases isLeft
      · refine .inr (.inl ?_)
        rcases (clean.resolve_left displays) message isMessage isUnread with isShown | isDisplayed
        · exact sameId ▸ shown _ isShown
        · refine List.mem_append_left _ (mem_map.mpr ⟨message, ?_, sameId⟩)
          exact List.mem_filter.mpr ⟨isDisplayed, decide_eq_true isUnread⟩
  | stat =>
    simp only [System.advance] at went
    split_ifs at went
    · cases went
      exact sound.stay isOlder fits
    · cases went
      exact sound.leave
  | markList =>
    simp only [System.advance] at went
    split_ifs at went with notOk isListing
    · cases went
      exact sound.leave
    · cases went
      refine sound.stay isOlder ⟨fun name isName => ?_, fun file isFile _ => ?_⟩
      · obtain ⟨file, isFile, rfl⟩ := mem_map.mp (isListing.mem_iff.mp isName)
        exact sound.disk.names file isFile
      · rcases fits file isFile with isRead | isShown | isLeft | ⟨message, isMessage, _⟩
        · exact .inl isRead
        · exact .inr isShown
        · cases isLeft
        · cases isMessage
  | mark left =>
    cases left with
    | nil =>
      cases went
      exact sound.leave
    | cons name left =>
      simp only [System.advance] at went
      split at went
      · cases went
        exact sound.stay isOlder (Ready.later fits)
      · rename_i file isFile
        unfold System.fileAt at isFile
        split_ifs at isFile
        obtain ⟨isStored, isName⟩ := Table.find?_eq_some_iff.mp isFile
        split_ifs at went with isRead
        · cases went
          exact sound.stay isOlder (Ready.later fits)
        · cases went
          have isLeft : file.name ∈ name :: left := isName ▸ mem_cons_self
          have isShown := (fits.2 file isStored isLeft).resolve_left isRead
          exact sound.stay isOlder ⟨⟨isShown, rfl, file, isStored, rfl, rfl⟩, Ready.later fits⟩
  | clearList =>
    simp only [System.advance] at went
    split_ifs at went
    · cases went
      exact sound.leave
    · cases went
      exact sound.stay isOlder trivial
  | clear left last =>
    cases left with
    | nil =>
      cases went
      cases last with
      | true | false => exact sound.stay isOlder trivial
    | cons entry left =>
      simp only [System.advance] at went
      split_ifs at went
      · cases went
        refine sound.goto (sound.disk.removed entry) (fun other otherStage _ isOther => ?_)
          isOlder trivial
        refine moves_removed fun name isName => ?_
        subst isName
        exact clean other otherStage isOther
      · cases went
        exact sound.stay isOlder trivial
  | clearDir =>
    simp only [System.advance] at went
    split_ifs at went with isEmpty
    · cases went
      obtain ⟨noNames, _⟩ := List.append_eq_nil_iff.mp isEmpty.2
      have noFiles : sys.disk.files.entries = [] :=
        List.map_eq_nil_iff.mp (List.map_eq_nil_iff.mp noNames)
      refine sound.finish { sound.disk with kept := ?_, absent := fun _ => noFiles }
        fun _ _ _ _ => .of_files rfl rfl rfl fun _ isShown => isShown
      exact ⟨sound.disk.kept.delivered, sound.disk.kept.shownFirst, sound.disk.kept.stayCleared⟩
    · cases went
      exact sound.leave

end

theorem initial_sound : Sound initial where
  disk :=
    { kept := ⟨forall_mem_nil _, forall_mem_nil _, forall_mem_nil _⟩
      names := forall_mem_nil _
      distinct := forall_mem_nil _
      older := forall_mem_nil _
      clearedOlder := forall_mem_nil _
      absent := fun _ => rfl }
  fits _ _ isThread := nomatch isThread
  older _ _ isThread := nomatch isThread

theorem Disk.Sound.mono {disk : Disk} {next later : Nat} (sound : disk.Sound next)
    (isLater : next ≤ later) : disk.Sound later :=
  { sound with
    older := fun file isFile => Nat.lt_of_lt_of_le (sound.older file isFile) isLater
    clearedOlder := fun id isCleared =>
      Nat.lt_of_lt_of_le (sound.clearedOlder id isCleared) isLater }

theorem step_sound {sys next : System} {label : Label} (sound : Sound sys)
    (clean : Clean sys label) (ran : step sys label = some next) : Sound next := by
  cases label with
  | start call =>
    cases ran
    refine ⟨sound.disk.mono (Nat.le_succ _), fun other stage isOther => ?_,
      fun other stage isOther => ?_⟩
    · rcases update_eq_some isOther with ⟨rfl, isSelf⟩ | ⟨_, wasOther⟩
      · rw [← Option.some.inj isSelf]
        cases call with
        | send sender content =>
          exact ⟨rfl, rfl, fun isCleared => Nat.lt_irrefl _ (sound.disk.clearedOlder _ isCleared),
            fun file isFile => Nat.ne_of_lt (sound.disk.older file isFile)⟩
        | _ => trivial
      · exact sound.fits other stage wasOther
    · rcases update_eq_some isOther with ⟨rfl, _⟩ | ⟨_, wasOther⟩
      · exact Nat.lt_succ_self _
      · exact Nat.lt_succ_of_lt (sound.older other stage wasOther)
  | advance thread given =>
    simp only [step] at ran
    split at ran
    · cases ran
    · rename_i stage isThread
      exact advance_sound sound isThread (clean stage isThread) ran

/-- In all runs. -/
def InboxKept (ok : System → Label → Prop) : Prop :=
  ∀ finish, Run step ok initial finish → Kept finish.disk

/-- No message is lost or overwritten, none is marked read before it was displayed, and none is
back once it was cleared. -/
theorem inboxKept {finish : System} (run : Run step Clean initial finish) : Kept finish.disk := by
  have sound : Sound finish := run.invariant initial_sound
    fun _ _ _ sound clean ran => step_sound sound clean ran
  exact sound.disk.kept

def fine : Given := ⟨true, 0, 0, [], [], []⟩

def first : Message := ⟨0, "b", "one", 1, false⟩

/-- A `SendMessage` from its start to its end. -/
def sends (thread : Nat) (clock : Int) (content : String) : List Label :=
  [.start (.send "b" content), .advance thread fine,
    .advance thread { fine with timestamp := clock, name := clock }, .advance thread fine,
    .advance thread fine, .advance thread fine, .advance thread fine]

/-- A message is sent, displayed and marked. -/
def readInTurn : List Label :=
  sends 0 1 "one" ++ [.start (.inbox (.list false)), .advance 1 { fine with names := [1] },
    .advance 1 fine, .advance 1 fine, .advance 1 { fine with sorted := [first] },
    .advance 1 fine, .advance 1 { fine with names := [1] }, .advance 1 fine, .advance 1 fine,
    .advance 1 fine, .advance 1 fine, .advance 1 fine]

theorem inboxKept_readInTurn : ∃ finish, Run step Clean initial finish ∧
      finish.disk.files.entries = [⟨1, { first with read := true }⟩] ∧ Kept finish.disk := by
  obtain ⟨finish, replayed, isRead⟩ : ∃ finish, execute step initial readInTurn = some finish ∧
        finish.disk.files.entries = [⟨1, { first with read := true }⟩] :=
    ⟨_, rfl, rfl⟩
  have permitted : Permitted step Clean initial readInTurn := by
    refine ⟨trivial, _, rfl, ?_, _, rfl, ?_, _, rfl, ?_, _, rfl, ?_, _, rfl, ?_, _, rfl, ?_, _, rfl,
      trivial, _, rfl, ?_, _, rfl, ?_, _, rfl, ?_, _, rfl, ?_, _, rfl, ?_, _, rfl, ?_, _, rfl,
      ?_, _, rfl, ?_, _, rfl, ?_, _, rfl, ?_, _, rfl, ?_, _, rfl, trivial⟩
    all_goals
      intro stage isThread
      obtain rfl := Option.some.inj isThread
      try trivial
    · refine ⟨List.not_mem_nil, fun other stage isOther => ?_⟩
      cases other with
      | zero =>
        obtain rfl := Option.some.inj isOther
        rfl
      | succ other => cases isOther
    · exact .inr fun message isMessage _ => .inr isMessage
  have run := run_of_permitted readInTurn permitted replayed
  exact ⟨finish, run, isRead, inboxKept run⟩

/-- A message arrives after the first listing of an `inbox` command. -/
def arrivesWhileRead : List Label :=
  sends 0 1 "one" ++ [.start (.inbox (.list false)), .advance 1 { fine with names := [1] }] ++
    sends 2 2 "two" ++ [.advance 1 fine, .advance 1 fine,
      .advance 1 { fine with sorted := [first] }, .advance 1 fine,
      .advance 1 { fine with names := [2, 1] }, .advance 1 fine, .advance 1 fine, .advance 1 fine,
      .advance 1 fine, .advance 1 fine]

theorem not_inboxKept : ¬ InboxKept fun _ _ => True := by
  intro kept
  obtain ⟨finish, replayed, isRead, notShown⟩ :
      ∃ finish, execute step initial arrivesWhileRead = some finish ∧
        ⟨2, ⟨2, "b", "two", 2, true⟩⟩ ∈ finish.disk.files.entries ∧ 2 ∉ finish.disk.shown :=
    ⟨_, rfl, mem_cons_self, by decide⟩
  have isKept := kept finish (reachable_of_execute arrivesWhileRead replayed)
  exact notShown (isKept.shownFirst _ isRead rfl)

end AiTools.Irc.Inbox
