import AiTools.Lib.Keyed
import Mathlib.Data.List.Perm.Basic
import Mathlib.Logic.Function.Basic

/-!
Contract: one inbox directory of `claude-irc`, one file operation at a time.

A message carries the number of the thread that sends it. Beside the code's state are recorded the
messages whose `SendMessage` has returned nil, those that were displayed unread, those that a
`ClearInbox` has removed, and the clock readings that have become names.
-/

namespace AiTools.Irc.Inbox

open AiTools.Lib.Keyed

structure Message where
  id : Nat
  sender : String
  content : String
  timestamp : Int
  read : Bool
deriving DecidableEq

/-- The name is a reading of the clock in nanoseconds, with the extension `.json`. -/
structure MessageFile where
  name : Int
  message : Message

abbrev Files := Table MessageFile.name

/-- What `RemoveAll` finds in the directory. -/
inductive Entry where
  | file (name : Int)
  | temp (thread : Nat)
deriving DecidableEq

structure Disk where
  present : Bool
  files : Files
  temps : List Nat
  sent : List Nat
  shown : List Nat
  cleared : List Nat
  used : List Int

namespace Disk

def names (disk : Disk) : List Int := disk.files.entries.map MessageFile.name

def entries (disk : Disk) : List Entry :=
  disk.names.map Entry.file ++ disk.temps.map Entry.temp

def withTemp (disk : Disk) (thread : Nat) : Disk :=
  { disk with temps := thread :: disk.temps }

def withoutTemp (disk : Disk) (thread : Nat) : Disk :=
  { disk with temps := disk.temps.filter (· ≠ thread) }

/-- A `SendMessage` has renamed its file. -/
def posted (disk : Disk) (file : MessageFile) : Disk :=
  { disk with
    files := disk.files.put file
    sent := file.message.id :: disk.sent
    used := file.name :: disk.used }

/-- A `MarkAllRead` has renamed its file. -/
def marked (disk : Disk) (file : MessageFile) : Disk :=
  { disk with files := disk.files.put file }

def displayed (disk : Disk) (messages : List Message) : Disk :=
  { disk with
    shown := (messages.filter (·.read = false)).map Message.id ++ disk.shown }

/-- A `ClearInbox` has removed an entry. -/
def removed (disk : Disk) : Entry → Disk
  | .file name => { disk with
      files := disk.files.remove name
      cleared := ((disk.files.find? name).toList.map (·.message.id)) ++ disk.cleared }
  | .temp thread => disk.withoutTemp thread

end Disk

/-! ## Threads -/

/-- The argument and the flag of `inbox`. -/
inductive View where
  | list (all : Bool)
  | single (index : Int)

def View.displayed (messages : List Message) : View → List Message
  | .list all => messages.filter fun message => all || !message.read
  | .single index =>
    if index < 1 ∨ messages.length < index then []
    else messages[(index - 1).toNat]?.toList

inductive WriteStep where
  | makeDir
  | createTemp
  | fill
  | rename

/-- What a `writeFileAtomic` is for. -/
inductive Job where
  | send
  | mark (left : List Int)

inductive Stage where
  | makeDir (message : Message)
  | clock (message : Message)
  | write (step : WriteStep) (file : MessageFile) (job : Job)
  | list (view : View)
  | read (view : View) (left : List Int) (messages : List Message)
  | display (view : View) (messages : List Message)
  | stat
  | markList
  | mark (left : List Int)
  | clearList
  | clear (left : List Entry) (last : Bool)
  | clearDir

inductive Call where
  | send (sender content : String)
  | inbox (view : View)
  | clear

def Call.start (thread : Nat) : Call → Stage
  | .send sender content => .makeDir ⟨thread, sender, content, 0, false⟩
  | .inbox view => .list view
  | .clear => .clearList

/-- Threads have the numbers below `next`. -/
structure System where
  disk : Disk
  next : Nat
  threads : Nat → Option Stage

/-- How a file operation goes, the readings of the clock, the orders in which a directory lists
what it has, and the messages as they are sorted. -/
structure Given where
  ok : Bool
  timestamp : Int
  name : Int
  names : List Int
  entries : List Entry
  sorted : List Message

inductive Label where
  | start (call : Call)
  | advance (thread : Nat) (given : Given)

namespace System

def goto (sys : System) (thread : Nat) (stage : Stage) : System :=
  { sys with threads := Function.update sys.threads thread (some stage) }

def finish (sys : System) (thread : Nat) : System :=
  { sys with threads := Function.update sys.threads thread none }

def onDisk (sys : System) (disk : Disk) : System := { sys with disk }

/-- A `MarkAllRead` goes on without the file that it could not write. -/
def fail (sys : System) (thread : Nat) : Job → System
  | .send => sys.finish thread
  | .mark left => sys.goto thread (.mark left)

def write (sys : System) (thread : Nat) (given : Given) (file : MessageFile) (job : Job) :
    WriteStep → System
  | .makeDir =>
    if given.ok then
      (sys.onDisk { sys.disk with present := true }).goto thread
        (.write .createTemp file job)
    else sys.fail thread job
  | .createTemp =>
    if given.ok = true ∧ sys.disk.present = true then
      (sys.onDisk (sys.disk.withTemp thread)).goto thread (.write .fill file job)
    else sys.fail thread job
  | .fill =>
    if given.ok then sys.goto thread (.write .rename file job)
    else (sys.onDisk (sys.disk.withoutTemp thread)).fail thread job
  | .rename =>
    let disk := sys.disk.withoutTemp thread
    if given.ok = true ∧ sys.disk.present = true ∧ thread ∈ sys.disk.temps then
      match job with
      | .send => (sys.onDisk (disk.posted file)).finish thread
      | .mark left => (sys.onDisk (disk.marked file)).goto thread (.mark left)
    else (sys.onDisk disk).fail thread job

/-- The file of a listed name, if it can be read. -/
def fileAt (sys : System) (given : Given) (name : Int) : Option MessageFile :=
  if given.ok then sys.disk.files.find? name else none

def advance (sys : System) (thread : Nat) (given : Given) : Stage → Option System
  | .makeDir message =>
    if given.ok then
      some ((sys.onDisk { sys.disk with present := true }).goto thread (.clock message))
    else some (sys.finish thread)
  | .clock message =>
    if given.ok then
      some (sys.goto thread (.write .makeDir
        ⟨given.name, { message with timestamp := given.timestamp }⟩ .send))
    else some (sys.finish thread)
  | .write step file job => some (sys.write thread given file job step)
  | .list view =>
    if given.ok = false then some (sys.finish thread)
    else if sys.disk.present = false then some (sys.goto thread (.display view []))
    else if given.names.Perm sys.disk.names then
      some (sys.goto thread (.read view given.names []))
    else none
  | .read view [] messages => some (sys.goto thread (.display view messages))
  | .read view (name :: left) messages =>
    match sys.fileAt given name with
    | none => some (sys.goto thread (.read view left messages))
    | some file => some (sys.goto thread (.read view left (messages ++ [file.message])))
  -- Nothing is marked when nothing is displayed.
  | .display view messages =>
    if given.sorted.Perm messages ∧ given.sorted.Pairwise (·.timestamp ≤ ·.timestamp) then
      match view.displayed given.sorted with
      | [] => some (sys.finish thread)
      | displayed => some ((sys.onDisk (sys.disk.displayed displayed)).goto thread .stat)
    else none
  | .stat =>
    if given.ok = true ∧ sys.disk.present = true then some (sys.goto thread .markList)
    else some (sys.finish thread)
  -- The directory is listed again.
  | .markList =>
    if given.ok = false ∨ sys.disk.present = false then some (sys.finish thread)
    else if given.names.Perm sys.disk.names then
      some (sys.goto thread (.mark given.names))
    else none
  | .mark [] => some (sys.finish thread)
  | .mark (name :: left) =>
    match sys.fileAt given name with
    | none => some (sys.goto thread (.mark left))
    | some file =>
      if file.message.read then some (sys.goto thread (.mark left))
      else some (sys.goto thread (.write .makeDir
        { file with message := { file.message with read := true } } (.mark left)))
  -- `RemoveAll` lists at most 1024 entries at a time.
  | .clearList =>
    if given.ok = false ∨ sys.disk.present = false then some (sys.finish thread)
    else if given.entries.Perm sys.disk.entries then
      some (sys.goto thread (.clear (given.entries.take 1024)
        (decide (given.entries.length < 1024))))
    else none
  | .clear [] last => some (sys.goto thread (if last then .clearDir else .clearList))
  | .clear (entry :: left) last =>
    if given.ok then
      some ((sys.onDisk (sys.disk.removed entry)).goto thread (.clear left last))
    else some (sys.goto thread (.clear left last))
  | .clearDir =>
    if given.ok = true ∧ sys.disk.entries = [] then
      some ((sys.onDisk { sys.disk with present := false }).finish thread)
    else some (sys.finish thread)

end System

def step (sys : System) : Label → Option System
  | .start call =>
    some { sys with
      next := sys.next + 1
      threads := Function.update sys.threads sys.next (some (call.start sys.next)) }
  | .advance thread given =>
    match sys.threads thread with
    | none => none
    | some stage => sys.advance thread given stage

/-- No inbox yet. -/
def initial : System where
  disk := ⟨false, .empty, [], [], [], [], []⟩
  next := 0
  threads _ := none

/-- A message whose `SendMessage` has returned nil is there or was cleared; one that is read was
displayed unread before; one that was cleared is not there. -/
structure Kept (disk : Disk) : Prop where
  delivered : ∀ id ∈ disk.sent, id ∈ disk.cleared ∨
    ∃ file ∈ disk.files.entries, file.message.id = id
  shownFirst : ∀ file ∈ disk.files.entries, file.message.read = true → file.message.id ∈ disk.shown
  stayCleared : ∀ file ∈ disk.files.entries, file.message.id ∉ disk.cleared

end AiTools.Irc.Inbox
