import AiTools.Lib.Transition
import Mathlib

/-!
Contract: the queue of writes to a PTY, and the one thread that writes them.

The PTY takes as much of a write as it likes before it fails, and the clock goes on by any
amount. A write may still be under way when the handle is dropped.
-/

namespace AiTools.Daemon.PtyWriter

open AiTools.Lib.Transition

abbrev Bytes := List UInt8

def maxWriteQueueBytes : Nat := 1024 * 1024

def writeTimeoutMsg : String :=
  "terminal input write timed out; the terminal may be unresponsive"

def writerClosedMsg : String := "terminal input writer is shutting down"

/-- What `write` returns. -/
inductive WriteResult where
  | ok
  | err (message : String)
deriving DecidableEq

/-- The completion slot is named by the call that waits on it. -/
structure QueuedWrite where
  id : UInt64
  bytes : Bytes
  completion : Nat

structure WriterInner where
  queue : List QueuedWrite
  queuedBytes : Nat
  nextId : UInt64
  closed : Bool

/-- Where a call of `write` is: at the loop that admits its job, at the loop that waits for the
result, or past its deadline with the slot given back. -/
inductive Stage where
  | enqueuing (data : Bytes) (deadlineAt : Nat)
  | waiting (data : Bytes) (deadlineAt : Nat) (jobId : UInt64)
  | dropping (data : Bytes) (jobId : UInt64)

def Stage.data : Stage → Bytes
  | .enqueuing data _ => data
  | .waiting data _ _ => data
  | .dropping data _ => data

/-- The id of the job that the call has queued. -/
def Stage.jobId : Stage → Option UInt64
  | .enqueuing _ _ => none
  | .waiting _ _ jobId => some jobId
  | .dropping _ jobId => some jobId

/-- Where the writer thread is. `taken` is what the PTY has taken of the job. -/
inductive WriterThread where
  | idle
  | writing (job : QueuedWrite) (taken : Nat)
  | storing (completion : Nat) (result : WriteResult)
  | failed
  | exited

def WriterThread.job : WriterThread → List QueuedWrite
  | .writing job _ => [job]
  | _ => []

/-- A job whose `write_all` has ended. -/
structure Written where
  job : QueuedWrite
  taken : Nat
  result : WriteResult

structure Outcome where
  call : Nat
  data : Bytes
  result : WriteResult

/-- `admitted`, `written`, `removed` and `outcomes` are history. -/
structure System where
  inner : WriterInner
  writer : WriterThread := .idle
  slots : Nat → Option WriteResult := fun _ => none
  calls : Nat → Option Stage := fun _ => none
  started : Nat := 0
  now : Nat := 0
  deadline : Nat
  output : Bytes := []
  admitted : List QueuedWrite := []
  written : List Written := []
  removed : List QueuedWrite := []
  outcomes : List Outcome := []

def initial (deadline : Nat) : System where
  inner := ⟨[], 0, 0, false⟩
  deadline := deadline

inductive Label where
  | write (data : Bytes)
  | enqueue (call : Nat)
  | waitTimedOut (call : Nat)
  | poll (call : Nat)
  | dropQueuedJob (call : Nat)
  | dequeue
  | take (count : Nat)
  | finish (result : WriteResult)
  | store
  | checkClosed
  | close
  | tick (duration : Nat)

/-! ## The steps -/

def System.goto (sys : System) (call : Nat) (stage : Option Stage) : System :=
  { sys with calls := Function.update sys.calls call stage }

/-- The call returns. -/
def System.give (sys : System) (call : Nat) (data : Bytes) (result : WriteResult) : System :=
  { sys.goto call none with outcomes := sys.outcomes ++ [⟨call, data, result⟩] }

def System.fits (sys : System) (data : Bytes) : Bool :=
  sys.inner.queuedBytes = 0 ||
    sys.inner.queuedBytes + data.length ≤ maxWriteQueueBytes

/-- The job gets the next id and goes to the end of the queue. -/
def System.pushBack (sys : System) (call : Nat) (data : Bytes) (deadlineAt : Nat) : System :=
  let job : QueuedWrite := ⟨sys.inner.nextId, data, call⟩
  { sys.goto call (some (.waiting data deadlineAt sys.inner.nextId)) with
    inner := { sys.inner with
      queue := sys.inner.queue ++ [job]
      queuedBytes := sys.inner.queuedBytes + data.length
      nextId := sys.inner.nextId + 1 }
    admitted := sys.admitted ++ [job] }

/-- One round of the loop that admits the job. -/
def System.enqueue (sys : System) (call : Nat) (data : Bytes) (deadlineAt : Nat) : System :=
  if sys.inner.closed then sys.give call data (.err writerClosedMsg)
  else if sys.fits data then sys.pushBack call data deadlineAt
  else if deadlineAt ≤ sys.now then sys.give call data (.err writeTimeoutMsg)
  else sys

/-- One round of the loop that waits for the result, which is taken out of its slot. -/
def System.poll (sys : System) (call : Nat) (data : Bytes) (deadlineAt : Nat)
    (jobId : UInt64) : System :=
  match sys.slots call with
  | some result =>
    { sys.give call data result with slots := Function.update sys.slots call none }
  | none =>
    if deadlineAt ≤ sys.now then sys.goto call (some (.dropping data jobId)) else sys

/-- The first job with the id is taken out of the queue, if there is one. -/
def System.dropQueuedJob (sys : System) (jobId : UInt64) (len : Nat) : System :=
  match sys.inner.queue.find? (fun job => job.id = jobId) with
  | some job =>
    { sys with
      inner := { sys.inner with
        queue := sys.inner.queue.eraseP fun job => job.id = jobId
        queuedBytes := sys.inner.queuedBytes - len }
      removed := sys.removed ++ [job] }
  | none => sys

/-- The writer thread takes the first job, or ends when there is none and the queue is closed. -/
def System.dequeue (sys : System) : Option System :=
  match sys.inner.queue with
  | job :: queue =>
    some { sys with
      inner := { sys.inner with
        queue := queue
        queuedBytes := sys.inner.queuedBytes - job.bytes.length }
      writer := .writing job 0 }
  | [] => if sys.inner.closed then some { sys with writer := .exited } else none

def step (sys : System) : Label → Option System
  | .write data =>
    if data.isEmpty then
      some { sys with
        started := sys.started + 1
        outcomes := sys.outcomes ++ [⟨sys.started, data, .ok⟩] }
    else
      some { sys.goto sys.started
          (some (.enqueuing data (sys.now + sys.deadline))) with
        started := sys.started + 1 }
  | .enqueue call =>
    match sys.calls call with
    | some (.enqueuing data deadlineAt) => some (sys.enqueue call data deadlineAt)
    | _ => none
  | .waitTimedOut call =>
    match sys.calls call with
    | some (.enqueuing data deadlineAt) =>
      if deadlineAt ≤ sys.now then some (sys.give call data (.err writeTimeoutMsg))
      else none
    | _ => none
  | .poll call =>
    match sys.calls call with
    | some (.waiting data deadlineAt jobId) => some (sys.poll call data deadlineAt jobId)
    | _ => none
  | .dropQueuedJob call =>
    match sys.calls call with
    | some (.dropping data jobId) =>
      some ((sys.dropQueuedJob jobId data.length).give call data
        (.err writeTimeoutMsg))
    | _ => none
  | .dequeue =>
    match sys.writer with
    | .idle => sys.dequeue
    | _ => none
  | .take count =>
    match sys.writer with
    | .writing job taken =>
      if taken + count ≤ job.bytes.length then
        some { sys with
          writer := .writing job (taken + count)
          output := sys.output ++ (job.bytes.drop taken).take count }
      else none
    | _ => none
  | .finish result =>
    match sys.writer with
    | .writing job taken =>
      -- `write_all` is done only when the PTY has taken all bytes, and may fail at any time.
      if result = .ok ∧ taken < job.bytes.length then none
      else
        some { sys with
          writer := .storing job.completion result
          written := sys.written ++ [⟨job, taken, result⟩] }
    | _ => none
  | .store =>
    match sys.writer with
    | .storing completion result =>
      some { sys with
        slots := Function.update sys.slots completion (some result)
        writer := if result = .ok then .idle else .failed }
    | _ => none
  | .checkClosed =>
    match sys.writer with
    | .failed =>
      some { sys with writer := if sys.inner.closed then .exited else .idle }
    | _ => none
  | .close => some { sys with inner := { sys.inner with closed := true } }
  | .tick duration => some { sys with now := sys.now + duration }

/-- The jobs that the writer thread has had, has, and will have. -/
def System.line (sys : System) : List QueuedWrite :=
  sys.written.map Written.job ++ sys.writer.job ++ sys.inner.queue

/-- What the PTY has got of the jobs. -/
def Written.piece (written : Written) : Bytes := written.job.bytes.take written.taken

def WriterThread.piece : WriterThread → Bytes
  | .writing job taken => job.bytes.take taken
  | _ => []

def queued (queue : List QueuedWrite) : Nat :=
  (queue.map fun job => job.bytes.length).sum

structure Intact (sys : System) : Prop where
  counted : sys.inner.queuedBytes = queued sys.inner.queue
  limited : sys.inner.queuedBytes ≤ maxWriteQueueBytes ∨ ∃ job, sys.inner.queue = [job]
  /-- The PTY gets the jobs one behind the other, in the order of their admission. -/
  ordered : sys.line.Sublist sys.admitted
  output : sys.output = sys.written.flatMap Written.piece ++ sys.writer.piece
  /-- A job that was written without an error is there as a whole. -/
  whole : ∀ written ∈ sys.written, written.result = .ok → written.piece = written.job.bytes
  dropped : ∀ job ∈ sys.removed, job ∉ sys.line
  done : ∀ outcome ∈ sys.outcomes, outcome.result = .ok → outcome.data = [] ∨
    ∃ written ∈ sys.written, written.job.completion = outcome.call ∧
      written.job.bytes = outcome.data ∧ written.result = .ok

def Label.call : Label → Option Nat
  | .enqueue call => some call
  | .waitTimedOut call => some call
  | .poll call => some call
  | .dropQueuedJob call => some call
  | _ => none

/-- Time passes, and a call that has not returned gets its turn again and again: its waits end at
its deadline. -/
structure Schedule (states : Nat → System) (labels : Nat → Label) : Prop where
  ran : ∀ index, step (states index) (labels index) = some (states (index + 1))
  passes : ∀ time, ∃ index, time ≤ (states index).now
  turn : ∀ call index, (states index).calls call ≠ none →
    ∃ later, index ≤ later ∧ (labels later).call = some call

/-- Once the queue is closed, every call that has not returned gets a result. -/
def Answered (sys : System) : Prop :=
  sys.inner.closed = true → ∀ states labels, states 0 = sys → Schedule states labels →
    ∀ call, sys.calls call ≠ none →
      ∃ later, ∃ outcome ∈ (states later).outcomes, outcome.call = call

/-- The id of a new job is not the one of a call that has not returned, which takes as many writes
during one call as the counter has values. -/
def Clean (sys : System) : Label → Prop
  | .enqueue _ => ∀ other stage, sys.calls other = some stage →
      stage.jobId ≠ some sys.inner.nextId
  | _ => True

end AiTools.Daemon.PtyWriter
