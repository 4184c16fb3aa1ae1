import AiTools.Daemon.Session.Output
import Mathlib

/-!
Contract: what is pushed to the pending output of a session against what its takes hand out.
-/

namespace AiTools.Daemon.Session.PendingOutput

open AiTools.Daemon.History

/-- A record that is no output. -/
inductive Control where
  | resize (cols rows : UInt16)
  | clear

def Control.record : Control → HistoryRecord
  | .resize cols rows => .resize cols rows
  | .clear => .clear

inductive Event where
  | byte (byte : UInt8)
  | control (control : Control)

def eventsOf : HistoryRecord → List Event
  | .output bytes => bytes.map .byte
  | .resize cols rows => [.control (.resize cols rows)]
  | .clear => [.control .clear]

def flatten (records : List HistoryRecord) : List Event := records.flatMap eventsOf

inductive Op where
  | pushOutput (data : List UInt8)
  | pushRecord (control : Control)
  | take

/-- What an operation pushes. -/
def Op.events : Op → List Event
  | .pushOutput data => data.map .byte
  | .pushRecord control => [.control control]
  | .take => []

/-- What it counts toward the cap. -/
def Op.weight : Op → Nat
  | .pushOutput data => data.length
  | .pushRecord _ => 8
  | .take => 0

/-- `since` holds the pushes after the last take, and `takes` every take with the pushes that it
covers. -/
structure Run where
  pending : PendingOutput
  since : List Op
  takes : List (List Op × PendingTake)

def Run.initial : Run := ⟨empty, [], []⟩

def Run.step (run : Run) : Op → Run
  | .pushOutput data =>
    { run with
      pending := run.pending.pushOutput data
      since := run.since ++ [.pushOutput data] }
  | .pushRecord control =>
    { run with
      pending := run.pending.pushRecord control.record
      since := run.since ++ [.pushRecord control] }
  | .take => ⟨run.pending.take.2, [], run.takes ++ [(run.since, run.pending.take.1)]⟩

def Run.of (ops : List Op) : Run := ops.foldl Run.step .initial

/-- The records are what was pushed, or the loss of some of it is reported. -/
structure Accounts (pushes : List Op) (records : List HistoryRecord) (overflowed : Bool) :
    Prop where
  faithful : overflowed = false → flatten records = pushes.flatMap Op.events
  flagged : overflowed = true → records = [] ∧ pushes.flatMap Op.events ≠ []

structure Run.Faithful (run : Run) (ops : List Op) : Prop where
  pushed : run.takes.flatMap (fun taken => taken.1.flatMap Op.events) ++
    run.since.flatMap Op.events = ops.flatMap Op.events
  takes : ∀ taken ∈ run.takes, Accounts taken.1 taken.2.records taken.2.overflowed
  pending : Accounts run.since run.pending.records run.pending.overflowed
  bytes : run.pending.bytes = if run.pending.overflowed then 0 else (run.since.map Op.weight).sum

/-! ## The operations keep it -/

theorem eventsOf_record (control : Control) : eventsOf control.record = [.control control] := by
  cases control <;> rfl

theorem flatten_append (records later : List HistoryRecord) :
    flatten (records ++ later) = flatten records ++ flatten later := List.flatMap_append

theorem flatten_singleton (record : HistoryRecord) : flatten [record] = eventsOf record :=
  List.flatMap_singleton _ _

theorem flatten_coalesce (records : List HistoryRecord) (data : List UInt8) :
    flatten (coalesce records data) = flatten records ++ data.map .byte := by
  have appended : flatten (records ++ [.output data]) = flatten records ++ data.map .byte := by
    rw [flatten_append, flatten_singleton]
    rfl
  unfold coalesce
  split
  · rename_i last isLast
    split_ifs
    · have split : records = records.dropLast ++ [.output last] := by
        rw [List.dropLast_append_getLast? _ isLast]
      conv_rhs => rw [split]
      rw [flatten_append, flatten_append, flatten_singleton, flatten_singleton, eventsOf, eventsOf,
        List.map_append, List.append_assoc]
    · exact appended
  · exact appended

variable {pushes ops : List Op} {records : List HistoryRecord} {run : Run}

theorem events_ne_nil (isHeavy : 0 < (pushes.map Op.weight).sum) :
    pushes.flatMap Op.events ≠ [] := by
  intro isEmpty
  have weightless : ∀ weight ∈ pushes.map Op.weight, weight = 0 := by
    intro weight isWeight
    obtain ⟨push, isPush, rfl⟩ := List.mem_map.mp isWeight
    have noEvents := List.flatMap_eq_nil_iff.mp isEmpty push isPush
    cases push with
    | pushOutput data =>
      rw [Op.events, List.map_eq_nil_iff] at noEvents
      rw [noEvents]
      rfl
    | pushRecord control => cases noEvents
    | take => rfl
  rw [List.sum_eq_zero weightless] at isHeavy
  exact absurd isHeavy (Nat.lt_irrefl 0)

theorem flatMap_concat {α β : Type} (events : α → List β) (pushes : List α) (push : α) :
    (pushes ++ [push]).flatMap events = pushes.flatMap events ++ events push := by
  rw [List.flatMap_append, List.flatMap_singleton]

theorem weight_concat (pushes : List Op) (push : Op) :
    ((pushes ++ [push]).map Op.weight).sum = (pushes.map Op.weight).sum + push.weight := by
  rw [List.map_append, List.sum_append, List.map_singleton, List.sum_singleton]

theorem Accounts.lost (accounts : Accounts pushes records true) (push : Op) :
    Accounts (pushes ++ [push]) records true where
  faithful := nofun
  flagged := by
    intro _
    obtain ⟨noRecords, someEvents⟩ := accounts.flagged rfl
    rw [flatMap_concat]
    exact ⟨noRecords, List.append_ne_nil_of_left_ne_nil someEvents _⟩

theorem Run.Faithful.push {run : Run} {ops : List Op} (faithful : run.Faithful ops) (push : Op)
    {pending : PendingOutput}
    (accounts : Accounts (run.since ++ [push]) pending.records pending.overflowed)
    (bytes : pending.bytes =
      if pending.overflowed then 0 else ((run.since ++ [push]).map Op.weight).sum) :
    Run.Faithful ⟨pending, run.since ++ [push], run.takes⟩ (ops ++ [push]) where
  pushed := by
    rw [flatMap_concat, flatMap_concat, ← List.append_assoc, faithful.pushed]
  takes := faithful.takes
  pending := accounts
  bytes := bytes

theorem pushOutput_cases (pending : PendingOutput) (data : List UInt8) :
    pending.overflowed = true ∧ pending.pushOutput data = pending ∨ pending.overflowed = false ∧
        (pendingOutputMaxBytes < pending.bytes + data.length ∧
            pending.pushOutput data = ⟨[], 0, true⟩ ∨
          pending.pushOutput data =
            ⟨coalesce pending.records data, pending.bytes + data.length, false⟩) := by
  unfold PendingOutput.pushOutput
  split_ifs with isLost isOver
  · exact .inl ⟨isLost, rfl⟩
  · exact .inr ⟨Bool.eq_false_of_not_eq_true isLost, .inl ⟨isOver, rfl⟩⟩
  · exact .inr ⟨Bool.eq_false_of_not_eq_true isLost, .inr rfl⟩

theorem pushRecord_cases (pending : PendingOutput) (record : HistoryRecord) :
    pending.overflowed = true ∧ pending.pushRecord record = pending ∨ pending.overflowed = false ∧
        pending.pushRecord record = ⟨pending.records ++ [record], pending.bytes + 8, false⟩ := by
  unfold PendingOutput.pushRecord
  split_ifs with isLost
  · exact .inl ⟨isLost, rfl⟩
  · exact .inr ⟨Bool.eq_false_of_not_eq_true isLost, rfl⟩

theorem Run.Faithful.ignored (faithful : run.Faithful ops) (isLost : run.pending.overflowed = true)
    (push : Op) :
    Run.Faithful ⟨run.pending, run.since ++ [push], run.takes⟩ (ops ++ [push]) := by
  have accounts := faithful.pending
  have counted := faithful.bytes
  rw [isLost] at accounts counted
  refine faithful.push push ?_ ?_
  · rw [isLost]
    exact accounts.lost push
  · rw [isLost]
    exact counted

theorem Run.Faithful.added (faithful : run.Faithful ops) (notLost : run.pending.overflowed = false)
    (push : Op) (isAdded : flatten records = flatten run.pending.records ++ push.events) :
    Run.Faithful ⟨⟨records, run.pending.bytes + push.weight, false⟩, run.since ++ [push],
      run.takes⟩ (ops ++ [push]) := by
  have counted := faithful.bytes
  rw [notLost] at counted
  refine faithful.push push ⟨fun _ => ?_, nofun⟩ ?_
  · rw [isAdded, faithful.pending.faithful notLost, flatMap_concat]
  · dsimp only
    rw [weight_concat, counted]
    rfl

theorem Run.Faithful.pushOutput (faithful : run.Faithful ops) (data : List UInt8) :
    (run.step (.pushOutput data)).Faithful (ops ++ [.pushOutput data]) := by
  unfold Run.step
  dsimp only
  rcases pushOutput_cases run.pending data with
    ⟨isLost, same⟩ | ⟨notLost, ⟨isOver, dropped⟩ | added⟩
  · rw [same]
    exact faithful.ignored isLost _
  · have counted := faithful.bytes
    rw [notLost] at counted
    rw [dropped]
    refine faithful.push _ ⟨nofun, fun _ => ⟨rfl, ?_⟩⟩ rfl
    refine events_ne_nil ?_
    rw [weight_concat]
    rw [counted] at isOver
    exact Nat.lt_of_le_of_lt (Nat.zero_le _) isOver
  · rw [added]
    exact faithful.added notLost (.pushOutput data) (flatten_coalesce _ _)

theorem Run.Faithful.pushRecord (faithful : run.Faithful ops) (control : Control) :
    (run.step (.pushRecord control)).Faithful (ops ++ [.pushRecord control]) := by
  unfold Run.step
  dsimp only
  rcases pushRecord_cases run.pending control.record with ⟨isLost, same⟩ | ⟨notLost, added⟩
  · rw [same]
    exact faithful.ignored isLost _
  · rw [added]
    refine faithful.added notLost (.pushRecord control) ?_
    rw [flatten_append, flatten_singleton, eventsOf_record]
    rfl

theorem Run.Faithful.take (faithful : run.Faithful ops) :
    (run.step .take).Faithful (ops ++ [.take]) where
  pushed := by
    unfold Run.step
    dsimp only
    rw [flatMap_concat, flatMap_concat, List.flatMap_nil, List.append_nil, faithful.pushed]
    exact (List.append_nil _).symm
  takes := by
    intro taken isTaken
    rcases List.mem_append.mp isTaken with isEarlier | isLast
    · exact faithful.takes taken isEarlier
    · rw [List.mem_singleton.mp isLast]
      exact faithful.pending
  pending := ⟨fun _ => rfl, nofun⟩
  bytes := rfl

theorem Run.Faithful.step (faithful : run.Faithful ops) (op : Op) :
    (run.step op).Faithful (ops ++ [op]) := by
  cases op with
  | pushOutput data => exact faithful.pushOutput data
  | pushRecord control => exact faithful.pushRecord control
  | take => exact faithful.take

theorem initial_faithful : Run.initial.Faithful [] where
  pushed := rfl
  takes := nofun
  pending := ⟨fun _ => rfl, nofun⟩
  bytes := rfl

theorem pendingOutput_faithful (ops : List Op) : (Run.of ops).Faithful ops := by
  induction ops using List.reverseRecOn with
  | nil => exact initial_faithful
  | append_singleton ops op ih =>
    unfold Run.of
    rw [List.foldl_concat]
    exact ih.step op

end AiTools.Daemon.Session.PendingOutput
