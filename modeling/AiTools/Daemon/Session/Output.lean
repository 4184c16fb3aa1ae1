import AiTools.Daemon.History.Reader

/-!
Contract: the two copies of a session's output, the raw ring and the pending
records of the history.
-/

namespace AiTools.Daemon.Session

open AiTools.Daemon.History

def pendingOutputMaxBytes : Nat := 2 * 1024 * 1024
def pendingSegmentCap : Nat := 64 * 1024

structure Ring where
  buf : List UInt8
  truncated : Bool

def appendScrollbackCapped (ring : Ring) (chunk : List UInt8) (limit : Nat) : Ring :=
  if limit = 0 ∨ chunk = [] then ring
  else
    let scrollback := ring.buf ++ chunk
    if limit < scrollback.length then
      ⟨scrollback.drop (scrollback.length - limit), true⟩
    else ⟨scrollback, ring.truncated⟩

/-- The newest `limit` bytes. -/
def newest (limit : Nat) (output : List UInt8) : List UInt8 :=
  output.drop (output.length - limit)

@[simp] theorem newest_nil (limit : Nat) : newest limit [] = [] := by simp [newest]

theorem newest_append (limit : Nat) (output chunk : List UInt8) :
    newest limit (newest limit output ++ chunk) = newest limit (output ++ chunk) := by
  unfold newest
  rw [← List.drop_append_of_le_length (Nat.sub_le _ _), List.drop_drop]
  congr 1
  simp only [List.length_append, List.length_drop]
  omega

variable {limit : Nat}

theorem appendScrollbackCapped_newest {ring : Ring} {output : List UInt8}
    (capped : ring.buf = newest limit output) (chunk : List UInt8) :
    (appendScrollbackCapped ring chunk limit).buf = newest limit (output ++ chunk) := by
  rw [← newest_append, ← capped]
  unfold appendScrollbackCapped newest
  split_ifs with inert
  · rcases inert with zero | empty
    · subst zero
      rw [capped]
      simp [newest]
    · subst empty
      rw [List.append_nil, capped]
      simp [newest]
      omega
  · dsimp only
    split_ifs with overflow
    · rfl
    · rw [show (ring.buf ++ chunk).length - limit = 0 by omega, List.drop_zero]

structure PendingOutput where
  records : List HistoryRecord
  bytes : Nat
  overflowed : Bool

structure PendingTake where
  records : List HistoryRecord
  overflowed : Bool

namespace PendingOutput

def empty : PendingOutput := ⟨[], 0, false⟩

/-- The records with data added: into a short trailing `Output` record, else as
a record of its own. -/
def coalesce (records : List HistoryRecord) (data : List UInt8) : List HistoryRecord :=
  match records.getLast? with
  | some (.output last) =>
    if last.length < pendingSegmentCap then records.dropLast ++ [.output (last ++ data)]
    else records ++ [.output data]
  | _ => records ++ [.output data]

def pushOutput (pending : PendingOutput) (data : List UInt8) : PendingOutput :=
  if pending.overflowed then pending
  else if pendingOutputMaxBytes < pending.bytes + data.length then ⟨[], 0, true⟩
  else ⟨coalesce pending.records data, pending.bytes + data.length, false⟩

def pushRecord (pending : PendingOutput) (record : HistoryRecord) : PendingOutput :=
  if pending.overflowed then pending
  else ⟨pending.records ++ [record], pending.bytes + 8, false⟩

def take (pending : PendingOutput) : PendingTake × PendingOutput :=
  (⟨pending.records, pending.overflowed⟩, empty)

theorem replay_coalesce (base : List UInt8) (records : List HistoryRecord) (data : List UInt8) :
    replay base (coalesce records data) = replay base records ++ data := by
  have appended : replay base (records ++ [.output data]) = replay base records ++ data := by
    rw [replay_append]
    rfl
  unfold coalesce
  cases last : records.getLast? with
  | none => exact appended
  | some record =>
    cases record with
    | resize cols rows => exact appended
    | clear => exact appended
    | output bytes =>
      dsimp only
      split_ifs
      · have split : records = records.dropLast ++ [.output bytes] := by
          rw [List.dropLast_append_getLast?]
          exact last
        rw [replay_append]
        conv_rhs => rw [split, replay_append]
        simp [replayRecord]
      · exact appended

variable {pending : PendingOutput}

theorem pushOutput_replay {data : List UInt8} (fits : (pending.pushOutput data).overflowed = false)
    (base : List UInt8) :
    pending.overflowed = false ∧
      replay base (pending.pushOutput data).records = replay base pending.records ++ data := by
  unfold pushOutput at fits ⊢
  split_ifs at fits ⊢ with already
  · rw [already] at fits
    cases fits
  · exact ⟨by simpa using already, replay_coalesce base pending.records data⟩

theorem pushRecord_replay {record : HistoryRecord}
    (fits : (pending.pushRecord record).overflowed = false) (base : List UInt8) :
    pending.overflowed = false ∧ replay base (pending.pushRecord record).records =
        replayRecord (replay base pending.records) record := by
  unfold pushRecord at fits ⊢
  split_ifs at fits ⊢ with already
  · rw [already] at fits
    cases fits
  · refine ⟨by simpa using already, ?_⟩
    rw [replay_append]
    rfl

end PendingOutput

/-- `shown` is the output, or a tail of it that is at least as long as the ring:
only bytes that the cap had dropped are missing. -/
def Covers (limit : Nat) (shown output : List UInt8) : Prop :=
  shown <:+ output ∧ (shown = output ∨ limit ≤ shown.length)

theorem covers_refl (limit : Nat) (output : List UInt8) : Covers limit output output :=
  ⟨List.suffix_refl _, .inl rfl⟩

theorem covers_newest (limit : Nat) (output : List UInt8) :
    Covers limit (newest limit output) output := by
  refine ⟨List.drop_suffix _ _, ?_⟩
  by_cases long : limit ≤ output.length
  · right
    unfold newest
    rw [List.length_drop]
    omega
  · left
    unfold newest
    rw [show output.length - limit = 0 by omega, List.drop_zero]

theorem Covers.append {shown output : List UInt8} (covers : Covers limit shown output)
    (chunk : List UInt8) : Covers limit (shown ++ chunk) (output ++ chunk) := by
  obtain ⟨⟨dropped, split⟩, complete | long⟩ := covers
  · exact ⟨⟨dropped, by rw [← split, List.append_assoc]⟩, .inl (by rw [complete])⟩
  · exact ⟨⟨dropped, by rw [← split, List.append_assoc]⟩,
      Or.inr (by rw [List.length_append]; omega)⟩

end AiTools.Daemon.Session
