import AiTools.Daemon.ModeState.Sequences
import AiTools.Daemon.ModeState.FoldSafe
import Mathlib

/-!
Contract: the splits that a scan reports for its chunk.
-/

namespace AiTools.Daemon.ModeState

def IsAltMode (param : UInt32) : Prop := param = 1049 ∨ param = 47 ∨ param = 1047

/-- `CSI ? … h` with one of the modes of the alternate screen. -/
def EntersAlt (sequence : Bytes) : Prop :=
  ∃ controls params, Executes controls ∧ (∃ param ∈ splitParams params, IsAltMode param) ∧
    sequence = escByte :: (controls ++ 0x5b :: 0x3f :: params) ++ [0x68]

section
variable (offset : Nat → Nat) (base : Nat)

/-- The sequence of a snapshot ends behind `base`. -/
def IsSnapshot (seen : Bytes) (place : Nat) : Prop :=
  ∃ front sequence rest, seen = front ++ sequence ++ rest ∧ place = offset front.length ∧
    EntersAlt sequence ∧ base < (front ++ sequence).length

structure Walk.Reports (walk : Walk) : Prop where
  sound : walk.Sound
  opened : walk.Opened
  isBehind : base ≤ walk.seen.length
  places : ∀ split ∈ walk.out, split.1 ≤ offset walk.pendingStart
  ordered : walk.out.Pairwise fun earlier later => earlier.1 ≤ later.1
  snapshots : ∀ split ∈ walk.out, split.2 = .snapshotPrimary →
    IsSnapshot offset base walk.seen split.1

end

section
variable {offset : Nat → Nat} {base : Nat}
variable {place : Nat} {walk : Walk} {code : UInt8} {added : List (Nat × Split)}

theorem IsSnapshot.read {seen : Bytes} (isSnapshot : IsSnapshot offset base seen place)
    (code : UInt8) : IsSnapshot offset base (seen ++ [code]) place := by
  obtain ⟨front, sequence, rest, rfl, isPlace, entersAlt, isBehind⟩ := isSnapshot
  exact ⟨front, sequence, rest ++ [code], List.append_assoc _ _ _, isPlace, entersAlt, isBehind⟩

theorem Walk.Moves.pendingStart_le (sound : walk.Sound)
    (moves : walk.Moves offset code (walk.step offset code) added) :
    walk.pendingStart ≤ (walk.step offset code).pendingStart := by
  unfold Walk.pendingStart
  split_ifs with wasGround isGround isGround
  · simp [Walk.step]
  · have start := moves.seqStart isGround
    unfold Walk.pendingStart at start
    rwa [if_pos wasGround] at start
  · have inside := sound.inside wasGround
    simp only [Walk.step, List.length_append]
    omega
  · have start := moves.seqStart isGround
    unfold Walk.pendingStart at start
    rwa [if_neg wasGround] at start

end

end AiTools.Daemon.ModeState
