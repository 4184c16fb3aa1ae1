import Mathlib.Data.UInt

/-!
Contract: what the history reads from the terminal emulator.

Owns: `DaemonSnapshot` and `DaemonEmulator`, the operations of the emulator that
wraps the vt100 screen, as a parameter of the modules above.
-/

namespace AiTools.Daemon

structure DaemonSnapshot where
  scrollbackAnsi : List UInt8
  rehydrateSequences : List UInt8
  snapshotAnsi : List UInt8
  pendingEscapeTail : List UInt8
  cols : UInt16
  rows : UInt16
  isAlternateScreen : Bool
  kittyKeyboardFlags : UInt32
  cwd : Option String
  title : Option String
  outputSequence : UInt64

/-- An emulator over screens of type `σ`. -/
structure DaemonEmulator (σ : Type*) where
  new (rows cols : UInt16) : σ
  process (screen : σ) (chunk : List UInt8) : σ
  resize (screen : σ) (cols rows : UInt16) : σ
  snapshot (screen : σ) (outputSequence : UInt64) : DaemonSnapshot

/-- A screen that shows nothing. -/
def blankEmulator : DaemonEmulator Unit where
  new _ _ := ()
  process _ _ := ()
  resize _ _ _ := ()
  snapshot _ sequence := ⟨[], [], [], [], 80, 24, false, 0, none, none, sequence⟩

end AiTools.Daemon
