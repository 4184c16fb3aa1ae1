import Mathlib.Tactic.TypeStar

/-!
Contract: a JSON file that is read as a whole and written in steps.

Owns: what a reader gets, who falls back on a default.

A file whose write is not over, or was broken off, cannot be parsed.
-/

namespace AiTools.Grove

inductive JsonFile (Value : Type*) where
  | missing
  | torn
  | whole (value : Value)

variable {Value : Type*}

/-- `unwrap_or_default` on the text and on what it parses to; a read can fail too. -/
def JsonFile.loadOr (default : Value) (readable : Bool) : JsonFile Value → Value
  | .whole value => if readable then value else default
  | .missing => default
  | .torn => default

/-- Whether a reader gets what the file has. A file that is missing is not read. -/
def JsonFile.readable (ok : Bool) : JsonFile Value → Bool
  | .whole _ => ok
  | .missing => true
  | .torn => false

end AiTools.Grove
