import AiTools.Lib.Utf16
import AiTools.Lib.Utf8

/-!
Contract: what the terminal sends for a paste (`terminal-bracketed-paste.ts`).

Owns:
- the newlines, the sanitising of escapes and the frame of a paste, over texts of UTF-16 code
  units with or without lone surrogates;
- the paste that is left to xterm while an IME composition is live;
- `TextEncoder`.

Does not own: the queue that the bytes go through (`InputQueue`).
-/

namespace AiTools.Terminal.BracketedPaste

open AiTools.Lib

abbrev Text := List UInt16

def ESCAPE : UInt16 := 0x1b

/-- `ESC[200~`. -/
def bracketedPasteStart : Text := [ESCAPE, 0x5b, 0x32, 0x30, 0x30, 0x7e]

/-- `ESC[201~`. -/
def bracketedPasteEnd : Text := [ESCAPE, 0x5b, 0x32, 0x30, 0x31, 0x7e]

/-- `/\r?\n/g` becomes a bare CR. -/
def normalizePasteNewlines : Text → Text
  | [] => []
  | 0x0d :: 0x0a :: rest => 0x0d :: normalizePasteNewlines rest
  | unit :: rest => (if unit = 0x0a then 0x0d else unit) :: normalizePasteNewlines rest

/-- The symbol for an escape, U+241B. -/
def escapeSymbol : UInt16 := 0x241b

/-- The loop from `start` on: the text up to the next escape, its symbol, and so on. -/
def sanitizeFrom : Text → Text
  | [] => []
  | unit :: rest =>
    if unit = ESCAPE then escapeSymbol :: sanitizeFrom rest else unit :: sanitizeFrom rest

def sanitizeBracketedPasteText (text : Text) : Text :=
  if ESCAPE ∈ text then sanitizeFrom text else text

def buildPasteOutput (clipboardText : Text) (bracketedPasteMode : Bool) : Text :=
  let normalized := normalizePasteNewlines clipboardText
  if bracketedPasteMode then
    bracketedPasteStart ++ sanitizeBracketedPasteText normalized ++ bracketedPasteEnd
  else normalized

/-- What xterm's own paste sends: the same newlines and frame, and every escape of the text. -/
def unsanitizedPaste (clipboardText : Text) : Text :=
  bracketedPasteStart ++ normalizePasteNewlines clipboardText ++ bracketedPasteEnd

/-- The listener of `installBracketedPasteSanitizer`, in the bracketed-paste mode: it leaves the
paste to xterm while an IME composition is live. -/
def pasteOutput (clipboardText : Text) (isComposing : Bool) : Text :=
  if isComposing then unsanitizedPaste clipboardText else buildPasteOutput clipboardText true

/-- `new TextEncoder().encode`. -/
def textEncode (text : Text) : List UInt8 := Utf8.encode (Utf16.chars text)

theorem escape_notMem_sanitizeFrom (text : Text) : ESCAPE ∉ sanitizeFrom text := by
  induction text with
  | nil => exact List.not_mem_nil
  | cons unit rest ih =>
    rw [sanitizeFrom]
    split_ifs with isEscape
    · exact List.not_mem_cons_of_ne_of_not_mem (by decide) ih
    · exact List.not_mem_cons_of_ne_of_not_mem (Ne.symm isEscape) ih

theorem escape_notMem_sanitize (text : Text) : ESCAPE ∉ sanitizeBracketedPasteText text := by
  unfold sanitizeBracketedPasteText
  split_ifs with hasEscape
  · exact escape_notMem_sanitizeFrom text
  · exact hasEscape

end AiTools.Terminal.BracketedPaste
