import AiTools.Lib.Utf8
import Mathlib.Data.List.Infix
import Mathlib.Tactic.SplitIfs

/-!
Contract: what is left of an input once terminal control is taken out of it.

Owns:
- the escape sequences as a grammar, and that every input is text and sequences, with at most
  one that is unfinished at its end;
- that exactly the text outside of them is kept, less its control characters.
-/

namespace AiTools.Pipemd.Sanitize

open Lib
open List (cons_append append_assoc)

abbrev Bytes := List UInt8

/-- A byte that ends a control sequence. -/
def isFinal (byte : UInt8) : Bool := 0x40 ≤ byte && byte ≤ 0x7e

/-- What follows the control sequence that `ESC [` has begun. -/
def afterControl : Bytes → Bytes
  | [] => []
  | byte :: rest => if isFinal byte then rest else afterControl rest

/-- What follows the command that `ESC ]` has begun: `BEL` or `ESC \` ends it. -/
def afterCommand : Bytes → Bytes
  | [] => []
  | byte :: rest =>
    if byte = 0x07 then rest
    else if byte = 0x1b ∧ rest.head? = some 0x5c then rest.tail
    else afterCommand rest

theorem afterControl_length (input : Bytes) : (afterControl input).length ≤ input.length := by
  fun_induction afterControl input <;> simp only [List.length_cons, List.length_nil] <;> omega

theorem afterCommand_length (input : Bytes) : (afterCommand input).length ≤ input.length := by
  fun_induction afterCommand input <;>
    simp only [List.length_cons, List.length_nil, List.length_tail] <;> omega

def stripEscapeSequences : Bytes → Bytes
  | [] => []
  | byte :: rest =>
    if byte ≠ 0x1b then byte :: stripEscapeSequences rest
    else
      match rest with
      | [] => []
      | next :: later =>
        if next = 0x5b then stripEscapeSequences (afterControl later)
        else if next = 0x5d then stripEscapeSequences (afterCommand later)
        else stripEscapeSequences later
termination_by input => input.length
decreasing_by
  · simp
  · exact Nat.lt_succ_of_le (Nat.le_succ_of_le (afterControl_length later))
  · exact Nat.lt_succ_of_le (Nat.le_succ_of_le (afterCommand_length later))
  · exact Nat.lt_succ_of_lt (Nat.lt_succ_self _)

/-- `unicode.IsControl`. -/
def isControl (char : Char) : Bool :=
  char.toNat < 0x20 || (0x7f ≤ char.toNat && char.toNat < 0xa0)

def isKept (char : Char) : Bool := char = '\n' || char = '\t' || !isControl char

/-- Bytes that are no UTF-8 come out of the mapping as replacement characters. -/
def stripControlRunes (input : Bytes) : Bytes := Utf8.encode ((Utf8.chars input).filter isKept)

def sanitizeTerminalInput (input : Bytes) : Bytes :=
  stripControlRunes (stripEscapeSequences input)

/-! ## The grammar -/

/-- What stands between the opening of a command and its end. -/
structure IsBody (body : Bytes) : Prop where
  noBell : 0x07 ∉ body
  noTerminator : ¬ [0x1b, 0x5c] <:+: body

inductive Sequence : Bytes → Prop where
  | control (body : Bytes) (final : UInt8) (noFinal : ∀ byte ∈ body, isFinal byte = false)
      (ends : isFinal final = true) : Sequence (0x1b :: 0x5b :: (body ++ [final]))
  | command (body terminator : Bytes) (isBody : IsBody body)
      (ends : terminator = [0x07] ∨ terminator = [0x1b, 0x5c]) :
      Sequence (0x1b :: 0x5d :: (body ++ terminator))
  | single (byte : UInt8) (notControl : byte ≠ 0x5b) (notCommand : byte ≠ 0x5d) :
      Sequence [0x1b, byte]

/-- A sequence that the input ends within, or nothing. -/
inductive Unfinished : Bytes → Prop where
  | nothing : Unfinished []
  | escape : Unfinished [0x1b]
  | control (body : Bytes) (noFinal : ∀ byte ∈ body, isFinal byte = false) :
      Unfinished (0x1b :: 0x5b :: body)
  | command (body : Bytes) (isBody : IsBody body) : Unfinished (0x1b :: 0x5d :: body)

inductive Piece where
  | text (byte : UInt8) (isText : byte ≠ 0x1b)
  | sequence (bytes : Bytes) (isSequence : Sequence bytes)

namespace Piece

def bytes : Piece → Bytes
  | text byte _ => [byte]
  | sequence bytes _ => bytes

def kept : Piece → Bytes
  | text byte _ => [byte]
  | sequence _ _ => []

end Piece

/-- The input is the pieces and a tail that it ends within. -/
structure IsCut (input : Bytes) (pieces : List Piece) (tail : Bytes) : Prop where
  isUnfinished : Unfinished tail
  isInput : input = pieces.flatMap Piece.bytes ++ tail

/-! ## Stripping -/

section

variable {body rest input : Bytes} {byte : UInt8}

@[simp] theorem strip_nil : stripEscapeSequences [] = [] := by
  rw [stripEscapeSequences]

@[simp] theorem strip_text (isText : byte ≠ 0x1b) :
    stripEscapeSequences (byte :: rest) = byte :: stripEscapeSequences rest := by
  cases rest <;> simp [stripEscapeSequences, isText]

@[simp] theorem strip_escape : stripEscapeSequences [0x1b] = [] := by
  simp [stripEscapeSequences]

@[simp] theorem strip_control :
    stripEscapeSequences (0x1b :: 0x5b :: rest) = stripEscapeSequences (afterControl rest) := by
  simp [stripEscapeSequences]

@[simp] theorem strip_command :
    stripEscapeSequences (0x1b :: 0x5d :: rest) = stripEscapeSequences (afterCommand rest) := by
  simp [stripEscapeSequences]

theorem strip_single (notControl : byte ≠ 0x5b) (notCommand : byte ≠ 0x5d) :
    stripEscapeSequences (0x1b :: byte :: rest) = stripEscapeSequences rest := by
  simp [stripEscapeSequences, notControl, notCommand]

theorem afterControl_body (noFinal : ∀ byte ∈ body, isFinal byte = false) :
    afterControl (body ++ rest) = afterControl rest := by
  induction body with
  | nil => rfl
  | cons byte body ih =>
    rw [cons_append, afterControl, if_neg (by simp [noFinal])]
    exact ih fun later isLater => noFinal later (List.mem_cons_of_mem _ isLater)

theorem IsBody.of_cons (isBody : IsBody (byte :: body)) : IsBody body where
  noBell := fun isBell => isBody.noBell (List.mem_cons_of_mem _ isBell)
  noTerminator := fun isThere => isBody.noTerminator (isThere.trans (List.suffix_cons _ _).isInfix)

theorem IsBody.not_terminator (isBody : IsBody (byte :: body))
    (startsOther : rest.head? ≠ some 0x5c) :
    ¬ (byte = 0x1b ∧ (body ++ rest).head? = some 0x5c) := by
  rintro ⟨rfl, isNext⟩
  cases body with
  | nil => exact startsOther isNext
  | cons next body =>
    cases isNext
    exact isBody.noTerminator ⟨[], body, rfl⟩

theorem afterCommand_body (isBody : IsBody body) (startsOther : rest.head? ≠ some 0x5c) :
    afterCommand (body ++ rest) = afterCommand rest := by
  induction body with
  | nil => rfl
  | cons byte body ih =>
    have notBell : byte ≠ 0x07 := fun isBell => isBody.noBell (by simp [isBell])
    rw [cons_append, afterCommand, if_neg notBell, if_neg (isBody.not_terminator startsOther)]
    exact ih isBody.of_cons

theorem strip_sequence {bytes : Bytes} (isSequence : Sequence bytes) :
    stripEscapeSequences (bytes ++ rest) = stripEscapeSequences rest := by
  cases isSequence with
  | control body final noFinal ends =>
    simp only [cons_append, append_assoc, List.nil_append, strip_control,
      afterControl_body noFinal]
    rw [afterControl, if_pos ends]
  | command body terminator isBody ends =>
    have startsOther : (terminator ++ rest).head? ≠ some 0x5c := by
      rcases ends with rfl | rfl <;> simp
    rw [cons_append, cons_append, strip_command, append_assoc,
      afterCommand_body isBody startsOther]
    rcases ends with rfl | rfl <;> simp [afterCommand]
  | single byte notControl notCommand => exact strip_single notControl notCommand

theorem strip_unfinished {tail : Bytes} (isUnfinished : Unfinished tail) :
    stripEscapeSequences tail = [] := by
  cases isUnfinished with
  | nothing => simp
  | escape => simp
  | control body noFinal =>
    have dropped := @afterControl_body body [] noFinal
    rw [List.append_nil] at dropped
    simp [dropped, afterControl]
  | command body isBody =>
    have dropped := @afterCommand_body body [] isBody (by simp)
    rw [List.append_nil] at dropped
    simp [dropped, afterCommand]

theorem strip_pieces (pieces : List Piece) {tail : Bytes} (isUnfinished : Unfinished tail) :
    stripEscapeSequences (pieces.flatMap Piece.bytes ++ tail) = pieces.flatMap Piece.kept := by
  induction pieces with
  | nil => exact strip_unfinished isUnfinished
  | cons piece pieces ih =>
    rw [List.flatMap_cons, List.flatMap_cons, append_assoc, ← ih]
    cases piece with
    | text byte isText => exact strip_text isText
    | sequence bytes isSequence => exact strip_sequence isSequence

end

/-! ## Every input is pieces -/

theorem exists_control (input : Bytes) :
    (∀ byte ∈ input, isFinal byte = false) ∨
      ∃ body final, (∀ byte ∈ body, isFinal byte = false) ∧ isFinal final = true ∧
        input = body ++ final :: afterControl input := by
  fun_induction afterControl input with
  | case1 => simp
  | case2 byte rest ends => exact .inr ⟨[], byte, by simp, ends, rfl⟩
  | case3 byte rest notFinal ih =>
    rcases ih with noFinal | ⟨body, final, noFinal, ends, split⟩
    · left
      simpa [notFinal] using noFinal
    · right
      refine ⟨byte :: body, final, by simpa [notFinal] using noFinal, ends, ?_⟩
      rw [cons_append, ← split]

theorem IsBody.cons {body : Bytes} {byte : UInt8} (isBody : IsBody body) (notBell : byte ≠ 0x07)
    (notTerminator : ¬ (byte = 0x1b ∧ body.head? = some 0x5c)) : IsBody (byte :: body) where
  noBell := by simp [isBody.noBell, notBell.symm]
  noTerminator := by
    rw [List.infix_cons_iff, not_or]
    refine ⟨?_, isBody.noTerminator⟩
    rintro ⟨rest, isStart⟩
    obtain ⟨rfl, rfl⟩ := List.cons.inj isStart
    exact notTerminator ⟨rfl, rfl⟩

theorem exists_command (input : Bytes) :
    IsBody input ∨
      ∃ body terminator, IsBody body ∧ (terminator = [0x07] ∨ terminator = [0x1b, 0x5c]) ∧
        input = body ++ terminator ++ afterCommand input := by
  have isEmpty : IsBody [] := ⟨by simp, by simp⟩
  fun_induction afterCommand input with
  | case1 => exact .inl isEmpty
  | case2 rest => exact .inr ⟨[], [0x07], isEmpty, .inl rfl, rfl⟩
  | case3 byte rest notBell isTerminator =>
    obtain ⟨rfl, isNext⟩ := isTerminator
    obtain ⟨later, rfl⟩ := List.head?_eq_some_iff.mp isNext
    exact .inr ⟨[], [0x1b, 0x5c], isEmpty, .inr rfl, rfl⟩
  | case4 byte rest notBell notTerminator ih =>
    rcases ih with isBody | ⟨body, terminator, isBody, ends, split⟩
    · exact .inl (isBody.cons notBell notTerminator)
    · right
      refine ⟨byte :: body, terminator, isBody.cons notBell fun both => ?_, ends, ?_⟩
      · apply notTerminator
        refine ⟨both.1, ?_⟩
        rw [split, append_assoc, List.head?_append, both.2]
        rfl
      · rw [cons_append, cons_append, ← split]

/-- One piece before those of the rest. -/
theorem IsCut.cons {pieces : List Piece} {input rest tail : Bytes} (isCut : IsCut rest pieces tail)
    (piece : Piece) (isInput : input = piece.bytes ++ rest) :
    ∃ pieces tail, IsCut input pieces tail :=
  ⟨piece :: pieces, tail, isCut.isUnfinished, by simp [isInput, isCut.isInput]⟩

theorem exists_cut (input : Bytes) : ∃ pieces tail, IsCut input pieces tail := by
  fun_induction stripEscapeSequences input with
  | case1 => exact ⟨[], [], .nothing, rfl⟩
  | case2 byte rest isText ih =>
    obtain ⟨_, _, isCut⟩ := ih
    exact isCut.cons (.text byte isText) rfl
  | case3 byte isEscape =>
    obtain rfl := not_not.mp isEscape
    exact ⟨[], [0x1b], .escape, rfl⟩
  | case4 byte isEscape later ih =>
    obtain rfl := not_not.mp isEscape
    rcases exists_control later with noFinal | ⟨body, final, noFinal, ends, split⟩
    · exact ⟨[], _, .control later noFinal, rfl⟩
    · obtain ⟨_, _, isCut⟩ := ih
      apply isCut.cons (.sequence _ (.control body final noFinal ends))
      simpa [Piece.bytes] using split
  | case5 byte isEscape later notControl ih =>
    obtain rfl := not_not.mp isEscape
    rcases exists_command later with isBody | ⟨body, terminator, isBody, ends, split⟩
    · exact ⟨[], _, .command later isBody, rfl⟩
    · obtain ⟨_, _, isCut⟩ := ih
      apply isCut.cons (.sequence _ (.command body terminator isBody ends))
      simpa [Piece.bytes] using split
  | case6 byte isEscape next later notControl notCommand ih =>
    obtain rfl := not_not.mp isEscape
    obtain ⟨_, _, isCut⟩ := ih
    exact isCut.cons (.sequence _ (.single next notControl notCommand)) rfl

/-! ## What is left -/

theorem notEscape_of_isKept {char : Char} (kept : isKept char = true) : char.toNat ≠ 0x1b := by
  intro isEscape
  obtain rfl : char = '\x1b' := Char.toNat_inj.mp isEscape
  exact absurd kept (by decide)

theorem strip_encode {chars : List Char} (noEscape : ∀ char ∈ chars, char.toNat ≠ 0x1b) :
    stripEscapeSequences (Utf8.encode chars) = Utf8.encode chars := by
  have areText : ∀ byte ∈ Utf8.encode chars, byte ≠ 0x1b := by
    intro byte isByte isEscape
    obtain ⟨char, isChar, isByte⟩ := List.mem_flatMap.mp isByte
    subst isEscape
    exact noEscape char isChar (Utf8.mem_encodeChar_ascii (by decide) isByte)
  generalize Utf8.encode chars = bytes at areText
  induction bytes with
  | nil => exact strip_nil
  | cons byte bytes ih =>
    rw [strip_text (areText byte (by simp))]
    apply congrArg (byte :: ·)
    exact ih fun later isLater => areText later (List.mem_cons_of_mem _ isLater)

theorem sanitize_encode {chars : List Char} (areKept : ∀ char ∈ chars, isKept char = true) :
    sanitizeTerminalInput (Utf8.encode chars) = Utf8.encode chars := by
  have noEscape : ∀ char ∈ chars, char.toNat ≠ 0x1b :=
    fun char isChar => notEscape_of_isKept (areKept char isChar)
  rw [sanitizeTerminalInput, strip_encode noEscape, stripControlRunes, Utf8.chars_encode,
    List.filter_eq_self.mpr areKept]

/-- Every input is pieces, and however it is cut: what is left is the characters of its
text that are no control characters. Nothing more goes when it is sanitized again. -/
theorem sanitizeTerminalInput_spec (input : Bytes) :
    (∃ pieces tail, IsCut input pieces tail) ∧
      (∀ pieces tail, IsCut input pieces tail →
        sanitizeTerminalInput input =
          Utf8.encode ((Utf8.chars (pieces.flatMap Piece.kept)).filter isKept)) ∧
      sanitizeTerminalInput (sanitizeTerminalInput input) = sanitizeTerminalInput input := by
  refine ⟨exists_cut input, fun pieces tail isCut => ?_, ?_⟩
  · rw [isCut.isInput, sanitizeTerminalInput, strip_pieces pieces isCut.isUnfinished,
      stripControlRunes]
  · exact sanitize_encode fun char isChar => (List.mem_filter.mp isChar).2

end AiTools.Pipemd.Sanitize
