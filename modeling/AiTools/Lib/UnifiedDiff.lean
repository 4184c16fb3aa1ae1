import Mathlib.Data.List.Basic
import Mathlib.Data.List.MinMax
import Mathlib.Data.List.TakeWhile
import Mathlib.Tactic.TypeStar

/-!
Contract: the unified diff format for one hunk, and its application to a text as
`git apply` does it.

Owns how the ranges and the lines of a hunk are read, and at which place of the text its
old lines are found.
Does not own patches of several hunks, `--unidiff-zero` and the options on whitespace.
-/

namespace AiTools.Lib.UnifiedDiff

abbrev Text := List Char

def splitLines : Text → List Text
  | [] => []
  | c :: rest =>
    if c = '\n' then [c] :: splitLines rest
    else
      match splitLines rest with
      | [] => [[c]]
      | line :: later => (c :: line) :: later

/-- The line ends in a line break. -/
def Ended (line : Text) : Prop := ∃ body, line = body ++ ['\n']

/-- A line break stands nowhere but at the end of the line. -/
def IsLine (line : Text) : Prop := '\n' ∉ line.dropLast

instance (line : Text) : Decidable (Ended line) :=
  decidable_of_iff (line.getLast? = some '\n') (by
    unfold Ended
    rw [List.getLast?_eq_some_iff])

theorem isLine_of_mem_splitLines {text line : Text} (member : line ∈ splitLines text) :
    line ≠ [] ∧ IsLine line := by
  induction text generalizing line with
  | nil => cases member
  | cons c rest ih =>
    unfold splitLines at member
    split at member
    · rcases List.mem_cons.mp member with rfl | later
      · exact ⟨by simp, by simp [IsLine]⟩
      · exact ih later
    · rename_i notBreak
      split at member
      · rw [List.mem_singleton.mp member]
        exact ⟨by simp, by simp [IsLine]⟩
      · rename_i first later lines
        rw [lines] at ih
        rcases List.mem_cons.mp member with rfl | inLater
        · obtain ⟨notEmpty, isLine⟩ := ih List.mem_cons_self
          refine ⟨by simp, ?_⟩
          unfold IsLine
          rw [List.dropLast_cons_of_ne_nil notEmpty, List.mem_cons]
          rintro (isBreak | inFirst)
          · exact notBreak isBreak.symm
          · exact isLine inFirst
        · exact ih (List.mem_cons_of_mem _ inLater)

theorem flatten_splitLines (text : Text) : (splitLines text).flatten = text := by
  induction text with
  | nil => rfl
  | cons c rest ih =>
    unfold splitLines
    split
    · rw [List.flatten_cons, ih]
      rfl
    · split
      · rename_i isEmpty
        rw [isEmpty] at ih
        rw [← ih]
        rfl
      · rename_i line later lines
        rw [lines, List.flatten_cons] at ih
        rw [List.flatten_cons, List.cons_append, ih]

theorem splitLines_append {body : Text} (oneLine : '\n' ∉ body) (rest : Text) :
    splitLines (body ++ '\n' :: rest) = (body ++ ['\n']) :: splitLines rest := by
  induction body with
  | nil => simp [splitLines]
  | cons c later ih =>
    have notBreak : c ≠ '\n' := fun isBreak => oneLine (by simp [isBreak])
    have oneLineLater : '\n' ∉ later := fun member => oneLine (List.mem_cons_of_mem _ member)
    rw [List.cons_append, splitLines, if_neg notBreak, ih oneLineLater]
    rfl

theorem splitLines_flatten {lines : List Text}
    (ended : ∀ line ∈ lines, Ended line ∧ IsLine line) : splitLines lines.flatten = lines := by
  induction lines with
  | nil => rfl
  | cons line later ih =>
    obtain ⟨⟨body, isBody⟩, isLine⟩ := ended line List.mem_cons_self
    have oneLine : '\n' ∉ body := by
      unfold IsLine at isLine
      rwa [isBody, List.dropLast_concat] at isLine
    have rest := ih fun other member =>
      ended other (List.mem_cons_of_mem _ member)
    rw [List.flatten_cons, isBody, List.append_assoc]
    show splitLines (body ++ '\n' :: later.flatten) = _
    rw [splitLines_append oneLine, rest]

inductive Origin where
  | context
  | add
  | remove
deriving DecidableEq

structure Edit where
  origin : Origin
  content : Text

/-- The lines that stand before the edits. -/
def oldSide (edits : List Edit) : List Text :=
  (edits.filter fun edit => edit.origin ≠ .add).map Edit.content

/-- The lines that stand after the edits. -/
def newSide (edits : List Edit) : List Text :=
  (edits.filter fun edit => edit.origin ≠ .remove).map Edit.content

def Edit.reverse (edit : Edit) : Edit :=
  { edit with
    origin := match edit.origin with
      | .context => .context
      | .add => .remove
      | .remove => .add }

theorem oldSide_reverse (edits : List Edit) : oldSide (edits.map Edit.reverse) = newSide edits := by
  induction edits with
  | nil => rfl
  | cons edit later ih =>
    obtain ⟨origin, content⟩ := edit
    unfold oldSide newSide at ih ⊢
    cases origin <;> simp [Edit.reverse] <;> simpa using ih

theorem newSide_reverse (edits : List Edit) : newSide (edits.map Edit.reverse) = oldSide edits := by
  induction edits with
  | nil => rfl
  | cons edit later ih =>
    obtain ⟨origin, content⟩ := edit
    unfold oldSide newSide at ih ⊢
    cases origin <;> simp [Edit.reverse] <;> simpa using ih

/-! ## Reading a hunk -/

structure Range where
  start : Nat
  count : Nat

structure Hunk where
  old : Range
  new : Range
  edits : List Edit

def readNumber (text : Text) : Option (Nat × Text) :=
  match text.takeWhile Char.isDigit with
  | [] => none
  | digits => some (Nat.ofDigitChars 10 digits 0, text.dropWhile Char.isDigit)

/-- A start, and a count that is 1 when it is left out. -/
def readRange (text : Text) : Option (Range × Text) :=
  match readNumber text with
  | none => none
  | some (start, ',' :: rest) =>
    (readNumber rest).map fun count => (⟨start, count.1⟩, count.2)
  | some (start, rest) => some (⟨start, 1⟩, rest)

/-- What follows the expected text. -/
def expect : Text → Text → Option Text
  | [], text => some text
  | _ :: _, [] => none
  | c :: expected, d :: text => if c = d then expect expected text else none

/-- The two ranges of `@@ -range +range @@`, whatever follows them. -/
def readHeader (line : Text) : Option (Range × Range) := do
  let rest ← expect ['@', '@', ' ', '-'] line
  let (old, rest) ← readRange rest
  let rest ← expect [' ', '+'] rest
  let (new, rest) ← readRange rest
  let _ ← expect [' ', '@', '@'] rest
  return (old, new)

def readOrigin : Char → Option Origin
  | ' ' => some .context
  | '+' => some .add
  | '-' => some .remove
  | _ => none

/-- One line of a hunk before the edits that follow it. A marker takes the line break
from the line before it. -/
def readEdit (unended : Bool) (edits : List Edit) : Text → Option (Bool × List Edit)
  | [] => none
  | mark :: content =>
    if mark = '\\' then if unended then none else some (true, edits)
    else
      (readOrigin mark).map fun origin =>
        (false, ⟨origin, if unended then content.dropLast else content⟩ :: edits)

/-- The edits of a hunk's lines, and whether a marker stands before the first. -/
def readEdits : List Text → Option (Bool × List Edit)
  | [] => some (false, [])
  | line :: rest => (readEdits rest).bind fun read => readEdit read.1 read.2 line

def readHunk (text : Text) : Option Hunk :=
  match splitLines text with
  | [] => none
  | header :: lines =>
    match readHeader header, readEdits lines with
    | some (old, new), some (false, edits) =>
      if (oldSide edits).length = old.count ∧ (newSide edits).length = new.count ∧
          ∃ edit ∈ edits, edit.origin ≠ .context then
        some ⟨old, new, edits⟩
      else none
    | _, _ => none

def Origin.mark : Origin → Char
  | .context => ' '
  | .add => '+'
  | .remove => '-'

/-- The line of a hunk that stands for the edit. -/
def Edit.line (edit : Edit) : Text := edit.origin.mark :: edit.content

theorem readEdits_lines (edits : List Edit) :
    readEdits (edits.map Edit.line) = some (false, edits) := by
  induction edits with
  | nil => rfl
  | cons edit later ih =>
    obtain ⟨origin, content⟩ := edit
    rw [List.map_cons, readEdits, ih, Option.bind_some]
    cases origin <;> rfl

/-- A hunk is read back from its header and its lines, when these end in line
breaks. -/
theorem readHunk_lines {header : Text} {old new : Range} {edits : List Edit}
    (headerLine : Ended header ∧ IsLine header) (headerRead : readHeader header = some (old, new))
    (lines : ∀ edit ∈ edits, Ended edit.line ∧ IsLine edit.line)
    (oldCount : (oldSide edits).length = old.count)
    (newCount : (newSide edits).length = new.count)
    (changes : ∃ edit ∈ edits, edit.origin ≠ .context) :
    readHunk (header ++ (edits.map Edit.line).flatten) = some ⟨old, new, edits⟩ := by
  have split : splitLines (header ++ (edits.map Edit.line).flatten) =
      header :: edits.map Edit.line := by
    show splitLines (header :: edits.map Edit.line).flatten = _
    apply splitLines_flatten
    intro line member
    rcases List.mem_cons.mp member with rfl | inEdits
    · exact headerLine
    · obtain ⟨edit, isEdit, rfl⟩ := List.mem_map.mp inEdits
      exact lines edit isEdit
  unfold readHunk
  rw [split]
  dsimp only
  rw [headerRead, readEdits_lines]
  dsimp only
  rw [if_pos ⟨oldCount, newCount, changes⟩]

theorem readNumber_toDigits (n : Nat) {c : Char} (notDigit : c.isDigit = false) (rest : Text) :
    readNumber (Nat.toDigits 10 n ++ c :: rest) = some (n, c :: rest) := by
  have allDigits : ∀ digit ∈ Nat.toDigits 10 n, digit.isDigit = true := fun digit member =>
    Nat.isDigit_of_mem_toDigits (by decide) (by decide) member
  have taken : (Nat.toDigits 10 n ++ c :: rest).takeWhile Char.isDigit = Nat.toDigits 10 n := by
    rw [List.takeWhile_append_of_pos allDigits, List.takeWhile_cons_of_neg (by simp [notDigit]),
      List.append_nil]
  have dropped : (Nat.toDigits 10 n ++ c :: rest).dropWhile Char.isDigit = c :: rest := by
    rw [List.dropWhile_append_of_pos allDigits, List.dropWhile_cons_of_neg (by simp [notDigit])]
  unfold readNumber
  rw [taken, dropped]
  split
  · rename_i noDigits
    exact absurd noDigits Nat.toDigits_ne_nil
  · rw [Nat.ofDigitChars_ten_toDigits]

/-- A range with its count written out. -/
def Range.full (range : Range) : Text :=
  Nat.toDigits 10 range.start ++ ',' :: Nat.toDigits 10 range.count

/-- A range whose count is left out when it is 1. -/
def Range.short (range : Range) : Text :=
  if range.count = 1 then Nat.toDigits 10 range.start else range.full

theorem readRange_full (range : Range) (rest : Text) :
    readRange (range.full ++ ' ' :: rest) = some (range, ' ' :: rest) := by
  have count := readNumber_toDigits range.count (c := ' ') (by decide) rest
  unfold readRange Range.full
  rw [List.append_assoc, List.cons_append, readNumber_toDigits _ (by decide)]
  show (readNumber _).map _ = _
  rw [count]
  rfl

theorem readRange_short (range : Range) (rest : Text) :
    readRange (range.short ++ ' ' :: rest) = some (range, ' ' :: rest) := by
  obtain ⟨start, count⟩ := range
  unfold Range.short
  split
  · rename_i single
    have isOne : count = 1 := single
    rw [isOne]
    unfold readRange
    rw [readNumber_toDigits _ (by decide)]
    rfl
  · exact readRange_full _ rest

theorem expect_append (expected rest : Text) : expect expected (expected ++ rest) = some rest := by
  induction expected with
  | nil => rfl
  | cons c later ih =>
    rw [List.cons_append, expect, if_pos rfl, ih]

/-- The header line of a hunk, with its ranges as written. -/
def headerLine (old new tail : Text) : Text :=
  ['@', '@', ' ', '-'] ++ (old ++ ([' ', '+'] ++ (new ++ ([' ', '@', '@'] ++ tail))))

theorem readHeader_headerLine {old new : Range} {oldText newText : Text}
    (oldRead : ∀ rest, readRange (oldText ++ ' ' :: rest) = some (old, ' ' :: rest))
    (newRead : ∀ rest, readRange (newText ++ ' ' :: rest) = some (new, ' ' :: rest))
    (tail : Text) : readHeader (headerLine oldText newText tail) = some (old, new) := by
  simp [readHeader, headerLine, expect, oldRead, newRead]

theorem Range.full_oneLine (range : Range) : '\n' ∉ range.full := by
  unfold Range.full
  intro member
  rcases List.mem_append.mp member with inStart | inRest
  · exact absurd (Nat.isDigit_of_mem_toDigits (by decide) (by decide) inStart) (by decide)
  · rcases List.mem_cons.mp inRest with isComma | inCount
    · exact absurd isComma (by decide)
    · exact absurd (Nat.isDigit_of_mem_toDigits (by decide) (by decide) inCount) (by decide)

theorem Range.short_oneLine (range : Range) : '\n' ∉ range.short := by
  unfold Range.short
  split
  · intro member
    exact absurd (Nat.isDigit_of_mem_toDigits (by decide) (by decide) member) (by decide)
  · exact range.full_oneLine

theorem headerLine_oneLine {old new tail : Text} (oldOneLine : '\n' ∉ old)
    (newOneLine : '\n' ∉ new) (tailOneLine : '\n' ∉ tail) : '\n' ∉ headerLine old new tail := by
  simp [headerLine, oldOneLine, newOneLine, tailOneLine]

theorem headerLine_append (old new tail rest : Text) :
    headerLine old new tail ++ rest = headerLine old new (tail ++ rest) := by
  simp [headerLine]

theorem line_of_oneLine {text : Text} (oneLine : '\n' ∉ text) :
    Ended (text ++ ['\n']) ∧ IsLine (text ++ ['\n']) := by
  refine ⟨⟨text, rfl⟩, ?_⟩
  unfold IsLine
  rwa [List.dropLast_concat]

/-! ## The place of a hunk -/

/-- The lines that a hunk replaces. -/
structure Search where
  /-- The lines before the place that is tried first. -/
  near : Nat
  sought : List Text
  atStart : Bool
  atEnd : Bool

/-- The lines stand there, and where they have to. -/
def Search.Fits (search : Search) (text : List Text) (place : Nat) : Prop :=
  place + search.sought.length ≤ text.length ∧
    (text.drop place).take search.sought.length = search.sought ∧
    (search.atStart = true → place = 0) ∧
    (search.atEnd = true → place + search.sought.length = text.length)

instance (search : Search) (text : List Text) (place : Nat) :
    Decidable (search.Fits text place) :=
  inferInstanceAs (Decidable (_ ∧ _))

/-- When the place is tried: after the near one, one behind it and one before it in turn. -/
def Search.turn (near place : Nat) : Nat :=
  if near < place then 2 * (place - near) - 1 else 2 * (near - place)

/-- The first place at which the lines fit. -/
def Search.find (search : Search) (text : List Text) : Option Nat :=
  ((List.range (text.length + 1)).filter fun place => search.Fits text place).argmin
    (turn search.near)

/-- The nearest place, of two the one behind. -/
def Search.Nearest (search : Search) (text : List Text) (place : Nat) : Prop :=
  search.Fits text place ∧
    ∀ other, search.Fits text other → turn search.near place ≤ turn search.near other

theorem Search.find_eq_some {search : Search} {text : List Text} {place : Nat} :
    search.find text = some place ↔ search.Nearest text place := by
  have tried : ∀ place, place ∈ ((List.range (text.length + 1)).filter fun place =>
      search.Fits text place) ↔ search.Fits text place := by
    intro place
    rw [List.mem_filter, List.mem_range, decide_eq_true_eq, and_iff_right_iff_imp]
    intro fits
    have inside := fits.1
    omega
  unfold Search.find Search.Nearest
  rw [List.argmin_eq_some_iff, tried]
  constructor
  · rintro ⟨fits, first, _⟩
    exact ⟨fits, fun other isOther => first other ((tried other).mpr isOther)⟩
  · rintro ⟨fits, first⟩
    refine ⟨fits, fun other isOther => first other ((tried other).mp isOther), ?_⟩
    intro other isOther sameTurn
    -- Two places have different turns.
    have same : other = place := by
      have least := first other ((tried other).mp isOther)
      unfold Search.turn at least sameTurn
      by_cases placeBehind : search.near < place <;> by_cases otherBehind : search.near < other <;>
        simp only [placeBehind, otherBehind, if_true, if_false] at least sameTurn <;> omega
    rw [same]

/-- A range that starts at the first line has to match at the start of the text, and a hunk
without a line behind its last change at the end. -/
def Hunk.search (hunk : Hunk) : Search where
  near := hunk.new.start - 1
  sought := oldSide hunk.edits
  atStart := hunk.old.start ≤ 1
  atEnd := hunk.edits.getLast?.map Edit.origin ≠ some .context

def applyHunk (hunk : Hunk) (text : Text) : Option Text :=
  let lines := splitLines text
  (hunk.search.find lines).map fun place =>
    (lines.take place ++ newSide hunk.edits ++
      lines.drop (place + (oldSide hunk.edits).length)).flatten

def Hunk.reverse (hunk : Hunk) : Hunk where
  old := hunk.new
  new := hunk.old
  edits := hunk.edits.map Edit.reverse

theorem applyHunk_eq_some {hunk : Hunk} {text result : Text} : applyHunk hunk text = some result ↔
      ∃ front back, hunk.search.Nearest (splitLines text) front.length ∧
        splitLines text = front ++ oldSide hunk.edits ++ back ∧
        result = (front ++ newSide hunk.edits ++ back).flatten := by
  unfold applyHunk
  dsimp only
  rw [Option.map_eq_some_iff]
  constructor
  · rintro ⟨place, found, isResult⟩
    have nearest := Search.find_eq_some.mp found
    have inside : place + (oldSide hunk.edits).length ≤ (splitLines text).length := nearest.1.1
    have same : ((splitLines text).drop place).take (oldSide hunk.edits).length =
      oldSide hunk.edits := nearest.1.2.1
    refine ⟨(splitLines text).take place,
      (splitLines text).drop (place + (oldSide hunk.edits).length), ?_, ?_, isResult.symm⟩
    · rwa [List.length_take, Nat.min_eq_left (by omega)]
    · calc splitLines text
          = (splitLines text).take place ++ (splitLines text).drop place :=
            (List.take_append_drop _ _).symm
        _ = (splitLines text).take place ++
              (((splitLines text).drop place).take (oldSide hunk.edits).length ++
                ((splitLines text).drop place).drop (oldSide hunk.edits).length) := by
            rw [List.take_append_drop (oldSide hunk.edits).length]
        _ = _ := by rw [same, List.drop_drop, List.append_assoc]
  · rintro ⟨front, back, nearest, lines, isResult⟩
    refine ⟨front.length, Search.find_eq_some.mpr nearest, ?_⟩
    rw [lines, isResult]
    simp [List.append_assoc]

end AiTools.Lib.UnifiedDiff
