import AiTools.Lib.Json
import Mathlib

/-!
Contract: what Go's `strings`, `strconv` and `unicode` do with texts.
-/

namespace AiTools.Lib.GoText

abbrev Text := List Char

/-- `unicode.IsSpace`. -/
def isSpace (char : Char) : Bool :=
  [0x09, 0x0a, 0x0b, 0x0c, 0x0d, 0x20, 0x85, 0xa0, 0x1680, 0x2028, 0x2029, 0x202f, 0x205f,
    0x3000].contains char.toNat || (0x2000 ≤ char.toNat && char.toNat ≤ 0x200a)

/-- `strings.TrimSpace`. -/
def trimSpace (text : Text) : Text := (text.dropWhile isSpace).rdropWhile isSpace

variable {text : Text} {char : Char}

theorem trimSpace_eq_self (first : ∀ char ∈ text.head?, isSpace char = false)
    (last : ∀ char ∈ text.getLast?, isSpace char = false) : trimSpace text = text := by
  cases text with
  | nil => rfl
  | cons char rest =>
    have notSpace := first char rfl
    have dropped : (char :: rest).dropWhile isSpace = char :: rest :=
      List.dropWhile_cons_of_neg (by rw [notSpace]; exact Bool.false_ne_true)
    rw [trimSpace, dropped, List.rdropWhile_eq_self_iff]
    intro notNil isSpaceLast
    have isLast := last _ (List.getLast?_eq_some_getLast notNil)
    exact Bool.noConfusion (isLast.symm.trans isSpaceLast)

theorem trimSpace_append {spaces : Text} (areSpaces : ∀ char ∈ spaces, isSpace char = true)
    (first : ∀ char ∈ text.head?, isSpace char = false)
    (last : ∀ char ∈ text.getLast?, isSpace char = false) :
    trimSpace (spaces ++ text) = text := by
  have same := trimSpace_eq_self first last
  have dropped : (spaces ++ text).dropWhile isSpace = text.dropWhile isSpace :=
    List.dropWhile_append_of_pos areSpaces
  rwa [trimSpace, dropped, ← trimSpace]

theorem mem_trimSpace (isChar : char ∈ text) (notSpace : isSpace char = false) :
    char ∈ trimSpace text := by
  have kept : ∀ {text : Text}, char ∈ text → char ∈ text.dropWhile isSpace := by
    intro text isChar
    rw [← @List.takeWhile_append_dropWhile _ isSpace text, List.mem_append] at isChar
    rcases isChar with isTaken | isDropped
    · exact Bool.noConfusion (notSpace.symm.trans (List.mem_takeWhile_imp isTaken))
    · exact isDropped
  exact List.mem_reverse.mpr (kept (List.mem_reverse.mpr (kept isChar)))

/-- `strings.ReplaceAll(text, "\r\n", "\n")`. -/
def crlfToLf : Text → Text
  | [] => []
  | '\r' :: '\n' :: rest => '\n' :: crlfToLf rest
  | char :: rest => char :: crlfToLf rest

theorem crlfToLf_eq_self (noCarriageReturn : '\r' ∉ text) : crlfToLf text = text := by
  fun_induction crlfToLf text with
  | case1 => rfl
  | case2 rest ih => exact absurd List.mem_cons_self noCarriageReturn
  | case3 char rest notPair ih =>
    rw [ih fun isLater => noCarriageReturn (List.mem_cons_of_mem _ isLater)]

/-- `strings.Cut` at the first such character. -/
def cut (separator : Char) (text : Text) : Option (Text × Text) :=
  if separator ∈ text then
    some (text.takeWhile (· ≠ separator), (text.dropWhile (· ≠ separator)).tail)
  else none

theorem cut_append {separator : Char} {first : Text} (notFirst : separator ∉ first) (rest : Text) :
    cut separator (first ++ separator :: rest) = some (first, rest) := by
  have isOther : ∀ char ∈ first, decide (char ≠ separator) = true := fun char isChar =>
    decide_eq_true fun same => notFirst (same ▸ isChar)
  rw [cut, if_pos (List.mem_append_right _ List.mem_cons_self),
    List.takeWhile_append_of_pos isOther, List.dropWhile_append_of_pos isOther]
  simp

def natural? (digits : Text) : Option Nat :=
  if digits ≠ [] ∧ digits.all Char.isDigit = true then some (Nat.ofDigitChars 10 digits 0) else none

/-- `strconv.Atoi`. -/
def atoi? : Text → Option Int
  | '-' :: digits => (natural? digits).bind fun number =>
    if number ≤ 2 ^ 63 then some (-number) else none
  | '+' :: digits => (natural? digits).bind fun number =>
    if number < 2 ^ 63 then some (number : Int) else none
  | digits => (natural? digits).bind fun number =>
    if number < 2 ^ 63 then some (number : Int) else none

/-- An integer that an `int` holds. -/
def IsInt (number : Int) : Prop := -2 ^ 63 ≤ number ∧ number < 2 ^ 63

instance (number : Int) : Decidable (IsInt number) := inferInstanceAs (Decidable (_ ∧ _))

/-- `strconv.Itoa`. -/
def itoa : Int → Text
  | .ofNat number => Nat.toDigits 10 number
  | .negSucc number => '-' :: Nat.toDigits 10 (number + 1)

theorem isDigit_of_mem_toDigits {number : Nat} (isChar : char ∈ Nat.toDigits 10 number) :
    char.isDigit = true :=
  Nat.isDigit_of_mem_toDigits (by decide) (by decide) isChar

theorem natural?_toDigits (number : Nat) : natural? (Nat.toDigits 10 number) = some number := by
  have areDigits : (Nat.toDigits 10 number).all Char.isDigit = true :=
    List.all_eq_true.mpr fun _ => isDigit_of_mem_toDigits
  rw [natural?, if_pos ⟨Nat.toDigits_ne_nil, areDigits⟩, Nat.ofDigitChars_ten_toDigits]

theorem atoi?_itoa {number : Int} (isInt : IsInt number) : atoi? (itoa number) = some number := by
  cases number with
  | ofNat number =>
    have isSmall : number < 2 ^ 63 := Int.ofNat_lt.mp isInt.2
    have found := natural?_toDigits number
    rw [itoa]
    unfold atoi?
    split
    · rename_i digits isNegative
      have isDigit : ('-').isDigit = true :=
        isDigit_of_mem_toDigits (isNegative ▸ List.mem_cons_self)
      exact absurd isDigit (by decide)
    · rename_i digits isPositive
      have isDigit : ('+').isDigit = true :=
        isDigit_of_mem_toDigits (isPositive ▸ List.mem_cons_self)
      exact absurd isDigit (by decide)
    · rw [found, Option.bind_some, if_pos isSmall]
      rfl
  | negSucc number =>
    have isSmall : number + 1 ≤ 2 ^ 63 := by
      have := isInt.1
      omega
    show (natural? (Nat.toDigits 10 (number + 1))).bind _ = _
    rw [natural?_toDigits, Option.bind_some, if_pos isSmall]
    rfl

/-- What may follow a backslash as it is. -/
def simpleEscapes : List (Char × Nat) :=
  [('a', 7), ('b', 8), ('f', 12), ('n', 10), ('r', 13), ('t', 9), ('v', 11), ('\\', 0x5c),
    ('"', 0x22)]

def charOf? (number : Nat) : Option Char :=
  if number.isValidChar then some (Char.ofNat number) else none

/-- An escape of so many hexadecimal digits. -/
def hexEscape? (count : Nat) (rest : Text) : Option (Char × Nat) :=
  if rest.length < count then none
  else ((Json.hexNumber? (rest.take count)).bind charOf?).map fun char => (char, count + 1)

def octalEscape? (digits : Text) : Option (Char × Nat) :=
  if digits.length = 3 ∧ (digits.all fun digit => '0' ≤ digit && digit ≤ '7') = true then
    let number := Nat.ofDigitChars 8 digits 0
    if number < 0x80 then some (Char.ofNat number, 3) else none
  else none

/-- The character of an escape, and how many characters after the backslash it has. -/
def escape? : Text → Option (Char × Nat)
  | [] => none
  | char :: rest =>
    if char = 'x' then (hexEscape? 2 rest).filter fun found => found.1.toNat < 0x80
    else if char = 'u' then hexEscape? 4 rest
    else if char = 'U' then hexEscape? 8 rest
    else if '0' ≤ char ∧ char ≤ '7' then octalEscape? ((char :: rest).take 3)
    else (simpleEscapes.lookup char).map fun number => (Char.ofNat number, 1)

/-- Reads on after `skip` characters that belong to an escape, up to the closing quote. -/
def unquoteFrom : Nat → Text → Option (Text × Text)
  | _, [] => none
  | skip + 1, _ :: rest => unquoteFrom skip rest
  | 0, char :: rest =>
    if char = '"' then some ([], rest)
    else if char = '\n' then none
    else if char = '\\' then
      (escape? rest).bind fun escape =>
        (unquoteFrom escape.2 rest).map fun later => (escape.1 :: later.1, later.2)
    else (unquoteFrom 0 rest).map fun later => (char :: later.1, later.2)

/-- `strconv.Unquote` of a text that begins with a double quote. -/
def unquote? : Text → Option Text
  | '"' :: rest => (unquoteFrom 0 rest).bind fun found =>
    if found.2 = [] then some found.1 else none
  | _ => none

theorem unquoteFrom_skip (skipped rest : Text) :
    unquoteFrom skipped.length (skipped ++ rest) = unquoteFrom 0 rest := by
  induction skipped with
  | nil => rfl
  | cons char skipped ih => exact ih

theorem unquoteFrom_quoteChar (char : Char) (rest : Text) :
    unquoteFrom 0 (Json.quoteChar char ++ rest) =
      (unquoteFrom 0 rest).map fun later => (char :: later.1, later.2) := by
  unfold Json.quoteChar
  split_ifs with isQuote isBackslash isControl
  · subst isQuote
    rfl
  · subst isBackslash
    rfl
  · have isChar : charOf? char.toNat = some char := by
      have isValid : char.toNat.isValidChar := char.valid
      rw [charOf?, if_pos isValid, Char.ofNat_toNat]
    have isEscape : escape? (['u', '0', '0', Json.hexDigit (char.toNat / 16),
        Json.hexDigit (char.toNat % 16)] ++ rest) = some (char, 5) := by
      show (((Json.hexNumber? ['0', '0', Json.hexDigit (char.toNat / 16),
        Json.hexDigit (char.toNat % 16)]).bind charOf?).map fun char => (char, 5)) = _
      rw [Json.hexNumber?_control isControl, Option.bind_some, isChar]
      rfl
    have later := unquoteFrom_skip ['u', '0', '0', Json.hexDigit (char.toNat / 16),
      Json.hexDigit (char.toNat % 16)] rest
    rw [List.cons_append, unquoteFrom, if_neg (by decide), if_neg (by decide), if_pos rfl, isEscape]
    show (unquoteFrom 5 _).map _ = _
    exact congrArg (Option.map _) later
  · have notNewline : char ≠ '\n' := fun same => isControl (by rw [same]; decide)
    rw [List.singleton_append, unquoteFrom, if_neg isQuote, if_neg notNewline, if_neg isBackslash]

@[simp] theorem unquote?_quote (text : Text) : unquote? (Json.quote text) = some text := by
  have found : unquoteFrom 0 (text.flatMap Json.quoteChar ++ ['"']) = some (text, []) := by
    induction text with
    | nil => rfl
    | cons char text ih =>
      rw [List.flatMap_cons, List.append_assoc, unquoteFrom_quoteChar, ih]
      rfl
  show (unquoteFrom 0 (text.flatMap Json.quoteChar ++ ['"'])).bind _ = _
  rw [found]
  rfl

end AiTools.Lib.GoText
