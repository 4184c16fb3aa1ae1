import AiTools.Lib.Utf16

/-!
Contract: JSON texts.
-/

namespace AiTools.Lib.Json

open List (append_assoc append_nil cons_append forall_mem_cons length_append length_cons
  singleton_append)
open Option (bind_eq_some_iff map_eq_some_iff)
open Nat (max_le zero_le)

abbrev Text := List Char

/-- A fact about the characters of a text is tested on these, not on all characters. -/
instance (priority := 2000) decidableForallChar (holds : Char → Prop) [DecidablePred holds]
    (text : Text) : Decidable (∀ char ∈ text, holds char) := List.decidableBAll holds text

inductive Value where
  | null
  | bool (value : Bool)
  | number (literal : Text)
  | string (text : Text)
  | array (elements : List Value)
  | object (members : List (Text × Value))

def hexDigit (value : Nat) : Char := Char.ofNat (if value < 10 then 48 + value else 87 + value)

def hexValue? (digit : Char) : Option Nat :=
  if '0' ≤ digit ∧ digit ≤ '9' then some (digit.toNat - 48)
  else if 'a' ≤ digit ∧ digit ≤ 'f' then some (digit.toNat - 87)
  else if 'A' ≤ digit ∧ digit ≤ 'F' then some (digit.toNat - 55)
  else none

/-- The number that the hexadecimal digits are. -/
def hexNumber? (digits : Text) : Option Nat :=
  digits.foldlM (fun number digit => (hexValue? digit).map fun value => 16 * number + value) 0

def quoteChar (char : Char) : Text :=
  if char = '"' then ['\\', '"']
  else if char = '\\' then ['\\', '\\']
  else if char.toNat < 0x20 then
    ['\\', 'u', '0', '0', hexDigit (char.toNat / 16), hexDigit (char.toNat % 16)]
  else [char]

def quote (text : Text) : Text := '"' :: text.flatMap quoteChar ++ ['"']

/-- What may follow a backslash, other than `u`. -/
def simpleEscapes : List (Char × Nat) :=
  [('"', 0x22), ('\\', 0x5c), ('/', 0x2f), ('b', 8), ('f', 12), ('n', 10), ('r', 13), ('t', 9)]

/-- The unit of an escape, and how many characters after the backslash it has. -/
def escape? : Text → Option (UInt16 × Nat)
  | [] => none
  | 'u' :: rest =>
    if rest.length < 4 then none
    else (hexNumber? (rest.take 4)).map fun number => (UInt16.ofNat number, 5)
  | char :: _ => (simpleEscapes.lookup char).map fun unit => (UInt16.ofNat unit, 1)

/-- Reads on after `skip` characters that belong to an escape, up to the closing quote. -/
def unitsFrom : Nat → Text → Option (List UInt16 × Text)
  | _, [] => none
  | skip + 1, _ :: rest => unitsFrom skip rest
  | 0, char :: rest =>
    if char = '"' then some ([], rest)
    else if char.toNat < 0x20 then none
    else if char = '\\' then
      (escape? rest).bind fun escape =>
        (unitsFrom escape.2 rest).map fun later => (escape.1 :: later.1, later.2)
    else (unitsFrom 0 rest).map fun later => (Utf16.encodeChar char ++ later.1, later.2)

/-- A string after its opening quote; a surrogate that is in no pair is replaced. -/
def string? (text : Text) : Option (Text × Text) :=
  (unitsFrom 0 text).map fun found => (Utf16.chars found.1, found.2)

theorem unitsFrom_skip (skipped rest : Text) :
    unitsFrom skipped.length (skipped ++ rest) = unitsFrom 0 rest := by
  induction skipped with
  | nil => rfl
  | cons char skipped ih => exact ih

theorem hexValue?_hexDigit : ∀ value < 16, hexValue? (hexDigit value) = some value := by decide

theorem hexNumber?_control {number : Nat} (isControl : number < 0x20) :
    hexNumber? ['0', '0', hexDigit (number / 16), hexDigit (number % 16)] = some number := by
  have zero : hexValue? '0' = some 0 := by decide
  simp only [hexNumber?, List.foldlM_cons, List.foldlM_nil, zero,
    hexValue?_hexDigit (number / 16) (by omega), hexValue?_hexDigit (number % 16) (by omega)]
  show some (16 * (16 * (16 * (16 * 0 + 0) + 0) + number / 16) + number % 16) = some number
  rw [show 16 * (16 * (16 * (16 * 0 + 0) + 0) + number / 16) + number % 16 = number by omega]

theorem unitsFrom_quoteChar (char : Char) (rest : Text) : unitsFrom 0 (quoteChar char ++ rest) =
      (unitsFrom 0 rest).map fun later => (Utf16.encodeChar char ++ later.1, later.2) := by
  unfold quoteChar
  split_ifs with isQuote isBackslash isControl
  · subst isQuote
    rfl
  · subst isBackslash
    rfl
  · have isEscape : escape? (['u', '0', '0', hexDigit (char.toNat / 16),
        hexDigit (char.toNat % 16)] ++ rest) = some (UInt16.ofNat char.toNat, 5) := by
      show (hexNumber? ['0', '0', hexDigit (char.toNat / 16), hexDigit (char.toNat % 16)]).map
        (fun number => (UInt16.ofNat number, 5)) = _
      rw [hexNumber?_control isControl]
      rfl
    have isUnit : Utf16.encodeChar char = [UInt16.ofNat char.toNat] :=
      if_pos (Nat.lt_trans isControl (by decide))
    have later := unitsFrom_skip ['u', '0', '0', hexDigit (char.toNat / 16),
      hexDigit (char.toNat % 16)] rest
    rw [cons_append, unitsFrom, if_neg (by decide), if_neg (by decide), if_pos rfl, isEscape,
      isUnit]
    show (unitsFrom 5 _).map _ = _
    exact congrArg (Option.map _) later
  · rw [singleton_append, unitsFrom, if_neg isQuote, if_neg isControl, if_neg isBackslash]

theorem quote_append (text rest : Text) :
    quote text ++ rest = '"' :: (text.flatMap quoteChar ++ '"' :: rest) := by
  rw [quote, append_assoc, cons_append, singleton_append]

theorem string?_quote (text rest : Text) :
    string? (text.flatMap quoteChar ++ '"' :: rest) = some (text, rest) := by
  have units : unitsFrom 0 (text.flatMap quoteChar ++ '"' :: rest) =
      some (Utf16.encode text, rest) := by
    induction text with
    | nil => rfl
    | cons char text ih =>
      rw [List.flatMap_cons, append_assoc, unitsFrom_quoteChar, ih]
      rfl
  rw [string?, units, Option.map_some, Utf16.chars_encode]

def isNumberChar (char : Char) : Bool := char.isDigit || ['-', '+', '.', 'e', 'E'].contains char

def afterDigits? (text : Text) : Option Text :=
  if text.takeWhile Char.isDigit = [] then none else some (text.dropWhile Char.isDigit)

def afterSign (signs : List Char) : Text → Text
  | [] => []
  | char :: rest => if signs.contains char then rest else char :: rest

def afterInteger? : Text → Option Text
  | '0' :: rest => some rest
  | text => afterDigits? text

def afterFraction? : Text → Option Text
  | '.' :: rest => afterDigits? rest
  | text => some text

def afterExponent? : Text → Option Text
  | [] => some []
  | char :: rest =>
    if char = 'e' || char = 'E' then afterDigits? (afterSign ['-', '+'] rest)
    else some (char :: rest)

/-- The grammar of a number. -/
def isNumber (text : Text) : Bool :=
  text.all isNumberChar &&
    (afterInteger? (afterSign ['-'] text) >>= afterFraction? >>= afterExponent?) == some []

def isSpace (char : Char) : Bool := [' ', '\t', '\n', '\r'].contains char

def skip (text : Text) : Text := text.dropWhile isSpace

def after? (word text : Text) : Option Text :=
  if word.isPrefixOf text then some (text.drop word.length) else none

def number? (text : Text) : Option (Value × Text) :=
  if isNumber (text.takeWhile isNumberChar) then
    some (.number (text.takeWhile isNumberChar), text.dropWhile isNumberChar)
  else none

mutual

/-- `fuel` bounds the calls, and `depth` the nesting. -/
def value? : Nat → Nat → Text → Option (Value × Text)
  | 0, _, _ => none
  | fuel + 1, depth, text =>
    match skip text with
    | [] => none
    | char :: rest =>
      if char = '"' then (string? rest).map fun found => (.string found.1, found.2)
      else if char = '[' then
        if depth = 0 then none
        else (elements? fuel (depth - 1) rest).map fun found => (.array found.1, found.2)
      else if char = '{' then
        if depth = 0 then none
        else (members? fuel (depth - 1) rest).map fun found => (.object found.1, found.2)
      else if char = 'n' then (after? ['u', 'l', 'l'] rest).map fun rest => (.null, rest)
      else if char = 't' then (after? ['r', 'u', 'e'] rest).map fun rest => (.bool true, rest)
      else if char = 'f' then
        (after? ['a', 'l', 's', 'e'] rest).map fun rest => (.bool false, rest)
      else number? (char :: rest)

/-- After the opening bracket. -/
def elements? : Nat → Nat → Text → Option (List Value × Text)
  | 0, _, _ => none
  | fuel + 1, depth, text =>
    match skip text with
    | ']' :: rest => some ([], rest)
    | _ => moreElements? fuel depth text

/-- An element, and those after it. -/
def moreElements? : Nat → Nat → Text → Option (List Value × Text)
  | 0, _, _ => none
  | fuel + 1, depth, text =>
    (value? fuel depth text).bind fun element =>
      match skip element.2 with
      | ']' :: rest => some ([element.1], rest)
      | ',' :: rest =>
        (moreElements? fuel depth rest).map fun found => (element.1 :: found.1, found.2)
      | _ => none

def members? : Nat → Nat → Text → Option (List (Text × Value) × Text)
  | 0, _, _ => none
  | fuel + 1, depth, text =>
    match skip text with
    | '}' :: rest => some ([], rest)
    | _ => moreMembers? fuel depth text

def moreMembers? : Nat → Nat → Text → Option (List (Text × Value) × Text)
  | 0, _, _ => none
  | fuel + 1, depth, text =>
    match skip text with
    | '"' :: rest =>
      (string? rest).bind fun name =>
        match skip name.2 with
        | ':' :: rest =>
          (value? fuel depth rest).bind fun member =>
            match skip member.2 with
            | '}' :: rest => some ([(name.1, member.1)], rest)
            | ',' :: rest =>
              (moreMembers? fuel depth rest).map fun found =>
                ((name.1, member.1) :: found.1, found.2)
            | _ => none
        | _ => none
    | _ => none

end

/-- The value that the whole text is, nested to `depth` at most. -/
def parse? (depth : Nat) (text : Text) : Option Value :=
  (value? (2 * text.length + 2) depth text).bind fun found =>
    if skip found.2 = [] then some found.1 else none

mutual

def render : Value → Text
  | .null => ['n', 'u', 'l', 'l']
  | .bool true => ['t', 'r', 'u', 'e']
  | .bool false => ['f', 'a', 'l', 's', 'e']
  | .number literal => literal
  | .string text => quote text
  | .array elements => '[' :: renderElements elements ++ [']']
  | .object members => '{' :: renderMembers members ++ ['}']

def renderElements : List Value → Text
  | [] => []
  | element :: rest => render element ++ renderOthers rest

def renderOthers : List Value → Text
  | [] => []
  | element :: rest => ',' :: render element ++ renderOthers rest

def renderMembers : List (Text × Value) → Text
  | [] => []
  | (name, member) :: rest => quote name ++ ':' :: render member ++ renderOtherMembers rest

def renderOtherMembers : List (Text × Value) → Text
  | [] => []
  | (name, member) :: rest =>
    ',' :: quote name ++ ':' :: render member ++ renderOtherMembers rest

end

mutual

/-- How deep a value is nested. -/
def nesting : Value → Nat
  | .array elements => nestingElements elements + 1
  | .object members => nestingMembers members + 1
  | _ => 0

def nestingElements : List Value → Nat
  | [] => 0
  | element :: rest => max (nesting element) (nestingElements rest)

def nestingMembers : List (Text × Value) → Nat
  | [] => 0
  | (_, member) :: rest => max (nesting member) (nestingMembers rest)

end

mutual

/-- Its literals are numbers. -/
def WellFormed : Value → Prop
  | .number literal => isNumber literal = true
  | .array elements => WellFormedElements elements
  | .object members => WellFormedMembers members
  | _ => True

def WellFormedElements : List Value → Prop
  | [] => True
  | element :: rest => WellFormed element ∧ WellFormedElements rest

def WellFormedMembers : List (Text × Value) → Prop
  | [] => True
  | (_, member) :: rest => WellFormed member ∧ WellFormedMembers rest

end

/-! ## What holds of the text of a value -/

/-- A property of texts that goes from the parts of a value's text to the whole. -/
structure RenderRule (Holds : Text → Prop) : Prop where
  append : ∀ {first second : Text}, Holds first → Holds second → Holds (first ++ second)
  empty : Holds []
  null : Holds (render .null)
  bool : ∀ value, Holds (render (.bool value))
  number : ∀ literal, isNumber literal = true → Holds literal
  quoted : ∀ text, Holds (quote text)
  mark : ∀ char ∈ [',', ':'], Holds [char]
  array : ∀ {inner : Text}, Holds inner → Holds ('[' :: inner ++ [']'])
  object : ∀ {inner : Text}, Holds inner → Holds ('{' :: inner ++ ['}'])

section
variable {Holds : Text → Prop} (rule : RenderRule Holds)
include rule

mutual

theorem RenderRule.value (value : Value) (isWellFormed : WellFormed value) :
    Holds (render value) := by
  cases value with
  | null => exact rule.null
  | bool value => exact rule.bool value
  | string text => exact rule.quoted text
  | number literal => exact rule.number literal isWellFormed
  | array elements => exact rule.array (RenderRule.elements elements isWellFormed)
  | object members => exact rule.object (RenderRule.members members isWellFormed)

theorem RenderRule.elements (elements : List Value) (areWellFormed : WellFormedElements elements) :
    Holds (renderElements elements) := by
  cases elements with
  | nil => exact rule.empty
  | cons element rest =>
    exact rule.append (RenderRule.value element areWellFormed.1)
      (RenderRule.otherElements rest areWellFormed.2)

theorem RenderRule.otherElements (elements : List Value)
    (areWellFormed : WellFormedElements elements) : Holds (renderOthers elements) := by
  cases elements with
  | nil => exact rule.empty
  | cons element rest =>
    exact rule.append (rule.append (rule.mark ',' (by decide))
      (RenderRule.value element areWellFormed.1)) (RenderRule.otherElements rest areWellFormed.2)

theorem RenderRule.members (members : List (Text × Value))
    (areWellFormed : WellFormedMembers members) : Holds (renderMembers members) := by
  cases members with
  | nil => exact rule.empty
  | cons member rest =>
    exact rule.append (rule.append (rule.quoted member.1) (rule.append (rule.mark ':' (by decide))
      (RenderRule.value member.2 areWellFormed.1)))
      (RenderRule.otherMembers rest areWellFormed.2)

theorem RenderRule.otherMembers (members : List (Text × Value))
    (areWellFormed : WellFormedMembers members) : Holds (renderOtherMembers members) := by
  cases members with
  | nil => exact rule.empty
  | cons member rest =>
    exact rule.append (rule.append (rule.append (rule.mark ',' (by decide))
      (rule.quoted member.1)) (rule.append (rule.mark ':' (by decide))
        (RenderRule.value member.2 areWellFormed.1))) (RenderRule.otherMembers rest areWellFormed.2)

end

end

/-! ## Round trip -/

/-- No number goes on here. -/
def Stops (text : Text) : Prop := ∀ char rest, text = char :: rest → isNumberChar char = false

variable {literal rest : Text} {char : Char} {depth : Nat}

theorem isNumber_cons (isLiteral : isNumber literal = true) :
    ∃ char rest, literal = char :: rest ∧ isNumberChar char = true := by
  cases literal with
  | nil => cases isLiteral
  | cons char rest =>
    have isAll := (Bool.and_eq_true_iff.mp isLiteral).1
    exact ⟨char, rest, rfl, (List.all_eq_true.mp isAll) char List.mem_cons_self⟩

theorem number?_literal (isLiteral : isNumber literal = true) (stops : Stops rest) :
    number? (literal ++ rest) = some (.number literal, rest) := by
  have isAll : ∀ char ∈ literal, isNumberChar char = true :=
    List.all_eq_true.mp (Bool.and_eq_true_iff.mp isLiteral).1
  have taken : (literal ++ rest).takeWhile isNumberChar = literal := by
    rw [List.takeWhile_append_of_pos isAll]
    cases rest with
    | nil => rw [List.takeWhile_nil, append_nil]
    | cons char rest =>
      rw [List.takeWhile_cons_of_neg (by rw [stops char rest rfl]; exact Bool.false_ne_true),
        append_nil]
  have dropped : (literal ++ rest).dropWhile isNumberChar = rest := by
    rw [List.dropWhile_append_of_pos isAll]
    cases rest with
    | nil => rfl
    | cons char rest =>
      exact List.dropWhile_cons_of_neg (by rw [stops char rest rfl]; exact Bool.false_ne_true)
  rw [number?, taken, dropped, if_pos isLiteral]

theorem notSpecial (isNumber : isNumberChar char = true) :
    isSpace char = false ∧ char ∉ ['"', '[', '{', 'n', 't', 'f', ']'] := by
  have notNumber : ∀ other ∈ ['"', '[', '{', 'n', 't', 'f', ']', ' ', '\t', '\n', '\r'],
      isNumberChar other = false := by decide
  constructor
  · refine Bool.eq_false_iff.mpr fun isSpaceChar => ?_
    have isListed : char ∈ ['"', '[', '{', 'n', 't', 'f', ']', ' ', '\t', '\n', '\r'] :=
      List.mem_append_right ['"', '[', '{', 'n', 't', 'f', ']']
        (List.contains_iff_mem.mp isSpaceChar)
    exact Bool.noConfusion ((notNumber char isListed).symm.trans isNumber)
  · intro isSpecial
    have isListed : char ∈ ['"', '[', '{', 'n', 't', 'f', ']', ' ', '\t', '\n', '\r'] :=
      List.mem_append_left [' ', '\t', '\n', '\r'] isSpecial
    exact Bool.noConfusion ((notNumber char isListed).symm.trans isNumber)

theorem skip_cons (notSpace : isSpace char = false) :
    skip (char :: rest) = char :: rest :=
  List.dropWhile_cons_of_neg (by rw [notSpace]; exact Bool.false_ne_true)

theorem render_cons (value : Value) (isWellFormed : WellFormed value) :
    ∃ char rest, render value = char :: rest ∧ isSpace char = false ∧ char ≠ ']' := by
  cases value with
  | null | string text | array elements | object members => exact ⟨_, _, rfl, by decide, by decide⟩
  | bool value =>
    cases value with
    | true | false => exact ⟨_, _, rfl, by decide, by decide⟩
  | number literal =>
    obtain ⟨char, rest, isLiteral, isFirst⟩ := isNumber_cons isWellFormed
    obtain ⟨notSpace, notListed⟩ := notSpecial isFirst
    exact ⟨char, rest, isLiteral, notSpace, fun same => notListed (by rw [same]; decide)⟩

theorem value?_number {fuel : Nat} (isLiteral : isNumber literal = true) (stops : Stops rest) :
    value? (fuel + 1) depth (literal ++ rest) = some (.number literal, rest) := by
  obtain ⟨char, later, rfl, isFirst⟩ := isNumber_cons isLiteral
  obtain ⟨notSpace, notListed⟩ := notSpecial isFirst
  simp only [List.mem_cons, List.not_mem_nil, or_false, not_or] at notListed
  obtain ⟨notQuote, notArray, notObject, notNull, notTrue, notFalse, _⟩ := notListed
  rw [value?, cons_append, skip_cons notSpace]
  dsimp only
  rw [if_neg notQuote, if_neg notArray, if_neg notObject, if_neg notNull, if_neg notTrue,
    if_neg notFalse]
  exact number?_literal isLiteral stops

theorem stops_cons (notNumber : isNumberChar char = false) (rest : Text) :
    Stops (char :: rest) := by
  rintro _ _ ⟨rfl, rfl⟩
  exact notNumber

theorem renderOthers_append (element : Value) (elements : List Value) (rest : Text) :
    renderOthers (element :: elements) ++ rest =
      ',' :: (renderElements (element :: elements) ++ rest) := by
  rw [renderOthers, renderElements, cons_append, cons_append]

theorem renderMembers_append (name : Text) (member : Value) (members : List (Text × Value))
    (rest : Text) : renderMembers ((name, member) :: members) ++ rest =
      quote name ++ ':' :: (render member ++ (renderOtherMembers members ++ rest)) := by
  rw [renderMembers, append_assoc, append_assoc, cons_append]

theorem renderOtherMembers_append (member : Text × Value) (members : List (Text × Value))
    (rest : Text) : renderOtherMembers (member :: members) ++ rest =
      ',' :: (renderMembers (member :: members) ++ rest) := by
  obtain ⟨name, member⟩ := member
  rw [renderOtherMembers, renderMembers]
  rfl

theorem stops_others (elements : List Value) (rest : Text) :
    Stops (renderOthers elements ++ ']' :: rest) := by
  cases elements with
  | nil => exact stops_cons (by decide) rest
  | cons element elements => exact stops_cons (by decide) _

theorem stops_otherMembers (members : List (Text × Value)) (rest : Text) :
    Stops (renderOtherMembers members ++ '}' :: rest) := by
  cases members with
  | nil => exact stops_cons (by decide) rest
  | cons member members => exact stops_cons (by decide) _

mutual

theorem value?_render {fuel depth : Nat} {rest : Text} (value : Value)
    (isWellFormed : WellFormed value) (isNested : nesting value ≤ depth)
    (isEnough : 2 * (render value).length ≤ fuel) (stops : Stops rest) :
    value? fuel depth (render value ++ rest) = some (value, rest) := by
  cases fuel with
  | zero =>
    obtain ⟨char, later, isRendered, _⟩ := render_cons value isWellFormed
    rw [isRendered, length_cons] at isEnough
    omega
  | succ fuel =>
    cases value with
    | null =>
      rw [value?]
      rfl
    | bool value =>
      cases value with
      | true | false =>
        rw [value?]
        rfl
    | number literal => exact value?_number isWellFormed stops
    | string text =>
      rw [value?, render, quote_append]
      show (string? _).map _ = _
      rw [string?_quote]
      rfl
    | array elements =>
      rw [nesting] at isNested
      rw [render, cons_append, length_cons, length_append,
        List.length_singleton] at isEnough
      have found := @elements?_render fuel (depth - 1) rest elements isWellFormed
        (Nat.le_sub_one_of_lt isNested) (by omega)
      rw [value?, render, cons_append, cons_append, append_assoc,
        singleton_append]
      show (if depth = 0 then none else _) = _
      rw [if_neg (Nat.ne_of_gt (Nat.lt_of_lt_of_le (Nat.succ_pos _) isNested)), found]
      rfl
    | object members =>
      rw [nesting] at isNested
      rw [render, cons_append, length_cons, length_append,
        List.length_singleton] at isEnough
      have found := @members?_render fuel (depth - 1) rest members isWellFormed
        (Nat.le_sub_one_of_lt isNested) (by omega)
      rw [value?, render, cons_append, cons_append, append_assoc,
        singleton_append]
      show (if depth = 0 then none else _) = _
      rw [if_neg (Nat.ne_of_gt (Nat.lt_of_lt_of_le (Nat.succ_pos _) isNested)), found]
      rfl

theorem elements?_render {fuel depth : Nat} {rest : Text} (elements : List Value)
    (areWellFormed : WellFormedElements elements) (areNested : nestingElements elements ≤ depth)
    (isEnough : 2 * (renderElements elements).length + 2 ≤ fuel) :
    elements? fuel depth (renderElements elements ++ ']' :: rest) = some (elements, rest) := by
  obtain ⟨fuel, rfl⟩ := Nat.exists_eq_succ_of_ne_zero (by omega : fuel ≠ 0)
  cases elements with
  | nil =>
    rw [elements?]
    rfl
  | cons element elements =>
    obtain ⟨char, later, isRendered, notSpace, notClose⟩ := render_cons element areWellFormed.1
    have found := @moreElements?_render fuel depth rest element elements areWellFormed areNested
      (by omega)
    rw [renderElements, isRendered, cons_append, cons_append] at found ⊢
    rw [elements?, skip_cons notSpace]
    split
    · rename_i isClose
      exact absurd (List.cons.inj isClose).1 notClose
    · exact found

theorem moreElements?_render {fuel depth : Nat} {rest : Text} (element : Value)
    (elements : List Value) (areWellFormed : WellFormedElements (element :: elements))
    (areNested : nestingElements (element :: elements) ≤ depth)
    (isEnough : 2 * (renderElements (element :: elements)).length + 1 ≤ fuel) :
    moreElements? fuel depth (renderElements (element :: elements) ++ ']' :: rest) =
      some (element :: elements, rest) := by
  obtain ⟨fuel, rfl⟩ := Nat.exists_eq_succ_of_ne_zero (by omega : fuel ≠ 0)
  obtain ⟨isWellFormed, areWellFormed⟩ := areWellFormed
  obtain ⟨isNested, areNested⟩ := max_le.mp areNested
  rw [renderElements, length_append] at isEnough
  have found := @value?_render fuel depth (renderOthers elements ++ ']' :: rest) element
    isWellFormed isNested (by omega) (stops_others elements rest)
  rw [renderElements, append_assoc, moreElements?, found]
  cases elements with
  | nil => rfl
  | cons second elements =>
    have length := congrArg List.length (renderOthers_append second elements [])
    rw [append_nil, append_nil, length_cons] at length
    have later := @moreElements?_render fuel depth rest second elements areWellFormed areNested
      (by omega)
    rw [renderOthers_append]
    show (moreElements? fuel depth _).map _ = _
    rw [later]
    rfl

theorem members?_render {fuel depth : Nat} {rest : Text} (members : List (Text × Value))
    (areWellFormed : WellFormedMembers members) (areNested : nestingMembers members ≤ depth)
    (isEnough : 2 * (renderMembers members).length + 2 ≤ fuel) :
    members? fuel depth (renderMembers members ++ '}' :: rest) = some (members, rest) := by
  obtain ⟨fuel, rfl⟩ := Nat.exists_eq_succ_of_ne_zero (by omega : fuel ≠ 0)
  cases members with
  | nil =>
    rw [members?]
    rfl
  | cons member members =>
    have found := @moreMembers?_render fuel depth rest member members areWellFormed areNested
      (by omega)
    rw [renderMembers, quote] at found ⊢
    rw [members?]
    exact found

theorem moreMembers?_render {fuel depth : Nat} {rest : Text} (member : Text × Value)
    (members : List (Text × Value)) (areWellFormed : WellFormedMembers (member :: members))
    (areNested : nestingMembers (member :: members) ≤ depth)
    (isEnough : 2 * (renderMembers (member :: members)).length + 1 ≤ fuel) :
    moreMembers? fuel depth (renderMembers (member :: members) ++ '}' :: rest) =
      some (member :: members, rest) := by
  obtain ⟨fuel, rfl⟩ := Nat.exists_eq_succ_of_ne_zero (by omega : fuel ≠ 0)
  obtain ⟨name, member⟩ := member
  obtain ⟨isWellFormed, areWellFormed⟩ := areWellFormed
  obtain ⟨isNested, areNested⟩ := max_le.mp areNested
  rw [renderMembers, length_append, length_append, length_cons] at isEnough
  have found := @value?_render fuel depth (renderOtherMembers members ++ '}' :: rest) member
    isWellFormed isNested (by omega) (stops_otherMembers members rest)
  have named := string?_quote name
    (':' :: (render member ++ (renderOtherMembers members ++ '}' :: rest)))
  rw [renderMembers_append, quote_append, moreMembers?]
  show (string? _).bind _ = _
  rw [named]
  show (value? fuel depth _).bind _ = _
  rw [found]
  cases members with
  | nil => rfl
  | cons second members =>
    have length := congrArg List.length (renderOtherMembers_append second members [])
    rw [append_nil, append_nil, length_cons] at length
    have later := @moreMembers?_render fuel depth rest second members areWellFormed areNested
      (by omega)
    rw [renderOtherMembers_append]
    show (moreMembers? fuel depth _).map _ = _
    rw [later]
    rfl

end

theorem parse?_render (value : Value) (isWellFormed : WellFormed value)
    (isNested : nesting value ≤ depth) : parse? depth (render value) = some value := by
  have found := @value?_render (2 * (render value).length + 2) depth [] value isWellFormed isNested
    (by omega) nofun
  rw [append_nil] at found
  rw [parse?, found]
  rfl

mutual

theorem fits_value? {text : Text} {found : Value × Text} : ∀ {fuel depth : Nat},
    value? fuel depth text = some found → WellFormed found.1 ∧ nesting found.1 ≤ depth
  | 0, _, isFound => by simp [value?] at isFound
  | fuel + 1, depth, isFound => by
    rw [value?] at isFound
    cases isText : skip text with
    | nil => simp [isText] at isFound
    | cons char rest =>
      rw [isText] at isFound
      dsimp only at isFound
      split_ifs at isFound with isString isArray atEnd isObject atEnd isNull isTrue isFalse
      · obtain ⟨_, _, rfl⟩ := map_eq_some_iff.mp isFound
        exact ⟨trivial, zero_le _⟩
      · obtain ⟨elements, isElements, rfl⟩ := map_eq_some_iff.mp isFound
        have fits := fits_elements? isElements
        exact ⟨fits.1, Nat.succ_le_of_lt (by have := fits.2; omega)⟩
      · obtain ⟨members, isMembers, rfl⟩ := map_eq_some_iff.mp isFound
        have fits := fits_members? isMembers
        exact ⟨fits.1, Nat.succ_le_of_lt (by have := fits.2; omega)⟩
      · obtain ⟨_, _, rfl⟩ := map_eq_some_iff.mp isFound
        exact ⟨trivial, zero_le _⟩
      · obtain ⟨_, _, rfl⟩ := map_eq_some_iff.mp isFound
        exact ⟨trivial, zero_le _⟩
      · obtain ⟨_, _, rfl⟩ := map_eq_some_iff.mp isFound
        exact ⟨trivial, zero_le _⟩
      · rw [number?] at isFound
        obtain ⟨isLiteral, isNumber⟩ := Option.ite_none_right_eq_some.mp isFound
        cases isNumber
        exact ⟨isLiteral, zero_le _⟩

theorem fits_elements? {text : Text} {found : List Value × Text} : ∀ {fuel depth : Nat},
    elements? fuel depth text = some found →
      WellFormedElements found.1 ∧ nestingElements found.1 ≤ depth
  | 0, _, isFound => by simp [elements?] at isFound
  | fuel + 1, depth, isFound => by
    rw [elements?.eq_def] at isFound
    dsimp only at isFound
    split at isFound
    · cases isFound
      exact ⟨trivial, zero_le _⟩
    · exact fits_moreElements? isFound

theorem fits_moreElements? {text : Text} {found : List Value × Text} : ∀ {fuel depth : Nat},
    moreElements? fuel depth text = some found →
      WellFormedElements found.1 ∧ nestingElements found.1 ≤ depth
  | 0, _, isFound => by simp [moreElements?] at isFound
  | fuel + 1, depth, isFound => by
    rw [moreElements?] at isFound
    obtain ⟨element, isElement, isFound⟩ := bind_eq_some_iff.mp isFound
    have fits := fits_value? isElement
    split at isFound
    · cases isFound
      exact ⟨⟨fits.1, trivial⟩, max_le.mpr ⟨fits.2, zero_le _⟩⟩
    · obtain ⟨later, isLater, rfl⟩ := map_eq_some_iff.mp isFound
      have laterFits := fits_moreElements? isLater
      exact ⟨⟨fits.1, laterFits.1⟩, max_le.mpr ⟨fits.2, laterFits.2⟩⟩
    · cases isFound

theorem fits_members? {text : Text} {found : List (Text × Value) × Text} : ∀ {fuel depth : Nat},
    members? fuel depth text = some found →
      WellFormedMembers found.1 ∧ nestingMembers found.1 ≤ depth
  | 0, _, isFound => by simp [members?] at isFound
  | fuel + 1, depth, isFound => by
    rw [members?.eq_def] at isFound
    dsimp only at isFound
    split at isFound
    · cases isFound
      exact ⟨trivial, zero_le _⟩
    · exact fits_moreMembers? isFound

theorem fits_moreMembers? {text : Text} {found : List (Text × Value) × Text} :
    ∀ {fuel depth : Nat}, moreMembers? fuel depth text = some found →
      WellFormedMembers found.1 ∧ nestingMembers found.1 ≤ depth
  | 0, _, isFound => by simp [moreMembers?] at isFound
  | fuel + 1, depth, isFound => by
    rw [moreMembers?] at isFound
    split at isFound
    · obtain ⟨name, _, isFound⟩ := bind_eq_some_iff.mp isFound
      split at isFound
      · obtain ⟨member, isMember, isFound⟩ := bind_eq_some_iff.mp isFound
        have fits := fits_value? isMember
        split at isFound
        · cases isFound
          exact ⟨⟨fits.1, trivial⟩, max_le.mpr ⟨fits.2, zero_le _⟩⟩
        · obtain ⟨later, isLater, rfl⟩ := map_eq_some_iff.mp isFound
          have laterFits := fits_moreMembers? isLater
          exact ⟨⟨fits.1, laterFits.1⟩, max_le.mpr ⟨fits.2, laterFits.2⟩⟩
        · cases isFound
      · cases isFound
    · cases isFound

end

end AiTools.Lib.Json
