import AiTools.Webform.Description

/-!
Contract: values of the DSL are read back.
-/

namespace AiTools.Webform.Dsl

open AiTools.Lib AiTools.Lib.GoText
open List (all_eq_true cons_append cons_ne_nil length_append mem_cons mem_cons_self not_mem_nil)

variable {floats : Floats} {char : Char}

theorem isSpace_of_isNumberChar (isNumber : Json.isNumberChar char = true) :
    isSpace char = false := by
  refine Bool.eq_false_iff.mpr fun isSpaceChar => ?_
  have inRange : 0x2b ≤ char.toNat ∧ char.toNat ≤ 0x65 := by
    rcases Bool.or_eq_true_iff.mp isNumber with isDigit | isListed
    · obtain ⟨isLeast, isMost⟩ := Bool.and_eq_true_iff.mp isDigit
      have isLeast : 48 ≤ char.toNat := of_decide_eq_true isLeast
      have isMost : char.toNat ≤ 57 := of_decide_eq_true isMost
      omega
    · have areInRange : ∀ other ∈ ['-', '+', '.', 'e', 'E'],
          0x2b ≤ other.toNat ∧ other.toNat ≤ 0x65 := by decide
      exact areInRange char (List.contains_iff_mem.mp isListed)
  rcases Bool.or_eq_true_iff.mp isSpaceChar with isListed | isWide
  · have notInRange : ∀ code ∈ [0x09, 0x0a, 0x0b, 0x0c, 0x0d, 0x20, 0x85, 0xa0, 0x1680, 0x2028,
        0x2029, 0x202f, 0x205f, 0x3000], ¬(0x2b ≤ code ∧ code ≤ 0x65) := by decide
    exact notInRange _ (List.contains_iff_mem.mp isListed) inRange
  · have isLeast := of_decide_eq_true (Bool.and_eq_true_iff.mp isWide).1
    omega

theorem isNumberChar_of_mem_itoa {number : Int} (isChar : char ∈ itoa number) :
    Json.isNumberChar char = true := by
  cases number with
  | ofNat number =>
    rw [Json.isNumberChar, isDigit_of_mem_toDigits isChar]
    rfl
  | negSucc number =>
    rcases mem_cons.mp isChar with rfl | isDigit
    · rfl
    · rw [Json.isNumberChar, isDigit_of_mem_toDigits isDigit]
      rfl

theorem itoa_ne_nil (number : Int) : itoa number ≠ [] := by
  cases number with
  | ofNat number => exact Nat.toDigits_ne_nil
  | negSucc number => exact cons_ne_nil _ _

/-! ## Literals as tokens -/

/-- Nothing but spaces and commas separates. -/
def Separates (stop : Char → Bool) : Prop := ∀ char, stop char = true → inArray char = true

theorem separates_isSpace : Separates isSpace := fun _ isSpaceChar =>
  Bool.or_eq_true_iff.mpr (.inl isSpaceChar)

variable {stop : Char → Bool}

theorem Separates.not (separates : Separates stop)
    (notSeparator : inArray char = false) : stop char = false :=
  Bool.eq_false_iff.mpr fun isStop =>
    Bool.noConfusion (notSeparator.symm.trans (separates char isStop))

theorem inArray_of_isNumberChar (isNumber : Json.isNumberChar char = true) :
    inArray char = false := by
  have notComma : char ≠ ',' := fun same => by
    rw [same] at isNumber
    exact absurd isNumber (by decide)
  rw [inArray, isSpace_of_isNumberChar isNumber, Bool.false_or]
  exact decide_eq_false notComma

/-- A text that is there and does not begin or end with space. -/
structure Framed (text : Text) : Prop where
  notEmpty : text ≠ []
  first : ∀ char ∈ text.head?, isSpace char = false
  last : ∀ char ∈ text.getLast?, isSpace char = false

variable {text : Text}

theorem Framed.isTrimmed (isFramed : Framed text) : trimSpace text = text :=
  trimSpace_eq_self isFramed.first isFramed.last

theorem framed_of_noSpace (notEmpty : text ≠ [])
    (noSpace : ∀ char ∈ text, isSpace char = false) : Framed text where
  notEmpty := notEmpty
  first := fun char isFirst => noSpace char (List.mem_of_mem_head? isFirst)
  last := fun char isLast => noSpace char (List.mem_of_mem_getLast? isLast)

theorem framed_of_ends {first last : Char} (inner : Text) (notFirst : isSpace first = false)
    (notLast : isSpace last = false) : Framed (first :: inner ++ [last]) where
  notEmpty := cons_ne_nil _ _
  first := by
    intro char isFirst
    cases isFirst
    exact notFirst
  last := by
    intro char isLast
    rw [List.getLast?_append, List.getLast?_singleton] at isLast
    cases isLast
    exact notLast

/-- What every literal's text is, in an array and outside. -/
structure Readable (stop : Char → Bool) (text : Text) : Prop extends Framed text where
  isClosed : Closed stop text

theorem readable_of_numberChars (separates : Separates stop)
    (notEmpty : text ≠ []) (areNumbers : ∀ char ∈ text, Json.isNumberChar char = true) :
    Readable stop text :=
  ⟨framed_of_noSpace notEmpty fun char isChar => isSpace_of_isNumberChar (areNumbers char isChar),
    Closed.of_plain (plain_of_numberChars areNumbers)
      fun char isChar => separates.not (inArray_of_isNumberChar (areNumbers char isChar))⟩

theorem readable_word (separates : Separates stop) {word : Text} (notEmpty : word ≠ [])
    (isPlain : ∀ char ∈ word, isSpecial char = false ∧ inArray char = false) : Readable stop word :=
  ⟨framed_of_noSpace notEmpty
      fun char isChar => (Bool.or_eq_false_iff.mp (isPlain char isChar).2).1,
    Closed.of_plain (fun char isChar => (isPlain char isChar).1)
      fun char isChar => separates.not (isPlain char isChar).2⟩

theorem Closed.joined {separator : Char}
    (isSeparator : Closed stop [separator]) {texts : List Text} (areClosed : ∀ text ∈ texts, Closed stop text) :
    Closed stop ([separator].intercalate texts) := by
  induction texts with
  | nil => rfl
  | cons text texts ih =>
    have isText := areClosed text mem_cons_self
    have later := ih fun text isLater =>
      areClosed text (List.mem_cons_of_mem _ isLater)
    cases texts with
    | nil => rwa [List.intercalate_singleton]
    | cons next texts =>
      rw [List.intercalate_cons_cons]
      exact (isText.append isSeparator).append later

mutual

theorem readable_render {stop : Char → Bool} (separates : Separates stop) (literal : Literal)
    (isValid : literal.Valid floats stop) : Readable stop literal.render := by
  cases literal with
  | quoted text =>
    exact ⟨framed_of_ends _ (by decide) (by decide), Closed.quote (separates.not (by decide)) text⟩
  | bare text => exact ⟨framed_of_noSpace isValid.notEmpty isValid.noSpace, isValid.isClosed⟩
  | integer number =>
    exact readable_of_numberChars separates (itoa_ne_nil number) fun _ => isNumberChar_of_mem_itoa
  | decimal literal =>
    obtain ⟨isNumber, isDecimal⟩ := isValid
    refine readable_of_numberChars separates (fun isEmpty => ?_)
      (all_eq_true.mp (Bool.and_eq_true_iff.mp isNumber).1)
    have isEmpty : literal = [] := isEmpty
    rw [isEmpty] at isDecimal
    exact absurd isDecimal (by decide)
  | bool value =>
    cases value with
    | true | false => exact readable_word separates (by decide) (by decide)
  | null => exact readable_word separates (by decide) (by decide)
  | array elements =>
    have areClosed : ∀ text ∈ Literal.renderAll elements, Closed never text := fun text isText =>
      (readable_renderAll elements isValid text isText).isClosed.mono fun _ isNever => by
        cases isNever
    exact ⟨framed_of_ends _ (by decide) (by decide),
      (Closed.joined (by decide) areClosed).squares (separates.not (by decide))⟩
  | json members =>
    exact ⟨framed_of_ends _ (by decide) (by decide),
      (closed_rule.members members isValid.1).braces (separates.not (by decide))⟩

theorem readable_renderAll (literals : List Literal)
    (areValid : Literal.AllValid floats inArray literals) :
    ∀ text ∈ Literal.renderAll literals, Readable inArray text := by
  cases literals with
  | nil => exact fun _ isText => absurd isText not_mem_nil
  | cons literal rest =>
    intro text isText
    rcases mem_cons.mp isText with rfl | isLater
    · exact readable_render (fun _ isStop => isStop) literal areValid.1
    · exact readable_renderAll rest areValid.2 text isLater

end

theorem parseWord_integer {number : Int} (isInt : IsInt number) :
    parseWord (itoa number) = (.int number : Value floats) := by
  have notWord : ∀ word : Text, (¬∀ char ∈ word, Json.isNumberChar char = true) →
      itoa number ≠ word := by
    rintro word notNumber rfl
    exact notNumber fun char isChar => isNumberChar_of_mem_itoa isChar
  rw [parseWord, if_neg (notWord _ (by decide)), if_neg (notWord _ (by decide)),
    if_neg (notWord _ (by decide)), atoi?_itoa isInt]

theorem atoi?_decimal {literal : Text} (isNumber : Json.isNumber literal = true)
    (isDecimal : literal.any (['.', 'e', 'E'].contains ·) = true) : atoi? literal = none := by
  obtain ⟨char, isChar, isListed⟩ := List.any_eq_true.mp isDecimal
  have isMarked : char ∈ ['.', 'e', 'E'] := List.contains_iff_mem.mp isListed
  have notDigit : ∀ other ∈ ['.', 'e', 'E'],
      other.isDigit = false ∧ other ≠ '-' ∧ other ≠ '+' := by decide
  have notNatural : ∀ {digits : Text}, char ∈ digits → natural? digits = none := by
    intro digits isIn
    refine if_neg fun areDigits => ?_
    have isDigit := all_eq_true.mp areDigits.2 char isIn
    exact Bool.noConfusion ((notDigit char isMarked).1.symm.trans isDigit)
  unfold atoi?
  split
  · rename_i digits
    have isLater := (mem_cons.mp isChar).resolve_left (notDigit char isMarked).2.1
    rw [notNatural isLater]
    rfl
  · rename_i digits
    have isLater := (mem_cons.mp isChar).resolve_left (notDigit char isMarked).2.2
    rw [notNatural isLater]
    rfl
  · rw [notNatural isChar]
    rfl

theorem parseWord_decimal {literal : Text} (isNumber : Json.isNumber literal = true)
    (isDecimal : literal.any (['.', 'e', 'E'].contains ·) = true) {number : floats.Float64}
    (isFloat : floats.parseFloat literal = some number) :
    parseWord literal = (.float number : Value floats) := by
  have areNumbers : ∀ char ∈ literal, Json.isNumberChar char = true :=
    all_eq_true.mp (Bool.and_eq_true_iff.mp isNumber).1
  have notWord : ∀ word : Text, (¬∀ char ∈ word, Json.isNumberChar char = true) →
      literal ≠ word := by
    rintro word notNumber rfl
    exact notNumber areNumbers
  rw [parseWord, if_neg (notWord _ (by decide)), if_neg (notWord _ (by decide)),
    if_neg (notWord _ (by decide)), atoi?_decimal isNumber isDecimal, isFloat]
  exact if_pos isDecimal

theorem parseWord_bare (isBare : IsBare floats stop text) :
    parseWord text = (.string text : Value floats) := by
  have notWord := isBare.notWord
  simp only [mem_cons, not_mem_nil, or_false, not_or] at notWord
  obtain ⟨notTrue, notFalse, notNull⟩ := notWord
  rw [parseWord, if_neg notTrue, if_neg notFalse, if_neg notNull, isBare.notInteger]
  cases isBare.notDecimal with
  | inl notFloat => rw [notFloat]
  | inr notMarked =>
    cases floats.parseFloat text with
    | none => rfl
    | some number => exact if_neg (by rw [notMarked]; exact Bool.false_ne_true)

/-! ## Literals are read back -/

theorem parseValueWithin_word {fuel : Nat} (notEmpty : text ≠ [])
    (isTrimmed : trimSpace text = text) (notQuoted : text.head? ≠ some '"')
    (notArray : hasEnds '[' ']' text = false) (notJson : hasEnds '{' '}' text = false) :
    parseValueWithin (fuel + 1) text = .ok (parseWord text : Value floats) := by
  rw [parseValueWithin, isTrimmed]
  dsimp only
  rw [if_neg notEmpty, if_neg notQuoted, notArray, if_neg Bool.false_ne_true, notJson,
    if_neg Bool.false_ne_true]

theorem not_opens (isPlain : ∀ char ∈ text, isSpecial char = false) :
    text.head? ≠ some '"' ∧ hasEnds '[' ']' text = false ∧ hasEnds '{' '}' text = false := by
  have notFirst : ∀ {char}, isSpecial char = true → text.head? ≠ some char :=
    fun isSpecial isFirst => Bool.noConfusion ((isPlain _ (List.mem_of_mem_head? isFirst)).symm.trans isSpecial)
  refine ⟨notFirst (by decide), ?_, ?_⟩
  · rw [hasEnds, decide_eq_false (notFirst (by decide)), Bool.false_and]
  · rw [hasEnds, decide_eq_false (notFirst (by decide)), Bool.false_and]

theorem framed_intercalate {separator : Char} {parts : List Text} (notNone : parts ≠ [])
    (areFramed : ∀ part ∈ parts, Framed part) : Framed ([separator].intercalate parts) := by
  induction parts with
  | nil => exact absurd rfl notNone
  | cons part parts ih =>
    have isFramed := areFramed part mem_cons_self
    cases parts with
    | nil => rwa [List.intercalate_singleton]
    | cons next parts =>
      have later := ih (cons_ne_nil _ _) fun part isLater =>
        areFramed part (List.mem_cons_of_mem _ isLater)
      rw [List.intercalate_cons_cons, List.append_assoc]
      refine ⟨List.append_ne_nil_of_left_ne_nil isFramed.notEmpty _, fun char isFirst => ?_,
        fun char isLast => ?_⟩
      · rw [List.head?_append_of_ne_nil _ isFramed.notEmpty] at isFirst
        exact isFramed.first char isFirst
      · rw [← List.append_assoc, List.getLast?_append_of_ne_nil _ later.notEmpty] at isLast
        exact later.last char isLast

theorem length_le_intercalate {separator : Char} {part : Text} {parts : List Text}
    (isPart : part ∈ parts) : part.length ≤ ([separator].intercalate parts).length := by
  induction parts with
  | nil => exact absurd isPart not_mem_nil
  | cons first parts ih =>
    cases parts with
    | nil =>
      rw [List.mem_singleton.mp isPart, List.intercalate_singleton]
    | cons next parts =>
      rw [List.intercalate_cons_cons, length_append, length_append]
      rcases mem_cons.mp isPart with rfl | isLater
      · omega
      · have isShorter := ih isLater
        omega

theorem hasEnds_ends (first last : Char) (inner : Text) :
    hasEnds first last (first :: inner ++ [last]) = true := by
  rw [hasEnds, List.getLast?_append, List.getLast?_singleton, cons_append, List.head?_cons,
    decide_eq_true rfl, Bool.true_and]
  exact decide_eq_true rfl

theorem parseValueWithin_array {fuel : Nat} {parts : List Text}
    (isWhole : trimSpace ('[' :: [','].intercalate parts ++ [']']) =
      '[' :: [','].intercalate parts ++ [']'])
    (areReadable : ∀ part ∈ parts, Readable inArray part) {values : List (Value floats)}
    (areRead : parts.mapM (parseValueWithin fuel) = .ok values) :
    parseValueWithin (fuel + 1) ('[' :: [','].intercalate parts ++ [']']) =
      .ok (.array values) := by
  have isInner : ('[' :: [','].intercalate parts ++ [']']).tail.dropLast =
      [','].intercalate parts := by
    rw [cons_append, List.tail_cons, List.dropLast_concat]
  rw [parseValueWithin, isWhole]
  dsimp only
  have notEmpty : '[' :: [','].intercalate parts ++ [']'] ≠ [] := cons_ne_nil _ _
  have notQuoted : ('[' :: [','].intercalate parts ++ [']']).head? ≠ some '"' := by
    rw [cons_append, List.head?_cons]
    decide
  rw [if_neg notEmpty, if_neg notQuoted, if_pos (hasEnds_ends _ _ _), isInner]
  cases parts with
  | nil =>
    cases areRead
    rfl
  | cons part parts =>
    have isFramed := @framed_intercalate ',' _ (cons_ne_nil part parts) fun other isOther =>
      (areReadable other isOther).toFramed
    have areParts : ∀ other ∈ part :: parts, IsPart ',' other := fun other isOther =>
      have isReadable := areReadable other isOther
      ⟨isReadable.notEmpty, isReadable.isTrimmed, isReadable.isClosed.mono fun char isComma =>
        Bool.or_eq_true_iff.mpr (.inr isComma)⟩
    rw [isFramed.isTrimmed, if_neg isFramed.notEmpty,
      splitDelimited_joined (cons_ne_nil _ _) areParts]
    show ((part :: parts).mapM (parseValueWithin fuel)).map Value.array = _
    rw [areRead]
    rfl

mutual

theorem parseValueWithin_render {fuel : Nat} {stop : Char → Bool} (separates : Separates stop)
    (literal : Literal) (isValid : literal.Valid floats stop) {value : Value floats}
    (isWire : literal.wire floats = some value) (isEnough : literal.render.length < fuel) :
    parseValueWithin fuel literal.render = .ok value := by
  obtain ⟨fuel, rfl⟩ := Nat.exists_eq_succ_of_ne_zero (Nat.ne_zero_of_lt isEnough)
  have isReadable := readable_render separates literal isValid
  cases literal with
  | quoted text =>
    cases isWire
    rw [parseValueWithin, isReadable.isTrimmed]
    show (orError .invalidQuoted (unquote? (Json.quote text))).map Value.string = _
    rw [unquote?_quote]
    rfl
  | bare text =>
    cases isWire
    show parseValueWithin (fuel + 1) text = _
    rw [parseValueWithin_word isValid.notEmpty isReadable.isTrimmed isValid.notQuoted
      isValid.notArray isValid.notJson, parseWord_bare isValid]
  | integer number =>
    cases isWire
    obtain ⟨notQuoted, notArray, notJson⟩ := not_opens
      (plain_of_numberChars fun _ => isNumberChar_of_mem_itoa)
    show parseValueWithin (fuel + 1) (itoa number) = _
    rw [parseValueWithin_word (itoa_ne_nil number) isReadable.isTrimmed notQuoted notArray
      notJson, parseWord_integer isValid]
  | decimal literal =>
    obtain ⟨isNumber, isDecimal⟩ := isValid
    obtain ⟨number, isFloat, rfl⟩ := Option.map_eq_some_iff.mp isWire
    obtain ⟨notQuoted, notArray, notJson⟩ := not_opens
      (plain_of_numberChars (all_eq_true.mp (Bool.and_eq_true_iff.mp isNumber).1))
    show parseValueWithin (fuel + 1) literal = _
    have notEmpty : literal ≠ [] := isReadable.notEmpty
    have isTrimmed : trimSpace literal = literal := isReadable.isTrimmed
    rw [parseValueWithin_word notEmpty isTrimmed notQuoted notArray
      notJson, parseWord_decimal isNumber isDecimal isFloat]
  | bool value =>
    cases isWire
    cases value with
    | true | false => rfl
  | null =>
    cases isWire
    rfl
  | array elements =>
    obtain ⟨values, areWire, rfl⟩ := Option.map_eq_some_iff.mp isWire
    have isShort : ∀ part ∈ Literal.renderAll elements, part.length < fuel := by
      intro part isPart
      have isShorter := @length_le_intercalate ',' part _ isPart
      rw [Literal.render, length_append, List.length_cons] at isEnough
      omega
    exact parseValueWithin_array isReadable.isTrimmed (readable_renderAll elements isValid)
      (parseValues_renderAll elements isValid areWire isShort)
  | json members =>
    have isParsed := Json.parse?_render (.object members) isValid.1 isValid.2
    have isWire : fromJson (.object members) = some value := isWire
    rw [parseValueWithin, isReadable.isTrimmed]
    show (if hasEnds '{' '}' ('{' :: Json.renderMembers members ++ ['}']) = true then _
      else _) = _
    rw [if_pos (hasEnds_ends _ _ _)]
    show orError .invalidJson (unmarshal (Json.render (.object members))) = _
    rw [unmarshal, isParsed, Option.bind_some, isWire]
    rfl

theorem parseValues_renderAll {fuel : Nat} (literals : List Literal)
    (areValid : Literal.AllValid floats inArray literals) {values : List (Value floats)}
    (areWire : Literal.wireAll floats literals = some values)
    (areEnough : ∀ part ∈ Literal.renderAll literals, part.length < fuel) :
    (Literal.renderAll literals).mapM (parseValueWithin fuel) = .ok values := by
  cases literals with
  | nil =>
    cases areWire
    rfl
  | cons literal rest =>
    obtain ⟨value, isWire, isRest⟩ := Option.bind_eq_some_iff.mp areWire
    obtain ⟨later, areLater, rfl⟩ := Option.map_eq_some_iff.mp isRest
    have isRead := parseValueWithin_render (fun _ isStop => isStop) literal areValid.1 isWire
      (areEnough _ mem_cons_self)
    have areRead := parseValues_renderAll rest areValid.2 areLater fun part isPart =>
      areEnough part (List.mem_cons_of_mem _ isPart)
    rw [Literal.renderAll, List.mapM_cons, isRead, areRead]
    rfl

end

theorem parseValue_render {stop : Char → Bool} (separates : Separates stop) (literal : Literal)
    (isValid : literal.Valid floats stop) {value : Value floats}
    (isWire : literal.wire floats = some value) : parseValue literal.render = .ok value :=
  parseValueWithin_render separates literal isValid isWire (Nat.lt_succ_self _)

end AiTools.Webform.Dsl
