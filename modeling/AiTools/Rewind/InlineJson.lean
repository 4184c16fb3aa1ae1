import AiTools.Rewind.RawMessage

/-!
Contract: JSON that is put into a script element.
-/

namespace AiTools.Rewind.Viewer

open AiTools.Lib AiTools.Lib.Json
open List (cons_append length_append mem_cons not_mem_nil)
open Option (bind_eq_some_iff bind_some map_eq_some_iff)

/-- What a character becomes, given whether it follows a `<`. -/
def piece (afterLess : Bool) (char : Char) : Text :=
  if afterLess && char = '/' then ['\\', '/']
  else if char.toNat = 0x2028 then ['\\', 'u', '2', '0', '2', '8']
  else if char.toNat = 0x2029 then ['\\', 'u', '2', '0', '2', '9']
  else [char]

def escapeFrom : Bool → Text → Text
  | _, [] => []
  | afterLess, char :: rest => piece afterLess char ++ escapeFrom (char = '<') rest

/-- The replacer takes `</` apart, and writes out the two separators that end a line. -/
def escapeInlineJSON (text : Text) : Text := escapeFrom false text

theorem escapeFrom_cons (afterLess : Bool) (char : Char) (rest : Text) :
    escapeFrom afterLess (char :: rest) = piece afterLess char ++ escapeFrom (char = '<') rest :=
  rfl

/-- A character that is left as it is wherever it stands, and no `<`. -/
def Plain (char : Char) : Prop :=
  char ≠ '<' ∧ char.toNat ≠ 0x2028 ∧ char.toNat ≠ 0x2029

variable {char : Char} {text rest digits : Text} {value : Value} {length : Nat}

theorem piece_plain (plain : Plain char) : piece false char = [char] := by
  rw [piece, Bool.false_and, if_neg Bool.false_ne_true, if_neg plain.2.1, if_neg plain.2.2]

theorem escapeFrom_plain (plain : Plain char) (rest : Text) :
    escapeFrom false (char :: rest) = char :: escapeFrom false rest := by
  rw [escapeFrom_cons, piece_plain plain, decide_eq_false plain.1]
  rfl

theorem escapeFrom_plain_append {chars : Text} (plain : ∀ char ∈ chars, Plain char) (rest : Text) :
    escapeFrom false (chars ++ rest) = chars ++ escapeFrom false rest := by
  induction chars with
  | nil => rfl
  | cons char chars ih =>
    rw [cons_append, escapeFrom_plain (plain char List.mem_cons_self),
      ih fun other isThere => plain other (List.mem_cons_of_mem _ isThere)]
    rfl

theorem plain_of_toNat_lt (notLess : char ≠ '<') (isSmall : char.toNat < 0x2028) :
    Plain char := ⟨notLess, by omega, by omega⟩

theorem length_le_escapeFrom (text : Text) :
    ∀ afterLess, text.length ≤ (escapeFrom afterLess text).length := by
  induction text with
  | nil => exact fun _ => Nat.le_refl _
  | cons char rest ih =>
    intro afterLess
    have one : 1 ≤ (piece afterLess char).length := by
      unfold piece
      split_ifs <;> simp
    have later := ih (char = '<')
    rw [escapeFrom_cons, length_append, List.length_cons]
    omega

/-- The first character that is written is the one that is read, or a backslash. -/
theorem escapeFrom_head (char : Char) (rest : Text) : ∃ first later,
    escapeFrom false (char :: rest) = first :: later ∧ (first = char ∨ first = '\\') := by
  rw [escapeFrom_cons, piece, Bool.false_and, if_neg Bool.false_ne_true]
  split_ifs
  · exact ⟨_, _, rfl, .inr rfl⟩
  · exact ⟨_, _, rfl, .inr rfl⟩
  · exact ⟨_, _, rfl, .inl rfl⟩

theorem escapeFrom_ascii {char : Char} (ascii : char ≠ '<' ∧ char.toNat < 0x2028) (rest : Text) :
    escapeFrom false (char :: rest) = char :: escapeFrom false rest :=
  escapeFrom_plain (plain_of_toNat_lt ascii.1 ascii.2) rest

theorem isSpace_plain (isSpace : Json.isSpace char = true) : Plain char := by
  have isOne : char ∈ [' ', '\t', '\n', '\r'] := List.contains_iff_mem.mp isSpace
  simp only [mem_cons, not_mem_nil, or_false] at isOne
  rcases isOne with rfl | rfl | rfl | rfl <;> exact plain_of_toNat_lt (by decide) (by decide)

theorem skip_escapeFrom (text : Text) :
    skip (escapeFrom false text) = escapeFrom false (skip text) := by
  induction text with
  | nil => rfl
  | cons char rest ih =>
    cases isSpace : Json.isSpace char with
    | true =>
      rw [escapeFrom_plain (isSpace_plain isSpace), skip, List.dropWhile_cons_of_pos isSpace,
        skip, List.dropWhile_cons_of_pos isSpace]
      exact ih
    | false =>
      obtain ⟨first, later, isEscaped, isFirst⟩ := escapeFrom_head char rest
      have notSpace : Json.isSpace first = false := by
        rcases isFirst with rfl | rfl
        · exact isSpace
        · decide
      rw [skip_cons isSpace, isEscaped, skip_cons notSpace]

theorem isNumberChar_plain (isNumber : isNumberChar char = true) : Plain char := by
  unfold isNumberChar at isNumber
  rw [Bool.or_eq_true] at isNumber
  rcases isNumber with isDigit | isOther
  · have bounds : 48 ≤ char.val ∧ char.val ≤ 57 := by simpa [Char.isDigit] using isDigit
    have isSmall : char.toNat ≤ 57 := bounds.2
    refine plain_of_toNat_lt ?_ (by omega)
    rintro rfl
    exact absurd isSmall (by decide)
  · have isOne := List.contains_iff_mem.mp isOther
    simp only [mem_cons, not_mem_nil, or_false] at isOne
    rcases isOne with rfl | rfl | rfl | rfl | rfl <;>
      exact plain_of_toNat_lt (by decide) (by decide)

theorem takeWhile_escapeFrom (text : Text) :
    (escapeFrom false text).takeWhile isNumberChar = text.takeWhile isNumberChar ∧
      (escapeFrom false text).dropWhile isNumberChar =
        escapeFrom false (text.dropWhile isNumberChar) := by
  induction text with
  | nil => exact ⟨rfl, rfl⟩
  | cons char rest ih =>
    cases isNumber : isNumberChar char with
    | true =>
      rw [escapeFrom_plain (isNumberChar_plain isNumber), List.takeWhile_cons_of_pos isNumber,
        List.takeWhile_cons_of_pos isNumber, List.dropWhile_cons_of_pos isNumber,
        List.dropWhile_cons_of_pos isNumber]
      exact ⟨congrArg _ ih.1, ih.2⟩
    | false =>
      obtain ⟨first, later, isEscaped, isFirst⟩ := escapeFrom_head char rest
      have notNumber : ¬ isNumberChar first = true := by
        rcases isFirst with rfl | rfl
        · rw [isNumber]
          exact Bool.false_ne_true
        · decide
      have notThis : ¬ isNumberChar char = true := by
        rw [isNumber]
        exact Bool.false_ne_true
      rw [isEscaped, List.takeWhile_cons_of_neg notNumber, List.takeWhile_cons_of_neg notThis,
        List.dropWhile_cons_of_neg notNumber, List.dropWhile_cons_of_neg notThis, isEscaped]
      exact ⟨rfl, rfl⟩

theorem number?_escapeFrom (isRead : number? text = some (value, rest)) :
    number? (escapeFrom false text) = some (value, escapeFrom false rest) := by
  obtain ⟨sameLiteral, sameRest⟩ := takeWhile_escapeFrom text
  unfold number? at isRead ⊢
  rw [sameLiteral, sameRest]
  split at isRead
  · rw [if_pos ‹_›]
    cases isRead
    rfl
  · cases isRead

theorem isNumberChar_of_number? {found : Value × Text}
    (isRead : number? (char :: rest) = some found) : isNumberChar char = true := by
  by_contra notNumber
  rw [number?, List.takeWhile_cons_of_neg notNumber] at isRead
  cases isRead

theorem after?_escapeFrom {word : Text} (plain : ∀ char ∈ word, Plain char)
    (isRead : after? word text = some rest) :
    after? word (escapeFrom false text) = some (escapeFrom false rest) := by
  unfold after? at isRead ⊢
  split at isRead
  · rename_i isPrefix
    obtain ⟨others, rfl⟩ := List.isPrefixOf_iff_prefix.mp isPrefix
    have isStill : word.isPrefixOf (word ++ escapeFrom false others) = true :=
      List.isPrefixOf_iff_prefix.mpr (List.prefix_append _ _)
    rw [List.drop_left] at isRead
    rw [escapeFrom_plain_append plain, if_pos isStill, List.drop_left, ← Option.some.inj isRead]
  · cases isRead

/-! ## Strings -/

theorem hexValue?_plain {value : Nat} (isHex : hexValue? char = some value) : Plain char := by
  have isSmall : char.toNat ≤ 102 ∧ char ≠ '<' := by
    unfold hexValue? at isHex
    split_ifs at isHex with isDigit isLower isUpper
    · have bound : char.toNat ≤ 57 := isDigit.2
      refine ⟨by omega, ?_⟩
      rintro rfl
      exact absurd bound (by decide)
    · have bound : char.toNat ≤ 102 := isLower.2
      have lower : 97 ≤ char.toNat := isLower.1
      refine ⟨bound, ?_⟩
      rintro rfl
      exact absurd lower (by decide)
    · have bound : char.toNat ≤ 70 := isUpper.2
      have lower : 65 ≤ char.toNat := isUpper.1
      refine ⟨by omega, ?_⟩
      rintro rfl
      exact absurd lower (by decide)
  exact plain_of_toNat_lt isSmall.2 (by omega)

theorem hexNumber?_plain :
    ∀ {start number : Nat}, digits.foldlM (fun number digit =>
      (hexValue? digit).map fun value => 16 * number + value) start = some number →
        ∀ char ∈ digits, Plain char := by
  induction digits with
  | nil => exact nofun
  | cons digit digits ih =>
    intro start number isNumber char isThere
    rw [List.foldlM_cons] at isNumber
    obtain ⟨next, isNext, isRest⟩ := bind_eq_some_iff.mp isNumber
    obtain ⟨value, isValue, _⟩ := map_eq_some_iff.mp isNext
    rcases mem_cons.mp isThere with rfl | isLater
    · exact hexValue?_plain isValue
    · exact ih isRest char isLater

theorem escape?_split {unit : UInt16} (isEscape : escape? text = some (unit, length)) :
    ∃ chars rest, text = chars ++ rest ∧ chars.length = length ∧ (∀ char ∈ chars, Plain char) ∧
        ∀ other, escape? (chars ++ other) = some (unit, length) := by
  unfold escape? at isEscape
  split at isEscape
  · cases isEscape
  · rename_i rest
    split at isEscape
    · cases isEscape
    · rename_i isLong
      obtain ⟨number, isNumber, same⟩ := map_eq_some_iff.mp isEscape
      cases same
      have four : (rest.take 4).length = 4 := by
        rw [List.length_take]
        omega
      refine ⟨'u' :: rest.take 4, rest.drop 4, ?_, ?_, ?_, fun other => ?_⟩
      · rw [cons_append, List.take_append_drop]
      · rw [List.length_cons, four]
      · intro char isThere
        rcases mem_cons.mp isThere with rfl | isDigit
        · exact plain_of_toNat_lt (by decide) (by decide)
        · exact hexNumber?_plain isNumber char isDigit
      · have isTaken : (rest.take 4 ++ other).take 4 = rest.take 4 := List.take_left' four
        have isLongStill : ¬ (rest.take 4 ++ other).length < 4 := by
          rw [length_append, four]
          omega
        rw [cons_append, escape?, if_neg isLongStill, isTaken, isNumber]
        rfl
  · rename_i char rest notU
    obtain ⟨number, isNumber, same⟩ := map_eq_some_iff.mp isEscape
    cases same
    have isOne : char ∈ ['"', '\\', '/', 'b', 'f', 'n', 'r', 't'] := by
      by_contra notThere
      simp only [mem_cons, not_mem_nil, or_false, not_or] at notThere
      obtain ⟨first, second, third, fourth, fifth, sixth, seventh, eighth⟩ := notThere
      simp [simpleEscapes, List.lookup, beq_eq_false_iff_ne.mpr first,
        beq_eq_false_iff_ne.mpr second, beq_eq_false_iff_ne.mpr third,
        beq_eq_false_iff_ne.mpr fourth, beq_eq_false_iff_ne.mpr fifth,
        beq_eq_false_iff_ne.mpr sixth, beq_eq_false_iff_ne.mpr seventh,
        beq_eq_false_iff_ne.mpr eighth] at isNumber
    simp only [mem_cons, not_mem_nil, or_false] at isOne
    refine ⟨[char], rest, rfl, rfl, ?_, fun other => ?_⟩
    · intro found isThere
      rw [List.mem_singleton.mp isThere]
      rcases isOne with rfl | rfl | rfl | rfl | rfl | rfl | rfl | rfl <;>
        exact plain_of_toNat_lt (by decide) (by decide)
    · rcases isOne with rfl | rfl | rfl | rfl | rfl | rfl | rfl | rfl <;>
        exact congrArg (Option.map fun unit => (UInt16.ofNat unit, 1)) isNumber

theorem unitsFrom_append {chars : Text} (isLength : chars.length = length) :
    unitsFrom length (chars ++ rest) = unitsFrom 0 rest := isLength ▸ unitsFrom_skip chars rest

theorem escapeFrom_of_ne (notSlash : char ≠ '/') (afterLess : Bool) (rest : Text) :
    escapeFrom afterLess (char :: rest) = escapeFrom false (char :: rest) := by
  rw [escapeFrom_cons, escapeFrom_cons, piece, piece, decide_eq_false notSlash, Bool.and_false,
    Bool.and_false]

theorem unitsFrom_unicode {number : Nat} (isFour : digits.length = 4)
    (isNumber : hexNumber? digits = some number) (rest : Text) :
    unitsFrom 0 ('\\' :: 'u' :: digits ++ rest) =
      (unitsFrom 0 rest).map fun later => (UInt16.ofNat number :: later.1, later.2) := by
  have isEscape : escape? ('u' :: (digits ++ rest)) = some (UInt16.ofNat number, 5) := by
    have isLong : ¬ (digits ++ rest).length < 4 := by
      rw [length_append]
      omega
    rw [escape?, if_neg isLong, ← isFour, List.take_left, isNumber]
    rfl
  rw [cons_append, cons_append, unitsFrom, if_neg (by decide), if_neg (by decide),
    if_pos rfl, isEscape, bind_some]
  exact congrArg (Option.map _) (unitsFrom_append isFour)

theorem unitsFrom_escapeFrom (bound : Nat) : ∀ {text rest : Text} {units : List UInt16},
    text.length ≤ bound → unitsFrom 0 text = some (units, rest) → ∀ afterLess,
      unitsFrom 0 (escapeFrom afterLess text) = some (units, escapeFrom false rest) := by
  induction bound with
  | zero =>
    intro text rest units isShort isRead
    rw [List.length_eq_zero_iff.mp (Nat.le_zero.mp isShort)] at isRead
    cases isRead
  | succ bound ih =>
    intro text rest units isShort isRead afterLess
    cases text with
    | nil => cases isRead
    | cons char others =>
      have isShorter : others.length ≤ bound := Nat.le_of_succ_le_succ isShort
      rw [unitsFrom] at isRead
      split_ifs at isRead with isQuote isControl isBackslash
      · cases isRead
        subst isQuote
        rw [escapeFrom_of_ne (by decide),
          escapeFrom_ascii (by decide)]
        rfl
      · obtain ⟨⟨unit, length⟩, isEscape, isRead⟩ := bind_eq_some_iff.mp isRead
        obtain ⟨later, isLater, same⟩ := map_eq_some_iff.mp isRead
        cases same
        obtain ⟨chars, more, rfl, isLength, plain, always⟩ := escape?_split isEscape
        dsimp only at isLater
        rw [unitsFrom_append isLength] at isLater
        have isShortest : more.length ≤ bound := by
          rw [length_append] at isShorter
          omega
        have isRest := ih isShortest isLater false
        subst isBackslash
        rw [escapeFrom_of_ne (by decide),
          escapeFrom_ascii (by decide),
          escapeFrom_plain_append plain, unitsFrom, if_neg (by decide), if_neg (by decide),
          if_pos rfl, always, bind_some]
        dsimp only
        rw [unitsFrom_append isLength, isRest]
        rfl
      · obtain ⟨later, isLater, same⟩ := map_eq_some_iff.mp isRead
        cases same
        have isRest := ih isShorter isLater (char = '<')
        rw [escapeFrom_cons]
        unfold piece
        split_ifs with isSlash isLine isParagraph
        · rw [Bool.and_eq_true, decide_eq_true_eq] at isSlash
          have isEscape : ∀ rest, unitsFrom 0 ('\\' :: '/' :: rest) =
              (unitsFrom 0 rest).map fun later => (0x2f :: later.1, later.2) := fun _ => rfl
          rw [cons_append, cons_append, List.nil_append, isEscape, isRest, isSlash.2]
          rfl
        · have isUnit : Utf16.encodeChar char = [UInt16.ofNat 0x2028] := by
            rw [Utf16.encodeChar, isLine]
            rfl
          have isNumber : hexNumber? ['2', '0', '2', '8'] = some 0x2028 := by decide
          rw [isUnit]
          exact (unitsFrom_unicode rfl isNumber _).trans (by rw [isRest]; rfl)
        · have isUnit : Utf16.encodeChar char = [UInt16.ofNat 0x2029] := by
            rw [Utf16.encodeChar, isParagraph]
            rfl
          have isNumber : hexNumber? ['2', '0', '2', '9'] = some 0x2029 := by decide
          rw [isUnit]
          exact (unitsFrom_unicode rfl isNumber _).trans (by rw [isRest]; rfl)
        · rw [List.singleton_append, unitsFrom, if_neg isQuote, if_neg isControl,
            if_neg isBackslash, isRest]
          rfl

theorem string?_escapeFrom {found : Text × Text} (isRead : string? text = some found) :
    string? (escapeFrom false text) = some (found.1, escapeFrom false found.2) := by
  obtain ⟨units, isUnits, rfl⟩ := map_eq_some_iff.mp isRead
  rw [string?, unitsFrom_escapeFrom text.length (Nat.le_refl _) isUnits false]
  rfl

/-! ## Values -/

theorem escapeFrom_eq_cons {later : Text} (notBackslash : char ≠ '\\')
    (isEscaped : escapeFrom false text = char :: later) :
    ∃ rest, text = char :: rest := by
  cases text with
  | nil => cases isEscaped
  | cons first rest =>
    obtain ⟨found, others, isFound, isFirst⟩ := escapeFrom_head first rest
    rw [isFound, List.cons.injEq] at isEscaped
    rcases isFirst with rfl | rfl
    · exact ⟨rest, by rw [isEscaped.1]⟩
    · exact absurd isEscaped.1.symm notBackslash

theorem plain_word {word : Text} (small : word.all fun char => char ≠ '<' ∧ char.toNat < 0x2028) :
    ∀ char ∈ word, Plain char := by
  intro char isThere
  have both := of_decide_eq_true (List.all_eq_true.mp small char isThere)
  exact plain_of_toNat_lt both.1 both.2

mutual

theorem value?_escapeFrom {text : Text} {found : Value × Text} : ∀ {fuel depth more : Nat},
    value? fuel depth text = some found → fuel ≤ more →
      value? more depth (escapeFrom false text) = some (found.1, escapeFrom false found.2)
  | 0, _, _, isRead, _ => by simp [value?] at isRead
  | fuel + 1, _, 0, _, isMore => absurd isMore (Nat.not_succ_le_zero _)
  | fuel + 1, depth, more + 1, isRead, isMore => by
    have isMore := Nat.le_of_succ_le_succ isMore
    rw [value?] at isRead ⊢
    rw [skip_escapeFrom]
    cases isText : skip text with
    | nil => simp [isText] at isRead
    | cons char rest =>
      rw [isText] at isRead
      dsimp only at isRead
      split_ifs at isRead with isString isArray atEnd isObject atEnd isNull isTrue isFalse
      · obtain ⟨string, isFound, rfl⟩ := map_eq_some_iff.mp isRead
        rw [isString, escapeFrom_ascii (by decide)]
        show (string? (escapeFrom false rest)).map _ = _
        rw [string?_escapeFrom isFound]
        rfl
      · obtain ⟨elements, isElements, rfl⟩ := map_eq_some_iff.mp isRead
        rw [isArray, escapeFrom_ascii (by decide)]
        show (if depth = 0 then none else (elements? more (depth - 1) _).map _) = _
        rw [if_neg atEnd, elements?_escapeFrom isElements isMore]
        rfl
      · obtain ⟨members, isMembers, rfl⟩ := map_eq_some_iff.mp isRead
        rw [isObject, escapeFrom_ascii (by decide)]
        show (if depth = 0 then none else (members? more (depth - 1) _).map _) = _
        rw [if_neg atEnd, members?_escapeFrom isMembers isMore]
        rfl
      · obtain ⟨others, isAfter, rfl⟩ := map_eq_some_iff.mp isRead
        rw [isNull, escapeFrom_ascii (by decide)]
        show (after? _ (escapeFrom false rest)).map _ = _
        rw [after?_escapeFrom (plain_word rfl) isAfter]
        rfl
      · obtain ⟨others, isAfter, rfl⟩ := map_eq_some_iff.mp isRead
        rw [isTrue, escapeFrom_ascii (by decide)]
        show (after? _ (escapeFrom false rest)).map _ = _
        rw [after?_escapeFrom (plain_word rfl) isAfter]
        rfl
      · obtain ⟨others, isAfter, rfl⟩ := map_eq_some_iff.mp isRead
        rw [isFalse, escapeFrom_ascii (by decide)]
        show (after? _ (escapeFrom false rest)).map _ = _
        rw [after?_escapeFrom (plain_word rfl) isAfter]
        rfl
      · have plain : Plain char := isNumberChar_plain (isNumberChar_of_number? isRead)
        have isNumber := number?_escapeFrom isRead
        rw [escapeFrom_plain plain] at isNumber ⊢
        dsimp only
        rw [if_neg isString, if_neg isArray, if_neg isObject, if_neg isNull, if_neg isTrue,
          if_neg isFalse]
        exact isNumber

theorem elements?_escapeFrom {text : Text} {found : List Value × Text} :
    ∀ {fuel depth more : Nat}, elements? fuel depth text = some found → fuel ≤ more →
      elements? more depth (escapeFrom false text) = some (found.1, escapeFrom false found.2)
  | 0, _, _, isRead, _ => by simp [elements?] at isRead
  | fuel + 1, _, 0, _, isMore => absurd isMore (Nat.not_succ_le_zero _)
  | fuel + 1, depth, more + 1, isRead, isMore => by
    have isMore := Nat.le_of_succ_le_succ isMore
    rw [elements?.eq_def] at isRead ⊢
    dsimp only at isRead ⊢
    rw [skip_escapeFrom]
    split at isRead
    · rename_i rest isSkip
      rw [isSkip, escapeFrom_ascii (by decide)]
      cases isRead
      rfl
    · rename_i notEnd
      split
      · rename_i rest isSkip
        obtain ⟨others, isOthers⟩ := escapeFrom_eq_cons (by decide) isSkip
        exact absurd isOthers (notEnd others)
      · exact moreElements?_escapeFrom isRead isMore

theorem moreElements?_escapeFrom {text : Text} {found : List Value × Text} :
    ∀ {fuel depth more : Nat}, moreElements? fuel depth text = some found → fuel ≤ more →
      moreElements? more depth (escapeFrom false text) = some (found.1, escapeFrom false found.2)
  | 0, _, _, isRead, _ => by simp [moreElements?] at isRead
  | fuel + 1, _, 0, _, isMore => absurd isMore (Nat.not_succ_le_zero _)
  | fuel + 1, depth, more + 1, isRead, isMore => by
    have isMore := Nat.le_of_succ_le_succ isMore
    rw [moreElements?] at isRead ⊢
    obtain ⟨element, isElement, isRead⟩ := bind_eq_some_iff.mp isRead
    rw [value?_escapeFrom isElement isMore, bind_some]
    dsimp only
    rw [skip_escapeFrom]
    split at isRead
    · rename_i rest isSkip
      rw [isSkip, escapeFrom_ascii (by decide)]
      cases isRead
      rfl
    · rename_i rest isSkip
      obtain ⟨later, isLater, rfl⟩ := map_eq_some_iff.mp isRead
      rw [isSkip, escapeFrom_ascii (by decide)]
      show (moreElements? more depth (escapeFrom false rest)).map _ = _
      rw [moreElements?_escapeFrom isLater isMore]
      rfl
    · cases isRead

theorem members?_escapeFrom {text : Text} {found : List (Text × Value) × Text} :
    ∀ {fuel depth more : Nat}, members? fuel depth text = some found → fuel ≤ more →
      members? more depth (escapeFrom false text) = some (found.1, escapeFrom false found.2)
  | 0, _, _, isRead, _ => by simp [members?] at isRead
  | fuel + 1, _, 0, _, isMore => absurd isMore (Nat.not_succ_le_zero _)
  | fuel + 1, depth, more + 1, isRead, isMore => by
    have isMore := Nat.le_of_succ_le_succ isMore
    rw [members?.eq_def] at isRead ⊢
    dsimp only at isRead ⊢
    rw [skip_escapeFrom]
    split at isRead
    · rename_i rest isSkip
      rw [isSkip, escapeFrom_ascii (by decide)]
      cases isRead
      rfl
    · rename_i notEnd
      split
      · rename_i rest isSkip
        obtain ⟨others, isOthers⟩ := escapeFrom_eq_cons (by decide) isSkip
        exact absurd isOthers (notEnd others)
      · exact moreMembers?_escapeFrom isRead isMore

theorem moreMembers?_escapeFrom {text : Text} {found : List (Text × Value) × Text} :
    ∀ {fuel depth more : Nat}, moreMembers? fuel depth text = some found → fuel ≤ more →
      moreMembers? more depth (escapeFrom false text) = some (found.1, escapeFrom false found.2)
  | 0, _, _, isRead, _ => by simp [moreMembers?] at isRead
  | fuel + 1, _, 0, _, isMore => absurd isMore (Nat.not_succ_le_zero _)
  | fuel + 1, depth, more + 1, isRead, isMore => by
    have isMore := Nat.le_of_succ_le_succ isMore
    rw [moreMembers?] at isRead ⊢
    rw [skip_escapeFrom]
    split at isRead
    · rename_i rest isSkip
      rw [isSkip, escapeFrom_ascii (by decide)]
      obtain ⟨name, isName, isRead⟩ := bind_eq_some_iff.mp isRead
      show ((string? (escapeFrom false rest)).bind _) = _
      rw [string?_escapeFrom isName, bind_some]
      dsimp only
      rw [skip_escapeFrom]
      split at isRead
      · rename_i rest isSkip
        rw [isSkip, escapeFrom_ascii (by decide)]
        obtain ⟨member, isMember, isRead⟩ := bind_eq_some_iff.mp isRead
        show ((value? more depth (escapeFrom false rest)).bind _) = _
        rw [value?_escapeFrom isMember isMore, bind_some]
        dsimp only
        rw [skip_escapeFrom]
        split at isRead
        · rename_i rest isSkip
          rw [isSkip, escapeFrom_ascii (by decide)]
          cases isRead
          rfl
        · rename_i rest isSkip
          obtain ⟨later, isLater, rfl⟩ := map_eq_some_iff.mp isRead
          rw [isSkip, escapeFrom_ascii (by decide)]
          show (moreMembers? more depth (escapeFrom false rest)).map _ = _
          rw [moreMembers?_escapeFrom isLater isMore]
          rfl
        · cases isRead
      · cases isRead
    · cases isRead

end

theorem parse?_escapeInlineJSON {depth : Nat} (isRead : parse? depth text = some value) :
    parse? depth (escapeInlineJSON text) = some value := by
  obtain ⟨found, isFound, isValue⟩ := bind_eq_some_iff.mp isRead
  obtain ⟨isEnd, isSame⟩ := Option.ite_none_right_eq_some.mp isValue
  cases isSame
  have isLong := length_le_escapeFrom text false
  have isEscaped := value?_escapeFrom isFound
    (show 2 * text.length + 2 ≤ 2 * (escapeFrom false text).length + 2 by omega)
  rw [escapeInlineJSON, parse?, isEscaped, bind_some, skip_escapeFrom, isEnd]
  rfl

end AiTools.Rewind.Viewer
