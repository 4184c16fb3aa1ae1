import AiTools.Webform.Dsl

/-!
Contract: texts that the scanners of the DSL take whole.
-/

namespace AiTools.Webform.Dsl

open AiTools.Lib AiTools.Lib.GoText
open List (append_assoc append_nil cons_append cons_ne_nil contains_iff_mem mem_cons_of_mem
  mem_cons_self nil_append singleton_append)
open Bool (and_eq_true_iff eq_false_iff)

/-- Where a line ends. -/
def isBreak (char : Char) : Bool := ['\n', '\r'].contains char

/-- What opens or closes a quote or a bracket, or ends a line. -/
def isSpecial (char : Char) : Bool := ['"', '[', ']', '{', '}', '\n', '\r'].contains char

/-- What the scanner reads over a text of one line in which no separator is at the top. -/
def scan? (stop : Char → Bool) : Scan → Text → Option Scan
  | scan, [] => some scan
  | scan, char :: rest =>
    if (scan.atTop && stop char) || isBreak char then none
    else match scan.next char with
      | .ok scan => scan? stop scan rest
      | .error _ => none

def Closed (stop : Char → Bool) (text : Text) : Prop := scan? stop .start text = some .start

instance (stop : Char → Bool) (text : Text) : Decidable (Closed stop text) :=
  inferInstanceAs (Decidable (_ = _))

variable {char : Char}

theorem not_special (notSpecial : isSpecial char = false) :
    char ≠ '"' ∧ char ≠ '[' ∧ char ≠ ']' ∧ char ≠ '{' ∧ char ≠ '}' ∧ isBreak char = false := by
  have notListed : char ∉ ['"', '[', ']', '{', '}', '\n', '\r'] := fun isListed =>
    Bool.noConfusion (notSpecial.symm.trans (List.contains_iff_mem.mpr isListed))
  simp only [List.mem_cons, List.not_mem_nil, or_false, not_or] at notListed
  obtain ⟨notQuote, notSquare, notSquareEnd, notBrace, notBraceEnd, notNewline, notReturn⟩ :=
    notListed
  refine ⟨notQuote, notSquare, notSquareEnd, notBrace, notBraceEnd,
    Bool.eq_false_iff.mpr fun isBreak => ?_⟩
  rcases List.mem_pair.mp (List.contains_iff_mem.mp isBreak) with isNewline | isReturn
  · exact notNewline isNewline
  · exact notReturn isReturn

variable {scan : Scan}

theorem Scan.next_of_not_special (notQuoted : scan.inQuote = false)
    (notSpecial : isSpecial char = false) : scan.next char = .ok scan := by
  obtain ⟨notQuote, notSquare, notSquareEnd, notBrace, notBraceEnd, _⟩ := not_special notSpecial
  rw [Scan.next, if_neg (by rw [notQuoted]; exact Bool.false_ne_true), if_neg notQuote,
    if_neg notSquare, if_neg notSquareEnd, if_neg notBrace, if_neg notBraceEnd]

/-! ## Scanning -/

theorem scan?_append (stop : Char → Bool) (scan : Scan) (first second : Text) :
    scan? stop scan (first ++ second) =
      (scan? stop scan first).bind fun scan => scan? stop scan second := by
  fun_induction scan? stop scan first with
  | case1 scan => rfl
  | case2 scan char rest isStop => rw [List.cons_append, scan?, if_pos isStop]; rfl
  | case3 scan char rest notStop after isNext ih =>
    rw [List.cons_append, scan?, if_neg notStop, isNext]
    exact ih
  | case4 scan char rest notStop error isNext =>
    rw [List.cons_append, scan?, if_neg notStop, isNext]
    rfl

variable {stop : Char → Bool}

theorem Closed.append {first second : Text} (isFirst : Closed stop first)
    (isSecond : Closed stop second) : Closed stop (first ++ second) := by
  rw [Closed, scan?_append, isFirst]
  exact isSecond

variable {text : Text}

theorem scan?_mono {other : Char → Bool}
    (isLess : ∀ char, other char = true → stop char = true) {after : Scan} (isScanned : scan? stop scan text = some after) :
    scan? other scan text = some after := by
  fun_induction scan? stop scan text with
  | case1 scan => exact isScanned
  | case2 scan char rest isStop => cases isScanned
  | case3 scan char rest notStop next isNext ih =>
    have notOther : ¬(scan.atTop && other char || isBreak char) = true := fun isOther =>
      notStop <| by
        rcases Bool.or_eq_true_iff.mp isOther with isOther | isBreak
        · obtain ⟨isTop, isOther⟩ := Bool.and_eq_true_iff.mp isOther
          rw [isTop, isLess char isOther]
          rfl
        · rw [isBreak, Bool.or_true]
    rw [scan?, if_neg notOther, isNext]
    exact ih isScanned
  | case4 scan char rest notStop error isNext => cases isScanned

theorem Closed.mono {other : Char → Bool} (isClosed : Closed stop text)
    (isLess : ∀ char, other char = true → stop char = true) : Closed other text :=
  scan?_mono isLess isClosed

/-- The same place, within so many more brackets. -/
def Scan.deepen (squares braces : Nat) (scan : Scan) : Scan :=
  { scan with
    squareDepth := scan.squareDepth + squares
    braceDepth := scan.braceDepth + braces }

theorem Scan.next_deepen {squares braces : Nat} {after : Scan}
    (isNext : scan.next char = .ok after) :
    (scan.deepen squares braces).next char = .ok (after.deepen squares braces) := by
  obtain ⟨inQuote, escaped, squareDepth, braceDepth⟩ := scan
  unfold Scan.next at isNext ⊢
  unfold Scan.deepen
  dsimp only at isNext ⊢
  -- The same branch is taken on both sides: a bracket that closes there closes here.
  split_ifs at isNext ⊢
  all_goals first
    | omega
    | (cases isNext; done)
    | (cases isNext; simp <;> omega)

theorem scan?_deepen {stop other : Char → Bool} {squares braces : Nat}
    (isDeeper : 0 < squares + braces) {scan after : Scan} {text : Text}
    (isScanned : scan? stop scan text = some after) :
    scan? other (scan.deepen squares braces) text = some (after.deepen squares braces) := by
  fun_induction scan? stop scan text with
  | case1 scan => cases isScanned; rfl
  | case2 scan char rest isStop => cases isScanned
  | case3 scan char rest notStop next isNext ih =>
    have notTop : (scan.deepen squares braces).atTop = false := by
      refine Bool.eq_false_iff.mpr fun isTop => ?_
      obtain ⟨notSquare, notBrace⟩ := Bool.and_eq_true_iff.mp isTop
      have noSquare := of_decide_eq_true (Bool.and_eq_true_iff.mp notSquare).2
      have noBrace := of_decide_eq_true notBrace
      simp only [Scan.deepen] at noSquare noBrace
      omega
    have notBreak : isBreak char = false :=
      Bool.eq_false_iff.mpr fun isBreak => notStop (by rw [isBreak, Bool.or_true])
    rw [scan?, notTop, Bool.false_and, notBreak, Bool.or_false, if_neg Bool.false_ne_true,
      Scan.next_deepen isNext]
    exact ih isScanned
  | case4 scan char rest notStop error isNext => cases isScanned

theorem scan?_plain (rest : Text)
    (notQuoted : scan.inQuote = false) (notSpecial : isSpecial char = false)
    (notStop : stop char = false) : scan? stop scan (char :: rest) = scan? stop scan rest := by
  obtain ⟨_, _, _, _, _, notBreak⟩ := not_special notSpecial
  rw [scan?, notStop, notBreak, Bool.and_false, Bool.or_false, if_neg Bool.false_ne_true,
    Scan.next_of_not_special notQuoted notSpecial]

theorem Closed.of_plain (isPlain : ∀ char ∈ text, isSpecial char = false)
    (notStop : ∀ char ∈ text, stop char = false) : Closed stop text := by
  induction text with
  | nil => rfl
  | cons char text ih =>
    rw [Closed, scan?_plain text rfl (isPlain char List.mem_cons_self)
      (notStop char List.mem_cons_self)]
    exact ih (fun char isLater => isPlain char (List.mem_cons_of_mem _ isLater))
      fun char isLater => notStop char (List.mem_cons_of_mem _ isLater)

theorem scan?_opening {opening : Char} {after : Scan} (rest : Text)
    (notStop : stop opening = false) (notBreak : isBreak opening = false)
    (isNext : Scan.start.next opening = .ok after) :
    scan? stop .start (opening :: rest) = scan? stop after rest := by
  rw [scan?, notStop, notBreak, Bool.and_false, Bool.or_false, if_neg Bool.false_ne_true, isNext]

theorem Closed.squares {stop other : Char → Bool} {text : Text} (isClosed : Closed other text)
    (notStop : stop '[' = false) : Closed stop ('[' :: text ++ [']']) := by
  have inner : scan? stop ⟨false, false, 1, 0⟩ text = some ⟨false, false, 1, 0⟩ :=
    @scan?_deepen other stop 1 0 (by decide) .start .start text isClosed
  rw [Closed, List.cons_append, scan?_opening _ notStop (by decide) rfl]
  show scan? stop ⟨false, false, 1, 0⟩ (text ++ [']']) = _
  rw [scan?_append, inner]
  rfl

theorem Closed.braces {stop other : Char → Bool} {text : Text} (isClosed : Closed other text)
    (notStop : stop '{' = false) : Closed stop ('{' :: text ++ ['}']) := by
  have inner : scan? stop ⟨false, false, 0, 1⟩ text = some ⟨false, false, 0, 1⟩ :=
    @scan?_deepen other stop 0 1 (by decide) .start .start text isClosed
  rw [Closed, List.cons_append, scan?_opening _ notStop (by decide) rfl]
  show scan? stop ⟨false, false, 0, 1⟩ (text ++ ['}']) = _
  rw [scan?_append, inner]
  rfl

theorem scan?_notBreak {after : Scan}
    (isScanned : scan? stop scan text = some after) : ∀ char ∈ text, isBreak char = false := by
  fun_induction scan? stop scan text with
  | case1 scan => exact fun _ isChar => absurd isChar List.not_mem_nil
  | case2 scan char rest isStop => cases isScanned
  | case3 scan char rest notStop next isNext ih =>
    intro other isOther
    rcases List.mem_cons.mp isOther with rfl | isLater
    · exact Bool.eq_false_iff.mpr fun isBreak => notStop (by rw [isBreak, Bool.or_true])
    · exact ih isScanned other isLater
  | case4 scan char rest notStop error isNext => cases isScanned

def Scan.quoted : Scan := ⟨true, false, 0, 0⟩

theorem scan?_quoted (rest : Text) (notQuote : char ≠ '"')
    (notBackslash : char ≠ '\\') (notBreak : isBreak char = false) :
    scan? stop .quoted (char :: rest) = scan? stop .quoted rest := by
  have isNext : Scan.next .quoted char = .ok .quoted := by
    show (if char = '\\' then _ else _) = _
    rw [if_neg notBackslash, if_neg notQuote]
  rw [scan?, notBreak, Bool.or_false, isNext]
  rfl

theorem hexDigit_plain : ∀ value < 16, Json.hexDigit value ≠ '"' ∧ Json.hexDigit value ≠ '\\' ∧
    isBreak (Json.hexDigit value) = false := by decide

theorem scan?_quoteChar (stop : Char → Bool) (char : Char) (rest : Text) :
    scan? stop .quoted (Json.quoteChar char ++ rest) = scan? stop .quoted rest := by
  unfold Json.quoteChar
  split_ifs with isQuote isBackslash isControl
  · rfl
  · rfl
  · obtain ⟨notQuote, notBackslash, notBreak⟩ := hexDigit_plain (char.toNat / 16) (by omega)
    obtain ⟨notQuote', notBackslash', notBreak'⟩ := hexDigit_plain (char.toNat % 16) (by omega)
    show scan? stop .quoted ('0' :: '0' :: Json.hexDigit (char.toNat / 16) ::
      Json.hexDigit (char.toNat % 16) :: rest) = _
    rw [scan?_quoted _ (by decide) (by decide) (by decide),
      scan?_quoted _ (by decide) (by decide) (by decide),
      scan?_quoted _ notQuote notBackslash notBreak,
      scan?_quoted _ notQuote' notBackslash' notBreak']
  · have notBreak : isBreak char = false := Bool.eq_false_iff.mpr fun isBreak => isControl <| by
      rcases List.mem_pair.mp (List.contains_iff_mem.mp isBreak) with rfl | rfl
      · decide
      · decide
    exact scan?_quoted rest isQuote isBackslash notBreak

theorem Closed.quote (notStop : stop '"' = false) (text : Text) :
    Closed stop (Json.quote text) := by
  have inner : scan? stop .quoted (text.flatMap Json.quoteChar ++ ['"']) = some .start := by
    induction text with
    | nil => rfl
    | cons char text ih =>
      rw [List.flatMap_cons, List.append_assoc, scan?_quoteChar]
      exact ih
  rw [Closed, Json.quote, List.cons_append, scan?_opening _ notStop (by decide) rfl]
  exact inner

/-- Nothing separates what is in brackets. -/
def never : Char → Bool := fun _ => false

theorem plain_of_numberChars (areNumbers : ∀ char ∈ text, Json.isNumberChar char = true) :
    ∀ char ∈ text, isSpecial char = false := by
  have notNumber : ∀ other ∈ ['"', '[', ']', '{', '}', '\n', '\r'],
      Json.isNumberChar other = false := by decide
  intro char isChar
  refine eq_false_iff.mpr fun isSpecial => ?_
  have isOther := notNumber char (contains_iff_mem.mp isSpecial)
  exact Bool.noConfusion (isOther.symm.trans (areNumbers char isChar))

theorem closed_rule : Json.RenderRule (Closed never) where
  append := Closed.append
  empty := rfl
  null := rfl
  bool value := by cases value <;> rfl
  number _ isNumber := Closed.of_plain
    (plain_of_numberChars (List.all_eq_true.mp (and_eq_true_iff.mp isNumber).1)) fun _ _ => rfl
  quoted := Closed.quote rfl
  mark := by decide
  array isInner := Closed.squares isInner rfl
  object isInner := Closed.braces isInner rfl

/-! ## Splitting -/

theorem Scan.next_braceDepth {scan after : Scan} {char : Char} (isNext : scan.next char = .ok after)
    (notClosing : char ≠ '}') : scan.braceDepth ≤ after.braceDepth := by
  unfold Scan.next at isNext
  split_ifs at isNext
  all_goals first
    | (cases isNext; exact Nat.le_refl _)
    | (cases isNext; exact Nat.le_succ _)

theorem mem_of_scan?_closes {stop : Char → Bool} {scan after : Scan} {text : Text}
    (isScanned : scan? stop scan text = some after) (closes : after.braceDepth < scan.braceDepth) :
    '}' ∈ text := by
  fun_induction scan? stop scan text with
  | case1 scan =>
    cases isScanned
    exact absurd closes (Nat.lt_irrefl _)
  | case2 scan char rest isStop => cases isScanned
  | case3 scan char rest notStop next isNext ih =>
    by_cases isClosing : char = '}'
    · rw [isClosing]
      exact mem_cons_self
    · have isDeeper := Scan.next_braceDepth isNext isClosing
      exact mem_cons_of_mem _
        (ih isScanned (Nat.lt_of_lt_of_le closes isDeeper))
  | case4 scan char rest notStop error isNext => cases isScanned

theorem not_opening {text : Text} (isClosed : Closed isSpace ('{' :: text)) (rest : Text) :
    trimSpace ('{' :: text ++ rest) ≠ ['{'] := by
  rw [Closed, scan?_opening _ (by decide) (by decide) rfl] at isClosed
  have isClosing : '}' ∈ text := mem_of_scan?_closes isClosed (Nat.zero_lt_succ 0)
  have isKept : '}' ∈ trimSpace ('{' :: text ++ rest) :=
    mem_trimSpace (List.mem_append_left _ (mem_cons_of_mem _ isClosing)) (by decide)
  intro isOpening
  rw [isOpening] at isKept
  exact absurd isKept (by decide)

theorem splitTokensFrom_cons {scan after : Scan} {current : Text} {char : Char} (rest : Text)
    (notOpening : current ≠ [] ∨ char ≠ '{' ∨ trimSpace (char :: rest) ≠ ['{'])
    (notSpace : (scan.atTop && isSpace char) = false) (isNext : scan.next char = .ok after) :
    splitTokensFrom scan current (char :: rest) =
      splitTokensFrom after (current ++ [char]) rest := by
  have notOpens : ¬(scan.atTop && current = [] && char = '{' &&
      trimSpace (char :: rest) = ['{']) = true := by
    simp only [Bool.and_eq_true, decide_eq_true_eq]
    rintro ⟨⟨⟨_, isEmpty⟩, isBrace⟩, isOpening⟩
    rcases notOpening with notEmpty | notBrace | notOpening
    · exact notEmpty isEmpty
    · exact notBrace isBrace
    · exact notOpening isOpening
  rw [splitTokensFrom, if_neg notOpens, notSpace, if_neg Bool.false_ne_true, isNext]
  rfl

theorem splitTokensFrom_scan {after : Scan} {current : Text}
    (isScanned : scan? isSpace scan text = some after) (hasBegun : current ≠ []) (rest : Text) :
    splitTokensFrom scan current (text ++ rest) = splitTokensFrom after (current ++ text) rest := by
  fun_induction scan? isSpace scan text generalizing current with
  | case1 scan =>
    cases isScanned
    rw [append_nil, nil_append]
  | case2 scan char text isStop => cases isScanned
  | case3 scan char text notStop next isNext ih =>
    have notSpace := (Bool.or_eq_false_iff.mp (eq_false_iff.mpr notStop)).1
    rw [cons_append, splitTokensFrom_cons _ (.inl hasBegun) notSpace isNext,
      ih isScanned (List.append_ne_nil_of_right_ne_nil _ (cons_ne_nil _ _)),
      append_assoc, singleton_append]
  | case4 scan char text notStop error isNext => cases isScanned

/-- What the scanner takes as one token. -/
structure IsToken (token : Text) : Prop where
  notEmpty : token ≠ []
  isClosed : Closed isSpace token

theorem splitTokensFrom_token {token : Text} (isToken : IsToken token) (rest : Text) :
    splitTokensFrom .start [] (token ++ rest) = splitTokensFrom .start token rest := by
  obtain ⟨notEmpty, isClosed⟩ := isToken
  cases token with
  | nil => exact absurd rfl notEmpty
  | cons char text =>
    have notOpening : ([] : Text) ≠ [] ∨ char ≠ '{' ∨
        trimSpace (char :: (text ++ rest)) ≠ ['{'] := by
      by_cases isBrace : char = '{'
      · subst isBrace
        exact .inr (.inr (not_opening isClosed rest))
      · exact .inr (.inl isBrace)
    rw [Closed, scan?] at isClosed
    split at isClosed
    · cases isClosed
    · rename_i notStop
      have notSpace := (Bool.or_eq_false_iff.mp (eq_false_iff.mpr notStop)).1
      split at isClosed
      · rename_i after isNext
        rw [cons_append, splitTokensFrom_cons _ notOpening notSpace isNext,
          splitTokensFrom_scan isClosed
            (List.append_ne_nil_of_right_ne_nil _ (cons_ne_nil _ _))]
        rfl
      · cases isClosed

theorem splitTokens_token {token : Text} (isToken : IsToken token) :
    splitTokens token = .ok [token] := by
  have isSplit := splitTokensFrom_token isToken []
  rw [append_nil] at isSplit
  rw [splitTokens, isSplit, splitTokensFrom, if_neg isToken.notEmpty]
  rfl

theorem splitTokens_joined {tokens : List Text} {last : Text}
    (areTokens : ∀ token ∈ tokens, IsToken token) (isLast : splitTokens last = .ok [last]) :
    splitTokens ([' '].intercalate (tokens ++ [last])) = .ok (tokens ++ [last]) := by
  induction tokens with
  | nil => rwa [nil_append, List.intercalate_singleton]
  | cons token tokens ih =>
    have later := ih fun token isLater =>
      areTokens token (mem_cons_of_mem _ isLater)
    have isToken := areTokens token mem_cons_self
    have notLast : tokens ++ [last] ≠ [] :=
      List.append_ne_nil_of_right_ne_nil _ (cons_ne_nil _ _)
    rw [splitTokens] at later
    rw [cons_append, List.intercalate_cons_of_ne_nil notLast, append_assoc, splitTokens,
      splitTokensFrom_token isToken, singleton_append]
    generalize [' '].intercalate (tokens ++ [last]) = rest at later
    show (if (Scan.atTop .start && token = [] && _ && _) = true then _ else if
      (Scan.atTop .start && isSpace ' ') = true then _ else _) = _
    rw [if_neg (by simp [isToken.notEmpty]), if_pos (by decide), if_neg isToken.notEmpty, later]
    rfl

theorem splitDelimitedFrom_scan {delim : Char} {after : Scan}
    (isScanned : scan? (· = delim) scan text = some after) (current rest : Text) :
    splitDelimitedFrom delim scan current (text ++ rest) =
      splitDelimitedFrom delim after (current ++ text) rest := by
  fun_induction scan? (fun char => decide (char = delim)) scan text generalizing current with
  | case1 scan =>
    cases isScanned
    rw [append_nil, nil_append]
  | case2 scan char text isStop => cases isScanned
  | case3 scan char text notStop next isNext ih =>
    have notDelim := (Bool.or_eq_false_iff.mp (eq_false_iff.mpr notStop)).1
    rw [cons_append, splitDelimitedFrom, notDelim, if_neg Bool.false_ne_true, isNext]
    show splitDelimitedFrom delim next (current ++ [char]) (text ++ rest) = _
    rw [ih isScanned, append_assoc, singleton_append]
  | case4 scan char text notStop error isNext => cases isScanned

/-- What is taken as one part between such characters. -/
structure IsPart (delim : Char) (part : Text) : Prop where
  notEmpty : part ≠ []
  isTrimmed : trimSpace part = part
  isClosed : Closed (· = delim) part

theorem IsPart.flush {delim : Char} {part : Text} (isPart : IsPart delim part) :
    flush part = .ok part := by
  rw [Dsl.flush, isPart.isTrimmed, if_neg isPart.notEmpty]

theorem splitDelimited_joined {delim : Char} {parts : List Text} (notNone : parts ≠ [])
    (areParts : ∀ part ∈ parts, IsPart delim part) :
    splitDelimited ([delim].intercalate parts) delim = .ok parts := by
  induction parts with
  | nil => exact absurd rfl notNone
  | cons part parts ih =>
    have isPart := areParts part mem_cons_self
    rw [splitDelimited] at ih ⊢
    cases parts with
    | nil =>
      have isScanned := splitDelimitedFrom_scan isPart.isClosed [] []
      rw [append_nil] at isScanned
      rw [List.intercalate_singleton, isScanned, nil_append]
      show (flush part).map _ = _
      rw [isPart.flush]
      rfl
    | cons next parts =>
      have later := ih (cons_ne_nil _ _) fun part isLater =>
        areParts part (mem_cons_of_mem _ isLater)
      rw [List.intercalate_cons_cons, append_assoc,
        splitDelimitedFrom_scan isPart.isClosed, nil_append, singleton_append,
        splitDelimitedFrom, if_pos (by simp [Scan.atTop, Scan.start]), isPart.flush]
      show (splitDelimitedFrom delim .start [] _).map _ = _
      rw [later]
      rfl

end AiTools.Webform.Dsl
