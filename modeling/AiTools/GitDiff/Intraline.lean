import Mathlib

/-!
Contract: the highlights inside of changed lines (`intraline.ts`).

Owns:
- the groups of a hunk, with the lines of a removal paired with those of an addition;
- the two highlighters: what is shared at both ends, and the table over the tokens;
- `highlighted`, for the lines of any hunk.

A text is its UTF-16 code units.
-/

namespace AiTools.GitDiff.Intraline

open List (append_assoc append_nil drop_eq_getElem_cons drop_zero length_nil length_tails map_cons
  map_nil mem_map take_take)

abbrev Text := List UInt16

inductive GroupType where
  | add
  | remove
  | context
deriving DecidableEq

structure DiffLine where
  type : GroupType
  content : Text

structure RawGroup where
  type : GroupType
  lines : List DiffLine

structure HighlightSegment where
  text : Text
  emphasis : Bool

structure HighlightedLine where
  line : DiffLine
  segments : List HighlightSegment

structure HighlightedGroup where
  type : GroupType
  lines : List HighlightedLine

inductive HighlightedBlock where
  | group (group : HighlightedGroup)
  | paired (remove add : HighlightedGroup)

def maxTokenDiffLineLength : Nat := 300

def maxTokenCount : Nat := 80

def plainSegments (text : Text) : List HighlightSegment := [⟨text, false⟩]

def pushSegment (segments : List HighlightSegment) (text : Text) (emphasis : Bool) :
    List HighlightSegment :=
  if text = [] then segments
  else
    match segments.getLast? with
    | some last =>
      if last.emphasis = emphasis then segments.dropLast ++ [⟨last.text ++ text, emphasis⟩]
      else segments ++ [⟨text, emphasis⟩]
    | none => segments ++ [⟨text, emphasis⟩]

def orPlain (segments : List HighlightSegment) (input : Text) : List HighlightSegment :=
  if segments = [] then plainSegments input else segments

def buildSegmentsFromSlices (input : Text) (prefixLength suffixLength : Nat) :
    List HighlightSegment :=
  let suffixStart := input.length - suffixLength
  let start := pushSegment [] (input.take prefixLength) false
  let middle := pushSegment start ((input.take suffixStart).drop prefixLength) true
  orPlain (pushSegment middle (input.drop suffixStart) false) input

def buildSegmentsFromTokens (tokens : List Text) (matchedIndices : List Nat) :
    List HighlightSegment :=
  orPlain (tokens.zipIdx.foldl (fun segments token =>
    pushSegment segments token.1 (!matchedIndices.contains token.2)) []) tokens.flatten

def sharedPrefixLength : Text → Text → Nat
  | first :: left, second :: right =>
    if first = second then sharedPrefixLength left right + 1 else 0
  | _, _ => 0

/-- The loop compares from the end. -/
def sharedSuffixLength (left right : Text) (prefixLength : Nat) : Nat :=
  let maxSuffix := min (left.length - prefixLength) (right.length - prefixLength)
  sharedPrefixLength (left.reverse.take maxSuffix) (right.reverse.take maxSuffix)

structure PairHighlight where
  remove : List HighlightSegment
  add : List HighlightSegment

/-- A fifth of the length is compared without fractions. -/
def buildPrefixSuffixHighlight (removeBody addBody : Text) : Option PairHighlight :=
  let prefixLength := sharedPrefixLength removeBody addBody
  let suffixLength := sharedSuffixLength removeBody addBody prefixLength
  let sharedLength := prefixLength + suffixLength
  let maxLength := max removeBody.length addBody.length
  if sharedLength = 0 then none
  else if sharedLength < 3 ∧ 5 * sharedLength ≤ max maxLength 1 then none
  else
    some ⟨buildSegmentsFromSlices removeBody prefixLength suffixLength,
      buildSegmentsFromSlices addBody prefixLength suffixLength⟩

inductive TokenClass where
  | space
  | mark
  | other
deriving DecidableEq

/-- `\s`. -/
def isSpace (unit : UInt16) : Bool :=
  (9 ≤ unit && unit ≤ 13) || (0x2000 ≤ unit && unit ≤ 0x200a) ||
    [0x20, 0xa0, 0x1680, 0x2028, 0x2029, 0x202f, 0x205f, 0x3000, 0xfeff].contains unit

/-- The characters of `TOKEN_SPLIT_RE` beside spaces. -/
def isMark (unit : UInt16) : Bool :=
  ("()[]\x7b\x7d.,;:+-*/=!<>|&%^~?".toList.map fun char => char.val.toUInt16).contains unit

def tokenClass (unit : UInt16) : TokenClass :=
  if isSpace unit then .space else if isMark unit then .mark else .other

/-- The separators are kept, so a token is a longest run of one class. -/
def tokenize (input : Text) : List Text :=
  input.splitBy fun first second => tokenClass first = tokenClass second

/-- A row of the table, from its last column; `below` is the row after it, from the column on. -/
def matrixRow (token : Text) : List Text → List Nat → List Nat
  | [], _ => [0]
  | other :: rest, below =>
    let row := matrixRow token rest below.tail
    (if token = other then below.tail.headD 0 + 1 else max (below.headD 0) (row.headD 0)) :: row

def matrix : List Text → List Text → List (List Nat)
  | [], right => [List.replicate (right.length + 1) 0]
  | token :: left, right =>
    matrixRow token right ((matrix left right).headD []) :: matrix left right

def cell (table : List (List Nat)) (leftIndex rightIndex : Nat) : Nat :=
  (table.getD leftIndex []).getD rightIndex 0

/-- The walk through the table. -/
def pairsFrom (left right : List Text) (table : List (List Nat)) (leftIndex rightIndex : Nat) :
    List (Nat × Nat) :=
  if isInside : leftIndex < left.length ∧ rightIndex < right.length then
    if left[leftIndex] = right[rightIndex] then
      (leftIndex, rightIndex) :: pairsFrom left right table (leftIndex + 1) (rightIndex + 1)
    else if cell table leftIndex (rightIndex + 1) ≤ cell table (leftIndex + 1) rightIndex then
      pairsFrom left right table (leftIndex + 1) rightIndex
    else pairsFrom left right table leftIndex (rightIndex + 1)
  else []
termination_by (left.length - leftIndex) + (right.length - rightIndex)

def longestCommonSubsequence (left right : List Text) : List (Nat × Nat) :=
  pairsFrom left right (matrix left right) 0 0

def visibleChars (left : List Text) (pairs : List (Nat × Nat)) : Nat :=
  (pairs.map fun pair => ((left.getD pair.1 []).filter (!isSpace ·)).length).sum

def buildTokenHighlight (removeBody addBody : Text) : Option PairHighlight :=
  if removeBody.length > maxTokenDiffLineLength ∨
      addBody.length > maxTokenDiffLineLength then none
  else
    let removeTokens := tokenize removeBody
    let addTokens := tokenize addBody
    if removeTokens = [] ∨ addTokens = [] ∨ removeTokens.length > maxTokenCount ∨
        addTokens.length > maxTokenCount then none
    else
      let pairs := longestCommonSubsequence removeTokens addTokens
      if visibleChars removeTokens pairs < 3 ∨ pairs = [] then none
      else
        some ⟨buildSegmentsFromTokens removeTokens (pairs.map Prod.fst),
          buildSegmentsFromTokens addTokens (pairs.map Prod.snd)⟩

/-- `(\r?\n)$`. -/
def splitLineEnding (content : Text) : Text × Text :=
  if [0x0d, 0x0a].isSuffixOf content then (content.take (content.length - 2), [0x0d, 0x0a])
  else if [0x0a].isSuffixOf content then (content.take (content.length - 1), [0x0a])
  else (content, [])

def appendLineEnding (segments : List HighlightSegment) (ending : Text) : List HighlightSegment :=
  if ending = [] then segments else segments ++ [⟨ending, false⟩]

def buildLinePairHighlight (removeContent addContent : Text) : Option PairHighlight :=
  let removeParts := splitLineEnding removeContent
  let addParts := splitLineEnding addContent
  if removeParts.1 = addParts.1 then none
  else
    ((buildPrefixSuffixHighlight removeParts.1 addParts.1).or
      (buildTokenHighlight removeParts.1 addParts.1)).map fun path =>
        ⟨appendLineEnding path.remove removeParts.2, appendLineEnding path.add addParts.2⟩

def plainLine (line : DiffLine) : HighlightedLine := ⟨line, plainSegments line.content⟩

/-- A line with its highlight, or plain. -/
def shownLine (line : DiffLine) (highlight : Option (List HighlightSegment)) : HighlightedLine :=
  ⟨line, highlight.getD (plainSegments line.content)⟩

/-- The lines that have no other side stay plain. -/
def sideLines (shown : DiffLine → DiffLine → HighlightedLine) (lines others : List DiffLine) :
    List HighlightedLine :=
  List.zipWith shown lines others ++ (lines.drop others.length).map plainLine

def removeSide (remove add : DiffLine) : HighlightedLine :=
  shownLine remove ((buildLinePairHighlight remove.content add.content).map PairHighlight.remove)

def addSide (add remove : DiffLine) : HighlightedLine :=
  shownLine add ((buildLinePairHighlight remove.content add.content).map PairHighlight.add)

def buildPairedGroups (removeLines addLines : List DiffLine) :
    List HighlightedLine × List HighlightedLine :=
  (sideLines removeSide removeLines addLines, sideLines addSide addLines removeLines)

def addLine (groups : List RawGroup) (line : DiffLine) : List RawGroup :=
  match groups.getLast? with
  | some last =>
    if last.type = line.type then groups.dropLast ++ [{ last with lines := last.lines ++ [line] }]
    else groups ++ [⟨line.type, [line]⟩]
  | none => groups ++ [⟨line.type, [line]⟩]

def groupLines (lines : List DiffLine) : List RawGroup := lines.foldl addLine []

def blocksOf : List RawGroup → List HighlightedBlock
  | [] => []
  | [current] => [.group ⟨current.type, current.lines.map plainLine⟩]
  | current :: next :: rest =>
    if current.type = .remove ∧ next.type = .add then
      let paired := buildPairedGroups current.lines next.lines
      .paired ⟨.remove, paired.1⟩ ⟨.add, paired.2⟩ :: blocksOf rest
    else .group ⟨current.type, current.lines.map plainLine⟩ :: blocksOf (next :: rest)

def buildHighlightedBlocks (lines : List DiffLine) : List HighlightedBlock :=
  blocksOf (groupLines lines)

/-! ## The property -/

def textWhere (shows : Bool → Bool) (segments : List HighlightSegment) : Text :=
  (segments.filter (shows ·.emphasis)).flatMap HighlightSegment.text

def textOf : List HighlightSegment → Text := textWhere fun _ => true

def unemphasised : List HighlightSegment → Text := textWhere (!·)

def HighlightedBlock.lines : HighlightedBlock → List HighlightedLine
  | .group shown => shown.lines
  | .paired remove add => remove.lines ++ add.lines

/-- What both sides share. -/
inductive Shared (removeBody addBody : Text) : Text → Prop where
  | ends {start removed added finish : Text} (isRemove : removeBody = start ++ removed ++ finish)
      (isAdd : addBody = start ++ added ++ finish) : Shared removeBody addBody (start ++ finish)
  | tokens {tokens : List Text} (inRemove : tokens.Sublist (tokenize removeBody))
      (inAdd : tokens.Sublist (tokenize addBody))
      (isLongest : ∀ other : List Text, other.Sublist (tokenize removeBody) →
        other.Sublist (tokenize addBody) → other.length ≤ tokens.length) :
      Shared removeBody addBody tokens.flatten

/-- The highlights of two bodies. -/
structure Agrees (removeBody addBody : Text) (pair : PairHighlight) : Prop where
  remove : textOf pair.remove = removeBody
  add : textOf pair.add = addBody
  shared : ∃ shared, unemphasised pair.remove = shared ∧ unemphasised pair.add = shared ∧
    Shared removeBody addBody shared

/-- Both lines are plain, or highlighted before their line endings. -/
def Paired (remove add : HighlightedLine) : Prop :=
  (remove = plainLine remove.line ∧ add = plainLine add.line) ∨
  ∃ pair, Agrees (splitLineEnding remove.line.content).1 (splitLineEnding add.line.content).1 pair ∧
    remove.segments = appendLineEnding pair.remove (splitLineEnding remove.line.content).2 ∧
    add.segments = appendLineEnding pair.add (splitLineEnding add.line.content).2

structure Highlighted (lines : List DiffLine) (blocks : List HighlightedBlock) : Prop where
  emitted : (blocks.flatMap HighlightedBlock.lines).map HighlightedLine.line = lines
  texts : ∀ shown ∈ blocks.flatMap HighlightedBlock.lines,
    textOf shown.segments = shown.line.content
  pairs : ∀ (remove add : HighlightedGroup), .paired remove add ∈ blocks →
    ∀ (index : Nat) removed added,
      remove.lines[index]? = some removed → add.lines[index]? = some added → Paired removed added

/-! ## Segments -/

variable {shows : Bool → Bool} {segments : List HighlightSegment} {input : Text}

theorem textWhere_append (first second : List HighlightSegment) :
    textWhere shows (first ++ second) = textWhere shows first ++ textWhere shows second := by
  simp [textWhere]

theorem textWhere_single (text : Text) (emphasis : Bool) :
    textWhere shows [⟨text, emphasis⟩] = if shows emphasis then text else [] := by
  cases isShown : shows emphasis <;> simp [textWhere, isShown]

theorem textWhere_pushSegment (segments : List HighlightSegment) (text : Text) (emphasis : Bool) :
    textWhere shows (pushSegment segments text emphasis) =
      textWhere shows segments ++ if shows emphasis then text else [] := by
  unfold pushSegment
  by_cases isNil : text = []
  · simp [isNil]
  rw [if_neg isNil]
  obtain rfl | ⟨front, last, rfl⟩ := List.eq_nil_or_concat segments
  · exact textWhere_single text emphasis
  simp only [List.concat_eq_append, List.getLast?_concat, List.dropLast_concat]
  split
  · next isSame =>
    obtain ⟨lastText, lastEmphasis⟩ := last
    obtain rfl : lastEmphasis = emphasis := isSame
    simp only [textWhere_append, textWhere_single, append_assoc]
    split <;> rfl
  · rw [textWhere_append, textWhere_single]

theorem textWhere_orPlain (isText : textOf segments = input) :
    textWhere shows (orPlain segments input) = textWhere shows segments := by
  unfold orPlain
  split
  · next isNil =>
    subst isNil isText
    exact (textWhere_single [] false).trans (ite_self _)
  · rfl

theorem textWhere_slices (start middle finish : Text) :
    textWhere shows
        (buildSegmentsFromSlices (start ++ middle ++ finish) start.length finish.length) =
      (if shows false then start else []) ++ (if shows true then middle else []) ++
        if shows false then finish else [] := by
  have isEnd : (start ++ middle ++ finish).length - finish.length = (start ++ middle).length := by
    rw [List.length_append, Nat.add_sub_cancel]
  have isStart : (start ++ middle ++ finish).take start.length = start := by
    rw [append_assoc, List.take_left]
  have shown (shows : Bool → Bool) : textWhere shows
      (pushSegment (pushSegment (pushSegment [] start false) middle true) finish false) =
        (if shows false then start else []) ++ (if shows true then middle else []) ++
          if shows false then finish else [] := by
    simp only [textWhere_pushSegment]
    rfl
  have isText : textOf (pushSegment (pushSegment (pushSegment [] start false) middle true)
      finish false) = start ++ middle ++ finish := shown fun _ => true
  unfold buildSegmentsFromSlices
  simp only [isEnd, isStart, List.take_left, List.drop_left]
  rw [textWhere_orPlain isText, shown]

theorem textWhere_foldl (matched : List Nat) (tokens : List (Text × Nat))
    (segments : List HighlightSegment) :
    textWhere shows (tokens.foldl (fun segments token =>
        pushSegment segments token.1 (!matched.contains token.2)) segments) =
      textWhere shows segments ++
        (tokens.filter fun token => shows (!matched.contains token.2)).flatMap Prod.fst := by
  induction tokens generalizing segments with
  | nil => simp
  | cons token tokens ih =>
    rw [List.foldl_cons, ih, textWhere_pushSegment, List.filter_cons]
    split <;> simp

/-- The tokens that are matched, when the first one has the index `base`. -/
def kept (matched : List Nat) (tokens : List Text) (base : Nat) : List Text :=
  ((tokens.zipIdx base).filter fun token => matched.contains token.2).map Prod.fst

theorem textWhere_tokens (tokens : List Text) (matched : List Nat) :
    textOf (buildSegmentsFromTokens tokens matched) = tokens.flatten ∧
      unemphasised (buildSegmentsFromTokens tokens matched) =
        (kept matched tokens 0).flatten := by
  have isText : textOf (tokens.zipIdx.foldl (fun segments token =>
      pushSegment segments token.1 (!matched.contains token.2)) []) = tokens.flatten := by
    unfold textOf
    rw [textWhere_foldl, List.filter_true, List.flatMap_def, List.zipIdx_map_fst]
    rfl
  refine ⟨(textWhere_orPlain isText).trans isText, (textWhere_orPlain isText).trans ?_⟩
  rw [textWhere_foldl]
  simp [kept, textWhere, List.flatMap_def]

/-! ## What both ends share -/

theorem sharedPrefixLength_spec (left right : Text) :
    left.take (sharedPrefixLength left right) = right.take (sharedPrefixLength left right) ∧
      sharedPrefixLength left right ≤ left.length ∧
      sharedPrefixLength left right ≤ right.length := by
  fun_induction sharedPrefixLength left right with
  | case1 first left right isShared => simpa using isShared
  | case2 => simp
  | case3 => simp

theorem cut_eq {body : Text} {prefixLength suffixLength : Nat}
    (isWithin : prefixLength + suffixLength ≤ body.length) :
    body.take prefixLength ++ (body.take (body.length - suffixLength)).drop prefixLength ++
      body.drop (body.length - suffixLength) = body := by
  have isTake : body.take prefixLength =
      (body.take (body.length - suffixLength)).take prefixLength := by
    rw [take_take, Nat.min_eq_left (by omega)]
  rw [isTake, List.take_append_drop, List.take_append_drop]

theorem shared_ends (removeBody addBody : Text) : ∃ start removed added finish,
    removeBody = start ++ removed ++ finish ∧ addBody = start ++ added ++ finish ∧
      start.length = sharedPrefixLength removeBody addBody ∧ finish.length =
        sharedSuffixLength removeBody addBody (sharedPrefixLength removeBody addBody) := by
  obtain ⟨isStart, isRemove, isAdd⟩ := sharedPrefixLength_spec removeBody addBody
  generalize sharedPrefixLength removeBody addBody = prefixLength at *
  unfold sharedSuffixLength
  simp only
  generalize isMax : min (removeBody.length - prefixLength) (addBody.length - prefixLength) =
    maxSuffix
  have isSuffix := sharedPrefixLength_spec (removeBody.reverse.take maxSuffix)
    (addBody.reverse.take maxSuffix)
  generalize sharedPrefixLength (removeBody.reverse.take _) _ = suffixLength at *
  obtain ⟨isFinish, inRemove, inAdd⟩ := isSuffix
  rw [List.length_take, List.length_reverse] at inRemove inAdd
  rw [take_take, take_take, Nat.min_eq_left (by omega), List.take_reverse,
    List.take_reverse, List.reverse_inj] at isFinish
  refine ⟨removeBody.take prefixLength, _,
    (addBody.take (addBody.length - suffixLength)).drop prefixLength,
    removeBody.drop (removeBody.length - suffixLength), (cut_eq (by omega)).symm, ?_,
    List.length_take_of_le isRemove, ?_⟩
  · rw [isStart, isFinish]
    exact (cut_eq (by omega)).symm
  · rw [List.length_drop]
    omega

variable {removeBody addBody : Text} {pair : PairHighlight}

theorem prefixSuffix_agrees (isPair : buildPrefixSuffixHighlight removeBody addBody = some pair) :
    Agrees removeBody addBody pair := by
  obtain ⟨start, removed, added, finish, isRemove, isAdd, isStart, isFinish⟩ :=
    shared_ends removeBody addBody
  unfold buildPrefixSuffixHighlight at isPair
  simp only [← isFinish] at isPair
  rw [← isStart] at isPair
  split at isPair <;> try split at isPair
  · cases isPair
  · cases isPair
  cases isPair
  subst isRemove isAdd
  exact ⟨textWhere_slices .., textWhere_slices .., start ++ finish,
    (textWhere_slices ..).trans (by simp), (textWhere_slices ..).trans (by simp), .ends rfl rfl⟩

/-! ## The table -/

def lcs : List Text → List Text → Nat
  | [], _ => 0
  | _ :: _, [] => 0
  | first :: left, second :: right =>
    if first = second then lcs left right + 1
    else max (lcs left (second :: right)) (lcs (first :: left) right)
termination_by left right => left.length + right.length

theorem lcs_nil (left : List Text) : lcs left [] = 0 := by
  cases left <;> simp [lcs]

theorem lcs_longest (left right other : List Text) (inLeft : other.Sublist left)
    (inRight : other.Sublist right) : other.length ≤ lcs left right := by
  fun_induction lcs left right generalizing other with
  | case1 => rw [List.sublist_nil.mp inLeft, length_nil]
  | case2 => rw [List.sublist_nil.mp inRight, length_nil]
  | case3 first left right ih =>
    cases other with
    | nil => exact Nat.zero_le _
    | cons token other =>
      exact Nat.succ_le_succ (ih other inLeft.of_cons_cons inRight.of_cons_cons)
  | case4 first left second right isOther ihLeft ihRight =>
    cases other with
    | nil => exact Nat.zero_le _
    | cons token other =>
      by_cases isFirst : token = first
      · have inRest := List.Sublist.of_cons_of_ne (isFirst ▸ isOther) inRight
        exact (ihRight _ inLeft inRest).trans (Nat.le_max_right _ _)
      · exact (ihLeft _ (inLeft.of_cons_of_ne isFirst) inRight).trans (Nat.le_max_left _ _)

theorem headD_tails {α : Type} (f : List Text → α) (tokens : List Text) (other : α) :
    (tokens.tails.map f).headD other = f tokens := by
  cases tokens <;> rfl

theorem matrixRow_eq (token : Text) (left right : List Text) :
    matrixRow token right (right.tails.map (lcs left)) =
      right.tails.map (lcs (token :: left)) := by
  induction right with
  | nil => simp [matrixRow, lcs]
  | cons other right ih =>
    simp only [matrixRow, List.tails_cons, map_cons, List.tail_cons, List.headD_cons, ih,
      headD_tails]
    rw [show lcs (token :: left) (other :: right) = _ by rw [lcs]]

theorem matrix_eq (left right : List Text) :
    matrix left right = left.tails.map fun tokens => right.tails.map (lcs tokens) := by
  induction left with
  | nil =>
    have isZero : lcs [] = fun _ => 0 := funext fun _ => by rw [lcs]
    simp [matrix, isZero, List.map_const', length_tails]
  | cons token left ih =>
    rw [matrix, ih, headD_tails, matrixRow_eq]
    rfl

theorem cell_eq {left right : List Text} {leftIndex rightIndex : Nat}
    (inLeft : leftIndex ≤ left.length) (inRight : rightIndex ≤ right.length) :
    cell (matrix left right) leftIndex rightIndex =
      lcs (left.drop leftIndex) (right.drop rightIndex) := by
  have atLeft : leftIndex < left.tails.length := by rw [length_tails]; omega
  have atRight : rightIndex < right.tails.length := by rw [length_tails]; omega
  simp [cell, matrix_eq, List.getD_eq_getElem?_getD, List.getElem?_eq_getElem atLeft,
    List.getElem?_eq_getElem atRight, List.getElem_tails]

/-! ## The walk -/

theorem kept_nil (tokens : List Text) (base : Nat) : kept [] tokens base = [] := by
  simp [kept]

theorem kept_take (matched : List Nat) (token : Text) (tokens : List Text) (base : Nat) :
    kept (base :: matched) (token :: tokens) base = token :: kept matched tokens (base + 1) := by
  have isSame : (tokens.zipIdx (base + 1)).filter (fun token =>
      (base :: matched).contains token.2) =
        (tokens.zipIdx (base + 1)).filter fun token => matched.contains token.2 := by
    refine List.filter_congr fun entry isEntry => ?_
    have isLater := List.le_snd_of_mem_zipIdx isEntry
    rw [List.contains_cons, beq_false_of_ne (by omega), Bool.false_or]
  unfold kept
  rw [List.zipIdx_cons, List.filter_cons_of_pos (by simp), isSame, map_cons]

theorem kept_skip {matched : List Nat} {base : Nat} (areLater : ∀ index ∈ matched, base < index)
    (token : Text) (tokens : List Text) :
    kept matched (token :: tokens) base = kept matched tokens (base + 1) := by
  have isAbsent : ¬matched.contains base = true := fun isIn =>
    Nat.lt_irrefl _ (areLater _ (List.contains_iff_mem.mp isIn))
  unfold kept
  rw [List.zipIdx_cons]
  exact congrArg (List.map Prod.fst) (List.filter_cons_of_neg isAbsent)

theorem kept_sublist (matched : List Nat) (tokens : List Text) (base : Nat) :
    (kept matched tokens base).Sublist tokens := by
  have isSublist := (List.filter_sublist (p := fun token => matched.contains token.2)
    (l := tokens.zipIdx base)).map Prod.fst
  rwa [List.zipIdx_map_fst] at isSublist

variable {left right : List Text} {leftIndex rightIndex : Nat}

theorem pairsFrom_ge (table : List (List Nat)) :
    ∀ pair ∈ pairsFrom left right table leftIndex rightIndex,
      leftIndex ≤ pair.1 ∧ rightIndex ≤ pair.2 := by
  fun_induction pairsFrom left right table leftIndex rightIndex with
  | case1 leftIndex rightIndex _ _ ih =>
    intro pair isPair
    obtain rfl | isPair := List.mem_cons.mp isPair
    · exact ⟨Nat.le_refl _, Nat.le_refl _⟩
    · have := ih pair isPair
      omega
  | case2 leftIndex rightIndex _ _ _ ih =>
    intro pair isPair
    have := ih pair isPair
    omega
  | case3 leftIndex rightIndex _ _ _ ih =>
    intro pair isPair
    have := ih pair isPair
    omega
  | case4 => simp

theorem pairsFrom_spec :
    let pairs := pairsFrom left right (matrix left right) leftIndex rightIndex
    kept (pairs.map Prod.fst) (left.drop leftIndex) leftIndex =
        kept (pairs.map Prod.snd) (right.drop rightIndex) rightIndex ∧
      (kept (pairs.map Prod.fst) (left.drop leftIndex) leftIndex).length =
        lcs (left.drop leftIndex) (right.drop rightIndex) := by
  intro pairs
  unfold pairs
  clear pairs
  fun_induction pairsFrom left right (matrix left right) leftIndex rightIndex with
  | case1 leftIndex rightIndex isInside isSame ih =>
    rw [drop_eq_getElem_cons isInside.1, drop_eq_getElem_cons isInside.2, lcs,
      if_pos isSame, map_cons, map_cons, kept_take, kept_take, isSame, ih.1]
    exact ⟨rfl, congrArg (· + 1) (ih.1 ▸ ih.2)⟩
  | case2 leftIndex rightIndex isInside isOther isLess ih =>
    rw [cell_eq (by omega) (by omega), cell_eq (by omega) (by omega)] at isLess
    have areLater : ∀ index ∈ (pairsFrom left right (matrix left right) (leftIndex + 1)
        rightIndex).map Prod.fst, leftIndex < index := by
      intro index isIndex
      obtain ⟨pair, isPair, rfl⟩ := mem_map.mp isIndex
      exact (pairsFrom_ge _ pair isPair).1
    rw [drop_eq_getElem_cons isInside.1, kept_skip areLater, ih.2]
    refine ⟨ih.1, ?_⟩
    rw [drop_eq_getElem_cons isInside.2, lcs, if_neg isOther,
      ← drop_eq_getElem_cons isInside.1, ← drop_eq_getElem_cons isInside.2,
      Nat.max_eq_left isLess]
  | case3 leftIndex rightIndex isInside isOther isLess ih =>
    rw [cell_eq (by omega) (by omega), cell_eq (by omega) (by omega)] at isLess
    have areLater : ∀ index ∈ (pairsFrom left right (matrix left right) leftIndex
        (rightIndex + 1)).map Prod.snd, rightIndex < index := by
      intro index isIndex
      obtain ⟨pair, isPair, rfl⟩ := mem_map.mp isIndex
      exact (pairsFrom_ge _ pair isPair).2
    rw [ih.2]
    refine ⟨?_, ?_⟩
    · rw [ih.1, drop_eq_getElem_cons isInside.2, kept_skip areLater]
    · rw [drop_eq_getElem_cons isInside.1, drop_eq_getElem_cons isInside.2, lcs,
        if_neg isOther, ← drop_eq_getElem_cons isInside.1,
        ← drop_eq_getElem_cons isInside.2, Nat.max_eq_right (by omega)]
  | case4 leftIndex rightIndex notInside =>
    refine ⟨by rw [map_nil, kept_nil, map_nil, kept_nil], ?_⟩
    rw [map_nil, kept_nil, length_nil]
    obtain isEnd | isEnd : left.length ≤ leftIndex ∨ right.length ≤ rightIndex := by omega
    · rw [List.drop_of_length_le isEnd, lcs]
    · rw [List.drop_of_length_le isEnd, lcs_nil]

theorem flatten_tokenize (input : Text) : (tokenize input).flatten = input :=
  List.flatten_splitBy _ input

theorem token_agrees (isPair : buildTokenHighlight removeBody addBody = some pair) :
    Agrees removeBody addBody pair := by
  unfold buildTokenHighlight at isPair
  simp only [Option.ite_none_left_eq_some, Option.some.injEq] at isPair
  obtain ⟨_, _, _, rfl⟩ := isPair
  obtain ⟨isSame, isLength⟩ := @pairsFrom_spec (tokenize removeBody) (tokenize addBody) 0 0
  rw [drop_zero, drop_zero] at isSame isLength
  have removeTexts := textWhere_tokens (tokenize removeBody)
    ((longestCommonSubsequence (tokenize removeBody) (tokenize addBody)).map Prod.fst)
  have addTexts := textWhere_tokens (tokenize addBody)
    ((longestCommonSubsequence (tokenize removeBody) (tokenize addBody)).map Prod.snd)
  rw [flatten_tokenize] at removeTexts addTexts
  refine ⟨removeTexts.1, addTexts.1, _, removeTexts.2, ?_, .tokens (kept_sublist ..) ?_ ?_⟩
  · exact addTexts.2.trans (congrArg List.flatten isSame.symm)
  · exact isSame ▸ kept_sublist ..
  · exact fun other inRemove inAdd => (lcs_longest _ _ _ inRemove inAdd).trans_eq isLength.symm

/-! ## Lines -/

theorem splitLineEnding_append (content : Text) :
    (splitLineEnding content).1 ++ (splitLineEnding content).2 = content := by
  unfold splitLineEnding
  split
  · next isSuffix =>
    obtain ⟨front, rfl⟩ := List.isSuffixOf_iff_suffix.mp isSuffix
    simp
  · split
    · next isSuffix =>
      obtain ⟨front, rfl⟩ := List.isSuffixOf_iff_suffix.mp isSuffix
      simp
    · exact append_nil content

theorem textOf_appendLineEnding (segments : List HighlightSegment) (ending : Text) :
    textOf (appendLineEnding segments ending) = textOf segments ++ ending := by
  unfold appendLineEnding
  split
  · next isNil => rw [isNil, append_nil]
  · exact textWhere_append _ _ |>.trans (congrArg _ (textWhere_single ending false))

theorem linePair_agrees {removeContent addContent : Text} {shown : PairHighlight}
    (isPair : buildLinePairHighlight removeContent addContent = some shown) :
    ∃ pair, Agrees (splitLineEnding removeContent).1 (splitLineEnding addContent).1 pair ∧
      shown = ⟨appendLineEnding pair.remove (splitLineEnding removeContent).2,
        appendLineEnding pair.add (splitLineEnding addContent).2⟩ := by
  unfold buildLinePairHighlight at isPair
  simp only [Option.ite_none_left_eq_some, Option.map_eq_some_iff, Option.or_eq_some_iff] at isPair
  obtain ⟨_, pair, isPath, rfl⟩ := isPair
  obtain isPath | ⟨_, isPath⟩ := isPath
  · exact ⟨pair, prefixSuffix_agrees isPath, rfl⟩
  · exact ⟨pair, token_agrees isPath, rfl⟩

theorem text_plainLine (line : DiffLine) : textOf (plainLine line).segments = line.content :=
  textWhere_single line.content false

theorem line_plainLines (lines : List DiffLine) :
    (lines.map plainLine).map HighlightedLine.line = lines := by
  rw [List.map_map]
  exact List.map_id lines

theorem sides_spec (remove add : DiffLine) :
    textOf (removeSide remove add).segments = remove.content ∧
      textOf (addSide add remove).segments = add.content ∧
      Paired (removeSide remove add) (addSide add remove) := by
  unfold removeSide addSide
  cases isShown : buildLinePairHighlight remove.content add.content with
  | none => exact ⟨text_plainLine remove, text_plainLine add, .inl ⟨rfl, rfl⟩⟩
  | some shown =>
    obtain ⟨pair, agrees, rfl⟩ := linePair_agrees isShown
    refine ⟨?_, ?_, .inr ⟨pair, agrees, rfl, rfl⟩⟩
    · exact (textOf_appendLineEnding ..).trans
        ((congrArg (· ++ _) agrees.remove).trans (splitLineEnding_append _))
    · exact (textOf_appendLineEnding ..).trans
        ((congrArg (· ++ _) agrees.add).trans (splitLineEnding_append _))

variable {shown : DiffLine → DiffLine → HighlightedLine}

theorem sideLines_line (isLine : ∀ line other, (shown line other).line = line)
    (lines others : List DiffLine) :
    (sideLines shown lines others).map HighlightedLine.line = lines := by
  induction lines generalizing others with
  | nil => simp [sideLines]
  | cons line lines ih =>
    cases others with
    | nil => exact line_plainLines (line :: lines)
    | cons other others => simpa [sideLines, isLine] using ih others

theorem sideLines_cases {lines others : List DiffLine} {index : Nat} {found : HighlightedLine}
    (isFound : (sideLines shown lines others)[index]? = some found) :
    (∃ line other, lines[index]? = some line ∧ others[index]? = some other ∧
      found = shown line other) ∨ others[index]? = none ∧ ∃ line, found = plainLine line := by
  induction lines generalizing others index with
  | nil => simp [sideLines] at isFound
  | cons line lines ih =>
    cases others with
    | nil =>
      simp only [sideLines, List.zipWith_nil_right, length_nil, drop_zero,
        List.nil_append, List.getElem?_map, Option.map_eq_some_iff] at isFound
      obtain ⟨line, _, isPlain⟩ := isFound
      exact .inr ⟨rfl, line, isPlain.symm⟩
    | cons other others =>
      cases index with
      | zero => exact .inl ⟨line, other, rfl, rfl, (Option.some.inj isFound).symm⟩
      | succ index => exact ih isFound

theorem paired_spec {removeLines addLines : List DiffLine} {index : Nat}
    {removed added : HighlightedLine}
    (isRemoved : (buildPairedGroups removeLines addLines).1[index]? = some removed)
    (isAdded : (buildPairedGroups removeLines addLines).2[index]? = some added) :
    Paired removed added := by
  obtain ⟨remove, add, isRemove, isAdd, rfl⟩ | ⟨noAdd, remove, rfl⟩ := sideLines_cases isRemoved
  · obtain ⟨other, line, isOther, isLine, rfl⟩ | ⟨noRemove, _⟩ := sideLines_cases isAdded
    · cases isRemove.symm.trans isLine
      cases isAdd.symm.trans isOther
      exact (sides_spec remove add).2.2
    · cases isRemove.symm.trans noRemove
  · obtain ⟨other, _, isOther, _⟩ | ⟨_, add, rfl⟩ := sideLines_cases isAdded
    · cases isOther.symm.trans noAdd
    · exact .inl ⟨rfl, rfl⟩

theorem paired_texts {removeLines addLines : List DiffLine} {found : HighlightedLine}
    (isFound : found ∈ (buildPairedGroups removeLines addLines).1 ++
      (buildPairedGroups removeLines addLines).2) : textOf found.segments = found.line.content := by
  obtain isFound | isFound := List.mem_append.mp isFound <;>
  obtain ⟨index, isAt⟩ := List.mem_iff_getElem?.mp isFound <;>
  obtain ⟨line, other, _, _, rfl⟩ | ⟨_, line, rfl⟩ := sideLines_cases isAt
  · exact (sides_spec line other).1
  · exact text_plainLine line
  · exact (sides_spec other line).2.1
  · exact text_plainLine line

/-! ## Groups and blocks -/

theorem lines_addLine (groups : List RawGroup) (line : DiffLine) :
    (addLine groups line).flatMap RawGroup.lines = groups.flatMap RawGroup.lines ++ [line] := by
  unfold addLine
  obtain rfl | ⟨front, last, rfl⟩ := List.eq_nil_or_concat groups
  · rfl
  simp only [List.concat_eq_append, List.getLast?_concat, List.dropLast_concat]
  split <;> simp

theorem lines_groupLines (lines : List DiffLine) :
    (groupLines lines).flatMap RawGroup.lines = lines := by
  have grouped (groups : List RawGroup) : (lines.foldl addLine groups).flatMap RawGroup.lines =
      groups.flatMap RawGroup.lines ++ lines := by
    induction lines generalizing groups with
    | nil => exact (append_nil _).symm
    | cons line lines ih => rw [List.foldl_cons, ih, lines_addLine, append_assoc]; rfl
  exact grouped []

theorem lines_blocksOf (groups : List RawGroup) :
    ((blocksOf groups).flatMap HighlightedBlock.lines).map HighlightedLine.line =
      groups.flatMap RawGroup.lines := by
  fun_induction blocksOf groups with
  | case1 => rfl
  | case2 current => simpa [HighlightedBlock.lines] using line_plainLines current.lines
  | case3 current next rest _ paired ih =>
    have isRemove : paired.1.map HighlightedLine.line = current.lines :=
      sideLines_line (fun _ _ => rfl) _ _
    have isAdd : paired.2.map HighlightedLine.line = next.lines :=
      sideLines_line (fun _ _ => rfl) _ _
    simp only [List.flatMap_cons, HighlightedBlock.lines, List.map_append, ih, append_assoc]
    rw [isRemove, isAdd]
  | case4 current next rest _ ih =>
    rw [List.flatMap_cons, List.map_append, ih]
    exact congrArg (· ++ _) (line_plainLines _)

theorem block_cases (groups : List RawGroup) : ∀ block ∈ blocksOf groups,
    (∃ (type : GroupType) (lines : List DiffLine),
      block = .group ⟨type, lines.map plainLine⟩) ∨
      ∃ removeLines addLines, block = .paired
        ⟨.remove, (buildPairedGroups removeLines addLines).1⟩
        ⟨.add, (buildPairedGroups removeLines addLines).2⟩ := by
  fun_induction blocksOf groups with
  | case1 => exact nofun
  | case2 current => exact fun _ isBlock => .inl ⟨_, _, List.mem_singleton.mp isBlock⟩
  | case3 current next rest _ paired ih =>
    exact List.forall_mem_cons.mpr ⟨.inr ⟨_, _, rfl⟩, ih⟩
  | case4 current next rest _ ih =>
    exact List.forall_mem_cons.mpr ⟨.inl ⟨_, _, rfl⟩, ih⟩

theorem highlighted (lines : List DiffLine) :
    Highlighted lines (buildHighlightedBlocks lines) := by
  refine ⟨(lines_blocksOf _).trans (lines_groupLines lines), fun shown isShown => ?_,
    fun remove add isPaired index removed added isRemoved isAdded => ?_⟩
  · obtain ⟨block, isBlock, isIn⟩ := List.mem_flatMap.mp isShown
    obtain ⟨type, plain, rfl⟩ | ⟨removeLines, addLines, rfl⟩ := block_cases _ _ isBlock
    · obtain ⟨line, _, rfl⟩ := mem_map.mp isIn
      exact text_plainLine line
    · exact paired_texts isIn
  · obtain ⟨type, plain, isGroup⟩ | ⟨removeLines, addLines, isPair⟩ := block_cases _ _ isPaired
    · cases isGroup
    · cases isPair
      exact paired_spec isRemoved isAdded

end AiTools.GitDiff.Intraline
