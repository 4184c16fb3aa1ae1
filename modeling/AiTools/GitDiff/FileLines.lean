import AiTools.Daemon.ModeState.Osc
import Mathlib

/-!
Contract: the lines of a file, counted on its bytes and sliced out of its text.
-/

namespace AiTools.GitDiff.FileLines

open AiTools.Daemon.ModeState
open List (cons_ne_nil mem_cons)
open UInt8 (le_iff_toNat_le toNat_inj)

def countLines (bytes : Bytes) : UInt32 :=
  if bytes = [] then 0
  else
    let newlineCount := UInt32.ofNat (bytes.count 0x0a)
    if bytes.getLast? = some 0x0a then newlineCount else newlineCount + 1

/-- `str::split_inclusive` at line feeds. -/
def splitInclusive : List Char → List (List Char)
  | [] => []
  | char :: rest =>
    if char = '\n' then [char] :: splitInclusive rest
    else
      match splitInclusive rest with
      | [] => [[char]]
      | line :: later => (char :: line) :: later

/-- What `str::lines` takes off a line. A carriage return goes with a line feed only. -/
def stripLineEnd (line : List Char) : List Char :=
  if line.getLast? = some '\n' then
    if line.dropLast.getLast? = some '\r' then line.dropLast.dropLast else line.dropLast
  else line

def lines (text : List Char) : List (List Char) := (splitInclusive text).map stripLineEnd

def decodeLines (bytes : Bytes) : List (List Char) := lines (fromUtf8Lossy bytes)

def sliceLines {Line : Type} (lines : List Line) (startLine lineCount : UInt32) : List Line :=
  if startLine = 0 ∨ lineCount = 0 then []
  else
    let startIndex := (startLine - 1).toNat
    if lines.length ≤ startIndex then []
    else (lines.drop startIndex).take (min (startIndex + lineCount.toNat) lines.length - startIndex)

structure CachedFileContent where
  lineCount : UInt32
  lines : Option (List (List Char))

def countLinesForSource (bytes : Bytes) (cached : Option CachedFileContent) :
    UInt32 × Option CachedFileContent :=
  match cached with
  | some entry => (entry.lineCount, cached)
  | none =>
    let lineCount := countLines bytes
    (lineCount, some ⟨lineCount, none⟩)

def sliceLinesForSource (bytes : Bytes) (cached : Option CachedFileContent)
    (startLine lineCount : UInt32) : List (List Char) × Option CachedFileContent :=
  match cached.bind CachedFileContent.lines with
  | some lines => (sliceLines lines startLine lineCount, cached)
  | none =>
    let lines := decodeLines bytes
    (sliceLines lines startLine lineCount, some ⟨UInt32.ofNat lines.length, some lines⟩)

/-- A use of a source. Its entry can go at any time. -/
inductive Call where
  | count
  | slice (startLine lineCount : UInt32)
  | clear

inductive Answer where
  | count (lineCount : UInt32)
  | slice (lines : List (List Char))
  | cleared

def answer (bytes : Bytes) (cached : Option CachedFileContent) :
    Call → Answer × Option CachedFileContent
  | .count => ((countLinesForSource bytes cached).map .count id)
  | .slice startLine lineCount =>
    (sliceLinesForSource bytes cached startLine lineCount).map .slice id
  | .clear => (.cleared, none)

def answers (bytes : Bytes) : Option CachedFileContent → List Call → List Answer
  | _, [] => []
  | cached, call :: rest =>
    (answer bytes cached call).1 :: answers bytes (answer bytes cached call).2 rest

/-- The slices of consecutive ranges of the given lengths. -/
def slicesFrom {Line : Type} (lines : List Line) : Nat → List Nat → List (List Line)
  | _, [] => []
  | offset, length :: rest =>
    sliceLines lines (UInt32.ofNat (offset + 1)) (UInt32.ofNat length) ::
      slicesFrom lines (offset + length) rest

structure LinesAgree (bytes : Bytes) : Prop where
  count : (countLines bytes).toNat = (decodeLines bytes).length
  slices : ∀ lengths : List Nat, lengths.sum = (countLines bytes).toNat →
    (slicesFrom (decodeLines bytes) 0 lengths).flatten = decodeLines bytes
  cached : ∀ calls, answers bytes none calls = calls.map fun call => (answer bytes none call).1

section
variable {α β : Type}

/-- The segments that are closed by an end, and the rest behind the last one. -/
def segments (isEnd : α → Bool) : List α → Nat
  | [] => 0
  | [_] => 1
  | first :: second :: rest =>
    (if isEnd first then 1 else 0) + segments isEnd (second :: rest)

theorem segments_cons (isEnd : α → Bool) (first : α) {rest : List α} (notNil : rest ≠ []) :
    segments isEnd (first :: rest) = (if isEnd first then 1 else 0) + segments isEnd rest := by
  cases rest with
  | nil => exact absurd rfl notNil
  | cons second later => rfl

theorem segments_append (isEnd : α → Bool) : ∀ {front : List α} (back : List α),
    (∀ item ∈ front, isEnd item = false) → back ≠ [] →
    segments isEnd (front ++ back) = segments isEnd back
  | [], _, _, _ => rfl
  | first :: front, back, noEnd, notNil => by
    rw [List.cons_append, segments_cons isEnd first (List.append_ne_nil_of_right_ne_nil _ notNil),
      noEnd first List.mem_cons_self,
      segments_append isEnd back (fun item isIn => noEnd item (List.mem_cons_of_mem _ isIn))
        notNil]
    exact Nat.zero_add _

theorem segments_noEnd (isEnd : α → Bool) : ∀ {items : List α},
    (∀ item ∈ items.dropLast, isEnd item = false) → items ≠ [] → segments isEnd items = 1
  | [], _, notNil => absurd rfl notNil
  | [_], _, _ => rfl
  | first :: second :: rest, noEnd, _ => by
    rw [segments_cons isEnd first (cons_ne_nil _ _), noEnd first List.mem_cons_self,
      segments_noEnd isEnd (fun item isIn => noEnd item (List.mem_cons_of_mem _ isIn))
        (cons_ne_nil _ _)]
    rfl

end

/-! ## Line ends in bytes and characters -/

variable {byte first second : UInt8} {rest : Bytes} {char : Char} {Line : Type}

theorem isContinuation_ne (isNext : isContinuation byte = true) : byte ≠ 0x0a := by
  rintro rfl
  exact absurd isNext (by decide)

theorem isSecond_ne (isNext : isSecond first byte = true) : byte ≠ 0x0a := by
  rintro rfl
  unfold isSecond at isNext
  split_ifs at isNext <;> exact absurd isNext (by decide)

theorem eq_ten_of_newline {code : Nat} (isNewline : Char.ofNat code = '\n') : code = 10 := by
  have codes := congrArg Char.toNat isNewline
  rw [Char.toNat_ofNat] at codes
  split_ifs at codes
  · exact codes
  · cases codes

theorem replacementChar_ne : replacementChar ≠ '\n' := by decide

/-- No line feed is made, and none is taken. -/
structure Passes (rest : Bytes) (decoded : Char × Nat) : Prop where
  char : decoded.1 ≠ '\n'
  length : decoded.2 ≤ rest.length
  taken : ∀ byte ∈ rest.take decoded.2, byte ≠ 0x0a

theorem passes_replaced (rest : Bytes) : Passes rest (replacementChar, 0) :=
  ⟨replacementChar_ne, Nat.zero_le _, nofun⟩

theorem second_bits (isE0 : first = 0xe0 ∨ first = 0xf0) (isNext : isSecond first second = true) :
    continuationBits second ≠ 0 := by
  unfold isSecond at isNext
  unfold continuationBits
  rcases isE0 with rfl | rfl
  · rw [if_pos rfl, Bool.and_eq_true, decide_eq_true_iff, decide_eq_true_iff,
      le_iff_toNat_le, le_iff_toNat_le] at isNext
    have low : (0xa0 : UInt8).toNat = 160 := rfl
    have high : (0xbf : UInt8).toNat = 191 := rfl
    omega
  · rw [if_neg (by decide), if_neg (by decide), if_pos rfl, Bool.and_eq_true, decide_eq_true_iff,
      decide_eq_true_iff, le_iff_toNat_le, le_iff_toNat_le] at isNext
    have low : (0x90 : UInt8).toNat = 144 := rfl
    have high : (0xbf : UInt8).toNat = 191 := rfl
    omega

theorem passes_second (isNext : isSecond first second = true) (notFeed : char ≠ '\n') :
    Passes (second :: rest) (char, 1) := by
  refine ⟨notFeed, Nat.succ_le_succ (Nat.zero_le _), fun byte isIn => ?_⟩
  rcases mem_cons.mp isIn with rfl | isNone
  · exact isSecond_ne isNext
  · cases isNone

theorem passes_third {third : UInt8} (isNext : isSecond first second = true)
    (isThird : isContinuation third = true) (notFeed : char ≠ '\n') :
    Passes (second :: third :: rest) (char, 2) := by
  refine ⟨notFeed, Nat.succ_le_succ (Nat.succ_le_succ (Nat.zero_le _)), fun byte isIn => ?_⟩
  rcases mem_cons.mp isIn with rfl | isLater
  · exact isSecond_ne isNext
  · rcases mem_cons.mp isLater with rfl | isNone
    · exact isContinuation_ne isThird
    · cases isNone

theorem passes_fourth {third fourth : UInt8} (isNext : isSecond first second = true)
    (isThird : isContinuation third = true) (isFourth : isContinuation fourth = true)
    (notFeed : char ≠ '\n') :
    Passes (second :: third :: fourth :: rest) (char, 3) := by
  have front : Passes (second :: third :: fourth :: rest) (char, 2) :=
    passes_third isNext isThird notFeed
  refine ⟨notFeed, by simp, fun byte isIn => ?_⟩
  have split : (second :: third :: fourth :: rest).take 3 =
      (second :: third :: fourth :: rest).take 2 ++ [fourth] := rfl
  rw [split] at isIn
  rcases List.mem_append.mp isIn with isFront | isLast
  · exact front.taken byte isFront
  · rw [List.mem_singleton.mp isLast]
    exact isContinuation_ne isFourth

theorem decodeChar_passes (rest : Bytes) (notFeed : first ≠ 0x0a) :
    Passes rest (decodeChar first rest) := by
  unfold decodeChar
  split_ifs with isAscii isTwo isThree isFour
  · refine ⟨fun isNewline => notFeed ?_, Nat.zero_le _, nofun⟩
    exact toNat_inj.mp (eq_ten_of_newline isNewline)
  · rw [le_iff_toNat_le, le_iff_toNat_le] at isTwo
    have low : (0xc2 : UInt8).toNat = 194 := rfl
    have high : (0xdf : UInt8).toNat = 223 := rfl
    split
    · rename_i second later
      split_ifs with isNext
      · refine ⟨fun isNewline => ?_, Nat.succ_le_succ (Nat.zero_le _), fun byte isIn => ?_⟩
        · have code := eq_ten_of_newline isNewline
          omega
        · rcases mem_cons.mp isIn with rfl | isNone
          · exact isContinuation_ne isNext
          · cases isNone
      · exact passes_replaced _
    · exact passes_replaced _
  · rw [le_iff_toNat_le, le_iff_toNat_le] at isThree
    have low : (0xe0 : UInt8).toNat = 224 := rfl
    have high : (0xef : UInt8).toNat = 239 := rfl
    split
    · rename_i second third later
      split_ifs with isNext isThird
      · refine passes_third isNext isThird fun isNewline => ?_
        have code := eq_ten_of_newline isNewline
        by_cases isE0 : first = 0xe0
        · have someBits := second_bits (Or.inl isE0) isNext
          omega
        · have notE0 : first.toNat ≠ 224 := fun same => isE0 (toNat_inj.mp same)
          omega
      · exact passes_second isNext replacementChar_ne
      · exact passes_replaced _
    · split_ifs with isNext
      · exact passes_second isNext replacementChar_ne
      · exact passes_replaced _
    · exact passes_replaced _
  · rw [le_iff_toNat_le, le_iff_toNat_le] at isFour
    have low : (0xf0 : UInt8).toNat = 240 := rfl
    have high : (0xf4 : UInt8).toNat = 244 := rfl
    split
    · rename_i second third fourth later
      split_ifs with isNext isThird isFourth
      · refine passes_fourth isNext isThird isFourth fun isNewline => ?_
        have code := eq_ten_of_newline isNewline
        by_cases isF0 : first = 0xf0
        · have someBits := second_bits (Or.inr isF0) isNext
          omega
        · have notF0 : first.toNat ≠ 240 := fun same => isF0 (toNat_inj.mp same)
          omega
      · exact passes_third isNext isThird replacementChar_ne
      · exact passes_second isNext replacementChar_ne
      · exact passes_replaced _
    · split_ifs with isNext isThird
      · exact passes_third isNext isThird replacementChar_ne
      · exact passes_second isNext replacementChar_ne
      · exact passes_replaced _
    · split_ifs with isNext
      · exact passes_second isNext replacementChar_ne
      · exact passes_replaced _
    · exact passes_replaced _
  · exact passes_replaced _

def isFeed (byte : UInt8) : Bool := byte = 0x0a

def isNewline (char : Char) : Bool := char = '\n'

theorem segments_decodeChars : ∀ (fuel : Nat) (bytes : Bytes), bytes.length ≤ fuel →
    (decodeChars fuel bytes = [] ↔ bytes = []) ∧
      segments isNewline (decodeChars fuel bytes) = segments isFeed bytes
  | 0, bytes, isShort => by
    rw [List.length_eq_zero_iff.mp (Nat.le_zero.mp isShort)]
    exact ⟨iff_of_true rfl rfl, rfl⟩
  | _ + 1, [], _ => ⟨iff_of_true rfl rfl, rfl⟩
  | fuel + 1, first :: rest, isShort => by
    have tailShort : (rest.drop (decodeChar first rest).2).length ≤ fuel := by
      rw [List.length_drop]
      rw [List.length_cons] at isShort
      omega
    obtain ⟨isEmpty, sameSegments⟩ := segments_decodeChars fuel _ tailShort
    rw [decodeChars]
    refine ⟨iff_of_false (cons_ne_nil _ _) (cons_ne_nil _ _), ?_⟩
    by_cases isFirst : first = 0x0a
    · subst isFirst
      have decoded : decodeChar 0x0a rest = ('\n', 0) := rfl
      rw [decoded] at isEmpty sameSegments ⊢
      rw [List.drop_zero] at isEmpty sameSegments ⊢
      by_cases isNil : rest = []
      · rw [isEmpty.mpr isNil, isNil]
        rfl
      · rw [segments_cons _ _ isNil, segments_cons _ _ (isEmpty.not.mpr isNil), sameSegments]
        rfl
    · have passes := decodeChar_passes rest isFirst
      have split : first :: rest = (first :: rest.take (decodeChar first rest).2) ++
          rest.drop (decodeChar first rest).2 := by
        rw [List.cons_append, List.take_append_drop]
      have noFeed : ∀ byte ∈ first :: rest.take (decodeChar first rest).2, isFeed byte = false := by
        intro byte isIn
        rcases mem_cons.mp isIn with rfl | isTaken
        · exact decide_eq_false isFirst
        · exact decide_eq_false (passes.taken byte isTaken)
      by_cases isNil : rest.drop (decodeChar first rest).2 = []
      · rw [isEmpty.mpr isNil]
        rw [isNil, List.append_nil] at split
        rw [split, segments_noEnd isFeed (fun byte isIn =>
          noFeed byte (List.mem_of_mem_dropLast isIn)) (cons_ne_nil _ _)]
        rfl
      · rw [segments_cons _ _ (isEmpty.not.mpr isNil), sameSegments]
        conv_rhs => rw [split, segments_append isFeed _ noFeed isNil]
        rw [if_neg (by simpa [isNewline] using passes.char), Nat.zero_add]

theorem splitInclusive_ne_nil (char : Char) (rest : List Char) :
    splitInclusive (char :: rest) ≠ [] := by
  rw [splitInclusive]
  split
  · exact cons_ne_nil _ _
  · split
    · exact cons_ne_nil _ _
    · exact cons_ne_nil _ _

theorem splitInclusive_length : ∀ text : List Char,
    (splitInclusive text).length = segments isNewline text
  | [] => rfl
  | [char] => by
    rw [splitInclusive]
    split <;> rfl
  | char :: next :: rest => by
    have sameLength := splitInclusive_length (next :: rest)
    rw [segments_cons _ _ (cons_ne_nil _ _), ← sameLength, splitInclusive]
    unfold isNewline
    by_cases isEnd : char = '\n'
    · rw [if_pos isEnd, if_pos (decide_eq_true isEnd), List.length_cons, Nat.add_comm]
    · rw [if_neg isEnd, if_neg (by simpa using isEnd), Nat.zero_add]
      cases parts : splitInclusive (next :: rest) with
      | nil => exact absurd parts (splitInclusive_ne_nil next rest)
      | cons line later => rfl

theorem segments_count : ∀ {bytes : Bytes}, bytes ≠ [] → segments isFeed bytes =
    bytes.count 0x0a + if bytes.getLast? = some 0x0a then 0 else 1
  | [], notNil => absurd rfl notNil
  | [byte], _ => by
    by_cases isEnd : byte = 0x0a
    · subst isEnd
      rfl
    · rw [List.count_singleton, if_neg (by simpa using isEnd), List.getLast?_singleton,
        if_neg (fun same => isEnd (Option.some.inj same))]
      rfl
  | first :: second :: rest, _ => by
    have counted : (first :: second :: rest).count 0x0a =
        (second :: rest).count 0x0a + if first == 0x0a then 1 else 0 := List.count_cons
    rw [segments_cons _ _ (cons_ne_nil _ _), segments_count (cons_ne_nil _ _),
      List.getLast?_cons_cons, counted, ← Nat.add_assoc, Nat.add_comm (ite _ _ _)]
    rfl

theorem decodeLines_length (bytes : Bytes) :
    (decodeLines bytes).length = segments isFeed bytes := by
  unfold decodeLines lines fromUtf8Lossy
  rw [List.length_map, splitInclusive_length, (segments_decodeChars _ _ le_rfl).2]

theorem countLines_eq (bytes : Bytes) :
    countLines bytes = UInt32.ofNat (decodeLines bytes).length := by
  rw [decodeLines_length]
  unfold countLines
  by_cases isNil : bytes = []
  · rw [if_pos isNil, isNil]
    rfl
  · rw [if_neg isNil, segments_count isNil]
    dsimp only
    split_ifs
    · rfl
    · rw [UInt32.ofNat_add]
      rfl

theorem sliceLines_eq {lines : List Line} {offset length : Nat} (isSmall : lines.length < 2 ^ 32)
    (isWithin : offset + length ≤ lines.length) :
    sliceLines lines (UInt32.ofNat (offset + 1)) (UInt32.ofNat length) =
      (lines.drop offset).take length := by
  unfold sliceLines
  by_cases isEmpty : length = 0
  · subst isEmpty
    exact if_pos (Or.inr rfl)
  · have startIndex : (UInt32.ofNat (offset + 1) - 1).toNat = offset := by
      rw [UInt32.ofNat_add]
      change (UInt32.ofNat offset + 1 - 1).toNat = offset
      rw [UInt32.add_sub_cancel]
      exact UInt32.toNat_ofNat_of_lt' (by change offset < 2 ^ 32; omega)
    have startLine : UInt32.ofNat (offset + 1) ≠ 0 := by
      intro isZero
      have noLine := congrArg UInt32.toNat isZero
      rw [UInt32.toNat_ofNat_of_lt' (by change offset + 1 < 2 ^ 32; omega)] at noLine
      exact absurd noLine (Nat.succ_ne_zero offset)
    have lineCount : (UInt32.ofNat length).toNat = length :=
      UInt32.toNat_ofNat_of_lt' (by change length < 2 ^ 32; omega)
    have someLines : UInt32.ofNat length ≠ 0 := by
      intro isZero
      rw [isZero] at lineCount
      exact isEmpty lineCount.symm
    rw [if_neg (not_or.mpr ⟨startLine, someLines⟩), startIndex, lineCount, if_neg (by omega),
      min_eq_left isWithin, Nat.add_sub_cancel_left]

theorem slicesFrom_flatten {lines : List Line} (isSmall : lines.length < 2 ^ 32) :
    ∀ (lengths : List Nat) (offset : Nat), offset + lengths.sum = lines.length →
      (slicesFrom lines offset lengths).flatten = lines.drop offset
  | [], offset, isAll => by
    rw [List.sum_nil, Nat.add_zero] at isAll
    rw [isAll, List.drop_length]
    rfl
  | length :: rest, offset, isAll => by
    rw [List.sum_cons] at isAll
    rw [slicesFrom, List.flatten_cons, sliceLines_eq isSmall (by omega),
      slicesFrom_flatten isSmall rest (offset + length) (by omega), ← List.drop_drop,
      List.take_append_drop]

/-- An entry holds what the bytes would give. -/
def Right (bytes : Bytes) (cached : Option CachedFileContent) : Prop :=
  ∀ entry, cached = some entry → entry.lineCount = countLines bytes ∧
    ∀ lines, entry.lines = some lines → lines = decodeLines bytes

theorem answer_right {bytes : Bytes} {cached : Option CachedFileContent}
    (right : Right bytes cached) (call : Call) :
    (answer bytes cached call).1 = (answer bytes none call).1 ∧
      Right bytes (answer bytes cached call).2 := by
  cases call with
  | count =>
    cases cached with
    | none =>
      refine ⟨rfl, fun entry isEntry => ?_⟩
      cases isEntry
      exact ⟨rfl, nofun⟩
    | some entry => exact ⟨congrArg Answer.count (right entry rfl).1, right⟩
  | slice startLine lineCount =>
    unfold answer sliceLinesForSource
    dsimp only
    split
    · rename_i lines isLines
      obtain ⟨entry, isEntry, entryLines⟩ := Option.bind_eq_some_iff.mp isLines
      refine ⟨?_, right⟩
      rw [(right entry isEntry).2 lines entryLines]
      rfl
    · refine ⟨rfl, fun entry isEntry => ?_⟩
      cases isEntry
      refine ⟨(countLines_eq bytes).symm, fun lines isLines => ?_⟩
      exact (Option.some.inj isLines).symm
  | clear => exact ⟨rfl, nofun⟩

theorem answers_eq (bytes : Bytes) : ∀ (calls : List Call) (cached : Option CachedFileContent),
    Right bytes cached →
    answers bytes cached calls = calls.map fun call => (answer bytes none call).1
  | [], _, _ => rfl
  | call :: rest, cached, right => by
    obtain ⟨same, stillRight⟩ := answer_right right call
    rw [answers, List.map_cons, same, answers_eq bytes rest _ stillRight]

/-- **Counted and decoded lines agree** precisely when the line feeds, with the rest behind the
last one, are fewer than `2 ^ 32`. -/
theorem linesAgree_iff (bytes : Bytes) : LinesAgree bytes ↔
    (bytes.count 0x0a + if bytes.getLast? = some 0x0a then 0 else 1) < 2 ^ 32 := by
  trans (decodeLines bytes).length < 2 ^ 32
  swap
  · rw [decodeLines_length]
    by_cases isNil : bytes = []
    · rw [isNil]
      exact iff_of_true (by decide) (by decide)
    · rw [segments_count isNil]
  constructor
  · intro agree
    rw [← agree.count]
    exact (countLines bytes).toNat_lt
  · intro isSmall
    have count : (countLines bytes).toNat = (decodeLines bytes).length := by
      rw [countLines_eq]
      exact UInt32.toNat_ofNat_of_lt' isSmall
    refine ⟨count, fun lengths isAll => ?_, fun calls => ?_⟩
    · rw [slicesFrom_flatten isSmall lengths 0 (by rw [Nat.zero_add, isAll, count]), List.drop_zero]
    · exact answers_eq bytes calls none fun _ isEntry => nomatch isEntry

/-- A file of so many empty lines that their number is zero again. -/
theorem not_linesAgree : ¬∀ bytes, LinesAgree bytes := by
  intro allAgree
  have manyLines : ∀ count, count ≠ 0 →
      count ≤ (decodeLines (List.replicate count 0x0a)).length := by
    intro count notZero
    rw [decodeLines_length, segments_count (mt (List.replicate_eq_nil_iff _).mp notZero),
      List.count_replicate_self]
    exact Nat.le_add_right _ _
  have isMany := manyLines (2 ^ 32) (Nat.two_pow_pos 32).ne'
  rw [← (allAgree _).count] at isMany
  exact absurd (UInt32.toNat_lt _) (Nat.not_lt_of_le isMany)

end AiTools.GitDiff.FileLines
