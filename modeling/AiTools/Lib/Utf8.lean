import Mathlib.Data.List.Basic
import Mathlib.Tactic.SplitIfs

/-!
Contract: texts as lists of UTF-8 bytes.
-/

namespace AiTools.Lib.Utf8

def bytes (text : String) : List UInt8 := text.toByteArray.data.toList

def text? (encoded : List UInt8) : Option String := String.fromUTF8? ⟨encoded.toArray⟩

theorem toByteArray_eq (text : String) :
    (⟨(bytes text).toArray⟩ : ByteArray) = text.toByteArray := by
  unfold bytes
  rw [Array.toArray_toList]

@[simp] theorem text?_bytes (text : String) : text? (bytes text) = some text := by
  unfold text?
  rw [toByteArray_eq, String.fromUTF8?, dif_pos text.isValidUTF8]
  rfl

theorem bytes_of_text? {encoded : List UInt8} {text : String} (isText : text? encoded = some text) :
    bytes text = encoded := by
  unfold text? String.fromUTF8? at isText
  split at isText
  · cases isText
    rfl
  · cases isText

/-- The character that the bytes begin with. -/
def firstChar? (encoded : List UInt8) : Option Char := encoded.toByteArray.utf8DecodeChar? 0

/-- Reads on after the bytes that are left of a character. -/
def charsFrom : Nat → List UInt8 → List Char
  | _, [] => []
  | left + 1, _ :: rest => charsFrom left rest
  | 0, first :: rest =>
    match firstChar? (first :: rest) with
    | some char => char :: charsFrom (char.utf8Size - 1) rest
    | none => '\uFFFD' :: charsFrom 0 rest

def chars (encoded : List UInt8) : List Char := charsFrom 0 encoded

def encode (chars : List Char) : List UInt8 := chars.flatMap String.utf8EncodeChar

/-- The bytes as UTF-8, with the replacement character where they are not. -/
def lossy (encoded : List UInt8) : List UInt8 := encode (chars encoded)

theorem firstChar?_append (char : Char) (rest : List UInt8) :
    firstChar? (String.utf8EncodeChar char ++ rest) = some char := by
  unfold firstChar?
  rw [List.toByteArray_append]
  exact ByteArray.utf8DecodeChar?_utf8EncodeChar_append

theorem charsFrom_append (skipped rest : List UInt8) :
    charsFrom skipped.length (skipped ++ rest) = chars rest := by
  induction skipped with
  | nil => rfl
  | cons first skipped ih => exact ih

theorem chars_append (char : Char) (rest : List UInt8) :
    chars (String.utf8EncodeChar char ++ rest) = char :: chars rest := by
  have isFirst := firstChar?_append char rest
  have isSize := String.length_utf8EncodeChar char
  cases encoded : String.utf8EncodeChar char with
  | nil =>
    rw [encoded] at isSize
    exact absurd isSize (Nat.ne_of_lt char.utf8Size_pos)
  | cons first later =>
    rw [encoded] at isFirst isSize
    rw [chars, List.cons_append, charsFrom]
    rw [List.cons_append] at isFirst
    rw [isFirst]
    show char :: charsFrom (char.utf8Size - 1) (later ++ rest) = _
    rw [← isSize, List.length_cons, Nat.add_sub_cancel, charsFrom_append]

@[simp] theorem chars_encode (chars : List Char) : Utf8.chars (encode chars) = chars := by
  induction chars with
  | nil => rfl
  | cons char later ih =>
    rw [encode, List.flatMap_cons, chars_append]
    exact congrArg (char :: ·) ih

@[simp] theorem lossy_lossy (encoded : List UInt8) : lossy (lossy encoded) = lossy encoded := by
  unfold lossy
  rw [chars_encode]

theorem encode_toList (text : String) : encode text.toList = bytes text := by
  unfold bytes encode
  rw [← String.utf8Encode_toList, List.utf8Encode, List.data_toByteArray]

def isContinuation (byte : UInt8) : Bool := byte &&& 0xc0 == 0x80

theorem isContinuation_tail (byte : UInt8) : isContinuation (byte &&& 0x3f ||| 0x80) = true := by
  have masked : ∀ bits : BitVec 8, (bits &&& 0x3f ||| 0x80) &&& 0xc0 = 0x80 := by decide
  exact beq_iff_eq.mpr (UInt8.toBitVec_inj.mp (masked byte.toBitVec))

/-- A byte of a longer encoding has its high bit set. -/
def IsHigh (byte : UInt8) : Prop := ¬ byte < 0x80

theorem isHigh_tail (byte : UInt8) : IsHigh (byte &&& 0x3f ||| 0x80) := by
  have masked : ∀ bits : BitVec 8, ¬ (bits &&& 0x3f ||| 0x80) < 0x80 := by decide
  exact masked byte.toBitVec

/-- What a character is encoded as: itself, or a first byte and continuations. -/
inductive Encoded (char : Char) : List UInt8 → Prop where
  | ascii (byte : UInt8) (same : byte.toNat = char.toNat) (isAscii : byte < 0x80) :
      Encoded char [byte]
  | long (first : UInt8) (later : List UInt8) (isFirst : isContinuation first = false)
      (isHigh : IsHigh first) (continues : ∀ byte ∈ later, isContinuation byte = true)
      (areHigh : ∀ byte ∈ later, IsHigh byte) (isLarge : 0x80 ≤ char.toNat) :
      Encoded char (first :: later)

variable {char : Char} {byte : UInt8}

theorem encoded_long {char : Char} {first : UInt8} (mask : UInt8) (later : List UInt8)
    (isLarge : ¬ char.val ≤ 0x7f) (isFirst : ∀ bits : BitVec 8,
      (((bits &&& mask.toBitVec ||| first.toBitVec) &&& 0xc0) == 0x80) = false ∧
        ¬ (bits &&& mask.toBitVec ||| first.toBitVec) < 0x80) (byte : UInt8) :
    Encoded char ((byte &&& mask ||| first) :: later.map fun tail => tail &&& 0x3f ||| 0x80) := by
  obtain ⟨notContinuation, isHigh⟩ := isFirst byte.toBitVec
  refine .long _ _ ?_ isHigh (fun tail isTail => ?_) (fun tail isTail => ?_) ?_
  · refine beq_eq_false_iff_ne.mpr fun same => ?_
    exact beq_eq_false_iff_ne.mp notContinuation (UInt8.toBitVec_inj.mpr same)
  · obtain ⟨bits, _, rfl⟩ := List.mem_map.mp isTail
    exact isContinuation_tail bits
  · obtain ⟨bits, _, rfl⟩ := List.mem_map.mp isTail
    exact isHigh_tail bits
  · exact Nat.lt_of_not_le fun isSmall => isLarge (UInt32.le_iff_toNat_le.mpr isSmall)

theorem encoded (char : Char) : Encoded char (String.utf8EncodeChar char) := by
  rw [String.utf8EncodeChar_eq_utf8EncodeCharFast]
  unfold String.utf8EncodeCharFast
  by_cases isOne : char.val ≤ 0x7f
  · rw [if_pos isOne]
    have isSmall : char.val.toNat ≤ 0x7f := UInt32.le_iff_toNat_le.mp isOne
    have same : char.val.toUInt8.toNat = char.val.toNat := by
      rw [UInt32.toNat_toUInt8]
      exact Nat.mod_eq_of_lt (by omega)
    refine .ascii _ same (UInt8.lt_iff_toNat_lt.mpr ?_)
    rw [same]
    exact Nat.lt_succ_of_le isSmall
  · rw [if_neg isOne]
    split_ifs
    · exact encoded_long 0x1f [_] isOne (by decide) _
    · exact encoded_long 0x0f [_, _] isOne (by decide) _
    · exact encoded_long 0x07 [_, _, _] isOne (by decide) _

theorem mem_encodeChar_ascii (isAscii : byte < 0x80) (isByte : byte ∈ String.utf8EncodeChar char) :
    char.toNat = byte.toNat := by
  have shape := encoded char
  generalize String.utf8EncodeChar char = bytes at shape isByte
  cases shape with
  | ascii _ same _ => exact List.mem_singleton.mp isByte ▸ same.symm
  | long _ _ _ isHigh _ areHigh _ =>
    rcases List.mem_cons.mp isByte with rfl | isLater
    · exact absurd isAscii isHigh
    · exact absurd isAscii (areHigh byte isLater)

theorem encodeChar_continues {index : Nat}
    (isInside : index + 1 < (String.utf8EncodeChar char).length) :
    isContinuation ((String.utf8EncodeChar char)[index + 1]) = true := by
  have shape := encoded char
  generalize String.utf8EncodeChar char = bytes at shape isInside
  cases shape with
  | ascii _ _ _ => exact absurd isInside (Nat.not_lt.mpr (Nat.le_add_left 1 index))
  | long first later _ _ continues _ _ => exact continues _ (List.getElem_mem _)

theorem encode_first {chars : List Char} (isFirst : (encode chars)[0]? = some byte) :
    isContinuation byte = false := by
  cases chars with
  | nil => cases isFirst
  | cons char chars =>
    have shape := encoded char
    rw [encode, List.flatMap_cons] at isFirst
    generalize String.utf8EncodeChar char = bytes at shape isFirst
    cases shape with
    | ascii _ _ isAscii =>
      obtain rfl := Option.some.inj isFirst
      have masked : ∀ bits : BitVec 8, bits < 0x80 → ((bits &&& 0xc0) == 0x80) = false := by
        decide
      refine beq_eq_false_iff_ne.mpr fun same => ?_
      exact beq_eq_false_iff_ne.mp (masked _ isAscii) (UInt8.toBitVec_inj.mpr same)
    | long _ _ notContinuation _ _ _ _ =>
      obtain rfl := Option.some.inj isFirst
      exact notContinuation

/-- Where a cut falls on the first byte of a character, or on the end, it leaves characters. -/
theorem take_encode {cut : Nat} (chars : List Char) (isWithin : cut ≤ (encode chars).length)
    (isBoundary : ∀ byte, (encode chars)[cut]? = some byte → isContinuation byte = false) :
    ∃ count, (encode chars).take cut = encode (chars.take count) := by
  induction chars generalizing cut with
  | nil => exact ⟨0, by rw [Nat.le_zero.mp isWithin]; rfl⟩
  | cons char chars ih =>
    have split : encode (char :: chars) = String.utf8EncodeChar char ++ encode chars := rfl
    rw [split] at isWithin isBoundary ⊢
    rcases Nat.lt_or_ge cut (String.utf8EncodeChar char).length with isInside | isBeyond
    · cases cut with
      | zero => exact ⟨0, rfl⟩
      | succ cut =>
        have isByte : (String.utf8EncodeChar char ++ encode chars)[cut + 1]? =
            some ((String.utf8EncodeChar char)[cut + 1]) := by
          rw [List.getElem?_append_left isInside, List.getElem?_eq_getElem isInside]
        have continues := encodeChar_continues isInside
        exact Bool.noConfusion (continues.symm.trans (isBoundary _ isByte))
    · rw [List.length_append] at isWithin
      have later := @ih (cut - (String.utf8EncodeChar char).length)
      obtain ⟨count, same⟩ := later (by omega) fun byte isByte =>
        isBoundary byte (by rwa [List.getElem?_append_right isBeyond])
      refine ⟨count + 1, ?_⟩
      rw [List.take_append, List.take_of_length_le isBeyond, same]
      rfl

end AiTools.Lib.Utf8
