import AiTools.Daemon.History.SessionDir
import Mathlib

/-!
Contract: the core's encoding of a session id against the one of the history.
-/

namespace AiTools.Daemon.History

open AiTools.Lib

/-- `{b:02X}`. -/
def formatHex (b : UInt8) : List UInt8 :=
  let digit (number : Nat) : UInt8 := ("0123456789ABCDEF".toUTF8.data[number]?).getD 0
  [digit (b.toNat / 16), digit (b.toNat % 16)]

def percentEncodeSessionId (sessionId : String) : List UInt8 :=
  (Utf8.bytes sessionId).flatMap fun b => if isUnreserved b then [b] else 0x25 :: formatHex b

/-- The digits of a number below 256, most significant first. -/
def digitsFrom (number : Nat) : List UInt8 → Option UInt8
  | [] => some (UInt8.ofNat number)
  | digit :: rest =>
    match fromHex digit with
    | none => none
    | some digit =>
      if number * 16 + digit.toNat < 256 then digitsFrom (number * 16 + digit.toNat) rest
      else none

/-- `u8::from_str_radix` with radix 16, which takes a plus sign. -/
def fromStrRadix : List UInt8 → Option UInt8
  | [] => none
  | [first] => if first = 0x2b ∨ first = 0x2d then none else digitsFrom 0 [first]
  | first :: rest => if first = 0x2b then digitsFrom 0 rest else digitsFrom 0 (first :: rest)

/-- The two bytes behind a percent sign. -/
def hexByte (hi lo : UInt8) : Option UInt8 :=
  (Utf8.text? [hi, lo]).bind fun hex => fromStrRadix (Utf8.bytes hex)

/-- The loop of `percent_decode_session_id`. -/
def percentDecodeSessionIdBytes : List UInt8 → Option (List UInt8)
  | [] => some []
  | b :: rest =>
    if b = 0x25 then
      match rest with
      | hi :: lo :: later =>
        match hexByte hi lo with
        | some byte => (percentDecodeSessionIdBytes later).map (byte :: ·)
        | none => none
      | _ => none
    else (percentDecodeSessionIdBytes rest).map (b :: ·)

def percentDecodeSessionId (segment : List UInt8) : Option String :=
  (percentDecodeSessionIdBytes segment).bind Utf8.text?

structure CodecsAgree (text : String) : Prop where
  encode : percentEncodeSessionId text = percentEncode text
  decode : percentDecodeSessionId (Utf8.bytes text) = percentDecode (Utf8.bytes text)
  core : percentDecodeSessionId (percentEncodeSessionId text) = some text
  history : percentDecode (percentEncode text) = some text

/-- The bytes that a segment stands for when an escape is a percent sign with two hex digits, or
with a plus sign and one. -/
inductive Spells : List UInt8 → List UInt8 → Prop where
  | nil : Spells [] []
  | literal {b : UInt8} {segment bytes : List UInt8} (notPercent : b ≠ 0x25)
      (later : Spells segment bytes) : Spells (b :: segment) (b :: bytes)
  | escape {hi lo high low : UInt8} {segment bytes : List UInt8} (isHigh : fromHex hi = some high)
      (isLow : fromHex lo = some low) (later : Spells segment bytes) :
      Spells (0x25 :: hi :: lo :: segment) ((high <<< 4 ||| low) :: bytes)
  | signed {lo low : UInt8} {segment bytes : List UInt8} (isLow : fromHex lo = some low)
      (later : Spells segment bytes) : Spells (0x25 :: 0x2b :: lo :: segment) (low :: bytes)

/-- Among the escapes, read from the left, is one with a plus sign. -/
def hasSignedEscape : List UInt8 → Bool
  | [] => false
  | b :: rest =>
    if b = 0x25 then
      match rest with
      | hi :: lo :: later => (hi = 0x2b && (fromHex lo).isSome) || hasSignedEscape later
      | _ => false
    else hasSignedEscape rest

/-- A text that stands for an id with an escape that has a plus sign. -/
def SignedSpelling (text : String) : Prop :=
  hasSignedEscape (Utf8.bytes text) = true ∧ ∃ id, Spells (Utf8.bytes text) (Utf8.bytes id)

theorem formatHex_eq (b : UInt8) : formatHex b = [hexUpper (b >>> 4), hexUpper (b &&& 0x0f)] := by
  revert b
  apply all_bytes
  decide +kernel

theorem percentEncodeSessionId_eq (text : String) :
    percentEncodeSessionId text = percentEncode text := by
  unfold percentEncodeSessionId percentEncode
  refine List.flatMap_congr fun b _ => ?_
  unfold percentEncodeByte
  rw [formatHex_eq]

/-! ## The decoders -/

theorem encodeChar_ascii {b : UInt8} :
    b < 0x80 → String.utf8EncodeChar (Char.ofNat b.toNat) = [b] := by
  revert b
  apply all_bytes
  decide +kernel

theorem text?_ascii {first second : UInt8} (isFirst : first < 0x80) (isSecond : second < 0x80) :
    ∃ text, Utf8.text? [first, second] = some text ∧ Utf8.bytes text = [first, second] := by
  have spelled : Utf8.bytes (String.ofList [Char.ofNat first.toNat, Char.ofNat second.toNat]) =
      [first, second] := by
    rw [← Utf8.encode_toList, String.toList_ofList]
    unfold Utf8.encode
    rw [List.flatMap_cons, List.flatMap_singleton, encodeChar_ascii isFirst,
      encodeChar_ascii isSecond]
    rfl
  refine ⟨_, ?_, spelled⟩
  rw [← spelled]
  exact Utf8.text?_bytes _

theorem fromHex_ascii {b : UInt8} : fromHex b ≠ none → b < 0x80 := by
  revert b
  apply all_bytes
  decide +kernel

theorem fromHex_small {b : UInt8} : ∀ digit, fromHex b = some digit → digit.toNat < 16 := by
  -- the one digit of each byte: deciding the statement itself takes every pair of bytes
  have allSmall : ∀ b, (fromHex b).all (fun digit => digit.toNat < 16) = true := by
    apply all_bytes
    decide +kernel
  intro digit isDigit
  have isSmall := allSmall b
  rw [isDigit] at isSmall
  exact of_decide_eq_true isSmall

theorem joined_nibbles : ∀ high low : Fin 16, UInt8.ofNat (high * 16 + low) =
    UInt8.ofNat high <<< 4 ||| UInt8.ofNat low := by
  decide +kernel

theorem joined_eq {high low : UInt8} (isHigh : high.toNat < 16) (isLow : low.toNat < 16) :
    UInt8.ofNat (high.toNat * 16 + low.toNat) = high <<< 4 ||| low := by
  have joined := joined_nibbles ⟨high.toNat, isHigh⟩ ⟨low.toNat, isLow⟩
  dsimp only at joined
  rwa [UInt8.ofNat_toNat, UInt8.ofNat_toNat] at joined

/-- What two bytes stand for behind a percent sign. -/
def pairByte (hi lo : UInt8) : Option UInt8 :=
  match fromHex hi, fromHex lo with
  | some high, some low => some (high <<< 4 ||| low)
  | _, low => if hi = 0x2b then low else none

theorem pairByte_digits {hi lo high low : UInt8} (isHigh : fromHex hi = some high)
    (isLow : fromHex lo = some low) : pairByte hi lo = some (high <<< 4 ||| low) := by
  unfold pairByte
  rw [isHigh, isLow]

theorem pairByte_plus (lo : UInt8) : pairByte 0x2b lo = fromHex lo := rfl

theorem pairByte_eq_some {hi lo byte : UInt8} (isByte : pairByte hi lo = some byte) :
    (∃ high low, fromHex hi = some high ∧ fromHex lo = some low ∧ byte = high <<< 4 ||| low) ∨
      hi = 0x2b ∧ fromHex lo = some byte := by
  unfold pairByte at isByte
  split at isByte
  · rename_i high low isHigh isLow
    exact .inl ⟨high, low, isHigh, isLow, (Option.some.inj isByte).symm⟩
  · split_ifs at isByte with isPlus
    exact .inr ⟨isPlus, isByte⟩

theorem digitsFrom_single {lo : UInt8} : digitsFrom 0 [lo] = fromHex lo := by
  unfold digitsFrom
  cases isDigit : fromHex lo with
  | none => rfl
  | some digit =>
    have isSmall := fromHex_small digit isDigit
    dsimp only
    rw [if_pos (by omega), Nat.zero_mul, Nat.zero_add]
    exact congrArg some UInt8.ofNat_toNat

theorem fromStrRadix_pair (hi lo : UInt8) : fromStrRadix [hi, lo] = pairByte hi lo := by
  change (if hi = 0x2b then digitsFrom 0 [lo] else digitsFrom 0 [hi, lo]) = pairByte hi lo
  by_cases isPlus : hi = 0x2b
  · rw [if_pos isPlus, digitsFrom_single, isPlus]
    rfl
  · rw [if_neg isPlus]
    unfold digitsFrom pairByte
    cases isHigh : fromHex hi with
    | none => exact (if_neg isPlus).symm
    | some high =>
      have highSmall := fromHex_small high isHigh
      dsimp only
      rw [if_pos (by omega), Nat.zero_mul, Nat.zero_add]
      unfold digitsFrom
      cases isLow : fromHex lo with
      | none => exact (if_neg isPlus).symm
      | some low =>
        have lowSmall := fromHex_small low isLow
        dsimp only
        rw [if_pos (by omega)]
        exact congrArg some (joined_eq highSmall lowSmall)

theorem hexByte_eq (hi lo : UInt8) : hexByte hi lo = pairByte hi lo := by
  unfold hexByte
  cases isText : Utf8.text? [hi, lo] with
  | some text =>
    rw [Option.bind_some, Utf8.bytes_of_text? isText]
    exact fromStrRadix_pair hi lo
  | none =>
    rw [Option.bind_none]
    cases isByte : pairByte hi lo with
    | none => rfl
    | some byte =>
      obtain ⟨isFirst, isSecond⟩ : hi < 0x80 ∧ lo < 0x80 := by
        rcases pairByte_eq_some isByte with ⟨high, low, isHigh, isLow, _⟩ | ⟨rfl, isLow⟩
        · exact ⟨fromHex_ascii (by rw [isHigh]; exact Option.some_ne_none _),
            fromHex_ascii (by rw [isLow]; exact Option.some_ne_none _)⟩
        · exact ⟨by decide, fromHex_ascii (by rw [isLow]; exact Option.some_ne_none _)⟩
      obtain ⟨text, spelled, _⟩ := text?_ascii isFirst isSecond
      rw [spelled] at isText
      cases isText

theorem percentDecodeSessionIdBytes_of_spells {segment bytes : List UInt8}
    (spells : Spells segment bytes) : percentDecodeSessionIdBytes segment = some bytes := by
  induction spells with
  | nil => rfl
  | literal notPercent _ ih =>
    rw [percentDecodeSessionIdBytes.eq_def]
    dsimp only
    rw [if_neg notPercent, ih]
    rfl
  | escape isHigh isLow _ ih =>
    rw [percentDecodeSessionIdBytes, if_pos rfl, hexByte_eq, pairByte_digits isHigh isLow]
    dsimp only
    rw [ih]
    rfl
  | signed isLow _ ih =>
    rw [percentDecodeSessionIdBytes, if_pos rfl, hexByte_eq, pairByte_plus, isLow]
    dsimp only
    rw [ih]
    rfl

theorem spells_of_percentDecodeSessionIdBytes : ∀ {segment bytes : List UInt8},
    percentDecodeSessionIdBytes segment = some bytes → Spells segment bytes
  | [], bytes, decoded => by
    cases decoded
    exact .nil
  | b :: rest, bytes, decoded => by
    rw [percentDecodeSessionIdBytes.eq_def] at decoded
    dsimp only at decoded
    split_ifs at decoded with isPercent
    · subst isPercent
      match rest, decoded with
      | hi :: lo :: later, decoded =>
        dsimp only at decoded
        rw [hexByte_eq] at decoded
        cases isByte : pairByte hi lo with
        | none =>
          rw [isByte] at decoded
          cases decoded
        | some byte =>
          rw [isByte] at decoded
          obtain ⟨others, isLater, rfl⟩ := Option.map_eq_some_iff.mp decoded
          have spells := spells_of_percentDecodeSessionIdBytes isLater
          rcases pairByte_eq_some isByte with ⟨high, low, isHigh, isLow, rfl⟩ | ⟨rfl, isLow⟩
          · exact .escape isHigh isLow spells
          · exact .signed isLow spells
    · obtain ⟨others, isLater, rfl⟩ := Option.map_eq_some_iff.mp decoded
      exact .literal isPercent (spells_of_percentDecodeSessionIdBytes isLater)

theorem fromHex_plus : fromHex 0x2b = none := rfl

theorem hasSignedEscape_literal {b : UInt8} (notPercent : b ≠ 0x25) (segment : List UInt8) :
    hasSignedEscape (b :: segment) = hasSignedEscape segment := by
  rw [hasSignedEscape.eq_def]
  exact if_neg notPercent

theorem percentDecodeBytes_of_spells {segment bytes : List UInt8} (spells : Spells segment bytes) :
    percentDecodeBytes segment = if hasSignedEscape segment then none else some bytes := by
  induction spells with
  | nil => rfl
  | literal notPercent _ ih =>
    rw [percentDecodeBytes.eq_def, hasSignedEscape_literal notPercent]
    dsimp only
    rw [if_neg notPercent, ih]
    split_ifs <;> rfl
  | @escape hi lo high low segment bytes isHigh isLow _ ih =>
    have notPlus : hi ≠ 0x2b := by
      rintro rfl
      cases isHigh
    rw [percentDecodeBytes, if_pos rfl, isHigh, isLow, hasSignedEscape, if_pos rfl]
    dsimp only
    rw [ih, decide_eq_false notPlus, Bool.false_and, Bool.false_or]
    split_ifs <;> rfl
  | signed isLow _ _ =>
    rw [percentDecodeBytes, if_pos rfl, fromHex_plus, isLow, hasSignedEscape, if_pos rfl, isLow]
    rfl

theorem spells_of_percentDecodeBytes : ∀ {segment bytes : List UInt8},
    percentDecodeBytes segment = some bytes → Spells segment bytes
  | [], bytes, decoded => by
    cases decoded
    exact .nil
  | b :: rest, bytes, decoded => by
    rw [percentDecodeBytes.eq_def] at decoded
    dsimp only at decoded
    split_ifs at decoded with isPercent
    · subst isPercent
      rcases rest with _ | ⟨hi, _ | ⟨lo, later⟩⟩
      · cases decoded
      · cases decoded
      · dsimp only at decoded
        split at decoded
        · rename_i high low isHigh isLow
          obtain ⟨others, isLater, rfl⟩ := Option.map_eq_some_iff.mp decoded
          exact .escape isHigh isLow (spells_of_percentDecodeBytes isLater)
        · cases decoded
    · obtain ⟨others, isLater, rfl⟩ := Option.map_eq_some_iff.mp decoded
      exact .literal isPercent (spells_of_percentDecodeBytes isLater)

theorem decoders_agree_iff (segment : List UInt8) :
    percentDecodeSessionId segment = percentDecode segment ↔
      ¬(hasSignedEscape segment = true ∧ ∃ id, Spells segment (Utf8.bytes id)) := by
  unfold percentDecodeSessionId percentDecode
  constructor
  · rintro same ⟨isSigned, id, spells⟩
    rw [percentDecodeSessionIdBytes_of_spells spells, percentDecodeBytes_of_spells spells,
      if_pos isSigned, Option.bind_some, Utf8.text?_bytes] at same
    cases same
  · intro notSigned
    cases decoded : percentDecodeSessionIdBytes segment with
    | none =>
      cases read : percentDecodeBytes segment with
      | none => rfl
      | some bytes =>
        have spells := spells_of_percentDecodeBytes read
        rw [percentDecodeSessionIdBytes_of_spells spells] at decoded
        cases decoded
    | some bytes =>
      have spells := spells_of_percentDecodeSessionIdBytes decoded
      rw [percentDecodeBytes_of_spells spells]
      split_ifs with isSigned
      · rw [Option.bind_some, Option.bind_none]
        cases isText : Utf8.text? bytes with
        | none => rfl
        | some id =>
          rw [← Utf8.bytes_of_text? isText] at spells
          exact absurd ⟨isSigned, id, spells⟩ notSigned
      · rfl

theorem codecsAgree_iff (text : String) : CodecsAgree text ↔ ¬SignedSpelling text := by
  unfold SignedSpelling
  rw [← decoders_agree_iff]
  constructor
  · exact fun agree => agree.decode
  · intro same
    refine ⟨percentEncodeSessionId_eq text, same, ?_, percentDecode_percentEncode text⟩
    have spells := spells_of_percentDecodeBytes (percentDecodeBytes_flatMap (Utf8.bytes text))
    rw [percentEncodeSessionId_eq]
    unfold percentDecodeSessionId percentEncode
    rw [percentDecodeSessionIdBytes_of_spells spells]
    exact Utf8.text?_bytes text

/-- The core takes a plus sign for a digit. -/
theorem not_codecsAgree : ¬∀ text, CodecsAgree text := by
  intro allAgree
  refine (decoders_agree_iff (Utf8.bytes "%+f")).mp (allAgree "%+f").decode
    ⟨by decide +kernel, "\x0f", ?_⟩
  have spelled : Utf8.bytes "%+f" = [0x25, 0x2b, 0x66] := by decide +kernel
  have named : Utf8.bytes "\x0f" = [0x0f] := by decide +kernel
  rw [spelled, named]
  exact .signed rfl .nil

end AiTools.Daemon.History
