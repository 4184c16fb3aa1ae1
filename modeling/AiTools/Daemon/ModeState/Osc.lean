import Mathlib.Data.List.Basic

/-!
Contract: the texts that an OSC payload carries.
-/

namespace AiTools.Daemon.ModeState

abbrev Bytes := List UInt8

def replacementChar : Char := Char.ofNat 0xfffd

def isContinuation (byte : UInt8) : Bool := 0x80 ≤ byte && byte ≤ 0xbf

/-- The second bytes of a character of three or four bytes. -/
def isSecond (first second : UInt8) : Bool :=
  if first = 0xe0 then 0xa0 ≤ second && second ≤ 0xbf
  else if first = 0xed then 0x80 ≤ second && second ≤ 0x9f
  else if first = 0xf0 then 0x90 ≤ second && second ≤ 0xbf
  else if first = 0xf4 then 0x80 ≤ second && second ≤ 0x8f
  else isContinuation second

def continuationBits (byte : UInt8) : Nat := byte.toNat % 64

/-- The character that starts with `first`, and the number of further bytes it takes. -/
def decodeChar (first : UInt8) (rest : Bytes) : Char × Nat :=
  if first < 0x80 then (Char.ofNat first.toNat, 0)
  else if 0xc2 ≤ first ∧ first ≤ 0xdf then
    match rest with
    | second :: _ =>
      if isContinuation second then
        (Char.ofNat (first.toNat % 32 * 64 + continuationBits second), 1)
      else (replacementChar, 0)
    | [] => (replacementChar, 0)
  else if 0xe0 ≤ first ∧ first ≤ 0xef then
    match rest with
    | second :: third :: _ =>
      if isSecond first second then
        if isContinuation third then
          (Char.ofNat ((first.toNat % 16 * 64 + continuationBits second) * 64 +
            continuationBits third), 2)
        else (replacementChar, 1)
      else (replacementChar, 0)
    | [second] => (replacementChar, if isSecond first second then 1 else 0)
    | [] => (replacementChar, 0)
  else if 0xf0 ≤ first ∧ first ≤ 0xf4 then
    match rest with
    | second :: third :: fourth :: _ =>
      if isSecond first second then
        if isContinuation third then
          if isContinuation fourth then
            (Char.ofNat (((first.toNat % 8 * 64 + continuationBits second) * 64 +
              continuationBits third) * 64 + continuationBits fourth), 3)
          else (replacementChar, 2)
        else (replacementChar, 1)
      else (replacementChar, 0)
    | [second, third] =>
      (replacementChar, if isSecond first second then if isContinuation third then 2 else 1 else 0)
    | [second] => (replacementChar, if isSecond first second then 1 else 0)
    | [] => (replacementChar, 0)
  else (replacementChar, 0)

/-- Decode at most `fuel` characters. -/
def decodeChars : Nat → Bytes → List Char
  | 0, _ => []
  | _ + 1, [] => []
  | fuel + 1, first :: rest =>
    let decoded := decodeChar first rest
    decoded.1 :: decodeChars fuel (rest.drop decoded.2)

def fromUtf8Lossy (bytes : Bytes) : List Char := decodeChars bytes.length bytes

/-- `to_digit(16)` of the byte as a character. -/
def hexDigit (byte : UInt8) : Option UInt8 :=
  if 0x30 ≤ byte ∧ byte ≤ 0x39 then some (byte - 0x30)
  else if 0x41 ≤ byte ∧ byte ≤ 0x46 then some (byte - 0x41 + 10)
  else if 0x61 ≤ byte ∧ byte ≤ 0x66 then some (byte - 0x61 + 10)
  else none

def percentDecodeBytes : Bytes → Bytes
  | [] => []
  | byte :: rest =>
    if byte = 0x25 then
      match rest with
      | hi :: lo :: later =>
        match hexDigit hi, hexDigit lo with
        | some hi, some lo => (hi * 16 + lo) :: percentDecodeBytes later
        | _, _ => byte :: percentDecodeBytes (hi :: lo :: later)
      | short => byte :: percentDecodeBytes short
    else byte :: percentDecodeBytes rest

def percentDecode (text : List Char) : List Char :=
  fromUtf8Lossy (percentDecodeBytes (text.flatMap String.utf8EncodeChar))

/-- The path of a `file://host/path` URI begins at the first slash behind the scheme. -/
def osc7Path (text : List Char) : Option (List Char) :=
  match "file://".toList.isPrefixOf? text with
  | some rest =>
    match rest.dropWhile (· ≠ '/') with
    | [] => none
    | path => some path
  | none => some text

def parseOsc7Cwd (pt : Bytes) : Option String :=
  match osc7Path (fromUtf8Lossy pt) with
  | none => none
  | some path =>
    match percentDecode path with
    | [] => none
    | decoded => some (String.ofList decoded)

end AiTools.Daemon.ModeState
