import Mathlib.Tactic.Ring

/-!
Contract: fixed-width little-endian numerals over bytes.

Owns: `encode`, `decode`, the length of an encoding and the round trip. Any width
and any value; a value too large for its width is encoded modulo `256 ^ width`.
-/

namespace AiTools.Lib.LittleEndian

/-- The `width` low bytes of a value, least significant first. -/
def encode : Nat → Nat → List UInt8
  | 0, _ => []
  | width + 1, value => UInt8.ofNat (value % 256) :: encode width (value / 256)

def decode : List UInt8 → Nat
  | [] => 0
  | byte :: rest => byte.toNat + 256 * decode rest

@[simp] theorem encode_length (width value : Nat) : (encode width value).length = width := by
  induction width generalizing value with
  | zero => rfl
  | succ width ih => simp [encode, ih]

theorem decode_encode (width value : Nat) : decode (encode width value) = value % 256 ^ width := by
  induction width generalizing value with
  | zero => simp [encode, decode, Nat.mod_one]
  | succ width ih =>
    have lowByte : (UInt8.ofNat (value % 256)).toNat = value % 256 := by
      simp [UInt8.toNat_ofNat']
    rw [encode, decode, ih, lowByte, pow_succ', Nat.mod_mul]

theorem decode_encode_of_lt {width value : Nat} (fits : value < 256 ^ width) :
    decode (encode width value) = value := by
  rw [decode_encode, Nat.mod_eq_of_lt fits]

theorem encode_decode (bytes : List UInt8) : encode bytes.length (decode bytes) = bytes := by
  induction bytes with
  | nil => rfl
  | cons byte rest ih =>
    have small := byte.toNat_lt
    have first : (byte.toNat + 256 * decode rest) % 256 = byte.toNat := by omega
    have later : (byte.toNat + 256 * decode rest) / 256 = decode rest := by omega
    rw [decode, List.length_cons, encode, first, later, ih, UInt8.ofNat_toNat]

theorem decode_lt (bytes : List UInt8) : decode bytes < 256 ^ bytes.length := by
  induction bytes with
  | nil => exact Nat.one_pos
  | cons byte rest ih =>
    have small := byte.toNat_lt
    rw [decode, List.length_cons, Nat.pow_succ]
    omega

end AiTools.Lib.LittleEndian
