import Mathlib.Data.List.Basic
import Mathlib.Tactic.SplitIfs

/-!
Contract: texts as lists of UTF-16 code units, with or without lone surrogates.
-/

namespace AiTools.Lib.Utf16

def isLead (unit : UInt16) : Bool := 0xD800 ≤ unit && unit ≤ 0xDBFF

def isTrail (unit : UInt16) : Bool := 0xDC00 ≤ unit && unit ≤ 0xDFFF

def unitChar (unit : UInt16) : Char :=
  if isLead unit || isTrail unit then '\uFFFD' else Char.ofNat unit.toNat

def pairChar (lead trail : UInt16) : Char :=
  Char.ofNat (0x10000 + (lead.toNat - 0xD800) * 0x400 + (trail.toNat - 0xDC00))

/-- Whether the text begins with the second half of a pair. -/
def startsTrail : List UInt16 → Bool
  | [] => false
  | unit :: _ => isTrail unit

/-- `paired` when the first unit belongs to a character that was read already. -/
def charsFrom (paired : Bool) : List UInt16 → List Char
  | [] => []
  | unit :: rest =>
    if paired then charsFrom false rest
    else if isLead unit && startsTrail rest then
      pairChar unit (rest.headD 0) :: charsFrom true rest
    else unitChar unit :: charsFrom false rest

def chars (units : List UInt16) : List Char := charsFrom false units

variable {paired : Bool} {number ascii : Nat} {unit : UInt16} {char : Char}

theorem charsFrom_append (first second : List UInt16) (isSplit : startsTrail second = false)
    (isRead : paired = true → first ≠ []) :
    charsFrom paired (first ++ second) = charsFrom paired first ++ chars second := by
  induction first generalizing paired with
  | nil =>
    cases paired with
    | false => rfl
    | true => exact absurd rfl (isRead rfl)
  | cons unit rest ih =>
    have later := @ih false nofun
    have sameTrail : startsTrail (rest ++ second) = startsTrail rest := by
      cases rest with
      | nil => exact isSplit
      | cons trail rest => rfl
    rw [List.cons_append, charsFrom, charsFrom, sameTrail, later]
    split_ifs with isPaired isPair
    · rfl
    · have notNil : rest ≠ [] := by
        rintro rfl
        simp [startsTrail, Bool.and_false] at isPair
      rw [@ih true fun _ => notNil]
      cases rest with
      | nil => exact absurd rfl notNil
      | cons trail rest => rfl
    · rfl

theorem chars_append (first second : List UInt16) (isSplit : startsTrail second = false) :
    chars (first ++ second) = chars first ++ chars second :=
  charsFrom_append first second isSplit nofun

theorem toNat_ofNat (isValid : number.isValidChar) : (Char.ofNat number).toNat = number := by
  rw [Char.ofNat, dif_pos isValid]
  exact UInt32.toNat_ofNatLT

theorem pairChar_notAscii {lead trail : UInt16} (isPair : isLead lead = true)
    (isSecond : isTrail trail = true) : 0x80 ≤ (pairChar lead trail).toNat := by
  obtain ⟨leadLow, leadHigh⟩ := Bool.and_eq_true_iff.mp isPair
  obtain ⟨trailLow, trailHigh⟩ := Bool.and_eq_true_iff.mp isSecond
  have leadBound : lead.toNat ≤ 0xDBFF := UInt16.le_iff_toNat_le.mp (of_decide_eq_true leadHigh)
  have trailBound : trail.toNat ≤ 0xDFFF := UInt16.le_iff_toNat_le.mp (of_decide_eq_true trailHigh)
  unfold pairChar
  rw [toNat_ofNat (Or.inr ⟨by omega, by omega⟩)]
  omega

theorem unitChar_ascii (isUnit : (unitChar unit).toNat = ascii) (isSmall : ascii < 0x80)
    (notNull : ascii ≠ 0) : unit.toNat = ascii := by
  unfold unitChar at isUnit
  split_ifs at isUnit
  · subst isUnit
    exact absurd isSmall (by decide)
  · by_cases isValid : unit.toNat.isValidChar
    · rwa [toNat_ofNat isValid] at isUnit
    · rw [Char.ofNat, dif_neg isValid] at isUnit
      exact absurd isUnit.symm notNull

theorem mem_of_mem_charsFrom (units : List UInt16) (isSmall : ascii < 0x80) (notNull : ascii ≠ 0)
    (isChar : char ∈ charsFrom paired units) (isAscii : char.toNat = ascii) :
    ∃ unit ∈ units, unit.toNat = ascii := by
  induction units generalizing paired with
  | nil => cases isChar
  | cons unit rest ih =>
    have isLater {found : Bool} (isFound : char ∈ charsFrom found rest) :
        ∃ unit' ∈ unit :: rest, unit'.toNat = ascii := by
      obtain ⟨later, isLater, isUnit⟩ := ih isFound
      exact ⟨later, List.mem_cons_of_mem _ isLater, isUnit⟩
    rw [charsFrom] at isChar
    split_ifs at isChar with isPaired isPair
    · exact isLater isChar
    · rcases List.mem_cons.mp isChar with isPaired | isFound
      · cases rest with
        | nil =>
          simp [startsTrail, Bool.and_false] at isPair
        | cons trail rest =>
          obtain ⟨isLead, isTrail⟩ := Bool.and_eq_true_iff.mp isPair
          have isLarge := pairChar_notAscii isLead isTrail
          rw [isPaired] at isAscii
          exact absurd (Nat.le_trans isLarge (Nat.le_of_eq isAscii)) (Nat.not_le.mpr isSmall)
      · exact isLater isFound
    · rcases List.mem_cons.mp isChar with rfl | isFound
      · exact ⟨unit, List.mem_cons_self, unitChar_ascii isAscii isSmall notNull⟩
      · exact isLater isFound

theorem mem_of_mem_chars {units : List UInt16} (isSmall : ascii < 0x80) (notNull : ascii ≠ 0)
    (isChar : char ∈ chars units) (isAscii : char.toNat = ascii) :
    ∃ unit ∈ units, unit.toNat = ascii :=
  mem_of_mem_charsFrom units isSmall notNull isChar isAscii

def encodeChar (char : Char) : List UInt16 :=
  if char.toNat < 0x10000 then [UInt16.ofNat char.toNat]
  else
    [UInt16.ofNat (0xD800 + (char.toNat - 0x10000) / 0x400),
      UInt16.ofNat (0xDC00 + (char.toNat - 0x10000) % 0x400)]

def encode (text : List Char) : List UInt16 := text.flatMap encodeChar

theorem toNat_ofNat_unit (isSmall : number < 0x10000) :
    (UInt16.ofNat number).toNat = number :=
  UInt16.toNat_ofNat_of_lt isSmall

theorem isLead_iff : isLead unit = true ↔ 0xD800 ≤ unit.toNat ∧ unit.toNat ≤ 0xDBFF := by
  simp only [isLead, Bool.and_eq_true, decide_eq_true_eq, UInt16.le_iff_toNat_le]
  rfl

theorem isTrail_iff : isTrail unit = true ↔ 0xDC00 ≤ unit.toNat ∧ unit.toNat ≤ 0xDFFF := by
  simp only [isTrail, Bool.and_eq_true, decide_eq_true_eq, UInt16.le_iff_toNat_le]
  rfl

theorem chars_encodeChar (char : Char) (rest : List UInt16) :
    chars (encodeChar char ++ rest) = char :: chars rest := by
  have isValid : char.toNat.isValidChar := char.valid
  unfold encodeChar
  split_ifs with isSmall
  · have toNat := toNat_ofNat_unit isSmall
    have notSurrogate : (isLead (UInt16.ofNat char.toNat) ||
        isTrail (UInt16.ofNat char.toNat)) = false := by
      refine Bool.eq_false_iff.mpr fun isSurrogate => ?_
      rw [Bool.or_eq_true_iff, isLead_iff, isTrail_iff, toNat] at isSurrogate
      rcases isValid with isLow | ⟨isHigh, _⟩ <;> omega
    have notLead := (Bool.or_eq_false_iff.mp notSurrogate).1
    rw [List.singleton_append, chars, charsFrom, notLead, unitChar, notSurrogate, toNat]
    simp [chars]
  · have isBounded : char.toNat < 0x110000 := by
      rcases isValid with isLow | ⟨_, isHigh⟩ <;> omega
    have lead : (UInt16.ofNat (0xD800 + (char.toNat - 0x10000) / 0x400)).toNat =
        0xD800 + (char.toNat - 0x10000) / 0x400 := toNat_ofNat_unit (by omega)
    have trail : (UInt16.ofNat (0xDC00 + (char.toNat - 0x10000) % 0x400)).toNat =
        0xDC00 + (char.toNat - 0x10000) % 0x400 := toNat_ofNat_unit (by omega)
    have isLeadUnit : isLead (UInt16.ofNat (0xD800 + (char.toNat - 0x10000) / 0x400)) = true := by
      rw [isLead_iff, lead]
      omega
    have isTrailUnit : isTrail (UInt16.ofNat (0xDC00 + (char.toNat - 0x10000) % 0x400)) = true := by
      rw [isTrail_iff, trail]
      omega
    have isSame : 0x10000 + (0xD800 + (char.toNat - 0x10000) / 0x400 - 0xD800) * 0x400 +
        (0xDC00 + (char.toNat - 0x10000) % 0x400 - 0xDC00) = char.toNat := by omega
    rw [List.cons_append, List.singleton_append, chars, charsFrom, startsTrail, isLeadUnit,
      isTrailUnit, List.headD_cons, pairChar, lead, trail, isSame, Char.ofNat_toNat]
    rfl

@[simp] theorem chars_encode (text : List Char) : chars (encode text) = text := by
  induction text with
  | nil => rfl
  | cons char text ih =>
    rw [encode, List.flatMap_cons, chars_encodeChar]
    exact congrArg (char :: ·) ih

end AiTools.Lib.Utf16
