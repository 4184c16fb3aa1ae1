import AiTools.Lib.Utf8
import Mathlib.Data.UInt

/-!
Contract: the history directory of a session.

A location is the list of names from the root of the file system, without links; the
encoded segment is ASCII, so it stands as its bytes.
-/

namespace AiTools.Daemon.History

open AiTools.Lib

def isUnreserved (b : UInt8) : Bool :=
  (0x30 ≤ b && b ≤ 0x39) || (0x41 ≤ b && b ≤ 0x5a) || (0x61 ≤ b && b ≤ 0x7a) ||
    b == 0x2d || b == 0x2e || b == 0x5f || b == 0x7e

def hexUpper (nibble : UInt8) : UInt8 :=
  if nibble ≤ 9 then 0x30 + nibble else 0x41 + (nibble - 10)

def fromHex (b : UInt8) : Option UInt8 :=
  if 0x30 ≤ b ∧ b ≤ 0x39 then some (b - 0x30)
  else if 0x61 ≤ b ∧ b ≤ 0x66 then some (b - 0x61 + 10)
  else if 0x41 ≤ b ∧ b ≤ 0x46 then some (b - 0x41 + 10)
  else none

def percentEncodeByte (b : UInt8) : List UInt8 :=
  if isUnreserved b then [b] else [0x25, hexUpper (b >>> 4), hexUpper (b &&& 0x0f)]

def percentEncode (ptyId : String) : List UInt8 := (Utf8.bytes ptyId).flatMap percentEncodeByte

/-- The loop of `percent_decode`. -/
def percentDecodeBytes : List UInt8 → Option (List UInt8)
  | [] => some []
  | b :: rest =>
    if b = 0x25 then
      match rest with
      | hi :: lo :: later =>
        match fromHex hi, fromHex lo with
        | some hi, some lo => (percentDecodeBytes later).map ((hi <<< 4 ||| lo) :: ·)
        | _, _ => none
      | _ => none
    else (percentDecodeBytes rest).map (b :: ·)

def percentDecode (segment : List UInt8) : Option String :=
  (percentDecodeBytes segment).bind Utf8.text?

abbrev Location := List (List UInt8)

def slash : UInt8 := 0x2f

/-- One step of the file system's way along a path. -/
def enter (location : Location) (name : List UInt8) : Location :=
  if name = [] ∨ name = [0x2e] then location
  else if name = [0x2e, 0x2e] then location.dropLast
  else location ++ [name]

/-- Where `root.join(path)` leads. An absolute path replaces the root. -/
def join (root : Location) (path : List UInt8) : Location :=
  (path.splitOn slash).foldl enter (if path.head? = some slash then [] else root)

def sessionDir (root : Location) (ptyId : String) : Location := join root (percentEncode ptyId)

/-- What `remove_dir_all` of the directory in `close_session` removes. -/
def ClosedRemoves (root : Location) (ptyId : String) (location : Location) : Prop :=
  sessionDir root ptyId <+: location

/-- The directory is a child of the root that is named after the id, no other id has it,
and its removal reaches no other session's directory. -/
structure Confined (root : Location) (ptyId : String) : Prop where
  child : ∃ name, sessionDir root ptyId = root ++ [name] ∧ percentDecode name = some ptyId
  notRoot : sessionDir root ptyId ≠ root
  notParent : sessionDir root ptyId ≠ root.dropLast
  own : ∀ other, sessionDir root other = sessionDir root ptyId → other = ptyId
  spares : ∀ other name, other ≠ ptyId → sessionDir root other = root ++ [name] →
    ∀ location, sessionDir root other <+: location → ¬ ClosedRemoves root ptyId location

theorem all_bytes {property : UInt8 → Prop} (each : ∀ n : Fin 256, property (UInt8.ofNat n))
    (b : UInt8) : property b := by
  have isByte := each ⟨b.toNat, b.toNat_lt⟩
  dsimp only at isByte
  rw [UInt8.ofNat_toNat] at isByte
  exact isByte

theorem fromHex_hexUpper (b : UInt8) : fromHex (hexUpper (b >>> 4)) = some (b >>> 4) ∧
      fromHex (hexUpper (b &&& 0x0f)) = some (b &&& 0x0f) ∧
      (b >>> 4) <<< 4 ||| (b &&& 0x0f) = b := by
  revert b
  apply all_bytes
  decide +kernel

theorem slash_notMem_percentEncodeByte (b : UInt8) : slash ∉ percentEncodeByte b := by
  revert b
  apply all_bytes
  decide +kernel

theorem ne_percent_of_isUnreserved {b : UInt8} (unreserved : isUnreserved b = true) : b ≠ 0x25 := by
  rintro rfl
  contradiction

theorem percentDecodeBytes_encodeByte (b : UInt8) (rest : List UInt8) :
    percentDecodeBytes (percentEncodeByte b ++ rest) = (percentDecodeBytes rest).map (b :: ·) := by
  unfold percentEncodeByte
  split_ifs with unreserved
  · rw [List.singleton_append, percentDecodeBytes.eq_def]
    exact if_neg (ne_percent_of_isUnreserved unreserved)
  · obtain ⟨high, low, joined⟩ := fromHex_hexUpper b
    rw [List.cons_append, List.cons_append, List.singleton_append, percentDecodeBytes, if_pos rfl,
      high, low]
    dsimp only
    rw [joined]

theorem percentDecodeBytes_flatMap (bytes : List UInt8) :
    percentDecodeBytes (bytes.flatMap percentEncodeByte) = some bytes := by
  induction bytes with
  | nil => rfl
  | cons b rest ih =>
    rw [List.flatMap_cons, percentDecodeBytes_encodeByte, ih]
    rfl

theorem percentDecode_percentEncode (ptyId : String) :
    percentDecode (percentEncode ptyId) = some ptyId := by
  unfold percentDecode percentEncode
  rw [percentDecodeBytes_flatMap]
  exact Utf8.text?_bytes ptyId

theorem percentEncode_injective : Function.Injective percentEncode := by
  intro left right same
  have decoded := congrArg percentDecode same
  rw [percentDecode_percentEncode, percentDecode_percentEncode] at decoded
  exact Option.some.inj decoded

theorem slash_notMem_percentEncode (ptyId : String) : slash ∉ percentEncode ptyId := by
  unfold percentEncode
  rw [List.mem_flatMap]
  rintro ⟨b, _, member⟩
  exact slash_notMem_percentEncodeByte b member

theorem sessionDir_eq (root : Location) (ptyId : String) :
    sessionDir root ptyId = enter root (percentEncode ptyId) := by
  have noSlash := slash_notMem_percentEncode ptyId
  have relative : (percentEncode ptyId).head? ≠ some slash := by
    intro isHead
    exact noSlash (List.mem_of_mem_head? isHead)
  unfold sessionDir join
  rw [if_neg relative, List.splitOn_eq_singleton noSlash]
  rfl

/-- The ids whose encoding is no name of its own. -/
def Special (ptyId : String) : Prop := ptyId = "" ∨ ptyId = "." ∨ ptyId = ".."

theorem percentEncode_special :
    percentEncode "" = [] ∧ percentEncode "." = [0x2e] ∧ percentEncode ".." = [0x2e, 0x2e] := by
  decide +kernel

variable {ptyId : String}

theorem sessionDir_of_ordinary (root : Location) (ordinary : ¬ Special ptyId) :
    sessionDir root ptyId = root ++ [percentEncode ptyId] := by
  obtain ⟨ofEmpty, ofDot, ofDots⟩ := percentEncode_special
  have notEmpty : percentEncode ptyId ≠ [] := by
    rw [← ofEmpty]
    exact fun same => ordinary (Or.inl (percentEncode_injective same))
  have notDot : percentEncode ptyId ≠ [0x2e] := by
    rw [← ofDot]
    exact fun same => ordinary (Or.inr (Or.inl (percentEncode_injective same)))
  have notDots : percentEncode ptyId ≠ [0x2e, 0x2e] := by
    rw [← ofDots]
    exact fun same => ordinary (Or.inr (Or.inr (percentEncode_injective same)))
  rw [sessionDir_eq, enter, if_neg (not_or.mpr ⟨notEmpty, notDot⟩), if_neg notDots]

theorem sessionDir_eq_child {root : Location} {name : List UInt8}
    (isChild : sessionDir root ptyId = root ++ [name]) :
    ¬ Special ptyId ∧ name = percentEncode ptyId := by
  obtain ⟨ofEmpty, ofDot, ofDots⟩ := percentEncode_special
  have ordinary : ¬ Special ptyId := by
    rw [sessionDir_eq] at isChild
    have lengths := congrArg List.length isChild
    rw [List.length_append, List.length_singleton] at lengths
    rintro (isEmpty | isDot | isDots)
    · rw [isEmpty, ofEmpty] at lengths
      simp [enter] at lengths
    · rw [isDot, ofDot] at lengths
      simp [enter] at lengths
    · rw [isDots, ofDots] at lengths
      simp [enter] at lengths
  refine ⟨ordinary, ?_⟩
  rw [sessionDir_of_ordinary root ordinary] at isChild
  exact (List.singleton_inj.mp (List.append_cancel_left isChild)).symm

theorem confined_of_ordinary (root : Location) (ordinary : ¬ Special ptyId) :
    Confined root ptyId := by
  have isChild := sessionDir_of_ordinary root ordinary
  exact {
    child := ⟨_, isChild, percentDecode_percentEncode ptyId⟩
    notRoot := by
      rw [isChild]
      simp
    notParent := by
      intro same
      have lengths := congrArg List.length same
      rw [isChild, List.length_append, List.length_dropLast, List.length_singleton] at lengths
      omega
    own := by
      intro other same
      rw [isChild] at same
      exact (percentEncode_injective (sessionDir_eq_child same).2).symm
    spares := by
      intro other name different isOther location under removed
      unfold ClosedRemoves at removed
      rw [isOther] at under
      rw [isChild] at removed
      have samePrefix : root ++ [name] = root ++ [percentEncode ptyId] := by
        have shorter := List.prefix_of_prefix_length_le under removed (by simp)
        exact shorter.eq_of_length (by simp)
      rw [(sessionDir_eq_child isOther).2] at samePrefix
      have sameName := List.singleton_inj.mp (List.append_cancel_left samePrefix)
      exact different (percentEncode_injective sameName) }

/-- **A history directory is confined exactly when the id is not empty, `.` or `..`.** -/
theorem confined_iff (root : Location) (ptyId : String) :
    Confined root ptyId ↔ ¬ Special ptyId := by
  constructor
  · intro confined
    obtain ⟨name, isChild, _⟩ := confined.child
    exact (sessionDir_eq_child isChild).1
  · exact confined_of_ordinary root

/-- The directory of `..` is the root's parent, and its removal takes every history. -/
theorem dots_not_confined :
    ∃ root : Location, ¬ Confined root ".." ∧ sessionDir root ".." = root.dropLast ∧
      ClosedRemoves root ".." (sessionDir root "other") := by
  refine ⟨[[0x62], [0x68]], ?_, by decide +kernel, ?_⟩
  · intro confined
    apply confined.notParent
    decide +kernel
  · unfold ClosedRemoves
    decide +kernel

end AiTools.Daemon.History
