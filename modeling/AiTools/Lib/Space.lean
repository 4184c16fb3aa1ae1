import Mathlib.Data.List.DropRight

/-!
Contract: white space at the ends of a text, as Unicode's `White_Space` has it.
-/

namespace AiTools.Lib.Space

def isSpace (c : Char) : Bool :=
  c.val ∈ [0x09, 0x0A, 0x0B, 0x0C, 0x0D, 0x20, 0x85, 0xA0, 0x1680, 0x2028, 0x2029, 0x202F,
    0x205F, 0x3000] || (0x2000 ≤ c.val && c.val ≤ 0x200A)

def trimEnd (text : List Char) : List Char := text.rdropWhile isSpace

def trim (text : List Char) : List Char := trimEnd (text.dropWhile isSpace)

variable {c : Char}

theorem trimEnd_append (front : List Char) (notSpace : isSpace c = false)
    (tail : List Char) : trimEnd (front ++ c :: tail) = front ++ c :: trimEnd tail := by
  induction tail using List.reverseRecOn with
  | nil =>
    unfold trimEnd
    rw [List.rdropWhile_concat_neg _ _ _ (by simp [notSpace])]
    rfl
  | append_singleton tail last ih =>
    unfold trimEnd at ih ⊢
    have regroup : front ++ c :: (tail ++ [last]) = front ++ c :: tail ++ [last] := by simp
    by_cases space : isSpace last = true
    · rw [regroup, List.rdropWhile_concat_pos _ _ _ space, List.rdropWhile_concat_pos _ _ _ space]
      exact ih
    · rw [regroup, List.rdropWhile_concat_neg _ _ _ space, List.rdropWhile_concat_neg _ _ _ space]
      simp

theorem trimEnd_concat (text : List Char) (space : isSpace c = true) :
    trimEnd (text ++ [c]) = trimEnd text :=
  List.rdropWhile_concat_pos _ _ _ space

variable {text : List Char}

theorem mem_of_mem_trimEnd (member : c ∈ trimEnd text) : c ∈ text :=
  (List.rdropWhile_prefix isSpace text).mem member

theorem trim_of_head (notSpace : isSpace c = false) (text : List Char) :
    trim (c :: text) = trimEnd (c :: text) := by
  unfold trim
  rw [List.dropWhile_cons_of_neg (by simp [notSpace])]

theorem notSpace_of_dropWhile {rest : List Char}
    (isFront : text.dropWhile isSpace = c :: rest) : isSpace c = false := by
  have notNil : text.dropWhile isSpace ≠ [] := by rw [isFront]; simp
  have isHead := List.head_dropWhile_not isSpace notNil
  simpa [isFront] using isHead

theorem trim_eq_nil_iff : trim text = [] ↔ ∀ c ∈ text, isSpace c = true := by
  constructor
  · intro isNil
    refine List.dropWhile_eq_nil_iff.mp ?_
    cases isFront : text.dropWhile isSpace with
    | nil => rfl
    | cons c rest =>
      have notSpace := notSpace_of_dropWhile isFront
      have isSpaces := List.rdropWhile_eq_nil_iff.mp isNil c (by rw [isFront]; simp)
      rw [notSpace] at isSpaces
      cases isSpaces
  · intro areSpaces
    unfold trim
    rw [List.dropWhile_eq_nil_iff.mpr areSpaces]
    rfl

theorem mem_of_mem_trim (member : c ∈ trim text) : c ∈ text :=
  (List.dropWhile_suffix isSpace).mem (mem_of_mem_trimEnd member)

theorem trimEnd_trim (text : List Char) : trimEnd (trim text) = trim text :=
  List.rdropWhile_idempotent isSpace _

theorem trim_trim (text : List Char) : trim (trim text) = trim text := by
  cases isFront : text.dropWhile isSpace with
  | nil =>
    have isNil : trim text = [] := by unfold trim; rw [isFront]; rfl
    rw [isNil]
    rfl
  | cons c rest =>
    have notSpace := notSpace_of_dropWhile isFront
    have isTrim : trim text = c :: trimEnd rest := by
      unfold trim
      rw [isFront]
      exact trimEnd_append [] notSpace rest
    have again := trimEnd_trim text
    rw [isTrim] at again ⊢
    rw [trim_of_head notSpace, again]

theorem getLast_of_trim (isTrimmed : trim text = text) (notEmpty : text ≠ []) :
    isSpace (text.getLast notEmpty) = false := by
  have same := trimEnd_trim text
  rw [isTrimmed] at same
  simpa using List.rdropWhile_eq_self_iff.mp same notEmpty

end AiTools.Lib.Space
