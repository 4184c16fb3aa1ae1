import Mathlib.Logic.Basic
import Mathlib.Tactic.ByContra
import Mathlib.Tactic.TypeStar

/-!
Contract: authenticated encryption with associated data, as an ideal primitive.
-/

namespace AiTools.Lib

/-- `only` is the ideal: nothing else opens what was sealed. -/
structure Aead (Key Nonce Data Plain Cipher : Type*) where
  encrypt : Key → Nonce → Data → Plain → Cipher
  decrypt? : Key → Nonce → Data → Cipher → Option Plain
  opens : ∀ key nonce data plain, decrypt? key nonce data (encrypt key nonce data plain) = some plain
  only : ∀ {key sealKey nonce sealNonce data sealData plain opened},
    decrypt? key nonce data (encrypt sealKey sealNonce sealData plain) = some opened →
      key = sealKey ∧ nonce = sealNonce ∧ data = sealData

namespace Aead

variable {Key Nonce Data Plain Cipher : Type*}

theorem decrypt_eq_some_iff (aead : Aead Key Nonce Data Plain Cipher) {key sealKey : Key}
    {nonce : Nonce} {data sealData : Data} {plain opened : Plain} :
    aead.decrypt? key nonce data (aead.encrypt sealKey nonce sealData plain) = some opened ↔
      key = sealKey ∧ data = sealData ∧ opened = plain := by
  constructor
  · intro isOpened
    obtain ⟨sameKey, _, sameData⟩ := aead.only isOpened
    rw [sameKey, sameData, aead.opens] at isOpened
    exact ⟨sameKey, sameData, (Option.some.inj isOpened).symm⟩
  · rintro ⟨rfl, rfl, rfl⟩
    exact aead.opens _ _ _ _

/-- A ciphertext is the term that says how it was sealed. -/
def symbolic [DecidableEq Key] [DecidableEq Nonce] [DecidableEq Data] :
    Aead Key Nonce Data Plain (Key × Nonce × Data × Plain) where
  encrypt key nonce data plain := (key, nonce, data, plain)
  decrypt? key nonce data cipher :=
    if key = cipher.1 ∧ nonce = cipher.2.1 ∧ data = cipher.2.2.1 then some cipher.2.2.2 else none
  opens _ _ _ _ := if_pos ⟨rfl, rfl, rfl⟩
  only isOpened := by
    by_contra different
    rw [if_neg different] at isOpened
    cases isOpened

end Aead

end AiTools.Lib
