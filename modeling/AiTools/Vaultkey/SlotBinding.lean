import AiTools.Vaultkey.Vault

/-!
Contract: the slots that the entries of a vault of the second format answer for, wherever they
are moved.
-/

namespace AiTools.Vaultkey

open AiTools.Lib AiTools.Lib.Effect AiTools.Lib.Keyed

structure SetCall where
  slot : Slot
  value : Text
  nonce? : Option Text
  written : Bool
deriving DecidableEq

variable {Key Cipher : Type}

def SetCall.run (prims : Primitives Key Cipher) (call : SetCall) : Action Key Cipher Unit :=
  set prims call.slot call.value call.nonce? call.written

/-- What a call leaves, also when it throws. -/
def stateAfter {α : Type} (program : Action Key Cipher α) (world : World Key Cipher) :
    World Key Cipher :=
  match program world with
  | .ok _ next => next
  | .error _ next => next

/-- A new vault after the calls. -/
def built (prims : Primitives Key Cipher) (password salt : Text) (calls : List SetCall) :
    World Key Cipher :=
  calls.foldl (fun world call => stateAfter (call.run prims) world)
    ⟨createVault prims password salt, (createVault prims password salt).data⟩

/-- The calls that got as far as the encryption. -/
def WasSet (calls : List SetCall) (slot : Slot) (value : Text) : Prop :=
  ∃ call ∈ calls, call.nonce?.isSome ∧ call.slot = slot ∧ call.value = value

def lastSet (calls : List SetCall) (slot : Slot) : Option SetCall :=
  calls.reverse.find? fun call => call.nonce?.isSome && call.slot = slot

/-- Each entry is one of the vault, at any slot. -/
def Rearranges (vault moved : Vault Key Cipher) : Prop :=
  moved.key = vault.key ∧ moved.data.version = vault.data.version ∧
    ∀ slot value, moved.data.stored? slot = some value →
      ∃ origin, vault.data.stored? origin = some value

def SlotsBound (prims : Primitives Key Cipher) (calls : List SetCall)
    (vault : Vault Key Cipher) : Prop :=
  ∀ moved, Rearranges vault moved → ∀ slot value, moved.get prims slot = .ok value →
    WasSet calls slot value

/-- A slot with the associated data of another one had the same value. -/
def Unambiguous (calls : List SetCall) : Prop :=
  ∀ slot call, lastSet calls slot = some call →
    ∀ other, buildAAD other = buildAAD slot → WasSet calls other call.value

section
variable (prims : Primitives Key Cipher) (password salt : Text)

theorem stateAfter_run_vault (call : SetCall) (world : World Key Cipher) :
    (stateAfter (call.run prims) world).vault = match call.nonce? with
      | none => world.vault
      | some nonce => world.vault.put prims call.slot call.value nonce := by
  unfold stateAfter SetCall.run set setWithoutSave save
  cases call.nonce? with
  | none => rfl
  | some nonce =>
    cases call.written with
    | false | true => rfl

theorem built_concat (calls : List SetCall) (call : SetCall) :
    built prims password salt (calls ++ [call]) =
      stateAfter (call.run prims) (built prims password salt calls) := by
  unfold built
  rw [List.foldl_concat]

theorem built_header (calls : List SetCall) :
    (built prims password salt calls).vault.key = (createVault prims password salt).key ∧
      (built prims password salt calls).vault.data.version = currentVaultVersion := by
  induction calls using List.reverseRecOn with
  | nil => exact ⟨rfl, rfl⟩
  | append_singleton calls call ih =>
    rw [built_concat, stateAfter_run_vault]
    split
    · exact ih
    · exact ih

theorem built_aad (calls : List SetCall) (slot : Slot) :
    (built prims password salt calls).vault.aad slot = buildAAD slot := by
  unfold Vault.aad
  rw [(built_header prims password salt calls).2]
  exact if_pos (le_refl _)

theorem lastSet_concat (calls : List SetCall) (call : SetCall) (slot : Slot) :
    lastSet (calls ++ [call]) slot =
      if call.nonce?.isSome && call.slot = slot then some call else lastSet calls slot := by
  unfold lastSet
  rw [List.reverse_append, List.reverse_singleton, List.singleton_append, List.find?_cons]
  cases call.nonce?.isSome && call.slot = slot with
  | false | true => rfl

variable {calls : List SetCall} {slot : Slot} {call : SetCall} {value : Text}

theorem lastSet_spec (isLast : lastSet calls slot = some call) :
    call ∈ calls ∧ (∃ nonce, call.nonce? = some nonce) ∧ call.slot = slot := by
  have isCall := List.find?_some isLast
  rw [Bool.and_eq_true, decide_eq_true_eq, Option.isSome_iff_exists] at isCall
  exact ⟨List.mem_reverse.mp (List.mem_of_find?_eq_some isLast), isCall⟩

/-- An entry of the second format. -/
def boundEntry (prims : Primitives Key Cipher) (key : Key) (slot : Slot) (value nonce : Text) :
    EncryptedValue Cipher where
  nonce := nonce
  ciphertext := prims.aead.encrypt key nonce (buildAAD slot) value

theorem built_stored? (calls : List SetCall) (slot : Slot) :
    (built prims password salt calls).vault.data.stored? slot =
      (lastSet calls slot).bind fun call => call.nonce?.map
        (boundEntry prims (createVault prims password salt).key slot call.value) := by
  induction calls using List.reverseRecOn with
  | nil => rfl
  | append_singleton calls call ih =>
    rw [built_concat, stateAfter_run_vault, lastSet_concat]
    cases isNonce : call.nonce? with
    | none => exact ih
    | some nonce =>
      dsimp only [Vault.put]
      rw [stored?_put]
      by_cases same : call.slot = slot
      · subst same
        rw [if_pos rfl, if_pos (by simp), Option.bind_some, isNonce, Option.map_some,
          Vault.encrypted, built_aad, (built_header prims password salt calls).1, boundEntry]
      · rw [if_neg (Ne.symm same), if_neg (by simp [same])]
        exact ih

variable {prims password salt}

theorem answer_eq_ok {vault : Vault Key Cipher} :
    vault.answer prims slot = some value ↔ vault.get prims slot = .ok value := by
  unfold Vault.answer
  cases vault.get prims slot with
  | ok result | error error => simp [Except.toOption]

theorem get_moved {moved : Vault Key Cipher}
    (rearranges : Rearranges (built prims password salt calls).vault moved) :
    moved.get prims slot = .ok value ↔
      ∃ origin call nonce, lastSet calls origin = some call ∧ call.nonce? = some nonce ∧
        moved.data.stored? slot = some (boundEntry prims moved.key origin call.value nonce) ∧
        buildAAD slot = buildAAD origin ∧ value = call.value := by
  obtain ⟨sameKey, sameVersion, isStored⟩ := rearranges
  obtain ⟨isKey, isVersion⟩ := built_header prims password salt calls
  have isData : moved.aad slot = buildAAD slot := by
    unfold Vault.aad
    rw [sameVersion, isVersion]
    exact if_pos (le_refl _)
  rw [← answer_eq_ok, answer_eq_bind, isData]
  constructor
  · intro isOpened
    obtain ⟨stored, isEntry, isOpened⟩ := Option.bind_eq_some_iff.mp isOpened
    obtain ⟨origin, isOrigin⟩ := isStored slot stored isEntry
    rw [built_stored?, ← isKey, ← sameKey] at isOrigin
    obtain ⟨call, isLast, isOrigin⟩ := Option.bind_eq_some_iff.mp isOrigin
    obtain ⟨nonce, isNonce, rfl⟩ := Option.map_eq_some_iff.mp isOrigin
    obtain ⟨_, sameData, sameValue⟩ := prims.aead.decrypt_eq_some_iff.mp isOpened
    exact ⟨origin, call, nonce, isLast, isNonce, isEntry, sameData, sameValue⟩
  · rintro ⟨origin, call, nonce, _, _, isEntry, sameData, rfl⟩
    rw [isEntry, Option.bind_some]
    exact prims.aead.decrypt_eq_some_iff.mpr ⟨rfl, sameData, rfl⟩

theorem unambiguous_of_slotsBound
    (bound : SlotsBound prims calls (built prims password salt calls).vault) :
    Unambiguous calls := by
  intro slot call isLast other sameData
  obtain ⟨nonce, isNonce⟩ := (lastSet_spec isLast).2.1
  have isEntry := built_stored? prims password salt calls slot
  rw [isLast, Option.bind_some, isNonce, Option.map_some] at isEntry
  -- The vault with the entry copied to the other slot.
  have copied : ∃ moved, Rearranges (built prims password salt calls).vault moved ∧
      moved.data.stored? other = some (boundEntry prims moved.key slot call.value nonce) := by
    refine ⟨{ (built prims password salt calls).vault with
      data := (built prims password salt calls).vault.data.put other
        (boundEntry prims (createVault prims password salt).key slot call.value nonce) },
      ⟨rfl, rfl, ?_⟩, ?_⟩
    · intro copy value isCopy
      rw [stored?_put] at isCopy
      split_ifs at isCopy
      · exact ⟨slot, isEntry.trans isCopy⟩
      · exact ⟨copy, isCopy⟩
    · rw [stored?_put, if_pos rfl, (built_header prims password salt calls).1]
  obtain ⟨moved, rearranges, isCopy⟩ := copied
  exact bound moved rearranges other call.value
    ((get_moved rearranges).mpr ⟨slot, call, nonce, isLast, isNonce, isCopy, sameData, rfl⟩)

/-- Every entry is bound to its slot exactly when no other slot has the associated data of one
and not its value. -/
theorem slotsBound_iff (prims : Primitives Key Cipher) (password salt : Text)
    (calls : List SetCall) :
    SlotsBound prims calls (built prims password salt calls).vault ↔ Unambiguous calls := by
  refine ⟨unambiguous_of_slotsBound, ?_⟩
  intro unambiguous moved rearranges slot value isGot
  obtain ⟨origin, call, _, isLast, _, _, sameData, rfl⟩ := (get_moved rearranges).mp isGot
  exact unambiguous origin call isLast slot sameData

end

/-- The scope `a/b` with the key `c`, and the scope `a` with the key `b/c`. -/
def nested : Slot := ⟨Utf8.bytes "a/b", Utf8.bytes "c"⟩

def flat : Slot := ⟨Utf8.bytes "a", Utf8.bytes "b/c"⟩

def nestedCall : SetCall := ⟨nested, Utf8.bytes "v", some (.replicate 12 0), true⟩

theorem not_unambiguous_nested : ¬ Unambiguous [nestedCall] := by
  intro unambiguous
  have wasSet : WasSet [nestedCall] flat nestedCall.value :=
    unambiguous nested nestedCall (by decide) flat (by decide)
  obtain ⟨call, isCall, _, isSlot, _⟩ := wasSet
  rw [List.mem_singleton.mp isCall] at isSlot
  exact absurd isSlot (by decide)

/-- The entry set for the one answers for the other. -/
theorem not_slotsBound_nested : ¬ SlotsBound Primitives.symbolic [nestedCall]
    (built Primitives.symbolic (Utf8.bytes "pw") (.replicate 32 0) [nestedCall]).vault :=
  fun bound => not_unambiguous_nested (unambiguous_of_slotsBound bound)

end AiTools.Vaultkey
