import AiTools.Lib.Aead
import AiTools.Lib.Effect
import AiTools.Lib.Keyed
import AiTools.Lib.Utf8
import Mathlib.Data.List.Sort

/-!
Contract: a vault in memory and its file.

The ciphers and the key derivations are parameters. An operation that throws leaves in memory what
it had done by then.
-/

namespace AiTools.Vaultkey

open AiTools.Lib AiTools.Lib.Effect AiTools.Lib.Keyed

/-- A string of the source: any bytes. -/
abbrev Text := List UInt8

/-- The scope and the key that a value is stored under. -/
structure Slot where
  scope : Text
  key : Text
deriving DecidableEq

structure KDFParams where
  memory : UInt32
  iterations : UInt32
  parallelism : UInt8
deriving DecidableEq

def defaultKDFParams : KDFParams where
  memory := 65536
  iterations := 3
  parallelism := 4

def currentVaultVersion : Int := 2

def kdfArgon2id : Text := Utf8.bytes "argon2id"

structure EncryptedValue (Cipher : Type) where
  nonce : Text
  ciphertext : Cipher

structure Entry (Cipher : Type) where
  key : Text
  value : EncryptedValue Cipher

structure Scope (Cipher : Type) where
  name : Text
  keys : Table (@Entry.key Cipher)

structure VaultFile (Cipher : Type) where
  version : Int
  salt : Text
  kdf : Text
  kdfParams : Option KDFParams
  scopes : Table (@Scope.name Cipher)

structure Vault (Key Cipher : Type) where
  data : VaultFile Cipher
  key : Key

/-- The functions of other packages: AES-256-GCM, `argon2.IDKey` and `pbkdf2.Key`. -/
structure Primitives (Key Cipher : Type) where
  aead : Aead Key Text Text Text Cipher
  argon2 : Text → Text → KDFParams → Key
  pbkdf2 : Text → Text → Key

/-- A derived key as the term that says how it was derived. -/
inductive SymbolicKey where
  | argon2 (password salt : Text) (params : KDFParams)
  | pbkdf2 (password salt : Text)
deriving DecidableEq

def Primitives.symbolic : Primitives SymbolicKey (SymbolicKey × Text × Text × Text) where
  aead := .symbolic
  argon2 := .argon2
  pbkdf2 := .pbkdf2

inductive VaultError where
  | unsupportedVersion (version : Int)
  | scopeNotFound (slot : Slot)
  | keyNotFound (slot : Slot)
  | decryptionFailed
  | generatingNonce
  | generatingNewSalt
  | writingVault
  | decrypting (slot : Slot) (cause : VaultError)
  | reEncrypting (slot : Slot) (cause : VaultError)
  | savingMigrated (cause : VaultError)

variable {Key Cipher : Type}

def VaultFile.stored? (data : VaultFile Cipher) (slot : Slot) : Option (EncryptedValue Cipher) :=
  (data.scopes.find? slot.scope).bind fun scope => (scope.keys.find? slot.key).map Entry.value

def VaultFile.slots (data : VaultFile Cipher) : List Slot :=
  data.scopes.entries.flatMap fun scope =>
    scope.keys.entries.map fun entry => ⟨scope.name, entry.key⟩

/-- The scope is made when it is not there. -/
def VaultFile.put (data : VaultFile Cipher) (slot : Slot) (value : EncryptedValue Cipher) :
    VaultFile Cipher :=
  let keys := match data.scopes.find? slot.scope with
    | some scope => scope.keys
    | none => .empty
  { data with scopes := data.scopes.put ⟨slot.scope, keys.put ⟨slot.key, value⟩⟩ }

/-- A scope that is left empty goes too. -/
def VaultFile.remove (data : VaultFile Cipher) (slot : Slot) : VaultFile Cipher :=
  { data with
    scopes := match data.scopes.find? slot.scope with
      | none => data.scopes
      | some scope =>
        let keys := scope.keys.remove slot.key
        if keys.entries.isEmpty then data.scopes.remove slot.scope
        else data.scopes.put ⟨slot.scope, keys⟩ }

theorem stored?_put (data : VaultFile Cipher) (slot : Slot) (value : EncryptedValue Cipher)
    (other : Slot) :
    (data.put slot value).stored? other = if other = slot then some value
      else data.stored? other := by
  obtain ⟨scope, key⟩ := slot
  obtain ⟨otherScope, otherKey⟩ := other
  simp only [VaultFile.stored?, VaultFile.put, Table.find?_put, Slot.mk.injEq]
  by_cases sameScope : scope = otherScope
  · subst sameScope
    by_cases sameKey : key = otherKey
    · simp [Table.find?_put, sameKey]
    · rw [if_pos rfl, if_neg fun same => sameKey same.2.symm]
      cases data.scopes.find? scope with
      | none | some found => simp [Table.find?_put, sameKey]
  · rw [if_neg sameScope, if_neg fun same => sameScope same.1.symm]

theorem stored?_remove (data : VaultFile Cipher) (slot other : Slot) :
    (data.remove slot).stored? other = if other = slot then none else data.stored? other := by
  obtain ⟨scope, key⟩ := slot
  obtain ⟨otherScope, otherKey⟩ := other
  simp only [VaultFile.stored?, VaultFile.remove, Slot.mk.injEq]
  cases isScope : data.scopes.find? scope with
  | none =>
    split_ifs with same
    · rw [same.1, isScope, Option.bind_none]
    · rfl
  | some found =>
    by_cases sameScope : otherScope = scope
    · subst sameScope
      simp only [isScope, Option.bind_some, true_and]
      have isRemoved := found.keys.find?_remove key otherKey
      split_ifs with isEmpty sameKey sameKey
      · simp [Table.find?_remove]
      · rw [if_neg sameKey] at isRemoved
        rw [Table.find?_remove, if_pos rfl, ← isRemoved, Table.find?, List.isEmpty_iff.mp isEmpty]
        rfl
      · rw [if_pos sameKey] at isRemoved
        simp [Table.find?_put, isRemoved]
      · rw [if_neg sameKey] at isRemoved
        simp [Table.find?_put, isRemoved]
    · rw [if_neg fun same => sameScope same.1]
      dsimp only
      split_ifs
      · rw [Table.find?_remove, if_neg sameScope]
      · rw [Table.find?_put, if_neg (Ne.symm sameScope)]

variable {data : VaultFile Cipher} {slot : Slot}

theorem mem_slots : slot ∈ data.slots ↔ (data.stored? slot).isSome := by
  unfold VaultFile.slots VaultFile.stored?
  rw [List.mem_flatMap]
  constructor
  · rintro ⟨scope, isScope, isSlot⟩
    obtain ⟨entry, isEntry, rfl⟩ := List.mem_map.mp isSlot
    rw [Table.find?_eq_some_iff.mpr ⟨isScope, rfl⟩, Option.bind_some,
      Table.find?_eq_some_iff.mpr ⟨isEntry, rfl⟩]
    rfl
  · intro isSome
    cases isScope : data.scopes.find? slot.scope with
    | none => simp [isScope] at isSome
    | some scope =>
      cases isEntry : scope.keys.find? slot.key with
      | none => simp [isScope, isEntry] at isSome
      | some entry =>
        obtain ⟨isScope, isName⟩ := Table.find?_eq_some_iff.mp isScope
        obtain ⟨isEntry, isKey⟩ := Table.find?_eq_some_iff.mp isEntry
        refine ⟨scope, isScope, List.mem_map.mpr ⟨entry, isEntry, ?_⟩⟩
        rw [isName, isKey]

theorem stored?_of_not_mem_slots (isFree : slot ∉ data.slots) : data.stored? slot = none := by
  rwa [mem_slots, Option.not_isSome_iff_eq_none] at isFree

def deriveKey (prims : Primitives Key Cipher) (password salt : Text) (version : Int)
    (params : Option KDFParams) : Key :=
  match params with
  | some params =>
    if version ≥ 2 then prims.argon2 password salt params else prims.pbkdf2 password salt
  | none => prims.pbkdf2 password salt

def slash : UInt8 := 0x2f

/-- `scope + "/" + key`. -/
def buildAAD (slot : Slot) : Text := slot.scope ++ slash :: slot.key

/-- The first format has no associated data. -/
def Vault.aad (vault : Vault Key Cipher) (slot : Slot) : Text :=
  if vault.data.version ≥ 2 then buildAAD slot else []

/-- `json.Marshal` writes the keys in order and as UTF-8, `json.Unmarshal` keeps the last of
equal ones. -/
def readBackKeys (keys : Table (@Entry.key Cipher)) : Table (@Entry.key Cipher) :=
  .ofList ((keys.entries.insertionSort fun first second => first.key ≤ second.key).map
    fun entry => { entry with key := Utf8.lossy entry.key })

def VaultFile.readBack (data : VaultFile Cipher) : VaultFile Cipher :=
  { data with
    kdf := Utf8.lossy data.kdf
    scopes := .ofList
      ((data.scopes.entries.insertionSort fun first second => first.name ≤ second.name).map
        fun scope => { name := Utf8.lossy scope.name, keys := readBackKeys scope.keys }) }

/-! ## Operations -/

def loadVault (prims : Primitives Key Cipher) (password : Text) (file : VaultFile Cipher) :
    Except VaultError (Vault Key Cipher) :=
  let data := file.readBack
  if data.version < 1 ∨ data.version > currentVaultVersion then
    .error (.unsupportedVersion data.version)
  else .ok { data, key := deriveKey prims password data.salt data.version data.kdfParams }

/-- What `CreateVault` saves, and what `Migrate` fills again. -/
def createVault (prims : Primitives Key Cipher) (password salt : Text) : Vault Key Cipher where
  data :=
    { version := currentVaultVersion
      salt
      kdf := kdfArgon2id
      kdfParams := some defaultKDFParams
      scopes := .empty }
  key := deriveKey prims password salt currentVaultVersion (some defaultKDFParams)

def Vault.get (prims : Primitives Key Cipher) (vault : Vault Key Cipher) (slot : Slot) :
    Except VaultError Text := do
  let scope ← ofOption (.scopeNotFound slot) (vault.data.scopes.find? slot.scope)
  let entry ← ofOption (.keyNotFound slot) (scope.keys.find? slot.key)
  ofOption .decryptionFailed
    (prims.aead.decrypt? vault.key entry.value.nonce (vault.aad slot) entry.value.ciphertext)

def Vault.encrypted (prims : Primitives Key Cipher) (vault : Vault Key Cipher) (slot : Slot)
    (value nonce : Text) : EncryptedValue Cipher where
  nonce := nonce
  ciphertext := prims.aead.encrypt vault.key nonce (vault.aad slot) value

def Vault.put (prims : Primitives Key Cipher) (vault : Vault Key Cipher) (slot : Slot)
    (value nonce : Text) : Vault Key Cipher :=
  { vault with data := vault.data.put slot (vault.encrypted prims slot value nonce) }

structure World (Key Cipher : Type) where
  vault : Vault Key Cipher
  file : VaultFile Cipher

abbrev Action (Key Cipher : Type) := EStateM VaultError (World Key Cipher)

def setWithoutSave (prims : Primitives Key Cipher) (slot : Slot) (value : Text)
    (nonce? : Option Text) : Action Key Cipher Unit := do
  let nonce ← lift (ofOption .generatingNonce nonce?)
  modify fun world => { world with vault := world.vault.put prims slot value nonce }

/-- The file is replaced in one step, or not at all. -/
def save (written : Bool) : Action Key Cipher Unit := do
  require (written = true) .writingVault
  modify fun world => { world with file := world.vault.data }

def set (prims : Primitives Key Cipher) (slot : Slot) (value : Text) (nonce? : Option Text)
    (written : Bool) : Action Key Cipher Unit := do
  setWithoutSave prims slot value nonce?
  save written

def delete (slot : Slot) (written : Bool) : Action Key Cipher Unit := do
  let data := (← get).vault.data
  let scope ← lift (ofOption (.scopeNotFound slot) (data.scopes.find? slot.scope))
  let _ ← lift (ofOption (.keyNotFound slot) (scope.keys.find? slot.key))
  modify fun world => { world with vault := { world.vault with data := data.remove slot } }
  save written

/-- The values that `Migrate` decrypts first. -/
def collect (prims : Primitives Key Cipher) (vault : Vault Key Cipher) (order : List Slot) :
    Except VaultError (List (Slot × Text)) :=
  order.mapM fun slot => ((vault.get prims slot).mapError (.decrypting slot)).map (slot, ·)

/-- `order` is that in which the two loops over the maps meet the entries. -/
structure Migration where
  order : List Slot
  newSalt? : Option Text
  nonce? : Slot → Option Text
  written : Bool

def migrate (prims : Primitives Key Cipher) (password : Text) (given : Migration) :
    Action Key Cipher Nat := do
  let vault := (← get).vault
  if vault.data.version ≥ 2 then
    return 0
  let entries ← lift (collect prims vault given.order)
  let newSalt ← lift (ofOption .generatingNewSalt given.newSalt?)
  modify fun world => { world with vault := createVault prims password newSalt }
  entries.forM fun (slot, value) =>
    (setWithoutSave prims slot value (given.nonce? slot)).adaptExcept (.reEncrypting slot)
  (save given.written).adaptExcept .savingMigrated
  return entries.length

/-- What `Get` returns, none for any error. -/
def Vault.answer (prims : Primitives Key Cipher) (vault : Vault Key Cipher) (slot : Slot) :
    Option Text :=
  (vault.get prims slot).toOption

section
variable (prims : Primitives Key Cipher) (vault : Vault Key Cipher)

theorem answer_eq_bind (slot : Slot) :
    vault.answer prims slot = (vault.data.stored? slot).bind fun value =>
      prims.aead.decrypt? vault.key value.nonce (vault.aad slot) value.ciphertext := by
  unfold Vault.answer Vault.get VaultFile.stored?
  cases vault.data.scopes.find? slot.scope with
  | none => rfl
  | some scope =>
    cases isEntry : scope.keys.find? slot.key with
    | none => simp [ofOption, bind, Except.bind, isEntry, Except.toOption]
    | some entry =>
      simp only [ofOption, bind, Except.bind, isEntry, Option.bind_some, Option.map_some]
      cases prims.aead.decrypt? vault.key entry.value.nonce (vault.aad slot)
        entry.value.ciphertext <;> rfl

theorem answer_put (slot : Slot) (value nonce : Text) (other : Slot) :
    (vault.put prims slot value nonce).answer prims other =
      if other = slot then some value else vault.answer prims other := by
  rw [answer_eq_bind, answer_eq_bind]
  simp only [Vault.put, stored?_put]
  split_ifs with same
  · subst same
    exact prims.aead.opens _ _ _ _
  · rfl

theorem answer_remove (slot other : Slot) :
    ({ vault with data := vault.data.remove slot } : Vault Key Cipher).answer prims other =
      if other = slot then none else vault.answer prims other := by
  rw [answer_eq_bind, answer_eq_bind]
  simp only [stored?_remove]
  split_ifs
  · rfl
  · rfl

theorem answer_createVault (password salt : Text) (slot : Slot) :
    (createVault prims password salt).answer prims slot = none := rfl

end

/-- The JSON text keeps the name. -/
abbrev IsUtf8 (name : Text) : Prop := Utf8.lossy name = name

/-- All scopes and keys are as the JSON text has them. -/
def VaultFile.IsUtf8 (data : VaultFile Cipher) : Prop :=
  ∀ scope ∈ data.scopes.entries,
    Vaultkey.IsUtf8 scope.name ∧ ∀ entry ∈ scope.keys.entries, Vaultkey.IsUtf8 entry.key

theorem slot_isUtf8 (isUtf8 : data.IsUtf8) (isSlot : slot ∈ data.slots) :
    IsUtf8 slot.scope ∧ IsUtf8 slot.key := by
  obtain ⟨scope, isScope, isSlot⟩ := List.mem_flatMap.mp isSlot
  obtain ⟨entry, isEntry, rfl⟩ := List.mem_map.mp isSlot
  exact ⟨(isUtf8 scope isScope).1, (isUtf8 scope isScope).2 entry isEntry⟩

theorem readBackKeys_isUtf8 (keys : Table (@Entry.key Cipher)) :
    ∀ entry ∈ (readBackKeys keys).entries, IsUtf8 entry.key := by
  intro entry member
  obtain ⟨_, _, rfl⟩ := List.mem_map.mp (Table.mem_of_mem_ofList member)
  exact Utf8.lossy_lossy _

theorem readBack_isUtf8 (data : VaultFile Cipher) : data.readBack.IsUtf8 := by
  intro scope member
  obtain ⟨_, _, rfl⟩ := List.mem_map.mp (Table.mem_of_mem_ofList member)
  exact ⟨Utf8.lossy_lossy _, readBackKeys_isUtf8 _⟩

theorem find?_readBackKeys {keys : Table (@Entry.key Cipher)}
    (isUtf8 : ∀ entry ∈ keys.entries, IsUtf8 entry.key) (key : Text) :
    ((readBackKeys keys).find? key).map Entry.value = (keys.find? key).map Entry.value := by
  unfold readBackKeys
  rw [Table.find?_ofList_map (List.perm_insertionSort _ _) isUtf8, Option.map_map]
  rfl

theorem stored?_readBack (isUtf8 : data.IsUtf8) (slot : Slot) :
    data.readBack.stored? slot = data.stored? slot := by
  unfold VaultFile.stored? VaultFile.readBack
  dsimp only
  rw [Table.find?_ofList_map (List.perm_insertionSort _ _) fun scope member =>
    (isUtf8 scope member).1]
  cases isScope : data.scopes.find? slot.scope with
  | none => rfl
  | some scope =>
    have isStored := (Table.find?_eq_some_iff.mp isScope).1
    exact find?_readBackKeys (isUtf8 scope isStored).2 slot.key

theorem put_isUtf8 (isUtf8 : data.IsUtf8) (isScope : IsUtf8 slot.scope) (isKey : IsUtf8 slot.key)
    (value : EncryptedValue Cipher) :
    (data.put slot value).IsUtf8 := by
  intro scope member
  rcases Table.mem_put.mp member with rfl | ⟨isOld, _⟩
  · refine ⟨isScope, fun entry isEntry => ?_⟩
    rcases Table.mem_put.mp isEntry with rfl | ⟨isOldEntry, _⟩
    · exact isKey
    · split at isOldEntry
      · rename_i found isFound
        exact (isUtf8 found (Table.find?_eq_some_iff.mp isFound).1).2 entry isOldEntry
      · exact absurd isOldEntry List.not_mem_nil
  · exact isUtf8 scope isOld

theorem remove_isUtf8 (isUtf8 : data.IsUtf8) (slot : Slot) : (data.remove slot).IsUtf8 := by
  intro scope member
  simp only [VaultFile.remove] at member
  split at member
  · exact isUtf8 scope member
  · rename_i found isFound
    have foundUtf8 := isUtf8 found (Table.find?_eq_some_iff.mp isFound).1
    split at member
    · exact isUtf8 scope (Table.mem_remove.mp member).1
    · rcases Table.mem_put.mp member with rfl | ⟨isOld, _⟩
      · refine ⟨?_, fun entry isEntry => foundUtf8.2 entry (Table.mem_remove.mp isEntry).1⟩
        rw [← (Table.find?_eq_some_iff.mp isFound).2]
        exact foundUtf8.1
      · exact isUtf8 scope isOld

end AiTools.Vaultkey
