import Mathlib
import AiTools.Vaultkey.Vault

/-!
Contract: which vault files make the tool panic (`vault.go`).

Owns:
- a vault as `json.Unmarshal` fills it: maps that may be nil, parameters and nonces as they are;
- the operations with the calls that panic: a write to a nil map, Argon2id without rounds or
  threads, AES-GCM with a nonce of another length;
- `noPanic_iff`: the accepted files on which no run of operations panics.

The ciphers and base64 are parameters. A derived key has 32 bytes, so that making a cipher of it
does not fail.
-/

namespace AiTools.VaultPanics

open AiTools.Lib AiTools.Lib.Effect AiTools.Lib.Keyed
open AiTools.Vaultkey (Text Slot KDFParams defaultKDFParams currentVaultVersion kdfArgon2id buildAAD
  slash)
open Option (bind_eq_some_iff bind_some isSome_iff_exists)

def nonceSize : Nat := 12

structure RawValue where
  nonce : Text
  ciphertext : Text

structure KeyEntry where
  key : Text
  value : RawValue

/-- The inner map of a scope may be nil. -/
structure ScopeEntry where
  name : Text
  keys : Option (Table KeyEntry.key)

/-- A field that is missing from the JSON text is empty here, and a map nil. -/
structure VaultData where
  version : Int
  salt : Text
  kdf : Text
  kdfParams : Option KDFParams
  scopes : Option (Table ScopeEntry.name)

structure Vault (Key : Type) where
  data : VaultData
  key : Key

inductive Panic where
  | nilMap
  | kdf
  | nonceLength

inductive Fault where
  | unsupportedVersion (version : Int)
  | decodingSalt
  | scopeNotFound (slot : Slot)
  | keyNotFound (slot : Slot)
  | decodingNonce
  | decodingCiphertext
  | decryptionFailed
  | generatingNonce
  | generatingNewSalt
  | writingVault
  | panic (panic : Panic)

/-- Base64 of the standard library, and the functions under `deriveKey`, `Seal` and `Open` where
they do not panic. -/
structure Primitives (Key : Type) where
  decodeString : Text → Option Text
  encodeToString : Text → Text
  decodes : ∀ bytes, decodeString (encodeToString bytes) = some bytes
  argon2 : Text → Text → KDFParams → Key
  pbkdf2 : Text → Text → Key
  sealed : Key → Text → Text → Text → Text
  opened : Key → Text → Text → Text → Option Text

variable {Key : Type} (prims : Primitives Key)

/-- `argon2.IDKey`. -/
def idKey (password salt : Text) (params : KDFParams) : Except Fault Key :=
  if params.iterations < 1 ∨ params.parallelism < 1 then .error (.panic .kdf)
  else .ok (prims.argon2 password salt params)

/-- `gcm.Seal`. -/
def gcmSeal (key : Key) (nonce plaintext aad : Text) : Except Fault Text :=
  if nonce.length ≠ nonceSize then .error (.panic .nonceLength)
  else .ok (prims.sealed key nonce plaintext aad)

/-- `gcm.Open`. -/
def gcmOpen (key : Key) (nonce ciphertext aad : Text) : Except Fault Text :=
  if nonce.length ≠ nonceSize then .error (.panic .nonceLength)
  else ofOption .decryptionFailed (prims.opened key nonce ciphertext aad)

/-- An assignment to an entry of a map. -/
def assign {Record Name : Type} [DecidableEq Name] {name : Record → Name}
    (map : Option (Table name)) (record : Record) : Except Fault (Table name) :=
  match map with
  | none => .error (.panic .nilMap)
  | some table => .ok (table.put record)

def VaultData.scope? (data : VaultData) (name : Text) : Option ScopeEntry :=
  data.scopes.bind fun scopes => scopes.find? name

/-- `Scopes[scope]`, nil when there is none. -/
def VaultData.keys (data : VaultData) (name : Text) : Option (Table KeyEntry.key) :=
  (data.scope? name).bind ScopeEntry.keys

def VaultData.stored? (data : VaultData) (slot : Slot) : Option RawValue :=
  (data.keys slot.scope).bind fun keys => (keys.find? slot.key).map KeyEntry.value

def deriveKey (password salt : Text) (version : Int) (params : Option KDFParams) :
    Except Fault Key :=
  match params with
  | some params =>
    if version ≥ 2 then idKey prims password salt params else .ok (prims.pbkdf2 password salt)
  | none => .ok (prims.pbkdf2 password salt)

def loadVault (password : Text) (data : VaultData) : Except Fault (Vault Key) := do
  if data.version < 1 ∨ data.version > currentVaultVersion then
    throw (.unsupportedVersion data.version)
  let salt ← ofOption .decodingSalt (prims.decodeString data.salt)
  let key ← deriveKey prims password salt data.version data.kdfParams
  return { data, key }

def Vault.aad (vault : Vault Key) (slot : Slot) : Text :=
  if vault.data.version ≥ 2 then buildAAD slot else []

def Vault.get (vault : Vault Key) (slot : Slot) : Except Fault Text := do
  let scope ← ofOption (.scopeNotFound slot) (vault.data.scope? slot.scope)
  let entry ← ofOption (.keyNotFound slot) (scope.keys.bind fun keys => keys.find? slot.key)
  let nonce ← ofOption .decodingNonce (prims.decodeString entry.value.nonce)
  let ciphertext ← ofOption .decodingCiphertext (prims.decodeString entry.value.ciphertext)
  gcmOpen prims vault.key nonce ciphertext (vault.aad slot)

/-- The map of a scope is made where it is nil. -/
def VaultData.withScope (data : VaultData) (name : Text) : Except Fault VaultData :=
  match data.keys name with
  | some _ => .ok data
  | none => do
    let scopes ← assign data.scopes ⟨name, some .empty⟩
    return { data with scopes := some scopes }

def VaultData.assigned (data : VaultData) (slot : Slot) (value : RawValue) :
    Except Fault VaultData := do
  let data ← data.withScope slot.scope
  let keys ← assign (data.keys slot.scope) ⟨slot.key, value⟩
  let scopes ← assign data.scopes ⟨slot.scope, some keys⟩
  return { data with scopes := some scopes }

abbrev Action (Key : Type) := EStateM Fault (Vault Key)

def setWithoutSave (slot : Slot) (value : Text) (nonce? : Option (Fin nonceSize → UInt8)) :
    Action Key PUnit := do
  let random ← lift (ofOption .generatingNonce nonce?)
  let nonce := List.ofFn random
  let vault ← get
  let ciphertext ← lift (gcmSeal prims vault.key nonce value (vault.aad slot))
  let data ← lift (vault.data.assigned slot
    ⟨prims.encodeToString nonce, prims.encodeToString ciphertext⟩)
  set { vault with data }

def save (written : Bool) : Action Key Unit := require (written = true) .writingVault

/-- `delete` of a key, and of the scope that is left empty. -/
def VaultData.removed (data : VaultData) (slot : Slot) : VaultData :=
  { data with
    scopes := data.scopes.map fun scopes =>
      match data.keys slot.scope with
      | none => scopes
      | some keys =>
        if (keys.remove slot.key).entries.isEmpty then scopes.remove slot.scope
        else scopes.put ⟨slot.scope, some (keys.remove slot.key)⟩ }

def delete (slot : Slot) (written : Bool) : Action Key Unit := do
  let vault ← get
  let scope ← lift (ofOption (.scopeNotFound slot) (vault.data.scope? slot.scope))
  let _ ← lift (ofOption (.keyNotFound slot) (scope.keys.bind fun keys => keys.find? slot.key))
  set { vault with data := vault.data.removed slot }
  save written

/-- A range over a nil map has no entries. -/
def VaultData.list (data : VaultData) (start : Text) : List Text :=
  let scopes := (data.scopes.map Table.entries).getD []
  let listed := (scopes.filter fun scope => start.isPrefixOf scope.name).flatMap fun scope =>
    ((scope.keys.map Table.entries).getD []).map fun entry => scope.name ++ slash :: entry.key
  listed.insertionSort (· ≤ ·)

/-- `order` is that in which the loops over the maps meet the entries. -/
structure Migration where
  password : Text
  order : List Slot
  newSalt? : Option Text
  nonce? : Slot → Option (Fin nonceSize → UInt8)
  written : Bool

def migrate (given : Migration) : Action Key Nat := do
  let vault ← get
  if vault.data.version ≥ 2 then
    return 0
  let entries ← lift (given.order.mapM fun slot =>
    (vault.get prims slot).map fun value => (slot, value))
  let newSalt ← lift (ofOption .generatingNewSalt given.newSalt?)
  let key ← lift (deriveKey prims given.password newSalt currentVaultVersion
    (some defaultKDFParams))
  set { key, data :=
    { version := currentVaultVersion
      salt := prims.encodeToString newSalt
      kdf := kdfArgon2id
      kdfParams := some defaultKDFParams
      scopes := some .empty } : Vault Key }
  entries.forM fun entry => setWithoutSave prims entry.1 entry.2 (given.nonce? entry.1)
  save given.written
  return entries.length

inductive Op where
  | get (slot : Slot)
  | set (slot : Slot) (value : Text) (nonce? : Option (Fin nonceSize → UInt8)) (written : Bool)
  | delete (slot : Slot) (written : Bool)
  | list (start : Text)
  | migrate (given : Migration)

def runOp : Op → Action Key PUnit
  | .get slot => do
    let vault ← get
    let _ ← lift (vault.get prims slot)
  | .set slot value nonce? written => do
    setWithoutSave prims slot value nonce?
    save written
  | .delete slot written => delete slot written
  | .list start => do
    let vault ← get
    let _ := vault.data.list start
    return ()
  | .migrate given => do
    let _ ← migrate prims given

/-- An error is returned; after a panic there is no vault. -/
def step (vault : Vault Key) (op : Op) : Option (Vault Key) :=
  match runOp prims op vault with
  | .ok _ next => some next
  | .error (.panic _) _ => none
  | .error _ next => some next

/-- Neither the load nor any run of operations on the vault panics. -/
def NoPanic (password : Text) (data : VaultData) : Prop :=
  match loadVault prims password data with
  | .ok vault => ∀ ops : List Op, (ops.foldlM (step prims) vault).isSome = true
  | .error fault => ∀ panic, fault ≠ .panic panic

/-- What `LoadVault` checks. -/
def Accepted (data : VaultData) : Prop :=
  1 ≤ data.version ∧ data.version ≤ currentVaultVersion ∧
    (prims.decodeString data.salt).isSome = true

def KdfFits (data : VaultData) : Prop :=
  data.version ≥ 2 → ∀ params, data.kdfParams = some params →
    1 ≤ params.iterations ∧ 1 ≤ params.parallelism

/-- There are scopes, and every nonce that is decoded has the length of one. -/
structure Sound (data : VaultData) : Prop where
  hasScopes : data.scopes.isSome = true
  nonces : ∀ slot value, data.stored? slot = some value → ∀ nonce ciphertext,
    prims.decodeString value.nonce = some nonce →
      prims.decodeString value.ciphertext = some ciphertext → nonce.length = nonceSize

variable {prims}
variable {data : VaultData}

theorem keys_put {scopes : Table ScopeEntry.name}
    (isScopes : data.scopes = some scopes) (scope : ScopeEntry) (name : Text) :
    ({ data with scopes := some (scopes.put scope) } : VaultData).keys name =
      if scope.name = name then scope.keys else data.keys name := by
  unfold VaultData.keys VaultData.scope?
  rw [isScopes]
  simp only [bind_some, Table.find?_put]
  split_ifs <;> rfl

theorem keys_remove {scopes : Table ScopeEntry.name}
    (isScopes : data.scopes = some scopes) (gone name : Text) :
    ({ data with scopes := some (scopes.remove gone) } : VaultData).keys name =
      if name = gone then none else data.keys name := by
  unfold VaultData.keys VaultData.scope?
  rw [isScopes]
  simp only [bind_some, Table.find?_remove]
  split_ifs <;> rfl

theorem withScope_ok (hasScopes : data.scopes.isSome = true) (name : Text) :
    ∃ next keys, data.withScope name = .ok next ∧ next.scopes.isSome = true ∧
      next.keys name = some keys ∧ ∀ slot, next.stored? slot = data.stored? slot := by
  obtain ⟨scopes, isScopes⟩ := isSome_iff_exists.mp hasScopes
  unfold VaultData.withScope
  cases isKeys : data.keys name with
  | some keys => exact ⟨data, keys, rfl, hasScopes, isKeys, fun _ => rfl⟩
  | none =>
    rw [isScopes]
    refine ⟨_, .empty, rfl, rfl, ?_, fun slot => ?_⟩
    · rw [keys_put isScopes, if_pos rfl]
    · unfold VaultData.stored?
      rw [keys_put isScopes]
      split_ifs with same
      · rw [← same, isKeys]
        rfl
      · rfl

theorem assigned_ok (hasScopes : data.scopes.isSome = true) (slot : Slot)
    (value : RawValue) : ∃ next, data.assigned slot value = .ok next ∧ next.scopes.isSome = true ∧
      ∀ other, next.stored? other = if other = slot then some value else data.stored? other := by
  obtain ⟨made, keys, isMade, madeScopes, isKeys, sameStored⟩ := withScope_ok hasScopes slot.scope
  obtain ⟨scopes, isScopes⟩ := isSome_iff_exists.mp madeScopes
  unfold VaultData.assigned
  rw [isMade]
  change ∃ next, (do
    let keys ← assign (made.keys slot.scope) ⟨slot.key, value⟩
    let scopes ← assign made.scopes ⟨slot.scope, some keys⟩
    return { made with scopes := some scopes }) = Except.ok next ∧ _
  rw [isKeys, isScopes]
  refine ⟨_, rfl, rfl, fun other => ?_⟩
  rw [← sameStored]
  unfold VaultData.stored?
  rw [keys_put isScopes]
  obtain ⟨scope, key⟩ := slot
  obtain ⟨otherScope, otherKey⟩ := other
  simp only [Slot.mk.injEq]
  by_cases sameScope : scope = otherScope
  · subst sameScope
    rw [if_pos rfl, isKeys, bind_some, bind_some, Table.find?_put]
    by_cases sameKey : key = otherKey
    · simp [sameKey]
    · simp [sameKey, Ne.symm sameKey]
  · rw [if_neg sameScope, if_neg fun same => sameScope same.1.symm]

theorem stored?_removed {slot other : Slot} {value : RawValue}
    (isStored : (data.removed slot).stored? other = some value) :
    data.stored? other = some value := by
  cases isScopes : data.scopes with
  | none =>
    have sameData : data.removed slot = data := by
      unfold VaultData.removed
      rw [isScopes]
      cases data
      cases isScopes
      rfl
    rwa [sameData] at isStored
  | some scopes =>
    cases isKeys : data.keys slot.scope with
    | none =>
      have sameData : data.removed slot = data := by
        unfold VaultData.removed
        rw [isScopes, isKeys]
        cases data
        cases isScopes
        rfl
      rwa [sameData] at isStored
    | some keys =>
      unfold VaultData.removed at isStored
      rw [isScopes, isKeys] at isStored
      simp only [Option.map_some] at isStored
      unfold VaultData.stored? at isStored ⊢
      split_ifs at isStored with isEmpty
      · rw [keys_remove isScopes] at isStored
        split_ifs at isStored
        · cases isStored
        · exact isStored
      · rw [keys_put isScopes] at isStored
        split_ifs at isStored with same
        · simp only [bind_some, Table.find?_remove] at isStored
          split_ifs at isStored
          · cases isStored
          · rw [← same, isKeys]
            exact isStored
        · exact isStored

theorem Sound.assigned {next : VaultData} {slot : Slot} {value : RawValue}
    (sound : Sound prims data) (nonceFits : ∀ nonce, prims.decodeString value.nonce = some nonce →
      nonce.length = nonceSize) (isNext : data.assigned slot value = .ok next) :
    Sound prims next := by
  obtain ⟨made, isMade, madeScopes, isStored⟩ := assigned_ok sound.hasScopes slot value
  cases isMade.symm.trans isNext
  refine ⟨madeScopes, fun other stored otherStored nonce ciphertext isNonce isCiphertext => ?_⟩
  rw [isStored] at otherStored
  split_ifs at otherStored with same
  · cases otherStored
    exact nonceFits nonce isNonce
  · exact sound.nonces other stored otherStored nonce ciphertext isNonce isCiphertext

theorem Sound.removed {data : VaultData} (sound : Sound prims data) (slot : Slot) :
    Sound prims (data.removed slot) where
  hasScopes := by
    obtain ⟨scopes, isScopes⟩ := isSome_iff_exists.mp sound.hasScopes
    unfold VaultData.removed
    rw [isScopes]
    rfl
  nonces := fun other value isStored => sound.nonces other value (stored?_removed isStored)

/-! ## Operations -/

variable {α : Type} {panic : Panic}

theorem ofOption_noPanic {fault : Fault} {value : Option α}
    (isFault : fault ≠ .panic panic) : ofOption fault value ≠ .error (.panic panic) := by
  cases value with
  | none => exact fun same => isFault (Except.error.inj same)
  | some found => exact nofun

theorem bind_noPanic {β : Type} {first : Except Fault α} {later : α → Except Fault β}
    (firstNot : first ≠ .error (.panic panic))
    (laterNot : ∀ result, first = .ok result → later result ≠ .error (.panic panic)) :
    first >>= later ≠ .error (.panic panic) := by
  cases first with
  | ok result => exact laterNot result rfl
  | error fault =>
    intro same
    exact firstNot (congrArg Except.error (Except.error.inj same))

variable {vault : Vault Key}

theorem get_noPanic (sound : Sound prims vault.data) (slot : Slot)
    (panic : Panic) : vault.get prims slot ≠ .error (.panic panic) := by
  unfold Vault.get
  refine bind_noPanic (ofOption_noPanic (by simp)) fun scope isScope => ?_
  refine bind_noPanic (ofOption_noPanic (by simp)) fun entry isEntry => ?_
  refine bind_noPanic (ofOption_noPanic (by simp)) fun nonce isNonce => ?_
  refine bind_noPanic (ofOption_noPanic (by simp)) fun ciphertext isCiphertext => ?_
  have isStored : vault.data.stored? slot = some entry.value := by
    obtain ⟨keys, isKeys, isFound⟩ := bind_eq_some_iff.mp (ofOption_eq_ok isEntry)
    unfold VaultData.stored? VaultData.keys
    rw [ofOption_eq_ok isScope, bind_some, isKeys, bind_some, isFound]
    rfl
  have isLength := sound.nonces slot entry.value isStored nonce ciphertext
    (ofOption_eq_ok isNonce) (ofOption_eq_ok isCiphertext)
  rw [gcmOpen, if_neg (not_not.mpr isLength)]
  exact ofOption_noPanic (by simp)

theorem mapM_noPanic {β : Type} {each : α → Except Fault β}
    (eachNot : ∀ value, each value ≠ .error (.panic panic)) (values : List α) :
    values.mapM each ≠ .error (.panic panic) := by
  induction values with
  | nil => exact nofun
  | cons value rest ih =>
    rw [List.mapM_cons]
    exact bind_noPanic (eachNot value) fun _ _ =>
      bind_noPanic ih nofun

variable (prims) in
/-- Neither result is a panic, and the vault stays sound. -/
def Keeps {α : Type} (program : Action Key α) : Prop :=
  ∀ vault : Vault Key, Sound prims vault.data →
    Ends program (fun result next =>
      (∀ panic, result ≠ .error (.panic panic)) ∧ Sound prims next.data) vault

theorem Keeps.bind {β : Type} {first : Action Key α} {later : α → Action Key β}
    (keeps : Keeps prims first) (each : ∀ result, Keeps prims (later result)) :
    Keeps prims (first >>= later) := by
  intro vault sound
  refine (keeps vault sound).bind (fun result next ended => each result next ended.2) ?_
  intro fault next ended
  refine ⟨fun panic same => ended.1 panic ?_, ended.2⟩
  exact congrArg Except.error (Except.error.inj same)

theorem keeps_pure (result : α) : Keeps prims (pure result : Action Key α) :=
  fun _ sound => ends_pure.mpr ⟨nofun, sound⟩

theorem keeps_lift {value : Except Fault α} (noPanic : ∀ panic, value ≠ .error (.panic panic)) :
    Keeps prims (lift value : Action Key α) := by
  intro vault sound
  cases value with
  | ok result => exact keeps_pure result vault sound
  | error fault =>
    exact ends_throw.mpr
      ⟨fun panic same => noPanic panic (congrArg Except.error (Except.error.inj same)), sound⟩

theorem keeps_get {later : Vault Key → Action Key α}
    (each : ∀ vault, Sound prims vault.data → Keeps prims (later vault)) :
    Keeps prims (get >>= later) := fun vault sound => each vault sound vault sound

theorem keeps_set {next : Vault Key} (nextSound : Sound prims next.data) :
    Keeps prims (set next : Action Key PUnit) :=
  fun _ _ => ends_set.mpr ⟨nofun, nextSound⟩

theorem save_keeps (written : Bool) : Keeps prims (save written : Action Key Unit) := by
  intro vault sound
  unfold save require
  split_ifs
  · exact keeps_pure () vault sound
  · exact ends_throw.mpr ⟨nofun, sound⟩

theorem setWithoutSave_keeps (slot : Slot) (value : Text)
    (nonce? : Option (Fin nonceSize → UInt8)) :
    Keeps prims (setWithoutSave prims slot value nonce?) := by
  unfold setWithoutSave
  refine (keeps_lift fun _ => ofOption_noPanic (by simp)).bind fun random => ?_
  refine keeps_get fun vault sound => ?_
  have isLength : (List.ofFn random).length = nonceSize := List.length_ofFn
  refine (keeps_lift fun panic => ?_).bind fun ciphertext => ?_
  · rw [gcmSeal, if_neg (not_not.mpr isLength)]
    exact nofun
  · obtain ⟨next, isNext, -⟩ := assigned_ok sound.hasScopes slot
      ⟨prims.encodeToString (List.ofFn random), prims.encodeToString ciphertext⟩
    have nextSound : Sound prims next := by
      refine sound.assigned (fun nonce isNonce => ?_) isNext
      rw [prims.decodes] at isNonce
      rw [← Option.some.inj isNonce, isLength]
    rw [isNext]
    exact @keeps_set _ prims { vault with data := next } nextSound

theorem delete_keeps (slot : Slot) (written : Bool) :
    Keeps prims (delete slot written : Action Key Unit) := by
  unfold delete
  refine keeps_get fun vault sound => ?_
  refine (keeps_lift fun _ => ofOption_noPanic (by simp)).bind fun scope => ?_
  refine (keeps_lift fun _ => ofOption_noPanic (by simp)).bind fun _ => ?_
  exact (@keeps_set _ prims { vault with data := vault.data.removed slot }
    (sound.removed slot)).bind fun _ => save_keeps written

theorem forM_keeps {body : α → Action Key PUnit}
    (each : ∀ value, Keeps prims (body value)) (values : List α) : Keeps prims (values.forM body) := by
  induction values with
  | nil => exact keeps_pure _
  | cons value rest ih => exact (each value).bind fun _ => ih

theorem sound_empty (isEmpty : data.scopes = some .empty) : Sound prims data where
  hasScopes := by rw [isEmpty]; rfl
  nonces := by
    intro slot value isStored
    unfold VaultData.stored? VaultData.keys VaultData.scope? at isStored
    simp [isEmpty] at isStored

theorem deriveKey_default_noPanic (password salt : Text) (panic : Panic) :
    deriveKey prims password salt currentVaultVersion (some defaultKDFParams) ≠
      .error (.panic panic) := by
  have isKey : idKey prims password salt defaultKDFParams =
      .ok (prims.argon2 password salt defaultKDFParams) := if_neg (by decide)
  unfold deriveKey
  dsimp only
  rw [if_pos (by decide), isKey]
  exact nofun

theorem deriveKey_error {password salt : Text} {version : Int} {params : Option KDFParams}
    {fault : Fault} (isFault : deriveKey prims password salt version params = .error fault) :
    fault = .panic .kdf := by
  unfold deriveKey idKey at isFault
  cases params with
  | none => cases isFault
  | some params =>
    dsimp only at isFault
    split_ifs at isFault
    cases isFault
    rfl

theorem migrate_keeps (given : Migration) : Keeps prims (migrate prims given) := by
  unfold migrate
  refine keeps_get fun vault sound => ?_
  split_ifs
  · exact keeps_pure 0
  · have areNoPanics : ∀ panic, (given.order.mapM fun slot =>
        (vault.get prims slot).map fun value => (slot, value)) ≠ .error (.panic panic) := by
      refine fun panic => mapM_noPanic (fun slot same => ?_) given.order
      cases isGet : vault.get prims slot with
      | ok value => rw [isGet] at same; cases same
      | error fault =>
        rw [isGet] at same
        cases Except.error.inj same
        exact get_noPanic sound slot panic isGet
    refine (keeps_lift areNoPanics).bind fun entries => ?_
    refine (keeps_lift fun _ => ofOption_noPanic (by simp)).bind fun newSalt => ?_
    refine (keeps_lift (deriveKey_default_noPanic given.password newSalt)).bind fun key => ?_
    refine Keeps.bind (keeps_set ?_) fun _ => ?_
    · exact sound_empty rfl
    refine Keeps.bind (forM_keeps (fun entry => ?_) entries) fun _ => ?_
    · exact setWithoutSave_keeps entry.1 entry.2 (given.nonce? entry.1)
    exact (save_keeps given.written).bind fun _ => keeps_pure entries.length

theorem run_keeps (op : Op) : Keeps prims (runOp prims op) := by
  cases op with
  | get slot =>
    exact keeps_get fun vault sound =>
      (keeps_lift (get_noPanic sound slot)).bind fun _ => keeps_pure _
  | set slot value nonce? written =>
    exact (setWithoutSave_keeps slot value nonce?).bind fun _ => save_keeps written
  | delete slot written => exact delete_keeps slot written
  | list start => exact keeps_get fun _ _ => keeps_pure _
  | migrate given => exact (migrate_keeps given).bind fun _ => keeps_pure _

/-! ## Runs -/

theorem step_sound (sound : Sound prims vault.data) (op : Op) :
    ∃ next, step prims vault op = some next ∧ Sound prims next.data := by
  have ends := run_keeps op vault sound
  unfold Ends at ends
  unfold step
  cases isRun : runOp prims op vault with
  | ok result next =>
    rw [isRun] at ends
    exact ⟨next, rfl, ends.2⟩
  | error fault next =>
    rw [isRun] at ends
    cases fault with
    | panic panic => exact absurd rfl (ends.1 panic)
    | _ => exact ⟨next, rfl, ends.2⟩

theorem run_sound {vault : Vault Key} (sound : Sound prims vault.data) (ops : List Op) :
    (ops.foldlM (step prims) vault).isSome = true := by
  induction ops generalizing vault with
  | nil => rfl
  | cons op rest ih =>
    obtain ⟨next, isNext, nextSound⟩ := step_sound sound op
    rw [List.foldlM_cons, isNext]
    exact ih nextSound

theorem no_panic_of_run (noPanic : ∀ ops : List Op,
    (ops.foldlM (step prims) vault).isSome = true) {op : Op} {next : Vault Key} :
    runOp prims op vault ≠ .error (.panic panic) next := by
  intro isRun
  have isSome := noPanic [op]
  simp [List.foldlM_cons, step, isRun] at isSome

theorem loadVault_eq {password : Text} {data : VaultData} (accepted : Accepted prims data) :
    ∃ salt, loadVault prims password data =
      (deriveKey prims password salt data.version data.kdfParams).map fun key => ⟨data, key⟩ := by
  obtain ⟨isFirst, isLast, isSalt⟩ := accepted
  obtain ⟨salt, isSalt⟩ := isSome_iff_exists.mp isSalt
  refine ⟨salt, ?_⟩
  unfold loadVault
  rw [if_neg (by omega), isSalt]
  rfl

theorem deriveKey_ok (password salt : Text) {data : VaultData} (fits : KdfFits data) :
    ∃ key, deriveKey prims password salt data.version data.kdfParams = .ok key := by
  unfold deriveKey
  cases isParams : data.kdfParams with
  | none => exact ⟨_, rfl⟩
  | some params =>
    dsimp only
    split_ifs with isSecond
    · obtain ⟨hasRounds, hasThreads⟩ := fits isSecond params isParams
      refine ⟨_, if_neg (not_or.mpr ⟨?_, ?_⟩)⟩
      · exact UInt32.not_lt.mpr hasRounds
      · exact UInt8.not_lt.mpr hasThreads
    · exact ⟨_, rfl⟩

theorem kdfFits_of_ok {password salt : Text} {key : Key}
    (isKey : deriveKey prims password salt data.version data.kdfParams = .ok key) :
    KdfFits data := by
  intro isSecond params isParams
  unfold deriveKey idKey at isKey
  rw [isParams] at isKey
  dsimp only at isKey
  rw [if_pos isSecond] at isKey
  split_ifs at isKey with isZero
  obtain ⟨hasRounds, hasThreads⟩ := not_or.mp isZero
  exact ⟨UInt32.not_lt.mp hasRounds, UInt8.not_lt.mp hasThreads⟩

theorem noPanic_of_rejected {password : Text}
    (notAccepted : ¬Accepted prims data) : NoPanic prims password data := by
  unfold NoPanic loadVault
  by_cases isVersion : data.version < 1 ∨ data.version > currentVaultVersion
  · rw [if_pos isVersion]
    exact nofun
  · rw [if_neg isVersion]
    cases isSalt : prims.decodeString data.salt with
    | none => exact nofun
    | some salt =>
      exact absurd ⟨by omega, by omega, by rw [isSalt]; rfl⟩ notAccepted

/-- A value under an empty name, of zero bytes as the nonce. -/
def setEmpty : Op := .set ⟨[], []⟩ [] (some fun _ => 0) true

theorem lift_ok (result : α) (vault : Vault Key) :
    (lift (.ok result) : Action Key α) vault = .ok result vault := rfl

theorem panics_setEmpty {vault : Vault Key} (isNil : vault.data.scopes = none) :
    runOp prims setEmpty vault = .error (.panic .nilMap) vault := by
  have noKeys : ∀ name, vault.data.keys name = none := by
    intro name
    unfold VaultData.keys VaultData.scope?
    rw [isNil]
    rfl
  have isPanic : ∀ value, vault.data.assigned ⟨[], []⟩ value = .error (.panic .nilMap) := by
    intro value
    unfold VaultData.assigned VaultData.withScope
    rw [noKeys, isNil]
    rfl
  have isSealed : gcmSeal prims vault.key (List.ofFn fun _ : Fin nonceSize => 0) []
      (vault.aad ⟨[], []⟩) = .ok (prims.sealed vault.key (List.ofFn fun _ : Fin nonceSize => 0) []
        (vault.aad ⟨[], []⟩)) := if_neg (by simp)
  have ran : setWithoutSave prims ⟨[], []⟩ [] (some fun _ => 0) vault =
      .error (.panic .nilMap) vault := by
    unfold setWithoutSave
    have isRandom : (lift (ofOption Fault.generatingNonce (some fun _ => 0)) :
        Action Key (Fin nonceSize → UInt8)) vault = .ok (fun _ => 0) vault := rfl
    refine (bind_of_ok isRandom).trans ?_
    have isVault : (get : Action Key (Vault Key)) vault = .ok vault vault := rfl
    refine (bind_of_ok isVault).trans ?_
    rw [isSealed]
    refine (bind_of_ok (lift_ok _ vault)).trans ?_
    rw [isPanic]
    rfl
  change EStateM.bind (setWithoutSave prims ⟨[], []⟩ [] (some fun _ => 0)) _ vault = _
  unfold EStateM.bind
  rw [ran]

theorem panics_get {vault : Vault Key} {slot : Slot}
    (isGet : vault.get prims slot = .error (.panic .nonceLength)) :
    runOp prims (.get slot) vault = .error (.panic .nonceLength) vault := by
  change (lift (vault.get prims slot) >>= _ : Action Key PUnit) vault = _
  rw [isGet]
  rfl

theorem get_ofStored {vault : Vault Key} {slot : Slot} {value : RawValue} {nonce ciphertext : Text}
    (isStored : vault.data.stored? slot = some value)
    (isNonce : prims.decodeString value.nonce = some nonce)
    (isCiphertext : prims.decodeString value.ciphertext = some ciphertext) :
    vault.get prims slot = gcmOpen prims vault.key nonce ciphertext (vault.aad slot) := by
  unfold VaultData.stored? VaultData.keys at isStored
  obtain ⟨keys, isKeys, isEntry⟩ := bind_eq_some_iff.mp isStored
  obtain ⟨scope, isScope, isScopeKeys⟩ := bind_eq_some_iff.mp isKeys
  obtain ⟨entry, isFound, rfl⟩ := Option.map_eq_some_iff.mp isEntry
  unfold Vault.get
  rw [isScope]
  change (ofOption (Fault.keyNotFound slot) (scope.keys.bind fun keys => keys.find? slot.key)
    >>= _) = _
  rw [isScopeKeys, bind_some, isFound]
  change (ofOption Fault.decodingNonce (prims.decodeString entry.value.nonce) >>= _) = _
  rw [isNonce]
  change (ofOption Fault.decodingCiphertext (prims.decodeString entry.value.ciphertext) >>= _) = _
  rw [isCiphertext]
  rfl

/-- The vaults on which nothing panics are those the key is derived for, that have scopes, and whose
nonces have their length. -/
theorem noPanic_iff (password : Text) (data : VaultData) :
    NoPanic prims password data ↔ (Accepted prims data → KdfFits data ∧ Sound prims data) := by
  constructor
  · intro noPanic accepted
    obtain ⟨salt, isLoad⟩ := @loadVault_eq Key prims password data accepted
    unfold NoPanic at noPanic
    rw [isLoad] at noPanic
    cases isKey : deriveKey prims password salt data.version data.kdfParams with
    | error fault =>
      rw [isKey] at noPanic
      exact absurd (deriveKey_error isKey) (noPanic .kdf)
    | ok key =>
      rw [isKey] at noPanic
      change ∀ ops : List Op, (ops.foldlM (step prims) (⟨data, key⟩ : Vault Key)).isSome = true
        at noPanic
      refine ⟨kdfFits_of_ok isKey, Option.isSome_iff_ne_none.mpr fun isNil => ?_, ?_⟩
      · exact no_panic_of_run noPanic (@panics_setEmpty Key prims ⟨data, key⟩ isNil)
      · intro slot value isStored nonce ciphertext isNonce isCiphertext
        by_contra isOther
        refine no_panic_of_run noPanic (@panics_get Key prims ⟨data, key⟩ slot ?_)
        rw [@get_ofStored Key prims ⟨data, key⟩ slot value nonce ciphertext isStored isNonce
          isCiphertext]
        exact if_pos isOther
  · intro fits
    by_cases accepted : Accepted prims data
    · obtain ⟨kdfFits, sound⟩ := fits accepted
      obtain ⟨salt, isLoad⟩ := @loadVault_eq Key prims password data accepted
      obtain ⟨key, isKey⟩ := @deriveKey_ok Key prims password salt data kdfFits
      unfold NoPanic
      rw [isLoad, isKey]
      exact fun ops => @run_sound Key prims ⟨data, key⟩ sound ops
    · exact noPanic_of_rejected accepted

/-- Every text is its own encoding; the ciphers leave the text as it is. -/
def plain : Primitives Text where
  decodeString := some
  encodeToString := id
  decodes := fun _ => rfl
  argon2 := fun password _ _ => password
  pbkdf2 := fun password _ => password
  sealed := fun _ _ text _ => text
  opened := fun _ _ text _ => some text

/-- The file `{"version": 1, "salt": ""}`. -/
def withoutScopes : VaultData := ⟨1, [], [], none, none⟩

theorem withoutScopes_accepted : Accepted plain withoutScopes := ⟨by decide, by decide, rfl⟩

theorem not_noPanic : ¬∀ (Key : Type) (prims : Primitives Key) (password : Text)
    (data : VaultData), Accepted prims data → NoPanic prims password data := by
  intro noPanic
  have isSome : (([setEmpty] : List Op).foldlM (step plain)
      (⟨withoutScopes, []⟩ : Vault Text)).isSome = true :=
    noPanic Text plain [] withoutScopes withoutScopes_accepted [setEmpty]
  rw [List.foldlM_cons, step, @panics_setEmpty Text plain ⟨withoutScopes, []⟩ rfl] at isSome
  cases isSome

end AiTools.VaultPanics
