import AiTools.Lib.Transition
import AiTools.Vaultkey.Vault
import Mathlib.Data.List.Perm.Basic

/-!
Contract: what a vault answers over any operations, in memory and when its file is loaded.
-/

namespace AiTools.Vaultkey

open AiTools.Lib AiTools.Lib.Effect AiTools.Lib.Keyed AiTools.Lib.Transition

variable {Key Cipher : Type}

inductive Op where
  | set (slot : Slot) (value : Text) (nonce? : Option Text) (written : Bool)
  | delete (slot : Slot) (written : Bool)
  | migrate (given : Migration)
  | reload

def reload (prims : Primitives Key Cipher) (password : Text) : Action Key Cipher Unit := do
  let vault ← lift (loadVault prims password (← get).file)
  modify fun world => { world with vault }

def Op.run (prims : Primitives Key Cipher) (password : Text) : Op → Action Key Cipher PUnit
  | .set slot value nonce? written => Vaultkey.set prims slot value nonce? written
  | .delete slot written => Vaultkey.delete slot written
  | .migrate given => discard (Vaultkey.migrate prims password given)
  | .reload => Vaultkey.reload prims password

/-- The loops of a migration meet each entry once. -/
def Op.Enabled (world : World Key Cipher) : Op → Prop
  | .migrate given => given.order.Perm world.vault.data.slots
  | _ => True

instance (world : World Key Cipher) : (op : Op) → Decidable (op.Enabled world)
  | .set .. => isTrue trivial
  | .delete .. => isTrue trivial
  | .migrate given => inferInstanceAs (Decidable (given.order.Perm world.vault.data.slots))
  | .reload => isTrue trivial

abbrev Contents := Slot → Option Text

/-- What an operation that returns no error does to the values. -/
def Op.records (contents : Contents) : Op → Contents
  | .set slot value _ _ => Function.update contents slot (some value)
  | .delete slot _ => Function.update contents slot none
  | .migrate _ => contents
  | .reload => contents

structure Recorded (Key Cipher : Type) where
  world : World Key Cipher
  contents : Contents

def step (prims : Primitives Key Cipher) (password : Text) (recorded : Recorded Key Cipher)
    (op : Op) : Option (Recorded Key Cipher) :=
  if op.Enabled recorded.world then
    match op.run prims password recorded.world with
    | .ok _ next => some ⟨next, op.records recorded.contents⟩
    | .error _ next => some { recorded with world := next }
  else none

/-- A vault that was just loaded, with what it answers. -/
def opened (prims : Primitives Key Cipher) (vault : Vault Key Cipher) (file : VaultFile Cipher) :
    Recorded Key Cipher :=
  ⟨⟨vault, file⟩, vault.answer prims⟩

def Faithful (prims : Primitives Key Cipher) (password : Text)
    (recorded : Recorded Key Cipher) : Prop :=
  (∀ slot, recorded.world.vault.answer prims slot = recorded.contents slot) ∧
    ∃ loaded, loadVault prims password recorded.world.file = .ok loaded ∧
      ∀ slot, loaded.answer prims slot = recorded.contents slot

/-- In all runs from any vault that loads. -/
def ContentsKept (prims : Primitives Key Cipher)
    (ok : Recorded Key Cipher → Op → Prop) : Prop :=
  ∀ password file vault, loadVault prims password file = .ok vault →
    ∀ finish, Run (step prims password) ok (opened prims vault file) finish →
      Faithful prims password finish

/-- The operation is over before it changes anything, or it cannot fail afterwards, and what it
stores the JSON text keeps. -/
def Op.Clean (prims : Primitives Key Cipher) (world : World Key Cipher) : Op → Prop
  | .set slot _ nonce? written =>
    nonce? = none ∨ written = true ∧ IsUtf8 slot.scope ∧ IsUtf8 slot.key
  | .delete slot written => world.vault.data.stored? slot = none ∨ written = true
  | .migrate given =>
    world.vault.data.version ≥ 2 ∨ given.newSalt? = none ∨
      (∃ slot ∈ given.order, world.vault.answer prims slot = none) ∨
      ∀ slot ∈ given.order, (given.nonce? slot).isSome
  | .reload => True

/-- A vault as a load of its own data would give it. -/
structure Sound (prims : Primitives Key Cipher) (password : Text)
    (vault : Vault Key Cipher) : Prop where
  isUtf8 : vault.data.IsUtf8
  isKey : vault.key = deriveKey prims password vault.data.salt vault.data.version
    vault.data.kdfParams
  isVersion : ¬ (vault.data.version < 1 ∨ vault.data.version > currentVaultVersion)

section
variable {prims : Primitives Key Cipher} {password : Text} {vault : Vault Key Cipher}
variable {contents : Contents}
variable {slot : Slot} {file : VaultFile Cipher} {written : Bool} {fails : World Key Cipher → Prop}
  {nonce? : Option Text}

theorem Sound.put (sound : Sound prims password vault) (isScope : IsUtf8 slot.scope)
    (isKey : IsUtf8 slot.key) (value nonce : Text) :
    Sound prims password (vault.put prims slot value nonce) where
  isUtf8 := put_isUtf8 sound.isUtf8 isScope isKey _
  __ := sound

theorem Sound.remove (sound : Sound prims password vault) (slot : Slot) :
    Sound prims password { vault with data := vault.data.remove slot } where
  isUtf8 := remove_isUtf8 sound.isUtf8 slot
  __ := sound

theorem createVault_sound (prims : Primitives Key Cipher) (password salt : Text) :
    Sound prims password (createVault prims password salt) where
  isUtf8 _ isScope := absurd isScope List.not_mem_nil
  isKey := rfl
  isVersion := by
    show ¬ (currentVaultVersion < 1 ∨ currentVaultVersion > currentVaultVersion)
    decide

theorem loadVault_sound (isLoaded : loadVault prims password file = .ok vault) :
    Sound prims password vault := by
  simp only [loadVault] at isLoaded
  split at isLoaded
  · cases isLoaded
  · rename_i isVersion
    cases isLoaded
    exact ⟨readBack_isUtf8 file, rfl, isVersion⟩

theorem Sound.loads (sound : Sound prims password vault) :
    ∃ loaded, loadVault prims password vault.data = .ok loaded ∧
      ∀ slot, loaded.answer prims slot = vault.answer prims slot := by
  refine ⟨_, if_neg sound.isVersion, fun slot => ?_⟩
  rw [answer_eq_bind, answer_eq_bind]
  dsimp only
  rw [stored?_readBack sound.isUtf8, sound.isKey]
  rfl

/-- Memory and file answer with the contents. -/
structure Kept (prims : Primitives Key Cipher) (password : Text) (contents : Contents)
    (world : World Key Cipher) : Prop where
  sound : Sound prims password world.vault
  answers : ∀ slot, world.vault.answer prims slot = contents slot
  filed : ∃ loaded, loadVault prims password world.file = .ok loaded ∧
    ∀ slot, loaded.answer prims slot = contents slot

variable {world : World Key Cipher}

theorem save_after (sound : Sound prims password world.vault)
    (answers : ∀ slot, world.vault.answer prims slot = contents slot)
    (whenFails : written ≠ true → fails world) :
    After (save written) (fun _ => Kept prims password contents) fails world := by
  unfold save
  rw [after_bind, after_require]
  refine ⟨fun _ => after_modify.mpr ⟨sound, answers, ?_⟩, whenFails⟩
  obtain ⟨loaded, isLoaded, same⟩ := sound.loads
  exact ⟨loaded, isLoaded, fun slot => (same slot).trans (answers slot)⟩

theorem setWithoutSave_after (kept : Kept prims password contents world) (slot : Slot)
    (value : Text) {nonce? : Option Text} {post : Unit → World Key Cipher → Prop}
    (whenSet : ∀ nonce, nonce? = some nonce →
      post () { world with vault := world.vault.put prims slot value nonce }) :
    After (setWithoutSave prims slot value nonce?) post (Kept prims password contents) world := by
  unfold setWithoutSave
  rw [after_bind]
  refine after_lift (fun nonce isNonce => ?_) kept
  exact after_modify.mpr (whenSet nonce (ofOption_eq_ok isNonce))

theorem answers_put (answers : ∀ slot, vault.answer prims slot = contents slot) (slot : Slot)
    (value nonce : Text) (other : Slot) :
    (vault.put prims slot value nonce).answer prims other =
      Function.update contents slot (some value) other := by
  rw [answer_put, Function.update_apply, answers other]

theorem set_after (kept : Kept prims password contents world) (slot : Slot) (value : Text)
    (clean : nonce? = none ∨ written = true ∧ IsUtf8 slot.scope ∧ IsUtf8 slot.key) :
    After (set prims slot value nonce? written)
      (fun _ => Kept prims password (Function.update contents slot (some value)))
      (Kept prims password contents) world := by
  unfold set
  rw [after_bind]
  refine setWithoutSave_after kept slot value fun nonce isNonce => ?_
  rcases clean with isNone | ⟨isWritten, isScope, isKey⟩
  · exact absurd (isNone.symm.trans isNonce) (Option.some_ne_none _).symm
  · exact save_after (kept.sound.put isScope isKey value nonce)
      (answers_put kept.answers slot value nonce) (absurd isWritten)

theorem delete_after (kept : Kept prims password contents world) (slot : Slot)
    (clean : world.vault.data.stored? slot = none ∨ written = true) :
    After (delete slot written)
      (fun _ => Kept prims password (Function.update contents slot none))
      (Kept prims password contents) world := by
  unfold delete
  rw [after_bind, after_get, after_bind]
  refine after_lift (fun scope isScope => ?_) kept
  rw [after_bind]
  refine after_lift (fun entry isEntry => ?_) kept
  have isWritten : written = true := by
    refine clean.resolve_left ?_
    unfold VaultFile.stored?
    rw [ofOption_eq_ok isScope, Option.bind_some, ofOption_eq_ok isEntry]
    exact Option.some_ne_none _
  rw [after_bind, after_modify]
  refine save_after (kept.sound.remove slot) (fun other => ?_) (absurd isWritten)
  rw [answer_remove, Function.update_apply, kept.answers other]

theorem reload_after (kept : Kept prims password contents world) :
    After (reload prims password) (fun _ => Kept prims password contents)
      (Kept prims password contents) world := by
  unfold reload
  rw [after_bind, after_get, after_bind]
  refine after_lift (fun vault isVault => after_modify.mpr ?_) kept
  obtain ⟨loaded, isLoaded, answers⟩ := kept.filed
  cases Except.ok.inj (isLoaded.symm.trans isVault)
  exact ⟨loadVault_sound isLoaded, answers, kept.filed⟩

/-! ## Migration -/

theorem collect_eq_ok {order : List Slot} {entries : List (Slot × Text)}
    (isOk : collect prims vault order = .ok entries) :
    entries.map Prod.fst = order ∧
      ∀ entry ∈ entries, vault.answer prims entry.1 = some entry.2 := by
  have each : List.Forall₂ (fun slot entry => entry.1 = slot ∧
      vault.answer prims entry.1 = some entry.2) order entries := by
    refine (mapM_eq_ok isOk).imp fun slot entry isEntry => ?_
    cases isValue : vault.get prims slot with
    | error _ =>
      rw [isValue] at isEntry
      cases isEntry
    | ok value =>
      rw [isValue] at isEntry
      cases isEntry
      refine ⟨rfl, ?_⟩
      unfold Vault.answer
      rw [isValue]
      rfl
  clear isOk
  induction each with
  | nil => exact ⟨rfl, List.forall_mem_nil _⟩
  | cons isFirst _ ih =>
    obtain ⟨sameOrder, answers⟩ := ih
    rw [List.map_cons, sameOrder, isFirst.1]
    exact ⟨rfl, List.forall_mem_cons.mpr ⟨isFirst.2, answers⟩⟩

/-- While the entries are put back: the slots that are not due answer as before. -/
structure Refilling (prims : Primitives Key Cipher) (password : Text) (contents : Contents)
    (nonce? : Slot → Option Text) (file : VaultFile Cipher) (due : List (Slot × Text))
    (world : World Key Cipher) : Prop where
  sameFile : world.file = file
  sound : Sound prims password world.vault
  answers : ∀ slot, slot ∈ due.map Prod.fst ∨ world.vault.answer prims slot = contents slot
  entries : ∀ entry ∈ due, contents entry.1 = some entry.2 ∧ (nonce? entry.1).isSome ∧
    IsUtf8 entry.1.scope ∧ IsUtf8 entry.1.key

theorem refill_after {nonce? : Slot → Option Text} {value : Text} {due : List (Slot × Text)}
    (refilling : Refilling prims password contents nonce? file ((slot, value) :: due) world) :
    After (setWithoutSave prims slot value (nonce? slot))
      (fun _ => Refilling prims password contents nonce? file due) fails world := by
  obtain ⟨isContent, isNonce, isScope, isKey⟩ := refilling.entries _ List.mem_cons_self
  obtain ⟨nonce, isNonce⟩ := Option.isSome_iff_exists.mp isNonce
  rw [isNonce]
  show Refilling _ _ _ _ _ _ _
  refine ⟨refilling.sameFile, refilling.sound.put isScope isKey value nonce, fun other => ?_,
    fun entry isEntry => refilling.entries entry (List.mem_cons_of_mem _ isEntry)⟩
  dsimp only
  rw [answer_put]
  split_ifs with same
  · rw [same]
    exact .inr isContent.symm
  · rcases refilling.answers other with isDue | answers
    · rw [List.map_cons, List.mem_cons] at isDue
      exact .inl (isDue.resolve_left same)
    · exact .inr answers

theorem migrate_after (kept : Kept prims password contents world) {given : Migration}
    (inOrder : given.order.Perm world.vault.data.slots)
    (clean : (Op.migrate given).Clean prims world) :
    After (migrate prims password given) (fun _ => Kept prims password contents)
      (Kept prims password contents) world := by
  unfold migrate
  rw [after_bind, after_get]
  dsimp only
  split_ifs with isCurrent
  · exact kept
  rw [after_bind]
  refine after_lift (fun entries isEntries => ?_) kept
  rw [after_bind]
  refine after_lift (fun newSalt isSalt => ?_) kept
  obtain ⟨sameOrder, answers⟩ := collect_eq_ok isEntries
  have nonces : ∀ slot ∈ given.order, (given.nonce? slot).isSome := by
    refine ((clean.resolve_left isCurrent).resolve_left ?_).resolve_left ?_
    · rw [ofOption_eq_ok isSalt]
      exact Option.some_ne_none _
    · rintro ⟨slot, isSlot, isNone⟩
      rw [← sameOrder] at isSlot
      obtain ⟨entry, isEntry, rfl⟩ := List.mem_map.mp isSlot
      exact absurd (isNone.symm.trans (answers entry isEntry)) (Option.some_ne_none _).symm
  rw [after_bind, after_modify, after_bind]
  refine After.mono (after_forM (Refilling prims password contents given.nonce? world.file)
    ⟨rfl, createVault_sound prims password newSalt, ?_, ?_⟩ ?_) (fun _ next refilled => ?_)
    fun _ fail => fail
  · intro slot
    rw [sameOrder, inOrder.mem_iff, or_iff_not_imp_left]
    intro isFree
    rw [answer_createVault, ← kept.answers slot, answer_eq_bind, stored?_of_not_mem_slots isFree]
    rfl
  · intro entry isEntry
    have isOrdered : entry.1 ∈ given.order := sameOrder ▸ List.mem_map_of_mem isEntry
    exact ⟨(kept.answers entry.1).symm.trans (answers entry isEntry), nonces _ isOrdered,
      slot_isUtf8 kept.sound.isUtf8 (inOrder.mem_iff.mp isOrdered)⟩
  · intro entry due next refilling
    rw [after_adaptExcept]
    exact refill_after refilling
  · have answers : ∀ slot, next.vault.answer prims slot = contents slot :=
      fun slot => (refilled.answers slot).resolve_left List.not_mem_nil
    rw [after_bind, after_adaptExcept]
    refine save_after refilled.sound answers fun _ => ⟨refilled.sound, answers, ?_⟩
    rw [refilled.sameFile]
    exact kept.filed

end

section
variable {prims : Primitives Key Cipher} {password : Text} {op : Op}

theorem run_after {contents : Contents} {world : World Key Cipher}
    (kept : Kept prims password contents world) (enabled : op.Enabled world)
    (clean : op.Clean prims world) :
    After (op.run prims password) (fun _ => Kept prims password (op.records contents))
      (Kept prims password contents) world := by
  cases op with
  | set slot value nonce? written => exact set_after kept slot value clean
  | delete slot written => exact delete_after kept slot clean
  | migrate given => exact after_discard.mpr (migrate_after kept enabled clean)
  | reload => exact reload_after kept

theorem step_kept {recorded next : Recorded Key Cipher}
    (kept : Kept prims password recorded.contents recorded.world)
    (clean : op.Clean prims recorded.world)
    (stepped : step prims password recorded op = some next) :
    Kept prims password next.contents next.world := by
  unfold step at stepped
  split_ifs at stepped with enabled
  have after := run_after kept enabled clean
  unfold After at after
  cases ran : op.run prims password recorded.world with
  | ok _ world | error _ world =>
    rw [ran] at after stepped
    cases stepped
    exact after

theorem opened_kept {file : VaultFile Cipher} {vault : Vault Key Cipher}
    (isLoaded : loadVault prims password file = .ok vault) :
    Kept prims password (opened prims vault file).contents (opened prims vault file).world where
  sound := loadVault_sound isLoaded
  answers _ := rfl
  filed := ⟨vault, isLoaded, fun _ => rfl⟩

end

/-- Memory and file answer with the values last set, over any run of clean operations. -/
theorem contentsKept (prims : Primitives Key Cipher) :
    ContentsKept prims fun recorded op => op.Clean prims recorded.world := by
  intro password file vault isLoaded finish run
  have kept : Kept prims password finish.contents finish.world := by
    induction run with
    | refl => exact opened_kept isLoaded
    | tail _ _ clean stepped ih => exact step_kept ih clean stepped
  exact ⟨kept.answers, kept.filed⟩

/-- A vault of the first format that holds `v` at the scope `app` and the key `K`. -/
def firstFormat : VaultFile (SymbolicKey × Text × Text × Text) where
  version := 1
  salt := .replicate 32 0
  kdf := []
  kdfParams := none
  scopes := .ofList [⟨Utf8.bytes "app", .ofList [⟨Utf8.bytes "K", .replicate 12 0,
    (.pbkdf2 (Utf8.bytes "pw") (.replicate 32 0), .replicate 12 0, [], Utf8.bytes "v")⟩]⟩]

def app (key : String) : Slot := ⟨Utf8.bytes "app", Utf8.bytes key⟩

def firstVault : Vault SymbolicKey (SymbolicKey × Text × Text × Text) where
  data := firstFormat.readBack
  key := .pbkdf2 (Utf8.bytes "pw") (.replicate 32 0)

theorem firstVault_loaded :
    loadVault .symbolic (Utf8.bytes "pw") firstFormat = .ok firstVault := rfl

/-- A value is replaced in memory, and the write of the file fails. -/
theorem not_contentsKept : ¬ ContentsKept Primitives.symbolic fun _ _ => True := by
  intro kept
  have run : Run (step .symbolic (Utf8.bytes "pw")) (fun _ _ => True)
      (opened .symbolic firstVault firstFormat) _ :=
    .tail (.set (app "K") (Utf8.bytes "w") (some (.replicate 12 0)) false) .refl trivial rfl
  have same := (kept _ _ _ firstVault_loaded _ run).1 (app "K")
  have isNew := answer_put .symbolic firstVault (app "K") (Utf8.bytes "w") (.replicate 12 0) (app "K")
  rw [if_pos rfl] at isNew
  have isOld : firstVault.answer .symbolic (app "K") = some (Utf8.bytes "v") := by decide
  exact absurd (isNew.symm.trans (same.trans isOld)) (by decide)

def migration (written : Bool) : Migration where
  order := [app "L", app "K"]
  newSalt? := some (.replicate 32 1)
  nonce? _ := some (.replicate 12 1)
  written := written

def migrations : List Op :=
  [.set (app "L") (Utf8.bytes "w") (some (.replicate 12 0)) true, .migrate (migration false),
    .reload, .migrate (migration true)]

/-- A migration whose write fails, and one whose write succeeds. -/
theorem contentsKept_migrates : ∃ finish, Faithful .symbolic (Utf8.bytes "pw") finish ∧
    finish.world.vault.data.version = 2 ∧ finish.contents (app "K") = some (Utf8.bytes "v") ∧
    finish.contents (app "L") = some (Utf8.bytes "w") := by
  have permitted : Permitted (step .symbolic (Utf8.bytes "pw"))
      (fun recorded op => op.Clean .symbolic recorded.world)
      (opened .symbolic firstVault firstFormat) migrations :=
    ⟨.inr ⟨rfl, by decide, by decide⟩, _, rfl, .inr (Or.inr (Or.inr fun _ _ => rfl)), _, rfl,
      trivial, _, rfl, .inr (Or.inr (Or.inr fun _ _ => rfl)), _, rfl, trivial⟩
  have run := run_of_permitted migrations permitted rfl
  exact ⟨_, contentsKept .symbolic _ _ _ firstVault_loaded _ run, rfl, by decide, by decide⟩

end AiTools.Vaultkey
