import AiTools.Lib.Utf8
import AiTools.Whip.StoreCommands
import AiTools.Whip.TaskWrites

/-!
Contract: the names under which whip's agents join the IRC (`workspace.go`, `identifiers.go`).

`strings.ToLower` is a parameter, which leaves lower-case ASCII as it is.
-/

namespace AiTools.Whip.IrcNames

open AiTools.Lib AiTools.Whip.TaskWrites
open String (length_toList toList_append toList_inj)

def maxSafeIdentifierLength : Nat := 32

def isSafe (char : Char) : Bool :=
  ('a' ≤ char && char ≤ 'z') || ('A' ≤ char && char ≤ 'Z') || ('0' ≤ char && char ≤ '9') ||
    char = '-' || char = '_'

def isValidSafeIdentifier (value : String) : Bool :=
  if value = "" ∨ maxSafeIdentifierLength < (Utf8.encode value.toList).length then false
  else value.toList.all isSafe

def isLowerOrDigit (char : Char) : Bool :=
  ('a' ≤ char && char ≤ 'z') || ('0' ≤ char && char ≤ '9')

def isInner (char : Char) : Bool :=
  isLowerOrDigit char || char = '.' || char = '_' || char = '-'

/-- `^[a-z0-9](?:[a-z0-9._-]*[a-z0-9])?$`. -/
def workspaceNamePattern : List Char → Bool
  | [] => false
  | first :: rest =>
    isLowerOrDigit first &&
      (rest.isEmpty || (rest.all isInner && rest.getLast?.any isLowerOrDigit))

variable (store : TaskWrites.Store)

def validateWorkspaceName (name : String) : Bool :=
  let normalized := normalizeWorkspaceName store name
  normalized = GlobalWorkspaceName || workspaceNamePattern normalized.toList

/-- `strings.ToLower` on ASCII without capitals. -/
def KeepsLower : Prop :=
  ∀ text : String, (∀ char ∈ text.toList, isInner char = true) → store.standard.toLower text = text

/-- Four bytes as digits. -/
def generateID (random : Fin 4 → UInt8) : String :=
  String.ofList ((List.ofFn random).flatMap fun byte =>
    [Json.hexDigit (byte.toNat / 16), Json.hexDigit (byte.toNat % 16)])

inductive Agent where
  | master (workspace : String)
  | lead (workspace : String)
  | worker (random : Fin 4 → UInt8)

/-- A lead's task holds the normalized name, and is asked for it again. -/
def Agent.ircName : Agent → String
  | .master workspace =>
    AiTools.Whip.Store.workspaceMasterIRCName (normalizeWorkspaceName store workspace)
  | .lead workspace => workspaceLeadIRCName
      (normalizeWorkspaceName store (normalizeWorkspaceName store workspace))
  | .worker random => "wp-" ++ generateID random

/-- A lead needs a named workspace. -/
def Agent.Generated : Agent → Prop
  | .master workspace => validateWorkspaceName store workspace = true
  | .lead workspace => validateWorkspaceName store workspace = true ∧
      normalizeWorkspaceName store workspace ≠ GlobalWorkspaceName
  | .worker _ => True

/-- The role with the workspace, however it is spelled, or with the id of the task. -/
def Agent.identity : Agent → String × String
  | .master workspace => ("master", normalizeWorkspaceName store workspace)
  | .lead workspace => ("lead", normalizeWorkspaceName store workspace)
  | .worker random => ("worker", generateID random)

/-- The master of a workspace, its lead, and the worker of a task. -/
def Agent.Of (workspace : String) (random : Fin 4 → UInt8) (agent : Agent) : Prop :=
  agent.Generated store ∧
    (agent = .master workspace ∨ agent = .lead workspace ∨ agent = .worker random)

structure Usable (workspace : String) (random : Fin 4 → UInt8) : Prop where
  valid : ∀ agent : Agent, agent.Of store workspace random →
    isValidSafeIdentifier (agent.ircName store) = true
  unique : ∀ agent other : Agent, agent.Of store workspace random → other.Generated store →
    agent.ircName store = other.ircName store → agent.identity store = other.identity store

/-- Short enough, and without a dot. -/
def Joins (workspace : String) : Prop :=
  let normalized := normalizeWorkspaceName store workspace
  normalized = GlobalWorkspaceName ∨ ('.' ∉ normalized.toList ∧ normalized.length ≤ 22)

variable {store}
variable {text : List Char} {char : Char} {name workspace : String} {random : Fin 4 → UInt8}

theorem length_encode_ascii (isAscii : ∀ char ∈ text, char.toNat < 128) :
    (Utf8.encode text).length = text.length := by
  induction text with
  | nil => rfl
  | cons char rest ih =>
    obtain ⟨first, later⟩ := List.forall_mem_cons.mp isAscii
    have isOne : (String.utf8EncodeChar char).length = 1 := by
      rw [String.length_utf8EncodeChar]
      exact Char.utf8Size_eq_one_iff.mpr (by
        rw [UInt32.le_iff_toNat_le]
        exact Nat.lt_succ_iff.mp first)
    rw [Utf8.encode, List.flatMap_cons, List.length_append, isOne, List.length_cons,
      ← ih later, Utf8.encode]
    omega

theorem toNat_le_of_isSafe (safe : isSafe char = true) : char.toNat < 128 := by
  simp only [isSafe, Bool.or_eq_true, Bool.and_eq_true, decide_eq_true_eq] at safe
  rcases safe with (((isLetter | isCapital) | isDigit) | rfl) | rfl
  · exact Nat.lt_of_le_of_lt (UInt32.le_iff_toNat_le.mp isLetter.2) (by decide)
  · exact Nat.lt_of_le_of_lt (UInt32.le_iff_toNat_le.mp isCapital.2) (by decide)
  · exact Nat.lt_of_le_of_lt (UInt32.le_iff_toNat_le.mp isDigit.2) (by decide)
  · decide
  · decide

theorem isInner_iff : isInner char = true ↔
    char = '.' ∨ (isSafe char = true ∧ ¬('A' ≤ char ∧ char ≤ 'Z')) := by
  simp only [isInner, isLowerOrDigit, isSafe, Bool.or_eq_true, Bool.and_eq_true, decide_eq_true_eq]
  constructor
  · rintro ((((⟨isFirst, isLast⟩ | ⟨isFirst, isLast⟩) | rfl) | rfl) | rfl)
    · refine .inr ⟨.inl (.inl (.inl (.inl ⟨isFirst, isLast⟩))), fun isCapital => ?_⟩
      exact absurd (Char.le_trans isFirst isCapital.2) (by decide)
    · refine .inr ⟨.inl (.inl (.inr ⟨isFirst, isLast⟩)), fun isCapital => ?_⟩
      exact absurd (Char.le_trans isCapital.1 isLast) (by decide)
    · exact .inl rfl
    · exact .inr (by decide)
    · exact .inr (by decide)
  · rintro (rfl | ⟨(((isLetter | isCapital) | isDigit) | rfl) | rfl, notCapital⟩)
    · decide
    · exact .inl (.inl (.inl (.inl isLetter)))
    · exact absurd isCapital notCapital
    · exact .inl (.inl (.inl (.inr isDigit)))
    · decide
    · decide

theorem toNat_le_of_isInner (inner : isInner char = true) : char.toNat < 128 := by
  rcases isInner_iff.mp inner with rfl | ⟨safe, -⟩
  · decide
  · exact toNat_le_of_isSafe safe

theorem isInner_of_lowerOrDigit (isLower : isLowerOrDigit char = true) : isInner char = true := by
  unfold isInner
  rw [isLower]
  rfl

theorem notSpace_of_lowerOrDigit (isLower : isLowerOrDigit char = true) :
    GoText.isSpace char = false := by
  simp only [isLowerOrDigit, Bool.or_eq_true, Bool.and_eq_true, decide_eq_true_eq, Char.le_def,
    UInt32.le_iff_toNat_le] at isLower
  change (97 ≤ char.toNat ∧ char.toNat ≤ 122) ∨ (48 ≤ char.toNat ∧ char.toNat ≤ 57) at isLower
  by_contra isSpace
  rw [Bool.not_eq_false] at isSpace
  simp only [GoText.isSpace, Bool.or_eq_true, List.contains_iff_mem, List.mem_cons,
    List.not_mem_nil, or_false, Bool.and_eq_true, decide_eq_true_eq] at isSpace
  omega

theorem workspaceNamePattern_iff : workspaceNamePattern text = true ↔
    text ≠ [] ∧ (∀ char ∈ text, isInner char = true) ∧
      (∀ char ∈ text.head?, isLowerOrDigit char = true) ∧
      ∀ char ∈ text.getLast?, isLowerOrDigit char = true := by
  cases text with
  | nil => simp [workspaceNamePattern]
  | cons first rest =>
    cases rest with
    | nil =>
      simp only [workspaceNamePattern, List.isEmpty_nil, Bool.true_or, Bool.and_true]
      refine ⟨fun isFirst => ⟨List.cons_ne_nil _ _, ?_, ?_, ?_⟩, fun all => all.2.2.1 first rfl⟩
      · exact List.forall_mem_singleton.mpr (isInner_of_lowerOrDigit isFirst)
      · rintro char ⟨⟩
        exact isFirst
      · rintro char ⟨⟩
        exact isFirst
    | cons second later =>
      simp only [workspaceNamePattern, List.isEmpty_cons, Bool.false_or, Bool.and_eq_true,
        List.all_eq_true, List.getLast?_cons_cons]
      cases isLast : (second :: later).getLast? with
      | none => simp at isLast
      | some last =>
        simp only [Option.any_some, Option.mem_def, Option.some.injEq, List.head?_cons]
        refine ⟨fun all => ⟨List.cons_ne_nil _ _, List.forall_mem_cons.mpr
          ⟨isInner_of_lowerOrDigit all.1, all.2.1⟩, ?_, ?_⟩, fun all =>
          ⟨all.2.2.1 first rfl, (List.forall_mem_cons.mp all.2.1).2, all.2.2.2 last rfl⟩⟩
        · rintro char rfl
          exact all.1
        · rintro char rfl
          exact all.2.2

theorem accepted_cases (accepted : validateWorkspaceName store name = true) :
    normalizeWorkspaceName store name = GlobalWorkspaceName ∨
      workspaceNamePattern (normalizeWorkspaceName store name).toList = true := by
  rw [validateWorkspaceName, Bool.or_eq_true, decide_eq_true_eq] at accepted
  exact accepted

theorem isInner_of_accepted (accepted : validateWorkspaceName store name = true) :
    ∀ char ∈ (normalizeWorkspaceName store name).toList, isInner char = true := by
  rcases accepted_cases accepted with isGlobal | isNamed
  · rw [isGlobal]
    decide
  · exact (workspaceNamePattern_iff.mp isNamed).2.1

theorem normalize_of_matches (keepsLower : KeepsLower store)
    (isMatch : workspaceNamePattern name.toList = true) :
    normalizeWorkspaceName store name = name := by
  obtain ⟨notEmpty, areInner, first, last⟩ := workspaceNamePattern_iff.mp isMatch
  have isTrimmed : GoText.trimSpace name.toList = name.toList :=
    GoText.trimSpace_eq_self (fun char isFirst => notSpace_of_lowerOrDigit (first char isFirst))
      fun char isLast => notSpace_of_lowerOrDigit (last char isLast)
  unfold normalizeWorkspaceName
  dsimp only
  rw [isTrimmed, String.ofList_toList, keepsLower name areInner]
  split_ifs with isGlobal
  · rcases isGlobal with rfl | rfl
    · exact absurd rfl notEmpty
    · rfl
  · rfl

theorem normalize_again (keepsLower : KeepsLower store)
    (accepted : validateWorkspaceName store name = true) :
    normalizeWorkspaceName store (normalizeWorkspaceName store name) =
      normalizeWorkspaceName store name := by
  rcases accepted_cases accepted with isGlobal | isNamed
  · rw [isGlobal]
    exact normalize_of_matches keepsLower (by decide)
  · exact normalize_of_matches keepsLower isNamed

theorem isValid_append {start : String} (isStart : start.toList.all isSafe = true)
    (notEmpty : start ≠ "") (areInner : ∀ char ∈ name.toList, isInner char = true) :
    isValidSafeIdentifier (start ++ name) = true ↔
      '.' ∉ name.toList ∧ start.length + name.length ≤ maxSafeIdentifierLength := by
  have isAscii : ∀ char ∈ (start ++ name).toList, char.toNat < 128 := by
    rw [toList_append]
    intro char isChar
    rcases List.mem_append.mp isChar with isFirst | isLast
    · exact toNat_le_of_isSafe (List.all_eq_true.mp isStart char isFirst)
    · exact toNat_le_of_isInner (areInner char isLast)
  have isSome : start ++ name ≠ "" := by
    intro isEmpty
    have noChars := congrArg String.toList isEmpty
    rw [toList_append] at noChars
    exact notEmpty (String.toList_eq_nil_iff.mp (List.append_eq_nil_iff.mp noChars).1)
  have safeIff : (start ++ name).toList.all isSafe = true ↔ '.' ∉ name.toList := by
    rw [toList_append, List.all_append, isStart, Bool.true_and, List.all_eq_true]
    constructor
    · intro areSafe isDot
      exact absurd (areSafe '.' isDot) (by decide)
    · intro noDot char isChar
      rcases isInner_iff.mp (areInner char isChar) with rfl | ⟨safe, -⟩
      · exact absurd isChar noDot
      · exact safe
  rw [isValidSafeIdentifier, length_encode_ascii isAscii, toList_append, List.length_append,
    length_toList, length_toList, ← toList_append]
  split_ifs with isOver
  · refine iff_of_false id fun fits => ?_
    rcases isOver with isEmpty | isLong
    · exact isSome isEmpty
    · exact absurd fits.2 (by omega)
  · rw [safeIff]
    exact ⟨fun noDot => ⟨noDot, by omega⟩, fun fits => fits.1⟩

theorem masterName_valid_iff (accepted : validateWorkspaceName store workspace = true) :
    isValidSafeIdentifier ((Agent.master workspace).ircName store) = true ↔
      Joins store workspace := by
  unfold Agent.ircName AiTools.Whip.Store.workspaceMasterIRCName Joins
  dsimp only
  split_ifs with isGlobal
  · exact iff_of_true (by decide) (.inl isGlobal)
  · rw [isValid_append (by decide) (by decide) (isInner_of_accepted accepted)]
    constructor
    · rintro ⟨noDot, isShort⟩
      exact .inr ⟨noDot, by change 10 + _ ≤ 32 at isShort; omega⟩
    · rintro (isGlobal' | ⟨noDot, isShort⟩)
      · exact absurd isGlobal' isGlobal
      · exact ⟨noDot, by change 10 + _ ≤ 32; omega⟩

theorem leadName_valid (keepsLower : KeepsLower store)
    (generated : (Agent.lead workspace).Generated store) (joins : Joins store workspace) :
    isValidSafeIdentifier ((Agent.lead workspace).ircName store) = true := by
  obtain ⟨accepted, notGlobal⟩ := generated
  rcases joins with isGlobal | ⟨noDot, isShort⟩
  · exact absurd isGlobal notGlobal
  · rw [Agent.ircName, normalize_again keepsLower accepted, workspaceLeadIRCName,
      if_neg (show ¬normalizeWorkspaceName store workspace = globalWorkspaceName from notGlobal),
      isValid_append (by decide) (by decide) (isInner_of_accepted accepted)]
    exact ⟨noDot, by change 8 + _ ≤ 32; omega⟩

theorem isLowerOrDigit_generateID (random : Fin 4 → UInt8) :
    ∀ char ∈ (generateID random).toList, isLowerOrDigit char = true ∧ char ≠ 'm' ∧ char ≠ 'l' := by
  have digits : ∀ value < 16, isLowerOrDigit (Json.hexDigit value) = true ∧
      Json.hexDigit value ≠ 'm' ∧ Json.hexDigit value ≠ 'l' := by decide
  intro char isChar
  rw [generateID, String.toList_ofList] at isChar
  obtain ⟨byte, -, isDigit⟩ := List.mem_flatMap.mp isChar
  have isSmall := byte.toNat_lt
  rcases List.mem_pair.mp isDigit with rfl | rfl
  · exact digits _ (by omega)
  · exact digits _ (by omega)

theorem length_generateID (random : Fin 4 → UInt8) : (generateID random).length = 8 := by
  rw [generateID, String.length_ofList]
  simp [List.ofFn_succ]

theorem workerName_valid (random : Fin 4 → UInt8) :
    isValidSafeIdentifier ((Agent.worker random).ircName store) = true := by
  have areDigits := isLowerOrDigit_generateID random
  rw [Agent.ircName, isValid_append (by decide) (by decide) fun char isChar =>
    isInner_of_lowerOrDigit (areDigits char isChar).1, length_generateID]
  exact ⟨fun isDot => absurd (areDigits '.' isDot).1 (by decide), by decide⟩

variable (store) in
/-- What comes after `wp-`. -/
def Agent.rest : Agent → List Char
  | .master workspace => "master".toList ++
      (if normalizeWorkspaceName store workspace = GlobalWorkspaceName then []
        else '-' :: (normalizeWorkspaceName store workspace).toList)
  | .lead workspace => "lead-".toList ++ (normalizeWorkspaceName store workspace).toList
  | .worker random => (generateID random).toList

theorem ircName_eq (keepsLower : KeepsLower store) {agent : Agent}
    (generated : agent.Generated store) :
    (agent.ircName store).toList = "wp-".toList ++ agent.rest store := by
  cases agent with
  | master workspace =>
    change _ = "wp-".toList ++ ("master".toList ++ if _ then _ else _)
    rw [Agent.ircName, AiTools.Whip.Store.workspaceMasterIRCName]
    change (if normalizeWorkspaceName store workspace = GlobalWorkspaceName then _ else _ :
      String).toList = _
    split_ifs with isGlobal
    · rfl
    · rw [toList_append]
      rfl
  | lead workspace =>
    obtain ⟨accepted, notGlobal⟩ := generated
    rw [Agent.ircName, normalize_again keepsLower accepted, workspaceLeadIRCName,
      if_neg (show ¬normalizeWorkspaceName store workspace = globalWorkspaceName from notGlobal),
      toList_append]
    rfl
  | worker random =>
    rw [Agent.ircName, toList_append]
    rfl

theorem generateID_head (random : Fin 4 → UInt8) : ∃ digit rest,
    (generateID random).toList = digit :: rest ∧ digit ≠ 'm' ∧ digit ≠ 'l' := by
  have areDigits := isLowerOrDigit_generateID random
  cases isList : (generateID random).toList with
  | nil =>
    have isLength := length_generateID random
    rw [← length_toList, isList] at isLength
    cases isLength
  | cons digit rest =>
    rw [isList] at areDigits
    exact ⟨digit, rest, rfl, (areDigits digit List.mem_cons_self).2⟩

theorem worker_notMaster :
    (Agent.master workspace).rest store ≠ (Agent.worker random).rest store := by
  intro same
  obtain ⟨digit, later, isID, notM, -⟩ := generateID_head random
  exact notM (List.cons.inj (same.trans isID)).1.symm

theorem worker_notLead : (Agent.lead workspace).rest store ≠ (Agent.worker random).rest store := by
  intro same
  obtain ⟨digit, later, isID, -, notL⟩ := generateID_head random
  exact notL (List.cons.inj (same.trans isID)).1.symm

theorem ircName_unique (keepsLower : KeepsLower store) {agent other : Agent}
    (isGenerated : agent.Generated store) (otherGenerated : other.Generated store)
    (same : agent.ircName store = other.ircName store) :
    agent.identity store = other.identity store := by
  have isName := ircName_eq keepsLower isGenerated
  rw [same, ircName_eq keepsLower otherGenerated] at isName
  have sameRest := (List.append_cancel_left isName).symm
  clear isName same
  cases agent with
  | master workspace =>
    cases other with
    | master otherWorkspace =>
      have sameTail := List.append_cancel_left sameRest
      refine congrArg (Prod.mk "master") (toList_inj.mp ?_)
      split_ifs at sameTail with isGlobal otherGlobal otherGlobal
      · rw [isGlobal, otherGlobal]
      · exact (List.cons.inj sameTail).2
    | lead otherWorkspace => cases sameRest
    | worker random => exact absurd sameRest worker_notMaster
  | lead workspace =>
    cases other with
    | master otherWorkspace => cases sameRest
    | lead otherWorkspace =>
      exact congrArg (Prod.mk "lead") (toList_inj.mp (List.append_cancel_left sameRest))
    | worker random => exact absurd sameRest worker_notLead
  | worker random =>
    cases other with
    | master otherWorkspace => exact absurd sameRest.symm worker_notMaster
    | lead otherWorkspace => exact absurd sameRest.symm worker_notLead
    | worker otherRandom => exact congrArg (Prod.mk "worker") (toList_inj.mp sameRest)

theorem ircNames_usable_iff (keepsLower : KeepsLower store) {workspace : String}
    (accepted : validateWorkspaceName store workspace = true) (random : Fin 4 → UInt8) :
    Usable store workspace random ↔ Joins store workspace := by
  constructor
  · intro usable
    exact (masterName_valid_iff accepted).mp (usable.valid _ ⟨accepted, .inl rfl⟩)
  · intro joins
    refine ⟨?_, fun agent other isAgent isOther => ircName_unique keepsLower isAgent.1 isOther⟩
    rintro agent ⟨generated, rfl | rfl | rfl⟩
    · exact (masterName_valid_iff accepted).mpr joins
    · exact leadName_valid keepsLower generated joins
    · exact workerName_valid random

/-- Where `strings.ToLower` is what it is on ASCII. -/
def asciiStore : TaskWrites.Store where
  baseDir := []
  areNames := fun _ isPart => absurd isPart List.not_mem_nil
  standard := {
    toLower := fun text => String.ofList (text.toList.map Char.toLower)
    unmarshal := fun _ => none
    marshal := fun _ => ""
    sortByCreatedAt := id }

theorem asciiStore_keepsLower : KeepsLower asciiStore := by
  intro text areInner
  have isLower : text.toList.map Char.toLower = text.toList := by
    refine (List.map_congr_left fun char isChar => ?_).trans (List.map_id _)
    rcases isInner_iff.mp (areInner char isChar) with rfl | ⟨-, notCapital⟩
    · decide
    · refine Char.toLower_eq_of_not_isUpper fun isUpper => notCapital ?_
      simp only [Char.isUpper, decide_eq_true_eq] at isUpper
      exact isUpper
  exact (congrArg String.ofList isLower).trans (String.ofList_toList)

theorem ircNames_usable_iff_web : Usable asciiStore " Web_2" fun _ => 0xa7 := by
  refine (ircNames_usable_iff asciiStore_keepsLower (by decide) _).mpr (.inr ?_)
  decide

theorem not_usable : ¬∀ (store : TaskWrites.Store) (workspace : String)
    (random : Fin 4 → UInt8), KeepsLower store → validateWorkspaceName store workspace = true →
      Usable store workspace random := by
  intro usable
  have joins := (usable asciiStore "my.app" (fun _ => 0) asciiStore_keepsLower (by decide)).valid
    (.master "my.app") ⟨(by decide : validateWorkspaceName asciiStore "my.app" = true), .inl rfl⟩
  revert joins
  decide

end AiTools.Whip.IrcNames
