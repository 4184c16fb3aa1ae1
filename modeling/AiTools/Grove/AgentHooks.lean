import AiTools.Lib.Json
import AiTools.Lib.Space
import Mathlib

/-!
Contract: the arguments that an agent is started with, when the hooks of grove are added.

Owns the scan for settings, their reading and their merge. What `serde_json` reads is the grammar
of `Lib.Json` without lone surrogates and without numbers beyond those of an `f64`; a number is
kept as its literal.

Does not own the order in which `serde_json` keeps the members of an object: none of the
properties depends on it.
-/

namespace AiTools.Grove.AgentHooks

open AiTools.Lib AiTools.Lib.Json
open List (append_cancel_left cons_append mem_cons mem_singleton not_mem_nil)
open Option (bind_some getD_some map_some or_none)

abbrev Members := List (Text × Value)

/-- The last member of the name. -/
def get? (name : Text) : Members → Option Value
  | [] => none
  | member :: rest => (get? name rest).or (if member.1 = name then some member.2 else none)

def insert (members : Members) (name : Text) (value : Value) : Members :=
  (members.filter fun member => member.1 ≠ name) ++ [(name, value)]

variable {name event raw : Text} {base hooks members : Members} {depth : Nat}

theorem mem_of_get? {value : Value} : ∀ {members : Members},
    get? name members = some value → ∃ member ∈ members, member.2 = value
  | [], isFound => by simp [get?] at isFound
  | member :: members, isFound => by
    rcases Option.or_eq_some_iff.mp isFound with later | ⟨_, isHere⟩
    · obtain ⟨found, isThere, isValue⟩ := mem_of_get? later
      exact ⟨found, List.mem_cons_of_mem _ isThere, isValue⟩
    · obtain ⟨_, isValue⟩ := Option.ite_none_right_eq_some.mp isHere
      exact ⟨member, List.mem_cons_self, Option.some.inj isValue⟩

def hookEvents : List Text :=
  ["SessionStart".toList, "UserPromptSubmit".toList, "PreToolUse".toList,
    "PermissionRequest".toList, "PostToolUse".toList, "Stop".toList]

def hookTimeoutSecs : Text := "5".toList

def hookCommand (agentBin : Text) : Text :=
  '\'' :: agentBin.flatMap (fun char => if char = '\'' then "'\\''".toList else [char]) ++
    "' event".toList

/-- The one group that each event has. -/
def hookGroup (agentBin : Text) : Value :=
  .object
    [("matcher".toList, .string []), ("hooks".toList, .array
        [.object
          [("type".toList, .string "command".toList),
            ("command".toList, .string (hookCommand agentBin)),
            ("timeout".toList, .number hookTimeoutSecs)]])]

def hooksKey : Text := "hooks".toList

/-- As deep as a JSON text may be nested. -/
def recursionLimit : Nat := 127

def asObject : Value → Option Members
  | .object members => some members
  | _ => none

/-- No escaped surrogate is without its pair; `lead` behind the first half of one. -/
def pairedFrom : Bool → Text → Bool
  | lead, '\\' :: 'u' :: a :: b :: c :: d :: rest =>
    let unit := UInt16.ofNat ((hexNumber? [a, b, c, d]).getD 0)
    lead == Utf16.isTrail unit && pairedFrom (Utf16.isLead unit) rest
  | lead, '\\' :: _ :: rest => !lead && pairedFrom false rest
  | lead, _ :: rest => !lead && pairedFrom false rest
  | lead, [] => !lead

mutual

def numbers : Value → List Text
  | .number literal => [literal]
  | .array elements => numbersOfElements elements
  | .object members => numbersOfMembers members
  | _ => []

def numbersOfElements : List Value → List Text
  | [] => []
  | element :: rest => numbers element ++ numbersOfElements rest

def numbersOfMembers : List (Text × Value) → List Text
  | [] => []
  | (_, member) :: rest => numbers member ++ numbersOfMembers rest

end

def digitsNumber (text : Text) : Nat :=
  (text.filter Char.isDigit).foldl (fun number digit => 10 * number + (digit.toNat - 48)) 0

/-- From here on a number is rounded to infinity. -/
def infinityFrom : Nat := 2 ^ 1024 - 2 ^ 970

def isExponentMark (char : Char) : Bool := ['e', 'E'].contains char

/-- The literal, which is `digits * 10 ^ (exponent - places)`, is a number of an `f64`. -/
def inRange (literal : Text) : Bool :=
  let mantissa := literal.takeWhile fun char => !isExponentMark char
  let exponent := literal.dropWhile fun char => !isExponentMark char
  let places := (mantissa.dropWhile (· ≠ '.')).tail.length
  if exponent.contains '-' then
    digitsNumber mantissa < infinityFrom * 10 ^ (places + digitsNumber exponent)
  else digitsNumber mantissa * 10 ^ digitsNumber exponent < infinityFrom * 10 ^ places

/-- `serde_json::from_str`. -/
def fromStr (text : Text) : Option Value :=
  if pairedFrom false text then
    (parse? recursionLimit text).filter fun value => (numbers value).all inRange
  else none

abbrev Files := Text → Option Text

def isInline (raw : Text) : Bool := (raw.dropWhile Space.isSpace).head? = some '{'

/-- A value is the text of an object, or the path of one. -/
def loadSettings (files : Files) (raw : Text) : Option Members :=
  let text := if isInline raw then some raw else files raw
  (text.bind fromStr).bind asObject

def settingsFlag : Text := "--settings".toList

def settingsEq : Text := "--settings=".toList

def isSettingsEq (arg : Text) : Bool := settingsEq.isPrefixOf arg

inductive Slot where
  | space (index : Nat)
  | eq (index : Nat)
deriving DecidableEq

def Slot.index : Slot → Nat
  | .space index => index
  | .eq index => index

def pluginFlag : Text := "--plugin-dir".toList

/-- `valued` are the other options that take the argument behind them. -/
structure Agent where
  valued : Text → Bool
  plugin : valued pluginFlag = true

/-- What the agent takes the next argument for. -/
inductive Expects where
  | option
  | value
  | settings
  | positional
deriving DecidableEq

namespace Agent

variable (agent : Agent)

def next : Expects → Text → Expects
  | .option, arg =>
    if arg = "--".toList then .positional
    else if arg = settingsFlag then .settings
    else if isSettingsEq arg then .option
    else if agent.valued arg then .value
    else .option
  | .value, _ => .option
  | .settings, _ => .option
  | .positional, _ => .positional

def expects (state : Expects) (args : List Text) : Expects := args.foldl agent.next state

/-- Settings that the argument gives. -/
def own : Expects → Text → Option Text
  | .settings, arg => some arg
  | .option, arg => if isSettingsEq arg then some (arg.drop settingsEq.length) else none
  | _, _ => none

def isOther : Expects → Text → Bool
  | .settings, _ => false
  | .option, arg => !(decide (arg = settingsFlag) || isSettingsEq arg)
  | _, _ => true

/-- The last settings. -/
def effectiveFrom : Expects → List Text → Option Text
  | _, [] => none
  | state, arg :: rest => (effectiveFrom (agent.next state arg) rest).or (own state arg)

/-- A last `--settings` has no value, and counts as one of the other arguments. -/
def othersFrom : Expects → List Text → List Text
  | .settings, [] => [settingsFlag]
  | _, [] => []
  | state, arg :: rest =>
    (if isOther state arg then [arg] else []) ++ othersFrom (agent.next state arg) rest

def effective (args : List Text) : Option Text := agent.effectiveFrom .option args

def others (args : List Text) : List Text := agent.othersFrom .option args

/-- The object that the user has set; none when it cannot be read. -/
def userObject (files : Files) (args : List Text) : Option Members :=
  match agent.effective args with
  | none => some []
  | some raw => loadSettings files raw

end Agent

def UserHooks (base hooks : Members) : Prop :=
  get? hooksKey base = none ∧ hooks = [] ∨ get? hooksKey base = some (.object hooks)

def UserGroups (hooks : Members) (event : Text) (groups : List Value) : Prop :=
  get? event hooks = none ∧ groups = [] ∨ get? event hooks = some (.array groups)

/-- The object of the user, with the group of grove behind those of each event. -/
structure Extended (agentBin : Text) (base result : Members) : Prop where
  others : ∀ name, name ≠ hooksKey → get? name result = get? name base
  hooks : ∃ user merged, UserHooks base user ∧ get? hooksKey result = some (.object merged) ∧
    (∀ event ∉ hookEvents, get? event merged = get? event user) ∧
    ∀ event ∈ hookEvents, ∃ groups, UserGroups user event groups ∧
      get? event merged = some (.array (groups ++ [hookGroup agentBin]))

/-- What grove hands over is the text of an object, as it writes no file. -/
structure KeepsSettings (agent : Agent) (files : Files) (agentBin : Text)
    (userArgs argv : List Text) : Prop where
  unread : agent.userObject files userArgs = none → argv = userArgs
  read : ∀ base, agent.userObject files userArgs = some base →
    agent.others argv = agent.others userArgs ∧
    ∃ raw result, agent.effective argv = some raw ∧
      loadSettings (fun _ => none) raw = some result ∧ Extended agentBin base result

/-- A plugin adds its hooks to those of the settings. -/
structure Keeps (agent : Agent) (files : Files) (agentBin : Text) (userArgs : List Text)
    (claudePlugin : Option Text) (argv : List Text) : Prop where
  plugin : ∀ dir, claudePlugin = some dir →
    agent.others argv = pluginFlag :: dir :: agent.others userArgs ∧
      agent.effective argv = agent.effective userArgs
  settings : claudePlugin = none → KeepsSettings agent files agentBin userArgs argv

/-- A text keeps what is behind it paired. -/
def Paired (text : Text) : Prop := ∀ rest, pairedFrom false (text ++ rest) = pairedFrom false rest

theorem Paired.append {first second : Text} (isFirst : Paired first) (isSecond : Paired second) :
    Paired (first ++ second) := fun rest => by
  rw [List.append_assoc, isFirst, isSecond]

def Fits (depth : Nat) (value : Value) : Prop :=
  WellFormed value ∧ nesting value ≤ depth ∧ ∀ literal ∈ numbers value, inRange literal = true

def FitMembers (depth : Nat) (members : Members) : Prop :=
  ∀ member ∈ members, Fits depth member.2

theorem FitMembers.insert {value : Value} (areFit : FitMembers depth members)
    (isFit : Fits depth value) :
    FitMembers depth (insert members name value) := by
  intro member isThere
  rcases List.mem_append.mp isThere with wasThere | isNew
  · exact areFit member (List.mem_of_mem_filter wasThere)
  · rw [mem_singleton.mp isNew]
    exact isFit

theorem FitMembers.get? {value : Value} (areFit : FitMembers depth members)
    (isFound : get? name members = some value) :
    Fits depth value := by
  obtain ⟨member, isThere, rfl⟩ := mem_of_get? isFound
  exact areFit member isThere

/-! ## Where the settings stand -/

/-- Nothing that looks like settings. -/
def ScanFree : List Text → Prop
  | [] => True
  | arg :: rest => ¬ (arg = settingsFlag ∧ rest ≠ []) ∧ isSettingsEq arg = false ∧ ScanFree rest

/-- The arguments from those that a slot is at. -/
def spelled : Slot → Text → List Text → List Text
  | .space _, value, rest => settingsFlag :: value :: rest
  | .eq _, value, rest => (settingsEq ++ value) :: rest

/-- `slot` is the last in `args`, with `before` in front and `value` there. -/
structure Located (args : List Text) (slot : Slot) (before : List Text) (value : Text)
    (rest : List Text) : Prop where
  args : args = before ++ spelled slot value rest
  index : slot.index = before.length
  isFree : ScanFree rest
  isValue : ∀ index, slot = .space index → ScanFree (value :: rest)

theorem isSettingsEq_append (value : Text) : isSettingsEq (settingsEq ++ value) = true :=
  List.isPrefixOf_iff_prefix.mpr (List.prefix_append _ _)

section

variable {args before rest : List Text} {slot : Slot} {value : Text}

theorem Located.take (located : Located args slot before value rest) :
    args.take slot.index = before := by
  rw [located.index, located.args, List.take_left]

end

section

variable (agent : Agent)

theorem effectiveFrom_append : ∀ (state : Expects) (before rest : List Text),
    agent.effectiveFrom state (before ++ rest) =
      (agent.effectiveFrom (agent.expects state before) rest).or
        (agent.effectiveFrom state before)
  | _, [], _ => by rw [List.nil_append, Agent.effectiveFrom, or_none]; rfl
  | state, arg :: before, rest => by
    rw [cons_append, Agent.effectiveFrom, effectiveFrom_append _ before rest,
      Agent.effectiveFrom, Option.or_assoc]
    rfl

theorem othersFrom_append : ∀ (state : Expects) (before : List Text), ∃ kept, ∀ rest, rest ≠ [] →
    agent.othersFrom state (before ++ rest) =
      kept ++ agent.othersFrom (agent.expects state before) rest
  | _, [] => ⟨[], fun _ _ => rfl⟩
  | state, arg :: before => by
    obtain ⟨kept, isKept⟩ := othersFrom_append (agent.next state arg) before
    refine ⟨(if Agent.isOther state arg then [arg] else []) ++ kept, fun rest notEmpty => ?_⟩
    rw [cons_append, Agent.othersFrom, isKept rest notEmpty, List.append_assoc]
    rfl

variable {agent}

theorem isSettingsEq_flag : isSettingsEq settingsFlag = false := by decide

theorem free_reading : ∀ {args : List Text} {state : Expects}, ScanFree args →
    state ≠ .settings → agent.othersFrom state args = args ∧ agent.effectiveFrom state args = none
  | [], state, _, notSettings => by
    cases state with
    | settings => exact absurd rfl notSettings
    | _ => exact ⟨rfl, rfl⟩
  | arg :: rest, state, ⟨notFlag, notEq, isFree⟩, notSettings => by
    cases state with
    | settings => exact absurd rfl notSettings
    | value =>
      have later := @free_reading rest .option isFree (by decide)
      exact ⟨congrArg (arg :: ·) later.1, by
        rw [Agent.effectiveFrom, Agent.next, later.2]; rfl⟩
    | positional =>
      have later := @free_reading rest .positional isFree (by decide)
      exact ⟨congrArg (arg :: ·) later.1, by
        rw [Agent.effectiveFrom, Agent.next, later.2]; rfl⟩
    | option =>
      by_cases isFlag : arg = settingsFlag
      · obtain rfl : rest = [] := by
          by_contra notEmpty
          exact notFlag ⟨isFlag, notEmpty⟩
        subst isFlag
        exact ⟨rfl, rfl⟩
      · have notNext : agent.next .option arg ≠ .settings := by
          rw [Agent.next, if_neg isFlag, notEq]
          split_ifs <;> simp
        have later := @free_reading rest _ isFree notNext
        have isOther : Agent.isOther .option arg = true := by
          simp [Agent.isOther, isFlag, notEq]
        rw [Agent.othersFrom, Agent.effectiveFrom, later.1, later.2, isOther, Agent.own, notEq]
        exact ⟨rfl, rfl⟩

theorem next_flag : agent.next .option settingsFlag = .settings := by
  rw [Agent.next, if_neg (by decide), if_pos rfl]

theorem next_settingsEq (value : Text) : agent.next .option (settingsEq ++ value) = .option := by
  have isLonger : "--".toList.length < settingsEq.length := by decide
  have notSeparator : settingsEq ++ value ≠ "--".toList := fun same => by
    have sameLength := congrArg List.length same
    rw [List.length_append] at sameLength
    omega
  have notFlag : settingsEq ++ value ≠ settingsFlag := fun same => by
    have isEq := isSettingsEq_append value
    rw [same, isSettingsEq_flag] at isEq
    exact Bool.false_ne_true isEq
  rw [Agent.next, if_neg notSeparator, if_neg notFlag, isSettingsEq_append, if_pos rfl]

/-- Where the agent reads an option, it takes the value that the scan has found. -/
theorem spelled_option {rest : List Text} (isFree : ScanFree rest) (slot : Slot) (value : Text) :
    agent.othersFrom .option (spelled slot value rest) = rest ∧
      agent.effectiveFrom .option (spelled slot value rest) = some value := by
  have later := @free_reading agent rest .option isFree (by decide)
  cases slot with
  | space index =>
    have notOther : Agent.isOther .option settingsFlag = false := by decide
    rw [spelled, Agent.othersFrom, Agent.effectiveFrom, next_flag, Agent.othersFrom,
      Agent.effectiveFrom, Agent.next, later.1, later.2, notOther]
    exact ⟨rfl, rfl⟩
  | eq index =>
    rw [spelled, Agent.othersFrom, Agent.effectiveFrom, next_settingsEq, later.1, later.2,
      Agent.own, isSettingsEq_append, if_pos rfl, List.drop_left]
    refine ⟨?_, rfl⟩
    rw [Agent.isOther, isSettingsEq_append, Bool.or_true]
    rfl

end

/-! ## What is loaded -/

variable {files : Files}

section

variable {agent : Agent} {files : Files} {agentBin : Text} {userArgs before rest : List Text}
  {slot : Slot} {value : Text}

theorem Located.effective (located : Located userArgs slot before value rest)
    (isOption : agent.expects .option before = .option) :
    agent.effective userArgs = some value := by
  rw [Agent.effective, located.args, effectiveFrom_append, isOption,
    (spelled_option located.isFree slot value).2]
  rfl

theorem Located.others (located : Located userArgs slot before value rest)
    (isOption : agent.expects .option before = .option) (merged : Text) :
    agent.others (before ++ spelled slot merged rest) = agent.others userArgs := by
  obtain ⟨kept, isKept⟩ := othersFrom_append agent .option before
  have notEmpty (value : Text) : spelled slot value rest ≠ [] := by cases slot <;> simp [spelled]
  rw [Agent.others, Agent.others, located.args, isKept _ (notEmpty merged),
    isKept _ (notEmpty value), isOption, (spelled_option located.isFree slot merged).1,
    (spelled_option located.isFree slot value).1]

end

end AiTools.Grove.AgentHooks
