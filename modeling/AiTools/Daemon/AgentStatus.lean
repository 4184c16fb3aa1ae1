import Mathlib

/-!
Contract: the phase of an agent, from the hook events that reach the daemon in any order.
-/

namespace AiTools.Daemon.AgentStatus

inductive Phase where
  | working
  | waiting
  | idle
deriving DecidableEq

def mapEvent (event : String) (toolName : Option String) : Option Phase :=
  match event with
  | "SessionStart" => some .idle
  | "UserPromptSubmit" => some .working
  | "PreToolUse" => some (if toolName = some "AskUserQuestion" then .waiting else .working)
  | "PermissionRequest" => some .waiting
  | "PostToolUse" | "PostToolUseFailure" => some .working
  | "Stop" | "StopFailure" => some .idle
  | _ => none

structure AgentClaim where
  claimId : String
  phase : Phase
  lastAtNs : Nat

structure HookEvent where
  event : String
  toolName : Option String
  atNs : Nat

def HookEvent.phase (hook : HookEvent) : Option Phase := mapEvent hook.event hook.toolName

/-- The fence moves with every event that passes it, and the phase with those that have one. -/
def AgentClaim.onEvent (claim : AgentClaim) (hook : HookEvent) : AgentClaim × Bool :=
  if hook.atNs ≤ claim.lastAtNs then (claim, false)
  else ({ claim with lastAtNs := hook.atNs, phase := hook.phase.getD claim.phase }, true)

/-- The first claim of the id takes the event. -/
def applyEvent (agents : List AgentClaim) (claimId : String) (hook : HookEvent) :
    List AgentClaim × Bool :=
  match agents with
  | [] => ([], false)
  | claim :: rest =>
    if claim.claimId = claimId then
      let (next, accepted) := claim.onEvent hook
      (next :: rest, accepted)
    else
      let (later, accepted) := applyEvent rest claimId hook
      (claim :: later, accepted)

def deliver (agents : List AgentClaim) (claimId : String) (hooks : List HookEvent) :
    List AgentClaim :=
  hooks.foldl (fun agents hook => (applyEvent agents claimId hook).1) agents

def phaseOf (agents : List AgentClaim) (claimId : String) : Option Phase :=
  (agents.find? fun claim => claim.claimId = claimId).map AgentClaim.phase

/-- An event that comes behind a newer one does not change the phase. -/
def LateIgnored (agents : List AgentClaim) (claimId : String) (delivered : List HookEvent) :
    Prop :=
  ∀ before hook after newer, delivered = before ++ hook :: after → newer ∈ before →
    hook.atNs < newer.atNs →
    phaseOf (deliver agents claimId (before ++ [hook])) claimId =
      phaseOf (deliver agents claimId before) claimId

/-- No event without a phase comes before the newest event that has one, and is newer. -/
def Undisturbed (delivered : List HookEvent) : Prop :=
  ∀ before newest after, delivered = before ++ newest :: after → newest.phase ≠ none →
    (∀ other ∈ delivered, other.phase ≠ none → other.atNs ≤ newest.atNs) →
    ∀ hook ∈ before, hook.phase = none → hook.atNs < newest.atNs

/-! ## One claim -/

def AgentClaim.run (claim : AgentClaim) (hooks : List HookEvent) : AgentClaim :=
  hooks.foldl (fun claim hook => (claim.onEvent hook).1) claim

theorem run_append (claim : AgentClaim) (hooks later : List HookEvent) :
    claim.run (hooks ++ later) = (claim.run hooks).run later := List.foldl_append

theorem onEvent_claimId (claim : AgentClaim) (hook : HookEvent) :
    (claim.onEvent hook).1.claimId = claim.claimId := by
  unfold AgentClaim.onEvent
  split_ifs <;> rfl

theorem find?_applyEvent (claimId : String) (hook : HookEvent) : ∀ agents : List AgentClaim,
    (applyEvent agents claimId hook).1.find? (fun claim => claim.claimId = claimId) =
      (agents.find? fun claim => claim.claimId = claimId).map fun claim =>
        (claim.onEvent hook).1
  | [] => rfl
  | claim :: rest => by
    unfold applyEvent
    split_ifs with isNamed
    · dsimp only
      have stillNamed : (claim.onEvent hook).1.claimId = claimId :=
        (onEvent_claimId claim hook).trans isNamed
      have isFirst : decide (claim.claimId = claimId) = true := decide_eq_true isNamed
      have stillFirst : decide ((claim.onEvent hook).1.claimId = claimId) = true :=
        decide_eq_true stillNamed
      rw [List.find?_cons, List.find?_cons, isFirst, stillFirst]
      rfl
    · dsimp only
      rw [List.find?_cons_of_neg (by simpa using isNamed),
        List.find?_cons_of_neg (by simpa using isNamed)]
      exact find?_applyEvent claimId hook rest

theorem find?_deliver (claimId : String) : ∀ (hooks : List HookEvent) (agents : List AgentClaim),
    (deliver agents claimId hooks).find? (fun claim => claim.claimId = claimId) =
      (agents.find? fun claim => claim.claimId = claimId).map fun claim => claim.run hooks
  | [], _ => (congrFun Option.map_id _).symm
  | hook :: hooks, agents => by
    unfold deliver
    rw [List.foldl_cons]
    refine (find?_deliver claimId hooks _).trans ?_
    rw [find?_applyEvent, Option.map_map]
    rfl

theorem phaseOf_deliver (agents : List AgentClaim) (claimId : String) (hooks : List HookEvent) :
    phaseOf (deliver agents claimId hooks) claimId =
      (agents.find? fun claim => claim.claimId = claimId).map fun claim =>
        (claim.run hooks).phase := by
  unfold phaseOf
  rw [find?_deliver, Option.map_map]
  rfl

theorem lastAtNs_onEvent (claim : AgentClaim) (hook : HookEvent) :
    (claim.onEvent hook).1.lastAtNs = max claim.lastAtNs hook.atNs := by
  unfold AgentClaim.onEvent
  split_ifs with isLate
  · exact (max_eq_left isLate).symm
  · exact (max_eq_right (Nat.le_of_not_le isLate)).symm

theorem le_lastAtNs : ∀ (hooks : List HookEvent) (claim : AgentClaim),
    claim.lastAtNs ≤ (claim.run hooks).lastAtNs ∧
      ∀ hook ∈ hooks, hook.atNs ≤ (claim.run hooks).lastAtNs
  | [], _ => ⟨le_rfl, nofun⟩
  | first :: rest, claim => by
    obtain ⟨fromStart, fromHooks⟩ := le_lastAtNs rest (claim.onEvent first).1
    have fence := lastAtNs_onEvent claim first
    refine ⟨(le_max_left _ _).trans (fence ▸ fromStart), fun hook isIn => ?_⟩
    rcases List.mem_cons.mp isIn with rfl | isLater
    · exact (le_max_right _ _).trans (fence ▸ fromStart)
    · exact fromHooks hook isLater

theorem lastAtNs_lt {bound : Nat} : ∀ (hooks : List HookEvent) (claim : AgentClaim),
    claim.lastAtNs < bound → (∀ hook ∈ hooks, hook.atNs < bound) →
    (claim.run hooks).lastAtNs < bound
  | [], _, isBelow, _ => isBelow
  | first :: rest, claim, isBelow, areBelow => by
    refine lastAtNs_lt rest (claim.onEvent first).1 ?_
      fun hook isIn => areBelow hook (List.mem_cons_of_mem _ isIn)
    rw [lastAtNs_onEvent]
    exact max_lt isBelow (areBelow first List.mem_cons_self)

variable {claim : AgentClaim} {newest : HookEvent}

theorem onEvent_late {hook : HookEvent} (isLate : hook.atNs ≤ claim.lastAtNs) :
    (claim.onEvent hook).1 = claim := by
  unfold AgentClaim.onEvent
  rw [if_pos isLate]

theorem phase_run_stays : ∀ (hooks : List HookEvent) (claim : AgentClaim),
    (∀ hook ∈ hooks, hook.phase ≠ none → hook.atNs ≤ claim.lastAtNs) →
    (claim.run hooks).phase = claim.phase
  | [], _, _ => rfl
  | first :: rest, claim, areOld => by
    have fence := lastAtNs_onEvent claim first
    have stays : (claim.onEvent first).1.phase = claim.phase := by
      by_cases isLate : first.atNs ≤ claim.lastAtNs
      · rw [onEvent_late isLate]
      · have noPhase : first.phase = none := by
          by_contra hasPhase
          exact isLate (areOld first List.mem_cons_self hasPhase)
        unfold AgentClaim.onEvent
        rw [if_neg isLate, noPhase]
        rfl
    refine Eq.trans (phase_run_stays rest (claim.onEvent first).1 fun hook isIn hasPhase => ?_)
      stays
    rw [fence]
    exact (areOld hook (List.mem_cons_of_mem _ isIn) hasPhase).trans (le_max_left _ _)

theorem phase_run_newest {before after : List HookEvent} {phase : Phase}
    (hasPhase : newest.phase = some phase) (isNew : claim.lastAtNs < newest.atNs)
    (areOlder : ∀ hook ∈ before, hook.atNs < newest.atNs)
    (isNewest : ∀ hook ∈ after, hook.phase ≠ none → hook.atNs ≤ newest.atNs) :
    (claim.run (before ++ newest :: after)).phase = phase := by
  have passes : ¬newest.atNs ≤ (claim.run before).lastAtNs :=
    Nat.not_le_of_lt (lastAtNs_lt before claim isNew areOlder)
  rw [run_append]
  change (((claim.run before).onEvent newest).1.run after).phase = phase
  unfold AgentClaim.onEvent
  rw [if_neg passes, phase_run_stays after _ isNewest, hasPhase]
  rfl

theorem exists_newest : ∀ hooks : List HookEvent, (∀ hook ∈ hooks, hook.phase = none) ∨
      ∃ newest ∈ hooks, newest.phase ≠ none ∧
        ∀ other ∈ hooks, other.phase ≠ none → other.atNs ≤ newest.atNs
  | [] => .inl nofun
  | first :: rest => by
    rcases exists_newest rest with noPhases | ⟨newest, isIn, hasPhase, isNewest⟩
    · by_cases isFirst : first.phase = none
      · left
        intro hook isIn
        rcases List.mem_cons.mp isIn with rfl | isLater
        · exact isFirst
        · exact noPhases hook isLater
      · right
        refine ⟨first, List.mem_cons_self, isFirst, fun other isOther otherPhase => ?_⟩
        rcases List.mem_cons.mp isOther with rfl | isLater
        · exact le_rfl
        · exact absurd (noPhases other isLater) otherPhase
    · right
      by_cases isNewer : first.phase ≠ none ∧ newest.atNs ≤ first.atNs
      · refine ⟨first, List.mem_cons_self, isNewer.1, fun other isOther otherPhase => ?_⟩
        rcases List.mem_cons.mp isOther with rfl | isLater
        · exact le_rfl
        · exact (isNewest other isLater otherPhase).trans isNewer.2
      · refine ⟨newest, List.mem_cons_of_mem _ isIn, hasPhase, fun other isOther otherPhase => ?_⟩
        rcases List.mem_cons.mp isOther with rfl | isLater
        · exact Nat.le_of_not_le fun isAbove => isNewer ⟨otherPhase, isAbove⟩
        · exact isNewest other isLater otherPhase

theorem phase_run_undisturbed {delivered : List HookEvent} {phase : Phase}
    (distinct : (delivered.map HookEvent.atNs).Nodup) (undisturbed : Undisturbed delivered)
    (isIn : newest ∈ delivered) (hasPhase : newest.phase = some phase)
    (isNew : claim.lastAtNs < newest.atNs)
    (isNewest : ∀ other ∈ delivered, other.phase ≠ none → other.atNs ≤ newest.atNs) :
    (claim.run delivered).phase = phase := by
  obtain ⟨before, after, split⟩ := List.append_of_mem isIn
  have somePhase : newest.phase ≠ none := by
    rw [hasPhase]
    exact Option.some_ne_none _
  have areOlder : ∀ hook ∈ before, hook.atNs < newest.atNs := by
    intro hook isBefore
    by_cases noPhase : hook.phase = none
    · exact undisturbed before newest after split somePhase isNewest hook isBefore noPhase
    · refine lt_of_le_of_ne (isNewest hook (split ▸ List.mem_append_left _ isBefore) noPhase) ?_
      rw [split, List.map_append, List.map_cons] at distinct
      exact (List.nodup_append.mp distinct).2.2 _ (List.mem_map_of_mem isBefore) _
        List.mem_cons_self
  rw [split]
  exact phase_run_newest hasPhase isNew areOlder fun hook isAfter =>
    isNewest hook (split ▸ List.mem_append_right _ (List.mem_cons_of_mem _ isAfter))

theorem undisturbed_of_sorted {ordered : List HookEvent}
    (sorted : ordered.Pairwise fun first second => first.atNs < second.atNs) :
    Undisturbed ordered := by
  rintro before newest after rfl _ _ hook isBefore _
  exact (List.pairwise_append.mp sorted).2.2 hook isBefore newest List.mem_cons_self

theorem agentStatus_reordered (agents : List AgentClaim) (claimId : String)
    {delivered ordered : List HookEvent} (same : delivered.Perm ordered)
    (sorted : ordered.Pairwise fun first second => first.atNs < second.atNs) :
    LateIgnored agents claimId delivered ∧
      (Undisturbed delivered → phaseOf (deliver agents claimId delivered) claimId =
        phaseOf (deliver agents claimId ordered) claimId) := by
  constructor
  · intro before hook after newer _ isBefore isOlder
    rw [phaseOf_deliver, phaseOf_deliver]
    congr 1
    funext claim
    rw [run_append]
    have fence := (le_lastAtNs before claim).2 newer isBefore
    exact congrArg AgentClaim.phase (onEvent_late (isOlder.le.trans fence))
  · intro undisturbed
    rw [phaseOf_deliver, phaseOf_deliver]
    congr 1
    funext claim
    have distinctOrdered : (ordered.map HookEvent.atNs).Nodup :=
      (List.pairwise_map.mpr sorted).imp fun isLess => isLess.ne
    have distinct := (same.map HookEvent.atNs).nodup_iff.mpr distinctOrdered
    rcases exists_newest delivered with noPhases | ⟨newest, isIn, hasPhase, isNewest⟩
    · rw [phase_run_stays delivered claim fun hook isHook some =>
            absurd (noPhases hook isHook) some,
        phase_run_stays ordered claim fun hook isHook some =>
          absurd (noPhases hook (same.mem_iff.mpr isHook)) some]
    · have newestOrdered : ∀ other ∈ ordered, other.phase ≠ none → other.atNs ≤ newest.atNs :=
        fun other isOther => isNewest other (same.mem_iff.mpr isOther)
      by_cases isNew : claim.lastAtNs < newest.atNs
      · obtain ⟨phase, isPhase⟩ := Option.ne_none_iff_exists'.mp hasPhase
        rw [phase_run_undisturbed distinct undisturbed isIn isPhase isNew isNewest,
          phase_run_undisturbed distinctOrdered (undisturbed_of_sorted sorted)
            (same.mem_iff.mp isIn) isPhase isNew newestOrdered]
      · have isOld := Nat.le_of_not_lt isNew
        rw [phase_run_stays delivered claim fun hook isHook some =>
            (isNewest hook isHook some).trans isOld,
          phase_run_stays ordered claim fun hook isHook some =>
            (newestOrdered hook isHook some).trans isOld]

/-- The agent stops, and an older event with a phase comes last. -/
theorem agentStatus_reordered_stop :
    LateIgnored [⟨"c1", .idle, 0⟩] "c1" [⟨"Stop", none, 3⟩, ⟨"PreToolUse", none, 2⟩] ∧
      (Undisturbed [⟨"Stop", none, 3⟩, ⟨"PreToolUse", none, 2⟩] →
        phaseOf (deliver [⟨"c1", .idle, 0⟩] "c1"
            [⟨"Stop", none, 3⟩, ⟨"PreToolUse", none, 2⟩]) "c1" =
          phaseOf (deliver [⟨"c1", .idle, 0⟩] "c1"
            [⟨"PreToolUse", none, 2⟩, ⟨"Stop", none, 3⟩]) "c1") :=
  agentStatus_reordered _ _ (List.Perm.swap _ _ _)
    (List.pairwise_pair.mpr (by decide))

/-- A notification is newer than the end of the work, and comes first. -/
theorem not_agentStatus_reordered : ¬∀ (agents : List AgentClaim) (claimId : String)
    (delivered ordered : List HookEvent), delivered.Perm ordered →
    ordered.Pairwise (fun first second => first.atNs < second.atNs) →
    phaseOf (deliver agents claimId delivered) claimId =
      phaseOf (deliver agents claimId ordered) claimId := by
  intro allSame
  have same := allSame [⟨"c1", .working, 1⟩] "c1" [⟨"Notification", none, 3⟩, ⟨"Stop", none, 2⟩]
    [⟨"Stop", none, 2⟩, ⟨"Notification", none, 3⟩] (List.Perm.swap _ _ _)
    (List.pairwise_pair.mpr (by decide))
  revert same
  decide +kernel

end AiTools.Daemon.AgentStatus
