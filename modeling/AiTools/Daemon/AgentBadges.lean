import AiTools.Daemon.AgentStatus
import AiTools.Lib.Transition

/-!
Contract: whose badge the hook events of the agents in a pane change, and whose badge is shown.
-/

namespace AiTools.Daemon.AgentBadges

open AiTools.Daemon.AgentStatus (HookEvent onEvent_claimId)
open AiTools.Lib.Transition

/-- `stat` is 4 for a process that is stopped and 5 for a zombie. A `tdev` of -1 is no terminal. -/
structure ProcFacts where
  startUs : Nat
  stat : Nat
  tdev : Int

namespace ProcFacts

def alive (facts : ProcFacts) : Bool := facts.stat ≠ 5

def stopped (facts : ProcFacts) : Bool := facts.stat = 4

def hasCtty (facts : ProcFacts) : Bool := facts.tdev ≠ -1

end ProcFacts

abbrev Kernel := Int → Option ProcFacts

structure AgentClaim extends AgentStatus.AgentClaim where
  tool : String
  pid : Int
  startUs : Nat

def AgentClaim.key (claim : AgentClaim) : Int × Nat := (claim.pid, claim.startUs)

def liveKey (kernel : Kernel) (key : Int × Nat) : Bool :=
  match kernel key.1 with
  | none => false
  | some facts => facts.alive && facts.startUs = key.2

def AgentClaim.isLive (kernel : Kernel) (claim : AgentClaim) : Bool := liveKey kernel claim.key

def statusOf (kernel : Kernel) (claim : AgentClaim) : String :=
  let status :=
    if (kernel claim.pid).any ProcFacts.stopped then "idle"
    else
      match claim.phase with
      | .working => "running"
      | .waiting => "attention"
      | .idle => "idle"
  claim.tool ++ ":" ++ status

/-- From the last claim to the first. -/
def resolveFrom (kernel : Kernel) : List AgentClaim → Option String
  | [] => none
  | claim :: earlier =>
    match kernel claim.pid with
    | none => resolveFrom kernel earlier
    | some facts =>
      if !facts.alive then resolveFrom kernel earlier
      else if facts.startUs ≠ claim.startUs then resolveFrom kernel earlier
      else some (statusOf kernel claim)

def resolve (agents : List AgentClaim) (kernel : Kernel) : Option String :=
  resolveFrom kernel agents.reverse

def prune (agents : List AgentClaim) (kernel : Kernel) : List AgentClaim :=
  agents.filter (AgentClaim.isLive kernel)

def AgentClaim.onHook (claim : AgentClaim) (hook : HookEvent) : AgentClaim :=
  { claim with toAgentClaim := (claim.toAgentClaim.onEvent hook).1 }

/-- `apply_event`, for the first claim of the id. -/
def applyEvent (claimId : String) (hook : HookEvent) : List AgentClaim → List AgentClaim
  | [] => []
  | claim :: rest =>
    if claim.claimId = claimId then claim.onHook hook :: rest
    else claim :: applyEvent claimId hook rest

/-! ## The launches -/

/-- `own` is the claim that the daemon has recorded for the launch, and `env` what its environment
has for `GROVE_CLAIM_ID`. -/
structure Launch where
  tool : String
  pid : Int
  handled : Bool
  own : Option String
  received : Bool
  env : Option String
  started : Bool

/-- What `grove-agent event` does with a hook that an agent has fired. -/
def Launch.fired (launch : Launch) (hook : HookEvent) (agents : List AgentClaim) :
    List AgentClaim :=
  match launch.env with
  | none => agents
  | some claimId => applyEvent claimId hook agents

/-- `recorded` are all claims, with those that have been pruned, and `born` the processes that have
been alive. -/
structure System where
  shellTdev : Int
  kernel : Kernel
  launches : List Launch
  agents : List AgentClaim
  recorded : List AgentClaim
  born : List (Int × Nat)

def initial (shellTdev : Int) : System := ⟨shellTdev, fun _ => none, [], [], [], []⟩

/-- A launch whose claim is not received in time starts all the same, and the daemon may handle its
claim later. -/
inductive Label where
  | kernel (pid : Int) (facts : Option ProcFacts)
  | launch (parent : Option Nat) (tool : String) (pid : Int)
  | claim (index : Nat) (claimId : String)
  | receive (index : Nat)
  | start (index : Nat)
  | fire (index : Nat) (hook : HookEvent)

namespace System

variable (sys : System)

/-- A process is listed as alive with a start time that is new, or that it has while it is alive. -/
def mayList (pid : Int) : Option ProcFacts → Bool
  | none => true
  | some found =>
    !found.alive || (sys.born.all fun key => key ≠ (pid, found.startUs)) ||
      liveKey sys.kernel (pid, found.startUs)

def list (pid : Int) (facts : Option ProcFacts) : System :=
  { sys with
    kernel := Function.update sys.kernel pid facts
    born := match facts with
      | none => sys.born
      | some found => if found.alive then (pid, found.startUs) :: sys.born else sys.born }

/-- The environment of a launch is that of its parent. The shell has no claim id. -/
def envOf (parent : Option Nat) : Option String :=
  (parent.bind fun index => sys.launches[index]?).bind Launch.env

def setLaunch (index : Nat) (launch : Launch) : System :=
  { sys with launches := sys.launches.set index launch }

/-- `agent_claim`: the claimant has to be alive, and on the terminal of the shell. -/
def accepts (launch : Launch) : Option ProcFacts :=
  (sys.kernel launch.pid).filter fun facts =>
    facts.alive && facts.hasCtty && facts.tdev = sys.shellTdev

def record (claim : AgentClaim) : System :=
  { sys with
    agents := prune sys.agents sys.kernel ++ [claim]
    recorded := sys.recorded ++ [claim] }

def fire (launch : Launch) (hook : HookEvent) : System :=
  { sys with
    agents := launch.fired hook sys.agents
    recorded := launch.fired hook sys.recorded }

end System

/-- The ids that the daemon mints are new. -/
def step (sys : System) : Label → Option System
  | .kernel pid facts => if sys.mayList pid facts then some (sys.list pid facts) else none
  | .launch parent tool pid =>
    if parent.all fun index => sys.launches[index]?.any Launch.started then
      some { sys with
        launches := sys.launches ++
          [⟨tool, pid, false, none, false, sys.envOf parent, false⟩] }
    else none
  | .claim index claimId =>
    match sys.launches[index]? with
    | none => none
    | some launch =>
      if !launch.handled && sys.recorded.all fun claim : AgentClaim =>
          claim.claimId ≠ claimId then
        match sys.accepts launch with
        | none => some (sys.setLaunch index { launch with handled := true })
        | some facts =>
          some ((sys.setLaunch index
            { launch with handled := true, own := some claimId }).record
            ⟨⟨claimId, .idle, 0⟩, launch.tool, launch.pid, facts.startUs⟩)
      else none
  | .receive index =>
    match sys.launches[index]? with
    | none => none
    | some launch =>
      if !launch.started && launch.own.isSome then
        some (sys.setLaunch index { launch with received := true, env := launch.own })
      else none
  | .start index =>
    match sys.launches[index]? with
    | none => none
    | some launch =>
      if !launch.started then
        some (sys.setLaunch index { launch with started := true })
      else none
  | .fire index hook =>
    match sys.launches[index]? with
    | none => none
    | some launch => if launch.started then some (sys.fire launch hook) else none

/-- The status of the last of the claims that is live. -/
def reported (recorded : List AgentClaim) (kernel : Kernel) : Option String :=
  ((recorded.filter (AgentClaim.isLive kernel)).getLast?).map (statusOf kernel)

structure OwnBadges (sys : System) : Prop where
  own : ∀ launch ∈ sys.launches, launch.started = true → ∀ hook,
    ∀ position : Nat, ∀ claim : AgentClaim, sys.agents[position]? = some claim →
      launch.own ≠ some claim.claimId →
      (launch.fired hook sys.agents)[position]? = some claim
  failed : ∀ launch ∈ sys.launches, launch.started = true → launch.received = false →
    ∀ hook, launch.fired hook sys.agents = sys.agents
  status : resolve sys.agents sys.kernel = reported sys.recorded sys.kernel

/-- An agent that starts without its claim has inherited none. -/
def Clean (sys : System) : Label → Prop
  | .start index => ∀ launch, sys.launches[index]? = some launch →
      launch.received = true ∨ launch.env = none
  | _ => True


theorem onHook_claimId (claim : AgentClaim) (hook : HookEvent) :
    (claim.onHook hook).claimId = claim.claimId := onEvent_claimId _ hook

theorem onHook_key (claim : AgentClaim) (hook : HookEvent) :
    (claim.onHook hook).key = claim.key := rfl

variable {claimId : String} {claim : AgentClaim} {index : Nat} {pid : Int}
  {facts : Option ProcFacts}

theorem applyEvent_of_not_named (hook : HookEvent) :
    ∀ {agents : List AgentClaim}, (∀ claim ∈ agents, claim.claimId ≠ claimId) →
      applyEvent claimId hook agents = agents
  | [], _ => rfl
  | claim :: rest, others => by
    have differs : claim.claimId ≠ claimId := others claim List.mem_cons_self
    rw [applyEvent, if_neg differs, applyEvent_of_not_named hook fun claim member =>
      others claim (List.mem_cons_of_mem _ member)]

theorem getElem?_applyEvent (hook : HookEvent) (differs : claim.claimId ≠ claimId) :
    ∀ {agents : List AgentClaim} {position : Nat}, agents[position]? = some claim →
      (applyEvent claimId hook agents)[position]? = some claim
  | [], _, found => by simp at found
  | first :: rest, position, found => by
    unfold applyEvent
    split_ifs with isNamed
    · cases position with
      | zero =>
        have same : first = claim := by simpa using found
        exact absurd (same ▸ isNamed) differs
      | succ position => simpa using found
    · cases position with
      | zero => simpa using found
      | succ position =>
        have later : rest[position]? = some claim := by simpa using found
        simpa using getElem?_applyEvent hook differs later

/-- No two claims have one id, so the event goes to the same claim when some of the others are not
there. -/
theorem applyEvent_filter (hook : HookEvent) (keep : Int × Nat → Bool) :
    ∀ {recorded : List AgentClaim}, (recorded.map fun claim => claim.claimId).Nodup →
      applyEvent claimId hook (recorded.filter fun claim => keep claim.key) =
        (applyEvent claimId hook recorded).filter fun claim => keep claim.key
  | [], _ => rfl
  | claim :: rest, unique => by
    obtain ⟨isNew, laterUnique⟩ := List.nodup_cons.mp unique
    have ih : applyEvent claimId hook (rest.filter fun claim => keep claim.key) =
          (applyEvent claimId hook rest).filter fun claim => keep claim.key :=
      applyEvent_filter hook keep laterUnique
    by_cases isNamed : claim.claimId = claimId
    · have others : ∀ other ∈ rest, other.claimId ≠ claimId := fun other member same =>
        isNew (List.mem_map.mpr ⟨other, member, same.trans isNamed.symm⟩)
      have keptOthers : ∀ other ∈ rest.filter (fun claim => keep claim.key),
          other.claimId ≠ claimId := fun other member =>
        others other (List.mem_of_mem_filter member)
      rw [applyEvent, if_pos isNamed]
      cases isKept : keep claim.key with
      | true =>
        rw [List.filter_cons_of_pos (by simpa using isKept), applyEvent, if_pos isNamed,
          List.filter_cons_of_pos (by simpa [onHook_key] using isKept)]
      | false =>
        rw [List.filter_cons_of_neg (by simpa using isKept),
          applyEvent_of_not_named hook keptOthers,
          List.filter_cons_of_neg (by simpa [onHook_key] using isKept)]
    · rw [applyEvent, if_neg isNamed]
      cases isKept : keep claim.key with
      | true =>
        rw [List.filter_cons_of_pos (by simpa using isKept), applyEvent, if_neg isNamed,
          List.filter_cons_of_pos (by simpa using isKept), ih]
      | false =>
        rw [List.filter_cons_of_neg (by simpa using isKept),
          List.filter_cons_of_neg (by simpa using isKept), ih]

theorem map_applyEvent {Data : Type*} (data : AgentClaim → Data)
    (isKept : ∀ claim hook, data (claim.onHook hook) = data claim) (claimId : String)
    (hook : HookEvent) : ∀ agents : List AgentClaim,
      (applyEvent claimId hook agents).map data = agents.map data
  | [] => rfl
  | claim :: rest => by
    unfold applyEvent
    split_ifs
    · rw [List.map_cons, List.map_cons, isKept]
    · rw [List.map_cons, List.map_cons, map_applyEvent data isKept claimId hook rest]

theorem resolveFrom_eq (kernel : Kernel) : ∀ agents : List AgentClaim, resolveFrom kernel agents =
      (agents.find? (AgentClaim.isLive kernel)).map (statusOf kernel)
  | [] => rfl
  | claim :: earlier => by
    have ih := resolveFrom_eq kernel earlier
    rw [resolveFrom, List.find?_cons, AgentClaim.isLive, liveKey]
    cases listed : kernel claim.pid with
    | none => simpa [AgentClaim.key, listed] using ih
    | some facts =>
      by_cases isAlive : facts.alive = true <;>
        by_cases same : facts.startUs = claim.startUs <;>
        simp [AgentClaim.key, listed, isAlive, same, ih]

theorem resolve_eq_reported (agents : List AgentClaim) (kernel : Kernel) :
    resolve agents kernel = reported agents kernel := by
  rw [resolve, resolveFrom_eq, reported, ← List.head?_filter, List.filter_reverse,
    List.head?_reverse]

/-! ## The invariant -/

structure Launch.Sound (launch : Launch) : Prop where
  handled : launch.own ≠ none → launch.handled = true
  received : launch.received = true → launch.own ≠ none ∧ launch.env = launch.own
  started : launch.started = true → launch.received = true ∨ launch.env = none

/-- The claims that are no more there are those of `gone` processes, which do not come back. -/
structure Kept (kernel : Kernel) (born : List (Int × Nat)) (recorded agents : List AgentClaim)
    (gone : Int × Nat → Bool) : Prop where
  dead : ∀ key, gone key = true → key ∈ born ∧ liveKey kernel key = false
  agents : agents = recorded.filter fun claim => !gone claim.key

structure Sound (sys : System) : Prop where
  launches : ∀ launch ∈ sys.launches, launch.Sound
  unique : (sys.recorded.map fun claim : AgentClaim => claim.claimId).Nodup
  keys : ∀ claim ∈ sys.recorded, claim.key ∈ sys.born
  listed : ∀ key, liveKey sys.kernel key = true → key ∈ sys.born
  kept : ∃ gone, Kept sys.kernel sys.born sys.recorded sys.agents gone

theorem sound_initial (shellTdev : Int) : Sound (initial shellTdev) where
  launches _ member := absurd member List.not_mem_nil
  unique := List.nodup_nil
  keys _ member := absurd member List.not_mem_nil
  listed _ isLive := by simp [initial, liveKey] at isLive
  kept := ⟨fun _ => false, ⟨fun _ isGone => absurd isGone Bool.false_ne_true, rfl⟩⟩

theorem mem_set {launches : List Launch} {before after launch : Launch}
    (found : launches[index]? = some before) (member : launch ∈ launches.set index after) :
    launch ∈ launches ∨ launch = after ∧ before ∈ launches := by
  rcases List.mem_or_eq_of_mem_set member with earlier | same
  · exact .inl earlier
  · exact .inr ⟨same, List.mem_of_getElem? found⟩

variable {sys : System}

theorem Sound.setLaunch (invariant : Sound sys) {before after : Launch}
    (found : sys.launches[index]? = some before) (isSound : before.Sound → after.Sound) :
    Sound (sys.setLaunch index after) where
  launches launch member := by
    rcases mem_set found member with earlier | ⟨same, wasThere⟩
    · exact invariant.launches launch earlier
    · rw [same]
      exact isSound (invariant.launches before wasThere)
  __ := invariant

theorem liveKey_update {kernel : Kernel} {key : Int × Nat}
    (isLive : liveKey (Function.update kernel pid facts) key = true) :
    liveKey kernel key = true ∨
      ∃ found, facts = some found ∧ found.alive = true ∧ key = (pid, found.startUs) := by
  obtain ⟨listedPid, startUs⟩ := key
  by_cases same : listedPid = pid
  · subst same
    unfold liveKey at isLive
    rw [Function.update_self] at isLive
    cases facts with
    | none => simp at isLive
    | some found =>
      obtain ⟨isAlive, sameStart⟩ : found.alive = true ∧ found.startUs = startUs := by
        simpa using isLive
      exact .inr ⟨found, rfl, isAlive, by rw [sameStart]⟩
  · left
    unfold liveKey at isLive ⊢
    rwa [Function.update_of_ne same] at isLive

theorem born_list (sys : System) (pid : Int) (facts : Option ProcFacts) :
    ∀ key ∈ sys.born, key ∈ (sys.list pid facts).born := by
  intro key member
  unfold System.list
  cases facts with
  | none => exact member
  | some found =>
    dsimp only
    split_ifs
    · exact List.mem_cons_of_mem _ member
    · exact member

theorem Sound.list (invariant : Sound sys) (may : sys.mayList pid facts = true) :
    Sound (sys.list pid facts) where
  __ := invariant
  keys claim member := born_list sys pid facts _ (invariant.keys claim member)
  listed key isLive := by
    rcases liveKey_update isLive with before | ⟨found, rfl, isAlive, same⟩
    · exact born_list sys pid facts key (invariant.listed key before)
    · unfold System.list
      simp [isAlive, same]
  kept := by
    obtain ⟨gone, isKept⟩ := invariant.kept
    refine ⟨gone, fun key isGone => ?_, isKept.agents⟩
    obtain ⟨wasBorn, isDead⟩ := isKept.dead key isGone
    refine ⟨born_list sys pid facts key wasBorn, ?_⟩
    by_contra notDead
    rcases liveKey_update (Bool.eq_true_of_not_eq_false notDead) with before |
      ⟨found, rfl, isAlive, same⟩
    · rw [isDead] at before
      exact Bool.false_ne_true before
    · rw [System.mayList, isAlive, ← same, isDead] at may
      have isNew : ∀ other ∈ sys.born, other ≠ key := by simpa using may
      exact isNew key wasBorn rfl

theorem Sound.record (invariant : Sound sys) (isLive : liveKey sys.kernel claim.key = true)
    (isNew : ∀ other ∈ sys.recorded, AgentStatus.AgentClaim.claimId other.toAgentClaim ≠
      claim.claimId) : Sound (sys.record claim) where
  __ := invariant
  unique := by
    have unique : ((sys.recorded ++ [claim]).map fun claim : AgentClaim =>
        claim.claimId).Nodup := by
      rw [List.map_append, List.nodup_append]
      refine ⟨invariant.unique, List.nodup_singleton _, ?_⟩
      intro claimId member named isNamed same
      obtain ⟨other, wasThere, rfl⟩ := List.mem_map.mp member
      exact isNew other wasThere (same.trans (List.mem_singleton.mp isNamed))
    exact unique
  keys other member := by
    rcases List.mem_append.mp member with earlier | isClaim
    · exact invariant.keys other earlier
    · rw [List.mem_singleton.mp isClaim]
      exact invariant.listed claim.key isLive
  kept := by
    obtain ⟨gone, isKept⟩ := invariant.kept
    refine ⟨fun key => gone key || (decide (key ∈ sys.born) && !liveKey sys.kernel key),
      fun key isGone => ?_, ?_⟩
    · rcases Bool.or_eq_true _ _ ▸ isGone with before | now
      · exact isKept.dead key before
      · have isDead : key ∈ sys.born ∧ liveKey sys.kernel key = false := by
          simpa using now
        exact isDead
    · have notGone : gone claim.key = false := by
        by_contra isGone
        have isDead := (isKept.dead claim.key (Bool.eq_true_of_not_eq_false isGone)).2
        rw [isLive] at isDead
        exact Bool.false_ne_true isDead.symm
      have pruned : prune sys.agents sys.kernel = sys.recorded.filter fun other =>
          !(gone other.key ||
            (decide (other.key ∈ sys.born) && !liveKey sys.kernel other.key)) := by
        rw [prune, isKept.agents, List.filter_filter]
        refine List.filter_congr fun other member => ?_
        have wasBorn := invariant.keys other member
        simp [wasBorn, AgentClaim.isLive, Bool.and_comm]
      have isThere : [claim] = [claim].filter fun other =>
          !(gone other.key ||
            (decide (other.key ∈ sys.born) && !liveKey sys.kernel other.key)) := by
        simp [notGone, isLive]
      rw [System.record, List.filter_append, ← pruned, ← isThere]

theorem Sound.fire (invariant : Sound sys) (launch : Launch)
    (hook : HookEvent) : Sound (sys.fire launch hook) := by
  unfold System.fire Launch.fired
  cases launch.env with
  | none => exact ⟨invariant.launches, invariant.unique, invariant.keys, invariant.listed,
      invariant.kept⟩
  | some claimId =>
    have sameKeys := map_applyEvent AgentClaim.key onHook_key claimId hook sys.recorded
    refine ⟨invariant.launches, ?_, fun claim member => ?_, invariant.listed, ?_⟩
    · dsimp only
      rw [map_applyEvent _ onHook_claimId]
      exact invariant.unique
    · have wasKey : claim.key ∈ sys.recorded.map AgentClaim.key :=
        sameKeys ▸ List.mem_map_of_mem member
      obtain ⟨before, wasThere, same⟩ := List.mem_map.mp wasKey
      exact same ▸ invariant.keys before wasThere
    · obtain ⟨gone, isKept⟩ := invariant.kept
      refine ⟨gone, isKept.dead, ?_⟩
      dsimp only
      rw [isKept.agents]
      exact applyEvent_filter hook (fun key => !gone key) invariant.unique

theorem sound_step {next : System} {label : Label} (invariant : Sound sys)
    (clean : Clean sys label) (ran : step sys label = some next) : Sound next := by
  cases label with
  | kernel pid facts =>
    obtain ⟨may, isNext⟩ := Option.ite_none_right_eq_some.mp ran
    cases isNext
    exact invariant.list may
  | launch parent tool pid =>
    obtain ⟨_, isNext⟩ := Option.ite_none_right_eq_some.mp ran
    cases isNext
    refine ⟨fun launch member => ?_, invariant.unique, invariant.keys, invariant.listed,
      invariant.kept⟩
    rcases List.mem_append.mp member with earlier | isNew
    · exact invariant.launches launch earlier
    · rw [List.mem_singleton.mp isNew]
      exact ⟨absurd rfl, fun isReceived => absurd isReceived Bool.false_ne_true,
        fun isStarted => absurd isStarted Bool.false_ne_true⟩
  | claim index claimId =>
    rw [step] at ran
    cases found : sys.launches[index]? with
    | none => simp [found] at ran
    | some launch =>
      rw [found] at ran
      obtain ⟨guard, ran⟩ := Option.ite_none_right_eq_some.mp ran
      obtain ⟨notHandled, isNew⟩ : launch.handled = false ∧ ∀ claim ∈ sys.recorded,
            AgentStatus.AgentClaim.claimId claim.toAgentClaim ≠ claimId := by
        simpa using guard
      -- The claim id is received after the claim is handled only.
      have notReceived (isSound : launch.Sound) : launch.received = false := by
        by_contra isReceived
        have isHandled := isSound.handled
          (isSound.received (Bool.eq_true_of_not_eq_false isReceived)).1
        rw [notHandled] at isHandled
        exact Bool.false_ne_true isHandled
      cases accepted : sys.accepts launch with
      | none =>
        rw [accepted] at ran
        cases ran
        exact invariant.setLaunch found fun isSound =>
          ⟨fun _ => rfl, isSound.received, isSound.started⟩
      | some facts =>
        rw [accepted] at ran
        cases ran
        have isSet : Sound (sys.setLaunch index
            { launch with handled := true, own := some claimId }) :=
          invariant.setLaunch found fun isSound =>
            ⟨fun _ => rfl, fun isReceived =>
              absurd (isReceived.symm.trans (notReceived isSound)) Bool.true_eq_false.mp,
              isSound.started⟩
        obtain ⟨listed, isAlive⟩ := Option.filter_eq_some_iff.mp accepted
        refine isSet.record ?_ isNew
        have isAlive : facts.alive = true := by
          simp only [Bool.and_eq_true] at isAlive
          exact isAlive.1.1
        simp [liveKey, AgentClaim.key, System.setLaunch, listed, isAlive]
  | receive index =>
    rw [step] at ran
    cases found : sys.launches[index]? with
    | none => simp [found] at ran
    | some launch =>
      rw [found] at ran
      obtain ⟨guard, isNext⟩ := Option.ite_none_right_eq_some.mp ran
      cases isNext
      obtain ⟨_, isOwn⟩ := Bool.and_eq_true_iff.mp guard
      exact invariant.setLaunch found fun isSound =>
        ⟨isSound.handled, fun _ => ⟨Option.isSome_iff_ne_none.mp isOwn, rfl⟩, fun _ => .inl rfl⟩
  | start index =>
    rw [step] at ran
    cases found : sys.launches[index]? with
    | none => simp [found] at ran
    | some launch =>
      rw [found] at ran
      obtain ⟨_, isNext⟩ := Option.ite_none_right_eq_some.mp ran
      cases isNext
      exact invariant.setLaunch found fun isSound =>
        ⟨isSound.handled, isSound.received, fun _ => clean launch found⟩
  | fire index hook =>
    rw [step] at ran
    cases found : sys.launches[index]? with
    | none => simp [found] at ran
    | some launch =>
      rw [found] at ran
      obtain ⟨_, isNext⟩ := Option.ite_none_right_eq_some.mp ran
      cases isNext
      exact invariant.fire launch hook

theorem sound_run {shellTdev : Int} {finish : System}
    (run : Run step Clean (initial shellTdev) finish) : Sound finish :=
  run.invariant (sound_initial shellTdev) fun _ _ _ => sound_step

theorem Sound.badges (invariant : Sound sys) : OwnBadges sys where
  own launch member isStarted hook position claim found differs := by
    unfold Launch.fired
    cases isEnv : launch.env with
    | none => exact found
    | some claimId =>
      have isSound := invariant.launches launch member
      have isReceived : launch.received = true :=
        (isSound.started isStarted).resolve_right (by rw [isEnv]; exact Option.some_ne_none _)
      have isOwn : launch.own = some claimId := ((isSound.received isReceived).2).symm.trans isEnv
      refine getElem?_applyEvent hook (fun same => differs ?_) found
      rw [isOwn, same]
  failed launch member isStarted notReceived hook := by
    have isEnv : launch.env = none :=
      ((invariant.launches launch member).started isStarted).resolve_left
        (by rw [notReceived]; exact Bool.false_ne_true)
    rw [Launch.fired, isEnv]
  status := by
    obtain ⟨gone, isKept⟩ := invariant.kept
    rw [resolve_eq_reported, reported, reported, isKept.agents, List.filter_filter]
    congr 2
    refine List.filter_congr fun claim _ => ?_
    cases isGone : gone claim.key with
    | false => simp
    | true => simp [AgentClaim.isLive, (isKept.dead _ isGone).2]

/-- For every tree of launches in the pane, and every order of what happens in it, each agent
changes its own claim only, as long as no agent starts with the claim id of another. -/
theorem ownBadges {shellTdev : Int} {finish : System}
    (run : Run step Clean (initial shellTdev) finish) : OwnBadges finish :=
  (sound_run run).badges

/-- An agent on the terminal 7 that is claimed, and asks for permission. -/
def claimedSchedule : List Label :=
  [.launch none "claude" 100, .kernel 100 (some ⟨1, 2, 7⟩), .claim 0 "c1", .receive 0, .start 0]

def asks : HookEvent := ⟨"PermissionRequest", none, 10⟩

theorem ownBadges_claimed : ∃ finish, execute step (initial 7) claimedSchedule = some finish ∧
    resolve finish.agents finish.kernel = some "claude:idle" ∧ OwnBadges finish := by
  have permitted : Permitted step Clean (initial 7) claimedSchedule := by
    refine ⟨trivial, _, rfl, trivial, _, rfl, trivial, _, rfl, trivial, _, rfl, ?_, _, rfl, trivial⟩
    intro launch found
    obtain rfl := Option.some.inj found
    exact .inl rfl
  cases replayed : execute step (initial 7) claimedSchedule with
  | none => exact absurd (congrArg Option.isSome replayed) (by decide)
  | some finish =>
    refine ⟨finish, rfl, ?_, ownBadges (run_of_permitted claimedSchedule permitted replayed)⟩
    obtain rfl := Option.some.inj replayed
    rfl

/-- The second agent is started by the first, and its claim is refused as it has no terminal. -/
def nestedSchedule : List Label :=
  claimedSchedule ++
    [.launch (some 0) "codex" 200, .kernel 200 (some ⟨2, 2, -1⟩), .claim 1 "c2", .start 1]

theorem not_ownBadges : ¬ ∀ (shellTdev : Int) (finish : System),
    Reachable step (initial shellTdev) finish → OwnBadges finish := by
  intro always
  have isOwn := always 7 _ (reachable_of_execute nestedSchedule rfl)
  have same := isOwn.failed ⟨"codex", 200, true, none, false, some "c1", true⟩
    (List.mem_cons_of_mem _ List.mem_cons_self) rfl rfl asks
  have before := congrArg (List.map fun claim : AgentClaim => claim.lastAtNs) same
  exact absurd before (by decide)

end AiTools.Daemon.AgentBadges
