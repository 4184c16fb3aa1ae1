import AiTools.Whip.RemoteLogin
import Mathlib.Data.List.Nodup

/-!
Contract: what an earlier prune of the remote login's state changes in later answers.
-/

namespace AiTools.Whip.RemoteAuth

open AiTools.Lib.Transition

/-- Two errors, or the same answer. Of two states, the sessions may stand in another order. -/
def SameAnswer (sameStamp : Option Int → Option Int → Prop) : Answer → Answer → Prop
  | .error _, .error _ => True
  | .state first, .state second =>
    first.pendingChallenge = second.pendingChallenge ∧ first.attempts = second.attempts ∧
      first.sessions.Perm second.sessions ∧ sameStamp first.updatedAt second.updatedAt
  | first, second => first = second

def answers (prims : Primitives) : State → List Call → List Answer
  | _, [] => []
  | state, call :: later =>
    (call.run prims state).2 :: answers prims (call.run prims state).1 later

/-- A prune does not show in the answers to the calls after it. -/
def PruneHidden (prims : Primitives) (sameStamp : Option Int → Option Int → Prop)
    (state : State) : Prop :=
  ∀ now calls, (∀ call ∈ calls, now ≤ call.now) → (calls.map Call.now).Pairwise (· ≤ ·) →
    List.Forall₂ (SameAnswer sameStamp) (answers prims state calls)
      (answers prims (pruneRemoteAuthState state now).1 calls)

/-- Every run is safe, and wherever it has come to a prune is hidden. -/
def RemoteLogin (sameStamp : Option Int → Option Int → Prop) : Prop :=
  ∀ (prims : Primitives) (start : State) (sys : System), Distinct start →
    Run (step prims) InOrder (.initial start) sys →
      Safe prims start sys.log ∧ PruneHidden prims sameStamp sys.state

/-- Pruned now, the states agree. -/
structure SameAt (now : Int) (first second : State) : Prop where
  pendingChallenge : (pruneRemoteAuthState first now).1.pendingChallenge =
    (pruneRemoteAuthState second now).1.pendingChallenge
  attempts : (pruneRemoteAuthState first now).1.attempts =
    (pruneRemoteAuthState second now).1.attempts
  sessions : (pruneRemoteAuthState first now).1.sessions.Perm
    (pruneRemoteAuthState second now).1.sessions

variable {now : Int}

theorem SameAt.symm {first second : State} (same : SameAt now first second) :
    SameAt now second first :=
  ⟨same.pendingChallenge.symm, same.attempts.symm, same.sessions.symm⟩

theorem SameAt.trans {first second third : State} (same : SameAt now first second)
    (later : SameAt now second third) : SameAt now first third :=
  ⟨same.pendingChallenge.trans later.pendingChallenge, same.attempts.trans later.attempts,
    same.sessions.trans later.sessions⟩

theorem challenge_staysEnded {challenge : Challenge} {later : Int} (inOrder : now ≤ later)
    (ended : shouldPruneRemoteAuthChallenge challenge now = true) :
    shouldPruneRemoteAuthChallenge challenge later = true := by
  simp only [shouldPruneRemoteAuthChallenge, decide_eq_true_eq] at ended ⊢
  omega

theorem session_staysEnded {session : Session} {later : Int} (inOrder : now ≤ later)
    (ended : shouldPruneRemoteAuthSession session now = true) :
    shouldPruneRemoteAuthSession session later = true := by
  simp only [shouldPruneRemoteAuthSession, Bool.or_eq_true, decide_eq_true_eq] at ended ⊢
  exact ended.imp_right fun expired => by omega

theorem attempt_staysOutside {attempt : Attempt} {later : Int} (inOrder : now ≤ later)
    (outside : outsideWindow attempt now = true) : outsideWindow attempt later = true := by
  simp only [outsideWindow, decide_eq_true_eq] at outside ⊢
  omega

theorem not_and_not {earlier later : Bool} (stays : earlier = true → later = true) :
    (!later && !earlier) = !later := by
  cases earlier with
  | false => simp
  | true => simp [stays rfl]

instance (now : Int) : Trans (SameAt now) (SameAt now) (SameAt now) := ⟨SameAt.trans⟩

theorem prune_prune (state : State) {later : Int} (inOrder : now ≤ later) :
    (pruneRemoteAuthState (pruneRemoteAuthState state now).1 later).1.pendingChallenge =
        (pruneRemoteAuthState state later).1.pendingChallenge ∧
      (pruneRemoteAuthState (pruneRemoteAuthState state now).1 later).1.attempts =
        (pruneRemoteAuthState state later).1.attempts ∧
      (pruneRemoteAuthState (pruneRemoteAuthState state now).1 later).1.sessions =
        (pruneRemoteAuthState state later).1.sessions := by
  refine ⟨?_, ?_, ?_⟩
  · simp only [pruneRemoteAuthState, Option.filter_filter]
    congr 1
    funext challenge
    rw [Bool.and_comm]
    exact not_and_not (challenge_staysEnded inOrder)
  · simp only [pruneRemoteAuthState, List.filter_filter]
    exact List.filter_congr fun attempt _ => not_and_not (attempt_staysOutside inOrder)
  · simp only [pruneRemoteAuthState, List.filter_filter]
    exact List.filter_congr fun session _ => not_and_not (session_staysEnded inOrder)

theorem SameAt.prune (state : State) {later : Int} (inOrder : now ≤ later) :
    SameAt later state (pruneRemoteAuthState state now).1 := by
  obtain ⟨pendingChallenge, attempts, sessions⟩ := prune_prune state inOrder
  exact ⟨pendingChallenge.symm, attempts.symm, .of_eq sessions.symm⟩

theorem SameAt.of_fields {first second : State} (now : Int)
    (pendingChallenge : first.pendingChallenge = second.pendingChallenge)
    (attempts : first.attempts = second.attempts)
    (sessions : first.sessions.Perm second.sessions) : SameAt now first second := by
  refine ⟨?_, ?_, sessions.filter _⟩
  · simp only [pruneRemoteAuthState, pendingChallenge]
  · simp only [pruneRemoteAuthState, attempts]

theorem SameAt.later {first second : State} {later : Int} (same : SameAt now first second)
    (inOrder : now ≤ later) : SameAt later first second :=
  calc SameAt later first (pruneRemoteAuthState first now).1 := .prune first inOrder
    SameAt later _ (pruneRemoteAuthState second now).1 :=
      .of_fields later same.pendingChallenge same.attempts same.sessions
    SameAt later _ second := (SameAt.prune second inOrder).symm

section
variable {prims : Primitives} {now : Int} {first second : State}

theorem SameAt.pruned (same : SameAt now first second) :
    SameAt now (pruneRemoteAuthState first now).1 (pruneRemoteAuthState second now).1 :=
  .of_fields now same.pendingChallenge same.attempts same.sessions

theorem SameAt.upsert (same : SameAt now first second) (firstDistinct : Distinct first)
    (secondDistinct : Distinct second) (session : Session) :
    ((upsertRemoteAuthSession session first.sessions).filter
      (!shouldPruneRemoteAuthSession · now)).Perm
        ((upsertRemoteAuthSession session second.sessions).filter
          (!shouldPruneRemoteAuthSession · now)) := by
  have written : ∀ sessions : List Session, (sessions.map Session.sessionID).Nodup →
      ((upsertRemoteAuthSession session sessions).filter
        (!shouldPruneRemoteAuthSession · now)).Perm
          ([session].filter (!shouldPruneRemoteAuthSession · now) ++
            (sessions.filter (!shouldPruneRemoteAuthSession · now)).filter
              (·.sessionID ≠ session.sessionID)) := by
    intro sessions distinct
    refine ((upsert_perm session distinct).filter _).trans (.of_eq ?_)
    rw [← List.singleton_append, List.filter_append, List.filter_comm]
  exact (written _ firstDistinct).trans
    (((same.sessions.filter _).append_left _).trans (written _ secondDistinct).symm)

/-! ## The calls -/

/-- What the calls leave and answer, once it is written, agrees. -/
def Agree (now : Int) (first second : State) (firstLocked secondLocked : Locked) : Prop :=
  SameAnswer (fun _ _ => True) (withLockedState (fun _ => firstLocked) first).2
      (withLockedState (fun _ => secondLocked) second).2 ∧
    SameAt now (withLockedState (fun _ => firstLocked) first).1
      (withLockedState (fun _ => secondLocked) second).1

theorem refuse_agrees (same : SameAt now first second) (firstError secondError : AuthError) :
    Agree now first second (refuse first now firstError) (refuse second now secondError) := by
  unfold Agree refuse
  rw [withLockedState_prune, withLockedState_prune]
  exact ⟨trivial, same.pruned⟩

theorem load_agrees (same : SameAt now first second) :
    Agree now first second (loadState now first) (loadState now second) := by
  unfold Agree loadState
  rw [withLockedState_prune, withLockedState_prune]
  exact ⟨⟨same.pendingChallenge, same.attempts, same.sessions, trivial⟩, same.pruned⟩

variable {drawn : Except String (String × String)} {state : State}

theorem create_agrees {origin : Origin} {deviceLabel : String} (same : SameAt now first second) :
    Agree now first second (createChallenge prims now origin deviceLabel drawn first)
      (createChallenge prims now origin deviceLabel drawn second) := by
  simp only [Agree, createChallenge, same.attempts]
  split_ifs with isReached
  · exact ⟨trivial, same⟩
  · cases drawn with
    | error text => exact ⟨trivial, same⟩
    | ok pair => exact ⟨rfl, .of_fields now rfl rfl same.sessions⟩

variable (prims) in
theorem exchange_refused (challengeID otp deviceLabel : String)
    (drawn : Except String (String × String))
    (noChallenge : (pruneRemoteAuthState state now).1.pendingChallenge = none) :
    ∃ error, exchangeChallenge prims now challengeID otp deviceLabel drawn state =
      refuse state now error := by
  unfold exchangeChallenge
  cases isPending : state.pendingChallenge with
  | none => exact ⟨_, rfl⟩
  | some challenge =>
    have isEnded : ¬ now < challenge.expiresAt := by
      simpa [pruneRemoteAuthState, isPending, shouldPruneRemoteAuthChallenge] using noChallenge
    simp only [if_pos isEnded]
    split_ifs
    all_goals exact ⟨_, rfl⟩

theorem exchange_agrees {challengeID otp deviceLabel : String} (same : SameAt now first second)
    (firstDistinct : Distinct first) (secondDistinct : Distinct second) :
    Agree now first second (exchangeChallenge prims now challengeID otp deviceLabel drawn first)
      (exchangeChallenge prims now challengeID otp deviceLabel drawn second) := by
  cases isOpen : (pruneRemoteAuthState first now).1.pendingChallenge with
  | none =>
    obtain ⟨firstError, isFirst⟩ :=
      exchange_refused prims challengeID otp deviceLabel drawn isOpen
    obtain ⟨secondError, isSecond⟩ := exchange_refused prims challengeID otp
      deviceLabel drawn (same.pendingChallenge.symm.trans isOpen)
    rw [isFirst, isSecond]
    exact refuse_agrees same _ _
  | some challenge =>
    have isFirst : first.pendingChallenge = some challenge :=
      (Option.filter_eq_some_iff.mp isOpen).1
    have isSecond : second.pendingChallenge = some challenge :=
      (Option.filter_eq_some_iff.mp (same.pendingChallenge.symm.trans isOpen)).1
    simp only [exchangeChallenge, isFirst, isSecond]
    split_ifs
    · exact refuse_agrees same _ _
    · exact refuse_agrees same _ _
    · exact refuse_agrees same _ _
    · exact ⟨trivial, rfl, same.attempts, same.sessions⟩
    · cases drawn with
      | error text => exact ⟨trivial, same⟩
      | ok pair => exact ⟨rfl, rfl, same.attempts, same.upsert firstDistinct secondDistinct _⟩
    · exact refuse_agrees same _ _

theorem find_session (distinct : Distinct state) {session : Session}
    (isStored : session ∈ state.sessions) :
    state.sessions.find? (·.sessionID = session.sessionID) = some session := by
  cases isFound : state.sessions.find? (·.sessionID = session.sessionID) with
  | none => simpa using List.find?_eq_none.mp isFound session isStored
  | some found =>
    have sameID : found.sessionID = session.sessionID := by simpa using List.find?_some isFound
    exact congrArg some
      (List.inj_on_of_nodup_map distinct (List.mem_of_find?_eq_some isFound) isStored sameID)

variable (prims) in
theorem authenticate_refused {sessionID : String} (secret : String)
    (noSession : ∀ session ∈ (pruneRemoteAuthState state now).1.sessions,
      session.sessionID ≠ sessionID) :
    ∃ error, authenticateSession prims now sessionID secret state = refuse state now error := by
  unfold authenticateSession
  cases isFound : state.sessions.find? (·.sessionID = sessionID) with
  | none => exact ⟨_, rfl⟩
  | some session =>
    have isID : session.sessionID = sessionID := by simpa using List.find?_some isFound
    have isEnded : shouldPruneRemoteAuthSession session now = true := by
      by_contra notEnded
      refine noSession session (List.mem_filter.mpr ⟨List.mem_of_find?_eq_some isFound, ?_⟩) isID
      simpa using notEnded
    have ended : session.revokedAt.isSome = true ∨ ¬ now < session.expiresAt := by
      simpa [shouldPruneRemoteAuthSession] using isEnded
    rcases ended with isRevoked | isExpired
    · exact ⟨_, if_pos isRevoked⟩
    · simp only [if_pos isExpired]
      split_ifs
      all_goals exact ⟨_, rfl⟩

theorem authenticate_agrees {sessionID secret : String} (same : SameAt now first second)
    (firstDistinct : Distinct first) (secondDistinct : Distinct second) :
    Agree now first second (authenticateSession prims now sessionID secret first)
      (authenticateSession prims now sessionID secret second) := by
  by_cases isLive : ∃ session ∈ (pruneRemoteAuthState first now).1.sessions,
      session.sessionID = sessionID
  · obtain ⟨session, isStored, isID⟩ := isLive
    have isFirst := find_session firstDistinct (List.mem_filter.mp isStored).1
    have isSecond := find_session secondDistinct
      (List.mem_filter.mp (same.sessions.mem_iff.mp isStored)).1
    rw [isID] at isFirst isSecond
    simp only [authenticateSession, isFirst, isSecond]
    split_ifs
    · exact refuse_agrees same _ _
    · exact refuse_agrees same _ _
    · exact ⟨rfl, same.pendingChallenge, same.attempts, same.upsert firstDistinct secondDistinct _⟩
    · exact ⟨rfl, same.pendingChallenge, same.attempts, same.upsert firstDistinct secondDistinct _⟩
    · exact refuse_agrees same _ _
  · have noFirst : ∀ session ∈ (pruneRemoteAuthState first now).1.sessions,
        session.sessionID ≠ sessionID :=
      fun session isStored isID => isLive ⟨session, isStored, isID⟩
    obtain ⟨firstError, isFirst⟩ := authenticate_refused prims secret noFirst
    obtain ⟨secondError, isSecond⟩ := authenticate_refused prims secret
      fun session isStored => noFirst session (same.sessions.mem_iff.mpr isStored)
    rw [isFirst, isSecond]
    exact refuse_agrees same _ _

variable (prims) in
theorem call_agrees (call : Call) (same : SameAt call.now first second)
    (firstDistinct : Distinct first) (secondDistinct : Distinct second) :
    Agree call.now first second (call.locked prims first) (call.locked prims second) := by
  cases call with
  | load now => exact load_agrees same
  | create now origin deviceLabel drawn => exact create_agrees same
  | exchange now challengeID otp deviceLabel drawn =>
    exact exchange_agrees same firstDistinct secondDistinct
  | authenticate now sessionID secret => exact authenticate_agrees same firstDistinct secondDistinct

theorem answers_agree {calls : List Call} (same : SameAt now first second)
    (firstDistinct : Distinct first) (secondDistinct : Distinct second)
    (after : ∀ call ∈ calls, now ≤ call.now)
    (inOrder : (calls.map Call.now).Pairwise (· ≤ ·)) :
    List.Forall₂ (SameAnswer fun _ _ => True) (answers prims first calls)
      (answers prims second calls) := by
  induction calls generalizing now first second with
  | nil => exact .nil
  | cons call later ih =>
    rw [List.map_cons, List.pairwise_cons] at inOrder
    obtain ⟨isFirst, inOrder⟩ := inOrder
    obtain ⟨sameAnswer, sameAfter⟩ := call_agrees prims call
      (same.later (after call List.mem_cons_self)) firstDistinct secondDistinct
    exact .cons sameAnswer (ih sameAfter ((moves call).distinct firstDistinct)
      ((moves call).distinct secondDistinct)
      (fun other isOther => isFirst _ (List.mem_map_of_mem isOther)) inOrder)

end

/-- **The remote login is safe over whole runs**, and an earlier prune shows in later answers only
in the errors, in the stamp of a state and in the order of its sessions. -/
theorem remoteLogin : RemoteLogin fun _ _ => True := by
  intro prims start sys distinct run
  have sound := run_sound distinct run
  refine ⟨sound.safe, fun now calls after inOrder => ?_⟩
  exact answers_agree (.prune sys.state (Int.le_refl now)) sound.distinct
    (prune_distinct sound.distinct now) after inOrder

/-- Digests that can be read, and texts that stay as they are. -/
def plainPrimitives : Primitives where
  hashRemoteAuthValue := ("#" ++ ·)
  hash_ne := by
    intro raw isEmpty
    simpa using congrArg String.length isEmpty
  toLower := id
  splitHostPort := fun _ => none
  clip := id

/-- A challenge that ends at 120 seconds. -/
def challengeAtZero : Call := .create 0 ⟨"", "", "", "", ""⟩ "phone" (.ok ("c1", "123456"))

/-- A prune at 200 seconds shows in the stamp of the state that is loaded at 300 seconds. -/
theorem not_remoteLogin : ¬ RemoteLogin (· = ·) := by
  intro login
  have run : Run (step plainPrimitives) InOrder (.initial .empty)
      ⟨(challengeAtZero.run plainPrimitives .empty).1,
        [⟨challengeAtZero, (challengeAtZero.run plainPrimitives .empty).2⟩]⟩ :=
    .tail challengeAtZero .refl (List.forall_mem_nil _) rfl
  have hidden := (login plainPrimitives .empty _ List.nodup_nil run).2 (200 * second)
    [.load (300 * second)] (by decide) (by decide)
  cases hidden with
  | cons same _ =>
    have stamps : (some (300 * second) : Option Int) = some (200 * second) := same.2.2.2
    exact absurd stamps (by decide)

end AiTools.Whip.RemoteAuth
