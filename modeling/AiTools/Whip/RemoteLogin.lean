import AiTools.Lib.Log
import AiTools.Lib.Transition
import AiTools.Whip.RemoteAuth

/-!
Contract: the remote login over whole runs of calls with times that do not decrease.

Digests of different texts may collide.
-/

namespace AiTools.Whip.RemoteAuth

open AiTools.Lib.Transition AiTools.Lib.Log

structure Event where
  call : Call
  answer : Answer

structure System where
  state : State
  log : List Event

def System.initial (state : State) : System := ⟨state, []⟩

def step (prims : Primitives) (sys : System) (call : Call) : Option System :=
  let (state, answer) := call.run prims sys.state
  some ⟨state, sys.log ++ [⟨call, answer⟩]⟩

/-- The clock does not go back. -/
def InOrder (sys : System) (call : Call) : Prop :=
  ∀ event ∈ sys.log, event.call.now ≤ call.now

/-- No two sessions have one id. -/
def Distinct (state : State) : Prop := (state.sessions.map Session.sessionID).Nodup

/-- The challenge was issued, or stood there at the start; `since` is what followed. -/
inductive Issued (start : State) : List Event → Challenge → List Event → Prop where
  | stored {log : List Event} {record : Challenge} (isPending : start.pendingChallenge = some record) :
      Issued start log record log
  | created {earlier since : List Event} {event : Event} {record : Challenge} {otp : String}
      (isAnswer : event.answer = .challenge record otp) :
      Issued start (earlier ++ event :: since) record since

/-- The session was granted, or stood there at the start; `since` is what followed. -/
inductive Granted (start : State) : List Event → Session → List Event → Prop where
  | stored {log : List Event} {record : Session} (isStored : record ∈ start.sessions) :
      Granted start log record log
  | exchanged {earlier since : List Event} {event : Event} {record : Session} {secret : String}
      (isAnswer : event.answer = .session record secret) :
      Granted start (earlier ++ event :: since) record since

/-- A newer challenge, a session or a wrong guess. -/
def Answer.endsChallenge : Answer → Bool
  | .challenge _ _ => true
  | .session _ _ => true
  | .error .invalidOTP => true
  | _ => false

/-- A session of that id in place of an older one. -/
def Answer.replaces (id : String) : Answer → Bool
  | .session record _ => record.sessionID = id
  | _ => false

/-- The expiry of a session slides when it authenticates. -/
def expiryAfter (id : String) (expiry : Int) (event : Event) : Int :=
  match event.answer with
  | .authenticated record => if record.sessionID = id then record.expiresAt else expiry
  | _ => expiry

/-- The session has not expired at any of the calls. -/
def LiveThroughout (id : String) : Int → List Event → Prop
  | _, [] => True
  | expiry, event :: later =>
    event.call.now < expiry ∧ LiveThroughout id (expiryAfter id expiry event) later

section
variable (prims : Primitives)

structure EntrySafe (start : State) (before : List Event) (event : Event) : Prop where
  /-- A challenge is given out fresh, with the digest of its own OTP. -/
  challenge : ∀ record otp, event.answer = .challenge record otp →
    record.otpHash = prims.hashRemoteAuthValue otp ∧
      record.expiresAt = event.call.now + remoteAuthChallengeTTL ∧
        record.used = false ∧ record.failed = false
  /-- A session takes the id and the OTP of a challenge that has not expired, and since which there
  was no newer one, no wrong guess and no session. -/
  session : ∀ record secret, event.answer = .session record secret →
    record.sessionSecretHash = prims.hashRemoteAuthValue secret ∧ record.revokedAt = none ∧
      ∃ now challengeID otp deviceLabel drawn challenge since,
        event.call = .exchange now challengeID otp deviceLabel drawn ∧
          Issued start before challenge since ∧ challenge.challengeID = challengeID ∧
            challenge.otpHash = prims.hashRemoteAuthValue (trimSpace otp) ∧
              challenge.used = false ∧ challenge.failed = false ∧ now < challenge.expiresAt ∧
                ∀ other ∈ since, other.answer.endsChallenge = false
  /-- An authentication takes the secret of a session that was not replaced, is not revoked, and
  has not expired at any call since it was granted. -/
  authenticated : ∀ record, event.answer = .authenticated record →
    ∃ now sessionID secret session since,
      event.call = .authenticate now sessionID secret ∧ Granted start before session since ∧
        session.sessionID = sessionID ∧
          session.sessionSecretHash = prims.hashRemoteAuthValue (trimSpace secret) ∧
            session.revokedAt = none ∧ (∀ other ∈ since, other.answer.replaces sessionID = false) ∧
                LiveThroughout sessionID session.expiresAt (since ++ [event])

/-- A challenge for a device of that fingerprint is given out. -/
def Event.issues (fingerprint : String) (event : Event) : Bool :=
  match event.call, event.answer with
  | .create _ origin deviceLabel _, .challenge _ _ =>
    remoteAuthAttemptFingerprint prims deviceLabel origin = fingerprint
  | _, _ => false

def RateLimited (log : List Event) : Prop :=
  ∀ fingerprint opens,
    (log.countP fun event => event.issues prims fingerprint ∧ opens ≤ event.call.now ∧
      event.call.now ≤ opens + remoteAuthAttemptWindow) ≤ remoteAuthAttemptLimit

structure Safe (start : State) (log : List Event) : Prop where
  entries : Everywhere (EntrySafe prims start) log
  limited : RateLimited prims log

/-! ## What a call can do -/

/-- What a call makes of the state, and its answer. -/
inductive Moves (state : State) : Call → State → Answer → Prop where
  | quiet {call : Call} {next : State} {answer : Answer}
      (isNext : next = state ∨ next = (pruneRemoteAuthState state call.now).1)
      (keepsChallenge : answer.endsChallenge = false)
      (grantsNothing : ∀ record, answer ≠ .authenticated record) : Moves state call next answer
  | created {now : Int} {origin : Origin} {deviceLabel challengeID otp : String}
      (isBelow : countRecentRemoteAuthAttempts (pruneRemoteAuthState state now).1.attempts
        (remoteAuthAttemptFingerprint prims deviceLabel origin) now < remoteAuthAttemptLimit) :
      Moves state (.create now origin deviceLabel (.ok (challengeID, otp)))
        { (pruneRemoteAuthState state now).1 with
          pendingChallenge :=
            some (newRemoteAuthChallenge prims now origin deviceLabel challengeID otp)
          attempts := (pruneRemoteAuthState state now).1.attempts ++
            [⟨remoteAuthAttemptFingerprint prims deviceLabel origin, now⟩]
          updatedAt := some now }
        (.challenge (newRemoteAuthChallenge prims now origin deviceLabel challengeID otp) otp)
  | guessed {now : Int} {otp deviceLabel : String} {drawn : Except String (String × String)}
      {challenge : Challenge} :
      Moves state (.exchange now challenge.challengeID otp deviceLabel drawn)
        { state with
          pendingChallenge := some { challenge with failed := true, failedAt := some now }
          updatedAt := some now }
        (.error .invalidOTP)
  | exchanged {now : Int} {otp deviceLabel sessionID secret label : String}
      {challenge : Challenge} (isPending : state.pendingChallenge = some challenge)
      (isUnused : challenge.used = false) (isUnfailed : challenge.failed = false)
      (isLive : now < challenge.expiresAt)
      (isOTP : challenge.otpHash = prims.hashRemoteAuthValue (trimSpace otp)) :
      Moves state (.exchange now challenge.challengeID otp deviceLabel (.ok (sessionID, secret)))
        { state with
          pendingChallenge := some { challenge with used := true, usedAt := some now }
          sessions := upsertRemoteAuthSession
            (newRemoteAuthSession prims now challenge.origin label sessionID secret) state.sessions
          updatedAt := some now }
        (.session (newRemoteAuthSession prims now challenge.origin label sessionID secret) secret)
  | authenticated {now : Int} {secret : String} {session seen : Session}
      (isStored : session ∈ state.sessions) (isUnrevoked : session.revokedAt = none)
      (isLive : now < session.expiresAt)
      (isSecret : session.sessionSecretHash = prims.hashRemoteAuthValue (trimSpace secret))
      (isSeen : seen = { session with lastSeenAt := now, expiresAt := seen.expiresAt })
      (staysLive : now < seen.expiresAt) :
      Moves state (.authenticate now session.sessionID secret)
        { state with
          sessions := upsertRemoteAuthSession seen state.sessions
          updatedAt := some now }
        (.authenticated seen)

variable {prims} {state : State}
variable {now : Int} {sessions : List Session} {last : Event} {stored : Session} {sys : System}
  {fingerprint : String}

theorem prune_unchanged (unchanged : (pruneRemoteAuthState state now).2 = false) :
    (pruneRemoteAuthState state now).1 = state := by
  simp only [pruneRemoteAuthState, Bool.or_eq_false_iff] at unchanged
  obtain ⟨⟨noChallenge, noSession⟩, noAttempt⟩ := unchanged
  have challenge : state.pendingChallenge.filter (!shouldPruneRemoteAuthChallenge · now) =
      state.pendingChallenge := by
    cases isPending : state.pendingChallenge with
    | none => rfl
    | some challenge =>
      rw [isPending] at noChallenge
      simpa using noChallenge
  have sessions : state.sessions.filter (!shouldPruneRemoteAuthSession · now) = state.sessions := by
    simpa using noSession
  have attempts : state.attempts.filter (!outsideWindow · now) = state.attempts := by
    simpa using noAttempt
  unfold pruneRemoteAuthState
  rw [noChallenge, noSession, noAttempt, challenge, sessions, attempts]
  rfl

theorem withLockedState_prune (now : Int) (answer : Answer) :
    withLockedState (fun _ => ((pruneRemoteAuthState state now).1,
      (pruneRemoteAuthState state now).2, answer)) state =
        ((pruneRemoteAuthState state now).1, answer) := by
  unfold withLockedState
  cases changed : (pruneRemoteAuthState state now).2 with
  | true => rfl
  | false => simp only [prune_unchanged changed]

theorem Moves.refused {call : Call} {error : AuthError} {locked : Locked}
    (isLocked : refuse state call.now error = locked) (notGuess : error ≠ .invalidOTP) :
    Moves prims state call (withLockedState (fun _ => locked) state).1
      (withLockedState (fun _ => locked) state).2 := by
  rw [← isLocked, refuse, withLockedState_prune]
  refine .quiet (Or.inr rfl) ?_ fun _ => Answer.noConfusion
  cases error with
  | invalidOTP => exact absurd rfl notGuess
  | _ => rfl

theorem moves (call : Call) :
    Moves prims state call (call.run prims state).1 (call.run prims state).2 := by
  have isRun : call.run prims state =
      withLockedState (fun _ => call.locked prims state) state := rfl
  rw [isRun]
  generalize isLocked : call.locked prims state = locked
  cases call with
  | load now =>
    cases isLocked
    rw [Call.locked, loadState, withLockedState_prune]
    exact .quiet (Or.inr rfl) rfl fun _ => Answer.noConfusion
  | create now origin deviceLabel drawn =>
    simp only [Call.locked, createChallenge] at isLocked
    split_ifs at isLocked with isReached
    · cases isLocked
      exact .quiet (Or.inl rfl) rfl fun _ => Answer.noConfusion
    · cases drawn with
      | error text =>
        cases isLocked
        exact .quiet (Or.inl rfl) rfl fun _ => Answer.noConfusion
      | ok pair =>
        cases isLocked
        exact .created (not_le.mp isReached)
  | exchange now challengeID otp deviceLabel drawn =>
    simp only [Call.locked, exchangeChallenge] at isLocked
    cases isPending : state.pendingChallenge with
    | none =>
      simp only [isPending] at isLocked
      exact .refused isLocked nofun
    | some challenge =>
      simp only [isPending] at isLocked
      split_ifs at isLocked with notID isUsed isFailed isLive notOTP
      · exact .refused isLocked nofun
      · exact .refused isLocked nofun
      · exact .refused isLocked nofun
      · cases isLocked
        cases not_not.mp notID
        exact .guessed
      · cases drawn with
        | error text =>
          cases isLocked
          exact .quiet (Or.inl rfl) rfl fun _ => Answer.noConfusion
        | ok pair =>
          cases isLocked
          cases not_not.mp notID
          exact .exchanged isPending (Bool.eq_false_iff.mpr isUsed)
            (Bool.eq_false_iff.mpr isFailed) isLive (not_not.mp notOTP)
      · exact .refused isLocked nofun
  | authenticate now sessionID secret =>
    simp only [Call.locked, authenticateSession] at isLocked
    cases isFound : state.sessions.find? (·.sessionID = sessionID) with
    | none =>
      simp only [isFound] at isLocked
      exact .refused isLocked nofun
    | some session =>
      simp only [isFound] at isLocked
      have isID : session.sessionID = sessionID := by
        simpa using List.find?_some isFound
      cases isID
      have isStored := List.mem_of_find?_eq_some isFound
      split_ifs at isLocked with isRevoked isLive notSecret isShort
      · exact .refused isLocked nofun
      · exact .refused isLocked nofun
      · cases isLocked
        exact .authenticated isStored (by simpa using isRevoked) isLive (not_not.mp notSecret)
          rfl (Int.lt_add_of_pos_right now (by decide))
      · cases isLocked
        exact .authenticated isStored (by simpa using isRevoked) isLive (not_not.mp notSecret)
          rfl isLive
      · exact .refused isLocked nofun

theorem upsert_perm (session : Session) (distinct : (sessions.map Session.sessionID).Nodup) :
    (upsertRemoteAuthSession session sessions).Perm
      (session :: sessions.filter (·.sessionID ≠ session.sessionID)) := by
  induction sessions with
  | nil => exact .refl _
  | cons first rest ih =>
    obtain ⟨isFirst, later⟩ := List.nodup_cons.mp distinct
    rw [upsertRemoteAuthSession]
    split_ifs with same
    · have others : rest.filter (·.sessionID ≠ session.sessionID) = rest := by
        refine List.filter_eq_self.mpr fun other isOther => ?_
        have isID : other.sessionID ∈ rest.map Session.sessionID := List.mem_map_of_mem isOther
        rw [decide_eq_true_eq, ← same]
        exact fun isSame => isFirst (isSame ▸ isID)
      rw [List.filter_cons_of_neg (by simpa using same), others]
    · rw [List.filter_cons_of_pos (by simpa using same)]
      exact ((ih later).cons first).trans (.swap _ _ _)

theorem mem_upsert {session other : Session} (distinct : (sessions.map Session.sessionID).Nodup) :
    other ∈ upsertRemoteAuthSession session sessions ↔
      other = session ∨ (other ∈ sessions ∧ other.sessionID ≠ session.sessionID) := by
  rw [(upsert_perm session distinct).mem_iff, List.mem_cons, List.mem_filter]
  simp

theorem upsert_distinct (session : Session) (distinct : (sessions.map Session.sessionID).Nodup) :
    ((upsertRemoteAuthSession session sessions).map Session.sessionID).Nodup := by
  rw [((upsert_perm session distinct).map _).nodup_iff, List.map_cons, List.nodup_cons]
  constructor
  · intro member
    obtain ⟨other, isOther, same⟩ := List.mem_map.mp member
    simpa [same] using (List.mem_filter.mp isOther).2
  · exact distinct.sublist (List.filter_sublist.map _)

theorem prune_distinct (distinct : Distinct state) (now : Int) :
    Distinct (pruneRemoteAuthState state now).1 :=
  distinct.sublist (List.filter_sublist.map _)

theorem Moves.distinct {call : Call} {next : State} {answer : Answer} (distinct : Distinct state)
    (moves : Moves prims state call next answer) : Distinct next := by
  cases moves with
  | quiet isNext =>
    rcases isNext with isSame | isPruned
    · rw [isSame]
      exact distinct
    · rw [isPruned]
      exact prune_distinct distinct _
  | created => exact prune_distinct distinct _
  | guessed => exact distinct
  | exchanged | authenticated => exact upsert_distinct _ distinct

variable {start : State} {log since : List Event}

theorem Issued.concat {record : Challenge} (issued : Issued start log record since) (last : Event) :
    Issued start (log ++ [last]) record (since ++ [last]) := by
  cases issued with
  | stored isPending => exact .stored isPending
  | created isAnswer =>
    rw [List.append_assoc, List.cons_append]
    exact .created isAnswer

theorem Granted.concat {record : Session} (granted : Granted start log record since) (last : Event) :
    Granted start (log ++ [last]) record (since ++ [last]) := by
  cases granted with
  | stored isStored => exact .stored isStored
  | exchanged isAnswer =>
    rw [List.append_assoc, List.cons_append]
    exact .exchanged isAnswer

theorem liveThroughout_concat {id : String} {expiry : Int} :
    LiveThroughout id expiry (since ++ [last]) ↔
      LiveThroughout id expiry since ∧ last.call.now < since.foldl (expiryAfter id) expiry := by
  induction since generalizing expiry with
  | nil => simp [LiveThroughout]
  | cons event later ih =>
    rw [List.cons_append, LiveThroughout, LiveThroughout, List.foldl_cons, ih, and_assoc]

/-- The session was granted, or stood there at the start, and only its expiry has changed since. -/
def Follows (start : State) (log : List Event) (stored : Session) : Prop :=
  ∃ first since, Granted start log first since ∧ first.sessionID = stored.sessionID ∧
    first.sessionSecretHash = stored.sessionSecretHash ∧ first.revokedAt = stored.revokedAt ∧
      (∀ other ∈ since, other.answer.replaces stored.sessionID = false) ∧
        since.foldl (expiryAfter stored.sessionID) first.expiresAt = stored.expiresAt ∧
          -- It has expired at some call, or at none since it was granted.
          ((∃ event ∈ log, stored.expiresAt ≤ event.call.now) ∨
            LiveThroughout stored.sessionID first.expiresAt since)

theorem Follows.concat (follows : Follows start log stored)
    (stays : last.answer.replaces stored.sessionID = false)
    (sameExpiry : expiryAfter stored.sessionID stored.expiresAt last = stored.expiresAt) :
    Follows start (log ++ [last]) stored := by
  obtain ⟨first, since, granted, isID, isHash, isRevoked, isSame, isExpiry, live⟩ := follows
  refine ⟨first, since ++ [last], granted.concat last, isID, isHash, isRevoked, ?_, ?_, ?_⟩
  · intro other isOther
    rcases List.mem_append.mp isOther with before | isLast
    · exact isSame other before
    · rw [List.mem_singleton.mp isLast]
      exact stays
  · rw [List.foldl_append, isExpiry]
    exact sameExpiry
  · by_cases notExpired : last.call.now < stored.expiresAt
    · refine live.imp ?_ ?_
      · rintro ⟨event, isEvent, expired⟩
        exact ⟨event, List.mem_append_left _ isEvent, expired⟩
      · intro liveBefore
        exact liveThroughout_concat.mpr ⟨liveBefore, isExpiry ▸ notExpired⟩
    · exact .inl ⟨last, List.mem_append_right _ List.mem_cons_self, Int.not_lt.mp notExpired⟩

theorem Follows.live (follows : Follows start log stored)
    (inOrder : ∀ event ∈ log, event.call.now ≤ now) (notExpired : now < stored.expiresAt) :
    ∃ first since, Granted start log first since ∧ first.sessionID = stored.sessionID ∧
      first.sessionSecretHash = stored.sessionSecretHash ∧ first.revokedAt = stored.revokedAt ∧
        (∀ other ∈ since, other.answer.replaces stored.sessionID = false) ∧
          since.foldl (expiryAfter stored.sessionID) first.expiresAt = stored.expiresAt ∧
            LiveThroughout stored.sessionID first.expiresAt since := by
  obtain ⟨first, since, granted, isID, isHash, isRevoked, isSame, isExpiry, live⟩ := follows
  refine ⟨first, since, granted, isID, isHash, isRevoked, isSame, isExpiry, live.resolve_left ?_⟩
  rintro ⟨event, isEvent, expired⟩
  have inTime := inOrder event isEvent
  omega

variable (prims) in
structure Sound (start : State) (sys : System) : Prop where
  distinct : Distinct sys.state
  /-- A challenge that can be taken is the last one that was issued. -/
  pending : ∀ challenge, sys.state.pendingChallenge = some challenge →
    challenge.used = false → challenge.failed = false →
      ∃ since, Issued start sys.log challenge since ∧
        ∀ other ∈ since, other.answer.endsChallenge = false
  granted : ∀ stored ∈ sys.state.sessions, Follows start sys.log stored
  /-- No attempt of the window is forgotten. -/
  counted : ∀ fingerprint now, (∀ event ∈ sys.log, event.call.now ≤ now) →
    (sys.log.countP fun event => event.issues prims fingerprint ∧
      now - remoteAuthAttemptWindow ≤ event.call.now) ≤
        countRecentRemoteAuthAttempts sys.state.attempts fingerprint now
  safe : Safe prims start sys.log

theorem initial_sound (distinct : Distinct start) : Sound prims start (.initial start) where
  distinct := distinct
  pending := fun _ isPending _ _ => ⟨[], .stored isPending, List.forall_mem_nil _⟩
  granted := fun stored isStored =>
    ⟨stored, [], .stored isStored, rfl, rfl, rfl, List.forall_mem_nil _, rfl, .inr trivial⟩
  counted := by
    intro fingerprint now _
    rw [System.initial, List.countP_nil]
    exact Nat.zero_le _
  safe := by
    refine ⟨everywhere_nil, fun fingerprint opens => ?_⟩
    rw [System.initial, List.countP_nil]
    exact Nat.zero_le _

variable {call : Call} {next : State} {answer : Answer}

theorem Sound.pending_step (sound : Sound prims start sys)
    (moves : Moves prims sys.state call next answer) {challenge : Challenge}
    (isPending : next.pendingChallenge = some challenge) (unused : challenge.used = false)
    (unfailed : challenge.failed = false) :
    ∃ since, Issued start (sys.log ++ [⟨call, answer⟩]) challenge since ∧
      ∀ other ∈ since, other.answer.endsChallenge = false := by
  have stays : sys.state.pendingChallenge = some challenge → answer.endsChallenge = false →
      ∃ since, Issued start (sys.log ++ [⟨call, answer⟩]) challenge since ∧
        ∀ other ∈ since, other.answer.endsChallenge = false := by
    intro wasPending keeps
    obtain ⟨since, issued, quiet⟩ := sound.pending challenge wasPending unused unfailed
    refine ⟨since ++ [⟨call, answer⟩], issued.concat _, fun other isOther => ?_⟩
    rcases List.mem_append.mp isOther with before | isLast
    · exact quiet other before
    · rw [List.mem_singleton.mp isLast]
      exact keeps
  cases moves with
  | quiet isNext keepsChallenge =>
    refine stays ?_ keepsChallenge
    rcases isNext with isSame | isPruned
    · rw [← isSame]
      exact isPending
    · rw [isPruned] at isPending
      exact (Option.filter_eq_some_iff.mp isPending).1
  | created =>
    cases isPending
    exact ⟨[], .created rfl, List.forall_mem_nil _⟩
  | guessed =>
    cases isPending
    cases unfailed
  | exchanged =>
    cases isPending
    cases unused
  | authenticated => exact stays isPending rfl

theorem Sound.granted_step (sound : Sound prims start sys) (inOrder : InOrder sys call)
    (moves : Moves prims sys.state call next answer) (isStored : stored ∈ next.sessions) :
    Follows start (sys.log ++ [⟨call, answer⟩]) stored := by
  cases moves with
  | quiet isNext keepsChallenge grantsNothing =>
    have wasStored : stored ∈ sys.state.sessions := by
      rcases isNext with isSame | isPruned
      · exact isSame ▸ isStored
      · rw [isPruned] at isStored
        exact (List.mem_filter.mp isStored).1
    refine (sound.granted stored wasStored).concat ?_ ?_
    · cases answer with
      | session record secret => cases keepsChallenge
      | _ => rfl
    · cases answer with
      | authenticated record => exact absurd rfl (grantsNothing record)
      | _ => rfl
  | created =>
    have wasStored := (List.mem_filter.mp isStored).1
    exact (sound.granted stored wasStored).concat rfl rfl
  | guessed => exact (sound.granted stored isStored).concat rfl rfl
  | exchanged =>
    rcases (mem_upsert sound.distinct).mp isStored with isNew | ⟨wasStored, isOther⟩
    · rw [isNew]
      exact ⟨_, [], .exchanged rfl, rfl, rfl, rfl, List.forall_mem_nil _, rfl, .inr trivial⟩
    · exact (sound.granted stored wasStored).concat (by simpa [Answer.replaces] using isOther.symm) rfl
  | authenticated wasStored isUnrevoked isLive isSecret isSeen =>
    rcases (mem_upsert sound.distinct).mp isStored with isNew | ⟨wasStored, isOther⟩
    · obtain ⟨first, since, granted, isID, isHash, isRevoked, isSame, isExpiry, live⟩ :=
        (sound.granted _ wasStored).live inOrder isLive
      have sameID := congrArg Session.sessionID isSeen
      rw [isNew]
      refine ⟨first, since ++ [_], granted.concat _, isID.trans sameID.symm, ?_, ?_, ?_, ?_, ?_⟩
      · exact isHash.trans (congrArg Session.sessionSecretHash isSeen).symm
      · exact isRevoked.trans (congrArg Session.revokedAt isSeen).symm
      · rw [sameID]
        intro other isOther
        rcases List.mem_append.mp isOther with before | isLast
        · exact isSame other before
        · rw [List.mem_singleton.mp isLast]
          rfl
      · rw [List.foldl_append]
        exact if_pos rfl
      · rw [sameID]
        exact .inr (liveThroughout_concat.mpr ⟨live, isExpiry ▸ isLive⟩)
    · refine (sound.granted stored wasStored).concat rfl ?_
      simp only [expiryAfter]
      exact if_neg isOther.symm

/-! ## The attempts -/

theorem countRecent_prune {later : Int} (inOrder : now ≤ later) :
    countRecentRemoteAuthAttempts (pruneRemoteAuthState state now).1.attempts fingerprint later =
      countRecentRemoteAuthAttempts state.attempts fingerprint later := by
  unfold countRecentRemoteAuthAttempts pruneRemoteAuthState
  split_ifs with isEmpty
  · rfl
  · rw [List.countP_filter]
    refine List.countP_congr fun attempt _ => ?_
    simp only [outsideWindow, Bool.and_eq_true, decide_eq_true_eq, Bool.not_eq_true',
      decide_eq_false_iff_not]
    constructor
    · exact fun both => both.1
    · intro recent
      refine ⟨recent, ?_⟩
      have inWindow := recent.2
      omega

theorem issues_empty (event : Event) : event.issues prims "" = false := by
  unfold Event.issues
  split
  · exact decide_eq_false (prims.hash_ne _)
  · rfl

theorem not_issues {event : Event}
    (noChallenge : ∀ record otp, event.answer ≠ .challenge record otp) :
    event.issues prims fingerprint = false := by
  unfold Event.issues
  split
  · rename_i isChallenge
    exact absurd isChallenge (noChallenge _ _)
  · rfl

theorem not_challenge (keepsChallenge : answer.endsChallenge = false) :
    ∀ record otp, answer ≠ .challenge record otp := by
  intro record otp isChallenge
  rw [isChallenge] at keepsChallenge
  cases keepsChallenge

/-- A challenge is given out below the limit; every other call leaves the attempts of the window. -/
theorem Moves.attempts (moves : Moves prims state call next answer) :
    (∃ now origin deviceLabel drawn record otp, call = .create now origin deviceLabel drawn ∧
      answer = .challenge record otp ∧ countRecentRemoteAuthAttempts state.attempts
          (remoteAuthAttemptFingerprint prims deviceLabel origin) now < remoteAuthAttemptLimit ∧
            next.attempts = (pruneRemoteAuthState state now).1.attempts ++
              [⟨remoteAuthAttemptFingerprint prims deviceLabel origin, now⟩]) ∨
      ((∀ fingerprint, Event.issues prims fingerprint ⟨call, answer⟩ = false) ∧
        (next.attempts = state.attempts ∨
          next.attempts = (pruneRemoteAuthState state call.now).1.attempts)) := by
  cases moves with
  | quiet isNext keepsChallenge =>
    refine .inr ⟨fun _ => not_issues (not_challenge keepsChallenge), ?_⟩
    exact isNext.imp (congrArg State.attempts) (congrArg State.attempts)
  | created isBelow =>
    rw [countRecent_prune (Int.le_refl _)] at isBelow
    exact .inl ⟨_, _, _, _, _, _, rfl, rfl, isBelow, rfl⟩
  | guessed | exchanged | authenticated => exact .inr ⟨fun _ => rfl, .inl rfl⟩

theorem Sound.counted_step (sound : Sound prims start sys)
    (moves : Moves prims sys.state call next answer) {later : Int}
    (inOrder : ∀ event ∈ sys.log ++ [(⟨call, answer⟩ : Event)], event.call.now ≤ later) :
    ((sys.log ++ [(⟨call, answer⟩ : Event)]).countP fun event =>
      event.issues prims fingerprint ∧ later - remoteAuthAttemptWindow ≤ event.call.now) ≤
        countRecentRemoteAuthAttempts next.attempts fingerprint later := by
  have before := sound.counted fingerprint later
    fun event isEvent => inOrder event (List.mem_append_left _ isEvent)
  have inTime : call.now ≤ later :=
    inOrder ⟨call, answer⟩ (List.mem_append_right _ List.mem_cons_self)
  rcases moves.attempts with
    ⟨now, origin, deviceLabel, drawn, record, otp, isCall, isAnswer, _, attempts⟩ |
      ⟨issuesNothing, attempts⟩
  · by_cases isEmpty : fingerprint = ""
    · rw [List.countP_eq_zero.mpr]
      · exact Nat.zero_le _
      · intro event _
        simp [isEmpty, issues_empty]
    · rw [isCall] at inTime
      rw [← countRecent_prune inTime] at before
      rw [attempts, List.countP_append]
      simp only [countRecentRemoteAuthAttempts, if_neg isEmpty, List.countP_append] at before ⊢
      refine Nat.add_le_add before (le_of_eq ?_)
      rw [isCall, isAnswer, List.countP_singleton, List.countP_singleton]
      simp [Event.issues, outsideWindow, Call.now]
  · have same : countRecentRemoteAuthAttempts next.attempts fingerprint later =
        countRecentRemoteAuthAttempts sys.state.attempts fingerprint later := by
      rcases attempts with isSame | isPruned
      · rw [isSame]
      · rw [isPruned, countRecent_prune inTime]
    rw [same, List.countP_append, List.countP_singleton, issuesNothing]
    simpa using before

theorem Sound.limited_step (sound : Sound prims start sys) (inOrder : InOrder sys call)
    (moves : Moves prims sys.state call next answer) :
    RateLimited prims (sys.log ++ [⟨call, answer⟩]) := by
  intro fingerprint opens
  have before := sound.safe.limited fingerprint opens
  rw [List.countP_append, List.countP_singleton]
  split_ifs with inWindow
  · obtain ⟨issues, afterOpens, beforeCloses⟩ := of_decide_eq_true inWindow
    rcases moves.attempts with
      ⟨now, origin, deviceLabel, drawn, record, otp, isCall, isAnswer, isBelow, _⟩ |
        ⟨issuesNothing, _⟩
    · have isFingerprint : remoteAuthAttemptFingerprint prims deviceLabel origin = fingerprint := by
        rw [isCall, isAnswer] at issues
        exact of_decide_eq_true issues
      rw [isCall] at inOrder beforeCloses
      rw [isFingerprint] at isBelow
      -- What was issued since the window opened was issued in the window that ends now.
      have inside := calc
        sys.log.countP (fun event => event.issues prims fingerprint ∧ opens ≤ event.call.now ∧
            event.call.now ≤ opens + remoteAuthAttemptWindow)
          ≤ sys.log.countP fun event => event.issues prims fingerprint ∧
              now - remoteAuthAttemptWindow ≤ event.call.now := by
            refine List.countP_mono_left fun event _ counted => ?_
            obtain ⟨isIssue, isAfter, _⟩ := of_decide_eq_true counted
            simp only [Call.now] at beforeCloses
            exact decide_eq_true ⟨isIssue, by omega⟩
        _ ≤ countRecentRemoteAuthAttempts sys.state.attempts fingerprint now :=
            sound.counted fingerprint now inOrder
      exact Nat.lt_of_le_of_lt inside isBelow
    · simp [issuesNothing] at issues
  · exact before

theorem Sound.entry_step (sound : Sound prims start sys) (inOrder : InOrder sys call)
    (moves : Moves prims sys.state call next answer) :
    EntrySafe prims start sys.log ⟨call, answer⟩ := by
  cases moves with
  | quiet isNext keepsChallenge grantsNothing =>
    refine ⟨?_, ?_, ?_⟩
    · exact fun record otp isAnswer => absurd isAnswer (not_challenge keepsChallenge record otp)
    · intro record secret isAnswer
      rw [show answer = .session record secret from isAnswer] at keepsChallenge
      cases keepsChallenge
    · exact fun record isAnswer => absurd isAnswer (grantsNothing record)
  | created =>
    refine ⟨?_, fun _ _ => Answer.noConfusion, fun _ => Answer.noConfusion⟩
    intro record otp isAnswer
    cases isAnswer
    exact ⟨rfl, rfl, rfl, rfl⟩
  | guessed => exact ⟨fun _ _ => Answer.noConfusion, fun _ _ => Answer.noConfusion,
        fun _ => Answer.noConfusion⟩
  | exchanged isPending isUnused isUnfailed isLive isOTP =>
    refine ⟨fun _ _ => Answer.noConfusion, ?_, fun _ => Answer.noConfusion⟩
    intro record secret isAnswer
    cases isAnswer
    obtain ⟨since, issued, quiet⟩ := sound.pending _ isPending isUnused isUnfailed
    exact ⟨rfl, rfl, _, _, _, _, _, _, since, rfl, issued, rfl, isOTP, isUnused, isUnfailed,
      isLive, quiet⟩
  | authenticated isStored isUnrevoked isLive isSecret isSeen =>
    refine ⟨fun _ _ => Answer.noConfusion, fun _ _ => Answer.noConfusion, ?_⟩
    intro record isAnswer
    obtain ⟨first, since, granted, isID, isHash, isRevoked, isSame, isExpiry, live⟩ :=
      (sound.granted _ isStored).live inOrder isLive
    exact ⟨_, _, _, first, since, rfl, granted, isID, isHash.trans isSecret,
      isRevoked.trans isUnrevoked, isSame, liveThroughout_concat.mpr ⟨live, isExpiry ▸ isLive⟩⟩

theorem step_sound {after : System} (sound : Sound prims start sys)
    (inOrder : InOrder sys call) (ran : step prims sys call = some after) :
    Sound prims start after := by
  cases ran
  have moved : Moves prims sys.state call _ _ := moves call
  exact {
    distinct := moved.distinct sound.distinct
    pending := fun _ isPending unused unfailed =>
      sound.pending_step moved isPending unused unfailed
    granted := fun _ isStored => sound.granted_step inOrder moved isStored
    counted := fun _ _ ordered => sound.counted_step moved ordered
    safe := ⟨sound.safe.entries.concat (sound.entry_step inOrder moved),
      sound.limited_step inOrder moved⟩ }

theorem run_sound (distinct : Distinct start)
    (run : Run (step prims) InOrder (.initial start) sys) : Sound prims start sys :=
  run.invariant (initial_sound distinct)
    fun _ _ _ sound inOrder ran => step_sound sound inOrder ran

end

end AiTools.Whip.RemoteAuth
