import AiTools.Whip.Task

/-!
Contract: the store of the remote device login, one file behind one lock.

The file and its lock can be written and taken. Times are nanoseconds, and what `crypto/rand`
yields is given with the call. The digest, the lower case of a text, the split of an address and
the first 120 bytes of a label are parameters.
-/

namespace AiTools.Whip.RemoteAuth

def second : Int := 1000000000

def hour : Int := 3600 * second

def remoteAuthChallengeTTL : Int := 120 * second

def remoteAuthAttemptWindow : Int := 24 * hour

def remoteAuthAttemptLimit : Nat := 5

def remoteAuthSessionTTL : Int := 72 * hour

def remoteAuthSessionRefreshTTL : Int := 24 * hour

structure Origin where
  remoteAddr : String
  forwardedFor : String
  userAgent : String
  origin : String
  host : String

structure Challenge where
  challengeID : String
  otpHash : String
  createdAt : Int
  expiresAt : Int
  origin : Origin
  deviceLabel : String
  failed : Bool
  failedAt : Option Int
  used : Bool
  usedAt : Option Int

structure Session where
  sessionID : String
  sessionSecretHash : String
  createdAt : Int
  lastSeenAt : Int
  expiresAt : Int
  revokedAt : Option Int
  deviceLabel : String
  origin : Origin

structure Attempt where
  fingerprint : String
  createdAt : Int

structure State where
  pendingChallenge : Option Challenge
  attempts : List Attempt
  sessions : List Session
  updatedAt : Option Int

/-- The state without a file. -/
def State.empty : State := ⟨none, [], [], none⟩

inductive AuthError where
  | noChallenge
  | challengeUsed
  | challengeFailed
  | challengeExpired
  | challengeRateLimited
  | invalidOTP
  | sessionNotFound
  | sessionRevoked
  | sessionExpired
  | random (text : String)

def AuthError.text : AuthError → String
  | .noChallenge => "no pending auth challenge"
  | .challengeUsed => "auth challenge already used"
  | .challengeFailed => "auth challenge already invalidated"
  | .challengeExpired => "auth challenge expired"
  | .challengeRateLimited => "otp attempt limit reached for this device"
  | .invalidOTP => "invalid otp"
  | .sessionNotFound => "device session not found"
  | .sessionRevoked => "device session revoked"
  | .sessionExpired => "device session expired"
  | .random text => text

/-- What the calls take from libraries. A digest is never empty. -/
structure Primitives where
  hashRemoteAuthValue : String → String
  hash_ne : ∀ raw, hashRemoteAuthValue raw ≠ ""
  toLower : String → String
  splitHostPort : String → Option String
  clip : String → String

def shouldPruneRemoteAuthChallenge (challenge : Challenge) (now : Int) : Bool :=
  ¬ now < challenge.expiresAt

def shouldPruneRemoteAuthSession (session : Session) (now : Int) : Bool :=
  session.revokedAt.isSome || ¬ now < session.expiresAt

/-- An attempt before the window that ends now. -/
def outsideWindow (attempt : Attempt) (now : Int) : Bool :=
  attempt.createdAt < now - remoteAuthAttemptWindow

/-- The state without what has ended, and whether anything had. -/
def pruneRemoteAuthState (state : State) (now : Int) : State × Bool :=
  let changed := state.pendingChallenge.any (shouldPruneRemoteAuthChallenge · now) ||
    state.sessions.any (shouldPruneRemoteAuthSession · now) ||
    state.attempts.any (outsideWindow · now)
  ({ pendingChallenge := state.pendingChallenge.filter (!shouldPruneRemoteAuthChallenge · now)
     attempts := state.attempts.filter (!outsideWindow · now)
     sessions := state.sessions.filter (!shouldPruneRemoteAuthSession · now)
     updatedAt := if changed then some now else state.updatedAt }, changed)

def countRecentRemoteAuthAttempts (attempts : List Attempt) (fingerprint : String)
    (now : Int) : Nat :=
  if fingerprint = "" then 0
  else attempts.countP fun attempt => attempt.fingerprint = fingerprint ∧ !outsideWindow attempt now

section
variable (prims : Primitives)

def firstRemoteAuthIP (origin : Origin) : String :=
  let forwarded := trimSpace origin.forwardedFor
  let first := trimSpace ((forwarded.splitOn ",").headD "")
  if first ≠ "" then first
  else
    let remoteAddr := trimSpace origin.remoteAddr
    if remoteAddr ≠ "" then (prims.splitHostPort remoteAddr).getD remoteAddr else ""

def remoteAuthAttemptFingerprint (deviceLabel : String) (origin : Origin) : String :=
  let given := prims.toLower (trimSpace deviceLabel)
  let agent := if given = "" then prims.toLower (trimSpace origin.userAgent) else given
  let label := if agent = "" then "device" else agent
  let address := trimSpace (firstRemoteAuthIP prims origin)
  let source := if address = "" then prims.toLower (trimSpace origin.host) else address
  prims.hashRemoteAuthValue (label ++ "|" ++ source)

def chooseRemoteAuthDeviceLabel (preferred fallback : String) (origin : Origin) : String :=
  let given := trimSpace preferred
  let earlier := if given = "" then trimSpace fallback else given
  let agent := if earlier = "" then trimSpace origin.userAgent else earlier
  let label := if agent = "" then "device" else agent
  if label.utf8ByteSize > 120 then prims.clip label else label

def newRemoteAuthChallenge (now : Int) (origin : Origin) (deviceLabel challengeID otp : String) :
    Challenge where
  challengeID := challengeID
  otpHash := prims.hashRemoteAuthValue otp
  createdAt := now
  expiresAt := now + remoteAuthChallengeTTL
  origin := origin
  deviceLabel := chooseRemoteAuthDeviceLabel prims deviceLabel "" origin
  failed := false
  failedAt := none
  used := false
  usedAt := none

def newRemoteAuthSession (now : Int) (origin : Origin)
    (deviceLabel sessionID sessionSecret : String) : Session where
  sessionID := sessionID
  sessionSecretHash := prims.hashRemoteAuthValue sessionSecret
  createdAt := now
  lastSeenAt := now
  expiresAt := now + remoteAuthSessionTTL
  revokedAt := none
  deviceLabel := chooseRemoteAuthDeviceLabel prims deviceLabel "" origin
  origin := origin

def upsertRemoteAuthSession (session : Session) : List Session → List Session
  | [] => [session]
  | first :: rest =>
    if first.sessionID = session.sessionID then session :: rest
    else first :: upsertRemoteAuthSession session rest

inductive Answer where
  | state (state : State)
  | challenge (record : Challenge) (otp : String)
  | session (record : Session) (secret : String)
  | authenticated (record : Session)
  | error (error : AuthError)

/-- What a call under the lock leaves in memory, whether that is written, and its answer. -/
abbrev Locked := State × Bool × Answer

def withLockedState (fn : State → Locked) (state : State) : State × Answer :=
  match fn state with
  | (after, true, answer) => (after, answer)
  | (_, false, answer) => (state, answer)

/-- The end of a call that finds nothing: it prunes, and reports the error. -/
def refuse (state : State) (now : Int) (error : AuthError) : Locked :=
  let (pruned, changed) := pruneRemoteAuthState state now
  (pruned, changed, .error error)

def loadState (now : Int) (state : State) : Locked :=
  let (pruned, changed) := pruneRemoteAuthState state now
  (pruned, changed, .state pruned)

/-- `drawn` is the challenge's id and its OTP. -/
def createChallenge (now : Int) (origin : Origin) (deviceLabel : String)
    (drawn : Except String (String × String)) (state : State) : Locked :=
  let pruned := (pruneRemoteAuthState state now).1
  let fingerprint := remoteAuthAttemptFingerprint prims deviceLabel origin
  if remoteAuthAttemptLimit ≤ countRecentRemoteAuthAttempts pruned.attempts fingerprint now then
    (pruned, false, .error .challengeRateLimited)
  else
    match drawn with
    | .error text => (pruned, false, .error (.random text))
    | .ok (challengeID, otp) =>
      let record := newRemoteAuthChallenge prims now origin deviceLabel challengeID otp
      ({ pruned with
          pendingChallenge := some record
          attempts := pruned.attempts ++ [⟨fingerprint, now⟩]
          updatedAt := some now }, true, .challenge record otp)

/-- `drawn` is the session's id and its secret. -/
def exchangeChallenge (now : Int) (challengeID otp deviceLabel : String)
    (drawn : Except String (String × String)) (state : State) : Locked :=
  match state.pendingChallenge with
  | none => refuse state now .noChallenge
  | some challenge =>
    if challenge.challengeID ≠ challengeID then refuse state now .noChallenge
    else if challenge.used then refuse state now .challengeUsed
    else if challenge.failed then refuse state now .challengeFailed
    else if ¬ now < challenge.expiresAt then refuse state now .challengeExpired
    else if challenge.otpHash ≠ prims.hashRemoteAuthValue (trimSpace otp) then
      ({ state with
          pendingChallenge := some { challenge with failed := true, failedAt := some now }
          updatedAt := some now }, true, .error .invalidOTP)
    else
      let taken := { state with
        pendingChallenge := some { challenge with used := true, usedAt := some now } }
      match drawn with
      | .error text => (taken, false, .error (.random text))
      | .ok (sessionID, secret) =>
        let record := newRemoteAuthSession prims now challenge.origin
          (chooseRemoteAuthDeviceLabel prims deviceLabel challenge.deviceLabel challenge.origin)
          sessionID secret
        ({ taken with
            sessions := upsertRemoteAuthSession record taken.sessions
            updatedAt := some now }, true, .session record secret)

def authenticateSession (now : Int) (sessionID sessionSecret : String) (state : State) :
    Locked :=
  match state.sessions.find? (·.sessionID = sessionID) with
  | none => refuse state now .sessionNotFound
  | some session =>
    if session.revokedAt.isSome then refuse state now .sessionRevoked
    else if ¬ now < session.expiresAt then refuse state now .sessionExpired
    else if session.sessionSecretHash ≠ prims.hashRemoteAuthValue (trimSpace sessionSecret) then
      refuse state now .sessionNotFound
    else
      let seen := { session with
        lastSeenAt := now
        expiresAt :=
          if session.expiresAt - now < remoteAuthSessionRefreshTTL then now + remoteAuthSessionTTL
          else session.expiresAt }
      ({ state with
          -- The loop writes to the session that it stands at, which is the first of that id.
          sessions := upsertRemoteAuthSession seen state.sessions
          updatedAt := some now }, true, .authenticated seen)

inductive Call where
  | load (now : Int)
  | create (now : Int) (origin : Origin) (deviceLabel : String)
      (drawn : Except String (String × String))
  | exchange (now : Int) (challengeID otp deviceLabel : String)
      (drawn : Except String (String × String))
  | authenticate (now : Int) (sessionID sessionSecret : String)

def Call.now : Call → Int
  | .load now => now
  | .create now _ _ _ => now
  | .exchange now _ _ _ _ => now
  | .authenticate now _ _ => now

def Call.locked : Call → State → Locked
  | .load now => loadState now
  | .create now origin deviceLabel drawn => createChallenge prims now origin deviceLabel drawn
  | .exchange now challengeID otp deviceLabel drawn =>
    exchangeChallenge prims now challengeID otp deviceLabel drawn
  | .authenticate now sessionID sessionSecret =>
    authenticateSession prims now sessionID sessionSecret

def Call.run (call : Call) (state : State) : State × Answer :=
  withLockedState (call.locked prims) state

end

end AiTools.Whip.RemoteAuth
