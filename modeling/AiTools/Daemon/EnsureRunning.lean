import Mathlib

/-!
Contract: the decision of `ensure_running` on a daemon that may be running.
-/

namespace AiTools.Daemon.EnsureRunning

abbrev Text := List Char

/-- In milliseconds. -/
def startTimeTolerance : Nat := 1500

structure PidFile where
  pid : Nat
  startedAt : Option Nat
  appVersion : Option Text

/-- What the system shows of a process when it is asked. -/
structure Process where
  exists_ : Bool
  cmdline : Option Text
  startedAt : Option Nat

/-- A `u64` cast to an `i64`. -/
def asI64 (value : Int) : Int := value.bmod (2 ^ 64)

def startTimeMatches (actual expected : Option Nat) : Bool :=
  match actual, expected with
  | some actual, some expected =>
    (asI64 (asI64 actual - asI64 expected)).natAbs ≤ startTimeTolerance
  | _, _ => true

def isDaemonProcess (socket : Text) (process : Process) (expected : Option Nat) : Bool :=
  process.exists_ &&
    match process.cmdline with
    | none => false
    | some cmdline => socket <:+: cmdline && startTimeMatches process.startedAt expected

inductive Handshake where
  | accepted
  | rejected
  | unreachable
deriving DecidableEq

inductive Health where
  | healthy
  | ptySpawnUnhealthy
  | rejected
  | unreachable
deriving DecidableEq

/-- The moments at which a running daemon is asked or hit. -/
inductive Moment where
  | listing
  | shutdown
  | sigterm
  | sigkill
  | unlink
  | bind

/-- The running daemon on the socket, if there is one at a moment, and how many live sessions it
owns then. Other clients come and go in between. -/
structure World where
  daemonPid : Nat
  running : Moment → Bool
  sessions : Moment → Nat

/-- What every probe of one call returns. A process is asked for its identity at the staleness
check, before the first signal and before the second. -/
structure Probes where
  socket : Text
  appVersion : Text
  token : Bool
  hello : Handshake
  ptySpawn : Option Bool
  listToken : Bool
  listHello : Handshake
  list : Bool
  connect : Bool
  stalePidFile : Option PidFile
  staleProcess : Nat → Process
  shutdown : Bool
  killPidFile : Option PidFile
  killProcess : Nat → Process
  exited : Bool
  recheckedProcess : Nat → Process
  socketExists : Bool
  socketLive : Bool
  spawned : Bool

inductive Event where
  | shutdown
  | sigterm (pid : Nat)
  | sigkill (pid : Nat)
  | unlink
  /-- The new daemon unlinks the socket and binds its own. -/
  | bind
deriving DecidableEq

def Event.moment : Event → Moment
  | .shutdown => .shutdown
  | .sigterm _ => .sigterm
  | .sigkill _ => .sigkill
  | .unlink => .unlink
  | .bind => .bind

section
variable (world : World) (probes : Probes)

def probeHealth : Health :=
  if probes.token then
    match probes.hello with
    | .rejected => .rejected
    | .unreachable => .unreachable
    | .accepted =>
      match probes.ptySpawn with
      | some true => .healthy
      | some false => .ptySpawnUnhealthy
      | none => .unreachable
  else .unreachable

/-- An answer has the sessions of that moment. -/
def aliveSessionCount : Option Nat :=
  if probes.listToken ∧ probes.listHello = .accepted ∧ probes.list then
    some (world.sessions .listing)
  else none

def isStaleForCurrent : Bool :=
  match probes.stalePidFile with
  | none => false
  | some parsed =>
    isDaemonProcess probes.socket (probes.staleProcess parsed.pid) parsed.startedAt &&
      match parsed.appVersion with
      | some recorded => recorded ≠ probes.appVersion
      | none => true

/-- The signals, and whether the recorded daemon is gone. -/
def signalStale : List Event × Bool :=
  match probes.killPidFile with
  | none => ([], false)
  | some parsed =>
    if isDaemonProcess probes.socket (probes.killProcess parsed.pid) parsed.startedAt then
      if probes.exited then ([.sigterm parsed.pid], true)
      else if isDaemonProcess probes.socket (probes.recheckedProcess parsed.pid)
          parsed.startedAt then ([.sigterm parsed.pid, .sigkill parsed.pid], true)
      else ([.sigterm parsed.pid], true)
    else ([], false)

def killStale : List Event × Bool :=
  let signalled := signalStale probes
  let unlinked :=
    if probes.socketExists && (signalled.2 || !probes.socketLive) then [Event.unlink] else []
  (signalled.1 ++ unlinked, signalled.2)

def requestShutdown : List Event := if probes.shutdown then [.shutdown] else []

def spawnDaemon : List Event := if probes.spawned then [.bind] else []

inductive Outcome where
  | adopted
  | adoptedDegraded
  | adoptedUnresponsive
  | replaced
  | spawned

/-- What the call does, and its outcome when the spawn succeeds. -/
def ensureRunning : List Event × Outcome :=
  match probeHealth probes with
  | .healthy =>
    if isStaleForCurrent probes then
      (requestShutdown probes ++ ((killStale probes).1 ++ spawnDaemon probes), .replaced)
    else ([], .adopted)
  | health =>
    match aliveSessionCount world probes with
    | some (_ + 1) =>
      ([], if health = .ptySpawnUnhealthy then .adoptedDegraded else .adopted)
    | count =>
      if count = none ∧ health ≠ .rejected ∧ probes.connect then
        ([], .adoptedUnresponsive)
      else
        ((killStale probes).1 ++ spawnDaemon probes,
          if (killStale probes).2 ∨ health = .rejected then .replaced else .spawned)

end

/-- The command line names the socket, and the start time does not contradict the pid file. -/
def Identified (socket : Text) (process : Process) (expected : Option Nat) : Prop :=
  (∃ cmdline, process.cmdline = some cmdline ∧ socket <:+: cmdline) ∧
    ∀ actual recorded, process.startedAt = some actual → expected = some recorded →
      ((actual : Int) - recorded).natAbs ≤ startTimeTolerance

/-- The event kills or displaces a running daemon that owns a live session at the moment. -/
def Harms (world : World) (event : Event) : Prop :=
  (∀ pid, event = .sigterm pid ∨ event = .sigkill pid → pid = world.daemonPid) ∧
    world.running event.moment = true ∧ 0 < world.sessions event.moment

def Refused (probes : Probes) : Prop := probes.token = true ∧ probes.hello = .rejected

/-- The pid file names a process that is the daemon, and another version than this one. -/
def OtherVersion (probes : Probes) : Prop :=
  ∃ parsed version, probes.stalePidFile = some parsed ∧ parsed.appVersion = some version ∧
    version ≠ probes.appVersion ∧
      Identified probes.socket (probes.staleProcess parsed.pid) parsed.startedAt

structure FailOpen (world : World) (probes : Probes) (events : List Event) : Prop where
  sigterm : ∀ pid, .sigterm pid ∈ events → ∃ parsed, probes.killPidFile = some parsed ∧
    parsed.pid = pid ∧ Identified probes.socket (probes.killProcess pid) parsed.startedAt
  sigkill : ∀ pid, .sigkill pid ∈ events → ∃ parsed, probes.killPidFile = some parsed ∧
    parsed.pid = pid ∧ Identified probes.socket (probes.recheckedProcess pid) parsed.startedAt
  harms : ∀ event ∈ events, Harms world event → Refused probes ∨ OtherVersion probes

/-- A daemon with sessions runs at some later moment of the call. -/
def OwnsSessions (world : World) : Prop :=
  ∃ moment, world.running moment = true ∧ 0 < world.sessions moment ∧ moment ≠ .listing

/-- The start times of the pid file and of its process fit an `i64`. -/
def FitTimes (pidFile : Option PidFile) (process : Nat → Process) : Prop :=
  ∀ parsed, pidFile = some parsed →
    (∀ recorded, parsed.startedAt = some recorded → recorded < 2 ^ 63) ∧
      ∀ actual, (process parsed.pid).startedAt = some actual → actual < 2 ^ 63

/-- The sessions of a running daemon are seen: it takes the raw connect when it does not list
them, none comes behind an empty list, and the pid file of a healthy daemon has its version. The
start times are compared without overflow. -/
structure Seen (world : World) (probes : Probes) : Prop where
  listed : OwnsSessions world → aliveSessionCount world probes = some 0 →
    probeHealth probes = .healthy ∨ probeHealth probes = .rejected
  connects : OwnsSessions world → aliveSessionCount world probes = none →
    probes.connect = true ∨ probeHealth probes = .healthy ∨ probeHealth probes = .rejected
  versioned : OwnsSessions world → probeHealth probes = .healthy → ∀ parsed,
    probes.stalePidFile = some parsed →
      isDaemonProcess probes.socket (probes.staleProcess parsed.pid) parsed.startedAt = true →
        parsed.appVersion ≠ none
  staleTimes : FitTimes probes.stalePidFile probes.staleProcess
  killTimes : FitTimes probes.killPidFile probes.killProcess
  recheckedTimes : FitTimes probes.killPidFile probes.recheckedProcess

/-! ## Signals -/

theorem asI64_of_fits {value : Int} (lower : -2 ^ 63 ≤ value) (upper : value < 2 ^ 63) :
    asI64 value = value := by
  apply Int.bmod_eq_of_le_mul_two <;> norm_num at lower upper ⊢ <;> omega

theorem startTimeMatches_fits {actual expected : Nat} (actualFits : actual < 2 ^ 63)
    (expectedFits : expected < 2 ^ 63)
    (isMatch : startTimeMatches (some actual) (some expected) = true) :
    ((actual : Int) - expected).natAbs ≤ startTimeTolerance := by
  unfold startTimeMatches at isMatch
  rw [decide_eq_true_eq] at isMatch
  rwa [asI64_of_fits (by omega) (by omega : (actual : Int) < 2 ^ 63),
    asI64_of_fits (by omega) (by omega : (expected : Int) < 2 ^ 63),
    asI64_of_fits (by omega) (by omega)] at isMatch

theorem identified_of_isDaemonProcess {socket : Text} {pidFile : Option PidFile}
    {process : Nat → Process} {parsed : PidFile} (times : FitTimes pidFile process)
    (isPidFile : pidFile = some parsed)
    (isDaemon : isDaemonProcess socket (process parsed.pid) parsed.startedAt = true) :
    Identified socket (process parsed.pid) parsed.startedAt := by
  obtain ⟨expectedFits, actualFits⟩ := times parsed isPidFile
  unfold isDaemonProcess at isDaemon
  rw [Bool.and_eq_true] at isDaemon
  obtain ⟨_, isNamed⟩ := isDaemon
  cases isCmdline : (process parsed.pid).cmdline with
  | none =>
    simp [isCmdline] at isNamed
  | some cmdline =>
    rw [isCmdline] at isNamed
    dsimp only at isNamed
    rw [Bool.and_eq_true] at isNamed
    obtain ⟨hasSocket, matchesStart⟩ := isNamed
    refine ⟨⟨cmdline, isCmdline, of_decide_eq_true hasSocket⟩, ?_⟩
    intro actual recorded isActual isRecorded
    rw [isActual, isRecorded] at matchesStart
    exact startTimeMatches_fits (actualFits actual isActual) (expectedFits recorded isRecorded)
      matchesStart

section
variable {world : World} {probes : Probes}

/-- A signal goes to the process of the pid file, which has been identified right before. -/
theorem signalStale_identified (seen : Seen world probes) : ∀ event ∈ (signalStale probes).1,
    ∃ parsed, probes.killPidFile = some parsed ∧ (event = .sigterm parsed.pid ∧
          Identified probes.socket (probes.killProcess parsed.pid) parsed.startedAt ∨
        event = .sigkill parsed.pid ∧
          Identified probes.socket (probes.recheckedProcess parsed.pid) parsed.startedAt) := by
  intro event isIn
  unfold signalStale at isIn
  split at isIn
  · cases isIn
  · rename_i parsed isPidFile
    split_ifs at isIn with isDaemon isExited isStill
    · rw [List.mem_singleton.mp isIn]
      exact ⟨parsed, isPidFile, .inl ⟨rfl,
        identified_of_isDaemonProcess seen.killTimes isPidFile isDaemon⟩⟩
    · rcases List.mem_cons.mp isIn with rfl | isSecond
      · exact ⟨parsed, isPidFile, .inl ⟨rfl,
        identified_of_isDaemonProcess seen.killTimes isPidFile isDaemon⟩⟩
      · rw [List.mem_singleton.mp isSecond]
        exact ⟨parsed, isPidFile, .inr ⟨rfl,
          identified_of_isDaemonProcess seen.recheckedTimes isPidFile isStill⟩⟩
    · rw [List.mem_singleton.mp isIn]
      exact ⟨parsed, isPidFile, .inl ⟨rfl,
        identified_of_isDaemonProcess seen.killTimes isPidFile isDaemon⟩⟩
    · cases isIn

def Event.IsSignal : Event → Prop
  | .sigterm _ => True
  | .sigkill _ => True
  | _ => False

variable {event : Event}

theorem killStale_signals (isSignal : event.IsSignal) (isIn : event ∈ (killStale probes).1) :
    event ∈ (signalStale probes).1 := by
  simp only [killStale] at isIn
  rcases List.mem_append.mp isIn with isSignalled | isUnlink
  · exact isSignalled
  · split_ifs at isUnlink
    · rw [List.mem_singleton.mp isUnlink] at isSignal
      cases isSignal
    · cases isUnlink

theorem requestShutdown_noSignal (isSignal : event.IsSignal) : event ∉ requestShutdown probes := by
  intro isIn
  unfold requestShutdown at isIn
  split_ifs at isIn
  · rw [List.mem_singleton.mp isIn] at isSignal
    cases isSignal
  · cases isIn

theorem spawnDaemon_noSignal (isSignal : event.IsSignal) : event ∉ spawnDaemon probes := by
  intro isIn
  unfold spawnDaemon at isIn
  split_ifs at isIn
  · rw [List.mem_singleton.mp isIn] at isSignal
    cases isSignal
  · cases isIn

theorem ensureRunning_signals (isSignal : event.IsSignal)
    (isIn : event ∈ (ensureRunning world probes).1) : event ∈ (signalStale probes).1 := by
  have replaced : event ∈ (killStale probes).1 ++ spawnDaemon probes →
      event ∈ (signalStale probes).1 := by
    intro isEither
    rcases List.mem_append.mp isEither with isKill | isSpawn
    · exact killStale_signals isSignal isKill
    · exact absurd isSpawn (spawnDaemon_noSignal isSignal)
  unfold ensureRunning at isIn
  split at isIn
  · split_ifs at isIn
    · rcases List.mem_append.mp isIn with isFirst | isRest
      · exact absurd isFirst (requestShutdown_noSignal isSignal)
      · exact replaced isRest
    · cases isIn
  · split at isIn
    · cases isIn
    · split_ifs at isIn
      · cases isIn
      · exact replaced isIn
      · exact replaced isIn

theorem ownsSessions_of_harms (harms : Harms world event) : OwnsSessions world := by
  obtain ⟨_, isRunning, hasSessions⟩ := harms
  refine ⟨event.moment, isRunning, hasSessions, ?_⟩
  cases event <;> exact nofun

theorem otherVersion_of_stale (isStale : isStaleForCurrent probes = true)
    (times : FitTimes probes.stalePidFile probes.staleProcess)
    (versioned : ∀ parsed, probes.stalePidFile = some parsed →
      isDaemonProcess probes.socket (probes.staleProcess parsed.pid) parsed.startedAt = true →
        parsed.appVersion ≠ none) : OtherVersion probes := by
  unfold isStaleForCurrent at isStale
  split at isStale
  · cases isStale
  · rename_i parsed isPidFile
    rw [Bool.and_eq_true] at isStale
    obtain ⟨isDaemon, isOther⟩ := isStale
    cases isVersion : parsed.appVersion with
    | none => exact absurd isVersion (versioned parsed isPidFile isDaemon)
    | some version =>
      rw [isVersion] at isOther
      exact ⟨parsed, version, isPidFile, isVersion, of_decide_eq_true isOther,
        identified_of_isDaemonProcess times isPidFile isDaemon⟩

theorem refused_of_rejected (isRejected : probeHealth probes = .rejected) : Refused probes := by
  unfold probeHealth at isRejected
  split_ifs at isRejected with isToken
  refine ⟨isToken, ?_⟩
  cases isHello : probes.hello with
  | rejected => rfl
  | unreachable =>
    simp [isHello] at isRejected
  | accepted =>
    rw [isHello] at isRejected
    dsimp only at isRejected
    split at isRejected <;> cases isRejected

/-- Nothing happens to a daemon whose sessions are seen, unless it refused or is another version. -/
theorem ensureRunning_harmless (seen : Seen world probes) (owns : OwnsSessions world) :
    (ensureRunning world probes).1 = [] ∨ Refused probes ∨ OtherVersion probes := by
  unfold ensureRunning
  split
  · rename_i isHealthy
    split_ifs with isStale
    · exact .inr (Or.inr (otherVersion_of_stale isStale seen.staleTimes
        (seen.versioned owns isHealthy)))
    · exact .inl rfl
  · rename_i notHealthy
    by_cases isRejected : probeHealth probes = .rejected
    · exact .inr (Or.inl (refused_of_rejected isRejected))
    · have notSafe : ¬(probeHealth probes = .healthy ∨ probeHealth probes = .rejected) := by
        rintro (isHealthy | isSame)
        · exact notHealthy isHealthy
        · exact isRejected isSame
      split
      · exact .inl rfl
      · rename_i noneAlive
        cases isCount : aliveSessionCount world probes with
        | none =>
          rcases seen.connects owns isCount with connects | isSafe
          · rw [if_pos ⟨rfl, isRejected, connects⟩]
            exact .inl rfl
          · exact absurd isSafe notSafe
        | some count =>
          cases count with
          | zero => exact absurd (seen.listed owns isCount) notSafe
          | succ count => exact absurd isCount (noneAlive count)

end

theorem ensureRunning_failOpen (world : World) (probes : Probes) (seen : Seen world probes) :
    FailOpen world probes (ensureRunning world probes).1 where
  sigterm := by
    intro pid isIn
    have isSignalled := ensureRunning_signals (show Event.IsSignal (.sigterm pid) from trivial) isIn
    obtain ⟨parsed, isPidFile, ⟨isSame, isIdentified⟩ | ⟨isOther, _⟩⟩ :=
      signalStale_identified seen _ isSignalled
    · cases isSame
      exact ⟨parsed, isPidFile, rfl, isIdentified⟩
    · cases isOther
  sigkill := by
    intro pid isIn
    have isSignalled := ensureRunning_signals (show Event.IsSignal (.sigkill pid) from trivial) isIn
    obtain ⟨parsed, isPidFile, ⟨isOther, _⟩ | ⟨isSame, isIdentified⟩⟩ :=
      signalStale_identified seen _ isSignalled
    · cases isOther
    · cases isSame
      exact ⟨parsed, isPidFile, rfl, isIdentified⟩
  harms := by
    intro event isIn harms
    rcases ensureRunning_harmless seen (ownsSessions_of_harms harms) with isEmpty | isAllowed
    · rw [isEmpty] at isIn
      cases isIn
    · exact isAllowed

/-- The daemon has one live session at every moment. -/
def oneSession : World := ⟨42, fun _ => true, fun _ => 1⟩

def daemonProcess : Process := ⟨true, some "grove-daemon --socket /b/s.sock".toList, none⟩

/-- The daemon answers nothing but the raw connect. -/
def onlyConnects : Probes where
  socket := "/b/s.sock".toList
  appVersion := "1.0".toList
  token := true
  hello := .unreachable
  ptySpawn := none
  listToken := true
  listHello := .unreachable
  list := false
  connect := true
  stalePidFile := none
  staleProcess := fun _ => daemonProcess
  shutdown := false
  killPidFile := some ⟨42, none, none⟩
  killProcess := fun _ => daemonProcess
  exited := true
  recheckedProcess := fun _ => daemonProcess
  socketExists := true
  socketLive := false
  spawned := true

theorem ensureRunning_failOpen_onlyConnects :
    FailOpen oneSession onlyConnects (ensureRunning oneSession onlyConnects).1 := by
  apply ensureRunning_failOpen
  refine ⟨fun _ isEmpty => ?_, fun _ _ => .inl rfl, fun _ isHealthy => ?_, ?_, ?_, ?_⟩
  · cases isEmpty
  · cases isHealthy
  · intro parsed isParsed
    cases isParsed
  all_goals
    intro parsed isParsed
    cases isParsed
    refine ⟨fun _ isNone => ?_, fun _ isNone => ?_⟩ <;> cases isNone

/-- When the raw connect times out as well, the daemon is killed with its session. -/
theorem not_ensureRunning_failOpen : ¬∀ (world : World) (probes : Probes),
      FailOpen world probes (ensureRunning world probes).1 := by
  intro allFailOpen
  have failOpen := allFailOpen oneSession { onlyConnects with connect := false }
  have isIn : Event.sigterm 42 ∈
      (ensureRunning oneSession { onlyConnects with connect := false }).1 := by decide +kernel
  have harms : Harms oneSession (.sigterm 42) := by
    refine ⟨fun pid isSignal => ?_, rfl, Nat.one_pos⟩
    rcases isSignal with isSame | isOther
    · cases isSame
      rfl
    · cases isOther
  rcases failOpen.harms _ isIn harms with ⟨_, isRejected⟩ | ⟨parsed, _, isPidFile, _⟩
  · cases isRejected
  · cases isPidFile

end AiTools.Daemon.EnsureRunning
