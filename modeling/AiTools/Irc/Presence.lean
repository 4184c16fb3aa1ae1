import Mathlib.Logic.Function.Basic

/-!
Contract: who holds a peer name of `claude-irc`, one file or process operation at a time.

A join, the daemon that it spawns and the pid of the daemon have one number; the pid of a daemon
that is gone may belong to another process, but to no other daemon. Beside the code's state are
recorded the joins that hold the name, and the files of a holder that something else has removed.
-/

namespace AiTools.Irc.Presence

/-- The peer in the registry; `owner` is the join that has written it. -/
structure Entry where
  session : Nat
  daemonPid : Option Nat
  owner : Nat

def Entry.withDaemonPid (pid : Nat) (entry : Entry) : Entry :=
  { entry with daemonPid := some pid }

/-- The marker is named after the pid of the daemon. -/
structure Marker where
  daemonPid : Nat
  session : Nat
deriving DecidableEq

/-- `socket` has the daemon that has bound it, `pidFile` the pid that is written there. -/
structure Disk where
  entry : Option Entry
  socket : Option Nat
  pidFile : Option Nat
  markers : List Marker
  inbox : Bool

/-- The next operation of `RunDaemon`. The listener unlinks its socket when it is closed, and the
deferred removals come after that. -/
inductive DaemonStage where
  | clear
  | bind
  | listen
  | unlink
  | removePid
  | removeSocket
deriving DecidableEq

structure Daemon where
  session : Nat
  stage : DaemonStage

/-- What a sequence of removals is for: a join that has failed, `quit`, or a stale peer. -/
inductive Purpose where
  | undo
  | quit
  | stale

inductive Stage where
  -- `Register`, from its lock to its write.
  | register (session : Nat)
  | staleSocket (session : Nat)
  | stalePid (session : Nat)
  | enter (session : Nat)
  -- The rest of `join`.
  | spawn (session : Nat)
  | writePid (session : Nat)
  | setDaemonPid (session : Nat)
  | writeMarker (session : Nat)
  -- `KillDaemon`.
  | killRead (purpose : Purpose)
  | killSignal (pid : Nat) (purpose : Purpose)
  | killPid (purpose : Purpose)
  | killSocket (purpose : Purpose)
  -- `CheckAllPresence` with `tryCleanStalePeer`.
  | listPeers
  | probe (daemonPid : Option Nat)
  | guard (daemonPid : Option Nat)
  | readPid
  | statSocket
  | checkAlive (pid : Nat)
  | dropSocket
  | dropPid
  -- `cleanSessionMarkers`, `cleanStalePeerArtifacts` and `Unregister`.
  | listMarkers (purpose : Purpose)
  | dropMarkers (left : List Nat) (purpose : Purpose)
  | dropInbox
  | unregister (purpose : Purpose)
  -- `CleanOrphanDirs`.
  | listOrphans
  | dropOrphan

/-- `actor` is the join that a thread is of: its own, or the one that a `quit` ends. -/
structure Thread where
  actor : Option Nat
  stage : Stage

structure Holder where
  join : Nat
  session : Nat
deriving DecidableEq

structure System where
  disk : Disk
  lock : Option Nat
  daemons : Nat → Option Daemon
  signaled : List Nat
  ended : List Nat
  next : Nat
  threads : Nat → Option Thread
  holders : List Holder
  hits : List Nat

/-- How an operation goes, and whether a pid that is no daemon's is alive. -/
structure Given where
  ok : Bool
  alive : Bool

inductive Label where
  | join (session : Nat)
  | quit (marker : Marker)
  | who
  | advance (thread : Nat) (given : Given)
  | daemon (daemon : Nat) (given : Given)
  | crash (daemon : Nat)
  | endSession (session : Nat)
  | deliver

namespace System

/-- The holder's file that another removes. -/
def struck (sys : System) (actor owner : Option Nat) : List Nat :=
  owner.toList.filter fun join => sys.holders.any (·.join = join) && actor ≠ some join

def removeSocket (sys : System) (actor : Option Nat) : System :=
  { sys with
    disk := { sys.disk with socket := none }
    hits := sys.struck actor sys.disk.socket ++ sys.hits }

def removePid (sys : System) (actor : Option Nat) : System :=
  { sys with
    disk := { sys.disk with pidFile := none }
    hits := sys.struck actor sys.disk.pidFile ++ sys.hits }

def removeMarker (sys : System) (actor : Option Nat) (daemonPid : Nat) : System :=
  { sys with
    disk := { sys.disk with
      markers := sys.disk.markers.filter (·.daemonPid ≠ daemonPid) }
    hits := ((sys.disk.markers.filter (·.daemonPid = daemonPid)).flatMap
      fun marker => sys.struck actor (some marker.daemonPid)) ++ sys.hits }

def removeEntry (sys : System) (actor : Option Nat) : System :=
  { sys with
    disk := { sys.disk with entry := none }
    hits := sys.struck actor (sys.disk.entry.map Entry.owner) ++ sys.hits }

/-- The inbox is of whoever holds the name. -/
def removeInbox (sys : System) (actor : Option Nat) : System :=
  { sys with
    disk := { sys.disk with inbox := false }
    hits := (if sys.disk.inbox then
        sys.holders.flatMap fun holder => sys.struck actor (some holder.join)
      else []) ++ sys.hits }

/-! ## Steps -/

def goto (sys : System) (thread : Nat) (actor : Option Nat) (stage : Stage) : System :=
  { sys with threads := Function.update sys.threads thread (some ⟨actor, stage⟩) }

def finish (sys : System) (thread : Nat) : System :=
  { sys with threads := Function.update sys.threads thread none }

/-- The join does not hold the name any more. -/
def leave (sys : System) (join : Nat) : System :=
  { sys with holders := sys.holders.filter (·.join ≠ join) }

def setDaemon (sys : System) (daemon : Nat) (state : Option Daemon) : System :=
  { sys with daemons := Function.update sys.daemons daemon state }

/-- `isProcessAlive`. -/
def isAlive (sys : System) (given : Given) (pid : Nat) : Bool :=
  given.alive || (sys.daemons pid).isSome

/-- `CheckPresence`: a daemon listens on the socket, and answers in time. -/
def answers (sys : System) (given : Given) : Bool :=
  given.ok && sys.disk.socket.any fun daemon =>
    (sys.daemons daemon).any fun state => state.stage = .listen

/-- `SIGTERM`: a daemon that does not listen yet has no handler for it. -/
def signal (sys : System) (actor : Option Nat) (pid : Nat) : System :=
  let struckSystem :=
    { sys with hits := sys.struck actor (some pid) ++ sys.hits }
  match sys.daemons pid with
  | none => sys
  | some ⟨_, .clear⟩ => (struckSystem.setDaemon pid none).leave pid
  | some ⟨_, .bind⟩ => (struckSystem.setDaemon pid none).leave pid
  | some _ => { struckSystem with signaled := pid :: sys.signaled }

/-- `KillDaemon` returns. -/
def afterKill (sys : System) (thread : Nat) (actor : Option Nat) : Purpose → System
  | .quit => sys.goto thread actor (.listMarkers .quit)
  | purpose => sys.goto thread actor (.unregister purpose)

def afterMarkers (sys : System) (thread : Nat) (actor : Option Nat) : Purpose → System
  | .stale => sys.goto thread actor .dropInbox
  | purpose => sys.goto thread actor (.unregister purpose)

def advance (sys : System) (thread : Nat) (actor : Option Nat) (given : Given) :
    Stage → Option System
  | .register session =>
    if sys.lock ≠ none then none
    else if sys.disk.entry = none then
      some ({ sys with lock := some thread }.goto thread actor (.enter session))
    else if sys.answers given then some (sys.finish thread)
    else some ({ sys with lock := some thread }.goto thread actor (.staleSocket session))
  | .staleSocket session =>
    some ((sys.removeSocket actor).goto thread actor (.stalePid session))
  | .stalePid session => some ((sys.removePid actor).goto thread actor (.enter session))
  | .enter session =>
    if given.ok then
      some ({ sys with
        disk := { sys.disk with entry := some ⟨session, none, thread⟩ }
        lock := none
        holders := ⟨thread, session⟩ :: sys.holders }.goto thread actor (.spawn session))
    else some ({ sys with lock := none }.finish thread)
  | .spawn session =>
    if given.ok then
      some ((sys.setDaemon thread (some ⟨session, .clear⟩)).goto thread actor
        (.writePid session))
    else some ((sys.leave thread).goto thread actor (.unregister .undo))
  | .writePid session =>
    if given.ok then
      some ({ sys with disk := { sys.disk with pidFile := some thread } }.goto thread actor
        (.setDaemonPid session))
    else some (((sys.setDaemon thread none).leave thread).goto thread actor (.unregister .undo))
  | .setDaemonPid session =>
    if sys.lock ≠ none then none
    else some ({ sys with
      disk := { sys.disk with
        entry := sys.disk.entry.map (Entry.withDaemonPid thread) } }.goto thread actor
          (.writeMarker session))
  | .writeMarker session =>
    if given.ok then
      some ({ sys with
        disk := { sys.disk with
          markers := ⟨thread, session⟩ ::
            sys.disk.markers.filter (·.daemonPid ≠ thread) } }.finish thread)
    else some ((sys.leave thread).goto thread actor (.killRead .undo))
  | .killRead purpose =>
    match sys.disk.pidFile with
    | none => some (sys.goto thread actor (.killSocket purpose))
    | some pid => some (sys.goto thread actor (.killSignal pid purpose))
  | .killSignal pid purpose =>
    some ((sys.signal actor pid).goto thread actor (.killPid purpose))
  | .killPid purpose => some ((sys.removePid actor).goto thread actor (.killSocket purpose))
  | .killSocket purpose => some ((sys.removeSocket actor).afterKill thread actor purpose)
  | .listPeers =>
    if sys.lock ≠ none then none
    else match sys.disk.entry with
      | none => some (sys.goto thread actor .listOrphans)
      | some entry => some (sys.goto thread actor (.probe entry.daemonPid))
  | .probe daemonPid =>
    if sys.answers given then some (sys.goto thread actor .listOrphans)
    else some (sys.goto thread actor (.guard daemonPid))
  | .guard daemonPid =>
    if daemonPid.any (sys.isAlive given) then some (sys.goto thread actor .listOrphans)
    else some (sys.goto thread actor .readPid)
  | .readPid =>
    match sys.disk.pidFile with
    | none => some (sys.goto thread actor .statSocket)
    | some pid => some (sys.goto thread actor (.checkAlive pid))
  | .statSocket =>
    if sys.disk.socket = none then some (sys.goto thread actor (.listMarkers .stale))
    else some (sys.goto thread actor .listOrphans)
  | .checkAlive pid =>
    if sys.isAlive given pid then some (sys.goto thread actor .listOrphans)
    else some (sys.goto thread actor .dropSocket)
  | .dropSocket => some ((sys.removeSocket actor).goto thread actor .dropPid)
  | .dropPid => some ((sys.removePid actor).goto thread actor (.listMarkers .stale))
  | .listMarkers purpose =>
    some (sys.goto thread actor
      (.dropMarkers (sys.disk.markers.map Marker.daemonPid) purpose))
  | .dropMarkers [] purpose => some (sys.afterMarkers thread actor purpose)
  | .dropMarkers (daemonPid :: left) purpose =>
    some ((sys.removeMarker actor daemonPid).goto thread actor (.dropMarkers left purpose))
  | .dropInbox => some ((sys.removeInbox actor).goto thread actor (.unregister .stale))
  | .unregister purpose =>
    if sys.lock ≠ none then none
    else match purpose with
      | .stale => some ((sys.removeEntry actor).goto thread actor .listOrphans)
      | _ => some ((sys.removeEntry actor).finish thread)
  | .listOrphans =>
    if sys.lock ≠ none then none
    else if sys.disk.entry = none then some (sys.goto thread actor .dropOrphan)
    else some (sys.finish thread)
  | .dropOrphan => some ((sys.removeInbox actor).finish thread)

/-- A daemon that stops to listen, or does not come to it, holds the name for nobody. -/
def runDaemon (sys : System) (daemon : Nat) (given : Given) (session : Nat) :
    DaemonStage → Option System
  | .clear =>
    if given.ok then
      some ((sys.removeSocket (some daemon)).setDaemon daemon (some ⟨session, .bind⟩))
    else some ((sys.setDaemon daemon none).leave daemon)
  | .bind =>
    if given.ok = true ∧ sys.disk.socket = none then
      some ({ sys with disk := { sys.disk with socket := some daemon } }.setDaemon daemon
        (some ⟨session, .listen⟩))
    else some ((sys.setDaemon daemon none).leave daemon)
  | .listen =>
    if daemon ∈ sys.signaled ∨ session ∈ sys.ended then
      some ((sys.leave daemon).setDaemon daemon (some ⟨session, .unlink⟩))
    else none
  | .unlink =>
    some ((sys.removeSocket (some daemon)).setDaemon daemon (some ⟨session, .removePid⟩))
  | .removePid =>
    some ((sys.removePid (some daemon)).setDaemon daemon (some ⟨session, .removeSocket⟩))
  | .removeSocket => some ((sys.removeSocket (some daemon)).setDaemon daemon none)

def start (sys : System) (actor : Option Nat) (stage : Stage) : System :=
  { sys with
    next := sys.next + 1
    threads := Function.update sys.threads sys.next (some ⟨actor, stage⟩) }

end System

def step (sys : System) : Label → Option System
  | .join session =>
    if session ∈ sys.ended then none
    else some (sys.start (some sys.next) (.register session))
  -- The session of the caller is found in the marker.
  | .quit marker =>
    if marker ∈ sys.disk.markers ∧ marker.session ∉ sys.ended then
      some ((sys.leave marker.daemonPid).start (some marker.daemonPid) (.killRead .quit))
    else none
  | .who => some (sys.start none .listPeers)
  | .advance thread given =>
    match sys.threads thread with
    | none => none
    | some ⟨actor, stage⟩ => sys.advance thread actor given stage
  | .daemon daemon given =>
    match sys.daemons daemon with
    | none => none
    | some ⟨session, stage⟩ => sys.runDaemon daemon given session stage
  | .crash daemon =>
    match sys.daemons daemon with
    | none => none
    | some _ => some ((sys.setDaemon daemon none).leave daemon)
  | .endSession session =>
    some { sys with
      ended := session :: sys.ended
      holders := sys.holders.filter (·.session ≠ session) }
  | .deliver => some { sys with disk := { sys.disk with inbox := true } }

def initial : System where
  disk := ⟨none, none, none, [], false⟩
  lock := none
  daemons _ := none
  signaled := []
  ended := []
  next := 0
  threads _ := none
  holders := []
  hits := []

/-- The sessions that hold the name are one, and nothing else has removed a file of a holder. -/
structure Kept (sys : System) : Prop where
  once : ∀ first ∈ sys.holders, ∀ second ∈ sys.holders, first.session = second.session
  untouched : sys.hits = []

end AiTools.Irc.Presence
