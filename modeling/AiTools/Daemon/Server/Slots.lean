import AiTools.Lib.Keyed
import AiTools.Lib.Transition

/-!
Contract: the daemon's session map under concurrent `createOrAttach` calls.
-/

namespace AiTools.Daemon.Server.Slots

open AiTools.Lib.Keyed

/-- Sessions are numbered as they are spawned. -/
inductive SessionSlot where
  | pending
  | live (session : Nat)
deriving DecidableEq

structure Entry (Id : Type*) where
  id : Id
  slot : SessionSlot

/-- A reader thread: `stopped` has left its loop, `closing` has stored
`alive := false`, and `reaping` is past `close_history`. -/
inductive Reader where
  | reading
  | stopped
  | closing
  | reaping
  | returned

structure Session (Id : Type*) where
  id : Id
  alive : Bool
  reader : Reader

structure RpcError where
  code : Int
  message : String

def sessionNotFound : RpcError := ⟨-32004, "SessionNotFound"⟩

def internal (message : String) : RpcError := ⟨-32000, message⟩

/-- What `createOrAttach` answers: the warm snapshot of a session, or the news that
it has spawned one. -/
inductive Created where
  | warm (session : Nat)
  | fresh
  | coldRestore

/-- Where a `createOrAttach` call is. From `probing` to `publishing` it holds the
reservation that it has installed; `failed` has still to release it. -/
inductive CallStage where
  | resolving
  | waiting
  | attaching
  | snapshotting (session : Nat)
  | probing
  | spawning (cold : Bool)
  | failed (error : RpcError)
  | registering (session : Nat) (cold : Bool)
  | publishing (session : Nat) (cold persisted : Bool)
  | returned (reply : Except RpcError Created)

/-- `reservations` and `spawns` count what the call has done so far. -/
structure Call (Id : Type*) where
  sessionId : Id
  stage : CallStage
  reservations : Nat
  spawns : Nat

/-- `targets` are the sessions that `kill` calls have got and not signalled yet. -/
structure System (Id : Type*) where
  slots : Table (Entry.id : Entry Id → Id) := .empty
  sessions : Nat → Option (Session Id) := fun _ => none
  spawned : Nat := 0
  calls : Nat → Option (Call Id) := fun _ => none
  called : Nat := 0
  targets : List Nat := []
  killed : Nat → Bool := fun _ => false

variable {Id : Type*}

def System.initial : System Id := {}

namespace System

variable (sys : System Id)

def isAlive (session : Nat) : Bool :=
  match sys.sessions session with
  | some found => found.alive
  | none => false

def setCall (index : Nat) (call : Call Id) : System Id :=
  { sys with calls := Function.update sys.calls index (some call) }

def setSession (session : Nat) (found : Session Id) : System Id :=
  { sys with sessions := Function.update sys.sessions session (some found) }

variable [DecidableEq Id]

def lookup (id : Id) : Option SessionSlot := (sys.slots.find? id).map Entry.slot

def get (id : Id) : Option Nat :=
  match sys.lookup id with
  | some (.live session) => some session
  | _ => none

/-- The winner reserves the id, under the lock under which it has read the slot. -/
def reserve (index : Nat) (call : Call Id) : System Id :=
  { sys.setCall index
      { call with stage := .probing, reservations := call.reservations + 1 } with
    slots := sys.slots.put ⟨call.sessionId, .pending⟩ }

/-- `reap`, with its identity check. -/
def reap (session : Nat) (id : Id) : System Id :=
  if sys.lookup id = some (.live session) then
    { sys with slots := sys.slots.remove id }
  else sys

end System

/-! ## Steps -/

inductive Label (Id : Type*) where
  | request (id : Id)
  | resolve (index : Nat)
  | wake (index : Nat)
  | attach (index : Nat)
  | snapshot (index : Nat)
  | snapshotPanics (index : Nat) (message : String)
  /-- Whether the directory yields anything to restore. -/
  | probe (index : Nat) (cold : Bool)
  | spawn (index : Nat)
  | spawnFails (index : Nat) (message : String)
  | spawnPanics (index : Nat) (message : String)
  /-- Whether `register_history` took the directory. -/
  | register (index : Nat) (persisted : Bool)
  | publish (index : Nat)
  | release (index : Nat)
  | eof (session : Nat)
  | die (session : Nat)
  | close (session : Nat)
  | reap (session : Nat)
  | killGet (id : Id)
  | kill (session : Nat)

/-- The step that a call takes from where it is. -/
def System.atStage (sys : System Id) (index : Nat)
    (next : Call Id → CallStage → Option (System Id)) : Option (System Id) :=
  (sys.calls index).bind fun call => next call call.stage

/-- The step that a reader thread takes from where it is. -/
def System.atReader (sys : System Id) (session : Nat)
    (next : Session Id → Reader → Option (System Id)) : Option (System Id) :=
  (sys.sessions session).bind fun found => next found found.reader

section
variable [DecidableEq Id]

/-- `rpc_create_or_attach`. -/
def callStep (sys : System Id) : Label Id → Option (System Id)
  | .request id =>
    some { sys.setCall sys.called ⟨id, .resolving, 0, 0⟩ with
      called := sys.called + 1 }
  | .resolve index =>
    sys.atStage index fun
      | call, .resolving =>
        match sys.lookup call.sessionId with
        | some (.live session) =>
          if sys.isAlive session then
            some (sys.setCall index { call with stage := .attaching })
          else
            -- Dead and not reaped yet: the call takes the id over.
            some (sys.reserve index call)
        | some .pending => some (sys.setCall index { call with stage := .waiting })
        | none => some (sys.reserve index call)
      | _, _ => none
  | .wake index =>
    sys.atStage index fun
      | call, .waiting => some (sys.setCall index { call with stage := .resolving })
      | _, _ => none
  | .attach index =>
    sys.atStage index fun
      | call, .attaching =>
        match sys.get call.sessionId with
        | some session =>
          some (sys.setCall index { call with stage := .snapshotting session })
        | none =>
          some (sys.setCall index
            { call with stage := .returned (.error sessionNotFound) })
      | _, _ => none
  | .snapshot index =>
    sys.atStage index fun
      | call, .snapshotting session =>
        some (sys.setCall index { call with stage := .returned (.ok (.warm session)) })
      | _, _ => none
  | .snapshotPanics index message =>
    sys.atStage index fun
      | call, .snapshotting _ =>
        some (sys.setCall index
          { call with stage := .returned (.error (internal ("snapshot join: " ++ message))) })
      | _, _ => none
  | .probe index cold =>
    sys.atStage index fun
      | call, .probing => some (sys.setCall index { call with stage := .spawning cold })
      | _, _ => none
  | .spawn index =>
    sys.atStage index fun
      | call, .spawning cold =>
        some { (sys.setCall index { call with
            stage := .registering sys.spawned cold
            spawns := call.spawns + 1 }).setSession sys.spawned
              ⟨call.sessionId, true, .reading⟩ with
          spawned := sys.spawned + 1 }
      | _, _ => none
  | .spawnFails index message =>
    sys.atStage index fun
      | call, .spawning _ =>
        some (sys.setCall index { call with
          stage := .failed (internal message)
          spawns := call.spawns + 1 })
      | _, _ => none
  | .spawnPanics index message =>
    sys.atStage index fun
      | call, .spawning _ =>
        some (sys.setCall index { call with
          stage := .failed (internal ("spawn join: " ++ message))
          spawns := call.spawns + 1 })
      | _, _ => none
  | .register index persisted =>
    sys.atStage index fun
      | call, .registering session cold =>
        some (sys.setCall index
          { call with stage := .publishing session cold persisted })
      | _, _ => none
  | .publish index =>
    sys.atStage index fun
      | call, .publishing session cold persisted =>
        let reply : Created := if cold && persisted then .coldRestore else .fresh
        some { sys.setCall index { call with stage := .returned (.ok reply) } with
          slots := sys.slots.put ⟨call.sessionId, .live session⟩ }
      | _, _ => none
  | .release index =>
    sys.atStage index fun
      | call, .failed error =>
        some { sys.setCall index { call with stage := .returned (.error error) } with
          slots := sys.slots.remove call.sessionId }
      | _, _ => none
  | _ => none

/-- `run_reader` from the end of its loop on, and the `kill` calls. -/
def sessionStep (sys : System Id) : Label Id → Option (System Id)
  | .eof session =>
    sys.atReader session fun
      | found, .reading => some (sys.setSession session { found with reader := .stopped })
      | _, _ => none
  | .die session =>
    sys.atReader session fun
      | found, .stopped =>
        some (sys.setSession session { found with alive := false, reader := .closing })
      | _, _ => none
  | .close session =>
    sys.atReader session fun
      | found, .closing => some (sys.setSession session { found with reader := .reaping })
      | _, _ => none
  | .reap session =>
    sys.atReader session fun
      | found, .reaping =>
        some ((sys.reap session found.id).setSession session
          { found with reader := .returned })
      | _, _ => none
  | .killGet id =>
    match sys.get id with
    | some session => some { sys with targets := session :: sys.targets }
    | none => some sys
  | .kill session =>
    -- The child is signalled; its end reaches the reader as an EOF.
    if session ∈ sys.targets then
      some { sys with
        targets := sys.targets.erase session
        killed := Function.update sys.killed session true }
    else none
  | _ => none

def step (sys : System Id) (label : Label Id) : Option (System Id) :=
  match label with
  | .eof _ | .die _ | .close _ | .reap _ | .killGet _ | .kill _ => sessionStep sys label
  | _ => callStep sys label

/-! ## What a step can do -/

/-- What a call does while the map and the sessions stay as they are. -/
inductive Proceeds (sys : System Id) (call : Call Id) : Label Id → CallStage → Nat → Prop where
  | attach {index session : Nat} (resolving : call.stage = .resolving)
      (isLive : sys.lookup call.sessionId = some (.live session))
      (alive : sys.isAlive session = true) : Proceeds sys call (.resolve index) .attaching 0
  | wait {index : Nat} (resolving : call.stage = .resolving)
      (isPending : sys.lookup call.sessionId = some .pending) :
      Proceeds sys call (.resolve index) .waiting 0
  | wake {index : Nat} (waiting : call.stage = .waiting) :
      Proceeds sys call (.wake index) .resolving 0
  | get {index session : Nat} (attaching : call.stage = .attaching) :
      Proceeds sys call (.attach index) (.snapshotting session) 0
  | gone {index : Nat} (attaching : call.stage = .attaching) :
      Proceeds sys call (.attach index) (.returned (.error sessionNotFound)) 0
  | snapshot {index session : Nat} (snapshotting : call.stage = .snapshotting session) :
      Proceeds sys call (.snapshot index) (.returned (.ok (.warm session))) 0
  | snapshotPanics {index session : Nat} {message : String}
      (snapshotting : call.stage = .snapshotting session) :
      Proceeds sys call (.snapshotPanics index message)
        (.returned (.error (internal ("snapshot join: " ++ message)))) 0
  | probe {index : Nat} {cold : Bool} (probing : call.stage = .probing) :
      Proceeds sys call (.probe index cold) (.spawning cold) 0
  | spawnFails {index : Nat} {message : String} {cold : Bool}
      (spawning : call.stage = .spawning cold) :
      Proceeds sys call (.spawnFails index message) (.failed (internal message)) 1
  | spawnPanics {index : Nat} {message : String} {cold : Bool}
      (spawning : call.stage = .spawning cold) :
      Proceeds sys call (.spawnPanics index message)
        (.failed (internal ("spawn join: " ++ message))) 1
  | register {index session : Nat} {cold persisted : Bool}
      (registering : call.stage = .registering session cold) :
      Proceeds sys call (.register index persisted) (.publishing session cold persisted) 0

/-- What a reader thread does while it is not reaping. -/
inductive Reads : Session Id → Session Id → Prop where
  | eof {id : Id} {alive : Bool} : Reads ⟨id, alive, .reading⟩ ⟨id, alive, .stopped⟩
  | die {id : Id} {alive : Bool} : Reads ⟨id, alive, .stopped⟩ ⟨id, false, .closing⟩
  | close {id : Id} {alive : Bool} : Reads ⟨id, alive, .closing⟩ ⟨id, alive, .reaping⟩

/-- The steps, with those that only move one call or one reader taken together. -/
inductive Moves (sys : System Id) : Label Id → System Id → Prop where
  | request {id : Id} :
      Moves sys (.request id) { sys.setCall sys.called ⟨id, .resolving, 0, 0⟩ with
        called := sys.called + 1 }
  | proceed {index : Nat} {call : Call Id} {label : Label Id} {stage : CallStage} {spawns : Nat}
      (isCall : sys.calls index = some call) (proceeds : Proceeds sys call label stage spawns) :
      Moves sys label
        (sys.setCall index { call with stage := stage, spawns := call.spawns + spawns })
  | reserve {index : Nat} {call : Call Id} (isCall : sys.calls index = some call)
      (resolving : call.stage = .resolving)
      (isFree : ∀ slot, sys.lookup call.sessionId = some slot →
        ∃ session, slot = .live session ∧ sys.isAlive session = false) :
      Moves sys (.resolve index) (sys.reserve index call)
  | spawn {index : Nat} {call : Call Id} {cold : Bool} (isCall : sys.calls index = some call)
      (spawning : call.stage = .spawning cold) :
      Moves sys (.spawn index)
        { (sys.setCall index { call with
            stage := .registering sys.spawned cold
            spawns := call.spawns + 1 }).setSession sys.spawned
              ⟨call.sessionId, true, .reading⟩ with
          spawned := sys.spawned + 1 }
  | publish {index session : Nat} {call : Call Id} {cold persisted : Bool}
      (isCall : sys.calls index = some call)
      (publishing : call.stage = .publishing session cold persisted) (reply : Created) :
      Moves sys (.publish index)
        { sys.setCall index { call with stage := .returned (.ok reply) } with
          slots := sys.slots.put ⟨call.sessionId, .live session⟩ }
  | release {index : Nat} {call : Call Id} {error : RpcError}
      (isCall : sys.calls index = some call) (failed : call.stage = .failed error) :
      Moves sys (.release index)
        { sys.setCall index { call with stage := .returned (.error error) } with
          slots := sys.slots.remove call.sessionId }
  | read {session : Nat} {found later : Session Id} {label : Label Id}
      (isSession : sys.sessions session = some found) (reads : Reads found later) :
      Moves sys label (sys.setSession session later)
  | reap {session : Nat} {found : Session Id} (isSession : sys.sessions session = some found)
      (reaping : found.reader = .reaping) :
      Moves sys (.reap session)
        ((sys.reap session found.id).setSession session { found with reader := .returned })
  | kill {label : Label Id} {targets : List Nat} {killed : Nat → Bool} :
      Moves sys label { sys with targets := targets, killed := killed }

variable {index : Nat} {label : Label Id}

omit [DecidableEq Id] in
theorem atStage_eq_some {sys next : System Id} {run : Call Id → CallStage → Option (System Id)}
    (ran : sys.atStage index run = some next) :
    ∃ call, sys.calls index = some call ∧ run call call.stage = some next :=
  Option.bind_eq_some_iff.mp ran

omit [DecidableEq Id] in
theorem atReader_eq_some {sys next : System Id} {session : Nat}
    {run : Session Id → Reader → Option (System Id)}
    (ran : sys.atReader session run = some next) :
    ∃ found, sys.sessions session = some found ∧ run found found.reader = some next :=
  Option.bind_eq_some_iff.mp ran

theorem resolve_moves {sys next : System Id}
    (ran : callStep sys (.resolve index) = some next) :
    Moves sys (.resolve index) next := by
  unfold callStep at ran
  obtain ⟨call, isCall, ran⟩ := atStage_eq_some ran
  split at ran
  case h_2 => cases ran
  case h_1 resolving =>
    split at ran
    case h_1 session isLive =>
      split at ran
      case isTrue alive =>
        cases ran
        exact .proceed isCall (.attach resolving isLive alive)
      case isFalse dead =>
        cases ran
        apply Moves.reserve isCall resolving
        intro slot isSlot
        rw [isLive] at isSlot
        cases isSlot
        exact ⟨session, rfl, eq_false_of_ne_true dead⟩
    case h_2 isPending =>
      cases ran
      exact .proceed isCall (.wait resolving isPending)
    case h_3 isFree =>
      cases ran
      apply Moves.reserve isCall resolving
      intro slot isSlot
      rw [isFree] at isSlot
      cases isSlot

theorem attach_moves {sys next : System Id}
    (ran : callStep sys (.attach index) = some next) :
    Moves sys (.attach index) next := by
  unfold callStep at ran
  obtain ⟨call, isCall, ran⟩ := atStage_eq_some ran
  split at ran
  case h_2 => cases ran
  case h_1 attaching =>
    split at ran
    case h_1 =>
      cases ran
      exact .proceed isCall (.get attaching)
    case h_2 =>
      cases ran
      exact .proceed isCall (.gone attaching)

theorem callStep_moves {sys next : System Id} (ran : callStep sys label = some next) :
    Moves sys label next := by
  unfold callStep at ran
  split at ran
  case h_1 =>
    cases ran
    exact .request
  case h_2 => exact resolve_moves ran
  case h_4 => exact attach_moves ran
  case h_14 => cases ran
  -- Each of the other steps is taken at one stage.
  all_goals
    obtain ⟨call, isCall, ran⟩ := atStage_eq_some ran
    split at ran
    case h_2 => cases ran
    cases ran
  next waiting => exact .proceed isCall (.wake waiting)
  next snapshotting => exact .proceed isCall (.snapshot snapshotting)
  next snapshotting => exact .proceed isCall (.snapshotPanics snapshotting)
  next probing => exact .proceed isCall (.probe probing)
  next spawning => exact .spawn isCall spawning
  next spawning => exact .proceed isCall (.spawnFails spawning)
  next spawning => exact .proceed isCall (.spawnPanics spawning)
  next registering => exact .proceed isCall (.register registering)
  next publishing => exact .publish isCall publishing _
  next failed => exact .release isCall failed

theorem sessionStep_moves {sys next : System Id}
    (ran : sessionStep sys label = some next) : Moves sys label next := by
  unfold sessionStep at ran
  split at ran
  case h_1 =>
    obtain ⟨⟨id, alive, reader⟩, isSession, ran⟩ := atReader_eq_some ran
    cases reader with
    | reading =>
      cases ran
      exact .read isSession .eof
    | stopped | closing | reaping | returned => cases ran
  case h_2 =>
    obtain ⟨⟨id, alive, reader⟩, isSession, ran⟩ := atReader_eq_some ran
    cases reader with
    | stopped =>
      cases ran
      exact .read isSession .die
    | reading | closing | reaping | returned => cases ran
  case h_3 =>
    obtain ⟨⟨id, alive, reader⟩, isSession, ran⟩ := atReader_eq_some ran
    cases reader with
    | closing =>
      cases ran
      exact .read isSession .close
    | reading | stopped | reaping | returned => cases ran
  case h_4 =>
    obtain ⟨⟨id, alive, reader⟩, isSession, ran⟩ := atReader_eq_some ran
    cases reader with
    | reaping =>
      cases ran
      exact .reap isSession rfl
    | reading | stopped | closing | returned => cases ran
  case h_5 =>
    split at ran
    case h_1 =>
      cases ran
      exact .kill
    case h_2 =>
      cases ran
      exact @Moves.kill _ _ sys _ sys.targets sys.killed
  case h_6 =>
    split at ran
    case isFalse => cases ran
    case isTrue =>
      cases ran
      exact .kill
  case h_7 => cases ran

theorem step_moves {sys next : System Id} (ran : step sys label = some next) :
    Moves sys label next := by
  unfold step at ran
  split at ran
  all_goals first
    | exact sessionStep_moves ran
    | exact callStep_moves ran

end

end AiTools.Daemon.Server.Slots
