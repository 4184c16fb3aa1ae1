import AiTools.Lib.Keyed
import AiTools.Lib.Transition

/-!
Contract: the correlated requests of the daemon client and the connections that
carry them.

The daemon is any sequence of reply lines, also of ids that were never sent.
-/

namespace AiTools.Client.Requests

open AiTools.Lib.Keyed
open Function (update)

/-- The errors that `request_raw` can return. -/
inductive ClientError (RpcError : Type*) where
  | notConnected
  | connectionLost
  | timeout (method : String) (ms : Nat)
  | rpc (error : RpcError)
  | protocol (message : String)

/-- What `request_raw` returns. -/
abbrev Outcome (Value RpcError : Type*) := Except (ClientError RpcError) Value

structure RpcReply (Value RpcError : Type*) where
  id : Nat
  result : Option Value
  error : Option RpcError

variable {Value RpcError : Type*}

/-- What the control reader makes of a reply. The default value is JSON's null. -/
def RpcReply.outcome [Inhabited Value] (reply : RpcReply Value RpcError) :
    Outcome Value RpcError :=
  match reply.error with
  | some error => .error (.rpc error)
  | none => .ok (reply.result.getD default)

/-- `tx` names the request whose oneshot channel the sender belongs to. -/
structure Pending where
  tx : Nat
  generation : Nat
deriving DecidableEq

structure Entry where
  id : Nat
  pending : Pending
deriving DecidableEq

/-- The oneshot channel of a request: the value sent, and which ends are left. -/
structure Oneshot (Value RpcError : Type*) where
  value : Option (Outcome Value RpcError)
  sender : Bool
  receiver : Bool

def Oneshot.channel : Oneshot Value RpcError := ⟨none, true, true⟩

/-- Sending uses the sender up. Nothing arrives when the receiver is gone. -/
def Oneshot.send (channel : Oneshot Value RpcError) (outcome : Outcome Value RpcError) :
    Oneshot Value RpcError where
  value := if channel.receiver then some outcome else channel.value
  sender := false
  receiver := channel.receiver

def Oneshot.dropSender (channel : Oneshot Value RpcError) : Oneshot Value RpcError :=
  { channel with sender := false }

def Oneshot.dropReceiver (channel : Oneshot Value RpcError) : Oneshot Value RpcError :=
  { channel with receiver := false }

/-- Where a call of `request_raw` is: `locked` and `inserted` are under the state
lock, with the control handle read there, and `expired` is past its deadline. -/
inductive CallStage where
  | drawn
  | locked (control : Nat)
  | inserted (control : Nat)
  | awaiting
  | expired
  | returned
deriving DecidableEq

/-- `sentOn` is the generation that the call has stamped its entry with. -/
structure Call where
  method : String
  timeout : Nat
  stage : CallStage
  sentOn : Option Nat

/-- A control reader: `routing` has removed an entry and not sent to it yet. -/
inductive Reader (Value RpcError : Type*) where
  | unspawned
  | reading
  | routing (pending : Pending) (outcome : Outcome Value RpcError)
  | ended

/-- Who calls `handle_disconnect`: a reader task of a connection at its end, or
`reset_connection`. -/
inductive Caller where
  | controlReader (generation : Nat)
  | streamReader (generation : Nat)
  | resetConnection (index : Nat)
deriving DecidableEq

/-- A call of `handle_disconnect`: `ignored` when one of its guards returned,
`draining` between its sections under the state lock and the pending lock. -/
inductive HandlerStage where
  | called
  | ignored
  | draining
  | rejecting (rejected : List Pending)
  | handled
deriving DecidableEq

structure Handler where
  generation : Nat
  stage : HandlerStage
deriving DecidableEq

/-- The holder of the connect lock: `numbered` has drawn a generation and
`published` has set the control handle, before the connection's tasks run. -/
inductive Connecting where
  | idle
  | greeting
  | numbered (generation : Nat)
  | published (generation : Nat)
  | resyncing

/-- `controlTx` is the generation whose writer the control handle feeds. `replies`
are the reply lines read so far, and `outcomes` what the callers were given. -/
structure System (Value RpcError : Type*) where
  connected : Bool := false
  controlTx : Option Nat := none
  stateLock : Option Nat := none
  generation : Nat := 0
  connecting : Connecting := .idle
  writerEnded : Nat → Bool := fun _ => false
  readers : Nat → Reader Value RpcError
  handlers : Caller → Option Handler := fun _ => none
  pending : Table Entry.id := .empty
  requestCounter : Nat := 0
  calls : Nat → Option Call := fun _ => none
  channels : Nat → Oneshot Value RpcError
  replies : List (RpcReply Value RpcError) := []
  outcomes : Nat → List (Outcome Value RpcError) := fun _ => []

def System.initial : System Value RpcError where
  readers := fun _ => .unspawned
  channels := fun _ => .channel

namespace System

variable (sys : System Value RpcError)

def setStage (id : Nat) (call : Call) (stage : CallStage) : System Value RpcError :=
  { sys with calls := update sys.calls id (some { call with stage := stage }) }

def setHandler (caller : Caller) (handler : Handler) : System Value RpcError :=
  { sys with handlers := update sys.handlers caller (some handler) }

def setReader (generation : Nat) (reader : Reader Value RpcError) : System Value RpcError :=
  { sys with readers := update sys.readers generation reader }

def setChannel (id : Nat) (channel : Oneshot Value RpcError) : System Value RpcError :=
  { sys with channels := update sys.channels id channel }

/-- Sends over the oneshot of an entry that has left the pending map. -/
def send (pending : Pending) (outcome : Outcome Value RpcError) : System Value RpcError :=
  sys.setChannel pending.tx ((sys.channels pending.tx).send outcome)

/-- Removes the entry of the id and drops its sender, if there is one. -/
def discard (id : Nat) : System Value RpcError :=
  { sys with
    pending := sys.pending.remove id
    channels :=
      match sys.pending.find? id with
      | none => sys.channels
      | some entry =>
        update sys.channels entry.pending.tx
          (sys.channels entry.pending.tx).dropSender }

/-- The step that a request takes from where it is. -/
def atStage (id : Nat) (next : Call → CallStage → Option (System Value RpcError)) :
    Option (System Value RpcError) :=
  (sys.calls id).bind fun call => next call call.stage

/-- `request_raw` returns. -/
def complete (id : Nat) (call : Call) (outcome : Outcome Value RpcError) :
    System Value RpcError :=
  { (sys.setStage id call .returned).setChannel id (sys.channels id).dropReceiver with
    outcomes := update sys.outcomes id (sys.outcomes id ++ [outcome]) }

end System

/-! ## Steps -/

inductive Label (Value RpcError : Type*) where
  | connect
  | greetingFails
  | number
  | publish
  | spawn
  | resynced
  | request (method : String) (timeout : Nat)
  | encodingFails (id : Nat) (message : String)
  | lock (id : Nat)
  | insert (id : Nat)
  | send (id : Nat)
  | receive (id : Nat)
  | lost (id : Nat)
  | expire (id : Nat)
  | reclaim (id : Nat)
  | read (generation : Nat) (reply : RpcReply Value RpcError)
  | deliver (generation : Nat)
  | writerEnds (generation : Nat)
  | disconnect (caller : Caller)
  | tearDown (caller : Caller)
  | drain (caller : Caller)
  | reject (caller : Caller) (pending : Pending)
  | finish (caller : Caller)

/-- `do_connect` and the resync after it, under the connect lock. -/
def connectStep (sys : System Value RpcError) :
    Label Value RpcError → Option (System Value RpcError)
  | .connect =>
    match sys.connecting with
    | .idle =>
      if sys.connected = false ∧ sys.stateLock = none then
        some { sys with connecting := .greeting }
      else none
    | _ => none
  | .greetingFails =>
    match sys.connecting with
    | .greeting => some { sys with connecting := .idle }
    | _ => none
  | .number =>
    match sys.connecting with
    | .greeting =>
      some { sys with
        generation := sys.generation + 1
        connecting := .numbered (sys.generation + 1) }
    | _ => none
  | .publish =>
    match sys.connecting with
    | .numbered generation =>
      if sys.stateLock = none then
        some { sys with
          connected := true
          controlTx := some generation
          connecting := .published generation }
      else none
    | _ => none
  | .spawn =>
    match sys.connecting with
    | .published generation =>
      some { sys.setReader generation .reading with connecting := .resyncing }
    | _ => none
  | .resynced =>
    match sys.connecting with
    | .resyncing => some { sys with connecting := .idle }
    | _ => none
  | _ => none

/-- `request_raw`. -/
def requestStep (sys : System Value RpcError) :
    Label Value RpcError → Option (System Value RpcError)
  | .request method timeout =>
    let id := sys.requestCounter + 1
    some { sys.setChannel id .channel with
      requestCounter := id
      calls := update sys.calls id (some ⟨method, timeout, .drawn, none⟩) }
  | .encodingFails id message =>
    sys.atStage id fun
      | call, .drawn => some (sys.complete id call (.error (.protocol message)))
      | _, _ => none
  | .lock id =>
    sys.atStage id fun
      | call, .drawn =>
        match sys.stateLock, sys.controlTx with
        | none, none => some (sys.complete id call (.error .notConnected))
        | none, some control =>
          some { sys.setStage id call (.locked control) with stateLock := some id }
        | some _, _ => none
      | _, _ => none
  | .insert id =>
    sys.atStage id fun
      | call, .locked control =>
        some { (sys.discard id).setStage id
            { call with sentOn := some sys.generation } (.inserted control) with
          pending := (sys.discard id).pending.put ⟨id, ⟨id, sys.generation⟩⟩ }
      | _, _ => none
  | .send id =>
    sys.atStage id fun
      | call, .inserted control =>
        -- The queue takes the line unless the writer task has dropped its end.
        if sys.writerEnded control then
          some { (sys.discard id).complete id call (.error .notConnected) with
            stateLock := none }
        else
          some { sys.setStage id call .awaiting with stateLock := none }
      | _, _ => none
  | .receive id =>
    sys.atStage id fun
      | call, .awaiting =>
        match (sys.channels id).value with
        | some outcome => some (sys.complete id call outcome)
        | none => none
      | _, _ => none
  | .lost id =>
    sys.atStage id fun
      | call, .awaiting =>
        match (sys.channels id).value, (sys.channels id).sender with
        | none, false => some (sys.complete id call (.error .connectionLost))
        | _, _ => none
      | _, _ => none
  | .expire id =>
    sys.atStage id fun
      | call, .awaiting =>
        some ((sys.setStage id call .expired).setChannel id
          (sys.channels id).dropReceiver)
      | _, _ => none
  | .reclaim id =>
    sys.atStage id fun
      | call, .expired =>
        some ((sys.discard id).complete id call
          (.error (.timeout call.method call.timeout)))
      | _, _ => none
  | _ => none

/-- The tasks of a connection. -/
def readerStep [Inhabited Value] (sys : System Value RpcError) :
    Label Value RpcError → Option (System Value RpcError)
  | .read generation reply =>
    match sys.readers generation with
    | .reading =>
      match sys.pending.find? reply.id with
      | none => some { sys with replies := sys.replies ++ [reply] }
      | some entry =>
        some { sys.setReader generation (.routing entry.pending reply.outcome) with
          pending := sys.pending.remove reply.id
          replies := sys.replies ++ [reply] }
    | _ => none
  | .deliver generation =>
    match sys.readers generation with
    | .routing pending outcome =>
      some ((sys.send pending outcome).setReader generation .reading)
    | _ => none
  | .writerEnds generation =>
    match sys.readers generation with
    | .unspawned => none
    | _ =>
      some { sys with
        writerEnded := update sys.writerEnded generation true }
  | _ => none

/-- `handle_disconnect` and its callers. -/
def handlerStep (sys : System Value RpcError) :
    Label Value RpcError → Option (System Value RpcError)
  | .disconnect caller =>
    match sys.handlers caller with
    | some _ => none
    | none =>
      match caller with
      | .controlReader generation =>
        match sys.readers generation with
        | .reading =>
          some ((sys.setReader generation .ended).setHandler caller
            ⟨generation, .called⟩)
        | _ => none
      | .streamReader generation =>
        match sys.readers generation with
        | .unspawned => none
        | _ => some (sys.setHandler caller ⟨generation, .called⟩)
      | .resetConnection _ =>
        some (sys.setHandler caller ⟨sys.generation, .called⟩)
  | .tearDown caller =>
    match sys.handlers caller, sys.stateLock with
    | some ⟨generation, .called⟩, none =>
      if sys.generation ≠ generation then
        some (sys.setHandler caller ⟨generation, .ignored⟩)
      else if sys.connected = false then
        some (sys.setHandler caller ⟨generation, .ignored⟩)
      else
        some { sys.setHandler caller ⟨generation, .draining⟩ with
          connected := false
          controlTx := none }
    | _, _ => none
  | .drain caller =>
    match sys.handlers caller with
    | some ⟨generation, .draining⟩ =>
      let bound := sys.pending.entries.filter (·.pending.generation = generation)
      some { sys.setHandler caller ⟨generation, .rejecting (bound.map Entry.pending)⟩ with
        pending := sys.pending.filter (·.pending.generation ≠ generation) }
    | _ => none
  | .reject caller pending =>
    match sys.handlers caller with
    | some ⟨generation, .rejecting rejected⟩ =>
      -- The map has no order: any of the rejected entries can be next.
      if pending ∈ rejected then
        some ((sys.send pending (.error .connectionLost)).setHandler caller
          ⟨generation, .rejecting (rejected.erase pending)⟩)
      else none
    | _ => none
  | .finish caller =>
    match sys.handlers caller with
    | some ⟨generation, .rejecting []⟩ =>
      some (sys.setHandler caller ⟨generation, .handled⟩)
    | _ => none
  | _ => none

/-- The request that takes the step. -/
def Label.owner : Label Value RpcError → Option Nat
  | .encodingFails id _ => some id
  | .lock id => some id
  | .insert id => some id
  | .send id => some id
  | .receive id => some id
  | .lost id => some id
  | .expire id => some id
  | .reclaim id => some id
  | _ => none

/-- The call of `handle_disconnect` that takes the step. -/
def Label.caller : Label Value RpcError → Option Caller
  | .tearDown caller => some caller
  | .drain caller => some caller
  | .reject caller _ => some caller
  | .finish caller => some caller
  | _ => none

def step [Inhabited Value] (sys : System Value RpcError)
    (label : Label Value RpcError) : Option (System Value RpcError) :=
  match label with
  | .connect | .greetingFails | .number | .publish | .spawn | .resynced =>
    connectStep sys label
  | .request _ _ | .encodingFails _ _ | .lock _ | .insert _ | .send _ | .receive _ | .lost _
  | .expire _ | .reclaim _ => requestStep sys label
  | .read _ _ | .deliver _ | .writerEnds _ => readerStep sys label
  | .disconnect _ | .tearDown _ | .drain _ | .reject _ _ | .finish _ =>
    handlerStep sys label

/-! ## What a step can do -/

/-- The steps, one for every branch. -/
inductive Moves [Inhabited Value] (sys : System Value RpcError) :
    Label Value RpcError → System Value RpcError → Prop where
  | connect (idle : sys.connecting = .idle) (down : sys.connected = false) :
      Moves sys .connect { sys with connecting := .greeting }
  | greetingFails (greeting : sys.connecting = .greeting) :
      Moves sys .greetingFails { sys with connecting := .idle }
  | number (greeting : sys.connecting = .greeting) :
      Moves sys .number { sys with
        generation := sys.generation + 1
        connecting := .numbered (sys.generation + 1) }
  | publish {generation : Nat} (numbered : sys.connecting = .numbered generation)
      (free : sys.stateLock = none) :
      Moves sys .publish { sys with
        connected := true
        controlTx := some generation
        connecting := .published generation }
  | spawn {generation : Nat} (published : sys.connecting = .published generation) :
      Moves sys .spawn
        { sys.setReader generation .reading with connecting := .resyncing }
  | resynced (resyncing : sys.connecting = .resyncing) :
      Moves sys .resynced { sys with connecting := .idle }
  | request {method : String} {timeout : Nat} : Moves sys (.request method timeout)
        { sys.setChannel (sys.requestCounter + 1) .channel with
          requestCounter := sys.requestCounter + 1
          calls := update sys.calls (sys.requestCounter + 1)
            (some ⟨method, timeout, .drawn, none⟩) }
  | encodingFails {id : Nat} {message : String} {call : Call}
      (isCall : sys.calls id = some call) (drawn : call.stage = .drawn) :
      Moves sys (.encodingFails id message)
        (sys.complete id call (.error (.protocol message)))
  | refuse {id : Nat} {call : Call} (isCall : sys.calls id = some call)
      (drawn : call.stage = .drawn) (free : sys.stateLock = none)
      (down : sys.controlTx = none) :
      Moves sys (.lock id) (sys.complete id call (.error .notConnected))
  | lock {id : Nat} {call : Call} {control : Nat} (isCall : sys.calls id = some call)
      (drawn : call.stage = .drawn) (free : sys.stateLock = none)
      (up : sys.controlTx = some control) :
      Moves sys (.lock id)
        { sys.setStage id call (.locked control) with stateLock := some id }
  | insert {id : Nat} {call : Call} {control : Nat} (isCall : sys.calls id = some call)
      (locked : call.stage = .locked control) :
      Moves sys (.insert id)
        { (sys.discard id).setStage id { call with sentOn := some sys.generation }
            (.inserted control) with
          pending := (sys.discard id).pending.put ⟨id, ⟨id, sys.generation⟩⟩ }
  | bounce {id : Nat} {call : Call} {control : Nat} (isCall : sys.calls id = some call)
      (inserted : call.stage = .inserted control) (ended : sys.writerEnded control = true) :
      Moves sys (.send id)
        { (sys.discard id).complete id call (.error .notConnected) with stateLock := none }
  | send {id : Nat} {call : Call} {control : Nat} (isCall : sys.calls id = some call)
      (inserted : call.stage = .inserted control) :
      Moves sys (.send id) { sys.setStage id call .awaiting with stateLock := none }
  | receive {id : Nat} {call : Call} {outcome : Outcome Value RpcError}
      (isCall : sys.calls id = some call) (awaiting : call.stage = .awaiting)
      (ready : (sys.channels id).value = some outcome) :
      Moves sys (.receive id) (sys.complete id call outcome)
  | lost {id : Nat} {call : Call} (isCall : sys.calls id = some call)
      (awaiting : call.stage = .awaiting) (empty : (sys.channels id).value = none)
      (dropped : (sys.channels id).sender = false) :
      Moves sys (.lost id) (sys.complete id call (.error .connectionLost))
  | expire {id : Nat} {call : Call} (isCall : sys.calls id = some call)
      (awaiting : call.stage = .awaiting) :
      Moves sys (.expire id)
        ((sys.setStage id call .expired).setChannel id (sys.channels id).dropReceiver)
  | reclaim {id : Nat} {call : Call} (isCall : sys.calls id = some call)
      (expired : call.stage = .expired) :
      Moves sys (.reclaim id)
        ((sys.discard id).complete id call (.error (.timeout call.method call.timeout)))
  | miss {generation : Nat} {reply : RpcReply Value RpcError}
      (reading : sys.readers generation = .reading) :
      Moves sys (.read generation reply) { sys with replies := sys.replies ++ [reply] }
  | read {generation : Nat} {reply : RpcReply Value RpcError} {entry : Entry}
      (reading : sys.readers generation = .reading)
      (found : sys.pending.find? reply.id = some entry) :
      Moves sys (.read generation reply)
        { sys.setReader generation (.routing entry.pending reply.outcome) with
          pending := sys.pending.remove reply.id
          replies := sys.replies ++ [reply] }
  | deliver {generation : Nat} {pending : Pending} {outcome : Outcome Value RpcError}
      (routing : sys.readers generation = .routing pending outcome) :
      Moves sys (.deliver generation)
        ((sys.send pending outcome).setReader generation .reading)
  | writerEnds {generation : Nat} :
      Moves sys (.writerEnds generation) { sys with
        writerEnded := update sys.writerEnded generation true }
  | endControl {generation : Nat} (fresh : sys.handlers (.controlReader generation) = none)
      (reading : sys.readers generation = .reading) :
      Moves sys (.disconnect (.controlReader generation))
        ((sys.setReader generation .ended).setHandler (.controlReader generation)
          ⟨generation, .called⟩)
  | endStream {generation : Nat} (fresh : sys.handlers (.streamReader generation) = none) :
      Moves sys (.disconnect (.streamReader generation))
        (sys.setHandler (.streamReader generation) ⟨generation, .called⟩)
  | reset {index : Nat} (fresh : sys.handlers (.resetConnection index) = none) :
      Moves sys (.disconnect (.resetConnection index))
        (sys.setHandler (.resetConnection index) ⟨sys.generation, .called⟩)
  | ignore {caller : Caller} {generation : Nat}
      (called : sys.handlers caller = some ⟨generation, .called⟩) :
      Moves sys (.tearDown caller) (sys.setHandler caller ⟨generation, .ignored⟩)
  | tearDown {caller : Caller}
      (called : sys.handlers caller = some ⟨sys.generation, .called⟩)
      (free : sys.stateLock = none) (up : sys.connected = true) :
      Moves sys (.tearDown caller)
        { sys.setHandler caller ⟨sys.generation, .draining⟩ with
          connected := false
          controlTx := none }
  | drain {caller : Caller} {generation : Nat}
      (draining : sys.handlers caller = some ⟨generation, .draining⟩) :
      Moves sys (.drain caller)
        { sys.setHandler caller ⟨generation, .rejecting
            ((sys.pending.entries.filter (·.pending.generation = generation)).map
              Entry.pending)⟩ with
          pending := sys.pending.filter (·.pending.generation ≠ generation) }
  | reject {caller : Caller} {generation : Nat} {rejected : List Pending} {pending : Pending}
      (rejecting : sys.handlers caller = some ⟨generation, .rejecting rejected⟩)
      (member : pending ∈ rejected) :
      Moves sys (.reject caller pending)
        ((sys.send pending (.error .connectionLost)).setHandler caller
          ⟨generation, .rejecting (rejected.erase pending)⟩)
  | finish {caller : Caller} {generation : Nat}
      (rejecting : sys.handlers caller = some ⟨generation, .rejecting []⟩) :
      Moves sys (.finish caller) (sys.setHandler caller ⟨generation, .handled⟩)

theorem atStage_eq_some {sys next : System Value RpcError} {id : Nat}
    {run : Call → CallStage → Option (System Value RpcError)}
    (ran : sys.atStage id run = some next) :
    ∃ call, sys.calls id = some call ∧ run call call.stage = some next :=
  Option.bind_eq_some_iff.mp ran

section
variable [Inhabited Value] {label : Label Value RpcError}

theorem connectStep_moves {sys next : System Value RpcError}
    (ran : connectStep sys label = some next) : Moves sys label next := by
  unfold connectStep at ran
  split at ran
  case h_1 =>
    split at ran
    case h_2 => cases ran
    case h_1 idle =>
      split at ran
      case isFalse => cases ran
      case isTrue down =>
        cases ran
        exact .connect idle down.1
  case h_2 =>
    split at ran
    case h_2 => cases ran
    case h_1 greeting =>
      cases ran
      exact .greetingFails greeting
  case h_3 =>
    split at ran
    case h_2 => cases ran
    case h_1 greeting =>
      cases ran
      exact .number greeting
  case h_4 =>
    split at ran
    case h_2 => cases ran
    case h_1 numbered =>
      split at ran
      case isFalse => cases ran
      case isTrue free =>
        cases ran
        exact .publish numbered free
  case h_5 =>
    split at ran
    case h_2 => cases ran
    case h_1 published =>
      cases ran
      exact .spawn published
  case h_6 =>
    split at ran
    case h_2 => cases ran
    case h_1 resyncing =>
      cases ran
      exact .resynced resyncing
  case h_7 => cases ran

theorem requestStep_moves {sys next : System Value RpcError}
    (ran : requestStep sys label = some next) : Moves sys label next := by
  unfold requestStep at ran
  split at ran
  case h_1 =>
    cases ran
    exact .request
  case h_10 => cases ran
  -- Each of the other steps is taken at one stage.
  all_goals
    obtain ⟨call, isCall, ran⟩ := atStage_eq_some ran
    split at ran
    case h_2 => cases ran
  next drawn =>
    cases ran
    exact .encodingFails isCall drawn
  next drawn =>
    split at ran
    case h_1 free down =>
      cases ran
      exact .refuse isCall drawn free down
    case h_2 free up =>
      cases ran
      exact .lock isCall drawn free up
    case h_3 => cases ran
  next locked =>
    cases ran
    exact .insert isCall locked
  next inserted =>
    split at ran
    case isTrue ended =>
      cases ran
      exact .bounce isCall inserted ended
    case isFalse =>
      cases ran
      exact .send isCall inserted
  next awaiting =>
    split at ran
    case h_2 => cases ran
    case h_1 ready =>
      cases ran
      exact .receive isCall awaiting ready
  next awaiting =>
    split at ran
    case h_2 => cases ran
    case h_1 empty dropped =>
      cases ran
      exact .lost isCall awaiting empty dropped
  next awaiting =>
    cases ran
    exact .expire isCall awaiting
  next expired =>
    cases ran
    exact .reclaim isCall expired

theorem readerStep_moves {sys next : System Value RpcError}
    (ran : readerStep sys label = some next) : Moves sys label next := by
  unfold readerStep at ran
  split at ran
  case h_1 =>
    split at ran
    case h_2 => cases ran
    case h_1 reading =>
      split at ran
      case h_1 =>
        cases ran
        exact .miss reading
      case h_2 found =>
        cases ran
        exact .read reading found
  case h_2 =>
    split at ran
    case h_2 => cases ran
    case h_1 routing =>
      cases ran
      exact .deliver routing
  case h_3 =>
    split at ran
    case h_1 => cases ran
    case h_2 =>
      cases ran
      exact .writerEnds
  case h_4 => cases ran

theorem handlerStep_moves {sys next : System Value RpcError}
    (ran : handlerStep sys label = some next) : Moves sys label next := by
  unfold handlerStep at ran
  split at ran
  case h_1 caller =>
    split at ran
    case h_1 => cases ran
    case h_2 fresh =>
      split at ran
      case h_1 =>
        split at ran
        case h_2 => cases ran
        case h_1 reading =>
          cases ran
          exact .endControl fresh reading
      case h_2 =>
        split at ran
        case h_1 => cases ran
        case h_2 =>
          cases ran
          exact .endStream fresh
      case h_3 =>
        cases ran
        exact .reset fresh
  case h_2 caller =>
    split at ran
    case h_2 => cases ran
    case h_1 called free =>
      split at ran
      case isTrue =>
        cases ran
        exact .ignore called
      case isFalse current =>
        split at ran
        case isTrue =>
          cases ran
          exact .ignore called
        case isFalse up =>
          cases ran
          have same := not_not.mp current
          subst same
          exact .tearDown called free (eq_true_of_ne_false up)
  case h_3 caller =>
    split at ran
    case h_2 => cases ran
    case h_1 draining =>
      cases ran
      exact .drain draining
  case h_4 caller pending =>
    split at ran
    case h_2 => cases ran
    case h_1 rejecting =>
      split at ran
      case isFalse => cases ran
      case isTrue member =>
        cases ran
        exact .reject rejecting member
  case h_5 caller =>
    split at ran
    case h_2 => cases ran
    case h_1 rejecting =>
      cases ran
      exact .finish rejecting
  case h_6 => cases ran

theorem step_moves {sys next : System Value RpcError} (ran : step sys label = some next) :
    Moves sys label next := by
  unfold step at ran
  split at ran
  all_goals first
    | exact connectStep_moves ran
    | exact requestStep_moves ran
    | exact readerStep_moves ran
    | exact handlerStep_moves ran

end

end AiTools.Client.Requests
