import AiTools.Lib.Transition
import Mathlib.Data.List.Basic

/-!
Contract: the exits that the daemon client reports to its subscribers.

Owns the sessions, of which one after the other may have an id: `createOrAttach`
takes over the id of a dead session, reaped or not. The client goes by ids; the
session that an entry, a reply or a listing stands for is kept beside them.

Does not own what no exit path reads.
-/

namespace AiTools.Client

open AiTools.Lib.Transition
open Function (update update_of_ne update_self)

variable {Id : Type*}

/-- A session, by its id and its number among the sessions of that id. -/
structure Session (Id : Type*) where
  id : Id
  number : Nat
deriving DecidableEq

/-- A session of the daemon: `dead` when its reader has stored `alive := false`,
`exited` when its Exit frame is out, `reaped` when it has left the session map. -/
inductive Life where
  | absent
  | running
  | dead
  | exited
  | reaped
deriving DecidableEq

/-- Where a session's only Exit frame is. -/
inductive ExitFrame where
  | unsent
  | onStream (generation : Nat)
  | dispatched
  | lost
deriving DecidableEq

structure SessionInfo (Id : Type*) where
  session : Session Id
  isAlive : Bool

def SessionInfo.sessionId (info : SessionInfo Id) : Id := info.session.id

inductive CallStage (Id : Type*) where
  | sent (id : Id)
  | answered (session : Session Id)
  | routed (session : Session Id)
  | returned

/-- A `createOrAttach` call, with the generation of its pending entry. -/
structure Call (Id : Type*) where
  generation : Nat
  stage : CallStage Id

def CallStage.sessionId : CallStage Id → Option Id
  | .sent id => some id
  | .answered session | .routed session => some session.id
  | .returned => none

/-- How far the resync of a fresh connection is. -/
inductive Resync (Id : Type*) where
  | listing
  | answered (sessions : List (SessionInfo Id))
  | routed (sessions : List (SessionInfo Id))
  | claiming (live gone : List (Session Id))

/-- `sessions` is the daemon's session map, in the order of the spawns. `exits`
counts the calls of `on_exit`, and `tracked` are the sessions whose
`createOrAttach` the client has seen succeed. -/
structure System (Id : Type*) where
  sessions : List (Session Id) := []
  lives : Session Id → Life
  frames : Session Id → ExitFrame
  connected : Bool := false
  generation : Nat := 0
  resync : Option (Resync Id) := none
  calls : Nat → Option (Call Id) := fun _ => none
  subscribed : Id → Bool := fun _ => false
  knownAlive : List (Session Id) := []
  tracked : Session Id → Bool := fun _ => false
  exits : Session Id → Nat := fun _ => 0

def System.initial : System Id where
  lives := fun _ => .absent
  frames := fun _ => .unsent

/-! ## Steps -/

/-- The daemon's answer to `listSessions`. -/
def System.listSessions (sys : System Id) : List (SessionInfo Id) :=
  sys.sessions.map fun session => ⟨session, sys.lives session = .running⟩

/-- `handle_disconnect` rejects what is pending on its generation. -/
def Call.reject (generation : Nat) (call : Call Id) : Call Id :=
  match call.stage with
  | .sent _ | .answered _ =>
    if call.generation = generation then { call with stage := .returned } else call
  | .routed _ | .returned => call

def Resync.reject : Resync Id → Option (Resync Id)
  | .listing => none
  | .answered _ => none
  | .routed sessions => some (.routed sessions)
  | .claiming live gone => some (.claiming live gone)

inductive Label (Id : Type*) where
  | subscribe (id : Id)
  | connect
  | disconnect
  | request (index : Nat) (id : Id)
  /-- A request drops the entry of a dead session, before it spawns. -/
  | reserve (id : Id)
  /-- Another client's request, or one whose caller has given up. -/
  | spawn (session : Session Id)
  /-- With the number of the session that is spawned, if the id has none that is
  alive. -/
  | answer (index number : Nat)
  | route (index : Nat)
  | timeout (index : Nat)
  | process (index : Nat)
  | die (session : Session Id)
  | emitExit (session : Session Id) (reached : Bool)
  | reap (session : Session Id)
  | dispatch (session : Session Id)
  | loseFrame (session : Session Id)
  | answerList
  | routeList
  | listFails
  | compare
  | claim
  | insert

def System.setCall (sys : System Id) (index : Nat) (call : Call Id) : System Id :=
  { sys with calls := update sys.calls index (some call) }

section
variable [DecidableEq Id]

/-- The session that a request of the id attaches to. -/
def System.running (sys : System Id) (id : Id) : Option (Session Id) :=
  sys.sessions.find? fun session => session.id = id ∧ sys.lives session = .running

/-- The entry of a session that is dead but not reaped is dropped. -/
def System.spawn (sys : System Id) (session : Session Id) : System Id :=
  { sys with
    sessions := sys.sessions.filter (·.id ≠ session.id) ++ [session]
    lives := update sys.lives session .running }

/-- The removal from `known_alive` is the claim; only the claimer calls the
subscriber. -/
def System.deliverExit (sys : System Id) (session : Session Id) : System Id :=
  if session.id ∈ sys.knownAlive.map Session.id then
    { sys with
      knownAlive := sys.knownAlive.filter (·.id ≠ session.id)
      exits := if sys.subscribed session.id then
        update sys.exits session (sys.exits session + 1)
      else sys.exits }
  else sys

def step (sys : System Id) : Label Id → Option (System Id)
  | .subscribe id =>
    some { sys with subscribed := update sys.subscribed id true }
  | .connect =>
    match sys.connected, sys.resync with
    | false, none =>
      some { sys with
        connected := true
        generation := sys.generation + 1
        resync := some .listing }
    | _, _ => none
  | .disconnect =>
    if sys.connected then
      some { sys with
        connected := false
        calls := fun index => (sys.calls index).map (·.reject sys.generation)
        resync := sys.resync.bind Resync.reject }
    else none
  | .request index id =>
    -- The caller subscribes before it sends the request.
    if sys.connected ∧ sys.subscribed id ∧ sys.calls index = none then
      some (sys.setCall index ⟨sys.generation, .sent id⟩)
    else none
  | .reserve id =>
    if sys.running id = none then
      some { sys with sessions := sys.sessions.filter (·.id ≠ id) }
    else none
  | .spawn session =>
    if sys.running session.id = none ∧ sys.lives session = .absent then some (sys.spawn session)
    else none
  | .answer index number =>
    match sys.calls index with
    | some ⟨generation, .sent id⟩ =>
      match sys.running id with
      | some session => some (sys.setCall index ⟨generation, .answered session⟩)
      | none =>
        if sys.lives ⟨id, number⟩ = .absent then
          some ((sys.spawn ⟨id, number⟩).setCall index ⟨generation, .answered ⟨id, number⟩⟩)
        else none
    | _ => none
  | .route index =>
    match sys.calls index with
    | some ⟨generation, .answered session⟩ =>
      some (sys.setCall index ⟨generation, .routed session⟩)
    | _ => none
  | .timeout index =>
    match sys.calls index with
    | some ⟨generation, .sent _⟩ =>
      some (sys.setCall index ⟨generation, .returned⟩)
    | some ⟨generation, .answered _⟩ =>
      some (sys.setCall index ⟨generation, .returned⟩)
    | _ => none
  | .process index =>
    match sys.calls index with
    | some ⟨generation, .routed session⟩ =>
      some { sys.setCall index ⟨generation, .returned⟩ with
        knownAlive := sys.knownAlive.insert session
        tracked := update sys.tracked session true }
    | _ => none
  | .die session =>
    if sys.lives session = .running then
      some { sys with lives := update sys.lives session .dead }
    else none
  | .emitExit session reached =>
    if sys.lives session = .dead ∧ (reached = true → 0 < sys.generation) ∧
        (reached = false → sys.connected = false) then
      some { sys with
        lives := update sys.lives session .exited
        frames := update sys.frames session
          (if reached then .onStream sys.generation else .lost) }
    else none
  | .reap session =>
    if sys.lives session = .exited then
      -- The entry goes only if it is this session's.
      some { sys with
        sessions := sys.sessions.filter (· ≠ session)
        lives := update sys.lives session .reaped }
    else none
  | .dispatch session =>
    match sys.frames session with
    | .onStream _ =>
      some { sys.deliverExit session with
        frames := update sys.frames session .dispatched }
    | _ => none
  | .loseFrame session =>
    match sys.frames session with
    | .onStream generation =>
      if sys.connected ∧ generation = sys.generation then none
      else some { sys with frames := update sys.frames session .lost }
    | _ => none
  | .answerList =>
    match sys.resync with
    | some .listing => some { sys with resync := some (.answered sys.listSessions) }
    | _ => none
  | .routeList =>
    match sys.resync with
    | some (.answered sessions) => some { sys with resync := some (.routed sessions) }
    | _ => none
  | .listFails =>
    match sys.resync with
    | some .listing => some { sys with resync := none }
    | some (.answered _) => some { sys with resync := none }
    | _ => none
  | .compare =>
    match sys.resync with
    | some (.routed sessions) =>
      some { sys with
        resync := some (.claiming (sessions.map SessionInfo.session)
          (sys.knownAlive.filter (·.id ∉ sessions.map SessionInfo.sessionId))) }
    | _ => none
  | .claim =>
    match sys.resync with
    | some (.claiming live (session :: gone)) =>
      some { sys.deliverExit session with resync := some (.claiming live gone) }
    | _ => none
  | .insert =>
    match sys.resync with
    | some (.claiming live []) =>
      some { sys with
        knownAlive := live.foldl (fun known session => known.insert session) sys.knownAlive
        resync := none }
    | _ => none

end

/-- The connection is up and resynced, and the session's Exit frame is not on its
stream. -/
def System.Settled (sys : System Id) (session : Session Id) : Prop :=
  sys.connected = true ∧ sys.resync = none ∧ sys.frames session ≠ .onStream sys.generation

/-- The session's Exit frame is still to come, if not on a later connection. -/
def System.Ahead (sys : System Id) (session : Session Id) : Prop :=
  sys.frames session = .unsent ∨ sys.frames session = .onStream sys.generation ∨
    sys.connected = false

/-- The resync in progress is going to claim the session. -/
def System.Awaited (sys : System Id) (session : Session Id) : Prop :=
  match sys.resync with
  | none => False
  | some .listing => True
  | some (.answered sessions) => session.id ∉ sessions.map SessionInfo.sessionId
  | some (.routed sessions) => session.id ∉ sessions.map SessionInfo.sessionId
  | some (.claiming _ gone) => session ∈ gone

/-- The live set that a finished claim loop is about to insert. -/
def System.inserting (sys : System Id) : List (Session Id) :=
  match sys.resync with
  | some (.claiming live []) => live
  | _ => []

/-- The session whose reply is about to be processed. -/
def System.replied (sys : System Id) (index : Nat) : Option (Session Id) :=
  match sys.calls index with
  | some ⟨_, .routed session⟩ => some session
  | _ => none

/-- The session that the claim loop is about to claim. -/
def System.claims (sys : System Id) : Option (Session Id) :=
  match sys.resync with
  | some (.claiming _ (session :: _)) => some session
  | _ => none

/-- No other session of the id is known. -/
def System.Alone (sys : System Id) (session : Session Id) : Prop :=
  ∀ other ∈ sys.knownAlive, other.id = session.id → other = session

/-- `known_alive` gains a session only while its exit is unreported and still to
be reported. A resync's listing shows a known session only while its Exit frame is
unsent or on the new stream, and fails only then. And an exit is reported only
while `known_alive` does not have its id for another session. -/
def Guarded (sys : System Id) : Label Id → Prop
  | .process index => ∀ session ∈ sys.replied index, sys.exits session = 0 ∧
        (sys.Ahead session ∨ sys.Awaited session)
  | .dispatch session => sys.Alone session
  | .answerList => ∀ session ∈ sys.knownAlive,
      session.id ∈ sys.listSessions.map SessionInfo.sessionId → sys.Ahead session
  | .listFails => ∀ session ∈ sys.knownAlive, sys.Ahead session
  | .claim => ∀ session ∈ sys.claims, sys.Alone session
  | .insert => ∀ session ∈ sys.inserting, sys.exits session = 0 ∧ sys.Ahead session
  | _ => True

section
variable [DecidableEq Id]

instance (sys : System Id) (session : Session Id) : Decidable (sys.Ahead session) :=
  inferInstanceAs (Decidable (_ ∨ _))

instance (sys : System Id) (session : Session Id) : Decidable (sys.Alone session) :=
  inferInstanceAs (Decidable (∀ other ∈ sys.knownAlive, _ → _))

instance System.Awaited.decide (sys : System Id) (session : Session Id) :
    Decidable (sys.Awaited session) :=
  match resyncCase : sys.resync with
  | none => isFalse (by simp [System.Awaited, resyncCase])
  | some .listing => isTrue (by simp [System.Awaited, resyncCase])
  | some (.answered sessions) =>
    decidable_of_iff (session.id ∉ sessions.map SessionInfo.sessionId)
      (by simp [System.Awaited, resyncCase])
  | some (.routed sessions) =>
    decidable_of_iff (session.id ∉ sessions.map SessionInfo.sessionId)
      (by simp [System.Awaited, resyncCase])
  | some (.claiming _ gone) =>
    decidable_of_iff (session ∈ gone) (by simp [System.Awaited, resyncCase])

instance Guarded.decide (sys : System Id) : ∀ label, Decidable (Guarded sys label)
  | .process index =>
    inferInstanceAs (Decidable (∀ session ∈ sys.replied index, _ ∧ (_ ∨ _)))
  | .dispatch session => inferInstanceAs (Decidable (sys.Alone session))
  | .answerList => inferInstanceAs (Decidable (∀ session ∈ sys.knownAlive,
      session.id ∈ sys.listSessions.map SessionInfo.sessionId → sys.Ahead session))
  | .listFails => inferInstanceAs (Decidable (∀ session ∈ sys.knownAlive, sys.Ahead session))
  | .claim => inferInstanceAs (Decidable (∀ session ∈ sys.claims, sys.Alone session))
  | .insert => inferInstanceAs (Decidable (∀ session ∈ sys.inserting, _ ∧ sys.Ahead session))
  | .subscribe _ | .connect | .disconnect | .request _ _ | .reserve _ | .spawn _ | .answer _ _
  | .route _ | .timeout _ | .die _ | .emitExit _ _ | .reap _ | .loseFrame _ | .routeList
  | .compare => isTrue trivial

end

structure Sound (sys : System Id) : Prop where
  unsent : ∀ session,
    sys.frames session = .unsent ↔ sys.lives session ≠ .exited ∧ sys.lives session ≠ .reaped
  asked : ∀ index call, sys.calls index = some call →
    ∀ id, call.stage.sessionId = some id → sys.subscribed id = true
  once : ∀ session, sys.exits session ≤ 1
  /-- A session stays known until its exit is reported, and the report is on its
  way. -/
  known : ∀ session ∈ sys.knownAlive,
    sys.exits session = 0 ∧ (sys.Ahead session ∨ sys.Awaited session)
  tracked : ∀ session, sys.tracked session = true →
    sys.subscribed session.id = true ∧ (session ∈ sys.knownAlive ∨ sys.exits session = 1)

theorem initial_sound : Sound (System.initial : System Id) where
  unsent := by simp [System.initial]
  asked := by simp [System.initial]
  once := by simp [System.initial]
  known := by simp [System.initial]
  tracked := by simp [System.initial]

variable {sys : System Id}

theorem Sound.setCall (sound : Sound sys) {index : Nat} {call : Call Id}
    (asked : ∀ id, call.stage.sessionId = some id → sys.subscribed id = true) :
    Sound (sys.setCall index call) := by
  refine { sound with asked := ?_ }
  intro other found isFound
  change update sys.calls index (some call) other = some found at isFound
  by_cases same : other = index
  · rw [same, update_self] at isFound
    cases isFound
    exact asked
  · rw [update_of_ne same] at isFound
    exact sound.asked other found isFound

/-- What becomes of the frames and the resync matters only to the sessions that
stay known. -/
theorem Sound.rearrange (sound : Sound sys) {frames : Session Id → ExitFrame}
    {resync : Option (Resync Id)}
    (unsent : ∀ session, frames session = .unsent ↔ sys.frames session = .unsent)
    (known : ∀ session ∈ sys.knownAlive, System.Ahead { sys with frames := frames } session ∨
        System.Awaited { sys with resync := resync } session) :
    Sound { sys with frames := frames, resync := resync } := by
  refine { sound with unsent := ?_, known := ?_ }
  · intro id
    exact (unsent id).trans (sound.unsent id)
  · intro id member
    exact ⟨(sound.known id member).1, known id member⟩

section
variable [DecidableEq Id] {id : Id} {session : Session Id} {next : System Id} {index : Nat}

theorem Sound.setLife (sound : Sound sys) {life : Life} (sessions : List (Session Id))
    (passes : (sys.lives session ≠ .exited ∧ sys.lives session ≠ .reaped) ↔
      (life ≠ .exited ∧ life ≠ .reaped)) : Sound { sys with
      sessions := sessions
      lives := update sys.lives session life } := by
  refine { sound with unsent := ?_ }
  intro other
  dsimp only
  by_cases same : other = session
  · subst same
    rw [update_self, sound.unsent other]
    exact passes
  · rw [update_of_ne same]
    exact sound.unsent other

theorem Sound.spawn {sys : System Id} (sound : Sound sys)
    (absent : sys.lives session = .absent) : Sound (sys.spawn session) := by
  apply sound.setLife
  simp [absent]

theorem Sound.deliverExit (sound : Sound sys) (alone : sys.Alone session) :
    Sound (sys.deliverExit session) := by
  unfold System.deliverExit
  split
  case isFalse => exact sound
  case isTrue hasId =>
    obtain ⟨entry, isEntry, isId⟩ := List.mem_map.mp hasId
    have isKnown : session ∈ sys.knownAlive := alone entry isEntry isId ▸ isEntry
    have unreported := (sound.known session isKnown).1
    refine { sound with once := ?_, known := ?_, tracked := ?_ }
    · intro other
      dsimp only
      split
      · by_cases same : other = session
        · subst same
          simp [unreported]
        · rw [update_of_ne same]
          exact sound.once other
      · exact sound.once other
    · intro other member
      obtain ⟨wasKnown, different⟩ := List.mem_filter.mp member
      have different : other ≠ session := fun same => of_decide_eq_true different (same ▸ rfl)
      obtain ⟨zero, pending⟩ := sound.known other wasKnown
      refine ⟨?_, pending⟩
      dsimp only
      split
      · rw [update_of_ne different]
        exact zero
      · exact zero
    · intro other isTracked
      obtain ⟨subscribed, held⟩ := sound.tracked other isTracked
      refine ⟨subscribed, ?_⟩
      dsimp only
      by_cases same : other = session
      · subst same
        rw [if_pos subscribed, update_self, unreported]
        exact .inr rfl
      · rcases held with wasKnown | reported
        · exact .inl (List.mem_filter.mpr ⟨wasKnown,
            decide_eq_true fun isOther => same (alone other wasKnown isOther)⟩)
        · right
          split
          · rw [update_of_ne same]
            exact reported
          · exact reported

theorem not_mem_deliverExit (sys : System Id) (session : Session Id) :
    session ∉ (sys.deliverExit session).knownAlive := by
  unfold System.deliverExit
  split
  · simp
  · rename_i notKnown
    exact fun isKnown => notKnown (List.mem_map_of_mem isKnown)

/-! ## Every step -/

theorem connect_sound (sound : Sound sys)
    (ran : step sys .connect = some next) : Sound next := by
  unfold step at ran
  dsimp only at ran
  split at ran
  case h_2 => cases ran
  case h_1 =>
    cases ran
    refine { sound with known := ?_ }
    intro id member
    exact ⟨(sound.known id member).1, .inr trivial⟩

theorem disconnect_sound (sound : Sound sys)
    (ran : step sys .disconnect = some next) : Sound next := by
  unfold step at ran
  dsimp only at ran
  split at ran
  case isFalse => cases ran
  case isTrue =>
    cases ran
    refine { sound with asked := ?_, known := ?_ }
    · intro index call isCall id isId
      obtain ⟨old, isOld, rfl⟩ := Option.map_eq_some_iff.mp isCall
      refine sound.asked index old isOld id ?_
      unfold Call.reject at isId
      split at isId
      case h_3 | h_4 => exact isId
      all_goals
        split_ifs at isId
        · cases isId
        · exact isId
    · intro session member
      exact ⟨(sound.known session member).1, .inl (.inr (.inr rfl))⟩

theorem request_sound (sound : Sound sys)
    (ran : step sys (.request index id) = some next) : Sound next := by
  unfold step at ran
  dsimp only at ran
  split at ran
  case isFalse => cases ran
  case isTrue requested =>
    cases ran
    exact sound.setCall fun _ isId => Option.some.inj isId ▸ requested.2.1

theorem running_id (isRunning : sys.running id = some session) : session.id = id := by
  have isFound := List.find?_some isRunning
  exact (of_decide_eq_true isFound).1

theorem answer_sound {number : Nat} (sound : Sound sys)
    (ran : step sys (.answer index number) = some next) : Sound next := by
  unfold step at ran
  dsimp only at ran
  split at ran
  case h_2 => cases ran
  case h_1 generation id isCall =>
    have asked := sound.asked index _ isCall id rfl
    split at ran
    case h_1 session isRunning =>
      cases ran
      exact sound.setCall fun _ isId => Option.some.inj isId ▸ running_id isRunning ▸ asked
    case h_2 =>
      split at ran
      case isTrue absent =>
        cases ran
        exact (sound.spawn absent).setCall fun _ isId => Option.some.inj isId ▸ asked
      case isFalse => cases ran

theorem route_sound (sound : Sound sys)
    (ran : step sys (.route index) = some next) : Sound next := by
  unfold step at ran
  dsimp only at ran
  split at ran
  case h_2 => cases ran
  case h_1 generation session isCall =>
    have asked := sound.asked index _ isCall
    cases ran
    exact sound.setCall asked

theorem timeout_sound (sound : Sound sys)
    (ran : step sys (.timeout index) = some next) : Sound next := by
  have returned : ∀ generation : Nat, Sound (sys.setCall index ⟨generation, .returned⟩) :=
    fun generation => sound.setCall fun _ isId => by cases isId
  unfold step at ran
  dsimp only at ran
  split at ran
  case h_1 generation id isCall =>
    cases ran
    exact returned generation
  case h_2 generation session isCall =>
    cases ran
    exact returned generation
  case h_3 => cases ran

theorem process_sound (sound : Sound sys) (guarded : Guarded sys (.process index))
    (ran : step sys (.process index) = some next) : Sound next := by
  unfold step at ran
  dsimp only at ran
  split at ran
  case h_2 => cases ran
  case h_1 generation session isCall =>
    cases ran
    have asked := sound.asked index _ isCall session.id rfl
    have isReplied : sys.replied index = some session := by
      unfold System.replied
      rw [isCall]
    have pending := guarded session isReplied
    have moved : Sound (sys.setCall index ⟨generation, .returned⟩) :=
      sound.setCall fun _ isId => by cases isId
    refine { moved with known := ?_, tracked := ?_ }
    · intro other member
      rcases List.mem_insert_iff.mp member with same | old
      · subst same
        exact pending
      · exact sound.known other old
    · intro other isTracked
      by_cases same : other = session
      · subst same
        exact ⟨asked, .inl List.mem_insert_self⟩
      · dsimp only at isTracked
        rw [update_of_ne same] at isTracked
        obtain ⟨subscribed, held⟩ := sound.tracked other isTracked
        exact ⟨subscribed, held.imp_left List.mem_insert_of_mem⟩

theorem emitExit_sound {reached : Bool} (sound : Sound sys)
    (ran : step sys (.emitExit session reached) = some next) : Sound next := by
  unfold step at ran
  dsimp only at ran
  by_cases emits : sys.lives session = .dead ∧ (reached = true → 0 < sys.generation) ∧
      (reached = false → sys.connected = false)
  · rw [if_pos emits] at ran
    cases ran
    obtain ⟨_, _, unreached⟩ := emits
    refine { sound with unsent := ?_, known := ?_ }
    · intro other
      dsimp only
      by_cases same : other = session
      · subst same
        cases reached <;> simp
      · rw [update_of_ne same, update_of_ne same]
        exact sound.unsent other
    · intro other member
      obtain ⟨zero, pending⟩ := sound.known other member
      refine ⟨zero, ?_⟩
      by_cases same : other = session
      · subst same
        left
        unfold System.Ahead
        dsimp only
        rw [update_self]
        cases reached with
        | true => exact .inr (.inl rfl)
        | false => exact .inr (.inr (unreached rfl))
      · refine pending.imp_left fun ahead => ?_
        unfold System.Ahead
        dsimp only
        rw [update_of_ne same]
        exact ahead
  · simp [if_neg emits] at ran

theorem Sound.setFrame (sound : Sound sys) {generation : Nat}
    (onStream : sys.frames session = .onStream generation) {frame : ExitFrame}
    (sent : frame ≠ .unsent)
    (pending : session ∈ sys.knownAlive → sys.connected = false ∨ sys.Awaited session) :
    Sound { sys with frames := update sys.frames session frame } := by
  refine { sound with unsent := ?_, known := ?_ }
  · intro other
    dsimp only
    by_cases same : other = session
    · subst same
      rw [update_self, ← sound.unsent other, onStream]
      simp [sent]
    · rw [update_of_ne same]
      exact sound.unsent other
  · intro other member
    obtain ⟨zero, ahead⟩ := sound.known other member
    refine ⟨zero, ?_⟩
    by_cases same : other = session
    · subst same
      rcases pending member with disconnected | awaited
      · exact .inl (.inr (.inr disconnected))
      · exact .inr awaited
    · refine ahead.imp_left fun ahead => ?_
      unfold System.Ahead
      dsimp only
      rw [update_of_ne same]
      exact ahead

theorem deliverExit_frames (sys : System Id) (session : Session Id) :
    (sys.deliverExit session).frames = sys.frames := by
  unfold System.deliverExit
  split <;> rfl

theorem dispatch_sound (sound : Sound sys) (alone : sys.Alone session)
    (ran : step sys (.dispatch session) = some next) : Sound next := by
  unfold step at ran
  dsimp only at ran
  split at ran
  case h_2 => cases ran
  case h_1 generation onStream =>
    cases ran
    have still : (sys.deliverExit session).frames session = .onStream generation := by
      rw [deliverExit_frames]
      exact onStream
    rw [← deliverExit_frames sys session]
    apply (sound.deliverExit alone).setFrame still (by simp)
    intro known
    exact absurd known (not_mem_deliverExit sys session)

theorem loseFrame_sound (sound : Sound sys)
    (ran : step sys (.loseFrame session) = some next) : Sound next := by
  unfold step at ran
  dsimp only at ran
  split at ran
  case h_2 => cases ran
  case h_1 generation onStream =>
    split at ran
    case isTrue => cases ran
    case isFalse notLive =>
      cases ran
      apply sound.setFrame onStream (by simp)
      intro known
      rcases (sound.known session known).2 with ahead | awaited
      · rcases ahead with unsent | onLive | disconnected
        · simp [onStream] at unsent
        · rw [onStream] at onLive
          cases onLive
          left
          rw [← Bool.not_eq_true]
          exact fun connected => notLive ⟨connected, rfl⟩
        · exact .inl disconnected
      · exact .inr awaited

theorem answerList_sound (sound : Sound sys)
    (guarded : Guarded sys .answerList) (ran : step sys .answerList = some next) :
    Sound next := by
  unfold step at ran
  dsimp only at ran
  split at ran
  case h_2 => cases ran
  case h_1 isListing =>
    cases ran
    apply sound.rearrange (fun _ => Iff.rfl)
    intro id member
    by_cases listed : id.id ∈ sys.listSessions.map SessionInfo.sessionId
    · exact .inl (guarded id member listed)
    · exact .inr listed

theorem routeList_sound (sound : Sound sys)
    (ran : step sys .routeList = some next) : Sound next := by
  unfold step at ran
  dsimp only at ran
  split at ran
  case h_2 => cases ran
  case h_1 sessions isAnswered =>
    cases ran
    apply sound.rearrange (fun _ => Iff.rfl)
    intro id member
    refine (sound.known id member).2.imp_right fun awaited => ?_
    unfold System.Awaited at awaited
    rwa [isAnswered] at awaited

theorem listFails_sound (sound : Sound sys)
    (guarded : Guarded sys .listFails) (ran : step sys .listFails = some next) :
    Sound next := by
  unfold step at ran
  dsimp only at ran
  split at ran
  case h_1 =>
    cases ran
    exact sound.rearrange (fun _ => Iff.rfl) fun id member => .inl (guarded id member)
  case h_2 =>
    cases ran
    exact sound.rearrange (fun _ => Iff.rfl) fun id member => .inl (guarded id member)
  case h_3 => cases ran

theorem compare_sound (sound : Sound sys)
    (ran : step sys .compare = some next) : Sound next := by
  unfold step at ran
  dsimp only at ran
  split at ran
  case h_2 => cases ran
  case h_1 sessions isRouted =>
    cases ran
    apply sound.rearrange (fun _ => Iff.rfl)
    intro id member
    refine (sound.known id member).2.imp_right fun awaited => ?_
    unfold System.Awaited at awaited
    rw [isRouted] at awaited
    exact List.mem_filter.mpr ⟨member, decide_eq_true awaited⟩

theorem claim_sound (sound : Sound sys) (guarded : Guarded sys .claim)
    (ran : step sys .claim = some next) : Sound next := by
  unfold step at ran
  dsimp only at ran
  split at ran
  case h_2 => cases ran
  case h_1 live session gone isClaiming =>
    cases ran
    have isClaimed : sys.claims = some session := by
      unfold System.claims
      rw [isClaiming]
    have alone : sys.Alone session := guarded session isClaimed
    have resync : (sys.deliverExit session).resync = some (.claiming live (session :: gone)) := by
      unfold System.deliverExit
      split <;> exact isClaiming
    apply (sound.deliverExit alone).rearrange (fun _ => Iff.rfl)
    intro other member
    refine ((sound.deliverExit alone).known other member).2.imp_right fun awaited => ?_
    unfold System.Awaited at awaited
    rw [resync] at awaited
    rcases List.mem_cons.mp awaited with same | later
    · subst same
      exact absurd member (not_mem_deliverExit sys other)
    · exact later

theorem mem_foldl_insert : ∀ {live known : List (Session Id)},
    session ∈ live.foldl (fun known session => known.insert session) known ↔
      session ∈ live ∨ session ∈ known
  | [], known => by simp
  | first :: rest, known => by
    rw [List.foldl_cons, mem_foldl_insert, List.mem_insert_iff, List.mem_cons]
    tauto

theorem insert_sound (sound : Sound sys) (guarded : Guarded sys .insert)
    (ran : step sys .insert = some next) : Sound next := by
  unfold step at ran
  dsimp only at ran
  split at ran
  case h_2 => cases ran
  case h_1 live isClaiming =>
    cases ran
    have inserting : sys.inserting = live := by
      unfold System.inserting
      rw [isClaiming]
    refine { sound with known := ?_, tracked := ?_ }
    · intro id member
      rcases mem_foldl_insert.mp member with listed | known
      · obtain ⟨zero, ahead⟩ := guarded id (inserting ▸ listed)
        exact ⟨zero, .inl ahead⟩
      · obtain ⟨zero, pending⟩ := sound.known id known
        refine ⟨zero, .inl (pending.resolve_right fun awaited => ?_)⟩
        unfold System.Awaited at awaited
        simp [isClaiming] at awaited
    · intro id isTracked
      obtain ⟨subscribed, held⟩ := sound.tracked id isTracked
      exact ⟨subscribed, held.imp_left fun known => mem_foldl_insert.mpr (.inr known)⟩

theorem step_sound {label : Label Id} (sound : Sound sys)
    (guarded : Guarded sys label) (ran : step sys label = some next) : Sound next := by
  cases label with
  | subscribe id =>
    cases ran
    refine { sound with asked := ?_, tracked := ?_ }
    · intro index call isCall asked isAsked
      dsimp only
      by_cases same : asked = id
      · rw [same, update_self]
      · rw [update_of_ne same]
        exact sound.asked index call isCall asked isAsked
    · intro other isTracked
      obtain ⟨subscribed, held⟩ := sound.tracked other isTracked
      refine ⟨?_, held⟩
      dsimp only
      by_cases same : other.id = id
      · rw [same, update_self]
      · rw [update_of_ne same]
        exact subscribed
  | connect => exact connect_sound sound ran
  | disconnect => exact disconnect_sound sound ran
  | request index id => exact request_sound sound ran
  | reserve id =>
    obtain ⟨_, ⟨⟩⟩ := Option.ite_none_right_eq_some.mp ran
    exact { sound with }
  | spawn session =>
    unfold step at ran
    dsimp only at ran
    split at ran
    case isTrue absent =>
      cases ran
      exact sound.spawn absent.2
    case isFalse => cases ran
  | answer index number => exact answer_sound sound ran
  | route index => exact route_sound sound ran
  | timeout index => exact timeout_sound sound ran
  | process index => exact process_sound sound guarded ran
  | die session =>
    unfold step at ran
    dsimp only at ran
    split at ran
    case isTrue running =>
      cases ran
      exact sound.setLife _ (by simp [running])
    case isFalse => cases ran
  | emitExit session reached => exact emitExit_sound sound ran
  | reap session =>
    unfold step at ran
    dsimp only at ran
    split at ran
    case isTrue exited =>
      cases ran
      exact sound.setLife _ (by simp [exited])
    case isFalse => cases ran
  | dispatch session => exact dispatch_sound sound guarded ran
  | loseFrame session => exact loseFrame_sound sound ran
  | answerList => exact answerList_sound sound guarded ran
  | routeList => exact routeList_sound sound ran
  | listFails => exact listFails_sound sound guarded ran
  | compare => exact compare_sound sound ran
  | claim => exact claim_sound sound guarded ran
  | insert => exact insert_sound sound guarded ran

end

end AiTools.Client
