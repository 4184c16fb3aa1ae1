import AiTools.Lib.Transition
import Mathlib.Data.List.Perm.Basic
import Mathlib.Data.UInt

/-!
Contract: the dirty map of the checkpointer under ticks, final flushes and
marks.

Owns:
- the registered sessions, one for each id at a time. Another session may take
  over the id of one that is gone, also while a pass still has the handles of
  the earlier one: the map and the removals go by id, the guards and the
  snapshots by session;
- the changes of a session, which call `mark_dirty` from `enable_history` on.

Does not own what a persist writes, or the lock of the session's directory: it
keeps an id from being registered twice at a time, and more than that is not
assumed.
-/

namespace AiTools.Daemon.Checkpointer.Dirty

open AiTools.Lib.Transition
open Function (update update_of_ne update_self)

/-! ## The passes -/

/-- Who holds a session's `inflight` guard. -/
inductive Holder where
  | tick
  | flush (index : Nat)
deriving DecidableEq

/-- A session, by its id and its number among the sessions of that id. -/
structure Session (Id : Type*) where
  id : Id
  number : Nat
deriving DecidableEq

variable {Id : Type*}

/-- A tick's persist of one session: the version that `dirty_snapshot` saw, how
many changes its snapshot of the session held, and whether it succeeded. -/
structure TickPersist (Id : Type*) where
  session : Session Id
  version : UInt64
  readAt : Option Nat
  persisted : Bool

structure TickPass (Id : Type*) where
  remaining : List (Id × UInt64)
  current : Option (TickPersist Id)

structure FlushPersist (Id : Type*) where
  session : Session Id
  readAt : Option Nat

structure FlushPass (Id : Type*) where
  remaining : List (Session Id)
  current : Option (FlushPersist Id)

inductive PersistOutcome where
  | ok
  | retry
  | disabled
deriving DecidableEq

/-- The last four fields count, for each session, its changes, the changes that a
mark stands for, the changes in the snapshot of its last successful persist, and
the `mark_dirty` calls that are still to come. -/
structure System (Id : Type*) where
  sessions : List (Session Id) := []
  retired : List (Session Id) := []
  enabled : Session Id → Bool := fun _ => false
  dirty : Id → Option UInt64 := fun _ => none
  inflight : Session Id → Option Holder := fun _ => none
  tick : Option (TickPass Id) := none
  flushes : Nat → Option (FlushPass Id) := fun _ => none
  changed : Session Id → Nat := fun _ => 0
  marked : Session Id → Nat := fun _ => 0
  covered : Session Id → Nat := fun _ => 0
  owed : Session Id → Nat := fun _ => 0

def System.initial : System Id := {}

inductive Label (Id : Type*) where
  /-- `insert`; its `mark_dirty` call is still to come. -/
  | register (session : Session Id)
  | enableHistory (session : Session Id)
  | close (id : Id)
  /-- Output, a resize or a clear reaches the session. -/
  | change (session : Session Id)
  | markDirty (session : Session Id)
  /-- `dirty_snapshot`, in the map's order. -/
  | tickStart (order : List Id)
  | tickNext
  | tickRead
  | tickOutcome (outcome : PersistOutcome)
  | clearDirtyIfUnchanged
  | tickEnd
  | flushStart (index : Nat) (order : List (Session Id))
  | flushLock (index : Nat)
  | flushRead (index : Nat)
  | flushOutcome (index : Nat) (outcome : PersistOutcome)
  | flushClear (index : Nat)

section
variable [DecidableEq Id]

/-- The version that the next mark gives a session. -/
def System.nextVersion (sys : System Id) (id : Id) : UInt64 :=
  (sys.dirty id).getD 0 + 1

def System.find (sys : System Id) (id : Id) : Option (Session Id) :=
  sys.sessions.find? (·.id = id)

def System.markDirty (sys : System Id) (id : Id) : System Id :=
  match sys.find id with
  | some session =>
    { sys with
      dirty := update sys.dirty id (some (sys.nextVersion id))
      marked := update sys.marked session (sys.changed session) }
  | none => sys

/-- `remove_session`. -/
def System.removeSession (sys : System Id) (id : Id) : System Id :=
  { sys with
    sessions := sys.sessions.filter (·.id ≠ id)
    retired := sys.sessions.filter (·.id = id) ++ sys.retired
    dirty := update sys.dirty id none }

def System.dirtySnapshot (sys : System Id) (order : List Id) : List (Id × UInt64) :=
  order.filterMap fun id => (sys.dirty id).map fun version => (id, version)

def step (sys : System Id) : Label Id → Option (System Id)
  | .register session =>
    -- The directory of an id is locked while the id is registered.
    if (sys.find session.id).isSome ∨ session ∈ sys.retired then none
    else
      some { sys with
        sessions := sys.sessions ++ [session]
        changed := update sys.changed session (sys.changed session + 1)
        marked := update sys.marked session 0
        owed := update sys.owed session (sys.owed session + 1) }
  | .enableHistory session =>
    if session ∈ sys.sessions ∨ session ∈ sys.retired then
      some { sys with enabled := update sys.enabled session true }
    else none
  | .close id => some (sys.removeSession id)
  | .change session =>
    let changed := update sys.changed session (sys.changed session + 1)
    if sys.enabled session then
      some { sys with
        changed := changed
        owed := update sys.owed session (sys.owed session + 1) }
    else
      -- No mark is owed: a mark that stands already, also stands for this change.
      some { sys with
        changed := changed
        marked :=
          if session ∈ sys.sessions ∧ sys.dirty session.id ≠ none ∧ sys.owed session = 0 then
            update sys.marked session (sys.changed session + 1)
          else sys.marked }
  | .markDirty session =>
    match sys.owed session with
    | 0 => none
    | owed + 1 =>
      some { sys.markDirty session.id with owed := update sys.owed session owed }
  | .tickStart order =>
    match sys.tick with
    | some _ => none
    | none =>
      if order.Perm (sys.sessions.map Session.id) then
        some { sys with tick := some ⟨sys.dirtySnapshot order, none⟩ }
      else none
  | .tickNext =>
    match sys.tick with
    | some ⟨(id, version) :: rest, none⟩ =>
      match sys.find id with
      | none =>
        some { sys with
          dirty := update sys.dirty id none
          tick := some ⟨rest, none⟩ }
      | some session =>
        if (sys.inflight session).isSome then
          some { sys with tick := some ⟨rest, none⟩ }
        else
          some { sys with
            inflight := update sys.inflight session (some .tick)
            tick := some ⟨rest, some ⟨session, version, none, false⟩⟩ }
    | _ => none
  | .tickRead =>
    match sys.tick with
    | some ⟨remaining, some ⟨session, version, none, persisted⟩⟩ =>
      some { sys with
        tick := some ⟨remaining, some ⟨session, version, some (sys.changed session), persisted⟩⟩ }
    | _ => none
  | .tickOutcome outcome =>
    match sys.tick with
    | some ⟨remaining, some ⟨session, version, some readAt, false⟩⟩ =>
      match outcome with
      | .ok =>
        some { sys with
          covered := update sys.covered session readAt
          tick := some ⟨remaining, some ⟨session, version, some readAt, true⟩⟩ }
      | .retry =>
        some { sys with
          inflight := update sys.inflight session none
          tick := some ⟨remaining, none⟩ }
      | .disabled =>
        some { sys.removeSession session.id with
          inflight := update sys.inflight session none
          tick := some ⟨remaining, none⟩ }
    | _ => none
  | .clearDirtyIfUnchanged =>
    match sys.tick with
    | some ⟨remaining, some ⟨session, version, _, true⟩⟩ =>
      some { sys with
        dirty :=
          if sys.dirty session.id = some version then update sys.dirty session.id none
          else sys.dirty
        inflight := update sys.inflight session none
        tick := some ⟨remaining, none⟩ }
    | _ => none
  | .tickEnd =>
    match sys.tick with
    | some ⟨[], none⟩ => some { sys with tick := none }
    | _ => none
  | .flushStart index order =>
    match sys.flushes index with
    | some _ => none
    | none =>
      if order.Perm sys.sessions then
        some { sys with flushes := update sys.flushes index (some ⟨order, none⟩) }
      else none
  | .flushLock index =>
    match sys.flushes index with
    | some ⟨session :: rest, none⟩ =>
      -- `inflight.lock().await`: enabled once the guard is free.
      if (sys.inflight session).isSome then none
      else
        some { sys with
          inflight := update sys.inflight session (some (.flush index))
          flushes := update sys.flushes index (some ⟨rest, some ⟨session, none⟩⟩) }
    | _ => none
  | .flushRead index =>
    match sys.flushes index with
    | some ⟨remaining, some ⟨session, none⟩⟩ =>
      some { sys with
        flushes := update sys.flushes index
          (some ⟨remaining, some ⟨session, some (sys.changed session)⟩⟩) }
    | _ => none
  | .flushOutcome index outcome =>
    match sys.flushes index with
    | some ⟨remaining, some ⟨session, some readAt⟩⟩ =>
      some { sys with
        covered :=
          if outcome = .ok then update sys.covered session readAt else sys.covered
        inflight := update sys.inflight session none
        flushes := update sys.flushes index (some ⟨remaining, none⟩) }
    | _ => none
  | .flushClear index =>
    match sys.flushes index with
    | some ⟨[], none⟩ =>
      some { sys with
        dirty := fun _ => none
        flushes := update sys.flushes index none }
    | _ => none

end

/-- `flush_all` clears the whole map only while no dirty session has a mark
behind the snapshot of its last successful persist. No mark gives an id the
version that the tick recorded for it, once the tick's persist has read its
session, or when that session is gone: the entry had been removed in between, or
the version wrapped. And a session changes before `enable_history` only while a
mark is to come or stands, and not with the version of a tick that has read it. -/
def Guarded [DecidableEq Id] (sys : System Id) : Label Id → Prop
  | .flushClear _ => ∀ session ∈ sys.sessions, sys.dirty session.id ≠ none →
      sys.marked session ≤ sys.covered session
  | .markDirty session => ∀ pass current, sys.tick = some pass → pass.current = some current →
      current.session.id = session.id → current.readAt ≠ none ∨ current.session ∉ sys.sessions →
        sys.nextVersion session.id ≠ current.version
  | .change session => sys.enabled session = false → session ∈ sys.sessions →
      sys.owed session ≠ 0 ∨ sys.dirty session.id ≠ none ∧
        ∀ pass current, sys.tick = some pass → pass.current = some current →
          current.session = session → current.readAt ≠ none →
            sys.dirty session.id ≠ some current.version
  | _ => True

/-! ## The invariant -/

/-- The tick's persist in flight. -/
def System.tickPersist (sys : System Id) : Option (TickPersist Id) :=
  sys.tick.bind TickPass.current

/-- The session that a pass is persisting, and the changes its snapshot has. -/
def System.holding (sys : System Id) : Holder → Option (Session Id × Option Nat)
  | .tick => sys.tickPersist.map fun current => (current.session, current.readAt)
  | .flush index =>
    ((sys.flushes index).bind FlushPass.current).map fun current =>
      (current.session, current.readAt)

structure Sound [DecidableEq Id] (sys : System Id) : Prop where
  distinct : ∀ session ∈ sys.sessions, ∀ other ∈ sys.sessions, session.id = other.id →
    session = other
  registered : ∀ id, sys.dirty id ≠ none → ∃ session ∈ sys.sessions, session.id = id
  /-- Marks stand for all changes but those whose mark is still to come. -/
  announced : ∀ session, sys.marked session ≤ sys.changed session ∧
    (session ∈ sys.sessions → sys.owed session = 0 → sys.marked session = sys.changed session)
  bounded : ∀ session, sys.covered session ≤ sys.changed session
  /-- A mark that no persist covers keeps its session dirty. -/
  kept : ∀ session ∈ sys.sessions, sys.covered session < sys.marked session →
    sys.dirty session.id ≠ none
  /-- While the recorded version stands, it is that of the tick's own session. -/
  own : ∀ current, sys.tickPersist = some current →
    sys.dirty current.session.id = some current.version →
      ∀ session ∈ sys.sessions, session.id = current.session.id → session = current.session
  /-- While the recorded version stands, the tick's snapshot has every mark. -/
  unchanged : ∀ current readAt, sys.tickPersist = some current →
    current.readAt = some readAt → sys.dirty current.session.id = some current.version →
      sys.marked current.session ≤ readAt
  succeeded : ∀ current, sys.tickPersist = some current → current.persisted = true →
    current.readAt = some (sys.covered current.session)
  /-- A pass holds the guard of the session it persists, and its snapshot is the
  newest one. -/
  holds : ∀ holder session readAt, sys.holding holder = some (session, readAt) →
    sys.inflight session = some holder ∧
      ∀ count, readAt = some count → sys.covered session ≤ count ∧ count ≤ sys.changed session

variable [DecidableEq Id]

theorem initial_sound : Sound (System.initial : System Id) where
  distinct := by simp [System.initial]
  registered := by simp [System.initial]
  announced := by simp [System.initial]
  bounded := by simp [System.initial]
  kept := by simp [System.initial]
  own := by simp [System.initial, System.tickPersist]
  unchanged := by simp [System.initial, System.tickPersist]
  succeeded := by simp [System.initial, System.tickPersist]
  holds := by
    intro holder
    cases holder <;> simp [System.initial, System.holding, System.tickPersist]

variable {sys next : System Id} {current : TickPersist Id} {session other : Session Id} {id : Id}
  {outcome : PersistOutcome} {index : Nat}

theorem find_some (isFound : sys.find id = some session) :
    session ∈ sys.sessions ∧ session.id = id :=
  ⟨List.mem_of_find?_eq_some isFound, by simpa using List.find?_some isFound⟩

theorem find_none (notFound : sys.find id = none) :
    ∀ session ∈ sys.sessions, session.id ≠ id := fun session member => by
  simpa using List.find?_eq_none.mp notFound session member

theorem Sound.tickHolds (sound : Sound sys) (inTick : sys.tickPersist = some current) :
    sys.inflight current.session = some .tick :=
  (sound.holds .tick current.session current.readAt (by simp [System.holding, inTick])).1

theorem Sound.exclusive (sound : Sound sys) {first second : Holder}
    {readAt otherRead : Option Nat} (holdsFirst : sys.holding first = some (session, readAt))
    (holdsSecond : sys.holding second = some (other, otherRead)) (different : first ≠ second) :
    session ≠ other := by
  intro same
  have held := (sound.holds first session readAt holdsFirst).1
  rw [same, (sound.holds second other otherRead holdsSecond).1] at held
  cases held
  exact different rfl

theorem Sound.markDirty (sound : Sound sys) (id : Id)
    (fresh : ∀ current, sys.tickPersist = some current → current.session.id = id →
      current.readAt ≠ none ∨ current.session ∉ sys.sessions →
        sys.nextVersion id ≠ current.version) : Sound (sys.markDirty id) := by
  unfold System.markDirty
  split
  case h_2 => exact sound
  case h_1 session isFound =>
    obtain ⟨member, rfl⟩ := find_some isFound
    refine ⟨sound.distinct, ?_, ?_, sound.bounded, ?_, ?_, ?_, sound.succeeded, sound.holds⟩
    · intro other isDirty
      by_cases same : other = session.id
      · exact ⟨session, member, same.symm⟩
      · exact sound.registered other (by simpa [same] using isDirty)
    · intro other
      by_cases same : other = session
      · subst same
        simp
      · simpa [same] using sound.announced other
    · intro other isIn behind
      by_cases same : other.id = session.id
      · simp [same]
      · have different : other ≠ session := fun isSame => same (isSame ▸ rfl)
        simp only [update_of_ne different] at behind
        simp only [update_of_ne same]
        exact sound.kept other isIn behind
    · intro current inTick version other isIn isOther
      dsimp only at version isIn
      by_cases same : current.session.id = session.id
      · rw [same, update_self, Option.some.injEq] at version
        by_cases gone : current.session ∈ sys.sessions
        · exact sound.distinct other isIn _ gone isOther
        · exact absurd version (fresh current inTick same (Or.inr gone))
      · rw [update_of_ne same] at version
        exact sound.own current inTick version other isIn isOther
    · intro current readAt inTick isRead version
      dsimp only at version
      by_cases same : current.session.id = session.id
      · rw [same, update_self, Option.some.injEq] at version
        exact absurd version (fresh current inTick same (Or.inl (by simp [isRead])))
      · have different : current.session ≠ session := fun isSame => same (isSame ▸ rfl)
        rw [update_of_ne same] at version
        simp only [update_of_ne different]
        exact sound.unchanged current readAt inTick isRead version

theorem Sound.removeSession (sound : Sound sys) (id : Id) : Sound (sys.removeSession id) := by
  unfold System.removeSession
  have isOther : ∀ other : Session Id, other ∈ sys.sessions.filter (·.id ≠ id) →
      other ∈ sys.sessions ∧ other.id ≠ id := fun other member => by
    obtain ⟨registered, different⟩ := List.mem_filter.mp member
    exact ⟨registered, by simpa using different⟩
  have stands : ∀ {other : Id} {version : UInt64}, update sys.dirty id none other = some version →
      other ≠ id ∧ sys.dirty other = some version := fun {other version} isVersion => by
    by_cases same : other = id
    · simp [same] at isVersion
    · exact ⟨same, by simpa [same] using isVersion⟩
  refine ⟨?_, ?_, ?_, sound.bounded, ?_, ?_, ?_, sound.succeeded, sound.holds⟩
  · exact fun first isFirst second isSecond =>
      sound.distinct first (isOther first isFirst).1 second (isOther second isSecond).1
  · intro other isDirty
    obtain ⟨version, isVersion⟩ := Option.ne_none_iff_exists'.mp isDirty
    obtain ⟨different, before⟩ := stands isVersion
    obtain ⟨session, member, rfl⟩ := sound.registered other (by simp [before])
    exact ⟨session, List.mem_filter.mpr ⟨member, by simpa using different⟩, rfl⟩
  · intro other
    obtain ⟨bounded, settled⟩ := sound.announced other
    exact ⟨bounded, fun member => settled (isOther other member).1⟩
  · intro other member behind
    obtain ⟨registered, different⟩ := isOther other member
    simp only [update_of_ne different]
    exact sound.kept other registered behind
  · intro current inTick version other member
    exact sound.own current inTick (stands version).2 other (isOther other member).1
  · intro current readAt inTick isRead version
    exact sound.unchanged current readAt inTick isRead (stands version).2

theorem Sound.dropDirty (sound : Sound sys) (dirty : Id → Option UInt64)
    (fewer : ∀ id, dirty id = none ∨ dirty id = sys.dirty id)
    (covered : ∀ session ∈ sys.sessions, dirty session.id = none →
      sys.marked session ≤ sys.covered session ∨ sys.dirty session.id = none) :
    Sound { sys with dirty := dirty } := by
  have stands : ∀ {id : Id} {version : UInt64}, dirty id = some version →
      sys.dirty id = some version := fun {id version} isVersion => by
    rcases fewer id with dropped | same
    · simp [dropped] at isVersion
    · rw [← same]
      exact isVersion
  refine ⟨sound.distinct, ?_, sound.announced, sound.bounded, ?_, ?_, ?_, sound.succeeded,
    sound.holds⟩
  · intro id isDirty
    obtain ⟨version, isVersion⟩ := Option.ne_none_iff_exists'.mp isDirty
    exact sound.registered id (by simp [stands isVersion])
  · intro session member behind dropped
    rcases covered session member dropped with all | already
    · exact absurd behind (Nat.not_lt.mpr all)
    · exact sound.kept session member behind already
  · exact fun current inTick version => sound.own current inTick (stands version)
  · exact fun current readAt inTick isRead version =>
      sound.unchanged current readAt inTick isRead (stands version)

theorem Sound.tickIdle (sound : Sound sys) (tick : Option (TickPass Id))
    (idle : tick.bind TickPass.current = none) : Sound { sys with tick := tick } where
  __ := sound
  own := by simp [System.tickPersist, idle]
  unchanged := by simp [System.tickPersist, idle]
  succeeded := by simp [System.tickPersist, idle]
  holds := by
    intro holder id readAt isHolding
    cases holder with
    | tick => simp [System.holding, System.tickPersist, idle] at isHolding
    | flush index => exact sound.holds (.flush index) id readAt isHolding

theorem Sound.flushIdle (sound : Sound sys) (index : Nat) (flush : Option (FlushPass Id))
    (idle : flush.bind FlushPass.current = none) :
    Sound { sys with flushes := update sys.flushes index flush } := by
  refine ⟨sound.distinct, sound.registered, sound.announced, sound.bounded, sound.kept, sound.own,
    sound.unchanged, sound.succeeded, ?_⟩
  intro holder id readAt isHolding
  cases holder with
  | tick => exact sound.holds .tick id readAt isHolding
  | flush other =>
    by_cases same : other = index
    · subst same
      simp [System.holding, idle] at isHolding
    · apply sound.holds (.flush other) id readAt
      simpa [System.holding, same] using isHolding

theorem Sound.setGuard (sound : Sound sys) (session : Session Id) (guard : Option Holder)
    (unheld : ∀ holder other readAt, sys.holding holder = some (other, readAt) → other ≠ session) :
    Sound { sys with inflight := update sys.inflight session guard } := by
  refine ⟨sound.distinct, sound.registered, sound.announced, sound.bounded, sound.kept, sound.own,
    sound.unchanged, sound.succeeded, ?_⟩
  intro holder other readAt isHolding
  obtain ⟨held, newest⟩ := sound.holds holder other readAt isHolding
  have different := unheld holder other readAt isHolding
  exact ⟨by simpa [different] using held, newest⟩

theorem Sound.cover (sound : Sound sys) {holder : Holder}
    {readAt : Nat} (isHolding : sys.holding holder = some (session, some readAt))
    (noTick : holder = .tick → ∀ current, sys.tickPersist = some current →
      current.persisted = false) :
    Sound { sys with covered := update sys.covered session readAt } := by
  obtain ⟨held, newest⟩ := sound.holds holder session (some readAt) isHolding
  obtain ⟨newer, bound⟩ := newest readAt rfl
  refine ⟨sound.distinct, sound.registered, sound.announced, ?_, ?_, sound.own, sound.unchanged,
    ?_, ?_⟩
  · intro other
    by_cases same : other = session
    · subst same
      simpa using bound
    · simpa [same] using sound.bounded other
  · intro other member behind
    by_cases same : other = session
    · subst same
      simp only [update_self] at behind
      exact sound.kept other member (by omega)
    · simp only [update_of_ne same] at behind
      exact sound.kept other member behind
  · intro current inTick persisted
    by_cases byTick : holder = .tick
    · simp [noTick byTick current inTick] at persisted
    · have inHand : sys.holding .tick = some (current.session, current.readAt) := by
        simp [System.holding, show sys.tickPersist = some current from inTick]
      have different : current.session ≠ session :=
        sound.exclusive inHand isHolding (Ne.symm byTick)
      simpa [different] using sound.succeeded current inTick persisted
  · intro other otherSession otherRead otherHolding
    obtain ⟨otherHeld, otherNewest⟩ := sound.holds other otherSession otherRead otherHolding
    refine ⟨otherHeld, ?_⟩
    by_cases same : other = holder
    · subst same
      rw [show sys.holding other = some (otherSession, otherRead) from otherHolding] at isHolding
      cases isHolding
      intro count isCount
      cases isCount
      exact ⟨by simp, bound⟩
    · have different := sound.exclusive otherHolding isHolding same
      simpa [different] using otherNewest

theorem Sound.tickRelease (sound : Sound sys) (inTick : sys.tickPersist = some current)
    (remaining : List (Id × UInt64)) :
    Sound { sys with
      inflight := update sys.inflight current.session none
      tick := some ⟨remaining, none⟩ } := by
  have inHand : sys.holding .tick = some (current.session, current.readAt) := by
    simp [System.holding, inTick]
  apply (sound.tickIdle (some ⟨remaining, none⟩) rfl).setGuard current.session none
  intro holder other readAt isHolding
  cases holder with
  | tick => simp [System.holding, System.tickPersist] at isHolding
  | flush index =>
    have before : sys.holding (.flush index) = some (other, readAt) := isHolding
    exact sound.exclusive before inHand (by simp)

theorem newest_of_change {readAt : Option Nat}
    (newest : ∀ count, readAt = some count →
      sys.covered other ≤ count ∧ count ≤ sys.changed other) :
    ∀ count, readAt = some count → sys.covered other ≤ count ∧
      count ≤ update sys.changed session (sys.changed session + 1) other := by
  intro count isCount
  obtain ⟨newer, bound⟩ := newest count isCount
  by_cases same : other = session
  · subst same
    simp only [update_self]
    exact ⟨newer, by omega⟩
  · simpa [same] using ⟨newer, bound⟩

/-! ## Steps -/

theorem register_sound (sound : Sound sys) (ran : step sys (.register session) = some next) :
    Sound next := by
  unfold step at ran
  dsimp only at ran
  split_ifs at ran with taken
  cases ran
  have notFound : sys.find session.id = none := by
    rw [not_or, Option.not_isSome_iff_eq_none] at taken
    exact taken.1
  have newId := find_none notFound
  have isOther : ∀ other ∈ sys.sessions ++ [session], other ≠ session → other ∈ sys.sessions :=
    fun other isIn different => by simpa [different] using isIn
  refine ⟨?_, ?_, ?_, ?_, ?_, ?_, ?_, sound.succeeded, ?_⟩
  · intro first isFirst second isSecond same
    by_cases firstNew : first = session
    · by_contra different
      subst firstNew
      exact newId second (isOther second isSecond (Ne.symm different)) same.symm
    · by_cases secondNew : second = session
      · subst secondNew
        exact absurd same (newId first (isOther first isFirst firstNew))
      · exact sound.distinct first (isOther first isFirst firstNew) second
          (isOther second isSecond secondNew) same
  · intro id isDirty
    obtain ⟨other, member, isId⟩ := sound.registered id isDirty
    exact ⟨other, List.mem_append_left _ member, isId⟩
  · intro other
    by_cases same : other = session
    · subst same
      simp
    · simpa [same] using sound.announced other
  · intro other
    have bounded := sound.bounded other
    by_cases same : other = session
    · subst same
      simp only [update_self]
      omega
    · simpa [same] using bounded
  · intro other member behind
    by_cases same : other = session
    · subst same
      simp at behind
    · simp only [update_of_ne same] at behind
      exact sound.kept other (isOther other member same) behind
  · intro current inTick version other member isId
    by_cases same : other = session
    · have stands : sys.dirty current.session.id = some current.version := version
      obtain ⟨before, isBefore, sameId⟩ := sound.registered current.session.id (by simp [stands])
      exact absurd (sameId.trans (isId.symm.trans (same ▸ rfl))) (newId before isBefore)
    · exact sound.own current inTick version other (isOther other member same) isId
  · intro current readAt inTick isRead version
    by_cases same : current.session = session
    · simp [same]
    · simp only [update_of_ne same]
      exact sound.unchanged current readAt inTick isRead version
  · intro holder other readAt isHolding
    obtain ⟨held, newest⟩ := sound.holds holder other readAt isHolding
    exact ⟨held, newest_of_change newest⟩

theorem change_sound (sound : Sound sys) (guarded : Guarded sys (.change session))
    (ran : step sys (.change session) = some next) : Sound next := by
  unfold step at ran
  dsimp only at ran
  have bounded : ∀ other,
      sys.covered other ≤ update sys.changed session (sys.changed session + 1) other :=
    fun other => by
      have before := sound.bounded other
      by_cases same : other = session
      · subst same
        simp only [update_self]
        omega
      · simpa [same] using before
  have holds : ∀ holder other readAt, sys.holding holder = some (other, readAt) →
      sys.inflight other = some holder ∧ ∀ count, readAt = some count → sys.covered other ≤ count ∧
        count ≤ update sys.changed session (sys.changed session + 1) other :=
    fun holder other readAt isHolding => by
      obtain ⟨held, newest⟩ := sound.holds holder other readAt isHolding
      exact ⟨held, newest_of_change newest⟩
  split_ifs at ran with enabled
  · cases ran
    refine ⟨sound.distinct, sound.registered, ?_, bounded, sound.kept, sound.own, sound.unchanged,
      sound.succeeded, holds⟩
    intro other
    obtain ⟨marked, settled⟩ := sound.announced other
    by_cases same : other = session
    · subst same
      simp only [update_self]
      exact ⟨by omega, by simp⟩
    · simpa [same] using ⟨marked, settled⟩
  all_goals cases ran
  · rename_i stands
    obtain ⟨member, isDirty, settled⟩ := stands
    obtain ⟨_, unread⟩ :=
      (guarded (by simpa using enabled) member).resolve_left (not_not.mpr settled)
    refine ⟨sound.distinct, sound.registered, ?_, bounded, ?_, sound.own, ?_, sound.succeeded,
      holds⟩
    · intro other
      by_cases same : other = session
      · subst same
        simp
      · simpa [same] using sound.announced other
    · intro other isIn behind
      by_cases same : other = session
      · exact same ▸ isDirty
      · simp only [update_of_ne same] at behind
        exact sound.kept other isIn behind
    · intro current readAt inTick isRead version
      by_cases same : current.session = session
      · obtain ⟨pass, isPass, isCurrent⟩ := Option.bind_eq_some_iff.mp inTick
        exact absurd (same ▸ version) (unread pass current isPass isCurrent same (by simp [isRead]))
      · simp only [update_of_ne same]
        exact sound.unchanged current readAt inTick isRead version
  · rename_i stands
    refine ⟨sound.distinct, sound.registered, ?_, bounded, sound.kept, sound.own, sound.unchanged,
      sound.succeeded, holds⟩
    intro other
    obtain ⟨marked, settled⟩ := sound.announced other
    by_cases same : other = session
    · subst same
      simp only [update_self]
      refine ⟨by omega, fun member none => ?_⟩
      rcases guarded (by simpa using enabled) member with owed | ⟨isDirty, _⟩
      · exact absurd none owed
      · exact absurd ⟨member, isDirty, none⟩ stands
    · simpa [same] using ⟨marked, settled⟩

theorem markDirty_sound (sound : Sound sys) (guarded : Guarded sys (.markDirty session))
    (ran : step sys (.markDirty session) = some next) : Sound next := by
  unfold step at ran
  dsimp only at ran
  cases owed : sys.owed session with
  | zero => simp [owed] at ran
  | succ remaining =>
    rw [owed] at ran
    cases ran
    have marked : Sound (sys.markDirty session.id) := by
      apply sound.markDirty
      intro current inTick same late
      obtain ⟨pass, isPass, isCurrent⟩ := Option.bind_eq_some_iff.mp inTick
      exact guarded pass current isPass isCurrent same late
    refine ⟨marked.distinct, marked.registered, ?_, marked.bounded, marked.kept, marked.own,
      marked.unchanged, marked.succeeded, marked.holds⟩
    intro other
    obtain ⟨bounded, settled⟩ := marked.announced other
    refine ⟨bounded, fun member none => ?_⟩
    by_cases same : other = session
    · subst same
      have registered : other ∈ sys.sessions := by
        unfold System.markDirty at member
        split at member <;> exact member
      obtain ⟨found, isFound⟩ : ∃ found, sys.find other.id = some found := by
        cases isFound : sys.find other.id with
        | some found => exact ⟨found, rfl⟩
        | none => exact absurd rfl (find_none isFound other registered)
      obtain ⟨isIn, isId⟩ := find_some isFound
      have isOther := sound.distinct found isIn other registered isId
      unfold System.markDirty
      rw [isFound, isOther]
      exact update_self _ _ _
    · refine settled member ?_
      simp only [update_of_ne same] at none
      unfold System.markDirty
      split <;> exact none

theorem tickNext_sound (sound : Sound sys) (ran : step sys .tickNext = some next) :
    Sound next := by
  unfold step at ran
  dsimp only at ran
  split at ran
  case h_2 => cases ran
  case h_1 id version rest isTick =>
    have idle := sound.tickIdle (some ⟨rest, none⟩) rfl
    cases isFound : sys.find id with
    | some session =>
      obtain ⟨registered, rfl⟩ := find_some isFound
      rw [isFound] at ran
      dsimp only at ran
      split_ifs at ran with held
      · cases ran
        exact idle
      · cases ran
        have free : sys.inflight session = none := by simpa using held
        refine ⟨sound.distinct, sound.registered, sound.announced, sound.bounded, sound.kept, ?_,
          ?_, ?_, ?_⟩
        · intro current inTick _ other member isOther
          cases inTick
          exact sound.distinct other member session registered isOther
        · intro current readAt inTick isRead
          cases inTick
          cases isRead
        · intro current inTick persisted
          cases inTick
          cases persisted
        · intro holder other readAt isHolding
          cases holder with
          | tick =>
            cases isHolding
            exact ⟨by simp, by simp⟩
          | flush index =>
            have before : sys.holding (.flush index) = some (other, readAt) := isHolding
            obtain ⟨heldOther, newest⟩ := sound.holds (.flush index) other readAt before
            have different : other ≠ session := by
              intro same
              simp [same, free] at heldOther
            exact ⟨by simpa [different] using heldOther, newest⟩
    | none =>
      rw [isFound] at ran
      cases ran
      apply idle.dropDirty
      · intro other
        by_cases same : other = id
        · exact .inl (by simp [same])
        · exact .inr (by simp [same])
      · intro other member dropped
        have different : other.id ≠ id := find_none isFound other member
        exact .inr (by simpa [different] using dropped)

theorem tickRead_sound (sound : Sound sys) (ran : step sys .tickRead = some next) :
    Sound next := by
  unfold step at ran
  dsimp only at ran
  split at ran
  case h_2 => cases ran
  case h_1 remaining session version persisted isTick =>
    cases ran
    have before : sys.tickPersist = some ⟨session, version, none, persisted⟩ := by
      simp [System.tickPersist, isTick]
    have held : sys.inflight session = some .tick := sound.tickHolds before
    have own := sound.own ⟨session, version, none, persisted⟩ before
    refine ⟨sound.distinct, sound.registered, sound.announced, sound.bounded, sound.kept, ?_, ?_,
      ?_, ?_⟩
    · intro current inTick
      cases inTick
      exact own
    · intro current readAt inTick isRead _
      cases inTick
      cases isRead
      exact (sound.announced session).1
    · intro current inTick succeeded
      cases inTick
      have contradiction := sound.succeeded _ before succeeded
      cases contradiction
    · intro holder other readAt isHolding
      cases holder with
      | tick =>
        cases isHolding
        refine ⟨held, ?_⟩
        intro count isCount
        cases isCount
        exact ⟨sound.bounded session, Nat.le_refl _⟩
      | flush index => exact sound.holds (.flush index) other readAt isHolding

theorem tickOutcome_sound (sound : Sound sys)
    (ran : step sys (.tickOutcome outcome) = some next) :
    Sound next := by
  unfold step at ran
  dsimp only at ran
  split at ran
  case h_2 => cases ran
  case h_1 remaining session version readAt isTick =>
    have before : sys.tickPersist = some ⟨session, version, some readAt, false⟩ := by
      simp [System.tickPersist, isTick]
    cases outcome with
    | ok =>
      cases ran
      have inHand : sys.holding .tick = some (session, some readAt) := by
        simp [System.holding, before]
      have own := sound.own ⟨session, version, some readAt, false⟩ before
      have unchanged := sound.unchanged ⟨session, version, some readAt, false⟩ readAt before rfl
      have covered := sound.cover inHand (by
        intro _ current inTick
        rw [before] at inTick
        cases inTick
        rfl)
      refine ⟨covered.distinct, covered.registered, covered.announced, covered.bounded,
        covered.kept, ?_, ?_, ?_, ?_⟩
      · intro current inTick
        cases inTick
        exact own
      · intro current otherRead inTick isRead stands
        cases inTick
        cases isRead
        exact unchanged stands
      · intro current inTick _
        cases inTick
        simp
      · intro holder other otherRead isHolding
        cases holder with
        | tick =>
          cases isHolding
          exact covered.holds .tick session (some readAt)
            (by simp [System.holding, System.tickPersist, isTick])
        | flush index => exact covered.holds (.flush index) other otherRead isHolding
    | retry =>
      cases ran
      exact sound.tickRelease before remaining
    | disabled =>
      cases ran
      exact (sound.removeSession session.id).tickRelease before remaining

/-- The tick clears a session only while the version it recorded stands. Then the
id is that of its own session, and its persist has covered every mark. -/
theorem clearDirtyIfUnchanged_sound (sound : Sound sys)
    (ran : step sys .clearDirtyIfUnchanged = some next) : Sound next := by
  unfold step at ran
  dsimp only at ran
  split at ran
  case h_2 => cases ran
  case h_1 remaining session version readAt isTick =>
    cases ran
    have before : sys.tickPersist = some ⟨session, version, readAt, true⟩ := by
      simp [System.tickPersist, isTick]
    have released := sound.tickRelease before remaining
    split_ifs with stands
    · apply released.dropDirty
      · intro other
        by_cases same : other = session.id
        · exact .inl (by simp [same])
        · exact .inr (by simp [same])
      · intro other member dropped
        by_cases same : other.id = session.id
        · have isOwn : other = session := sound.own _ before stands other member same
          subst isOwn
          have isRead := sound.succeeded _ before rfl
          exact .inl (sound.unchanged _ _ before isRead stands)
        · exact .inr (by simpa [same] using dropped)
    · exact released

theorem flushLock_sound (sound : Sound sys)
    (ran : step sys (.flushLock index) = some next) : Sound next := by
  unfold step at ran
  dsimp only at ran
  split at ran
  case h_2 => cases ran
  case h_1 session rest isFlush =>
    split_ifs at ran with held
    cases ran
    have free : sys.inflight session = none := by simpa using held
    refine ⟨sound.distinct, sound.registered, sound.announced, sound.bounded, sound.kept,
      sound.own, sound.unchanged, sound.succeeded, ?_⟩
    have kept : ∀ holder other readAt, sys.holding holder = some (other, readAt) →
        update sys.inflight session (some (.flush index)) other = some holder ∧
          ∀ count, readAt = some count →
            sys.covered other ≤ count ∧ count ≤ sys.changed other := by
      intro holder other readAt isHolding
      obtain ⟨heldOther, newest⟩ := sound.holds holder other readAt isHolding
      have different : other ≠ session := by
        intro same
        simp [same, free] at heldOther
      exact ⟨by simpa [different] using heldOther, newest⟩
    intro holder other readAt isHolding
    cases holder with
    | tick => exact kept .tick other readAt isHolding
    | flush otherIndex =>
      by_cases same : otherIndex = index
      · subst same
        simp only [System.holding, update_self, Option.bind_some, Option.map_some,
          Option.some.injEq, Prod.mk.injEq] at isHolding
        obtain ⟨rfl, rfl⟩ := isHolding
        exact ⟨by simp, by simp⟩
      · apply kept (.flush otherIndex) other readAt
        simpa [System.holding, same] using isHolding

theorem flushRead_sound (sound : Sound sys)
    (ran : step sys (.flushRead index) = some next) : Sound next := by
  unfold step at ran
  dsimp only at ran
  split at ran
  case h_2 => cases ran
  case h_1 remaining session isFlush =>
    cases ran
    have before : sys.holding (.flush index) = some (session, none) := by
      simp [System.holding, isFlush]
    refine ⟨sound.distinct, sound.registered, sound.announced, sound.bounded, sound.kept,
      sound.own, sound.unchanged, sound.succeeded, ?_⟩
    intro holder other readAt isHolding
    cases holder with
    | tick => exact sound.holds .tick other readAt isHolding
    | flush otherIndex =>
      by_cases same : otherIndex = index
      · subst same
        simp only [System.holding, update_self, Option.bind_some, Option.map_some,
          Option.some.injEq, Prod.mk.injEq] at isHolding
        obtain ⟨rfl, rfl⟩ := isHolding
        refine ⟨(sound.holds (.flush otherIndex) session none before).1, ?_⟩
        intro count isCount
        cases isCount
        exact ⟨sound.bounded session, Nat.le_refl _⟩
      · apply sound.holds (.flush otherIndex) other readAt
        simpa [System.holding, same] using isHolding

theorem flushOutcome_sound (sound : Sound sys)
    (ran : step sys (.flushOutcome index outcome) = some next) :
    Sound next := by
  unfold step at ran
  dsimp only at ran
  split at ran
  case h_2 => cases ran
  case h_1 remaining session readAt isFlush =>
    cases ran
    have before : sys.holding (.flush index) = some (session, some readAt) := by
      simp [System.holding, isFlush]
    have covered : Sound { sys with
        covered := if outcome = .ok then update sys.covered session readAt
          else sys.covered } := by
      split_ifs
      · exact sound.cover before (by simp)
      · exact sound
    apply (covered.flushIdle index (some ⟨remaining, none⟩) rfl).setGuard session none
    intro holder other otherRead isHolding
    cases holder with
    | tick =>
      have inTick : sys.holding .tick = some (other, otherRead) := isHolding
      exact sound.exclusive inTick before (by simp)
    | flush otherIndex =>
      by_cases same : otherIndex = index
      · subst same
        simp [System.holding] at isHolding
      · have inFlush : sys.holding (.flush otherIndex) = some (other, otherRead) := by
          simpa [System.holding, same] using isHolding
        exact sound.exclusive inFlush before (by simpa using same)

theorem flushClear_sound (sound : Sound sys) (guarded : Guarded sys (.flushClear index))
    (ran : step sys (.flushClear index) = some next) : Sound next := by
  unfold step at ran
  dsimp only at ran
  split at ran
  case h_2 => cases ran
  case h_1 isFlush =>
    cases ran
    apply (sound.flushIdle index none rfl).dropDirty (fun _ => none)
    · intro other
      exact .inl rfl
    · intro other member _
      by_cases already : sys.dirty other.id = none
      · exact .inr already
      · exact .inl (guarded other member already)

theorem step_sound {label : Label Id} (sound : Sound sys) (guarded : Guarded sys label)
    (ran : step sys label = some next) : Sound next := by
  cases label with
  | register session => exact register_sound sound ran
  | enableHistory session =>
    unfold step at ran
    dsimp only at ran
    split_ifs at ran
    cases ran
    exact { sound with }
  | close id =>
    cases ran
    exact sound.removeSession id
  | change session => exact change_sound sound guarded ran
  | markDirty session => exact markDirty_sound sound guarded ran
  | tickStart order =>
    unfold step at ran
    dsimp only at ran
    split at ran
    · cases ran
    · split_ifs at ran
      cases ran
      exact sound.tickIdle _ rfl
  | tickNext => exact tickNext_sound sound ran
  | tickRead => exact tickRead_sound sound ran
  | tickOutcome outcome => exact tickOutcome_sound sound ran
  | clearDirtyIfUnchanged => exact clearDirtyIfUnchanged_sound sound ran
  | tickEnd =>
    unfold step at ran
    dsimp only at ran
    split at ran
    · cases ran
      exact sound.tickIdle none rfl
    · cases ran
  | flushStart index order =>
    unfold step at ran
    dsimp only at ran
    split at ran
    · cases ran
    · split_ifs at ran
      cases ran
      exact sound.flushIdle index _ rfl
  | flushLock index => exact flushLock_sound sound ran
  | flushRead index => exact flushRead_sound sound ran
  | flushOutcome index outcome => exact flushOutcome_sound sound ran
  | flushClear index => exact flushClear_sound sound guarded ran

end AiTools.Daemon.Checkpointer.Dirty
