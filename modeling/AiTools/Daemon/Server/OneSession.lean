import AiTools.Daemon.Server.Slots

/-!
Contract: at most one session of an id is alive.
-/

namespace AiTools.Daemon.Server.Slots

open AiTools.Lib.Keyed AiTools.Lib.Transition
open Function (update update_of_ne update_self)

variable {Id : Type*}

/-- The call has a reservation in the map. -/
def CallStage.holds : CallStage → Bool
  | .resolving => false
  | .waiting => false
  | .attaching => false
  | .snapshotting _ => false
  | .probing => true
  | .spawning _ => true
  | .failed _ => true
  | .registering _ _ => true
  | .publishing _ _ _ => true
  | .returned _ => false

/-- The session that the call has spawned and not published yet. -/
def CallStage.carries : CallStage → Option Nat
  | .registering session _ => some session
  | .publishing session _ _ => some session
  | _ => none

/-- A reservation is followed by one spawn, and nothing else is. -/
def Call.Counted (call : Call Id) : Prop :=
  match call.stage with
  | .resolving => call.reservations = 0 ∧ call.spawns = 0
  | .waiting => call.reservations = 0 ∧ call.spawns = 0
  | .attaching => call.reservations = 0 ∧ call.spawns = 0
  | .snapshotting _ => call.reservations = 0 ∧ call.spawns = 0
  | .probing => call.reservations = 1 ∧ call.spawns = 0
  | .spawning _ => call.reservations = 1 ∧ call.spawns = 0
  | .failed _ => call.reservations = 1 ∧ call.spawns = 1
  | .registering _ _ => call.reservations = 1 ∧ call.spawns = 1
  | .publishing _ _ _ => call.reservations = 1 ∧ call.spawns = 1
  | .returned _ => call.reservations = call.spawns ∧ call.spawns ≤ 1

/-- Past `alive := false`. -/
def Reader.ended : Reader → Bool
  | .reading => false
  | .stopped => false
  | .closing => true
  | .reaping => true
  | .returned => true

section
variable [DecidableEq Id]

/-- A call that holds the reservation of the id. -/
def System.Holder (sys : System Id) (id : Id) (index : Nat) : Prop :=
  ∃ call, sys.calls index = some call ∧ call.sessionId = id ∧ call.stage.holds = true

structure Sound (sys : System Id) : Prop where
  uncalled : ∀ index, sys.called ≤ index → sys.calls index = none
  unspawned : ∀ session, sys.spawned ≤ session → sys.sessions session = none
  counted : ∀ index call, sys.calls index = some call → call.Counted
  held : ∀ id index, sys.Holder id index → sys.lookup id = some .pending
  holder : ∀ id, sys.lookup id = some .pending → ∃ index, sys.Holder id index
  unique : ∀ id first second, sys.Holder id first → sys.Holder id second → first = second
  carried : ∀ index call session, sys.calls index = some call →
    call.stage.carries = some session →
      ∃ found, sys.sessions session = some found ∧ found.id = call.sessionId
  /-- A session that is alive is in the map, or on its way there. -/
  alive : ∀ session found, sys.sessions session = some found → found.alive = true →
    sys.lookup found.id = some (.live session) ∨
      ∃ index call, sys.calls index = some call ∧ call.sessionId = found.id ∧
        call.stage.carries = some session
  ended : ∀ session found, sys.sessions session = some found → found.reader.ended = true →
    found.alive = false

theorem initial_sound : Sound (System.initial : System Id) where
  uncalled := by simp [System.initial]
  unspawned := by simp [System.initial]
  counted := by simp [System.initial]
  held := by
    rintro id index ⟨call, isCall, _⟩
    cases isCall
  holder := nofun
  unique := by
    rintro id first second ⟨call, isCall, _⟩
    cases isCall
  carried := by simp [System.initial]
  alive := by simp [System.initial]
  ended := by simp [System.initial]

theorem lookup_put (sys : System Id) (entry : Entry Id) (id : Id) :
    System.lookup { sys with slots := sys.slots.put entry } id =
      if entry.id = id then some entry.slot else sys.lookup id := by
  unfold System.lookup
  dsimp only
  rw [Table.find?_put]
  split_ifs with same
  · rfl
  · rfl

theorem lookup_remove (sys : System Id) (gone id : Id) :
    System.lookup { sys with slots := sys.slots.remove gone } id =
      if id = gone then none else sys.lookup id := by
  unfold System.lookup
  dsimp only
  rw [Table.find?_remove]
  split_ifs with same
  · rfl
  · rfl

variable {sys : System Id} {index : Nat} {call : Call Id}

omit [DecidableEq Id] in
theorem setCall_calls {other : Nat} {found : Call Id}
    (isFound : (sys.setCall index call).calls other = some found) :
    other = index ∧ found = call ∨ other ≠ index ∧ sys.calls other = some found :=
  (update_eq_some isFound).imp_left fun ⟨same, isCall⟩ => ⟨same, (Option.some.inj isCall).symm⟩

omit [DecidableEq Id] in
theorem setCall_of_ne {other : Nat} {found : Call Id}
    (different : other ≠ index) (isFound : sys.calls other = some found) :
    (sys.setCall index call).calls other = some found := by
  change update sys.calls index (some call) other = some found
  rw [update_of_ne different]
  exact isFound

theorem Sound.counted_setCall (sound : Sound sys) (counted : call.Counted) (other : Nat)
    (found : Call Id) (isFound : (sys.setCall index call).calls other = some found) :
    found.Counted := by
  rcases setCall_calls isFound with ⟨_, isCall⟩ | ⟨_, isOld⟩
  · exact isCall ▸ counted
  · exact sound.counted other found isOld

theorem Sound.uncalled_setCall (sound : Sound sys)
    (isCall : sys.calls index = some call) (moved : Call Id) (other : Nat)
    (later : sys.called ≤ other) : (sys.setCall index moved).calls other = none := by
  have different : other ≠ index := by
    intro same
    subst same
    simp [sound.uncalled other later] at isCall
  change update sys.calls index (some moved) other = none
  rw [update_of_ne different]
  exact sound.uncalled other later

omit [DecidableEq Id] in
theorem holder_setCall {moved : Call Id}
    (isCall : sys.calls index = some call) (sameId : moved.sessionId = call.sessionId)
    (sameHold : moved.stage.holds = call.stage.holds) (id : Id) (other : Nat) :
    (sys.setCall index moved).Holder id other ↔ sys.Holder id other := by
  constructor
  · rintro ⟨found, isFound, isId, holds⟩
    rcases setCall_calls isFound with ⟨same, isMoved⟩ | ⟨_, isOld⟩
    · subst same
      subst isMoved
      exact ⟨call, isCall, sameId ▸ isId, sameHold ▸ holds⟩
    · exact ⟨found, isOld, isId, holds⟩
  · rintro ⟨found, isFound, isId, holds⟩
    by_cases same : other = index
    · subst same
      rw [isCall] at isFound
      cases isFound
      exact ⟨moved, update_self .., sameId.trans isId, sameHold.trans holds⟩
    · exact ⟨found, setCall_of_ne same isFound, isId, holds⟩

theorem Sound.moveCall (sound : Sound sys) {moved : Call Id} (isCall : sys.calls index = some call)
    (sameId : moved.sessionId = call.sessionId) (sameHold : moved.stage.holds = call.stage.holds)
    (sameCarry : moved.stage.carries = call.stage.carries) (counted : moved.Counted) :
    Sound (sys.setCall index moved) := by
  have holders := holder_setCall isCall sameId sameHold
  refine { sound with
    uncalled := ?_, counted := ?_, held := ?_, holder := ?_, unique := ?_, carried := ?_,
    alive := ?_ }
  · exact sound.uncalled_setCall isCall moved
  · exact sound.counted_setCall counted
  · intro id other isHolder
    exact sound.held id other ((holders id other).mp isHolder)
  · intro id isPending
    obtain ⟨other, isHolder⟩ := sound.holder id isPending
    exact ⟨other, (holders id other).mpr isHolder⟩
  · intro id first second isFirst isSecond
    exact sound.unique id first second ((holders id first).mp isFirst)
      ((holders id second).mp isSecond)
  · intro other found session isFound carries
    rcases setCall_calls isFound with ⟨_, isMoved⟩ | ⟨_, isOld⟩
    · subst isMoved
      rw [sameId]
      exact sound.carried index call session isCall (sameCarry.symm.trans carries)
    · exact sound.carried other found session isOld carries
  · intro session found isSession isAlive
    rcases sound.alive session found isSession isAlive with isLive | ⟨other, old, isOld, isId, carries⟩
    · exact .inl isLive
    · right
      by_cases same : other = index
      · subst same
        rw [isCall] at isOld
        cases isOld
        exact ⟨other, moved, update_self .., sameId.trans isId, sameCarry.trans carries⟩
      · exact ⟨other, old, setCall_of_ne same isOld, isId, carries⟩

/-! ## Every step -/

theorem Sound.request (sound : Sound sys) (id : Id) :
    Sound { sys.setCall sys.called ⟨id, .resolving, 0, 0⟩ with
      called := sys.called + 1 } := by
  have fresh := sound.uncalled sys.called (Nat.le_refl _)
  have kept : ∀ {index : Nat} {call : Call Id}, sys.calls index = some call →
      index ≠ sys.called := by
    intro index call isCall same
    simp [same, fresh] at isCall
  have holders : ∀ other index,
      (sys.setCall sys.called ⟨id, .resolving, 0, 0⟩).Holder other index →
        sys.Holder other index := by
    rintro other index ⟨call, isCall, isId, holds⟩
    rcases setCall_calls isCall with ⟨_, isNew⟩ | ⟨_, isOld⟩
    · subst isNew
      cases holds
    · exact ⟨call, isOld, isId, holds⟩
  refine { sound with
    uncalled := ?_, counted := ?_, held := ?_, holder := ?_, unique := ?_, carried := ?_,
    alive := ?_ }
  · intro index later
    change sys.called + 1 ≤ index at later
    change update sys.calls sys.called _ index = none
    rw [update_of_ne (by omega)]
    exact sound.uncalled index (by omega)
  · exact sound.counted_setCall ⟨rfl, rfl⟩
  · intro other index isHolder
    exact sound.held other index (holders other index isHolder)
  · intro other isPending
    obtain ⟨index, call, isCall, isId, holds⟩ := sound.holder other isPending
    exact ⟨index, call, setCall_of_ne (kept isCall) isCall, isId, holds⟩
  · intro other first second isFirst isSecond
    exact sound.unique other first second (holders other first isFirst)
      (holders other second isSecond)
  · intro index call session isCall carries
    rcases setCall_calls isCall with ⟨_, isNew⟩ | ⟨_, isOld⟩
    · subst isNew
      cases carries
    · exact sound.carried index call session isOld carries
  · intro session found isSession isAlive
    rcases sound.alive session found isSession isAlive with isLive | ⟨index, call, isCall, rest⟩
    · exact .inl isLive
    · exact .inr ⟨index, call, setCall_of_ne (kept isCall) isCall, rest⟩

theorem Sound.reserve (sound : Sound sys)
    (isCall : sys.calls index = some call) (resolving : call.stage = .resolving)
    (isFree : ∀ slot, sys.lookup call.sessionId = some slot →
      ∃ session, slot = .live session ∧ sys.isAlive session = false) :
    Sound (sys.reserve index call) := by
  have notPending : sys.lookup call.sessionId ≠ some .pending := by
    intro isPending
    obtain ⟨session, isLive, _⟩ := isFree _ isPending
    cases isLive
  have lookups : ∀ id, (sys.reserve index call).lookup id =
      if call.sessionId = id then some .pending else sys.lookup id :=
    fun id => lookup_put sys ⟨call.sessionId, .pending⟩ id
  have holders : ∀ id other, (sys.reserve index call).Holder id other →
      other = index ∧ id = call.sessionId ∨ sys.Holder id other := by
    rintro id other ⟨found, isFound, isId, holds⟩
    rcases setCall_calls isFound with ⟨same, isMoved⟩ | ⟨_, isOld⟩
    · subst isMoved
      exact .inl ⟨same, isId.symm⟩
    · exact .inr ⟨found, isOld, isId, holds⟩
  have idle : ∀ id, ¬ sys.Holder id index := by
    rintro id ⟨found, isFound, _, holds⟩
    rw [isCall] at isFound
    cases isFound
    rw [resolving] at holds
    cases holds
  refine { sound with
    uncalled := ?_, counted := ?_, held := ?_, holder := ?_, unique := ?_, carried := ?_,
    alive := ?_ }
  · exact sound.uncalled_setCall isCall _
  · have counted := sound.counted index call isCall
    unfold Call.Counted at counted
    rw [resolving] at counted
    exact sound.counted_setCall ⟨congrArg (· + 1) counted.1, counted.2⟩
  · intro id other isHolder
    rw [lookups]
    rcases holders id other isHolder with ⟨_, isId⟩ | isOld
    · rw [if_pos isId.symm]
    · split_ifs with same
      · rfl
      · exact sound.held id other isOld
  · intro id isPending
    rw [lookups] at isPending
    by_cases same : call.sessionId = id
    · exact ⟨index, _, update_self .., same, rfl⟩
    · rw [if_neg same] at isPending
      obtain ⟨other, found, isFound, isId, holds⟩ := sound.holder id isPending
      refine ⟨other, found, setCall_of_ne ?_ isFound, isId, holds⟩
      intro isIndex
      exact idle id (isIndex ▸ ⟨found, isFound, isId, holds⟩)
  · intro id first second isFirst isSecond
    rcases holders id first isFirst with ⟨atFirst, isId⟩ | oldFirst
    · rcases holders id second isSecond with ⟨atSecond, _⟩ | oldSecond
      · rw [atFirst, atSecond]
      · exact absurd (isId ▸ sound.held id second oldSecond) notPending
    · rcases holders id second isSecond with ⟨_, isId⟩ | oldSecond
      · exact absurd (isId ▸ sound.held id first oldFirst) notPending
      · exact sound.unique id first second oldFirst oldSecond
  · intro other found session isFound carries
    rcases setCall_calls isFound with ⟨_, isMoved⟩ | ⟨_, isOld⟩
    · subst isMoved
      cases carries
    · exact sound.carried other found session isOld carries
  · intro session found isSession isAlive
    rcases sound.alive session found isSession isAlive with
      isLive | ⟨other, old, isOld, isId, carries⟩
    · left
      rw [lookups]
      split_ifs with same
      · exfalso
        rw [← same] at isLive
        obtain ⟨dead, isDead, notAlive⟩ := isFree _ isLive
        cases isDead
        unfold System.isAlive at notAlive
        change sys.sessions session = some found at isSession
        rw [isSession] at notAlive
        have notAlive : found.alive = false := notAlive
        simp [isAlive] at notAlive
      · exact isLive
    · right
      refine ⟨other, old, setCall_of_ne ?_ isOld, isId, carries⟩
      intro same
      subst same
      rw [isCall] at isOld
      cases isOld
      rw [resolving] at carries
      cases carries

/-- The holder of a reservation puts its session, or nothing, in the place of it. -/
theorem Sound.leave (sound : Sound sys) {moved : Call Id} (isCall : sys.calls index = some call)
    (holds : call.stage.holds = true) (left : moved.stage.holds = false)
    (carriesNone : moved.stage.carries = none) (counted : moved.Counted)
    {slots : Table (Entry.id : Entry Id → Id)} (slot : Option SessionSlot)
    (lookups : ∀ id, System.lookup { sys with slots := slots } id =
      if id = call.sessionId then slot else sys.lookup id) (notPending : slot ≠ some .pending)
    (keeps : ∀ session, call.stage.carries = some session → slot = some (.live session)) :
    Sound { sys.setCall index moved with slots := slots } := by
  have isHolder : sys.Holder call.sessionId index := ⟨call, isCall, rfl, holds⟩
  have holders : ∀ id other, (sys.setCall index moved).Holder id other →
      other ≠ index ∧ sys.Holder id other := by
    rintro id other ⟨found, isFound, isId, stillHolds⟩
    rcases setCall_calls isFound with ⟨_, isMoved⟩ | ⟨different, isOld⟩
    · subst isMoved
      simp [left] at stillHolds
    · exact ⟨different, found, isOld, isId, stillHolds⟩
  have elsewhere : ∀ id other, other ≠ index → sys.Holder id other → id ≠ call.sessionId := by
    intro id other different isOther same
    subst same
    exact different (sound.unique _ other index isOther isHolder)
  refine { sound with
    uncalled := ?_, counted := ?_, held := ?_, holder := ?_, unique := ?_, carried := ?_,
    alive := ?_ }
  · exact sound.uncalled_setCall isCall _
  · exact sound.counted_setCall counted
  · intro id other stillHolder
    obtain ⟨different, isOld⟩ := holders id other stillHolder
    refine (lookups id).trans ?_
    rw [if_neg (elsewhere id other different isOld)]
    exact sound.held id other isOld
  · intro id isPending
    have isPending := (lookups id).symm.trans isPending
    by_cases same : id = call.sessionId
    · rw [if_pos same] at isPending
      exact absurd isPending notPending
    · rw [if_neg same] at isPending
      obtain ⟨other, found, isFound, isId, stillHolds⟩ := sound.holder id isPending
      refine ⟨other, found, setCall_of_ne ?_ isFound, isId, stillHolds⟩
      intro isIndex
      subst isIndex
      rw [isCall] at isFound
      cases isFound
      exact same isId.symm
  · intro id first second isFirst isSecond
    exact sound.unique id first second (holders id first isFirst).2 (holders id second isSecond).2
  · intro other found session isFound carries
    rcases setCall_calls isFound with ⟨_, isMoved⟩ | ⟨_, isOld⟩
    · subst isMoved
      simp [carriesNone] at carries
    · exact sound.carried other found session isOld carries
  · intro session found isSession isAlive
    rcases sound.alive session found isSession isAlive with
      isLive | ⟨other, old, isOld, isId, carries⟩
    · left
      refine (lookups found.id).trans ?_
      rw [if_neg]
      · exact isLive
      · intro same
        simp [same, sound.held _ index isHolder] at isLive
    · by_cases same : other = index
      · left
        subst same
        rw [isCall] at isOld
        cases isOld
        refine (lookups found.id).trans ?_
        rw [if_pos isId.symm]
        exact keeps session carries
      · exact .inr ⟨other, old, setCall_of_ne same isOld, isId, carries⟩

omit [DecidableEq Id] in
theorem setSession_sessions {session other : Nat} {later found : Session Id}
    (isFound : (sys.setSession session later).sessions other = some found) :
    other = session ∧ found = later ∨ other ≠ session ∧ sys.sessions other = some found :=
  (update_eq_some isFound).imp_left fun ⟨same, isNew⟩ => ⟨same, (Option.some.inj isNew).symm⟩

theorem Sound.spawn {sys : System Id} (sound : Sound sys) {index : Nat}
    {call moved : Call Id} {cold : Bool} (isCall : sys.calls index = some call)
    (spawning : call.stage = .spawning cold) (sameId : moved.sessionId = call.sessionId)
    (holds : moved.stage.holds = true) (carries : moved.stage.carries = some sys.spawned)
    (counted : moved.Counted) :
    Sound { (sys.setCall index moved).setSession sys.spawned
        ⟨call.sessionId, true, .reading⟩ with
      spawned := sys.spawned + 1 } := by
  have fresh := sound.unspawned sys.spawned (Nat.le_refl _)
  have kept : ∀ {session : Nat} {found : Session Id}, sys.sessions session = some found →
      (sys.setSession sys.spawned ⟨call.sessionId, true, .reading⟩).sessions session =
        some found := by
    intro session found isSession
    change update sys.sessions sys.spawned _ session = some found
    rw [update_of_ne]
    · exact isSession
    · intro same
      simp [same, fresh] at isSession
  have sameHold : moved.stage.holds = call.stage.holds := by
    rw [holds, spawning]
    rfl
  have holders := holder_setCall isCall sameId sameHold
  refine ⟨?_, ?_, ?_, ?_, ?_, ?_, ?_, ?_, ?_⟩
  · exact sound.uncalled_setCall isCall moved
  · intro session later
    change sys.spawned + 1 ≤ session at later
    change update sys.sessions sys.spawned _ session = none
    rw [update_of_ne (by omega)]
    exact sound.unspawned session (by omega)
  · exact sound.counted_setCall counted
  · intro id other isHolder
    exact sound.held id other ((holders id other).mp isHolder)
  · intro id isPending
    obtain ⟨other, isHolder⟩ := sound.holder id isPending
    exact ⟨other, (holders id other).mpr isHolder⟩
  · intro id first second isFirst isSecond
    exact sound.unique id first second ((holders id first).mp isFirst)
      ((holders id second).mp isSecond)
  · intro other found session isFound stillCarries
    rcases setCall_calls isFound with ⟨_, isMoved⟩ | ⟨_, isOld⟩
    · subst isMoved
      rw [carries] at stillCarries
      cases stillCarries
      exact ⟨_, update_self .., sameId.symm⟩
    · obtain ⟨old, isSession, isId⟩ := sound.carried other found session isOld stillCarries
      exact ⟨old, kept isSession, isId⟩
  · intro session found isFound isAlive
    rcases setSession_sessions isFound with ⟨same, isNew⟩ | ⟨_, isOld⟩
    · subst same
      subst isNew
      exact .inr ⟨index, moved, update_self .., sameId, carries⟩
    · rcases sound.alive session found isOld isAlive with
        isLive | ⟨other, old, isOther, isId, stillCarries⟩
      · exact .inl isLive
      · refine .inr ⟨other, old, setCall_of_ne ?_ isOther, isId, stillCarries⟩
        intro same
        subst same
        rw [isCall] at isOther
        cases isOther
        rw [spawning] at stillCarries
        cases stillCarries
  · intro session found isFound isEnded
    rcases setSession_sessions isFound with ⟨_, isNew⟩ | ⟨_, isOld⟩
    · subst isNew
      cases isEnded
    · exact sound.ended session found isOld isEnded

theorem Sound.setSession (sound : Sound sys) {session : Nat}
    {found later : Session Id} (isSession : sys.sessions session = some found)
    (sameId : later.id = found.id) (alive : later.alive = true → found.alive = true)
    (ended : later.reader.ended = true → later.alive = false) :
    Sound (sys.setSession session later) := by
  refine { sound with unspawned := ?_, carried := ?_, alive := ?_, ended := ?_ }
  · intro other isLater
    have different : other ≠ session := by
      intro same
      subst same
      simp [sound.unspawned other isLater] at isSession
    change update sys.sessions session (some later) other = none
    rw [update_of_ne different]
    exact sound.unspawned other isLater
  · intro index call other isCall carries
    obtain ⟨old, isOld, isId⟩ := sound.carried index call other isCall carries
    by_cases same : other = session
    · subst same
      rw [isSession] at isOld
      cases isOld
      exact ⟨later, update_self .., sameId.trans isId⟩
    · refine ⟨old, ?_, isId⟩
      change update sys.sessions session (some later) other = some old
      rw [update_of_ne same]
      exact isOld
  · intro other old isOld isAlive
    rcases setSession_sessions isOld with ⟨same, isLater⟩ | ⟨_, isOld⟩
    · subst same
      subst isLater
      rw [sameId]
      exact sound.alive other found isSession (alive isAlive)
    · exact sound.alive other old isOld isAlive
  · intro other old isOld isEnded
    rcases setSession_sessions isOld with ⟨_, isLater⟩ | ⟨_, isOld⟩
    · subst isLater
      exact ended isEnded
    · exact sound.ended other old isOld isEnded

theorem Sound.reap {sys : System Id} (sound : Sound sys) {session : Nat}
    {found : Session Id} (isSession : sys.sessions session = some found)
    (dead : found.alive = false) : Sound (sys.reap session found.id) := by
  unfold System.reap
  split
  case isFalse => exact sound
  case isTrue isLive =>
    have lookups : ∀ id, System.lookup { sys with slots := sys.slots.remove found.id } id =
        if id = found.id then none else sys.lookup id := lookup_remove sys found.id
    refine { sound with held := ?_, holder := ?_, alive := ?_ }
    · intro id index isHolder
      have isPending := sound.held id index isHolder
      rw [lookups, if_neg]
      · exact isPending
      · intro same
        simp [same, isLive] at isPending
    · intro id isPending
      rw [lookups] at isPending
      split_ifs at isPending
      exact sound.holder id isPending
    · intro other old isOld isAlive
      rcases sound.alive other old isOld isAlive with otherLive | carried
      · left
        rw [lookups, if_neg]
        · exact otherLive
        · intro same
          rw [same, isLive] at otherLive
          cases otherLive
          change sys.sessions session = some old at isOld
          rw [isSession] at isOld
          cases isOld
          simp [dead] at isAlive
      · exact .inr carried

theorem Proceeds.keeps {label : Label Id}
    {stage : CallStage} {spawns : Nat} (proceeds : Proceeds sys call label stage spawns)
    (counted : call.Counted) : stage.holds = call.stage.holds ∧ stage.carries = call.stage.carries ∧
      Call.Counted { call with stage := stage, spawns := call.spawns + spawns } := by
  unfold Call.Counted at counted ⊢
  cases proceeds with
  | attach atStage | wait atStage | wake atStage | get atStage | gone atStage | snapshot atStage
  | snapshotPanics atStage | probe atStage | spawnFails atStage | spawnPanics atStage
  | register atStage =>
    rw [atStage] at counted ⊢
    refine ⟨rfl, rfl, ?_⟩
    dsimp only at counted ⊢
    omega

omit [DecidableEq Id] in
theorem Reads.keeps {found later : Session Id} (reads : Reads found later)
    (ended : found.reader.ended = true → found.alive = false) :
    later.id = found.id ∧ (later.alive = true → found.alive = true) ∧
      (later.reader.ended = true → later.alive = false) := by
  cases reads with
  | eof => exact ⟨rfl, id, nofun⟩
  | die => exact ⟨rfl, nofun, fun _ => rfl⟩
  | close => exact ⟨rfl, id, fun _ => ended rfl⟩

theorem Moves.sound {next : System Id} {label : Label Id} (moves : Moves sys label next)
    (sound : Sound sys) : Sound next := by
  cases moves with
  | request => exact sound.request _
  | proceed isCall proceeds =>
    obtain ⟨sameHold, sameCarry, counted⟩ := proceeds.keeps (sound.counted _ _ isCall)
    exact sound.moveCall isCall rfl sameHold sameCarry counted
  | reserve isCall resolving isFree => exact sound.reserve isCall resolving isFree
  | spawn isCall spawning =>
    have counted := sound.counted _ _ isCall
    unfold Call.Counted at counted
    rw [spawning] at counted
    exact sound.spawn isCall spawning rfl rfl rfl
      ⟨counted.1, congrArg (· + 1) counted.2⟩
  | @publish index session call cold persisted isCall publishing reply =>
    have counted := sound.counted index call isCall
    unfold Call.Counted at counted
    rw [publishing] at counted
    apply sound.leave isCall _ rfl rfl _ (some (.live session))
    · intro id
      rw [lookup_put]
      exact if_congr eq_comm rfl rfl
    · nofun
    · intro carried carries
      rw [publishing] at carries
      cases carries
      rfl
    · rw [publishing]
      rfl
    · exact ⟨counted.1.trans counted.2.symm, Nat.le_of_eq counted.2⟩
  | @release index call error isCall failed =>
    have counted := sound.counted index call isCall
    unfold Call.Counted at counted
    rw [failed] at counted
    apply sound.leave isCall _ rfl rfl _ none
    · exact lookup_remove sys call.sessionId
    · nofun
    · intro carried carries
      rw [failed] at carries
      cases carries
    · rw [failed]
      rfl
    · exact ⟨counted.1.trans counted.2.symm, Nat.le_of_eq counted.2⟩
  | read isSession reads =>
    obtain ⟨sameId, alive, ended⟩ := reads.keeps (sound.ended _ _ isSession)
    exact sound.setSession isSession sameId alive ended
  | @reap session found isSession reaping =>
    have dead := sound.ended session found isSession (by rw [reaping]; rfl)
    have reaped := sound.reap isSession dead
    have kept : (sys.reap session found.id).sessions session = some found := by
      unfold System.reap
      split
      · exact isSession
      · exact isSession
    exact reaped.setSession kept rfl id fun _ => dead
  | kill => exact { sound with }

theorem reachable_sound (reached : Reachable step .initial sys) : Sound sys :=
  reached.invariant initial_sound fun _ _ _ sound _ ran => (step_moves ran).sound sound

/-! ## Over any run -/

/-- The next step of a call that holds a reservation. -/
def CallStage.goesOn (stage : CallStage) (index : Nat) : Label Id :=
  match stage with
  | .probing => .probe index true
  | .spawning _ => .spawn index
  | .failed _ => .release index
  | .registering _ _ => .register index true
  | .publishing _ _ _ => .publish index
  | _ => .resolve index

structure OneLiveSession (sys : System Id) : Prop where
  oneSlot : (sys.slots.entries.map Entry.id).Nodup
  oneAlive : ∀ first second one other, sys.sessions first = some one →
    sys.sessions second = some other → one.alive = true → other.alive = true →
      one.id = other.id → first = second
  /-- A reservation is held by the one call that has installed it, and nothing keeps
  that call from its spawn, nor from what comes after it. -/
  reserved : ∀ id, sys.lookup id = some .pending → ∃ index call, sys.Holder id index ∧
    (∀ other, sys.Holder id other → other = index) ∧ sys.calls index = some call ∧
      (step sys (call.stage.goesOn index)).isSome = true
  oneSpawn : ∀ index call, sys.calls index = some call →
    call.spawns ≤ call.reservations ∧ call.reservations ≤ 1 ∧
      ((∀ cold, call.stage ≠ .probing ∧ call.stage ≠ .spawning cold) →
        call.spawns = call.reservations)
  /-- The release of a failed spawn frees the id, and the first waiter that wakes
  reserves it again. -/
  releases : ∀ index call error, sys.calls index = some call → call.stage = .failed error →
    ∃ next, step sys (.release index) = some next ∧ next.lookup call.sessionId = none ∧
      ∀ waiter waiting, sys.calls waiter = some waiting →
        waiting.sessionId = call.sessionId → waiting.stage = .waiting →
          ∃ later, execute step next [.wake waiter, .resolve waiter] = some later ∧
            later.Holder call.sessionId waiter
  reaps : ∀ session next, step sys (.reap session) = some next →
    next.slots = sys.slots ∨ ∃ found, sys.sessions session = some found ∧
      found.alive = false ∧ sys.lookup found.id = some (.live session) ∧
        next.slots = sys.slots.remove found.id

theorem Sound.oneAlive (sound : Sound sys) {first second : Nat}
    {one other : Session Id} (isFirst : sys.sessions first = some one)
    (isSecond : sys.sessions second = some other) (oneAlive : one.alive = true)
    (otherAlive : other.alive = true) (same : one.id = other.id) : first = second := by
  have holds : ∀ {call : Call Id} {session : Nat}, call.stage.carries = some session →
      call.stage.holds = true := by
    intro call session carries
    cases atStage : call.stage <;> rw [atStage] at carries <;>
      simp [CallStage.carries, CallStage.holds] at carries ⊢
  rcases sound.alive first one isFirst oneAlive with
    isLive | ⟨index, call, isCall, isId, carries⟩
  · rcases sound.alive second other isSecond otherAlive with
      otherLive | ⟨index, call, isCall, isId, carries⟩
    · rw [same, otherLive] at isLive
      cases isLive
      rfl
    · have isPending := sound.held other.id index ⟨call, isCall, isId, holds carries⟩
      simp [← same, isLive] at isPending
  · have isHolder : sys.Holder one.id index := ⟨call, isCall, isId, holds carries⟩
    rcases sound.alive second other isSecond otherAlive with
      otherLive | ⟨otherIndex, otherCall, isOther, otherId, otherCarries⟩
    · have isPending := sound.held one.id index isHolder
      simp [same, otherLive] at isPending
    · have otherHolder : sys.Holder one.id otherIndex :=
        ⟨otherCall, isOther, otherId.trans same.symm, holds otherCarries⟩
      have sameIndex := sound.unique one.id index otherIndex isHolder otherHolder
      subst sameIndex
      rw [isCall] at isOther
      cases isOther
      rw [carries] at otherCarries
      exact Option.some.inj otherCarries

theorem goesOn_isSome (isCall : sys.calls index = some call) (holds : call.stage.holds = true) :
    (step sys (call.stage.goesOn index)).isSome = true := by
  cases atStage : call.stage with
  | resolving | waiting | attaching | snapshotting | returned =>
    rw [atStage] at holds
    cases holds
  | probing | spawning | failed | registering | publishing =>
    simp [CallStage.goesOn, step, callStep, System.atStage, isCall, atStage]

theorem Sound.oneSpawn (sound : Sound sys) (isCall : sys.calls index = some call) :
    call.spawns ≤ call.reservations ∧ call.reservations ≤ 1 ∧
      ((∀ cold, call.stage ≠ .probing ∧ call.stage ≠ .spawning cold) →
        call.spawns = call.reservations) := by
  have counted := sound.counted index call isCall
  unfold Call.Counted at counted
  cases atStage : call.stage with
  | probing =>
    rw [atStage] at counted
    dsimp only at counted
    exact ⟨by omega, by omega, fun past => absurd rfl (past true).1⟩
  | spawning cold =>
    rw [atStage] at counted
    dsimp only at counted
    exact ⟨by omega, by omega, fun past => absurd rfl (past cold).2⟩
  | resolving | waiting | attaching | snapshotting | failed | registering | publishing
  | returned =>
    rw [atStage] at counted
    dsimp only at counted
    exact ⟨by omega, by omega, fun _ => by omega⟩

theorem step_wake (isCall : sys.calls index = some call) (waiting : call.stage = .waiting) :
    step sys (.wake index) = some (sys.setCall index { call with stage := .resolving }) := by
  simp only [step, callStep, System.atStage, isCall, waiting, Option.bind_some]

theorem step_resolve (isCall : sys.calls index = some call) (resolving : call.stage = .resolving)
    (isFree : sys.lookup call.sessionId = none) :
    step sys (.resolve index) = some (sys.reserve index call) := by
  simp only [step, callStep, System.atStage, isCall, resolving, Option.bind_some, isFree]

theorem step_release {error : RpcError}
    (isCall : sys.calls index = some call) (failed : call.stage = .failed error) :
    step sys (.release index) =
      some { sys.setCall index { call with stage := .returned (.error error) } with
        slots := sys.slots.remove call.sessionId } := by
  simp only [step, callStep, System.atStage, isCall, failed, Option.bind_some]

theorem wake_reserves (isCall : sys.calls index = some call) (waiting : call.stage = .waiting)
    (isFree : sys.lookup call.sessionId = none) :
    ∃ later, execute step sys [.wake index, .resolve index] = some later ∧
      later.Holder call.sessionId index := by
  have woken : (sys.setCall index { call with stage := .resolving }).calls index =
      some { call with stage := .resolving } := update_self ..
  refine ⟨(sys.setCall index { call with stage := .resolving }).reserve index
    { call with stage := .resolving }, ?_, ?_⟩
  · rw [execute, step_wake isCall waiting]
    dsimp only
    rw [execute, step_resolve woken rfl isFree]
    rfl
  · exact ⟨_, update_self .., rfl, rfl⟩

theorem release_frees {error : RpcError}
    (isCall : sys.calls index = some call) (failed : call.stage = .failed error) :
    ∃ next, step sys (.release index) = some next ∧ next.lookup call.sessionId = none ∧
      ∀ waiter waiting, sys.calls waiter = some waiting →
        waiting.sessionId = call.sessionId → waiting.stage = .waiting →
          ∃ later, execute step next [.wake waiter, .resolve waiter] = some later ∧
            later.Holder call.sessionId waiter := by
  have isFree : System.lookup { sys with slots := sys.slots.remove call.sessionId }
      call.sessionId = none := by
    rw [lookup_remove, if_pos rfl]
  refine ⟨_, step_release isCall failed, isFree, ?_⟩
  intro waiter waiting isWaiting sameId atWaiting
  have different : waiter ≠ index := by
    intro same
    subst same
    rw [isCall] at isWaiting
    cases isWaiting
    simp [failed] at atWaiting
  rw [← sameId] at isFree ⊢
  exact wake_reserves (setCall_of_ne different isWaiting) atWaiting isFree

theorem Sound.reaps {next : System Id} (sound : Sound sys) {session : Nat}
    (ran : step sys (.reap session) = some next) :
    next.slots = sys.slots ∨ ∃ found, sys.sessions session = some found ∧
      found.alive = false ∧ sys.lookup found.id = some (.live session) ∧
        next.slots = sys.slots.remove found.id := by
  unfold step sessionStep at ran
  obtain ⟨⟨id, alive, reader⟩, isSession, ran⟩ := atReader_eq_some ran
  cases reader with
  | reading | stopped | closing | returned => cases ran
  | reaping =>
    cases ran
    unfold System.reap
    split
    case isFalse => exact .inl rfl
    case isTrue isLive =>
      exact .inr ⟨_, isSession, sound.ended session _ isSession rfl, isLive, rfl⟩

/-- **At most one live session for every id.** In every state that any interleaving
of calls, spawns, exits, reaps and kills reaches, an id has one slot and one session
that is alive, a reservation leads to one spawn, a failed spawn frees its id, and a
reap removes only the session that has died. -/
theorem reachable_oneLiveSession {sys : System Id}
    (reached : Reachable step .initial sys) : OneLiveSession sys where
  oneSlot := sys.slots.nodup
  oneAlive _ _ _ _ isFirst isSecond oneAlive otherAlive same :=
    (reachable_sound reached).oneAlive isFirst isSecond oneAlive otherAlive same
  reserved := by
    intro id isPending
    have sound := reachable_sound reached
    obtain ⟨index, call, isCall, isId, holds⟩ := sound.holder id isPending
    refine ⟨index, call, ⟨call, isCall, isId, holds⟩, ?_, isCall, goesOn_isSome isCall holds⟩
    intro other isOther
    exact sound.unique id other index isOther ⟨call, isCall, isId, holds⟩
  oneSpawn _ _ isCall := (reachable_sound reached).oneSpawn isCall
  releases _ _ _ isCall failed := release_frees isCall failed
  reaps _ _ ran := (reachable_sound reached).reaps ran

end

/-- Two calls race for an id: the first one's spawn fails, and the one that has
waited spawns. -/
def race : List (Label Nat) :=
  [.request 7, .request 7, .resolve 0, .resolve 1, .probe 0 false, .spawnFails 0 "no pty",
    .release 0, .wake 1, .resolve 1, .probe 1 false, .spawn 1, .register 1 true, .publish 1]

theorem reachable_oneLiveSession_race :
    ∃ sys : System Nat, execute step .initial race = some sys ∧
      OneLiveSession sys ∧ sys.lookup 7 = some (.live 0) := by
  obtain ⟨sys, replayed, isLive⟩ :
      ∃ sys : System Nat, execute step .initial race = some sys ∧
        sys.lookup 7 = some (.live 0) := ⟨_, rfl, by decide⟩
  exact ⟨sys, replayed, reachable_oneLiveSession (reachable_of_execute _ replayed), isLive⟩

end AiTools.Daemon.Server.Slots
