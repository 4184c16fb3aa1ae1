import AiTools.Client.Requests

/-!
Contract: the connections and the pending map of the daemon client over a run.
-/

namespace AiTools.Client.Requests

open AiTools.Lib.Keyed AiTools.Lib.Transition
open Function (update update_of_ne update_self)

variable {Value RpcError : Type*}

/-! ## Connections -/

/-- The handler has taken its connection down. -/
def HandlerStage.torn : HandlerStage → Bool
  | .called => false
  | .ignored => false
  | .draining => true
  | .rejecting _ => true
  | .handled => true

/-- The connection was up once and cannot come back. -/
def System.Gone (sys : System Value RpcError) (generation : Nat) : Prop :=
  generation ≤ sys.generation ∧ sys.controlTx ≠ some generation ∧
    sys.connecting ≠ .numbered generation

structure Linked (sys : System Value RpcError) : Prop where
  connected : sys.connected = sys.controlTx.isSome
  current : ∀ control, sys.controlTx = some control → control = sys.generation
  greeting : sys.connecting = .greeting → sys.controlTx = none
  numbered : ∀ generation, sys.connecting = .numbered generation →
    sys.controlTx = none ∧ generation = sys.generation
  gone : ∀ caller handler, sys.handlers caller = some handler → handler.stage.torn = true →
    sys.Gone handler.generation
  /-- A connection is taken down once. -/
  unique : ∀ first second handler other, sys.handlers first = some handler →
    sys.handlers second = some other → handler.stage.torn = true → other.stage.torn = true →
    handler.generation = other.generation → first = second

theorem initial_linked : Linked (System.initial : System Value RpcError) where
  connected := rfl
  current := by simp [System.initial]
  greeting := by simp [System.initial]
  numbered := by simp [System.initial]
  gone := by simp [System.initial]
  unique := by simp [System.initial]

variable {sys : System Value RpcError} {caller : Caller} {handler : Handler}
  {generation id : Nat} {label : Label Value RpcError} {call : Call}

theorem Linked.down (linked : Linked sys) :
    sys.connected = false ↔ sys.controlTx = none := by
  rw [linked.connected]
  cases sys.controlTx <;> simp

theorem Linked.setConnecting (linked : Linked sys) {connecting : Connecting}
    (greeting : connecting = .greeting → sys.controlTx = none)
    (notNumbered : ∀ generation, connecting ≠ .numbered generation) :
    Linked { sys with connecting := connecting } := by
  refine { linked with greeting := greeting, numbered := ?_, gone := ?_ }
  · intro generation numbered
    exact absurd numbered (notNumbered generation)
  · intro caller handler isHandler torn
    obtain ⟨old, notUp, _⟩ := linked.gone caller handler isHandler torn
    exact ⟨old, notUp, notNumbered _⟩

theorem Linked.setPending (linked : Linked sys) (pending : Table Entry.id) :
    Linked { sys with pending := pending } :=
  { linked with }

theorem Linked.setHandler (linked : Linked sys)
    (torn : handler.stage.torn = true → sys.Gone handler.generation ∧
      ∀ other found, sys.handlers other = some found → found.stage.torn = true →
        found.generation = handler.generation → other = caller) :
    Linked (sys.setHandler caller handler) := by
  have cases : ∀ other found, (sys.setHandler caller handler).handlers other = some found →
      other = caller ∧ found = handler ∨ sys.handlers other = some found := by
    intro other found isFound
    change update sys.handlers caller (some handler) other = some found at isFound
    by_cases same : other = caller
    · subst same
      rw [update_self] at isFound
      exact .inl ⟨rfl, (Option.some.inj isFound).symm⟩
    · rw [update_of_ne same] at isFound
      exact .inr isFound
  refine { linked with gone := ?_, unique := ?_ }
  · intro other found isFound isTorn
    rcases cases other found isFound with ⟨_, same⟩ | isOld
    · subst same
      exact (torn isTorn).1
    · exact linked.gone other found isOld isTorn
  · intro first second found other isFound isOther foundTorn otherTorn same
    rcases cases first found isFound with ⟨atFirst, isNew⟩ | isOld
    · rcases cases second other isOther with ⟨atSecond, _⟩ | isOlder
      · rw [atFirst, atSecond]
      · subst isNew
        rw [atFirst, (torn foundTorn).2 second other isOlder otherTorn same.symm]
    · rcases cases second other isOther with ⟨atSecond, isNew⟩ | isOlder
      · subst isNew
        rw [atSecond, (torn otherTorn).2 first found isOld foundTorn same]
      · exact linked.unique first second found other isOld isOlder foundTorn otherTorn same

theorem Linked.advance (linked : Linked sys) {stage : HandlerStage}
    (isHandler : sys.handlers caller = some ⟨generation, stage⟩) (torn : stage.torn = true)
    (later : HandlerStage) : Linked (sys.setHandler caller ⟨generation, later⟩) := by
  apply linked.setHandler
  intro _
  refine ⟨linked.gone caller ⟨generation, stage⟩ isHandler torn, ?_⟩
  intro other found isFound foundTorn same
  exact linked.unique other caller found ⟨generation, stage⟩ isFound isHandler foundTorn torn
    same

theorem Linked.publish (linked : Linked sys)
    (numbered : sys.connecting = .numbered generation) :
    Linked { sys with
      connected := true
      controlTx := some generation
      connecting := .published generation } := by
  refine { linked with
    connected := rfl, current := ?_, greeting := nofun, numbered := nofun, gone := ?_ }
  · intro control isControl
    cases isControl
    exact (linked.numbered _ numbered).2
  · intro caller handler isHandler torn
    obtain ⟨old, _, notNumbered⟩ := linked.gone caller handler isHandler torn
    refine ⟨old, ?_, nofun⟩
    intro isUp
    have same := Option.some.inj isUp
    subst same
    exact notNumbered numbered

theorem Linked.number (linked : Linked sys) (greeting : sys.connecting = .greeting) :
    Linked { sys with
      generation := sys.generation + 1
      connecting := .numbered (sys.generation + 1) } := by
  have down := linked.greeting greeting
  refine { linked with current := ?_, greeting := nofun, numbered := ?_, gone := ?_ }
  · intro control isControl
    change sys.controlTx = some control at isControl
    simp [down] at isControl
  · intro generation numbered
    cases numbered
    exact ⟨down, rfl⟩
  · intro caller handler isHandler torn
    obtain ⟨old, notUp, _⟩ := linked.gone caller handler isHandler torn
    refine ⟨Nat.le_succ_of_le old, notUp, ?_⟩
    intro numbered
    have same := Connecting.numbered.inj numbered
    omega

theorem Linked.tearDown (linked : Linked sys) (up : sys.connected = true) :
    Linked { sys.setHandler caller ⟨sys.generation, .draining⟩ with
      connected := false
      controlTx := none } := by
  have isUp : sys.controlTx = some sys.generation := by
    rw [linked.connected] at up
    obtain ⟨control, isControl⟩ := Option.isSome_iff_exists.mp up
    rw [isControl, linked.current control isControl]
  have closed : Linked { sys with connected := false, controlTx := none } := by
    refine { linked with
      connected := rfl, current := nofun, greeting := fun _ => rfl, numbered := ?_, gone := ?_ }
    · intro generation numbered
      exact ⟨rfl, (linked.numbered generation numbered).2⟩
    · intro other found isFound torn
      obtain ⟨old, _, notNumbered⟩ := linked.gone other found isFound torn
      exact ⟨old, nofun, notNumbered⟩
  apply closed.setHandler
  intro _
  refine ⟨⟨Nat.le_refl _, nofun, ?_⟩, ?_⟩
  · intro numbered
    have down := (linked.numbered _ numbered).1
    simp [isUp] at down
  · intro other found isFound torn same
    exfalso
    apply (linked.gone other found isFound torn).2.1
    rw [isUp]
    exact congrArg some same.symm

theorem Moves.linked [Inhabited Value] {next : System Value RpcError}
    (moves : Moves sys label next) (linked : Linked sys) :
    Linked next := by
  cases moves with
  | connect idle down => exact linked.setConnecting (fun _ => linked.down.mp down) nofun
  | greetingFails greeting => exact linked.setConnecting nofun nofun
  | number greeting => exact linked.number greeting
  | publish numbered free => exact linked.publish numbered
  | @spawn generation published =>
    have spawned : Linked (sys.setReader generation .reading) := { linked with }
    exact spawned.setConnecting nofun nofun
  | resynced resyncing => exact linked.setConnecting nofun nofun
  | request | encodingFails | refuse | lock | insert | bounce | send | receive | lost | expire
  | reclaim | miss | read | deliver | writerEnds => exact { linked with }
  | @endControl generation fresh reading =>
    have ended : Linked (sys.setReader generation .ended) := { linked with }
    exact ended.setHandler nofun
  | endStream fresh => exact linked.setHandler nofun
  | reset fresh => exact linked.setHandler nofun
  | ignore called => exact linked.setHandler nofun
  | tearDown called free up => exact linked.tearDown up
  | drain draining => exact (linked.advance draining rfl _).setPending _
  | @reject caller generation rejected pending rejecting member =>
    exact { linked.advance rejecting rfl (.rejecting (rejected.erase pending)) with }
  | finish rejecting => exact linked.advance rejecting rfl _

/-! ## Pending entries -/

/-- The control handle that a call under the state lock has read. -/
def CallStage.control : CallStage → Option Nat
  | .drawn => none
  | .locked control => some control
  | .inserted control => some control
  | .awaiting => none
  | .expired => none
  | .returned => none

def CallStage.unsent : CallStage → Bool
  | .drawn => true
  | .locked _ => true
  | .inserted _ => false
  | .awaiting => false
  | .expired => false
  | .returned => false

structure Tracked (sys : System Value RpcError) : Prop where
  unasked : ∀ id, sys.requestCounter < id → sys.calls id = none
  holder : ∀ id call control, sys.calls id = some call → call.stage.control = some control →
      sys.stateLock = some id ∧ sys.controlTx = some control
  held : ∀ id, sys.stateLock = some id →
    ∃ call, sys.calls id = some call ∧ call.stage.control ≠ none
  unsent : ∀ id call, sys.calls id = some call → call.stage.unsent = true → call.sentOn = none
  entry : ∀ entry ∈ sys.pending.entries, entry.pending.tx = entry.id ∧
    ∃ call, sys.calls entry.id = some call ∧ call.sentOn = some entry.pending.generation
  /-- The connection of an entry is up, or its teardown is about to drain the map. -/
  live : ∀ entry ∈ sys.pending.entries, sys.controlTx = some entry.pending.generation ∨
      ∃ caller, sys.handlers caller = some ⟨entry.pending.generation, .draining⟩

theorem initial_tracked : Tracked (System.initial : System Value RpcError) where
  unasked := by simp [System.initial]
  holder := by simp [System.initial]
  held := by simp [System.initial]
  unsent := by simp [System.initial]
  entry := nofun
  live := nofun

theorem Tracked.notHeld (tracked : Tracked sys) (isCall : sys.calls id = some call)
    (outside : call.stage.control = none) :
    sys.stateLock ≠ some id := by
  intro isHolder
  obtain ⟨other, isOther, inside⟩ := tracked.held id isHolder
  rw [isCall] at isOther
  cases isOther
  exact inside outside

theorem Tracked.noEntry (tracked : Tracked sys) (isCall : sys.calls id = some call)
    (unsent : call.stage.unsent = true) :
    ∀ entry ∈ sys.pending.entries, entry.id ≠ id := by
  intro entry member same
  obtain ⟨_, other, isOther, sent⟩ := tracked.entry entry member
  rw [same, isCall] at isOther
  cases isOther
  simp [tracked.unsent id call isCall unsent] at sent

theorem Tracked.moveCall (tracked : Tracked sys) {moved : Call} {lock : Option Nat}
    (isCall : sys.calls id = some call)
    (others : ∀ other, other ≠ id → (lock = some other ↔ sys.stateLock = some other))
    (mine : lock = some id ↔ moved.stage.control ≠ none)
    (up : ∀ control, moved.stage.control = some control → sys.controlTx = some control)
    (unsent : moved.stage.unsent = true → moved.sentOn = none)
    (sent : ∀ generation, call.sentOn = some generation → moved.sentOn = some generation) :
    Tracked { sys with
      calls := update sys.calls id (some moved)
      stateLock := lock } := by
  refine { tracked with unasked := ?_, holder := ?_, held := ?_, unsent := ?_, entry := ?_ }
  · intro other later
    have different : other ≠ id := by
      intro same
      subst same
      simp [tracked.unasked other later] at isCall
    dsimp only
    rw [update_of_ne different]
    exact tracked.unasked other later
  · intro other found control isFound inside
    dsimp only at isFound
    by_cases same : other = id
    · subst same
      rw [update_self] at isFound
      cases isFound
      refine ⟨mine.mpr ?_, up control inside⟩
      rw [inside]
      exact Option.some_ne_none control
    · rw [update_of_ne same] at isFound
      obtain ⟨isHolder, isUp⟩ := tracked.holder other found control isFound inside
      exact ⟨(others other same).mpr isHolder, isUp⟩
  · intro other isHolder
    dsimp only at isHolder ⊢
    by_cases same : other = id
    · subst same
      rw [update_self]
      exact ⟨moved, rfl, mine.mp isHolder⟩
    · rw [update_of_ne same]
      exact tracked.held other ((others other same).mp isHolder)
  · intro other found isFound isUnsent
    dsimp only at isFound
    by_cases same : other = id
    · subst same
      rw [update_self] at isFound
      cases isFound
      exact unsent isUnsent
    · rw [update_of_ne same] at isFound
      exact tracked.unsent other found isFound isUnsent
  · intro entry member
    obtain ⟨tx, found, isFound, stamped⟩ := tracked.entry entry member
    refine ⟨tx, ?_⟩
    dsimp only
    by_cases same : entry.id = id
    · rw [same, update_self]
      rw [same, isCall] at isFound
      cases isFound
      exact ⟨moved, rfl, sent _ stamped⟩
    · rw [update_of_ne same]
      exact ⟨found, isFound, stamped⟩

theorem Tracked.shrink (tracked : Tracked sys) {pending : Table Entry.id}
    (subset : ∀ entry ∈ pending.entries, entry ∈ sys.pending.entries) :
    Tracked { sys with pending := pending } :=
  { tracked with
    entry := fun entry member => tracked.entry entry (subset entry member)
    live := fun entry member => tracked.live entry (subset entry member) }

theorem Tracked.discard (tracked : Tracked sys) (id : Nat) : Tracked (sys.discard id) := by
  have removed : Tracked { sys with pending := sys.pending.remove id } :=
    tracked.shrink fun entry member => (Table.mem_remove.mp member).1
  exact { removed with }

theorem Tracked.setHandler (tracked : Tracked sys) (caller : Caller) (handler : Handler)
    (notDraining : ∀ generation, sys.handlers caller ≠ some ⟨generation, .draining⟩) :
    Tracked (sys.setHandler caller handler) := by
  refine { tracked with live := ?_ }
  intro entry member
  rcases tracked.live entry member with isUp | ⟨other, draining⟩
  · exact .inl isUp
  · right
    have different : other ≠ caller := by
      intro same
      subst same
      exact notDraining _ draining
    refine ⟨other, ?_⟩
    unfold System.setHandler
    dsimp only
    rw [update_of_ne different]
    exact draining

theorem Tracked.pass (tracked : Tracked sys) (stage : CallStage)
    (isCall : sys.calls id = some call) (outside : call.stage.control = none)
    (stays : stage.control = none) (sent : stage.unsent = false) :
    Tracked (sys.setStage id call stage) := by
  apply tracked.moveCall isCall
  · intro other _
    exact Iff.rfl
  · rw [stays]
    exact iff_of_false (tracked.notHeld isCall outside) (not_not.mpr rfl)
  · intro control inside
    simp [stays] at inside
  · intro unsent
    simp [sent] at unsent
  · intro generation stamped
    exact stamped

theorem Tracked.unlock (tracked : Tracked sys) (stage : CallStage) {control : Nat}
    (isCall : sys.calls id = some call) (inside : call.stage = .inserted control)
    (stays : stage.control = none) (sent : stage.unsent = false) :
    Tracked { sys.setStage id call stage with stateLock := none } := by
  have isHolder := (tracked.holder id call control isCall (by rw [inside]; rfl)).1
  apply tracked.moveCall isCall
  · intro other different
    rw [isHolder]
    exact iff_of_false nofun fun same => different (Option.some.inj same).symm
  · rw [stays]
    exact iff_of_false nofun (not_not.mpr rfl)
  · intro other reads
    simp [stays] at reads
  · intro unsent
    simp [sent] at unsent
  · intro generation stamped
    exact stamped

theorem Tracked.lock (tracked : Tracked sys) {control : Nat}
    (isCall : sys.calls id = some call) (drawn : call.stage = .drawn)
    (free : sys.stateLock = none) (isUp : sys.controlTx = some control) :
    Tracked { sys.setStage id call (.locked control) with stateLock := some id } := by
  apply tracked.moveCall isCall
  · intro other different
    rw [free]
    exact iff_of_false (fun same => different (Option.some.inj same).symm) nofun
  · exact iff_of_true rfl (Option.some_ne_none control)
  · intro other reads
    cases reads
    exact isUp
  · intro _
    exact tracked.unsent id call isCall (by rw [drawn]; rfl)
  · intro generation stamped
    exact stamped

theorem Tracked.insert (tracked : Tracked sys) (linked : Linked sys) {control : Nat}
    (isCall : sys.calls id = some call) (locked : call.stage = .locked control) :
    Tracked { sys.setStage id { call with sentOn := some sys.generation }
        (.inserted control) with
      pending := sys.pending.put ⟨id, ⟨id, sys.generation⟩⟩ } := by
  obtain ⟨isHolder, isUp⟩ := tracked.holder id call control isCall (by rw [locked]; rfl)
  have unsent := tracked.unsent id call isCall (by rw [locked]; rfl)
  have moved : Tracked (sys.setStage id { call with sentOn := some sys.generation }
      (.inserted control)) := by
    apply tracked.moveCall isCall
    · intro other _
      exact Iff.rfl
    · exact iff_of_true isHolder (Option.some_ne_none control)
    · intro other reads
      cases reads
      exact isUp
    · nofun
    · intro generation stamped
      simp [unsent] at stamped
  refine { moved with entry := ?_, live := ?_ }
  · intro entry member
    rcases Table.mem_put.mp member with isNew | ⟨isOld, _⟩
    · subst isNew
      refine ⟨rfl, _, update_self .., rfl⟩
    · exact moved.entry entry isOld
  · intro entry member
    rcases Table.mem_put.mp member with isNew | ⟨isOld, _⟩
    · subst isNew
      left
      change sys.controlTx = some sys.generation
      rw [isUp, linked.current control isUp]
    · exact moved.live entry isOld

theorem Tracked.request (tracked : Tracked sys) (method : String) (timeout : Nat) :
    Tracked { sys with
      requestCounter := sys.requestCounter + 1
      calls := update sys.calls (sys.requestCounter + 1)
        (some ⟨method, timeout, .drawn, none⟩) } := by
  have unasked := tracked.unasked (sys.requestCounter + 1) (Nat.lt_succ_self _)
  have kept : ∀ id call, sys.calls id = some call →
      update sys.calls (sys.requestCounter + 1)
        (some ⟨method, timeout, .drawn, none⟩) id = some call := by
    intro id call isCall
    have different : id ≠ sys.requestCounter + 1 := by
      intro same
      simp [same, unasked] at isCall
    rw [update_of_ne different]
    exact isCall
  have cases : ∀ id call, update sys.calls (sys.requestCounter + 1)
      (some ⟨method, timeout, .drawn, none⟩) id = some call →
      call = ⟨method, timeout, .drawn, none⟩ ∨ sys.calls id = some call := by
    intro id call isCall
    by_cases same : id = sys.requestCounter + 1
    · subst same
      rw [update_self] at isCall
      exact .inl (Option.some.inj isCall).symm
    · rw [update_of_ne same] at isCall
      exact .inr isCall
  refine { tracked with unasked := ?_, holder := ?_, held := ?_, unsent := ?_, entry := ?_ }
  · intro id later
    dsimp only at later ⊢
    rw [update_of_ne (by omega)]
    exact tracked.unasked id (by omega)
  · intro id call control isCall inside
    rcases cases id call isCall with isNew | isOld
    · subst isNew
      cases inside
    · exact tracked.holder id call control isOld inside
  · intro id isHolder
    obtain ⟨call, isCall, inside⟩ := tracked.held id isHolder
    exact ⟨call, kept id call isCall, inside⟩
  · intro id call isCall unsent
    rcases cases id call isCall with isNew | isOld
    · subst isNew
      rfl
    · exact tracked.unsent id call isOld unsent
  · intro entry member
    obtain ⟨tx, call, isCall, stamped⟩ := tracked.entry entry member
    exact ⟨tx, call, kept entry.id call isCall, stamped⟩

theorem Tracked.publish (tracked : Tracked sys) (linked : Linked sys)
    (numbered : sys.connecting = .numbered generation) (free : sys.stateLock = none) :
    Tracked { sys with
      connected := true
      controlTx := some generation
      connecting := .published generation } := by
  refine { tracked with holder := ?_, live := ?_ }
  · intro id call control isCall inside
    have isHolder := (tracked.holder id call control isCall inside).1
    simp [free] at isHolder
  · intro entry member
    rcases tracked.live entry member with isUp | draining
    · simp [(linked.numbered generation numbered).1] at isUp
    · exact .inr draining

theorem Tracked.tearDown (tracked : Tracked sys) (linked : Linked sys)
    (called : sys.handlers caller = some ⟨sys.generation, .called⟩)
    (free : sys.stateLock = none) :
    Tracked { sys.setHandler caller ⟨sys.generation, .draining⟩ with
      connected := false
      controlTx := none } := by
  refine { tracked with holder := ?_, live := ?_ }
  · intro id call control isCall inside
    have isHolder := (tracked.holder id call control isCall inside).1
    simp [free] at isHolder
  · intro entry member
    right
    rcases tracked.live entry member with isUp | ⟨other, draining⟩
    · refine ⟨caller, ?_⟩
      rw [linked.current _ isUp]
      exact update_self ..
    · have different : other ≠ caller := by
        intro same
        rw [same, called] at draining
        have stages := congrArg Handler.stage (Option.some.inj draining)
        cases stages
      refine ⟨other, ?_⟩
      unfold System.setHandler
      dsimp only
      rw [update_of_ne different]
      exact draining

theorem Tracked.drain (tracked : Tracked sys) (rejected : List Pending)
    (draining : sys.handlers caller = some ⟨generation, .draining⟩) :
    Tracked { sys.setHandler caller ⟨generation, .rejecting rejected⟩ with
      pending := sys.pending.filter (·.pending.generation ≠ generation) } := by
  have kept : Tracked { sys with
      pending := sys.pending.filter (·.pending.generation ≠ generation) } :=
    tracked.shrink fun entry member => (Table.mem_filter.mp member).1
  refine { kept with live := ?_ }
  intro entry member
  have other := of_decide_eq_true (Table.mem_filter.mp member).2
  rcases kept.live entry member with isUp | ⟨handler, isDraining⟩
  · exact .inl isUp
  · right
    have different : handler ≠ caller := by
      intro same
      change sys.handlers handler = _ at isDraining
      rw [same, draining] at isDraining
      cases isDraining
      exact other rfl
    refine ⟨handler, ?_⟩
    unfold System.setHandler
    dsimp only
    rw [update_of_ne different]
    exact isDraining

theorem Moves.tracked [Inhabited Value] {next : System Value RpcError}
    (moves : Moves sys label next) (linked : Linked sys) (tracked : Tracked sys) :
    Tracked next := by
  cases moves with
  | connect | greetingFails | number | spawn | resynced | miss | deliver | writerEnds =>
    exact { tracked with }
  | publish numbered free => exact tracked.publish linked numbered free
  | request => exact { tracked.request _ _ with }
  | encodingFails isCall atStage | refuse isCall atStage | receive isCall atStage
  | lost isCall atStage =>
    exact { tracked.pass .returned isCall (by rw [atStage]; rfl) rfl rfl with }
  | lock isCall drawn free up => exact tracked.lock isCall drawn free up
  | insert isCall locked => exact (tracked.discard _).insert { linked with } isCall locked
  | bounce isCall inserted ended =>
    exact { (tracked.discard _).unlock .returned isCall inserted rfl rfl with }
  | send isCall inserted => exact tracked.unlock .awaiting isCall inserted rfl rfl
  | expire isCall awaiting =>
    exact { tracked.pass .expired isCall (by rw [awaiting]; rfl) rfl rfl with }
  | reclaim isCall expired =>
    exact { (tracked.discard _).pass .returned isCall (by rw [expired]; rfl) rfl rfl with }
  | @read generation reply entry reading found =>
    exact { tracked.discard reply.id with }
  | @endControl generation fresh reading =>
    exact { tracked.setHandler (.controlReader generation) ⟨generation, .called⟩
      fun _ => by simp [fresh] with }
  | endStream fresh => exact tracked.setHandler _ _ fun _ => by simp [fresh]
  | reset fresh => exact tracked.setHandler _ _ fun _ => by simp [fresh]
  | ignore called => exact tracked.setHandler _ _ fun _ => by simp [called]
  | tearDown called free up => exact tracked.tearDown linked called free
  | drain draining => exact tracked.drain _ draining
  | @reject caller generation rejected pending rejecting member =>
    exact { tracked.setHandler caller ⟨generation, .rejecting (rejected.erase pending)⟩
      fun _ => by simp [rejecting] with }
  | finish rejecting => exact tracked.setHandler _ _ fun _ => by simp [rejecting]

/-- A `handle_disconnect` has taken the connection down. -/
def System.TornDown (sys : System Value RpcError) (generation : Nat) : Prop :=
  ∃ caller handler, sys.handlers caller = some handler ∧ handler.stage.torn = true ∧
    handler.generation = generation

/-- The steps that a request can still take. -/
def CallStage.stepsLeft : CallStage → Nat
  | .drawn => 5
  | .locked _ => 4
  | .inserted _ => 3
  | .awaiting => 2
  | .expired => 1
  | .returned => 0

/-- What a call keeps when it has moved by that many steps. -/
structure Call.Follows (call moved : Call) (steps : Nat) : Prop where
  method : moved.method = call.method
  timeout : moved.timeout = call.timeout
  sentOn : ∀ generation, call.sentOn = some generation → moved.sentOn = some generation
  steps : moved.stage.stepsLeft + steps ≤ call.stage.stepsLeft

theorem Call.Follows.refl (call : Call) : call.Follows call 0 :=
  ⟨rfl, rfl, fun _ => id, Nat.le_refl _⟩

theorem Call.Follows.next (stage : CallStage) (fewer : stage.stepsLeft + 1 ≤ call.stage.stepsLeft) :
    call.Follows { call with stage := stage } 1 :=
  ⟨rfl, rfl, fun _ => id, fewer⟩

def Label.stepsOf (label : Label Value RpcError) (id : Nat) : Nat :=
  if label.owner = some id then 1 else 0

/-- A step of another party leaves the call; its own step takes it nearer its
return. -/
theorem follows_update {calls : Nat → Option Call} {other : Nat} {moved found : Call}
    (isCall : calls id = some call) (follows : call.Follows moved 1)
    (isFound : calls other = some found) :
    ∃ later, update calls id (some moved) other = some later ∧
      found.Follows later (if id = other then 1 else 0) := by
  by_cases same : id = other
  · subst same
    rw [isCall] at isFound
    cases isFound
    rw [if_pos rfl]
    exact ⟨moved, update_self .., follows⟩
  · rw [if_neg same, update_of_ne (Ne.symm same)]
    exact ⟨found, isFound, .refl found⟩

theorem Moves.follows [Inhabited Value] {next : System Value RpcError}
    (moves : Moves sys label next) (tracked : Tracked sys) {other : Nat} {found : Call}
    (isFound : sys.calls other = some found) :
    ∃ later, next.calls other = some later ∧ found.Follows later (label.stepsOf other) := by
  have own : ∀ {id : Nat} {call moved : Call}, sys.calls id = some call →
      label.owner = some id → call.Follows moved 1 →
      ∃ later, update sys.calls id (some moved) other = some later ∧
        found.Follows later (label.stepsOf other) := by
    intro id call moved isCall isOwner follows
    unfold Label.stepsOf
    rw [isOwner]
    simp only [Option.some.injEq]
    exact follows_update isCall follows isFound
  cases moves with
  | request =>
    refine ⟨found, ?_, .refl found⟩
    dsimp only
    rw [update_of_ne]
    · exact isFound
    · intro same
      subst same
      simp [tracked.unasked _ (Nat.lt_succ_self _)] at isFound
  | insert isCall locked =>
    refine own isCall rfl ⟨rfl, rfl, ?_, by simp [locked, CallStage.stepsLeft]⟩
    intro generation stamped
    rw [tracked.unsent _ _ isCall (by rw [locked]; rfl)] at stamped
    cases stamped
  | encodingFails isCall atStage | refuse isCall atStage | lock isCall atStage
  | bounce isCall atStage | send isCall atStage | receive isCall atStage | lost isCall atStage
  | expire isCall atStage | reclaim isCall atStage =>
    exact own isCall rfl (.next _ (by simp [atStage, CallStage.stepsLeft]))
  | _ => exact ⟨found, isFound, .refl found⟩

/-- A handler moves on, and does not forget that it has taken its connection
down. -/
theorem System.TornDown.setHandler (torn : sys.TornDown generation)
    (keeps : ∀ old, sys.handlers caller = some old → old.stage.torn = true →
      handler.stage.torn = true ∧ handler.generation = old.generation) :
    (sys.setHandler caller handler).TornDown generation := by
  obtain ⟨other, old, isOld, oldTorn, same⟩ := torn
  by_cases atCaller : other = caller
  · subst atCaller
    obtain ⟨stillTorn, stillSame⟩ := keeps old isOld oldTorn
    exact ⟨other, handler, update_self .., stillTorn, stillSame.trans same⟩
  · refine ⟨other, old, ?_, oldTorn, same⟩
    unfold System.setHandler
    dsimp only
    rw [update_of_ne atCaller]
    exact isOld

theorem System.TornDown.advance {bound : Nat} (torn : sys.TornDown generation)
    {stage later : HandlerStage} (isHandler : sys.handlers caller = some ⟨bound, stage⟩)
    (keeps : stage.torn = true → later.torn = true) :
    (sys.setHandler caller ⟨bound, later⟩).TornDown generation := by
  apply torn.setHandler
  intro old isOld oldTorn
  rw [isHandler] at isOld
  cases isOld
  exact ⟨keeps oldTorn, rfl⟩

theorem Moves.tornDown [Inhabited Value] {next : System Value RpcError}
    (moves : Moves sys label next) (torn : sys.TornDown generation) :
    next.TornDown generation := by
  cases moves with
  | endControl fresh | endStream fresh | reset fresh =>
    exact torn.setHandler fun old isOld => by simp [fresh] at isOld
  | ignore called | tearDown called => exact torn.advance called nofun
  | drain atStage | reject atStage | finish atStage => exact torn.advance atStage fun _ => rfl
  | _ => exact torn

theorem Moves.replies [Inhabited Value] {next : System Value RpcError}
    (moves : Moves sys label next) {reply : RpcReply Value RpcError}
    (isRead : reply ∈ sys.replies) :
    reply ∈ next.replies := by
  cases moves with
  | miss reading | read reading found => exact List.mem_append_left _ isRead
  | _ => exact isRead

end AiTools.Client.Requests
