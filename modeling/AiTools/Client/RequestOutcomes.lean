import AiTools.Client.RequestInvariant

/-!
Contract: every request of the daemon client gets one outcome of its own.
-/

namespace AiTools.Client.Requests

open AiTools.Lib.Keyed AiTools.Lib.Transition
open Function (update update_of_ne update_self)

variable {Value RpcError : Type*}

/-- The outcome is what a reply with the request's own id said. -/
def System.Replied [Inhabited Value] (sys : System Value RpcError) (id : Nat)
    (outcome : Outcome Value RpcError) : Prop :=
  ∃ reply ∈ sys.replies, reply.id = id ∧ outcome = reply.outcome

/-- The client's own errors, and when a call gets them. -/
def System.Explains (sys : System Value RpcError) (call : Call) : ClientError RpcError → Prop
  | .notConnected => True
  | .connectionLost => ∃ generation, call.sentOn = some generation ∧ sys.TornDown generation
  | .timeout method ms => method = call.method ∧ ms = call.timeout
  | .rpc _ => False
  | .protocol _ => True

/-- The outcome is the request's own: its reply, or an error that concerns it. -/
def System.Owns [Inhabited Value] (sys : System Value RpcError) (id : Nat)
    (outcome : Outcome Value RpcError) : Prop :=
  sys.Replied id outcome ∨ ∃ call error, sys.calls id = some call ∧ outcome = .error error ∧
      sys.Explains call error

section
variable [Inhabited Value] {label : Label Value RpcError} {outcome : Outcome Value RpcError}

theorem System.Replied.moves {sys next : System Value RpcError} {id : Nat}
    (replied : sys.Replied id outcome) (moves : Moves sys label next) :
    next.Replied id outcome := by
  obtain ⟨reply, isRead, same, isOutcome⟩ := replied
  exact ⟨reply, moves.replies isRead, same, isOutcome⟩

theorem System.Owns.moves {sys next : System Value RpcError} {id : Nat}
    (owns : sys.Owns id outcome) (moves : Moves sys label next) (tracked : Tracked sys) :
    next.Owns id outcome := by
  rcases owns with replied | ⟨call, error, isCall, isError, explains⟩
  · exact .inl (replied.moves moves)
  · right
    obtain ⟨later, isLater, follows⟩ := moves.follows tracked isCall
    refine ⟨later, error, isLater, isError, ?_⟩
    cases error with
    | notConnected | protocol message => trivial
    | connectionLost =>
      obtain ⟨generation, stamped, torn⟩ := explains
      exact ⟨generation, follows.sentOn generation stamped, moves.tornDown torn⟩
    | timeout method ms => exact ⟨explains.1.trans follows.method.symm,
        explains.2.trans follows.timeout.symm⟩
    | rpc error => exact explains

end

/-- The receiver will get a value: it is there, or somebody holds the sender. -/
def Oneshot.Serves (channel : Oneshot Value RpcError) : Prop :=
  channel.receiver = true ∧ (channel.value ≠ none ∨ channel.sender = true)

theorem Oneshot.Serves.send {channel : Oneshot Value RpcError} (serves : channel.Serves)
    (outcome : Outcome Value RpcError) : (channel.send outcome).Serves := by
  refine ⟨serves.1, .inl ?_⟩
  unfold Oneshot.send
  simp [serves.1]

theorem discard_value (sys : System Value RpcError) (id other : Nat) :
    ((sys.discard id).channels other).value = (sys.channels other).value := by
  unfold System.discard
  dsimp only
  cases sys.pending.find? id with
  | none => rfl
  | some entry =>
    dsimp only
    by_cases same : other = entry.pending.tx
    · rw [same, update_self]
      rfl
    · rw [update_of_ne same]

theorem complete_value (sys : System Value RpcError) (id other : Nat) (call : Call)
    (outcome : Outcome Value RpcError) :
    ((sys.complete id call outcome).channels other).value = (sys.channels other).value := by
  unfold System.complete System.setChannel
  dsimp only
  by_cases same : other = id
  · subst same
    rw [update_self]
    rfl
  · rw [update_of_ne same]
    rfl

variable {sys : System Value RpcError} {id : Nat}

theorem send_value {pending : Pending} {outcome found : Outcome Value RpcError}
    (isFound : ((sys.send pending outcome).channels id).value = some found) :
    id = pending.tx ∧ found = outcome ∨ (sys.channels id).value = some found := by
  unfold System.send System.setChannel at isFound
  dsimp only at isFound
  by_cases same : id = pending.tx
  · rw [same, update_self] at isFound
    simp only [Oneshot.send] at isFound
    split at isFound
    · exact .inl ⟨same, (Option.some.inj isFound).symm⟩
    · rw [same]
      exact .inr isFound
  · rw [update_of_ne same] at isFound
    exact .inr isFound

theorem send_serves (pending : Pending) (outcome : Outcome Value RpcError)
    (serves : (sys.channels id).Serves) :
    ((sys.send pending outcome).channels id).Serves := by
  unfold System.send System.setChannel
  dsimp only
  by_cases same : id = pending.tx
  · rw [same, update_self]
    rw [same] at serves
    exact serves.send outcome
  · rw [update_of_ne same]
    exact serves

theorem discard_channels (tracked : Tracked sys) {other : Nat} (different : other ≠ id) :
    (sys.discard id).channels other = sys.channels other := by
  unfold System.discard
  dsimp only
  cases found : sys.pending.find? id with
  | none => rfl
  | some entry =>
    obtain ⟨member, isId⟩ := Table.find?_eq_some_iff.mp found
    dsimp only
    rw [update_of_ne]
    rw [(tracked.entry entry member).1, isId]
    exact different

theorem discard_channels_of_noEntry (noEntry : ∀ entry ∈ sys.pending.entries, entry.id ≠ id) :
    (sys.discard id).channels = sys.channels := by
  unfold System.discard
  dsimp only
  rw [Table.find?_eq_none_iff.mpr noEntry]

theorem complete_channels (sys : System Value RpcError) {other : Nat} (call : Call)
    (outcome : Outcome Value RpcError) (different : other ≠ id) :
    (sys.complete id call outcome).channels other = sys.channels other := by
  unfold System.complete System.setChannel
  dsimp only
  rw [update_of_ne different]
  rfl

/-! ## The invariant -/

structure Answered [Inhabited Value] (sys : System Value RpcError) : Prop where
  routed : ∀ generation pending outcome,
    sys.readers generation = .routing pending outcome → sys.Replied pending.tx outcome
  rejected : ∀ caller generation rejected,
    sys.handlers caller = some ⟨generation, .rejecting rejected⟩ → ∀ pending ∈ rejected,
      ∃ call, sys.calls pending.tx = some call ∧ call.sentOn = some generation
  value : ∀ id outcome, (sys.channels id).value = some outcome → sys.Owns id outcome
  waits : ∀ id call, sys.calls id = some call → 2 ≤ call.stage.stepsLeft →
    (sys.channels id).Serves
  silent : ∀ id, (∀ call, sys.calls id = some call → call.stage ≠ .returned) →
    sys.outcomes id = []
  once : ∀ id call, sys.calls id = some call → call.stage = .returned →
    ∃ outcome, sys.outcomes id = [outcome] ∧ sys.Owns id outcome

section
variable [Inhabited Value]

theorem initial_answered : Answered (System.initial : System Value RpcError) where
  routed := nofun
  rejected := nofun
  value := nofun
  waits := nofun
  silent := fun _ _ => rfl
  once := nofun

variable {next : System Value RpcError} {label : Label Value RpcError} {generation other : Nat}
  {pending : Pending} {outcome : Outcome Value RpcError} {call : Call}

theorem Moves.routed (moves : Moves sys label next)
    (tracked : Tracked sys) (answered : Answered sys)
    (routing : next.readers generation = .routing pending outcome) :
    next.Replied pending.tx outcome := by
  have kept : ∀ {changed : Nat} {reader : Reader Value RpcError},
      update sys.readers changed reader generation = .routing pending outcome →
      (reader = .routing pending outcome → next.Replied pending.tx outcome) →
      next.Replied pending.tx outcome := by
    intro changed reader isReader atChanged
    by_cases same : generation = changed
    · subst same
      rw [update_self] at isReader
      exact atChanged isReader
    · rw [update_of_ne same] at isReader
      exact (answered.routed generation pending outcome isReader).moves moves
  cases moves with
  | spawn | deliver | endControl => exact kept routing nofun
  | @read _ reply entry reading found =>
    apply kept routing
    intro same
    cases same
    obtain ⟨member, isId⟩ := Table.find?_eq_some_iff.mp found
    refine ⟨reply, List.mem_append_right _ (List.mem_singleton.mpr rfl), ?_, rfl⟩
    rw [(tracked.entry entry member).1, isId]
  | miss reading => exact (answered.routed generation pending outcome routing).moves (.miss reading)
  | _ => exact answered.routed generation pending outcome routing

theorem Moves.rejected (moves : Moves sys label next)
    (tracked : Tracked sys) (answered : Answered sys) {caller : Caller} {rejected : List Pending}
    (rejecting : next.handlers caller = some ⟨generation, .rejecting rejected⟩)
    (member : pending ∈ rejected) :
    ∃ call, next.calls pending.tx = some call ∧ call.sentOn = some generation := by
  have later : (∃ call, sys.calls pending.tx = some call ∧ call.sentOn = some generation) →
      ∃ call, next.calls pending.tx = some call ∧ call.sentOn = some generation := by
    rintro ⟨call, isCall, stamped⟩
    obtain ⟨moved, isMoved, follows⟩ := moves.follows tracked isCall
    exact ⟨moved, isMoved, follows.sentOn generation stamped⟩
  have old : sys.handlers caller = some ⟨generation, .rejecting rejected⟩ →
      ∃ call, next.calls pending.tx = some call ∧ call.sentOn = some generation :=
    fun isOld => later (answered.rejected caller generation rejected isOld pending member)
  have kept : ∀ {changed : Caller} {handler : Handler},
      update sys.handlers changed (some handler) caller =
        some ⟨generation, .rejecting rejected⟩ →
      (changed = caller → handler = ⟨generation, .rejecting rejected⟩ →
        ∃ call, sys.calls pending.tx = some call ∧ call.sentOn = some generation) →
      ∃ call, next.calls pending.tx = some call ∧ call.sentOn = some generation := by
    intro changed handler isHandler atChanged
    by_cases same : caller = changed
    · subst same
      rw [update_self] at isHandler
      exact later (atChanged rfl (Option.some.inj isHandler))
    · rw [update_of_ne same] at isHandler
      exact old isHandler
  cases moves with
  | endControl | endStream | reset | ignore | tearDown | finish =>
    exact kept rejecting fun _ => nofun
  | drain draining =>
    apply kept rejecting
    intro _ same
    cases same
    obtain ⟨entry, isEntry, isPending⟩ := List.mem_map.mp member
    obtain ⟨isOld, bound⟩ := List.mem_filter.mp isEntry
    obtain ⟨tx, call, isCall, stamped⟩ := tracked.entry entry isOld
    subst isPending
    rw [tx]
    exact ⟨call, isCall, stamped.trans (congrArg some (of_decide_eq_true bound))⟩
  | reject isRejecting isRejected =>
    apply kept rejecting
    intro atCaller same
    cases same
    rw [atCaller] at isRejecting
    exact answered.rejected caller generation _ isRejecting pending
      (List.mem_of_mem_erase member)
  | _ => exact old rejecting

/-- A value gets into a channel by its own reply or by the teardown of its own
connection. -/
theorem Moves.value (moves : Moves sys label next) (tracked : Tracked sys) (answered : Answered sys)
    (holds : (next.channels id).value = some outcome) : next.Owns id outcome := by
  have old : (sys.channels id).value = some outcome → next.Owns id outcome :=
    fun isOld => (answered.value id outcome isOld).moves moves tracked
  cases moves with
  | request =>
    by_cases same : id = sys.requestCounter + 1
    · subst same
      simp only [System.setChannel] at holds
      rw [update_self] at holds
      cases holds
    · simp only [System.setChannel] at holds
      rw [update_of_ne same] at holds
      exact old holds
  | encodingFails | refuse | receive | lost =>
    rw [complete_value] at holds
    exact old holds
  | insert isCall locked =>
    change ((sys.discard _).channels id).value = some outcome at holds
    rw [discard_value] at holds
    exact old holds
  | bounce isCall inserted ended =>
    dsimp only at holds
    rw [complete_value, discard_value] at holds
    exact old holds
  | reclaim isCall expired =>
    rw [complete_value, discard_value] at holds
    exact old holds
  | @expire other call isCall awaiting =>
    apply old
    by_cases same : id = other
    · subst same
      simp only [System.setChannel] at holds
      rwa [update_self] at holds
    · simp only [System.setChannel] at holds
      rwa [update_of_ne same] at holds
  | @deliver generation pending routed routing =>
    rcases send_value holds with ⟨isTx, isRouted⟩ | isOld
    · subst isTx
      subst isRouted
      exact .inl (answered.routed generation pending outcome routing)
    · exact old isOld
  | @reject caller generation rejected pending rejecting member =>
    rcases send_value holds with ⟨isTx, isLost⟩ | isOld
    · subst isTx
      subst isLost
      obtain ⟨call, isCall, stamped⟩ :=
        answered.rejected caller generation rejected rejecting pending member
      right
      refine ⟨call, .connectionLost, isCall, rfl, generation, stamped, ?_⟩
      exact ⟨caller, _, update_self .., rfl, rfl⟩
    · exact old isOld
  | _ => exact old holds

theorem Moves.waits (moves : Moves sys label next)
    (tracked : Tracked sys) (answered : Answered sys) {later : Call}
    (isLater : next.calls id = some later) (waits : 2 ≤ later.stage.stepsLeft) :
    (next.channels id).Serves := by
  -- A call that moves to a stage that still waits has waited before.
  have old : ∀ {call}, sys.calls id = some call → (sys.channels id).Serves := by
    intro call isCall
    obtain ⟨moved, isMoved, follows⟩ := moves.follows tracked isCall
    rw [isLater] at isMoved
    cases isMoved
    have fewer := follows.steps
    exact answered.waits id call isCall (by omega)
  have here : ∀ {other : Nat} {call moved : Call}, sys.calls other = some call →
      update sys.calls other (some moved) id = some later →
      (sys.channels id).Serves := by
    intro other call moved isCall isMoved
    by_cases same : id = other
    · subst same
      exact old isCall
    · rw [update_of_ne same] at isMoved
      exact old isMoved
  have elsewhere : ∀ {other : Nat} {moved : Call},
      update sys.calls other (some moved) id = some later →
      moved.stage.stepsLeft < 2 → id ≠ other ∧ (sys.channels id).Serves := by
    intro other moved isMoved few
    by_cases same : id = other
    · subst same
      rw [update_self] at isMoved
      cases isMoved
      omega
    · rw [update_of_ne same] at isMoved
      exact ⟨same, old isMoved⟩
  cases moves with
  | request =>
    by_cases same : id = sys.requestCounter + 1
    · subst same
      unfold System.setChannel
      dsimp only
      rw [update_self]
      exact ⟨rfl, .inr rfl⟩
    · dsimp only at isLater
      rw [update_of_ne same] at isLater
      unfold System.setChannel
      dsimp only
      rw [update_of_ne same]
      exact old isLater
  | encodingFails | refuse | receive | lost =>
    obtain ⟨different, serves⟩ := elsewhere isLater (by simp [CallStage.stepsLeft])
    rw [complete_channels _ _ _ different]
    exact serves
  | lock isCall | send isCall => exact here isCall isLater
  | @insert other call control isCall locked =>
    have noEntry := tracked.noEntry isCall (by rw [locked]; rfl)
    change ((sys.discard other).channels id).Serves
    rw [discard_channels_of_noEntry noEntry]
    exact here isCall isLater
  | bounce isCall inserted ended =>
    obtain ⟨different, serves⟩ := elsewhere isLater (by simp [CallStage.stepsLeft])
    dsimp only
    rw [complete_channels _ _ _ different, discard_channels tracked different]
    exact serves
  | reclaim isCall expired =>
    obtain ⟨different, serves⟩ := elsewhere isLater (by simp [CallStage.stepsLeft])
    rw [complete_channels _ _ _ different, discard_channels tracked different]
    exact serves
  | expire isCall awaiting =>
    obtain ⟨different, serves⟩ := elsewhere isLater (by simp [CallStage.stepsLeft])
    unfold System.setChannel
    dsimp only
    rw [update_of_ne different]
    exact serves
  | @deliver generation pending outcome routing =>
    change ((sys.send pending outcome).channels id).Serves
    exact send_serves _ _ (old isLater)
  | @reject caller generation rejected pending rejecting member =>
    change ((sys.send pending _).channels id).Serves
    exact send_serves _ _ (old isLater)
  | _ => exact old isLater

/-- The step returns the call with one outcome of its own, or returns no call of
this id. -/
def Returns (sys next : System Value RpcError) (id : Nat) : Prop :=
  (∃ call moved outcome, sys.calls id = some call ∧ call.stage ≠ .returned ∧
    next.calls id = some moved ∧ moved.stage = .returned ∧
    next.outcomes id = sys.outcomes id ++ [outcome] ∧ next.Owns id outcome) ∨
  next.outcomes id = sys.outcomes id ∧
    ∀ moved, next.calls id = some moved → moved.stage = .returned →
      ∃ call, sys.calls id = some call ∧ call.stage = .returned

theorem returns_complete (isCall : sys.calls id = some call) (running : call.stage ≠ .returned)
    (calls : next.calls = update sys.calls id (some { call with stage := .returned }))
    (outcomes : next.outcomes = update sys.outcomes id (sys.outcomes id ++ [outcome]))
    (owns : next.Owns id outcome) : Returns sys next other := by
  unfold Returns
  rw [calls, outcomes]
  by_cases same : other = id
  · subst same
    rw [update_self, update_self]
    exact .inl ⟨call, _, outcome, isCall, running, rfl, rfl, rfl, owns⟩
  · rw [update_of_ne same, update_of_ne same]
    exact .inr ⟨rfl, fun moved isMoved returned => ⟨moved, isMoved, returned⟩⟩

theorem returns_move {moved : Call} (calls : next.calls = update sys.calls id (some moved))
    (outcomes : next.outcomes = sys.outcomes) (running : moved.stage ≠ .returned) :
    Returns sys next other := by
  right
  rw [calls, outcomes]
  refine ⟨rfl, ?_⟩
  intro found isFound returned
  by_cases same : other = id
  · subst same
    rw [update_self] at isFound
    cases isFound
    exact absurd returned running
  · rw [update_of_ne same] at isFound
    exact ⟨found, isFound, returned⟩

theorem owns_error {error : ClientError RpcError}
    (isCall : sys.calls id = some call) (explains : sys.Explains call error) :
    sys.Owns id (.error error) :=
  .inr ⟨call, error, isCall, rfl, explains⟩

theorem Moves.returns (moves : Moves sys label next)
    (tracked : Tracked sys) (answered : Answered sys) (id : Nat) : Returns sys next id := by
  cases moves with
  | request | lock | insert | send | expire =>
    apply returns_move
    · rfl
    · rfl
    · exact nofun
  | encodingFails isCall atStage | refuse isCall atStage | bounce isCall atStage =>
    refine returns_complete isCall ?_ rfl rfl ?_
    · rw [atStage]
      exact nofun
    · exact owns_error (update_self ..) trivial
  | receive isCall awaiting ready =>
    refine returns_complete isCall ?_ rfl rfl ?_
    · rw [awaiting]
      exact nofun
    · exact (answered.value _ _ ready).moves (.receive isCall awaiting ready) tracked
  | lost isCall awaiting empty dropped =>
    exfalso
    obtain ⟨_, hasValue | hasSender⟩ :=
      answered.waits _ _ isCall (by rw [awaiting]; exact Nat.le_refl 2)
    · exact hasValue empty
    · simp [dropped] at hasSender
  | reclaim isCall expired =>
    refine returns_complete isCall ?_ rfl rfl ?_
    · rw [expired]
      exact nofun
    · exact owns_error (update_self ..) ⟨rfl, rfl⟩
  | _ => exact .inr ⟨rfl, fun moved isMoved returned => ⟨moved, isMoved, returned⟩⟩

theorem Moves.answered (moves : Moves sys label next)
    (tracked : Tracked sys) (answered : Answered sys) : Answered next where
  routed _ _ _ routing := moves.routed tracked answered routing
  rejected _ _ _ rejecting _ member := moves.rejected tracked answered rejecting member
  value _ _ holds := moves.value tracked answered holds
  waits _ _ isLater waits := moves.waits tracked answered isLater waits
  silent := by
    intro id running
    rcases moves.returns tracked answered id with
      ⟨_, moved, _, _, _, isMoved, returned, _⟩ | ⟨same, _⟩
    · exact absurd returned (running moved isMoved)
    · rw [same]
      apply answered.silent
      intro call isCall returned
      obtain ⟨later, isLater, follows⟩ := moves.follows tracked isCall
      apply running later isLater
      have fewer := follows.steps
      rw [returned] at fewer
      cases atStage : later.stage <;> simp_all [CallStage.stepsLeft]
  once := by
    intro id call isCall returned
    rcases moves.returns tracked answered id with
      ⟨old, _, outcome, isOld, running, _, _, outcomes, owns⟩ | ⟨same, old⟩
    · refine ⟨outcome, ?_, owns⟩
      rw [outcomes, answered.silent id]
      · rfl
      · intro other isOther
        rw [isOld] at isOther
        cases isOther
        exact running
    · obtain ⟨before, isBefore, wasReturned⟩ := old call isCall returned
      obtain ⟨outcome, outcomes, owns⟩ := answered.once id before isBefore wasReturned
      exact ⟨outcome, same.trans outcomes, owns.moves moves tracked⟩

structure Sound (sys : System Value RpcError) : Prop where
  linked : Linked sys
  tracked : Tracked sys
  answered : Answered sys

theorem step_sound (sound : Sound sys) (ran : step sys label = some next) : Sound next := by
  have moves := step_moves ran
  exact ⟨moves.linked sound.linked, moves.tracked sound.linked sound.tracked,
    moves.answered sound.tracked sound.answered⟩

theorem reachable_sound (reached : Reachable step .initial sys) : Sound sys :=
  reached.invariant ⟨initial_linked, initial_tracked, initial_answered⟩
    fun _ _ _ sound _ ran => step_sound sound ran

/-! ## Every request, over any run -/

/-- Every request has gone as far as it can, its deadline included. -/
def System.Rested (sys : System Value RpcError) : Prop :=
  ∀ id, ∀ label ∈ [.lock id, .insert id, .send id, .receive id, .expire id, .reclaim id],
    step sys label = none

def System.Handled (sys : System Value RpcError) (generation : Nat) : Prop :=
  ∃ caller, sys.handlers caller = some ⟨generation, .handled⟩

/-- The connection is down, and its handler has not drained the map yet. -/
def System.Draining (sys : System Value RpcError) (generation : Nat) : Prop :=
  ∃ caller, sys.handlers caller = some ⟨generation, .draining⟩

/-- The step of a `handle_disconnect` leaves the connections of later generations
and their requests as they are. -/
def SparesNewer (sys : System Value RpcError) (label : Label Value RpcError)
    (next : System Value RpcError) : Prop :=
  ∀ caller handler newer, label.caller = some caller →
    sys.handlers caller = some handler → handler.generation < newer →
      (sys.controlTx = some newer →
        next.controlTx = some newer ∧ next.connected = sys.connected) ∧
      (∀ entry ∈ sys.pending.entries, entry.pending.generation = newer →
        entry ∈ next.pending.entries) ∧
      ∀ id call, sys.calls id = some call → call.sentOn = some newer →
        next.calls id = some call ∧ next.channels id = sys.channels id ∧
          next.outcomes id = sys.outcomes id

structure CompletesOnce (sys : System Value RpcError) : Prop where
  atMostOne : ∀ id, (sys.outcomes id).length ≤ 1
  one : sys.Rested → ∀ id call, sys.calls id = some call → (sys.outcomes id).length = 1
  /-- A request rests after five steps at most. -/
  rests : ∀ labels later, execute step sys labels = some later →
    ∀ id call, sys.calls id = some call → labels.countP (·.owner = some id) ≤ 5
  own : ∀ id, ∀ outcome ∈ sys.outcomes id, sys.Owns id outcome
  /-- What a handled disconnect leaves belongs to an earlier one, still under way. -/
  drained : ∀ generation, sys.Handled generation → ∀ entry ∈ sys.pending.entries,
    entry.pending.generation ≤ generation →
      entry.pending.generation < generation ∧ sys.Draining entry.pending.generation
  spares : ∀ label next, step sys label = some next → SparesNewer sys label next

theorem Sound.returned (sound : Sound sys)
    (rested : sys.Rested) (isCall : sys.calls id = some call) : call.stage = .returned := by
  -- Nobody holds the state lock: its holder could go on.
  have free : sys.stateLock = none := by
    cases lockCase : sys.stateLock with
    | none => rfl
    | some holder =>
      exfalso
      obtain ⟨other, isOther, inside⟩ := sound.tracked.held holder lockCase
      cases atStage : other.stage with
      | locked control =>
        have stuck := rested holder (.insert holder) (by simp)
        simp [step, requestStep, System.atStage, isOther, atStage] at stuck
      | inserted control =>
        have stuck := rested holder (.send holder) (by simp)
        simp only [step, requestStep, System.atStage, isOther, atStage, Option.bind_some] at stuck
        split at stuck <;> cases stuck
      | drawn | awaiting | expired | returned =>
        rw [atStage] at inside
        exact inside rfl
  cases atStage : call.stage with
  | drawn =>
    exfalso
    have stuck := rested id (.lock id) (by simp)
    simp only [step, requestStep, System.atStage, isCall, atStage, Option.bind_some, free] at stuck
    split at stuck <;> simp_all
  | locked control | inserted control =>
    exfalso
    have isHolder := (sound.tracked.holder id call control isCall (by rw [atStage]; rfl)).1
    simp [free] at isHolder
  | awaiting =>
    exfalso
    have stuck := rested id (.expire id) (by simp)
    simp [step, requestStep, System.atStage, isCall, atStage] at stuck
  | expired =>
    exfalso
    have stuck := rested id (.reclaim id) (by simp)
    simp [step, requestStep, System.atStage, isCall, atStage] at stuck
  | returned => rfl

theorem Sound.stepsLeft (sound : Sound sys) (isCall : sys.calls id = some call) :
    ∀ (labels : List (Label Value RpcError)) (later : System Value RpcError),
      execute step sys labels = some later →
        labels.countP (·.owner = some id) ≤ call.stage.stepsLeft := by
  intro labels
  induction labels generalizing sys call with
  | nil => exact fun _ _ => Nat.zero_le _
  | cons label rest ih =>
    intro later replayed
    rw [execute] at replayed
    cases ran : step sys label with
    | none => simp [ran] at replayed
    | some next =>
      rw [ran] at replayed
      obtain ⟨moved, isMoved, follows⟩ :=
        (step_moves ran).follows sound.tracked isCall
      have fewer := follows.steps
      have after := ih (step_sound sound ran) isMoved later replayed
      rw [List.countP_cons]
      unfold Label.stepsOf at fewer
      simp only [decide_eq_true_eq]
      omega

theorem Sound.drained (sound : Sound sys)
    (handled : sys.Handled generation) {entry : Entry} (member : entry ∈ sys.pending.entries)
    (old : entry.pending.generation ≤ generation) :
    entry.pending.generation < generation ∧ sys.Draining entry.pending.generation := by
  obtain ⟨caller, isHandled⟩ := handled
  have gone := sound.linked.gone caller _ isHandled rfl
  rcases sound.tracked.live entry member with isUp | ⟨other, draining⟩
  · exfalso
    have current := sound.linked.current _ isUp
    have same : entry.pending.generation = generation :=
      Nat.le_antisymm old (current ▸ gone.1)
    rw [same] at isUp
    exact gone.2.1 isUp
  · refine ⟨Nat.lt_of_le_of_ne old ?_, other, draining⟩
    intro same
    have sameCaller :=
      sound.linked.unique other caller _ _ draining isHandled rfl rfl same
    rw [sameCaller, isHandled] at draining
    have stages := congrArg Handler.stage (Option.some.inj draining)
    cases stages

theorem Sound.spares (sound : Sound sys) (ran : step sys label = some next) :
    SparesNewer sys label next := by
  intro caller handler newer isCaller isHandler later
  have moves := step_moves ran
  cases moves with
  | ignore called | finish rejecting =>
    cases isCaller
    exact ⟨fun isUp => ⟨isUp, rfl⟩, fun _ member _ => member,
      fun _ _ isCall _ => ⟨isCall, rfl, rfl⟩⟩
  | tearDown called free up =>
    cases isCaller
    refine ⟨?_, fun _ member _ => member, fun _ _ isCall _ => ⟨isCall, rfl, rfl⟩⟩
    intro isUp
    rw [called] at isHandler
    cases isHandler
    have current := sound.linked.current newer isUp
    exact absurd current (Nat.ne_of_gt later)
  | drain draining =>
    cases isCaller
    refine ⟨fun isUp => ⟨isUp, rfl⟩, ?_, fun _ _ isCall _ => ⟨isCall, rfl, rfl⟩⟩
    intro entry member isNewer
    rw [draining] at isHandler
    cases isHandler
    refine Table.mem_filter.mpr ⟨member, decide_eq_true ?_⟩
    rw [isNewer]
    exact Nat.ne_of_gt later
  | @reject caller generation rejected pending rejecting isRejected =>
    cases isCaller
    refine ⟨fun isUp => ⟨isUp, rfl⟩, fun _ member _ => member, ?_⟩
    intro id call isCall stamped
    refine ⟨isCall, ?_, rfl⟩
    rw [rejecting] at isHandler
    cases isHandler
    obtain ⟨other, isOther, otherStamped⟩ :=
      sound.answered.rejected caller generation rejected rejecting pending isRejected
    have different : id ≠ pending.tx := by
      intro same
      subst same
      rw [isCall] at isOther
      cases isOther
      rw [stamped] at otherStamped
      cases otherStamped
      exact Nat.lt_irrefl _ later
    exact update_of_ne different _ _
  | _ => cases isCaller

theorem Sound.completesOnce (sound : Sound sys) : CompletesOnce sys where
  atMostOne := by
    intro id
    by_cases returned : ∃ call, sys.calls id = some call ∧ call.stage = .returned
    · obtain ⟨call, isCall, atReturned⟩ := returned
      obtain ⟨outcome, outcomes, _⟩ := sound.answered.once id call isCall atReturned
      rw [outcomes]
      exact Nat.le_refl 1
    · rw [sound.answered.silent id fun call isCall atReturned =>
        returned ⟨call, isCall, atReturned⟩]
      exact Nat.zero_le 1
  one := by
    intro rested id call isCall
    obtain ⟨outcome, outcomes, _⟩ :=
      sound.answered.once id call isCall (sound.returned rested isCall)
    rw [outcomes]
    rfl
  rests := by
    intro labels later replayed id call isCall
    have few := sound.stepsLeft isCall labels later replayed
    have most : call.stage.stepsLeft ≤ 5 := by
      cases call.stage <;> simp [CallStage.stepsLeft]
    exact Nat.le_trans few most
  own := by
    intro id outcome member
    by_cases returned : ∃ call, sys.calls id = some call ∧ call.stage = .returned
    · obtain ⟨call, isCall, atReturned⟩ := returned
      obtain ⟨only, outcomes, owns⟩ := sound.answered.once id call isCall atReturned
      rw [outcomes, List.mem_singleton] at member
      rw [member]
      exact owns
    · rw [sound.answered.silent id fun call isCall atReturned =>
        returned ⟨call, isCall, atReturned⟩] at member
      cases member
  drained _ handled _ member old := sound.drained handled member old
  spares _ _ ran := sound.spares ran

/-- **Every request completes once.** In every state that any interleaving of
requests, replies, deadlines, disconnects and reconnects reaches, every request has
one outcome of its own or is on its way to one, a handled disconnect has left none
of its requests behind, and no stale one touches a later connection. -/
theorem reachable_completesOnce {sys : System Value RpcError}
    (reached : Reachable step .initial sys) : CompletesOnce sys :=
  (reachable_sound reached).completesOnce

end

/-- A connection comes up. -/
def reconnect : List (Label String String) := [.connect, .number, .publish, .spawn, .resynced]

/-- A request of the first connection is answered. -/
def answered : List (Label String String) :=
  reconnect ++ [.request "listSessions" 5000, .lock 1, .insert 1, .send 1,
    .read 1 ⟨1, some "sessions", none⟩, .deliver 1, .receive 1]

theorem reachable_completesOnce_answered :
    ∃ sys : System String String, execute step .initial answered = some sys ∧
      CompletesOnce sys ∧ sys.outcomes 1 = [.ok "sessions"] := by
  obtain ⟨sys, replayed, outcomes⟩ :
      ∃ sys : System String String, execute step .initial answered = some sys ∧
        sys.outcomes 1 = [.ok "sessions"] := ⟨_, rfl, rfl⟩
  exact ⟨sys, replayed, reachable_completesOnce (reachable_of_execute _ replayed), outcomes⟩

/-- The first connection is torn down, and its handler is overtaken by the second
connection and by the handler of that one. -/
def overtaken : List (Label String String) :=
  reconnect ++ [.request "listSessions" 5000, .lock 1, .insert 1, .send 1,
    .disconnect (.controlReader 1), .tearDown (.controlReader 1)] ++ reconnect ++
    [.disconnect (.controlReader 2), .tearDown (.controlReader 2), .drain (.controlReader 2),
      .finish (.controlReader 2)]

/-- The second disconnect is handled, and a request of the first connection is still
pending. -/
theorem earlier_request_left : ¬ ∀ sys : System String String, Reachable step .initial sys →
      ∀ generation, sys.Handled generation → ∀ entry ∈ sys.pending.entries,
        ¬ entry.pending.generation ≤ generation := by
  intro drains
  obtain ⟨sys, replayed, handled, member⟩ :
      ∃ sys : System String String, execute step .initial overtaken = some sys ∧
        sys.handlers (.controlReader 2) = some ⟨2, .handled⟩ ∧
          (⟨1, ⟨1, 1⟩⟩ : Entry) ∈ sys.pending.entries :=
    ⟨_, rfl, by decide, by decide⟩
  have above := drains sys (reachable_of_execute _ replayed) 2 ⟨_, handled⟩ _ member
  exact above (by decide)

end AiTools.Client.Requests
