import Mathlib
import AiTools.Lib.Transition

/-!
Contract: the loop that brings a new PTY to the grid of its pane (`terminal-pty-reassert.ts`).

Owns:
- `decideDriftReassert`, and the gate of the fits (`terminal-fit-stability.ts`);
- the loop: its frames, the reads of the applied size, and their answers;
- `reconciles`: the bounds of every run, and the runs in which no answer is stale.

The pane and the PTY answer anything.
-/

namespace AiTools.Terminal.PtyReconcile

open AiTools.Lib.Transition

structure PtySizeDimensions where
  cols : Nat
  rows : Nat
deriving DecidableEq

structure ClampTrackerState where
  requested : Option PtySizeDimensions
  clamped : Option PtySizeDimensions
  adopted : Bool

def initialClampState : ClampTrackerState := ⟨none, none, false⟩

inductive DriftAction where
  | none
  | forward (size : PtySizeDimensions)
  | adopt (size : PtySizeDimensions)
deriving DecidableEq

def decideDriftReassert (prev : ClampTrackerState) (target applied : PtySizeDimensions) :
    DriftAction × ClampTrackerState :=
  if applied = target then (.none, initialClampState)
  else if prev.requested = some target ∧ prev.clamped = some applied then
    (.adopt applied, ⟨some target, some applied, true⟩)
  else (.forward target, ⟨some target, some applied, false⟩)

def fitStableFrames : Nat := 2

def fitMaxStabilityFrames : Nat := 8

structure FitStabilityState where
  proposed : PtySizeDimensions
  matchedFrames : Nat
  totalFrames : Nat

def nextFitStability (prev : Option FitStabilityState) (proposed : PtySizeDimensions) :
    FitStabilityState × Bool :=
  let matchedFrames :=
    match prev with
    | some state => if state.proposed = proposed then state.matchedFrames + 1 else 1
    | none => 1
  let totalFrames := (prev.map FitStabilityState.totalFrames).getD 0 + 1
  (⟨proposed, matchedFrames, totalFrames⟩,
    fitStableFrames ≤ matchedFrames || fitMaxStabilityFrames ≤ totalFrames)

/-! ## The loop -/

def settleFrames : Nat := 8

def maxFrames : Nat := 180

/-- What an answer did, with the target of its read and the grid last sent. -/
inductive Event where
  | reasserted (target lastSent : PtySizeDimensions)
  | verified (target lastSent : PtySizeDimensions)
deriving DecidableEq

/-- Beside the code's own state: the targets of the reads without an answer, what answers did, and
how often the frame callback was run. -/
structure Reconcile where
  frame : Nat
  authoritativeStableFrames : Nat
  lastSent : PtySizeDimensions
  fitStability : Option FitStabilityState
  pendingFrame : Bool
  cancelled : Bool
  verifyInFlight : Bool
  appliedVerified : Bool
  verifyClamp : ClampTrackerState
  reads : List PtySizeDimensions
  events : List Event
  ticks : Nat

/-- What the options answer in a frame. -/
structure Frame where
  isAlive : Bool
  isHeld : Bool
  measured : Option PtySizeDimensions
  isAuthoritative : Bool

/-- A measurement that the frame makes something of. -/
def Frame.proposal? (given : Frame) : Option PtySizeDimensions :=
  if given.isHeld then none
  else given.measured.filter fun measured => 0 < measured.cols && 0 < measured.rows

/-- `none` as an answer is a read that failed. -/
inductive Label where
  | frame (given : Frame)
  | answer (index : Nat) (isAlive isHeld : Bool) (applied? : Option (Option PtySizeDimensions))
  | cancel

namespace Reconcile

variable (hasReadback : Bool) (loop : Reconcile)

def commits (measured : PtySizeDimensions) : Bool :=
  measured ≠ loop.lastSent && (nextFitStability loop.fitStability measured).2

def observe (given : Frame) : Reconcile :=
  match given.proposal? with
  | none => loop
  | some measured =>
    if measured ≠ loop.lastSent then
      if loop.commits measured then
        { loop with
          lastSent := measured
          authoritativeStableFrames := 0
          appliedVerified := !hasReadback
          verifyClamp := initialClampState
          fitStability := none }
      else
        { loop with fitStability := some (nextFitStability loop.fitStability measured).1 }
    else
      { loop with
        fitStability := none
        authoritativeStableFrames :=
          loop.authoritativeStableFrames + if given.isAuthoritative then 1 else 0 }

def gridStable : Bool := settleFrames ≤ loop.authoritativeStableFrames

def verify (given : Frame) : Reconcile :=
  if loop.gridStable && !loop.appliedVerified && !loop.verifyInFlight && !given.isHeld &&
      hasReadback then
    { loop with verifyInFlight := true, reads := loop.reads ++ [loop.lastSent] }
  else loop

def requestFrame : Reconcile :=
  { loop with
    pendingFrame :=
      !(loop.gridStable && loop.appliedVerified) && decide (loop.frame < maxFrames) }

def tick (given : Frame) : Reconcile :=
  let loop := { loop with pendingFrame := false, ticks := loop.ticks + 1 }
  if loop.cancelled || !given.isAlive then loop
  else
    (({ loop with frame := loop.frame + 1 }.observe hasReadback given).verify hasReadback
      given).requestFrame

/-- `then`, or `catch`. -/
def decideApplied (target : PtySizeDimensions) (isAlive isHeld : Bool) :
    Option (Option PtySizeDimensions) → Reconcile
  | none =>
    { loop with
      appliedVerified := true
      events := loop.events ++ [.verified target loop.lastSent] }
  | some applied? =>
    if loop.cancelled || !isAlive || isHeld then loop
    else
      match applied? with
      | none =>
        { loop with
          appliedVerified := true
          events := loop.events ++ [.verified target loop.lastSent] }
      | some applied =>
        match decideDriftReassert loop.verifyClamp target applied with
        | (.forward _, state) =>
          { loop with
            verifyClamp := state
            authoritativeStableFrames := 0
            events := loop.events ++ [.reasserted target loop.lastSent] }
        | (_, state) =>
          { loop with
            verifyClamp := state
            appliedVerified := true
            events := loop.events ++ [.verified target loop.lastSent] }

/-- The answer, and `finally`. -/
def answered (index : Nat) (target : PtySizeDimensions) (isAlive isHeld : Bool)
    (applied? : Option (Option PtySizeDimensions)) : Reconcile :=
  { loop.decideApplied target isAlive isHeld applied? with
    verifyInFlight := false
    reads := loop.reads.eraseIdx index }

def cancel : Reconcile := { loop with cancelled := true, pendingFrame := false }

end Reconcile

def step (hasReadback : Bool) (loop : Reconcile) : Label → Option Reconcile
  | .frame given => if loop.pendingFrame then some (loop.tick hasReadback given) else none
  | .answer index isAlive isHeld applied? =>
    (loop.reads[index]?).map fun target => loop.answered index target isAlive isHeld applied?
  | .cancel => some loop.cancel

def initial (spawn : PtySizeDimensions) (hasReadback : Bool) : Reconcile :=
  ⟨0, 0, spawn, none, true, false, false, !hasReadback, initialClampState, [], [], 0⟩

structure Bounded (loop : Reconcile) : Prop where
  ticks : loop.ticks ≤ maxFrames
  oneInFlight : loop.reads.length ≤ 1

/-- No answer to the read of a grid forwarded it, or verified another, after a later one was
sent. -/
def Fresh (loop : Reconcile) : Prop :=
  ∀ target lastSent, (.reasserted target lastSent ∈ loop.events ∨
    .verified target lastSent ∈ loop.events) → target = lastSent

/-- No grid is committed while a read has no answer. -/
def Calm (loop : Reconcile) : Label → Prop
  | .frame given => ∀ measured, given.proposal? = some measured → loop.commits measured = true →
      loop.verifyInFlight = false
  | _ => True

/-- What is decided while the PTY reports one size for one target. -/
def decisions (target applied : PtySizeDimensions) : Nat → ClampTrackerState → List DriftAction
  | 0, _ => []
  | count + 1, prev =>
    (decideDriftReassert prev target applied).1 ::
      decisions target applied count (decideDriftReassert prev target applied).2

def forwards (actions : List DriftAction) (target : PtySizeDimensions) : Nat :=
  actions.count (.forward target)

variable {target applied : PtySizeDimensions} {loop next : Reconcile} {hasReadback : Bool}

theorem decisions_same (count : Nat) (prev : ClampTrackerState) :
    forwards (decisions target target count prev) target = 0 := by
  induction count generalizing prev with
  | zero => rfl
  | succ count ih =>
    have isNone : decideDriftReassert prev target target = (.none, initialClampState) :=
      if_pos rfl
    rw [decisions, isNone]
    exact ih initialClampState

theorem decisions_clamped (isDrift : applied ≠ target) (count : Nat) {prev : ClampTrackerState}
    (isRequested : prev.requested = some target) (isClamped : prev.clamped = some applied) :
    forwards (decisions target applied count prev) target = 0 := by
  induction count generalizing prev with
  | zero => rfl
  | succ count ih =>
    have isAdopted : decideDriftReassert prev target applied =
        (.adopt applied, ⟨some target, some applied, true⟩) := by
      rw [decideDriftReassert, if_neg isDrift, if_pos ⟨isRequested, isClamped⟩]
    rw [decisions, isAdopted]
    exact ih rfl rfl

theorem forwards_le (prev : ClampTrackerState) (target applied : PtySizeDimensions) (count : Nat) :
    forwards (decisions target applied count prev) target ≤ 1 := by
  by_cases isSame : applied = target
  · subst isSame
    rw [decisions_same]
    exact Nat.zero_le 1
  · cases count with
    | zero => exact Nat.zero_le 1
    | succ count =>
      have isTracked : (decideDriftReassert prev target applied).2.requested = some target ∧
          (decideDriftReassert prev target applied).2.clamped = some applied := by
        rw [decideDriftReassert, if_neg isSame]
        split_ifs
        all_goals exact ⟨rfl, rfl⟩
      have later := decisions_clamped isSame count isTracked.1 isTracked.2
      unfold forwards at later ⊢
      rw [decisions, List.count_cons, later]
      split_ifs
      · exact Nat.le_refl 1
      · exact Nat.zero_le 1

/-- The state that observing and verifying leave as it is. -/
structure Beside (loop next : Reconcile) : Prop where
  frame : next.frame = loop.frame
  ticks : next.ticks = loop.ticks
  events : next.events = loop.events

theorem observe_beside (given : Frame) : Beside loop (loop.observe hasReadback given) := by
  unfold Reconcile.observe
  split
  · exact ⟨rfl, rfl, rfl⟩
  · split_ifs
    all_goals exact ⟨rfl, rfl, rfl⟩

theorem observe_reads (given : Frame) : (loop.observe hasReadback given).reads = loop.reads ∧
      (loop.observe hasReadback given).verifyInFlight = loop.verifyInFlight := by
  unfold Reconcile.observe
  split
  · exact ⟨rfl, rfl⟩
  · split_ifs
    all_goals exact ⟨rfl, rfl⟩

theorem observe_lastSent {given : Frame} (calm : ∀ measured, given.proposal? = some measured →
    loop.commits measured = true → loop.verifyInFlight = false)
    (inFlight : loop.verifyInFlight = true) :
    (loop.observe hasReadback given).lastSent = loop.lastSent := by
  unfold Reconcile.observe
  split
  · rfl
  · rename_i measured isMeasured
    split_ifs with isOther isCommit
    · exact Bool.noConfusion ((calm measured isMeasured isCommit).symm.trans inFlight)
    all_goals rfl

/-- The reads are those in flight. -/
def Tracked (loop : Reconcile) : Prop := loop.reads.length = loop.verifyInFlight.toNat

theorem verify_tracked (given : Frame) (tracked : Tracked loop) :
    Tracked (loop.verify hasReadback given) := by
  unfold Reconcile.verify
  split_ifs with isDue
  · have notInFlight : loop.verifyInFlight = false := by
      simp only [Bool.and_eq_true, Bool.not_eq_true'] at isDue
      exact isDue.1.1.2
    unfold Tracked at tracked ⊢
    rw [notInFlight] at tracked
    rw [List.length_append, tracked]
    rfl
  · exact tracked

theorem verify_beside (given : Frame) : Beside loop (loop.verify hasReadback given) := by
  unfold Reconcile.verify
  split_ifs
  all_goals exact ⟨rfl, rfl, rfl⟩

/-- Every read is of the grid last sent. -/
def Current (loop : Reconcile) : Prop := ∀ target ∈ loop.reads, target = loop.lastSent

theorem verify_current (given : Frame) (current : Current loop) :
    Current (loop.verify hasReadback given) := by
  unfold Reconcile.verify
  split_ifs
  · intro target isRead
    rcases List.mem_append.mp isRead with isOld | isNew
    · exact current target isOld
    · exact List.mem_singleton.mp isNew
  · exact current

/-- The frames that were counted are those that ran, while there is a next one. -/
structure Counted (loop : Reconcile) : Prop where
  pending : loop.pendingFrame = true → loop.ticks = loop.frame ∧ loop.frame < maxFrames
  ticks : loop.ticks ≤ maxFrames
  tracked : Tracked loop

/-- What an answer to the read of `target` leaves, and what it records. -/
structure Decided (loop next : Reconcile) (target : PtySizeDimensions) : Prop where
  frame : next.frame = loop.frame
  ticks : next.ticks = loop.ticks
  pending : next.pendingFrame = loop.pendingFrame
  lastSent : next.lastSent = loop.lastSent
  events : next.events = loop.events ∨
    next.events = loop.events ++ [.reasserted target loop.lastSent] ∨
    next.events = loop.events ++ [.verified target loop.lastSent]

theorem decided (target : PtySizeDimensions) (isAlive isHeld : Bool)
    (applied? : Option (Option PtySizeDimensions)) :
    Decided loop (loop.decideApplied target isAlive isHeld applied?) target := by
  cases applied? with
  | none => exact ⟨rfl, rfl, rfl, rfl, .inr (.inr rfl)⟩
  | some applied? =>
    unfold Reconcile.decideApplied
    split_ifs
    · exact ⟨rfl, rfl, rfl, rfl, .inl rfl⟩
    · cases applied? with
      | none => exact ⟨rfl, rfl, rfl, rfl, .inr (.inr rfl)⟩
      | some applied =>
        dsimp only
        split
        · exact ⟨rfl, rfl, rfl, rfl, .inr (.inl rfl)⟩
        · exact ⟨rfl, rfl, rfl, rfl, .inr (.inr rfl)⟩

theorem Decided.fresh (decided : Decided loop next target) (fresh : Fresh loop)
    (isCurrent : target = loop.lastSent) : Fresh next := by
  intro other lastSent isEvent
  rcases decided.events with isOld | isNew | isNew
  · exact fresh other lastSent (isOld ▸ isEvent)
  · rw [isNew] at isEvent
    simp only [List.mem_append, List.mem_singleton, Event.reasserted.injEq, reduceCtorEq,
      or_false] at isEvent
    rcases isEvent with (isOld | ⟨rfl, rfl⟩) | isOld
    · exact fresh other lastSent (.inl isOld)
    · exact isCurrent
    · exact fresh other lastSent (.inr isOld)
  · rw [isNew] at isEvent
    simp only [List.mem_append, List.mem_singleton, Event.verified.injEq, reduceCtorEq,
      or_false] at isEvent
    rcases isEvent with isOld | isOld | ⟨rfl, rfl⟩
    · exact fresh other lastSent (.inl isOld)
    · exact fresh other lastSent (.inr isOld)
    · exact isCurrent

theorem answered_tracked {index : Nat} (tracked : Tracked loop)
    (isRead : loop.reads[index]? = some target) : (loop.reads.eraseIdx index).length = 0 := by
  have isInside := (List.getElem?_eq_some_iff.mp isRead).1
  have atMost := Bool.toNat_le loop.verifyInFlight
  unfold Tracked at tracked
  rw [List.length_eraseIdx_of_lt isInside]
  omega

theorem step_counted {label : Label} (counted : Counted loop)
    (ran : step hasReadback loop label = some next) : Counted next := by
  cases label with
  | frame given =>
    simp only [step] at ran
    split_ifs at ran with isPending
    cases ran
    obtain ⟨sameTicks, isBelow⟩ := counted.pending isPending
    unfold Reconcile.tick
    dsimp only
    split_ifs
    · exact ⟨nofun, by dsimp only; omega, counted.tracked⟩
    · generalize isStart : ({ loop with
        pendingFrame := false, ticks := loop.ticks + 1, frame := loop.frame + 1 } : Reconcile) =
        started
      have first := @observe_beside started hasReadback given
      have second := @verify_beside (started.observe hasReadback given) hasReadback given
      have isTicks : ((started.observe hasReadback given).verify hasReadback given).ticks =
          loop.ticks + 1 := (second.ticks.trans first.ticks).trans (isStart ▸ rfl)
      have isFrame : ((started.observe hasReadback given).verify hasReadback given).frame =
          loop.frame + 1 := (second.frame.trans first.frame).trans (isStart ▸ rfl)
      obtain ⟨sameReads, sameFlight⟩ := @observe_reads started hasReadback given
      have tracked : Tracked (started.observe hasReadback given) := by
        unfold Tracked
        rw [sameReads, sameFlight, ← isStart]
        exact counted.tracked
      refine ⟨fun isNext => ?_, ?_, verify_tracked given tracked⟩
      · have isLast := of_decide_eq_true (Bool.and_eq_true_iff.mp isNext).2
        exact ⟨isTicks.trans (sameTicks ▸ isFrame.symm), isLast⟩
      · refine isTicks.trans_le ?_
        omega
  | answer index isAlive isHeld applied? =>
    obtain ⟨target, isRead, rfl⟩ := Option.map_eq_some_iff.mp ran
    have decided := @decided loop target isAlive isHeld applied?
    refine ⟨fun pending => ?_, decided.ticks.trans_le counted.ticks,
      answered_tracked counted.tracked isRead⟩
    obtain ⟨sameTicks, isBelow⟩ := counted.pending (decided.pending ▸ pending)
    exact ⟨decided.ticks.trans (sameTicks.trans decided.frame.symm),
      decided.frame.trans_lt isBelow⟩
  | cancel =>
    cases ran
    exact ⟨nofun, counted.ticks, counted.tracked⟩

theorem initial_counted (spawn : PtySizeDimensions) : Counted (initial spawn hasReadback) :=
  ⟨fun _ => ⟨rfl, show 0 < maxFrames by decide⟩, Nat.zero_le _, rfl⟩

theorem initial_fresh (spawn : PtySizeDimensions) : Fresh (initial spawn hasReadback) := by
  rintro target lastSent (isEvent | isEvent)
  · cases isEvent
  · cases isEvent

structure Sound (loop : Reconcile) : Prop where
  counted : Counted loop
  current : Current loop
  fresh : Fresh loop

theorem step_sound {label : Label} (sound : Sound loop) (calm : Calm loop label)
    (ran : step hasReadback loop label = some next) : Sound next := by
  have counted := step_counted sound.counted ran
  cases label with
  | frame given =>
    simp only [step] at ran
    split_ifs at ran
    cases ran
    refine ⟨counted, ?_, ?_⟩
    · unfold Reconcile.tick
      dsimp only
      split_ifs
      · exact sound.current
      · refine verify_current given fun target isRead => ?_
        obtain ⟨sameReads, -⟩ := @observe_reads { loop with
          pendingFrame := false, ticks := loop.ticks + 1, frame := loop.frame + 1 } hasReadback
          given
        rw [sameReads] at isRead
        have inFlight : loop.verifyInFlight = true := by
          have isTracked := sound.counted.tracked
          unfold Tracked at isTracked
          cases isFlight : loop.verifyInFlight with
          | true => rfl
          | false =>
            rw [isFlight] at isTracked
            simp [List.length_eq_zero_iff.mp isTracked] at isRead
        have sameSent := @observe_lastSent { loop with
          pendingFrame := false, ticks := loop.ticks + 1, frame := loop.frame + 1 } hasReadback
          given calm inFlight
        exact (sound.current target isRead).trans sameSent.symm
    · have sameEvents : (loop.tick hasReadback given).events = loop.events := by
        unfold Reconcile.tick
        dsimp only
        split_ifs
        · rfl
        · exact (verify_beside given).events.trans (observe_beside given).events
      unfold Fresh
      rw [sameEvents]
      exact sound.fresh
  | answer index isAlive isHeld applied? =>
    obtain ⟨target, isRead, rfl⟩ := Option.map_eq_some_iff.mp ran
    have isCurrent := sound.current target (List.mem_of_getElem? isRead)
    refine ⟨counted, fun other isOther => ?_, fun other lastSent isEvent => ?_⟩
    · have isNil := List.length_eq_zero_iff.mp (answered_tracked sound.counted.tracked isRead)
      change other ∈ loop.reads.eraseIdx index at isOther
      simp [isNil] at isOther
    · exact (decided target isAlive isHeld applied?).fresh sound.fresh isCurrent other lastSent
        isEvent
  | cancel =>
    cases ran
    exact ⟨counted, sound.current, sound.fresh⟩

/-- Every run has few frames and one read at a time, a clamped PTY is sent a grid again once, and
no answer is stale in the runs in which no grid is committed while a read is out. -/
theorem reconciles (spawn : PtySizeDimensions) (hasReadback : Bool) :
    (∀ loop, Reachable (step hasReadback) (initial spawn hasReadback) loop → Bounded loop) ∧
      (∀ prev target applied count, forwards (decisions target applied count prev) target ≤ 1) ∧
      ∀ loop, Run (step hasReadback) Calm (initial spawn hasReadback) loop → Fresh loop := by
  refine ⟨fun loop run => ?_, forwards_le, fun loop run => ?_⟩
  · have counted : Counted loop := run.invariant (initial_counted spawn)
      fun _ _ _ counted _ ran => step_counted counted ran
    exact ⟨counted.ticks, counted.tracked.trans_le (Bool.toNat_le _)⟩
  · have started : Sound (initial spawn hasReadback) :=
      ⟨initial_counted spawn, fun _ isRead => (by cases isRead), initial_fresh spawn⟩
    have sound : Sound loop := run.invariant started
      fun _ _ _ sound calm ran => step_sound sound calm ran
    exact sound.fresh

/-- A frame in which the pane measures so. -/
def measures (cols rows : Nat) : Label := .frame ⟨true, false, some ⟨cols, rows⟩, true⟩

theorem not_fresh : ¬∀ spawn hasReadback loop,
    Reachable (step hasReadback) (initial spawn hasReadback) loop → Fresh loop := by
  intro areFresh
  obtain ⟨loop, replayed, isEvent⟩ : ∃ loop, execute (step true) (initial ⟨80, 24⟩ true)
      (List.replicate 8 (measures 80 24) ++ List.replicate 2 (measures 100 30) ++
        [.answer 0 true false (some (some ⟨60, 20⟩))]) = some loop ∧
      Event.reasserted ⟨80, 24⟩ ⟨100, 30⟩ ∈ loop.events := ⟨_, rfl, by decide⟩
  have fresh := areFresh ⟨80, 24⟩ true loop (reachable_of_execute _ replayed)
  cases fresh _ _ (.inl isEvent)

end AiTools.Terminal.PtyReconcile
