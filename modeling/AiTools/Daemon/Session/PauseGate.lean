import AiTools.Lib.Transition
import Mathlib

/-!
Contract: the gate that stops the reader of a session, and the threads that open it again.

A failsafe sleeps for any time.
-/

namespace AiTools.Daemon.PauseGate

open AiTools.Lib.Transition
open Function (update update_apply update_of_ne update_self)

/-- Where the pause of a call is: its generation is taken under the lock, and captured by the
failsafe that it starts. -/
inductive Stage where
  | checked
  | spawning (gen : UInt64)
  | sleeping (gen : UInt64)

/-- The generation of the failsafe that a call has armed, or is about to start. -/
def Stage.captured : Stage → Option UInt64
  | .checked => none
  | .spawning gen => some gen
  | .sleeping gen => some gen

structure Producer where
  paused : Bool
  generation : UInt64

/-- A failsafe ended the pause that some call had made. -/
structure Ending where
  failsafe : Nat
  pause : Option Nat

structure System where
  alive : Bool
  /-- The session is gone, and with it the gate. -/
  dropped : Bool
  producer : Producer
  calls : Nat → Option Stage
  started : Nat
  /-- The call that paused last. -/
  pausedBy : Option Nat
  endings : List Ending

def initial : System := ⟨true, false, ⟨false, 0⟩, fun _ => none, 0, none, []⟩

inductive Label where
  | pauseProducer
  | lock (id : Nat)
  | spawn (id : Nat) (ok : Bool)
  | wake (id : Nat)
  | resumeProducer
  | die
  | drop

def System.goto (sys : System) (id : Nat) (stage : Option Stage) : System :=
  { sys with calls := update sys.calls id stage }

/-- The flag is set, and the generation of this pause is the next one. -/
def System.onLock (sys : System) (id : Nat) : System :=
  let gen := sys.producer.generation + 1
  { sys.goto id (some (.spawning gen)) with
    producer := ⟨true, gen⟩
    pausedBy := some id }

def System.onResume (sys : System) : System :=
  { sys with producer := ⟨false, sys.producer.generation + 1⟩ }

/-- The failsafe ends the pause if its generation is the current one. -/
def System.onWake (sys : System) (id : Nat) (gen : UInt64) : System :=
  if sys.dropped then sys.goto id none
  else if sys.producer.generation = gen && sys.producer.paused then
    { (sys.goto id none).onResume with
      endings := sys.endings ++ [⟨id, sys.pausedBy⟩] }
  else sys.goto id none

def step (sys : System) : Label → Option System
  | .pauseProducer =>
    if sys.dropped then none
    else if sys.alive then
      some { sys.goto sys.started (some .checked) with started := sys.started + 1 }
    else some sys
  | .lock id =>
    match sys.calls id with
    | some .checked => some (sys.onLock id)
    | _ => none
  | .spawn id ok =>
    match sys.calls id with
    | some (.spawning gen) =>
      -- A thread that cannot be started is not missed.
      some (sys.goto id (if ok then some (.sleeping gen) else none))
    | _ => none
  | .wake id =>
    match sys.calls id with
    | some (.sleeping gen) => some (sys.onWake id gen)
    | _ => none
  | .resumeProducer => if sys.dropped then none else some sys.onResume
  | .die => some { sys with alive := false }
  | .drop => some { sys with dropped := true }

/-- The call's failsafe is the one of the current generation. -/
def System.Armed (sys : System) (id : Nat) : Prop :=
  ∃ stage, sys.calls id = some stage ∧ stage.captured = some sys.producer.generation

/-- A closed gate has a failsafe that will open it, and a failsafe has ended its own pause only. -/
structure Held (sys : System) : Prop where
  armed : sys.producer.paused = true → sys.dropped = false → ∃ id, sys.Armed id
  own : ∀ ending ∈ sys.endings, ending.pause = some ending.failsafe

/-- The failsafe can be started, and no failsafe that is still to come has the generation of a new
pause, which takes as many pauses and resumes as the counter has values. -/
def Clean (sys : System) : Label → Prop
  | .lock _ => ∀ other stage, sys.calls other = some stage →
      stage.captured ≠ some (sys.producer.generation + 1)
  | .spawn _ ok => ok = true
  | _ => True

def GateHeld (ok : System → Label → Prop) : Prop :=
  ∀ finish, Run step ok initial finish → Held finish

/-! ## The invariant -/

structure Sound (sys : System) : Prop where
  held : Held sys
  /-- Only the call that paused last has the generation of a closed gate. -/
  single : sys.producer.paused = true → ∀ id, sys.Armed id → sys.pausedBy = some id
  fresh : ∀ id, sys.started ≤ id → sys.calls id = none

theorem initial_sound : Sound initial where
  held := ⟨Bool.noConfusion, nofun⟩
  single := nofun
  fresh := fun _ _ => rfl

section
variable {sys : System} {id : Nat}

/-- A call goes on or ends, and keeps its failsafe if it has the one of a closed gate. -/
theorem Sound.goto (sound : Sound sys) {stage : Option Stage} (isStarted : id < sys.started)
    (keeps : sys.producer.paused = true → sys.Armed id →
      ∃ next, stage = some next ∧ next.captured = some sys.producer.generation)
    (noMore : ∀ next, stage = some next → next.captured = some sys.producer.generation →
      sys.Armed id) : Sound (sys.goto id stage) where
  held := by
    refine ⟨fun isPaused isHere => ?_, sound.held.own⟩
    obtain ⟨other, isArmed⟩ := sound.held.armed isPaused isHere
    by_cases same : other = id
    · subst same
      obtain ⟨next, isNext, captured⟩ := keeps isPaused isArmed
      refine ⟨other, next, ?_, captured⟩
      show update sys.calls other stage other = _
      rw [update_self, isNext]
    · obtain ⟨found, isFound, captured⟩ := isArmed
      exact ⟨other, found, (update_of_ne same _ _).trans isFound, captured⟩
  single := by
    rintro isPaused other ⟨found, isFound, captured⟩
    rcases update_eq_some isFound with ⟨rfl, isNext⟩ | ⟨_, wasFound⟩
    · exact sound.single isPaused other (noMore found isNext captured)
    · exact sound.single isPaused other ⟨found, wasFound, captured⟩
  fresh := by
    intro other isLater
    have isLate : sys.started ≤ other := isLater
    show update sys.calls id stage other = none
    rw [update_of_ne (by omega)]
    exact sound.fresh other isLate

theorem Sound.started (sound : Sound sys) {stage : Stage}
    (found : sys.calls id = some stage) : id < sys.started := by
  by_contra isLater
  simp [sound.fresh id (Nat.le_of_not_lt isLater)] at found

theorem Sound.opened (sound : Sound sys) {endings : List Ending}
    (own : ∀ ending ∈ endings, ending.pause = some ending.failsafe) :
    Sound { sys.onResume with endings := endings } where
  held := ⟨Bool.noConfusion, own⟩
  single := nofun
  fresh := sound.fresh

theorem Sound.lock (sound : Sound sys) (found : sys.calls id = some .checked)
    (isNew : ∀ other stage, sys.calls other = some stage →
      stage.captured ≠ some (sys.producer.generation + 1)) : Sound (sys.onLock id) where
  held := by
    refine ⟨fun _ _ => ⟨id, .spawning (sys.producer.generation + 1), ?_, rfl⟩, sound.held.own⟩
    exact update_self _ _ _
  single := by
    rintro _ other ⟨stage, isFound, captured⟩
    rcases update_eq_some isFound with ⟨rfl, _⟩ | ⟨_, wasFound⟩
    · rfl
    · exact absurd captured (isNew other stage wasFound)
  fresh := by
    intro other isLater
    have isStarted := sound.started found
    have isLate : sys.started ≤ other := isLater
    show update sys.calls id _ other = none
    rw [update_of_ne (by omega)]
    exact sound.fresh other isLate

theorem Sound.wake (sound : Sound sys) {gen : UInt64}
    (found : sys.calls id = some (.sleeping gen)) : Sound (sys.onWake id gen) := by
  have isStarted := sound.started found
  unfold System.onWake
  split_ifs with isDropped isCurrent
  · constructor
    case held =>
      refine ⟨fun _ isHere => ?_, sound.held.own⟩
      exact Bool.noConfusion (isDropped.symm.trans isHere)
    case single =>
      rintro isPaused other ⟨stage, isFound, captured⟩
      rcases update_eq_some isFound with ⟨_, isNone⟩ | ⟨_, wasFound⟩
      · cases isNone
      · exact sound.single isPaused other ⟨stage, wasFound, captured⟩
    case fresh =>
      intro other isLater
      show update sys.calls id none other = none
      rw [update_apply]
      split_ifs
      · rfl
      · exact sound.fresh other isLater
  · rw [Bool.and_eq_true, decide_eq_true_eq] at isCurrent
    have isOwn : sys.pausedBy = some id := by
      refine sound.single isCurrent.2 id ⟨.sleeping gen, found, ?_⟩
      rw [isCurrent.1]
      rfl
    constructor
    case held =>
      refine ⟨Bool.noConfusion, fun ending isIn => ?_⟩
      rcases List.mem_append.mp isIn with isOld | isNew
      · exact sound.held.own ending isOld
      · rw [List.mem_singleton.mp isNew]
        exact isOwn
    case single => exact nofun
    case fresh =>
      intro other isLater
      show update sys.calls id none other = none
      rw [update_apply]
      split_ifs
      · rfl
      · exact sound.fresh other isLater
  · refine sound.goto isStarted (fun isPaused isArmed => ?_) nofun
    obtain ⟨stage, isFound, captured⟩ := isArmed
    rw [found] at isFound
    cases isFound
    cases captured
    simp [isPaused] at isCurrent

theorem step_sound (sound : Sound sys) {label : Label} (clean : Clean sys label)
    {next : System} (ran : step sys label = some next) : Sound next := by
  unfold step at ran
  cases label with
  | pauseProducer =>
    dsimp only at ran
    split_ifs at ran with isDropped isAlive
    · cases ran
      have noCall := sound.fresh sys.started le_rfl
      constructor
      case held =>
        refine ⟨fun isPaused isHere => ?_, sound.held.own⟩
        obtain ⟨id, stage, isFound, captured⟩ := sound.held.armed isPaused isHere
        refine ⟨id, stage, ?_, captured⟩
        show update sys.calls sys.started _ id = _
        rw [update_of_ne (sound.started isFound).ne]
        exact isFound
      case single =>
        rintro isPaused id ⟨stage, isFound, captured⟩
        rcases update_eq_some isFound with ⟨_, isChecked⟩ | ⟨_, wasFound⟩
        · cases isChecked
          cases captured
        · exact sound.single isPaused id ⟨stage, wasFound, captured⟩
      case fresh =>
        intro id isLater
        have isLate : sys.started + 1 ≤ id := isLater
        show update sys.calls sys.started _ id = none
        rw [update_of_ne (by omega)]
        exact sound.fresh id (by omega)
    · cases ran
      exact sound
  | lock id =>
    dsimp only at ran
    split at ran
    · rename_i found
      cases ran
      exact sound.lock found clean
    · cases ran
  | spawn id ok =>
    have isOk : ok = true := clean
    subst isOk
    dsimp only at ran
    split at ran
    · rename_i gen found
      cases ran
      refine sound.goto (sound.started found) (fun _ isArmed => ?_) fun next isNext captured => ?_
      · obtain ⟨stage, isFound, captured⟩ := isArmed
        rw [found] at isFound
        cases isFound
        exact ⟨_, rfl, captured⟩
      · cases isNext
        exact ⟨_, found, captured⟩
    · cases ran
  | wake id =>
    dsimp only at ran
    split at ran
    · rename_i gen found
      cases ran
      exact sound.wake found
    · cases ran
  | resumeProducer =>
    dsimp only at ran
    split_ifs at ran
    cases ran
    exact sound.opened sound.held.own
  | die =>
    cases ran
    exact ⟨⟨sound.held.armed, sound.held.own⟩, sound.single, sound.fresh⟩
  | drop =>
    cases ran
    exact ⟨⟨nofun, sound.held.own⟩, sound.single, sound.fresh⟩

end

/-- A closed gate always has its failsafe, and no failsafe ends another pause, as long as the
threads can be started and no generation comes again while its failsafe is pending. -/
theorem gateHeld {finish : System} (run : Run step Clean initial finish) : Held finish :=
  (run.invariant initial_sound fun _ _ _ sound clean ran =>
    step_sound sound clean ran).held

/-- A second pause comes before the failsafe of the first one, which leaves it alone. -/
def repeatedPause : List Label :=
  [.pauseProducer, .lock 0, .spawn 0 true, .pauseProducer, .lock 1, .spawn 1 true, .wake 0,
    .wake 1]

theorem gateHeld_repeatedPause :
    ∃ finish, Run step Clean initial finish ∧ finish.endings = [⟨1, some 1⟩] ∧ Held finish := by
  obtain ⟨finish, replayed, endings⟩ : ∃ finish, execute step initial repeatedPause =
      some finish ∧ finish.endings = [⟨1, some 1⟩] := ⟨_, rfl, rfl⟩
  -- The tables of calls are named where a pause takes its generation.
  have permitted : Permitted step Clean initial repeatedPause := by
    refine ⟨trivial, ⟨_, _, _, update (fun _ => none) 0 (some .checked), _, _, _⟩, rfl,
      ?_, _, rfl, rfl, _, rfl, trivial, ⟨_, _, ⟨_, 1⟩, update (update
        (update (update (fun _ => none) 0 (some .checked)) 0
          (some (.spawning 1))) 0 (some (.sleeping 1))) 1 (some .checked), _, _, _⟩, rfl, ?_, _,
      rfl, rfl, _, rfl, trivial, _, rfl, trivial, _, rfl, trivial⟩
    · intro other stage found captured
      dsimp only at found
      rcases update_eq_some found with ⟨_, isChecked⟩ | ⟨_, isNone⟩
      · cases isChecked
        cases captured
      · cases isNone
    · intro other stage found captured
      dsimp only at found
      rcases update_eq_some found with ⟨_, isChecked⟩ | ⟨_, found⟩
      · cases isChecked
        cases captured
      · rcases update_eq_some found with ⟨_, isSleeping⟩ | ⟨isOther, found⟩
        · cases isSleeping
          exact absurd captured (by decide)
        · rw [update_of_ne isOther, update_of_ne isOther] at found
          cases found
  have run := run_of_permitted repeatedPause permitted replayed
  exact ⟨finish, run, endings, gateHeld run⟩

/-- The thread of the failsafe cannot be started. -/
def noThread : List Label := [.pauseProducer, .lock 0, .spawn 0 false]

/-- The gate stays closed, and only a resume can open it. -/
theorem not_gateHeld : ¬GateHeld fun _ _ => True := by
  intro held
  obtain ⟨finish, replayed, isPaused, isHere, none⟩ :
      ∃ finish, execute step initial noThread = some finish ∧
        finish.producer.paused = true ∧ finish.dropped = false ∧
        finish.calls = update (update (update (fun _ => none) 0
          (some .checked)) 0 (some (.spawning 1))) 0 none := ⟨_, rfl, rfl, rfl, rfl⟩
  obtain ⟨id, stage, found, _⟩ :=
    (held finish (reachable_of_execute noThread replayed)).armed isPaused isHere
  rw [none] at found
  rcases update_eq_some found with ⟨_, isNone⟩ | ⟨isOther, found⟩
  · cases isNone
  · rw [update_of_ne isOther, update_of_ne isOther] at found
    cases found

end AiTools.Daemon.PauseGate
