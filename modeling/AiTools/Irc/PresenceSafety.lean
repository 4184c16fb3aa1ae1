import AiTools.Irc.Presence
import AiTools.Lib.Transition
import Mathlib.Tactic.SplitIfs

/-!
Contract: who holds a peer name over every interleaving of joins, quits, daemons and cleanups.
-/

namespace AiTools.Irc.Presence

open AiTools.Lib.Transition
open Function (update_of_ne update_self)

/-- Before the first operation of `Register` or `ListPeers`. -/
def Stage.waits : Stage → Bool
  | .register _ => true
  | .listPeers => true
  | _ => false

/-- Between the first and the last operation of `Register`. -/
def Stage.enters : Stage → Bool
  | .staleSocket _ => true
  | .stalePid _ => true
  | .enter _ => true
  | _ => false

/-- From the entry in the registry to the pid record. -/
def Stage.spawns : Stage → Bool
  | .spawn _ => true
  | .writePid _ => true
  | _ => false

/-- No daemon of the name runs, and no other command is under way. -/
structure System.Quiet (sys : System) (thread : Nat) : Prop where
  daemons : ∀ daemon, sys.daemons daemon = none
  others : ∀ other state, other ≠ thread → sys.threads other = some state →
    state.stage.waits = true

/-- A `Register` that gets no answer from the holder of the name comes when all other commands
and daemons are done. A listing of the peers does not come between the entry of a holder and its
pid record. A `quit` is of the holder, and does not come during a `Register`. -/
def Clean (sys : System) : Label → Prop
  | .advance thread given =>
    match sys.threads thread with
    | some ⟨_, .register _⟩ =>
      (sys.disk.entry ≠ none ∧ sys.answers given = true) ∨ sys.Quiet thread
    | some ⟨_, .listPeers⟩ =>
      ∀ holder ∈ sys.holders, ∀ other, sys.threads holder.join = some other →
        other.stage.spawns = false
    | _ => True
  | .quit marker =>
    (∀ holder ∈ sys.holders, holder.join = marker.daemonPid) ∧ sys.lock = none
  | _ => True

/-- A daemon that has not stopped to listen. -/
def DaemonStage.serves : DaemonStage → Bool
  | .clear => true
  | .bind => true
  | .listen => true
  | _ => false

/-- One join is inside `Register`. -/
structure Entering (sys : System) (thread : Nat) : Prop where
  free : sys.holders = []
  locked : sys.lock = some thread
  self : ∃ stage, sys.threads thread = some ⟨some thread, stage⟩ ∧ stage.enters = true
  quiet : sys.Quiet thread

/-- The daemon of the join runs and its pid is on record. -/
def Settled (sys : System) (join : Nat) : Prop :=
  (∃ state, sys.daemons join = some state ∧ state.stage.serves = true) ∧
    sys.disk.pidFile = some join

/-- How far the join of a holder is. -/
inductive Progress (sys : System) (join : Nat) : Prop where
  | spawn (session : Nat) (self : sys.threads join = some ⟨some join, .spawn session⟩)
      (noDaemon : sys.daemons join = none)
  | writePid (session : Nat) (self : sys.threads join = some ⟨some join, .writePid session⟩)
      (daemon : ∃ state, sys.daemons join = some state ∧ state.stage.serves = true)
  | settled (settled : Settled sys join)

/-- Where the holder's own join can be, and where the other commands. -/
def Stage.Beside (sys : System) (join : Nat) : Stage → Prop
  | .register _ => True
  | .listPeers => True
  | .listOrphans => True
  | .probe _ => Settled sys join
  | .guard _ => Settled sys join
  | .readPid => Settled sys join
  | .checkAlive pid => Settled sys join ∧ pid = join
  | _ => False

def Stage.Own : Stage → Prop
  | .spawn _ => True
  | .writePid _ => True
  | .setDaemonPid _ => True
  | .writeMarker _ => True
  | _ => False

/-- One join holds the name. -/
structure Tenure (sys : System) (join : Nat) : Prop where
  held : sys.holders ≠ []
  only : ∃ session, ∀ holder ∈ sys.holders, holder = ⟨join, session⟩
  entry : sys.disk.entry ≠ none
  daemons : ∀ daemon, daemon ≠ join → sys.daemons daemon = none
  progress : Progress sys join
  older : join < sys.next
  own : ∀ state, sys.threads join = some state → state.actor = some join ∧ state.stage.Own
  beside : ∀ other state, other ≠ join → sys.threads other = some state →
    state.stage.Beside sys join

structure Free (sys : System) : Prop where
  noHolder : sys.holders = []
  noEntering : ∀ thread state, sys.threads thread = some state → state.stage.enters = false

inductive Phase (sys : System) : Prop where
  | free (free : Free sys)
  | entering (thread : Nat) (entering : Entering sys thread)
  | held (join : Nat) (tenure : Tenure sys join)

/-- Threads have their numbers from the counter, and a join acts for itself. -/
structure Numbered (sys : System) : Prop where
  older : ∀ thread state, sys.threads thread = some state → thread < sys.next
  actor : ∀ thread actor session,
    sys.threads thread = some ⟨actor, .register session⟩ → actor = some thread

structure Sound (sys : System) : Prop where
  untouched : sys.hits = []
  numbered : Numbered sys
  phase : Phase sys

def Stage.joins : Stage → Bool
  | .register _ => true
  | stage => stage.enters

/-- The thread has moved on, or has come to its end. -/
structure Moved (sys next : System) (thread : Nat) (found : Option Thread) : Prop where
  threads : next.threads = Function.update sys.threads thread found
  next : next.next = sys.next

theorem Numbered.moved {sys next : System} {thread : Nat} {found : Option Thread}
    (numbered : Numbered sys) (moved : Moved sys next thread found)
    (isOlder : thread < sys.next)
    (notRegister : ∀ actor session, found ≠ some ⟨actor, .register session⟩) : Numbered next where
  older other state isOther := by
    rw [moved.threads] at isOther
    rw [moved.next]
    rcases update_eq_some isOther with ⟨rfl, _⟩ | ⟨_, wasOther⟩
    · exact isOlder
    · exact numbered.older other state wasOther
  actor other actor session isOther := by
    rw [moved.threads] at isOther
    rcases update_eq_some isOther with ⟨_, isFound⟩ | ⟨_, wasOther⟩
    · exact absurd isFound (notRegister actor session)
    · exact numbered.actor other actor session wasOther

theorem Numbered.start {sys : System} {actor : Option Nat} {stage : Stage}
    (numbered : Numbered sys)
    (own : ∀ session, stage = .register session → actor = some sys.next) :
    Numbered (sys.start actor stage) where
  older other state isOther := by
    rcases update_eq_some isOther with ⟨rfl, _⟩ | ⟨_, wasOther⟩
    · exact Nat.lt_succ_self _
    · exact Nat.lt_succ_of_lt (numbered.older other state wasOther)
  actor other found session isOther := by
    rcases update_eq_some isOther with ⟨rfl, isFound⟩ | ⟨_, wasOther⟩
    · cases isFound
      exact own session rfl
    · exact numbered.actor other found session wasOther

namespace System

variable {sys : System} {actor owner : Option Nat} {thread join pid : Nat}

theorem struck_free (noHolder : sys.holders = []) : sys.struck actor owner = [] := by
  simp [struck, noHolder]

variable {session : Nat}

theorem struck_own (only : ∀ holder ∈ sys.holders, holder = ⟨join, session⟩) :
    sys.struck (some join) owner = [] := by
  refine List.filter_eq_nil_iff.mpr fun found _ isStruck => ?_
  obtain ⟨isHolder, isOther⟩ := Bool.and_eq_true_iff.mp isStruck
  obtain ⟨holder, isHolder, sameJoin⟩ := List.any_eq_true.mp isHolder
  have isJoin : join = found :=
    (congrArg Holder.join (only holder isHolder)).symm.trans (of_decide_eq_true sameJoin)
  exact of_decide_eq_true isOther (congrArg some isJoin)

/-- Nothing of a holder is removed, as nobody holds the name. -/
structure Spares (sys next : System) : Prop where
  noHolder : next.holders = []
  hits : next.hits = sys.hits

theorem spares_removeSocket (noHolder : sys.holders = []) :
    Spares sys (sys.removeSocket actor) :=
  ⟨noHolder, by rw [removeSocket, struck_free noHolder, List.nil_append]⟩

theorem spares_removePid (noHolder : sys.holders = []) :
    Spares sys (sys.removePid actor) :=
  ⟨noHolder, by rw [removePid, struck_free noHolder, List.nil_append]⟩

theorem spares_removeMarker (noHolder : sys.holders = []) :
    Spares sys (sys.removeMarker actor pid) :=
  ⟨noHolder, by simp [removeMarker, struck_free noHolder]⟩

theorem spares_removeEntry (noHolder : sys.holders = []) :
    Spares sys (sys.removeEntry actor) :=
  ⟨noHolder, by rw [removeEntry, struck_free noHolder, List.nil_append]⟩

theorem spares_removeInbox (noHolder : sys.holders = []) :
    Spares sys (sys.removeInbox actor) :=
  ⟨noHolder, by simp [removeInbox, noHolder]⟩

theorem spares_leave (noHolder : sys.holders = []) :
    Spares sys (sys.leave join) :=
  ⟨by rw [leave, noHolder, List.filter_nil], rfl⟩

theorem spares_signal (noHolder : sys.holders = []) :
    Spares sys (sys.signal actor pid) := by
  have noStruck : sys.struck actor (some pid) = [] := struck_free noHolder
  unfold signal
  split
  · exact ⟨noHolder, rfl⟩
  all_goals exact ⟨by simp [leave, setDaemon, noHolder], by simp [leave, setDaemon, noStruck]⟩

/-! ## Steps outside `Register` -/

/-- What a step of a thread does that is not in `Register`. -/
structure Steady (sys next : System) (thread : Nat) : Prop where
  moved : ∃ found, Moved sys next thread found ∧
    ∀ state, found = some state → state.stage.joins = false
  spares : sys.holders = [] → Spares sys next

variable {next changed : System} {stage : Stage}

theorem Spares.refl (noHolder : sys.holders = []) : Spares sys sys :=
  ⟨noHolder, rfl⟩

theorem Steady.goto (threads : changed.threads = sys.threads)
    (number : changed.next = sys.next)
    (spares : sys.holders = [] → Spares sys changed) (noJoin : stage.joins = false) :
    Steady sys (changed.goto thread actor stage) thread where
  moved := by
    refine ⟨some ⟨actor, stage⟩, ⟨by rw [← threads]; rfl, number⟩, fun state isState => ?_⟩
    cases isState
    exact noJoin
  spares noHolder := ⟨(spares noHolder).noHolder, (spares noHolder).hits⟩

theorem Steady.finish (threads : changed.threads = sys.threads)
    (number : changed.next = sys.next)
    (spares : sys.holders = [] → Spares sys changed) :
    Steady sys (changed.finish thread) thread where
  moved := ⟨none, ⟨by rw [← threads]; rfl, number⟩, fun _ isState => by cases isState⟩
  spares noHolder := ⟨(spares noHolder).noHolder, (spares noHolder).hits⟩

theorem signal_threads : (sys.signal actor pid).threads = sys.threads ∧
      (sys.signal actor pid).next = sys.next := by
  unfold signal
  split
  all_goals exact ⟨rfl, rfl⟩

theorem steady_stay (noJoin : stage.joins = false) :
    Steady sys (sys.goto thread actor stage) thread :=
  .goto rfl rfl Spares.refl noJoin

variable {given : Given}

theorem advance_steady (noJoin : stage.joins = false)
    (went : sys.advance thread actor given stage = some next) : Steady sys next thread := by
  cases stage with
  | register session | staleSocket session | stalePid session | enter session => cases noJoin
  | spawn session =>
    simp only [advance] at went
    split_ifs at went
    · cases went
      exact .goto rfl rfl (fun noHolder => ⟨noHolder, rfl⟩) rfl
    · cases went
      exact .goto rfl rfl spares_leave rfl
  | writePid session =>
    simp only [advance] at went
    split_ifs at went
    · cases went
      exact .goto rfl rfl (fun noHolder => ⟨noHolder, rfl⟩) rfl
    · cases went
      exact .goto rfl rfl (fun noHolder => ⟨(spares_leave noHolder).noHolder, rfl⟩) rfl
  | setDaemonPid session =>
    simp only [advance] at went
    split_ifs at went
    cases went
    exact .goto rfl rfl (fun noHolder => ⟨noHolder, rfl⟩) rfl
  | writeMarker session =>
    simp only [advance] at went
    split_ifs at went
    · cases went
      exact .finish rfl rfl fun noHolder => ⟨noHolder, rfl⟩
    · cases went
      exact .goto rfl rfl spares_leave rfl
  | killRead purpose | readPid =>
    simp only [advance] at went
    split at went
    all_goals
      cases went
      exact steady_stay rfl
  | killSignal pid purpose =>
    cases went
    exact .goto signal_threads.1 signal_threads.2 spares_signal rfl
  | killPid purpose | dropPid =>
    cases went
    exact .goto rfl rfl spares_removePid rfl
  | killSocket purpose =>
    cases went
    cases purpose with
    | quit => exact .goto rfl rfl spares_removeSocket rfl
    | _ => exact .goto rfl rfl spares_removeSocket rfl
  | listPeers =>
    simp only [advance] at went
    split_ifs at went
    split at went
    all_goals
      cases went
      exact steady_stay rfl
  | probe daemonPid | guard daemonPid | statSocket | checkAlive pid =>
    simp only [advance] at went
    split_ifs at went
    all_goals
      cases went
      exact steady_stay rfl
  | dropSocket =>
    cases went
    exact .goto rfl rfl spares_removeSocket rfl
  | listMarkers purpose =>
    cases went
    exact steady_stay rfl
  | dropMarkers left purpose =>
    cases left with
    | nil =>
      cases went
      cases purpose with
      | stale => exact steady_stay rfl
      | _ => exact steady_stay rfl
    | cons daemonPid left =>
      cases went
      exact .goto rfl rfl spares_removeMarker rfl
  | dropInbox =>
    cases went
    exact .goto rfl rfl spares_removeInbox rfl
  | unregister purpose =>
    simp only [advance] at went
    split_ifs at went
    split at went
    · cases went
      exact .goto rfl rfl spares_removeEntry rfl
    · cases went
      exact .finish rfl rfl spares_removeEntry
  | listOrphans =>
    simp only [advance] at went
    split_ifs at went
    · cases went
      exact steady_stay rfl
    · cases went
      exact .finish rfl rfl Spares.refl
  | dropOrphan =>
    cases went
    exact .finish rfl rfl spares_removeInbox

theorem runDaemon_spares {daemon : Nat} {stage : DaemonStage} (noHolder : sys.holders = [])
    (ran : sys.runDaemon daemon given session stage = some next) : Spares sys next := by
  have left : (sys.leave daemon).holders = [] := (spares_leave noHolder).noHolder
  cases stage with
  | clear =>
    simp only [runDaemon] at ran
    split_ifs at ran
    · cases ran
      exact ⟨noHolder, (spares_removeSocket noHolder).hits⟩
    · cases ran
      exact ⟨left, rfl⟩
  | bind =>
    simp only [runDaemon] at ran
    split_ifs at ran
    · cases ran
      exact ⟨noHolder, rfl⟩
    · cases ran
      exact ⟨left, rfl⟩
  | listen =>
    simp only [runDaemon] at ran
    split_ifs at ran
    cases ran
    exact ⟨left, rfl⟩
  | unlink | removeSocket =>
    cases ran
    exact ⟨noHolder, (spares_removeSocket noHolder).hits⟩
  | removePid =>
    cases ran
    exact ⟨noHolder, (spares_removePid noHolder).hits⟩

theorem runDaemon_threads {daemon : Nat} {stage : DaemonStage}
    (ran : sys.runDaemon daemon given session stage = some next) :
    next.threads = sys.threads ∧ next.next = sys.next := by
  cases stage with
  | clear | bind =>
    simp only [runDaemon] at ran
    split_ifs at ran
    all_goals
      cases ran
      exact ⟨rfl, rfl⟩
  | listen =>
    simp only [runDaemon] at ran
    split_ifs at ran
    cases ran
    exact ⟨rfl, rfl⟩
  | _ =>
    cases ran
    exact ⟨rfl, rfl⟩

end System

section
variable {sys next : System} {thread : Nat} {given : Given} {stage : Stage}

theorem Stage.enters_of_joins (noJoin : stage.joins = false) : stage.enters = false := by
  cases stage with
  | register session => cases noJoin
  | _ => exact noJoin

theorem Stage.enters_of_waits (waits : stage.waits = true) : stage.enters = false := by
  cases stage with
  | register session | listPeers => rfl
  | _ => cases waits

theorem System.Steady.numbered (steady : sys.Steady next thread) (numbered : Numbered sys)
    (isOlder : thread < sys.next) : Numbered next := by
  obtain ⟨found, moved, noJoin⟩ := steady.moved
  refine numbered.moved moved isOlder fun actor session isFound => ?_
  cases noJoin _ isFound

theorem Free.steady (free : Free sys) (steady : sys.Steady next thread) : Free next where
  noHolder := (steady.spares free.noHolder).noHolder
  noEntering other state isOther := by
    obtain ⟨found, moved, noJoin⟩ := steady.moved
    rw [moved.threads] at isOther
    rcases update_eq_some isOther with ⟨rfl, isFound⟩ | ⟨_, wasOther⟩
    · exact Stage.enters_of_joins (noJoin state isFound)
    · exact free.noEntering other state wasOther

theorem System.Quiet.update {found : Option Thread} (quiet : sys.Quiet thread)
    (daemons : next.daemons = sys.daemons)
    (threads : next.threads = Function.update sys.threads thread found) :
    next.Quiet thread where
  daemons daemon := daemons ▸ quiet.daemons daemon
  others other state isOther found := by
    rw [threads, update_of_ne isOther] at found
    exact quiet.others other state isOther found

/-- What a step of a thread leaves, when no other thread gets to `Register` by it. -/
def Leaves (sys next : System) (thread : Nat) : Prop :=
  Phase next ∧ next.hits = sys.hits ∧ ∃ found, Moved sys next thread found ∧
      ∀ actor session, found ≠ some ⟨actor, .register session⟩

variable {session : Nat}

theorem register_step (free : Free sys)
    (clean : (sys.disk.entry ≠ none ∧ sys.answers given = true) ∨ sys.Quiet thread)
    (went : sys.advance thread (some thread) given (.register session) = some next) :
    Leaves sys next thread := by
  simp only [System.advance] at went
  split_ifs at went with isLocked noEntry answers
  · cases went
    have quiet := clean.resolve_left fun ⟨isEntry, _⟩ => isEntry noEntry
    exact ⟨.entering thread ⟨free.noHolder, rfl, ⟨_, update_self .., rfl⟩,
      quiet.update rfl rfl⟩, rfl, _, ⟨rfl, rfl⟩, nofun⟩
  · cases went
    refine ⟨.free ⟨free.noHolder, fun other state isOther => ?_⟩, rfl, none, ⟨rfl, rfl⟩,
      nofun⟩
    rcases update_eq_some isOther with ⟨_, isFound⟩ | ⟨_, wasOther⟩
    · cases isFound
    · exact free.noEntering other state wasOther
  · cases went
    have quiet := clean.resolve_left fun ⟨_, isAnswered⟩ => answers isAnswered
    exact ⟨.entering thread ⟨free.noHolder, rfl, ⟨_, update_self .., rfl⟩,
      quiet.update rfl rfl⟩, rfl, _, ⟨rfl, rfl⟩, nofun⟩

theorem Entering.blocks {other : Nat} {actor : Option Nat}
    (entering : Entering sys thread) (isOther : other ≠ thread)
    (found : sys.threads other = some ⟨actor, stage⟩) :
    sys.advance other actor given stage = none := by
  have waits := entering.quiet.others other _ isOther found
  have isLocked : sys.lock ≠ none := by simp [entering.locked]
  cases stage with
  | register session | listPeers => exact if_pos isLocked
  | _ => cases waits

theorem Stage.beside_of_waits {join : Nat} (waits : stage.waits = true) :
    stage.Beside sys join := by
  cases stage with
  | register session | listPeers => trivial
  | _ => cases waits

theorem Entering.held (entering : Entering sys thread) (isOlder : thread < sys.next) :
    Tenure ({ sys with
      disk := { sys.disk with entry := some ⟨session, none, thread⟩ }
      lock := none
      holders := ⟨thread, session⟩ :: sys.holders }.goto thread (some thread)
        (.spawn session)) thread where
  held isNil := by cases isNil
  only := by
    refine ⟨session, fun holder isHolder => ?_⟩
    have isOnly : holder ∈ [⟨thread, session⟩] := entering.free ▸ isHolder
    exact List.mem_singleton.mp isOnly
  entry := Option.some_ne_none _
  daemons daemon _ := entering.quiet.daemons daemon
  progress := .spawn session (update_self ..) (entering.quiet.daemons thread)
  older := isOlder
  own state isOwn := by
    rcases update_eq_some isOwn with ⟨_, isFound⟩ | ⟨isOther, _⟩
    · cases isFound
      exact ⟨rfl, trivial⟩
    · exact absurd rfl isOther
  beside other state isOther found := by
    rcases update_eq_some found with ⟨same, _⟩ | ⟨_, wasOther⟩
    · exact absurd same isOther
    · exact Stage.beside_of_waits (entering.quiet.others other state isOther wasOther)

theorem entering_step (entering : Entering sys thread)
    (enters : stage.enters = true) (isOlder : thread < sys.next)
    (went : sys.advance thread (some thread) given stage = some next) :
    Leaves sys next thread := by
  cases stage with
  | staleSocket session =>
    cases went
    refine ⟨.entering thread ⟨entering.free, entering.locked, ⟨_, update_self .., rfl⟩,
      entering.quiet.update rfl rfl⟩, (System.spares_removeSocket entering.free).hits,
      _, ⟨rfl, rfl⟩, nofun⟩
  | stalePid session =>
    cases went
    refine ⟨.entering thread ⟨entering.free, entering.locked, ⟨_, update_self .., rfl⟩,
      entering.quiet.update rfl rfl⟩, (System.spares_removePid entering.free).hits,
      _, ⟨rfl, rfl⟩, nofun⟩
  | enter session =>
    simp only [System.advance] at went
    split_ifs at went
    · cases went
      exact ⟨.held thread (entering.held isOlder), rfl, _, ⟨rfl, rfl⟩,
        nofun⟩
    · cases went
      refine ⟨.free ⟨entering.free, fun other state isOther => ?_⟩, rfl, _, ⟨rfl, rfl⟩,
        nofun⟩
      rcases update_eq_some isOther with ⟨_, isFound⟩ | ⟨isOther, wasOther⟩
      · cases isFound
      · have waits := entering.quiet.others other state isOther wasOther
        exact Stage.enters_of_waits waits
  | _ => cases enters

end

/-! ## One join holds the name -/

section
variable {sys next : System} {join thread : Nat} {given : Given} {stage : Stage}

theorem Stage.Own.enters (own : stage.Own) : stage.enters = false := by
  cases stage with
  | staleSocket session | stalePid session | enter session => exact own.elim
  | _ => rfl

theorem Stage.Beside.enters (beside : stage.Beside sys join) : stage.enters = false := by
  cases stage with
  | staleSocket session | stalePid session | enter session => exact beside.elim
  | _ => rfl

theorem Stage.Beside.mono (settled : Settled sys join → Settled next join)
    (beside : stage.Beside sys join) : stage.Beside next join := by
  cases stage with
  | register session | listPeers | listOrphans => trivial
  | probe daemonPid | guard daemonPid | readPid => exact settled beside
  | checkAlive pid => exact ⟨settled beside.1, beside.2⟩
  | _ => exact beside.elim

theorem Tenure.noEntering (tenure : Tenure sys join) (other : Nat) (state : Thread)
    (found : sys.threads other = some state) : state.stage.enters = false := by
  by_cases same : other = join
  · exact (tenure.own state (same ▸ found)).2.enters
  · exact (tenure.beside other state same found).enters

theorem Tenure.free (tenure : Tenure sys join) (noHolder : next.holders = [])
    (threads : ∀ other state, next.threads other = some state →
      sys.threads other = some state ∨ state.stage.enters = false) : Free next where
  noHolder := noHolder
  noEntering other state found :=
    (threads other state found).elim (tenure.noEntering other state) id

theorem Tenure.stay (tenure : Tenure sys join)
    (holders : next.holders = sys.holders)
    (entry : next.disk.entry ≠ none) (number : sys.next ≤ next.next)
    (daemons : ∀ daemon, daemon ≠ join → next.daemons daemon = none)
    (progress : Progress next join) (settled : Settled sys join → Settled next join)
    (own : ∀ state, next.threads join = some state →
      sys.threads join = some state ∨ state.actor = some join ∧ state.stage.Own)
    (beside : ∀ other state, other ≠ join → next.threads other = some state →
      sys.threads other = some state ∨ state.stage.Beside next join) : Tenure next join where
  held := holders ▸ tenure.held
  only := holders ▸ tenure.only
  entry := entry
  daemons := daemons
  progress := progress
  older := Nat.lt_of_lt_of_le tenure.older number
  own state isOwn := (own state isOwn).elim (tenure.own state) id
  beside other state isOther found :=
    (beside other state isOther found).elim
      (fun wasOther => (tenure.beside other state isOther wasOther).mono settled) id

variable {found : Option Thread}

theorem Progress.other (progress : Progress sys join) (isOther : thread ≠ join) :
    Progress { sys with threads := Function.update sys.threads thread found } join := by
  have same : Function.update sys.threads thread found join = sys.threads join :=
    update_of_ne isOther.symm ..
  cases progress with
  | spawn session self noDaemon => exact .spawn session (same.trans self) noDaemon
  | writePid session self daemon => exact .writePid session (same.trans self) daemon
  | settled settled => exact .settled settled

theorem Tenure.other (tenure : Tenure sys join) (isOther : thread ≠ join)
    (beside : ∀ state, found = some state → state.stage.Beside sys join) :
    Tenure { sys with threads := Function.update sys.threads thread found } join := by
  refine tenure.stay rfl tenure.entry (Nat.le_refl _) tenure.daemons
    (tenure.progress.other isOther) id (fun state isOwn => ?_) fun other state _ isFound => ?_
  · rcases update_eq_some isOwn with ⟨same, _⟩ | ⟨_, wasOwn⟩
    · exact absurd same.symm isOther
    · exact .inl wasOwn
  · rcases update_eq_some isFound with ⟨_, isState⟩ | ⟨_, wasOther⟩
    · exact .inr (beside state isState)
    · exact .inl wasOther

theorem Tenure.notQuiet (tenure : Tenure sys join) (isOther : thread ≠ join) :
    ¬ sys.Quiet thread := by
  intro quiet
  cases tenure.progress with
  | spawn session self _ | writePid session self _ => cases quiet.others join _ isOther.symm self
  | settled settled =>
    obtain ⟨⟨state, runs, _⟩, _⟩ := settled
    exact absurd ((quiet.daemons join).symm.trans runs) nofun

variable {actor : Option Nat}

theorem Tenure.goto_other (tenure : Tenure sys join)
    (isOther : thread ≠ join) (beside : stage.Beside sys join) :
    Tenure (sys.goto thread actor stage) join :=
  tenure.other isOther fun state isState => by
    cases isState
    exact beside

theorem Tenure.finish_other (tenure : Tenure sys join) (isOther : thread ≠ join) :
    Tenure (sys.finish thread) join :=
  tenure.other isOther fun state isState => by cases isState

theorem Tenure.holder (tenure : Tenure sys join) :
    ∃ session, (⟨join, session⟩ : Holder) ∈ sys.holders := by
  obtain ⟨holder, isHolder⟩ := List.exists_mem_of_ne_nil _ tenure.held
  obtain ⟨session, only⟩ := tenure.only
  exact ⟨session, only holder isHolder ▸ isHolder⟩

theorem Tenure.leave_nil (tenure : Tenure sys join) : (sys.leave join).holders = [] := by
  obtain ⟨session, only⟩ := tenure.only
  refine List.filter_eq_nil_iff.mpr fun holder isHolder stays => ?_
  exact of_decide_eq_true stays (congrArg Holder.join (only holder isHolder))

theorem Tenure.struck_nil (tenure : Tenure sys join) (owner : Option Nat) :
    sys.struck (some join) owner = [] := by
  obtain ⟨session, only⟩ := tenure.only
  exact System.struck_own only

theorem Tenure.settled (tenure : Tenure sys join)
    (spawned : ∀ state, sys.threads join = some state → state.stage.spawns = false) :
    Settled sys join := by
  cases tenure.progress with
  | spawn session self _ | writePid session self _ => cases spawned _ self
  | settled settled => exact settled

theorem other_step (tenure : Tenure sys join)
    (isOther : thread ≠ join) (found : sys.threads thread = some ⟨actor, stage⟩)
    (clean : Clean sys (.advance thread given))
    (went : sys.advance thread actor given stage = some next) : Leaves sys next thread := by
  have moved : ∀ {actor stage}, stage.joins = false →
      ∃ found, Moved sys (sys.goto thread actor stage) thread found ∧
        ∀ actor session, found ≠ some ⟨actor, .register session⟩ := fun noJoin =>
    ⟨_, ⟨rfl, rfl⟩, fun _ _ isRegister => by cases isRegister; cases noJoin⟩
  have ended : ∃ found, Moved sys (sys.finish thread) thread found ∧
      ∀ actor session, found ≠ some ⟨actor, .register session⟩ :=
    ⟨_, ⟨rfl, rfl⟩, nofun⟩
  have beside := tenure.beside thread _ isOther found
  simp only [Clean, found] at clean
  cases stage with
  | register session =>
    obtain ⟨isEntry, answers⟩ := clean.resolve_right (tenure.notQuiet isOther)
    simp only [System.advance, if_neg isEntry, if_pos answers] at went
    split_ifs at went
    cases went
    exact ⟨.held join (tenure.finish_other isOther), rfl, ended⟩
  | listPeers =>
    obtain ⟨session, isHolder⟩ := tenure.holder
    have settled := tenure.settled (clean _ isHolder)
    simp only [System.advance] at went
    split_ifs at went
    split at went
    · rename_i noEntry
      exact absurd noEntry tenure.entry
    · cases went
      exact ⟨.held join (tenure.goto_other isOther settled), rfl, moved rfl⟩
  | probe daemonPid | guard daemonPid =>
    simp only [System.advance] at went
    split_ifs at went
    · cases went
      exact ⟨.held join (tenure.goto_other isOther trivial), rfl, moved rfl⟩
    · cases went
      exact ⟨.held join (tenure.goto_other isOther beside), rfl, moved rfl⟩
  | readPid =>
    simp only [System.advance, beside.2] at went
    cases went
    exact ⟨.held join (tenure.goto_other isOther ⟨beside, rfl⟩), rfl, moved rfl⟩
  | checkAlive pid =>
    obtain ⟨⟨⟨state, runs, _⟩, _⟩, rfl⟩ := beside
    have isAlive : sys.isAlive given pid = true := by simp [System.isAlive, runs]
    simp only [System.advance, if_pos isAlive] at went
    cases went
    exact ⟨.held pid (tenure.goto_other isOther trivial), rfl, moved rfl⟩
  | listOrphans =>
    simp only [System.advance, if_neg tenure.entry] at went
    split_ifs at went
    cases went
    exact ⟨.held join (tenure.finish_other isOther), rfl, ended⟩
  | _ => exact beside.elim

theorem Tenure.ownStay {changed : Option Thread} (tenure : Tenure sys join)
    (moved : Moved sys next join changed) (holders : next.holders = sys.holders)
    (entry : next.disk.entry ≠ none)
    (daemons : ∀ daemon, daemon ≠ join → next.daemons daemon = none)
    (progress : Progress next join) (settled : Settled sys join → Settled next join)
    (own : ∀ state, changed = some state → state.actor = some join ∧ state.stage.Own) :
    Tenure next join := by
  refine tenure.stay holders entry (Nat.le_of_eq moved.next.symm) daemons progress settled
    (fun state isOwn => ?_) fun other state isOther found => ?_
  · rw [moved.threads] at isOwn
    rcases update_eq_some isOwn with ⟨_, isChanged⟩ | ⟨isOther, _⟩
    · exact .inr (own state isChanged)
    · exact absurd rfl isOther
  · rw [moved.threads] at found
    rcases update_eq_some found with ⟨same, _⟩ | ⟨_, wasOther⟩
    · exact absurd same isOther
    · exact .inl wasOther

theorem Tenure.ownLeave (tenure : Tenure sys join)
    (threads : next.threads = Function.update sys.threads join (some ⟨actor, stage⟩))
    (noHolder : next.holders = []) (noEntering : stage.enters = false) : Free next := by
  refine tenure.free noHolder fun other state isOther => ?_
  rw [threads] at isOther
  rcases update_eq_some isOther with ⟨_, isState⟩ | ⟨_, wasOther⟩
  · cases isState
    exact .inr noEntering
  · exact .inl wasOther

theorem own_step (tenure : Tenure sys join) (found : sys.threads join = some ⟨some join, stage⟩)
    (went : sys.advance join (some join) given stage = some next) :
    Phase next ∧ next.hits = sys.hits := by
  have own := (tenure.own _ found).2
  cases stage with
  | spawn session =>
    simp only [System.advance] at went
    split_ifs at went
    · cases went
      have runs : ∃ state, Function.update sys.daemons join (some ⟨session, .clear⟩) join =
          some state ∧ state.stage.serves = true :=
        ⟨_, update_self .., rfl⟩
      refine ⟨.held join (tenure.ownStay ⟨rfl, rfl⟩ rfl tenure.entry (fun daemon isOther => ?_)
        (.writePid session (update_self ..) runs) (fun settled => ⟨runs, settled.2⟩)
        fun state isState => ?_), rfl⟩
      · exact (update_of_ne isOther ..).trans (tenure.daemons daemon isOther)
      · cases isState
        exact ⟨rfl, trivial⟩
    · cases went
      exact ⟨.free (tenure.ownLeave rfl tenure.leave_nil rfl), rfl⟩
  | writePid session =>
    have runs : ∃ state, sys.daemons join = some state ∧ state.stage.serves = true := by
      cases tenure.progress with
      | spawn _ self _ => cases found.symm.trans self
      | writePid _ _ daemon => exact daemon
      | settled settled => exact settled.1
    simp only [System.advance] at went
    split_ifs at went
    · cases went
      refine ⟨.held join (tenure.ownStay ⟨rfl, rfl⟩ rfl tenure.entry tenure.daemons
        (.settled ⟨runs, rfl⟩) (fun _ => ⟨runs, rfl⟩) fun state isState => ?_), rfl⟩
      cases isState
      exact ⟨rfl, trivial⟩
    · cases went
      exact ⟨.free (tenure.ownLeave rfl tenure.leave_nil rfl), rfl⟩
  | setDaemonPid session =>
    have settled : Settled sys join := tenure.settled fun state isState => by
      cases found.symm.trans isState
      rfl
    simp only [System.advance] at went
    split_ifs at went
    cases went
    refine ⟨.held join (tenure.ownStay ⟨rfl, rfl⟩ rfl (fun isNone => ?_) tenure.daemons
      (.settled settled) (fun _ => settled) fun state isState => ?_), rfl⟩
    · exact tenure.entry (Option.map_eq_none_iff.mp isNone)
    · cases isState
      exact ⟨rfl, trivial⟩
  | writeMarker session =>
    have settled : Settled sys join := tenure.settled fun state isState => by
      cases found.symm.trans isState
      rfl
    simp only [System.advance] at went
    split_ifs at went
    · cases went
      exact ⟨.held join (tenure.ownStay ⟨rfl, rfl⟩ rfl tenure.entry tenure.daemons
        (.settled settled) (fun _ => settled) nofun), rfl⟩
    · cases went
      exact ⟨.free (tenure.ownLeave rfl tenure.leave_nil rfl), rfl⟩
  | _ => exact own.elim

theorem Tenure.runs_own {daemon : Nat} {state : Daemon} (tenure : Tenure sys join)
    (found : sys.daemons daemon = some state) : daemon = join := by
  by_contra isOther
  exact absurd ((tenure.daemons daemon isOther).symm.trans found) nofun

theorem daemon_step {session : Nat} {stage : DaemonStage} (tenure : Tenure sys join)
    (found : sys.daemons join = some ⟨session, stage⟩)
    (ran : sys.runDaemon join given session stage = some next) :
    Phase next ∧ next.hits = sys.hits := by
  obtain ⟨threads, number⟩ := System.runDaemon_threads ran
  have left (noHolder : next.holders = []) : Phase next :=
    .free (tenure.free noHolder fun other state isOther => .inl (threads ▸ isOther))
  have isServing : stage.serves = true := by
    cases tenure.progress with
    | spawn _ _ noDaemon => cases found.symm.trans noDaemon
    | writePid _ _ daemon =>
      obtain ⟨state, runs, serves⟩ := daemon
      cases found.symm.trans runs
      exact serves
    | settled settled =>
      obtain ⟨⟨state, runs, serves⟩, _⟩ := settled
      cases found.symm.trans runs
      exact serves
  have serves {later : DaemonStage} (isLater : later.serves = true)
      (holders : next.holders = sys.holders) (entry : next.disk.entry ≠ none)
      (pidFile : next.disk.pidFile = sys.disk.pidFile)
      (daemons : next.daemons = Function.update sys.daemons join (some ⟨session, later⟩)) :
      Phase next := by
    have runs : ∃ state, next.daemons join = some state ∧ state.stage.serves = true :=
      ⟨⟨session, later⟩, by rw [daemons, update_self], isLater⟩
    refine .held join (tenure.stay holders entry (Nat.le_of_eq number.symm)
      (fun daemon isOther => ?_) ?_ (fun settled => ⟨runs, pidFile.trans settled.2⟩)
      (fun state isOwn => .inl (threads ▸ isOwn))
      fun other state _ isOther => .inl (threads ▸ isOther))
    · rw [daemons, update_of_ne isOther]
      exact tenure.daemons daemon isOther
    · cases tenure.progress with
      | spawn _ _ noDaemon => cases found.symm.trans noDaemon
      | writePid session self _ => exact .writePid session (threads ▸ self) runs
      | settled settled => exact .settled ⟨runs, pidFile.trans settled.2⟩
  cases stage with
  | clear =>
    simp only [System.runDaemon] at ran
    split_ifs at ran
    · cases ran
      refine ⟨serves rfl rfl tenure.entry rfl rfl, ?_⟩
      exact congrArg (· ++ sys.hits) (tenure.struck_nil _)
    · cases ran
      exact ⟨left tenure.leave_nil, rfl⟩
  | bind =>
    simp only [System.runDaemon] at ran
    split_ifs at ran
    · cases ran
      exact ⟨serves rfl rfl tenure.entry rfl rfl, rfl⟩
    · cases ran
      exact ⟨left tenure.leave_nil, rfl⟩
  | listen =>
    simp only [System.runDaemon] at ran
    split_ifs at ran
    cases ran
    exact ⟨left tenure.leave_nil, rfl⟩
  | _ => cases isServing

end

/-! ## Runs -/

section
variable {sys next : System} {stage : Stage}

theorem Stage.Own.joins (own : stage.Own) : stage.joins = false := by
  cases stage with
  | register session => exact own.elim
  | _ => exact own.enters

theorem Sound.steady {thread : Nat} (sound : Sound sys) (steady : sys.Steady next thread)
    (isOlder : thread < sys.next) (isKept : Phase next ∧ next.hits = sys.hits) :
    Sound next :=
  ⟨isKept.2.trans sound.untouched, steady.numbered sound.numbered isOlder, isKept.1⟩

theorem Sound.moved {thread : Nat} (sound : Sound sys) (isOlder : thread < sys.next)
    (leaves : Leaves sys next thread) : Sound next := by
  obtain ⟨phase, hits, found, moved, notRegister⟩ := leaves
  exact ⟨hits.trans sound.untouched, sound.numbered.moved moved isOlder notRegister, phase⟩

theorem advance_sound {thread : Nat} {actor : Option Nat} {given : Given}
    (sound : Sound sys) (found : sys.threads thread = some ⟨actor, stage⟩)
    (clean : Clean sys (.advance thread given))
    (went : sys.advance thread actor given stage = some next) : Sound next := by
  have isOlder := sound.numbered.older thread _ found
  cases sound.phase with
  | free free =>
    by_cases joins : stage.joins = false
    · have steady := System.advance_steady joins went
      exact sound.steady steady isOlder ⟨.free (free.steady steady),
        (steady.spares free.noHolder).hits⟩
    · have noEntering : stage.enters = false := free.noEntering thread _ found
      cases stage with
      | register session =>
        obtain rfl := sound.numbered.actor thread actor session found
        simp only [Clean, found] at clean
        exact sound.moved isOlder (register_step free clean went)
      | _ => exact absurd noEntering joins
  | entering entered entering =>
    by_cases same : thread = entered
    · subst same
      obtain ⟨entered, isSelf, enters⟩ := entering.self
      cases found.symm.trans isSelf
      exact sound.moved isOlder (entering_step entering enters isOlder went)
    · cases (entering.blocks same found).symm.trans went
  | held join tenure =>
    by_cases same : thread = join
    · subst same
      have own := tenure.own _ found
      have isActor : actor = some thread := own.1
      subst isActor
      exact sound.steady (System.advance_steady own.2.joins went) isOlder
        (own_step tenure found went)
    · exact sound.moved isOlder (other_step tenure same found clean went)

theorem start_phase {actor : Option Nat} (sound : Sound sys)
    (waits : stage.waits = true) : Phase (sys.start actor stage) := by
  have waitsNow (other : Nat) (state : Thread)
      (found : (sys.start actor stage).threads other = some state) :
      state.stage.waits = true ∨ sys.threads other = some state := by
    rcases update_eq_some found with ⟨_, isState⟩ | ⟨_, wasOther⟩
    · cases isState
      exact .inl waits
    · exact .inr wasOther
  have stays {thread : Nat} (isOlder : thread < sys.next) :
      (sys.start actor stage).threads thread = sys.threads thread :=
    update_of_ne (Nat.ne_of_lt isOlder) ..
  cases sound.phase with
  | free free =>
    exact .free ⟨free.noHolder, fun other state found =>
      (waitsNow other state found).elim Stage.enters_of_waits (free.noEntering other state)⟩
  | entering thread entering =>
    obtain ⟨entered, isSelf, enters⟩ := entering.self
    have isOlder := sound.numbered.older thread _ isSelf
    refine .entering thread ⟨entering.free, entering.locked,
      ⟨entered, (stays isOlder).trans isSelf, enters⟩, entering.quiet.daemons,
      fun other state isOther found => ?_⟩
    exact (waitsNow other state found).elim id (entering.quiet.others other state isOther)
  | held join tenure =>
    have self := stays tenure.older
    refine .held join (tenure.stay rfl tenure.entry (Nat.le_succ _) tenure.daemons ?_ id
      (fun state isOwn => .inl (self ▸ isOwn)) fun other state _ found => ?_)
    · cases tenure.progress with
      | spawn session wasSelf noDaemon => exact .spawn session (self.trans wasSelf) noDaemon
      | writePid session wasSelf daemon => exact .writePid session (self.trans wasSelf) daemon
      | settled settled => exact .settled settled
    · exact (waitsNow other state found).symm.imp_right Stage.beside_of_waits

theorem Phase.same (phase : Phase sys) (threads : next.threads = sys.threads)
    (daemons : next.daemons = sys.daemons) (number : next.next = sys.next)
    (entry : next.disk.entry = sys.disk.entry)
    (pidFile : next.disk.pidFile = sys.disk.pidFile) (lock : next.lock = sys.lock)
    (holders : next.holders = sys.holders ∨ next.holders = []) : Phase next := by
  have isFree (noEntering : ∀ thread state, sys.threads thread = some state →
      state.stage.enters = false) (noHolder : next.holders = []) : Phase next :=
    .free ⟨noHolder, fun other state found => noEntering other state (threads ▸ found)⟩
  cases phase with
  | free free => exact isFree free.noEntering (holders.elim (·.trans free.noHolder) id)
  | entering thread entering =>
    refine .entering thread ⟨holders.elim (·.trans entering.free) id,
      lock.trans entering.locked, threads ▸ entering.self, fun daemon => ?_, ?_⟩
    · exact daemons ▸ entering.quiet.daemons daemon
    · exact threads ▸ entering.quiet.others
  | held join tenure =>
    refine holders.elim (fun holders => ?_) (isFree tenure.noEntering)
    have settled (wasSettled : Settled sys join) : Settled next join :=
      ⟨daemons ▸ wasSettled.1, pidFile.trans wasSettled.2⟩
    refine .held join (tenure.stay holders (entry ▸ tenure.entry) (Nat.le_of_eq number.symm)
      (daemons ▸ tenure.daemons) ?_ settled (fun state isOwn => .inl (threads ▸ isOwn))
      fun other state _ found => .inl (threads ▸ found))
    cases tenure.progress with
    | spawn session self noDaemon => exact .spawn session (threads ▸ self) (daemons ▸ noDaemon)
    | writePid session self daemon => exact .writePid session (threads ▸ self) (daemons ▸ daemon)
    | settled wasSettled => exact .settled (settled wasSettled)

theorem Phase.filter_holders (phase : Phase sys) {session : Nat} :
    sys.holders.filter (·.session ≠ session) = sys.holders ∨
      sys.holders.filter (·.session ≠ session) = [] := by
  cases phase with
  | free free => exact .inr (by rw [free.noHolder, List.filter_nil])
  | entering thread entering => exact .inr (by rw [entering.free, List.filter_nil])
  | held join tenure =>
    obtain ⟨held, only⟩ := tenure.only
    by_cases same : held = session
    · refine .inr (List.filter_eq_nil_iff.mpr fun holder isHolder stays => ?_)
      exact of_decide_eq_true stays (only holder isHolder ▸ same)
    · refine .inl (List.filter_eq_self.mpr fun holder isHolder => decide_eq_true ?_)
      exact only holder isHolder ▸ same

theorem step_sound {label : Label} (sound : Sound sys) (clean : Clean sys label)
    (stepped : step sys label = some next) : Sound next := by
  have numbered := sound.numbered
  cases label with
  | join session =>
    simp only [step] at stepped
    split_ifs at stepped
    cases stepped
    exact ⟨sound.untouched, numbered.start fun _ _ => rfl, start_phase sound rfl⟩
  | quit marker =>
    simp only [step] at stepped
    split_ifs at stepped
    cases stepped
    obtain ⟨isHolder, unlocked⟩ := clean
    have noHolder : (sys.leave marker.daemonPid).holders = [] :=
      List.filter_eq_nil_iff.mpr fun holder isMember stays =>
        of_decide_eq_true stays (isHolder holder isMember)
    have left : Numbered (sys.leave marker.daemonPid) := ⟨numbered.older, numbered.actor⟩
    refine ⟨sound.untouched, left.start nofun,
      .free ⟨noHolder, fun other state found => ?_⟩⟩
    rcases update_eq_some found with ⟨_, isState⟩ | ⟨_, wasOther⟩
    · cases isState
      rfl
    · cases sound.phase with
      | free free => exact free.noEntering other state wasOther
      | entering thread entering => cases entering.locked.symm.trans unlocked
      | held join tenure => exact tenure.noEntering other state wasOther
  | who =>
    cases stepped
    exact ⟨sound.untouched, numbered.start nofun,
      start_phase sound rfl⟩
  | advance thread given =>
    simp only [step] at stepped
    split at stepped
    · cases stepped
    · rename_i actor stage found
      exact advance_sound sound found clean stepped
  | daemon daemon given =>
    simp only [step] at stepped
    split at stepped
    · cases stepped
    · rename_i session stage found
      obtain ⟨threads, number⟩ := System.runDaemon_threads stepped
      have isNumbered : Numbered next :=
        ⟨fun thread state isThread => number ▸ numbered.older thread state (threads ▸ isThread),
          fun thread actor session isThread =>
            numbered.actor thread actor session (threads ▸ isThread)⟩
      cases sound.phase with
      | free free =>
        have spares := System.runDaemon_spares free.noHolder stepped
        exact ⟨spares.hits.trans sound.untouched, isNumbered,
          .free ⟨spares.noHolder, threads ▸ free.noEntering⟩⟩
      | entering thread entering =>
        cases found.symm.trans (entering.quiet.daemons daemon)
      | held join tenure =>
        obtain rfl := tenure.runs_own found
        obtain ⟨phase, hits⟩ := daemon_step tenure found stepped
        exact ⟨hits.trans sound.untouched, isNumbered, phase⟩
  | crash daemon =>
    simp only [step] at stepped
    split at stepped
    · cases stepped
    · rename_i state found
      cases stepped
      refine ⟨sound.untouched, ⟨numbered.older, numbered.actor⟩, ?_⟩
      cases sound.phase with
      | free free =>
        exact .free ⟨(System.spares_leave free.noHolder).noHolder, free.noEntering⟩
      | entering thread entering =>
        cases found.symm.trans (entering.quiet.daemons daemon)
      | held join tenure =>
        obtain rfl := tenure.runs_own found
        exact .free ⟨tenure.leave_nil, tenure.noEntering⟩
  | endSession session =>
    cases stepped
    refine ⟨sound.untouched, ⟨numbered.older, numbered.actor⟩,
      sound.phase.same rfl rfl rfl rfl rfl rfl sound.phase.filter_holders⟩
  | deliver =>
    cases stepped
    exact ⟨sound.untouched, ⟨numbered.older, numbered.actor⟩,
      sound.phase.same rfl rfl rfl rfl rfl rfl (Or.inl rfl)⟩

end

theorem initial_sound : Sound initial where
  untouched := rfl
  numbered := ⟨fun _ _ found => (by cases found), nofun⟩
  phase := .free ⟨rfl, fun _ _ found => by cases found⟩

theorem Sound.kept {sys : System} (sound : Sound sys) : Kept sys where
  once first isFirst second isSecond := by
    cases sound.phase with
    | free free =>
      simp [free.noHolder] at isFirst
    | entering thread entering =>
      simp [entering.free] at isFirst
    | held join tenure =>
      obtain ⟨session, only⟩ := tenure.only
      rw [only first isFirst, only second isSecond]
  untouched := sound.untouched

/-- In all runs. -/
def PresenceKept (ok : System → Label → Prop) : Prop :=
  ∀ finish, Run step ok initial finish → Kept finish

/-- One session holds the name, and nothing else removes what is of its holder. -/
theorem presenceKept {finish : System} (run : Run step Clean initial finish) : Kept finish := by
  have sound : Sound finish := run.invariant initial_sound
    fun _ _ _ sound clean stepped => step_sound sound clean stepped
  exact sound.kept

def fine : Given := ⟨true, false⟩

/-- A `join` from its start to its end. -/
def joins (thread session : Nat) : List Label :=
  [.join session, .advance thread fine, .advance thread fine, .advance thread fine,
    .advance thread fine, .advance thread fine, .advance thread fine]

/-- A peer joins, its daemon starts to listen, and another session looks who is there. -/
def seenByAnother : List Label :=
  joins 0 7 ++ [.daemon 0 fine, .daemon 0 fine, .who, .advance 1 fine, .advance 1 fine,
    .advance 1 fine]

theorem presenceKept_seenByAnother :
    ∃ finish, Run step Clean initial finish ∧ finish.holders = [⟨0, 7⟩] ∧ Kept finish := by
  obtain ⟨finish, replayed, isHeld⟩ :
      ∃ finish, execute step initial seenByAnother = some finish ∧ finish.holders = [⟨0, 7⟩] :=
    ⟨_, rfl, rfl⟩
  have permitted : Permitted step Clean initial seenByAnother := by
    refine ⟨trivial, _, rfl, ?_, _, rfl, trivial, _, rfl, trivial, _, rfl, trivial, _, rfl,
      trivial, _, rfl, trivial, _, rfl, trivial, _, rfl, trivial, _, rfl, trivial, _, rfl, ?_, _,
      rfl, trivial, _, rfl, trivial, _, rfl, trivial⟩
    · refine .inr ⟨fun _ => rfl, fun other state isOther found => ?_⟩
      rcases update_eq_some found with ⟨same, _⟩ | ⟨_, wasOther⟩
      · exact absurd same isOther
      · cases wasOther
    · intro holder isHolder state found
      obtain rfl := List.mem_singleton.mp isHolder
      cases found
  have run := run_of_permitted seenByAnother permitted replayed
  exact ⟨finish, run, isHeld, presenceKept run⟩

/-- A second session joins while the daemon of the first one does not listen yet. -/
def joinsWhileStarting : List Label :=
  [.join 7, .advance 0 fine, .advance 0 fine, .join 8, .advance 1 fine, .advance 1 fine,
    .advance 1 fine, .advance 1 fine]

theorem not_presenceKept : ¬ PresenceKept fun _ _ => True := by
  intro kept
  obtain ⟨finish, replayed, isFirst, isSecond⟩ :
      ∃ finish, execute step initial joinsWhileStarting = some finish ∧
        ⟨0, 7⟩ ∈ finish.holders ∧ ⟨1, 8⟩ ∈ finish.holders :=
    ⟨_, rfl, by decide, by decide⟩
  have isKept := kept finish (reachable_of_execute joinsWhileStarting replayed)
  exact absurd (isKept.once _ isFirst _ isSecond) (by decide)

end AiTools.Irc.Presence
