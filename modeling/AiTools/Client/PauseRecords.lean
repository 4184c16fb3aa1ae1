import AiTools.Lib.Transition
import Mathlib

/-!
Contract: the producers that the daemon client has paused, over lost connections.
-/

namespace AiTools.Client.PauseRecords

open AiTools.Lib.Transition
open Function (update)

variable {Id : Type*}

inductive Method where
  | pausePty
  | resumePty
deriving DecidableEq

/-- A notify and the connection that it was queued on. -/
structure Notify (Id : Type*) where
  method : Method
  sessionId : Id
  generation : Nat
deriving DecidableEq

/-- What a thread does next. The two sets are cleared by `resume_pty` behind its notify, and by
whoever sees the exit of a session. -/
inductive Thread (Id : Type*) where
  | pause (id : Id)
  | recordPaused (id : Id)
  | resume (id : Id)
  | clearPaused (id : Id)
  | clearOwed (id : Id)
  | disconnect (generation : Nat)
  | drainPaused (generation : Nat)
  | insertOwed (generation : Nat) (ids : Finset Id)

/-- The one connection attempt at a time, with its resync. -/
inductive Connector (Id : Type*) where
  | idle
  | listing
  | sending (ids : Finset Id)
  | unpausing (id : Id) (ids : Finset Id)

structure System (Id : Type*) where
  connected : Bool
  generation : Nat
  producerPaused : Finset Id
  producerResumesOwed : Finset Id
  threads : Nat → Option (Thread Id)
  connector : Connector Id
  sent : List (Notify Id)
  /-- The connection that the session's pause was lost with, until something is known that makes
  up for it. -/
  lost : Id → Option Nat

def initial : System Id := ⟨false, 0, ∅, ∅, fun _ => none, .idle, [], fun _ => none⟩

inductive Label (Id : Type*) where
  | pausePty (thread : Nat) (id : Id)
  | resumePty (thread : Nat) (id : Id)
  | exited (thread : Nat) (id : Id)
  | handleDisconnect (thread : Nat) (generation : Nat)
  | advance (thread : Nat)
  | doConnect
  | listFailed
  | drainOwed
  | sendOwed (id : Id)
  | unpauseOwed
  | resynced

def System.goto (sys : System Id) (thread : Nat) (next : Option (Thread Id)) : System Id :=
  { sys with threads := update sys.threads thread next }

/-- Queued on the current connection, if there is one. -/
def System.notify (sys : System Id) (method : Method) (id : Id) : System Id :=
  if sys.connected then
    { sys with sent := sys.sent ++ [⟨method, id, sys.generation⟩] }
  else sys

section
variable [DecidableEq Id]

def System.advance (sys : System Id) (thread : Nat) : Thread Id → System Id
  | .pause id =>
    if sys.connected then
      (sys.notify .pausePty id).goto thread (some (.recordPaused id))
    else sys.goto thread none
  | .recordPaused id =>
    { sys.goto thread none with producerPaused := insert id sys.producerPaused }
  | .resume id => (sys.notify .resumePty id).goto thread (some (.clearPaused id))
  | .clearPaused id =>
    { sys.goto thread (some (.clearOwed id)) with
      producerPaused := sys.producerPaused.erase id }
  | .clearOwed id =>
    { sys.goto thread none with
      producerResumesOwed := sys.producerResumesOwed.erase id
      lost := update sys.lost id none }
  | .disconnect generation =>
    if sys.generation = generation && sys.connected then
      { sys.goto thread (some (.drainPaused generation)) with connected := false }
    else sys.goto thread none
  | .drainPaused generation =>
    { sys.goto thread (some (.insertOwed generation sys.producerPaused)) with
      producerPaused := ∅
      lost := fun id =>
        if id ∈ sys.producerPaused then some generation else sys.lost id }
  | .insertOwed _ ids =>
    { sys.goto thread none with
      producerResumesOwed := sys.producerResumesOwed ∪ ids }

def System.start (sys : System Id) (thread : Nat) (first : Thread Id) :
    Option (System Id) :=
  match sys.threads thread with
  | none => some (sys.goto thread (some first))
  | some _ => none

/-- The resync sends a resume, or fails to because its connection is lost. -/
def System.onSendOwed (sys : System Id) (id : Id) (ids : Finset Id) : System Id :=
  { sys.notify .resumePty id with
    connector := .unpausing id (ids.erase id)
    lost := if sys.connected then sys.lost else update sys.lost id none }

def step (sys : System Id) : Label Id → Option (System Id)
  | .pausePty thread id => sys.start thread (.pause id)
  | .resumePty thread id => sys.start thread (.resume id)
  | .exited thread id => sys.start thread (.clearPaused id)
  | .handleDisconnect thread generation => sys.start thread (.disconnect generation)
  | .advance thread => (sys.threads thread).map (sys.advance thread)
  | .doConnect =>
    match sys.connector, sys.connected with
    | .idle, false => some { sys with
        connected := true
        generation := sys.generation + 1
        connector := .listing }
    | _, _ => none
  | .listFailed =>
    match sys.connector with
    | .listing => some { sys with connector := .idle }
    | _ => none
  | .drainOwed =>
    match sys.connector with
    | .listing => some { sys with
        producerResumesOwed := ∅
        connector := .sending sys.producerResumesOwed }
    | _ => none
  | .sendOwed id =>
    match sys.connector with
    | .sending ids => if id ∈ ids then some (sys.onSendOwed id ids) else none
    | _ => none
  | .unpauseOwed =>
    match sys.connector with
    | .unpausing id ids => some { sys with
        producerPaused := sys.producerPaused.erase id
        connector := .sending ids }
    | _ => none
  | .resynced =>
    match sys.connector with
    | .sending ids => if ids = ∅ then some { sys with connector := .idle } else none
    | _ => none

end

/-- The resumes that the resync has still to send. -/
def Connector.held : Connector Id → Finset Id
  | .idle => ∅
  | .listing => ∅
  | .sending ids => ids
  | .unpausing _ ids => ids

/-- A resume was queued on a later connection. -/
def System.ResumedAfter (sys : System Id) (id : Id) (generation : Nat) : Prop :=
  ∃ notify ∈ sys.sent, notify.method = .resumePty ∧ notify.sessionId = id ∧
    generation < notify.generation

/-- No disconnect and no resync is in the middle of its work. -/
structure System.Settled (sys : System Id) : Prop where
  noHandler : ∀ thread generation ids, sys.threads thread ≠ some (.insertOwed generation ids)
  noResync : sys.connector.held = ∅

/-- What was paused when a connection was lost is owed a resume or has had it. -/
def Owed (sys : System Id) : Prop :=
  sys.Settled → ∀ id generation, sys.lost id = some generation →
    id ∈ sys.producerResumesOwed ∨ sys.ResumedAfter id generation

/-- Every session whose pause went out on a connection that is lost has had a resume on the current
one, or is owed it. -/
def AllResumed (sys : System Id) : Prop :=
  sys.Settled → sys.connected = true → ∀ paused ∈ sys.sent,
    paused.method = .pausePty → paused.generation < sys.generation →
      paused.sessionId ∈ sys.producerResumesOwed ∨
        ⟨.resumePty, paused.sessionId, sys.generation⟩ ∈ sys.sent

/-! ## The invariant -/

/-- The session is owed a resume, or somebody is about to see to it. -/
def System.Pending (sys : System Id) (id : Id) : Prop :=
  id ∈ sys.producerResumesOwed ∨
    (∃ thread generation ids, sys.threads thread = some (.insertOwed generation ids) ∧
      id ∈ ids) ∨
    id ∈ sys.connector.held

/-- The connection is not the one that is up. -/
def System.Past (sys : System Id) (generation : Nat) : Prop :=
  generation ≤ sys.generation ∧ (sys.connected = true → generation < sys.generation)

structure Sound (sys : System Id) : Prop where
  seenTo : ∀ id generation, sys.lost id = some generation →
    sys.Pending id ∨ sys.ResumedAfter id generation
  past : ∀ id generation, sys.lost id = some generation → sys.Past generation
  drains : ∀ thread generation, sys.threads thread = some (.drainPaused generation) →
    sys.Past generation

theorem initial_sound : Sound (initial : System Id) where
  seenTo := nofun
  past := nofun
  drains := nofun

section
variable {sys next : System Id} {thread : Nat}

/-- What a step must leave of the pending resumes and of the connections. -/
structure Leaves (sys next : System Id) : Prop where
  pending : ∀ id, next.lost id ≠ none → sys.Pending id → next.Pending id ∨
    ∀ generation, sys.Past generation → next.ResumedAfter id generation
  sent : sys.sent ⊆ next.sent
  lost : ∀ id generation, next.lost id = some generation → sys.lost id = some generation
  past : ∀ generation, sys.Past generation → next.Past generation
  drains : ∀ thread generation, next.threads thread = some (.drainPaused generation) →
    sys.threads thread = some (.drainPaused generation) ∨ next.Past generation

theorem Sound.leaves (sound : Sound sys) (leaves : Leaves sys next) : Sound next where
  seenTo := by
    intro id generation isLost
    have wasLost := leaves.lost id generation isLost
    rcases sound.seenTo id generation wasLost with isPending | ⟨notify, isSent, isResume⟩
    · have isSome : next.lost id ≠ none := by
        rw [isLost]
        exact Option.some_ne_none _
      exact (leaves.pending id isSome isPending).imp_right fun resumed =>
        resumed generation (sound.past id generation wasLost)
    · exact .inr ⟨notify, leaves.sent isSent, isResume⟩
  past := fun id generation isLost =>
    leaves.past generation (sound.past id generation (leaves.lost id generation isLost))
  drains := by
    intro thread generation found
    rcases leaves.drains thread generation found with wasFound | isPast
    · exact leaves.past generation (sound.drains thread generation wasFound)
    · exact isPast

theorem Sound.goto (sound : Sound sys) {stage : Option (Thread Id)}
    (noHands : ∀ generation ids, sys.threads thread = some (.insertOwed generation ids) →
      ∀ id ∈ ids, id ∈ next.producerResumesOwed)
    (noDrain : ∀ generation, stage = some (.drainPaused generation) → next.Past generation)
    (threads : next.threads = update sys.threads thread stage)
    (owed : ∀ id, next.lost id ≠ none → id ∈ sys.producerResumesOwed →
      id ∈ next.producerResumesOwed)
    (connector : next.connector = sys.connector) (sent : sys.sent ⊆ next.sent)
    (lost : ∀ id generation, next.lost id = some generation → sys.lost id = some generation)
    (past : ∀ generation, sys.Past generation → next.Past generation) : Sound next := by
  refine sound.leaves ⟨?_, sent, lost, past, ?_⟩
  · rintro id isLost (isOwed | ⟨other, generation, ids, found, isIn⟩ | isHeld)
    · exact .inl (.inl (owed id isLost isOwed))
    · by_cases same : other = thread
      · rw [same] at found
        exact .inl (.inl (noHands generation ids found id isIn))
      · refine .inl (.inr (.inl ⟨other, generation, ids, ?_, isIn⟩))
        rw [threads, Function.update_of_ne same]
        exact found
    · rw [← connector] at isHeld
      exact .inl (.inr (.inr isHeld))
  · intro other generation found
    rw [threads] at found
    rcases update_eq_some found with ⟨_, isStage⟩ | ⟨_, wasFound⟩
    · exact .inr (noDrain generation isStage)
    · exact .inl wasFound

theorem notify_sent (sys : System Id) (method : Method) (id : Id) :
    sys.sent ⊆ (sys.notify method id).sent := by
  unfold System.notify
  split
  · exact List.subset_append_left _ _
  · exact List.Subset.refl _

@[simp] theorem notifyThreads (sys : System Id) (method : Method) (id : Id) :
    (sys.notify method id).threads = sys.threads := by
  unfold System.notify
  split <;> rfl

@[simp] theorem notify_owed (sys : System Id) (method : Method) (id : Id) :
    (sys.notify method id).producerResumesOwed = sys.producerResumesOwed := by
  unfold System.notify
  split <;> rfl

@[simp] theorem notify_connector (sys : System Id) (method : Method) (id : Id) :
    (sys.notify method id).connector = sys.connector := by
  unfold System.notify
  split <;> rfl

@[simp] theorem notify_lost (sys : System Id) (method : Method) (id : Id) :
    (sys.notify method id).lost = sys.lost := by
  unfold System.notify
  split <;> rfl

variable {id : Id} {generation : Nat}

theorem notify_past {method : Method} (isPast : sys.Past generation) :
    (sys.notify method id).Past generation := by
  unfold System.notify
  split
  · exact isPast
  · exact isPast

theorem Sound.connect (sound : Sound sys) {connector : Connector Id} {owed : Finset Id}
    (held : ∀ id, id ∈ sys.producerResumesOwed ∨ id ∈ sys.connector.held →
      id ∈ owed ∨ id ∈ connector.held) (paused : Finset Id) :
    Sound { sys with
      producerPaused := paused
      producerResumesOwed := owed
      connector := connector } := by
  refine sound.leaves ⟨?_, List.Subset.refl _, fun _ _ isLost => isLost, fun _ isPast => isPast,
    fun _ _ found => .inl found⟩
  rintro id _ (isOwed | isHanded | isHeld)
  · exact .inl ((held id (.inl isOwed)).imp_right .inr)
  · exact .inl (.inr (.inl isHanded))
  · exact .inl ((held id (.inr isHeld)).imp_right .inr)

theorem start_sound (sound : Sound sys) {first : Thread Id}
    (noDrain : ∀ generation, first ≠ .drainPaused generation)
    (ran : sys.start thread first = some next) : Sound next := by
  unfold System.start at ran
  split at ran
  · rename_i isFree
    cases ran
    refine sound.goto (fun generation ids isHands => ?_) (fun generation isDrain => ?_) rfl
      (fun _ _ isOwed => isOwed) rfl (List.Subset.refl _) (fun _ _ isLost => isLost)
      fun _ isPast => isPast
    · simp [isFree] at isHands
    · exact absurd (Option.some.inj isDrain) (noDrain generation)
  · cases ran

variable [DecidableEq Id]

theorem drainPaused_sound (sound : Sound sys)
    (found : sys.threads thread = some (.drainPaused generation)) :
    Sound (sys.advance thread (.drainPaused generation)) := by
  have isPast := sound.drains thread generation found
  have kept : ∀ id, sys.Pending id →
      (sys.advance thread (.drainPaused generation)).Pending id := by
    rintro id (isOwed | ⟨other, lostWith, ids, isFound, isIn⟩ | isHeld)
    · exact .inl isOwed
    · refine .inr (.inl ⟨other, lostWith, ids, ?_, isIn⟩)
      have isOther : other ≠ thread := by
        rintro rfl
        simp [found] at isFound
      exact (Function.update_of_ne isOther _ _).trans isFound
    · exact .inr (.inr isHeld)
  have lost : ∀ id, (sys.advance thread (.drainPaused generation)).lost id =
      if id ∈ sys.producerPaused then some generation else sys.lost id := fun _ => rfl
  constructor
  case seenTo =>
    intro id lostWith isLost
    rw [lost] at isLost
    split_ifs at isLost with isPaused
    · refine .inl (.inr (.inl ⟨thread, generation, sys.producerPaused, ?_, isPaused⟩))
      exact Function.update_self _ _ _
    · exact (sound.seenTo id lostWith isLost).imp_left (kept id)
  case past =>
    intro id lostWith isLost
    rw [lost] at isLost
    split_ifs at isLost
    · cases isLost
      exact isPast
    · exact sound.past id lostWith isLost
  case drains =>
    intro other lostWith isFound
    rcases update_eq_some isFound with ⟨_, isStage⟩ | ⟨_, wasFound⟩
    · cases isStage
    · exact sound.drains other lostWith wasFound

theorem advance_sound (sound : Sound sys) {stage : Thread Id}
    (found : sys.threads thread = some stage) : Sound (sys.advance thread stage) := by
  have noHands : (∀ generation ids, stage ≠ .insertOwed generation ids) →
      ∀ {owed : Finset Id} generation ids,
        sys.threads thread = some (.insertOwed generation ids) → ∀ id ∈ ids, id ∈ owed := by
    intro isOther owed generation ids isHands
    rw [found] at isHands
    exact absurd (Option.some.inj isHands) (isOther generation ids)
  cases stage with
  | pause id =>
    unfold System.advance
    dsimp only
    split_ifs
    · exact sound.goto (noHands fun _ _ => by simp) (fun _ isDrain => by cases isDrain)
        (congrArg (update · thread _) (notifyThreads _ _ _))
        (fun other _ isOwed => by rw [← notify_owed sys .pausePty id] at isOwed; exact isOwed)
        (notify_connector _ _ _) (notify_sent _ _ _)
        (fun other _ isLost => by rw [← notify_lost sys .pausePty id]; exact isLost)
        fun _ isPast => notify_past isPast
    · exact sound.goto (noHands fun _ _ => by simp) (fun _ isDrain => by cases isDrain) rfl
        (fun _ _ isOwed => isOwed) rfl (List.Subset.refl _) (fun _ _ isLost => isLost)
        fun _ isPast => isPast
  | recordPaused id | clearPaused id =>
    exact sound.goto (noHands fun _ _ => by simp) (fun _ isDrain => by cases isDrain) rfl
      (fun _ _ isOwed => isOwed) rfl (List.Subset.refl _) (fun _ _ isLost => isLost)
      fun _ isPast => isPast
  | resume id =>
    exact sound.goto (noHands fun _ _ => by simp) (fun _ isDrain => by cases isDrain)
      (congrArg (update · thread _) (notifyThreads _ _ _))
      (fun other _ isOwed => by rw [← notify_owed sys .resumePty id] at isOwed; exact isOwed)
      (notify_connector _ _ _) (notify_sent _ _ _)
      (fun other _ isLost => by rw [← notify_lost sys .resumePty id]; exact isLost)
      fun _ isPast => notify_past isPast
  | clearOwed id =>
    have lost : ∀ other, (sys.advance thread (.clearOwed id)).lost other =
        if other = id then none else sys.lost other := fun other =>
      Function.update_apply _ _ _ _
    refine sound.goto (noHands fun _ _ => by simp) (fun _ isDrain => by cases isDrain) rfl
      (fun other isLost isOwed => ?_) rfl (List.Subset.refl _) (fun other generation isLost => ?_)
      fun _ isPast => isPast
    · rw [lost] at isLost
      split_ifs at isLost with same
      · exact absurd rfl isLost
      · exact Finset.mem_erase.mpr ⟨same, isOwed⟩
    · rw [lost] at isLost
      split_ifs at isLost
      exact isLost
  | disconnect generation =>
    unfold System.advance
    dsimp only
    split_ifs with isCurrent
    · rw [Bool.and_eq_true, decide_eq_true_eq] at isCurrent
      refine sound.goto (noHands fun _ _ => by simp) (fun other isDrain => ?_) rfl
        (fun _ _ isOwed => isOwed) rfl (List.Subset.refl _) (fun _ _ isLost => isLost)
        fun _ isPast => ⟨isPast.1, Bool.noConfusion⟩
      cases isDrain
      exact ⟨isCurrent.1.ge, Bool.noConfusion⟩
    · exact sound.goto (noHands fun _ _ => by simp) (fun _ isDrain => by cases isDrain) rfl
        (fun _ _ isOwed => isOwed) rfl (List.Subset.refl _) (fun _ _ isLost => isLost)
        fun _ isPast => isPast
  | drainPaused generation => exact drainPaused_sound sound found
  | insertOwed generation ids =>
    refine sound.goto (fun other handed isHands id isIn => ?_)
      (fun _ isDrain => by cases isDrain) rfl
      (fun _ _ isOwed => Finset.mem_union_left _ isOwed) rfl (List.Subset.refl _)
      (fun _ _ isLost => isLost) fun _ isPast => isPast
    rw [found] at isHands
    cases isHands
    exact Finset.mem_union_right _ isIn

theorem onSendOwed_sound (sound : Sound sys) {ids : Finset Id}
    (isSending : sys.connector = .sending ids) : Sound (sys.onSendOwed id ids) := by
  have lost : ∀ other, (sys.onSendOwed id ids).lost other ≠ none →
      (other = id → sys.connected = true) ∧ sys.lost other ≠ none := by
    intro other isLost
    simp only [System.onSendOwed] at isLost
    split_ifs at isLost with isConnected
    · exact ⟨fun _ => isConnected, isLost⟩
    · rw [Function.update_apply] at isLost
      split_ifs at isLost with same
      · exact absurd rfl isLost
      · exact ⟨fun isSame => absurd isSame same, isLost⟩
  refine sound.leaves ⟨?_, notify_sent _ _ _, fun other generation isLost => ?_,
    fun _ isPast => notify_past isPast, fun other generation found => ?_⟩
  · rintro other isLost (isOwed | ⟨thread, generation, handed, found, isIn⟩ | isHeld)
    · refine .inl (.inl ?_)
      show other ∈ (sys.notify .resumePty id).producerResumesOwed
      rw [notify_owed]
      exact isOwed
    · refine .inl (.inr (.inl ⟨thread, generation, handed, ?_, isIn⟩))
      show (sys.notify .resumePty id).threads thread = _
      rw [notifyThreads]
      exact found
    · rw [isSending] at isHeld
      by_cases same : other = id
      · have isConnected := (lost other isLost).1 same
        refine .inr fun generation isPast =>
          ⟨⟨.resumePty, id, sys.generation⟩, ?_, rfl, same.symm, isPast.2 isConnected⟩
        show _ ∈ (sys.notify .resumePty id).sent
        unfold System.notify
        rw [if_pos isConnected]
        exact List.mem_append_right _ (List.mem_singleton_self _)
      · exact .inl (.inr (.inr (Finset.mem_erase.mpr ⟨same, isHeld⟩)))
  · simp only [System.onSendOwed] at isLost
    split_ifs at isLost
    · exact isLost
    · rw [Function.update_apply] at isLost
      split_ifs at isLost
      exact isLost
  · refine .inl ?_
    have isFound : (sys.notify .resumePty id).threads other = some (.drainPaused generation) :=
      found
    rwa [notifyThreads] at isFound

theorem step_sound (sound : Sound sys) {label : Label Id}
    (ran : step sys label = some next) : Sound next := by
  unfold step at ran
  cases label with
  | pausePty thread id | resumePty thread id | exited thread id
  | handleDisconnect thread generation => exact start_sound sound (fun _ => by simp) ran
  | advance thread =>
    obtain ⟨stage, found, isNext⟩ := Option.map_eq_some_iff.mp ran
    rw [← isNext]
    exact advance_sound sound found
  | doConnect =>
    dsimp only at ran
    split at ran
    · rename_i isIdle isDown
      cases ran
      refine sound.leaves ⟨?_, List.Subset.refl _, fun _ _ isLost => isLost,
        fun generation isPast => ?_, fun _ _ found => .inl found⟩
      · rintro id _ (isOwed | isHanded | isHeld)
        · exact .inl (.inl isOwed)
        · exact .inl (.inr (.inl isHanded))
        · rw [isIdle] at isHeld
          exact absurd isHeld (Finset.notMem_empty id)
      · have isOld := isPast.1
        exact ⟨isOld.trans (Nat.le_succ _), fun _ => Nat.lt_succ_of_le isOld⟩
    · cases ran
  | listFailed =>
    dsimp only at ran
    split at ran
    · rename_i isListing
      cases ran
      exact sound.connect (fun id isPending => by rw [isListing] at isPending; exact isPending) _
    · cases ran
  | drainOwed =>
    dsimp only at ran
    split at ran
    · rename_i isListing
      cases ran
      refine sound.connect (fun id isPending => ?_) _
      rw [isListing] at isPending
      rcases isPending with isOwed | isHeld
      · exact .inr isOwed
      · exact absurd isHeld (Finset.notMem_empty id)
    · cases ran
  | sendOwed id =>
    dsimp only at ran
    split at ran
    · rename_i ids isSending
      split_ifs at ran
      cases ran
      exact onSendOwed_sound sound isSending
    · cases ran
  | unpauseOwed =>
    dsimp only at ran
    split at ran
    · rename_i id ids isUnpausing
      cases ran
      refine sound.connect (fun other isPending => ?_) _
      rwa [isUnpausing] at isPending
    · cases ran
  | resynced =>
    dsimp only at ran
    split at ran
    · rename_i ids isSending
      split_ifs at ran with isEmpty
      cases ran
      refine sound.connect (fun other isPending => ?_) _
      rwa [isSending, isEmpty] at isPending
    · cases ran

/-- What the client had recorded as paused when a connection was lost is owed a resume or has had
one on a later connection, in every run. -/
theorem resumesOwed {finish : System Id} (run : Reachable step initial finish) : Owed finish := by
  have sound : Sound finish := run.invariant initial_sound
    fun _ _ _ sound _ ran => step_sound sound ran
  intro settled id generation isLost
  rcases sound.seenTo id generation isLost with (isOwed | ⟨thread, other, ids, found, _⟩ | isHeld) |
    resumed
  · exact .inl isOwed
  · exact absurd found (settled.noHandler thread other ids)
  · rw [settled.noResync] at isHeld
    exact absurd isHeld (Finset.notMem_empty id)
  · exact .inr resumed

end

/-- The pause of session 7 is recorded before its connection is lost. -/
def recorded : List (Label Nat) :=
  [.doConnect, .drainOwed, .resynced, .pausePty 0 7, .advance 0, .advance 0,
    .handleDisconnect 1 1, .advance 1, .advance 1, .advance 1, .doConnect, .drainOwed,
    .sendOwed 7, .unpauseOwed, .resynced]

theorem resumesOwed_recorded : ∃ finish : System Nat, Reachable step initial finish ∧
    finish.lost 7 = some 1 ∧ finish.sent = [⟨.pausePty, 7, 1⟩, ⟨.resumePty, 7, 2⟩] ∧
    Owed finish := by
  obtain ⟨finish, replayed, isLost, sent⟩ : ∃ finish, execute step initial recorded =
      some finish ∧ finish.lost 7 = some 1 ∧
        finish.sent = [⟨.pausePty, 7, 1⟩, ⟨.resumePty, 7, 2⟩] := ⟨_, rfl, rfl, rfl⟩
  have run := reachable_of_execute recorded replayed
  exact ⟨finish, run, isLost, sent, resumesOwed run⟩

/-- Session 7 is paused and resumed before its connection is lost. -/
def resumedBefore : List (Label Nat) :=
  [.doConnect, .drainOwed, .resynced, .pausePty 0 7, .advance 0, .advance 0, .resumePty 0 7,
    .advance 0, .advance 0, .advance 0, .handleDisconnect 1 1, .advance 1, .advance 1, .advance 1,
    .doConnect, .drainOwed, .resynced]

/-- The pause of session 7 is recorded when the records have been taken. -/
def recordedLate : List (Label Nat) :=
  [.doConnect, .drainOwed, .resynced, .pausePty 0 7, .advance 0, .handleDisconnect 1 1,
    .advance 1, .advance 1, .advance 1, .advance 0, .doConnect, .drainOwed, .resynced]

theorem not_allResumed_of {finish : System Nat} (noThread : ∀ thread, finish.threads thread = none)
    (noResync : finish.connector.held = ∅) (isConnected : finish.connected = true)
    (noOwed : finish.producerResumesOwed = ∅)
    (isPaused : ⟨.pausePty, 7, 1⟩ ∈ finish.sent) (isLater : 1 < finish.generation)
    (notResumed : ⟨.resumePty, 7, finish.generation⟩ ∉ finish.sent) : ¬AllResumed finish := by
  intro all
  have settled : finish.Settled := by
    refine ⟨fun thread _ _ found => ?_, noResync⟩
    simp [noThread thread] at found
  rcases all settled isConnected _ isPaused rfl isLater with isOwed | isResumed
  · rw [noOwed] at isOwed
    exact absurd isOwed (Finset.notMem_empty _)
  · exact notResumed isResumed

/-- A session that was resumed in time is owed nothing, and neither is one whose pause comes late
into the records. -/
theorem not_allResumed :
    (∃ finish, execute step initial resumedBefore = some finish ∧ ¬AllResumed finish) ∧
      ∃ finish, execute step initial recordedLate = some finish ∧ ¬AllResumed finish := by
  constructor
  · refine ⟨_, rfl, not_allResumed_of (fun thread => ?_) rfl rfl rfl (by decide) (by decide)
      (by decide)⟩
    match thread with
    | 0 => rfl
    | 1 => rfl
    | later + 2 => rfl
  · refine ⟨_, rfl, not_allResumed_of (fun thread => ?_) rfl rfl rfl (by decide) (by decide)
      (by decide)⟩
    match thread with
    | 0 => rfl
    | 1 => rfl
    | later + 2 => rfl

end AiTools.Client.PauseRecords
