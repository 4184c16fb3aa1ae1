import AiTools.Daemon.Session.Coalescer
import Mathlib

/-!
Contract: the end of a session's output.

The flusher's window may be over at any moment.
-/

namespace AiTools.Daemon.Session.ExitOrder

open AiTools.Lib.Transition (Reachable)
open AiTools.Daemon.Framing (StreamFrame)
open AiTools.Daemon.Session.Coalescer (Bytes maxPendingBytes overflow)

/-- What the flusher has drained is in the hands of `on_output`. -/
inductive Flusher where
  | running
  | emitting (batch : Bytes)
  | lastBatch (batch : Bytes)
  | exited
deriving DecidableEq

def Flusher.held : Flusher → Bytes
  | .running => []
  | .emitting batch => batch
  | .lastBatch batch => batch
  | .exited => []

/-- The close has been seen. -/
def Flusher.IsLast : Flusher → Prop
  | .running => False
  | .emitting _ => False
  | .lastBatch _ => True
  | .exited => True

inductive Reader where
  | reading
  | joining
  | joined
  | exitSent
deriving DecidableEq

/-- A part of what was pushed, in order: a batch of the flusher, or what a push has dropped of all
that would have been pending. -/
inductive Piece where
  | drained (batch : Bytes)
  | dropped (pending : Bytes)

def Piece.bytes : Piece → Bytes
  | .drained batch => batch
  | .dropped pending => pending.take (overflow pending)

def Piece.kept : Piece → Bytes
  | .drained batch => batch
  | .dropped _ => []

/-- `hub` has the frames of this session. `pushes`, `emitted` and `settled` are history: what was
pushed before the close, the chunks that `on_output` was called with, and the pieces that are no
longer pending. -/
structure System where
  sessionId : String
  pending : Bytes := []
  truncated : Bool := false
  closed : Bool := false
  flusher : Flusher := .running
  reader : Reader := .reading
  exitEmitted : Bool := false
  seq : UInt64 := 0
  hub : List StreamFrame := []
  pushes : List Bytes := []
  emitted : List Bytes := []
  settled : List Piece := []

def System.initial (sessionId : String) : System where
  sessionId := sessionId

/-- `hub.emit` of a frame that encodes. -/
def System.emit (sys : System) (frame : StreamFrame) : System :=
  match frame.encode with
  | .ok _ => { sys with hub := sys.hub ++ [frame] }
  | .error _ => sys

def System.push (sys : System) (data : Bytes) : System :=
  if data = [] ∨ sys.closed then sys
  else
    let pending := sys.pending ++ data
    let pushed := { sys with pushes := sys.pushes ++ [data] }
    if maxPendingBytes < pending.length then
      { pushed with
        pending := pending.drop (overflow pending)
        truncated := true
        settled := sys.settled ++ [.dropped pending] }
    else { pushed with pending := pending }

/-- `mem::take` of the pending bytes. -/
def System.drain (sys : System) (flusher : Flusher) : System :=
  { sys with
    pending := []
    flusher := flusher
    settled := sys.settled ++ [.drained sys.pending] }

/-- `StreamSink::on_output` -/
def System.onOutput (sys : System) (batch : Bytes) (flusher : Flusher) : System :=
  let total := sys.seq + UInt64.ofNat batch.length
  let counted := { sys with
    flusher := flusher
    seq := total
    emitted := sys.emitted ++ [batch] }
  counted.emit ⟨.data, sys.sessionId, total, batch⟩

/-- `ExitStatus` as JSON; the signal is never set. -/
def exitPayload : Option Int → Bytes
  | none => AiTools.Lib.Utf8.bytes "\x7b\x7d"
  | some code => AiTools.Lib.Utf8.bytes ("\x7b\"code\":" ++ toString code ++ "\x7d")

/-- `emit_exit`, with the code that the child's `wait` has returned. -/
def System.emitExit (sys : System) (code : Option Int) : System :=
  let sent := { sys with reader := .exitSent, exitEmitted := true }
  if sys.exitEmitted then sent
  else sent.emit ⟨.exit, sys.sessionId, sys.seq, exitPayload code⟩

inductive Label where
  | push (data : Bytes)
  | close
  | flush
  | onOutput
  | join
  | emitExit (code : Option Int)

/-- A flush needs pending bytes, or the close. Whether it comes by size or by time is left open. -/
def step (sys : System) : Label → Option System
  | .push data => some (sys.push data)
  | .close =>
    if sys.reader = .reading then some { sys with closed := true, reader := .joining }
    else none
  | .flush =>
    match sys.flusher with
    | .running =>
      if sys.closed then
        some (sys.drain (if sys.pending = [] then .exited else .lastBatch sys.pending))
      else if sys.pending = [] then none
      else some (sys.drain (.emitting sys.pending))
    | _ => none
  | .onOutput =>
    match sys.flusher with
    | .emitting batch => some (sys.onOutput batch .running)
    | .lastBatch batch => some (sys.onOutput batch .exited)
    | _ => none
  | .join =>
    if sys.reader = .joining ∧ sys.flusher = .exited then
      some { sys with reader := .joined }
    else none
  | .emitExit code => if sys.reader = .joined then some (sys.emitExit code) else none

/-- What was emitted, what the flusher holds and what is pending are the pushed bytes without the
drops, of which each has cut what was over the cap. -/
structure OrderKept (sys : System) : Prop where
  pushed : sys.pushes.flatten = sys.settled.flatMap Piece.bytes ++ sys.pending
  kept : sys.emitted.flatten ++ sys.flusher.held = sys.settled.flatMap Piece.kept
  capped : ∀ pending, .dropped pending ∈ sys.settled → maxPendingBytes < pending.length

structure ExitLast (sys : System) : Prop where
  joined : sys.reader = .joined ∨ sys.reader = .exitSent →
    sys.pending = [] ∧ sys.emitted.flatten = sys.settled.flatMap Piece.kept
  exit : ∀ before after frame, sys.hub = before ++ frame :: after → frame.kind = .exit →
    sys.reader = .exitSent ∧ after = [] ∧ (∀ other ∈ before, other.kind = .data) ∧
      frame.seq = UInt64.ofNat sys.emitted.flatten.length

/-! ## The invariant -/

structure Sound (sys : System) : Prop extends OrderKept sys where
  count : sys.seq = UInt64.ofNat sys.emitted.flatten.length
  notClosed : sys.reader = .reading → sys.closed = false
  isClosed : sys.reader ≠ .reading → sys.closed = true
  last : sys.flusher.IsLast → sys.closed = true ∧ sys.pending = []
  joinedExited : sys.reader = .joined ∨ sys.reader = .exitSent → sys.flusher = .exited
  notSent : sys.reader ≠ .exitSent → sys.exitEmitted = false ∧
    ∀ frame ∈ sys.hub, frame.kind = .data
  sent : sys.reader = .exitSent → (∀ frame ∈ sys.hub, frame.kind = .data) ∨
    ∃ before frame, sys.hub = before ++ [frame] ∧ (∀ other ∈ before, other.kind = .data) ∧
      frame.kind = .exit ∧ frame.seq = sys.seq

theorem initial_sound (sessionId : String) : Sound (.initial sessionId) where
  pushed := rfl
  kept := rfl
  capped := by simp [System.initial]
  count := rfl
  notClosed := fun _ => rfl
  isClosed := fun isOther => absurd rfl isOther
  last := nofun
  joinedExited := by simp [System.initial]
  notSent := by simp [System.initial]
  sent := by simp [System.initial]

variable {sys : System} {flusher : Flusher}

theorem push_sound (sound : Sound sys) (data : Bytes) : Sound (sys.push data) := by
  unfold System.push
  dsimp only
  split_ifs with isIgnored isOver
  · exact sound
  all_goals
    push Not at isIgnored
    have isOpen : sys.closed = false := Bool.eq_false_of_not_eq_true isIgnored.2
    have notLast : ¬sys.flusher.IsLast := by
      intro isLast
      simp [(sound.last isLast).1] at isOpen
  · refine ⟨⟨?_, ?_, ?_⟩, sound.count, sound.notClosed, sound.isClosed,
      fun isLast => absurd isLast notLast, sound.joinedExited, sound.notSent, sound.sent⟩
    · simp only [List.flatten_append, List.flatten_singleton, List.flatMap_append,
        List.flatMap_singleton, Piece.bytes]
      rw [sound.pushed, List.append_assoc, List.append_assoc, List.take_append_drop]
    · simp only [List.flatMap_append, List.flatMap_singleton, Piece.kept, List.append_nil]
      exact sound.kept
    · intro pending isIn
      rcases List.mem_append.mp isIn with isOld | isNew
      · exact sound.capped pending isOld
      · cases List.mem_singleton.mp isNew
        exact isOver
  · refine ⟨⟨?_, sound.kept, sound.capped⟩, sound.count, sound.notClosed, sound.isClosed,
      fun isLast => absurd isLast notLast, sound.joinedExited, sound.notSent, sound.sent⟩
    simp only [List.flatten_append, List.flatten_singleton]
    rw [sound.pushed, List.append_assoc]

theorem drain_sound (sound : Sound sys) (isRunning : sys.flusher = .running)
    (isHeld : flusher.held = sys.pending) (isLast : flusher.IsLast → sys.closed = true) :
    Sound (sys.drain flusher) := by
  have notJoined : ¬(sys.reader = .joined ∨ sys.reader = .exitSent) := by
    intro isJoined
    simp [sound.joinedExited isJoined] at isRunning
  refine ⟨⟨?_, ?_, ?_⟩, sound.count, sound.notClosed, sound.isClosed,
    fun ends => ⟨isLast ends, rfl⟩, fun isJoined => absurd isJoined notJoined,
    sound.notSent, sound.sent⟩
  · show sys.pushes.flatten =
      (sys.settled ++ [Piece.drained sys.pending]).flatMap Piece.bytes ++ []
    rw [sound.pushed, List.flatMap_append, List.flatMap_singleton, List.append_nil]
    rfl
  · show sys.emitted.flatten ++ flusher.held =
      (sys.settled ++ [Piece.drained sys.pending]).flatMap Piece.kept
    have kept := sound.kept
    rw [isRunning, Flusher.held, List.append_nil] at kept
    rw [isHeld, List.flatMap_append, List.flatMap_singleton, kept]
    rfl
  · intro pending isIn
    rcases List.mem_append.mp isIn with isOld | isNew
    · exact sound.capped pending isOld
    · cases List.mem_singleton.mp isNew

theorem onOutput_sound (sound : Sound sys) {batch : Bytes} (isHeld : sys.flusher.held = batch)
    (notExited : sys.flusher ≠ .exited) (isEmpty : flusher.held = [])
    (isLast : flusher.IsLast → sys.closed = true ∧ sys.pending = []) :
    Sound (sys.onOutput batch flusher) := by
  have notJoined : ¬(sys.reader = .joined ∨ sys.reader = .exitSent) := fun isJoined =>
    notExited (sound.joinedExited isJoined)
  have notSent : sys.reader ≠ .exitSent := fun isSent => notJoined (Or.inr isSent)
  obtain ⟨noExit, areData⟩ := sound.notSent notSent
  have isKept : (sys.emitted ++ [batch]).flatten ++ flusher.held =
      sys.settled.flatMap Piece.kept := by
    rw [List.flatten_append, List.flatten_singleton, isEmpty, List.append_nil, ← isHeld]
    exact sound.kept
  have isCount : sys.seq + UInt64.ofNat batch.length =
      UInt64.ofNat (sys.emitted ++ [batch]).flatten.length := by
    rw [sound.count, List.flatten_append, List.flatten_singleton, List.length_append,
      UInt64.ofNat_add]
  unfold System.onOutput System.emit
  dsimp only
  split
  · refine ⟨⟨sound.pushed, isKept, sound.capped⟩, isCount, sound.notClosed, sound.isClosed,
      isLast, fun isJoined => absurd isJoined notJoined, fun _ => ⟨noExit, ?_⟩,
      fun isSent => absurd isSent notSent⟩
    intro frame isIn
    rcases List.mem_append.mp isIn with isOld | isNew
    · exact areData frame isOld
    · rw [List.mem_singleton.mp isNew]
  · exact ⟨⟨sound.pushed, isKept, sound.capped⟩, isCount, sound.notClosed, sound.isClosed,
      isLast, fun isJoined => absurd isJoined notJoined, fun _ => ⟨noExit, areData⟩,
      fun isSent => absurd isSent notSent⟩

theorem emitExit_sound (sound : Sound sys) (isJoined : sys.reader = .joined)
    (code : Option Int) : Sound (sys.emitExit code) := by
  have notSent : sys.reader ≠ .exitSent := by simp [isJoined]
  have isClosed : sys.closed = true := sound.isClosed (by simp [isJoined])
  have isExited : sys.flusher = .exited := sound.joinedExited (Or.inl isJoined)
  obtain ⟨noExit, areData⟩ := sound.notSent notSent
  unfold System.emitExit System.emit
  dsimp only
  rw [if_neg (by simp [noExit])]
  split
  · refine ⟨⟨sound.pushed, sound.kept, sound.capped⟩, sound.count, nofun,
      fun _ => isClosed, sound.last, fun _ => isExited, absurd rfl,
      fun _ => .inr ⟨sys.hub, _, rfl, areData, rfl, rfl⟩⟩
  · exact ⟨⟨sound.pushed, sound.kept, sound.capped⟩, sound.count, nofun,
      fun _ => isClosed, sound.last, fun _ => isExited, absurd rfl,
      fun _ => .inl areData⟩

theorem step_sound {next : System} {label : Label} (sound : Sound sys)
    (ran : step sys label = some next) : Sound next := by
  cases label with
  | push data =>
    cases ran
    exact push_sound sound data
  | close =>
    simp only [step] at ran
    split_ifs at ran with isReading
    cases ran
    have notSent := sound.notSent (by simp [isReading])
    exact ⟨⟨sound.pushed, sound.kept, sound.capped⟩, sound.count, nofun,
      fun _ => rfl, fun isLast => ⟨rfl, (sound.last isLast).2⟩, by simp,
      fun _ => notSent, nofun⟩
  | flush =>
    simp only [step] at ran
    cases isFlusher : sys.flusher with
    | running =>
      rw [isFlusher] at ran
      dsimp only at ran
      split_ifs at ran with isClosed isEmpty isEmpty
      · cases ran
        exact drain_sound sound isFlusher isEmpty.symm fun _ => isClosed
      · cases ran
        exact drain_sound sound isFlusher rfl fun _ => isClosed
      · cases ran
        exact drain_sound sound isFlusher rfl nofun
    | emitting _ | lastBatch _ | exited =>
      simp [isFlusher] at ran
  | onOutput =>
    simp only [step] at ran
    cases isFlusher : sys.flusher with
    | emitting batch =>
      rw [isFlusher] at ran
      cases ran
      exact onOutput_sound sound (by rw [isFlusher]; rfl) (by simp [isFlusher]) rfl
        nofun
    | lastBatch batch =>
      rw [isFlusher] at ran
      cases ran
      have isLast : sys.flusher.IsLast := by
        rw [isFlusher]
        trivial
      exact onOutput_sound sound (by rw [isFlusher]; rfl) (by simp [isFlusher]) rfl
        fun _ => sound.last isLast
    | running | exited =>
      simp [isFlusher] at ran
  | join =>
    simp only [step] at ran
    split_ifs at ran with isReady
    cases ran
    have notSent := sound.notSent (by simp [isReady.1])
    exact ⟨⟨sound.pushed, sound.kept, sound.capped⟩, sound.count, nofun,
      fun _ => sound.isClosed (by simp [isReady.1]), sound.last, fun _ => isReady.2,
      fun _ => notSent, nofun⟩
  | emitExit code =>
    simp only [step] at ran
    split_ifs at ran with isJoined
    cases ran
    exact emitExit_sound sound isJoined code

theorem reachable_sound {sessionId : String}
    (reachable : Reachable step (.initial sessionId) sys) : Sound sys := by
  apply reachable.invariant
  · exact initial_sound sessionId
  · exact fun _ _ _ sound _ ran => step_sound sound ran

theorem Sound.exitLast (sound : Sound sys) : ExitLast sys where
  joined := by
    intro isJoined
    have isExited := sound.joinedExited isJoined
    have isLast : sys.flusher.IsLast := by
      rw [isExited]
      trivial
    have kept := sound.kept
    rw [isExited, Flusher.held, List.append_nil] at kept
    exact ⟨(sound.last isLast).2, kept⟩
  exit := by
    intro before after frame isHub isExit
    have notData : ¬∀ other ∈ sys.hub, other.kind = .data := by
      intro areData
      have isData := areData frame (by rw [isHub]; simp)
      simp [isExit] at isData
    have isSent : sys.reader = .exitSent := by
      by_contra notSent
      exact notData (sound.notSent notSent).2
    rcases sound.sent isSent with areData | ⟨earlier, last, isWhole, areData, _, isSeq⟩
    · exact absurd areData notData
    · rcases List.eq_nil_or_concat after with rfl | ⟨others, final, rfl⟩
      · obtain ⟨rfl, isLast⟩ := List.append_inj' (isHub.symm.trans isWhole) rfl
        injection isLast with isLast _
        subst isLast
        exact ⟨isSent, rfl, areData, isSeq.trans sound.count⟩
      · rw [List.concat_eq_append, ← List.cons_append, ← List.append_assoc] at isHub
        obtain ⟨rfl, _⟩ := List.append_inj' (isHub.symm.trans isWhole) rfl
        have isData := areData frame (by simp)
        simp [isExit] at isData

theorem output_drains {sessionId : String} {sys : System}
    (reachable : Reachable step (.initial sessionId) sys) :
    OrderKept sys ∧ ExitLast sys :=
  ⟨(reachable_sound reachable).toOrderKept, (reachable_sound reachable).exitLast⟩

/-- One read, a close and an exit. -/
def oneRead : List Label := [.push [0x41], .close, .flush, .onOutput, .join, .emitExit (some 0)]

theorem output_drains_oneRead : ∃ sys frame, sys.emitted = [[0x41]] ∧
    sys.hub.getLast? = some frame ∧ frame.kind = .exit ∧ frame.seq = 1 ∧
      OrderKept sys ∧ ExitLast sys := by
  obtain ⟨sys, replayed, isEmitted, frame, isFrame, isExit, isSeq⟩ :
      ∃ sys, AiTools.Lib.Transition.execute step (.initial "s1") oneRead = some sys ∧
        sys.emitted = [[0x41]] ∧ ∃ frame, sys.hub.getLast? = some frame ∧
          frame.kind = .exit ∧ frame.seq = 1 :=
    ⟨_, rfl, by decide +kernel, _, rfl, by decide +kernel, by decide +kernel⟩
  exact ⟨sys, frame, isEmitted, isFrame, isExit, isSeq,
    output_drains (AiTools.Lib.Transition.reachable_of_execute _ replayed)⟩

end AiTools.Daemon.Session.ExitOrder
