import Mathlib.Data.List.Basic

/-!
Contract: decoders that are fed a stream in pieces and pull frames from their buffer.
-/

namespace AiTools.Lib.FrameStream

variable {Byte Frame Failure : Type*}

/-- A pull: an error, nothing yet, or a frame and the bytes behind it. -/
abbrev Decoder (Byte Frame Failure : Type*) :=
  List Byte → Except Failure (Option (Frame × List Byte))

/-- What has been decided about a buffer stays decided when more bytes come. -/
structure Incremental (next : Decoder Byte Frame Failure) : Prop where
  consumes : ∀ {buffer frame rest}, next buffer = .ok (some (frame, rest)) →
    rest.length < buffer.length
  frame_append : ∀ {buffer frame rest}, next buffer = .ok (some (frame, rest)) →
    ∀ more, next (buffer ++ more) = .ok (some (frame, rest ++ more))
  error_append : ∀ {buffer failure}, next buffer = .error failure →
    ∀ more, next (buffer ++ more) = .error failure

inductive Call (Byte : Type*) where
  | feed (bytes : List Byte)
  | next

/-- What a run has yielded, with its first error, and the bytes it still holds. -/
structure Outcome (Byte Frame Failure : Type*) where
  frames : List Frame
  failure : Option Failure
  buffer : List Byte

def Outcome.initial : Outcome Byte Frame Failure := ⟨[], none, []⟩

def call (next : Decoder Byte Frame Failure) (outcome : Outcome Byte Frame Failure) :
    Call Byte → Outcome Byte Frame Failure
  | .feed bytes => { outcome with buffer := outcome.buffer ++ bytes }
  | .next =>
    match next outcome.buffer with
    | .error failure => { outcome with failure := outcome.failure.or (some failure) }
    | .ok none => outcome
    | .ok (some (frame, rest)) =>
      { outcome with frames := outcome.frames ++ [frame], buffer := rest }

def run (next : Decoder Byte Frame Failure) (calls : List (Call Byte)) :
    Outcome Byte Frame Failure :=
  calls.foldl (call next) .initial

def fed (calls : List (Call Byte)) : List Byte :=
  calls.flatMap fun
    | .feed bytes => bytes
    | .next => []

/-- The last pull yielded nothing, or an error. -/
def Outcome.Drained (next : Decoder Byte Frame Failure) (outcome : Outcome Byte Frame Failure) :
    Prop :=
  next outcome.buffer = .ok none ∨
    ∃ failure, next outcome.buffer = .error failure ∧ outcome.failure ≠ none

/-- The frames lie one after the other at the front of the bytes, and `rest` behind
them. -/
inductive Reads (next : Decoder Byte Frame Failure) : List Byte → List Frame → List Byte → Prop where
  | nil (bytes : List Byte) : Reads next bytes [] bytes
  | cons {bytes behind rest : List Byte} {frame : Frame} {frames : List Frame}
      (first : next bytes = .ok (some (frame, behind))) (later : Reads next behind frames rest) :
      Reads next bytes (frame :: frames) rest

variable {next : Decoder Byte Frame Failure}
variable {bytes rest : List Byte} {frames : List Frame} {outcome : Outcome Byte Frame Failure}

theorem Reads.concat {buffer : List Byte} {frame : Frame} (reads : Reads next bytes frames buffer)
    (last : next buffer = .ok (some (frame, rest))) :
    Reads next bytes (frames ++ [frame]) rest := by
  induction reads with
  | nil bytes => exact .cons last (.nil rest)
  | cons first _ ih => exact .cons first (ih last)

theorem Reads.append (incremental : Incremental next) (reads : Reads next bytes frames rest)
    (more : List Byte) :
    Reads next (bytes ++ more) frames (rest ++ more) := by
  induction reads with
  | nil bytes => exact .nil _
  | cons first _ ih =>
    exact .cons (incremental.frame_append first more) ih

/-- The decoder yields no frame. -/
def Stuck (next : Decoder Byte Frame Failure) (buffer : List Byte) : Prop :=
  ∀ frame rest, next buffer ≠ .ok (some (frame, rest))

theorem Reads.unique {buffer other : List Byte} {frames' : List Frame}
    (reads : Reads next bytes frames buffer) (stuck : Stuck next buffer)
    (reads' : Reads next bytes frames' other) (stuck' : Stuck next other) :
    frames = frames' ∧ buffer = other := by
  induction reads generalizing frames' with
  | nil bytes =>
    cases reads' with
    | nil => exact ⟨rfl, rfl⟩
    | cons first _ => exact absurd first (stuck _ _)
  | cons first _ ih =>
    cases reads' with
    | nil => exact absurd first (stuck' _ _)
    | cons first' later =>
      rw [first] at first'
      cases first'
      obtain ⟨sameFrames, sameBuffer⟩ := ih stuck later
      rw [sameFrames]
      exact ⟨rfl, sameBuffer⟩

/-- The frames of the run lie at the front of the bytes that were fed, and a recorded
error is the one that the buffer still gives. -/
structure Yields (next : Decoder Byte Frame Failure) (bytes : List Byte)
    (outcome : Outcome Byte Frame Failure) : Prop where
  reads : Reads next bytes outcome.frames outcome.buffer
  failed : ∀ {failure}, outcome.failure = some failure → next outcome.buffer = .error failure

theorem Yields.feed (incremental : Incremental next) (yields : Yields next bytes outcome)
    (more : List Byte) : Yields next (bytes ++ more) (call next outcome (.feed more)) where
  reads := yields.reads.append incremental more
  failed := fun isFailure => incremental.error_append (yields.failed isFailure) more

theorem Yields.pull (yields : Yields next bytes outcome) :
    Yields next bytes (call next outcome .next) := by
  unfold call
  dsimp only
  split
  · next failure isError =>
    refine ⟨yields.reads, ?_⟩
    intro recorded isRecorded
    dsimp only at isRecorded
    cases before : outcome.failure with
    | none =>
      rw [before] at isRecorded
      cases isRecorded
      exact isError
    | some earlier =>
      rw [before] at isRecorded
      cases isRecorded
      exact yields.failed before
  · exact yields
  · next frame rest isFrame =>
    refine ⟨yields.reads.concat isFrame, ?_⟩
    intro failure isFailure
    simp [yields.failed isFailure] at isFrame

theorem run_yields (incremental : Incremental next) (calls : List (Call Byte)) :
    Yields next (fed calls) (run next calls) := by
  have folded : ∀ (calls : List (Call Byte)) (bytes : List Byte)
      (outcome : Outcome Byte Frame Failure), Yields next bytes outcome →
        Yields next (bytes ++ fed calls) (calls.foldl (call next) outcome) := by
    intro calls
    induction calls with
    | nil =>
      intro bytes outcome yields
      rw [fed, List.flatMap_nil, List.append_nil]
      exact yields
    | cons first later ih =>
      intro bytes outcome yields
      rw [fed, List.flatMap_cons, List.foldl_cons, ← List.append_assoc]
      apply ih
      cases first with
      | feed more => exact yields.feed incremental more
      | next =>
        rw [List.append_nil]
        exact yields.pull
  exact folded calls [] .initial ⟨.nil [], fun isFailure => by cases isFailure⟩

theorem Outcome.Drained.stuck (drained : outcome.Drained next) : Stuck next outcome.buffer := by
  intro frame rest isFrame
  rcases drained with nothing | ⟨failure, isError, _⟩
  · simp [nothing] at isFrame
  · simp [isError] at isFrame

/-- The error that a pull gives. -/
def failureOf (next : Decoder Byte Frame Failure) (buffer : List Byte) : Option Failure :=
  match next buffer with
  | .error failure => some failure
  | .ok _ => none

theorem Yields.failure_eq (yields : Yields next bytes outcome) (drained : outcome.Drained next) :
    outcome.failure = failureOf next outcome.buffer := by
  unfold failureOf
  cases recorded : outcome.failure with
  | none =>
    rcases drained with nothing | ⟨failure, _, present⟩
    · rw [nothing]
    · exact absurd recorded present
  | some failure => rw [yields.failed recorded]

theorem run_eq_of_fed (incremental : Incremental next) {calls others : List (Call Byte)}
    (sameBytes : fed calls = fed others) (drained : (run next calls).Drained next)
    (drained' : (run next others).Drained next) : run next calls = run next others := by
  have yields := run_yields incremental calls
  have yields' := run_yields incremental others
  rw [← sameBytes] at yields'
  obtain ⟨sameFrames, sameBuffer⟩ :=
    yields.reads.unique drained.stuck yields'.reads drained'.stuck
  have sameFailure : (run next calls).failure = (run next others).failure := by
    rw [yields.failure_eq drained, yields'.failure_eq drained', sameBuffer]
  cases left : run next calls
  cases right : run next others
  rw [left, right] at sameFrames sameBuffer sameFailure
  dsimp only at sameFrames sameBuffer sameFailure
  rw [sameFrames, sameBuffer, sameFailure]

theorem run_of_reads (incremental : Incremental next) {calls : List (Call Byte)}
    (reads : Reads next (fed calls) frames rest) (nothing : next rest = .ok none)
    (drained : (run next calls).Drained next) :
    run next calls = ⟨frames, none, rest⟩ := by
  have yields := run_yields incremental calls
  have stuck : Stuck next rest := by
    intro frame behind isFrame
    simp [nothing] at isFrame
  obtain ⟨sameFrames, sameBuffer⟩ := yields.reads.unique drained.stuck reads stuck
  have noFailure := yields.failure_eq drained
  unfold failureOf at noFailure
  rw [sameBuffer, nothing] at noFailure
  cases outcome : run next calls
  rw [outcome] at sameFrames sameBuffer noFailure
  dsimp only at sameFrames sameBuffer noFailure
  rw [sameFrames, sameBuffer, noFailure]

theorem pulls_drain (incremental : Incremental next) (count : Nat) :
    ∀ outcome : Outcome Byte Frame Failure, outcome.buffer.length < count →
      ((List.replicate count Call.next).foldl (call next) outcome).Drained next := by
  have stays : ∀ (more : Nat) (outcome : Outcome Byte Frame Failure), outcome.Drained next →
      ((List.replicate more Call.next).foldl (call next) outcome).Drained next := by
    intro more
    induction more with
    | zero => exact fun _ drained => drained
    | succ more ih =>
      intro outcome drained
      rw [List.replicate_succ, List.foldl_cons]
      apply ih
      rcases drained with nothing | ⟨failure, isError, present⟩
      · left
        simp only [call, nothing]
      · right
        simp only [call, isError]
        exact ⟨failure, rfl, by simp⟩
  induction count with
  | zero => exact fun _ short => absurd short (Nat.not_lt_zero _)
  | succ count ih =>
    intro outcome short
    rw [List.replicate_succ, List.foldl_cons]
    cases pulled : next outcome.buffer with
    | error failure =>
      apply stays
      right
      simp only [call, pulled]
      exact ⟨failure, rfl, by simp⟩
    | ok found =>
      cases found with
      | none =>
        apply stays
        left
        simp only [call, pulled]
      | some framed =>
        apply ih
        simp only [call, pulled]
        have shorter := incremental.consumes pulled
        omega

theorem run_drains (incremental : Incremental next) (calls : List (Call Byte)) :
    ∃ count, (run next (calls ++ List.replicate count .next)).Drained next := by
  refine ⟨(run next calls).buffer.length + 1, ?_⟩
  unfold run
  rw [List.foldl_append]
  exact pulls_drain incremental _ _ (Nat.lt_succ_self _)

end AiTools.Lib.FrameStream
