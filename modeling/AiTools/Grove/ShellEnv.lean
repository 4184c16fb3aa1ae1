import AiTools.GitDiff.FileLines
import AiTools.Grove.EnvSync

/-!
Contract: the environment of a login shell, as it is captured from its output.
-/

namespace AiTools.Grove.ShellEnv

open AiTools.Lib.Space
open List (append_assoc append_nil cons_append count_append count_eq_zero dropLast_concat
  flatMap_cons flatten_cons length_append length_cons
  mem_append mem_cons mem_cons_self mem_map mem_singleton nil_append not_mem_nil prefix_append
  singleton_append)

/-- The capacities of the pipes, and the time limit in milliseconds. Without a pipe for it, the
standard error goes to `/dev/null`, and the exit status is not looked at. -/
structure Capture where
  stdout : Nat
  stderr : Option Nat
  limit : Nat
  positive : 0 < limit

def shellOutput (capacity : Nat) : Capture := ⟨capacity, some capacity, 15000, by decide⟩

inductive Act where
  | work
  | out (byte : UInt8)
  | err (byte : UInt8)

def outs (acts : List Act) : List UInt8 :=
  acts.filterMap fun | .out byte => some byte | _ => none

def errs (acts : List Act) : List UInt8 :=
  acts.filterMap fun | .err byte => some byte | _ => none

structure Shell where
  acts : List Act
  success : Bool

inductive Outcome where
  | output (bytes : List UInt8)
  | failed (bytes : List UInt8)
  | timedOut
deriving DecidableEq

/-- What is left for the shell to do, and what it has written. -/
structure State where
  rest : List Act
  out : List UInt8
  err : List UInt8
  elapsed : Nat
  outcome : Option Outcome

/-- A turn of the shell, a millisecond that passes, and a look of the parent. -/
inductive Moment where
  | turn
  | tick
  | poll
deriving DecidableEq

def started (shell : Shell) : State := ⟨shell.acts, [], [], 0, none⟩

namespace State

variable (capture : Capture)

/-- Nothing is read from the pipes, so a full one blocks the shell. -/
def turn (state : State) : State :=
  match state.rest with
  | [] => state
  | .work :: rest => { state with rest }
  | .out byte :: rest =>
    if state.out.length < capture.stdout then { state with rest, out := state.out ++ [byte] }
    else state
  | .err byte :: rest =>
    match capture.stderr with
    | none => { state with rest }
    | some capacity =>
      if state.err.length < capacity then { state with rest, err := state.err ++ [byte] }
      else state

/-- What is returned for a shell that has ended. -/
def ended (success : Bool) (state : State) : Outcome :=
  if capture.stderr.isSome && !success then .failed state.err else .output state.out

def poll (success : Bool) (state : State) : State :=
  if state.outcome.isSome then state
  else if state.rest = [] then { state with outcome := some (state.ended capture success) }
  else if capture.limit ≤ state.elapsed then { state with outcome := some .timedOut }
  else state

end State

def next (capture : Capture) (shell : Shell) (state : State) : Moment → State
  | .turn => state.turn capture
  | .tick => { state with elapsed := state.elapsed + 1 }
  | .poll => state.poll capture shell.success

def run (capture : Capture) (shell : Shell) (moments : List Moment) : State :=
  moments.foldl (next capture shell) (started shell)

/-- The whole of what the shell writes. -/
def whole (capture : Capture) (shell : Shell) : Outcome :=
  if capture.stderr.isSome && !shell.success then .failed (errs shell.acts)
  else .output (outs shell.acts)

/-- With drained pipes, every turn is an act. A shell that would have ended before the limit is
returned whole at the next look, whatever has happened in between. -/
def Captures (capture : Capture) (shell : Shell) : Prop :=
  ∀ before after : List Moment, before.count .tick < capture.limit →
    shell.acts.length ≤ before.count .turn →
    (run capture shell (before ++ after ++ [.poll])).outcome = some (whole capture shell)

/-- Both pipes hold all that is written to them. -/
def Holds (capture : Capture) (shell : Shell) : Prop :=
  (outs shell.acts).length ≤ capture.stdout ∧
    ∀ capacity, capture.stderr = some capacity → (errs shell.acts).length ≤ capacity

/-! ## When the pipes hold -/

theorem outs_append (done later : List Act) : outs (done ++ later) = outs done ++ outs later :=
  List.filterMap_append

theorem errs_append (done later : List Act) : errs (done ++ later) = errs done ++ errs later :=
  List.filterMap_append

/-- What the shell has done, and what it has written with that. -/
structure Written (capture : Capture) (shell : Shell) (state : State) (done : List Act) :
    Prop where
  acts : shell.acts = done ++ state.rest
  out : state.out = outs done
  err : capture.stderr ≠ none → state.err = errs done
  outHeld : state.out.length ≤ capture.stdout
  errHeld : ∀ capacity, capture.stderr = some capacity → state.err.length ≤ capacity

section
variable {capture : Capture} {shell : Shell} {state : State} {done : List Act}

theorem written_started : Written capture shell (started shell) [] :=
  ⟨rfl, rfl, fun _ => rfl, Nat.zero_le _, fun _ _ => Nat.zero_le _⟩

theorem Written.turn (written : Written capture shell state done) :
    ∃ next, Written capture shell (state.turn capture) next := by
  obtain ⟨isActs, isOut, isErr, outHeld, errHeld⟩ := written
  unfold State.turn
  cases isRest : state.rest with
  | nil => exact ⟨done, by rw [isActs], isOut, isErr, outHeld, errHeld⟩
  | cons act rest =>
    have isActs : shell.acts = (done ++ [act]) ++ rest := by
      rw [isActs, isRest, append_assoc, singleton_append]
    cases act with
    | work =>
      refine ⟨done ++ [.work], isActs, ?_, fun isPiped => ?_, outHeld, errHeld⟩
      · rw [outs_append]
        exact isOut.trans (append_nil _).symm
      · rw [errs_append]
        exact (isErr isPiped).trans (append_nil _).symm
    | out byte =>
      dsimp only
      split_ifs with hasRoom
      · refine ⟨done ++ [.out byte], isActs, ?_, fun isPiped => ?_, ?_, errHeld⟩
        · rw [outs_append, ← isOut]
          rfl
        · rw [errs_append]
          exact (isErr isPiped).trans (append_nil _).symm
        · rw [length_append]
          exact hasRoom
      · exact ⟨done, by rw [isActs, isRest, append_assoc, singleton_append], isOut,
          isErr, outHeld, errHeld⟩
    | err byte =>
      dsimp only
      cases isPiped : capture.stderr with
      | none =>
        refine ⟨done ++ [.err byte], isActs, ?_, absurd isPiped, outHeld,
          errHeld⟩
        rw [outs_append]
        exact isOut.trans (append_nil _).symm
      | some capacity =>
        have wasErr := isErr (by rw [isPiped]; exact Option.some_ne_none _)
        dsimp only
        split_ifs with hasRoom
        · refine ⟨done ++ [.err byte], isActs, ?_, fun _ => ?_, outHeld, fun other same => ?_⟩
          · rw [outs_append]
            exact isOut.trans (append_nil _).symm
          · rw [errs_append, ← wasErr]
            rfl
          · cases isPiped.symm.trans same
            rw [length_append]
            exact hasRoom
        · exact ⟨done, by rw [isActs, isRest, append_assoc, singleton_append],
            isOut, isErr, outHeld, errHeld⟩

theorem turn_elapsed : (state.turn capture).elapsed = state.elapsed := by
  unfold State.turn
  split
  · rfl
  · rfl
  · split_ifs <;> rfl
  · split
    · rfl
    · split_ifs <;> rfl

theorem turn_outcome : (state.turn capture).outcome = state.outcome := by
  unfold State.turn
  split
  · rfl
  · rfl
  · split_ifs <;> rfl
  · split
    · rfl
    · split_ifs <;> rfl

theorem poll_rest (success : Bool) : (state.poll capture success).rest = state.rest := by
  unfold State.poll
  split_ifs <;> rfl

theorem poll_elapsed (success : Bool) : (state.poll capture success).elapsed = state.elapsed := by
  unfold State.poll
  split_ifs <;> rfl

theorem Written.poll (written : Written capture shell state done) (success : Bool) :
    Written capture shell (state.poll capture success) done := by
  obtain ⟨isActs, isOut, isErr, outHeld, errHeld⟩ := written
  unfold State.poll
  split_ifs <;> exact ⟨isActs, isOut, isErr, outHeld, errHeld⟩

theorem Written.next (written : Written capture shell state done) (moment : Moment) :
    ∃ later, Written capture shell (next capture shell state moment) later := by
  cases moment with
  | turn => exact written.turn
  | tick =>
    exact ⟨done, written.acts, written.out, written.err, written.outHeld, written.errHeld⟩
  | poll => exact ⟨done, written.poll shell.success⟩

theorem run_concat (moments : List Moment) (moment : Moment) :
    run capture shell (moments ++ [moment]) =
      next capture shell (run capture shell moments) moment :=
  List.foldl_concat ..

theorem run_written (capture : Capture) (shell : Shell) (moments : List Moment) :
    ∃ done, Written capture shell (run capture shell moments) done := by
  induction moments using List.reverseRecOn with
  | nil => exact ⟨[], written_started⟩
  | append_singleton moments moment ih =>
    obtain ⟨done, written⟩ := ih
    rw [run_concat]
    exact written.next moment

theorem run_elapsed (capture : Capture) (shell : Shell) (moments : List Moment) :
    (run capture shell moments).elapsed = moments.count .tick := by
  induction moments using List.reverseRecOn with
  | nil => rfl
  | append_singleton moments moment ih =>
    rw [run_concat, count_append, ← ih]
    cases moment with
    | turn => exact turn_elapsed
    | tick => rfl
    | poll => exact poll_elapsed shell.success

theorem turn_rest (holds : Holds capture shell) (written : Written capture shell state done) :
    (state.turn capture).rest = state.rest.tail := by
  unfold State.turn
  cases isRest : state.rest with
  | nil => exact isRest
  | cons act rest =>
    have isActs := written.acts
    rw [isRest] at isActs
    cases act with
    | work => rfl
    | out byte =>
      have total : outs shell.acts = state.out ++ byte :: outs rest := by
        rw [isActs, outs_append, ← written.out]
        rfl
      have hasRoom : state.out.length < capture.stdout := by
        have held := holds.1
        rw [total, length_append, length_cons] at held
        omega
      dsimp only
      rw [if_pos hasRoom]
      rfl
    | err byte =>
      dsimp only
      cases isPiped : capture.stderr with
      | none => rfl
      | some capacity =>
        have total : errs shell.acts = state.err ++ byte :: errs rest := by
          rw [isActs, errs_append, ← written.err (by rw [isPiped]; simp)]
          rfl
        have hasRoom : state.err.length < capacity := by
          have held := holds.2 capacity isPiped
          rw [total, length_append, length_cons] at held
          omega
        dsimp only
        rw [if_pos hasRoom]
        rfl

theorem run_rest (holds : Holds capture shell) (moments : List Moment) :
    (run capture shell moments).rest = shell.acts.drop (moments.count .turn) := by
  induction moments using List.reverseRecOn with
  | nil => rfl
  | append_singleton moments moment ih =>
    obtain ⟨done, written⟩ := run_written capture shell moments
    rw [run_concat, count_append]
    cases moment with
    | turn =>
      show ((run capture shell moments).turn capture).rest = _
      rw [turn_rest holds written, ih, List.tail_drop]
      rfl
    | tick => exact ih
    | poll => exact (poll_rest shell.success).trans ih

theorem Written.whole (written : Written capture shell state done) (isEnd : state.rest = []) :
    state.ended capture shell.success = whole capture shell := by
  have isDone : shell.acts = done := by rw [written.acts, isEnd, append_nil]
  unfold ShellEnv.whole State.ended
  split_ifs with fails
  · have isPiped : capture.stderr ≠ none :=
      Option.isSome_iff_ne_none.mp (Bool.and_eq_true_iff.mp fails).1
    rw [written.err isPiped, isDone]
  · rw [written.out, isDone]

theorem poll_outcome (written : Written capture shell state done)
    (isWhole : state.outcome = none ∨ state.outcome = some (whole capture shell))
    (inTime : state.rest = [] ∨ state.elapsed < capture.limit) :
    (state.poll capture shell.success).outcome = none ∨
      (state.poll capture shell.success).outcome = some (whole capture shell) := by
  unfold State.poll
  split_ifs with isOver isEnd isLate
  · exact isWhole
  · exact .inr (congrArg some (written.whole isEnd))
  · rcases inTime with isEmpty | isEarly
    · exact absurd isEmpty isEnd
    · omega
  · exact isWhole

theorem poll_end (written : Written capture shell state done)
    (isWhole : state.outcome = none ∨ state.outcome = some (whole capture shell))
    (isEnd : state.rest = []) :
    (state.poll capture shell.success).outcome = some (whole capture shell) := by
  unfold State.poll
  rcases isWhole with isNone | isSome
  · rw [isNone, if_neg (by simp), if_pos isEnd]
    exact congrArg some (written.whole isEnd)
  · rw [if_pos (by rw [isSome]; rfl), isSome]

/-- Until the shell has ended, or the time is over, there is no other outcome than the whole. -/
theorem run_outcome (moments : List Moment)
    (inTime : ∀ front, front <+: moments →
      (run capture shell front).rest = [] ∨ front.count .tick < capture.limit) :
    (run capture shell moments).outcome = none ∨
      (run capture shell moments).outcome = some (whole capture shell) := by
  induction moments using List.reverseRecOn with
  | nil => exact .inl rfl
  | append_singleton moments moment ih =>
    have isWhole := ih fun front isFront =>
      inTime front (isFront.trans (prefix_append _ _))
    rw [run_concat]
    cases moment with
    | turn =>
      show ((run capture shell moments).turn capture).outcome = none ∨
        ((run capture shell moments).turn capture).outcome = some (whole capture shell)
      rw [turn_outcome]
      exact isWhole
    | tick => exact isWhole
    | poll =>
      obtain ⟨done, written⟩ := run_written capture shell moments
      refine poll_outcome written isWhole ?_
      rw [run_elapsed]
      exact inTime moments (prefix_append _ _)

theorem captures_of_holds (holds : Holds capture shell) : Captures capture shell := by
  intro before after isEarly allTurns
  have atEnd (moments : List Moment) (isLater : before <+: moments) :
      (run capture shell moments).rest = [] := by
    rw [run_rest holds]
    exact List.drop_eq_nil_of_le (Nat.le_trans allTurns (isLater.sublist.count_le _))
  have isWhole := @run_outcome capture shell (before ++ after)
    fun front isFront => by
      rcases List.prefix_or_prefix_of_prefix isFront (prefix_append before after) with
        isBefore | isLater
      · exact .inr (Nat.lt_of_le_of_lt (isBefore.sublist.count_le _) isEarly)
      · exact .inl (atEnd front isLater)
  obtain ⟨done, written⟩ := run_written capture shell (before ++ after)
  rw [run_concat]
  exact poll_end written isWhole (atEnd _ (prefix_append _ _))

theorem replicate_turn_outcome (count : Nat) :
    (run capture shell (List.replicate count .turn)).outcome = none := by
  induction count with
  | zero => rfl
  | succ count ih =>
    rw [List.replicate_succ', run_concat]
    exact turn_outcome.trans ih

theorem holds_of_captures (captures : Captures capture shell) : Holds capture shell := by
  have turns : (List.replicate shell.acts.length Moment.turn).count .turn = shell.acts.length :=
    List.count_replicate_self ..
  have noTicks : (List.replicate shell.acts.length Moment.turn).count .tick = 0 :=
    count_eq_zero.mpr fun isThere => by cases List.eq_of_mem_replicate isThere
  have captured := captures (List.replicate shell.acts.length .turn) []
    (by rw [noTicks]; exact capture.positive) (Nat.le_of_eq turns.symm)
  rw [append_nil, run_concat] at captured
  obtain ⟨done, written⟩ :=
    run_written capture shell (List.replicate shell.acts.length .turn)
  have isEnd : (run capture shell (List.replicate shell.acts.length .turn)).rest = [] := by
    by_contra notEnd
    have isNone : ((run capture shell (List.replicate shell.acts.length .turn)).poll capture
        shell.success).outcome = none := by
      have early : ¬ capture.limit ≤
          (run capture shell (List.replicate shell.acts.length .turn)).elapsed := by
        rw [run_elapsed, noTicks]
        exact Nat.not_le_of_lt capture.positive
      unfold State.poll
      rw [if_neg (by rw [replicate_turn_outcome]; simp), if_neg notEnd, if_neg early]
      exact replicate_turn_outcome _
    cases isNone.symm.trans captured
  have isDone : shell.acts = done := by rw [written.acts, isEnd, append_nil]
  constructor
  · rw [isDone, ← written.out]
    exact written.outHeld
  · intro capacity isPiped
    rw [isDone, ← written.err (by rw [isPiped]; exact Option.some_ne_none _)]
    exact written.errHeld capacity isPiped

end

theorem captures_iff (capture : Capture) (shell : Shell) :
    Captures capture shell ↔ Holds capture shell :=
  ⟨holds_of_captures, captures_of_holds⟩

abbrev Text := List Char

def envMarker : Text := "__GROVE_ENV__".toList

def shellEnvKeys : List Text :=
  ["PATH".toList, "SSH_AUTH_SOCK".toList, "GH_TOKEN_SENDBIRD".toList,
    "GH_TOKEN_SENDBIRD_PLAYGROUND".toList, "GH_TOKEN_RICH_AUTOMATION".toList]

abbrev Environment := Text → Option Text

/-- A command substitution takes the line feeds off the end. -/
def substituted (value : Option Text) : Text := (value.getD []).rdropWhile (· = '\n')

def printedLine (environment : Environment) (key : Text) : Text :=
  key ++ '=' :: substituted (environment key)

/-- What the snapshot command prints, with what the start-up files print around it. -/
def printed (environment : Environment) (before after : Text) : Text :=
  before ++ (envMarker ++ '\n' ::
    (shellEnvKeys.flatMap (fun key => printedLine environment key ++ ['\n']) ++
      (envMarker ++ '\n' :: after)))

def find (tag : Text) : Text → Option Nat
  | [] => if tag = [] then some 0 else none
  | char :: rest =>
    if tag.isPrefixOf (char :: rest) then some 0 else (find tag rest).map (· + 1)

def rfind (tag : Text) : Text → Option Nat
  | [] => if tag = [] then some 0 else none
  | char :: rest =>
    match rfind tag rest with
    | some index => some (index + 1)
    | none => if tag.isPrefixOf (char :: rest) then some 0 else none

def normalizeEnvValue (value : Text) : Option Text :=
  if trim value = [] then none else some (trim value)

def parseLine (line : Text) : Option (Text × Text) :=
  (EnvSync.splitOnce '=' line).bind fun parts =>
    (normalizeEnvValue parts.2).map fun value => (parts.1, value)

def parseLines (text : Text) : List (Text × Text) :=
  (GitDiff.FileLines.lines text).filterMap parseLine

/-- A later pair of the same key replaces an earlier one. -/
def collectPair (found : Environment) (pair : Text × Text) : Environment :=
  Function.update found pair.1 (some pair.2)

def collect (pairs : List (Text × Text)) : Environment := pairs.foldl collectPair fun _ => none

def parseEnvMarkerOutput (output : Text) : Environment :=
  let startTag := envMarker ++ ['\n']
  let endTag := '\n' :: envMarker
  match find startTag output with
  | none => fun _ => none
  | some index =>
    match rfind endTag output with
    | none => fun _ => none
    | some last =>
      if last ≤ index + startTag.length then fun _ => none
      else collect (parseLines ((output.take last).drop (index + startTag.length)))

/-- The values that are not blank, of the keys that are asked for. -/
def requested (environment : Environment) : Environment := fun key =>
  if key ∈ shellEnvKeys then (environment key).filter fun value => trim value ≠ [] else none

/-- Each value that is not blank is one line, with no space at its ends. -/
def OneLine (environment : Environment) : Prop :=
  ∀ key ∈ shellEnvKeys, ∀ value, environment key = some value → trim value ≠ [] →
    trim value = value ∧ '\n' ∉ value

variable {tag rest text line key value : Text} {environment : Environment}

theorem find_append (isTag : tag <+: rest) : ∀ before : Text,
    (∀ skipped later, before = skipped ++ later → later ≠ [] → ¬ tag <+: later ++ rest) →
      find tag (before ++ rest) = some before.length
  | [], _ => by
    cases rest with
    | nil => rw [List.prefix_nil.mp isTag]; rfl
    | cons char rest =>
      rw [nil_append, find, if_pos (List.isPrefixOf_iff_prefix.mpr isTag)]
      rfl
  | char :: before, isFirst => by
    have notHere : ¬ tag.isPrefixOf (char :: (before ++ rest)) = true := fun isHere =>
      isFirst [] (char :: before) rfl (by simp) (List.isPrefixOf_iff_prefix.mp isHere)
    rw [cons_append, find, if_neg notHere, find_append isTag before
      fun skipped later isSplit => isFirst (char :: skipped) later (by rw [isSplit]; rfl)]
    rfl

theorem rfind_none_of_not_infix (notEmpty : tag ≠ []) : ∀ {text : Text},
    ¬ tag <:+: text → rfind tag text = none
  | [], _ => if_neg notEmpty
  | char :: rest, notIn => by
    have notHere : ¬ tag.isPrefixOf (char :: rest) = true := fun isHere =>
      notIn (List.isPrefixOf_iff_prefix.mp isHere).isInfix
    rw [rfind, rfind_none_of_not_infix notEmpty fun isLater =>
      notIn (isLater.trans (List.suffix_cons char rest).isInfix)]
    exact if_neg notHere

theorem rfind_append {index : Nat} (isLast : rfind tag rest = some index) :
    ∀ before : Text, rfind tag (before ++ rest) = some (before.length + index)
  | [] => by rw [nil_append, isLast, List.length_nil, Nat.zero_add]
  | char :: before => by
    rw [cons_append, rfind, rfind_append isLast before, length_cons]
    exact congrArg some (by omega)

theorem rfind_skip {start : Char} (isNone : rfind (start :: tag) rest = none) :
    ∀ {before : Text}, start ∉ before → rfind (start :: tag) (before ++ rest) = none
  | [], _ => isNone
  | char :: before, isFree => by
    obtain ⟨differs, restFree⟩ := not_or.mp (mem_cons.not.mp isFree)
    have notHere : ¬ (start :: tag).isPrefixOf (char :: (before ++ rest)) = true := fun isHere =>
      differs (List.cons_prefix_cons.mp (List.isPrefixOf_iff_prefix.mp isHere)).1
    rw [cons_append, rfind, rfind_skip isNone restFree]
    exact if_neg notHere

section
variable {marker before after : Text}

theorem find_start (noFeed : '\n' ∉ marker) (notBefore : ¬ marker <:+: before) (rest : Text) :
    find (marker ++ ['\n']) (before ++ (marker ++ '\n' :: rest)) = some before.length := by
  refine find_append ⟨rest, by rw [append_assoc, singleton_append]⟩ before ?_
  intro skipped later isSplit notEmpty isTag
  have isMarker : marker <+: later ++ (marker ++ '\n' :: rest) :=
    (prefix_append marker ['\n']).trans isTag
  by_cases isShort : later.length ≤ marker.length
  · -- The line feed of the tag falls into the marker.
    have inMarker : (later ++ (marker ++ '\n' :: rest))[marker.length]? =
        marker[marker.length - later.length]? := by
      have isPositive := List.length_pos_iff.mpr notEmpty
      rw [List.getElem?_append_right isShort, List.getElem?_append_left (by omega)]
    have isFeed : (later ++ (marker ++ '\n' :: rest))[marker.length]? = some '\n' := by
      obtain ⟨tail, isTag⟩ := isTag
      rw [← isTag, append_assoc, List.getElem?_append_right (Nat.le_refl _), Nat.sub_self]
      rfl
    exact noFeed (List.mem_of_getElem? (inMarker.symm.trans isFeed))
  · refine notBefore ⟨skipped, later.drop marker.length, ?_⟩
    have isFront : later.take marker.length = marker := by
      have cut := List.prefix_iff_eq_take.mp isMarker
      rw [List.take_append_of_le_length (by omega)] at cut
      exact cut.symm
    rw [isSplit, append_assoc]
    congr 1
    calc marker ++ later.drop marker.length
        = later.take marker.length ++ later.drop marker.length := by rw [isFront]
      _ = later := List.take_append_drop _ _

theorem rfind_end (noFeed : '\n' ∉ marker) (notAfter : ¬ marker <:+: after) (front : Text) :
    rfind ('\n' :: marker) (front ++ '\n' :: (marker ++ '\n' :: after)) = some front.length := by
  have notLater : rfind ('\n' :: marker) (marker ++ '\n' :: after) = none := by
    refine rfind_skip ?_ noFeed
    have notIn : ¬ ('\n' :: marker) <:+: '\n' :: after := by
      intro isIn
      rcases List.infix_cons_iff.mp isIn with isHere | isLater
      · exact notAfter (List.cons_prefix_cons.mp isHere).2.isInfix
      · exact notAfter ((List.suffix_cons '\n' marker).isInfix.trans isLater)
    exact rfind_none_of_not_infix (List.cons_ne_nil _ _) notIn
  have isHere : rfind ('\n' :: marker) ('\n' :: (marker ++ '\n' :: after)) = some 0 := by
    rw [rfind, notLater]
    exact if_pos (List.isPrefixOf_iff_prefix.mpr ⟨'\n' :: after, rfl⟩)
  exact rfind_append isHere front

end

/-! ## The lines of a value -/

open GitDiff.FileLines (splitInclusive stripLineEnd lines)

theorem splitInclusive_append (front : Text) (back : Text) :
    splitInclusive (front ++ '\n' :: back) =
      splitInclusive (front ++ ['\n']) ++ splitInclusive back := by
  induction front with
  | nil => rfl
  | cons char rest ih =>
    rw [cons_append, cons_append, splitInclusive, splitInclusive, ih]
    split_ifs with isFeed
    · rfl
    · cases isSplit : splitInclusive (rest ++ ['\n']) with
      | nil =>
        cases rest with
        | nil => cases isSplit
        | cons other later =>
          rw [cons_append, splitInclusive] at isSplit
          split_ifs at isSplit
          split at isSplit <;> cases isSplit
      | cons line later => rfl

theorem splitInclusive_of_free : ∀ {line : Text}, '\n' ∉ line → line ≠ [] →
    splitInclusive line = [line] ∧ splitInclusive (line ++ ['\n']) = [line ++ ['\n']]
  | [], _, notEmpty => absurd rfl notEmpty
  | char :: rest, isFree, _ => by
    obtain ⟨differs, restFree⟩ := not_or.mp (mem_cons.not.mp isFree)
    rw [cons_append, splitInclusive, if_neg (Ne.symm differs), splitInclusive,
      if_neg (Ne.symm differs)]
    by_cases isEmpty : rest = []
    · subst isEmpty
      exact ⟨rfl, rfl⟩
    · obtain ⟨alone, ended⟩ := splitInclusive_of_free restFree isEmpty
      rw [alone, ended]
      exact ⟨rfl, rfl⟩

theorem flatten_splitInclusive : ∀ text : Text, (splitInclusive text).flatten = text
  | [] => rfl
  | char :: rest => by
    have ih := flatten_splitInclusive rest
    rw [splitInclusive]
    split_ifs
    · rw [flatten_cons, ih]
      rfl
    · split
      · rename_i isNil
        rw [isNil] at ih
        rw [← ih]
        rfl
      · rename_i line later isSplit
        rw [isSplit, flatten_cons] at ih
        rw [flatten_cons, cons_append, ih]

theorem dropLast_splitInclusive : ∀ {text line : Text}, line ∈ splitInclusive text →
    '\n' ∉ line.dropLast
  | [], _, isLine => absurd isLine not_mem_nil
  | char :: rest, line, isLine => by
    rw [splitInclusive] at isLine
    split_ifs at isLine with isFeed
    · rcases mem_cons.mp isLine with rfl | isLater
      · exact not_mem_nil
      · exact dropLast_splitInclusive isLater
    · split at isLine
      · rw [mem_singleton.mp isLine]
        exact not_mem_nil
      · rename_i first later isSplit
        rcases mem_cons.mp isLine with rfl | isLater
        · have firstFree : '\n' ∉ first.dropLast :=
            dropLast_splitInclusive (isSplit ▸ mem_cons_self)
          cases first with
          | nil => exact not_mem_nil
          | cons second others =>
            rw [List.dropLast_cons_cons]
            exact fun isIn => (mem_cons.mp isIn).elim (fun same => isFeed same.symm)
              firstFree
        · exact dropLast_splitInclusive (isSplit ▸ List.mem_cons_of_mem _ isLater)

theorem stripLineEnd_isPrefix (line : Text) : stripLineEnd line <+: line := by
  unfold stripLineEnd
  split_ifs
  · exact (List.dropLast_prefix _).trans (List.dropLast_prefix _)
  · exact List.dropLast_prefix _
  · exact List.prefix_refl _

theorem noFeed_of_mem_lines (isLine : line ∈ lines text) : '\n' ∉ line := by
  obtain ⟨whole, isWhole, rfl⟩ := mem_map.mp isLine
  have isFree := dropLast_splitInclusive isWhole
  unfold stripLineEnd
  split_ifs with isEnded isReturn
  · exact fun isIn => isFree ((List.dropLast_prefix _).mem isIn)
  · exact isFree
  · intro isIn
    have notEmpty : whole ≠ [] := List.ne_nil_of_mem isIn
    rw [← List.dropLast_append_getLast notEmpty] at isIn
    rcases mem_append.mp isIn with isFront | isLast
    · exact isFree isFront
    · refine isEnded ?_
      rw [List.getLast?_eq_some_getLast notEmpty, mem_singleton.mp isLast]

theorem infix_of_mem_lines (isLine : line ∈ lines text) : line <:+: text := by
  obtain ⟨whole, isWhole, rfl⟩ := mem_map.mp isLine
  obtain ⟨front, back, isSplit⟩ := List.append_of_mem isWhole
  refine (stripLineEnd_isPrefix whole).isInfix.trans ⟨front.flatten, back.flatten, ?_⟩
  have whole := flatten_splitInclusive text
  rw [isSplit, List.flatten_append, flatten_cons, ← append_assoc] at whole
  exact whole

/-- What comes back for a key. -/
def entry (environment : Environment) (key : Text) : List (Text × Text) :=
  (((environment key).filter fun value => trim value ≠ []).map fun value => (key, value)).toList

theorem parseLines_append (front back : Text) :
    parseLines (front ++ '\n' :: back) = parseLines (front ++ ['\n']) ++ parseLines back := by
  rw [parseLines, lines, splitInclusive_append, List.map_append, List.filterMap_append]
  rfl

theorem splitOnce_cases : ∀ {text front back : Text},
    EnvSync.splitOnce '=' text = some (front, back) → text = front ++ '=' :: back ∧ '=' ∉ front
  | [], _, _, isSplit => by cases isSplit
  | char :: rest, front, back, isSplit => by
    rw [EnvSync.splitOnce] at isSplit
    split_ifs at isSplit with isHere
    · cases isSplit
      exact ⟨by rw [isHere]; rfl, not_mem_nil⟩
    · obtain ⟨parts, isLater, same⟩ := Option.map_eq_some_iff.mp isSplit
      obtain ⟨isRest, isFree⟩ := splitOnce_cases isLater
      cases same
      exact ⟨by rw [isRest]; rfl, fun isIn =>
        (mem_cons.mp isIn).elim (fun same => isHere same.symm) isFree⟩

theorem parseLine_cases (isParsed : parseLine line = some (key, value)) :
    ∃ raw, line = key ++ '=' :: raw ∧ value = trim raw ∧ trim raw ≠ [] := by
  obtain ⟨parts, isSplit, isValue⟩ := Option.bind_eq_some_iff.mp isParsed
  obtain ⟨normalized, isNormalized, same⟩ := Option.map_eq_some_iff.mp isValue
  cases same
  rw [normalizeEnvValue] at isNormalized
  split_ifs at isNormalized with isBlank
  exact ⟨parts.2, (splitOnce_cases isSplit).1, (Option.some.inj isNormalized).symm, isBlank⟩

theorem parseLines_blank {spaces : Text} (keyFree : '=' ∉ key)
    (areSpaces : ∀ char ∈ spaces, isSpace char = true) (isText : text = key ++ '=' :: spaces) :
    parseLines text = [] := by
  refine List.filterMap_eq_nil_iff.mpr fun line isLine => ?_
  cases isParsed : parseLine line with
  | none => rfl
  | some pair =>
    obtain ⟨name, value⟩ := pair
    obtain ⟨raw, isRaw, _, notBlank⟩ := parseLine_cases isParsed
    obtain ⟨front, back, isWhole⟩ := infix_of_mem_lines isLine
    exfalso
    refine notBlank (trim_eq_nil_iff.mpr fun char isChar => ?_)
    have same : (front ++ name) ++ '=' :: (raw ++ back) = key ++ '=' :: spaces := by
      rw [← isText, ← isWhole, isRaw]
      simp
    have spacesFree : '=' ∉ spaces := fun isIn => absurd (areSpaces _ isIn) (by decide)
    have isTail : raw ++ back = spaces := by
      have firstSplit := EnvSync.splitOnce_append key keyFree spaces
      rw [← same] at firstSplit
      have frontFree : '=' ∉ front ++ name := by
        intro isIn
        obtain ⟨left, right, isSplit⟩ := List.append_of_mem isIn
        rw [isSplit] at same
        have count := congrArg (List.count '=') same
        rw [count_append, count_append, count_append, List.count_cons_self,
          List.count_cons_self, List.count_cons_self, count_eq_zero.mpr keyFree,
          count_eq_zero.mpr spacesFree] at count
        omega
      rw [EnvSync.splitOnce_append _ frontFree] at firstSplit
      exact (Prod.mk.inj (Option.some.inj firstSplit)).2
    exact areSpaces char (isTail ▸ List.mem_append_left _ isChar)

theorem keys_free : ∀ key ∈ shellEnvKeys, '=' ∉ key ∧ '\n' ∉ key ∧ key ≠ [] := by decide

theorem substituted_of_trim (isTrimmed : trim value = value) (notEmpty : value ≠ []) :
    substituted (some value) = value := by
  refine List.rdropWhile_eq_self_iff.mpr fun _ isFeed => ?_
  have notSpace := getLast_of_trim isTrimmed notEmpty
  have same : value.getLast notEmpty = '\n' := by simpa using isFeed
  rw [same] at notSpace
  exact absurd notSpace (by decide)

theorem parseLine_value (keyFree : '=' ∉ key) (isTrimmed : trim value = value)
    (notEmpty : value ≠ []) : parseLine (key ++ '=' :: value) = some (key, value) := by
  rw [parseLine, EnvSync.splitOnce_append key keyFree, Option.bind_some, normalizeEnvValue,
    isTrimmed, if_neg notEmpty]
  rfl

theorem stripLineEnd_value (key : Text) (isTrimmed : trim value = value) (notEmpty : value ≠ []) :
    stripLineEnd (key ++ '=' :: value) = key ++ '=' :: value ∧
      stripLineEnd (key ++ '=' :: value ++ ['\n']) = key ++ '=' :: value := by
  have isLast : (key ++ '=' :: value).getLast? = some (value.getLast notEmpty) := by
    rw [List.getLast?_append, List.getLast?_cons_of_ne_nil notEmpty,
      List.getLast?_eq_some_getLast notEmpty]
    rfl
  have notSpace := getLast_of_trim isTrimmed notEmpty
  have differs (char : Char) (space : isSpace char = true) :
      (key ++ '=' :: value).getLast? ≠ some char := by
    intro same
    rw [isLast] at same
    simp [Option.some.inj same, space] at notSpace
  constructor
  · exact if_neg (differs '\n' (by decide))
  · unfold stripLineEnd
    rw [List.getLast?_concat, if_pos rfl, dropLast_concat]
    exact if_neg (differs '\r' (by decide))

theorem parseLines_printedLine (oneLine : OneLine environment) (isKey : key ∈ shellEnvKeys) :
    parseLines (printedLine environment key) = entry environment key ∧
      parseLines (printedLine environment key ++ ['\n']) = entry environment key := by
  obtain ⟨keyFree, noFeed, _⟩ := keys_free key isKey
  rw [printedLine, entry]
  cases isSet : environment key with
  | none =>
    have feedSpace : ∀ char ∈ ['\n'], isSpace char = true := by
      intro char isFeed
      rw [mem_singleton.mp isFeed]
      decide
    have noSpaces : ∀ char ∈ ([] : Text), isSpace char = true := by simp
    have isNil : substituted none = [] := rfl
    rw [isNil]
    exact ⟨parseLines_blank keyFree noSpaces rfl, parseLines_blank keyFree feedSpace (by simp)⟩
  | some value =>
    by_cases isBlank : trim value = []
    · have areSpaces : ∀ char ∈ substituted (some value), isSpace char = true :=
        fun char isChar => trim_eq_nil_iff.mp isBlank char
          ((List.rdropWhile_prefix _ _).mem isChar)
      have isEntry : ((some value).filter fun value => decide (trim value ≠ [])) = none := by
        simp [isBlank]
      rw [isEntry]
      have withFeed : ∀ char ∈ substituted (some value) ++ ['\n'], isSpace char = true := by
        intro char isChar
        rcases mem_append.mp isChar with isValue | isFeed
        · exact areSpaces char isValue
        · rw [mem_singleton.mp isFeed]
          decide
      exact ⟨parseLines_blank keyFree areSpaces rfl, parseLines_blank keyFree withFeed (by simp)⟩
    · obtain ⟨isTrimmed, valueFree⟩ := oneLine key isKey value isSet isBlank
      have notEmpty : value ≠ [] := fun isEmpty => isBlank (by rw [isEmpty]; rfl)
      have isEntry : ((some value).filter fun value => decide (trim value ≠ [])) =
          some value := by simp [isBlank]
      have lineFree : '\n' ∉ key ++ '=' :: value := by
        intro isIn
        rcases mem_append.mp isIn with isIn | isIn
        · exact noFeed isIn
        · exact (mem_cons.mp isIn).elim (fun same => absurd same (by decide)) valueFree
      obtain ⟨alone, ended⟩ := splitInclusive_of_free lineFree (by simp)
      obtain ⟨stripped, strippedEnd⟩ := stripLineEnd_value key isTrimmed notEmpty
      rw [isEntry, substituted_of_trim isTrimmed notEmpty, parseLines, parseLines, lines, lines,
        alone, ended]
      simp only [List.map_cons, List.map_nil, stripped, strippedEnd, List.filterMap_cons,
        List.filterMap_nil, parseLine_value keyFree isTrimmed notEmpty]
      exact ⟨rfl, rfl⟩

theorem parseLines_keys (oneLine : OneLine environment) :
    ∀ (key : Text) (keys : List Text), (∀ each ∈ key :: keys, each ∈ shellEnvKeys) →
      parseLines (((key :: keys).flatMap fun key =>
          printedLine environment key ++ ['\n']).dropLast) =
        (key :: keys).flatMap (entry environment)
  | key, [], areKeys => by
    rw [List.flatMap_singleton, List.flatMap_singleton, dropLast_concat]
    exact (parseLines_printedLine oneLine (areKeys key mem_cons_self)).1
  | key, second :: keys, areKeys => by
    have ih := parseLines_keys oneLine second keys fun each isThere =>
      areKeys each (List.mem_cons_of_mem _ isThere)
    have notEmpty : ((second :: keys).flatMap fun key =>
        printedLine environment key ++ ['\n']) ≠ [] := by simp
    have isSplit : ((key :: second :: keys).flatMap fun key =>
        printedLine environment key ++ ['\n']) = (printedLine environment key ++ ['\n']) ++
          ((second :: keys).flatMap fun key => printedLine environment key ++ ['\n']) :=
      flatMap_cons
    have areEntries : (key :: second :: keys).flatMap (entry environment) =
        entry environment key ++ (second :: keys).flatMap (entry environment) :=
      flatMap_cons
    rw [isSplit, areEntries, List.dropLast_append_of_ne_nil notEmpty, append_assoc,
      singleton_append, parseLines_append, ih,
      (parseLines_printedLine oneLine (areKeys key mem_cons_self)).2]

theorem foldl_entry (environment : Environment) (name : Text) :
    ∀ (keys : List Text) (found : Environment),
      (keys.flatMap (entry environment)).foldl collectPair found name = if name ∈ keys then
          ((environment name).filter fun value => trim value ≠ []).or (found name)
        else found name
  | [], found => rfl
  | key :: keys, found => by
    rw [flatMap_cons, List.foldl_append, foldl_entry environment name keys, entry]
    by_cases same : name = key
    · subst same
      rw [if_pos mem_cons_self]
      cases isKept : (environment name).filter fun value => decide (trim value ≠ []) with
      | none => simp
      | some value => simp [collectPair]
    · have isMember : (name ∈ key :: keys) ↔ name ∈ keys := by simp [same]
      simp only [isMember]
      cases isKept : (environment key).filter fun value => decide (trim value ≠ []) with
      | none => rfl
      | some value =>
        have isOther : collectPair found (key, value) name = found name :=
          Function.update_of_ne same _ _
        simp [isOther]

theorem mem_of_collect {name : Text} : ∀ {pairs : List (Text × Text)},
    collect pairs name = some value → (name, value) ∈ pairs := by
  intro pairs
  induction pairs using List.reverseRecOn with
  | nil => exact nofun
  | append_singleton pairs pair ih =>
    intro isFound
    rw [collect, List.foldl_concat, collectPair] at isFound
    by_cases same : name = pair.1
    · subst same
      rw [Function.update_self] at isFound
      cases isFound
      exact List.mem_append_right _ mem_cons_self
    · rw [Function.update_of_ne same] at isFound
      exact List.mem_append_left _ (ih isFound)

theorem requested_eq (environment : Environment) :
    collect (shellEnvKeys.flatMap (entry environment)) = requested environment := by
  funext name
  rw [collect, foldl_entry, requested, Option.or_none]

theorem parsed_oneLine (isFound : collect (parseLines text) key = some value) :
    trim value = value ∧ '\n' ∉ value := by
  obtain ⟨line, isLine, isParsed⟩ := List.mem_filterMap.mp (mem_of_collect isFound)
  obtain ⟨raw, isRaw, rfl, _⟩ := parseLine_cases isParsed
  refine ⟨trim_trim raw, fun isIn => noFeed_of_mem_lines isLine ?_⟩
  rw [isRaw]
  exact List.mem_append_right _ (List.mem_cons_of_mem _ (mem_of_mem_trim isIn))

/-- What the start-up files print. -/
structure Noise where
  text : Text
  free : ¬ envMarker <:+: text

def body (environment : Environment) : Text :=
  shellEnvKeys.flatMap fun key => printedLine environment key ++ ['\n']

theorem body_eq (environment : Environment) : (body environment).dropLast ≠ [] ∧
      body environment = (body environment).dropLast ++ ['\n'] := by
  have isBody : body environment = (shellEnvKeys.dropLast.flatMap fun key =>
      printedLine environment key ++ ['\n']) ++
        printedLine environment "GH_TOKEN_RICH_AUTOMATION".toList ++ ['\n'] := by
    have areKeys : shellEnvKeys =
        shellEnvKeys.dropLast ++ ["GH_TOKEN_RICH_AUTOMATION".toList] := rfl
    rw [body]
    conv_lhs => rw [areKeys]
    rw [List.flatMap_append, List.flatMap_singleton, append_assoc]
  constructor
  · rw [isBody, dropLast_concat]
    simp [printedLine]
  · conv_rhs => rw [isBody, dropLast_concat]
    exact isBody

theorem parse_printed (environment : Environment) (before after : Noise) :
    parseEnvMarkerOutput (printed environment before.text after.text) =
      collect (parseLines (body environment).dropLast) := by
  have noFeed : '\n' ∉ envMarker := by decide
  obtain ⟨notEmpty, isBody⟩ := body_eq environment
  have isPrinted : printed environment before.text after.text =
      (before.text ++ (envMarker ++ '\n' :: (body environment).dropLast)) ++
        '\n' :: (envMarker ++ '\n' :: after.text) := by
    rw [printed, ← body]
    conv_lhs => rw [isBody]
    simp only [append_assoc, cons_append, nil_append]
  have isStart : find (envMarker ++ ['\n']) (printed environment before.text after.text) =
      some before.text.length := find_start noFeed before.free _
  have isEnd : rfind ('\n' :: envMarker) (printed environment before.text after.text) =
      some (before.text ++ (envMarker ++ '\n' :: (body environment).dropLast)).length := by
    rw [isPrinted]
    exact rfind_end noFeed after.free _
  have isLater : ¬ (before.text ++ (envMarker ++ '\n' :: (body environment).dropLast)).length ≤
      before.text.length + (envMarker ++ ['\n']).length := by
    have isPositive := List.length_pos_iff.mpr notEmpty
    simp only [length_append, length_cons, List.length_nil]
    omega
  have isFront : before.text ++ (envMarker ++ '\n' :: (body environment).dropLast) =
      (before.text ++ (envMarker ++ ['\n'])) ++ (body environment).dropLast := by
    simp only [append_assoc, singleton_append]
  rw [parseEnvMarkerOutput, isStart, isEnd]
  dsimp only
  rw [if_neg isLater, isPrinted, List.take_left, isFront, ← length_append, List.drop_left]

theorem parses_iff (environment : Environment) (before after : Noise) :
    parseEnvMarkerOutput (printed environment before.text after.text) = requested environment ↔
      OneLine environment := by
  rw [parse_printed]
  constructor
  · intro same key isKey value isSet notBlank
    have isRequested : requested environment key = some value := by
      rw [requested, if_pos isKey, isSet]
      simp [notBlank]
    exact parsed_oneLine ((congrFun same key).trans isRequested)
  · intro oneLine
    rw [body, shellEnvKeys, parseLines_keys oneLine _ _ fun _ isThere => isThere]
    exact requested_eq environment

/-- The output comes back whole exactly when the pipes hold it, and the values come back exactly
when each is on one line. -/
theorem capture_iff (capture : Capture) (shell : Shell) (environment : Environment)
    (before after : Noise) :
    (Captures capture shell ↔ Holds capture shell) ∧
      (parseEnvMarkerOutput (printed environment before.text after.text) =
        requested environment ↔ OneLine environment) :=
  ⟨captures_iff capture shell, parses_iff environment before after⟩

def silence : Noise := ⟨[], by decide⟩

/-- A token whose second line looks like another key. -/
def twoLines : Environment := fun key =>
  if key = "PATH".toList then some "/bin\nSSH_AUTH_SOCK=/tmp/other".toList else none

/-- A shell that writes one byte more than the pipe holds. -/
def loudShell : Shell := ⟨List.replicate 65537 (.out 0), true⟩

theorem length_outs_replicate (byte : UInt8) (count : Nat) :
    (outs (List.replicate count (.out byte))).length = count := by
  induction count with
  | zero => rfl
  | succ count ih => exact congrArg Nat.succ ih

theorem not_captures : (¬ ∀ shell, Captures (shellOutput 65536) shell) ∧
    ¬ ∀ (environment : Environment) (before after : Noise),
      parseEnvMarkerOutput (printed environment before.text after.text) =
        requested environment := by
  constructor
  · intro always
    have held := ((captures_iff _ _).mp (always loudShell)).1
    rw [loudShell, length_outs_replicate] at held
    exact absurd held (by decide)
  · intro always
    have oneLine := (parses_iff _ silence silence).mp (always twoLines silence silence)
    have isLine := (oneLine "PATH".toList (by decide) _ rfl (by decide)).2
    exact isLine (by decide)

end AiTools.Grove.ShellEnv
