import AiTools.Lib.Space
import AiTools.Lib.Transition
import Mathlib

/-!
Contract: the sync of ignored files into a worktree, by way of `git check-ignore`.

Owns the exchange over the two pipes, byte by byte, for the very lines that the call sends, and the
reading of the answers: a record is cut at its first tab and behind its second colon.

Does not own what git prints and matches (`Git`), what is in the file system (`isFile`), or the
copying itself; a call that returns an error has no outcome here.
-/

namespace AiTools.Grove.EnvSync

open AiTools.Lib.Space AiTools.Lib.Transition
open Nat (le_of_not_lt le_succ_of_le zero_le)

/-- The capacities of the pipes. -/
structure Pipes where
  stdin : Nat
  stdout : Nat
  stdinHolds : 0 < stdin
  stdoutHolds : 0 < stdout

/-- The lengths of each line and of its answer. -/
structure Exchange extends Pipes where
  lines : List (Nat × Nat)
  notEmpty : ∀ line ∈ lines, 0 < line.1

namespace Exchange

variable (exchange : Exchange)

def inBytes (count : Nat) : Nat := ((exchange.lines.take count).map Prod.fst).sum

def outBytes (count : Nat) : Nat := ((exchange.lines.take count).map Prod.snd).sum

def count : Nat := exchange.lines.length

def total : Nat := exchange.inBytes exchange.count

end Exchange

/-- The bytes that have been written and read on either side, and the lines that the child has read
to their end. -/
structure State where
  written : Nat
  read : Nat
  line : Nat
  wrote : Nat
  taken : Nat

def started : State := ⟨0, 0, 0, 0, 0⟩

inductive Label where
  | parentWrites
  | parentReads
  | childReads
  | childWrites

/-- The parent reads once it has written all. The child reads once it has answered. -/
def step (exchange : Exchange) (state : State) : Label → Option State
  | .parentWrites =>
    if state.written < exchange.total ∧ state.written < state.read + exchange.stdin then
      some { state with written := state.written + 1 }
    else none
  | .parentReads =>
    if state.written = exchange.total ∧ state.taken < state.wrote then
      some { state with taken := state.taken + 1 }
    else none
  | .childReads =>
    if state.wrote = exchange.outBytes state.line ∧ state.line < exchange.count ∧
        state.read < state.written then
      some { state with
        read := state.read + 1
        line := if state.read + 1 = exchange.inBytes (state.line + 1) then state.line + 1
          else state.line }
    else none
  | .childWrites =>
    if state.wrote < exchange.outBytes state.line ∧ state.wrote < state.taken + exchange.stdout then
      some { state with wrote := state.wrote + 1 }
    else none

def Finished (exchange : Exchange) (state : State) : Prop :=
  state.written = exchange.total ∧ state.line = exchange.count ∧
    state.wrote = exchange.outBytes exchange.count ∧ state.taken = state.wrote

/-- Neither side can go on. -/
def Waits (exchange : Exchange) (state : State) : Prop :=
  ∀ label, step exchange state label = none

def Deadlocks (exchange : Exchange) : Prop :=
  ∃ state, Reachable (step exchange) started state ∧ Waits exchange state ∧ ¬Finished exchange state

/-- At the first line up to which the answers fill the pipe, more is left than the other pipe
holds. -/
def Overflows (exchange : Exchange) : Prop :=
  ∃ line ≤ exchange.count, exchange.stdout < exchange.outBytes line ∧
    (∀ before < line, exchange.outBytes before ≤ exchange.stdout) ∧
      exchange.inBytes line + exchange.stdin < exchange.total

section
variable (exchange : Exchange) {line : Nat}

theorem take_succ (isLine : line < exchange.count) :
    exchange.lines.take (line + 1) = exchange.lines.take line ++ [exchange.lines[line]] :=
  (List.take_concat_get' exchange.lines line isLine).symm

theorem inBytes_succ (isLine : line < exchange.count) :
    exchange.inBytes line < exchange.inBytes (line + 1) := by
  have isPositive := exchange.notEmpty _ (List.getElem_mem isLine)
  unfold Exchange.inBytes
  rw [take_succ exchange isLine, List.map_append, List.sum_append, List.map_singleton,
    List.sum_singleton]
  omega

theorem inBytes_mono : Monotone exchange.inBytes := by
  refine monotone_nat_of_le_succ fun line => ?_
  by_cases isLine : line < exchange.count
  · exact Nat.le_of_lt (inBytes_succ exchange isLine)
  · unfold Exchange.inBytes
    rw [List.take_of_length_le (le_of_not_lt isLine),
      List.take_of_length_le (le_succ_of_le (le_of_not_lt isLine))]

theorem outBytes_mono : Monotone exchange.outBytes := by
  refine monotone_nat_of_le_succ fun line => ?_
  by_cases isLine : line < exchange.count
  · unfold Exchange.outBytes
    rw [take_succ exchange isLine, List.map_append, List.sum_append]
    exact Nat.le_add_right _ _
  · unfold Exchange.outBytes
    rw [List.take_of_length_le (le_of_not_lt isLine),
      List.take_of_length_le (le_succ_of_le (le_of_not_lt isLine))]

end

/-! ## What holds in every state -/

structure Fits (exchange : Exchange) (state : State) : Prop where
  written : state.written ≤ exchange.total
  read : state.read ≤ state.written
  held : state.written ≤ state.read + exchange.stdin
  line : state.line ≤ exchange.count
  lineRead : exchange.inBytes state.line ≤ state.read
  lineNext : state.line < exchange.count → state.read < exchange.inBytes (state.line + 1)
  wrote : state.wrote ≤ exchange.outBytes state.line
  answering : state.wrote < exchange.outBytes state.line → state.read = exchange.inBytes state.line
  answered : ∀ before < state.line, exchange.outBytes before ≤ state.wrote
  taken : state.taken ≤ state.wrote
  full : state.wrote ≤ state.taken + exchange.stdout
  untaken : state.written < exchange.total → state.taken = 0

section
variable {exchange : Exchange} {state next : State}

theorem started_fits : Fits exchange started where
  written := zero_le _
  read := Nat.le_refl _
  held := zero_le _
  line := zero_le _
  lineRead := Nat.le_refl _
  lineNext := fun isLine => Nat.lt_of_le_of_lt (zero_le _) (inBytes_succ exchange isLine)
  wrote := zero_le _
  answering := fun _ => rfl
  answered := fun _ isBefore => absurd isBefore (Nat.not_lt_zero _)
  taken := Nat.le_refl _
  full := zero_le _
  untaken := fun _ => rfl

theorem Fits.childReads (fits : Fits exchange state)
    (hasAnswered : state.wrote = exchange.outBytes state.line)
    (isLine : state.line < exchange.count) (hasBytes : state.read < state.written) :
    Fits exchange { state with
      read := state.read + 1
      line := if state.read + 1 = exchange.inBytes (state.line + 1) then state.line + 1
        else state.line } := by
  have isNext := fits.lineNext isLine
  have outNext := outBytes_mono exchange (Nat.le_succ state.line)
  have held := fits.held
  have lineRead := fits.lineRead
  split_ifs with isEnd
  · refine ⟨fits.written, hasBytes, by dsimp only; omega, isLine, Nat.le_of_eq isEnd.symm,
      fun isLater => ?_, hasAnswered ▸ outNext, fun _ => isEnd, fun before isBefore => ?_,
      fits.taken, fits.full, fits.untaken⟩
    · exact isEnd ▸ inBytes_succ exchange isLater
    · exact hasAnswered ▸ outBytes_mono exchange (Nat.le_of_lt_succ isBefore)
  · refine ⟨fits.written, hasBytes, by dsimp only; omega, fits.line, by dsimp only; omega,
      fun _ => by dsimp only; omega, fits.wrote, fun isLess => ?_, fits.answered, fits.taken,
      fits.full, fits.untaken⟩
    exact absurd hasAnswered (Nat.ne_of_lt isLess)

/-- What a step does, whoever takes it. -/
inductive Moves (exchange : Exchange) (state : State) : State → Prop where
  | parentWrites (isLess : state.written < exchange.total)
      (hasRoom : state.written < state.read + exchange.stdin) :
      Moves exchange state { state with written := state.written + 1 }
  | parentReads (hasWritten : state.written = exchange.total)
      (isWaiting : state.taken < state.wrote) :
      Moves exchange state { state with taken := state.taken + 1 }
  | childReads (hasAnswered : state.wrote = exchange.outBytes state.line)
      (isLine : state.line < exchange.count) (hasBytes : state.read < state.written) :
      Moves exchange state { state with
        read := state.read + 1
        line := if state.read + 1 = exchange.inBytes (state.line + 1) then state.line + 1
          else state.line }
  | childWrites (isAnswering : state.wrote < exchange.outBytes state.line)
      (hasRoom : state.wrote < state.taken + exchange.stdout) :
      Moves exchange state { state with wrote := state.wrote + 1 }

theorem step_moves {label : Label} (ran : step exchange state label = some next) :
    Moves exchange state next := by
  cases label with
  | parentWrites =>
    obtain ⟨may, isNext⟩ := Option.ite_none_right_eq_some.mp ran
    cases isNext
    exact .parentWrites may.1 may.2
  | parentReads =>
    obtain ⟨may, isNext⟩ := Option.ite_none_right_eq_some.mp ran
    cases isNext
    exact .parentReads may.1 may.2
  | childReads =>
    obtain ⟨may, isNext⟩ := Option.ite_none_right_eq_some.mp ran
    cases isNext
    exact .childReads may.1 may.2.1 may.2.2
  | childWrites =>
    obtain ⟨may, isNext⟩ := Option.ite_none_right_eq_some.mp ran
    cases isNext
    exact .childWrites may.1 may.2

theorem Moves.fits (moves : Moves exchange state next) (fits : Fits exchange state) :
    Fits exchange next := by
  have read := fits.read
  have taken := fits.taken
  have full := fits.full
  cases moves with
  | parentWrites isLess hasRoom =>
    exact { fits with
      written := isLess
      read := le_succ_of_le read
      held := hasRoom
      untaken := fun _ => fits.untaken isLess }
  | parentReads hasWritten isWaiting =>
    exact { fits with
      taken := isWaiting
      full := by dsimp only; omega
      untaken := fun isLess => absurd hasWritten (Nat.ne_of_lt isLess) }
  | childReads hasAnswered isLine hasBytes => exact fits.childReads hasAnswered isLine hasBytes
  | childWrites isAnswering hasRoom =>
    exact { fits with
      wrote := isAnswering
      answering := fun isLess => fits.answering (Nat.lt_of_succ_lt isLess)
      answered := fun before isBefore => le_succ_of_le (fits.answered before isBefore)
      taken := le_succ_of_le taken
      full := hasRoom }

theorem reachable_fits (reachable : Reachable (EnvSync.step exchange) started state) :
    Fits exchange state :=
  reachable.invariant started_fits fun _ _ _ fits _ ran => (step_moves ran).fits fits

theorem not_of_isNone {may : Prop} [Decidable may] {after : State}
    (isNone : (if may then some after else none) = none) : ¬may := fun isTrue => by
  rw [if_pos isTrue] at isNone
  cases isNone

theorem Waits.overflows (waits : Waits exchange state) (fits : Fits exchange state)
    (notFinished : ¬Finished exchange state) : Overflows exchange := by
  have stdinHolds := exchange.stdinHolds
  have stdoutHolds := exchange.stdoutHolds
  have written := fits.written
  have read := fits.read
  have lineRead := fits.lineRead
  have wrote := fits.wrote
  have full := fits.full
  have taken := fits.taken
  have noWrite : ¬(state.written < exchange.total ∧
      state.written < state.read + exchange.stdin) :=
    not_of_isNone (waits .parentWrites)
  have noRead : ¬(state.written = exchange.total ∧ state.taken < state.wrote) :=
    not_of_isNone (waits .parentReads)
  have noLine : ¬(state.wrote = exchange.outBytes state.line ∧ state.line < exchange.count ∧
      state.read < state.written) :=
    not_of_isNone (waits .childReads)
  have noAnswer : ¬(state.wrote < exchange.outBytes state.line ∧
      state.wrote < state.taken + exchange.stdout) :=
    not_of_isNone (waits .childWrites)
  have notAll : state.line < exchange.count → state.read < exchange.total := fun isLine =>
    Nat.lt_of_lt_of_le (fits.lineNext isLine) (inBytes_mono exchange isLine)
  have atEnd : ¬state.line < exchange.count → state.line = exchange.count := fun isEnd =>
    Nat.le_antisymm fits.line (le_of_not_lt isEnd)
  have allRead : state.line = exchange.count → exchange.total ≤ state.read := fun isEnd => by
    rw [isEnd] at lineRead
    exact lineRead
  by_cases hasWritten : state.written = exchange.total
  · exfalso
    have allTaken : state.taken = state.wrote := by omega
    have hasAnswered : state.wrote = exchange.outBytes state.line := by omega
    by_cases isLine : state.line < exchange.count
    · have isRead := notAll isLine
      exact noLine ⟨hasAnswered, isLine, by omega⟩
    · have isEnd := atEnd isLine
      exact notFinished ⟨hasWritten, isEnd, isEnd ▸ hasAnswered, allTaken⟩
  · have isLess : state.written < exchange.total := by omega
    have noTaken := fits.untaken isLess
    have isAnswering : state.wrote < exchange.outBytes state.line := by
      by_contra hasAnswered
      by_cases isLine : state.line < exchange.count
      · exact noLine ⟨by omega, isLine, by omega⟩
      · have isRead := allRead (atEnd isLine)
        omega
    have atLine := fits.answering isAnswering
    refine ⟨state.line, fits.line, by omega, fun before isBefore => ?_, by omega⟩
    have isAnswered := fits.answered before isBefore
    omega

theorem stays_before {line : Nat} (isFull : exchange.stdout < exchange.outBytes line)
    (isLong : exchange.inBytes line + exchange.stdin < exchange.total)
    (reachable : Reachable (EnvSync.step exchange) started state) :
    state.written < exchange.total ∧ state.line ≤ line := by
  have both : Fits exchange state ∧ state.written < exchange.total ∧ state.line ≤ line := by
    induction reachable with
    | refl => exact ⟨started_fits, Nat.lt_of_le_of_lt (zero_le _) isLong, zero_le _⟩
    | @tail state next label before _ ran ih =>
      obtain ⟨fits, isLess, isBefore⟩ := ih
      have moves := step_moves ran
      refine ⟨moves.fits fits, ?_⟩
      have noTaken := fits.untaken isLess
      have full := fits.full
      have notAnswered : state.line = line → state.wrote < exchange.outBytes state.line :=
        fun isLine => by
          rw [isLine]
          omega
      have isRead : state.read ≤ exchange.inBytes line := by
        rcases Nat.lt_or_eq_of_le isBefore with isLater | isLine
        · by_cases isCount : state.line < exchange.count
          · exact Nat.le_trans (Nat.le_of_lt (fits.lineNext isCount))
              (inBytes_mono exchange isLater)
          · have atEnd := inBytes_mono exchange
              (Nat.le_trans (le_of_not_lt isCount) isBefore)
            have read := fits.read
            have isTotal : exchange.total ≤ exchange.inBytes line := atEnd
            omega
        · exact Nat.le_of_eq (isLine ▸ fits.answering (notAnswered isLine))
      cases moves with
      | parentWrites => exact ⟨by dsimp only; omega, isBefore⟩
      | parentReads hasWritten => exact absurd hasWritten (Nat.ne_of_lt isLess)
      | childReads hasAnswered =>
        refine ⟨isLess, ?_⟩
        have notLine : state.line ≠ line := fun isLine =>
          absurd hasAnswered (Nat.ne_of_lt (notAnswered isLine))
        dsimp only
        split_ifs <;> omega
      | childWrites => exact ⟨isLess, isBefore⟩
  exact both.2

/-- The bytes that have still to go over the pipes. -/
def remaining (exchange : Exchange) (state : State) : Nat :=
  (exchange.total - state.written) + (exchange.total - state.read) +
    (exchange.outBytes exchange.count - state.wrote) +
      (exchange.outBytes exchange.count - state.taken)

theorem Moves.remaining_lt (moves : Moves exchange state next) (fits : Fits exchange state) :
    remaining exchange next < remaining exchange state := by
  have nextFits := moves.fits fits
  have written := nextFits.written
  have read := nextFits.read
  have wrote := nextFits.wrote
  have taken := nextFits.taken
  have allOut := outBytes_mono exchange nextFits.line
  unfold remaining
  cases moves <;> dsimp only at written read wrote taken allOut ⊢ <;> omega

theorem reaches_waits (bound : Nat) : ∀ state : State,
    Reachable (EnvSync.step exchange) started state → remaining exchange state ≤ bound →
      ∃ last, Reachable (EnvSync.step exchange) started last ∧ Waits exchange last := by
  induction bound with
  | zero =>
    intro state reachable isBound
    refine ⟨state, reachable, fun label => ?_⟩
    cases ran : EnvSync.step exchange state label with
    | none => rfl
    | some next =>
      have isLess := (step_moves ran).remaining_lt (reachable_fits reachable)
      omega
  | succ bound ih =>
    intro state reachable isBound
    by_cases waits : Waits exchange state
    · exact ⟨state, reachable, waits⟩
    · obtain ⟨label, mayStep⟩ := not_forall.mp waits
      obtain ⟨next, ran⟩ := Option.ne_none_iff_exists'.mp mayStep
      have isLess := (step_moves ran).remaining_lt (reachable_fits reachable)
      exact ih next (.tail label reachable trivial ran) (by omega)

theorem deadlocks_iff (exchange : Exchange) : Deadlocks exchange ↔ Overflows exchange := by
  constructor
  · rintro ⟨state, reachable, waits, notFinished⟩
    exact waits.overflows (reachable_fits reachable) notFinished
  · rintro ⟨line, _, isFull, _, isLong⟩
    obtain ⟨last, reachable, waits⟩ := reaches_waits (remaining exchange started) started .refl
      (Nat.le_refl (remaining exchange started))
    refine ⟨last, reachable, waits, fun finished => ?_⟩
    have isLess := (stays_before isFull isLong reachable).1
    exact absurd finished.1 (Nat.ne_of_lt isLess)

end

/-! ## The answers -/

/-- What `git check-ignore -v` finds for a path. -/
structure Match where
  source : List Char
  lineNumber : List Char
  pattern : List Char

def Match.rule (found : Match) : List Char :=
  found.source ++ ':' :: (found.lineNumber ++ ':' :: found.pattern)

/-- `shown` is how git prints a path: in quotes, when it has bytes that git does not print. `named`
is the path that a line of the input names. -/
structure Git where
  shown : List Char → List Char
  named : List Char → List Char
  matchOf : List Char → Option Match

/-- A path that no pattern matches has no record. -/
def Git.answer (git : Git) (line : List Char) : Option (List Char) :=
  (git.matchOf (git.named line)).map fun found => found.rule ++ '\t' :: git.shown (git.named line)

def splitOnce (separator : Char) : List Char → Option (List Char × List Char)
  | [] => none
  | c :: rest =>
    if c = separator then some ([], rest)
    else (splitOnce separator rest).map fun parts => (c :: parts.1, parts.2)

def hasDots : List Char → Bool
  | '.' :: '.' :: _ => true
  | _ :: rest => hasDots rest
  | [] => false

/-- What is behind the second colon. -/
def patternOf (rulePart : List Char) : List Char :=
  match (splitOnce ':' rulePart).bind fun parts => splitOnce ':' parts.2 with
  | some parts => trim parts.2
  | none => []

/-- The file that is copied for a line of the answers. -/
def copiedFor (includePatterns : List (List Char)) (isFile : List Char → Bool)
    (line : List Char) : Option (List Char) :=
  match splitOnce '\t' line with
  | none => none
  | some (rulePart, path) =>
    let relPath := trim path
    if relPath = [] ∨ hasDots relPath then none
    else if ∀ included ∈ includePatterns, included ≠ patternOf rulePart then none
    else if isFile relPath then some relPath else none

/-- The files for `git check-ignore`. -/
def filesOf (lines : List (List Char)) : List (List Char) :=
  (lines.map trim).filter fun line => line ≠ [] && !hasDots line

/-- The files that are copied, each under its own path, when there is no error. -/
def syncEnvFiles (includePatterns : List (List Char)) (isFile : List Char → Bool) (git : Git)
    (ignored : List (List Char)) : List (List Char) :=
  if includePatterns = [] then []
  else
    ((filesOf (ignored.map git.shown)).filterMap git.answer).filterMap
      (copiedFor includePatterns isFile)

/-! ### The exchange of a call -/

def bytes (text : List Char) : Nat := (text.map Char.utf8Size).sum

def Git.answerBytes (git : Git) (line : List Char) : Nat :=
  match git.answer line with
  | some record => bytes record + 1
  | none => 0

/-- The lines are joined: there is no line feed behind the last one. -/
def Git.linesFor (git : Git) : List (List Char) → List (Nat × Nat)
  | [] => []
  | [line] => [(bytes line, git.answerBytes line)]
  | line :: next :: rest => (bytes line + 1, git.answerBytes line) :: git.linesFor (next :: rest)

theorem bytes_pos {text : List Char} (notEmpty : text ≠ []) : 0 < bytes text := by
  obtain ⟨c, rest, rfl⟩ := List.exists_cons_of_ne_nil notEmpty
  have isPositive := Char.utf8Size_pos c
  unfold bytes
  rw [List.map_cons, List.sum_cons]
  omega

theorem linesFor_notEmpty (git : Git) (files : List (List Char))
    (notEmpty : ∀ line ∈ files, line ≠ []) : ∀ line ∈ git.linesFor files, 0 < line.1 := by
  fun_induction Git.linesFor with
  | case1 => exact fun _ isIn => absurd isIn List.not_mem_nil
  | case2 last =>
    intro line isIn
    rw [List.mem_singleton.mp isIn]
    exact bytes_pos (notEmpty last List.mem_cons_self)
  | case3 first next rest ih =>
    intro line isIn
    rcases List.mem_cons.mp isIn with rfl | isIn
    · exact Nat.succ_pos _
    · exact ih (fun other isOther => notEmpty other (List.mem_cons_of_mem _ isOther)) line isIn

theorem filesOf_notEmpty {lines : List (List Char)} : ∀ line ∈ filesOf lines, line ≠ [] := by
  intro line isIn
  have isKept := (List.mem_filter.mp isIn).2
  rw [Bool.and_eq_true] at isKept
  exact of_decide_eq_true isKept.1

/-- What the call sends, and what it gets. -/
def exchangeOf (pipes : Pipes) (git : Git) (ignored : List (List Char)) : Exchange where
  toPipes := pipes
  lines := git.linesFor (filesOf (ignored.map git.shown))
  notEmpty := linesFor_notEmpty git _ filesOf_notEmpty

theorem exchangeOf_lines (pipes : Pipes) (git : Git) (ignored : List (List Char)) :
    (exchangeOf pipes git ignored).lines = git.linesFor (filesOf (ignored.map git.shown)) :=
  rfl

/-- The call gets to the exchange when there is a pattern and a file. -/
def SyncDeadlocks (pipes : Pipes) (includePatterns : List (List Char)) (git : Git)
    (ignored : List (List Char)) : Prop :=
  includePatterns ≠ [] ∧ filesOf (ignored.map git.shown) ≠ [] ∧
    Deadlocks (exchangeOf pipes git ignored)

theorem syncDeadlocks_iff (pipes : Pipes) (includePatterns : List (List Char)) (git : Git)
    (ignored : List (List Char)) :
    SyncDeadlocks pipes includePatterns git ignored ↔
      includePatterns ≠ [] ∧ Overflows (exchangeOf pipes git ignored) := by
  constructor
  · rintro ⟨hasPatterns, _, deadlocks⟩
    exact ⟨hasPatterns, (deadlocks_iff _).mp deadlocks⟩
  · rintro ⟨hasPatterns, overflows⟩
    refine ⟨hasPatterns, fun noFiles => ?_, (deadlocks_iff _).mpr overflows⟩
    obtain ⟨line, _, isFull, _⟩ := overflows
    have noLines : (exchangeOf pipes git ignored).lines = [] := by
      rw [exchangeOf_lines, noFiles, Git.linesFor]
    have noAnswers : (exchangeOf pipes git ignored).outBytes line = 0 := by
      unfold Exchange.outBytes
      rw [noLines, List.take_nil]
      rfl
    omega

/-! ### What a record says -/

/-- The text behind the second colon, without blanks at its ends; none, when there is no second
colon. -/
inductive Behind : List Char → List Char → Prop where
  | second {front number back : List Char} (frontFree : ':' ∉ front) (numberFree : ':' ∉ number) :
      Behind (front ++ ':' :: (number ++ ':' :: back)) (trim back)
  | short {rule : List Char} (few : rule.count ':' < 2) : Behind rule []

/-- A record, cut at its first tab. -/
def Cut (record text path : List Char) : Prop :=
  ∃ rule rest, record = rule ++ '\t' :: rest ∧ '\t' ∉ rule ∧ Behind rule text ∧ trim rest = path

/-- The line of a listed path is sent, git answers it, and the record has this text and path. -/
def Reads (git : Git) (path text relPath : List Char) : Prop :=
  (trim (git.shown path) ≠ [] ∧ hasDots (trim (git.shown path)) = false) ∧
    (∃ record, git.answer (trim (git.shown path)) = some record ∧ Cut record text relPath) ∧
      relPath ≠ [] ∧ hasDots relPath = false

/-- A regular file whose pattern is included. -/
def Selected (includePatterns : List (List Char)) (isFile : List Char → Bool) (git : Git)
    (path : List Char) : Prop :=
  (∃ found, git.matchOf path = some found ∧ found.pattern ∈ includePatterns) ∧ isFile path = true

instance (includePatterns : List (List Char)) (isFile : List Char → Bool) (git : Git) :
    DecidablePred (Selected includePatterns isFile git) := fun path =>
  match isMatch : git.matchOf path with
  | some found =>
    decidable_of_iff ((∃ included ∈ includePatterns, included = found.pattern) ∧
        isFile path = true) (by
      unfold Selected
      rw [isMatch]
      simp)
  | none => isFalse fun selected => by
    obtain ⟨⟨found, isFound, _⟩, _⟩ := selected
    rw [isMatch] at isFound
    cases isFound

/-- The record of a selected path has that path and an included text; that of another path has a
text that is not included, or names no file. -/
def Handled (includePatterns : List (List Char)) (isFile : List Char → Bool) (git : Git)
    (path : List Char) : Prop :=
  if Selected includePatterns isFile git path then
    ∃ text ∈ includePatterns, Reads git path text path
  else ∀ text ∈ includePatterns, ∀ relPath, Reads git path text relPath → isFile relPath = false

theorem splitOnce_append {separator : Char} (front : List Char) (isFree : separator ∉ front)
    (back : List Char) : splitOnce separator (front ++ separator :: back) = some (front, back) := by
  induction front with
  | nil =>
    rw [List.nil_append, splitOnce, if_pos rfl]
  | cons c rest ih =>
    obtain ⟨isOther, restFree⟩ := not_or.mp (List.mem_cons.not.mp isFree)
    rw [List.cons_append, splitOnce, if_neg (Ne.symm isOther), ih restFree]
    rfl

theorem splitOnce_free {separator : Char} (text : List Char) (isFree : separator ∉ text) :
    splitOnce separator text = none := by
  induction text with
  | nil => rfl
  | cons c rest ih =>
    obtain ⟨isOther, restFree⟩ := not_or.mp (List.mem_cons.not.mp isFree)
    rw [splitOnce, if_neg (Ne.symm isOther), ih restFree]
    rfl

/-- The cut at the first separator, when there is one. -/
theorem exists_cut (separator : Char) (text : List Char) :
    separator ∉ text ∨ ∃ front back, text = front ++ separator :: back ∧ separator ∉ front := by
  by_cases isIn : separator ∈ text
  · obtain ⟨front, back, rfl, isFree⟩ := List.eq_append_cons_of_mem isIn
    exact Or.inr ⟨front, back, rfl, isFree⟩
  · exact Or.inl isIn

theorem count_free {text : List Char} (isFree : ':' ∉ text) : text.count ':' = 0 :=
  List.count_eq_zero.mpr isFree

theorem behind_iff {rule text : List Char} : Behind rule text ↔ patternOf rule = text := by
  constructor
  · intro behind
    cases behind with
    | second frontFree numberFree =>
      unfold patternOf
      rw [splitOnce_append _ frontFree, Option.bind_some, splitOnce_append _ numberFree]
    | short few =>
      unfold patternOf
      rcases exists_cut ':' rule with isFree | ⟨front, back, rfl, frontFree⟩
      · rw [splitOnce_free rule isFree]
        rfl
      · have backFree : ':' ∉ back := by
          rw [List.count_append, List.count_cons_self, count_free frontFree] at few
          exact List.count_eq_zero.mp (by omega)
        rw [splitOnce_append _ frontFree, Option.bind_some, splitOnce_free back backFree]
  · rintro rfl
    unfold patternOf
    rcases exists_cut ':' rule with isFree | ⟨front, back, rfl, frontFree⟩
    · rw [splitOnce_free rule isFree]
      exact .short (by rw [count_free isFree]; decide)
    · rw [splitOnce_append _ frontFree, Option.bind_some]
      rcases exists_cut ':' back with isFree | ⟨number, last, rfl, numberFree⟩
      · rw [splitOnce_free back isFree]
        exact .short (by
          rw [List.count_append, List.count_cons_self, count_free frontFree, count_free isFree]
          decide)
      · rw [splitOnce_append _ numberFree]
        exact .second frontFree numberFree

section
variable {includePatterns : List (List Char)} {isFile : List Char → Bool} {git : Git}
  {path relPath : List Char}

theorem copiedFor_iff {record : List Char} :
    copiedFor includePatterns isFile record = some relPath ↔
      ∃ text ∈ includePatterns, Cut record text relPath ∧
        (relPath ≠ [] ∧ hasDots relPath = false) ∧ isFile relPath = true := by
  rcases exists_cut '\t' record with isFree | ⟨rule, rest, rfl, ruleFree⟩
  · unfold copiedFor
    rw [splitOnce_free record isFree]
    refine ⟨fun isSome => absurd isSome.symm (Option.some_ne_none _), ?_⟩
    rintro ⟨_, _, ⟨rule, rest, rfl, _⟩, _⟩
    exact absurd (List.mem_append_right rule List.mem_cons_self) isFree
  · have isCut : ∀ text path : List Char, Cut (rule ++ '\t' :: rest) text path ↔
        patternOf rule = text ∧ trim rest = path := by
      intro text path
      constructor
      · rintro ⟨front, back, isSame, frontFree, isBehind, rfl⟩
        have isSplit := splitOnce_append rule ruleFree rest
        rw [isSame, splitOnce_append front frontFree back] at isSplit
        cases isSplit
        exact ⟨behind_iff.mp isBehind, rfl⟩
      · rintro ⟨isText, isPath⟩
        exact ⟨rule, rest, rfl, ruleFree, behind_iff.mpr isText, isPath⟩
    unfold copiedFor
    rw [splitOnce_append rule ruleFree rest]
    dsimp only
    simp only [isCut]
    constructor
    · intro isSome
      split_ifs at isSome with isLeft notIncluded isThere
      cases isSome
      push Not at notIncluded
      obtain ⟨_, isIncluded, isText⟩ := notIncluded
      exact ⟨_, isIncluded, ⟨isText.symm, rfl⟩,
        ⟨fun isEmpty => isLeft (Or.inl isEmpty),
          Bool.eq_false_iff.mpr fun dots => isLeft (Or.inr dots)⟩, isThere⟩
    · rintro ⟨_, isIncluded, ⟨rfl, rfl⟩, ⟨notEmpty, noDots⟩, isThere⟩
      rw [if_neg, if_neg (fun none => none _ isIncluded rfl), if_pos isThere]
      rintro (isEmpty | dots)
      · exact notEmpty isEmpty
      · rw [noDots] at dots
        cases dots

theorem syncEnvFiles_cons (ignored : List (List Char)) :
    syncEnvFiles includePatterns isFile git (path :: ignored) =
      syncEnvFiles includePatterns isFile git [path] ++
        syncEnvFiles includePatterns isFile git ignored := by
  unfold syncEnvFiles filesOf
  split_ifs
  · rfl
  · rw [← List.filterMap_append, ← List.filterMap_append, ← List.filter_append, ← List.map_append,
      ← List.map_append]
    rfl

theorem mem_syncEnvFiles_singleton :
    relPath ∈ syncEnvFiles includePatterns isFile git [path] ↔
      ∃ text ∈ includePatterns, Reads git path text relPath ∧ isFile relPath = true := by
  unfold syncEnvFiles filesOf Reads
  split_ifs with noPatterns
  · simp [noPatterns]
  · simp only [List.map_cons, List.map_nil, List.mem_filterMap, List.mem_filter, List.mem_singleton,
      Bool.and_eq_true, Bool.not_eq_true', decide_eq_true_eq, copiedFor_iff]
    constructor
    · rintro ⟨record, ⟨line, ⟨rfl, isSent⟩, isRecord⟩, text, isIncluded, isCut, isPath, isThere⟩
      exact ⟨text, isIncluded, ⟨isSent, ⟨record, isRecord, isCut⟩, isPath⟩, isThere⟩
    · rintro ⟨text, isIncluded, ⟨isSent, ⟨record, isRecord, isCut⟩, isPath⟩, isThere⟩
      exact ⟨record, ⟨_, ⟨rfl, isSent⟩, isRecord⟩, text, isIncluded, isCut, isPath, isThere⟩

theorem syncEnvFiles_length_le :
    (syncEnvFiles includePatterns isFile git [path]).length ≤ 1 := by
  unfold syncEnvFiles
  split_ifs
  · exact zero_le _
  · exact (List.length_filterMap_le _ _).trans ((List.length_filterMap_le _ _).trans
      ((List.length_filter_le _ _).trans (Nat.le_of_eq rfl)))

theorem eq_singleton_iff {files : List (List Char)} (isShort : files.length ≤ 1) :
    files = [relPath] ↔ relPath ∈ files := by
  match files, isShort with
  | [], _ => simp
  | [file], _ => simp [eq_comm]

theorem filter_unselected (notSelected : ¬Selected includePatterns isFile git path) :
    [path].filter (Selected includePatterns isFile git) = [] :=
  List.filter_eq_nil_iff.mpr fun other isIn => by
    rw [List.mem_singleton.mp isIn]
    exact fun isSelected => notSelected (of_decide_eq_true isSelected)

theorem handled_iff :
    syncEnvFiles includePatterns isFile git [path] =
      [path].filter (Selected includePatterns isFile git) ↔
        Handled includePatterns isFile git path := by
  unfold Handled
  split_ifs with isSelected
  · have isKept : [path].filter (Selected includePatterns isFile git) = [path] :=
      List.filter_eq_self.mpr fun other isIn => by
        rw [List.mem_singleton.mp isIn]
        exact decide_eq_true isSelected
    rw [isKept, eq_singleton_iff syncEnvFiles_length_le, mem_syncEnvFiles_singleton]
    simp only [isSelected.2, and_true]
  · rw [filter_unselected isSelected, List.eq_nil_iff_forall_not_mem]
    simp only [mem_syncEnvFiles_singleton, not_exists, not_and, Bool.not_eq_true]
    exact forall_comm.trans (forall_congr' fun text => forall_comm)

theorem copies_iff (ignored : List (List Char)) :
    (∀ path ∈ ignored, syncEnvFiles includePatterns isFile git [path] =
        [path].filter (Selected includePatterns isFile git)) ↔
      ∀ path ∈ ignored, Handled includePatterns isFile git path :=
  forall_congr' fun _ => forall_congr' fun _ => handled_iff

theorem syncEnvFiles_each (ignored : List (List Char))
    (each : ∀ path ∈ ignored, syncEnvFiles includePatterns isFile git [path] =
      [path].filter (Selected includePatterns isFile git)) :
    syncEnvFiles includePatterns isFile git ignored =
      ignored.filter (Selected includePatterns isFile git) := by
  induction ignored with
  | nil =>
    unfold syncEnvFiles
    split_ifs <;> rfl
  | cons path rest ih =>
    rw [syncEnvFiles_cons, each path List.mem_cons_self,
      ih fun other isIn => each other (List.mem_cons_of_mem _ isIn), ← List.filter_append]
    rfl

/-- A path that git prints as it is, and whose match has no separator where none is looked for. -/
structure Plain (git : Git) (path : List Char) : Prop where
  shown : git.shown path = path
  named : git.named path = path
  trimmed : trim path = path
  notEmpty : path ≠ []
  noDots : hasDots path = false
  found : ∀ found, git.matchOf path = some found →
    '\t' ∉ found.rule ∧ ':' ∉ found.source ∧ ':' ∉ found.lineNumber ∧
      trim found.pattern = found.pattern

theorem Plain.reads (plain : Plain git path) {text : List Char} (relPath : List Char) :
    Reads git path text relPath ↔
      relPath = path ∧ ∃ found, git.matchOf path = some found ∧ found.pattern = text := by
  unfold Reads Git.answer
  rw [plain.shown, plain.trimmed, plain.named, plain.shown]
  cases isMatch : git.matchOf path with
  | none => simp
  | some found =>
    obtain ⟨noTab, sourceFree, numberFree, isTrimmed⟩ := plain.found found isMatch
    have isBehind : patternOf found.rule = found.pattern := by
      unfold patternOf Match.rule
      rw [splitOnce_append _ sourceFree, Option.bind_some, splitOnce_append _ numberFree]
      exact isTrimmed
    constructor
    · rintro ⟨_, ⟨record, isRecord, rule, rest, isCut, ruleFree, behind, rfl⟩, _⟩
      cases isRecord
      have isSplit := splitOnce_append found.rule noTab path
      dsimp only at isCut
      rw [isCut, splitOnce_append rule ruleFree rest] at isSplit
      cases isSplit
      exact ⟨plain.trimmed, found, rfl, isBehind.symm.trans (behind_iff.mp behind)⟩
    · rintro ⟨rfl, _, isFound, rfl⟩
      cases isFound
      exact ⟨⟨plain.notEmpty, plain.noDots⟩, ⟨_, rfl, found.rule, relPath, rfl, noTab,
        behind_iff.mpr isBehind, plain.trimmed⟩, plain.notEmpty, plain.noDots⟩

theorem Plain.handled (plain : Plain git path) : Handled includePatterns isFile git path := by
  unfold Handled
  split_ifs with isSelected
  · obtain ⟨⟨found, isFound, isIncluded⟩, _⟩ := isSelected
    exact ⟨_, isIncluded, (plain.reads path).mpr ⟨rfl, found, isFound, rfl⟩⟩
  · intro text isIncluded relPath reads
    obtain ⟨rfl, found, isFound, rfl⟩ := (plain.reads relPath).mp reads
    exact Bool.eq_false_iff.mpr fun isThere => isSelected ⟨⟨found, isFound, isIncluded⟩, isThere⟩

end

theorem sync_holds (pipes : Pipes) (includePatterns : List (List Char))
    (isFile : List Char → Bool) (git : Git) (ignored : List (List Char)) :
    (¬SyncDeadlocks pipes includePatterns git ignored ↔
      includePatterns = [] ∨ ¬Overflows (exchangeOf pipes git ignored)) ∧
    ((∀ path ∈ ignored, syncEnvFiles includePatterns isFile git [path] =
        [path].filter (Selected includePatterns isFile git)) ↔
      ∀ path ∈ ignored, Handled includePatterns isFile git path) ∧
    ((∀ path ∈ ignored, Handled includePatterns isFile git path) →
      syncEnvFiles includePatterns isFile git ignored =
        ignored.filter (Selected includePatterns isFile git)) := by
  refine ⟨?_, copies_iff ignored, fun handled => ?_⟩
  · rw [syncDeadlocks_iff, not_and_or, not_not]
  · exact syncEnvFiles_each ignored ((copies_iff ignored).mpr handled)

def plainGit : Git :=
  ⟨id, id, fun _ => some ⟨".gitignore".toList, "1".toList, "*.env".toList⟩⟩

def pipes : Pipes := ⟨65536, 65536, by decide, by decide⟩

theorem sync_holds_plain :
    syncEnvFiles ["*.env".toList] (fun _ => true) plainGit ["a.env".toList, "b/c.env".toList] =
      ["a.env".toList, "b/c.env".toList].filter
        (Selected ["*.env".toList] (fun _ => true) plainGit) := by
  refine (sync_holds pipes ["*.env".toList] (fun _ => true) plainGit
    ["a.env".toList, "b/c.env".toList]).2.2 fun path isIn => Plain.handled ?_
  have eachPlain : ∀ found, plainGit.matchOf path = some found → '\t' ∉ found.rule ∧
      ':' ∉ found.source ∧ ':' ∉ found.lineNumber ∧ trim found.pattern = found.pattern := by
    rintro _ ⟨⟩
    decide
  rcases List.mem_cons.mp isIn with rfl | isIn
  · exact ⟨rfl, rfl, by decide, by decide, by decide, eachPlain⟩
  · rw [List.mem_singleton] at isIn
    subst isIn
    exact ⟨rfl, rfl, by decide, by decide, by decide, eachPlain⟩

/-! ### Four thousand files -/

/-- A name of 31 letters. -/
def nameOf (number : Nat) : List Char :=
  (List.range 31).map fun bit => if number.testBit bit then 'b' else 'a'

def manyFiles : List (List Char) := (List.range 4000).map nameOf

def lettersGit : Git :=
  ⟨id, id, fun _ => some ⟨".gitignore".toList, "1".toList, "[ab]*".toList⟩⟩

theorem nameOf_letters {number : Nat} {c : Char} (isIn : c ∈ nameOf number) :
    c = 'a' ∨ c = 'b' := by
  obtain ⟨bit, _, rfl⟩ := List.mem_map.mp isIn
  split_ifs
  · exact Or.inr rfl
  · exact Or.inl rfl

theorem bytes_nameOf (number : Nat) : bytes (nameOf number) = 31 := by
  have allOne : (nameOf number).map Char.utf8Size = List.replicate 31 1 := by
    refine List.eq_replicate_iff.mpr ⟨by simp [nameOf], fun size isIn => ?_⟩
    obtain ⟨c, isLetter, rfl⟩ := List.mem_map.mp isIn
    rcases nameOf_letters isLetter with rfl | rfl <;> rfl
  unfold bytes
  rw [allOne]
  rfl

theorem hasDots_free {text : List Char} (isFree : '.' ∉ text) : hasDots text = false := by
  induction text with
  | nil => rfl
  | cons c rest ih =>
    obtain ⟨isOther, restFree⟩ := not_or.mp (List.mem_cons.not.mp isFree)
    unfold hasDots
    split
    · rename_i isDots
      exact absurd (List.cons.inj isDots).1.symm isOther
    · rename_i isRest
      rw [← (List.cons.inj isRest).2]
      exact ih restFree
    · rfl

theorem trim_nameOf (number : Nat) : trim (nameOf number) = nameOf number := by
  have noSpace : ∀ c ∈ nameOf number, ¬isSpace c = true := fun c isIn => by
    rcases nameOf_letters isIn with rfl | rfl <;> decide
  unfold trim trimEnd
  rw [List.dropWhile_eq_self_iff.mpr fun isLong => noSpace _ (List.getElem_mem isLong),
    List.rdropWhile_eq_self_iff.mpr fun notEmpty => noSpace _ (List.getLast_mem notEmpty)]

theorem manyFiles_sent : filesOf (manyFiles.map lettersGit.shown) = manyFiles := by
  have isSame : (manyFiles.map lettersGit.shown).map trim = manyFiles := by
    unfold manyFiles
    rw [List.map_map, List.map_map]
    exact List.map_congr_left fun number _ => trim_nameOf number
  unfold filesOf
  rw [isSame]
  refine List.filter_eq_self.mpr fun name isIn => ?_
  obtain ⟨number, _, rfl⟩ := List.mem_map.mp isIn
  have noDots : hasDots (nameOf number) = false := hasDots_free fun isIn => by
    rcases nameOf_letters isIn with isDot | isDot <;> exact absurd isDot (by decide)
  rw [noDots]
  rfl

theorem linesFor_sizes (git : Git) {size answer : Nat} {files : List (List Char)}
    (sizes : ∀ line ∈ files, bytes line = size ∧ git.answerBytes line = answer) :
    (git.linesFor files).length = files.length ∧ ∀ line ∈ git.linesFor files,
      size ≤ line.1 ∧ line.1 ≤ size + 1 ∧ line.2 = answer := by
  fun_induction Git.linesFor with
  | case1 => exact ⟨rfl, fun _ isIn => absurd isIn List.not_mem_nil⟩
  | case2 last => simp [sizes last List.mem_cons_self]
  | case3 first next rest ih =>
    obtain ⟨isLong, later⟩ := ih fun other isIn => sizes other (List.mem_cons_of_mem _ isIn)
    obtain ⟨isSize, isAnswer⟩ := sizes first List.mem_cons_self
    refine ⟨congrArg (· + 1) isLong, List.forall_mem_cons.mpr ⟨?_, later⟩⟩
    simp [isSize, isAnswer]

theorem answerBytes_nameOf (number : Nat) : lettersGit.answerBytes (nameOf number) = 51 := by
  show bytes (".gitignore:1:[ab]*".toList ++ '\t' :: nameOf number) + 1 = 51
  unfold bytes
  rw [List.map_append, List.sum_append, List.map_cons, List.sum_cons]
  have isName : ((nameOf number).map Char.utf8Size).sum = 31 := bytes_nameOf number
  rw [isName]
  rfl

theorem manyFiles_overflow : Overflows (exchangeOf pipes lettersGit manyFiles) := by
  have sizes : ∀ name ∈ manyFiles, bytes name = 31 ∧ lettersGit.answerBytes name = 51 := by
    intro name isIn
    obtain ⟨number, _, rfl⟩ := List.mem_map.mp isIn
    exact ⟨bytes_nameOf number, answerBytes_nameOf number⟩
  obtain ⟨isLong, lines⟩ := linesFor_sizes lettersGit sizes
  rw [show manyFiles.length = 4000 by simp [manyFiles]] at isLong
  rw [← manyFiles_sent, ← exchangeOf_lines pipes] at isLong lines
  have isPipes : (exchangeOf pipes lettersGit manyFiles).toPipes = pipes := rfl
  generalize exchangeOf pipes lettersGit manyFiles = exchange at isLong lines isPipes ⊢
  have out : ∀ line ≤ 4000, exchange.outBytes line = line * 51 := by
    intro line isLine
    have allSame : (exchange.lines.take line).map Prod.snd = List.replicate line 51 := by
      refine List.eq_replicate_iff.mpr ⟨by simp [isLong, isLine], fun answer isIn => ?_⟩
      obtain ⟨sent, isSent, rfl⟩ := List.mem_map.mp isIn
      exact (lines sent (List.mem_of_mem_take isSent)).2.2
    unfold Exchange.outBytes
    rw [allSame, List.sum_replicate, smul_eq_mul]
  have isRead : exchange.inBytes 1286 ≤ 1286 * 32 := by
    refine (List.sum_le_card_nsmul _ 32 fun size isIn => ?_).trans (by simp [isLong])
    obtain ⟨sent, isSent, rfl⟩ := List.mem_map.mp isIn
    exact (lines sent (List.mem_of_mem_take isSent)).2.1
  have isTotal : 4000 * 31 ≤ exchange.total := by
    have least := List.card_nsmul_le_sum (exchange.lines.map Prod.fst) 31 fun size isIn => by
      obtain ⟨sent, isSent, rfl⟩ := List.mem_map.mp isIn
      exact (lines sent isSent).1
    rw [List.length_map, isLong, smul_eq_mul] at least
    unfold Exchange.total Exchange.inBytes Exchange.count
    rwa [List.take_length]
  have isStdin : exchange.stdin = 65536 := congrArg Pipes.stdin isPipes
  have isStdout : exchange.stdout = 65536 := congrArg Pipes.stdout isPipes
  refine ⟨1286, by unfold Exchange.count; omega, ?_, fun before isBefore => ?_, by omega⟩
  · rw [out 1286 (by omega)]
    omega
  · rw [out before (by omega)]
    omega

theorem not_sync_holds : ¬∀ (pipes : Pipes) (includePatterns : List (List Char)) (git : Git)
    (ignored : List (List Char)), ¬SyncDeadlocks pipes includePatterns git ignored :=
  fun neverDeadlocks => neverDeadlocks pipes ["[ab]*".toList] lettersGit manyFiles
    ((syncDeadlocks_iff _ _ _ _).mpr ⟨List.cons_ne_nil _ _, manyFiles_overflow⟩)

end AiTools.Grove.EnvSync
