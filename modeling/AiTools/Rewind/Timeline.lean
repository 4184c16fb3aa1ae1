import AiTools.Rewind.RawMessage

/-!
Contract: the timeline of a session, and the lines of the file that it is read from.
-/

namespace AiTools.Rewind

inductive Backend where
  | claude | codex
  deriving DecidableEq

inductive EventType where
  | user | assistant | toolCall | toolResult | thinking | system
  deriving DecidableEq

inductive Role where
  | user | assistant | system
  deriving DecidableEq

structure TimelineEvent (Time : Type) where
  timestamp : Time
  type : EventType
  role : Role
  summary : Text
  content : Text
  toolName : Text := []
  toolInput : Text := []
  toolResult : Text := []
  deriving DecidableEq

/-- The zero time is the default one. -/
structure Session (Time : Type) [Inhabited Time] where
  id : Text := []
  backend : Backend
  model : Text := []
  cwd : Text := []
  startedAt : Time := default
  events : List (TimelineEvent Time) := []

/-- What is set first stays. -/
def firstSet (value other : Text) : Text := if value = [] then other else value

def truncate (text : Text) (maxLen : Nat) : Text :=
  if text.length ≤ maxLen then text else text.take maxLen ++ "...".toList

def firstLine (text : Text) : Text := (Lib.GoText.trimSpace text).takeWhile (· ≠ '\n')

def textSummary (text : Text) : Text := truncate (firstLine text) 100

def resultSummary (text : Text) : Text :=
  "Result: ".toList ++ truncate (firstLine text) 80

def toolSummary (name : Text) : Text := "Tool: ".toList ++ name

section

variable {Time : Type}

def textEvent (timestamp : Time) (type : EventType) (role : Role) (text : Text) :
    TimelineEvent Time :=
  { timestamp, type, role, summary := textSummary text, content := text }

def thinkingEvent (timestamp : Time) (text : Text) : TimelineEvent Time :=
  { timestamp, type := .thinking, role := .assistant, summary := "(thinking)".toList,
    content := text }

def toolCallEvent (timestamp : Time) (name input : Text) : TimelineEvent Time :=
  { timestamp, type := .toolCall, role := .assistant, summary := toolSummary name,
    content := input, toolName := name, toolInput := input }

def toolResultEvent (timestamp : Time) (result : Text) : TimelineEvent Time :=
  { timestamp, type := .toolResult, role := .user, summary := resultSummary result,
    content := result, toolResult := result }

end

def parseTimestampStrict {Time : Type} (parseTime : Text → Option Time) (value : Text) :
    Option Time :=
  if value = [] then none else parseTime value

/-- What the timeline is to say of a block. The result is that of the whole message, where the
block is the only tool result in it. A kind that is none of the four has no type. -/
structure Block (Time : Type) where
  timestamp : Time
  role : Role
  type : Option EventType
  content : Text
  result : Option Text := none

namespace Block

variable {Time : Type}

@[mk_iff]
structure Own (block : Block Time) (event : TimelineEvent Time) : Prop where
  timestamp : event.timestamp = block.timestamp
  role : event.role = block.role
  type : block.type = some event.type
  content : event.content = block.content ∨ block.result = some event.content

def Empty (block : Block Time) : Prop := block.type = none ∨ block.content = []

end Block

/-- A line that the scanner cannot hold is as invalid as one that is not JSON. -/
inductive FileLine where
  | blank | invalid
  | value (raw : RawMessage)

section

variable {Time : Type} [Inhabited Time]

/-- A step takes one line, with its number. -/
def readLines (step : Nat → Session Time → RawMessage → Option (Session Time)) :
    Nat → Session Time → List FileLine → Option (Session Time)
  | _, session, [] => some session
  | number, session, .blank :: lines => readLines step (number + 1) session lines
  | _, _, .invalid :: _ => none
  | number, session, .value raw :: lines => do
    readLines step (number + 1) (← step number session raw) lines

/-- A file without events is not a session. It has started with its first event. -/
def started (session : Session Time) : Option (Session Time) :=
  match session.events with
  | [] => none
  | first :: _ => some { session with startedAt := first.timestamp }

def FileLine.shown (shown : RawMessage → List (TimelineEvent Time)) :
    FileLine → List (TimelineEvent Time)
  | value raw => shown raw
  | _ => []

theorem started_events {session result : Session Time} (isStarted : started session = some result) :
    result.events = session.events := by
  unfold started at isStarted
  split at isStarted
  · cases isStarted
  · cases isStarted
    rfl

theorem readLines_events {step : Nat → Session Time → RawMessage → Option (Session Time)}
    {shown : RawMessage → List (TimelineEvent Time)}
    (ofLine : ∀ number session raw next, step number session raw = some next →
      next.events = session.events ++ shown raw) (lines : List FileLine) :
    ∀ {number : Nat} {session result : Session Time},
      readLines step number session lines = some result →
        result.events = session.events ++ lines.flatMap (FileLine.shown shown) := by
  induction lines with
  | nil =>
    intro number session result isResult
    cases isResult
    rw [List.flatMap_nil, List.append_nil]
  | cons line lines ih =>
    intro number session result isResult
    rw [List.flatMap_cons]
    cases line with
    | blank => exact ih isResult
    | invalid => cases isResult
    | value raw =>
      rw [readLines] at isResult
      obtain ⟨next, isNext, isRest⟩ := Option.bind_eq_some_iff.mp isResult
      rw [ih isRest, ofLine number session raw next isNext, List.append_assoc]
      rfl

end

end AiTools.Rewind
