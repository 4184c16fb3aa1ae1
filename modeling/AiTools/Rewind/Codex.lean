import AiTools.Rewind.Timeline

/-!
Contract: the timeline of a Codex session.
-/

namespace AiTools.Rewind.Codex

structure CodexLine where
  id : Text
  timestamp : Text
  recordType : Text
  type : Text
  role : Text
  content : Option RawMessage
  summary : Option RawMessage
  payload : Option RawMessage

structure CodexSessionMeta where
  id : Text
  timestamp : Text
  cwd : Text
  model : Text

structure CodexResponseItem where
  type : Text
  role : Text
  name : Text
  content : Option RawMessage
  summary : Option RawMessage
  arguments : Option RawMessage
  input : Option RawMessage
  action : Option RawMessage
  output : Text

structure CodexContentBlock where
  type : Text
  text : Text
  name : Text
  arguments : Option RawMessage
  output : Text

structure CodexSummaryBlock where
  type : Text
  text : Text

def codexLine (raw : RawMessage) : Option CodexLine := do
  let members ← raw.asStruct
  let id ← stringField "id" members
  let timestamp ← stringField "timestamp" members
  let recordType ← stringField "record_type" members
  let type ← stringField "type" members
  let role ← stringField "role" members
  some { id, timestamp, recordType, type, role, content := rawField "content" members,
         summary := rawField "summary" members, payload := rawField "payload" members }

def codexSessionMeta (raw : RawMessage) : Option CodexSessionMeta := do
  let members ← raw.asStruct
  let id ← stringField "id" members
  let timestamp ← stringField "timestamp" members
  let cwd ← stringField "cwd" members
  let model ← stringField "model" members
  some { id, timestamp, cwd, model }

/-- The status is read, but of no use. -/
def codexResponseItem (raw : RawMessage) : Option CodexResponseItem := do
  let members ← raw.asStruct
  let type ← stringField "type" members
  let role ← stringField "role" members
  let name ← stringField "name" members
  let _ ← stringField "status" members
  let output ← stringField "output" members
  some { type, role, name, output, content := rawField "content" members,
         summary := rawField "summary" members, arguments := rawField "arguments" members,
         input := rawField "input" members, action := rawField "action" members }

def codexContentBlock (raw : RawMessage) : Option CodexContentBlock := do
  let members ← raw.asStruct
  let type ← stringField "type" members
  let text ← stringField "text" members
  let name ← stringField "name" members
  let output ← stringField "output" members
  some { type, text, name, output, arguments := rawField "arguments" members }

def codexSummaryBlock (raw : RawMessage) : Option CodexSummaryBlock := do
  let members ← raw.asStruct
  let type ← stringField "type" members
  let text ← stringField "text" members
  some { type, text }

def userFacingRole (role : Text) : EventType × Role :=
  if role = "developer".toList ∨ role = "system".toList then (.system, .system) else (.user, .user)

inductive BlockKind where
  | inputText | outputText | toolCall | toolResult | other
  deriving DecidableEq

def CodexContentBlock.kind (block : CodexContentBlock) : BlockKind :=
  if block.type = "input_text".toList then .inputText
  else if block.type = "output_text".toList ∨ block.type = "text".toList then .outputText
  else if block.type = "tool_call".toList then .toolCall
  else if block.type = "tool_result".toList then .toolResult
  else .other

def firstNonEmptyRawString : List (Option RawMessage) → Text
  | [] => []
  | value :: values =>
    if rawMessageAsString value ≠ [] then rawMessageAsString value
    else firstNonEmptyRawString values

def summaryText (blocks : List CodexSummaryBlock) : Text :=
  blocks.flatMap fun block => if block.type = "summary_text".toList then block.text else []

def trimSuffix (text suffix : Text) : Text :=
  if suffix <:+ text then text.take (text.length - suffix.length) else text

section

variable {Time : Type}

def messageBlockEvent (role : Text) (timestamp : Time) (block : CodexContentBlock) :
    Option (TimelineEvent Time) :=
  match block.kind with
  | .inputText =>
    if block.text = [] then none
    else
      let (eventType, eventRole) := userFacingRole role
      some (textEvent timestamp eventType eventRole block.text)
  | .outputText =>
    if block.text = [] then none else some (textEvent timestamp .assistant .assistant block.text)
  | .toolCall => some (toolCallEvent timestamp block.name (rawMessageAsString block.arguments))
  | .toolResult => some (toolResultEvent timestamp block.output)
  | .other => none

def parseCodexMessage (role : Text) (content : Option RawMessage) (timestamp : Time) :
    Option (List (TimelineEvent Time)) := do
  let blocks ← (← (← content).asList).mapM codexContentBlock
  let events := blocks.filterMap (messageBlockEvent role timestamp)
  if events.isEmpty then none else some events

def parseCodexReasoning (summary : Option RawMessage) (timestamp : Time) :
    Option (TimelineEvent Time) := do
  let blocks ← (← (← summary).asList).mapM codexSummaryBlock
  some (thinkingEvent timestamp (summaryText blocks))

def callInput (item : CodexResponseItem) : Text :=
  firstNonEmptyRawString [item.input, item.arguments, item.action, item.content]

def toolName (item : CodexResponseItem) : Text :=
  if item.name = [] then trimSuffix item.type "_call".toList else item.name

def callOutput (item : CodexResponseItem) : Text :=
  if item.output = [] then rawMessageAsString item.content else item.output

def parseCodexResponseItem (payload : Option RawMessage) (timestamp : Time) :
    Option (List (TimelineEvent Time)) := do
  let item ← codexResponseItem (← payload)
  if item.type = "message".toList then
    parseCodexMessage item.role item.content timestamp
  else if item.type = "reasoning".toList then
    some [← parseCodexReasoning item.summary timestamp]
  else if "_call".toList <:+ item.type then
    some [toolCallEvent timestamp (toolName item) (callInput item)]
  else if "_call_output".toList <:+ item.type then
    some [toolResultEvent timestamp (callOutput item)]
  else none

end

section

variable {Time : Type} [Inhabited Time] [DecidableEq Time] (parseTime : Text → Option Time)

def parseCodexSessionMeta (line : CodexLine) (session : Session Time) : Option (Session Time) := do
  let sessionMeta ← codexSessionMeta (← line.payload)
  let session := { session with
    id := firstSet session.id sessionMeta.id, cwd := firstSet session.cwd sessionMeta.cwd
    model := firstSet session.model sessionMeta.model }
  if session.startedAt = default ∧ sessionMeta.timestamp ≠ [] then
    some { session with startedAt := ← parseTimestampStrict parseTime sessionMeta.timestamp }
  else some session

def parseCodexMetadata (line : CodexLine) (session : Session Time) : Option (Session Time) := do
  let session := { session with id := firstSet line.id session.id }
  if line.timestamp ≠ [] then
    some { session with startedAt := ← parseTimestampStrict parseTime line.timestamp }
  else some session

/-- The types of lines with events. -/
inductive LineKind where
  | message | reasoning | responseItem

def CodexLine.kind (line : CodexLine) : Option LineKind :=
  if line.type = "message".toList then some .message
  else if line.type = "reasoning".toList then some .reasoning
  else if line.type = "response_item".toList then some .responseItem
  else none

def kindEvents (kind : LineKind) (line : CodexLine) (timestamp : Time) :
    Option (List (TimelineEvent Time)) :=
  match kind with
  | .message => parseCodexMessage line.role line.content timestamp
  | .reasoning => (parseCodexReasoning line.summary timestamp).map ([·])
  | .responseItem => parseCodexResponseItem line.payload timestamp

def codexStep (number : Nat) (session : Session Time) (raw : RawMessage) :
    Option (Session Time) := do
  let line ← codexLine raw
  if number = 1 ∧ line.type = [] then parseCodexMetadata parseTime line session
  else if line.type = "session_meta".toList then parseCodexSessionMeta parseTime line session
  else if line.recordType = "state".toList then some session
  else
    match line.kind with
    | none => some session
    | some kind =>
      let timestamp ← parseTimestampStrict parseTime line.timestamp
      let events ← kindEvents kind line timestamp
      some { session with events := session.events ++ events }

def ParseCodex (file : List FileLine) : Option (Session Time) := do
  started (← readLines (codexStep parseTime) 1 { backend := .codex } file)

end

end AiTools.Rewind.Codex
