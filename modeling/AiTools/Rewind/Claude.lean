import AiTools.Rewind.Timeline

/-!
Contract: the timeline of a Claude session.
-/

namespace AiTools.Rewind.Claude

structure ClaudeLine where
  type : Text
  timestamp : Text
  sessionId : Text
  cwd : Text
  message : Option RawMessage
  toolUseResult : Option RawMessage

structure ClaudeToolUseResult where
  text : Text := []
  stdout : Text := []
  stderr : Text := []
  file : Option Text := none

structure ClaudeMessage where
  model : Text
  content : Option RawMessage

structure ClaudeContentBlock where
  type : Text
  text : Text := []
  thinking : Text := []
  name : Text := []
  input : Option RawMessage := none
  content : Option RawMessage := none

def claudeLine (raw : RawMessage) : Option ClaudeLine := do
  let members ← raw.asStruct
  let type ← stringField "type" members
  let timestamp ← stringField "timestamp" members
  let sessionId ← stringField "sessionId" members
  let cwd ← stringField "cwd" members
  some { type, timestamp, sessionId, cwd, message := rawField "message" members,
         toolUseResult := rawField "toolUseResult" members }

/-- The content of the file, which a null takes back. -/
def fileFrom : Option Text → List RawMessage → Option (Option Text)
  | file, [] => some file
  | _, .null _ :: rest => fileFrom none rest
  | file, raw :: rest => do
    let members ← raw.asStruct
    let content ← stringFrom (file.getD []) (membersOf "content".toList members)
    fileFrom (some content) rest

def claudeToolUseResult (raw : RawMessage) : Option ClaudeToolUseResult := do
  let members ← raw.asStruct
  let _ ← stringField "type" members
  let text ← stringField "Text" members
  let stdout ← stringField "stdout" members
  let stderr ← stringField "stderr" members
  if areBools "interrupted" members && areBools "isImage" members &&
      areBools "noOutputExpected" members then
    let file ← fileFrom none (membersOf "file".toList members)
    some { text, stdout, stderr, file }
  else none

def claudeMessage (raw : RawMessage) : Option ClaudeMessage := do
  let members ← raw.asStruct
  let model ← stringField "model" members
  some { model, content := rawField "content" members }

def claudeContentBlock (raw : RawMessage) : Option ClaudeContentBlock := do
  let members ← raw.asStruct
  let type ← stringField "type" members
  let text ← stringField "text" members
  let thinking ← stringField "thinking" members
  let name ← stringField "name" members
  some { type, text, thinking, name, input := rawField "input" members,
         content := rawField "content" members }

def claudeContentBlocks (raw : RawMessage) : Option (List ClaudeContentBlock) := do
  (← raw.asList).mapM claudeContentBlock

def claudeInlineText (raw : RawMessage) : Option Text := do
  let blocks ← claudeContentBlocks raw
  let texts := blocks.filter fun block => block.type = "text".toList ∧ block.text ≠ []
  let parts := texts.map (·.text)
  if parts = [] then none else some (['\n'].intercalate parts)

def claudeToolResultValue : Option RawMessage → Text
  | none => rawMessageAsString none
  | some raw => (claudeInlineText raw).getD (rawMessageAsString (some raw))

def parseClaudeToolUseResult : Option RawMessage → Option (Option ClaudeToolUseResult)
  | none => some none
  | some raw =>
    match raw.asString with
    | some text => some (some { text })
    | none =>
      match claudeInlineText raw with
      | some text => some (some { text })
      | none => (claudeToolUseResult raw).map some

/-- The content, and whether it is preferred to that of a block. -/
def claudeToolResultContent : Option ClaudeToolUseResult → Text × Bool
  | none => ([], false)
  | some result =>
    if result.file.getD [] ≠ [] then (result.file.getD [], true)
    else if result.stdout ≠ [] ∨ result.stderr ≠ [] then
      (['\n'].intercalate ([result.stdout, result.stderr].filter (· ≠ [])), true)
    else (result.text, false)

inductive BlockKind where
  | text | thinking | toolUse | toolResult | other
  deriving DecidableEq

def ClaudeContentBlock.kind (block : ClaudeContentBlock) : BlockKind :=
  if block.type = "text".toList then .text
  else if block.type = "thinking".toList then .thinking
  else if block.type = "tool_use".toList then .toolUse
  else if block.type = "tool_result".toList then .toolResult
  else .other

section

variable {Time : Type}

/-- What a tool result shows, given the result of the message. -/
def resultContent (toolUse : Text × Bool) (value : Text) : Text :=
  if toolUse.2 ∧ toolUse.1 ≠ [] then toolUse.1
  else if value = [] ∧ toolUse.1 ≠ [] then toolUse.1
  else value

def userBlockEvent (toolUse : Text × Bool) (timestamp : Time) (block : ClaudeContentBlock) :
    Option (TimelineEvent Time) :=
  match block.kind with
  | .text => if block.text = [] then none else some (textEvent timestamp .user .user block.text)
  | .toolResult =>
    let content := resultContent toolUse (claudeToolResultValue block.content)
    if content = [] then none else some (toolResultEvent timestamp content)
  | _ => none

def parseClaudeUserMessage (content : Option RawMessage)
    (toolUseResult : Option ClaudeToolUseResult) (timestamp : Time) :
    Option (List (TimelineEvent Time)) := do
  let raw ← content
  match raw.asString with
  | some [] => none
  | some text => some [textEvent timestamp .user .user text]
  | none =>
    let blocks ← claudeContentBlocks raw
    let events :=
      blocks.filterMap (userBlockEvent (claudeToolResultContent toolUseResult) timestamp)
    if events.isEmpty && !blocks.any (·.kind = .toolResult) then none else some events

def assistantBlockEvent (timestamp : Time) (block : ClaudeContentBlock) :
    Option (TimelineEvent Time) :=
  match block.kind with
  | .text =>
    if block.text = [] then none else some (textEvent timestamp .assistant .assistant block.text)
  | .thinking => some (thinkingEvent timestamp block.thinking)
  | .toolUse => some (toolCallEvent timestamp block.name (rawMessageAsString block.input))
  | _ => none

def parseClaudeAssistantMessage (content : Option RawMessage) (timestamp : Time) :
    Option (List (TimelineEvent Time)) := do
  let raw ← content
  let blocks ← claudeContentBlocks raw
  let events := blocks.filterMap (assistantBlockEvent timestamp)
  if events.isEmpty then none else some events

end

inductive Speaker where
  | user | assistant
  deriving DecidableEq

/-- All other types are passed over. -/
def speaker (type : Text) : Option Speaker :=
  if type = "user".toList then some .user
  else if type = "assistant".toList then some .assistant
  else none

def parseClaudeMessage {Time : Type} (speaker : Speaker) (content : Option RawMessage)
    (toolUseResult : Option ClaudeToolUseResult) (timestamp : Time) :
    Option (List (TimelineEvent Time)) :=
  match speaker with
  | .user => parseClaudeUserMessage content toolUseResult timestamp
  | .assistant => parseClaudeAssistantMessage content timestamp

section

variable {Time : Type} [Inhabited Time] (parseTime : Text → Option Time)

def claudeStep (_ : Nat) (session : Session Time) (raw : RawMessage) : Option (Session Time) := do
  let line ← claudeLine raw
  let session := { session with
    id := firstSet session.id line.sessionId, cwd := firstSet session.cwd line.cwd }
  match speaker line.type with
  | none => some session
  | some speaker =>
    let message ← claudeMessage (← line.message)
    let session :=
      if speaker = .assistant then { session with model := firstSet session.model message.model }
      else session
    let toolUseResult ← parseClaudeToolUseResult line.toolUseResult
    let timestamp ← parseTimestampStrict parseTime line.timestamp
    let events ← parseClaudeMessage speaker message.content toolUseResult timestamp
    some { session with events := session.events ++ events }

/-- The numbers of the lines are for the texts of errors. -/
def ParseClaude (file : List FileLine) : Option (Session Time) := do
  started (← readLines (claudeStep parseTime) 1 { backend := .claude } file)

end

end AiTools.Rewind.Claude
