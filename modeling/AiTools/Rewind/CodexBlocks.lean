import AiTools.Lib.Attribution
import AiTools.Rewind.Codex

/-!
Contract: the blocks of a Codex session, and what the timeline shows for them.
-/

namespace AiTools.Rewind.Codex

open AiTools.Lib.Attribution
open Option (bind_eq_bind bind_eq_some_iff bind_some toList_some)

/-- A block of a message, or a whole item that is one. -/
inductive CodexBlock where
  | content (role : Text) (block : CodexContentBlock)
  | reasoning (summary : List CodexSummaryBlock)
  | call (item : CodexResponseItem)
  | callOutput (item : CodexResponseItem)

def messageBlocks (role : Text) (content : Option RawMessage) : List CodexBlock :=
  ((do (← (← content).asList).mapM codexContentBlock).getD []).map (.content role)

def reasoningBlocks (summary : Option RawMessage) : List CodexBlock :=
  ((do (← (← summary).asList).mapM codexSummaryBlock).map CodexBlock.reasoning).toList

def itemBlocks (item : CodexResponseItem) : List CodexBlock :=
  if item.type = "message".toList then messageBlocks item.role item.content
  else if item.type = "reasoning".toList then reasoningBlocks item.summary
  else if "_call".toList <:+ item.type then [.call item]
  else if "_call_output".toList <:+ item.type then [.callOutput item]
  else []

def kindBlocks (kind : LineKind) (line : CodexLine) : List CodexBlock :=
  match kind with
  | .message => messageBlocks line.role line.content
  | .reasoning => reasoningBlocks line.summary
  | .responseItem => (line.payload.bind codexResponseItem).toList.flatMap itemBlocks

section

variable {Time : Type}

/-- What the timeline is to say of a text. -/
def CodexContentBlock.block (role : Text) (timestamp : Time) (block : CodexContentBlock) :
    Block Time :=
  match block.kind with
  | .inputText =>
    { timestamp, role := (userFacingRole role).2, type := some (userFacingRole role).1,
      content := block.text }
  | .outputText =>
    { timestamp, role := .assistant, type := some .assistant, content := block.text }
  | .toolCall =>
    { timestamp, role := .assistant, type := some .toolCall,
      content := rawMessageAsString block.arguments }
  | .toolResult => { timestamp, role := .user, type := some .toolResult, content := block.output }
  | .other => { timestamp, role := .assistant, type := none, content := [] }

namespace CodexBlock

def block (timestamp : Time) : CodexBlock → Block Time
  | content role block => block.block role timestamp
  | reasoning summary =>
    { timestamp, role := .assistant, type := some .thinking, content := summaryText summary }
  | call item =>
    { timestamp, role := .assistant, type := some .toolCall, content := callInput item }
  | callOutput item =>
    { timestamp, role := .user, type := some .toolResult, content := Codex.callOutput item }

def event (timestamp : Time) : CodexBlock → Option (TimelineEvent Time)
  | content role block => messageBlockEvent role timestamp block
  | reasoning summary => some (thinkingEvent timestamp (summaryText summary))
  | call item => some (toolCallEvent timestamp (toolName item) (callInput item))
  | callOutput item => some (toolResultEvent timestamp (Codex.callOutput item))

end CodexBlock

/-- The blocks of a line, each with its time. -/
def lineBlocks (parseTime : Text → Option Time) (raw : RawMessage) : List (Time × CodexBlock) :=
  match codexLine raw with
  | none => []
  | some line =>
    if line.recordType = "state".toList then []
    else
      match line.kind, parseTimestampStrict parseTime line.timestamp with
      | some kind, some timestamp => (kindBlocks kind line).map (timestamp, ·)
      | _, _ => []

def fileLineBlocks (parseTime : Text → Option Time) : FileLine → List (Time × CodexBlock)
  | .value raw => lineBlocks parseTime raw
  | _ => []

def placed (parseTime : Text → Option Time) (file : List FileLine) : List (Time × CodexBlock) :=
  file.flatMap (fileLineBlocks parseTime)

def blocks (parseTime : Text → Option Time) (file : List FileLine) : List (Block Time) :=
  (placed parseTime file).map fun place => place.2.block place.1

/-- A line of another type than those with events, or a state. -/
def Ignored : FileLine → Prop
  | .value raw => ∃ line, codexLine raw = some line ∧
      (line.kind = none ∨ line.recordType = "state".toList)
  | _ => False

/-! ## The events of a line -/

variable {timestamp : Time} {events : List (TimelineEvent Time)}

theorem parseCodexMessage_events {role : Text} {content : Option RawMessage}
    (isParsed : parseCodexMessage role content timestamp = some events) :
    events = (messageBlocks role content).filterMap (CodexBlock.event timestamp) := by
  obtain ⟨raw, isRaw, isRead⟩ := bind_eq_some_iff.mp isParsed
  obtain ⟨list, isList, isRead⟩ := bind_eq_some_iff.mp isRead
  obtain ⟨blocks, isBlocks, isRead⟩ := bind_eq_some_iff.mp isRead
  simp only [messageBlocks, isRaw, isList, isBlocks, bind_eq_bind, bind_some,
    Option.getD_some, List.filterMap_map]
  dsimp only at isRead
  split at isRead
  · cases isRead
  · exact (Option.some.inj isRead).symm

theorem parseCodexReasoning_events {summary : Option RawMessage} {event : TimelineEvent Time}
    (isParsed : parseCodexReasoning summary timestamp = some event) :
    [event] = (reasoningBlocks summary).filterMap (CodexBlock.event timestamp) := by
  obtain ⟨raw, isRaw, isRead⟩ := bind_eq_some_iff.mp isParsed
  obtain ⟨list, isList, isRead⟩ := bind_eq_some_iff.mp isRead
  obtain ⟨blocks, isBlocks, isRead⟩ := bind_eq_some_iff.mp isRead
  simp only [reasoningBlocks, isRaw, isList, isBlocks, bind_eq_bind, bind_some,
    Option.map_some, toList_some]
  rw [← Option.some.inj isRead]
  rfl

theorem parseCodexResponseItem_events {payload : Option RawMessage}
    (isParsed : parseCodexResponseItem payload timestamp = some events) :
    events = ((payload.bind codexResponseItem).toList.flatMap itemBlocks).filterMap
      (CodexBlock.event timestamp) := by
  obtain ⟨raw, isRaw, isRead⟩ := bind_eq_some_iff.mp isParsed
  obtain ⟨item, isItem, isRead⟩ := bind_eq_some_iff.mp isRead
  simp only [isRaw, isItem, bind_some, toList_some, List.flatMap_cons,
    List.flatMap_nil, List.append_nil, itemBlocks]
  split at isRead
  · rw [if_pos ‹_›]
    exact parseCodexMessage_events isRead
  · rw [if_neg ‹_›]
    split at isRead
    · rw [if_pos ‹_›]
      obtain ⟨event, isEvent, isRead⟩ := bind_eq_some_iff.mp isRead
      rw [← Option.some.inj isRead]
      exact parseCodexReasoning_events isEvent
    · rw [if_neg ‹_›]
      split at isRead
      · rw [if_pos ‹_›, ← Option.some.inj isRead]
        rfl
      · rw [if_neg ‹_›]
        split at isRead
        · rw [if_pos ‹_›, ← Option.some.inj isRead]
          rfl
        · cases isRead

variable {line : CodexLine}

theorem kindEvents_events {kind : LineKind}
    (isParsed : kindEvents kind line timestamp = some events) :
    events = (kindBlocks kind line).filterMap (CodexBlock.event timestamp) := by
  cases kind with
  | message => exact parseCodexMessage_events isParsed
  | reasoning =>
    obtain ⟨event, isEvent, rfl⟩ := Option.map_eq_some_iff.mp isParsed
    exact parseCodexReasoning_events isEvent
  | responseItem => exact parseCodexResponseItem_events isParsed

variable {parseTime : Text → Option Time}

theorem lineBlocks_of_kind {raw : RawMessage}
    (isLine : codexLine raw = some line) (noEvents : line.kind = none ∨ line.recordType = "state".toList) :
    lineBlocks parseTime raw = [] := by
  unfold lineBlocks
  rw [isLine]
  dsimp only
  rcases noEvents with isNone | isState
  · rw [isNone, ite_self]
  · rw [if_pos isState]

theorem placed_ignored {line : FileLine} (ignored : Ignored line) (before after : List FileLine) :
    placed parseTime (before ++ line :: after) = placed parseTime (before ++ after) := by
  have noBlocks : fileLineBlocks parseTime line = [] := by
    cases line with
    | blank | invalid => rfl
    | value raw =>
      obtain ⟨read, isRead, noEvents⟩ := ignored
      exact lineBlocks_of_kind isRead noEvents
  rw [placed, placed, List.flatMap_append, List.flatMap_cons, noBlocks, List.nil_append,
    ← List.flatMap_append]

variable [Inhabited Time]

theorem parseCodexMetadata_events {session next : Session Time}
    (isNext : parseCodexMetadata parseTime line session = some next) :
    next.events = session.events := by
  simp only [parseCodexMetadata] at isNext
  split at isNext
  · obtain ⟨startedAt, isTime, isNext⟩ := bind_eq_some_iff.mp isNext
    cases isNext
    rfl
  · cases isNext
    rfl

variable [DecidableEq Time]

theorem parseCodexSessionMeta_events {session next : Session Time}
    (isNext : parseCodexSessionMeta parseTime line session = some next) :
    next.events = session.events := by
  obtain ⟨raw, isRaw, isNext⟩ := bind_eq_some_iff.mp isNext
  obtain ⟨sessionMeta, isMeta, isNext⟩ := bind_eq_some_iff.mp isNext
  dsimp only at isNext
  split at isNext
  · obtain ⟨startedAt, isTime, isNext⟩ := bind_eq_some_iff.mp isNext
    cases isNext
    rfl
  · cases isNext
    rfl

theorem codexStep_events (number : Nat) (session : Session Time) (raw : RawMessage)
    (next : Session Time) (isNext : codexStep parseTime number session raw = some next) :
    next.events = session.events ++
      (lineBlocks parseTime raw).filterMap fun place => place.2.event place.1 := by
  obtain ⟨line, isLine, isNext⟩ := bind_eq_some_iff.mp isNext
  -- A line whose type has no events leaves them as they are.
  have unchanged : next.events = session.events →
      line.kind = none ∨ line.recordType = "state".toList → next.events = session.events ++
          (lineBlocks parseTime raw).filterMap fun place => place.2.event place.1 := by
    intro same noEvents
    rw [lineBlocks_of_kind isLine noEvents, same]
    exact (List.append_nil _).symm
  split at isNext
  · rename_i isFirst
    refine unchanged (parseCodexMetadata_events isNext) (.inl ?_)
    rw [CodexLine.kind, isFirst.2]
    rfl
  · split at isNext
    · rename_i isMeta
      refine unchanged (parseCodexSessionMeta_events isNext) (.inl ?_)
      rw [CodexLine.kind, isMeta]
      rfl
    · split at isNext
      · rename_i isState
        cases isNext
        exact unchanged rfl (.inr isState)
      · rename_i notState
        cases isKind : line.kind with
        | none =>
          simp only [isKind] at isNext
          cases isNext
          exact unchanged rfl (.inl isKind)
        | some kind =>
          simp only [isKind] at isNext
          obtain ⟨timestamp, isTimestamp, isNext⟩ := bind_eq_some_iff.mp isNext
          obtain ⟨events, isEvents, isNext⟩ := bind_eq_some_iff.mp isNext
          cases isNext
          simp only [lineBlocks, isLine, if_neg notState, isKind, isTimestamp]
          rw [List.filterMap_map]
          exact congrArg (session.events ++ ·) (kindEvents_events isEvents)

theorem parseCodex_events {file : List FileLine} {session : Session Time}
    (isParsed : ParseCodex parseTime file = some session) :
    session.events = (placed parseTime file).filterMap fun place => place.2.event place.1 := by
  obtain ⟨last, isLast, isStarted⟩ := bind_eq_some_iff.mp isParsed
  rw [started_events isStarted, readLines_events codexStep_events file isLast, List.nil_append,
    placed, List.filterMap_flatMap]
  congr 1
  funext line
  cases line with
  | blank | invalid | value raw => rfl

end

section

variable {Time : Type}

/-- A block is shown with its own content, and it is not shown only when there is none. -/
theorem event_own (timestamp : Time) (block : CodexBlock) :
    (∀ event, block.event timestamp = some event → (block.block timestamp).Own event) ∧
      (block.event timestamp = none → (block.block timestamp).Empty) := by
  cases block with
  | content role block =>
    cases isKind : block.kind <;>
      simp_all [CodexBlock.event, messageBlockEvent, CodexBlock.block, CodexContentBlock.block,
        Block.own_iff, Block.Empty, textEvent, toolCallEvent, toolResultEvent]
  | reasoning summary => 
      simp [CodexBlock.event, CodexBlock.block, Block.own_iff, thinkingEvent]
  | call item => simp [CodexBlock.event, CodexBlock.block, Block.own_iff, toolCallEvent]
  | callOutput item => simp [CodexBlock.event, CodexBlock.block, Block.own_iff, toolResultEvent]

theorem event_text {timestamp : Time} {block : CodexBlock} {event : TimelineEvent Time}
    (isEvent : block.event timestamp = some event) :
    event.type = .toolCall ∨ event.type = .toolResult ∨ event.type = .thinking ∨
      event.content ≠ [] := by
  cases block with
  | content role block =>
    unfold CodexBlock.event messageBlockEvent at isEvent
    dsimp only at isEvent
    cases isKind : block.kind <;> simp only [isKind] at isEvent <;>
      grind [textEvent, toolCallEvent, toolResultEvent]
  | reasoning summary =>
    cases isEvent
    exact .inr (.inr (.inl rfl))
  | call item =>
    cases isEvent
    exact .inl rfl
  | callOutput item =>
    cases isEvent
    exact .inr (.inl rfl)

theorem userFacingRole_type (role : Text) :
    (userFacingRole role).1 = .system ∨ (userFacingRole role).1 = .user := by
  unfold userFacingRole
  split
  · exact .inl rfl
  · exact .inr rfl

theorem lawful : Lawful (fun place : Time × CodexBlock => (place.2.block place.1).Own)
    fun place => (place.2.event place.1 : Option (TimelineEvent Time)) := by
  refine ⟨fun ⟨timestamp, block⟩ other event isEvent isOwn isNone => ?_⟩
  have isText := event_text isEvent
  have isType := isOwn.type
  have isContent := isOwn.content
  cases block with
  | content role block =>
    dsimp only [CodexBlock.event, messageBlockEvent] at isNone
    dsimp only [CodexBlock.block, CodexContentBlock.block] at isType isContent
    have isUserFacing := userFacingRole_type role
    cases isKind : block.kind <;> simp only [isKind] at isNone isType isContent <;> grind
  | reasoning summary | call item | callOutput item => cases isNone

end

section

variable {Time : Type} [Inhabited Time] [DecidableEq Time] {parseTime : Text → Option Time}

theorem shows {file : List FileLine} {session : Session Time}
    (isParsed : ParseCodex parseTime file = some session) :
    Shows Block.Own Block.Empty (blocks parseTime file) session.events := by
  rw [blocks, shows_map_iff, parseCodex_events isParsed, shows_filterMap_iff lawful]
  exact fun place _ => event_own place.1 place.2

end

end AiTools.Rewind.Codex
