import AiTools.Lib.Attribution
import AiTools.Rewind.Claude

/-!
Contract: the blocks of a Claude session, and what the timeline shows for them.
-/

namespace AiTools.Rewind.Claude

open AiTools.Lib.Attribution
open Option (bind_eq_bind bind_eq_some_iff bind_some getD_some)

/-- A text stands for the one block with it, in a user's message. -/
def messageBlocks (speaker : Speaker) (content : Option RawMessage) : List ClaudeContentBlock :=
  match content with
  | none => []
  | some raw =>
    match speaker, raw.asString with
    | .user, some text => [{ type := "text".toList, text }]
    | _, _ => (claudeContentBlocks raw).getD []

/-- The content of the block itself. -/
def ClaudeContentBlock.own (block : ClaudeContentBlock) : Text :=
  match block.kind with
  | .text => block.text
  | .thinking => block.thinking
  | .toolUse => rawMessageAsString block.input
  | .toolResult => claudeToolResultValue block.content
  | .other => []

def Speaker.role : Speaker → Role
  | user => .user
  | assistant => .assistant

/-- A text is its speaker's. -/
def BlockKind.type (speaker : Speaker) : BlockKind → Option EventType
  | text => some (match speaker with
      | .user => .user
      | .assistant => .assistant)
  | thinking => some .thinking
  | toolUse => some .toolCall
  | toolResult => some .toolResult
  | other => none

section

variable {Time : Type}

/-- The message of a line whose type is not passed over. -/
structure Spoken (Time : Type) where
  speaker : Speaker
  timestamp : Time
  content : Option RawMessage
  toolUse : Text × Bool

namespace Spoken

def blocks (spoken : Spoken Time) : List ClaudeContentBlock :=
  messageBlocks spoken.speaker spoken.content

def results (spoken : Spoken Time) : Nat := spoken.blocks.countP (·.kind = .toolResult)

def block (spoken : Spoken Time) (block : ClaudeContentBlock) : Block Time where
  timestamp := spoken.timestamp
  role := spoken.speaker.role
  type := block.kind.type spoken.speaker
  content := block.own
  result :=
    if block.kind = .toolResult ∧ spoken.results = 1 then some spoken.toolUse.1 else none

def event (spoken : Spoken Time) (block : ClaudeContentBlock) : Option (TimelineEvent Time) :=
  match spoken.speaker with
  | .user => userBlockEvent spoken.toolUse spoken.timestamp block
  | .assistant => assistantBlockEvent spoken.timestamp block

end Spoken

def spoken (parseTime : Text → Option Time) (raw : RawMessage) : Option (Spoken Time) := do
  let line ← claudeLine raw
  let speaker ← speaker line.type
  let message ← claudeMessage (← line.message)
  let toolUseResult ← parseClaudeToolUseResult line.toolUseResult
  let timestamp ← parseTimestampStrict parseTime line.timestamp
  some { speaker, timestamp, content := message.content,
         toolUse := claudeToolResultContent toolUseResult }

def lineSpoken (parseTime : Text → Option Time) : FileLine → List (Spoken Time)
  | .value raw => (spoken parseTime raw).toList
  | _ => []

/-- The blocks of a file, each with its message. -/
def placed (parseTime : Text → Option Time) (file : List FileLine) :
    List (Spoken Time × ClaudeContentBlock) :=
  (file.flatMap (lineSpoken parseTime)).flatMap fun spoken => spoken.blocks.map (spoken, ·)

def blocks (parseTime : Text → Option Time) (file : List FileLine) : List (Block Time) :=
  (placed parseTime file).map fun place => place.1.block place.2

/-- A line of another type than the speakers'. -/
def Ignored : FileLine → Prop
  | .value raw => ∃ line, claudeLine raw = some line ∧ speaker line.type = none
  | _ => False

def Speaker.has : Speaker → BlockKind → Prop
  | user, kind => kind ≠ .thinking ∧ kind ≠ .toolUse
  | assistant, kind => kind ≠ .toolResult

/-- Several tool results in one message are all what the message's result is, where that is
preferred, and none of them is empty, where it is not. -/
@[mk_iff]
structure Spoken.Clean (spoken : Spoken Time) (block : ClaudeContentBlock) : Prop where
  ofSpeaker : ¬ spoken.speaker.has block.kind → block.own = []
  result : spoken.speaker = .user → block.kind = .toolResult → spoken.results ≠ 1 →
    spoken.toolUse.1 ≠ [] →
      if spoken.toolUse.2 then block.own = spoken.toolUse.1 else block.own ≠ []

/-- In each message that is read. -/
def Clean (parseTime : Text → Option Time) (file : List FileLine) : Prop :=
  ∀ spoken ∈ file.flatMap (lineSpoken parseTime), ∀ block ∈ spoken.blocks, spoken.Clean block

variable {content : Option RawMessage} {toolUseResult : Option ClaudeToolUseResult}
  {timestamp : Time} {events : List (TimelineEvent Time)} {line : FileLine}

theorem parseClaudeUserMessage_events
    (isParsed : parseClaudeUserMessage content toolUseResult timestamp = some events) :
    events = (messageBlocks .user content).filterMap
      (userBlockEvent (claudeToolResultContent toolUseResult) timestamp) := by
  obtain ⟨raw, rfl, isRead⟩ := bind_eq_some_iff.mp isParsed
  cases isString : raw.asString with
  | some text =>
    simp only [isString] at isRead
    simp only [messageBlocks, isString]
    cases text with
    | nil => cases isRead
    | cons char text =>
      cases isRead
      rfl
  | none =>
    simp only [isString] at isRead
    simp only [messageBlocks, isString]
    obtain ⟨blocks, isBlocks, isRead⟩ := bind_eq_some_iff.mp isRead
    rw [isBlocks, getD_some]
    split at isRead
    · cases isRead
    · exact (Option.some.inj isRead).symm

theorem parseClaudeAssistantMessage_events
    (isParsed : parseClaudeAssistantMessage content timestamp = some events) :
    events = (messageBlocks .assistant content).filterMap (assistantBlockEvent timestamp) := by
  obtain ⟨raw, rfl, isRead⟩ := bind_eq_some_iff.mp isParsed
  obtain ⟨blocks, isBlocks, isRead⟩ := bind_eq_some_iff.mp isRead
  simp only [messageBlocks, isBlocks, getD_some]
  dsimp only at isRead
  split at isRead
  · cases isRead
  · exact (Option.some.inj isRead).symm

theorem parseClaudeMessage_events {speaker : Speaker}
    (isParsed : parseClaudeMessage speaker content toolUseResult timestamp = some events) :
    events = (messageBlocks speaker content).filterMap (Spoken.event
      { speaker, timestamp, content, toolUse := claudeToolResultContent toolUseResult }) := by
  cases speaker with
  | user => exact parseClaudeUserMessage_events isParsed
  | assistant => exact parseClaudeAssistantMessage_events isParsed

/-- What the timeline shows for a message. -/
def Spoken.shown (spoken : Spoken Time) : List (TimelineEvent Time) :=
  spoken.blocks.filterMap spoken.event

variable {parseTime : Text → Option Time}

theorem placed_shown (file : List FileLine) :
    ((placed parseTime file).filterMap fun place => place.1.event place.2) =
      file.flatMap (FileLine.shown fun raw =>
        (spoken parseTime raw).toList.flatMap Spoken.shown) := by
  have perMessage : ∀ spoken : Spoken Time,
      ((spoken.blocks.map (spoken, ·)).filterMap fun place => place.1.event place.2) =
        spoken.shown := by
    intro spoken
    rw [List.filterMap_map]
    rfl
  have perLine : ∀ line : FileLine, (lineSpoken parseTime line).flatMap Spoken.shown =
      line.shown fun raw => (spoken parseTime raw).toList.flatMap Spoken.shown := by
    intro line
    cases line with
    | blank | invalid | value raw => rfl
  rw [placed, List.filterMap_flatMap]
  simp only [perMessage, List.flatMap_assoc, perLine]

theorem lineSpoken_ignored (ignored : Ignored line) : lineSpoken parseTime line = [] := by
  cases line with
  | blank | invalid => rfl
  | value raw =>
    obtain ⟨read, isRead, isOther⟩ := ignored
    rw [lineSpoken, spoken, isRead, bind_eq_bind, bind_some, isOther]
    rfl

theorem placed_ignored (ignored : Ignored line) (before after : List FileLine) :
    placed parseTime (before ++ line :: after) = placed parseTime (before ++ after) := by
  rw [placed, placed, List.flatMap_append, List.flatMap_cons, lineSpoken_ignored ignored,
    List.nil_append, ← List.flatMap_append]

variable [Inhabited Time]

theorem claudeStep_events (number : Nat) (session : Session Time) (raw : RawMessage)
    (next : Session Time) (isNext : claudeStep parseTime number session raw = some next) :
    next.events = session.events ++ (spoken parseTime raw).toList.flatMap Spoken.shown := by
  unfold claudeStep at isNext
  unfold spoken
  obtain ⟨line, isLine, isNext⟩ := bind_eq_some_iff.mp isNext
  rw [isLine, bind_eq_bind, bind_some]
  cases isSpeaker : speaker line.type with
  | none =>
    simp only [isSpeaker] at isNext
    cases isNext
    exact (List.append_nil _).symm
  | some speaker =>
    simp only [isSpeaker] at isNext
    obtain ⟨raw, isRaw, isNext⟩ := bind_eq_some_iff.mp isNext
    obtain ⟨message, isMessage, isNext⟩ := bind_eq_some_iff.mp isNext
    obtain ⟨result, isResult, isNext⟩ := bind_eq_some_iff.mp isNext
    obtain ⟨timestamp, isTimestamp, isNext⟩ := bind_eq_some_iff.mp isNext
    obtain ⟨events, isEvents, isNext⟩ := bind_eq_some_iff.mp isNext
    simp only [isRaw, isMessage, isResult, isTimestamp, bind_eq_bind, bind_some,
      Option.toList_some, List.flatMap_cons, List.flatMap_nil, List.append_nil]
    rw [← Option.some.inj isNext]
    refine congrArg₂ (· ++ ·) ?_ (parseClaudeMessage_events isEvents)
    cases speaker with
    | user | assistant => rfl

theorem parseClaude_events {file : List FileLine} {session : Session Time}
    (isParsed : ParseClaude parseTime file = some session) :
    session.events = (placed parseTime file).filterMap fun place => place.1.event place.2 := by
  obtain ⟨last, isLast, isStarted⟩ := bind_eq_some_iff.mp isParsed
  rw [started_events isStarted, readLines_events claudeStep_events file isLast, List.nil_append,
    placed_shown]

end

section

variable {Time : Type} {spoken : Spoken Time} {block : ClaudeContentBlock}

theorem resultContent_eq_nil_iff (toolUse : Text × Bool) (value : Text) :
    resultContent toolUse value = [] ↔ value = [] ∧ toolUse.1 = [] := by
  unfold resultContent
  grind

theorem resultContent_own_iff (alone : Prop) (toolUse : Text × Bool) (value : Text) :
    ((resultContent toolUse value ≠ [] → resultContent toolUse value = value ∨
            alone ∧ toolUse.1 = resultContent toolUse value) ∧
        (resultContent toolUse value = [] → value = [])) ↔
      (¬ alone → toolUse.1 ≠ [] → if toolUse.2 then value = toolUse.1 else value ≠ []) := by
  unfold resultContent
  by_cases isEmpty : toolUse.1 = []
  · simp only [isEmpty, ne_eq, not_true_eq_false, and_false, if_false, imp_self, true_or,
      implies_true, false_implies]
    simp
  · cases isPreferred : toolUse.2 <;> grind

theorem event_foreign (notHas : ¬ spoken.speaker.has block.kind) : spoken.event block = none := by
  cases isSpeaker : spoken.speaker <;> cases isKind : block.kind <;>
    simp_all [Spoken.event, Speaker.has, userBlockEvent, assistantBlockEvent]

/-- But for tool results, a block of the speaker is shown with its own content, and it is not shown
only when there is none. -/
theorem event_of_has (has : spoken.speaker.has block.kind) (notResult : block.kind ≠ .toolResult) :
    (∀ event, spoken.event block = some event → (spoken.block block).Own event) ∧
      (spoken.event block = none → (spoken.block block).Empty) := by
  cases isSpeaker : spoken.speaker <;> cases isKind : block.kind <;>
    simp_all [Spoken.event, Speaker.has, userBlockEvent, assistantBlockEvent, Block.own_iff,
      Block.Empty, Spoken.block, Speaker.role, BlockKind.type, ClaudeContentBlock.own, textEvent,
      thinkingEvent, toolCallEvent]

theorem event_toolResult (isUser : spoken.speaker = .user) (isResult : block.kind = .toolResult) :
    spoken.event block = if resultContent spoken.toolUse block.own = [] then none
      else some (toolResultEvent spoken.timestamp (resultContent spoken.toolUse block.own)) := by
  simp only [Spoken.event, isUser, userBlockEvent, ClaudeContentBlock.own, isResult]

theorem own_toolResult_iff (isUser : spoken.speaker = .user) (isResult : block.kind = .toolResult)
    (content : Text) :
    (spoken.block block).Own (toolResultEvent spoken.timestamp content) ↔
      content = block.own ∨ spoken.results = 1 ∧ spoken.toolUse.1 = content := by
  simp only [Block.own_iff, Spoken.block, isUser, isResult, Speaker.role, BlockKind.type,
    toolResultEvent, true_and]
  by_cases isOnly : spoken.results = 1
  · simp only [isOnly, if_true, true_and, Option.some.injEq]
  · simp only [isOnly, if_false, false_and, reduceCtorEq]

theorem empty_iff (notOther : block.kind ≠ .other) :
    (spoken.block block).Empty ↔ block.own = [] := by
  have hasType : block.kind.type spoken.speaker ≠ none := by
    cases isKind : block.kind <;> simp_all [BlockKind.type]
  exact ⟨fun isEmpty => isEmpty.resolve_left hasType, .inr⟩

theorem own_iff_clean (spoken : Spoken Time) (block : ClaudeContentBlock) :
    ((∀ event, spoken.event block = some event → (spoken.block block).Own event) ∧
        (spoken.event block = none → (spoken.block block).Empty)) ↔ spoken.Clean block := by
  rw [Spoken.clean_iff]
  by_cases has : spoken.speaker.has block.kind
  · have noForeign := iff_true_intro fun notHas : ¬ spoken.speaker.has block.kind =>
      (absurd has notHas : block.own = [])
    rw [noForeign, true_and]
    by_cases isResult : block.kind = .toolResult
    · have isUser : spoken.speaker = .user := by
        cases isSpeaker : spoken.speaker with
        | user => rfl
        | assistant => exact absurd isResult (by rwa [isSpeaker] at has)
      have notOther : block.kind ≠ .other := by
        rw [isResult]
        decide
      simp only [isUser, isResult, true_implies]
      rw [← resultContent_own_iff, event_toolResult isUser isResult, empty_iff notOther]
      by_cases isEmpty : resultContent spoken.toolUse block.own = []
      · simp [isEmpty]
      · simp [isEmpty, own_toolResult_iff isUser isResult]
    · exact iff_of_true (event_of_has has isResult) fun _ isKind => absurd isKind isResult
  · have notOther : block.kind ≠ .other := by
      intro isOther
      rw [isOther] at has
      cases isSpeaker : spoken.speaker <;> simp_all [Speaker.has]
    have notUser : spoken.speaker = .user → block.kind ≠ .toolResult := by
      intro isUser isResult
      rw [isUser, isResult] at has
      exact has ⟨by decide, by decide⟩
    rw [event_foreign has, empty_iff notOther]
    constructor
    · exact fun both => ⟨fun _ => both.2 rfl,
        fun isUser isResult => absurd isResult (notUser isUser)⟩
    · exact fun both => ⟨fun event isSome => (by cases isSome), fun _ => both.1 has⟩

theorem event_facts {event : TimelineEvent Time} (isEvent : spoken.event block = some event) :
    (event.type = .thinking ∨ event.type = .toolCall → event.role = .assistant) ∧
      (event.type = .toolResult → event.role = .user) ∧
      (event.type ≠ .thinking → event.type ≠ .toolCall → event.content ≠ []) := by
  unfold Spoken.event userBlockEvent assistantBlockEvent at isEvent
  dsimp only at isEvent
  cases isSpeaker : spoken.speaker <;> cases isKind : block.kind <;>
    simp only [isSpeaker, isKind] at isEvent <;>
    grind [textEvent, thinkingEvent, toolCallEvent, toolResultEvent]

theorem lawful : Lawful
    (fun place : Spoken Time × ClaudeContentBlock => (place.1.block place.2).Own)
    fun place => (place.1.event place.2 : Option (TimelineEvent Time)) := by
  refine ⟨fun ⟨spoken, block⟩ other event isEvent isOwn isNone => ?_⟩
  obtain ⟨ofAssistant, ofUser, notEmpty⟩ := event_facts isEvent
  have isRole : event.role = spoken.speaker.role := isOwn.role
  have isType : block.kind.type spoken.speaker = some event.type := isOwn.type
  have isContent : event.content = block.own ∨
      (if block.kind = .toolResult ∧ spoken.results = 1 then some spoken.toolUse.1 else none) =
        some event.content := isOwn.content
  unfold Spoken.event userBlockEvent assistantBlockEvent at isNone
  unfold ClaudeContentBlock.own at isContent
  dsimp only at isNone
  cases isSpeaker : spoken.speaker <;> cases isKind : block.kind <;>
    simp only [isSpeaker, isKind, BlockKind.type, Speaker.role, Option.some.injEq,
      reduceCtorEq] at isRole isType isNone isContent <;>
    grind [resultContent_eq_nil_iff]

end

section

variable {Time : Type} [Inhabited Time] {parseTime : Text → Option Time}

theorem shows_iff_clean {file : List FileLine} {session : Session Time}
    (isParsed : ParseClaude parseTime file = some session) :
    Shows Block.Own Block.Empty (blocks parseTime file) session.events ↔ Clean parseTime file := by
  rw [blocks, shows_map_iff, parseClaude_events isParsed, shows_filterMap_iff lawful]
  simp only [own_iff_clean, placed, Clean, List.mem_flatMap, List.mem_map]
  constructor
  · intro each spoken isSpoken block isBlock
    exact each (spoken, block) ⟨spoken, isSpoken, block, isBlock, rfl⟩
  · rintro each _ ⟨spoken, isSpoken, block, isBlock, rfl⟩
    exact each spoken isSpoken block isBlock

end

end AiTools.Rewind.Claude
