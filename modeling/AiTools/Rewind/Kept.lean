import AiTools.Rewind.ClaudeBlocks
import AiTools.Rewind.CodexBlocks

/-!
Contract: the timeline of a session keeps every block with its own content.
-/

namespace AiTools.Rewind

open AiTools.Lib.Attribution

variable {Time : Type} [Inhabited Time] [DecidableEq Time] (parseTime : Text → Option Time)

def parse : Backend → List FileLine → Option (Session Time)
  | .claude => Claude.ParseClaude parseTime
  | .codex => Codex.ParseCodex parseTime

def blocks : Backend → List FileLine → List (Block Time)
  | .claude => Claude.blocks parseTime
  | .codex => Codex.blocks parseTime

def Ignored : Backend → FileLine → Prop
  | .claude => Claude.Ignored
  | .codex => Codex.Ignored

/-- Each event is its block's own, in the order of the blocks, and only a block without content has
none. A line that is ignored could as well be left out. -/
structure Keeps (backend : Backend) (file : List FileLine) (session : Session Time) : Prop where
  shown : Shows Block.Own Block.Empty (blocks parseTime backend file) session.events
  ignored : ∀ before line after, file = before ++ line :: after → Ignored backend line →
    ∀ other, parse parseTime backend (before ++ after) = some other → other.events = session.events

/-- The messages of a Claude session have blocks of their speaker's kinds only, and several tool
results in one message agree with what the message's own result is. -/
def Clean : Backend → List FileLine → Prop
  | .claude => Claude.Clean parseTime
  | .codex => fun _ => True

variable {parseTime}
variable {backend : Backend}

theorem ignored_events {before after : List FileLine} {line : FileLine}
    {session other : Session Time} (ignored : Ignored backend line)
    (isParsed : parse parseTime backend (before ++ line :: after) = some session)
    (isOther : parse parseTime backend (before ++ after) = some other) :
    other.events = session.events := by
  cases backend with
  | claude =>
    rw [Claude.parseClaude_events isOther, Claude.parseClaude_events isParsed,
      Claude.placed_ignored ignored]
  | codex =>
    rw [Codex.parseCodex_events isOther, Codex.parseCodex_events isParsed,
      Codex.placed_ignored ignored]

theorem shown_iff {file : List FileLine} {session : Session Time}
    (isParsed : parse parseTime backend file = some session) :
    Shows Block.Own Block.Empty (blocks parseTime backend file) session.events ↔
      Clean parseTime backend file := by
  cases backend with
  | claude => exact Claude.shows_iff_clean isParsed
  | codex => exact iff_of_true (Codex.shows isParsed) trivial

/-- In every accepted file, of any number of lines. -/
theorem keeps_iff_clean (backend : Backend) (file : List FileLine) (session : Session Time)
    (isParsed : parse parseTime backend file = some session) :
    Keeps parseTime backend file session ↔ Clean parseTime backend file := by
  constructor
  · exact fun keeps => (shown_iff isParsed).mp keeps.shown
  · intro clean
    refine ⟨(shown_iff isParsed).mpr clean, ?_⟩
    intro before line after isFile ignored other isOther
    exact ignored_events ignored (isFile ▸ isParsed) isOther

def quoted (value : String) : Text := '"' :: value.toList ++ ['"']

def jsonString (value : String) : RawMessage := .string (quoted value) value.toList

def jsonArray (elements : List RawMessage) : RawMessage :=
  .array ('[' :: [','].intercalate (elements.map RawMessage.source) ++ [']']) elements

def jsonObject (members : List (String × RawMessage)) : RawMessage :=
  .object
    ('{' :: [','].intercalate (members.map fun member =>
      quoted member.1 ++ ':' :: member.2.source) ++ ['}'])
    (members.map fun member => (member.1.toList, member.2))

def userLine (content : RawMessage) (fields : List (String × RawMessage)) : FileLine :=
  .value (jsonObject (("type", jsonString "user") :: ("timestamp", jsonString "t") ::
    ("message", jsonObject [("content", content)]) :: fields))

def toolResult (content : String) : RawMessage :=
  jsonObject [("type", jsonString "tool_result"), ("content", jsonString content)]

/-- Two tool results in one message that has the output of a command. -/
def twoResults : List FileLine :=
  [userLine (jsonArray [toolResult "a", toolResult "b"])
    [("toolUseResult", jsonObject [("stdout", jsonString "b")])]]

/-- The output is shown for the first result as well, whose own content is lost. -/
theorem not_keeps_twoResults :
    ∃ session : Session Text, parse some .claude twoResults = some session ∧
      ¬ Keeps some .claude twoResults session := by
  refine ⟨_, rfl, fun keeps => ?_⟩
  have clean : Claude.Clean some twoResults := (shown_iff rfl).mp keeps.shown
  have isSpoken : twoResults.flatMap (Claude.lineSpoken some) = [_] := rfl
  have isClean := clean _ (isSpoken ▸ List.mem_cons_self) _ List.mem_cons_self
  have agrees := isClean.result rfl rfl (by decide) (by decide)
  exact absurd agrees (by decide)

def textAndResult : List FileLine :=
  [userLine (jsonString "hi") [], userLine (jsonArray [toolResult "b"])
    [("toolUseResult", jsonObject [("stdout", jsonString "b")])]]

theorem keeps_textAndResult :
    ∃ session : Session Text, parse some .claude textAndResult = some session ∧
      Keeps some .claude textAndResult session := by
  refine ⟨_, rfl, (keeps_iff_clean .claude textAndResult _ rfl).mpr ?_⟩
  have isSpoken : textAndResult.flatMap (Claude.lineSpoken some) = [_, _] := rfl
  have hasKind (kind : Claude.BlockKind) (isOf : kind = .text ∨ kind = .toolResult) :
      kind ≠ .thinking ∧ kind ≠ .toolUse := by
    rcases isOf with rfl | rfl <;> decide
  intro spoken isThere block isBlock
  rcases List.mem_pair.mp (isSpoken ▸ isThere) with rfl | rfl
  · obtain rfl := List.mem_singleton.mp isBlock
    exact ⟨fun notHas => absurd (hasKind _ (.inl rfl)) notHas,
      fun _ isResult => absurd isResult (by decide)⟩
  · obtain rfl := List.mem_singleton.mp isBlock
    exact ⟨fun notHas => absurd (hasKind _ (.inr rfl)) notHas,
      fun _ _ notOne => absurd rfl notOne⟩

end AiTools.Rewind
