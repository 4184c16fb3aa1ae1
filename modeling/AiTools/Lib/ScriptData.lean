import Mathlib

/-!
Contract: what the HTML tokenizer makes of the text of a script element.
-/

namespace AiTools.Lib.ScriptData

abbrev Text := List Char

/-- A name is that of the tag that may be under way. -/
inductive State where
  | scriptData | lessThan | endTagOpen
  | endTagName (name : Text)
  | escapeStart | escapeStartDash
  | escaped | escapedDash | escapedDashDash | escapedLessThan | escapedEndTagOpen
  | escapedEndTagName (name : Text)
  | doubleEscapeStart (name : Text)
  | doubleEscaped | doubleDash | doubleDashDash | doubleLessThan
  | doubleEscapeEnd (name : Text)
  deriving DecidableEq

def script : Text := ['s', 'c', 'r', 'i', 'p', 't']

/-- What ends the name of a tag. -/
def isTerminator (char : Char) : Bool := ['\t', '\n', '\x0c', ' ', '/', '>'].contains char

def fromData (char : Char) : State := if char = '<' then .lessThan else .scriptData

def fromEscaped (char : Char) : State :=
  if char = '-' then .escapedDash else if char = '<' then .escapedLessThan else .escaped

def fromDouble (char : Char) : State :=
  if char = '-' then .doubleDash else if char = '<' then .doubleLessThan else .doubleEscaped

/-- The state behind a character that does not end the element. -/
def next : State → Char → State
  | .scriptData, char => fromData char
  | .lessThan, char =>
    if char = '/' then .endTagOpen else if char = '!' then .escapeStart else fromData char
  | .endTagOpen, char => if char.isAlpha then .endTagName [char.toLower] else fromData char
  | .endTagName name, char =>
    if char.isAlpha then .endTagName (name ++ [char.toLower]) else fromData char
  | .escapeStart, char => if char = '-' then .escapeStartDash else fromData char
  | .escapeStartDash, char => if char = '-' then .escapedDashDash else fromData char
  | .escaped, char => fromEscaped char
  | .escapedDash, char =>
    if char = '-' then .escapedDashDash else if char = '<' then .escapedLessThan else .escaped
  | .escapedDashDash, char =>
    if char = '-' then .escapedDashDash else if char = '<' then .escapedLessThan
    else if char = '>' then .scriptData else .escaped
  | .escapedLessThan, char =>
    if char = '/' then .escapedEndTagOpen
    else if char.isAlpha then .doubleEscapeStart [char.toLower] else fromEscaped char
  | .escapedEndTagOpen, char =>
    if char.isAlpha then .escapedEndTagName [char.toLower] else fromEscaped char
  | .escapedEndTagName name, char =>
    if char.isAlpha then .escapedEndTagName (name ++ [char.toLower]) else fromEscaped char
  | .doubleEscapeStart name, char =>
    if isTerminator char then (if name = script then .doubleEscaped else .escaped)
    else if char.isAlpha then .doubleEscapeStart (name ++ [char.toLower]) else fromEscaped char
  | .doubleEscaped, char => fromDouble char
  | .doubleDash, char =>
    if char = '-' then .doubleDashDash else if char = '<' then .doubleLessThan
    else .doubleEscaped
  | .doubleDashDash, char =>
    if char = '-' then .doubleDashDash else if char = '<' then .doubleLessThan
    else if char = '>' then .scriptData else .doubleEscaped
  | .doubleLessThan, char => if char = '/' then .doubleEscapeEnd [] else fromDouble char
  | .doubleEscapeEnd name, char =>
    if isTerminator char then (if name = script then .escaped else .doubleEscaped)
    else if char.isAlpha then .doubleEscapeEnd (name ++ [char.toLower]) else fromDouble char

/-- Whether the name of an end tag of the element ends. -/
def closes : State → Char → Bool
  | .endTagName name, char | .escapedEndTagName name, char => name = script && isTerminator char
  | _, _ => false

def run (state : State) (text : Text) : State := text.foldl next state

/-- No `/` follows a `<`. -/
def Apart : Bool → Text → Prop
  | _, [] => True
  | afterLess, char :: rest => ¬ (afterLess = true ∧ char = '/') ∧ Apart (char = '<') rest

/-- No tag that ends something is under way. -/
def Inside : State → Prop
  | .endTagOpen | .endTagName _ | .escapedEndTagOpen | .escapedEndTagName _
  | .doubleEscapeEnd _ => False
  | _ => True

def Less : State → Prop
  | .lessThan | .escapedLessThan | .doubleLessThan => True
  | _ => False

def Double : State → Prop
  | .doubleEscaped | .doubleDash | .doubleDashDash | .doubleLessThan => True
  | _ => False

instance (state : State) : Decidable (Double state) :=
  match state with
  | .doubleEscaped | .doubleDash | .doubleDashDash | .doubleLessThan => isTrue trivial
  | .scriptData | .lessThan | .endTagOpen | .endTagName _ | .escapeStart | .escapeStartDash
  | .escaped | .escapedDash | .escapedDashDash | .escapedLessThan | .escapedEndTagOpen
  | .escapedEndTagName _ | .doubleEscapeStart _ | .doubleEscapeEnd _ => isFalse id

variable {state : State}

theorem not_closes (inside : Inside state) (char : Char) : closes state char = false := by
  cases state <;> first | rfl | cases inside

theorem next_inside {char : Char} (inside : Inside state) (apart : Less state → char ≠ '/') :
    Inside (next state char) ∧ (Less (next state char) → char = '<') := by
  cases state <;> simp only [next, fromData, fromEscaped, fromDouble] <;> split_ifs <;>
    simp_all [Inside, Less]

theorem run_inside (text : Text) : ∀ {state : State} {afterLess : Bool}, Inside state →
    (Less state → afterLess = true) → Apart afterLess text → Inside (run state text) := by
  induction text with
  | nil => exact fun inside _ _ => inside
  | cons char rest ih =>
    intro state afterLess inside isLess apart
    obtain ⟨isInside, isNext⟩ := next_inside inside
      fun less isSlash => apart.1 ⟨isLess less, isSlash⟩
    exact ih isInside (fun less => decide_eq_true (isNext less)) apart.2

theorem run_data {text : Text} (noLess : '<' ∉ text) : run .scriptData text = .scriptData := by
  induction text with
  | nil => rfl
  | cons char rest ih =>
    have isData : next .scriptData char = .scriptData := by
      refine if_neg fun same => noLess ?_
      rw [same]
      exact List.mem_cons_self
    rw [run, List.foldl_cons, isData]
    exact ih fun isThere => noLess (List.mem_cons_of_mem _ isThere)

/-- The text so far, in an element, or behind its end tag with the text before it. -/
inductive Position where
  | within (state : State) (text : Text)
  | ended (text : Text) (rest : Text)

def endTag : Text := ['<', '/', 's', 'c', 'r', 'i', 'p', 't', '>']

/-- Reads up to the end of the name of the end tag, which with its `</` is no text. -/
def element : State → Text → Text → Position
  | state, text, [] => .within state text
  | state, text, char :: rest =>
    if closes state char then .ended (text.take (text.length - 8)) (char :: rest)
    else element (next state char) (text ++ [char]) rest

theorem element_inside (content rest : Text) : ∀ {state : State} {afterLess : Bool} {text : Text},
    Inside state → (Less state → afterLess = true) → Apart afterLess content →
      element state text (content ++ rest) =
        element (run state content) (text ++ content) rest := by
  induction content with
  | nil =>
    intro state afterLess text _ _ _
    rw [List.nil_append, List.append_nil]
    rfl
  | cons char content ih =>
    intro state afterLess text inside isLess apart
    obtain ⟨isInside, isNext⟩ := next_inside inside
      fun less isSlash => apart.1 ⟨isLess less, isSlash⟩
    rw [List.cons_append, element, not_closes inside, if_neg Bool.false_ne_true,
      ih isInside (fun less => decide_eq_true (isNext less)) apart.2, List.append_assoc]
    rfl

theorem next_less (inside : Inside state) :
    ¬ Double state ∧ (next state '<' = .lessThan ∨ next state '<' = .escapedLessThan) ∨
      Double state ∧ next state '<' = .doubleLessThan := by
  cases state <;> simp_all [next, fromData, fromEscaped, fromDouble, Inside, Double, isTerminator]

theorem element_endTag (inside : Inside state) (text rest : Text) :
    element state text (endTag ++ rest) =
      if Double state then element .escaped (text ++ endTag) rest
      else .ended text ('>' :: rest) := by
  have isText : (text ++ ['<'] ++ ['/'] ++ ['s'] ++ ['c'] ++ ['r'] ++ ['i'] ++ ['p'] ++ ['t']).take
      ((text ++ ['<'] ++ ['/'] ++ ['s'] ++ ['c'] ++ ['r'] ++ ['i'] ++ ['p'] ++ ['t']).length - 8) =
        text := by
    simp only [List.append_assoc, List.length_append]
    exact List.take_left' rfl
  have isStep : element state text (endTag ++ rest) = element (next state '<') (text ++ ['<'])
        ('/' :: 's' :: 'c' :: 'r' :: 'i' :: 'p' :: 't' :: '>' :: rest) := by
    rw [endTag, List.cons_append, element, not_closes inside, if_neg Bool.false_ne_true]
    rfl
  rw [isStep]
  rcases next_less inside with ⟨notDouble, isLess | isEscaped⟩ | ⟨isDouble, isLess⟩
  · rw [if_neg notDouble, isLess]
    exact congrArg (Position.ended · ('>' :: rest)) isText
  · rw [if_neg notDouble, isEscaped]
    exact congrArg (Position.ended · ('>' :: rest)) isText
  · rw [if_pos isDouble, isLess]
    have isTag : text ++ ['<'] ++ ['/'] ++ ['s'] ++ ['c'] ++ ['r'] ++ ['i'] ++ ['p'] ++ ['t'] ++
        ['>'] = text ++ endTag := by simp [endTag]
    exact congrArg (element .escaped · rest) isTag

/-- How much of the text may turn out to be an end tag. -/
def pending : State → Nat
  | .endTagOpen | .escapedEndTagOpen => 2
  | .endTagName name | .escapedEndTagName name => 2 + name.length
  | .lessThan | .escapedLessThan => 1
  | _ => 0

theorem pending_next (state : State) (char : Char) :
    pending (next state char) ≤ pending state + 1 := by
  cases state <;> simp only [next, fromData, fromEscaped, fromDouble] <;> split_ifs <;>
    simp only [pending, List.length_append, List.length_singleton] <;> omega

def Position.text : Position → Text
  | within _ text => text
  | ended text _ => text

theorem le_length_element (rest : Text) : ∀ {state : State} {text : Text} {length : Nat},
    length + pending state ≤ text.length → length ≤ (element state text rest).text.length := by
  induction rest with
  | nil =>
    intro state text length isLong
    exact Nat.le_of_add_right_le isLong
  | cons char rest ih =>
    intro state text length isLong
    rw [element]
    split
    · rename_i isClosed
      have isEight : pending state = 8 := by
        cases state <;> try cases isClosed
        all_goals
          have isName := (Bool.and_eq_true _ _ ▸ isClosed).1
          rw [of_decide_eq_true isName]
          rfl
      rw [Position.text, List.length_take]
      omega
    · refine ih ?_
      have := pending_next state char
      rw [List.length_append, List.length_singleton]
      omega

end AiTools.Lib.ScriptData
