import AiTools.Webform.Tokens

/-!
Contract: form descriptions, as the reference of the DSL documents them.
-/

namespace AiTools.Webform.Dsl

open AiTools.Lib AiTools.Lib.GoText

/-! ## Values -/

/-- What an option is set to, as it is written. -/
inductive Literal where
  | quoted (text : Text)
  | bare (text : Text)
  | integer (number : Int)
  | decimal (literal : Text)
  | bool (value : Bool)
  | null
  | array (elements : List Literal)
  | json (members : List (Text × Json.Value))

mutual

def Literal.render : Literal → Text
  | .quoted text => Json.quote text
  | .bare text => text
  | .integer number => itoa number
  | .decimal literal => literal
  | .bool true => ['t', 'r', 'u', 'e']
  | .bool false => ['f', 'a', 'l', 's', 'e']
  | .null => ['n', 'u', 'l', 'l']
  | .array elements => '[' :: [','].intercalate (Literal.renderAll elements) ++ [']']
  | .json members => Json.render (.object members)

def Literal.renderAll : List Literal → List Text
  | [] => []
  | literal :: rest => literal.render :: Literal.renderAll rest

end

section
variable (floats : Floats)

mutual

/-- The value that is meant; a decimal and a number of a JSON value are `float64`s. -/
def Literal.wire : Literal → Option (Value floats)
  | .quoted text => some (.string text)
  | .bare text => some (.string text)
  | .integer number => some (.int number)
  | .decimal literal => (floats.parseFloat literal).map .float
  | .bool value => some (.bool value)
  | .null => some .null
  | .array elements => (Literal.wireAll elements).map .array
  | .json members => fromJson (.object members)

def Literal.wireAll : List Literal → Option (List (Value floats))
  | [] => some []
  | literal :: rest => literal.wire.bind fun value =>
    (Literal.wireAll rest).map (value :: ·)

end

/-- Text that needs no quotes: one token that is no other value. -/
structure IsBare (stop : Char → Bool) (text : Text) : Prop where
  notEmpty : text ≠ []
  noSpace : ∀ char ∈ text, isSpace char = false
  isClosed : Closed stop text
  notQuoted : text.head? ≠ some '"'
  notArray : hasEnds '[' ']' text = false
  notJson : hasEnds '{' '}' text = false
  notWord : text ∉ [['t', 'r', 'u', 'e'], ['f', 'a', 'l', 's', 'e'], ['n', 'u', 'l', 'l']]
  notInteger : atoi? text = none
  notDecimal : floats.parseFloat text = none ∨ text.any (['.', 'e', 'E'].contains ·) = false

/-- What separates the elements of an array, and spaces. -/
def inArray (char : Char) : Bool := isSpace char || char = ','

mutual

/-- What is written and read back where such characters separate. -/
def Literal.Valid (stop : Char → Bool) : Literal → Prop
  | .bare text => IsBare floats stop text
  | .integer number => IsInt number
  | .decimal literal =>
    Json.isNumber literal = true ∧ literal.any (['.', 'e', 'E'].contains ·) = true
  | .array elements => Literal.AllValid inArray elements
  | .json members =>
    Json.WellFormed (.object members) ∧ Json.nesting (.object members) ≤ maxNestingDepth
  | _ => True

def Literal.AllValid (stop : Char → Bool) : List Literal → Prop
  | [] => True
  | literal :: rest => literal.Valid stop ∧ Literal.AllValid stop rest

end

end

/-- An option that is a flag, has a value, or has options of its own under a dotted path. -/
inductive Setting where
  | flag
  | value (literal : Literal)
  | nested (settings : List (Text × Setting))

mutual

def Setting.tokens (path : List Text) : Setting → List Text
  | .flag => [['.'].intercalate path]
  | .value literal => [['.'].intercalate path ++ '=' :: literal.render]
  | .nested settings => Setting.allTokens path settings

def Setting.allTokens (path : List Text) : List (Text × Setting) → List Text
  | [] => []
  | (key, setting) :: rest => setting.tokens (path ++ [key]) ++ Setting.allTokens path rest

end

def isToggleKey (key : Text) : Bool := key = r || key = mul

/-- `required` and `multiple` are on or off, which the wire writes as a number. -/
def Literal.toggled {floats : Floats} : Literal → Option (Value floats)
  | .bool true => some (.int 1)
  | .bool false => some (.int 0)
  | .integer number => if isToggle number then some (.int number) else none
  | _ => none

section
variable (floats : Floats)

def Literal.settled (key : Text) (literal : Literal) : Option (Value floats) :=
  if isToggleKey key then literal.toggled else literal.wire floats

mutual

def Setting.wire (key : Text) : Setting → Option (Value floats)
  | .flag => some (.int 1)
  | .value literal => literal.settled floats key
  | .nested settings => (Setting.allWire settings).map .object

def Setting.allWire : List (Text × Setting) → Option (List (Text × Value floats))
  | [] => some []
  | (key, setting) :: rest =>
    (setting.wire (canonicalFieldOptionKey key)).bind fun value =>
      (Setting.allWire rest).map ((canonicalFieldOptionKey key, value) :: ·)

end

/-- A key is one part of a path. -/
structure IsKey (key : Text) : Prop where
  notEmpty : key ≠ []
  noSpace : ∀ char ∈ key, isSpace char = false
  isClosed : Closed isSpace key
  noEquals : '=' ∉ key
  noDot : '.' ∉ key

def canonicalKeys (settings : List (Text × Setting)) : List Text :=
  settings.map fun setting => canonicalFieldOptionKey setting.1

mutual

def Setting.Valid (mayBeFlag : Prop) : Setting → Prop
  | .flag => mayBeFlag
  | .value literal => literal.Valid floats isSpace
  | .nested settings =>
    settings ≠ [] ∧ (canonicalKeys settings).Nodup ∧ Setting.AllValid (fun _ => False) settings

/-- Flags are options of the field itself. -/
def Setting.AllValid (mayBeFlag : Text → Prop) : List (Text × Setting) → Prop
  | [] => True
  | (key, setting) :: rest =>
    IsKey key ∧ setting.Valid (mayBeFlag key) ∧ Setting.AllValid mayBeFlag rest

end

def isFlagKey (key : Text) : Prop := isToggleKey (canonicalFieldOptionKey key) = true

/-- No option of a field is set twice. -/
structure OptionsValid (settings : List (Text × Setting)) : Prop where
  areDistinct : (canonicalKeys settings).Nodup
  areValid : Setting.AllValid floats isFlagKey settings

end

inductive Field where
  | mk (name type label : Text) (options : List (Text × Setting)) (children : List Field)

def indent (depth : Nat) : Text := List.replicate (2 * depth) ' '

def fieldTokens (name type label : Text) (options : List (Text × Setting)) : List Text :=
  [name, type, Json.quote label] ++ Setting.allTokens [] options

def line (depth : Nat) (tokens : List Text) : Text := indent depth ++ [' '].intercalate tokens

mutual

def Field.lines (depth : Nat) : Field → List Text
  | .mk name type label options children =>
    if type = grp then
      line depth (fieldTokens name type label options ++ [['{']]) ::
        (Field.allLines (depth + 1) children ++ [line depth [['}']]])
    else [line depth (fieldTokens name type label options)]

def Field.allLines (depth : Nat) : List Field → List Text
  | [] => []
  | field :: rest => field.lines depth ++ Field.allLines depth rest

end

section
variable (floats : Floats)

mutual

/-- A group has its fields as the option `f`. -/
def Field.wire : Field → Option (Value floats)
  | .mk name type label options children =>
    (Setting.allWire floats options).bind fun opts =>
      (Field.allWire children).map fun fields =>
        let opts := if type = grp then opts ++ [(f, .array fields)] else opts
        .array ([.string name, .string type, .string label] ++
          if opts.isEmpty then [] else [.object opts])

def Field.allWire : List Field → Option (List (Value floats))
  | [] => some []
  | field :: rest => field.wire.bind fun value => (Field.allWire rest).map (value :: ·)

end

/-- A token without separators. -/
structure IsPlainToken (token : Text) : Prop where
  notEmpty : token ≠ []
  noSpace : ∀ char ∈ token, isSpace char = false
  isClosed : Closed isSpace token

/-- A line that begins with it is the line of a field. -/
structure IsName (name : Text) : Prop extends IsPlainToken name where
  notForm : name ≠ form
  notComment : name.head? ≠ some '#'

mutual

/-- Only a group has fields, and its fields are no option of it. -/
def Field.Valid : Field → Prop
  | .mk name type _ options children =>
    IsName name ∧ IsPlainToken type ∧ OptionsValid floats options ∧
      (type = grp → f ∉ canonicalKeys options) ∧ (children ≠ [] → type = grp) ∧
        Field.AllValid children

def Field.AllValid : List Field → Prop
  | [] => True
  | field :: rest => field.Valid ∧ Field.AllValid rest

end

end

structure Form where
  title : Text
  description : Text
  timeout : Int
  fields : List Field

namespace Form

def desc : Text := ['d', 'e', 's', 'c']

def timeoutKey : Text := ['t', 'i', 'm', 'e', 'o', 'u', 't']

/-- An empty description and a timeout of zero are none. -/
def headerTokens (described : Form) : List Text :=
  [form, Json.quote described.title] ++ (if described.description = [] then []
      else [desc ++ '=' :: Json.quote described.description]) ++
    if described.timeout = 0 then [] else [timeoutKey ++ '=' :: itoa described.timeout]

def render (described : Form) : Text :=
  ['\n'].intercalate (line 0 described.headerTokens :: Field.allLines 0 described.fields)

/-- The raw schema has no description that is empty, and no timeout that is not positive. -/
def wire (floats : Floats) (described : Form) : Option (Schema floats) :=
  (Field.allWire floats described.fields).map fun fields =>
    ⟨described.title, described.description, described.timeout, fields,
      [(['t'], .string described.title), (f, .array fields)] ++
        (if described.description = [] then [] else [(['d'], .string described.description)]) ++
        if described.timeout > 0 then [(['t', 'o'], .int described.timeout)] else []⟩

structure Valid (floats : Floats) (described : Form) : Prop where
  isInt : IsInt described.timeout
  notEmpty : described.fields ≠ []
  areValid : Field.AllValid floats described.fields

/-- The schema that is meant is the one that is read back. -/
def RoundTrips (floats : Floats) (described : Form) : Prop :=
  ∃ schema, described.wire floats = some schema ∧ parseDSL floats described.render = .ok schema

end Form

end AiTools.Webform.Dsl
