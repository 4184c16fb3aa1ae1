import AiTools.Lib.GoText

/-!
Contract: the form DSL of `webform` (`schema/dsl.go`).

Floating point is a parameter. A group stays with its scope until it is closed; the source appends
to it through a pointer.
-/

namespace AiTools.Webform.Dsl

open AiTools.Lib AiTools.Lib.GoText

/-- `float64`, with `strconv.ParseFloat`, the integer that a value is, and `fmt.Sprint`. -/
structure Floats where
  Float64 : Type
  parseFloat : Text → Option Float64
  integer? : Float64 → Option Int
  sprint : Float64 → Text

/-- A Go value; a map has its entries in the order in which they were made. -/
inductive Value (floats : Floats) where
  | null
  | bool (value : Bool)
  | int (value : Int)
  | float (value : floats.Float64)
  | string (text : Text)
  | array (elements : List (Value floats))
  | object (members : List (Text × Value floats))

inductive DslError where
  | line (number : Nat) (error : DslError)
  | formOption (token : Text) (error : DslError)
  | fieldOption (token : Text) (error : DslError)
  | unexpected (bracket : Char)
  | unterminatedString
  | unterminatedArray
  | unterminatedObject
  | emptyValue
  | invalidQuoted
  | invalidJson
  | notScalar (context : Text)
  | notInteger (context : Text)
  | notToggle (name : Text)
  | invalidPath
  | conflict
  | formDeclared
  | formNested
  | formUsage
  | invalidFormOption (token : Text)
  | unknownFormOption (key : Text)
  | fieldUsage
  | invalidFieldOption (token : Text)
  | notGroup
  | noHeaderBefore
  | noHeader
  | unclosed (name : Text) (line : Nat)
  | noFields
  | tooDeep

/-- Where the two scanners are between two characters. -/
structure Scan where
  inQuote : Bool
  escaped : Bool
  squareDepth : Nat
  braceDepth : Nat
deriving DecidableEq

namespace Scan

def start : Scan := ⟨false, false, 0, 0⟩

/-- Outside of quotes and brackets. -/
def atTop (scan : Scan) : Bool :=
  !scan.inQuote && scan.squareDepth = 0 && scan.braceDepth = 0

/-- A character that goes to the current token. -/
def next (scan : Scan) (char : Char) : Except DslError Scan :=
  if scan.inQuote then
    if scan.escaped then .ok { scan with escaped := false }
    else if char = '\\' then .ok { scan with escaped := true }
    else if char = '"' then .ok { scan with inQuote := false }
    else .ok scan
  else if char = '"' then .ok { scan with inQuote := true }
  else if char = '[' then .ok { scan with squareDepth := scan.squareDepth + 1 }
  else if char = ']' then
    if scan.squareDepth = 0 then .error (.unexpected ']')
    else .ok { scan with squareDepth := scan.squareDepth - 1 }
  else if char = '{' then .ok { scan with braceDepth := scan.braceDepth + 1 }
  else if char = '}' then
    if scan.braceDepth = 0 then .error (.unexpected '}')
    else .ok { scan with braceDepth := scan.braceDepth - 1 }
  else .ok scan

/-- The checks at the end of the input. -/
def finish (scan : Scan) : Except DslError Unit :=
  if scan.inQuote then .error .unterminatedString
  else if scan.squareDepth ≠ 0 then .error .unterminatedArray
  else if scan.braceDepth ≠ 0 then .error .unterminatedObject
  else .ok ()

end Scan

/-- The loop of `splitTokens`. -/
def splitTokensFrom (scan : Scan) (current : Text) : Text → Except DslError (List Text)
  | [] => scan.finish.map fun _ => if current = [] then [] else [current]
  | char :: rest =>
    if scan.atTop && current = [] && char = '{' && trimSpace (char :: rest) = ['{'] then
      .ok [['{']]
    else if scan.atTop && isSpace char then
      if current = [] then splitTokensFrom scan [] rest
      else (splitTokensFrom scan [] rest).map (current :: ·)
    else (scan.next char).bind fun scan => splitTokensFrom scan (current ++ [char]) rest

def splitTokens (line : Text) : Except DslError (List Text) := splitTokensFrom .start [] line

def flush (current : Text) : Except DslError Text :=
  if trimSpace current = [] then .error .emptyValue else .ok (trimSpace current)

/-- The loop of `splitDelimited`. -/
def splitDelimitedFrom (delim : Char) (scan : Scan) (current : Text) :
    Text → Except DslError (List Text)
  | [] => scan.finish.bind fun _ => (flush current).map ([·])
  | char :: rest =>
    if scan.atTop && char = delim then
      (flush current).bind fun part =>
        (splitDelimitedFrom delim scan [] rest).map (part :: ·)
    else
      (scan.next char).bind fun scan => splitDelimitedFrom delim scan (current ++ [char]) rest

def splitDelimited (input : Text) (delim : Char) : Except DslError (List Text) :=
  splitDelimitedFrom delim .start [] input

/-! ## Values -/

section
variable {floats : Floats}

/-- A map entry is made or replaced. -/
def put (key : Text) (value : Value floats) :
    List (Text × Value floats) → List (Text × Value floats)
  | [] => [(key, value)]
  | (other, old) :: rest =>
    if other = key then (key, value) :: rest else (other, old) :: put key value rest

/-- How deep `encoding/json` reads. -/
def maxNestingDepth : Nat := 10000

mutual

/-- The value that `json.Unmarshal` gives; every number is a `float64`. -/
def fromJson : Json.Value → Option (Value floats)
  | .null => some .null
  | .bool value => some (.bool value)
  | .number literal => (floats.parseFloat literal).map .float
  | .string text => some (.string text)
  | .array elements => (elementsFromJson elements).map .array
  | .object members => (membersFromJson members).map .object

def elementsFromJson : List Json.Value → Option (List (Value floats))
  | [] => some []
  | element :: rest => (fromJson element).bind fun element =>
    (elementsFromJson rest).map (element :: ·)

/-- Of members of one name the last one stays. -/
def membersFromJson : List (Text × Json.Value) → Option (List (Text × Value floats))
  | [] => some []
  | (name, member) :: rest => (fromJson member).bind fun member =>
    (membersFromJson rest).map fun later =>
      if later.any (·.1 = name) then later else (name, member) :: later

end

def unmarshal (token : Text) : Option (Value floats) :=
  (Json.parse? maxNestingDepth token).bind fromJson

/-- What is neither quoted nor in brackets. -/
def parseWord (token : Text) : Value floats :=
  if token = ['t', 'r', 'u', 'e'] then .bool true
  else if token = ['f', 'a', 'l', 's', 'e'] then .bool false
  else if token = ['n', 'u', 'l', 'l'] then .null
  else match atoi? token with
    | some number => .int number
    | none =>
      match floats.parseFloat token with
      | some number =>
        if token.any (['.', 'e', 'E'].contains ·) then .float number else .string token
      | none => .string token

def hasEnds (first last : Char) (token : Text) : Bool :=
  token.head? = some first && token.getLast? = some last

def orError {Result : Type} (error : DslError) : Option Result → Except DslError Result
  | some result => .ok result
  | none => .error error

/-- The parts of an array are shorter than the array, which bounds `fuel`. -/
def parseValueWithin : Nat → Text → Except DslError (Value floats)
  | 0, _ => .error .tooDeep
  | fuel + 1, token =>
    let token := trimSpace token
    if token = [] then .error .emptyValue
    else if token.head? = some '"' then
      (orError .invalidQuoted (unquote? token)).map .string
    else if hasEnds '[' ']' token then
      let inner := trimSpace token.tail.dropLast
      if inner = [] then .ok (.array [])
      else (splitDelimited inner ',').bind fun parts =>
        (parts.mapM (parseValueWithin fuel)).map .array
    else if hasEnds '{' '}' token then orError .invalidJson (unmarshal token)
    else .ok (parseWord token)

def parseValue (token : Text) : Except DslError (Value floats) :=
  parseValueWithin (token.length + 1) token

def stringifyScalar (value : Value floats) (context : Text) : Except DslError Text :=
  match value with
  | .null => .ok []
  | .string text => .ok text
  | .bool true => .ok ['t', 'r', 'u', 'e']
  | .bool false => .ok ['f', 'a', 'l', 's', 'e']
  | .int number => .ok (itoa number)
  | .float number => .ok (floats.sprint number)
  | _ => .error (.notScalar context)

def valueToInt (value : Value floats) (context : Text) : Except DslError Int :=
  match value with
  | .int number => .ok number
  | .float number => orError (.notInteger context) (floats.integer? number)
  | .string text => orError (.notInteger context) (atoi? text)
  | _ => .error (.notInteger context)

def isToggle (number : Int) : Bool := number = 0 || number = 1

def normalizeToggle (value : Value floats) (name : Text) : Except DslError Int :=
  match value with
  | .bool true => .ok 1
  | .bool false => .ok 0
  | .int number => if isToggle number then .ok number else .error (.notToggle name)
  | .float number => orError (.notToggle name) ((floats.integer? number).filter isToggle)
  | .string text =>
    if text = ['t', 'r', 'u', 'e'] ∨ text = ['1'] then .ok 1
    else if text = ['f', 'a', 'l', 's', 'e'] ∨ text = ['0'] then .ok 0
    else .error (.notToggle name)
  | _ => .error (.notToggle name)

def formOptionAliases : List (Text × Text) :=
  [("d", "d"), ("desc", "d"), ("description", "d"), ("to", "to"), ("timeout", "to")].map
    fun pair => (pair.1.toList, pair.2.toList)

def fieldOptionAliases : List (Text × Text) :=
  [("accept", "accept"), ("def", "def"), ("default", "def"), ("f", "f"), ("fields", "f"),
    ("io", "io"), ("itemopts", "io"), ("it", "it"), ("item", "it"), ("max", "max"), ("min", "min"),
    ("mul", "mul"), ("multi", "mul"), ("multiple", "mul"), ("o", "o"), ("options", "o"),
    ("pat", "pat"), ("pattern", "pat"), ("ph", "ph"), ("placeholder", "ph"), ("r", "r"),
    ("req", "r"), ("required", "r"), ("rows", "rows"), ("step", "step")].map
    fun pair => (pair.1.toList, pair.2.toList)

def canonicalKey (aliases : List (Text × Text)) (key : Text) : Text :=
  (aliases.lookup (trimSpace key)).getD (trimSpace key)

def canonicalFormOptionKey (key : Text) : Text := canonicalKey formOptionAliases key

def canonicalFieldOptionKey (key : Text) : Text := canonicalKey fieldOptionAliases key

/-- The source joins the parts again, and splits them where it sets the option. -/
def canonicalFieldOptionPath (path : Text) : List Text :=
  ((trimSpace path).splitOn '.').map canonicalFieldOptionKey

def setNestedOption : List (Text × Value floats) → List Text → Value floats →
    Except DslError (List (Text × Value floats))
  | opts, [], _ => .ok opts
  | opts, [part], value => if part = [] then .error .invalidPath else .ok (put part value opts)
  | opts, part :: next :: parts, value =>
    if part = [] then .error .invalidPath
    else match opts.lookup part with
      | none => (setNestedOption [] (next :: parts) value).map fun child =>
        put part (.object child) opts
      | some (.object child) => (setNestedOption child (next :: parts) value).map fun child =>
        put part (.object child) opts
      | some _ => .error .conflict

def r : Text := ['r']

def mul : Text := ['m', 'u', 'l']

def applyFieldToken (opts : List (Text × Value floats)) (token : Text) :
    Except DslError (List (Text × Value floats)) :=
  if token = [] then .ok opts
  else match cut '=' token with
    | none =>
      if canonicalFieldOptionKey token = r ∨ canonicalFieldOptionKey token = mul then
        .ok (put (canonicalFieldOptionKey token) (.int 1) opts)
      else .error (.invalidFieldOption token)
    | some (key, raw) =>
      let path := canonicalFieldOptionPath key
      ((parseValue raw).mapError (DslError.fieldOption token)).bind fun value =>
        let last := path.getLastD []
        if last = r ∨ last = mul then
          (normalizeToggle value last).bind fun number =>
            setNestedOption opts path (.int number)
        else setNestedOption opts path value

/-- A field with the fields of its group. -/
inductive DslField (floats : Floats) where
  | mk (name type label : Text) (opts : List (Text × Value floats))
      (children : List (DslField floats))

/-- The line of a field. -/
structure FieldLine (floats : Floats) where
  name : Text
  type : Text
  label : Text
  opts : List (Text × Value floats)

def FieldLine.withChildren (field : FieldLine floats) (children : List (DslField floats)) :
    DslField floats :=
  .mk field.name field.type field.label field.opts children

def grp : Text := ['g', 'r', 'p']

def valueToString (floats : Floats) (token context : Text) : Except DslError Text :=
  ((parseValue token : Except DslError (Value floats))).bind fun value =>
    stringifyScalar value context

def parseFieldTokens (tokens : List Text) : Except DslError (FieldLine floats × Bool) :=
  let opensGroup := tokens.getLast? = some ['{']
  match (if opensGroup then tokens.dropLast else tokens) with
  | name :: type :: label :: options =>
    (valueToString floats label "field label".toList).bind fun label =>
      if opensGroup ∧ type ≠ grp then .error .notGroup
      else (options.foldlM applyFieldToken []).map fun opts =>
        (⟨name, type, label, opts⟩, opensGroup)
  | _ => .error .fieldUsage

structure Header where
  title : Text
  description : Text
  timeout : Int

def applyFormToken (floats : Floats) (header : Header) (token : Text) : Except DslError Header :=
  match cut '=' token with
  | none => .error (.invalidFormOption token)
  | some (key, raw) =>
    let key := canonicalFormOptionKey key
    ((parseValue raw : Except DslError (Value floats)).mapError (DslError.formOption token)).bind
      fun value =>
        if key = ['d'] then
          (stringifyScalar value "form desc".toList).map fun description =>
            { header with description }
        else if key = ['t', 'o'] then
          (valueToInt value "form timeout".toList).map fun timeout => { header with timeout }
        else .error (.unknownFormOption key)

def parseFormTokens (floats : Floats) : List Text → Except DslError Header
  | _ :: title :: options =>
    (valueToString floats title "form title".toList).bind fun title =>
      options.foldlM (applyFormToken floats) ⟨title, [], 0⟩
  | _ => .error .formUsage

/-- A group that is open, with the line that opened it. -/
structure FieldScope (floats : Floats) where
  field : FieldLine floats
  line : Nat
  fields : List (DslField floats)

structure Parser (floats : Floats) where
  root : List (DslField floats)
  stack : List (FieldScope floats)
  header : Option Header

def Parser.start : Parser floats := ⟨[], [], none⟩

/-- A field goes to the innermost open group. -/
def Parser.addField (parser : Parser floats) (field : DslField floats) : Parser floats :=
  match parser.stack with
  | [] => { parser with root := parser.root ++ [field] }
  | scope :: outer =>
    { parser with stack := { scope with fields := scope.fields ++ [field] } :: outer }

def form : Text := ['f', 'o', 'r', 'm']

/-- The body of the loop, for a line that is trimmed. -/
def Parser.parseLine (parser : Parser floats) (number : Nat) (line : Text) :
    Except DslError (Parser floats) :=
  if line = [] ∨ line.head? = some '#' then .ok parser
  else if line = ['}'] then
    match parser.stack with
    | [] => .error (.unexpected '}')
    | scope :: outer =>
      .ok (({ parser with stack := outer }).addField (scope.field.withChildren scope.fields))
  else (splitTokens line).bind fun tokens =>
    if tokens = [] then .ok parser
    else if tokens.head? = some form then
      if parser.header.isSome then .error .formDeclared
      else if parser.stack ≠ [] then .error .formNested
      else (parseFormTokens floats tokens).map fun header => { parser with header := some header }
    else if parser.header.isNone then .error .noHeaderBefore
    else (parseFieldTokens tokens).map fun field =>
      if field.2 then { parser with stack := ⟨field.1, number, []⟩ :: parser.stack }
      else parser.addField (field.1.withChildren [])

/-- The loop over the lines. -/
def Parser.parseLines (parser : Parser floats) (number : Nat) :
    List Text → Except DslError (Parser floats)
  | [] => .ok parser
  | line :: rest =>
    ((parser.parseLine number (trimSpace line)).mapError (DslError.line number)).bind
      fun parser => parser.parseLines (number + 1) rest

def f : Text := ['f']

mutual

def toWire : DslField floats → Value floats
  | .mk name type label opts children =>
    let opts := if type = grp then put f (.array (fieldsToWire children)) opts else opts
    .array ([.string name, .string type, .string label] ++
      if opts.isEmpty then [] else [.object opts])

def fieldsToWire : List (DslField floats) → List (Value floats)
  | [] => []
  | field :: rest => toWire field :: fieldsToWire rest

end

/-- `raw` is the map that the source marshals. -/
structure Schema (floats : Floats) where
  title : Text
  description : Text
  timeout : Int
  fields : List (Value floats)
  raw : List (Text × Value floats)

def newSchema (title description : Text) (timeout : Int) (fields : List (Value floats)) :
    Except DslError (Schema floats) :=
  let wire : List (Text × Value floats) := [(['t'], .string title), (f, .array fields)]
  let wire := if description ≠ [] then put ['d'] (.string description) wire else wire
  let wire := if timeout > 0 then put ['t', 'o'] (.int timeout) wire else wire
  if fields.isEmpty then .error .noFields
  else .ok ⟨title, description, timeout, fields, wire⟩

def Parser.finish (parser : Parser floats) : Except DslError (Schema floats) :=
  match parser.header, parser.stack with
  | none, _ => .error .noHeader
  | some _, scope :: _ => .error (.unclosed scope.field.name scope.line)
  | some header, [] =>
    newSchema header.title header.description header.timeout (fieldsToWire parser.root)

def parseDSL (floats : Floats) (input : Text) : Except DslError (Schema floats) :=
  ((Parser.start : Parser floats).parseLines 1 ((crlfToLf input).splitOn '\n')).bind Parser.finish

end

end AiTools.Webform.Dsl
