import AiTools.Lib.GoText

/-!
Contract: JSON values with the text that they have in the file, and how they are decoded.
-/

namespace AiTools.Rewind

abbrev Text := List Char

/-- A value with its text. -/
inductive RawMessage where
  | null (source : Text)
  | bool (source : Text)
  | number (source : Text)
  | string (source value : Text)
  | array (source : Text) (elements : List RawMessage)
  | object (source : Text) (members : List (Text × RawMessage))

namespace RawMessage

def source : RawMessage → Text
  | null source | bool source | number source | string source _ | array source _
  | object source _ => source

/-- A null leaves the string as it is, which is empty. -/
def asString : RawMessage → Option Text
  | string _ value => some value
  | null _ => some []
  | _ => none

def isBool : RawMessage → Bool
  | bool _ | null _ => true
  | _ => false

/-- The members of an object, for a struct. -/
def asStruct : RawMessage → Option (List (Text × RawMessage))
  | object _ members => some members
  | null _ => some []
  | _ => none

def asList : RawMessage → Option (List RawMessage)
  | array _ elements => some elements
  | null _ => some []
  | _ => none

end RawMessage

/-- The two letters outside ASCII that fold to one of it are the Kelvin sign and the long s. -/
def foldRune (char : Char) : Char :=
  if char.toNat = 0x212a then 'k' else if char.toNat = 0x17f then 's' else char.toLower

/-- The members that belong to a field, whatever the case of their letters. -/
def membersOf (name : Text) (members : List (Text × RawMessage)) : List RawMessage :=
  (members.filter fun member => member.1.map foldRune = name.map foldRune).map Prod.snd

/-- A null leaves the value that an earlier member has set. -/
def stringFrom : Text → List RawMessage → Option Text
  | value, [] => some value
  | value, .null _ :: rest => stringFrom value rest
  | _, .string _ value :: rest => stringFrom value rest
  | _, _ :: _ => none

def stringField (name : String) (members : List (Text × RawMessage)) : Option Text :=
  stringFrom [] (membersOf name.toList members)

def rawField (name : String) (members : List (Text × RawMessage)) : Option RawMessage :=
  (membersOf name.toList members).getLast?

def areBools (name : String) (members : List (Text × RawMessage)) : Bool :=
  (membersOf name.toList members).all RawMessage.isBool

/-- A string, or else the text of the value. -/
def rawMessageAsString : Option RawMessage → Text
  | none => []
  | some raw => raw.asString.getD raw.source

end AiTools.Rewind
