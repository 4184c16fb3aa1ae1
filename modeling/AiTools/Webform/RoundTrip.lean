import AiTools.Webform.Options

/-!
Contract: a form that is written in the DSL is read back.

Owns the lines of a form and the parser's state behind each of them.
Does not own: the options of a field (`Options`).
-/

namespace AiTools.Webform.Dsl

open AiTools.Lib AiTools.Lib.GoText
open List (append_assoc append_nil cons_ne_nil mem_append mem_cons mem_singleton not_mem_nil)

variable {floats : Floats} {token first : Text} {tokens : List Text} {number : Nat}

theorem IsPlainToken.framed (isPlain : IsPlainToken token) : Framed token :=
  framed_of_noSpace isPlain.notEmpty isPlain.noSpace

/-- What a line is joined of, the brace of a group apart. -/
def IsWord (token : Text) : Prop := Readable isSpace token

theorem isWord_plain (isPlain : IsPlainToken token) : IsWord token :=
  ⟨isPlain.framed, isPlain.isClosed⟩

theorem isWord_quote (text : Text) : IsWord (Json.quote text) :=
  ⟨framed_of_ends _ (by decide) (by decide), Closed.quote (by decide) text⟩

theorem IsWord.isToken (isWord : IsWord token) : IsToken token :=
  ⟨isWord.notEmpty, isWord.isClosed⟩

theorem IsPath.framed {path : List Text} (isPath : IsPath path) :
    Framed (['.'].intercalate path) :=
  framed_intercalate isPath.notNone fun key isIn =>
    framed_of_noSpace (isPath.areKeys key isIn).notEmpty (isPath.areKeys key isIn).noSpace

theorem isWord_assignment {key text : Text} (isKey : Readable isSpace key)
    (isText : Readable isSpace text) : IsWord (key ++ '=' :: text) where
  notEmpty := List.append_ne_nil_of_left_ne_nil isKey.notEmpty _
  first := by
    rw [List.head?_append_of_ne_nil _ isKey.notEmpty]
    exact isKey.first
  last := by
    rw [List.append_cons, List.getLast?_append_of_ne_nil _ isText.notEmpty]
    exact isText.last
  isClosed := isKey.isClosed.append
    (Closed.append (Closed.of_plain (by decide) (by decide) : Closed isSpace ['=']) isText.isClosed)

mutual

theorem isWord_tokens {mayBeFlag : Prop} {path : List Text} (isPath : IsPath path)
    (setting : Setting) (isValid : setting.Valid floats mayBeFlag) :
    ∀ token ∈ setting.tokens path, IsWord token := by
  cases setting with
  | flag =>
    intro token isToken
    rw [mem_singleton.mp isToken]
    exact ⟨isPath.framed, isPath.isClosed⟩
  | value literal =>
    intro token isToken
    rw [mem_singleton.mp isToken]
    exact isWord_assignment ⟨isPath.framed, isPath.isClosed⟩
      (readable_render separates_isSpace literal isValid)
  | nested settings => exact isWord_allTokens isPath.areKeys settings isValid.2.2

theorem isWord_allTokens {mayBeFlag : Text → Prop} {path : List Text}
    (areKeys : ∀ key ∈ path, IsKey key) (settings : List (Text × Setting))
    (areValid : Setting.AllValid floats mayBeFlag settings) :
    ∀ token ∈ Setting.allTokens path settings, IsWord token := by
  cases settings with
  | nil => exact nofun
  | cons setting rest =>
    obtain ⟨isKey, isValid, areLaterValid⟩ := areValid
    intro token isToken
    rcases mem_append.mp isToken with isFirst | isLater
    · exact isWord_tokens (isPath_append areKeys isKey) setting.2 isValid token isFirst
    · exact isWord_allTokens areKeys rest areLaterValid token isLater

end

theorem framed_brace : Framed ['{'] := framed_of_noSpace (by decide) (by decide)

theorem splitTokens_brace : splitTokens ['{'] = .ok [['{']] := rfl

/-- A line of words, with the brace of a group after them or not. -/
structure IsLine (tokens : List Text) : Prop where
  isSplit : splitTokens ([' '].intercalate tokens) = .ok tokens
  notNone : tokens ≠ []
  areFramed : ∀ token ∈ tokens, Framed token
  areUnbroken : ∀ token ∈ tokens, ∀ char ∈ token, isBreak char = false

theorem isLine_words (notNone : tokens ≠ []) (areWords : ∀ token ∈ tokens, IsWord token) :
    IsLine tokens where
  isSplit := by
    have isLast := splitTokens_token (areWords _ (List.getLast_mem notNone)).isToken
    have isSplit := splitTokens_joined
      (fun token isIn => (areWords token (List.dropLast_subset _ isIn)).isToken) isLast
    rwa [List.dropLast_append_getLast] at isSplit
  notNone := notNone
  areFramed := fun token isIn => (areWords token isIn).toFramed
  areUnbroken := fun token isIn => scan?_notBreak (areWords token isIn).isClosed

theorem isLine_group (areWords : ∀ token ∈ tokens, IsWord token) :
    IsLine (tokens ++ [['{']]) where
  isSplit := splitTokens_joined (fun token isIn => (areWords token isIn).isToken) splitTokens_brace
  notNone := List.append_ne_nil_of_right_ne_nil _ (cons_ne_nil _ _)
  areFramed := by
    intro token isIn
    rcases mem_append.mp isIn with isWord | isBrace
    · exact (areWords token isWord).toFramed
    · exact mem_singleton.mp isBrace ▸ framed_brace
  areUnbroken := by
    intro token isIn
    rcases mem_append.mp isIn with isWord | isBrace
    · exact scan?_notBreak (areWords token isWord).isClosed
    · rw [mem_singleton.mp isBrace]
      decide

theorem trimSpace_line (depth : Nat) (notNone : tokens ≠ [])
    (areFramed : ∀ token ∈ tokens, Framed token) :
    trimSpace (line depth tokens) = [' '].intercalate tokens := by
  have isFramed := @framed_intercalate ' ' tokens notNone areFramed
  refine trimSpace_append (fun char isChar => ?_) isFramed.first isFramed.last
  rw [List.eq_of_mem_replicate isChar]
  decide

theorem line_unbroken (depth : Nat)
    (areUnbroken : ∀ token ∈ tokens, ∀ char ∈ token, isBreak char = false) :
    ∀ char ∈ line depth tokens, isBreak char = false := by
  intro char isChar
  rcases mem_append.mp isChar with isIndent | isJoined
  · rw [List.eq_of_mem_replicate isIndent]
    decide
  · rcases mem_intercalate isJoined with rfl | ⟨token, isToken, isIn⟩
    · decide
    · exact areUnbroken token isToken char isIn

theorem head?_intercalate {separator : Char} (notEmpty : first ≠ []) :
    ([separator].intercalate (first :: tokens)).head? = first.head? := by
  cases tokens with
  | nil => rw [List.intercalate_singleton]
  | cons next tokens =>
    rw [List.intercalate_cons_cons, append_assoc, List.head?_append_of_ne_nil _ notEmpty]

theorem parseLine_tokens {parser : Parser floats} (isLine : IsLine (first :: tokens))
    (notComment : first.head? ≠ some '#') :
    parser.parseLine number ([' '].intercalate (first :: tokens)) = if first = form then
        if parser.header.isSome then .error .formDeclared
        else if parser.stack ≠ [] then .error .formNested
        else (parseFormTokens floats (first :: tokens)).map fun header =>
          { parser with header := some header }
      else if parser.header.isNone then .error .noHeaderBefore
      else (parseFieldTokens (first :: tokens)).map fun field =>
        if field.2 then { parser with stack := ⟨field.1, number, []⟩ :: parser.stack }
        else parser.addField (field.1.withChildren []) := by
  have isFramed := @framed_intercalate ' ' _ isLine.notNone isLine.areFramed
  have notEmpty : first ≠ [] := (isLine.areFramed first List.mem_cons_self).notEmpty
  have isSplit := isLine.isSplit
  have notSkipped : ¬([' '].intercalate (first :: tokens) = [] ∨
      ([' '].intercalate (first :: tokens)).head? = some '#') := by
    rw [head?_intercalate notEmpty]
    exact not_or.mpr ⟨isFramed.notEmpty, notComment⟩
  have notClosing : [' '].intercalate (first :: tokens) ≠ ['}'] := fun isClosing => by
    rw [isClosing] at isSplit
    cases isSplit
  rw [Parser.parseLine, if_neg notSkipped, if_neg notClosing, isSplit]
  simp only [Except.bind, cons_ne_nil, if_false, List.head?_cons, Option.some.injEq]

theorem parseLines_cons {parser after : Parser floats} {line : Text}
    (isParsed : parser.parseLine number (trimSpace line) = .ok after) (rest : List Text) :
    parser.parseLines number (line :: rest) = after.parseLines (number + 1) rest := by
  rw [Parser.parseLines, isParsed]
  rfl

/-! ## Fields -/

theorem valueToString_quote (text context : Text) :
    valueToString floats (Json.quote text) context = .ok text := by
  have isRead := @parseValue_render floats isSpace separates_isSpace (.quoted text) trivial _ rfl
  rw [valueToString]
  exact congrArg (fun read => Except.bind read fun value => stringifyScalar value context) isRead

theorem canonicalKeys_eq {settings : List (Text × Setting)} {members : List (Text × Value floats)}
    (areWire : Setting.allWire floats settings = some members) :
    keys members = canonicalKeys settings := by
  induction settings generalizing members with
  | nil =>
    cases areWire
    rfl
  | cons setting rest ih =>
    obtain ⟨value, isWire, isRest⟩ := Option.bind_eq_some_iff.mp areWire
    obtain ⟨later, areLater, rfl⟩ := Option.map_eq_some_iff.mp isRest
    show _ :: keys later = _
    rw [ih areLater]
    rfl

section
variable {name type : Text} (label : Text) {options : List (Text × Setting)}
  {opts : List (Text × Value floats)}

theorem isWord_fieldTokens (isName : IsName name) (isType : IsPlainToken type)
    (areValid : OptionsValid floats options) :
    ∀ token ∈ fieldTokens name type label options, IsWord token := by
  intro token isToken
  rcases mem_append.mp isToken with isFirst | isOption
  · simp only [mem_cons, not_mem_nil, or_false] at isFirst
    rcases isFirst with rfl | rfl | rfl
    · exact isWord_plain isName.toIsPlainToken
    · exact isWord_plain isType
    · exact isWord_quote label
  · exact isWord_allTokens (fun _ isIn => absurd isIn not_mem_nil) options areValid.areValid
      token isOption

theorem parseFieldTokens_field (areWords : ∀ token ∈ fieldTokens name type label options,
      IsWord token) (areValid : OptionsValid floats options)
    (areWire : Setting.allWire floats options = some opts) :
    parseFieldTokens (fieldTokens name type label options) =
      .ok (⟨name, type, label, opts⟩, false) := by
  have notGroup : (fieldTokens name type label options).getLast? ≠ some ['{'] := fun isBrace => by
    have isClosed := (areWords _ (List.mem_of_getLast? isBrace)).isClosed
    exact absurd isClosed (by decide)
  rw [parseFieldTokens, if_neg notGroup]
  show (valueToString floats (Json.quote label) _).bind _ = _
  rw [valueToString_quote]
  show (if _ then _ else ((Setting.allTokens [] options).foldlM applyFieldToken []).map _) = _
  rw [if_neg (fun opens => notGroup opens.1), applyTokens_options areValid areWire,
    decide_eq_false notGroup]
  rfl

theorem parseFieldTokens_group (areValid : OptionsValid floats options)
    (areWire : Setting.allWire floats options = some opts) :
    parseFieldTokens (fieldTokens name grp label options ++ [['{']]) =
      .ok (⟨name, grp, label, opts⟩, true) := by
  have isGroup : (fieldTokens name grp label options ++ [['{']]).getLast? = some ['{'] :=
    List.getLast?_concat
  rw [parseFieldTokens, if_pos isGroup, List.dropLast_concat]
  show (valueToString floats (Json.quote label) _).bind _ = _
  rw [valueToString_quote]
  show (if _ then _ else ((Setting.allTokens [] options).foldlM applyFieldToken []).map _) = _
  rw [if_neg (fun opens => opens.2 rfl), applyTokens_options areValid areWire,
    decide_eq_true isGroup]
  rfl

end

def Parser.addFields (parser : Parser floats) (fields : List (DslField floats)) : Parser floats :=
  fields.foldl Parser.addField parser

theorem header_addField (parser : Parser floats) (field : DslField floats) :
    (parser.addField field).header = parser.header := by
  unfold Parser.addField
  split <;> rfl

theorem addFields_group (parser : Parser floats) (scope : FieldScope floats)
    (fields : List (DslField floats)) :
    ({ parser with stack := scope :: parser.stack } : Parser floats).addFields fields =
      { parser with
        stack := { scope with fields := scope.fields ++ fields } :: parser.stack } := by
  induction fields generalizing scope with
  | nil => rw [append_nil]; rfl
  | cons field fields ih =>
    have added := ih { scope with fields := scope.fields ++ [field] }
    rw [append_assoc, List.singleton_append] at added
    exact added

theorem addFields_root (parser : Parser floats) (atTop : parser.stack = [])
    (fields : List (DslField floats)) :
    parser.addFields fields = { parser with root := parser.root ++ fields } := by
  induction fields generalizing parser with
  | nil => rw [append_nil]; rfl
  | cons field fields ih =>
    have isAdded : parser.addField field = { parser with root := parser.root ++ [field] } := by
      rw [Parser.addField, atTop]
    show (parser.addField field).addFields fields = _
    rw [isAdded]
    refine (ih { parser with root := parser.root ++ [field] } atTop).trans ?_
    rw [append_assoc, List.singleton_append]

/-- Lines that add these fields to the innermost open group. -/
def Adds (floats : Floats) (lines : List Text) (fields : List (DslField floats)) : Prop :=
  ∀ (parser : Parser floats) (number : Nat) (rest : List Text), parser.header.isSome = true →
    parser.parseLines number (lines ++ rest) =
      (parser.addFields fields).parseLines (number + lines.length) rest

theorem Adds.append {first second : List Text} {fields others : List (DslField floats)}
    (isFirst : Adds floats first fields) (isSecond : Adds floats second others) :
    Adds floats (first ++ second) (fields ++ others) := by
  intro parser number rest hasHeader
  have stillHeader : (parser.addFields fields).header.isSome = true := by
    have isSame : (parser.addFields fields).header = parser.header := by
      clear isFirst hasHeader
      induction fields generalizing parser with
      | nil => rfl
      | cons field fields ih =>
        exact (ih (parser.addField field)).trans (header_addField parser field)
    rw [isSame, hasHeader]
  rw [append_assoc, isFirst parser number _ hasHeader, isSecond _ _ rest stillHeader,
    List.length_append, Nat.add_assoc, Parser.addFields, Parser.addFields, Parser.addFields,
    List.foldl_append]

section
variable {name type : Text} (label : Text) {options : List (Text × Setting)}
  {opts : List (Text × Value floats)} {depth : Nat}

theorem adds_field (isName : IsName name) (isType : IsPlainToken type)
    (areValid : OptionsValid floats options)
    (areWire : Setting.allWire floats options = some opts) :
    Adds floats [line depth (fieldTokens name type label options)]
      [.mk name type label opts []] := by
  intro parser number rest hasHeader
  have areWords := isWord_fieldTokens label isName isType areValid
  have isLine : IsLine (fieldTokens name type label options) :=
    isLine_words (cons_ne_nil _ _) areWords
  have notNone : ¬parser.header.isNone = true := by
    rw [← Option.not_isSome, hasHeader]
    decide
  have isParsed : parser.parseLine number
      (trimSpace (line depth (fieldTokens name type label options))) =
      .ok (parser.addField (.mk name type label opts [])) := by
    rw [trimSpace_line depth isLine.notNone isLine.areFramed]
    refine (parseLine_tokens isLine isName.notComment).trans ?_
    rw [if_neg isName.notForm, if_neg notNone]
    exact congrArg (Except.map _) (parseFieldTokens_field label areWords areValid areWire)
  exact parseLines_cons isParsed rest

theorem adds_group (isName : IsName name) (areValid : OptionsValid floats options)
    (areWire : Setting.allWire floats options = some opts) {lines : List Text}
    {children : List (DslField floats)} (addChildren : Adds floats lines children) :
    Adds floats (line depth (fieldTokens name grp label options ++ [['{']]) ::
      (lines ++ [line depth [['}']]])) [.mk name grp label opts children] := by
  intro parser number rest hasHeader
  have isGroup : IsPlainToken grp := ⟨by decide, by decide, by decide⟩
  have isLine := isLine_group (isWord_fieldTokens label isName isGroup areValid)
  have notNone : ¬parser.header.isNone = true := by
    rw [← Option.not_isSome, hasHeader]
    decide
  have isOpened : parser.parseLine number
      (trimSpace (line depth (fieldTokens name grp label options ++ [['{']]))) =
      .ok { parser with stack := ⟨⟨name, grp, label, opts⟩, number, []⟩ :: parser.stack } := by
    rw [trimSpace_line depth isLine.notNone isLine.areFramed]
    refine (parseLine_tokens isLine isName.notComment).trans ?_
    rw [if_neg isName.notForm, if_neg notNone]
    exact congrArg (Except.map _) (parseFieldTokens_group label areValid areWire)
  have isTrimmed : trimSpace (line depth [['}']]) = ['}'] := by
    have isFramed : Framed ['}'] := framed_of_noSpace (by decide) (by decide)
    rw [trimSpace_line depth (cons_ne_nil _ _) fun token isToken =>
      mem_singleton.mp isToken ▸ isFramed]
    rfl
  have added := addFields_group parser ⟨⟨name, grp, label, opts⟩, number, []⟩ children
  have isInside := addChildren
    { parser with stack := ⟨⟨name, grp, label, opts⟩, number, []⟩ :: parser.stack } (number + 1)
    ([line depth [['}']]] ++ rest) hasHeader
  rw [List.cons_append, append_assoc, parseLines_cons isOpened, isInside, added,
    List.singleton_append]
  have isClosed : Parser.parseLine
      { parser with stack := ⟨⟨name, grp, label, opts⟩, number, children⟩ :: parser.stack }
      (number + 1 + lines.length) (trimSpace (line depth [['}']])) =
      .ok (parser.addField (.mk name grp label opts children)) := by
    rw [isTrimmed]
    rfl
  refine (parseLines_cons isClosed rest).trans ?_
  have isLength : number + 1 + lines.length + 1 =
      number + (line depth (fieldTokens name grp label options ++ [['{']]) ::
        (lines ++ [line depth [['}']]])).length := by
    rw [List.length_cons, List.length_append, List.length_singleton]
    omega
  rw [isLength]
  rfl

end

mutual

theorem adds_lines (depth : Nat) (field : Field) (isValid : field.Valid floats)
    {value : Value floats} (isWire : field.wire floats = some value) :
    ∃ parsed, toWire parsed = value ∧ Adds floats (field.lines depth) [parsed] := by
  obtain ⟨name, type, label, options, children⟩ := field
  obtain ⟨isName, isType, areOptions, notFields, areChildren, areValid⟩ := isValid
  obtain ⟨opts, areOpts, isRest⟩ := Option.bind_eq_some_iff.mp isWire
  obtain ⟨fields, areFields, rfl⟩ := Option.map_eq_some_iff.mp isRest
  obtain ⟨parsed, areParsed, addChildren⟩ := adds_allLines (depth + 1) children areValid areFields
  by_cases isGroup : type = grp
  · subst isGroup
    have isAbsent : f ∉ keys opts := by
      rw [canonicalKeys_eq areOpts]
      exact notFields rfl
    have areLines := @Field.lines.eq_1 depth name grp label options children
    rw [if_pos rfl] at areLines
    rw [areLines]
    refine ⟨_, ?_, adds_group label isName areOptions areOpts addChildren⟩
    rw [toWire, areParsed, put_absent isAbsent]
  · have noChildren : children = [] := by
      by_contra areSome
      exact isGroup (areChildren areSome)
    subst noChildren
    have areLines := @Field.lines.eq_1 depth name type label options []
    rw [if_neg isGroup] at areLines
    rw [areLines]
    refine ⟨_, ?_, adds_field label isName isType areOptions areOpts⟩
    rw [toWire]
    dsimp only
    rw [if_neg isGroup, if_neg isGroup]

theorem adds_allLines (depth : Nat) (fields : List Field)
    (areValid : Field.AllValid floats fields) {values : List (Value floats)}
    (areWire : Field.allWire floats fields = some values) :
    ∃ parsed, fieldsToWire parsed = values ∧ Adds floats (Field.allLines depth fields) parsed := by
  cases fields with
  | nil =>
    cases areWire
    exact ⟨[], rfl, fun _ _ _ _ => rfl⟩
  | cons field rest =>
    obtain ⟨value, isWire, isRest⟩ := Option.bind_eq_some_iff.mp areWire
    obtain ⟨later, areLater, rfl⟩ := Option.map_eq_some_iff.mp isRest
    obtain ⟨parsed, isParsed, isAdded⟩ := adds_lines depth field areValid.1 isWire
    obtain ⟨others, areParsed, areAdded⟩ := adds_allLines depth rest areValid.2 areLater
    refine ⟨parsed :: others, ?_, isAdded.append areAdded⟩
    rw [fieldsToWire, isParsed, areParsed]

end

mutual

theorem lines_unbroken (depth : Nat) (field : Field) (isValid : field.Valid floats) :
    ∀ text ∈ field.lines depth, ∀ char ∈ text, isBreak char = false := by
  obtain ⟨name, type, label, options, children⟩ := field
  obtain ⟨isName, isType, areOptions, _, _, areValid⟩ := isValid
  have areWords := isWord_fieldTokens label isName isType areOptions
  rw [Field.lines]
  split
  · intro text isText
    rcases mem_cons.mp isText with rfl | isLater
    · exact line_unbroken depth (isLine_group areWords).areUnbroken
    · rcases mem_append.mp isLater with isChild | isClosing
      · exact allLines_unbroken (depth + 1) children areValid text isChild
      · rw [mem_singleton.mp isClosing]
        exact line_unbroken depth fun token isToken => by
          rw [mem_singleton.mp isToken]
          decide
  · intro text isText
    rw [mem_singleton.mp isText]
    exact line_unbroken depth (isLine_words (cons_ne_nil _ _) areWords).areUnbroken

theorem allLines_unbroken (depth : Nat) (fields : List Field)
    (areValid : Field.AllValid floats fields) :
    ∀ text ∈ Field.allLines depth fields, ∀ char ∈ text, isBreak char = false := by
  cases fields with
  | nil => exact nofun
  | cons field rest =>
    intro text isText
    rcases mem_append.mp isText with isFirst | isLater
    · exact lines_unbroken depth field areValid.1 text isFirst
    · exact allLines_unbroken depth rest areValid.2 text isLater

end

section
variable (described : Form)

theorem isWord_headerTokens : ∀ token ∈ described.headerTokens, IsWord token := by
  have isForm : IsPlainToken form := ⟨by decide, by decide, by decide⟩
  have isDesc : IsPlainToken Form.desc := ⟨by decide, by decide, by decide⟩
  have isTimeout : IsPlainToken Form.timeoutKey := ⟨by decide, by decide, by decide⟩
  intro token isToken
  rcases mem_append.mp isToken with isEarly | isTimed
  · rcases mem_append.mp isEarly with isFirst | isDescribed
    · rcases List.mem_pair.mp isFirst with rfl | rfl
      · exact isWord_plain isForm
      · exact isWord_quote _
    · split at isDescribed
      · exact absurd isDescribed not_mem_nil
      · rw [mem_singleton.mp isDescribed]
        exact isWord_assignment (isWord_plain isDesc) (isWord_quote _)
  · split at isTimed
    · exact absurd isTimed not_mem_nil
    · rw [mem_singleton.mp isTimed]
      exact isWord_assignment (isWord_plain isTimeout) (readable_of_numberChars separates_isSpace
        (itoa_ne_nil _) fun _ => isNumberChar_of_mem_itoa)

theorem applyFormToken_desc (header : Header) :
    applyFormToken floats header (Form.desc ++ '=' :: Json.quote described.description) =
      .ok { header with description := described.description } := by
  have isRead := @parseValue_render floats isSpace separates_isSpace
    (.quoted described.description) trivial _ rfl
  have isRead : parseValue (Json.quote described.description) =
      .ok (.string described.description : Value floats) := isRead
  rw [applyFormToken, cut_append (by decide)]
  dsimp only
  rw [isRead]
  rfl

theorem applyFormToken_timeout (isInt : IsInt described.timeout) (header : Header) :
    applyFormToken floats header (Form.timeoutKey ++ '=' :: itoa described.timeout) =
      .ok { header with timeout := described.timeout } := by
  have isRead := @parseValue_render floats isSpace separates_isSpace
    (.integer described.timeout) isInt _ rfl
  have isRead : parseValue (itoa described.timeout) =
      .ok (.int described.timeout : Value floats) := isRead
  rw [applyFormToken, cut_append (by decide)]
  dsimp only
  rw [isRead]
  rfl

theorem parseFormTokens_header (isInt : IsInt described.timeout) :
    parseFormTokens floats described.headerTokens =
      .ok ⟨described.title, described.description, described.timeout⟩ := by
  have isDescribed : (if described.description = [] then []
      else [Form.desc ++ '=' :: Json.quote described.description]).foldlM
        (applyFormToken floats) ⟨described.title, [], 0⟩ =
      .ok ⟨described.title, described.description, 0⟩ := by
    split
    · rename_i isEmpty
      rw [isEmpty]
      rfl
    · show (applyFormToken floats _ _).bind _ = _
      rw [applyFormToken_desc]
      rfl
  rw [Form.headerTokens, append_assoc]
  show (valueToString floats (Json.quote described.title) _).bind _ = _
  rw [valueToString_quote]
  show ((if described.description = [] then [] else _) ++ _ : List Text).foldlM
    (applyFormToken floats) ⟨described.title, [], 0⟩ = _
  rw [List.foldlM_append, isDescribed]
  show (if described.timeout = 0 then []
      else [Form.timeoutKey ++ '=' :: itoa described.timeout]).foldlM
        (applyFormToken floats) ⟨described.title, described.description, 0⟩ = _
  split
  · rename_i isZero
    rw [isZero]
    rfl
  · show (applyFormToken floats _ _).bind _ = _
    rw [applyFormToken_timeout described isInt]
    rfl

end

/-! ## Forms -/

theorem newSchema_wire {described : Form} {fields : List (Value floats)} (notNone : fields ≠ []) :
    newSchema described.title described.description described.timeout fields =
      .ok ⟨described.title, described.description, described.timeout, fields,
        [(['t'], .string described.title), (f, .array fields)] ++
          (if described.description = [] then []
            else [(['d'], .string described.description)]) ++
          if described.timeout > 0 then [(['t', 'o'], .int described.timeout)] else []⟩ := by
  have notEmpty : fields.isEmpty ≠ true := fun isEmpty => notNone (List.isEmpty_iff.mp isEmpty)
  rw [newSchema, if_neg notEmpty]
  by_cases isEmpty : described.description = []
  · rw [if_pos isEmpty, isEmpty]
    by_cases isTimed : described.timeout > 0
    · rw [if_pos isTimed, if_pos isTimed]
      rfl
    · rw [if_neg isTimed, if_neg isTimed]
      rfl
  · rw [if_neg isEmpty, if_pos isEmpty]
    by_cases isTimed : described.timeout > 0
    · rw [if_pos isTimed, if_pos isTimed]
      rfl
    · rw [if_neg isTimed, if_neg isTimed]
      rfl

/-- What a form's syntax can write is read back as what it means. -/
theorem formRoundTrips (floats : Floats) (described : Form) (isValid : described.Valid floats)
    (isMeant : (described.wire floats).isSome = true) : described.RoundTrips floats := by
  obtain ⟨schema, isWire⟩ := Option.isSome_iff_exists.mp isMeant
  obtain ⟨values, areWire, rfl⟩ := Option.map_eq_some_iff.mp isWire
  obtain ⟨parsed, areParsed, areAdded⟩ := adds_allLines 0 described.fields isValid.areValid areWire
  have isLine : IsLine described.headerTokens :=
    isLine_words (cons_ne_nil _ _) (isWord_headerTokens described)
  have areUnbroken : ∀ text ∈ line 0 described.headerTokens :: Field.allLines 0 described.fields,
      ∀ char ∈ text, isBreak char = false := by
    intro text isText
    rcases mem_cons.mp isText with rfl | isLater
    · exact line_unbroken 0 isLine.areUnbroken
    · exact allLines_unbroken 0 described.fields isValid.areValid text isLater
  have noNewline : ∀ text ∈ line 0 described.headerTokens :: Field.allLines 0 described.fields,
      '\n' ∉ text := fun text isText isNewline => by
    have notBreak := areUnbroken text isText _ isNewline
    exact absurd notBreak (by decide)
  have noReturn : '\r' ∉ described.render := fun isReturn => by
    rcases mem_intercalate isReturn with isNewline | ⟨text, isText, isIn⟩
    · exact absurd isNewline (by decide)
    · have notBreak := areUnbroken text isText _ isIn
      exact absurd notBreak (by decide)
  have isHeader : (Parser.start : Parser floats).parseLine 1
      (trimSpace (line 0 described.headerTokens)) =
      .ok ⟨[], [], some ⟨described.title, described.description, described.timeout⟩⟩ := by
    rw [trimSpace_line 0 isLine.notNone isLine.areFramed]
    refine (parseLine_tokens isLine (by decide)).trans ?_
    rw [if_pos rfl]
    exact congrArg (Except.map _) (parseFormTokens_header described isValid.isInt)
  have areLines : (Parser.start : Parser floats).parseLines 1
      (line 0 described.headerTokens :: Field.allLines 0 described.fields) =
      .ok ⟨parsed, [], some ⟨described.title, described.description, described.timeout⟩⟩ := by
    have areRead := areAdded ⟨[], [], some ⟨described.title, described.description,
      described.timeout⟩⟩ 2 [] rfl
    rw [append_nil, addFields_root _ rfl] at areRead
    exact (parseLines_cons isHeader _).trans areRead
  have notNone : values ≠ [] := by
    rintro rfl
    cases areFields : described.fields with
    | nil => exact isValid.notEmpty areFields
    | cons field rest =>
      rw [areFields] at areWire
      obtain ⟨value, _, isRest⟩ := Option.bind_eq_some_iff.mp areWire
      obtain ⟨later, _, isCons⟩ := Option.map_eq_some_iff.mp isRest
      cases isCons
  refine ⟨_, isWire, ?_⟩
  rw [parseDSL, crlfToLf_eq_self noReturn, Form.render,
    List.splitOn_intercalate '\n' noNewline (cons_ne_nil _ _), areLines]
  show newSchema _ _ _ (fieldsToWire parsed) = _
  rw [areParsed]
  exact newSchema_wire notNone

/-- Numbers in steps of a half, which `float64` has. -/
def halves : Floats where
  Float64 := Int
  parseFloat := fun text =>
    match cut '.' text with
    | none => (natural? text).map fun whole => 2 * (whole : Int)
    | some (whole, ['5']) => (natural? whole).map fun whole => 2 * (whole : Int) + 1
    | some _ => none
  integer? := fun number => if number % 2 = 0 then some (number / 2) else none
  sprint := fun number =>
    itoa (number / 2) ++ if number % 2 = 0 then [] else ['.', '5']

/-- Every kind of value, with a group in a group. -/
def deployForm : Form where
  title := "Deploy \"Config\"".toList
  description := "All of it".toList
  timeout := 120
  fields := [
    .mk "env".toList "sel".toList "Environment".toList
      [("req".toList, .flag),
        ("o".toList, .value (.array [.bare "dev".toList, .quoted "a, b".toList, .integer (-3)])),
        ("step".toList, .value (.decimal "0.5".toList)),
        ("io".toList, .nested [("ph".toList, .value (.quoted "https://\n".toList)),
          ("r".toList, .value (.bool true))])] [], .mk "advanced".toList grp "Advanced".toList []
      [.mk "inner".toList grp "Inner".toList [("multi".toList, .value (.integer 0))]
        [.mk "payload".toList "json".toList "Payload".toList
          [("def".toList, .value (.json [("retries".toList, .number "3".toList)])),
            ("ph".toList, .value .null)] []]]]

theorem formRoundTrips_deploy : deployForm.RoundTrips halves := by
  have isKey : ∀ key ∈ ["req".toList, "o".toList, "step".toList, "io".toList, "ph".toList,
      "r".toList, "multi".toList, "def".toList], IsKey key := fun key isIn =>
    have areKeys : ∀ key ∈ ["req".toList, "o".toList, "step".toList, "io".toList, "ph".toList,
        "r".toList, "multi".toList, "def".toList], key ≠ [] ∧
        (∀ char ∈ key, isSpace char = false) ∧ Closed isSpace key ∧ '=' ∉ key ∧ '.' ∉ key := by
      decide
    have facts := areKeys key isIn
    ⟨facts.1, facts.2.1, facts.2.2.1, facts.2.2.2.1, facts.2.2.2.2⟩
  have isPlain : ∀ token ∈ ["env".toList, "sel".toList, "advanced".toList, grp, "inner".toList,
      "payload".toList, "json".toList], IsPlainToken token := fun token isIn =>
    have arePlain : ∀ token ∈ ["env".toList, "sel".toList, "advanced".toList, grp, "inner".toList,
        "payload".toList, "json".toList], token ≠ [] ∧ (∀ char ∈ token, isSpace char = false) ∧
        Closed isSpace token := by decide
    have facts := arePlain token isIn
    ⟨facts.1, facts.2.1, facts.2.2⟩
  have isBare : IsBare halves inArray "dev".toList :=
    ⟨by decide, by decide, by decide, by decide, by decide, by decide, by decide, by decide,
      .inl (by decide)⟩
  exact formRoundTrips halves deployForm
    ⟨by decide, by decide,
      ⟨⟨isPlain _ (by decide), by decide, by decide⟩, isPlain _ (by decide),
        ⟨by decide, isKey _ (by decide), rfl,
          isKey _ (by decide), ⟨isBare, trivial, (by decide : IsInt (-3)), trivial⟩,
          isKey _ (by decide), ⟨by decide, by decide⟩,
          isKey _ (by decide), ⟨by decide, by decide, isKey _ (by decide), trivial,
            isKey _ (by decide), trivial, trivial⟩, trivial⟩,
        by decide, fun areSome => absurd rfl areSome, trivial⟩,
      ⟨⟨isPlain _ (by decide), by decide, by decide⟩, isPlain _ (by decide),
        ⟨by decide, trivial⟩, by decide, fun _ => rfl,
        ⟨⟨isPlain _ (by decide), by decide, by decide⟩, isPlain _ (by decide),
          ⟨by decide, isKey _ (by decide), (by decide : IsInt 0), trivial⟩, by decide, fun _ => rfl,
          ⟨⟨isPlain _ (by decide), by decide, by decide⟩, isPlain _ (by decide),
            ⟨by decide, isKey _ (by decide),
              ⟨⟨(by decide : Json.isNumber "3".toList = true), trivial⟩, by decide⟩,
              isKey _ (by decide), trivial, trivial⟩,
            by decide, fun areSome => absurd rfl areSome, trivial⟩, trivial⟩, trivial⟩, trivial⟩
    (by decide)

/-- A form of one field. -/
def oneField (name : Text) (options : List (Text × Setting)) : Form :=
  ⟨"T".toList, [], 0, [.mk name ['t'] "L".toList options []]⟩

theorem not_roundTrips_of_error {described : Form} {error : DslError}
    (isError : parseDSL floats described.render = .error error) : ¬described.RoundTrips floats := by
  rintro ⟨schema, _, isRead⟩
  cases isError.symm.trans isRead

/-- A field named as the header, a name that is a comment or closes a bracket, bare digits and a
number that no `int` holds, an option that is set twice, and a form without fields. -/
theorem not_formRoundTrips : ¬(oneField form []).RoundTrips halves ∧
    ¬(oneField "#a".toList []).RoundTrips halves ∧
    ¬(oneField "a]".toList []).RoundTrips halves ∧
    ¬(oneField "a".toList [("ph".toList, .value (.bare "007".toList))]).RoundTrips halves ∧
    ¬(oneField "a".toList [("max".toList, .value (.integer (10 ^ 20)))]).RoundTrips halves ∧
    ¬(oneField "a".toList [("req".toList, .flag), ("r".toList, .value (.bool false))]).RoundTrips
      halves ∧
    ¬(Form.mk "T".toList [] 0 []).RoundTrips halves := by
  refine ⟨not_roundTrips_of_error rfl, not_roundTrips_of_error rfl, not_roundTrips_of_error rfl,
    ?_, ?_, ?_, not_roundTrips_of_error rfl⟩
  · rintro ⟨schema, isWire, isRead⟩
    cases isWire
    cases isRead
  · rintro ⟨schema, isWire, isRead⟩
    cases isWire
    cases isRead
  · rintro ⟨schema, isWire, isRead⟩
    cases isWire
    cases isRead

end AiTools.Webform.Dsl
