import AiTools.Lib.ScriptData
import AiTools.Rewind.InlineJson

/-!
Contract: the data elements in the page of the session viewer.

Owns what is inserted where, and how the page is read then.
Does not own: the tokenizer (`Lib.ScriptData`), the escaping (`InlineJson`).
-/

namespace AiTools.Rewind.Viewer

open AiTools.Lib.ScriptData
open List (append_assoc cons_append mem_cons mem_cons_of_mem mem_cons_self
  nil_append)

theorem apart_escapeFrom (text : Text) :
    ∀ afterLess, Apart afterLess (escapeFrom afterLess text) := by
  induction text with
  | nil => exact fun _ => trivial
  | cons char text ih =>
    intro afterLess
    have later := ih (char = '<')
    rw [escapeFrom_cons]
    unfold piece
    split_ifs with isSlash isLine isParagraph
    · rw [Bool.and_eq_true, decide_eq_true_eq] at isSlash
      rw [isSlash.2] at later ⊢
      exact ⟨by simp, by simp, later⟩
    · have notLess : char ≠ '<' := by
        rintro rfl
        exact absurd isLine (by decide)
      rw [decide_eq_false notLess] at later ⊢
      exact ⟨by simp, by simp, by simp, by simp, by simp, by simp, later⟩
    · have notLess : char ≠ '<' := by
        rintro rfl
        exact absurd isParagraph (by decide)
      rw [decide_eq_false notLess] at later ⊢
      exact ⟨by simp, by simp, by simp, by simp, by simp, by simp, later⟩
    · refine ⟨fun both => isSlash ?_, later⟩
      rw [both.1, both.2]
      rfl

theorem apart_escapeInlineJSON (text : Text) : Apart false (escapeInlineJSON text) :=
  apart_escapeFrom text false

variable {text inserted : Text}

theorem noLess_escapeFrom (noLess : '<' ∉ text) : ∀ afterLess, '<' ∉ escapeFrom afterLess text := by
  induction text with
  | nil => exact nofun
  | cons char text ih =>
    intro afterLess
    have notLess : char ≠ '<' := fun same => noLess (same ▸ mem_cons_self)
    have later := ih (fun isThere => noLess (mem_cons_of_mem _ isThere))
      (char = '<')
    rw [escapeFrom_cons, List.mem_append, not_or]
    refine ⟨?_, later⟩
    unfold piece
    split_ifs
    · decide
    · decide
    · decide
    · exact fun isThere => notLess (List.mem_singleton.mp isThere).symm

theorem noLess_escapeInlineJSON (noLess : '<' ∉ text) :
    '<' ∉ escapeInlineJSON text := noLess_escapeFrom noLess false

/-- The text up to a mark that it has, and the text from there. -/
def cutBefore (mark : Text) : Text → Option (Text × Text)
  | [] => none
  | char :: rest =>
    if mark.isPrefixOf (char :: rest) then some ([], char :: rest)
    else (cutBefore mark rest).map fun halves => (char :: halves.1, halves.2)

def contains (mark text : Text) : Bool := (cutBefore mark text).isSome

/-- `strings.Replace` of the first mark by what is inserted and the mark. -/
def insertBefore (mark inserted text : Text) : Option Text :=
  (cutBefore mark text).map fun halves => halves.1 ++ inserted ++ halves.2

def scriptMark : Text := "<script".toList

def headMark : Text := "</head>".toList

def referrerMeta : Text := "<meta name=\"referrer\" content=\"no-referrer\" />".toList

def cspMeta : Text :=
  ("<meta http-equiv=\"Content-Security-Policy\" content=\"default-src 'self'; base-uri 'none'; " ++
    "connect-src 'none'; font-src 'self' data:; img-src 'self' data:; object-src 'none'; " ++
    "script-src 'self' 'unsafe-inline'; style-src 'self' 'unsafe-inline'\" />").toList

def sessionDataID : Text := "rewind-session-data".toList

def analysisDataID : Text := "rewind-analysis-data".toList

def openTag (id : Text) : Text :=
  "<script id=\"".toList ++ id ++ "\" type=\"application/json\">".toList

def block (id json : Text) : Text := openTag id ++ (escapeInlineJSON json ++ endTag)

/-- Before the first script, or else at the end of the head. -/
def injectBlock (inserted html : Text) : Option Text :=
  (insertBefore scriptMark inserted html).or (insertBefore headMark inserted html)

def headInsertions (html : Text) : Text :=
  (if contains cspMeta html then [] else cspMeta) ++
    (if contains referrerMeta html then [] else referrerMeta)

def insertMetas (html : Text) : Text :=
  (insertBefore headMark (headInsertions html) html).getD html

def injectSessionData (html session : Text) : Option Text :=
  (injectBlock (block sessionDataID session) html).map insertMetas

def injectAnalysisData (html analysis : Text) : Option Text :=
  injectBlock (block analysisDataID analysis) html

/-- A minification keeps the document. -/
def exportViewer (html session : Text) : Option Text → Option Text
  | none => injectSessionData html session
  | some analysis => (injectSessionData html session).bind fun rendered =>
    injectAnalysisData rendered analysis

/-! ## Marks in a page with data in it -/

/-- The `<` of a mark is its first character. -/
def Mark (mark : Text) : Prop := ∃ word, mark = '<' :: word ∧ '<' ∉ word

/-- What follows may be the start of a mark, but is no part of one that has started before. -/
def StartsLess (text : Text) : Prop := ∀ char ∈ text.head?, char = '<'

theorem isPrefix_append {mark other : Text} (isMark : Mark mark) (notNil : text ≠ [])
    (other_starts : StartsLess other) :
    mark.isPrefixOf (text ++ other) = mark.isPrefixOf text := by
  obtain ⟨word, rfl, noLess⟩ := isMark
  rw [Bool.eq_iff_iff, List.isPrefixOf_iff_prefix, List.isPrefixOf_iff_prefix]
  constructor
  · intro isPrefix
    rcases List.prefix_or_prefix_of_prefix isPrefix (List.prefix_append text other) with
      isShort | ⟨tail, isTail⟩
    · exact isShort
    · cases tail with
      | nil => 
          rw [List.append_nil] at isTail
          exact isTail ▸ List.prefix_refl _
      | cons char tail =>
        cases text with
        | nil => exact absurd rfl notNil
        | cons first text =>
          rw [cons_append, List.cons.injEq] at isTail
          obtain ⟨rfl, rfl⟩ := isTail
          rw [cons_append, List.cons_prefix_cons, List.prefix_append_right_inj] at isPrefix
          obtain ⟨rest, isRest⟩ := isPrefix.2
          have isLess := other_starts char (by rw [← isRest]; rfl)
          exact absurd (List.mem_append_right _ (isLess ▸ mem_cons_self)) noLess
  · exact fun isPrefix => isPrefix.trans (List.prefix_append _ _)

theorem cutBefore_append {mark : Text} (isMark : Mark mark) {other : Text}
    (starts : StartsLess other) (text : Text) :
    cutBefore mark (text ++ other) =
      ((cutBefore mark text).map fun halves => (halves.1, halves.2 ++ other)).or
        ((cutBefore mark other).map fun halves => (text ++ halves.1, halves.2)) := by
  induction text with
  | nil =>
    rw [nil_append]
    cases cutBefore mark other <;> rfl
  | cons char text ih =>
    have same := isPrefix_append isMark (List.cons_ne_nil char text) starts
    rw [cons_append] at same ⊢
    rw [cutBefore, cutBefore, same]
    split
    · rfl
    · rw [ih]
      cases cutBefore mark text <;> cases cutBefore mark other <;> rfl

theorem cutBefore_noLess {mark : Text} (isMark : Mark mark) (noLess : '<' ∉ text) :
    cutBefore mark text = none := by
  obtain ⟨word, rfl, _⟩ := isMark
  induction text with
  | nil => rfl
  | cons char text ih =>
    have notPrefix : ¬ ('<' :: word).isPrefixOf (char :: text) = true := by
      rw [List.isPrefixOf_iff_prefix, List.cons_prefix_cons]
      exact fun isPrefix => noLess (isPrefix.1 ▸ mem_cons_self)
    rw [cutBefore, if_neg notPrefix, ih fun isThere => noLess (mem_cons_of_mem _ isThere)]
    rfl

theorem cutBefore_eq {mark : Text} {halves : Text × Text}
    (isCut : cutBefore mark text = some halves) :
    text = halves.1 ++ halves.2 ∧ mark.isPrefixOf halves.2 = true := by
  induction text generalizing halves with
  | nil => cases isCut
  | cons char text ih =>
    rw [cutBefore] at isCut
    split at isCut
    · cases isCut
      exact ⟨rfl, ‹_›⟩
    · obtain ⟨found, isFound, rfl⟩ := Option.map_eq_some_iff.mp isCut
      obtain ⟨isText, isPrefix⟩ := ih isFound
      exact ⟨congrArg _ isText, isPrefix⟩

theorem cutBefore_left {mark : Text} (isMark : Mark mark) {halves : Text × Text}
    (isCut : cutBefore mark text = some halves) : cutBefore mark halves.1 = none := by
  obtain ⟨isText, isPrefix⟩ := cutBefore_eq isCut
  have starts : StartsLess halves.2 := by
    obtain ⟨word, rfl, _⟩ := isMark
    obtain ⟨rest, isRest⟩ := List.isPrefixOf_iff_prefix.mp isPrefix
    rw [← isRest]
    rintro char isHead
    exact (Option.some.inj isHead).symm
  obtain ⟨before, after⟩ := halves
  dsimp only at isText starts ⊢
  subst isText
  clear isPrefix
  induction before with
  | nil => rfl
  | cons char before ih =>
    have same := isPrefix_append isMark (List.cons_ne_nil char before) starts
    rw [cons_append] at same
    rw [cons_append, cutBefore, same] at isCut
    rw [cutBefore]
    split at isCut
    · cases isCut
    · rw [if_neg ‹_›]
      obtain ⟨found, isFound, isHalves⟩ := Option.map_eq_some_iff.mp isCut
      have isBefore : found = (before, after) := by
        obtain ⟨found, later⟩ := found
        cases isHalves
        rfl
      rw [ih (isBefore ▸ isFound)]
      rfl

/-- What is read of a page: what the tokenizer gives outside of scripts, and each script with its
text. -/
inductive Found (Token Tag : Type) where
  | page (token : Token)
  | script (tag : Tag) (text : Text)

/-- The tokenizer outside of script elements. It goes on behind the name of an end tag. -/
structure Html (Place Token Tag : Type) where
  data : Place
  endTagName : Place
  next : Place → Char → (Place × List Token) ⊕ Tag
  dataTag : Text → Tag

inductive Where (Place Tag : Type) where
  | markup (place : Place)
  | script (tag : Tag) (state : State) (text : Text)

section

variable {Place Token Tag : Type}

/-- At the end of the input, an open element has the text so far. -/
def read (html : Html Place Token Tag) : Where Place Tag → Text → List (Found Token Tag)
  | .markup _, [] => []
  | .script tag _ text, [] => [.script tag text]
  | .markup place, char :: rest =>
    match html.next place char with
    | .inl (place, tokens) => tokens.map .page ++ read html (.markup place) rest
    | .inr tag => read html (.script tag .scriptData []) rest
  | .script tag state text, char :: rest =>
    if closes state char then
      .script tag (text.take (text.length - 8)) ::
        match html.next html.endTagName char with
        | .inl (place, tokens) => tokens.map .page ++ read html (.markup place) rest
        | .inr tag => read html (.script tag .scriptData []) rest
    else read html (.script tag (next state char) (text ++ [char])) rest

/-- A data element is opened by its tag, and the end of an end tag is between elements. -/
structure Behaves (html : Html Place Token Tag) : Prop where
  opens : ∀ id ∈ [sessionDataID, analysisDataID], ∀ rest,
    read html (.markup html.data) (openTag id ++ rest) =
      read html (.script (html.dataTag id) .scriptData []) rest
  ends : html.next html.endTagName '>' = .inl (html.data, [])

/-- A text that is read as its tokens, up to between two elements. -/
def Between (html : Html Place Token Tag) (text : Text) (tokens : List (Found Token Tag)) : Prop :=
  ∀ rest, read html (.markup html.data) (text ++ rest) =
    tokens ++ read html (.markup html.data) rest

theorem read_script (html : Html Place Token Tag) (tag : Tag) (rest : Text) :
    ∀ (state : State) (text : Text), read html (.script tag state text) rest =
      match element state text rest with
      | .within _ text => [.script tag text]
      | .ended text rest => .script tag text :: read html (.markup html.endTagName) rest := by
  induction rest with
  | nil => exact fun _ _ => rfl
  | cons char rest ih =>
    intro state text
    rw [read, element]
    split
    · rfl
    · exact ih _ _

theorem inside_scriptData : Inside .scriptData := trivial

theorem notLess_scriptData : Less .scriptData → false = true := fun less => False.elim less

theorem read_block {html : Html Place Token Tag} (behaves : Behaves html) {id json : Text}
    (isId : id ∈ [sessionDataID, analysisDataID])
    (closed : ¬ Double (run .scriptData (escapeInlineJSON json))) (rest : Text) :
    read html (.markup html.data) (block id json ++ rest) =
      .script (html.dataTag id) (escapeInlineJSON json) :: read html (.markup html.data) rest := by
  have inside : Inside (run .scriptData (escapeInlineJSON json)) :=
    run_inside _ inside_scriptData notLess_scriptData (apart_escapeInlineJSON json)
  have isElement : element .scriptData [] (escapeInlineJSON json ++ (endTag ++ rest)) =
      .ended (escapeInlineJSON json) ('>' :: rest) := by
    rw [element_inside _ _ inside_scriptData notLess_scriptData (apart_escapeInlineJSON json),
      element_endTag inside, if_neg closed, nil_append]
  rw [block, append_assoc, append_assoc, behaves.opens id isId, read_script, isElement]
  dsimp only
  rw [read, behaves.ends]
  rfl

theorem read_block_open {html : Html Place Token Tag} (behaves : Behaves html) {id json : Text}
    (isId : id ∈ [sessionDataID, analysisDataID])
    (isOpen : Double (run .scriptData (escapeInlineJSON json))) (rest : Text) :
    ∃ text later, read html (.markup html.data) (block id json ++ rest) =
      .script (html.dataTag id) text :: later ∧ text ≠ escapeInlineJSON json := by
  have inside : Inside (run .scriptData (escapeInlineJSON json)) :=
    run_inside _ inside_scriptData notLess_scriptData (apart_escapeInlineJSON json)
  have isElement : element .scriptData [] (escapeInlineJSON json ++ (endTag ++ rest)) =
      element .escaped (escapeInlineJSON json ++ endTag) rest := by
    rw [element_inside _ _ inside_scriptData notLess_scriptData (apart_escapeInlineJSON json),
      element_endTag inside, if_pos isOpen, nil_append]
  have isLong : (escapeInlineJSON json ++ endTag).length ≤
      (element .escaped (escapeInlineJSON json ++ endTag) rest).text.length :=
    le_length_element rest (Nat.le_refl _)
  have different : (element .escaped (escapeInlineJSON json ++ endTag) rest).text ≠
      escapeInlineJSON json := by
    intro same
    rw [same, List.length_append] at isLong
    have nine : endTag.length = 9 := rfl
    omega
  rw [block, append_assoc, append_assoc, behaves.opens id isId, read_script, isElement]
  cases isEnd : element .escaped (escapeInlineJSON json ++ endTag) rest with
  | within state text =>
    rw [isEnd] at different
    exact ⟨text, [], rfl, different⟩
  | ended text others =>
    rw [isEnd] at different
    exact ⟨text, _, rfl, different⟩

end

/-! ## The page with its data -/

/-- The page up to where the data is put, and from there. -/
def halves (html : Text) : Option (Text × Text) :=
  (cutBefore scriptMark html).or (cutBefore headMark html)

/-- The halves with the elements that the head gets besides the data. -/
def ownHalves (html : Text) : Option (Text × Text) :=
  (halves html).map fun halves =>
    if contains headMark halves.1 then
      ((insertBefore headMark (headInsertions html) halves.1).getD halves.1, halves.2)
    else (halves.1, (insertBefore headMark (headInsertions html) halves.2).getD halves.2)

theorem mark_script : Mark scriptMark := ⟨_, rfl, by decide⟩

theorem mark_head : Mark headMark := ⟨_, rfl, by decide⟩

/-- One of the elements that the head gets. -/
def IsMeta (text : Text) : Prop := ∃ word, text = '<' :: 'm' :: word ∧ '<' ∉ word

theorem IsMeta.append {first second : String} (isMeta : IsMeta first.toList)
    (noLess : '<' ∉ second.toList) : IsMeta (first ++ second).toList := by
  obtain ⟨word, isWord, noWord⟩ := isMeta
  refine ⟨word ++ second.toList, ?_, mt List.mem_append.mp (not_or.mpr ⟨noWord, noLess⟩)⟩
  rw [String.toList_append, isWord]
  rfl

theorem meta_csp : IsMeta cspMeta := by
  refine .append (.append ⟨_, String.toList_ofList, by decide⟩ ?_) ?_
  all_goals
    rw [String.toList_ofList]
    decide

theorem meta_referrer : IsMeta referrerMeta := ⟨_, String.toList_ofList, by decide⟩

theorem IsMeta.mark (isMeta : IsMeta text) : Mark text := by
  obtain ⟨word, rfl, noLess⟩ := isMeta
  exact ⟨_, rfl, fun isThere => noLess ((mem_cons.mp isThere).resolve_left (by decide))⟩

theorem IsMeta.notTag (isMeta : IsMeta text) (rest : Text) :
    text.isPrefixOf ('<' :: 's' :: rest) = false := by
  obtain ⟨word, rfl, _⟩ := isMeta
  rfl

theorem IsMeta.notEnd (isMeta : IsMeta text) : cutBefore text endTag = none := by
  have isMark := isMeta.mark
  obtain ⟨word, rfl, _⟩ := isMeta
  have notPrefix : ('<' :: 'm' :: word).isPrefixOf endTag = false := rfl
  have noLess : '<' ∉ endTag.tail := by decide
  have isTail : endTag = '<' :: endTag.tail := rfl
  rw [isTail, cutBefore, ← isTail, notPrefix, if_neg Bool.false_ne_true,
    cutBefore_noLess isMark noLess]
  rfl

theorem IsMeta.noScript (isMeta : IsMeta text) : cutBefore scriptMark text = none := by
  obtain ⟨word, rfl, noLess⟩ := isMeta
  have notPrefix : scriptMark.isPrefixOf ('<' :: 'm' :: word) = false := rfl
  have noLessLater : '<' ∉ 'm' :: word :=
    fun isThere => noLess ((mem_cons.mp isThere).resolve_left (by decide))
  rw [cutBefore, notPrefix, if_neg Bool.false_ne_true, cutBefore_noLess mark_script noLessLater]
  rfl

theorem IsMeta.starts (isMeta : IsMeta text) : StartsLess text := by
  obtain ⟨word, rfl, _⟩ := isMeta
  exact fun char isHead => (Option.some.inj isHead).symm

theorem injectBlock_eq (inserted html : Text) : injectBlock inserted html =
      (halves html).map fun halves => halves.1 ++ inserted ++ halves.2 := by
  unfold injectBlock halves insertBefore
  cases cutBefore scriptMark html <;> rfl

theorem starts_of_isPrefix {mark : Text} (isMark : Mark mark)
    (isPrefix : mark.isPrefixOf text = true) : StartsLess text := by
  obtain ⟨word, rfl, _⟩ := isMark
  obtain ⟨rest, rfl⟩ := List.isPrefixOf_iff_prefix.mp isPrefix
  exact fun char isHead => (Option.some.inj isHead).symm

theorem halves_eq {html : Text} {found : Text × Text} (isHalves : halves html = some found) :
    html = found.1 ++ found.2 ∧ StartsLess found.2 ∧ cutBefore scriptMark found.1 = none := by
  unfold halves at isHalves
  cases isCut : cutBefore scriptMark html with
  | some cut =>
    rw [isCut] at isHalves
    cases isHalves
    obtain ⟨isText, isPrefix⟩ := cutBefore_eq isCut
    exact ⟨isText, starts_of_isPrefix mark_script isPrefix, cutBefore_left mark_script isCut⟩
  | none =>
    rw [isCut, Option.none_or] at isHalves
    obtain ⟨isText, isPrefix⟩ := cutBefore_eq isHalves
    have starts := starts_of_isPrefix mark_head isPrefix
    refine ⟨isText, starts, ?_⟩
    rw [isText, cutBefore_append mark_script starts] at isCut
    cases isFirst : cutBefore scriptMark found.1 with
    | none => rfl
    | some cut =>
      simp [isFirst] at isCut

theorem cutBefore_block {mark : Text} (isMark : Mark mark) {json : Text} (noLess : '<' ∉ json)
    (notTag : ∀ rest, mark.isPrefixOf ('<' :: 's' :: rest) = false)
    (notEnd : cutBefore mark endTag = none) : cutBefore mark (block sessionDataID json) = none := by
  have isBlock : block sessionDataID json =
      ('<' :: 's' :: ((openTag sessionDataID).drop 2 ++ escapeInlineJSON json)) ++ endTag := by
    rw [block, ← append_assoc]
    rfl
  have noLessLater : '<' ∉ 's' :: ((openTag sessionDataID).drop 2 ++ escapeInlineJSON json) := by
    rw [mem_cons, List.mem_append, not_or, not_or]
    exact ⟨by decide, by decide, noLess_escapeInlineJSON noLess⟩
  have starts : StartsLess endTag := fun char isHead => (Option.some.inj isHead).symm
  rw [isBlock, cutBefore_append isMark starts, notEnd, cutBefore, if_neg (by rw [notTag]; decide),
    cutBefore_noLess isMark noLessLater]
  rfl

theorem cutBefore_page {mark : Text} (isMark : Mark mark)
    (notInserted : cutBefore mark inserted = none) (startsInserted : StartsLess inserted)
    (notNil : inserted ≠ []) (before after : Text) (starts : StartsLess after) :
    cutBefore mark (before ++ inserted ++ after) =
      ((cutBefore mark before).map fun halves => (halves.1, halves.2 ++ (inserted ++ after))).or
        ((cutBefore mark after).map fun halves => (before ++ inserted ++ halves.1, halves.2)) := by
  have startsBoth : StartsLess (inserted ++ after) := by
    cases inserted with
    | nil => exact absurd rfl notNil
    | cons char inserted => exact startsInserted
  rw [append_assoc, cutBefore_append isMark startsBoth, cutBefore_append isMark starts,
    notInserted]
  cases cutBefore mark before <;> cases cutBefore mark after <;> simp

theorem contains_page {mark : Text} (isMark : Mark mark)
    (notInserted : cutBefore mark inserted = none) (startsInserted : StartsLess inserted)
    (notNil : inserted ≠ []) (before after : Text) (starts : StartsLess after) :
    contains mark (before ++ inserted ++ after) = contains mark (before ++ after) := by
  unfold contains
  rw [cutBefore_page isMark notInserted startsInserted notNil before after starts,
    cutBefore_append isMark starts]
  cases cutBefore mark before <;> cases cutBefore mark after <;> rfl

theorem injectSessionData_eq {session : Text} (noLess : '<' ∉ session) (html : Text) :
    injectSessionData html session = (ownHalves html).map fun own =>
      own.1 ++ block sessionDataID session ++ own.2 := by
  rw [injectSessionData, injectBlock_eq, ownHalves, Option.map_map, Option.map_map]
  cases isHalves : halves html with
  | none => rfl
  | some found =>
    obtain ⟨before, after⟩ := found
    obtain ⟨isText, starts, _⟩ := halves_eq isHalves
    dsimp only at isText starts
    have startsBlock : StartsLess (block sessionDataID session) :=
      fun char isHead => (Option.some.inj isHead).symm
    have notNil : block sessionDataID session ≠ [] := nofun
    have noHead := cutBefore_block mark_head noLess (fun _ => rfl) (by decide)
    have noCsp := cutBefore_block meta_csp.mark noLess meta_csp.notTag meta_csp.notEnd
    have noReferrer := cutBefore_block meta_referrer.mark noLess meta_referrer.notTag
      meta_referrer.notEnd
    have sameInsertions : headInsertions (before ++ block sessionDataID session ++ after) =
        headInsertions html := by
      rw [isText]
      unfold headInsertions
      rw [contains_page meta_csp.mark noCsp startsBlock notNil before after starts,
        contains_page meta_referrer.mark noReferrer startsBlock notNil before after starts]
    rw [Option.map_some, Option.map_some, Function.comp_apply, Function.comp_apply]
    dsimp only
    rw [insertMetas, sameInsertions]
    unfold insertBefore contains
    rw [cutBefore_page mark_head noHead startsBlock notNil before after starts]
    cases cutBefore headMark before <;> cases cutBefore headMark after <;> simp

theorem noScript_headInsertions (html : Text) :
    cutBefore scriptMark (headInsertions html) = none := by
  unfold headInsertions
  cases contains referrerMeta html with
  | true =>
    rw [if_pos rfl, List.append_nil]
    split
    · rfl
    · exact meta_csp.noScript
  | false =>
    rw [if_neg Bool.false_ne_true, cutBefore_append mark_script meta_referrer.starts,
      meta_referrer.noScript]
    split
    · rfl
    · rw [meta_csp.noScript]
      rfl

theorem starts_headInsertions (html : Text) : StartsLess (headInsertions html) := by
  unfold headInsertions
  have startsReferrer : StartsLess (if contains referrerMeta html then [] else referrerMeta) := by
    split
    · exact nofun
    · exact meta_referrer.starts
  cases contains cspMeta html with
  | true => exact startsReferrer
  | false =>
    rw [if_neg Bool.false_ne_true]
    obtain ⟨word, isMeta, _⟩ := meta_csp
    rw [isMeta]
    exact fun char isHead => (Option.some.inj isHead).symm

theorem ownHalves_noScript {html : Text} {own : Text × Text} (isOwn : ownHalves html = some own) :
    cutBefore scriptMark own.1 = none := by
  obtain ⟨found, isHalves, rfl⟩ := Option.map_eq_some_iff.mp isOwn
  obtain ⟨_, _, noScript⟩ := halves_eq isHalves
  split
  · rename_i hasHead
    obtain ⟨cut, isCut⟩ := Option.isSome_iff_exists.mp hasHead
    obtain ⟨isText, isPrefix⟩ := cutBefore_eq isCut
    have starts := starts_of_isPrefix mark_head isPrefix
    rw [isText, cutBefore_append mark_script starts] at noScript
    have startsBoth : StartsLess (headInsertions html ++ cut.2) := by
      have startsMetas := starts_headInsertions html
      cases isMetas : headInsertions html with
      | nil => exact starts
      | cons char metas =>
        rw [isMetas] at startsMetas
        exact startsMetas
    unfold insertBefore
    rw [isCut, Option.map_some, Option.getD_some]
    dsimp only
    rw [append_assoc, cutBefore_append mark_script startsBoth,
      cutBefore_append mark_script starts, noScript_headInsertions]
    cases isFirst : cutBefore scriptMark cut.1 with
    | some _ =>
      simp [isFirst] at noScript
    | none =>
      rw [isFirst] at noScript
      cases isSecond : cutBefore scriptMark cut.2 with
      | some _ =>
        simp [isSecond] at noScript
      | none => rfl
  · exact noScript

theorem injectAnalysisData_eq {before after session : Text} (analysis : Text)
    (noScript : cutBefore scriptMark before = none) :
    injectAnalysisData (before ++ block sessionDataID session ++ after) analysis =
      some (before ++ block analysisDataID analysis ++ (block sessionDataID session ++ after)) := by
  have isFirst : cutBefore scriptMark (block sessionDataID session ++ after) =
      some ([], block sessionDataID session ++ after) := rfl
  have starts : StartsLess (block sessionDataID session ++ after) :=
    fun char isHead => (Option.some.inj isHead).symm
  rw [injectAnalysisData, injectBlock_eq, halves, append_assoc,
    cutBefore_append mark_script starts, noScript, isFirst]
  simp

section

variable {Place Token Tag : Type}

def dataElements (html : Html Place Token Tag) (session : Text) (analysis : Option Text) :
    List (Found Token Tag) :=
  (analysis.toList.map fun json => .script (html.dataTag analysisDataID) (escapeInlineJSON json)) ++
    [.script (html.dataTag sessionDataID) (escapeInlineJSON session)]

/-- Where the page is read as tokens up to where the data is put, the page with the data is read as
these, the data elements and what the rest of the page is read as; and the text of a data element
is read as the value that the data is. -/
structure Contained (html : Html Place Token Tag) (page session : Text) (analysis : Option Text)
    (depth : Nat) : Prop where
  elements : ∀ before after tokens out, ownHalves page = some (before, after) →
    Between html before tokens → exportViewer page session analysis = some out →
      read html (.markup html.data) out = tokens ++ dataElements html session analysis ++
        read html (.markup html.data) after
  sessionValue : Lib.Json.parse? depth (escapeInlineJSON session) = Lib.Json.parse? depth session
  analysisValue : ∀ json ∈ analysis,
    Lib.Json.parse? depth (escapeInlineJSON json) = Lib.Json.parse? depth json

/-- Reading the embedded analysis does not leave the tokenizer double escaped. -/
def Closed (analysis : Option Text) : Prop :=
  ∀ json ∈ analysis, ¬ Double (run .scriptData (escapeInlineJSON json))

theorem flatMap_analysis (json : Text) :
    (some json).toList.flatMap (block analysisDataID) = block analysisDataID json := by
  simp

theorem exportViewer_eq {page session before after : Text} {analysis : Option Text}
    (noLess : '<' ∉ session) (isOwn : ownHalves page = some (before, after)) :
    exportViewer page session analysis = some (before ++
      ((analysis.toList.flatMap (block analysisDataID)) ++
        (block sessionDataID session ++ after))) := by
  have isSession : injectSessionData page session =
      some (before ++ block sessionDataID session ++ after) := by
    rw [injectSessionData_eq noLess, isOwn]
    rfl
  cases analysis with
  | none =>
    rw [exportViewer, isSession, append_assoc]
    rfl
  | some json =>
    rw [exportViewer, isSession, Option.bind_some,
      injectAnalysisData_eq json (ownHalves_noScript isOwn), append_assoc]
    simp

section

variable {html : Html Place Token Tag} (behaves : Behaves html) {depth : Nat}
  {page session before after : Text} {analysis : Option Text} {tokens : List (Found Token Tag)}
  (noLess : '<' ∉ session) (isOwn : ownHalves page = some (before, after))
  (between : Between html before tokens)

include behaves noLess isOwn

theorem read_exported (closed : Closed analysis) {out : Text} (between : Between html before tokens)
    (isOut : exportViewer page session analysis = some out) :
    read html (.markup html.data) out = tokens ++ dataElements html session analysis ++
      read html (.markup html.data) after := by
  have sessionClosed : ¬ Double (run .scriptData (escapeInlineJSON session)) := by
    rw [run_data (noLess_escapeInlineJSON noLess)]
    exact id
  rw [exportViewer_eq noLess isOwn] at isOut
  rw [← Option.some.inj isOut, between, append_assoc]
  congr 1
  cases analysis with
  | none => exact read_block behaves mem_cons_self sessionClosed after
  | some json =>
    rw [flatMap_analysis, read_block behaves (mem_cons_of_mem _ mem_cons_self)
      (closed json rfl), read_block behaves mem_cons_self sessionClosed after]
    rfl

include between

theorem closed_of_contained (contained : Contained html page session analysis depth) :
    Closed analysis := by
  intro json isJson isOpen
  have same := contained.elements before after tokens _ isOwn between
    (exportViewer_eq noLess isOwn)
  cases isJson
  obtain ⟨text, later, isRead, different⟩ := read_block_open behaves
    (mem_cons_of_mem _ mem_cons_self) isOpen (block sessionDataID session ++ after)
  rw [between, flatMap_analysis, isRead, append_assoc] at same
  cases List.append_cancel_left same
  exact different rfl

end

/-- For every page that is between elements where the data is put, every session and every
analysis. -/
theorem contained_iff_closed {html : Html Place Token Tag} (behaves : Behaves html) (depth : Nat)
    (page session : Text) (analysis : Option Text) {before after : Text}
    {tokens : List (Found Token Tag)} {value : Lib.Json.Value}
    (isSession : Lib.Json.parse? depth session = some value) (noLess : '<' ∉ session)
    (isAnalysis : ∀ json ∈ analysis, ∃ value, Lib.Json.parse? depth json = some value)
    (isOwn : ownHalves page = some (before, after)) (between : Between html before tokens) :
    Contained html page session analysis depth ↔ Closed analysis := by
  constructor
  · exact closed_of_contained behaves noLess isOwn between
  · intro closed
    refine ⟨?_, ?_, ?_⟩
    · intro before' after' tokens' out isOwn' between' isOut
      exact read_exported behaves noLess isOwn' closed between' isOut
    · rw [parse?_escapeInlineJSON isSession, isSession]
    · intro json isJson
      obtain ⟨value, isValue⟩ := isAnalysis json isJson
      rw [parse?_escapeInlineJSON isValue, isValue]

end

/-- Tags up to the next `>`, and characters. -/
def plainHtml : Html (Option Text) Text Text where
  data := none
  endTagName := some "/script".toList
  next
    | none, char => if char = '<' then .inl (some [], []) else .inl (none, [[char]])
    | some tag, char =>
      if char ≠ '>' then .inl (some (tag ++ [char]), [])
      else if "script".toList.isPrefixOf tag then .inr tag
      else if tag = "/script".toList then .inl (none, [])
      else .inl (none, [tag])
  dataTag id := "script id=\"".toList ++ id ++ "\" type=\"application/json\"".toList

set_option maxRecDepth 4000 in
theorem behaves_plainHtml : Behaves plainHtml := by
  refine ⟨fun id isId rest => ?_, rfl⟩
  rcases mem_cons.mp isId with rfl | isLast
  · rfl
  · rw [List.mem_singleton.mp isLast]
    rfl

def viewerPage : Text := "<html><head><script>x</script></head></html>".toList

def viewerScript : Text := "<script>x</script></head></html>".toList

theorem ownHalves_viewerPage : ownHalves viewerPage = some ("<html><head>".toList,
    (insertBefore headMark (headInsertions viewerPage) viewerScript).getD viewerScript) := rfl

theorem between_viewerPage : Between plainHtml "<html><head>".toList
    [.page "html".toList, .page "head".toList] := fun _ => rfl

/-- A string that opens a comment and a script in it. -/
def openingAnalysis : Text := Lib.Json.quote "<!--<script>".toList

def plainAnalysis : Text := Lib.Json.quote "a</script>".toList

def emptySession : Text := ['\x7b', '\x7d']

theorem parse?_quote (text : Text) :
    Lib.Json.parse? 1 (Lib.Json.quote text) = some (.string text) := by
  have isRendered : Lib.Json.render (.string text) = Lib.Json.quote text := by rw [Lib.Json.render]
  rw [← isRendered]
  exact Lib.Json.parse?_render _ (by simp [Lib.Json.WellFormed]) (by simp [Lib.Json.nesting])

theorem parse?_emptySession : Lib.Json.parse? 1 emptySession = some (.object []) := by
  have isRendered : Lib.Json.render (.object []) = emptySession := by
    rw [Lib.Json.render, Lib.Json.renderMembers]
    rfl
  rw [← isRendered]
  exact Lib.Json.parse?_render _ (by simp [Lib.Json.WellFormed, Lib.Json.WellFormedMembers])
    (by simp [Lib.Json.nesting, Lib.Json.nestingMembers])

/-- The end tag of the analysis does not end its element. -/
theorem not_contained_openingAnalysis : (∃ value, Lib.Json.parse? 1 openingAnalysis = some value) ∧
      ¬ Contained plainHtml viewerPage emptySession (some openingAnalysis) 1 := by
  refine ⟨⟨_, parse?_quote _⟩, fun contained => ?_⟩
  have closed := closed_of_contained behaves_plainHtml (by decide) ownHalves_viewerPage
    between_viewerPage contained
  exact closed openingAnalysis rfl (by decide)

theorem contained_plainAnalysis :
    Contained plainHtml viewerPage emptySession (some plainAnalysis) 1 := by
  refine (contained_iff_closed behaves_plainHtml 1 viewerPage emptySession (some plainAnalysis)
    parse?_emptySession (by decide) (fun json isJson => ?_) ownHalves_viewerPage
    between_viewerPage).mpr ?_
  · cases isJson
    exact ⟨_, parse?_quote _⟩
  · intro json isJson
    cases isJson
    decide

end AiTools.Rewind.Viewer
