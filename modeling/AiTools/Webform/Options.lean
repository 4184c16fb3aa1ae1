import AiTools.Webform.Values

/-!
Contract: options of the DSL are read back.
-/

namespace AiTools.Webform.Dsl

open AiTools.Lib AiTools.Lib.GoText
open List (append_assoc cons_ne_nil foldlM_append foldlM_cons map_append map_cons map_singleton
  mem_append mem_cons_of_mem mem_cons_self mem_map mem_singleton not_mem_nil)

variable {floats : Floats}

def keys (opts : List (Text × Value floats)) : List Text := opts.map Prod.fst

variable {key : Text} {value : Value floats} {opts : List (Text × Value floats)}

theorem put_absent (isAbsent : key ∉ keys opts) : put key value opts = opts ++ [(key, value)] := by
  induction opts with
  | nil => rfl
  | cons entry opts ih =>
    obtain ⟨notFirst, notLater⟩ := List.ne_and_not_mem_of_not_mem_cons isAbsent
    rw [put, if_neg (Ne.symm notFirst), ih notLater]
    rfl

theorem put_last {old : Value floats} (isAbsent : key ∉ keys opts) :
    put key value (opts ++ [(key, old)]) = opts ++ [(key, value)] := by
  induction opts with
  | nil => exact if_pos rfl
  | cons entry opts ih =>
    obtain ⟨notFirst, notLater⟩ := List.ne_and_not_mem_of_not_mem_cons isAbsent
    rw [List.cons_append, put, if_neg (Ne.symm notFirst), ih notLater]
    rfl

theorem lookup_absent (isAbsent : key ∉ keys opts) : opts.lookup key = none := by
  refine List.lookup_eq_none_iff.mpr fun entry isEntry => bne_iff_ne.mpr fun same => ?_
  exact isAbsent (mem_map.mpr ⟨entry, isEntry, same.symm⟩)

theorem lookup_last
    (isAbsent : key ∉ keys opts) : (opts ++ [(key, value)]).lookup key = some value := by
  rw [List.lookup_append, lookup_absent isAbsent, List.lookup_cons_self]
  rfl

/-- What one option sets. -/
abbrev Assigned (floats : Floats) := List Text × Value floats

def Assigned.set (opts : List (Text × Value floats)) (one : Assigned floats) :
    Except DslError (List (Text × Value floats)) := setNestedOption opts one.1 one.2

def Assigned.under (path : List Text) (one : Assigned floats) : Assigned floats :=
  (path ++ one.1, one.2)

section
variable (floats)

mutual

def Setting.assigned (key : Text) : Setting → List (Assigned floats)
  | .flag => [([key], .int 1)]
  | .value literal => [([key], (literal.settled floats key).getD .null)]
  | .nested settings => (Setting.allAssigned settings).map (Assigned.under [key])

def Setting.allAssigned : List (Text × Setting) → List (Assigned floats)
  | [] => []
  | (key, setting) :: rest =>
    setting.assigned (canonicalFieldOptionKey key) ++ Setting.allAssigned rest

end

end

variable {path : List Text}

theorem setNestedOption_absent (notEmpty : key ≠ []) (hasPath : path ≠ [])
    (isAbsent : key ∉ keys opts) : setNestedOption opts (key :: path) value =
      (setNestedOption [] path value).map fun child => opts ++ [(key, .object child)] := by
  cases path with
  | nil => exact absurd rfl hasPath
  | cons next path =>
    rw [setNestedOption, if_neg notEmpty, lookup_absent isAbsent]
    simp only [put_absent isAbsent]

theorem setNestedOption_last
    {child : List (Text × Value floats)} (notEmpty : key ≠ []) (hasPath : path ≠ [])
    (isAbsent : key ∉ keys opts) :
    setNestedOption (opts ++ [(key, .object child)]) (key :: path) value =
      (setNestedOption child path value).map fun child => opts ++ [(key, .object child)] := by
  cases path with
  | nil => exact absurd rfl hasPath
  | cons next path =>
    rw [setNestedOption, if_neg notEmpty, lookup_last isAbsent]
    simp only [put_last isAbsent]

theorem foldlM_under {child : List (Text × Value floats)} (notEmpty : key ≠ [])
    (isAbsent : key ∉ keys opts) {all : List (Assigned floats)}
    (havePaths : ∀ one ∈ all, one.1 ≠ []) :
    (all.map (Assigned.under [key])).foldlM Assigned.set (opts ++ [(key, .object child)]) =
      (all.foldlM Assigned.set child).map fun child => opts ++ [(key, .object child)] := by
  induction all generalizing child with
  | nil => rfl
  | cons one all ih =>
    have hasPath := havePaths one mem_cons_self
    have isSet : Assigned.set (opts ++ [(key, .object child)]) (Assigned.under [key] one) =
        (Assigned.set child one).map fun child => opts ++ [(key, .object child)] :=
      setNestedOption_last notEmpty hasPath isAbsent
    rw [map_cons, foldlM_cons, foldlM_cons, isSet]
    cases Assigned.set child one with
    | error error => rfl
    | ok child =>
      exact ih fun one isLater =>
        havePaths one (mem_cons_of_mem _ isLater)

theorem foldlM_under_absent (notEmpty : key ≠ [])
    (isAbsent : key ∉ keys opts) {all : List (Assigned floats)} (notNone : all ≠ [])
    (havePaths : ∀ one ∈ all, one.1 ≠ []) :
    (all.map (Assigned.under [key])).foldlM Assigned.set opts =
      (all.foldlM Assigned.set []).map fun child => opts ++ [(key, .object child)] := by
  cases all with
  | nil => exact absurd rfl notNone
  | cons one all =>
    have hasPath := havePaths one mem_cons_self
    have isSet : Assigned.set opts (Assigned.under [key] one) =
        (Assigned.set [] one).map fun child => opts ++ [(key, .object child)] :=
      setNestedOption_absent notEmpty hasPath isAbsent
    rw [map_cons, foldlM_cons, foldlM_cons, isSet]
    cases Assigned.set ([] : List (Text × Value floats)) one with
    | error error => rfl
    | ok child =>
      exact foldlM_under notEmpty isAbsent fun one isLater =>
        havePaths one (mem_cons_of_mem _ isLater)

theorem canonicalKey_ne_nil {aliases : List (Text × Text)}
    (areNames : ∀ pair ∈ aliases, pair.2 ≠ []) (isKey : IsKey key) : canonicalKey aliases key ≠ [] := by
  have isTrimmed : trimSpace key = key :=
    (framed_of_noSpace isKey.notEmpty isKey.noSpace).isTrimmed
  rw [canonicalKey, isTrimmed]
  cases isFound : aliases.lookup key with
  | none => exact isKey.notEmpty
  | some name =>
    obtain ⟨before, after, isIn, _⟩ := List.lookup_eq_some_iff.mp isFound
    exact areNames (key, name) (isIn ▸ List.mem_append_right _ mem_cons_self)

theorem canonicalFieldOptionKey_ne_nil (isKey : IsKey key) :
    canonicalFieldOptionKey key ≠ [] := canonicalKey_ne_nil (by decide) isKey

theorem assigned_paths (key : Text) (setting : Setting) :
    ∀ one ∈ setting.assigned floats key, one.1 ≠ [] := by
  cases setting with
  | flag | value literal => exact fun one isOne => (mem_singleton.mp isOne) ▸ cons_ne_nil _ _
  | nested settings =>
    intro one isOne
    obtain ⟨inner, _, rfl⟩ := mem_map.mp isOne
    exact cons_ne_nil _ _

theorem allAssigned_paths (settings : List (Text × Setting)) :
    ∀ one ∈ Setting.allAssigned floats settings, one.1 ≠ [] := by
  induction settings with
  | nil => exact nofun
  | cons setting rest ih =>
    intro one isOne
    rcases mem_append.mp isOne with isFirst | isLater
    · exact assigned_paths _ setting.2 one isFirst
    · exact ih one isLater

mutual

theorem assigned_ne_nil {mayBeFlag : Prop} (key : Text) (setting : Setting)
    (isValid : setting.Valid floats mayBeFlag) : setting.assigned floats key ≠ [] := by
  cases setting with
  | flag | value literal => exact cons_ne_nil _ _
  | nested settings =>
    exact fun isEmpty =>
      allAssigned_ne_nil settings isValid.1 isValid.2.2 (List.map_eq_nil_iff.mp isEmpty)

theorem allAssigned_ne_nil {mayBeFlag : Text → Prop} (settings : List (Text × Setting))
    (notNone : settings ≠ []) (areValid : Setting.AllValid floats mayBeFlag settings) :
    Setting.allAssigned floats settings ≠ [] := by
  cases settings with
  | nil => exact absurd rfl notNone
  | cons setting rest =>
    exact List.append_ne_nil_of_left_ne_nil (assigned_ne_nil _ setting.2 areValid.2.1) _

end

mutual

theorem set_setting {mayBeFlag : Prop} {key : Text} {opts : List (Text × Value floats)}
    (setting : Setting) (isValid : setting.Valid floats mayBeFlag) {value : Value floats}
    (isWire : setting.wire floats key = some value) (notEmpty : key ≠ [])
    (isAbsent : key ∉ keys opts) :
    (setting.assigned floats key).foldlM Assigned.set opts = .ok (opts ++ [(key, value)]) := by
  have isSet : ∀ value, setNestedOption opts [key] value = .ok (opts ++ [(key, value)]) := by
    intro value
    rw [setNestedOption, if_neg notEmpty, put_absent isAbsent]
  cases setting with
  | flag =>
    cases isWire
    show (setNestedOption opts [key] (.int 1)).bind _ = _
    rw [isSet]
    rfl
  | value literal =>
    have isSettled : literal.settled floats key = some value := isWire
    show (setNestedOption opts [key] ((literal.settled floats key).getD .null)).bind _ = _
    rw [isSettled, isSet]
    rfl
  | nested settings =>
    obtain ⟨notNone, areDistinct, areValid⟩ := isValid
    obtain ⟨members, areWire, rfl⟩ := Option.map_eq_some_iff.mp isWire
    have areSet := set_settings [] settings areValid areWire areDistinct
      fun _ _ => not_mem_nil
    rw [Setting.assigned, foldlM_under_absent notEmpty isAbsent
      (allAssigned_ne_nil settings notNone areValid) (allAssigned_paths settings), areSet]
    rfl

theorem set_settings {mayBeFlag : Text → Prop} (opts : List (Text × Value floats))
    (settings : List (Text × Setting)) (areValid : Setting.AllValid floats mayBeFlag settings)
    {members : List (Text × Value floats)}
    (areWire : Setting.allWire floats settings = some members)
    (areDistinct : (canonicalKeys settings).Nodup)
    (areAbsent : ∀ key ∈ canonicalKeys settings, key ∉ keys opts) :
    (Setting.allAssigned floats settings).foldlM Assigned.set opts = .ok (opts ++ members) := by
  cases settings with
  | nil =>
    cases areWire
    rw [List.append_nil]
    rfl
  | cons setting rest =>
    obtain ⟨value, isWire, isRest⟩ := Option.bind_eq_some_iff.mp areWire
    obtain ⟨later, areLater, rfl⟩ := Option.map_eq_some_iff.mp isRest
    obtain ⟨isKey, isValid, areLaterValid⟩ := areValid
    obtain ⟨notLater, areLaterDistinct⟩ := List.nodup_cons.mp areDistinct
    have isFirst := set_setting setting.2 isValid isWire (canonicalFieldOptionKey_ne_nil isKey)
      (areAbsent _ mem_cons_self)
    have areSet := set_settings (opts ++ [(canonicalFieldOptionKey setting.1, value)]) rest
      areLaterValid areLater areLaterDistinct <| by
        intro key isLater isThere
        rw [keys, map_append, mem_append] at isThere
        rcases isThere with isOld | isNew
        · exact areAbsent key (mem_cons_of_mem _ isLater) isOld
        · have isSame : key = canonicalFieldOptionKey setting.1 := mem_singleton.mp isNew
          rw [isSame] at isLater
          exact notLater isLater
    rw [Setting.allAssigned, foldlM_append, isFirst]
    show (Setting.allAssigned floats rest).foldlM Assigned.set _ = _
    rw [areSet, append_assoc]
    rfl

end

/-! ## Tokens of options -/

/-- What the parts of a path are, joined. -/
structure IsPath (path : List Text) : Prop where
  notNone : path ≠ []
  areKeys : ∀ key ∈ path, IsKey key

theorem isPath_append (areKeys : ∀ key ∈ path, IsKey key)
    (isKey : IsKey key) : IsPath (path ++ [key]) where
  notNone := List.append_ne_nil_of_right_ne_nil _ (cons_ne_nil _ _)
  areKeys := by
    intro other isIn
    rcases mem_append.mp isIn with isAbove | isLast
    · exact areKeys other isAbove
    · exact mem_singleton.mp isLast ▸ isKey

theorem mem_intercalate {separator char : Char} {parts : List Text}
    (isChar : char ∈ [separator].intercalate parts) :
    char = separator ∨ ∃ part ∈ parts, char ∈ part := by
  induction parts with
  | nil => exact absurd isChar not_mem_nil
  | cons part parts ih =>
    cases parts with
    | nil =>
      rw [List.intercalate_singleton] at isChar
      exact .inr ⟨part, mem_cons_self, isChar⟩
    | cons next parts =>
      rw [List.intercalate_cons_cons, append_assoc, mem_append, mem_append,
        mem_singleton] at isChar
      rcases isChar with isFirst | isSeparator | isLater
      · exact .inr ⟨part, mem_cons_self, isFirst⟩
      · exact .inl isSeparator
      · refine (ih isLater).imp_right fun isThere => ?_
        obtain ⟨other, isOther, isIn⟩ := isThere
        exact ⟨other, mem_cons_of_mem _ isOther, isIn⟩

theorem IsPath.noSpace (isPath : IsPath path) :
    ∀ char ∈ ['.'].intercalate path, isSpace char = false := by
  intro char isChar
  rcases mem_intercalate isChar with rfl | ⟨key, isKey, isIn⟩
  · decide
  · exact (isPath.areKeys key isKey).noSpace char isIn

theorem IsPath.noEquals (isPath : IsPath path) : '=' ∉ ['.'].intercalate path := by
  intro isEquals
  rcases mem_intercalate isEquals with isDot | ⟨key, isKey, isIn⟩
  · exact absurd isDot (by decide)
  · exact (isPath.areKeys key isKey).noEquals isIn

theorem IsPath.isClosed (isPath : IsPath path) : Closed isSpace (['.'].intercalate path) :=
  Closed.joined (by decide) fun key isKey => (isPath.areKeys key isKey).isClosed

theorem IsPath.canonical (isPath : IsPath path) :
    canonicalFieldOptionPath (['.'].intercalate path) = path.map canonicalFieldOptionKey := by
  have isTrimmed : trimSpace (['.'].intercalate path) = ['.'].intercalate path :=
    trimSpace_eq_self (fun char isFirst => isPath.noSpace char (List.mem_of_mem_head? isFirst))
      fun char isLast => isPath.noSpace char (List.mem_of_mem_getLast? isLast)
  rw [canonicalFieldOptionPath, isTrimmed,
    List.splitOn_intercalate '.' (fun key isKey => (isPath.areKeys key isKey).noDot) isPath.notNone]

theorem normalizeToggle_toggled {literal : Literal} {value : Value floats} {name : Text}
    (isToggled : literal.toggled = some value) :
    ∃ read : Value floats, literal.wire floats = some read ∧
      ∃ number, normalizeToggle read name = .ok number ∧ value = .int number := by
  cases literal with
  | bool on =>
    cases on with
    | true =>
      cases isToggled
      exact ⟨_, rfl, 1, rfl, rfl⟩
    | false =>
      cases isToggled
      exact ⟨_, rfl, 0, rfl, rfl⟩
  | integer number =>
    rw [Literal.toggled] at isToggled
    split at isToggled
    · rename_i isOnOrOff
      cases isToggled
      exact ⟨_, rfl, number, if_pos isOnOrOff, rfl⟩
    · cases isToggled
  | _ => cases isToggled

theorem getLastD_canonical (path : List Text) (key : Text) :
    ((path ++ [key]).map canonicalFieldOptionKey).getLastD [] = canonicalFieldOptionKey key := by
  rw [map_append, map_singleton, List.getLastD_concat]

theorem applyFieldToken_value (isPath : IsPath (path ++ [key]))
    {literal : Literal} (isValid : literal.Valid floats isSpace)
    (isSettled : literal.settled floats (canonicalFieldOptionKey key) = some value)
    (opts : List (Text × Value floats)) :
    applyFieldToken opts (['.'].intercalate (path ++ [key]) ++ '=' :: literal.render) =
      setNestedOption opts ((path ++ [key]).map canonicalFieldOptionKey) value := by
  have notEmpty : ['.'].intercalate (path ++ [key]) ++ '=' :: literal.render ≠ [] :=
    List.append_ne_nil_of_right_ne_nil _ (cons_ne_nil _ _)
  rw [applyFieldToken, if_neg notEmpty, cut_append isPath.noEquals]
  dsimp only
  rw [isPath.canonical, getLastD_canonical]
  rw [Literal.settled] at isSettled
  split at isSettled
  · rename_i isToggle
    obtain ⟨read, isWire, number, isNumber, rfl⟩ :=
      @normalizeToggle_toggled floats literal value (canonicalFieldOptionKey key) isSettled
    have isListed := Bool.or_eq_true_iff.mp isToggle
    rw [parseValue_render separates_isSpace literal isValid isWire]
    show (if canonicalFieldOptionKey key = r ∨ canonicalFieldOptionKey key = mul then
      (normalizeToggle read (canonicalFieldOptionKey key)).bind _ else _) = _
    rw [if_pos (isListed.imp of_decide_eq_true of_decide_eq_true), isNumber]
    rfl
  · rename_i notToggle
    have notListed := Bool.or_eq_false_iff.mp (Bool.eq_false_iff.mpr notToggle)
    rw [parseValue_render separates_isSpace literal isValid isSettled]
    show (if canonicalFieldOptionKey key = r ∨ canonicalFieldOptionKey key = mul then _ else _) = _
    rw [if_neg (not_or.mpr ⟨of_decide_eq_false notListed.1, of_decide_eq_false notListed.2⟩)]

theorem applyFieldToken_flag (isKey : IsKey key) (isFlag : isFlagKey key)
    (opts : List (Text × Value floats)) :
    applyFieldToken opts key = setNestedOption opts [canonicalFieldOptionKey key] (.int 1) := by
  have isListed := (Bool.or_eq_true_iff.mp isFlag).imp of_decide_eq_true of_decide_eq_true
  have noCut : cut '=' key = none := if_neg isKey.noEquals
  rw [applyFieldToken, if_neg isKey.notEmpty, noCut, setNestedOption,
    if_neg (canonicalFieldOptionKey_ne_nil isKey)]
  exact if_pos isListed

theorem under_append (path : List Text) (key : Text) (one : Assigned floats) :
    one.under (path ++ [key]) = (one.under [key]).under path := by
  rw [Assigned.under, Assigned.under, Assigned.under, append_assoc]

theorem set_singleton (opts : List (Text × Value floats)) (one : Assigned floats) :
    [one].foldlM Assigned.set opts = setNestedOption opts one.1 one.2 := by
  show (setNestedOption opts one.1 one.2).bind Except.ok = _
  cases setNestedOption opts one.1 one.2 with
  | error error | ok opts => rfl

theorem apply_singleton (opts : List (Text × Value floats)) (token : Text) :
    [token].foldlM applyFieldToken opts = applyFieldToken opts token := by
  show (applyFieldToken opts token).bind Except.ok = _
  cases applyFieldToken opts token with
  | error error | ok opts => rfl

mutual

theorem apply_setting {mayBeFlag : Prop} {path : List Text} {key : Text}
    (isPath : IsPath (path ++ [key])) (setting : Setting)
    (isTop : mayBeFlag → path = [] ∧ isFlagKey key) (isValid : setting.Valid floats mayBeFlag)
    {value : Value floats} (isWire : setting.wire floats (canonicalFieldOptionKey key) = some value)
    (opts : List (Text × Value floats)) :
    (setting.tokens (path ++ [key])).foldlM applyFieldToken opts =
      ((setting.assigned floats (canonicalFieldOptionKey key)).map
        (Assigned.under (path.map canonicalFieldOptionKey))).foldlM Assigned.set opts := by
  cases setting with
  | flag =>
    obtain ⟨rfl, isFlag⟩ := isTop isValid
    have isKey := isPath.areKeys key mem_cons_self
    rw [Setting.tokens, Setting.assigned, List.nil_append, List.intercalate_singleton,
      apply_singleton, applyFieldToken_flag isKey isFlag, map_singleton, set_singleton]
    rfl
  | value literal =>
    have isSettled : literal.settled floats (canonicalFieldOptionKey key) = some value := isWire
    rw [Setting.tokens, Setting.assigned, apply_singleton,
      applyFieldToken_value isPath isValid isSettled, map_singleton, set_singleton,
      isSettled, map_append]
    rfl
  | nested settings =>
    obtain ⟨members, areWire, _⟩ := Option.map_eq_some_iff.mp isWire
    have areApplied := apply_settings isPath.areKeys settings
      (fun _ isFalse => isFalse.elim) isValid.2.2 areWire opts
    rw [Setting.tokens, areApplied, Setting.assigned, List.map_map, map_append,
      map_singleton]
    congr 1
    exact List.map_congr_left fun one _ => under_append _ _ one

theorem apply_settings {mayBeFlag : Text → Prop} {path : List Text}
    (areKeys : ∀ key ∈ path, IsKey key) (settings : List (Text × Setting))
    (areTop : ∀ key, mayBeFlag key → path = [] ∧ isFlagKey key)
    (areValid : Setting.AllValid floats mayBeFlag settings) {members : List (Text × Value floats)}
    (areWire : Setting.allWire floats settings = some members)
    (opts : List (Text × Value floats)) :
    (Setting.allTokens path settings).foldlM applyFieldToken opts =
      ((Setting.allAssigned floats settings).map
        (Assigned.under (path.map canonicalFieldOptionKey))).foldlM Assigned.set opts := by
  cases settings with
  | nil => rfl
  | cons setting rest =>
    obtain ⟨value, isWire, isRest⟩ := Option.bind_eq_some_iff.mp areWire
    obtain ⟨later, areLater, _⟩ := Option.map_eq_some_iff.mp isRest
    obtain ⟨isKey, isValid, areLaterValid⟩ := areValid
    have isFirst := apply_setting (isPath_append areKeys isKey) setting.2 (areTop setting.1)
      isValid isWire opts
    rw [Setting.allTokens, Setting.allAssigned, foldlM_append, map_append,
      foldlM_append, isFirst]
    congr 1
    funext opts
    exact apply_settings areKeys rest areTop areLaterValid areLater opts

end

theorem applyTokens_options {settings : List (Text × Setting)}
    (areValid : OptionsValid floats settings) {members : List (Text × Value floats)}
    (areWire : Setting.allWire floats settings = some members) :
    (Setting.allTokens [] settings).foldlM applyFieldToken [] = .ok members := by
  have areSet := set_settings [] settings areValid.areValid areWire areValid.areDistinct
    fun _ _ => not_mem_nil
  have isSame : (Setting.allAssigned floats settings).map (Assigned.under []) =
      Setting.allAssigned floats settings := List.map_id _
  rw [apply_settings (fun key isIn => absurd isIn not_mem_nil) settings
    (fun key isFlag => ⟨rfl, isFlag⟩) areValid.areValid areWire]
  exact (congrArg _ isSame).trans areSet

end AiTools.Webform.Dsl
