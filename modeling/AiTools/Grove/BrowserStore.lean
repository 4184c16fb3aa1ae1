import AiTools.Lib.Transition
import Mathlib

/-!
Contract: the history stack of a browser tab, next to the session history of its webview.
-/

namespace AiTools.Grove.BrowserStore

open AiTools.Lib.Transition
open Option (ite_none_right_eq_some map_eq_some_iff)

variable {Url : Type} [DecidableEq Url]

structure BrowserNavState (Url : Type) where
  url : Url
  title : Option String
  loading : Bool
  canGoBack : Bool
  canGoForward : Bool
  history : List Url
  index : Nat

/-- An event without flags for back and forward. -/
structure BrowserNavEvent (Url : Type) where
  url : Url
  title : Option String
  loading : Bool
  titleOnly : Bool

/-- `navigate` for a tab that is not known. -/
def opened (url : Url) : BrowserNavState Url := ⟨url, none, true, false, false, [url], 0⟩

namespace BrowserNavState

def navigate (nav : BrowserNavState Url) (url : Url) : BrowserNavState Url :=
  if nav.url = url then nav
  else
    let history := nav.history.take (nav.index + 1) ++ [url]
    let index := history.length - 1
    { nav with
      url := url
      loading := true
      canGoBack := 0 < index
      canGoForward := false
      history := history
      index := index }

def jumpHistory (nav : BrowserNavState Url) (targetIndex : Nat) : BrowserNavState Url :=
  match nav.history[targetIndex]? with
  | none => nav
  | some url =>
    if targetIndex = nav.index then nav
    else
      { nav with
        url := url
        index := targetIndex
        loading := true
        canGoBack := 0 < targetIndex
        canGoForward := targetIndex + 1 < nav.history.length }

/-- `history[index - 1]`, which is undefined for the first entry. -/
def entryBefore (history : List Url) (index : Nat) : Option Url :=
  if index = 0 then none else history[index - 1]?

/-- The history and the index behind an event. -/
def placed (history : List Url) (index : Nat) (url : Url) (loading : Bool) : List Url × Nat :=
  if history[index]? = some url then (history, index)
  else if entryBefore history index = some url then (history, index - 1)
  else if history[index + 1]? = some url then (history, index + 1)
  else if !loading then (history.set index url, index)
  else (history.take (index + 1) ++ [url], (history.take (index + 1) ++ [url]).length - 1)

def applyNavEvent (nav : BrowserNavState Url) (ev : BrowserNavEvent Url) : BrowserNavState Url :=
  if ev.titleOnly then { nav with title := ev.title <|> nav.title }
  else
    let (history, index) := placed nav.history nav.index ev.url ev.loading
    { url := ev.url
      title := ev.title <|> nav.title
      loading := ev.loading
      canGoBack := 0 < index
      canGoForward := index + 1 < history.length
      history := history
      index := index }

def suspendTab (nav : BrowserNavState Url) : BrowserNavState Url :=
  { nav with
    loading := false
    canGoBack := false
    canGoForward := false
    history := [nav.url]
    index := 0 }

end BrowserNavState

structure Native (Url : Type) where
  pages : List Url
  position : Nat

def Native.current (native : Native Url) : Option Url := native.pages[native.position]?

/-- A navigation to the page that is shown is a reload. -/
def Native.visit (native : Native Url) (url : Url) : Native Url :=
  if native.current = some url then native
  else ⟨native.pages.take (native.position + 1) ++ [url], native.position + 1⟩

/-- Whether a navigation is under way, and whether its load-start event is still to come. -/
inductive Phase where
  | settled
  | starting
  | loading
  deriving DecidableEq

structure System (Url : Type) where
  nav : BrowserNavState Url
  native : Native Url
  phase : Phase

def start (url : Url) : System Url := ⟨opened url, ⟨[url], 0⟩, .starting⟩

/-- `started` is the page that the webview makes of an address. A step of the history goes to any
page, and a jump is one that is chosen from the dropdown. -/
inductive Label (Url : Type) where
  | addressBar (url started : Url)
  | link (url : Url)
  | reload
  | go (position : Nat)
  | jump (targetIndex : Nat)
  | loadStart
  | redirect (url : Url)
  | settle (title : Option String)
  | title (title : Option String)
  | suspend

def System.event (sys : System Url) (title : Option String) (loading titleOnly : Bool) :
    Option (System Url) :=
  sys.native.current.map fun url =>
    { sys with nav := sys.nav.applyNavEvent ⟨url, title, loading, titleOnly⟩ }

/-- A navigation starts once the one before it has settled. -/
def step (sys : System Url) : Label Url → Option (System Url)
  | .addressBar url started =>
    if sys.phase = .settled then
      some ⟨sys.nav.navigate url, sys.native.visit started, .starting⟩
    else none
  | .link url =>
    if sys.phase = .settled then
      some { sys with native := sys.native.visit url, phase := .starting }
    else none
  | .reload => if sys.phase = .settled then some { sys with phase := .starting } else none
  | .go position =>
    if sys.phase = .settled ∧ position < sys.native.pages.length then
      some { sys with
        native := { sys.native with position := position }, phase := .starting }
    else none
  | .jump targetIndex =>
    if sys.phase = .settled ∧ targetIndex < sys.nav.history.length ∧
        targetIndex ≠ sys.nav.index then
      -- The webview is told the offset from the index of the store.
      some ⟨sys.nav.jumpHistory targetIndex,
        { sys.native with
          position := sys.native.position + targetIndex - sys.nav.index }, .starting⟩
    else none
  | .loadStart =>
    if sys.phase = .starting then
      (sys.event none true false).map fun next => { next with phase := .loading }
    else none
  | .redirect url =>
    if sys.phase = .loading then
      some { sys with
        native := { sys.native with
          pages := sys.native.pages.set sys.native.position url } }
    else none
  | .settle title =>
    if sys.phase = .loading then
      (sys.event title false false).map fun next => { next with phase := .settled }
    else none
  | .title title => sys.event title false true
  | .suspend =>
    some ⟨sys.nav.suspendTab, ⟨[sys.nav.url], 0⟩, .settled⟩

structure Follows (nav : BrowserNavState Url) (native : Native Url) : Prop where
  history : nav.history = native.pages
  index : nav.index = native.position
  canGoBack : nav.canGoBack = true ↔ 0 < native.position
  canGoForward : nav.canGoForward = true ↔ native.position + 1 < native.pages.length

def Native.isNeighbour (native : Native Url) (url : Url) : Prop :=
  BrowserNavState.entryBefore native.pages native.position = some url ∨
    native.pages[native.position + 1]? = some url

/-- A step of the history that the comparisons find: by one, to a page that is not the one shown,
and forward to one that is not the one before. -/
def Native.Found (native : Native Url) (position : Nat) : Prop :=
  (position + 1 = native.position ∧ native.pages[position]? ≠ native.current) ∨
    (position = native.position + 1 ∧ native.pages[position]? ≠ native.current ∧
      native.pages[position]? ≠ BrowserNavState.entryBefore native.pages native.position)

/-- An address is loaded as it was typed, a link leads to no neighbour, a step of the history is
found, and a redirected page settles on no neighbour. -/
def Clean (sys : System Url) : Label Url → Prop
  | .addressBar url started => started = url
  | .link url => sys.native.current = some url ∨ ¬sys.native.isNeighbour url
  | .go position => position = sys.native.position ∨ sys.native.Found position
  | .settle _ => ∀ url, sys.native.current = some url →
      sys.nav.history[sys.nav.index]? = some url ∨ ¬sys.native.isNeighbour url
  | _ => True

/-! ## What every step keeps -/

/-- What the next event makes of the stack is the list of the webview. -/
def Ready (nav : BrowserNavState Url) (native : Native Url) : Phase → Prop
  | .settled => Follows nav native ∧ native.current = some nav.url
  | .starting => ∀ url, native.current = some url →
      BrowserNavState.placed nav.history nav.index url true = (native.pages, native.position)
  | .loading => nav.index = native.position ∧
      ∃ old, nav.history = native.pages.set native.position old

structure Sound (sys : System Url) : Prop where
  inside : sys.native.position < sys.native.pages.length
  ready : Ready sys.nav sys.native sys.phase

section
variable {sys : System Url} {nav : BrowserNavState Url} {native : Native Url}
variable {history : List Url} {index : Nat} {url : Url} {next : System Url}

theorem placed_same (loading : Bool) (isSame : history[index]? = some url) :
    BrowserNavState.placed history index url loading = (history, index) :=
  if_pos isSame

omit [DecidableEq Url] in
theorem length_take_append (inside : native.position < native.pages.length) (url : Url) :
    (native.pages.take (native.position + 1) ++ [url]).length = native.position + 2 := by
  rw [List.length_append, List.length_take, List.length_singleton]
  omega

omit [DecidableEq Url] in
theorem getElem?_take_append (inside : native.position < native.pages.length) (url : Url) :
    (native.pages.take (native.position + 1) ++ [url])[native.position + 1]? = some url := by
  have isLength : (native.pages.take (native.position + 1)).length = native.position + 1 := by
    rw [List.length_take]
    omega
  rw [List.getElem?_append_right (Nat.le_of_eq isLength), isLength, Nat.sub_self]
  rfl

theorem visit_inside (inside : native.position < native.pages.length) (url : Url) :
    (native.visit url).position < (native.visit url).pages.length := by
  unfold Native.visit
  split_ifs
  · exact inside
  · dsimp only
    rw [length_take_append inside]
    omega

theorem Sound.follows (sound : Sound sys) (settled : sys.phase = .settled) :
    Follows sys.nav sys.native ∧ sys.native.current = some sys.nav.url := by
  have ready := sound.ready
  rw [settled] at ready
  exact ready

theorem Follows.placed_current (follows : Follows nav native)
    (isCurrent : native.current = some url) (loading : Bool) :
    BrowserNavState.placed nav.history nav.index url loading = (native.pages, native.position) := by
  rw [follows.history, follows.index]
  exact placed_same loading isCurrent

theorem Follows.placed_link (follows : Follows nav native)
    (inside : native.position < native.pages.length) (isOther : native.current ≠ some url)
    (notNeighbour : ¬native.isNeighbour url) :
    BrowserNavState.placed nav.history nav.index url true =
      (native.pages.take (native.position + 1) ++ [url], native.position + 1) := by
  obtain ⟨notBefore, notAfter⟩ := not_or.mp notNeighbour
  unfold BrowserNavState.placed
  rw [follows.history, follows.index, if_neg (show native.pages[native.position]? ≠ some url from
    isOther), if_neg notBefore, if_neg notAfter, length_take_append inside]
  rfl

theorem Sound.addressBar (sound : Sound sys) (settled : sys.phase = .settled) (url : Url) :
    Sound ⟨sys.nav.navigate url, sys.native.visit url, .starting⟩ := by
  obtain ⟨follows, isUrl⟩ := sound.follows settled
  refine ⟨visit_inside sound.inside url, fun shown isShown => ?_⟩
  unfold BrowserNavState.navigate
  by_cases isSame : sys.nav.url = url
  · have stays : sys.native.visit url = sys.native := by
      unfold Native.visit
      rw [if_pos (isSame ▸ isUrl)]
    rw [if_pos isSame]
    rw [stays] at isShown ⊢
    exact follows.placed_current isShown true
  · have notCurrent : sys.native.current ≠ some url := fun isCurrent =>
      isSame (Option.some.inj (isUrl.symm.trans isCurrent))
    have pushed : sys.native.visit url =
        ⟨sys.native.pages.take (sys.native.position + 1) ++ [url],
          sys.native.position + 1⟩ := if_neg notCurrent
    rw [if_neg isSame]
    rw [pushed] at isShown ⊢
    dsimp only
    rw [follows.history, follows.index, length_take_append sound.inside]
    exact placed_same true isShown

theorem Sound.link (sound : Sound sys) (settled : sys.phase = .settled)
    (clean : sys.native.current = some url ∨ ¬sys.native.isNeighbour url) :
    Sound { sys with native := sys.native.visit url, phase := .starting } := by
  obtain ⟨follows, _⟩ := sound.follows settled
  refine ⟨visit_inside sound.inside url, fun shown isShown => ?_⟩
  by_cases isCurrent : sys.native.current = some url
  · have stays : sys.native.visit url = sys.native := if_pos isCurrent
    dsimp only at isShown ⊢
    rw [stays] at isShown ⊢
    exact follows.placed_current isShown true
  · have pushed : sys.native.visit url =
        ⟨sys.native.pages.take (sys.native.position + 1) ++ [url],
          sys.native.position + 1⟩ := if_neg isCurrent
    dsimp only at isShown ⊢
    rw [pushed] at isShown ⊢
    have isUrl : url = shown :=
      Option.some.inj ((getElem?_take_append sound.inside url).symm.trans isShown)
    subst isUrl
    exact follows.placed_link sound.inside isCurrent (clean.resolve_left isCurrent)

theorem Sound.go (sound : Sound sys) (settled : sys.phase = .settled) {position : Nat}
    (inside : position < sys.native.pages.length)
    (clean : position = sys.native.position ∨ sys.native.Found position) :
    Sound { sys with
      native := { sys.native with position := position }, phase := .starting } := by
  obtain ⟨follows, _⟩ := sound.follows settled
  refine ⟨inside, fun shown isShown => ?_⟩
  have isPage : sys.native.pages[position]? = some shown := isShown
  have isOther : sys.native.pages[position]? ≠ sys.native.current →
      sys.native.pages[sys.native.position]? ≠ some shown := fun notCurrent isCurrent =>
    notCurrent (isPage.trans isCurrent.symm)
  unfold BrowserNavState.placed
  dsimp only
  rw [follows.history, follows.index]
  rcases clean with rfl | ⟨isBefore, notCurrent⟩ | ⟨rfl, notCurrent, notBefore⟩
  · rw [if_pos isPage]
  · have isEntry : BrowserNavState.entryBefore sys.native.pages sys.native.position =
        some shown := by
      unfold BrowserNavState.entryBefore
      rw [← isBefore, if_neg (Nat.succ_ne_zero position), Nat.add_sub_cancel]
      exact isPage
    rw [if_neg (isOther notCurrent), if_pos isEntry, ← isBefore, Nat.add_sub_cancel]
  · rw [isPage] at notBefore
    rw [if_neg (isOther notCurrent), if_neg (Ne.symm notBefore), if_pos isPage]

theorem Sound.jump (sound : Sound sys) (settled : sys.phase = .settled) {targetIndex : Nat}
    (inside : targetIndex < sys.nav.history.length) (isOther : targetIndex ≠ sys.nav.index) :
    Sound ⟨sys.nav.jumpHistory targetIndex,
      { sys.native with position := sys.native.position + targetIndex - sys.nav.index },
      .starting⟩ := by
  obtain ⟨follows, _⟩ := sound.follows settled
  have isPosition : sys.native.position + targetIndex - sys.nav.index = targetIndex := by
    rw [follows.index, Nat.add_sub_cancel_left]
  have isJump : ∃ url, sys.nav.jumpHistory targetIndex =
      { sys.nav with
        url := url
        index := targetIndex
        loading := true
        canGoBack := 0 < targetIndex
        canGoForward := targetIndex + 1 < sys.nav.history.length } := by
    unfold BrowserNavState.jumpHistory
    rw [List.getElem?_eq_getElem inside]
    exact ⟨_, if_neg isOther⟩
  obtain ⟨url, isJump⟩ := isJump
  rw [isPosition, isJump]
  refine ⟨follows.history ▸ inside, fun shown isShown => ?_⟩
  dsimp only
  rw [follows.history]
  exact placed_same true isShown

theorem Sound.event {title : Option String} {loading : Bool}
    (isNext : sys.event title loading false = some next) :
    ∃ url, sys.native.current = some url ∧ next.native = sys.native ∧
      next.nav = sys.nav.applyNavEvent ⟨url, title, loading, false⟩ := by
  obtain ⟨url, isCurrent, rfl⟩ := map_eq_some_iff.mp isNext
  exact ⟨url, isCurrent, rfl, rfl⟩

theorem applyNavEvent_fields (nav : BrowserNavState Url) (url : Url) (title : Option String)
    (loading : Bool)
    (isPlaced : BrowserNavState.placed nav.history nav.index url loading = (history, index)) :
    nav.applyNavEvent ⟨url, title, loading, false⟩ =
      { url := url
        title := title <|> nav.title
        loading := loading
        canGoBack := 0 < index
        canGoForward := index + 1 < history.length
        history := history
        index := index } := by
  unfold BrowserNavState.applyNavEvent
  rw [if_neg Bool.false_ne_true]
  dsimp only
  rw [isPlaced]

theorem Sound.loadStart (sound : Sound sys) (isStarting : sys.phase = .starting)
    (isNext : sys.event none true false = some next) :
    Sound { next with phase := .loading } := by
  obtain ⟨url, isCurrent, isNative, isNav⟩ := Sound.event isNext
  have ready := sound.ready
  rw [isStarting] at ready
  have inside := sound.inside
  have isPage : sys.native.pages[sys.native.position] = url :=
    Option.some.inj ((List.getElem?_eq_getElem inside).symm.trans isCurrent)
  rw [applyNavEvent_fields sys.nav url none true (ready url isCurrent)] at isNav
  refine ⟨by rw [isNative]; exact sound.inside, ?_⟩
  show next.nav.index = next.native.position ∧
    ∃ old, next.nav.history = next.native.pages.set next.native.position old
  rw [isNav, isNative]
  refine ⟨rfl, url, ?_⟩
  dsimp only
  rw [← isPage, List.set_getElem_self]

omit [DecidableEq Url] in
theorem entryBefore_set (pages : List Url) (position : Nat) (old : Url) :
    BrowserNavState.entryBefore (pages.set position old) position =
      BrowserNavState.entryBefore pages position := by
  unfold BrowserNavState.entryBefore
  split_ifs with isFirst
  · rfl
  · rw [List.getElem?_set_ne (by omega)]

theorem placed_settled (inside : native.position < native.pages.length)
    {old : Url} (isCurrent : native.current = some url)
    (clean : (native.pages.set native.position old)[native.position]? = some url ∨
      ¬native.isNeighbour url) :
    BrowserNavState.placed (native.pages.set native.position old) native.position url false =
      (native.pages, native.position) := by
  have isPage : native.pages[native.position] = url :=
    Option.some.inj ((List.getElem?_eq_getElem inside).symm.trans isCurrent)
  by_cases isSame : (native.pages.set native.position old)[native.position]? = some url
  · rw [placed_same false isSame]
    rw [List.getElem?_set_self inside] at isSame
    rw [Option.some.inj isSame, ← isPage, List.set_getElem_self]
  · obtain ⟨notBefore, notAfter⟩ := not_or.mp (clean.resolve_left isSame)
    unfold BrowserNavState.placed
    rw [if_neg isSame, entryBefore_set, if_neg notBefore,
      List.getElem?_set_ne (Nat.ne_of_lt (Nat.lt_succ_self _)), if_neg notAfter, if_pos (by rfl),
      List.set_set, ← isPage, List.set_getElem_self]

theorem Sound.settle (sound : Sound sys) (isLoading : sys.phase = .loading) {title : Option String}
    (clean : ∀ url, sys.native.current = some url →
      sys.nav.history[sys.nav.index]? = some url ∨ ¬sys.native.isNeighbour url)
    (isNext : sys.event title false false = some next) : Sound { next with phase := .settled } := by
  obtain ⟨url, isCurrent, isNative, isNav⟩ := Sound.event isNext
  have ready := sound.ready
  rw [isLoading] at ready
  obtain ⟨isIndex, old, isHistory⟩ := ready
  have isClean := clean url isCurrent
  rw [isIndex, isHistory] at isClean
  have isPlaced : BrowserNavState.placed sys.nav.history sys.nav.index url false =
      (sys.native.pages, sys.native.position) := by
    rw [isIndex, isHistory]
    exact placed_settled sound.inside isCurrent isClean
  rw [applyNavEvent_fields sys.nav url title false isPlaced] at isNav
  refine ⟨by rw [isNative]; exact sound.inside, ?_⟩
  show Follows next.nav next.native ∧ next.native.current = some next.nav.url
  rw [isNav, isNative]
  exact ⟨⟨rfl, rfl, decide_eq_true_iff, decide_eq_true_iff⟩, isCurrent⟩

theorem Sound.title (sound : Sound sys) {title : Option String}
    (isNext : sys.event title false true = some next) : Sound next := by
  obtain ⟨url, _, rfl⟩ := map_eq_some_iff.mp isNext
  refine ⟨sound.inside, ?_⟩
  have ready := sound.ready
  show Ready { sys.nav with title := title <|> sys.nav.title } sys.native sys.phase
  cases isPhase : sys.phase with
  | settled =>
    rw [isPhase] at ready
    obtain ⟨follows, isUrl⟩ := ready
    exact ⟨⟨follows.history, follows.index, follows.canGoBack, follows.canGoForward⟩, isUrl⟩
  | starting | loading =>
    rw [isPhase] at ready
    exact ready

theorem Sound.redirect (sound : Sound sys) (isLoading : sys.phase = .loading) (url : Url) :
    Sound { sys with
      native := { sys.native with
        pages := sys.native.pages.set sys.native.position url } } := by
  have ready := sound.ready
  rw [isLoading] at ready
  obtain ⟨isIndex, old, isHistory⟩ := ready
  refine ⟨(List.length_set ..).symm ▸ sound.inside, ?_⟩
  show Ready sys.nav _ sys.phase
  rw [isLoading]
  exact ⟨isIndex, old, isHistory.trans (List.set_set ..).symm⟩

theorem sound_suspend (nav : BrowserNavState Url) :
    Sound (⟨nav.suspendTab, ⟨[nav.url], 0⟩, .settled⟩ : System Url) :=
  ⟨Nat.zero_lt_one, ⟨rfl, rfl, ⟨nofun, fun isLess => absurd isLess (Nat.lt_irrefl 0)⟩,
    ⟨nofun, fun isLess => absurd isLess (Nat.lt_irrefl 1)⟩⟩, rfl⟩

theorem step_sound (sound : Sound sys) {label : Label Url} (clean : Clean sys label)
    (ran : step sys label = some next) : Sound next := by
  cases label with
  | addressBar url started =>
    obtain ⟨settled, isNext⟩ := ite_none_right_eq_some.mp ran
    cases isNext
    cases (clean : started = url)
    exact sound.addressBar settled _
  | link url =>
    obtain ⟨settled, isNext⟩ := ite_none_right_eq_some.mp ran
    cases isNext
    exact sound.link settled clean
  | reload =>
    obtain ⟨settled, isNext⟩ := ite_none_right_eq_some.mp ran
    cases isNext
    exact ⟨sound.inside, fun _ isShown => (sound.follows settled).1.placed_current isShown true⟩
  | go position =>
    obtain ⟨⟨settled, inside⟩, isNext⟩ := ite_none_right_eq_some.mp ran
    cases isNext
    exact sound.go settled inside clean
  | jump targetIndex =>
    obtain ⟨⟨settled, inside, isOther⟩, isNext⟩ := ite_none_right_eq_some.mp ran
    cases isNext
    exact sound.jump settled inside isOther
  | loadStart =>
    obtain ⟨isStarting, isNext⟩ := ite_none_right_eq_some.mp ran
    obtain ⟨shown, isEvent, rfl⟩ := map_eq_some_iff.mp isNext
    exact sound.loadStart isStarting isEvent
  | redirect url =>
    obtain ⟨isLoading, isNext⟩ := ite_none_right_eq_some.mp ran
    cases isNext
    exact sound.redirect isLoading url
  | settle title =>
    obtain ⟨isLoading, isNext⟩ := ite_none_right_eq_some.mp ran
    obtain ⟨shown, isEvent, rfl⟩ := map_eq_some_iff.mp isNext
    exact sound.settle isLoading clean isEvent
  | title title => exact sound.title ran
  | suspend =>
    cases ran
    exact sound_suspend sys.nav

end

theorem historyFollows (url : Url) {finish : System Url} (run : Run step Clean (start url) finish)
    (settled : finish.phase = .settled) : Follows finish.nav finish.native := by
  have begin : Sound (start url) :=
    ⟨Nat.zero_lt_one, fun _ isShown => placed_same true isShown⟩
  have sound : Sound finish :=
    run.invariant begin fun _ _ _ sound clean ran => step_sound sound clean ran
  exact (sound.follows settled).1

def openedAndLinked : List (Label Nat) :=
  [.loadStart, .settle none, .link 1, .loadStart, .settle none]

theorem historyFollows_linked : ∃ finish, execute step (start 0) openedAndLinked = some finish ∧
    Follows finish.nav finish.native := by
  refine ⟨_, rfl, historyFollows 0 (run_of_permitted openedAndLinked ?_ rfl) rfl⟩
  refine ⟨trivial, _, rfl, ?_, _, rfl, ?_, _, rfl, trivial, _, rfl, ?_, _, rfl, trivial⟩
  · rintro _ ⟨rfl⟩
    exact Or.inl rfl
  · right
    rintro (isBefore | isAfter)
    · cases isBefore
    · cases isAfter
  · rintro _ ⟨rfl⟩
    exact Or.inl rfl

/-- A link leads back to the page before. -/
def linkedBack : List (Label Nat) := openedAndLinked ++ [.link 0, .loadStart, .settle none]

theorem not_historyFollows : ¬∀ (url : Nat) (finish : System Nat),
    Reachable step (start url) finish → finish.phase = .settled →
      Follows finish.nav finish.native := by
  intro allFollow
  have follows := allFollow 0 _ (reachable_of_execute linkedBack rfl) rfl
  exact absurd follows.index (by decide)

end AiTools.Grove.BrowserStore
