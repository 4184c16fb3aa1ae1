import AiTools.Lib.Transition
import Mathlib

/-!
Contract: the tabs of the worktrees, and the tab that each of them shows.

A new id is any string that the worktree has no tab with.
-/

namespace AiTools.Grove.TabStore

open AiTools.Lib.Transition
open List (any_eq_true map_map mem_cons mem_cons_of_mem mem_cons_self mem_map mem_singleton)

inductive AppTabType where
  | terminal
  | changes
  | browser
  | file
deriving DecidableEq

structure AppTab where
  id : String
  type : AppTabType
  title : String
  closable : Bool
  faviconUrl : Option String
deriving DecidableEq

structure TabSession where
  tabs : List AppTab
  activeTabId : String

/-- The sentinel that stands for the content of the terminal. -/
def terminalContentTabId : String := "terminal"

def changesTabId : String := "changes"

def defaultTerminalTabTitle : String := "Terminal"

def defaultSession : TabSession := ⟨[], terminalContentTabId⟩

def makeTerminalTabEntry (tabId : String) : AppTab :=
  ⟨tabId, .terminal, defaultTerminalTabTitle, true, none⟩

structure Successor where
  activeTabId : String
  terminalTabId : Option String

/-- The tab that slid into the place, or the last one. -/
def resolveSuccessorTab (tabs : List AppTab) (closedIndex : Nat) : Successor :=
  match tabs[min closedIndex (tabs.length - 1)]? with
  | none => ⟨terminalContentTabId, none⟩
  | some slot =>
    if slot.type = .terminal then ⟨terminalContentTabId, some slot.id⟩ else ⟨slot.id, none⟩

def createSessionWithClosableTabs (closableTabs : List AppTab) (activeTabId : String) :
    TabSession :=
  ⟨closableTabs, if closableTabs.any (fun tab => tab.id = activeTabId) then activeTabId
    else terminalContentTabId⟩

abbrev Sessions := List (String × TabSession)

/-- The session is written in its place, or behind the others. -/
def Sessions.write : Sessions → String → TabSession → Sessions
  | [], worktreePath, session => [(worktreePath, session)]
  | entry :: later, worktreePath, session =>
    if entry.1 = worktreePath then (worktreePath, session) :: later
    else entry :: Sessions.write later worktreePath session

structure TabState where
  sessions : Sessions
  activeWorktree : Option String

/-- An empty path counts as none. -/
def truthy (worktreePath : Option String) : Option String :=
  worktreePath.filter fun path => path ≠ ""

def TabState.getSessionForWorktree (state : TabState) (worktreePath : Option String) :
    TabSession :=
  match truthy worktreePath with
  | none => defaultSession
  | some path => (state.sessions.lookup path).getD defaultSession

def TabState.getSession (state : TabState) : TabSession :=
  state.getSessionForWorktree state.activeWorktree

def TabState.findTabOwner (state : TabState) (tabId : String) :
    Option (String × TabSession × AppTab) :=
  state.sessions.findSome? fun entry =>
    (entry.2.tabs.find? fun tab => tab.id = tabId).map fun tab => (entry.1, entry.2, tab)

def TabState.writeSession (state : TabState) (worktreePath : Option String)
    (session : TabSession) : TabState :=
  match truthy worktreePath with
  | none => state
  | some path => { state with sessions := state.sessions.write path session }

def TabState.updateSession (state : TabState) (updater : TabSession → TabSession) : TabState :=
  match truthy state.activeWorktree with
  | none => state
  | some path =>
    { state with
      sessions := state.sessions.write path
        (updater ((state.sessions.lookup path).getD defaultSession)) }

/-! ## The actions -/

def TabState.setActiveWorktree (state : TabState) (worktreePath : Option String) : TabState :=
  if state.activeWorktree = worktreePath then state
  else
    match truthy worktreePath with
    | some path =>
      match state.sessions.lookup path with
      | none => ⟨state.sessions.write path defaultSession, worktreePath⟩
      | some _ => { state with activeWorktree := worktreePath }
    | none => { state with activeWorktree := worktreePath }

/-- The worktree that a new tab goes to. -/
def TabState.target (state : TabState) (worktreePath : Option String) : Option String :=
  match truthy worktreePath with
  | some path => if (state.sessions.lookup path).isSome then some path else state.activeWorktree
  | none => state.activeWorktree

/-- The id is the one of the tab, or of the one that there is for the changes. -/
def TabState.addTab (state : TabState) (type : AppTabType) (title : String)
    (worktreePath : Option String) (activate : Bool) (randomUUID : String) : String × TabState :=
  let worktreePath := state.target worktreePath
  let session := state.getSessionForWorktree worktreePath
  if type = .changes ∧ session.tabs.any (fun tab => tab.id = changesTabId) then
    (changesTabId, if activate then
        state.writeSession worktreePath { session with activeTabId := changesTabId }
      else state)
  else
    let id := if type = .changes then changesTabId else randomUUID
    (id, state.writeSession worktreePath
      ⟨session.tabs ++ [⟨id, type, title, true, none⟩],
        if activate then id else session.activeTabId⟩)

def TabState.closeTab (state : TabState) (tabId : String) : TabState :=
  let session := state.getSession
  match session.tabs.find? fun tab => tab.id = tabId with
  | none => state
  | some tab =>
    if tab.type = .terminal then state
    else
      let tabIndex := session.tabs.findIdx fun tab => tab.id = tabId
      let newTabs := session.tabs.filter fun tab => tab.id ≠ tabId
      state.updateSession fun _ =>
        ⟨newTabs, if session.activeTabId = tabId then
            (resolveSuccessorTab newTabs tabIndex).activeTabId
          else session.activeTabId⟩

def TabState.setActiveTab (state : TabState) (tabId : String) : TabState :=
  let session := state.getSession
  if tabId ≠ terminalContentTabId ∧ ¬session.tabs.any (fun tab => tab.id = tabId) then state
  else state.updateSession fun _ => { session with activeTabId := tabId }

def TabState.moveTab (state : TabState) (tabId : String) (targetIndex : Int) : TabState :=
  let session := state.getSession
  let fromIndex := session.tabs.findIdx fun tab => tab.id = tabId
  match session.tabs[fromIndex]? with
  | none => state
  | some moved =>
    let clamped := (max 0 (min targetIndex (session.tabs.length - 1))).toNat
    if clamped = fromIndex then state
    else
      state.updateSession fun _ =>
        { session with tabs := (session.tabs.eraseIdx fromIndex).insertIdx clamped moved }

/-- The terminal entries that stay, with all other tabs. -/
def TabSession.kept (session : TabSession) (desired : List String) : List AppTab :=
  session.tabs.filter fun tab => tab.type ≠ .terminal || desired.contains tab.id

/-- The ids that there is no terminal entry for. -/
def TabSession.missing (session : TabSession) (desired : List String) : List String :=
  desired.filter fun id =>
    !(((session.kept desired).filter fun tab => tab.type = .terminal).map AppTab.id).contains id

def TabState.syncTerminalTabs (state : TabState) (worktreePath : String)
    (terminalTabIds : Option (List String)) : TabState :=
  let session := (state.sessions.lookup worktreePath).getD defaultSession
  let desired := terminalTabIds.getD []
  let tabs := session.kept desired ++ (session.missing desired).map makeTerminalTabEntry
  if tabs = session.tabs then state
  else
    let activeTabId := match terminalTabIds, tabs with
      | none, first :: _ =>
        if session.activeTabId = terminalContentTabId then first.id else session.activeTabId
      | _, _ => session.activeTabId
    { state with sessions := state.sessions.write worktreePath ⟨tabs, activeTabId⟩ }

/-- The tab is changed in the session that owns it. -/
def TabState.mapTab (state : TabState) (tabId : String) (isDone : AppTab → Bool)
    (change : AppTab → AppTab) : TabState :=
  match state.findTabOwner tabId with
  | none => state
  | some (worktreePath, session, tab) =>
    if isDone tab then state
    else
      { state with
        sessions := state.sessions.write worktreePath
          { session with
            tabs := session.tabs.map fun tab => if tab.id = tabId then change tab else tab } }

def TabState.updateTabTitle (state : TabState) (tabId title : String) : TabState :=
  state.mapTab tabId (fun tab => tab.title = title) fun tab => { tab with title := title }

def TabState.updateTabFavicon (state : TabState) (tabId faviconUrl : String) : TabState :=
  state.mapTab tabId (fun tab => tab.faviconUrl = some faviconUrl) fun tab =>
    { tab with faviconUrl := some faviconUrl }

def TabState.removeSession (state : TabState) (worktreePath : String) : TabState :=
  { state with sessions := state.sessions.filter fun entry => entry.1 ≠ worktreePath }

structure PersistedTab where
  id : String
  type : AppTabType
  title : String

structure PersistedSession where
  tabs : List PersistedTab
  activeTabId : String

abbrev Persisted := List (String × PersistedSession)

def persistedSessionsSnapshot (sessions : Sessions) : Persisted :=
  sessions.filterMap fun entry =>
    let closable := (entry.2.tabs.filter AppTab.closable).map fun tab =>
      (⟨tab.id, tab.type, tab.title⟩ : PersistedTab)
    if closable.isEmpty then none else some (entry.1, ⟨closable, entry.2.activeTabId⟩)

def rehydrateSessions (raw : Persisted) : Sessions :=
  raw.foldl (fun sessions entry =>
    let closable := entry.2.tabs.map fun tab =>
      (⟨tab.id, tab.type, tab.title, true, none⟩ : AppTab)
    if closable.isEmpty then sessions
    else sessions.write entry.1 (createSessionWithClosableTabs closable entry.2.activeTabId)) []

/-- The sessions of the store go over the persisted ones. -/
def TabState.initUiSessionPersistence (state : TabState) (raw : Persisted) : TabState :=
  { state with
    sessions := state.sessions.foldl (fun sessions entry => sessions.write entry.1 entry.2)
      (rehydrateSessions raw) }

/-- `saved` is history: every snapshot that was persisted. -/
structure System where
  state : TabState
  saved : List Persisted

def initial : System := ⟨⟨[], none⟩, []⟩

inductive Label where
  | setActiveWorktree (worktreePath : Option String)
  | addTab (type : AppTabType) (title : String) (worktreePath : Option String) (activate : Bool)
      (randomUUID : String)
  | closeTab (tabId : String)
  | setActiveTab (tabId : String)
  | moveTab (tabId : String) (targetIndex : Int)
  | syncTerminalTabs (worktreePath : String) (terminalTabIds : Option (List String))
  | updateTabTitle (tabId title : String)
  | updateTabFavicon (tabId faviconUrl : String)
  | removeSession (worktreePath : String)
  | relaunch
  | initUiSessionPersistence (index : Nat)

/-- Every change of the store is persisted. -/
def System.set (sys : System) (state : TabState) : System :=
  ⟨state, sys.saved ++ [persistedSessionsSnapshot state.sessions]⟩

/-- A launch may find any of the snapshots: the last ones need not have reached the disk. -/
def step (sys : System) : Label → Option System
  | .setActiveWorktree worktreePath =>
    some (sys.set (sys.state.setActiveWorktree worktreePath))
  | .addTab type title worktreePath activate randomUUID =>
    some (sys.set (sys.state.addTab type title worktreePath activate randomUUID).2)
  | .closeTab tabId => some (sys.set (sys.state.closeTab tabId))
  | .setActiveTab tabId => some (sys.set (sys.state.setActiveTab tabId))
  | .moveTab tabId targetIndex => some (sys.set (sys.state.moveTab tabId targetIndex))
  | .syncTerminalTabs worktreePath terminalTabIds =>
    some (sys.set (sys.state.syncTerminalTabs worktreePath terminalTabIds))
  | .updateTabTitle tabId title => some (sys.set (sys.state.updateTabTitle tabId title))
  | .updateTabFavicon tabId faviconUrl =>
    some (sys.set (sys.state.updateTabFavicon tabId faviconUrl))
  | .removeSession worktreePath => some (sys.set (sys.state.removeSession worktreePath))
  | .relaunch => some { sys with state := initial.state }
  | .initUiSessionPersistence index =>
    sys.saved[index]?.map fun raw => sys.set (sys.state.initUiSessionPersistence raw)

structure Consistent (session : TabSession) : Prop where
  distinct : (session.tabs.map AppTab.id).Nodup
  shown : session.activeTabId = terminalContentTabId ∨
    ∃ tab ∈ session.tabs, tab.id = session.activeTabId ∧ tab.type ≠ .terminal

/-- No terminal entry of the session has the id. -/
def NoTerminal (session : TabSession) (id : String) : Prop :=
  ∀ tab ∈ session.tabs, tab.id = id → tab.type ≠ .terminal

/-- No terminal entry is made the active tab, and no terminal comes with an id that there is a tab
for; a new id is new. -/
def Clean (sys : System) : Label → Prop
  | .addTab type _ worktreePath activate randomUUID =>
    let session := sys.state.getSessionForWorktree (sys.state.target worktreePath)
    (activate = true → type ≠ .terminal) ∧
      (activate = true → type = .changes → NoTerminal session changesTabId) ∧
        randomUUID ∉ session.tabs.map AppTab.id
  | .setActiveTab tabId =>
    tabId = terminalContentTabId ∨ NoTerminal sys.state.getSession tabId
  | .syncTerminalTabs worktreePath terminalTabIds =>
    let session := (sys.state.sessions.lookup worktreePath).getD defaultSession
    (session.missing (terminalTabIds.getD [])).Nodup ∧ ∀ tab ∈ session.tabs, tab.type ≠ .terminal →
        tab.id ∉ session.missing (terminalTabIds.getD [])
  | _ => True

def TabsConsistent (ok : System → Label → Prop) : Prop :=
  ∀ finish, Run step ok initial finish → ∀ worktreePath,
    Consistent (finish.state.getSessionForWorktree worktreePath)

section
variable {session : TabSession}

theorem consistent_default : Consistent defaultSession :=
  ⟨List.nodup_nil, .inl rfl⟩

theorem Consistent.activate (consistent : Consistent session) {id : String}
    (isShown : id = terminalContentTabId ∨
      ∃ tab ∈ session.tabs, tab.id = id ∧ tab.type ≠ .terminal) :
    Consistent { session with activeTabId := id } :=
  ⟨consistent.distinct, isShown⟩

variable {tab : AppTab} {desired : List String}

theorem Consistent.add (consistent : Consistent session) {activate : Bool}
    (isNew : tab.id ∉ session.tabs.map AppTab.id)
    (isOther : activate = true → tab.type ≠ .terminal) :
    Consistent ⟨session.tabs ++ [tab], if activate then tab.id else session.activeTabId⟩ where
  distinct := by
    show ((session.tabs ++ [tab]).map AppTab.id).Nodup
    rw [List.map_append]
    refine consistent.distinct.append (List.nodup_singleton _) ?_
    intro id isOld isTab
    exact isNew (mem_singleton.mp isTab ▸ isOld)
  shown := by
    cases activate with
    | true =>
      exact .inr ⟨tab, List.mem_append_right _ mem_cons_self, rfl, isOther rfl⟩
    | false =>
      refine consistent.shown.imp_right ?_
      rintro ⟨shown, isIn, isShown⟩
      exact ⟨shown, List.mem_append_left _ isIn, isShown⟩

theorem resolveSuccessorTab_shown (tabs : List AppTab) (closedIndex : Nat) :
    (resolveSuccessorTab tabs closedIndex).activeTabId = terminalContentTabId ∨
      ∃ tab ∈ tabs, tab.id = (resolveSuccessorTab tabs closedIndex).activeTabId ∧
        tab.type ≠ .terminal := by
  unfold resolveSuccessorTab
  split
  · exact .inl rfl
  · rename_i slot isSlot
    split_ifs with isTerminal
    · exact .inl rfl
    · exact .inr ⟨slot, List.mem_of_getElem? isSlot, rfl, isTerminal⟩

theorem Consistent.close (consistent : Consistent session) (tabId : String) (closedIndex : Nat) :
    Consistent
      ⟨session.tabs.filter fun tab => tab.id ≠ tabId, if session.activeTabId = tabId then
          (resolveSuccessorTab (session.tabs.filter fun tab => tab.id ≠ tabId)
            closedIndex).activeTabId
        else session.activeTabId⟩ where
  distinct := consistent.distinct.sublist (List.filter_sublist.map _)
  shown := by
    dsimp only
    split_ifs with wasActive
    · exact resolveSuccessorTab_shown _ _
    · refine consistent.shown.imp_right ?_
      rintro ⟨tab, isIn, isActive, isOther⟩
      refine ⟨tab, List.mem_filter.mpr ⟨isIn, ?_⟩, isActive, isOther⟩
      exact decide_eq_true (isActive ▸ wasActive)

theorem Consistent.permute (consistent : Consistent session) {tabs : List AppTab}
    (isPerm : tabs.Perm session.tabs) : Consistent { session with tabs := tabs } where
  distinct := (isPerm.map _).nodup_iff.mpr consistent.distinct
  shown := by
    refine consistent.shown.imp_right ?_
    rintro ⟨tab, isIn, isShown⟩
    exact ⟨tab, isPerm.mem_iff.mpr isIn, isShown⟩

theorem Consistent.map (consistent : Consistent session) {change : AppTab → AppTab}
    (sameId : ∀ tab, (change tab).id = tab.id) (sameType : ∀ tab, (change tab).type = tab.type) :
    Consistent { session with tabs := session.tabs.map change } where
  distinct := by
    have same : (session.tabs.map change).map AppTab.id = session.tabs.map AppTab.id := by
      rw [map_map]
      exact List.map_congr_left fun tab _ => sameId tab
    exact same ▸ consistent.distinct
  shown := by
    refine consistent.shown.imp_right ?_
    rintro ⟨tab, isIn, isActive, isOther⟩
    exact ⟨change tab, List.mem_map_of_mem isIn, (sameId tab).trans isActive,
      (sameType tab).symm ▸ isOther⟩

theorem mem_kept (isOther : tab.type ≠ .terminal) (isIn : tab ∈ session.tabs) :
    tab ∈ session.kept desired :=
  List.mem_filter.mpr ⟨isIn, by simp [isOther]⟩

theorem Consistent.distinct_sync (consistent : Consistent session)
    (distinct : (session.missing desired).Nodup)
    (others : ∀ tab ∈ session.tabs, tab.type ≠ .terminal → tab.id ∉ session.missing desired) :
    ((session.kept desired ++ (session.missing desired).map makeTerminalTabEntry).map
      AppTab.id).Nodup := by
  have sameIds : ((session.missing desired).map makeTerminalTabEntry).map AppTab.id =
      session.missing desired := by
    rw [map_map]
    exact List.map_id _
  rw [List.map_append, sameIds]
  refine (consistent.distinct.sublist (List.filter_sublist.map _)).append distinct ?_
  intro id isKept isMissing
  obtain ⟨tab, isIn, rfl⟩ := mem_map.mp isKept
  by_cases isTerminal : tab.type = .terminal
  · have notEntry := (List.mem_filter.mp isMissing).2
    rw [Bool.not_eq_true', List.contains_eq_mem, decide_eq_false_iff_not] at notEntry
    exact notEntry (List.mem_map_of_mem (List.mem_filter.mpr ⟨isIn, decide_eq_true isTerminal⟩))
  · exact others tab (List.mem_filter.mp isIn).1 isTerminal isMissing

end

/-! ## The store's sessions -/

def TabState.Tidy (state : TabState) : Prop :=
  ∀ entry ∈ state.sessions, Consistent entry.2

variable {worktreePath : String} {raw : Persisted}

theorem mem_write {session : TabSession} {entry : String × TabSession} :
    ∀ {sessions : Sessions}, entry ∈ sessions.write worktreePath session →
      entry = (worktreePath, session) ∨ entry ∈ sessions
  | [], isIn => .inl (mem_singleton.mp isIn)
  | other :: later, isIn => by
    unfold Sessions.write at isIn
    split_ifs at isIn
    · rcases mem_cons.mp isIn with isNew | isLater
      · exact .inl isNew
      · exact .inr (mem_cons_of_mem _ isLater)
    · rcases mem_cons.mp isIn with isOther | isLater
      · exact .inr (isOther ▸ mem_cons_self)
      · exact (mem_write isLater).imp_right (mem_cons_of_mem _)

theorem mem_of_lookup {session : TabSession} :
    ∀ {sessions : Sessions}, sessions.lookup worktreePath = some session →
      (worktreePath, session) ∈ sessions
  | [], found => nomatch found
  | (path, other) :: later, found => by
    rw [List.lookup_cons] at found
    split at found
    · rename_i isPath
      cases found
      rw [beq_iff_eq.mp isPath]
      exact mem_cons_self
    · exact mem_cons_of_mem _ (mem_of_lookup found)

section
variable {state : TabState}

theorem TabState.Tidy.lookup (tidy : state.Tidy) (worktreePath : String) :
    Consistent ((state.sessions.lookup worktreePath).getD defaultSession) := by
  cases found : state.sessions.lookup worktreePath with
  | none => exact consistent_default
  | some session => exact tidy _ (mem_of_lookup found)

theorem TabState.Tidy.getSessionForWorktree (tidy : state.Tidy) (worktreePath : Option String) :
    Consistent (state.getSessionForWorktree worktreePath) := by
  unfold TabState.getSessionForWorktree
  split
  · exact consistent_default
  · exact tidy.lookup _

theorem TabState.Tidy.write (tidy : state.Tidy) {session : TabSession}
    {activeWorktree : Option String} (consistent : Consistent session) :
    (⟨state.sessions.write worktreePath session, activeWorktree⟩ : TabState).Tidy := by
  intro entry isIn
  rcases mem_write isIn with rfl | isOld
  · exact consistent
  · exact tidy entry isOld

theorem TabState.Tidy.writeSession (tidy : state.Tidy) {worktreePath : Option String}
    {session : TabSession} (consistent : Consistent session) :
    (state.writeSession worktreePath session).Tidy := by
  unfold TabState.writeSession
  split
  · exact tidy
  · exact tidy.write consistent

theorem TabState.Tidy.updateSession (tidy : state.Tidy) {updater : TabSession → TabSession}
    (consistent : ∀ session, Consistent session → Consistent (updater session)) :
    (state.updateSession updater).Tidy := by
  unfold TabState.updateSession
  split
  · exact tidy
  · exact tidy.write (consistent _ (tidy.lookup _))

theorem TabState.Tidy.setActiveWorktree (tidy : state.Tidy) (worktreePath : Option String) :
    (state.setActiveWorktree worktreePath).Tidy := by
  unfold TabState.setActiveWorktree
  split_ifs
  · exact tidy
  · split
    · split
      · exact tidy.write consistent_default
      · exact tidy
    · exact tidy

theorem TabState.Tidy.addTab (tidy : state.Tidy) {type : AppTabType} {title : String}
    {worktreePath : Option String} {activate : Bool} {randomUUID : String}
    (isOther : activate = true → type ≠ .terminal)
    (noTerminal : activate = true → type = .changes →
      NoTerminal (state.getSessionForWorktree (state.target worktreePath)) changesTabId)
    (isNew : randomUUID ∉
      (state.getSessionForWorktree (state.target worktreePath)).tabs.map AppTab.id) :
    (state.addTab type title worktreePath activate randomUUID).2.Tidy := by
  have consistent := tidy.getSessionForWorktree (state.target worktreePath)
  unfold TabState.addTab
  dsimp only
  generalize state.getSessionForWorktree (state.target worktreePath) = session at *
  by_cases isThere : type = .changes ∧ session.tabs.any (fun tab => tab.id = changesTabId) = true
  · rw [if_pos isThere]
    dsimp only
    split_ifs with isActive
    · obtain ⟨isChanges, isSome⟩ := isThere
      obtain ⟨tab, isIn, isTab⟩ := any_eq_true.mp isSome
      have isId : tab.id = changesTabId := of_decide_eq_true isTab
      refine tidy.writeSession (consistent.activate (Or.inr ⟨tab, isIn, isId, ?_⟩))
      exact noTerminal isActive isChanges tab isIn isId
    · exact tidy
  · rw [if_neg isThere]
    dsimp only
    have idNew : (if type = .changes then changesTabId else randomUUID) ∉
        session.tabs.map AppTab.id := by
      split_ifs with isChanges
      · intro isOld
        obtain ⟨tab, isIn, isTab⟩ := mem_map.mp isOld
        exact isThere ⟨isChanges, any_eq_true.mpr ⟨tab, isIn, decide_eq_true isTab⟩⟩
      · exact isNew
    generalize (if type = .changes then changesTabId else randomUUID) = id at idNew
    have added : Consistent ⟨session.tabs ++ [⟨id, type, title, true, none⟩],
        if activate then id else session.activeTabId⟩ := consistent.add idNew isOther
    exact tidy.writeSession added

theorem TabState.Tidy.closeTab (tidy : state.Tidy) (tabId : String) :
    (state.closeTab tabId).Tidy := by
  unfold TabState.closeTab
  dsimp only
  split
  · exact tidy
  · rename_i tab _
    by_cases isTerminal : tab.type = .terminal
    · rw [if_pos isTerminal]
      exact tidy
    · rw [if_neg isTerminal]
      exact tidy.updateSession fun _ _ =>
        (tidy.getSessionForWorktree state.activeWorktree).close tabId _

variable {tabId : String}

theorem TabState.Tidy.setActiveTab (tidy : state.Tidy)
    (isShown : tabId = terminalContentTabId ∨ NoTerminal state.getSession tabId) :
    (state.setActiveTab tabId).Tidy := by
  unfold TabState.setActiveTab
  dsimp only
  split_ifs with isUnknown
  · exact tidy
  · have consistent := tidy.getSessionForWorktree state.activeWorktree
    refine tidy.updateSession fun _ _ => consistent.activate ?_
    refine or_iff_not_imp_left.mpr fun notSentinel => ?_
    have isSome := not_not.mp fun isNone => isUnknown ⟨notSentinel, isNone⟩
    obtain ⟨tab, isIn, isTab⟩ := any_eq_true.mp isSome
    have isId : tab.id = tabId := of_decide_eq_true isTab
    exact ⟨tab, isIn, isId, isShown.resolve_left notSentinel tab isIn isId⟩

theorem TabState.Tidy.moveTab (tidy : state.Tidy) (tabId : String) (targetIndex : Int) :
    (state.moveTab tabId targetIndex).Tidy := by
  unfold TabState.moveTab
  dsimp only
  split
  · exact tidy
  · rename_i moved isMoved
    split_ifs
    · exact tidy
    · refine tidy.updateSession fun _ _ =>
        (tidy.getSessionForWorktree state.activeWorktree).permute ?_
      obtain ⟨isIndex, rfl⟩ := List.getElem?_eq_some_iff.mp isMoved
      refine (List.perm_insertIdx _ _ ?_).trans (List.getElem_cons_eraseIdx_perm isIndex)
      rw [List.length_eraseIdx_of_lt isIndex]
      omega

theorem TabState.Tidy.syncTerminalTabs (tidy : state.Tidy) {terminalTabIds : Option (List String)}
    (distinct : (((state.sessions.lookup worktreePath).getD defaultSession).missing
      (terminalTabIds.getD [])).Nodup)
    (others : ∀ tab ∈ ((state.sessions.lookup worktreePath).getD defaultSession).tabs,
      tab.type ≠ .terminal → tab.id ∉
        ((state.sessions.lookup worktreePath).getD defaultSession).missing
          (terminalTabIds.getD [])) :
    (state.syncTerminalTabs worktreePath terminalTabIds).Tidy := by
  have consistent := tidy.lookup worktreePath
  generalize isSession : (state.sessions.lookup worktreePath).getD defaultSession = session at *
  unfold TabState.syncTerminalTabs
  rw [isSession]
  dsimp only
  have stays : session.activeTabId = terminalContentTabId ∨
      ∃ tab ∈ session.kept (terminalTabIds.getD []) ++
        (session.missing (terminalTabIds.getD [])).map makeTerminalTabEntry,
        tab.id = session.activeTabId ∧ tab.type ≠ .terminal := by
    refine consistent.shown.imp_right ?_
    rintro ⟨tab, isIn, isActive, isOther⟩
    exact ⟨tab, List.mem_append_left _ (mem_kept isOther isIn), isActive, isOther⟩
  by_cases isSame : session.kept (terminalTabIds.getD []) ++
      (session.missing (terminalTabIds.getD [])).map makeTerminalTabEntry = session.tabs
  · rw [if_pos isSame]
    exact tidy
  · rw [if_neg isSame]
    refine tidy.write ⟨consistent.distinct_sync distinct others, ?_⟩
    dsimp only
    split
    · rename_i first later isTabs
      split_ifs
      · -- Without a terminal there is no terminal entry left.
        have isIn : first ∈ session.kept [] ++ (session.missing []).map makeTerminalTabEntry :=
          isTabs ▸ mem_cons_self
        refine .inr ⟨first, isIn, rfl, fun isTerminal => ?_⟩
        rcases List.mem_append.mp isIn with isKept | isEntry
        · have stayed := (List.mem_filter.mp isKept).2
          simp [isTerminal] at stayed
        · cases isEntry
      · exact stays
    · exact stays

theorem TabState.Tidy.mapTab (tidy : state.Tidy) {isDone : AppTab → Bool} {change : AppTab → AppTab}
    (sameId : ∀ tab, (change tab).id = tab.id) (sameType : ∀ tab, (change tab).type = tab.type) :
    (state.mapTab tabId isDone change).Tidy := by
  unfold TabState.mapTab
  split
  · exact tidy
  · rename_i worktreePath session tab isOwner
    split_ifs
    · exact tidy
    · unfold TabState.findTabOwner at isOwner
      obtain ⟨entry, isIn, isFound⟩ := List.exists_of_findSome?_eq_some isOwner
      obtain ⟨found, _, isPair⟩ := Option.map_eq_some_iff.mp isFound
      cases isPair
      refine tidy.write ((tidy entry isIn).map (fun tab => ?_) fun tab => ?_)
      · split_ifs
        · exact sameId tab
        · rfl
      · split_ifs
        · exact sameType tab
        · rfl

theorem TabState.Tidy.removeSession (tidy : state.Tidy) (worktreePath : String) :
    (state.removeSession worktreePath).Tidy :=
  fun entry isLeft => tidy entry (List.mem_filter.mp isLeft).1

end

/-- What a persisted session shows is a tab of its own, or the terminal. -/
structure Rehydratable (session : PersistedSession) : Prop where
  distinct : (session.tabs.map PersistedTab.id).Nodup
  shown : session.activeTabId = terminalContentTabId ∨
    ∀ tab ∈ session.tabs, tab.id = session.activeTabId → tab.type ≠ .terminal

def Persisted.Sound (raw : Persisted) : Prop :=
  ∀ entry ∈ raw, Rehydratable entry.2

variable {state : TabState}

theorem TabState.Tidy.snapshot (tidy : state.Tidy) :
    (persistedSessionsSnapshot state.sessions).Sound := by
  intro entry isEntry
  obtain ⟨old, isOld, isSome⟩ := List.mem_filterMap.mp isEntry
  dsimp only at isSome
  split_ifs at isSome
  cases isSome
  have consistent := tidy old isOld
  constructor
  case distinct =>
    show (((old.2.tabs.filter AppTab.closable).map _).map PersistedTab.id).Nodup
    rw [map_map]
    exact consistent.distinct.sublist (List.filter_sublist.map _)
  case shown =>
    refine consistent.shown.imp_right ?_
    rintro ⟨active, isIn, isActive, isOther⟩ tab isTab isId
    obtain ⟨found, isFound, rfl⟩ := mem_map.mp isTab
    have same : found = active := List.inj_on_of_nodup_map consistent.distinct
      (List.mem_filter.mp isFound).1 isIn (Eq.trans isId isActive.symm)
    exact same ▸ isOther

theorem Rehydratable.consistent {session : PersistedSession} (sound : Rehydratable session) :
    Consistent (createSessionWithClosableTabs
      (session.tabs.map fun tab => ⟨tab.id, tab.type, tab.title, true, none⟩)
        session.activeTabId) where
  distinct := by
    unfold createSessionWithClosableTabs
    rw [map_map]
    exact sound.distinct
  shown := by
    unfold createSessionWithClosableTabs
    dsimp only
    split_ifs with isSome
    · refine sound.shown.imp_right fun isOther => ?_
      obtain ⟨tab, isTab, isId⟩ := any_eq_true.mp isSome
      have isActive : tab.id = session.activeTabId := of_decide_eq_true isId
      refine ⟨tab, isTab, isActive, ?_⟩
      obtain ⟨found, isFound, rfl⟩ := mem_map.mp isTab
      exact isOther found isFound isActive
    · exact .inl rfl

theorem rehydrateSessions_tidy (sound : raw.Sound) :
    ∀ entry ∈ rehydrateSessions raw, Consistent entry.2 := by
  unfold rehydrateSessions
  have start : ∀ entry ∈ ([] : Sessions), Consistent entry.2 :=
    nofun
  generalize ([] : Sessions) = sessions at start ⊢
  induction raw generalizing sessions with
  | nil => exact start
  | cons first later ih =>
    rw [List.foldl_cons]
    refine ih (fun entry isIn => sound entry (mem_cons_of_mem _ isIn)) _ ?_
    dsimp only
    split_ifs
    · exact start
    · intro entry isIn
      rcases mem_write isIn with rfl | isOld
      · exact (sound first mem_cons_self).consistent
      · exact start entry isOld

theorem TabState.Tidy.initUiSessionPersistence (tidy : state.Tidy)
    (sound : raw.Sound) : (state.initUiSessionPersistence raw).Tidy := by
  have start := rehydrateSessions_tidy sound
  unfold TabState.initUiSessionPersistence
  unfold TabState.Tidy at tidy ⊢
  dsimp only
  generalize rehydrateSessions raw = sessions at start
  generalize state.sessions = newer at tidy ⊢
  induction newer generalizing sessions with
  | nil => exact start
  | cons first later ih =>
    rw [List.foldl_cons]
    refine ih _ ?_ fun entry isIn => tidy entry (mem_cons_of_mem _ isIn)
    intro entry isIn
    rcases mem_write isIn with rfl | isOld
    · exact tidy first mem_cons_self
    · exact start entry isOld

structure Sound (sys : System) : Prop where
  tidy : sys.state.Tidy
  saved : ∀ raw ∈ sys.saved, raw.Sound

theorem initial_sound : Sound initial :=
  ⟨nofun, nofun⟩

theorem Sound.set {sys : System} (sound : Sound sys)
    (tidy : state.Tidy) : Sound (sys.set state) := by
  refine ⟨tidy, fun raw isIn => ?_⟩
  rcases List.mem_append.mp isIn with isOld | isNew
  · exact sound.saved raw isOld
  · rw [mem_singleton.mp isNew]
    exact tidy.snapshot

theorem step_sound {sys next : System} (sound : Sound sys) {label : Label}
    (clean : Clean sys label) (ran : step sys label = some next) : Sound next := by
  have tidy := sound.tidy
  cases label with
  | setActiveWorktree worktreePath =>
    cases ran
    exact sound.set (tidy.setActiveWorktree worktreePath)
  | addTab type title worktreePath activate randomUUID =>
    cases ran
    obtain ⟨isOther, noTerminal, isNew⟩ := clean
    exact sound.set (tidy.addTab isOther noTerminal isNew)
  | closeTab tabId =>
    cases ran
    exact sound.set (tidy.closeTab tabId)
  | setActiveTab tabId =>
    cases ran
    exact sound.set (tidy.setActiveTab clean)
  | moveTab tabId targetIndex =>
    cases ran
    exact sound.set (tidy.moveTab tabId targetIndex)
  | syncTerminalTabs worktreePath terminalTabIds =>
    cases ran
    exact sound.set (tidy.syncTerminalTabs clean.1 clean.2)
  | updateTabTitle tabId title | updateTabFavicon tabId faviconUrl =>
    cases ran
    exact sound.set (tidy.mapTab (fun _ => rfl) fun _ => rfl)
  | removeSession worktreePath =>
    cases ran
    exact sound.set (tidy.removeSession worktreePath)
  | relaunch =>
    cases ran
    exact ⟨initial_sound.tidy, sound.saved⟩
  | initUiSessionPersistence index =>
    obtain ⟨raw, isRaw, rfl⟩ := Option.map_eq_some_iff.mp ran
    exact sound.set (tidy.initUiSessionPersistence
      (sound.saved raw (List.mem_of_getElem? isRaw)))

theorem tabsConsistent {finish : System} (run : Run step Clean initial finish)
    (worktreePath : Option String) :
    Consistent (finish.state.getSessionForWorktree worktreePath) := by
  have sound : Sound finish := run.invariant initial_sound
    fun _ _ _ sound clean ran => step_sound sound clean ran
  exact sound.tidy.getSessionForWorktree worktreePath

/-- A file beside a terminal, which is closed; the next launch shows the file again. -/
def relaunched : List Label :=
  [.setActiveWorktree (some "/w"), .syncTerminalTabs "/w" (some ["t"]),
    .addTab .file "a.txt" none true "f", .moveTab "f" 0, .syncTerminalTabs "/w" none, .relaunch,
    .initUiSessionPersistence 3]

theorem tabsConsistent_relaunched :
    ∃ finish, Run step Clean initial finish ∧ finish.state.sessions =
      [("/w", ⟨[⟨"f", .file, "a.txt", true, none⟩, makeTerminalTabEntry "t"], "f"⟩)] ∧
        ∀ worktreePath, Consistent (finish.state.getSessionForWorktree worktreePath) := by
  obtain ⟨finish, replayed, sessions⟩ : ∃ finish, execute step initial relaunched = some finish ∧
      finish.state.sessions =
        [("/w", ⟨[⟨"f", .file, "a.txt", true, none⟩, makeTerminalTabEntry "t"], "f"⟩)] :=
    ⟨_, rfl, rfl⟩
  have permitted : Permitted step Clean initial relaunched := by
    refine ⟨trivial, _, rfl, ⟨by decide, by decide⟩, _, rfl, ⟨nofun, nofun, by decide⟩, _,
      rfl, trivial, _, rfl, ⟨by decide, by decide⟩, _, rfl, trivial, _, rfl, trivial, _, rfl,
      trivial⟩
  have run := run_of_permitted relaunched permitted replayed
  exact ⟨finish, run, sessions, tabsConsistent run⟩

/-- The id of a terminal entry is made the active one: there is nothing to show for it. -/
def terminalActivated : List Label :=
  [.setActiveWorktree (some "/w"), .syncTerminalTabs "/w" (some ["t"]), .setActiveTab "t"]

theorem not_tabsConsistent : ¬TabsConsistent fun _ _ => True := by
  intro consistent
  obtain ⟨finish, replayed, session⟩ : ∃ finish,
      execute step initial terminalActivated = some finish ∧
        finish.state.getSessionForWorktree (some "/w") = ⟨[makeTerminalTabEntry "t"], "t"⟩ :=
    ⟨_, rfl, rfl⟩
  have shown := (consistent finish (reachable_of_execute terminalActivated replayed)
    (some "/w")).shown
  rw [session] at shown
  rcases shown with isSentinel | ⟨tab, isIn, _, isOther⟩
  · exact absurd isSentinel (by decide)
  · rw [mem_singleton.mp isIn] at isOther
    exact isOther rfl

end AiTools.Grove.TabStore
