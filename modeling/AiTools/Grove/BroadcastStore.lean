import Mathlib
import AiTools.Lib.Transition

/-!
Contract: the mirrors and the pictures in picture of the terminals (`broadcast.ts`).

Owns:
- the sessions by PTY and by worktree, the index of the pictures, and the actions on them;
- `pipsMirrored`, over every run, with the runs in which the index mirrors the sessions.

Names that every object has (`constructor`) are no keys. Beside the code's state are recorded the
sessions that were started, those that a stop has returned, and those that a start has replaced.
-/

namespace AiTools.Grove.BroadcastStore

open Function (update update_self update_of_ne)
open AiTools.Lib.Transition

inductive BroadcastTarget where
  | mirror
  | pip
deriving DecidableEq

/-- `number` tells the sessions apart. -/
structure BroadcastSession where
  number : Nat
  ptyId : String
  paneId : String
  target : BroadcastTarget
  originalCols : Nat
  originalRows : Nat
  snapshot : Option String

/-- What a start is given beside its keys. -/
structure Given where
  paneId : String
  originalCols : Nat
  originalRows : Nat
  snapshot : Option String

structure Store where
  mirrors : String → Option BroadcastSession
  pips : String → Option BroadcastSession
  pipOwnerByPtyId : String → Option String

/-- A mirror is under its PTY, a picture under its worktree. -/
structure Slot where
  target : BroadcastTarget
  key : String
deriving DecidableEq

def Given.session (given : Given) (number : Nat) (target : BroadcastTarget) (ptyId : String) :
    BroadcastSession :=
  ⟨number, ptyId, given.paneId, target, given.originalCols, given.originalRows, given.snapshot⟩

namespace Store

def startMirror (store : Store) (number : Nat) (ptyId : String) (given : Given) : Store :=
  { store with
    mirrors := update store.mirrors ptyId (some (given.session number .mirror ptyId)) }

def stopMirror (store : Store) (ptyId : String) : Option BroadcastSession × Store :=
  match store.mirrors ptyId with
  | none => (none, store)
  | some session => (some session, { store with mirrors := update store.mirrors ptyId none })

def startPip (store : Store) (number : Nat) (worktreePath ptyId : String) (given : Given) : Store :=
  let nextPipOwnerByPtyId :=
    match store.pips worktreePath with
    | none => store.pipOwnerByPtyId
    | some previous =>
      if previous.ptyId ≠ ptyId then update store.pipOwnerByPtyId previous.ptyId none
      else store.pipOwnerByPtyId
  { store with
    pips := update store.pips worktreePath (some (given.session number .pip ptyId))
    pipOwnerByPtyId := update nextPipOwnerByPtyId ptyId (some worktreePath) }

def stopPip (store : Store) (worktreePath : String) : Option BroadcastSession × Store :=
  match store.pips worktreePath with
  | none => (none, store)
  | some session =>
    (some session, { store with
      pips := update store.pips worktreePath none
      pipOwnerByPtyId := update store.pipOwnerByPtyId session.ptyId none })

/-- An owner with an empty path is taken for none. -/
def owner? (store : Store) (ptyId : String) : Option String :=
  (store.pipOwnerByPtyId ptyId).filter (· ≠ "")

def stopPipByPty (store : Store) (ptyId : String) : Option (String × BroadcastSession) × Store :=
  match store.owner? ptyId with
  | none => (none, store)
  | some worktreePath =>
    match store.pips worktreePath with
    | none => (none, { store with pipOwnerByPtyId := update store.pipOwnerByPtyId ptyId none })
    | some session =>
      (some (worktreePath, session), { store with
        pips := update store.pips worktreePath none
        pipOwnerByPtyId := update store.pipOwnerByPtyId ptyId none })

def isBroadcasting (store : Store) (ptyId : String) : Bool :=
  (store.mirrors ptyId).isSome || (store.owner? ptyId).isSome

def at? (store : Store) (slot : Slot) : Option BroadcastSession :=
  match slot.target with
  | .mirror => store.mirrors slot.key
  | .pip => store.pips slot.key

end Store

structure System where
  store : Store
  started : List (Slot × BroadcastSession)
  returned : List (Slot × BroadcastSession)
  replaced : List (Slot × BroadcastSession)

def initial : System := ⟨⟨fun _ => none, fun _ => none, fun _ => none⟩, [], [], []⟩

/-- The session that stands under a key. -/
def under (store : Store) (slot : Slot) : List (Slot × BroadcastSession) :=
  (store.at? slot).toList.map (slot, ·)

/-- A start puts a session under the key. -/
def System.begin (sys : System) (slot : Slot) (store : Store) : System :=
  ⟨store, sys.started ++ under store slot, sys.returned, sys.replaced ++ under sys.store slot⟩

def System.finish (sys : System) (ended : Option (Slot × BroadcastSession)) (store : Store) :
    System :=
  { sys with store := store, returned := sys.returned ++ ended.toList }

inductive Label where
  | startMirror (ptyId : String) (given : Given)
  | stopMirror (ptyId : String)
  | startPip (worktreePath ptyId : String) (given : Given)
  | stopPip (worktreePath : String)
  | stopPipByPty (ptyId : String)

def step (sys : System) : Label → Option System
  | .startMirror ptyId given =>
    some (sys.begin ⟨.mirror, ptyId⟩ (sys.store.startMirror sys.started.length ptyId given))
  | .stopMirror ptyId =>
    let stopped := sys.store.stopMirror ptyId
    some (sys.finish (stopped.1.map (⟨.mirror, ptyId⟩, ·)) stopped.2)
  | .startPip worktreePath ptyId given =>
    some (sys.begin ⟨.pip, worktreePath⟩
      (sys.store.startPip sys.started.length worktreePath ptyId given))
  | .stopPip worktreePath =>
    let stopped := sys.store.stopPip worktreePath
    some (sys.finish (stopped.1.map (⟨.pip, worktreePath⟩, ·)) stopped.2)
  | .stopPipByPty ptyId =>
    let stopped := sys.store.stopPipByPty ptyId
    some (sys.finish (stopped.1.map fun ended => (⟨.pip, ended.1⟩, ended.2)) stopped.2)

/-! ## The property -/

/-- The worktree has a picture of the PTY. -/
def Shows (store : Store) (worktreePath ptyId : String) : Prop :=
  ∃ session, store.pips worktreePath = some session ∧ session.ptyId = ptyId

structure Mirrored (store : Store) : Prop where
  index : ∀ ptyId worktreePath,
    store.pipOwnerByPtyId ptyId = some worktreePath ↔ Shows store worktreePath ptyId
  single : ∀ ptyId first second, Shows store first ptyId → Shows store second ptyId →
    first = second
  broadcasting : ∀ ptyId, store.isBroadcasting ptyId = true ↔
    (∃ session, store.mirrors ptyId = some session) ∨
      ∃ worktreePath, Shows store worktreePath ptyId

/-- A session that was started stands under its key, or it has left the store once: it was
returned as it was started, or a later start under its key has replaced it. -/
structure Accounted (sys : System) : Prop where
  stands : ∀ slot session, sys.store.at? slot = some session →
    (slot, session) ∈ sys.started ∧ (slot, session) ∉ sys.returned ++ sys.replaced
  left : ∀ entry ∈ sys.started,
    sys.store.at? entry.1 = some entry.2 ∨ entry ∈ sys.returned ++ sys.replaced
  once : (sys.returned ++ sys.replaced).Nodup
  known : ∀ entry ∈ sys.returned ++ sys.replaced, entry ∈ sys.started
  later : ∀ entry ∈ sys.replaced, ∃ other ∈ sys.started,
    other.1 = entry.1 ∧ entry.2.number < other.2.number
  numbered : ∀ entry ∈ sys.started, entry.2.number < sys.started.length

/-- A picture is started for a PTY of which no other worktree has one, at a path that is not
empty. -/
def Clean (sys : System) : Label → Prop
  | .startPip worktreePath ptyId _ => worktreePath ≠ "" ∧
    ∀ owner, sys.store.pipOwnerByPtyId ptyId = some owner → owner = worktreePath
  | _ => True

/-! ## Sessions -/

variable {sys next : System} {store : Store} {slot : Slot} {ptyId worktreePath : String}
variable {session : BroadcastSession} {given : Given} {number : Nat} {label : Label}

theorem at?_mirrors (value : Option BroadcastSession) :
    ({ store with mirrors := update store.mirrors ptyId value } : Store).at? =
      update store.at? ⟨.mirror, ptyId⟩ value := by
  funext slot
  obtain ⟨target, key⟩ := slot
  cases target <;> simp [Store.at?, Function.update_apply]

theorem at?_pips (value : Option BroadcastSession) (owners : String → Option String) :
    ({ store with
      pips := update store.pips worktreePath value
      pipOwnerByPtyId := owners } : Store).at? =
      update store.at? ⟨.pip, worktreePath⟩ value := by
  funext slot
  obtain ⟨target, key⟩ := slot
  cases target <;> simp [Store.at?, Function.update_apply]

/-- The store without a picture and its owner. -/
def Store.without (store : Store) (worktreePath ptyId : String) : Store :=
  { store with
    pips := update store.pips worktreePath none
    pipOwnerByPtyId := update store.pipOwnerByPtyId ptyId none }

/-- A start: what stood under the key is replaced. -/
theorem Accounted.begin (accounted : Accounted sys) (slot : Slot) {new : BroadcastSession}
    (isNew : new.number = sys.started.length)
    (isPut : store.at? = update sys.store.at? slot (some new)) :
    Accounted (sys.begin slot store) := by
  have isUnder : under store slot = [(slot, new)] := by
    unfold under
    rw [isPut, update_self]
    rfl
  have isGone (entry : Slot × BroadcastSession) : entry ∈ sys.returned ++
      (sys.replaced ++ under sys.store slot) ↔ entry ∈ sys.returned ++ sys.replaced ∨
        entry.1 = slot ∧ sys.store.at? slot = some entry.2 := by
    rw [← List.append_assoc, List.mem_append]
    refine or_congr Iff.rfl ?_
    unfold under
    obtain ⟨other, session⟩ := entry
    cases sys.store.at? slot <;> simp [eq_comm, and_comm]
  have isFresh {entry : Slot × BroadcastSession} (isIn : entry ∈ sys.started) :
      entry.2.number < new.number := (accounted.numbered entry isIn).trans_eq isNew.symm
  unfold System.begin
  rw [isUnder]
  refine ⟨fun other session isAt => ?_, fun entry isIn => ?_, ?_, fun entry isIn => ?_,
    fun entry isIn => ?_, fun entry isIn => ?_⟩
  all_goals dsimp only at *
  · rw [isGone, List.mem_append, List.mem_singleton]
    rw [isPut] at isAt
    by_cases same : other = slot
    · subst same
      rw [update_self] at isAt
      cases isAt
      refine ⟨.inr rfl, fun isOld => ?_⟩
      have isStarted : (other, new) ∈ sys.started := isOld.elim (accounted.known _)
        fun isOld => (accounted.stands _ _ isOld.2).1
      exact Nat.lt_irrefl _ (isFresh isStarted)
    · rw [update_of_ne same] at isAt
      obtain ⟨isStarted, notGone⟩ := accounted.stands other session isAt
      exact ⟨.inl isStarted, fun isOld => isOld.elim notGone fun isSlot => same isSlot.1⟩
  · rw [isGone, isPut]
    obtain isOld | isLast := List.mem_append.mp isIn
    · by_cases same : entry.1 = slot
      · refine .inr ((accounted.left entry isOld).symm.imp_right fun isAt => ⟨same, ?_⟩)
        rw [← same, isAt]
      · rw [update_of_ne same]
        exact (accounted.left entry isOld).imp_right .inl
    · rw [List.mem_singleton.mp isLast]
      exact .inl (update_self ..)
  · rw [← List.append_assoc, List.nodup_append]
    refine ⟨accounted.once, ?_, fun entry isOld other isUnder same => ?_⟩
    · unfold under
      cases sys.store.at? slot <;> simp
    · subst same
      unfold under at isUnder
      obtain ⟨session, isAt, rfl⟩ := List.mem_map.mp isUnder
      exact (accounted.stands slot session (Option.mem_toList.mp isAt)).2 isOld
  · refine List.mem_append_left _ (((isGone entry).mp isIn).elim (accounted.known entry) ?_)
    rintro ⟨rfl, isAt⟩
    exact (accounted.stands _ _ isAt).1
  · have isOld : entry ∈ sys.started ∧ (entry ∈ sys.replaced ∨ entry.1 = slot) := by
      obtain isOld | isUnder := List.mem_append.mp isIn
      · exact ⟨accounted.known entry (List.mem_append_right _ isOld), .inl isOld⟩
      · unfold under at isUnder
        obtain ⟨session, isAt, rfl⟩ := List.mem_map.mp isUnder
        exact ⟨(accounted.stands slot session (Option.mem_toList.mp isAt)).1, .inr rfl⟩
    obtain ⟨isStarted, isOld | rfl⟩ := isOld
    · obtain ⟨other, isOther, isRest⟩ := accounted.later entry isOld
      exact ⟨other, List.mem_append_left _ isOther, isRest⟩
    · exact ⟨_, List.mem_append_right _ (List.mem_singleton_self _), rfl, isFresh isStarted⟩
  · rw [List.length_append, List.length_singleton]
    obtain isOld | isLast := List.mem_append.mp isIn
    · exact Nat.lt_succ_of_lt (accounted.numbered entry isOld)
    · rw [List.mem_singleton.mp isLast, isNew]
      exact Nat.lt_succ_self _

/-- A stop returns what stood under the key. -/
theorem Accounted.finish (accounted : Accounted sys) (isAt : sys.store.at? slot = some session)
    (isTaken : store.at? = update sys.store.at? slot none) :
    Accounted (sys.finish (some (slot, session)) store) := by
  obtain ⟨isStarted, notGone⟩ := accounted.stands slot session isAt
  have isGone (entry : Slot × BroadcastSession) : entry ∈ sys.returned ++ [(slot, session)] ++
      sys.replaced ↔ entry ∈ sys.returned ++ sys.replaced ∨ entry = (slot, session) := by
    simp only [List.mem_append, List.mem_singleton]
    tauto
  unfold System.finish
  refine ⟨fun other found isFound => ?_, fun entry isIn => ?_, ?_, fun entry isIn => ?_,
    accounted.later, accounted.numbered⟩
  all_goals dsimp only [Option.toList] at *
  · rw [isTaken] at isFound
    have isOther : other ≠ slot := fun same => by
      simp [same, update_self] at isFound
    rw [update_of_ne isOther] at isFound
    obtain ⟨isOld, notOld⟩ := accounted.stands other found isFound
    rw [isGone]
    exact ⟨isOld, fun isIn => isIn.elim notOld fun same => isOther (congrArg Prod.fst same)⟩
  · rw [isGone, isTaken]
    by_cases same : entry.1 = slot
    · refine .inr ((accounted.left entry isIn).symm.imp_right fun isFound => ?_)
      rw [same, isAt] at isFound
      exact Prod.ext same (Option.some.inj isFound).symm
    · rw [update_of_ne same]
      exact (accounted.left entry isIn).imp_right .inl
  · have isPerm : (sys.returned ++ [(slot, session)] ++ sys.replaced).Perm
        ((slot, session) :: (sys.returned ++ sys.replaced)) := by
      rw [List.append_assoc]
      exact List.perm_middle
    exact isPerm.nodup_iff.mpr (List.nodup_cons.mpr ⟨notGone, accounted.once⟩)
  · exact ((isGone entry).mp isIn).elim (accounted.known entry) fun same => same ▸ isStarted

/-! ## The index -/

/-- Each owner has a picture of its PTY. -/
def Owned (store : Store) : Prop :=
  ∀ ptyId worktreePath, store.pipOwnerByPtyId ptyId = some worktreePath →
    Shows store worktreePath ptyId

theorem owned_startPip (owned : Owned store) :
    Owned (store.startPip number worktreePath ptyId given) := by
  intro other path isOwner
  by_cases same : other = ptyId
  · subst same
    have isPath : (store.startPip number worktreePath other given).pipOwnerByPtyId other
        = some worktreePath := update_self ..
    cases isPath.symm.trans isOwner
    exact ⟨_, update_self .., rfl⟩
  have isKept := (update_of_ne same _ _).symm.trans isOwner
  have isOld : store.pipOwnerByPtyId other = some path ∧ path ≠ worktreePath := by
    cases isPrevious : store.pips worktreePath with
    | none =>
      rw [isPrevious] at isKept
      obtain ⟨session, isSession, _⟩ := owned other path isKept
      refine ⟨isKept, fun isPath => ?_⟩
      simp [isPath, isPrevious] at isSession
    | some previous =>
      rw [isPrevious] at isKept
      dsimp only at isKept
      have notPrevious : previous.ptyId ≠ ptyId → other ≠ previous.ptyId := by
        rintro isOther rfl
        simp [if_pos isOther, update_self] at isKept
      have isOwner : store.pipOwnerByPtyId other = some path := by
        split_ifs at isKept with isOther
        · rwa [update_of_ne (notPrevious isOther)] at isKept
        · exact isKept
      obtain ⟨session, isSession, isPty⟩ := owned other path isOwner
      refine ⟨isOwner, fun isPath => ?_⟩
      rw [isPath, isPrevious] at isSession
      cases isSession
      exact notPrevious (isPty ▸ same) isPty.symm
  obtain ⟨session, isSession, isPty⟩ := owned other path isOld.1
  exact ⟨session, (update_of_ne isOld.2 _ _).trans isSession, isPty⟩

theorem owned_without (owned : Owned store) (isAt : store.pips worktreePath = some session) :
    Owned (store.without worktreePath session.ptyId) := by
  intro other path isOwner
  have isOther : other ≠ session.ptyId := fun same => by
    rw [same] at isOwner
    cases (update_self ..).symm.trans isOwner
  obtain ⟨found, isFound, isPty⟩ := owned other path ((update_of_ne isOther _ _).symm.trans isOwner)
  have isPath : path ≠ worktreePath := fun same => by
    rw [same, isAt] at isFound
    cases isFound
    exact isOther isPty.symm
  exact ⟨found, (update_of_ne isPath _ _).trans isFound, isPty⟩

/-- What a stop by PTY does is what a stop of the owner does. -/
theorem stopPipByPty_eq (owned : Owned store) (ptyId : String) :
    store.stopPipByPty ptyId = (none, store) ∨ ∃ worktreePath session,
      store.pips worktreePath = some session ∧
        store.stopPipByPty ptyId =
          (some (worktreePath, session), store.without worktreePath session.ptyId) := by
  unfold Store.stopPipByPty
  cases isOwner : store.owner? ptyId with
  | none => exact .inl rfl
  | some worktreePath =>
    obtain ⟨session, isAt, rfl⟩ := owned ptyId worktreePath (Option.filter_eq_some_iff.mp isOwner).1
    refine .inr ⟨worktreePath, session, isAt, ?_⟩
    dsimp only
    rw [isAt]
    rfl

/-- Each picture has its worktree as the owner of its PTY. -/
def Indexed (store : Store) : Prop :=
  ∀ ptyId worktreePath, Shows store worktreePath ptyId →
    store.pipOwnerByPtyId ptyId = some worktreePath ∧ worktreePath ≠ ""

theorem indexed_startPip (indexed : Indexed store) (notEmpty : worktreePath ≠ "")
    (isFree : ∀ owner, store.pipOwnerByPtyId ptyId = some owner → owner = worktreePath) :
    Indexed (store.startPip number worktreePath ptyId given) := by
  rintro _ path ⟨session, isAt, rfl⟩
  by_cases same : path = worktreePath
  · subst same
    have isNew : update store.pips path (some (given.session number .pip ptyId)) path =
      some session := isAt
    rw [update_self] at isNew
    cases isNew
    exact ⟨update_self .., notEmpty⟩
  obtain ⟨isOwner, isPath⟩ :=
    indexed session.ptyId path ⟨session, (update_of_ne same _ _).symm.trans isAt, rfl⟩
  have isOther : session.ptyId ≠ ptyId := fun isPty => same (isFree path (isPty ▸ isOwner))
  refine ⟨(update_of_ne isOther _ _).trans ?_, isPath⟩
  cases isPrevious : store.pips worktreePath with
  | none => exact isOwner
  | some previous =>
    dsimp only
    split_ifs
    · refine (update_of_ne (fun isPty => same ?_) _ _).trans isOwner
      have isIndexed := (indexed previous.ptyId worktreePath ⟨previous, isPrevious, rfl⟩).1
      rw [← isPty, isOwner] at isIndexed
      exact Option.some.inj isIndexed
    · exact isOwner

theorem indexed_without (indexed : Indexed store) (isAt : store.pips worktreePath = some session) :
    Indexed (store.without worktreePath session.ptyId) := by
  rintro _ path ⟨found, isFound, rfl⟩
  have isPath : path ≠ worktreePath := fun same => by
    rw [same] at isFound
    cases (update_self ..).symm.trans isFound
  obtain ⟨isOwner, notEmpty⟩ :=
    indexed found.ptyId path ⟨found, (update_of_ne isPath _ _).symm.trans isFound, rfl⟩
  refine ⟨(update_of_ne (fun isPty => isPath ?_) _ _).trans isOwner, notEmpty⟩
  have isIndexed := (indexed session.ptyId worktreePath ⟨session, isAt, rfl⟩).1
  rw [← isPty, isOwner] at isIndexed
  exact Option.some.inj isIndexed

theorem mirrored (owned : Owned store) (indexed : Indexed store) : Mirrored store where
  index ptyId worktreePath := ⟨owned ptyId worktreePath, fun shows =>
    (indexed ptyId worktreePath shows).1⟩
  single ptyId first second isFirst isSecond :=
    Option.some.inj ((indexed ptyId first isFirst).1.symm.trans (indexed ptyId second isSecond).1)
  broadcasting ptyId := by
    unfold Store.isBroadcasting
    rw [Bool.or_eq_true, Option.isSome_iff_exists, Option.isSome_iff_exists]
    refine or_congr Iff.rfl (exists_congr fun worktreePath => ⟨fun isOwner => ?_, fun shows => ?_⟩)
    · exact owned ptyId worktreePath (Option.filter_eq_some_iff.mp isOwner).1
    · obtain ⟨isOwner, notEmpty⟩ := indexed ptyId worktreePath shows
      exact Option.filter_eq_some_iff.mpr ⟨isOwner, decide_eq_true notEmpty⟩

/-! ## Runs -/

/-- The ways in which a step goes. -/
inductive Goes (sys : System) : Label → System → Prop where
  | mirrors {ptyId : String} {given : Given} : Goes sys (.startMirror ptyId given)
    (sys.begin ⟨.mirror, ptyId⟩ (sys.store.startMirror sys.started.length ptyId given))
  | shows {worktreePath ptyId : String} {given : Given} :
    Goes sys (.startPip worktreePath ptyId given)
    (sys.begin ⟨.pip, worktreePath⟩
      (sys.store.startPip sys.started.length worktreePath ptyId given))
  | rests {label : Label} : Goes sys label (sys.finish none sys.store)
  | mirrorEnds {label : Label} {ptyId : String} {session : BroadcastSession}
    (isAt : sys.store.mirrors ptyId = some session) :
    Goes sys label (sys.finish (some (⟨.mirror, ptyId⟩, session))
      { sys.store with mirrors := update sys.store.mirrors ptyId none })
  | pipEnds {label : Label} {worktreePath : String} {session : BroadcastSession}
    (isAt : sys.store.pips worktreePath = some session) :
    Goes sys label (sys.finish (some (⟨.pip, worktreePath⟩, session))
      (sys.store.without worktreePath session.ptyId))

theorem goes_of_step (owned : Owned sys.store) (ran : step sys label = some next) :
    Goes sys label next := by
  cases label with
  | startMirror ptyId given =>
    cases ran
    exact .mirrors
  | stopMirror ptyId =>
    cases ran
    unfold Store.stopMirror
    cases isAt : sys.store.mirrors ptyId with
    | none => exact .rests
    | some session => exact .mirrorEnds isAt
  | startPip worktreePath ptyId given =>
    cases ran
    exact .shows
  | stopPip worktreePath =>
    cases ran
    unfold Store.stopPip
    cases isAt : sys.store.pips worktreePath with
    | none => exact .rests
    | some session => exact .pipEnds isAt
  | stopPipByPty ptyId =>
    cases ran
    obtain isIdle | ⟨worktreePath, session, isAt, isEnd⟩ := stopPipByPty_eq owned ptyId
    · rw [isIdle]
      exact .rests
    · rw [isEnd]
      exact .pipEnds isAt

structure Sound (sys : System) : Prop where
  owned : Owned sys.store
  accounted : Accounted sys

theorem initial_sound : Sound initial :=
  ⟨nofun,
    fun ⟨target, _⟩ _ isAt => (by cases target <;> cases isAt),
    fun _ isIn => (by cases isIn), List.nodup_nil, fun _ isIn => (by cases isIn),
    fun _ isIn => (by cases isIn), fun _ isIn => (by cases isIn)⟩

theorem step_sound (sound : Sound sys) (ran : step sys label = some next) : Sound next := by
  cases goes_of_step sound.owned ran with
  | mirrors => exact ⟨sound.owned, sound.accounted.begin _ rfl (at?_mirrors _)⟩
  | shows => exact ⟨owned_startPip sound.owned, sound.accounted.begin _ rfl (at?_pips _ _)⟩
  | rests =>
    refine ⟨sound.owned, ?_⟩
    unfold System.finish
    rw [Option.toList_none, List.append_nil]
    exact sound.accounted
  | mirrorEnds isAt => exact ⟨sound.owned, sound.accounted.finish isAt (at?_mirrors _)⟩
  | pipEnds isAt =>
    exact ⟨owned_without sound.owned isAt, sound.accounted.finish isAt (at?_pips _ _)⟩

theorem step_indexed (sound : Sound sys) (indexed : Indexed sys.store) (clean : Clean sys label)
    (ran : step sys label = some next) : Indexed next.store := by
  cases goes_of_step sound.owned ran with
  | mirrors | rests | mirrorEnds => exact indexed
  | shows => exact indexed_startPip indexed clean.1 clean.2
  | pipEnds isAt => exact indexed_without indexed isAt

/-- Along every run each session leaves once; along the runs in which a PTY is started under one
worktree at a time, the index mirrors the sessions. -/
theorem pipsMirrored (sys : System) : (Reachable step initial sys → Accounted sys) ∧
    (Run step Clean initial sys → Mirrored sys.store) := by
  constructor
  · intro run
    have sound : Sound sys := run.invariant initial_sound
      fun _ _ _ sound _ ran => step_sound sound ran
    exact sound.accounted
  · intro run
    have both : Sound sys ∧ Indexed sys.store := by
      induction run with
      | refl => exact ⟨initial_sound, fun _ _ shows => by obtain ⟨_, isAt, _⟩ := shows; cases isAt⟩
      | tail label _ clean ran ih =>
        exact ⟨step_sound ih.1 ran, step_indexed ih.1 ih.2 clean ran⟩
    exact mirrored both.1.owned both.2

/-- One PTY under two worktrees. -/
theorem not_mirrored : ¬∀ sys, Reachable step initial sys → Mirrored sys.store := by
  intro areMirrored
  have run : Reachable step initial _ := reachable_of_execute
    [.startPip "/a" "pty" ⟨"pane", 80, 24, none⟩, .startPip "/b" "pty" ⟨"pane", 80, 24, none⟩]
    rfl
  have isOwner := ((areMirrored _ run).index "pty" "/a").mpr ⟨_, rfl, rfl⟩
  exact absurd isOwner (by decide)

end AiTools.Grove.BroadcastStore
