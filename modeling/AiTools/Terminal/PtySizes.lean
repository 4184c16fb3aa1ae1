import AiTools.Lib.Transition
import Mathlib

/-!
Contract: the size of a terminal's grid and the sizes of its PTYs, with the resizes between them.
-/

namespace AiTools.Terminal.PtySizes

open AiTools.Lib.Transition
open List (filter_append filter_cons_of_neg filter_cons_of_pos map_append mem_append
  mem_append_right mem_cons mem_cons_self mem_singleton pairwise_append)

variable {Pty : Type} [DecidableEq Pty]

structure ResizeTarget where
  cols : Nat
  rows : Nat

def shouldSendResize (target applied : ResizeTarget) : Option ResizeTarget → Bool
  | some inFlight => !(target.cols = inFlight.cols && target.rows = inFlight.rows)
  | none => !(target.cols = applied.cols && target.rows = applied.rows)

/-- A resize that has been sent. `accepted` is `none` until the backend takes it up. -/
structure Request (Pty : Type) where
  id : Nat
  ptyId : Pty
  target : ResizeTarget
  accepted : Option Bool

/-- The requests are those without a reply, in the order in which they were sent. `inFlightSize`
has the request of its object, by which a reply knows it again. -/
structure System (Pty : Type) where
  grid : ResizeTarget
  ptyId : Option Pty
  appliedSize : ResizeTarget
  inFlightSize : Option (Nat × ResizeTarget)
  resizeHoldDepth : Nat
  suppressSnapshotReplayPtyResize : Bool
  requests : List (Request Pty)
  backend : Pty → ResizeTarget
  nextId : Nat

def opened (grid : ResizeTarget) (backend : Pty → ResizeTarget) : System Pty :=
  ⟨grid, none, ⟨0, 0⟩, none, 0, false, [], backend, 0⟩

namespace System

variable (sys : System Pty)

def sendPtyResize (cols rows : Nat) : System Pty :=
  if sys.suppressSnapshotReplayPtyResize then sys
  else
    match sys.ptyId with
    | none => sys
    | some ptyId =>
      if cols = 0 ∨ rows = 0 then sys
      else
        { sys with
          inFlightSize := some (sys.nextId, ⟨cols, rows⟩)
          requests := sys.requests ++ [⟨sys.nextId, ptyId, ⟨cols, rows⟩, none⟩]
          nextId := sys.nextId + 1 }

def syncPtySize : System Pty :=
  if sys.resizeHoldDepth > 0 then sys
  else if sys.grid.cols = 0 ∨ sys.grid.rows = 0 ∨ sys.ptyId = none then sys
  else if shouldSendResize sys.grid sys.appliedSize (sys.inFlightSize.map Prod.snd) then
    sys.sendPtyResize sys.grid.cols sys.grid.rows
  else sys

def holdPtyResize : System Pty := { sys with resizeHoldDepth := sys.resizeHoldDepth + 1 }

/-- A fit that has been put off schedules a layout sync, which is steps of its own. -/
def releasePtyResize (pendingHeldFit : Bool) : System Pty :=
  if sys.resizeHoldDepth = 0 then sys
  else
    let released := { sys with resizeHoldDepth := sys.resizeHoldDepth - 1 }
    if released.resizeHoldDepth > 0 ∨ pendingHeldFit then released else released.syncPtySize

def forwardReconcileResize (cols rows : Nat) : System Pty :=
  if sys.resizeHoldDepth > 0 ∨ sys.ptyId = none then sys
  else sys.sendPtyResize cols rows

def setPtyId (ptyId : Pty) : System Pty :=
  if sys.ptyId = some ptyId then sys
  else { sys with ptyId := some ptyId, appliedSize := ⟨0, 0⟩, inFlightSize := none }

/-- `then` or `catch`, and `finally`. -/
def replied (request : Request Pty) (accepted : Bool) : System Pty :=
  { sys with
    appliedSize :=
      if accepted ∧ sys.ptyId = some request.ptyId then request.target else sys.appliedSize
    inFlightSize :=
      if sys.inFlightSize.map Prod.fst = some request.id then none else sys.inFlightSize }

end System

/-- The first request of a PTY that waits, and the requests when it does no more. -/
def settleFirst (ptyId : Pty) (accepted : Bool) :
    List (Request Pty) → Option (Request Pty × List (Request Pty))
  | [] => none
  | request :: later =>
    if request.ptyId = ptyId ∧ request.accepted = none then
      some (request, { request with accepted := some accepted } :: later)
    else (settleFirst ptyId accepted later).map fun settled =>
      (settled.1, request :: settled.2)

def System.process (sys : System Pty) (ptyId : Pty) (accepted : Bool)
    (settled : Request Pty × List (Request Pty)) : System Pty :=
  { sys with
    requests := settled.2
    backend := if accepted then Function.update sys.backend ptyId settled.1.target
      else sys.backend }

inductive Label (Pty : Type) where
  | fit (grid : ResizeTarget)
  | syncPtySize
  | holdPtyResize
  | releasePtyResize (pendingHeldFit : Bool)
  | forwardReconcileResize (cols rows : Nat)
  | setPtyId (ptyId : Pty)
  | suppress (suppressed : Bool)
  | process (ptyId : Pty) (accepted : Bool)
  | reply (index : Nat)

def step (sys : System Pty) : Label Pty → Option (System Pty)
  | .fit grid => some { sys with grid }
  | .syncPtySize => some sys.syncPtySize
  | .holdPtyResize => some sys.holdPtyResize
  | .releasePtyResize pendingHeldFit => some (sys.releasePtyResize pendingHeldFit)
  | .forwardReconcileResize cols rows => some (sys.forwardReconcileResize cols rows)
  | .setPtyId ptyId => some (sys.setPtyId ptyId)
  | .suppress suppressed => some { sys with suppressSnapshotReplayPtyResize := suppressed }
  | .process ptyId accepted =>
    (settleFirst ptyId accepted sys.requests).map (sys.process ptyId accepted)
  | .reply index =>
    sys.requests[index]?.bind fun request =>
      request.accepted.map fun accepted =>
        { sys with requests := sys.requests.eraseIdx index }.replied request accepted

/-- `syncPtySize` comes to its decision, and the decision is that nothing is to be sent. -/
def NothingToSend (sys : System Pty) : Prop :=
  sys.resizeHoldDepth = 0 ∧ sys.grid.cols ≠ 0 ∧ sys.grid.rows ≠ 0 ∧
    shouldSendResize sys.grid sys.appliedSize (sys.inFlightSize.map Prod.snd) = false

def outstanding (sys : System Pty) (ptyId : Pty) : List (Request Pty) :=
  sys.requests.filter (·.ptyId = ptyId)

/-- `idle` says of a system that no resize of the PTY is in flight. -/
def Converged (idle : System Pty → Pty → Prop) (sys : System Pty) : Prop :=
  ∀ ptyId, sys.ptyId = some ptyId → idle sys ptyId → NothingToSend sys →
    sys.backend ptyId = sys.grid

/-- No resize of the PTY is without a reply. -/
def Answered (sys : System Pty) (ptyId : Pty) : Prop := outstanding sys ptyId = []

/-- No resize is in flight as the runtime sees it. -/
def Untracked (sys : System Pty) (_ : Pty) : Prop := sys.inFlightSize = none

/-- The replies to the resizes of one PTY come in the order in which they were sent. -/
def InOrder (sys : System Pty) : Label Pty → Prop
  | .reply index => ∀ request, sys.requests[index]? = some request →
      ∀ earlier ∈ sys.requests.take index, earlier.ptyId ≠ request.ptyId
  | _ => True

/-- Besides, a PTY with resizes in flight is not swapped in. -/
def Clean (sys : System Pty) (label : Label Pty) : Prop :=
  InOrder sys label ∧ ∀ ptyId, label = .setPtyId ptyId → sys.ptyId ≠ some ptyId →
    outstanding sys ptyId = []

/-- What the backend has made of a size and of the requests behind it. -/
def lastApplied (start : Option ResizeTarget) (requests : List (Request Pty)) :
    Option ResizeTarget :=
  requests.foldl (fun last request =>
    if request.accepted = some true then some request.target else last) start

omit [DecidableEq Pty] in
theorem lastApplied_append (start : Option ResizeTarget) (first second : List (Request Pty)) :
    lastApplied start (first ++ second) = lastApplied (lastApplied start first) second :=
  List.foldl_append ..

omit [DecidableEq Pty] in
theorem lastApplied_waiting (start : Option ResizeTarget) {requests : List (Request Pty)}
    (waiting : ∀ request ∈ requests, request.accepted ≠ some true) :
    lastApplied start requests = start := by
  induction requests with
  | nil => rfl
  | cons request later ih =>
    show lastApplied (if request.accepted = some true then _ else _) later = start
    rw [if_neg (waiting request (mem_cons_self ..))]
    exact ih fun other isIn => waiting other (List.mem_cons_of_mem _ isIn)

omit [DecidableEq Pty] in
theorem lastApplied_of_none {requests : List (Request Pty)} {target : ResizeTarget} :
    ∀ start : Option ResizeTarget, lastApplied none requests = some target →
      lastApplied start requests = some target := by
  induction requests using List.reverseRecOn with
  | nil => exact nofun
  | append_singleton front last ih =>
    intro start isSome
    rw [lastApplied_append] at isSome ⊢
    change (if last.accepted = some true then some last.target else lastApplied none front) =
      some target at isSome
    show (if last.accepted = some true then some last.target else lastApplied start front) =
      some target
    split_ifs at isSome ⊢
    · exact isSome
    · exact ih start isSome

/-- The size that the runtime takes the PTY to have. -/
def knownSize (sys : System Pty) (ptyId : Pty) : Option ResizeTarget :=
  if sys.ptyId = some ptyId ∧ sys.appliedSize.cols ≠ 0 then some sys.appliedSize else none

structure Sound (sys : System Pty) : Prop where
  cols : ∀ request ∈ sys.requests, request.target.cols ≠ 0
  known : ∀ ptyId target,
    lastApplied (knownSize sys ptyId) (outstanding sys ptyId) = some target →
      sys.backend ptyId = target
  fifo : ∀ ptyId, (outstanding sys ptyId).Pairwise fun earlier later =>
    earlier.accepted = none → later.accepted = none
  ids : (sys.requests.map Request.id).Pairwise (· < ·)
  fresh : ∀ id ∈ sys.requests.map Request.id, id < sys.nextId
  tracked : ∀ flight, sys.inFlightSize = some flight →
    ∃ request ∈ sys.requests, request.id = flight.1 ∧ sys.ptyId = some request.ptyId

/-- What the runtime has in flight is the last request of its PTY. -/
structure Latest (sys : System Pty) : Prop where
  untracked : ∀ ptyId, sys.ptyId = some ptyId → sys.inFlightSize = none →
    outstanding sys ptyId = []
  last : ∀ ptyId flight, sys.ptyId = some ptyId → sys.inFlightSize = some flight →
    ∃ front, (outstanding sys ptyId).map Request.id = front ++ [flight.1]

structure Tracked (sys : System Pty) : Prop where
  sound : Sound sys
  latest : Latest sys

section
variable {sys : System Pty}

theorem Sound.eq_of_id (sound : Sound sys) {first second : Request Pty}
    (isFirst : first ∈ sys.requests) (isSecond : second ∈ sys.requests)
    (same : first.id = second.id) : first = second :=
  List.inj_on_of_nodup_map (sound.ids.imp Nat.ne_of_lt) isFirst isSecond same

theorem Sound.converged (sound : Sound sys) : Converged Answered sys := by
  intro ptyId isPty answered decided
  obtain ⟨_, hasCols, _, noSend⟩ := decided
  have notInFlight : sys.inFlightSize = none := by
    cases isFlight : sys.inFlightSize with
    | none => rfl
    | some flight =>
      obtain ⟨request, isIn, _, isCurrent⟩ := sound.tracked flight isFlight
      have isOwn : request.ptyId = ptyId := Option.some.inj (isCurrent.symm.trans isPty)
      have isOutstanding : request ∈ outstanding sys ptyId :=
        List.mem_filter.mpr ⟨isIn, decide_eq_true isOwn⟩
      rw [answered] at isOutstanding
      cases isOutstanding
  rw [notInFlight] at noSend
  have same : sys.grid = sys.appliedSize := by
    change (!(decide _ && decide _)) = false at noSend
    rw [Bool.not_eq_false', Bool.and_eq_true, decide_eq_true_eq, decide_eq_true_eq] at noSend
    cases isGrid : sys.grid
    cases isApplied : sys.appliedSize
    rw [isGrid, isApplied] at noSend
    obtain ⟨sameCols, sameRows⟩ := noSend
    cases sameCols
    cases sameRows
    rfl
  have isKnown : knownSize sys ptyId = some sys.appliedSize :=
    if_pos ⟨isPty, same ▸ hasCols⟩
  rw [same]
  apply sound.known
  rw [answered, isKnown]
  rfl

theorem Latest.answered (latest : Latest sys) (converged : Converged Answered sys) :
    Converged Untracked sys :=
  fun ptyId isPty untracked => converged ptyId isPty (latest.untracked ptyId isPty untracked)

theorem outstanding_sent (ptyId other : Pty) (target : ResizeTarget) :
    (sys.requests ++ [(⟨sys.nextId, ptyId, target, none⟩ : Request Pty)]).filter
        (·.ptyId = other) =
      outstanding sys other ++
        if ptyId = other then [⟨sys.nextId, ptyId, target, none⟩] else [] := by
  rw [filter_append]
  refine congrArg (outstanding sys other ++ ·) ?_
  by_cases isOther : ptyId = other
  · rw [if_pos isOther, filter_cons_of_pos (by simpa using isOther)]
    rfl
  · rw [if_neg isOther, filter_cons_of_neg (by simpa using isOther)]
    rfl

theorem Sound.sendPtyResize (sound : Sound sys) (cols rows : Nat) :
    Sound (sys.sendPtyResize cols rows) := by
  unfold System.sendPtyResize
  by_cases isSuppressed : sys.suppressSnapshotReplayPtyResize = true
  · rw [if_pos isSuppressed]
    exact sound
  rw [if_neg isSuppressed]
  split
  · exact sound
  rename_i ptyId isPty
  by_cases isZero : cols = 0 ∨ rows = 0
  · rw [if_pos isZero]
    exact sound
  rw [if_neg isZero]
  rw [not_or] at isZero
  constructor
  · intro request isIn
    rcases mem_append.mp isIn with isOld | isNew
    · exact sound.cols request isOld
    · rw [mem_singleton.mp isNew]
      exact isZero.1
  · intro other target isLast
    change lastApplied (knownSize sys other)
      ((sys.requests ++ [(_ : Request Pty)]).filter (·.ptyId = other)) = some target at isLast
    rw [outstanding_sent, lastApplied_append, lastApplied_waiting] at isLast
    · exact sound.known other target isLast
    · intro request isIn
      split_ifs at isIn
      · rw [mem_singleton.mp isIn]
        exact nofun
      · cases isIn
  · intro other
    show ((sys.requests ++ [(_ : Request Pty)]).filter (·.ptyId = other)).Pairwise _
    rw [outstanding_sent]
    refine pairwise_append.mpr ⟨sound.fifo other, ?_, ?_⟩
    · split_ifs
      · exact List.pairwise_singleton ..
      · exact .nil
    · intro _ _ later isIn _
      split_ifs at isIn
      · rw [mem_singleton.mp isIn]
      · cases isIn
  · rw [map_append]
    refine pairwise_append.mpr ⟨sound.ids, List.pairwise_singleton .., ?_⟩
    intro id isOld newId isNew
    rw [mem_singleton.mp isNew]
    exact sound.fresh id isOld
  · intro id isIn
    rw [map_append] at isIn
    rcases mem_append.mp isIn with isOld | isNew
    · exact Nat.lt_succ_of_lt (sound.fresh id isOld)
    · rw [mem_singleton.mp isNew]
      exact Nat.lt_succ_self _
  · intro flight isFlight
    cases isFlight
    exact ⟨_, mem_append_right _ (List.mem_singleton_self _), rfl, isPty⟩

theorem Latest.sendPtyResize (latest : Latest sys) (cols rows : Nat) :
    Latest (sys.sendPtyResize cols rows) := by
  unfold System.sendPtyResize
  by_cases isSuppressed : sys.suppressSnapshotReplayPtyResize = true
  · rw [if_pos isSuppressed]
    exact latest
  rw [if_neg isSuppressed]
  split
  · exact latest
  rename_i ptyId isPty
  by_cases isZero : cols = 0 ∨ rows = 0
  · rw [if_pos isZero]
    exact latest
  rw [if_neg isZero]
  constructor
  · exact nofun
  · intro other flight isOther isFlight
    cases isFlight
    have isOwn : ptyId = other := Option.some.inj (isPty.symm.trans isOther)
    refine ⟨(outstanding sys other).map Request.id, ?_⟩
    refine (congrArg (List.map Request.id) (outstanding_sent ptyId other ⟨cols, rows⟩)).trans ?_
    rw [if_pos isOwn, map_append]
    rfl

theorem Sound.setPtyId (sound : Sound sys) (ptyId : Pty) : Sound (sys.setPtyId ptyId) := by
  unfold System.setPtyId
  split_ifs
  · exact sound
  refine ⟨sound.cols, fun other target isLast => sound.known other target ?_, sound.fifo,
    sound.ids, sound.fresh, nofun⟩
  have isUnknown : knownSize { sys with
      ptyId := some ptyId, appliedSize := ⟨0, 0⟩, inFlightSize := none } other = none :=
    if_neg fun isKnown => isKnown.2 rfl
  rw [isUnknown] at isLast
  exact lastApplied_of_none _ isLast

theorem Latest.setPtyId (latest : Latest sys) {ptyId : Pty}
    (answered : sys.ptyId ≠ some ptyId → outstanding sys ptyId = []) :
    Latest (sys.setPtyId ptyId) := by
  unfold System.setPtyId
  split_ifs with isSame
  · exact latest
  · refine ⟨fun other isOther _ => ?_, nofun⟩
    cases isOther
    exact answered isSame

/-! ## A reply -/

omit [DecidableEq Pty] in
theorem requests_split {index : Nat} {request : Request Pty}
    (isRequest : sys.requests[index]? = some request) :
    sys.requests = sys.requests.take index ++ request :: sys.requests.drop (index + 1) ∧
      sys.requests.eraseIdx index =
        sys.requests.take index ++ sys.requests.drop (index + 1) := by
  obtain ⟨isBound, isAt⟩ := List.getElem?_eq_some_iff.mp isRequest
  refine ⟨?_, List.eraseIdx_eq_take_drop_succ _ _⟩
  rw [← isAt, List.getElem_cons_drop]
  exact (List.take_append_drop index sys.requests).symm

theorem outstanding_replied {index : Nat} {request : Request Pty}
    (isRequest : sys.requests[index]? = some request)
    (inOrder : ∀ earlier ∈ sys.requests.take index, earlier.ptyId ≠ request.ptyId)
    (other : Pty) :
    outstanding sys other = (if request.ptyId = other then [request] else []) ++
        (sys.requests.eraseIdx index).filter (·.ptyId = other) := by
  obtain ⟨isSplit, isErased⟩ := requests_split isRequest
  unfold outstanding
  rw [isErased]
  conv_lhs => rw [isSplit]
  rw [filter_append, filter_append]
  by_cases isOwn : request.ptyId = other
  · have noEarlier : (sys.requests.take index).filter (·.ptyId = other) = [] :=
      List.filter_eq_nil_iff.mpr fun earlier isIn => by
        simpa using isOwn ▸ inOrder earlier isIn
    rw [noEarlier, if_pos isOwn, filter_cons_of_pos (by simpa using isOwn)]
    rfl
  · rw [if_neg isOwn, filter_cons_of_neg (by simpa using isOwn)]
    rfl

section
variable {index : Nat} {request : Request Pty} {accepted : Bool}

theorem Sound.replied (sound : Sound sys)
    (isRequest : sys.requests[index]? = some request)
    (isAccepted : request.accepted = some accepted)
    (inOrder : ∀ earlier ∈ sys.requests.take index, earlier.ptyId ≠ request.ptyId) :
    Sound ({ sys with requests := sys.requests.eraseIdx index }.replied request
      accepted) := by
  have isPart : (sys.requests.eraseIdx index).Sublist sys.requests :=
    List.eraseIdx_sublist ..
  have isIn : request ∈ sys.requests := List.mem_of_getElem? isRequest
  constructor
  · exact fun other isOther => sound.cols other (isPart.subset isOther)
  · intro ptyId target isLast
    change lastApplied (knownSize _ ptyId)
      ((sys.requests.eraseIdx index).filter (·.ptyId = ptyId)) = some target at isLast
    apply sound.known ptyId target
    rw [outstanding_replied isRequest inOrder, lastApplied_append]
    by_cases isOwn : request.ptyId = ptyId
    · rw [if_pos isOwn]
      show lastApplied (if request.accepted = some true then some request.target
        else knownSize sys ptyId) _ = some target
      rw [isAccepted]
      cases accepted with
      | false => exact isLast
      | true =>
        rw [if_pos rfl]
        by_cases isCurrent : sys.ptyId = some ptyId
        · have isKnown : knownSize ({ sys with
              requests := sys.requests.eraseIdx index }.replied request true) ptyId =
                some request.target := by
            have isApplied : ({ sys with
                requests := sys.requests.eraseIdx index }.replied request true).appliedSize =
                  request.target := if_pos ⟨rfl, isOwn ▸ isCurrent⟩
            unfold knownSize
            rw [isApplied]
            exact if_pos ⟨isCurrent, sound.cols request isIn⟩
          rwa [isKnown] at isLast
        · have isUnknown : knownSize ({ sys with
              requests := sys.requests.eraseIdx index }.replied request true) ptyId = none :=
            if_neg fun isKnown => isCurrent isKnown.1
          rw [isUnknown] at isLast
          exact lastApplied_of_none _ isLast
    · rw [if_neg isOwn]
      show lastApplied (knownSize sys ptyId) _ = some target
      by_cases isCurrent : sys.ptyId = some ptyId
      · have isSame : ({ sys with
            requests := sys.requests.eraseIdx index }.replied request accepted).appliedSize =
              sys.appliedSize := by
          refine if_neg fun isOther => isOwn ?_
          exact Option.some.inj (isOther.2.symm.trans isCurrent)
        unfold knownSize at isLast ⊢
        rwa [isSame] at isLast
      · have isUnknown : knownSize ({ sys with
            requests := sys.requests.eraseIdx index }.replied request accepted) ptyId = none :=
          if_neg fun isKnown => isCurrent isKnown.1
        rw [isUnknown] at isLast
        exact lastApplied_of_none _ isLast
  · exact fun ptyId => (sound.fifo ptyId).sublist (isPart.filter _)
  · exact sound.ids.sublist (isPart.map _)
  · exact fun id isOld => sound.fresh id ((isPart.map _).subset isOld)
  · intro flight isFlight
    change (if sys.inFlightSize.map Prod.fst = some request.id then none
      else sys.inFlightSize) = some flight at isFlight
    split_ifs at isFlight with isOther
    obtain ⟨own, isOwn, sameId, isCurrent⟩ := sound.tracked flight isFlight
    obtain ⟨isSplit, isErased⟩ := requests_split isRequest
    refine ⟨own, ?_, sameId, isCurrent⟩
    show own ∈ sys.requests.eraseIdx index
    rw [isSplit] at isOwn
    rw [isErased]
    rcases mem_append.mp isOwn with isFront | isBack
    · exact List.mem_append_left _ isFront
    · rcases mem_cons.mp isBack with rfl | isLater
      · rw [isFlight] at isOther
        exact absurd (congrArg some sameId.symm) isOther
      · exact mem_append_right _ isLater

theorem Latest.replied (latest : Latest sys) (sound : Sound sys)
    (isRequest : sys.requests[index]? = some request)
    (inOrder : ∀ earlier ∈ sys.requests.take index, earlier.ptyId ≠ request.ptyId) :
    Latest ({ sys with requests := sys.requests.eraseIdx index }.replied request
      accepted) := by
  have isIn : request ∈ sys.requests := List.mem_of_getElem? isRequest
  have split := outstanding_replied isRequest inOrder
  constructor
  · intro ptyId isPty isNone
    change (if sys.inFlightSize.map Prod.fst = some request.id then none
      else sys.inFlightSize) = none at isNone
    have isPart := split ptyId
    split_ifs at isNone with isFlight
    · obtain ⟨flight, isSome, isId⟩ := Option.map_eq_some_iff.mp isFlight
      obtain ⟨front, isLast⟩ := latest.last ptyId flight isPty isSome
      rw [isId] at isLast
      have idIn : request.id ∈ (outstanding sys ptyId).map Request.id :=
        isLast ▸ mem_append_right _ (List.mem_singleton_self _)
      obtain ⟨other, isOther, sameId⟩ := List.mem_map.mp idIn
      have isSame := sound.eq_of_id (List.mem_of_mem_filter isOther) isIn sameId
      subst isSame
      have nodup : ((outstanding sys ptyId).map Request.id).Nodup :=
        (sound.ids.imp Nat.ne_of_lt).sublist (List.filter_sublist.map _)
      rw [if_pos (of_decide_eq_true (List.mem_filter.mp isOther).2)] at isPart
      rw [isPart, map_append, List.map_singleton, List.singleton_append] at isLast nodup
      cases front with
      | nil => exact List.map_eq_nil_iff.mp (List.cons.inj isLast).2
      | cons first rest =>
        obtain ⟨_, isRest⟩ := List.cons.inj isLast
        rw [isRest] at nodup
        exact absurd (mem_append_right _ (List.mem_singleton_self _))
          (List.nodup_cons.mp nodup).1
    · have noRequest := latest.untracked ptyId isPty isNone
      rw [noRequest] at isPart
      exact (List.append_eq_nil_iff.mp isPart.symm).2
  · intro ptyId flight isPty isSome
    change (if sys.inFlightSize.map Prod.fst = some request.id then none
      else sys.inFlightSize) = some flight at isSome
    split_ifs at isSome with isOther
    obtain ⟨front, isLast⟩ := latest.last ptyId flight isPty isSome
    rw [split ptyId, map_append] at isLast
    by_cases isOwn : request.ptyId = ptyId
    · rw [if_pos isOwn] at isLast
      cases front with
      | nil =>
        rw [isSome] at isOther
        exact absurd (congrArg some (List.cons.inj isLast).1.symm) isOther
      | cons first rest => exact ⟨rest, (List.cons.inj isLast).2⟩
    · rw [if_neg isOwn] at isLast
      exact ⟨front, isLast⟩

end

theorem settleFirst_split {ptyId : Pty} {accepted : Bool} :
    ∀ {requests : List (Request Pty)} {settled : Request Pty × List (Request Pty)},
      settleFirst ptyId accepted requests = some settled →
        ∃ front back, requests = front ++ settled.1 :: back ∧
          settled.2 = front ++ { settled.1 with accepted := some accepted } :: back ∧
            settled.1.ptyId = ptyId ∧ settled.1.accepted = none ∧
              ∀ earlier ∈ front, earlier.ptyId = ptyId → earlier.accepted ≠ none
  | [], _, isSettled => by cases isSettled
  | request :: later, settled, isSettled => by
    rw [settleFirst] at isSettled
    split_ifs at isSettled with isFirst
    · cases isSettled
      exact ⟨[], later, rfl, rfl, isFirst.1, isFirst.2, nofun⟩
    · obtain ⟨inner, isInner, rfl⟩ := Option.map_eq_some_iff.mp isSettled
      obtain ⟨front, back, rfl, isNext, isOwn, isWaiting, noEarlier⟩ :=
        settleFirst_split isInner
      refine ⟨request :: front, back, rfl, ?_, isOwn, isWaiting, fun earlier isIn isPty => ?_⟩
      · show request :: inner.2 = _
        rw [isNext]
        rfl
      · rcases mem_cons.mp isIn with rfl | isLater
        · exact fun isNone => isFirst ⟨isPty, isNone⟩
        · exact noEarlier earlier isLater isPty

section
variable {ptyId : Pty} {accepted : Bool} {settled : Request Pty × List (Request Pty)}

theorem settled_ids (isSettled : settleFirst ptyId accepted sys.requests = some settled)
    (other : Pty) :
    (outstanding (sys.process ptyId accepted settled) other).map Request.id =
      (outstanding sys other).map Request.id := by
  obtain ⟨front, back, isBefore, isAfter, _⟩ := settleFirst_split isSettled
  unfold outstanding
  show (settled.2.filter _).map _ = _
  rw [isBefore, isAfter, filter_append, filter_append, map_append, map_append]
  by_cases isOther : settled.1.ptyId = other
  · rw [filter_cons_of_pos (by simpa using isOther),
      filter_cons_of_pos (by simpa using isOther)]
    rfl
  · rw [filter_cons_of_neg (by simpa using isOther),
      filter_cons_of_neg (by simpa using isOther)]

theorem Sound.process (sound : Sound sys)
    (isSettled : settleFirst ptyId accepted sys.requests = some settled) :
    Sound (sys.process ptyId accepted settled) := by
  obtain ⟨front, back, isBefore, isAfter, isOwn, isWaiting, noEarlier⟩ :=
    settleFirst_split isSettled
  have sameIds : settled.2.map Request.id = sys.requests.map Request.id := by
    rw [isBefore, isAfter, map_append, map_append]
    rfl
  have isOld : outstanding sys ptyId = front.filter (·.ptyId = ptyId) ++ settled.1 ::
      back.filter (·.ptyId = ptyId) := by
    unfold outstanding
    rw [isBefore, filter_append, filter_cons_of_pos (by simpa using isOwn)]
  have isNew : outstanding (sys.process ptyId accepted settled) ptyId =
      front.filter (·.ptyId = ptyId) ++ { settled.1 with accepted := some accepted } ::
        back.filter (·.ptyId = ptyId) := by
    unfold outstanding
    show settled.2.filter _ = _
    rw [isAfter, filter_append, filter_cons_of_pos (by simpa using isOwn)]
  have others : ∀ other, other ≠ ptyId →
      outstanding (sys.process ptyId accepted settled) other = outstanding sys other := by
    intro other isOther
    have notOwn : settled.1.ptyId ≠ other := fun isSame => isOther (isSame.symm.trans isOwn)
    unfold outstanding
    show settled.2.filter _ = _
    rw [isBefore, isAfter, filter_append, filter_append,
      filter_cons_of_neg (by simpa using notOwn),
      filter_cons_of_neg (by simpa using notOwn)]
  have fifo := sound.fifo ptyId
  rw [isOld] at fifo
  obtain ⟨frontFifo, restFifo, _⟩ := pairwise_append.mp fifo
  obtain ⟨allWait, backFifo⟩ := List.pairwise_cons.mp restFifo
  have backWaits : ∀ later ∈ back.filter (·.ptyId = ptyId), later.accepted ≠ some true := by
    intro later isIn
    rw [allWait later isIn isWaiting]
    exact nofun
  constructor
  · intro request isIn
    change request ∈ settled.2 at isIn
    rw [isAfter] at isIn
    rcases mem_append.mp isIn with isFront | isRest
    · exact sound.cols request (isBefore ▸ List.mem_append_left _ isFront)
    · rcases mem_cons.mp isRest with rfl | isBack
      · exact sound.cols settled.1 (isBefore ▸ mem_append_right _ (mem_cons_self ..))
      · exact sound.cols request
          (isBefore ▸ mem_append_right _ (List.mem_cons_of_mem _ isBack))
  · intro other target isLast
    change lastApplied (knownSize sys other) _ = some target at isLast
    show (if accepted then Function.update sys.backend ptyId settled.1.target
      else sys.backend) other = target
    by_cases isOther : other = ptyId
    · subst isOther
      rw [isNew, lastApplied_append] at isLast
      change lastApplied (if some accepted = some true then some settled.1.target
        else lastApplied (knownSize sys other) _) _ = some target at isLast
      rw [lastApplied_waiting _ backWaits] at isLast
      cases accepted with
      | true =>
        rw [if_pos rfl, Function.update_self]
        exact Option.some.inj isLast
      | false =>
        rw [if_neg Bool.false_ne_true]
        apply sound.known other target
        rw [isOld, lastApplied_append]
        show lastApplied (if settled.1.accepted = some true then some settled.1.target
          else lastApplied (knownSize sys other) _) _ = some target
        rw [isWaiting, lastApplied_waiting _ backWaits]
        exact isLast
    · rw [others other isOther] at isLast
      have isSame := sound.known other target isLast
      split_ifs
      · rw [Function.update_of_ne isOther]
        exact isSame
      · exact isSame
  · intro other
    by_cases isOther : other = ptyId
    · subst isOther
      rw [isNew]
      refine pairwise_append.mpr ⟨frontFifo, List.pairwise_cons.mpr ⟨fun _ _ isNone => ?_,
        backFifo⟩, fun earlier isIn _ _ isNone => ?_⟩
      · cases isNone
      · obtain ⟨isFront, isPty⟩ := List.mem_filter.mp isIn
        exact absurd isNone (noEarlier earlier isFront (of_decide_eq_true isPty))
    · rw [others other isOther]
      exact sound.fifo other
  · show (settled.2.map Request.id).Pairwise _
    rw [sameIds]
    exact sound.ids
  · show ∀ id ∈ settled.2.map Request.id, id < sys.nextId
    rw [sameIds]
    exact sound.fresh
  · intro flight isFlight
    obtain ⟨request, isIn, isId, isCurrent⟩ := sound.tracked flight isFlight
    rw [isBefore] at isIn
    show ∃ request ∈ settled.2, _
    rw [isAfter]
    rcases mem_append.mp isIn with isFront | isRest
    · exact ⟨request, List.mem_append_left _ isFront, isId, isCurrent⟩
    · rcases mem_cons.mp isRest with rfl | isBack
      · exact ⟨_, mem_append_right _ (mem_cons_self ..), isId, isCurrent⟩
      · exact ⟨request, mem_append_right _ (List.mem_cons_of_mem _ isBack), isId, isCurrent⟩

theorem Latest.process (latest : Latest sys)
    (isSettled : settleFirst ptyId accepted sys.requests = some settled) :
    Latest (sys.process ptyId accepted settled) := by
  constructor
  · intro other isOther isNone
    have sameIds := settled_ids isSettled other
    rw [latest.untracked other isOther isNone] at sameIds
    exact List.map_eq_nil_iff.mp sameIds
  · intro other flight isOther isFlight
    rw [settled_ids isSettled]
    exact latest.last other flight isOther isFlight

end

theorem Sound.syncPtySize (sound : Sound sys) : Sound sys.syncPtySize := by
  unfold System.syncPtySize
  split_ifs
  · exact sound
  · exact sound
  · exact sound.sendPtyResize _ _
  · exact sound

theorem Latest.syncPtySize (latest : Latest sys) : Latest sys.syncPtySize := by
  unfold System.syncPtySize
  split_ifs
  · exact latest
  · exact latest
  · exact latest.sendPtyResize _ _
  · exact latest

theorem Sound.settings (sound : Sound sys) (grid : ResizeTarget) (resizeHoldDepth : Nat)
    (suppressSnapshotReplayPtyResize : Bool) :
    Sound { sys with grid, resizeHoldDepth, suppressSnapshotReplayPtyResize } :=
  ⟨sound.cols, sound.known, sound.fifo, sound.ids, sound.fresh, sound.tracked⟩

theorem Latest.settings (latest : Latest sys) (grid : ResizeTarget) (resizeHoldDepth : Nat)
    (suppressSnapshotReplayPtyResize : Bool) :
    Latest { sys with grid, resizeHoldDepth, suppressSnapshotReplayPtyResize } :=
  ⟨latest.untracked, latest.last⟩

theorem step_sound (sound : Sound sys) {label : Label Pty} (inOrder : InOrder sys label)
    {next : System Pty} (ran : step sys label = some next) : Sound next := by
  cases label with
  | fit grid =>
    cases ran
    exact sound.settings grid _ _
  | syncPtySize =>
    cases ran
    exact sound.syncPtySize
  | holdPtyResize =>
    cases ran
    exact sound.settings _ _ _
  | releasePtyResize pendingHeldFit =>
    cases ran
    unfold System.releasePtyResize
    dsimp only
    split_ifs
    · exact sound
    · exact sound.settings _ _ _
    · exact (sound.settings _ _ _).syncPtySize
  | forwardReconcileResize cols rows =>
    cases ran
    unfold System.forwardReconcileResize
    split_ifs
    · exact sound
    · exact sound.sendPtyResize cols rows
  | setPtyId ptyId =>
    cases ran
    exact sound.setPtyId ptyId
  | suppress suppressed =>
    cases ran
    exact sound.settings _ _ suppressed
  | process ptyId accepted =>
    obtain ⟨settled, isSettled, rfl⟩ := Option.map_eq_some_iff.mp ran
    exact sound.process isSettled
  | reply index =>
    obtain ⟨request, isRequest, isReply⟩ := Option.bind_eq_some_iff.mp ran
    obtain ⟨accepted, isAccepted, rfl⟩ := Option.map_eq_some_iff.mp isReply
    exact sound.replied isRequest isAccepted (inOrder request isRequest)

theorem step_latest (latest : Latest sys) (sound : Sound sys) {label : Label Pty}
    (clean : Clean sys label) {next : System Pty} (ran : step sys label = some next) :
    Latest next := by
  cases label with
  | fit grid =>
    cases ran
    exact latest.settings grid _ _
  | syncPtySize =>
    cases ran
    exact latest.syncPtySize
  | holdPtyResize =>
    cases ran
    exact latest.settings _ _ _
  | releasePtyResize pendingHeldFit =>
    cases ran
    unfold System.releasePtyResize
    dsimp only
    split_ifs
    · exact latest
    · exact latest.settings _ _ _
    · exact (latest.settings _ _ _).syncPtySize
  | forwardReconcileResize cols rows =>
    cases ran
    unfold System.forwardReconcileResize
    split_ifs
    · exact latest
    · exact latest.sendPtyResize cols rows
  | setPtyId ptyId =>
    cases ran
    exact latest.setPtyId (clean.2 ptyId rfl)
  | suppress suppressed =>
    cases ran
    exact latest.settings _ _ suppressed
  | process ptyId accepted =>
    obtain ⟨settled, isSettled, rfl⟩ := Option.map_eq_some_iff.mp ran
    exact latest.process isSettled
  | reply index =>
    obtain ⟨request, isRequest, isReply⟩ := Option.bind_eq_some_iff.mp ran
    obtain ⟨accepted, _, rfl⟩ := Option.map_eq_some_iff.mp isReply
    exact latest.replied sound isRequest (clean.1 request isRequest)

end

theorem opened_sound (grid : ResizeTarget) (backend : Pty → ResizeTarget) :
    Sound (opened grid backend) where
  cols := nofun
  known := nofun
  fifo := fun _ => .nil
  ids := .nil
  fresh := nofun
  tracked := nofun

/-- In flight is what has no reply yet, and what the runtime tracks. -/
theorem sizesConverge (grid : ResizeTarget) (backend : Pty → ResizeTarget) (finish : System Pty) :
    (Run step InOrder (opened grid backend) finish → Converged Answered finish) ∧
      (Run step Clean (opened grid backend) finish → Converged Untracked finish) := by
  constructor
  · intro run
    have sound : Sound finish := run.invariant (opened_sound grid backend)
      fun _ _ _ sound inOrder ran => step_sound sound inOrder ran
    exact sound.converged
  · intro run
    have latest : Latest (opened grid backend) :=
      ⟨fun _ _ _ => rfl, fun _ _ _ isFlight => (by cases isFlight)⟩
    have start : Tracked (opened grid backend) := ⟨opened_sound grid backend, latest⟩
    have tracked : Tracked finish := run.invariant start fun _ _ _ tracked clean ran =>
      ⟨step_sound tracked.sound clean.1 ran,
        step_latest tracked.latest tracked.sound clean ran⟩
    exact tracked.latest.answered tracked.sound.converged

def narrowThenWide (last : List (Label Unit)) : List (Label Unit) :=
  [.setPtyId (), .syncPtySize, .fit ⟨100, 24⟩, .syncPtySize, .process () true,
    .process () true] ++ last

theorem sizesConverge_inOrder : ∃ finish,
    execute step (opened ⟨80, 24⟩ fun _ => ⟨0, 0⟩) (narrowThenWide [.reply 0, .reply 0]) =
        some finish ∧ Converged Answered finish := by
  refine ⟨_, rfl, (sizesConverge ⟨80, 24⟩ _ _).1
    (run_of_permitted (narrowThenWide [.reply 0, .reply 0]) ?_ rfl)⟩
  refine ⟨trivial, _, rfl, trivial, _, rfl, trivial, _, rfl, trivial, _, rfl, trivial, _, rfl,
    trivial, _, rfl, ?_, _, rfl, ?_, _, rfl, trivial⟩
  · exact fun _ _ earlier isIn => by cases isIn
  · exact fun _ _ earlier isIn => by cases isIn

/-- The late reply to the first resize is taken for the size of the PTY. -/
theorem not_sizesConverge : ¬∀ (grid : ResizeTarget) (backend : Unit → ResizeTarget)
    (finish : System Unit), Reachable step (opened grid backend) finish →
      Converged Answered finish := by
  intro allConverge
  have reached : ∃ finish, Reachable step (opened ⟨80, 24⟩ fun _ => ⟨0, 0⟩) finish ∧
      finish.ptyId = some () ∧ Answered finish () ∧ NothingToSend finish ∧
        finish.backend () = ⟨100, 24⟩ ∧ finish.grid = ⟨80, 24⟩ := by
    refine ⟨_, reachable_of_execute
      (narrowThenWide [.reply 1, .reply 0, .fit ⟨80, 24⟩]) rfl, rfl, rfl, ?_, rfl, rfl⟩
    exact ⟨rfl, by decide, by decide, rfl⟩
  obtain ⟨finish, isReached, isPty, answered, decided, isWide, isNarrow⟩ := reached
  have same := allConverge _ _ finish isReached () isPty answered decided
  rw [isWide, isNarrow] at same
  cases same

end AiTools.Terminal.PtySizes
