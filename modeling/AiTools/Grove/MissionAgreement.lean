import AiTools.Grove.MissionLists

/-!
Contract: the mission list of the app agrees with the missions of the backend.
-/

namespace AiTools.Grove.MissionStore

open AiTools.Lib.Transition
open List (mem_cons mem_filterMap mem_of_mem_erase mem_singleton nodup_cons nodup_nil)

variable {calls : List Call} {call : Call}

theorem inFlight_erase {other : Call} (isThere : other ∈ calls)
    (different : other ≠ call) : other ∈ calls.erase call :=
  (List.mem_erase_of_ne different).mpr isThere

/-! ## Agreement of one list -/

/-- The backend's missions, also those that it has deleted, and the calls in flight. -/
structure Truth where
  backend : List Mission
  everything : List Mission
  calls : List Call

/-- Only changes since a time may be missing in a list. A mission need only be in it when it is one
of those within. -/
structure Agrees (truth : Truth) (since : Nat) (within : Text → Prop) (missions : List Mission) :
    Prop where
  once : Once missions
  kept : ∀ id, within id → Has truth.backend id → Has missions id ∨
    ∃ time mission, since < time ∧ .created time mission ∈ truth.calls ∧ mission.id = id
  gone : ∀ id, Has missions id → Has truth.backend id ∨
    ∃ time, since < time ∧ .deleted time id ∈ truth.calls
  keptProject : ∀ missionId projectId, Has missions missionId →
    HasProject truth.backend missionId projectId → HasProject missions missionId projectId ∨
      ∃ time, since < time ∧ .added time missionId projectId ∈ truth.calls
  goneProject : ∀ missionId projectId, HasProject missions missionId projectId →
    HasProject truth.everything missionId projectId ∨
      ∃ time, since < time ∧ .removed time missionId projectId ∈ truth.calls

/-- What can become of the backend. -/
structure Moves (before after : Truth) (since : Nat) : Prop where
  calls : ∀ call ∈ before.calls, call.isRequested = false → call ∈ after.calls
  created : ∀ id, Has after.backend id → Has before.backend id ∨
    ∃ time mission, since < time ∧ .created time mission ∈ after.calls ∧ mission.id = id
  deleted : ∀ id, Has before.backend id → Has after.backend id ∨
    ∃ time, since < time ∧ .deleted time id ∈ after.calls
  added : ∀ missionId projectId, HasProject after.backend missionId projectId →
    HasProject before.backend missionId projectId ∨
      ∃ time, since < time ∧ .added time missionId projectId ∈ after.calls
  removed : ∀ missionId projectId, HasProject before.everything missionId projectId →
    HasProject after.everything missionId projectId ∨
      ∃ time, since < time ∧ .removed time missionId projectId ∈ after.calls

section

variable {before after truth : Truth} {since : Nat} {within : Text → Prop}
  {missions : List Mission}

theorem Agrees.moves (agrees : Agrees before since within missions)
    (moves : Moves before after since) : Agrees after since within missions := by
  refine ⟨agrees.once, fun id isWithin has => ?_, fun id has => ?_,
    fun missionId projectId has hasProject => ?_, fun missionId projectId hasProject => ?_⟩
  · rcases moves.created id has with hadIt | isNew
    · rcases agrees.kept id isWithin hadIt with isThere | ⟨time, mission, isSince, isCall, isId⟩
      · exact .inl isThere
      · exact .inr ⟨time, mission, isSince, moves.calls _ isCall rfl, isId⟩
    · exact .inr isNew
  · rcases agrees.gone id has with hadIt | ⟨time, isSince, isCall⟩
    · exact moves.deleted id hadIt
    · exact .inr ⟨time, isSince, moves.calls _ isCall rfl⟩
  · rcases moves.added missionId projectId hasProject with hadIt | isNew
    · rcases agrees.keptProject missionId projectId has hadIt with isThere | ⟨time, isSince, isCall⟩
      · exact .inl isThere
      · exact .inr ⟨time, isSince, moves.calls _ isCall rfl⟩
    · exact .inr isNew
  · rcases agrees.goneProject missionId projectId hasProject with hadIt | ⟨time, isSince, isCall⟩
    · exact moves.removed missionId projectId hadIt
    · exact .inr ⟨time, isSince, moves.calls _ isCall rfl⟩

theorem Agrees.erase (agrees : Agrees truth since within missions) {call : Call}
    (isBefore : call.changedAt ≤ since) :
    Agrees { truth with calls := truth.calls.erase call } since within missions := by
  have later : ∀ other ∈ truth.calls, since < other.changedAt → other ∈ truth.calls.erase call := by
    intro other isCall isSince
    refine inFlight_erase isCall ?_
    rintro rfl
    exact absurd isSince (Nat.not_lt.mpr isBefore)
  refine ⟨agrees.once, fun id isWithin has => ?_, fun id has => ?_,
    fun missionId projectId has hasProject => ?_, fun missionId projectId hasProject => ?_⟩
  · exact (agrees.kept id isWithin has).imp_right fun ⟨time, mission, isSince, isCall, isId⟩ =>
      ⟨time, mission, isSince, later _ isCall isSince, isId⟩
  · exact (agrees.gone id has).imp_right fun ⟨time, isSince, isCall⟩ =>
      ⟨time, isSince, later _ isCall isSince⟩
  · exact (agrees.keptProject missionId projectId has hasProject).imp_right
      fun ⟨time, isSince, isCall⟩ => ⟨time, isSince, later _ isCall isSince⟩
  · exact (agrees.goneProject missionId projectId hasProject).imp_right
      fun ⟨time, isSince, isCall⟩ => ⟨time, isSince, later _ isCall isSince⟩

theorem Agrees.weaken (agrees : Agrees truth since within missions) {other : Text → Prop}
    (isWithin : ∀ id, other id → within id) : Agrees truth 0 other missions := by
  refine ⟨agrees.once, fun id isOther has => ?_, fun id has => ?_,
    fun missionId projectId has hasProject => ?_, fun missionId projectId hasProject => ?_⟩
  · exact (agrees.kept id (isWithin id isOther) has).imp_right
      fun ⟨time, mission, isSince, rest⟩ => ⟨time, mission, Nat.zero_lt_of_lt isSince, rest⟩
  · exact (agrees.gone id has).imp_right
      fun ⟨time, isSince, rest⟩ => ⟨time, Nat.zero_lt_of_lt isSince, rest⟩
  · exact (agrees.keptProject missionId projectId has hasProject).imp_right
      fun ⟨time, isSince, rest⟩ => ⟨time, Nat.zero_lt_of_lt isSince, rest⟩
  · exact (agrees.goneProject missionId projectId hasProject).imp_right
      fun ⟨time, isSince, rest⟩ => ⟨time, Nat.zero_lt_of_lt isSince, rest⟩

end

def State.everything (state : State) : List Mission := state.backend ++ state.deleted

def State.truth (state : State) : Truth := ⟨state.backend, state.everything, state.calls⟩

/-- A mission that has been shown, and a project of a mission in the store, is there while the
backend has it, unless its creation has no reply yet. What is there is what the backend has, unless
its deletion has no reply yet. -/
structure Faithful (state : State) : Prop where
  once : Once state.store.missions
  kept : ∀ id ∈ state.shown, Has state.backend id → Has state.store.missions id
  gone : ∀ id, Has state.store.missions id → Has state.backend id ∨
    ∃ time, .deleted time id ∈ state.calls
  keptProject : ∀ missionId projectId, Has state.store.missions missionId →
    HasProject state.backend missionId projectId →
      HasProject state.store.missions missionId projectId ∨
        ∃ time, .added time missionId projectId ∈ state.calls
  goneProject : ∀ missionId projectId, HasProject state.store.missions missionId projectId →
    HasProject state.everything missionId projectId ∨
      ∃ time, .removed time missionId projectId ∈ state.calls
  settled : state.calls = [] → state.store.loading = false ∧ state.store.deletingMissions = [] ∧
    state.store.deletingMissionProjects = [] ∧ state.store.addingMissionProjects = []

/-- The mission that a request is about. -/
def Request.target : Request → Option Text
  | delete id | addProject id _ | removeProject id _ => some id
  | _ => none

/-- The project of a mission that a request adds or removes. -/
def Request.pair : Request → Option (Text × Text)
  | addProject missionId projectId | removeProject missionId projectId =>
    some (missionId, projectId)
  | _ => none

/-- An action is about a mission that the store has, and no other one adds or removes the project
at that time. A creation comes with an id that is not one that has been shown, and a deletion that
fails has removed nothing. A list comes before the replies to the changes that it has not, and after
those to the creations that it has. -/
def Clean (state : State) : Label → Prop
  | .request request =>
    (∀ id ∈ request.target, Has state.store.missions id) ∧
      ∀ pair ∈ request.pair, ∀ call ∈ state.calls, call.request.pair ≠ some pair
  | .perform .create (.succeeds id) => id ∉ state.shown
  | .perform (.delete _) (.fails removed) => removed = 0
  | .reply (.listed time missions) =>
    state.replied ≤ time ∧ ∀ call ∈ state.calls, (∀ time mission, call = .created time mission →
        ¬ Has missions mission.id) ∧
        ∀ time missionId projectId, call = .added time missionId projectId →
          ¬ HasProject missions missionId projectId
  | _ => True

def Call.pair (call : Call) : Option (Text × Text) := call.request.pair

def Call.createdId : Call → Option Text
  | created _ mission => some mission.id
  | _ => none

/-- What holds in every state of a run whose steps are clean. -/
structure Sound (state : State) : Prop where
  backendOnce : Once state.backend
  store : Agrees state.truth 0 (· ∈ state.shown) state.store.missions
  storeShown : ∀ id, Has state.store.missions id → id ∈ state.shown
  listed : ∀ time missions, .listed time missions ∈ state.calls → time ≤ state.clock ∧
    (state.replied ≤ time → Agrees state.truth time (fun _ => True) missions)
  created : ∀ time mission, .created time mission ∈ state.calls → mission.id ∉ state.shown ∧
    Has state.backend mission.id ∧ (∀ projectId, ¬ HasProject state.backend mission.id projectId) ∧
      mission.projects = []
  deleted : ∀ time id, .deleted time id ∈ state.calls → ¬ Has state.backend id
  added : ∀ time missionId projectId, .added time missionId projectId ∈ state.calls →
    ¬ HasProject state.store.missions missionId projectId ∧
      HasProject state.everything missionId projectId
  removed : ∀ time missionId projectId, .removed time missionId projectId ∈ state.calls →
    ¬ HasProject state.backend missionId projectId
  targets : ∀ call ∈ state.calls, ∀ id ∈ call.request.target, id ∈ state.shown
  pairs : (state.calls.filterMap Call.pair).Nodup
  createdIds : (state.calls.filterMap Call.createdId).Nodup
  deletedShown : ∀ id, Has state.deleted id → id ∈ state.shown ∧ ¬ Has state.backend id

theorem request_has (store : Store) (request : Request) (id : Text) :
    Has (store.request request).missions id ↔ Has store.missions id := by
  cases request <;> simp [Store.request]

theorem request_hasProject (store : Store) (request : Request) (missionId projectId : Text) :
    HasProject (store.request request).missions missionId projectId ↔
      HasProject store.missions missionId projectId := by
  cases request <;> simp [Store.request]

theorem request_once {store : Store} (request : Request) (once : Once store.missions) :
    Once (store.request request).missions := by
  cases request with
  | setCollapsed missionId collapsed => exact once.collapse missionId collapsed
  | _ => exact once

theorem Agrees.congr {truth : Truth} {since : Nat} {within : Text → Prop}
    {missions others : List Mission} (agrees : Agrees truth since within missions)
    (once : Once others) (sameIds : ∀ id, Has others id ↔ Has missions id)
    (sameProjects : ∀ missionId projectId,
      HasProject others missionId projectId ↔ HasProject missions missionId projectId) :
    Agrees truth since within others := by
  refine ⟨once, ?_, ?_, ?_, ?_⟩
  · simpa only [sameIds] using agrees.kept
  · simpa only [sameIds] using agrees.gone
  · simpa only [sameIds, sameProjects] using agrees.keptProject
  · simpa only [sameProjects] using agrees.goneProject

theorem moves_cons (truth : Truth) (call : Call) (since : Nat) :
    Moves truth { truth with calls := call :: truth.calls } since :=
  ⟨fun _ isThere _ => List.mem_cons_of_mem _ isThere, fun _ has => .inl has, fun _ has => .inl has,
    fun _ _ has => .inl has, fun _ _ has => .inl has⟩

variable {state : State}

theorem Sound.request (sound : Sound state) {request : Request}
    (clean : Clean state (.request request)) : Sound { state with
      store := state.store.request request, calls := .requested request :: state.calls } := by
  have moves := moves_cons state.truth (.requested request)
  refine ⟨sound.backendOnce, ?_, ?_, ?_, ?_, ?_, ?_, ?_, ?_, ?_, ?_, sound.deletedShown⟩
  · exact (sound.store.moves (moves 0)).congr (request_once request sound.store.once)
      (request_has _ _) (request_hasProject _ _)
  · exact fun id has => sound.storeShown id ((request_has _ _ id).mp has)
  · intro time missions isCall
    have isCall : .listed time missions ∈ state.calls := by simpa using isCall
    exact ⟨(sound.listed time missions isCall).1,
      fun isLate => ((sound.listed time missions isCall).2 isLate).moves (moves time)⟩
  · intro time mission isCall
    exact sound.created time mission (by simpa using isCall)
  · intro time id isCall
    exact sound.deleted time id (by simpa using isCall)
  · intro time missionId projectId isCall
    have before := sound.added time missionId projectId (by simpa using isCall)
    exact ⟨fun has => before.1 ((request_hasProject _ _ _ _).mp has), before.2⟩
  · intro time missionId projectId isCall
    exact sound.removed time missionId projectId (by simpa using isCall)
  · intro call isCall id isTarget
    rcases mem_cons.mp isCall with rfl | isBefore
    · exact sound.storeShown id (clean.1 id isTarget)
    · exact sound.targets call isBefore id isTarget
  · change ((Call.requested request :: state.calls).filterMap Call.pair).Nodup
    cases isPair : Call.pair (.requested request) with
    | none =>
      rw [List.filterMap_cons_none isPair]
      exact sound.pairs
    | some pair =>
      rw [List.filterMap_cons_some isPair, nodup_cons]
      refine ⟨fun isThere => ?_, sound.pairs⟩
      obtain ⟨call, isCall, same⟩ := mem_filterMap.mp isThere
      exact clean.2 pair isPair call isCall same
  · exact sound.createdIds

/-! ## Performed calls -/

/-- All that the backend can do at some time. -/
inductive Performs (backend : List Mission) (time : Nat) :
    Request → List Mission → Call → Prop where
  | failed (request : Request) : Performs backend time request backend (.failed request)
  | listed : Performs backend time .load backend (.listed time backend)
  | created {id : Text} (isNew : ¬ Has backend id) :
      Performs backend time .create (backend ++ [⟨id, [], false⟩]) (.created time ⟨id, [], false⟩)
  | deleted {id : Text} (has : Has backend id) :
      Performs backend time (.delete id) (without id backend) (.deleted time id)
  | added {missionId projectId : Text} (has : Has backend missionId)
      (isNew : ¬ HasProject backend missionId projectId) :
      Performs backend time (.addProject missionId projectId) (addTo missionId projectId backend)
        (.added time missionId projectId)
  | removed {missionId projectId : Text} (has : HasProject backend missionId projectId) :
      Performs backend time (.removeProject missionId projectId)
        (removeFrom missionId projectId backend) (.removed time missionId projectId)
  | collapsed (missionId : Text) (collapsed : Bool) :
      Performs backend time (.setCollapsed missionId collapsed)
        (collapse missionId collapsed backend) (.wasCollapsed missionId collapsed)

variable {backend : List Mission}

theorem performs_of_performed {request : Request} {outcome : Outcome}
    {time : Nat} (clean : Clean state (.perform request outcome))
    (isPerformed : performed state.backend time request outcome = some (backend, call)) :
    Performs state.backend time request backend call ∧
      ∀ time mission, call = .created time mission → mission.id ∉ state.shown := by
  cases outcome with
  | fails removed =>
    cases request with
    | delete id =>
      have isNone : removed = 0 := clean
      subst isNone
      cases isPerformed
      rw [dropFrom_zero]
      exact ⟨.failed _, fun _ _ isCreated => by cases isCreated⟩
    | _ =>
      cases isPerformed
      exact ⟨.failed _, fun _ _ isCreated => by cases isCreated⟩
  | succeeds id =>
    cases request <;> simp only [performed] at isPerformed
    case load =>
      cases isPerformed
      exact ⟨.listed, fun _ _ isCreated => by cases isCreated⟩
    case create =>
      split at isPerformed
      · cases isPerformed
      · cases isPerformed
        refine ⟨.created ‹_›, fun _ _ isCreated => ?_⟩
        cases isCreated
        exact clean
    all_goals
      split at isPerformed
      · cases isPerformed
        refine ⟨?_, fun _ _ isCreated => by cases isCreated⟩
        first
        | exact .deleted ‹_›
        | exact .added (‹_ ∧ _›).1 (‹_ ∧ _›).2
        | exact .removed ‹_›
        | exact .collapsed _ _
      · cases isPerformed

theorem Performs.once {next : List Mission} {time : Nat} {request : Request}
    (performs : Performs backend time request next call) (once : Once backend) : Once next := by
  cases performs with
  | failed | listed => exact once
  | created isNew => exact once.append isNew rfl
  | deleted has => exact once.without _
  | added has isNew => exact once.addTo isNew
  | removed has => exact once.removeFrom _ _
  | collapsed => exact once.collapse _ _

theorem Performs.moves {backend next deleted : List Mission} {time since : Nat} {request : Request}
    {call : Call} (performs : Performs backend time request next call) {calls : List Call}
    (isSince : since < time) :
    Moves ⟨backend, backend ++ deleted, calls⟩
      ⟨next, next ++ (deleted ++ deletedBy backend call),
        call :: calls.erase (.requested request)⟩ since := by
  have kept : ∀ other ∈ calls, other.isRequested = false →
      other ∈ call :: calls.erase (.requested request) := by
    intro other isThere isPerformed
    refine List.mem_cons_of_mem _ (inFlight_erase isThere ?_)
    rintro rfl
    cases isPerformed
  have isThere : call ∈ call :: calls.erase (.requested request) := List.mem_cons_self
  refine ⟨kept, fun id has => ?_, fun id has => ?_, fun missionId projectId has => ?_,
    fun missionId projectId has => ?_⟩
  · cases performs with
    | created isNew =>
      rcases has_append.mp has with hadIt | isThis
      · exact .inl hadIt
      · exact .inr ⟨time, _, isSince, isThere, has_new.mp isThis⟩
    | deleted => exact .inl (has_without.mp has).1
    | failed | listed => exact .inl has
    | added | removed | collapsed => exact .inl (by simpa using has)
  · cases performs with
    | @deleted gone _ =>
      by_cases same : id = gone
      · exact .inr ⟨time, isSince, same ▸ isThere⟩
      · exact .inl (has_without.mpr ⟨has, same⟩)
    | created => exact .inl (has_append.mpr (.inl has))
    | failed | listed => exact .inl has
    | added | removed | collapsed => exact .inl (by simpa using has)
  · cases performs with
    | added =>
      rcases hasProject_addTo.mp has with hadIt | ⟨rfl, rfl, _⟩
      · exact .inl hadIt
      · exact .inr ⟨time, isSince, isThere⟩
    | removed => exact .inl (hasProject_removeFrom.mp has).1
    | deleted => exact .inl (hasProject_without.mp has).1
    | created | collapsed => exact .inl (by simpa using has)
    | failed | listed => exact .inl has
  · dsimp only at has ⊢
    rw [hasProject_append] at has
    simp only [hasProject_append]
    cases performs with
    | @removed removedFrom removedProject _ =>
      by_cases same : missionId = removedFrom ∧ projectId = removedProject
      · obtain ⟨rfl, rfl⟩ := same
        exact .inr ⟨time, isSince, isThere⟩
      · exact .inl (has.imp (fun has => hasProject_removeFrom.mpr ⟨has, same⟩) .inl)
    | @deleted gone _ =>
      by_cases same : missionId = gone
      · simp only [deletedBy, hasProject_filter, same]
        rw [same] at has
        grind
      · exact .inl (has.imp (fun has => hasProject_without.mpr ⟨has, same⟩) .inl)
    | created => exact .inl (has.imp (fun has => hasProject_append.mpr (.inl has)) .inl)
    | added => exact .inl (has.imp (fun has => hasProject_addTo.mpr (.inl has)) .inl)
    | failed | listed => exact .inl (has.imp_right .inl)
    | collapsed => exact .inl (has.imp hasProject_collapse.mpr .inl)

theorem ne_of_nodup {Value : Type} {value : Call → Option Value}
    (nodup : (calls.filterMap value).Nodup) {other : Call} (isCall : call ∈ calls)
    (isOther : other ∈ calls.erase call) {found : Value} (isFound : value call = some found) :
    value other ≠ some found := by
  have perm := (List.perm_cons_erase isCall).filterMap value
  rw [List.filterMap_cons_some isFound] at perm
  have notThere := (nodup_cons.mp (perm.nodup_iff.mp nodup)).1
  exact fun same => notThere (mem_filterMap.mpr ⟨other, isOther, same⟩)

theorem nodup_erase {Value : Type} {value : Call → Option Value}
    (nodup : (calls.filterMap value).Nodup) (call : Call) :
    ((calls.erase call).filterMap value).Nodup :=
  nodup.sublist (List.erase_sublist.filterMap value)

theorem nodup_replace {Value : Type} {value : Call → Option Value}
    (nodup : (calls.filterMap value).Nodup) {next : Call} (isCall : call ∈ calls)
    (same : value next = value call) : ((next :: calls.erase call).filterMap value).Nodup := by
  have perm := (List.perm_cons_erase isCall).filterMap value
  have asBefore : (next :: calls.erase call).filterMap value =
      (call :: calls.erase call).filterMap value := by
    rw [List.filterMap_cons, List.filterMap_cons, same]
  rw [asBefore]
  exact perm.nodup_iff.mp nodup

/-- The state behind a performed call. -/
def State.performs (state : State) (request : Request) (backend : List Mission) (call : Call) :
    State :=
  { state with
    backend
    deleted := state.deleted ++ deletedBy state.backend call
    calls := call :: state.calls.erase (.requested request)
    clock := state.clock + 1 }

theorem mem_performs {request : Request} {other : Call}
    (isThere : other ∈ call :: calls.erase (.requested request)) : other = call ∨ other ∈ calls :=
  (mem_cons.mp isThere).imp_right mem_of_mem_erase

section

variable {state : State} {request : Request} {backend : List Mission} {call : Call}

theorem Performs.has_of_shown
    (performs : Performs state.backend (state.clock + 1) request backend call)
    (isNew : ∀ time mission, call = .created time mission → mission.id ∉ state.shown) {id : Text}
    (isShown : id ∈ state.shown) (has : Has backend id) : Has state.backend id := by
  cases performs with
  | created _ =>
    rcases has_append.mp has with hadIt | isThis
    · exact hadIt
    · exact absurd isShown ((has_new.mp isThis) ▸ isNew _ _ rfl)
  | deleted => exact (has_without.mp has).1
  | failed | listed => exact has
  | added | removed | collapsed => simpa using has

theorem Performs.hasProject_of
    (performs : Performs state.backend (state.clock + 1) request backend call)
    {missionId projectId : Text} (has : HasProject backend missionId projectId) :
    HasProject state.backend missionId projectId ∨ request = .addProject missionId projectId := by
  cases performs with
  | added =>
    rcases hasProject_addTo.mp has with hadIt | ⟨rfl, rfl, _⟩
    · exact .inl hadIt
    · exact .inr rfl
  | removed => exact .inl (hasProject_removeFrom.mp has).1
  | deleted => exact .inl (hasProject_without.mp has).1
  | created | collapsed => exact .inl (by simpa using has)
  | failed | listed => exact .inl has

theorem Performs.everything_of
    (performs : Performs state.backend (state.clock + 1) request backend call)
    {missionId projectId : Text} (has : HasProject state.everything missionId projectId)
    (notRemoved : request ≠ .removeProject missionId projectId) :
    HasProject (backend ++ (state.deleted ++ deletedBy state.backend call)) missionId
      projectId := by
  have moves := @Performs.moves _ _ state.deleted _ _ _ _ performs [] (Nat.lt_succ_self _)
  rcases moves.removed missionId projectId has with isThere | ⟨time, _, isCall⟩
  · exact isThere
  · have isRemoved : Call.removed time missionId projectId = call := by simpa using isCall
    subst isRemoved
    cases performs
    exact absurd rfl notRemoved

theorem Sound.pair_ne (sound : Sound state) (isCall : .requested request ∈ state.calls)
    {other : Call} (isOther : other ∈ state.calls) (isPerformed : other.isRequested = false)
    {pair : Text × Text} (isPair : request.pair = some pair) : other.pair ≠ some pair := by
  refine ne_of_nodup sound.pairs isCall (inFlight_erase isOther ?_) isPair
  rintro rfl
  cases isPerformed

theorem Sound.perform (sound : Sound state) (isCall : .requested request ∈ state.calls)
    (performs : Performs state.backend (state.clock + 1) request backend call)
    (isNew : ∀ time mission, call = .created time mission → mission.id ∉ state.shown) :
    Sound (state.performs request backend call) := by
  have sameRequest : call.request = request := by cases performs <;> rfl
  have moves : ∀ {since : Nat}, since ≤ state.clock →
      Moves state.truth (state.performs request backend call).truth since :=
    fun isBefore => performs.moves (Nat.lt_succ_of_le isBefore)
  have targets : ∀ other ∈ (state.performs request backend call).calls,
      ∀ id ∈ other.request.target, id ∈ state.shown := by
    intro other isOther id isTarget
    rcases mem_performs isOther with rfl | isBefore
    · exact sound.targets _ isCall id (by rwa [sameRequest] at isTarget)
    · exact sound.targets other isBefore id isTarget
  refine ⟨performs.once sound.backendOnce, sound.store.moves (moves (Nat.zero_le _)),
    sound.storeShown, ?_, ?_, ?_, ?_, ?_, targets, ?_, ?_, ?_⟩
  · intro time missions isListed
    rcases mem_performs isListed with rfl | isBefore
    · cases performs
      exact ⟨Nat.le_refl _, fun _ => ⟨sound.backendOnce, fun _ _ has => .inl has,
        fun _ has => .inl has, fun _ _ _ has => .inl has,
        fun _ _ has => .inl (hasProject_append.mpr (.inl has))⟩⟩
    · obtain ⟨isEarlier, agrees⟩ := sound.listed time missions isBefore
      exact ⟨Nat.le_succ_of_le isEarlier, fun isLate => (agrees isLate).moves (moves isEarlier)⟩
  · intro time mission isCreated
    rcases mem_performs isCreated with rfl | isBefore
    · cases performs with
      | created isNone =>
        refine ⟨isNew _ _ rfl, has_append.mpr (.inr (has_new.mpr rfl)),
          fun projectId has => ?_, rfl⟩
        rcases hasProject_append.mp has with hadIt | isThis
        · exact isNone hadIt.has
        · exact hasProject_new isThis
    · obtain ⟨notShown, has, noProjects, isEmpty⟩ := sound.created time mission isBefore
      refine ⟨notShown, ?_, fun projectId hasProject => ?_, isEmpty⟩
      · rcases (moves (Nat.le_refl _)).deleted _ has with isThere | ⟨deletedAt, _, isDeleted⟩
        · exact isThere
        · exact absurd (targets _ isDeleted _ rfl) notShown
      · rcases performs.hasProject_of hasProject with hadIt | rfl
        · exact noProjects projectId hadIt
        · exact notShown (sound.targets _ isCall _ rfl)
  · intro time id isDeleted has
    rcases mem_performs isDeleted with rfl | isBefore
    · cases performs with
      | deleted _ => exact (has_without.mp has).2 rfl
    · exact sound.deleted time id isBefore
        (performs.has_of_shown isNew (sound.targets _ isBefore id rfl) has)
  · intro time missionId projectId isAdded
    rcases mem_performs isAdded with rfl | isBefore
    · cases performs with
      | added has isNone =>
        refine ⟨fun isInStore => ?_,
          hasProject_append.mpr (.inl (hasProject_addTo.mpr (.inr ⟨rfl, rfl, has⟩)))⟩
        rcases sound.store.goneProject _ _ isInStore with isThere | ⟨removedAt, _, isRemoved⟩
        · rcases hasProject_append.mp isThere with isBackend | isDeleted
          · exact isNone isBackend
          · exact (sound.deletedShown _ isDeleted.has).2 has
        · exact sound.pair_ne isCall isRemoved rfl rfl rfl
    · obtain ⟨notInStore, isThere⟩ := sound.added time missionId projectId isBefore
      refine ⟨notInStore, performs.everything_of isThere ?_⟩
      rintro rfl
      exact sound.pair_ne isCall isBefore rfl rfl rfl
  · intro time missionId projectId isRemoved has
    rcases mem_performs isRemoved with rfl | isBefore
    · cases performs with
      | removed _ => exact (hasProject_removeFrom.mp has).2 ⟨rfl, rfl⟩
    · rcases performs.hasProject_of has with hadIt | rfl
      · exact sound.removed time missionId projectId isBefore hadIt
      · exact sound.pair_ne isCall isBefore rfl rfl rfl
  · exact nodup_replace sound.pairs isCall (congrArg Request.pair sameRequest)
  · change ((call :: state.calls.erase (.requested request)).filterMap Call.createdId).Nodup
    cases isId : call.createdId with
    | none =>
      rw [List.filterMap_cons_none isId]
      exact nodup_erase sound.createdIds _
    | some id =>
      rw [List.filterMap_cons_some isId, nodup_cons]
      refine ⟨fun isThere => ?_, nodup_erase sound.createdIds _⟩
      obtain ⟨other, isOther, same⟩ := mem_filterMap.mp isThere
      cases performs with
      | created isNone =>
        cases other with
        | created time mission =>
          cases isId
          have has := (sound.created time mission (mem_of_mem_erase isOther)).2.1
          rw [Option.some.inj same] at has
          exact isNone has
        | _ => cases same
      | _ => cases isId
  · intro id has
    rcases has_append.mp has with isBefore | isNow
    · obtain ⟨isShown, notThere⟩ := sound.deletedShown id isBefore
      exact ⟨isShown, fun has => notThere (performs.has_of_shown isNew isShown has)⟩
    · cases performs with
      | deleted _ =>
        obtain ⟨_, rfl⟩ := has_filter.mp isNow
        exact ⟨sound.targets _ isCall _ rfl, fun has => (has_without.mp has).2 rfl⟩
      | _ =>
        obtain ⟨mission, isThere, _⟩ := isNow
        cases isThere

end

/-! ## Replies -/

section

variable {state : State}

/-- What the store shows behind a reply, and what is still in flight. -/
def State.truthAfter (state : State) (call : Call) : Truth :=
  { state.truth with calls := state.calls.erase call }

theorem Sound.kept_shown (sound : Sound state) {id : Text} (isShown : id ∈ state.shown)
    (has : Has state.backend id) : Has state.store.missions id := by
  rcases sound.store.kept id isShown has with isThere | ⟨time, mission, _, isCall, rfl⟩
  · exact isThere
  · exact absurd isShown (sound.created time mission isCall).1

variable {time : Nat}

theorem Sound.agrees_created (sound : Sound state) {mission : Mission}
    (isCall : .created time mission ∈ state.calls) :
    Agrees (state.truthAfter (.created time mission)) 0 (· ∈ mission.id :: state.shown)
      (state.store.missions ++ [mission]) := by
  obtain ⟨notShown, hasIt, noProjects, isEmpty⟩ := sound.created time mission isCall
  have has_last : ∀ id, Has [mission] id ↔ mission.id = id := fun id => by simp [Has]
  have noProject : ∀ missionId projectId, ¬ HasProject [mission] missionId projectId := by
    intro missionId projectId has
    obtain ⟨other, isOther, _, isProject⟩ := has
    simp [mem_singleton.mp isOther, isEmpty] at isProject
  refine ⟨sound.store.once.append (fun has => notShown (sound.storeShown _ has)) isEmpty, ?_, ?_,
    ?_, ?_⟩
  · intro id isShown has
    rcases mem_cons.mp isShown with rfl | isBefore
    · exact .inl (has_append.mpr (.inr ((has_last _).mpr rfl)))
    · exact .inl (has_append.mpr (.inl (sound.kept_shown isBefore has)))
  · intro id has
    rcases has_append.mp has with isBefore | isThis
    · rcases sound.store.gone id isBefore with isThere | ⟨deletedAt, isSince, isDeleted⟩
      · exact .inl isThere
      · exact .inr ⟨deletedAt, isSince, inFlight_erase isDeleted (by simp)⟩
    · exact .inl ((has_last id).mp isThis ▸ hasIt)
  · intro missionId projectId has hasProject
    rcases has_append.mp has with isBefore | isThis
    · rcases sound.store.keptProject missionId projectId isBefore hasProject with
        isThere | ⟨addedAt, isSince, isAdded⟩
      · exact .inl (hasProject_append.mpr (.inl isThere))
      · exact .inr ⟨addedAt, isSince, inFlight_erase isAdded (by simp)⟩
    · exact absurd hasProject ((has_last missionId).mp isThis ▸ noProjects projectId)
  · intro missionId projectId has
    rcases hasProject_append.mp has with isBefore | isThis
    · rcases sound.store.goneProject missionId projectId isBefore with
        isThere | ⟨removedAt, isSince, isRemoved⟩
      · exact .inl isThere
      · exact .inr ⟨removedAt, isSince, inFlight_erase isRemoved (by simp)⟩
    · exact absurd isThis (noProject missionId projectId)

theorem Sound.agrees_deleted (sound : Sound state) {gone : Text}
    (isCall : .deleted time gone ∈ state.calls) :
    Agrees (state.truthAfter (.deleted time gone)) 0 (· ∈ state.shown)
      (without gone state.store.missions) := by
  have notThere := sound.deleted time gone isCall
  refine ⟨sound.store.once.without gone, ?_, ?_, ?_, ?_⟩
  · intro id isShown has
    refine .inl (has_without.mpr ⟨sound.kept_shown isShown has, ?_⟩)
    rintro rfl
    exact notThere has
  · intro id has
    obtain ⟨isBefore, different⟩ := has_without.mp has
    refine (sound.store.gone id isBefore).imp_right fun ⟨deletedAt, isSince, isDeleted⟩ =>
      ⟨deletedAt, isSince, inFlight_erase isDeleted fun same => different ?_⟩
    cases same
    rfl
  · intro missionId projectId has hasProject
    obtain ⟨isBefore, different⟩ := has_without.mp has
    rcases sound.store.keptProject missionId projectId isBefore hasProject with
      isThere | ⟨addedAt, isSince, isAdded⟩
    · exact .inl (hasProject_without.mpr ⟨isThere, different⟩)
    · exact .inr ⟨addedAt, isSince, inFlight_erase isAdded (by simp)⟩
  · intro missionId projectId has
    exact (sound.store.goneProject missionId projectId (hasProject_without.mp has).1).imp_right
      fun ⟨removedAt, isSince, isRemoved⟩ =>
        ⟨removedAt, isSince, inFlight_erase isRemoved (by simp)⟩

theorem Sound.agrees_added (sound : Sound state) {addedTo added : Text}
    (isCall : .added time addedTo added ∈ state.calls) :
    Agrees (state.truthAfter (.added time addedTo added)) 0 (· ∈ state.shown)
      (addTo addedTo added state.store.missions) := by
  obtain ⟨notInStore, isThere⟩ := sound.added time addedTo added isCall
  refine ⟨sound.store.once.addTo notInStore, ?_, ?_, ?_, ?_⟩
  · exact fun id isShown has => .inl (has_addTo.mpr (sound.kept_shown isShown has))
  · intro id has
    exact (sound.store.gone id (has_addTo.mp has)).imp_right fun ⟨deletedAt, isSince, isDeleted⟩ =>
      ⟨deletedAt, isSince, inFlight_erase isDeleted (by simp)⟩
  · intro missionId projectId has hasProject
    rcases sound.store.keptProject missionId projectId (has_addTo.mp has) hasProject with
      isThere | ⟨addedAt, isSince, isAdded⟩
    · exact .inl (hasProject_addTo.mpr (.inl isThere))
    · by_cases same : missionId = addedTo ∧ projectId = added
      · exact .inl (hasProject_addTo.mpr (.inr ⟨same.1, same.2, has_addTo.mp has⟩))
      · refine .inr ⟨addedAt, isSince, inFlight_erase isAdded fun isCall => same ?_⟩
        cases isCall
        exact ⟨rfl, rfl⟩
  · intro missionId projectId has
    rcases hasProject_addTo.mp has with isBefore | ⟨rfl, rfl, _⟩
    · exact (sound.store.goneProject missionId projectId isBefore).imp_right
        fun ⟨removedAt, isSince, isRemoved⟩ =>
        ⟨removedAt, isSince, inFlight_erase isRemoved (by simp)⟩
    · exact .inl isThere

theorem Sound.agrees_removed (sound : Sound state) {removedFrom removed : Text}
    (isCall : .removed time removedFrom removed ∈ state.calls) :
    Agrees (state.truthAfter (.removed time removedFrom removed)) 0 (· ∈ state.shown)
      (removeFrom removedFrom removed state.store.missions) := by
  refine ⟨sound.store.once.removeFrom removedFrom removed, ?_, ?_, ?_, ?_⟩
  · exact fun id isShown has => .inl (has_removeFrom.mpr (sound.kept_shown isShown has))
  · intro id has
    exact (sound.store.gone id (has_removeFrom.mp has)).imp_right
      fun ⟨deletedAt, isSince, isDeleted⟩ =>
        ⟨deletedAt, isSince, inFlight_erase isDeleted (by simp)⟩
  · intro missionId projectId has hasProject
    rcases sound.store.keptProject missionId projectId (has_removeFrom.mp has) hasProject with
      isThere | ⟨addedAt, isSince, isAdded⟩
    · refine .inl (hasProject_removeFrom.mpr ⟨isThere, ?_⟩)
      rintro ⟨rfl, rfl⟩
      exact sound.removed _ _ _ isCall hasProject
    · exact .inr ⟨addedAt, isSince, inFlight_erase isAdded (by simp)⟩
  · intro missionId projectId has
    obtain ⟨isBefore, different⟩ := hasProject_removeFrom.mp has
    refine (sound.store.goneProject missionId projectId isBefore).imp_right
      fun ⟨removedAt, isSince, isRemoved⟩ =>
        ⟨removedAt, isSince, inFlight_erase isRemoved fun same => different ?_⟩
    cases same
    exact ⟨rfl, rfl⟩

variable {call : Call}

theorem Sound.agrees_replied (sound : Sound state) (isCall : call ∈ state.calls)
    (clean : Clean state (.reply call)) :
    Agrees (state.truthAfter call) 0 (· ∈ shownBy call ++ state.shown)
      (Store.replied state.store.missions call) := by
  cases call with
  | requested request | failed request | wasCollapsed missionId collapsed =>
    exact sound.store.erase (Nat.le_refl 0)
  | listed time missions =>
    have agrees := (sound.listed time missions isCall).2 clean.1
    exact (agrees.weaken fun _ _ => trivial).erase (Nat.le_refl 0)
  | created time mission => exact sound.agrees_created isCall
  | deleted time id => exact sound.agrees_deleted isCall
  | added time missionId projectId => exact sound.agrees_added isCall
  | removed time missionId projectId => exact sound.agrees_removed isCall

theorem Sound.replied_shown (sound : Sound state) {id : Text}
    (isCall : call ∈ state.calls) (has : Has (Store.replied state.store.missions call) id) :
    id ∈ shownBy call ++ state.shown := by
  refine List.mem_append.mpr ?_
  cases call with
  | listed time missions =>
    obtain ⟨mission, isThere, rfl⟩ := has
    exact .inl (List.mem_map_of_mem isThere)
  | created time mission =>
    rcases has_append.mp has with isBefore | ⟨other, isOther, rfl⟩
    · exact .inr (sound.storeShown id isBefore)
    · rw [mem_singleton.mp isOther]
      exact .inl List.mem_cons_self
  | deleted time gone => exact .inr (sound.storeShown id (has_without.mp has).1)
  | added time missionId projectId => exact .inr (sound.storeShown id (has_addTo.mp has))
  | removed time missionId projectId => exact .inr (sound.storeShown id (has_removeFrom.mp has))
  | requested | failed | wasCollapsed => exact .inr (sound.storeShown id has)

/-- A mission whose creation has no reply yet is not shown by the reply to another call. -/
theorem Sound.created_not_shown (sound : Sound state) (isCall : call ∈ state.calls)
    (clean : Clean state (.reply call)) {mission : Mission}
    (isCreated : .created time mission ∈ state.calls.erase call) :
    mission.id ∉ shownBy call ++ state.shown := by
  have isThere := mem_of_mem_erase isCreated
  have notShown := (sound.created time mission isThere).1
  intro isShown
  rcases List.mem_append.mp isShown with isNow | isBefore
  · cases call with
    | listed listedAt missions =>
      obtain ⟨other, isOther, same⟩ := List.mem_map.mp isNow
      exact (clean.2 _ isThere).1 time mission rfl ⟨other, isOther, same⟩
    | created otherTime other =>
      have same : mission.id = other.id := mem_singleton.mp isNow
      have different : Call.createdId (.created time mission) ≠ some other.id :=
        ne_of_nodup sound.createdIds isCall isCreated rfl
      exact different (congrArg some same)
    | _ => cases isNow
  · exact notShown isBefore

/-- A project whose addition has no reply yet is not shown by the reply to another call. -/
theorem Sound.added_not_shown (sound : Sound state) (isCall : call ∈ state.calls)
    (clean : Clean state (.reply call)) {missionId projectId : Text}
    (isAdded : .added time missionId projectId ∈ state.calls.erase call) :
    ¬ HasProject (Store.replied state.store.missions call) missionId projectId := by
  have isThere := mem_of_mem_erase isAdded
  have notInStore := (sound.added time missionId projectId isThere).1
  intro has
  cases call with
  | listed listedAt missions => exact (clean.2 _ isThere).2 time missionId projectId rfl has
  | created createdAt mission =>
    rcases hasProject_append.mp has with isBefore | ⟨other, isOther, _, isProject⟩
    · exact notInStore isBefore
    · simp [mem_singleton.mp isOther, (sound.created _ _ isCall).2.2.2] at isProject
  | deleted deletedAt gone => exact notInStore (hasProject_without.mp has).1
  | added addedAt addedTo added =>
    rcases hasProject_addTo.mp has with isBefore | ⟨rfl, rfl, _⟩
    · exact notInStore isBefore
    · exact ne_of_nodup sound.pairs isCall isAdded rfl rfl
  | removed removedAt removedFrom removed => exact notInStore (hasProject_removeFrom.mp has).1
  | requested | failed | wasCollapsed => exact notInStore has

theorem Sound.reply (sound : Sound state) (isCall : call ∈ state.calls)
    (clean : Clean state (.reply call)) : Sound { state with
      store := state.store.reply call
      calls := state.calls.erase call
      shown := shownBy call ++ state.shown
      replied := max state.replied call.changedAt } := by
  refine ⟨sound.backendOnce, sound.agrees_replied isCall clean,
    fun id has => sound.replied_shown isCall has, ?_, ?_, ?_, ?_, ?_, ?_,
    nodup_erase sound.pairs call, nodup_erase sound.createdIds call, ?_⟩
  · intro time missions isListed
    obtain ⟨isEarlier, agrees⟩ := sound.listed time missions (mem_of_mem_erase isListed)
    exact ⟨isEarlier, fun isLate => (agrees (le_trans (le_max_left _ _) isLate)).erase
      (le_trans (le_max_right _ _) isLate)⟩
  · intro time mission isCreated
    obtain ⟨_, rest⟩ := sound.created time mission (mem_of_mem_erase isCreated)
    exact ⟨sound.created_not_shown isCall clean isCreated, rest⟩
  · exact fun time id isDeleted => sound.deleted time id (mem_of_mem_erase isDeleted)
  · intro time missionId projectId isAdded
    obtain ⟨_, rest⟩ := sound.added time missionId projectId (mem_of_mem_erase isAdded)
    exact ⟨sound.added_not_shown isCall clean isAdded, rest⟩
  · exact fun time missionId projectId isRemoved =>
      sound.removed time missionId projectId (mem_of_mem_erase isRemoved)
  · intro other isOther id isTarget
    exact List.mem_append_right _ (sound.targets other (mem_of_mem_erase isOther) id isTarget)
  · intro id has
    exact ⟨List.mem_append_right _ (sound.deletedShown id has).1, (sound.deletedShown id has).2⟩

end

theorem Sound.step {next : State} (sound : Sound state) {label : Label}
    (clean : Clean state label) (isStep : step state label = some next) : Sound next := by
  cases label with
  | request request =>
    rw [MissionStore.step] at isStep
    split at isStep
    · rw [← Option.some.inj isStep]
      exact sound.request clean
    · cases isStep
  | perform request outcome =>
    rw [MissionStore.step] at isStep
    split at isStep
    · rename_i isCall
      obtain ⟨⟨backend, call⟩, isPerformed, rfl⟩ := Option.map_eq_some_iff.mp isStep
      obtain ⟨performs, isNew⟩ := performs_of_performed clean isPerformed
      exact sound.perform isCall performs isNew
    · cases isStep
  | reply call =>
    rw [MissionStore.step] at isStep
    split at isStep
    · rename_i isCall
      rw [← Option.some.inj isStep]
      exact sound.reply isCall.1 clean
    · cases isStep

theorem sound_start (once : Once backend) : Sound (start backend) := by
  have noMission : ∀ id, ¬ Has [] id := fun id => by simp [Has]
  have noProject : ∀ missionId projectId, ¬ HasProject [] missionId projectId :=
    fun missionId projectId => by simp [HasProject]
  refine ⟨once, ⟨⟨nodup_nil, fun _ isThere => by cases isThere⟩, ?_, ?_, ?_, ?_⟩, ?_, ?_, ?_,
    ?_, ?_, ?_, ?_, nodup_nil, nodup_nil, ?_⟩
  · exact fun _ isShown => by cases isShown
  · exact fun id has => absurd has (noMission id)
  · exact fun missionId _ has => absurd has (noMission missionId)
  · exact fun missionId projectId has => absurd has (noProject missionId projectId)
  · exact fun id has => absurd has (noMission id)
  · exact fun _ _ isCall => by cases isCall
  · exact fun _ _ isCall => by cases isCall
  · exact fun _ _ isCall => by cases isCall
  · exact fun _ _ _ isCall => by cases isCall
  · exact fun _ _ _ isCall => by cases isCall
  · exact fun _ isCall => by cases isCall
  · exact fun id has => absurd has (noMission id)

theorem Sound.faithful (sound : Sound state)
    (flagged : Flagged state.store state.calls) : Faithful state := by
  refine ⟨sound.store.once, fun id isShown has => sound.kept_shown isShown has, ?_, ?_, ?_, ?_⟩
  · exact fun id has => (sound.store.gone id has).imp_right fun ⟨time, _, isCall⟩ => ⟨time, isCall⟩
  · exact fun missionId projectId has hasProject =>
      (sound.store.keptProject missionId projectId has hasProject).imp_right
        fun ⟨time, _, isCall⟩ => ⟨time, isCall⟩
  · exact fun missionId projectId hasProject =>
      (sound.store.goneProject missionId projectId hasProject).imp_right
        fun ⟨time, _, isCall⟩ => ⟨time, isCall⟩
  · intro noCalls
    rw [noCalls] at flagged
    refine ⟨?_, ?_, ?_, ?_⟩
    · cases isLoading : state.store.loading with
      | false => rfl
      | true =>
        obtain ⟨_, isThere, _⟩ := flagged.loading isLoading
        cases isThere
    · refine List.eq_nil_iff_forall_not_mem.mpr fun id isFlag => ?_
      obtain ⟨_, isThere, _⟩ := flagged.deletingMission id isFlag
      cases isThere
    · refine List.eq_nil_iff_forall_not_mem.mpr fun flag isFlag => ?_
      obtain ⟨_, isThere, _⟩ := flagged.deletingProject flag isFlag
      cases isThere
    · refine List.eq_nil_iff_forall_not_mem.mpr fun flag isFlag => ?_
      obtain ⟨_, isThere, _⟩ := flagged.addingProject flag isFlag
      cases isThere

/-- In every run of any length whose steps are clean, each reached state is faithful. -/
theorem faithful_run {backend : List Mission} (once : Once backend) {state : State}
    (run : Run step Clean (start backend) state) : Faithful state := by
  have sound : Sound state :=
    run.invariant (sound_start once) fun _ _ _ sound clean isStep => sound.step clean isStep
  exact sound.faithful (flagged_run run.reachable)

def newMission : Mission := ⟨['m'], [], false⟩

/-- The list is taken before a mission is created, and comes after the reply to the creation. -/
def lateList : List Label :=
  [.request .load, .request .create, .perform .load (.succeeds []),
    .perform .create (.succeeds ['m']), .reply (.created 2 newMission), .reply (.listed 1 [])]

/-- The new mission is dropped, which the backend has. -/
theorem not_faithful_lateList : ∃ state, Reachable step (start []) state ∧ ¬ Faithful state := by
  have replayed : execute step (start []) lateList = some _ := rfl
  refine ⟨_, reachable_of_execute lateList replayed, fun faithful => ?_⟩
  have isThere := faithful.kept ['m'] (by decide) (by decide)
  exact absurd isThere (by decide)

theorem faithful_created :
    ∃ state, Run step Clean (start []) state ∧ Has state.store.missions ['m'] ∧ Faithful state := by
  have requested : Run step Clean (start []) _ :=
    .tail (.request .create) .refl ⟨fun _ isTarget => (by cases isTarget),
      fun _ isPair => (by cases isPair)⟩ rfl
  have performed : Run step Clean (start []) _ :=
    .tail (.perform .create (.succeeds ['m'])) requested List.not_mem_nil rfl
  have replied : Run step Clean (start []) _ :=
    .tail (.reply (.created 1 newMission)) performed trivial rfl
  have once : Once [] := ⟨nodup_nil, fun _ isThere => (by cases isThere)⟩
  exact ⟨_, replied, by decide, faithful_run once replied⟩

end AiTools.Grove.MissionStore
