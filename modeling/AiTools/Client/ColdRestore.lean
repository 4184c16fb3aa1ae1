import Mathlib
import AiTools.Lib.Keyed
import AiTools.Lib.Transition

/-!
Contract: the cache of the cold-restore payloads of a client (`ColdRestoreCache`).

Owns:
- the map and the order of insertion, and the three operations on both;
- `coldRestoreKept`, over every run of the operations.

What a payload holds is left out. Beside the code's state it is recorded when each key came in.
-/

namespace AiTools.Client.ColdRestore

open Function (update update_self update_of_ne)
open AiTools.Lib.Keyed AiTools.Lib.Transition

def coldCacheMaxEntries : Nat := 64

variable {Payload : Type}

structure Entry (Payload : Type) where
  id : String
  payload : Payload

abbrev Entries (Payload : Type) := Table (@Entry.id Payload)

/-- `inserted` is the time at which an id has last become a key. -/
structure ColdCache (Payload : Type) where
  entries : Entries Payload
  order : List String
  clock : Nat
  inserted : String → Nat

def ColdCache.empty : ColdCache Payload := ⟨.empty, [], 0, fun _ => 0⟩

/-- The loop of `set`. -/
def evict (entries : Entries Payload) : List String → Entries Payload × List String
  | [] => (entries, [])
  | oldest :: order =>
    if (oldest :: order).length > coldCacheMaxEntries then evict (entries.remove oldest) order
    else (entries, oldest :: order)

namespace ColdCache

def remove (cache : ColdCache Payload) (id : String) : ColdCache Payload :=
  if (cache.entries.find? id).isSome then
    { cache with
      entries := cache.entries.remove id
      order := cache.order.filter (· ≠ id) }
  else cache

def set (cache : ColdCache Payload) (id : String) (payload : Payload) : ColdCache Payload :=
  let entries := cache.entries.put ⟨id, payload⟩
  if (cache.entries.find? id).isNone then
    let kept := evict entries (cache.order ++ [id])
    ⟨kept.1, kept.2, cache.clock + 1, update cache.inserted id cache.clock⟩
  else { cache with entries := entries }

def get (cache : ColdCache Payload) (id : String) : Option Payload :=
  (cache.entries.find? id).map Entry.payload

def ack (cache : ColdCache Payload) (id : String) : ColdCache Payload := cache.remove id

def onFreshData (cache : ColdCache Payload) (id : String) : ColdCache Payload := cache.remove id

def contains (cache : ColdCache Payload) (id : String) : Bool := (cache.entries.find? id).isSome

def len (cache : ColdCache Payload) : Nat := cache.entries.entries.length

end ColdCache

inductive Label (Payload : Type) where
  | set (id : String) (payload : Payload)
  | ack (id : String)
  | onFreshData (id : String)

def step (cache : ColdCache Payload) : Label Payload → Option (ColdCache Payload)
  | .set id payload => some (cache.set id payload)
  | .ack id => some (cache.ack id)
  | .onFreshData id => some (cache.onFreshData id)

/-! ## The property -/

structure InStep (cache : ColdCache Payload) : Prop where
  nodup : cache.order.Nodup
  keys : ∀ id, id ∈ cache.order ↔ cache.contains id = true
  bounded : cache.len ≤ coldCacheMaxEntries

/-- What an insert does: a new key beyond the bound takes the place of the oldest one. -/
structure Inserts (cache : ColdCache Payload) (id : String) (payload : Payload)
    (next : ColdCache Payload) : Prop where
  got : next.get id = some payload
  kept : cache.contains id = true ∨ cache.len < coldCacheMaxEntries →
    ∀ other ≠ id, next.get other = cache.get other
  evicts : cache.contains id = false → cache.len = coldCacheMaxEntries → ∃ oldest,
    cache.contains oldest = true ∧ next.contains oldest = false ∧
      (∀ other ≠ oldest, cache.contains other = true →
        cache.inserted oldest < cache.inserted other) ∧
      ∀ other, other ≠ id → other ≠ oldest → next.get other = cache.get other

/-- The step does not insert the id. -/
def Leaves (id : String) : ColdCache Payload → Label Payload → Prop
  | _, .set other _ => other ≠ id
  | _, _ => True

/-! ## Steps -/

/-- The order is that of the times at which the keys came in. -/
structure Ordered (cache : ColdCache Payload) : Prop where
  sorted : cache.order.Pairwise fun first second => cache.inserted first < cache.inserted second
  keys : ∀ id, id ∈ cache.order ↔ cache.contains id = true
  past : ∀ id ∈ cache.order, cache.inserted id < cache.clock

structure Sound (cache : ColdCache Payload) : Prop extends Ordered cache where
  bounded : cache.order.length ≤ coldCacheMaxEntries

variable {cache next : ColdCache Payload} {id other : String} {payload : Payload}

theorem contains_iff :
    cache.contains id = true ↔ ∃ entry ∈ cache.entries.entries, entry.id = id := by
  unfold ColdCache.contains
  rw [Option.isSome_iff_exists]
  exact exists_congr fun _ => Table.find?_eq_some_iff

theorem Ordered.nodup (ordered : Ordered cache) : cache.order.Nodup :=
  ordered.sorted.imp fun isEarlier => mt (congrArg cache.inserted) (Nat.ne_of_lt isEarlier)

/-- The map has as many entries as the order has keys. -/
theorem Ordered.len_eq (ordered : Ordered cache) : cache.len = cache.order.length := by
  have isPerm : (cache.entries.entries.map Entry.id).Perm cache.order := by
    refine (List.perm_ext_iff_of_nodup cache.entries.nodup ordered.nodup).mpr fun id => ?_
    rw [List.mem_map, ordered.keys, contains_iff]
  exact (List.length_map _).symm.trans isPerm.length_eq

theorem empty_sound : Sound (.empty : ColdCache Payload) :=
  ⟨⟨.nil, fun _ => ⟨nofun, nofun⟩,
    nofun⟩, Nat.zero_le _⟩

theorem find?_remove (cache : ColdCache Payload) (id other : String) :
    (cache.remove id).entries.find? other =
      if other = id then none else cache.entries.find? other := by
  unfold ColdCache.remove
  split
  · exact Table.find?_remove ..
  · next notIn =>
    split_ifs with same
    · rw [same, Option.not_isSome_iff_eq_none.mp notIn]
    · rfl

theorem get_remove (cache : ColdCache Payload) (id other : String) :
    (cache.remove id).get other = if other = id then none else cache.get other := by
  unfold ColdCache.get
  rw [find?_remove]
  split_ifs <;> rfl

theorem contains_remove (cache : ColdCache Payload) (id other : String) :
    (cache.remove id).contains other = true ↔ other ≠ id ∧ cache.contains other = true := by
  unfold ColdCache.contains
  rw [find?_remove]
  split_ifs with same <;> simp [same]

/-- Removing filters the order, also of a key that is not there. -/
theorem Ordered.order_remove (ordered : Ordered cache) (id : String) :
    (cache.remove id).order = cache.order.filter (· ≠ id) := by
  unfold ColdCache.remove
  split
  · rfl
  · next notIn =>
    refine (List.filter_eq_self.mpr fun other isIn => ?_).symm
    have isOther : other ≠ id := fun same => notIn (same ▸ (ordered.keys other).mp isIn)
    exact decide_eq_true isOther

theorem Ordered.remove (ordered : Ordered cache) (id : String) : Ordered (cache.remove id) := by
  have isRest : (cache.remove id).inserted = cache.inserted ∧
      (cache.remove id).clock = cache.clock := by
    unfold ColdCache.remove
    split <;> exact ⟨rfl, rfl⟩
  refine ⟨?_, fun other => ?_, fun other isIn => ?_⟩
  · rw [ordered.order_remove, isRest.1]
    exact ordered.sorted.filter _
  · rw [ordered.order_remove, contains_remove, List.mem_filter, ordered.keys, and_comm,
      decide_eq_true_iff]
  · rw [ordered.order_remove] at isIn
    rw [isRest.1, isRest.2]
    exact ordered.past other (List.mem_filter.mp isIn).1

theorem Sound.remove (sound : Sound cache) (id : String) : Sound (cache.remove id) := by
  refine ⟨sound.toOrdered.remove id, ?_⟩
  rw [sound.order_remove]
  exact (List.length_filter_le _ _).trans sound.bounded

/-- The cache with a new key, before the loop. -/
def grown (cache : ColdCache Payload) (id : String) (payload : Payload) : ColdCache Payload :=
  ⟨cache.entries.put ⟨id, payload⟩, cache.order ++ [id], cache.clock + 1,
    update cache.inserted id cache.clock⟩

theorem get_put (entries : Entries Payload) (other : String) :
    ((entries.put ⟨id, payload⟩).find? other).map Entry.payload =
      if other = id then some payload else (entries.find? other).map Entry.payload := by
  rw [Table.find?_put]
  by_cases same : other = id
  · rw [if_pos same, if_pos same.symm]
    rfl
  · rw [if_neg same, if_neg (Ne.symm same)]

theorem contains_put (entries : Entries Payload) (other : String) :
    ((entries.put ⟨id, payload⟩).find? other).isSome = true ↔
      other = id ∨ (entries.find? other).isSome = true := by
  rw [Table.find?_put]
  by_cases same : other = id
  · simp [same]
  · simp [same, Ne.symm same]

theorem Ordered.grow (ordered : Ordered cache) (isNew : cache.contains id = false) :
    Ordered (grown cache id payload) := by
  have isOld {other : String} (isIn : other ∈ cache.order) :
      update cache.inserted id cache.clock other = cache.inserted other := by
    refine update_of_ne (fun same => ?_) _ _
    simp [same, ordered.keys, isNew] at isIn
  refine ⟨List.pairwise_append.mpr ⟨?_, List.pairwise_singleton _ _, ?_⟩, fun other => ?_,
    fun other isIn => ?_⟩
  · refine ordered.sorted.imp_of_mem fun isFirst isSecond isEarlier => ?_
    exact (isOld isFirst).trans_lt (isEarlier.trans_eq (isOld isSecond).symm)
  · intro first isFirst second isSecond
    rw [List.mem_singleton.mp isSecond]
    have isLast : (grown cache id payload).inserted id = cache.clock := update_self ..
    rw [isLast]
    exact (isOld isFirst).trans_lt (ordered.past first isFirst)
  · refine List.mem_append.trans ((or_comm.trans ?_).trans (contains_put ..).symm)
    exact or_congr List.mem_singleton (ordered.keys other)
  · obtain isIn | isIn := List.mem_append.mp isIn
    · exact (isOld isIn).trans_lt (Nat.lt_succ_of_lt (ordered.past other isIn))
    · obtain rfl := List.mem_singleton.mp isIn
      exact lt_of_eq_of_lt (update_self ..) (Nat.lt_succ_self _)

/-- The loop goes round once at most. -/
theorem evict_eq {entries : Entries Payload} {oldest : String} {order : List String}
    (isBounded : order.length ≤ coldCacheMaxEntries) : evict entries (oldest :: order) =
      if order.length = coldCacheMaxEntries then (entries.remove oldest, order)
      else (entries, oldest :: order) := by
  rw [evict, List.length_cons]
  split_ifs with isOver isFull
  · cases order with
    | nil => rfl
    | cons next order => rw [evict, if_neg (Nat.not_lt.mpr isBounded)]
  · omega
  · omega
  · rfl

/-- A key is written over; or it is new, and the oldest one goes when all places are taken. -/
theorem Sound.set_cases (sound : Sound cache) (id : String) (payload : Payload) :
    cache.contains id = true ∧
        cache.set id payload = { cache with entries := cache.entries.put ⟨id, payload⟩ } ∨
      cache.contains id = false ∧ (cache.order.length < coldCacheMaxEntries ∧
        cache.set id payload = grown cache id payload ∨
        ∃ oldest rest, cache.order = oldest :: rest ∧
          cache.order.length = coldCacheMaxEntries ∧
          cache.set id payload = (grown cache id payload).remove oldest) := by
  cases isKey : cache.contains id with
  | true =>
    refine .inl ⟨rfl, if_neg ?_⟩
    rw [Option.isNone_eq_false_iff.mpr isKey]
    exact Bool.false_ne_true
  | false =>
    have isNone : (cache.entries.find? id).isNone = true := by
      rw [Option.isNone_iff_eq_none, ← Option.isSome_eq_false_iff.trans Option.isNone_iff_eq_none]
      exact isKey
    have isSet : cache.set id payload =
        { grown cache id payload with
          entries := (evict (cache.entries.put ⟨id, payload⟩) (cache.order ++ [id])).1
          order := (evict (cache.entries.put ⟨id, payload⟩) (cache.order ++ [id])).2 } :=
      if_pos isNone
    have bounded := sound.bounded
    rw [isSet]
    cases isOrder : cache.order with
    | nil =>
      refine .inr ⟨rfl, .inl ⟨by decide, ?_⟩⟩
      simp [grown, isOrder, evict, coldCacheMaxEntries]
    | cons oldest rest =>
      have isLength : (rest ++ [id]).length = (oldest :: rest).length := by simp
      have isGrown : (grown cache id payload).order = oldest :: (rest ++ [id]) :=
        congrArg (· ++ [id]) isOrder
      have ordered : Ordered (grown cache id payload) := sound.toOrdered.grow isKey
      have nodup := ordered.nodup
      rw [isGrown] at nodup
      rw [isOrder] at bounded
      rw [List.cons_append, evict_eq (isLength.trans_le bounded), isLength]
      split_ifs with isFull
      · refine .inr ⟨rfl, .inr ⟨oldest, rest, rfl, isFull, ?_⟩⟩
        have isThere : ((grown cache id payload).entries.find? oldest).isSome = true :=
          (ordered.keys oldest).mp (isGrown ▸ List.mem_cons_self)
        have isRest : (rest ++ [id]).filter (· ≠ oldest) = rest ++ [id] :=
          List.filter_eq_self.mpr fun other isIn => decide_eq_true
            (ne_of_mem_of_not_mem isIn (List.nodup_cons.mp nodup).1)
        unfold ColdCache.remove
        rw [if_pos isThere, isGrown, List.filter_cons_of_neg (by simp), isRest]
        rfl
      · refine .inr ⟨rfl, .inl ⟨Nat.lt_of_le_of_ne bounded isFull, ?_⟩⟩
        simp [grown, isOrder]

theorem Sound.set (sound : Sound cache) (id : String) (payload : Payload) :
    Sound (cache.set id payload) := by
  obtain ⟨isKey, isSet⟩ | ⟨isNew, ⟨isRoom, isSet⟩ | ⟨oldest, rest, isOrder, isFull, isSet⟩⟩ :=
    sound.set_cases id payload
  · rw [isSet]
    refine ⟨⟨sound.sorted, fun other => (sound.keys other).trans ?_, sound.past⟩, sound.bounded⟩
    refine Iff.trans ?_ (contains_put ..).symm
    exact ⟨.inr, fun isIn => isIn.elim (fun same => same ▸ isKey) fun isOld => isOld⟩
  · rw [isSet]
    exact ⟨sound.toOrdered.grow isNew, (List.length_append ..).trans_le isRoom⟩
  · rw [isSet]
    have ordered : Ordered (grown cache id payload) := sound.toOrdered.grow isNew
    refine ⟨ordered.remove oldest, ?_⟩
    have isGrown : (grown cache id payload).order = oldest :: (rest ++ [id]) :=
      congrArg (· ++ [id]) isOrder
    rw [ordered.order_remove, isGrown, List.filter_cons_of_neg (by simp)]
    refine (List.length_filter_le _ _).trans ?_
    rw [isOrder] at isFull
    rw [← isFull, List.length_append, List.length_singleton, List.length_cons]

theorem Sound.inserts (sound : Sound cache) (id : String) (payload : Payload) :
    Inserts cache id payload (cache.set id payload) := by
  have isGrown (other : String) : (grown cache id payload).get other =
      if other = id then some payload else cache.get other := get_put cache.entries other
  obtain ⟨isKey, isSet⟩ | ⟨isNew, ⟨isRoom, isSet⟩ | ⟨oldest, rest, isOrder, isFull, isSet⟩⟩ :=
    sound.set_cases id payload
  · rw [isSet]
    refine ⟨(isGrown id).trans (if_pos rfl),
      fun _ other isOther => (isGrown other).trans (if_neg isOther), fun isNew => ?_⟩
    simp [isKey] at isNew
  · rw [isSet]
    refine ⟨(isGrown id).trans (if_pos rfl),
      fun _ other isOther => (isGrown other).trans (if_neg isOther), fun _ isFull => ?_⟩
    exact absurd (sound.len_eq.symm.trans isFull) (Nat.ne_of_lt isRoom)
  · rw [isSet]
    have isKey := (sound.keys oldest).mp (isOrder ▸ List.mem_cons_self)
    have isOther : id ≠ oldest := fun same => by
      simp [same, isKey] at isNew
    refine ⟨?_, fun isSmall => ?_, fun _ _ => ⟨oldest, isKey, ?_, fun other notSame isIn => ?_,
      fun other notId notSame => ?_⟩⟩
    · rw [get_remove, if_neg isOther, isGrown, if_pos rfl]
    · rw [isNew, sound.len_eq, isFull] at isSmall
      exact absurd isSmall (by simp)
    · exact Bool.eq_false_iff.mpr fun isIn => ((contains_remove ..).mp isIn).1 rfl
    · have sorted := sound.sorted
      have isIn := (sound.keys other).mpr isIn
      rw [isOrder] at sorted isIn
      exact (List.pairwise_cons.mp sorted).1 other ((List.mem_cons.mp isIn).resolve_left notSame)
    · rw [get_remove, if_neg notSame, isGrown, if_neg notId]

theorem step_sound {label : Label Payload} (sound : Sound cache)
    (ran : step cache label = some next) : Sound next := by
  cases label with
  | set id payload =>
    cases ran
    exact sound.set id payload
  | ack id | onFreshData id =>
    cases ran
    exact sound.remove id

theorem get_step {label : Label Payload} (sound : Sound cache) (leaves : Leaves id cache label)
    (isGone : cache.get id = none) (ran : step cache label = some next) :
    next.get id = none := by
  have removed (other : String) : (cache.remove other).get id = none := by
    rw [get_remove, isGone, ite_self]
  cases label with
  | set other payload =>
    cases ran
    have isGrown : (grown cache other payload).get id = none :=
      (get_put cache.entries id).trans ((if_neg (Ne.symm leaves)).trans isGone)
    obtain ⟨_, isSet⟩ | ⟨_, ⟨_, isSet⟩ | ⟨oldest, _, _, _, isSet⟩⟩ := sound.set_cases other payload
    · rw [isSet]
      exact isGrown
    · rw [isSet, isGrown]
    · rw [isSet, get_remove, isGrown, ite_self]
  | ack other | onFreshData other =>
    cases ran
    exact removed other

theorem get_run {later : ColdCache Payload} (sound : Sound cache) (isGone : cache.get id = none)
    (run : Run step (Leaves id) cache later) : Sound later ∧ later.get id = none := by
  induction run with
  | refl => exact ⟨sound, isGone⟩
  | tail label _ leaves ran ih =>
    exact ⟨step_sound ih.1 ran, get_step ih.1 leaves ih.2 ran⟩

/-! ## Runs -/

theorem sound_of_run (run : Reachable step .empty cache) : Sound cache :=
  run.invariant empty_sound fun _ _ _ sound _ ran => step_sound sound ran

/-- Along every run both structures are in step, an insert evicts the oldest key, and what was
acknowledged or refreshed is not returned until it is inserted again. -/
theorem coldRestoreKept (run : Reachable step .empty cache) :
    InStep cache ∧ (∀ id payload, Inserts cache id payload (cache.set id payload)) ∧
      ∀ id next, next = cache.ack id ∨ next = cache.onFreshData id →
        ∀ later, Run step (Leaves id) next later → later.get id = none := by
  have sound := sound_of_run run
  refine ⟨⟨sound.nodup, sound.keys, sound.len_eq.trans_le sound.bounded⟩, sound.inserts,
    fun id next isNext later rest => ?_⟩
  have isNext : next = cache.remove id := isNext.elim (fun isAck => isAck) fun isFresh => isFresh
  subst isNext
  exact (get_run (sound.remove id) ((get_remove ..).trans (if_pos rfl)) rest).2

/-- The first of two sessions is inserted again, and the second acknowledged. -/
theorem coldRestoreKept_inserted : ∃ cache : ColdCache Nat, Reachable step .empty cache ∧
    cache.get "a" = some 9 ∧ cache.get "b" = none ∧ InStep cache ∧
      Inserts cache "b" 10 (cache.set "b" 10) ∧
      ∀ later, Run step (Leaves "a") (cache.ack "a") later → later.get "a" = none := by
  have run : Reachable step (.empty : ColdCache Nat) _ :=
    reachable_of_execute [.set "a" 7, .set "b" 8, .set "a" 9, .ack "b"] rfl
  obtain ⟨inStep, inserts, leaves⟩ := coldRestoreKept run
  exact ⟨_, run, rfl, rfl, inStep, inserts "b" 10, leaves "a" _ (.inl rfl)⟩

/-- A session that is restored once more is returned once more. -/
theorem not_neverReturned : ¬∀ (cache : ColdCache Nat), Reachable step .empty cache →
    ∀ id later, Reachable step (cache.ack id) later → later.get id = none := by
  intro areGone
  cases areGone _ (reachable_of_execute [.set "pty" 7] rfl) "pty" _
    (reachable_of_execute [.set "pty" 8] rfl)

end AiTools.Client.ColdRestore
