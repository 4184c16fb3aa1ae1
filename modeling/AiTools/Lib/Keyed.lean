import Mathlib.Data.List.Induction
import Mathlib.Data.List.Nodup

/-!
Contract: records that carry the key under which they are stored.

Owns:
- `Table`, a list of records whose keys are all different;
- the lookup, the write and the removal of a record, and what a lookup finds after
  each;
- the table of a list, in which a later record replaces an earlier one.
-/

namespace AiTools.Lib.Keyed

variable {Record Key : Type*}

structure Table (key : Record → Key) where
  entries : List Record
  nodup : (entries.map key).Nodup

variable {key : Record → Key}

namespace Table

theorem filter_nodup (table : Table key) (keeps : Record → Bool) :
    ((table.entries.filter keeps).map key).Nodup :=
  table.nodup.sublist (List.filter_sublist.map key)

theorem entries_nodup (table : Table key) : table.entries.Nodup := .of_map _ table.nodup

theorem eq_of_key (table : Table key) {first second : Record} (isFirst : first ∈ table.entries)
    (isSecond : second ∈ table.entries) (same : key first = key second) : first = second :=
  List.inj_on_of_nodup_map table.nodup isFirst isSecond same

def empty : Table key := ⟨[], List.nodup_nil⟩

def filter (table : Table key) (keeps : Record → Bool) : Table key :=
  ⟨table.entries.filter keeps, table.filter_nodup keeps⟩

variable {table : Table key} {record : Record} {wanted : Key} {records : List Record}

@[simp] theorem mem_filter {keeps : Record → Bool} :
    record ∈ (table.filter keeps).entries ↔ record ∈ table.entries ∧ keeps record = true :=
  List.mem_filter

variable [DecidableEq Key]

theorem put_nodup (table : Table key) (record : Record) :
    ((record :: table.entries.filter fun other => key other ≠ key record).map key).Nodup := by
  rw [List.map_cons, List.nodup_cons]
  constructor
  · intro member
    obtain ⟨other, isOther, same⟩ := List.mem_map.mp member
    have different := (List.mem_filter.mp isOther).2
    simp [same] at different
  · exact table.filter_nodup _

def find? (table : Table key) (wanted : Key) : Option Record :=
  table.entries.find? fun record => key record = wanted

/-- Writes the record over the one that has its key. -/
def put (table : Table key) (record : Record) : Table key :=
  ⟨record :: table.entries.filter fun other => key other ≠ key record, table.put_nodup record⟩

def remove (table : Table key) (gone : Key) : Table key :=
  table.filter fun record => key record ≠ gone

@[simp] theorem find?_empty (wanted : Key) : (empty : Table key).find? wanted = none := rfl

theorem find?_eq_some_iff :
    table.find? wanted = some record ↔ record ∈ table.entries ∧ key record = wanted := by
  unfold find?
  constructor
  · intro found
    exact ⟨List.mem_of_find?_eq_some found, by simpa using List.find?_some found⟩
  · rintro ⟨member, isKey⟩
    cases found : table.entries.find? fun other => key other = wanted with
    | none =>
      have never := List.find?_eq_none.mp found record member
      simp [isKey] at never
    | some other =>
      have isOther : key other = wanted := by simpa using List.find?_some found
      have same := table.eq_of_key (List.mem_of_find?_eq_some found) member
        (isOther.trans isKey.symm)
      rw [same]

theorem find?_eq_none_iff :
    table.find? wanted = none ↔ ∀ record ∈ table.entries, key record ≠ wanted := by
  unfold find?
  rw [List.find?_eq_none]
  simp

@[simp] theorem mem_put {other : Record} : other ∈ (table.put record).entries ↔
      other = record ∨ other ∈ table.entries ∧ key other ≠ key record := by
  unfold put
  simp

@[simp] theorem mem_remove {gone : Key} :
    record ∈ (table.remove gone).entries ↔ record ∈ table.entries ∧ key record ≠ gone := by
  unfold remove
  simp

theorem find?_put (table : Table key) (record : Record) (wanted : Key) :
    (table.put record).find? wanted = if key record = wanted then some record
      else table.find? wanted := by
  split_ifs with same
  · rw [find?_eq_some_iff]
    exact ⟨mem_put.mpr (.inl rfl), same⟩
  · cases found : table.find? wanted with
    | none =>
      rw [find?_eq_none_iff] at found ⊢
      intro other member
      rcases mem_put.mp member with isRecord | ⟨isOld, _⟩
      · rw [isRecord]
        exact same
      · exact found other isOld
    | some other =>
      rw [find?_eq_some_iff] at found ⊢
      refine ⟨mem_put.mpr (.inr ⟨found.1, ?_⟩), found.2⟩
      rw [found.2]
      exact Ne.symm same

theorem find?_remove (table : Table key) (gone wanted : Key) :
    (table.remove gone).find? wanted = if wanted = gone then none else table.find? wanted := by
  split_ifs with isGone
  · rw [find?_eq_none_iff]
    intro record member isWanted
    exact (mem_remove.mp member).2 (isWanted.trans isGone)
  · cases found : table.find? wanted with
    | none =>
      rw [find?_eq_none_iff] at found ⊢
      exact fun record member => found record (mem_remove.mp member).1
    | some record =>
      rw [find?_eq_some_iff] at found ⊢
      refine ⟨mem_remove.mpr ⟨found.1, ?_⟩, found.2⟩
      rw [found.2]
      exact isGone

/-- The records in turn. -/
def ofList (records : List Record) : Table key := records.foldl put empty

theorem ofList_concat (records : List Record) (record : Record) :
    (ofList (records ++ [record]) : Table key) = (ofList records).put record := by
  unfold ofList
  rw [List.foldl_concat]

theorem mem_of_mem_ofList (member : record ∈ (ofList records : Table key).entries) :
    record ∈ records := by
  induction records using List.reverseRecOn with
  | nil => exact absurd member List.not_mem_nil
  | append_singleton records last ih =>
    rw [ofList_concat, mem_put] at member
    rcases member with isLast | ⟨isEarlier, _⟩
    · exact List.mem_append_right _ (List.mem_singleton.mpr isLast)
    · exact List.mem_append_left _ (ih isEarlier)

theorem mem_ofList (distinct : (records.map key).Nodup) :
    record ∈ (ofList records : Table key).entries ↔ record ∈ records := by
  refine ⟨mem_of_mem_ofList, ?_⟩
  induction records using List.reverseRecOn with
  | nil => exact fun member => absurd member List.not_mem_nil
  | append_singleton records last ih =>
    intro member
    rw [List.map_append, List.nodup_append] at distinct
    obtain ⟨earlier, _, different⟩ := distinct
    rw [ofList_concat, mem_put]
    rcases List.mem_append.mp member with isEarlier | isLast
    · refine .inr ⟨ih earlier isEarlier, ?_⟩
      exact different _ (List.mem_map_of_mem isEarlier) _ (List.mem_map_of_mem (by simp))
    · exact .inl (List.mem_singleton.mp isLast)

theorem find?_ofList_map {change : Record → Record} (permutation : records.Perm table.entries)
    (keeps : ∀ record ∈ table.entries, key (change record) = key record) (wanted : Key) :
    (ofList (records.map change) : Table key).find? wanted = (table.find? wanted).map change := by
  have sameKeys : (records.map change).map key = records.map key := by
    rw [List.map_map]
    exact List.map_congr_left fun record member => keeps record (permutation.mem_iff.mp member)
  have distinct : ((records.map change).map key).Nodup := by
    rw [sameKeys]
    exact (permutation.map key).nodup_iff.mpr table.nodup
  cases found : table.find? wanted with
  | none =>
    rw [find?_eq_none_iff] at found
    rw [Option.map_none, find?_eq_none_iff]
    intro changed member
    obtain ⟨record, isRecord, rfl⟩ := List.mem_map.mp (mem_of_mem_ofList member)
    have isStored := permutation.mem_iff.mp isRecord
    rw [keeps record isStored]
    exact found record isStored
  | some record =>
    obtain ⟨isStored, isWanted⟩ := find?_eq_some_iff.mp found
    rw [Option.map_some, find?_eq_some_iff, mem_ofList distinct]
    exact ⟨List.mem_map_of_mem (permutation.mem_iff.mpr isStored),
      (keeps record isStored).trans isWanted⟩

end Table

end AiTools.Lib.Keyed
