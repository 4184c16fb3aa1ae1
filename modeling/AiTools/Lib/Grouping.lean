import Mathlib.Data.List.Induction
import Mathlib.Data.List.Nodup
import Mathlib.Tactic.SplitIfs

/-!
Contract: items put under their keys, in a map that keeps the order of its keys.
-/

namespace AiTools.Lib.Grouping

variable {Item Key : Type*}

/-- What a map of groups holds of the items. -/
structure Groups (keyOf : Item → Option Key) (items : List Item)
    (groups : List (Key × List Item)) : Prop where
  distinct : (groups.map Prod.fst).Nodup
  covers : ∀ item ∈ items, ∀ key, keyOf item = some key → key ∈ groups.map Prod.fst
  filled : ∀ key grouped, (key, grouped) ∈ groups → grouped ≠ []
  members : ∀ key grouped, (key, grouped) ∈ groups →
    ∀ item, item ∈ grouped ↔ item ∈ items ∧ keyOf item = some key

variable {keyOf : Item → Option Key} {items : List Item} {groups : List (Key × List Item)}
  {item : Item} {key : Key}

theorem Groups.skip (isGroups : Groups keyOf items groups) (noKey : keyOf item = none) :
    Groups keyOf (items ++ [item]) groups := by
  have notItem : ∀ key, keyOf item ≠ some key := fun key isKey => by
    rw [noKey] at isKey
    cases isKey
  refine ⟨isGroups.distinct, ?_, isGroups.filled, ?_⟩
  · intro other member key isKey
    rcases List.mem_append.mp member with isEarlier | isLast
    · exact isGroups.covers other isEarlier key isKey
    · rw [List.mem_singleton.mp isLast] at isKey
      exact absurd isKey (notItem key)
  · intro key grouped member other
    rw [isGroups.members key grouped member, List.mem_append, List.mem_singleton]
    constructor
    · rintro ⟨isItem, hasKey⟩
      exact ⟨.inl isItem, hasKey⟩
    · rintro ⟨isItem | rfl, hasKey⟩
      · exact ⟨isItem, hasKey⟩
      · exact absurd hasKey (notItem key)

variable [DecidableEq Key]

/-- Behind the items of its key, or in a new entry behind all others. -/
def push (key : Key) (item : Item) : List (Key × List Item) → List (Key × List Item)
  | [] => [(key, [item])]
  | (other, items) :: later =>
    if other = key then (other, items ++ [item]) :: later
    else (other, items) :: push key item later

def group (keyOf : Item → Option Key) (items : List Item) : List (Key × List Item) :=
  items.foldl (fun groups item =>
    match keyOf item with
    | some key => push key item groups
    | none => groups) []

theorem mem_push {other : Key} (distinct : (groups.map Prod.fst).Nodup)
    (member : (other, items) ∈ push key item groups) :
    other ≠ key ∧ (other, items) ∈ groups ∨
      other = key ∧ ((∃ earlier, (key, earlier) ∈ groups ∧ items = earlier ++ [item]) ∨
        key ∉ groups.map Prod.fst ∧ items = [item]) := by
  induction groups with
  | nil =>
    cases List.mem_singleton.mp member
    exact .inr ⟨rfl, .inr ⟨List.not_mem_nil, rfl⟩⟩
  | cons entry later ih =>
    obtain ⟨first, earlier⟩ := entry
    rw [List.map_cons, List.nodup_cons] at distinct
    unfold push at member
    split at member
    · rename_i isKey
      subst isKey
      rcases List.mem_cons.mp member with isFirst | isLater
      · cases isFirst
        exact .inr ⟨rfl, .inl ⟨earlier, List.mem_cons_self, rfl⟩⟩
      · refine .inl ⟨?_, List.mem_cons_of_mem _ isLater⟩
        rintro rfl
        exact distinct.1 (List.mem_map.mpr ⟨_, isLater, rfl⟩)
    · rename_i notKey
      rcases List.mem_cons.mp member with isFirst | isLater
      · cases isFirst
        exact .inl ⟨notKey, List.mem_cons_self⟩
      · rcases ih distinct.2 isLater with
          ⟨isOther, old⟩ | ⟨same, ⟨before, old, isItems⟩ | ⟨isNew, isItems⟩⟩
        · exact .inl ⟨isOther, List.mem_cons_of_mem _ old⟩
        · exact .inr ⟨same, .inl ⟨before, List.mem_cons_of_mem _ old, isItems⟩⟩
        · refine .inr ⟨same, .inr ⟨?_, isItems⟩⟩
          rw [List.map_cons, List.mem_cons, not_or]
          exact ⟨Ne.symm notKey, isNew⟩

theorem keys_push (key : Key) (item : Item) (groups : List (Key × List Item)) :
    (push key item groups).map Prod.fst = if key ∈ groups.map Prod.fst then groups.map Prod.fst
      else groups.map Prod.fst ++ [key] := by
  induction groups with
  | nil => rfl
  | cons entry later ih =>
    obtain ⟨first, earlier⟩ := entry
    unfold push
    by_cases isFirst : first = key
    · simp [isFirst]
    · rw [if_neg isFirst, List.map_cons, ih]
      split_ifs with isLater <;> simp_all [Ne.symm isFirst]

theorem Groups.push (isGroups : Groups keyOf items groups) (isKey : keyOf item = some key) :
    Groups keyOf (items ++ [item]) (push key item groups) := by
  have distinct := isGroups.distinct
  constructor
  case distinct =>
    rw [keys_push]
    split_ifs with isOld
    · exact distinct
    · rw [List.nodup_append]
      refine ⟨distinct, List.nodup_singleton key, ?_⟩
      intro other isOther last isLast same
      rw [same, List.mem_singleton.mp isLast] at isOther
      exact isOld isOther
  case covers =>
    intro other member otherKey isOtherKey
    rw [keys_push]
    rcases List.mem_append.mp member with isEarlier | isLast
    · have isOld := isGroups.covers other isEarlier otherKey isOtherKey
      split_ifs
      · exact isOld
      · exact List.mem_append_left _ isOld
    · rw [List.mem_singleton.mp isLast, isKey] at isOtherKey
      cases isOtherKey
      split_ifs with isOld
      · exact isOld
      · simp
  case filled =>
    intro other grouped member
    rcases mem_push distinct member with ⟨_, old⟩ | ⟨_, ⟨earlier, _, rfl⟩ | ⟨_, rfl⟩⟩
    · exact isGroups.filled other grouped old
    · simp
    · simp
  case members =>
    intro other grouped member found
    rw [List.mem_append, List.mem_singleton]
    rcases mem_push distinct member with
      ⟨isOther, old⟩ | ⟨same, ⟨earlier, isEarlier, rfl⟩ | ⟨isNew, rfl⟩⟩
    · rw [isGroups.members other grouped old]
      constructor
      · rintro ⟨isItem, hasKey⟩
        exact ⟨.inl isItem, hasKey⟩
      · rintro ⟨isItem | rfl, hasKey⟩
        · exact ⟨isItem, hasKey⟩
        · rw [isKey] at hasKey
          exact absurd (Option.some.inj hasKey).symm isOther
    · subst same
      rw [List.mem_append, List.mem_singleton, isGroups.members _ _ isEarlier]
      constructor
      · rintro (⟨isItem, hasKey⟩ | rfl)
        · exact ⟨.inl isItem, hasKey⟩
        · exact ⟨.inr rfl, isKey⟩
      · rintro ⟨isItem | isLast, hasKey⟩
        · exact .inl ⟨isItem, hasKey⟩
        · exact .inr isLast
    · subst same
      rw [List.mem_singleton]
      constructor
      · rintro rfl
        exact ⟨.inr rfl, isKey⟩
      · rintro ⟨isItem | isLast, hasKey⟩
        · exact absurd (isGroups.covers found isItem _ hasKey) isNew
        · exact isLast

theorem group_groups (keyOf : Item → Option Key) (items : List Item) :
    Groups keyOf items (group keyOf items) := by
  unfold group
  induction items using List.reverseRecOn with
  | nil => exact ⟨List.nodup_nil, by simp, by simp, by simp⟩
  | append_singleton earlier item ih =>
    rw [List.foldl_concat]
    cases isKey : keyOf item with
    | none => exact ih.skip isKey
    | some key => exact ih.push isKey

end AiTools.Lib.Grouping
