import Mathlib

/-!
Contract: a list of results, each of which comes from an item of a list, in the order of the items.
-/

namespace AiTools.Lib.Attribution

variable {Item Result : Type*} (own : Item → Result → Prop) (empty : Item → Prop)

/-- Each result is its item's own, and only empty items have none. -/
inductive Shows : List Item → List Result → Prop where
  | nil : Shows [] []
  | result {item : Item} {items : List Item} {result : Result} {results : List Result}
      (isOwn : own item result) (later : Shows items results) :
      Shows (item :: items) (result :: results)
  | pass {item : Item} {items : List Item} {results : List Result} (isEmpty : empty item)
      (later : Shows items results) : Shows (item :: items) results

/-- `of` gives what an item results in. An item without a result owns none of those that are ever
given. -/
structure Lawful (of : Item → Option Result) : Prop where
  owns : ∀ item other result, of other = some result → own item result → of item ≠ none

variable {own empty} {of : Item → Option Result}

theorem shows_map_iff {Source : Type*} (toItem : Source → Item) (sources : List Source)
    (results : List Result) :
    Shows own empty (sources.map toItem) results ↔
      Shows (fun source => own (toItem source)) (fun source => empty (toItem source)) sources
        results := by
  constructor
  · intro shows
    induction sources generalizing results with
    | nil =>
      cases shows
      exact .nil
    | cons source sources ih =>
      cases shows with
      | result isOwn later => exact .result isOwn (ih _ later)
      | pass isEmpty later => exact .pass isEmpty (ih _ later)
  · intro shows
    induction shows with
    | nil => exact .nil
    | result isOwn _ ih => exact .result isOwn ih
    | pass isEmpty _ ih => exact .pass isEmpty ih

theorem filterMap_cons_some {item : Item} {result : Result} (isResult : of item = some result)
    (items : List Item) : (item :: items).filterMap of = result :: items.filterMap of :=
  List.filterMap_cons_some isResult

theorem Shows.length_le (lawful : Lawful own of) {items : List Item} {results : List Result}
    (shows : Shows own empty items results) :
    (∀ result ∈ results, ∃ item, of item = some result) →
      results.length ≤ (items.filterMap of).length := by
  induction shows with
  | nil => exact fun _ => Nat.le_refl _
  | @result item items result results isOwn _ ih =>
    intro given
    obtain ⟨other, isGiven⟩ := given result List.mem_cons_self
    have hasResult := lawful.owns item other result isGiven isOwn
    obtain ⟨found, isFound⟩ := Option.ne_none_iff_exists'.mp hasResult
    rw [filterMap_cons_some isFound]
    exact Nat.succ_le_succ (ih fun result isThere =>
      given result (List.mem_cons_of_mem _ isThere))
  | @pass item items results _ _ ih =>
    intro given
    have isLater := ih given
    cases isResult : of item with
    | none => rwa [List.filterMap_cons_none isResult]
    | some result =>
      rw [filterMap_cons_some isResult]
      exact Nat.le_succ_of_le isLater

theorem given_filterMap (items : List Item) :
    ∀ result ∈ items.filterMap of, ∃ item, of item = some result := by
  intro result isThere
  obtain ⟨item, _, isResult⟩ := List.mem_filterMap.mp isThere
  exact ⟨item, isResult⟩

theorem shows_filterMap_iff (lawful : Lawful own of) (items : List Item) :
    Shows own empty items (items.filterMap of) ↔
      ∀ item ∈ items, (∀ result, of item = some result → own item result) ∧
        (of item = none → empty item) := by
  induction items with
  | nil => exact iff_of_true .nil nofun
  | cons item items ih =>
    rw [List.forall_mem_cons, ← ih]
    cases isResult : of item with
    | none =>
      rw [List.filterMap_cons_none isResult]
      constructor
      · intro shows
        generalize isResults : items.filterMap of = results at shows ⊢
        cases shows with
        | @result _ _ result results isOwn later =>
          have isThere : result ∈ items.filterMap of := by
            rw [isResults]
            exact List.mem_cons_self
          obtain ⟨other, isGiven⟩ := given_filterMap items result isThere
          exact absurd isResult (lawful.owns item other result isGiven isOwn)
        | pass isEmpty later =>
          exact ⟨⟨nofun, fun _ => isEmpty⟩, later⟩
      · exact fun both => .pass (both.1.2 rfl) both.2
    | some result =>
      rw [filterMap_cons_some isResult]
      constructor
      · intro shows
        generalize isResults : items.filterMap of = results at shows ⊢
        cases shows with
        | result isOwn later =>
          exact ⟨⟨fun other same => Option.some.inj same ▸ isOwn,
            nofun⟩, later⟩
        | pass _ later =>
          -- A result would be left over.
          have tooMany := later.length_le lawful fun other isThere => by
            rcases List.mem_cons.mp isThere with same | isLater
            · exact ⟨item, isResult.trans (congrArg some same.symm)⟩
            · exact given_filterMap items other (isResults ▸ isLater)
          rw [isResults, List.length_cons] at tooMany
          omega
      · exact fun both => .result (both.1.1 result rfl) both.2

end AiTools.Lib.Attribution
