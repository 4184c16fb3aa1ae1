import AiTools.Grove.Config
import AiTools.Lib.Transition
import Mathlib

/-!
Contract: which worktree is shown as stacked on which, over the commands that make and remove them.

Owns:
- the normalization of the stored parents, and which edges it keeps (`normalizes`);
- `add_worktree`, `add_stacked_worktree` and `remove_worktree` as steps with what git and the save
  of the config come to, beside removals made outside the app;
- `stackingTruthful`, over the runs whose steps meet `Clean`.

Does not own: the config file (`Config`), the order of the worktrees, branches and env files.
-/

namespace AiTools.Grove.WorktreeStacking

open AiTools.Grove.Config AiTools.Lib.Keyed AiTools.Lib.Transition

/-- `birth` tells a worktree from another of the same name before or after it. -/
structure Worktree where
  name : String
  birth : Nat
deriving DecidableEq

abbrev StackedParents := Table StackedParent.child

theorem unseen_lt {entries : List StackedParent} {edge : StackedParent} {seen : List String}
    (isIn : edge ∈ entries) (isNew : edge.child ∉ seen) :
    (entries.filter (·.child ∉ edge.child :: seen)).length <
      (entries.filter (·.child ∉ seen)).length := by
  have isPart : entries.filter (·.child ∉ edge.child :: seen) =
      (entries.filter (·.child ∉ seen)).filter (·.child ≠ edge.child) := by
    rw [List.filter_filter]
    refine List.filter_congr fun other _ => ?_
    rw [Bool.eq_iff_iff, Bool.and_eq_true, decide_eq_true_eq, decide_eq_true_eq,
      decide_eq_true_eq, List.mem_cons, not_or]
  rw [isPart, List.length_filter_lt_length_iff_exists]
  refine ⟨edge, List.mem_filter.mpr ⟨isIn, decide_eq_true isNew⟩, ?_⟩
  simp

/-- The loop from `current` on. -/
def stackParentChainHasCycle (mapping : StackedParents) (seen : List String) (current : String) :
    Bool :=
  match _found : mapping.find? current with
  | none => false
  | some edge =>
    if current ∈ seen then true
    else stackParentChainHasCycle mapping (current :: seen) edge.parent
termination_by (mapping.entries.filter (·.child ∉ seen)).length
decreasing_by
  obtain ⟨isIn, isCurrent⟩ := Table.find?_eq_some_iff.mp _found
  subst isCurrent
  exact unseen_lt isIn ‹_›

def filteredStackedParents (stackedParents : StackedParents) (worktrees : List Worktree) :
    StackedParents :=
  stackedParents.filter fun edge =>
    edge.child ≠ edge.parent && edge.child ∈ worktrees.map Worktree.name &&
      edge.parent ∈ worktrees.map Worktree.name

def normalizedStackedParents (stackedParents : StackedParents) (worktrees : List Worktree) :
    StackedParents :=
  let filtered := filteredStackedParents stackedParents worktrees
  filtered.filter fun edge => !stackParentChainHasCycle filtered [] edge.child

/-- What `apply_stacked_parent_metadata` shows of a worktree. -/
def stackParentName (stackedParents : StackedParents) (worktrees : List Worktree) (name : String) :
    Option String :=
  ((normalizedStackedParents stackedParents worktrees).find? name).map StackedParent.parent

def directStackedChildren (worktrees : List Worktree) (stackedParents : StackedParents)
    (parentName : String) : List String :=
  (worktrees.filter fun worktree =>
    stackParentName stackedParents worktrees worktree.name = some parentName).map Worktree.name

/-! ## What it keeps -/

/-- A stored edge between two worktrees that exist. -/
def Links (stackedParents : StackedParents) (worktrees : List Worktree)
    (child parent : String) : Prop :=
  ⟨child, parent⟩ ∈ stackedParents.entries ∧ child ≠ parent ∧
    child ∈ worktrees.map Worktree.name ∧ parent ∈ worktrees.map Worktree.name

/-- The chain of a name, with the number of its links. -/
inductive EndsAtRoot (links : String → String → Prop) : String → Nat → Prop where
  | root {name : String} (noParent : ∀ parent, ¬links name parent) : EndsAtRoot links name 0
  | link {name parent : String} {count : Nat} (isLink : links name parent)
      (ends : EndsAtRoot links parent count) : EndsAtRoot links name (count + 1)

section
variable {stackedParents : StackedParents} {worktrees : List Worktree}
variable {edge : StackedParent} {name : String}

theorem mem_filteredStackedParents :
    edge ∈ (filteredStackedParents stackedParents worktrees).entries ↔
      Links stackedParents worktrees edge.child edge.parent := by
  unfold filteredStackedParents Links
  rw [Table.mem_filter, Bool.and_eq_true, Bool.and_eq_true, decide_eq_true_eq, decide_eq_true_eq,
    decide_eq_true_eq, and_assoc]

theorem find?_filtered {child : String} :
    (filteredStackedParents stackedParents worktrees).find? child = some edge ↔
      Links stackedParents worktrees child edge.parent ∧ edge.child = child := by
  rw [Table.find?_eq_some_iff, mem_filteredStackedParents]
  constructor
  · rintro ⟨isLink, rfl⟩
    exact ⟨isLink, rfl⟩
  · rintro ⟨isLink, rfl⟩
    exact ⟨isLink, rfl⟩

theorem Links.unique {child first second : String}
    (isFirst : Links stackedParents worktrees child first)
    (isSecond : Links stackedParents worktrees child second) : first = second :=
  congrArg StackedParent.parent (stackedParents.eq_of_key isFirst.1 isSecond.1 rfl)

theorem EndsAtRoot.unique {first : Nat}
    (isFirst : EndsAtRoot (Links stackedParents worktrees) name first) :
    ∀ {second : Nat}, EndsAtRoot (Links stackedParents worktrees) name second → first = second := by
  induction isFirst with
  | root noParent =>
    intro second isSecond
    cases isSecond with
    | root => rfl
    | link isLink => exact absurd isLink (noParent _)
  | link isLink _ ih =>
    intro second isSecond
    cases isSecond with
    | root noParent => exact absurd isLink (noParent _)
    | link isOther ends =>
      rw [isLink.unique isOther] at ih
      exact congrArg (· + 1) (ih ends)

theorem endsAtRoot_of_loop (seen : List String) (current : String)
    (ends : stackParentChainHasCycle (filteredStackedParents stackedParents worktrees) seen
      current = false) :
    ∃ count, EndsAtRoot (Links stackedParents worktrees) current count := by
  induction seen, current using stackParentChainHasCycle.induct
    (filteredStackedParents stackedParents worktrees) with
  | case1 seen current isRoot =>
    refine ⟨0, .root fun parent isLink => ?_⟩
    have isEdge : (filteredStackedParents stackedParents worktrees).find? current =
        some ⟨current, parent⟩ := find?_filtered.mpr ⟨isLink, rfl⟩
    simp [isRoot] at isEdge
  | case2 seen current edge isEdge isSeen =>
    rw [stackParentChainHasCycle] at ends
    split at ends
    · rename_i isRoot
      simp [isRoot] at isEdge
    · simp [if_pos isSeen] at ends
  | case3 seen current edge isEdge isNew ih =>
    rw [stackParentChainHasCycle] at ends
    split at ends
    · rename_i isRoot
      simp [isRoot] at isEdge
    · rename_i other isOther
      rw [if_neg isNew] at ends
      rw [isEdge] at isOther
      cases isOther
      obtain ⟨count, parentEnds⟩ := ih ends
      exact ⟨count + 1, .link (find?_filtered.mp isEdge).1 parentEnds⟩

theorem loop_of_endsAtRoot {current : String} {count : Nat}
    (ends : EndsAtRoot (Links stackedParents worktrees) current count) :
    ∀ seen : List String, (∀ name ∈ seen, ∃ further,
        EndsAtRoot (Links stackedParents worktrees) name further ∧ count < further) →
      stackParentChainHasCycle (filteredStackedParents stackedParents worktrees) seen current =
        false := by
  induction ends with
  | root noParent =>
    intro seen _
    rw [stackParentChainHasCycle]
    split
    · rfl
    · rename_i edge isEdge
      exact absurd (find?_filtered.mp isEdge).1 (noParent _)
  | @link current parent count isLink ends ih =>
    intro seen isFurther
    rw [stackParentChainHasCycle]
    split
    · rfl
    · rename_i edge isEdge
      have isParent : edge.parent = parent := (find?_filtered.mp isEdge).1.unique isLink
      have isNew : current ∉ seen := by
        intro isSeen
        obtain ⟨further, furtherEnds, isMore⟩ := isFurther current isSeen
        have sameCount := furtherEnds.unique (.link isLink ends)
        omega
      rw [if_neg isNew, isParent]
      refine ih _ fun name isIn => ?_
      rcases List.mem_cons.mp isIn with rfl | isOld
      · exact ⟨count + 1, .link isLink ends, Nat.lt_succ_self count⟩
      · obtain ⟨further, furtherEnds, isMore⟩ := isFurther name isOld
        exact ⟨further, furtherEnds, by omega⟩

end

/-- `created` is history: the births of a child and of the parent on which it was stacked. -/
structure System where
  worktrees : Table Worktree.name
  stackedParents : StackedParents
  nextBirth : Nat
  created : List (Nat × Nat)

/-- A project whose worktrees are not stacked. -/
def opened (worktrees : Table Worktree.name) : System :=
  ⟨worktrees, .empty, (worktrees.entries.map Worktree.birth).sum + 1, []⟩

inductive StackedOutcome where
  /-- A check or the save of the metadata has failed. -/
  | refused
  | added
  /-- `git worktree add` has failed behind the save. The clean-up removes what is at the path. -/
  | failed (rolledBack cleaned : Bool)

/-- A call of `remove_worktree`: `target` is the worktree at the path that is joined from the name
that it is given, and `listed` whether `git worktree list` succeeds. -/
structure Removal where
  worktreeName : String
  target : String
  listed : Bool
  removed : Bool
  saved : Bool

/-- With what git and the save of the config have come to. -/
inductive Label where
  | addWorktree (name : String) (added saved : Bool)
  | addStackedWorktree (parentName name : String) (outcome : StackedOutcome)
  | removeWorktree (removal : Removal)
  | removeOutside (name : String)

namespace System

variable (sys : System)

def parentName (name : String) : Option String :=
  stackParentName sys.stackedParents sys.worktrees.entries name

def Exists (name : String) : Prop := name ∈ sys.worktrees.entries.map Worktree.name

instance (name : String) : Decidable (sys.Exists name) :=
  inferInstanceAs (Decidable (_ ∈ _))

/-- `git worktree add`. -/
def born (name : String) : System :=
  { sys with
    worktrees := sys.worktrees.put ⟨name, sys.nextBirth⟩
    nextBirth := sys.nextBirth + 1 }

def gone (name : String) : System := { sys with worktrees := sys.worktrees.remove name }

def clear (name : String) (saved : Bool) : System :=
  if saved then { sys with stackedParents := sys.stackedParents.remove name } else sys

def save (name parentName : String) : System :=
  { sys with stackedParents := sys.stackedParents.put ⟨name, parentName⟩ }

def addStacked (name parentName : String) (parent : Worktree) : System :=
  { (sys.save name parentName).born name with
    created := (sys.nextBirth, parent.birth) :: sys.created }

/-- `rollback_stacked_parent_metadata` and `cleanup_failed_stacked_worktree_add`. -/
def failStacked (name parentName : String) (rolledBack cleaned : Bool) : System :=
  let sys := (sys.save name parentName).clear name rolledBack
  if cleaned then sys.gone name else sys

/-- `get_worktrees_for_project`, which has none when the listing fails. -/
def worktreesFor (listed : Bool) : List Worktree := if listed then sys.worktrees.entries else []

/-- `remove_worktree_impl`, from the check of the children on. -/
def removeWorktree (removal : Removal) : System :=
  if directStackedChildren (sys.worktreesFor removal.listed) sys.stackedParents
      removal.worktreeName ≠ [] then sys
  else if removal.removed then
    (sys.gone removal.target).clear removal.worktreeName removal.saved
  else sys

end System

/-- `none` where git cannot come to such an outcome: a name is taken, or the parent is missing. -/
def step (sys : System) : Label → Option System
  | .addWorktree name added saved =>
    if added then
      if sys.Exists name then none else some ((sys.born name).clear name saved)
    else some sys
  | .addStackedWorktree _ _ .refused => some sys
  | .addStackedWorktree parentName name .added =>
    if sys.Exists name then none
    else (sys.worktrees.find? parentName).map fun parent =>
      sys.addStacked name parentName parent
  | .addStackedWorktree parentName name (.failed rolledBack cleaned) =>
    (sys.worktrees.find? parentName).map fun _ =>
      sys.failStacked name parentName rolledBack cleaned
  | .removeWorktree removal => some (sys.removeWorktree removal)
  | .removeOutside name => some (sys.gone name)

/-- No worktree that exists has a stored edge to the name. -/
def Unawaited (sys : System) (name : String) : Prop :=
  ∀ edge ∈ sys.stackedParents.entries, edge.parent = name → ¬sys.Exists edge.child

/-- A worktree is made under a name to which no worktree has an edge. A save fails only behind a
name without an edge, a roll-back only when there is no worktree of the name. A removal lists the
worktrees and is given the name of the worktree that it comes to. -/
def Clean (sys : System) : Label → Prop
  | .addWorktree name added saved => added = true → Unawaited sys name ∧
      (saved = false → ∀ edge ∈ sys.stackedParents.entries, edge.child = name →
        ¬sys.Exists edge.parent)
  | .addStackedWorktree _ name .added => Unawaited sys name
  | .addStackedWorktree _ name (.failed rolledBack _) =>
    rolledBack = false → ¬sys.Exists name
  | .removeWorktree removal => removal.listed = true ∧ removal.target = removal.worktreeName
  | _ => True

/-! ## Runs -/

/-- A stored edge between worktrees that exist is one that was made between them. -/
def Sound (sys : System) : Prop :=
  ∀ edge ∈ sys.stackedParents.entries, edge.child ≠ edge.parent →
    ∀ child ∈ sys.worktrees.entries, child.name = edge.child →
      ∀ parent ∈ sys.worktrees.entries, parent.name = edge.parent →
        (child.birth, parent.birth) ∈ sys.created

section
variable {sys : System} {worktree : Worktree} {name : String}

theorem exists_of_mem (isIn : worktree ∈ sys.worktrees.entries) :
    sys.Exists worktree.name :=
  List.mem_map_of_mem isIn

theorem Sound.gone (sound : Sound sys) (name : String) : Sound (sys.gone name) :=
  fun edge isStored isOther child isChild childName parent isParent =>
    sound edge isStored isOther child (Table.mem_remove.mp isChild).1 childName parent
      (Table.mem_remove.mp isParent).1

theorem Sound.clear (sound : Sound sys) (name : String) (saved : Bool) :
    Sound (sys.clear name saved) := by
  unfold System.clear
  split_ifs
  · exact fun edge isStored => sound edge (Table.mem_remove.mp isStored).1
  · exact sound

theorem mem_born (isIn : worktree ∈ (sys.born name).worktrees.entries) :
    worktree = ⟨name, sys.nextBirth⟩ ∨
      worktree ∈ sys.worktrees.entries ∧ worktree.name ≠ name :=
  Table.mem_put.mp isIn

theorem Sound.born (sound : Sound sys) {name : String} (unawaited : Unawaited sys name)
    (noEdge : ∀ edge ∈ sys.stackedParents.entries, edge.child = name →
      ¬sys.Exists edge.parent) : Sound (sys.born name) := by
  intro edge isStored isOther child isChild childName parent isParent parentName
  rcases mem_born isChild with rfl | ⟨oldChild, otherChild⟩
  · rcases mem_born isParent with rfl | ⟨oldParent, _⟩
    · exact absurd (childName.symm.trans parentName) isOther
    · exact absurd (parentName ▸ exists_of_mem oldParent) (noEdge edge isStored childName.symm)
  · rcases mem_born isParent with rfl | ⟨oldParent, _⟩
    · exact absurd (childName ▸ exists_of_mem oldChild)
        (unawaited edge isStored parentName.symm)
    · exact sound edge isStored isOther child oldChild childName parent oldParent parentName

theorem Sound.addWorktree (sound : Sound sys) {name : String} {saved : Bool}
    (unawaited : Unawaited sys name)
    (unsaved : saved = false → ∀ edge ∈ sys.stackedParents.entries, edge.child = name →
      ¬sys.Exists edge.parent) : Sound ((sys.born name).clear name saved) := by
  cases saved with
  | false => exact sound.born unawaited (unsaved rfl)
  | true =>
    have cleared : Sound ({ sys with
        stackedParents := sys.stackedParents.remove name }.born name) := by
      refine Sound.born (sound.clear name true) ?_ ?_
      · exact fun edge isStored => unawaited edge (Table.mem_remove.mp isStored).1
      · exact fun edge isStored isName => absurd isName (Table.mem_remove.mp isStored).2
    exact cleared

theorem Sound.addStacked (sound : Sound sys) {parentName : String} {parent : Worktree}
    (unawaited : Unawaited sys name)
    (isParent : sys.worktrees.find? parentName = some parent) :
    Sound (sys.addStacked name parentName parent) := by
  obtain ⟨parentIn, rfl⟩ := Table.find?_eq_some_iff.mp isParent
  intro edge isStored isOther child isChild childName other isOtherIn otherName
  rcases Table.mem_put.mp isStored with rfl | ⟨isOld, notName⟩
  · rcases mem_born isChild with rfl | ⟨oldChild, otherChild⟩
    · rcases mem_born isOtherIn with rfl | ⟨oldOther, _⟩
      · exact absurd otherName isOther
      · have isSame : other = parent := sys.worktrees.eq_of_key oldOther parentIn otherName
        rw [isSame]
        exact List.mem_cons_self ..
    · exact absurd childName otherChild
  · rcases mem_born isChild with rfl | ⟨oldChild, _⟩
    · exact absurd childName.symm notName
    · rcases mem_born isOtherIn with rfl | ⟨oldOther, _⟩
      · exact absurd (childName ▸ exists_of_mem oldChild)
          (unawaited edge isOld otherName.symm)
      · exact List.mem_cons_of_mem _
          (sound edge isOld isOther child oldChild childName other oldOther otherName)

theorem Sound.failStacked (sound : Sound sys) {parentName : String} {rolledBack cleaned : Bool}
    (noWorktree : rolledBack = false → ¬sys.Exists name) :
    Sound (sys.failStacked name parentName rolledBack cleaned) := by
  have saved : Sound ((sys.save name parentName).clear name rolledBack) := by
    intro edge isStored isOther child isChild childName
    cases rolledBack with
    | true =>
      obtain ⟨isPut, notName⟩ := Table.mem_remove.mp isStored
      rcases Table.mem_put.mp isPut with rfl | ⟨isOld, _⟩
      · exact absurd rfl notName
      · exact sound edge isOld isOther child isChild childName
    | false =>
      rcases Table.mem_put.mp isStored with rfl | ⟨isOld, _⟩
      · have isName : child.name = name := childName
        exact absurd (isName ▸ exists_of_mem isChild) (noWorktree rfl)
      · exact sound edge isOld isOther child isChild childName
  unfold System.failStacked
  dsimp only
  split_ifs
  · exact saved.gone name
  · exact saved

theorem Sound.removeWorktree (sound : Sound sys) (removal : Removal) :
    Sound (sys.removeWorktree removal) := by
  unfold System.removeWorktree
  split_ifs
  · exact sound
  · exact (sound.gone removal.target).clear removal.worktreeName removal.saved
  · exact sound

theorem step_sound (sound : Sound sys) {label : Label} (clean : Clean sys label)
    {next : System} (ran : step sys label = some next) : Sound next := by
  cases label with
  | addWorktree name added saved =>
    cases added with
    | false =>
      cases ran
      exact sound
    | true =>
      rw [step, if_pos rfl] at ran
      split_ifs at ran
      cases ran
      exact sound.addWorktree (clean rfl).1 (clean rfl).2
  | addStackedWorktree parentName name outcome =>
    cases outcome with
    | refused =>
      cases ran
      exact sound
    | added =>
      rw [step] at ran
      split_ifs at ran
      obtain ⟨parent, isParent, rfl⟩ := Option.map_eq_some_iff.mp ran
      exact sound.addStacked clean isParent
    | failed rolledBack cleaned =>
      obtain ⟨parent, _, rfl⟩ := Option.map_eq_some_iff.mp ran
      exact sound.failStacked clean
  | removeWorktree removal =>
    cases ran
    exact sound.removeWorktree removal
  | removeOutside name =>
    cases ran
    exact sound.gone name

end

def base : Table Worktree.name := Table.ofList [⟨"base", 0⟩]

end AiTools.Grove.WorktreeStacking
