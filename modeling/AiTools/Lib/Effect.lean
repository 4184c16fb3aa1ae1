import Mathlib.Data.List.Forall2
import Mathlib.Order.Defs.Unbundled
import Mathlib.Tactic.SplitIfs

/-!
Contract: what holds after a program that reads and writes a state and can throw.

A program that throws keeps what it has written by then.
-/

namespace AiTools.Lib.Effect

variable {ε σ α β : Type}

/-- `post` holds of the result and of the state, or the program throws and `fails` holds
of the state. -/
def After (program : EStateM ε σ α) (post : α → σ → Prop) (fails : σ → Prop) (state : σ) :
    Prop :=
  match program state with
  | .ok result next => post result next
  | .error _ next => fails next

/-- Throws unless the condition holds. -/
def require (condition : Prop) [Decidable condition] (error : ε) : EStateM ε σ Unit :=
  if condition then pure () else throw error

def lift : Except ε α → EStateM ε σ α
  | .ok result => pure result
  | .error error => throw error

def ofOption (error : ε) : Option α → Except ε α
  | some result => .ok result
  | none => .error error

/-- Runs the program and drops its error. -/
def ignoring (program : EStateM ε σ α) : EStateM ε σ (Option α) := fun state =>
  match program state with
  | .ok result next => .ok (some result) next
  | .error _ next => .ok none next

section
variable {program : EStateM ε σ α} {post : α → σ → Prop} {fails : σ → Prop} {state : σ}
variable {failsToo : σ → Prop} {result : α}

theorem After.mono {weaker : α → σ → Prop} (after : After program post fails state)
    (weakens : ∀ result next, post result next → weaker result next)
    (failing : ∀ next, fails next → failsToo next) : After program weaker failsToo state := by
  unfold After at after ⊢
  cases ran : program state with
  | ok result next =>
    rw [ran] at after
    exact weakens result next after
  | error _ next =>
    rw [ran] at after
    exact failing next after

theorem After.and {postToo : α → σ → Prop} (first : After program post fails state)
    (second : After program postToo failsToo state) :
    After program (fun result next => post result next ∧ postToo result next)
      (fun next => fails next ∧ failsToo next) state := by
  unfold After at first second ⊢
  cases ran : program state with
  | ok result next | error _ next =>
    rw [ran] at first second
    exact ⟨first, second⟩

theorem After.of_forall (always : ∀ result next, post result next) (failing : ∀ next, fails next) :
    After program post fails state := by
  unfold After
  split
  · exact always _ _
  · exact failing _

theorem After.ok {next : σ} (after : After program post fails state)
    (ran : program state = .ok result next) : post result next := by
  unfold After at after
  rwa [ran] at after

@[simp] theorem after_pure :
    After (pure result : EStateM ε σ α) post fails state ↔ post result state := Iff.rfl

@[simp] theorem after_throw {error : ε} :
    After (throw error : EStateM ε σ α) post fails state ↔ fails state := Iff.rfl

@[simp] theorem after_bind {later : α → EStateM ε σ β} {postLater : β → σ → Prop} :
    After (program >>= later) postLater fails state ↔
      After program (fun result next => After (later result) postLater fails next) fails
        state := by
  have unfolded : (program >>= later) state = match program state with
      | .ok result next => later result next
      | .error error next => .error error next := rfl
  unfold After
  rw [unfolded]
  cases program state <;> rfl

@[simp] theorem after_get {post : σ → σ → Prop} :
    After (get : EStateM ε σ σ) post fails state ↔ post state state := Iff.rfl

@[simp] theorem after_modify {change : σ → σ} {post : PUnit → σ → Prop} :
    After (modify change : EStateM ε σ PUnit) post fails state ↔ post () (change state) := Iff.rfl

@[simp] theorem after_require {condition : Prop} [Decidable condition] {error : ε}
    {post : Unit → σ → Prop} :
    After (require condition error : EStateM ε σ Unit) post fails state ↔
      (condition → post () state) ∧ (¬ condition → fails state) := by
  unfold require
  by_cases holds : condition
  · simp [holds]
  · simp [holds]

theorem after_lift {value : Except ε α} (whenOk : ∀ result, value = .ok result → post result state)
    (whenError : fails state) : After (lift value : EStateM ε σ α) post fails state := by
  cases value with
  | ok result => exact whenOk result rfl
  | error error => exact whenError

theorem ofOption_eq_ok {error : ε} {value : Option α} (isOk : ofOption error value = .ok result) :
    value = some result := by
  cases value with
  | none => cases isOk
  | some found =>
    cases isOk
    rfl

@[simp] theorem after_adaptExcept {change : ε → ε} :
    After (program.adaptExcept change) post fails state ↔ After program post fails state := by
  unfold After EStateM.adaptExcept
  cases program state <;> rfl

@[simp] theorem after_ignoring {postToo : Option α → σ → Prop} :
    After (ignoring program) postToo fails state ↔
      After program (fun result next => postToo (some result) next)
        (postToo none) state := by
  unfold After ignoring
  cases program state <;> rfl

@[simp] theorem after_discard {post : PUnit → σ → Prop} : After (discard program) post fails state ↔
      After program (fun _ next => post () next) fails state := by
  have unfolded : (discard program : EStateM ε σ PUnit) state = match program state with
      | .ok _ next => .ok () next
      | .error error next => .error error next := rfl
  unfold After
  rw [unfolded]
  cases program state <;> rfl

end

variable {values : List β} {value : Except ε α} {check : β → Except ε PUnit}

theorem after_forM {body : β → EStateM ε σ PUnit} {fails : σ → Prop}
    {state : σ} (Invariant : List β → σ → Prop) (start : Invariant values state)
    (each : ∀ value rest next, Invariant (value :: rest) next →
      After (body value) (fun _ => Invariant rest) fails next) :
    After (values.forM body) (fun _ => Invariant []) fails state := by
  induction values generalizing state with
  | nil => exact start
  | cons value rest ih =>
    show After (body value >>= fun _ => rest.forM body) _ _ _
    rw [after_bind]
    exact (each value rest state start).mono (fun _ _ holds => ih holds)
      (fun _ fail => fail)

/-! ## Programs that look at errors -/

/-- Runs the program and returns its error. -/
def caught (program : EStateM ε σ α) : EStateM ε σ (Except ε α) := fun state =>
  match program state with
  | .ok result next => .ok (.ok result) next
  | .error error next => .ok (.error error) next

/-- `post` holds of the result or the error, and of the state. -/
def Ends (program : EStateM ε σ α) (post : Except ε α → σ → Prop) (state : σ) : Prop :=
  match program state with
  | .ok result next => post (.ok result) next
  | .error error next => post (.error error) next

section
variable {program : EStateM ε σ α} {post : Except ε α → σ → Prop} {state : σ}

theorem Ends.mono {weaker : Except ε α → σ → Prop} (ends : Ends program post state)
    (weakens : ∀ result next, post result next → weaker result next) :
    Ends program weaker state := by
  unfold Ends at ends ⊢
  cases ran : program state with
  | ok result next | error error next =>
    rw [ran] at ends
    exact weakens _ next ends

variable {result : α} {next : σ} {later : α → EStateM ε σ β} {postLater : Except ε β → σ → Prop}

theorem Ends.ok (ends : Ends program post state) (ran : program state = .ok result next) :
    post (.ok result) next := by
  unfold Ends at ends
  rwa [ran] at ends

theorem Ends.error {error : ε} (ends : Ends program post state)
    (ran : program state = .error error next) : post (.error error) next := by
  unfold Ends at ends
  rwa [ran] at ends

theorem Ends.and {postToo : Except ε α → σ → Prop} (first : Ends program post state)
    (second : Ends program postToo state) :
    Ends program (fun result next => post result next ∧ postToo result next) state := by
  unfold Ends at first second ⊢
  cases ran : program state with
  | ok result next | error error next =>
    rw [ran] at first second
    exact ⟨first, second⟩

theorem ends_ran (program : EStateM ε σ α) (state : σ) :
    Ends program (fun result next =>
      (∀ value, result = .ok value → program state = .ok value next) ∧
        ∀ error, result = .error error → program state = .error error next) state := by
  unfold Ends
  cases program state with
  | ok result next =>
    refine ⟨fun value same => ?_, fun error differs => ?_⟩
    · rw [Except.ok.inj same]
    · cases differs
  | error error next =>
    refine ⟨fun value differs => ?_, fun other same => ?_⟩
    · cases differs
    · rw [Except.error.inj same]

theorem Ends.exists (ends : Ends program post state) : ∃ result next, post result next := by
  unfold Ends at ends
  split at ends
  · exact ⟨_, _, ends⟩
  · exact ⟨_, _, ends⟩

theorem Ends.of_run {other : EStateM ε σ α} {middle : σ} (ends : Ends other post middle)
    (sameRun : program state = other middle) : Ends program post state := by
  unfold Ends at ends ⊢
  rw [sameRun]
  exact ends

theorem bind_of_ok (ran : program state = .ok result next) :
    (program >>= later) state = later result next := by
  show EStateM.bind _ _ _ = _
  unfold EStateM.bind
  rw [ran]

theorem caught_of_error {error : ε} (ran : program state = .error error next) :
    caught program state = .ok (.error error) next := by
  unfold caught
  rw [ran]

@[simp] theorem ends_pure :
    Ends (pure result : EStateM ε σ α) post state ↔ post (.ok result) state := Iff.rfl

@[simp] theorem ends_throw {error : ε} :
    Ends (throw error : EStateM ε σ α) post state ↔ post (.error error) state := Iff.rfl

@[simp] theorem ends_set {post : Except ε PUnit → σ → Prop} :
    Ends (set next : EStateM ε σ PUnit) post state ↔ post (.ok ()) next := Iff.rfl

theorem Ends.bind (ends : Ends program post state)
    (whenOk : ∀ result next, post (.ok result) next → Ends (later result) postLater next)
    (whenError : ∀ error next, post (.error error) next → postLater (.error error) next) :
    Ends (program >>= later) postLater state := by
  have unfolded : (program >>= later) state = match program state with
      | .ok result next => later result next
      | .error error next => .error error next := rfl
  unfold Ends at ends ⊢
  rw [unfolded]
  cases ran : program state with
  | ok result next =>
    rw [ran] at ends
    exact whenOk result next ends
  | error error next =>
    rw [ran] at ends
    exact whenError error next ends

theorem ends_get_bind {later : σ → EStateM ε σ β} :
    Ends (get >>= later) postLater state ↔ Ends (later state) postLater state := Iff.rfl

theorem ends_modify_bind {change : σ → σ} {later : PUnit → EStateM ε σ β} :
    Ends (modify change >>= later) postLater state ↔
      Ends (later ()) postLater (change state) := Iff.rfl

theorem Ends.caught_bind {later : Except ε α → EStateM ε σ β} (ends : Ends program post state)
    (each : ∀ result next, post result next → Ends (later result) postLater next) :
    Ends (caught program >>= later) postLater state := by
  have unfolded : (caught program >>= later) state = match program state with
      | .ok result next => later (.ok result) next
      | .error error next => later (.error error) next := by
    show EStateM.bind _ _ _ = _
    unfold EStateM.bind caught
    cases program state <;> rfl
  unfold Ends at ends ⊢
  rw [unfolded]
  cases ran : program state with
  | ok result next | error error next =>
    rw [ran] at ends
    exact each _ next ends

end

/-- The program leads to a related state, whether it returns or throws. -/
def Relates (related : σ → σ → Prop) (program : EStateM ε σ α) : Prop :=
  ∀ state, After program (fun _ => related state) (related state) state

section
variable {related : σ → σ → Prop} {program : EStateM ε σ α}

theorem Relates.bind [IsTrans σ related] {later : α → EStateM ε σ β}
    (first : Relates related program) (second : ∀ result, Relates related (later result)) :
    Relates related (program >>= later) := by
  intro state
  rw [after_bind]
  refine (first state).mono ?_ (fun _ holds => holds)
  intro result middle before
  exact (second result middle).mono (fun _ _ => Trans.trans before) (fun _ => Trans.trans before)

theorem Relates.ignoring (relates : Relates related program) :
    Relates related (ignoring program) := fun state => after_ignoring.mpr (relates state)

theorem Relates.discard (relates : Relates related program) :
    Relates related (discard program) := fun state => after_discard.mpr (relates state)

variable [Std.Refl related]

theorem Relates.pure (result : α) : Relates related (pure result : EStateM ε σ α) :=
  fun state => refl state

theorem Relates.get : Relates related (get : EStateM ε σ σ) := fun state => refl state

theorem Relates.throw (error : ε) : Relates related (throw error : EStateM ε σ α) :=
  fun state => refl state

theorem Relates.lift (value : Except ε α) : Relates related (lift value : EStateM ε σ α) :=
  fun state => after_lift (fun _ _ => refl state) (refl state)

theorem Relates.require (condition : Prop) [Decidable condition] (error : ε) :
    Relates related (require condition error : EStateM ε σ Unit) :=
  fun state => after_require.mpr ⟨fun _ => refl state, fun _ => refl state⟩

theorem Relates.forM [IsTrans σ related] {body : β → EStateM ε σ PUnit}
    (each : ∀ value, Relates related (body value)) : Relates related (values.forM body) := by
  intro state
  refine after_forM (fun _ => related state) (refl state) ?_
  intro value _ next before
  exact (each value next).mono (fun _ _ => Trans.trans before) (fun _ => Trans.trans before)

end

theorem Relates.modify {related : σ → σ → Prop} {change : σ → σ}
    (changes : ∀ state, related state (change state)) :
    Relates related (modify change : EStateM ε σ PUnit) := fun state => changes state

/-- An error unless the condition holds. -/
def demand (condition : Prop) [Decidable condition] (error : ε) : Except ε Unit :=
  if condition then .ok () else .error error

theorem demand_eq_ok {condition : Prop} [Decidable condition] {error : ε} {result : Unit}
    (isOk : demand condition error = .ok result) : condition := by
  unfold demand at isOk
  split_ifs at isOk with holds
  exact holds

theorem except_bind_eq_ok {later : α → Except ε β} {result : β}
    (isOk : (value >>= later) = .ok result) :
    ∃ middle, value = .ok middle ∧ later middle = .ok result := by
  cases value with
  | error error => cases isOk
  | ok middle => exact ⟨middle, rfl, isOk⟩

theorem forM_eq_ok {result : PUnit} (isOk : values.forM check = .ok result) :
    ∀ value ∈ values, check value = .ok () := by
  induction values with
  | nil => exact nofun
  | cons first rest ih =>
    have unfolded : (check first >>= fun _ => rest.forM check) = .ok result := isOk
    obtain ⟨_, isFirst, isLater⟩ := except_bind_eq_ok unfolded
    intro value member
    rcases List.mem_cons.mp member with isHead | isRest
    · rw [isHead]
      exact isFirst
    · exact ih isLater value isRest

theorem forM_of_ok (areOk : ∀ value ∈ values, check value = .ok ()) :
    values.forM check = .ok () := by
  induction values with
  | nil => rfl
  | cons first rest ih =>
    show (check first >>= fun _ => rest.forM check) = .ok ()
    rw [areOk first List.mem_cons_self]
    exact ih fun value member => areOk value (List.mem_cons_of_mem _ member)

theorem mapM_eq_ok {values : List α} {each : α → Except ε β} {results : List β}
    (isOk : values.mapM each = .ok results) :
    List.Forall₂ (fun value result => each value = .ok result) values results := by
  induction values generalizing results with
  | nil =>
    cases isOk
    exact .nil
  | cons first rest ih =>
    rw [List.mapM_cons] at isOk
    obtain ⟨result, isFirst, isOk⟩ := except_bind_eq_ok isOk
    obtain ⟨later, isLater, isOk⟩ := except_bind_eq_ok isOk
    cases isOk
    exact .cons isFirst (ih isLater)

theorem mapError_eq_ok {change : ε → ε} {result : α} (isOk : value.mapError change = .ok result) :
    value = .ok result := by
  cases value with
  | error error => cases isOk
  | ok found =>
    cases isOk
    rfl

end AiTools.Lib.Effect
