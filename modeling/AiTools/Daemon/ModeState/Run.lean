import AiTools.Daemon.ModeState.Scan
import Mathlib.Data.List.Forall2
import Mathlib.Data.List.TakeWhile

/-!
Contract: the automaton one byte at a time.
-/

namespace AiTools.Daemon.ModeState

/-- One byte of plain text, or the ESC that ends it. -/
def Walk.onText (walk : Walk) (code : UInt8) : Walk :=
  if code = escByte then { walk with seqStart := walk.seen.length, state := .esc }
  else { walk with self := walk.self.countBells [code] }

def Walk.step (offset : Nat → Nat) (walk : Walk) (code : UInt8) : Walk :=
  { (if walk.state = .ground then walk.onText code else walk.onCode offset code) with
    seen := walk.seen ++ [code] }

/-- The automaton on a stream, from the ground. -/
def run (offset : Nat → Nat) (self : State) (bytes : Bytes) : Walk :=
  bytes.foldl (Walk.step offset) (Walk.fresh self)

theorem countBells_cons (self : State) (code : UInt8) (later : Bytes) :
    (self.countBells [code]).countBells later = self.countBells (code :: later) := by
  have count : countBel (code :: later) = countBel [code] + countBel later := by
    unfold countBel
    by_cases isBel : code = belByte
    · simp [isBel, Nat.add_comm]
    · simp [isBel]
  unfold State.countBells
  rw [count, UInt32.add_assoc]

theorem foldl_step_text (offset : Nat → Nat) {text : Bytes} :
    ∀ {walk : Walk}, walk.state = .ground → (∀ code ∈ text, code ≠ escByte) →
      text.foldl (Walk.step offset) walk =
        { walk with self := walk.self.countBells text, seen := walk.seen ++ text } := by
  induction text with
  | nil =>
    intro walk _ _
    simp [State.countBells, countBel]
  | cons code later ih =>
    intro walk ground noEsc
    have notEsc : code ≠ escByte := noEsc code List.mem_cons_self
    have first : walk.step offset code =
        { walk with self := walk.self.countBells [code], seen := walk.seen ++ [code] } := by
      unfold Walk.step Walk.onText
      rw [if_pos ground, if_neg notEsc]
    have isGround : (walk.step offset code).state = .ground := by
      rw [first]
      exact ground
    rw [List.foldl_cons, ih isGround
      fun other member => noEsc other (List.mem_cons_of_mem _ member), first]
    dsimp only
    rw [countBells_cons, List.append_assoc]
    rfl

theorem loop_eq_foldl (offset : Nat → Nat) (fuel : Nat) :
    ∀ {walk : Walk} {bytes : Bytes}, bytes.length ≤ fuel →
      Walk.loop offset fuel walk bytes = bytes.foldl (Walk.step offset) walk := by
  induction fuel with
  | zero =>
    intro walk bytes short
    rw [List.length_eq_zero_iff.mp (Nat.le_zero.mp short)]
    rfl
  | succ fuel ih =>
    intro walk bytes short
    cases bytes with
    | nil => rfl
    | cons code rest =>
      have restShort : rest.length ≤ fuel := Nat.le_of_succ_le_succ short
      rw [Walk.loop]
      split
      case isTrue ground =>
        have text : ∀ other ∈ (code :: rest).takeWhile (· ≠ escByte), other ≠ escByte := by
          intro other member
          simpa using List.mem_takeWhile_imp member
        have cut : (code :: rest).takeWhile (· ≠ escByte) ++
            (code :: rest).dropWhile (· ≠ escByte) = code :: rest :=
          List.takeWhile_append_dropWhile
        conv_rhs => rw [← cut, List.foldl_append, foldl_step_text offset ground text]
        cases isTail : (code :: rest).dropWhile (· ≠ escByte) with
        | nil => rfl
        | cons first later =>
          have isEsc : first = escByte := by
            have notEmpty : (code :: rest).dropWhile (· ≠ escByte) ≠ [] := by
              rw [isTail]
              exact List.cons_ne_nil _ _
            have stops := List.head_dropWhile_not (· ≠ escByte) notEmpty
            simp only [isTail, List.head_cons] at stops
            simpa using stops
          have laterShort : later.length ≤ fuel := by
            have lengths := congrArg List.length cut
            rw [isTail, List.length_append, List.length_cons, List.length_cons] at lengths
            omega
          dsimp only
          rw [ih laterShort, List.foldl_cons]
          congr 1
          unfold Walk.step Walk.onText
          rw [if_pos ground, if_pos isEsc]
      case isFalse pending =>
        rw [ih restShort, List.foldl_cons]
        congr 1
        unfold Walk.step
        rw [if_neg pending]

theorem walk_eq_run (self : State) (bytes : Bytes) (map : ChunkMap) :
    walk self bytes map = run map.offset self bytes :=
  loop_eq_foldl map.offset bytes.length (Nat.le_refl _)

theorem foldl_step_seen (offset : Nat → Nat) (bytes : Bytes) (walk : Walk) :
    (bytes.foldl (Walk.step offset) walk).seen = walk.seen ++ bytes := by
  induction bytes generalizing walk with
  | nil => simp
  | cons code later ih =>
    rw [List.foldl_cons, ih]
    simp [Walk.step]

/-! ## Two runs side by side -/

section
variable {related : Nat × Split → Nat × Split → Prop}

theorem setPrivateMode_related {enabled : Bool} {wholeStart start : Nat} {params : List UInt32}
    (snapshot : related (wholeStart, .snapshotPrimary) (start, .snapshotPrimary)) :
    ∀ {self : State} {wholeOut out : List (Nat × Split)}, List.Forall₂ related wholeOut out →
      (params.foldl (setPrivateMode enabled wholeStart) (self, wholeOut)).1 =
          (params.foldl (setPrivateMode enabled start) (self, out)).1 ∧
        List.Forall₂ related (params.foldl (setPrivateMode enabled wholeStart) (self, wholeOut)).2
          (params.foldl (setPrivateMode enabled start) (self, out)).2 := by
  induction params with
  | nil => exact fun outs => ⟨rfl, outs⟩
  | cons param later ih =>
    intro self wholeOut out outs
    have pushed : List.Forall₂ related (wholeOut ++ [(wholeStart, .snapshotPrimary)])
        (out ++ [(start, .snapshotPrimary)]) :=
      List.rel_append outs (.cons snapshot .nil)
    rw [List.foldl_cons, List.foldl_cons]
    unfold setPrivateMode
    dsimp only
    split_ifs
    · exact ih outs
    · exact ih outs
    · exact ih pushed
    · exact ih outs
    · exact ih outs

/-- A control sequence does the same wherever it stands, and reports its splits at its
own place. -/
theorem applyCsi_related {self : State} {marker : Option UInt8} {params : Bytes}
    {finalByte : UInt8} {wholeStart wholeEnd start end_ : Nat}
    (snapshot : related (wholeStart, .snapshotPrimary) (start, .snapshotPrimary))
    (capture : related (wholeEnd, .captureSavedCursor) (end_, .captureSavedCursor)) :
    (applyCsi self marker params finalByte wholeStart wholeEnd).1 =
        (applyCsi self marker params finalByte start end_).1 ∧
      List.Forall₂ related (applyCsi self marker params finalByte wholeStart wholeEnd).2
        (applyCsi self marker params finalByte start end_).2 := by
  unfold applyCsi
  dsimp only
  split_ifs
  · exact setPrivateMode_related snapshot .nil
  all_goals first
    | exact ⟨rfl, .nil⟩
    | exact ⟨rfl, .cons capture .nil⟩

end

/-- The states whose sequence has a body. -/
def ScanState.HasBody (state : ScanState) : Prop :=
  state = .csi ∨ state = .osc ∨ state = .oscEsc

/-- The first walk has seen `shift` bytes more, in front, and reported `earlier` there.
What the walks no longer read may differ. -/
structure Aligned (related : Nat × Split → Nat × Split → Prop) (shift : Nat)
    (earlier : List (Nat × Split)) (whole part : Walk) : Prop where
  self : whole.self = part.self
  out : ∃ later, whole.out = earlier ++ later ∧ List.Forall₂ related later part.out
  seen : ∃ front, front.length = shift ∧ whole.seen = front ++ part.seen

structure Follows (related : Nat × Split → Nat × Split → Prop) (shift : Nat)
    (earlier : List (Nat × Split)) (whole part : Walk) : Prop
    extends Aligned related shift earlier whole part where
  state : whole.state = part.state
  seqStart : part.state ≠ .ground →
    whole.seqStart = part.seqStart + shift ∧ part.seqStart < part.seen.length
  bodyStart : part.state.HasBody → whole.bodyStart = part.bodyStart + shift

section
variable {related : Nat × Split → Nat × Split → Prop} {shift : Nat} {earlier : List (Nat × Split)}
  {whole part : Walk} {wholeOffset offset : Nat → Nat}

theorem Aligned.length (aligned : Aligned related shift earlier whole part) :
    whole.seen.length = part.seen.length + shift := by
  obtain ⟨front, isLength, isSeen⟩ := aligned.seen
  rw [isSeen, List.length_append, isLength, Nat.add_comm]

theorem Aligned.read (aligned : Aligned related shift earlier whole part) (code : UInt8) :
    ∃ front, front.length = shift ∧ whole.seen ++ [code] = front ++ (part.seen ++ [code]) := by
  obtain ⟨front, isLength, isSeen⟩ := aligned.seen
  exact ⟨front, isLength, by rw [isSeen, List.append_assoc]⟩

theorem Aligned.goto (aligned : Aligned related shift earlier whole part) (code : UInt8)
    {self self' : State} (sameSelf : self = self') (state : ScanState)
    (seqStart : state ≠ .ground →
      whole.seqStart = part.seqStart + shift ∧ part.seqStart < part.seen.length)
    (bodyStart : state.HasBody → whole.bodyStart = part.bodyStart + shift) :
    Follows related shift earlier
      { whole with self := self, state := state, seen := whole.seen ++ [code] }
      { part with self := self', state := state, seen := part.seen ++ [code] } where
  self := sameSelf
  out := aligned.out
  seen := aligned.read code
  state := rfl
  seqStart := by
    intro pending
    refine ⟨(seqStart pending).1, ?_⟩
    have inside := (seqStart pending).2
    show part.seqStart < (part.seen ++ [code]).length
    rw [List.length_append]
    omega
  bodyStart := bodyStart

theorem Aligned.open (aligned : Aligned related shift earlier whole part) (code : UInt8) :
    Follows related shift earlier
      { whole with seqStart := whole.seen.length, state := .esc, seen := whole.seen ++ [code] }
      { part with seqStart := part.seen.length, state := .esc, seen := part.seen ++ [code] } where
  __ := aligned
  seen := aligned.read code
  state := rfl
  seqStart := fun _ => ⟨aligned.length, by simp⟩
  bodyStart := by
    rintro (isCsi | isOsc | isOscEsc) <;> contradiction

theorem Aligned.enter (aligned : Aligned related shift earlier whole part) (code : UInt8)
    (state : ScanState) (seqStart : whole.seqStart = part.seqStart + shift ∧
      part.seqStart < part.seen.length) :
    Follows related shift earlier
      { whole with bodyStart := whole.seen.length + 1, state := state, seen := whole.seen ++ [code] }
      { part with bodyStart := part.seen.length + 1, state := state,
                  seen := part.seen ++ [code] } where
  __ := aligned
  seen := aligned.read code
  state := rfl
  seqStart := by
    intro _
    refine ⟨seqStart.1, ?_⟩
    have inside := seqStart.2
    show part.seqStart < (part.seen ++ [code]).length
    rw [List.length_append]
    omega
  bodyStart := by
    intro _
    show whole.seen.length + 1 = part.seen.length + 1 + shift
    rw [aligned.length]
    omega

theorem Aligned.report (aligned : Aligned related shift earlier whole part) (code : UInt8)
    {self self' : State} (sameSelf : self = self') {wholeSplits splits : List (Nat × Split)}
    (splitsRelated : List.Forall₂ related wholeSplits splits) :
    Follows related shift earlier
      { whole with self := self, out := whole.out ++ wholeSplits, state := .ground,
                   seen := whole.seen ++ [code] }
      { part with self := self', out := part.out ++ splits, state := .ground,
                  seen := part.seen ++ [code] } where
  self := sameSelf
  out := by
    obtain ⟨later, isOut, laterRelated⟩ := aligned.out
    refine ⟨later ++ wholeSplits, ?_, List.rel_append laterRelated splitsRelated⟩
    show whole.out ++ wholeSplits = earlier ++ (later ++ wholeSplits)
    rw [isOut, List.append_assoc]
  seen := aligned.read code
  state := rfl
  seqStart := fun pending => absurd rfl pending
  bodyStart := by
    rintro (isCsi | isOsc | isOscEsc) <;> contradiction

theorem Follows.branch {condition : Prop} [Decidable condition] {seen seen' : Bytes}
    {taken other taken' other' : Walk}
    (isTaken : condition → Follows related shift earlier
      { taken with seen := seen } { taken' with seen := seen' })
    (isOther : ¬ condition → Follows related shift earlier
      { other with seen := seen } { other' with seen := seen' }) :
    Follows related shift earlier
      { (if condition then taken else other) with seen := seen }
      { (if condition then taken' else other') with seen := seen' } := by
  by_cases holds : condition
  · rw [if_pos holds, if_pos holds]
    exact isTaken holds
  · rw [if_neg holds, if_neg holds]
    exact isOther holds

theorem escFollower_follows (aligned : Aligned related shift earlier whole part)
    (seqStart : whole.seqStart = part.seqStart + shift ∧ part.seqStart < part.seen.length)
    (capture : related (wholeOffset (whole.seen.length + 1), .captureSavedCursor)
      (offset (part.seen.length + 1), .captureSavedCursor)) (code : UInt8) :
    Follows related shift earlier
      { whole.escFollower wholeOffset code with seen := whole.seen ++ [code] }
      { part.escFollower offset code with seen := part.seen ++ [code] } := by
  have noBody : ∀ {state : ScanState}, ¬ state.HasBody → state.HasBody →
      whole.bodyStart = part.bodyStart + shift := fun not has => absurd has not
  have toGround := aligned.goto code aligned.self .ground (absurd rfl)
    (noBody (by simp [ScanState.HasBody]))
  unfold Walk.escFollower
  apply Follows.branch
  · exact fun _ => aligned.open code
  intro _
  apply Follows.branch
  · exact fun _ => toGround
  intro _
  apply Follows.branch
  · exact fun _ => aligned.enter code .csi seqStart
  intro _
  apply Follows.branch
  · exact fun _ => aligned.enter code .osc seqStart
  intro _
  apply Follows.branch
  · exact fun _ => aligned.goto code aligned.self .str (fun _ => seqStart)
      (noBody (by simp [ScanState.HasBody]))
  intro _
  apply Follows.branch
  · exact fun _ => aligned.goto code aligned.self .escIntermediate (fun _ => seqStart)
      (noBody (by simp [ScanState.HasBody]))
  intro _
  apply Follows.branch
  · exact fun _ => aligned.goto code (by rw [aligned.self]) .ground
      (absurd rfl) (noBody (by simp [ScanState.HasBody]))
  intro _
  apply Follows.branch
  · exact fun _ => aligned.report code aligned.self (.cons capture .nil)
  intro _
  apply Follows.branch
  · exact fun _ => aligned.goto code aligned.self .esc (fun _ => seqStart)
      (noBody (by simp [ScanState.HasBody]))
  exact fun _ => toGround

theorem Follows.body (follows : Follows related shift earlier whole part)
    (hasBody : part.state.HasBody) : whole.body = part.body := by
  obtain ⟨front, isLength, isSeen⟩ := follows.seen
  unfold Walk.body
  rw [follows.bodyStart hasBody, isSeen, Nat.add_comm, ← List.drop_drop, ← isLength, List.drop_left]

theorem Follows.restart (follows : Follows related shift earlier whole part)
    (pending : part.state ≠ .ground) {self self' : State} (sameSelf : self = self')
    (capture : related (wholeOffset (whole.seen.length + 1), .captureSavedCursor)
      (offset (part.seen.length + 1), .captureSavedCursor)) (code : UInt8) :
    Follows related shift earlier
      { { whole with self := self, seqStart := whole.seen.length - 1 }.escFollower wholeOffset code
          with seen := whole.seen ++ [code] }
      { { part with self := self', seqStart := part.seen.length - 1 }.escFollower offset code
          with seen := part.seen ++ [code] } := by
  have inside := (follows.seqStart pending).2
  have restarted : Aligned related shift earlier
      { whole with self := self, seqStart := whole.seen.length - 1 }
      { part with self := self', seqStart := part.seen.length - 1 } :=
    ⟨sameSelf, follows.out, follows.seen⟩
  apply escFollower_follows restarted _ capture
  have lengths := follows.length
  show whole.seen.length - 1 = part.seen.length - 1 + shift ∧
    part.seen.length - 1 < part.seen.length
  omega

theorem step_follows (follows : Follows related shift earlier whole part)
    (snapshot : ∀ index ≤ part.seen.length,
      related (wholeOffset (index + shift), .snapshotPrimary) (offset index, .snapshotPrimary))
    (capture : related (wholeOffset (whole.seen.length + 1), .captureSavedCursor)
      (offset (part.seen.length + 1), .captureSavedCursor)) (code : UInt8) :
    Follows related shift earlier (whole.step wholeOffset code) (part.step offset code) := by
  have aligned := follows.toAligned
  have stay : part.state ≠ .ground → Follows related shift earlier
      { whole with seen := whole.seen ++ [code] } { part with seen := part.seen ++ [code] } := by
    intro pending
    have next := aligned.goto code follows.self part.state (fun _ => follows.seqStart pending)
      follows.bodyStart
    exact ⟨⟨next.self, next.out, next.seen⟩, follows.state, next.seqStart, next.bodyStart⟩
  have toGround : ∀ {self self' : State}, self = self' → Follows related shift earlier
      { whole with self := self, state := .ground, seen := whole.seen ++ [code] }
      { part with self := self', state := .ground, seen := part.seen ++ [code] } :=
    fun sameSelf => aligned.goto code sameSelf .ground (absurd rfl)
      (by rintro (isCsi | isOsc | isOscEsc) <;> contradiction)
  unfold Walk.step Walk.onCode
  rw [follows.state]
  cases isState : part.state with
  | ground =>
    simp only [if_true]
    unfold Walk.onText
    split_ifs
    · exact aligned.open code
    · have sameSelf : whole.self.countBells [code] = part.self.countBells [code] := by
        rw [follows.self]
      exact ⟨⟨sameSelf, follows.out, aligned.read code⟩, follows.state,
        absurd isState, follows.bodyStart⟩
  | esc =>
    have pending : part.state ≠ .ground := by simp [isState]
    exact escFollower_follows aligned (follows.seqStart pending) capture code
  | escIntermediate =>
    have pending : part.state ≠ .ground := by simp [isState]
    simp only [reduceCtorEq, if_false]
    split_ifs
    · exact aligned.open code
    · exact toGround follows.self
    · exact toGround follows.self
    · exact stay pending
  | csi =>
    have pending : part.state ≠ .ground := by simp [isState]
    have sameBody := follows.body (.inl isState)
    have start : related (wholeOffset whole.seqStart, .snapshotPrimary)
        (offset part.seqStart, .snapshotPrimary) := by
      rw [(follows.seqStart pending).1]
      exact snapshot part.seqStart (Nat.le_of_lt (follows.seqStart pending).2)
    have applied : _ ∧ List.Forall₂ related (applyCsi part.self (csiMarker part.body).1
        (csiMarker part.body).2 code _ _).2 _ := applyCsi_related start capture
    simp only [reduceCtorEq, if_false]
    split_ifs
    · exact aligned.open code
    · exact toGround follows.self
    · rw [sameBody, follows.self]
      exact aligned.report code applied.1 applied.2
    · exact stay pending
  | osc =>
    have pending : part.state ≠ .ground := by simp [isState]
    have sameBody := follows.body (.inr (.inl isState))
    simp only [reduceCtorEq, if_false]
    split_ifs
    · exact toGround (by rw [sameBody, follows.self])
    · exact aligned.goto code follows.self .oscEsc (fun _ => follows.seqStart pending)
        (fun _ => follows.bodyStart (.inr (.inl isState)))
    · exact stay pending
  | oscEsc =>
    have pending : part.state ≠ .ground := by simp [isState]
    have sameBody := follows.body (.inr (.inr isState))
    simp only [reduceCtorEq, if_false]
    split_ifs
    · exact toGround (by rw [sameBody, follows.self])
    · exact follows.restart pending (by rw [sameBody, follows.self]) capture code
  | str =>
    have pending : part.state ≠ .ground := by simp [isState]
    simp only [reduceCtorEq, if_false]
    split_ifs
    · exact toGround follows.self
    · exact aligned.goto code follows.self .strEsc (fun _ => follows.seqStart pending)
        (by rintro (isCsi | isOsc | isOscEsc) <;> contradiction)
    · exact stay pending
  | strEsc =>
    have pending : part.state ≠ .ground := by simp [isState]
    simp only [reduceCtorEq, if_false]
    split_ifs
    · exact toGround follows.self
    · exact follows.restart pending follows.self capture code

/-- The walks stay side by side over any bytes, when the offsets of the first agree with
those of the second up to `bound`. -/
theorem foldl_follows (read bound : Nat)
    (snapshot : ∀ index ≤ bound,
      related (wholeOffset (index + shift), .snapshotPrimary) (offset index, .snapshotPrimary))
    (capture : ∀ index, read < index → index ≤ bound →
      related (wholeOffset (index + shift), .captureSavedCursor)
        (offset index, .captureSavedCursor)) (bytes : Bytes) :
    ∀ {whole part : Walk}, Follows related shift earlier whole part → read ≤ part.seen.length →
      part.seen.length + bytes.length ≤ bound →
      Follows related shift earlier (bytes.foldl (Walk.step wholeOffset) whole)
        (bytes.foldl (Walk.step offset) part) := by
  induction bytes with
  | nil => exact fun follows _ _ => follows
  | cons code later ih =>
    intro whole part follows alreadyRead fits
    rw [List.length_cons] at fits
    have nextLength : (part.step offset code).seen.length = part.seen.length + 1 := by
      simp [Walk.step]
    have next : Follows related shift earlier (whole.step wholeOffset code)
        (part.step offset code) := by
      apply step_follows follows
      · intro index inside
        exact snapshot index (by omega)
      · have lengths := follows.length
        have here := capture (part.seen.length + 1) (by omega) (by omega)
        rwa [show part.seen.length + 1 + shift = whole.seen.length + 1 by omega] at here
    rw [List.foldl_cons, List.foldl_cons]
    exact ih next (by omega) (by omega)

end

end AiTools.Daemon.ModeState
