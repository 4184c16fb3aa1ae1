import AiTools.Daemon.ModeState.Run

/-!
Contract: the bytes that a walk leaves pending.
-/

namespace AiTools.Daemon.ModeState

/-- The pending sequence, run on its own, leads to the same place without an effect. -/
def Resumes (walk : Walk) (seqStart : Nat) (state : ScanState) : Prop :=
  ∀ offset self, ∃ bodyStart, run offset self (walk.seen.drop seqStart) =
      ⟨self, [], state, 0, bodyStart, walk.seen.drop seqStart⟩ ∧
    (state.HasBody → walk.bodyStart = bodyStart + seqStart)

structure Walk.Sound (walk : Walk) : Prop where
  inside : walk.state ≠ .ground → walk.seqStart < walk.seen.length
  lastEsc : walk.state = .oscEsc ∨ walk.state = .strEsc → ∃ front, walk.seen = front ++ [escByte]
  resumes : walk.state ≠ .ground → Resumes walk walk.seqStart walk.state

theorem fresh_sound (self : State) : (Walk.fresh self).Sound where
  inside := fun pending => absurd rfl pending
  lastEsc := by
    rintro (isOscEsc | isStrEsc) <;> contradiction
  resumes := fun pending => absurd rfl pending

variable {walk : Walk}

theorem ground_sound (ground : walk.state = .ground) : walk.Sound where
  inside := fun pending => absurd ground pending
  lastEsc := by
    rw [ground]
    rintro (isOscEsc | isStrEsc) <;> contradiction
  resumes := fun pending => absurd ground pending

theorem open_sound (walk : Walk) :
    ({ walk with seqStart := walk.seen.length, state := .esc,
                 seen := walk.seen ++ [escByte] } : Walk).Sound where
  inside := by simp
  lastEsc := by
    rintro (isOscEsc | isStrEsc) <;> contradiction
  resumes := by
    intro _ offset self
    refine ⟨0, ?_, by rintro (isCsi | isOsc | isOscEsc) <;> contradiction⟩
    show run offset self ((walk.seen ++ [escByte]).drop walk.seen.length) =
      ⟨self, [], .esc, 0, 0, (walk.seen ++ [escByte]).drop walk.seen.length⟩
    rw [List.drop_left]
    rfl

/-- A byte that goes to the pending sequence goes to it without an effect when the
sequence is run on its own. -/
theorem continue_sound {walk : Walk} {before state : ScanState} {bodyStart : Nat} {code : UInt8}
    (inside : walk.seqStart < walk.seen.length) (resumes : Resumes walk walk.seqStart before)
    (lastEsc : state = .oscEsc ∨ state = .strEsc → code = escByte)
    (next : ∀ offset self body, ∃ body',
      Walk.step offset ⟨self, [], before, 0, body, walk.seen.drop walk.seqStart⟩ code =
        ⟨self, [], state, 0, body', walk.seen.drop walk.seqStart ++ [code]⟩ ∧
      (state.HasBody → (before.HasBody → walk.bodyStart = body + walk.seqStart) →
        bodyStart = body' + walk.seqStart)) :
    ({ walk with state := state, bodyStart := bodyStart,
                 seen := walk.seen ++ [code] } : Walk).Sound where
  inside := by
    intro _
    show walk.seqStart < (walk.seen ++ [code]).length
    rw [List.length_append]
    omega
  lastEsc := by
    intro isEsc
    exact ⟨walk.seen, by rw [← lastEsc isEsc]⟩
  resumes := by
    intro _ offset self
    obtain ⟨body, ran, isBody⟩ := resumes offset self
    obtain ⟨body', stepped, isBody'⟩ := next offset self body
    refine ⟨body', ?_, fun hasBody => isBody' hasBody isBody⟩
    show run offset self ((walk.seen ++ [code]).drop walk.seqStart) =
      ⟨self, [], state, 0, body', (walk.seen ++ [code]).drop walk.seqStart⟩
    rw [List.drop_append_of_le_length (Nat.le_of_lt inside), run, List.foldl_append]
    show Walk.step offset (run offset self (walk.seen.drop walk.seqStart)) code = _
    rw [ran, stepped]

theorem escFollower_sound (inside : walk.seqStart < walk.seen.length)
    (resumes : Resumes walk walk.seqStart .esc) (offset : Nat → Nat) (code : UInt8) :
    ({ walk.escFollower offset code with seen := walk.seen ++ [code] } : Walk).Sound := by
  have enters : walk.seen.length + 1 =
      (walk.seen.drop walk.seqStart).length + 1 + walk.seqStart := by
    rw [List.length_drop]
    omega
  unfold Walk.escFollower
  dsimp only
  split_ifs with isEsc isAbort isCsi isOsc isStr isIntermediate isReset isSave isControl
  · rw [isEsc]
    exact open_sound walk
  · exact ground_sound rfl
  · apply continue_sound inside resumes (by simp)
    intro offset self body
    refine ⟨(walk.seen.drop walk.seqStart).length + 1, ?_, fun _ _ => enters⟩
    simp [Walk.step, Walk.onCode, Walk.escFollower, isCsi, escByte, canByte, subByte]
  · apply continue_sound inside resumes (by simp)
    intro offset self body
    refine ⟨(walk.seen.drop walk.seqStart).length + 1, ?_, fun _ _ => enters⟩
    simp [Walk.step, Walk.onCode, Walk.escFollower, isOsc, escByte, canByte, subByte]
  · apply continue_sound inside resumes (by simp)
    intro offset self body
    refine ⟨body, ?_, fun hasBody => absurd hasBody (by simp [ScanState.HasBody])⟩
    simp [Walk.step, Walk.onCode, Walk.escFollower, isEsc, isAbort, isCsi, isOsc, isStr]
  · apply continue_sound inside resumes (by simp)
    intro offset self body
    refine ⟨body, ?_, fun hasBody => absurd hasBody (by simp [ScanState.HasBody])⟩
    simp [Walk.step, Walk.onCode, Walk.escFollower, isEsc, isAbort, isCsi, isOsc, isStr,
      isIntermediate]
  · exact ground_sound rfl
  · exact ground_sound rfl
  · apply continue_sound inside resumes (by simp)
    intro offset self body
    refine ⟨body, ?_, fun hasBody => absurd hasBody (by simp [ScanState.HasBody])⟩
    simp [Walk.step, Walk.onCode, Walk.escFollower, isEsc, isAbort, isCsi, isOsc, isStr,
      isIntermediate, isReset, isSave, isControl]
  · exact ground_sound rfl

theorem resumes_esc {front : Bytes} (isSeen : walk.seen = front ++ [escByte]) :
    Resumes walk (walk.seen.length - 1) .esc := by
  intro offset self
  have drop : walk.seen.drop (walk.seen.length - 1) = [escByte] := by
    rw [isSeen, List.length_append, List.length_singleton, Nat.add_sub_cancel, List.drop_left]
  rw [drop]
  exact ⟨0, rfl, by rintro (isCsi | isOsc | isOscEsc) <;> contradiction⟩

theorem step_sound (sound : walk.Sound) (offset : Nat → Nat) (code : UInt8) :
    (walk.step offset code).Sound := by
  have restart : walk.state = .oscEsc ∨ walk.state = .strEsc → ∀ self : State,
      ({ { walk with self := self, seqStart := walk.seen.length - 1 }.escFollower offset code with
        seen := walk.seen ++ [code] } : Walk).Sound := by
    intro isEsc self
    obtain ⟨front, isSeen⟩ := sound.lastEsc isEsc
    have nonempty : 0 < walk.seen.length := by
      rw [isSeen, List.length_append]
      exact Nat.succ_pos _
    have inside : walk.seen.length - 1 < walk.seen.length := by omega
    have before : Resumes { walk with self := self, seqStart := walk.seen.length - 1 }
        (walk.seen.length - 1) .esc := resumes_esc isSeen
    exact escFollower_sound inside before offset code
  have stay : walk.state ≠ .ground →
      (walk.state = .oscEsc ∨ walk.state = .strEsc → code = escByte) →
      (∀ offset self body, Walk.step offset
          ⟨self, [], walk.state, 0, body, walk.seen.drop walk.seqStart⟩ code =
        ⟨self, [], walk.state, 0, body, walk.seen.drop walk.seqStart ++ [code]⟩) →
      ({ walk with seen := walk.seen ++ [code] } : Walk).Sound := by
    intro pending lastEsc same
    exact continue_sound (sound.inside pending) (sound.resumes pending) lastEsc
      fun offset self body => ⟨body, same offset self body, fun hasBody before => before hasBody⟩
  unfold Walk.step Walk.onCode
  cases isState : walk.state with
  | ground =>
    simp only [if_true]
    unfold Walk.onText
    split_ifs with isEsc
    · rw [isEsc]
      exact open_sound walk
    · exact ground_sound isState
  | esc =>
    have pending : walk.state ≠ .ground := by simp [isState]
    have resumes := sound.resumes pending
    rw [isState] at resumes
    exact escFollower_sound (sound.inside pending) resumes offset code
  | escIntermediate =>
    have pending : walk.state ≠ .ground := by simp [isState]
    simp only [reduceCtorEq, if_false]
    split_ifs with isEsc isAbort isFinal
    · rw [isEsc]
      exact open_sound walk
    · exact ground_sound rfl
    · exact ground_sound rfl
    · apply stay (by simp [isState]) (by simp [isState])
      intro offset self body
      simp [Walk.step, Walk.onCode, isState, isEsc, isAbort, isFinal]
  | csi =>
    simp only [reduceCtorEq, if_false]
    split_ifs with isEsc isAbort isFinal
    · rw [isEsc]
      exact open_sound walk
    · exact ground_sound rfl
    · exact ground_sound rfl
    · apply stay (by simp [isState]) (by simp [isState])
      intro offset self body
      simp [Walk.step, Walk.onCode, isState, isEsc, isAbort, isFinal]
  | osc =>
    have pending : walk.state ≠ .ground := by simp [isState]
    simp only [reduceCtorEq, if_false]
    split_ifs with isEnd isEsc
    · exact ground_sound rfl
    · apply continue_sound (sound.inside pending) (sound.resumes pending) (fun _ => isEsc)
      intro offset self body
      refine ⟨body, ?_, fun _ before => before (Or.inr (Or.inl isState))⟩
      simp [Walk.step, Walk.onCode, isState, isEsc, escByte, belByte, canByte, subByte]
    · apply stay (by simp [isState]) (by simp [isState])
      intro offset self body
      simp [Walk.step, Walk.onCode, isState, isEnd, isEsc]
  | oscEsc =>
    simp only [reduceCtorEq, if_false]
    split_ifs
    · exact ground_sound rfl
    · exact restart (Or.inl isState) _
  | str =>
    have pending : walk.state ≠ .ground := by simp [isState]
    simp only [reduceCtorEq, if_false]
    split_ifs with isAbort isEsc
    · exact ground_sound rfl
    · apply continue_sound (sound.inside pending) (sound.resumes pending) (fun _ => isEsc)
      intro offset self body
      refine ⟨body, ?_, fun hasBody => absurd hasBody (by simp [ScanState.HasBody])⟩
      simp [Walk.step, Walk.onCode, isState, isEsc, escByte, canByte, subByte]
    · apply stay (by simp [isState]) (by simp [isState])
      intro offset self body
      simp [Walk.step, Walk.onCode, isState, isAbort, isEsc]
  | strEsc =>
    simp only [reduceCtorEq, if_false]
    split_ifs
    · exact ground_sound rfl
    · exact restart (Or.inr isState) walk.self

theorem run_sound (offset : Nat → Nat) (self : State) (bytes : Bytes) :
    (run offset self bytes).Sound := by
  have folded : ∀ walk : Walk, walk.Sound → (bytes.foldl (Walk.step offset) walk).Sound := by
    induction bytes with
    | nil => exact fun _ sound => sound
    | cons code later ih =>
      intro walk sound
      exact ih _ (step_sound sound offset code)
  exact folded _ (fresh_sound self)

def Walk.pending (walk : Walk) : Bytes := walk.seen.drop walk.pendingStart

theorem Walk.pending_of_ground (ground : walk.state = .ground) :
    walk.pending = [] := by
  unfold Walk.pending Walk.pendingStart
  rw [if_pos ground, List.drop_length]

theorem Walk.pending_of_sequence (pending : walk.state ≠ .ground) :
    walk.pending = walk.seen.drop walk.seqStart := by
  unfold Walk.pending Walk.pendingStart
  rw [if_neg pending]

theorem Walk.Sound.pendingStart_le (sound : walk.Sound) :
    walk.pendingStart ≤ walk.seen.length := by
  unfold Walk.pendingStart
  split_ifs with ground
  · exact Nat.le_refl _
  · exact Nat.le_of_lt (sound.inside ground)

section
variable {related : Nat × Split → Nat × Split → Prop} {shift : Nat} {earlier : List (Nat × Split)}
  {whole part : Walk}

theorem Follows.pending (follows : Follows related shift earlier whole part) :
    whole.pending = part.pending := by
  by_cases ground : part.state = .ground
  · rw [Walk.pending_of_ground ground, Walk.pending_of_ground (follows.state.trans ground)]
  · have wholePending : whole.state ≠ .ground := by
      rw [follows.state]
      exact ground
    obtain ⟨front, isLength, isSeen⟩ := follows.seen
    rw [Walk.pending_of_sequence ground, Walk.pending_of_sequence wholePending, isSeen,
      (follows.seqStart ground).1, ← isLength, Nat.add_comm, ← List.drop_drop, List.drop_left]

/-- The pending bytes, run on their own from the state reached, take a second walk to
where the first one stands. -/
theorem Walk.Sound.resumed {walk : Walk} (sound : walk.Sound) (offset : Nat → Nat) :
    Follows related walk.pendingStart walk.out walk (run offset walk.self walk.pending) := by
  have front : (walk.seen.take walk.pendingStart).length = walk.pendingStart := by
    rw [List.length_take]
    exact Nat.min_eq_left sound.pendingStart_le
  have joined : walk.seen = walk.seen.take walk.pendingStart ++ walk.pending :=
    (List.take_append_drop _ _).symm
  by_cases ground : walk.state = .ground
  · have noBytes := Walk.pending_of_ground ground
    rw [noBytes] at joined ⊢
    exact {
      self := rfl
      out := ⟨[], (List.append_nil _).symm, .nil⟩
      seen := ⟨_, front, joined⟩
      state := ground
      seqStart := fun pending => absurd rfl pending
      bodyStart := by
        rintro (isCsi | isOsc | isOscEsc) <;> contradiction }
  · obtain ⟨bodyStart, ran, isBody⟩ := sound.resumes ground offset walk.self
    have start : walk.pendingStart = walk.seqStart := if_neg ground
    rw [Walk.pending_of_sequence ground] at joined ⊢
    rw [ran, start]
    rw [start] at front joined
    exact {
      self := rfl
      out := ⟨[], (List.append_nil _).symm, .nil⟩
      seen := ⟨_, front, joined⟩
      state := rfl
      seqStart := by
        intro _
        refine ⟨(Nat.zero_add _).symm, ?_⟩
        show 0 < (walk.seen.drop walk.seqStart).length
        rw [List.length_drop]
        exact Nat.sub_pos_of_lt (sound.inside ground)
      bodyStart := isBody }

end

/-- The pending bytes, run on their own from any state, only become pending again. -/
theorem Walk.Sound.replayed (sound : walk.Sound) (offset : Nat → Nat) (self : State) :
    (run offset self walk.pending).self = self ∧ (run offset self walk.pending).out = [] ∧
      (run offset self walk.pending).pending = walk.pending := by
  by_cases ground : walk.state = .ground
  · rw [Walk.pending_of_ground ground]
    exact ⟨rfl, rfl, rfl⟩
  · obtain ⟨bodyStart, ran, _⟩ := sound.resumes ground offset self
    rw [Walk.pending_of_sequence ground, ran]
    exact ⟨rfl, rfl, Walk.pending_of_sequence ground⟩

theorem applyCsi_scanTail (self : State) (marker : Option UInt8) (params : Bytes)
    (finalByte : UInt8) (chunkStart chunkEnd : Nat) :
    (applyCsi self marker params finalByte chunkStart chunkEnd).1.scanTail = self.scanTail := by
  have private_scanTail : ∀ (enabled : Bool) (values : List UInt32)
      (sofar : State × List (Nat × Split)),
      (values.foldl (setPrivateMode enabled chunkStart) sofar).1.scanTail = sofar.1.scanTail := by
    intro enabled values
    induction values with
    | nil => exact fun _ => rfl
    | cons value later ih =>
      intro sofar
      rw [List.foldl_cons, ih]
      unfold setPrivateMode
      dsimp only
      split_ifs <;> rfl
  unfold applyCsi
  dsimp only
  split_ifs
  · exact private_scanTail _ _ _
  all_goals rfl

theorem applyOsc_scanTail (self : State) (payload : Bytes) :
    (applyOsc self payload).scanTail = self.scanTail := by
  unfold applyOsc
  split
  · rfl
  · dsimp only
    split_ifs
    · rfl
    · split <;> rfl
    · rfl

theorem escFollower_scanTail (offset : Nat → Nat) (walk : Walk) (code : UInt8) :
    (walk.escFollower offset code).self.scanTail = walk.self.scanTail := by
  unfold Walk.escFollower
  dsimp only
  split_ifs <;> rfl

theorem step_scanTail (offset : Nat → Nat) (walk : Walk) (code : UInt8) :
    (walk.step offset code).self.scanTail = walk.self.scanTail := by
  unfold Walk.step Walk.onText Walk.onCode
  cases walk.state with
  | ground =>
    simp only [if_true]
    split_ifs <;> rfl
  | esc => exact escFollower_scanTail offset walk code
  | escIntermediate | str =>
    simp only [reduceCtorEq, if_false]
    split_ifs <;> rfl
  | csi =>
    simp only [reduceCtorEq, if_false]
    split_ifs
    · rfl
    · rfl
    · exact applyCsi_scanTail _ _ _ _ _ _
    · rfl
  | osc =>
    simp only [reduceCtorEq, if_false]
    split_ifs
    · exact applyOsc_scanTail _ _
    · rfl
    · rfl
  | oscEsc =>
    simp only [reduceCtorEq, if_false]
    split_ifs
    · exact applyOsc_scanTail _ _
    · rw [escFollower_scanTail]
      exact applyOsc_scanTail _ _
  | strEsc =>
    simp only [reduceCtorEq, if_false]
    split_ifs
    · rfl
    · rw [escFollower_scanTail]

theorem run_scanTail (offset : Nat → Nat) (self : State) (bytes : Bytes) :
    (run offset self bytes).self.scanTail = self.scanTail := by
  have folded : ∀ walk : Walk,
      (bytes.foldl (Walk.step offset) walk).self.scanTail = walk.self.scanTail := by
    induction bytes with
    | nil => exact fun _ => rfl
    | cons code later ih =>
      intro walk
      rw [List.foldl_cons, ih, step_scanTail]
  exact folded _

end AiTools.Daemon.ModeState
