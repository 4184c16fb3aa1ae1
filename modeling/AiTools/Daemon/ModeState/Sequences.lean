import AiTools.Daemon.ModeState.ParkedTail

/-!
Contract: the sequences that a walk completes.
-/

namespace AiTools.Daemon.ModeState

/-! ## How a sequence begins -/

/-- Controls execute in the middle of an escape. -/
def Executes (controls : Bytes) : Prop := ∀ code ∈ controls, code < 0x20 ∨ code = 0x7f

def Walk.sequence (walk : Walk) : Bytes := walk.seen.drop walk.seqStart

/-- A pending sequence begins with its ESC, and the body of a control sequence follows `[`. -/
structure Walk.Opened (walk : Walk) : Prop where
  starts : walk.state ≠ .ground → ∃ rest, walk.sequence = escByte :: rest
  esc : walk.state = .esc → ∃ controls, Executes controls ∧ walk.sequence = escByte :: controls
  csi : walk.state = .csi → walk.bodyStart ≤ walk.seen.length ∧ ∃ controls, Executes controls ∧
    walk.sequence = escByte :: (controls ++ 0x5b :: walk.body)

variable {walk : Walk}

theorem ground_opened (ground : walk.state = .ground) : walk.Opened where
  starts := fun pending => absurd ground pending
  esc := by
    rw [ground]
    rintro ⟨⟩
  csi := by
    rw [ground]
    rintro ⟨⟩

variable {controls : Bytes}

theorem esc_opened (isState : walk.state = .esc) (executes : Executes controls)
    (isSequence : walk.sequence = escByte :: controls) : walk.Opened where
  starts := fun _ => ⟨controls, isSequence⟩
  esc := fun _ => ⟨controls, executes, isSequence⟩
  csi := by
    rw [isState]
    rintro ⟨⟩

theorem other_opened (notEsc : walk.state ≠ .esc) (notCsi : walk.state ≠ .csi)
    {rest : Bytes} (isSequence : walk.sequence = escByte :: rest) : walk.Opened where
  starts := fun _ => ⟨rest, isSequence⟩
  esc := fun isEsc => absurd isEsc notEsc
  csi := fun isCsi => absurd isCsi notCsi

theorem drop_read {seen : Bytes} {start : Nat} (inside : start ≤ seen.length) (code : UInt8) :
    (seen ++ [code]).drop start = seen.drop start ++ [code] :=
  List.drop_append_of_le_length inside

theorem newEsc_opened (walk : Walk) :
    ({ walk with seqStart := walk.seen.length, state := .esc,
                 seen := walk.seen ++ [escByte] } : Walk).Opened := by
  have isSequence : (walk.seen ++ [escByte]).drop walk.seen.length = [escByte] := List.drop_left
  have executes : Executes [] := by simp [Executes]
  exact esc_opened rfl executes isSequence

theorem escFollower_opened (inside : walk.seqStart < walk.seen.length)
    (executes : Executes controls) (isSequence : walk.sequence = escByte :: controls)
    (offset : Nat → Nat) (code : UInt8) :
    ({ walk.escFollower offset code with seen := walk.seen ++ [code] } : Walk).Opened := by
  have grows : (walk.seen ++ [code]).drop walk.seqStart = escByte :: (controls ++ [code]) := by
    rw [drop_read inside.le]
    unfold Walk.sequence at isSequence
    rw [isSequence, List.cons_append]
  unfold Walk.escFollower
  dsimp only
  split_ifs with isEsc isAbort isCsi isOsc isStr isIntermediate isReset isSave isControl
  · rw [isEsc]
    exact newEsc_opened walk
  · exact ground_opened rfl
  · refine ⟨fun _ => ⟨_, grows⟩, nofun, fun _ => ⟨?_, controls,
      executes, ?_⟩⟩
    · show walk.seen.length + 1 ≤ (walk.seen ++ [code]).length
      rw [List.length_append, List.length_singleton]
    · show (walk.seen ++ [code]).drop walk.seqStart =
        escByte :: (controls ++ 0x5b :: (walk.seen ++ [code]).drop (walk.seen.length + 1))
      rw [grows, isCsi, List.drop_of_length_le (by simp)]
  · exact other_opened (by simp) (by simp) grows
  · exact other_opened (by simp) (by simp) grows
  · exact other_opened (by simp) (by simp) grows
  · exact ground_opened rfl
  · exact ground_opened rfl
  · refine esc_opened rfl (fun other isIn => ?_) grows
    rcases List.mem_append.mp isIn with isOld | isNew
    · exact executes other isOld
    · rw [List.mem_singleton.mp isNew]
      exact isControl
  · exact ground_opened rfl

theorem step_opened (sound : walk.Sound) (opened : walk.Opened)
    (offset : Nat → Nat) (code : UInt8) : (walk.step offset code).Opened := by
  have restart : walk.state = .oscEsc ∨ walk.state = .strEsc → ∀ self : State,
      ({ { walk with self := self, seqStart := walk.seen.length - 1 }.escFollower offset code with
        seen := walk.seen ++ [code] } : Walk).Opened := by
    intro isEsc self
    obtain ⟨front, isSeen⟩ := sound.lastEsc isEsc
    have nonempty : 0 < walk.seen.length := by
      rw [isSeen, List.length_append]
      exact Nat.succ_pos _
    have inside : walk.seen.length - 1 < walk.seen.length := by omega
    have isSequence : walk.seen.drop (walk.seen.length - 1) = [escByte] := by
      rw [isSeen, List.length_append, List.length_singleton, Nat.add_sub_cancel, List.drop_left]
    have executes : Executes [] := by simp [Executes]
    let opening : Walk := { walk with self := self, seqStart := walk.seen.length - 1 }
    have isOpening : opening.sequence = [escByte] := isSequence
    exact escFollower_opened inside executes isOpening offset code
  have grows : walk.state ≠ .ground →
      ∃ rest, (walk.seen ++ [code]).drop walk.seqStart = escByte :: rest := by
    intro pending
    obtain ⟨rest, isSequence⟩ := opened.starts pending
    refine ⟨rest ++ [code], ?_⟩
    unfold Walk.sequence at isSequence
    rw [drop_read (sound.inside pending).le, isSequence, List.cons_append]
  unfold Walk.step Walk.onCode
  cases isState : walk.state with
  | ground =>
    simp only [if_true]
    unfold Walk.onText
    split_ifs with isEsc
    · rw [isEsc]
      exact newEsc_opened walk
    · exact ground_opened isState
  | esc =>
    have pending : walk.state ≠ .ground := by simp [isState]
    obtain ⟨controls, executes, isSequence⟩ := opened.esc isState
    exact escFollower_opened (sound.inside pending) executes isSequence offset code
  | escIntermediate =>
    have pending : walk.state ≠ .ground := by simp [isState]
    obtain ⟨rest, isSequence⟩ := grows pending
    simp only [reduceCtorEq, if_false]
    split_ifs with isEsc isAbort isFinal
    · rw [isEsc]
      exact newEsc_opened walk
    · exact ground_opened rfl
    · exact ground_opened rfl
    · exact other_opened (by simp [isState]) (by simp [isState]) isSequence
  | csi =>
    have pending : walk.state ≠ .ground := by simp [isState]
    simp only [reduceCtorEq, if_false]
    split_ifs with isEsc isAbort isFinal
    · rw [isEsc]
      exact newEsc_opened walk
    · exact ground_opened rfl
    · exact ground_opened rfl
    · obtain ⟨within, controls, executes, isSequence⟩ := opened.csi isState
      unfold Walk.sequence Walk.body at isSequence
      refine ⟨fun _ => grows pending, (fun isOther => ?_), fun _ => ⟨?_, controls, executes, ?_⟩⟩
      · simp [isState] at isOther
      · exact within.trans (by simp)
      · show (walk.seen ++ [code]).drop walk.seqStart =
          escByte :: (controls ++ 0x5b :: (walk.seen ++ [code]).drop walk.bodyStart)
        rw [drop_read (sound.inside pending).le, drop_read within, isSequence]
        simp
  | osc | str =>
    have pending : walk.state ≠ .ground := by simp [isState]
    obtain ⟨rest, isSequence⟩ := grows pending
    simp only [reduceCtorEq, if_false]
    split_ifs
    · exact ground_opened rfl
    · exact other_opened (by simp) (by simp) isSequence
    · exact other_opened (by simp [isState]) (by simp [isState]) isSequence
  | oscEsc =>
    simp only [reduceCtorEq, if_false]
    split_ifs
    · exact ground_opened rfl
    · exact restart (Or.inl isState) _
  | strEsc =>
    simp only [reduceCtorEq, if_false]
    split_ifs
    · exact ground_opened rfl
    · exact restart (Or.inr isState) walk.self

structure SameModes (before after : State) : Prop where
  kittyStack : after.kittyStack = before.kittyStack
  scrollRegion : after.scrollRegion = before.scrollRegion

/-- What a byte does to the kitty stack and to the scroll region, and the splits it reports. -/
inductive Walk.Effect (offset : Nat → Nat) (walk : Walk) (code : UInt8) :
    State → List (Nat × Split) → Prop where
  | none {self' : State} (same : SameModes walk.self self') : Effect offset walk code self' []
  | reset {self' : State} (kittyStack : self'.kittyStack = [])
      (scrollRegion : self'.scrollRegion = Option.none) : Effect offset walk code self' []
  | capture {self' : State} (same : SameModes walk.self self') :
      Effect offset walk code self' [(offset (walk.seen.length + 1), .captureSavedCursor)]
  | csi (isCsi : walk.state = .csi) : Effect offset walk code
      (applyCsi walk.self (csiMarker walk.body).1 (csiMarker walk.body).2 code
        (offset walk.seqStart) (offset (walk.seen.length + 1))).1
      (applyCsi walk.self (csiMarker walk.body).1 (csiMarker walk.body).2 code
        (offset walk.seqStart) (offset (walk.seen.length + 1))).2

/-- The next walk, its effect, and where its sequence starts. -/
structure Walk.Moves (offset : Nat → Nat) (walk : Walk) (code : UInt8) (next : Walk)
    (added : List (Nat × Split)) : Prop where
  out : next.out = walk.out ++ added
  effect : walk.Effect offset code next.self added
  ended : added ≠ [] → next.state = .ground
  seqStart : next.state ≠ .ground → walk.pendingStart ≤ next.seqStart

theorem applyOsc_sameModes (self : State) (payload : Bytes) :
    SameModes self (applyOsc self payload) := by
  unfold applyOsc
  split
  · exact ⟨rfl, rfl⟩
  · dsimp only
    split_ifs
    · exact ⟨rfl, rfl⟩
    · split <;> exact ⟨rfl, rfl⟩
    · exact ⟨rfl, rfl⟩

section
variable {offset : Nat → Nat} {walk : Walk} {code : UInt8} {next : Walk}

theorem quiet_moves (sameOut : next.out = walk.out) (same : SameModes walk.self next.self)
    (seqStart : next.state ≠ .ground → walk.pendingStart ≤ next.seqStart) :
    ∃ added, walk.Moves offset code next added :=
  ⟨[], sameOut.trans (List.append_nil _).symm, .none same, (absurd rfl),
    seqStart⟩

theorem ground_moves (sameOut : next.out = walk.out) (same : SameModes walk.self next.self)
    (ground : next.state = .ground) :
    ∃ added, walk.Moves offset code next added :=
  quiet_moves sameOut same fun pending => absurd ground pending

theorem escFollower_moves {opened : Walk} (sameOut : opened.out = walk.out)
    (sameSeen : opened.seen = walk.seen) (same : SameModes walk.self opened.self)
    (isBehind : walk.pendingStart ≤ opened.seqStart)
    (isWithin : opened.seqStart ≤ walk.seen.length) :
    ∃ added, walk.Moves offset code
      { opened.escFollower offset code with seen := walk.seen ++ [code] } added := by
  unfold Walk.escFollower
  dsimp only
  split_ifs
  · exact quiet_moves sameOut same fun _ => by
      show walk.pendingStart ≤ opened.seen.length
      rw [sameSeen]
      exact isBehind.trans isWithin
  · exact ground_moves sameOut same rfl
  · exact quiet_moves sameOut same fun _ => isBehind
  · exact quiet_moves sameOut same fun _ => isBehind
  · exact quiet_moves sameOut same fun _ => isBehind
  · exact quiet_moves sameOut same fun _ => isBehind
  · exact ⟨[], sameOut.trans (List.append_nil _).symm, .reset rfl rfl,
      (absurd rfl), absurd rfl⟩
  · refine ⟨_, congrArg (· ++ _) sameOut, ?_, fun _ => rfl, absurd rfl⟩
    rw [sameSeen]
    exact .capture same
  · exact quiet_moves sameOut same fun _ => isBehind
  · exact ground_moves sameOut same rfl

theorem step_moves (sound : walk.Sound) (offset : Nat → Nat) (code : UInt8) :
    ∃ added, walk.Moves offset code (walk.step offset code) added := by
  have sameSelf : SameModes walk.self walk.self := ⟨rfl, rfl⟩
  have atStart : walk.state ≠ .ground → walk.pendingStart = walk.seqStart := fun pending =>
    if_neg pending
  have stay : walk.state ≠ .ground → walk.pendingStart ≤ walk.seqStart := fun pending =>
    (atStart pending).le
  have opens : walk.pendingStart ≤ walk.seen.length := sound.pendingStart_le
  have restart : walk.state = .oscEsc ∨ walk.state = .strEsc → ∀ self : State,
      SameModes walk.self self → ∃ added, walk.Moves offset code
        { { walk with self := self, seqStart := walk.seen.length - 1 }.escFollower offset code with
          seen := walk.seen ++ [code] } added := by
    intro isEsc self same
    have pending : walk.state ≠ .ground := by
      rcases isEsc with isOsc | isStr
      · simp [isOsc]
      · simp [isStr]
    have inside := sound.inside pending
    rw [← atStart pending] at inside
    exact escFollower_moves rfl rfl same (Nat.le_sub_one_of_lt inside) (Nat.sub_le _ _)
  unfold Walk.step Walk.onCode
  cases isState : walk.state with
  | ground =>
    simp only [if_true]
    unfold Walk.onText
    split_ifs
    · exact quiet_moves rfl sameSelf fun _ => opens
    · exact ground_moves rfl ⟨rfl, rfl⟩ isState
  | esc =>
    have pending : walk.state ≠ .ground := by simp [isState]
    exact escFollower_moves rfl rfl sameSelf (stay pending) (sound.inside pending).le
  | escIntermediate =>
    have pending : walk.state ≠ .ground := by simp [isState]
    simp only [reduceCtorEq, if_false]
    split_ifs
    · exact quiet_moves rfl sameSelf fun _ => opens
    · exact ground_moves rfl sameSelf rfl
    · exact ground_moves rfl sameSelf rfl
    · exact quiet_moves rfl sameSelf fun _ => stay pending
  | csi =>
    have pending : walk.state ≠ .ground := by simp [isState]
    simp only [reduceCtorEq, if_false]
    split_ifs
    · exact quiet_moves rfl sameSelf fun _ => opens
    · exact ground_moves rfl sameSelf rfl
    · exact ⟨_, rfl, .csi isState, fun _ => rfl, absurd rfl⟩
    · exact quiet_moves rfl sameSelf fun _ => stay pending
  | osc =>
    have pending : walk.state ≠ .ground := by simp [isState]
    simp only [reduceCtorEq, if_false]
    split_ifs
    · exact ground_moves rfl (applyOsc_sameModes _ _) rfl
    · exact quiet_moves rfl sameSelf fun _ => stay pending
    · exact quiet_moves rfl sameSelf fun _ => stay pending
  | oscEsc =>
    simp only [reduceCtorEq, if_false]
    split_ifs
    · exact ground_moves rfl (applyOsc_sameModes _ _) rfl
    · exact restart (Or.inl isState) _ (applyOsc_sameModes _ _)
  | str =>
    have pending : walk.state ≠ .ground := by simp [isState]
    simp only [reduceCtorEq, if_false]
    split_ifs
    · exact ground_moves rfl sameSelf rfl
    · exact quiet_moves rfl sameSelf fun _ => stay pending
    · exact quiet_moves rfl sameSelf fun _ => stay pending
  | strEsc =>
    simp only [reduceCtorEq, if_false]
    split_ifs
    · exact ground_moves rfl sameSelf rfl
    · exact restart (Or.inr isState) walk.self sameSelf

end

end AiTools.Daemon.ModeState
