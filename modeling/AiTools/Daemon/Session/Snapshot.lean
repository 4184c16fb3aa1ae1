import AiTools.Daemon.Session.Output
import AiTools.Lib.Transition

/-!
Contract: the sequence of a snapshot and the output it shows, under every order of the
reader thread and the snapshot calls.

The emulator stands as the bytes that it has processed, of which its content is a function.
-/

namespace AiTools.Daemon.Session.Snapshot

open AiTools.Lib.Transition

abbrev Bytes := List UInt8

/-! ## The session -/

inductive TeeStage where
  | appendRing
  | feedEmulator
  | pushPending
  | advance
deriving DecidableEq

/-- What `snapshot` returns, with the output that its content reflects. -/
structure DaemonSnapshot where
  outputSequence : Nat
  reflected : Bytes

/-- `tee` is the chunk at hand and what `tee` does next with it, `calls` are the sequences
that the running `snapshot` calls have loaded. `taken` and `output` are history: the
snapshots returned and the bytes read from the PTY. -/
structure System where
  ringCap : Nat
  ring : Ring
  emulator : Option Bytes
  ingestSeq : Nat := 0
  historyEnabled : Bool := false
  pending : PendingOutput := .empty
  tee : Option (Bytes × TeeStage) := none
  calls : Nat → Option Nat := fun _ => none
  taken : List DaemonSnapshot := []
  output : Bytes := []

def System.initial (ringCap : Nat) : System where
  ringCap := ringCap
  ring := ⟨[], false⟩
  emulator := some []

/-- `panics` says whether the emulator panics, which drops it. -/
inductive Label where
  | read (chunk : Bytes)
  | appendRing
  | feedEmulator (panics : Bool)
  | pushPending
  | advance
  | enableHistory
  | takePendingOutput
  | load (call : Nat)
  | serialize (call : Nat) (panics : Bool)

def step (sys : System) : Label → Option System
  | .read chunk =>
    match sys.tee with
    | none =>
      if chunk = [] then none
      else some { sys with
        tee := some (chunk, .appendRing)
        output := sys.output ++ chunk }
    | some _ => none
  | .appendRing =>
    match sys.tee with
    | some (chunk, .appendRing) => some { sys with
        ring := appendScrollbackCapped sys.ring chunk sys.ringCap
        tee := some (chunk, .feedEmulator) }
    | _ => none
  | .feedEmulator panics =>
    match sys.tee with
    | some (chunk, .feedEmulator) => some { sys with
        emulator := if panics then none else sys.emulator.map (· ++ chunk)
        tee := some (chunk, .pushPending) }
    | _ => none
  | .pushPending =>
    match sys.tee with
    | some (chunk, .pushPending) => some { sys with
        pending := if sys.historyEnabled then sys.pending.pushOutput chunk
          else sys.pending
        tee := some (chunk, .advance) }
    | _ => none
  | .advance =>
    match sys.tee with
    | some (chunk, .advance) => some { sys with
        ingestSeq := sys.ingestSeq + chunk.length
        tee := none }
    | _ => none
  | .enableHistory => some { sys with historyEnabled := true }
  | .takePendingOutput => some { sys with pending := sys.pending.take.2 }
  | .load call =>
    match sys.calls call with
    | none => some { sys with
        calls := Function.update sys.calls call (some sys.ingestSeq) }
    | some _ => none
  | .serialize call panics =>
    match sys.calls call with
    | none => none
    | some seq =>
      let returned := { sys with calls := Function.update sys.calls call none }
      match sys.emulator with
      | none => some returned
      | some content =>
        if panics then some { returned with emulator := none }
        else some { returned with taken := sys.taken ++ [⟨seq, content⟩] }

/-- What `open_gate` hands on of one frame. -/
def ungate (snapshotSeq : Option Nat) (seq : Nat) (data : Bytes) : Bytes :=
  match snapshotSeq with
  | some snapshotSeq =>
    let start := seq - data.length
    if seq ≤ snapshotSeq then []
    else if start < snapshotSeq then data.drop (min (snapshotSeq - start) data.length)
    else data
  | none => data

def openGate (snapshotSeq : Option Nat) (frames : List (Nat × Bytes)) : Bytes :=
  frames.flatMap fun frame => ungate snapshotSeq frame.1 frame.2

/-- Frames of consecutive output from a place on, each with the place of its last byte. -/
def framesFrom (start : Nat) : List Bytes → List (Nat × Bytes)
  | [] => []
  | data :: later => (start + data.length, data) :: framesFrom (start + data.length) later

/-- The sequence counts the output that the snapshot shows, and a client that applies the
snapshot and discards by sequence shows the output up to the end of the frames. -/
def Consistent (output : Bytes) (snapshot : DaemonSnapshot) : Prop :=
  snapshot.outputSequence = snapshot.reflected.length ∧
    ∀ start chunks behind, output.drop start = chunks.flatten ++ behind →
      start ≤ snapshot.outputSequence →
      snapshot.reflected ++ openGate (some snapshot.outputSequence) (framesFrom start chunks) =
        output.take (max snapshot.outputSequence (start + chunks.flatten.length))

/-- In every run whose steps all meet `ok`, every snapshot returned is consistent with
the output. -/
def SnapshotsConsistent (ok : System → Label → Prop) : Prop :=
  ∀ ringCap sys, Run step ok (.initial ringCap) sys →
    ∀ snapshot ∈ sys.taken, Consistent sys.output snapshot

/-- The emulator has been fed a chunk that the counter does not count yet. -/
def System.Lagging (sys : System) : Prop :=
  ∃ chunk, sys.tee = some (chunk, .pushPending) ∨ sys.tee = some (chunk, .advance)

/-- As long as there is an emulator, a snapshot call loads the counter while no chunk is
between the emulator and the counter, and no chunk is fed before the call serializes. -/
def Undisturbed (sys : System) : Label → Prop
  | .feedEmulator panics => panics = false → sys.emulator ≠ none →
      ∀ call, sys.calls call = none
  | .load _ => sys.emulator ≠ none → ¬ sys.Lagging
  | _ => True

theorem openGate_framesFrom {snapshotSeq : Nat} {chunks : List Bytes} :
    ∀ {start : Nat}, openGate (some snapshotSeq) (framesFrom start chunks) =
      chunks.flatten.drop (snapshotSeq - start) := by
  induction chunks with
  | nil =>
    intro start
    rw [List.flatten_nil, List.drop_nil]
    rfl
  | cons data later ih =>
    intro start
    unfold openGate at ih ⊢
    rw [framesFrom, List.flatMap_cons, ih, List.flatten_cons, List.drop_append]
    have rest : snapshotSeq - (start + data.length) = snapshotSeq - start - data.length := by
      omega
    have first : ungate (some snapshotSeq) (start + data.length) data =
        data.drop (snapshotSeq - start) := by
      unfold ungate
      dsimp only
      rw [Nat.add_sub_cancel]
      split_ifs with seen straddles
      · rw [List.drop_of_length_le (by omega)]
      · rw [Nat.min_eq_left (by omega)]
      · rw [Nat.sub_eq_zero_of_le (by omega), List.drop_zero]
    rw [first, rest]

theorem consistent_of_prefix {output reflected : Bytes} (isPrefix : reflected <+: output) :
    Consistent output ⟨reflected.length, reflected⟩ := by
  refine ⟨rfl, ?_⟩
  intro start chunks behind covered started
  dsimp only at started ⊢
  have isTake : reflected = output.take reflected.length := List.prefix_iff_eq_take.mp isPrefix
  rw [openGate_framesFrom]
  by_cases ended : reflected.length ≤ start + chunks.flatten.length
  · have tail : chunks.flatten.drop (reflected.length - start) = (output.drop reflected.length).take
          (start + chunks.flatten.length - reflected.length) := by
      have place : output.drop reflected.length =
          chunks.flatten.drop (reflected.length - start) ++ behind := by
        rw [← List.drop_append_of_le_length (by omega), ← covered, List.drop_drop]
        congr 1
        omega
      rw [place, List.take_append_of_le_length (by rw [List.length_drop]; omega),
        List.take_of_length_le (by rw [List.length_drop]; omega)]
    rw [Nat.max_eq_right ended, tail]
    conv_lhs => rw [isTake]
    rw [List.length_take, Nat.min_eq_left isPrefix.length_le, ← List.take_add]
    congr 1
    omega
  · rw [Nat.max_eq_left (by omega), List.drop_of_length_le (by omega), List.append_nil]
    exact isTake

/-! ## The invariant -/

/-- The bytes that the emulator has yet to get, and the number that the counter lacks. -/
def System.unfed (sys : System) : Bytes :=
  match sys.tee with
  | some (chunk, .appendRing) => chunk
  | some (chunk, .feedEmulator) => chunk
  | _ => []

def System.lag (sys : System) : Nat :=
  match sys.tee with
  | some (chunk, .pushPending) => chunk.length
  | some (chunk, .advance) => chunk.length
  | _ => 0

structure Sound (sys : System) : Prop where
  fed : ∀ {content}, sys.emulator = some content → sys.output = content ++ sys.unfed
  counted : ∀ {content}, sys.emulator = some content →
    content.length = sys.ingestSeq + sys.lag
  loaded : ∀ {content call seq}, sys.emulator = some content →
    sys.calls call = some seq → seq = content.length
  taken : ∀ {snapshot}, snapshot ∈ sys.taken →
    snapshot.outputSequence = snapshot.reflected.length ∧ snapshot.reflected <+: sys.output

theorem initial_sound (ringCap : Nat) : Sound (.initial ringCap) where
  fed := by
    intro content isContent
    cases isContent
    rfl
  counted := by
    intro content isContent
    cases isContent
    rfl
  loaded := by
    exact nofun
  taken := by
    exact nofun

variable {sys next : System} {chunk : Bytes} {stage : TeeStage}

theorem Sound.moved (sound : Sound sys) (emulator : next.emulator = sys.emulator)
    (output : next.output = sys.output) (unfed : next.unfed = sys.unfed)
    (count : next.ingestSeq + next.lag = sys.ingestSeq + sys.lag)
    (calls : ∀ {call seq}, next.calls call = some seq → sys.calls call = some seq)
    (taken : next.taken = sys.taken) : Sound next where
  fed := by
    rw [emulator, output, unfed]
    exact sound.fed
  counted := by
    rw [emulator, count]
    exact sound.counted
  loaded := by
    intro content call seq isContent isLoaded
    rw [emulator] at isContent
    exact sound.loaded isContent (calls isLoaded)
  taken := by
    rw [taken, output]
    exact sound.taken

theorem Sound.poisoned (sound : Sound sys) (emulator : next.emulator = none)
    (output : next.output = sys.output) (taken : next.taken = sys.taken) : Sound next where
  fed := by simp [emulator]
  counted := by simp [emulator]
  loaded := by simp [emulator]
  taken := by
    rw [taken, output]
    exact sound.taken

theorem System.unfed_eq (isTee : sys.tee = some (chunk, stage)) :
    sys.unfed = if stage = .appendRing ∨ stage = .feedEmulator then chunk else [] := by
  unfold System.unfed
  rw [isTee]
  cases stage <;> rfl

theorem System.lag_eq (isTee : sys.tee = some (chunk, stage)) :
    sys.lag = if stage = .appendRing ∨ stage = .feedEmulator then 0 else chunk.length := by
  unfold System.lag
  rw [isTee]
  cases stage <;> rfl

theorem read_sound (sound : Sound sys) (idle : sys.tee = none) (chunk : Bytes) :
    Sound { sys with tee := some (chunk, .appendRing), output := sys.output ++ chunk } where
  fed := by
    intro content isContent
    have before := sound.fed isContent
    unfold System.unfed at before ⊢
    rw [idle, List.append_nil] at before
    dsimp only
    rw [before]
  counted := by
    intro content isContent
    have before := sound.counted isContent
    unfold System.lag at before ⊢
    rwa [idle] at before
  loaded := sound.loaded
  taken := by
    intro snapshot member
    obtain ⟨counts, isPrefix⟩ := sound.taken member
    exact ⟨counts, isPrefix.trans (List.prefix_append _ _)⟩

theorem feed_sound (sound : Sound sys) (isTee : sys.tee = some (chunk, .feedEmulator))
    (noCall : sys.emulator ≠ none → ∀ call, sys.calls call = none) :
    Sound { sys with
      emulator := sys.emulator.map (· ++ chunk), tee := some (chunk, .pushPending) } where
  fed := by
    intro content isContent
    rw [Option.map_eq_some_iff] at isContent
    obtain ⟨earlier, isEarlier, joined⟩ := isContent
    have before := sound.fed isEarlier
    rw [System.unfed_eq isTee] at before
    rw [System.unfed_eq rfl, ← joined]
    simpa using before
  counted := by
    intro content isContent
    rw [Option.map_eq_some_iff] at isContent
    obtain ⟨earlier, isEarlier, joined⟩ := isContent
    have before := sound.counted isEarlier
    rw [System.lag_eq isTee] at before
    rw [System.lag_eq rfl, ← joined, List.length_append]
    simpa using before
  loaded := by
    intro content call seq isContent isLoaded
    rw [Option.map_eq_some_iff] at isContent
    obtain ⟨earlier, isEarlier, _⟩ := isContent
    have none_ := noCall (by simp [isEarlier]) call
    rw [none_] at isLoaded
    contradiction
  taken := sound.taken

theorem load_sound (sound : Sound sys) (call : Nat)
    (settled : sys.emulator ≠ none → ¬ sys.Lagging) :
    Sound { sys with
      calls := Function.update sys.calls call (some sys.ingestSeq) } where
  __ := sound
  loaded := by
    intro content other seq isContent isLoaded
    dsimp only at isLoaded
    rw [Function.update_apply] at isLoaded
    split_ifs at isLoaded
    · cases isLoaded
      have counted := sound.counted isContent
      have noLag : sys.lag = 0 := by
        have notLagging := settled (by rw [isContent]; simp)
        unfold System.lag
        split
        · next chunk isTee => exact absurd ⟨chunk, .inl isTee⟩ notLagging
        · next chunk isTee => exact absurd ⟨chunk, .inr isTee⟩ notLagging
        · rfl
      rw [counted, noLag, Nat.add_zero]
    · exact sound.loaded isContent isLoaded

theorem serialize_sound (sound : Sound sys) {call seq : Nat} {content : Bytes}
    (isLoaded : sys.calls call = some seq) (isContent : sys.emulator = some content) :
    Sound { sys with
      calls := Function.update sys.calls call none
      taken := sys.taken ++ [⟨seq, content⟩] } where
  __ := sound
  loaded := by
    intro other index loaded isOther isIndex
    dsimp only at isIndex
    rw [Function.update_apply] at isIndex
    split_ifs at isIndex
    exact sound.loaded isOther isIndex
  taken := by
    intro snapshot member
    rw [List.mem_append, List.mem_singleton] at member
    rcases member with earlier | isNew
    · exact sound.taken earlier
    · rw [isNew]
      exact ⟨sound.loaded isContent isLoaded, by
        rw [sound.fed isContent]
        exact List.prefix_append _ _⟩

theorem step_sound {label : Label} (sound : Sound sys) (ok : Undisturbed sys label)
    (ran : step sys label = some next) : Sound next := by
  cases label with
  | read chunk =>
    simp only [step] at ran
    split at ran
    · next idle =>
      split_ifs at ran
      cases ran
      exact read_sound sound idle chunk
    · contradiction
  | appendRing | pushPending =>
    simp only [step] at ran
    split at ran
    · next chunk isTee =>
      cases ran
      refine sound.moved rfl rfl ?_ ?_ id rfl
      · rw [System.unfed_eq isTee, System.unfed_eq rfl]
        rfl
      · rw [System.lag_eq isTee, System.lag_eq rfl]
        rfl
    · contradiction
  | feedEmulator panics =>
    simp only [step] at ran
    split at ran
    · next chunk isTee =>
      cases ran
      cases panics with
      | true => exact sound.poisoned rfl rfl rfl
      | false => exact feed_sound sound isTee (ok rfl)
    · contradiction
  | advance =>
    simp only [step] at ran
    split at ran
    · next chunk isTee =>
      cases ran
      refine sound.moved rfl rfl ?_ ?_ id rfl
      · rw [System.unfed_eq isTee]
        rfl
      · rw [System.lag_eq isTee]
        rfl
    · contradiction
  | enableHistory | takePendingOutput =>
    cases ran
    exact sound.moved rfl rfl rfl rfl id rfl
  | load call =>
    simp only [step] at ran
    split at ran
    · cases ran
      exact load_sound sound call ok
    · contradiction
  | serialize call panics =>
    simp only [step] at ran
    split at ran
    · contradiction
    · next seq isLoaded =>
      split at ran
      · next poisoned =>
        cases ran
        exact sound.poisoned poisoned rfl rfl
      · next content isContent =>
        split_ifs at ran
        · cases ran
          exact sound.poisoned rfl rfl rfl
        · cases ran
          exact serialize_sound sound isLoaded isContent

/-- **A snapshot counts the output it shows when no chunk is under way around it.** -/
theorem snapshotsConsistent {ringCap : Nat} {sys : System}
    (run : Run step Undisturbed (.initial ringCap) sys) {snapshot : DaemonSnapshot}
    (member : snapshot ∈ sys.taken) : Consistent sys.output snapshot := by
  have sound : Sound sys := run.invariant (initial_sound ringCap) fun _ _ _ sound ok ran =>
    step_sound sound ok ran
  obtain ⟨counts, isPrefix⟩ := sound.taken member
  have same : snapshot = ⟨snapshot.reflected.length, snapshot.reflected⟩ := by
    rw [← counts]
  rw [same]
  exact consistent_of_prefix isPrefix

/-- A snapshot call loads the counter, the reader feeds a chunk, the call serializes. -/
def feedAfterLoad : List Label :=
  [.read [0x41], .appendRing, .load 0, .feedEmulator false, .serialize 0 false]

theorem not_snapshotsConsistent : ¬ SnapshotsConsistent fun _ _ => True := by
  intro consistent
  obtain ⟨sys, replayed, isTaken⟩ :
      ∃ sys, execute step (.initial 4096) feedAfterLoad = some sys ∧
        sys.taken = [⟨0, [0x41]⟩] :=
    ⟨_, rfl, rfl⟩
  have counts := consistent 4096 sys (reachable_of_execute _ replayed) ⟨0, [0x41]⟩ (by
    rw [isTaken]
    exact List.mem_singleton_self _)
  have same : 0 = 1 := counts.1
  contradiction

/-- The call comes when the counter has followed. -/
def loadAfterTee : List Label :=
  [.read [0x41], .appendRing, .feedEmulator false, .pushPending, .advance, .load 0,
    .serialize 0 false]

theorem snapshotsConsistent_loadAfterTee :
    ∃ sys, Run step Undisturbed (.initial 4096) sys ∧ sys.taken = [⟨1, [0x41]⟩] ∧
      Consistent sys.output ⟨1, [0x41]⟩ := by
  have permitted : Permitted step Undisturbed (.initial 4096) loadAfterTee := by
    refine ⟨trivial, _, rfl, trivial, _, rfl, fun _ _ _ => rfl, _, rfl, trivial, _, rfl,
      trivial, _, rfl, ?_, _, rfl, trivial, _, rfl, trivial⟩
    rintro - ⟨chunk, isTee | isTee⟩ <;> cases isTee
  obtain ⟨sys, replayed, isTaken⟩ :
      ∃ sys, execute step (.initial 4096) loadAfterTee = some sys ∧
        sys.taken = [⟨1, [0x41]⟩] :=
    ⟨_, rfl, rfl⟩
  have run := run_of_permitted loadAfterTee permitted replayed
  refine ⟨sys, run, isTaken, snapshotsConsistent run ?_⟩
  rw [isTaken]
  exact List.mem_singleton_self _

end AiTools.Daemon.Session.Snapshot
