import AiTools.Daemon.Session.Snapshot

/-!
Contract: the replay gate of a pane, from its subscription to its end.
-/

namespace AiTools.Client.ReplayGate

open AiTools.Daemon.Session.Snapshot (Bytes ungate openGate framesFrom openGate_framesFrom)
open List (append_nil flatMap_append flatMap_cons foldl_append foldl_cons map_cons mem_map
  nil_append)

inductive Gate where
  | closed (frames : List (Nat × Bytes)) (exited : Bool)
  | opened

/-- What others see of the adapter. -/
inductive Action where
  | register
  | output (data : Bytes)
  | teardown

structure DaemonSinkAdapter where
  gate : Gate
  actions : List Action

def DaemonSinkAdapter.new : DaemonSinkAdapter := ⟨.closed [] false, []⟩

inductive Call where
  | onData (seq : Nat) (data : Bytes)
  | onExit
  | openGate (snapshotSeq : Option Nat)

/-- The buffered frames that are not skipped, as far as they are handed on. -/
def drained (snapshotSeq : Option Nat) (frames : List (Nat × Bytes)) : List Action :=
  (frames.filter fun frame => match snapshotSeq with
    | some snapshotSeq => snapshotSeq < frame.1
    | none => true).map fun frame => .output (ungate snapshotSeq frame.1 frame.2)

def DaemonSinkAdapter.call (adapter : DaemonSinkAdapter) : Call → DaemonSinkAdapter
  | .onData seq data =>
    match adapter.gate with
    | .closed frames exited => { adapter with gate := .closed (frames ++ [(seq, data)]) exited }
    | .opened => { adapter with actions := adapter.actions ++ [.output data] }
  | .onExit =>
    match adapter.gate with
    | .closed frames _ => { adapter with gate := .closed frames true }
    | .opened => { adapter with actions := adapter.actions ++ [.teardown] }
  | .openGate snapshotSeq =>
    let (frames, exited) := match adapter.gate with
      | .closed frames exited => (frames, exited)
      | .opened => ([], false)
    { gate := .opened
      actions := adapter.actions ++ (if exited then [] else [.register]) ++
        drained snapshotSeq frames ++ if exited then [.teardown] else [] }

def run (calls : List Call) : DaemonSinkAdapter :=
  calls.foldl DaemonSinkAdapter.call .new

def Action.bytes : Action → Bytes
  | .output data => data
  | _ => []

/-- The bytes that the sink gets. -/
def DaemonSinkAdapter.received (adapter : DaemonSinkAdapter) : Bytes :=
  adapter.actions.flatMap Action.bytes

def Call.bytes : Call → Bytes
  | .onData _ data => data
  | _ => []

/-- The frames of a session from a place on, and its exit behind them, if it comes. -/
def stream (start : Nat) (chunks : List Bytes) (exits : Bool) : List Call :=
  (framesFrom start chunks).map (fun frame => .onData frame.1 frame.2) ++
    if exits then [.onExit] else []

/-- The gate opens between the two parts of the stream: the sink gets the output behind the
snapshot, the pane is registered unless its exit is known, and its end comes last and once. -/
structure Exact (start : Nat) (chunks : List Bytes) (exits : Bool) (first second : List Call)
    (snapshotSeq : Option Nat) : Prop where
  output : (run (first ++ .openGate snapshotSeq :: second)).received =
    chunks.flatten.drop (snapshotSeq.getD 0 - start)
  registered : Action.register ∈ (run (first ++ .openGate snapshotSeq :: second)).actions ↔
    Call.onExit ∉ first
  ended : ∃ actions, Action.teardown ∉ actions ∧
    (run (first ++ .openGate snapshotSeq :: second)).actions =
      actions ++ if exits then [.teardown] else []

/-- Everything that the snapshot contains has come before the gate opens, or nothing comes
behind it. -/
def Arrived (start : Nat) (first second : List Call) (snapshotSeq : Option Nat) : Prop :=
  snapshotSeq.getD 0 ≤ start + (first.flatMap Call.bytes).length ∨ second.flatMap Call.bytes = []

theorem framesFrom_append (first second : List Bytes) : ∀ start : Nat,
    framesFrom start (first ++ second) =
      framesFrom start first ++ framesFrom (start + first.flatten.length) second := by
  induction first with
  | nil => exact fun start => rfl
  | cons data later ih =>
    intro start
    rw [List.cons_append, framesFrom, ih, framesFrom, List.cons_append,
      List.flatten_cons, List.length_append, Nat.add_assoc]

theorem length_framesFrom (chunks : List Bytes) : ∀ start : Nat,
    (framesFrom start chunks).length = chunks.length := by
  induction chunks with
  | nil => exact fun _ => rfl
  | cons data later ih =>
    intro start
    rw [framesFrom, List.length_cons, List.length_cons, ih]

def dataCalls (start : Nat) (chunks : List Bytes) : List Call :=
  (framesFrom start chunks).map fun frame => .onData frame.1 frame.2

theorem dataCalls_append (first second : List Bytes) (start : Nat) :
    dataCalls start (first ++ second) =
      dataCalls start first ++ dataCalls (start + first.flatten.length) second := by
  unfold dataCalls
  rw [framesFrom_append, List.map_append]

variable {start : Nat} {chunks : List Bytes}

theorem dataCalls_split {first second : List Call}
    (isSplit : dataCalls start chunks = first ++ second) :
    ∃ before after, chunks = before ++ after ∧ first = dataCalls start before ∧
      second = dataCalls (start + before.flatten.length) after := by
  refine ⟨chunks.take first.length, chunks.drop first.length, (List.take_append_drop _ _).symm, ?_⟩
  have isWhole := isSplit
  rw [← List.take_append_drop first.length chunks, dataCalls_append] at isWhole
  have isLong : first.length ≤ chunks.length := by
    have lengths := congrArg List.length isSplit
    unfold dataCalls at lengths
    rw [List.length_map, length_framesFrom, List.length_append] at lengths
    omega
  have sameLength : (dataCalls start (chunks.take first.length)).length = first.length := by
    unfold dataCalls
    rw [List.length_map, length_framesFrom, List.length_take, Nat.min_eq_left isLong]
  obtain ⟨isFirst, isSecond⟩ := List.append_inj isWhole sameLength
  exact ⟨isFirst.symm, isSecond.symm⟩

theorem bytes_dataCalls (chunks : List Bytes) : ∀ start : Nat,
    (dataCalls start chunks).flatMap Call.bytes = chunks.flatten := by
  induction chunks with
  | nil => exact fun _ => rfl
  | cons data later ih =>
    intro start
    have rest := ih (start + data.length)
    unfold dataCalls at rest ⊢
    rw [framesFrom, map_cons, flatMap_cons, rest]
    rfl

theorem foldl_closed (chunks : List Bytes) : ∀ (start : Nat) (frames : List (Nat × Bytes)),
    (dataCalls start chunks).foldl DaemonSinkAdapter.call ⟨.closed frames false, []⟩ =
      ⟨.closed (frames ++ framesFrom start chunks) false, []⟩ := by
  induction chunks with
  | nil =>
    intro start frames
    exact congrArg (fun all => (⟨.closed all false, []⟩ : DaemonSinkAdapter))
      (append_nil frames).symm
  | cons data later ih =>
    intro start frames
    have rest := ih (start + data.length)
      (frames ++ [(start + data.length, data)])
    unfold dataCalls at rest ⊢
    rw [framesFrom, map_cons, foldl_cons]
    rw [List.append_assoc] at rest
    exact rest

theorem foldl_opened (chunks : List Bytes) : ∀ (start : Nat) (actions : List Action),
    (dataCalls start chunks).foldl DaemonSinkAdapter.call ⟨.opened, actions⟩ =
      ⟨.opened, actions ++ chunks.map .output⟩ := by
  induction chunks with
  | nil =>
    intro start actions
    exact congrArg (DaemonSinkAdapter.mk .opened) (append_nil actions).symm
  | cons data later ih =>
    intro start actions
    have rest := ih (start + data.length) (actions ++ [.output data])
    unfold dataCalls at rest ⊢
    rw [framesFrom, map_cons, foldl_cons]
    rw [List.append_assoc] at rest
    exact rest

theorem bytes_drained (snapshotSeq : Option Nat) (frames : List (Nat × Bytes)) :
    (drained snapshotSeq frames).flatMap Action.bytes = openGate snapshotSeq frames := by
  unfold drained openGate
  cases snapshotSeq with
  | none =>
    induction frames with
    | nil => rfl
    | cons frame later ih =>
      rw [flatMap_cons, ← ih, List.filter_cons_of_pos rfl]
      rfl
  | some seq =>
    induction frames with
    | nil => rfl
    | cons frame later ih =>
      rw [flatMap_cons, ← ih]
      by_cases isNew : seq < frame.1
      · simp only [List.filter_cons, isNew, decide_true, if_true, map_cons, flatMap_cons]
        rfl
      · have isSeen : ungate (some seq) frame.1 frame.2 = [] := if_pos (Nat.le_of_not_lt isNew)
        simp only [List.filter_cons, isNew, decide_false, isSeen, nil_append]
        rfl

theorem drained_outputs (snapshotSeq : Option Nat) (frames : List (Nat × Bytes)) :
    ∀ action ∈ drained snapshotSeq frames, ∃ data, action = .output data := by
  intro action isAction
  obtain ⟨frame, _, rfl⟩ := mem_map.mp isAction
  exact ⟨_, rfl⟩

theorem openGate_all (snapshotSeq : Option Nat) (start : Nat) (chunks : List Bytes) :
    openGate snapshotSeq (framesFrom start chunks) =
      chunks.flatten.drop (snapshotSeq.getD 0 - start) := by
  cases snapshotSeq with
  | some seq => exact openGate_framesFrom
  | none =>
    rw [Option.getD_none, Nat.zero_sub, List.drop_zero]
    unfold openGate
    induction chunks generalizing start with
    | nil => rfl
    | cons data later ih =>
      rw [framesFrom, flatMap_cons, ih, List.flatten_cons]
      rfl

def exitCalls (exits : Bool) : List Call :=
  if exits then [.onExit] else []

theorem bytes_outputs (chunks : List Bytes) :
    (chunks.map Action.output).flatMap Action.bytes = chunks.flatten := by
  induction chunks with
  | nil => rfl
  | cons data later ih =>
    rw [map_cons, flatMap_cons, ih]
    rfl

theorem actions_opened (start next : Nat) (before after : List Bytes) (exits : Bool)
    (snapshotSeq : Option Nat) :
    (run (dataCalls start before ++ .openGate snapshotSeq ::
        (dataCalls next after ++ exitCalls exits))).actions =
      (.register :: drained snapshotSeq (framesFrom start before) ++ after.map .output) ++
        if exits then [.teardown] else [] := by
  unfold run
  rw [foldl_append, DaemonSinkAdapter.new, foldl_closed, foldl_cons, nil_append,
    foldl_append]
  have atGate : DaemonSinkAdapter.call ⟨.closed (framesFrom start before) false, []⟩
      (.openGate snapshotSeq) =
        ⟨.opened, .register :: drained snapshotSeq (framesFrom start before)⟩ :=
    congrArg (DaemonSinkAdapter.mk .opened) (append_nil _)
  rw [atGate, foldl_opened]
  cases exits with
  | true => rfl
  | false => exact (append_nil _).symm

theorem actions_exited (start : Nat) (chunks : List Bytes) (snapshotSeq : Option Nat) :
    (run ((dataCalls start chunks ++ [.onExit]) ++ [.openGate snapshotSeq])).actions =
      drained snapshotSeq (framesFrom start chunks) ++ [.teardown] := by
  unfold run
  rw [foldl_append, foldl_append, DaemonSinkAdapter.new, foldl_closed, nil_append]
  rfl

/-- The stream up to the gate is a part of the frames, or all of them and the exit. -/
theorem stream_split {exits : Bool} {first second : List Call}
    (isStream : first ++ second = stream start chunks exits) :
    (∃ before after, chunks = before ++ after ∧ first = dataCalls start before ∧
      second = dataCalls (start + before.flatten.length) after ++ exitCalls exits) ∨
    (exits = true ∧ first = dataCalls start chunks ++ [.onExit] ∧ second = []) := by
  have isSplit : first ++ second = dataCalls start chunks ++ exitCalls exits := isStream
  obtain ⟨rest, isData, isSecond⟩ | ⟨rest, isFirst, isExit⟩ := List.append_eq_append_iff.mp isSplit
  · obtain ⟨before, after, isWhole, isBefore, isAfter⟩ := dataCalls_split isData
    exact .inl ⟨before, after, isWhole, isBefore, isAfter ▸ isSecond⟩
  · cases rest with
    | nil =>
      refine .inl ⟨chunks, [], (append_nil _).symm, ?_, isExit.symm⟩
      rw [isFirst, append_nil]
    | cons call later =>
      cases exits with
      | false => cases isExit
      | true =>
        obtain ⟨isCall, isEmpty⟩ := List.cons.inj isExit
        obtain ⟨noLater, noSecond⟩ := List.append_eq_nil_iff.mp isEmpty.symm
        rw [← isCall, noLater] at isFirst
        exact .inr ⟨rfl, isFirst, noSecond⟩

theorem drop_append_eq_iff {size : Nat} {first second : Bytes} :
    first.drop size ++ second = (first ++ second).drop size ↔
      size ≤ first.length ∨ second = [] := by
  rw [List.drop_append, List.append_cancel_left_eq]
  constructor
  · intro isSame
    have lengths := congrArg List.length isSame
    rw [List.length_drop] at lengths
    by_cases fits : size ≤ first.length
    · exact .inl fits
    · exact .inr (List.length_eq_zero_iff.mp (by omega))
  · rintro (fits | rfl)
    · rw [Nat.sub_eq_zero_of_le fits, List.drop_zero]
    · rw [List.drop_nil]

theorem no_exit_dataCalls (start : Nat) (chunks : List Bytes) :
    Call.onExit ∉ dataCalls start chunks := by
  intro isExit
  obtain ⟨frame, _, isData⟩ := mem_map.mp isExit
  cases isData

theorem not_mem_drained {snapshotSeq : Option Nat} {frames : List (Nat × Bytes)} {action : Action}
    (notOutput : ∀ data, action ≠ .output data) : action ∉ drained snapshotSeq frames := by
  intro isAction
  obtain ⟨data, isOutput⟩ := drained_outputs snapshotSeq frames action isAction
  exact notOutput data isOutput

theorem bytes_teardown (exits : Bool) :
    (if exits then [Action.teardown] else []).flatMap Action.bytes = [] := by
  cases exits <;> rfl

theorem bytes_exitCalls (exits : Bool) : (exitCalls exits).flatMap Call.bytes = [] := by
  cases exits <;> rfl

theorem received_opened (start next : Nat) (before after : List Bytes) (exits : Bool)
    (snapshotSeq : Option Nat) :
    (run (dataCalls start before ++ .openGate snapshotSeq ::
        (dataCalls next after ++ exitCalls exits))).received =
      before.flatten.drop (snapshotSeq.getD 0 - start) ++ after.flatten := by
  unfold DaemonSinkAdapter.received
  rw [actions_opened, flatMap_append, flatMap_append, bytes_outputs, bytes_teardown,
    append_nil, flatMap_cons, bytes_drained, openGate_all]
  rfl

theorem replay_exact_iff {start : Nat} {chunks : List Bytes} {exits : Bool}
    {first second : List Call} {snapshotSeq : Option Nat}
    (isStream : first ++ second = stream start chunks exits) :
    Exact start chunks exits first second snapshotSeq ↔
      Arrived start first second snapshotSeq := by
  obtain ⟨before, after, rfl, rfl, rfl⟩ | ⟨rfl, rfl, rfl⟩ := stream_split isStream
  · unfold Arrived
    rw [bytes_dataCalls, flatMap_append, bytes_dataCalls, bytes_exitCalls, append_nil]
    have same : before.flatten.drop (snapshotSeq.getD 0 - start) ++ after.flatten =
        (before.flatten ++ after.flatten).drop (snapshotSeq.getD 0 - start) ↔ _ :=
      drop_append_eq_iff
    have fits : snapshotSeq.getD 0 - start ≤ before.flatten.length ↔
        snapshotSeq.getD 0 ≤ start + before.flatten.length := by omega
    rw [← fits, ← same]
    constructor
    · intro isExact
      have output := isExact.output
      rw [received_opened, List.flatten_append] at output
      exact output
    · intro isOutput
      refine ⟨?_, ?_, ?_⟩
      · rw [received_opened, List.flatten_append]
        exact isOutput
      · rw [actions_opened]
        exact iff_of_true List.mem_cons_self (no_exit_dataCalls start before)
      · refine ⟨_, ?_, actions_opened start _ before after exits snapshotSeq⟩
        intro isTeardown
        rcases List.mem_append.mp isTeardown with isEarly | isOutput
        · rcases List.mem_cons.mp isEarly with isRegister | isDrained
          · cases isRegister
          · exact not_mem_drained (fun _ => Action.noConfusion) isDrained
        · obtain ⟨data, _, isData⟩ := mem_map.mp isOutput
          cases isData
  · refine iff_of_true ⟨?_, ?_, ?_⟩ (Or.inr rfl)
    · unfold DaemonSinkAdapter.received
      rw [actions_exited, flatMap_append, bytes_drained, openGate_all]
      exact append_nil _
    · rw [actions_exited]
      refine iff_of_false ?_ (fun noExit => noExit (List.mem_append_right _ List.mem_cons_self))
      intro isRegister
      rcases List.mem_append.mp isRegister with isDrained | isTeardown
      · exact not_mem_drained (fun _ => Action.noConfusion) isDrained
      · cases List.mem_singleton.mp isTeardown
    · exact ⟨_, not_mem_drained (fun _ => Action.noConfusion),
        actions_exited start chunks snapshotSeq⟩

/-- A frame across the end of the snapshot comes before the gate opens, and the exit behind. -/
theorem replay_exact_iff_straddling :
    Exact 0 [[1, 2, 3, 4], [5]] true [.onData 4 [1, 2, 3, 4]] [.onData 5 [5], .onExit]
        (some 2) ↔
      Arrived 0 [.onData 4 [1, 2, 3, 4]] [.onData 5 [5], .onExit] (some 2) :=
  replay_exact_iff rfl

/-- A frame that the snapshot contains comes when the gate is open: it is handed on again. -/
theorem not_exact : ¬ ∀ (start : Nat) (chunks : List Bytes) (exits : Bool)
    (first second : List Call) (snapshotSeq : Option Nat),
    first ++ second = stream start chunks exits →
    Exact start chunks exits first second snapshotSeq := by
  intro allExact
  have isExact := allExact 0 [[1, 2, 3]] false [] [.onData 3 [1, 2, 3]] (some 3) rfl
  have output : [1, 2, 3] = ([] : Bytes) := isExact.output
  cases output

end AiTools.Client.ReplayGate
