import AiTools.Terminal.PasteSplit

/-!
Contract: the order in which the inputs of a terminal are written.
-/

namespace AiTools.Terminal.InputOrder

open AiTools.Lib AiTools.Lib.Transition
open AiTools.Terminal.InputQueue (Bytes Piece Segment PtyInputQueue Awake isQueryReply
  splitPasteInput pasteChunkBytes pasteCeilingBytes pasteDirectMaxBytes)
open List (append_assoc append_nil filter_append flatMap_append mem_append mem_flatMap mem_map
  mem_singleton)

structure System where
  queue : PtyInputQueue
  inputs : List Bytes
  outcomes : List Bool

inductive Label where
  | enqueue (data : Bytes)
  | microtask
  | settled (accepted : Bool)

/-- Each input but a reply has its number. -/
def asPiece (number : Nat) (data : Bytes) : Piece :=
  ⟨if isQueryReply data then none else some number, data⟩

/-- A write is in flight while it has no outcome. -/
def step (sys : System) : Label → Option System
  | .enqueue data =>
    some { sys with
      queue := sys.queue.enqueue (asPiece sys.inputs.length data)
      inputs := sys.inputs ++ [data] }
  | .microtask =>
    if sys.queue.interactiveScheduled then
      some { sys with queue := sys.queue.runScheduled }
    else none
  | .settled accepted =>
    if sys.outcomes.length < sys.queue.writes.length then
      some { sys with
        queue := sys.queue.drainLoop
        outcomes := sys.outcomes ++ [accepted] }
    else none

def initial : System := ⟨⟨[], [], false, false, []⟩, [], []⟩

def line (queue : PtyInputQueue) : List Piece :=
  queue.writes.flatMap Segment.pieces ++
    (queue.fifo.flatMap Segment.pieces ++ queue.pendingInteractive)

/-- What is written for an input. -/
def admitPiece (piece : Piece) : List Piece :=
  if piece.data = [] then []
  else if pasteDirectMaxBytes < piece.data.length then
    (splitPasteInput piece.data pasteChunkBytes pasteCeilingBytes).map
      fun chunk => { piece with data := chunk }
  else [piece]

def admitted (inputs : List Bytes) : List Piece :=
  inputs.zipIdx.flatMap fun input => admitPiece (asPiece input.2 input.1)

def isReply (piece : Piece) : Bool := piece.paste.isNone

/-- What the backend has taken. -/
def landed (sys : System) : List Piece :=
  ((sys.queue.writes.zip sys.outcomes).filter Prod.snd).flatMap fun write => write.1.pieces

/-- The queue from the first chunk of a paste on. -/
def unsent (queue : PtyInputQueue) : List Segment := queue.fifo.dropWhile (·.kind ≠ .paste)

/-- The unsent chunks, and what was enqueued behind them. -/
def behind (queue : PtyInputQueue) : List Piece :=
  if unsent queue = [] then []
  else (unsent queue).flatMap Segment.pieces ++ queue.pendingInteractive

/-- New pieces come last, or are a reply that goes before what `overtaken` has. -/
def Enters (overtaken : List Piece → Prop) (queue next : PtyInputQueue) : Prop :=
  ∃ before added after, line queue = before ++ after ∧ line next = before ++ added ++ after ∧
    (after = [] ∨ (∀ piece ∈ added, isReply piece = true) ∧ overtaken after)

structure Kept (sys : System) : Prop where
  oneInFlight : sys.queue.writes.length ≤ sys.outcomes.length + 1
  ordered : (line sys.queue).filter (!isReply ·) = (admitted sys.inputs).filter (!isReply ·)
  replies : (line sys.queue).filter isReply = (admitted sys.inputs).filter isReply
  once : (landed sys).Sublist (line sys.queue)
  drained : sys.outcomes.length = sys.queue.writes.length →
    sys.queue.interactiveScheduled = false →
      sys.queue.fifo = [] ∧ sys.queue.pendingInteractive = [] ∧
        ((∀ accepted ∈ sys.outcomes, accepted = true) → landed sys = line sys.queue)

variable {queue next : PtyInputQueue} {piece : Piece} {sys : System}

def Filled (queue : PtyInputQueue) : Prop := ∀ piece ∈ queue.pendingInteractive, piece.data ≠ []

/-- How many writes were issued, but for one in flight. -/
def past (queue : PtyInputQueue) : Int := queue.writes.length - queue.draining.toNat

structure Quiet (queue next : PtyInputQueue) : Prop where
  line : line next = line queue
  behind : behind next ⊆ behind queue
  unsent : unsent next ≠ [] → unsent queue ≠ []
  filled : Filled next
  past : past next = past queue

variable {last : PtyInputQueue}

theorem Quiet.trans (first : Quiet queue next) (second : Quiet next last) : Quiet queue last :=
  ⟨second.line.trans first.line, List.Subset.trans second.behind first.behind,
    first.unsent ∘ second.unsent, second.filled, second.past.trans first.past⟩

theorem Quiet.refl (filled : Filled queue) : Quiet queue queue :=
  ⟨rfl, List.Subset.refl _, id, filled, rfl⟩

theorem drainLoop_line (queue : PtyInputQueue) : line queue.drainLoop = line queue := by
  unfold PtyInputQueue.drainLoop
  split
  · rfl
  · rename_i segment fifo isFifo
    simp [line, isFifo]

theorem drainLoop_unsent (queue : PtyInputQueue) : unsent queue.drainLoop <:+ unsent queue := by
  unfold PtyInputQueue.drainLoop unsent
  split
  · exact List.suffix_refl _
  · rename_i segment fifo isFifo
    rw [isFifo]
    by_cases isPaste : segment.kind = .paste
    · rw [List.dropWhile_cons_of_neg (by simp [isPaste])]
      exact (List.dropWhile_suffix _).trans (List.suffix_cons _ _)
    · rw [List.dropWhile_cons_of_pos (by simp [isPaste])]

theorem drainLoop_pending (queue : PtyInputQueue) :
    queue.drainLoop.pendingInteractive = queue.pendingInteractive := by
  unfold PtyInputQueue.drainLoop
  split
  all_goals rfl

theorem drainLoop_behind (queue : PtyInputQueue) : behind queue.drainLoop ⊆ behind queue := by
  have isSuffix := drainLoop_unsent queue
  unfold behind
  rw [drainLoop_pending]
  by_cases isNil : unsent queue.drainLoop = []
  · rw [if_pos isNil]
    exact List.nil_subset _
  · have wasMore : unsent queue ≠ [] := fun wasNil => isNil (List.suffix_nil.mp (wasNil ▸ isSuffix))
    rw [if_neg isNil, if_neg wasMore]
    refine List.append_subset.mpr ⟨fun piece isPiece => ?_, List.subset_append_right _ _⟩
    obtain ⟨other, isOther, isPart⟩ := mem_flatMap.mp isPiece
    exact List.mem_append_left _ (mem_flatMap.mpr ⟨other, isSuffix.subset isOther, isPart⟩)

theorem drainLoop_past (queue : PtyInputQueue) : past queue.drainLoop = queue.writes.length := by
  unfold PtyInputQueue.drainLoop
  split
  · simp [past]
  · simp [past]

theorem quiet_ensureDraining (filled : Filled queue) : Quiet queue queue.ensureDraining := by
  unfold PtyInputQueue.ensureDraining
  split_ifs with isDone
  · exact .refl filled
  · refine ⟨drainLoop_line queue, drainLoop_behind queue, fun isMore isNil => isMore ?_, ?_, ?_⟩
    · exact List.suffix_nil.mp (isNil ▸ drainLoop_unsent queue)
    · rw [Filled, drainLoop_pending]
      exact filled
    · have notDraining : queue.draining = false := by
        rw [Bool.or_eq_true, not_or] at isDone
        exact Bool.eq_false_iff.mpr isDone.1
      rw [drainLoop_past, past, notDraining]
      simp

theorem pending_of_filled (filled : Filled queue) (isEmpty : queue.pendingInteractiveBytes = 0) :
    queue.pendingInteractive = [] := by
  unfold PtyInputQueue.pendingInteractiveBytes at isEmpty
  refine List.eq_nil_iff_forall_not_mem.mpr fun piece isPiece => filled piece isPiece ?_
  have isZero := List.sum_eq_zero_iff.mp isEmpty piece.data.length
    (mem_map.mpr ⟨piece, isPiece, rfl⟩)
  exact List.length_eq_zero_iff.mp isZero

theorem unsent_append (segments : List Segment) (rest : List Segment) :
    (segments ++ rest).dropWhile (·.kind ≠ .paste) =
      if segments.dropWhile (·.kind ≠ .paste) = [] then rest.dropWhile (·.kind ≠ .paste)
      else segments.dropWhile (·.kind ≠ .paste) ++ rest := by
  rw [List.dropWhile_append]
  simp only [List.isEmpty_iff]

theorem quiet_flush (filled : Filled queue) : Quiet queue queue.flushPendingInteractive := by
  unfold PtyInputQueue.flushPendingInteractive
  split_ifs with isEmpty
  · have isNil := pending_of_filled filled isEmpty
    have same : { queue with pendingInteractive := [] } = queue := by
      rw [← isNil]
    rw [same]
    exact .refl filled
  · have isUnsent : unsent { queue with
        fifo := queue.fifo ++ [⟨.interactive, queue.pendingInteractive⟩]
        pendingInteractive := [] } =
        if unsent queue = [] then []
        else unsent queue ++ [⟨.interactive, queue.pendingInteractive⟩] :=
      unsent_append _ _
    refine ⟨by simp [line], ?_, ?_, nofun, rfl⟩
    · unfold behind
      rw [isUnsent]
      split_ifs
      all_goals simp
    · rw [isUnsent]
      split_ifs with isNil
      · exact fun isMore => absurd rfl isMore
      · exact fun _ => isNil

theorem quiet_makeRoom (filled : Filled queue) (size : Nat) :
    Quiet queue (queue.makeRoom size) := by
  unfold PtyInputQueue.makeRoom
  split_ifs
  · have flushed := quiet_flush filled
    exact flushed.trans (quiet_ensureDraining flushed.filled)
  · exact .refl filled

theorem quiet_runScheduled (filled : Filled queue) : Quiet queue queue.runScheduled := by
  have flushed := @quiet_flush { queue with interactiveScheduled := false } filled
  exact .trans ⟨flushed.line, flushed.behind, flushed.unsent, flushed.filled, flushed.past⟩
    (quiet_ensureDraining flushed.filled)

/-! ## What is enqueued -/

/-- No reply waits behind a chunk. -/
def Calm (queue : PtyInputQueue) : Prop := ∀ piece ∈ behind queue, isReply piece = false

theorem Calm.subset (calm : Calm queue) (isSubset : behind next ⊆ behind queue) : Calm next :=
  fun piece isPiece => calm piece (isSubset isPiece)

structure Grows (queue next : PtyInputQueue) (added : List Piece) : Prop where
  enters : ∃ before after, line queue = before ++ after ∧ line next = before ++ added ++ after ∧
    (after = [] ∨ (∀ piece ∈ added, isReply piece = true) ∧ after = behind queue)
  calm : Calm next
  filled : Filled next
  past : past next = past queue

theorem Grows.quiet {added : List Piece} (grows : Grows queue next added)
    (quiet : Quiet next last) : Grows queue last added := by
  obtain ⟨before, after, isLine, isNext, isLast⟩ := grows.enters
  exact ⟨⟨before, after, isLine, quiet.line.trans isNext, isLast⟩, grows.calm.subset quiet.behind,
    quiet.filled, quiet.past.trans grows.past⟩

theorem grows_of_quiet {added : List Piece} (quiet : Quiet queue next)
    (isLine : line last = line next ++ added) (calm : Calm last) (filled : Filled last)
    (isPast : past last = past next) : Grows queue last added := by
  refine ⟨⟨line queue, [], (append_nil _).symm, ?_, .inl rfl⟩, calm, filled,
    isPast.trans quiet.past⟩
  rw [isLine, quiet.line, append_nil]

theorem unsent_eq_nil : unsent queue = [] ↔ queue.hasPendingPasteChunk = false := by
  unfold unsent PtyInputQueue.hasPendingPasteChunk
  rw [List.dropWhile_eq_nil_iff, List.any_eq_false]
  simp

theorem short_of_isQueryReply {data : Bytes} (isReply : isQueryReply data = true) :
    data.length < 64 := by
  unfold isQueryReply at isReply
  simp only [Bool.and_eq_true] at isReply
  exact of_decide_eq_true isReply.1.1.1.2

theorem insertReply_unsent (queue : PtyInputQueue) (piece : Piece) :
    unsent (queue.insertReplyAheadOfPaste piece) = unsent queue := by
  have isFirst : (queue.fifo.takeWhile (·.kind ≠ .paste)).dropWhile (·.kind ≠ .paste) = [] :=
    List.dropWhile_eq_nil_iff.mpr fun _ isSegment => @List.mem_takeWhile_imp _
      (fun segment : Segment => decide (segment.kind ≠ .paste)) _ _ isSegment
  unfold unsent PtyInputQueue.insertReplyAheadOfPaste
  rw [unsent_append, if_pos isFirst, List.dropWhile_cons_of_pos (by simp)]
  exact List.dropWhile_idempotent _ _

theorem grows_reply (filled : Filled queue) (calm : Calm queue)
    (hasPaste : queue.hasPendingPasteChunk = true) (isReply : InputOrder.isReply piece = true) :
    Grows queue (queue.insertReplyAheadOfPaste piece) [piece] := by
  have isUnsent := insertReply_unsent queue piece
  have isMore : unsent queue ≠ [] := fun isNil =>
    Bool.noConfusion (hasPaste.symm.trans (unsent_eq_nil.mp isNil))
  have isBehind : behind (queue.insertReplyAheadOfPaste piece) = behind queue := by
    unfold behind
    rw [isUnsent]
    rfl
  refine ⟨⟨queue.writes.flatMap Segment.pieces ++
    (queue.fifo.takeWhile (·.kind ≠ .paste)).flatMap Segment.pieces, behind queue, ?_, ?_, .inr ?_⟩,
    calm.subset (isBehind ▸ List.Subset.refl _), filled, rfl⟩
  · have isFifo : queue.fifo.takeWhile (·.kind ≠ .paste) ++ unsent queue = queue.fifo :=
      List.takeWhile_append_dropWhile
    rw [behind, if_neg isMore, append_assoc, ← append_assoc _ _ queue.pendingInteractive,
      ← flatMap_append, isFifo]
    rfl
  · rw [behind, if_neg isMore]
    simp [line, PtyInputQueue.insertReplyAheadOfPaste, unsent]
  · exact ⟨fun other isOther => mem_singleton.mp isOther ▸ isReply, rfl⟩

theorem grows_paste (quiet : Quiet queue next) (calm : Calm queue)
    (isFlushed : next.pendingInteractive = []) (notReply : isReply piece = false) :
    Grows queue (next.pushPaste piece)
      ((splitPasteInput piece.data pasteChunkBytes pasteCeilingBytes).map
        fun chunk => { piece with data := chunk }) := by
  have isChunks (chunks : List Bytes) : (chunks.map fun chunk =>
      (⟨.paste, [{ piece with data := chunk }]⟩ : Segment)).flatMap Segment.pieces =
        chunks.map fun chunk => { piece with data := chunk } := by
    induction chunks with
    | nil => rfl
    | cons chunk chunks ih =>
      rw [List.map_cons, List.flatMap_cons, ih]
      rfl
  refine grows_of_quiet quiet ?_ (fun other isOther => ?_) ?_ rfl
  · simp only [line, PtyInputQueue.pushPaste, isFlushed, append_nil, flatMap_append,
      isChunks, append_assoc]
  · have notChunk (chunks : List Bytes) (isChunk : other ∈ chunks.map fun chunk =>
        ({ piece with data := chunk } : Piece)) : isReply other = false := by
      obtain ⟨chunk, -, rfl⟩ := mem_map.mp isChunk
      exact notReply
    have isUnsent := unsent_append next.fifo
      ((splitPasteInput piece.data pasteChunkBytes pasteCeilingBytes).map
        fun chunk => ⟨.paste, [{ piece with data := chunk }]⟩)
    unfold behind unsent PtyInputQueue.pushPaste at isOther
    dsimp only at isOther
    rw [isUnsent, isFlushed] at isOther
    split_ifs at isOther with isNil
    · cases isOther
    · rw [append_nil] at isOther
      obtain ⟨segment, isSegment, isPart⟩ := mem_flatMap.mp isOther
      refine notChunk (splitPasteInput piece.data pasteChunkBytes pasteCeilingBytes) ?_
      rw [← isChunks]
      exact mem_flatMap.mpr ⟨segment, (List.dropWhile_suffix _).subset isSegment, isPart⟩
    · cases isOther
    · rw [append_nil, flatMap_append, isChunks] at isOther
      rcases mem_append.mp isOther with isOld | isChunk
      · refine calm other (quiet.behind ?_)
        unfold behind unsent
        rw [if_neg isNil]
        exact List.mem_append_left _ isOld
      · exact notChunk _ isChunk
  · rw [Filled]
    exact fun other isOther => absurd isOther (isFlushed ▸ List.not_mem_nil)

theorem grows_interactive (quiet : Quiet queue next) (calm : Calm queue)
    (notEmpty : piece.data ≠ []) (isFirst : unsent queue ≠ [] → isReply piece = false) :
    Grows queue { next with pendingInteractive := next.pendingInteractive ++ [piece] } [piece] := by
  refine grows_of_quiet quiet (by simp [line]) (fun other isOther => ?_)
    (fun other isOther => ?_) rfl
  · change other ∈ if unsent next = [] then [] else (unsent next).flatMap Segment.pieces ++
      (next.pendingInteractive ++ [piece]) at isOther
    by_cases isNil : unsent next = []
    · simp [if_pos isNil] at isOther
    · rw [if_neg isNil, ← append_assoc] at isOther
      rcases mem_append.mp isOther with isOld | isNew
      · refine calm other (quiet.behind ?_)
        rw [behind, if_neg isNil]
        exact isOld
      · exact mem_singleton.mp isNew ▸ isFirst (quiet.unsent isNil)
  · rcases mem_append.mp isOther with isOld | isNew
    · exact quiet.filled other isOld
    · exact mem_singleton.mp isNew ▸ notEmpty

theorem isReply_asPiece (number : Nat) (data : Bytes) :
    isReply (asPiece number data) = isQueryReply data := by
  unfold isReply asPiece
  split_ifs with isReply
  · exact isReply.symm
  · exact (Bool.eq_false_iff.mpr isReply).symm

theorem grows_enqueue (filled : Filled queue) (calm : Calm queue) (number : Nat) (data : Bytes) :
    Grows queue (queue.enqueue (asPiece number data)) (admitPiece (asPiece number data)) := by
  have isReply := isReply_asPiece number data
  have isData : (asPiece number data).data = data := rfl
  generalize asPiece number data = piece at isReply isData
  subst isData
  unfold PtyInputQueue.enqueue admitPiece
  by_cases isEmpty : piece.data = []
  · rw [if_pos isEmpty, if_pos isEmpty]
    exact grows_of_quiet (.refl filled) (append_nil _).symm calm filled rfl
  rw [if_neg isEmpty, if_neg isEmpty]
  by_cases isFirst : (isQueryReply piece.data && queue.hasPendingPasteChunk) = true
  · obtain ⟨isQuery, hasPaste⟩ := Bool.and_eq_true_iff.mp isFirst
    have isShort : ¬pasteDirectMaxBytes < piece.data.length := by
      have isSmall := short_of_isQueryReply isQuery
      unfold pasteDirectMaxBytes
      omega
    rw [if_pos isFirst, if_neg isShort]
    have grows := grows_reply filled calm hasPaste (isReply.trans isQuery)
    exact grows.quiet (quiet_ensureDraining grows.filled)
  rw [if_neg isFirst]
  by_cases isLong : pasteDirectMaxBytes < piece.data.length
  · rw [if_pos isLong, if_pos isLong]
    have notReply : InputOrder.isReply piece = false := by
      refine isReply.trans (Bool.eq_false_iff.mpr fun isQuery => ?_)
      have isSmall := short_of_isQueryReply isQuery
      unfold pasteDirectMaxBytes at isLong
      omega
    have grows := grows_paste (quiet_flush filled) calm queue.flushPendingInteractive_pending
      notReply
    exact grows.quiet (quiet_ensureDraining grows.filled)
  · rw [if_neg isLong, if_neg isLong]
    have grows := grows_interactive (quiet_makeRoom filled piece.data.length) calm isEmpty
      fun isMore => isReply.trans (by
        rw [Ne, unsent_eq_nil, Bool.not_eq_false] at isMore
        rw [isMore, Bool.and_true] at isFirst
        exact Bool.eq_false_iff.mpr isFirst)
    unfold PtyInputQueue.appendInteractive
    dsimp only
    split_ifs
    · have flushed := quiet_flush grows.filled
      exact (grows.quiet flushed).quiet (quiet_ensureDraining flushed.filled)
    · exact ⟨grows.enters, grows.calm, grows.filled, grows.past⟩

structure Sound (sys : System) : Prop where
  filled : Filled sys.queue
  calm : Calm sys.queue
  awake : Awake sys.queue
  past : past sys.queue = sys.outcomes.length
  ordered : (line sys.queue).filter (!isReply ·) = (admitted sys.inputs).filter (!isReply ·)
  replies : (line sys.queue).filter isReply = (admitted sys.inputs).filter isReply

theorem initial_sound : Sound initial :=
  ⟨nofun, nofun,
    ⟨absurd rfl, absurd rfl⟩, rfl, rfl, rfl⟩

theorem admitted_append (inputs : List Bytes) (data : Bytes) :
    admitted (inputs ++ [data]) = admitted inputs ++ admitPiece (asPiece inputs.length data) := by
  unfold admitted
  rw [List.zipIdx_append, flatMap_append, Nat.zero_add]
  simp

theorem Sound.quiet (sound : Sound sys) (quiet : Quiet sys.queue next) (awake : Awake next) :
    Sound { sys with queue := next } where
  filled := quiet.filled
  calm := sound.calm.subset quiet.behind
  awake := awake
  past := quiet.past.trans sound.past
  ordered := quiet.line ▸ sound.ordered
  replies := quiet.line ▸ sound.replies

theorem filter_of_forall {pieces : List Piece} {value : Bool}
    (areSame : ∀ piece ∈ pieces, isReply piece = value) :
    pieces.filter isReply = (if value then pieces else []) ∧
      pieces.filter (!isReply ·) = if value then [] else pieces := by
  cases value with
  | true =>
    exact ⟨List.filter_eq_self.mpr areSame,
      List.filter_eq_nil_iff.mpr fun piece isPiece => by simp [areSame piece isPiece]⟩
  | false =>
    exact ⟨List.filter_eq_nil_iff.mpr fun piece isPiece => by simp [areSame piece isPiece],
      List.filter_eq_self.mpr fun piece isPiece => by simp [areSame piece isPiece]⟩

theorem Sound.enqueue (sound : Sound sys) (data : Bytes) :
    Sound { sys with
      queue := sys.queue.enqueue (asPiece sys.inputs.length data)
      inputs := sys.inputs ++ [data] } := by
  have grows := grows_enqueue sound.filled sound.calm sys.inputs.length data
  obtain ⟨before, after, isLine, isNext, isLast⟩ := grows.enters
  have ordered := sound.ordered
  have replies := sound.replies
  rw [isLine, filter_append] at ordered replies
  refine ⟨grows.filled, grows.calm, sound.awake.enqueue _, grows.past.trans sound.past, ?_, ?_⟩
  · dsimp only
    rw [isNext, admitted_append, filter_append, filter_append, filter_append,
      ← ordered]
    rcases isLast with rfl | ⟨areReplies, -⟩
    · rw [List.filter_nil, append_nil, append_nil]
    · rw [(filter_of_forall areReplies).2, if_pos rfl, append_nil, append_nil]
  · dsimp only
    rw [isNext, admitted_append, filter_append, filter_append, filter_append,
      ← replies]
    rcases isLast with rfl | ⟨-, rfl⟩
    · rw [List.filter_nil, append_nil, append_nil]
    · have noReplies : (behind sys.queue).filter isReply = [] :=
        (filter_of_forall sound.calm).1
      rw [noReplies, append_nil, append_nil]

theorem step_sound {next : System} {label : Label} (sound : Sound sys)
    (ran : step sys label = some next) : Sound next := by
  cases label with
  | enqueue data =>
    cases ran
    exact sound.enqueue data
  | microtask =>
    simp only [step] at ran
    split_ifs at ran
    cases ran
    exact sound.quiet (quiet_runScheduled sound.filled) (PtyInputQueue.awake_flush _)
  | settled accepted =>
    simp only [step] at ran
    split_ifs at ran with inFlight
    cases ran
    have isPast := sound.past
    have isDrained := drainLoop_past sys.queue
    refine ⟨?_, sound.calm.subset (drainLoop_behind _),
      PtyInputQueue.awake_drainLoop _ sound.awake.scheduled, ?_, ?_, ?_⟩
    · rw [Filled, drainLoop_pending]
      exact sound.filled
    · dsimp only
      rw [isDrained, List.length_append, List.length_singleton]
      unfold past at isPast
      cases isDraining : sys.queue.draining
      all_goals
        rw [isDraining] at isPast
        simp at isPast
        omega
    · exact drainLoop_line sys.queue ▸ sound.ordered
    · exact drainLoop_line sys.queue ▸ sound.replies

theorem landed_sublist (writes : List Segment) (outcomes : List Bool) :
    (((writes.zip outcomes).filter Prod.snd).flatMap fun write => write.1.pieces).Sublist
      (writes.flatMap Segment.pieces) := by
  induction writes generalizing outcomes with
  | nil => exact List.Sublist.refl _
  | cons write writes ih =>
    cases outcomes with
    | nil => exact List.nil_sublist _
    | cons accepted outcomes =>
      rw [List.zip_cons_cons, List.flatMap_cons, List.filter_cons]
      split_ifs
      · exact (List.Sublist.refl _).append (ih outcomes)
      · exact (ih outcomes).trans (List.sublist_append_right _ _)

theorem landed_eq {writes : List Segment} {outcomes : List Bool}
    (sameLength : outcomes.length = writes.length)
    (areAccepted : ∀ accepted ∈ outcomes, accepted = true) :
    (((writes.zip outcomes).filter Prod.snd).flatMap fun write => write.1.pieces) =
      writes.flatMap Segment.pieces := by
  have isAll : (writes.zip outcomes).filter Prod.snd = writes.zip outcomes :=
    List.filter_eq_self.mpr fun write isWrite => areAccepted _ (List.of_mem_zip isWrite).2
  have isFirst := @List.map_fst_zip _ _ writes outcomes (Nat.le_of_eq sameLength.symm)
  rw [isAll]
  conv_rhs => rw [← isFirst]
  rw [List.flatMap_map]

theorem Sound.kept (sound : Sound sys) : Kept sys := by
  have isPast := sound.past
  unfold InputOrder.past at isPast
  have atMost := Bool.toNat_le sys.queue.draining
  refine ⟨by omega, sound.ordered, sound.replies, ?_, fun isDone notScheduled => ?_⟩
  · exact (landed_sublist _ _).trans (List.sublist_append_left _ _)
  · have notDraining : sys.queue.draining = false := by
      cases isDraining : sys.queue.draining with
      | false => rfl
      | true =>
        rw [isDraining] at isPast
        simp at isPast
        omega
    have isFifo : sys.queue.fifo = [] := by
      by_contra notNil
      exact Bool.noConfusion (notDraining.symm.trans (sound.awake.draining notNil))
    have isPending : sys.queue.pendingInteractive = [] := by
      by_contra notNil
      exact Bool.noConfusion (notScheduled.symm.trans (sound.awake.scheduled notNil))
    refine ⟨isFifo, isPending, fun areAccepted => ?_⟩
    unfold landed line
    rw [landed_eq isDone areAccepted, isFifo, isPending]
    exact (append_nil _).symm

theorem enters_of_step {next : System} {label : Label} (sound : Sound sys)
    (ran : step sys label = some next) :
    Enters (· = behind sys.queue) sys.queue next.queue := by
  have enters (isLine : line next.queue = line sys.queue) :
      Enters (· = behind sys.queue) sys.queue next.queue :=
    ⟨line sys.queue, [], [], (append_nil _).symm, by rw [isLine]; simp, .inl rfl⟩
  cases label with
  | enqueue data =>
    cases ran
    have grows := grows_enqueue sound.filled sound.calm sys.inputs.length data
    obtain ⟨before, after, isLine, isNext, isLast⟩ := grows.enters
    exact ⟨before, _, after, isLine, isNext, isLast⟩
  | microtask =>
    simp only [step] at ran
    split_ifs at ran
    cases ran
    exact enters (quiet_runScheduled sound.filled).line
  | settled accepted =>
    simp only [step] at ran
    split_ifs at ran
    cases ran
    exact enters (drainLoop_line _)

theorem two_chunks {data : Bytes} (isLong : pasteDirectMaxBytes < data.length)
    (isWithin : data.length ≤ pasteCeilingBytes) :
    ∃ first second rest,
      splitPasteInput data pasteChunkBytes pasteCeilingBytes = first :: second :: rest := by
  have isEq := InputQueue.splitPasteInput_eq data pasteChunkBytes pasteCeilingBytes
  have isFlat := InputQueue.flatten_splitFrom data pasteChunkBytes 0 0 0 (Nat.le_refl 0)
  have chunked := InputQueue.splitFrom_chunked (show 6 ≤ pasteChunkBytes by decide)
    (@InputQueue.Break.zero data) .start (Nat.le_refl 0) rfl (Nat.zero_le _)
  unfold InputQueue.closers InputQueue.afterCeiling at isEq
  rw [if_neg (Nat.not_lt.mpr isWithin), decide_eq_false (Nat.not_lt.mpr isWithin), Bool.false_and,
    if_neg Bool.false_ne_true, append_nil] at isEq
  rw [isEq]
  generalize InputQueue.splitFrom data pasteChunkBytes 0 0 0 = chunks at isFlat chunked
  have isLength := congrArg List.length isFlat
  rw [List.drop_zero] at isLength
  unfold pasteDirectMaxBytes at isLong
  match chunks, chunked, isLength with
  | [], _, isLength => exact absurd isLength (by simp; omega)
  | [only], chunked, isLength =>
    have isShort := chunked.short only (List.mem_singleton_self _)
    unfold pasteChunkBytes at isShort
    rw [List.flatten_singleton] at isLength
    omega
  | first :: second :: rest, _, _ => exact ⟨first, second, rest, rfl⟩

/-- A chunk of the first input. -/
def chunk (bytes : Bytes) : Segment := ⟨.paste, [⟨some 0, bytes⟩]⟩

/-- A long paste is under way, and a character is typed behind it. -/
def typedBehind (data first second : Bytes) (rest : List Bytes) : System :=
  ⟨⟨chunk second :: rest.map chunk, [⟨some 1, [0x78]⟩], true, true, [chunk first]⟩,
    [data, [0x78]], []⟩

theorem typedBehind_reachable : ∃ data first second rest,
    Reachable step initial (typedBehind data first second rest) := by
  obtain ⟨data, isLong, isWithin⟩ : ∃ data : Bytes, pasteDirectMaxBytes < data.length ∧
      data.length ≤ pasteCeilingBytes :=
    ⟨List.replicate 65537 0x61, by rw [List.length_replicate]; decide,
      by rw [List.length_replicate]; decide⟩
  obtain ⟨first, second, rest, isSplit⟩ := two_chunks isLong isWithin
  have notReply : isQueryReply data = false := by
    refine Bool.eq_false_iff.mpr fun isReply => ?_
    have isShort := short_of_isQueryReply isReply
    unfold pasteDirectMaxBytes at isLong
    omega
  have notNil : data ≠ [] := fun isNil => by
    rw [isNil] at isLong
    cases isLong
  have isPiece : asPiece 0 data = ⟨some 0, data⟩ := by
    unfold asPiece
    rw [notReply]
    rfl
  have isPasted : step initial (.enqueue data) = some
      ⟨⟨chunk second :: rest.map chunk, [], false, true, [chunk first]⟩, [data], []⟩ := by
    change some (System.mk (initial.queue.enqueue (asPiece 0 data)) [data] []) = _
    rw [isPiece]
    unfold PtyInputQueue.enqueue
    rw [if_neg notNil, notReply, Bool.false_and, if_neg Bool.false_ne_true, if_pos isLong]
    unfold PtyInputQueue.pushPaste
    rw [isSplit]
    rfl
  exact ⟨data, first, second, rest, .tail (.enqueue [0x78]) (.tail _ .refl trivial isPasted)
    trivial rfl⟩

/-- `ESC[0n`. -/
def answer : Bytes := [0x1b, 0x5b, 0x30, 0x6e]

/-- Inputs are written in their order and once; a reply goes before the unsent chunks, and what is
behind them, only. -/
theorem inOrder {sys : System} (run : Reachable step initial sys) :
    Kept sys ∧ ∀ label next, step sys label = some next →
      Enters (· = behind sys.queue) sys.queue next.queue := by
  have sound : Sound sys := run.invariant initial_sound
    fun _ _ _ sound _ ran => step_sound sound ran
  exact ⟨sound.kept, fun label next ran => enters_of_step sound ran⟩

/-- A reply comes while a paste is under way and a character waits behind it. -/
theorem inOrder_typed : ∃ sys next, Reachable step initial sys ∧
    step sys (.enqueue answer) = some next ∧ sys.queue.fifo ≠ [] ∧ Kept next ∧
      Enters (· = behind sys.queue) sys.queue next.queue := by
  obtain ⟨data, first, second, rest, run⟩ := typedBehind_reachable
  obtain ⟨next, answered⟩ :
      ∃ next, step (typedBehind data first second rest) (.enqueue answer) = some next := ⟨_, rfl⟩
  exact ⟨_, next, run, answered, List.cons_ne_nil _ _, (inOrder (.tail _ run trivial answered)).1,
    (inOrder run).2 _ _ answered⟩

theorem not_behindChunksOnly : ¬∀ sys, Reachable step initial sys →
    ∀ label next, step sys label = some next →
      Enters (fun overtaken => ∀ piece ∈ overtaken, ∃ segment ∈ sys.queue.fifo,
        segment.kind = .paste ∧ piece ∈ segment.pieces) sys.queue next.queue := by
  intro entersAll
  obtain ⟨data, first, second, rest, run⟩ := typedBehind_reachable
  obtain ⟨before, added, after, isLine, isNext, isLast⟩ := entersAll _ run (.enqueue answer) _ rfl
  change ⟨some 0, first⟩ :: ⟨some 0, second⟩ ::
    ((rest.map chunk).flatMap Segment.pieces ++ [(⟨some 1, [0x78]⟩ : Piece)]) = before ++ after
    at isLine
  change ⟨some 0, first⟩ :: ⟨none, answer⟩ :: _ = before ++ added ++ after at isNext
  have isNil : after = [] := by
    rcases isLast with isNil | ⟨-, areChunks⟩
    · exact isNil
    · by_contra notNil
      have last := congrArg List.getLast? isLine
      rw [List.getLast?_append_of_ne_nil _ notNil, ← List.cons_append, ← List.cons_append,
        List.getLast?_concat] at last
      obtain ⟨segment, isSegment, -, isPart⟩ := areChunks _ (List.mem_of_getLast? last.symm)
      obtain ⟨bytes, rfl⟩ : ∃ bytes, segment = chunk bytes := by
        rcases List.mem_cons.mp isSegment with isSecond | isLater
        · exact ⟨second, isSecond⟩
        · obtain ⟨bytes, -, same⟩ := mem_map.mp isLater
          exact ⟨bytes, same.symm⟩
      cases mem_singleton.mp isPart
  rw [isNil, append_nil] at isLine isNext
  rw [← isLine] at isNext
  cases (List.cons.inj (List.cons.inj isNext).2).1

end AiTools.Terminal.InputOrder
