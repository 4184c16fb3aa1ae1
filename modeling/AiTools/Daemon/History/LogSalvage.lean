import AiTools.Daemon.History.Log

/-!
Contract: what `decodeLog` recovers from an output log cut at any byte.
-/

namespace AiTools.Daemon.History

open AiTools.Lib
open AiTools.Lib.TaggedFrames
open List (append_assoc cons_append length_append map_cons mem_cons mem_cons_of_mem nil_prefix
  take_append take_of_length_le)

/-- Bytes of a record's frame. -/
def recordSize (record : HistoryRecord) : Nat := (encodeFrame (recordFrame record)).length

/-- Bytes of a `Batch(seq)` frame. -/
def batchFrameSize : Nat := 13

/-- Bytes of an encoded batch. -/
def batchSize (batch : LogBatch) : Nat := (encodeFrames batch.frames).length

theorem seqFrame_length (seq : UInt64) : (encodeFrame (seqFrame seq)).length = batchFrameSize := by
  simp [seqFrame, batchFrameSize]

theorem batchSize_eq (batch : LogBatch) :
    batchSize batch =
      batchFrameSize + (encodeFrames (batch.records.map recordFrame)).length := by
  rw [batchSize, LogBatch.frames, encodeFrames_cons, length_append, seqFrame_length]

theorem batchFrameSize_le (batch : LogBatch) : batchFrameSize ≤ batchSize batch := by
  rw [batchSize_eq]
  omega

/-- Records without a single Output byte. -/
def Silent (records : List HistoryRecord) : Prop :=
  ∀ bytes, HistoryRecord.output bytes ∈ records → bytes = []

/-- The Output bytes of records, counted without a word size. -/
def outputLength : List HistoryRecord → Nat
  | [] => 0
  | .output bytes :: rest => bytes.length + outputLength rest
  | _ :: rest => outputLength rest

theorem recordsOutputBytes_eq (records : List HistoryRecord) :
    recordsOutputBytes records = UInt64.ofNat (outputLength records) := by
  induction records with
  | nil => rfl
  | cons record rest ih =>
    rw [recordsOutputBytes_cons, ih]
    cases record <;> simp [HistoryRecord.outputBytes, outputLength]

theorem outputLength_append (left right : List HistoryRecord) :
    outputLength (left ++ right) = outputLength left + outputLength right := by
  induction left with
  | nil => simp [outputLength]
  | cons record rest ih =>
    cases record <;> simp [outputLength, ih, Nat.add_assoc]

variable {records : List HistoryRecord} {batch : LogBatch} {batches : List LogBatch} {cut : Nat}
  {recordLists : List (List HistoryRecord)}

theorem length_le_outputLength {bytes : List UInt8}
    (member : HistoryRecord.output bytes ∈ records) : bytes.length ≤ outputLength records := by
  induction records with
  | nil => simp at member
  | cons record rest ih =>
    rcases mem_cons.mp member with rfl | later
    · simp [outputLength]
    · have bound := ih later
      cases record <;> simp only [outputLength] <;> omega

theorem outputLength_le_size (batch : LogBatch) :
    outputLength batch.records ≤ batchSize batch := by
  have frames : ∀ records : List HistoryRecord,
      outputLength records ≤ (encodeFrames (records.map recordFrame)).length := by
    intro records
    induction records with
    | nil => simp [outputLength]
    | cons record rest ih =>
      rw [map_cons, encodeFrames_cons, length_append, encodeFrame_length]
      cases record <;> simp only [outputLength, recordFrame] <;> omega
  rw [batchSize_eq]
  exact Nat.le_trans (frames batch.records) (Nat.le_add_left _ _)

theorem silent_of_recordsOutputBytes (small : outputLength records < 2 ^ 64)
    (zero : recordsOutputBytes records = 0) :
    Silent records := by
  intro bytes member
  have bound := length_le_outputLength member
  rw [recordsOutputBytes_eq] at zero
  have length : outputLength records = 0 := by
    have counted := congrArg UInt64.toNat zero
    rw [UInt64.toNat_ofNat', Nat.mod_eq_of_lt small] at counted
    exact counted
  exact List.length_eq_zero_iff.mp (by omega)

theorem encodable_of_size (small : batchSize batch < 2 ^ 32) :
    batch.Encodable := by
  intro record member
  cases record with
  | output bytes =>
    have bound := length_le_outputLength member
    have size := outputLength_le_size batch
    change bytes.length < 2 ^ 32
    omega
  | resize cols rows => trivial
  | clear => trivial

/-- The records whose frames lie wholly before the cut, and the bytes left of
the next one. -/
def recordSurvivors : List HistoryRecord → Nat → List HistoryRecord × Nat
  | [], _ => ([], 0)
  | record :: rest, cut =>
    if cut < recordSize record then ([], cut)
    else
      let later := recordSurvivors rest (cut - recordSize record)
      (record :: later.1, later.2)

/-- The batches of which anything but a torn `Batch` frame lies before the cut,
and the bytes left of the frame that was cut. -/
def survivors : List LogBatch → Nat → List LogBatch × Nat
  | [], _ => ([], 0)
  | batch :: rest, cut =>
    if cut < batchFrameSize then ([], cut)
    else if cut < batchSize batch then
      let kept := recordSurvivors batch.records (cut - batchFrameSize)
      ([⟨batch.seq, kept.1⟩], kept.2)
    else
      let later := survivors rest (cut - batchSize batch)
      (batch :: later.1, later.2)

theorem recordSurvivors_encodable (encodable : ∀ record ∈ records, record.Encodable) (cut : Nat) :
    ∀ record ∈ (recordSurvivors records cut).1, record.Encodable := by
  induction records generalizing cut with
  | nil => simp [recordSurvivors]
  | cons head rest ih =>
    intro record member
    rw [recordSurvivors] at member
    split_ifs at member with torn
    · simp at member
    · rcases mem_cons.mp member with rfl | later
      · exact encodable record (by simp)
      · exact ih
          (fun other inRest => encodable other (mem_cons_of_mem _ inRest)) _ record later

theorem survivors_encodable (encodable : ∀ batch ∈ batches, batch.Encodable) (cut : Nat) :
    ∀ batch ∈ (survivors batches cut).1, batch.Encodable := by
  induction batches generalizing cut with
  | nil => simp [survivors]
  | cons head rest ih =>
    have headEncodable : head.Encodable := encodable head (by simp)
    intro batch member
    rw [survivors] at member
    split_ifs at member with tornHeader tornRecords
    · simp at member
    · simp only [List.mem_singleton] at member
      subst member
      exact recordSurvivors_encodable headEncodable _
    · rcases mem_cons.mp member with rfl | later
      · exact headEncodable
      · exact ih
          (fun other inRest => encodable other (mem_cons_of_mem _ inRest)) _ batch later

theorem take_recordFrames (encodable : ∀ record ∈ records, record.Encodable) (cut : Nat) :
    ∃ torn : TornFrame, torn.part = (recordSurvivors records cut).2 ∧
      (encodeFrames (records.map recordFrame)).take cut =
        encodeFrames ((recordSurvivors records cut).1.map recordFrame) ++ torn.bytes := by
  induction records generalizing cut with
  | nil => exact ⟨.none, rfl, by simp [recordSurvivors]⟩
  | cons record rest ih =>
    rw [recordSurvivors]
    have fits := recordFrame_fits (encodable record (by simp))
    by_cases tornHere : cut < recordSize record
    · refine ⟨⟨recordFrame record, fits, cut, tornHere⟩, by simp [tornHere], ?_⟩
      rw [if_pos tornHere, map_cons, encodeFrames_cons,
        List.take_append_of_le_length (Nat.le_of_lt tornHere)]
      rfl
    · have size : recordSize record = (encodeFrame (recordFrame record)).length := rfl
      obtain ⟨torn, part, taken⟩ := ih
        (fun other member => encodable other (mem_cons_of_mem _ member))
        (cut - recordSize record)
      refine ⟨torn, by simp [tornHere, part], ?_⟩
      rw [if_neg tornHere, map_cons, encodeFrames_cons, take_append,
        take_of_length_le (by omega), ← size, taken, map_cons, encodeFrames_cons,
        append_assoc]

theorem take_encodeBatches (encodable : ∀ batch ∈ batches, batch.Encodable) (cut : Nat) :
    ∃ torn : TornFrame, torn.part = (survivors batches cut).2 ∧
      (encodeBatches batches).take cut =
        encodeBatches (survivors batches cut).1 ++ torn.bytes := by
  induction batches generalizing cut with
  | nil => exact ⟨.none, rfl, by simp [survivors]⟩
  | cons batch rest ih =>
    have batchEncodable : batch.Encodable := encodable batch (by simp)
    have headerSize := seqFrame_length batch.seq
    have size := batchSize_eq batch
    rw [survivors]
    by_cases tornHeader : cut < batchFrameSize
    · refine ⟨⟨seqFrame batch.seq, seqFrame_fits _, cut, by omega⟩, by simp [tornHeader], ?_⟩
      rw [if_pos tornHeader, encodeBatches_cons, LogBatch.frames, encodeFrames_cons,
        append_assoc, List.take_append_of_le_length (by omega)]
      rfl
    · by_cases tornRecords : cut < batchSize batch
      · obtain ⟨torn, part, taken⟩ := take_recordFrames batchEncodable
          (cut - batchFrameSize)
        refine ⟨torn, by simp [tornHeader, tornRecords, part], ?_⟩
        rw [if_neg tornHeader, if_pos tornRecords, encodeBatches_cons,
          List.take_append_of_le_length (Nat.le_of_lt tornRecords), LogBatch.frames,
          encodeFrames_cons, take_append, take_of_length_le (by omega), headerSize,
          taken]
        simp [LogBatch.frames]
      · have lengths : (encodeFrames batch.frames).length = batchSize batch := rfl
        obtain ⟨torn, part, taken⟩ := ih
          (fun other member => encodable other (mem_cons_of_mem _ member))
          (cut - batchSize batch)
        refine ⟨torn, by simp [tornHeader, tornRecords, part], ?_⟩
        rw [if_neg tornHeader, if_neg tornRecords, encodeBatches_cons, take_append,
          take_of_length_le (by omega), lengths, taken, encodeBatches_cons,
          append_assoc]

theorem decodeLog_take (generation : UInt32) (encodable : ∀ batch ∈ batches, batch.Encodable)
    (cut : Nat) :
    decodeLog ((encodeLog generation batches).take (logHeaderBytes + cut)) =
      if SeqConsistent 0 (survivors batches cut).1 then
        some ⟨generation, (survivors batches cut).1, decide (0 < (survivors batches cut).2)⟩
      else none := by
  obtain ⟨torn, part, taken⟩ := take_encodeBatches encodable cut
  have split : (encodeLog generation batches).take (logHeaderBytes + cut) =
      encodeLog generation (survivors batches cut).1 ++ torn.bytes := by
    rw [encodeLog, take_append, take_of_length_le (by simp),
      encodeLogHeader_length, Nat.add_sub_cancel_left, taken, encodeLog, append_assoc]
  rw [split, decodeLog_torn generation _ (survivors_encodable encodable cut), part]

/-- The cut lies between two batches, or at an end of the list. -/
def OnBatchBoundary (batches : List LogBatch) (cut : Nat) : Prop :=
  ∃ whole rest, batches = whole ++ rest ∧ cut = (encodeBatches whole).length

theorem onBatchBoundary_cons (batch : LogBatch) (rest : List LogBatch) (cut : Nat) :
    OnBatchBoundary (batch :: rest) cut ↔
      cut = 0 ∨ batchSize batch ≤ cut ∧ OnBatchBoundary rest (cut - batchSize batch) := by
  constructor
  · rintro ⟨whole, later, split, position⟩
    cases whole with
    | nil => exact Or.inl (by simpa using position)
    | cons first whole =>
      rw [cons_append, List.cons.injEq] at split
      obtain ⟨rfl, split⟩ := split
      rw [encodeBatches_cons, length_append] at position
      have size : batchSize batch = (encodeFrames batch.frames).length := rfl
      exact Or.inr ⟨by omega, whole, later, split, by omega⟩
  · rintro (rfl | ⟨inside, whole, later, rfl, position⟩)
    · exact ⟨[], batch :: rest, rfl, rfl⟩
    · refine ⟨batch :: whole, later, rfl, ?_⟩
      rw [encodeBatches_cons, length_append]
      have size : batchSize batch = (encodeFrames batch.frames).length := rfl
      omega

theorem whole_prefix_survivors (whole rest : List LogBatch) (cut : Nat)
    (written : (encodeBatches whole).length ≤ cut) :
    whole <+: (survivors (whole ++ rest) cut).1 := by
  induction whole generalizing cut with
  | nil => exact nil_prefix
  | cons batch whole ih =>
    rw [encodeBatches_cons, length_append] at written
    have size : batchSize batch = (encodeFrames batch.frames).length := rfl
    have header := batchFrameSize_le batch
    rw [cons_append, survivors, if_neg (by omega), if_neg (by omega)]
    exact (List.prefix_cons_inj batch).mpr (ih _ (by omega))

theorem survivors_append (whole rest : List LogBatch) (cut : Nat) :
    (survivors (whole ++ rest) ((encodeBatches whole).length + cut)).1 =
      whole ++ (survivors rest cut).1 := by
  induction whole with
  | nil => simp
  | cons batch whole ih =>
    have size : batchSize batch = (encodeFrames batch.frames).length := rfl
    have header := batchFrameSize_le batch
    rw [encodeBatches_cons, length_append, cons_append, survivors,
      if_neg (by omega), if_neg (by omega), ← size, Nat.add_assoc, Nat.add_sub_cancel_left]
    exact congrArg (batch :: ·) ih

theorem recordSurvivors_prefix (records : List HistoryRecord) (cut : Nat) :
    (recordSurvivors records cut).1 <+: records := by
  induction records generalizing cut with
  | nil => exact nil_prefix
  | cons record rest ih =>
    rw [recordSurvivors]
    split_ifs
    · exact nil_prefix
    · exact (List.prefix_cons_inj record).mpr (ih _)

/-- What a cut leaves of one batch: nothing, the whole batch, or its stamped
`seq` over a prefix of its records. -/
theorem survivors_singleton (batch : LogBatch) (cut : Nat) :
    (survivors [batch] cut).1 = [] ∨
      ∃ kept lost, batch.records = kept ++ lost ∧
        (survivors [batch] cut).1 = [⟨batch.seq, kept⟩] := by
  rw [survivors]
  split_ifs with tornHeader tornRecords
  · exact Or.inl rfl
  · obtain ⟨lost, split⟩ := recordSurvivors_prefix batch.records (cut - batchFrameSize)
    exact Or.inr ⟨_, lost, split.symm, rfl⟩
  · exact Or.inr ⟨batch.records, [], by simp, rfl⟩

/-- The decoder's contract at one cut: it returns a log of the header's
generation that starts with every completely written batch, and reports a torn
tail whenever the cut is not on a batch boundary. -/
def Salvaged (generation : UInt32) (batches : List LogBatch) (cut : Nat) : Prop :=
  ∃ decoded, decodeLog ((encodeLog generation batches).take (logHeaderBytes + cut)) =
      some decoded ∧
    decoded.generation = generation ∧
    (∀ whole rest, batches = whole ++ rest → (encodeBatches whole).length ≤ cut →
      whole <+: decoded.batches) ∧
    (¬ OnBatchBoundary batches cut → decoded.truncatedTail = true)

/-- The cut falls strictly inside the frame of a record from which on the batch
carries no Output bytes. -/
def RecordCutSalvages : List HistoryRecord → Nat → Prop
  | [], _ => False
  | record :: rest, cut =>
    if recordSize record ≤ cut then RecordCutSalvages rest (cut - recordSize record)
    else 0 < cut ∧ recordsOutputBytes (record :: rest) = 0

/-- The cut is on a batch boundary, inside a `Batch` frame, or strictly inside
the frame of a record from which on its batch carries no Output bytes. -/
def CutSalvages : List LogBatch → Nat → Prop
  | [], _ => True
  | batch :: rest, cut =>
    if batchSize batch ≤ cut then CutSalvages rest (cut - batchSize batch)
    else cut < batchFrameSize ∨ RecordCutSalvages batch.records (cut - batchFrameSize)

/-- A partial batch keeps its stamped `seq`, so it stays consistent only if the
lost records carried no Output bytes. -/
theorem recordSurvivors_accounted_iff
    (inside : cut < (encodeFrames (records.map recordFrame)).length) :
    (recordsOutputBytes records = recordsOutputBytes (recordSurvivors records cut).1 ∧
        0 < (recordSurvivors records cut).2) ↔
      RecordCutSalvages records cut := by
  induction records generalizing cut with
  | nil => simp at inside
  | cons record rest ih =>
    rw [recordSurvivors, RecordCutSalvages]
    by_cases whole : recordSize record ≤ cut
    · have size : recordSize record = (encodeFrame (recordFrame record)).length := rfl
      rw [map_cons, encodeFrames_cons, length_append] at inside
      rw [if_neg (by omega), if_pos whole, ← ih (by omega)]
      simp
    · rw [if_pos (by omega), if_neg whole]
      simp [and_comm]

/-- For a consistent list, the survivors of a cut are consistent and a cut off
the batch boundaries is reported, exactly at the salvaging cuts. -/
theorem survivors_consistent_iff {running : UInt64} (consistent : SeqConsistent running batches)
    (inside : cut ≤ (encodeBatches batches).length) :
    (SeqConsistent running (survivors batches cut).1 ∧
        (¬ OnBatchBoundary batches cut → 0 < (survivors batches cut).2)) ↔
      CutSalvages batches cut := by
  induction batches generalizing running cut with
  | nil =>
    have boundary : OnBatchBoundary [] cut := ⟨[], [], rfl, by simpa using inside⟩
    simp [survivors, CutSalvages, SeqConsistent, boundary]
  | cons batch rest ih =>
    obtain ⟨accounted, restConsistent⟩ := consistent
    have header := batchFrameSize_le batch
    have size := batchSize_eq batch
    rw [encodeBatches_cons, length_append,
      show (encodeFrames batch.frames).length = batchSize batch from rfl] at inside
    rw [survivors, CutSalvages, onBatchBoundary_cons]
    by_cases whole : batchSize batch ≤ cut
    · rw [if_neg (by omega), if_neg (by omega), if_pos whole,
        ← ih restConsistent (by omega)]
      have positive : cut ≠ 0 := by
        have frame : 0 < batchFrameSize := by decide
        omega
      simp [SeqConsistent, accounted, positive, whole]
    · rw [if_neg whole]
      by_cases tornHeader : cut < batchFrameSize
      · rw [if_pos tornHeader]
        simp only [SeqConsistent, tornHeader, true_and, true_or, iff_true]
        intro offBoundary
        by_contra empty
        exact offBoundary (Or.inl (by omega))
      · rw [if_neg tornHeader, if_pos (by omega)]
        have cutPositive : cut ≠ 0 := by
          have frame : 0 < batchFrameSize := by decide
          omega
        rw [← @recordSurvivors_accounted_iff batch.records _ (by omega)]
        simp [SeqConsistent, accounted, whole, tornHeader, cutPositive]

theorem salvaged_iff (generation : UInt32) (encodable : ∀ batch ∈ batches, batch.Encodable)
    (consistent : SeqConsistent 0 batches) (inside : cut ≤ (encodeBatches batches).length) :
    Salvaged generation batches cut ↔ CutSalvages batches cut := by
  rw [← survivors_consistent_iff consistent inside, Salvaged,
    decodeLog_take generation encodable cut]
  constructor
  · rintro ⟨decoded, result, _, _, tail⟩
    split_ifs at result with kept
    cases result
    exact ⟨kept, by simpa using tail⟩
  · rintro ⟨kept, tail⟩
    rw [if_pos kept]
    refine ⟨_, rfl, rfl, ?_, by simpa using tail⟩
    rintro whole rest rfl written
    exact whole_prefix_survivors whole rest cut written

/-! ## Stamped logs -/

/-- Batches stamped with consecutive sequence numbers. -/
def stampBatches : UInt64 → List (List HistoryRecord) → List LogBatch
  | _, [] => []
  | running, records :: rest =>
    ⟨running + recordsOutputBytes records, records⟩ ::
      stampBatches (running + recordsOutputBytes records) rest

theorem stampBatches_consistent (running : UInt64) (recordLists : List (List HistoryRecord)) :
    SeqConsistent running (stampBatches running recordLists) := by
  induction recordLists generalizing running with
  | nil => trivial
  | cons records rest ih => exact ⟨rfl, ih _⟩

theorem stampBatches_encodable (running : UInt64)
    (encodable : ∀ records ∈ recordLists, ∀ record ∈ records, record.Encodable) :
    ∀ batch ∈ stampBatches running recordLists, batch.Encodable := by
  induction recordLists generalizing running with
  | nil => simp [stampBatches]
  | cons records rest ih =>
    intro batch member
    rcases mem_cons.mp member with rfl | later
    · exact encodable records (by simp)
    · exact ih _
        (fun other inRest => encodable other (mem_cons_of_mem _ inRest)) batch later

theorem stampBatches_records (running : UInt64) (recordLists : List (List HistoryRecord)) :
    (stampBatches running recordLists).flatMap LogBatch.records = recordLists.flatten := by
  induction recordLists generalizing running with
  | nil => rfl
  | cons records rest ih =>
    rw [stampBatches, List.flatMap_cons, ih, List.flatten_cons]

theorem stampBatches_append (running : UInt64) (recordLists : List (List HistoryRecord))
    (records : List HistoryRecord) :
    stampBatches running (recordLists ++ [records]) =
      stampBatches running recordLists ++
        [⟨running + recordsOutputBytes recordLists.flatten + recordsOutputBytes records,
          records⟩] := by
  induction recordLists generalizing running with
  | nil => simp [stampBatches]
  | cons first rest ih =>
    rw [cons_append, stampBatches, ih, stampBatches, List.flatten_cons,
      recordsOutputBytes_append, cons_append]
    simp [UInt64.add_assoc]

/-- The `seq` that the batch behind `before` has to continue. -/
def lastSeq (before : List LogBatch) : UInt64 :=
  (before.getLast?.map LogBatch.seq).getD 0

theorem seqConsistent_append (running : UInt64) (before after : List LogBatch) :
    SeqConsistent running (before ++ after) ↔
      SeqConsistent running before ∧
        SeqConsistent ((before.getLast?.map LogBatch.seq).getD running) after := by
  induction before generalizing running with
  | nil => simp [SeqConsistent]
  | cons batch rest ih =>
    rw [cons_append, SeqConsistent, SeqConsistent, ih, and_assoc]
    cases rest with
    | nil => simp [SeqConsistent]
    | cons next rest =>
      have last : (next :: rest).getLast? = some ((next :: rest).getLast (by simp)) :=
        List.getLast?_eq_some_getLast (by simp)
      rw [List.getLast?_cons_cons, last, Option.map_some, Option.getD_some,
        Option.getD_some]

theorem stampBatches_lastSeq (running : UInt64) (recordLists : List (List HistoryRecord)) :
    ((stampBatches running recordLists).getLast?.map LogBatch.seq).getD running =
      running + recordsOutputBytes recordLists.flatten := by
  induction recordLists using List.reverseRecOn with
  | nil => simp [stampBatches]
  | append_singleton before records =>
    rw [stampBatches_append]
    simp [UInt64.add_assoc]

/-- The batch that continues stamped batches. -/
def nextBatch (recordLists : List (List HistoryRecord)) (records : List HistoryRecord) :
    LogBatch :=
  ⟨recordsOutputBytes recordLists.flatten + recordsOutputBytes records, records⟩

theorem stampBatches_snoc (recordLists : List (List HistoryRecord))
    (records : List HistoryRecord) :
    stampBatches 0 (recordLists ++ [records]) =
      stampBatches 0 recordLists ++ [nextBatch recordLists records] := by
  rw [stampBatches_append, UInt64.zero_add]
  rfl

theorem encodeLog_snoc (generation : UInt32) (recordLists : List (List HistoryRecord))
    (records : List HistoryRecord) :
    encodeLog generation (stampBatches 0 (recordLists ++ [records])) =
      encodeLog generation (stampBatches 0 recordLists) ++
        encodeFrames (nextBatch recordLists records).frames := by
  rw [stampBatches_snoc, encodeLog, encodeLog, encodeBatches_append, encodeBatches_cons,
    encodeBatches_nil, List.append_nil, append_assoc]

/-- The exact result of decoding a log of stamped batches behind which a further
batch was torn. -/
theorem decodeLog_snoc_take (generation : UInt32)
    (encodable : ∀ member ∈ recordLists ++ [records], ∀ record ∈ member, record.Encodable)
    (cut : Nat) :
    ∃ truncatedTail,
      decodeLog (encodeLog generation (stampBatches 0 recordLists) ++
          (encodeFrames (nextBatch recordLists records).frames).take cut) =
        if SeqConsistent 0 (stampBatches 0 recordLists ++
            (survivors [nextBatch recordLists records] cut).1) then
          some ⟨generation, stampBatches 0 recordLists ++
            (survivors [nextBatch recordLists records] cut).1, truncatedTail⟩
        else none := by
  have length : (encodeLog generation (stampBatches 0 recordLists)).length =
      logHeaderBytes + (encodeBatches (stampBatches 0 recordLists)).length := by
    rw [encodeLog, length_append, encodeLogHeader_length]
  have cutLog : encodeLog generation (stampBatches 0 recordLists) ++
        (encodeFrames (nextBatch recordLists records).frames).take cut =
      (encodeLog generation (stampBatches 0 (recordLists ++ [records]))).take
        (logHeaderBytes + ((encodeBatches (stampBatches 0 recordLists)).length + cut)) := by
    rw [encodeLog_snoc, ← Nat.add_assoc, ← length, List.take_length_add_append]
  rw [cutLog, decodeLog_take generation (stampBatches_encodable 0 encodable), stampBatches_snoc,
    survivors_append]
  exact ⟨_, rfl⟩

/-- Stamped batches followed by a part of the next one are consistent when that
part carries all of its Output bytes. -/
theorem snoc_consistent_iff (recordLists : List (List HistoryRecord))
    (records kept : List HistoryRecord) :
    SeqConsistent 0 (stampBatches 0 recordLists ++
        [⟨(nextBatch recordLists records).seq, kept⟩]) ↔
      recordsOutputBytes kept = recordsOutputBytes records := by
  rw [seqConsistent_append, stampBatches_lastSeq, UInt64.zero_add]
  simp only [SeqConsistent, stampBatches_consistent, true_and, and_true, nextBatch,
    UInt64.add_right_inj]
  exact eq_comm

/-- A log of stamped batches behind which a further batch was torn decodes, if
at all, to these batches and to a prefix of the further one that carries all of
its Output bytes. -/
theorem decodeLog_torn_append {generation : UInt32}
    (encodable : ∀ member ∈ recordLists ++ [records], ∀ record ∈ member, record.Encodable)
    (cut : Nat) {decoded : DecodedLog}
    (decodes : decodeLog (encodeLog generation (stampBatches 0 recordLists) ++
      (encodeFrames (nextBatch recordLists records).frames).take cut) = some decoded) :
    decoded.generation = generation ∧
      (decoded.batches.flatMap LogBatch.records = recordLists.flatten ∨
        ∃ kept lost, records = kept ++ lost ∧ recordsOutputBytes lost = 0 ∧
          decoded.batches.flatMap LogBatch.records = recordLists.flatten ++ kept) := by
  obtain ⟨truncatedTail, exact_⟩ := decodeLog_snoc_take generation encodable cut
  rw [exact_] at decodes
  split_ifs at decodes with consistent
  cases decodes
  refine ⟨rfl, ?_⟩
  rcases survivors_singleton (nextBatch recordLists records) cut with
    none | ⟨kept, lost, split, some⟩
  · left
    rw [none, List.append_nil]
    exact stampBatches_records 0 recordLists
  · right
    refine ⟨kept, lost, split, ?_, ?_⟩
    · rw [some, snoc_consistent_iff] at consistent
      change records = kept ++ lost at split
      rw [split, recordsOutputBytes_append] at consistent
      simpa using consistent
    · rw [some, List.flatMap_append, stampBatches_records]
      simp

theorem survivors_singleton_of_le (behind : batchFrameSize ≤ cut) :
    (survivors [batch] cut).1 =
      [⟨batch.seq, (recordSurvivors batch.records (cut - batchFrameSize)).1⟩] := by
  have all : ∀ (records : List HistoryRecord) (cut : Nat),
      (encodeFrames (records.map recordFrame)).length ≤ cut →
        (recordSurvivors records cut).1 = records := by
    intro records
    induction records with
    | nil => intro cut _; rfl
    | cons record rest ih =>
      intro cut whole
      have size : recordSize record = (encodeFrame (recordFrame record)).length := rfl
      rw [map_cons, encodeFrames_cons, length_append] at whole
      rw [recordSurvivors, if_neg (by omega)]
      exact congrArg (record :: ·) (ih _ (by omega))
  rw [survivors, if_neg (by omega)]
  split_ifs with torn
  · rfl
  · have size := batchSize_eq batch
    rw [all batch.records (cut - batchFrameSize) (by omega)]
    rfl

theorem gap_inconsistent {before after : List LogBatch}
    (gap : batch.seq ≠ lastSeq before + recordsOutputBytes batch.records) :
    ¬ SeqConsistent 0 (before ++ batch :: after) := by
  rw [seqConsistent_append]
  rintro ⟨_, accounted, _⟩
  exact gap accounted

/-- **The decoder's contract.** A log of consecutively stamped batches decodes
to exactly these; cut anywhere behind its header it is salvaged at exactly the
salvaging cuts; and a log with a sequence gap is rejected. -/
theorem decodeLog_contract (generation : UInt32) (recordLists : List (List HistoryRecord))
    (encodable : ∀ records ∈ recordLists, ∀ record ∈ records, record.Encodable) :
    decodeLog (encodeLog generation (stampBatches 0 recordLists)) =
        some ⟨generation, stampBatches 0 recordLists, false⟩ ∧
      (∀ cut ≤ (encodeBatches (stampBatches 0 recordLists)).length,
        Salvaged generation (stampBatches 0 recordLists) cut ↔
          CutSalvages (stampBatches 0 recordLists) cut) ∧
      (∀ (before : List LogBatch) (batch : LogBatch) (after : List LogBatch),
        (∀ member ∈ before ++ batch :: after, member.Encodable) →
        batch.seq ≠ lastSeq before + recordsOutputBytes batch.records →
        decodeLog (encodeLog generation (before ++ batch :: after)) = none) := by
  have consistent := stampBatches_consistent 0 recordLists
  have batchesEncodable := stampBatches_encodable 0 encodable
  refine ⟨?_, ?_, ?_⟩
  · rw [decodeLog_encodeLog generation _ batchesEncodable, if_pos consistent]
  · intro cut inside
    exact salvaged_iff generation batchesEncodable consistent inside
  · intro before batch after membersEncodable gap
    rw [decodeLog_encodeLog generation _ membersEncodable, if_neg (gap_inconsistent gap)]

/-- The contract at a log of two batches, the second one holding a resize. -/
theorem decodeLog_contract_two_batches :
    (∀ records ∈ [[HistoryRecord.output [65, 66]], [.output [67], .resize 80 24]],
        ∀ record ∈ records, record.Encodable) ∧
      decodeLog (encodeLog 7 (stampBatches 0
          [[HistoryRecord.output [65, 66]], [.output [67], .resize 80 24]])) =
        some ⟨7, [⟨2, [.output [65, 66]]⟩, ⟨3, [.output [67], .resize 80 24]⟩], false⟩ := by
  have encodable : ∀ records ∈ [[HistoryRecord.output [65, 66]], [.output [67], .resize 80 24]],
      ∀ record ∈ records, record.Encodable := by
    simp [HistoryRecord.Encodable]
  exact ⟨encodable, (decodeLog_contract 7 _ encodable).1⟩

/-- A crash that loses one byte of the second batch's output loses the first
batch with it: the log of `A` and `BC`, cut before its last byte, is rejected
as a whole. -/
theorem torn_output_loses_log :
    ¬ Salvaged 1 (stampBatches 0 [[.output [65]], [.output [66, 67]]])
        ((encodeBatches (stampBatches 0 [[.output [65]], [.output [66, 67]]])).length - 1) := by
  rintro ⟨decoded, result, _⟩
  have rejected : decodeLog
      ((encodeLog 1 (stampBatches 0 [[.output [65]], [.output [66, 67]]])).take
        (logHeaderBytes +
          ((encodeBatches (stampBatches 0 [[.output [65]], [.output [66, 67]]])).length - 1))) =
      none := by
    decide +kernel
  rw [rejected] at result
  cases result

end AiTools.Daemon.History
