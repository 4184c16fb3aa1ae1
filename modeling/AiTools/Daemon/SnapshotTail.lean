import AiTools.Daemon.ModeState.FoldSafe
import AiTools.Lib.Utf8
import Mathlib

/-!
Contract: the tail that a snapshot reply carries, against what the terminal holds back.
-/

namespace AiTools.Daemon.SnapshotTail

open AiTools.Daemon.ModeState AiTools.Lib
open UInt8 (le_iff_toNat_le lt_iff_toNat_lt)

/-- A character that more bytes could still complete. -/
def isIncomplete : Bytes → Bool
  | [first] => 0xc2 ≤ first && first ≤ 0xf4
  | [first, second] => 0xe0 ≤ first && first ≤ 0xf4 && isSecond first second
  | [first, second, third] =>
    0xf0 ≤ first && first ≤ 0xf4 && isSecond first second && isContinuation third
  | _ => false

/-- The incomplete character that the text ends with. -/
def incomplete (text : Bytes) : Bytes := (text.tails.find? isIncomplete).getD []

/-- The plain text behind the last escape sequence. -/
def textStep (sofar : Walk × Bytes) (code : UInt8) : Walk × Bytes :=
  let next := sofar.1.step id code
  (next, if sofar.1.state = .ground ∧ next.state = .ground then sofar.2 ++ [code] else [])

def textRun (stream : Bytes) : Walk × Bytes :=
  stream.foldl textStep (Walk.fresh State.new, [])

/-- An incomplete escape sequence, or an incomplete character of the plain text. -/
def unfinished (stream : Bytes) : Bytes :=
  if (textRun stream).1.state = .ground then incomplete (textRun stream).2
  else (textRun stream).1.pending

/-- `clear` is the state that a snapshot restores: the same screen, with nothing held back. -/
structure Terminal (Screen : Type) where
  start : Screen
  feed : Screen → Bytes → Screen
  clear : Screen → Screen
  held : Screen → Bytes
  feed_append : ∀ screen front back, feed screen (front ++ back) = feed (feed screen front) back
  held_feed : ∀ stream, held (feed start stream) = unfinished stream
  resumes : ∀ stream,
    feed (clear (feed start stream)) (held (feed start stream)) = feed start stream

/-- The stream in the chunks that were read, none of which leaves too long a sequence pending. -/
structure Reads where
  chunks : List Bytes
  fits : Fits State.new chunks

def Reads.stream (reads : Reads) : Bytes := reads.chunks.flatten

/-- `pending_escape_tail`. -/
def Reads.pendingEscapeTail (reads : Reads) : Bytes := (State.new.scanChunks reads.chunks).scanTail

/-- The tail as a JSON string, as the client writes it to its terminal. -/
def Reads.replyTail (reads : Reads) : Bytes :=
  Utf8.encode (fromUtf8Lossy reads.pendingEscapeTail)

structure Lossless (reads : Reads) : Prop where
  tail : reads.replyTail = unfinished reads.stream
  shows : ∀ (Screen : Type) (terminal : Terminal Screen) (rest : Bytes),
    terminal.feed (terminal.clear (terminal.feed terminal.start reads.stream))
      (reads.replyTail ++ rest) = terminal.feed terminal.start (reads.stream ++ rest)

/-- The cut is in no character of the plain text, and a sequence that is pending there is the UTF-8
of some text. -/
structure CutsNoCharacter (stream : Bytes) : Prop where
  text : (textRun stream).1.state = .ground → incomplete (textRun stream).2 = []
  sequence : (textRun stream).1.state ≠ .ground →
    ∃ chars, (textRun stream).1.pending = Utf8.encode chars

/-! ## Decoding -/

variable {value : Nat}

theorem toNat_ofNat_of_lt (isByte : value < 256) : (UInt8.ofNat value).toNat = value := by
  rw [UInt8.toNat_ofNat']
  exact Nat.mod_eq_of_lt isByte

theorem isContinuation_of_bounds {byte : UInt8} (low : 0x80 ≤ byte.toNat)
    (high : byte.toNat ≤ 0xbf) : ModeState.isContinuation byte = true := by
  have isLow : (0x80 : UInt8) ≤ byte := le_iff_toNat_le.mpr low
  have isHigh : byte ≤ 0xbf := le_iff_toNat_le.mpr high
  rw [ModeState.isContinuation, decide_eq_true isLow, decide_eq_true isHigh]
  rfl

theorem isSecond_of_bounds {first second : UInt8} (low : 0x80 ≤ second.toNat)
    (high : second.toNat ≤ 0xbf) (isLong : first.toNat = 0xe0 → 0xa0 ≤ second.toNat)
    (noSurrogate : first.toNat = 0xed → second.toNat ≤ 0x9f)
    (isLarge : first.toNat = 0xf0 → 0x90 ≤ second.toNat)
    (inRange : first.toNat = 0xf4 → second.toNat ≤ 0x8f) : isSecond first second = true := by
  have between {least most : UInt8} (isLeast : least.toNat ≤ second.toNat)
      (isMost : second.toNat ≤ most.toNat) :
      (decide (least ≤ second) && decide (second ≤ most)) = true := by
    rw [decide_eq_true (le_iff_toNat_le.mpr isLeast),
      decide_eq_true (le_iff_toNat_le.mpr isMost)]
    rfl
  unfold isSecond
  split_ifs with is0 is1 is2 is3
  · exact between (isLong (by rw [is0]; rfl)) high
  · exact between low (noSurrogate (by rw [is1]; rfl))
  · exact between (isLarge (by rw [is2]; rfl)) high
  · exact between low (inRange (by rw [is3]; rfl))
  · exact isContinuation_of_bounds low high

section
variable {first second third fourth : UInt8} {rest : Bytes}

theorem not_le_of_least {bound : UInt8} {least : Nat} (isLeast : least ≤ first.toNat)
    (above : bound.toNat < least) : ¬ first ≤ bound :=
  UInt8.not_le.mpr (lt_iff_toNat_lt.mpr (above.trans_le isLeast))

theorem decodeChar_two (least : 0xc2 ≤ first.toNat) (most : first.toNat ≤ 0xdf)
    (isSecond : ModeState.isContinuation second = true) :
    decodeChar first (second :: rest) =
      (Char.ofNat (first.toNat % 32 * 64 + second.toNat % 64), 1) := by
  have notAscii : ¬ first < 0x80 :=
    UInt8.not_lt.mpr (le_iff_toNat_le.mpr (Nat.le_trans (by decide) least))
  have isTwo : 0xc2 ≤ first ∧ first ≤ 0xdf :=
    ⟨le_iff_toNat_le.mpr least, le_iff_toNat_le.mpr most⟩
  rw [decodeChar, if_neg notAscii, if_pos isTwo, if_pos isSecond]
  rfl

theorem decodeChar_three (least : 0xe0 ≤ first.toNat) (most : first.toNat ≤ 0xef)
    (isSecond : ModeState.isSecond first second = true)
    (isThird : ModeState.isContinuation third = true) :
    decodeChar first (second :: third :: rest) =
      (Char.ofNat ((first.toNat % 16 * 64 + second.toNat % 64) * 64 + third.toNat % 64), 2) := by
  have notAscii : ¬ first < 0x80 :=
    UInt8.not_lt.mpr (le_iff_toNat_le.mpr (Nat.le_trans (by decide) least))
  have notTwo : ¬ (0xc2 ≤ first ∧ first ≤ 0xdf) := fun isTwo =>
    not_le_of_least least (by decide) isTwo.2
  have isThree : 0xe0 ≤ first ∧ first ≤ 0xef :=
    ⟨le_iff_toNat_le.mpr least, le_iff_toNat_le.mpr most⟩
  rw [decodeChar, if_neg notAscii, if_neg notTwo, if_pos isThree]
  dsimp only
  rw [if_pos isSecond, if_pos isThird]
  rfl

theorem decodeChar_four (least : 0xf0 ≤ first.toNat) (most : first.toNat ≤ 0xf4)
    (isSecond : ModeState.isSecond first second = true)
    (isThird : ModeState.isContinuation third = true)
    (isFourth : ModeState.isContinuation fourth = true) :
    decodeChar first (second :: third :: fourth :: rest) =
      (Char.ofNat (((first.toNat % 8 * 64 + second.toNat % 64) * 64 + third.toNat % 64) * 64 +
        fourth.toNat % 64), 3) := by
  have notAscii : ¬ first < 0x80 :=
    UInt8.not_lt.mpr (le_iff_toNat_le.mpr (Nat.le_trans (by decide) least))
  have notTwo : ¬ (0xc2 ≤ first ∧ first ≤ 0xdf) := fun isTwo =>
    not_le_of_least least (by decide) isTwo.2
  have notThree : ¬ (0xe0 ≤ first ∧ first ≤ 0xef) := fun isThree =>
    not_le_of_least least (by decide) isThree.2
  have isFour : 0xf0 ≤ first ∧ first ≤ 0xf4 :=
    ⟨le_iff_toNat_le.mpr least, le_iff_toNat_le.mpr most⟩
  rw [decodeChar, if_neg notAscii, if_neg notTwo, if_neg notThree, if_pos isFour]
  dsimp only
  rw [if_pos isSecond, if_pos isThird, if_pos isFourth]
  rfl

end

theorem toNat_range (char : Char) :
    char.toNat < 0xd800 ∨ 0xdfff < char.toNat ∧ char.toNat < 0x110000 := char.valid

theorem tail_byte (value : Nat) : (UInt8.ofNat (value % 64 + 0x80)).toNat = value % 64 + 0x80 :=
  toNat_ofNat_of_lt (by omega)

theorem isContinuation_tail_byte (value : Nat) :
    ModeState.isContinuation (UInt8.ofNat (value % 64 + 0x80)) = true :=
  isContinuation_of_bounds (by rw [tail_byte]; omega) (by rw [tail_byte]; omega)

theorem ofNat_eq (char : Char) (same : value = char.toNat) : Char.ofNat value = char := by
  rw [same]
  exact Char.ofNat_toNat char

theorem decodeChar_encode (char : Char) (rest : Bytes) : ∃ first tail,
    String.utf8EncodeChar char = first :: tail ∧
      decodeChar first (tail ++ rest) = (char, tail.length) := by
  have range := toNat_range char
  have isEncoded : String.utf8EncodeChar char = if char.toNat ≤ 0x7f then [UInt8.ofNat char.toNat]
      else if char.toNat ≤ 0x7ff then
        [UInt8.ofNat (char.toNat / 64 % 0x20 + 0xc0), UInt8.ofNat (char.toNat % 0x40 + 0x80)]
      else if char.toNat ≤ 0xffff then
        [UInt8.ofNat (char.toNat / 4096 % 0x10 + 0xe0),
          UInt8.ofNat (char.toNat / 64 % 0x40 + 0x80), UInt8.ofNat (char.toNat % 0x40 + 0x80)]
      else
        [UInt8.ofNat (char.toNat / 262144 % 0x08 + 0xf0),
          UInt8.ofNat (char.toNat / 4096 % 0x40 + 0x80),
          UInt8.ofNat (char.toNat / 64 % 0x40 + 0x80), UInt8.ofNat (char.toNat % 0x40 + 0x80)] :=
    rfl
  rw [isEncoded]
  split_ifs with isOne isTwo isThree
  · have first := toNat_ofNat_of_lt (show char.toNat < 256 by omega)
    refine ⟨_, [], rfl, ?_⟩
    have isAscii : UInt8.ofNat char.toNat < 0x80 := by
      rw [lt_iff_toNat_lt, first]
      exact Nat.lt_succ_of_le isOne
    show decodeChar (UInt8.ofNat char.toNat) rest = (char, 0)
    unfold decodeChar
    rw [if_pos isAscii, first, Char.ofNat_toNat]
  · have first := toNat_ofNat_of_lt (show char.toNat / 64 % 0x20 + 0xc0 < 256 by omega)
    refine ⟨_, _, rfl, ?_⟩
    rw [List.singleton_append, decodeChar_two (by rw [first]; omega) (by rw [first]; omega)
      (isContinuation_tail_byte _), first, tail_byte, ofNat_eq char (by omega)]
    rfl
  · have first := toNat_ofNat_of_lt (show char.toNat / 4096 % 0x10 + 0xe0 < 256 by omega)
    have isSecond : isSecond (UInt8.ofNat (char.toNat / 4096 % 0x10 + 0xe0))
        (UInt8.ofNat (char.toNat / 64 % 0x40 + 0x80)) = true := by
      apply isSecond_of_bounds <;> rw [tail_byte] <;> (try rw [first]) <;> omega
    refine ⟨_, _, rfl, ?_⟩
    rw [List.cons_append, List.singleton_append, decodeChar_three (by rw [first]; omega)
      (by rw [first]; omega) isSecond (isContinuation_tail_byte _), first, tail_byte, tail_byte,
      ofNat_eq char (by omega)]
    rfl
  · have first := toNat_ofNat_of_lt (show char.toNat / 262144 % 0x08 + 0xf0 < 256 by omega)
    have isSecond : isSecond (UInt8.ofNat (char.toNat / 262144 % 0x08 + 0xf0))
        (UInt8.ofNat (char.toNat / 4096 % 0x40 + 0x80)) = true := by
      apply isSecond_of_bounds <;> rw [tail_byte] <;> (try rw [first]) <;> omega
    refine ⟨_, _, rfl, ?_⟩
    rw [List.cons_append, List.cons_append, List.singleton_append,
      decodeChar_four (by rw [first]; omega) (by rw [first]; omega) isSecond
        (isContinuation_tail_byte _) (isContinuation_tail_byte _), first, tail_byte, tail_byte,
      tail_byte, ofNat_eq char (by omega)]
    rfl

theorem decodeChars_encode : ∀ (chars : List Char) (fuel : Nat),
    (Utf8.encode chars).length ≤ fuel → decodeChars fuel (Utf8.encode chars) = chars
  | [], 0, _ => rfl
  | [], _ + 1, _ => rfl
  | char :: later, fuel, isEnough => by
    obtain ⟨first, tail, isEncoded, isDecoded⟩ := decodeChar_encode char (Utf8.encode later)
    have isCons : Utf8.encode (char :: later) = first :: (tail ++ Utf8.encode later) := by
      rw [Utf8.encode, List.flatMap_cons, isEncoded]
      rfl
    rw [isCons, List.length_cons, List.length_append] at isEnough
    cases fuel with
    | zero => omega
    | succ fuel =>
      rw [isCons, decodeChars, isDecoded]
      dsimp only
      rw [List.drop_left, decodeChars_encode later fuel (by omega)]

theorem fromUtf8Lossy_encode (chars : List Char) : fromUtf8Lossy (Utf8.encode chars) = chars :=
  decodeChars_encode chars _ (Nat.le_refl _)

theorem textRun_concat (stream : Bytes) (code : UInt8) :
    textRun (stream ++ [code]) = textStep (textRun stream) code :=
  List.foldl_concat ..

theorem textRun_walk (stream : Bytes) : (textRun stream).1 = run id State.new stream := by
  induction stream using List.reverseRecOn with
  | nil => rfl
  | append_singleton stream code ih =>
    rw [textRun_concat]
    show (textRun stream).1.step id code = run id State.new (stream ++ [code])
    rw [ih, run, run, List.foldl_concat]

theorem run_pending (offset other : Nat → Nat) (self : State) (stream : Bytes) :
    (run offset self stream).pending = (run other self stream).pending ∧
      (run offset self stream).state = (run other self stream).state := by
  have start : Follows (fun _ _ => True) 0 [] (Walk.fresh self) (Walk.fresh self) := {
    self := rfl
    out := ⟨[], rfl, .nil⟩
    seen := ⟨[], rfl, rfl⟩
    state := rfl
    seqStart := fun pending => absurd rfl pending
    bodyStart := by
      rintro (isCsi | isOsc | isOscEsc) <;> contradiction }
  have follows : Follows (fun _ _ => True) 0 [] (run offset self stream)
      (run other self stream) :=
    foldl_follows 0 stream.length (fun _ _ => trivial) (fun _ _ _ => trivial) stream start
      (Nat.zero_le _) (Nat.le_of_eq (Nat.zero_add _))
  exact ⟨follows.pending, follows.state⟩

theorem scanned_pending (stream : Bytes) :
    (State.new.scanned stream).pending = (textRun stream).1.pending := by
  rw [scanned_eq_run, textRun_walk]
  exact (run_pending _ _ _ _).1

theorem scanned_append_pending {self : State} {chunk : Bytes}
    (isShort : (self.scanned chunk).pending.length ≤ maxPartialEscapeTail) (later : Bytes) :
    (self.scanned (chunk ++ later)).pending = ((self.scan chunk).1.scanned later).pending := by
  have follows := scanned_follows self chunk later
  rw [scan_eq, park_of_short isShort]
  exact follows.pending

theorem scanned_short : ∀ {chunks : List Bytes} {self : State}, Parked self.scanTail →
    Fits self chunks → (self.scanned chunks.flatten).pending.length ≤ maxPartialEscapeTail
  | [], self, parked, _ => by
    have scanned : self.scanned [] = run (ChunkMap.mk self.scanTail.length 0).offset
        { self with scanTail := [] } self.scanTail := by
      rw [scanned_eq_run, List.append_nil]
      rfl
    rw [List.flatten_nil, scanned, (parked.replayed _ _).2.2]
    exact parked.short
  | chunk :: later, self, parked, fits => by
    have parkedNext : Parked (self.scan chunk).1.scanTail := by
      rw [scan_eq]
      exact park_parked (scanned_sound self chunk)
    rw [List.flatten_cons, scanned_append_pending fits.1]
    exact scanned_short parkedNext fits.2

theorem pendingEscapeTail_eq (reads : Reads) :
    reads.pendingEscapeTail = (textRun reads.stream).1.pending := by
  have isJoined := (scanChunks_eq_scan nil_parked reads.fits 0).1
  have isShort := scanned_short nil_parked reads.fits
  rw [Reads.pendingEscapeTail, isJoined, scan_eq, ← scanned_pending reads.stream]
  exact park_of_short isShort

theorem pending_of_text {stream : Bytes} (isText : (textRun stream).1.state = .ground) :
    (textRun stream).1.pending = [] := Walk.pending_of_ground isText

theorem tail_iff (reads : Reads) :
    reads.replyTail = unfinished reads.stream ↔ CutsNoCharacter reads.stream := by
  rw [Reads.replyTail, pendingEscapeTail_eq, unfinished]
  by_cases isText : (textRun reads.stream).1.state = .ground
  · rw [if_pos isText, pending_of_text isText]
    constructor
    · exact fun same => ⟨fun _ => same.symm, fun notText => absurd isText notText⟩
    · exact fun cuts => (cuts.text isText).symm
  · rw [if_neg isText]
    constructor
    · exact fun same => ⟨fun text => absurd text isText, fun _ => ⟨_, same.symm⟩⟩
    · intro cuts
      obtain ⟨chars, isEncoded⟩ := cuts.sequence isText
      rw [isEncoded, fromUtf8Lossy_encode]

/-- For every stream, every cut of it into reads and every terminal: nothing is lost exactly when
the cut is in no character and the pending sequence is UTF-8. -/
theorem lossless_iff (reads : Reads) : Lossless reads ↔ CutsNoCharacter reads.stream := by
  rw [← tail_iff]
  refine ⟨fun lossless => lossless.tail, fun isTail => ⟨isTail, ?_⟩⟩
  intro Screen terminal rest
  rw [terminal.feed_append, terminal.feed_append, isTail, ← terminal.held_feed, terminal.resumes]

/-- A read that ends behind the first byte of a euro sign. -/
def cutReads : Reads := ⟨[[0xe2]], by decide +kernel, trivial⟩

theorem not_lossless : ¬ ∀ reads : Reads, Lossless reads := by
  intro always
  have cuts := (lossless_iff cutReads).mp (always cutReads)
  exact absurd (cuts.text (by decide +kernel)) (by decide +kernel)

end AiTools.Daemon.SnapshotTail
