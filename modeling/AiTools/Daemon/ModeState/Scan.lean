import AiTools.Daemon.ModeState.Osc
import Mathlib.Data.UInt

/-!
Contract: `ModeState::scan`, the tracker of the modes that vt100 does not report.

Offsets count bytes of the combined buffer; the chunk's own are mapped back from there.
-/

namespace AiTools.Daemon.ModeState

def maxPartialEscapeTail : Nat := 4096

def kittyStackCap : Nat := 16

def escByte : UInt8 := 0x1b
def canByte : UInt8 := 0x18
def subByte : UInt8 := 0x1a
def belByte : UInt8 := 0x07
/-- Ends an OSC or a string, behind an ESC. -/
def stFinal : UInt8 := 0x5c
def semicolon : UInt8 := 0x3b

inductive Split where
  | snapshotPrimary
  | captureSavedCursor
deriving DecidableEq

inductive ScanState where
  | ground
  | esc
  | escIntermediate
  | csi
  | osc
  | oscEsc
  | str
  | strEsc
deriving DecidableEq

structure State where
  scanTail : Bytes := []
  focus : Bool := false
  sgrPixels : Bool := false
  alt : Bool := false
  kittyStack : List UInt32 := []
  cwd : Option String := none
  title : Option String := none
  scrollRegion : Option (UInt16 × UInt16) := none
  bellCount : UInt32 := 0

/-- `ModeState::new`. -/
def State.new : State := {}

structure ChunkMap where
  oldTailLen : Nat
  chunkLen : Nat

def ChunkMap.offset (map : ChunkMap) (combinedIndex : Nat) : Nat :=
  min (combinedIndex - map.oldTailLen) map.chunkLen

/-- `parse::<u32>`, which takes a leading plus. -/
def parseU32 (text : Bytes) : Option UInt32 :=
  let digits := match text with
    | 0x2b :: rest => rest
    | _ => text
  if digits ≠ [] ∧ digits.all (fun byte => 0x30 ≤ byte && byte ≤ 0x39) then
    let value := digits.foldl (fun value byte => 10 * value + (byte - 0x30).toNat) 0
    if value < 2 ^ 32 then some (UInt32.ofNat value) else none
  else none

def splitParams (params : Bytes) : List UInt32 := (params.splitOn semicolon).filterMap parseU32

/-- One parameter of `CSI ? … h` or `CSI ? … l`. -/
def setPrivateMode (enabled : Bool) (chunkStart : Nat) (sofar : State × List (Nat × Split))
    (param : UInt32) : State × List (Nat × Split) :=
  let self := sofar.1
  if param = 1004 then ({ self with focus := enabled }, sofar.2)
  else if param = 1016 then ({ self with sgrPixels := enabled }, sofar.2)
  else if param = 1049 ∨ param = 47 ∨ param = 1047 then
    ({ self with alt := enabled, scrollRegion := none },
      if enabled && !self.alt then sofar.2 ++ [(chunkStart, .snapshotPrimary)] else sofar.2)
  else sofar

/-- The state after the sequence, and the splits it reports. The kitty stack's top is
its last entry. -/
def applyCsi (self : State) (marker : Option UInt8) (params : Bytes) (finalByte : UInt8)
    (chunkStart chunkEnd : Nat) : State × List (Nat × Split) :=
  if marker = some 0x3f ∧ (finalByte = 0x68 ∨ finalByte = 0x6c) then
    (splitParams params).foldl (setPrivateMode (finalByte = 0x68) chunkStart) (self, [])
  else if marker = some 0x3e ∧ finalByte = 0x75 then
    let flags := (splitParams params).head?.getD 0
    if self.kittyStack.length < kittyStackCap then
      ({ self with kittyStack := self.kittyStack ++ [flags] }, [])
    else (self, [])
  else if marker = some 0x3c ∧ finalByte = 0x75 then
    let n := max ((splitParams params).head?.getD 1) 1
    ({ self with kittyStack := self.kittyStack.take (self.kittyStack.length - n.toNat) }, [])
  else if marker = some 0x3d ∧ finalByte = 0x75 then
    let flags := (splitParams params)[0]?.getD 0
    let mode := (splitParams params)[1]?.getD 1
    let current := self.kittyStack.getLast?.getD 0
    let next :=
      if mode = 2 then current ||| flags
      else if mode = 3 then current &&& ~~~flags
      else flags
    ({ self with kittyStack := self.kittyStack.dropLast ++ [next] }, [])
  else if marker = none ∧ finalByte = 0x72 then
    let region := match splitParams params with
      | top :: bottom :: _ =>
        if 1 ≤ top ∧ top < bottom then some (top.toUInt16, bottom.toUInt16) else none
      | _ => none
    ({ self with scrollRegion := region }, [])
  else if marker = none ∧ finalByte = 0x73 ∧ params = [] then
    (self, [(chunkEnd, .captureSavedCursor)])
  else (self, [])

def applyOsc (self : State) (payload : Bytes) : State :=
  match payload.dropWhile (· ≠ semicolon) with
  | [] => self
  | _ :: pt =>
    let ps := payload.takeWhile (· ≠ semicolon)
    if ps = [0x30] ∨ ps = [0x32] then
      { self with title := some (String.ofList (fromUtf8Lossy pt)) }
    else if ps = [0x37] then
      match parseOsc7Cwd pt with
      | some cwd => { self with cwd := some cwd }
      | none => self
    else self

/-- RIS; the title and the working directory stay. -/
def State.reset (self : State) : State :=
  { self with
    focus := false
    sgrPixels := false
    kittyStack := []
    alt := false
    scrollRegion := none }

/-- The locals of `walk`. `seen` are the bytes before its index, so that index is their
number, and `seqStart` and `bodyStart` are indices into them. -/
structure Walk where
  self : State
  out : List (Nat × Split)
  state : ScanState
  seqStart : Nat
  bodyStart : Nat
  seen : Bytes

def Walk.fresh (self : State) : Walk := ⟨self, [], .ground, 0, 0, []⟩

/-- The bytes from `bodyStart` up to the current one. -/
def Walk.body (walk : Walk) : Bytes := walk.seen.drop walk.bodyStart

section
variable (offset : Nat → Nat)

def Walk.escFollower (walk : Walk) (code : UInt8) : Walk :=
  let i := walk.seen.length
  if code = escByte then { walk with seqStart := i, state := .esc }
  else if code = canByte ∨ code = subByte then { walk with state := .ground }
  else if code = 0x5b then { walk with bodyStart := i + 1, state := .csi }
  else if code = 0x5d then { walk with bodyStart := i + 1, state := .osc }
  else if code = 0x50 ∨ code = 0x58 ∨ code = 0x5e ∨ code = 0x5f then { walk with state := .str }
  else if 0x20 ≤ code ∧ code ≤ 0x2f then { walk with state := .escIntermediate }
  else if code = 0x63 then { walk with self := walk.self.reset, state := .ground }
  else if code = 0x37 then
    { walk with out := walk.out ++ [(offset (i + 1), .captureSavedCursor)], state := .ground }
  -- Controls execute in the middle of an escape without ending it.
  else if code < 0x20 ∨ code = 0x7f then { walk with state := .esc }
  else { walk with state := .ground }

/-- A private marker, when the body starts with one, and the parameters. -/
def csiMarker (body : Bytes) : Option UInt8 × Bytes :=
  match body with
  | [] => (none, [])
  | first :: rest => if 0x3c ≤ first ∧ first ≤ 0x3f then (some first, rest) else (none, body)

/-- One iteration outside `Ground`, before the index moves on. -/
def Walk.onCode (walk : Walk) (code : UInt8) : Walk :=
  let i := walk.seen.length
  match walk.state with
  | .ground => walk
  | .esc => walk.escFollower offset code
  | .escIntermediate =>
    if code = escByte then { walk with seqStart := i, state := .esc }
    else if code = canByte ∨ code = subByte then { walk with state := .ground }
    else if 0x30 ≤ code ∧ code ≤ 0x7e then { walk with state := .ground }
    else walk
  | .csi =>
    if code = escByte then { walk with seqStart := i, state := .esc }
    else if code = canByte ∨ code = subByte then { walk with state := .ground }
    else if 0x40 ≤ code ∧ code ≤ 0x7e then
      let marked := csiMarker walk.body
      let applied := applyCsi walk.self marked.1 marked.2 code (offset walk.seqStart)
        (offset (i + 1))
      { walk with self := applied.1, out := walk.out ++ applied.2, state := .ground }
    else walk
  | .osc =>
    if code = belByte ∨ code = canByte ∨ code = subByte then
      { walk with self := applyOsc walk.self walk.body, state := .ground }
    else if code = escByte then { walk with state := .oscEsc }
    else walk
  | .oscEsc =>
    -- The body ends before the ESC, whether the string terminates or is aborted.
    let applied := { walk with self := applyOsc walk.self walk.body.dropLast }
    if code = stFinal then { applied with state := .ground }
    else { applied with seqStart := i - 1 }.escFollower offset code
  | .str =>
    if code = canByte ∨ code = subByte then { walk with state := .ground }
    else if code = escByte then { walk with state := .strEsc }
    else walk
  | .strEsc =>
    if code = stFinal then { walk with state := .ground }
    else { walk with seqStart := i - 1 }.escFollower offset code

def countBel (run : Bytes) : UInt32 := UInt32.ofNat (run.filter (· = belByte)).length

def State.countBells (self : State) (run : Bytes) : State :=
  { self with bellCount := self.bellCount + countBel run }

/-- The loop, for at most `fuel` iterations. In `Ground` it jumps to the next ESC. -/
def Walk.loop : Nat → Walk → Bytes → Walk
  | 0, walk, _ => walk
  | _ + 1, walk, [] => walk
  | fuel + 1, walk, code :: rest =>
    if walk.state = .ground then
      let run := (code :: rest).takeWhile (· ≠ escByte)
      let counted := { walk with self := walk.self.countBells run, seen := walk.seen ++ run }
      match (code :: rest).dropWhile (· ≠ escByte) with
      | [] => counted
      | first :: later =>
        Walk.loop fuel { counted with
          state := .esc
          seqStart := counted.seen.length
          seen := counted.seen ++ [first] } later
    else
      Walk.loop fuel { walk.onCode offset code with seen := walk.seen ++ [code] } rest

end

/-- Where the sequence that is still pending starts. -/
def Walk.pendingStart (walk : Walk) : Nat :=
  if walk.state = .ground then walk.seen.length else walk.seqStart

def walk (self : State) (bytes : Bytes) (map : ChunkMap) : Walk :=
  Walk.loop map.offset bytes.length (Walk.fresh self) bytes

/-- The state after the chunk, and the splits at offsets of the chunk. -/
def State.scan (self : State) (chunk : Bytes) : State × List (Nat × Split) :=
  let map : ChunkMap := ⟨self.scanTail.length, chunk.length⟩
  let combined := self.scanTail ++ chunk
  let walked := walk { self with scanTail := [] } combined map
  let pending := combined.drop walked.pendingStart
  ({ walked.self with
      scanTail := if maxPartialEscapeTail < pending.length then [] else pending }, walked.out)

/-- `take_bells`. -/
def State.takeBells (self : State) : UInt32 × State :=
  (self.bellCount, { self with bellCount := 0 })

end AiTools.Daemon.ModeState
