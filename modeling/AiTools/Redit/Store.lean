import Mathlib
import AiTools.Lib.Keyed
import AiTools.Lib.Transition

/-!
Contract: the store of `redit`, which keeps the original of each file that is edited.

Owns:
- `Init`, each of its steps on its own, with any others between them; the other operations;
- what a failing step leaves of a file or a directory;
- `originalsKept`, over the runs in which no failure leaves something behind.
-/

namespace AiTools.Redit

open Function (update update_self update_of_ne)
open AiTools.Lib.Keyed AiTools.Lib.Transition

abbrev Bytes := List UInt8

/-- `marshalled` is the key that is read back from the `meta.json` of a key, and `unmarshal` the
one that is read from any text of the file, when it can be read. -/
structure Hashing (Key Name Digest : Type) where
  keyToDir : Key ↪ Name
  sum256 : Bytes → Digest
  marshalled : Key → Key
  unmarshal : Bytes → Option Key

/-- `maker` is the `Init` that made the directory. -/
structure Dir (Key Name : Type) where
  name : Name
  origin : Option Bytes
  working : Option Bytes
  metaKey : Option Key
  maker : Nat

inductive Stage where
  | stat
  | mkdirAll
  | readAll
  | writeOrigin (data : Bytes)
  | writeWorking (data : Bytes)
  | writeMeta (data : Bytes)
  | removeAll

structure Thread (Key : Type) where
  key : Key
  stage : Stage

/-- An item that `Status` has no answer for has the empty status. -/
inductive Answer (Key : Type) where
  | error
  | done
  | status (clean : Bool)
  | listed (items : List (Key × Option Bool))

/-- Beside the files are recorded the contents that the successful calls of `Init` were given,
and what the last step has returned. -/
structure System (Key Name : Type) where
  disk : Table (@Dir.name Key Name)
  threads : Nat → Option (Thread Key)
  next : Nat
  origins : Key → Option Bytes
  answer : Option (Answer Key)

/-- A write that fails may have truncated the file, written a part of the data, or all of it. -/
inductive Write where
  | ok
  | failed (left : Option Bytes)
deriving DecidableEq

/-- The files that a removal which fails has left. -/
structure Leftover where
  origin : Bool
  working : Bool
  metaKey : Bool

inductive Label (Key Name : Type) where
  | init (key : Key)
  | stat (id : Nat) (ok : Bool)
  | mkdirAll (id : Nat) (ok : Bool)
  | readAll (id : Nat) (content : Option Bytes)
  | write (id : Nat) (write : Write)
  | removeAll (id : Nat) (left : Option Leftover)
  | reset (key : Key) (readable : Bool) (write : Write)
  | drop (key : Key) (ok : Bool) (left : Option Leftover)
  | status (key : Key) (readable : Bool)
  | list (readable : Bool) (unread : Name → Bool)
  | edit (key : Key) (content : Option Bytes)

variable {Key Name Digest : Type} [DecidableEq Name]

abbrev Disk (Key Name : Type) := Table (@Dir.name Key Name)

def Write.result (write : Write) (data : Bytes) (old : Option Bytes) : Option Bytes :=
  match write with
  | .ok => some data
  | .failed none => old
  | .failed (some left) => some left

def Write.metaResult (hashing : Hashing Key Name Digest) (write : Write) (key : Key)
    (old : Option Key) : Option Key :=
  match write with
  | .ok => some (hashing.marshalled key)
  | .failed none => old
  | .failed (some left) => hashing.unmarshal left

def Leftover.keep (left : Leftover) (dir : Dir Key Name) : Dir Key Name :=
  { dir with
    origin := if left.origin then dir.origin else none
    working := if left.working then dir.working else none
    metaKey := if left.metaKey then dir.metaKey else none }

/-- Changes the files of a directory, when there is one. -/
def fill (disk : Disk Key Name) (name : Name) (change : Dir Key Name → Dir Key Name) :
    Disk Key Name :=
  match disk.find? name with
  | none => disk
  | some found => disk.put { change found with name := name }

/-- `os.MkdirAll`. -/
def ensure (disk : Disk Key Name) (name : Name) (id : Nat) : Disk Key Name :=
  if (disk.find? name).isSome then disk else disk.put ⟨name, none, none, none, id⟩

/-- `os.RemoveAll`. -/
def removeAll (disk : Disk Key Name) (name : Name) : Option Leftover → Disk Key Name
  | none => disk.remove name
  | some left => fill disk name left.keep

section

variable [DecidableEq Key] [DecidableEq Digest]

def status (hashing : Hashing Key Name Digest) (disk : Disk Key Name) (key : Key) : Option Bool :=
  (disk.find? (hashing.keyToDir key)).bind fun dir =>
    dir.origin.bind fun origin => dir.working.map fun working =>
      hashing.sum256 origin = hashing.sum256 working

/-- A directory whose `meta.json` cannot be read is skipped. -/
def list (hashing : Hashing Key Name Digest) (disk : Disk Key Name) (unread : Name → Bool) :
    List (Key × Option Bool) :=
  disk.entries.filterMap fun dir =>
    if unread dir.name then none
    else dir.metaKey.map fun key => (key, status hashing disk key)

def System.act (sys : System Key Name) (id : Nat) (disk : Disk Key Name)
    (thread : Option (Thread Key)) (answer : Option (Answer Key)) : System Key Name :=
  { sys with disk := disk, threads := update sys.threads id thread, answer := answer }

def System.reply (sys : System Key Name) (answer : Answer Key) : System Key Name :=
  { sys with answer := some answer }

/-- A write of `Init`; nothing can be written when the directory is not there. -/
def System.writeFile (sys : System Key Name) (id : Nat) (key : Key) (name : Name)
    (write : Write) (change : Dir Key Name → Dir Key Name) (next : Stage) : System Key Name :=
  sys.act id (fill sys.disk name change)
    (some ⟨key, if (sys.disk.find? name).isSome ∧ write = .ok then next else .removeAll⟩) none

def reset (hashing : Hashing Key Name Digest) (sys : System Key Name) (key : Key)
    (readable : Bool) (write : Write) : System Key Name :=
  match if readable then (sys.disk.find? (hashing.keyToDir key)).bind Dir.origin else none with
  | none => sys.reply .error
  | some data =>
    { sys with
      disk := fill sys.disk (hashing.keyToDir key) fun dir =>
        { dir with working := write.result data dir.working }
      answer := some (if write = .ok then .done else .error) }

def drop (hashing : Hashing Key Name Digest) (sys : System Key Name) (key : Key) (ok : Bool)
    (left : Option Leftover) : System Key Name :=
  if ok ∧ (sys.disk.find? (hashing.keyToDir key)).isNone then sys.reply .error
  else
    { sys with
      disk := removeAll sys.disk (hashing.keyToDir key) left
      origins := if left = none then update sys.origins key none else sys.origins
      answer := some (if left = none then .done else .error) }

def step (hashing : Hashing Key Name Digest) (sys : System Key Name) :
    Label Key Name → Option (System Key Name)
  | .init key =>
    some { sys with
      threads := update sys.threads sys.next (some ⟨key, .stat⟩)
      next := sys.next + 1
      answer := none }
  | .stat id ok =>
    match sys.threads id with
    | some ⟨key, .stat⟩ =>
      if ok ∧ (sys.disk.find? (hashing.keyToDir key)).isSome then
        some (sys.act id sys.disk none (some .error))
      else some (sys.act id sys.disk (some ⟨key, .mkdirAll⟩) none)
    | _ => none
  | .mkdirAll id ok =>
    match sys.threads id with
    | some ⟨key, .mkdirAll⟩ =>
      if ok then
        some (sys.act id (ensure sys.disk (hashing.keyToDir key) id) (some ⟨key, .readAll⟩)
          none)
      else some (sys.act id sys.disk none (some .error))
    | _ => none
  | .readAll id content =>
    match sys.threads id with
    | some ⟨key, .readAll⟩ =>
      match content with
      | none => some (sys.act id sys.disk none (some .error))
      | some data => some (sys.act id sys.disk (some ⟨key, .writeOrigin data⟩) none)
    | _ => none
  | .write id write =>
    match sys.threads id with
    | some ⟨key, .writeOrigin data⟩ =>
      some (sys.writeFile id key (hashing.keyToDir key) write
        (fun dir => { dir with origin := write.result data dir.origin }) (.writeWorking data))
    | some ⟨key, .writeWorking data⟩ =>
      some (sys.writeFile id key (hashing.keyToDir key) write
        (fun dir => { dir with working := write.result data dir.working }) (.writeMeta data))
    | some ⟨key, .writeMeta data⟩ =>
      let disk := fill sys.disk (hashing.keyToDir key) fun dir =>
        { dir with metaKey := write.metaResult hashing key dir.metaKey }
      if (sys.disk.find? (hashing.keyToDir key)).isSome ∧ write = .ok then
        some { sys.act id disk none (some .done) with
          origins := update sys.origins key (some data) }
      else some (sys.act id disk (some ⟨key, .removeAll⟩) none)
    | _ => none
  | .removeAll id left =>
    match sys.threads id with
    | some ⟨key, .removeAll⟩ =>
      some (sys.act id (removeAll sys.disk (hashing.keyToDir key) left) none (some .error))
    | _ => none
  | .reset key readable write => some (reset hashing sys key readable write)
  | .drop key ok left => some (drop hashing sys key ok left)
  | .status key readable =>
    some (sys.reply (match if readable then status hashing sys.disk key else none with
      | some clean => .status clean
      | none => .error))
  | .list readable unread =>
    some (sys.reply (if readable then .listed (list hashing sys.disk unread) else .error))
  | .edit key content =>
    some { sys with
      disk := fill sys.disk (hashing.keyToDir key) fun dir => { dir with working := content }
      answer := none }

end

def initial : System Key Name := ⟨.empty, fun _ => none, 0, fun _ => none, none⟩

/-! ## The property -/

/-- The directory of a key, when there is one, was made by the thread. -/
def Own (hashing : Hashing Key Name Digest) (sys : System Key Name) (id : Nat) : Prop :=
  ∀ thread dir, sys.threads id = some thread →
    sys.disk.find? (hashing.keyToDir thread.key) = some dir → dir.maker = id

/-- A step that leaves nothing behind, and mistakes nothing. -/
def Clean (hashing : Hashing Key Name Digest) (sys : System Key Name) : Label Key Name → Prop
  | .init key => hashing.marshalled key = key
  | .mkdirAll id _ => Own hashing sys id
  | .readAll id content => content = none → ∀ thread dir, sys.threads id = some thread →
    sys.disk.find? (hashing.keyToDir thread.key) = some dir → dir.maker ≠ id
  | .write id write => Own hashing sys id ∧ ∀ left key data, write = .failed (some left) →
    sys.threads id = some ⟨key, .writeMeta data⟩ → hashing.unmarshal left = none
  | .removeAll id left => Own hashing sys id ∧ ∀ thread, left ≠ none →
    sys.threads id = some thread →
      sys.disk.find? (hashing.keyToDir thread.key) = none
  | .reset _ _ write => ∀ left, write ≠ .failed (some left)
  | .drop _ _ left => left = none ∨ left = some ⟨true, true, true⟩
  | .status key _ => ∀ dir origin working,
    sys.disk.find? (hashing.keyToDir key) = some dir → dir.origin = some origin →
      dir.working = some working → hashing.sum256 origin = hashing.sum256 working →
        origin = working
  | .list _ unread => ∀ dir ∈ sys.disk.entries, unread dir.name = false
  | _ => True

structure Kept (hashing : Hashing Key Name Digest) (sys : System Key Name) : Prop where
  origin : ∀ key data, sys.origins key = some data → ∃ dir,
    sys.disk.find? (hashing.keyToDir key) = some dir ∧ dir.origin = some data
  -- An `Init` of the key can be tried, or tried again.
  free : ∀ key, sys.origins key = none →
    (∀ id thread, sys.threads id = some thread → thread.key ≠ key) →
    sys.disk.find? (hashing.keyToDir key) = none

/-- What a step returns, and what a step that returns no success leaves as it is. -/
structure Answered (hashing : Hashing Key Name Digest) (sys : System Key Name)
    (label : Label Key Name) (next : System Key Name) : Prop where
  once : ∀ key data, sys.origins key = some data → next.origins key = some data ∨
    (∃ ok, label = .drop key ok none) ∧ next.answer = some .done
  quiet : (∀ key content, label ≠ .edit key content) → next.answer ≠ some .done →
    next.origins = sys.origins ∧ ∀ key, (sys.origins key).isSome →
      next.disk.find? (hashing.keyToDir key) = sys.disk.find? (hashing.keyToDir key)
  status : ∀ key readable, label = .status key readable → ∀ data dir clean,
    sys.origins key = some data → sys.disk.find? (hashing.keyToDir key) = some dir →
      next.answer = some (.status clean) → (clean = true ↔ dir.working = some data)
  listed : ∀ readable unread, label = .list readable unread → ∀ items,
    next.answer = some (.listed items) →
      ∀ key, key ∈ items.map Prod.fst ↔ (sys.origins key).isSome

/-! ## Directories -/

/-- What the directory of an `Init` under way holds. -/
def Filled : Stage → Dir Key Name → Prop
  | .stat, _ | .mkdirAll, _ => False
  | .readAll, dir | .writeOrigin _, dir | .removeAll, dir => dir.metaKey = none
  | .writeWorking data, dir | .writeMeta data, dir =>
    dir.metaKey = none ∧ dir.origin = some data

structure Sound (hashing : Hashing Key Name Digest) (sys : System Key Name) : Prop where
  standing : ∀ key data, sys.origins key = some data → ∃ dir,
    sys.disk.find? (hashing.keyToDir key) = some dir ∧ dir.origin = some data ∧
      dir.metaKey = some key ∧ sys.threads dir.maker = none
  owned : ∀ name dir, sys.disk.find? name = some dir →
    (∃ key data, name = hashing.keyToDir key ∧ sys.origins key = some data) ∨
      ∃ thread, sys.threads dir.maker = some thread ∧ name = hashing.keyToDir thread.key ∧
        Filled thread.stage dir
  makers : ∀ name dir, sys.disk.find? name = some dir → dir.maker < sys.next
  threads : ∀ id thread, sys.threads id = some thread →
    id < sys.next ∧ hashing.marshalled thread.key = thread.key

variable {hashing : Hashing Key Name Digest} {sys next : System Key Name}
variable {disk disk' : Disk Key Name} {name wanted : Name} {dir : Dir Key Name}
variable {change : Dir Key Name → Dir Key Name}
variable {id : Nat} {key : Key} {thread : Thread Key} {answer : Option (Answer Key)}

omit [DecidableEq Name] in
theorem Filled.of_same {stage : Stage} {old : Dir Key Name} (filled : Filled stage old)
    (isOrigin : dir.origin = old.origin) (isMeta : dir.metaKey = old.metaKey) :
    Filled stage dir := by
  cases stage with
  | stat | mkdirAll => exact filled
  | readAll | writeOrigin | removeAll => exact isMeta.trans filled
  | writeWorking | writeMeta => exact ⟨isMeta.trans filled.1, isOrigin.trans filled.2⟩

theorem find?_fill (disk : Disk Key Name) (name wanted : Name)
    (change : Dir Key Name → Dir Key Name) : (fill disk name change).find? wanted =
      if name = wanted then (disk.find? wanted).map fun found => { change found with name := name }
      else disk.find? wanted := by
  unfold fill
  cases isFound : disk.find? name with
  | none =>
    split_ifs with same
    · subst same
      exact isFound.trans (congrArg (Option.map _) isFound).symm
    · rfl
  | some found =>
    dsimp only
    rw [Table.find?_put]
    split_ifs with same
    · subst same
      show some _ = Option.map _ (disk.find? name)
      rw [isFound]
      rfl
    · rfl

theorem find?_fill_self
    (isFound : (fill disk name change).find? name = some dir) :
    ∃ old, disk.find? name = some old ∧ dir = { change old with name := name } := by
  rw [find?_fill, if_pos rfl] at isFound
  obtain ⟨old, isOld, rfl⟩ := Option.map_eq_some_iff.mp isFound
  exact ⟨old, isOld, rfl⟩

theorem find?_fill_of_ne (isOther : wanted ≠ name) :
    (fill disk name change).find? wanted = disk.find? wanted := by
  rw [find?_fill, if_neg (Ne.symm isOther)]

/-- A step of a thread, which changes only what is its own. -/
structure Acts (hashing : Hashing Key Name Digest) (sys : System Key Name) (id : Nat)
    (thread : Thread Key) (disk : Disk Key Name) (later : Option (Thread Key)) : Prop where
  others : ∀ name, name ≠ hashing.keyToDir thread.key → disk.find? name = sys.disk.find? name
  kept : ∀ dir, sys.disk.find? (hashing.keyToDir thread.key) = some dir → dir.maker ≠ id →
    disk.find? (hashing.keyToDir thread.key) = some dir
  own : ∀ dir, disk.find? (hashing.keyToDir thread.key) = some dir →
    sys.disk.find? (hashing.keyToDir thread.key) = some dir ∧ dir.maker ≠ id ∨
      dir.maker = id ∧ ∃ stage, later = some ⟨thread.key, stage⟩ ∧ Filled stage dir
  later : ∀ after, later = some after → after.key = thread.key

theorem Sound.standing_kept (sound : Sound hashing sys) {later : Option (Thread Key)}
    (isThread : sys.threads id = some thread) (acts : Acts hashing sys id thread disk later)
    {data : Bytes} (isOrigin : sys.origins key = some data) :
    disk.find? (hashing.keyToDir key) = sys.disk.find? (hashing.keyToDir key) := by
  obtain ⟨dir, isFound, _, _, noThread⟩ := sound.standing key data isOrigin
  by_cases same : hashing.keyToDir key = hashing.keyToDir thread.key
  · rw [same] at isFound ⊢
    have notOwn : dir.maker ≠ id := fun isOwn => by
      simp [isOwn, isThread] at noThread
    rw [isFound, acts.kept dir isFound notOwn]
  · exact acts.others _ same

theorem Sound.act (sound : Sound hashing sys) {later : Option (Thread Key)}
    (isThread : sys.threads id = some thread)
    (acts : Acts hashing sys id thread disk later) :
    Sound hashing (sys.act id disk later answer) where
  standing key data isOrigin := by
    obtain ⟨dir, isFound, isData, isMeta, noThread⟩ := sound.standing key data isOrigin
    refine ⟨dir, (sound.standing_kept isThread acts isOrigin).trans isFound, isData, isMeta, ?_⟩
    refine (update_of_ne (fun isOwn => ?_) _ _).trans noThread
    simp [isOwn, isThread] at noThread
  owned name dir isFound := by
    -- A directory of another keeps its owner.
    have other (isOld : sys.disk.find? name = some dir)
        (notOwn : dir.maker = id → name ≠ hashing.keyToDir thread.key) :
        (∃ key data, name = hashing.keyToDir key ∧ sys.origins key = some data) ∨
          ∃ holder, update sys.threads id later dir.maker = some holder ∧
            name = hashing.keyToDir holder.key ∧ Filled holder.stage dir := by
      obtain isStanding | ⟨holder, isHolder, isName, filled⟩ := sound.owned name dir isOld
      · exact .inl isStanding
      · refine .inr ⟨holder, (update_of_ne (fun isOwn => ?_) _ _).trans isHolder, isName, filled⟩
        rw [isOwn, isThread] at isHolder
        cases isHolder
        exact notOwn isOwn isName
    by_cases same : name = hashing.keyToDir thread.key
    · subst same
      obtain ⟨isOld, notOwn⟩ | ⟨isOwn, stage, isLater, filled⟩ := acts.own dir isFound
      · exact other isOld fun isOwn => absurd isOwn notOwn
      · refine .inr ⟨⟨thread.key, stage⟩, ?_, rfl, filled⟩
        rw [isOwn]
        exact (update_self ..).trans isLater
    · exact other ((acts.others name same).symm.trans isFound) fun _ => same
  makers name dir isFound := by
    by_cases same : name = hashing.keyToDir thread.key
    · subst same
      obtain ⟨isOld, _⟩ | ⟨isOwn, _⟩ := acts.own dir isFound
      · exact sound.makers _ dir isOld
      · exact isOwn ▸ (sound.threads id thread isThread).1
    · exact sound.makers name dir ((acts.others name same).symm.trans isFound)
  threads other found isFound := by
    obtain ⟨rfl, isLater⟩ | ⟨_, isOld⟩ := update_eq_some isFound
    · refine ⟨(sound.threads other thread isThread).1, ?_⟩
      rw [acts.later found isLater]
      exact (sound.threads other thread isThread).2
    · exact sound.threads other found isOld

theorem Sound.filled (sound : Sound hashing sys) (isThread : sys.threads id = some thread)
    (isFound : sys.disk.find? name = some dir) (isOwn : dir.maker = id) :
    Filled thread.stage dir := by
  subst isOwn
  obtain ⟨key, data, rfl, isOrigin⟩ | ⟨holder, isHolder, _, filled⟩ :=
    sound.owned name dir isFound
  · obtain ⟨other, isOther, _, _, noThread⟩ := sound.standing key data isOrigin
    cases isFound.symm.trans isOther
    cases isThread.symm.trans noThread
  · cases isThread.symm.trans isHolder
    exact filled

theorem Sound.moves (sound : Sound hashing sys) (isThread : sys.threads id = some thread)
    {later : Option (Thread Key)} (isKey : ∀ after, later = some after → after.key = thread.key)
    (refilled : ∀ dir, sys.disk.find? (hashing.keyToDir thread.key) = some dir →
      dir.maker = id → Filled thread.stage dir →
        ∃ stage, later = some ⟨thread.key, stage⟩ ∧ Filled stage dir) :
    Acts hashing sys id thread sys.disk later where
  others _ _ := rfl
  kept _ isFound _ := isFound
  own dir isFound := by
    by_cases isOwn : dir.maker = id
    · exact .inr ⟨isOwn, refilled dir isFound isOwn (sound.filled isThread isFound isOwn)⟩
    · exact .inl ⟨isFound, isOwn⟩
  later := isKey

theorem Sound.writes (sound : Sound hashing sys) (isThread : sys.threads id = some thread)
    (owns : Own hashing sys id) {stage : Stage}
    (isMaker : ∀ dir, (change dir).maker = dir.maker)
    (refilled : ∀ dir, sys.disk.find? (hashing.keyToDir thread.key) = some dir →
      Filled thread.stage dir → Filled stage (change dir)) :
    Acts hashing sys id thread (fill sys.disk (hashing.keyToDir thread.key) change)
      (some ⟨thread.key, stage⟩) where
  others _ isOther := find?_fill_of_ne isOther
  kept dir isFound notOwn := absurd (owns thread dir isThread isFound) notOwn
  own dir isFound := by
    obtain ⟨old, isOld, rfl⟩ := find?_fill_self isFound
    have isOwn := owns thread old isThread isOld
    have filled := refilled old isOld (sound.filled isThread isOld isOwn)
    refine .inr ⟨(isMaker old).trans isOwn, stage, rfl, ?_⟩
    cases stage <;> exact filled
  later after isLater := by cases isLater; rfl

theorem Sound.makes (sound : Sound hashing sys)
    (isThread : sys.threads id = some ⟨key, .mkdirAll⟩) (owns : Own hashing sys id) :
    Acts hashing sys id ⟨key, .mkdirAll⟩ (ensure sys.disk (hashing.keyToDir key) id)
      (some ⟨key, .readAll⟩) := by
  have isFree : sys.disk.find? (hashing.keyToDir key) = none := by
    by_contra isThere
    obtain ⟨dir, isFound⟩ := Option.ne_none_iff_exists'.mp isThere
    exact sound.filled isThread isFound (owns _ dir isThread isFound)
  unfold ensure
  rw [isFree]
  refine ⟨fun name isOther => ?_, fun dir isFound => ?_, fun dir isFound => ?_,
    fun after isLater => by cases isLater; rfl⟩
  · exact (Table.find?_put ..).trans (if_neg isOther.symm)
  · cases isFree.symm.trans isFound
  · have isNew := (Table.find?_put ..).symm.trans isFound
    rw [if_pos rfl] at isNew
    cases isNew
    exact .inr ⟨rfl, .readAll, rfl, rfl⟩

theorem removes (isThread : sys.threads id = some thread) (owns : Own hashing sys id)
    {left : Option Leftover} (isGone : left ≠ none →
      sys.disk.find? (hashing.keyToDir thread.key) = none) :
    Acts hashing sys id thread
      (removeAll sys.disk (hashing.keyToDir thread.key) left) none := by
  refine ⟨fun name isOther => ?_, fun dir isFound notOwn => ?_, fun dir isFound => ?_,
    fun _ isLater => by cases isLater⟩
  · cases left with
    | none => exact (Table.find?_remove ..).trans (if_neg isOther)
    | some left => exact find?_fill_of_ne isOther
  · exact absurd (owns thread dir isThread isFound) notOwn
  · cases left with
    | none => cases (if_pos rfl).symm.trans ((Table.find?_remove ..).symm.trans isFound)
    | some left =>
      obtain ⟨old, isOld, _⟩ := find?_fill_self isFound
      cases (isGone (Option.some_ne_none left)).symm.trans isOld

theorem Sound.finish [DecidableEq Key] (sound : Sound hashing sys) {data : Bytes}
    (isThread : sys.threads id = some ⟨key, .writeMeta data⟩) (owns : Own hashing sys id)
    (isThere : (sys.disk.find? (hashing.keyToDir key)).isSome) :
    Sound hashing { sys.act id (fill sys.disk (hashing.keyToDir key) fun dir =>
      { dir with metaKey := some (hashing.marshalled key) }) none (some .done) with
      origins := update sys.origins key (some data) } where
  standing other otherData isOrigin := by
    by_cases same : other = key
    · subst same
      obtain ⟨old, isOld⟩ := Option.isSome_iff_exists.mp isThere
      have isOwn := owns _ old isThread isOld
      have filled : _ ∧ _ := sound.filled isThread isOld isOwn
      have isData : update sys.origins other (some data) other = some otherData := isOrigin
      rw [update_self] at isData
      refine ⟨_, (find?_fill ..).trans ((if_pos rfl).trans (congrArg (Option.map _) isOld)),
        filled.2.trans isData, congrArg some (sound.threads id _ isThread).2, ?_⟩
      exact (congrArg (update sys.threads id none) isOwn).trans (update_self ..)
    · obtain ⟨dir, isFound, isData, isMeta, noThread⟩ :=
        sound.standing other otherData ((update_of_ne same _ _).symm.trans isOrigin)
      refine ⟨dir, (find?_fill_of_ne (hashing.keyToDir.injective.ne same)).trans isFound, isData,
        isMeta, (update_of_ne (fun isOwn => ?_) _ _).trans noThread⟩
      simp [isOwn, isThread] at noThread
  owned name dir isFound := by
    by_cases same : name = hashing.keyToDir key
    · exact .inl ⟨key, data, same, update_self ..⟩
    obtain ⟨other, otherData, rfl, isOrigin⟩ | ⟨holder, isHolder, isName, filled⟩ :=
      sound.owned name dir ((find?_fill_of_ne same).symm.trans isFound)
    · have isOther : other ≠ key := fun isKey => same (congrArg _ isKey)
      exact .inl ⟨other, otherData, rfl, (update_of_ne isOther _ _).trans isOrigin⟩
    · refine .inr ⟨holder, (update_of_ne (fun isOwn => ?_) _ _).trans isHolder, isName, filled⟩
      rw [isOwn, isThread] at isHolder
      cases isHolder
      exact same isName
  makers name dir isFound := by
    by_cases same : name = hashing.keyToDir key
    · subst same
      obtain ⟨old, isOld, rfl⟩ := find?_fill_self isFound
      exact sound.makers _ old isOld
    · exact sound.makers name dir ((find?_fill_of_ne same).symm.trans isFound)
  threads other found isFound := by
    obtain ⟨_, isNone⟩ | ⟨_, isOld⟩ := update_eq_some isFound
    · cases isNone
    · exact sound.threads other found isOld

theorem Sound.edits (sound : Sound hashing sys)
    (areSame : ∀ dir, (change dir).origin = dir.origin ∧ (change dir).metaKey = dir.metaKey ∧
      (change dir).maker = dir.maker) :
    Sound hashing { sys with disk := fill sys.disk name change, answer := answer } := by
  have isOld {wanted : Name} {dir : Dir Key Name}
      (isFound : (fill sys.disk name change).find? wanted = some dir) :
      ∃ old, sys.disk.find? wanted = some old ∧ dir.origin = old.origin ∧
        dir.metaKey = old.metaKey ∧ dir.maker = old.maker := by
    by_cases same : wanted = name
    · subst same
      obtain ⟨old, isOld, rfl⟩ := find?_fill_self isFound
      exact ⟨old, isOld, areSame old⟩
    · exact ⟨dir, (find?_fill_of_ne same).symm.trans isFound, rfl, rfl, rfl⟩
  refine ⟨fun key data isOrigin => ?_, fun wanted dir isFound => ?_, fun wanted dir isFound => ?_,
    sound.threads⟩
  · obtain ⟨old, isFound, isData, isMeta, noThread⟩ := sound.standing key data isOrigin
    by_cases same : hashing.keyToDir key = name
    · refine ⟨_, (find?_fill ..).trans ((if_pos same.symm).trans (congrArg _ isFound)),
        (areSame old).1.trans isData, (areSame old).2.1.trans isMeta, ?_⟩
      exact (congrArg sys.threads (areSame old).2.2).trans noThread
    · exact ⟨old, (find?_fill_of_ne same).trans isFound, isData, isMeta, noThread⟩
  · obtain ⟨old, isFound, isOrigin, isMeta, isMaker⟩ := isOld isFound
    obtain isStanding | ⟨holder, isHolder, isName, filled⟩ := sound.owned wanted old isFound
    · exact .inl isStanding
    · exact .inr ⟨holder, (congrArg sys.threads isMaker).trans isHolder, isName,
        filled.of_same isOrigin isMeta⟩
  · obtain ⟨old, isFound, _, _, isMaker⟩ := isOld isFound
    exact isMaker ▸ sound.makers wanted old isFound

theorem Sound.drop [DecidableEq Key] (sound : Sound hashing sys) (key : Key) :
    Sound hashing { sys with
      disk := sys.disk.remove (hashing.keyToDir key)
      origins := update sys.origins key none
      answer := answer } where
  standing other data isOrigin := by
    by_cases same : other = key
    · subst same
      cases (update_self ..).symm.trans isOrigin
    · obtain ⟨dir, isFound, isRest⟩ :=
        sound.standing other data ((update_of_ne same _ _).symm.trans isOrigin)
      exact ⟨dir, (Table.find?_remove ..).trans
        ((if_neg (hashing.keyToDir.injective.ne same)).trans isFound), isRest⟩
  owned name dir isFound := by
    rw [Table.find?_remove] at isFound
    split_ifs at isFound with isGone
    obtain ⟨other, data, rfl, isOrigin⟩ | isHeld := sound.owned name dir isFound
    · have isOther : other ≠ key := fun isKey => isGone (congrArg _ isKey)
      exact .inl ⟨other, data, rfl, (update_of_ne isOther _ _).trans isOrigin⟩
    · exact .inr isHeld
  makers name dir isFound := by
    rw [Table.find?_remove] at isFound
    split_ifs at isFound
    exact sound.makers name dir isFound
  threads := sound.threads

theorem Sound.start (sound : Sound hashing sys) (isRead : hashing.marshalled key = key) :
    Sound hashing { sys with
      threads := update sys.threads sys.next (some ⟨key, .stat⟩)
      next := sys.next + 1
      answer := none } where
  standing other data isOrigin := by
    obtain ⟨dir, isFound, isData, isMeta, noThread⟩ := sound.standing other data isOrigin
    have isOlder := Nat.ne_of_lt (sound.makers _ dir isFound)
    exact ⟨dir, isFound, isData, isMeta, (update_of_ne isOlder _ _).trans noThread⟩
  owned name dir isFound := by
    have isOlder := Nat.ne_of_lt (sound.makers _ dir isFound)
    obtain isStanding | ⟨holder, isHolder, isRest⟩ := sound.owned name dir isFound
    · exact .inl isStanding
    · exact .inr ⟨holder, (update_of_ne isOlder _ _).trans isHolder, isRest⟩
  makers name dir isFound := Nat.lt_succ_of_lt (sound.makers name dir isFound)
  threads id thread isThread := by
    obtain ⟨rfl, isNew⟩ | ⟨_, isOld⟩ := update_eq_some isThread
    · cases isNew
      exact ⟨Nat.lt_succ_self _, isRead⟩
    · exact ⟨Nat.lt_succ_of_lt (sound.threads id thread isOld).1, (sound.threads id thread isOld).2⟩

theorem initial_sound : Sound hashing initial :=
  ⟨fun _ _ isOrigin => (by cases isOrigin), fun _ _ isFound => (by cases isFound),
    fun _ _ isFound => (by cases isFound), fun _ _ isThread => (by cases isThread)⟩

theorem Sound.toKept (sound : Sound hashing sys) : Kept hashing sys where
  origin key data isOrigin := by
    obtain ⟨dir, isFound, isData, _⟩ := sound.standing key data isOrigin
    exact ⟨dir, isFound, isData⟩
  free key noOrigin noThread := by
    by_contra isThere
    obtain ⟨dir, isFound⟩ := Option.ne_none_iff_exists'.mp isThere
    obtain ⟨other, data, isName, isOrigin⟩ | ⟨holder, isHolder, isName, _⟩ :=
      sound.owned _ dir isFound
    · obtain rfl := hashing.keyToDir.injective isName
      cases noOrigin.symm.trans isOrigin
    · exact noThread _ holder isHolder (hashing.keyToDir.injective isName).symm

/-! ## Steps -/

/-- The ways in which a clean step goes. -/
inductive Performs [DecidableEq Key] [DecidableEq Digest] (hashing : Hashing Key Name Digest)
    (sys : System Key Name) : Label Key Name → System Key Name → Prop where
  | starts {key : Key} (isRead : hashing.marshalled key = key) :
    Performs hashing sys (.init key) { sys with
      threads := update sys.threads sys.next (some ⟨key, .stat⟩)
      next := sys.next + 1
      answer := none }
  | acts {label : Label Key Name} {id : Nat} {thread : Thread Key} {disk : Disk Key Name}
      {later : Option (Thread Key)} {answer : Option (Answer Key)}
      (isThread : sys.threads id = some thread)
      (acts : Acts hashing sys id thread disk later)
      (isAnswer : answer = none ∨ answer = some .error) :
    Performs hashing sys label (sys.act id disk later answer)
  | finishes {label : Label Key Name} {id : Nat} {key : Key} {data : Bytes}
      (isThread : sys.threads id = some ⟨key, .writeMeta data⟩) (owns : Own hashing sys id)
      (isThere : (sys.disk.find? (hashing.keyToDir key)).isSome) :
    Performs hashing sys label { sys.act id (fill sys.disk (hashing.keyToDir key)
      fun dir => { dir with metaKey := some (hashing.marshalled key) }) none (some .done) with
      origins := update sys.origins key (some data) }
  | changes {label : Label Key Name} {name : Name} {change : Dir Key Name → Dir Key Name}
      {answer : Option (Answer Key)}
      (areSame : ∀ dir, (change dir).origin = dir.origin ∧ (change dir).metaKey = dir.metaKey ∧
        (change dir).maker = dir.maker)
      (isAnswer : answer = none ∧ (∃ key content, label = .edit key content) ∨
        answer = some .done ∨ answer = some .error ∧ change = fun dir => dir) :
    Performs hashing sys label
      { sys with disk := fill sys.disk name change, answer := answer }
  | drops {key : Key} {ok : Bool} : Performs hashing sys (.drop key ok none) { sys with
      disk := sys.disk.remove (hashing.keyToDir key)
      origins := update sys.origins key none
      answer := some .done }
  | fails {label : Label Key Name} : Performs hashing sys label (sys.reply .error)
  | tells {key : Key} {clean : Bool} (isStatus : status hashing sys.disk key = some clean)
      (isClean : Clean hashing sys (.status key true)) :
    Performs hashing sys (.status key true) (sys.reply (.status clean))
  | lists {unread : Name → Bool} (isClean : Clean hashing sys (.list true unread)) :
    Performs hashing sys (.list true unread)
      (sys.reply (.listed (list hashing sys.disk unread)))

variable [DecidableEq Key] [DecidableEq Digest] {label : Label Key Name}

theorem Sound.performs (sound : Sound hashing sys)
    (performs : Performs hashing sys label next) : Sound hashing next := by
  cases performs with
  | starts isRead => exact sound.start isRead
  | acts isThread acts => exact sound.act isThread acts
  | finishes isThread owns isThere => exact sound.finish isThread owns isThere
  | changes areSame => exact sound.edits areSame
  | drops => exact sound.drop _
  | fails | tells | lists => exact ⟨sound.standing, sound.owned, sound.makers, sound.threads⟩

omit [DecidableEq Key] [DecidableEq Digest] in
theorem Answered.of_silent (once : ∀ key data, sys.origins key = some data →
      next.origins key = some data ∨
        (∃ ok, label = .drop key ok none) ∧ next.answer = some .done)
    (quiet : (∀ key content, label ≠ .edit key content) → next.answer ≠ some .done →
      next.origins = sys.origins ∧ ∀ key, (sys.origins key).isSome →
        next.disk.find? (hashing.keyToDir key) = sys.disk.find? (hashing.keyToDir key))
    (isSilent : next.answer = none ∨ next.answer = some .error ∨ next.answer = some .done) :
    Answered hashing sys label next where
  once := once
  quiet := quiet
  status _ _ _ _ _ _ _ _ isStatus := by
    obtain isNone | isError | isDone := isSilent <;> simp_all
  listed _ _ _ _ isListed := by
    obtain isNone | isError | isDone := isSilent <;> simp_all

theorem Sound.answered (sound : Sound hashing sys)
    (performs : Performs hashing sys label next) : Answered hashing sys label next := by
  cases performs with
  | starts =>
    exact .of_silent (fun _ _ isOrigin => .inl isOrigin) (fun _ _ => ⟨rfl, fun _ _ => rfl⟩)
      (.inl rfl)
  | acts isThread acts isAnswer =>
    refine .of_silent (fun _ _ isOrigin => .inl isOrigin)
      (fun _ _ => ⟨rfl, fun key isStanding => ?_⟩) (isAnswer.imp_right .inl)
    obtain ⟨data, isOrigin⟩ := Option.isSome_iff_exists.mp isStanding
    exact sound.standing_kept isThread acts isOrigin
  | @finishes _ _ key data isThread owns isThere =>
    refine .of_silent (fun other otherData isOrigin => .inl ?_)
      (fun _ notDone => absurd rfl notDone) (.inr (.inr rfl))
    -- Another `Init` of the key would have had a directory that is not its own.
    refine (update_of_ne (fun same => ?_) _ _).trans isOrigin
    subst same
    obtain ⟨dir, isFound, _, _, noThread⟩ := sound.standing other otherData isOrigin
    rw [owns _ dir isThread isFound, isThread] at noThread
    cases noThread
  | @changes _ name change answer areSame isAnswer =>
    refine .of_silent (fun _ _ isOrigin => .inl isOrigin)
      (fun notEdit notDone => ⟨rfl, fun key _ => ?_⟩) ?_
    · obtain ⟨_, _, _, isEdit⟩ | rfl | ⟨_, rfl⟩ := isAnswer
      · exact absurd isEdit (notEdit _ _)
      · exact absurd rfl notDone
      · refine (find?_fill ..).trans ?_
        split_ifs with same
        · cases isFound : sys.disk.find? (hashing.keyToDir key) with
          | none => rfl
          | some dir =>
            have isName := (Table.find?_eq_some_iff.mp isFound).2
            rw [Option.map_some, same, ← isName]
        · rfl
    · obtain ⟨isNone, _⟩ | isDone | ⟨isError, _⟩ := isAnswer
      · exact .inl isNone
      · exact .inr (.inr isDone)
      · exact .inr (.inl isError)
  | @drops key ok =>
    refine .of_silent (fun other data isOrigin => ?_) (fun _ notDone => absurd rfl notDone)
      (.inr (.inr rfl))
    by_cases same : other = key
    · exact .inr ⟨⟨ok, same ▸ rfl⟩, rfl⟩
    · exact .inl ((update_of_ne same _ _).trans isOrigin)
  | fails =>
    exact .of_silent (fun _ _ isOrigin => .inl isOrigin) (fun _ _ => ⟨rfl, fun _ _ => rfl⟩)
      (.inr (.inl rfl))
  | @tells key clean isStatus isClean =>
    refine ⟨fun _ _ isOrigin => .inl isOrigin, fun _ _ => ⟨rfl, fun _ _ => rfl⟩, ?_,
      fun _ _ isLabel => by cases isLabel⟩
    intro _ _ isLabel data dir isTold isOrigin isFound isAnswer
    cases isLabel
    cases isAnswer
    obtain ⟨other, isOther, isData, _⟩ := sound.standing key data isOrigin
    obtain rfl := Option.some.inj (isFound.symm.trans isOther)
    simp only [status, isFound, isData, Option.bind_some, Option.map_eq_some_iff] at isStatus
    obtain ⟨working, isWorking, rfl⟩ := isStatus
    rw [decide_eq_true_iff, isWorking, Option.some.injEq]
    exact ⟨fun same => (isClean dir data working isFound isData isWorking same).symm,
      fun same => congrArg _ same.symm⟩
  | @lists unread isClean =>
    refine ⟨fun _ _ isOrigin => .inl isOrigin, fun _ _ => ⟨rfl, fun _ _ => rfl⟩,
      fun _ _ isLabel => (by cases isLabel), ?_⟩
    intro _ _ isLabel items isAnswer key
    cases isLabel
    cases isAnswer
    rw [List.mem_map]
    constructor
    · rintro ⟨item, isItem, rfl⟩
      obtain ⟨dir, isDir, isShown⟩ := List.mem_filterMap.mp isItem
      rw [isClean dir isDir, if_neg Bool.false_ne_true, Option.map_eq_some_iff] at isShown
      obtain ⟨shown, isMeta, rfl⟩ := isShown
      have isFound := Table.find?_eq_some_iff.mpr ⟨isDir, rfl⟩
      obtain ⟨owner, data, isName, isOrigin⟩ | ⟨holder, _, _, filled⟩ :=
        sound.owned dir.name dir isFound
      · obtain ⟨other, isOther, _, isKey, _⟩ := sound.standing owner data isOrigin
        rw [isName, isOther] at isFound
        obtain rfl := Option.some.inj isFound
        obtain rfl := Option.some.inj (isMeta.symm.trans isKey)
        exact Option.isSome_of_mem isOrigin
      · cases isStage : holder.stage <;> rw [isStage] at filled <;>
          simp [Filled, isMeta] at filled
    · intro isStanding
      obtain ⟨data, isOrigin⟩ := Option.isSome_iff_exists.mp isStanding
      obtain ⟨dir, isFound, _, isMeta, _⟩ := sound.standing key data isOrigin
      have isDir := (Table.find?_eq_some_iff.mp isFound).1
      refine ⟨(key, status hashing sys.disk key), List.mem_filterMap.mpr ⟨dir, isDir, ?_⟩, rfl⟩
      rw [isClean dir isDir, if_neg Bool.false_ne_true, isMeta]
      rfl

theorem Sound.performs_write (sound : Sound hashing sys) {write : Write}
    (clean : Clean hashing sys (.write id write)) (ran : step hashing sys (.write id write) = some next) :
    Performs hashing sys (.write id write) next := by
  obtain ⟨owns, unread⟩ := clean
  simp only [step] at ran
  split at ran
  · next key data isThread =>
    cases ran
    refine .acts isThread (sound.writes isThread owns (fun _ => rfl) fun dir _ filled => ?_)
      (.inl rfl)
    split_ifs with isWritten
    · exact ⟨filled, isWritten.2 ▸ rfl⟩
    · exact filled
  · next key data isThread =>
    cases ran
    refine .acts isThread (sound.writes isThread owns (fun _ => rfl) fun dir _ filled => ?_)
      (.inl rfl)
    split_ifs
    · exact filled
    · exact filled.1
  · next key data isThread =>
    split at ran
    · next isWritten =>
      cases ran
      obtain ⟨isThere, rfl⟩ := isWritten
      exact .finishes isThread owns isThere
    · next notWritten =>
      cases ran
      refine .acts isThread (sound.writes isThread owns (fun _ => rfl)
        fun dir isFound filled => ?_) (.inl rfl)
      cases write with
      | ok => exact absurd ⟨Option.isSome_of_mem isFound, rfl⟩ notWritten
      | failed left =>
        cases left with
        | none => exact filled.1
        | some left => exact unread left key data rfl isThread
  · cases ran

theorem Sound.performs_of_step (sound : Sound hashing sys) (clean : Clean hashing sys label)
    (ran : step hashing sys label = some next) : Performs hashing sys label next := by
  cases label with
  | init key =>
    cases ran
    exact .starts clean
  | stat id ok =>
    unfold step at ran
    dsimp only at ran
    split at ran
    · next key isThread =>
      split at ran <;> cases ran
      · exact .acts isThread (sound.moves isThread (fun _ isLater => by cases isLater)
          fun _ _ _ filled => filled.elim) (.inr rfl)
      · exact .acts isThread (sound.moves isThread (fun _ isLater => by cases isLater; rfl)
          fun _ _ _ filled => filled.elim) (.inl rfl)
    · cases ran
  | mkdirAll id ok =>
    unfold step at ran
    dsimp only at ran
    split at ran
    · next key isThread =>
      split at ran <;> cases ran
      · exact .acts isThread (sound.makes isThread clean) (.inl rfl)
      · exact .acts isThread (sound.moves isThread (fun _ isLater => by cases isLater)
          fun _ _ _ filled => filled.elim) (.inr rfl)
    · cases ran
  | readAll id content =>
    unfold step at ran
    dsimp only at ran
    split at ran
    · next key isThread =>
      cases content with
      | none =>
        cases ran
        exact .acts isThread (sound.moves isThread (fun _ isLater => by cases isLater)
          fun dir isFound isOwn _ => absurd isOwn (clean rfl _ dir isThread isFound)) (.inr rfl)
      | some data =>
        cases ran
        exact .acts isThread (sound.moves isThread (fun _ isLater => by cases isLater; rfl)
          fun _ _ _ filled => ⟨_, rfl, filled⟩) (.inl rfl)
    · cases ran
  | write id write => exact sound.performs_write clean ran
  | removeAll id left =>
    unfold step at ran
    dsimp only at ran
    split at ran
    · next key isThread =>
      cases ran
      exact .acts isThread (removes isThread clean.1 fun isLeft => clean.2 _ isLeft isThread)
        (.inr rfl)
    · cases ran
  | reset key readable write =>
    cases ran
    unfold reset
    split
    · exact .fails
    · cases write with
      | ok => exact .changes (fun _ => ⟨rfl, rfl, rfl⟩) (.inr (.inl rfl))
      | failed left =>
        cases left with
        | none => exact .changes (fun _ => ⟨rfl, rfl, rfl⟩) (.inr (.inr ⟨rfl, rfl⟩))
        | some left => exact absurd rfl (clean left)
  | drop key ok left =>
    cases ran
    unfold Redit.drop
    split
    · exact .fails
    · obtain rfl | rfl := clean
      · exact .drops
      · exact .changes (fun _ => ⟨rfl, rfl, rfl⟩) (.inr (.inr ⟨rfl, rfl⟩))
  | status key readable =>
    cases ran
    cases readable with
    | false => exact .fails
    | true =>
      cases isStatus : status hashing sys.disk key with
      | none =>
        simp only [if_true]
        exact .fails
      | some isSame =>
        simp only [if_true]
        exact .tells isStatus clean
  | list readable unread =>
    cases ran
    cases readable with
    | false => exact .fails
    | true => exact .lists clean
  | edit key content =>
    cases ran
    exact .changes (fun _ => ⟨rfl, rfl, rfl⟩) (.inl ⟨rfl, key, content, rfl⟩)

/-! ## Runs -/

/-- Along every run of clean steps the originals are kept, and an error leaves them, and what is
answered, as they were. -/
theorem originalsKept (run : Run (step hashing) (Clean hashing) initial sys) :
    Kept hashing sys ∧ ∀ label next, Clean hashing sys label →
      step hashing sys label = some next → Answered hashing sys label next := by
  have sound : Sound hashing sys := run.invariant initial_sound
    fun _ _ _ sound clean ran => sound.performs (sound.performs_of_step clean ran)
  exact ⟨sound.toKept,
    fun label next clean ran => sound.answered (sound.performs_of_step clean ran)⟩

/-- Keys and names are numbers, and no text but that of a successful write can be read. -/
def plain : Hashing Nat Nat Bytes := ⟨.refl Nat, fun data => data, fun key => key, fun _ => none⟩

/-- Key 0 is initialised with `[7]` and its working file edited to `[8]`; an `Init` of key 1 fails
at its second write and cleans up. -/
def initialisedAndFailed : List (Label Nat Nat) :=
  [.init 0, .stat 0 true, .mkdirAll 0 true, .readAll 0 (some [7]), .write 0 .ok, .write 0 .ok,
    .write 0 .ok, .edit 0 (some [8]), .init 1, .stat 1 true, .mkdirAll 1 true,
    .readAll 1 (some [9]), .write 1 .ok, .write 1 (.failed (some [])), .removeAll 1 none]

theorem originalsKept_initialised : ∃ sys next,
    Run (step plain) (Clean plain) initial sys ∧ sys.origins 0 = some [7] ∧
      sys.origins 1 = none ∧ sys.disk.find? 1 = none ∧ Kept plain sys ∧
        step plain sys (.status 0 true) = some next ∧ next.answer = some (.status false) ∧
          Answered plain sys (.status 0 true) next := by
  have permitted : Permitted (step plain) (Clean plain) initial initialisedAndFailed := by
    have own {sys : System Nat Nat} {id : Nat} {thread : Thread Nat}
        (isThread : sys.threads id = some thread)
        (isMaker : ∀ dir ∈ sys.disk.find? thread.key, dir.maker = id) : Own plain sys id := by
      intro other dir isOther isFound
      cases isThread.symm.trans isOther
      exact isMaker dir isFound
    refine ⟨rfl, _, rfl, trivial, _, rfl, own rfl (by decide), _, rfl, nofun, _, rfl,
      ⟨own rfl (by decide), nofun⟩, _, rfl, ⟨own rfl (by decide), nofun⟩, _, rfl,
      ⟨own rfl (by decide), nofun⟩, _, rfl, trivial, _, rfl, rfl, _, rfl, trivial, _, rfl,
      own rfl (by decide), _, rfl, nofun, _, rfl, ⟨own rfl (by decide), nofun⟩, _, rfl,
      ⟨own rfl (by decide), ?_⟩, _, rfl, ⟨own rfl (by decide), nofun⟩, _, rfl, trivial⟩
    exact fun _ _ _ _ _ => rfl
  obtain ⟨sys, replayed, isKept, isFree, isGone, next, ran, isDirty⟩ : ∃ sys,
      execute (step plain) initial initialisedAndFailed = some sys ∧ sys.origins 0 = some [7] ∧
        sys.origins 1 = none ∧ sys.disk.find? 1 = none ∧ ∃ next,
          step plain sys (.status 0 true) = some next ∧ next.answer = some (.status false) :=
    ⟨_, rfl, rfl, rfl, rfl, _, rfl, rfl⟩
  have run := run_of_permitted _ permitted replayed
  have clean : Clean plain sys (.status 0 true) := fun _ _ _ _ _ _ same => same
  obtain ⟨kept, answered⟩ := originalsKept run
  exact ⟨sys, next, run, isKept, isFree, isGone, kept, ran, isDirty, answered _ next clean ran⟩

theorem not_originalsKept : ¬∀ sys, Reachable (step plain) initial sys →
    Kept plain sys := by
  intro areKept
  obtain ⟨sys, replayed, isThere, noThread, noOrigin⟩ : ∃ sys, execute (step plain) initial
      [.init 0, .stat 0 true, .mkdirAll 0 true, .readAll 0 none] = some sys ∧
        (sys.disk.find? 0).isSome ∧ (∀ id, sys.threads id = none) ∧
          sys.origins 0 = none := by
    refine ⟨_, rfl, rfl, fun id => ?_, rfl⟩
    by_cases same : id = 0
    · subst same
      rfl
    · exact (update_of_ne same _ _).trans ((update_of_ne same _ _).trans
        ((update_of_ne same _ _).trans (update_of_ne same _ _)))
  have free := (areKept sys (reachable_of_execute _ replayed)).free 0 noOrigin
    fun id thread isThread => by
      rw [noThread id] at isThread
      cases isThread
  have isFree : sys.disk.find? 0 = none := free
  rw [isFree] at isThere
  cases isThere

end AiTools.Redit
