import AukiSdk.Logs.LogInvariant

/-!
# Tailing a log that is being written

The file steps of a writer and the observations of a tailer, in any order.
-/

namespace AukiSdk.Logs

open AukiSdk.Foundation
open Std (ExtTreeMap)

variable {T : Type}

/-- An entry at its place in a segment. -/
structure Located (T : Type) where
  segment : ℤ
  index : ℕ
  entry : Entry T
  deriving DecidableEq

/-- The files, the open segment with its buffer, what was appended and removed. -/
structure Writer (T : Type) where
  dir : Directory
  current : Option (ℤ × List UInt8)
  history : List (Located T)
  evicted : List ℤ

/-- A file step of the writer. -/
inductive WriterAction (T : Type) where
  /-- The bytes of an entry enter the buffer. -/
  | append (entry : Entry T)
  /-- Buffered bytes reach the file, in order. -/
  | write (count : ℕ)
  /-- The segment is closed, flushed, and the next one is created. -/
  | rollover (timestampNs : I64)
  /-- A segment file is removed. -/
  | evict (startNs : ℤ)

instance (codec : LogPayload T) (entry : Entry T) : Decidable (codec.Writable entry) :=
  inferInstanceAs (Decidable (0 ≤ entry.timestampNs ∧ entry.timestampNs ≤ i64Max ∧
    (codec.encode entry.payload).length < 2 ^ 32))

/-- The entries of a segment, in order. -/
def locatedAt (history : List (Located T)) (segment : ℤ) : List (Located T) :=
  history.filter (·.segment = segment)

/-- The next segment may be created when nothing is left to flush. -/
def mayRollOver (current : Option (ℤ × List UInt8)) (startNs : ℤ) : Bool :=
  match current with
  | none => true
  | some (open', pending) => pending.isEmpty && open' < startNs

variable (codec : LogPayload T)

/-- One file step; `none` when the writer does not take it. -/
def Writer.step (segmentDurationNs : ℤ) (writer : Writer T) :
    WriterAction T → Option (Writer T)
  | .append entry =>
    match writer.current with
    | none => none
    | some (startNs, pending) =>
      if codec.Writable entry ∧ windowStart segmentDurationNs entry.timestampNs = startNs ∧
          ∀ located ∈ writer.history, located.entry.timestampNs ≤ entry.timestampNs then
        some
          { writer with
            current := some (startNs, pending ++ codec.entryBytes entry)
            history := writer.history ++
              [⟨startNs, (locatedAt writer.history startNs).length, entry⟩] }
      else
        none
  | .write count =>
    match writer.current with
    | none => none
    | some (startNs, pending) =>
      some
        { writer with
          dir := appendBytes writer.dir startNs (pending.take count)
          current := some (startNs, pending.drop count) }
  | .rollover timestampNs =>
    let startNs := windowStart segmentDurationNs timestampNs.value
    if 0 ≤ timestampNs.value ∧ mayRollOver writer.current startNs then
      some
        { writer with
          dir := writer.dir.insert (segmentFilename startNs) []
          current := some (startNs, segmentHeader startNs) }
    else
      none
  | .evict startNs =>
    if startNs ∈ listSegments writer.dir ∧ writer.current.map Prod.fst ≠ some startNs then
      some
        { writer with
          dir := writer.dir.erase (segmentFilename startNs)
          evicted := writer.evicted ++ [startNs] }
    else
      none

/-- Nothing observed yet, read to the end at `length` bytes, or no file found. -/
inductive TailPhase where
  | ready
  | ended (length : ℕ)
  | missing
  deriving DecidableEq

/-- `TailIter`, with its place in the segment, what it skipped and what it yielded. -/
structure Tailer (T : Type) where
  segment : Option ℤ
  offset : ℕ
  index : ℕ
  phase : TailPhase
  yielded : List (Located T)
  skipped : ℕ

/-- An observation of the tailer. -/
inductive TailAction where
  /-- `list_segments` while there is no segment. -/
  | pick
  /-- `read_one_entry_at`. -/
  | read
  /-- `list_segments` after the segment ended or was missing. -/
  | list

/-- `Log::tail`, when the file ends at an entry boundary. -/
def startTail (writer : Writer T) : Option (Tailer T) :=
  match (listSegments writer.dir).getLast? with
  | none => some ⟨none, 0, 0, .ready, [], writer.history.length⟩
  | some latest =>
    match segmentFile writer.dir latest with
    | none => none
    | some bytes =>
      let whole := Framing.readFrames timestampWidth lengthWidth (bytes.length + 1)
        (bytes.drop headerSize)
      let offset := max bytes.length headerSize
      if offset = headerSize +
          (Framing.encodeFrames timestampWidth lengthWidth whole).length then
        some ⟨some latest, offset, whole.length, .ready, [],
          (writer.history.filter fun located =>
            located.segment ≠ latest ∨ located.index < whole.length).length⟩
      else
        none

/-- The tailer at the first entry of a segment. -/
def Tailer.enter (tailer : Tailer T) (segment : ℤ) : Tailer T :=
  { tailer with segment := some segment, offset := headerSize, index := 0, phase := .ready }

/-- One observation of `try_next`; `none` when the code is not at that point. -/
def Tailer.step (dir : Directory) (tailer : Tailer T) :
    TailAction → Option (Tailer T)
  | .pick =>
    match tailer.phase, tailer.segment with
    | .ready, none =>
      match (listSegments dir).head? with
      | none => some tailer
      | some first => some (tailer.enter first)
    | _, _ => none
  | .read =>
    match tailer.phase, tailer.segment with
    | .ready, some segment =>
      match segmentFile dir segment with
      | none => some { tailer with phase := .missing }
      | some bytes =>
        match Framing.readFrame timestampWidth lengthWidth (bytes.drop tailer.offset) with
        | none => some { tailer with phase := .ended bytes.length }
        | some (frame, _) =>
          match codec.readEntry frame with
          -- The call returns the error and stays where it is.
          | .error _ => some tailer
          | .ok entry =>
            some
              { tailer with
                offset := tailer.offset +
                  (timestampWidth + (lengthWidth + frame.2.length))
                index := tailer.index + 1
                yielded := tailer.yielded ++ [⟨segment, tailer.index, entry⟩] }
    | _, _ => none
  | .list =>
    match tailer.phase, tailer.segment with
    | .ready, _ => none
    | _, none => none
    | .ended _, some segment =>
      match (listSegments dir).find? (segment < ·) with
      | some next => some (tailer.enter next)
      | none => some { tailer with phase := .ready }
    | .missing, some segment =>
      match (listSegments dir).find? (segment < ·) with
      | some next => some (tailer.enter next)
      | none => some { tailer with segment := none, offset := 0, index := 0, phase := .ready }

/-- A writer, and a tailer once `tail` has returned. -/
structure TailSystem (T : Type) where
  writer : Writer T
  tailer : Option (Tailer T)

inductive SystemAction (T : Type) where
  | write (action : WriterAction T)
  | tail
  | observe (action : TailAction)

def TailSystem.step (codec : LogPayload T) (segmentDurationNs : ℤ) (system : TailSystem T) :
    SystemAction T → Option (TailSystem T)
  | .write action =>
    (system.writer.step codec segmentDurationNs action).map ({ system with writer := · })
  | .tail =>
    match system.tailer with
    | some _ => none
    | none => (startTail system.writer).map fun tailer => { system with tailer := some tailer }
  | .observe action =>
    match system.tailer with
    | none => none
    | some tailer =>
      (tailer.step codec system.writer.dir action).map fun tailer =>
        { system with tailer := some tailer }

/-- An empty log without a tailer. -/
def TailSystem.initial : TailSystem T := ⟨⟨∅, none, [], []⟩, none⟩

/-- The state after some steps, if they can be taken. -/
def TailSystem.run (segmentDurationNs : ℤ) (actions : List (SystemAction T)) :
    Option (TailSystem T) :=
  actions.foldlM (TailSystem.step codec segmentDurationNs) TailSystem.initial

/-- An entry that the tailer has not come to yet. -/
def Tailer.ahead (tailer : Tailer T) (located : Located T) : Bool :=
  match tailer.segment with
  | none => true
  | some segment => segment < located.segment ||
      (located.segment = segment && tailer.index ≤ located.index)

/-- Yielded entries are in order, and every other one is still ahead or evicted. -/
def LosesNothing (system : TailSystem T) : Prop :=
  ∀ tailer ∈ system.tailer,
    tailer.yielded.Sublist (system.writer.history.drop tailer.skipped) ∧
    tailer.yielded.Nodup ∧
    ∀ located ∈ system.writer.history.drop tailer.skipped,
      located ∈ tailer.yielded ∨ tailer.ahead located ∨
        located.segment ∈ system.writer.evicted

/-- A newer segment is listed when the segment just read is complete or removed. -/
def Settled (system : TailSystem T) : SystemAction T → Prop
  | .observe .list =>
    ∀ tailer ∈ system.tailer, ∀ segment ∈ tailer.segment, ∀ length,
      tailer.phase = .ended length →
      (∃ newer ∈ listSegments system.writer.dir, segment < newer) →
      ∀ bytes ∈ segmentFile system.writer.dir segment, bytes.length = length
  | _ => True

end AukiSdk.Logs
