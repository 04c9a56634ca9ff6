import AukiSdk.Logs.Segment

/-!
# The segmented log

The writer of a segmented log: rollover, buffered writes and eviction.
-/

namespace AukiSdk.Logs

open AukiSdk.Foundation
open Std (ExtTreeMap)

variable {T : Type}

/-- `CurrentSegment`, whose `buffer` is what its `BufWriter` holds back. -/
structure CurrentSegment where
  startNs : ℤ
  endNs : ℤ
  buffer : List UInt8
  deriving DecidableEq

/-- `Log`, with the files of its segment directory. -/
structure Log where
  capacity : ℕ
  segmentDurationNs : ℤ
  retentionNs : ℤ
  segmentStarts : Finset ℤ
  current : Option CurrentSegment
  dir : Directory

/-- An entry was appended, or its segment was removed. -/
inductive LogEvent (T : Type) where
  | appended (startNs : ℤ) (entry : Entry T) (retentionNs : ℤ)
  | evicted (startNs : ℤ)
  deriving DecidableEq

/-- `Log::open` of an empty directory. -/
def Log.openEmpty (capacity : ℕ) (segmentDurationNs retentionNs : ℤ) : Log :=
  ⟨capacity, segmentDurationNs, retentionNs, ∅, none, ∅⟩

/-- Bytes that reach the end of a segment file. -/
def appendBytes (dir : Directory) (startNs : ℤ) (bytes : List UInt8) : Directory :=
  dir.modify (segmentFilename startNs) (· ++ bytes)

variable (log : Log)

def Log.closeCurrent : Log :=
  match log.current with
  | none => log
  | some cur =>
    { log with
      current := none
      dir := appendBytes log.dir cur.startNs cur.buffer }

def Log.startSegment (startNs : ℤ) : Except LogError Log :=
  if segmentFilename startNs ∈ log.dir then
    .error .alreadyExists
  else
    .ok
      { log with
        current := some ⟨startNs, saturatingAdd startNs log.segmentDurationNs, []⟩
        segmentStarts := insert startNs log.segmentStarts
        dir := log.dir.insert (segmentFilename startNs) (segmentHeader startNs) }

/-- `BufWriter::write_all`: data of the buffer's size is not buffered. -/
def bufWrite (capacity : ℕ) (cur : CurrentSegment) (dir : Directory) (data : List UInt8) :
    CurrentSegment × Directory :=
  let (buffer, dir) :=
    if cur.buffer.length + data.length > capacity then
      ([], appendBytes dir cur.startNs cur.buffer)
    else
      (cur.buffer, dir)
  if data.length ≥ capacity then
    ({ cur with buffer := buffer }, appendBytes dir cur.startNs data)
  else
    ({ cur with buffer := buffer ++ data }, dir)

/-- The segments that `evict_older_than` removes. -/
def Log.expired (thresholdNs : ℤ) : Finset ℤ :=
  log.segmentStarts.filter fun startNs =>
    saturatingAdd startNs log.segmentDurationNs ≤ thresholdNs ∧
      log.current.map CurrentSegment.startNs ≠ some startNs

def Log.evictOlderThan (thresholdNs : ℤ) : Log :=
  let expired := log.expired thresholdNs
  { log with
    segmentStarts := log.segmentStarts \ expired
    dir := KeyedLog.eraseAll ((expired.sort (· ≤ ·)).map segmentFilename) log.dir }

/-- The start of the segment of a timestamp. -/
def windowStart (segmentDurationNs timestampNs : ℤ) : ℤ :=
  timestampNs / segmentDurationNs * segmentDurationNs

/-- `needs_new` of `Log::append`. -/
def Log.needsNew (timestampNs : ℤ) : Bool :=
  match log.current with
  | none => true
  | some cur => timestampNs ≥ cur.endNs || timestampNs < cur.startNs

/-- The rollover of `Log::append`. -/
def Log.rollover (timestampNs : ℤ) : Except LogError Unit × Log :=
  if log.needsNew timestampNs then
    let closed := log.closeCurrent
    match closed.startSegment (windowStart log.segmentDurationNs timestampNs) with
    | .error error => (.error error, closed)
    | .ok started => (.ok (), started)
  else
    (.ok (), log)

variable (codec : LogPayload T)

/-- The three writes of `Log::append`. -/
def Log.writeEntry (log : Log) (cur : CurrentSegment) (entry : Entry T) :
    CurrentSegment × Directory :=
  let bytes := codec.encode entry.payload
  let first := bufWrite log.capacity cur log.dir
    (Framing.leBytes timestampWidth (i64Word entry.timestampNs))
  let second := bufWrite log.capacity first.1 first.2
    (Framing.leBytes lengthWidth bytes.length)
  bufWrite log.capacity second.1 second.2 bytes

/-- `Log::append`: the result, the log, and what happened to entries. -/
def Log.append (log : Log) (timestampNs : I64) (payload : T) :
    Except LogError Unit × Log × List (LogEvent T) :=
  if timestampNs.value < 0 then
    (.error (.format "timestamp_ns must be ≥ 0"), log, [])
  else
    match log.rollover timestampNs.value with
    | (.error error, closed) => (.error error, closed, [])
    | (.ok (), open') =>
      if (codec.encode payload).length ≥ 2 ^ 32 then
        (.error (.format "payload exceeds u32::MAX bytes"), open', [])
      else
        match open'.current with
        -- The rollover has set the current segment.
        | none => (.ok (), open', [])
        | some cur =>
          let entry : Entry T := ⟨timestampNs.value, payload⟩
          let written := open'.writeEntry codec cur entry
          let log := { open' with current := some written.1, dir := written.2 }
          let appended := LogEvent.appended cur.startNs entry log.retentionNs
          if log.retentionNs > 0 then
            -- Both are not negative, so the subtraction does not saturate.
            let threshold := timestampNs.value - log.retentionNs
            (.ok (), log.evictOlderThan threshold,
              appended :: ((log.expired threshold).sort (· ≤ ·)).map .evicted)
          else
            (.ok (), log, [appended])

def Log.flush : Log :=
  match log.current with
  | none => log
  | some cur =>
    { log with
      current := some { cur with buffer := [] }
      dir := appendBytes log.dir cur.startNs cur.buffer }

def Log.setRetention (retentionNs : I64) : Except LogError Unit × Log :=
  if retentionNs.value < 0 then
    (.error (.manifest "retention_ns must be ≥ 0"), log)
  else
    (.ok (), { log with retentionNs := retentionNs.value })

/-- One call on an open log. -/
inductive LogCall (T : Type) where
  | append (timestampNs : I64) (payload : T)
  | flush
  | setRetention (retentionNs : I64)

/-- A log and what happened to its entries so far, oldest first. -/
structure TracedLog (T : Type) where
  log : Log
  events : List (LogEvent T)

/-- One call. -/
def TracedLog.call (traced : TracedLog T) : LogCall T → TracedLog T
  | .append timestampNs payload =>
    let (_, log, events) := traced.log.append codec timestampNs payload
    ⟨log, traced.events ++ events⟩
  | .flush => ⟨traced.log.flush, traced.events⟩
  | .setRetention retentionNs => ⟨(traced.log.setRetention retentionNs).2, traced.events⟩

/-- A sequence of calls on a log that was opened empty. -/
def TracedLog.run (capacity : ℕ) (segmentDurationNs retentionNs : ℤ) (calls : List (LogCall T)) :
    TracedLog T :=
  calls.foldl (TracedLog.call codec) ⟨Log.openEmpty capacity segmentDurationNs retentionNs, []⟩

/-- The successfully appended entries, in append order. -/
def appendedEntries (events : List (LogEvent T)) : List (Entry T) :=
  events.filterMap fun
    | .appended _ entry _ => some entry
    | .evicted _ => none

/-- The entries, with their segments, that remain after an event. -/
def afterEvent (remaining : List (ℤ × Entry T)) : LogEvent T → List (ℤ × Entry T)
  | .appended startNs entry _ => remaining ++ [(startNs, entry)]
  | .evicted startNs => remaining.filter (·.1 ≠ startNs)

/-- The appended entries with their segments, minus those in evicted segments. -/
def remainingEntries (events : List (LogEvent T)) : List (ℤ × Entry T) :=
  events.foldl afterEvent []

end AukiSdk.Logs
