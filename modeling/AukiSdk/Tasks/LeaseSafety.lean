import AukiSdk.Tasks.Lease
import Mathlib

/-!
# What the execution of a lease guarantees

Events are retired in order, and a receipt follows the end of everything else.
-/

namespace AukiSdk.Tasks

open AukiSdk.Foundation List

variable {Value Failure Output : Type}

def LeaseEvent.acceptedValue : LeaseEvent Value Failure Output → Option Value
  | .accepted value => some value
  | _ => none

variable (trace : List (LeaseEvent Value Failure Output))

/-- The events for which `log_event` returned `Ok`. -/
def accepted : List Value :=
  trace.filterMap LeaseEvent.acceptedValue

def LeaseEvent.batch : LeaseEvent Value Failure Output → List Value
  | .acknowledged batch => batch
  | _ => []

/-- The batches of the answered heartbeats, one after the other. -/
def acknowledged : List Value :=
  trace.flatMap LeaseEvent.batch

/-- How often the handler and the peer were started and ended. -/
structure Tally (Output : Type) where
  handlerStarts : ℕ
  results : List (Except LeaseError Output)
  peerStarts : ℕ
  peerStops : ℕ
  receipts : ℕ

def LeaseEvent.handlerStart : LeaseEvent Value Failure Output → Bool
  | .handlerStarted => true
  | _ => false

def LeaseEvent.result : LeaseEvent Value Failure Output → Option (Except LeaseError Output)
  | .handlerReturned result => some result
  | _ => none

def LeaseEvent.peerStart : LeaseEvent Value Failure Output → Bool
  | .peerStarted => true
  | _ => false

def LeaseEvent.peerStop : LeaseEvent Value Failure Output → Bool
  | .peerShutDown _ => true
  | _ => false

def LeaseEvent.isReceipt : LeaseEvent Value Failure Output → Bool
  | .receipt _ => true
  | _ => false

def tally : Tally Output where
  handlerStarts := trace.countP LeaseEvent.handlerStart
  results := trace.filterMap LeaseEvent.result
  peerStarts := trace.countP LeaseEvent.peerStart
  peerStops := trace.countP LeaseEvent.peerStop
  receipts := trace.countP LeaseEvent.isReceipt

@[simp]
theorem accepted_append (trace events : List (LeaseEvent Value Failure Output)) :
    accepted (trace ++ events) = accepted trace ++ accepted events :=
  filterMap_append

@[simp]
theorem acknowledged_append (trace events : List (LeaseEvent Value Failure Output)) :
    acknowledged (trace ++ events) = acknowledged trace ++ acknowledged events :=
  flatMap_append

/-- Events of the queue and of heartbeats count for nothing else. -/
def LeaseEvent.quiet : LeaseEvent Value Failure Output → Bool
  | .accepted _ => true
  | .logRefused _ => true
  | .acknowledged _ => true
  | .heartbeatAccepted => true
  | .peerAbsent => true
  | .dataClosed => true
  | .foundOpen => true
  | .returned _ => true
  | _ => false

theorem tally_quiet {events : List (LeaseEvent Value Failure Output)}
    (hqui : ∀ event ∈ events, event.quiet = true) : tally (trace ++ events) = tally trace := by
  have hnone : ∀ test : LeaseEvent Value Failure Output → Bool,
      (∀ event : LeaseEvent Value Failure Output, event.quiet = true → test event = false) →
        events.countP test = 0 := by
    intro test htest
    rw [countP_eq_zero]
    intro event hm
    rw [htest event (hqui event hm)]
    exact Bool.false_ne_true
  have hres : events.filterMap LeaseEvent.result = [] := by
    rw [filterMap_eq_nil_iff]
    intro event hm
    have hev := hqui event hm
    cases event <;> first | rfl | cases hev
  simp only [tally, countP_append, filterMap_append, hres, append_nil]
  rw [hnone LeaseEvent.handlerStart, hnone LeaseEvent.peerStart, hnone LeaseEvent.peerStop,
    hnone LeaseEvent.isReceipt]
  · rfl
  all_goals
    intro event hev
    cases event <;> first | rfl | cases hev

variable (result : Except LeaseError Output)

/-- The handler returned, its events are acknowledged, and a heartbeat followed. -/
def AfterFlush (trace : List (LeaseEvent Value Failure Output))
    (cleanup : List (LeaseEvent Value Failure Output) → Prop) : Prop :=
  ∃ first second rest,
    trace = first ++ .handlerReturned result :: second ++ .heartbeatAccepted :: rest ∧
      accepted first <+: acknowledged trace ∧ cleanup rest

theorem AfterFlush.append {result : Except LeaseError Output}
    {trace : List (LeaseEvent Value Failure Output)}
    {cleanup cleanup' : List (LeaseEvent Value Failure Output) → Prop}
    (hflu : AfterFlush result trace cleanup) {events : List (LeaseEvent Value Failure Output)}
    (hcle : ∀ rest, cleanup rest → cleanup' (rest ++ events)) :
    AfterFlush result (trace ++ events) cleanup' := by
  obtain ⟨first, second, rest, rfl, hack, hrest⟩ := hflu
  refine ⟨first, second, rest ++ events, ?_, ?_, hcle rest hrest⟩
  · rw [append_assoc (first ++ _) _ events, cons_append]
  · rw [acknowledged_append]
    exact hack.trans (prefix_append _ _)

/-- The receipt reports the result. -/
def Receipt.Of : Receipt Failure Output → Prop
  | .complete output => result = .ok output
  | .fail _ => ∃ error, result = .error error

def DataClosed (rest : List (LeaseEvent Value Failure Output)) : Prop := .dataClosed ∈ rest

/-- The data client is closed, and a peer that was started is shut down. -/
def CleanedUp (trace rest : List (LeaseEvent Value Failure Output)) : Prop :=
  .dataClosed ∈ rest ∧ (.peerStarted ∈ trace → .peerShutDown true ∈ rest)

/-- A peer was started, is not configured, is the robot's own, or is optional and has no
grant. -/
def PeerReady (config : LeaseConfig Value) (trace : List (LeaseEvent Value Failure Output)) :
    Prop :=
  .peerStarted ∈ trace ∨ config.factory = false ∨ config.robotPeer = true ∨
    (config.optionalPeer = true ∧ .peerAbsent ∈ trace)

/-- What an event says about the events before it. -/
def LeaseEvent.Sound (config : LeaseConfig Value)
    (before : List (LeaseEvent Value Failure Output)) : LeaseEvent Value Failure Output → Prop
  | .handlerStarted =>
    (tally before).handlerStarts = 0 ∧ .heartbeatAccepted ∈ before ∧ PeerReady config before
  | .handlerReturned _ => (tally before).handlerStarts = 1 ∧ (tally before).results = []
  | .peerStarted => (tally before).peerStarts = 0
  | .peerShutDown _ => (tally before).peerStarts = 1 ∧ (tally before).peerStops = 0
  | .receipt report =>
    (tally before).receipts = 0 ∧ ∃ result, report.Of result ∧
      ∃ trace, before = trace ++ [.foundOpen] ∧ AfterFlush result trace (CleanedUp trace)
  | .returned _ =>
    (tally before).handlerStarts = (tally before).results.length ∧
      (tally before).peerStarts = (tally before).peerStops ∧ (tally before).peerStarts ≤ 1
  | _ => True

/-- The request of a heartbeat carries the front of the queue. -/
def HeartbeatPhase.Batch (events : List Value) : HeartbeatPhase Value → Prop
  | .sending batch => batch <+: events
  | .sent batch => batch <+: events
  | _ => True

def LoopPhase.Batch (events : List Value) : LoopPhase Value → Prop
  | .beating heartbeat => heartbeat.Batch events
  | _ => True

def LeasePhase.Batch (events : List Value) : LeasePhase Value Failure Output → Prop
  | .startup heartbeat => heartbeat.Batch events
  | .executing _ loop => loop.Batch events
  | .draining _ loop => loop.Batch events
  | .flushing _ heartbeat => heartbeat.Batch events
  | _ => True

/-- The last flush: its batch completes the events accepted before the handler
returned. -/
def HeartbeatPhase.Flush (trace : List (LeaseEvent Value Failure Output)) :
    HeartbeatPhase Value → Prop
  | .starting => ∃ first second, trace = first ++ .handlerReturned result :: second
  | .sending batch => ∃ first second, trace = first ++ .handlerReturned result :: second ∧
      accepted first <+: acknowledged trace ++ batch
  | .sent batch => ∃ first second, trace = first ++ .handlerReturned result :: second ∧
      accepted first <+: acknowledged trace ++ batch
  | .updatingPeer => ∃ first second, trace = first ++ .handlerReturned result :: second ∧
      accepted first <+: acknowledged trace
  | .finished (.ok ()) => AfterFlush result trace fun _ => True
  | .finished (.error _) => True

def AfterCleanup.Order (cleanup : List (LeaseEvent Value Failure Output) → Prop) :
    AfterCleanup Failure Output → Prop
  | .refuse _ => True
  | .report receipt => ∃ result, receipt.Of result ∧ AfterFlush result trace cleanup

def LeasePhase.Order (config : LeaseConfig Value)
    (trace : List (LeaseEvent Value Failure Output)) : LeasePhase Value Failure Output → Prop
  | .startup heartbeat =>
    match heartbeat with
    | .finished (.ok ()) => .heartbeatAccepted ∈ trace
    | _ => True
  | .startingPeer => .heartbeatAccepted ∈ trace
  | .awaitingPeer => .heartbeatAccepted ∈ trace
  | .executing _ _ => .heartbeatAccepted ∈ trace ∧ PeerReady config trace
  | .flushing outcome heartbeat => heartbeat.Flush outcome trace
  | .closingData next => next.Order trace fun _ => True
  | .takingPeer next => next.Order trace DataClosed
  | .shuttingDown next => next.Order trace DataClosed
  | .reporting receipt =>
    ∃ result, receipt.Of result ∧ AfterFlush result trace (CleanedUp trace)
  | _ => True

variable (counts : Tally Output)

/-- A started peer is in the context. -/
def Tally.Owns (peer : Option PeerSession) : Prop :=
  counts.peerStops = 0 ∧ counts.peerStarts = if peer = some .owned then 1 else 0

/-- What a phase says about the peer. -/
def LeasePhase.Peers (peer : Option PeerSession) :
    LeasePhase Value Failure Output → Prop
  | .awaitingPeer => counts.Owns peer ∧ peer = none
  | .shuttingDown _ => counts.peerStarts = 1 ∧ counts.peerStops = 0 ∧ peer = none
  | .reporting _ => counts.peerStarts = counts.peerStops ∧ counts.peerStarts ≤ 1
  | .sending _ => counts.peerStarts = counts.peerStops ∧ counts.peerStarts ≤ 1
  | .returned => True
  | _ => counts.Owns peer

/-- What a phase says about the handler and the receipt. -/
def LeasePhase.Control (closed : Bool) :
    LeasePhase Value Failure Output → Prop
  | .startup _ => counts.handlerStarts = 0 ∧ counts.results = [] ∧ counts.receipts = 0
  | .startingPeer => counts.handlerStarts = 0 ∧ counts.results = [] ∧ counts.receipts = 0
  | .awaitingPeer => counts.handlerStarts = 0 ∧ counts.results = [] ∧ counts.receipts = 0
  | .executing started _ => counts.handlerStarts = (if started = true then 1 else 0) ∧
      counts.results = [] ∧ counts.receipts = 0
  | .awaitingHandler _ => counts.handlerStarts = 1 ∧ counts.results = [] ∧
      counts.receipts = 0 ∧ closed = true
  | .draining result _ => counts.handlerStarts = 1 ∧ counts.results = [result] ∧
      counts.receipts = 0
  | .checking outcome => counts.handlerStarts = counts.results.length ∧
      (closed = true ∨ counts.results = [outcome]) ∧ counts.receipts = 0
  | .flushing _ _ => counts.handlerStarts = counts.results.length ∧ counts.receipts = 0
  | .closingData _ => counts.handlerStarts = counts.results.length ∧ counts.receipts = 0
  | .takingPeer _ => counts.handlerStarts = counts.results.length ∧ counts.receipts = 0
  | .shuttingDown _ => counts.handlerStarts = counts.results.length ∧ counts.receipts = 0
  | .reporting _ => counts.handlerStarts = counts.results.length ∧ counts.receipts = 0
  | .sending _ => counts.handlerStarts = counts.results.length
  | .returned => True

/-- The queue within its bounds. -/
def Fits (config : LeaseConfig Value) (events : List Value) : Prop :=
  events.length ≤ 1024 ∧ ∃ bytes, serializedEvents config events = some bytes ∧ bytes ≤ 64 * 1024

namespace LeaseExecution

/-- The queue holds what was accepted and not yet answered. -/
structure Queued (config : LeaseConfig Value) (lease : LeaseExecution Value Failure Output) :
    Prop where
  queue : accepted lease.trace = acknowledged lease.trace ++ lease.events
  fits : Fits config lease.events

/-- The counts, the order of the report and the queue agree with the phase. -/
structure Sound (config : LeaseConfig Value) (lease : LeaseExecution Value Failure Output) :
    Prop extends Queued config lease where
  batch : lease.phase.Batch lease.events
  robot : lease.peer = some .shared → config.robotPeer = true
  once : (tally lease.trace).handlerStarts ≤ 1
  peers : lease.phase.Peers (tally lease.trace) lease.peer
  control : lease.phase.Control (tally lease.trace) lease.closed
  order : lease.phase.Order config lease.trace
  events_sound : ∀ before event after, lease.trace = before ++ event :: after →
    event.Sound config before

variable {config : LeaseConfig Value} {lease next : LeaseExecution Value Failure Output}

theorem mapM_eq_some {test : Value → Option ℕ} {values : List Value} {lengths : List ℕ} :
    values.mapM test = some lengths ↔ List.Forall₂ (fun value length => test value = some length)
      values lengths := by
  induction values generalizing lengths with
  | nil =>
    rw [mapM_nil, forall₂_nil_left_iff]
    exact ⟨fun heq => (Option.some.inj heq).symm, fun heq => congrArg some heq.symm⟩
  | cons value values ih =>
    rw [mapM_cons, forall₂_cons_left_iff]
    simp only [Option.bind_eq_bind, Option.bind_eq_some_iff, Option.pure_def, Option.some.injEq]
    constructor
    · rintro ⟨length, hlen, rest, hrest, rfl⟩
      exact ⟨length, rest, hlen, ih.mp hrest, rfl⟩
    · rintro ⟨length, rest, hlen, hrest, rfl⟩
      exact ⟨length, hlen, rest, ih.mpr hrest, rfl⟩

variable {events : List Value} {value : Value}

theorem serializedEvents_concat {config : LeaseConfig Value} {bytes added : ℕ}
    (hbyt : serializedEvents config events = some bytes)
    (hadd : config.serialized value = some added) :
    serializedEvents config (events ++ [value]) =
      some (bytes + added + if events = [] then 0 else 1) := by
  unfold serializedEvents at hbyt
  split at hbyt
  · cases hbyt
  · rename_i lengths hlen
    cases hbyt
    have hcon : (events ++ [value]).mapM config.serialized = some (lengths ++ [added]) := by
      rw [mapM_eq_some] at hlen ⊢
      exact rel_append hlen (.cons hadd .nil)
    rw [serializedEvents, hcon]
    dsimp only
    cases events with
    | nil =>
      rw [mapM_eq_some, forall₂_nil_left_iff] at hlen
      rw [hlen]
      simp
    | cons first rest => simp; omega

theorem serializedEvents_tail {config : LeaseConfig Value} {bytes : ℕ}
    (hbyt : serializedEvents config (value :: events) = some bytes) :
    ∃ fewer, serializedEvents config events = some fewer ∧ fewer ≤ bytes := by
  unfold serializedEvents at hbyt
  split at hbyt
  · cases hbyt
  · rename_i lengths hlengths
    cases hbyt
    rw [mapM_eq_some, forall₂_cons_left_iff] at hlengths
    obtain ⟨length, rest, -, hrest, rfl⟩ := hlengths
    refine ⟨2 + rest.sum + (events.length - 1), ?_, ?_⟩
    · rw [serializedEvents, mapM_eq_some.mpr hrest]
    · rw [sum_cons, length_cons]
      omega

theorem fits_drop (hfits : Fits config lease.events) (count : ℕ) :
    Fits config (lease.events.drop count) := by
  generalize lease.events = events at hfits
  induction count generalizing events with
  | zero => exact hfits
  | succ count ih =>
    cases events with
    | nil => exact hfits
    | cons value events =>
      obtain ⟨hlen, bytes, hbyt, hle⟩ := hfits
      obtain ⟨fewer, hfew, hless⟩ := serializedEvents_tail hbyt
      exact ih events ⟨(Nat.le_succ _).trans hlen, fewer, hfew, hless.trans hle⟩

theorem fits_pushEvent {pushed : List Value} (hpush : pushEvent config events value = .ok pushed) :
    pushed = events ++ [value] ∧ Fits config pushed := by
  unfold pushEvent at hpush
  split at hpush
  · cases hpush
  · rename_i hlen
    split at hpush
    · cases hpush
    · rename_i bytes hbyt
      split at hpush
      · cases hpush
      · rename_i added hadd
        by_cases hle : 64 * 1024 < bytes + added + (if events = [] then 0 else 1)
        · rw [if_pos hle] at hpush
          cases hpush
        · rw [if_neg hle] at hpush
          cases hpush
          refine ⟨rfl, ?_, _, serializedEvents_concat hbyt hadd, not_lt.mp hle⟩
          rw [length_append, length_singleton]
          omega

end LeaseExecution

/-- The events of the queue and of heartbeats. -/
def LeaseEvent.ofQueue : LeaseEvent Value Failure Output → Bool
  | .accepted _ => true
  | .logRefused _ => true
  | .acknowledged _ => true
  | .heartbeatAccepted => true
  | _ => false

theorem LeaseEvent.quiet_of_ofQueue {event : LeaseEvent Value Failure Output}
    (hev : event.ofQueue = true) : event.quiet = true := by
  cases event <;> first | rfl | cases hev

/-- Only the queue, the token and the trace have changed. -/
structure Calm (config : LeaseConfig Value) (lease next : LeaseExecution Value Failure Output) :
    Prop where
  phase : next.phase = lease.phase
  peer : next.peer = lease.peer
  closed : lease.closed = true → next.closed = true
  queued : next.Queued config
  trace : ∃ events : List (LeaseEvent Value Failure Output),
    next.trace = lease.trace ++ events ∧ ∀ event ∈ events, event.ofQueue = true

/-- What a step of a heartbeat keeps, and what it has flushed. -/
structure Beat (config : LeaseConfig Value) (lease : LeaseExecution Value Failure Output)
    (heartbeat : HeartbeatPhase Value) (next : LeaseExecution Value Failure Output)
    (heartbeat' : HeartbeatPhase Value) : Prop extends Calm config lease next where
  batch : heartbeat'.Batch next.events
  accepted : heartbeat' = .finished (.ok ()) → .heartbeatAccepted ∈ next.trace
  flush : ∀ result : Except LeaseError Output, heartbeat.Flush result lease.trace →
    heartbeat'.Flush result next.trace

namespace Beat

variable {config : LeaseConfig Value} {lease next last : LeaseExecution Value Failure Output}
variable {first second third : HeartbeatPhase Value}

theorem trans (hfst : Beat config lease first next second)
    (hsnd : Beat config next second last third) : Beat config lease first last third where
  phase := hsnd.phase.trans hfst.phase
  peer := hsnd.peer.trans hfst.peer
  closed hcl := hsnd.closed (hfst.closed hcl)
  __ := hsnd
  trace := by
    obtain ⟨events, htr, hevs⟩ := hfst.trace
    obtain ⟨events', htrace', hevents'⟩ := hsnd.trace
    refine ⟨events ++ events', by rw [htrace', htr, append_assoc], ?_⟩
    intro event hm
    exact (mem_append.mp hm).elim (hevs event) (hevents' event)
  flush result hflu := hsnd.flush result (hfst.flush result hflu)

theorem snapshot (hqd : lease.Queued config) :
    Beat config lease .starting lease (.sending lease.events) where
  phase := rfl
  peer := rfl
  closed := id
  queued := hqd
  batch := prefix_rfl
  trace := ⟨[], (append_nil _).symm, by simp⟩
  accepted heq := by cases heq
  flush result hflu := by
    obtain ⟨first, second, htr⟩ := hflu
    refine ⟨first, second, htr, ?_⟩
    rw [← hqd.queue]
    conv_rhs => rw [htr]
    rw [accepted_append]
    exact prefix_append _ _

theorem sent (hqd : lease.Queued config) {batch : List Value}
    (hbat : batch <+: lease.events) :
    Beat config lease (.sending batch) lease (.sent batch) where
  phase := rfl
  peer := rfl
  closed := id
  queued := hqd
  batch := hbat
  trace := ⟨[], (append_nil _).symm, by simp⟩
  accepted heq := by cases heq
  flush _ hflu := hflu

theorem answered (hqd : lease.Queued config) {batch : List Value}
    (hbat : batch <+: lease.events) :
    Beat config lease (.sent batch)
      ({ lease with events := lease.events.drop batch.length }.record [.acknowledged batch])
      .updatingPeer where
  phase := rfl
  peer := rfl
  closed := id
  queued := by
    obtain ⟨rest, hrest⟩ := hbat
    refine ⟨?_, LeaseExecution.fits_drop hqd.fits _⟩
    simp only [LeaseExecution.record, accepted_append, acknowledged_append]
    rw [hqd.queue, ← hrest, drop_left]
    simp [Tasks.accepted, acknowledged, LeaseEvent.acceptedValue, LeaseEvent.batch]
  batch := trivial
  trace := by
    refine ⟨[.acknowledged batch], rfl, ?_⟩
    intro event hm
    rw [mem_singleton.mp hm]
    rfl
  accepted heq := by cases heq
  flush result hflu := by
    obtain ⟨first, second, htr, hfro⟩ := hflu
    refine ⟨first, second ++ [.acknowledged batch], ?_, ?_⟩
    · simp only [LeaseExecution.record, htr]
      rw [append_assoc, cons_append]
    · simp only [LeaseExecution.record, acknowledged_append]
      simpa [acknowledged, LeaseEvent.batch] using hfro

theorem failed (hqd : lease.Queued config) (error : LeaseError) :
    Beat config lease first (lease.settle (.error error)).1 (lease.settle (.error error)).2 where
  phase := rfl
  peer := rfl
  closed _ := rfl
  queued := ⟨hqd.queue, hqd.fits⟩
  batch := trivial
  trace := ⟨[], (append_nil _).symm, by simp⟩
  accepted heq := by cases heq
  flush _ _ := trivial

theorem succeeded (hqd : lease.Queued config) (grant : Bool) :
    Beat config lease .updatingPeer ({ lease with peerGrant := grant }.settle (.ok ())).1
      ({ lease with peerGrant := grant }.settle (.ok ())).2 where
  phase := rfl
  peer := rfl
  closed := id
  queued := by
    refine ⟨?_, hqd.fits⟩
    calc Tasks.accepted (lease.trace ++ [.heartbeatAccepted])
        = Tasks.accepted lease.trace := (accepted_append _ _).trans (append_nil _)
      _ = acknowledged lease.trace ++ lease.events := hqd.queue
      _ = acknowledged (lease.trace ++ [.heartbeatAccepted]) ++ lease.events := by
        rw [acknowledged_append]
        exact congrArg (· ++ lease.events) (append_nil _).symm
  batch := trivial
  trace := by
    refine ⟨[.heartbeatAccepted], rfl, ?_⟩
    intro event hm
    rw [mem_singleton.mp hm]
    rfl
  accepted _ := mem_append_right _ mem_cons_self
  flush result hflu := by
    obtain ⟨first, second, htr, hfro⟩ := hflu
    refine ⟨first, second, [], ?_, ?_, trivial⟩
    · simp only [LeaseExecution.settle, LeaseExecution.record]
      rw [htr]
    · simp only [LeaseExecution.settle, LeaseExecution.record, acknowledged_append]
      exact hfro.trans (prefix_append _ _)

theorem of_heartbeat {input : HeartbeatInput} (hqd : lease.Queued config)
    (hbat : first.Batch lease.events)
    (hs : lease.heartbeat config first input = some (next, second)) :
    Beat config lease first next second := by
  have hint : ∀ ready error, lease.interrupt ready error = some (next, second) →
      Beat config lease first next second := by
    intro ready error hint
    unfold LeaseExecution.interrupt at hint
    split at hint
    · cases hint
      exact failed hqd error
    · cases hint
  unfold LeaseExecution.heartbeat at hs
  split at hs
  · cases hs
    exact snapshot hqd
  · cases hs
    exact sent hqd hbat
  all_goals try exact hint _ _ hs
  · cases hs
    exact failed hqd _
  · cases hs
    exact failed hqd _
  · -- the response has arrived
    rename_i batch update
    have hans := answered hqd hbat
    dsimp only at hs
    split at hs
    · cases hs
      exact hans.trans (failed hans.queued _)
    · split at hs
      · split at hs
        · cases hs
          exact hans
        · cases hs
          exact hans.trans (succeeded hans.queued true)
      · cases hs
        exact hans.trans (succeeded hans.queued _)
  · split at hs
    · cases hs
      exact failed hqd _
    · cases hs
      exact succeeded hqd true
  · cases hs

end Beat

end AukiSdk.Tasks
