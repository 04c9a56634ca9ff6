import AukiSdk.Foundation.Run
import Mathlib

/-!
# Execution of a task lease

`TaskLease::execute_managed` as a machine over its awaits.
-/

namespace AukiSdk.Tasks

inductive LeaseError where
  | configuration (reason : String)
  | closed
  | cancelled
  | leaseLost
  | authority (reason : String)
  | authentication
  | service (operation : String)
  | httpStatus (operation : String) (status : ℕ)
  | handler
  | peerCleanup
  deriving DecidableEq

/-- What the runtime, the claim and the caller fix. -/
structure LeaseConfig (Value : Type) where
  /-- `runtime.0.peer` is configured. -/
  factory : Bool
  /-- `runtime.0.robot_peer` is configured; the lease then owns no peer. -/
  robotPeer : Bool
  optionalPeer : Bool
  /-- The length of `serde_json::to_vec`. -/
  serialized : Value → Option ℕ

variable {Value Failure Output : Type}

variable (config : LeaseConfig Value)

def LeaseConfig.ownsPeer : Bool := !config.robotPeer

/-- The peer session in the context. -/
inductive PeerSession where
  | shared
  | owned
  deriving DecidableEq

inductive Receipt (Failure Output : Type) where
  | complete (output : Output)
  | fail (failure : Option Failure)
  deriving DecidableEq

/-- What happened, oldest first. -/
inductive LeaseEvent (Value Failure Output : Type) where
  /-- `log_event` returned `Ok`. -/
  | accepted (value : Value)
  | logRefused (error : LeaseError)
  /-- A heartbeat was answered; its events are retired. -/
  | acknowledged (batch : List Value)
  /-- `heartbeat` returned `Ok`. -/
  | heartbeatAccepted
  /-- An optional peer without a grant was not started. -/
  | peerAbsent
  | peerStarted
  | peerShutDown (ok : Bool)
  | handlerStarted
  | handlerReturned (result : Except LeaseError Output)
  | dataClosed
  /-- `is_cancelled` was false before a receipt. -/
  | foundOpen
  | receipt (receipt : Receipt Failure Output)
  | returned (result : Except LeaseError Unit)

/-- The awaits of `heartbeat`. -/
inductive HeartbeatPhase (Value : Type) where
  | starting
  | sending (batch : List Value)
  | sent (batch : List Value)
  | updatingPeer
  | finished (result : Except LeaseError Unit)

/-- The awaits of `heartbeat_loop`. -/
inductive LoopPhase (Value : Type) where
  | looping
  | waiting
  | beating (heartbeat : HeartbeatPhase Value)
  | done (result : Except LeaseError Unit)

/-- What follows `finish_resources`. -/
inductive AfterCleanup (Failure Output : Type) where
  | refuse (error : LeaseError)
  | report (receipt : Receipt Failure Output)

/-- Where `execute_managed` is. -/
inductive LeasePhase (Value Failure Output : Type) where
  | startup (heartbeat : HeartbeatPhase Value)
  | startingPeer
  | awaitingPeer
  | executing (started : Bool) (loop : LoopPhase Value)
  /-- Revoked; the handler is awaited to its end. -/
  | awaitingHandler (error : LeaseError)
  | draining (result : Except LeaseError Output) (loop : LoopPhase Value)
  | checking (outcome : Except LeaseError Output)
  | flushing (outcome : Except LeaseError Output) (heartbeat : HeartbeatPhase Value)
  | closingData (next : AfterCleanup Failure Output)
  | takingPeer (next : AfterCleanup Failure Output)
  | shuttingDown (next : AfterCleanup Failure Output)
  | reporting (receipt : Receipt Failure Output)
  | sending (receipt : Receipt Failure Output)
  | returned

structure LeaseExecution (Value Failure Output : Type) where
  /-- `runtime.stopped()`. -/
  stopped : Bool
  /-- The token of the host. -/
  cancelled : Bool
  /-- `credential.closed`. -/
  closed : Bool
  /-- The report has begun, and its cancellation arm was taken. -/
  inReport : Bool
  reportCancelled : Bool
  peer : Option PeerSession
  peerGrant : Bool
  events : List Value
  failure : Option Failure
  phase : LeasePhase Value Failure Output
  trace : List (LeaseEvent Value Failure Output)

/-- What a heartbeat meets. -/
inductive HeartbeatInput where
  | snapshot
  /-- The arms of `stopped`, with `stopped_error`, and of the closed credential. -/
  | stopped (error : LeaseError)
  | closed
  | sent
  /-- No time remains, the request timed out, or DMS refused it. -/
  | lost (error : LeaseError)
  /-- Answered; the credential's update is to follow. -/
  | answered (update : Except LeaseError Bool)
  | peerUpdated (result : Except LeaseError Unit)

/-- What `heartbeat_loop` meets. -/
inductive LoopInput where
  | remaining (result : Except LeaseError Unit)
  | closed
  | stop
  /-- A change, a request of the peer, or the timer. -/
  | wake
  | peerStopped
  | heartbeat (input : HeartbeatInput)
  | joined

inductive LeaseLabel (Value Failure Output : Type) where
  | stop
  | cancel
  | revoke
  /-- `log_event`; `seen` is what it read before it took the lock. -/
  | logEvent (value : Value) (seen : Bool)
  | setFailure (failure : Failure)
  | heartbeat (input : HeartbeatInput)
  | startupCancelled
  | startPeer
  | peerInterrupted
  /-- The result of the factory, and of the checks after it. -/
  | peerStarted (result : Except LeaseError Unit) (remaining : Except LeaseError Unit)
  | startHandler
  | handlerReturned (result : Except LeaseError Output)
  | loop (input : LoopInput)
  /-- The arms of the selects around the handler, the first with `stopped_error`. -/
  | stoppedArm (error : LeaseError)
  | cancelledArm
  | loopArm
  | proceed
  | reportCancelled
  | dataClosed
  | peerShutDown (ok : Bool)
  | receiptChecked (remaining : Except LeaseError Unit)
  | receiptReturned (result : Except LeaseError Unit)

/-- The length of the serialized array. -/
def serializedEvents (events : List Value) : Option ℕ :=
  match events.mapM config.serialized with
  | none => none
  | some lengths => some (2 + lengths.sum + (events.length - 1))

/-- `log_event` under its lock. -/
def pushEvent (events : List Value) (value : Value) :
    Except LeaseError (List Value) :=
  if 1024 ≤ events.length then
    .error (.configuration "event queue exceeds 1024 entries")
  else
    match serializedEvents config events with
    | none => .error (.configuration "invalid events")
    | some bytes =>
      match config.serialized value with
      | none => .error (.configuration "invalid event")
      | some added =>
        if 64 * 1024 < bytes + added + (if events = [] then 0 else 1) then
          .error (.configuration "event queue exceeds 64 KiB")
        else .ok (events ++ [value])

namespace LeaseExecution

variable (lease : LeaseExecution Value Failure Output)

def record (events : List (LeaseEvent Value Failure Output)) :
    LeaseExecution Value Failure Output :=
  { lease with trace := lease.trace ++ events }

def goto (lease : LeaseExecution Value Failure Output)
    (phase : LeasePhase Value Failure Output) : LeaseExecution Value Failure Output :=
  { lease with phase := phase }

def revoke : LeaseExecution Value Failure Output :=
  { lease with closed := true }

variable (config : LeaseConfig Value)

def logEvent (lease : LeaseExecution Value Failure Output) (value : Value) (seen : Bool) :
    Option (LeaseExecution Value Failure Output) :=
  if seen = true then
    if lease.closed = true then some (lease.record [.logRefused .cancelled]) else none
  else
    match pushEvent config lease.events value with
    | .error error => some (lease.record [.logRefused error])
    | .ok events => some ({ lease with events := events }.record [.accepted value])

/-- The end of `heartbeat`; an error revokes. -/
def settle (result : Except LeaseError Unit) :
    LeaseExecution Value Failure Output × HeartbeatPhase Value :=
  match result with
  | .error error => (lease.revoke, .finished (.error error))
  | .ok () => (lease.record [.heartbeatAccepted], .finished (.ok ()))

/-- An arm that interrupts the operation of `heartbeat`. -/
def interrupt (ready : Bool) (error : LeaseError) :
    Option (LeaseExecution Value Failure Output × HeartbeatPhase Value) :=
  if ready = true then some (lease.settle (.error error)) else none

def heartbeat (lease : LeaseExecution Value Failure Output) :
    HeartbeatPhase Value → HeartbeatInput →
      Option (LeaseExecution Value Failure Output × HeartbeatPhase Value)
  | .starting, .snapshot => some (lease, .sending lease.events)
  | .sending batch, .sent => some (lease, .sent batch)
  | .sending _, .stopped error => lease.interrupt lease.stopped error
  | .sending _, .closed => lease.interrupt lease.closed .cancelled
  | .sent _, .stopped error => lease.interrupt lease.stopped error
  | .sent _, .closed => lease.interrupt lease.closed .cancelled
  | .updatingPeer, .stopped error => lease.interrupt lease.stopped error
  | .updatingPeer, .closed => lease.interrupt lease.closed .cancelled
  | .sending _, .lost error => some (lease.settle (.error error))
  | .sent _, .lost error => some (lease.settle (.error error))
  | .sent batch, .answered update =>
    let lease := { lease with events := lease.events.drop batch.length }.record
      [.acknowledged batch]
    match update with
    | .error error => some (lease.settle (.error error))
    | .ok issued =>
      if config.factory = true ∧ config.ownsPeer = true ∧ issued = true then
        if lease.peer.isSome = true then some (lease, .updatingPeer)
        else some ({ lease with peerGrant := true }.settle (.ok ()))
      else some (lease.settle (.ok ()))
  | .updatingPeer, .peerUpdated result =>
    match result with
    | .error error => some (lease.settle (.error error))
    | .ok () => some ({ lease with peerGrant := true }.settle (.ok ()))
  | _, _ => none

/-- `heartbeat_loop`; `stop` is its token. -/
def heartbeatLoop (lease : LeaseExecution Value Failure Output) (stop : Bool) :
    LoopPhase Value → LoopInput →
      Option (LeaseExecution Value Failure Output × LoopPhase Value)
  | .looping, .remaining (.error error) => some (lease, .done (.error error))
  | .looping, .remaining (.ok ()) => some (lease, .waiting)
  | .waiting, .closed =>
    if lease.closed = true then some (lease, .done (.error .cancelled)) else none
  | .waiting, .stop => if stop = true then some (lease, .done (.ok ())) else none
  | .waiting, .wake => if stop = true then none else some (lease, .beating .starting)
  | .waiting, .peerStopped =>
    if stop = true then none
    else some (lease, .done (.error (.authority "task peer stopped")))
  | .beating phase, .heartbeat input =>
    (lease.heartbeat config phase input).map fun next => (next.1, .beating next.2)
  | .beating (.finished (.error error)), .joined => some (lease, .done (.error error))
  | .beating (.finished (.ok ())), .joined => some (lease, .looping)
  | _, _ => none

/-- The result of `execute_managed`; the cancellation arm of the report keeps a failed
cleanup only. -/
def finish (result : Except LeaseError Unit) :
    LeaseExecution Value Failure Output :=
  let result : Except LeaseError Unit :=
    if lease.reportCancelled = true then
      match result with
      | .error .peerCleanup => .error .peerCleanup
      | _ => .error .cancelled
    else result
  (lease.goto .returned).record [.returned result]

/-- Revoke, then `finish_resources` and the error. -/
def abandon (error : LeaseError) :
    LeaseExecution Value Failure Output :=
  lease.revoke.goto (.closingData (.refuse error))

/-- The continuation of `finish_resources`. -/
def afterCleanup :
    AfterCleanup Failure Output → LeaseExecution Value Failure Output
  | .refuse error => lease.finish (.error error)
  | .report receipt => lease.goto (.reporting receipt)

/-- `start_peer` up to the factory. -/
def startPeer (lease : LeaseExecution Value Failure Output) :
    LeaseExecution Value Failure Output :=
  if config.optionalPeer = true ∧ lease.peerGrant = false ∧ config.robotPeer = false then
    (lease.goto (.executing false .looping)).record [.peerAbsent]
  else if config.factory = false then
    lease.goto (.executing false .looping)
  else if lease.peer.isSome = true then
    lease.goto (.executing false .looping)
  else if lease.peerGrant = false then
    lease.abandon (.authority "task peer access is unavailable; check provider support")
  else
    lease.goto .awaitingPeer

/-- An arm around the handler revokes; a handler that runs is awaited. -/
def leave (error : LeaseError) :
    Option (LeaseExecution Value Failure Output) :=
  match lease.phase with
  | .executing true _ => some (lease.revoke.goto (.awaitingHandler error))
  | .executing false _ => some (lease.revoke.goto (.checking (.error error)))
  | .draining _ _ => some (lease.revoke.goto (.checking (.error error)))
  | _ => none

/-- The outcome of the handler is reported, after a last flush. -/
def receiptOf :
    Except LeaseError Output → Receipt Failure Output
  | .ok output => .complete output
  | .error _ => .fail lease.failure

/-- One step of `execute_managed` or of its surroundings. -/
def step (lease : LeaseExecution Value Failure Output) (label : LeaseLabel Value Failure Output) :
    Option (LeaseExecution Value Failure Output) :=
  match label with
  | .stop => some { lease with stopped := true }
  | .cancel => some { lease with cancelled := true }
  | .revoke => some lease.revoke
  | .logEvent value seen => lease.logEvent config value seen
  | .setFailure failure => some { lease with failure := some failure }
  | .heartbeat input =>
    match lease.phase with
    | .startup phase =>
      (lease.heartbeat config phase input).map fun next => next.1.goto (.startup next.2)
    | .flushing outcome phase =>
      (lease.heartbeat config phase input).map fun next =>
        next.1.goto (.flushing outcome next.2)
    | _ => none
  | .startupCancelled =>
    match lease.phase with
    | .startup _ => if lease.cancelled = true then some (lease.abandon .cancelled) else none
    | _ => none
  | .startPeer =>
    match lease.phase with
    | .startingPeer => some (lease.startPeer config)
    | _ => none
  | .peerInterrupted =>
    match lease.phase with
    | .awaitingPeer =>
      if lease.stopped = true ∨ lease.cancelled = true then some lease.revoke else none
    | _ => none
  | .peerStarted result remaining =>
    match lease.phase with
    | .awaitingPeer =>
      match result with
      | .error error => some (lease.abandon error)
      | .ok () =>
        let started := { lease with peer := some .owned }.record [.peerStarted]
        if lease.closed = true then some (started.abandon .cancelled)
        else
          match remaining with
          | .error error => some (started.abandon error)
          | .ok () => some (started.goto (.executing false .looping))
    | _ => none
  | .startHandler =>
    match lease.phase with
    | .executing false loop => some ((lease.goto (.executing true loop)).record [.handlerStarted])
    | _ => none
  | .handlerReturned result =>
    match lease.phase with
    | .executing true loop =>
      some ((lease.goto (.draining result loop)).record [.handlerReturned result])
    | .awaitingHandler error =>
      some ((lease.goto (.checking (.error error))).record [.handlerReturned result])
    | _ => none
  | .loop input =>
    match lease.phase with
    | .executing started loop =>
      (lease.heartbeatLoop config false loop input).map fun next =>
        next.1.goto (.executing started next.2)
    | .draining result loop =>
      (lease.heartbeatLoop config true loop input).map fun next =>
        next.1.goto (.draining result next.2)
    | _ => none
  | .stoppedArm error =>
    if lease.stopped = true then lease.leave error else none
  | .cancelledArm =>
    if lease.cancelled = true then lease.leave .cancelled else none
  | .loopArm =>
    match lease.phase with
    | .executing _ (.done (.error error)) => lease.leave error
    | .executing _ (.done (.ok ())) => lease.leave .leaseLost
    | _ => none
  | .proceed =>
    match lease.phase with
    | .startup (.finished (.ok ())) => some (lease.goto .startingPeer)
    | .startup (.finished (.error error)) => some (lease.abandon error)
    | .draining result (.done (.ok ())) => some (lease.goto (.checking result))
    | .draining _ (.done (.error error)) =>
      some (lease.revoke.goto (.checking (.error error)))
    | .checking outcome =>
      if lease.closed = true then
        some (lease.goto (.closingData (.refuse
          (match outcome with
            | .error error => error
            | .ok _ => .cancelled))))
      else some { lease.goto (.flushing outcome .starting) with inReport := true }
    | .flushing outcome (.finished (.ok ())) =>
      some (lease.goto (.closingData (.report (lease.receiptOf outcome))))
    | .flushing _ (.finished (.error error)) =>
      some (lease.goto (.closingData (.refuse error)))
    | .takingPeer next =>
      match lease.peer with
      | some .owned => some ({ lease with peer := none }.goto (.shuttingDown next))
      | _ => some ({ lease with peer := none }.afterCleanup next)
    | _ => none
  | .reportCancelled =>
    if lease.inReport = true ∧ lease.cancelled = true then
      some { lease.revoke with reportCancelled := true }
    else none
  | .dataClosed =>
    match lease.phase with
    | .closingData next => some ((lease.goto (.takingPeer next)).record [.dataClosed])
    | _ => none
  | .peerShutDown ok =>
    match lease.phase with
    | .shuttingDown next =>
      let down := lease.record [.peerShutDown ok]
      if ok = true then some (down.afterCleanup next)
      else some (down.finish (.error .peerCleanup))
    | _ => none
  | .receiptChecked remaining =>
    match lease.phase with
    | .reporting receipt =>
      if lease.closed = true then some (lease.finish (.error .cancelled))
      else
        match remaining with
        | .error error => some ((lease.record [.foundOpen]).finish (.error error))
        | .ok () =>
          some ((lease.goto (.sending receipt)).record [.foundOpen, .receipt receipt])
    | _ => none
  | .receiptReturned result =>
    match lease.phase with
    | .sending receipt =>
      match result, receipt with
      | .error error, _ => some (lease.finish (.error error))
      | .ok (), .complete _ => some (lease.finish (.ok ()))
      | .ok (), .fail _ => some (lease.finish (.error .handler))
    | _ => none

/-- A claimed lease. -/
def new (config : LeaseConfig Value) (session grant : Bool) :
    LeaseExecution Value Failure Output where
  stopped := false
  cancelled := false
  closed := false
  inReport := false
  reportCancelled := false
  peer := if config.robotPeer = true ∧ session = true then some .shared else none
  peerGrant := config.factory && config.ownsPeer && grant
  events := []
  failure := none
  phase := .startup .starting
  trace := []

end LeaseExecution

end AukiSdk.Tasks
