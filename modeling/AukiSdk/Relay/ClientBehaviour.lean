import AukiSdk.Foundation.Run
import AukiSdk.Relay.Reservation

/-!
# Generation stamping around the relay client

The wrapper around the upstream relay client carries a request's handle to later events.
-/

namespace AukiSdk.Relay

open AukiSdk.Foundation
open AukiSdk.Net

inductive NotifyHandler where
  | one (connectionId : ConnectionId)
  | any
  deriving DecidableEq

/-- `ToSwarm`; the actions that are only passed on are one. -/
inductive ToSwarm (Out In : Type) where
  | generateEvent (event : Out)
  | notifyHandler (peerId : PeerId) (handler : NotifyHandler) (event : In)
  | dial (peerId : Option PeerId) (connectionId : ConnectionId)
  | other
  deriving DecidableEq

/-- `relay_client::Event`. -/
inductive ClientEvent (Up : Type) where
  | reservationDispatched (handle : RelayReservationHandle)
  | reservationDispatchFailed (handle : RelayReservationHandle) (reason : String)
  | upstream (event : Up) (handle : Option RelayReservationHandle)
  deriving DecidableEq

structure PendingDispatch where
  handle : RelayReservationHandle
  connectionId : ConnectionId
  canceled : Bool

structure QueuedAction (Up Request : Type) where
  handle : Option RelayReservationHandle
  action : ToSwarm (ClientEvent Up) Request

/-- `relay_client::Behaviour` without the upstream one. -/
structure ClientBehaviour (Up Request : Type) where
  pendingDispatches : List PendingDispatch
  dispatchesByConnection : ConnectionId → Option RelayReservationHandle
  handlerContexts : List (Option RelayReservationHandle)
  queuedActions : List (QueuedAction Up Request)

namespace ClientBehaviour

variable {Up Request : Type}

def new : ClientBehaviour Up Request :=
  ⟨[], fun _ => none, [], []⟩

variable (behaviour : ClientBehaviour Up Request)

def pendingFor (peerId : PeerId) :
    Option PendingDispatch :=
  behaviour.pendingDispatches.find? fun pending => pending.handle.relayPeerId = peerId

def removePending (peerId : PeerId) :
    ClientBehaviour Up Request :=
  { behaviour with
    pendingDispatches :=
      behaviour.pendingDispatches.filter fun pending => pending.handle.relayPeerId ≠ peerId }

def registerDispatch (handle : RelayReservationHandle) (connectionId : ConnectionId) :
    Bool × ClientBehaviour Up Request :=
  match behaviour.pendingFor handle.relayPeerId with
  | none =>
    (true, { behaviour with
      pendingDispatches := behaviour.pendingDispatches ++ [⟨handle, connectionId, false⟩] })
  | some _ => (false, behaviour)

def hasPendingDispatch (relayPeerId : PeerId) : Bool :=
  (behaviour.pendingFor relayPeerId).isSome

def fenceDispatch (handle : RelayReservationHandle) :
    Bool × ClientBehaviour Up Request :=
  (behaviour.pendingDispatches.any fun dispatch => dispatch.handle = handle,
    { behaviour with
      pendingDispatches := behaviour.pendingDispatches.map fun dispatch =>
        if dispatch.handle = handle then { dispatch with canceled := true } else dispatch
      dispatchesByConnection := fun connectionId =>
        (behaviour.dispatchesByConnection connectionId).filter fun dispatched =>
          dispatched ≠ handle
      queuedActions := behaviour.queuedActions.filter fun queued =>
        queued.handle ≠ some handle })

def intercept :
    ToSwarm Up Request → ToSwarm (ClientEvent Up) Request × ClientBehaviour Up Request
  | .generateEvent event =>
    (.generateEvent (.upstream event (behaviour.handlerContexts.head?.join)),
      { behaviour with handlerContexts := behaviour.handlerContexts.tail })
  | .notifyHandler peerId handler event =>
    match behaviour.pendingFor peerId with
    | none => (.notifyHandler peerId handler event, behaviour)
    | some pending =>
      let behaviour := behaviour.removePending peerId
      if pending.canceled then
        (.generateEvent (.reservationDispatchFailed pending.handle
          "reservation was canceled before handler dispatch"), behaviour)
      else if handler = .one pending.connectionId then
        (.generateEvent (.reservationDispatched pending.handle),
          { behaviour with
            dispatchesByConnection := Function.update behaviour.dispatchesByConnection
              pending.connectionId (some pending.handle)
            queuedActions := behaviour.queuedActions ++ [⟨some pending.handle,
              .notifyHandler peerId (.one pending.connectionId) event⟩] })
      else
        (.generateEvent (.reservationDispatchFailed pending.handle
          "upstream selected a different direct relay connection"), behaviour)
  | .dial none connectionId => (.dial none connectionId, behaviour)
  | .dial (some peerId) connectionId =>
    match behaviour.pendingFor peerId with
    | none => (.dial (some peerId) connectionId, behaviour)
    | some pending =>
      -- The upstream behaviour is told that the dial failed.
      (.generateEvent (.reservationDispatchFailed pending.handle
          (if pending.canceled then
            "reservation was canceled before hidden relay dial dispatch"
          else
            "selected direct relay connection closed before dispatch")),
        behaviour.removePending peerId)
  | .other => (.other, behaviour)

/-- `on_swarm_event` for `ConnectionClosed`. -/
def onConnectionClosed (connectionId : ConnectionId) :
    ClientBehaviour Up Request :=
  { behaviour with
    dispatchesByConnection := Function.update behaviour.dispatchesByConnection connectionId none }

def onConnectionHandlerEvent (connectionId : ConnectionId) : ClientBehaviour Up Request :=
  { behaviour with
    handlerContexts := behaviour.handlerContexts ++
      [behaviour.dispatchesByConnection connectionId] }

/-- `poll`, with what the upstream behaviour answers if it is asked. -/
def poll (upstream : Option (ToSwarm Up Request)) :
    Option (ToSwarm (ClientEvent Up) Request) × ClientBehaviour Up Request :=
  match behaviour.queuedActions with
  | queued :: rest => (some queued.action, { behaviour with queuedActions := rest })
  | [] =>
    match upstream with
    | some action =>
      ((behaviour.intercept action).1, (behaviour.intercept action).2)
    | none => (none, behaviour)

end ClientBehaviour

/-- A handler event, and the reservation request that it answers. -/
structure HandlerEvent where
  connectionId : ConnectionId
  position : ℕ
  cause : Option RelayReservationHandle
  deriving DecidableEq

/-- What a handler is told. -/
abbrev HandlerRequest := Option RelayReservationHandle

abbrev ClientAction := ToSwarm (ClientEvent HandlerEvent) HandlerRequest

/-- What happened, in order. -/
inductive ClientLabel where
  | registered (handle : RelayReservationHandle) (connectionId : ConnectionId) (accepted : Bool)
  | fenced (handle : RelayReservationHandle) (pending : Bool)
  | closed (connectionId : ConnectionId)
  | handled (event : HandlerEvent)
  | polled (action : Option ClientAction)
  deriving DecidableEq

/-- The wrapper, what the upstream behaviour has still to say, and the trace. -/
structure ClientRun where
  behaviour : ClientBehaviour HandlerEvent HandlerRequest
  received : List HandlerEvent
  requests : List RelayReservationHandle
  trace : List ClientLabel

def ClientRun.new : ClientRun :=
  ⟨.new, [], [], []⟩

/-- What the upstream behaviour does when it is polled. -/
inductive UpstreamChoice where
  /-- Reports the first handler event it has received. -/
  | report
  /-- Answers a listen request through a handler, or by dialing the relay. -/
  | notify (handle : RelayReservationHandle) (handler : NotifyHandler)
  | dial (handle : RelayReservationHandle) (connectionId : ConnectionId)
  /-- Acts for something else. -/
  | notifyElse (peerId : PeerId) (handler : NotifyHandler)
  | dialElse (peerId : Option PeerId) (connectionId : ConnectionId)
  | other
  | pending

/-- The calls and events of the wrapper. -/
inductive ClientInput where
  | register (handle : RelayReservationHandle) (connectionId : ConnectionId)
  | fence (handle : RelayReservationHandle)
  | close (connectionId : ConnectionId)
  | handle (connectionId : ConnectionId) (cause : Option RelayReservationHandle)
  | poll (choice : UpstreamChoice)

/-- The action of a choice and the upstream behaviour after it. -/
def ClientRun.choose (run : ClientRun) : UpstreamChoice →
    Option (Option (ToSwarm HandlerEvent HandlerRequest) × List HandlerEvent ×
      List RelayReservationHandle)
  | .report =>
    match run.received with
    | [] => none
    | event :: rest => some (some (.generateEvent event), rest, run.requests)
  | .notify handle handler =>
    if handle ∈ run.requests then
      some (some (.notifyHandler handle.relayPeerId handler (some handle)), run.received,
        run.requests.filter (· ≠ handle))
    else
      none
  | .dial handle connectionId =>
    if handle ∈ run.requests then
      some (some (.dial (some handle.relayPeerId) connectionId), run.received,
        run.requests.filter (· ≠ handle))
    else
      none
  | .notifyElse peerId handler =>
    if ∃ handle ∈ run.requests, handle.relayPeerId = peerId then
      none
    else
      some (some (.notifyHandler peerId handler none), run.received, run.requests)
  | .dialElse peerId connectionId =>
    if ∃ handle ∈ run.requests, some handle.relayPeerId = peerId then
      none
    else
      some (some (.dial peerId connectionId), run.received, run.requests)
  | .other => some (some .other, run.received, run.requests)
  | .pending => some (none, run.received, run.requests)

variable (handle : RelayReservationHandle)

/-- The reserve request of a handle goes to the handler of a connection. -/
def IsForward (connectionId : ConnectionId) :
    ClientLabel → Bool
  | .polled (some (.notifyHandler _ (.one found) (some forwarded))) =>
    found = connectionId && forwarded = handle
  | _ => false

/-- The reserve request of a handle leaves the wrapper. -/
def Forwards : ClientLabel → Bool
  | .polled (some (.notifyHandler _ _ (some forwarded))) => forwarded = handle
  | _ => false

/-- The handle is dispatched, or its dispatch failed. -/
def IsOutcome : ClientLabel → Bool
  | .polled (some (.generateEvent (.reservationDispatched found))) => found = handle
  | .polled (some (.generateEvent (.reservationDispatchFailed found _))) => found = handle
  | _ => false

def IsFence : ClientLabel → Bool
  | .fenced found _ => found = handle
  | _ => false

def IsRegistration : ClientLabel → Bool
  | .registered found _ accepted => accepted && found = handle
  | _ => false

def IsClose (connectionId : ConnectionId) : ClientLabel → Bool
  | .closed found => found = connectionId
  | _ => false

/-- The event of a dispatch. -/
def dispatchLabel : ClientLabel :=
  .polled (some (.generateEvent (.reservationDispatched handle)))

variable (trace : List ClientLabel)

/-- A handle is registered for a connection and has no outcome yet. -/
def Pends (handle : RelayReservationHandle) (connectionId : ConnectionId) (canceled : Bool) :
    Prop :=
  ∃ before after, trace = before ++ ClientLabel.registered handle connectionId true :: after ∧
    after.any (IsOutcome handle) = false ∧ after.any (IsFence handle) = canceled

/-- A handle is dispatched to its open connection and not fenced since. -/
def Holds (handle : RelayReservationHandle) (connectionId : ConnectionId) : Prop :=
  ∃ before after, Pends before handle connectionId false ∧
    trace = before ++ dispatchLabel handle :: after ∧
    after.any (IsFence handle) = false ∧ after.any (IsClose connectionId) = false

/-- A handle is dispatched and not fenced, and its request has not left. -/
def Waits (handle : RelayReservationHandle) (connectionId : ConnectionId) : Prop :=
  ∃ before after, Pends before handle connectionId false ∧
    trace = before ++ dispatchLabel handle :: after ∧
    after.any (IsFence handle) = false ∧ after.any (Forwards handle) = false

/-- No connection is registered for two handles. -/
def Exclusive : Prop :=
  ∀ handle handle' connectionId,
    ClientLabel.registered handle connectionId true ∈ trace →
    ClientLabel.registered handle' connectionId true ∈ trace → handle = handle'

/-- What is promised of a run. -/
structure ClientRun.Stamped (run : ClientRun) : Prop where
  /-- A stamped event was caused while its handle held the connection. -/
  stamped : ∀ before event handle after,
    run.trace = before ++ ClientLabel.polled (some (.generateEvent
      (.upstream event (some handle)))) :: after →
    before[event.position]? = some (.handled event) ∧
      Holds (before.take event.position) handle event.connectionId
  /-- The event of one generation is not stamped with another. -/
  generation : Exclusive run.trace → ∀ event handle,
    ClientLabel.polled (some (.generateEvent (.upstream event (some handle)))) ∈ run.trace →
    ∀ cause ∈ event.cause, cause = handle
  /-- A reserve request leaves once, for the connection of its handle. -/
  forwarded : ∀ before peerId handler handle after,
    run.trace = before ++ ClientLabel.polled (some (.notifyHandler peerId handler
      (some handle))) :: after →
    ∃ connectionId, handler = .one connectionId ∧ Waits before handle connectionId
  /-- One dispatch is pending for a relay, until its request is answered. -/
  pending : (run.requests.map RelayReservationHandle.relayPeerId).Nodup ∧
    ∀ handle, handle ∈ run.requests ↔
      ∃ pending, run.behaviour.pendingFor handle.relayPeerId = some pending ∧
        pending.handle = handle
  /-- Every registration has one outcome. -/
  outcomes : ∀ handle, run.trace.countP (IsOutcome handle) +
    (if handle ∈ run.requests then 1 else 0) = run.trace.countP (IsRegistration handle)

/-- One step. -/
def ClientRun.step (run : ClientRun) : ClientInput → Option ClientRun
  | .register handle connectionId =>
    let result := run.behaviour.registerDispatch handle connectionId
    some { run with
      behaviour := result.2
      requests := if result.1 then run.requests ++ [handle] else run.requests
      trace := run.trace ++ [.registered handle connectionId result.1] }
  | .fence handle =>
    let result := run.behaviour.fenceDispatch handle
    some { run with
      behaviour := result.2
      trace := run.trace ++ [.fenced handle result.1] }
  | .close connectionId =>
    some { run with
      behaviour := run.behaviour.onConnectionClosed connectionId
      trace := run.trace ++ [.closed connectionId] }
  | .handle connectionId cause =>
    -- A handler answers only requests it was told.
    if ∀ handle ∈ cause, run.trace.any (IsForward handle connectionId) = true then
      let event := ⟨connectionId, run.trace.length, cause⟩
      some { run with
        behaviour := run.behaviour.onConnectionHandlerEvent connectionId
        received := run.received ++ [event]
        trace := run.trace ++ [.handled event] }
    else
      none
  | .poll choice =>
    match run.behaviour.queuedActions with
    | _ :: _ =>
      let result := run.behaviour.poll none
      some { run with
        behaviour := result.2
        trace := run.trace ++ [.polled result.1] }
    | [] =>
      match run.choose choice with
      | none => none
      | some (action, received, requests) =>
        let result := run.behaviour.poll action
        some ⟨result.2, received, requests, run.trace ++ [.polled result.1]⟩

end AukiSdk.Relay
