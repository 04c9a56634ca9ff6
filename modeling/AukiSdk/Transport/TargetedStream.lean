import AukiSdk.Foundation.FiniteMap
import AukiSdk.Foundation.Transition
import AukiSdk.Foundation.Word
import AukiSdk.Relay.Provider

/-!
# Streams on a selected connection

The behaviour that opens outbound streams on one exact connection.
-/

namespace AukiSdk.Transport

open AukiSdk.Foundation
open AukiSdk.Net
open AukiSdk.Relay
open Std (ExtTreeMap)

def commandCapacity : ℕ := 64
def relayTimeoutThreshold : ℕ := 3
def relayTimeoutWindow : Duration := Duration.fromSecs 20
def relayTimeoutIdleReset : Duration := Duration.fromSecs 60

/-- `source_admission::PROTOCOL`. -/
def sourceAdmissionProtocol : String := "/auki-p2p/relay-auth/1"

structure RelayProgress where
  lastSuccess : Option Instant
  firstTimeout : Option Instant
  lastTimeout : Option Instant
  timeouts : ℕ
  closing : Bool
  deriving DecidableEq

namespace RelayProgress

def default : RelayProgress := ⟨none, none, none, 0, false⟩

def succeeded (progress : RelayProgress) (now : Instant) : RelayProgress :=
  { progress with
    lastSuccess := some now
    firstTimeout := none
    lastTimeout := none
    timeouts := 0 }

/-- `RelayProgress::timed_out`; `timeouts` is a saturating `u8`. -/
def timedOut (progress : RelayProgress) (started now : Instant) : Bool × RelayProgress :=
  if progress.closing ∨ progress.lastSuccess.any (fun success => decide (started ≤ success)) then
    (false, progress)
  else
    let progress :=
      if progress.lastTimeout.any fun last =>
          decide (Instant.durationSince now last > relayTimeoutIdleReset) then
        { progress with firstTimeout := none, timeouts := 0 }
      else
        progress
    let first := progress.firstTimeout.getD now
    let progress : RelayProgress := { progress with
      lastTimeout := some now
      timeouts := min (progress.timeouts + 1) 255
      firstTimeout := some first }
    if progress.timeouts ≥ relayTimeoutThreshold ∧
        Instant.durationSince now first ≥ relayTimeoutWindow then
      (true, { progress with closing := true })
    else
      (false, progress)

end RelayProgress

abbrev RequestId := ℕ

inductive TargetedStreamError where
  | selectedConnectionClosed (peerId : String) (connectionId : ConnectionId)
  | selectedConnectionPeerMismatch (expectedPeerId actualPeerId : String)
      (connectionId : ConnectionId)
  | handlerRouteMismatch (expectedPeerId : String) (expectedConnectionId : ConnectionId)
      (actualPeerId : String) (actualConnectionId : ConnectionId)
  | negotiationTimeout (peerId : String) (connectionId : ConnectionId) (protocol : String)
  | unsupportedProtocol (peerId : String) (connectionId : ConnectionId) (protocol : String)
  | io (peerId : String) (connectionId : ConnectionId) (protocol reason : String)
  deriving DecidableEq

inductive HandlerFailure where
  | timeout
  | unsupportedProtocol
  | io (reason : String)
  deriving DecidableEq

/-- `OpenCommand`; its reply channel is named by the request id. -/
structure OpenCommand where
  requestId : RequestId
  peerId : PeerId
  connectionId : ConnectionId
  protocol : String
  deriving DecidableEq

structure PendingOpen where
  peerId : PeerId
  connectionId : ConnectionId
  protocol : String
  started : Instant
  deriving DecidableEq

/-- The actions of `poll`. -/
inductive SwarmAction where
  | closeConnection (peerId : PeerId) (connectionId : ConnectionId)
  | notifyHandler (peerId : PeerId) (connectionId : ConnectionId) (requestId : RequestId)
      (protocol : String)
  deriving DecidableEq

/-- A reply to a request; the negotiated stream is opaque. -/
abbrev StreamReply (Stream : Type) := RequestId × Except TargetedStreamError Stream

/-- The request id taken, the replies sent, and the action for the swarm. -/
structure StreamEffects (Stream : Type) where
  taken : Option RequestId
  replies : List (StreamReply Stream)
  action : Option SwarmAction

namespace StreamEffects

variable {Stream : Type}

def none : StreamEffects Stream := ⟨.none, [], .none⟩

def reply (requestId : RequestId) (result : Except TargetedStreamError Stream) :
    StreamEffects Stream :=
  ⟨.none, [(requestId, result)], .none⟩

def act (action : SwarmAction) : StreamEffects Stream := ⟨.none, [], some action⟩

end StreamEffects

/-- `TargetedStreamBehaviour`, with the calls that wait for the command channel. -/
structure TargetedStreamBehaviour where
  nextRequestId : ℕ
  waiting : List OpenCommand
  commands : List OpenCommand
  connections : ConnectionId → Option PeerId
  pending : ExtTreeMap RequestId PendingOpen
  relayRecovery : Bool
  relayProgress : ConnectionId → Option RelayProgress
  pendingCloses : List (PeerId × ConnectionId)

/-- The inputs; a poll finds canceled reply channels and reads the clock. -/
inductive StreamEvent (Stream : Type) where
  | openStream (peerId : PeerId) (connectionId : ConnectionId) (protocol : String)
  | send (requestId : RequestId)
  | abandon (requestId : RequestId)
  | connectionEstablished (peerId : PeerId) (connectionId : ConnectionId)
  | connectionClosed (connectionId : ConnectionId)
  | handlerEvent (peerId : PeerId) (connectionId : ConnectionId) (requestId : RequestId)
      (result : Except HandlerFailure Stream) (now : Instant)
  | poll (canceled : RequestId → Bool) (now : Instant)

namespace TargetedStreamBehaviour

variable {Stream : Type}

/-- `TargetedStreamBehaviour::new` and `with_relay_recovery`. -/
def new (relayRecovery : Bool) : TargetedStreamBehaviour :=
  ⟨1, [], [], fun _ => none, ∅, relayRecovery, fun _ => none, []⟩

variable (behaviour : TargetedStreamBehaviour)

/-- `open_stream` up to its send. -/
def openStream (peerId : PeerId) (connectionId : ConnectionId) (protocol : String) :
    StreamEffects Stream × TargetedStreamBehaviour :=
  match Word.checkedAdd behaviour.nextRequestId 1 with
  | none => (.none, behaviour)
  | some next =>
    (⟨some behaviour.nextRequestId, [], none⟩,
      { behaviour with
        nextRequestId := next
        waiting := behaviour.waiting ++
          [⟨behaviour.nextRequestId, peerId, connectionId, protocol⟩] })

/-- The channel takes a waiting command while it has room. -/
def send (requestId : RequestId) :
    TargetedStreamBehaviour :=
  if behaviour.commands.length < commandCapacity then
    { behaviour with
      waiting := behaviour.waiting.filter fun command => command.requestId ≠ requestId
      commands := behaviour.commands ++
        behaviour.waiting.filter fun command => command.requestId = requestId }
  else
    behaviour

/-- The `open_stream` call is dropped before its send. -/
def abandon (requestId : RequestId) :
    TargetedStreamBehaviour :=
  { behaviour with
    waiting := behaviour.waiting.filter fun command => command.requestId ≠ requestId }

/-- `handle_open` of a command that was taken from the channel. -/
def handleOpen (command : OpenCommand) (canceled : Bool) (now : Instant) :
    StreamEffects Stream × TargetedStreamBehaviour :=
  let selected := (behaviour.connections command.connectionId).filter fun _ =>
    !(behaviour.relayProgress command.connectionId).any RelayProgress.closing
  if canceled then
    (.none, behaviour)
  else
    match selected with
    | none =>
      (.reply command.requestId (.error (.selectedConnectionClosed command.peerId.toText
        command.connectionId)), behaviour)
    | some actualPeerId =>
      if actualPeerId ≠ command.peerId then
        (.reply command.requestId (.error (.selectedConnectionPeerMismatch
          command.peerId.toText actualPeerId.toText command.connectionId)), behaviour)
      else
        (.act (.notifyHandler command.peerId command.connectionId command.requestId
          command.protocol),
          { behaviour with
            pending := behaviour.pending.insert command.requestId
              ⟨command.peerId, command.connectionId, command.protocol, now⟩ })

/-- The command loop of `poll`. -/
def drain (canceled : RequestId → Bool) (now : Instant) :
    List OpenCommand → TargetedStreamBehaviour →
      StreamEffects Stream × TargetedStreamBehaviour
  | [], behaviour => (.none, behaviour)
  | command :: rest, behaviour =>
    let (effects, behaviour) := { behaviour with commands := rest }.handleOpen command
      (canceled command.requestId) now
    match effects.action with
    | some _ => (effects, behaviour)
    | none =>
      let (later, behaviour) := drain canceled now rest behaviour
      (⟨none, effects.replies ++ later.replies, later.action⟩, behaviour)

def poll (canceled : RequestId → Bool) (now : Instant) :
    StreamEffects Stream × TargetedStreamBehaviour :=
  match behaviour.pendingCloses with
  | (peerId, connectionId) :: rest =>
    (.act (.closeConnection peerId connectionId),
      { behaviour with pendingCloses := rest })
  | [] => drain canceled now behaviour.commands behaviour

def connectionEstablished (peerId : PeerId) (connectionId : ConnectionId) :
    TargetedStreamBehaviour :=
  { behaviour with
    connections := Function.update behaviour.connections connectionId (some peerId) }

def connectionClosed (connectionId : ConnectionId) :
    StreamEffects Stream × TargetedStreamBehaviour :=
  let failed := behaviour.pending.toList.filter fun stored =>
    stored.2.connectionId = connectionId
  (⟨none, failed.map fun stored => (stored.1,
      .error (.selectedConnectionClosed stored.2.peerId.toText connectionId)), none⟩,
    { behaviour with
      connections := Function.update behaviour.connections connectionId none
      relayProgress := Function.update behaviour.relayProgress connectionId none
      pendingCloses := behaviour.pendingCloses.filter fun queued => queued.2 ≠ connectionId
      pending := behaviour.pending.filter fun _ pending =>
        pending.connectionId ≠ connectionId })

/-- The relay bookkeeping of `on_connection_handler_event`. -/
def recordProgress (pending : PendingOpen) (result : Except HandlerFailure Stream) (now : Instant) :
    TargetedStreamBehaviour :=
  let progress := (behaviour.relayProgress pending.connectionId).getD RelayProgress.default
  match result with
  | .ok _ =>
    { behaviour with
      relayProgress := Function.update behaviour.relayProgress pending.connectionId
        (some (progress.succeeded now)) }
  | .error .timeout =>
    if pending.protocol = sourceAdmissionProtocol then
      let (stalled, progress) := progress.timedOut pending.started now
      { behaviour with
        relayProgress := Function.update behaviour.relayProgress pending.connectionId
          (some progress)
        pendingCloses := if stalled then
            behaviour.pendingCloses ++ [(pending.peerId, pending.connectionId)]
          else
            behaviour.pendingCloses }
    else
      behaviour
  | .error _ => behaviour

/-- The reply of `on_connection_handler_event` on the selected route. -/
def handlerReply (pending : PendingOpen) :
    Except HandlerFailure Stream → Except TargetedStreamError Stream
  | .ok stream => .ok stream
  | .error .timeout =>
    .error (.negotiationTimeout pending.peerId.toText pending.connectionId pending.protocol)
  | .error .unsupportedProtocol =>
    .error (.unsupportedProtocol pending.peerId.toText pending.connectionId
      pending.protocol)
  | .error (.io reason) =>
    .error (.io pending.peerId.toText pending.connectionId pending.protocol reason)

def onConnectionHandlerEvent (peerId : PeerId) (connectionId : ConnectionId) (requestId : RequestId)
    (result : Except HandlerFailure Stream) (now : Instant) :
    StreamEffects Stream × TargetedStreamBehaviour :=
  match behaviour.pending[requestId]? with
  -- A late handler event after connection closure is fenced.
  | none => (.none, behaviour)
  | some pending =>
    let behaviour := { behaviour with pending := behaviour.pending.erase requestId }
    if pending.peerId ≠ peerId ∨ pending.connectionId ≠ connectionId then
      (.reply requestId (.error (.handlerRouteMismatch pending.peerId.toText
        pending.connectionId peerId.toText connectionId)), behaviour)
    else
      (.reply requestId (handlerReply pending result),
        if behaviour.relayRecovery then behaviour.recordProgress pending result now
        else behaviour)

/-- One input of the behaviour. -/
def handle :
    StreamEvent Stream → StreamEffects Stream × TargetedStreamBehaviour
  | .openStream peerId connectionId protocol =>
    behaviour.openStream peerId connectionId protocol
  | .send requestId => (.none, behaviour.send requestId)
  | .abandon requestId => (.none, behaviour.abandon requestId)
  | .connectionEstablished peerId connectionId =>
    (.none, behaviour.connectionEstablished peerId connectionId)
  | .connectionClosed connectionId => behaviour.connectionClosed connectionId
  | .handlerEvent peerId connectionId requestId result now =>
    behaviour.onConnectionHandlerEvent peerId connectionId requestId result now
  | .poll canceled now => behaviour.poll canceled now

end TargetedStreamBehaviour

end AukiSdk.Transport
