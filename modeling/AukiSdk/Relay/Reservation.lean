import AukiSdk.Foundation.Word
import AukiSdk.Relay.Provider

/-!
# Generation-fenced relay reservations

The reservation state machine of one node.
-/

namespace AukiSdk.Relay

open AukiSdk.Foundation
open AukiSdk.Net
open Std (ExtTreeMap)

/-- `RelayReservationHandle`, minted only by `begin`. -/
structure RelayReservationHandle where
  nodeInstanceId : Uuid
  relayPeerId : PeerId
  generation : ℕ
  listenerId : ListenerId
  deriving DecidableEq

inductive RelayReservationState where
  | awaitingConfirmation
  | publishable
  | canceling
  deriving DecidableEq

structure RelayReservationSnapshot where
  handle : RelayReservationHandle
  state : RelayReservationState
  selectedBase : Multiaddr
  expectedLimits : ExpectedRelayLimits
  directConnection : Option ConnectionId
  publishableRoute : Option Multiaddr

structure RelayCancellation where
  handle : RelayReservationHandle
  relayPeerId : PeerId
  listenerId : ListenerId
  directConnection : Option ConnectionId
  deriving DecidableEq

inductive RelayReservationEvent where
  | evidenceRecorded (handle : RelayReservationHandle)
  | publishable (handle : RelayReservationHandle) (route : Multiaddr)
      (limits : ExpectedRelayLimits)
  | renewed (handle : RelayReservationHandle) (limits : ExpectedRelayLimits)
  | confirmationRejected (handle : RelayReservationHandle)
      (reason : RelayConfirmationRejection) (cancellation : RelayCancellation)
  | cancellationStarted (cancellation : RelayCancellation)
  | cancellationPending (cancellation : RelayCancellation)
  | closeLateConnection (handle : RelayReservationHandle) (connectionId : ConnectionId)
  | fenced (handle : RelayReservationHandle)
  | canceled (handle : RelayReservationHandle)
  deriving DecidableEq

structure ReservationEntry where
  handle : RelayReservationHandle
  provider : RelayProvider
  state : RelayReservationState
  directConnection : Option ConnectionId
  connectionTerminal : Bool
  listenerObserved : Bool
  listenerClosed : Bool
  initialAcceptanceObserved : Bool

namespace ReservationEntry

/-- The result, and the entry at the return, `none` if it is removed. -/
abbrev Outcome :=
  Except RelayReservationError RelayReservationEvent × Option ReservationEntry

def new (handle : RelayReservationHandle) (provider : RelayProvider) : ReservationEntry where
  handle := handle
  provider := provider
  state := .awaitingConfirmation
  directConnection := none
  connectionTerminal := false
  listenerObserved := false
  listenerClosed := false
  initialAcceptanceObserved := false

variable (entry : ReservationEntry)

def snapshot (localPeerId : PeerId) : RelayReservationSnapshot where
  handle := entry.handle
  state := entry.state
  selectedBase := entry.provider.selectedBase
  expectedLimits := entry.provider.expectedLimits
  directConnection := entry.directConnection
  publishableRoute :=
    if entry.state = .publishable then some (entry.provider.publishableRoute localPeerId)
    else none

def ensureListener (actual : ListenerId) :
    Except RelayReservationError Unit :=
  if entry.handle.listenerId ≠ actual then
    .error (.listenerMismatch entry.handle.listenerId actual)
  else
    .ok ()

def maybePublish (localPeerId : PeerId) :
    RelayReservationEvent × ReservationEntry :=
  if entry.initialAcceptanceObserved ∧ entry.listenerObserved ∧
      entry.state = .awaitingConfirmation then
    (.publishable entry.handle (entry.provider.publishableRoute localPeerId)
        entry.provider.expectedLimits,
      { entry with state := .publishable })
  else
    (.evidenceRecorded entry.handle, entry)

def startCanceling : ReservationEntry :=
  { entry with state := .canceling }

def cancellation : RelayCancellation where
  handle := entry.handle
  relayPeerId := entry.provider.relayPeerId
  listenerId := entry.handle.listenerId
  directConnection := entry.directConnection

def cancellationComplete : Bool :=
  entry.state = .canceling && entry.listenerClosed && entry.connectionTerminal

/-- `RelayReservationNode::observe_direct_connection` on the validated entry. -/
def observeDirectConnection (handle : RelayReservationHandle) (connectionId : ConnectionId) :
    Outcome :=
  if entry.state = .canceling then
    let entry :=
      if entry.connectionTerminal ∨ entry.directConnection = none then
        { entry with directConnection := some connectionId, connectionTerminal := false }
      else
        entry
    (.ok (.closeLateConnection handle connectionId), some entry)
  else
    match entry.directConnection with
    | none =>
      (.ok (.evidenceRecorded handle),
        some { entry with directConnection := some connectionId })
    | some expected =>
      if expected = connectionId then
        (.ok (.evidenceRecorded handle), some entry)
      else
        (.error (.connectionMismatch expected connectionId), some entry)

/-- `RelayReservationNode::observe_listener_address` on the validated entry. -/
def observeListenerAddress (handle : RelayReservationHandle) (localPeerId : PeerId)
    (listenerId : ListenerId) (_responseAddress : Multiaddr) :
    Outcome :=
  match entry.ensureListener listenerId with
  | .error error => (.error error, some entry)
  | .ok () =>
    if entry.state = .canceling then
      (.ok (.fenced handle), some entry)
    else
      let published := maybePublish { entry with listenerObserved := true } localPeerId
      (.ok published.1, some published.2)

/-- The order check of `observe_acceptance`. -/
def validateAcceptanceOrder (renewal : Bool) :
    Except RelayConfirmationRejection Unit :=
  if renewal ∧ ¬entry.initialAcceptanceObserved then
    .error .renewalBeforeInitialAcceptance
  else if ¬renewal ∧ entry.initialAcceptanceObserved then
    .error .duplicateInitialAcceptance
  else
    .ok ()

/-- `RelayReservationNode::observe_acceptance` on the validated entry. -/
def observeAcceptance (handle : RelayReservationHandle) (localPeerId : PeerId) (renewal : Bool)
    (observed : Option ObservedRelayLimits) :
    Outcome :=
  if entry.state = .canceling then
    (.ok (.fenced handle), some entry)
  else
    -- `Result::and`: the limit error wins over the order error.
    match entry.provider.expectedLimits.validateObserved observed,
        entry.validateAcceptanceOrder renewal with
    | .error reason, _ | .ok (), .error reason =>
      let entry := entry.startCanceling
      (.ok (.confirmationRejected handle reason entry.cancellation), some entry)
    | .ok (), .ok () =>
      if renewal then
        (.ok (.renewed handle entry.provider.expectedLimits), some entry)
      else
        let published :=
          maybePublish { entry with initialAcceptanceObserved := true } localPeerId
        (.ok published.1, some published.2)

/-- `RelayReservationNode::cancel` on the validated entry. -/
def cancel : Outcome :=
  if entry.state = .canceling then
    (.ok (.cancellationPending entry.cancellation), some entry)
  else
    let entry := entry.startCanceling
    (.ok (.cancellationStarted entry.cancellation), some entry)

/-- The common end of the closure reports, with their evidence. -/
def settleClosure (handle : RelayReservationHandle) (wasCanceling : Bool) : Outcome :=
  if entry.cancellationComplete then
    (.ok (.canceled handle), none)
  else if wasCanceling then
    (.ok (.fenced handle), some entry)
  else
    (.ok (.cancellationStarted entry.cancellation), some entry)

/-- `RelayReservationNode::observe_listener_closed` on the validated entry. -/
def observeListenerClosed (handle : RelayReservationHandle) (listenerId : ListenerId) : Outcome :=
  match entry.ensureListener listenerId with
  | .error error => (.error error, some entry)
  | .ok () =>
    settleClosure { entry.startCanceling with listenerClosed := true } handle
      (entry.state = .canceling)

/-- `RelayReservationNode::observe_direct_connection_closed` on the validated
entry. -/
def observeDirectConnectionClosed (handle : RelayReservationHandle) (connectionId : ConnectionId) :
    Outcome :=
  match entry.directConnection with
  | none => (.error .noDirectConnection, some entry)
  | some expected =>
    if expected ≠ connectionId then
      (.error (.connectionMismatch expected connectionId), some entry)
    else
      settleClosure { entry.startCanceling with connectionTerminal := true } handle
        (entry.state = .canceling)

/-- `RelayReservationNode::observe_no_direct_connection` on the validated
entry. -/
def observeNoDirectConnection (handle : RelayReservationHandle) : Outcome :=
  let terminal :=
    settleClosure { entry.startCanceling with connectionTerminal := true } handle
      (entry.state = .canceling)
  match entry.directConnection with
  | some connectionId =>
    if ¬entry.connectionTerminal then
      (.error (.connectionStillOpen connectionId), some entry)
    else
      terminal
  | none => terminal

end ReservationEntry

structure RelayReservationNode where
  nodeInstanceId : Uuid
  localPeerId : PeerId
  nextGeneration : ℕ
  latestGeneration : ExtTreeMap PeerId ℕ
  reservations : ExtTreeMap PeerId ReservationEntry

/-- Evidence reported for one handle. -/
inductive Observation where
  | directConnection (connectionId : ConnectionId)
  | listenerAddress (listenerId : ListenerId) (responseAddress : Multiaddr)
  | acceptance (renewal : Bool) (observed : Option ObservedRelayLimits)
  | cancel
  | listenerClosed (listenerId : ListenerId)
  | directConnectionClosed (connectionId : ConnectionId)
  | noDirectConnection
  deriving DecidableEq

/-- One call on a node. -/
inductive RelayCall where
  | begin (provider : RelayProvider) (listenerId : ListenerId)
  | observe (handle : RelayReservationHandle) (observation : Observation)

/-- What a successful call returns. -/
inductive RelayReply where
  | started (handle : RelayReservationHandle)
  | event (event : RelayReservationEvent)
  deriving DecidableEq

/-- Dispatch of an observation to the entry operation of its method. -/
def ReservationEntry.observe (entry : ReservationEntry) (handle : RelayReservationHandle)
    (localPeerId : PeerId) : Observation → ReservationEntry.Outcome
  | .directConnection connectionId => entry.observeDirectConnection handle connectionId
  | .listenerAddress listenerId responseAddress =>
    entry.observeListenerAddress handle localPeerId listenerId responseAddress
  | .acceptance renewal observed =>
    entry.observeAcceptance handle localPeerId renewal observed
  | .cancel => entry.cancel
  | .listenerClosed listenerId => entry.observeListenerClosed handle listenerId
  | .directConnectionClosed connectionId =>
    entry.observeDirectConnectionClosed handle connectionId
  | .noDirectConnection => entry.observeNoDirectConnection handle

namespace RelayReservationNode

/-- `RelayReservationNode::new` with the instance ID it drew. -/
def new (nodeInstanceId : Uuid) (localPeerId : PeerId) : RelayReservationNode where
  nodeInstanceId := nodeInstanceId
  localPeerId := localPeerId
  nextGeneration := 1
  latestGeneration := ∅
  reservations := ∅

variable (node : RelayReservationNode)

def handleForRelay (relayPeerId : PeerId) :
    Option RelayReservationHandle :=
  node.reservations[relayPeerId]?.map ReservationEntry.handle

def sourceCircuitAllowed (relayPeerId : PeerId) : Bool :=
  !node.latestGeneration.contains relayPeerId ||
    node.reservations[relayPeerId]?.any fun entry => entry.state = .publishable

def validateHandle (handle : RelayReservationHandle) :
    Except RelayReservationError Unit :=
  if handle.nodeInstanceId ≠ node.nodeInstanceId then
    .error .foreignHandle
  else
    match node.reservations[handle.relayPeerId]? with
    | some entry =>
      if entry.handle.generation = handle.generation then .ok () else .error .staleHandle
    | none =>
      if node.latestGeneration[handle.relayPeerId]?.any fun latest =>
          handle.generation ≤ latest then
        .error .staleHandle
      else
        .error .unknownHandle

def entry (node : RelayReservationNode) (handle : RelayReservationHandle) :
    Except RelayReservationError ReservationEntry :=
  match node.validateHandle handle with
  | .error error => .error error
  | .ok () =>
    match node.reservations[handle.relayPeerId]? with
    | some entry => .ok entry
    | none => .error .staleHandle

def snapshot (node : RelayReservationNode) (handle : RelayReservationHandle) :
    Except RelayReservationError RelayReservationSnapshot :=
  match node.entry handle with
  | .error error => .error error
  | .ok entry => .ok (entry.snapshot node.localPeerId)

def begin (provider : RelayProvider) (listenerId : ListenerId) :
    Except RelayReservationError RelayReservationHandle × RelayReservationNode :=
  if node.reservations.contains provider.relayPeerId then
    (.error (.reservationAlreadyExists provider.relayPeerId), node)
  else if node.reservations.toList.any fun stored =>
      stored.2.handle.listenerId = listenerId then
    (.error (.listenerAlreadyAssigned listenerId), node)
  else
    match Word.checkedAdd node.nextGeneration 1 with
    | none => (.error .generationExhausted, node)
    | some nextGeneration =>
      let handle : RelayReservationHandle :=
        ⟨node.nodeInstanceId, provider.relayPeerId, node.nextGeneration, listenerId⟩
      (.ok handle,
        { node with
          nextGeneration
          latestGeneration :=
            node.latestGeneration.insert provider.relayPeerId node.nextGeneration
          reservations :=
            node.reservations.insert provider.relayPeerId (.new handle provider) })

/-- The entry operations, with the removal of a completely canceled entry. -/
def observe (node : RelayReservationNode) (handle : RelayReservationHandle)
    (observation : Observation) :
    Except RelayReservationError RelayReservationEvent × RelayReservationNode :=
  match node.entry handle with
  | .error error => (.error error, node)
  | .ok entry =>
    let outcome := entry.observe handle node.localPeerId observation
    (outcome.1,
      { node with
        reservations :=
          match outcome.2 with
          | some entry => node.reservations.insert handle.relayPeerId entry
          | none => node.reservations.erase handle.relayPeerId })

/-- One call on the node. -/
def perform :
    RelayCall → Except RelayReservationError RelayReply × RelayReservationNode
  | .begin provider listenerId =>
    let outcome := node.begin provider listenerId
    (outcome.1.map .started, outcome.2)
  | .observe handle observation =>
    let outcome := node.observe handle observation
    (outcome.1.map .event, outcome.2)

end RelayReservationNode

end AukiSdk.Relay
