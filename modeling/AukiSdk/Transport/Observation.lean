import AukiSdk.Foundation.KeyedLog
import AukiSdk.Authority.Authentication
import AukiSdk.Relay.Provider

/-!
# Local authenticated-peer observations

The state behind peer observations and the events it publishes.
-/

namespace AukiSdk.Transport

open AukiSdk.Foundation
open AukiSdk.Net
open AukiSdk.Relay
open AukiSdk.Authority
open Std (ExtTreeMap)

inductive NodeFailure where
  | swarmEnded
  | expiryDriverEnded
  | listenerClosed
  | panicked
  | taskCancelled
  deriving DecidableEq

inductive NodeObservationStatus where
  | running
  | stopped
  | failed (reason : NodeFailure)
  deriving DecidableEq

inductive PeerDisappearanceReason where
  | credentialExpired
  | finalConnectionClosed
  | nodeStopped
  | nodeFailed
  deriving DecidableEq

/-- The key `(PeerId, Uuid)` of an authentication. -/
structure ObservationKey where
  peerId : PeerId
  domainId : Uuid
  deriving DecidableEq

instance : Ord ObservationKey :=
  ⟨compareLex (compareOn ObservationKey.peerId) (compareOn ObservationKey.domainId)⟩

instance : Std.TransOrd ObservationKey :=
  inferInstanceAs (Std.TransCmp
    (compareLex (compareOn ObservationKey.peerId) (compareOn ObservationKey.domainId)))

instance : Std.LawfulEqOrd ObservationKey where
  compare_self {key} := Std.ReflCmp.compare_self (a := key)
  eq_of_compare {left right} hcompare := by
    obtain ⟨hpeer, hdomain⟩ := compareLex_eq_eq.mp hcompare
    have hpeer : left.peerId = right.peerId := Std.LawfulEqCmp.eq_of_compare hpeer
    have hdomain : left.domainId = right.domainId := Std.LawfulEqCmp.eq_of_compare hdomain
    cases left
    cases right
    simp_all

structure AuthenticatedPeerObservation where
  domainId : Uuid
  peer : AuthenticatedPeer
  connectionIds : List ConnectionId
  deriving DecidableEq

/-- The record that an observation is about. -/
def AuthenticatedPeerObservation.key (observation : AuthenticatedPeerObservation) :
    ObservationKey :=
  ⟨observation.peer.peerId, observation.domainId⟩

inductive NodeObservationEvent where
  | appeared (observation : AuthenticatedPeerObservation)
  | updated (observation : AuthenticatedPeerObservation)
  | disappeared (peerId : PeerId) (domainId : Uuid) (reason : PeerDisappearanceReason)
  | statusChanged (status : NodeObservationStatus)
  deriving DecidableEq

structure NodeObservationSnapshot where
  status : NodeObservationStatus
  peers : List AuthenticatedPeerObservation

structure ObservationState where
  status : NodeObservationStatus
  connections : PeerId → Option (Finset ConnectionId)
  authentications : ExtTreeMap ObservationKey AuthenticatedPeer

namespace ObservationState

/-- The state of `NodeObservations::new`. -/
def new : ObservationState := ⟨.running, fun _ => none, ∅⟩

variable (state : ObservationState)

/-- A peer has a live connection. -/
def connected (peerId : PeerId) : Bool :=
  (state.connections peerId).any fun connections => decide connections.Nonempty

def observation (key : ObservationKey) :
    Option AuthenticatedPeerObservation := do
  let peer ← state.authentications[key]?
  let connections ← state.connections key.peerId
  let connectionIds := connections.sort (· ≤ ·)
  if connectionIds = [] then none else some ⟨key.domainId, peer, connectionIds⟩

def pruneExpired (order : List ObservationKey) (now : DateTime) :
    List NodeObservationEvent × ObservationState :=
  let expired := (KeyedLog.iterate order state.authentications).filterMap fun stored =>
    if stored.2.verifiedUntil ≤ now then some stored.1 else none
  ((expired.filter fun key => state.connected key.peerId).map fun key =>
      .disappeared key.peerId key.domainId .credentialExpired,
    { state with authentications := KeyedLog.eraseAll expired state.authentications })

def removeAuthenticationsForPeer (order : List ObservationKey) (peerId : PeerId)
    (reason : PeerDisappearanceReason) :
    List NodeObservationEvent × ObservationState :=
  let keys := (KeyedLog.iterate order state.authentications).filterMap fun stored =>
    if stored.1.peerId = peerId then some stored.1 else none
  (keys.map fun key => .disappeared peerId key.domainId reason,
    { state with authentications := KeyedLog.eraseAll keys state.authentications })

def observationsForPeer (order : List ObservationKey) (peerId : PeerId) :
    List AuthenticatedPeerObservation :=
  ((KeyedLog.iterate order state.authentications).filterMap fun stored =>
    if stored.1.peerId = peerId then state.observation stored.1 else none).insertionSort
      fun left right => left.domainId.toNat ≤ right.domainId.toNat

def currentPeers (order : List ObservationKey) :
    List AuthenticatedPeerObservation :=
  ((KeyedLog.iterate order state.authentications).filterMap fun stored =>
    state.observation stored.1).insertionSort fun left right =>
      compare left.key right.key ≠ .gt

def connectionEstablished (order : List ObservationKey) (peerId : PeerId)
    (connectionId : ConnectionId) (now : DateTime) :
    List NodeObservationEvent × ObservationState :=
  if state.status ≠ .running then
    ([], state)
  else
    let (expired, state) := state.pruneExpired order now
    let wasConnected := state.connected peerId
    let connections := (state.connections peerId).getD ∅
    let state := { state with
      connections := Function.update state.connections peerId
        (some (insert connectionId connections)) }
    if connectionId ∉ connections then
      (expired ++ (state.observationsForPeer order peerId).map fun observation =>
        if wasConnected then .updated observation else .appeared observation, state)
    else
      (expired, state)

def connectionClosed (order : List ObservationKey) (peerId : PeerId) (connectionId : ConnectionId)
    (now : DateTime) :
    List NodeObservationEvent × ObservationState :=
  if state.status ≠ .running then
    ([], state)
  else
    let (expired, state) := state.pruneExpired order now
    if (state.connections peerId).any fun connections => decide (connectionId ∈ connections) then
      let state := { state with
        connections := Function.update state.connections peerId
          ((state.connections peerId).map fun connections : Finset ConnectionId =>
            connections.erase connectionId) }
      if state.connected peerId then
        (expired ++ (state.observationsForPeer order peerId).map NodeObservationEvent.updated, state)
      else
        let state := { state with connections := Function.update state.connections peerId none }
        let (removed, state) :=
          state.removeAuthenticationsForPeer order peerId .finalConnectionClosed
        (expired ++ removed, state)
    else
      (expired, state)

def authenticated (order : List ObservationKey) (domainId : Uuid) (peer : AuthenticatedPeer)
    (now : DateTime) :
    List NodeObservationEvent × ObservationState :=
  if peer.verifiedUntil ≤ now then
    ([], state)
  else if state.status ≠ .running then
    ([], state)
  else
    let key : ObservationKey := ⟨peer.peerId, domainId⟩
    let (expired, state) := state.pruneExpired order now
    if state.connected peer.peerId then
      let wasVisible := state.authentications.contains key
      let state := { state with authentications := state.authentications.insert key peer }
      (expired ++ (state.observation key).toList.map fun observation =>
        if wasVisible then .updated observation else .appeared observation, state)
    else
      -- The authentication completed with or after the final closure.
      (expired, state)

def terminate (order : List ObservationKey) (status : NodeObservationStatus) :
    List NodeObservationEvent × ObservationState :=
  if state.status ≠ .running then
    ([], state)
  else
    let terminated (reason : PeerDisappearanceReason) :
        List NodeObservationEvent × ObservationState :=
      let visible := (KeyedLog.iterate order state.authentications).filter fun stored =>
        state.connected stored.1.peerId
      ((visible.map fun stored => .disappeared stored.1.peerId stored.1.domainId reason) ++
          [.statusChanged status],
        ⟨status, fun _ => none, ∅⟩)
    match status with
    | .running => ([], state)
    | .stopped => terminated .nodeStopped
    | .failed _ => terminated .nodeFailed

/-- `snapshot`: credentials are expired first, and published as such. -/
def snapshot (order : List ObservationKey) (now : DateTime) :
    NodeObservationSnapshot × List NodeObservationEvent × ObservationState :=
  let (events, state) := state.pruneExpired order now
  (⟨state.status, state.currentPeers order⟩, events, state)

end ObservationState

/-- The transitions; `expire` is a turn of the driver or begins a snapshot. -/
inductive ObservationInput where
  | connectionEstablished (order : List ObservationKey) (peerId : PeerId)
      (connectionId : ConnectionId) (now : DateTime)
  | connectionClosed (order : List ObservationKey) (peerId : PeerId)
      (connectionId : ConnectionId) (now : DateTime)
  | authenticated (order : List ObservationKey) (domainId : Uuid) (peer : AuthenticatedPeer)
      (now : DateTime)
  | expire (order : List ObservationKey) (now : DateTime)
  | terminate (order : List ObservationKey) (status : NodeObservationStatus)

namespace ObservationState

def handle (state : ObservationState) :
    ObservationInput → List NodeObservationEvent × ObservationState
  | .connectionEstablished order peerId connectionId now =>
    state.connectionEstablished order peerId connectionId now
  | .connectionClosed order peerId connectionId now =>
    state.connectionClosed order peerId connectionId now
  | .authenticated order domainId peer now => state.authenticated order domainId peer now
  | .expire order now => state.pruneExpired order now
  | .terminate order status => state.terminate order status

/-- The events and the state after a sequence of transitions. -/
def observe : List ObservationInput → ObservationState →
    List NodeObservationEvent × ObservationState
  | [], state => ([], state)
  | input :: inputs, state =>
    let (events, state) := state.handle input
    let (later, state) := observe inputs state
    (events ++ later, state)

end ObservationState

end AukiSdk.Transport
