import AukiSdk.Discovery.Resolution
import AukiSdk.Foundation.Run
import AukiSdk.Routing.Catalog

/-!
# The native publisher

The task that keeps this peer's advertisement at the tracker.
-/

namespace AukiSdk.Discovery

open AukiSdk.Foundation
open AukiSdk.Net
open AukiSdk.Relay
open AukiSdk.Routing

def maxRequestBytes : ℕ := 64 * 1024

inductive DdsRequest where
  | put (routes : List Multiaddr) (protocols : List String)
  | delete
  deriving DecidableEq

/-- The register of one peer at the tracker. -/
def DdsRequest.effect : DdsRequest → Option (List Multiaddr × List String)
  | .put routes protocols => some (routes, protocols)
  | .delete => none

/-- What publication reads of its client. -/
structure DdsTrackerClient where
  otherLength : String → ℕ
  localPeerId : PeerId
  bodyLength : List Multiaddr → List String → Option ℕ

/-- `publish`, up to its request. -/
def DdsTrackerClient.publishRequest (client : DdsTrackerClient) (routes : List Multiaddr)
    (protocols : List String) : Except InvalidResponse DdsRequest := do
  let routes ← canonicalizeRoutes client.otherLength client.localPeerId routes "publish"
  if routes.isEmpty then
    .error ⟨"publish", "advertisement must contain at least one route"⟩
  else
    let protocols ← canonicalizeProtocols protocols "publish"
    match client.bodyLength routes protocols with
    | none => .error ⟨"publish", "request encoding failed"⟩
    | some length =>
      if length > maxRequestBytes then
        .error ⟨"publish", "encoded advertisement exceeds the request limit"⟩
      else
        .ok (.put routes protocols)

/-- The direct routes and both addresses of every published relay route. -/
def currentAddresses (snapshot : RouteSnapshot) : List Multiaddr :=
  snapshot.directRoutes ++
    snapshot.relayRoutes.flatMap fun relay => [relay.routes.tcp, relay.routes.wss]

/-- `native_routes`, on what the catalog's snapshot returns. -/
def nativeRoutes (snapshot : Except RouteCatalogError RouteSnapshot) :
    Except InvalidResponse (List Multiaddr) :=
  match snapshot with
  | .error _ => .error ⟨"publish", "local route snapshot is invalid"⟩
  | .ok snapshot => .ok (sortedUniqueRoutes (currentAddresses snapshot))

/-- The receiver of a watch channel. -/
structure Notifier where
  unseen : Bool
  closed : Bool
  deriving DecidableEq

inductive Changed where
  | notified | lost | pending
  deriving DecidableEq

variable (notifier : Notifier)

/-- `changed`: a new version is reported before a closed channel is. -/
def Notifier.changed : Changed :=
  if notifier.unseen then .notified else if notifier.closed then .lost else .pending

def Notifier.markSeen : Notifier := { notifier with unseen := false }

def Notifier.notify : Notifier := { notifier with unseen := true }

/-- The branches of the biased `select`, in its order. -/
inductive SelectBranch where
  | cancellation | renewal | routes | protocols | authority
  deriving DecidableEq

/-- A call of `publish_with_retry`. -/
structure Round where
  routes : List Multiaddr
  protocols : List String
  starting : Bool
  attempt : Fin 3
  deriving DecidableEq

/-- The round of the next attempt, if one is left. -/
def Round.next (round : Round) : Option Round :=
  if hnext : round.attempt.val + 1 < 3 then
    some { round with attempt := ⟨round.attempt.val + 1, hnext⟩ }
  else none

inductive Withdrawal where
  | startup | routeLoss | ending
  deriving DecidableEq

inductive PublisherPhase where
  | subscribingRoutes
  | subscribingProtocols
  | readingRoutes (starting : Bool)
  | readingProtocols (routes : List Multiaddr) (starting : Bool)
  | attempting (round : Round)
  | sent (request : DdsRequest) (round : Round)
  | backingOff (next : Round)
  | sleeping (next : Round)
  | selecting (branch : SelectBranch)
  | withdrawing (reason : Withdrawal)
  | withdrawn (reason : Withdrawal)
  | ended
  | failed
  deriving DecidableEq

/-- `start` has not returned. -/
def PublisherPhase.starting : PublisherPhase → Bool
  | .subscribingRoutes | .subscribingProtocols => true
  | .readingRoutes starting | .readingProtocols _ starting => starting
  | .attempting round | .sent _ round | .backingOff round | .sleeping round => round.starting
  | .withdrawing reason | .withdrawn reason => reason = .startup
  | .failed => true
  | .selecting _ | .ended => false

/-- The catalog's `snapshot`, changes in flight, and what happened: `requests` to `wakes`. -/
structure Publisher where
  snapshot : Except RouteCatalogError RouteSnapshot
  inFlight : ℕ
  served : List String
  stopped : Bool
  routeUpdates : Notifier
  protocolUpdates : Notifier
  authority : Notifier
  cancelled : Bool
  phase : PublisherPhase
  register : Option (List Multiaddr × List String)
  requests : List DdsRequest
  lastSucceeded : Bool
  attempts : ℕ
  wakes : ℕ

inductive RequestOutcome where
  | succeeded
  | failed (retryable : Bool)
  deriving DecidableEq

inductive PublisherAction where
  | changeRoutes (snapshot : Except RouteCatalogError RouteSnapshot)
  | notifyRoutes
  | serve (protocols : List String)
  | report (stopped : Bool)
  | loseRoutes
  | loseProtocols
  | loseAuthority
  | cancel
  | renew
  | timer
  | answer (outcome : RequestOutcome) (applied : Bool)
  | advance

namespace Publisher

/-- `NativeDdsPublisher::start` on a local state. -/
def start (snapshot : Except RouteCatalogError RouteSnapshot) (served : List String)
    (stopped : Bool) : Publisher where
  snapshot
  inFlight := 0
  served
  stopped
  routeUpdates := ⟨true, false⟩
  protocolUpdates := ⟨true, false⟩
  authority := ⟨false, false⟩
  cancelled := false
  phase := .subscribingRoutes
  register := none
  requests := []
  lastSucceeded := false
  attempts := 0
  wakes := 0

variable (state : Publisher)

/-- A failed publication: the task withdraws when it is cancelled, else waits again. -/
def giveUp (starting : Bool) : Publisher :=
  { state with phase :=
      if starting then .withdrawing .startup
      else if state.cancelled then .withdrawing .ending
      else .selecting .cancellation }

def send (request : DdsRequest) (phase : PublisherPhase) : Publisher :=
  { state with requests := state.requests ++ [request], lastSucceeded := false, phase }

/-- A select that leads to a publication. -/
def wake : Publisher :=
  { state with phase := .readingRoutes false, wakes := state.wakes + 1 }

/-- One branch of the select that is not the renewal, which is not due. -/
def poll : SelectBranch → Publisher
  | .cancellation =>
    if state.cancelled then { state with phase := .withdrawing .ending }
    else { state with phase := .selecting .renewal }
  | .renewal => { state with phase := .selecting .routes }
  | .routes =>
    match state.routeUpdates.changed with
    | .notified => { state with routeUpdates := state.routeUpdates.markSeen }.wake
    | .lost => { state with phase := .withdrawing .ending }
    | .pending => { state with phase := .selecting .protocols }
  | .protocols =>
    match state.protocolUpdates.changed with
    | .notified => { state with protocolUpdates := state.protocolUpdates.markSeen }.wake
    | .lost => { state with phase := .withdrawing .ending }
    | .pending => { state with phase := .selecting .authority }
  | .authority =>
    match state.authority.changed with
    | .notified =>
      let seen := { state with authority := state.authority.markSeen }
      if state.stopped then { seen with phase := .withdrawing .ending } else seen.wake
    | .lost => { state with phase := .withdrawing .ending }
    | .pending => { state with phase := .selecting .cancellation }

/-- The next step of the program, where it does not wait for anything. -/
def advance (client : DdsTrackerClient) (state : Publisher) : Option Publisher :=
  match state.phase with
  | .subscribingRoutes =>
    some { state with routeUpdates := state.routeUpdates.markSeen
                      phase := .subscribingProtocols }
  | .subscribingProtocols =>
    some { state with protocolUpdates := state.protocolUpdates.markSeen
                      phase := .readingRoutes true }
  | .readingRoutes starting =>
    match nativeRoutes state.snapshot with
    | .error _ =>
      some { state with phase := if starting then .failed else .selecting .cancellation }
    | .ok routes =>
      if routes.isEmpty ∧ starting = false then
        some { state with phase := .withdrawing .routeLoss }
      else
        some { state with phase := .readingProtocols routes starting }
  | .readingProtocols routes starting =>
    some { state with phase := .attempting ⟨routes, state.served, starting, 0⟩ }
  | .attempting round =>
    let attempted := { state with attempts := state.attempts + 1 }
    match client.publishRequest round.routes round.protocols with
    | .error _ => some (attempted.giveUp round.starting)
    | .ok request => some (attempted.send request (.sent request round))
  | .backingOff next =>
    if state.cancelled ∧ next.starting = false then
      some { state with phase := .withdrawing .ending }
    else
      some { state with phase := .sleeping next }
  | .sleeping next => some { state with phase := .backingOff next }
  | .selecting branch => some (state.poll branch)
  | .withdrawing reason => some (state.send .delete (.withdrawn reason))
  | .sent _ _ | .withdrawn _ | .ended | .failed => none

/-- The tracker applies a successful request, and perhaps a failed one, before it
returns. -/
def receive (request : DdsRequest) (outcome : RequestOutcome) (applied : Bool) : Publisher :=
  { state with
      register := if applied ∨ outcome = .succeeded then request.effect else state.register
      lastSucceeded := outcome = .succeeded }

def answer (outcome : RequestOutcome) (applied : Bool) :
    Option Publisher :=
  match state.phase with
  | .sent request round =>
    let received := state.receive request outcome applied
    match outcome with
    | .succeeded => some { received with phase := .selecting .cancellation }
    | .failed retryable =>
      match retryable, round.next with
      | true, some next => some { received with phase := .backingOff next }
      | _, _ => some (received.giveUp round.starting)
  | .withdrawn reason =>
    some { state.receive .delete outcome applied with
      phase := match reason with
        | .startup => .failed
        | .routeLoss => .selecting .cancellation
        | .ending => .ended }
  | _ => none

def step (client : DdsTrackerClient) (state : Publisher) : PublisherAction → Option Publisher
  | .changeRoutes snapshot => some { state with snapshot, inFlight := state.inFlight + 1 }
  | .notifyRoutes =>
    if state.inFlight = 0 ∨ state.routeUpdates.closed then none
    else some { state with inFlight := state.inFlight - 1
                           routeUpdates := state.routeUpdates.notify }
  | .serve protocols =>
    if state.protocolUpdates.closed then none
    else some { state with served := protocols
                           protocolUpdates := state.protocolUpdates.notify }
  | .report stopped =>
    -- a stop or a failed authentication is the last status
    if state.stopped ∨ state.authority.closed then none
    else some { state with stopped, authority := state.authority.notify }
  | .loseRoutes =>
    some { state with routeUpdates := { state.routeUpdates with closed := true } }
  | .loseProtocols =>
    some { state with protocolUpdates := { state.protocolUpdates with closed := true } }
  | .loseAuthority =>
    some { state with authority := { state.authority with closed := true } }
  | .cancel => if state.phase.starting then none else some { state with cancelled := true }
  | .renew => if state.phase = .selecting .renewal then some state.wake else none
  | .timer =>
    match state.phase with
    | .sleeping next => some { state with phase := .attempting next }
    | _ => none
  | .answer outcome applied => state.answer outcome applied
  | .advance => state.advance client

end Publisher

end AukiSdk.Discovery
