import AukiSdk.Foundation.FiniteMap
import AukiSdk.Foundation.Word
import AukiSdk.Routing.CircuitRoute

/-!
# The route catalog

The locked sections of the route catalog.
-/

namespace AukiSdk.Routing

open AukiSdk.Foundation
open AukiSdk.Net
open AukiSdk.Relay
open Std (ExtTreeMap)

scoped instance transOrdUuid : Std.TransOrd Uuid := inferInstance

structure RouteFence where
  routeId : Uuid
  authorityId : Uuid
  authorityEpoch : Uuid
  localGeneration : ℕ
  deriving DecidableEq

structure ConfirmedRoute where
  fence : RouteFence
  relayPeerId : PeerId
  routes : RelayCircuitRoutes
  limits : ExpectedRelayLimits
  authorizedUntil : DateTime

structure PublishedRoute where
  fence : RouteFence
  relayPeerId : PeerId
  routes : RelayCircuitRoutes
  limits : ExpectedRelayLimits
  authorizedUntil : DateTime
  deriving DecidableEq

structure RouteSnapshot where
  revision : ℕ
  directRoutes : List Multiaddr
  relayRoutes : List PublishedRoute
  deriving DecidableEq

structure RouteCatalogStatus where
  revision : ℕ
  directRouteCount : ℕ
  confirmedRelayCount : ℕ
  deriving DecidableEq

structure RouteCatalogLimits where
  maximumRoutes : ℕ
  maximumRelayRoutes : ℕ

structure StoredRelayRoute where
  fence : RouteFence
  relayPeerId : PeerId
  endpoints : String × String
  routes : RelayCircuitRoutes
  limits : ExpectedRelayLimits
  authorizedUntil : DateTime
  publishable : Bool
  deriving DecidableEq

/-- The withdrawal of an authorization. -/
def StoredRelayRoute.withdraw (route : StoredRelayRoute) : StoredRelayRoute :=
  { route with publishable := false }

/-- The authorization of a published route has lapsed. -/
def StoredRelayRoute.isExpired (now : DateTime) (route : StoredRelayRoute) : Bool :=
  route.publishable && route.authorizedUntil ≤ now

/-- The route is published and authorized. -/
def StoredRelayRoute.isConfirmed (now : DateTime) (route : StoredRelayRoute) : Bool :=
  route.publishable && now < route.authorizedUntil

def StoredRelayRoute.published (route : StoredRelayRoute) : PublishedRoute where
  fence := route.fence
  relayPeerId := route.relayPeerId
  routes := route.routes
  limits := route.limits
  authorizedUntil := route.authorizedUntil

/-- Some endpoint of one pair is in the other. -/
def endpointsOverlap (left right : String × String) : Bool :=
  [left.1, left.2].any fun endpoint => endpoint ∈ [right.1, right.2]

structure RouteState where
  directRoutes : List Multiaddr
  relayRoutes : ExtTreeMap Uuid StoredRelayRoute
  revision : ℕ

/-- The immutable part of `RouteCatalogInner`. -/
structure RouteCatalogConfig where
  localPeerId : PeerId
  limits : RouteCatalogLimits

/-- What an operation leaves behind with the lock. -/
structure Locked (α : Type) where
  result : Except RouteCatalogError α
  state : RouteState
  status : Option RouteCatalogStatus

namespace RouteState

variable (state : RouteState)

/-- Values in key order. -/
def values : List StoredRelayRoute :=
  state.relayRoutes.toList.map Prod.snd

def publishableRelayCount (now : DateTime) : ℕ :=
  FiniteMap.count (StoredRelayRoute.isConfirmed now) state.relayRoutes

/-- Number of entries flagged publishable. -/
def flaggedCount : ℕ :=
  FiniteMap.count StoredRelayRoute.publishable state.relayRoutes

def routeStatus (now : DateTime) : RouteCatalogStatus where
  revision := state.revision
  directRouteCount := state.directRoutes.length
  confirmedRelayCount := state.publishableRelayCount now

def routeSnapshot (now : DateTime) : RouteSnapshot where
  revision := state.revision
  directRoutes := state.directRoutes
  relayRoutes :=
    (state.values.filter (StoredRelayRoute.isConfirmed now)).map StoredRelayRoute.published

def advanceRevision (count : ℕ) : Except RouteCatalogError RouteState :=
  match Word.checkedAdd state.revision count with
  | some revision => .ok { state with revision }
  | none => .error .revisionExhausted

def bumpRevision : Except RouteCatalogError RouteState :=
  state.advanceRevision 1

/-- `expire_authorizations`: a failure leaves the state as it was. -/
def expireAuthorizations (now : DateTime) :
    Except RouteCatalogError RouteState :=
  let expired := (state.values.filter (StoredRelayRoute.isExpired now)).map
    fun route => route.fence.routeId
  match state.advanceRevision expired.length with
  | .error error => .error error
  | .ok advanced =>
    .ok { advanced with
      relayRoutes := expired.foldl
        (fun routes routeId => routes.modify routeId StoredRelayRoute.withdraw)
        advanced.relayRoutes }

def refuse {α : Type} (error : RouteCatalogError) : Locked α :=
  ⟨.error error, state, none⟩

/-- A return that sends the status computed under the lock. -/
def finish {α : Type} (now : DateTime) (value : α) : Locked α :=
  ⟨.ok value, state, some (state.routeStatus now)⟩

/-- Every locked section starts by expiring lapsed authorizations. -/
def locked {α : Type} (now : DateTime) (body : RouteState → Locked α) : Locked α :=
  match state.expireAuthorizations now with
  | .error error => state.refuse error
  | .ok expired => body expired

variable (config : RouteCatalogConfig)

def replaceDirectRoutes (directRoutes : List Multiaddr) (now : DateTime) (state : RouteState) :
    Locked ℕ :=
  match validateAndSortDirectRoutes directRoutes config.localPeerId
      config.limits.maximumRoutes with
  | .error error => state.refuse error
  | .ok directRoutes =>
    state.locked now fun state =>
      if state.directRoutes = directRoutes then
        ⟨.ok state.revision, state, none⟩
      else if directRoutes.length + state.publishableRelayCount now >
          config.limits.maximumRoutes then
        state.refuse (.routeLimitExceeded config.limits.maximumRoutes)
      else
        match state.bumpRevision with
        | .error error => state.refuse error
        | .ok bumped =>
          let next := { bumped with directRoutes }
          next.finish now next.revision

/-- The slot check of `publish_confirmed`. -/
def checkSlot (route : StoredRelayRoute) (state : RouteState) :
    Except RouteCatalogError Unit :=
  match state.relayRoutes[route.fence.routeId]? with
  | some existing =>
    if existing.fence ≠ route.fence ∨ existing.relayPeerId ≠ route.relayPeerId ∨
        existing.endpoints ≠ route.endpoints ∨ existing.routes ≠ route.routes ∨
        existing.limits ≠ route.limits then
      .error .relaySlotOccupied
    else
      .ok ()
  | none =>
    if state.relayRoutes.size ≥ config.limits.maximumRelayRoutes then
      .error (.circuitRouteLimitExceeded config.limits.maximumRelayRoutes)
    else if state.relayRoutes.toList.any fun stored =>
        stored.2.relayPeerId = route.relayPeerId ||
          endpointsOverlap stored.2.endpoints route.endpoints then
      .error .duplicateRelayRoute
    else
      .ok ()

/-- The locked section of `publish_confirmed`, for the validated route. -/
def storeConfirmed (route : StoredRelayRoute) (now : DateTime) (state : RouteState) : Locked ℕ :=
  match state.checkSlot config route with
  | .error error => state.refuse error
  | .ok () =>
    let alreadyPublishable :=
      state.relayRoutes[route.fence.routeId]?.any StoredRelayRoute.publishable
    if ¬alreadyPublishable ∧
        state.directRoutes.length + state.publishableRelayCount now + 1 >
          config.limits.maximumRoutes then
      state.refuse (.routeLimitExceeded config.limits.maximumRoutes)
    else
      match if alreadyPublishable then .ok state else state.bumpRevision with
      | .error error => state.refuse error
      | .ok bumped =>
        let next := { bumped with
          relayRoutes := bumped.relayRoutes.insert route.fence.routeId route }
        next.finish now next.revision

def publishConfirmed (route : ConfirmedRoute) (now : DateTime) (state : RouteState) : Locked ℕ :=
  if route.fence.localGeneration = 0 then
    state.refuse (.invalidRelayRoute "local generation must be positive")
  else
    match validateCircuitRoute route.routes.tcp route.relayPeerId config.localPeerId with
    | .error error => state.refuse error
    | .ok (relayPeerId, tcpEndpoint) =>
      match validateWssCircuitRoute route.routes.wss route.relayPeerId
          config.localPeerId with
      | .error error => state.refuse error
      | .ok wssEndpoint =>
        if route.authorizedUntil ≤ now then
          state.refuse .relayAuthorizationExpired
        else
          state.locked now (storeConfirmed config
            { fence := route.fence
              relayPeerId
              endpoints := (tcpEndpoint, wssEndpoint)
              routes := route.routes
              limits := route.limits
              authorizedUntil := route.authorizedUntil
              publishable := true } now)

def refreshAuthorization (fence : RouteFence) (authorizedUntil now : DateTime)
    (state : RouteState) : Locked ℕ :=
  state.locked now fun state =>
    match state.relayRoutes[fence.routeId]? with
    | none => state.refuse .routeNotFound
    | some entry =>
      if entry.fence ≠ fence then
        state.refuse .staleRouteFence
      else
        let shouldPublish := decide (now < authorizedUntil)
        let changedPublishability := decide (entry.publishable ≠ shouldPublish)
        if shouldPublish ∧ changedPublishability ∧
            state.directRoutes.length + state.publishableRelayCount now + 1 >
              config.limits.maximumRoutes then
          state.refuse (.routeLimitExceeded config.limits.maximumRoutes)
        else
          match if changedPublishability then state.bumpRevision else .ok state with
          | .error error => state.refuse error
          | .ok bumped =>
            let next := { bumped with
              relayRoutes := bumped.relayRoutes.modify fence.routeId fun entry =>
                { entry with authorizedUntil, publishable := shouldPublish } }
            next.finish now next.revision

def tombstone (fence : RouteFence) (now : DateTime) (state : RouteState) : Locked Unit :=
  state.locked now fun state =>
    match state.relayRoutes[fence.routeId]? with
    | none => state.refuse .routeNotFound
    | some existing =>
      if existing.fence ≠ fence then
        state.refuse .staleRouteFence
      else
        match if existing.publishable then state.bumpRevision else .ok state with
        | .error error => state.refuse error
        | .ok bumped =>
          let next := { bumped with
            relayRoutes := bumped.relayRoutes.erase fence.routeId }
          next.finish now ()

def tombstoneAll (now : DateTime) (state : RouteState) : Locked (List RouteFence) :=
  state.locked now fun state =>
    match state.advanceRevision state.flaggedCount with
    | .error error => state.refuse error
    | .ok advanced =>
      { advanced with relayRoutes := ∅ }.finish now
        (advanced.values.map StoredRelayRoute.fence)

def snapshot (now : DateTime) (state : RouteState) : Locked RouteSnapshot :=
  state.locked now fun state => state.finish now (state.routeSnapshot now)

/-- `RouteCatalog::commit_if_current`: the snapshot handed to the callback. -/
def commitIfCurrent (expectedRevision : ℕ) (expectedFences : List RouteFence)
    (now : DateTime) (state : RouteState) : Locked (Option RouteSnapshot) :=
  state.locked now fun state =>
    let current := state.revision = expectedRevision ∧
      ∀ fence ∈ expectedFences, state.relayRoutes[fence.routeId]?.any fun route =>
        route.fence = fence && route.isConfirmed now
    if current then
      ⟨.ok (some (state.routeSnapshot now)), state, none⟩
    else
      ⟨.ok none, state, none⟩

end RouteState

/-- The operations on a catalog. -/
inductive RouteCall where
  | replaceDirectRoutes (directRoutes : List Multiaddr)
  | publishConfirmed (route : ConfirmedRoute)
  | refreshAuthorization (fence : RouteFence) (authorizedUntil : DateTime)
  | tombstone (fence : RouteFence)
  | tombstoneAll
  | snapshot
  | commitIfCurrent (expectedRevision : ℕ) (expectedFences : List RouteFence)

/-- What a successful operation returns. -/
inductive RouteReply where
  | revision (revision : ℕ)
  | done
  | fences (fences : List RouteFence)
  | snapshot (snapshot : RouteSnapshot)
  | committed (snapshot : Option RouteSnapshot)

def Locked.map {α β : Type} (f : α → β) (locked : Locked α) : Locked β :=
  ⟨locked.result.map f, locked.state, locked.status⟩

/-- One operation, with the clock reading it took before the lock. -/
def RouteState.perform (config : RouteCatalogConfig) (now : DateTime) (state : RouteState) :
    RouteCall → Locked RouteReply
  | .replaceDirectRoutes directRoutes =>
    (state.replaceDirectRoutes config directRoutes now).map .revision
  | .publishConfirmed route => (state.publishConfirmed config route now).map .revision
  | .refreshAuthorization fence authorizedUntil =>
    (state.refreshAuthorization config fence authorizedUntil now).map .revision
  | .tombstone fence => (state.tombstone fence now).map fun _ => .done
  | .tombstoneAll => (state.tombstoneAll now).map .fences
  | .snapshot => (state.snapshot now).map .snapshot
  | .commitIfCurrent expectedRevision expectedFences =>
    (state.commitIfCurrent expectedRevision expectedFences now).map .committed

/-- `RouteCatalog::new`: the state under the lock. -/
def RouteState.new (config : RouteCatalogConfig) (directRoutes : List Multiaddr) :
    Except RouteCatalogError RouteState :=
  match validateAndSortDirectRoutes directRoutes config.localPeerId
      config.limits.maximumRoutes with
  | .error error => .error error
  | .ok directRoutes =>
    .ok ⟨directRoutes, ∅, if directRoutes.isEmpty then 0 else 1⟩

end AukiSdk.Routing
