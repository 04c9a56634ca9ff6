import AukiSdk.Routing.CatalogInvariant

/-!
# The coordinator's fence around the route catalog

The registry calls of one relay coordinator.
-/

namespace AukiSdk.Coordinator

open AukiSdk.Foundation
open AukiSdk.Net
open AukiSdk.Relay
open AukiSdk.Routing

structure LocalRelayFence where
  slotId : Uuid
  assignmentId : Uuid
  reservationEpoch : Uuid
  localGeneration : ℕ
  deriving DecidableEq

def routeFence (fence : LocalRelayFence) : RouteFence where
  routeId := fence.slotId
  authorityId := fence.assignmentId
  authorityEpoch := fence.reservationEpoch
  localGeneration := fence.localGeneration

theorem routeFence_injective : Function.Injective routeFence := by
  intro left right heq
  obtain ⟨slotId, assignmentId, reservationEpoch, localGeneration⟩ := left
  obtain ⟨slotId', assignmentId', reservationEpoch', localGeneration'⟩ := right
  simpa [routeFence] using heq

structure PublishedRelayRoute where
  fence : LocalRelayFence
  routes : RelayCircuitRoutes
  limits : ExpectedRelayLimits
  authorizedUntil : DateTime
  relayPeerId : PeerId

/-- The route as `publish` passes it on. -/
def PublishedRelayRoute.confirmed (route : PublishedRelayRoute) : ConfirmedRoute where
  fence := routeFence route.fence
  relayPeerId := route.relayPeerId
  routes := route.routes
  limits := route.limits
  authorizedUntil := route.authorizedUntil

/-- The `Display` texts of `RouteCatalogError`. -/
def errorText : RouteCatalogError → String
  | .routeLimitExceeded maximum => s!"P2P route set exceeds the {maximum}-route limit"
  | .circuitRouteLimitExceeded maximum => s!"P2P route set exceeds the {maximum}-circuit limit"
  | .invalidDirectRoute reason => s!"P2P direct route is invalid: {reason}"
  | .invalidRelayRoute reason => s!"confirmed relay route is invalid: {reason}"
  | .relayAuthorizationExpired => "confirmed relay authorization is already expired"
  | .relaySlotOccupied => "confirmed relay slot already contains a different fence"
  | .staleRouteFence => "confirmed relay route fence is stale"
  | .routeNotFound => "confirmed relay route was not found"
  | .duplicateRelayRoute => "confirmed relay Peer ID or endpoint duplicates another slot"
  | .revisionExhausted => "P2P route revision is exhausted"

/-- The errors by which the catalog says that it does not hold a fence. -/
def saysAbsent : RouteCatalogError → Bool
  | .routeNotFound => true
  | .staleRouteFence => true
  | _ => false

structure FencedRouteState where
  closed : Bool
  owned : Finset LocalRelayFence

/-- The calls of `RelayRouteRegistry`. -/
inductive RegistryCall where
  | publish (route : PublishedRelayRoute)
  | refreshAuthority (fence : LocalRelayFence) (authorizedUntil : DateTime)
  | tombstone (fence : LocalRelayFence)
  | fenceAll

/-- What the calls return. -/
inductive RegistryReply where
  | published (result : Except String Unit)
  | refreshed (result : Except String Bool)
  | tombstoned (result : Except String Bool)
  | fenced (result : Except String Unit)

/-- A call that holds the mutex and is about to use the catalog. -/
inductive Holder where
  | publishing (route : PublishedRelayRoute)
  | refreshing (fence : LocalRelayFence) (authorizedUntil : DateTime)
  | tombstoning (fence : LocalRelayFence)
  | fencing (fence : LocalRelayFence) (rest : List LocalRelayFence)
      (firstError : Option String)

namespace Holder

/-- The fence the catalog is asked about. -/
def fence : Holder → LocalRelayFence
  | .publishing route => route.fence
  | .refreshing fence _ => fence
  | .tombstoning fence => fence
  | .fencing fence _ _ => fence

/-- The catalog operation that comes next. -/
def call : Holder → RouteCall
  | .publishing route => .publishConfirmed route.confirmed
  | .refreshing fence authorizedUntil => .refreshAuthorization (routeFence fence) authorizedUntil
  | .tombstoning fence => .tombstone (routeFence fence)
  | .fencing fence _ _ => .tombstone (routeFence fence)

end Holder

/-- Where the holder of the mutex stands. -/
inductive Critical where
  | free
  | calling (holder : Holder)
  | answered (holder : Holder) (result : Except RouteCatalogError RouteReply)
  | returning (reply : RegistryReply)

namespace FencedRouteState

/-- `FencedRouteState::default`. -/
def new : FencedRouteState := ⟨false, ∅⟩

variable (state : FencedRouteState)

def insertOwned (fence : LocalRelayFence) : FencedRouteState :=
  { state with owned := insert fence state.owned }

def removeOwned (fence : LocalRelayFence) : FencedRouteState :=
  { state with owned := state.owned.erase fence }

/-- The loop head of `fence_all`. -/
def nextFence (firstError : Option String) : List LocalRelayFence → Critical
  | fence :: rest => .calling (.fencing fence rest firstError)
  | [] =>
    match firstError with
    | some error => .returning (.fenced (.error error))
    | none => .returning (.fenced (.ok ()))

/-- The part of a call before its first catalog operation. -/
def enter (order : List LocalRelayFence) :
    RegistryCall → FencedRouteState × Critical
  | .publish route =>
    if state.closed then
      (state, .returning (.published (.error "relay route registry is permanently fenced")))
    else
      (state, .calling (.publishing route))
  | .refreshAuthority fence authorizedUntil =>
    if state.closed ∨ fence ∉ state.owned then
      (state, .returning (.refreshed (.ok false)))
    else
      (state, .calling (.refreshing fence authorizedUntil))
  | .tombstone fence =>
    if fence ∉ state.owned then
      (state, .returning (.tombstoned (.ok false)))
    else
      (state, .calling (.tombstoning fence))
  | .fenceAll => ({ state with closed := true }, nextFence none order)

/-- The part of a call after a catalog operation returned `result`. -/
def settle (result : Except RouteCatalogError RouteReply) :
    Holder → FencedRouteState × Critical
  | .publishing route =>
    match result with
    | .ok _ => (state.insertOwned route.fence, .returning (.published (.ok ())))
    | .error error => (state, .returning (.published (.error (errorText error))))
  | .refreshing fence _ =>
    match result with
    | .ok _ => (state, .returning (.refreshed (.ok true)))
    | .error error =>
      if saysAbsent error then
        (state.removeOwned fence, .returning (.refreshed (.ok false)))
      else
        (state, .returning (.refreshed (.error (errorText error))))
  | .tombstoning fence =>
    match result with
    | .ok _ => (state.removeOwned fence, .returning (.tombstoned (.ok true)))
    | .error error =>
      if saysAbsent error then
        (state.removeOwned fence, .returning (.tombstoned (.ok false)))
      else
        (state, .returning (.tombstoned (.error (errorText error))))
  | .fencing fence rest firstError =>
    match result with
    | .ok _ => (state.removeOwned fence, nextFence firstError rest)
    | .error error =>
      if saysAbsent error then
        (state.removeOwned fence, nextFence firstError rest)
      else
        (state, nextFence (some (firstError.getD (errorText error))) rest)

end FencedRouteState

/-- `FencedRouteCatalog`, with the holder of its mutex. -/
structure FencedCatalog where
  catalog : RouteState
  fenced : FencedRouteState
  critical : Critical

/-- `FencedRouteCatalog::new` over a catalog that is already in use. -/
def FencedCatalog.new (catalog : RouteState) : FencedCatalog := ⟨catalog, .new, .free⟩

/-- The steps of the coordinator's calls and of other owners of the catalog. -/
inductive FencedLabel where
  | enter (call : RegistryCall)
  | inner (now : DateTime) (call : RouteCall) (result : Except RouteCatalogError RouteReply)
  | settle
  | returned (reply : RegistryReply)
  | other (now : DateTime) (call : RouteCall)

/-- A call that publishes only local generations of the given set. -/
def PublishesWithin (generations : Set ℕ) (call : RouteCall) : Prop :=
  ∀ route, call = .publishConfirmed route → route.fence.localGeneration ∈ generations

/-- One step; other owners call what they like. -/
inductive FencedStep (config : RouteCatalogConfig) (mine : Set ℕ)
    (_history : List FencedLabel) (state : FencedCatalog) :
    FencedLabel → FencedCatalog → Prop where
  | enter (call : RegistryCall) (order : List LocalRelayFence)
      (hfree : state.critical = .free)
      (horder : order.Nodup ∧ order.toFinset = state.fenced.owned)
      (hmine : ∀ route, call = .publish route → route.fence.localGeneration ∈ mine) :
      FencedStep config mine _history state (.enter call)
        ⟨state.catalog, (state.fenced.enter order call).1, (state.fenced.enter order call).2⟩
  | inner (now : DateTime) (holder : Holder) (hcalling : state.critical = .calling holder) :
      FencedStep config mine _history state
        (.inner now holder.call (state.catalog.perform config now holder.call).result)
        ⟨(state.catalog.perform config now holder.call).state, state.fenced,
          .answered holder (state.catalog.perform config now holder.call).result⟩
  | settle (holder : Holder) (result : Except RouteCatalogError RouteReply)
      (hanswered : state.critical = .answered holder result) :
      FencedStep config mine _history state .settle
        ⟨state.catalog, (state.fenced.settle result holder).1,
          (state.fenced.settle result holder).2⟩
  | returned (reply : RegistryReply) (hreturning : state.critical = .returning reply) :
      FencedStep config mine _history state (.returned reply)
        ⟨state.catalog, state.fenced, .free⟩
  | other (now : DateTime) (call : RouteCall) (hforeign : PublishesWithin mineᶜ call) :
      FencedStep config mine _history state (.other now call)
        ⟨(state.catalog.perform config now call).state, state.fenced, state.critical⟩

/-- Runs of a coordinator's registry over a shared catalog. -/
abbrev FencedRun (config : RouteCatalogConfig) (mine : Set ℕ) (initial : FencedCatalog) :
    List FencedLabel → FencedCatalog → Prop :=
  Transition.Run (FencedStep config mine) initial

/-- The fence was stored by a `publish` call of this coordinator. -/
def PublishedThrough (history : List FencedLabel) (fence : LocalRelayFence) : Prop :=
  ∃ (now : DateTime) (route : PublishedRelayRoute) (reply : RouteReply), route.fence = fence ∧
    FencedLabel.inner now (.publishConfirmed route.confirmed) (.ok reply) ∈ history

/-- The holder of the mutex is inside `publish` for this fence. -/
def Critical.IsPublishing (fence : LocalRelayFence) : Critical → Prop
  | .answered (.publishing route) (.ok _) => route.fence = fence
  | _ => False

/-- The catalog holds an entry under this fence. -/
def Holds (catalog : RouteState) (fence : LocalRelayFence) : Prop :=
  ∃ (key : Uuid) (route : StoredRelayRoute),
    catalog.relayRoutes[key]? = some route ∧ route.fence = routeFence fence

end AukiSdk.Coordinator
