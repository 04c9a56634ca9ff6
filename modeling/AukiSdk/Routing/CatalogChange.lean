import AukiSdk.Routing.Catalog

/-!
# What one catalog operation can do

Every operation first expires lapsed authorizations and then makes at most one change.
-/

namespace AukiSdk.Routing

open AukiSdk.Foundation List
open AukiSdk.Net
open AukiSdk.Relay
open Std (ExtTreeMap)

variable {config : RouteCatalogConfig} {now : DateTime} {state expired next : RouteState}

/-- Every entry is stored under its own route ID. -/
def RouteState.Keyed (state : RouteState) : Prop :=
  ∀ (key : Uuid) (route : StoredRelayRoute),
    state.relayRoutes[key]? = some route → route.fence.routeId = key

/-- No published entry has lapsed. -/
def RouteState.Unlapsed (now : DateTime) (state : RouteState) : Prop :=
  ∀ (key : Uuid) (route : StoredRelayRoute),
    state.relayRoutes[key]? = some route → route.isExpired now = false

/-- Number of lapsed entries. -/
def RouteState.lapsedCount (now : DateTime) (state : RouteState) : ℕ :=
  FiniteMap.count (StoredRelayRoute.isExpired now) state.relayRoutes

/-- Expiry of one entry. -/
def StoredRelayRoute.expire (now : DateTime) (route : StoredRelayRoute) : StoredRelayRoute :=
  if route.isExpired now then route.withdraw else route

theorem StoredRelayRoute.isExpired_expire (now : DateTime) (route : StoredRelayRoute) :
    (route.expire now).isExpired now = false := by
  unfold expire
  split
  · simp [isExpired, withdraw]
  · simp_all

theorem RouteState.advanceRevision_ok {count : ℕ}
    (hadv : state.advanceRevision count = .ok next) :
    next = { state with revision := state.revision + count } := by
  unfold advanceRevision at hadv
  split at hadv
  · rename_i hsum
    cases hadv
    rw [Word.checkedAdd_eq_some hsum]
  · cases hadv

theorem RouteState.expireAuthorizations_ok (hkey : state.Keyed)
    (hexpire : state.expireAuthorizations now = .ok expired) :
    expired.directRoutes = state.directRoutes ∧
      expired.revision = state.revision + state.lapsedCount now ∧
      ∀ key : Uuid, expired.relayRoutes[key]? =
        state.relayRoutes[key]?.map (StoredRelayRoute.expire now) := by
  unfold expireAuthorizations at hexpire
  simp only at hexpire
  split at hexpire
  · cases hexpire
  · rename_i advanced hadv
    cases hexpire
    cases RouteState.advanceRevision_ok hadv
    refine ⟨rfl, ?_, fun key => ?_⟩
    · simp only [lapsedCount, FiniteMap.count, values, length_map,
        ← countP_eq_length_filter, countP_map]
      rfl
    · have hide : ∀ route : StoredRelayRoute,
          route.withdraw.withdraw = route.withdraw := fun _ => rfl
      simp only [FiniteMap.getElem?_foldl_modify hide]
      have hm : key ∈ (state.values.filter (StoredRelayRoute.isExpired now)).map
          (fun route => route.fence.routeId) ↔
          ∃ route, state.relayRoutes[key]? = some route ∧ route.isExpired now = true := by
        simp only [values, mem_map, mem_filter, Prod.exists,
          ExtTreeMap.mem_toList_iff_getElem?_eq_some]
        constructor
        · rintro ⟨route, ⟨⟨stored, value, hst, rfl⟩, hlap⟩, rfl⟩
          rw [hkey _ _ hst]
          exact ⟨value, hst, hlap⟩
        · rintro ⟨route, hst, hlap⟩
          exact ⟨route, ⟨⟨key, route, hst, rfl⟩, hlap⟩, hkey _ _ hst⟩
      simp only [hm]
      cases hst : state.relayRoutes[key]? with
      | none => simp
      | some route =>
        by_cases hlap : route.isExpired now = true
        · simp [StoredRelayRoute.expire, hlap]
        · simp [StoredRelayRoute.expire, hlap]

theorem RouteState.expireAuthorizations_of_lapsedCount_eq_zero (hkey : state.Keyed)
    (hexpire : state.expireAuthorizations now = .ok expired)
    (hlap : state.lapsedCount now = 0) : expired = state := by
  obtain ⟨hdir, hrev, hlook⟩ := RouteState.expireAuthorizations_ok hkey hexpire
  have hrts : expired.relayRoutes = state.relayRoutes := by
    apply ExtTreeMap.ext_getElem?
    intro key
    rw [hlook]
    cases hst : state.relayRoutes[key]? with
    | none => rfl
    | some route =>
      have hlive := FiniteMap.count_eq_zero_iff.mp hlap key route hst
      simp [StoredRelayRoute.expire, hlive]
  obtain ⟨directRoutes, relayRoutes, revision⟩ := expired
  simp only [hlap, Nat.add_zero] at hdir hrev hrts
  rw [hdir, hrev, hrts]

theorem RouteState.unlapsed_expireAuthorizations (hkey : state.Keyed)
    (hexpire : state.expireAuthorizations now = .ok expired) : expired.Unlapsed now := by
  intro key route hrt
  obtain ⟨-, -, hlook⟩ := RouteState.expireAuthorizations_ok hkey hexpire
  rw [hlook, Option.map_eq_some_iff] at hrt
  obtain ⟨original, -, rfl⟩ := hrt
  exact original.isExpired_expire now

theorem RouteState.Unlapsed.isConfirmed_eq (hunl : state.Unlapsed now) {key : Uuid}
    {route : StoredRelayRoute} (hrt : state.relayRoutes[key]? = some route) :
    route.isConfirmed now = route.publishable := by
  have hexp := hunl _ _ hrt
  simp only [StoredRelayRoute.isExpired, StoredRelayRoute.isConfirmed] at hexp ⊢
  cases hpubl : route.publishable
  · rfl
  · rw [hpubl] at hexp
    simpa using hexp

theorem RouteState.Unlapsed.publishableRelayCount_eq (hunl : state.Unlapsed now) :
    state.publishableRelayCount now = state.flaggedCount :=
  FiniteMap.count_congr fun _ _ hrt => hunl.isConfirmed_eq hrt

/-- The snapshot a reply carries. -/
def RouteReply.shown : RouteReply → Option RouteSnapshot
  | .snapshot shown => some shown
  | .committed shown => shown
  | _ => none

namespace RouteState

/-- An entry with a refreshed authorization. -/
def refreshEntry (authorizedUntil now : DateTime) (entry : StoredRelayRoute) :
    StoredRelayRoute :=
  { entry with authorizedUntil, publishable := decide (now < authorizedUntil) }

/-- Everything a locked section can do to the expired state. -/
inductive Change (config : RouteCatalogConfig) (now : DateTime) (state : RouteState) :
    RouteState → Prop where
  | kept : Change config now state state
  | direct (raw directRoutes : List Multiaddr)
      (hvalid : validateAndSortDirectRoutes raw config.localPeerId
        config.limits.maximumRoutes = .ok directRoutes)
      (hcapacity : directRoutes.length + state.publishableRelayCount now ≤
        config.limits.maximumRoutes) :
      Change config now state
        { state with directRoutes, revision := state.revision + 1 }
  | stored (route : StoredRelayRoute)
      (htcp : TerminatesAt config.localPeerId route.routes.tcp)
      (hwss : TerminatesAt config.localPeerId route.routes.wss)
      (hauthorized : route.isConfirmed now = true)
      (hslot : state.checkSlot config route = .ok ())
      (hcapacity : state.relayRoutes[route.fence.routeId]?.any StoredRelayRoute.publishable =
          false →
        state.directRoutes.length + state.publishableRelayCount now + 1 ≤
          config.limits.maximumRoutes) :
      Change config now state
        { state with
          relayRoutes := state.relayRoutes.insert route.fence.routeId route
          revision := state.revision +
            if state.relayRoutes[route.fence.routeId]?.any StoredRelayRoute.publishable then 0
            else 1 }
  | refreshed (key : Uuid) (entry : StoredRelayRoute) (authorizedUntil : DateTime)
      (hentry : state.relayRoutes[key]? = some entry)
      (hcapacity : now < authorizedUntil → entry.publishable = false →
        state.directRoutes.length + state.publishableRelayCount now + 1 ≤
          config.limits.maximumRoutes) :
      Change config now state
        { state with
          relayRoutes := state.relayRoutes.modify key (refreshEntry authorizedUntil now)
          revision := state.revision +
            if entry.publishable ≠ decide (now < authorizedUntil) then 1 else 0 }
  | removed (key : Uuid) (entry : StoredRelayRoute)
      (hentry : state.relayRoutes[key]? = some entry) :
      Change config now state
        { state with
          relayRoutes := state.relayRoutes.erase key
          revision := state.revision + if entry.publishable then 1 else 0 }
  | cleared :
      Change config now state
        { state with relayRoutes := ∅, revision := state.revision + state.flaggedCount }

/-- Everything one operation can leave behind. -/
inductive Performs (config : RouteCatalogConfig) (now : DateTime) (state : RouteState) :
    Locked RouteReply → Prop where
  /-- The arguments were refused before the lock, or expiry failed. -/
  | unchanged (error : RouteCatalogError) : Performs config now state (state.refuse error)
  /-- Refused after expiry. -/
  | refused (expired : RouteState) (error : RouteCatalogError)
      (hexpire : state.expireAuthorizations now = .ok expired) :
      Performs config now state (expired.refuse error)
  /-- An accepted operation that sends nothing. -/
  | silent (expired : RouteState) (reply : RouteReply)
      (hexpire : state.expireAuthorizations now = .ok expired)
      (hshown : ∀ snapshot, reply.shown = some snapshot →
        snapshot = expired.routeSnapshot now) :
      Performs config now state ⟨.ok reply, expired, none⟩
  /-- An accepted operation that sends the status of the changed state. -/
  | sent (expired next : RouteState) (reply : RouteReply)
      (hexpire : state.expireAuthorizations now = .ok expired)
      (hchange : Change config now expired next)
      (hshown : ∀ snapshot, reply.shown = some snapshot →
        snapshot = next.routeSnapshot now) :
      Performs config now state (next.finish now reply)

theorem checkSlot_existing {route existing : StoredRelayRoute}
    (hexi : state.relayRoutes[route.fence.routeId]? = some existing)
    (hslot : state.checkSlot config route = .ok ()) :
    existing.fence = route.fence ∧ existing.relayPeerId = route.relayPeerId ∧
      existing.endpoints = route.endpoints ∧ existing.routes = route.routes ∧
      existing.limits = route.limits := by
  simp only [checkSlot, hexi] at hslot
  split at hslot
  · cases hslot
  · rename_i hdiffers
    push Not at hdiffers
    exact hdiffers

theorem performs_locked {α : Type} {body : RouteState → Locked α} {reply : α → RouteReply}
    (hbody : ∀ expired, state.expireAuthorizations now = .ok expired →
      Performs config now state ((body expired).map reply)) :
    Performs config now state ((state.locked now body).map reply) := by
  unfold locked
  split
  · exact .unchanged _
  · rename_i expired hexpire
    exact hbody expired hexpire

theorem performs_replaceDirectRoutes (directRoutes : List Multiaddr) : Performs config now state
      ((state.replaceDirectRoutes config directRoutes now).map .revision) := by
  unfold replaceDirectRoutes
  split
  · exact .unchanged _
  · rename_i sorted hval
    refine performs_locked fun expired hexpire => ?_
    split
    · exact .silent expired _ hexpire (by simp [RouteReply.shown])
    · split
      · exact .refused expired _ hexpire
      · rename_i hcap
        split
        · exact .refused expired _ hexpire
        · rename_i bumped hbump
          cases advanceRevision_ok hbump
          exact .sent expired _ _ hexpire
            (.direct directRoutes sorted hval (Nat.le_of_not_lt hcap))
            (by simp [RouteReply.shown])

theorem performs_storeConfirmed {route : StoredRelayRoute}
    (hexpire : state.expireAuthorizations now = .ok expired)
    (htcp : TerminatesAt config.localPeerId route.routes.tcp)
    (hwss : TerminatesAt config.localPeerId route.routes.wss)
    (hauth : route.isConfirmed now = true) :
    Performs config now state ((expired.storeConfirmed config route now).map .revision) := by
  unfold storeConfirmed
  split
  · exact .refused expired _ hexpire
  · rename_i hslot
    simp only
    split
    · exact .refused expired _ hexpire
    · rename_i hcap
      have hroom : expired.relayRoutes[route.fence.routeId]?.any
          StoredRelayRoute.publishable = false →
          expired.directRoutes.length + expired.publishableRelayCount now + 1 ≤
            config.limits.maximumRoutes := by
        intro hnew
        rw [hnew] at hcap
        simpa using hcap
      have hchg := Change.stored route htcp hwss hauth hslot hroom
      split
      · exact .refused expired _ hexpire
      · rename_i bumped hbump
        split at hbump
        · rename_i hpubl
          cases hbump
          rw [if_pos hpubl] at hchg
          exact .sent expired _ _ hexpire hchg (by simp [RouteReply.shown])
        · rename_i hpubl
          cases advanceRevision_ok hbump
          rw [if_neg hpubl] at hchg
          exact .sent expired _ _ hexpire hchg (by simp [RouteReply.shown])

theorem performs_publishConfirmed (route : ConfirmedRoute) :
    Performs config now state ((state.publishConfirmed config route now).map .revision) := by
  unfold publishConfirmed
  split
  · exact .unchanged _
  · split
    · exact .unchanged _
    · rename_i relayPeerId tcpEndpoint htcp
      split
      · exact .unchanged _
      · rename_i wssEndpoint hwss
        split
        · exact .unchanged _
        · rename_i huntil
          refine performs_locked fun expired hexpire => ?_
          refine performs_storeConfirmed hexpire (validateCircuitRoute_ok htcp).2
            (terminatesAt_of_validateWssCircuitRoute hwss) ?_
          simpa [StoredRelayRoute.isConfirmed] using huntil

theorem performs_refreshAuthorization (fence : RouteFence) (authorizedUntil : DateTime) :
    Performs config now state
      ((state.refreshAuthorization config fence authorizedUntil now).map .revision) := by
  refine performs_locked fun expired hexpire => ?_
  split
  · exact .refused expired _ hexpire
  · rename_i entry hent
    split
    · exact .refused expired _ hexpire
    · simp only
      split
      · exact .refused expired _ hexpire
      · rename_i hcap
        have hroom : now < authorizedUntil → entry.publishable = false →
            expired.directRoutes.length + expired.publishableRelayCount now + 1 ≤
              config.limits.maximumRoutes := by
          intro hunt hunp
          simpa [hunt, hunp] using hcap
        have hchg := Change.refreshed fence.routeId entry authorizedUntil hent hroom
        split
        · exact .refused expired _ hexpire
        · rename_i bumped hbump
          split at hbump
          · rename_i hchd
            cases advanceRevision_ok hbump
            rw [if_pos (of_decide_eq_true hchd)] at hchg
            exact .sent expired _ _ hexpire hchg (by simp [RouteReply.shown])
          · rename_i hchd
            cases hbump
            rw [if_neg (by simpa using hchd)] at hchg
            exact .sent expired _ _ hexpire hchg (by simp [RouteReply.shown])

theorem performs_tombstone (fence : RouteFence) :
    Performs config now state ((state.tombstone fence now).map fun _ => .done) := by
  refine performs_locked fun expired hexpire => ?_
  split
  · exact .refused expired _ hexpire
  · rename_i entry hent
    split
    · exact .refused expired _ hexpire
    · have hchg : Change config now expired _ := .removed fence.routeId entry hent
      split
      · exact .refused expired _ hexpire
      · rename_i bumped hbump
        split at hbump
        · rename_i hpubl
          cases advanceRevision_ok hbump
          rw [if_pos hpubl] at hchg
          exact .sent expired _ _ hexpire hchg (by simp [RouteReply.shown])
        · rename_i hpubl
          cases hbump
          rw [if_neg hpubl] at hchg
          exact .sent expired _ _ hexpire hchg (by simp [RouteReply.shown])

theorem performs_tombstoneAll :
    Performs config now state ((state.tombstoneAll now).map .fences) := by
  refine performs_locked fun expired hexpire => ?_
  split
  · exact .refused expired _ hexpire
  · rename_i advanced hadv
    cases advanceRevision_ok hadv
    exact .sent expired _ _ hexpire .cleared (by simp [RouteReply.shown])

theorem performs_snapshot : Performs config now state ((state.snapshot now).map .snapshot) := by
  refine performs_locked fun expired hexpire => ?_
  exact .sent expired expired _ hexpire .kept (by simp [RouteReply.shown])

theorem performs_commitIfCurrent (expectedRevision : ℕ) (expectedFences : List RouteFence) :
    Performs config now state
      ((state.commitIfCurrent expectedRevision expectedFences now).map .committed) := by
  refine performs_locked fun expired hexpire => ?_
  simp only
  split
  · exact .silent expired _ hexpire (by simp [RouteReply.shown])
  · exact .silent expired _ hexpire (by simp [RouteReply.shown])

theorem performs (config : RouteCatalogConfig) (now : DateTime) (state : RouteState)
    (call : RouteCall) : Performs config now state (state.perform config now call) := by
  cases call with
  | replaceDirectRoutes directRoutes => exact performs_replaceDirectRoutes directRoutes
  | publishConfirmed route => exact performs_publishConfirmed route
  | refreshAuthorization fence authorizedUntil =>
    exact performs_refreshAuthorization fence authorizedUntil
  | tombstone fence => exact performs_tombstone fence
  | tombstoneAll => exact performs_tombstoneAll
  | snapshot => exact performs_snapshot
  | commitIfCurrent expectedRevision expectedFences =>
    exact performs_commitIfCurrent expectedRevision expectedFences

end RouteState

end AukiSdk.Routing
