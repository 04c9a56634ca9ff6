import AukiSdk.Foundation.Transition
import AukiSdk.Routing.CatalogChange

/-!
# The catalog invariant

Capacity, uniqueness and grammar of the stored routes over every run.
-/

namespace AukiSdk.Routing

open AukiSdk.Foundation List
open AukiSdk.Net
open AukiSdk.Relay
open Std (ExtTreeMap)

variable {config : RouteCatalogConfig} {now : DateTime} {state expired next : RouteState}

/-- What every state of a catalog satisfies. -/
structure RouteState.WellFormed (config : RouteCatalogConfig) (state : RouteState) :
    Prop where
  routes_le : state.directRoutes.length + state.flaggedCount ≤ config.limits.maximumRoutes
  relayRoutes_le : state.relayRoutes.size ≤ config.limits.maximumRelayRoutes
  keyed : state.Keyed
  relay_unique : ∀ (key key' : Uuid) (route route' : StoredRelayRoute),
    state.relayRoutes[key]? = some route → state.relayRoutes[key']? = some route' →
      route.relayPeerId = route'.relayPeerId → key = key'
  endpoints_disjoint : ∀ (key key' : Uuid) (route route' : StoredRelayRoute),
    state.relayRoutes[key]? = some route → state.relayRoutes[key']? = some route' →
      endpointsOverlap route.endpoints route'.endpoints = true → key = key'
  direct_sorted : state.directRoutes.Pairwise TextBefore
  terminates : ∀ (key : Uuid) (route : StoredRelayRoute),
    state.relayRoutes[key]? = some route →
      TerminatesAt config.localPeerId route.routes.tcp ∧
        TerminatesAt config.localPeerId route.routes.wss

theorem endpointsOverlap_comm (left right : String × String) :
    endpointsOverlap left right = endpointsOverlap right left := by
  simp only [endpointsOverlap, any_cons, any_nil, mem_cons, not_mem_nil,
    Bool.or_false, or_false, eq_comm (a := left.1), eq_comm (a := left.2)]
  grind

namespace RouteState.WellFormed

/-- Every entry keeps the slot data of one stored under the same key. -/
theorem of_entries (hwell : state.WellFormed config)
    (hrts : next.directRoutes.length + next.flaggedCount ≤ config.limits.maximumRoutes)
    (hsort : next.directRoutes.Pairwise TextBefore)
    (hents : ∀ (key : Uuid) (route : StoredRelayRoute),
      next.relayRoutes[key]? = some route → ∃ original, state.relayRoutes[key]? = some original ∧
          original.fence = route.fence ∧ original.relayPeerId = route.relayPeerId ∧
          original.endpoints = route.endpoints ∧ original.routes = route.routes) :
    next.WellFormed config := by
  refine ⟨hrts, ?_, ?_, ?_, ?_, hsort, ?_⟩
  · refine le_trans ?_ hwell.relayRoutes_le
    rw [FiniteMap.size_eq_count, FiniteMap.size_eq_count]
    apply FiniteMap.count_le_of_subset
    intro key hkey
    rw [FiniteMap.mem_keysWhere] at hkey ⊢
    obtain ⟨route, hrt, -⟩ := hkey
    obtain ⟨original, horig, -⟩ := hents key route hrt
    exact ⟨original, horig, rfl⟩
  · intro key route hrt
    obtain ⟨original, horig, hfnc, -⟩ := hents key route hrt
    rw [← hfnc]
    exact hwell.keyed _ _ horig
  · intro key key' route route' hrt hroute' hrly
    obtain ⟨original, horig, -, hpeer, -⟩ := hents key route hrt
    obtain ⟨original', horiginal', -, hpeer', -⟩ := hents key' route' hroute'
    exact hwell.relay_unique _ _ _ _ horig horiginal' (by rw [hpeer, hpeer', hrly])
  · intro key key' route route' hrt hroute' hove
    obtain ⟨original, horig, -, -, hpair, -⟩ := hents key route hrt
    obtain ⟨original', horiginal', -, -, hpair', -⟩ := hents key' route' hroute'
    exact hwell.endpoints_disjoint _ _ _ _ horig horiginal'
      (by rw [hpair, hpair', hove])
  · intro key route hrt
    obtain ⟨original, horig, -, -, -, hrts⟩ := hents key route hrt
    rw [← hrts]
    exact hwell.terminates _ _ horig

theorem expire (hwell : state.WellFormed config)
    (hexp : state.expireAuthorizations now = .ok expired) : expired.WellFormed config := by
  obtain ⟨hdir, -, hlook⟩ := RouteState.expireAuthorizations_ok hwell.keyed hexp
  refine hwell.of_entries ?_ (hdir ▸ hwell.direct_sorted) ?_
  · refine le_trans ?_ hwell.routes_le
    rw [hdir]
    apply Nat.add_le_add_left
    apply FiniteMap.count_le_of_subset
    intro key hkey
    rw [FiniteMap.mem_keysWhere] at hkey ⊢
    obtain ⟨route, hrt, hpubl⟩ := hkey
    rw [hlook, Option.map_eq_some_iff] at hrt
    obtain ⟨original, horig, rfl⟩ := hrt
    refine ⟨original, horig, ?_⟩
    unfold StoredRelayRoute.expire at hpubl
    split at hpubl
    · cases hpubl
    · exact hpubl
  · intro key route hrt
    rw [hlook, Option.map_eq_some_iff] at hrt
    obtain ⟨original, horig, rfl⟩ := hrt
    refine ⟨original, horig, ?_⟩
    unfold StoredRelayRoute.expire
    split
    · exact ⟨rfl, rfl, rfl, rfl⟩
    · exact ⟨rfl, rfl, rfl, rfl⟩

theorem insert_existing (hwell : state.WellFormed config) (hunl : state.Unlapsed now)
    {key : Uuid} {route existing : StoredRelayRoute} (revision : ℕ)
    (hexi : state.relayRoutes[key]? = some existing)
    (hsm : existing.fence = route.fence ∧ existing.relayPeerId = route.relayPeerId ∧
      existing.endpoints = route.endpoints ∧ existing.routes = route.routes)
    (hcap : route.publishable = true → existing.publishable = false →
      state.directRoutes.length + state.publishableRelayCount now + 1 ≤
        config.limits.maximumRoutes) :
    RouteState.WellFormed config
      ⟨state.directRoutes, state.relayRoutes.insert key route, revision⟩ := by
  refine hwell.of_entries ?_ hwell.direct_sorted ?_
  · by_cases hgro : route.publishable = true ∧ existing.publishable = false
    · have hroom := hcap hgro.1 hgro.2
      rw [hunl.publishableRelayCount_eq] at hroom
      have hcnt := FiniteMap.count_insert_le_add_one StoredRelayRoute.publishable
        state.relayRoutes key route
      exact (Nat.add_le_add_left hcnt _).trans hroom
    · refine (Nat.add_le_add_left (FiniteMap.count_insert_le fun hflag => ?_) _).trans
        hwell.routes_le
      refine ⟨existing, hexi, ?_⟩
      by_contra hunf
      exact hgro ⟨hflag, by simpa using hunf⟩
  · intro other found hf
    simp only [FiniteMap.getElem?_insert] at hf
    split at hf
    · rename_i heq
      cases hf
      exact ⟨existing, by rw [heq, hexi], hsm⟩
    · exact ⟨found, hf, rfl, rfl, rfl, rfl⟩

theorem insert_fresh (hwell : state.WellFormed config) (hunl : state.Unlapsed now)
    {route : StoredRelayRoute} (revision : ℕ)
    (hfree : state.relayRoutes[route.fence.routeId]? = none)
    (hslot : state.checkSlot config route = .ok ())
    (htcp : TerminatesAt config.localPeerId route.routes.tcp)
    (hwss : TerminatesAt config.localPeerId route.routes.wss)
    (hroom : state.directRoutes.length + state.publishableRelayCount now + 1 ≤
      config.limits.maximumRoutes) :
    RouteState.WellFormed config
      ⟨state.directRoutes, state.relayRoutes.insert route.fence.routeId route, revision⟩ := by
  simp only [RouteState.checkSlot, hfree] at hslot
  split at hslot
  · cases hslot
  rename_i hsize
  split at hslot
  · cases hslot
  rename_i hduplicate
  -- The new route shares neither relay nor endpoint with a stored one.
  have hdist : ∀ (key : Uuid) (stored : StoredRelayRoute),
      state.relayRoutes[key]? = some stored → stored.relayPeerId ≠ route.relayPeerId ∧
        endpointsOverlap stored.endpoints route.endpoints = false := by
    intro key stored hst
    have hnone := mt (FiniteMap.any_toList_iff state.relayRoutes fun stored =>
      stored.relayPeerId = route.relayPeerId ||
        endpointsOverlap stored.endpoints route.endpoints).mpr hduplicate
    push Not at hnone
    simpa using hnone key stored hst
  have hcas : ∀ (key : Uuid) (found : StoredRelayRoute),
      (state.relayRoutes.insert route.fence.routeId route)[key]? = some found →
      (key = route.fence.routeId ∧ found = route) ∨ state.relayRoutes[key]? = some found := by
    intro key found hf
    rw [FiniteMap.getElem?_insert] at hf
    split at hf
    · rename_i heq
      cases hf
      exact .inl ⟨heq, rfl⟩
    · exact .inr hf
  refine ⟨?_, ?_, ?_, ?_, ?_, hwell.direct_sorted, ?_⟩
  · rw [hunl.publishableRelayCount_eq] at hroom
    have hcnt := FiniteMap.count_insert_le_add_one StoredRelayRoute.publishable
      state.relayRoutes route.fence.routeId route
    exact (Nat.add_le_add_left hcnt _).trans hroom
  · have hgrows := ExtTreeMap.size_insert_le (t := state.relayRoutes)
      (k := route.fence.routeId) (v := route)
    simp only
    omega
  · intro key found hf
    rcases hcas key found hf with ⟨rfl, rfl⟩ | hst
    · rfl
    · exact hwell.keyed _ _ hst
  · intro key key' found found' hf hfound' hrly
    rcases hcas key found hf with ⟨rfl, rfl⟩ | hst <;>
      rcases hcas key' found' hfound' with ⟨rfl, rfl⟩ | hstored'
    · rfl
    · exact absurd hrly.symm (hdist _ _ hstored').1
    · exact absurd hrly (hdist _ _ hst).1
    · exact hwell.relay_unique _ _ _ _ hst hstored' hrly
  · intro key key' found found' hf hfound' hove
    rcases hcas key found hf with ⟨rfl, rfl⟩ | hst <;>
      rcases hcas key' found' hfound' with ⟨rfl, rfl⟩ | hstored'
    · rfl
    · rw [endpointsOverlap_comm, (hdist _ _ hstored').2] at hove
      cases hove
    · rw [(hdist _ _ hst).2] at hove
      cases hove
    · exact hwell.endpoints_disjoint _ _ _ _ hst hstored' hove
  · intro key found hf
    rcases hcas key found hf with ⟨rfl, rfl⟩ | hst
    · exact ⟨htcp, hwss⟩
    · exact hwell.terminates _ _ hst

theorem change (hwell : state.WellFormed config) (hunl : state.Unlapsed now)
    (hchg : state.Change config now next) : next.WellFormed config := by
  cases hchg with
  | kept => exact hwell
  | direct raw directRoutes hval hcap =>
    rw [hunl.publishableRelayCount_eq] at hcap
    exact hwell.of_entries hcap (validateAndSortDirectRoutes_ok hval).2
      fun key route hrt => ⟨route, hrt, rfl, rfl, rfl, rfl⟩
  | stored route htcp hwss hauth hslot hcap =>
    cases hexi : state.relayRoutes[route.fence.routeId]? with
    | none =>
      exact hwell.insert_fresh hunl _ hexi hslot htcp hwss
        (hcap (by rw [hexi]; rfl))
    | some existing =>
      have hsm := RouteState.checkSlot_existing hexi hslot
      refine hwell.insert_existing hunl _ hexi
        ⟨hsm.1, hsm.2.1, hsm.2.2.1, hsm.2.2.2.1⟩ fun _ hflag => hcap ?_
      rw [hexi]
      exact hflag
  | refreshed key entry authorizedUntil hent hcap =>
    rw [FiniteMap.modify_stored hent]
    refine hwell.insert_existing hunl _ hent ⟨rfl, rfl, rfl, rfl⟩ ?_
    intro hflag
    exact hcap (of_decide_eq_true hflag)
  | removed key entry hent =>
    refine hwell.of_entries ?_ hwell.direct_sorted ?_
    · exact (Nat.add_le_add_left (FiniteMap.count_erase_le _ _ _) _).trans hwell.routes_le
    · intro other route hrt
      simp only [FiniteMap.getElem?_erase] at hrt
      split at hrt
      · cases hrt
      · exact ⟨route, hrt, rfl, rfl, rfl, rfl⟩
  | cleared =>
    refine hwell.of_entries ?_ hwell.direct_sorted (by simp)
    refine le_trans ?_ hwell.routes_le
    simp [RouteState.flaggedCount]

theorem perform (hwell : state.WellFormed config) (now : DateTime) (call : RouteCall) :
    (state.perform config now call).state.WellFormed config := by
  have hpfs := RouteState.performs config now state call
  generalize state.perform config now call = outcome at hpfs
  cases hpfs with
  | unchanged error => exact hwell
  | refused expired error hexp => exact hwell.expire hexp
  | silent expired reply hexp => exact hwell.expire hexp
  | sent expired next reply hexp hchg =>
    exact (hwell.expire hexp).change
      (RouteState.unlapsed_expireAuthorizations hwell.keyed hexp) hchg

end RouteState.WellFormed

/-- An operation with its clock reading and what it left behind. -/
structure RouteLabel where
  now : DateTime
  call : RouteCall
  result : Except RouteCatalogError RouteReply
  status : Option RouteCatalogStatus

/-- One operation of a run. -/
def RouteStep (config : RouteCatalogConfig) (_history : List RouteLabel)
    (state : RouteState) (label : RouteLabel) (next : RouteState) : Prop :=
  state.perform config label.now label.call = ⟨label.result, next, label.status⟩

/-- Runs of a catalog that starts in `initial`. -/
abbrev RouteRun (config : RouteCatalogConfig) (initial : RouteState) :
    List RouteLabel → RouteState → Prop :=
  Transition.Run (RouteStep config) initial

variable {initial : RouteState}

theorem RouteState.wellFormed_new {directRoutes : List Multiaddr}
    (hnew : RouteState.new config directRoutes = .ok initial) :
    initial.WellFormed config := by
  unfold RouteState.new at hnew
  split at hnew
  · cases hnew
  · rename_i sorted hval
    cases hnew
    obtain ⟨hlen, hsort⟩ := validateAndSortDirectRoutes_ok hval
    refine ⟨?_, ?_, ?_, ?_, ?_, hsort, ?_⟩
    · simpa [RouteState.flaggedCount] using hlen
    all_goals simp [RouteState.Keyed]

theorem RouteState.wellFormed_of_run {directRoutes : List Multiaddr} {history : List RouteLabel}
    (hnew : RouteState.new config directRoutes = .ok initial)
    (hrun : RouteRun config initial history state) : state.WellFormed config := by
  refine hrun.invariant (fun _ state => state.WellFormed config)
    (RouteState.wellFormed_new hnew) ?_
  intro history state label next hwell hs
  have hkept := hwell.perform label.now label.call
  rw [hs] at hkept
  exact hkept

/-- The stored routes stay within capacity, unique and canonical. -/
theorem catalog_within_limits {directRoutes : List Multiaddr} {initial : RouteState}
    {history : List RouteLabel} (hnew : RouteState.new config directRoutes = .ok initial)
    (hrun : RouteRun config initial history state) :
    state.directRoutes.length + state.flaggedCount ≤ config.limits.maximumRoutes ∧
    state.relayRoutes.size ≤ config.limits.maximumRelayRoutes ∧
    (∀ (key : Uuid) (route : StoredRelayRoute), state.relayRoutes[key]? = some route →
      route.fence.routeId = key) ∧
    (∀ (key key' : Uuid) (route route' : StoredRelayRoute), key ≠ key' →
      state.relayRoutes[key]? = some route → state.relayRoutes[key']? = some route' →
      route.relayPeerId ≠ route'.relayPeerId ∧ ∀ endpoint ∈ [route.endpoints.1, route.endpoints.2],
          endpoint ∉ [route'.endpoints.1, route'.endpoints.2]) ∧
    state.directRoutes.Pairwise (fun left right => left.toText ≤ right.toText) ∧
    state.directRoutes.Nodup ∧
    (∀ (key : Uuid) (route : StoredRelayRoute), state.relayRoutes[key]? = some route →
      TerminatesAt config.localPeerId route.routes.tcp ∧
        TerminatesAt config.localPeerId route.routes.wss) := by
  have hwell := RouteState.wellFormed_of_run hnew hrun
  refine ⟨hwell.routes_le, hwell.relayRoutes_le, hwell.keyed, ?_, ?_, ?_, hwell.terminates⟩
  · intro key key' route route' hne hroute hroute'
    refine ⟨fun hrelay => hne (hwell.relay_unique _ _ _ _ hroute hroute' hrelay), ?_⟩
    intro endpoint hmem hmem'
    refine hne (hwell.endpoints_disjoint _ _ _ _ hroute hroute' ?_)
    exact any_eq_true.mpr ⟨endpoint, hmem, by simpa using hmem'⟩
  · exact hwell.direct_sorted.imp fun hbefore => le_of_lt hbefore
  · refine hwell.direct_sorted.imp fun {left right} hbefore heq => ?_
    rw [heq] at hbefore
    exact lt_irrefl _ hbefore

theorem RouteRun.call {history : List RouteLabel} (hrun : RouteRun config initial history state)
    (now : DateTime) (call : RouteCall) :
    RouteRun config initial
      (history ++ [⟨now, call, (state.perform config now call).result,
        (state.perform config now call).status⟩])
      (state.perform config now call).state :=
  hrun.extend rfl

def sampleConfig : RouteCatalogConfig := ⟨samplePeer 1, 8, 4⟩

def sampleConfirmed : ConfirmedRoute where
  fence := ⟨1, 2, 3, 1⟩
  relayPeerId := samplePeer 2
  routes :=
    ⟨providerBase "relay.auki.network" 4001 .tcp (samplePeer 2) ++
        [Protocol.p2pCircuit, Protocol.p2p (samplePeer 1)],
      providerBase "relay.auki.network" 443 .wss (samplePeer 2) ++
        [Protocol.p2pCircuit, Protocol.p2p (samplePeer 1)]⟩
  limits := ⟨60, 65536, by decide, by decide, by decide, by decide⟩
  authorizedUntil := 10

def sampleDirect : Multiaddr := [.dns4 "node.auki.network", .tcp 4001]

def sampleInitial : RouteState := ⟨[sampleDirect], ∅, 1⟩

theorem sampleInitial_new :
    RouteState.new sampleConfig [sampleDirect, sampleDirect] = .ok sampleInitial := by
  have hval : validateAndSortDirectRoutes [sampleDirect, sampleDirect]
      sampleConfig.localPeerId sampleConfig.limits.maximumRoutes = .ok [sampleDirect] := by
    decide +kernel
  simp only [RouteState.new, hval]
  rfl

def sampleStoredRoute : StoredRelayRoute where
  fence := sampleConfirmed.fence
  relayPeerId := sampleConfirmed.relayPeerId
  endpoints := ("/dns4/relay.auki.network/tcp/4001", "/dns4/relay.auki.network/tcp/443/wss")
  routes := sampleConfirmed.routes
  limits := sampleConfirmed.limits
  authorizedUntil := sampleConfirmed.authorizedUntil
  publishable := true

theorem publishConfirmed_sampleConfirmed (state : RouteState) {now : DateTime} (hnow : now < 10) :
    state.publishConfirmed sampleConfig sampleConfirmed now =
      state.locked now (RouteState.storeConfirmed sampleConfig sampleStoredRoute now) := by
  have htcp : validateCircuitRoute sampleConfirmed.routes.tcp sampleConfirmed.relayPeerId
      sampleConfig.localPeerId = .ok (samplePeer 2, sampleStoredRoute.endpoints.1) := by
    decide +kernel
  have hwss : validateWssCircuitRoute sampleConfirmed.routes.wss sampleConfirmed.relayPeerId
      sampleConfig.localPeerId = .ok sampleStoredRoute.endpoints.2 := by
    decide +kernel
  have hauth : ¬sampleConfirmed.authorizedUntil ≤ now := not_le.mpr hnow
  rw [RouteState.publishConfirmed, if_neg (by decide), htcp]
  simp only [hwss, if_neg hauth]
  rfl

def sampleStored : RouteState :=
  ⟨[sampleDirect], (∅ : ExtTreeMap Uuid StoredRelayRoute).insert 1 sampleStoredRoute, 2⟩

theorem sampleInitial_publish :
    sampleInitial.perform sampleConfig 0 (.publishConfirmed sampleConfirmed) =
      sampleStored.finish 0 (.revision 2) := by
  rw [RouteState.perform, publishConfirmed_sampleConfirmed _ (by decide)]
  rfl

/-- A catalog that stores one direct and one relay route. -/
theorem catalog_within_limits_sample :
    ∃ history state, RouteRun sampleConfig sampleInitial history state ∧
      state.relayRoutes.size = 1 ∧ state.directRoutes.length + state.flaggedCount ≤ 8 := by
  have hrun := RouteRun.call (.start : RouteRun sampleConfig sampleInitial [] _) 0
    (.publishConfirmed sampleConfirmed)
  rw [sampleInitial_publish] at hrun
  exact ⟨_, _, hrun, rfl, (catalog_within_limits sampleInitial_new hrun).1⟩

end AukiSdk.Routing
