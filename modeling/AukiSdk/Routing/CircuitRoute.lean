import AukiSdk.Relay.Provider

/-!
# Validation of advertised routes

Direct routes are an address with a TCP port, relay routes a base with a circuit.
-/

namespace AukiSdk.Routing

open AukiSdk.Foundation List
open AukiSdk.Net
open AukiSdk.Relay

inductive RouteCatalogError where
  | routeLimitExceeded (maximum : ℕ)
  | circuitRouteLimitExceeded (maximum : ℕ)
  | invalidDirectRoute (reason : String)
  | invalidRelayRoute (reason : String)
  | relayAuthorizationExpired
  | relaySlotOccupied
  | staleRouteFence
  | routeNotFound
  | duplicateRelayRoute
  | revisionExhausted
  deriving DecidableEq

structure RelayCircuitRoutes where
  tcp : Multiaddr
  wss : Multiaddr
  deriving DecidableEq

structure CanonicalCircuitRoute where
  route : Multiaddr
  relayPeerId : PeerId
  endpointKey : String
  deriving DecidableEq

def validateDirectRoute (route : Multiaddr) (expectedPeerId : PeerId) :
    Except RouteCatalogError Multiaddr :=
  match route with
  | [network, .tcp port] => checkDirect network port none
  | [network, .tcp port, .p2p peerId] => checkDirect network port (some peerId)
  | _ => .error (.invalidDirectRoute "expected exact address/tcp[/p2p] grammar")
where
  checkDirect (network : Protocol) (port : UInt16) (suffix : Option PeerId) :
      Except RouteCatalogError Multiaddr :=
    if ¬network.isNetwork then
      .error (.invalidDirectRoute "the address must be ip4, ip6, dns, dns4, or dns6")
    else if port = 0 then
      .error (.invalidDirectRoute "TCP port must be non-zero")
    else if suffix.any (· ≠ expectedPeerId) then
      .error (.invalidDirectRoute
        "the terminal p2p component must match the expected Peer ID")
    else if suffix.isSome then
      .ok (Multiaddr.pop route).2
    else
      .ok route

/-- `sorted_unique_routes`: sorted by text, adjacent duplicates removed. -/
def sortedUniqueRoutes (routes : List Multiaddr) : List Multiaddr :=
  (sortByText routes).destutter (· ≠ ·)

def validateAndSortDirectRoutes (routes : List Multiaddr) (localPeerId : PeerId)
    (maximum : ℕ) : Except RouteCatalogError (List Multiaddr) :=
  match routes.mapM (validateDirectRoute · localPeerId) with
  | .error error => .error error
  | .ok validated =>
    let sorted := sortedUniqueRoutes validated
    if sorted.length > maximum then
      .error (.routeLimitExceeded maximum)
    else
      .ok sorted

/-- The limits with which provider bases are validated. -/
def validationLimits : Except RouteCatalogError ExpectedRelayLimits :=
  (ExpectedRelayLimits.new (Duration.fromSecs 1) 1).mapError fun error =>
    .invalidRelayRoute error.toText

/-- The provider of one base, validated for `transport`. -/
def validationProvider (relayPeerId : PeerId) (base : String)
    (transport : RelayBaseTransport) : Except RouteCatalogError RelayProvider :=
  match validationLimits with
  | .error error => .error error
  | .ok limits =>
    (RelayProvider.newForTransport relayPeerId [base] transport limits).mapError
      fun error => .invalidRelayRoute error.toText

def canonicalizeCircuitRoute (route : Multiaddr) (expectedTargetPeerId : PeerId) :
    Except RouteCatalogError CanonicalCircuitRoute :=
  match route with
  | [.dns4 host, .tcp port, .p2p relayPeerId, .p2pCircuit, .p2p targetPeerId] =>
    if targetPeerId ≠ expectedTargetPeerId then
      .error (.invalidRelayRoute "route target Peer ID does not match the expected node")
    else
      let base := "/dns4/" ++ host ++ "/tcp/" ++ toString port.toNat ++ "/p2p/" ++
        relayPeerId.toText
      match validationProvider relayPeerId base .tcp with
      | .error error => .error error
      | .ok provider =>
        let canonicalBase := provider.selectedBase
        match canonicalBase with
        | [.dns4 canonicalHost, .tcp canonicalPort, .p2p _] =>
          .ok ⟨(canonicalBase.with .p2pCircuit).with (.p2p targetPeerId), relayPeerId,
            "/dns4/" ++ canonicalHost ++ "/tcp/" ++ toString canonicalPort.toNat⟩
        | _ =>
          .error (.invalidRelayRoute
            "canonical relay provider base has unexpected grammar")
  | _ =>
    .error (.invalidRelayRoute "expected exact dns4/tcp/p2p/p2p-circuit/p2p grammar")

def validateCircuitRoute (route : Multiaddr)
    (expectedRelayPeerId expectedTargetPeerId : PeerId) :
    Except RouteCatalogError (PeerId × String) :=
  match canonicalizeCircuitRoute route expectedTargetPeerId with
  | .error error => .error error
  | .ok canonical =>
    if canonical.relayPeerId ≠ expectedRelayPeerId then
      .error (.invalidRelayRoute "route relay Peer ID does not match the reservation")
    else if canonical.route ≠ route then
      .error (.invalidRelayRoute "relay route is not canonical")
    else
      .ok (canonical.relayPeerId, canonical.endpointKey)

def validateWssCircuitRoute (route : Multiaddr)
    (expectedRelayPeerId expectedTargetPeerId : PeerId) : Except RouteCatalogError String :=
  match Multiaddr.pop route with
  | (some (.p2p targetPeerId), rest) =>
    if targetPeerId ≠ expectedTargetPeerId then
      .error (.invalidRelayRoute
        "WSS route target Peer ID does not match the expected node")
    else
      match Multiaddr.pop rest with
      | (some .p2pCircuit, providerBase) =>
        match validationProvider expectedRelayPeerId providerBase.toText .wss with
        | .error error => .error error
        | .ok provider =>
          match provider.circuitRouteForTransport .wss targetPeerId with
          | .error error => .error (.invalidRelayRoute error.toText)
          | .ok canonical =>
            if canonical ≠ route then
              .error (.invalidRelayRoute "WSS relay route is not canonical")
            else
              match Multiaddr.pop provider.selectedBase with
              | (some (.p2p _), endpoint) => .ok endpoint.toText
              | _ =>
                .error (.invalidRelayRoute
                  "canonical WSS provider base omitted its Peer ID")
      | _ => .error (.invalidRelayRoute "WSS route is missing p2p-circuit")
  | _ => .error (.invalidRelayRoute "WSS route is missing its target Peer ID")

def validateRelayCircuitRoutes (tcp wss : Multiaddr) (expectedTargetPeerId : PeerId) :
    Except RouteCatalogError RelayCircuitRoutes :=
  match canonicalizeCircuitRoute tcp expectedTargetPeerId with
  | .error error => .error error
  | .ok canonicalTcp =>
    if canonicalTcp.route ≠ tcp then
      .error (.invalidRelayRoute "TCP relay route is not canonical")
    else
      match validateWssCircuitRoute wss canonicalTcp.relayPeerId expectedTargetPeerId with
      | .error error => .error error
      | .ok _ => .ok ⟨tcp, wss⟩

/-- The grammar of a validated direct route. -/
def IsDirectRoute (route : Multiaddr) : Prop :=
  ∃ network port, network.isNetwork = true ∧ route = [network, .tcp port]

/-- `route` ends at `peer`. -/
def TerminatesAt (peer : PeerId) (route : Multiaddr) : Prop :=
  route.getLast? = some (.p2p peer)

theorem terminatesAt_circuit (base : Multiaddr) (peer : PeerId) :
    TerminatesAt peer ((base.with .p2pCircuit).with (.p2p peer)) := by
  simp [TerminatesAt, Multiaddr.with]

variable {route : Multiaddr}

theorem isDirectRoute_of_validateDirectRoute {canonical : Multiaddr} {peer : PeerId}
    (hvalid : validateDirectRoute route peer = .ok canonical) : IsDirectRoute canonical := by
  have hche : ∀ network port suffix, route = [network, .tcp port] ++ suffix.toList.map .p2p →
      validateDirectRoute.checkDirect route peer network port suffix = .ok canonical →
      IsDirectRoute canonical := by
    intro network port suffix hrt hchk
    unfold validateDirectRoute.checkDirect at hchk
    split at hchk
    · cases hchk
    · rename_i hnet
      rw [not_not] at hnet
      refine ⟨network, port, hnet, ?_⟩
      subst hrt
      cases suffix <;> grind [Multiaddr.pop]
  unfold validateDirectRoute at hvalid
  split at hvalid
  · exact hche _ _ none rfl hvalid
  · exact hche _ _ (some _) rfl hvalid
  · cases hvalid

theorem IsDirectRoute.eq_of_toText {left right : Multiaddr} (hleft : IsDirectRoute left)
    (hrgt : IsDirectRoute right) (heq : left.toText = right.toText) : left = right := by
  obtain ⟨leftNetwork, leftPort, hlef, rfl⟩ := hleft
  obtain ⟨rightNetwork, rightPort, hrig, rfl⟩ := hrgt
  obtain ⟨rfl, rfl⟩ := Multiaddr.toText_injective_of_network_tcp hlef hrig heq
  rfl

/-- The strict order direct routes are kept in. -/
def TextBefore (left right : Multiaddr) : Prop :=
  left.toText < right.toText

instance : Trans TextBefore TextBefore TextBefore := ⟨lt_trans⟩

instance : DecidableRel TextBefore :=
  fun left right => inferInstanceAs (Decidable (left.toText < right.toText))

variable {routes : List Multiaddr}

theorem mem_of_mem_sortedUniqueRoutes (hm : route ∈ sortedUniqueRoutes routes) : route ∈ routes :=
  (mem_insertionSort _).mp ((destutter_sublist _ _).subset hm)

theorem sortedUniqueRoutes_strict (hdir : ∀ route ∈ routes, IsDirectRoute route) :
    (sortedUniqueRoutes routes).Pairwise TextBefore := by
  have hsort : (sortedUniqueRoutes routes).Pairwise
      fun left right => left.toText ≤ right.toText :=
    (pairwise_insertionSort _ routes).sublist (destutter_sublist _ _)
  have hcha : (sortedUniqueRoutes routes).IsChain (· ≠ ·) := isChain_destutter _ _
  have hm : ∀ route ∈ sortedUniqueRoutes routes, IsDirectRoute route :=
    fun route hrt => hdir route (mem_of_mem_sortedUniqueRoutes hrt)
  rw [← isChain_iff_pairwise, isChain_iff_getElem]
  intro index hidx
  refine lt_of_le_of_ne
    (pairwise_iff_getElem.mp hsort index (index + 1) _ hidx (Nat.lt_succ_self _)) ?_
  intro htext
  exact hcha.getElem index hidx
    ((hm _ (getElem_mem _)).eq_of_toText (hm _ (getElem_mem _)) htext)

/-- Every result of a successful `mapM` is the result of one input. -/
theorem exists_of_mem_mapM_ok {α β ε : Type} {f : α → Except ε β} {inputs : List α}
    {results : List β} (hmap : inputs.mapM f = .ok results) {result : β}
    (hm : result ∈ results) : ∃ input ∈ inputs, f input = .ok result := by
  induction inputs generalizing results with
  | nil =>
    cases hmap
    cases hm
  | cons input inputs ih =>
    rw [mapM_cons] at hmap
    cases hhead : f input with
    | error error =>
      rw [hhead] at hmap
      cases hmap
    | ok head =>
      cases htail : inputs.mapM f with
      | error error =>
        rw [hhead, htail] at hmap
        cases hmap
      | ok tail =>
        rw [hhead, htail] at hmap
        cases hmap
        rcases mem_cons.mp hm with rfl | hm
        · exact ⟨input, mem_cons_self, hhead⟩
        · obtain ⟨found, hf, hres⟩ := ih htail hm
          exact ⟨found, mem_cons_of_mem _ hf, hres⟩

/-- Validated direct routes are at most `maximum` and strictly sorted. -/
theorem validateAndSortDirectRoutes_ok {sorted : List Multiaddr} {localPeerId : PeerId}
    {maximum : ℕ} (hvalid : validateAndSortDirectRoutes routes localPeerId maximum = .ok sorted) :
    sorted.length ≤ maximum ∧ sorted.Pairwise TextBefore := by
  unfold validateAndSortDirectRoutes at hvalid
  split at hvalid
  · cases hvalid
  · rename_i validated hval
    simp only at hvalid
    split at hvalid
    · cases hvalid
    · rename_i hlen
      cases hvalid
      refine ⟨Nat.le_of_not_lt hlen, sortedUniqueRoutes_strict fun route hm => ?_⟩
      obtain ⟨raw, -, hraw⟩ := exists_of_mem_mapM_ok hval hm
      exact isDirectRoute_of_validateDirectRoute hraw

variable {target : PeerId}

theorem terminatesAt_of_canonicalizeCircuitRoute {canonical : CanonicalCircuitRoute}
    (hcan : canonicalizeCircuitRoute route target = .ok canonical) :
    TerminatesAt target canonical.route := by
  unfold canonicalizeCircuitRoute at hcan
  split at hcan
  · split at hcan
    · cases hcan
    · rename_i htgt
      rw [not_not] at htgt
      simp only at hcan
      split at hcan
      · cases hcan
      · split at hcan
        · cases hcan
          rw [htgt]
          exact terminatesAt_circuit _ _
        · cases hcan
  · cases hcan

theorem validateCircuitRoute_ok {relay relay' : PeerId} {endpoint : String}
    (hvalid : validateCircuitRoute route relay target = .ok (relay', endpoint)) :
    relay' = relay ∧ TerminatesAt target route := by
  unfold validateCircuitRoute at hvalid
  split at hvalid
  · cases hvalid
  · rename_i canonical hcan
    split at hvalid
    · cases hvalid
    · rename_i hrly
      split at hvalid
      · cases hvalid
      · rename_i hrt
        cases hvalid
        rw [not_not] at hrly hrt
        refine ⟨hrly, ?_⟩
        rw [← hrt]
        exact terminatesAt_of_canonicalizeCircuitRoute hcan

theorem terminatesAt_of_validateWssCircuitRoute {relay : PeerId} {endpoint : String}
    (hvalid : validateWssCircuitRoute route relay target = .ok endpoint) :
    TerminatesAt target route := by
  unfold validateWssCircuitRoute at hvalid
  split at hvalid
  · rename_i targetPeerId rest hpop
    split at hvalid
    · cases hvalid
    · rename_i htgt
      rw [not_not] at htgt
      rw [TerminatesAt, ← htgt]
      exact congrArg Prod.fst hpop
  · cases hvalid

end AukiSdk.Routing
