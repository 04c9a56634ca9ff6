import AukiSdk.Discovery.ProviderGrammar
import AukiSdk.Discovery.PublisherSafety

/-!
# What an advertisement says

The candidate that a valid advertisement stands for.
-/

namespace AukiSdk.Discovery

open AukiSdk.Foundation List
open AukiSdk.Net
open AukiSdk.Relay
open AukiSdk.Routing

/-- A canonical direct route, or a canonical relay route to the peer. -/
def IsCanonicalRoute (peer : PeerId) (route : Multiaddr) : Prop :=
  IsDirectRoute route ∨ ∃ transport relay, IsRelayRoute route transport relay peer

theorem isNetwork_of_canonicalNetwork {network canonical : Protocol}
    (hcan : canonicalNetwork network = .ok canonical) : canonical.isNetwork = true := by
  cases network <;> simp only [canonicalNetwork] at hcan
  case ip4 address =>
    cases hcan
    rfl
  case ip6 address =>
    cases hcan
    rfl
  case dns host =>
    obtain ⟨found, -, rfl⟩ := Checks.map_eq_ok.mp hcan
    rfl
  case dns4 host =>
    obtain ⟨found, -, rfl⟩ := Checks.map_eq_ok.mp hcan
    rfl
  case dns6 host =>
    obtain ⟨found, -, rfl⟩ := Checks.map_eq_ok.mp hcan
    rfl
  all_goals cases hcan

variable {peer : PeerId}

theorem isCanonicalRoute_of_canonicalize {otherLength : String → ℕ} {route : Multiaddr}
    {stored : CanonicalCandidateRoute}
    (hst : canonicalizeCandidateRoute otherLength route peer = .ok stored) :
    IsCanonicalRoute peer stored.route := by
  simp only [canonicalizeCandidateRoute] at hst
  split at hst
  · cases hst
  · split at hst
    next direct hdir =>
      cases hst
      obtain ⟨network, port, canonical, hcan, -, rfl, -⟩ := canonicalizeDirectRoute_ok hdir
      exact .inl ⟨canonical, port, isNetwork_of_canonicalNetwork hcan, rfl⟩
    · cases hst
    · obtain ⟨⟨transport, relay, hrly, -⟩, -⟩ := canonicalizeRelayRoute_ok hst
      exact .inr ⟨transport, relay, hrly⟩
    · cases hst

theorem toText_directRoute (network : Protocol) (port : UInt16) :
    (Multiaddr.toText [network, .tcp port]).toList =
      (network.display ++ '/' :: "tcp".toList) ++ '/' :: Text.decimal port.toNat := by
  have htcp : (Protocol.tcp port).display =
      '/' :: ("tcp".toList ++ '/' :: Text.decimal port.toNat) := rfl
  rw [Multiaddr.toText, String.toList_ofList, flatMap_cons, flatMap_singleton, htcp,
    append_assoc, cons_append]

theorem toText_circuit (base : Multiaddr) (peer : PeerId) :
    ((base.with .p2pCircuit).with (.p2p peer)).toText.toList =
      ((base.toText.toList ++ "/p2p-circuit".toList) ++ '/' :: "p2p".toList) ++
        '/' :: peer.toText.toList := by
  have hcirc : Protocol.p2pCircuit.display = "/p2p-circuit".toList := rfl
  have hpeer : (Protocol.p2p peer).display = '/' :: ("p2p".toList ++ '/' :: peer.toText.toList) :=
    rfl
  have htext : ∀ address : Multiaddr, address.toText.toList = address.flatMap Protocol.display :=
    fun address => String.toList_ofList
  rw [htext, htext, Multiaddr.with, Multiaddr.with, flatMap_append, flatMap_append,
    flatMap_singleton, flatMap_singleton, hcirc, hpeer]
  generalize "/p2p-circuit".toList = circuit
  simp only [append_assoc, cons_append]

theorem toText_direct_ne_circuit {network : Protocol} {port : UInt16} {base : Multiaddr}
    (htext : Multiaddr.toText [network, .tcp port] =
      ((base.with .p2pCircuit).with (.p2p peer)).toText) : False := by
  have hcha := congrArg String.toList htext
  rw [toText_directRoute, toText_circuit] at hcha
  obtain ⟨hpre, -⟩ := Text.split_last_unique (Text.notMem_decimal (by decide) _)
    (notMem_slash_peerText peer) hcha
  obtain ⟨-, htag⟩ := Text.split_last_unique (by decide) (by decide) hpre
  exact absurd htag (by decide)

variable {right left : Multiaddr}

theorem eq_of_toText_circuit {leftTransport rightTransport : RelayBaseTransport}
    {leftRelay rightRelay : PeerId} (hleft : IsRelayRoute left leftTransport leftRelay peer)
    (hrgt : IsRelayRoute right rightTransport rightRelay peer)
    (htext : left.toText = right.toText) : left = right := by
  obtain ⟨leftBase, rfl, hlef, -⟩ := hleft
  obtain ⟨rightBase, rfl, hrig, -⟩ := hrgt
  have hcha := congrArg String.toList htext
  rw [toText_circuit, toText_circuit] at hcha
  have hbase : leftBase.toText = rightBase.toText := by
    rw [← String.toList_inj]
    exact append_cancel_right (append_cancel_right (append_cancel_right hcha))
  rw [canonicalizeProviderBase_iff] at hlef hrig
  -- The text of a base names its relay.
  have hrly : leftRelay = rightRelay := by
    obtain ⟨host, portText, transport, port, hraw, hhost, hport, -⟩ := hlef
    obtain ⟨host', portText', transport', port', hraw', hhost', hport', -⟩ := hrig
    have hsp := splitProviderBase_iff.mpr
      ⟨hraw, hhost, hport, notMem_slash_peerText leftRelay⟩
    have hsplit' := splitProviderBase_iff.mpr
      ⟨hraw', hhost', hport', notMem_slash_peerText rightRelay⟩
    rw [hbase, hsplit'] at hsp
    simp only [Option.some.injEq, Prod.mk.injEq] at hsp
    have hread := congrArg PeerId.fromStr hsp.2.2.2
    rw [PeerId.fromStr_toText, PeerId.fromStr_toText] at hread
    exact (Option.some.inj hread).symm
  rw [hrly] at hlef
  rw [hlef.eq_of_toText hrig hbase]

theorem IsCanonicalRoute.eq_of_toText (hleft : IsCanonicalRoute peer left)
    (hrgt : IsCanonicalRoute peer right) (htext : left.toText = right.toText) : left = right := by
  obtain hdir | ⟨transport, relay, hrly⟩ := hleft
  · obtain hdirect' | ⟨transport', relay', hrelay'⟩ := hrgt
    · exact hdir.eq_of_toText hdirect' htext
    · obtain ⟨network, port, -, rfl⟩ := hdir
      obtain ⟨base, rfl, -⟩ := hrelay'
      exact (toText_direct_ne_circuit htext).elim
  · obtain hdirect' | ⟨transport', relay', hrelay'⟩ := hrgt
    · obtain ⟨network, port, -, rfl⟩ := hdirect'
      obtain ⟨base, rfl, -⟩ := hrly
      exact (toText_direct_ne_circuit htext.symm).elim
    · exact eq_of_toText_circuit hrly hrelay' htext

theorem sortedUniqueRoutes_textBefore {routes : List Multiaddr}
    (hcan : ∀ route ∈ routes, IsCanonicalRoute peer route) :
    (sortedUniqueRoutes routes).Pairwise TextBefore := by
  have hsort : (sortedUniqueRoutes routes).Pairwise
      fun left right => left.toText ≤ right.toText :=
    (pairwise_insertionSort _ routes).sublist (destutter_sublist _ _)
  have hcha : (sortedUniqueRoutes routes).IsChain (· ≠ ·) := isChain_destutter _ _
  have hm : ∀ route ∈ sortedUniqueRoutes routes, IsCanonicalRoute peer route :=
    fun route hrt => hcan route (mem_of_mem_sortedUniqueRoutes hrt)
  rw [← isChain_iff_pairwise, isChain_iff_getElem]
  intro index hidx
  refine lt_of_le_of_ne
    (pairwise_iff_getElem.mp hsort index (index + 1) _ hidx (Nat.lt_succ_self _)) ?_
  intro htext
  exact hcha.getElem index hidx
    ((hm _ (getElem_mem _)).eq_of_toText (hm _ (getElem_mem _)) htext)

variable (parseMultiaddr : String → Option Multiaddr) (otherLength : String → ℕ)

/-- An advertisement of a peer within the limits, whose routes and protocols are valid. -/
structure IsValidAdvertisement (wire : WireAdvertisement) (peer : PeerId) : Prop where
  peerId : PeerId.fromStr wire.peerId = some peer
  nonempty : wire.routes ≠ []
  routeLimit : wire.routes.length ≤ maxRoutes
  routes : ∀ text ∈ wire.routes, byteLength text.toList ≤ candidateRouteMaxBytes ∧
    ∃ route stored, parseMultiaddr text = some route ∧
      canonicalizeCandidateRoute otherLength route peer = .ok stored
  protocolLimit : wire.protocols.length ≤ maxProtocols
  protocols : ∀ value ∈ wire.protocols, isApplicationProtocol value = true

/-- The candidate that an advertisement stands for. -/
structure Advertises (wire : WireAdvertisement) (candidate : AukiDiscoveryCandidate) : Prop where
  valid : IsValidAdvertisement parseMultiaddr otherLength wire candidate.peerId
  routes : ∀ route, route ∈ candidate.routes ↔
    ∃ text ∈ wire.routes, ∃ parsed stored, parseMultiaddr text = some parsed ∧
      canonicalizeCandidateRoute otherLength parsed candidate.peerId = .ok stored ∧
      stored.route = route
  routesSorted : candidate.routes.Pairwise TextBefore
  protocols : ∀ value, value ∈ candidate.servedProtocols ↔ value ∈ wire.protocols
  protocolsSorted : candidate.servedProtocols.Pairwise (· < ·)
  expiresAt : candidate.expiresAt = wire.expiresAt
  subjectId : candidate.subjectId = wire.subjectId
  subjectSize : ∀ subject, candidate.subjectId = some subject →
    subject ≠ "" ∧ byteLength subject.toList ≤ maxSubjectBytes
  peerType : candidate.peerType =
    (wire.peerType.map trim).filter fun value => !value.isEmpty

variable {parseMultiaddr : String → Option Multiaddr} {otherLength : String → ℕ}

theorem eq_of_pairwise_of_mem_iff {α : Type*} {before : α → α → Prop}
    (hasy : ∀ {left right}, before left right → ¬ before right left) {left right : List α}
    (hleft : left.Pairwise before) (hrgt : right.Pairwise before)
    (hm : ∀ entry, entry ∈ left ↔ entry ∈ right) : left = right := by
  have hnd : ∀ {entries : List α}, entries.Pairwise before → entries.Nodup := by
    intro entries hents
    refine hents.imp fun hpre hsm => ?_
    rw [hsm] at hpre
    exact hasy hpre hpre
  have hperm := (perm_ext_iff_of_nodup (hnd hleft) (hnd hrgt)).mpr hm
  exact hperm.eq_of_pairwise (fun _ _ _ _ hlt hgt => (hasy hlt hgt).elim) hleft hrgt

theorem TextBefore.asymm (hpre : TextBefore left right) : ¬ TextBefore right left :=
  lt_asymm hpre

theorem Advertises.unique {wire : WireAdvertisement} {left right : AukiDiscoveryCandidate}
    (hleft : Advertises parseMultiaddr otherLength wire left)
    (hrgt : Advertises parseMultiaddr otherLength wire right) : left = right := by
  obtain ⟨peerId, routes, servedProtocols, expiresAt, subjectId, peerType⟩ := left
  obtain ⟨peerId', routes', servedProtocols', expiresAt', subjectId', peerType'⟩ := right
  have hpeer := Option.some.inj (hleft.valid.peerId.symm.trans hrgt.valid.peerId)
  dsimp only at hpeer
  subst hpeer
  have hrts : routes = routes' :=
    eq_of_pairwise_of_mem_iff TextBefore.asymm hleft.routesSorted hrgt.routesSorted
      fun route => (hleft.routes route).trans (hrgt.routes route).symm
  have hpro : servedProtocols = servedProtocols' :=
    eq_of_pairwise_of_mem_iff lt_asymm hleft.protocolsSorted hrgt.protocolsSorted
      fun value => (hleft.protocols value).trans (hrgt.protocols value).symm
  have hexp := hleft.expiresAt.trans hrgt.expiresAt.symm
  have hsub := hleft.subjectId.trans hrgt.subjectId.symm
  have htype := hleft.peerType.trans hrgt.peerType.symm
  dsimp only at hexp hsub htype
  rw [hrts, hpro, hexp, hsub, htype]

variable {operation : String}

theorem parseRoute_size {value : String} {route : Multiaddr}
    (hrt : parseRoute parseMultiaddr operation value = .ok route) :
    byteLength value.toList ≤ candidateRouteMaxBytes := by
  rw [parseRoute] at hrt
  split at hrt
  · cases hrt
  next hsize => exact Nat.not_lt.mp hsize

theorem canonicalizeProtocols_ok {protocols canonical : List String}
    (hcan : canonicalizeProtocols protocols operation = .ok canonical) :
    protocols.length ≤ maxProtocols ∧ (∀ value ∈ protocols, isApplicationProtocol value = true) ∧
      (∀ value, value ∈ canonical ↔ value ∈ protocols) ∧ canonical.Pairwise (· < ·) := by
  rw [canonicalizeProtocols] at hcan
  split at hcan
  · cases hcan
  next hlim =>
    obtain ⟨validated, hvld, hsort⟩ := Checks.map_eq_ok.mp hcan
    have hfor := Checks.mapM_eq_ok.mp hvld
    have hsm : validated = protocols := by
      have heq := hfor.imp fun _ _ hvalid => (validateProtocol_ok hvalid).1.symm
      exact (forall₂_eq_eq_eq ▸ heq).symm
    have huniq : canonical = sortedUnique protocols := by
      rw [← hsort, hsm, sortedUnique]
    refine ⟨Nat.not_lt.mp hlim, ?_, ?_, ?_⟩
    · intro value hval
      obtain ⟨stored, -, hst⟩ := exists_mapM_ok_of_mem hvld hval
      exact (validateProtocol_ok hst).2
    · intro value
      rw [huniq, mem_sortedUnique]
    · rw [huniq]
      exact sortedUnique_strict protocols

/-- The canonical routes of an advertisement. -/
structure ReadsRoutes (parseMultiaddr : String → Option Multiaddr) (otherLength : String → ℕ)
    (texts : List String) (peer : PeerId) (routes : List Multiaddr) : Prop where
  limit : texts.length ≤ maxRoutes
  valid : ∀ text ∈ texts, byteLength text.toList ≤ candidateRouteMaxBytes ∧
    ∃ route stored, parseMultiaddr text = some route ∧
      canonicalizeCandidateRoute otherLength route peer = .ok stored
  mem : ∀ route, route ∈ routes ↔ ∃ text ∈ texts, ∃ parsed stored,
    parseMultiaddr text = some parsed ∧
    canonicalizeCandidateRoute otherLength parsed peer = .ok stored ∧ stored.route = route
  sorted : routes.Pairwise TextBefore

theorem canonicalizeRoutes_ok {texts : List String} {parsed routes : List Multiaddr}
    (hparsed : texts.mapM (parseRoute parseMultiaddr operation) = .ok parsed)
    (hrts : canonicalizeRoutes otherLength peer parsed operation = .ok routes) :
    ReadsRoutes parseMultiaddr otherLength texts peer routes := by
  rw [canonicalizeRoutes] at hrts
  split at hrts
  · cases hrts
  next hlim =>
    obtain ⟨canonical, hcan, rfl⟩ := Checks.map_eq_ok.mp hrts
    have hlen := (Checks.mapM_eq_ok.mp hparsed).length_eq
    have hread : ∀ text ∈ texts, ∃ route stored, route ∈ parsed ∧ stored.route ∈ canonical ∧
        parseRoute parseMultiaddr operation text = .ok route ∧
        canonicalizeCandidateRoute otherLength route peer = .ok stored := by
      intro text htext
      obtain ⟨route, hrt, hprs⟩ := exists_mapM_ok_of_mem hparsed htext
      obtain ⟨result, hres, hmap⟩ := exists_mapM_ok_of_mem hcan hrt
      obtain ⟨stored, hst, rfl⟩ := canonicalizeRoute_ok hmap
      exact ⟨route, stored, hrt, hres, hprs, hst⟩
    constructor
    · rw [hlen]
      exact Nat.not_lt.mp hlim
    · intro text htext
      obtain ⟨route, stored, -, -, hprs, hst⟩ := hread text htext
      exact ⟨parseRoute_size hprs, route, stored, parseRoute_ok hprs, hst⟩
    · intro route
      constructor
      · intro hrt
        obtain ⟨found, hf, hmap⟩ := exists_of_mem_mapM_ok hcan (mem_of_mem_sortedUniqueRoutes hrt)
        obtain ⟨text, htext, hprs⟩ := exists_of_mem_mapM_ok hparsed hf
        obtain ⟨stored, hst, hsm⟩ := canonicalizeRoute_ok hmap
        exact ⟨text, htext, found, stored, parseRoute_ok hprs, hst, hsm⟩
      · rintro ⟨text, htext, found, stored, hf, hst, rfl⟩
        obtain ⟨route, stored', -, hm, hprs, hstored'⟩ := hread text htext
        cases (parseRoute_ok hprs).symm.trans hf
        cases hstored'.symm.trans hst
        exact mem_sortedUniqueRoutes hm
    · have hfor : ∀ route ∈ canonical, IsCanonicalRoute peer route := by
        intro route hrt
        obtain ⟨found, -, hmap⟩ := exists_of_mem_mapM_ok hcan hrt
        obtain ⟨stored, hst, rfl⟩ := canonicalizeRoute_ok hmap
        exact isCanonicalRoute_of_canonicalize hst
      exact sortedUniqueRoutes_textBefore hfor

/-- Validation accepts valid advertisements, and returns unexpired candidates. -/
theorem validateAdvertisement_reads {now : DateTime} {wire : WireAdvertisement}
    {result : Option AukiDiscoveryCandidate}
    (hres : validateAdvertisement parseMultiaddr otherLength now wire operation = .ok result) :
    (∃ peer, IsValidAdvertisement parseMultiaddr otherLength wire peer) ∧
      (result = none ∧ wire.expiresAt ≤ now ∨
        ∃ candidate, result = some candidate ∧ now < wire.expiresAt ∧
          Advertises parseMultiaddr otherLength wire candidate) := by
  rw [validateAdvertisement] at hres
  cases hpeer : PeerId.fromStr wire.peerId with
  | none =>
    rw [hpeer] at hres
    cases hres
  | some peer =>
    rw [hpeer] at hres
    obtain ⟨parsed, hparsed, hres⟩ := Checks.bind_eq_ok.mp hres
    obtain ⟨routes, hrts, hres⟩ := Checks.bind_eq_ok.mp hres
    have hrds := canonicalizeRoutes_ok hparsed hrts
    by_cases hemp : routes.isEmpty = true
    · rw [if_pos hemp] at hres
      cases hres
    · rw [if_neg hemp] at hres
      obtain ⟨servedProtocols, hpro, hres⟩ := Checks.bind_eq_ok.mp hres
      obtain ⟨hlim, happ, hm, hsort⟩ := canonicalizeProtocols_ok hpro
      have hnon : wire.routes ≠ [] := by
        rintro hnone
        apply hemp
        rw [List.isEmpty_iff, eq_nil_iff_forall_not_mem]
        intro route hrt
        obtain ⟨text, htext, -⟩ := (hrds.mem route).mp hrt
        rw [hnone] at htext
        cases htext
      have hvalid : IsValidAdvertisement parseMultiaddr otherLength wire peer :=
        ⟨hpeer, hnon, hrds.limit, hrds.valid, hlim, happ⟩
      refine ⟨⟨peer, hvalid⟩, ?_⟩
      by_cases hexp : wire.expiresAt ≤ now
      · rw [if_pos hexp] at hres
        cases hres
        exact .inl ⟨rfl, hexp⟩
      · rw [if_neg hexp] at hres
        split at hres
        · cases hres
        next hsub =>
          cases hres
          refine .inr ⟨_, rfl, not_le.mp hexp, hvalid, hrds.mem, hrds.sorted, hm,
            hsort, rfl, rfl, ?_, rfl⟩
          intro subject hsome
          dsimp only at hsome
          rw [hsome] at hsub
          simpa using hsub

end AukiSdk.Discovery
