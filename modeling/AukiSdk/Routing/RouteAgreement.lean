import AukiSdk.Routing.CandidateRoute

/-!
# Agreement of the relay route parsers

Dialing, publication and candidate hints accept one language of relay routes.
-/

namespace AukiSdk.Routing

open AukiSdk.Foundation List
open AukiSdk.Net
open AukiSdk.Relay

/-- A canonical provider base, followed by a circuit to the target. -/
def IsRelayRoute (route : Multiaddr) (transport : RelayBaseTransport)
    (relay target : PeerId) : Prop :=
  ∃ base : Multiaddr, route = (base.with .p2pCircuit).with (.p2p target) ∧
    canonicalizeProviderBase base.toText relay = .ok base ∧
    providerBaseTransport base = some transport

variable {raw : String} {base : Multiaddr} {relay : PeerId}

theorem canonicalizeProviderBase_ok (hbase : canonicalizeProviderBase raw relay = .ok base) :
    ∃ rawHost host port transport, canonicalizeFqdn rawHost = some host ∧
      base = providerBase host port transport relay := by
  simp only [canonicalizeProviderBase] at hbase
  split at hbase
  · cases hbase
  · rename_i rawHost rawPort transport rawPeerId _
    split at hbase
    · cases hbase
    · rename_i host hhost
      split at hbase
      · cases hbase
      · rename_i port _
        split at hbase
        · cases hbase
        · split at hbase
          · cases hbase
          · cases hbase
            exact ⟨rawHost, host, port, transport, hhost, rfl⟩

variable (host : String)

theorem providerBaseTransport_providerBase (port : UInt16) (transport : RelayBaseTransport)
    (peer : PeerId) :
    providerBaseTransport (providerBase host port transport peer) = some transport := by
  cases transport <;> rfl

theorem getLast?_providerBase (port : UInt16) (transport : RelayBaseTransport) (peer : PeerId) :
    (providerBase host port transport peer).getLast? = some (.p2p peer) := by
  cases transport <;> rfl

theorem canonicalBase_shape (hbase : canonicalizeProviderBase raw relay = .ok base) :
    base.getLast? = some (.p2p relay) ∧ ∃ transport, providerBaseTransport base = some transport := by
  obtain ⟨_, host, port, transport, -, rfl⟩ := canonicalizeProviderBase_ok hbase
  exact ⟨getLast?_providerBase host port transport relay, transport,
    providerBaseTransport_providerBase host port transport relay⟩

theorem pop_with (base : Multiaddr) (protocol : Protocol) :
    Multiaddr.pop (base.with protocol) = (some protocol, base) := by
  simp [Multiaddr.pop, Multiaddr.with]

variable {protocol : Protocol} {route : Multiaddr}

theorem with_of_pop {rest : Multiaddr} (hpop : Multiaddr.pop route = (some protocol, rest)) :
    route = rest.with protocol := by
  simp only [Multiaddr.pop, Prod.mk.injEq] at hpop
  rw [Multiaddr.with, ← hpop.2]
  exact (dropLast_append_getLast? protocol hpop.1).symm

theorem with_getLast? (hlast : base.getLast? = some protocol) :
    (Multiaddr.pop base).2.with protocol = base :=
  dropLast_append_getLast? protocol hlast

theorem with_injective {left right : Multiaddr} {first second : Protocol}
    (heq : left.with first = right.with second) : left = right ∧ first = second := by
  obtain ⟨hbase, hlast⟩ := append_inj' heq rfl
  exact ⟨hbase, singleton_inj.mp hlast⟩

theorem with_of_getLast? (hlast : (Multiaddr.pop route).1 = some protocol) :
    route = (Multiaddr.pop route).2.with protocol :=
  with_of_pop (Prod.ext hlast rfl)

variable {target : PeerId}

theorem parseRelayRoute_ok_iff : (∃ direct, parseRelayRoute route = .ok ⟨relay, target, direct⟩) ↔
      ∃ transport, IsRelayRoute route transport relay target := by
  constructor
  · rintro ⟨direct, hprs⟩
    simp only [parseRelayRoute] at hprs
    split at hprs
    · rename_i htgt hcirc hrly
      split at hprs
      · cases hprs
      · rename_i canonical hcan
        split at hprs
        · cases hprs
        · rename_i hrt
          rw [not_not] at hrt
          cases hprs
          obtain ⟨-, transport, htrn⟩ := canonicalBase_shape hcan
          refine ⟨transport, canonical, hrt.symm, ?_, htrn⟩
          -- The canonical base is the one that was cut off the route.
          have hcut := hrt.trans ((with_of_getLast? htgt).trans
            (congrArg (Multiaddr.with · _) (with_of_getLast? hcirc)))
          have hbase : canonical = _ := (with_injective (with_injective hcut).1).1
          rw [← with_of_getLast? hrly, ← hbase] at hcan
          exact hcan
    · cases hprs
  · rintro ⟨transport, base, rfl, hbase, htrn⟩
    obtain ⟨hlast, -⟩ := canonicalBase_shape hbase
    refine ⟨(Multiaddr.pop base).2, ?_⟩
    simp only [parseRelayRoute, pop_with]
    have hrly : (Multiaddr.pop base).1 = some (.p2p relay) := hlast
    simp only [hrly, with_getLast? hlast, hbase, ne_eq, not_true_eq_false, if_false]

variable {transport : RelayBaseTransport}

theorem isRootWss_of_transport (htrn : providerBaseTransport base = some transport) :
    base.any isRootWss = true ↔ transport = .wss := by
  simp only [providerBaseTransport] at htrn
  split at htrn
  · cases htrn
    simp [isRootWss]
  · split at htrn
    · rename_i hpath
      cases htrn
      simp [isRootWss, hpath]
    · cases htrn
  · cases htrn

theorem parseBrowserRelayRoute_ok_iff : (∃ direct circuit,
      parseBrowserRelayRoute route = .ok ⟨relay, target, direct, circuit⟩) ↔
      IsRelayRoute route .wss relay target := by
  constructor
  · rintro ⟨direct, circuit, hprs⟩
    simp only [parseBrowserRelayRoute] at hprs
    split at hprs
    · rename_i targetPeerId withoutTarget htgt
      split at hprs
      · rename_i base hcirc
        split at hprs
        · rename_i relayPeerId hrly
          split at hprs
          · cases hprs
          · rename_i canonical hcan
            split at hprs
            · cases hprs
            · rename_i hexa
              split at hprs
              · cases hprs
              · rename_i hrt
                rw [not_or, not_not, not_not] at hexa
                rw [not_not] at hrt
                cases hprs
                obtain ⟨-, transport, htrn⟩ := canonicalBase_shape hcan
                have hwss := (isRootWss_of_transport htrn).mp hexa.2
                rw [hwss] at htrn
                rw [← hexa.1] at hcan
                exact ⟨canonical, hrt.symm, hcan, htrn⟩
        · cases hprs
      · cases hprs
    · cases hprs
  · rintro ⟨base, rfl, hbase, htrn⟩
    obtain ⟨hlast, -⟩ := canonicalBase_shape hbase
    have hwss := (isRootWss_of_transport htrn).mpr rfl
    refine ⟨(Multiaddr.pop base).2, base.with .p2pCircuit, ?_⟩
    simp [parseBrowserRelayRoute, pop_with, hlast, hbase, hwss]

/-- The candidate kind of a relay transport. -/
def transportKind : RelayBaseTransport → CandidateRouteKind
  | .tcp => .relayTcp
  | .wss => .relayWss

theorem relayRouteKind_of_transport (htrn : providerBaseTransport base = some transport) :
    relayRouteKind base = some (transportKind transport) := by
  simp only [providerBaseTransport] at htrn
  split at htrn
  · cases htrn
    rfl
  · split at htrn
    · rename_i hpath
      cases htrn
      exact if_pos hpath
    · cases htrn
  · cases htrn

theorem canonicalizeRelayRoute_self_iff {kind : CandidateRouteKind} :
    canonicalizeRelayRoute route target = .ok ⟨route, kind⟩ ↔
      ∃ transport relay, IsRelayRoute route transport relay target ∧
        kind = transportKind transport := by
  constructor
  · intro hcan
    simp only [canonicalizeRelayRoute] at hcan
    split at hcan
    · rename_i targetPeerId rest htgt
      split at hcan
      · cases hcan
      · rename_i hsm
        rw [not_not] at hsm
        subst hsm
        split at hcan
        · rename_i base hcirc
          split at hcan
          · rename_i relayPeerId hrly
            split at hcan
            · cases hcan
            · rename_i canonical hbase
              split at hcan
              · cases hcan
              · rename_i found hkind
                rw [Except.ok.injEq, CanonicalCandidateRoute.mk.injEq] at hcan
                obtain ⟨hrt, rfl⟩ := hcan
                obtain ⟨-, transport, htrn⟩ := canonicalBase_shape hbase
                rw [relayRouteKind_of_transport htrn] at hkind
                have hcut := hrt.trans ((with_of_pop htgt).trans
                  (congrArg (Multiaddr.with · _) (with_of_pop hcirc)))
                have hexa : canonical = base := (with_injective (with_injective hcut).1).1
                rw [← hexa] at hbase
                exact ⟨transport, relayPeerId, ⟨canonical, hrt.symm, hbase, htrn⟩,
                  (Option.some.inj hkind).symm⟩
          · cases hcan
        · cases hcan
    · cases hcan
  · rintro ⟨transport, relay, ⟨base, rfl, hbase, htrn⟩, rfl⟩
    obtain ⟨hlast, -⟩ := canonicalBase_shape hbase
    simp [canonicalizeRelayRoute, pop_with, hlast, hbase, relayRouteKind_of_transport htrn]

theorem uvarintLength_le_two {value : ℕ} (hval : value < 16384) :
    uvarintLength value ≤ 2 := by
  rw [uvarintLength]
  split
  · omega
  · rw [uvarintLength, if_pos (Nat.div_lt_of_lt_mul (by omega))]

theorem PeerId.bytes_length_le (peer : PeerId) : peer.bytes.length ≤ 66 := by
  have hbyt := peer.isPeerIdBytes_bytes
  match hsha : peer.bytes with
  | [] => simp
  | [_] => simp
  | code :: size :: digest =>
    rw [hsha, isPeerIdBytes] at hbyt
    simp only [Bool.and_eq_true, Bool.or_eq_true, decide_eq_true_eq] at hbyt
    simp only [length_cons]
    omega

theorem byteLength_canonicalizeFqdn {host : String} (hhost : canonicalizeFqdn raw = some host) :
    byteLength host.toList ≤ 253 := by
  simp only [canonicalizeFqdn] at hhost
  split at hhost
  · cases hhost
  · rename_i hbounds
    split at hhost
    · cases hhost
    · split at hhost
      · cases hhost
      · split at hhost
        · cases hhost
        · cases hhost
          rw [String.toList_ofList]
          omega

theorem prefixedLength_le {code size maximum : ℕ} (hcode : code < 16384)
    (hsize : size ≤ maximum) (hmax : maximum < 16384) :
    prefixedLength code size ≤ 4 + maximum := by
  have hfst := uvarintLength_le_two hcode
  have hsnd := uvarintLength_le_two (hsize.trans_lt hmax)
  rw [prefixedLength]
  omega

theorem multiaddrLength_le (otherLength : String → ℕ)
    (hrt : IsRelayRoute route transport relay target) :
    multiaddrLength otherLength route ≤ candidateRouteMaxBytes := by
  obtain ⟨base, rfl, hbase, -⟩ := hrt
  obtain ⟨rawHost, host, port, found, hhost, rfl⟩ := canonicalizeProviderBase_ok hbase
  have hdns : prefixedLength 54 (byteLength host.toList) ≤ 4 + 253 :=
    prefixedLength_le (by norm_num) (byteLength_canonicalizeFqdn hhost) (by norm_num)
  have hpeer : ∀ peer : PeerId, prefixedLength 421 peer.bytes.length ≤ 4 + 66 :=
    fun peer => prefixedLength_le (by norm_num) (PeerId.bytes_length_le peer) (by norm_num)
  have hrly := hpeer relay
  have htgt := hpeer target
  have htcp := uvarintLength_le_two (show 6 < 16384 by norm_num)
  have hwss := uvarintLength_le_two (show 478 < 16384 by norm_num)
  have hcirc := uvarintLength_le_two (show 290 < 16384 by norm_num)
  cases found <;>
    simp only [multiaddrLength, Multiaddr.with, providerBase, protocolLength,
      cons_append, nil_append, map_cons, map_nil, sum_cons,
      sum_nil, candidateRouteMaxBytes, if_true] <;>
    omega

theorem canonicalizeDirectRoute_of_relay (hrt : IsRelayRoute route transport relay target) :
    canonicalizeDirectRoute route target = .error .invalidGrammar := by
  obtain ⟨base, rfl, hbase, -⟩ := hrt
  obtain ⟨-, host, port, found, -, rfl⟩ := canonicalizeProviderBase_ok hbase
  cases found <;> rfl

theorem canonicalizeCandidateRoute_self_iff {otherLength : String → ℕ} {kind : CandidateRouteKind}
    (hkind : kind ≠ .directTcp) :
    canonicalizeCandidateRoute otherLength route target = .ok ⟨route, kind⟩ ↔
      ∃ transport relay, IsRelayRoute route transport relay target ∧
        kind = transportKind transport := by
  constructor
  · intro hcand
    simp only [canonicalizeCandidateRoute] at hcand
    split at hcand
    · cases hcand
    · split at hcand
      · rw [Except.ok.injEq, CanonicalCandidateRoute.mk.injEq] at hcand
        exact absurd hcand.2.symm hkind
      · cases hcand
      · exact canonicalizeRelayRoute_self_iff.mp hcand
      · cases hcand
  · rintro ⟨transport, relay, hrt, rfl⟩
    have hsize := Nat.not_lt_of_le (multiaddrLength_le otherLength hrt)
    simp only [canonicalizeCandidateRoute, gt_iff_lt, if_neg hsize,
      canonicalizeDirectRoute_of_relay hrt]
    exact canonicalizeRelayRoute_self_iff.mpr ⟨transport, relay, hrt, rfl⟩

theorem validationLimits_ok : ∃ limits, validationLimits = .ok limits := by
  refine ⟨⟨1, 1, by decide, by decide, by decide, by decide⟩, ?_⟩
  rfl

variable {text : String}

theorem collectBases_singleton {address : Multiaddr}
    (hcan : canonicalizeProviderBase text relay = .ok address) :
    collectBases relay [text] [] = .ok [address] := by
  simp [collectBases, hcan]

variable {provider : RelayProvider}

theorem validationProvider_ok (hprov : validationProvider relay text transport = .ok provider) :
    ∃ base, canonicalizeProviderBase text relay = .ok base ∧
      providerBaseTransport base = some transport ∧ provider.bases = [base] ∧
      provider.selectedTransport = transport := by
  obtain ⟨limits, hlim⟩ := validationLimits_ok
  simp only [validationProvider, hlim, RelayProvider.newForTransport] at hprov
  cases hcan : canonicalizeProviderBase text relay with
  | error error =>
    simp [collectBases, hcan, Except.mapError] at hprov
  | ok base =>
    simp only [collectBases_singleton hcan, isEmpty_cons, Bool.false_eq_true, if_false] at hprov
    split at hprov
    · rename_i hsel
      cases hprov
      obtain ⟨found, hm, htrn⟩ := hsel
      rw [sortByText, mem_insertionSort, mem_singleton] at hm
      subst hm
      exact ⟨found, rfl, htrn, rfl, rfl⟩
    · cases hprov

theorem validationProvider_of_base (hcan : canonicalizeProviderBase text relay = .ok base)
    (htrn : providerBaseTransport base = some transport) :
    ∃ provider, validationProvider relay text transport = .ok provider := by
  obtain ⟨limits, hlim⟩ := validationLimits_ok
  have hsel : ∃ found ∈ sortByText [base], providerBaseTransport found = some transport :=
    ⟨base, by simp [sortByText], htrn⟩
  simp only [validationProvider, hlim, RelayProvider.newForTransport,
    collectBases_singleton hcan, isEmpty_cons, Bool.false_eq_true, if_false,
    dif_pos hsel]
  exact ⟨_, rfl⟩

theorem baseForTransport_singleton (hbas : provider.bases = [base])
    (htrn : providerBaseTransport base = some transport) :
    provider.baseForTransport transport = some base := by
  simp [RelayProvider.baseForTransport, hbas, htrn]

theorem selectedBase_singleton (hbas : provider.bases = [base])
    (htrn : providerBaseTransport base = some provider.selectedTransport) :
    provider.selectedBase = base := by
  have hf := baseForTransport_singleton hbas htrn
  simp [RelayProvider.selectedBase, hf]

theorem decimal_of_ten_le {value : ℕ} (hval : 10 ≤ value) :
    Text.decimal value = Text.decimal (value / 10) ++ [Text.decimalDigit (value % 10)] := by
  have hquo : value / 10 ≠ 0 := by omega
  have hdig : Nat.digits 10 value = value % 10 :: Nat.digits 10 (value / 10) :=
    Nat.digits_def' (by norm_num) (by omega)
  simp only [Text.decimal, Text.renderNumeral, Text.positional]
  rw [if_neg (by omega), if_neg hquo, hdig, reverse_cons, map_append, map_singleton]

theorem toDigits_eq_decimal (value : ℕ) : Nat.toDigits 10 value = Text.decimal value := by
  have hdig : ∀ digit < 10, Nat.digitChar digit = Text.decimalDigit digit := by decide
  induction value using Nat.strong_induction_on with
  | _ value ih =>
    rw [Nat.toDigits_eq_if (by norm_num)]
    split
    · rename_i hsmall
      interval_cases value <;> decide
    · rename_i hlarge
      rw [ih (value / 10) (by omega), hdig _ (Nat.mod_lt _ (by norm_num))]
      exact (decimal_of_ten_le (by omega)).symm

/-- The base text of `canonicalize_circuit_route` is that of its components. -/
theorem circuitBase_toText (port : UInt16) (relay : PeerId) :
    "/dns4/" ++ host ++ "/tcp/" ++ toString port.toNat ++ "/p2p/" ++ relay.toText =
      Multiaddr.toText [.dns4 host, .tcp port, .p2p relay] := by
  have hport : (toString port.toNat).toList = Text.decimal port.toNat :=
    Nat.toList_repr.trans (toDigits_eq_decimal _)
  have hdns : "/dns4/".toList = '/' :: ("dns4".toList ++ ['/']) := by decide
  have htcp : "/tcp/".toList = '/' :: ("tcp".toList ++ ['/']) := by decide
  have hp2p : "/p2p/".toList = '/' :: ("p2p".toList ++ ['/']) := by decide
  have htext : (Multiaddr.toText [.dns4 host, .tcp port, .p2p relay]).toList =
      tagged "dns4" host.toList ++ (tagged "tcp" (Text.decimal port.toNat) ++
        tagged "p2p" relay.toText.toList) := by
    rw [Multiaddr.toText, String.toList_ofList, flatMap_cons, flatMap_cons, flatMap_singleton]
    rfl
  apply String.toList_inj.mp
  rw [htext, String.toList_append, String.toList_append, String.toList_append,
    String.toList_append, String.toList_append, hport, hdns, htcp, hp2p]
  simp only [tagged, append_assoc, cons_append, nil_append]

theorem providerBase_of_transport (hbase : canonicalizeProviderBase raw relay = .ok base)
    (htrn : providerBaseTransport base = some .tcp) :
    ∃ host port, base = [.dns4 host, .tcp port, .p2p relay] := by
  obtain ⟨-, host, port, transport, -, rfl⟩ := canonicalizeProviderBase_ok hbase
  rw [providerBaseTransport_providerBase, Option.some.injEq] at htrn
  subst htrn
  exact ⟨host, port, rfl⟩

theorem canonicalizeCircuitRoute_self_iff :
    (∃ canonical, canonicalizeCircuitRoute route target = .ok canonical ∧
      canonical.route = route ∧ canonical.relayPeerId = relay) ↔
      IsRelayRoute route .tcp relay target := by
  constructor
  · rintro ⟨canonical, hcan, hrt, rfl⟩
    simp only [canonicalizeCircuitRoute] at hcan
    split at hcan
    · rename_i host port relayPeerId targetPeerId
      split at hcan
      · cases hcan
      · rename_i hsm
        rw [not_not] at hsm
        subst hsm
        split at hcan
        · cases hcan
        · rename_i provider hprov
          rw [circuitBase_toText] at hprov
          obtain ⟨base, hbase, htrn, hbas, hsel⟩ := validationProvider_ok hprov
          rw [← hsel] at htrn
          have hown := selectedBase_singleton hbas htrn
          rw [hsel] at htrn
          split at hcan
          · rw [Except.ok.injEq] at hcan
            subst hcan
            rw [hown] at hrt
            have hexa : base = [.dns4 host, .tcp port, .p2p relayPeerId] := by
              have hcut : (base.with .p2pCircuit).with (.p2p targetPeerId) =
                  (Multiaddr.with [.dns4 host, .tcp port, .p2p relayPeerId]
                    .p2pCircuit).with (.p2p targetPeerId) := hrt
              exact (with_injective (with_injective hcut).1).1
            rw [← hexa] at hbase
            exact ⟨base, hrt.symm, hbase, htrn⟩
          · cases hcan
    · cases hcan
  · rintro ⟨base, rfl, hbase, htrn⟩
    obtain ⟨host, port, rfl⟩ := providerBase_of_transport hbase htrn
    obtain ⟨provider, hprov⟩ := validationProvider_of_base hbase htrn
    obtain ⟨found, hf, hfou, hbas, hsel⟩ := validationProvider_ok hprov
    cases hbase.symm.trans hf
    rw [← hsel] at hfou
    have hown := selectedBase_singleton hbas hfou
    rw [← circuitBase_toText] at hprov
    refine ⟨⟨_, relay, "/dns4/" ++ host ++ "/tcp/" ++ toString port.toNat⟩, ?_, rfl, rfl⟩
    simp only [canonicalizeCircuitRoute, Multiaddr.with, cons_append, nil_append,
      ne_eq, not_true_eq_false, if_false, hprov, hown]

theorem validateWssCircuitRoute_ok_iff :
    (∃ endpoint, validateWssCircuitRoute route relay target = .ok endpoint) ↔
      IsRelayRoute route .wss relay target := by
  constructor
  · rintro ⟨endpoint, hvalid⟩
    simp only [validateWssCircuitRoute] at hvalid
    split at hvalid
    · rename_i targetPeerId rest htgt
      split at hvalid
      · cases hvalid
      · rename_i hsm
        rw [not_not] at hsm
        subst hsm
        split at hvalid
        · rename_i base hcirc
          split at hvalid
          · cases hvalid
          · rename_i provider hprov
            obtain ⟨canonical, hcan, htrn, hbas, -⟩ := validationProvider_ok hprov
            simp only [RelayProvider.circuitRouteForTransport,
              baseForTransport_singleton hbas htrn] at hvalid
            split at hvalid
            · cases hvalid
            · rename_i hrt
              rw [not_not] at hrt
              have hcut := hrt.trans ((with_of_pop htgt).trans
                (congrArg (Multiaddr.with · _) (with_of_pop hcirc)))
              have hexa : canonical = base := (with_injective (with_injective hcut).1).1
              rw [← hexa] at hcan
              exact ⟨canonical, hrt.symm, hcan, htrn⟩
        · cases hvalid
    · cases hvalid
  · rintro ⟨base, rfl, hbase, htrn⟩
    obtain ⟨provider, hprov⟩ := validationProvider_of_base hbase htrn
    obtain ⟨found, hf, hfou, hbas, hsel⟩ := validationProvider_ok hprov
    cases hbase.symm.trans hf
    have hsome := baseForTransport_singleton hbas htrn
    rw [← hsel] at htrn
    have hown := selectedBase_singleton hbas htrn
    obtain ⟨hlast, -⟩ := canonicalBase_shape hbase
    have hpop : Multiaddr.pop base = (some (.p2p relay), (Multiaddr.pop base).2) :=
      Prod.ext hlast rfl
    refine ⟨(Multiaddr.pop base).2.toText, ?_⟩
    simp only [validateWssCircuitRoute, pop_with, ne_eq, not_true_eq_false, if_false,
      hprov, RelayProvider.circuitRouteForTransport, hsome, hown]
    rw [hpop]

/-- The relay that a circuit route names before its circuit. -/
def relayOf (route : Multiaddr) : Option PeerId :=
  match (Multiaddr.pop (Multiaddr.pop (Multiaddr.pop route).2).2).1 with
  | some (.p2p relay) => some relay
  | _ => none

theorem IsRelayRoute.terminatesAt (hrt : IsRelayRoute route transport relay target) :
    TerminatesAt target route := by
  obtain ⟨base, rfl, -, -⟩ := hrt
  exact terminatesAt_circuit base target

theorem IsRelayRoute.relayOf_eq (hrt : IsRelayRoute route transport relay target) :
    relayOf route = some relay := by
  obtain ⟨base, rfl, hbase, -⟩ := hrt
  have hlast : (Multiaddr.pop base).1 = some (.p2p relay) := (canonicalBase_shape hbase).1
  simp only [relayOf, pop_with, hlast]

theorem TerminatesAt.unique {first second : PeerId} (hfst : TerminatesAt first route)
    (hsnd : TerminatesAt second route) :
    first = second := by
  rw [TerminatesAt] at hfst hsnd
  rw [hfst, Option.some.injEq, Protocol.p2p.injEq] at hsnd
  exact hsnd

theorem validateRelayCircuitRoutes_ok_iff {tcp wss : Multiaddr} :
    (∃ routes, validateRelayCircuitRoutes tcp wss target = .ok routes) ↔
      ∃ relay, IsRelayRoute tcp .tcp relay target ∧ IsRelayRoute wss .wss relay target := by
  constructor
  · rintro ⟨routes, hvalid⟩
    simp only [validateRelayCircuitRoutes] at hvalid
    split at hvalid
    · cases hvalid
    · rename_i canonical hcan
      split at hvalid
      · cases hvalid
      · rename_i hrt
        rw [not_not] at hrt
        split at hvalid
        · cases hvalid
        · rename_i endpoint hend
          exact ⟨canonical.relayPeerId,
            canonicalizeCircuitRoute_self_iff.mp ⟨canonical, hcan, hrt, rfl⟩,
            validateWssCircuitRoute_ok_iff.mp ⟨endpoint, hend⟩⟩
  · rintro ⟨relay, htcp, hwss⟩
    obtain ⟨canonical, hcan, hrt, rfl⟩ := canonicalizeCircuitRoute_self_iff.mpr htcp
    obtain ⟨endpoint, hend⟩ := validateWssCircuitRoute_ok_iff.mpr hwss
    exact ⟨⟨tcp, wss⟩, by simp [validateRelayCircuitRoutes, hcan, hrt, hend]⟩

theorem candidate_self_iff {otherLength : String → ℕ} (transport : RelayBaseTransport) :
    canonicalizeCandidateRoute otherLength route target = .ok ⟨route, transportKind transport⟩ ↔
      ∃ relay, IsRelayRoute route transport relay target := by
  rw [canonicalizeCandidateRoute_self_iff (by cases transport <;> decide)]
  constructor
  · rintro ⟨found, relay, hrt, hkind⟩
    have hsm : transport = found := by
      cases transport <;> cases found <;> simp_all [transportKind]
    subst hsm
    exact ⟨relay, hrt⟩
  · rintro ⟨relay, hrt⟩
    exact ⟨transport, relay, hrt, rfl⟩

/-- The relay route parsers accept one language and read it alike. -/
theorem relay_route_parsers_agree (otherLength : String → ℕ) :
    (∀ route target, TerminatesAt target route → ((∃ parsed, parseRelayRoute route = .ok parsed) ↔
        ∃ kind, kind ≠ .directTcp ∧
          canonicalizeCandidateRoute otherLength route target = .ok ⟨route, kind⟩) ∧
      ((∃ parsed, parseBrowserRelayRoute route = .ok parsed) ↔
        canonicalizeCandidateRoute otherLength route target = .ok ⟨route, .relayWss⟩)) ∧
    (∀ tcp wss target, (∃ routes, validateRelayCircuitRoutes tcp wss target = .ok routes) ↔
      canonicalizeCandidateRoute otherLength tcp target = .ok ⟨tcp, .relayTcp⟩ ∧
      canonicalizeCandidateRoute otherLength wss target = .ok ⟨wss, .relayWss⟩ ∧
      relayOf tcp = relayOf wss) ∧
    (∀ route parsed, parseRelayRoute route = .ok parsed →
      relayOf route = some parsed.relayPeerId ∧ TerminatesAt parsed.targetPeerId route) ∧
    (∀ route parsed, parseBrowserRelayRoute route = .ok parsed →
      relayOf route = some parsed.relayPeerId ∧ TerminatesAt parsed.targetPeerId route) ∧
    (∀ tcp wss target routes, validateRelayCircuitRoutes tcp wss target = .ok routes →
      ∃ relay canonical native nativeWss browser,
        canonicalizeCircuitRoute tcp target = .ok canonical ∧
        parseRelayRoute tcp = .ok native ∧ parseRelayRoute wss = .ok nativeWss ∧
        parseBrowserRelayRoute wss = .ok browser ∧
        canonical.relayPeerId = relay ∧ native.relayPeerId = relay ∧
        nativeWss.relayPeerId = relay ∧ browser.relayPeerId = relay ∧
        native.targetPeerId = target ∧ nativeWss.targetPeerId = target ∧
        browser.targetPeerId = target) := by
  refine ⟨?_, ?_, ?_, ?_, ?_⟩
  · intro route target htarget
    constructor
    · constructor
      · rintro ⟨⟨relay, found, direct⟩, hparse⟩
        obtain ⟨transport, hroute⟩ := parseRelayRoute_ok_iff.mp ⟨direct, hparse⟩
        rw [hroute.terminatesAt.unique htarget] at hroute
        exact ⟨transportKind transport, by cases transport <;> decide,
          (candidate_self_iff transport).mpr ⟨relay, hroute⟩⟩
      · rintro ⟨kind, hkind, hcandidate⟩
        obtain ⟨transport, relay, hroute, -⟩ :=
          (canonicalizeCandidateRoute_self_iff hkind).mp hcandidate
        obtain ⟨direct, hparse⟩ := parseRelayRoute_ok_iff.mpr ⟨transport, hroute⟩
        exact ⟨_, hparse⟩
    · constructor
      · rintro ⟨⟨relay, found, direct, circuit⟩, hparse⟩
        have hroute := parseBrowserRelayRoute_ok_iff.mp ⟨direct, circuit, hparse⟩
        rw [hroute.terminatesAt.unique htarget] at hroute
        exact (candidate_self_iff .wss).mpr ⟨relay, hroute⟩
      · intro hcandidate
        obtain ⟨relay, hroute⟩ := (candidate_self_iff .wss).mp hcandidate
        obtain ⟨direct, circuit, hparse⟩ := parseBrowserRelayRoute_ok_iff.mpr hroute
        exact ⟨_, hparse⟩
  · intro tcp wss target
    rw [validateRelayCircuitRoutes_ok_iff]
    constructor
    · rintro ⟨relay, htcp, hwss⟩
      exact ⟨(candidate_self_iff .tcp).mpr ⟨relay, htcp⟩,
        (candidate_self_iff .wss).mpr ⟨relay, hwss⟩,
        htcp.relayOf_eq.trans hwss.relayOf_eq.symm⟩
    · rintro ⟨htcp, hwss, hsame⟩
      obtain ⟨relay, htcp⟩ := (candidate_self_iff .tcp).mp htcp
      obtain ⟨other, hwss⟩ := (candidate_self_iff .wss).mp hwss
      rw [htcp.relayOf_eq, hwss.relayOf_eq, Option.some.injEq] at hsame
      rw [← hsame] at hwss
      exact ⟨relay, htcp, hwss⟩
  · rintro route ⟨relay, target, direct⟩ hparse
    obtain ⟨transport, hroute⟩ := parseRelayRoute_ok_iff.mp ⟨direct, hparse⟩
    exact ⟨hroute.relayOf_eq, hroute.terminatesAt⟩
  · rintro route ⟨relay, target, direct, circuit⟩ hparse
    have hroute := parseBrowserRelayRoute_ok_iff.mp ⟨direct, circuit, hparse⟩
    exact ⟨hroute.relayOf_eq, hroute.terminatesAt⟩
  · intro tcp wss target routes hvalid
    obtain ⟨relay, htcp, hwss⟩ := validateRelayCircuitRoutes_ok_iff.mp ⟨routes, hvalid⟩
    obtain ⟨canonical, hcanonical, -, hrelay⟩ := canonicalizeCircuitRoute_self_iff.mpr htcp
    obtain ⟨direct, hnative⟩ := parseRelayRoute_ok_iff.mpr ⟨_, htcp⟩
    obtain ⟨directWss, hnativeWss⟩ := parseRelayRoute_ok_iff.mpr ⟨_, hwss⟩
    obtain ⟨_, _, hbrowser⟩ := parseBrowserRelayRoute_ok_iff.mpr hwss
    exact ⟨relay, canonical, _, _, _, hcanonical, hnative, hnativeWss, hbrowser, hrelay, rfl,
      rfl, rfl, rfl, rfl, rfl⟩

end AukiSdk.Routing
