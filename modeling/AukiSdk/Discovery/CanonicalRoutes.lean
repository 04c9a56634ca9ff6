import AukiSdk.Discovery.Resolution

/-!
# Canonical candidate routes

Canonicalizing a hint again. A relay hint is a fixed point after one pass, kind included.
-/

namespace AukiSdk.Discovery

open AukiSdk.Foundation List
open AukiSdk.Net
open AukiSdk.Relay
open AukiSdk.Routing

/-- A DNS name with more than one trailing dot. -/
def EndsInTwoDots (host : String) : Prop :=
  ['.', '.'] <:+ host.toList

instance (host : String) : Decidable (EndsInTwoDots host) :=
  inferInstanceAs (Decidable (_ <:+ _))

/-- A direct TCP hint whose DNS name ends in two dots. -/
def IsRootDotsRoute (route : Multiaddr) : Prop :=
  match route with
  | [network, .tcp _] => ∃ host, dnsHost network = some host ∧ EndsInTwoDots host
  | [network, .tcp _, .p2p _] => ∃ host, dnsHost network = some host ∧ EndsInTwoDots host
  | _ => False

theorem IsRootDotsRoute.length_le {route : Multiaddr} (hrt : IsRootDotsRoute route) :
    route.length ≤ 3 := by
  unfold IsRootDotsRoute at hrt
  split at hrt
  · simp
  · simp
  · exact hrt.elim

theorem getLast?_map_toLower_eq_dot {text : List Char} :
    (text.map Char.toLower).getLast? = some '.' ↔ text.getLast? = some '.' := by
  rw [getLast?_map, Option.map_eq_some_iff]
  constructor
  · rintro ⟨char, hlast, hdot⟩
    rw [hlast, toLower_eq_dot hdot]
  · intro hlast
    exact ⟨'.', hlast, by decide⟩

theorem canonicalDnsHost_self_iff {host : String} :
    canonicalDnsHost host = .ok host ↔
      host.toList ≠ [] ∧ host.toList.map Char.toLower = host.toList ∧
        host.toList.getLast? ≠ some '.' := by
  rw [canonicalDnsHost_eq_ok_iff]
  constructor
  · rintro ⟨stripped, hne, hlow, hhost | ⟨hhost, hlast⟩⟩
    · have hlen := congrArg List.length (hlow.symm.trans hhost)
      rw [length_map, length_append, length_singleton] at hlen
      omega
    · rw [← hhost] at hne hlow
      exact ⟨hne, hlow.symm, hlast⟩
  · rintro ⟨hne, hlow, hlast⟩
    exact ⟨host.toList, hne, hlow.symm, .inr ⟨rfl, hlast⟩⟩

theorem canonicalDnsHost_stored_iff {host stored : String}
    (hst : canonicalDnsHost host = .ok stored) :
    canonicalDnsHost stored = .ok stored ↔ ¬ EndsInTwoDots host := by
  obtain ⟨stripped, hne, hlow, hhost⟩ := canonicalDnsHost_eq_ok_iff.mp hst
  have hdots : EndsInTwoDots host ↔ stripped.getLast? = some '.' := by
    rw [EndsInTwoDots, getLast?_eq_some_iff]
    cases hhost with
    | inl hhost =>
      have htwo : ['.', '.'] = ['.'] ++ ['.'] := rfl
      rw [hhost, htwo, suffix_append_inj_of_length_eq rfl]
      simp [List.IsSuffix, eq_comm]
    | inr hhost =>
      constructor
      · rintro ⟨before, hpre⟩
        refine absurd ?_ hhost.2
        rw [← hpre]
        simp
      · rintro ⟨before, hpre⟩
        refine absurd ?_ hhost.2
        rw [hhost.1, hpre]
        simp
  have hfix : stored.toList.map Char.toLower = stored.toList := by
    rw [hlow, map_map]
    congr 1
    funext char
    exact Char.toLower_toLower_eq_toLower char
  have hnon : stored.toList ≠ [] := by
    rw [hlow]
    simpa using hne
  have hlast : stored.toList.getLast? = some '.' ↔ stripped.getLast? = some '.' := by
    rw [hlow, getLast?_map_toLower_eq_dot]
  rw [canonicalDnsHost_self_iff, hdots, ← hlast]
  exact ⟨fun hself => hself.2.2, fun hdot => ⟨hnon, hfix, hdot⟩⟩

/-- The normalized component is a fixed point unless more dots were to lose. -/
theorem canonicalNetwork_stored_iff {network stored : Protocol}
    (hst : canonicalNetwork network = .ok stored) :
    canonicalNetwork stored = .ok stored ↔
      ¬ ∃ host, dnsHost network = some host ∧ EndsInTwoDots host := by
  cases network <;> simp only [canonicalNetwork] at hst
  case ip4 address =>
    cases hst
    simp [canonicalNetwork, dnsHost]
  case ip6 address =>
    cases hst
    simp [canonicalNetwork, dnsHost]
  case dns host =>
    obtain ⟨found, hf, rfl⟩ := Checks.map_eq_ok.mp hst
    simp [canonicalNetwork, dnsHost, Checks.map_eq_ok, canonicalDnsHost_stored_iff hf]
  case dns4 host =>
    obtain ⟨found, hf, rfl⟩ := Checks.map_eq_ok.mp hst
    simp [canonicalNetwork, dnsHost, Checks.map_eq_ok, canonicalDnsHost_stored_iff hf]
  case dns6 host =>
    obtain ⟨found, hf, rfl⟩ := Checks.map_eq_ok.mp hst
    simp [canonicalNetwork, dnsHost, Checks.map_eq_ok, canonicalDnsHost_stored_iff hf]
  all_goals cases hst

/-- A stored direct route is returned exactly at a fixed point. -/
theorem canonicalizeCandidateRoute_direct_self_iff {otherLength : String → ℕ}
    {network : Protocol} {port : UInt16} {peer : PeerId} (hport : port ≠ 0)
    (hlen : multiaddrLength otherLength [network, .tcp port] ≤ candidateRouteMaxBytes) :
    canonicalizeCandidateRoute otherLength [network, .tcp port] peer =
        .ok ⟨[network, .tcp port], .directTcp⟩ ↔
      canonicalNetwork network = .ok network := by
  simp [canonicalizeCandidateRoute_direct hport hlen]

theorem multiaddrLength_direct_le {otherLength : String → ℕ} {network canonical : Protocol}
    {port : UInt16} {peer : PeerId} {route : Multiaddr}
    (hcan : canonicalNetwork network = .ok canonical)
    (hrt : route = [network, .tcp port] ∨ route = [network, .tcp port, .p2p peer]) :
    multiaddrLength otherLength [canonical, .tcp port] ≤ multiaddrLength otherLength route := by
  have hsho := (canonicalNetwork_again otherLength hcan).2
  cases hrt with
  | inl hrt =>
    rw [hrt]
    simp only [multiaddrLength, map_cons, map_nil, sum_cons, sum_nil]
    omega
  | inr hrt =>
    rw [hrt]
    simp only [multiaddrLength, map_cons, map_nil, sum_cons, sum_nil]
    omega

theorem not_isRootDotsRoute_of_circuit (base : Multiaddr) (peer : PeerId) :
    ¬ IsRootDotsRoute ((base.with .p2pCircuit).with (.p2p peer)) := by
  -- A relay route has a circuit where a direct one has its port.
  match base with
  | [] => simp [IsRootDotsRoute, Multiaddr.with]
  | [_] => simp [IsRootDotsRoute, Multiaddr.with]
  | _ :: _ :: rest =>
    intro hdots
    have hsho := hdots.length_le
    simp only [Multiaddr.with, cons_append, length_cons, length_append, length_nil] at hsho
    omega

/-- Canonicalization is idempotent except on direct hints that end in two dots. -/
theorem candidate_route_idempotent_iff (otherLength : String → ℕ) (route : Multiaddr)
    (peer : PeerId) (stored : CanonicalCandidateRoute)
    (hstored : canonicalizeCandidateRoute otherLength route peer = .ok stored) :
    canonicalizeCandidateRoute otherLength stored.route peer = .ok stored ↔
      ¬ IsRootDotsRoute route := by
  simp only [canonicalizeCandidateRoute] at hstored
  split at hstored
  · cases hstored
  next hlength =>
    rw [gt_iff_lt, not_lt] at hlength
    split at hstored
    next direct hdirect =>
      cases hstored
      obtain ⟨network, port, canonical, hcanonical, hport, rfl, hroute⟩ :=
        canonicalizeDirectRoute_ok hdirect
      have hsize := (multiaddrLength_direct_le hcanonical hroute).trans hlength
      rw [canonicalizeCandidateRoute_direct_self_iff hport hsize,
        canonicalNetwork_stored_iff hcanonical]
      cases hroute with
      | inl hroute => rw [hroute, IsRootDotsRoute]
      | inr hroute => rw [hroute, IsRootDotsRoute]
    · cases hstored
    · obtain ⟨⟨transport, relay, hrelay, hkind⟩, base, rfl⟩ := canonicalizeRelayRoute_ok hstored
      have hself : canonicalizeCandidateRoute otherLength stored.route peer =
          .ok ⟨stored.route, transportKind transport⟩ :=
        (candidate_self_iff transport).mpr ⟨relay, hrelay⟩
      rw [← hkind] at hself
      exact iff_of_true hself (not_isRootDotsRoute_of_circuit base peer)
    · cases hstored

/-- A hint that loses a dot in each of two passes. -/
theorem dns_route_loses_two_dots :
    canonicalizeCandidateRoute (fun _ => 0) [.dns4 "a..", .tcp 1] (samplePeer 1) =
        .ok ⟨[.dns4 "a.", .tcp 1], .directTcp⟩ ∧
      canonicalizeCandidateRoute (fun _ => 0) [.dns4 "a.", .tcp 1] (samplePeer 1) =
        .ok ⟨[.dns4 "a", .tcp 1], .directTcp⟩ := by
  decide +kernel

theorem candidate_route_idempotent_iff_sample :
    canonicalizeCandidateRoute (fun _ => 0) [.dns4 "a", .tcp 1] (samplePeer 1) =
      .ok ⟨[.dns4 "a", .tcp 1], .directTcp⟩ :=
  (candidate_route_idempotent_iff (fun _ => 0) [.dns4 "A.", .tcp 1] (samplePeer 1)
    ⟨[.dns4 "a", .tcp 1], .directTcp⟩ (by decide +kernel)).mpr (by
      rintro ⟨host, hhost, hdots⟩
      cases hhost
      exact absurd hdots (by decide))

end AukiSdk.Discovery
