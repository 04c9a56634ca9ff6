import AukiSdk.Discovery.ProviderGrammar
import AukiSdk.Relay.Publication
import AukiSdk.Routing.RouteAgreement

/-!
# Published routes

What the reservation node publishes, read by discovery, the dialers and the catalog.
-/

namespace AukiSdk.Discovery

open AukiSdk.Foundation List
open AukiSdk.Net
open AukiSdk.Relay
open AukiSdk.Routing

/-- A provider is only made by `new_for_transport`. -/
def Constructed (provider : RelayProvider) : Prop :=
  ∃ raws, RelayProvider.newForTransport provider.relayPeerId raws provider.selectedTransport
    provider.expectedLimits = .ok provider

variable {provider : RelayProvider} {transport : RelayBaseTransport} {target : PeerId}

theorem Constructed.isRelayRoute (hmade : Constructed provider) {route : Multiaddr}
    (hrt : provider.circuitRouteForTransport transport target = .ok route) :
    IsRelayRoute route transport provider.relayPeerId target := by
  obtain ⟨raws, hnew⟩ := hmade
  obtain ⟨-, -, bases, hbas, -, hst⟩ := newForTransport_iff.mp hnew
  rw [RelayProvider.circuitRouteForTransport] at hrt
  split at hrt
  · cases hrt
  · rename_i base hf
    cases hrt
    have hm := mem_of_find?_eq_some hf
    rw [hst, (sortByText_perm bases).mem_iff, mem_bases_iff hbas] at hm
    obtain ⟨raw, -, hbase⟩ := hm
    exact ⟨base, rfl, canonicalizeProviderBase_iff.mpr hbase.self, by simpa using find?_some hf⟩

theorem circuitRouteForTransport_selected : provider.circuitRouteForTransport
    provider.selectedTransport target = .ok (provider.publishableRoute target) := by
  have hsome := Option.some_get provider.isSome_baseForTransport_selected
  rw [RelayProvider.circuitRouteForTransport, ← hsome]
  rfl

/-- What a node publishes on its evidence is a canonical candidate, is dialed through the
provider's relay, and completes a pair that the catalog takes. -/
theorem published_route_is_dialable (otherLength : String → ℕ) {nodeInstanceId : Uuid}
    {localPeerId : PeerId} {history : List RelayLabel} {node : RelayReservationNode}
    (hrun : RelayRun nodeInstanceId localPeerId history node)
    (hmade : ∀ handle provider, Began history handle provider → Constructed provider)
    (call : RelayCall) (handle : RelayReservationHandle) (route : Multiaddr)
    (limits : ExpectedRelayLimits)
    (hpub : (call, .ok (.event (.publishable handle route limits))) ∈ history) :
    ∃ provider, Began history handle provider ∧
      canonicalizeCandidateRoute otherLength route localPeerId =
        .ok ⟨route, transportKind provider.selectedTransport⟩ ∧
      (∃ direct, parseRelayRoute route = .ok ⟨provider.relayPeerId, localPeerId, direct⟩) ∧
      ∀ tcp wss, provider.circuitRouteForTransport .tcp localPeerId = .ok tcp →
        provider.circuitRouteForTransport .wss localPeerId = .ok wss →
        ∃ routes, validateRelayCircuitRoutes tcp wss localPeerId = .ok routes := by
  obtain ⟨before, after, rfl⟩ := append_of_mem hpub
  obtain ⟨source, target, hbef, hs, -⟩ := hrun.step_at
  obtain ⟨provider, -, ⟨listenerId, hbgn⟩, hroute, -⟩ :=
    publication_evidence (tracked_of_run hbef) hs rfl
  have hcon := hmade handle provider ⟨listenerId, mem_append_left _ hbgn⟩
  have hrt : IsRelayRoute route provider.selectedTransport provider.relayPeerId localPeerId := by
    have hpublic : route = provider.publishableRoute localPeerId := by
      simp [hroute, RelayProvider.publishableRoute, Multiaddr.with]
    rw [hpublic]
    exact hcon.isRelayRoute circuitRouteForTransport_selected
  refine ⟨provider, ⟨listenerId, mem_append_left _ hbgn⟩, (candidate_self_iff _).mpr ⟨_, hrt⟩,
    parseRelayRoute_ok_iff.mpr ⟨_, hrt⟩, ?_⟩
  · intro tcp wss htcp hwss
    exact validateRelayCircuitRoutes_ok_iff.mpr
      ⟨_, hcon.isRelayRoute htcp, hcon.isRelayRoute hwss⟩

theorem constructed_sampleProvider : Constructed (sampleProvider 2) := by
  refine ⟨[baseText "relay.auki.network" "4001" .tcp (samplePeer 2).toText],
    newForTransport_iff.mpr ⟨⟨rfl, rfl, rfl⟩, cons_ne_nil _ _, (sampleProvider 2).bases, ?_,
      nodup_singleton _, rfl⟩⟩
  have hnor : normalizedHost "relay.auki.network" = "relay.auki.network" := by decide +kernel
  have hcan : canonicalizeFqdn "relay.auki.network" = some "relay.auki.network" := by
    decide +kernel
  refine .cons ⟨_, _, .tcp, 4001, rfl, by decide, by decide, ?_, by decide, by decide,
    by rw [hnor]; rfl⟩ .nil
  rw [hnor]
  exact (canonicalizeFqdn_iff.mp hcan).2

theorem published_route_is_dialable_sample : ∃ direct, parseRelayRoute
    ((sampleProvider 2).selectedBase ++ [Protocol.p2pCircuit, Protocol.p2p (samplePeer 1)]) =
      .ok ⟨samplePeer 2, samplePeer 1, direct⟩ := by
  have hlis := RelayRun.observeSample sampleNode_run (.listenerAddress 11 [])
    (.ok (.event (.evidenceRecorded sampleHandle))) (by decide +kernel)
  have hpub := RelayRun.observeSample hlis sampleAcceptance (.ok samplePublished)
    (by decide +kernel)
  obtain ⟨provider, ⟨listenerId, hm⟩, -, hdialed, -⟩ := published_route_is_dialable
    (fun _ => 0) hpub (by
      rintro handle provider ⟨listenerId, hm⟩
      obtain ⟨⟨rfl, -⟩, -⟩ : (provider = sampleProvider 2 ∧ listenerId = 11) ∧
          handle = sampleHandle := by
        simpa [RelayLabel.started, sampleBegin, sampleAcceptance, samplePublished] using hm
      exact constructed_sampleProvider)
    _ sampleHandle _ _ (mem_cons_of_mem _ (mem_append_right _ mem_cons_self))
  obtain ⟨rfl, -⟩ : provider = sampleProvider 2 ∧ listenerId = 11 := by
    simpa [RelayLabel.started, sampleBegin, sampleAcceptance, samplePublished] using hm
  exact hdialed

end AukiSdk.Discovery
