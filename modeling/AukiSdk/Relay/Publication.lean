import AukiSdk.Relay.ReservationSafety

/-!
# Publication of relay routes

A route is published once, and shown while its evidence stands.
-/

namespace AukiSdk.Relay

open AukiSdk.Foundation
open AukiSdk.Net

variable {nodeInstanceId : Uuid} {localPeerId : PeerId}
variable {history : List RelayLabel} {node next : RelayReservationNode}

/-- The handle was minted, its listener and acceptance confirmed, and nothing ended it. -/
structure PublicationEvidence (history : List RelayLabel) (handle : RelayReservationHandle)
    (provider : RelayProvider) : Prop where
  began : Began history handle provider
  listener : history.any (acceptsListener handle) = true
  initial : history.any (acceptsInitial handle provider.expectedLimits) = true
  live : history.any (endsReservation handle) = false

theorem EntryEvidence.publishable_iff_record {record : HandleRecord}
    {entry : ReservationEntry} (hevid : EntryEvidence record entry) :
    entry.state = .publishable ↔ record.listenerAccepted = true ∧ record.initialAccepted = true ∧
        record.ended = false := by
  by_cases hcanc : entry.state = .canceling
  · simp [hcanc, hevid.canceling_iff.mp hcanc]
  · have hend : record.ended = false := by
      rw [← Bool.not_eq_true, ← hevid.canceling_iff]
      exact hcanc
    rw [hevid.publishable_iff hcanc, hevid.listener_eq hcanc, hevid.initial_eq hcanc, hend]
    simp

namespace Tracked

variable (htracked : Tracked nodeInstanceId localPeerId history node)
include htracked

variable {handle : RelayReservationHandle}

/-- Nothing is emitted for a handle before `begin` returns it. -/
theorem emits_nothing_of_unborn (hunb : ∀ provider, ¬Began history handle provider) :
    history.countP (emitsPublishable handle) = 0 ∧ history.countP (emitsCanceled handle) = 0 := by
  have hbla := htracked.unborn handle
    ⟨1, 1, by decide, by decide, by decide, by decide⟩ hunb
  exact ⟨congrArg HandleRecord.published hbla, congrArg HandleRecord.canceled hbla⟩

theorem emissions_le_one (handle : RelayReservationHandle) :
    history.countP (emitsPublishable handle) ≤ 1 ∧ history.countP (emitsCanceled handle) ≤ 1 := by
  by_cases hbgn : ∃ provider, Began history handle provider
  · obtain ⟨provider, hbgn⟩ := hbgn
    by_cases hcur : ∃ entry, node.reservations[handle.relayPeerId]? = some entry ∧
        entry.handle = handle
    · obtain ⟨entry, hent, rfl⟩ := hcur
      have hevid := htracked.entry_evidence _ _ hent
      exact ⟨hevid.published_le, hevid.uncanceled.le.trans zero_le_one⟩
    · push Not at hcur
      have hrtd := htracked.retired _ _ hbgn hcur
      exact ⟨hrtd.published_le, hrtd.canceled_eq.le⟩
  · push Not at hbgn
    obtain ⟨hpub, hcanc⟩ := htracked.emits_nothing_of_unborn hbgn
    exact ⟨hpub.le.trans zero_le_one, hcanc.le.trans zero_le_one⟩

theorem publishable_iff_evidence {relay : PeerId} {entry : ReservationEntry}
    (hent : node.reservations[relay]? = some entry) :
    entry.state = .publishable ↔ PublicationEvidence history entry.handle entry.provider := by
  rw [(htracked.entry_evidence _ _ hent).publishable_iff_record]
  constructor
  · rintro ⟨hlis, hinit, hend⟩
    exact ⟨(htracked.entry_began _ _ hent).1, hlis, hinit, hend⟩
  · exact fun hevid => ⟨hevid.listener, hevid.initial, hevid.live⟩

theorem entry_of_evidence {provider : RelayProvider}
    (hevid : PublicationEvidence history handle provider) :
    ∃ entry, node.entry handle = .ok entry ∧ entry.handle = handle ∧ entry.provider = provider := by
  have hcur : ∃ entry, node.reservations[handle.relayPeerId]? = some entry ∧
      entry.handle = handle := by
    by_contra hgone
    push Not at hgone
    have hend : history.any (endsReservation handle) = true :=
      (htracked.retired _ _ hevid.began hgone).ended
    rw [hevid.live] at hend
    cases hend
  obtain ⟨entry, hent, rfl⟩ := hcur
  obtain ⟨hbgn, -⟩ := htracked.entry_began _ _ hent
  refine ⟨entry, (node.entry_eq_ok_iff _ _).mpr ⟨?_, hent, rfl⟩, rfl, ?_⟩
  · rw [htracked.instance_eq]
    exact (htracked.began_own _ _ hbgn).1
  · exact (htracked.began_unique _ _ _ _ hbgn hevid.began rfl).2

theorem snapshot_route_iff (hpres : Presentable node history handle) (route : Multiaddr) :
    (∃ snapshot, node.snapshot handle = .ok snapshot ∧ snapshot.publishableRoute = some route) ↔
      ∃ provider, PublicationEvidence history handle provider ∧
        route = provider.selectedBase ++ [Protocol.p2pCircuit, Protocol.p2p localPeerId] := by
  have hrt : ∀ provider : RelayProvider, provider.publishableRoute node.localPeerId =
      provider.selectedBase ++ [Protocol.p2pCircuit, Protocol.p2p localPeerId] := by
    intro provider
    rw [htracked.local_eq]
    simp [RelayProvider.publishableRoute, Multiaddr.with]
  constructor
  · rintro ⟨snapshot, hsnap, hsome⟩
    unfold RelayReservationNode.snapshot at hsnap
    split at hsnap
    · cases hsnap
    · rename_i entry hent
      cases hsnap
      obtain ⟨-, hst, -⟩ := (node.entry_eq_ok_iff _ _).mp hent
      simp only [ReservationEntry.snapshot, Option.ite_none_right_eq_some,
        Option.some.injEq] at hsome
      obtain ⟨hpubl, rfl⟩ := hsome
      refine ⟨entry.provider, ?_, hrt _⟩
      rw [← htracked.entry_handle hpres hent]
      exact (htracked.publishable_iff_evidence hst).mp hpubl
  · rintro ⟨provider, hevid, rfl⟩
    obtain ⟨entry, hent, rfl, rfl⟩ := htracked.entry_of_evidence hevid
    obtain ⟨-, hst, -⟩ := (node.entry_eq_ok_iff _ _).mp hent
    have hpubl := (htracked.publishable_iff_evidence hst).mpr hevid
    refine ⟨entry.snapshot node.localPeerId, ?_, ?_⟩
    · simp only [RelayReservationNode.snapshot, hent]
    · simp only [ReservationEntry.snapshot, hpubl, if_true, hrt]

end Tracked

theorem publication_evidence {label : RelayLabel} {handle : RelayReservationHandle}
    {route : Multiaddr} {limits : ExpectedRelayLimits}
    (htracked : Tracked nodeInstanceId localPeerId history node)
    (hs : RelayStep history node label next)
    (hlbl : label.2 = .ok (.event (.publishable handle route limits))) :
    ∃ provider, PublicationEvidence (history ++ [label]) handle provider ∧
      Began history handle provider ∧
      route = provider.selectedBase ++ [Protocol.p2pCircuit, Protocol.p2p localPeerId] ∧
      limits = provider.expectedLimits := by
  have hn := htracked.step hs
  obtain ⟨call, result⟩ := label
  obtain ⟨hpres, hper⟩ := hs
  cases hlbl
  have hpfs := node.performs call
  rw [← hper] at hpfs
  cases hpfs with
  | kept reported observation current updated _ hent hout =>
    have hret := current.returns_observe reported node.localPeerId observation
    rw [hout] at hret
    obtain _ | ⟨_, _, hhdl, hprov, -, hpubl⟩ | _ := hret
    obtain ⟨rfl, rfl, rfl, hsta⟩ := hpubl _ _ _ rfl
    obtain ⟨-, hst, -⟩ := (node.entry_eq_ok_iff _ _).mp hent
    have hevid := (hn.publishable_iff_evidence
      (FiniteMap.getElem?_insert _ _ _ _ |>.trans (if_pos rfl))).mp hsta
    rw [hhdl, hprov] at hevid
    refine ⟨current.provider, hevid, (htracked.entry_began _ _ hst).1, ?_, rfl⟩
    rw [htracked.local_eq]
    simp [RelayProvider.publishableRoute, Multiaddr.with]

/-- A node publishes a handle's route at most once and only on complete evidence. -/
theorem publication_on_complete_evidence
    (hrun : RelayRun nodeInstanceId localPeerId history node) :
    (∀ handle, history.countP (emitsPublishable handle) ≤ 1) ∧
    (∀ before label after handle route limits, history = before ++ label :: after →
      label.2 = .ok (.event (.publishable handle route limits)) →
      ∃ provider, PublicationEvidence (before ++ [label]) handle provider ∧
        Began before handle provider ∧
        route = provider.selectedBase ++ [Protocol.p2pCircuit, Protocol.p2p localPeerId] ∧
        limits = provider.expectedLimits) ∧
    (∀ handle, Presentable node history handle → ∀ route,
      (∃ snapshot, node.snapshot handle = .ok snapshot ∧ snapshot.publishableRoute = some route) ↔
        ∃ provider, PublicationEvidence history handle provider ∧
          route = provider.selectedBase ++ [Protocol.p2pCircuit, Protocol.p2p localPeerId]) := by
  have htracked := tracked_of_run hrun
  refine ⟨?_, ?_, ?_⟩
  · exact fun handle => (htracked.emissions_le_one handle).1
  · rintro before label after handle route limits rfl hlabel
    obtain ⟨source, target, hbefore, hstep, -⟩ := hrun.step_at
    exact publication_evidence (tracked_of_run hbefore) hstep hlabel
  · exact fun handle hpresentable route => htracked.snapshot_route_iff hpresentable route

theorem RelayRun.call (hrun : RelayRun nodeInstanceId localPeerId history node)
    (call : RelayCall) (result : Except RelayReservationError RelayReply)
    (hpres : ∀ handle observation, call = .observe handle observation →
      Presentable node history handle)
    (hres : (node.perform call).1 = result) :
    RelayRun nodeInstanceId localPeerId (history ++ [(call, result)])
      (node.perform call).2 :=
  hrun.extend ⟨hpres, by rw [← hres]⟩

def sampleProvider (byte : UInt8) : RelayProvider where
  relayPeerId := samplePeer byte
  bases := [providerBase "relay.auki.network" 4001 .tcp (samplePeer byte)]
  selectedTransport := .tcp
  expectedLimits := ⟨120, 131072, by decide, by decide, by decide, by decide⟩
  exists_selected := by simp [providerBase, providerBaseTransport]

def sampleHandle : RelayReservationHandle := ⟨7, samplePeer 2, 1, 11⟩

def sampleBegin : RelayLabel :=
  .started (sampleProvider 2) 11 sampleHandle

/-- Node 7 after its first `begin`. -/
def sampleNode : RelayReservationNode :=
  ((RelayReservationNode.new 7 (samplePeer 1)).perform sampleBegin.1).2

theorem sampleNode_run : RelayRun 7 (samplePeer 1) [sampleBegin] sampleNode :=
  RelayRun.call .start sampleBegin.1 sampleBegin.2 (by simp [sampleBegin]) (by decide +kernel)

theorem RelayRun.observeSample (hrun : RelayRun 7 (samplePeer 1) (sampleBegin :: history) node)
    (observation : Observation) (result : Except RelayReservationError RelayReply)
    (hres : (node.perform (.observe sampleHandle observation)).1 = result) :
    RelayRun 7 (samplePeer 1)
      (sampleBegin :: (history ++ [(RelayCall.observe sampleHandle observation, result)]))
      (node.perform (.observe sampleHandle observation)).2 := by
  refine RelayRun.call hrun _ result ?_ hres
  rintro handle reported heq
  cases heq
  exact .inr ⟨sampleProvider 2, 11, List.mem_cons_self⟩

def samplePublished : RelayReply :=
  .event (.publishable sampleHandle
    ((sampleProvider 2).selectedBase ++ [Protocol.p2pCircuit, Protocol.p2p (samplePeer 1)])
    (sampleProvider 2).expectedLimits)

def sampleAcceptance : Observation :=
  .acceptance false (some (sampleProvider 2).expectedLimits.observed)

/-- Listener address and exact acceptance publish the route, and the snapshot
shows it. -/
theorem publication_on_complete_evidence_sample :
    ∃ history node, RelayRun 7 (samplePeer 1) history node ∧
      history.countP (emitsPublishable sampleHandle) = 1 ∧
      ((∃ snapshot, node.snapshot sampleHandle = .ok snapshot ∧ snapshot.publishableRoute =
            some ((sampleProvider 2).selectedBase ++
              [Protocol.p2pCircuit, Protocol.p2p (samplePeer 1)])) ↔
        ∃ provider, PublicationEvidence history sampleHandle provider ∧
          (sampleProvider 2).selectedBase ++ [Protocol.p2pCircuit, Protocol.p2p (samplePeer 1)] =
            provider.selectedBase ++ [Protocol.p2pCircuit, Protocol.p2p (samplePeer 1)]) := by
  have hlistener := RelayRun.observeSample sampleNode_run (.listenerAddress 11 [])
    (.ok (.event (.evidenceRecorded sampleHandle))) (by decide +kernel)
  have hpublished := RelayRun.observeSample hlistener sampleAcceptance
    (.ok samplePublished) (by decide +kernel)
  refine ⟨_, _, hpublished, by decide +kernel, ?_⟩
  exact (publication_on_complete_evidence hpublished).2.2 sampleHandle
    (.inr ⟨sampleProvider 2, 11, List.mem_cons_self⟩) _

/-- A cancel, closure or no-connection report for the handle, accepted or
refused. -/
def reportsEnd (handle : RelayReservationHandle) (label : RelayLabel) : Bool :=
  match label.1 with
  | .observe reported observation => reported = handle && observation.isTerminal
  | .begin _ _ => false

/-- A refused no-connection report does not prevent a later publication. -/
theorem publication_after_refused_report :
    ¬∀ (nodeInstanceId : Uuid) (localPeerId : PeerId) (history : List RelayLabel)
        (node : RelayReservationNode), RelayRun nodeInstanceId localPeerId history node →
      ∀ before label after handle, history = before ++ label :: after →
        emitsPublishable handle label = true →
        before.any (reportsEnd handle) = false := by
  intro hliteral
  have hconnected := RelayRun.observeSample sampleNode_run (.directConnection 5)
    (.ok (.event (.evidenceRecorded sampleHandle))) (by decide +kernel)
  have hrefused := RelayRun.observeSample hconnected .noDirectConnection
    (.error (.connectionStillOpen 5)) (by decide +kernel)
  have hlistener := RelayRun.observeSample hrefused (.listenerAddress 11 [])
    (.ok (.event (.evidenceRecorded sampleHandle))) (by decide +kernel)
  have hpublished := RelayRun.observeSample hlistener sampleAcceptance
    (.ok samplePublished) (by decide +kernel)
  have hnone := hliteral _ _ _ _ hpublished _ _ [] sampleHandle
    (List.cons_append ..).symm (by decide +kernel)
  revert hnone
  decide +kernel

end AukiSdk.Relay
