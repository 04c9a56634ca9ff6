import AukiSdk.Peer.Lifecycle
import AukiSdk.Peer.ProtocolRegistry

/-!
# The runtime fence of one peer

The registry, the fence and the published status as three cells, which calls update in turn.
-/

namespace AukiSdk.Peer

open AukiSdk.Foundation AukiSdk.Net AukiSdk.Routing

/-- Who runs `shutdown_all` or `abort_all`. -/
inductive Drainer (Caller : Type) where
  | monitor
  | shutdown
  | drop
  | other (caller : Caller)
  deriving DecidableEq

/-- Where one `shutdown_all` or `abort_all` is. -/
inductive DrainPhase where
  | idle
  | fenced
  /-- The servers are out of the registry, to be shut down or dropped. -/
  | drained
  | returned
  deriving DecidableEq

/-- Where the owner of the peer is. -/
inductive RuntimeOwner where
  | running
  /-- The context is fenced; `begin_shutdown` follows. -/
  | fenced (dropping abort : Bool)
  | constructed
  | joining
  | cleaning
  | dropping
  | gone
  deriving DecidableEq

structure PeerRuntime (Caller : Type) where
  protocols : ProtocolRuntime
  handles : ℕ → HandlePhase
  drains : Drainer Caller → DrainPhase
  relayRequired : Bool
  controller : PeerStatusController
  monitor : MonitorPhase
  monitorShutdown : Bool
  monitorAborted : Bool
  owner : RuntimeOwner

inductive RuntimeLabel (Caller : Type) where
  | register (protocolId : String) (serve : Except P2pError Unit)
  | unmount (generation : ℕ)
  | takeServer (generation : ℕ)
  | drainFence (drainer : Drainer Caller)
  | drainTake (drainer : Drainer Caller)
  | drainReturn (drainer : Drainer Caller)
  | observe (snapshot : RuntimeSignalSnapshot)
  | publish
  | signalsChanged
  | signalsClosed
  | monitorCancelled
  | monitorAborted
  /-- `shutdown`, or `drop` of a peer or of its shutdown future. -/
  | fence (dropping : Bool)
  | beginShutdown
  | pollShutdown
  | monitorJoined
  | finishShutdown (clean : Bool)
  | dropped

variable {Caller : Type} [DecidableEq Caller]

namespace PeerRuntime

/-- Whether a drainer calls `shutdown_all` or `abort_all` now. -/
def calls (peer : PeerRuntime Caller) : Drainer Caller → Bool
  | .monitor =>
    match peer.monitor with
    | .publishing observed => observed.isTerminal
    | _ => false
  | .shutdown => peer.owner == .cleaning
  | .drop => peer.owner == .dropping
  | .other _ => true

def setDrain (peer : PeerRuntime Caller) (drainer : Drainer Caller) (phase : DrainPhase) :
    PeerRuntime Caller :=
  { peer with drains := Function.update peer.drains drainer phase }

def setHandle (peer : PeerRuntime Caller) (generation : ℕ) (phase : HandlePhase) :
    PeerRuntime Caller :=
  { peer with handles := Function.update peer.handles generation phase }

/-- `AukiPeerProtocolContext::fence`, on the way to `begin_shutdown`. -/
def fenceOwner (peer : PeerRuntime Caller) (dropping abort : Bool) : PeerRuntime Caller :=
  { peer with protocols := peer.protocols.fence, owner := .fenced dropping abort }

def step (peer : PeerRuntime Caller) : RuntimeLabel Caller → Option (PeerRuntime Caller)
  | .register protocolId serve =>
    some { peer with protocols := (peer.protocols.register protocolId serve).2 }
  -- The registry is drained before its last handle is gone.
  | .unmount generation =>
    match peer.protocols.entries generation, peer.handles generation with
    | some entry, .held =>
      some ({ peer with
        protocols := peer.protocols.unmount entry.protocolId generation }.setHandle
          generation .unmounted)
    | _, _ => none
  | .takeServer generation =>
    match peer.handles generation with
    | .unmounted =>
      some ({ peer with protocols := peer.protocols.takeServers [generation] }.setHandle
        generation .closed)
    | _ => none
  | .drainFence drainer =>
    match peer.drains drainer, peer.calls drainer with
    | .idle, true =>
      some ({ peer with protocols := peer.protocols.fence }.setDrain drainer .fenced)
    | _, _ => none
  | .drainTake drainer =>
    match peer.drains drainer, peer.calls drainer with
    | .fenced, true =>
      some ({ peer with protocols := peer.protocols.drain }.setDrain drainer .drained)
    | _, _ => none
  | .drainReturn drainer =>
    match peer.drains drainer, peer.calls drainer with
    | .drained, true => some (peer.setDrain drainer .returned)
    | _, _ => none
  | .observe snapshot =>
    match peer.monitor with
    | .observing =>
      some { peer with monitor := .publishing (observedStatus snapshot peer.relayRequired) }
    | _ => none
  | .publish =>
    match peer.monitor with
    | .publishing observed =>
      if observed.isTerminal then
        match peer.drains .monitor with
        | .returned =>
          some { peer with
            controller := peer.controller.update observed
            monitor := .ended }
        | _ => none
      else
        some { peer with
          controller := peer.controller.update observed
          monitor := .selecting }
    | _ => none
  | .signalsChanged =>
    match peer.monitor with
    | .selecting => some { peer with monitor := .observing }
    | _ => none
  | .signalsClosed =>
    match peer.monitor with
    | .selecting => some { peer with monitor := .publishing (.failed .supervisor) }
    | _ => none
  | .monitorCancelled =>
    match peer.monitor, peer.monitorShutdown with
    | .selecting, true => some { peer with monitor := .ended }
    | _, _ => none
  | .monitorAborted =>
    match peer.monitor, peer.monitorAborted with
    | .observing, true => some { peer with monitor := .ended }
    | .selecting, true => some { peer with monitor := .ended }
    | _, _ => none
  | .fence dropping =>
    match peer.owner, dropping with
    | .running, _ => some (peer.fenceOwner dropping dropping)
    -- The handle of the monitor is still there.
    | .constructed, true => some (peer.fenceOwner true true)
    | .joining, true => some (peer.fenceOwner true false)
    | .cleaning, true => some (peer.fenceOwner true false)
    | _, _ => none
  | .beginShutdown =>
    match peer.owner with
    | .fenced dropping abort =>
      some { peer with
        controller := peer.controller.beginShutdown
        monitorShutdown := true
        monitorAborted := abort
        owner := if dropping then .dropping else .constructed }
    | _ => none
  | .pollShutdown =>
    match peer.owner with
    | .constructed => some { peer with owner := .joining }
    | _ => none
  | .monitorJoined =>
    match peer.owner, peer.monitor with
    | .joining, .ended => some { peer with owner := .cleaning }
    | _, _ => none
  | .finishShutdown clean =>
    match peer.owner, peer.drains .shutdown with
    | .cleaning, .returned =>
      some { peer with
        controller := peer.controller.finishShutdown clean
        owner := .gone }
    | _, _ => none
  | .dropped =>
    match peer.owner, peer.drains .drop with
    | .dropping, .returned => some { peer with owner := .gone }
    | _, _ => none

/-- A peer whose start has returned. -/
def started (relayRequired : Bool) : PeerRuntime Caller where
  protocols := .new
  handles := fun _ => .held
  drains := fun _ => .idle
  relayRequired
  controller := .new .ready
  monitor := .observing
  monitorShutdown := false
  monitorAborted := false
  owner := .running

/-- The three cells in the order they are written. -/
structure Fenced (peer : PeerRuntime Caller) : Prop where
  status : peer.controller.status.isTerminal = true → peer.protocols.running = false
  owner : peer.owner ≠ .running → peer.protocols.running = false
  draining : ∀ drainer, peer.drains drainer ≠ .idle → peer.protocols.running = false
  drained : ∀ drainer, peer.drains drainer = .drained ∨ peer.drains drainer = .returned →
    peer.protocols.registrations = []

structure Sound (peer : PeerRuntime Caller) : Prop where
  registry : peer.protocols.Sound peer.handles
  fenced : peer.Fenced

variable {peer next : PeerRuntime Caller}

omit [DecidableEq Caller] in
theorem Fenced.of_stopped (hstop : next.protocols.running = false)
    (hdra : ∀ drainer, next.drains drainer = .drained ∨ next.drains drainer = .returned →
      next.protocols.registrations = []) : next.Fenced :=
  ⟨fun _ => hstop, fun _ => hstop, fun _ _ => hstop, hdra⟩

omit [DecidableEq Caller] in
theorem Fenced.frame (fenced : peer.Fenced)
    (hstat : next.controller.status.isTerminal = true → peer.controller.status.isTerminal = true)
    (hown : next.owner = peer.owner) (hdra : next.drains = peer.drains)
    (hrunning : next.protocols.running = peer.protocols.running)
    (hemp : peer.protocols.running = false → peer.protocols.registrations = [] →
      next.protocols.registrations = []) : next.Fenced := by
  constructor
  · intro hterm
    rw [hrunning]
    exact fenced.status (hstat hterm)
  · intro hne
    rw [hrunning]
    exact fenced.owner (hown ▸ hne)
  · intro drainer hne
    rw [hrunning]
    exact fenced.draining drainer (hdra ▸ hne)
  · intro drainer hp
    rw [hdra] at hp
    refine hemp (fenced.draining drainer ?_) (fenced.drained drainer hp)
    obtain hp | hp := hp <;> simp [hp]

theorem Fenced.setDrain (fenced : peer.Fenced) {drainer : Drainer Caller} {phase : DrainPhase}
    (hstop : peer.protocols.running = false)
    (hemp : phase = .drained ∨ phase = .returned → peer.protocols.registrations = []) :
    (peer.setDrain drainer phase).Fenced := by
  refine Fenced.of_stopped ?_ ?_
  · exact hstop
  intro other hp
  by_cases hsm : other = drainer
  · exact hemp (by simpa [PeerRuntime.setDrain, hsm] using hp)
  · exact fenced.drained other (by simpa [PeerRuntime.setDrain, hsm] using hp)

variable {label : RuntimeLabel Caller}

theorem Fenced.step (fenced : peer.Fenced) (hs : peer.step label = some next) : next.Fenced := by
  cases label with
  | register protocolId serve =>
    cases hs
    refine fenced.frame id rfl rfl ?_ ?_
    · exact ProtocolRuntime.running_register ..
    · intro hstop hemp
      dsimp only
      rw [ProtocolRuntime.register_of_stopped hstop]
      exact hemp
  | unmount generation =>
    unfold PeerRuntime.step at hs
    dsimp only at hs
    split at hs <;> cases hs
    refine fenced.frame id rfl rfl ?_ ?_
    · exact ProtocolRuntime.running_unmount ..
    · intro _ hemp
      have hsub := peer.protocols.registrations_unmount (by assumption : ProtocolEntry).protocolId
        generation
      rw [hemp] at hsub
      exact List.sublist_nil.mp hsub
  | takeServer generation =>
    unfold PeerRuntime.step at hs
    dsimp only at hs
    split at hs <;> cases hs
    exact fenced.frame id rfl rfl rfl fun _ hemp => hemp
  | drainFence drainer =>
    unfold PeerRuntime.step at hs
    dsimp only at hs
    split at hs <;> cases hs
    have hfen : ({ peer with protocols := peer.protocols.fence } :
        PeerRuntime Caller).Fenced := .of_stopped rfl fenced.drained
    exact hfen.setDrain rfl fun hp => by simp at hp
  | drainTake drainer =>
    unfold PeerRuntime.step at hs
    dsimp only at hs
    split at hs <;> cases hs
    rename_i hp _
    have hstop := fenced.draining drainer (by simp [hp])
    have hfen : ({ peer with protocols := peer.protocols.drain } :
        PeerRuntime Caller).Fenced := .of_stopped hstop fun _ _ => rfl
    exact hfen.setDrain hstop fun _ => rfl
  | drainReturn drainer =>
    unfold PeerRuntime.step at hs
    dsimp only at hs
    split at hs <;> cases hs
    rename_i hp _
    have hstop := fenced.draining drainer (by simp [hp])
    exact fenced.setDrain hstop fun _ => fenced.drained drainer (.inl hp)
  | publish =>
    unfold PeerRuntime.step at hs
    dsimp only at hs
    split at hs
    · split_ifs at hs with hterm
      · split at hs <;> cases hs
        rename_i hp
        exact Fenced.of_stopped (fenced.draining .monitor (by simp [hp])) fenced.drained
      · cases hs
        refine fenced.frame ?_ rfl rfl rfl fun _ hemp => hemp
        intro hn
        obtain heq | ⟨-, heq⟩ := peer.controller.update_cases _
        · exact heq ▸ hn
        · dsimp only at hn
          rw [heq] at hn
          exact absurd hn hterm
    · cases hs
  | observe | signalsChanged | signalsClosed | monitorCancelled | monitorAborted =>
    unfold PeerRuntime.step at hs
    dsimp only at hs
    split at hs <;> cases hs
    all_goals exact fenced.frame id rfl rfl rfl fun _ hemp => hemp
  | fence dropping =>
    unfold PeerRuntime.step at hs
    dsimp only at hs
    split at hs <;> cases hs
    all_goals exact Fenced.of_stopped rfl fenced.drained
  | beginShutdown | pollShutdown | monitorJoined | finishShutdown | dropped =>
    unfold PeerRuntime.step at hs
    dsimp only at hs
    split at hs <;> cases hs
    all_goals exact Fenced.of_stopped (fenced.owner (by simp [*])) fenced.drained

theorem Sound.step (sound : peer.Sound) (hs : peer.step label = some next) : next.Sound := by
  refine ⟨?_, sound.fenced.step hs⟩
  have hreg := sound.registry
  cases label with
  | register protocolId serve =>
    cases hs
    exact hreg.register protocolId serve
  | unmount generation =>
    unfold PeerRuntime.step at hs
    dsimp only at hs
    split at hs <;> cases hs
    rename_i entry hent _
    exact hreg.unmount hent
  | takeServer generation =>
    unfold PeerRuntime.step at hs
    dsimp only at hs
    split at hs <;> cases hs
    rename_i hhdl
    exact hreg.take hhdl
  | drainTake drainer =>
    unfold PeerRuntime.step at hs
    dsimp only at hs
    split at hs <;> cases hs
    exact hreg.drain
  | drainFence | fence =>
    unfold PeerRuntime.step at hs
    dsimp only at hs
    split at hs <;> cases hs
    all_goals exact hreg.fence
  | publish =>
    unfold PeerRuntime.step at hs
    dsimp only at hs
    split at hs
    · split_ifs at hs
      · split at hs <;> cases hs
        exact hreg
      · cases hs
        exact hreg
    · cases hs
  | _ =>
    unfold PeerRuntime.step at hs
    dsimp only at hs
    split at hs <;> cases hs
    all_goals exact hreg

omit [DecidableEq Caller] in
theorem Sound.started (relayRequired : Bool) :
    (started relayRequired : PeerRuntime Caller).Sound where
  registry := ProtocolRuntime.sound_new
  fenced :=
    { status := fun hterm => by cases hterm
      owner := fun hne => absurd rfl hne
      draining := fun _ hne => absurd rfl hne
      drained := fun _ _ => rfl }

theorem counts_step (hs : peer.step label = some next) :
    peer.protocols.served.Counts next.protocols.served := by
  have hsm : peer.protocols.served.Counts peer.protocols.served := .inl ⟨rfl, rfl⟩
  cases label with
  | register protocolId serve =>
    cases hs
    exact ProtocolRuntime.counts_register ..
  | unmount generation =>
    unfold PeerRuntime.step at hs
    dsimp only at hs
    split at hs <;> cases hs
    exact ProtocolRuntime.counts_unmount ..
  | drainTake drainer =>
    unfold PeerRuntime.step at hs
    dsimp only at hs
    split at hs <;> cases hs
    exact ServedProtocolSnapshot.counts_replace ..
  | publish =>
    unfold PeerRuntime.step at hs
    dsimp only at hs
    split at hs
    · split_ifs at hs
      · split at hs <;> cases hs
        exact hsm
      · cases hs
        exact hsm
    · cases hs
  | _ =>
    unfold PeerRuntime.step at hs
    dsimp only at hs
    split at hs <;> cases hs
    all_goals exact hsm

/-- What has stopped or returned stays so. -/
structure Later (before after : PeerRuntime Caller) : Prop where
  stopped : before.protocols.running = false → after.protocols.running = false
  returned : ∀ drainer, before.drains drainer = .returned → after.drains drainer = .returned

omit [DecidableEq Caller] in
theorem Later.refl (peer : PeerRuntime Caller) : peer.Later peer := ⟨id, fun _ => id⟩

theorem later_setDrain {drainer : Drainer Caller} {phase : DrainPhase}
    (hnot : peer.drains drainer ≠ .returned)
    (hstop : peer.protocols.running = false → next.protocols.running = false)
    (hdra : next.drains = peer.drains) : peer.Later (next.setDrain drainer phase) := by
  refine ⟨hstop, fun other hret => ?_⟩
  have hne : other ≠ drainer := by
    rintro rfl
    exact hnot hret
  simpa [PeerRuntime.setDrain, hne, hdra] using hret

theorem later_step (hs : peer.step label = some next) : peer.Later next := by
  cases label with
  | register protocolId serve =>
    cases hs
    exact ⟨fun hstop => by simpa using hstop, fun _ => id⟩
  | unmount generation =>
    unfold PeerRuntime.step at hs
    dsimp only at hs
    split at hs <;> cases hs
    exact ⟨fun hstop => by simpa [setHandle] using hstop, fun _ => id⟩
  | takeServer generation =>
    unfold PeerRuntime.step at hs
    dsimp only at hs
    split at hs <;> cases hs
    exact ⟨id, fun _ => id⟩
  | drainFence drainer =>
    unfold PeerRuntime.step at hs
    dsimp only at hs
    split at hs <;> cases hs
    exact later_setDrain (by simp [*]) (fun _ => rfl) rfl
  | drainTake drainer =>
    unfold PeerRuntime.step at hs
    dsimp only at hs
    split at hs <;> cases hs
    exact later_setDrain (by simp [*]) id rfl
  | drainReturn drainer =>
    unfold PeerRuntime.step at hs
    dsimp only at hs
    split at hs <;> cases hs
    exact later_setDrain (by simp [*]) id rfl
  | publish =>
    unfold PeerRuntime.step at hs
    dsimp only at hs
    split at hs
    · split_ifs at hs
      · split at hs <;> cases hs
        exact ⟨id, fun _ => id⟩
      · cases hs
        exact ⟨id, fun _ => id⟩
    · cases hs
  | fence dropping =>
    unfold PeerRuntime.step at hs
    dsimp only at hs
    split at hs <;> cases hs
    all_goals exact ⟨fun _ => rfl, fun _ => id⟩
  | _ =>
    unfold PeerRuntime.step at hs
    dsimp only at hs
    split at hs <;> cases hs
    all_goals exact ⟨id, fun _ => id⟩

theorem later_run {labels : List (RuntimeLabel Caller)}
    (hrun : runSteps PeerRuntime.step peer labels = some next) : peer.Later next := by
  apply invariant_of_run (Later.refl peer) _ hrun
  intro state label after hlat hs
  have hn := later_step hs
  exact ⟨hn.stopped ∘ hlat.stopped, fun drainer => hn.returned drainer ∘ hlat.returned drainer⟩

theorem others_stay (sound : peer.Sound) (hs : peer.step label = some next)
    {generation other : ℕ} (hlbl : label = .unmount generation ∨ label = .takeServer generation)
    (hne : other ≠ generation) {protocolId : String}
    (hm : (protocolId, other) ∈ peer.protocols.registrations) :
    (protocolId, other) ∈ next.protocols.registrations ∧
      next.protocols.entries other = some { protocolId, server := true } := by
  have hent := sound.registry.mounted protocolId other hm
  obtain rfl | rfl := hlbl
  · unfold PeerRuntime.step at hs
    dsimp only at hs
    split at hs <;> cases hs
    refine ⟨(ProtocolRuntime.mem_unmount sound.registry hne).mpr hm, ?_⟩
    exact (congrFun (ProtocolRuntime.entries_unmount ..) other).trans hent
  · unfold PeerRuntime.step at hs
    dsimp only at hs
    split at hs <;> cases hs
    refine ⟨hm, ?_⟩
    exact (if_neg (fun hin => hne (List.mem_singleton.mp hin))).trans hent

structure RegistryContract (peer : PeerRuntime Caller) : Prop where
  one_live : ∀ protocolId first second, (protocolId, first) ∈ peer.protocols.registrations →
    (protocolId, second) ∈ peer.protocols.registrations → first = second
  sorted : peer.protocols.served.protocolIds.Pairwise (· < ·)
  served : ∀ protocolId, protocolId ∈ peer.protocols.served.protocolIds ↔
    ∃ generation, (protocolId, generation) ∈ peer.protocols.registrations
  counted : ∀ label next, peer.step label = some next →
    peer.protocols.served.Counts next.protocols.served
  others : ∀ label next generation, peer.step label = some next →
    label = .unmount generation ∨ label = .takeServer generation →
    ∀ protocolId other, other ≠ generation →
      (protocolId, other) ∈ peer.protocols.registrations →
      (protocolId, other) ∈ next.protocols.registrations ∧
        next.protocols.entries other = some { protocolId, server := true }
  /-- A server is taken at most once, and never before it is mounted. -/
  taken_once : ∀ generation, peer.protocols.taken.count generation ≤ 1 ∧
    (peer.protocols.entries generation = none → peer.protocols.taken.count generation = 0)
  /-- A server was taken once its registration is closed, dropped or drained. -/
  taken : ∀ generation entry, peer.protocols.entries generation = some entry →
    peer.handles generation = .closed ∨ peer.handles generation = .held ∧
      (entry.protocolId, generation) ∉ peer.protocols.registrations →
    peer.protocols.taken.count generation = 1
  refused : peer.controller.status.isTerminal = true →
    ∀ labels later, runSteps PeerRuntime.step peer labels = some later →
      later.protocols.Refuses
  emptied : ∀ drainer, peer.drains drainer = .returned →
    ∀ labels later, runSteps PeerRuntime.step peer labels = some later →
      later.protocols.served.protocolIds = []

theorem Sound.run (sound : peer.Sound) {labels : List (RuntimeLabel Caller)}
    (hrun : runSteps PeerRuntime.step peer labels = some next) : next.Sound :=
  invariant_of_run sound (fun _ _ _ sound hs => sound.step hs) hrun

/-- Registrations are unique and fenced in front of every terminal status. -/
theorem protocol_registry_fenced {relayRequired : Bool} {labels : List (RuntimeLabel Caller)}
    (hrun : runSteps PeerRuntime.step (started relayRequired) labels = some peer) :
    peer.RegistryContract := by
  have sound : peer.Sound := (Sound.started relayRequired).run hrun
  have hregistry := sound.registry
  constructor
  · exact fun protocolId first second hfirst hsecond => hregistry.key_unique hfirst hsecond
  · rw [hregistry.served]
    exact sortedUnique_strict _
  · intro protocolId
    rw [hregistry.served, mem_sortedUnique, ProtocolRuntime.keys]
    simp
  · exact fun label next hstep => counts_step hstep
  · exact fun label next generation hstep hlabel protocolId other hne hmem =>
      others_stay sound hstep hlabel hne hmem
  · intro generation
    refine ⟨?_, hregistry.untaken generation⟩
    cases hentry : peer.protocols.entries generation with
    | none => simp [hregistry.untaken generation hentry]
    | some entry =>
      rw [hregistry.once generation entry hentry]
      split_ifs <;> simp
  · rintro generation ⟨protocolId, server⟩ hentry hgone
    rw [hregistry.once generation _ hentry]
    cases server with
    | false => rfl
    | true =>
      obtain hclosed | ⟨hheld, hmem⟩ := hgone
      · have hholds := hregistry.closed generation hclosed
        rw [ProtocolRuntime.holds, hentry] at hholds
        cases hholds
      · obtain hin | hunmounted := hregistry.owned protocolId generation hentry
        · exact absurd hin hmem
        · rw [hheld] at hunmounted
          cases hunmounted
  · intro hterminal labels later hlater
    exact ProtocolRuntime.refuses_of_stopped
      ((later_run hlater).stopped (sound.fenced.status hterminal))
  · intro drainer hreturned labels later hlater
    have hsound := sound.run hlater
    have hempty := hsound.fenced.drained drainer
      (.inr ((later_run hlater).returned drainer hreturned))
    rw [hsound.registry.served, ProtocolRuntime.keys, hempty]
    rfl

def sampleLabels : List (RuntimeLabel Empty) :=
  [.register "/b/1.0.0" (.ok ()), .register "/a/1.0.0" (.ok ()), .unmount 1,
    .register "/b/1.0.0" (.ok ()), .takeServer 1,
    .observe { transport := .stopped, authority := .starting, confirmedRelayCount := 0,
               relayFailed := false },
    .drainFence .monitor, .drainTake .monitor, .drainReturn .monitor, .publish,
    .register "/c/1.0.0" (.ok ())]

theorem protocol_registry_fenced_sample : ∃ peer : PeerRuntime Empty,
    runSteps PeerRuntime.step (started false) sampleLabels = some peer ∧
      peer.protocols.taken = [1, 3, 2] ∧ peer.protocols.served.revision = 5 ∧
      peer.controller.status = .failed .transport ∧ peer.RegistryContract := by
  have hmap : (runSteps PeerRuntime.step (started false) sampleLabels).map
      (fun peer => (peer.protocols.taken, peer.protocols.served.revision,
        peer.controller.status)) = some ([1, 3, 2], 5, .failed .transport) := by
    decide +kernel
  obtain ⟨peer, hrun, heq⟩ := Option.map_eq_some_iff.mp hmap
  simp only [Prod.mk.injEq] at heq
  exact ⟨peer, hrun, heq.1, heq.2.1, heq.2.2, protocol_registry_fenced hrun⟩

end PeerRuntime

end AukiSdk.Peer
