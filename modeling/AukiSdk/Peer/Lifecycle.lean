import AukiSdk.Authority.SupervisorStatus
import AukiSdk.Transport.Observation

/-!
# The lifecycle of one peer

`PeerStatusController`, its two writers and its observers.
-/

namespace AukiSdk.Peer

open AukiSdk.Authority AukiSdk.Foundation
open AukiSdk.Transport (NodeObservationStatus)

inductive AukiPeerFailure where
  | transport
  | authority
  | authentication (kind : AuthFailureKind)
  | relay
  | supervisor
  | cleanup
  deriving DecidableEq

/-- What a wait for the end of a peer returns. -/
inductive AukiPeerExit where
  | stopped
  | failed (failure : AukiPeerFailure)
  deriving DecidableEq

inductive AukiPeerStatus where
  | ready
  | authorityUnavailable
  | relayUnavailable
  | failed (failure : AukiPeerFailure)
  | stopping
  | stopped
  deriving DecidableEq

namespace AukiPeerStatus

/-- No later ready transition is possible. -/
def isTerminal : AukiPeerStatus → Bool
  | .failed _ => true
  | .stopping => true
  | .stopped => true
  | _ => false

/-- The result a waiter returns when it reads this status. -/
def exit? : AukiPeerStatus → Option AukiPeerExit
  | .stopped => some .stopped
  | .failed failure => some (.failed failure)
  | _ => none

theorem isTerminal_of_exit {status : AukiPeerStatus} (hexit : status.exit?.isSome = true) :
    status.isTerminal = true := by
  cases status <;> first | rfl | cases hexit

end AukiPeerStatus

/-- What `RuntimeSignals::snapshot` collects. -/
structure RuntimeSignalSnapshot where
  transport : NodeObservationStatus
  authority : AuthorityStatus
  confirmedRelayCount : ℕ
  relayFailed : Bool

variable (snapshot : RuntimeSignalSnapshot)

def observedStatus (relayRequired : Bool) : AukiPeerStatus :=
  match snapshot.transport with
  | .failed _ => .failed .transport
  | .stopped => .failed .transport
  | .running =>
    match snapshot.authority with
    | .stopped => .failed .authority
    | .authenticationFailed kind => .failed (.authentication kind)
    | authority =>
      if snapshot.relayFailed then .failed .relay
      else
        match authority with
        | .starting => .authorityUnavailable
        | .expired .. => .authorityUnavailable
        | _ =>
          if relayRequired && snapshot.confirmedRelayCount == 0 then .relayUnavailable
          else .ready

theorem observedStatus_ne_stopped (relayRequired : Bool) :
    observedStatus snapshot relayRequired ≠ .stopped := by
  unfold observedStatus
  grind

inductive StartupReadiness where
  | waiting
  | ready
  deriving DecidableEq

inductive StartupReadinessError where
  | transport
  | authority
  | relay
  deriving DecidableEq

def startupReadiness (relayRequired : Bool) :
    Except StartupReadinessError StartupReadiness := do
  if relayRequired && snapshot.relayFailed then throw .relay
  match snapshot.transport with
  | .running => pure ()
  | .failed _ => throw .transport
  | .stopped => throw .transport
  let authorityReady ← match snapshot.authority with
    | .ready .. => pure true
    | .starting => pure false
    | .expired .. => pure false
    | .stopped => throw .authority
    | .authenticationFailed _ => throw .authority
  if authorityReady && (!relayRequired || decide (0 < snapshot.confirmedRelayCount)) then
    return .ready
  else return .waiting

/-- `PeerStatusState` and its watch channel.  Both are written under one lock. -/
structure PeerStatusController where
  status : AukiPeerStatus
  shuttingDown : Bool
  version : ℕ

namespace PeerStatusController

def new (status : AukiPeerStatus) : PeerStatusController :=
  { status, shuttingDown := false, version := 0 }

variable (controller : PeerStatusController)

def send (status : AukiPeerStatus) : PeerStatusController :=
  { controller with status, version := controller.version + 1 }

def update (status : AukiPeerStatus) :
    PeerStatusController :=
  if controller.shuttingDown || controller.status == status then controller
  else controller.send status

def beginShutdown : PeerStatusController :=
  if controller.shuttingDown then controller
  else { controller with shuttingDown := true }.send .stopping

def finishShutdown (clean : Bool) : PeerStatusController :=
  { controller with shuttingDown := true }.send
    (if clean then .stopped else .failed .cleanup)

theorem update_cases (status : AukiPeerStatus) : controller.update status = controller ∨
      controller.shuttingDown = false ∧ controller.update status = controller.send status := by
  unfold update
  split_ifs with href
  · exact .inl rfl
  · rw [Bool.or_eq_true, not_or, Bool.not_eq_true] at href
    exact .inr ⟨href.1, rfl⟩

theorem beginShutdown_cases :
    controller.shuttingDown = true ∧ controller.beginShutdown = controller ∨
      controller.shuttingDown = false ∧
        controller.beginShutdown = { controller with shuttingDown := true }.send .stopping := by
  unfold beginShutdown
  split_ifs with hbgn
  · exact .inl ⟨hbgn, rfl⟩
  · exact .inr ⟨Bool.not_eq_true _ ▸ hbgn, rfl⟩

end PeerStatusController

/-- Where `monitor_runtime` is. -/
inductive MonitorPhase where
  | observing
  /-- The signals are read; if they are terminal, the protocols are aborted first. -/
  | publishing (observed : AukiPeerStatus)
  | selecting
  | ended
  deriving DecidableEq

/-- Where the owner of the peer is. -/
inductive OwnerPhase where
  | running
  /-- `AukiPeer::shutdown` has built its future. -/
  | constructed
  /-- The future has taken the monitor's handle and awaits it. -/
  | joining
  | cleaning
  | gone
  deriving DecidableEq

/-- Where one `wait_stopped` is. -/
inductive WaiterPhase where
  | reading
  | waiting (seen : ℕ)
  | returned (exit : AukiPeerExit)
  deriving DecidableEq

def WaiterPhase.returned? : WaiterPhase → Option AukiPeerExit
  | .returned exit => some exit
  | _ => none

structure PeerLifecycle (Waiter : Type) where
  relayRequired : Bool
  controller : PeerStatusController
  monitor : MonitorPhase
  owner : OwnerPhase
  monitorShutdown : Bool
  monitorAborted : Bool
  waiters : Waiter → WaiterPhase

inductive LifecycleLabel (Waiter : Type) where
  | observe (snapshot : RuntimeSignalSnapshot)
  | publish
  | signalsChanged
  | signalsClosed
  | monitorCancelled
  | monitorAborted
  | constructShutdown
  | pollShutdown
  | monitorJoined
  | finishShutdown (clean : Bool)
  /-- The peer, or its shutdown future, is dropped. -/
  | drop
  | read (waiter : Waiter)
  | wake (waiter : Waiter)

variable {Waiter : Type} [DecidableEq Waiter]

namespace PeerLifecycle

/-- Every sender of the watch channel is dropped. -/
def closed (peer : PeerLifecycle Waiter) : Bool :=
  peer.owner == .gone && peer.monitor == .ended

def goto (peer : PeerLifecycle Waiter) (waiter : Waiter) (phase : WaiterPhase) :
    PeerLifecycle Waiter :=
  { peer with waiters := Function.update peer.waiters waiter phase }

/-- `drop` of an `AukiPeer` that is not closed. -/
def dropOwner (peer : PeerLifecycle Waiter) (abort : Bool) : PeerLifecycle Waiter :=
  { peer with
    controller := peer.controller.beginShutdown
    monitorShutdown := true
    monitorAborted := abort
    owner := .gone }

def step (peer : PeerLifecycle Waiter) :
    LifecycleLabel Waiter → Option (PeerLifecycle Waiter)
  | .observe snapshot =>
    match peer.monitor with
    | .observing =>
      some { peer with monitor := .publishing (observedStatus snapshot peer.relayRequired) }
    | _ => none
  | .publish =>
    match peer.monitor with
    | .publishing observed =>
      some { peer with
        controller := peer.controller.update observed
        monitor := if observed.isTerminal then .ended else .selecting }
    | _ => none
  -- The token may be cancelled between the two polls of the biased select.
  | .signalsChanged =>
    match peer.monitor with
    | .selecting => some { peer with monitor := .observing }
    | _ => none
  | .signalsClosed =>
    match peer.monitor with
    | .selecting => some { peer with monitor := .publishing (.failed .supervisor) }
    | _ => none
  | .monitorCancelled =>
    match peer.monitor, peer.monitorShutdown with
    | .selecting, true => some { peer with monitor := .ended }
    | _, _ => none
  | .monitorAborted =>
    match peer.monitor, peer.monitorAborted with
    | .observing, true => some { peer with monitor := .ended }
    | .selecting, true => some { peer with monitor := .ended }
    | _, _ => none
  | .constructShutdown =>
    match peer.owner with
    | .running =>
      some { peer with
        controller := peer.controller.beginShutdown
        monitorShutdown := true
        owner := .constructed }
    | _ => none
  | .pollShutdown =>
    match peer.owner with
    | .constructed => some { peer with owner := .joining }
    | _ => none
  | .monitorJoined =>
    match peer.owner, peer.monitor with
    | .joining, .ended => some { peer with owner := .cleaning }
    | _, _ => none
  | .finishShutdown clean =>
    match peer.owner with
    | .cleaning =>
      some { peer with
        controller := peer.controller.finishShutdown clean
        owner := .gone }
    | _ => none
  | .drop =>
    match peer.owner with
    -- The handle of the monitor is still there.
    | .running => some (peer.dropOwner true)
    | .constructed => some (peer.dropOwner true)
    | .joining => some (peer.dropOwner false)
    | .cleaning => some (peer.dropOwner false)
    | .gone => none
  | .read waiter =>
    match peer.waiters waiter with
    | .reading =>
      match peer.controller.status.exit? with
      | some exit => some (peer.goto waiter (.returned exit))
      | none => some (peer.goto waiter (.waiting peer.controller.version))
    | _ => none
  | .wake waiter =>
    match peer.waiters waiter with
    | .waiting seen =>
      if seen ≠ peer.controller.version then some (peer.goto waiter .reading)
      else if peer.closed then some (peer.goto waiter (.returned (.failed .supervisor)))
      else none
    | _ => none

/-- A peer whose start has returned. -/
def started (relayRequired : Bool) : PeerLifecycle Waiter :=
  { relayRequired
    controller := .new .ready
    monitor := .observing
    owner := .running
    monitorShutdown := false
    monitorAborted := false
    waiters := fun _ => .reading }

/-- What a wait that returns now returns, as long as nothing more is published. -/
def Settled (peer : PeerLifecycle Waiter) (exit : AukiPeerExit) : Prop :=
  peer.controller.status.exit? = some exit ∨
    peer.controller.status.exit? = none ∧ peer.closed = true ∧ exit = .failed .supervisor

omit [DecidableEq Waiter] in
theorem Settled.unique {peer : PeerLifecycle Waiter} {first second : AukiPeerExit}
    (hfst : peer.Settled first) (hsnd : peer.Settled second) : first = second := by
  unfold Settled at hfst hsnd
  grind

variable {peer next : PeerLifecycle Waiter}

inductive Effect (peer : PeerLifecycle Waiter) :
    LifecycleLabel Waiter → PeerLifecycle Waiter → Prop where
  | monitored (label : LifecycleLabel Waiter) (phase : MonitorPhase)
      (hmonitor : peer.monitor ≠ .ended) (hphase : phase ≠ .publishing .stopped) :
      Effect peer label { peer with monitor := phase }
  | published (observed : AukiPeerStatus) (hmonitor : peer.monitor = .publishing observed) :
      Effect peer .publish { peer with
        controller := peer.controller.update observed
        monitor := if observed.isTerminal then .ended else .selecting }
  | constructed (howner : peer.owner = .running) :
      Effect peer .constructShutdown { peer with
        controller := peer.controller.beginShutdown
        monitorShutdown := true
        owner := .constructed }
  | moved (label : LifecycleLabel Waiter) (phase : OwnerPhase) (hrunning : peer.owner ≠ .running)
      (hgone : peer.owner ≠ .gone) (hphase : phase ≠ .running ∧ phase ≠ .gone) :
      Effect peer label { peer with owner := phase }
  | finished (clean : Bool) (howner : peer.owner = .cleaning) :
      Effect peer (.finishShutdown clean) { peer with
        controller := peer.controller.finishShutdown clean
        owner := .gone }
  | dropped (abort : Bool) (howner : peer.owner ≠ .gone) :
      Effect peer .drop (peer.dropOwner abort)
  | returned (label : LifecycleLabel Waiter) (waiter : Waiter) (exit : AukiPeerExit)
      (hexit : peer.Settled exit) : Effect peer label (peer.goto waiter (.returned exit))
  | awaited (label : LifecycleLabel Waiter) (waiter : Waiter)
      (hexit : peer.controller.status.exit? = none) :
      Effect peer label (peer.goto waiter (.waiting peer.controller.version))
  | woken (label : LifecycleLabel Waiter) (waiter : Waiter) :
      Effect peer label (peer.goto waiter .reading)

variable {label : LifecycleLabel Waiter}

theorem effect_of_step (hs : peer.step label = some next)
    (hwait : ∀ waiter, peer.waiters waiter = .waiting peer.controller.version →
      peer.controller.status.exit? = none) : peer.Effect label next := by
  cases label with unfold PeerLifecycle.step at hs
  | observe snapshot =>
    dsimp only at hs
    split at hs <;> cases hs
    rename_i hmon
    have hobs := observedStatus_ne_stopped snapshot peer.relayRequired
    exact .monitored _ _ (by simp [hmon]) (by simpa using hobs)
  | publish =>
    dsimp only at hs
    split at hs <;> cases hs
    rename_i observed hmon
    exact .published observed hmon
  | signalsChanged | signalsClosed | monitorCancelled | monitorAborted =>
    dsimp only at hs
    split at hs <;> cases hs
    all_goals exact .monitored _ _ (by simp [*]) (by simp)
  | constructShutdown =>
    dsimp only at hs
    split at hs <;> cases hs
    rename_i hown
    exact .constructed hown
  | pollShutdown | monitorJoined =>
    dsimp only at hs
    split at hs <;> cases hs
    exact .moved _ _ (by simp [*]) (by simp [*]) (by simp)
  | finishShutdown clean =>
    dsimp only at hs
    split at hs <;> cases hs
    rename_i hown
    exact .finished clean hown
  | drop =>
    dsimp only at hs
    split at hs <;> cases hs
    all_goals exact .dropped _ (by simp [*])
  | read waiter =>
    dsimp only at hs
    split at hs
    · split at hs
      · rename_i exit hexit
        cases hs
        exact .returned _ waiter exit (.inl hexit)
      · rename_i hexit
        cases hs
        exact .awaited _ waiter hexit
    · cases hs
  | wake waiter =>
    dsimp only at hs
    split at hs
    · rename_i seen hseen
      split_ifs at hs with hver hcl
      · cases hs
        exact .woken _ waiter
      · cases hs
        have hnone := hwait waiter (by rw [hseen, not_not.mp hver])
        exact .returned _ waiter _ (.inr ⟨hnone, hcl, rfl⟩)
    · cases hs

/-- `shutdown` or `drop` begins after a wait has returned a failure. -/
def Retracts (peer : PeerLifecycle Waiter) (label : LifecycleLabel Waiter) : Prop :=
  (label = .constructShutdown ∨ label = .drop) ∧
    ∃ failure waiter, peer.controller.status = .failed failure ∧
      peer.waiters waiter = .returned (.failed failure)

/-- The writers of the status against its value. -/
structure Ordered (peer : PeerLifecycle Waiter) : Prop where
  running : peer.owner = .running → peer.controller.shuttingDown = false
  begun : peer.owner ≠ .running → peer.controller.shuttingDown = true
  stopping : peer.owner ≠ .running → peer.owner ≠ .gone → peer.controller.status = .stopping
  serving : peer.owner = .running → peer.controller.status ≠ .stopped
  monitored : peer.owner = .running → peer.controller.status.exit?.isSome = true →
    peer.monitor = .ended
  observed : peer.monitor ≠ .publishing .stopped

structure Agreed (peer : PeerLifecycle Waiter) : Prop where
  ordered : peer.Ordered
  returned : ∀ waiter exit, peer.waiters waiter = .returned exit → peer.Settled exit
  waiting : ∀ waiter seen, peer.waiters waiter = .waiting seen →
    seen ≤ peer.controller.version ∧
      (seen = peer.controller.version → peer.controller.status.exit? = none)

theorem Ordered.effect (ordered : peer.Ordered) (heff : peer.Effect label next) :
    next.Ordered := by
  obtain ⟨hrunning, hbgn, hsto, hser, hmnt, hobs⟩ := ordered
  cases heff with
  | monitored _ phase hmon hp =>
    refine ⟨hrunning, hbgn, hsto, hser, ?_, hp⟩
    intro hown hexit
    exact absurd (hmnt hown hexit) hmon
  | published observed hmon =>
    have hn : (if observed.isTerminal then MonitorPhase.ended else .selecting) ≠
        .publishing .stopped := by
      split_ifs <;> simp
    obtain heq | ⟨hsrv, heq⟩ := peer.controller.update_cases observed
    · rw [heq]
      refine ⟨hrunning, hbgn, hsto, hser, ?_, hn⟩
      intro hown hexit
      rw [hmon] at hmnt
      exact MonitorPhase.noConfusion (hmnt hown hexit)
    · rw [heq]
      have hown : peer.owner = .running := by
        by_contra hown
        rw [hbgn hown] at hsrv
        cases hsrv
      refine ⟨fun _ => hsrv, fun hne => absurd hown hne, fun hne => absurd hown hne, ?_, ?_, hn⟩
      · intro _ hstop
        exact hobs (by rw [hmon, ← hstop, PeerStatusController.send])
      · intro _ hexit
        exact if_pos (AukiPeerStatus.isTerminal_of_exit hexit)
  | constructed hown =>
    obtain ⟨hdown, -⟩ | ⟨-, heq⟩ := peer.controller.beginShutdown_cases
    · rw [hrunning hown] at hdown
      cases hdown
    · rw [heq]
      exact ⟨by simp, fun _ => rfl, fun _ _ => rfl, by simp, by simp, hobs⟩
  | moved _ phase hrun hgone hp =>
    exact ⟨fun heq => absurd heq hp.1, fun _ => hbgn hrun,
      fun _ _ => hsto hrun hgone, fun heq => absurd heq hp.1,
      fun heq => absurd heq hp.1, hobs⟩
  | finished clean hown =>
    exact ⟨by simp, fun _ => rfl, by simp, by simp, by simp, hobs⟩
  | dropped abort hown =>
    have hdown : peer.controller.beginShutdown.shuttingDown = true := by
      obtain ⟨hdown, heq⟩ | ⟨-, heq⟩ := peer.controller.beginShutdown_cases
      · rw [heq, hdown]
      · rw [heq]
        rfl
    exact ⟨by simp [dropOwner], fun _ => hdown, by simp [dropOwner], by simp [dropOwner],
      by simp [dropOwner], hobs⟩
  | returned | awaited | woken =>
    exact ⟨hrunning, hbgn, hsto, hser, hmnt, hobs⟩

omit [DecidableEq Waiter] in
/-- A step keeps the waiters right if no result was returned, or it stays. -/
theorem Agreed.of_settled (agreed : peer.Agreed) (hord : next.Ordered)
    (hwai : next.waiters = peer.waiters)
    (hcon : next.controller = peer.controller ∨ peer.controller.version < next.controller.version)
    (hset : ∀ waiter exit, peer.waiters waiter = .returned exit → peer.Settled exit →
      next.Settled exit) : next.Agreed := by
  refine ⟨hord, ?_, ?_⟩
  · intro waiter exit hret
    rw [hwai] at hret
    exact hset waiter exit hret (agreed.returned waiter exit hret)
  · intro waiter seen hseen
    rw [hwai] at hseen
    obtain ⟨hle, hnone⟩ := agreed.waiting waiter seen hseen
    obtain heq | hlt := hcon
    · rw [heq]
      exact ⟨hle, hnone⟩
    · exact ⟨by omega, fun heq => by omega⟩

theorem Agreed.goto (agreed : peer.Agreed) {waiter : Waiter} {phase : WaiterPhase}
    (hret : ∀ exit, phase = .returned exit → peer.Settled exit)
    (hwait : ∀ seen, phase = .waiting seen → seen ≤ peer.controller.version ∧
        (seen = peer.controller.version → peer.controller.status.exit? = none)) :
    (peer.goto waiter phase).Agreed := by
  refine ⟨?_, ?_, ?_⟩
  · obtain ⟨hrunning, hbgn, hsto, hser, hmon, hobs⟩ := agreed.ordered
    exact ⟨hrunning, hbgn, hsto, hser, hmon, hobs⟩
  · intro other exit ho
    by_cases hsm : other = waiter
    · exact hret exit (by simpa [PeerLifecycle.goto, hsm] using ho)
    · exact agreed.returned other exit (by simpa [PeerLifecycle.goto, hsm] using ho)
  · intro other seen ho
    by_cases hsm : other = waiter
    · exact hwait seen (by simpa [PeerLifecycle.goto, hsm] using ho)
    · exact agreed.waiting other seen (by simpa [PeerLifecycle.goto, hsm] using ho)

omit [DecidableEq Waiter] in
theorem not_settled_of_owner (hown : peer.owner ≠ .gone)
    (hnone : peer.controller.status.exit? = none) (exit : AukiPeerExit) : ¬peer.Settled exit := by
  rintro (hexit | ⟨-, hcl, -⟩)
  · rw [hnone] at hexit
    cases hexit
  · rw [closed, Bool.and_eq_true, beq_iff_eq] at hcl
    exact hown hcl.1

omit [DecidableEq Waiter] in
theorem Agreed.begins (agreed : peer.Agreed) (hlbl : label = .constructShutdown ∨ label = .drop)
    (hkept : ¬peer.Retracts label) (hown : peer.owner = .running) {waiter : Waiter}
    {exit : AukiPeerExit} (hret : peer.waiters waiter = .returned exit)
    (hset : peer.Settled exit) : False := by
  have hgone : peer.owner ≠ .gone := by simp [hown]
  cases hstat : peer.controller.status with
  | stopped => exact agreed.ordered.serving hown hstat
  | failed failure =>
    have hexit : exit = .failed failure := hset.unique (.inl (by rw [hstat]; rfl))
    exact hkept ⟨hlbl, failure, waiter, hstat, by rw [hret, hexit]⟩
  | ready | authorityUnavailable | relayUnavailable | stopping =>
    exact not_settled_of_owner hgone (by rw [hstat]; rfl) exit hset

theorem Agreed.effect (agreed : peer.Agreed) (hkept : ¬peer.Retracts label)
    (heff : peer.Effect label next) : next.Agreed := by
  have hord := agreed.ordered.effect heff
  cases heff with
  | monitored _ phase hmon _ =>
    apply agreed.of_settled hord rfl (.inl rfl)
    rintro waiter exit - (hexit | ⟨-, hcl, -⟩)
    · exact .inl hexit
    · rw [closed, Bool.and_eq_true, beq_iff_eq, beq_iff_eq] at hcl
      exact absurd hcl.2 hmon
  | published observed hmon =>
    obtain heq | ⟨hsrv, heq⟩ := peer.controller.update_cases observed
    · apply agreed.of_settled hord rfl (.inl heq)
      rintro waiter exit - (hexit | ⟨-, hcl, -⟩)
      · exact .inl (by dsimp only; rw [heq, hexit])
      · simp [closed, hmon] at hcl
    · have hver : peer.controller.version < (peer.controller.update observed).version := by
        rw [heq]
        exact Nat.lt_succ_self _
      apply agreed.of_settled hord rfl (.inr hver)
      rintro waiter exit - (hexit | ⟨-, hcl, -⟩)
      · have hown : peer.owner = .running := by
          by_contra hown
          rw [agreed.ordered.begun hown] at hsrv
          cases hsrv
        have hend := agreed.ordered.monitored hown (by rw [hexit]; rfl)
        rw [hmon] at hend
        cases hend
      · simp [closed, hmon] at hcl
  | constructed hown =>
    obtain ⟨hdown, -⟩ | ⟨-, heq⟩ := peer.controller.beginShutdown_cases
    · rw [agreed.ordered.running hown] at hdown
      cases hdown
    · have hver : peer.controller.version < peer.controller.beginShutdown.version := by
        rw [heq]
        exact Nat.lt_succ_self _
      apply agreed.of_settled hord rfl (.inr hver)
      intro waiter exit hret hexit
      exact (agreed.begins (.inl rfl) hkept hown hret hexit).elim
  | moved _ phase hrun hgone hp =>
    apply agreed.of_settled hord rfl (.inl rfl)
    rintro waiter exit - (hexit | ⟨-, hcl, -⟩)
    · exact .inl hexit
    · rw [closed, Bool.and_eq_true, beq_iff_eq, beq_iff_eq] at hcl
      exact absurd hcl.1 hgone
  | finished clean hown =>
    apply agreed.of_settled hord rfl (.inr (Nat.lt_succ_self _))
    intro waiter exit _ hexit
    have hsto : peer.controller.status = .stopping :=
      agreed.ordered.stopping (by simp [hown]) (by simp [hown])
    exact absurd hexit (not_settled_of_owner (by simp [hown]) (by rw [hsto]; rfl) exit)
  | dropped abort hown =>
    obtain ⟨-, heq⟩ | ⟨hsrv, heq⟩ := peer.controller.beginShutdown_cases
    · apply agreed.of_settled hord rfl (.inl heq)
      rintro waiter exit - (hexit | ⟨-, hcl, -⟩)
      · exact .inl (by rw [dropOwner, heq, hexit])
      · rw [closed, Bool.and_eq_true, beq_iff_eq] at hcl
        exact absurd hcl.1 hown
    · have hrunning : peer.owner = .running := by
        by_contra hrunning
        rw [agreed.ordered.begun hrunning] at hsrv
        cases hsrv
      apply agreed.of_settled hord rfl
        (.inr (by rw [dropOwner, heq]; exact Nat.lt_succ_self _))
      intro waiter exit hret hexit
      exact (agreed.begins (.inr rfl) hkept hrunning hret hexit).elim
  | returned _ waiter exit hexit =>
    apply agreed.goto
    · rintro _ ⟨⟩
      exact hexit
    · rintro _ ⟨⟩
  | awaited _ waiter hexit =>
    apply agreed.goto
    · rintro _ ⟨⟩
    · rintro _ ⟨⟩
      exact ⟨le_rfl, fun _ => hexit⟩
  | woken _ waiter =>
    apply agreed.goto
    · rintro _ ⟨⟩
    · rintro _ ⟨⟩

theorem Agreed.step (agreed : peer.Agreed) (hkept : ¬peer.Retracts label)
    (hs : peer.step label = some next) : next.Agreed := by
  apply agreed.effect hkept
  exact effect_of_step hs fun waiter hwait => (agreed.waiting waiter _ hwait).2 rfl

omit [DecidableEq Waiter] in
theorem Agreed.started (relayRequired : Bool) :
    (started relayRequired : PeerLifecycle Waiter).Agreed where
  ordered :=
    { running := fun _ => rfl
      begun := fun hne => absurd rfl hne
      stopping := fun hne => absurd rfl hne
      serving := fun _ => by simp [PeerLifecycle.started, PeerStatusController.new]
      monitored := fun _ hexit => by cases hexit
      observed := by simp [PeerLifecycle.started] }
  returned := fun _ _ hret => by cases hret
  waiting := fun _ _ hwait => by cases hwait

/-- All waits return the same result unless a stop begins after a failure. -/
theorem waits_agree_unless_retracted {relayRequired : Bool} {labels : List (LifecycleLabel Waiter)}
    {last : PeerLifecycle Waiter}
    (hkept : GuardedRun PeerLifecycle.step (PeerLifecycle.started relayRequired)
      (fun peer label => ¬peer.Retracts label) labels)
    (hrun : runSteps PeerLifecycle.step (PeerLifecycle.started relayRequired) labels = some last)
    {first second : Waiter} {exit other : AukiPeerExit}
    (hfirst : last.waiters first = .returned exit)
    (hsecond : last.waiters second = .returned other) : exit = other := by
  have agreed : last.Agreed := invariant_of_guardedRun (Agreed.started relayRequired)
      (fun _ _ _ agreed hkept hstep => agreed.step hkept hstep) hkept hrun
  exact (agreed.returned first exit hfirst).unique (agreed.returned second other hsecond)

def sampleLabels : List (LifecycleLabel Bool) :=
  [.read false, .constructShutdown, .wake false, .read false, .pollShutdown,
    .observe { transport := .running, authority := .starting, confirmedRelayCount := 0,
               relayFailed := false },
    .publish, .monitorCancelled, .monitorJoined, .finishShutdown true, .wake false, .read false,
    .read true]

/-- No wait has returned when `shutdown` or `drop` begins. -/
def keptTest (peer : PeerLifecycle Bool) : LifecycleLabel Bool → Bool
  | .constructShutdown => decide (∀ waiter, (peer.waiters waiter).returned? = none)
  | .drop => decide (∀ waiter, (peer.waiters waiter).returned? = none)
  | _ => true

theorem kept_of_keptTest (peer : PeerLifecycle Bool) (label : LifecycleLabel Bool)
    (htest : keptTest peer label = true) : ¬peer.Retracts label := by
  rintro ⟨hlbl, failure, waiter, -, hret⟩
  have hnone : (peer.waiters waiter).returned? = none := by
    obtain rfl | rfl := hlbl
    · exact of_decide_eq_true htest waiter
    · exact of_decide_eq_true htest waiter
  rw [hret] at hnone
  cases hnone

theorem waits_agree_unless_retracted_sample : ∃ last : PeerLifecycle Bool,
    runSteps PeerLifecycle.step (PeerLifecycle.started false) sampleLabels = some last ∧
      last.waiters false = .returned .stopped ∧
      ∀ exit, last.waiters true = .returned exit → AukiPeerExit.stopped = exit := by
  have hmap : (runSteps PeerLifecycle.step (PeerLifecycle.started false) sampleLabels).map
      (fun last => last.waiters false) = some (.returned .stopped) := by
    decide +kernel
  have hkept : GuardedRun PeerLifecycle.step (PeerLifecycle.started false)
      (fun peer label => ¬peer.Retracts label) sampleLabels :=
    guardedRun_of_tested kept_of_keptTest (by decide +kernel)
  obtain ⟨last, hrun, hfirst⟩ := Option.map_eq_some_iff.mp hmap
  exact ⟨last, hrun, hfirst, fun exit hsecond =>
    waits_agree_unless_retracted hkept hrun hfirst hsecond⟩

/-- A wait on another clone returns `Stopped` after the failure. -/
theorem failure_retracted_by_shutdown : ∃ (labels : List (LifecycleLabel Bool))
    (last : PeerLifecycle Bool),
    runSteps PeerLifecycle.step (PeerLifecycle.started false) labels = some last ∧
      last.waiters false = .returned (.failed .authority) ∧
      last.waiters true = .returned .stopped := by
  have hmap : (runSteps PeerLifecycle.step (PeerLifecycle.started false : PeerLifecycle Bool)
      [.observe { transport := .running, authority := .stopped, confirmedRelayCount := 0,
                  relayFailed := false },
        .publish, .read false, .constructShutdown, .pollShutdown, .monitorJoined,
        .finishShutdown true, .read true]).map
      (fun last => (last.waiters false, last.waiters true)) =
      some (.returned (.failed .authority), .returned .stopped) := by
    decide +kernel
  obtain ⟨last, hrun, heq⟩ := Option.map_eq_some_iff.mp hmap
  rw [Prod.mk.injEq] at heq
  exact ⟨_, last, hrun, heq.1, heq.2⟩

end PeerLifecycle

end AukiSdk.Peer
