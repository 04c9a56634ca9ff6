import AukiSdk.Tasks.LeaseSafety

/-!
# Runs of a task lease

Each step of `execute_managed` keeps `Sound`.
-/

namespace AukiSdk.Tasks

open AukiSdk.Foundation List Option

variable {Value Failure Output : Type}

section Tally

variable (trace : List (LeaseEvent Value Failure Output))

theorem tally_handlerStarted : tally (trace ++ [.handlerStarted]) =
    { tally trace with handlerStarts := (tally trace).handlerStarts + 1 } := by
  simp [tally, LeaseEvent.handlerStart, LeaseEvent.result, LeaseEvent.peerStart,
    LeaseEvent.peerStop, LeaseEvent.isReceipt]

theorem tally_handlerReturned (result : Except LeaseError Output) :
    tally (trace ++ [.handlerReturned result]) =
      { tally trace with results := (tally trace).results ++ [result] } := by
  simp [tally, LeaseEvent.handlerStart, LeaseEvent.result, LeaseEvent.peerStart,
    LeaseEvent.peerStop, LeaseEvent.isReceipt]

theorem tally_peerStarted : tally (trace ++ [.peerStarted]) =
    { tally trace with peerStarts := (tally trace).peerStarts + 1 } := by
  simp [tally, LeaseEvent.handlerStart, LeaseEvent.result, LeaseEvent.peerStart,
    LeaseEvent.peerStop, LeaseEvent.isReceipt]

theorem tally_peerShutDown (ok : Bool) : tally (trace ++ [.peerShutDown ok]) =
    { tally trace with peerStops := (tally trace).peerStops + 1 } := by
  simp [tally, LeaseEvent.handlerStart, LeaseEvent.result, LeaseEvent.peerStart,
    LeaseEvent.peerStop, LeaseEvent.isReceipt]

theorem tally_receipt (receipt : Receipt Failure Output) : tally (trace ++ [.receipt receipt]) =
    { tally trace with receipts := (tally trace).receipts + 1 } := by
  simp [tally, LeaseEvent.handlerStart, LeaseEvent.result, LeaseEvent.peerStart,
    LeaseEvent.peerStop, LeaseEvent.isReceipt]

end Tally

variable {config : LeaseConfig Value} {trace events : List (LeaseEvent Value Failure Output)}

theorem peerStarted_mem (hsts : 0 < (tally trace).peerStarts) : .peerStarted ∈ trace := by
  obtain ⟨event, hm, hev⟩ := countP_pos_iff.mp hsts
  cases event <;> first | exact hm | cases hev

theorem peerStarted_notMem (hsts : (tally trace).peerStarts = 0) : .peerStarted ∉ trace := fun hm =>
  (countP_pos_iff.mpr ⟨_, hm, rfl⟩).ne' hsts

variable {result : Except LeaseError Output}

theorem handlerReturned_mem (hres : result ∈ (tally trace).results) :
    .handlerReturned result ∈ trace := by
  obtain ⟨event, hm, hev⟩ := mem_filterMap.mp hres
  cases event <;> cases hev
  exact hm

theorem peerReady_append (hrdy : PeerReady config trace) : PeerReady config (trace ++ events) :=
  hrdy.imp (mem_append_left events) fun ho => ho.imp_right fun ho =>
    ho.imp_right fun habs => ⟨habs.1, mem_append_left events habs.2⟩

theorem HeartbeatPhase.Flush.append {heartbeat : HeartbeatPhase Value}
    (hflu : heartbeat.Flush result trace) (hack : acknowledged events = []) :
    heartbeat.Flush result (trace ++ events) := by
  have hsp : ∀ first second, trace = first ++ .handlerReturned result :: second →
      trace ++ events = first ++ .handlerReturned result :: (second ++ events) := by
    intro first second htr
    rw [htr, append_assoc, cons_append]
  have hsm : acknowledged (trace ++ events) = acknowledged trace := by
    rw [acknowledged_append, hack, append_nil]
  cases heartbeat with
  | starting =>
    obtain ⟨first, second, htr⟩ := hflu
    exact ⟨first, second ++ events, hsp first second htr⟩
  | sending batch | sent batch =>
    obtain ⟨first, second, htr, hfro⟩ := hflu
    exact ⟨first, second ++ events, hsp first second htr, by rwa [hsm]⟩
  | updatingPeer =>
    obtain ⟨first, second, htr, hfro⟩ := hflu
    exact ⟨first, second ++ events, hsp first second htr, by rwa [hsm]⟩
  | finished outcome =>
    cases outcome with
    | error error => trivial
    | ok => exact AfterFlush.append hflu fun _ _ => trivial

theorem CleanedUp.append {rest : List (LeaseEvent Value Failure Output)}
    (hcle : CleanedUp trace rest) (hpeer : .peerStarted ∉ events) :
    CleanedUp (trace ++ events) (rest ++ events) := by
  refine ⟨mem_append_left events hcle.1, fun hm => mem_append_left events ?_⟩
  exact hcle.2 ((mem_append.mp hm).resolve_right hpeer)

theorem AfterCleanup.Order.append {next : AfterCleanup Failure Output}
    {cleanup cleanup' : List (LeaseEvent Value Failure Output) → Prop}
    (horder : next.Order trace cleanup)
    (hcle : ∀ rest, cleanup rest → cleanup' (rest ++ events)) :
    next.Order (trace ++ events) cleanup' := by
  cases next with
  | refuse error => trivial
  | report receipt => exact horder.imp fun _ hres => ⟨hres.1, hres.2.append hcle⟩

namespace LeasePhase

variable {phase : LeasePhase Value Failure Output}

theorem Batch.append {queue : List Value} (hbat : phase.Batch queue) (added : List Value) :
    phase.Batch (queue ++ added) := by
  have hhea : ∀ heartbeat : HeartbeatPhase Value, heartbeat.Batch queue →
      heartbeat.Batch (queue ++ added) := by
    intro heartbeat hhea
    cases heartbeat with
    | sending batch | sent batch =>
      exact List.IsPrefix.trans hhea (prefix_append _ _)
    | starting | updatingPeer | finished => trivial
  have hloop : ∀ loop : LoopPhase Value, loop.Batch queue → loop.Batch (queue ++ added) := by
    intro loop hloop
    cases loop with
    | beating heartbeat => exact hhea heartbeat hloop
    | looping | waiting | done => trivial
  cases phase with
  | startup heartbeat | flushing outcome heartbeat => exact hhea heartbeat hbat
  | executing started loop | draining result loop => exact hloop loop hbat
  | startingPeer | awaitingPeer | awaitingHandler | checking | closingData | takingPeer
  | shuttingDown | reporting | sending | returned => trivial

theorem Control.mono {counts : Tally Output} {closed closed' : Bool}
    (hctrl : phase.Control counts closed) (hcl : closed = true → closed' = true) :
    phase.Control counts closed' := by
  cases phase with
  | awaitingHandler error =>
    exact ⟨hctrl.1, hctrl.2.1, hctrl.2.2.1, hcl hctrl.2.2.2⟩
  | checking outcome => exact ⟨hctrl.1, hctrl.2.1.imp_left hcl, hctrl.2.2⟩
  | startup | startingPeer | awaitingPeer | executing | draining | flushing | closingData
  | takingPeer | shuttingDown | reporting | sending | returned => exact hctrl

theorem Order.append (horder : phase.Order config trace) (hack : acknowledged events = [])
    (hpeer : .peerStarted ∉ events) : phase.Order config (trace ++ events) := by
  cases phase with
  | startup heartbeat =>
    cases heartbeat with
    | finished outcome =>
      cases outcome with
      | error error => trivial
      | ok => exact mem_append_left events horder
    | starting | sending | sent | updatingPeer => trivial
  | startingPeer | awaitingPeer => exact mem_append_left events horder
  | executing started loop =>
    exact ⟨mem_append_left events horder.1, peerReady_append horder.2⟩
  | flushing outcome heartbeat => exact HeartbeatPhase.Flush.append horder hack
  | closingData next => exact AfterCleanup.Order.append horder fun _ _ => trivial
  | takingPeer next | shuttingDown next =>
    exact AfterCleanup.Order.append horder fun _ => mem_append_left events
  | reporting receipt =>
    exact horder.imp fun _ hres =>
      ⟨hres.1, hres.2.append fun _ hcle => hcle.append hpeer⟩
  | awaitingHandler | draining | checking | sending | returned => trivial

end LeasePhase

theorem LeaseEvent.sound_of_ofQueue {event : LeaseEvent Value Failure Output}
    (hev : event.ofQueue = true) (before : List (LeaseEvent Value Failure Output)) :
    event.Sound config before := by
  cases event <;> trivial

theorem AfterFlush.mono {cleanup cleanup' : List (LeaseEvent Value Failure Output) → Prop}
    (hflu : AfterFlush result trace cleanup) (hcle : ∀ rest, cleanup rest → cleanup' rest) :
    AfterFlush result trace cleanup' := by
  obtain ⟨first, second, rest, htr, hack, hrest⟩ := hflu
  exact ⟨first, second, rest, htr, hack, hcle rest hrest⟩

namespace LeaseExecution

variable {lease next : LeaseExecution Value Failure Output}

theorem Queued.record (hqd : lease.Queued config) (hacc : accepted events = [])
    (hack : acknowledged events = []) : (lease.record events).Queued config := by
  refine ⟨?_, hqd.fits⟩
  calc accepted (lease.trace ++ events)
      = accepted lease.trace := by rw [accepted_append, hacc, append_nil]
    _ = acknowledged lease.trace ++ lease.events := hqd.queue
    _ = acknowledged (lease.trace ++ events) ++ lease.events := by
      rw [acknowledged_append, hack, append_nil]

theorem Sound.events_append (hs : lease.Sound config)
    (hevs : ∀ before event after, events = before ++ event :: after →
      event.Sound config (lease.trace ++ before)) :
    ∀ before event after, lease.trace ++ events = before ++ event :: after →
      event.Sound config before := by
  intro before event after htr
  rcases append_eq_append_iff.mp htr with ⟨rest, hpre, hrest⟩ | ⟨rest, hleft, hrest⟩
  · rw [hpre]
    exact hevs rest event after hrest
  · cases rest with
    | nil =>
      rw [append_nil] at hleft
      have hev := hevs [] event after hrest.symm
      rwa [append_nil, hleft] at hev
    | cons head rest =>
      cases hrest
      exact hs.events_sound before event rest hleft

theorem Sound.atPhase (hs : lease.Sound config) {phase : LeasePhase Value Failure Output}
    (hp : lease.phase = phase) :
    phase.Batch lease.events ∧ phase.Peers (tally lease.trace) lease.peer ∧
      phase.Control (tally lease.trace) lease.closed ∧ phase.Order config lease.trace := by
  rw [← hp]
  exact ⟨hs.batch, hs.peers, hs.control, hs.order⟩

theorem Sound.same (hs : lease.Sound config) (hp : next.phase = lease.phase)
    (hpeer : next.peer = lease.peer) (hevs : next.events = lease.events)
    (htr : next.trace = lease.trace) (hcl : lease.closed = true → next.closed = true) :
    next.Sound config where
  queue := by rw [htr, hevs]; exact hs.queue
  fits := by rw [hevs]; exact hs.fits
  batch := by rw [hp, hevs]; exact hs.batch
  robot := by rw [hpeer]; exact hs.robot
  once := by rw [htr]; exact hs.once
  peers := by rw [hp, htr, hpeer]; exact hs.peers
  control := by rw [hp, htr]; exact hs.control.mono hcl
  order := by rw [hp, htr]; exact hs.order
  events_sound := by rw [htr]; exact hs.events_sound

theorem Sound.revoke (hs : lease.Sound config) : lease.revoke.Sound config :=
  hs.same rfl rfl rfl rfl fun _ => rfl

theorem Sound.goto (hs : lease.Sound config) {phase : LeasePhase Value Failure Output}
    (hbat : phase.Batch lease.events) (hpee : phase.Peers (tally lease.trace) lease.peer)
    (hctrl : phase.Control (tally lease.trace) lease.closed)
    (horder : phase.Order config lease.trace) : (lease.goto phase).Sound config where
  __ := hs
  batch := hbat
  peers := hpee
  control := hctrl
  order := horder

theorem Sound.enter (hs : lease.Sound config) {phase : LeasePhase Value Failure Output}
    {event : LeaseEvent Value Failure Output} (hacc : accepted [event] = [])
    (hack : acknowledged [event] = []) (hev : event.Sound config lease.trace)
    (hbat : phase.Batch lease.events)
    (honce : (tally (lease.trace ++ [event])).handlerStarts ≤ 1)
    (hpee : phase.Peers (tally (lease.trace ++ [event])) lease.peer)
    (hctrl : phase.Control (tally (lease.trace ++ [event])) lease.closed)
    (horder : phase.Order config (lease.trace ++ [event])) :
    ((lease.goto phase).record [event]).Sound config where
  toQueued := Queued.record ⟨hs.queue, hs.fits⟩ hacc hack
  batch := hbat
  robot := hs.robot
  once := honce
  peers := hpee
  control := hctrl
  order := horder
  events_sound := by
    refine hs.events_append fun before event' after hsp => ?_
    cases before with
    | nil =>
      cases hsp
      rwa [append_nil]
    | cons head before => exact absurd (List.cons.inj hsp).2 (by simp)

theorem Sound.enterQuiet (hs : lease.Sound config) {phase : LeasePhase Value Failure Output}
    {event : LeaseEvent Value Failure Output} (hqui : event.quiet = true)
    (hacc : accepted [event] = []) (hack : acknowledged [event] = [])
    (hev : event.Sound config lease.trace) (hbat : phase.Batch lease.events)
    (hpee : phase.Peers (tally lease.trace) lease.peer)
    (hctrl : phase.Control (tally lease.trace) lease.closed)
    (horder : phase.Order config (lease.trace ++ [event])) :
    ((lease.goto phase).record [event]).Sound config := by
  have htal : tally (lease.trace ++ [event]) = tally lease.trace := by
    refine tally_quiet lease.trace fun event' hm => ?_
    rwa [mem_singleton.mp hm]
  refine hs.enter hacc hack hev hbat ?_ ?_ ?_ horder
  · rw [htal]
    exact hs.once
  · rw [htal]
    exact hpee
  · rw [htal]
    exact hctrl

theorem Sound.finish (hs : lease.Sound config) (result : Except LeaseError Unit)
    (hret : (tally lease.trace).handlerStarts = (tally lease.trace).results.length)
    (hpee : (tally lease.trace).peerStarts = (tally lease.trace).peerStops ∧
      (tally lease.trace).peerStarts ≤ 1) : (lease.finish result).Sound config :=
  hs.enterQuiet rfl rfl rfl ⟨hret, hpee⟩ trivial trivial trivial trivial

theorem Sound.abandon (hs : lease.Sound config) (error : LeaseError)
    (howns : (tally lease.trace).Owns lease.peer)
    (hret : (tally lease.trace).handlerStarts = (tally lease.trace).results.length)
    (hrcp : (tally lease.trace).receipts = 0) : (lease.abandon error).Sound config :=
  hs.revoke.goto trivial howns ⟨hret, hrcp⟩ trivial

/-! ### The queue and heartbeats -/

theorem Sound.calm (hs : lease.Sound config) (hcalm : Calm config lease next)
    {phase : LeasePhase Value Failure Output} (hbat : phase.Batch next.events)
    (hpee : phase.Peers (tally lease.trace) lease.peer)
    (hctrl : phase.Control (tally lease.trace) lease.closed)
    (horder : phase.Order config next.trace) : (next.goto phase).Sound config := by
  obtain ⟨events, htr, hevs⟩ := hcalm.trace
  have htal : tally next.trace = tally lease.trace := by
    rw [htr]
    exact tally_quiet _ fun event hm => LeaseEvent.quiet_of_ofQueue (hevs event hm)
  exact
    { __ := hcalm.queued
      batch := hbat
      robot := by
        change next.peer = some .shared → _
        rw [hcalm.peer]
        exact hs.robot
      once := by
        change (tally next.trace).handlerStarts ≤ 1
        rw [htal]
        exact hs.once
      peers := by
        change phase.Peers (tally next.trace) next.peer
        rw [htal, hcalm.peer]
        exact hpee
      control := by
        change phase.Control (tally next.trace) next.closed
        rw [htal]
        exact hctrl.mono hcalm.closed
      order := horder
      events_sound := by
        change ∀ before event after, next.trace = before ++ event :: after → _
        rw [htr]
        refine hs.events_append fun before event after hsp => ?_
        exact LeaseEvent.sound_of_ofQueue (hevs event (by simp [hsp])) _ }

theorem Sound.logEvent (hs : lease.Sound config) {value : Value} {seen : Bool}
    (hstep : lease.logEvent config value seen = some next) : next.Sound config := by
  have href : ∀ error, (lease.record [.logRefused error]).Sound config := fun error =>
    hs.enterQuiet rfl rfl rfl trivial hs.batch hs.peers hs.control
      (hs.order.append rfl (by simp))
  unfold LeaseExecution.logEvent at hstep
  split at hstep
  · split at hstep
    · cases hstep
      exact href .cancelled
    · cases hstep
  · split at hstep
    · cases hstep
      exact href _
    · rename_i pushed hpush
      cases hstep
      obtain ⟨rfl, hfits⟩ := fits_pushEvent hpush
      have hcalm : Calm config lease
          ({ lease with events := lease.events ++ [value] }.record [.accepted value]) :=
        { phase := rfl
          peer := rfl
          closed := id
          queued := by
            refine ⟨?_, hfits⟩
            calc accepted (lease.trace ++ [.accepted value])
                = accepted lease.trace ++ [value] := accepted_append _ _
              _ = acknowledged lease.trace ++ (lease.events ++ [value]) := by
                rw [hs.queue, append_assoc]
              _ = acknowledged (lease.trace ++ [.accepted value]) ++ (lease.events ++ [value]) := by
                rw [acknowledged_append]
                exact congrArg (· ++ _) (append_nil _).symm
          trace := ⟨[.accepted value], rfl, by simp [LeaseEvent.ofQueue]⟩ }
      exact hs.calm hcalm (hs.batch.append [value]) hs.peers hs.control
        (hs.order.append rfl (by simp))

theorem calm_of_loop {stop : Bool} {loop loop' : LoopPhase Value} {input : LoopInput}
    (hqd : lease.Queued config) (hbat : loop.Batch lease.events)
    (hs : lease.heartbeatLoop config stop loop input = some (next, loop')) :
    Calm config lease next ∧ loop'.Batch next.events := by
  have hidle : Calm config lease lease := ⟨rfl, rfl, id, hqd, [], (append_nil _).symm, by simp⟩
  unfold heartbeatLoop at hs
  split at hs
  case h_7 =>
    obtain ⟨⟨beaten, heartbeat⟩, hbeat, heq⟩ := map_eq_some_iff.mp hs
    cases heq
    have hbeat := Beat.of_heartbeat hqd hbat hbeat
    exact ⟨hbeat.toCalm, hbeat.batch⟩
  all_goals
    first
      | cases hs
        exact ⟨hidle, trivial⟩
      | split at hs
        · cases hs
          exact ⟨hidle, trivial⟩
        · cases hs
      | split at hs
        · cases hs
        · cases hs
          exact ⟨hidle, trivial⟩
      | cases hs

/-! ### Startup -/

theorem Sound.heartbeatStep (hs : lease.Sound config) {input : HeartbeatInput}
    (hstep : step config lease (.heartbeat input) = some next) : next.Sound config := by
  dsimp only [step] at hstep
  split at hstep
  · rename_i heartbeat hp
    obtain ⟨hbat, hpee, hctrl, -⟩ := hs.atPhase hp
    obtain ⟨⟨beaten, heartbeat'⟩, hbeat, rfl⟩ := map_eq_some_iff.mp hstep
    have hbeat := Beat.of_heartbeat hs.toQueued hbat hbeat
    refine hs.calm hbeat.toCalm hbeat.batch hpee hctrl ?_
    cases heartbeat' with
    | finished result =>
      cases result with
      | error error => trivial
      | ok => exact hbeat.accepted rfl
    | starting | sending | sent | updatingPeer => trivial
  · rename_i outcome heartbeat hp
    obtain ⟨hbat, hpee, hctrl, horder⟩ := hs.atPhase hp
    obtain ⟨⟨beaten, heartbeat'⟩, hbeat, rfl⟩ := map_eq_some_iff.mp hstep
    have hbeat := Beat.of_heartbeat hs.toQueued hbat hbeat
    exact hs.calm hbeat.toCalm hbeat.batch hpee hctrl (hbeat.flush outcome horder)
  · cases hstep

theorem Sound.startPeer (hs : lease.Sound config) (hp : lease.phase = .startingPeer) :
    (lease.startPeer config).Sound config := by
  obtain ⟨-, howns, ⟨hsts, hrsl, hrcp⟩, hacc⟩ := hs.atPhase hp
  have hrdy : PeerReady config lease.trace →
      (lease.goto (.executing false .looping)).Sound config := fun hrdy =>
    hs.goto trivial howns ⟨hsts, hrsl, hrcp⟩ ⟨hacc, hrdy⟩
  unfold LeaseExecution.startPeer
  split
  · rename_i habs
    refine hs.enterQuiet rfl rfl rfl trivial trivial howns ⟨hsts, hrsl, hrcp⟩ ?_
    refine ⟨mem_append_left _ hacc, .inr (.inr (.inr ⟨habs.1, ?_⟩))⟩
    exact mem_append_right _ mem_cons_self
  · split
    · rename_i hfactory
      exact hrdy (.inr (.inl hfactory))
    · split
      · -- a session in the context is the robot's own, or was started
        refine hrdy ?_
        cases hpeer : lease.peer with
        | none => simp_all
        | some session =>
          cases session with
          | shared => exact .inr (.inr (.inl (hs.robot hpeer)))
          | owned =>
            have hpee : (tally lease.trace).peerStarts = 1 := by
              rw [howns.2, hpeer, if_pos rfl]
            exact .inl (peerStarted_mem (hpee ▸ Nat.one_pos))
      · rename_i hpeer
        split
        · exact hs.abandon _ howns (by rw [hsts, hrsl]; rfl) hrcp
        · have hnone : lease.peer = none := by simpa using hpeer
          exact hs.goto trivial ⟨howns, hnone⟩ ⟨hsts, hrsl, hrcp⟩ hacc

theorem Sound.peerStarted (hs : lease.Sound config) (hp : lease.phase = .awaitingPeer) :
    (({ lease with peer := some .owned }.record [.peerStarted]).goto
      (.executing false .looping)).Sound config := by
  obtain ⟨-, ⟨howns, hnone⟩, ⟨hsts, hrsl, hrcp⟩, hacc⟩ := hs.atPhase hp
  have hpee : (tally lease.trace).peerStarts = 0 := by
    rw [howns.2, hnone, if_neg (by simp)]
  have htal : tally (lease.trace ++ [.peerStarted]) = { tally lease.trace with
      peerStarts := (tally lease.trace).peerStarts + 1 } := tally_peerStarted lease.trace
  have hrec : ((lease.goto .returned).record [.peerStarted]).Sound config :=
    hs.enter rfl rfl hpee trivial (by rw [htal]; exact hs.once) trivial trivial
      trivial
  exact
    { __ := hrec
      batch := trivial
      robot := fun heq => by cases heq
      peers := by
        change (tally (lease.trace ++ [.peerStarted])).Owns (some .owned)
        rw [htal]
        exact ⟨howns.1, congrArg Nat.succ hpee⟩
      control := by
        change LeasePhase.Control (tally (lease.trace ++ [.peerStarted])) lease.closed
          (.executing false .looping : LeasePhase Value Failure Output)
        rw [htal]
        exact ⟨hsts, hrsl, hrcp⟩
      order := ⟨mem_append_left _ hacc, .inl (mem_append_right _ mem_cons_self)⟩ }

theorem Sound.peerStartedStep (hs : lease.Sound config)
    {result remaining : Except LeaseError Unit}
    (hstep : step config lease (.peerStarted result remaining) = some next) :
    next.Sound config := by
  dsimp only [step] at hstep
  split at hstep
  · rename_i hp
    split at hstep
    · cases hstep
      obtain ⟨-, ⟨howns, -⟩, ⟨hsts, hrsl, hrcp⟩, -⟩ := hs.atPhase hp
      exact hs.abandon _ howns (by rw [hsts, hrsl]; rfl) hrcp
    · have hbgn := hs.peerStarted hp
      obtain ⟨-, howns, ⟨hsts, hrsl, hrcp⟩, -⟩ := hbgn.atPhase rfl
      have haba := fun error =>
        hbgn.abandon error howns (by rw [hsts, hrsl]; rfl) hrcp
      split at hstep
      · cases hstep
        exact haba .cancelled
      · split at hstep
        · cases hstep
          exact haba _
        · cases hstep
          exact hbgn
  · cases hstep

/-! ### The handler -/

theorem Sound.startHandler (hs : lease.Sound config) {loop : LoopPhase Value}
    (hp : lease.phase = .executing false loop) :
    ((lease.goto (.executing true loop)).record [.handlerStarted]).Sound config := by
  obtain ⟨hbat, howns, ⟨hsts, hrsl, hrcp⟩, hacc, hrdy⟩ := hs.atPhase hp
  have honce : (tally lease.trace).handlerStarts + 1 = 1 := congrArg Nat.succ hsts
  refine hs.enter rfl rfl ⟨hsts, hacc, hrdy⟩ hbat ?_ ?_ ?_ ?_
  · rw [tally_handlerStarted]
    exact honce.le
  · rw [tally_handlerStarted]
    exact howns
  · rw [tally_handlerStarted]
    exact ⟨honce, hrsl, hrcp⟩
  · exact ⟨mem_append_left _ hacc, peerReady_append hrdy⟩

theorem Sound.handlerReturned (hs : lease.Sound config) {result : Except LeaseError Output}
    (hstep : step config lease (.handlerReturned result) = some next) : next.Sound config := by
  have honce : (tally (lease.trace ++ [.handlerReturned result])).handlerStarts ≤ 1 := by
    rw [tally_handlerReturned]
    exact hs.once
  dsimp only [step] at hstep
  split at hstep
  · rename_i loop hp
    cases hstep
    obtain ⟨hbat, howns, ⟨hsts, hrsl, hrcp⟩, -⟩ := hs.atPhase hp
    refine hs.enter rfl rfl ⟨hsts, hrsl⟩ hbat honce ?_ ?_ trivial
    · rw [tally_handlerReturned]
      exact howns
    · rw [tally_handlerReturned]
      exact ⟨hsts, congrArg (· ++ [result]) hrsl, hrcp⟩
  · rename_i error hp
    cases hstep
    obtain ⟨-, howns, ⟨hsts, hrsl, hrcp, hcl⟩, -⟩ := hs.atPhase hp
    refine hs.enter rfl rfl ⟨hsts, hrsl⟩ trivial honce ?_ ?_ trivial
    · rw [tally_handlerReturned]
      exact howns
    · rw [tally_handlerReturned]
      exact ⟨hsts.trans (congrArg (List.length ∘ (· ++ [result])) hrsl).symm, .inl hcl, hrcp⟩
  · cases hstep

theorem Sound.loopStep (hs : lease.Sound config) {input : LoopInput}
    (hstep : step config lease (.loop input) = some next) : next.Sound config := by
  dsimp only [step] at hstep
  split at hstep
  · rename_i started loop hp
    obtain ⟨hbat, howns, hctrl, hacc, hrdy⟩ := hs.atPhase hp
    obtain ⟨⟨looped, loop'⟩, hloop, rfl⟩ := map_eq_some_iff.mp hstep
    obtain ⟨hcalm, hbat⟩ := calm_of_loop hs.toQueued hbat hloop
    refine hs.calm hcalm hbat howns hctrl ?_
    obtain ⟨events, htr, -⟩ := hcalm.trace
    rw [htr]
    exact ⟨mem_append_left _ hacc, peerReady_append hrdy⟩
  · rename_i result loop hp
    obtain ⟨hbat, howns, hctrl, -⟩ := hs.atPhase hp
    obtain ⟨⟨looped, loop'⟩, hloop, rfl⟩ := map_eq_some_iff.mp hstep
    obtain ⟨hcalm, hbat⟩ := calm_of_loop hs.toQueued hbat hloop
    exact hs.calm hcalm hbat howns hctrl trivial
  · cases hstep

theorem Sound.leave (hs : lease.Sound config) {error : LeaseError}
    (hstep : lease.leave error = some next) : next.Sound config := by
  unfold LeaseExecution.leave at hstep
  split at hstep
  · rename_i loop hp
    cases hstep
    obtain ⟨-, howns, ⟨hsts, hrsl, hrcp⟩, -⟩ := hs.atPhase hp
    exact hs.revoke.goto trivial howns ⟨hsts, hrsl, hrcp, rfl⟩ trivial
  · rename_i loop hp
    cases hstep
    obtain ⟨-, howns, ⟨hsts, hrsl, hrcp⟩, -⟩ := hs.atPhase hp
    exact hs.revoke.goto trivial howns
      ⟨hsts.trans (congrArg List.length hrsl).symm, .inl rfl, hrcp⟩ trivial
  · rename_i result loop hp
    cases hstep
    obtain ⟨-, howns, ⟨hsts, hrsl, hrcp⟩, -⟩ := hs.atPhase hp
    exact hs.revoke.goto trivial howns
      ⟨hsts.trans (congrArg List.length hrsl).symm, .inl rfl, hrcp⟩ trivial
  · cases hstep

/-! ### The report -/

theorem Receipt.of_receiptOf (lease : LeaseExecution Value Failure Output)
    (outcome : Except LeaseError Output) : (lease.receiptOf outcome).Of outcome := by
  cases outcome with
  | ok output => rfl
  | error error => exact ⟨error, rfl⟩

theorem Sound.takingPeer (hs : lease.Sound config) {after : AfterCleanup Failure Output}
    (hp : lease.phase = .takingPeer after) :
    (if lease.peer = some PeerSession.owned then { lease with peer := none }.goto (.shuttingDown after)
      else { lease with peer := none }.afterCleanup after).Sound config := by
  obtain ⟨-, howns, ⟨hret, hrcp⟩, horder⟩ := hs.atPhase hp
  split
  · rename_i hpeer
    exact
      { __ := hs
        batch := trivial
        robot := fun heq => by cases heq
        peers := ⟨howns.2.trans (if_pos hpeer), howns.1, rfl⟩
        control := ⟨hret, hrcp⟩
        order := horder }
  · rename_i hpeer
    have hsts : (tally lease.trace).peerStarts = 0 := howns.2.trans (if_neg hpeer)
    have hnone : ({ lease with peer := none } : LeaseExecution Value Failure Output).Sound config :=
      { __ := hs
        robot := fun heq => by cases heq
        peers := by
          change lease.phase.Peers (tally lease.trace) none
          rw [hp]
          exact ⟨howns.1, hsts⟩ }
    have hpee : (tally lease.trace).peerStarts = (tally lease.trace).peerStops ∧
        (tally lease.trace).peerStarts ≤ 1 := ⟨hsts.trans howns.1.symm, hsts ▸ zero_le_one⟩
    cases after with
    | refuse error => exact hnone.finish _ hret hpee
    | report receipt =>
      refine hnone.goto trivial hpee ⟨hret, hrcp⟩ ?_
      exact horder.imp fun _ hres => ⟨hres.1, hres.2.mono fun _ hcl =>
        ⟨hcl, fun hm => absurd hm (peerStarted_notMem hsts)⟩⟩

theorem Sound.proceed (hs : lease.Sound config)
    (hstep : step config lease .proceed = some next) : next.Sound config := by
  dsimp only [step] at hstep
  split at hstep
  · rename_i hp
    cases hstep
    obtain ⟨-, hpee, hctrl, hacc⟩ := hs.atPhase hp
    exact hs.goto trivial hpee hctrl hacc
  · rename_i error hp
    cases hstep
    obtain ⟨-, howns, ⟨hsts, hrsl, hrcp⟩, -⟩ := hs.atPhase hp
    exact hs.abandon _ howns (by rw [hsts, hrsl]; rfl) hrcp
  · rename_i result hp
    cases hstep
    obtain ⟨-, howns, ⟨hsts, hrsl, hrcp⟩, -⟩ := hs.atPhase hp
    exact hs.goto trivial howns
      ⟨hsts.trans (congrArg List.length hrsl).symm, .inr hrsl, hrcp⟩ trivial
  · rename_i result error hp
    cases hstep
    obtain ⟨-, howns, ⟨hsts, hrsl, hrcp⟩, -⟩ := hs.atPhase hp
    exact hs.revoke.goto trivial howns
      ⟨hsts.trans (congrArg List.length hrsl).symm, .inl rfl, hrcp⟩ trivial
  · rename_i outcome hp
    obtain ⟨-, howns, ⟨hret, hout, hrcp⟩, -⟩ := hs.atPhase hp
    split at hstep
    · cases hstep
      exact hs.goto trivial howns ⟨hret, hrcp⟩ trivial
    · rename_i hcl
      cases hstep
      have hrsl := hout.resolve_left hcl
      have hm : .handlerReturned outcome ∈ lease.trace := handlerReturned_mem (hrsl ▸ mem_cons_self)
      have hfls : (lease.goto (.flushing outcome .starting)).Sound config :=
        hs.goto trivial howns ⟨hret, hrcp⟩ (append_of_mem hm)
      exact hfls.same rfl rfl rfl rfl id
  · rename_i outcome hp
    cases hstep
    obtain ⟨-, howns, hctrl, hflu⟩ := hs.atPhase hp
    exact hs.goto trivial howns hctrl ⟨outcome, Receipt.of_receiptOf lease outcome, hflu⟩
  · rename_i outcome error hp
    cases hstep
    obtain ⟨-, howns, hctrl, -⟩ := hs.atPhase hp
    exact hs.goto trivial howns hctrl trivial
  · rename_i after hp
    have htak := hs.takingPeer hp
    split at hstep
    · rename_i hpeer
      cases hstep
      rwa [if_pos hpeer] at htak
    · rename_i hpeer
      cases hstep
      rwa [if_neg hpeer] at htak
  · cases hstep

theorem Sound.dataClosed (hs : lease.Sound config) {after : AfterCleanup Failure Output}
    (hp : lease.phase = .closingData after) :
    ((lease.goto (.takingPeer after)).record [.dataClosed]).Sound config := by
  obtain ⟨-, howns, hctrl, horder⟩ := hs.atPhase hp
  exact hs.enterQuiet rfl rfl rfl trivial trivial howns hctrl
    (AfterCleanup.Order.append horder fun _ _ => mem_append_right _ mem_cons_self)

theorem Sound.peerShutDown (hs : lease.Sound config) {ok : Bool}
    (hstep : step config lease (.peerShutDown ok) = some next) : next.Sound config := by
  dsimp only [step] at hstep
  split at hstep
  · rename_i after hp
    obtain ⟨-, ⟨hsts, hsto, -⟩, ⟨hret, hrcp⟩, horder⟩ := hs.atPhase hp
    have htal : tally (lease.trace ++ [.peerShutDown ok]) = { tally lease.trace with
        peerStops := (tally lease.trace).peerStops + 1 } := tally_peerShutDown lease.trace ok
    have honce : (tally (lease.trace ++ [.peerShutDown ok])).handlerStarts ≤ 1 := by
      rw [htal]
      exact hs.once
    have hpee : (tally (lease.trace ++ [.peerShutDown ok])).peerStarts =
        (tally (lease.trace ++ [.peerShutDown ok])).peerStops ∧
          (tally (lease.trace ++ [.peerShutDown ok])).peerStarts ≤ 1 := by
      rw [htal]
      exact ⟨hsts.trans (congrArg Nat.succ hsto).symm, hsts.le⟩
    have hfin : ∀ result,
        (LeaseExecution.finish (lease.record [.peerShutDown ok]) result).Sound config := by
      intro result
      have hdown : ((lease.goto .returned).record [.peerShutDown ok]).Sound config :=
        hs.enter rfl rfl ⟨hsts, hsto⟩ trivial honce trivial trivial trivial
      refine hdown.finish result ?_ hpee
      change (tally (lease.trace ++ [.peerShutDown ok])).handlerStarts =
        (tally (lease.trace ++ [.peerShutDown ok])).results.length
      rw [htal]
      exact hret
    split at hstep
    · rename_i hok
      cases hstep
      cases after with
      | refuse error => exact hfin _
      | report receipt =>
        refine hs.enter rfl rfl ⟨hsts, hsto⟩ trivial honce hpee ?_ ?_
        · rw [htal]
          exact ⟨hret, hrcp⟩
        · refine horder.imp fun _ hres => ⟨hres.1, hres.2.append fun _ hcl => ?_⟩
          refine ⟨mem_append_left _ hcl, fun _ => mem_append_right _ ?_⟩
          rw [hok]
          exact mem_cons_self
    · cases hstep
      exact hfin _
  · cases hstep

theorem Sound.receiptChecked (hs : lease.Sound config) {remaining : Except LeaseError Unit}
    (hstep : step config lease (.receiptChecked remaining) = some next) : next.Sound config := by
  dsimp only [step] at hstep
  split at hstep
  · rename_i receipt hp
    obtain ⟨-, hpee, ⟨hret, hrcp⟩, horder⟩ := hs.atPhase hp
    split at hstep
    · cases hstep
      exact hs.finish _ hret hpee
    · have hopen : ((lease.goto (.reporting receipt)).record [.foundOpen]).Sound config := by
        refine hs.enterQuiet rfl rfl rfl trivial trivial hpee ⟨hret, hrcp⟩ ?_
        exact horder.imp fun _ hres =>
          ⟨hres.1, hres.2.append fun _ hcle => hcle.append (by simp)⟩
      obtain ⟨-, hpee, ⟨hret, hrcp⟩, -⟩ := hopen.atPhase rfl
      split at hstep
      · cases hstep
        exact hopen.finish _ hret hpee
      · cases hstep
        have hsent : ((((lease.goto (.reporting receipt)).record [.foundOpen]).goto
            (.sending receipt)).record [.receipt receipt]).Sound config := by
          refine hopen.enter rfl rfl ⟨hrcp, ?_⟩ trivial ?_ ?_ ?_ trivial
          · exact horder.imp fun _ hres => ⟨hres.1, lease.trace, rfl, hres.2⟩
          · rw [tally_receipt]
            exact hopen.once
          · rw [tally_receipt]
            exact hpee
          · rw [tally_receipt]
            exact hret
        have hrec : ((((lease.goto (.reporting receipt)).record [.foundOpen]).goto
            (.sending receipt)).record [.receipt receipt]) =
            (lease.goto (.sending receipt)).record [.foundOpen, .receipt receipt] := by
          simp [LeaseExecution.record, LeaseExecution.goto]
        rwa [hrec] at hsent
  · cases hstep

theorem Sound.receiptReturned (hs : lease.Sound config) {result : Except LeaseError Unit}
    (hstep : step config lease (.receiptReturned result) = some next) : next.Sound config := by
  dsimp only [step] at hstep
  split at hstep
  · rename_i receipt hp
    obtain ⟨-, hpee, hret, -⟩ := hs.atPhase hp
    split at hstep <;>
    · cases hstep
      exact hs.finish _ hret hpee
  · cases hstep

theorem Sound.step {label : LeaseLabel Value Failure Output} (hs : lease.Sound config)
    (hstep : LeaseExecution.step config lease label = some next) : next.Sound config := by
  cases label with
  | stop | cancel | setFailure =>
    cases hstep
    exact hs.same rfl rfl rfl rfl id
  | revoke =>
    cases hstep
    exact hs.revoke
  | logEvent value seen => exact hs.logEvent hstep
  | heartbeat input => exact hs.heartbeatStep hstep
  | startupCancelled =>
    dsimp only [LeaseExecution.step] at hstep
    split at hstep
    · rename_i hp
      obtain ⟨-, howns, ⟨hsts, hrsl, hrcp⟩, -⟩ := hs.atPhase hp
      split at hstep
      · cases hstep
        exact hs.abandon _ howns (by rw [hsts, hrsl]; rfl) hrcp
      · cases hstep
    · cases hstep
  | startPeer =>
    dsimp only [LeaseExecution.step] at hstep
    split at hstep
    · rename_i hp
      cases hstep
      exact hs.startPeer hp
    · cases hstep
  | peerInterrupted =>
    dsimp only [LeaseExecution.step] at hstep
    split at hstep
    · split at hstep
      · cases hstep
        exact hs.revoke
      · cases hstep
    · cases hstep
  | peerStarted result remaining => exact hs.peerStartedStep hstep
  | startHandler =>
    dsimp only [LeaseExecution.step] at hstep
    split at hstep
    · rename_i hp
      cases hstep
      exact hs.startHandler hp
    · cases hstep
  | handlerReturned result => exact hs.handlerReturned hstep
  | loop input => exact hs.loopStep hstep
  | stoppedArm error =>
    dsimp only [LeaseExecution.step] at hstep
    split at hstep
    · exact hs.leave hstep
    · cases hstep
  | cancelledArm =>
    dsimp only [LeaseExecution.step] at hstep
    split at hstep
    · exact hs.leave hstep
    · cases hstep
  | loopArm =>
    dsimp only [LeaseExecution.step] at hstep
    split at hstep
    · exact hs.leave hstep
    · exact hs.leave hstep
    · cases hstep
  | proceed => exact hs.proceed hstep
  | reportCancelled =>
    dsimp only [LeaseExecution.step] at hstep
    split at hstep
    · cases hstep
      exact hs.same rfl rfl rfl rfl fun _ => rfl
    · cases hstep
  | dataClosed =>
    dsimp only [LeaseExecution.step] at hstep
    split at hstep
    · rename_i hp
      cases hstep
      exact hs.dataClosed hp
    · cases hstep
  | peerShutDown ok => exact hs.peerShutDown hstep
  | receiptChecked remaining => exact hs.receiptChecked hstep
  | receiptReturned result => exact hs.receiptReturned hstep

theorem Sound.new (config : LeaseConfig Value) (session grant : Bool) :
    (new config session grant : LeaseExecution Value Failure Output).Sound config where
  queue := rfl
  fits := ⟨Nat.zero_le _, 2, rfl, by decide⟩
  batch := trivial
  robot hpeer := by
    by_contra hrobot
    simp [LeaseExecution.new, hrobot] at hpeer
  once := Nat.zero_le _
  peers := by
    refine ⟨rfl, ?_⟩
    by_cases hsess : config.robotPeer = true ∧ session = true
    · simp [LeaseExecution.new, hsess, tally]
    · simp [LeaseExecution.new, hsess, tally]
  control := ⟨rfl, rfl, rfl⟩
  order := trivial
  events_sound before event after htr := by cases before <;> cases htr

theorem sound_of_run {session grant : Bool} {labels : List (LeaseLabel Value Failure Output)}
    (hrun : runSteps (LeaseExecution.step config) (new config session grant) labels =
      some lease) : lease.Sound config :=
  invariant_of_run (Sound.new config session grant) (fun _ _ _ hs hstep => hs.step hstep)
    hrun

/-- The handler starts at most once, and the one receipt follows everything else. -/
theorem task_lease_execution {session grant : Bool}
    {labels : List (LeaseLabel Value Failure Output)}
    (hrun : runSteps (step config) (new config session grant) labels = some lease)
    (before : List (LeaseEvent Value Failure Output)) (event : LeaseEvent Value Failure Output)
    (after : List (LeaseEvent Value Failure Output))
    (htrace : lease.trace = before ++ event :: after) : event.Sound config before :=
  (sound_of_run hrun).events_sound before event after htrace

def sampleConfig : LeaseConfig ℕ where
  factory := true
  robotPeer := false
  optionalPeer := false
  serialized := some

def sampleLabels : List (LeaseLabel ℕ Unit ℕ) :=
  [.logEvent 0 false, .heartbeat .snapshot, .heartbeat .sent, .heartbeat (.answered (.ok true)),
    .proceed, .startPeer, .peerStarted (.ok ()) (.ok ()), .startHandler, .logEvent 1 false,
    .loop (.remaining (.ok ())), .loop .wake, .loop (.heartbeat .snapshot), .logEvent 2 false,
    .loop (.heartbeat .sent), .handlerReturned (.ok 7),
    .loop (.heartbeat (.answered (.ok false))), .loop .joined, .loop (.remaining (.ok ())),
    .loop .stop, .proceed, .proceed, .heartbeat .snapshot, .heartbeat .sent,
    .heartbeat (.answered (.ok false)), .proceed, .dataClosed, .proceed, .peerShutDown true,
    .receiptChecked (.ok ()), .receiptReturned (.ok ())]

theorem runs_sampleLabels : ∃ lease : LeaseExecution ℕ Unit ℕ,
    runSteps (step sampleConfig) (new sampleConfig false false) sampleLabels = some lease ∧
      accepted lease.trace = [0, 1, 2] ∧ acknowledged lease.trace = [0, 1, 2] ∧
        (tally lease.trace).receipts = 1 ∧ (tally lease.trace).peerStarts = 1 := by
  have hmap : (runSteps (step sampleConfig) (new sampleConfig false false) sampleLabels).map
      (fun lease => (accepted lease.trace, acknowledged lease.trace,
        (tally lease.trace).receipts, (tally lease.trace).peerStarts)) =
        some ([0, 1, 2], [0, 1, 2], 1, 1) := by
    decide +kernel
  obtain ⟨lease, hrun, heq⟩ := map_eq_some_iff.mp hmap
  simp only [Prod.mk.injEq] at heq
  exact ⟨lease, hrun, heq.1, heq.2.1, heq.2.2.1, heq.2.2.2⟩

theorem task_lease_execution_sample : ∃ lease : LeaseExecution ℕ Unit ℕ,
    runSteps (step sampleConfig) (new sampleConfig false false) sampleLabels = some lease ∧
      (tally lease.trace).receipts = 1 ∧
        ∀ before event after, lease.trace = before ++ event :: after →
          event.Sound sampleConfig before := by
  obtain ⟨lease, hrun, -, -, hreceipts, -⟩ := runs_sampleLabels
  exact ⟨lease, hrun, hreceipts, task_lease_execution hrun⟩

/-- Without a configured peer the handler starts with none, whatever the task requires. -/
theorem handler_starts_without_peer :
    let config : LeaseConfig ℕ := { sampleConfig with factory := false }
    ∃ (labels : List (LeaseLabel ℕ Unit ℕ)) (lease : LeaseExecution ℕ Unit ℕ),
      runSteps (step config) (new config false false) labels = some lease ∧
        config.optionalPeer = false ∧ (tally lease.trace).handlerStarts = 1 ∧
          (tally lease.trace).peerStarts = 0 := by
  intro config
  have hmap : (runSteps (step config) (new config false false : LeaseExecution ℕ Unit ℕ)
      [.heartbeat .snapshot, .heartbeat .sent, .heartbeat (.answered (.ok false)), .proceed,
        .startPeer, .startHandler]).map
      (fun lease => ((tally lease.trace).handlerStarts, (tally lease.trace).peerStarts)) =
        some (1, 0) := by
    decide +kernel
  obtain ⟨lease, hrun, heq⟩ := map_eq_some_iff.mp hmap
  simp only [Prod.mk.injEq] at heq
  exact ⟨_, lease, hrun, rfl, heq.1, heq.2⟩

theorem Sound.handlerReturned_unique (hs : lease.Sound config)
    {first second first' second' : List (LeaseEvent Value Failure Output)}
    {result result' : Except LeaseError Output}
    {after : List (LeaseEvent Value Failure Output)}
    (htr : lease.trace = (first ++ .handlerReturned result :: second) ++ after)
    (hsp : first ++ .handlerReturned result :: second =
      first' ++ .handlerReturned result' :: second') : first = first' := by
  have hnone : ∀ first result second,
      lease.trace = (first ++ .handlerReturned result :: second) ++ after →
        (tally first).results = [] := by
    intro first result second htr
    rw [append_assoc, cons_append] at htr
    exact (hs.events_sound first _ _ htr).2
  have hfst := hnone first result second htr
  have hfirst' := hnone first' result' second' (hsp ▸ htr)
  rcases append_eq_append_iff.mp hsp with ⟨rest, heq, hrest⟩ | ⟨rest, heq, hrest⟩
  · cases rest with
    | nil => rw [heq, append_nil]
    | cons head rest =>
      cases hrest
      simp [heq, tally, LeaseEvent.result] at hfirst'
  · cases rest with
    | nil => rw [heq, append_nil]
    | cons head rest =>
      cases hrest
      simp [heq, tally, LeaseEvent.result] at hfst

/-- The acknowledged batches are the front of the accepted events. -/
theorem task_events_delivered {session grant : Bool}
    {labels : List (LeaseLabel Value Failure Output)}
    (hrun : runSteps (step config) (new config session grant) labels = some lease) :
    acknowledged lease.trace <+: accepted lease.trace ∧ lease.events.length ≤ 1024 ∧
      (∃ bytes, serializedEvents config lease.events = some bytes ∧ bytes ≤ 64 * 1024) ∧
      ∀ before receipt after, lease.trace = before ++ .receipt receipt :: after →
        (∃ result, .handlerReturned result ∈ before) ∧
          ∀ first result second, before = first ++ .handlerReturned result :: second →
            accepted first <+: acknowledged before := by
  have hsound := sound_of_run hrun
  refine ⟨⟨lease.events, hsound.queue.symm⟩, hsound.fits.1, hsound.fits.2, ?_⟩
  intro before receipt after htrace
  obtain ⟨-, result, -, trace, hbefore, first, second, rest, hsplit, hfront, -⟩ :=
    hsound.events_sound before _ after htrace
  have hbefore' : before =
      first ++ .handlerReturned result :: (second ++ .heartbeatAccepted :: rest ++ [.foundOpen]) := by
    rw [hbefore, hsplit]
    simp
  have hdelivered : accepted first <+: acknowledged before := by
    rw [hbefore, acknowledged_append]
    exact hfront.trans (prefix_append _ _)
  refine ⟨⟨result, ?_⟩, ?_⟩
  · rw [hbefore']
    exact mem_append_right _ mem_cons_self
  · intro first' result' second' hfirst'
    have hsame : first = first' :=
      hsound.handlerReturned_unique (hbefore' ▸ htrace) (hbefore'.symm.trans hfirst')
    rwa [← hsame]

theorem task_events_delivered_sample : ∃ lease : LeaseExecution ℕ Unit ℕ,
    runSteps (step sampleConfig) (new sampleConfig false false) sampleLabels = some lease ∧
      acknowledged lease.trace = [0, 1, 2] ∧ acknowledged lease.trace <+: accepted lease.trace ∧
          ∀ before receipt after, lease.trace = before ++ .receipt receipt :: after →
            ∀ first result second, before = first ++ .handlerReturned result :: second →
              accepted first <+: acknowledged before := by
  obtain ⟨lease, hrun, -, hacknowledged, -, -⟩ := runs_sampleLabels
  obtain ⟨hfront, -, -, hreceipts⟩ := task_events_delivered hrun
  exact ⟨lease, hrun, hacknowledged, hfront,
    fun before receipt after htrace => (hreceipts before receipt after htrace).2⟩

end LeaseExecution

end AukiSdk.Tasks
