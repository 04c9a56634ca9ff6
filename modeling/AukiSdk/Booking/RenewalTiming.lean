import AukiSdk.Booking.CoordinatorRenewal
import AukiSdk.Booking.BrowserRenewal

/-!
# Renewals in time

The browser runtime schedules every renewal in time.
-/

namespace AukiSdk.Booking

open AukiSdk.Foundation
open AukiSdk.Net
open AukiSdk.Relay

/-- The drawn delay leaves room for the time between the readings. -/
def ClockReadings.Fits (clocks : ClockReadings) (finish authorityExpiresAt : DateTime)
    (httpTimeout preferred : Duration) : Prop :=
  let remaining := remainingAt authorityExpiresAt clocks.utc
  let delay := capRelayRenewalDelay remaining preferred httpTimeout
  clocks.instant ≤ finish ∧
    (clocks.instant + delay ≤ finish + relayRenewRetryFloor ∨
      clocks.instant - clocks.utc + delay ≤
        capRelayRenewalDelay remaining remaining httpTimeout)

instance (clocks : ClockReadings) (finish authorityExpiresAt : DateTime)
    (httpTimeout preferred : Duration) :
    Decidable (clocks.Fits finish authorityExpiresAt httpTimeout preferred) :=
  inferInstanceAs (Decidable (_ ∧ _))

variable {config : RelayCoordinatorConfig} {actor next : CoordinatorActor}
variable {finish authority : DateTime} {httpTimeout preferred : Duration}

theorem lag_le {utc instant finish authority : ℤ} {margin timeout floor delay remaining : ℕ}
    (hrem : remaining = (authority - utc).toNat)
    (hdelay : delay ≤ remaining - margin - timeout) (hins : instant ≤ finish)
    (hfits : instant + delay ≤ finish + floor ∨
      instant - utc + delay ≤ (min remaining (remaining - margin - timeout) : ℕ)) :
    instant + delay ≤ max (finish + floor) (authority - margin - timeout) := by
  omega

variable {clocks : ClockReadings}

theorem ClockReadings.Fits.inTime (hfits : clocks.Fits finish authority httpTimeout preferred) :
    InTime finish authority httpTimeout (clocks.instant +
      capRelayRenewalDelay (remainingAt authority clocks.utc) preferred httpTimeout) := by
  exact lag_le rfl (Nat.min_le_right _ _) hfits.1 hfits.2

theorem ClockReadings.Fits.inTime_floor
    (hfits : clocks.Fits finish authority httpTimeout preferred) :
    InTime finish authority httpTimeout (clocks.instant +
      (max (capRelayRenewalDelay (remainingAt authority clocks.utc) preferred httpTimeout)
        relayRenewRetryFloor : ℕ)) := by
  obtain hdel | hflo := max_choice
    (capRelayRenewalDelay (remainingAt authority clocks.utc) preferred httpTimeout)
    relayRenewRetryFloor
  · rw [hdel]
    exact hfits.inTime
  · rw [hflo]
    apply le_max_of_le_left
    exact add_le_add_left hfits.1 _

theorem retryJitter_le (minimum maximum : Duration) (draw : ℕ) :
    retryJitter minimum maximum draw ≤ max maximum minimum := by
  rw [retryJitter, saturatedMillis, saturatedMillis]
  have hdraw := Nat.mod_lt draw (Nat.succ_pos
    (min (max maximum minimum / 1000000) (2 ^ 64 - 1) - min (minimum / 1000000) (2 ^ 64 - 1)))
  simp only [Nat.succ_eq_add_one] at hdraw
  have hmillis : min (minimum / 1000000) (2 ^ 64 - 1) ≤
      min (max maximum minimum / 1000000) (2 ^ 64 - 1) :=
    min_le_min_right _ (Nat.div_le_div_right (le_max_right _ _))
  calc _ ≤ (max maximum minimum / 1000000) * 1000000 := by
        apply Nat.mul_le_mul_right
        omega
    _ ≤ max maximum minimum := Nat.div_mul_le_self _ _

/-- The retry that `renew` draws after a failure. -/
def CoordinatorActor.retryDelay (config : RelayCoordinatorConfig) (actor : CoordinatorActor)
    (clocks : ClockReadings) (draw : ℕ) : Duration :=
  let remaining := remainingAt actor.snapshot.authorityExpiresAt clocks.utc
  let retryMax := min config.retryMax
    (capRelayRenewalDelay remaining remaining config.httpTimeout)
  retryJitter (min config.retryMin retryMax) retryMax draw

/-- The renewal that is scheduled suits the authority a new snapshot grants. -/
def CoordinatorActor.Suits (config : RelayCoordinatorConfig) (actor : CoordinatorActor)
    (finish : DateTime) (snapshot : RelayBookingSnapshot) : Prop :=
  actor.refused = true ∨ actor.nextRenew ≤ finish + relayRenewRetryFloor ∨
    actor.nextRenew + config.httpTimeout + relayAuthoritySafetyMargin ≤
      snapshot.authorityExpiresAt

instance (finish : DateTime) (snapshot : RelayBookingSnapshot) :
    Decidable (actor.Suits config finish snapshot) :=
  inferInstanceAs (Decidable (_ ∨ _))

/-- The schedule that follows this snapshot fits. -/
def ScheduleDraw.Meets (config : RelayCoordinatorConfig) (schedule : ScheduleDraw)
    (finish : DateTime) (snapshot : RelayBookingSnapshot) : Prop :=
  schedule.clocks.Fits finish snapshot.authorityExpiresAt config.httpTimeout
    (schedule.fraction (remainingAt snapshot.authorityExpiresAt schedule.clocks.utc))

instance (schedule : ScheduleDraw) (finish : DateTime) (snapshot : RelayBookingSnapshot) :
    Decidable (schedule.Meets config finish snapshot) :=
  inferInstanceAs (Decidable (ClockReadings.Fits _ _ _ _ _))

/-- What a turn needs of its inputs. -/
def CoordinatorActor.EventMeets (config : RelayCoordinatorConfig) (actor : CoordinatorActor)
    (now finish : DateTime) : CoordinatorEvent → Prop
  | .renew answers _ schedule clocks draw =>
    (∀ snapshot ∈ answers.result.toOption, schedule.Meets config finish snapshot) ∧
      (answers.result.toOption = none →
        clocks.Fits finish actor.snapshot.authorityExpiresAt config.httpTimeout
          (actor.retryDelay config clocks draw))
  | .poll nextExpiry answers _ =>
    actor.protects config nextExpiry now = true ∨
      ∀ snapshot ∈ answers.result.toOption.join, actor.Suits config finish snapshot
  | .reportFailure hasFence nextExpiry answers _ _ =>
    hasFence = false ∨ actor.protects config nextExpiry now = true ∨
      ∀ snapshot ∈ answers.result.toOption, actor.Suits config finish snapshot
  | .other _ => True

instance (now finish : DateTime) (event : CoordinatorEvent) :
    Decidable (actor.EventMeets config now finish event) :=
  match event with
  | .renew .. => inferInstanceAs (Decidable (_ ∧ _))
  | .poll .. => inferInstanceAs (Decidable (_ ∨ _))
  | .reportFailure .. => inferInstanceAs (Decidable (_ ∨ _))
  | .other _ => inferInstanceAs (Decidable True)

/-- The condition of a turn: its event suits the timer. -/
def CoordinatorActor.Meets (config : RelayCoordinatorConfig) (actor : CoordinatorActor)
    (turn : CoordinatorTurn) : Prop :=
  actor.finish ≤ turn.finish ∧ actor.EventMeets config turn.start turn.finish turn.event

instance (turn : CoordinatorTurn) : Decidable (actor.Meets config turn) :=
  inferInstanceAs (Decidable (_ ∧ _))

/-- Unless renewals are refused for payment, the next one is in time. -/
def CoordinatorActor.RenewsInTime (config : RelayCoordinatorConfig) (actor : CoordinatorActor) :
    Prop :=
  actor.refused = true ∨
    InTime actor.finish actor.snapshot.authorityExpiresAt config.httpTimeout actor.nextRenew

instance : Decidable (actor.RenewsInTime config) :=
  inferInstanceAs (Decidable (_ ∨ _))

variable {slotsApplied : Bool} {snapshot : RelayBookingSnapshot}

theorem CoordinatorActor.applySnapshot_eq_some
    (happ : actor.applySnapshot config snapshot slotsApplied = some next) :
    next = { actor with snapshot := snapshot } := by
  rw [applySnapshot] at happ
  split_ifs at happ
  exact (Option.some.inj happ).symm

theorem CoordinatorActor.RenewsInTime.wait (hin : actor.RenewsInTime config)
    (hfin : actor.finish ≤ finish) :
    CoordinatorActor.RenewsInTime config { actor with finish := finish } := by
  rcases hin with href | hin
  · exact Or.inl href
  · exact Or.inr (hin.mono hfin le_rfl)

theorem CoordinatorActor.Suits.renewsInTime (hsui : actor.Suits config finish snapshot) :
    CoordinatorActor.RenewsInTime config
      { actor with snapshot := snapshot, finish := finish } := by
  rcases hsui with href | hflo | hauthority
  · exact Or.inl href
  · exact Or.inr (le_max_of_le_left hflo)
  · right
    apply le_max_of_le_right
    rw [renewalDeadline]
    linarith

theorem CoordinatorActor.capRelayRenewalDelay_retryDelay (clocks : ClockReadings) (draw : ℕ) :
    capRelayRenewalDelay (remainingAt actor.snapshot.authorityExpiresAt clocks.utc)
      (actor.retryDelay config clocks draw) config.httpTimeout =
      actor.retryDelay config clocks draw := by
  have hjit := retryJitter_le
    (min config.retryMin (min config.retryMax
      (capRelayRenewalDelay (remainingAt actor.snapshot.authorityExpiresAt clocks.utc)
        (remainingAt actor.snapshot.authorityExpiresAt clocks.utc) config.httpTimeout)))
    (min config.retryMax
      (capRelayRenewalDelay (remainingAt actor.snapshot.authorityExpiresAt clocks.utc)
        (remainingAt actor.snapshot.authorityExpiresAt clocks.utc) config.httpTimeout)) draw
  rw [max_eq_left (min_le_right _ _)] at hjit
  rw [retryDelay, capRelayRenewalDelay]
  apply min_eq_left
  calc _ ≤ _ := hjit
    _ ≤ _ := min_le_right _ _
    _ ≤ _ := min_le_right _ _

theorem CoordinatorActor.renew_renewsInTime {answers : ControlAnswers RelayBookingSnapshot}
    {schedule : ScheduleDraw} {draw : ℕ} {now : DateTime}
    (hmee : actor.EventMeets config now finish (.renew answers slotsApplied schedule clocks draw))
    (hren : actor.renew config answers slotsApplied schedule clocks draw = some next) :
    CoordinatorActor.RenewsInTime config { next with finish := finish } := by
  rw [EventMeets] at hmee
  rw [renew] at hren
  cases hres : answers.result with
  | ok snapshot =>
    simp only [hres, Option.map_eq_some_iff] at hren
    obtain ⟨applied, happ, rfl⟩ := hren
    have hfits := hmee.1 snapshot (by rw [hres]; rfl)
    rw [applySnapshot_eq_some happ]
    exact Or.inr hfits.inTime_floor
  | error error =>
    simp only [hres] at hren
    split_ifs at hren with hpay hends hwin
    · cases hren
      exact Or.inl rfl
    · cases hren
      right
      have hret := (hmee.2 (by rw [hres]; rfl)).inTime
      rw [capRelayRenewalDelay_retryDelay] at hret
      exact hret

theorem CoordinatorActor.poll_renewsInTime {now nextExpiry : DateTime}
    {answers : ControlAnswers (Option RelayBookingSnapshot)} (hin : actor.RenewsInTime config)
    (hfin : actor.finish ≤ finish)
    (hmee : actor.EventMeets config now finish (.poll nextExpiry answers slotsApplied))
    (hpoll : actor.poll config now nextExpiry answers slotsApplied = some next) :
    CoordinatorActor.RenewsInTime config { next with finish := finish } := by
  rw [EventMeets] at hmee
  rw [poll] at hpoll
  by_cases hpro : actor.protects config nextExpiry now = true
  · rw [if_pos hpro] at hpoll
    cases hpoll
    exact hin.wait hfin
  · rw [if_neg hpro] at hpoll
    have hsui := hmee.resolve_left hpro
    split at hpoll
    next snapshot hres =>
      rw [applySnapshot_eq_some hpoll]
      exact (hsui snapshot (by rw [hres]; rfl)).renewsInTime
    next => cases hpoll
    next error _ =>
      split_ifs at hpoll
      cases hpoll
      exact hin.wait hfin

theorem CoordinatorActor.reportFailure_renewsInTime {now nextExpiry : DateTime}
    {hasFence slotRetired : Bool} {answers : ControlAnswers RelayBookingSnapshot}
    (hin : actor.RenewsInTime config) (hfin : actor.finish ≤ finish)
    (hmee : actor.EventMeets config now finish
      (.reportFailure hasFence nextExpiry answers slotRetired slotsApplied))
    (hrep : actor.reportFailure config now hasFence nextExpiry answers slotRetired
      slotsApplied = some next) :
    CoordinatorActor.RenewsInTime config { next with finish := finish } := by
  rw [EventMeets] at hmee
  rw [reportFailure] at hrep
  by_cases hfnc : hasFence = false
  · rw [if_pos hfnc] at hrep
    cases hrep
    exact hin.wait hfin
  by_cases hpro : actor.protects config nextExpiry now = true
  · rw [if_neg hfnc, if_pos hpro] at hrep
    cases hrep
    exact hin.wait hfin
  rw [if_neg hfnc, if_neg hpro] at hrep
  have hsui := (hmee.resolve_left hfnc).resolve_left hpro
  split at hrep
  next snapshot hres =>
    split_ifs at hrep
    rw [applySnapshot_eq_some hrep]
    exact (hsui snapshot (by rw [hres]; rfl)).renewsInTime
  next error _ =>
    split_ifs at hrep
    cases hrep
    exact hin.wait hfin

theorem CoordinatorActor.turn_renewsInTime {turn : CoordinatorTurn}
    (hin : actor.RenewsInTime config) (hmee : actor.Meets config turn)
    (hturn : actor.turn config turn = some next) : next.RenewsInTime config := by
  obtain ⟨hfin, hmee⟩ := hmee
  rw [CoordinatorActor.turn, Option.map_eq_some_iff] at hturn
  obtain ⟨handled, hhan, rfl⟩ := hturn
  cases hev : turn.event with
  | renew answers slotsApplied schedule clocks draw =>
    rw [hev] at hmee hhan
    rw [handle] at hhan
    split_ifs at hhan
    exact renew_renewsInTime hmee hhan
  | poll nextExpiry answers slotsApplied =>
    rw [hev] at hmee hhan
    exact poll_renewsInTime hin hfin hmee hhan
  | reportFailure hasFence nextExpiry answers slotRetired slotsApplied =>
    rw [hev] at hmee hhan
    exact reportFailure_renewsInTime hin hfin hmee hhan
  | other succeeded =>
    rw [hev, handle] at hhan
    split_ifs at hhan
    cases hhan
    exact hin.wait hfin

theorem CoordinatorActor.run_renewsInTime {schedule : ScheduleDraw}
    (hbeg : schedule.Meets config finish snapshot) {turns : List CoordinatorTurn}
    (hgrd : GuardedRun (CoordinatorActor.turn config)
      (CoordinatorActor.start config snapshot schedule finish)
      (CoordinatorActor.Meets config) turns) (hrun : runSteps (CoordinatorActor.turn config)
      (CoordinatorActor.start config snapshot schedule finish) turns = some actor) :
    actor.RenewsInTime config := by
  have hinit : (CoordinatorActor.start config snapshot schedule finish).RenewsInTime config :=
    Or.inr hbeg.inTime_floor
  exact invariant_of_guardedRun hinit
    (fun _ _ _ hin hmee hturn => turn_renewsInTime hin hmee hturn) hgrd hrun

variable {policy : AukiRelayConfig} {supervision supervised : RelaySupervision}
variable {iteration : RelayIteration} {pinned ready : ReadyRelay} {now : DateTime}

/-- The readings of an iteration do not go back past its end or the end of the last one. -/
def RelaySupervision.Meets (supervision : RelaySupervision) (iteration : RelayIteration) : Prop :=
  supervision.finish ≤ iteration.finish ∧ iteration.answered ≤ iteration.finish

instance : Decidable (supervision.Meets iteration) :=
  inferInstanceAs (Decidable (_ ∧ _))

/-- Unless renewals are refused for payment, one is scheduled, and in time. -/
def RelaySupervision.RenewsInTime (supervision : RelaySupervision) : Prop :=
  supervision.refused = true ∨ ∃ scheduled, supervision.nextRenew = some scheduled ∧
    InTime supervision.finish supervision.pinned.authorityExpiresAt relayHttpRequestTimeout
      scheduled

theorem chronoDuration_le (duration : Duration) : chronoDuration duration ≤ duration := by
  rw [chronoDuration, chronoFromStd]
  split_ifs with hfits
  · exact le_rfl
  · have hsnd : Duration.fromSecs 1 ≤ (2 ^ 63 - 1) * 1000000 := by decide
    exact le_trans hsnd (not_le.mp hfits).le

theorem inTime_bookingRenewalDelayAt (hnow : now ≤ finish) :
    InTime finish ready.authorityExpiresAt relayHttpRequestTimeout
      (now + (bookingRenewalDelayAt ready now : ℤ)) :=
  inTime_cap _ hnow

theorem inTime_chronoDuration (hnow : now ≤ finish) :
    InTime finish ready.authorityExpiresAt relayHttpRequestTimeout
      (now + (chronoDuration (bookingRenewalDelayAt ready now) : ℤ)) := by
  apply (inTime_bookingRenewalDelayAt hnow).earlier
  exact add_le_add_right (Int.ofNat_le.mpr (chronoDuration_le _)) _

theorem inTime_relayRenewalStartDeadline :
    InTime finish ready.authorityExpiresAt relayHttpRequestTimeout
      (relayRenewalStartDeadline ready) := by
  apply le_max_of_le_right
  rw [relayRenewalStartDeadline, renewalDeadline]
  push_cast
  linarith

theorem RelaySupervision.RenewsInTime.wait (hin : supervision.RenewsInTime)
    (hfin : supervision.finish ≤ finish) (nextPoll : DateTime) :
    RelaySupervision.RenewsInTime
      { supervision with nextPoll := nextPoll, finish := finish } := by
  rcases hin with href | ⟨scheduled, hsch, hin⟩
  · exact Or.inl href
  · exact Or.inr ⟨scheduled, hsch, hin.mono hfin le_rfl⟩

theorem RelaySupervision.renew_renewsInTime (hans : iteration.answered ≤ iteration.finish)
    (hren : supervision.renew policy iteration = some supervised) :
    RelaySupervision.RenewsInTime { supervised with finish := iteration.finish } := by
  rw [renew] at hren
  split at hren
  next snapshot _ =>
    simp only [Option.bind_eq_bind, Option.bind_eq_some_iff, Option.some.injEq] at hren
    obtain ⟨pinned, _, _, _, rfl⟩ := hren
    exact Or.inr ⟨_, rfl, inTime_chronoDuration hans⟩
  next error _ =>
    dsimp only at hren
    split_ifs at hren
    · cases hren
      exact Or.inl rfl
    · cases hren
      exact Or.inr ⟨_, rfl, inTime_relayRenewalStartDeadline.earlier (min_le_right _ _)⟩

theorem RelaySupervision.poll_renewsInTime (hin : supervision.RenewsInTime)
    (hmee : supervision.Meets iteration)
    (hpoll : supervision.poll policy iteration = some supervised) :
    RelaySupervision.RenewsInTime { supervised with finish := iteration.finish } := by
  rw [poll] at hpoll
  split at hpoll
  next snapshot _ =>
    simp only [Option.bind_eq_bind, Option.bind_eq_some_iff, Option.some.injEq] at hpoll
    obtain ⟨pinned, _, _, _, nextRenew, hn, rfl⟩ := hpoll
    rcases hin with href | ⟨scheduled, hsch, hin⟩
    · exact Or.inl href
    · -- whatever was scheduled, the pull does not let it pass the new delay
      rw [hsch, pullForward, pullBookingRenewalForward, Option.map_map,
        Option.map_eq_some_iff] at hn
      obtain ⟨delay, hdel, rfl⟩ := hn
      rw [chronoFromStd] at hdel
      split_ifs at hdel
      cases hdel
      exact Or.inr ⟨_, rfl, (inTime_bookingRenewalDelayAt hmee.2).earlier (min_le_right _ _)⟩
  next => cases hpoll
  next error _ =>
    split_ifs at hpoll
    cases hpoll
    exact hin.wait hmee.1 _

theorem RelaySupervision.iterate_renewsInTime (hin : supervision.RenewsInTime)
    (hmee : supervision.Meets iteration)
    (hite : supervision.iterate policy iteration = some supervised) :
    supervised.RenewsInTime := by
  rw [iterate, Option.map_eq_some_iff] at hite
  obtain ⟨acted, hact, rfl⟩ := hite
  simp only [act, Option.bind_eq_bind, Option.bind_eq_some_iff] at hact
  obtain ⟨_, _, _, _, hact⟩ := hact
  split at hact
  next => cases hact
  next =>
    cases hact
    exact hin.wait hmee.1 _
  next =>
    simp only [Option.bind_eq_some_iff] at hact
    obtain ⟨_, _, hact⟩ := hact
    split_ifs at hact
    · exact renew_renewsInTime hmee.2 hact
    · exact poll_renewsInTime hin hmee hact
    · cases hact
      exact hin.wait hmee.1 _

theorem RelaySupervision.run_renewsInTime (hbeg : now ≤ finish)
    {iterations : List RelayIteration}
    (hgrd : GuardedRun (RelaySupervision.iterate policy)
      (RelaySupervision.start policy pinned now finish) RelaySupervision.Meets iterations)
    (hrun : runSteps (RelaySupervision.iterate policy)
      (RelaySupervision.start policy pinned now finish) iterations = some supervision) :
    supervision.RenewsInTime := by
  have hinit : (RelaySupervision.start policy pinned now finish).RenewsInTime :=
    Or.inr ⟨_, rfl, inTime_chronoDuration hbeg⟩
  exact invariant_of_guardedRun hinit
    (fun _ _ _ hin hmee hite => iterate_renewsInTime hin hmee hite) hgrd hrun

/-- Both runtimes keep the next renewal in time after every step. -/
theorem booking_renewal_in_time (config : RelayCoordinatorConfig)
    (snapshot : RelayBookingSnapshot) (schedule : ScheduleDraw) (started : DateTime)
    (turns : List CoordinatorTurn) (actor : CoordinatorActor) (policy : AukiRelayConfig)
    (pinned : ReadyRelay) (now finish : DateTime) (iterations : List RelayIteration)
    (supervision : RelaySupervision) :
    (schedule.Meets config started snapshot → GuardedRun (CoordinatorActor.turn config)
        (CoordinatorActor.start config snapshot schedule started)
        (CoordinatorActor.Meets config) turns →
      runSteps (CoordinatorActor.turn config)
        (CoordinatorActor.start config snapshot schedule started) turns = some actor →
      actor.RenewsInTime config) ∧
    (now ≤ finish → GuardedRun (RelaySupervision.iterate policy)
        (RelaySupervision.start policy pinned now finish) RelaySupervision.Meets iterations →
      runSteps (RelaySupervision.iterate policy)
        (RelaySupervision.start policy pinned now finish) iterations = some supervision →
      supervision.RenewsInTime) :=
  ⟨fun hstart hguard hrun => CoordinatorActor.run_renewsInTime hstart hguard hrun,
    fun hstart hguard hrun => RelaySupervision.run_renewsInTime hstart hguard hrun⟩

def sampleConfig : RelayCoordinatorConfig where
  mode := .public
  requestedDurationSeconds := 3600
  relayCount := 1
  httpTimeout := Duration.fromSecs 10
  retryMin := 250000000
  retryMax := Duration.fromSecs 5

def samplePolicy : AukiRelayConfig where
  mode := .public
  relayCount := 1
  requestedDuration := Duration.fromSecs 3600
  statusPollInterval := Duration.fromSecs 10

variable (seconds : ℕ)

/-- The time that many seconds after the start of the samples. -/
def atSecond : DateTime := (Duration.fromSecs seconds : ℕ)

def sampleBooking : RelayBookingSnapshot where
  bookingId := 7
  mode := .public
  state := .active
  relayCount := 1
  requestedDurationSeconds := 3600
  requestedUntil := atSecond 3600
  authorityExpiresAt := atSecond seconds
  slots := []

/-- A relay with the authority of `sampleBooking 1000`. -/
def sampleRelay : ReadyRelay where
  bookingId := 7
  requestedUntil := atSecond 3600
  authorityExpiresAt := atSecond 1000
  providerLeaseExpiresAt := atSecond 1000
  fence := ⟨1, 2, 3⟩
  provider := {
    relayPeerId := samplePeer 2
    bases := [providerBase "relay.example.com" 4001 .tcp (samplePeer 2),
      providerBase "relay.example.com" 443 .wss (samplePeer 2)]
    selectedTransport := .wss
    expectedLimits := ⟨3600, 1048576, by decide, by decide, by decide, by decide⟩
    exists_selected := by simp [providerBase, providerBaseTransport] }

def sampleSchedule : ScheduleDraw where
  clocks := ⟨atSecond seconds, atSecond seconds⟩
  fraction remaining := remaining * 3 / 10

def sampleTurns : List CoordinatorTurn := [
  ⟨atSecond 100, .poll (atSecond 900) ⟨.ok (some (sampleBooking 800)), .ok none⟩ true,
    atSecond 101⟩,
  ⟨atSecond 300, .renew ⟨.error (.transport true), .error (.transport true)⟩ true
    (sampleSchedule 305) ⟨atSecond 305, atSecond 305⟩ 1000, atSecond 305⟩,
  ⟨atSecond 307, .renew ⟨.ok (sampleBooking 2000), .error (.transport true)⟩ true
    (sampleSchedule 308) ⟨atSecond 308, atSecond 308⟩ 1000, atSecond 309⟩]

def sampleIterations : List RelayIteration := [
  { started := atSecond 0, woken := atSecond 10, acting := atSecond 10, authority := .usable,
    renewal := .error (.transport true),
    status := .error (.http 503 .dependencyUnavailable (some (Duration.fromSecs 5))),
    answered := atSecond 11, finish := atSecond 11 },
  { started := atSecond 11, woken := atSecond 250, acting := atSecond 250, authority := .usable,
    renewal := .error (.transport true), status := .error (.transport true),
    answered := atSecond 260, finish := atSecond 260 }]

theorem booking_renewal_in_time_sample : (∃ actor, runSteps (CoordinatorActor.turn sampleConfig)
        (CoordinatorActor.start sampleConfig (sampleBooking 1000) (sampleSchedule 0)
          (atSecond 0)) sampleTurns = some actor ∧
      actor.RenewsInTime sampleConfig) ∧
    (∃ supervision, runSteps (RelaySupervision.iterate samplePolicy)
        (RelaySupervision.start samplePolicy sampleRelay (atSecond 0) (atSecond 0))
        sampleIterations = some supervision ∧
      supervision.RenewsInTime) := by
  have hturns : GuardedRun (CoordinatorActor.turn sampleConfig)
      (CoordinatorActor.start sampleConfig (sampleBooking 1000) (sampleSchedule 0)
        (atSecond 0)) (CoordinatorActor.Meets sampleConfig) sampleTurns :=
    @guardedRun_of_tested _ _ _ (fun actor turn => decide (actor.Meets sampleConfig turn)) _
      (fun _ _ htest => of_decide_eq_true htest) _ _ (by decide +kernel)
  have hiterations : GuardedRun (RelaySupervision.iterate samplePolicy)
      (RelaySupervision.start samplePolicy sampleRelay (atSecond 0) (atSecond 0))
      RelaySupervision.Meets sampleIterations :=
    @guardedRun_of_tested _ _ _ (fun supervision iteration =>
      decide (supervision.Meets iteration)) _
      (fun _ _ htest => of_decide_eq_true htest) _ _ (by decide +kernel)
  obtain ⟨actor, hactor⟩ := Option.isSome_iff_exists.mp (by decide +kernel :
    (runSteps (CoordinatorActor.turn sampleConfig)
      (CoordinatorActor.start sampleConfig (sampleBooking 1000) (sampleSchedule 0)
        (atSecond 0)) sampleTurns).isSome = true)
  obtain ⟨supervision, hsupervision⟩ := Option.isSome_iff_exists.mp (by decide +kernel :
    (runSteps (RelaySupervision.iterate samplePolicy)
      (RelaySupervision.start samplePolicy sampleRelay (atSecond 0) (atSecond 0))
      sampleIterations).isSome = true)
  have hboth := booking_renewal_in_time sampleConfig (sampleBooking 1000) (sampleSchedule 0)
    (atSecond 0) sampleTurns actor samplePolicy sampleRelay (atSecond 0) (atSecond 0)
    sampleIterations supervision
  exact ⟨⟨actor, hactor, hboth.1 (by decide +kernel) hturns hactor⟩,
    ⟨supervision, hsupervision, hboth.2 le_rfl hiterations hsupervision⟩⟩

/-- The coordinator leaves its renewal after the end of a shortened authority. -/
theorem booking_renewal_scheduled_too_late :
    ∃ (schedule : ScheduleDraw) (poll : CoordinatorTurn) (actor : CoordinatorActor),
      schedule.Meets sampleConfig (atSecond 0) (sampleBooking 1000) ∧
      runSteps (CoordinatorActor.turn sampleConfig)
        (CoordinatorActor.start sampleConfig (sampleBooking 1000) schedule (atSecond 0)) [poll] =
          some actor ∧
      actor.finish = poll.finish ∧ poll.start ≤ poll.finish ∧
      actor.snapshot.authorityExpiresAt < actor.nextRenew ∧
      ¬ actor.RenewsInTime sampleConfig := by
  refine ⟨sampleSchedule 0, ⟨atSecond 100,
    .poll (atSecond 900) ⟨.ok (some (sampleBooking 200)), .ok none⟩ true, atSecond 101⟩,
    ⟨sampleBooking 200, atSecond 300, false, atSecond 101⟩, ?_, ?_, rfl, ?_, ?_, ?_⟩
  · decide +kernel
  · rfl
  · decide +kernel
  · decide +kernel
  · decide +kernel

end AukiSdk.Booking
