import AukiSdk.Booking.CoordinatorRenewal

/-!
# Deleting the booking at shutdown

The delete loop of `stop` and the one attempt of `finish_relay_supervision`.
-/

namespace AukiSdk.Booking

open AukiSdk.Net

inductive RelayOperation where
  | active
  | create
  | renew
  | reservationFailed
  | delete
  deriving DecidableEq

/-- The status that `validate_error_status` asks of a code. -/
def RelayErrorCode.status : RelayErrorCode → ℕ
  | .paymentRequired => 402
  | .invalidRequest | .missingIdempotencyKey | .invalidIdempotencyKey => 400
  | .unauthorized => 401
  | .invalidRobotPrincipal | .invalidRequesterPrincipal | .forbidden => 403
  | .notFound => 404
  | .activeBookingConflict | .idempotencyConflict | .targetPeerConflict
  | .staleRobotPrincipal | .staleRequesterPrincipal | .staleFence => 409
  | .authorityEnded => 410
  | .organizationSlotQuotaExceeded => 429
  | .dependencyUnavailable => 503
  | .internalError => 500

/-- The codes that `validate_error_status` allows for every operation. -/
def commonErrorCodes : List RelayErrorCode :=
  [.unauthorized, .invalidRobotPrincipal, .invalidRequesterPrincipal, .forbidden,
    .dependencyUnavailable, .internalError]

/-- The further codes that it allows. -/
def RelayOperation.errorCodes : RelayOperation → List RelayErrorCode
  | .active => [.staleRobotPrincipal, .staleRequesterPrincipal]
  | .create => [.paymentRequired, .invalidRequest, .missingIdempotencyKey, .invalidIdempotencyKey,
      .activeBookingConflict, .idempotencyConflict, .targetPeerConflict,
      .organizationSlotQuotaExceeded]
  | .renew => [.paymentRequired, .invalidRequest, .notFound, .staleRobotPrincipal,
      .staleRequesterPrincipal, .authorityEnded]
  | .reservationFailed => [.invalidRequest, .notFound, .staleRobotPrincipal,
      .staleRequesterPrincipal, .authorityEnded]
  | .delete => [.invalidRequest, .notFound, .staleRobotPrincipal, .staleRequesterPrincipal,
      .authorityEnded]

def validateErrorStatus (operation : RelayOperation) (status : ℕ) (code : RelayErrorCode) :
    Except RelayBookingClientError Unit :=
  if status ≠ code.status then
    .error (.invalidResponse "relay error code does not match its HTTP status")
  else if code ∉ commonErrorCodes ++ operation.errorCodes then
    .error (.invalidResponse "relay error code is not valid for this endpoint")
  else
    .ok ()

/-- What a delete request comes to: an empty 204, an error of the service, or a
failure without one. -/
inductive DeleteReply where
  | noContent
  | http (status : ℕ) (code : RelayErrorCode)
  | failed (error : {error : RelayBookingClientError // error.httpCode = none})
  deriving DecidableEq

/-- `RelayBookingClient::delete`. -/
def DeleteReply.result : DeleteReply → Except RelayBookingClientError Unit
  | .noContent => .ok ()
  | .http status code =>
    match validateErrorStatus .delete status code with
    | .error error => .error error
    | .ok () => .error (.http status code none)
  | .failed error => .error error.1

/-- The reply proves that the booking no longer exists. -/
def DeleteReply.Proves (reply : DeleteReply) : Prop :=
  reply = .noContent ∨ reply = .http 404 .notFound ∨ reply = .http 410 .authorityEnded

/-- A delete request, with the draw for a wait after it. -/
structure DeleteAttempt where
  reply : DeleteReply
  took : Duration
  draw : ℕ

/-- The configuration of `relay_coordinator_config`, with its budget. -/
structure StopConfig extends RelayCoordinatorConfig where
  reservationRetryBudget : Duration
  le_retryMin : 1000000 ≤ retryMin

structure StopOutcome where
  result : Except RelayBookingClientError Unit
  elapsed : Duration

variable (config : StopConfig)

/-- `bounded_control_call`, with the time it takes. -/
def boundedDelete (attempt : DeleteAttempt) : Except RelayBookingClientError Unit × Duration :=
  if attempt.took ≤ config.httpTimeout then (attempt.reply.result, attempt.took)
  else (.error (.transport true), config.httpTimeout)

/-- One turn of the loop: its end, or the start and the ceiling of the next turn. -/
def stopTurn (attempt : DeleteAttempt) (start ceiling : Duration) :
    StopOutcome ⊕ (Duration × Duration) :=
  let (result, took) := boundedDelete config attempt
  match result with
  | .ok () => .inl ⟨.ok (), start + took⟩
  | .error error =>
    if error.httpCode = some .authorityEnded then
      .inl ⟨.ok (), start + took⟩
    else if error.isRetryable then
      let delay := retryJitter config.retryMin ceiling attempt.draw
      if start + took + delay ≥ config.reservationRetryBudget then
        .inl ⟨.error error, start + took⟩
      else
        .inr (start + took + delay, min (ceiling * 2) config.retryMax)
    else
      .inl ⟨.error error, start + took⟩

variable (attempts : ℕ → DeleteAttempt)

/-- The loop from one turn on; `none` stands for fuel that does not suffice. -/
def stopLoop : ℕ → ℕ → Duration → Duration → Option StopOutcome
  | 0, _, _, _ => none
  | fuel + 1, index, start, ceiling =>
    match stopTurn config (attempts index) start ceiling with
    | .inl outcome => some outcome
    | .inr (start, ceiling) => stopLoop fuel (index + 1) start ceiling

/-- The delete loop of `CoordinatorActor::stop`. -/
def coordinatorStop : Option StopOutcome :=
  stopLoop config attempts (config.reservationRetryBudget / 1000000 + 1) 0 0 config.retryMin

/-- The start and the ceiling of a turn that the loop takes. -/
def turnAt : ℕ → Option (Duration × Duration)
  | 0 => some (0, config.retryMin)
  | index + 1 => (turnAt index).bind fun turn =>
    (stopTurn config (attempts index) turn.1 turn.2).getRight?

/-- A request that the native loop makes is answered in time by `reply`. -/
def Answered (reply : DeleteReply) : Prop :=
  ∃ index, (turnAt config attempts index).isSome = true ∧
    (attempts index).took ≤ config.httpTimeout ∧ (attempts index).reply = reply

def cleanupStageTimeout : Duration := Duration.fromSecs 30

/-- The failure that `finish_relay_supervision` notes for the booking; `text` displays
the error. -/
def bookingCleanupFailure (text : RelayBookingClientError → String) (attempt : DeleteAttempt) :
    Option String :=
  if attempt.took ≤ cleanupStageTimeout then
    match attempt.reply.result with
    | .ok () => none
    | .error error =>
      if error.httpCode = some .notFound then none
      else some ("booking cleanup failed: " ++ text error)
  else
    some "booking cleanup timed out"

/-- The cleanup failures of `finish_relay_supervision`, in their order. -/
def relayCleanupFailures (text : RelayBookingClientError → String)
    (advertisement node authority : Option String) (attempt : DeleteAttempt) : List String :=
  advertisement.toList ++ node.toList ++ (bookingCleanupFailure text attempt).toList ++
    authority.toList

/-- `complete_supervision` after a shutdown. -/
def completeShutdown (failures : List String) : Option String :=
  if failures.isEmpty then none else some ("shutdown; " ++ "; ".intercalate failures)

variable {config} {attempts} {attempt : DeleteAttempt} {start ceiling : Duration}

theorem result_eq_ok_iff {reply : DeleteReply} : reply.result = .ok () ↔ reply = .noContent := by
  cases reply with
  | noContent => exact ⟨fun _ => rfl, fun _ => rfl⟩
  | http status code =>
    rw [DeleteReply.result]
    split <;> exact ⟨nofun, nofun⟩
  | failed error => exact ⟨nofun, nofun⟩

/-- The code of an error is the one of the reply, with its own status. -/
theorem httpCode_of_result {reply : DeleteReply} {error : RelayBookingClientError}
    {code : RelayErrorCode} (herr : reply.result = .error error)
    (hcode : error.httpCode = some code) : reply = .http code.status code := by
  cases reply with
  | noContent => cases herr
  | failed failure =>
    cases herr
    rw [failure.2] at hcode
    cases hcode
  | http status found =>
    rw [DeleteReply.result, validateErrorStatus] at herr
    by_cases hsta : status = found.status
    · rw [if_neg (not_not.mpr hsta)] at herr
      split_ifs at herr
      · cases herr
        cases hcode
        rw [hsta]
      · cases herr
        cases hcode
    · rw [if_pos hsta] at herr
      cases herr
      cases hcode

theorem httpCode_iff {reply : DeleteReply} {code : RelayErrorCode}
    (hres : (DeleteReply.http code.status code).result = .error (.http code.status code none))
    {error : RelayBookingClientError} (herr : reply.result = .error error) :
    error.httpCode = some code ↔ reply = .http code.status code := by
  constructor
  · exact httpCode_of_result herr
  · rintro rfl
    cases hres.symm.trans herr
    rfl

theorem le_retryJitter {minimum maximum : Duration} (hmin : 1000000 ≤ minimum) (draw : ℕ) :
    1000000 ≤ retryJitter minimum maximum draw := by
  have hone : 1 ≤ saturatedMillis minimum :=
    le_min ((Nat.le_div_iff_mul_le (by decide)).mpr (by simpa using hmin)) (by decide)
  calc 1000000 ≤ saturatedMillis minimum * 1000000 := Nat.le_mul_of_pos_left _ hone
    _ ≤ retryJitter minimum maximum draw := Nat.mul_le_mul_right _ (Nat.le_add_right _ _)

theorem stopTurn_ends {outcome : StopOutcome}
    (hturn : stopTurn config attempt start ceiling = .inl outcome) :
    outcome.elapsed ≤ start + config.httpTimeout ∧
      (outcome.result = .ok () ↔ attempt.took ≤ config.httpTimeout ∧
        (attempt.reply = .noContent ∨ attempt.reply = .http 410 .authorityEnded)) := by
  unfold stopTurn boundedDelete at hturn
  by_cases htook : attempt.took ≤ config.httpTimeout
  · simp only [htook, if_true, true_and] at hturn ⊢
    cases hres : attempt.reply.result with
    | ok =>
      simp only [hres] at hturn
      cases hturn
      exact ⟨Nat.add_le_add_left htook start, iff_of_true rfl (.inl (result_eq_ok_iff.mp hres))⟩
    | error error =>
      have hsome : attempt.reply ≠ .noContent := by
        intro hno
        rw [hno] at hres
        cases hres
      have hcode : error.httpCode = some .authorityEnded ↔
          attempt.reply = .http 410 .authorityEnded := httpCode_iff rfl hres
      simp only [hres] at hturn
      simp only [hsome, false_or, ← hcode]
      split_ifs at hturn with hend
      all_goals cases hturn
      all_goals refine ⟨Nat.add_le_add_left htook start, ?_⟩
      · exact iff_of_true rfl hend
      · exact iff_of_false nofun hend
      · exact iff_of_false nofun hend
  · simp only [htook, if_false, false_and, iff_false] at hturn ⊢
    split_ifs at hturn with hend
    all_goals cases hturn
    · cases hend
    · exact ⟨le_rfl, nofun⟩
    · exact ⟨le_rfl, nofun⟩

/-- A wait follows a reply that proves nothing, and ends within the budget. -/
theorem stopTurn_waits {next : Duration × Duration}
    (hturn : stopTurn config attempt start ceiling = .inr next) :
    start + 1000000 ≤ next.1 ∧ next.1 < config.reservationRetryBudget ∧
      ¬ (attempt.took ≤ config.httpTimeout ∧ attempt.reply.Proves) := by
  have hwait := @le_retryJitter config.retryMin ceiling config.le_retryMin attempt.draw
  unfold stopTurn at hturn
  split at hturn
  next result took hc =>
  split at hturn
  · cases hturn
  next error =>
    split at hturn
    · cases hturn
    next hend =>
    split at hturn
    next hret =>
      dsimp only at hturn
      split at hturn
      · cases hturn
      next hbud =>
      cases hturn
      refine ⟨Nat.add_le_add (Nat.le_add_right start took) hwait, Nat.lt_of_not_ge hbud, ?_⟩
      rintro ⟨htook, hpro⟩
      rw [boundedDelete, if_pos htook] at hc
      have hres := congrArg Prod.fst hc
      rcases hpro with hno | hgone | hover
      · rw [hno] at hres
        cases hres
      · rw [hgone] at hres
        cases hres
        cases hret
      · rw [hover] at hres
        cases hres
        exact hend rfl
    · cases hturn

theorem spend_turn {budget start next fuel wait : ℕ} (hfuel : budget < start + (fuel + 1) * wait)
    (hlater : start + wait ≤ next) : budget < next + fuel * wait := by
  rw [Nat.succ_mul] at hfuel
  omega

theorem turns_suffice (budget : ℕ) : budget < 0 + (budget / 1000000 + 1) * 1000000 := by
  omega

theorem stopLoop_ends {fuel index : ℕ}
    (hturn : turnAt config attempts index = some (start, ceiling))
    (hbeg : start ≤ config.reservationRetryBudget)
    (hfuel : config.reservationRetryBudget < start + fuel * 1000000) :
    ∃ last turn outcome, stopLoop config attempts fuel index start ceiling = some outcome ∧
      turnAt config attempts last = some turn ∧ turn.1 ≤ config.reservationRetryBudget ∧
      stopTurn config (attempts last) turn.1 turn.2 = .inl outcome := by
  induction fuel generalizing index start ceiling with
  | zero => exact absurd hfuel (Nat.not_lt.mpr (by simpa using hbeg))
  | succ fuel ih =>
    rw [stopLoop]
    cases hn : stopTurn config (attempts index) start ceiling with
    | inl outcome => exact ⟨index, _, outcome, rfl, hturn, hbeg, hn⟩
    | inr next =>
      obtain ⟨hlater, hwithin, -⟩ := stopTurn_waits hn
      refine ih ?_ hwithin.le (spend_turn hfuel hlater)
      rw [turnAt, hturn, Option.bind_some, hn]
      rfl

theorem turnAt_before {last : ℕ} (hlast : (turnAt config attempts last).isSome = true) :
    ∀ index < last, ∃ turn next, turnAt config attempts index = some turn ∧
      stopTurn config (attempts index) turn.1 turn.2 = .inr next := by
  induction last with
  | zero => exact nofun
  | succ last ih =>
    intro index hlt
    obtain ⟨next, hn⟩ := Option.isSome_iff_exists.mp hlast
    obtain ⟨turn, hturn, hrig⟩ := Option.bind_eq_some_iff.mp hn
    cases Nat.lt_succ_iff_lt_or_eq.mp hlt with
    | inl hlt => exact ih (Option.isSome_iff_exists.mpr ⟨turn, hturn⟩) index hlt
    | inr heq =>
      rw [heq]
      exact ⟨turn, next, hturn, Sum.getRight?_eq_some_iff.mp hrig⟩

/-- Only the last request of the loop is answered by a proof. -/
theorem answered_iff {last : ℕ} {turn : Duration × Duration} {outcome : StopOutcome}
    (hturn : turnAt config attempts last = some turn)
    (hend : stopTurn config (attempts last) turn.1 turn.2 = .inl outcome) {reply : DeleteReply}
    (hpro : reply.Proves) :
    Answered config attempts reply ↔
      (attempts last).took ≤ config.httpTimeout ∧ (attempts last).reply = reply := by
  constructor
  · rintro ⟨index, hsome, htook, heq⟩
    rcases lt_trichotomy index last with hlt | rfl | hgt
    · obtain ⟨_, next, -, hn⟩ := turnAt_before (by rw [hturn]; rfl) index hlt
      exact absurd ⟨htook, heq ▸ hpro⟩ (stopTurn_waits hn).2.2
    · exact ⟨htook, heq⟩
    · obtain ⟨turn', next, hturn', hn⟩ := turnAt_before hsome last hgt
      cases hturn.symm.trans hturn'
      cases hend.symm.trans hn
  · exact fun ⟨htook, heq⟩ => ⟨last, by rw [hturn]; rfl, htook, heq⟩

theorem bookingCleanupFailure_iff {text : RelayBookingClientError → String} :
    bookingCleanupFailure text attempt = none ↔ attempt.took ≤ cleanupStageTimeout ∧
      (attempt.reply = .noContent ∨ attempt.reply = .http 404 .notFound) := by
  unfold bookingCleanupFailure
  by_cases htook : attempt.took ≤ cleanupStageTimeout
  · simp only [htook, if_true, true_and]
    cases hres : attempt.reply.result with
    | ok => exact iff_of_true rfl (.inl (result_eq_ok_iff.mp hres))
    | error error =>
      have hsome : attempt.reply ≠ .noContent := by
        intro hno
        rw [hno] at hres
        cases hres
      have hcode : error.httpCode = some .notFound ↔ attempt.reply = .http 404 .notFound :=
        httpCode_iff rfl hres
      simp [hsome, hcode]
  · simp [htook]

theorem completeShutdown_iff {text : RelayBookingClientError → String}
    {advertisement node authority : Option String} :
    completeShutdown (relayCleanupFailures text advertisement node authority attempt) = none ↔
      advertisement = none ∧ node = none ∧ authority = none ∧
        bookingCleanupFailure text attempt = none := by
  have hnone (failures : List String) : completeShutdown failures = none ↔ failures = [] := by
    cases failures <;> simp [completeShutdown]
  rw [hnone, relayCleanupFailures]
  simp only [List.append_eq_nil_iff, Option.toList_eq_nil_iff]
  tauto

/-- A report that leaves out one case is right exactly when that case is absent. -/
theorem report_iff {known missed : Prop} (hapa : ¬ (known ∧ missed)) :
    (known ↔ known ∨ missed) ↔ ¬ missed := by
  constructor
  · exact fun hsm hmis => hapa ⟨hsm.mpr (.inr hmis), hmis⟩
  · exact fun hnone => (or_iff_left hnone).symm

/-- Neither runtime reports a release without a proof. -/
theorem booking_release_reported (config : StopConfig) (attempts : ℕ → DeleteAttempt)
    (text : RelayBookingClientError → String) (attempt : DeleteAttempt) :
    ∃ outcome, coordinatorStop config attempts = some outcome ∧
      outcome.elapsed ≤ config.reservationRetryBudget + config.httpTimeout ∧
      (outcome.result = .ok () → ∃ reply, reply.Proves ∧ Answered config attempts reply) ∧
      ((outcome.result = .ok () ↔ ∃ reply, reply.Proves ∧ Answered config attempts reply) ↔
        ¬ Answered config attempts (.http 404 .notFound)) ∧
      (bookingCleanupFailure text attempt = none →
        attempt.took ≤ cleanupStageTimeout ∧ attempt.reply.Proves) ∧
      ((bookingCleanupFailure text attempt = none ↔
          attempt.took ≤ cleanupStageTimeout ∧ attempt.reply.Proves) ↔
        ¬ (attempt.took ≤ cleanupStageTimeout ∧ attempt.reply = .http 410 .authorityEnded)) ∧
      ∀ advertisement node authority,
        completeShutdown (relayCleanupFailures text advertisement node authority attempt) = none ↔
          advertisement = none ∧ node = none ∧ authority = none ∧
            bookingCleanupFailure text attempt = none := by
  obtain ⟨last, turn, outcome, hrun, hturn, hbeg, hend⟩ := @stopLoop_ends config attempts 0
    config.retryMin (config.reservationRetryBudget / 1000000 + 1) 0 rfl (Nat.zero_le _)
    (turns_suffice _)
  obtain ⟨helapsed, hok⟩ := stopTurn_ends hend
  have hproved : (∃ reply, reply.Proves ∧ Answered config attempts reply) ↔
      outcome.result = .ok () ∨ Answered config attempts (.http 404 .notFound) := by
    rw [hok, answered_iff hturn hend (.inr (.inl rfl))]
    constructor
    · rintro ⟨reply, hproves, hans⟩
      obtain ⟨htook, rfl⟩ := (answered_iff hturn hend hproves).mp hans
      rcases hproves with hno | hgone | hover
      · exact .inl ⟨htook, .inl hno⟩
      · exact .inr ⟨htook, hgone⟩
      · exact .inl ⟨htook, .inr hover⟩
    · rintro (⟨htook, hproves⟩ | ⟨htook, hgone⟩)
      · have hall : (attempts last).reply.Proves := hproves.imp_right .inr
        exact ⟨_, hall, (answered_iff hturn hend hall).mpr ⟨htook, rfl⟩⟩
      · have hall : (attempts last).reply.Proves := .inr (.inl hgone)
        exact ⟨_, hall, (answered_iff hturn hend hall).mpr ⟨htook, rfl⟩⟩
  have hbrowser : attempt.took ≤ cleanupStageTimeout ∧ attempt.reply.Proves ↔
      bookingCleanupFailure text attempt = none ∨
        attempt.took ≤ cleanupStageTimeout ∧ attempt.reply = .http 410 .authorityEnded := by
    rw [bookingCleanupFailure_iff, ← and_or_left, or_assoc]
    rfl
  refine ⟨outcome, hrun, helapsed.trans (Nat.add_le_add_right hbeg _),
    fun hdone => hproved.mpr (.inl hdone), ?_, fun hnone => hbrowser.mpr (.inl hnone), ?_,
    fun _ _ _ => completeShutdown_iff⟩
  · rw [hproved]
    refine report_iff ?_
    rintro ⟨hdone, hgone⟩
    have hlast := ((answered_iff hturn hend (.inr (.inl rfl))).mp hgone).2
    obtain ⟨-, hno | hover⟩ := hok.mp hdone
    · cases hno.symm.trans hlast
    · cases hover.symm.trans hlast
  · rw [hbrowser]
    refine report_iff ?_
    rintro ⟨hnone, -, hover⟩
    obtain ⟨-, hno | hgone⟩ := bookingCleanupFailure_iff.mp hnone
    · cases hno.symm.trans hover
    · cases hgone.symm.trans hover

/-- `relay_coordinator_config` for a public booking of one relay. -/
def publicStopConfig : StopConfig where
  mode := .public
  requestedDurationSeconds := 86400
  relayCount := 1
  httpTimeout := 10000000000
  retryMin := 250000000
  retryMax := 5000000000
  reservationRetryBudget := 30000000000
  le_retryMin := by decide

/-- Each runtime fails on a proof that the other one takes for a release. -/
theorem booking_release_disagrees :
    (coordinatorStop publicStopConfig fun _ => ⟨.http 404 .notFound, 0, 0⟩) =
        some ⟨.error (.http 404 .notFound none), 0⟩ ∧
      bookingCleanupFailure (fun _ => "") ⟨.http 404 .notFound, 0, 0⟩ = none ∧
      (coordinatorStop publicStopConfig fun _ => ⟨.http 410 .authorityEnded, 0, 0⟩) =
        some ⟨.ok (), 0⟩ ∧
      bookingCleanupFailure (fun _ => "") ⟨.http 410 .authorityEnded, 0, 0⟩ =
        some "booking cleanup failed: " :=
  ⟨rfl, rfl, rfl, rfl⟩

end AukiSdk.Booking
