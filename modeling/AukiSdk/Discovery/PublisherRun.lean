import AukiSdk.Discovery.PublisherSafety

/-!
# Publication attempts

A round of publication makes at most three attempts.
-/

namespace AukiSdk.Discovery

open AukiSdk.Foundation Option
open AukiSdk.Net
open AukiSdk.Relay
open AukiSdk.Routing

/-- The attempts that a round may still make. -/
def PublisherPhase.attemptsLeft : PublisherPhase → ℕ
  | .subscribingRoutes | .subscribingProtocols | .readingRoutes _ | .readingProtocols _ _ => 3
  | .attempting round | .backingOff round | .sleeping round => 3 - round.attempt.val
  | .sent _ round => 2 - round.attempt.val
  | .selecting _ | .withdrawing _ | .withdrawn _ | .ended | .failed => 0

/-- A cancelled publisher may attempt once after its last look at the token. -/
def PublisherPhase.cancelledAttempts : PublisherPhase → ℕ
  | .readingRoutes _ | .readingProtocols _ _ | .attempting _ | .sleeping _ => 1
  | .selecting branch => if branch = .cancellation then 0 else 1
  | .subscribingRoutes | .subscribingProtocols | .sent _ _ | .backingOff _ | .withdrawing _
  | .withdrawn _ | .ended | .failed => 0

/-- The task withdraws for the last time. -/
def PublisherPhase.isEnding : PublisherPhase → Bool
  | .withdrawing reason | .withdrawn reason => reason = .ending
  | .ended => true
  | _ => false

theorem PublisherPhase.cancelledAttempts_le_one (phase : PublisherPhase) :
    phase.cancelledAttempts ≤ 1 := by
  cases phase <;> simp only [cancelledAttempts, le_refl, zero_le]
  split <;> omega

theorem PublisherPhase.attemptsLeft_le_three (phase : PublisherPhase) : phase.attemptsLeft ≤ 3 := by
  cases phase <;> simp only [attemptsLeft] <;> omega

namespace Publisher

variable {client : DdsTrackerClient} {state next later : Publisher}

/-- What one step does to the counts. -/
structure Counted (state next : Publisher) : Prop where
  wakes : state.wakes ≤ next.wakes
  round : next.attempts + next.phase.attemptsLeft + 3 * state.wakes ≤
    state.attempts + state.phase.attemptsLeft + 3 * next.wakes
  kept : state.cancelled = true → next.cancelled = true
  cancelled : state.cancelled = true →
    next.attempts + next.phase.cancelledAttempts ≤ state.attempts + state.phase.cancelledAttempts

theorem Counted.quiet (hatt : next.attempts = state.attempts)
    (hwak : next.wakes = state.wakes) (hkept : state.cancelled = true → next.cancelled = true)
    (hleft : next.phase.attemptsLeft ≤ state.phase.attemptsLeft)
    (hcanc : state.cancelled = true →
      next.phase.cancelledAttempts ≤ state.phase.cancelledAttempts) : Counted state next where
  wakes := hwak.ge
  round := by
    rw [hatt, hwak]
    omega
  kept := hkept
  cancelled hcan := by
    have hrem := hcanc hcan
    rw [hatt]
    omega

variable {branch : SelectBranch}

theorem Counted.wake (hp : state.phase = .selecting branch) (hbra : branch ≠ .cancellation)
    (hatt : next.attempts = state.attempts) (hwak : next.wakes = state.wakes)
    (hcanc : next.cancelled = state.cancelled) :
    Counted state next.wake where
  wakes := hwak ▸ Nat.le_succ _
  round := by
    simp only [Publisher.wake, hp, PublisherPhase.attemptsLeft, hatt, hwak]
    omega
  kept := hcanc.trans
  cancelled _ := by
    simp only [Publisher.wake, hp, PublisherPhase.cancelledAttempts, hatt, hbra, if_false]
    exact le_rfl

theorem Counted.poll (hp : state.phase = .selecting branch) :
    Counted state (state.poll branch) := by
  have hlea {phase : PublisherPhase} (hleft : phase.attemptsLeft = 0)
      (hcanc : state.cancelled = true →
        phase.cancelledAttempts ≤ (PublisherPhase.selecting branch).cancelledAttempts) :
      Counted state { state with phase } := by
    refine Counted.quiet rfl rfl id (hleft.trans_le (Nat.zero_le _)) fun hcan => ?_
    rw [hp]
    exact hcanc hcan
  cases branch with
  | cancellation =>
    unfold Publisher.poll
    dsimp only
    split
    · exact hlea rfl fun _ => le_rfl
    · rename_i hrunning
      exact hlea rfl fun hcan => absurd hcan hrunning
  | renewal => exact hlea rfl fun _ => le_rfl
  | routes | protocols =>
    unfold Publisher.poll
    dsimp only
    split
    · exact Counted.wake hp (by decide) rfl rfl rfl
    · exact hlea rfl fun _ => Nat.zero_le _
    · exact hlea rfl fun _ => le_rfl
  | authority =>
    unfold Publisher.poll
    dsimp only
    split
    · split
      · exact Counted.quiet rfl rfl id (Nat.zero_le _) fun _ => Nat.zero_le _
      · exact Counted.wake hp (by decide) rfl rfl rfl
    · exact hlea rfl fun _ => Nat.zero_le _
    · exact hlea rfl fun _ => Nat.zero_le _

theorem Counted.giveUp {given : Publisher} {starting : Bool} (hwak : given.wakes = state.wakes)
    (hkept : state.cancelled = true → given.cancelled = true)
    (hround : given.attempts ≤ state.attempts + state.phase.attemptsLeft)
    (hcanc : state.cancelled = true →
      given.attempts ≤ state.attempts + state.phase.cancelledAttempts) :
    Counted state (given.giveUp starting) := by
  have hleft : (given.giveUp starting).phase.attemptsLeft = 0 := by
    unfold Publisher.giveUp
    dsimp only
    split_ifs <;> rfl
  have hnone : (given.giveUp starting).phase.cancelledAttempts = 0 := by
    unfold Publisher.giveUp
    dsimp only
    split_ifs <;> rfl
  refine ⟨hwak.ge, ?_, hkept, fun hcan => ?_⟩
  · rw [hleft]
    change given.attempts + 0 + 3 * state.wakes ≤ _ + 3 * given.wakes
    omega
  · rw [hnone]
    exact hcanc hcan

theorem Counted.advance (hs : state.Sound client) (hn : state.advance client = some next) :
    Counted state next := by
  have hbeg := hs.uncancelled
  cases hcase : state.phase with unfold Publisher.advance at hn
  | selecting branch =>
    rw [hcase] at hn
    obtain rfl := some.inj hn
    exact Counted.poll hcase
  | attempting round =>
    rw [hcase] at hn
    dsimp only at hn
    have hatte := round.attempt.isLt
    split at hn <;> obtain rfl := some.inj hn
    · refine Counted.giveUp rfl id ?_ fun _ => ?_
      · simp only [hcase, PublisherPhase.attemptsLeft]
        omega
      · simp only [hcase, PublisherPhase.cancelledAttempts]
        exact le_rfl
    · refine ⟨le_rfl, ?_, id, fun _ => ?_⟩
      · simp only [Publisher.send, hcase, PublisherPhase.attemptsLeft]
        omega
      · simp only [Publisher.send, hcase, PublisherPhase.cancelledAttempts]
        exact le_rfl
  | subscribingRoutes | subscribingProtocols =>
    rw [hcase] at hn hbeg
    obtain rfl := some.inj hn
    refine Counted.quiet rfl rfl id (hcase ▸ le_rfl) fun hcanc => ?_
    cases hbeg hcanc
  | readingRoutes starting =>
    rw [hcase] at hn
    dsimp only at hn
    split at hn
    · obtain rfl := some.inj hn
      refine Counted.quiet rfl rfl id ?_ fun _ => ?_ <;> cases starting <;> exact Nat.zero_le _
    · split at hn <;> obtain rfl := some.inj hn
      · exact Counted.quiet rfl rfl id (Nat.zero_le _) fun _ => Nat.zero_le _
      · exact Counted.quiet rfl rfl id (hcase ▸ le_rfl) fun _ => hcase ▸ le_rfl
  | readingProtocols routes starting =>
    rw [hcase] at hn
    obtain rfl := some.inj hn
    exact Counted.quiet rfl rfl id (hcase ▸ le_rfl) fun _ => hcase ▸ le_rfl
  | backingOff round =>
    rw [hcase] at hn hbeg
    dsimp only at hn
    split at hn <;> obtain rfl := some.inj hn
    · exact Counted.quiet rfl rfl id (Nat.zero_le _) fun _ => Nat.zero_le _
    · rename_i hkept
      refine Counted.quiet rfl rfl id (hcase ▸ le_rfl) fun hcanc => ?_
      exact absurd ⟨hcanc, hbeg hcanc⟩ hkept
  | sleeping round =>
    rw [hcase] at hn
    obtain rfl := some.inj hn
    exact Counted.quiet rfl rfl id (hcase ▸ le_rfl) fun _ => Nat.zero_le _
  | withdrawing reason =>
    rw [hcase] at hn
    obtain rfl := some.inj hn
    exact Counted.quiet rfl rfl id (Nat.zero_le _) fun _ => Nat.zero_le _
  | sent request round =>
    rw [hcase] at hn
    cases hn
  | withdrawn reason =>
    rw [hcase] at hn
    cases hn
  | ended | failed =>
    rw [hcase] at hn
    cases hn

theorem Counted.answer {outcome : RequestOutcome} {applied : Bool}
    (hn : state.answer outcome applied = some next) : Counted state next := by
  unfold Publisher.answer at hn
  split at hn
  · rename_i request round hcase
    dsimp only at hn
    split at hn
    · obtain rfl := some.inj hn
      exact Counted.quiet rfl rfl id (Nat.zero_le _) fun _ => Nat.zero_le _
    · split at hn
      · rename_i retry following hfollowing
        obtain rfl := some.inj hn
        unfold Round.next at hfollowing
        split at hfollowing
        · obtain rfl := some.inj hfollowing
          refine Counted.quiet rfl rfl id ?_ fun _ => Nat.zero_le _
          simp only [hcase, PublisherPhase.attemptsLeft]
          omega
        · cases hfollowing
      · obtain rfl := some.inj hn
        exact Counted.giveUp rfl id (Nat.le_add_right _ _) fun _ => Nat.le_add_right _ _
  · rename_i reason hcase
    obtain rfl := some.inj hn
    refine Counted.quiet rfl rfl id ?_ fun _ => ?_ <;> cases reason <;> exact Nat.zero_le _
  · cases hn

variable {action : PublisherAction}

theorem Counted.step (hs : state.Sound client) (hn : step client state action = some next) :
    Counted state next := by
  cases action with
  | advance => exact Counted.advance hs hn
  | answer outcome applied => exact Counted.answer hn
  | changeRoutes snapshot =>
    obtain rfl := some.inj hn
    exact Counted.quiet rfl rfl id le_rfl fun _ => le_rfl
  | loseRoutes | loseProtocols | loseAuthority =>
    obtain rfl := some.inj hn
    exact Counted.quiet rfl rfl id le_rfl fun _ => le_rfl
  | notifyRoutes | serve _ | report _ =>
    unfold Publisher.step at hn
    dsimp only at hn
    split at hn
    · cases hn
    · obtain rfl := some.inj hn
      exact Counted.quiet rfl rfl id le_rfl fun _ => le_rfl
  | cancel =>
    unfold Publisher.step at hn
    dsimp only at hn
    split at hn
    · cases hn
    · obtain rfl := some.inj hn
      exact Counted.quiet rfl rfl (fun _ => rfl) le_rfl fun _ => le_rfl
  | renew =>
    unfold Publisher.step at hn
    dsimp only at hn
    split at hn
    · rename_i hcase
      obtain rfl := some.inj hn
      exact Counted.wake hcase (by decide) rfl rfl rfl
    · cases hn
  | timer =>
    unfold Publisher.step at hn
    dsimp only at hn
    split at hn
    · rename_i following hcase
      obtain rfl := some.inj hn
      exact Counted.quiet rfl rfl id (hcase ▸ le_rfl) fun _ => hcase ▸ le_rfl
    · cases hn

theorem Counted.refl (state : Publisher) : Counted state state :=
  Counted.quiet rfl rfl id le_rfl fun _ => le_rfl

theorem Counted.trans (hfst : Counted state next) (hsnd : Counted next later) :
    Counted state later where
  wakes := hfst.wakes.trans hsnd.wakes
  round := by
    have hone := hfst.round
    have htwo := hsnd.round
    omega
  kept hcan := hsnd.kept (hfst.kept hcan)
  cancelled hcan := (hsnd.cancelled (hfst.kept hcan)).trans (hfst.cancelled hcan)

variable {actions : List PublisherAction}

theorem counted_of_run (hs : state.Sound client)
    (hrun : runSteps (step client) state actions = some later) :
    later.Sound client ∧ Counted state later := by
  refine @invariant_of_run _ _ _ _ (fun later => later.Sound client ∧ Counted state later)
    ⟨hs, Counted.refl state⟩ ?_ _ _ hrun
  rintro before action after ⟨hpre, hcnt⟩ hstep
  exact ⟨hpre.step hstep, hcnt.trans (Counted.step hpre hstep)⟩

/-- Polling the branch ends the task. -/
def Ends (state : Publisher) : SelectBranch → Prop
  | .cancellation => state.cancelled = true
  | .renewal => False
  | .routes => state.routeUpdates = ⟨false, true⟩
  | .protocols => state.protocolUpdates = ⟨false, true⟩
  | .authority =>
    (state.authority.unseen = true ∧ state.stopped = true) ∨ state.authority = ⟨false, true⟩

theorem Ends.poll (hends : state.Ends branch) : (state.poll branch).phase = .withdrawing .ending ∧
      (state.poll branch).attempts = state.attempts := by
  cases branch with
  | cancellation =>
    have hcanc : state.cancelled = true := hends
    simp [Publisher.poll, hcanc]
  | renewal => cases hends
  | routes =>
    have hlost : state.routeUpdates = ⟨false, true⟩ := hends
    simp [Publisher.poll, hlost, Notifier.changed]
  | protocols =>
    have hlost : state.protocolUpdates = ⟨false, true⟩ := hends
    simp [Publisher.poll, hlost, Notifier.changed]
  | authority =>
    rcases hends with ⟨huns, hstp⟩ | hlost
    · simp [Publisher.poll, Notifier.changed, huns, hstp]
    · simp [Publisher.poll, hlost, Notifier.changed]

theorem Ends.of_same (hends : state.Ends branch) (hrts : next.routeUpdates = state.routeUpdates)
    (hpro : next.protocolUpdates = state.protocolUpdates)
    (haut : next.authority = state.authority) (hstp : next.stopped = state.stopped)
    (hcanc : next.cancelled = state.cancelled) : next.Ends branch := by
  cases branch with
  | cancellation => exact hcanc.trans hends
  | renewal => cases hends
  | routes => exact hrts.trans hends
  | protocols => exact hpro.trans hends
  | authority =>
    unfold Ends at hends ⊢
    rw [haut, hstp]
    exact hends

theorem Ends.afterPoll {polled : SelectBranch} (hends : state.Ends branch) :
    (state.poll polled).Ends branch ∨ (state.poll polled).phase.isEnding = true := by
  by_cases hsm : polled = branch
  · subst hsm
    right
    rw [hends.poll.1]
    rfl
  · left
    unfold Publisher.poll
    cases polled with
    | cancellation =>
      dsimp only
      split <;> exact hends.of_same rfl rfl rfl rfl rfl
    | renewal => exact hends.of_same rfl rfl rfl rfl rfl
    | routes =>
      dsimp only
      split
      · cases branch with
        | routes => exact absurd rfl hsm
        | cancellation | renewal | protocols | authority => exact hends
      · exact hends.of_same rfl rfl rfl rfl rfl
      · exact hends.of_same rfl rfl rfl rfl rfl
    | protocols =>
      dsimp only
      split
      · cases branch with
        | protocols => exact absurd rfl hsm
        | cancellation | renewal | routes | authority => exact hends
      · exact hends.of_same rfl rfl rfl rfl rfl
      · exact hends.of_same rfl rfl rfl rfl rfl
    | authority =>
      dsimp only
      split
      · split <;> cases branch with
        | authority => exact absurd rfl hsm
        | cancellation | renewal | routes | protocols => exact hends
      · exact hends.of_same rfl rfl rfl rfl rfl
      · exact hends.of_same rfl rfl rfl rfl rfl

theorem Ends.advance (hends : state.Ends branch) (hn : state.advance client = some next) :
    next.Ends branch ∨ next.phase.isEnding = true := by
  unfold Publisher.advance at hn
  cases hcase : state.phase with rw [hcase] at hn
  | selecting polled =>
    obtain rfl := some.inj hn
    exact hends.afterPoll
  | subscribingRoutes =>
    obtain rfl := some.inj hn
    left
    cases branch with
    | routes =>
      have hlost : state.routeUpdates = ⟨false, true⟩ := hends
      simp [Ends, Notifier.markSeen, hlost]
    | cancellation | renewal | protocols | authority => exact hends
  | subscribingProtocols =>
    obtain rfl := some.inj hn
    left
    cases branch with
    | protocols =>
      have hlost : state.protocolUpdates = ⟨false, true⟩ := hends
      simp [Ends, Notifier.markSeen, hlost]
    | cancellation | renewal | routes | authority => exact hends
  | readingRoutes starting =>
    dsimp only at hn
    left
    split at hn
    · obtain rfl := some.inj hn
      exact hends.of_same rfl rfl rfl rfl rfl
    · split at hn <;> obtain rfl := some.inj hn <;>
        exact hends.of_same rfl rfl rfl rfl rfl
  | attempting round | backingOff round =>
    dsimp only at hn
    left
    split at hn <;> obtain rfl := some.inj hn <;>
      exact hends.of_same rfl rfl rfl rfl rfl
  | readingProtocols routes starting =>
    obtain rfl := some.inj hn
    exact Or.inl (hends.of_same rfl rfl rfl rfl rfl)
  | sleeping round | withdrawing reason =>
    obtain rfl := some.inj hn
    exact Or.inl (hends.of_same rfl rfl rfl rfl rfl)
  | sent request round =>
    cases hn
  | withdrawn reason =>
    cases hn
  | ended | failed =>
    cases hn

theorem Ends.answer (hends : state.Ends branch) {outcome : RequestOutcome} {applied : Bool}
    (hn : state.answer outcome applied = some next) : next.Ends branch := by
  unfold Publisher.answer at hn
  split at hn
  · dsimp only at hn
    split at hn
    · obtain rfl := some.inj hn
      exact hends.of_same rfl rfl rfl rfl rfl
    · split at hn <;> obtain rfl := some.inj hn <;>
        exact hends.of_same rfl rfl rfl rfl rfl
  · obtain rfl := some.inj hn
    exact hends.of_same rfl rfl rfl rfl rfl
  · cases hn

theorem Ends.step (hends : state.Ends branch) (hn : step client state action = some next) :
    next.Ends branch ∨ next.phase.isEnding = true := by
  cases action with
  | advance => exact hends.advance hn
  | answer outcome applied => exact Or.inl (hends.answer hn)
  | changeRoutes snapshot =>
    obtain rfl := some.inj hn
    exact Or.inl (hends.of_same rfl rfl rfl rfl rfl)
  | notifyRoutes =>
    unfold Publisher.step at hn
    dsimp only at hn
    split at hn
    · cases hn
    · rename_i hopen
      obtain rfl := some.inj hn
      left
      cases branch with
      | routes =>
        have hlost : state.routeUpdates = ⟨false, true⟩ := hends
        exact absurd (Or.inr (by rw [hlost])) hopen
      | cancellation | renewal | protocols | authority => exact hends
  | serve protocols =>
    unfold Publisher.step at hn
    dsimp only at hn
    split at hn
    · cases hn
    · rename_i hopen
      obtain rfl := some.inj hn
      left
      cases branch with
      | protocols =>
        have hlost : state.protocolUpdates = ⟨false, true⟩ := hends
        exact absurd (by rw [hlost]) hopen
      | cancellation | renewal | routes | authority => exact hends
  | report stopped =>
    unfold Publisher.step at hn
    dsimp only at hn
    split at hn
    · cases hn
    · rename_i hopen
      obtain rfl := some.inj hn
      left
      cases branch with
      | authority =>
        rcases hends with ⟨_, hstp⟩ | hlost
        · exact absurd (Or.inl hstp) hopen
        · exact absurd (Or.inr (by rw [hlost])) hopen
      | cancellation | renewal | routes | protocols => exact hends
  | loseRoutes =>
    obtain rfl := some.inj hn
    left
    cases branch with
    | routes =>
      have hlost : state.routeUpdates = ⟨false, true⟩ := hends
      simp [Ends, hlost]
    | cancellation | renewal | protocols | authority => exact hends
  | loseProtocols =>
    obtain rfl := some.inj hn
    left
    cases branch with
    | protocols =>
      have hlost : state.protocolUpdates = ⟨false, true⟩ := hends
      simp [Ends, hlost]
    | cancellation | renewal | routes | authority => exact hends
  | loseAuthority =>
    obtain rfl := some.inj hn
    left
    cases branch with
    | authority =>
      rcases hends with hstop | hlost
      · exact Or.inl hstop
      · exact Or.inr (by simp [hlost])
    | cancellation | renewal | routes | protocols => exact hends
  | cancel =>
    unfold Publisher.step at hn
    dsimp only at hn
    split at hn
    · cases hn
    · obtain rfl := some.inj hn
      left
      cases branch with
      | cancellation => rfl
      | renewal | routes | protocols | authority => exact hends
  | renew =>
    unfold Publisher.step at hn
    dsimp only at hn
    split at hn
    · obtain rfl := some.inj hn
      exact Or.inl (hends.of_same rfl rfl rfl rfl rfl)
    · cases hn
  | timer =>
    unfold Publisher.step at hn
    dsimp only at hn
    split at hn
    · obtain rfl := some.inj hn
      exact Or.inl (hends.of_same rfl rfl rfl rfl rfl)
    · cases hn

theorem isEnding_step (hend : state.phase.isEnding = true)
    (hn : step client state action = some next) :
    next.phase.isEnding = true ∧ next.attempts = state.attempts := by
  cases action with
  | advance =>
    unfold Publisher.step Publisher.advance at hn
    dsimp only at hn
    split at hn
    all_goals rename_i hcase
    all_goals rw [hcase] at hend
    all_goals first
      | cases hend; done
      | cases hn; done
      | cases hn; exact ⟨hend, rfl⟩
  | answer outcome applied =>
    unfold Publisher.step Publisher.answer at hn
    dsimp only at hn
    split at hn
    · rename_i request round hcase
      rw [hcase] at hend
      cases hend
    · rename_i reason hcase
      rw [hcase] at hend
      obtain rfl := some.inj hn
      obtain rfl : reason = .ending := of_decide_eq_true hend
      exact ⟨rfl, rfl⟩
    · cases hn
  | changeRoutes snapshot =>
    obtain rfl := some.inj hn
    exact ⟨hend, rfl⟩
  | loseRoutes | loseProtocols | loseAuthority =>
    obtain rfl := some.inj hn
    exact ⟨hend, rfl⟩
  | notifyRoutes | serve _ | report _ | cancel =>
    unfold Publisher.step at hn
    dsimp only at hn
    split at hn
    · cases hn
    · obtain rfl := some.inj hn
      exact ⟨hend, rfl⟩
  | renew =>
    unfold Publisher.step at hn
    dsimp only at hn
    split at hn
    · rename_i hcase
      rw [hcase] at hend
      cases hend
    · cases hn
  | timer =>
    unfold Publisher.step at hn
    dsimp only at hn
    split at hn
    · rename_i following hcase
      rw [hcase] at hend
      cases hend
    · cases hn

theorem ends_of_run (hends : state.Ends branch)
    (hrun : runSteps (step client) state actions = some later) :
    later.Ends branch ∨ later.phase.isEnding = true := by
  refine @invariant_of_run _ _ _ _
    (fun later => later.Ends branch ∨ later.phase.isEnding = true) (Or.inl hends) ?_ _ _ hrun
  rintro before action after (hpre | hend) hs
  · exact hpre.step hs
  · exact Or.inr (isEnding_step hend hs).1

theorem isEnding_run (hend : state.phase.isEnding = true)
    (hrun : runSteps (step client) state actions = some later) :
    later.phase.isEnding = true ∧ later.attempts = state.attempts := by
  refine @invariant_of_run _ _ _ _
    (fun later => later.phase.isEnding = true ∧ later.attempts = state.attempts)
    ⟨hend, rfl⟩ ?_ _ _ hrun
  rintro before action after ⟨hpre, hatt⟩ hs
  obtain ⟨haft, hsm⟩ := isEnding_step hpre hs
  exact ⟨haft, hsm.trans hatt⟩

/-- The publisher waits in its select and has seen every notification. -/
def Settled (state : Publisher) : Prop :=
  (∃ branch, state.phase = .selecting branch) ∧ state.RoutesQuiet ∧ state.ProtocolsQuiet

/-- The advertisement follows the local state. -/
theorem advertisement_follows_local_state {client : DdsTrackerClient}
    {snapshot : Except RouteCatalogError RouteSnapshot} {served : List String} {stopped : Bool}
    {actions : List PublisherAction} {state : Publisher}
    (hrun : runSteps (step client) (start snapshot served stopped) actions = some state) :
    (state.Settled → state.lastSucceeded = true →
      ∀ current, state.currentRequest client = .ok current →
        ∃ snapshot, state.snapshot = .ok snapshot ∧
          client.Advertises snapshot state.served current ∧
          state.requests.getLast? = some current ∧ state.register = current.effect) ∧
    (∀ after later, runSteps (step client) state after = some later →
      (state.cancelled = true → later.attempts ≤ state.attempts + 1) ∧
      later.attempts ≤ state.attempts + 3 + 3 * (later.wakes - state.wakes) ∧
      (∀ branch, state.Ends branch → later.Ends branch ∨ later.phase.isEnding = true) ∧
      (state.phase.isEnding = true →
        later.phase.isEnding = true ∧ later.attempts = state.attempts)) ∧
    (∀ branch, state.phase = .selecting branch → state.Ends branch →
      ∃ next, step client state .advance = some next ∧ next.phase = .withdrawing .ending ∧
        next.attempts = state.attempts) ∧
    (state.phase = .ended → state.requests.getLast? = some .delete) ∧
    (state.phase = .failed → state.requests = [] ∨ state.requests.getLast? = some .delete) := by
  have hsound : state.Sound client := (counted_of_run (Sound.start snapshot served stopped) hrun).1
  refine ⟨?_, fun after later hafter => ⟨?_, ?_, ?_, ?_⟩, ?_, ?_, ?_⟩
  · rintro ⟨⟨branch, hphase⟩, hroutes, hprotocols⟩ hsucceeded current hcurrent
    obtain ⟨found, hfound, hadvertises⟩ := advertises_currentRequest hcurrent
    have hselecting : state.PhaseSound client (.selecting branch) := hphase ▸ hsound.phase
    have hlast := hselecting hroutes hprotocols current hcurrent
    obtain ⟨request, hrequest, hregister⟩ := hsound.register hsucceeded
    obtain rfl : current = request := some.inj (hlast.symm.trans hrequest)
    exact ⟨found, hfound, hadvertises, hlast, hregister⟩
  · intro hcancelled
    have hcounted := (counted_of_run hsound hafter).2.cancelled hcancelled
    have hremaining := state.phase.cancelledAttempts_le_one
    omega
  · have hcounted := (counted_of_run hsound hafter).2
    have hround := hcounted.round
    have hwakes := hcounted.wakes
    have hleft := state.phase.attemptsLeft_le_three
    omega
  · exact fun branch hends => ends_of_run hends hafter
  · exact fun hending => isEnding_run hending hafter
  · intro branch hphase hends
    refine ⟨state.poll branch, ?_, hends.poll⟩
    unfold Publisher.step Publisher.advance
    rw [hphase]
  · intro hphase
    have hended := hsound.phase
    rw [hphase] at hended
    exact hended
  · intro hphase
    have hfailed := hsound.phase
    rw [hphase] at hfailed
    exact hfailed

def sampleClient : DdsTrackerClient :=
  ⟨fun _ => 0, ⟨[0, 0], isPeerIdBytes_zeros⟩, fun _ _ => some 100⟩

def sampleSnapshot : RouteSnapshot := ⟨1, [[.dns4 "a.example", .tcp 4001]], []⟩

def sampleRequest : DdsRequest := .put [[.dns4 "a.example", .tcp 4001]] []

/-- One more protocol than an advertisement may have. -/
def manyProtocols : List String :=
  (List.range 65).map fun index => String.ofList ("/app/p".toList ++
    List.replicate (index % 8) 'x' ++ List.replicate (index / 8) 'y' ++ "/1".toList)

/-- After the start the mounted protocols are refused before any request. -/
def refusedActions : List PublisherAction :=
  [.advance, .advance, .advance, .advance, .advance, .answer .succeeded true,
    .serve manyProtocols, .advance, .advance, .advance, .advance, .advance, .advance, .advance]

/-- The authority stops while the round after the start backs off. -/
def renewalActions : List PublisherAction :=
  [.advance, .advance, .advance, .advance, .advance, .answer .succeeded true, .advance, .renew,
    .advance, .advance, .advance, .answer (.failed true) false, .advance, .report true]

def retryActions : List PublisherAction :=
  [.timer, .advance, .answer (.failed true) false, .advance, .timer, .advance]

/-- The last request stays behind the protocols, and two attempts follow a stop. -/
theorem advertisement_lags_behind :
    (∃ state, runSteps (step sampleClient) (start (.ok sampleSnapshot) [] false) refusedActions =
        some state ∧
      state.Settled ∧ state.lastSucceeded = true ∧ state.requests = [sampleRequest] ∧
      ¬ sampleClient.Advertises sampleSnapshot state.served sampleRequest) ∧
    ∃ state later,
      runSteps (step sampleClient) (start (.ok sampleSnapshot) [] false) renewalActions =
        some state ∧
      runSteps (step sampleClient) state retryActions = some later ∧
      state.stopped = true ∧ later.attempts = state.attempts + 2 := by
  constructor
  · have hsettled : (runSteps (step sampleClient) (start (.ok sampleSnapshot) [] false)
        refusedActions).map (fun state => (state.phase, state.inFlight,
          state.routeUpdates.unseen, state.protocolUpdates.unseen)) =
        some (.selecting .cancellation, 0, false, false) := by decide +kernel
    have hlast : (runSteps (step sampleClient) (start (.ok sampleSnapshot) [] false)
        refusedActions).map (fun state => (state.lastSucceeded, state.requests,
          state.served.length)) = some (true, [sampleRequest], 65) := by decide +kernel
    obtain ⟨state, hrun, hstate⟩ := map_eq_some_iff.mp hsettled
    rw [hrun] at hlast
    simp only [Prod.mk.injEq] at hstate
    simp only [map_some, some.injEq, Prod.mk.injEq] at hlast
    refine ⟨state, hrun, ⟨⟨_, hstate.1⟩, ⟨hstate.2.1, hstate.2.2.1⟩, hstate.2.2.2⟩, hlast.1,
      hlast.2.1, fun hadvertises => ?_⟩
    have hempty : state.served = [] := List.eq_nil_iff_forall_not_mem.mpr fun protocol hmem =>
        List.not_mem_nil ((hadvertises.2 protocol).mpr hmem)
    have hlength := hlast.2.2
    rw [hempty] at hlength
    cases hlength
  · have hcounts : ((runSteps (step sampleClient) (start (.ok sampleSnapshot) [] false)
        renewalActions).bind fun state => (runSteps (step sampleClient) state retryActions).map
          fun later => (state.stopped, state.attempts, later.attempts)) =
        some (true, 2, 4) := by decide +kernel
    obtain ⟨state, hrun, hlater⟩ := bind_eq_some_iff.mp hcounts
    obtain ⟨later, hretry, hvalues⟩ := map_eq_some_iff.mp hlater
    simp only [Prod.mk.injEq] at hvalues
    refine ⟨state, later, hrun, hretry, hvalues.1, ?_⟩
    rw [hvalues.2.1, hvalues.2.2]

theorem advertisement_follows_local_state_sample :
    ∃ state, runSteps (step sampleClient) (start (.ok sampleSnapshot) [] false)
        [.advance, .advance, .advance, .advance, .advance, .answer .succeeded true] =
        some state ∧
      sampleClient.Advertises sampleSnapshot state.served sampleRequest ∧
      state.register = sampleRequest.effect := by
  have hsettled : (runSteps (step sampleClient) (start (.ok sampleSnapshot) [] false)
      [.advance, .advance, .advance, .advance, .advance, .answer .succeeded true]).map
        (fun state => (state.phase, state.inFlight, state.routeUpdates.unseen,
          state.protocolUpdates.unseen)) =
      some (.selecting .cancellation, 0, false, false) := by decide +kernel
  have hlast : (runSteps (step sampleClient) (start (.ok sampleSnapshot) [] false)
      [.advance, .advance, .advance, .advance, .advance, .answer .succeeded true]).map
        (fun state => (state.lastSucceeded, state.snapshot.toOption,
          (state.currentRequest sampleClient).toOption)) =
      some (true, some sampleSnapshot, some sampleRequest) := by decide +kernel
  obtain ⟨state, hrun, hstate⟩ := map_eq_some_iff.mp hsettled
  rw [hrun] at hlast
  simp only [Prod.mk.injEq] at hstate
  simp only [map_some, some.injEq, Prod.mk.injEq] at hlast
  obtain ⟨hsucceeded, hsnapshot, hcurrent⟩ := hlast
  have hcurrent : state.currentRequest sampleClient = .ok sampleRequest := by
    cases hcase : state.currentRequest sampleClient with
    | error error => rw [hcase] at hcurrent; cases hcurrent
    | ok request => rw [hcase] at hcurrent; exact congrArg _ (some.inj hcurrent)
  obtain ⟨found, hfound, hadvertises, -, hregister⟩ := (advertisement_follows_local_state hrun).1
      ⟨⟨_, hstate.1⟩, ⟨hstate.2.1, hstate.2.2.1⟩, hstate.2.2.2⟩ hsucceeded sampleRequest hcurrent
  rw [hfound] at hsnapshot
  obtain rfl : found = sampleSnapshot := some.inj hsnapshot
  exact ⟨state, hrun, hadvertises, hregister⟩

end Publisher

end AukiSdk.Discovery
