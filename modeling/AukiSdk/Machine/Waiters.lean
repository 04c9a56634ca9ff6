import AukiSdk.Machine.SingleFlight

/-!
# Waiters of a login

A waiter is woken only if it has subscribed before the owner's notification.
-/

namespace AukiSdk.Machine

open AukiSdk.Foundation Function Option
open AukiSdk.Net

variable {Failure : Type}

/-- The `Notify` that a call waits for or is about to wait for. -/
def CallPhase.waitsOn : CallPhase Failure → Option ℕ
  | .cloned _ notify => some notify
  | .waiting _ notify => some notify
  | _ => none

/-- The `Notify` that a call is about to notify. -/
def CallPhase.signals : CallPhase Failure → Option ℕ
  | .signalling _ taken _ => taken
  | _ => none

def StopPhase.signals : StopPhase → Option ℕ
  | .signalling taken => taken
  | _ => none

theorem CallPhase.waitsOn_of_loginNow {phase : CallPhase Failure} {now : Instant}
    (hlog : phase.loginNow = some now) : phase.waitsOn = none ∧ phase.signals = none := by
  cases phase <;> first | exact ⟨rfl, rfl⟩ | cases hlog

theorem CallPhase.signals_of_suspended {phase : CallPhase Failure}
    (hsus : phase.Suspended = true) : phase.signals = none := by
  cases phase <;> first | rfl | cases hsus

namespace Manager

def waitsOn (manager : Manager Failure) (call : ℕ) : Option ℕ :=
  (manager.calls call).bind CallPhase.waitsOn

/-- A call or a `stop` took the `Notify` from the state and will notify it. -/
def SignalPending (manager : Manager Failure) (notify : ℕ) : Prop :=
  (∃ call, (manager.calls call).bind CallPhase.signals = some notify) ∨
    ∃ stop, (manager.stops stop).bind StopPhase.signals = some notify

/-- Nobody is between cloning the `Notify` and subscribing to it. -/
def AllSubscribed (manager : Manager Failure) (notify : ℕ) : Prop :=
  ∀ call now, manager.calls call ≠ some (.cloned now notify)

/-- Dropped futures leave no marker, and every clone of a `Notify` has subscribed. -/
def WakesAll (manager : Manager Failure) : Label Failure → Prop
  | .drop call =>
    manager.loginNow call = none ∨ manager.state.inflight = none ∨
      ∃ other, other ≠ call ∧ (manager.loginNow other).isSome = true
  | .signal call =>
    ∀ notify, (manager.calls call).bind CallPhase.signals = some notify →
      manager.AllSubscribed notify
  | .stopSignal stop =>
    ∀ notify, (manager.stops stop).bind StopPhase.signals = some notify →
      manager.AllSubscribed notify
  | _ => True

/-- An installed `Notify` has an owner, and waiters are notified. -/
structure Attended (manager : Manager Failure) : Prop where
  owned : ∀ notify, manager.state.inflight = some notify →
    ∃ call, (manager.loginNow call).isSome = true
  promised : ∀ call notify, manager.waitsOn call = some notify →
    manager.state.inflight = some notify ∨ manager.SignalPending notify

variable {manager : Manager Failure}

theorem waitsOn_setCall (call other : ℕ) (phase : CallPhase Failure) :
    (manager.setCall call phase).waitsOn other =
      if other = call then phase.waitsOn else manager.waitsOn other := by
  rw [waitsOn, setCall]
  by_cases ho : other = call
  · rw [ho]
    simp
  · simp [ho, waitsOn]

theorem SignalPending.setCall {notify call : ℕ} (hpend : manager.SignalPending notify)
    (hc : (manager.calls call).bind CallPhase.signals ≠ some notify)
    (phase : CallPhase Failure) : (manager.setCall call phase).SignalPending notify := by
  obtain ⟨other, ho⟩ | hstop := hpend
  · refine .inl ⟨other, ?_⟩
    have hne : other ≠ call := fun hsm => hc (hsm ▸ ho)
    dsimp only [Manager.setCall]
    rw [update_of_ne hne]
    exact ho
  · exact .inr hstop

theorem SignalPending.setStop {notify stop : ℕ} (hpend : manager.SignalPending notify)
    (hstop : (manager.stops stop).bind StopPhase.signals ≠ some notify) (phase : StopPhase) :
    (manager.setStop stop phase).SignalPending notify := by
  obtain hc | ⟨other, ho⟩ := hpend
  · exact .inl hc
  · refine .inr ⟨other, ?_⟩
    have hne : other ≠ stop := fun hsm => hstop (hsm ▸ ho)
    dsimp only [Manager.setStop]
    rw [update_of_ne hne]
    exact ho

theorem waitsOn_notifyWaiters {taken : Option ℕ} {call notify : ℕ}
    (hwts : (manager.notifyWaiters taken).waitsOn call = some notify) :
    manager.waitsOn call = some notify ∧
      (taken = some notify → ∃ now, manager.calls call = some (.cloned now notify)) := by
  cases taken with
  | none => exact ⟨hwts, fun hnone => by cases hnone⟩
  | some found =>
    rw [waitsOn, notifyWaiters] at hwts
    dsimp only at hwts
    rw [waitsOn]
    cases hc : manager.calls call with
    | none =>
      rw [hc] at hwts
      cases hwts
    | some phase =>
      rw [hc, map_some, bind_some] at hwts
      rw [bind_some]
      cases phase with
      | cloned now existing =>
        refine ⟨hwts, fun hf => ⟨now, ?_⟩⟩
        rw [some.inj hwts]
      | waiting now existing =>
        rw [CallPhase.notified] at hwts
        split at hwts
        · cases hwts
        · rename_i hne
          refine ⟨hwts, fun hf => absurd ?_ hne⟩
          rw [some.inj hf]
          exact some.inj hwts
      | _ => cases hwts

theorem signals_notifyWaiters (taken : Option ℕ) (call : ℕ) :
    ((manager.notifyWaiters taken).calls call).bind CallPhase.signals =
      (manager.calls call).bind CallPhase.signals := by
  cases taken with
  | none => rfl
  | some notify =>
    simp only [notifyWaiters]
    rcases manager.calls call with _ | phase
    · rfl
    · cases phase <;> simp only [map_some, bind_some, CallPhase.notified]
      split <;> rfl

theorem stops_notifyWaiters (taken : Option ℕ) :
    (manager.notifyWaiters taken).stops = manager.stops := by
  cases taken <;> rfl

theorem SignalPending.notifyWaiters {notify : ℕ} (hpend : manager.SignalPending notify)
    (taken : Option ℕ) : (manager.notifyWaiters taken).SignalPending notify := by
  obtain ⟨call, hc⟩ | ⟨stop, hstop⟩ := hpend
  · exact .inl ⟨call, by rw [signals_notifyWaiters]; exact hc⟩
  · exact .inr ⟨stop, by rw [stops_notifyWaiters]; exact hstop⟩

namespace Attended

/-- The marker stays, no owner leaves and nobody starts to wait. -/
theorem frame {next : Manager Failure} (hatt : manager.Attended)
    (hinf : next.state.inflight = manager.state.inflight)
    (hown : ∀ call, (manager.loginNow call).isSome = true →
      ∃ other, (next.loginNow other).isSome = true)
    (hwts : ∀ call notify, next.waitsOn call = some notify → manager.waitsOn call = some notify)
    (hpend : ∀ notify, manager.SignalPending notify → next.SignalPending notify) :
    next.Attended where
  owned notify hntf := by
    rw [hinf] at hntf
    obtain ⟨call, hc⟩ := hatt.owned notify hntf
    exact hown call hc
  promised call notify hc := by
    rw [hinf]
    exact (hatt.promised call notify (hwts call notify hc)).imp_right (hpend notify)

/-- A call moves between quiet phases, and stays the owner if it was. -/
theorem setCall (hatt : manager.Attended) {call : ℕ} {phase : CallPhase Failure}
    (hlog : (manager.loginNow call).isSome = true → phase.loginNow.isSome = true)
    (hwts : ∀ notify, phase.waitsOn = some notify → manager.waitsOn call = some notify)
    (hsig : (manager.calls call).bind CallPhase.signals = none) :
    (manager.setCall call phase).Attended := by
  refine hatt.frame rfl ?_ ?_ fun notify hpend =>
    hpend.setCall (by rw [hsig]; exact (some_ne_none _).symm) phase
  · intro other ho
    refine ⟨other, ?_⟩
    rw [loginNow_setCall]
    split
    · rename_i hsm
      rw [hsm] at ho
      exact hlog ho
    · exact ho
  · intro other notify ho
    rw [waitsOn_setCall] at ho
    split at ho
    · rename_i hsm
      rw [hsm]
      exact hwts notify ho
    · exact ho

theorem record (hatt : manager.Attended) (events : List (Event Failure)) :
    (manager.record events).Attended :=
  ⟨hatt.owned, hatt.promised⟩

theorem setStop (hatt : manager.Attended) {stop : ℕ}
    (hstop : (manager.stops stop).bind StopPhase.signals = none) (phase : StopPhase) :
    (manager.setStop stop phase).Attended :=
  hatt.frame rfl (fun call hc => ⟨call, hc⟩) (fun _ _ hwts => hwts)
    fun _ hpend => hpend.setStop (by rw [hstop]; exact (some_ne_none _).symm) phase

theorem finish (hatt : manager.Attended) {call : ℕ}
    (hlog : manager.loginNow call = none)
    (hsig : (manager.calls call).bind CallPhase.signals = none) (now : Instant)
    (result : Except (TokenManagerError Failure) TokenEntry) :
    (manager.finish call now result).Attended := by
  have hset : (manager.setCall call (.returned now result)).Attended :=
    hatt.setCall (fun hsome => by rw [hlog] at hsome; cases hsome)
      (fun notify hwts => by cases hwts) hsig
  exact hset.record _

theorem join (hatt : manager.Attended) {call : ℕ} {now : Instant}
    (hc : manager.calls call = some (.locking now)) : (manager.join call now).Attended := by
  have hlog : manager.loginNow call = none := loginNow_of_call hc
  have hsig : (manager.calls call).bind CallPhase.signals = none := by
    rw [hc]
    rfl
  unfold Manager.join
  cases hinf : manager.state.inflight with
  | some existing =>
    refine ⟨?_, ?_⟩
    · intro notify hntf
      obtain ⟨owner, hown⟩ := hatt.owned notify hntf
      refine ⟨owner, ?_⟩
      rw [loginNow_setCall]
      split
      · rename_i hsm
        rw [hsm, hlog] at hown
        cases hown
      · exact hown
    · intro other notify ho
      rw [waitsOn_setCall] at ho
      split at ho
      · cases ho
        exact .inl hinf
      · obtain hinst | hpend := hatt.promised other notify ho
        · exact .inl hinst
        · exact .inr (hpend.setCall (by rw [hsig]; exact (some_ne_none _).symm) _)
  | none =>
    refine ⟨fun _ _ => ⟨call, by rw [loginNow_setCall, if_pos rfl]; rfl⟩, ?_⟩
    intro other notify ho
    rw [waitsOn_setCall] at ho
    split at ho
    · cases ho
    · obtain hinst | hpend := hatt.promised other notify ho
      · rw [hinf] at hinst
        cases hinst
      · refine .inr (@SignalPending.setCall _ { manager with
          state := { manager.state with inflight := some call } } _ _ hpend ?_ _)
        rw [hsig]
        exact (some_ne_none _).symm

theorem enter (hatt : manager.Attended) {call : ℕ} {now : Instant}
    (hc : manager.calls call = some (.locking now)) : (manager.enter call now).Attended := by
  have hlog : manager.loginNow call = none := loginNow_of_call hc
  have hsig : (manager.calls call).bind CallPhase.signals = none := by
    rw [hc]
    rfl
  unfold Manager.enter
  split
  · exact hatt.finish hlog hsig now _
  · split
    · exact hatt.finish hlog hsig now _
    · split
      · exact hatt.join hc
      · split
        · exact hatt.finish hlog hsig now _
        · have hclr : ({ manager with
              state := { manager.state with retryNotBefore := none } }).Attended :=
            ⟨hatt.owned, hatt.promised⟩
          exact hclr.join hc

theorem taken {next : Manager Failure} (hatt : manager.Attended)
    (hinf : next.state.inflight = none)
    (hwts : ∀ call notify, next.waitsOn call = some notify → manager.waitsOn call = some notify)
    (hmov : ∀ notify, manager.state.inflight = some notify → next.SignalPending notify)
    (hpend : ∀ notify, manager.SignalPending notify → next.SignalPending notify) :
    next.Attended where
  owned notify hntf := by
    rw [hinf] at hntf
    cases hntf
  promised call notify hc := by
    obtain hinst | hpri := hatt.promised call notify (hwts call notify hc)
    · exact .inr (hmov notify hinst)
    · exact .inr (hpend notify hpri)

theorem commit (hatt : manager.Attended) {call : ℕ} {now : Instant}
    {result : Except (TokenManagerError Failure) TokenEntry}
    (hc : manager.calls call = some (.reauthed now result)) :
    (manager.commit call now result).Attended := by
  have hsig : ∀ notify, (manager.calls call).bind CallPhase.signals ≠ some notify := by
    intro notify hsome
    rw [hc] at hsome
    cases hsome
  have hwts : ∀ (base : Manager Failure) (found : Except (TokenManagerError Failure) TokenEntry),
      base.calls = manager.calls → ∀ other notify,
        (base.setCall call (.signalling now manager.state.inflight found)).waitsOn other =
          some notify → manager.waitsOn other = some notify := by
    intro base found hbase other notify ho
    rw [waitsOn_setCall] at ho
    split at ho
    · cases ho
    · rw [waitsOn, hbase] at ho
      exact ho
  cases result with
  | ok entry =>
    refine hatt.taken rfl (hwts _ _ rfl) ?_ ?_
    · intro notify hntf
      exact .inl ⟨call, by simp [Manager.commit, Manager.setCall, CallPhase.signals, hntf]⟩
    · intro notify hpend
      exact @SignalPending.setCall _ { manager with state := ⟨some entry, none, none⟩ } _ _
        hpend (hsig notify) _
  | error error =>
    refine hatt.taken rfl (hwts _ _ rfl) ?_ ?_
    · intro notify hntf
      exact .inl ⟨call, by
        simp [Manager.commit, Manager.record, Manager.setCall, CallPhase.signals, hntf]⟩
    · intro notify hpend
      exact @SignalPending.setCall _ { manager with
        state := ⟨manager.state.token, none, some (now + AUTH_FAILURE_BACKOFF)⟩ } _ _ hpend (hsig notify) _

/-- After a notification that reached everybody, `taken` is waited for by nobody. -/
theorem notifyWaiters (hatt : manager.Attended) {taken : Option ℕ}
    (hsub : ∀ notify, taken = some notify → manager.AllSubscribed notify) :
    ∀ call notify, (manager.notifyWaiters taken).waitsOn call = some notify → taken ≠ some notify ∧
        (manager.state.inflight = some notify ∨ manager.SignalPending notify) := by
  intro call notify hc
  obtain ⟨hwts, hclo⟩ := waitsOn_notifyWaiters hc
  refine ⟨?_, hatt.promised call notify hwts⟩
  intro htak
  obtain ⟨now, hp⟩ := hclo htak
  exact hsub notify htak call now hp

theorem signal (hatt : manager.Attended) {call : ℕ} {now : Instant} {taken : Option ℕ}
    {result : Except (TokenManagerError Failure) TokenEntry}
    (hc : manager.calls call = some (.signalling now taken result))
    (hsub : ∀ notify, taken = some notify → manager.AllSubscribed notify) :
    ((manager.notifyWaiters taken).finish call now result).Attended := by
  have hlog : manager.loginNow call = none := loginNow_of_call hc
  refine ⟨?_, ?_⟩
  · intro notify hntf
    rw [show ((manager.notifyWaiters taken).finish call now result).state =
      (manager.notifyWaiters taken).state from rfl, state_notifyWaiters] at hntf
    obtain ⟨owner, hown⟩ := hatt.owned notify hntf
    refine ⟨owner, ?_⟩
    rw [Manager.finish, loginNow_record, loginNow_setCall, loginNow_notifyWaiters]
    split
    · rename_i hsm
      rw [hsm, hlog] at hown
      cases hown
    · exact hown
  · intro other notify ho
    rw [show ((manager.notifyWaiters taken).finish call now result).state =
      (manager.notifyWaiters taken).state from rfl, state_notifyWaiters]
    have hwts : (manager.notifyWaiters taken).waitsOn other = some notify := by
      rw [show ((manager.notifyWaiters taken).finish call now result).waitsOn other =
        ((manager.notifyWaiters taken).setCall call (.returned now result)).waitsOn other from rfl,
        waitsOn_setCall] at ho
      split at ho
      · cases ho
      · exact ho
    obtain ⟨hne, hinst | hpend⟩ := hatt.notifyWaiters hsub other notify hwts
    · exact .inl hinst
    · have hcal : ((manager.notifyWaiters taken).calls call).bind CallPhase.signals ≠
          some notify := by
        rw [signals_notifyWaiters, hc]
        exact hne
      exact .inr ((hpend.notifyWaiters taken).setCall hcal (.returned now result))

theorem stopSignal (hatt : manager.Attended) {stop : ℕ} {taken : Option ℕ}
    (hstop : manager.stops stop = some (.signalling taken))
    (hsub : ∀ notify, taken = some notify → manager.AllSubscribed notify) :
    ((manager.notifyWaiters taken).setStop stop .joining).Attended := by
  refine ⟨?_, ?_⟩
  · intro notify hntf
    rw [show ((manager.notifyWaiters taken).setStop stop .joining).state =
      (manager.notifyWaiters taken).state from rfl, state_notifyWaiters] at hntf
    obtain ⟨owner, hown⟩ := hatt.owned notify hntf
    refine ⟨owner, ?_⟩
    rw [show ((manager.notifyWaiters taken).setStop stop .joining).loginNow owner =
      (manager.notifyWaiters taken).loginNow owner from rfl, loginNow_notifyWaiters]
    exact hown
  · intro other notify ho
    rw [show ((manager.notifyWaiters taken).setStop stop .joining).state =
      (manager.notifyWaiters taken).state from rfl, state_notifyWaiters]
    obtain ⟨hne, hinst | hpend⟩ := hatt.notifyWaiters hsub other notify ho
    · exact .inl hinst
    · refine .inr ((hpend.notifyWaiters taken).setStop ?_ .joining)
      rw [stops_notifyWaiters, hstop]
      exact hne

theorem stopClear (hatt : manager.Attended) {stop : ℕ}
    (hstop : manager.stops stop = some .notified) :
    ({ manager with state := ⟨none, none, none⟩ }.setStop stop
      (.signalling manager.state.inflight)).Attended := by
  refine hatt.taken rfl (fun _ _ hwts => hwts) ?_ ?_
  · intro notify hntf
    exact .inr ⟨stop, by simp [Manager.setStop, StopPhase.signals, hntf]⟩
  · intro notify hpend
    refine @SignalPending.setStop _ { manager with state := ⟨none, none, none⟩ } _ _
      hpend ?_ _
    rw [show ({ manager with state := ⟨none, none, none⟩ } : Manager Failure).stops =
      manager.stops from rfl, hstop]
    exact (some_ne_none _).symm

theorem drop (hatt : manager.Attended) {call : ℕ} {phase : CallPhase Failure}
    (hc : manager.calls call = some phase) (hsus : phase.Suspended = true)
    (hsafe : manager.WakesAll (.drop call)) : (manager.setCall call .dropped).Attended := by
  have hsig : (manager.calls call).bind CallPhase.signals = none := by
    rw [hc]
    exact CallPhase.signals_of_suspended hsus
  have hsta : ∀ other, other ≠ call → (manager.loginNow other).isSome = true →
      ∃ owner, ((manager.setCall call .dropped).loginNow owner).isSome = true := by
    intro other hne ho
    refine ⟨other, ?_⟩
    rw [loginNow_setCall, if_neg hne]
    exact ho
  refine ⟨?_, ?_⟩
  · intro notify hntf
    obtain ⟨owner, hown⟩ := hatt.owned notify hntf
    by_cases hsm : owner = call
    · rw [hsm] at hown
      obtain hnone | hidle | ⟨other, hne, ho⟩ := hsafe
      · rw [hnone] at hown
        cases hown
      · rw [show (manager.setCall call .dropped).state = manager.state from rfl, hidle] at hntf
        cases hntf
      · exact hsta other hne ho
    · exact hsta owner hsm hown
  · intro other notify ho
    rw [waitsOn_setCall] at ho
    split at ho
    · cases ho
    · obtain hinst | hpend := hatt.promised other notify ho
      · exact .inl hinst
      · exact .inr (hpend.setCall (by rw [hsig]; exact (some_ne_none _).symm) _)

theorem stopNotify (hatt : manager.Attended) :
    ({ manager with calls := fun call => (manager.calls call).map CallPhase.stopNotified }
      ).Attended := by
  have hview : ∀ (A : Type) (view : CallPhase Failure → Option A),
      (∀ phase : CallPhase Failure, view phase.stopNotified = view phase) →
      ∀ call, ((manager.calls call).map CallPhase.stopNotified).bind view =
        (manager.calls call).bind view := by
    intro A view hsm call
    rw [bind_map]
    exact congrArg _ (funext hsm)
  refine hatt.frame rfl ?_ ?_ ?_
  · intro call hc
    refine ⟨call, ?_⟩
    rw [loginNow, hview _ CallPhase.loginNow (fun phase => by cases phase <;> rfl)]
    exact hc
  · intro call notify hc
    rw [waitsOn, hview _ CallPhase.waitsOn (fun phase => by cases phase <;> rfl)] at hc
    exact hc
  · rintro notify (⟨call, hc⟩ | hstop)
    · refine .inl ⟨call, ?_⟩
      rw [hview _ CallPhase.signals (fun phase => by cases phase <;> rfl)]
      exact hc
    · exact .inr hstop

theorem startBg (hatt : manager.Attended) : manager.startBg.Attended := by
  unfold Manager.startBg
  apply record
  split
  · exact hatt
  · exact ⟨hatt.owned, hatt.promised⟩

theorem step {config : TokenManagerConfig} {label : Label Failure} {next : Manager Failure}
    (hatt : manager.Attended) (hsafe : manager.WakesAll label)
    (hs : manager.step config label = some next) : next.Attended := by
  cases label with
  | call call now =>
    rw [Manager.step] at hs
    split at hs
    · rename_i hnone
      cases hs
      have hlog : manager.loginNow call = none := by rw [loginNow, hnone, bind_none]
      exact hatt.setCall (fun hsome => by rw [hlog] at hsome; cases hsome)
        (fun notify hwts => by cases hwts) (by rw [hnone, bind_none])
    · cases hs
  | enter call =>
    rw [Manager.step] at hs
    split at hs
    · rename_i now hc
      cases hs
      exact hatt.enter hc
    · cases hs
  | subscribe call =>
    rw [Manager.step] at hs
    split at hs
    · rename_i now notify hc
      cases hs
      refine hatt.setCall ?_ ?_ (by rw [hc]; rfl)
      · rw [loginNow_of_call hc]
        exact fun hsome => by cases hsome
      · intro found hf
        rw [waitsOn, hc]
        exact hf
    · cases hs
  | login call action =>
    simp only [Manager.step, bind_eq_bind, bind_eq_some_iff, pure_def, some.injEq] at hs
    obtain ⟨phase, hc, ⟨moved, events⟩, hadv, rfl⟩ := hs
    obtain ⟨now, hp, hmov, -⟩ := CallPhase.advance_cases hadv
    apply record
    refine hatt.setCall (fun _ => by rw [hmov]; rfl) ?_ ?_
    · intro notify hntf
      rw [(CallPhase.waitsOn_of_loginNow hmov).1] at hntf
      cases hntf
    · rw [hc]
      exact (CallPhase.waitsOn_of_loginNow hp).2
  | commit call =>
    rw [Manager.step] at hs
    split at hs
    · rename_i now result hc
      cases hs
      exact hatt.commit hc
    · cases hs
  | signal call =>
    rw [Manager.step] at hs
    split at hs
    · rename_i now taken result hc
      cases hs
      refine hatt.signal hc fun notify hntf => hsafe notify ?_
      rw [hc]
      exact hntf
    · cases hs
  | drop call =>
    simp only [Manager.step, bind_eq_bind, bind_eq_some_iff, pure_def]
      at hs
    obtain ⟨phase, hc, hdrop⟩ := hs
    split at hdrop
    · rename_i hsus
      cases hdrop
      exact hatt.drop hc hsus hsafe
    · cases hdrop
  | clear =>
    cases hs
    exact ⟨hatt.owned, hatt.promised⟩
  | onUnauthorizedRetry clock =>
    cases hs
    exact ⟨hatt.owned, hatt.promised⟩
  | stop stop =>
    rw [Manager.step] at hs
    split at hs
    · rename_i hnone
      cases hs
      have hfla : ({ manager with stopped := true }).Attended :=
        ⟨hatt.owned, hatt.promised⟩
      exact hfla.setStop (by dsimp only; rw [hnone, bind_none]) .flagged
    · cases hs
  | stopNotify stop =>
    rw [Manager.step] at hs
    split at hs
    · rename_i hfla
      cases hs
      exact hatt.stopNotify.setStop (by dsimp only; rw [hfla]; rfl) .notified
    · cases hs
  | stopClear stop =>
    rw [Manager.step] at hs
    split at hs
    · rename_i hnotified
      cases hs
      exact hatt.stopClear hnotified
    · cases hs
  | stopSignal stop =>
    rw [Manager.step] at hs
    split at hs
    · rename_i taken hsig
      cases hs
      refine hatt.stopSignal hsig fun notify hntf => hsafe notify ?_
      rw [hsig]
      exact hntf
    · cases hs
  | stopJoin stop =>
    rw [Manager.step] at hs
    split at hs
    · rename_i hjoining
      cases hs
      have hbg : ({ manager with bgTask := false }).Attended :=
        ⟨hatt.owned, hatt.promised⟩
      exact hbg.setStop (by dsimp only; rw [hjoining]; rfl) .awaiting
    · cases hs
  | stopReturn stop =>
    rw [Manager.step] at hs
    split at hs
    · rename_i hawait
      cases hs
      exact (hatt.setStop (by rw [hawait]; rfl) .returned).record _
    · cases hs
  | startBg =>
    cases hs
    exact hatt.startBg

theorem new : (@Manager.new Failure).Attended where
  owned _ hntf := by cases hntf
  promised _ _ hwts := by cases hwts

end Attended

end Manager

end AukiSdk.Machine
