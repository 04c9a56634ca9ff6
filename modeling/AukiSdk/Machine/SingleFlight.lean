import AukiSdk.Machine.TokenManager

/-!
# Single flight

The installed `Notify` names the one call that logs in.
-/

namespace AukiSdk.Machine

open AukiSdk.Foundation List
open AukiSdk.Net

variable {Failure : Type}

/-- Not a step of a `stop` call, and not the drop of a future. -/
def Label.Undisturbed : Label Failure → Bool
  | .drop _ => false
  | .stop _ => false
  | .stopNotify _ => false
  | .stopClear _ => false
  | .stopSignal _ => false
  | .stopJoin _ => false
  | .stopReturn _ => false
  | _ => true

/-- `clear` and `on_unauthorized_retry` lift the backoff. -/
def Event.Resets : Event Failure → Bool
  | .cleared => true
  | .denied _ => true
  | _ => false

def Event.Fails : Event Failure → Bool
  | .failed _ => true
  | _ => false

/-- `now` is not within the backoff of a failed login. -/
def PastBackoff (trace : List (Event Failure)) (now : Instant) : Prop :=
  ∀ before start middle, trace = before ++ .failed start :: middle →
    (∀ event ∈ middle, event.Resets = false) → start + AUTH_FAILURE_BACKOFF ≤ now

/-- A call computed the entry; only `on_unauthorized_retry` changed its deadline. -/
def Backed (trace : List (Event Failure)) (entry : TokenEntry) : Prop :=
  ∃ before call start ttl issued after, trace = before ++ .issued call start ttl issued :: after ∧
    issued.value = entry.value ∧ start < issued.refreshAt ∧ issued.refreshAt ≤ start + ttl ∧
    (entry.refreshAt = issued.refreshAt ∨ .denied (some entry.refreshAt) ∈ after)

/-- The call itself computed the entry. -/
def Issued (trace : List (Event Failure)) (call : ℕ) (now : Instant) (entry : TokenEntry) :
    Prop :=
  ∃ ttl, .issued call now ttl entry ∈ trace ∧ now < entry.refreshAt ∧
    entry.refreshAt ≤ now + ttl

namespace PastBackoff

variable {trace : List (Event Failure)} {now : Instant}

theorem mono (hpast : PastBackoff trace now) {later : Instant} (hle : now ≤ later) :
    PastBackoff trace later :=
  fun before start middle hsp hqui => (hpast before start middle hsp hqui).trans hle

theorem append (hpast : PastBackoff trace now) {event : Event Failure}
    (hev : event.Fails = false) : PastBackoff (trace ++ [event]) now := by
  intro before start middle hsp hqui
  obtain ⟨-, hf, -⟩ | ⟨rest, rfl, hrest⟩ := concat_eq_append_cons hsp
  · rw [← hf] at hev
    cases hev
  · exact hpast before start rest hrest fun found hm => hqui found (by simp [hm])

theorem append_failed {start : Instant} (hpast : PastBackoff trace start) :
    PastBackoff (trace ++ [.failed start]) (start + AUTH_FAILURE_BACKOFF) := by
  intro before failed middle hsp hqui
  obtain ⟨-, hf, -⟩ | ⟨rest, rfl, hrest⟩ := concat_eq_append_cons hsp
  · cases hf
    exact le_refl _
  · have hle := hpast before failed rest hrest fun found hm => hqui found (by simp [hm])
    exact hle.trans (Nat.le_add_right _ _)

theorem of_reset {event : Event Failure} (hev : event.Resets = true) :
    PastBackoff (trace ++ [event]) now := by
  intro before start middle hsp hqui
  obtain ⟨-, hf, -⟩ | ⟨rest, rfl, -⟩ := concat_eq_append_cons hsp
  · rw [← hf] at hev
    cases hev
  · rw [hqui event (by simp)] at hev
    cases hev

end PastBackoff

variable {entry : TokenEntry}

theorem Backed.append {trace : List (Event Failure)} (hbac : Backed trace entry)
    (events : List (Event Failure)) :
    Backed (trace ++ events) entry := by
  obtain ⟨before, call, start, ttl, issued, after, rfl, hval, hlt, hle, hdead⟩ := hbac
  refine ⟨before, call, start, ttl, issued, after ++ events, by simp, hval, hlt, hle, ?_⟩
  exact hdead.imp_right (mem_append_left _)

theorem Backed.denied {trace : List (Event Failure)} (hbac : Backed trace entry)
    (deadline : Instant) :
    Backed (trace ++ [.denied (some deadline)]) { entry with refreshAt := deadline } := by
  obtain ⟨before, call, start, ttl, issued, after, rfl, hval, hlt, hle, -⟩ := hbac
  exact ⟨before, call, start, ttl, issued, after ++ [.denied (some deadline)], by simp, hval,
    hlt, hle, .inr (by simp)⟩

theorem Issued.append {trace : List (Event Failure)} {call : ℕ} {now : Instant}
    (hiss : Issued trace call now entry) (events : List (Event Failure)) :
    Issued (trace ++ events) call now entry := by
  obtain ⟨ttl, hm, hbou⟩ := hiss
  exact ⟨ttl, mem_append_left _ hm, hbou⟩

theorem Issued.backed {trace : List (Event Failure)} {call : ℕ} {now : Instant}
    (hiss : Issued trace call now entry) : Backed trace entry := by
  obtain ⟨ttl, hm, hlt, hle⟩ := hiss
  obtain ⟨before, after, hsp⟩ := append_of_mem hm
  exact ⟨before, call, now, ttl, entry, after, hsp, rfl, hlt, hle, .inl rfl⟩

theorem loginNow_attemptFailed (config : TokenManagerConfig) (now : Instant) (attempt : ℕ)
    (error : SiweError Failure) :
    (attemptFailed config now attempt error).loginNow = some now := by
  unfold attemptFailed
  split <;> rfl

theorem obtained_attemptFailed (config : TokenManagerConfig) (now : Instant) (attempt : ℕ)
    (error : SiweError Failure) : (attemptFailed config now attempt error).obtained = none := by
  unfold attemptFailed
  split <;> rfl

/-- The call stays the one that logs in, and records its request or its token. -/
theorem CallPhase.advance_cases {config : TokenManagerConfig} {stopped : Bool} {call : ℕ}
    {phase next : CallPhase Failure} {action : LoginAction Failure}
    {events : List (Event Failure)}
    (hadv : phase.advance config stopped call action = some (next, events)) :
    ∃ now, phase.loginNow = some now ∧ next.loginNow = some now ∧
      ((next.obtained = none ∧ (events = [] ∨ events = [.login call now])) ∨
        ∃ ttl entry, next.obtained = some (now, entry) ∧
          events = [.issued call now ttl entry] ∧ now < entry.refreshAt ∧
          entry.refreshAt ≤ now + ttl) := by
  unfold CallPhase.advance at hadv
  split at hadv
  · cases hadv
    split <;> exact ⟨_, rfl, rfl, .inl ⟨rfl, .inl rfl⟩⟩
  · cases hadv
    split <;> exact ⟨_, rfl, rfl, .inl ⟨rfl, .inl rfl⟩⟩
  · cases hadv
    exact ⟨_, rfl, rfl, .inl ⟨rfl, .inl rfl⟩⟩
  · cases hadv
    exact ⟨_, rfl, rfl, .inl ⟨rfl, .inr rfl⟩⟩
  · cases hadv
    exact ⟨_, rfl, rfl, .inl ⟨rfl, .inl rfl⟩⟩
  · cases hadv
    exact ⟨_, rfl, rfl, .inl ⟨rfl, .inl rfl⟩⟩
  · cases hadv
    exact ⟨_, rfl, rfl, .inl ⟨rfl, .inl rfl⟩⟩
  · cases hadv
    exact ⟨_, rfl, loginNow_attemptFailed _ _ _ _, .inl ⟨obtained_attemptFailed _ _ _ _, .inl rfl⟩⟩
  · split at hadv
    · split at hadv
      · rename_i entry hent
        cases hadv
        obtain ⟨-, ttl, hlif, hlt, hle⟩ := bundleToEntry_eq_ok hent
        refine ⟨_, rfl, rfl, .inr ⟨ttl, entry, rfl, ?_, hlt, hle⟩⟩
        rw [hlif, Option.getD_some]
      · cases hadv
        exact ⟨_, rfl, loginNow_attemptFailed _ _ _ _,
          .inl ⟨obtained_attemptFailed _ _ _ _, .inl rfl⟩⟩
    · cases hadv
  · cases hadv
    exact ⟨_, rfl, rfl, .inl ⟨rfl, .inl rfl⟩⟩
  · cases hadv

namespace Manager

/-- The `now` with which a call logs in. -/
def loginNow (manager : Manager Failure) (call : ℕ) : Option Instant :=
  (manager.calls call).bind CallPhase.loginNow

/-- The token that a call obtained and has not returned. -/
def obtained (manager : Manager Failure) (call : ℕ) : Option (Instant × TokenEntry) :=
  (manager.calls call).bind CallPhase.obtained

variable {manager : Manager Failure}

@[simp]
theorem loginNow_setCall (call other : ℕ) (phase : CallPhase Failure) :
    (manager.setCall call phase).loginNow other =
      if other = call then phase.loginNow else manager.loginNow other := by
  rw [loginNow, setCall]
  by_cases ho : other = call
  · rw [ho]
    simp
  · simp [ho, loginNow]

@[simp]
theorem obtained_setCall (call other : ℕ) (phase : CallPhase Failure) :
    (manager.setCall call phase).obtained other =
      if other = call then phase.obtained else manager.obtained other := by
  rw [obtained, setCall]
  by_cases ho : other = call
  · rw [ho]
    simp
  · simp [ho, obtained]

@[simp]
theorem loginNow_record (events : List (Event Failure)) (call : ℕ) :
    (manager.record events).loginNow call = manager.loginNow call := rfl

@[simp]
theorem obtained_record (events : List (Event Failure)) (call : ℕ) :
    (manager.record events).obtained call = manager.obtained call := rfl

theorem loginNow_of_call {call : ℕ} {phase : CallPhase Failure}
    (hp : manager.calls call = some phase) : manager.loginNow call = phase.loginNow := by
  rw [loginNow, hp, Option.bind_some]

theorem obtained_of_call {call : ℕ} {phase : CallPhase Failure}
    (hp : manager.calls call = some phase) : manager.obtained call = phase.obtained := by
  rw [obtained, hp, Option.bind_some]

variable (taken : Option ℕ)

@[simp]
theorem loginNow_notifyWaiters (call : ℕ) :
    (manager.notifyWaiters taken).loginNow call = manager.loginNow call := by
  cases taken with
  | none => rfl
  | some notify =>
    simp only [loginNow, notifyWaiters]
    rcases manager.calls call with _ | phase
    · rfl
    · cases phase <;> simp only [Option.map_some, Option.bind_some, CallPhase.notified]
      split <;> rfl

@[simp]
theorem obtained_notifyWaiters (call : ℕ) :
    (manager.notifyWaiters taken).obtained call = manager.obtained call := by
  cases taken with
  | none => rfl
  | some notify =>
    simp only [obtained, notifyWaiters]
    rcases manager.calls call with _ | phase
    · rfl
    · cases phase <;> simp only [Option.map_some, Option.bind_some, CallPhase.notified]
      split <;> rfl

@[simp]
theorem trace_notifyWaiters : (manager.notifyWaiters taken).trace = manager.trace := by
  cases taken <;> rfl

@[simp]
theorem state_notifyWaiters : (manager.notifyWaiters taken).state = manager.state := by
  cases taken <;> rfl

end Manager

namespace Manager

variable {manager : Manager Failure}

/-- The installed `Notify` names the call that logs in. -/
structure Flight (manager : Manager Failure) : Prop where
  single : ∀ call, (manager.loginNow call).isSome = true ↔ manager.state.inflight = some call
  past : ∀ call now, manager.loginNow call = some now → PastBackoff manager.trace now
  held : ∀ call now entry, manager.obtained call = some (now, entry) →
    Issued manager.trace call now entry
  token : ∀ entry, manager.state.token = some entry → Backed manager.trace entry

/-- When nobody logs in, a call that finds no usable token is past the backoff. -/
structure SingleFlight (manager : Manager Failure) : Prop extends manager.Flight where
  idle : manager.state.inflight = none →
    (∀ retryNotBefore, manager.state.retryNotBefore = some retryNotBefore →
      PastBackoff manager.trace retryNotBefore) ∧
    (manager.state.retryNotBefore = none → ∀ now,
      (∀ entry, manager.state.token = some entry → entry.refreshAt < now) →
        PastBackoff manager.trace now)

/-- What the trace says about tokens handed out and about logins. -/
structure TraceSound (trace : List (Event Failure)) : Prop where
  returns : ∀ before call now entry after,
    trace = before ++ .returned call now (.ok entry) :: after →
      (now ≤ entry.refreshAt ∨ ∃ ttl, .issued call now ttl entry ∈ before) ∧
        Backed before entry
  logins : ∀ before call now after, trace = before ++ .login call now :: after →
    PastBackoff before now

theorem TraceSound.append {trace : List (Event Failure)} (htr : TraceSound trace)
    {event : Event Failure}
    (hret : ∀ call now entry, event = .returned call now (.ok entry) →
      (now ≤ entry.refreshAt ∨ ∃ ttl, .issued call now ttl entry ∈ trace) ∧ Backed trace entry)
    (hlog : ∀ call now, event = .login call now → PastBackoff trace now) :
    TraceSound (trace ++ [event]) where
  returns before call now entry after hsp := by
    obtain ⟨-, hf, rfl⟩ | ⟨rest, -, hrest⟩ := concat_eq_append_cons hsp
    · exact hret call now entry hf.symm
    · exact htr.returns before call now entry rest hrest
  logins before call now after hsp := by
    obtain ⟨-, hf, rfl⟩ | ⟨rest, -, hrest⟩ := concat_eq_append_cons hsp
    · exact hlog call now hf.symm
    · exact htr.logins before call now rest hrest

namespace Flight

theorem setCall (hfly : manager.Flight) {call : ℕ} {phase : CallPhase Failure}
    (hlog : phase.loginNow = manager.loginNow call)
    (hobt : ∀ found, phase.obtained = some found → manager.obtained call = some found) :
    (manager.setCall call phase).Flight := by
  have hsm : ∀ other, (manager.setCall call phase).loginNow other = manager.loginNow other := by
    intro other
    rw [loginNow_setCall]
    split
    · rename_i ho
      rw [ho, hlog]
    · rfl
  refine ⟨?_, ?_, ?_, hfly.token⟩
  · intro other
    rw [hsm]
    exact hfly.single other
  · intro other now hnow
    rw [hsm] at hnow
    exact hfly.past other now hnow
  · intro other now entry hheld
    rw [obtained_setCall] at hheld
    split at hheld
    · rename_i ho
      rw [ho]
      exact hfly.held call now entry (hobt _ hheld)
    · exact hfly.held other now entry hheld

theorem record (hfly : manager.Flight) {event : Event Failure}
    (hev : event.Fails = false) : (manager.record [event]).Flight where
  single := hfly.single
  past call now hnow := (hfly.past call now hnow).append hev
  held call now entry hheld := (hfly.held call now entry hheld).append [event]
  token entry hent := (hfly.token entry hent).append [event]

end Flight

namespace SingleFlight

variable {call : ℕ} {phase : CallPhase Failure}

theorem setCall (hsin : manager.SingleFlight) (hlog : phase.loginNow = manager.loginNow call)
    (hobt : ∀ found, phase.obtained = some found → manager.obtained call = some found) :
    (manager.setCall call phase).SingleFlight :=
  ⟨hsin.toFlight.setCall hlog hobt, hsin.idle⟩

theorem record (hsin : manager.SingleFlight) {event : Event Failure}
    (hev : event.Fails = false) : (manager.record [event]).SingleFlight := by
  refine ⟨hsin.toFlight.record hev, ?_⟩
  intro hidle
  obtain ⟨hret, htok⟩ := hsin.idle hidle
  exact ⟨fun retryNotBefore hsome => (hret retryNotBefore hsome).append hev,
    fun hnone now hexp => (htok hnone now hexp).append hev⟩

theorem notifyWaiters (hsin : manager.SingleFlight) (taken : Option ℕ) :
    (manager.notifyWaiters taken).SingleFlight := by
  refine ⟨⟨?_, ?_, ?_, ?_⟩, ?_⟩ <;>
    simp only [loginNow_notifyWaiters, obtained_notifyWaiters, trace_notifyWaiters,
      state_notifyWaiters]
  · exact hsin.single
  · exact hsin.past
  · exact hsin.held
  · exact hsin.token
  · exact hsin.idle

theorem finish (hsin : manager.SingleFlight) (hc : manager.loginNow call = none)
    (now : Instant) (result : Except (TokenManagerError Failure) TokenEntry) :
    (manager.finish call now result).SingleFlight := by
  have hset : (manager.setCall call (.returned now result)).SingleFlight :=
    hsin.setCall hc.symm fun found hf => by cases hf
  exact hset.record rfl

theorem join (hfly : manager.Flight) {now : Instant}
    (hc : manager.calls call = some (.locking now))
    (hpast : manager.state.inflight = none → PastBackoff manager.trace now) :
    (manager.join call now).SingleFlight := by
  have hlog : manager.loginNow call = none := loginNow_of_call hc
  unfold Manager.join
  cases hinf : manager.state.inflight with
  | some existing =>
    have hset : (manager.setCall call (.cloned now existing)).Flight :=
      hfly.setCall hlog.symm fun found hf => by cases hf
    refine ⟨hset, fun hidle => ?_⟩
    rw [show (manager.setCall call (.cloned now existing)).state = manager.state from rfl,
      hinf] at hidle
    cases hidle
  | none =>
    refine ⟨⟨?_, ?_, ?_, hfly.token⟩, fun hidle => by cases hidle⟩
    · intro other
      rw [loginNow_setCall]
      split
      · rename_i ho
        rw [ho]
        exact ⟨fun _ => rfl, fun _ => rfl⟩
      · rename_i ho
        constructor
        · intro hsome
          have hnone := (hfly.single other).mp hsome
          rw [hinf] at hnone
          cases hnone
        · intro hsm
          exact absurd (Option.some.inj hsm).symm ho
    · intro other start hbeg
      rw [loginNow_setCall] at hbeg
      split at hbeg
      · cases hbeg
        exact hpast hinf
      · exact hfly.past other start hbeg
    · intro other start entry hheld
      rw [obtained_setCall] at hheld
      split at hheld
      · cases hheld
      · exact hfly.held other start entry hheld

theorem enter (hsin : manager.SingleFlight) {now : Instant}
    (hc : manager.calls call = some (.locking now)) :
    (manager.enter call now).SingleFlight := by
  have hlog : manager.loginNow call = none := loginNow_of_call hc
  unfold Manager.enter
  split
  · exact hsin.finish hlog now _
  · split
    · exact hsin.finish hlog now _
    · rename_i hunu
      have hexp : ∀ entry, manager.state.token = some entry → entry.refreshAt < now := by
        intro entry hent
        rw [hent, Option.filter_eq_none_iff] at hunu
        have hinv := hunu entry rfl
        rw [TokenEntry.isValid, decide_eq_true_iff] at hinv
        exact not_le.mp hinv
      split
      · rename_i hnone
        exact join hsin.toFlight hc fun hidle => (hsin.idle hidle).2 hnone now hexp
      · rename_i retryNotBefore hsome
        split
        · exact hsin.finish hlog now _
        · rename_i hlate
          have hfly : ({ manager with
              state := { manager.state with retryNotBefore := none } }).Flight :=
            { hsin with }
          exact join hfly hc fun hidle =>
            ((hsin.idle hidle).1 retryNotBefore hsome).mono (not_lt.mp hlate)

theorem nobody {base : Manager Failure} (hsin : manager.SingleFlight)
    (hinf : manager.state.inflight = some call) (hbase : base.calls = manager.calls)
    (hp : phase.loginNow = none) (other : ℕ) :
    (base.setCall call phase).loginNow other = none := by
  rw [loginNow_setCall]
  split
  · exact hp
  · rename_i ho
    rw [loginNow, hbase]
    change manager.loginNow other = none
    rw [← Option.not_isSome_iff_eq_none, hsin.single other, hinf]
    exact fun hsm => ho (Option.some.inj hsm).symm

theorem commit (hsin : manager.SingleFlight) {now : Instant}
    {result : Except (TokenManagerError Failure) TokenEntry}
    (hc : manager.calls call = some (.reauthed now result)) :
    (manager.commit call now result).SingleFlight := by
  have hlog : manager.loginNow call = some now := loginNow_of_call hc
  have hpast : PastBackoff manager.trace now := hsin.past call now hlog
  have hinf : manager.state.inflight = some call := (hsin.single call).mp (by rw [hlog]; rfl)
  have hnob : ∀ other, (manager.commit call now result).loginNow other = none := by
    cases result <;> exact hsin.nobody hinf rfl rfl
  have hvac : (manager.commit call now result).state.inflight = none := by
    cases result <;> rfl
  have hfly : ∀ other, ((manager.commit call now result).loginNow other).isSome = true ↔
      (manager.commit call now result).state.inflight = some other := by
    intro other
    rw [hnob, hvac]
    exact ⟨fun hsome => (by cases hsome), fun hsome => (by cases hsome)⟩
  have hlate : ∀ other start, (manager.commit call now result).loginNow other = some start →
      PastBackoff (manager.commit call now result).trace start := by
    intro other start hbeg
    rw [hnob] at hbeg
    cases hbeg
  cases result with
  | ok entry =>
    have hiss : Issued manager.trace call now entry :=
      hsin.held call now entry (obtained_of_call hc)
    refine ⟨⟨hfly, hlate, ?_, ?_⟩, ?_⟩
    · intro other start found hheld
      rw [Manager.commit, obtained_setCall] at hheld
      split at hheld
      · rename_i ho
        cases hheld
        rw [ho]
        exact hiss
      · exact hsin.held other start found hheld
    · intro found hf
      cases hf
      exact hiss.backed
    · intro _
      refine ⟨fun _ hsome => (by cases hsome), fun _ later hexp => ?_⟩
      obtain ⟨ttl, -, hlt, -⟩ := hiss
      exact hpast.mono (hlt.trans (hexp entry rfl)).le
  | error error =>
    refine ⟨⟨hfly, hlate, ?_, ?_⟩, ?_⟩
    · intro other start found hheld
      rw [Manager.commit, obtained_record, obtained_setCall] at hheld
      split at hheld
      · cases hheld
      · exact (hsin.held other start found hheld).append _
    · intro found hf
      exact (hsin.token found hf).append _
    · intro _
      refine ⟨fun retryNotBefore hsome => ?_, fun hnone => (by cases hnone)⟩
      cases hsome
      exact hpast.append_failed

theorem clear (hsin : manager.SingleFlight) : manager.clear.SingleFlight where
  single := hsin.single
  past _ _ _ := PastBackoff.of_reset rfl
  held call now entry hheld := (hsin.held call now entry hheld).append _
  token _ hent := by cases hent
  idle _ := ⟨fun _ _ => PastBackoff.of_reset rfl, fun _ _ _ => PastBackoff.of_reset rfl⟩

theorem onUnauthorizedRetry (hsin : manager.SingleFlight) (clock : Instant) :
    (manager.onUnauthorizedRetry clock).SingleFlight where
  single := hsin.single
  past _ _ _ := PastBackoff.of_reset rfl
  held call now entry hheld := (hsin.held call now entry hheld).append _
  token found hf := by
    obtain ⟨entry, hent, rfl⟩ := Option.map_eq_some_iff.mp hf
    rw [Manager.onUnauthorizedRetry, hent]
    exact (hsin.token entry hent).denied _
  idle _ := ⟨fun _ _ => PastBackoff.of_reset rfl, fun _ _ _ => PastBackoff.of_reset rfl⟩

theorem login (hsin : manager.SingleFlight) {config : TokenManagerConfig}
    {next : CallPhase Failure} {action : LoginAction Failure} {events : List (Event Failure)}
    (hc : manager.calls call = some phase)
    (hadv : phase.advance config manager.stopped call action = some (next, events)) :
    ((manager.setCall call next).record events).SingleFlight := by
  obtain ⟨now, hp, hn, hcas⟩ := CallPhase.advance_cases hadv
  have hlog : next.loginNow = manager.loginNow call := by
    rw [loginNow_of_call hc, hp, hn]
  obtain ⟨hnone, hevs⟩ | ⟨ttl, entry, hsome, rfl, hlt, hle⟩ := hcas
  · have hset : (manager.setCall call next).SingleFlight :=
      hsin.setCall hlog fun found hf => by rw [hnone] at hf; cases hf
    obtain rfl | rfl := hevs
    · rw [show (manager.setCall call next).record [] = manager.setCall call next by
        simp [Manager.record]]
      exact hset
    · exact hset.record rfl
  · -- The recorded token is what the call holds from now on.
    have hrec : (manager.record [.issued call now ttl entry]).SingleFlight := hsin.record rfl
    refine ⟨⟨?_, ?_, ?_, hrec.token⟩, hrec.idle⟩
    · intro other
      rw [loginNow_record, loginNow_setCall]
      split
      · rename_i ho
        rw [hlog, ho]
        exact hrec.single call
      · exact hrec.single other
    · intro other start hbeg
      rw [loginNow_record, loginNow_setCall] at hbeg
      split at hbeg
      · rw [hlog] at hbeg
        exact hrec.past call start hbeg
      · exact hrec.past other start hbeg
    · intro other start found hheld
      rw [obtained_record, obtained_setCall] at hheld
      split at hheld
      · rename_i ho
        rw [hsome] at hheld
        cases hheld
        rw [ho]
        exact ⟨ttl, mem_append_right _ (mem_singleton.mpr rfl), hlt, hle⟩
      · exact hrec.held other start found hheld

end SingleFlight

theorem TraceSound.append_plain {trace : List (Event Failure)} (htr : TraceSound trace)
    {event : Event Failure} (hret : ∀ call now entry, event ≠ .returned call now (.ok entry))
    (hlog : ∀ call now, event ≠ .login call now) : TraceSound (trace ++ [event]) :=
  htr.append (fun call now entry heq => absurd heq (hret call now entry))
    fun call now heq => absurd heq (hlog call now)

theorem trace_join (call : ℕ) (now : Instant) : (manager.join call now).trace = manager.trace := by
  unfold join
  split <;> rfl

theorem TraceSound.enter (hsin : manager.SingleFlight) (htr : TraceSound manager.trace)
    (call : ℕ) (now : Instant) : TraceSound (manager.enter call now).trace := by
  unfold Manager.enter
  split
  · exact htr.append_plain (by simp) (by simp)
  · split
    · rename_i entry hf
      obtain ⟨hent, hvalid⟩ := Option.filter_eq_some_iff.mp hf
      rw [TokenEntry.isValid, decide_eq_true_iff] at hvalid
      apply htr.append
      · intro found start same heq
        cases heq
        exact ⟨.inl hvalid, hsin.token entry hent⟩
      · intro found start heq
        cases heq
    · split
      · rw [trace_join]
        exact htr
      · split
        · exact htr.append_plain (by simp) (by simp)
        · rw [trace_join]
          exact htr

theorem TraceSound.signal (hsin : manager.SingleFlight) (htr : TraceSound manager.trace)
    {call : ℕ} {now : Instant} {taken : Option ℕ}
    {result : Except (TokenManagerError Failure) TokenEntry}
    (hc : manager.calls call = some (.signalling now taken result)) :
    TraceSound (((manager.notifyWaiters taken).finish call now result).trace) := by
  rw [show ((manager.notifyWaiters taken).finish call now result).trace =
    manager.trace ++ [.returned call now result] by
      rw [finish, record, setCall, trace_notifyWaiters]]
  cases result with
  | error error => exact htr.append_plain (by simp) (by simp)
  | ok entry =>
    have hiss : Issued manager.trace call now entry :=
      hsin.held call now entry (obtained_of_call hc)
    have hbac : Backed manager.trace entry := hiss.backed
    obtain ⟨ttl, hm, -⟩ := hiss
    apply htr.append
    · intro found start same heq
      cases heq
      exact ⟨.inr ⟨ttl, hm⟩, hbac⟩
    · intro found start heq
      cases heq

theorem TraceSound.login (hsin : manager.SingleFlight) (htr : TraceSound manager.trace)
    {call : ℕ} {config : TokenManagerConfig} {phase next : CallPhase Failure}
    {action : LoginAction Failure} {events : List (Event Failure)}
    (hc : manager.calls call = some phase)
    (hadv : phase.advance config manager.stopped call action = some (next, events)) :
    TraceSound (manager.trace ++ events) := by
  obtain ⟨now, hp, -, hcas⟩ := CallPhase.advance_cases hadv
  obtain ⟨-, rfl | rfl⟩ | ⟨ttl, entry, -, rfl, -, -⟩ := hcas
  · rw [append_nil]
    exact htr
  · apply htr.append
    · intro found start entry heq
      cases heq
    · intro found start heq
      cases heq
      exact hsin.past call now (by rw [loginNow_of_call hc, hp])
  · exact htr.append_plain (by simp) (by simp)

theorem SingleFlight.step {config : TokenManagerConfig} {label : Label Failure}
    {next : Manager Failure} (hsin : manager.SingleFlight) (htr : TraceSound manager.trace)
    (hlbl : label.Undisturbed = true) (hs : manager.step config label = some next) :
    next.SingleFlight ∧ TraceSound next.trace := by
  cases label with
  | call call now =>
    rw [Manager.step] at hs
    split at hs
    · rename_i hnone
      cases hs
      have hlog : manager.loginNow call = none := by rw [loginNow, hnone, Option.bind_none]
      exact ⟨hsin.setCall hlog.symm fun found hf => (by cases hf), htr⟩
    · cases hs
  | enter call =>
    rw [Manager.step] at hs
    split at hs
    · rename_i now hc
      cases hs
      exact ⟨hsin.enter hc, htr.enter hsin call now⟩
    · cases hs
  | subscribe call =>
    rw [Manager.step] at hs
    split at hs
    · rename_i now notify hc
      cases hs
      exact ⟨hsin.setCall (loginNow_of_call hc).symm fun found hf =>
        (by cases hf), htr⟩
    · cases hs
  | login call action =>
    simp only [Manager.step, Option.bind_eq_bind, Option.bind_eq_some_iff, Option.pure_def,
      Option.some.injEq] at hs
    obtain ⟨phase, hc, ⟨moved, events⟩, hadv, rfl⟩ := hs
    exact ⟨hsin.login hc hadv, htr.login hsin hc hadv⟩
  | commit call =>
    rw [Manager.step] at hs
    split at hs
    · rename_i now result hc
      cases hs
      refine ⟨hsin.commit hc, ?_⟩
      cases result with
      | ok entry => exact htr
      | error error => exact htr.append_plain (by simp) (by simp)
    · cases hs
  | signal call =>
    rw [Manager.step] at hs
    split at hs
    · rename_i now taken result hc
      cases hs
      refine ⟨(hsin.notifyWaiters taken).finish ?_ now result, htr.signal hsin hc⟩
      rw [loginNow_notifyWaiters]
      exact loginNow_of_call hc
    · cases hs
  | clear =>
    cases hs
    exact ⟨hsin.clear, htr.append_plain (by simp) (by simp)⟩
  | onUnauthorizedRetry clock =>
    cases hs
    exact ⟨hsin.onUnauthorizedRetry clock, htr.append_plain (by simp) (by simp)⟩
  | startBg =>
    cases hs
    have hbgn : (if manager.bgTask then manager
        else { manager with stopped := false, bgTask := true }).SingleFlight ∧
        (if manager.bgTask then manager
          else { manager with stopped := false, bgTask := true }).trace = manager.trace := by
      split
      · exact ⟨hsin, rfl⟩
      · exact ⟨⟨{ hsin with }, hsin.idle⟩, rfl⟩
    refine ⟨hbgn.1.record rfl, ?_⟩
    rw [startBg, Manager.record, hbgn.2]
    exact htr.append_plain (by simp) (by simp)
  | drop call => cases hlbl
  | stop stop => cases hlbl
  | stopNotify stop => cases hlbl
  | stopClear stop => cases hlbl
  | stopSignal stop => cases hlbl
  | stopJoin stop => cases hlbl
  | stopReturn stop => cases hlbl

theorem SingleFlight.new : (@Manager.new Failure).SingleFlight where
  single call := ⟨fun hsome => (by cases hsome), fun hsome => (by cases hsome)⟩
  past call now hnow := by cases hnow
  held call now entry hheld := by cases hheld
  token entry hent := by cases hent
  idle _ := by
    refine ⟨fun _ hsome => (by cases hsome), fun _ now _ before start middle hsp => ?_⟩
    cases before <;> cases hsp

theorem TraceSound.nil : TraceSound ([] : List (Event Failure)) where
  returns before call now entry after hsp := by cases before <;> cases hsp
  logins before call now after hsp := by cases before <;> cases hsp

end Manager

/-- In every run without `stop` and dropped futures at most one call logs in. -/
theorem token_manager_single_flight (config : TokenManagerConfig)
    (labels : List (Label Failure)) (hlabels : ∀ label ∈ labels, label.Undisturbed = true)
    (manager : Manager Failure)
    (hrun : runSteps (Manager.step config) Manager.new labels = some manager) :
    (∀ first second, (manager.loginNow first).isSome = true →
      (manager.loginNow second).isSome = true → first = second) ∧
    (∀ before call now entry after,
      manager.trace = before ++ .returned call now (.ok entry) :: after →
        (now ≤ entry.refreshAt ∨ ∃ ttl, .issued call now ttl entry ∈ before) ∧
          Backed before entry) ∧
    ∀ before start middle call now after,
      manager.trace = before ++ .failed start :: middle ++ .login call now :: after →
        (∀ event ∈ middle, event.Resets = false) → start + AUTH_FAILURE_BACKOFF ≤ now := by
  have hsound : manager.SingleFlight ∧ Manager.TraceSound manager.trace := by
    have hguard : GuardedRun (Manager.step config) Manager.new
        (fun _ label => label.Undisturbed = true) labels := guardedRun_of_forall hlabels
    refine @invariant_of_guardedRun _ _ _ _ _
      (fun state => state.SingleFlight ∧ Manager.TraceSound state.trace)
      ⟨Manager.SingleFlight.new, Manager.TraceSound.nil⟩ ?_ _ hguard _ hrun
    intro state label next hstate hlabel hnext
    exact hstate.1.step hstate.2 hlabel hnext
  obtain ⟨hsingle, htrace⟩ := hsound
  refine ⟨?_, htrace.returns, ?_⟩
  · intro first second hfirst hsecond
    have hsame := (hsingle.single first).mp hfirst
    rw [(hsingle.single second).mp hsecond] at hsame
    exact (Option.some.inj hsame).symm
  · intro before start middle call now after hsplit hquiet
    exact htrace.logins _ call now after hsplit before start middle rfl hquiet

def sampleConfig : TokenManagerConfig where
  safeDuration := some
  maxRetries := 0
  jitter := 0

/-- A token is refused, and a call that took its `now` earlier still finds it fresh. -/
def deniedSample : List (Label Unit) :=
  [.call 0 1000000000, .enter 0, .login 0 .checkStopped, .login 0 .checkStopped,
    .login 0 .subscribeStop, .login 0 .beginLogin,
    .login 0 (.loginReturns (.ok ⟨"token", 10000000000⟩)), .login 0 (.convert 0 0), .commit 0,
    .signal 0, .onUnauthorizedRetry 1000500000, .call 1 999500000, .enter 1]

theorem undisturbed_deniedSample : ∀ label ∈ deniedSample, label.Undisturbed = true := by
  decide

/-- The state after `deniedSample`. -/
theorem runs_deniedSample : ∃ manager : Manager Unit,
    runSteps (Manager.step sampleConfig) Manager.new deniedSample = some manager ∧ manager.trace =
        [.login 0 1000000000, .issued 0 1000000000 10000000000 ⟨"token", 11000000000⟩,
          .returned 0 1000000000 (.ok ⟨"token", 11000000000⟩), .denied (some 999500000),
          .returned 1 999500000 (.ok ⟨"token", 999500000⟩)] :=
  ⟨_, rfl, rfl⟩

theorem token_manager_single_flight_sample : ∃ manager : Manager Unit,
      runSteps (Manager.step sampleConfig) Manager.new deniedSample = some manager ∧
        Backed (manager.trace.take 4) ⟨"token", 999500000⟩ := by
  obtain ⟨manager, hrun, htrace⟩ := runs_deniedSample
  obtain ⟨-, hreturns, -⟩ :=
    token_manager_single_flight sampleConfig deniedSample undisturbed_deniedSample manager hrun
  refine ⟨manager, hrun, ?_⟩
  rw [htrace]
  exact (hreturns _ 1 999500000 _ [] (by rw [htrace]; rfl)).2

/-- A token is returned with a deadline before its login's `now`. -/
theorem deadline_before_login : ∃ manager : Manager Unit,
    runSteps (Manager.step sampleConfig) Manager.new deniedSample = some manager ∧
      (∀ label ∈ deniedSample, label.Undisturbed = true) ∧
      .returned 1 999500000 (.ok ⟨"token", 999500000⟩) ∈ manager.trace ∧
      ∀ call start ttl issued, .issued call start ttl issued ∈ manager.trace →
        issued.value = "token" → ¬ (start < 999500000 ∧ 999500000 ≤ start + ttl) := by
  obtain ⟨manager, hrun, htrace⟩ := runs_deniedSample
  refine ⟨manager, hrun, undisturbed_deniedSample, by rw [htrace]; decide, ?_⟩
  intro call start ttl issued hissued _
  rw [htrace] at hissued
  simp only [mem_cons, reduceCtorEq, Event.issued.injEq, not_mem_nil, or_false, false_or] at hissued
  obtain ⟨-, rfl, -, -⟩ := hissued
  exact fun hbounds => absurd hbounds.1 (by decide)

end AukiSdk.Machine
