import AukiSdk.Machine.SingleFlight

/-!
# Stop as a fence

A `stop` that takes the state after the last login seals the manager.
-/

namespace AukiSdk.Machine

open AukiSdk.Foundation List Function Option
open AukiSdk.Net

variable {Failure : Type}

/-- The call will not look at the stop flag again before it may succeed. -/
def CallPhase.pastCheck : CallPhase Failure → Bool
  | .checked _ _ => true
  | .armed _ _ _ => true
  | .loggingIn _ _ _ => true
  | .received _ _ _ => true
  | .reauthed _ (.ok _) => true
  | .signalling _ _ (.ok _) => true
  | _ => false

/-- The phases of a `stop` after it has taken the state. -/
def StopPhase.Cleared : StopPhase → Bool
  | .signalling _ => true
  | .joining => true
  | .awaiting => true
  | _ => false

/-- A login request, or a token handed out. -/
def Event.Serves : Event Failure → Bool
  | .login _ _ => true
  | .returned _ _ (.ok _) => true
  | _ => false

/-- `stop` has returned and `start_bg` has not been called since. -/
def StopWindow (trace : List (Event Failure)) : Prop :=
  ∃ before after, trace = before ++ .stopReturned :: after ∧ .bgStarted ∉ after

theorem StopWindow.of_append {trace : List (Event Failure)} {event : Event Failure}
    (hwin : StopWindow (trace ++ [event])) :
    event = .stopReturned ∨ event ≠ .bgStarted ∧ StopWindow trace := by
  obtain ⟨before, after, hsp, hbgn⟩ := hwin
  obtain ⟨-, hf, -⟩ | ⟨rest, rfl, hrest⟩ := concat_eq_append_cons hsp
  · exact .inl hf.symm
  · rw [mem_append, not_or] at hbgn
    exact .inr ⟨fun heq => hbgn.2 (by simp [heq]), before, rest, hrest, hbgn.1⟩

/-- In every such window nothing is served. -/
def WindowsQuiet (trace : List (Event Failure)) : Prop :=
  ∀ before after, trace = before ++ .stopReturned :: after → .bgStarted ∉ after →
    ∀ event ∈ after, event.Serves = false

theorem WindowsQuiet.append {trace : List (Event Failure)} {event : Event Failure}
    (hqui : WindowsQuiet trace)
    (hev : event ≠ .bgStarted → StopWindow trace → event.Serves = false) :
    WindowsQuiet (trace ++ [event]) := by
  intro before after hsp hbgn found hf
  obtain ⟨rfl, -, -⟩ | ⟨rest, rfl, hrest⟩ := concat_eq_append_cons hsp
  · cases hf
  · rw [mem_append, not_or] at hbgn
    rw [mem_append, mem_singleton] at hf
    obtain hpri | rfl := hf
    · exact hqui before rest hrest hbgn.1 found hpri
    · exact hev (fun heq => hbgn.2 (by simp [heq])) ⟨before, rest, hrest, hbgn.1⟩

theorem CallPhase.advance_stopped {config : TokenManagerConfig} {call : ℕ}
    {phase next : CallPhase Failure} {action : LoginAction Failure}
    {events : List (Event Failure)} (hp : phase.pastCheck = false)
    (hadv : phase.advance config true call action = some (next, events)) :
    next.pastCheck = false ∧ events = [] := by
  unfold CallPhase.advance at hadv
  split at hadv
  · cases hadv
    exact ⟨rfl, rfl⟩
  · cases hadv
    exact ⟨rfl, rfl⟩
  · cases hp
  · cases hp
  · cases hp
  · cases hp
  · cases hp
  · cases hp
  · cases hp
  · cases hadv
    exact ⟨rfl, rfl⟩
  · cases hadv

namespace Manager

def pastCheck (manager : Manager Failure) (call : ℕ) : Bool :=
  (manager.calls call).any CallPhase.pastCheck

/-- `stop` takes the state after the last login, and no `start_bg` meets it. -/
def StopsAlone (manager : Manager Failure) : Label Failure → Prop
  | .stopClear _ => ∀ call, manager.pastCheck call = false
  | .startBg => ∀ stop phase, manager.stops stop = some phase → phase = .returned
  | _ => True

/-- Nothing can succeed and nothing is held. -/
structure Sealed (manager : Manager Failure) : Prop where
  stopped : manager.stopped = true
  token : manager.state.token = none
  pastCheck : ∀ call, manager.pastCheck call = false

/-- A `stop` has taken the state and `start_bg` has not been called since. -/
def Closing (manager : Manager Failure) : Prop :=
  (∃ stop phase, manager.stops stop = some phase ∧ phase.Cleared = true) ∨
    StopWindow manager.trace

structure Fenced (manager : Manager Failure) : Prop where
  flagged : ∀ stop phase, manager.stops stop = some phase → phase ≠ .returned →
    manager.stopped = true
  closing : manager.Closing → manager.Sealed
  quiet : WindowsQuiet manager.trace

variable {manager : Manager Failure}

@[simp]
theorem pastCheck_setCall (call other : ℕ) (phase : CallPhase Failure) :
    (manager.setCall call phase).pastCheck other =
      if other = call then phase.pastCheck else manager.pastCheck other := by
  rw [pastCheck, setCall]
  by_cases ho : other = call
  · rw [ho]
    simp
  · simp [ho, pastCheck]

theorem pastCheck_of_call {call : ℕ} {phase : CallPhase Failure}
    (hc : manager.calls call = some phase) : manager.pastCheck call = phase.pastCheck := by
  rw [pastCheck, hc, any_some]

theorem pastCheck_notifyWaiters (taken : Option ℕ) (call : ℕ) :
    (manager.notifyWaiters taken).pastCheck call = manager.pastCheck call := by
  cases taken with
  | none => rfl
  | some notify =>
    simp only [pastCheck, notifyWaiters]
    rcases manager.calls call with _ | phase
    · rfl
    · cases phase <;> simp only [map_some, any_some, CallPhase.notified]
      split <;> rfl

namespace Sealed

theorem setCall (hseal : manager.Sealed) {call : ℕ} {phase : CallPhase Failure}
    (hp : phase.pastCheck = false) : (manager.setCall call phase).Sealed := by
  refine ⟨hseal.stopped, hseal.token, ?_⟩
  intro other
  rw [pastCheck_setCall]
  split
  · exact hp
  · exact hseal.pastCheck other

theorem notifyWaiters (hseal : manager.Sealed) (taken : Option ℕ) :
    (manager.notifyWaiters taken).Sealed := by
  refine ⟨?_, ?_, ?_⟩
  · cases taken <;> exact hseal.stopped
  · rw [state_notifyWaiters]
    exact hseal.token
  · intro call
    rw [pastCheck_notifyWaiters]
    exact hseal.pastCheck call

theorem enter (hseal : manager.Sealed) (call : ℕ) (now : Instant) :
    manager.enter call now = manager.finish call now (.error .stopped) := by
  rw [Manager.enter, if_pos hseal.stopped]

theorem commit (hseal : manager.Sealed) {call : ℕ} {now : Instant}
    {result : Except (TokenManagerError Failure) TokenEntry}
    (hc : manager.calls call = some (.reauthed now result)) :
    (manager.commit call now result).Sealed ∧
      (manager.commit call now result).trace = manager.trace ++ [.failed now] := by
  have hp := hseal.pastCheck call
  rw [pastCheck_of_call hc] at hp
  cases result with
  | ok entry => cases hp
  | error error =>
    refine ⟨⟨hseal.stopped, hseal.token, ?_⟩, rfl⟩
    intro other
    rw [Manager.commit]
    change (Manager.setCall _ call _).pastCheck other = false
    rw [pastCheck_setCall]
    split
    · rfl
    · exact hseal.pastCheck other

theorem stopNotify (hseal : manager.Sealed) :
    ({ manager with calls := fun call => (manager.calls call).map CallPhase.stopNotified }
      ).Sealed := by
  refine ⟨hseal.stopped, hseal.token, ?_⟩
  intro call
  rw [← hseal.pastCheck call, Manager.pastCheck, Manager.pastCheck, Option.any_map]
  apply congrArg (Option.any · (manager.calls call))
  funext phase
  cases phase <;> rfl

/-- Every step but `start_bg` keeps a sealed manager sealed and serves nothing. -/
theorem step {config : TokenManagerConfig} {label : Label Failure} {next : Manager Failure}
    (hseal : manager.Sealed) (hlbl : label ≠ .startBg)
    (hs : manager.step config label = some next) :
    next.Sealed ∧ (next.trace = manager.trace ∨
      ∃ event, event.Serves = false ∧ next.trace = manager.trace ++ [event]) := by
  cases label with
  | call call now =>
    rw [Manager.step] at hs
    split at hs
    · cases hs
      exact ⟨hseal.setCall rfl, .inl rfl⟩
    · cases hs
  | enter call =>
    rw [Manager.step] at hs
    split at hs
    · rename_i now hc
      cases hs
      rw [hseal.enter]
      have hset : (manager.setCall call (.returned now (.error .stopped))).Sealed :=
        hseal.setCall rfl
      exact ⟨⟨hset.stopped, hset.token, hset.pastCheck⟩, .inr ⟨_, rfl, rfl⟩⟩
    · cases hs
  | subscribe call =>
    rw [Manager.step] at hs
    split at hs
    · cases hs
      exact ⟨hseal.setCall rfl, .inl rfl⟩
    · cases hs
  | login call action =>
    simp only [Manager.step, bind_eq_bind, bind_eq_some_iff, Option.pure_def, some.injEq] at hs
    obtain ⟨phase, hc, ⟨moved, events⟩, hadv, rfl⟩ := hs
    have hp := hseal.pastCheck call
    rw [pastCheck_of_call hc] at hp
    rw [hseal.stopped] at hadv
    obtain ⟨hmov, rfl⟩ := CallPhase.advance_stopped hp hadv
    have hset : (manager.setCall call moved).Sealed := hseal.setCall hmov
    exact ⟨⟨hset.stopped, hset.token, hset.pastCheck⟩, .inl (append_nil _)⟩
  | commit call =>
    rw [Manager.step] at hs
    split at hs
    · rename_i now result hc
      cases hs
      obtain ⟨hcom, htr⟩ := hseal.commit hc
      exact ⟨hcom, .inr ⟨_, rfl, htr⟩⟩
    · cases hs
  | signal call =>
    rw [Manager.step] at hs
    split at hs
    · rename_i now taken result hc
      cases hs
      have hp := hseal.pastCheck call
      rw [pastCheck_of_call hc] at hp
      have hset : ((manager.notifyWaiters taken).setCall call (.returned now result)).Sealed :=
        (hseal.notifyWaiters taken).setCall rfl
      refine ⟨⟨hset.stopped, hset.token, hset.pastCheck⟩, .inr ⟨.returned call now result, ?_, ?_⟩⟩
      · cases result with
        | ok entry => cases hp
        | error error => rfl
      · rw [finish, record, Manager.setCall, trace_notifyWaiters]
    · cases hs
  | drop call =>
    simp only [Manager.step, bind_eq_bind, bind_eq_some_iff, Option.pure_def]
      at hs
    obtain ⟨phase, hc, hdrop⟩ := hs
    split at hdrop
    · cases hdrop
      exact ⟨hseal.setCall rfl, .inl rfl⟩
    · cases hdrop
  | clear =>
    cases hs
    exact ⟨⟨hseal.stopped, rfl, hseal.pastCheck⟩, .inr ⟨_, rfl, rfl⟩⟩
  | onUnauthorizedRetry clock =>
    cases hs
    refine ⟨⟨hseal.stopped, ?_, hseal.pastCheck⟩, .inr ⟨_, rfl, rfl⟩⟩
    change manager.state.token.map _ = none
    rw [hseal.token, map_none]
  | stop stop =>
    rw [Manager.step] at hs
    split at hs
    · cases hs
      exact ⟨⟨rfl, hseal.token, hseal.pastCheck⟩, .inl rfl⟩
    · cases hs
  | stopNotify stop =>
    rw [Manager.step] at hs
    split at hs
    · cases hs
      have hnot := hseal.stopNotify
      exact ⟨⟨hnot.stopped, hnot.token, hnot.pastCheck⟩, .inl rfl⟩
    · cases hs
  | stopClear stop =>
    rw [Manager.step] at hs
    split at hs
    · cases hs
      exact ⟨⟨hseal.stopped, rfl, hseal.pastCheck⟩, .inl rfl⟩
    · cases hs
  | stopSignal stop =>
    rw [Manager.step] at hs
    split at hs
    · rename_i taken hsignalling
      cases hs
      have hnot := hseal.notifyWaiters taken
      exact ⟨⟨hnot.stopped, hnot.token, hnot.pastCheck⟩, .inl (trace_notifyWaiters taken)⟩
    · cases hs
  | stopJoin stop =>
    rw [Manager.step] at hs
    split at hs
    · cases hs
      exact ⟨⟨hseal.stopped, hseal.token, hseal.pastCheck⟩, .inl rfl⟩
    · cases hs
  | stopReturn stop =>
    rw [Manager.step] at hs
    split at hs
    · cases hs
      exact ⟨⟨hseal.stopped, hseal.token, hseal.pastCheck⟩, .inr ⟨_, rfl, rfl⟩⟩
    · cases hs
  | startBg => exact absurd rfl hlbl

end Sealed

/-- Not a step of a `stop` call, nor `start_bg`. -/
def ofCalls : Label Failure → Bool
  | .stop _ => false
  | .stopNotify _ => false
  | .stopClear _ => false
  | .stopSignal _ => false
  | .stopJoin _ => false
  | .stopReturn _ => false
  | .startBg => false
  | _ => true

/-- At most one event is recorded, none about `stop` or `start_bg`. -/
def Records (manager next : Manager Failure) : Prop :=
  next.trace = manager.trace ∨
    ∃ event, event ≠ .stopReturned ∧ event ≠ .bgStarted ∧ next.trace = manager.trace ++ [event]

theorem join_frame (call : ℕ) (now : Instant) : (manager.join call now).stops = manager.stops ∧
      (manager.join call now).stopped = manager.stopped := by
  unfold join
  split <;> exact ⟨rfl, rfl⟩

theorem enter_frame (call : ℕ) (now : Instant) : (manager.enter call now).stops = manager.stops ∧
      (manager.enter call now).stopped = manager.stopped ∧
      manager.Records (manager.enter call now) := by
  unfold enter
  split
  · exact ⟨rfl, rfl, .inr ⟨_, by simp, by simp, rfl⟩⟩
  · split
    · exact ⟨rfl, rfl, .inr ⟨_, by simp, by simp, rfl⟩⟩
    · split
      · exact ⟨(join_frame call now).1, (join_frame call now).2, .inl (trace_join call now)⟩
      · split
        · exact ⟨rfl, rfl, .inr ⟨_, by simp, by simp, rfl⟩⟩
        · exact ⟨(join_frame call now).1, (join_frame call now).2, .inl (trace_join call now)⟩

/-- The steps of calls leave `stop` and its flag alone. -/
theorem step_ofCalls {config : TokenManagerConfig} {label : Label Failure}
    {next : Manager Failure} (hlbl : ofCalls label = true)
    (hs : manager.step config label = some next) :
    next.stops = manager.stops ∧ next.stopped = manager.stopped ∧ manager.Records next := by
  cases label with
  | call call now =>
    rw [Manager.step] at hs
    split at hs <;> cases hs
    exact ⟨rfl, rfl, .inl rfl⟩
  | enter call =>
    rw [Manager.step] at hs
    split at hs <;> cases hs
    exact enter_frame call _
  | subscribe call =>
    rw [Manager.step] at hs
    split at hs <;> cases hs
    exact ⟨rfl, rfl, .inl rfl⟩
  | login call action =>
    simp only [Manager.step, bind_eq_bind, bind_eq_some_iff, Option.pure_def, some.injEq] at hs
    obtain ⟨phase, hc, ⟨moved, events⟩, hadv, rfl⟩ := hs
    obtain ⟨now, -, -, ⟨-, rfl | rfl⟩ | ⟨ttl, entry, -, rfl, -⟩⟩ := CallPhase.advance_cases hadv
    · exact ⟨rfl, rfl, .inl (append_nil _)⟩
    · exact ⟨rfl, rfl, .inr ⟨_, by simp, by simp, rfl⟩⟩
    · exact ⟨rfl, rfl, .inr ⟨_, by simp, by simp, rfl⟩⟩
  | commit call =>
    rw [Manager.step] at hs
    split at hs
    · rename_i now result hc
      cases hs
      cases result with
      | ok entry => exact ⟨rfl, rfl, .inl rfl⟩
      | error error => exact ⟨rfl, rfl, .inr ⟨_, by simp, by simp, rfl⟩⟩
    · cases hs
  | signal call =>
    rw [Manager.step] at hs
    split at hs
    · rename_i now taken result hc
      cases hs
      refine ⟨?_, ?_, .inr ⟨.returned call now result, by simp, by simp, ?_⟩⟩
      · cases taken <;> rfl
      · cases taken <;> rfl
      · rw [finish, record, setCall, trace_notifyWaiters]
    · cases hs
  | drop call =>
    simp only [Manager.step, bind_eq_bind, bind_eq_some_iff, Option.pure_def]
      at hs
    obtain ⟨phase, hc, hdrop⟩ := hs
    split at hdrop <;> cases hdrop
    exact ⟨rfl, rfl, .inl rfl⟩
  | clear =>
    cases hs
    exact ⟨rfl, rfl, .inr ⟨_, by simp, by simp, rfl⟩⟩
  | onUnauthorizedRetry clock =>
    cases hs
    exact ⟨rfl, rfl, .inr ⟨_, by simp, by simp, rfl⟩⟩
  | stop stop => cases hlbl
  | stopNotify stop => cases hlbl
  | stopClear stop => cases hlbl
  | stopSignal stop => cases hlbl
  | stopJoin stop => cases hlbl
  | stopReturn stop => cases hlbl
  | startBg => cases hlbl

namespace Fenced

variable {next : Manager Failure}

/-- A step in which a `stop` moves on and records nothing. -/
theorem of_stop (hfen : manager.Fenced) {stop : ℕ} {phase : StopPhase}
    (hsto : next.stops = Function.update manager.stops stop (some phase))
    (hstp : next.stopped = true) (htr : next.trace = manager.trace)
    (hclr : phase.Cleared = true → next.Sealed) (hseal : manager.Sealed → next.Sealed) :
    next.Fenced where
  flagged _ _ _ _ := hstp
  closing hclo := by
    obtain ⟨other, found, hf, hp⟩ | hwin := hclo
    · rw [hsto] at hf
      by_cases hsm : other = stop
      · rw [hsm, update_self] at hf
        cases hf
        exact hclr hp
      · rw [update_of_ne hsm] at hf
        exact hseal (hfen.closing (.inl ⟨other, found, hf, hp⟩))
    · rw [htr] at hwin
      exact hseal (hfen.closing (.inr hwin))
  quiet := by
    rw [htr]
    exact hfen.quiet

theorem of_calls {config : TokenManagerConfig} {label : Label Failure} (hfen : manager.Fenced)
    (hlbl : ofCalls label = true) (hs : manager.step config label = some next) :
    next.Fenced := by
  obtain ⟨hsto, hstp, hrecs⟩ := step_ofCalls hlbl hs
  have hbeg : label ≠ .startBg := fun heq => by rw [heq] at hlbl; cases hlbl
  have hback : StopWindow next.trace → StopWindow manager.trace := by
    intro hwin
    obtain hsm | ⟨event, hne, -, htr⟩ := hrecs
    · rwa [hsm] at hwin
    · rw [htr] at hwin
      obtain heq | ⟨-, hpri⟩ := hwin.of_append
      · exact absurd heq hne
      · exact hpri
  refine ⟨?_, ?_, ?_⟩
  · rw [hsto, hstp]
    exact hfen.flagged
  · intro hclo
    have hpre : manager.Closing := by
      obtain hstop | hwin := hclo
      · rw [hsto] at hstop
        exact .inl hstop
      · exact .inr (hback hwin)
    exact ((hfen.closing hpre).step hbeg hs).1
  · obtain hsm | ⟨event, -, -, htr⟩ := hrecs
    · rw [hsm]
      exact hfen.quiet
    · rw [htr]
      apply hfen.quiet.append
      intro _ hwin
      obtain ⟨-, hunch | ⟨found, hf, hrec⟩⟩ := (hfen.closing (.inr hwin)).step hbeg hs
      · rw [htr] at hunch
        simp at hunch
      · rw [htr] at hrec
        rw [singleton_inj.mp (append_cancel_left hrec)]
        exact hf

theorem startBg (hfen : manager.Fenced)
    (halo : ∀ stop phase, manager.stops stop = some phase → phase = .returned) :
    manager.startBg.Fenced := by
  have hsto : manager.startBg.stops = manager.stops := by
    unfold Manager.startBg
    split <;> rfl
  have htr : manager.startBg.trace = manager.trace ++ [.bgStarted] := by
    unfold Manager.startBg
    split <;> rfl
  refine ⟨?_, ?_, ?_⟩
  · intro stop phase hp hne
    rw [hsto] at hp
    exact absurd (halo stop phase hp) hne
  · rintro (⟨stop, phase, hp, hclr⟩ | hwin)
    · rw [hsto] at hp
      rw [halo stop phase hp] at hclr
      cases hclr
    · rw [htr] at hwin
      obtain heq | ⟨hne, -⟩ := hwin.of_append
      · cases heq
      · exact absurd rfl hne
  · rw [htr]
    exact hfen.quiet.append fun hne => absurd rfl hne

theorem stopReturn (hfen : manager.Fenced) {stop : ℕ}
    (hstop : manager.stops stop = some .awaiting) :
    ((manager.setStop stop .returned).record [.stopReturned]).Fenced := by
  have hseal : manager.Sealed := hfen.closing (.inl ⟨stop, _, hstop, rfl⟩)
  refine ⟨?_, fun _ => ⟨hseal.stopped, hseal.token, hseal.pastCheck⟩, ?_⟩
  · intro other phase _ _
    exact hseal.stopped
  · exact hfen.quiet.append fun _ _ => rfl

theorem step {config : TokenManagerConfig} {label : Label Failure} (hfen : manager.Fenced)
    (halo : manager.StopsAlone label) (hs : manager.step config label = some next) :
    next.Fenced := by
  by_cases hcls : ofCalls label = true
  · exact hfen.of_calls hcls hs
  have hkept : label ≠ .startBg → manager.Sealed → next.Sealed :=
    fun hlbl hseal => (hseal.step hlbl hs).1
  cases label with
  | stop stop =>
    rw [Manager.step] at hs
    split at hs <;> cases hs
    exact hfen.of_stop rfl rfl rfl (fun hclr => by cases hclr) (hkept (by simp))
  | stopNotify stop =>
    rw [Manager.step] at hs
    split at hs
    · rename_i hfla
      cases hs
      exact hfen.of_stop rfl (hfen.flagged stop _ hfla (by simp)) rfl
        (fun hclr => by cases hclr) (hkept (by simp))
    · cases hs
  | stopClear stop =>
    rw [Manager.step] at hs
    split at hs
    · rename_i hnot
      cases hs
      have hstp := hfen.flagged stop _ hnot (by simp)
      exact hfen.of_stop rfl hstp rfl (fun _ => ⟨hstp, rfl, halo⟩)
        (hkept (by simp))
    · cases hs
  | stopSignal stop =>
    rw [Manager.step] at hs
    split at hs
    · rename_i taken hsig
      cases hs
      have hseal : manager.Sealed := hfen.closing (.inl ⟨stop, _, hsig, rfl⟩)
      have hn := hkept (by simp) hseal
      have hsto : ((manager.notifyWaiters taken).setStop stop .joining).stops =
          Function.update manager.stops stop (some .joining) := by
        cases taken <;> rfl
      exact hfen.of_stop hsto hn.stopped (trace_notifyWaiters taken) (fun _ => hn)
        fun _ => hn
    · cases hs
  | stopJoin stop =>
    rw [Manager.step] at hs
    split at hs
    · rename_i hjoi
      cases hs
      have hseal : manager.Sealed := hfen.closing (.inl ⟨stop, _, hjoi, rfl⟩)
      have hn := hkept (by simp) hseal
      exact hfen.of_stop rfl hn.stopped rfl (fun _ => hn) fun _ => hn
    · cases hs
  | stopReturn stop =>
    rw [Manager.step] at hs
    split at hs
    · rename_i hawait
      cases hs
      exact hfen.stopReturn hawait
    · cases hs
  | startBg =>
    cases hs
    exact hfen.startBg halo
  | _ => exact absurd rfl hcls

theorem new : (@Manager.new Failure).Fenced where
  flagged _ _ hp := by cases hp
  closing hclo := by
    obtain ⟨_, _, hp, -⟩ | ⟨before, after, hsp, -⟩ := hclo
    · cases hp
    · cases before <;> cases hsp
  quiet before after hsp := by cases before <;> cases hsp

end Fenced

end Manager

/-- From `stop` to the next `start_bg` the manager holds no token. -/
theorem token_manager_stop_fences (config : TokenManagerConfig)
    (labels : List (Label Failure)) (manager : Manager Failure)
    (hguard : GuardedRun (Manager.step config) Manager.new Manager.StopsAlone labels)
    (hrun : runSteps (Manager.step config) Manager.new labels = some manager)
    (before after : List (Event Failure))
    (hstopped : manager.trace = before ++ .stopReturned :: after)
    (hbg : .bgStarted ∉ after) :
    manager.state.token = none ∧ (∀ call now entry, .returned call now (.ok entry) ∉ after) ∧
      ∀ call now, .login call now ∉ after := by
  have hfenced : manager.Fenced := by
    refine invariant_of_guardedRun Manager.Fenced.new ?_ hguard hrun
    intro state label next hstate halone hnext
    exact hstate.step halone hnext
  have hquiet := hfenced.quiet before after hstopped hbg
  refine ⟨(hfenced.closing (.inr ⟨before, after, hstopped, hbg⟩)).token, ?_, ?_⟩
  · intro call now entry hmem
    cases hquiet _ hmem
  · intro call now hmem
    cases hquiet _ hmem

/-- A call that meets a `stop` before it takes the lock. -/
def stopSample : List (Label Unit) :=
  [.call 0 5, .stop 0, .stopNotify 0, .stopClear 0, .stopSignal 0, .stopJoin 0, .stopReturn 0,
    .enter 0]

theorem guarded_stopSample :
    GuardedRun (Manager.step sampleConfig) Manager.new Manager.StopsAlone stopSample := by
  refine GuardedRun.cons trivial fun _ hc => ?_
  cases hc
  refine GuardedRun.cons trivial fun _ hstop => ?_
  cases hstop
  refine GuardedRun.cons trivial fun _ hntf => ?_
  cases hntf
  refine GuardedRun.cons (fun call => by cases call <;> rfl) fun _ hcle => ?_
  cases hcle
  refine GuardedRun.cons trivial fun _ hsig => ?_
  cases hsig
  refine GuardedRun.cons trivial fun _ hjoin => ?_
  cases hjoin
  refine GuardedRun.cons trivial fun _ hret => ?_
  cases hret
  refine GuardedRun.cons trivial fun _ henter => ?_
  exact GuardedRun.nil _ _ _

theorem token_manager_stop_fences_sample : ∃ manager : Manager Unit,
    runSteps (Manager.step sampleConfig) Manager.new stopSample = some manager ∧
      manager.state.token = none ∧
      manager.trace = [.stopReturned, .returned 0 5 (.error .stopped)] := by
  refine ⟨_, rfl, ?_, rfl⟩
  exact (token_manager_stop_fences sampleConfig stopSample _ guarded_stopSample rfl []
    [.returned 0 5 (.error .stopped)] rfl (by simp)).1

/-- A login that ended before `stop` took the state, and writes its token after. -/
def lateWrite : List (Label Unit) :=
  [.call 0 5, .enter 0, .login 0 .checkStopped, .login 0 .checkStopped, .login 0 .subscribeStop,
    .login 0 .beginLogin, .login 0 (.loginReturns (.ok ⟨"token", 10⟩)), .login 0 (.convert 0 0),
    .stop 0, .stopNotify 0, .stopClear 0, .stopSignal 0, .stopJoin 0, .stopReturn 0,
    .commit 0, .signal 0]

theorem late_write_after_stop : ∃ manager : Manager Unit,
    runSteps (Manager.step sampleConfig) Manager.new lateWrite = some manager ∧
      manager.state.token = some ⟨"token", 15⟩ ∧
      ∃ before, manager.trace = before ++ [.stopReturned, .returned 0 5 (.ok ⟨"token", 15⟩)] :=
  ⟨_, rfl, rfl, [.login 0 5, .issued 0 5 10 ⟨"token", 15⟩], by decide⟩

end AukiSdk.Machine
