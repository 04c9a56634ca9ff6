import AukiSdk.Transport.TargetedStream

/-!
# Relay progress

The timeouts of stream negotiations on one relay connection.
-/

namespace AukiSdk.Transport

open AukiSdk.Net List Option

/-- The timeouts before an idle period are forgotten. -/
def RelayProgress.resetIdle (progress : RelayProgress) (now : Instant) : RelayProgress :=
  if progress.lastTimeout.any fun last =>
      decide (Instant.durationSince now last > relayTimeoutIdleReset) then
    { progress with firstTimeout := none, timeouts := 0 }
  else
    progress

/-- A call on `RelayProgress`. -/
inductive ProgressCall where
  | succeeded (now : Instant)
  | timedOut (started now : Instant)
  deriving DecidableEq

/-- The answer of a call and the state after it. -/
def RelayProgress.call (progress : RelayProgress) : ProgressCall → Bool × RelayProgress
  | .succeeded now => (false, progress.succeeded now)
  | .timedOut started now => progress.timedOut started now

/-- The state after some calls. -/
def RelayProgress.after (calls : List ProgressCall) : RelayProgress :=
  calls.foldl (fun progress call => (progress.call call).2) .default

/-- The answers of some calls. -/
def RelayProgress.answers (progress : RelayProgress) : List ProgressCall → List Bool
  | [] => []
  | call :: rest => (progress.call call).1 :: (progress.call call).2.answers rest

/-- The success of a call. -/
def ProgressCall.success : ProgressCall → Option Instant
  | .succeeded now => some now
  | .timedOut _ _ => none

/-- The last success of some calls. -/
def lastSuccess (calls : List ProgressCall) : Option Instant :=
  (calls.filterMap ProgressCall.success).getLast?

/-- The request of a timeout started after the last success. -/
def Counts (success : Option Instant) (started : Instant) : Prop :=
  ∀ last ∈ success, last < started

instance (success : Option Instant) (started : Instant) : Decidable (Counts success started) :=
  inferInstanceAs (Decidable (∀ last ∈ success, last < started))

/-- A timeout that counts after the last success. -/
def ProgressCall.counted (success : Option Instant) : ProgressCall → Option Instant
  | .succeeded _ => none
  | .timedOut started now => if Counts success started then some now else none

/-- The timeouts since the last success that count. -/
def countedTimeouts (calls : List ProgressCall) : List Instant :=
  (calls.rtakeWhile fun call => call.success.isNone).filterMap
    (ProgressCall.counted (lastSuccess calls))

/-- Two timeouts without an idle period between them. -/
def Consecutive (earlier later : Instant) : Prop :=
  later.durationSince earlier ≤ relayTimeoutIdleReset

instance : DecidableRel Consecutive := fun earlier later =>
  inferInstanceAs (Decidable (later.durationSince earlier ≤ relayTimeoutIdleReset))

variable (timeouts : List Instant)

/-- The longest run of consecutive timeouts that ends with the last one. -/
def lastRun : List Instant :=
  (timeouts.tails.find? fun run => decide (run.IsChain Consecutive)).getD []

/-- At least three timeouts over at least twenty seconds. -/
def Sustained (run : List Instant) : Prop :=
  relayTimeoutThreshold ≤ run.length ∧
    ∃ first ∈ run.head?, ∃ last ∈ run.getLast?, relayTimeoutWindow ≤ last.durationSince first

/-- Some calls end with a timeout that counts, and the run that ends there is
sustained. -/
def EndsSustained (calls : List ProgressCall) : Prop :=
  ∃ before started now, calls = before ++ [ProgressCall.timedOut started now] ∧
    Counts (lastSuccess before) started ∧ Sustained (lastRun (countedTimeouts calls))

/-- The first calls that end so. -/
def FirstSustained (calls : List ProgressCall) : Prop :=
  EndsSustained calls ∧ ∀ earlier, earlier <+: calls → earlier ≠ calls → ¬ EndsSustained earlier

instance (run : List Instant) : Decidable (Sustained run) :=
  inferInstanceAs (Decidable (_ ∧ _))

theorem lastSuccess_concat (calls : List ProgressCall) (call : ProgressCall) :
    lastSuccess (calls ++ [call]) = call.success.or (lastSuccess calls) := by
  rw [lastSuccess, filterMap_append, lastSuccess]
  cases call with
  | succeeded now => simp [ProgressCall.success]
  | timedOut started now => simp [ProgressCall.success]

theorem countedTimeouts_succeeded (calls : List ProgressCall) (now : Instant) :
    countedTimeouts (calls ++ [ProgressCall.succeeded now]) = [] := by
  rw [countedTimeouts, rtakeWhile_concat_neg]
  · rfl
  · simp [ProgressCall.success]

theorem countedTimeouts_timedOut (calls : List ProgressCall) (started now : Instant) :
    countedTimeouts (calls ++ [ProgressCall.timedOut started now]) =
      countedTimeouts calls ++ if Counts (lastSuccess calls) started then [now] else [] := by
  have hsuc : lastSuccess (calls ++ [ProgressCall.timedOut started now]) = lastSuccess calls := by
    rw [lastSuccess_concat]
    rfl
  rw [countedTimeouts, rtakeWhile_concat_pos _ _ _ (by simp [ProgressCall.success]),
    filterMap_append, hsuc, countedTimeouts]
  congr 1
  by_cases hcou : Counts (lastSuccess calls) started
  · simp [ProgressCall.counted, hcou]
  · simp [ProgressCall.counted, hcou]

theorem lastRun_nil : lastRun [] = [] := rfl

theorem lastRun_cons (first : Instant) (rest : List Instant) : lastRun (first :: rest) =
      if (first :: rest).IsChain Consecutive then first :: rest else lastRun rest := by
  rw [lastRun, tails_cons, find?_cons]
  by_cases hcha : (first :: rest).IsChain Consecutive
  · rw [if_pos hcha, decide_eq_true hcha]
    rfl
  · rw [if_neg hcha, decide_eq_false hcha]
    rfl

theorem isChain_concat_iff {run : List Instant} {now : Instant} :
    (run ++ [now]).IsChain Consecutive ↔
      run.IsChain Consecutive ∧ ∀ last ∈ run.getLast?, Consecutive last now := by
  rw [isChain_append]
  simp

theorem lastRun_concat (now : Instant) : lastRun (timeouts ++ [now]) =
      if ∀ last ∈ timeouts.getLast?, Consecutive last now then lastRun timeouts ++ [now]
      else [now] := by
  induction timeouts with
  | nil =>
    rw [nil_append, lastRun_cons, if_pos (isChain_singleton now), if_pos (by simp),
      lastRun_nil, nil_append]
  | cons first rest ih =>
    rw [cons_append, lastRun_cons, ← cons_append, lastRun_cons]
    by_cases hnear : ∀ last ∈ (first :: rest).getLast?, Consecutive last now
    · rw [if_pos hnear]
      by_cases hcha : (first :: rest).IsChain Consecutive
      · rw [if_pos (isChain_concat_iff.mpr ⟨hcha, hnear⟩), if_pos hcha]
      · rw [if_neg fun hwhl => hcha (isChain_concat_iff.mp hwhl).1, if_neg hcha, ih]
        cases rest with
        | nil => exact absurd (isChain_singleton first) hcha
        | cons second rest => rw [getLast?_cons_cons] at hnear; rw [if_pos hnear]
    · rw [if_neg hnear, if_neg fun hwhl => hnear (isChain_concat_iff.mp hwhl).2, ih]
      cases rest with
      | nil => rw [lastRun_nil, nil_append, ite_self]
      | cons second rest => rw [getLast?_cons_cons] at hnear; rw [if_neg hnear]

theorem getLast?_lastRun : (lastRun timeouts).getLast? = timeouts.getLast? := by
  induction timeouts using List.reverseRecOn with
  | nil => rfl
  | append_singleton timeouts now _ =>
    rw [lastRun_concat]
    split
    · simp
    · simp

/-- The state that some calls leave behind while the relay is not retired. -/
def RelayProgress.summary (calls : List ProgressCall) : RelayProgress where
  lastSuccess := AukiSdk.Transport.lastSuccess calls
  firstTimeout := (lastRun (countedTimeouts calls)).head?
  lastTimeout := (countedTimeouts calls).getLast?
  timeouts := min (lastRun (countedTimeouts calls)).length 255
  closing := false

namespace RelayProgress

theorem summary_succeeded (calls : List ProgressCall) (now : Instant) :
    (summary calls).succeeded now = summary (calls ++ [ProgressCall.succeeded now]) := by
  rw [succeeded, summary, summary, countedTimeouts_succeeded, lastSuccess_concat, lastRun_nil]
  rfl

variable {started : Instant} {progress : RelayProgress}

theorem timedOut_uncounted (calls : List ProgressCall)
    (hsuc : progress.lastSuccess = AukiSdk.Transport.lastSuccess calls)
    (hcou : ¬ Counts (AukiSdk.Transport.lastSuccess calls) started) (now : Instant) :
    progress.timedOut started now = (false, progress) := by
  rw [timedOut, if_pos]
  right
  rw [Counts] at hcou
  push Not at hcou
  obtain ⟨last, hlast, hle⟩ := hcou
  rw [hsuc, mem_def.mp hlast]
  simpa using hle

theorem timedOut_resetIdle (progress : RelayProgress) (started now : Instant) :
    progress.timedOut started now =
      if progress.closing ∨
          progress.lastSuccess.any (fun success => decide (started ≤ success)) then
        (false, progress)
      else
        let progress := progress.resetIdle now
        let first := progress.firstTimeout.getD now
        let progress : RelayProgress := { progress with
          lastTimeout := some now
          timeouts := min (progress.timeouts + 1) 255
          firstTimeout := some first }
        if progress.timeouts ≥ relayTimeoutThreshold ∧
            Instant.durationSince now first ≥ relayTimeoutWindow then
          (true, { progress with closing := true })
        else
          (false, progress) := rfl

/-- What `timed_out` does once it has found the run that ends at this timeout. -/
theorem timedOut_eq {now first : Instant} {run : List Instant} (hopen : progress.closing = false)
    (hcou : Counts progress.lastSuccess started)
    (hfst : (progress.resetIdle now).firstTimeout.getD now = first)
    (hcnt : min ((progress.resetIdle now).timeouts + 1) 255 = min run.length 255)
    (hhead : run.head? = some first) (hlast : run.getLast? = some now) :
    progress.timedOut started now =
      if Sustained run then
        (true, ⟨progress.lastSuccess, some first, some now, min run.length 255, true⟩)
      else
        (false, ⟨progress.lastSuccess, some first, some now, min run.length 255, false⟩) := by
  have hgrd : ¬ (progress.closing = true ∨
      (progress.lastSuccess.any fun success => decide (started ≤ success)) = true) := by
    rw [hopen]
    rintro (hclo | hold)
    · cases hclo
    · obtain ⟨last, hlast, hle⟩ := (any_eq_true _ _).mp hold
      exact absurd (hcou last hlast) (not_lt.mpr (by simpa using hle))
  have hkept : (progress.resetIdle now).lastSuccess = progress.lastSuccess ∧
      (progress.resetIdle now).closing = false := by
    rw [resetIdle]
    split
    · exact ⟨rfl, hopen⟩
    · exact ⟨rfl, hopen⟩
  have hsust : Sustained run ↔ min run.length 255 ≥ relayTimeoutThreshold ∧
      now.durationSince first ≥ relayTimeoutWindow := by
    rw [Sustained, hhead, hlast, relayTimeoutThreshold]
    simp
  simp only [timedOut_resetIdle, if_neg hgrd, hfst, hcnt, hkept.1, hkept.2, ← hsust]

theorem resetIdle_summary (calls : List ProgressCall) (now : Instant) :
    (summary calls).resetIdle now =
      if ∀ last ∈ (countedTimeouts calls).getLast?, Consecutive last now then summary calls
      else { summary calls with firstTimeout := none, timeouts := 0 } := by
  rw [resetIdle]
  by_cases hnear : ∀ last ∈ (countedTimeouts calls).getLast?, Consecutive last now
  · rw [if_pos hnear, if_neg]
    intro hidle
    obtain ⟨last, hf, hgap⟩ := (any_eq_true _ _).mp hidle
    exact absurd (hnear last hf) (not_le.mpr (of_decide_eq_true hgap))
  · rw [if_neg hnear, if_pos]
    push Not at hnear
    obtain ⟨last, hf, hgap⟩ := hnear
    exact (any_eq_true _ _).mpr ⟨last, hf, decide_eq_true (not_le.mp hgap)⟩

/-- The run that a counted timeout ends decides. -/
theorem summary_timedOut {calls : List ProgressCall}
    (hcnt : Counts (AukiSdk.Transport.lastSuccess calls) started) (now : Instant) :
    (summary calls).timedOut started now =
      if Sustained (lastRun (countedTimeouts (calls ++ [ProgressCall.timedOut started now]))) then
        (true, { summary (calls ++ [ProgressCall.timedOut started now]) with closing := true })
      else
        (false, summary (calls ++ [ProgressCall.timedOut started now])) := by
  have hcou : countedTimeouts (calls ++ [ProgressCall.timedOut started now]) =
      countedTimeouts calls ++ [now] := by
    rw [countedTimeouts_timedOut, if_pos hcnt]
  have hrun := lastRun_concat (countedTimeouts calls) now
  rw [← hcou] at hrun
  have hlast : (lastRun (countedTimeouts (calls ++ [ProgressCall.timedOut started now]))).getLast? =
      some now := by
    rw [getLast?_lastRun, hcou, getLast?_concat]
  obtain ⟨first, hhead⟩ : ∃ first,
      (lastRun (countedTimeouts (calls ++ [ProgressCall.timedOut started now]))).head? =
        some first := by
    cases hf : lastRun (countedTimeouts (calls ++ [ProgressCall.timedOut started now])) with
    | nil =>
      rw [hf] at hlast
      cases hlast
    | cons first rest => exact ⟨first, rfl⟩
  have hsum : summary (calls ++ [ProgressCall.timedOut started now]) =
      ⟨AukiSdk.Transport.lastSuccess calls, some first, some now,
        min (lastRun (countedTimeouts (calls ++
          [ProgressCall.timedOut started now]))).length 255, false⟩ := by
    rw [summary, hhead, lastSuccess_concat, ← getLast?_lastRun, hlast]
    rfl
  rw [hsum]
  by_cases hnear : ∀ last ∈ (countedTimeouts calls).getLast?, Consecutive last now
  · rw [if_pos hnear] at hrun
    apply timedOut_eq rfl hcnt _ _ hhead hlast
    · rw [hrun, head?_append] at hhead
      rw [resetIdle_summary, if_pos hnear, summary]
      cases hf : (lastRun (countedTimeouts calls)).head? with
      | none =>
        rw [hf] at hhead
        exact some.inj hhead
      | some found =>
        rw [hf] at hhead
        exact some.inj hhead
    · rw [resetIdle_summary, if_pos hnear, summary, hrun, length_append]
      simp only [length_singleton]
      omega
  · rw [if_neg hnear] at hrun
    apply timedOut_eq rfl hcnt _ _ hhead hlast
    · rw [hrun] at hhead
      rw [resetIdle_summary, if_neg hnear]
      exact some.inj hhead
    · rw [resetIdle_summary, if_neg hnear, hrun]
      rfl

theorem after_concat (calls : List ProgressCall) (call : ProgressCall) :
    after (calls ++ [call]) = ((after calls).call call).2 := by
  rw [after, foldl_append, foldl_cons, foldl_nil, after]

theorem closing_call (hclo : progress.closing = true) (call : ProgressCall) :
    (progress.call call).1 = false ∧ (progress.call call).2.closing = true := by
  cases call with
  | succeeded now => exact ⟨rfl, hclo⟩
  | timedOut started now =>
    rw [call, timedOut, if_pos (.inl hclo)]
    exact ⟨rfl, hclo⟩

theorem closing_of_retired {call : ProgressCall} (hrtd : (progress.call call).1 = true) :
    (progress.call call).2.closing = true := by
  cases call with
  | succeeded now => cases hrtd
  | timedOut started now =>
    simp only [RelayProgress.call, timedOut_resetIdle] at hrtd ⊢
    split at hrtd
    · cases hrtd
    · rename_i hgrd
      rw [if_neg hgrd]
      split at hrtd
      · rename_i hdue
        rw [if_pos hdue]
      · cases hrtd

theorem count_answers (calls : List ProgressCall) (progress : RelayProgress) :
    (progress.answers calls).count true ≤ if progress.closing then 0 else 1 := by
  induction calls generalizing progress with
  | nil => exact Nat.zero_le _
  | cons call rest ih =>
    rw [answers, count_cons]
    have hrest := ih (progress.call call).2
    by_cases hclo : progress.closing = true
    · obtain ⟨hans, hn⟩ := closing_call hclo call
      rw [if_pos hn] at hrest
      rw [if_pos hclo, hans]
      exact hrest
    · rw [if_neg hclo]
      cases hans : (progress.call call).1 with
      | true =>
        rw [if_pos (closing_of_retired hans)] at hrest
        exact Nat.succ_le_succ hrest
      | false =>
        apply hrest.trans
        split
        · exact Nat.zero_le 1
        · exact le_refl 1

end RelayProgress

variable {calls : List ProgressCall}

theorem endsSustained_timedOut {started now : Instant} :
    EndsSustained (calls ++ [ProgressCall.timedOut started now]) ↔
      Counts (lastSuccess calls) started ∧
        Sustained (lastRun (countedTimeouts (calls ++ [ProgressCall.timedOut started now]))) := by
  constructor
  · rintro ⟨before, started', now', heq, hcou, hsust⟩
    obtain ⟨rfl, hlast⟩ := append_inj' heq rfl
    cases hlast
    exact ⟨hcou, hsust⟩
  · rintro ⟨hcou, hsust⟩
    exact ⟨calls, started, now, rfl, hcou, hsust⟩

theorem not_endsSustained_succeeded (calls : List ProgressCall) (now : Instant) :
    ¬ EndsSustained (calls ++ [ProgressCall.succeeded now]) := by
  rintro ⟨before, started, now', heq, -⟩
  obtain ⟨-, hlast⟩ := append_inj' heq rfl
  cases hlast

/-- No call so far ended a sustained run. -/
def Unretired (calls : List ProgressCall) : Prop :=
  ∀ earlier, earlier <+: calls → ¬ EndsSustained earlier

theorem unretired_concat {call : ProgressCall} :
    Unretired (calls ++ [call]) ↔ Unretired calls ∧ ¬ EndsSustained (calls ++ [call]) := by
  constructor
  · intro hall
    exact ⟨fun earlier hpri => hall earlier (hpri.trans (prefix_append _ _)),
      hall _ (prefix_refl _)⟩
  · rintro ⟨hbef, hlast⟩ earlier hpri
    rcases prefix_concat_iff.mp hpri with rfl | hpri
    · exact hlast
    · exact hbef earlier hpri

theorem firstSustained_concat {call : ProgressCall} :
    FirstSustained (calls ++ [call]) ↔ EndsSustained (calls ++ [call]) ∧ Unretired calls := by
  rw [FirstSustained]
  apply and_congr_right
  intro _
  constructor
  · intro hpri earlier hpre
    apply hpri earlier (hpre.trans (prefix_append _ _))
    rintro rfl
    have hlen := hpre.length_le
    rw [length_append, length_singleton] at hlen
    omega
  · intro hbef earlier hpre hne
    rcases prefix_concat_iff.mp hpre with heq | hpre
    · exact absurd heq hne
    · exact hbef earlier hpre

/-- What the state says of the calls before it. -/
structure RelayProgress.Tracks (progress : RelayProgress) (calls : List ProgressCall) : Prop where
  success : progress.lastSuccess = AukiSdk.Transport.lastSuccess calls
  unretired : Unretired calls → progress = summary calls
  retired : ¬ Unretired calls → progress.closing = true

theorem summary_uncounted {started : Instant} (hcou : ¬ Counts (lastSuccess calls) started)
    (now : Instant) :
    RelayProgress.summary (calls ++ [ProgressCall.timedOut started now]) =
      RelayProgress.summary calls := by
  rw [RelayProgress.summary, RelayProgress.summary, countedTimeouts_timedOut, if_neg hcou,
    append_nil, lastSuccess_concat]
  rfl

namespace RelayProgress

theorem Tracks.succeeded {progress : RelayProgress} {calls : List ProgressCall}
    (htra : progress.Tracks calls) (now : Instant) :
    (progress.succeeded now).Tracks (calls ++ [ProgressCall.succeeded now]) := by
  constructor
  · rw [lastSuccess_concat]
    rfl
  · intro hunr
    rw [htra.unretired (unretired_concat.mp hunr).1]
    exact summary_succeeded calls now
  · intro hrtd
    apply htra.retired
    intro hbef
    exact hrtd (unretired_concat.mpr ⟨hbef, not_endsSustained_succeeded calls now⟩)

theorem Tracks.timedOut {progress : RelayProgress} {calls : List ProgressCall}
    (htra : progress.Tracks calls) (started now : Instant) :
    ((progress.timedOut started now).1 = true ↔
      FirstSustained (calls ++ [ProgressCall.timedOut started now])) ∧
    (progress.timedOut started now).2.Tracks (calls ++ [ProgressCall.timedOut started now]) := by
  rw [firstSustained_concat, endsSustained_timedOut]
  have hsuc : AukiSdk.Transport.lastSuccess (calls ++ [ProgressCall.timedOut started now]) =
      AukiSdk.Transport.lastSuccess calls := by
    rw [lastSuccess_concat]
    rfl
  by_cases hunr : Unretired calls
  · rw [htra.unretired hunr]
    by_cases hcou : Counts (AukiSdk.Transport.lastSuccess calls) started
    · rw [summary_timedOut hcou]
      by_cases hsust : Sustained (lastRun (countedTimeouts (calls ++
          [ProgressCall.timedOut started now])))
      · rw [if_pos hsust]
        refine ⟨⟨fun _ => ⟨⟨hcou, hsust⟩, hunr⟩, fun _ => rfl⟩, rfl, ?_, fun _ => rfl⟩
        intro hlat
        exact absurd (endsSustained_timedOut.mpr ⟨hcou, hsust⟩)
          (unretired_concat.mp hlat).2
      · rw [if_neg hsust]
        refine ⟨⟨(fun hrtd => by cases hrtd), fun hfst => absurd hfst.1.2 hsust⟩,
          rfl, fun _ => rfl, ?_⟩
        intro hrtd
        exact absurd (unretired_concat.mpr ⟨hunr, fun hends =>
          hsust (endsSustained_timedOut.mp hends).2⟩) hrtd
    · rw [timedOut_uncounted calls rfl hcou]
      refine ⟨⟨(fun hrtd => by cases hrtd), fun hfst => absurd hfst.1.1 hcou⟩,
        hsuc.symm, fun _ => (summary_uncounted hcou now).symm, ?_⟩
      intro hrtd
      exact absurd (unretired_concat.mpr ⟨hunr, fun hends =>
        hcou (endsSustained_timedOut.mp hends).1⟩) hrtd
  · have hclo := htra.retired hunr
    have hsm : progress.timedOut started now = (false, progress) := by
      rw [RelayProgress.timedOut, if_pos (.inl hclo)]
    rw [hsm]
    refine ⟨⟨(fun hrtd => by cases hrtd), fun hfst => absurd hfst.2 hunr⟩,
      htra.success.trans hsuc.symm, ?_, fun _ => hclo⟩
    intro hlat
    exact absurd (unretired_concat.mp hlat).1 hunr

theorem tracks_after (calls : List ProgressCall) : (after calls).Tracks calls := by
  induction calls using List.reverseRecOn with
  | nil =>
    have hnone : Unretired [] := by
      rintro earlier hpri ⟨before, started, now, heq, -⟩
      rw [prefix_nil.mp hpri] at heq
      simp at heq
    exact ⟨rfl, fun _ => rfl, fun hrtd => absurd hnone hrtd⟩
  | append_singleton calls call ih =>
    rw [after_concat]
    cases call with
    | succeeded now => exact ih.succeeded now
    | timedOut started now => exact (ih.timedOut started now).2

end RelayProgress

/-- Only the first timeout that ends a sustained run is answered with a retirement. -/
theorem relay_progress_retirement_rule (calls : List ProgressCall) :
    (RelayProgress.default.answers calls).count true ≤ 1 ∧
    (∀ before started now after, calls = before ++ ProgressCall.timedOut started now :: after →
      (((RelayProgress.after before).timedOut started now).1 = true ↔
        FirstSustained (before ++ [ProgressCall.timedOut started now]))) ∧
    ∀ before started now after, calls = before ++ ProgressCall.timedOut started now :: after →
      (∃ last ∈ lastSuccess before, started ≤ last) →
      (RelayProgress.after before).timedOut started now = (false, RelayProgress.after before) := by
  refine ⟨RelayProgress.count_answers calls .default, ?_, ?_⟩
  · intro before started now after _
    exact ((RelayProgress.tracks_after before).timedOut started now).1
  · rintro before started now after - ⟨last, hlast, hle⟩
    apply RelayProgress.timedOut_uncounted before (RelayProgress.tracks_after before).success
    intro hcounts
    exact absurd (hcounts last hlast) (not_lt.mpr hle)

example : RelayProgress.default.answers ([0, 10, 20].map fun seconds =>
    .timedOut 0 (Duration.fromSecs seconds)) = [false, false, true] := by
  decide +kernel

end AukiSdk.Transport
