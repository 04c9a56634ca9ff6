import AukiSdk.Logs.LogRun

/-!
# Rejected appends

An append closes its segment before it knows whether the next can be created.
-/

namespace AukiSdk.Logs

open AukiSdk.Foundation List
open Std (ExtTreeMap)

variable {T : Type}

/-- The timestamp is in the open window, or its segment has no file yet. -/
def Log.Accepts (codec : LogPayload T) (log : Log) (timestampNs : I64) (payload : T) : Prop :=
  0 ≤ timestampNs.value ∧ (codec.encode payload).length < 2 ^ 32 ∧
    ((∃ cur ∈ log.current, cur.startNs ≤ timestampNs.value ∧ timestampNs.value < cur.endNs) ∨
      segmentFilename (windowStart log.segmentDurationNs timestampNs.value) ∉ log.dir)

theorem rollover_ok_iff (log : Log) (timestampNs : ℤ) :
    (∃ next, log.rollover timestampNs = (.ok (), next)) ↔
      (∃ cur ∈ log.current, cur.startNs ≤ timestampNs ∧ timestampNs < cur.endNs) ∨
      segmentFilename (windowStart log.segmentDurationNs timestampNs) ∉ log.dir := by
  rcases rollover_cases log timestampNs with
    ⟨cur, hcur, hlow, hupp, hsm⟩ | ⟨-, habs, started, -, hsm⟩ |
    ⟨hnew, hexi, hfail⟩
  · exact iff_of_true ⟨log, hsm⟩ (Or.inl ⟨cur, hcur, hlow, hupp⟩)
  · exact iff_of_true ⟨started, hsm⟩ (Or.inr habs)
  · refine iff_of_false ?_ ?_
    · rintro ⟨next, hn⟩
      rw [hfail] at hn
      cases hn
    · rintro (⟨cur, hcur, hlow, hupp⟩ | habs)
      · have hcurrent : log.current = some cur := hcur
        rw [Log.needsNew, hcurrent] at hnew
        simp only [Bool.or_eq_true, decide_eq_true_eq] at hnew
        omega
      · exact habs hexi

section Acceptance

variable {codec : LogPayload T} {log : Log} {remaining : List (ℤ × Entry T)}

theorem LogInvariant.append_ok_iff (hlog : LogInvariant codec log remaining) (timestampNs : I64)
    (payload : T) :
    (log.append codec timestampNs payload).1 = .ok () ↔ log.Accepts codec timestampNs payload := by
  constructor
  · intro hok
    rcases hlog.append_cases timestampNs payload with
      ⟨error, next, hres, -, -, -⟩ |
      ⟨opened, cur, hroll, -, hnn, hsize, -, -, -⟩
    · rw [hres] at hok
      cases hok
    · exact ⟨hnn, hsize, (rollover_ok_iff log timestampNs.value).mp ⟨opened, hroll⟩⟩
  · rintro ⟨hnn, hsize, hroll⟩
    obtain ⟨opened, hroll⟩ := (rollover_ok_iff log timestampNs.value).mpr hroll
    rw [Log.append, if_neg (not_lt.mpr hnn), hroll]
    simp only [if_neg (not_le.mpr hsize)]
    split
    · rfl
    · split <;> rfl

/-- Every segment but the open one is behind some appended entry. -/
structure UpToDate (log : Log) (appended : List (Entry T)) : Prop where
  behind : ∀ startNs ∈ log.segmentStarts,
    log.current.map CurrentSegment.startNs ≠ some startNs →
    ∃ entry ∈ appended, startNs + log.segmentDurationNs ≤ entry.timestampNs
  begun : ∀ cur ∈ log.current, ∃ entry ∈ appended, cur.startNs ≤ entry.timestampNs

variable {appended : List (Entry T)}

theorem UpToDate.accepts (hlog : LogInvariant codec log remaining) (hfrs : UpToDate log appended)
    {timestampNs : I64} {payload : T} (hnn : 0 ≤ timestampNs.value)
    (hmax : timestampNs.value < i64Max) (hsize : (codec.encode payload).length < 2 ^ 32)
    (hnwt : ∀ entry ∈ appended, entry.timestampNs ≤ timestampNs.value) :
    log.Accepts codec timestampNs payload := by
  refine ⟨hnn, hsize, ?_⟩
  obtain ⟨hbeg, hle, hlt, -⟩ := windowStart_spec hlog.duration_pos hnn
  by_cases hexi : segmentFilename
      (windowStart log.segmentDurationNs timestampNs.value) ∈ log.dir
  · left
    have hm : windowStart log.segmentDurationNs timestampNs.value ∈ log.segmentStarts := by
      rw [hlog.mem_starts, isSome_segmentFile]
      exact ⟨⟨hbeg, hle.trans timestampNs.upper⟩, hexi⟩
    by_cases hopen : log.current.map CurrentSegment.startNs =
        some (windowStart log.segmentDurationNs timestampNs.value)
    · obtain ⟨cur, hcur, hsm⟩ := Option.map_eq_some_iff.mp hopen
      refine ⟨cur, hcur, hsm ▸ hle, ?_⟩
      rw [hlog.current_end cur hcur, hsm, saturatingAdd]
      omega
    · obtain ⟨entry, hent, hbehind⟩ := hfrs.behind _ hm hopen
      have hold := hnwt entry hent
      omega
  · exact Or.inr hexi

/-- An attempt refused at once, or in order and representable. -/
def Undisturbing (codec : LogPayload T) (appended : List (Entry T)) : LogCall T → Prop
  | .append timestampNs payload =>
    timestampNs.value < 0 ∨
      ((codec.encode payload).length < 2 ^ 32 ∧ timestampNs.value < i64Max ∧
        ∀ entry ∈ appended, entry.timestampNs ≤ timestampNs.value)
  | .flush => True
  | .setRetention _ => True

theorem UpToDate.mono {next : Log} {later : List (Entry T)} (hfrs : UpToDate log appended)
    (hsts : next.segmentStarts ⊆ log.segmentStarts)
    (hcurrent : next.current.map CurrentSegment.startNs = log.current.map CurrentSegment.startNs)
    (hdur : next.segmentDurationNs = log.segmentDurationNs)
    (hlat : ∀ entry ∈ appended, entry ∈ later) : UpToDate next later where
  behind := by
    intro startNs hm ho
    rw [hcurrent] at ho
    obtain ⟨entry, hent, hle⟩ := hfrs.behind startNs (hsts hm) ho
    exact ⟨entry, hlat entry hent, hdur ▸ hle⟩
  begun := by
    intro cur hcur
    have hmap : log.current.map CurrentSegment.startNs = some cur.startNs := by
      rw [← hcurrent, Option.mem_def.mp hcur]
      rfl
    obtain ⟨found, hf, hsm⟩ := Option.map_eq_some_iff.mp hmap
    obtain ⟨entry, hent, hle⟩ := hfrs.begun found hf
    exact ⟨entry, hlat entry hent, hsm ▸ hle⟩

theorem UpToDate.rollover (hlog : LogInvariant codec log remaining) (hfrs : UpToDate log appended)
    (entry : Entry T) (hnn : 0 ≤ entry.timestampNs) (hmax : entry.timestampNs < i64Max)
    (hnwt : ∀ older ∈ appended, older.timestampNs ≤ entry.timestampNs) {opened : Log}
    (hroll : log.rollover entry.timestampNs = (.ok (), opened)) :
    UpToDate opened (appended ++ [entry]) := by
  have hlat : ∀ older ∈ appended, older ∈ appended ++ [entry] :=
    fun older holder => mem_append_left _ holder
  have hself : entry ∈ appended ++ [entry] := by simp
  rcases rollover_cases log entry.timestampNs with
    ⟨_, _, _, _, hsm⟩ | ⟨hnew, -, started, hsta, hsm⟩ | ⟨_, _, hfail⟩
  · rw [hsm] at hroll
    cases hroll
    exact hfrs.mono (Finset.Subset.refl _) rfl rfl hlat
  · rw [hsm] at hroll
    cases hroll
    obtain ⟨-, hdur, -, hsts, -⟩ := log.closeCurrent_fields
    obtain ⟨-, hle, -, -⟩ := windowStart_spec hlog.duration_pos hnn
    simp only [Log.startSegment] at hsta
    split at hsta
    · cases hsta
    · cases hsta
      refine ⟨?_, ?_⟩
      · intro startNs hm ho
        simp only [Finset.mem_insert, hsts] at hm
        simp only [hdur]
        rcases hm with rfl | hm
        · exact absurd rfl ho
        · by_cases hcurrent : log.current.map CurrentSegment.startNs = some startNs
          · -- The segment that was open ends before the new timestamp.
            obtain ⟨cur, hcur, rfl⟩ := Option.map_eq_some_iff.mp hcurrent
            obtain ⟨older, holder, hbgn⟩ := hfrs.begun cur hcur
            have hnot : entry.timestampNs ≥ cur.endNs ∨ entry.timestampNs < cur.startNs := by
              rw [Log.needsNew, hcur] at hnew
              simpa using hnew
            have hend := hlog.current_end cur hcur
            rw [saturatingAdd] at hend
            have hbnd := hnwt older holder
            refine ⟨entry, hself, ?_⟩
            omega
          · obtain ⟨older, holder, hbeh⟩ := hfrs.behind startNs hm hcurrent
            exact ⟨older, hlat older holder, hbeh⟩
      · rintro cur ⟨⟩
        exact ⟨entry, hself, hle⟩
  · rw [hfail] at hroll
    cases hroll

theorem appendedEntries_append (first second : List (LogEvent T)) :
    appendedEntries (first ++ second) = appendedEntries first ++ appendedEntries second :=
  filterMap_append

theorem appendedEntries_evicted (starts : List ℤ) :
    appendedEntries (starts.map (LogEvent.evicted (T := T))) = [] := by
  rw [appendedEntries, filterMap_eq_nil_iff]
  intro event hev
  obtain ⟨startNs, -, rfl⟩ := mem_map.mp hev
  rfl

theorem UpToDate.append (hlog : LogInvariant codec log remaining) {events : List (LogEvent T)}
    (hfrs : UpToDate log (appendedEntries events)) {timestampNs : I64} {payload : T}
    (hc : Undisturbing codec (appendedEntries events) (.append timestampNs payload)) :
    UpToDate (log.append codec timestampNs payload).2.1
      (appendedEntries (events ++ (log.append codec timestampNs payload).2.2)) := by
  by_cases hneg : timestampNs.value < 0
  · rw [Log.append, if_pos hneg, append_nil]
    exact hfrs
  · rw [not_lt] at hneg
    obtain hnever | ⟨hsize, hmax, hnwt⟩ := hc
    · omega
    · have hok := (hlog.append_ok_iff timestampNs payload).mpr
        (hfrs.accepts hlog hneg hmax hsize hnwt)
      rcases hlog.append_cases timestampNs payload with
        ⟨error, next, hres, -, -, -⟩ |
        ⟨opened, cur, hroll, hcur, -, -, hopn, -, written, hdur, -, hcurrent, hsts, -, hres⟩
      · rw [hres] at hok
        cases hok
      · have hrol := UpToDate.rollover hlog hfrs ⟨timestampNs.value, payload⟩
          hneg hmax hnwt hroll
        have hopen : opened.current.map CurrentSegment.startNs = some cur.startNs := by
          rw [Option.mem_def.mp hcur]
          rfl
        have hwro : UpToDate written
            (appendedEntries events ++ [⟨timestampNs.value, payload⟩]) :=
          hrol.mono hsts.subset (hcurrent.trans hopen.symm)
            (hdur.trans hopn.symm) fun _ hent => hent
        rw [hres]
        split
        · have hevs : appendedEntries (events ++ .appended cur.startNs
              ⟨timestampNs.value, payload⟩ log.retentionNs ::
              ((written.expired (timestampNs.value - log.retentionNs)).sort (· ≤ ·)).map
                .evicted) = appendedEntries events ++ [⟨timestampNs.value, payload⟩] := by
            rw [appendedEntries_append, ← singleton_append, appendedEntries_append,
              appendedEntries_evicted, append_nil]
            rfl
          rw [hevs]
          exact hwro.mono Finset.sdiff_subset rfl rfl fun _ hent => hent
        · rw [appendedEntries_append]
          exact hwro

end Acceptance

/-- A run all of whose attempts are undisturbing. -/
def UndisturbedRun (codec : LogPayload T) (capacity : ℕ) (segmentDurationNs retentionNs : ℤ)
    (calls : List (LogCall T)) : Prop :=
  ∀ before call after, calls = before ++ call :: after →
    Undisturbing codec (appendedEntries
      (TracedLog.run codec capacity segmentDurationNs retentionNs before).events) call

theorem upToDate_run (codec : LogPayload T) (capacity : ℕ) {segmentDurationNs retentionNs : ℤ}
    (hdur : 0 < segmentDurationNs) (hret : 0 ≤ retentionNs) {calls : List (LogCall T)}
    (hcls : UndisturbedRun codec capacity segmentDurationNs retentionNs calls) :
    UpToDate (TracedLog.run codec capacity segmentDurationNs retentionNs calls).log
      (appendedEntries
        (TracedLog.run codec capacity segmentDurationNs retentionNs calls).events) := by
  induction calls using List.reverseRecOn with
  | nil =>
    refine ⟨fun startNs hm => absurd hm (Finset.notMem_empty _), ?_⟩
    rintro cur ⟨⟩
  | append_singleton calls call ih =>
    have hfrs := ih fun before found after heq =>
      hcls before found (after ++ [call]) (by rw [heq, append_assoc, cons_append])
    have hc := hcls calls call [] rfl
    have hlog := logInvariant_run codec capacity hdur hret calls
    rw [TracedLog.run_concat]
    generalize TracedLog.run codec capacity segmentDurationNs retentionNs calls = traced at *
    cases call with
    | append timestampNs payload => exact UpToDate.append hlog hfrs hc
    | flush =>
      simp only [TracedLog.call, Log.flush]
      cases hcurrent : traced.log.current with
      | none => exact hfrs
      | some cur =>
        refine hfrs.mono (Finset.Subset.refl _) ?_ rfl fun _ hent => hent
        rw [hcurrent]
        rfl
    | setRetention retentionNs =>
      simp only [TracedLog.call, Log.setRetention]
      split
      · exact hfrs
      · exact hfrs.mono (Finset.Subset.refl _) rfl rfl fun _ hent => hent

/-- Such an append succeeds exactly in the open window or without a segment file. -/
theorem append_after_rejection_iff (codec : LogPayload T) (capacity : ℕ)
    (segmentDurationNs retentionNs : I64) (hduration : 0 < segmentDurationNs.value)
    (hretention : 0 ≤ retentionNs.value) (calls : List (LogCall T)) :
    let traced := TracedLog.run codec capacity segmentDurationNs.value retentionNs.value calls
    (∀ timestampNs payload,
      (∀ entry ∈ appendedEntries traced.events, entry.timestampNs ≤ timestampNs.value) →
      ((traced.log.append codec timestampNs payload).1 = .ok () ↔
        traced.log.Accepts codec timestampNs payload)) ∧
    (UndisturbedRun codec capacity segmentDurationNs.value retentionNs.value calls →
      ∀ timestampNs payload,
      (∀ entry ∈ appendedEntries traced.events, entry.timestampNs ≤ timestampNs.value) →
      0 ≤ timestampNs.value → timestampNs.value < i64Max →
      (codec.encode payload).length < 2 ^ 32 →
      (traced.log.append codec timestampNs payload).1 = .ok ()) := by
  have hlog := logInvariant_run codec capacity hduration hretention calls
  refine ⟨fun timestampNs payload _ => hlog.append_ok_iff timestampNs payload, ?_⟩
  intro hcalls timestampNs payload hnewest hnonneg hmax hsize
  rw [hlog.append_ok_iff]
  exact (upToDate_run codec capacity hduration hretention hcalls).accepts hlog hnonneg hmax hsize
    hnewest

/-- Two windows, and an attempt in the older one. -/
def olderAttempt : List (LogCall Unit) :=
  [.append (sampleTime 5) (), .append (sampleTime 15) (),
    .append (sampleTime 3) ()]

/-- After a rejected older attempt the log refuses a newer timestamp. -/
theorem rejected_append_disables_window :
    (∀ entry ∈ appendedEntries (TracedLog.run unitCodec 8192 10 0 olderAttempt).events,
      entry.timestampNs ≤ 16) ∧
    ((TracedLog.run unitCodec 8192 10 0 olderAttempt).log.append unitCodec
      ⟨16, by decide, by decide⟩ ()).1 = .error .alreadyExists := by
  constructor
  · have hevents : (TracedLog.run unitCodec 8192 10 0 olderAttempt).events =
        [.appended 0 ⟨5, ()⟩ 0, .appended 10 ⟨15, ()⟩ 0] := by decide +kernel
    rw [hevents]
    decide
  · rfl

theorem append_after_rejection_iff_sample :
    ¬ (TracedLog.run unitCodec 8192 10 0 olderAttempt).log.Accepts unitCodec
      ⟨16, by decide, by decide⟩ () := by
  have hevents : (TracedLog.run unitCodec 8192 10 0 olderAttempt).events =
      [.appended 0 ⟨5, ()⟩ 0, .appended 10 ⟨15, ()⟩ 0] := by decide +kernel
  have hiff := (append_after_rejection_iff unitCodec 8192 ⟨10, by decide, by decide⟩
    ⟨0, by decide, by decide⟩ (by decide) (by decide) olderAttempt).1
    ⟨16, by decide, by decide⟩ () (by
      intro entry hentry
      simp only [hevents] at hentry
      fin_cases hentry <;> decide)
  rw [← hiff]
  intro hok
  have hfailed : ((TracedLog.run unitCodec 8192 10 0 olderAttempt).log.append unitCodec
      ⟨16, by decide, by decide⟩ ()).1 = .error .alreadyExists := by rfl
  exact absurd (hfailed.symm.trans hok) (by simp)

end AukiSdk.Logs
