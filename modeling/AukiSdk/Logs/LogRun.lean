import AukiSdk.Logs.LogInvariant

/-!
# Round trip and retention

A closed log reads back as the appended entries without those of evicted segments.
-/

namespace AukiSdk.Logs

open AukiSdk.Foundation List
open Std (ExtTreeMap)

variable {T : Type}

section Reading

variable {codec : LogPayload T} {log : Log} {remaining : List (ℤ × Entry T)}

variable {startNs : ℤ}

theorem LogInvariant.segmentFile_closed (hlog : LogInvariant codec log remaining)
    (hm : startNs ∈ log.segmentStarts) :
    segmentFile log.closeCurrent.dir startNs =
      some (segmentHeader startNs ++ codec.entriesBytes (entriesAt remaining startNs)) := by
  obtain ⟨hnone, -, -, hsts, -⟩ := log.closeCurrent_fields
  have hst := hlog.closeCurrent.stored startNs (hsts ▸ hm)
  rw [storedBytes, hnone] at hst
  simpa [pendingBytes] using hst

theorem LogInvariant.mem_listSegments_closed (hlog : LogInvariant codec log remaining) :
    startNs ∈ listSegments log.closeCurrent.dir ↔ startNs ∈ log.segmentStarts := by
  rw [mem_listSegments hlog.closeCurrent.only_segments, ← IsStart,
    ← hlog.closeCurrent.mem_starts, log.closeCurrent_fields.2.2.2.1]

theorem LogInvariant.mem_listSegments (hlog : LogInvariant codec log remaining) :
    startNs ∈ listSegments log.dir ↔ startNs ∈ log.segmentStarts := by
  rw [Logs.mem_listSegments hlog.only_segments, ← IsStart, ← hlog.mem_starts]

theorem mem_entriesAt {entry : Entry T} :
    entry ∈ entriesAt remaining startNs ↔ (startNs, entry) ∈ remaining := by
  simp only [entriesAt, mem_map, mem_filter, decide_eq_true_eq]
  constructor
  · rintro ⟨tagged, ⟨hm, rfl⟩, rfl⟩
    exact hm
  · exact fun hm => ⟨_, ⟨hm, rfl⟩, rfl⟩

theorem LogInvariant.readSegmentEntries_closed (hlog : LogInvariant codec log remaining)
    (hlaw : codec.Lawful) (startNs : ℤ) :
    codec.readSegmentEntries (segmentFilename startNs)
      (segmentHeader startNs ++ codec.entriesBytes (entriesAt remaining startNs)) =
      .ok (entriesAt remaining startNs) :=
  codec.readSegmentEntries_header hlaw _ _ fun _ hent =>
    hlog.entry_writable _ (mem_entriesAt.mp hent)

theorem LogInvariant.readSegments_closed (hlog : LogInvariant codec log remaining)
    (hlaw : codec.Lawful) {starts : List ℤ} (hsts : ∀ startNs ∈ starts,
      startNs ∈ log.segmentStarts) :
    codec.readSegments log.closeCurrent.dir starts =
      .ok (starts.flatMap (entriesAt remaining)) := by
  induction starts with
  | nil => rfl
  | cons startNs starts ih =>
    rw [LogPayload.readSegments, hlog.segmentFile_closed (hsts startNs mem_cons_self)]
    simp only
    rw [hlog.readSegmentEntries_closed hlaw, ih fun other ho => hsts other (mem_cons_of_mem _ ho)]
    rfl

theorem flatMap_entriesAt {starts : List ℤ} (hsort : starts.Pairwise (· < ·))
    {remaining : List (ℤ × Entry T)}
    (hrem : remaining.Pairwise fun left right => left.1 ≤ right.1)
    (hm : ∀ tagged ∈ remaining, tagged.1 ∈ starts) :
    starts.flatMap (entriesAt remaining) = remaining.map Prod.snd := by
  induction starts generalizing remaining with
  | nil =>
    cases remaining with
    | nil => rfl
    | cons tagged rest => cases hm tagged mem_cons_self
  | cons startNs starts ih =>
    rw [pairwise_cons] at hsort
    -- The smallest start is that of a first stretch of the entries.
    have hsp : remaining =
        remaining.filter (·.1 = startNs) ++ remaining.filter (·.1 ≠ startNs) := by
      clear ih
      induction remaining with
      | nil => rfl
      | cons tagged rest ihrest =>
        rw [pairwise_cons] at hrem
        have hrest := ihrest hrem.2 fun other ho =>
          hm other (mem_cons_of_mem _ ho)
        by_cases heq : tagged.1 = startNs
        · simp only [filter_cons, heq, decide_true, if_true, ne_eq, not_true_eq_false,
            decide_false, Bool.false_eq_true, if_false, cons_append]
          rw [← hrest]
        · have hlat : ∀ other ∈ rest, other.1 ≠ startNs := by
            intro other ho hsm
            have hle := hrem.1 other ho
            have hlt := hsort.1 tagged.1
              ((mem_cons.mp (hm tagged mem_cons_self)).resolve_left heq)
            omega
          have hnone : rest.filter (·.1 = startNs) = [] := by
            rw [filter_eq_nil_iff]
            intro other ho
            simpa using hlat other ho
          rw [hnone, nil_append] at hrest
          simp only [filter_cons, heq, decide_false, Bool.false_eq_true, if_false, hnone,
            nil_append, ne_eq, not_false_eq_true, decide_true, if_true]
          rw [← hrest]
    have ho : starts.flatMap (entriesAt remaining) =
        starts.flatMap (entriesAt (remaining.filter (·.1 ≠ startNs))) := by
      apply flatMap_congr
      intro other ho
      have hne : other ≠ startNs := (hsort.1 other ho).ne'
      rw [entriesAt, entriesAt, filter_filter]
      congr 1
      apply filter_congr
      intro tagged _
      by_cases heq : tagged.1 = other
      · simp [heq, hne]
      · simp [heq]
    have hrest : starts.flatMap (entriesAt (remaining.filter (·.1 ≠ startNs))) =
        (remaining.filter (·.1 ≠ startNs)).map Prod.snd := by
      apply ih hsort.2 (hrem.filter _)
      intro tagged htag
      obtain ⟨htag, hne⟩ := mem_filter.mp htag
      exact (mem_cons.mp (hm tagged htag)).resolve_left (by simpa using hne)
    rw [flatMap_cons, ho, hrest, entriesAt, ← map_append, ← hsp]

theorem LogInvariant.start_gap (hlog : LogInvariant codec log remaining) {left right : ℤ}
    (hleft : left ∈ log.segmentStarts) (hrgt : right ∈ log.segmentStarts)
    (hlt : left < right) : left + log.segmentDurationNs ≤ right := by
  obtain ⟨first, rfl⟩ := hlog.aligned left hleft
  obtain ⟨second, rfl⟩ := hlog.aligned right hrgt
  have hs : first + 1 ≤ second := lt_of_mul_lt_mul_left hlt hlog.duration_pos.le
  calc log.segmentDurationNs * first + log.segmentDurationNs
      = log.segmentDurationNs * (first + 1) := by ring
    _ ≤ log.segmentDurationNs * second :=
      mul_le_mul_of_nonneg_left hs hlog.duration_pos.le

theorem LogInvariant.pairwise_starts (hlog : LogInvariant codec log remaining)
    (hord : remaining.Pairwise fun left right =>
      left.2.timestampNs ≤ right.2.timestampNs) :
    remaining.Pairwise fun left right => left.1 ≤ right.1 := by
  apply hord.imp_of_mem
  intro left right hleft hrgt hle
  by_contra hlt
  rw [not_le] at hlt
  have hgap := hlog.start_gap (hlog.entry_mem right hrgt) (hlog.entry_mem left hleft) hlt
  have hwin := hlog.entry_window left hleft
  have hwindow' := hlog.entry_window right hrgt
  omega

theorem LogInvariant.entries_closed (hlog : LogInvariant codec log remaining)
    (hlaw : codec.Lawful)
    (hord : remaining.Pairwise fun left right =>
      left.2.timestampNs ≤ right.2.timestampNs) :
    codec.entries log.closeCurrent.dir = .ok (remaining.map Prod.snd) := by
  have hsts : ∀ startNs ∈ listSegments log.closeCurrent.dir,
      startNs ∈ log.segmentStarts := fun _ hm => hlog.mem_listSegments_closed.mp hm
  rw [LogPayload.entries, hlog.readSegments_closed hlaw hsts,
    flatMap_entriesAt (sortedLT_listSegments _) (hlog.pairwise_starts hord)
      fun tagged htag => hlog.mem_listSegments_closed.mpr (hlog.entry_mem tagged htag)]

end Reading

theorem remainingEntries_sublist (events : List (LogEvent T)) :
    ((remainingEntries events).map Prod.snd).Sublist (appendedEntries events) := by
  induction events using List.reverseRecOn with
  | nil => exact List.Sublist.refl _
  | append_singleton events event ih =>
    rw [remainingEntries, foldl_concat, ← remainingEntries, appendedEntries,
      filterMap_append, ← appendedEntries]
    cases event with
    | appended startNs entry retentionNs =>
      rw [afterEvent, map_append]
      exact ih.append (List.Sublist.refl _)
    | evicted startNs =>
      rw [afterEvent]
      exact (((filter_sublist).map _).trans ih).trans (sublist_append_left _ _)

/-- Appends are in their windows, and evicted entries had left a window. -/
structure EventsJustified (segmentDurationNs : ℤ) (events : List (LogEvent T)) : Prop where
  window : ∀ startNs entry retentionNs, .appended startNs entry retentionNs ∈ events →
    startNs ≤ entry.timestampNs ∧ entry.timestampNs < startNs + segmentDurationNs
  evicted : ∀ before startNs entry retentionNs after,
    events = before ++ .appended startNs entry retentionNs :: after →
    .evicted startNs ∈ after →
    ∃ newer later retention,
      .appended newer later retention ∈ .appended startNs entry retentionNs :: after ∧
      0 < retention ∧ entry.timestampNs < later.timestampNs - retention

variable {segmentDurationNs : ℤ}

theorem EventsJustified.append {events : List (LogEvent T)}
    (hevs : EventsJustified segmentDurationNs events) {newStart : ℤ} {newEntry : Entry T}
    {retention : ℤ} (starts : List ℤ) (hwin : newStart ≤ newEntry.timestampNs ∧
      newEntry.timestampNs < newStart + segmentDurationNs) (hmax : newEntry.timestampNs ≤ i64Max)
    (hsts : ∀ startNs ∈ starts, 0 < retention ∧
      saturatingAdd startNs segmentDurationNs ≤ newEntry.timestampNs - retention) :
    EventsJustified segmentDurationNs
      (events ++ .appended newStart newEntry retention :: starts.map .evicted) where
  window := by
    intro startNs entry retentionNs hm
    rcases mem_append.mp hm with hm | hm
    · exact hevs.window startNs entry retentionNs hm
    · rcases mem_cons.mp hm with heq | hm
      · cases heq
        exact hwin
      · simp at hm
  evicted := by
    -- What is removed ends before the retention window of the new entry.
    have hexp : ∀ (startNs : ℤ) (entry : Entry T), startNs ∈ starts →
        entry.timestampNs < startNs + segmentDurationNs →
        0 < retention ∧ entry.timestampNs < newEntry.timestampNs - retention := by
      intro startNs entry hbeg hent
      obtain ⟨hpos, hend⟩ := hsts startNs hbeg
      rw [saturatingAdd] at hend
      refine ⟨hpos, ?_⟩
      omega
    intro before startNs entry retentionNs after heq hm
    rcases append_eq_append_iff.mp heq with
      ⟨middle, rfl, hnew⟩ | ⟨middle, hold, hnew⟩
    · cases middle with
      | nil =>
        rw [nil_append, List.cons.injEq] at hnew
        obtain ⟨hhead, rfl⟩ := hnew
        cases hhead
        simp only [mem_map, LogEvent.evicted.injEq, exists_eq_right] at hm
        obtain ⟨hpos, hlt⟩ := hexp newStart newEntry hm hwin.2
        exact ⟨newStart, newEntry, retention, mem_cons_self, hpos, hlt⟩
      | cons head middle =>
        rw [cons_append, List.cons.injEq] at hnew
        have hall : LogEvent.appended startNs entry retentionNs ∈ starts.map LogEvent.evicted := by
          rw [hnew.2]
          exact mem_append_right _ mem_cons_self
        simp at hall
    · cases middle with
      | nil =>
        rw [nil_append, List.cons.injEq] at hnew
        obtain ⟨hhead, rfl⟩ := hnew
        cases hhead
        simp only [mem_map, LogEvent.evicted.injEq, exists_eq_right] at hm
        obtain ⟨hpos, hlt⟩ := hexp newStart newEntry hm hwin.2
        exact ⟨newStart, newEntry, retention, mem_cons_self, hpos, hlt⟩
      | cons head middle =>
        rw [cons_append, List.cons.injEq] at hnew
        obtain ⟨rfl, rfl⟩ := hnew
        rcases mem_append.mp hm with hm | hm
        · obtain ⟨newer, later, found, hf, hpos, hlt⟩ :=
            hevs.evicted before startNs entry retentionNs middle hold hm
          refine ⟨newer, later, found, ?_, hpos, hlt⟩
          rw [← cons_append]
          exact mem_append_left _ hf
        · simp only [mem_cons, reduceCtorEq, mem_map, LogEvent.evicted.injEq,
            exists_eq_right, false_or] at hm
          have hent := hevs.window startNs entry retentionNs (by
            rw [hold]
            exact mem_append_right _ mem_cons_self)
          obtain ⟨hpos, hlt⟩ := hexp startNs entry hm hent.2
          refine ⟨newStart, newEntry, retention, ?_, hpos, hlt⟩
          exact mem_cons_of_mem _ (mem_append_right _ mem_cons_self)

theorem TracedLog.run_concat (codec : LogPayload T) (capacity : ℕ)
    (segmentDurationNs retentionNs : ℤ) (calls : List (LogCall T)) (call : LogCall T) :
    TracedLog.run codec capacity segmentDurationNs retentionNs (calls ++ [call]) =
      (TracedLog.run codec capacity segmentDurationNs retentionNs calls).call codec call :=
  foldl_concat _ _ _ _

theorem segmentDurationNs_call (codec : LogPayload T) {traced : TracedLog T}
    (hlog : LogInvariant codec traced.log (remainingEntries traced.events)) (call : LogCall T) :
    (traced.call codec call).log.segmentDurationNs = traced.log.segmentDurationNs := by
  cases call with
  | append timestampNs payload =>
    rcases hlog.append_cases timestampNs payload with
      ⟨error, next, hres, -, hdur, -⟩ |
      ⟨opened, cur, -, -, -, -, -, -, written, hdur, -, -, -, -, hres⟩
    · simp only [TracedLog.call, hres, hdur]
    · simp only [TracedLog.call, hres]
      split
      · exact hdur
      · exact hdur
  | flush =>
    simp only [TracedLog.call, Log.flush]
    split <;> rfl
  | setRetention retentionNs =>
    simp only [TracedLog.call, Log.setRetention]
    split <;> rfl

variable {retentionNs : ℤ}

theorem segmentDurationNs_run (codec : LogPayload T) (capacity : ℕ) (hdur : 0 < segmentDurationNs)
    (hret : 0 ≤ retentionNs) (calls : List (LogCall T)) :
    (TracedLog.run codec capacity segmentDurationNs retentionNs calls).log.segmentDurationNs =
      segmentDurationNs := by
  induction calls using List.reverseRecOn with
  | nil => rfl
  | append_singleton calls call ih =>
    rw [TracedLog.run_concat, segmentDurationNs_call codec
      (logInvariant_run codec capacity hdur hret calls), ih]

theorem eventsJustified_run (codec : LogPayload T) (capacity : ℕ) (hdur : 0 < segmentDurationNs)
    (hret : 0 ≤ retentionNs) (calls : List (LogCall T)) :
    EventsJustified segmentDurationNs
      (TracedLog.run codec capacity segmentDurationNs retentionNs calls).events := by
  induction calls using List.reverseRecOn with
  | nil =>
    refine ⟨fun _ _ _ hm => (not_mem_nil hm).elim, fun before _ _ _ _ heq => ?_⟩
    cases before <;> cases heq
  | append_singleton calls call ih =>
    have hlog := logInvariant_run codec capacity hdur hret calls
    have hd := segmentDurationNs_run codec capacity hdur hret calls
    rw [TracedLog.run_concat]
    generalize TracedLog.run codec capacity segmentDurationNs retentionNs calls = traced at *
    cases call with
    | flush => exact ih
    | setRetention retentionNs => exact ih
    | append timestampNs payload =>
      simp only [TracedLog.call]
      rcases hlog.append_cases timestampNs payload with
        ⟨error, next, hres, -, -, -⟩ |
        ⟨opened, cur, hroll, hcur, hnn, -, -, -, written, hwro, -, -, -, hinv, hres⟩
      · rw [hres]
        simpa using ih
      · have hwin := hinv.entry_window (cur.startNs, ⟨timestampNs.value, payload⟩) (by simp)
        rw [hwro, hd] at hwin
        rw [hres]
        split
        · rename_i hpos
          refine ih.append _ hwin timestampNs.upper fun startNs hbeg => ?_
          rw [Finset.mem_sort, Log.expired, Finset.mem_filter, hwro, hd] at hbeg
          exact ⟨hpos, hbeg.2.1⟩
        · exact ih.append [] hwin timestampNs.upper
            fun startNs hbeg => (not_mem_nil hbeg).elim

/-- A run that evicted an entry had left it behind a window that was in use. -/
theorem EventsJustified.not_evicted {events : List (LogEvent T)}
    (hevs : EventsJustified segmentDurationNs events) {before after : List (LogEvent T)}
    {startNs : ℤ} {entry : Entry T} {newest smallest : ℤ}
    (hsp : events = before ++ .appended startNs entry retentionNs :: after)
    (hnwt : ∀ later ∈ appendedEntries events, later.timestampNs ≤ newest)
    (hsma : ∀ newer later retention,
      .appended newer later retention ∈ .appended startNs entry retentionNs :: after →
      0 < retention → smallest ≤ retention) (hins : newest - smallest ≤ entry.timestampNs) :
    .evicted startNs ∉ after := by
  intro hm
  obtain ⟨newer, later, retention, hlat, hpos, hlt⟩ :=
    hevs.evicted before startNs entry retentionNs after hsp hm
  have hle : later.timestampNs ≤ newest := by
    apply hnwt
    rw [appendedEntries, mem_filterMap]
    refine ⟨.appended newer later retention, ?_, rfl⟩
    rw [hsp]
    exact mem_append_right _ hlat
  have hbnd := hsma newer later retention hlat hpos
  omega

section Eviction

variable {codec : LogPayload T} {log : Log} {remaining : List (ℤ × Entry T)}

theorem LogInvariant.append_retained (hlog : LogInvariant codec log remaining)
    (timestampNs : I64) (payload : T) (hret : 0 < log.retentionNs)
    (hok : (log.append codec timestampNs payload).1 = .ok ()) {startNs : ℤ}
    (hlist : startNs ∈ listSegments (log.append codec timestampNs payload).2.1.dir)
    (ho : (log.append codec timestampNs payload).2.1.current.map CurrentSegment.startNs ≠
      some startNs) :
    timestampNs.value - log.retentionNs < saturatingAdd startNs log.segmentDurationNs := by
  rw [(hlog.append timestampNs payload).mem_listSegments] at hlist
  rcases hlog.append_cases timestampNs payload with
    ⟨error, next, hres, -, -, -⟩ |
    ⟨opened, cur, -, -, -, -, -, -, written, hdur, -, -, -, -, hres⟩
  · rw [hres] at hok
    cases hok
  · rw [hres, if_pos hret] at hlist ho
    obtain ⟨hm, hkept⟩ := Finset.mem_sdiff.mp hlist
    by_contra hle
    rw [not_lt, ← hdur] at hle
    exact hkept (Finset.mem_filter.mpr ⟨hm, hle, ho⟩)

theorem rollover_segmentStarts {timestampNs : ℤ} {outcome : Except LogError Unit} {next : Log}
    (hn : log.rollover timestampNs = (outcome, next)) :
    log.segmentStarts ⊆ next.segmentStarts := by
  obtain ⟨-, -, -, hsts, -⟩ := log.closeCurrent_fields
  rcases rollover_cases log timestampNs with
    ⟨_, _, _, _, hsm⟩ | ⟨_, _, started, hbgn, hsm⟩ | ⟨_, _, hfail⟩
  · rw [hsm] at hn
    cases hn
    exact Finset.Subset.refl _
  · rw [hsm] at hn
    cases hn
    simp only [Log.startSegment] at hbgn
    split at hbgn
    · cases hbgn
    · cases hbgn
      rw [hsts]
      exact Finset.subset_insert _ _
  · rw [hfail] at hn
    cases hn
    rw [hsts]

theorem LogInvariant.append_keeps (hlog : LogInvariant codec log remaining)
    (timestampNs : I64) (payload : T) (hret : log.retentionNs = 0) {startNs : ℤ}
    (hlist : startNs ∈ listSegments log.dir) :
    startNs ∈ listSegments (log.append codec timestampNs payload).2.1.dir := by
  rw [hlog.mem_listSegments] at hlist
  rw [(hlog.append timestampNs payload).mem_listSegments]
  by_cases hneg : timestampNs.value < 0
  · rw [Log.append, if_pos hneg]
    exact hlist
  · cases hroll : log.rollover timestampNs.value with
    | mk outcome opened =>
      have hsub := rollover_segmentStarts hroll hlist
      have hopn : opened.retentionNs = 0 := by
        rcases rollover_cases log timestampNs.value with
          ⟨_, _, _, _, hsm⟩ | ⟨_, _, started, hbgn, hsm⟩ | ⟨_, _, hfail⟩
        · rw [hsm] at hroll
          cases hroll
          exact hret
        · rw [hsm] at hroll
          cases hroll
          simp only [Log.startSegment] at hbgn
          split at hbgn
          · cases hbgn
          · cases hbgn
            exact log.closeCurrent_fields.2.2.1.trans hret
        · rw [hfail] at hroll
          cases hroll
          exact log.closeCurrent_fields.2.2.1.trans hret
      rw [Log.append, if_neg hneg, hroll]
      cases outcome with
      | error error => exact hsub
      | ok done =>
        simp only
        split
        · exact hsub
        · split
          · exact hsub
          · rw [if_neg (by simp only [hopn]; omega)]
            exact hsub

end Eviction

theorem LogInvariant.segment_closed {codec : LogPayload T} {log : Log}
    {remaining : List (ℤ × Entry T)} (hlog : LogInvariant codec log remaining)
    (hlaw : codec.Lawful) {startNs : ℤ}
    (hlist : startNs ∈ listSegments log.closeCurrent.dir) :
    log.segmentDurationNs ∣ startNs ∧ ∃ bytes entries,
      segmentFile log.closeCurrent.dir startNs = some bytes ∧
      codec.readSegmentEntries (segmentFilename startNs) bytes = .ok entries ∧
      ∀ entry ∈ entries, startNs ≤ entry.timestampNs ∧
        entry.timestampNs < startNs + log.segmentDurationNs ∧
        (entry.timestampNs < saturatingAdd startNs log.segmentDurationNs ∨
          entry.timestampNs = i64Max) := by
  have hm := hlog.mem_listSegments_closed.mp hlist
  refine ⟨hlog.aligned startNs hm, _, _, hlog.segmentFile_closed hm,
    hlog.readSegmentEntries_closed hlaw startNs, ?_⟩
  intro entry hent
  have htag := mem_entriesAt.mp hent
  have hwin := hlog.entry_window _ htag
  have hmax := (hlog.entry_writable _ htag).2.1
  refine ⟨hwin.1, hwin.2, ?_⟩
  simp only at hwin hmax
  rw [saturatingAdd]
  omega

/-- A closed log reads back as the appended entries minus evicted segments. -/
theorem log_round_trip_and_retention (codec : LogPayload T) (hlawful : codec.Lawful)
    (capacity : ℕ) (segmentDurationNs retentionNs : I64) (hduration : 0 < segmentDurationNs.value)
    (hretention : 0 ≤ retentionNs.value) (calls : List (LogCall T))
    (hordered : (appendedEntries (TracedLog.run codec capacity segmentDurationNs.value
      retentionNs.value calls).events).Pairwise fun left right =>
        left.timestampNs ≤ right.timestampNs) :
    let traced := TracedLog.run codec capacity segmentDurationNs.value retentionNs.value calls
    let files := traced.log.closeCurrent.dir
    codec.entries files = .ok ((remainingEntries traced.events).map Prod.snd) ∧
    (∀ startNs ∈ listSegments files, segmentDurationNs.value ∣ startNs ∧ ∃ bytes entries,
      segmentFile files startNs = some bytes ∧
      codec.readSegmentEntries (segmentFilename startNs) bytes = .ok entries ∧
      ∀ entry ∈ entries, startNs ≤ entry.timestampNs ∧
        entry.timestampNs < startNs + segmentDurationNs.value ∧
        (entry.timestampNs < saturatingAdd startNs segmentDurationNs.value ∨
          entry.timestampNs = i64Max)) ∧
    (∀ before startNs entry retention after newest smallest,
      traced.events = before ++ .appended startNs entry retention :: after →
      (∀ later ∈ appendedEntries traced.events, later.timestampNs ≤ newest) →
      (∀ newer later used, .appended newer later used ∈ .appended startNs entry retention :: after →
        0 < used → smallest ≤ used) →
      newest - smallest ≤ entry.timestampNs → .evicted startNs ∉ after) ∧
    (∀ timestampNs payload, 0 < traced.log.retentionNs →
      (traced.log.append codec timestampNs payload).1 = .ok () →
      ∀ startNs ∈ listSegments (traced.log.append codec timestampNs payload).2.1.dir,
        (traced.log.append codec timestampNs payload).2.1.current.map
          CurrentSegment.startNs ≠ some startNs →
        timestampNs.value - traced.log.retentionNs <
          saturatingAdd startNs segmentDurationNs.value) ∧
    (∀ timestampNs payload, traced.log.retentionNs = 0 → ∀ startNs ∈ listSegments traced.log.dir,
      startNs ∈ listSegments (traced.log.append codec timestampNs payload).2.1.dir) := by
  have hlog := logInvariant_run codec capacity hduration hretention calls
  have hd := segmentDurationNs_run codec capacity hduration hretention calls
  have hevents := eventsJustified_run codec capacity hduration hretention calls
  refine ⟨?_, ?_, ?_, ?_, ?_⟩
  · apply hlog.entries_closed hlawful
    have hsorted := hordered.sublist (remainingEntries_sublist _)
    rwa [pairwise_map] at hsorted
  · intro startNs hlisted
    have hsegment := hlog.segment_closed hlawful hlisted
    rwa [hd] at hsegment
  · intro before startNs entry retention after newest smallest
    exact fun hsplit hnewest hsmallest hinside =>
      hevents.not_evicted hsplit hnewest hsmallest hinside
  · intro timestampNs payload hpositive hok startNs hlisted hother
    have hretained := hlog.append_retained timestampNs payload hpositive hok hlisted hother
    rwa [hd] at hretained
  · intro timestampNs payload hzero startNs hlisted
    exact hlog.append_keeps timestampNs payload hzero hlisted

/-- Empty payloads. -/
def unitCodec : LogPayload Unit := ⟨fun _ => [], fun _ => .ok ()⟩

def sampleCalls : List (LogCall Unit) :=
  [.append ⟨0, by decide, by decide⟩ (), .setRetention ⟨5, by decide, by decide⟩,
    .append ⟨100, by decide, by decide⟩ (), .setRetention ⟨1000, by decide, by decide⟩,
    .append ⟨100, by decide, by decide⟩ ()]

theorem sampleCalls_events : (TracedLog.run unitCodec 8192 10 0 sampleCalls).events =
    [.appended 0 ⟨0, ()⟩ 0, .appended 100 ⟨100, ()⟩ 5, .evicted 0,
      .appended 100 ⟨100, ()⟩ 1000] := by
  decide +kernel

theorem log_round_trip_and_retention_sample :
    unitCodec.entries (TracedLog.run unitCodec 8192 10 0 sampleCalls).log.closeCurrent.dir =
      .ok [⟨100, ()⟩, ⟨100, ()⟩] := by
  have hordered : (appendedEntries (TracedLog.run unitCodec 8192 10 0 sampleCalls).events).Pairwise
      fun left right => left.timestampNs ≤ right.timestampNs := by
    rw [sampleCalls_events]
    decide
  have hread := (log_round_trip_and_retention unitCodec (fun _ => rfl) 8192
    ⟨10, by decide, by decide⟩ ⟨0, by decide, by decide⟩ (by decide) (by decide) sampleCalls
    hordered).1
  simp only [sampleCalls_events] at hread
  exact hread

/-- An entry inside the largest retention used since its append may be evicted. -/
theorem largest_retention_does_not_protect : ∃ before startNs entry retention after newest largest,
      (TracedLog.run unitCodec 8192 10 0 sampleCalls).events =
        before ++ .appended startNs entry retention :: after ∧
      (∀ later ∈ appendedEntries (TracedLog.run unitCodec 8192 10 0 sampleCalls).events,
        later.timestampNs ≤ newest) ∧
      (∃ newer later, .appended newer later largest ∈
        .appended startNs entry retention :: after ∧ 0 < largest) ∧
      (∀ newer later used, .appended newer later used ∈
        .appended startNs entry retention :: after → used ≤ largest) ∧
      newest - largest ≤ entry.timestampNs ∧ .evicted startNs ∈ after := by
  refine ⟨[], 0, ⟨0, ()⟩, 0, [.appended 100 ⟨100, ()⟩ 5, .evicted 0,
    .appended 100 ⟨100, ()⟩ 1000], 100, 1000, sampleCalls_events, ?_,
    ⟨100, ⟨100, ()⟩, by decide, by decide⟩, ?_, by decide, by decide⟩
  · rw [sampleCalls_events]
    decide
  · intro newer later used hmem
    simp only [mem_cons, LogEvent.appended.injEq, reduceCtorEq, false_or,
      not_mem_nil, or_false] at hmem
    omega

end AukiSdk.Logs
