import AukiSdk.Logs.Log

/-!
# What a segmented log stores

Each segment file, with its buffered bytes, is a header and the remaining entries.
-/

namespace AukiSdk.Logs

open AukiSdk.Foundation List
open Std (ExtTreeMap)

variable {T : Type}

/-- A start that names a segment. -/
def IsStart (startNs : ℤ) : Prop := 0 ≤ startNs ∧ startNs ≤ i64Max

/-- The bytes buffered for a segment. -/
def pendingBytes (current : Option CurrentSegment) (startNs : ℤ) : List UInt8 :=
  match current with
  | none => []
  | some cur => if startNs = cur.startNs then cur.buffer else []

/-- A segment file and the bytes buffered for it. -/
def storedBytes (dir : Directory) (current : Option CurrentSegment) (startNs : ℤ) :
    Option (List UInt8) :=
  (segmentFile dir startNs).map (· ++ pendingBytes current startNs)

variable {startNs written : ℤ} {dir : Directory}

theorem segmentFile_appendBytes (hwro : IsStart written) (hbeg : IsStart startNs)
    (bytes : List UInt8) :
    segmentFile (appendBytes dir written bytes) startNs =
      if startNs = written then (segmentFile dir startNs).map (· ++ bytes)
      else segmentFile dir startNs := by
  rw [segmentFile, appendBytes, FiniteMap.getElem?_modify]
  by_cases heq : startNs = written
  · rw [heq, if_pos rfl, if_pos rfl]
    rfl
  · rw [if_neg heq, if_neg fun hname => heq (segmentFilename_injective hbeg hwro hname)]
    rfl

theorem mem_appendBytes {bytes : List UInt8} {name : String} :
    name ∈ appendBytes dir written bytes ↔ name ∈ dir := by
  rw [appendBytes, ExtTreeMap.mem_modify]

theorem isSome_segmentFile : (segmentFile dir startNs).isSome ↔ segmentFilename startNs ∈ dir := by
  rw [segmentFile, ExtTreeMap.mem_iff_isSome_getElem?]

theorem isSome_segmentFile_appendBytes {bytes : List UInt8} :
    (segmentFile (appendBytes dir written bytes) startNs).isSome ↔
      (segmentFile dir startNs).isSome := by
  rw [isSome_segmentFile, isSome_segmentFile, mem_appendBytes]

variable {cur : CurrentSegment}

theorem storedBytes_flushed (hcur : IsStart cur.startNs) (hbeg : IsStart startNs)
    {current : Option CurrentSegment}
    (hflu : ∀ found ∈ current, found.startNs = cur.startNs ∧ found.buffer = []) :
    storedBytes (appendBytes dir cur.startNs cur.buffer) current startNs =
      storedBytes dir (some cur) startNs := by
  have hbuf : pendingBytes current startNs = [] := by
    cases current with
    | none => rfl
    | some found =>
      obtain ⟨-, hemp⟩ := hflu found rfl
      rw [pendingBytes, hemp, ite_self]
  rw [storedBytes, storedBytes, hbuf, segmentFile_appendBytes hcur hbeg]
  by_cases heq : startNs = cur.startNs
  · simp [heq, pendingBytes, Function.comp_def]
  · simp [heq, pendingBytes]

theorem storedBytes_direct (cur : CurrentSegment) (hcur : IsStart cur.startNs)
    (hbeg : IsStart startNs) (hemp : cur.buffer = []) (data : List UInt8) :
    storedBytes (appendBytes dir cur.startNs data) (some cur) startNs =
      (storedBytes dir (some cur) startNs).map
        (· ++ if startNs = cur.startNs then data else []) := by
  rw [storedBytes, storedBytes, segmentFile_appendBytes hcur hbeg]
  by_cases heq : startNs = cur.startNs
  · simp [heq, pendingBytes, hemp, Function.comp_def]
  · simp [heq, pendingBytes]

theorem storedBytes_buffered (cur : CurrentSegment) (data : List UInt8) :
    storedBytes dir (some { cur with buffer := cur.buffer ++ data }) startNs =
      (storedBytes dir (some cur) startNs).map
        (· ++ if startNs = cur.startNs then data else []) := by
  rw [storedBytes, storedBytes, Option.map_map]
  by_cases heq : startNs = cur.startNs
  · simp [heq, pendingBytes, Function.comp_def]
  · simp [heq, pendingBytes, Function.comp_def]

theorem bufWrite_spec (capacity : ℕ) (dir : Directory) (data : List UInt8)
    (hcur : IsStart cur.startNs) :
    (bufWrite capacity cur dir data).1.startNs = cur.startNs ∧
      (bufWrite capacity cur dir data).1.endNs = cur.endNs ∧
      (∀ name, name ∈ (bufWrite capacity cur dir data).2 ↔ name ∈ dir) ∧
      ∀ startNs, IsStart startNs → storedBytes (bufWrite capacity cur dir data).2
          (some (bufWrite capacity cur dir data).1) startNs =
        (storedBytes dir (some cur) startNs).map
          (· ++ if startNs = cur.startNs then data else []) := by
  -- A flushed buffer first, then the data.
  have hflu : ∀ startNs, IsStart startNs →
      storedBytes (appendBytes dir cur.startNs cur.buffer) (some { cur with buffer := [] })
        startNs = storedBytes dir (some cur) startNs := by
    intro startNs hbeg
    apply storedBytes_flushed hcur hbeg
    rintro found ⟨⟩
    exact ⟨rfl, rfl⟩
  by_cases hroom : cur.buffer.length + data.length > capacity
  · by_cases hlar : data.length ≥ capacity
    · simp only [bufWrite, if_pos hroom, if_pos hlar]
      refine ⟨trivial, trivial, fun name => by rw [mem_appendBytes, mem_appendBytes], ?_⟩
      intro startNs hbeg
      rw [← hflu startNs hbeg]
      exact storedBytes_direct { cur with buffer := [] } hcur hbeg rfl data
    · simp only [bufWrite, if_pos hroom, if_neg hlar]
      refine ⟨trivial, trivial, fun name => mem_appendBytes, ?_⟩
      intro startNs hbeg
      rw [← hflu startNs hbeg]
      exact storedBytes_buffered { cur with buffer := [] } data
  · by_cases hlar : data.length ≥ capacity
    · have hemp : cur.buffer = [] := by
        rw [← length_eq_zero_iff]
        omega
      simp only [bufWrite, if_neg hroom, if_pos hlar]
      refine ⟨trivial, trivial, fun name => mem_appendBytes, ?_⟩
      intro startNs hbeg
      exact storedBytes_direct cur hcur hbeg hemp data
    · simp only [bufWrite, if_neg hroom, if_neg hlar]
      exact ⟨trivial, trivial, fun name => trivial, fun _ _ => storedBytes_buffered cur data⟩

theorem writeEntry_spec (codec : LogPayload T) (log : Log) (entry : Entry T)
    (hcur : IsStart cur.startNs) :
    (log.writeEntry codec cur entry).1.startNs = cur.startNs ∧
      (log.writeEntry codec cur entry).1.endNs = cur.endNs ∧
      (∀ name, name ∈ (log.writeEntry codec cur entry).2 ↔ name ∈ log.dir) ∧
      ∀ startNs, IsStart startNs → storedBytes (log.writeEntry codec cur entry).2
          (some (log.writeEntry codec cur entry).1) startNs =
        (storedBytes log.dir (some cur) startNs).map
          (· ++ if startNs = cur.startNs then codec.entryBytes entry else []) := by
  simp only [Log.writeEntry]
  generalize hfst : bufWrite log.capacity cur log.dir
    (Framing.leBytes timestampWidth (i64Word entry.timestampNs)) = first
  generalize hsnd : bufWrite log.capacity first.1 first.2
    (Framing.leBytes lengthWidth (codec.encode entry.payload).length) = second
  generalize hthi : bufWrite log.capacity second.1 second.2 (codec.encode entry.payload) = third
  have h1 := bufWrite_spec log.capacity log.dir
    (Framing.leBytes timestampWidth (i64Word entry.timestampNs)) hcur
  rw [hfst] at h1
  have h2 := bufWrite_spec log.capacity first.2
    (Framing.leBytes lengthWidth (codec.encode entry.payload).length)
    (show IsStart first.1.startNs from h1.1 ▸ hcur)
  rw [hsnd] at h2
  have h3 := bufWrite_spec log.capacity second.2
    (codec.encode entry.payload) (show IsStart second.1.startNs from h2.1 ▸ h1.1 ▸ hcur)
  rw [hthi] at h3
  refine ⟨h3.1.trans (h2.1.trans h1.1), h3.2.1.trans (h2.2.1.trans h1.2.1),
    fun name => (h3.2.2.1 name).trans ((h2.2.2.1 name).trans (h1.2.2.1 name)), ?_⟩
  intro startNs hbeg
  rw [h3.2.2.2 startNs hbeg, h2.2.2.2 startNs hbeg, h1.2.2.2 startNs hbeg, h2.1, h1.1]
  simp only [Option.map_map, Function.comp_def, LogPayload.entryBytes, Framing.encodeFrame,
    LogPayload.frame]
  by_cases heq : startNs = cur.startNs
  · simp [heq]
  · simp [heq]

/-- The entries of one segment. -/
def entriesAt (remaining : List (ℤ × Entry T)) (startNs : ℤ) : List (Entry T) :=
  (remaining.filter (·.1 = startNs)).map Prod.snd

/-- What the files and the buffer of a log hold, given the entries that remain. -/
structure LogInvariant (codec : LogPayload T) (log : Log) (remaining : List (ℤ × Entry T)) :
    Prop where
  duration_pos : 0 < log.segmentDurationNs
  retention_nonneg : 0 ≤ log.retentionNs
  only_segments : OnlySegments log.dir
  mem_starts : ∀ startNs, startNs ∈ log.segmentStarts ↔
    IsStart startNs ∧ (segmentFile log.dir startNs).isSome
  aligned : ∀ startNs ∈ log.segmentStarts, log.segmentDurationNs ∣ startNs
  current_mem : ∀ cur ∈ log.current, cur.startNs ∈ log.segmentStarts
  current_end : ∀ cur ∈ log.current,
    cur.endNs = saturatingAdd cur.startNs log.segmentDurationNs
  stored : ∀ startNs ∈ log.segmentStarts, storedBytes log.dir log.current startNs =
    some (segmentHeader startNs ++ codec.entriesBytes (entriesAt remaining startNs))
  entry_mem : ∀ tagged ∈ remaining, tagged.1 ∈ log.segmentStarts
  entry_window : ∀ tagged ∈ remaining, tagged.1 ≤ tagged.2.timestampNs ∧
    tagged.2.timestampNs < tagged.1 + log.segmentDurationNs
  entry_writable : ∀ tagged ∈ remaining, codec.Writable tagged.2

theorem LogInvariant.openEmpty (codec : LogPayload T) (capacity : ℕ)
    {segmentDurationNs retentionNs : ℤ} (hdur : 0 < segmentDurationNs)
    (hret : 0 ≤ retentionNs) :
    LogInvariant codec (Log.openEmpty capacity segmentDurationNs retentionNs) [] where
  duration_pos := hdur
  retention_nonneg := hret
  only_segments := by
    intro name hname
    exact absurd hname ExtTreeMap.not_mem_empty
  mem_starts := by
    intro startNs
    simp [Log.openEmpty, segmentFile]
  aligned := by simp [Log.openEmpty]
  current_mem := by simp [Log.openEmpty]
  current_end := by simp [Log.openEmpty]
  stored := by simp [Log.openEmpty]
  entry_mem := by simp
  entry_window := by simp
  entry_writable := by simp

section Steps

variable {codec : LogPayload T} {log : Log} {remaining : List (ℤ × Entry T)}

variable {startNs : ℤ}

theorem LogInvariant.isStart (hlog : LogInvariant codec log remaining)
    (hm : startNs ∈ log.segmentStarts) : IsStart startNs :=
  ((hlog.mem_starts startNs).mp hm).1

theorem LogInvariant.of_stored (hlog : LogInvariant codec log remaining)
    {current : Option CurrentSegment} {dir : Directory}
    (hnms : ∀ name, name ∈ dir ↔ name ∈ log.dir)
    (hcurrent : ∀ cur ∈ current, cur.startNs ∈ log.segmentStarts ∧
      cur.endNs = saturatingAdd cur.startNs log.segmentDurationNs)
    (hst : ∀ startNs, IsStart startNs →
      storedBytes dir current startNs = storedBytes log.dir log.current startNs) :
    LogInvariant codec { log with current := current, dir := dir } remaining where
  __ := hlog
  only_segments := fun name hname => hlog.only_segments name ((hnms name).mp hname)
  mem_starts := by
    intro startNs
    rw [isSome_segmentFile]
    simp only
    rw [hnms, ← isSome_segmentFile]
    exact hlog.mem_starts startNs
  current_mem := fun cur hcur => (hcurrent cur hcur).1
  current_end := fun cur hcur => (hcurrent cur hcur).2
  stored := fun startNs hm =>
    (hst startNs (hlog.isStart hm)).trans (hlog.stored startNs hm)

theorem LogInvariant.closeCurrent (hlog : LogInvariant codec log remaining) :
    LogInvariant codec log.closeCurrent remaining := by
  rw [Log.closeCurrent]
  cases hcurrent : log.current with
  | none => exact hlog
  | some cur =>
    have hcur := hlog.isStart (hlog.current_mem cur hcurrent)
    apply hlog.of_stored
    · exact fun name => mem_appendBytes
    · rintro found ⟨⟩
    · intro startNs hbeg
      rw [hcurrent]
      apply storedBytes_flushed hcur hbeg
      rintro found ⟨⟩

theorem LogInvariant.flush (hlog : LogInvariant codec log remaining) :
    LogInvariant codec log.flush remaining := by
  rw [Log.flush]
  cases hcurrent : log.current with
  | none => exact hlog
  | some cur =>
    have hcur := hlog.isStart (hlog.current_mem cur hcurrent)
    apply hlog.of_stored
    · exact fun name => mem_appendBytes
    · rintro found ⟨⟩
      exact ⟨hlog.current_mem cur hcurrent, hlog.current_end cur hcurrent⟩
    · intro startNs hbeg
      rw [hcurrent]
      apply storedBytes_flushed hcur hbeg
      rintro found ⟨⟩
      exact ⟨rfl, rfl⟩

theorem LogInvariant.setRetention (hlog : LogInvariant codec log remaining) (retentionNs : I64) :
    LogInvariant codec (log.setRetention retentionNs).2 remaining := by
  rw [Log.setRetention]
  split
  · exact hlog
  · rename_i hnn
    exact { hlog with retention_nonneg := not_lt.mp hnn }

theorem entriesAt_eq_nil (hnone : ∀ tagged ∈ remaining, tagged.1 ≠ startNs) :
    entriesAt remaining startNs = [] := by
  rw [entriesAt, map_eq_nil_iff, filter_eq_nil_iff]
  intro tagged htag
  simpa using hnone tagged htag

theorem entriesAt_append (remaining : List (ℤ × Entry T)) (tagged : ℤ × Entry T) (startNs : ℤ) :
    entriesAt (remaining ++ [tagged]) startNs =
      entriesAt remaining startNs ++ if startNs = tagged.1 then [tagged.2] else [] := by
  rw [entriesAt, filter_append, map_append, entriesAt]
  congr 1
  by_cases heq : startNs = tagged.1
  · simp [heq]
  · simp [heq, eq_comm]

theorem LogInvariant.startSegment (hlog : LogInvariant codec log remaining)
    (hcl : log.current = none) (hbeg : IsStart startNs)
    (hali : log.segmentDurationNs ∣ startNs) {started : Log}
    (hbgn : log.startSegment startNs = .ok started) :
    LogInvariant codec started remaining := by
  simp only [Log.startSegment] at hbgn
  split at hbgn
  · cases hbgn
  · rename_i habs
    rw [Except.ok.injEq] at hbgn
    subst hbgn
    have hnew : startNs ∉ log.segmentStarts := by
      rw [hlog.mem_starts, isSome_segmentFile]
      exact fun hm => habs hm.2
    have hfile : ∀ other, IsStart other → segmentFile
        (log.dir.insert (segmentFilename startNs) (segmentHeader startNs)) other =
        if other = startNs then some (segmentHeader startNs) else segmentFile log.dir other := by
      intro other ho
      rw [segmentFile, FiniteMap.getElem?_insert]
      by_cases heq : other = startNs
      · rw [heq, if_pos rfl, if_pos rfl]
      · rw [if_neg heq, if_neg fun hname => heq (segmentFilename_injective ho hbeg hname)]
        rfl
    refine ⟨hlog.duration_pos, hlog.retention_nonneg, ?_, ?_, ?_, ?_, ?_, ?_, ?_,
      hlog.entry_window, hlog.entry_writable⟩
    · intro name hname
      rw [ExtTreeMap.mem_insert, Std.LawfulEqOrd.compare_eq_iff_eq] at hname
      rcases hname with rfl | hname
      · exact ⟨startNs, hbeg.1, hbeg.2, rfl⟩
      · exact hlog.only_segments name hname
    · intro other
      rw [Finset.mem_insert, hlog.mem_starts]
      constructor
      · rintro (rfl | ⟨ho, hsome⟩)
        · refine ⟨hbeg, ?_⟩
          rw [hfile other hbeg, if_pos rfl]
          rfl
        · refine ⟨ho, ?_⟩
          rw [hfile other ho]
          split
          · rfl
          · exact hsome
      · rintro ⟨ho, hsome⟩
        rw [hfile other ho] at hsome
        split at hsome
        · exact Or.inl ‹_›
        · exact Or.inr ⟨ho, hsome⟩
    · intro other ho
      rcases Finset.mem_insert.mp ho with rfl | ho
      · exact hali
      · exact hlog.aligned other ho
    · rintro cur ⟨⟩
      exact Finset.mem_insert_self _ _
    · rintro cur ⟨⟩
      rfl
    · intro other ho
      have hrange : IsStart other := by
        rcases Finset.mem_insert.mp ho with rfl | ho
        · exact hbeg
        · exact hlog.isStart ho
      simp only [storedBytes, pendingBytes, hfile other hrange, ite_self, append_nil,
        Option.map_id']
      by_cases heq : other = startNs
      · have hnone : entriesAt remaining startNs = [] := entriesAt_eq_nil fun tagged htag hsm =>
            hnew (hsm ▸ hlog.entry_mem tagged htag)
        rw [if_pos heq, heq, hnone]
        simp [LogPayload.entriesBytes]
      · rw [if_neg heq]
        have hold := hlog.stored other (Finset.mem_of_mem_insert_of_ne ho heq)
        rw [storedBytes, hcl] at hold
        simpa [pendingBytes] using hold
    · exact fun tagged htag => Finset.mem_insert_of_mem (hlog.entry_mem tagged htag)

/-! ### Rollover -/

variable {timestampNs : ℤ}

theorem windowStart_spec {segmentDurationNs : ℤ} (hdur : 0 < segmentDurationNs)
    (htime : 0 ≤ timestampNs) :
    0 ≤ windowStart segmentDurationNs timestampNs ∧
      windowStart segmentDurationNs timestampNs ≤ timestampNs ∧
      timestampNs < windowStart segmentDurationNs timestampNs + segmentDurationNs ∧
      segmentDurationNs ∣ windowStart segmentDurationNs timestampNs := by
  have hmod := Int.emod_nonneg timestampNs hdur.ne'
  have hlt := Int.emod_lt_of_pos timestampNs hdur
  have hsp := Int.ediv_mul_add_emod timestampNs segmentDurationNs
  have hquo := Int.ediv_nonneg htime hdur.le
  rw [windowStart]
  exact ⟨mul_nonneg hquo hdur.le, by omega, by omega, Dvd.intro_left _ rfl⟩

theorem Log.closeCurrent_fields (log : Log) : log.closeCurrent.current = none ∧
      log.closeCurrent.segmentDurationNs = log.segmentDurationNs ∧
      log.closeCurrent.retentionNs = log.retentionNs ∧
      log.closeCurrent.segmentStarts = log.segmentStarts ∧
      ∀ name, name ∈ log.closeCurrent.dir ↔ name ∈ log.dir := by
  rw [Log.closeCurrent]
  cases hcurrent : log.current with
  | none => exact ⟨hcurrent, rfl, rfl, rfl, fun name => Iff.rfl⟩
  | some cur => exact ⟨rfl, rfl, rfl, rfl, fun name => mem_appendBytes⟩

theorem rollover_cases (log : Log) (timestampNs : ℤ) :
    (∃ cur ∈ log.current, cur.startNs ≤ timestampNs ∧ timestampNs < cur.endNs ∧
      log.rollover timestampNs = (.ok (), log)) ∨
    (log.needsNew timestampNs = true ∧
      segmentFilename (windowStart log.segmentDurationNs timestampNs) ∉ log.dir ∧
      ∃ started, log.closeCurrent.startSegment
          (windowStart log.segmentDurationNs timestampNs) = .ok started ∧
        log.rollover timestampNs = (.ok (), started)) ∨
    (log.needsNew timestampNs = true ∧
      segmentFilename (windowStart log.segmentDurationNs timestampNs) ∈ log.dir ∧
      log.rollover timestampNs = (.error .alreadyExists, log.closeCurrent)) := by
  by_cases hnew : log.needsNew timestampNs = true
  · right
    have hnms := log.closeCurrent_fields.2.2.2.2
      (segmentFilename (windowStart log.segmentDurationNs timestampNs))
    by_cases hexi : segmentFilename (windowStart log.segmentDurationNs timestampNs) ∈ log.dir
    · right
      refine ⟨hnew, hexi, ?_⟩
      simp only [Log.rollover, if_pos hnew, Log.startSegment, if_pos (hnms.mpr hexi)]
    · left
      refine ⟨hnew, hexi, ?_⟩
      simp only [Log.rollover, if_pos hnew, Log.startSegment, if_neg fun hm => hexi (hnms.mp hm)]
      exact ⟨_, rfl, rfl⟩
  · left
    cases hcurrent : log.current with
    | none =>
      rw [Log.needsNew, hcurrent] at hnew
      exact absurd rfl hnew
    | some cur =>
      have hwin : ¬ (timestampNs ≥ cur.endNs ∨ timestampNs < cur.startNs) := by
        rw [Log.needsNew, hcurrent] at hnew
        simpa using hnew
      refine ⟨cur, rfl, by omega, by omega, ?_⟩
      rw [Log.rollover, if_neg hnew]

theorem LogInvariant.rollover_ok (hlog : LogInvariant codec log remaining) (htime : 0 ≤ timestampNs)
    (hmax : timestampNs ≤ i64Max) {next : Log} (hn : log.rollover timestampNs = (.ok (), next)) :
    LogInvariant codec next remaining ∧
      next.segmentDurationNs = log.segmentDurationNs ∧ next.retentionNs = log.retentionNs ∧
      ∃ cur ∈ next.current, cur.startNs ≤ timestampNs ∧
        timestampNs < cur.startNs + log.segmentDurationNs := by
  rcases rollover_cases log timestampNs with
    ⟨cur, hcur, hlow, hupp, hsm⟩ | ⟨-, -, started, hbgn, hsm⟩ | ⟨-, -, hfail⟩
  · rw [hsm, Prod.mk.injEq] at hn
    obtain ⟨-, rfl⟩ := hn
    have hend := hlog.current_end cur hcur
    refine ⟨hlog, rfl, rfl, cur, hcur, hlow, ?_⟩
    rw [hend, saturatingAdd] at hupp
    omega
  · rw [hsm, Prod.mk.injEq] at hn
    obtain ⟨-, rfl⟩ := hn
    obtain ⟨hcl, hdur, hret, -, -⟩ := log.closeCurrent_fields
    obtain ⟨hnn, hle, hlt, hdvd⟩ := windowStart_spec hlog.duration_pos htime
    have hinv := hlog.closeCurrent.startSegment hcl ⟨hnn, hle.trans hmax⟩
      (hdur ▸ hdvd) hbgn
    simp only [Log.startSegment] at hbgn
    split at hbgn
    · cases hbgn
    · rw [Except.ok.injEq] at hbgn
      subst hbgn
      exact ⟨hinv, hdur, hret, _, rfl, hle, hlt⟩
  · rw [hfail] at hn
    cases hn

theorem rollover_error {error : LogError} {next : Log}
    (hn : log.rollover timestampNs = (.error error, next)) :
    next = log.closeCurrent ∧ error = .alreadyExists := by
  rcases rollover_cases log timestampNs with
    ⟨_, _, _, _, hsm⟩ | ⟨_, _, _, _, hsm⟩ | ⟨_, _, hfail⟩
  · rw [hsm] at hn
    cases hn
  · rw [hsm] at hn
    cases hn
  · rw [hfail] at hn
    cases hn
    exact ⟨rfl, rfl⟩

/-! ### Appending and evicting -/

theorem LogInvariant.writeEntry (hlog : LogInvariant codec log remaining)
    {cur : CurrentSegment} (hcur : cur ∈ log.current) (entry : Entry T)
    (hwin : cur.startNs ≤ entry.timestampNs ∧
      entry.timestampNs < cur.startNs + log.segmentDurationNs)
    (hwbl : codec.Writable entry) :
    LogInvariant codec
      { log with
        current := some (log.writeEntry codec cur entry).1
        dir := (log.writeEntry codec cur entry).2 }
      (remaining ++ [(cur.startNs, entry)]) := by
  have hm := hlog.current_mem cur hcur
  obtain ⟨hsm, hend, hnms, hst⟩ := writeEntry_spec codec log entry (hlog.isStart hm)
  refine ⟨hlog.duration_pos, hlog.retention_nonneg,
    fun name hname => hlog.only_segments name ((hnms name).mp hname), ?_, hlog.aligned,
    ?_, ?_, ?_, ?_, ?_, ?_⟩
  · intro startNs
    rw [hlog.mem_starts, isSome_segmentFile, isSome_segmentFile, hnms]
  · rintro found ⟨⟩
    exact hsm ▸ hm
  · rintro found ⟨⟩
    rw [hend, hsm]
    exact hlog.current_end cur hcur
  · intro startNs hbeg
    have hold := hlog.stored startNs hbeg
    have hcurrent : log.current = some cur := hcur
    rw [hcurrent] at hold
    rw [hst startNs (hlog.isStart hbeg), hold, Option.map_some, entriesAt_append,
      LogPayload.entriesBytes, LogPayload.entriesBytes, map_append,
      Framing.encodeFrames_append, ← append_assoc]
    congr 2
    by_cases heq : startNs = cur.startNs
    · simp [heq, LogPayload.entryBytes, Framing.encodeFrames]
    · simp [heq]
  · intro tagged htag
    rcases mem_append.mp htag with htag | htag
    · exact hlog.entry_mem tagged htag
    · rw [mem_singleton] at htag
      subst htag
      exact hm
  · intro tagged htag
    rcases mem_append.mp htag with htag | htag
    · exact hlog.entry_window tagged htag
    · rw [mem_singleton] at htag
      subst htag
      exact hwin
  · intro tagged htag
    rcases mem_append.mp htag with htag | htag
    · exact hlog.entry_writable tagged htag
    · rw [mem_singleton] at htag
      subst htag
      exact hwbl

theorem segmentFile_eraseAll {dir : Directory} {starts : Finset ℤ}
    (hsts : ∀ startNs ∈ starts, IsStart startNs) (hbeg : IsStart startNs) :
    segmentFile (KeyedLog.eraseAll ((starts.sort (· ≤ ·)).map segmentFilename) dir) startNs =
      if startNs ∈ starts then none else segmentFile dir startNs := by
  rw [segmentFile, KeyedLog.getElem?_eraseAll]
  have hm : segmentFilename startNs ∈ (starts.sort (· ≤ ·)).map segmentFilename ↔
      startNs ∈ starts := by
    rw [mem_map]
    constructor
    · rintro ⟨other, ho, hname⟩
      rw [Finset.mem_sort] at ho
      rwa [← segmentFilename_injective (hsts other ho) hbeg hname]
    · intro hbeg
      exact ⟨startNs, (Finset.mem_sort _).mpr hbeg, rfl⟩
  simp only [hm]
  rfl

theorem afterEvent_evicted (starts : List ℤ) (remaining : List (ℤ × Entry T)) :
    (starts.map LogEvent.evicted).foldl afterEvent remaining = remaining.filter (·.1 ∉ starts) := by
  induction starts generalizing remaining with
  | nil => simp
  | cons startNs starts ih =>
    rw [map_cons, foldl_cons, ih, afterEvent, filter_filter]
    congr 1
    funext tagged
    simp [Bool.and_comm]

theorem LogInvariant.evictOlderThan (hlog : LogInvariant codec log remaining) (thresholdNs : ℤ) :
    LogInvariant codec (log.evictOlderThan thresholdNs)
      (remaining.filter (·.1 ∉ log.expired thresholdNs)) := by
  have hexp : ∀ startNs ∈ log.expired thresholdNs, startNs ∈ log.segmentStarts :=
    fun startNs hm => (Finset.mem_filter.mp hm).1
  have hsts : ∀ startNs ∈ log.expired thresholdNs, IsStart startNs :=
    fun startNs hm => hlog.isStart (hexp startNs hm)
  have hkept : ∀ startNs, IsStart startNs → startNs ∉ log.expired thresholdNs →
      segmentFile (log.evictOlderThan thresholdNs).dir startNs = segmentFile log.dir startNs := by
    intro startNs hbeg hkept
    rw [Log.evictOlderThan]
    simp only
    rw [segmentFile_eraseAll hsts hbeg, if_neg hkept]
  refine ⟨hlog.duration_pos, hlog.retention_nonneg, ?_, ?_, ?_, ?_, hlog.current_end, ?_, ?_,
    ?_, ?_⟩
  · intro name hname
    apply hlog.only_segments
    rw [ExtTreeMap.mem_iff_isSome_getElem?] at hname ⊢
    simp only [Log.evictOlderThan, KeyedLog.getElem?_eraseAll] at hname
    split at hname
    · cases hname
    · exact hname
  · intro startNs
    simp only [Log.evictOlderThan, Finset.mem_sdiff, hlog.mem_starts]
    constructor
    · rintro ⟨⟨hbeg, hsome⟩, hkept⟩
      refine ⟨hbeg, ?_⟩
      rw [segmentFile_eraseAll hsts hbeg, if_neg hkept]
      exact hsome
    · rintro ⟨hbeg, hsome⟩
      rw [segmentFile_eraseAll hsts hbeg] at hsome
      split at hsome
      · cases hsome
      · exact ⟨⟨hbeg, hsome⟩, ‹_›⟩
  · exact fun startNs hm => hlog.aligned startNs (Finset.mem_sdiff.mp hm).1
  · intro cur hcur
    refine Finset.mem_sdiff.mpr ⟨hlog.current_mem cur hcur, fun hm => ?_⟩
    have hcurrent : log.current = some cur := hcur
    have ho := (Finset.mem_filter.mp hm).2.2
    rw [hcurrent] at ho
    exact ho rfl
  · intro startNs hm
    obtain ⟨hold, hm⟩ := Finset.mem_sdiff.mp hm
    have hst := hlog.stored startNs hold
    rw [storedBytes] at hst ⊢
    rw [hkept startNs (hlog.isStart hold) hm]
    have hents : entriesAt (remaining.filter (·.1 ∉ log.expired thresholdNs)) startNs =
        entriesAt remaining startNs := by
      rw [entriesAt, entriesAt, filter_filter]
      congr 1
      apply filter_congr
      intro tagged _
      by_cases heq : tagged.1 = startNs
      · simp [heq, hm]
      · simp [heq]
    rw [hents]
    exact hst
  · intro tagged htag
    obtain ⟨htag, hkept⟩ := mem_filter.mp htag
    exact Finset.mem_sdiff.mpr ⟨hlog.entry_mem tagged htag, by simpa using hkept⟩
  · exact fun tagged htag => hlog.entry_window tagged (mem_filter.mp htag).1
  · exact fun tagged htag => hlog.entry_writable tagged (mem_filter.mp htag).1

/-- An append is rejected before anything is written, or written with evictions. -/
theorem LogInvariant.append_cases (hlog : LogInvariant codec log remaining) (timestampNs : I64)
    (payload : T) :
    (∃ error next, log.append codec timestampNs payload = (.error error, next, []) ∧
      LogInvariant codec next remaining ∧ next.segmentDurationNs = log.segmentDurationNs ∧
      next.retentionNs = log.retentionNs) ∨
    ∃ opened cur, log.rollover timestampNs.value = (.ok (), opened) ∧ cur ∈ opened.current ∧
      0 ≤ timestampNs.value ∧ (codec.encode payload).length < 2 ^ 32 ∧
      opened.segmentDurationNs = log.segmentDurationNs ∧
      opened.retentionNs = log.retentionNs ∧
      ∃ written : Log, written.segmentDurationNs = log.segmentDurationNs ∧
        written.retentionNs = log.retentionNs ∧
        written.current.map CurrentSegment.startNs = some cur.startNs ∧
        written.segmentStarts = opened.segmentStarts ∧
        LogInvariant codec written (remaining ++ [(cur.startNs, ⟨timestampNs.value, payload⟩)]) ∧
        log.append codec timestampNs payload =
          if log.retentionNs > 0 then
            (.ok (), written.evictOlderThan (timestampNs.value - log.retentionNs),
              .appended cur.startNs ⟨timestampNs.value, payload⟩ log.retentionNs ::
                ((written.expired (timestampNs.value - log.retentionNs)).sort (· ≤ ·)).map
                  .evicted)
          else
            (.ok (), written,
              [.appended cur.startNs ⟨timestampNs.value, payload⟩ log.retentionNs]) := by
  by_cases hneg : timestampNs.value < 0
  · left
    refine ⟨.format "timestamp_ns must be ≥ 0", log, ?_, hlog, rfl, rfl⟩
    rw [Log.append, if_pos hneg]
  · rw [not_lt] at hneg
    cases hroll : log.rollover timestampNs.value with
    | mk outcome opened =>
      cases outcome with
      | error error =>
        left
        obtain ⟨rfl, rfl⟩ := rollover_error hroll
        obtain ⟨-, hdur, hret, -, -⟩ := log.closeCurrent_fields
        refine ⟨.alreadyExists, log.closeCurrent, ?_, hlog.closeCurrent, hdur, hret⟩
        rw [Log.append, if_neg (not_lt.mpr hneg), hroll]
      | ok done =>
        obtain ⟨hopn, hdur, hret, cur, hcur, hlow, hupp⟩ :=
          hlog.rollover_ok hneg timestampNs.upper hroll
        by_cases hsize : (codec.encode payload).length ≥ 2 ^ 32
        · left
          refine ⟨.format "payload exceeds u32::MAX bytes", opened, ?_, hopn, hdur,
            hret⟩
          rw [Log.append, if_neg (not_lt.mpr hneg), hroll]
          simp only [if_pos hsize]
        · right
          have hcurrent : opened.current = some cur := hcur
          have hsm := (writeEntry_spec codec opened ⟨timestampNs.value, payload⟩
            (hopn.isStart (hopn.current_mem cur hcur))).1
          have hwro := hopn.writeEntry hcur ⟨timestampNs.value, payload⟩
            ⟨hlow, hdur ▸ hupp⟩
            ⟨hneg, timestampNs.upper, not_le.mp hsize⟩
          refine ⟨opened, cur, rfl, hcur, hneg, not_le.mp hsize, hdur, hret,
            { opened with
              current := some (opened.writeEntry codec cur ⟨timestampNs.value, payload⟩).1
              dir := (opened.writeEntry codec cur ⟨timestampNs.value, payload⟩).2 },
            hdur, hret, ?_, rfl, hwro, ?_⟩
          · exact congrArg some hsm
          · rw [Log.append, if_neg (not_lt.mpr hneg), hroll]
            simp only [if_neg hsize, hcurrent, hret]

theorem LogInvariant.append (hlog : LogInvariant codec log remaining) (timestampNs : I64)
    (payload : T) :
    LogInvariant codec (log.append codec timestampNs payload).2.1
      ((log.append codec timestampNs payload).2.2.foldl afterEvent remaining) := by
  rcases hlog.append_cases timestampNs payload with
    ⟨error, next, hres, hn, -, -⟩ |
    ⟨opened, cur, -, -, -, -, -, -, written, -, -, -, -, hwro, hres⟩
  · rw [hres]
    exact hn
  · rw [hres]
    split
    · rw [foldl_cons, afterEvent_evicted]
      have hevi := hwro.evictOlderThan (timestampNs.value - log.retentionNs)
      simpa only [Finset.mem_sort, afterEvent] using hevi
    · exact hwro

end Steps

theorem logInvariant_run (codec : LogPayload T) (capacity : ℕ) {segmentDurationNs retentionNs : ℤ}
    (hdur : 0 < segmentDurationNs) (hret : 0 ≤ retentionNs)
    (calls : List (LogCall T)) :
    LogInvariant codec (TracedLog.run codec capacity segmentDurationNs retentionNs calls).log
      (remainingEntries
        (TracedLog.run codec capacity segmentDurationNs retentionNs calls).events) := by
  induction calls using List.reverseRecOn with
  | nil => exact LogInvariant.openEmpty codec capacity hdur hret
  | append_singleton calls call ih =>
    rw [TracedLog.run, foldl_concat, ← TracedLog.run]
    generalize TracedLog.run codec capacity segmentDurationNs retentionNs calls = traced at ih
    cases call with
    | append timestampNs payload =>
      simp only [TracedLog.call, remainingEntries, foldl_append]
      exact ih.append timestampNs payload
    | flush => exact ih.flush
    | setRetention retentionNs => exact ih.setRetention retentionNs

end AukiSdk.Logs
