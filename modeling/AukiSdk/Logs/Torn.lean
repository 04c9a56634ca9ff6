import AukiSdk.Logs.RejectedAppend

/-!
# Torn segments

A writer that stopped without closing leaves a segment whose last bytes are no whole entry.
-/

namespace AukiSdk.Logs

open AukiSdk.Foundation List
open Std (ExtTreeMap)

variable {T : Type}

/-- A beginning of a frame that ends before the frame does. -/
def Tear (bytes : List UInt8) : Prop :=
  ∃ frame, Framing.Fits timestampWidth lengthWidth frame ∧
    bytes <+: Framing.encodeFrame timestampWidth lengthWidth frame ∧
    bytes.length < (Framing.encodeFrame timestampWidth lengthWidth frame).length

/-- The entries that lie whole within the first `kept` bytes. -/
def LogPayload.wholeEntries (codec : LogPayload T) : ℕ → List (Entry T) → List (Entry T)
  | _, [] => []
  | kept, entry :: entries =>
    if (codec.entryBytes entry).length ≤ kept then
      entry :: codec.wholeEntries (kept - (codec.entryBytes entry).length) entries
    else
      []

theorem tear_nil : Tear [] := by
  refine ⟨(0, []), ⟨by decide, by decide⟩, nil_prefix, ?_⟩
  rw [Framing.length_encodeFrame]
  exact Nat.lt_add_right _ (by decide)

theorem Tear.take {bytes : List UInt8} (htear : Tear bytes) (kept : ℕ) :
    Tear (bytes.take kept) := by
  obtain ⟨frame, hfits, hinit, hsho⟩ := htear
  exact ⟨frame, hfits, (List.take_prefix _ _).trans hinit, (length_take_le' _ _).trans_lt hsho⟩

theorem Tear.readFrame {bytes : List UInt8} (htear : Tear bytes) :
    Framing.readFrame timestampWidth lengthWidth bytes = none := by
  obtain ⟨frame, hfits, hinit, hsho⟩ := htear
  exact Framing.readFrame_eq_none hfits hinit hsho

theorem LogPayload.wholeEntries_initial (codec : LogPayload T) (kept : ℕ)
    (entries : List (Entry T)) : codec.wholeEntries kept entries <+: entries := by
  induction entries generalizing kept with
  | nil => exact nil_prefix
  | cons entry entries ih =>
    rw [LogPayload.wholeEntries]
    split
    · exact cons_prefix_cons.mpr ⟨rfl, ih _⟩
    · exact nil_prefix

theorem LogPayload.take_entriesBytes {codec : LogPayload T} {tail : List UInt8}
    (htail : Tear tail) (kept : ℕ) {entries : List (Entry T)}
    (hwbl : ∀ entry ∈ entries, codec.Writable entry) :
    ∃ rest, Tear rest ∧ (codec.entriesBytes entries ++ tail).take kept =
      codec.entriesBytes (codec.wholeEntries kept entries) ++ rest := by
  induction entries generalizing kept with
  | nil => exact ⟨tail.take kept, htail.take kept, rfl⟩
  | cons entry entries ih =>
    have hbyt : codec.entriesBytes (entry :: entries) =
        codec.entryBytes entry ++ codec.entriesBytes entries := by
      rw [LogPayload.entriesBytes, map_cons, Framing.encodeFrames_cons]
      rfl
    by_cases hwhl : (codec.entryBytes entry).length ≤ kept
    · obtain ⟨rest, hrest, hsp⟩ := ih (kept - (codec.entryBytes entry).length)
        fun other ho => hwbl other (mem_cons_of_mem _ ho)
      refine ⟨rest, hrest, ?_⟩
      have hcons : codec.entriesBytes (codec.wholeEntries kept (entry :: entries)) =
          codec.entryBytes entry ++ codec.entriesBytes
            (codec.wholeEntries (kept - (codec.entryBytes entry).length) entries) := by
        rw [LogPayload.wholeEntries, if_pos hwhl, LogPayload.entriesBytes, map_cons,
          Framing.encodeFrames_cons]
        rfl
      rw [hbyt, hcons, append_assoc, append_assoc, take_append, hsp, take_of_length_le hwhl]
    · rw [not_le] at hwhl
      refine ⟨(codec.entryBytes entry).take kept, ⟨codec.frame entry,
        codec.fits_frame (hwbl entry mem_cons_self), take_prefix _ _, ?_⟩, ?_⟩
      · exact (length_take_le _ _).trans_lt hwhl
      · rw [LogPayload.wholeEntries, if_neg (not_le.mpr hwhl), hbyt, append_assoc,
          take_append_of_le_length hwhl.le]
        rfl

theorem LogPayload.readSegmentEntries_torn {codec : LogPayload T} (hlaw : codec.Lawful)
    (name : String) (startNs : ℤ) {entries : List (Entry T)}
    (hwbl : ∀ entry ∈ entries, codec.Writable entry) {tail : List UInt8}
    (htail : Tear tail) :
    codec.readSegmentEntries name
      ((segmentHeader startNs ++ codec.entriesBytes entries) ++ tail) = .ok entries := by
  have hheader := length_segmentHeader startNs
  rw [append_assoc]
  generalize hfile : segmentHeader startNs ++ (codec.entriesBytes entries ++ tail) = file
  have hlen : file.length = headerSize + ((codec.entriesBytes entries).length + tail.length) := by
    rw [← hfile, length_append, length_append, hheader]
  have hmag : file.take 4 = [65, 75, 76, 71] := by
    rw [← hfile]
    simp [segmentHeader]
  have hver : Framing.leValue ((file.drop 4).take 2) = 1 := by
    rw [← hfile]
    simp [segmentHeader, Framing.leBytes, Framing.leValue]
  have hbody : file.drop headerSize = codec.entriesBytes entries ++ tail := by
    rw [← hfile]
    exact drop_left' hheader
  have hframes : Framing.readFrames timestampWidth lengthWidth (file.length + 1)
      (codec.entriesBytes entries ++ tail) = entries.map codec.frame := by
    apply Framing.readFrames_append htail.readFrame
    · intro frame hfrm
      obtain ⟨entry, hent, rfl⟩ := mem_map.mp hfrm
      exact codec.fits_frame (hwbl entry hent)
    · have hcnt : (entries.map codec.frame).length ≤ (codec.entriesBytes entries).length :=
        Framing.length_le_encodeFrames (by decide) _
      omega
  rw [LogPayload.readSegmentEntries, if_neg (by omega), if_neg (by rw [hmag]; simp)]
  simp only [hver, ne_eq, not_true_eq_false, if_false, hbody, hframes]
  exact codec.mapM_readEntry hlaw hwbl

/-- A directory whose files are those of another one, each with a tear at its
end. -/
structure TornFiles (whole torn : Directory) : Prop where
  names : ∀ name : String, name ∈ torn ↔ name ∈ whole
  tears : ∀ (name : String) (bytes : List UInt8), whole[name]? = some bytes →
    ∃ tail : List UInt8, torn[name]? = some (bytes ++ tail) ∧ Tear tail

/-- A file that is not torn. -/
def Intact (whole torn : Directory) (startNs : ℤ) : Prop :=
  torn[segmentFilename startNs]? = whole[segmentFilename startNs]?

section Files

variable {whole torn : Directory}

theorem TornFiles.refl (dir : Directory) : TornFiles dir dir :=
  ⟨fun _ => Iff.rfl, fun _ bytes hbyt => ⟨[], by rw [hbyt, append_nil], tear_nil⟩⟩

theorem TornFiles.appendBytes (hfls : TornFiles whole torn) {startNs : ℤ}
    (hint : Intact whole torn startNs) (bytes : List UInt8) :
    TornFiles (appendBytes whole startNs bytes) (appendBytes torn startNs bytes) ∧
      Intact (Logs.appendBytes whole startNs bytes) (Logs.appendBytes torn startNs bytes)
        startNs := by
  refine ⟨⟨?_, ?_⟩, ?_⟩
  · intro name
    rw [mem_appendBytes, mem_appendBytes, hfls.names]
  · intro name found hf
    simp only [Logs.appendBytes, FiniteMap.getElem?_modify] at hf ⊢
    by_cases hname : name = segmentFilename startNs
    · subst hname
      rw [if_pos rfl] at hf ⊢
      rw [hint, hf]
      exact ⟨[], by rw [append_nil], tear_nil⟩
    · rw [if_neg hname] at hf ⊢
      exact hfls.tears name found hf
  · simp only [Intact, Logs.appendBytes, FiniteMap.getElem?_modify, if_true]
    rw [hint]

theorem TornFiles.insert (hfls : TornFiles whole torn) (startNs : ℤ) (bytes : List UInt8) :
    TornFiles (whole.insert (segmentFilename startNs) bytes)
        (torn.insert (segmentFilename startNs) bytes) ∧
      Intact (whole.insert (segmentFilename startNs) bytes)
        (torn.insert (segmentFilename startNs) bytes) startNs := by
  refine ⟨⟨?_, ?_⟩, ?_⟩
  · intro name
    rw [ExtTreeMap.mem_insert, ExtTreeMap.mem_insert, hfls.names]
  · intro name found hf
    rw [FiniteMap.getElem?_insert] at hf ⊢
    by_cases hname : name = segmentFilename startNs
    · rw [if_pos hname] at hf ⊢
      exact ⟨[], by rw [hf, append_nil], tear_nil⟩
    · rw [if_neg hname] at hf ⊢
      exact hfls.tears name found hf
  · rw [Intact, FiniteMap.getElem?_insert, FiniteMap.getElem?_insert, if_pos rfl, if_pos rfl]

theorem TornFiles.eraseAll (hfls : TornFiles whole torn) (names : List String) :
    TornFiles (KeyedLog.eraseAll names whole) (KeyedLog.eraseAll names torn) where
  names := by
    intro name
    rw [ExtTreeMap.mem_iff_isSome_getElem?, ExtTreeMap.mem_iff_isSome_getElem?,
      KeyedLog.getElem?_eraseAll, KeyedLog.getElem?_eraseAll]
    split
    · exact Iff.rfl
    · rw [← ExtTreeMap.mem_iff_isSome_getElem?, ← ExtTreeMap.mem_iff_isSome_getElem?, hfls.names]
  tears := by
    intro name found hf
    rw [KeyedLog.getElem?_eraseAll] at hf ⊢
    split
    · rename_i hname
      rw [if_pos hname] at hf
      cases hf
    · rename_i hname
      rw [if_neg hname] at hf
      exact hfls.tears name found hf

theorem TornFiles.listSegments (hfls : TornFiles whole torn) :
    listSegments torn = listSegments whole := by
  have hsm : (torn.keys.filterMap segmentStart).toFinset =
      (whole.keys.filterMap segmentStart).toFinset := by
    ext startNs
    simp only [mem_toFinset, mem_filterMap, ExtTreeMap.mem_keys, hfls.names]
  rw [Logs.listSegments, Logs.listSegments, hsm]

end Files

/-- A log that can run over the torn files: the one it is writing is not torn. -/
structure Torn (whole : Log) (dir : Directory) : Prop where
  files : TornFiles whole.dir dir
  current : ∀ cur ∈ whole.current, Intact whole.dir dir cur.startNs

section Running

variable {whole : Log} {dir : Directory}

theorem Torn.closeCurrent (htorn : Torn whole dir) :
    ∃ next, { whole with dir := dir }.closeCurrent = { whole.closeCurrent with dir := next } ∧
      Torn whole.closeCurrent next := by
  cases hcurrent : whole.current with
  | none =>
    refine ⟨dir, ?_, ?_⟩
    · simp only [Log.closeCurrent, hcurrent]
    · simp only [Log.closeCurrent, hcurrent]
      exact htorn
  | some cur =>
    refine ⟨appendBytes dir cur.startNs cur.buffer, ?_, ?_⟩
    · simp only [Log.closeCurrent, hcurrent]
    · simp only [Log.closeCurrent, hcurrent]
      refine ⟨(htorn.files.appendBytes (htorn.current cur hcurrent) _).1, ?_⟩
      rintro found ⟨⟩

theorem Torn.flush (htorn : Torn whole dir) :
    ∃ next, { whole with dir := dir }.flush = { whole.flush with dir := next } ∧
      Torn whole.flush next := by
  cases hcurrent : whole.current with
  | none =>
    refine ⟨dir, ?_, ?_⟩
    · simp only [Log.flush, hcurrent]
    · simp only [Log.flush, hcurrent]
      exact htorn
  | some cur =>
    have hwro := htorn.files.appendBytes (htorn.current cur hcurrent) cur.buffer
    refine ⟨appendBytes dir cur.startNs cur.buffer, ?_, ?_⟩
    · simp only [Log.flush, hcurrent]
    · simp only [Log.flush, hcurrent]
      refine ⟨hwro.1, ?_⟩
      rintro found ⟨⟩
      exact hwro.2

theorem Torn.rollover (htorn : Torn whole dir) (timestampNs : ℤ) :
    ∃ next, { whole with dir := dir }.rollover timestampNs =
        ((whole.rollover timestampNs).1,
          { (whole.rollover timestampNs).2 with dir := next }) ∧
      Torn (whole.rollover timestampNs).2 next := by
  have hnee : { whole with dir := dir }.needsNew timestampNs = whole.needsNew timestampNs := rfl
  by_cases hnew : whole.needsNew timestampNs = true
  · obtain ⟨closed, hcl, htor⟩ := htorn.closeCurrent
    simp only [Log.rollover, hnee, if_pos hnew, hcl, Log.startSegment, htor.files.names]
    by_cases hexi : segmentFilename (windowStart whole.segmentDurationNs timestampNs) ∈
        whole.closeCurrent.dir
    · simp only [if_pos hexi]
      exact ⟨closed, rfl, htor⟩
    · simp only [if_neg hexi]
      have hins := htor.files.insert
        (windowStart whole.segmentDurationNs timestampNs)
        (segmentHeader (windowStart whole.segmentDurationNs timestampNs))
      refine ⟨_, rfl, hins.1, ?_⟩
      rintro found ⟨⟩
      exact hins.2
  · simp only [Log.rollover, hnee, if_neg hnew]
    exact ⟨dir, rfl, htorn⟩

theorem TornFiles.bufWrite {files torn : Directory} (hfls : TornFiles files torn)
    (capacity : ℕ) (cur : CurrentSegment) (hint : Intact files torn cur.startNs)
    (data : List UInt8) :
    (bufWrite capacity cur torn data).1 = (bufWrite capacity cur files data).1 ∧
      TornFiles (bufWrite capacity cur files data).2 (bufWrite capacity cur torn data).2 ∧
      (Logs.bufWrite capacity cur files data).1.startNs = cur.startNs ∧
      Intact (Logs.bufWrite capacity cur files data).2 (Logs.bufWrite capacity cur torn data).2
        cur.startNs := by
  have hflu := hfls.appendBytes hint cur.buffer
  by_cases hroom : cur.buffer.length + data.length > capacity
  · by_cases hlar : data.length ≥ capacity
    · simp only [Logs.bufWrite, if_pos hroom, if_pos hlar]
      have hwro := hflu.1.appendBytes hflu.2 data
      exact ⟨trivial, hwro.1, trivial, hwro.2⟩
    · simp only [Logs.bufWrite, if_pos hroom, if_neg hlar]
      exact ⟨trivial, hflu.1, trivial, hflu.2⟩
  · by_cases hlar : data.length ≥ capacity
    · simp only [Logs.bufWrite, if_neg hroom, if_pos hlar]
      have hwro := hfls.appendBytes hint data
      exact ⟨trivial, hwro.1, trivial, hwro.2⟩
    · simp only [Logs.bufWrite, if_neg hroom, if_neg hlar]
      exact ⟨trivial, hfls, trivial, hint⟩

theorem Torn.writeEntry (htorn : Torn whole dir) (codec : LogPayload T) {cur : CurrentSegment}
    (hcur : cur ∈ whole.current) (entry : Entry T) :
    ({ whole with dir := dir }.writeEntry codec cur entry).1 =
        (whole.writeEntry codec cur entry).1 ∧
      Torn { whole with
          current := some (whole.writeEntry codec cur entry).1
          dir := (whole.writeEntry codec cur entry).2 }
        ({ whole with dir := dir }.writeEntry codec cur entry).2 := by
  have hfst := htorn.files.bufWrite whole.capacity cur (htorn.current cur hcur)
    (Framing.leBytes timestampWidth (i64Word entry.timestampNs))
  simp only [Log.writeEntry]
  rw [hfst.1]
  generalize hone : bufWrite whole.capacity cur whole.dir
    (Framing.leBytes timestampWidth (i64Word entry.timestampNs)) = one at hfst ⊢
  generalize (bufWrite whole.capacity cur dir
    (Framing.leBytes timestampWidth (i64Word entry.timestampNs))).2 = tornOne at hfst ⊢
  have hsnd := hfst.2.1.bufWrite whole.capacity one.1
    (hfst.2.2.1 ▸ hfst.2.2.2) (Framing.leBytes lengthWidth (codec.encode entry.payload).length)
  rw [hsnd.1]
  generalize htwo : bufWrite whole.capacity one.1 one.2
    (Framing.leBytes lengthWidth (codec.encode entry.payload).length) = two at hsnd ⊢
  generalize (bufWrite whole.capacity one.1 tornOne
    (Framing.leBytes lengthWidth (codec.encode entry.payload).length)).2 = tornTwo at hsnd ⊢
  have hthi := hsnd.2.1.bufWrite whole.capacity two.1
    (hsnd.2.2.1 ▸ hsnd.2.2.2) (codec.encode entry.payload)
  refine ⟨hthi.1, hthi.2.1, ?_⟩
  rintro found ⟨⟩
  rw [hthi.2.2.1]
  exact hthi.2.2.2

theorem Torn.evictOlderThan (htorn : Torn whole dir) (thresholdNs : ℤ) :
    ∃ next, { whole with dir := dir }.evictOlderThan thresholdNs =
        { whole.evictOlderThan thresholdNs with dir := next } ∧
      Torn (whole.evictOlderThan thresholdNs) next := by
  refine ⟨KeyedLog.eraseAll
    (((whole.expired thresholdNs).sort (· ≤ ·)).map segmentFilename) dir, rfl,
    htorn.files.eraseAll _, ?_⟩
  intro cur hcur
  have hint : Intact whole.dir dir cur.startNs := htorn.current cur hcur
  simp only [Intact, Log.evictOlderThan, KeyedLog.getElem?_eraseAll]
  rw [hint]

theorem append_opened (codec : LogPayload T) {log opened : Log} {cur : CurrentSegment}
    {timestampNs : I64} {payload : T} (hnn : ¬ timestampNs.value < 0)
    (hroll : log.rollover timestampNs.value = (.ok (), opened))
    (hsize : ¬ (codec.encode payload).length ≥ 2 ^ 32) (hcur : opened.current = some cur) :
    let written : Log := { opened with
      current := some (opened.writeEntry codec cur ⟨timestampNs.value, payload⟩).1
      dir := (opened.writeEntry codec cur ⟨timestampNs.value, payload⟩).2 }
    let appended := LogEvent.appended cur.startNs ⟨timestampNs.value, payload⟩ opened.retentionNs
    let threshold := timestampNs.value - opened.retentionNs
    log.append codec timestampNs payload =
      if opened.retentionNs > 0 then
        (.ok (), written.evictOlderThan threshold,
          appended :: ((written.expired threshold).sort (· ≤ ·)).map .evicted)
      else
        (.ok (), written, [appended]) := by
  simp only [Log.append, if_neg hnn, hroll, if_neg hsize, hcur]

/-- An append over torn files ends the same way and leaves torn files. -/
theorem Torn.append (htorn : Torn whole dir) (codec : LogPayload T) (timestampNs : I64)
    (payload : T) :
    ∃ next, { whole with dir := dir }.append codec timestampNs payload =
        ((whole.append codec timestampNs payload).1,
          { (whole.append codec timestampNs payload).2.1 with dir := next },
          (whole.append codec timestampNs payload).2.2) ∧
      Torn (whole.append codec timestampNs payload).2.1 next := by
  by_cases hneg : timestampNs.value < 0
  · simp only [Log.append, if_pos hneg]
    exact ⟨dir, rfl, htorn⟩
  · obtain ⟨rolled, hroll, htrn⟩ := htorn.rollover timestampNs.value
    cases hout : whole.rollover timestampNs.value with
    | mk result opened =>
      rw [hout] at hroll htrn
      cases result with
      | error error =>
        simp only [Log.append, if_neg hneg, hroll, hout]
        exact ⟨rolled, rfl, htrn⟩
      | ok done =>
        by_cases hsize : (codec.encode payload).length ≥ 2 ^ 32
        · simp only [Log.append, if_neg hneg, hroll, hout, if_pos hsize]
          exact ⟨rolled, rfl, htrn⟩
        · cases hcurrent : opened.current with
          | none =>
            simp only [Log.append, if_neg hneg, hroll, hout, if_neg hsize]
            simp only [hcurrent]
            exact ⟨rolled, rfl, htrn⟩
          | some cur =>
            obtain ⟨hsm, hwro⟩ := htrn.writeEntry codec hcurrent
              ⟨timestampNs.value, payload⟩
            rw [append_opened codec hneg hroll hsize hcurrent,
              append_opened codec hneg hout hsize hcurrent]
            simp only [hsm]
            by_cases hret : opened.retentionNs > 0
            · simp only [if_pos hret]
              obtain ⟨next, hn, htor⟩ :=
                hwro.evictOlderThan (timestampNs.value - opened.retentionNs)
              exact ⟨next, congrArg (fun log => (Except.ok (), log, _)) hn, htor⟩
            · simp only [if_neg hret]
              exact ⟨_, rfl, hwro⟩

theorem Torn.call (htorn : Torn whole dir) (codec : LogPayload T)
    (events : List (LogEvent T)) (call : LogCall T) :
    ∃ next, TracedLog.call codec ⟨{ whole with dir := dir }, events⟩ call =
        ⟨{ (TracedLog.call codec ⟨whole, events⟩ call).log with dir := next },
          (TracedLog.call codec ⟨whole, events⟩ call).events⟩ ∧
      Torn (TracedLog.call codec ⟨whole, events⟩ call).log next := by
  cases call with
  | append timestampNs payload =>
    obtain ⟨next, hn, htor⟩ := htorn.append codec timestampNs payload
    refine ⟨next, ?_, htor⟩
    simp only [TracedLog.call, hn]
  | flush =>
    obtain ⟨next, hn, htor⟩ := htorn.flush
    refine ⟨next, ?_, htor⟩
    simp only [TracedLog.call, hn]
  | setRetention retentionNs =>
    simp only [TracedLog.call, Log.setRetention]
    split
    · exact ⟨dir, rfl, htorn⟩
    · exact ⟨dir, rfl, htorn.files, htorn.current⟩

end Running

section Reading

variable {codec : LogPayload T} {whole : Log} {dir : Directory}
  {remaining : List (ℤ × Entry T)}

theorem Torn.readSegments (hlog : LogInvariant codec whole remaining)
    (hcl : whole.current = none) (htorn : Torn whole dir) (hlaw : codec.Lawful)
    {starts : List ℤ} (hsts : ∀ startNs ∈ starts, startNs ∈ whole.segmentStarts) :
    codec.readSegments dir starts = .ok (starts.flatMap (entriesAt remaining)) := by
  induction starts with
  | nil => rfl
  | cons startNs starts ih =>
    have hst := hlog.stored startNs (hsts startNs mem_cons_self)
    rw [storedBytes, hcl] at hst
    have hfile : segmentFile whole.dir startNs =
        some (segmentHeader startNs ++ codec.entriesBytes (entriesAt remaining startNs)) := by
      simpa [pendingBytes] using hst
    obtain ⟨tail, htail, htear⟩ := htorn.files.tears _ _ hfile
    have hread := codec.readSegmentEntries_torn hlaw (segmentFilename startNs) startNs
      (fun entry hent => hlog.entry_writable (startNs, entry) (mem_entriesAt.mp hent)) htear
    have htor : segmentFile dir startNs = _ := htail
    rw [LogPayload.readSegments, htor]
    simp only
    rw [hread, ih fun other ho => hsts other (mem_cons_of_mem _ ho)]
    rfl

theorem Torn.entries (hlog : LogInvariant codec whole remaining)
    (hcl : whole.current = none) (htorn : Torn whole dir) (hlaw : codec.Lawful)
    (hord : remaining.Pairwise fun left right =>
      left.2.timestampNs ≤ right.2.timestampNs) :
    codec.entries dir = .ok (remaining.map Prod.snd) := by
  have hsts : ∀ startNs ∈ listSegments whole.dir, startNs ∈ whole.segmentStarts :=
    fun _ hm => hlog.mem_listSegments.mp hm
  rw [LogPayload.entries, htorn.files.listSegments, Torn.readSegments hlog hcl htorn hlaw hsts,
    flatMap_entriesAt (sortedLT_listSegments _) (hlog.pairwise_starts hord)
      fun tagged htag => hlog.mem_listSegments.mpr (hlog.entry_mem tagged htag)]

end Reading

end AukiSdk.Logs
