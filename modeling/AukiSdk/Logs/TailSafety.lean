import AukiSdk.Logs.LogRun
import AukiSdk.Logs.Tail

/-!
# What a tailer yields

A tailer yields entries that reached the disk, in order.
-/

namespace AukiSdk.Logs

open AukiSdk.Foundation List
open Std (ExtTreeMap)

variable {T : Type}

/-- The entries of a segment. -/
def segmentEntries (history : List (Located T)) (segment : ℤ) : List (Entry T) :=
  (locatedAt history segment).map Located.entry

/-- The whole content of a segment. -/
def segmentBytes (codec : LogPayload T) (history : List (Located T)) (segment : ℤ) :
    List UInt8 :=
  segmentHeader segment ++ codec.entriesBytes (segmentEntries history segment)

/-- The order of places. -/
def Located.Before (left right : Located T) : Prop :=
  left.segment < right.segment ∨ left.segment = right.segment ∧ left.index < right.index

structure WriterInvariant (codec : LogPayload T) (writer : Writer T) : Prop where
  only_segments : OnlySegments writer.dir
  fresh : writer.current = none → (∀ name, name ∉ writer.dir) ∧ writer.history = []
  open_start : ∀ startNs pending, writer.current = some (startNs, pending) → IsStart startNs
  open_file : ∀ startNs pending, writer.current = some (startNs, pending) →
    ∃ bytes, segmentFile writer.dir startNs = some bytes ∧
      bytes ++ pending = segmentBytes codec writer.history startNs
  closed_file : ∀ segment bytes, IsStart segment →
    segmentFile writer.dir segment = some bytes → writer.current.map Prod.fst ≠ some segment →
    bytes = segmentBytes codec writer.history segment
  newest_file : ∀ startNs pending, writer.current = some (startNs, pending) →
    ∀ segment, IsStart segment → (segmentFile writer.dir segment).isSome → segment ≤ startNs
  newest_entry : ∀ startNs pending, writer.current = some (startNs, pending) →
    ∀ located ∈ writer.history, located.segment ≤ startNs
  accounted : ∀ located ∈ writer.history, IsStart located.segment ∧
    ((segmentFile writer.dir located.segment).isSome ∨ located.segment ∈ writer.evicted)
  writable : ∀ located ∈ writer.history, codec.Writable located.entry
  indexed : ∀ segment, (locatedAt writer.history segment).map Located.index =
    List.range (locatedAt writer.history segment).length
  ordered : writer.history.Pairwise Located.Before

theorem locatedAt_append (history : List (Located T)) (located : Located T) (segment : ℤ) :
    locatedAt (history ++ [located]) segment =
      locatedAt history segment ++ if located.segment = segment then [located] else [] := by
  rw [locatedAt, filter_append, locatedAt]
  by_cases heq : located.segment = segment
  · simp [heq]
  · simp [heq]

section WriterSteps

variable {codec : LogPayload T} {segmentDurationNs : ℤ} {writer next : Writer T}

theorem writerInvariant_initial (codec : LogPayload T) :
    WriterInvariant codec (⟨∅, none, [], []⟩ : Writer T) where
  only_segments := fun name hname => absurd hname ExtTreeMap.not_mem_empty
  fresh := fun _ => ⟨fun name => ExtTreeMap.not_mem_empty, rfl⟩
  open_start := by
    rintro startNs pending ⟨⟩
  open_file := by
    rintro startNs pending ⟨⟩
  closed_file := by
    intro segment bytes _ hfile
    simp [segmentFile] at hfile
  newest_file := by
    rintro startNs pending ⟨⟩
  newest_entry := by
    rintro startNs pending ⟨⟩
  accounted := by simp
  writable := by simp
  indexed := fun segment => rfl
  ordered := List.Pairwise.nil

theorem Writer.step_append {entry : Entry T}
    (hs : writer.step codec segmentDurationNs (.append entry) = some next) :
    ∃ startNs pending, writer.current = some (startNs, pending) ∧ codec.Writable entry ∧
      next = { writer with
        current := some (startNs, pending ++ codec.entryBytes entry)
        history := writer.history ++
          [⟨startNs, (locatedAt writer.history startNs).length, entry⟩] } := by
  simp only [Writer.step] at hs
  split at hs
  · cases hs
  · rename_i startNs pending hcur
    split at hs
    · rename_i hgrd
      cases hs
      exact ⟨startNs, pending, hcur, hgrd.1, rfl⟩
    · cases hs

theorem WriterInvariant.append (hwr : WriterInvariant codec writer) {entry : Entry T}
    (hs : writer.step codec segmentDurationNs (.append entry) = some next) :
    WriterInvariant codec next := by
  obtain ⟨startNs, pending, hcur, hwbl, rfl⟩ := Writer.step_append hs
  have hbeg := hwr.open_start startNs pending hcur
  obtain ⟨bytes, hfile, hbyt⟩ := hwr.open_file startNs pending hcur
  -- Only the content of the open segment changes.
  have ho : ∀ segment, segment ≠ startNs → segmentBytes codec (writer.history ++
        [⟨startNs, (locatedAt writer.history startNs).length, entry⟩]) segment =
      segmentBytes codec writer.history segment := by
    intro segment hne
    rw [segmentBytes, segmentBytes, segmentEntries, segmentEntries, locatedAt_append,
      if_neg hne.symm, append_nil]
  refine ⟨hwr.only_segments, ?_, ?_, ?_, ?_, ?_, ?_, ?_, ?_, ?_, ?_⟩
  · rintro ⟨⟩
  · rintro found rest ⟨⟩
    exact hbeg
  · rintro found rest ⟨⟩
    refine ⟨bytes, hfile, ?_⟩
    rw [← append_assoc, hbyt, segmentBytes, segmentBytes, segmentEntries, segmentEntries,
      locatedAt_append, if_pos rfl, map_append, LogPayload.entriesBytes,
      LogPayload.entriesBytes, map_append, Framing.encodeFrames_append, append_assoc]
    simp [LogPayload.entryBytes, Framing.encodeFrames]
  · intro segment found hseg hf hcl
    have hne : segment ≠ startNs := fun heq => hcl (by rw [heq]; rfl)
    rw [ho segment hne]
    apply hwr.closed_file segment found hseg hf
    rw [hcur]
    exact hcl
  · rintro found rest ⟨⟩
    exact hwr.newest_file startNs pending hcur
  · rintro found rest ⟨⟩ located hm
    rcases mem_append.mp hm with hm | hm
    · exact hwr.newest_entry startNs pending hcur located hm
    · rw [mem_singleton] at hm
      rw [hm]
  · intro located hm
    rcases mem_append.mp hm with hm | hm
    · exact hwr.accounted located hm
    · rw [mem_singleton] at hm
      subst hm
      exact ⟨hbeg, Or.inl (by rw [hfile]; rfl)⟩
  · intro located hm
    rcases mem_append.mp hm with hm | hm
    · exact hwr.writable located hm
    · rw [mem_singleton] at hm
      subst hm
      exact hwbl
  · intro segment
    rw [locatedAt_append]
    split
    · rename_i heq
      subst heq
      rw [map_append, hwr.indexed, length_append, length_singleton, range_succ]
      rfl
    · rw [append_nil]
      exact hwr.indexed segment
  · rw [pairwise_append]
    refine ⟨hwr.ordered, pairwise_singleton _ _, ?_⟩
    intro located hm last hlast
    rw [mem_singleton] at hlast
    subst hlast
    rcases (hwr.newest_entry startNs pending hcur located hm).lt_or_eq with hlt | heq
    · exact Or.inl hlt
    · refine Or.inr ⟨heq, ?_⟩
      have hidx : located.index ∈ (locatedAt writer.history startNs).map Located.index :=
        mem_map_of_mem (mem_filter.mpr ⟨hm, by simpa using heq⟩)
      rw [hwr.indexed] at hidx
      exact mem_range.mp hidx

theorem Writer.step_write {count : ℕ}
    (hs : writer.step codec segmentDurationNs (.write count) = some next) :
    ∃ startNs pending, writer.current = some (startNs, pending) ∧
      next = { writer with
        dir := appendBytes writer.dir startNs (pending.take count)
        current := some (startNs, pending.drop count) } := by
  simp only [Writer.step] at hs
  split at hs
  · cases hs
  · rename_i startNs pending hcur
    cases hs
    exact ⟨startNs, pending, hcur, rfl⟩

theorem WriterInvariant.write (hwr : WriterInvariant codec writer) {count : ℕ}
    (hs : writer.step codec segmentDurationNs (.write count) = some next) :
    WriterInvariant codec next := by
  obtain ⟨startNs, pending, hcur, rfl⟩ := Writer.step_write hs
  have hbeg := hwr.open_start startNs pending hcur
  obtain ⟨bytes, hfile, hbyt⟩ := hwr.open_file startNs pending hcur
  refine ⟨fun name hname => hwr.only_segments name (mem_appendBytes.mp hname), ?_, ?_, ?_, ?_,
    ?_, ?_, ?_, hwr.writable, hwr.indexed, hwr.ordered⟩
  · rintro ⟨⟩
  · rintro found rest ⟨⟩
    exact hbeg
  · rintro found rest ⟨⟩
    refine ⟨bytes ++ pending.take count, ?_, ?_⟩
    · rw [segmentFile_appendBytes hbeg hbeg, if_pos rfl, hfile]
      rfl
    · rw [append_assoc, take_append_drop, hbyt]
  · intro segment found hseg hf hcl
    have hne : segment ≠ startNs := fun heq => hcl (by rw [heq]; rfl)
    rw [segmentFile_appendBytes hbeg hseg, if_neg hne] at hf
    apply hwr.closed_file segment found hseg hf
    rw [hcur]
    exact hcl
  · rintro found rest ⟨⟩ segment hseg hsome
    rw [isSome_segmentFile_appendBytes] at hsome
    exact hwr.newest_file startNs pending hcur segment hseg hsome
  · rintro found rest ⟨⟩
    exact hwr.newest_entry startNs pending hcur
  · intro located hm
    rw [isSome_segmentFile_appendBytes]
    exact hwr.accounted located hm

theorem Writer.step_rollover {timestampNs : I64}
    (hs : writer.step codec segmentDurationNs (.rollover timestampNs) = some next) :
    0 ≤ timestampNs.value ∧ (∀ startNs pending, writer.current = some (startNs, pending) →
        pending = [] ∧ startNs < windowStart segmentDurationNs timestampNs.value) ∧
      next = { writer with
        dir := writer.dir.insert
          (segmentFilename (windowStart segmentDurationNs timestampNs.value)) []
        current := some (windowStart segmentDurationNs timestampNs.value,
          segmentHeader (windowStart segmentDurationNs timestampNs.value)) } := by
  simp only [Writer.step] at hs
  split at hs
  · rename_i hgrd
    cases hs
    refine ⟨hgrd.1, ?_, rfl⟩
    intro startNs pending hcur
    have hroll := hgrd.2
    rw [hcur, mayRollOver] at hroll
    simpa using hroll
  · cases hs

theorem segmentFile_insert {dir : Directory} {created : ℤ} (hcre : IsStart created)
    {segment : ℤ} (hseg : IsStart segment) (bytes : List UInt8) :
    segmentFile (dir.insert (segmentFilename created) bytes) segment =
      if segment = created then some bytes else segmentFile dir segment := by
  rw [segmentFile, FiniteMap.getElem?_insert]
  by_cases heq : segment = created
  · rw [heq, if_pos rfl, if_pos rfl]
  · rw [if_neg heq, if_neg fun hname => heq (segmentFilename_injective hseg hcre hname)]
    rfl

theorem WriterInvariant.rollover (hwr : WriterInvariant codec writer)
    (hdur : 0 < segmentDurationNs) {timestampNs : I64}
    (hs : writer.step codec segmentDurationNs (.rollover timestampNs) = some next) :
    WriterInvariant codec next := by
  obtain ⟨htime, hroll, rfl⟩ := Writer.step_rollover hs
  obtain ⟨hnn, hle, -, -⟩ := windowStart_spec hdur htime
  have hcre : IsStart (windowStart segmentDurationNs timestampNs.value) :=
    ⟨hnn, hle.trans timestampNs.upper⟩
  generalize windowStart segmentDurationNs timestampNs.value = created at *
  -- Everything so far is in older segments.
  have hfls : ∀ segment, IsStart segment → (segmentFile writer.dir segment).isSome →
      segment < created := by
    intro segment hseg hsome
    cases hcur : writer.current with
    | none =>
      rw [isSome_segmentFile] at hsome
      exact absurd hsome ((hwr.fresh hcur).1 _)
    | some current =>
      exact (hwr.newest_file _ _ hcur segment hseg hsome).trans_lt
        (hroll _ _ hcur).2
  have hents : ∀ located ∈ writer.history, located.segment < created := by
    intro located hm
    cases hcur : writer.current with
    | none =>
      rw [(hwr.fresh hcur).2] at hm
      cases hm
    | some current =>
      exact (hwr.newest_entry _ _ hcur located hm).trans_lt (hroll _ _ hcur).2
  have hemp : segmentBytes codec writer.history created = segmentHeader created := by
    have hnone : locatedAt writer.history created = [] := by
      rw [locatedAt, filter_eq_nil_iff]
      intro located hm
      simpa using (hents located hm).ne
    rw [segmentBytes, segmentEntries, hnone]
    simp [LogPayload.entriesBytes]
  refine ⟨?_, ?_, ?_, ?_, ?_, ?_, ?_, ?_, hwr.writable, hwr.indexed, hwr.ordered⟩
  · intro name hname
    rw [ExtTreeMap.mem_insert, Std.LawfulEqOrd.compare_eq_iff_eq] at hname
    rcases hname with rfl | hname
    · exact ⟨created, hcre.1, hcre.2, rfl⟩
    · exact hwr.only_segments name hname
  · rintro ⟨⟩
  · rintro found rest ⟨⟩
    exact hcre
  · rintro found rest ⟨⟩
    refine ⟨[], ?_, ?_⟩
    · rw [segmentFile_insert hcre hcre, if_pos rfl]
    · rw [nil_append, hemp]
  · intro segment found hseg hf hcl
    have hne : segment ≠ created := fun heq => hcl (by rw [heq]; rfl)
    rw [segmentFile_insert hcre hseg, if_neg hne] at hf
    by_cases hopen : writer.current.map Prod.fst = some segment
    · -- The segment that was open has nothing left to flush.
      obtain ⟨⟨startNs, pending⟩, hcur, rfl⟩ := Option.map_eq_some_iff.mp hopen
      obtain ⟨bytes, hfile, hbyt⟩ := hwr.open_file startNs pending hcur
      rw [hfile, Option.some.injEq] at hf
      rw [(hroll startNs pending hcur).1, append_nil] at hbyt
      rw [← hf, hbyt]
    · exact hwr.closed_file segment found hseg hf hopen
  · rintro found rest ⟨⟩ segment hseg hsome
    rw [segmentFile_insert hcre hseg] at hsome
    split at hsome
    · exact le_of_eq ‹_›
    · exact (hfls segment hseg hsome).le
  · rintro found rest ⟨⟩ located hm
    exact (hents located hm).le
  · intro located hm
    obtain ⟨hbeg, hpla⟩ := hwr.accounted located hm
    refine ⟨hbeg, ?_⟩
    rw [segmentFile_insert hcre hbeg, if_neg (hents located hm).ne]
    exact hpla

theorem Writer.step_evict {startNs : ℤ}
    (hs : writer.step codec segmentDurationNs (.evict startNs) = some next) :
    startNs ∈ listSegments writer.dir ∧ writer.current.map Prod.fst ≠ some startNs ∧
      next = { writer with
        dir := writer.dir.erase (segmentFilename startNs)
        evicted := writer.evicted ++ [startNs] } := by
  simp only [Writer.step] at hs
  split at hs
  · rename_i hgrd
    cases hs
    exact ⟨hgrd.1, hgrd.2, rfl⟩
  · cases hs

theorem segmentFile_erase {dir : Directory} {removed : ℤ} (hrmv : IsStart removed)
    {segment : ℤ} (hseg : IsStart segment) :
    segmentFile (dir.erase (segmentFilename removed)) segment =
      if segment = removed then none else segmentFile dir segment := by
  rw [segmentFile, FiniteMap.getElem?_erase]
  by_cases heq : segment = removed
  · rw [heq, if_pos rfl, if_pos rfl]
  · rw [if_neg heq, if_neg fun hname => heq (segmentFilename_injective hseg hrmv hname)]
    rfl

theorem WriterInvariant.evict (hwr : WriterInvariant codec writer) {startNs : ℤ}
    (hs : writer.step codec segmentDurationNs (.evict startNs) = some next) :
    WriterInvariant codec next := by
  obtain ⟨hlist, hcl, rfl⟩ := Writer.step_evict hs
  have hrmv : IsStart startNs := ((mem_listSegments hwr.only_segments).mp hlist).1
  have hkept : ∀ segment bytes, IsStart segment →
      segmentFile (writer.dir.erase (segmentFilename startNs)) segment = some bytes →
      segmentFile writer.dir segment = some bytes := by
    intro segment bytes hseg hfile
    rw [segmentFile_erase hrmv hseg] at hfile
    split at hfile
    · cases hfile
    · exact hfile
  refine ⟨?_, ?_, hwr.open_start, ?_, ?_, ?_, hwr.newest_entry, ?_, hwr.writable,
    hwr.indexed, hwr.ordered⟩
  · intro name hname
    exact hwr.only_segments name (ExtTreeMap.mem_of_mem_erase hname)
  · intro hnone
    obtain ⟨hemp, hhist⟩ := hwr.fresh hnone
    exact ⟨fun name hname => hemp name (ExtTreeMap.mem_of_mem_erase hname), hhist⟩
  · intro open' pending hcur
    obtain ⟨bytes, hfile, hbyt⟩ := hwr.open_file open' pending hcur
    refine ⟨bytes, ?_, hbyt⟩
    have hne : open' ≠ startNs := fun heq => hcl (by rw [hcur, heq]; rfl)
    rw [segmentFile_erase hrmv (hwr.open_start open' pending hcur), if_neg hne, hfile]
  · intro segment bytes hseg hfile ho
    exact hwr.closed_file segment bytes hseg (hkept segment bytes hseg hfile) ho
  · intro open' pending hcur segment hseg hsome
    obtain ⟨bytes, hfile⟩ := Option.isSome_iff_exists.mp hsome
    apply hwr.newest_file open' pending hcur segment hseg
    rw [hkept segment bytes hseg hfile]
    rfl
  · intro located hm
    obtain ⟨hbeg, hpla⟩ := hwr.accounted located hm
    refine ⟨hbeg, ?_⟩
    rw [segmentFile_erase hrmv hbeg]
    split
    · rename_i heq
      exact Or.inr (mem_append_right _ (by simpa using heq))
    · rcases hpla with hsome | hevi
      · exact Or.inl hsome
      · exact Or.inr (mem_append_left _ hevi)

theorem WriterInvariant.step (hwr : WriterInvariant codec writer)
    (hdur : 0 < segmentDurationNs) {action : WriterAction T}
    (hs : writer.step codec segmentDurationNs action = some next) :
    WriterInvariant codec next := by
  cases action with
  | append entry => exact hwr.append hs
  | write count => exact hwr.write hs
  | rollover timestampNs => exact hwr.rollover hdur hs
  | evict startNs => exact hwr.evict hs

end WriterSteps

/-- The place of a tailer in a segment. -/
structure AtSegment (codec : LogPayload T) (writer : Writer T) (tailer : Tailer T)
    (segment : ℤ) : Prop where
  is_start : IsStart segment
  not_newer : ∃ startNs pending, writer.current = some (startNs, pending) ∧ segment ≤ startNs
  present : (segmentFile writer.dir segment).isSome ∨ segment ∈ writer.evicted
  index_le : tailer.index ≤ (locatedAt writer.history segment).length
  at_boundary : tailer.offset = headerSize +
    (codec.entriesBytes ((segmentEntries writer.history segment).take tailer.index)).length
  ended : ∀ length, tailer.phase = .ended length →
    ∀ bytes, segmentFile writer.dir segment = some bytes → length ≤ bytes.length ∧
      Framing.readFrame timestampWidth lengthWidth
        ((bytes.take length).drop tailer.offset) = none
  missing : tailer.phase = .missing → segmentFile writer.dir segment = none

structure TailerInvariant (codec : LogPayload T) (writer : Writer T) (tailer : Tailer T) :
    Prop where
  skipped_le : tailer.skipped ≤ writer.history.length
  nowhere : tailer.segment = none → tailer.phase = .ready
  somewhere : ∀ segment, tailer.segment = some segment → AtSegment codec writer tailer segment
  sublist : (tailer.yielded ++ writer.history.filter tailer.ahead).Sublist
    (writer.history.drop tailer.skipped)
  covered : ∀ located ∈ writer.history.drop tailer.skipped,
    located ∈ tailer.yielded ∨ tailer.ahead located ∨ located.segment ∈ writer.evicted

section TailerSteps

variable {codec : LogPayload T} {segmentDurationNs : ℤ} {writer next : Writer T}
  {tailer : Tailer T}

theorem TailerInvariant.transport (htail : TailerInvariant codec writer tailer)
    (added : List (Located T)) (hhist : next.history = writer.history ++ added)
    (hadd : ∀ located ∈ added, tailer.ahead located = true)
    (hevi : ∀ segment ∈ writer.evicted, segment ∈ next.evicted)
    (hcur : ∀ startNs pending, writer.current = some (startNs, pending) →
      ∃ newer rest, next.current = some (newer, rest) ∧ startNs ≤ newer)
    (hfls : ∀ segment, tailer.segment = some segment →
      (∀ bytes, segmentFile next.dir segment = some bytes →
        ∃ old, segmentFile writer.dir segment = some old ∧ old <+: bytes) ∧
      (segmentFile next.dir segment = none →
        (segmentFile writer.dir segment).isSome → segment ∈ next.evicted)) :
    TailerInvariant codec next tailer := by
  have hlen := htail.skipped_le
  refine ⟨?_, htail.nowhere, ?_, ?_, ?_⟩
  · rw [hhist, length_append]
    omega
  · intro segment hseg
    have hat := htail.somewhere segment hseg
    obtain ⟨hgro, hrmv⟩ := hfls segment hseg
    have hloc : locatedAt next.history segment =
        locatedAt writer.history segment ++ locatedAt added segment := by
      rw [hhist, locatedAt, filter_append]
      rfl
    refine ⟨hat.is_start, ?_, ?_, ?_, ?_, ?_, ?_⟩
    · obtain ⟨startNs, pending, hopen, hle⟩ := hat.not_newer
      obtain ⟨newer, rest, hn, hnwr⟩ := hcur startNs pending hopen
      exact ⟨newer, rest, hn, hle.trans hnwr⟩
    · cases hfile : segmentFile next.dir segment with
      | some bytes => exact Or.inl rfl
      | none =>
        right
        rcases hat.present with hsome | hold
        · exact hrmv hfile hsome
        · exact hevi segment hold
    · rw [hloc, length_append]
      exact hat.index_le.trans (Nat.le_add_right _ _)
    · have hinit : (segmentEntries next.history segment).take tailer.index =
          (segmentEntries writer.history segment).take tailer.index := by
        rw [segmentEntries, hloc, map_append, take_append_of_le_length]
        · rfl
        · rw [length_map]
          exact hat.index_le
      rw [hinit]
      exact hat.at_boundary
    · intro length hp bytes hbyt
      obtain ⟨old, hold, more, rfl⟩ := hgro bytes hbyt
      obtain ⟨hle, hread⟩ := hat.ended length hp old hold
      rw [take_append_of_le_length hle]
      refine ⟨?_, hread⟩
      rw [length_append]
      omega
    · intro hp
      cases hfile : segmentFile next.dir segment with
      | none => rfl
      | some bytes =>
        obtain ⟨old, hold, -⟩ := hgro bytes hfile
        rw [hat.missing hp] at hold
        cases hold
  · have hnew : added.filter tailer.ahead = added := filter_eq_self.mpr hadd
    rw [hhist, filter_append, hnew, drop_append_of_le_length hlen, ← append_assoc]
    exact htail.sublist.append (List.Sublist.refl _)
  · intro located hm
    rw [hhist, drop_append_of_le_length hlen] at hm
    rcases mem_append.mp hm with hm | hm
    · rcases htail.covered located hm with hyie | hahe | hgone
      · exact Or.inl hyie
      · exact Or.inr (Or.inl hahe)
      · exact Or.inr (Or.inr (hevi _ hgone))
    · exact Or.inr (Or.inl (hadd located hm))

theorem TailerInvariant.writerStep (htail : TailerInvariant codec writer tailer)
    (hwr : WriterInvariant codec writer) (hdur : 0 < segmentDurationNs)
    {action : WriterAction T}
    (hs : writer.step codec segmentDurationNs action = some next) :
    TailerInvariant codec next tailer := by
  have hsm : ∀ segment, tailer.segment = some segment →
      (∀ bytes, segmentFile writer.dir segment = some bytes →
        ∃ old, segmentFile writer.dir segment = some old ∧ old <+: bytes) ∧
      (segmentFile writer.dir segment = none →
        (segmentFile writer.dir segment).isSome → segment ∈ writer.evicted) := by
    intro segment _
    refine ⟨fun bytes hbyt => ⟨bytes, hbyt, prefix_refl _⟩, fun hnone hsome => ?_⟩
    rw [hnone] at hsome
    cases hsome
  cases action with
  | append entry =>
    obtain ⟨startNs, pending, hcur, -, rfl⟩ := Writer.step_append hs
    refine htail.transport _ rfl ?_ (fun _ hm => hm) ?_ hsm
    · intro located hm
      rw [mem_singleton] at hm
      subst hm
      cases hseg : tailer.segment with
      | none => rw [Tailer.ahead, hseg]
      | some segment =>
        have hat := htail.somewhere segment hseg
        obtain ⟨found, rest, hopen, hle⟩ := hat.not_newer
        rw [hcur] at hopen
        cases hopen
        rw [Tailer.ahead, hseg]
        simp only [Bool.or_eq_true, decide_eq_true_eq, Bool.and_eq_true]
        rcases hle.lt_or_eq with hlt | heq
        · exact Or.inl hlt
        · exact Or.inr ⟨heq.symm, heq ▸ hat.index_le⟩
    · intro found rest hopen
      rw [hcur] at hopen
      cases hopen
      exact ⟨startNs, _, rfl, le_refl _⟩
  | write count =>
    obtain ⟨startNs, pending, hcur, rfl⟩ := Writer.step_write hs
    have hbeg := hwr.open_start startNs pending hcur
    refine htail.transport [] (append_nil _).symm (by simp)
      (fun _ hm => hm) ?_ ?_
    · intro found rest hopen
      rw [hcur] at hopen
      cases hopen
      exact ⟨startNs, _, rfl, le_refl _⟩
    · intro segment hseg
      have hat := (htail.somewhere segment hseg).is_start
      refine ⟨?_, ?_⟩
      · intro bytes hbyt
        rw [segmentFile_appendBytes hbeg hat] at hbyt
        split at hbyt
        · obtain ⟨old, hold, rfl⟩ := Option.map_eq_some_iff.mp hbyt
          exact ⟨old, hold, prefix_append _ _⟩
        · exact ⟨bytes, hbyt, prefix_refl _⟩
      · intro hnone hsome
        have hsti : (segmentFile (appendBytes writer.dir startNs (pending.take count))
            segment).isSome := isSome_segmentFile_appendBytes.mpr hsome
        rw [hnone] at hsti
        cases hsti
  | rollover timestampNs =>
    obtain ⟨htime, hroll, rfl⟩ := Writer.step_rollover hs
    obtain ⟨hnn, hle, -, -⟩ := windowStart_spec hdur htime
    have hcre : IsStart (windowStart segmentDurationNs timestampNs.value) :=
      ⟨hnn, hle.trans timestampNs.upper⟩
    refine htail.transport [] (append_nil _).symm (by simp)
      (fun _ hm => hm) ?_ ?_
    · intro found rest hopen
      exact ⟨_, _, rfl, (hroll found rest hopen).2.le⟩
    · intro segment hseg
      have hat := htail.somewhere segment hseg
      obtain ⟨found, rest, hopen, hnot⟩ := hat.not_newer
      have hne : segment ≠ windowStart segmentDurationNs timestampNs.value :=
        (hnot.trans_lt (hroll found rest hopen).2).ne
      simp only [segmentFile_insert hcre hat.is_start, if_neg hne]
      exact hsm segment hseg
  | evict startNs =>
    obtain ⟨hlist, -, rfl⟩ := Writer.step_evict hs
    have hrmv : IsStart startNs := ((mem_listSegments hwr.only_segments).mp hlist).1
    refine htail.transport [] (append_nil _).symm (by simp)
      (fun _ hm => mem_append_left _ hm)
      (fun found rest hopen => ⟨found, rest, hopen, le_refl _⟩) ?_
    intro segment hseg
    have hat := (htail.somewhere segment hseg).is_start
    rw [segmentFile_erase hrmv hat]
    refine ⟨?_, ?_⟩
    · intro bytes hbyt
      split at hbyt
      · cases hbyt
      · exact ⟨bytes, hbyt, prefix_refl _⟩
    · intro hnone hsome
      split at hnone
      · rename_i heq
        exact mem_append_right _ (by simpa using heq)
      · rw [hnone] at hsome
        cases hsome

/-! ### Reading at a boundary -/

variable {segment : ℤ}

theorem WriterInvariant.prefix_segmentBytes (hwr : WriterInvariant codec writer)
    (hseg : IsStart segment) {bytes : List UInt8}
    (hfile : segmentFile writer.dir segment = some bytes) :
    bytes <+: segmentBytes codec writer.history segment := by
  by_cases hopen : writer.current.map Prod.fst = some segment
  · obtain ⟨⟨startNs, pending⟩, hcur, rfl⟩ := Option.map_eq_some_iff.mp hopen
    obtain ⟨found, hf, hbyt⟩ := hwr.open_file startNs pending hcur
    rw [hfile, Option.some.injEq] at hf
    rw [hf, ← hbyt]
    exact prefix_append _ _
  · rw [hwr.closed_file segment bytes hseg hfile hopen]

theorem WriterInvariant.fits (hwr : WriterInvariant codec writer) (segment : ℤ) :
    ∀ frame ∈ (segmentEntries writer.history segment).map codec.frame,
      Framing.Fits timestampWidth lengthWidth frame := by
  intro frame hfrm
  obtain ⟨entry, hent, rfl⟩ := mem_map.mp hfrm
  obtain ⟨located, hloc, rfl⟩ := mem_map.mp hent
  exact codec.fits_frame (hwr.writable located (mem_filter.mp hloc).1)

theorem drop_header_entriesBytes (codec : LogPayload T) (segment : ℤ) (entries : List (Entry T))
    (index : ℕ) :
    (segmentHeader segment ++ codec.entriesBytes entries).drop
        (headerSize + (codec.entriesBytes (entries.take index)).length) =
      codec.entriesBytes (entries.drop index) := by
  have hsp : segmentHeader segment ++ codec.entriesBytes entries =
      (segmentHeader segment ++ codec.entriesBytes (entries.take index)) ++
        codec.entriesBytes (entries.drop index) := by
    rw [append_assoc, LogPayload.entriesBytes, LogPayload.entriesBytes,
      LogPayload.entriesBytes, ← Framing.encodeFrames_append, ← map_append,
      take_append_drop]
  rw [hsp, drop_left']
  rw [length_append, length_segmentHeader]

theorem drop_segmentBytes (codec : LogPayload T) (history : List (Located T)) (segment : ℤ)
    (index : ℕ) :
    (segmentBytes codec history segment).drop (headerSize +
      (codec.entriesBytes ((segmentEntries history segment).take index)).length) =
      Framing.encodeFrames timestampWidth lengthWidth
        (((segmentEntries history segment).map codec.frame).drop index) := by
  rw [segmentBytes, drop_header_entriesBytes, LogPayload.entriesBytes, map_drop]

/-- What `read_one_entry_at` finds at a boundary. -/
theorem readFrame_at_boundary (hwr : WriterInvariant codec writer)
    (hat : AtSegment codec writer tailer segment) {bytes : List UInt8}
    (hinit : bytes <+: segmentBytes codec writer.history segment) :
    Framing.readFrame timestampWidth lengthWidth (bytes.drop tailer.offset) = none ∨
      ∃ located rest, (locatedAt writer.history segment)[tailer.index]? = some located ∧
        Framing.readFrame timestampWidth lengthWidth (bytes.drop tailer.offset) =
          some (codec.frame located.entry, rest) := by
  have hdrop : bytes.drop tailer.offset <+: Framing.encodeFrames timestampWidth lengthWidth
      (((segmentEntries writer.history segment).map codec.frame).drop tailer.index) := by
    rw [← drop_segmentBytes, ← hat.at_boundary]
    exact hinit.drop tailer.offset
  have hfits : ∀ frame ∈
      ((segmentEntries writer.history segment).map codec.frame).drop tailer.index,
      Framing.Fits timestampWidth lengthWidth frame :=
    fun frame hfrm => hwr.fits segment frame (mem_of_mem_drop hfrm)
  rcases Framing.readFrame_prefix (by decide) hfits hdrop with
    hnone | ⟨frame, rest, tail, hframes, hread, -, -⟩
  · exact Or.inl hnone
  · right
    have hhead : ((segmentEntries writer.history segment).map codec.frame)[tailer.index]? =
        some frame := by
      rw [← head?_drop, hframes]
      rfl
    rw [segmentEntries, map_map, getElem?_map, Option.map_eq_some_iff] at hhead
    obtain ⟨located, hloc, rfl⟩ := hhead
    exact ⟨located, rest, hloc, hread⟩

theorem index_of_read_to_end (hwr : WriterInvariant codec writer)
    (hat : AtSegment codec writer tailer segment)
    (hread : Framing.readFrame timestampWidth lengthWidth
      ((segmentBytes codec writer.history segment).drop tailer.offset) = none) :
    tailer.index = (locatedAt writer.history segment).length := by
  rw [hat.at_boundary, drop_segmentBytes] at hread
  by_contra hne
  have hlt : tailer.index < (locatedAt writer.history segment).length :=
    lt_of_le_of_ne hat.index_le hne
  have hlen : tailer.index < ((segmentEntries writer.history segment).map codec.frame).length := by
    rwa [segmentEntries, length_map, length_map]
  rw [drop_eq_getElem_cons hlen, Framing.encodeFrames_cons,
    Framing.readFrame_encodeFrame (hwr.fits segment _ (getElem_mem _))] at hread
  cases hread

/-! ### Yielding -/

theorem filter_ahead_next (hwr : WriterInvariant codec writer)
    (hseg : tailer.segment = some segment) {located : Located T}
    (hloc : (locatedAt writer.history segment)[tailer.index]? = some located) (moved : Tailer T)
    (hmov : moved.segment = some segment) (hidx : moved.index = tailer.index + 1) :
    located.segment = segment ∧ located.index = tailer.index ∧
      writer.history.filter tailer.ahead = located :: writer.history.filter moved.ahead := by
  have hm := mem_filter.mp (mem_of_getElem? hloc)
  have hpla : located.segment = segment := by simpa using hm.2
  have hnum : located.index = tailer.index := by
    have hmap := congrArg (fun list => list[tailer.index]?) (hwr.indexed segment)
    simp only [getElem?_map, hloc, Option.map_some] at hmap
    obtain ⟨hlt, -⟩ := List.getElem?_eq_some_iff.mp hloc
    rw [getElem?_range hlt, Option.some.injEq] at hmap
    exact hmap
  refine ⟨hpla, hnum, ?_⟩
  obtain ⟨before, after, hsp⟩ := mem_iff_append.mp hm.1
  have hord := hwr.ordered
  rw [hsp, pairwise_append, pairwise_cons] at hord
  obtain ⟨-, ⟨haft, -⟩, hpre⟩ := hord
  have hpri : ∀ other ∈ before, tailer.ahead other = false ∧ moved.ahead other = false := by
    intro other ho
    have hlt := hpre other ho located mem_cons_self
    rw [Located.Before] at hlt
    simp only [Tailer.ahead, hseg, hmov, hidx, Bool.or_eq_false_iff,
      Bool.and_eq_false_iff, decide_eq_false_iff_not]
    omega
  have hlat : ∀ other ∈ after, tailer.ahead other = true ∧ moved.ahead other = true := by
    intro other ho
    have hlt := haft other ho
    rw [Located.Before] at hlt
    simp only [Tailer.ahead, hseg, hmov, hidx, Bool.or_eq_true, Bool.and_eq_true, decide_eq_true_eq]
    omega
  have hself : tailer.ahead located = true ∧ moved.ahead located = false := by
    simp only [Tailer.ahead, hseg, hmov, hidx, Bool.or_eq_true, Bool.and_eq_true,
      decide_eq_true_eq, Bool.or_eq_false_iff, Bool.and_eq_false_iff, decide_eq_false_iff_not]
    omega
  have hnone : ∀ current : Tailer T, (∀ other ∈ before, current.ahead other = false) →
      before.filter current.ahead = [] := by
    intro current hcur
    rw [filter_eq_nil_iff]
    intro other ho
    rw [hcur other ho]
    decide
  have hall : ∀ current : Tailer T, (∀ other ∈ after, current.ahead other = true) →
      after.filter current.ahead = after := fun current hcur => filter_eq_self.mpr hcur
  rw [hsp, filter_append, filter_append, filter_cons, filter_cons,
    hnone tailer fun other ho => (hpri other ho).1,
    hnone moved fun other ho => (hpri other ho).2,
    hall tailer fun other ho => (hlat other ho).1,
    hall moved fun other ho => (hlat other ho).2, if_pos hself.1, hself.2]
  simp

theorem TailerInvariant.withPhase (htail : TailerInvariant codec writer tailer)
    {phase : TailPhase} (hseg : tailer.segment = some segment)
    (hend : ∀ length, phase = .ended length →
      ∀ bytes, segmentFile writer.dir segment = some bytes → length ≤ bytes.length ∧
        Framing.readFrame timestampWidth lengthWidth
          ((bytes.take length).drop tailer.offset) = none)
    (hmiss : phase = .missing → segmentFile writer.dir segment = none) :
    TailerInvariant codec writer { tailer with phase := phase } := by
  refine ⟨htail.skipped_le, ?_, ?_, htail.sublist, htail.covered⟩
  · intro hnone
    rw [hseg] at hnone
    cases hnone
  · intro found hf
    rw [hseg] at hf
    cases hf
    have hat := htail.somewhere segment hseg
    exact ⟨hat.is_start, hat.not_newer, hat.present, hat.index_le, hat.at_boundary, hend, hmiss⟩

variable {moved : Tailer T}

theorem TailerInvariant.read (htail : TailerInvariant codec writer tailer)
    (hwr : WriterInvariant codec writer) (hlaw : codec.Lawful)
    (hs : tailer.step codec writer.dir .read = some moved) :
    TailerInvariant codec writer moved := by
  simp only [Tailer.step] at hs
  split at hs
  · rename_i segment hp hseg
    have hat := htail.somewhere segment hseg
    split at hs
    · rename_i hfile
      cases hs
      exact htail.withPhase hseg (fun length heq => by cases heq) fun _ => hfile
    · rename_i bytes hfile
      have hinit := hwr.prefix_segmentBytes hat.is_start hfile
      rcases readFrame_at_boundary hwr hat hinit with
        hnone | ⟨located, rest, hloc, hread⟩
      · rw [hnone] at hs
        cases hs
        apply htail.withPhase hseg
        · rintro length ⟨⟩ found hf
          rw [hfile, Option.some.injEq] at hf
          subst hf
          rw [take_length]
          exact ⟨le_refl _, hnone⟩
        · rintro ⟨⟩
      · have hm := mem_filter.mp (mem_of_getElem? hloc)
        have hwbl := hwr.writable located hm.1
        simp only [hread, codec.readEntry_frame hlaw hwbl, Option.some.injEq] at hs
        subst hs
        obtain ⟨hpla, hnum, hfil⟩ := filter_ahead_next hwr hseg hloc
          { tailer with
            offset := tailer.offset + (timestampWidth + (lengthWidth +
              (codec.frame located.entry).2.length))
            index := tailer.index + 1
            yielded := tailer.yielded ++ [⟨segment, tailer.index, located.entry⟩] }
          hseg rfl
        have hsm : (⟨segment, tailer.index, located.entry⟩ : Located T) = located := by
          rw [← hpla, ← hnum]
        refine ⟨htail.skipped_le, htail.nowhere, ?_, ?_, ?_⟩
        · intro found hf
          have heq : found = segment := Option.some.inj (hf.symm.trans hseg)
          subst heq
          obtain ⟨hlt, hget⟩ := List.getElem?_eq_some_iff.mp hloc
          refine ⟨hat.is_start, hat.not_newer, hat.present, hlt, ?_, ?_, ?_⟩
          · have hent : (segmentEntries writer.history found)[tailer.index]? =
                some located.entry := by
              rw [segmentEntries, getElem?_map, hloc]
              rfl
            simp only
            rw [hat.at_boundary, take_add_one, hent, LogPayload.entriesBytes,
              LogPayload.entriesBytes, map_append, Framing.encodeFrames_append,
              length_append]
            simp only [Option.toList_some, map_cons, map_nil, Framing.encodeFrames_cons,
              Framing.encodeFrames_nil, append_nil, Framing.length_encodeFrame]
            omega
          · intro length hend
            rw [hp] at hend
            cases hend
          · intro hmiss
            rw [hp] at hmiss
            cases hmiss
        · have hold := htail.sublist
          rw [hfil] at hold
          simp only [hsm, append_assoc, singleton_append] at hold ⊢
          exact hold
        · intro other ho
          rcases htail.covered other ho with hyie | hahe | hgone
          · exact Or.inl (mem_append_left _ hyie)
          · have hin : other ∈ writer.history.filter tailer.ahead :=
              mem_filter.mpr ⟨mem_of_mem_drop ho, hahe⟩
            rw [hfil] at hin
            rcases mem_cons.mp hin with rfl | hin
            · left
              rw [hsm]
              exact mem_append_right _ (mem_singleton_self _)
            · exact Or.inr (Or.inl (mem_filter.mp hin).2)
          · exact Or.inr (Or.inr hgone)
  · cases hs

/-! ### Moving on -/

theorem ahead_enter (tailer : Tailer T) (target : ℤ) (located : Located T) :
    (tailer.enter target).ahead located = true ↔ target ≤ located.segment := by
  simp only [Tailer.enter, Tailer.ahead, Bool.or_eq_true, decide_eq_true_eq, Bool.and_eq_true,
    Nat.zero_le, and_true]
  omega

theorem TailerInvariant.enter (htail : TailerInvariant codec writer tailer)
    (hwr : WriterInvariant codec writer) {target : ℤ}
    (hlist : target ∈ listSegments writer.dir)
    (hmono : ∀ located, target ≤ located.segment → tailer.ahead located = true)
    (hgone : ∀ located ∈ writer.history, tailer.ahead located = true →
      located.segment < target → located.segment ∈ writer.evicted) :
    TailerInvariant codec writer (tailer.enter target) := by
  obtain ⟨hbeg, hsome⟩ := (mem_listSegments hwr.only_segments).mp hlist
  refine ⟨htail.skipped_le, (fun hnone => by cases hnone), ?_, ?_, ?_⟩
  · rintro segment ⟨⟩
    refine ⟨hbeg, ?_, Or.inl hsome, Nat.zero_le _, ?_, (fun length heq => by cases heq),
      (fun heq => by cases heq)⟩
    · cases hcur : writer.current with
      | none =>
        rw [isSome_segmentFile] at hsome
        exact absurd hsome ((hwr.fresh hcur).1 _)
      | some current =>
        exact ⟨current.1, current.2, rfl, hwr.newest_file _ _ hcur target hbeg hsome⟩
    · simp [Tailer.enter, LogPayload.entriesBytes]
  · refine List.Sublist.trans ?_ htail.sublist
    apply List.Sublist.append (List.Sublist.refl _)
    apply monotone_filter_right
    intro located hahe
    exact hmono located ((ahead_enter tailer target located).mp hahe)
  · intro located hm
    rcases htail.covered located hm with hyie | hahe | hevi
    · exact Or.inl hyie
    · right
      rw [ahead_enter]
      by_cases hle : target ≤ located.segment
      · exact Or.inl hle
      · exact Or.inr (hgone located (mem_of_mem_drop hm) hahe (not_le.mp hle))
    · exact Or.inr (Or.inr hevi)

theorem WriterInvariant.evicted_of_not_listed (hwr : WriterInvariant codec writer)
    {located : Located T} (hm : located ∈ writer.history)
    (hnot : located.segment ∉ listSegments writer.dir) : located.segment ∈ writer.evicted := by
  obtain ⟨hbeg, hsome | hevi⟩ := hwr.accounted located hm
  · exact absurd ((mem_listSegments hwr.only_segments).mpr ⟨hbeg, hsome⟩) hnot
  · exact hevi

theorem TailerInvariant.pick (htail : TailerInvariant codec writer tailer)
    (hwr : WriterInvariant codec writer)
    (hs : tailer.step codec writer.dir .pick = some moved) :
    TailerInvariant codec writer moved := by
  simp only [Tailer.step] at hs
  split at hs
  · rename_i hp hseg
    split at hs
    · cases hs
      exact htail
    · rename_i first hfst
      cases hs
      have hall : ∀ located, tailer.ahead located = true := by
        intro located
        rw [Tailer.ahead, hseg]
      refine htail.enter hwr (mem_of_mem_head? hfst) (fun located _ => hall located) ?_
      intro located hm _ hlt
      apply hwr.evicted_of_not_listed hm
      intro hlist
      -- The first listed segment is the smallest.
      obtain ⟨rest, hrest⟩ := head?_eq_some_iff.mp hfst
      have hsort := sortedLT_listSegments writer.dir
      rw [hrest] at hsort hlist
      rw [pairwise_cons] at hsort
      rcases mem_cons.mp hlist with heq | hlist
      · omega
      · have hlat := hsort.1 located.segment hlist
        omega
  · cases hs

theorem find_newer {dir : Directory} {target : ℤ}
    (hfind : (listSegments dir).find? (segment < ·) = some target) :
    target ∈ listSegments dir ∧ segment < target ∧
      ∀ other ∈ listSegments dir, segment < other → target ≤ other := by
  obtain ⟨hlt, before, after, hsp, hpre⟩ := find?_eq_some_iff_append.mp hfind
  rw [decide_eq_true_eq] at hlt
  refine ⟨mem_of_find?_eq_some hfind, hlt, ?_⟩
  intro other ho hnewer
  have hsort := sortedLT_listSegments dir
  rw [hsp, pairwise_append, pairwise_cons] at hsort
  rw [hsp, mem_append, mem_cons] at ho
  rcases ho with ho | rfl | ho
  · have hnot := hpre other ho
    simp only [Bool.not_eq_true', decide_eq_false_iff_not] at hnot
    omega
  · exact le_refl _
  · exact (hsort.2.1.1 other ho).le

theorem TailerInvariant.moveOn (htail : TailerInvariant codec writer tailer)
    (hwr : WriterInvariant codec writer) {target : ℤ} (hseg : tailer.segment = some segment)
    (hfind : (listSegments writer.dir).find? (segment < ·) = some target)
    (hdone : segment ∈ writer.evicted ∨ tailer.index = (locatedAt writer.history segment).length) :
    TailerInvariant codec writer (tailer.enter target) := by
  obtain ⟨hlist, hlt, hn⟩ := find_newer hfind
  refine htail.enter hwr hlist ?_ ?_
  · intro located hle
    simp only [Tailer.ahead, hseg, Bool.or_eq_true, decide_eq_true_eq]
    exact Or.inl (hlt.trans_le hle)
  · intro located hm hahe hold
    simp only [Tailer.ahead, hseg, Bool.or_eq_true, decide_eq_true_eq, Bool.and_eq_true] at hahe
    rcases hahe with hnew | ⟨heq, hidx⟩
    · apply hwr.evicted_of_not_listed hm
      intro hf
      exact absurd (hn located.segment hf hnew) (not_le.mpr hold)
    · rcases hdone with hevi | hwhl
      · rw [heq]
        exact hevi
      · -- Every entry of the segment is before the tailer.
        exfalso
        have hin : located.index ∈ (locatedAt writer.history segment).map Located.index :=
          mem_map_of_mem (mem_filter.mpr ⟨hm, by simpa using heq⟩)
        rw [hwr.indexed, mem_range] at hin
        omega

theorem TailerInvariant.list (htail : TailerInvariant codec writer tailer)
    (hwr : WriterInvariant codec writer)
    (hset : Settled ⟨writer, some tailer⟩ (.observe .list : SystemAction T))
    (hs : tailer.step codec writer.dir .list = some moved) :
    TailerInvariant codec writer moved := by
  simp only [Tailer.step] at hs
  split at hs
  · cases hs
  · cases hs
  · rename_i length segment hp hseg
    have hat := htail.somewhere segment hseg
    split at hs
    · rename_i target hfind
      cases hs
      apply htail.moveOn hwr hseg hfind
      obtain ⟨hlist, hlt, -⟩ := find_newer hfind
      rcases hat.present with hsome | hevi
      · right
        obtain ⟨bytes, hfile⟩ := Option.isSome_iff_exists.mp hsome
        have hlen := hset tailer rfl segment hseg length hp ⟨target, hlist, hlt⟩
          bytes hfile
        obtain ⟨-, hread⟩ := hat.ended length hp bytes hfile
        rw [← hlen, take_length] at hread
        -- A newer segment exists, so the one that was read is closed.
        have hcl : writer.current.map Prod.fst ≠ some segment := by
          intro hopen
          obtain ⟨⟨startNs, pending⟩, hcur, rfl⟩ := Option.map_eq_some_iff.mp hopen
          obtain ⟨hbeg, hsome⟩ := (mem_listSegments hwr.only_segments).mp hlist
          have hle := hwr.newest_file startNs pending hcur target hbeg hsome
          simp only at hlt
          omega
        rw [hwr.closed_file segment bytes hat.is_start hfile hcl] at hread
        exact index_of_read_to_end hwr hat hread
      · exact Or.inl hevi
    · cases hs
      exact htail.withPhase hseg (fun length heq => by cases heq) fun heq => by cases heq
  · rename_i segment hp hseg
    have hat := htail.somewhere segment hseg
    have hfile := hat.missing hp
    have hevi : segment ∈ writer.evicted := by
      rcases hat.present with hsome | hevi
      · rw [hfile] at hsome
        cases hsome
      · exact hevi
    split at hs
    · rename_i target hfind
      cases hs
      exact htail.moveOn hwr hseg hfind (Or.inl hevi)
    · -- The open segment is newer than the missing one, and is listed.
      rename_i hfind
      exfalso
      obtain ⟨startNs, pending, hcur, hle⟩ := hat.not_newer
      obtain ⟨bytes, hopen, -⟩ := hwr.open_file startNs pending hcur
      have hne : segment ≠ startNs := by
        rintro rfl
        rw [hfile] at hopen
        cases hopen
      have hlist : startNs ∈ listSegments writer.dir := (mem_listSegments hwr.only_segments).mpr
          ⟨hwr.open_start startNs pending hcur, by rw [hopen]; rfl⟩
      have hnone := find?_eq_none.mp hfind startNs hlist
      simp only [decide_eq_true_eq, not_lt] at hnone
      omega

/-! ### Starting -/

theorem filter_append_filter {A : Type} (test : A → Bool) (list : List A)
    (hfst : list.Pairwise fun left right => test right = true → test left = true) :
    list.filter test ++ list.filter (fun entry => !test entry) = list := by
  induction list with
  | nil => rfl
  | cons head tail ih =>
    rw [pairwise_cons] at hfst
    by_cases hhead : test head = true
    · rw [filter_cons_of_pos hhead, filter_cons_of_neg (by simp [hhead]), cons_append, ih hfst.2]
    · have hnone : tail.filter test = [] := by
        rw [filter_eq_nil_iff]
        exact fun entry hent htest => hhead (hfst.1 entry hent htest)
      have hall : tail.filter (fun entry => !test entry) = tail := by
        rw [filter_eq_self]
        intro entry hent
        rw [Bool.not_eq_true']
        exact Bool.eq_false_iff.mpr fun htest => hhead (hfst.1 entry hent htest)
      rw [filter_cons_of_neg hhead, filter_cons_of_pos (by simpa using hhead), hnone,
        hall, nil_append]

theorem tailerInvariant_start (hwr : WriterInvariant codec writer)
    (hbeg : startTail writer = some tailer) : TailerInvariant codec writer tailer := by
  simp only [startTail] at hbeg
  split at hbeg
  · rename_i hnone
    cases hbeg
    -- Nothing is listed, so nothing was ever created.
    have hhist : writer.history = [] := by
      cases hcur : writer.current with
      | none => exact (hwr.fresh hcur).2
      | some current =>
        obtain ⟨bytes, hfile, -⟩ := hwr.open_file _ _ hcur
        have hlist := (mem_listSegments hwr.only_segments).mpr
          ⟨hwr.open_start _ _ hcur, by rw [hfile]; rfl⟩
        rw [getLast?_eq_none_iff.mp hnone] at hlist
        cases hlist
    refine ⟨le_refl _, fun _ => rfl, (fun segment hseg => by cases hseg), ?_, ?_⟩
    · rw [hhist]
      exact List.Sublist.refl _
    · rw [hhist]
      intro located hm
      cases hm
  · rename_i latest hlatest
    split at hbeg
    · cases hbeg
    · rename_i bytes hfile
      split at hbeg
      · rename_i hboundary
        cases hbeg
        have hlist := mem_of_getLast? hlatest
        obtain ⟨hlat, hsome⟩ := (mem_listSegments hwr.only_segments).mp hlist
        have hopen : ∃ pending, writer.current = some (latest, pending) := by
          cases hcur : writer.current with
          | none =>
            rw [isSome_segmentFile] at hsome
            exact absurd hsome ((hwr.fresh hcur).1 _)
          | some current =>
            obtain ⟨found, hf, -⟩ := hwr.open_file _ _ hcur
            have hle := hwr.newest_file _ _ hcur latest hlat hsome
            have hm := (mem_listSegments hwr.only_segments).mpr
              ⟨hwr.open_start _ _ hcur, by rw [hf]; rfl⟩
            -- The last listed segment is the largest.
            obtain ⟨before, hpre⟩ := getLast?_eq_some_iff.mp hlatest
            have hsort := sortedLT_listSegments writer.dir
            rw [hpre] at hsort hm
            rw [pairwise_append] at hsort
            rcases mem_append.mp hm with hm | hm
            · have hlt := hsort.2.2 _ hm latest (mem_singleton_self _)
              omega
            · rw [mem_singleton] at hm
              rw [← hm]
              exact ⟨current.2, rfl⟩
        obtain ⟨pending, hcur⟩ := hopen
        have hinit : bytes.drop headerSize <+: Framing.encodeFrames timestampWidth lengthWidth
            ((segmentEntries writer.history latest).map codec.frame) := by
          have hdrop := (hwr.prefix_segmentBytes hlat hfile).drop headerSize
          rwa [segmentBytes, drop_left' (length_segmentHeader latest)] at hdrop
        have hwhl := Framing.readFrames_prefix (by decide) (bytes.length + 1)
          (hwr.fits latest) hinit
        generalize Framing.readFrames timestampWidth lengthWidth (bytes.length + 1)
          (bytes.drop headerSize) = whole at hwhl hboundary
        have htake : whole = ((segmentEntries writer.history latest).take whole.length).map
            codec.frame := by
          rw [map_take]
          exact prefix_iff_eq_take.mp hwhl
        have hlen : whole.length ≤ (locatedAt writer.history latest).length := by
          have hle := hwhl.length_le
          rwa [segmentEntries, length_map, length_map] at hle
        -- What was on disk is a first stretch of the history.
        have hski : writer.history.drop (writer.history.filter fun located =>
            located.segment ≠ latest ∨ located.index < whole.length).length =
            writer.history.filter fun located =>
              !decide (located.segment ≠ latest ∨ located.index < whole.length) := by
          have hsp := filter_append_filter (fun located : Located T =>
            decide (located.segment ≠ latest ∨ located.index < whole.length))
            writer.history (by
              apply hwr.ordered.imp_of_mem
              intro left right hleft hrgt hpre htest
              have hnwt := hwr.newest_entry latest pending hcur right hrgt
              rw [Located.Before] at hpre
              rw [decide_eq_true_eq] at htest ⊢
              omega)
          calc writer.history.drop _
              = (_ ++ writer.history.filter fun located : Located T =>
                  !decide (located.segment ≠ latest ∨ located.index < whole.length)).drop _ := by
                rw [hsp]
            _ = _ := drop_left' rfl
        have hahe : ∀ located ∈ writer.history,
            (⟨some latest, max bytes.length headerSize, whole.length, .ready, [],
              (writer.history.filter fun located =>
                located.segment ≠ latest ∨ located.index < whole.length).length⟩ :
              Tailer T).ahead located =
            !decide (located.segment ≠ latest ∨ located.index < whole.length) := by
          intro located hm
          have hnwt := hwr.newest_entry latest pending hcur located hm
          rw [Bool.eq_iff_iff]
          simp only [Tailer.ahead, Bool.or_eq_true, Bool.and_eq_true, decide_eq_true_eq,
            Bool.not_eq_true', decide_eq_false_iff_not]
          omega
        refine ⟨length_filter_le _ _, (fun hnone => by cases hnone), ?_, ?_, ?_⟩
        · rintro segment ⟨⟩
          refine ⟨hlat, ⟨latest, pending, hcur, le_refl _⟩, Or.inl hsome, hlen, ?_,
            (fun length heq => by cases heq), (fun heq => by cases heq)⟩
          simp only
          rw [hboundary, LogPayload.entriesBytes, ← htake]
        · rw [nil_append, hski, filter_congr hahe]
        · intro located hm
          rw [hski] at hm
          obtain ⟨hm, htest⟩ := mem_filter.mp hm
          exact Or.inr (Or.inl ((hahe located hm).trans htest))
      · cases hbeg

end TailerSteps

/-- The invariant of writer and tailer together. -/
structure SystemInvariant (codec : LogPayload T) (system : TailSystem T) : Prop where
  writer : WriterInvariant codec system.writer
  tailer : ∀ tailer ∈ system.tailer, TailerInvariant codec system.writer tailer

variable {system : TailSystem T}

theorem SystemInvariant.step {codec : LogPayload T} (hlaw : codec.Lawful) {segmentDurationNs : ℤ}
    (hdur : 0 < segmentDurationNs) {next : TailSystem T} (hsys : SystemInvariant codec system)
    {action : SystemAction T} (hset : Settled system action)
    (hs : system.step codec segmentDurationNs action = some next) :
    SystemInvariant codec next := by
  cases action with
  | write action =>
    obtain ⟨writer, hwr, rfl⟩ := Option.map_eq_some_iff.mp hs
    exact ⟨hsys.writer.step hdur hwr, fun tailer htail =>
      (hsys.tailer tailer htail).writerStep hsys.writer hdur hwr⟩
  | tail =>
    simp only [TailSystem.step] at hs
    split at hs
    · cases hs
    · obtain ⟨tailer, htail, rfl⟩ := Option.map_eq_some_iff.mp hs
      refine ⟨hsys.writer, ?_⟩
      rintro found ⟨⟩
      exact tailerInvariant_start hsys.writer htail
  | observe action =>
    simp only [TailSystem.step] at hs
    split at hs
    · cases hs
    · rename_i tailer hcur
      obtain ⟨moved, hmov, rfl⟩ := Option.map_eq_some_iff.mp hs
      have htail := hsys.tailer tailer hcur
      refine ⟨hsys.writer, ?_⟩
      rintro found ⟨⟩
      cases action with
      | pick => exact htail.pick hsys.writer hmov
      | read => exact htail.read hsys.writer hlaw hmov
      | list =>
        have hsm : (⟨system.writer, some tailer⟩ : TailSystem T) = system := by
          rw [← hcur]
        exact htail.list hsys.writer (hsm.symm ▸ hset) hmov

theorem SystemInvariant.losesNothing {codec : LogPayload T}
    (hsys : SystemInvariant codec system) : LosesNothing system := by
  intro tailer htail
  have hinv := hsys.tailer tailer htail
  have hsub : tailer.yielded.Sublist (system.writer.history.drop tailer.skipped) :=
    (sublist_append_left _ _).trans hinv.sublist
  refine ⟨hsub, ?_, hinv.covered⟩
  have hord := hsys.writer.ordered.sublist
    (hsub.trans (drop_sublist _ _))
  apply hord.imp
  rintro left right (hlt | ⟨-, hlt⟩) rfl
  · exact lt_irrefl _ hlt
  · exact lt_irrefl _ hlt

theorem TailSystem.run_concat (codec : LogPayload T) (segmentDurationNs : ℤ)
    (actions : List (SystemAction T)) (action : SystemAction T) :
    TailSystem.run codec segmentDurationNs (actions ++ [action]) =
      (TailSystem.run codec segmentDurationNs actions).bind
        (TailSystem.step codec segmentDurationNs · action) := by
  simp [TailSystem.run, foldlM_append]

/-- In every run whose listings are settled a tailer loses and duplicates nothing. -/
theorem tailer_loses_nothing_when_settled (codec : LogPayload T) (hlawful : codec.Lawful)
    (segmentDurationNs : ℤ) (hduration : 0 < segmentDurationNs)
    (actions : List (SystemAction T)) (system : TailSystem T)
    (hrun : TailSystem.run codec segmentDurationNs actions = some system)
    (hsettled : ∀ before action after state, actions = before ++ action :: after →
      TailSystem.run codec segmentDurationNs before = some state → Settled state action) :
    LosesNothing system := by
  suffices hinvariant : SystemInvariant codec system from hinvariant.losesNothing
  induction actions using List.reverseRecOn generalizing system with
  | nil =>
    cases hrun
    refine ⟨writerInvariant_initial codec, ?_⟩
    rintro tailer ⟨⟩
  | append_singleton actions action ih =>
    rw [TailSystem.run_concat, Option.bind_eq_some_iff] at hrun
    obtain ⟨state, hstate, hstep⟩ := hrun
    have hinvariant := ih state hstate fun before found after found' heq hfound =>
      hsettled before found (after ++ [action]) found'
        (by rw [heq, append_assoc, cons_append]) hfound
    exact hinvariant.step hlawful hduration (hsettled actions action [] state rfl hstate) hstep

theorem listSegments_of_sorted {dir : Directory} {starts : List ℤ}
    (hsts : dir.keys.filterMap segmentStart = starts) (hsort : starts.Pairwise (· < ·)) :
    listSegments dir = starts := by
  rw [listSegments, hsts]
  exact (toFinset_sort (· ≤ ·) (hsort.imp ne_of_lt)).mpr (hsort.imp le_of_lt)

theorem TailSystem.run_list {codec : LogPayload T} {segmentDurationNs : ℤ}
    {actions : List (SystemAction T)} {tailer : Tailer T} {segment : ℤ} {length : ℕ} (next : ℤ)
    (hrun : TailSystem.run codec segmentDurationNs actions = some system)
    (htail : system.tailer = some tailer) (hseg : tailer.segment = some segment)
    (hp : tailer.phase = .ended length)
    (hn : (listSegments system.writer.dir).find? (segment < ·) = some next) :
    TailSystem.run codec segmentDurationNs (actions ++ [.observe .list]) =
      some { system with tailer := some (tailer.enter next) } := by
  rw [TailSystem.run_concat, hrun, Option.bind_some]
  simp only [TailSystem.step, htail, Tailer.step, hp, hseg, hn, Option.map_some]

/-- What the samples below look at. -/
structure TailSystem.Summary (T : Type) where
  history : List (Located T)
  evicted : List ℤ
  starts : List ℤ
  length : Option ℕ
  tailer : Option (Option ℤ × TailPhase × List (Located T) × ℕ)
  deriving DecidableEq

def TailSystem.summary (system : TailSystem T) : TailSystem.Summary T :=
  ⟨system.writer.history, system.writer.evicted, system.writer.dir.keys.filterMap segmentStart,
    (segmentFile system.writer.dir 0).map List.length,
    system.tailer.map fun tailer =>
      (tailer.segment, tailer.phase, tailer.yielded, tailer.skipped)⟩

/-- One entry is read, and then the segment is read to its end. -/
def settledActions : List (SystemAction Unit) :=
  [.write (.rollover (sampleTime 0)), .write (.write 16), .tail,
    .write (.append ⟨1, ()⟩), .write (.write 100), .observe .read, .observe .read,
    .write (.rollover (sampleTime 10))]

theorem settledActions_summary :
    (TailSystem.run unitCodec 10 settledActions).map TailSystem.summary =
      some ⟨[⟨0, 0, ⟨1, ()⟩⟩], [], [0, 10], some 28,
        some (some 0, .ended 28, [⟨0, 0, ⟨1, ()⟩⟩], 0)⟩ := by
  decide +kernel

theorem tailer_loses_nothing_when_settled_sample : ∃ system,
    TailSystem.run unitCodec 10 (settledActions ++ [.observe .list]) = some system ∧
      LosesNothing system := by
  obtain ⟨state, hrun, hsummary⟩ := Option.map_eq_some_iff.mp settledActions_summary
  simp only [TailSystem.summary, TailSystem.Summary.mk.injEq, Prod.mk.injEq,
    Option.map_eq_some_iff] at hsummary
  obtain ⟨-, -, hstarts, ⟨bytes, hbytes, hlength⟩, tailer, htailer, hsegment, hphase, -, -⟩ :=
    hsummary
  have hnext := TailSystem.run_list 10 hrun htailer hsegment hphase (by
    rw [listSegments_of_sorted hstarts (by decide)]
    decide)
  refine ⟨_, hnext, tailer_loses_nothing_when_settled unitCodec (fun _ => rfl) 10 (by decide)
    _ _ hnext ?_⟩
  intro before action after found heq hfound
  rcases eq_nil_or_concat' after with rfl | ⟨middle, last, rfl⟩
  · obtain ⟨rfl, hlast⟩ := append_inj' heq rfl
    cases hlast
    rw [hrun, Option.some.injEq] at hfound
    subst hfound
    intro current hcurrent segment hcurrentSegment length hended _ file hfile
    rw [Option.mem_def, htailer, Option.some.injEq] at hcurrent
    subst hcurrent
    rw [Option.mem_def, hsegment, Option.some.injEq] at hcurrentSegment
    subst hcurrentSegment
    rw [Option.mem_def, hbytes, Option.some.injEq] at hfile
    rw [hphase, TailPhase.ended.injEq] at hended
    rw [← hfile, hlength, hended]
  · rw [← cons_append, ← append_assoc] at heq
    have hmem : action ∈ settledActions := by
      rw [(append_inj' heq rfl).1]
      exact mem_append_right _ mem_cons_self
    revert hmem
    simp only [settledActions, mem_cons, not_mem_nil, or_false]
    rintro (rfl | rfl | rfl | rfl | rfl | rfl | rfl | rfl) <;> exact trivial

/-- A segment gets its last entry after the tailer has read to its end. -/
def lateEntryActions : List (SystemAction Unit) :=
  [.write (.rollover (sampleTime 0)), .write (.write 16), .tail, .observe .read,
    .write (.append ⟨1, ()⟩), .write (.write 100),
    .write (.rollover (sampleTime 10))]

theorem lateEntryActions_summary :
    (TailSystem.run unitCodec 10 lateEntryActions).map TailSystem.summary =
      some ⟨[⟨0, 0, ⟨1, ()⟩⟩], [], [0, 10], some 28, some (some 0, .ended 16, [], 0)⟩ := by
  decide +kernel

/-- An entry that reached its segment between the read and the listing is lost. -/
theorem tailer_loses_late_entry : ∃ system,
    TailSystem.run unitCodec 10 (lateEntryActions ++ [.observe .list]) = some system ∧
      ¬ LosesNothing system := by
  obtain ⟨state, hrun, hsummary⟩ := Option.map_eq_some_iff.mp lateEntryActions_summary
  simp only [TailSystem.summary, TailSystem.Summary.mk.injEq, Prod.mk.injEq,
    Option.map_eq_some_iff] at hsummary
  obtain ⟨hhistory, hevicted, hstarts, -, tailer, htailer, hsegment, hphase, hyielded, hskipped⟩ :=
    hsummary
  have hnext := TailSystem.run_list 10 hrun htailer hsegment hphase (by
    rw [listSegments_of_sorted hstarts (by decide)]
    decide)
  refine ⟨_, hnext, ?_⟩
  intro hloses
  have hcovered := (hloses (tailer.enter 10) rfl).2.2 ⟨0, 0, ⟨1, ()⟩⟩ (by
    simp only [Tailer.enter, hhistory, hskipped]
    exact mem_singleton_self _)
  simp only [Tailer.enter, Tailer.ahead, hyielded, hevicted] at hcovered
  revert hcovered
  decide

end AukiSdk.Logs
