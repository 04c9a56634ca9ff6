import AukiSdk.Foundation.Run
import AukiSdk.Logs.TailSafety

/-!
# Where a tailer starts

`Log::tail` takes the length of a file for the place of the next entry.
-/

namespace AukiSdk.Logs

open AukiSdk.Foundation List Function
open Std (ExtTreeMap)

variable {T : Type}

/-- The files, the buffered bytes, and what was appended. -/
structure BufferedWriter (T : Type) where
  dir : Directory
  current : Option (ℤ × List UInt8)
  entries : ℤ → List (Entry T)
  appended : List (ℤ × Entry T)

/-- A file step of the writer. -/
inductive BufferedAction (T : Type) where
  /-- `start_segment` for the window of a timestamp. -/
  | create (timestampNs : I64)
  /-- The bytes of an entry enter the buffer. -/
  | append (entry : Entry T)
  /-- Buffered bytes reach the file, in order. -/
  | write (count : ℕ)
  /-- `close_current`. -/
  | close
  /-- `evict_older_than` removes a file. -/
  | evict (startNs : ℤ)

/-- One file step; `none` when the writer does not take it. -/
def BufferedWriter.step (codec : LogPayload T) (segmentDurationNs : ℤ)
    (writer : BufferedWriter T) : BufferedAction T → Option (BufferedWriter T)
  | .create timestampNs =>
    let startNs := windowStart segmentDurationNs timestampNs.value
    if writer.current.isNone ∧ 0 ≤ timestampNs.value ∧
        segmentFilename startNs ∉ writer.dir then
      some
        { writer with
          dir := writer.dir.insert (segmentFilename startNs) []
          current := some (startNs, segmentHeader startNs)
          entries := Function.update writer.entries startNs [] }
    else
      none
  | .append entry =>
    match writer.current with
    | none => none
    | some (startNs, pending) =>
      if codec.Writable entry ∧ startNs ≤ entry.timestampNs ∧
          entry.timestampNs < saturatingAdd startNs segmentDurationNs then
        some
          { writer with
            current := some (startNs, pending ++ codec.entryBytes entry)
            entries := Function.update writer.entries startNs
              (writer.entries startNs ++ [entry])
            appended := writer.appended ++ [(startNs, entry)] }
      else
        none
  | .write count =>
    match writer.current with
    | none => none
    | some (startNs, pending) =>
      some
        { writer with
          dir := appendBytes writer.dir startNs (pending.take count)
          current := some (startNs, pending.drop count) }
  | .close =>
    match writer.current with
    | none => none
    | some (startNs, pending) =>
      some { writer with dir := appendBytes writer.dir startNs pending, current := none }
  | .evict startNs =>
    if startNs ∈ listSegments writer.dir ∧ writer.current.map Prod.fst ≠ some startNs then
      some { writer with dir := writer.dir.erase (segmentFilename startNs) }
    else
      none

/-- What the buffer holds back of a segment. -/
def BufferedWriter.pending (writer : BufferedWriter T) (segment : ℤ) : List UInt8 :=
  match writer.current with
  | none => []
  | some (startNs, pending) => if startNs = segment then pending else []

/-- Each file with its buffer is the header and the appended entries. -/
structure BufferedWriter.Framed (codec : LogPayload T) (writer : BufferedWriter T) : Prop where
  only_segments : OnlySegments writer.dir
  open_start : ∀ startNs pending, writer.current = some (startNs, pending) → IsStart startNs
  content : ∀ segment, IsStart segment → ∀ bytes, segmentFile writer.dir segment = some bytes →
    bytes ++ writer.pending segment =
      segmentHeader segment ++ codec.entriesBytes (writer.entries segment)
  logged : ∀ segment, ∀ entry ∈ writer.entries segment,
    codec.Writable entry ∧ (segment, entry) ∈ writer.appended

/-- `Log::tail` has not been called, has listed the segments, or has returned. -/
inductive Tailing (T : Type) where
  | idle
  | listed (latest : ℤ)
  | running (tailer : Tailer T)

structure TailedLog (T : Type) where
  writer : BufferedWriter T
  tailing : Tailing T

/-- A step of the writer, one of the two of `Log::tail`, or an observation. -/
inductive TailedAction (T : Type) where
  | write (action : BufferedAction T)
  /-- `list_segments` in `Log::tail`. -/
  | list
  /-- `fs::metadata` in `Log::tail`. -/
  | measure
  | observe (action : TailAction)

/-- A tailer that has not read anything; it numbers entries from here. -/
def Tailer.start (segment : Option ℤ) (offset : ℕ) : Tailer T :=
  ⟨segment, offset, 0, .ready, [], 0⟩

def TailedLog.step (codec : LogPayload T) (segmentDurationNs : ℤ) (system : TailedLog T) :
    TailedAction T → Option (TailedLog T)
  | .write action =>
    (system.writer.step codec segmentDurationNs action).map ({ system with writer := · })
  | .list =>
    match system.tailing with
    | .idle =>
      match (listSegments system.writer.dir).getLast? with
      | none => some { system with tailing := .running (Tailer.start none 0) }
      | some latest => some { system with tailing := .listed latest }
    | _ => none
  | .measure =>
    match system.tailing with
    | .listed latest =>
      match segmentFile system.writer.dir latest with
      -- The file was evicted after the listing, and `tail` returns the error.
      | none => some { system with tailing := .idle }
      | some bytes =>
        some
          { system with
            tailing := .running (Tailer.start (some latest) (max bytes.length headerSize)) }
    | _ => none
  | .observe action =>
    match system.tailing with
    | .running tailer =>
      (tailer.step codec system.writer.dir action).map fun tailer =>
        { system with tailing := .running tailer }
    | _ => none

/-- An empty directory and no tailer. -/
def TailedLog.initial : TailedLog T := ⟨⟨∅, none, fun _ => [], []⟩, .idle⟩

/-- An offset just past the header or one of the entries. -/
def AtEntry (codec : LogPayload T) (entries : List (Entry T)) (offset : ℕ) : Prop :=
  ∃ count ≤ entries.length,
    offset = headerSize + (codec.entriesBytes (entries.take count)).length

/-- `Log::tail` measures whole entries, and passed segments are not created again. -/
def StaysFramed (codec : LogPayload T) (segmentDurationNs : ℤ) (system : TailedLog T) :
    TailedAction T → Prop
  | .measure =>
    match system.tailing with
    | .listed latest =>
      ∀ bytes ∈ segmentFile system.writer.dir latest,
        AtEntry codec (system.writer.entries latest) (max bytes.length headerSize)
    | _ => True
  | .write (.create timestampNs) =>
    match system.tailing with
    | .running tailer =>
      tailer.segment = some (windowStart segmentDurationNs timestampNs.value) →
        tailer.phase = .missing ∨ tailer.offset = headerSize
    | _ => True
  | _ => True

theorem atEntry_header (codec : LogPayload T) (entries : List (Entry T)) :
    AtEntry codec entries headerSize :=
  ⟨0, Nat.zero_le _, by simp [LogPayload.entriesBytes]⟩

theorem AtEntry.mono {codec : LogPayload T} {entries more : List (Entry T)} {offset : ℕ}
    (hat : AtEntry codec entries offset) (hpre : entries <+: more) :
    AtEntry codec more offset := by
  obtain ⟨count, hcnt, hoff⟩ := hat
  obtain ⟨added, rfl⟩ := hpre
  refine ⟨count, hcnt.trans ?_, ?_⟩
  · rw [length_append]
    exact Nat.le_add_right _ _
  · rw [hoff, take_append_of_le_length hcnt]

section Steps

variable {codec : LogPayload T} {segmentDurationNs : ℤ} {writer next : BufferedWriter T}

variable {action : BufferedAction T}

theorem BufferedWriter.step_frame (hfrm : writer.Framed codec) (hdur : 0 < segmentDurationNs)
    (hs : writer.step codec segmentDurationNs action = some next) :
    writer.appended <+: next.appended ∧
      ∀ segment, IsStart segment → (segmentFile next.dir segment).isSome →
        ((segmentFile writer.dir segment).isSome ∧
            writer.entries segment <+: next.entries segment) ∨
          ∃ timestampNs, action = .create timestampNs ∧
            segment = windowStart segmentDurationNs timestampNs.value := by
  cases action with simp only [BufferedWriter.step] at hs
  | create timestampNs =>
    split at hs
    · rename_i hgrd
      cases hs
      refine ⟨prefix_refl _, ?_⟩
      intro segment hseg hsome
      by_cases heq : segment = windowStart segmentDurationNs timestampNs.value
      · exact Or.inr ⟨timestampNs, rfl, heq⟩
      · left
        obtain ⟨hnn, hle, -, -⟩ := windowStart_spec hdur hgrd.2.1
        rw [segmentFile_insert ⟨hnn, hle.trans timestampNs.upper⟩ hseg, if_neg heq] at hsome
        exact ⟨hsome, by simp only [update_of_ne heq, prefix_refl]⟩
    · cases hs
  | append entry =>
    split at hs
    · cases hs
    · rename_i startNs pending hcur
      split at hs
      · cases hs
        refine ⟨prefix_append _ _, ?_⟩
        intro segment hseg hsome
        refine Or.inl ⟨hsome, ?_⟩
        by_cases heq : segment = startNs
        · subst heq
          simp only [update_self]
          exact prefix_append _ _
        · simp only [update_of_ne heq, prefix_refl]
      · cases hs
  | write count =>
    split at hs
    · cases hs
    · cases hs
      refine ⟨prefix_refl _, ?_⟩
      intro segment _ hsome
      rw [isSome_segmentFile_appendBytes] at hsome
      exact Or.inl ⟨hsome, prefix_refl _⟩
  | close =>
    split at hs
    · cases hs
    · cases hs
      refine ⟨prefix_refl _, ?_⟩
      intro segment _ hsome
      rw [isSome_segmentFile_appendBytes] at hsome
      exact Or.inl ⟨hsome, prefix_refl _⟩
  | evict startNs =>
    split at hs
    · rename_i hgrd
      cases hs
      refine ⟨prefix_refl _, ?_⟩
      intro segment hseg hsome
      have hrmv := ((mem_listSegments hfrm.only_segments).mp hgrd.1).1
      rw [segmentFile_erase hrmv hseg] at hsome
      split at hsome
      · cases hsome
      · exact Or.inl ⟨hsome, prefix_refl _⟩
    · cases hs

theorem BufferedWriter.Framed.create (hfrm : writer.Framed codec)
    (hdur : 0 < segmentDurationNs) {timestampNs : I64}
    (hs : writer.step codec segmentDurationNs (.create timestampNs) = some next) :
    next.Framed codec := by
  simp only [BufferedWriter.step] at hs
  split at hs
  · rename_i hgrd
    cases hs
    obtain ⟨hcl, htime, -⟩ := hgrd
    obtain ⟨hnn, hle, -, -⟩ := windowStart_spec hdur htime
    have hcre : IsStart (windowStart segmentDurationNs timestampNs.value) :=
      ⟨hnn, hle.trans timestampNs.upper⟩
    generalize windowStart segmentDurationNs timestampNs.value = created at *
    rw [Option.isNone_iff_eq_none] at hcl
    refine ⟨?_, ?_, ?_, ?_⟩
    · intro name hname
      rw [ExtTreeMap.mem_insert, Std.LawfulEqOrd.compare_eq_iff_eq] at hname
      rcases hname with rfl | hname
      · exact ⟨created, hcre.1, hcre.2, rfl⟩
      · exact hfrm.only_segments name hname
    · rintro found pending ⟨⟩
      exact hcre
    · intro segment hseg bytes hfile
      rw [segmentFile_insert hcre hseg] at hfile
      by_cases heq : segment = created
      · subst heq
        rw [if_pos rfl, Option.some.injEq] at hfile
        simp [← hfile, BufferedWriter.pending, LogPayload.entriesBytes]
      · rw [if_neg heq] at hfile
        have hcont := hfrm.content segment hseg bytes hfile
        simp only [BufferedWriter.pending, hcl] at hcont
        simp only [BufferedWriter.pending, if_neg (Ne.symm heq), update_of_ne heq]
        exact hcont
    · intro segment entry hent
      by_cases heq : segment = created
      · subst heq
        simp only [update_self, not_mem_nil] at hent
      · simp only [update_of_ne heq] at hent
        exact hfrm.logged segment entry hent
  · cases hs

theorem BufferedWriter.Framed.append (hfrm : writer.Framed codec) {entry : Entry T}
    (hs : writer.step codec segmentDurationNs (.append entry) = some next) :
    next.Framed codec := by
  simp only [BufferedWriter.step] at hs
  split at hs
  · cases hs
  · rename_i startNs pending hcur
    split at hs
    · rename_i hgrd
      cases hs
      refine ⟨hfrm.only_segments, ?_, ?_, ?_⟩
      · rintro found rest ⟨⟩
        exact hfrm.open_start startNs pending hcur
      · intro segment hseg bytes hfile
        have hcont := hfrm.content segment hseg bytes hfile
        simp only [BufferedWriter.pending, hcur] at hcont
        by_cases heq : segment = startNs
        · subst heq
          rw [if_pos rfl] at hcont
          simp only [BufferedWriter.pending, if_true, update_self]
          rw [← append_assoc, hcont, LogPayload.entriesBytes, LogPayload.entriesBytes,
            map_append, Framing.encodeFrames_append, append_assoc]
          simp [LogPayload.entryBytes, Framing.encodeFrames]
        · rw [if_neg (Ne.symm heq)] at hcont
          simp only [BufferedWriter.pending, if_neg (Ne.symm heq), update_of_ne heq]
          exact hcont
      · intro segment found hf
        by_cases heq : segment = startNs
        · subst heq
          simp only [update_self, mem_append, mem_singleton] at hf
          rcases hf with hf | rfl
          · obtain ⟨hwbl, hlog⟩ := hfrm.logged segment found hf
            exact ⟨hwbl, mem_append_left _ hlog⟩
          · exact ⟨hgrd.1, mem_append_right _ mem_cons_self⟩
        · simp only [update_of_ne heq] at hf
          obtain ⟨hwbl, hlog⟩ := hfrm.logged segment found hf
          exact ⟨hwbl, mem_append_left _ hlog⟩
    · cases hs

theorem BufferedWriter.Framed.handOver (hfrm : writer.Framed codec) {startNs : ℤ}
    {written rest : List UInt8} (hcur : writer.current = some (startNs, written ++ rest))
    {current : Option (ℤ × List UInt8)} (hrest : current = some (startNs, rest) ∨
      current = none ∧ rest = []) :
    ({ writer with dir := appendBytes writer.dir startNs written, current := current } :
      BufferedWriter T).Framed codec := by
  have hbeg := hfrm.open_start startNs _ hcur
  refine ⟨fun name hname => hfrm.only_segments name (mem_appendBytes.mp hname), ?_, ?_, hfrm.logged⟩
  · intro found pending hf
    rcases hrest with rfl | ⟨rfl, -⟩
    · cases hf
      exact hbeg
    · cases hf
  · intro segment hseg bytes hfile
    rw [segmentFile_appendBytes hbeg hseg] at hfile
    by_cases heq : segment = startNs
    · subst heq
      rw [if_pos rfl, Option.map_eq_some_iff] at hfile
      obtain ⟨old, hold, rfl⟩ := hfile
      have hcont := hfrm.content segment hseg old hold
      simp only [BufferedWriter.pending, hcur, if_true] at hcont
      rcases hrest with rfl | ⟨rfl, rfl⟩
      · simp only [BufferedWriter.pending, if_true]
        rw [append_assoc, hcont]
      · simp only [BufferedWriter.pending, append_nil] at hcont ⊢
        exact hcont
    · rw [if_neg heq] at hfile
      have hcont := hfrm.content segment hseg bytes hfile
      simp only [BufferedWriter.pending, hcur, if_neg (Ne.symm heq)] at hcont
      rcases hrest with rfl | ⟨rfl, -⟩
      · simp only [BufferedWriter.pending, if_neg (Ne.symm heq)]
        exact hcont
      · exact hcont

theorem BufferedWriter.Framed.evict (hfrm : writer.Framed codec) {startNs : ℤ}
    (hs : writer.step codec segmentDurationNs (.evict startNs) = some next) :
    next.Framed codec := by
  simp only [BufferedWriter.step] at hs
  split at hs
  · rename_i hgrd
    cases hs
    have hrmv := ((mem_listSegments hfrm.only_segments).mp hgrd.1).1
    refine ⟨fun name hname => hfrm.only_segments name (ExtTreeMap.mem_of_mem_erase hname),
      hfrm.open_start, ?_, hfrm.logged⟩
    intro segment hseg bytes hfile
    rw [segmentFile_erase hrmv hseg] at hfile
    split at hfile
    · cases hfile
    · exact hfrm.content segment hseg bytes hfile
  · cases hs

theorem BufferedWriter.Framed.step (hfrm : writer.Framed codec) (hdur : 0 < segmentDurationNs)
    (hs : writer.step codec segmentDurationNs action = some next) : next.Framed codec := by
  cases action with
  | create timestampNs => exact hfrm.create hdur hs
  | append entry => exact hfrm.append hs
  | write count =>
    simp only [BufferedWriter.step] at hs
    split at hs
    · cases hs
    · rename_i startNs pending hcur
      cases hs
      apply hfrm.handOver _ (Or.inl rfl)
      rw [take_append_drop]
      exact hcur
  | close =>
    simp only [BufferedWriter.step] at hs
    split at hs
    · cases hs
    · rename_i startNs pending hcur
      cases hs
      apply hfrm.handOver _ (Or.inr ⟨rfl, rfl⟩)
      rw [append_nil]
      exact hcur
  | evict startNs => exact hfrm.evict hs

/-- The tailer stands at an entry, unless it found no file. -/
structure Tailer.Aligned (codec : LogPayload T) (writer : BufferedWriter T)
    (tailer : Tailer T) : Prop where
  is_start : ∀ segment, tailer.segment = some segment → IsStart segment
  at_entry : ∀ segment, tailer.segment = some segment → tailer.phase ≠ .missing →
    (segmentFile writer.dir segment).isSome →
      AtEntry codec (writer.entries segment) tailer.offset
  yielded : ∀ located ∈ tailer.yielded, (located.segment, located.entry) ∈ writer.appended

variable {tailer moved : Tailer T}

/-- The tailer stays at an entry unless its segment is created again. -/
theorem Tailer.Aligned.writerStep (hali : tailer.Aligned codec writer)
    (hfrm : writer.Framed codec) (hdur : 0 < segmentDurationNs)
    (hcre : ∀ timestampNs, action = .create timestampNs →
      tailer.segment = some (windowStart segmentDurationNs timestampNs.value) →
        tailer.phase = .missing ∨ tailer.offset = headerSize)
    (hs : writer.step codec segmentDurationNs action = some next) :
    tailer.Aligned codec next := by
  obtain ⟨happ, hsgm⟩ := BufferedWriter.step_frame hfrm hdur hs
  refine ⟨hali.is_start, ?_, fun located hloc =>
    happ.subset (hali.yielded located hloc)⟩
  intro segment hseg hp hsome
  rcases hsgm segment (hali.is_start segment hseg) hsome with
    ⟨hold, hpre⟩ | ⟨timestampNs, rfl, rfl⟩
  · exact (hali.at_entry segment hseg hp hold).mono hpre
  · rcases hcre timestampNs rfl hseg with hmiss | hheader
    · exact absurd hmiss hp
    · rw [hheader]
      exact atEntry_header codec _

/-- What `read_one_entry_at` finds at an entry. -/
theorem BufferedWriter.Framed.readFrame (hfrm : writer.Framed codec) {segment : ℤ}
    (hseg : IsStart segment) {bytes : List UInt8}
    (hfile : segmentFile writer.dir segment = some bytes) {offset : ℕ}
    (hat : AtEntry codec (writer.entries segment) offset) :
    Framing.readFrame timestampWidth lengthWidth (bytes.drop offset) = none ∨
      ∃ entry ∈ writer.entries segment, ∃ rest,
        Framing.readFrame timestampWidth lengthWidth (bytes.drop offset) =
          some (codec.frame entry, rest) ∧
        AtEntry codec (writer.entries segment)
          (offset + (timestampWidth + (lengthWidth + (codec.encode entry.payload).length))) := by
  obtain ⟨count, hcnt, rfl⟩ := hat
  have hinit : bytes <+: segmentHeader segment ++ codec.entriesBytes (writer.entries segment) :=
    ⟨_, hfrm.content segment hseg bytes hfile⟩
  have hdrop := hinit.drop (headerSize +
    (codec.entriesBytes ((writer.entries segment).take count)).length)
  rw [drop_header_entriesBytes, LogPayload.entriesBytes] at hdrop
  have hfits : ∀ frame ∈ ((writer.entries segment).drop count).map codec.frame,
      Framing.Fits timestampWidth lengthWidth frame := by
    intro frame hm
    obtain ⟨entry, hent, rfl⟩ := mem_map.mp hm
    exact codec.fits_frame (hfrm.logged segment entry (mem_of_mem_drop hent)).1
  rcases Framing.readFrame_prefix (by decide) hfits hdrop with
    hnone | ⟨frame, rest, tail, hframes, hread, -, -⟩
  · exact Or.inl hnone
  · right
    obtain ⟨entry, later, hlat, rfl, -⟩ := map_eq_cons_iff.mp hframes
    have hlt : count < (writer.entries segment).length := by
      by_contra hge
      rw [drop_eq_nil_of_le (not_lt.mp hge)] at hlat
      cases hlat
    have hent : (writer.entries segment)[count] = entry := by
      rw [drop_eq_getElem_cons hlt] at hlat
      exact (List.cons.inj hlat).1
    refine ⟨entry, hent ▸ getElem_mem hlt, rest, hread, count + 1, hlt, ?_⟩
    rw [take_succ_eq_append_getElem hlt, hent, LogPayload.entriesBytes,
      LogPayload.entriesBytes, map_append, Framing.encodeFrames_append, length_append,
      map_singleton, Framing.encodeFrames_cons, Framing.encodeFrames_nil, append_nil,
      Framing.length_encodeFrame]
    simp only [LogPayload.frame]
    omega

theorem Tailer.Aligned.enter (hali : tailer.Aligned codec writer)
    (hfrm : writer.Framed codec) {segment : ℤ} (hlis : segment ∈ listSegments writer.dir) :
    (tailer.enter segment).Aligned codec writer := by
  refine ⟨?_, ?_, hali.yielded⟩
  · rintro found ⟨⟩
    exact ((mem_listSegments hfrm.only_segments).mp hlis).1
  · rintro found ⟨⟩ _ _
    exact atEntry_header codec _

theorem Tailer.Aligned.observe (hali : tailer.Aligned codec writer)
    (hfrm : writer.Framed codec) (hlaw : codec.Lawful) {action : TailAction}
    (hs : tailer.step codec writer.dir action = some moved) : moved.Aligned codec writer := by
  cases action with simp only [Tailer.step] at hs
  | pick =>
    split at hs
    · split at hs
      · cases hs
        exact hali
      · rename_i first hfst
        cases hs
        exact hali.enter hfrm (mem_of_mem_head? hfst)
    · cases hs
  | read =>
    split at hs
    · rename_i segment hp hseg
      have hbeg := hali.is_start segment hseg
      split at hs
      · cases hs
        exact ⟨hali.is_start, fun _ _ hrdy _ => absurd rfl hrdy, hali.yielded⟩
      · rename_i bytes hfile
        have hat := hali.at_entry segment hseg (by rw [hp]; decide)
          (by rw [hfile]; rfl)
        rcases hfrm.readFrame hbeg hfile hat with hnone | ⟨entry, hent, rest, hread, hn⟩
        · rw [hnone] at hs
          cases hs
          refine ⟨hali.is_start, ?_, hali.yielded⟩
          intro found hf _ hsome
          exact hali.at_entry found hf (by rw [hp]; decide) hsome
        · obtain ⟨hwbl, hlog⟩ := hfrm.logged segment entry hent
          simp only [hread, codec.readEntry_frame hlaw hwbl, Option.some.injEq] at hs
          subst hs
          refine ⟨hali.is_start, ?_, ?_⟩
          · intro found hf _ _
            rw [hseg, Option.some.injEq] at hf
            subst hf
            exact hn
          · intro located hloc
            rw [mem_append, mem_singleton] at hloc
            rcases hloc with hloc | rfl
            · exact hali.yielded located hloc
            · exact hlog
    · cases hs
  | list =>
    split at hs
    · cases hs
    · cases hs
    · rename_i length segment hp hseg
      split at hs
      · rename_i target hfind
        cases hs
        exact hali.enter hfrm (mem_of_find?_eq_some hfind)
      · cases hs
        refine ⟨hali.is_start, ?_, hali.yielded⟩
        intro found hf _ hsome
        exact hali.at_entry found hf (by rw [hp]; simp) hsome
    · split at hs
      · rename_i target hfind
        cases hs
        exact hali.enter hfrm (mem_of_find?_eq_some hfind)
      · cases hs
        refine ⟨?_, ?_, hali.yielded⟩
        · rintro found ⟨⟩
        · rintro found ⟨⟩

end Steps

/-- The invariant of writer and tailer together. -/
structure TailedLog.Framed (codec : LogPayload T) (system : TailedLog T) : Prop where
  writer : system.writer.Framed codec
  listed : ∀ latest, system.tailing = .listed latest → IsStart latest
  running : ∀ tailer, system.tailing = .running tailer → tailer.Aligned codec system.writer

theorem TailedLog.Framed.step {codec : LogPayload T} (hlaw : codec.Lawful)
    {segmentDurationNs : ℤ} (hdur : 0 < segmentDurationNs) {system next : TailedLog T}
    (hsys : system.Framed codec) {action : TailedAction T}
    (hsta : StaysFramed codec segmentDurationNs system action)
    (hs : system.step codec segmentDurationNs action = some next) : next.Framed codec := by
  cases action with
  | write action =>
    obtain ⟨writer, hwr, rfl⟩ := Option.map_eq_some_iff.mp hs
    refine ⟨hsys.writer.step hdur hwr, hsys.listed, ?_⟩
    intro tailer htail
    have hsm : system.tailing = .running tailer := htail
    apply (hsys.running tailer hsm).writerStep hsys.writer hdur _ hwr
    rintro timestampNs rfl hseg
    simp only [StaysFramed, hsm] at hsta
    exact hsta hseg
  | list =>
    simp only [TailedLog.step] at hs
    split at hs
    · split at hs
      · cases hs
        refine ⟨hsys.writer, ?_, ?_⟩
        · rintro latest ⟨⟩
        · rintro tailer ⟨⟩
          refine ⟨?_, ?_, ?_⟩
          · rintro segment ⟨⟩
          · rintro segment ⟨⟩
          · rintro located ⟨⟩
      · rename_i latest hlatest
        cases hs
        refine ⟨hsys.writer, ?_, ?_⟩
        · rintro found ⟨⟩
          exact ((mem_listSegments hsys.writer.only_segments).mp (mem_of_getLast? hlatest)).1
        · rintro tailer ⟨⟩
    · cases hs
  | measure =>
    simp only [TailedLog.step] at hs
    split at hs
    · rename_i latest hlatest
      have hbeg := hsys.listed latest hlatest
      split at hs
      · cases hs
        refine ⟨hsys.writer, ?_, ?_⟩
        · rintro found ⟨⟩
        · rintro tailer ⟨⟩
      · rename_i bytes hfile
        cases hs
        refine ⟨hsys.writer, ?_, ?_⟩
        · rintro found ⟨⟩
        · rintro tailer ⟨⟩
          refine ⟨?_, ?_, ?_⟩
          · rintro segment ⟨⟩
            exact hbeg
          · rintro segment ⟨⟩ _ _
            simp only [StaysFramed, hlatest] at hsta
            exact hsta bytes hfile
          · rintro located ⟨⟩
    · cases hs
  | observe action =>
    simp only [TailedLog.step] at hs
    split at hs
    · rename_i tailer htail
      obtain ⟨moved, hmov, rfl⟩ := Option.map_eq_some_iff.mp hs
      refine ⟨hsys.writer, ?_, ?_⟩
      · rintro latest ⟨⟩
      · rintro found ⟨⟩
        exact (hsys.running tailer htail).observe hsys.writer hlaw hmov
    · cases hs

/-- What a tailer has yielded, and what was appended. -/
def TailedLog.outcome (system : TailedLog T) :
    Option (List (ℤ × Entry T) × List (ℤ × Entry T)) :=
  match system.tailing with
  | .running tailer => some (tailer.yielded.map fun located => (located.segment, located.entry),
      system.writer.appended)
  | _ => none

end AukiSdk.Logs
