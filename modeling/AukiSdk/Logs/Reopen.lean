import AukiSdk.Logs.Torn

/-!
# Reopening a log

A writer that opens a log directory of earlier writers again.
-/

namespace AukiSdk.Logs

open AukiSdk.Foundation List
open Std (ExtTreeMap)

variable {T : Type}

/-- A log directory: the durations of its manifest and its segment files. -/
structure LogRoot where
  segmentDurationNs : ℤ
  retentionNs : ℤ
  segments : Directory

/-- `Log::open` once the manifest is on disk: it is the source of truth. -/
def Log.openRoot (capacity : ℕ) (root : LogRoot) : Log :=
  ⟨capacity, root.segmentDurationNs, root.retentionNs,
    (listSegments root.segments).toFinset, none, root.segments⟩

/-- A writer is dropped, or its process ends within the last segment. -/
inductive Ending where
  | closed
  | crashed (kept : ℕ)
  deriving DecidableEq

/-- The last segment file, cut `kept` bytes after its header. -/
def cutLast (kept : ℕ) (dir : Directory) : Directory :=
  match (listSegments dir).getLast? with
  | none => dir
  | some startNs => dir.modify (segmentFilename startNs) (·.take (headerSize + kept))

/-- The directory that a writer leaves. -/
def Log.leave (log : Log) (ending : Ending) : LogRoot :=
  ⟨log.segmentDurationNs, log.retentionNs,
    match ending with
    | .closed => log.closeCurrent.dir
    | .crashed kept => cutLast kept log.closeCurrent.dir⟩

/-- The calls of one writer, and how it stopped. -/
structure Session (T : Type) where
  calls : List (LogCall T)
  ending : Ending

/-- A log directory, and the complete entries it holds with their segments. -/
structure StoredLog (T : Type) where
  root : LogRoot
  remaining : List (ℤ × Entry T)

/-- The entries of the last segment that are complete after it was cut. -/
def cutRemaining (codec : LogPayload T) (kept : ℕ) (last : Option ℤ)
    (remaining : List (ℤ × Entry T)) : List (ℤ × Entry T) :=
  match last with
  | none => remaining
  | some startNs =>
    remaining.filter (·.1 ≠ startNs) ++
      (codec.wholeEntries kept (entriesAt remaining startNs)).map (startNs, ·)

/-- One writer on a log directory. -/
def StoredLog.session (codec : LogPayload T) (capacity : ℕ) (stored : StoredLog T)
    (session : Session T) : StoredLog T :=
  let traced := session.calls.foldl (TracedLog.call codec)
    ⟨Log.openRoot capacity stored.root, []⟩
  let remaining := traced.events.foldl afterEvent stored.remaining
  ⟨traced.log.leave session.ending,
    match session.ending with
    | .closed => remaining
    | .crashed kept =>
      cutRemaining codec kept (listSegments traced.log.closeCurrent.dir).getLast? remaining⟩

/-- Writers one after the other, on a directory that was empty. -/
def StoredLog.history (codec : LogPayload T) (capacity : ℕ) (segmentDurationNs retentionNs : ℤ)
    (sessions : List (Session T)) : StoredLog T :=
  sessions.foldl (StoredLog.session codec capacity) ⟨⟨segmentDurationNs, retentionNs, ∅⟩, []⟩

/-- The timestamp that a call attempts to append. -/
def LogCall.attempted : LogCall T → Option ℤ
  | .append timestampNs _ => some timestampNs.value
  | .flush => none
  | .setRetention _ => none

/-- Appends one after the other: their results, the log, and what happened to
entries. -/
def Log.appendAll (codec : LogPayload T) (log : Log) :
    List (I64 × T) → List (Except LogError Unit) × Log × List (LogEvent T)
  | [] => ([], log, [])
  | (timestampNs, payload) :: rest =>
    let (result, next, events) := log.append codec timestampNs payload
    let (results, last, later) := next.appendAll codec rest
    (result :: results, last, events ++ later)

/-- Every append succeeds, and the directory reads back as what was there and is new. -/
def Continues (codec : LogPayload T) (capacity : ℕ) (stored : StoredLog T)
    (appends : List (I64 × T)) : Prop :=
  let run := (Log.openRoot capacity stored.root).appendAll codec appends
  (∀ result ∈ run.1, result = .ok ()) ∧
    appendedEntries run.2.2 = appends.map (fun new => ⟨new.1.value, new.2⟩) ∧
    codec.entries run.2.1.closeCurrent.dir =
      .ok ((run.2.2.foldl afterEvent stored.remaining).map Prod.snd)

/-- The largest timestamp does not share its window with an earlier one. -/
def Unshared (segmentDurationNs earlier later : ℤ) : Prop :=
  later = i64Max → windowStart segmentDurationNs earlier ≠ windowStart segmentDurationNs later

/-- New timestamps are representable and meet no existing segment. -/
def Resumable (codec : LogPayload T) (root : LogRoot) (appends : List (I64 × T)) : Prop :=
  (∀ new ∈ appends, 0 ≤ new.1.value ∧ (codec.encode new.2).length < 2 ^ 32 ∧
      windowStart root.segmentDurationNs new.1.value ∉ listSegments root.segments) ∧
    (appends.map fun new => new.1.value).Pairwise (Unshared root.segmentDurationNs)

/-- A log and its entries, in the order of their timestamps, all of which were
attempted. -/
structure Recorded (codec : LogPayload T) (log : Log) (remaining : List (ℤ × Entry T))
    (attempted : List ℤ) : Prop where
  stored : LogInvariant codec log remaining
  ordered : remaining.Pairwise fun left right => left.2.timestampNs ≤ right.2.timestampNs
  attempts : ∀ tagged ∈ remaining, tagged.2.timestampNs ∈ attempted

section Calls

variable {codec : LogPayload T} {log : Log} {remaining : List (ℤ × Entry T)}
  {attempted : List ℤ}

theorem Recorded.append (hrec : Recorded codec log remaining attempted)
    (timestampNs : I64) (payload : T)
    (hnwt : ∀ tagged ∈ remaining, tagged.2.timestampNs ≤ timestampNs.value) :
    Recorded codec (log.append codec timestampNs payload).2.1
      ((log.append codec timestampNs payload).2.2.foldl afterEvent remaining)
      (attempted ++ [timestampNs.value]) := by
  -- What remains is part of the old entries and the new one.
  have hwro : ∀ startNs,
      (remaining ++ [(startNs, (⟨timestampNs.value, payload⟩ : Entry T))]).Pairwise
        (fun left right => left.2.timestampNs ≤ right.2.timestampNs) ∧
      ∀ tagged ∈ remaining ++ [(startNs, (⟨timestampNs.value, payload⟩ : Entry T))],
        tagged.2.timestampNs ∈ attempted ++ [timestampNs.value] := by
    intro startNs
    rw [pairwise_append]
    refine ⟨⟨hrec.ordered, pairwise_singleton _ _, ?_⟩, ?_⟩
    · intro left hleft right hrgt
      rw [mem_singleton] at hrgt
      subst hrgt
      exact hnwt left hleft
    · intro tagged htag
      rcases mem_append.mp htag with htag | htag
      · exact mem_append_left _ (hrec.attempts tagged htag)
      · rw [mem_singleton] at htag
        subst htag
        exact mem_append_right _ mem_cons_self
  have hkept : ((log.append codec timestampNs payload).2.2.foldl afterEvent remaining).Pairwise
      (fun left right => left.2.timestampNs ≤ right.2.timestampNs) ∧
      ∀ tagged ∈ (log.append codec timestampNs payload).2.2.foldl afterEvent remaining,
        tagged.2.timestampNs ∈ attempted ++ [timestampNs.value] := by
    rcases hrec.stored.append_cases timestampNs payload with
      ⟨error, next, hres, -, -, -⟩ |
      ⟨opened, cur, -, -, -, -, -, -, written, -, -, -, -, -, hres⟩
    · rw [hres]
      exact ⟨hrec.ordered, fun tagged htag =>
        mem_append_left _ (hrec.attempts tagged htag)⟩
    · rw [hres]
      obtain ⟨hpai, hatt⟩ := hwro cur.startNs
      split
      · rw [foldl_cons, afterEvent_evicted, afterEvent]
        exact ⟨hpai.filter _, fun tagged htag =>
          hatt tagged (mem_filter.mp htag).1⟩
      · exact ⟨hpai, hatt⟩
  exact ⟨hrec.stored.append timestampNs payload, hkept.1, hkept.2⟩

theorem Recorded.call (events : List (LogEvent T)) {base : List (ℤ × Entry T)}
    (hrec : Recorded codec log (events.foldl afterEvent base) attempted)
    (call : LogCall T)
    (hnwt : ∀ timestampNs ∈ call.attempted, ∀ older ∈ attempted, older ≤ timestampNs) :
    Recorded codec (TracedLog.call codec ⟨log, events⟩ call).log
      ((TracedLog.call codec ⟨log, events⟩ call).events.foldl afterEvent base)
      (attempted ++ call.attempted.toList) := by
  cases call with
  | append timestampNs payload =>
    simp only [TracedLog.call, foldl_append]
    exact hrec.append timestampNs payload fun tagged htag =>
      hnwt timestampNs.value rfl _ (hrec.attempts tagged htag)
  | flush =>
    rw [LogCall.attempted, Option.toList_none, append_nil]
    exact ⟨hrec.stored.flush, hrec.ordered, hrec.attempts⟩
  | setRetention retentionNs =>
    rw [LogCall.attempted, Option.toList_none, append_nil]
    exact ⟨hrec.stored.setRetention retentionNs, hrec.ordered, hrec.attempts⟩

end Calls

/-- A log directory as its writers left it: torn files of a log that is closed. -/
structure Left (codec : LogPayload T) (stored : StoredLog T) (attempted : List ℤ)
    (whole : Log) : Prop where
  recorded : Recorded codec whole stored.remaining attempted
  closed : whole.current = none
  durations : whole.segmentDurationNs = stored.root.segmentDurationNs ∧
    whole.retentionNs = stored.root.retentionNs
  files : TornFiles whole.dir stored.root.segments

section Sessions

variable {codec : LogPayload T} {stored : StoredLog T} {attempted : List ℤ} {whole : Log}

theorem Left.empty (codec : LogPayload T) {segmentDurationNs retentionNs : ℤ}
    (hdur : 0 < segmentDurationNs) (hret : 0 ≤ retentionNs) :
    Left codec ⟨⟨segmentDurationNs, retentionNs, ∅⟩, []⟩ []
      (Log.openEmpty 0 segmentDurationNs retentionNs) where
  recorded := ⟨LogInvariant.openEmpty codec 0 hdur hret, List.Pairwise.nil, by simp⟩
  closed := rfl
  durations := ⟨rfl, rfl⟩
  files := TornFiles.refl ∅

/-- The log without the tears, as it is opened again. -/
def reopened (capacity : ℕ) (whole : Log) : Log :=
  { whole with
    capacity := capacity
    segmentStarts := (listSegments whole.dir).toFinset
    current := none }

theorem Left.openRoot (hleft : Left codec stored attempted whole) (capacity : ℕ) :
    Log.openRoot capacity stored.root =
        { reopened capacity whole with dir := stored.root.segments } ∧
      Torn (reopened capacity whole) stored.root.segments ∧
      Recorded codec (reopened capacity whole) stored.remaining attempted := by
  have hlog := hleft.recorded.stored
  have hsts : (listSegments whole.dir).toFinset = whole.segmentStarts := by
    ext startNs
    rw [mem_toFinset, hlog.mem_listSegments]
  have hsm : reopened capacity whole = { whole with capacity := capacity } := by
    rw [reopened, hsts, ← hleft.closed]
  refine ⟨?_, ⟨hleft.files, ?_⟩, ?_, hleft.recorded.ordered, hleft.recorded.attempts⟩
  · rw [Log.openRoot, hleft.files.listSegments, ← hleft.durations.1, ← hleft.durations.2]
    rfl
  · rintro cur ⟨⟩
  · rw [hsm]
    exact { hlog with }

theorem Torn.calls (events : List (LogEvent T)) {base : List (ℤ × Entry T)} {log : Log}
    {dir : Directory} (htorn : Torn log dir)
    (hrec : Recorded codec log (events.foldl afterEvent base) attempted)
    (calls : List (LogCall T))
    (hord : (attempted ++ calls.filterMap LogCall.attempted).Pairwise (· ≤ ·)) :
    ∃ last dir' later,
      calls.foldl (TracedLog.call codec) ⟨{ log with dir := dir }, events⟩ =
        ⟨{ last with dir := dir' }, later⟩ ∧
      Torn last dir' ∧ Recorded codec last (later.foldl afterEvent base)
        (attempted ++ calls.filterMap LogCall.attempted) := by
  induction calls generalizing log dir events attempted with
  | nil =>
    rw [filterMap_nil, append_nil]
    exact ⟨log, dir, events, rfl, htorn, hrec⟩
  | cons call calls ih =>
    have hsp : attempted ++ (call :: calls).filterMap LogCall.attempted =
        (attempted ++ call.attempted.toList) ++ calls.filterMap LogCall.attempted := by
      rw [append_assoc, filterMap_cons]
      cases call.attempted with
      | none => rfl
      | some timestampNs => rfl
    rw [hsp] at hord ⊢
    have hnwt : ∀ timestampNs ∈ call.attempted, ∀ older ∈ attempted, older ≤ timestampNs := by
      intro timestampNs hc older holder
      have hfst := (pairwise_append.mp hord).1
      apply (pairwise_append.mp hfst).2.2 older holder timestampNs
      rw [Option.mem_toList]
      exact hc
    obtain ⟨next, hn, htor⟩ := htorn.call codec events call
    rw [foldl_cons, hn]
    exact ih _ htor (hrec.call events call hnwt) hord

/-! ### Cutting the last segment -/

theorem getLast_listSegments {dir : Directory} {startNs : ℤ}
    (hlast : (listSegments dir).getLast? = some startNs) :
    startNs ∈ listSegments dir ∧ ∀ other ∈ listSegments dir, other ≤ startNs := by
  obtain ⟨others, hots⟩ := getLast?_eq_some_iff.mp hlast
  have hsort := sortedLT_listSegments dir
  rw [hots, pairwise_append] at hsort
  rw [hots]
  refine ⟨by simp, ?_⟩
  intro other ho
  rcases mem_append.mp ho with ho | ho
  · exact (hsort.2.2 other ho startNs mem_cons_self).le
  · exact (mem_singleton.mp ho).le

variable {log : Log} {remaining : List (ℤ × Entry T)} {startNs : ℤ}

theorem mem_cutRemaining {kept : ℕ} {tagged : ℤ × Entry T}
    (hm : tagged ∈ cutRemaining codec kept (some startNs) remaining) :
    tagged ∈ remaining := by
  rcases mem_append.mp hm with hm | hm
  · exact (mem_filter.mp hm).1
  · obtain ⟨entry, hent, rfl⟩ := mem_map.mp hm
    exact mem_entriesAt.mp ((codec.wholeEntries_initial kept _).subset hent)

theorem entriesAt_cutRemaining (kept : ℕ) (other : ℤ) :
    entriesAt (cutRemaining codec kept (some startNs) remaining) other =
      if other = startNs then codec.wholeEntries kept (entriesAt remaining startNs)
      else entriesAt remaining other := by
  rw [cutRemaining, entriesAt, filter_append, map_append]
  by_cases heq : other = startNs
  · subst heq
    have hnone : (remaining.filter (·.1 ≠ other)).filter (·.1 = other) = [] := by
      rw [filter_eq_nil_iff]
      intro tagged htag
      simpa using (mem_filter.mp htag).2
    have hall : ((codec.wholeEntries kept (entriesAt remaining other)).map
        ((other, ·) : Entry T → ℤ × Entry T)).filter (·.1 = other) =
        (codec.wholeEntries kept (entriesAt remaining other)).map (other, ·) := by
      rw [filter_eq_self]
      intro tagged htag
      obtain ⟨entry, -, rfl⟩ := mem_map.mp htag
      simp
    rw [hnone, hall, if_pos rfl, map_nil, nil_append, map_map]
    exact map_id _
  · have hnone : ((codec.wholeEntries kept (entriesAt remaining startNs)).map
        ((startNs, ·) : Entry T → ℤ × Entry T)).filter (·.1 = other) = [] := by
      rw [filter_eq_nil_iff]
      intro tagged htag
      obtain ⟨entry, -, rfl⟩ := mem_map.mp htag
      simpa using Ne.symm heq
    have hots : (remaining.filter (·.1 ≠ startNs)).filter (·.1 = other) =
        remaining.filter (·.1 = other) := by
      rw [filter_filter]
      apply filter_congr
      intro tagged _
      by_cases hsm : tagged.1 = other
      · simp [hsm, heq]
      · simp [hsm]
    rw [hnone, hots, if_neg heq, map_nil, append_nil]
    rfl

theorem LogInvariant.cut (hlog : LogInvariant codec log remaining)
    (hcl : log.current = none) (hm : startNs ∈ log.segmentStarts) (kept : ℕ) :
    LogInvariant codec
      { log with
        dir := log.dir.insert (segmentFilename startNs) (segmentHeader startNs ++
          codec.entriesBytes (codec.wholeEntries kept (entriesAt remaining startNs))) }
      (cutRemaining codec kept (some startNs) remaining) := by
  have hexi : segmentFilename startNs ∈ log.dir :=
    isSome_segmentFile.mp ((hlog.mem_starts startNs).mp hm).2
  have hnms : ∀ name, name ∈ log.dir.insert (segmentFilename startNs) (segmentHeader startNs ++
      codec.entriesBytes (codec.wholeEntries kept (entriesAt remaining startNs))) ↔
      name ∈ log.dir := by
    intro name
    rw [ExtTreeMap.mem_insert, Std.LawfulEqOrd.compare_eq_iff_eq]
    constructor
    · rintro (rfl | hname)
      · exact hexi
      · exact hname
    · exact Or.inr
  refine ⟨hlog.duration_pos, hlog.retention_nonneg,
    fun name hname => hlog.only_segments name ((hnms name).mp hname), ?_, hlog.aligned,
    hlog.current_mem, hlog.current_end, ?_,
    fun tagged htag => hlog.entry_mem tagged (mem_cutRemaining htag),
    fun tagged htag => hlog.entry_window tagged (mem_cutRemaining htag),
    fun tagged htag => hlog.entry_writable tagged (mem_cutRemaining htag)⟩
  · intro other
    rw [hlog.mem_starts, isSome_segmentFile, isSome_segmentFile, hnms]
  · intro other ho
    have hst := hlog.stored other ho
    rw [storedBytes, hcl] at hst
    simp only [storedBytes, hcl, pendingBytes, append_nil, Option.map_id'] at hst ⊢
    rw [entriesAt_cutRemaining, segmentFile, FiniteMap.getElem?_insert]
    by_cases heq : other = startNs
    · subst heq
      rw [if_pos rfl, if_pos rfl]
    · rw [if_neg heq, if_neg fun hname => heq
        (segmentFilename_injective (hlog.isStart ho) (hlog.isStart hm) hname)]
      exact hst

theorem LogInvariant.ordered_cut (hlog : LogInvariant codec log remaining)
    (hord : remaining.Pairwise fun left right =>
      left.2.timestampNs ≤ right.2.timestampNs)
    (hm : startNs ∈ log.segmentStarts)
    (hlast : ∀ other ∈ log.segmentStarts, other ≤ startNs) (kept : ℕ) :
    (cutRemaining codec kept (some startNs) remaining).Pairwise fun left right =>
      left.2.timestampNs ≤ right.2.timestampNs := by
  have hwhl : (codec.wholeEntries kept (entriesAt remaining startNs)).Pairwise
      fun left right => left.timestampNs ≤ right.timestampNs := by
    apply List.Pairwise.sublist (codec.wholeEntries_initial kept _).sublist
    rw [entriesAt, pairwise_map]
    exact hord.filter _
  rw [cutRemaining, pairwise_append]
  refine ⟨hord.filter _, pairwise_map.mpr hwhl, ?_⟩
  intro left hleft right hrgt
  obtain ⟨hleft, ho⟩ := mem_filter.mp hleft
  obtain ⟨entry, hent, rfl⟩ := mem_map.mp hrgt
  have hrgt := mem_entriesAt.mp ((codec.wholeEntries_initial kept _).subset hent)
  -- Another segment ends before the last one starts.
  have hlt : left.1 < startNs := lt_of_le_of_ne (hlast left.1 (hlog.entry_mem left hleft))
    (by simpa using ho)
  have hgap := hlog.start_gap (hlog.entry_mem left hleft) hm hlt
  have hend := (hlog.entry_window left hleft).2
  have hbegin : startNs ≤ entry.timestampNs := (hlog.entry_window _ hrgt).1
  show left.2.timestampNs ≤ entry.timestampNs
  omega

theorem TornFiles.cut {whole torn : Directory} (hfls : TornFiles whole torn)
    {entries : List (Entry T)} (hwbl : ∀ entry ∈ entries, codec.Writable entry)
    (hfile : segmentFile whole startNs =
      some (segmentHeader startNs ++ codec.entriesBytes entries)) (kept : ℕ) :
    TornFiles
      (whole.insert (segmentFilename startNs)
        (segmentHeader startNs ++ codec.entriesBytes (codec.wholeEntries kept entries)))
      (torn.modify (segmentFilename startNs) (·.take (headerSize + kept))) where
  names := by
    intro name
    have hexi : segmentFilename startNs ∈ whole := by
      rw [← isSome_segmentFile, hfile]
      rfl
    rw [ExtTreeMap.mem_modify, ExtTreeMap.mem_insert, Std.LawfulEqOrd.compare_eq_iff_eq, hfls.names]
    constructor
    · exact Or.inr
    · rintro (rfl | hname)
      · exact hexi
      · exact hname
  tears := by
    intro name bytes hbyt
    rw [FiniteMap.getElem?_insert] at hbyt
    rw [FiniteMap.getElem?_modify]
    by_cases hname : name = segmentFilename startNs
    · subst hname
      rw [if_pos rfl, Option.some.injEq] at hbyt
      subst hbyt
      obtain ⟨tail, htorn, htail⟩ := hfls.tears _ _ hfile
      obtain ⟨rest, hrest, hsp⟩ := codec.take_entriesBytes htail kept hwbl
      refine ⟨rest, ?_, hrest⟩
      rw [if_pos rfl, htorn, Option.map_some, append_assoc, append_assoc,
        take_append, length_segmentHeader, Nat.add_sub_cancel_left, hsp,
        take_of_length_le (by rw [length_segmentHeader]; omega)]
    · rw [if_neg hname] at hbyt ⊢
      exact hfls.tears name bytes hbyt

theorem Left.session (hleft : Left codec stored attempted whole) (capacity : ℕ)
    (session : Session T)
    (hord : (attempted ++ session.calls.filterMap LogCall.attempted).Pairwise (· ≤ ·)) :
    ∃ next, Left codec (stored.session codec capacity session)
      (attempted ++ session.calls.filterMap LogCall.attempted) next := by
  obtain ⟨hopen, htorn, hrec⟩ := hleft.openRoot capacity
  obtain ⟨last, dir, events, hcls, htrn, hlast⟩ := htorn.calls [] hrec session.calls hord
  obtain ⟨closed, hcl, htor⟩ := htrn.closeCurrent
  obtain ⟨hnone, hdur, hret, hsts, -⟩ := last.closeCurrent_fields
  have hst : LogInvariant codec last.closeCurrent
      (events.foldl afterEvent stored.remaining) := hlast.stored.closeCurrent
  simp only [StoredLog.session, hopen, hcls, Log.leave, hcl]
  cases session.ending with
  | closed =>
    exact ⟨last.closeCurrent, ⟨hst, hlast.ordered, hlast.attempts⟩, hnone, ⟨hdur, hret⟩, htor.files⟩
  | crashed kept =>
    simp only [cutLast, htor.files.listSegments]
    cases hlist : (listSegments last.closeCurrent.dir).getLast? with
    | none =>
      exact ⟨last.closeCurrent, ⟨hst, hlast.ordered, hlast.attempts⟩, hnone,
        ⟨hdur, hret⟩, htor.files⟩
    | some startNs =>
      obtain ⟨hm, hgre⟩ := getLast_listSegments hlist
      rw [hst.mem_listSegments] at hm
      have hfile : segmentFile last.closeCurrent.dir startNs = _ :=
        hlast.stored.segmentFile_closed (hsts ▸ hm)
      refine ⟨_, ⟨hst.cut hnone hm kept, ?_, ?_⟩, hnone, ⟨hdur, hret⟩,
        htor.files.cut (fun entry hent =>
          hst.entry_writable _ (mem_entriesAt.mp hent)) hfile kept⟩
      · exact hst.ordered_cut hlast.ordered hm
          (fun other ho => hgre other (hst.mem_listSegments.mpr ho)) kept
      · exact fun tagged htag => hlast.attempts tagged (mem_cutRemaining htag)

theorem left_history (codec : LogPayload T) (capacity : ℕ) {segmentDurationNs retentionNs : ℤ}
    (hdur : 0 < segmentDurationNs) (hret : 0 ≤ retentionNs)
    (sessions : List (Session T))
    (hord : ((sessions.flatMap Session.calls).filterMap LogCall.attempted).Pairwise (· ≤ ·)) :
    ∃ whole, Left codec
      (StoredLog.history codec capacity segmentDurationNs retentionNs sessions)
      ((sessions.flatMap Session.calls).filterMap LogCall.attempted) whole := by
  induction sessions using List.reverseRecOn with
  | nil => exact ⟨_, Left.empty codec hdur hret⟩
  | append_singleton sessions session ih =>
    rw [flatMap_append, flatMap_singleton, filterMap_append] at hord ⊢
    obtain ⟨whole, hwhl⟩ := ih (pairwise_append.mp hord).1
    rw [StoredLog.history, foldl_concat, ← StoredLog.history]
    exact hwhl.session capacity session hord

end Sessions

theorem eq_windowStart {segmentDurationNs startNs timestampNs : ℤ}
    (hdur : 0 < segmentDurationNs) (hdvd : segmentDurationNs ∣ startNs)
    (hle : startNs ≤ timestampNs) (hlt : timestampNs < startNs + segmentDurationNs) :
    startNs = windowStart segmentDurationNs timestampNs := by
  obtain ⟨quotient, rfl⟩ := hdvd
  have hquo : timestampNs / segmentDurationNs = quotient := by
    rw [Int.ediv_eq_iff_of_pos hdur]
    constructor
    · linarith
    · linarith
  rw [windowStart, hquo, mul_comm]

theorem windowStart_mono {segmentDurationNs left right : ℤ} (hdur : 0 < segmentDurationNs)
    (hle : left ≤ right) :
    windowStart segmentDurationNs left ≤ windowStart segmentDurationNs right :=
  mul_le_mul_of_nonneg_right (Int.ediv_le_ediv hdur hle) hdur.le

/-- A log since it was opened with the segments `existing`. -/
structure Resumed (existing : Finset ℤ) (done : List ℤ) (log : Log) : Prop where
  kept : ∀ startNs, (startNs ∈ existing ∨
      ∃ earlier ∈ done, startNs = windowStart log.segmentDurationNs earlier) →
    startNs ∈ log.segmentStarts ∨
      ∃ earlier ∈ done, startNs + log.segmentDurationNs ≤ earlier
  known : ∀ startNs ∈ log.segmentStarts, startNs ∈ existing ∨
    ∃ earlier ∈ done, startNs = windowStart log.segmentDurationNs earlier
  fresh : ∀ earlier ∈ done, windowStart log.segmentDurationNs earlier ∉ existing
  current : log.current.map CurrentSegment.startNs =
    done.getLast?.map (windowStart log.segmentDurationNs)

section Resuming

variable {codec : LogPayload T} {log : Log} {remaining : List (ℤ × Entry T)}
  {existing : Finset ℤ} {done : List ℤ}

theorem Resumed.accepts_iff (hres : Resumed existing done log)
    (hlog : LogInvariant codec log remaining) (timestampNs : I64) (payload : T)
    (hord : done.Pairwise (· ≤ ·)) (hnwt : ∀ earlier ∈ done, earlier ≤ timestampNs.value) :
    log.Accepts codec timestampNs payload ↔
      (0 ≤ timestampNs.value ∧ (codec.encode payload).length < 2 ^ 32 ∧
        windowStart log.segmentDurationNs timestampNs.value ∉ existing) ∧
      ∀ earlier ∈ done, Unshared log.segmentDurationNs earlier timestampNs.value := by
  by_cases hnn : 0 ≤ timestampNs.value
  swap
  · exact iff_of_false (fun hacc => hnn hacc.1) fun hall => hnn hall.1.1
  obtain ⟨hbeg, hle, hlt, hdvd⟩ := windowStart_spec hlog.duration_pos hnn
  -- A window that is known and holds the timestamp is not evicted yet.
  have hsta : ∀ startNs, (startNs ∈ existing ∨
      ∃ earlier ∈ done, startNs = windowStart log.segmentDurationNs earlier) →
      startNs = windowStart log.segmentDurationNs timestampNs.value →
      segmentFilename (windowStart log.segmentDurationNs timestampNs.value) ∈ log.dir := by
    rintro startNs hkno rfl
    rcases hres.kept _ hkno with hm | ⟨earlier, hpri, hpast⟩
    · exact isSome_segmentFile.mp ((hlog.mem_starts _).mp hm).2
    · have hbnd := hnwt earlier hpri
      omega
  have hopen : ∀ cur ∈ log.current, cur.startNs ≤ timestampNs.value →
      timestampNs.value < cur.endNs → timestampNs.value < i64Max ∧
        cur.startNs = windowStart log.segmentDurationNs timestampNs.value := by
    intro cur hcur hlow hupp
    rw [hlog.current_end cur hcur, saturatingAdd] at hupp
    exact ⟨by omega, eq_windowStart hlog.duration_pos
      (hlog.aligned _ (hlog.current_mem cur hcur)) hlow (by omega)⟩
  have hlast : ∀ cur ∈ log.current, ∃ earlier ∈ done,
      cur.startNs = windowStart log.segmentDurationNs earlier := by
    intro cur hcur
    have hcurrent := hres.current
    rw [Option.mem_def.mp hcur, Option.map_some, eq_comm, Option.map_eq_some_iff] at hcurrent
    obtain ⟨earlier, hpri, hsm⟩ := hcurrent
    exact ⟨earlier, mem_of_getLast? hpri, hsm.symm⟩
  constructor
  · rintro ⟨-, hsize, hroll⟩
    refine ⟨⟨hnn, hsize, fun hexi => ?_⟩, fun earlier hpri hmax hsm => ?_⟩
    · rcases hroll with ⟨cur, hcur, hlow, hupp⟩ | habs
      · obtain ⟨earlier, hpri, hwin⟩ := hlast cur hcur
        obtain ⟨-, hsm⟩ := hopen cur hcur hlow hupp
        exact hres.fresh earlier hpri (hwin ▸ hsm ▸ hexi)
      · exact habs (hsta _ (Or.inl hexi) rfl)
    · rcases hroll with ⟨cur, hcur, hlow, hupp⟩ | habs
      · have hbel := (hopen cur hcur hlow hupp).1
        omega
      · exact habs (hsta _ (Or.inr ⟨earlier, hpri, rfl⟩) hsm)
  · rintro ⟨⟨-, hsize, hfrs⟩, hlar⟩
    refine ⟨hnn, hsize, ?_⟩
    by_cases hexs : segmentFilename
        (windowStart log.segmentDurationNs timestampNs.value) ∈ log.dir
    swap
    · exact Or.inr hexs
    left
    have hm : windowStart log.segmentDurationNs timestampNs.value ∈ log.segmentStarts := by
      rw [hlog.mem_starts, isSome_segmentFile]
      exact ⟨⟨hbeg, hle.trans timestampNs.upper⟩, hexs⟩
    obtain ⟨earlier, hpri, hsm⟩ := (hres.known _ hm).resolve_left hfrs
    -- The last append was in the same window, between the earlier one and this.
    obtain ⟨last, hget⟩ : ∃ last, done.getLast? = some last :=
      ⟨_, getLast?_eq_some_getLast (ne_nil_of_mem hpri)⟩
    have hcurrent := hres.current
    rw [hget, Option.map_some] at hcurrent
    obtain ⟨cur, hcur, hwin⟩ := Option.map_eq_some_iff.mp hcurrent
    have hpre : earlier ≤ last := by
      obtain ⟨others, rfl⟩ := getLast?_eq_some_iff.mp hget
      rcases mem_append.mp hpri with hpri | hpri
      · exact (pairwise_append.mp hord).2.2 earlier hpri last mem_cons_self
      · exact (mem_singleton.mp hpri).le
    have hwnd : windowStart log.segmentDurationNs last =
        windowStart log.segmentDurationNs timestampNs.value := by
      apply le_antisymm
      · exact windowStart_mono hlog.duration_pos (hnwt last (mem_of_getLast? hget))
      · rw [hsm]
        exact windowStart_mono hlog.duration_pos hpre
    refine ⟨cur, hcur, by rw [hwin, hwnd]; exact hle, ?_⟩
    have hupp := timestampNs.upper
    have hbel : timestampNs.value ≠ i64Max := fun hmax =>
      hlar earlier hpri hmax hsm.symm
    rw [hlog.current_end cur hcur, hwin, hwnd, saturatingAdd]
    omega

theorem LogInvariant.rollover_starts (hlog : LogInvariant codec log remaining) {timestampNs : ℤ}
    {opened : Log} (hroll : log.rollover timestampNs = (.ok (), opened)) :
    opened.segmentStarts = insert (windowStart log.segmentDurationNs timestampNs)
      log.segmentStarts := by
  rcases rollover_cases log timestampNs with
    ⟨cur, hcur, hlow, hupp, hsm⟩ | ⟨-, -, started, hbgn, hsm⟩ | ⟨-, -, hfail⟩
  · rw [hsm] at hroll
    cases hroll
    rw [hlog.current_end cur hcur, saturatingAdd] at hupp
    have hm := hlog.current_mem cur hcur
    rw [eq_windowStart hlog.duration_pos (hlog.aligned _ hm) hlow (by omega)] at hm
    exact (Finset.insert_eq_of_mem hm).symm
  · rw [hsm] at hroll
    cases hroll
    simp only [Log.startSegment] at hbgn
    split at hbgn
    · cases hbgn
    · cases hbgn
      simp only [log.closeCurrent_fields.2.2.2.1]
  · rw [hfail] at hroll
    cases hroll

theorem Resumed.append (hrsm : Resumed existing done log)
    (hlog : LogInvariant codec log remaining) (timestampNs : I64) (payload : T)
    (hfrs : windowStart log.segmentDurationNs timestampNs.value ∉ existing)
    (hok : (log.append codec timestampNs payload).1 = .ok ()) :
    Resumed existing (done ++ [timestampNs.value]) (log.append codec timestampNs payload).2.1 ∧
      (log.append codec timestampNs payload).2.1.segmentDurationNs = log.segmentDurationNs ∧
      appendedEntries (log.append codec timestampNs payload).2.2 =
        [⟨timestampNs.value, payload⟩] := by
  rcases hlog.append_cases timestampNs payload with
    ⟨error, next, hres, -, -, -⟩ |
    ⟨opened, cur, hroll, -, -, -, -, -, written, hdur, -, hcurrent, hsts, hinv, hres⟩
  · rw [hres] at hok
    cases hok
  have hself : timestampNs.value ∈ done ++ [timestampNs.value] := by simp
  have hold : ∀ earlier ∈ done, earlier ∈ done ++ [timestampNs.value] :=
    fun earlier hpri => mem_append_left _ hpri
  have hm : (cur.startNs, (⟨timestampNs.value, payload⟩ : Entry T)) ∈
      remaining ++ [(cur.startNs, ⟨timestampNs.value, payload⟩)] := by simp
  have hwin : cur.startNs = windowStart log.segmentDurationNs timestampNs.value := by
    have hins := hinv.entry_window _ hm
    rw [← hdur]
    exact eq_windowStart hinv.duration_pos (hinv.aligned _ (hinv.entry_mem _ hm)) hins.1
      hins.2
  have hadd : written.segmentStarts =
      insert (windowStart log.segmentDurationNs timestampNs.value) log.segmentStarts :=
    hsts.trans (hlog.rollover_starts hroll)
  have hwro : Resumed existing (done ++ [timestampNs.value]) written := by
    refine ⟨?_, ?_, ?_, ?_⟩
    · intro startNs hkno
      rw [hdur] at hkno ⊢
      rw [hadd, Finset.mem_insert]
      rcases hkno with hexi | ⟨earlier, hpri, hsm⟩
      · rcases hrsm.kept startNs (Or.inl hexi) with hm | ⟨past, hpast, hle⟩
        · exact Or.inl (Or.inr hm)
        · exact Or.inr ⟨past, hold past hpast, hle⟩
      · rcases mem_append.mp hpri with hpri | hpri
        · rcases hrsm.kept startNs (Or.inr ⟨earlier, hpri, hsm⟩) with
            hm | ⟨past, hpast, hle⟩
          · exact Or.inl (Or.inr hm)
          · exact Or.inr ⟨past, hold past hpast, hle⟩
        · rw [mem_singleton] at hpri
          exact Or.inl (Or.inl (hpri ▸ hsm))
    · intro startNs hm
      rw [hadd, Finset.mem_insert] at hm
      rw [hdur]
      rcases hm with rfl | hm
      · exact Or.inr ⟨_, hself, rfl⟩
      · rcases hrsm.known startNs hm with hexi | ⟨earlier, hpri, hsm⟩
        · exact Or.inl hexi
        · exact Or.inr ⟨earlier, hold earlier hpri, hsm⟩
    · intro earlier hpri
      rw [hdur]
      rcases mem_append.mp hpri with hpri | hpri
      · exact hrsm.fresh earlier hpri
      · rw [mem_singleton] at hpri
        exact hpri ▸ hfrs
    · rw [hcurrent, hdur, getLast?_concat, Option.map_some, hwin]
  rw [hres]
  split
  · rename_i hret
    refine ⟨⟨?_, ?_, hwro.fresh, hwro.current⟩, hdur, ?_⟩
    · intro startNs hkno
      rcases hwro.kept startNs hkno with hm | hpast
      · by_cases hexp : startNs ∈ written.expired (timestampNs.value - log.retentionNs)
        · have hend := (Finset.mem_filter.mp hexp).2.1
          have hupp := timestampNs.upper
          rw [saturatingAdd] at hend
          refine Or.inr ⟨_, hself, ?_⟩
          simp only [Log.evictOlderThan]
          omega
        · exact Or.inl (Finset.mem_sdiff.mpr ⟨hm, hexp⟩)
      · exact Or.inr hpast
    · exact fun startNs hm => hwro.known startNs (Finset.mem_sdiff.mp hm).1
    · rw [← singleton_append, appendedEntries_append, appendedEntries_evicted, append_nil]
      rfl
  · exact ⟨hwro, hdur, rfl⟩

/-- Appends succeed exactly when the log accepts each, and are then appended. -/
theorem Resumed.appendAll (hres : Resumed existing done log)
    (hlog : LogInvariant codec log remaining) (appends : List (I64 × T))
    (hord : (done ++ appends.map fun new => new.1.value).Pairwise (· ≤ ·))
    (huns : done.Pairwise (Unshared log.segmentDurationNs)) :
    ((∀ result ∈ (log.appendAll codec appends).1, result = .ok ()) ↔
      (∀ new ∈ appends, 0 ≤ new.1.value ∧ (codec.encode new.2).length < 2 ^ 32 ∧
        windowStart log.segmentDurationNs new.1.value ∉ existing) ∧
      (done ++ appends.map fun new => new.1.value).Pairwise (Unshared log.segmentDurationNs)) ∧
    ((∀ result ∈ (log.appendAll codec appends).1, result = .ok ()) →
      appendedEntries (log.appendAll codec appends).2.2 =
        appends.map fun new => ⟨new.1.value, new.2⟩) := by
  induction appends generalizing log remaining done with
  | nil =>
    rw [map_nil, append_nil]
    simp [Log.appendAll, appendedEntries, huns]
  | cons new appends ih =>
    obtain ⟨timestampNs, payload⟩ := new
    have hmove : (done ++ ((timestampNs, payload) :: appends).map fun new => new.1.value) =
        (done ++ [timestampNs.value]) ++ appends.map fun new => new.1.value := by
      rw [map_cons, append_assoc, singleton_append]
    rw [hmove] at hord ⊢
    have hhead := (pairwise_append.mp hord).1
    have hacc := hres.accepts_iff hlog timestampNs payload
      (pairwise_append.mp hhead).1 fun earlier hpri =>
        (pairwise_append.mp hhead).2.2 earlier hpri _ mem_cons_self
    rw [← hlog.append_ok_iff] at hacc
    have hpai : (done ++ [timestampNs.value]).Pairwise (Unshared log.segmentDurationNs) ↔
        ∀ earlier ∈ done, Unshared log.segmentDurationNs earlier timestampNs.value := by
      rw [pairwise_append]
      simp [huns]
    simp only [Log.appendAll, forall_mem_cons]
    by_cases hok : (log.append codec timestampNs payload).1 = .ok ()
    · obtain ⟨hfit, hlar⟩ := hacc.mp hok
      obtain ⟨hrsm, hdur, hents⟩ := hres.append hlog timestampNs payload hfit.2.2 hok
      obtain ⟨hiff, happ⟩ := ih hrsm (hlog.append timestampNs payload) hord
        (hdur.symm ▸ hpai.mpr hlar)
      rw [hdur] at hiff
      refine ⟨⟨fun hall => ?_, fun hall => ?_⟩, fun hall => ?_⟩
      · obtain ⟨hrest, hprw⟩ := hiff.mp hall.2
        exact ⟨⟨hfit, hrest⟩, hprw⟩
      · exact ⟨hok, hiff.mpr ⟨hall.1.2, hall.2⟩⟩
      · rw [appendedEntries_append, hents, happ hall.2]
        rfl
    · refine ⟨iff_of_false (fun hall => hok hall.1) fun hall => hok (hacc.mpr ?_),
        fun hall => absurd hall.1 hok⟩
      exact ⟨hall.1.1, hpai.mp (pairwise_append.mp hall.2).1⟩

theorem Torn.appendAll {dir : Directory} (htorn : Torn log dir) (codec : LogPayload T)
    (appends : List (I64 × T)) :
    ∃ next, { log with dir := dir }.appendAll codec appends =
        ((log.appendAll codec appends).1,
          { (log.appendAll codec appends).2.1 with dir := next },
          (log.appendAll codec appends).2.2) ∧
      Torn (log.appendAll codec appends).2.1 next := by
  induction appends generalizing log dir with
  | nil => exact ⟨dir, rfl, htorn⟩
  | cons new appends ih =>
    obtain ⟨timestampNs, payload⟩ := new
    obtain ⟨next, hn, htrn⟩ := htorn.append codec timestampNs payload
    obtain ⟨last, hlast, htor⟩ := ih htrn
    refine ⟨last, ?_, htor⟩
    simp only [Log.appendAll, hn, hlast]

theorem Recorded.appendAll {attempted : List ℤ}
    (hrec : Recorded codec log remaining attempted) {appends : List (I64 × T)}
    (hord : (attempted ++ appends.map fun new => new.1.value).Pairwise (· ≤ ·)) :
    Recorded codec (log.appendAll codec appends).2.1
      ((log.appendAll codec appends).2.2.foldl afterEvent remaining)
      (attempted ++ appends.map fun new => new.1.value) := by
  induction appends generalizing log remaining attempted with
  | nil =>
    rw [map_nil, append_nil]
    exact hrec
  | cons new appends ih =>
    obtain ⟨timestampNs, payload⟩ := new
    have hmove : (attempted ++ ((timestampNs, payload) :: appends).map fun new => new.1.value) =
        (attempted ++ [timestampNs.value]) ++ appends.map fun new => new.1.value := by
      rw [map_cons, append_assoc, singleton_append]
    rw [hmove] at hord ⊢
    have hfst := (pairwise_append.mp hord).1
    have happ := hrec.append timestampNs payload fun tagged htag =>
      (pairwise_append.mp hfst).2.2 _ (hrec.attempts tagged htag) _
        mem_cons_self
    simp only [Log.appendAll, foldl_append]
    exact ih happ hord

end Resuming

/-- A reopened log continues exactly when no new timestamp meets an old segment. -/
theorem reopened_log_continues_iff (codec : LogPayload T) (hlawful : codec.Lawful)
    (capacity : ℕ) (segmentDurationNs retentionNs : I64) (hduration : 0 < segmentDurationNs.value)
    (hretention : 0 ≤ retentionNs.value) (sessions : List (Session T))
    (hearlier : ((sessions.flatMap Session.calls).filterMap LogCall.attempted).Pairwise (· ≤ ·))
    (appends : List (I64 × T))
    (hnext : appends.Pairwise fun earlier later => earlier.1.value ≤ later.1.value)
    (hfirst : ∀ tagged ∈ (StoredLog.history codec capacity segmentDurationNs.value
      retentionNs.value sessions).remaining, ∀ new ∈ appends,
      tagged.2.timestampNs ≤ new.1.value) :
    Continues codec capacity (StoredLog.history codec capacity segmentDurationNs.value
        retentionNs.value sessions) appends ↔
      Resumable codec (StoredLog.history codec capacity segmentDurationNs.value
        retentionNs.value sessions).root appends := by
  obtain ⟨whole, hleft⟩ := left_history codec capacity hduration hretention sessions hearlier
  generalize StoredLog.history codec capacity segmentDurationNs.value retentionNs.value
    sessions = stored at hfirst hleft ⊢
  obtain ⟨hopen, htorn, hrecorded⟩ := hleft.openRoot capacity
  obtain ⟨dir, hrun, htornLast⟩ := htorn.appendAll codec appends
  obtain ⟨closed, hclosed, htornClosed⟩ := htornLast.closeCurrent
  -- The stored entries come before the new ones.
  have hold : Recorded codec (reopened capacity whole) stored.remaining
      (stored.remaining.map fun tagged => tagged.2.timestampNs) :=
    ⟨hrecorded.stored, hrecorded.ordered, fun tagged htagged => mem_map_of_mem htagged⟩
  have hordered : ((stored.remaining.map fun tagged => tagged.2.timestampNs) ++
      appends.map fun new => new.1.value).Pairwise (· ≤ ·) := by
    rw [pairwise_append]
    refine ⟨pairwise_map.mpr hrecorded.ordered, pairwise_map.mpr hnext, ?_⟩
    intro older holder newer hnewer
    obtain ⟨tagged, htagged, rfl⟩ := mem_map.mp holder
    obtain ⟨new, hnew, rfl⟩ := mem_map.mp hnewer
    exact hfirst tagged htagged new hnew
  have hlast := hold.appendAll hordered
  have hread := htornClosed.entries hlast.stored.closeCurrent (Log.closeCurrent_fields _).1
    hlawful hlast.ordered
  have hresumed : Resumed (listSegments stored.root.segments).toFinset []
      (reopened capacity whole) := by
    rw [hleft.files.listSegments]
    refine ⟨?_, fun startNs hmem => Or.inl hmem, by simp, rfl⟩
    rintro startNs (hmem | ⟨earlier, hearlier, -⟩)
    · exact Or.inl hmem
    · cases hearlier
  obtain ⟨hiff, happended⟩ := hresumed.appendAll hrecorded.stored appends
    (by simpa [pairwise_map] using hnext) List.Pairwise.nil
  simp only [Continues, hopen, hrun, hclosed, hread, and_true]
  rw [and_iff_left_of_imp happended, hiff, Resumable, nil_append]
  simp only [reopened, hleft.durations.1, mem_toFinset]

/-- A writer that appended at 5 and was dropped. -/
def closedAtFive : List (Session Unit) := [⟨[.append (sampleTime 5) ()], .closed⟩]

/-- A timestamp in the window of an existing segment is refused. -/
theorem reopened_log_refuses_window :
    (∀ tagged ∈ (StoredLog.history unitCodec 8192 10 0 closedAtFive).remaining,
      tagged.2.timestampNs ≤ 7) ∧
    ((Log.openRoot 8192 (StoredLog.history unitCodec 8192 10 0 closedAtFive).root).appendAll
      unitCodec [(⟨7, by decide, by decide⟩, ())]).1 = [.error .alreadyExists] ∧
    ¬ Continues unitCodec 8192 (StoredLog.history unitCodec 8192 10 0 closedAtFive)
      [(⟨7, by decide, by decide⟩, ())] := by
  have hremaining : (StoredLog.history unitCodec 8192 10 0 closedAtFive).remaining =
      [(0, ⟨5, ()⟩)] := by decide +kernel
  have hfailed : ((Log.openRoot 8192 (StoredLog.history unitCodec 8192 10 0
      closedAtFive).root).appendAll unitCodec [(⟨7, by decide, by decide⟩, ())]).1 =
      [.error .alreadyExists] := by decide +kernel
  refine ⟨?_, hfailed, fun hcontinues => ?_⟩
  · rw [hremaining]
    decide
  · have hok := hcontinues.1
    rw [hfailed] at hok
    cases hok _ mem_cons_self

/-- A writer whose process ended three bytes into its second entry. -/
def crashedAtSix : List (Session Unit) :=
  [⟨[.append (sampleTime 5) (), .append (sampleTime 6) ()], .crashed 15⟩]

theorem reopened_log_continues_iff_sample :
    Continues unitCodec 8192 (StoredLog.history unitCodec 8192 10 0 crashedAtSix)
      [(⟨25, by decide, by decide⟩, ())] := by
  have hremaining : (StoredLog.history unitCodec 8192 10 0 crashedAtSix).remaining =
      [(0, ⟨5, ()⟩)] := by decide +kernel
  have hlisted : listSegments (StoredLog.history unitCodec 8192 10 0
      crashedAtSix).root.segments = [0] := by decide +kernel
  refine (reopened_log_continues_iff unitCodec (fun _ => rfl) 8192 ⟨10, by decide, by decide⟩
    ⟨0, by decide, by decide⟩ (by decide) (by decide) crashedAtSix (by decide)
    [(⟨25, by decide, by decide⟩, ())] (pairwise_singleton _ _) ?_).mpr ⟨?_, ?_⟩
  · simp only [hremaining]
    decide
  · simp only [hlisted]
    decide
  · exact pairwise_singleton _ _

end AukiSdk.Logs
