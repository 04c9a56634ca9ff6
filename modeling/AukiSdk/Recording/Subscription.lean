import AukiSdk.Recording.Provider
import AukiSdk.Logs.RejectedAppend

/-!
# From recorded to live entries

`append` and `snapshot_and_subscribe` run under the writer lock of a log.
-/

namespace AukiSdk.Recording

open AukiSdk.Foundation AukiSdk.Logs List

variable {T : Type}

/-- The capacity of the broadcast channel of a log. -/
def channelCapacity : ℕ := 1024

/-- The writer lock and what its holder has done. -/
inductive WriterLock (T : Type) where
  | free
  | stored (entry : Entry T)
  | read (readFrom : ReadFrom) (entries : List (Entry T))

/-- The stream of a subscriber, with what the log held when it subscribed. -/
structure Subscriber (T : Type) where
  readFrom : ReadFrom
  history : List (Entry T)
  position : ℕ
  yielded : List (Except Text (Entry T))
  retained : List (Entry T)
  appendedBefore : ℕ

/-- A log whose entries are also broadcast. -/
structure LiveLog (T : Type) where
  traced : TracedLog T
  sent : List (Entry T) := []
  lock : WriterLock T := .free
  subscriber : Option (Subscriber T) := none

/-- The error item of a subscriber that was overtaken. -/
def laggedItem (name : Text) (count : ℕ) : Text :=
  name ++ " subscriber lagged by ".toList ++ (toString count).toList ++ " updates".toList

/-- The next recorded entry, then what the channel holds; `none` is waiting. -/
def Subscriber.next (name : Text) (sent : List (Entry T)) (subscriber : Subscriber T) :
    Option (Subscriber T) :=
  match subscriber.history with
  | entry :: rest =>
    some { subscriber with
      history := rest
      yielded := subscriber.yielded ++ [.ok entry] }
  | [] =>
    let oldest := sent.length - channelCapacity
    if subscriber.position < oldest then
      some { subscriber with
        position := oldest
        yielded :=
          subscriber.yielded ++ [.error (laggedItem name (oldest - subscriber.position))] }
    else
      match sent[subscriber.position]? with
      | none => none
      | some entry =>
        some { subscriber with
          position := subscriber.position + 1
          yielded := subscriber.yielded ++ [.ok entry] }

inductive LiveStep (T : Type) where
  /-- `append` up to the flush. -/
  | append (timestampNs : I64) (payload : T)
  /-- The send at the end of `append`. -/
  | broadcast
  /-- `snapshot_and_subscribe` up to reading the entries. -/
  | snapshot (readFrom : ReadFrom)
  /-- The subscription at the end of `snapshot_and_subscribe`. -/
  | subscribe
  /-- The stream is polled. -/
  | receive
  /-- Another reader flushes the writer. -/
  | flush

/-- One step; `none` means that the step has to wait. -/
def LiveLog.step (codec : LogPayload T) (name : Text) (live : LiveLog T) :
    LiveStep T → Option (LiveLog T)
  | .append timestampNs payload =>
    match live.lock with
    | .free =>
      let (outcome, log, events) := live.traced.log.append codec timestampNs payload
      match outcome with
      | .error _ => some { live with traced := ⟨log, live.traced.events ++ events⟩ }
      | .ok () =>
        some { live with
          traced := ⟨log.flush, live.traced.events ++ events⟩
          lock := .stored ⟨timestampNs.value, payload⟩ }
    | _ => none
  | .broadcast =>
    match live.lock with
    | .stored entry => some { live with sent := live.sent ++ [entry], lock := .free }
    | _ => none
  | .snapshot readFrom =>
    match live.lock, live.subscriber with
    | .free, none =>
      let log := live.traced.log.flush
      -- A subscription to the latest entries does not read the log.
      if readFrom = .latest then
        none
      else
        match codec.entries log.dir with
        | .error _ => some { live with traced := ⟨log, live.traced.events⟩ }
        | .ok entries =>
          some { live with
            traced := ⟨log, live.traced.events⟩
            lock := .read readFrom entries }
    | _, _ => none
  | .subscribe =>
    match live.lock with
    | .read readFrom entries =>
      some { live with
        lock := .free
        subscriber := some
          { readFrom := readFrom
            history := entries.filter fun entry =>
              timestampMatches readFrom entry.timestampNs
            position := live.sent.length
            yielded := []
            retained := (remainingEntries live.traced.events).map Prod.snd
            appendedBefore := (appendedEntries live.traced.events).length } }
    | _ => none
  | .receive =>
    match live.subscriber with
    | none => none
    | some subscriber =>
      (subscriber.next name live.sent).map fun subscriber =>
        { live with subscriber := some subscriber }
  | .flush =>
    match live.lock with
    | .free => some { live with traced := ⟨live.traced.log.flush, live.traced.events⟩ }
    | _ => none

/-- The entries that were yielded before the stream reported a lag. -/
def heard (yielded : List (Except Text (Entry T))) : List (Entry T) :=
  match yielded with
  | .ok entry :: rest => entry :: heard rest
  | _ => []

/-- The entries from the requested time stamp on. -/
def LiveLog.expected (live : LiveLog T) (subscriber : Subscriber T) : List (Entry T) :=
  (subscriber.retained ++
      (appendedEntries live.traced.events).drop subscriber.appendedBefore).filter
    fun entry => timestampMatches subscriber.readFrom entry.timestampNs

/-- Time stamps do not decrease, and appended entries are not too old. -/
def Suited (live : LiveLog T) : LiveStep T → Prop
  | .append timestampNs _ =>
    (∀ entry ∈ appendedEntries live.traced.events, entry.timestampNs ≤ timestampNs.value) ∧
      ∀ subscriber, live.subscriber = some subscriber →
        timestampMatches subscriber.readFrom timestampNs.value = true
  | _ => True

section Log

variable {codec : LogPayload T} {log : Log} {remaining : List (ℤ × Entry T)}

theorem append_appendedEntries (hlog : LogInvariant codec log remaining) (timestampNs : I64)
    (payload : T) :
    (∃ error, (log.append codec timestampNs payload).1 = .error error ∧
        (log.append codec timestampNs payload).2.2 = []) ∨
      (log.append codec timestampNs payload).1 = .ok () ∧
        appendedEntries (log.append codec timestampNs payload).2.2 =
          [⟨timestampNs.value, payload⟩] := by
  rcases hlog.append_cases timestampNs payload with
    ⟨error, next, hres, -, -, -⟩ |
    ⟨opened, cur, -, -, -, -, -, -, written, -, -, -, -, -, hres⟩
  · rw [hres]
    exact .inl ⟨error, rfl, rfl⟩
  · apply Or.inr
    rw [hres]
    split
    · constructor
      · rfl
      · rw [← singleton_append, appendedEntries_append, appendedEntries_evicted, append_nil]
        rfl
    · exact ⟨rfl, rfl⟩

theorem entries_flush (hlog : LogInvariant codec log remaining) (hlaw : codec.Lawful)
    (hord : remaining.Pairwise fun left right =>
      left.2.timestampNs ≤ right.2.timestampNs) :
    codec.entries log.flush.dir = .ok (remaining.map Prod.snd) := by
  have hdir : log.flush.dir = log.closeCurrent.dir := by
    rw [Log.flush, Log.closeCurrent]
    cases log.current <;> rfl
  rw [hdir]
  exact hlog.entries_closed hlaw hord

end Log

/-- The entry that is stored and not broadcast yet. -/
def LiveLog.pending (live : LiveLog T) : List (Entry T) :=
  match live.lock with
  | .stored entry => [entry]
  | _ => []

/-- `start` is the number of broadcast entries that came before the subscription. -/
structure Joined (earlier : List (Entry T)) (live : LiveLog T) (subscriber : Subscriber T) :
    Prop where
  appendedBefore : ∃ start ≤ live.sent.length,
    subscriber.appendedBefore = earlier.length + start
  position : subscriber.position ≤ live.sent.length
  matching : ∀ entry ∈ (appendedEntries live.traced.events).drop subscriber.appendedBefore,
    timestampMatches subscriber.readFrom entry.timestampNs = true
  received : heard subscriber.yielded <+: live.expected subscriber
  queued : (∀ item ∈ subscriber.yielded, item.isOk = true) →
    heard subscriber.yielded ++ subscriber.history ++
      (live.sent.drop subscriber.position ++ live.pending) = live.expected subscriber

/-- What was broadcast was appended, and the subscriber gets what it expects. -/
structure LiveInvariant (codec : LogPayload T) (earlier : List (Entry T)) (live : LiveLog T) :
    Prop where
  log : LogInvariant codec live.traced.log (remainingEntries live.traced.events)
  ordered : (appendedEntries live.traced.events).Pairwise fun left right =>
    left.timestampNs ≤ right.timestampNs
  appended : appendedEntries live.traced.events = earlier ++ live.sent ++ live.pending
  read : ∀ readFrom entries, live.lock = .read readFrom entries →
    entries = (remainingEntries live.traced.events).map Prod.snd
  joined : ∀ subscriber, live.subscriber = some subscriber → Joined earlier live subscriber

section Steps

variable {codec : LogPayload T} {earlier : List (Entry T)} {live next : LiveLog T} {name : Text}

variable {entry : Entry T} {subscriber : Subscriber T}

theorem expected_append (hevs : appendedEntries next.traced.events =
      appendedEntries live.traced.events ++ [entry])
    (hpre : subscriber.appendedBefore ≤ (appendedEntries live.traced.events).length)
    (hmat : timestampMatches subscriber.readFrom entry.timestampNs = true) :
    next.expected subscriber = live.expected subscriber ++ [entry] := by
  rw [LiveLog.expected, LiveLog.expected, hevs, drop_append_of_le_length hpre,
    ← append_assoc, filter_append]
  simp [hmat]

theorem LiveInvariant.appendedBefore_le (hlive : LiveInvariant codec earlier live)
    (hjoin : Joined earlier live subscriber) :
    subscriber.appendedBefore ≤ (appendedEntries live.traced.events).length := by
  obtain ⟨start, hbeg, hpre⟩ := hjoin.appendedBefore
  rw [hpre, hlive.appended]
  simp only [length_append]
  omega

theorem Joined.congr (hjoin : Joined earlier live subscriber) (hsent : next.sent = live.sent)
    (hpend : next.pending = live.pending)
    (happ : appendedEntries next.traced.events = appendedEntries live.traced.events) :
    Joined earlier next subscriber := by
  have hexp : next.expected subscriber = live.expected subscriber := by
    rw [LiveLog.expected, LiveLog.expected, happ]
  constructor
  · rw [hsent]
    exact hjoin.appendedBefore
  · rw [hsent]
    exact hjoin.position
  · rw [happ]
    exact hjoin.matching
  · rw [hexp]
    exact hjoin.received
  · rw [hexp, hsent, hpend]
    exact hjoin.queued

theorem LiveInvariant.of_log (hlive : LiveInvariant codec earlier live) (hfree : live.lock = .free)
    {traced : TracedLog T}
    (hlog : LogInvariant codec traced.log (remainingEntries traced.events))
    (happ : appendedEntries traced.events = appendedEntries live.traced.events) :
    LiveInvariant codec earlier { live with traced } where
  log := hlog
  ordered := by
    rw [happ]
    exact hlive.ordered
  appended := by
    rw [happ]
    exact hlive.appended
  read := by
    intro readFrom entries hread
    cases hfree.symm.trans hread
  joined := by
    intro subscriber hsub
    exact (hlive.joined subscriber hsub).congr rfl rfl happ

theorem pending_of_free (hfree : live.lock = .free) : live.pending = [] := by
  rw [LiveLog.pending, hfree]

theorem LiveInvariant.stored (hlive : LiveInvariant codec earlier live) (hfree : live.lock = .free)
    {traced : TracedLog T} (hlog : LogInvariant codec traced.log (remainingEntries traced.events))
    (happ : appendedEntries traced.events = appendedEntries live.traced.events ++ [entry])
    (hord : ∀ earlier ∈ appendedEntries live.traced.events, earlier.timestampNs ≤ entry.timestampNs)
    (hmat : ∀ subscriber, live.subscriber = some subscriber →
      timestampMatches subscriber.readFrom entry.timestampNs = true) :
    LiveInvariant codec earlier { live with traced, lock := .stored entry } where
  log := hlog
  ordered := by
    rw [happ, pairwise_append]
    refine ⟨hlive.ordered, pairwise_singleton _ _, ?_⟩
    intro left hleft right hrgt
    rw [mem_singleton] at hrgt
    rw [hrgt]
    exact hord left hleft
  appended := by
    rw [happ, hlive.appended, pending_of_free hfree, append_nil]
    rfl
  read := by
    intro readFrom entries hread
    cases hread
  joined := by
    intro subscriber hsub
    have hjoin := hlive.joined subscriber hsub
    have hpre := hlive.appendedBefore_le hjoin
    have hexp : LiveLog.expected { live with traced, lock := .stored entry } subscriber =
        live.expected subscriber ++ [entry] :=
      expected_append happ hpre (hmat subscriber hsub)
    constructor
    · exact hjoin.appendedBefore
    · exact hjoin.position
    · intro found hf
      rw [happ, drop_append_of_le_length hpre, mem_append, mem_singleton] at hf
      rcases hf with hold | rfl
      · exact hjoin.matching found hold
      · exact hmat subscriber hsub
    · rw [hexp]
      exact hjoin.received.trans (prefix_append _ _)
    · intro hok
      rw [hexp, ← hjoin.queued hok, pending_of_free hfree]
      simp only [LiveLog.pending, append_nil, append_assoc]

theorem LiveInvariant.broadcast (hlive : LiveInvariant codec earlier live)
    (hst : live.lock = .stored entry) :
    LiveInvariant codec earlier { live with sent := live.sent ++ [entry], lock := .free } where
  __ := hlive
  appended := by
    rw [hlive.appended, LiveLog.pending, hst]
    simp [LiveLog.pending]
  read := by
    intro readFrom entries hread
    cases hread
  joined := by
    intro subscriber hsub
    have hjoin := hlive.joined subscriber hsub
    constructor
    · obtain ⟨start, hbeg, hpre⟩ := hjoin.appendedBefore
      refine ⟨start, ?_, hpre⟩
      rw [length_append]
      omega
    · rw [length_append]
      exact Nat.le_add_right_of_le hjoin.position
    · exact hjoin.matching
    · exact hjoin.received
    · intro hok
      have hqd := hjoin.queued hok
      rw [LiveLog.pending, hst] at hqd
      rw [drop_append_of_le_length hjoin.position]
      simp only [LiveLog.pending, append_nil]
      exact hqd

theorem LiveInvariant.subscribe (hlive : LiveInvariant codec earlier live) {readFrom : ReadFrom}
    {entries : List (Entry T)} (hread : live.lock = .read readFrom entries) :
    LiveInvariant codec earlier
      { live with
        lock := .free
        subscriber := some
          { readFrom := readFrom
            history := entries.filter fun entry => timestampMatches readFrom entry.timestampNs
            position := live.sent.length
            yielded := []
            retained := (remainingEntries live.traced.events).map Prod.snd
            appendedBefore := (appendedEntries live.traced.events).length } } where
  __ := hlive
  appended := by
    rw [hlive.appended, LiveLog.pending, hread]
    rfl
  read := by
    intro readFrom entries hread
    cases hread
  joined := by
    intro subscriber hsub
    cases hsub
    constructor
    · refine ⟨live.sent.length, le_rfl, ?_⟩
      rw [hlive.appended, LiveLog.pending, hread]
      simp
    · exact le_rfl
    · simp
    · exact nil_prefix
    · intro _
      simp only [LiveLog.expected, heard, LiveLog.pending, drop_length, nil_append, append_nil]
      rw [hlive.read readFrom entries hread]

theorem heard_append_ok (yielded : List (Except Text (Entry T))) (entry : Entry T)
    (hok : ∀ item ∈ yielded, item.isOk = true) :
    heard (yielded ++ [.ok entry]) = heard yielded ++ [entry] := by
  induction yielded with
  | nil => rfl
  | cons item rest ih =>
    cases item with
    | error detail => cases hok _ mem_cons_self
    | ok found =>
      rw [cons_append, heard, heard, ih fun item hitem =>
        hok item (mem_cons_of_mem _ hitem), cons_append]

theorem heard_append_lagged {yielded : List (Except Text (Entry T))}
    (hlag : ¬ ∀ item ∈ yielded, item.isOk = true) (item : Except Text (Entry T)) :
    heard (yielded ++ [item]) = heard yielded := by
  induction yielded with
  | nil => simp at hlag
  | cons first rest ih =>
    cases first with
    | error detail => rfl
    | ok found =>
      rw [cons_append, heard, heard, ih]
      intro hrest
      apply hlag
      intro item hitem
      rcases mem_cons.mp hitem with rfl | hm
      · rfl
      · exact hrest item hm

theorem heard_append_error (yielded : List (Except Text (Entry T))) (detail : Text) :
    heard (yielded ++ [.error detail]) = heard yielded := by
  induction yielded with
  | nil => rfl
  | cons first rest ih =>
    cases first with
    | error detail => rfl
    | ok found => rw [cons_append, heard, heard, ih]

theorem Joined.yield (hjoin : Joined earlier live subscriber) {history : List (Entry T)}
    {position : ℕ} (hque : [entry] ++ history ++ live.sent.drop position =
      subscriber.history ++ live.sent.drop subscriber.position)
    (hpos : position ≤ live.sent.length) :
    Joined earlier live
      { subscriber with
        history := history
        position := position
        yielded := subscriber.yielded ++ [.ok entry] } := by
  have hqd : (∀ item ∈ subscriber.yielded, item.isOk = true) →
      heard (subscriber.yielded ++ [.ok entry]) ++ history ++
        (live.sent.drop position ++ live.pending) = live.expected subscriber := by
    intro hok
    calc heard (subscriber.yielded ++ [.ok entry]) ++ history ++
          (live.sent.drop position ++ live.pending)
        = heard subscriber.yielded ++ ([entry] ++ history ++ live.sent.drop position) ++
            live.pending := by
          rw [heard_append_ok _ _ hok]
          simp only [append_assoc]
      _ = heard subscriber.yielded ++ subscriber.history ++
            (live.sent.drop subscriber.position ++ live.pending) := by
          rw [hque]
          simp only [append_assoc]
      _ = live.expected subscriber := hjoin.queued hok
  constructor
  · exact hjoin.appendedBefore
  · exact hpos
  · exact hjoin.matching
  · by_cases hok : ∀ item ∈ subscriber.yielded, item.isOk = true
    · have hinit : heard (subscriber.yielded ++ [.ok entry]) <+: live.expected subscriber := by
        rw [← hqd hok, append_assoc]
        exact prefix_append _ _
      exact hinit
    · rw [heard_append_lagged hok]
      exact hjoin.received
  · intro hok
    apply hqd
    intro item hitem
    exact hok item (mem_append_left _ hitem)

theorem Joined.lag (hjoin : Joined earlier live subscriber) {position : ℕ}
    (hpos : position ≤ live.sent.length) (detail : Text) :
    Joined earlier live
      { subscriber with
        position := position
        yielded := subscriber.yielded ++ [.error detail] } := by
  constructor
  · exact hjoin.appendedBefore
  · exact hpos
  · exact hjoin.matching
  · rw [heard_append_error]
    exact hjoin.received
  · intro hok
    cases hok _ (mem_append_right _ mem_cons_self)

theorem Joined.polled {taken : Subscriber T} (hjoin : Joined earlier live subscriber)
    (hn : subscriber.next name live.sent = some taken) : Joined earlier live taken := by
  unfold Subscriber.next at hn
  split at hn
  · rename_i entry rest hhist
    cases hn
    apply hjoin.yield _ hjoin.position
    rw [hhist]
    rfl
  · rename_i hhist
    dsimp only at hn
    split at hn
    · cases hn
      exact hjoin.lag (Nat.sub_le live.sent.length channelCapacity) _
    · split at hn
      · cases hn
      · rename_i entry hent
        cases hn
        obtain ⟨hlt, hget⟩ := List.getElem?_eq_some_iff.mp hent
        apply hjoin.yield _ (Nat.succ_le_of_lt hlt)
        rw [hhist, drop_eq_getElem_cons hlt, hget]
        rfl

theorem Joined.position_of_waits (hjoin : Joined earlier live subscriber)
    (hsub : live.subscriber = some subscriber) (hwts : live.step codec name .receive = none) :
    subscriber.history = [] ∧ subscriber.position = live.sent.length := by
  simp only [LiveLog.step, hsub, Option.map_eq_none_iff] at hwts
  unfold Subscriber.next at hwts
  split at hwts
  · cases hwts
  · rename_i hhist
    dsimp only at hwts
    split at hwts
    · cases hwts
    · split at hwts
      · rename_i hnone
        rw [List.getElem?_eq_none_iff] at hnone
        exact ⟨hhist, le_antisymm hjoin.position hnone⟩
      · cases hwts

theorem LiveInvariant.polled (hlive : LiveInvariant codec earlier live) {taken : Subscriber T}
    (hjoin : Joined earlier live taken) :
    LiveInvariant codec earlier { live with subscriber := some taken } where
  __ := hlive
  joined := by
    intro subscriber hsub
    cases hsub
    exact hjoin.congr rfl rfl rfl

theorem LiveInvariant.ordered_remaining (hlive : LiveInvariant codec earlier live) :
    (remainingEntries live.traced.events).Pairwise fun left right =>
      left.2.timestampNs ≤ right.2.timestampNs := by
  have hsort := hlive.ordered.sublist (remainingEntries_sublist live.traced.events)
  rwa [pairwise_map] at hsort

theorem LiveInvariant.snapshot (hlive : LiveInvariant codec earlier live)
    (hfree : live.lock = .free) (hnone : live.subscriber = none) (readFrom : ReadFrom) :
    LiveInvariant codec earlier
      { live with
        traced := ⟨live.traced.log.flush, live.traced.events⟩
        lock := .read readFrom ((remainingEntries live.traced.events).map Prod.snd) } where
  log := hlive.log.flush
  ordered := hlive.ordered
  appended := by
    rw [hlive.appended, pending_of_free hfree]
    rfl
  read := by
    intro found entries hread
    cases hread
    rfl
  joined := by
    intro subscriber hsub
    cases hnone.symm.trans hsub

theorem LiveInvariant.step (hlaw : codec.Lawful) (hlive : LiveInvariant codec earlier live)
    {step : LiveStep T} (hsui : Suited live step)
    (hs : live.step codec name step = some next) : LiveInvariant codec earlier next := by
  cases step with simp only [LiveLog.step] at hs
  | append timestampNs payload =>
    split at hs
    · rename_i hfree
      have hlog := hlive.log.append timestampNs payload
      rw [remainingEntries, ← foldl_append] at hlog
      rcases append_appendedEntries hlive.log timestampNs payload with
        ⟨error, herr, hevs⟩ | ⟨hok, hevs⟩
      · rw [herr] at hs
        cases hs
        apply hlive.of_log hfree hlog
        rw [hevs, append_nil]
      · rw [hok] at hs
        cases hs
        apply hlive.stored hfree hlog.flush _ hsui.1 hsui.2
        rw [appendedEntries_append, hevs]
    · cases hs
  | broadcast =>
    split at hs
    · rename_i entry hst
      cases hs
      exact hlive.broadcast hst
    · cases hs
  | snapshot readFrom =>
    split at hs
    · rename_i hfree hnone
      split at hs
      · cases hs
      · rw [entries_flush hlive.log hlaw hlive.ordered_remaining] at hs
        cases hs
        exact hlive.snapshot hfree hnone readFrom
    · cases hs
  | subscribe =>
    split at hs
    · rename_i readFrom entries hread
      cases hs
      exact hlive.subscribe hread
    · cases hs
  | receive =>
    split at hs
    · cases hs
    · rename_i subscriber hsub
      obtain ⟨taken, htak, hn⟩ := Option.map_eq_some_iff.mp hs
      cases hn
      exact hlive.polled ((hlive.joined subscriber hsub).polled htak)
  | flush =>
    split at hs
    · rename_i hfree
      cases hs
      exact hlive.of_log hfree hlive.log.flush rfl
    · cases hs

end Steps

/-- A log is opened over what an earlier log has left in its directory. -/
def LiveLog.start (earlier : TracedLog T) : LiveLog T where
  traced := ⟨earlier.log.closeCurrent, earlier.events⟩

/-- A subscriber receives the retained and later entries once and in order. -/
theorem subscriber_receives_expected (codec : LogPayload T) (hlawful : codec.Lawful)
    (name : Text) (capacity : ℕ) (segmentDurationNs retentionNs : I64)
    (hduration : 0 < segmentDurationNs.value) (hretention : 0 ≤ retentionNs.value)
    (calls : List (LogCall T)) (earlier : TracedLog T)
    (hearlier : earlier =
      TracedLog.run codec capacity segmentDurationNs.value retentionNs.value calls)
    (hordered : (appendedEntries earlier.events).Pairwise fun left right =>
      left.timestampNs ≤ right.timestampNs)
    (steps : List (LiveStep T)) (last : LiveLog T) (subscriber : Subscriber T)
    (hsuited : GuardedRun (LiveLog.step codec name) (LiveLog.start earlier) Suited steps)
    (hrun : runSteps (LiveLog.step codec name) (LiveLog.start earlier) steps = some last)
    (hsubscriber : last.subscriber = some subscriber) :
    heard subscriber.yielded <+: last.expected subscriber ∧
      ((∀ item ∈ subscriber.yielded, item.isOk = true) → last.lock = .free →
        last.step codec name .receive = none →
          heard subscriber.yielded = last.expected subscriber) := by
  have hstart : LiveInvariant codec (appendedEntries earlier.events) (LiveLog.start earlier) := by
    constructor
    · rw [hearlier]
      exact (logInvariant_run codec capacity hduration hretention calls).closeCurrent
    · exact hordered
    · simp [LiveLog.start, LiveLog.pending]
    · intro readFrom entries hread
      cases hread
    · intro subscriber hnone
      cases hnone
  have hlive : LiveInvariant codec (appendedEntries earlier.events) last := by
    apply invariant_of_guardedRun hstart _ hsuited hrun
    intro state step next hstate hstep hnext
    exact hstate.step hlawful hstep hnext
  have hjoined := hlive.joined subscriber hsubscriber
  constructor
  · exact hjoined.received
  · intro hok hfree hwaits
    obtain ⟨hhistory, hposition⟩ := hjoined.position_of_waits hsubscriber hwaits
    have hqueued := hjoined.queued hok
    rw [hhistory, hposition, drop_length, pending_of_free hfree] at hqueued
    simpa only [append_nil] using hqueued

/-- A test for `Suited`. -/
def suited (live : LiveLog T) : LiveStep T → Bool
  | .append timestampNs _ =>
    (appendedEntries live.traced.events).all (·.timestampNs ≤ timestampNs.value) &&
      live.subscriber.all fun subscriber =>
        timestampMatches subscriber.readFrom timestampNs.value
  | _ => true

theorem suited_iff (live : LiveLog T) (step : LiveStep T) :
    suited live step = true ↔ Suited live step := by
  cases step with
  | append timestampNs payload =>
    simp [suited, Suited, Option.all_eq_true]
  | _ => simp [suited, Suited]

def sampleSteps (readFrom : ReadFrom) : List (LiveStep Unit) :=
  [.append (sampleTime 10) (), .broadcast, .snapshot readFrom, .subscribe,
    .append (sampleTime 20) (), .broadcast, .receive]

def sampleLog : TracedLog Unit := TracedLog.run unitCodec 8192 1000 0 []

def sampleName : Text := "map log".toList

theorem sampleSteps_tested {readFrom : ReadFrom} {test : LiveLog Unit → Subscriber Unit → Bool}
    (htest : ((runSteps (LiveLog.step unitCodec sampleName) (LiveLog.start sampleLog)
      (sampleSteps readFrom)).any fun live => live.subscriber.any (test live)) = true) :
    ∃ last subscriber, runSteps (LiveLog.step unitCodec sampleName) (LiveLog.start sampleLog)
        (sampleSteps readFrom) = some last ∧ last.subscriber = some subscriber ∧
      test last subscriber = true := by
  rw [Option.any_eq_true] at htest
  obtain ⟨last, hlast, hany⟩ := htest
  rw [Option.any_eq_true] at hany
  obtain ⟨subscriber, hsub, htest⟩ := hany
  exact ⟨last, subscriber, hlast, hsub, htest⟩

theorem subscriber_receives_expected_sample :
    ∃ last subscriber, runSteps (LiveLog.step unitCodec sampleName) (LiveLog.start sampleLog)
        (sampleSteps (.fromTimestamp 15)) = some last ∧ last.subscriber = some subscriber ∧
      heard subscriber.yielded = [⟨20, ()⟩] ∧
      heard subscriber.yielded <+: last.expected subscriber := by
  have hsuited : GuardedRun (LiveLog.step unitCodec sampleName) (LiveLog.start sampleLog) Suited
      (sampleSteps (.fromTimestamp 15)) :=
    guardedRun_of_tested (fun live step => (suited_iff live step).mp) (by decide +kernel)
  obtain ⟨last, subscriber, hlast, hsubscriber, hheard⟩ := @sampleSteps_tested (.fromTimestamp 15)
      (fun _ subscriber => heard subscriber.yielded = [⟨20, ()⟩]) (by decide +kernel)
  exact ⟨last, subscriber, hlast, hsubscriber, of_decide_eq_true hheard,
    (subscriber_receives_expected unitCodec (fun _ => rfl) sampleName 8192
      ⟨1000, by decide, by decide⟩ ⟨0, by decide, by decide⟩ (by decide) (by decide) [] sampleLog rfl
      List.Pairwise.nil (sampleSteps (.fromTimestamp 15)) last subscriber hsuited hlast
      hsubscriber).1⟩

/-- A subscriber that asks for the entries from 100 on receives a later one of
20. -/
theorem live_entry_not_filtered :
    ∃ last subscriber, runSteps (LiveLog.step unitCodec sampleName) (LiveLog.start sampleLog)
        (sampleSteps (.fromTimestamp 100)) = some last ∧ last.subscriber = some subscriber ∧
      heard subscriber.yielded = [⟨20, ()⟩] ∧ last.expected subscriber = [] := by
  obtain ⟨last, subscriber, hlast, hsubscriber, htest⟩ := @sampleSteps_tested (.fromTimestamp 100)
      (fun last subscriber => heard subscriber.yielded = [⟨20, ()⟩] ∧
        last.expected subscriber = []) (by decide +kernel)
  obtain ⟨hheard, hexpected⟩ := of_decide_eq_true htest
  exact ⟨last, subscriber, hlast, hsubscriber, hheard, hexpected⟩

end AukiSdk.Recording
