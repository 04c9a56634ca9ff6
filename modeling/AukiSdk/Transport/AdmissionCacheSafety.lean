import AukiSdk.Transport.AdmissionCache

/-!
# Single flight and lease fencing of the admission cache

Calls for one key meet at one gate, whose holder alone touches the cached lease.
-/

namespace AukiSdk.Transport

open AukiSdk.Foundation List Function
open AukiSdk.Net
open AukiSdk.Relay

variable {Failure : Type}

/-- The stages between taking the gate and releasing it. -/
def Stage.holdsGate : Stage → Bool
  | .waiting | .leaving => false
  | .holding | .missed | .authorizing | .authorized _ | .leased _ _ => true

/-- The stages in which the cached lease has been removed. -/
def Stage.cleared : Stage → Bool
  | .authorizing | .authorized _ | .leased _ _ => true
  | .waiting | .holding | .missed | .leaving => false

/-- A step takes only a free gate, and writes the lease only while it holds it. -/
structure EntryMove (id : CallId) (stage : Stage) (entry : AdmissionEntry)
    (next : Option Stage) (left : AdmissionEntry) : Prop where
  holders : ∀ other, other ≠ id ∨ next.isSome → other ∈ entry.holders → other ∈ left.holders
  gate : left.gate = entry.gate ∨ entry.gate = none ∨ stage.holdsGate
  taken : (stage.holdsGate → entry.gate = some id) → next.any Stage.holdsGate →
    left.gate = some id
  cached : left.cached = entry.cached ∨ stage.holdsGate
  cleared : (stage.cleared → entry.cached = none) → next.any Stage.cleared →
    left.cached = none

/-- What a step of a call may do to the cached lease. -/
def LeaseMove (call : AdmissionCall) (event : AdmissionEvent Failure)
    (effect : AdmissionEffect Failure) (entry left : AdmissionEntry) : Prop :=
  left.cached = entry.cached ∨
  (left.cached = none ∧ effect = .silent ∧ ((∃ id, event = .clear id ∧ call.purpose = .authorize) ∨
    ∃ id admission lease, event = .remove id ∧ call.purpose = .invalidate admission ∧
      entry.cached = some lease ∧ lease.leaseId = admission.leaseId)) ∨
  ∃ id wallNow monotonicNow expiresAt reuseUntil leaseId,
    event = .store id wallNow monotonicNow ∧ call.purpose = .authorize ∧
    call.stage = .leased expiresAt leaseId ∧
    effect = .granted call.key ⟨expiresAt, leaseId, call.key.credentialIssuedAt⟩ ∧
    reuseDeadline expiresAt wallNow monotonicNow = some reuseUntil ∧
    left.cached = some ⟨expiresAt, reuseUntil, leaseId⟩

/-- What a step of a call may report. -/
def EffectMove (cache : AdmissionCache) (call : AdmissionCall)
    (event : AdmissionEvent Failure) (next : Option Stage) (nextLeaseId : ℕ) :
    AdmissionEffect Failure → Prop
  | .silent | .failed _ _ =>
    nextLeaseId = cache.nextLeaseId ∧ ∀ expiresAt leaseId, next ≠ some (.leased expiresAt leaseId)
  | .hit key admission =>
    nextLeaseId = cache.nextLeaseId ∧ next = some .leaving ∧ key = call.key ∧
    ∃ id wallNow monotonicNow lease, event = .check id wallNow monotonicNow ∧
      (cache.heap call.entry).cached = some lease ∧
      lease.reusable wallNow monotonicNow = true ∧
      admission = ⟨lease.expiresAt, lease.leaseId, key.credentialIssuedAt⟩
  | .issued key expiresAt leaseId =>
    key = call.key ∧ next = some (.leased expiresAt leaseId) ∧
    leaseId = AdmissionCache.followingLeaseId cache.nextLeaseId ∧ nextLeaseId = leaseId
  | .granted key admission =>
    nextLeaseId = cache.nextLeaseId ∧ next = some .leaving ∧ key = call.key ∧
    call.stage = .leased admission.expiresAt admission.leaseId ∧
    admission.credentialIssuedAt = key.credentialIssuedAt

/-- The call that takes a step. -/
def AdmissionEvent.call : AdmissionEvent Failure → CallId
  | .authorize call _ _ _ | .invalidate call _ _ _ _ _ | .acquire call | .check call _ _
  | .clear call | .complete call _ | .issue call | .store call _ _ | .remove call
  | .drop call | .leave call => call

namespace AdmissionCache

theorem resume_cases {cache next : AdmissionCache} {id : CallId} {call : AdmissionCall}
    {event : AdmissionEvent Failure} {effect : AdmissionEffect Failure}
    (hs : cache.resume id call event = some (effect, next)) :
    ∃ stage left nextLeaseId,
      next = { cache with nextLeaseId }.advance id call stage left ∧
      EntryMove id call.stage (cache.heap call.entry) stage left ∧
      LeaseMove call event effect (cache.heap call.entry) left ∧
      EffectMove cache call event stage nextLeaseId effect := by
  obtain ⟨key, purpose, entry, stage⟩ := call
  simp only [resume] at hs
  split at hs
  case h_1 =>
    split at hs
    · rename_i hfree
      cases hs
      refine ⟨_, _, cache.nextLeaseId, rfl, ?_, .inl rfl, rfl, by simp⟩
      exact ⟨by simp, .inr (.inl hfree), by simp, .inl rfl, by simp [Stage.cleared]⟩
    · cases hs
  case h_2 wallNow monotonicNow =>
    split at hs
    · rename_i lease hlease
      rw [Option.filter_eq_some_iff] at hlease
      cases hs
      refine ⟨_, _, cache.nextLeaseId, rfl, ?_, .inl rfl, rfl, rfl, rfl, _, _, _, lease, rfl,
        hlease.1, hlease.2, rfl⟩
      exact ⟨by simp, .inr (.inr rfl), by simp [Stage.holdsGate], .inl rfl,
        by simp [Stage.cleared]⟩
    · cases hs
      refine ⟨_, _, cache.nextLeaseId, rfl, ?_, .inl rfl, rfl, by simp⟩
      exact ⟨by simp, .inl rfl, by simp [Stage.holdsGate], .inl rfl, by simp [Stage.cleared]⟩
  case h_3 =>
    cases hs
    refine ⟨_, _, cache.nextLeaseId, rfl, ?_, .inr (.inl ⟨rfl, rfl, .inl ⟨_, rfl, rfl⟩⟩), rfl,
      by simp⟩
    exact ⟨by simp, .inl rfl, by simp [Stage.holdsGate], .inr rfl, by simp⟩
  case h_4 expiresAt =>
    cases hs
    refine ⟨_, _, cache.nextLeaseId, rfl, ?_, .inl rfl, rfl, by simp⟩
    exact ⟨by simp, .inl rfl, by simp [Stage.holdsGate], .inl rfl, by simp [Stage.cleared]⟩
  case h_5 failure =>
    cases hs
    refine ⟨_, _, cache.nextLeaseId, rfl, ?_, .inl rfl, rfl, by simp⟩
    exact ⟨by simp, .inr (.inr rfl), by simp [Stage.holdsGate], .inl rfl,
      by simp [Stage.cleared]⟩
  case h_6 expiresAt =>
    cases hs
    refine ⟨_, _, _, rfl, ?_, .inl rfl, rfl, rfl, rfl, rfl⟩
    exact ⟨by simp, .inl rfl, by simp [Stage.holdsGate], .inl rfl, by simp [Stage.cleared]⟩
  case h_7 wallNow monotonicNow expiresAt leaseId =>
    cases hs
    refine ⟨_, _, cache.nextLeaseId, rfl, ?_, ?_, rfl, rfl, rfl, rfl, rfl⟩
    · exact ⟨by simp, .inr (.inr rfl), by simp [Stage.holdsGate], .inr rfl,
        by simp [Stage.cleared]⟩
    · split
      · rename_i reuseUntil hdead
        exact .inr (.inr ⟨_, _, _, _, reuseUntil, _, rfl, rfl, rfl, rfl, hdead, rfl⟩)
      · exact .inl rfl
  case h_8 admission =>
    cases hs
    refine ⟨_, _, cache.nextLeaseId, rfl, ?_, ?_, rfl, by simp⟩
    · exact ⟨by simp, .inr (.inr rfl), by simp [Stage.holdsGate], .inr rfl,
        by simp [Stage.cleared]⟩
    · cases hcac : (cache.heap entry).cached with
      | none => exact .inl (by simp [hcac])
      | some lease =>
        by_cases hsm : lease.leaseId = admission.leaseId
        · exact .inr (.inl ⟨by simp [hsm], rfl, .inr ⟨_, admission, lease, rfl, rfl, hcac, hsm⟩⟩)
        · exact .inl (by simp [hcac, hsm])
  case h_9 =>
    cases hs
    refine ⟨_, _, cache.nextLeaseId, rfl, ?_, .inl rfl, rfl, by simp⟩
    exact ⟨by simp, .inl rfl, by simp [Stage.holdsGate], .inl rfl, by simp [Stage.cleared]⟩
  case h_10 =>
    cases hs
    refine ⟨_, _, cache.nextLeaseId, rfl, ?_, .inl rfl, rfl, by simp⟩
    exact ⟨by simp, .inr (.inr rfl), by simp [Stage.holdsGate], .inl rfl,
      by simp [Stage.cleared]⟩
  case h_11 =>
    cases hs
    refine ⟨_, _, cache.nextLeaseId, rfl, ?_, .inl rfl, rfl, by simp⟩
    exact ⟨by simp +contextual, .inl rfl, by simp, .inl rfl, by simp⟩
  case h_12 => cases hs

/-- Running calls hold their entry, at most one its gate, and authorizers no lease. -/
structure Guarded (cache : AdmissionCache) : Prop where
  allocated : ∀ key id, cache.entries key = some id → id < cache.nextEntry
  injective : ∀ first second id, cache.entries first = some id →
    cache.entries second = some id → first = second
  anchored : ∀ id call, cache.calls id = some call →
    cache.entries call.key = some call.entry ∧ id ∈ (cache.heap call.entry).holders
  gated : ∀ id call, cache.calls id = some call → call.stage.holdsGate →
    (cache.heap call.entry).gate = some id
  cleared : ∀ id call, cache.calls id = some call → call.stage.cleared →
    (cache.heap call.entry).cached = none

theorem guarded_default : Guarded default := by
  constructor <;> simp [default]

theorem Guarded.retain {cache : AdmissionCache} (hgrd : Guarded cache)
    {entries : CacheKey → Option EntryId}
    (hsub : ∀ key id, entries key = some id → cache.entries key = some id)
    (hheld : ∀ key id, cache.entries key = some id →
      (cache.heap id).holders.Nonempty → entries key = some id) :
    Guarded { cache with entries } where
  allocated key id hkey := hgrd.allocated key id (hsub key id hkey)
  injective first second id hfst hsnd :=
    hgrd.injective first second id (hsub first id hfst) (hsub second id hsnd)
  anchored id call hc := by
    obtain ⟨hent, hhold⟩ := hgrd.anchored id call hc
    exact ⟨hheld call.key call.entry hent ⟨id, hhold⟩, hhold⟩
  __ := hgrd

theorem retained_sub {cache : AdmissionCache} {wallNow : DateTime} {monotonicNow : Instant}
    {key : CacheKey} {id : EntryId} (hkey : cache.retained wallNow monotonicNow key = some id) :
    cache.entries key = some id :=
  (Option.filter_eq_some_iff.mp hkey).1

theorem retained_of_held {cache : AdmissionCache} {wallNow : DateTime}
    {monotonicNow : Instant} {key : CacheKey} {id : EntryId}
    (hkey : cache.entries key = some id) (hheld : (cache.heap id).holders.Nonempty) :
    cache.retained wallNow monotonicNow key = some id := by
  rw [retained, Option.filter_eq_some_iff]
  refine ⟨hkey, ?_⟩
  have hcard : 0 < (cache.heap id).holders.card := Finset.card_pos.mpr hheld
  simp [AdmissionEntry.strongCount, Finset.card_pos.mp hcard]

/-- What a call relies on in its entry. -/
structure Relies (id : CallId) (stage : Stage) (entry : AdmissionEntry) : Prop where
  holder : id ∈ entry.holders
  gate : stage.holdsGate → entry.gate = some id
  cached : stage.cleared → entry.cached = none

theorem Guarded.relies {cache : AdmissionCache} (hgrd : Guarded cache) {id : CallId}
    {call : AdmissionCall} (hc : cache.calls id = some call) :
    Relies id call.stage (cache.heap call.entry) :=
  ⟨(hgrd.anchored id call hc).2, hgrd.gated id call hc, hgrd.cleared id call hc⟩

theorem Guarded.update {cache : AdmissionCache} (hgrd : Guarded cache) {id : CallId}
    {place : EntryId} {entry : AdmissionEntry} {call : Option AdmissionCall}
    {nextLeaseId : ℕ}
    (hc : ∀ running, call = some running → running.entry = place ∧
      cache.entries running.key = some place ∧ Relies id running.stage entry)
    (hots : ∀ other running, other ≠ id → cache.calls other = some running →
      running.entry = place → Relies other running.stage entry) :
    Guarded { cache with
      heap := Function.update cache.heap place entry
      calls := Function.update cache.calls id call
      nextLeaseId } := by
  have hrel : ∀ other running, Function.update cache.calls id call other = some running →
      cache.entries running.key = some running.entry ∧ Relies other running.stage
          (Function.update cache.heap place entry running.entry) := by
    intro other running hrunning
    by_cases ho : other = id
    · subst ho
      rw [update_self] at hrunning
      obtain ⟨hpla, hent, hown⟩ := hc running hrunning
      rw [hpla, update_self]
      exact ⟨hent, hown⟩
    · rw [update_of_ne ho] at hrunning
      refine ⟨(hgrd.anchored other running hrunning).1, ?_⟩
      by_cases hpla : running.entry = place
      · rw [hpla, update_self]
        exact hots other running ho hrunning hpla
      · rw [update_of_ne hpla]
        exact hgrd.relies hrunning
  constructor
  · exact hgrd.allocated
  · exact hgrd.injective
  · intro other running hrunning
    exact ⟨(hrel other running hrunning).1, (hrel other running hrunning).2.holder⟩
  · intro other running hrunning
    exact (hrel other running hrunning).2.gate
  · intro other running hrunning
    exact (hrel other running hrunning).2.cached

theorem Guarded.allocate {cache : AdmissionCache} (hgrd : Guarded cache)
    {key : CacheKey} (hmiss : cache.entries key = none) :
    Guarded { cache with
      entries := Function.update cache.entries key (some cache.nextEntry)
      nextEntry := cache.nextEntry + 1 } := by
  have hents : ∀ other id,
      Function.update cache.entries key (some cache.nextEntry) other = some id →
      (other = key ∧ id = cache.nextEntry) ∨ cache.entries other = some id := by
    intro other id ho
    by_cases hkey : other = key
    · subst hkey
      rw [update_self, Option.some.injEq] at ho
      exact .inl ⟨rfl, ho.symm⟩
    · rw [update_of_ne hkey] at ho
      exact .inr ho
  constructor
  · intro other id ho
    rcases hents other id ho with ⟨-, rfl⟩ | hold
    · exact Nat.lt_succ_self _
    · exact (hgrd.allocated other id hold).trans (Nat.lt_succ_self _)
  · intro first second id hfst hsnd
    rcases hents first id hfst with ⟨rfl, rfl⟩ | holt
    · rcases hents second _ hsnd with ⟨rfl, -⟩ | holdSecond
      · rfl
      · exact absurd (hgrd.allocated second _ holdSecond) (Nat.lt_irrefl _)
    · rcases hents second id hsnd with ⟨rfl, rfl⟩ | holdSecond
      · exact absurd (hgrd.allocated first _ holt) (Nat.lt_irrefl _)
      · exact hgrd.injective first second id holt holdSecond
  · intro id call hc
    obtain ⟨hent, hhold⟩ := hgrd.anchored id call hc
    refine ⟨?_, hhold⟩
    have hkey : call.key ≠ key := by
      intro hkey
      rw [hkey, hmiss] at hent
      cases hent
    exact (update_of_ne hkey _ _).trans hent
  · exact hgrd.gated
  · exact hgrd.cleared

theorem Guarded.enter {cache : AdmissionCache} {entries : CacheKey → Option EntryId}
    (hgrd : Guarded { cache with entries }) (call : CallId) (key : CacheKey)
    (purpose : Purpose) : Guarded (cache.enter entries call key purpose) := by
  rw [AdmissionCache.enter]
  split
  · rename_i id hf
    apply hgrd.update
    · intro running hrunning
      cases hrunning
      exact ⟨rfl, hf, by simp, by simp [Stage.holdsGate], by simp [Stage.cleared]⟩
    · rintro other running - hrunning rfl
      obtain ⟨hhold, hgate, hcac⟩ := hgrd.relies hrunning
      exact ⟨Finset.mem_insert_of_mem hhold, hgate, hcac⟩
  · rename_i hmiss
    apply (hgrd.allocate hmiss).update
    · intro running hrunning
      cases hrunning
      exact ⟨rfl, update_self _ _ _, by simp, by simp [Stage.holdsGate],
        by simp [Stage.cleared]⟩
    · intro other running _ hrunning hpla
      have hall := hgrd.allocated running.key running.entry
        (hgrd.anchored other running hrunning).1
      rw [hpla] at hall
      exact absurd hall (Nat.lt_irrefl _)

theorem Guarded.advance {cache : AdmissionCache} (hgrd : Guarded cache) {id : CallId}
    {call : AdmissionCall} (hc : cache.calls id = some call) {stage : Option Stage}
    {left : AdmissionEntry} {nextLeaseId : ℕ}
    (hmove : EntryMove id call.stage (cache.heap call.entry) stage left) :
    Guarded ({ cache with nextLeaseId }.advance id call stage left) := by
  obtain ⟨hhold, hgate, hcac⟩ := hgrd.relies hc
  apply hgrd.update
  · intro running hrunning
    obtain ⟨next, rfl, rfl⟩ := Option.map_eq_some_iff.mp hrunning
    refine ⟨rfl, (hgrd.anchored id call hc).1, ?_, ?_, ?_⟩
    · exact hmove.holders id (.inr rfl) hhold
    · exact fun hhld => hmove.taken hgate hhld
    · exact fun hclr => hmove.cleared hcac hclr
  · intro other running ho hrunning hpla
    have hrel := hgrd.relies hrunning
    rw [hpla] at hrel
    -- While another call holds the gate, this one does not.
    have hoff : running.stage.holdsGate → call.stage.holdsGate = false := by
      intro hhld
      rw [Bool.eq_false_iff]
      intro hown
      have hsm := (hrel.gate hhld).symm.trans (hgate hown)
      exact ho (Option.some.inj hsm)
    refine ⟨hmove.holders other (.inl ho) hrel.holder, ?_, ?_⟩
    · intro hhld
      rcases hmove.gate with hsm | hfree | hown
      · rw [hsm]
        exact hrel.gate hhld
      · rw [hrel.gate hhld] at hfree
        cases hfree
      · rw [hoff hhld] at hown
        cases hown
    · intro hclr
      have hhld : running.stage.holdsGate := by
        cases hstage : running.stage <;> simp_all [Stage.cleared, Stage.holdsGate]
      rcases hmove.cached with hsm | hown
      · rw [hsm]
        exact hrel.cached hclr
      · rw [hoff hhld] at hown
        cases hown

end AdmissionCache

/-- One critical section with its effect. -/
structure AdmissionLabel (Failure : Type) where
  event : AdmissionEvent Failure
  effect : AdmissionEffect Failure

/-- A lease id with the key and the expiry it was issued for. -/
structure IssuedLease where
  key : CacheKey
  expiresAt : DateTime
  leaseId : ℕ
  deriving DecidableEq

/-- The lease that a step issued. -/
def AdmissionLabel.issued (label : AdmissionLabel Failure) : Option IssuedLease :=
  match label.effect with
  | .issued key expiresAt leaseId => some ⟨key, expiresAt, leaseId⟩
  | _ => none

/-- The admission that a step returned to its caller. -/
def AdmissionLabel.returned (label : AdmissionLabel Failure) :
    Option (CacheKey × CachedAdmission) :=
  match label.effect with
  | .hit key admission | .granted key admission => some (key, admission)
  | _ => none

variable (history : List (AdmissionLabel Failure))

/-- The leases that a run issued. -/
def issuedLeases : List IssuedLease :=
  history.filterMap AdmissionLabel.issued

/-- The run granted the lease for this key and stored it with this deadline. -/
def Stored (key : CacheKey) (lease : AdmissionLease) : Prop :=
  ∃ call wallNow monotonicNow,
    ⟨.store call wallNow monotonicNow,
      .granted key ⟨lease.expiresAt, lease.leaseId, key.credentialIssuedAt⟩⟩ ∈ history ∧
    reuseDeadline lease.expiresAt wallNow monotonicNow = some lease.reuseUntil

theorem Stored.append {history : List (AdmissionLabel Failure)} {key : CacheKey}
    {lease : AdmissionLease} (hst : Stored history key lease)
    (label : AdmissionLabel Failure) : Stored (history ++ [label]) key lease := by
  obtain ⟨call, wallNow, monotonicNow, hm, hdead⟩ := hst
  exact ⟨call, wallNow, monotonicNow, mem_append_left _ hm, hdead⟩

theorem issuedLeases_append (label : AdmissionLabel Failure) :
    issuedLeases (history ++ [label]) = issuedLeases history ++ label.issued.toList := by
  rw [issuedLeases, issuedLeases, filterMap_append]
  cases hiss : label.issued <;> simp [hiss]

theorem issuedLeases_sub {history : List (AdmissionLabel Failure)} {lease : IssuedLease}
    (hlea : lease ∈ issuedLeases history) (label : AdmissionLabel Failure) :
    lease ∈ issuedLeases (history ++ [label]) := by
  rw [issuedLeases_append]
  exact mem_append_left _ hlea

namespace AdmissionCache

/-- The lease that is cached for a key. -/
def lease (cache : AdmissionCache) (key : CacheKey) : Option AdmissionLease :=
  (cache.entries key).bind fun id => (cache.heap id).cached

theorem lease_eq_some {cache : AdmissionCache} {key : CacheKey} {found : AdmissionLease} :
    cache.lease key = some found ↔
      ∃ id, cache.entries key = some id ∧ (cache.heap id).cached = some found :=
  Option.bind_eq_some_iff

/-- Lease ids are issued in order, and leases in use for their keys. -/
structure Traced (history : List (AdmissionLabel Failure)) (cache : AdmissionCache) :
    Prop where
  stored : ∀ key lease, cache.lease key = some lease →
    Stored history key lease ∧
      (⟨key, lease.expiresAt, lease.leaseId⟩ : IssuedLease) ∈ issuedLeases history
  leased : ∀ id call expiresAt leaseId, cache.calls id = some call →
    call.stage = .leased expiresAt leaseId →
    (⟨call.key, expiresAt, leaseId⟩ : IssuedLease) ∈ issuedLeases history
  counted : (issuedLeases history).length < Word.u64Bound →
    cache.nextLeaseId = (issuedLeases history).length ∧
    (issuedLeases history).map IssuedLease.leaseId =
      List.range' 1 (issuedLeases history).length

theorem traced_default : Traced ([] : List (AdmissionLabel Failure)) default := by
  constructor <;> simp [default, lease, issuedLeases]

theorem Traced.keep {history : List (AdmissionLabel Failure)} {cache next : AdmissionCache}
    (htra : Traced history cache) {label : AdmissionLabel Failure}
    (hiss : label.issued = none) (hid : next.nextLeaseId = cache.nextLeaseId)
    (hlea : ∀ key lease, next.lease key = some lease → cache.lease key = some lease ∨
      (Stored (history ++ [label]) key lease ∧
        (⟨key, lease.expiresAt, lease.leaseId⟩ : IssuedLease) ∈ issuedLeases history))
    (hcls : ∀ id call expiresAt leaseId, next.calls id = some call →
      call.stage = .leased expiresAt leaseId → cache.calls id = some call) :
    Traced (history ++ [label]) next := by
  have hlog : issuedLeases (history ++ [label]) = issuedLeases history := by
    rw [issuedLeases_append, hiss]
    exact append_nil _
  constructor
  · intro key lease hsome
    rw [hlog]
    rcases hlea key lease hsome with hold | hnew
    · obtain ⟨hst, hm⟩ := htra.stored key lease hold
      exact ⟨hst.append label, hm⟩
    · exact hnew
  · intro id call expiresAt leaseId hc hsta
    rw [hlog]
    exact htra.leased id call expiresAt leaseId
      (hcls id call expiresAt leaseId hc hsta) hsta
  · rw [hlog, hid]
    exact htra.counted

theorem lease_enter {cache : AdmissionCache} {entries : CacheKey → Option EntryId}
    (hsub : ∀ key id, entries key = some id → cache.entries key = some id)
    {call : CallId} {key other : CacheKey} {purpose : Purpose} {found : AdmissionLease}
    (hlea : (cache.enter entries call key purpose).lease other = some found) :
    cache.lease other = some found := by
  rw [lease_eq_some] at hlea ⊢
  obtain ⟨id, hent, hcac⟩ := hlea
  rw [enter] at hent hcac
  split at hent
  · rename_i place hf
    rw [hf] at hcac
    refine ⟨id, hsub other id hent, ?_⟩
    by_cases hpla : id = place
    · subst hpla
      simpa using hcac
    · simpa [update_of_ne hpla] using hcac
  · rename_i hmiss
    rw [hmiss] at hcac
    by_cases hpla : id = cache.nextEntry
    · subst hpla
      simp at hcac
    · refine ⟨id, ?_, by simpa [update_of_ne hpla] using hcac⟩
      by_cases hkey : other = key
      · subst hkey
        exact absurd (by simpa using hent.symm) hpla
      · exact hsub other id (by simpa [update_of_ne hkey] using hent)

theorem Traced.enter {history : List (AdmissionLabel Failure)} {cache : AdmissionCache}
    (htra : Traced history cache) {entries : CacheKey → Option EntryId}
    (hsub : ∀ key id, entries key = some id → cache.entries key = some id)
    {call : CallId} {key : CacheKey} {purpose : Purpose} {event : AdmissionEvent Failure} :
    Traced (history ++ [⟨event, .silent⟩]) (cache.enter entries call key purpose) := by
  apply htra.keep rfl
  · rw [AdmissionCache.enter]
    split <;> rfl
  · intro other lease hlea
    exact .inl (lease_enter hsub hlea)
  · intro id running expiresAt leaseId hrunning hsta
    rw [AdmissionCache.enter] at hrunning
    by_cases hid : id = call
    · subst hid
      split at hrunning <;> simp at hrunning <;> subst hrunning <;> cases hsta
    · split at hrunning <;> simpa [update_of_ne hid] using hrunning

theorem Guarded.lease_advance {cache : AdmissionCache} (hgrd : Guarded cache)
    {id : CallId} {call : AdmissionCall} (hc : cache.calls id = some call)
    (stage : Option Stage) (left : AdmissionEntry) (nextLeaseId : ℕ) (key : CacheKey) :
    ({ cache with nextLeaseId }.advance id call stage left).lease key =
      if key = call.key then left.cached else cache.lease key := by
  have hent := (hgrd.anchored id call hc).1
  simp only [lease, AdmissionCache.advance]
  split
  · rename_i hkey
    rw [hkey, hent, Option.bind_some, update_self]
  · rename_i hkey
    cases ho : cache.entries key with
    | none => rfl
    | some place =>
      have hpla : place ≠ call.entry := by
        rintro rfl
        exact hkey (hgrd.injective key call.key _ ho hent)
      simp only [Option.bind_some, update_of_ne hpla]

theorem Guarded.lease_key {cache : AdmissionCache} (hgrd : Guarded cache)
    {id : CallId} {call : AdmissionCall} (hc : cache.calls id = some call) :
    cache.lease call.key = (cache.heap call.entry).cached := by
  rw [lease, (hgrd.anchored id call hc).1, Option.bind_some]

/-- Calls with a lease id had it before, unless the step issued it. -/
theorem leased_advance {cache : AdmissionCache} {id : CallId} {call : AdmissionCall}
    {stage : Option Stage} {left : AdmissionEntry} {nextLeaseId : ℕ}
    (hsta : ∀ expiresAt leaseId, stage ≠ some (.leased expiresAt leaseId))
    {other : CallId} {running : AdmissionCall} {expiresAt : DateTime} {leaseId : ℕ}
    (hrunning : ({ cache with nextLeaseId }.advance id call stage left).calls other =
      some running)
    (hlea : running.stage = .leased expiresAt leaseId) :
    cache.calls other = some running := by
  by_cases ho : other = id
  · subst ho
    simp only [AdmissionCache.advance, update_self] at hrunning
    obtain ⟨next, rfl, rfl⟩ := Option.map_eq_some_iff.mp hrunning
    exact absurd (congrArg some hlea) (hsta expiresAt leaseId)
  · simpa [AdmissionCache.advance, update_of_ne ho] using hrunning

theorem followingLeaseId_of_lt {count : ℕ} (hcnt : count + 1 < Word.u64Bound) :
    followingLeaseId count = count + 1 := by
  rw [followingLeaseId, Word.wrappingAdd, Nat.mod_eq_of_lt hcnt]
  exact max_eq_left (Nat.le_add_left 1 count)

theorem Traced.issue {history : List (AdmissionLabel Failure)} {cache : AdmissionCache}
    (htra : Traced history cache) (hgrd : Guarded cache) {id : CallId}
    {call : AdmissionCall} (hc : cache.calls id = some call) {expiresAt : DateTime}
    {left : AdmissionEntry} (hleft : left.cached = (cache.heap call.entry).cached)
    {event : AdmissionEvent Failure} {leaseId : ℕ}
    (hid : leaseId = followingLeaseId cache.nextLeaseId) :
    Traced (history ++ [⟨event, .issued call.key expiresAt leaseId⟩])
      ({ cache with nextLeaseId := leaseId }.advance id call
        (some (.leased expiresAt leaseId)) left) := by
  have hlog : issuedLeases (history ++ [⟨event, .issued call.key expiresAt leaseId⟩]) =
      issuedLeases history ++ [⟨call.key, expiresAt, leaseId⟩] :=
    issuedLeases_append _ _
  constructor
  · intro key lease hlea
    have hold : cache.lease key = some lease := by
      rw [hgrd.lease_advance hc] at hlea
      split at hlea
      · rename_i hkey
        rw [hkey, hgrd.lease_key hc, ← hleft]
        exact hlea
      · exact hlea
    obtain ⟨hst, hm⟩ := htra.stored key lease hold
    exact ⟨hst.append _, issuedLeases_sub hm _⟩
  · intro other running expires number hrunning hsta
    rw [hlog]
    by_cases ho : other = id
    · subst ho
      simp only [AdmissionCache.advance, update_self, Option.map_some,
        Option.some.injEq] at hrunning
      subst hrunning
      cases hsta
      exact mem_append_right _ (mem_singleton_self _)
    · apply mem_append_left
      apply htra.leased other running expires number _ hsta
      simpa [AdmissionCache.advance, update_of_ne ho] using hrunning
  · intro hbnd
    rw [hlog, length_append, length_singleton] at hbnd
    obtain ⟨hn, hids⟩ := htra.counted ((Nat.lt_succ_self _).trans hbnd)
    have hval : leaseId = (issuedLeases history).length + 1 := by
      rw [hid, hn]
      exact followingLeaseId_of_lt hbnd
    rw [hlog, length_append, length_singleton, map_append, hids, range'_1_concat]
    exact ⟨hval, by simp [hval, Nat.add_comm]⟩

theorem Traced.advance {history : List (AdmissionLabel Failure)} {cache : AdmissionCache}
    (htra : Traced history cache) (hgrd : Guarded cache) {id : CallId}
    {call : AdmissionCall} (hc : cache.calls id = some call) {stage : Option Stage}
    {left : AdmissionEntry} {nextLeaseId : ℕ} {event : AdmissionEvent Failure}
    {effect : AdmissionEffect Failure}
    (hlea : LeaseMove call event effect (cache.heap call.entry) left)
    (heff : EffectMove cache call event stage nextLeaseId effect) :
    Traced (history ++ [⟨event, effect⟩])
      ({ cache with nextLeaseId }.advance id call stage left) := by
  have hkept : ∀ key lease,
      ({ cache with nextLeaseId }.advance id call stage left).lease key = some lease →
      cache.lease key = some lease ∨ (Stored (history ++ [⟨event, effect⟩]) key lease ∧
        (⟨key, lease.expiresAt, lease.leaseId⟩ : IssuedLease) ∈ issuedLeases history) := by
    intro key lease hsome
    rw [hgrd.lease_advance hc] at hsome
    split at hsome
    · rename_i hkey
      subst hkey
      rcases hlea with hsm | ⟨hnone, -⟩ |
        ⟨actor, wallNow, monotonicNow, expiresAt, reuseUntil, leaseId, rfl, -, hsta, rfl,
          hdead, hcac⟩
      · left
        rw [hgrd.lease_key hc, ← hsm]
        exact hsome
      · rw [hnone] at hsome
        cases hsome
      · right
        rw [hcac, Option.some.injEq] at hsome
        subst hsome
        refine ⟨⟨actor, wallNow, monotonicNow, ?_, hdead⟩,
          htra.leased id call expiresAt leaseId hc hsta⟩
        exact mem_append_right _ (mem_singleton_self _)
    · exact .inl hsome
  cases effect with
  | silent =>
    exact htra.keep rfl heff.1 hkept
      (fun _ _ _ _ hrunning => leased_advance heff.2 hrunning)
  | failed key failure =>
    exact htra.keep rfl heff.1 hkept
      (fun _ _ _ _ hrunning => leased_advance heff.2 hrunning)
  | hit key admission =>
    refine htra.keep rfl heff.1 hkept
      (fun _ _ _ _ hrunning => leased_advance ?_ hrunning)
    rw [heff.2.1]
    simp
  | granted key admission =>
    refine htra.keep rfl heff.1 hkept
      (fun _ _ _ _ hrunning => leased_advance ?_ hrunning)
    rw [heff.2.1]
    simp
  | issued key expiresAt leaseId =>
    obtain ⟨rfl, rfl, hid, rfl⟩ := heff
    apply htra.issue hgrd hc _ hid
    rcases hlea with hsm | ⟨-, hsil, -⟩ | ⟨_, _, _, _, _, _, -, -, -, hgrd, -⟩
    · exact hsm
    · cases hsil
    · cases hgrd

/-- A critical section starts a call, finds nothing, or resumes a running call. -/
theorem handle_cases {cache next : AdmissionCache} {event : AdmissionEvent Failure}
    {effect : AdmissionEffect Failure} (hs : cache.handle event = some (effect, next)) :
    (∃ call key wallNow monotonicNow, event = .authorize call key wallNow monotonicNow ∧
      effect = .silent ∧ cache.calls call = none ∧
      next = cache.enter (cache.retained wallNow monotonicNow) call key .authorize) ∨
    (effect = .silent ∧ ∃ call relayPeerId relayConnection targetPeerId domainId admission,
        event = .invalidate call relayPeerId relayConnection targetPeerId domainId admission ∧
        (next = cache ∨ ∃ key id, cache.entries key = some id ∧
          next = cache.enter cache.entries call key (.invalidate admission))) ∨
    ∃ call running, event.call = call ∧ cache.calls call = some running ∧
      cache.resume call running event = some (effect, next) := by
  cases event with
  | authorize call key wallNow monotonicNow =>
    simp only [handle] at hs
    split at hs
    · rename_i hfrs
      cases hs
      exact .inl ⟨call, key, wallNow, monotonicNow, rfl, rfl, hfrs, rfl⟩
    · cases hs
  | invalidate call relayPeerId relayConnection targetPeerId domainId admission =>
    simp only [handle] at hs
    split at hs
    · split at hs
      · rename_i id hf
        cases hs
        exact .inr (.inl ⟨rfl, _, _, _, _, _, admission, rfl, .inr ⟨_, id, hf, rfl⟩⟩)
      · cases hs
        exact .inr (.inl ⟨rfl, _, _, _, _, _, admission, rfl, .inl rfl⟩)
    · cases hs
  | _ =>
    obtain ⟨running, hrunning, hres⟩ := Option.bind_eq_some_iff.mp hs
    exact .inr (.inr ⟨_, running, rfl, hrunning, hres⟩)

/-- The invariant of the cache. -/
structure Sound (history : List (AdmissionLabel Failure)) (cache : AdmissionCache) :
    Prop where
  guarded : Guarded cache
  traced : Traced history cache

theorem Sound.handle {history : List (AdmissionLabel Failure)} {cache next : AdmissionCache}
    (hs : Sound history cache) {event : AdmissionEvent Failure}
    {effect : AdmissionEffect Failure} (hstep : cache.handle event = some (effect, next)) :
    Sound (history ++ [⟨event, effect⟩]) next := by
  rcases handle_cases hstep with ⟨call, key, wallNow, monotonicNow, rfl, rfl, -, rfl⟩ |
    ⟨rfl, call, _, _, _, _, admission, rfl, rfl | ⟨key, -, -, rfl⟩⟩ |
    ⟨call, running, -, hrunning, hres⟩
  · constructor
    · apply Guarded.enter
      exact hs.guarded.retain (fun _ _ => retained_sub) (fun _ _ => retained_of_held)
    · exact hs.traced.enter fun _ _ => retained_sub
  · exact ⟨hs.guarded, hs.traced.keep rfl rfl (fun _ _ => .inl) (fun _ _ _ _ hc _ => hc)⟩
  · exact ⟨hs.guarded.enter call key (.invalidate admission), hs.traced.enter fun _ _ => id⟩
  · obtain ⟨stage, left, nextLeaseId, rfl, hent, hlea, heff⟩ := resume_cases hres
    exact ⟨hs.guarded.advance hrunning hent, hs.traced.advance hs.guarded hrunning hlea heff⟩

end AdmissionCache

def AdmissionStep (_ : List (AdmissionLabel Failure)) (source : AdmissionCache)
    (label : AdmissionLabel Failure) (target : AdmissionCache) : Prop :=
  source.handle label.event = some (label.effect, target)

/-- Runs of the cache from its creation. -/
abbrev AdmissionRun : List (AdmissionLabel Failure) → AdmissionCache → Prop :=
  Transition.Run AdmissionStep AdmissionCache.default

theorem AdmissionRun.sound {history : List (AdmissionLabel Failure)}
    {cache : AdmissionCache} (hrun : AdmissionRun history cache) :
    AdmissionCache.Sound history cache := by
  apply Transition.Run.invariant AdmissionCache.Sound _ _ hrun
  · exact ⟨AdmissionCache.guarded_default, AdmissionCache.traced_default⟩
  · intro history source label target hs hstep
    exact hs.handle hstep

namespace AdmissionCache

/-- The authorizer of a call for the key is running. -/
def Running (cache : AdmissionCache) (key : CacheKey) (call : CallId) : Prop :=
  ∃ running, cache.calls call = some running ∧ running.key = key ∧
    running.stage = .authorizing

/-- The step belongs to a call of `invalidate` with this admission. -/
def Invalidates (cache : AdmissionCache) (event : AdmissionEvent Failure)
    (admission : CachedAdmission) : Prop :=
  (∃ call relayPeerId relayConnection targetPeerId domainId,
    event = .invalidate call relayPeerId relayConnection targetPeerId domainId admission) ∨
  ∃ running, cache.calls event.call = some running ∧
    running.purpose = .invalidate admission

theorem Guarded.running_unique {cache : AdmissionCache} (hgrd : Guarded cache)
    {key : CacheKey} {first second : CallId} (hfst : cache.Running key first)
    (hsnd : cache.Running key second) : first = second := by
  obtain ⟨left, hleft, hlef, hlft⟩ := hfst
  obtain ⟨right, hrgt, hrig, hrgh⟩ := hsnd
  have hent : left.entry = right.entry := by
    apply Option.some.inj
    rw [← (hgrd.anchored first left hleft).1, ← (hgrd.anchored second right hrgt).1, hlef, hrig]
  have hgate := hgrd.gated first left hleft (by rw [hlft]; rfl)
  rw [hent, hgrd.gated second right hrgt (by rw [hrgh]; rfl)] at hgate
  exact (Option.some.inj hgate).symm

theorem hit_of_handle {cache next : AdmissionCache} (hgrd : Guarded cache)
    {event : AdmissionEvent Failure} {key : CacheKey} {admission : CachedAdmission}
    (hs : cache.handle event = some (.hit key admission, next)) :
    ∃ call running wallNow monotonicNow lease, event = .check call wallNow monotonicNow ∧
      cache.calls call = some running ∧ running.key = key ∧ cache.lease key = some lease ∧
      lease.reusable wallNow monotonicNow = true ∧
      admission = ⟨lease.expiresAt, lease.leaseId, key.credentialIssuedAt⟩ := by
  rcases handle_cases hs with ⟨_, _, _, _, -, hsil, -⟩ | ⟨hsil, -⟩ |
    ⟨call, running, hc, hrunning, hres⟩
  · cases hsil
  · cases hsil
  · obtain ⟨stage, left, nextLeaseId, -, -, -, heff⟩ := resume_cases hres
    obtain ⟨-, -, rfl, id, wallNow, monotonicNow, lease, rfl, hcac, hreu, hadm⟩ := heff
    rw [← hgrd.lease_key hrunning] at hcac
    exact ⟨call, running, wallNow, monotonicNow, lease, by rw [← hc]; rfl, hrunning, rfl,
      hcac, hreu, hadm⟩

theorem issued_of_returned {history : List (AdmissionLabel Failure)}
    {cache next : AdmissionCache} (hs : Sound history cache)
    {label : AdmissionLabel Failure}
    (hstep : cache.handle label.event = some (label.effect, next)) {key : CacheKey}
    {admission : CachedAdmission} (hret : label.returned = some (key, admission)) :
    (⟨key, admission.expiresAt, admission.leaseId⟩ : IssuedLease) ∈ issuedLeases history := by
  obtain ⟨event, effect⟩ := label
  cases effect with
  | hit origin found =>
    cases hret
    obtain ⟨_, _, _, _, lease, -, -, -, hlea, -, rfl⟩ := hit_of_handle hs.guarded hstep
    exact (hs.traced.stored key lease hlea).2
  | granted origin found =>
    cases hret
    rcases handle_cases hstep with ⟨_, _, _, _, -, hsil, -⟩ | ⟨hsil, -⟩ |
      ⟨call, running, -, hrunning, hres⟩
    · cases hsil
    · cases hsil
    · obtain ⟨_, _, _, -, -, -, -, -, rfl, hsta, -⟩ := resume_cases hres
      exact hs.traced.leased call running _ _ hrunning hsta
  | silent => cases hret
  | issued _ _ _ => cases hret
  | failed _ _ => cases hret

theorem Guarded.lease_of_abort {cache next : AdmissionCache} (hgrd : Guarded cache)
    {event : AdmissionEvent Failure} {effect : AdmissionEffect Failure} {key : CacheKey}
    (hrunning : cache.Running key event.call)
    (habo : (∃ call failure, event = .complete call (.error failure)) ∨ ∃ call, event = .drop call)
    (hs : cache.handle event = some (effect, next)) : next.lease key = none := by
  obtain ⟨running, hc, rfl, hsta⟩ := hrunning
  have hcac := hgrd.cleared _ running hc (by rw [hsta]; rfl)
  rcases handle_cases hs with ⟨_, _, _, _, rfl, -⟩ | ⟨-, _, _, _, _, _, _, rfl, -⟩ |
    ⟨call, found, rfl, hf, hres⟩
  · rcases habo with ⟨_, _, hev⟩ | ⟨_, hev⟩ <;> cases hev
  · rcases habo with ⟨_, _, hev⟩ | ⟨_, hev⟩ <;> cases hev
  · cases hc.symm.trans hf
    obtain ⟨stage, left, nextLeaseId, rfl, -, hlea, -⟩ := resume_cases hres
    rw [hgrd.lease_advance hc, if_pos rfl]
    rcases hlea with hsm | ⟨hnone, -⟩ | ⟨_, _, _, _, _, _, rfl, -⟩
    · rw [hsm, hcac]
    · exact hnone
    · rcases habo with ⟨_, _, hev⟩ | ⟨_, hev⟩ <;> cases hev

theorem lease_enter_entries {cache : AdmissionCache} {key : CacheKey} {id : EntryId}
    (hf : cache.entries key = some id) (call : CallId) (purpose : Purpose)
    (other : CacheKey) :
    (cache.enter cache.entries call key purpose).lease other = cache.lease other := by
  simp only [lease, enter, hf]
  cases cache.entries other with
  | none => rfl
  | some place =>
    by_cases hpla : place = id
    · subst hpla
      simp
    · simp [update_of_ne hpla]

/-- A step of `invalidate` removes only the lease with the id it was given. -/
theorem Guarded.lease_of_invalidates {cache next : AdmissionCache} (hgrd : Guarded cache)
    {event : AdmissionEvent Failure} {effect : AdmissionEffect Failure}
    {admission : CachedAdmission} (hinv : cache.Invalidates event admission)
    (hs : cache.handle event = some (effect, next)) {key : CacheKey}
    (hchd : next.lease key ≠ cache.lease key) :
    next.lease key = none ∧
      ∃ lease, cache.lease key = some lease ∧ lease.leaseId = admission.leaseId := by
  rcases handle_cases hs with ⟨call, _, _, _, rfl, -, hfrs, -⟩ |
    ⟨-, _, _, _, _, _, _, -, rfl | ⟨_, _, hf, rfl⟩⟩ |
    ⟨call, running, rfl, hrunning, hres⟩
  · rcases hinv with ⟨_, _, _, _, _, hev⟩ | ⟨running, hrunning, -⟩
    · cases hev
    · cases hfrs.symm.trans hrunning
  · exact absurd rfl hchd
  · exact absurd (lease_enter_entries hf _ _ key) hchd
  · have hpur : running.purpose = .invalidate admission := by
      rcases hinv with ⟨_, _, _, _, _, rfl⟩ | ⟨found, hf, hpur⟩
      · simp [resume] at hres
      · cases hrunning.symm.trans hf
        exact hpur
    obtain ⟨stage, left, nextLeaseId, rfl, -, hlea, -⟩ := resume_cases hres
    rw [hgrd.lease_advance hrunning] at hchd ⊢
    split at hchd
    · rename_i hkey
      subst hkey
      rw [if_pos rfl, hgrd.lease_key hrunning]
      rw [hgrd.lease_key hrunning] at hchd
      rcases hlea with hsm | ⟨hnone, -, ⟨_, -, ho⟩ |
        ⟨_, given, lease, -, hgiv, hcac, hsm⟩⟩ | ⟨_, _, _, _, _, _, -, ho, -⟩
      · exact absurd hsm hchd
      · rw [hpur] at ho
        cases ho
      · rw [hpur] at hgiv
        cases hgiv
        exact ⟨hnone, lease, hcac, hsm⟩
      · rw [hpur] at ho
        cases ho
    · exact absurd rfl hchd

theorem Traced.filter_leaseId {history : List (AdmissionLabel Failure)}
    {cache : AdmissionCache} (htra : Traced history cache)
    (hbnd : (issuedLeases history).length < Word.u64Bound) {issue : IssuedLease}
    (hiss : issue ∈ issuedLeases history) :
    (issuedLeases history).filter (fun other => other.leaseId = issue.leaseId) = [issue] := by
  have hnd : ((issuedLeases history).map IssuedLease.leaseId).Nodup := by
    rw [(htra.counted hbnd).2]
    exact nodup_range'
  obtain ⟨earlier, later, hsp⟩ := append_of_mem hiss
  rw [hsp, map_append, map_cons, nodup_middle, nodup_cons, ← map_append, mem_map] at hnd
  have hoff : ∀ other ∈ earlier ++ later, ¬ other.leaseId = issue.leaseId :=
    fun other ho hsm => hnd.1 ⟨other, ho, hsm⟩
  rw [forall_mem_append] at hoff
  rw [hsp, filter_append, filter_cons_of_pos (by simp),
    filter_eq_nil_iff.mpr (by simpa using hoff.1),
    filter_eq_nil_iff.mpr (by simpa using hoff.2)]
  rfl

end AdmissionCache

/-- The admission cache is single-flight and its leases are fenced. -/
theorem admission_cache_fenced {history : List (AdmissionLabel Failure)}
    {cache : AdmissionCache} (hrun : AdmissionRun history cache) :
    (∀ key first second, cache.Running key first → cache.Running key second →
      first = second) ∧
    (∀ before label after, history = before ++ label :: after →
      ∃ source target, AdmissionRun before source ∧ AdmissionRun (before ++ [label]) target ∧
        (∀ key admission, label.effect = .hit key admission →
          ∃ call running wallNow monotonicNow lease,
            label.event = .check call wallNow monotonicNow ∧
            source.calls call = some running ∧ running.key = key ∧
            Stored before key lease ∧
            admission = ⟨lease.expiresAt, lease.leaseId, key.credentialIssuedAt⟩ ∧
            wallNow + (reuseSafetyMargin : ℤ) < lease.expiresAt ∧
            monotonicNow < lease.reuseUntil) ∧
        (∀ key, source.Running key label.event.call →
          ((∃ call failure, label.event = .complete call (.error failure)) ∨
            ∃ call, label.event = .drop call) →
          target.lease key = none) ∧
        (∀ key admission, (issuedLeases history).length < Word.u64Bound →
          source.Invalidates label.event admission →
          target.lease key ≠ source.lease key →
          target.lease key = none ∧ ∃ lease issue, source.lease key = some lease ∧
            issue = ⟨key, lease.expiresAt, admission.leaseId⟩ ∧
            lease.leaseId = admission.leaseId ∧
            (issuedLeases history).filter
              (fun other => other.leaseId = admission.leaseId) = [issue] ∧
            ∀ earlier returned later origin, before = earlier ++ returned :: later →
              returned.returned = some (origin, admission) →
              issue ∈ issuedLeases earlier ∧
                issue = ⟨origin, admission.expiresAt, admission.leaseId⟩)) := by
  have hsound := AdmissionRun.sound hrun
  refine ⟨fun key first second => hsound.guarded.running_unique, ?_⟩
  rintro before label after rfl
  obtain ⟨source, target, hbefore, hstep, htarget⟩ := hrun.step_at
  have hsource := AdmissionRun.sound hbefore
  refine ⟨source, target, hbefore, htarget, ?_, ?_, ?_⟩
  · intro key admission heffect
    rw [AdmissionStep, heffect] at hstep
    obtain ⟨call, running, wallNow, monotonicNow, lease, hevent, hrunning, hkey, hlease,
      hreusable, hadmission⟩ := AdmissionCache.hit_of_handle hsource.guarded hstep
    rw [AdmissionLease.reusable, Bool.and_eq_true, decide_eq_true_eq, decide_eq_true_eq]
      at hreusable
    exact ⟨call, running, wallNow, monotonicNow, lease, hevent, hrunning, hkey,
      (hsource.traced.stored key lease hlease).1, hadmission, hreusable.1, hreusable.2⟩
  · intro key hrunning habort
    exact hsource.guarded.lease_of_abort hrunning habort hstep
  · intro key admission hbound hinvalidates hchanged
    obtain ⟨hnone, lease, hlease, hsame⟩ :=
      hsource.guarded.lease_of_invalidates hinvalidates hstep hchanged
    have hissue := (hsource.traced.stored key lease hlease).2
    rw [hsame] at hissue
    have hlater : ∀ issue, issue ∈ issuedLeases before →
        issue ∈ issuedLeases (before ++ label :: after) := by
      intro issue hmem
      rw [issuedLeases, filterMap_append]
      exact mem_append_left _ hmem
    have hfilter := hsound.traced.filter_leaseId hbound (hlater _ hissue)
    refine ⟨hnone, lease, _, hlease, rfl, hsame, hfilter, ?_⟩
    rintro earlier returned later origin rfl hreturned
    obtain ⟨former, _, hearlier, hreturn, -⟩ := hbefore.step_at
    have horigin := AdmissionCache.issued_of_returned (AdmissionRun.sound hearlier) hreturn
      hreturned
    have hsub : (⟨origin, admission.expiresAt, admission.leaseId⟩ : IssuedLease) ∈
        issuedLeases (earlier ++ returned :: later) := by
      rw [issuedLeases, filterMap_append]
      exact mem_append_left _ horigin
    have hunique : (⟨origin, admission.expiresAt, admission.leaseId⟩ : IssuedLease) ∈
        (issuedLeases (earlier ++ returned :: later ++ label :: after)).filter
          (fun other => other.leaseId = admission.leaseId) :=
      mem_filter.mpr ⟨hlater _ hsub, decide_eq_true rfl⟩
    rw [hfilter, mem_singleton] at hunique
    rw [← hunique]
    exact ⟨horigin, rfl⟩

/-- The labels and the end of a run over some critical sections. -/
def AdmissionCache.record (cache : AdmissionCache) :
    List (AdmissionEvent Failure) → Option (List (AdmissionLabel Failure) × AdmissionCache)
  | [] => some ([], cache)
  | event :: events => do
      let (effect, next) ← cache.handle event
      let (labels, last) ← next.record events
      some (⟨event, effect⟩ :: labels, last)

theorem AdmissionRun.record {start labels : List (AdmissionLabel Failure)}
    {cache last : AdmissionCache} (hrun : AdmissionRun start cache)
    {events : List (AdmissionEvent Failure)} (hrec : cache.record events = some (labels, last)) :
    AdmissionRun (start ++ labels) last := by
  induction events generalizing start cache labels with
  | nil =>
    cases hrec
    simpa using hrun
  | cons event events ih =>
    obtain ⟨⟨effect, next⟩, hs, hrest⟩ := Option.bind_eq_some_iff.mp hrec
    obtain ⟨⟨later, final⟩, hlat, hlab⟩ := Option.bind_eq_some_iff.mp hrest
    cases hlab
    have hn : AdmissionRun (start ++ [⟨event, effect⟩]) next := hrun.extend hs
    simpa using ih hn hlat

def sampleCacheKey : CacheKey := ⟨samplePeer 3, 1, samplePeer 2, 5, 7⟩

def sampleAdmissionEvents : List (AdmissionEvent Unit) :=
  [.authorize 0 sampleCacheKey 0 0, .authorize 1 sampleCacheKey 0 0, .acquire 0,
    .check 0 0 0, .clear 0, .complete 0 (.ok 100000000000), .issue 0, .store 0 0 0,
    .acquire 1]

/-- The admission that a step served from the cache. -/
def AdmissionEffect.served : AdmissionEffect Failure → Option (CacheKey × CachedAdmission)
  | .hit key admission => some (key, admission)
  | _ => none

/-- The second call is served from the lease of the first. -/
theorem admission_cache_fenced_sample :
    ∃ (before : List (AdmissionLabel Unit)) (label : AdmissionLabel Unit)
      (cache : AdmissionCache), AdmissionRun (before ++ [label]) cache ∧
      label.effect.served = some (sampleCacheKey, ⟨100000000000, 1, 7⟩) ∧
      ∃ lease, Stored before sampleCacheKey lease ∧ lease.leaseId = 1 := by
  have hserved : ((AdmissionCache.default.record sampleAdmissionEvents).bind fun recorded =>
      (recorded.2.handle (.check 1 0 0 : AdmissionEvent Unit)).bind fun step =>
        step.1.served) = some (sampleCacheKey, ⟨100000000000, 1, 7⟩) := by
    decide +kernel
  obtain ⟨⟨before, source⟩, hrecord, hlast⟩ := Option.bind_eq_some_iff.mp hserved
  obtain ⟨⟨effect, target⟩, hstep, heffect⟩ := Option.bind_eq_some_iff.mp hlast
  have hrun : AdmissionRun (before ++ [⟨.check 1 0 0, effect⟩]) target :=
    (AdmissionRun.record .start hrecord).extend hstep
  refine ⟨before, _, target, hrun, heffect, ?_⟩
  obtain ⟨_, _, -, -, hhit, -⟩ := (admission_cache_fenced hrun).2 before _ [] rfl
  cases effect with
  | hit key admission =>
    cases heffect
    obtain ⟨_, _, _, _, lease, -, -, -, hstored, hadmission, -⟩ := hhit _ _ rfl
    exact ⟨lease, hstored, (congrArg CachedAdmission.leaseId hadmission).symm⟩
  | _ => cases heffect

end AukiSdk.Transport
