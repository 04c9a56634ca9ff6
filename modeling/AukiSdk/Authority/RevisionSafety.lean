import AukiSdk.Authority.RevisionFence

/-!
# Runs of calls on the authority

Every run keeps the revisions in order and fences what the calls return.
-/

namespace AukiSdk.Authority

open AukiSdk.Foundation List Function
open AukiSdk.Net

variable {Keys Credential : Type}

namespace AuthorityCalls

/-- The recorded outcomes, the current authority and the calls agree. -/
structure Sound (installer : AuthorityInstaller Keys Credential)
    (fence : AuthorityCalls Keys Credential) : Prop extends Locked fence where
  revisions : (replacements fence.trace).map Prod.snd = List.range' 1 fence.inner.state.revision
  issued : (replacements fence.trace).Pairwise fun first second =>
    first.1.claims.iat < second.1.claims.iat
  bounded : ∀ replacement ∈ replacements fence.trace, ∀ current,
    fence.inner.state.current = some current → replacement.1.claims.iat ≤ current.claims.iat
  latest : ∀ current, fence.inner.state.current = some current → ∃ validated,
    (replacements fence.trace).getLast? = some (validated, current.credentialRevision) ∧
      validated.claims = current.claims ∧ validated.authorization = current.authorization ∧
      validated.credentialExpiresAt = current.credentialExpiresAt
  bearers : ∀ validated revision, .replaced validated revision ∈ fence.trace →
    installer.sensitiveBearerHeader validated.credential = .ok validated.authorization
  fenced : ∀ before event after, fence.trace = before ++ event :: after →
    event.Fenced installer before
  stopped : .stopped ∈ fence.trace → fence.inner.state.stopped = true
  withdrawn : fence.inner.state.stopped = true → ∀ current,
    fence.inner.state.current = some current → current.available = false
  checked : ∀ operation ∈ fence.inner.operations,
    operation.Checked installer fence.inner.state.current
  announced : ∀ status ∈ fence.inner.statuses, ∀ revision expiresAt,
    status = .ready revision expiresAt →
      ∃ validated, .replaced validated revision ∈ fence.trace
  knows : ∀ id phase, fence.calls id = some phase → phase.Knows installer fence.trace

namespace Sound

variable {installer : AuthorityInstaller Keys Credential}
variable {fence next : AuthorityCalls Keys Credential}

theorem new (installer : AuthorityInstaller Keys Credential) (earlyRefreshTimeout : Duration) :
    (AuthorityCalls.new Keys Credential earlyRefreshTimeout).Sound installer where
  one := Nat.zero_le 1
  idle hpos := absurd hpos (Nat.lt_irrefl 0)
  locked := by
    rintro (hpos | ⟨id, phase, hp, -⟩)
    · exact absurd hpos (Nat.lt_irrefl 0)
    · cases hp
  single := by
    rintro id id' ⟨phase, hp, -⟩
    cases hp
  revisions := rfl
  issued := List.Pairwise.nil
  bounded := by simp [AuthorityCalls.new, replacements]
  latest := by
    intro current hcur
    cases hcur
  bearers _ _ hm := by cases hm
  fenced before event after hsp := by cases before <;> cases hsp
  stopped hm := by cases hm
  withdrawn hstp := by cases hstp
  checked _ hm := by cases hm
  announced := by
    intro status hm revision expiresAt hrdy
    rw [mem_singleton.mp hm] at hrdy
    cases hrdy
  knows _ _ hp := by cases hp

variable {events : List (AuthorityEvent Keys Credential)}

theorem fenced_append (hs : fence.Sound installer)
    (hevs : events = [] ∨ ∃ event, events = [event] ∧ event.Fenced installer fence.trace)
    (before : List (AuthorityEvent Keys Credential)) (event : AuthorityEvent Keys Credential)
    (after : List (AuthorityEvent Keys Credential))
    (hsp : fence.trace ++ events = before ++ event :: after) :
    event.Fenced installer before := by
  obtain rfl | ⟨added, rfl, hadd⟩ := hevs
  · rw [append_nil] at hsp
    exact hs.fenced before event after hsp
  · obtain ⟨-, rfl, rfl⟩ | ⟨rest, -, hpre⟩ := concat_eq_append_cons hsp
    · exact hadd
    · exact hs.fenced before event rest hpre

theorem replaced_of_current (hs : fence.Sound installer) {current : CurrentAuthority}
    (hcur : fence.inner.state.current = some current) :
    ∃ validated, .replaced validated current.credentialRevision ∈ fence.trace ∧
      validated.claims = current.claims ∧ validated.authorization = current.authorization ∧
      validated.credentialExpiresAt = current.credentialExpiresAt := by
  obtain ⟨validated, hlast, hval⟩ := hs.latest current hcur
  exact ⟨validated, mem_replacements.mp (mem_of_getLast? hlast), hval⟩

variable {inner : AuthorityInner Keys Credential}

theorem quiet (hs : fence.Sound installer) (hmov : fence.inner.MovesLock inner)
    (hcur : inner.state.current = fence.inner.state.current)
    (hstp : inner.state.stopped = fence.inner.state.stopped)
    (hsta : ∀ status ∈ inner.statuses, status ∈ fence.inner.statuses)
    (hops : ∀ operation ∈ inner.operations, operation ∈ fence.inner.operations ∨
      operation.Checked installer fence.inner.state.current) :
    ({ fence with inner := inner } : AuthorityCalls Keys Credential).Sound installer where
  toLocked := hs.toLocked.supervisor hmov rfl
  revisions := by
    rw [AuthorityState.revision, hcur]
    exact hs.revisions
  __ := hs
  bounded replacement hm current hf := hs.bounded replacement hm current (hcur ▸ hf)
  latest current hf := hs.latest current (hcur ▸ hf)
  stopped hm := hstp.trans (hs.stopped hm)
  withdrawn hstop current hf := hs.withdrawn (hstp ▸ hstop) current (hcur ▸ hf)
  checked operation hm := by
    dsimp only
    rw [hcur]
    exact (hops operation hm).elim (hs.checked operation) id
  announced status hm := hs.announced status (hsta status hm)

theorem replaced (hs : fence.Sound installer) (hmov : fence.inner.MovesLock inner)
    {validated : ValidatedAuthorityUpdate Keys Credential}
    (hadvances : validated.Advances installer fence.inner.state.current)
    (hdist : validated.equivalentCredential = false) (hrunning : fence.inner.state.stopped = false)
    (hstp : inner.state.stopped = false)
    (hcur : inner.state.current = some ⟨fence.inner.state.revision + 1, validated.claims,
      validated.authorization, validated.credentialExpiresAt, validated.renewAt, true⟩)
    (hsta : ∀ status ∈ inner.statuses, status ∈ fence.inner.statuses ∨
      status = .ready (fence.inner.state.revision + 1) validated.credentialExpiresAt)
    (hbusy : inner.operations.countP Operation.updating < fence.inner.updaters) :
    ({ fence with
      inner := inner
      trace := fence.trace ++ [.replaced validated (fence.inner.state.revision + 1)] } :
        AuthorityCalls Keys Credential).Sound installer := by
  have hrepl : replacements (fence.trace ++
      [.replaced validated (fence.inner.state.revision + 1)]) =
        replacements fence.trace ++ [(validated, fence.inner.state.revision + 1)] :=
    filterMap_append
  have hlat : ∀ replacement ∈ replacements fence.trace,
      replacement.1.claims.iat < validated.claims.iat := by
    intro replacement hm
    cases hold : fence.inner.state.current with
    | none =>
      have hnone := hs.revisions
      rw [AuthorityState.revision, hold] at hnone
      rw [map_eq_nil_iff.mp hnone] at hm
      cases hm
    | some current =>
      exact (hs.bounded replacement hm current hold).trans_lt
        (hadvances.2 hdist current hold)
  have hnot : .stopped ∉ fence.trace := by
    intro hm
    rw [hs.stopped hm] at hrunning
    cases hrunning
  refine ⟨hs.toLocked.supervisor hmov rfl, ?_, ?_, ?_, ?_, ?_, ?_, ?_, ?_, ?_, ?_, ?_⟩
  · have hrev : inner.state.revision = fence.inner.state.revision + 1 := by
      rw [AuthorityState.revision, hcur]
      rfl
    dsimp only
    rw [hrepl, map_append, hs.revisions, hrev, range'_1_concat, Nat.add_comm 1]
    rfl
  · dsimp only
    rw [hrepl, pairwise_append]
    refine ⟨hs.issued, pairwise_singleton _ _, ?_⟩
    intro earlier hpri last hlast
    rw [mem_singleton.mp hlast]
    exact hlat earlier hpri
  · intro replacement hm current hf
    cases Option.some.inj (hcur.symm.trans hf)
    rw [hrepl] at hm
    obtain hm | hm := mem_append.mp hm
    · exact (hlat replacement hm).le
    · rw [mem_singleton.mp hm]
  · intro current hf
    cases Option.some.inj (hcur.symm.trans hf)
    refine ⟨validated, ?_, rfl, rfl, rfl⟩
    dsimp only
    rw [hrepl]
    exact getLast?_concat
  · intro found revision hm
    obtain hm | hm := mem_append.mp hm
    · exact hs.bearers found revision hm
    · cases mem_singleton.mp hm
      exact hadvances.1
  · exact hs.fenced_append (.inr ⟨_, rfl, hnot⟩)
  · intro hm
    obtain hm | hm := mem_append.mp hm
    · exact absurd hm hnot
    · cases mem_singleton.mp hm
  · intro hstop
    rw [hstp] at hstop
    cases hstop
  · intro operation hm
    have hnone : inner.operations.countP Operation.updating = 0 := by
      have hone := hs.one
      omega
    exact Operation.checked_of_not_updating
      (Bool.eq_false_of_not_eq_true (countP_eq_zero.mp hnone operation hm))
  · intro status hm revision expiresAt hrdy
    obtain hm | hstat := hsta status hm
    · obtain ⟨found, hf⟩ := hs.announced status hm revision expiresAt hrdy
      exact ⟨found, mem_append_left _ hf⟩
    · cases hstat.symm.trans hrdy
      exact ⟨validated, mem_append_right _ mem_cons_self⟩
  · intro id phase hp
    exact (hs.knows id phase hp).append _

theorem withdraw (hs : fence.Sound installer) (hmov : fence.inner.MovesLock inner)
    (hevs : events = [] ∨ events = [.stopped] ∧ inner.state.stopped = true)
    (hcur : inner.state.current =
      fence.inner.state.current.map fun current => { current with available := false })
    (hstp : fence.inner.state.stopped = true → inner.state.stopped = true)
    (hsta : ∀ status ∈ inner.statuses, status ∈ fence.inner.statuses ∨
      ∀ revision expiresAt, status ≠ .ready revision expiresAt)
    (hops : ∀ operation ∈ inner.operations, operation ∈ fence.inner.operations) :
    ({ fence with inner := inner, trace := fence.trace ++ events } :
        AuthorityCalls Keys Credential).Sound installer := by
  have hrepl : replacements (fence.trace ++ events) = replacements fence.trace := by
    rw [replacements, filterMap_append]
    obtain rfl | ⟨rfl, -⟩ := hevs <;> exact append_nil _
  have hf : ∀ found', inner.state.current = some found' →
      ∃ found, fence.inner.state.current = some found ∧
        found' = { found with available := false } := by
    intro found' hfound'
    obtain ⟨found, hf, hsm⟩ := Option.map_eq_some_iff.mp (hcur.symm.trans hfound')
    exact ⟨found, hf, hsm.symm⟩
  refine ⟨hs.toLocked.supervisor hmov rfl, ?_, ?_, ?_, ?_, ?_, ?_, ?_, ?_, ?_, ?_, ?_⟩
  · dsimp only
    rw [hrepl, AuthorityState.revision, hcur, Option.map_map]
    exact hs.revisions
  · dsimp only
    rw [hrepl]
    exact hs.issued
  · intro replacement hm current hcurrent'
    obtain ⟨found, hfound', rfl⟩ := hf current hcurrent'
    rw [hrepl] at hm
    exact hs.bounded replacement hm found hfound'
  · intro current hcurrent'
    obtain ⟨found, hfound', rfl⟩ := hf current hcurrent'
    dsimp only
    rw [hrepl]
    exact hs.latest found hfound'
  · intro found revision hm
    rw [← mem_replacements, hrepl, mem_replacements] at hm
    exact hs.bearers found revision hm
  · apply hs.fenced_append
    exact hevs.imp_right fun hstop => ⟨.stopped, hstop.1, trivial⟩
  · intro hm
    obtain hm | hm := mem_append.mp hm
    · exact hstp (hs.stopped hm)
    · obtain rfl | ⟨-, hstop⟩ := hevs
      · cases hm
      · exact hstop
  · intro _ current hcurrent'
    obtain ⟨found, -, rfl⟩ := hf current hcurrent'
    rfl
  · intro operation hm
    apply (hs.checked operation (hops operation hm)).of_claims
    intro found' hfound'
    obtain ⟨found, hf, rfl⟩ := hf found' hfound'
    exact ⟨found, hf, rfl⟩
  · intro status hm revision expiresAt hrdy
    obtain hm | hnev := hsta status hm
    · obtain ⟨found, hf⟩ := hs.announced status hm revision expiresAt hrdy
      exact ⟨found, mem_append_left _ hf⟩
    · exact absurd hrdy (hnev revision expiresAt)
  · intro id phase hp
    exact (hs.knows id phase hp).append _

theorem supervisor {action : AuthorityAction Keys Credential} (hs : fence.Sound installer)
    (hstep : fence.inner.step installer action = some inner) :
    ({ fence with inner := inner, trace := fence.trace ++ fence.inner.events action } :
      AuthorityCalls Keys Credential).Sound installer := by
  have hmov := AuthorityInner.step_lock hstep
  have heff := AuthorityInner.step_effect hs.checked hstep
  cases heff with
  | quiet hevs hcur hstp hsta hops =>
    rw [hevs, append_nil]
    exact hs.quiet hmov hcur hstp hsta hops
  | replaced validated hevs hadvances hdist hrunning hstp hcur hsta
      hops hbusy =>
      rw [hevs]
      exact hs.replaced hmov hadvances hdist hrunning hstp hcur hsta hbusy
  | withdrawn hevs hcur hstp hsta hops =>
    exact hs.withdraw hmov hevs hcur hstp hsta hops

theorem of_call (hs : fence.Sound installer) (hlock : next.Locked)
    (hsta : next.inner.state = fence.inner.state)
    (hstt : next.inner.statuses = fence.inner.statuses)
    (hops : ∀ operation ∈ next.inner.operations,
      operation = .expireStarted ∨ operation ∈ fence.inner.operations)
    (htr : next.trace = fence.trace ++ events)
    (hevs : events = [] ∨ ∃ event, events = [event] ∧ event.replacement = none ∧
      event ≠ .stopped ∧ event.Fenced installer fence.trace)
    (hkno : ∀ id phase, next.calls id = some phase →
      fence.calls id = some phase ∨ phase.Knows installer fence.trace) : next.Sound installer := by
  have hrepl : replacements next.trace = replacements fence.trace := by
    rw [htr, replacements, filterMap_append]
    obtain rfl | ⟨event, rfl, hnone, -⟩ := hevs
    · exact append_nil _
    · rw [filterMap_cons_none hnone]
      exact append_nil _
  refine ⟨hlock, ?_, ?_, ?_, ?_, ?_, ?_, ?_, ?_, ?_, ?_, ?_⟩
  · rw [hrepl, hsta]
    exact hs.revisions
  · rw [hrepl]
    exact hs.issued
  · rw [hrepl, hsta]
    exact hs.bounded
  · rw [hrepl, hsta]
    exact hs.latest
  · intro found revision hm
    rw [← mem_replacements, hrepl, mem_replacements] at hm
    exact hs.bearers found revision hm
  · rw [htr]
    apply hs.fenced_append
    refine hevs.imp_right ?_
    rintro ⟨event, heq, -, -, hfen⟩
    exact ⟨event, heq, hfen⟩
  · intro hm
    rw [hsta]
    apply hs.stopped
    rw [htr] at hm
    refine (mem_append.mp hm).resolve_right ?_
    intro hstop
    obtain rfl | ⟨event, rfl, -, hne, -⟩ := hevs
    · cases hstop
    · exact hne (mem_singleton.mp hstop).symm
  · rw [hsta]
    exact hs.withdrawn
  · intro operation hm
    rw [hsta]
    obtain rfl | hm := hops operation hm
    · trivial
    · exact hs.checked operation hm
  · rw [hstt]
    intro status hm revision expiresAt hrdy
    obtain ⟨found, hf⟩ := hs.announced status hm revision expiresAt hrdy
    exact ⟨found, htr ▸ mem_append_left _ hf⟩
  · intro id phase hp
    rw [htr]
    exact ((hkno id phase hp).elim (hs.knows id phase) fun hnew => hnew).append _

variable {id : ℕ}

theorem calls_update {after : Option CallPhase} {trace : List (AuthorityEvent Keys Credential)}
    (haft : ∀ phase, after = some phase → phase.Knows installer trace) (other : ℕ)
    (phase : CallPhase) (hp : Function.update fence.calls id after other = some phase) :
    fence.calls other = some phase ∨ phase.Knows installer trace := by
  by_cases ho : other = id
  · subst ho
    rw [update_self] at hp
    exact .inr (haft phase hp)
  · rw [update_of_ne ho] at hp
    exact .inl hp

variable {phase : CallPhase}

theorem goto (hs : fence.Sound installer) (hlock : next.Locked)
    (hsta : next.inner.state = fence.inner.state)
    (hstt : next.inner.statuses = fence.inner.statuses)
    (hops : ∀ operation ∈ next.inner.operations,
      operation = .expireStarted ∨ operation ∈ fence.inner.operations)
    (htr : next.trace = fence.trace)
    (hcls : next.calls = Function.update fence.calls id (some phase))
    (hkno : phase.Knows installer fence.trace) : next.Sound installer := by
  refine hs.of_call hlock hsta hstt hops
    (htr.trans (append_nil _).symm) (.inl rfl) ?_
  rw [hcls]
  apply calls_update
  intro found hf
  cases hf
  exact hkno

theorem finish (hs : fence.Sound installer) (hp : fence.calls id = some phase)
    {event : AuthorityEvent Keys Credential} (hrep : event.replacement = none)
    (hstop : event ≠ .stopped) (hfen : event.Fenced installer fence.trace) :
    (fence.finish id phase [event]).Sound installer := by
  refine hs.of_call (hs.toLocked.finish hp _) rfl rfl (fun _ hm => .inr hm) rfl
    (.inr ⟨event, rfl, hrep, hstop, hfen⟩) (calls_update ?_)
  intro found hf
  cases hf

theorem refuse (hs : fence.Sound installer) (hp : fence.calls id = some phase)
    (error : AuthorityCallError) :
    (fence.finish id phase [.refused id error]).Sound installer :=
  hs.finish hp rfl (fun heq => by cases heq) trivial

theorem expireThen (hs : fence.Sound installer) {found : CallPhase}
    (hf : fence.calls id = some found) (hheld : phase.holdsUpdate = found.holdsUpdate)
    (hkno : phase.Knows installer fence.trace) :
    (fence.expireThen id phase).Sound installer :=
  hs.goto (hs.toLocked.expireThen hf hheld) rfl rfl
    (fun _ hm => mem_cons.mp hm) rfl rfl hkno

/-- What the first reading of `authorization_parts` returns belongs to a revision. -/
theorem bearerOf_readParts (hs : fence.Sound installer) {authorization : String}
    {revision : ℕ} (hread : fence.inner.state.readParts = .ok (authorization, revision)) :
    BearerOf installer fence.trace authorization revision := by
  unfold AuthorityState.readParts at hread
  split at hread
  · cases hread
  · split at hread
    · cases hread
    · rename_i current hcur
      split at hread
      · cases hread
        obtain ⟨validated, hm, -, haut, -⟩ := hs.replaced_of_current hcur
        refine ⟨validated, hm, haut, ?_⟩
        rw [← haut]
        exact hs.bearers validated _ hm
      · cases hread

theorem snapshotOf_readSnapshot (hs : fence.Sound installer) {now : DateTime}
    {snapshot : AuthorizationSnapshot}
    (hread : fence.inner.state.readSnapshot now = .ok snapshot) :
    SnapshotOf fence.trace snapshot := by
  unfold AuthorityState.readSnapshot at hread
  split at hread
  · cases hread
  · split at hread
    · cases hread
    · rename_i current hcur
      split at hread
      · cases hread
        obtain ⟨validated, hm, hclm, -, hexp⟩ := hs.replaced_of_current hcur
        exact ⟨validated, hm, hclm, hexp⟩
      · split at hread <;> cases hread

end Sound

end AuthorityCalls

variable {state : AuthorityState Keys} {revision : ℕ}

/-- The current authority that `still_current` has seen. -/
theorem AuthorityState.current_of_stillCurrent {now : DateTime}
    (hsti : state.stillCurrent revision now = true) :
    ∃ current, state.current = some current ∧ current.credentialRevision = revision ∧
      current.available = true ∧ now < current.credentialExpiresAt := by
  obtain ⟨current, hcur, htest⟩ := Option.any_eq_true _ _ |>.mp hsti
  simp only [Bool.and_eq_true, beq_iff_eq, decide_eq_true_eq] at htest
  exact ⟨current, hcur, htest.1.2, htest.1.1, htest.2⟩

theorem AuthorityState.current_of_validateFence {now : DateTime}
    (hfnc : state.validateFence revision now = .ok ()) :
    state.stopped = false ∧
    ∃ current, state.current = some current ∧ current.credentialRevision = revision ∧
      current.available = true ∧ now < current.credentialExpiresAt := by
  unfold validateFence at hfnc
  split at hfnc
  · cases hfnc
  · rename_i hrunning
    split at hfnc
    · cases hfnc
    · rename_i current hcur
      split at hfnc
      · cases hfnc
      · rename_i hrev
        split at hfnc
        · cases hfnc
        · rename_i hexp
          split at hfnc
          · cases hfnc
          · rename_i hava
            exact ⟨Bool.eq_false_of_not_eq_true hrunning, current, hcur, not_not.mp hrev,
              Bool.eq_true_of_not_eq_false hava, not_le.mp hexp⟩

theorem AuthorityState.replaced_of_refreshDeadline {rejected : ℕ} {earlyRefreshTimeout : Duration}
    {reading : CallReading}
    (hdead : state.refreshDeadline rejected earlyRefreshTimeout reading = .ok none) :
    ∃ current, state.current = some current ∧ rejected < current.credentialRevision := by
  unfold refreshDeadline at hdead
  split at hdead
  · cases hdead
  · split at hdead
    · cases hdead
    · rename_i current hcur
      split at hdead
      · cases hdead
      · split at hdead
        · exact ⟨current, hcur, ‹_›⟩
        · split at hdead
          · cases hdead
          · split at hdead <;> cases hdead

theorem AuthorityStatus.ready_of_awaited {status : AuthorityStatus} {rejected : ℕ}
    (hawa : status.awaited rejected = some (.ok ())) :
    ∃ revision expiresAt, status = .ready revision expiresAt ∧ rejected < revision := by
  cases status with
  | ready revision expiresAt =>
    rw [awaited] at hawa
    split at hawa
    · exact ⟨revision, expiresAt, rfl, ‹_›⟩
    · cases hawa
  | starting | expired | authenticationFailed | stopped => cases hawa

namespace AuthorityCalls.Sound

variable {installer : AuthorityInstaller Keys Credential}
variable {fence next : AuthorityCalls Keys Credential}

theorem not_stopped (hs : fence.Sound installer) {current : CurrentAuthority}
    (hcur : fence.inner.state.current = some current) (hava : current.available = true) :
    .stopped ∉ fence.trace := by
  intro hm
  rw [hs.withdrawn (hs.stopped hm) current hcur] at hava
  cases hava

theorem advance {id : ℕ} {reading : CallReading} {phase : CallPhase}
    (hs : fence.Sound installer) (hp : fence.calls id = some phase)
    (hadv : fence.advance id reading phase = some next) : next.Sound installer := by
  have hlock := hs.toLocked.advance hp hadv
  have hkno := hs.knows id phase hp
  unfold AuthorityCalls.advance at hadv
  cases phase with
  | partsStarted | snapshotStarted | deadlineStarted | waitStarted =>
    cases hadv
    exact hs.expireThen hp rfl trivial
  | partsRead | snapshotRead =>
    cases hadv
    exact hs.expireThen hp rfl hkno
  | partsReading =>
    dsimp only at hadv
    split at hadv
    · cases hadv
    · split at hadv
      · cases hadv
        exact hs.refuse hp _
      · rename_i authorization revision hread
        cases hadv
        exact hs.goto hlock rfl rfl (fun _ hm => .inr hm) rfl rfl
          (hs.bearerOf_readParts hread)
  | partsChecking authorization revision =>
    dsimp only at hadv
    split at hadv
    · cases hadv
    · split at hadv
      · rename_i hstill
        cases hadv
        obtain ⟨current, hcur, -, hava, -⟩ := AuthorityState.current_of_stillCurrent hstill
        exact hs.finish hp rfl (fun heq => by cases heq)
          ⟨hs.not_stopped hcur hava, hkno⟩
      · cases hadv
        exact hs.refuse hp _
  | snapshotReading =>
    dsimp only at hadv
    split at hadv
    · cases hadv
    · split at hadv
      · cases hadv
        exact hs.refuse hp _
      · rename_i snapshot hread
        cases hadv
        exact hs.goto hlock rfl rfl (fun _ hm => .inr hm) rfl rfl
          (hs.snapshotOf_readSnapshot hread)
  | snapshotChecking snapshot =>
    dsimp only at hadv
    split at hadv
    · cases hadv
    · split at hadv
      · cases hadv
        exact hs.refuse hp _
      · rename_i hfnc
        cases hadv
        obtain ⟨-, current, hcur, -, hava, -⟩ := AuthorityState.current_of_validateFence hfnc
        exact hs.finish hp rfl (fun heq => by cases heq)
          ⟨hs.not_stopped hcur hava, hkno⟩
  | deadlineReading rejected stage =>
    dsimp only at hadv
    split at hadv
    · cases hadv
    · split at hadv
      · cases hadv
        exact hs.refuse hp _
      · rename_i hdead
        cases hadv
        obtain ⟨current, hcur, hnew⟩ := AuthorityState.replaced_of_refreshDeadline hdead
        obtain ⟨validated, hm, -⟩ := hs.replaced_of_current hcur
        exact hs.finish hp rfl (fun heq => by cases heq)
          ⟨validated, current.credentialRevision, hnew, hm⟩
      · cases hadv
        exact hs.goto hlock rfl rfl (fun _ hm => .inr hm) rfl rfl
          (by cases stage <;> trivial)
  | awaitingRefreshLock | awaitingUpdateLock =>
    dsimp only at hadv
    repeat' split at hadv
    all_goals
      cases hadv
      try first
        | exact hs.refuse hp _
        | exact hs.goto hlock rfl rfl (fun _ hm => .inr hm) rfl rfl trivial
  | requesting | waiting =>
    dsimp only at hadv
    repeat' split at hadv
    all_goals
      cases hadv
      try first
        | exact hs.refuse hp _
        | exact hs.goto hlock rfl rfl (fun _ hm => .inr hm) rfl rfl trivial
  | waitReading rejected deadline =>
    dsimp only at hadv
    split at hadv
    · cases hadv
      exact hs.goto hlock rfl rfl (fun _ hm => .inr hm) rfl rfl trivial
    · rename_i hawaited
      cases hadv
      obtain ⟨revision, expiresAt, hrdy, hnew⟩ := AuthorityStatus.ready_of_awaited hawaited
      obtain ⟨validated, hm⟩ := hs.announced _ mem_cons_self revision expiresAt hrdy
      exact hs.finish hp rfl (fun heq => by cases heq)
        ⟨validated, revision, hnew, hm⟩
    · cases hadv
      exact hs.refuse hp _

theorem step {action : CallsAction Keys Credential} (hs : fence.Sound installer)
    (hstep : fence.step installer action = some next) : next.Sound installer := by
  cases action with
  | supervisor action =>
    obtain ⟨inner, hinn, rfl⟩ := Option.map_eq_some_iff.mp hstep
    exact hs.supervisor hinn
  | call id call =>
    simp only [AuthorityCalls.step] at hstep
    split at hstep
    · cases hstep
      exact hs.goto (hs.toLocked.call call) rfl rfl (fun _ hm => .inr hm) rfl rfl
        (by cases call <;> trivial)
    · cases hstep
  | advance id reading =>
    obtain ⟨phase, hp, hadv⟩ := Option.bind_eq_some_iff.mp hstep
    exact hs.advance hp hadv
  | drop id =>
    obtain ⟨phase, hp, hdrop⟩ := Option.bind_eq_some_iff.mp hstep
    split at hdrop
    · cases hdrop
      refine hs.of_call (hs.toLocked.finish hp _) rfl rfl
        (fun _ hm => .inr hm) rfl (.inl rfl) (calls_update ?_)
      intro found hf
      cases hf
    · cases hdrop

end AuthorityCalls.Sound

/-- The revision is current, available and unexpired. -/
def AuthorityState.IsCurrent (state : AuthorityState Keys) (revision : ℕ) (now : DateTime) :
    Prop :=
  ∃ current, state.current = some current ∧ current.credentialRevision = revision ∧
    current.available = true ∧ now < current.credentialExpiresAt

/-- The revision that a returning call has read. -/
def AuthorityEvent.disclosure : AuthorityEvent Keys Credential → Option (ℕ × ℕ)
  | .authorized call _ revision => some (call, revision)
  | .disclosed call snapshot => some (call, snapshot.credentialRevision)
  | _ => none

theorem AuthorityInner.events_disclosure (inner : AuthorityInner Keys Credential)
    (action : AuthorityAction Keys Credential) (event : AuthorityEvent Keys Credential)
    (hm : event ∈ inner.events action) : event.disclosure = none := by
  cases action with
  | advance index reading =>
    rw [events] at hm
    cases hf : inner.operations[index]? with
    | none =>
      rw [hf] at hm
      cases hm
    | some operation =>
      rw [hf, Option.elim_some] at hm
      unfold operationEvents at hm
      repeat' split at hm
      all_goals
        first
          | cases mem_singleton.mp hm
            rfl
          | cases hm
  | start | drop | publish | cancelShutdown => cases hm

theorem AuthorityCalls.step_disclosure {installer : AuthorityInstaller Keys Credential}
    {fence next : AuthorityCalls Keys Credential} {action : CallsAction Keys Credential}
    (hs : fence.step installer action = some next) {event : AuthorityEvent Keys Credential}
    (htr : next.trace = fence.trace ++ [event]) {call : ℕ}
    (hev : event.disclosure = some (call, revision)) :
    ∃ reading, action = .advance call reading ∧
      fence.inner.state.IsCurrent revision reading.now := by
  have hqui : next.trace ≠ fence.trace := by
    intro hsm
    rw [hsm] at htr
    exact cons_ne_nil event [] (self_eq_append_right.mp htr)
  cases action with
  | supervisor action =>
    obtain ⟨inner, -, rfl⟩ := Option.map_eq_some_iff.mp hs
    have hm : event ∈ fence.inner.events action := by
      rw [append_cancel_left htr]
      exact mem_cons_self
    rw [AuthorityInner.events_disclosure fence.inner action event hm] at hev
    cases hev
  | call id call =>
    simp only [step] at hs
    split at hs
    · cases hs
      exact absurd rfl hqui
    · cases hs
  | drop id =>
    obtain ⟨phase, -, hdrop⟩ := Option.bind_eq_some_iff.mp hs
    split at hdrop
    · cases hdrop
      exact absurd (append_nil _) hqui
    · cases hdrop
  | advance id reading =>
    obtain ⟨phase, -, hadv⟩ := Option.bind_eq_some_iff.mp hs
    have hfin : ∀ added : AuthorityEvent Keys Credential,
        next = fence.finish id phase [added] → added = event := by
      rintro added rfl
      exact singleton_inj.mp (append_cancel_left htr)
    cases phase with
    | partsChecking authorization found =>
      simp only [advance] at hadv
      split at hadv
      · cases hadv
      · split at hadv
        · rename_i hsti
          cases hfin _ (Option.some.inj hadv).symm
          cases hev
          exact ⟨reading, rfl, AuthorityState.current_of_stillCurrent hsti⟩
        · cases hfin _ (Option.some.inj hadv).symm
          cases hev
    | snapshotChecking snapshot =>
      simp only [advance] at hadv
      split at hadv
      · cases hadv
      · split at hadv
        · cases hfin _ (Option.some.inj hadv).symm
          cases hev
        · rename_i hfnc
          cases hfin _ (Option.some.inj hadv).symm
          cases hev
          exact ⟨reading, rfl, (AuthorityState.current_of_validateFence hfnc).2⟩
    | partsStarted | partsReading | partsRead | snapshotStarted | snapshotReading
    | snapshotRead | deadlineStarted | deadlineReading | awaitingRefreshLock
    | awaitingUpdateLock | requesting | waitStarted | waitReading | waiting =>
      simp only [advance] at hadv
      repeat' split at hadv
      all_goals
        first
          | cases hadv
            done
          | exact absurd (congrArg AuthorityCalls.trace (Option.some.inj hadv).symm) hqui
          | cases hfin _ (Option.some.inj hadv).symm
            cases hev

theorem AuthorityInner.advance_wrong {installer : AuthorityInstaller Keys Credential}
    {inner next : AuthorityInner Keys Credential} {index : ℕ} {reading : Reading}
    {update : AuthorityUpdate Keys Credential}
    (hf : inner.operations[index]? = some (.applyValidating update))
    (hwro : update.Wrong installer reading.now inner.state)
    (hs : inner.step installer (.advance index reading) = some next) :
    next.state = inner.state ∧ next.operations = inner.operations.eraseIdx index ∧
      next.statuses = inner.statuses ∧ inner.events (.advance index reading) = [] := by
  obtain ⟨operation, hop, hadv⟩ := Option.bind_eq_some_iff.mp hs
  cases hf.symm.trans hop
  simp only [advance] at hadv
  split at hadv
  · cases hadv
  · split at hadv
    · cases hadv
      refine ⟨rfl, rfl, rfl, ?_⟩
      rw [events, hf]
      rfl
    · rename_i hvalid
      exact absurd hwro (AuthorityInstaller.validateUpdate_ok hvalid).1

/-- Authority revisions are fenced in every run of updates, expiries, stops and calls. -/
theorem authority_revisions_fenced (installer : AuthorityInstaller Keys Credential)
    (earlyRefreshTimeout : Duration) (actions : List (CallsAction Keys Credential))
    (fence : AuthorityCalls Keys Credential)
    (hrun : runSteps (AuthorityCalls.step installer)
      (AuthorityCalls.new Keys Credential earlyRefreshTimeout) actions = some fence) :
    ((replacements fence.trace).map Prod.snd = List.range' 1 (replacements fence.trace).length ∧
      (replacements fence.trace).Pairwise fun first second =>
        first.1.claims.iat < second.1.claims.iat) ∧
    (∀ current, fence.inner.state.current = some current → ∃ validated,
      (replacements fence.trace).getLast? = some (validated, current.credentialRevision) ∧
        validated.claims = current.claims ∧ validated.authorization = current.authorization) ∧
    (∀ index reading update next, fence.inner.operations[index]? = some (.applyValidating update) →
      update.Wrong installer reading.now fence.inner.state →
      fence.step installer (.supervisor (.advance index reading)) = some next →
        next.inner.state = fence.inner.state ∧
          next.inner.operations = fence.inner.operations.eraseIdx index ∧
          next.trace = fence.trace) ∧
    (∀ action next event call revision, fence.step installer action = some next →
      next.trace = fence.trace ++ [event] → event.disclosure = some (call, revision) →
        ∃ reading, action = .advance call reading ∧
          fence.inner.state.IsCurrent revision reading.now) ∧
    ∀ before event after, fence.trace = before ++ event :: after →
      event.Fenced installer before := by
  have hsound : fence.Sound installer := by
    refine invariant_of_run (AuthorityCalls.Sound.new installer earlyRefreshTimeout) ?_ hrun
    intro state action next hstate hstep
    exact hstate.step hstep
  refine ⟨⟨?_, hsound.issued⟩, ?_, ?_, ?_, hsound.fenced⟩
  · calc (replacements fence.trace).map Prod.snd
        = List.range' 1 fence.inner.state.revision := hsound.revisions
      _ = List.range' 1 (replacements fence.trace).length := by
        rw [← length_map (f := Prod.snd), hsound.revisions, length_range']
  · intro current hcurrent
    obtain ⟨validated, hlast, hclaims, hauthorization, -⟩ := hsound.latest current hcurrent
    exact ⟨validated, hlast, hclaims, hauthorization⟩
  · intro index reading update next hfound hwrong hstep
    obtain ⟨inner, hinner, rfl⟩ := Option.map_eq_some_iff.mp hstep
    obtain ⟨hstate, hoperations, -, hevents⟩ := AuthorityInner.advance_wrong hfound hwrong hinner
    refine ⟨hstate, hoperations, ?_⟩
    dsimp only
    rw [hevents, append_nil]
  · intro action next event call revision hstep htrace hevent
    exact AuthorityCalls.step_disclosure hstep htrace hevent

/-- An update, and a header and a refresh after it. -/
def replacedAndRead : List (CallsAction Unit Unit) :=
  CallsAction.supervisor (.start (.applyWaiting sampleAuthorityUpdate)) ::
    List.replicate 8 (CallsAction.supervisor (.advance 0 ⟨1000000000, true⟩)) ++
      [CallsAction.supervisor (.publish 0), CallsAction.call 0 .authorizationParts,
        CallsAction.call 1 (.refreshAfterUnauthorized 0)] ++
      List.replicate 4 (CallsAction.advance 0 ⟨1000000000, 0, none, false⟩) ++
      List.replicate 2 (CallsAction.advance 1 ⟨1000000000, 0, none, false⟩)

theorem authority_revisions_fenced_sample : ∃ fence : AuthorityCalls Unit Unit,
      runSteps (AuthorityCalls.step sampleInstaller) (AuthorityCalls.new Unit Unit 10000000000)
        replacedAndRead = some fence ∧
      .authorized 0 "Bearer" 1 ∈ fence.trace ∧ .refreshed 1 0 ∈ fence.trace ∧
      ∀ before event after, fence.trace = before ++ event :: after →
        event.Fenced sampleInstaller before := by
  have htested : ((runSteps (AuthorityCalls.step sampleInstaller)
      (AuthorityCalls.new Unit Unit 10000000000) replacedAndRead).map fun fence =>
        decide (.authorized 0 "Bearer" 1 ∈ fence.trace ∧ .refreshed 1 0 ∈ fence.trace)) =
      some true := by decide +kernel
  obtain ⟨fence, hrun, hfound⟩ := Option.map_eq_some_iff.mp htested
  obtain ⟨hauthorized, hrefreshed⟩ := of_decide_eq_true hfound
  exact ⟨fence, hrun, hauthorized, hrefreshed,
    (authority_revisions_fenced sampleInstaller 10000000000 replacedAndRead fence hrun).2.2.2.2⟩

end AukiSdk.Authority
