import AukiSdk.Authority.AuthorityCalls

/-!
# Revisions fence the calls on the authority

What a call returns belongs to a revision that was current while it ran.
-/

namespace AukiSdk.Authority

open AukiSdk.Foundation List Function
open AukiSdk.Net

variable {Keys Credential : Type}

/-- Domain, peer, key lineage, signed expiry or issued-at is wrong. -/
def AuthorityUpdate.Wrong (installer : AuthorityInstaller Keys Credential) (now : DateTime)
    (state : AuthorityState Keys) (update : AuthorityUpdate Keys Credential) : Prop :=
  update.domainId ≠ installer.domainId ∨ update.peerId ≠ installer.peerId ∨
  (∃ keys error, state.installedKeys = some keys ∧
    installer.validateSuccessor keys update.verificationKeys = .error error) ∨
  ∃ verify claims, installer.verifier update.verificationKeys = .ok verify ∧
    verify update.credential = .ok claims ∧
    (claims.peerId ≠ installer.peerId ∨ installer.domainId ∉ claims.domainIds ∨
      exactExpiration now update.credentialExpiresAt ≠ .ok claims.exp ∨
      ∃ current, state.current = some current ∧ current.claims ≠ claims ∧
        claims.iat ≤ current.claims.iat)

/-- The bearer of the update, and an issued-at after the current one. -/
def ValidatedAuthorityUpdate.Advances (installer : AuthorityInstaller Keys Credential)
    (current : Option CurrentAuthority) (validated : ValidatedAuthorityUpdate Keys Credential) :
    Prop :=
  installer.sensitiveBearerHeader validated.credential = .ok validated.authorization ∧
    (validated.equivalentCredential = false → ∀ found, current = some found →
      found.claims.iat < validated.claims.iat)

variable {installer : AuthorityInstaller Keys Credential} {state : AuthorityState Keys}
  {validated : ValidatedAuthorityUpdate Keys Credential}

theorem AuthorityInstaller.validateUpdate_ok {now : DateTime}
    {update : AuthorityUpdate Keys Credential}
    (hvalid : installer.validateUpdate now state update = .ok validated) :
    ¬ update.Wrong installer now state ∧ validated.Advances installer state.current := by
  unfold validateUpdate at hvalid
  simp only [Checks.bind_eq_ok, Checks.mapError_eq_ok, pure, Except.pure, Except.ok.injEq] at hvalid
  obtain ⟨⟨⟩, hdom, ⟨⟩, hpeer, expiration, hexn, ⟨⟩, -, ⟨⟩, -, ⟨⟩, hkeys, verify,
    hver, claims, hclm, ⟨⟩, hsgn, ⟨⟩, hsig, ⟨⟩, hexp, authorization,
    haut, ⟨⟩, hiat, rfl⟩ := hvalid
  rw [Checks.require_eq_ok] at hdom hpeer hsgn hsig hexp
  rw [Checks.optional_eq_ok] at hkeys hiat
  refine ⟨?_, haut, ?_⟩
  · rintro (hwro | hwro | ⟨keys, error, hinst, hwro⟩ |
      ⟨verify', claims', hverifier', hclaims', hwro⟩)
    · exact hwro hdom
    · exact hwro hpeer
    · rw [Checks.mapError_eq_ok.mp (hkeys keys hinst)] at hwro
      cases hwro
    · cases hver.symm.trans hverifier'
      cases hclm.symm.trans hclaims'
      obtain hwro | hwro | hwro | ⟨current, hcur, hne, hle⟩ := hwro
      · exact hwro hsgn
      · exact hwro hsig
      · exact hwro (hexn.trans (congrArg Except.ok hexp.symm))
      · have hchk := Checks.require_eq_ok.mp (hiat current hcur)
        rw [hcur, Option.any_some, decide_eq_true_eq] at hchk
        exact hchk.elim hne (Nat.not_lt.mpr hle)
  · intro hdist current hcur
    have hchk := Checks.require_eq_ok.mp (hiat current hcur)
    rw [show state.current.any _ = false from hdist] at hchk
    exact hchk.resolve_left Bool.false_ne_true

/-- The operations that hold the update lock. -/
def Operation.updating : Operation Keys Credential → Bool
  | .applyStarted _ => true
  | .applyValidating _ => true
  | .applyInstallingKeys _ => true
  | .applyStoringKeys _ => true
  | .applyKeysInstalled _ => true
  | .applyInstallingCredential _ => true
  | .applyCommitting _ => true
  | _ => false

def Publisher.updating : Publisher → Bool
  | .apply => true
  | _ => false

@[simp]
theorem Publisher.updating_apply : Publisher.apply.updating = true := rfl

@[simp]
theorem Publisher.updating_of_ne {publisher : Publisher} (hne : publisher ≠ .apply) :
    publisher.updating = false := by
  cases publisher with
  | apply => exact absurd rfl hne
  | expire | stop | fail => rfl

/-- How many updates hold the update lock. -/
def AuthorityInner.updaters (inner : AuthorityInner Keys Credential) : ℕ :=
  inner.operations.countP Operation.updating +
    inner.pending.countP fun publication => publication.2.updating

/-- What a step does to the update lock. -/
inductive AuthorityInner.MovesLock (inner next : AuthorityInner Keys Credential) : Prop
  | kept (hupdaters : next.updaters = inner.updaters)
      (hlocked : next.updateLocked = inner.updateLocked)
  | acquired (hupdaters : next.updaters = inner.updaters + 1)
      (hfree : inner.updateLocked = false) (hlocked : next.updateLocked = true)
  | released (hupdaters : inner.updaters = next.updaters + 1)
      (hlocked : next.updateLocked = false)

/-- Taking an operation out of the list. -/
def AuthorityInner.without (inner : AuthorityInner Keys Credential) (index : ℕ) :
    AuthorityInner Keys Credential :=
  { inner with operations := inner.operations.eraseIdx index }

theorem countP_eraseIdx {α : Type*} {list : List α} {index : ℕ} {found : α} (test : α → Bool)
    (hf : list[index]? = some found) :
    list.countP test = (list.eraseIdx index).countP test + if test found = true then 1 else 0 := by
  obtain ⟨hlt, rfl⟩ := List.getElem?_eq_some_iff.mp hf
  rw [← (getElem_cons_eraseIdx_perm hlt).countP_eq, countP_cons]

variable {inner : AuthorityInner Keys Credential} {operation : Operation Keys Credential}

theorem AuthorityInner.updaters_without {index : ℕ}
    (hf : inner.operations[index]? = some operation) :
    inner.updaters =
      (inner.without index).updaters + if operation.updating = true then 1 else 0 := by
  rw [updaters, updaters, countP_eraseIdx Operation.updating hf]
  simp only [without]
  omega

theorem AuthorityInner.advance_lock {base next : AuthorityInner Keys Credential} {reading : Reading}
    (hadv : base.advance installer reading operation = some next) :
    (next.updaters = base.updaters + (if operation.updating = true then 1 else 0) ∧
      next.updateLocked = base.updateLocked) ∨
    (operation.updating = false ∧ next.updaters = base.updaters + 1 ∧
      base.updateLocked = false ∧ next.updateLocked = true) ∨
    (operation.updating = true ∧ next.updaters = base.updaters ∧ next.updateLocked = false) := by
  cases operation
  all_goals
    simp only [advance] at hadv
    repeat' split at hadv
  all_goals
    cases hadv
    try simp [*, updaters, applyReturns, Operation.updating, countP_cons]
    try omega

theorem AuthorityInner.step_lock {next : AuthorityInner Keys Credential}
    {action : AuthorityAction Keys Credential} (hs : inner.step installer action = some next) :
    inner.MovesLock next := by
  cases action with
  | start operation =>
    simp only [step] at hs
    split at hs
    · rename_i hc
      cases hs
      refine .kept ?_ rfl
      cases operation <;> simp_all [updaters, Operation.isCall, Operation.updating]
    · cases hs
  | advance index reading =>
    obtain ⟨operation, hf, hadv⟩ := Option.bind_eq_some_iff.mp hs
    have hupds := inner.updaters_without hf
    obtain ⟨hn, hlck⟩ | ⟨hnot, hn, hfree, hlck⟩ | ⟨hupd, hn, hlck⟩ := advance_lock hadv
    · exact .kept (hn.trans hupds.symm) hlck
    · rw [hnot] at hupds
      exact .acquired (hn.trans (congrArg (· + 1) hupds.symm)) hfree hlck
    · rw [if_pos hupd] at hupds
      exact .released (hupds.trans (congrArg (· + 1) hn.symm)) hlck
  | drop index =>
    obtain ⟨operation, hf, hdrop⟩ := Option.bind_eq_some_iff.mp hs
    obtain ⟨held, hheld, rfl⟩ := Option.map_eq_some_iff.mp hdrop
    have hupds := inner.updaters_without hf
    have hsm : operation.updating = held := by
      cases operation <;> cases hheld <;> rfl
    rw [hsm] at hupds
    cases held with
    | true => exact .released hupds (Bool.and_false _)
    | false => exact .kept hupds.symm (Bool.and_true _)
  | publish index =>
    obtain ⟨publication, hf, rfl⟩ := Option.map_eq_some_iff.mp hs
    have hcnt := countP_eraseIdx (fun publication => publication.2.updating) hf
    obtain ⟨status, publisher⟩ := publication
    cases publisher with
    | apply =>
      refine .released ?_ rfl
      rw [updaters, hcnt]
      exact (Nat.add_assoc _ _ _).symm
    | expire | stop | fail =>
      refine .kept ?_ rfl
      rw [updaters, updaters, hcnt]
      simp [published, Operation.updating]
  | cancelShutdown =>
    cases hs
    exact .kept rfl rfl

/-- What an operation past validation has checked. -/
def Operation.Checked (installer : AuthorityInstaller Keys Credential)
    (current : Option CurrentAuthority) : Operation Keys Credential → Prop
  | .applyInstallingKeys validated => validated.Advances installer current
  | .applyStoringKeys validated => validated.Advances installer current
  | .applyKeysInstalled validated => validated.Advances installer current
  | .applyInstallingCredential validated =>
    validated.Advances installer current ∧ validated.equivalentCredential = false
  | .applyCommitting validated =>
    validated.Advances installer current ∧ validated.equivalentCredential = false
  | _ => True

theorem Operation.checked_of_not_updating {current : Option CurrentAuthority}
    (hidle : operation.updating = false) : operation.Checked installer current := by
  cases operation with
  | applyWaiting | expireStarted | expireAt | stopStarted | cancelling | failStarted => trivial
  | applyStarted | applyValidating => trivial
  | applyInstallingKeys | applyStoringKeys | applyKeysInstalled | applyInstallingCredential
  | applyCommitting => cases hidle

theorem Operation.Checked.of_claims {current current' : Option CurrentAuthority}
    (hchk : operation.Checked installer current) (hclm : ∀ found', current' = some found' →
      ∃ found, current = some found ∧ found.claims = found'.claims) :
    operation.Checked installer current' := by
  have hadvances : ∀ validated : ValidatedAuthorityUpdate Keys Credential,
      validated.Advances installer current → validated.Advances installer current' := by
    intro validated hval
    refine ⟨hval.1, ?_⟩
    intro hdist found' hfound'
    obtain ⟨found, hf, hsm⟩ := hclm found' hfound'
    rw [← hsm]
    exact hval.2 hdist found hf
  cases operation with
  | applyInstallingKeys validated | applyStoringKeys validated | applyKeysInstalled validated =>
    exact hadvances validated hchk
  | applyInstallingCredential validated | applyCommitting validated =>
    exact ⟨hadvances validated hchk.1, hchk.2⟩
  | applyWaiting | applyStarted | applyValidating | expireStarted | expireAt | stopStarted
  | cancelling | failStarted => trivial

/-- The published status and the ones to be published. -/
def AuthorityInner.statuses (inner : AuthorityInner Keys Credential) : List AuthorityStatus :=
  inner.status :: inner.pending.map Prod.fst

/-- The revision of the current authority, zero before the first. -/
def AuthorityState.revision (state : AuthorityState Keys) : ℕ :=
  (state.current.map CurrentAuthority.credentialRevision).getD 0

/-- What a step of the supervisor does, and what it records. -/
inductive AuthorityInner.Effect (installer : AuthorityInstaller Keys Credential)
    (inner next : AuthorityInner Keys Credential) (events : List (AuthorityEvent Keys Credential)) :
    Prop
  | quiet (hevents : events = []) (hcurrent : next.state.current = inner.state.current)
      (hstopped : next.state.stopped = inner.state.stopped)
      (hstatuses : ∀ status ∈ next.statuses, status ∈ inner.statuses)
      (hoperations : ∀ operation ∈ next.operations, operation ∈ inner.operations ∨
        operation.Checked installer inner.state.current)
  | replaced (validated : ValidatedAuthorityUpdate Keys Credential)
      (hevents : events = [.replaced validated (inner.state.revision + 1)])
      (hadvances : validated.Advances installer inner.state.current)
      (hdistinct : validated.equivalentCredential = false)
      (hrunning : inner.state.stopped = false)
      (hstopped : next.state.stopped = false)
      (hcurrent : next.state.current = some ⟨inner.state.revision + 1, validated.claims,
        validated.authorization, validated.credentialExpiresAt, validated.renewAt, true⟩)
      (hstatuses : ∀ status ∈ next.statuses, status ∈ inner.statuses ∨
        status = .ready (inner.state.revision + 1) validated.credentialExpiresAt)
      (hoperations : ∀ operation ∈ next.operations, operation ∈ inner.operations)
      (hbusy : next.operations.countP Operation.updating < inner.updaters)
  | withdrawn (hevents : events = [] ∨ events = [.stopped] ∧ next.state.stopped = true)
      (hcurrent : next.state.current =
        inner.state.current.map fun current => { current with available := false })
      (hstopped : inner.state.stopped = true → next.state.stopped = true)
      (hstatuses : ∀ status ∈ next.statuses, status ∈ inner.statuses ∨
        ∀ revision expiresAt, status ≠ .ready revision expiresAt)
      (hoperations : ∀ operation ∈ next.operations, operation ∈ inner.operations)

theorem AuthorityState.commit_ok {next : AuthorityState Keys} {shutdown : Bool}
    {status : AuthorityStatus} (hcom : state.commit shutdown validated = (next, .ok status)) :
    state.stopped = false ∧ next.stopped = false ∧
      status = .ready (state.revision + 1) validated.credentialExpiresAt ∧
      next.current = some ⟨state.revision + 1, validated.claims, validated.authorization,
        validated.credentialExpiresAt, validated.renewAt, true⟩ := by
  unfold commit at hcom
  split at hcom
  · cases hcom
  · rename_i hrun
    rw [not_or, Bool.not_eq_true] at hrun
    split at hcom
    · cases hcom
    · rename_i revision hrev
      have hn : revision = state.revision + 1 := by
        rw [AuthorityState.revision]
        cases hcur : state.current with
        | none =>
          rw [hcur] at hrev
          cases hrev
          rfl
        | some current =>
          rw [hcur, Option.map_some, nextAuthorityRevision] at hrev
          split at hrev
          · cases hrev
            rfl
          · cases hrev
      cases hcom
      rw [hn]
      exact ⟨hrun.1, hrun.1, rfl, rfl⟩

theorem AuthorityState.expire_some {next : AuthorityState Keys} {now : DateTime}
    {status : AuthorityStatus} (hexpire : state.expire now = (next, some status)) :
    next.stopped = state.stopped ∧
      next.current = state.current.map (fun current => { current with available := false }) ∧
      ∀ revision expiresAt, status ≠ .ready revision expiresAt := by
  unfold expire at hexpire
  split at hexpire
  · cases hexpire
  · split at hexpire
    · cases hexpire
    · rename_i current hcur
      split at hexpire
      · cases hexpire
        refine ⟨rfl, ?_, by simp⟩
        rw [hcur]
        rfl
      · cases hexpire

theorem AuthorityInner.mem_statuses_append {inner : AuthorityInner Keys Credential}
    {next : AuthorityInner Keys Credential} {added status : AuthorityStatus}
    {publisher : Publisher} (hm : status ∈ next.statuses) (hstat : next.status = inner.status)
    (hpend : next.pending = inner.pending ++ [(added, publisher)]) :
    status ∈ inner.statuses ∨ status = added := by
  rw [statuses, hstat, hpend, map_append, ← cons_append, mem_append] at hm
  exact hm.imp_right mem_singleton.mp

theorem AuthorityInner.advance_effect {next : AuthorityInner Keys Credential} {index : ℕ}
    {reading : Reading} (hf : inner.operations[index]? = some operation)
    (hchk : operation.Checked installer inner.state.current)
    (hadv : (inner.without index).advance installer reading operation = some next) :
    inner.Effect installer next (inner.operationEvents operation) := by
  have hwit : ∀ other ∈ (inner.without index).operations, other ∈ inner.operations :=
    fun other ho => mem_of_mem_eraseIdx ho
  cases operation with
  | applyCommitting validated =>
    simp only [advance] at hadv
    split at hadv
    · cases hadv
    · split at hadv
      · rename_i state error hcom
        cases hadv
        refine .quiet ?_ rfl rfl (fun _ hstat => hstat)
          (fun other ho => .inl (hwit other ho))
        rw [operationEvents, show inner.state.commit inner.shutdown validated = _ from hcom]
      · rename_i state status hcom
        cases hadv
        obtain ⟨hrun, hstp, rfl, hcur⟩ := AuthorityState.commit_ok hcom
        refine .replaced validated ?_ hchk.1 hchk.2 hrun hstp hcur
          (fun _ hm => mem_statuses_append hm rfl rfl) hwit ?_
        · rw [operationEvents, show inner.state.commit inner.shutdown validated = _ from hcom]
          rfl
        · rw [inner.updaters_without hf]
          exact Nat.lt_succ_of_le (Nat.le_add_right _ _)
  | expireAt now =>
    simp only [advance] at hadv
    split at hadv
    · cases hadv
    · split at hadv
      · cases hadv
        exact .quiet rfl rfl rfl (fun _ hstat => hstat)
          (fun other ho => .inl (hwit other ho))
      · rename_i state status hexpire
        cases hadv
        obtain ⟨hstp, hcur, hrdy⟩ := AuthorityState.expire_some hexpire
        refine .withdrawn (.inl rfl) hcur (fun hstop => hstp.trans hstop) ?_ hwit
        intro found hm
        refine (@mem_statuses_append _ _ inner _ _ _ _ hm rfl rfl).imp_right ?_
        rintro rfl
        exact hrdy
  | stopStarted | failStarted kind =>
    simp only [advance] at hadv
    split at hadv
    · cases hadv
    · split at hadv
      · rename_i hstop
        cases hadv
        refine .quiet (if_pos hstop) rfl rfl (fun _ hstat => hstat) ?_
        intro other ho
        first
          | exact .inl (hwit other ho)
          | exact (mem_cons.mp ho).elim (fun heq => .inr (heq ▸ trivial))
              (fun hrest => .inl (hwit other hrest))
      · rename_i hrun
        cases hadv
        refine .withdrawn (.inr ⟨if_neg hrun, rfl⟩) rfl (fun _ => rfl) ?_ hwit
        intro found hm
        refine (@mem_statuses_append _ _ inner _ _ _ _ hm rfl rfl).imp_right ?_
        rintro rfl revision expiresAt
        simp
  | applyWaiting | applyStarted | applyInstallingKeys | applyStoringKeys
  | applyKeysInstalled | applyInstallingCredential | expireStarted | cancelling
  | applyValidating =>
    -- at most one operation follows, and it carries what this one has checked
    simp only [advance] at hadv
    repeat' split at hadv
    all_goals
      cases hadv
      try
        refine .quiet rfl rfl rfl (fun _ hstat => hstat) ?_
        intro other ho
        first
          | exact .inl (hwit other ho)
          | refine (mem_cons.mp ho).elim (fun heq => .inr ?_)
              (fun hrest => .inl (hwit other hrest))
            rw [heq]
            first
              | trivial
              | exact hchk
              | exact (AuthorityInstaller.validateUpdate_ok ‹_›).2
              | exact ⟨hchk, by simp_all⟩

theorem AuthorityInner.step_effect {next : AuthorityInner Keys Credential}
    {action : AuthorityAction Keys Credential}
    (hchk : ∀ operation ∈ inner.operations, operation.Checked installer inner.state.current)
    (hs : inner.step installer action = some next) :
    inner.Effect installer next (inner.events action) := by
  cases action with
  | start operation =>
    simp only [step] at hs
    split at hs
    · rename_i hc
      cases hs
      refine .quiet rfl rfl rfl (fun _ hstat => hstat) ?_
      intro other ho
      refine (mem_cons.mp ho).symm.imp id ?_
      rintro rfl
      cases other <;> trivial
    · cases hs
  | advance index reading =>
    obtain ⟨operation, hf, hadv⟩ := Option.bind_eq_some_iff.mp hs
    have heff := advance_effect hf
      (hchk operation (mem_of_getElem? hf)) hadv
    rw [events, hf]
    exact heff
  | drop index =>
    obtain ⟨operation, hf, hdrop⟩ := Option.bind_eq_some_iff.mp hs
    obtain ⟨held, hheld, rfl⟩ := Option.map_eq_some_iff.mp hdrop
    exact .quiet rfl rfl rfl (fun _ hstat => hstat)
      (fun other ho => .inl (mem_of_mem_eraseIdx ho))
  | publish index =>
    obtain ⟨publication, hf, rfl⟩ := Option.map_eq_some_iff.mp hs
    obtain ⟨hstat, hpend, hsta⟩ := published_fields
      { inner with pending := inner.pending.eraseIdx index } publication.1 publication.2
    refine .quiet rfl (congrArg AuthorityState.current hsta)
      (congrArg AuthorityState.stopped hsta) ?_ ?_
    · intro status hm
      rw [statuses, hstat, hpend] at hm
      apply mem_cons_of_mem
      obtain rfl | hrest := mem_cons.mp hm
      · exact mem_map_of_mem (mem_of_getElem? hf)
      · exact (eraseIdx_sublist inner.pending index).map Prod.fst |>.mem hrest
    · intro other ho
      obtain ⟨status, publisher⟩ := publication
      cases publisher with
      | apply | expire => exact .inl ho
      | stop | fail =>
        exact (mem_cons.mp ho).elim (fun heq => .inr (heq ▸ trivial)) .inl
  | cancelShutdown =>
    cases hs
    exact .quiet rfl rfl rfl (fun _ hstat => hstat) (fun other ho => .inl ho)

def AuthorityEvent.replacement :
    AuthorityEvent Keys Credential → Option (ValidatedAuthorityUpdate Keys Credential × ℕ)
  | .replaced validated revision => some (validated, revision)
  | _ => none

/-- The `Replaced` outcomes, oldest first. -/
def replacements (trace : List (AuthorityEvent Keys Credential)) :
    List (ValidatedAuthorityUpdate Keys Credential × ℕ) :=
  trace.filterMap AuthorityEvent.replacement

variable {trace : List (AuthorityEvent Keys Credential)}

theorem mem_replacements {revision : ℕ} :
    (validated, revision) ∈ replacements trace ↔ .replaced validated revision ∈ trace := by
  rw [replacements, mem_filterMap]
  constructor
  · rintro ⟨event, hm, hev⟩
    cases event <;> cases hev
    exact hm
  · intro hm
    exact ⟨_, hm, rfl⟩

/-- The revision was created before, by an update with this bearer. -/
def BearerOf (installer : AuthorityInstaller Keys Credential)
    (before : List (AuthorityEvent Keys Credential)) (authorization : String) (revision : ℕ) :
    Prop :=
  ∃ validated : ValidatedAuthorityUpdate Keys Credential, .replaced validated revision ∈ before ∧
    validated.authorization = authorization ∧
    installer.sensitiveBearerHeader validated.credential = .ok authorization

/-- The revision was created before, by an update with these claims. -/
def SnapshotOf (before : List (AuthorityEvent Keys Credential))
    (snapshot : AuthorizationSnapshot) : Prop :=
  ∃ validated : ValidatedAuthorityUpdate Keys Credential,
    .replaced validated snapshot.credentialRevision ∈ before ∧
    validated.claims = snapshot.claims ∧
    validated.credentialExpiresAt = snapshot.credentialExpiresAt

/-- What an event says about the events before it. -/
def AuthorityEvent.Fenced (installer : AuthorityInstaller Keys Credential)
    (before : List (AuthorityEvent Keys Credential)) : AuthorityEvent Keys Credential → Prop
  | .replaced _ _ => .stopped ∉ before
  | .authorized _ authorization revision =>
    .stopped ∉ before ∧ BearerOf installer before authorization revision
  | .disclosed _ snapshot => .stopped ∉ before ∧ SnapshotOf before snapshot
  | .refreshed _ rejected =>
    ∃ validated revision, rejected < revision ∧ .replaced validated revision ∈ before
  | .stopped => True
  | .refused _ _ => True

/-- What a call has read. -/
def CallPhase.Knows (installer : AuthorityInstaller Keys Credential)
    (trace : List (AuthorityEvent Keys Credential)) : CallPhase → Prop
  | .partsRead authorization revision => BearerOf installer trace authorization revision
  | .partsChecking authorization revision => BearerOf installer trace authorization revision
  | .snapshotRead snapshot => SnapshotOf trace snapshot
  | .snapshotChecking snapshot => SnapshotOf trace snapshot
  | _ => True

theorem BearerOf.append {authorization : String} {revision : ℕ}
    (hbea : BearerOf installer trace authorization revision)
    (events : List (AuthorityEvent Keys Credential)) :
    BearerOf installer (trace ++ events) authorization revision := by
  obtain ⟨validated, hm, hval⟩ := hbea
  exact ⟨validated, mem_append_left events hm, hval⟩

theorem SnapshotOf.append {snapshot : AuthorizationSnapshot} (hsnap : SnapshotOf trace snapshot)
    (events : List (AuthorityEvent Keys Credential)) : SnapshotOf (trace ++ events) snapshot := by
  obtain ⟨validated, hm, hval⟩ := hsnap
  exact ⟨validated, mem_append_left events hm, hval⟩

theorem CallPhase.Knows.append {phase : CallPhase} (hkno : phase.Knows installer trace)
    (events : List (AuthorityEvent Keys Credential)) :
    phase.Knows installer (trace ++ events) := by
  cases phase with
  | partsRead authorization revision | partsChecking authorization revision =>
    exact BearerOf.append hkno events
  | snapshotRead snapshot | snapshotChecking snapshot => exact SnapshotOf.append hkno events
  | partsStarted | partsReading | snapshotStarted | snapshotReading | deadlineStarted
  | deadlineReading | awaitingRefreshLock | awaitingUpdateLock | requesting | waitStarted
  | waitReading | waiting => trivial

namespace AuthorityCalls

def Holds (fence : AuthorityCalls Keys Credential) (id : ℕ) : Prop :=
  ∃ phase, fence.calls id = some phase ∧ phase.holdsUpdate = true

/-- One update or one call holds the update lock. -/
structure Locked (fence : AuthorityCalls Keys Credential) : Prop where
  one : fence.inner.updaters ≤ 1
  idle : 0 < fence.inner.updaters → ∀ id, ¬ fence.Holds id
  locked : 0 < fence.inner.updaters ∨ (∃ id, fence.Holds id) → fence.inner.updateLocked = true
  single : ∀ id id', fence.Holds id → fence.Holds id' → id = id'

namespace Locked

variable {fence next : AuthorityCalls Keys Credential}

theorem free (hlck : fence.Locked) (hfree : fence.inner.updateLocked = false) :
    fence.inner.updaters = 0 ∧ ∀ id, ¬ fence.Holds id := by
  have hnone : ¬ (0 < fence.inner.updaters ∨ ∃ id, fence.Holds id) := by
    intro hheld
    rw [hlck.locked hheld] at hfree
    cases hfree
  rw [not_or, not_exists] at hnone
  exact ⟨Nat.eq_zero_of_not_pos hnone.1, hnone.2⟩

theorem of_free (hupds : next.inner.updaters = 0) (hhld : ∀ id, ¬ next.Holds id) :
    next.Locked where
  one := by omega
  idle hpos := by omega
  locked hheld := by
    obtain hpos | ⟨id, hid⟩ := hheld
    · omega
    · exact absurd hid (hhld id)
  single id _ hid := absurd hid (hhld id)

theorem kept (hlck : fence.Locked) (hupds : next.inner.updaters = fence.inner.updaters)
    (hlock : next.inner.updateLocked = fence.inner.updateLocked)
    (hhld : ∀ id, next.Holds id → fence.Holds id) : next.Locked where
  one := hupds ▸ hlck.one
  idle hpos id hid := hlck.idle (hupds ▸ hpos) id (hhld id hid)
  locked hheld := by
    rw [hlock]
    apply hlck.locked
    rw [← hupds]
    exact hheld.imp_right fun ⟨id, hid⟩ => ⟨id, hhld id hid⟩
  single id id' hid hid' := hlck.single id id' (hhld id hid) (hhld id' hid')

theorem acquired (hlck : fence.Locked) {id : ℕ}
    (hupds : next.inner.updaters = fence.inner.updaters)
    (hfree : fence.inner.updateLocked = false) (hlock : next.inner.updateLocked = true)
    (hhld : ∀ other, next.Holds other → other = id ∨ fence.Holds other) : next.Locked := by
  obtain ⟨hzero, hnone⟩ := hlck.free hfree
  have honly : ∀ other, next.Holds other → other = id := fun other ho =>
    (hhld other ho).resolve_right (hnone other)
  refine ⟨by omega, fun hpos => by omega, fun _ => hlock, ?_⟩
  intro first second hfst hsnd
  rw [honly first hfst, honly second hsnd]

variable {id : ℕ}

theorem released (hlck : fence.Locked) (hid : fence.Holds id)
    (hupds : next.inner.updaters = fence.inner.updaters)
    (hhld : ∀ other, next.Holds other → other ≠ id ∧ fence.Holds other) : next.Locked := by
  apply of_free
  · rw [hupds]
    by_contra hpos
    exact hlck.idle (Nat.pos_of_ne_zero hpos) id hid
  · intro other ho
    obtain ⟨hne, hheld⟩ := hhld other ho
    exact hne (hlck.single other id hheld hid)

theorem supervisor (hlck : fence.Locked) (hmov : fence.inner.MovesLock next.inner)
    (hcls : next.calls = fence.calls) : next.Locked := by
  have hhld : ∀ id, next.Holds id → fence.Holds id := by
    intro id hid
    rwa [Holds, hcls] at hid
  cases hmov with
  | kept hupds hlock => exact hlck.kept hupds hlock hhld
  | acquired hupds hfree hlock =>
    obtain ⟨hzero, hnone⟩ := hlck.free hfree
    refine ⟨by omega, fun _ id hid => hnone id (hhld id hid), fun _ => hlock, ?_⟩
    intro first _ hfst
    exact absurd (hhld first hfst) (hnone first)
  | released hupds hlock =>
    have hbusy : 0 < fence.inner.updaters := by omega
    have hone := hlck.one
    exact of_free (by omega) fun id hid => hlck.idle hbusy id (hhld id hid)

theorem goto (hlck : fence.Locked) {id : ℕ} {phase found : CallPhase}
    (hf : fence.calls id = some found)
    (hcls : next.calls = Function.update fence.calls id (some phase))
    (hheld : phase.holdsUpdate = found.holdsUpdate)
    (hupds : next.inner.updaters = fence.inner.updaters)
    (hlock : next.inner.updateLocked = fence.inner.updateLocked) : next.Locked := by
  apply hlck.kept hupds hlock
  rintro other ⟨phase', hphase', hhld⟩
  rw [hcls] at hphase'
  by_cases ho : other = id
  · subst ho
    rw [update_self] at hphase'
    cases hphase'
    exact ⟨found, hf, hheld.symm.trans hhld⟩
  · rw [update_of_ne ho] at hphase'
    exact ⟨phase', hphase', hhld⟩

theorem updated {id : ℕ} {after : Option CallPhase}
    (hcls : next.calls = Function.update fence.calls id after)
    (haft : ∀ phase, after = some phase → phase.holdsUpdate = false) (other : ℕ)
    (ho : next.Holds other) : other ≠ id ∧ fence.Holds other := by
  obtain ⟨phase, hp, hhld⟩ := ho
  rw [hcls] at hp
  by_cases hid : other = id
  · subst hid
    rw [update_self] at hp
    rw [haft phase hp] at hhld
    cases hhld
  · rw [update_of_ne hid] at hp
    exact ⟨hid, phase, hp, hhld⟩

theorem finish (hlck : fence.Locked) {found : CallPhase} (hf : fence.calls id = some found)
    (events : List (AuthorityEvent Keys Credential)) :
    (fence.finish id found events).Locked := by
  have hhld := @updated _ _ fence (fence.finish id found events) id none rfl
    (fun _ hnone => by cases hnone)
  cases hheld : found.holdsUpdate with
  | true => exact hlck.released ⟨found, hf, hheld⟩ rfl hhld
  | false =>
    refine @kept _ _ _ (fence.finish id found events) hlck rfl ?_
      (fun other ho => (hhld other ho).2)
    rw [AuthorityCalls.finish, hheld]
    exact Bool.and_true _

theorem call (hlck : fence.Locked) (call : AuthorityCall) : (fence.goto id call.first).Locked := by
  refine hlck.kept rfl rfl fun other ho => (updated rfl ?_ other ho).2
  intro phase hp
  cases call <;> cases hp <;> rfl

theorem expireThen (hlck : fence.Locked) {phase found : CallPhase}
    (hf : fence.calls id = some found) (hheld : phase.holdsUpdate = found.holdsUpdate) :
    (fence.expireThen id phase).Locked := by
  refine @goto _ _ _ (fence.expireThen id phase) hlck _ _ _ hf rfl hheld ?_ rfl
  rw [AuthorityInner.updaters, AuthorityInner.updaters]
  exact congrArg (· + _) (countP_cons_of_neg Bool.false_ne_true)

theorem advance (hlck : fence.Locked) {reading : CallReading} {phase : CallPhase}
    (hp : fence.calls id = some phase) (hadv : fence.advance id reading phase = some next) :
    next.Locked := by
  unfold AuthorityCalls.advance at hadv
  cases phase with
  | partsStarted | partsRead | snapshotStarted | snapshotRead | deadlineStarted | waitStarted =>
    cases hadv
    exact hlck.expireThen hp rfl
  | partsReading | partsChecking | snapshotReading | snapshotChecking | waitReading | waiting =>
    dsimp only at hadv
    repeat' split at hadv
    all_goals
      cases hadv
      try first
        | exact hlck.finish hp _
        | exact hlck.goto hp rfl rfl rfl rfl
  | deadlineReading rejected stage =>
    dsimp only at hadv
    repeat' split at hadv
    all_goals
      cases hadv
      try first
        | exact hlck.finish hp _
        | exact hlck.goto hp rfl (by cases stage <;> rfl) rfl rfl
  | awaitingRefreshLock rejected deadline =>
    dsimp only at hadv
    repeat' split at hadv
    all_goals
      cases hadv
      try first
        | exact hlck.finish hp _
        | exact hlck.goto hp rfl rfl rfl rfl
  | awaitingUpdateLock rejected deadline =>
    dsimp only at hadv
    split at hadv
    · rename_i hfree
      cases hadv
      refine @acquired _ _ _ _ hlck id rfl hfree rfl ?_
      rintro other ⟨phase, hphase', hhld⟩
      by_cases ho : other = id
      · exact .inl ho
      · exact .inr ⟨phase, (update_of_ne ho _ _).symm.trans hphase', hhld⟩
    · split at hadv
      · cases hadv
        exact hlck.finish hp _
      · cases hadv
  | requesting rejected deadline =>
    dsimp only at hadv
    split at hadv
    · cases hadv
      refine hlck.released ⟨_, hp, rfl⟩ rfl (updated rfl ?_)
      intro found hf
      cases hf
      rfl
    · cases hadv
      exact hlck.finish hp _

end Locked

end AuthorityCalls

end AukiSdk.Authority
