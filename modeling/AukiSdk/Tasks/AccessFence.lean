import AukiSdk.Tasks.Access

/-!
# Fencing of task credentials

A bearer leaves a call only after the call saw the cancellation token uncancelled.
-/

namespace AukiSdk.Tasks

open AukiSdk.Foundation List Function Option
open AukiSdk.Net

variable {Details : Type}

def Event.call : Event Details → Option ℕ
  | .started call _ => some call
  | .read call _ => some call
  | .bearer call _ _ => some call
  | .refused call _ => some call
  | .revoked => none
  | .withdrawn => none
  | .granted call _ => some call
  | .updateFailed call _ => some call

/-- The outcomes of an update. -/
def Event.Updates : Event Details → Bool
  | .granted _ _ => true
  | .updateFailed _ _ => true
  | _ => false

def Event.write (current : Option (Grant Details)) : Event Details → Option (Grant Details)
  | .granted _ grant => some grant
  | .withdrawn => none
  | _ => current

/-- The grant after the recorded writes. -/
def currentGrant (first : Grant Details) (trace : List (Event Details)) : Option (Grant Details) :=
  trace.foldl Event.write (some first)

theorem currentGrant_append (first : Grant Details) (trace : List (Event Details))
    (event : Event Details) :
    currentGrant first (trace ++ [event]) = event.write (currentGrant first trace) := by
  rw [currentGrant, foldl_append]
  rfl

/-- The grant names the Domain, the task and the capability. -/
structure SameTask (first grant : Grant Details) : Prop where
  domain : grant.access.domainId = first.access.domainId
  task : grant.lease.task.id = first.lease.task.id
  capability : grant.lease.task.capability = first.lease.task.capability

/-- The call read the grant while it was the current one. -/
def ReadCurrent (first : Grant Details) (trace : List (Event Details)) (call : ℕ)
    (grant : Grant Details) : Prop :=
  ∃ before after, trace = before ++ .read call (some grant) :: after ∧
    currentGrant first before = some grant

variable {trace : List (Event Details)} {call : ℕ}

theorem ReadCurrent.append {first grant : Grant Details}
    (hread : ReadCurrent first trace call grant) (events : List (Event Details)) :
    ReadCurrent first (trace ++ events) call grant := by
  obtain ⟨before, after, rfl, hcur⟩ := hread
  exact ⟨before, after ++ events, by simp, hcur⟩

/-- No revocation came before the call started. -/
def StartedEarly (trace : List (Event Details)) (call : ℕ) : Prop :=
  ∀ before rejected after, trace = before ++ .started call rejected :: after → .revoked ∉ before

variable {event : Event Details}

theorem StartedEarly.append (hear : StartedEarly trace call)
    (hev : ∀ rejected, event ≠ .started call rejected) :
    StartedEarly (trace ++ [event]) call := by
  intro before rejected after hsp
  obtain ⟨-, hf, -⟩ | ⟨rest, -, hrest⟩ := concat_eq_append_cons hsp
  · exact absurd hf.symm (hev rejected)
  · exact hear before rejected rest hrest

theorem startedEarly_of_not_mem (hrev : .revoked ∉ trace) (call : ℕ) : StartedEarly trace call := by
  rintro before rejected after rfl hm
  exact hrev (mem_append_left _ hm)

/-- Past the check of the cancellation token. -/
def CallPhase.passed : CallPhase Details → Bool
  | .readOpen _ => true
  | .accessOpen _ => true
  | .accessLive _ => true
  | .accessRead _ _ _ => true
  | _ => false

/-- The grant that a reading call holds. -/
def CallPhase.held : CallPhase Details → Option (Grant Details)
  | .read grant => grant
  | .readOpen grant => grant
  | .accessRead _ _ grant => some grant
  | _ => none

/-- The access that a reading call was told was rejected. -/
def CallPhase.rejected : CallPhase Details → Option (Option DomainAccess)
  | .reading => some none
  | .read _ => some none
  | .readOpen _ => some none
  | .access request => some request.rejected
  | .accessOpen request => some request.rejected
  | .accessLive request => some request.rejected
  | .accessRead request _ _ => some request.rejected
  | .accessWaiting request _ => some request.rejected
  | _ => none

/-- What an update is about to write keeps Domain, task and capability. -/
def CallPhase.Keeps (first : Grant Details) : CallPhase Details → Prop
  | .updating _ taskId => taskId = first.lease.task.id
  | .updateRead response previous =>
    (response.lease previous).task.id = first.lease.task.id ∧
      (response.lease previous).task.capability = first.lease.task.capability
  | .updateOpen response previous =>
    (response.lease previous).task.id = first.lease.task.id ∧
      (response.lease previous).task.capability = first.lease.task.capability
  | .updateSending grant => SameTask first grant
  | _ => True

/-- What holds of a call that is in `phase`. -/
structure CallFenced (first : Grant Details) (trace : List (Event Details)) (call : ℕ)
    (phase : CallPhase Details) : Prop where
  open_ : phase ≠ .done → ∀ event ∈ trace, event.call = some call → event.Updates = false
  early : phase.passed = true → StartedEarly trace call
  held : ∀ grant, phase.held = some grant → ReadCurrent first trace call grant
  rejected : ∀ found, phase.rejected = some found →
    ∀ rejected, .started call rejected ∈ trace → rejected = found
  keeps : phase.Keeps first

variable {phase : CallPhase Details}

theorem CallFenced.restart {first : Grant Details} {next : CallPhase Details}
    (hc : CallFenced first trace call phase) (hopen : phase ≠ .done)
    (hpas : next.passed = false) (hheld : next.held = none) (hrej : next.rejected = none)
    (hkps : next.Keeps first) :
    CallFenced first trace call next := by
  refine ⟨fun _ => hc.open_ hopen, ?_, ?_, ?_, hkps⟩
  · intro hn
    rw [hpas] at hn
    cases hn
  · intro grant hgra
    rw [hheld] at hgra
    cases hgra
  · intro found hf
    rw [hrej] at hf
    cases hf

theorem CallFenced.done (first : Grant Details) (trace : List (Event Details)) (call : ℕ) :
    CallFenced first trace call .done where
  open_ hopen := absurd rfl hopen
  early hpas := by cases hpas
  held _ hheld := by cases hheld
  rejected _ hrej := by cases hrej
  keeps := trivial

theorem CallFenced.append {first : Grant Details} (hfen : CallFenced first trace call phase)
    (hbgn : ∀ rejected, event ≠ .started call rejected)
    (hupd : event.call = some call → event.Updates = false) :
    CallFenced first (trace ++ [event]) call phase where
  open_ hopen found hf hc := by
    rw [mem_append, mem_singleton] at hf
    obtain hpri | rfl := hf
    · exact hfen.open_ hopen found hpri hc
    · exact hupd hc
  early hpas := (hfen.early hpas).append hbgn
  held grant hheld := (hfen.held grant hheld).append [event]
  rejected found hf rejected hm := by
    rw [mem_append, mem_singleton] at hm
    obtain hpri | heq := hm
    · exact hfen.rejected found hf rejected hpri
    · exact absurd heq.symm (hbgn rejected)
  keeps := hfen.keeps

theorem CallFenced.move {first : Grant Details} {next : CallPhase Details}
    (hfen : CallFenced first trace call phase) (hopen : phase ≠ .done)
    (hpas : next.passed = true → phase.passed = true ∨ .revoked ∉ trace)
    (hheld : ∀ grant, next.held = some grant → phase.held = some grant)
    (hrej : ∀ found, next.rejected = some found → phase.rejected = some found)
    (hkps : next.Keeps first) : CallFenced first trace call next where
  open_ _ := hfen.open_ hopen
  early hn := by
    obtain hpri | hrev := hpas hn
    · exact hfen.early hpri
    · exact startedEarly_of_not_mem hrev call
  held grant hgra := hfen.held grant (hheld grant hgra)
  rejected found hf := hfen.rejected found (hrej found hf)
  keeps := hkps

/-- What holds of the bearers that calls returned. -/
structure BearersFenced (first : Grant Details) (trace : List (Event Details)) : Prop where
  early : ∀ before call grant now after, trace = before ++ .bearer call grant now :: after →
    StartedEarly before call
  current : ∀ before call grant now after, trace = before ++ .bearer call grant now :: after →
    ReadCurrent first before call grant ∧ now < grant.leaseExpires ∧ now < grant.access.expiresAt
  rejected : ∀ before call grant now after, trace = before ++ .bearer call grant now :: after →
    ∀ old, .started call (some old) ∈ before → grant.access.token ≠ old.token

theorem BearersFenced.append {first : Grant Details} (hbea : BearersFenced first trace)
    (hev : ∀ call grant now, event = .bearer call grant now → StartedEarly trace call ∧
        (ReadCurrent first trace call grant ∧ now < grant.leaseExpires ∧
          now < grant.access.expiresAt) ∧
        ∀ old, .started call (some old) ∈ trace → grant.access.token ≠ old.token) :
    BearersFenced first (trace ++ [event]) where
  early before call grant now after hsp := by
    obtain ⟨-, hf, rfl⟩ | ⟨rest, -, hrest⟩ := concat_eq_append_cons hsp
    · exact (hev call grant now hf.symm).1
    · exact hbea.early before call grant now rest hrest
  current before call grant now after hsp := by
    obtain ⟨-, hf, rfl⟩ | ⟨rest, -, hrest⟩ := concat_eq_append_cons hsp
    · exact (hev call grant now hf.symm).2.1
    · exact hbea.current before call grant now rest hrest
  rejected before call grant now after hsp := by
    obtain ⟨-, hf, rfl⟩ | ⟨rest, -, hrest⟩ := concat_eq_append_cons hsp
    · exact (hev call grant now hf.symm).2.2
    · exact hbea.rejected before call grant now rest hrest

namespace TaskCredential

/-- The state between steps; `first` is the grant of the fresh lease. -/
structure Fenced (first : Grant Details) (credential : TaskCredential Details) : Prop where
  domain : credential.domain = first.access.domainId
  context : credential.contextTask.id = first.lease.task.id
  current : credential.grant = currentGrant first credential.trace
  revoked : .revoked ∈ credential.trace → credential.closed = true
  grant : ∀ grant, credential.grant = some grant → SameTask first grant
  granted : ∀ call grant, .granted call grant ∈ credential.trace → SameTask first grant
  fresh : ∀ call, credential.calls call = none → ∀ event ∈ credential.trace,
    event.call ≠ some call
  calls : ∀ call phase, credential.calls call = some phase →
    CallFenced first credential.trace call phase
  bearers : BearersFenced first credential.trace
  updates : ∀ call error grant, .updateFailed call error ∈ credential.trace →
    .granted call grant ∉ credential.trace

variable {first : Grant Details} {credential : TaskCredential Details}

namespace Fenced

variable {call : ℕ} {phase : CallPhase Details}

theorem silent (hfen : credential.Fenced first)
    (hc : CallFenced first credential.trace call phase) :
    (credential.setCall call phase []).Fenced first := by
  have htr : (credential.setCall call phase []).trace = credential.trace := append_nil _
  refine ⟨hfen.domain, hfen.context, ?_, ?_, hfen.grant, ?_, ?_, ?_, ?_, ?_⟩
  · rw [htr]
    exact hfen.current
  · rw [htr]
    exact hfen.revoked
  · rw [htr]
    exact hfen.granted
  · intro other ho
    rw [htr]
    dsimp only [setCall] at ho
    by_cases hsm : other = call
    · rw [hsm, update_self] at ho
      cases ho
    · rw [update_of_ne hsm] at ho
      exact hfen.fresh other ho
  · intro other found ho
    rw [htr]
    dsimp only [setCall] at ho
    by_cases hsm : other = call
    · rw [hsm, update_self] at ho
      cases ho
      rw [hsm]
      exact hc
    · rw [update_of_ne hsm] at ho
      exact hfen.calls other found ho
  · rw [htr]
    exact hfen.bearers
  · rw [htr]
    exact hfen.updates

theorem recorded {base : TaskCredential Details} (hfen : credential.Fenced first)
    {event : Event Details} (hbase : base.calls = credential.calls)
    (htr : base.trace = credential.trace) (hdom : base.domain = credential.domain)
    (hcon : base.contextTask = credential.contextTask)
    (hgra : base.grant = event.write credential.grant)
    (hcl : event = .revoked ∨ credential.closed = true → base.closed = true)
    (hsm : ∀ writer grant, event = .granted writer grant → SameTask first grant)
    (hcls : ∀ found, event.call = some found → found = call)
    (hc : CallFenced first (credential.trace ++ [event]) call phase)
    (hbea : BearersFenced first (credential.trace ++ [event]))
    (hupd : ∀ error grant, ¬ (.updateFailed call error ∈ credential.trace ++ [event] ∧
      .granted call grant ∈ credential.trace ++ [event])) :
    (base.setCall call phase [event]).Fenced first := by
  have hrec : (base.setCall call phase [event]).trace = credential.trace ++ [event] := by
    rw [setCall, htr]
  have hcur : (base.setCall call phase [event]).grant =
      currentGrant first (credential.trace ++ [event]) := by
    rw [currentGrant_append, ← hfen.current]
    exact hgra
  refine ⟨hdom.trans hfen.domain, ?_, ?_, ?_, ?_, ?_, ?_, ?_, ?_, ?_⟩
  · exact (congrArg TaskSpec.id hcon).trans hfen.context
  · rw [hrec]
    exact hcur
  · rw [hrec, mem_append, mem_singleton]
    rintro (hpri | hev)
    · exact hcl (.inr (hfen.revoked hpri))
    · exact hcl (.inl hev.symm)
  · intro grant hsome
    change base.grant = some grant at hsome
    rw [hgra] at hsome
    cases event with
    | granted writer found =>
      cases hsome
      exact hsm writer grant rfl
    | withdrawn => cases hsome
    | _ => exact hfen.grant grant hsome
  · intro writer grant hm
    rw [hrec, mem_append, mem_singleton] at hm
    obtain hpri | hev := hm
    · exact hfen.granted writer grant hpri
    · exact hsm writer grant hev.symm
  · intro other ho found hf
    rw [hrec, mem_append, mem_singleton] at hf
    dsimp only [setCall] at ho
    have hne : other ≠ call := by
      rintro rfl
      rw [update_self] at ho
      cases ho
    rw [update_of_ne hne, hbase] at ho
    obtain hpri | rfl := hf
    · exact hfen.fresh other ho found hpri
    · exact fun hev => hne (hcls other hev)
  · intro other found ho
    rw [hrec]
    dsimp only [setCall] at ho
    by_cases hne : other = call
    · rw [hne, update_self] at ho
      cases ho
      rw [hne]
      exact hc
    · rw [update_of_ne hne, hbase] at ho
      apply (hfen.calls other found ho).append
      · rintro rejected rfl
        exact hne (hcls other rfl)
      · intro hev
        exact absurd (hcls other hev) hne
  · rw [hrec]
    exact hbea
  · intro writer error grant hfail hgrd
    rw [hrec] at hfail hgrd
    by_cases hne : writer = call
    · subst hne
      exact hupd error grant ⟨hfail, hgrd⟩
    · rw [mem_append, mem_singleton] at hfail hgrd
      obtain hfail | rfl := hfail
      · obtain hgrd | rfl := hgrd
        · exact hfen.updates writer error grant hfail hgrd
        · exact hne (hcls writer rfl)
      · exact hne (hcls writer rfl)

theorem not_both (hfen : credential.Fenced first) (hp : credential.calls call = some phase)
    (hopen : phase ≠ .done) (event : Event Details) (error : TaskError) (grant : Grant Details) :
    ¬ (.updateFailed call error ∈ credential.trace ++ [event] ∧
      .granted call grant ∈ credential.trace ++ [event]) := by
  have hnone := (hfen.calls call phase hp).open_ hopen
  rintro ⟨hfail, hgrd⟩
  rw [mem_append, mem_singleton] at hfail hgrd
  obtain hfail | rfl := hfail
  · cases hnone _ hfail rfl
  · obtain hgrd | heq := hgrd
    · cases hnone _ hgrd rfl
    · cases heq

theorem refused (hfen : credential.Fenced first) (hp : credential.calls call = some phase)
    (hopen : phase ≠ .done) {event : Event Details}
    (hwrt : event.write credential.grant = credential.grant) (hrev : event ≠ .revoked)
    (hgrd : ∀ writer grant, event ≠ .granted writer grant)
    (hbea : ∀ reader grant now, event ≠ .bearer reader grant now)
    (hcls : ∀ found, event.call = some found → found = call) :
    (credential.setCall call .done [event]).Fenced first := by
  refine hfen.recorded rfl rfl rfl rfl hwrt.symm ?_ ?_ hcls (CallFenced.done _ _ _) ?_
    (hfen.not_both hp hopen event)
  · exact fun hcl => hcl.resolve_left hrev
  · exact fun writer grant hev => absurd hev (hgrd writer grant)
  · exact hfen.bearers.append fun reader grant now hev =>
      absurd hev (hbea reader grant now)

variable {next : CallPhase Details}

theorem read (hfen : credential.Fenced first) (hp : credential.calls call = some phase)
    (hopen : phase ≠ .done)
    (hheld : ∀ grant, next.held = some grant → credential.grant = some grant)
    (hpas : next.passed = true → phase.passed = true)
    (hrej : ∀ found, next.rejected = some found → phase.rejected = some found)
    (hkps : next.Keeps first) :
    (credential.setCall call next [.read call credential.grant]).Fenced first := by
  have hc : CallFenced first (credential.trace ++ [.read call credential.grant]) call phase :=
    (hfen.calls call phase hp).append (fun rejected heq => by cases heq) fun _ => rfl
  refine hfen.recorded rfl rfl rfl rfl rfl ?_ ?_ ?_ ?_ ?_ (hfen.not_both hp hopen _)
  · exact fun hcl => hcl.resolve_left (by simp)
  · exact fun writer grant hev => by cases hev
  · exact fun found hf => (some.inj hf).symm
  · refine ⟨fun _ => hc.open_ hopen, fun hn => hc.early (hpas hn), ?_, ?_, hkps⟩
    · intro grant hgra
      have hcur := hheld grant hgra
      exact ⟨credential.trace, [], by rw [hcur], hfen.current ▸ hcur⟩
    · exact fun found hf => hc.rejected found (hrej found hf)
  · exact hfen.bearers.append fun reader grant now hev => by cases hev

theorem bearer (hfen : credential.Fenced first) (hp : credential.calls call = some phase)
    (hpas : phase.passed = true) {grant : Grant Details} (hheld : phase.held = some grant)
    {now : DateTime} (hfrs : now < grant.deadline) {found : Option DomainAccess}
    (hrej : phase.rejected = some found)
    (hf : ∀ old, found = some old → grant.access.token ≠ old.token) :
    (credential.setCall call .done [.bearer call grant now]).Fenced first := by
  have hc := hfen.calls call phase hp
  have hopen : phase ≠ .done := by
    rintro rfl
    cases hpas
  refine hfen.recorded rfl rfl rfl rfl rfl ?_ ?_ ?_ (CallFenced.done _ _ _) ?_
    (hfen.not_both hp hopen _)
  · exact fun hcl => hcl.resolve_left (by simp)
  · exact fun writer other hev => by cases hev
  · exact fun other ho => (some.inj ho).symm
  · apply hfen.bearers.append
    intro reader other time hev
    cases hev
    rw [Grant.deadline, lt_min_iff] at hfrs
    refine ⟨hc.early hpas, ⟨hc.held grant hheld, hfrs⟩, ?_⟩
    intro old hbgn
    exact hf old (hc.rejected found hrej _ hbgn).symm

theorem revoke (hfen : credential.Fenced first) (hp : credential.calls call = some phase)
    (hopen : phase ≠ .done) (hpas : next.passed = false) (hheld : next.held = none)
    (hrej : next.rejected = none) (hkps : next.Keeps first) :
    ({ credential with closed := true }.setCall call next [.revoked]).Fenced first := by
  have hc : CallFenced first (credential.trace ++ [.revoked]) call phase :=
    (hfen.calls call phase hp).append (fun rejected heq => by cases heq)
      fun hev => by cases hev
  refine hfen.recorded rfl rfl rfl rfl rfl (fun _ => rfl) ?_ ?_ ?_ ?_
    (hfen.not_both hp hopen _)
  · exact fun writer grant hev => by cases hev
  · exact fun found hf => by cases hf
  · exact hc.restart hopen hpas hheld hrej hkps
  · exact hfen.bearers.append fun reader grant now hev => by cases hev

theorem withdraw (hfen : credential.Fenced first) (hp : credential.calls call = some phase)
    (hopen : phase ≠ .done) (hpas : next.passed = false) (hheld : next.held = none)
    (hrej : next.rejected = none) (hkps : next.Keeps first) :
    ((credential.sendReplace none).setCall call next [.withdrawn]).Fenced first := by
  have hc : CallFenced first (credential.trace ++ [.withdrawn]) call phase :=
    (hfen.calls call phase hp).append (fun rejected heq => by cases heq)
      fun hev => by cases hev
  refine hfen.recorded rfl rfl rfl rfl rfl ?_ ?_ ?_ ?_ ?_ (hfen.not_both hp hopen _)
  · exact fun hcl => hcl.resolve_left (by simp)
  · exact fun writer grant hev => by cases hev
  · exact fun found hf => by cases hf
  · exact hc.restart hopen hpas hheld hrej hkps
  · exact hfen.bearers.append fun reader grant now hev => by cases hev

theorem send (hfen : credential.Fenced first) {grant : Grant Details}
    (hp : credential.calls call = some (.updateSending grant)) :
    ((credential.sendReplace (some grant)).setCall call .done [.granted call grant]).Fenced
      first := by
  have hc := hfen.calls call _ hp
  refine hfen.recorded rfl rfl rfl rfl rfl ?_ ?_ ?_ (CallFenced.done _ _ _) ?_ ?_
  · exact fun hcl => hcl.resolve_left (by simp)
  · intro writer found hev
    cases hev
    exact hc.keeps
  · exact fun found hf => (some.inj hf).symm
  · exact hfen.bearers.append fun reader found now hev => by cases hev
  · rintro error found ⟨hfail, -⟩
    rw [mem_append, mem_singleton] at hfail
    obtain hfail | heq := hfail
    · cases hc.open_ (by simp) _ hfail rfl
    · cases heq

theorem start (hfen : credential.Fenced first) {rejected : Option DomainAccess}
    {next : TaskCredential Details} (hbeg : credential.start call phase rejected = some next)
    (hpas : phase.passed = false) (hheld : phase.held = none)
    (hrej : ∀ found, phase.rejected = some found → found = rejected)
    (hkps : phase.Keeps first) : next.Fenced first := by
  rw [TaskCredential.start] at hbeg
  split at hbeg
  · rename_i hnone
    cases hbeg
    have hfrs := hfen.fresh call hnone
    refine hfen.recorded rfl rfl rfl rfl rfl ?_ ?_ ?_ ?_ ?_ ?_
    · exact fun hcl => hcl.resolve_left (by simp)
    · exact fun writer grant hev => by cases hev
    · exact fun found hf => (some.inj hf).symm
    · refine ⟨?_, ?_, ?_, ?_, hkps⟩
      · intro _ event hev hc
        rw [mem_append, mem_singleton] at hev
        obtain hpri | rfl := hev
        · exact absurd hc (hfrs event hpri)
        · rfl
      · intro hn
        rw [hpas] at hn
        cases hn
      · intro grant hgra
        rw [hheld] at hgra
        cases hgra
      · intro found hf other hm
        rw [mem_append, mem_singleton] at hm
        obtain hpri | heq := hm
        · exact absurd rfl (hfrs _ hpri)
        · cases heq
          exact (hrej found hf).symm
    · exact hfen.bearers.append fun reader grant now hev => by cases hev
    · rintro error grant ⟨hfail, -⟩
      rw [mem_append, mem_singleton] at hfail
      obtain hpri | heq := hfail
      · exact hfrs _ hpri rfl
      · cases heq
  · cases hbeg

theorem lease_kept {response : HeartbeatResponse Details} {domain taskId : Uuid}
    {previous : Grant Details} (hadm : response.admitted domain taskId = .ok ())
    (htask : taskId = first.lease.task.id) (hprev : SameTask first previous)
    (hcap : response.task.any
      (fun task => task.capability ≠ previous.lease.task.capability) = false) :
    (response.lease previous).task.id = first.lease.task.id ∧
      (response.lease previous).task.capability = first.lease.task.capability := by
  unfold HeartbeatResponse.admitted at hadm
  split at hadm
  · cases hadm
  · split at hadm
    · cases hadm
    · rename_i hsm
      rw [not_or, not_or] at hsm
      have hid := hsm.2.2
      unfold HeartbeatResponse.lease
      cases hf : response.task with
      | none => exact ⟨hprev.task, hprev.capability⟩
      | some task =>
        rw [hf] at hid hcap
        simp only [any_some, decide_eq_true_eq, decide_eq_false_iff_not, not_not]
          at hid hcap
        exact ⟨hid.trans htask, hcap.trans hprev.capability⟩

theorem advance {library : GrantLibrary} (hfen : credential.Fenced first) {input : Input}
    {next : TaskCredential Details} (hp : credential.calls call = some phase)
    (hadv : credential.advance library call input phase = some next) : next.Fenced first := by
  have hc := hfen.calls call phase hp
  have hunr : credential.closed ≠ true → .revoked ∉ credential.trace :=
    fun hopen hm => hopen (hfen.revoked hm)
  cases phase with
  | reading =>
    cases hadv
    exact hfen.read hp (by simp) (fun _ hgra => hgra) (fun hn => by cases hn)
      (fun _ hf => hf) trivial
  | read grant =>
    rw [TaskCredential.advance] at hadv
    split at hadv
    · cases hadv
      exact hfen.refused hp (by simp) rfl (by simp) (by simp) (by simp)
        fun found hf => (some.inj hf).symm
    · rename_i hopen
      cases hadv
      exact hfen.silent (hc.move (by simp) (fun _ => .inr (hunr hopen))
        (fun _ hgra => hgra) (fun _ hf => hf) trivial)
  | readOpen grant =>
    cases grant with
    | none =>
      cases hadv
      exact hfen.refused hp (by simp) rfl (by simp) (by simp) (by simp)
        fun found hf => (some.inj hf).symm
    | some grant =>
      rw [TaskCredential.advance] at hadv
      split at hadv
      · cases hadv
        exact hfen.refused hp (by simp) rfl (by simp) (by simp) (by simp)
          fun found hf => (some.inj hf).symm
      · rename_i hfrs
        cases hadv
        exact hfen.bearer hp rfl rfl (not_le.mp hfrs) rfl fun old heq => by cases heq
  | access request =>
    rw [TaskCredential.advance] at hadv
    split at hadv
    · cases hadv
      exact hfen.refused hp (by simp) rfl (by simp) (by simp) (by simp)
        fun found hf => (some.inj hf).symm
    · rename_i hopen
      cases hadv
      exact hfen.silent (hc.move (by simp) (fun _ => .inr (hunr hopen))
        (fun _ hgra => by cases hgra) (fun _ hf => hf) trivial)
  | accessOpen request =>
    rw [TaskCredential.advance] at hadv
    split at hadv
    · cases hadv
      exact hfen.refused hp (by simp) rfl (by simp) (by simp) (by simp)
        fun found hf => (some.inj hf).symm
    · cases hadv
      exact hfen.silent (hc.move (by simp) (fun _ => .inl rfl)
        (fun _ hgra => by cases hgra) (fun _ hf => hf) trivial)
  | accessLive request =>
    rw [TaskCredential.advance] at hadv
    split at hadv
    · cases hadv
      exact hfen.refused hp (by simp) rfl (by simp) (by simp) (by simp)
        fun found hf => (some.inj hf).symm
    · rename_i grant hgra
      cases hadv
      rw [← hgra]
      refine hfen.read hp (by simp) ?_ (fun _ => rfl) (fun _ hf => hf) trivial
      intro found hf
      cases hf
      exact hgra
  | accessRead request seen grant =>
    rw [TaskCredential.advance] at hadv
    split at hadv
    · cases hadv
      exact hfen.silent (hc.move (by simp) (fun hn => by cases hn)
        (fun _ hgra => by cases hgra) (fun _ hf => by cases hf) trivial)
    · rename_i hfrs
      split at hadv
      · rename_i hdiff
        cases hadv
        refine hfen.bearer hp rfl rfl (not_le.mp hfrs) rfl ?_
        intro old hold
        rw [hold, all_some, decide_eq_true_iff] at hdiff
        exact fun hsm => hdiff hsm.symm
      · split at hadv
        · cases hadv
          exact hfen.refused hp (by simp) rfl (by simp) (by simp) (by simp)
            fun found hf => (some.inj hf).symm
        · cases hadv
          exact hfen.silent (hc.move (by simp) (fun hn => by cases hn)
            (fun _ hgra => by cases hgra) (fun _ hf => hf) trivial)
  | accessRevoking request =>
    cases hadv
    exact hfen.revoke hp (by simp) rfl rfl rfl trivial
  | accessWithdrawing request =>
    cases hadv
    exact hfen.withdraw hp (by simp) rfl rfl rfl trivial
  | accessRefused error =>
    cases hadv
    exact hfen.refused hp (by simp) rfl (by simp) (by simp) (by simp)
      fun found hf => (some.inj hf).symm
  | revoking =>
    cases hadv
    exact hfen.revoke hp (by simp) rfl rfl rfl trivial
  | withdrawing =>
    cases hadv
    exact hfen.withdraw hp (by simp) rfl rfl rfl trivial
  | updating response taskId =>
    rw [TaskCredential.advance] at hadv
    split at hadv
    · cases hadv
      exact hfen.refused hp (by simp) rfl (by simp) (by simp) (by simp)
        fun found hf => (some.inj hf).symm
    · rename_i hadm
      split at hadv
      · cases hadv
        exact hfen.refused hp (by simp) rfl (by simp) (by simp) (by simp)
          fun found hf => (some.inj hf).symm
      · rename_i previous hprev
        split at hadv
        · cases hadv
          exact hfen.refused hp (by simp) rfl (by simp) (by simp) (by simp)
            fun found hf => (some.inj hf).symm
        · rename_i hcap
          cases hadv
          apply hfen.silent
          exact hc.move (by simp) (fun hn => by cases hn)
            (fun _ hgra => by cases hgra) (fun _ hf => by cases hf)
            (lease_kept hadm hc.keeps (hfen.grant previous hprev) (Bool.eq_false_iff.mpr hcap))
  | updateRead response previous =>
    rw [TaskCredential.advance] at hadv
    split at hadv
    · cases hadv
      exact hfen.refused hp (by simp) rfl (by simp) (by simp) (by simp)
        fun found hf => (some.inj hf).symm
    · cases hadv
      exact hfen.silent (hc.move (by simp) (fun hn => by cases hn)
        (fun _ hgra => by cases hgra) (fun _ hf => by cases hf) hc.keeps)
  | updateOpen response previous =>
    rw [TaskCredential.advance] at hadv
    split at hadv
    · cases hadv
      exact hfen.refused hp (by simp) rfl (by simp) (by simp) (by simp)
        fun found hf => (some.inj hf).symm
    · rename_i access hacc
      cases hadv
      apply hfen.silent
      refine hc.move (by simp) (fun hn => by cases hn)
        (fun _ hgra => by cases hgra) (fun _ hf => by cases hf) ?_
      obtain ⟨htask, hcap⟩ := hc.keeps
      exact ⟨(fromIssuedGrant_domainId hacc).trans hfen.domain, htask, hcap⟩
  | updateSending grant =>
    cases hadv
    exact hfen.send hp
  | accessWaiting request seen => cases hadv
  | done => cases hadv

theorem step {library : GrantLibrary} {label : Label Details} {next : TaskCredential Details}
    (hfen : credential.Fenced first) (hs : credential.step library label = some next) :
    next.Fenced first := by
  cases label with
  | get call =>
    exact hfen.start hs rfl rfl (fun _ hf => (some.inj hf).symm) trivial
  | domainAccess call domainId rejected =>
    rw [TaskCredential.step] at hs
    split at hs
    · exact hfen.start hs rfl rfl (fun _ hf => by cases hf) trivial
    · exact hfen.start hs rfl rfl (fun _ hf => (some.inj hf).symm) trivial
  | revoke call => exact hfen.start hs rfl rfl (fun _ hf => by cases hf) trivial
  | update call response =>
    exact hfen.start hs rfl rfl (fun _ hf => by cases hf) hfen.context
  | advance call input =>
    simp only [TaskCredential.step, bind_eq_bind, bind_eq_some_iff] at hs
    obtain ⟨phase, hp, hadv⟩ := hs
    exact hfen.advance hp hadv
  | wake call reason =>
    rw [TaskCredential.step] at hs
    split at hs
    · rename_i request seen hp
      have hc := hfen.calls call _ hp
      cases reason with
      | changed =>
        dsimp only at hs
        split at hs
        · cases hs
        · cases hs
          exact hfen.silent (hc.move (by simp) (fun hn => by cases hn)
            (fun _ hgra => by cases hgra) (fun _ hf => hf) trivial)
      | _ =>
        cases hs
        exact hfen.refused hp (by simp) rfl (by simp) (by simp) (by simp)
          fun found hf => (some.inj hf).symm
    · cases hs
  | cancel =>
    cases hs
    refine ⟨hfen.domain, hfen.context, ?_, fun _ => rfl, hfen.grant, ?_, ?_, ?_, ?_, ?_⟩
    · dsimp only
      rw [currentGrant_append]
      exact hfen.current
    · intro writer grant hm
      exact hfen.granted writer grant (by simpa using hm)
    · intro call hc event hev
      rw [mem_append, mem_singleton] at hev
      obtain hpri | rfl := hev
      · exact hfen.fresh call hc event hpri
      · exact (some_ne_none call).symm
    · intro call phase hp
      exact (hfen.calls call phase hp).append (fun rejected heq => by cases heq)
        fun hev => by cases hev
    · exact hfen.bearers.append fun reader grant now hev => by cases hev
    · intro call error grant hfail hgrd
      exact hfen.updates call error grant (by simpa using hfail) (by simpa using hgrd)
  | snapshotTask =>
    rw [TaskCredential.step] at hs
    split at hs
    · cases hs
    · rename_i grant hgra
      cases hs
      exact { hfen with context := (hfen.grant grant hgra).task }

theorem new (first : Grant Details) : (TaskCredential.new first).Fenced first where
  domain := rfl
  context := rfl
  current := rfl
  revoked hm := by cases hm
  grant grant hgra := by
    cases hgra
    exact ⟨rfl, rfl, rfl⟩
  granted _ _ hm := by cases hm
  fresh _ _ _ hm := by cases hm
  calls _ _ hp := by cases hp
  bearers := by
    refine ⟨?_, ?_, ?_⟩ <;>
    · intro before call grant now after hsp
      cases before <;> cases hsp
  updates _ _ _ hm := by cases hm

end Fenced

end TaskCredential

/-- A bearer is never that of a revoked, expired, rejected or later grant. -/
theorem task_credential_fenced (library : GrantLibrary) (first : Grant Details)
    (labels : List (Label Details)) (credential : TaskCredential Details)
    (hrun : runSteps (TaskCredential.step library) (TaskCredential.new first) labels =
      some credential) :
    (∀ (before : List (Event Details)) call rejected (middle : List (Event Details)) grant now
        (after : List (Event Details)),
      credential.trace = before ++ .started call rejected :: middle ++
        .bearer call grant now :: after → .revoked ∉ before) ∧
    (∀ (before : List (Event Details)) call grant now (after : List (Event Details)),
      credential.trace = before ++ .bearer call grant now :: after →
        ReadCurrent first before call grant ∧ now < grant.leaseExpires ∧
          now < grant.access.expiresAt) ∧
    (∀ (before : List (Event Details)) call grant now (after : List (Event Details)),
      credential.trace = before ++ .bearer call grant now :: after →
        ∀ old, .started call (some old) ∈ before → grant.access.token ≠ old.token) ∧
    (∀ call error grant, .updateFailed call error ∈ credential.trace →
      .granted call grant ∉ credential.trace) ∧
    credential.grant = currentGrant first credential.trace ∧
    (∀ grant, credential.grant = some grant → SameTask first grant) ∧
    ∀ call grant, .granted call grant ∈ credential.trace → SameTask first grant := by
  have hfenced : credential.Fenced first := by
    refine invariant_of_run (TaskCredential.Fenced.new first) ?_ hrun
    intro state label next hstate hnext
    exact hstate.step hnext
  refine ⟨?_, hfenced.bearers.current, hfenced.bearers.rejected, hfenced.updates,
    hfenced.current, hfenced.grant, hfenced.granted⟩
  intro before call rejected middle grant now after hsplit
  exact hfenced.bearers.early _ call grant now after hsplit before rejected middle rfl

def sampleLibrary : GrantLibrary where
  parseBaseUrl := some
  readClaims token := some ⟨"dds", 7, 1000, [token]⟩

def sampleTask : TaskSpec Unit := ⟨1, none, "/fixture/v1", none, none, none, none, ()⟩

def sampleGrant : Grant Unit where
  access := ⟨7, "http://domain", "http://domain", 1000⟩
  leaseExpires := 900
  lease := ⟨none, none, none, none, some 900, false, none, some 7, some "http://domain", sampleTask⟩

def sampleResponse : HeartbeatResponse Unit :=
  ⟨none, none, some 950, none, none, none, none, none, none, none, none, none, none⟩

/-- A revocation during an update, which writes its grant all the same. -/
def racedUpdate : List (Label Unit) :=
  [.get 0, .advance 0 ⟨5, 5, false⟩, .advance 0 ⟨5, 5, false⟩, .advance 0 ⟨5, 5, false⟩,
    .update 1 sampleResponse, .advance 1 ⟨5, 5, false⟩, .advance 1 ⟨5, 5, false⟩,
    .advance 1 ⟨5, 5, false⟩, .revoke 2, .advance 2 ⟨5, 5, false⟩, .advance 2 ⟨5, 5, false⟩,
    .advance 1 ⟨5, 5, false⟩, .get 3, .advance 3 ⟨5, 5, false⟩, .advance 3 ⟨5, 5, false⟩]

theorem task_credential_fenced_sample : ∃ credential : TaskCredential Unit,
    runSteps (TaskCredential.step sampleLibrary) (TaskCredential.new sampleGrant) racedUpdate =
      some credential ∧
    credential.closed = true ∧ credential.grant = some { sampleGrant with leaseExpires := 950 } ∧
    credential.trace.getLast? = some (.refused 3 (.task .cancelled)) ∧
    SameTask sampleGrant { sampleGrant with leaseExpires := 950 } := by
  refine ⟨_, rfl, by decide, by decide, by decide, ?_⟩
  obtain ⟨-, -, -, -, -, hsame, -⟩ :=
    task_credential_fenced sampleLibrary sampleGrant racedUpdate _ rfl
  exact hsame _ (by decide)

end AukiSdk.Tasks
