import AukiSdk.Zitadel.Session

/-!
# Session rotation

One worker runs at a time, and a rotated session is saved first.
-/

namespace AukiSdk.Zitadel

open AukiSdk.Foundation List Function Option
open AukiSdk.Net

variable {Url : Type} [DecidableEq Url]

/-- The events after which nothing may be submitted. -/
def Event.Halts : Event Url → Bool
  | .outcomeUnknown _ => true
  | .died _ => true
  | .terminal _ => true
  | _ => false

def Event.commit (current : Credentials Url) : Event Url → Credentials Url
  | .rotated _ replacement => replacement
  | _ => current

/-- The session after the recorded rotations. -/
def committed (imported : Credentials Url) (trace : List (Event Url)) : Credentials Url :=
  trace.foldl Event.commit imported

omit [DecidableEq Url] in
theorem committed_append (imported : Credentials Url) (trace : List (Event Url))
    (event : Event Url) :
    committed imported (trace ++ [event]) = event.commit (committed imported trace) := by
  rw [committed, foldl_append]
  rfl

omit [DecidableEq Url] in
theorem committed_cases (imported : Credentials Url) (trace : List (Event Url)) :
    (committed imported trace = imported ∧
      ∀ token replacement, .rotated token replacement ∉ trace) ∨
    ∃ before token after, trace = before ++ .rotated token (committed imported trace) :: after ∧
        ∀ found replacement, .rotated found replacement ∉ after := by
  induction trace using List.reverseRecOn with
  | nil => exact .inl ⟨rfl, fun token replacement => not_mem_nil⟩
  | append_singleton trace event ih =>
    rw [committed_append]
    by_cases hev : ∃ token replacement, event = .rotated token replacement
    · obtain ⟨token, replacement, rfl⟩ := hev
      exact .inr ⟨trace, token, [], rfl, fun found other => not_mem_nil⟩
    · have hsm : event.commit (committed imported trace) = committed imported trace := by
        cases event with
        | rotated token replacement => exact absurd ⟨token, replacement, rfl⟩ hev
        | _ => rfl
      rw [hsm]
      have hnot : ∀ found replacement, .rotated found replacement ∉ [event] := by
        intro found replacement hm
        exact hev ⟨found, replacement, (mem_singleton.mp hm).symm⟩
      obtain ⟨himp, hnone⟩ | ⟨before, token, after, hsp, hnone⟩ := ih
      · refine .inl ⟨himp, fun found replacement hm => ?_⟩
        exact (mem_append.mp hm).elim (hnone found replacement) (hnot found replacement)
      · refine .inr ⟨before, token, after ++ [event], ?_, fun found replacement hm => ?_⟩
        · conv_lhs => rw [hsp]
          simp
        · exact (mem_append.mp hm).elim (hnone found replacement)
            (hnot found replacement)

/-- Every rotated session has been saved. -/
def AllSaved (trace : List (Event Url)) : Prop :=
  ∀ before token replacement after, trace = before ++ .rotated token replacement :: after →
    .saved replacement ∈ after

/-- Every rotated session has been saved, but the last one while a save is pending. -/
def SavedUpTo (imported : Credentials Url) (trace : List (Event Url)) (pending : Bool) : Prop :=
  ∀ before token replacement after, trace = before ++ .rotated token replacement :: after →
    .saved replacement ∈ after ∨ (pending = true ∧ replacement = committed imported trace)

namespace SavedUpTo

variable {imported : Credentials Url} {trace : List (Event Url)} {pending : Bool}

omit [DecidableEq Url] in
theorem allSaved (hsav : SavedUpTo imported trace false) : AllSaved trace := by
  intro before token replacement after hsp
  obtain hm | ⟨hpend, -⟩ := hsav before token replacement after hsp
  · exact hm
  · cases hpend

omit [DecidableEq Url] in
theorem append (hsav : SavedUpTo imported trace pending) {event : Event Url}
    (hev : ∀ token replacement, event ≠ .rotated token replacement) :
    SavedUpTo imported (trace ++ [event]) pending := by
  intro before token replacement after hsp
  have hsm : committed imported (trace ++ [event]) = committed imported trace := by
    rw [committed_append]
    cases event with
    | rotated found other => exact absurd rfl (hev found other)
    | _ => rfl
  rw [hsm]
  obtain ⟨-, hf, -⟩ | ⟨rest, rfl, hrest⟩ := concat_eq_append_cons hsp
  · exact absurd hf.symm (hev token replacement)
  · exact (hsav before token replacement rest hrest).imp_left (mem_append_left _)

omit [DecidableEq Url] in
theorem append_rotated (hsav : SavedUpTo imported trace false) (token : String)
    (replacement : Credentials Url) :
    SavedUpTo imported (trace ++ [.rotated token replacement]) true := by
  intro before found other after hsp
  obtain ⟨-, hf, -⟩ | ⟨rest, rfl, hrest⟩ := concat_eq_append_cons hsp
  · cases hf
    exact .inr ⟨rfl, by rw [committed_append]; rfl⟩
  · exact .inl (mem_append_left _ (hsav.allSaved before found other rest hrest))

omit [DecidableEq Url] in
theorem append_saved (hsav : SavedUpTo imported trace true) :
    SavedUpTo imported (trace ++ [.saved (committed imported trace)]) false := by
  intro before token replacement after hsp
  obtain ⟨-, hf, -⟩ | ⟨rest, rfl, hrest⟩ := concat_eq_append_cons hsp
  · cases hf
  · left
    obtain hm | ⟨-, rfl⟩ := hsav before token replacement rest hrest
    · exact mem_append_left _ hm
    · exact mem_append_right _ (mem_singleton.mpr rfl)

end SavedUpTo

/-- What holds of submissions, of returned sessions and of saves when they happen. -/
structure TraceSound (imported : Credentials Url) (trace : List (Event Url)) : Prop where
  submitted : ∀ before token after, trace = before ++ .submitted token :: after →
    token = (committed imported before).refreshToken ∧ AllSaved before ∧
      ∀ event ∈ before, event.Halts = false
  returned : ∀ before call credentials after,
    trace = before ++ .readyOk call credentials :: after →
      credentials = committed imported before ∧ AllSaved before
  saves : ∀ before credentials after, trace = before ++ .saveStarted credentials :: after →
    .closeReturned ∉ before

omit [DecidableEq Url] in
theorem TraceSound.append {imported : Credentials Url} {trace : List (Event Url)}
    (htr : TraceSound imported trace) {event : Event Url}
    (hsub : ∀ token, event = .submitted token →
      token = (committed imported trace).refreshToken ∧ AllSaved trace ∧
        ∀ found ∈ trace, found.Halts = false)
    (hret : ∀ call credentials, event = .readyOk call credentials →
      credentials = committed imported trace ∧ AllSaved trace)
    (hsav : ∀ credentials, event = .saveStarted credentials → .closeReturned ∉ trace) :
    TraceSound imported (trace ++ [event]) where
  submitted before token after hsp := by
    obtain ⟨-, hf, rfl⟩ | ⟨rest, -, hrest⟩ := concat_eq_append_cons hsp
    · exact hsub token hf.symm
    · exact htr.submitted before token rest hrest
  returned before call credentials after hsp := by
    obtain ⟨-, hf, rfl⟩ | ⟨rest, -, hrest⟩ := concat_eq_append_cons hsp
    · exact hret call credentials hf.symm
    · exact htr.returned before call credentials rest hrest
  saves before credentials after hsp := by
    obtain ⟨-, hf, rfl⟩ | ⟨rest, -, hrest⟩ := concat_eq_append_cons hsp
    · exact hsav credentials hf.symm
    · exact htr.saves before credentials rest hrest

omit [DecidableEq Url] in
theorem TraceSound.append_plain {imported : Credentials Url} {trace : List (Event Url)}
    (htr : TraceSound imported trace) {event : Event Url}
    (hsub : ∀ token, event ≠ .submitted token)
    (hret : ∀ call credentials, event ≠ .readyOk call credentials)
    (hsav : ∀ credentials, event ≠ .saveStarted credentials) :
    TraceSound imported (trace ++ [event]) :=
  htr.append (fun token heq => absurd heq (hsub token))
    (fun call credentials heq => absurd heq (hret call credentials))
    fun credentials heq => absurd heq (hsav credentials)

/-- The call holds the task lock. -/
def ReadyPhase.Holding : ReadyPhase Url → Bool
  | .looping _ _ => true
  | .joining _ _ => true
  | .failing => true
  | .inspecting _ _ => true
  | _ => false

/-- The call has seen the slot empty. -/
def ReadyPhase.SlotEmpty : ReadyPhase Url → Bool
  | .failing => true
  | .inspecting _ _ => true
  | _ => false

omit [DecidableEq Url] in
theorem ReadyPhase.holding_of_slotEmpty {phase : ReadyPhase Url}
    (hemp : phase.SlotEmpty = true) : phase.Holding = true := by
  cases phase <;> first | rfl | cases hemp

def ClosePhase.Holding : ClosePhase → Bool
  | .joining => true
  | .finishing => true
  | _ => false

def ClosePhase.SlotEmpty : ClosePhase → Bool
  | .finishing => true
  | .returned => true
  | _ => false

/-- The worker has neither finished nor died. -/
def WorkerPhase.Active : WorkerPhase Url → Bool
  | .finished _ => false
  | .died => false
  | _ => true

/-- The worker holds the state lock. -/
def WorkerPhase.Locking : WorkerPhase Url → Bool
  | .discovering _ => true
  | .submitted _ => true
  | .saving _ _ => true
  | _ => false

namespace Session

/-- Who holds the locks, and whose receiver is in the slot. -/
structure Exclusive (session : Session Url) : Prop where
  ready : ∀ call phase, session.readies call = some phase → phase.Holding = true →
    session.taskLock = some (.ready call)
  close : ∀ call phase, session.closes call = some phase → phase.Holding = true →
    session.taskLock = some (.close call)
  empty : ∀ call phase, session.readies call = some phase → phase.SlotEmpty = true →
    session.slot = none
  closed : ∀ call phase, session.closes call = some phase → session.closed = true
  closing : ∀ call phase, session.closes call = some phase → phase.SlotEmpty = true →
    session.slot = none
  active : ∀ worker phase, session.workers worker = some phase → phase.Active = true →
    session.slot = some worker
  locked : ∀ worker phase, session.workers worker = some phase → phase.Locking = true →
    session.stateLock = some worker

/-- What a worker knows of the credentials it works on. -/
def WorkerKnows (session : Session Url) : WorkerPhase Url → Prop
  | .queued refresh => refresh = true → session.pendingSave = false
  | .discovering credentials =>
    session.pendingSave = false ∧ session.terminal = none ∧
      session.credentials = some credentials
  | .submitted credentials =>
    session.pendingSave = false ∧ session.terminal = none ∧
      session.credentials = some credentials
  | .saving _ credentials =>
    session.pendingSave = true ∧ session.credentials = some credentials
  | _ => True

/-- No worker can submit anything any more. -/
def Stopped (session : Session Url) : Prop :=
  session.terminal ≠ none ∨
  (∃ worker, session.slot = some worker ∧ session.workers worker = some .died) ∨
  (session.slot = none ∧
    (session.closed = true ∨ ∃ call, session.readies call = some .failing))

structure Sound (imported : Credentials Url) (session : Session Url) : Prop
    extends session.Exclusive where
  knows : ∀ worker phase, session.workers worker = some phase → session.WorkerKnows phase
  current : ∀ credentials, session.credentials = some credentials →
    credentials = committed imported session.trace
  saved : SavedUpTo imported session.trace session.pendingSave
  stopped : (∃ event ∈ session.trace, event.Halts = true) → session.Stopped
  returned : .closeReturned ∈ session.trace → session.closed = true ∧ session.slot = none
  trace : TraceSound imported session.trace

variable {imported : Credentials Url} {session : Session Url}

variable {phase : WorkerPhase Url}

omit [DecidableEq Url] in
theorem Exclusive.one_worker (hexcl : session.Exclusive) {first second : ℕ}
    {phase' : WorkerPhase Url} (hfst : session.workers first = some phase)
    (hact : phase.Active = true) (hsnd : session.workers second = some phase')
    (hactive' : phase'.Active = true) : first = second := by
  have hslot := hexcl.active first phase hfst hact
  rw [hexcl.active second phase' hsnd hactive'] at hslot
  exact (some.inj hslot).symm

omit [DecidableEq Url] in
theorem WorkerPhase.active_of_locking (hloc : phase.Locking = true) : phase.Active = true := by
  cases phase <;> first | rfl | cases hloc

omit [DecidableEq Url] in
theorem Exclusive.terminal_of_stopped (hexcl : session.Exclusive) {worker : ℕ}
    (hwork : session.workers worker = some phase) (hact : phase.Active = true)
    (hstop : session.Stopped) : session.terminal ≠ none := by
  have hslot := hexcl.active worker phase hwork hact
  obtain hterm | ⟨dead, hdead, hp⟩ | ⟨hemp, -⟩ := hstop
  · exact hterm
  · rw [hslot] at hdead
    cases hdead
    rw [hwork] at hp
    cases hp
    cases hact
  · rw [hslot] at hemp
    cases hemp

variable {lock : Option Holder}

omit [DecidableEq Url] in
/-- A `ready` call moves; the lock goes to it, stays, or is released by it. -/
theorem Exclusive.setReady (hexcl : session.Exclusive) {call : ℕ} {phase : ReadyPhase Url}
    (hots : ∀ holder, holder ≠ .ready call → session.taskLock = some holder →
      lock = some holder) (hhold : phase.Holding = true → lock = some (.ready call))
    (hemp : phase.SlotEmpty = true → session.slot = none) :
    ({ session with taskLock := lock }.setReady call phase).Exclusive where
  ready other found hf hheld := by
    dsimp only [Session.setReady] at hf ⊢
    by_cases hsm : other = call
    · rw [hsm, update_self] at hf
      cases hf
      rw [hsm]
      exact hhold hheld
    · rw [update_of_ne hsm] at hf
      apply hots _ _ (hexcl.ready other found hf hheld)
      exact fun heq => hsm (Holder.ready.inj heq)
  close other found hf hheld := hots _ (fun heq => by cases heq) (hexcl.close other found hf hheld)
  empty other found hf hslot := by
    dsimp only [Session.setReady] at hf
    by_cases hsm : other = call
    · rw [hsm, update_self] at hf
      cases hf
      exact hemp hslot
    · rw [update_of_ne hsm] at hf
      exact hexcl.empty other found hf hslot
  __ := hexcl

omit [DecidableEq Url] in
/-- Everything but the `ready` calls and the task lock stays. -/
theorem Sound.setReady (hs : session.Sound imported) {call : ℕ} {phase : ReadyPhase Url}
    (hots : ∀ holder, holder ≠ .ready call → session.taskLock = some holder →
      lock = some holder) (hhold : phase.Holding = true → lock = some (.ready call))
    (hemp : phase.SlotEmpty = true → session.slot = none)
    (hfai : session.readies call ≠ some .failing) :
    ({ session with taskLock := lock }.setReady call phase).Sound imported where
  toExclusive := hs.toExclusive.setReady hots hhold hemp
  __ := hs
  stopped hhal := by
    obtain hterm | hdead | ⟨hslot, hcl | ⟨other, ho⟩⟩ := hs.stopped hhal
    · exact .inl hterm
    · exact .inr (.inl hdead)
    · exact .inr (.inr ⟨hslot, .inl hcl⟩)
    · refine .inr (.inr ⟨hslot, .inr ⟨other, ?_⟩⟩)
      have hne : other ≠ call := by
        rintro rfl
        exact hfai ho
      dsimp only [Session.setReady]
      rw [update_of_ne hne]
      exact ho

omit [DecidableEq Url] in
theorem Sound.record (hs : session.Sound imported) {event : Event Url}
    (hrot : ∀ token replacement, event ≠ .rotated token replacement)
    (hhal : event.Halts = true → session.Stopped)
    (hret : event = .closeReturned → session.closed = true ∧ session.slot = none)
    (htr : TraceSound imported (session.trace ++ [event])) :
    (session.record [event]).Sound imported where
  toExclusive := { hs with }
  knows := hs.knows
  current credentials hcre := by
    have hsm : committed imported (session.trace ++ [event]) =
        committed imported session.trace := by
      rw [committed_append]
      cases event with
      | rotated token replacement => exact absurd rfl (hrot token replacement)
      | _ => rfl
    exact (hs.current credentials hcre).trans hsm.symm
  saved := hs.saved.append hrot
  stopped hsto := by
    obtain ⟨found, hf, hhalt⟩ := hsto
    obtain hpri | hlast := mem_append.mp hf
    · exact hs.stopped ⟨found, hpri, hhalt⟩
    · rw [mem_singleton.mp hlast] at hhalt
      exact hhal hhalt
  returned hm := by
    obtain hpri | hlast := mem_append.mp hm
    · exact hs.returned hpri
    · exact hret (mem_singleton.mp hlast).symm
  trace := htr

omit [DecidableEq Url] in
theorem Exclusive.emptySlot (hexcl : session.Exclusive) {worker : ℕ}
    (hslot : session.slot = some worker) (hwork : session.workers worker = some phase)
    (hend : phase.Active = false) :
    ({ session with slot := none }).Exclusive where
  __ := hexcl
  empty _ _ _ _ := rfl
  closing _ _ _ _ := rfl
  active other found hf hact := by
    have ho := hexcl.active other found hf hact
    rw [hslot] at ho
    cases ho
    rw [hwork] at hf
    cases hf
    rw [hend] at hact
    cases hact

omit [DecidableEq Url] in
/-- A `ready` call takes an ended worker out, and records a dead one. -/
theorem Sound.receive (hs : session.Sound imported) {call worker : ℕ} {next : ReadyPhase Url}
    (hslot : session.slot = some worker) (hwork : session.workers worker = some phase)
    (hend : phase.Active = false) (hdied : phase = .died → next = .failing)
    (hots : ∀ holder, holder ≠ .ready call → session.taskLock = some holder →
      lock = some holder) (hhold : next.Holding = true → lock = some (.ready call)) :
    ({ session with slot := none, taskLock := lock }.setReady call next).Sound imported where
  toExclusive := (hs.toExclusive.emptySlot hslot hwork hend).setReady hots hhold
    fun _ => rfl
  __ := hs
  stopped hhal := by
    obtain hterm | ⟨dead, hdead, hp⟩ | ⟨hemp, -⟩ := hs.stopped hhal
    · exact .inl hterm
    · rw [hslot] at hdead
      cases hdead
      rw [hwork] at hp
      cases hp
      refine .inr (.inr ⟨rfl, .inr ⟨call, ?_⟩⟩)
      rw [hdied rfl]
      exact update_self _ _ _
    · rw [hslot] at hemp
      cases hemp
  returned hm := ⟨(hs.returned hm).1, rfl⟩

/-- The session while `worker` runs, whatever that worker knows and holds. -/
structure Owned (imported : Credentials Url) (worker : ℕ) (session : Session Url) : Prop where
  slot : session.slot = some worker
  ready : ∀ call phase, session.readies call = some phase → phase.Holding = true →
    session.taskLock = some (.ready call)
  close : ∀ call phase, session.closes call = some phase → phase.Holding = true →
    session.taskLock = some (.close call)
  empty : ∀ call phase, session.readies call = some phase → phase.SlotEmpty = true →
    session.slot = none
  closed : ∀ call phase, session.closes call = some phase → session.closed = true
  closing : ∀ call phase, session.closes call = some phase → phase.SlotEmpty = true →
    session.slot = none
  others : ∀ other phase, other ≠ worker → session.workers other = some phase →
    phase.Active = false
  current : ∀ credentials, session.credentials = some credentials →
    credentials = committed imported session.trace
  saved : SavedUpTo imported session.trace session.pendingSave
  halted : (∃ event ∈ session.trace, event.Halts = true) → session.terminal ≠ none
  unreturned : .closeReturned ∉ session.trace
  trace : TraceSound imported session.trace

omit [DecidableEq Url] in
theorem Sound.owned (hs : session.Sound imported) {worker : ℕ}
    (hwork : session.workers worker = some phase) (hact : phase.Active = true) :
    session.Owned imported worker where
  slot := hs.active worker phase hwork hact
  __ := hs
  others other found hne hf := by
    rw [← Bool.not_eq_true]
    intro ho
    exact hne (hs.toExclusive.one_worker hf ho hwork hact)
  halted hhal := hs.toExclusive.terminal_of_stopped hwork hact (hs.stopped hhal)
  unreturned hm := by
    have hemp := (hs.returned hm).2
    rw [hs.active worker phase hwork hact] at hemp
    cases hemp

namespace Owned

variable {worker : ℕ}

omit [DecidableEq Url] in
theorem setWorker (hown : session.Owned imported worker) {phase : WorkerPhase Url}
    {lock : Option ℕ} (hlock : phase.Locking = true → lock = some worker)
    (hkno : session.WorkerKnows phase) :
    ({ session with stateLock := lock }.setWorker worker phase).Sound imported where
  __ := hown
  active other found hf hact := by
    dsimp only [Session.setWorker] at hf ⊢
    by_cases hsm : other = worker
    · rw [hsm]
      exact hown.slot
    · rw [update_of_ne hsm] at hf
      rw [hown.others other found hsm hf] at hact
      cases hact
  locked other found hf hloc := by
    dsimp only [Session.setWorker] at hf ⊢
    by_cases hsm : other = worker
    · rw [hsm, update_self] at hf
      cases hf
      rw [hsm]
      exact hlock hloc
    · rw [update_of_ne hsm] at hf
      have hact := WorkerPhase.active_of_locking hloc
      rw [hown.others other found hsm hf] at hact
      cases hact
  knows other found hf := by
    dsimp only [Session.setWorker] at hf
    by_cases hsm : other = worker
    · rw [hsm, update_self] at hf
      cases hf
      cases phase <;> exact hkno
    · rw [update_of_ne hsm] at hf
      have hend := hown.others other found hsm hf
      cases found <;> trivial
  stopped hhal := .inl (hown.halted hhal)
  returned hm := absurd hm hown.unreturned

omit [DecidableEq Url] in
theorem finish (hown : session.Owned imported worker) (result : Except Error Bool) :
    (session.finish worker result).Sound imported :=
  hown.setWorker (fun hloc => by cases hloc) trivial

omit [DecidableEq Url] in
theorem halted_append (hown : session.Owned imported worker) {event : Event Url}
    (hhal : event.Halts = false) :
    (∃ found ∈ session.trace ++ [event], found.Halts = true) → session.terminal ≠ none := by
  rintro ⟨found, hf, hhalt⟩
  obtain hpri | hlast := mem_append.mp hf
  · exact hown.halted ⟨found, hpri, hhalt⟩
  · rw [mem_singleton.mp hlast, hhal] at hhalt
    cases hhalt

omit [DecidableEq Url] in
theorem unreturned_append (hown : session.Owned imported worker) {event : Event Url}
    (hret : event ≠ .closeReturned) : .closeReturned ∉ session.trace ++ [event] := by
  intro hm
  obtain hpri | hlast := mem_append.mp hm
  · exact hown.unreturned hpri
  · exact hret (mem_singleton.mp hlast).symm

omit [DecidableEq Url] in
theorem record (hown : session.Owned imported worker) {event : Event Url}
    (hrot : ∀ token replacement, event ≠ .rotated token replacement)
    (hhal : event.Halts = false) (hret : event ≠ .closeReturned)
    (htr : TraceSound imported (session.trace ++ [event])) :
    (session.record [event]).Owned imported worker where
  __ := hown
  current credentials hcre := by
    have hsm : committed imported (session.trace ++ [event]) =
        committed imported session.trace := by
      rw [committed_append]
      cases event with
      | rotated token replacement => exact absurd rfl (hrot token replacement)
      | _ => rfl
    exact (hown.current credentials hcre).trans hsm.symm
  saved := hown.saved.append hrot
  halted := hown.halted_append hhal
  unreturned := hown.unreturned_append hret
  trace := htr

omit [DecidableEq Url] in
theorem beginSave (hown : session.Owned imported worker)
    (hlock : session.stateLock = some worker) (refresh : Bool) :
    (session.beginSave worker refresh).Sound imported := by
  unfold Session.beginSave
  split
  · exact hown.finish _
  · split
    · rename_i hpend
      split
      · exact hown.finish _
      · rename_i credentials hcre
        have hrec : (session.record [.saveStarted credentials]).Owned imported worker :=
          hown.record (by simp) rfl (by simp)
            (hown.trace.append (by simp) (by simp) fun _ _ => hown.unreturned)
        exact hrec.setWorker (fun _ => hlock) ⟨hpend, hcre⟩
    · exact hown.finish _

omit [DecidableEq Url] in
theorem fail (hown : session.Owned imported worker) (hterm : session.terminal = none)
    {error : Error} {before : List (Event Url)}
    (hpre : before = [] ∨ ∃ token, before = [.outcomeUnknown token] ∧ terminalOf error ≠ none) :
    ((session.record before).failRefresh worker error).Sound imported := by
  have hbase : ({ session with terminal := terminalOf error }).Owned imported worker :=
    { hown with halted := fun hhal => absurd hterm (hown.halted hhal) }
  have hfin := hbase.finish (.error error)
  have hmid : (({ session with terminal := terminalOf error }.finish worker
      (.error error)).record before).Sound imported := by
    obtain rfl | ⟨token, rfl, hsome⟩ := hpre
    · rw [Session.record, append_nil]
      exact hfin
    · exact hfin.record (by simp) (fun _ => .inl hsome) (by simp)
        (hfin.trace.append_plain (by simp) (by simp) (by simp))
  change ((({ session with terminal := terminalOf error }.finish worker
    (.error error)).record before).record ((terminalOf error).toList.map .terminal)).Sound imported
  cases hrsn : terminalOf error with
  | none =>
    rw [hrsn] at hmid
    rw [toList_none, map_nil, Session.record, append_nil]
    exact hmid
  | some reason =>
    rw [hrsn] at hmid
    exact hmid.record (by simp) (fun _ => .inl (some_ne_none reason)) (by simp)
      (hmid.trace.append_plain (by simp) (by simp) (by simp))

theorem beginWorker (hown : session.Owned imported worker) (client : TokenClient Url)
    {refresh : Bool} (hkno : refresh = true → session.pendingSave = false) :
    (session.beginWorker client worker refresh).Sound imported := by
  have hbase : ({ session with stateLock := some worker }).Owned imported worker :=
    { hown with }
  unfold Session.beginWorker
  dsimp only
  split
  · exact hbase.finish _
  · rename_i hopen
    obtain ⟨-, hterm⟩ := checkOpen_eq_ok.mp hopen
    split
    · rename_i href
      split
      · exact hbase.finish _
      · rename_i credentials hcre
        split
        · rename_i error _
          have hfail : ((({ session with stateLock := some worker }).record []).failRefresh worker
              error).Sound imported := hbase.fail hterm (.inl rfl)
          rw [Session.record, append_nil] at hfail
          exact hfail
        · exact hown.setWorker (fun _ => rfl) ⟨hkno href, hterm, hcre⟩
    · exact hbase.beginSave rfl refresh

variable {credentials : Credentials Url}

theorem discovered (hown : session.Owned imported worker) (client : TokenClient Url)
    (library : Library Url) (hlock : session.stateLock = some worker)
    (hkno : session.WorkerKnows (.discovering credentials)) (answer : DiscoveryAnswer) :
    (match client.discover library answer with
      | .error error => session.failRefresh worker error
      | .ok _ => (session.setWorker worker (.submitted credentials)).record
          [.submitted credentials.refreshToken]).Sound imported := by
  obtain ⟨hpend, hterm, hcre⟩ := hkno
  split
  · rename_i error _
    have hfail : ((session.record []).failRefresh worker error).Sound imported :=
      hown.fail hterm (.inl rfl)
    rw [Session.record, append_nil] at hfail
    exact hfail
  · have hsav := hown.saved
    rw [hpend] at hsav
    have hqui : ∀ found ∈ session.trace, found.Halts = false := by
      intro found hf
      rw [← Bool.not_eq_true]
      exact fun hhal => hown.halted ⟨found, hf, hhal⟩ hterm
    have hrec : (session.record [.submitted credentials.refreshToken]).Owned imported
        worker := by
      apply hown.record (by simp) rfl (by simp)
      apply hown.trace.append _ (by simp) (by simp)
      intro token htok
      cases htok
      rw [← hown.current credentials hcre]
      exact ⟨rfl, hsav.allSaved, hqui⟩
    exact hrec.setWorker (fun _ => hlock) ⟨hpend, hterm, hcre⟩

omit [DecidableEq Url] in
theorem settle (hown : session.Owned imported worker) (client : TokenClient Url)
    (library : Library Url) (hlock : session.stateLock = some worker)
    (hkno : session.WorkerKnows (.submitted credentials)) (issuedAt : DateTime)
    (answer : TokenAnswer) :
    (session.settle client library worker credentials issuedAt answer).Sound imported := by
  obtain ⟨hpend, hterm, hcreds⟩ := hkno
  unfold Session.settle
  split
  · exact hown.fail hterm (.inr ⟨_, rfl, by decide⟩)
  · rename_i error _ _
    have hfail : ((session.record []).failRefresh worker error).Sound imported :=
      hown.fail hterm (.inl rfl)
    rw [Session.record, append_nil] at hfail
    exact hfail
  · rename_i replacement _
    -- The rotated session is the current one from here on, its save pending.
    have hsav := hown.saved
    rw [hpend] at hsav
    have hcomm : ({ session with credentials := some replacement, pendingSave := true }.record
        [.rotated credentials.refreshToken replacement]).Owned imported worker :=
      { hown with
        current := by
          intro found hf
          cases hf
          change replacement = committed imported (session.trace ++ [_])
          rw [committed_append]
          rfl
        saved := hsav.append_rotated _ _
        halted := hown.halted_append rfl
        unreturned := hown.unreturned_append nofun
        trace := hown.trace.append_plain (by simp) (by simp) (by simp) }
    exact hcomm.beginSave hlock true

omit [DecidableEq Url] in
theorem acknowledged (hown : session.Owned imported worker) (hpend : session.pendingSave = true)
    (hcre : session.credentials = some credentials) (result : Except Error Bool) :
    (({ session with pendingSave := false }.finish worker result).record
      [.saved credentials]).Sound imported := by
  have hsav := hown.saved
  rw [hpend] at hsav
  have hsm : credentials = committed imported session.trace := hown.current credentials hcre
  have hbase : ({ session with pendingSave := false }.record [.saved credentials]).Owned
      imported worker :=
    { hown with
      current := by
        intro found hf
        change found = committed imported (session.trace ++ [_])
        rw [committed_append]
        exact hown.current found hf
      saved := by
        rw [hsm]
        exact hsav.append_saved
      halted := hown.halted_append rfl
      unreturned := hown.unreturned_append nofun
      trace := hown.trace.append_plain (by simp) (by simp) (by simp) }
  exact hbase.finish result

omit [DecidableEq Url] in
theorem die (hown : session.Owned imported worker) (lock : Option ℕ) :
    (({ session with stateLock := lock }.setWorker worker .died).record
      [.died worker]).Sound imported := by
  have hdied : ({ session with stateLock := lock }.setWorker worker .died).Sound imported :=
    hown.setWorker (fun hloc => by cases hloc) trivial
  refine hdied.record (by simp) (fun _ => .inr (.inl ⟨worker, hown.slot, ?_⟩)) (by simp)
    (hdied.trace.append_plain (by simp) (by simp) (by simp))
  exact update_self _ _ _

end Owned

namespace Sound

omit [DecidableEq Url] in
theorem not_locking (hs : session.Sound imported) (hlock : session.stateLock = none)
    {worker : ℕ} {phase : WorkerPhase Url} (hwork : session.workers worker = some phase) :
    phase.Locking = false := by
  rw [← Bool.not_eq_true]
  intro hloc
  have hheld := hs.locked worker phase hwork hloc
  rw [hlock] at hheld
  cases hheld

omit [DecidableEq Url] in
theorem requireLogin (hs : session.Sound imported) (hlock : session.stateLock = none) :
    ({ session with terminal := some .login }.record [.terminal .login]).Sound imported := by
  have hbase : ({ session with terminal := some .login }).Sound imported :=
    { hs with
      toExclusive := { hs with }
      knows := by
        intro worker phase hwork
        have hfree := hs.not_locking hlock hwork
        have hkno := hs.knows worker phase hwork
        cases phase <;> first | exact hkno | cases hfree
      stopped := fun _ => .inl (some_ne_none _) }
  exact hbase.record (by simp) (fun _ => .inl (some_ne_none _)) (by simp)
    (hbase.trace.append_plain (by simp) (by simp) (by simp))

variable {call : ℕ}

omit [DecidableEq Url] in
/-- A `ready` call that holds the task lock returns an error. -/
theorem refuse (hs : session.Sound imported) (hheld : session.taskLock = some (.ready call))
    (hfai : session.readies call ≠ some .failing) (error : Error) :
    (session.refuse call error).Sound imported :=
  hs.setReady
    (fun holder hne hhold => absurd (some.inj (hheld.symm.trans hhold)).symm hne)
    (fun hhold => by cases hhold) (fun hemp => by cases hemp) hfai

omit [DecidableEq Url] in
theorem recordDeath (hs : session.Sound imported)
    (hheld : session.taskLock = some (.ready call)) (hlock : session.stateLock = none) :
    (({ session with terminal := some .login }.refuse call .authenticationRequired).record
      [.terminal .login]).Sound imported := by
  have hlog := hs.requireLogin hlock
  have hexcl : ({ { session with terminal := some .login }.record [.terminal .login] with
      taskLock := none }.setReady call
        (.returned (.error .authenticationRequired))).Exclusive := hlog.toExclusive.setReady
    (fun holder hne hhold => absurd (some.inj (hheld.symm.trans hhold)).symm hne)
    (fun hhold => by cases hhold) (fun hemp => by cases hemp)
  exact
    { toExclusive := hexcl
      __ := hlog
      stopped := fun _ => .inl (some_ne_none _) }

omit [DecidableEq Url] in
/-- A `ready` call that found the slot empty and the session open spawns a worker. -/
theorem spawn (hs : session.Sound imported) {mode : RefreshMode} {refreshed : Bool}
    (hc : session.readies call = some (.inspecting mode refreshed))
    (hheld : session.taskLock = some (.ready call)) (hslot : session.slot = none)
    (hcl : session.closed = false) (hterm : session.terminal = none) {worker : ℕ}
    {refresh : Bool} :
    (({ session with slot := some worker }.setWorker worker
      (.queued (refresh && !session.pendingSave))).setReady call
        (.looping mode refreshed)).Sound imported := by
  have hidle : ∀ other phase, session.workers other = some phase → phase.Active = false := by
    intro other phase ho
    rw [← Bool.not_eq_true]
    intro hact
    rw [hs.active other phase ho hact] at hslot
    cases hslot
  have honly : ∀ other phase, other ≠ call → session.readies other = some phase →
      phase.Holding = false := by
    intro other phase hne ho
    rw [← Bool.not_eq_true]
    intro hhold
    have hlock := hs.ready other phase ho hhold
    rw [hheld] at hlock
    exact hne (Holder.ready.inj (some.inj hlock)).symm
  have hnev : ∀ other phase, session.closes other = some phase → False := by
    intro other phase ho
    have hcanc := hs.closed other phase ho
    rw [hcl] at hcanc
    cases hcanc
  have hqui : ¬ ∃ event ∈ session.trace, event.Halts = true := by
    intro hhal
    obtain hend | ⟨dead, hdead, -⟩ | ⟨-, hcanc | ⟨other, ho⟩⟩ := hs.stopped hhal
    · exact hend hterm
    · rw [hslot] at hdead
      cases hdead
    · rw [hcl] at hcanc
      cases hcanc
    · have hne : other ≠ call := by
        rintro rfl
        rw [hc] at ho
        cases ho
      cases honly other .failing hne ho
  refine ⟨⟨?_, ?_, ?_, ?_, ?_, ?_, ?_⟩, ?_, hs.current, hs.saved, ?_, ?_, hs.trace⟩
  · intro other phase ho hhold
    dsimp only [Session.setReady, Session.setWorker] at ho ⊢
    by_cases hsm : other = call
    · rw [hsm]
      exact hheld
    · rw [update_of_ne hsm] at ho
      rw [honly other phase hsm ho] at hhold
      cases hhold
  · exact fun other phase ho => (hnev other phase ho).elim
  · intro other phase ho hemp
    dsimp only [Session.setReady, Session.setWorker] at ho
    by_cases hsm : other = call
    · rw [hsm, update_self] at ho
      cases ho
      cases hemp
    · rw [update_of_ne hsm] at ho
      have hhold := honly other phase hsm ho
      rw [ReadyPhase.holding_of_slotEmpty hemp] at hhold
      cases hhold
  · exact fun other phase ho => (hnev other phase ho).elim
  · exact fun other phase ho => (hnev other phase ho).elim
  · intro other phase ho hact
    dsimp only [Session.setReady, Session.setWorker] at ho ⊢
    by_cases hsm : other = worker
    · rw [hsm]
    · rw [update_of_ne hsm] at ho
      rw [hidle other phase ho] at hact
      cases hact
  · intro other phase ho hloc
    dsimp only [Session.setReady, Session.setWorker] at ho
    by_cases hsm : other = worker
    · rw [hsm, update_self] at ho
      cases ho
      cases hloc
    · rw [update_of_ne hsm] at ho
      have hact := WorkerPhase.active_of_locking hloc
      rw [hidle other phase ho] at hact
      cases hact
  · intro other phase ho
    dsimp only [Session.setReady, Session.setWorker] at ho
    by_cases hsm : other = worker
    · rw [hsm, update_self] at ho
      cases ho
      intro href
      rw [Bool.and_eq_true, Bool.not_eq_true'] at href
      exact href.2
    · rw [update_of_ne hsm] at ho
      have hend := hidle other phase ho
      cases phase <;> trivial
  · exact fun hhal => absurd hhal hqui
  · intro hm
    have hcanc := (hs.returned hm).1
    rw [hcl] at hcanc
    cases hcanc

omit [DecidableEq Url] in
/-- The critical section of `ready`. -/
theorem inspect (hs : session.Sound imported) {mode : RefreshMode} {refreshed : Bool}
    (hc : session.readies call = some (.inspecting mode refreshed)) {now : DateTime} {worker : ℕ}
    {runtime : Bool} {next : Session Url}
    (hinsp : session.inspect call mode refreshed now worker runtime = some next) :
    next.Sound imported := by
  have hheld : session.taskLock = some (.ready call) := hs.ready call _ hc rfl
  have hslot : session.slot = none := hs.empty call _ hc rfl
  have hfai : session.readies call ≠ some .failing := by
    rw [hc]
    simp
  unfold Session.inspect at hinsp
  split at hinsp
  · cases hinsp
    exact hs.refuse hheld hfai _
  · rename_i hopen
    obtain ⟨hcl, hterm⟩ := checkOpen_eq_ok.mp hopen
    split at hinsp
    · cases hinsp
      exact hs.refuse hheld hfai _
    · rename_i credentials hcre
      dsimp only at hinsp
      split at hinsp
      · rename_i hsettled
        cases hinsp
        rw [Bool.and_eq_true, Bool.not_eq_true', Bool.not_eq_true'] at hsettled
        have hsav := hs.saved
        rw [hsettled.1] at hsav
        have hret : ({ session with taskLock := none }.setReady call
            (.returned (.ok (credentials, refreshed)))).Sound imported :=
          hs.setReady
            (fun holder hne hhold =>
              absurd (some.inj (hheld.symm.trans hhold)).symm hne)
            (fun hhold => by cases hhold) (fun hemp => by cases hemp) hfai
        apply hret.record (by simp) (fun hhal => by cases hhal) (by simp)
        apply hret.trace.append (by simp) _ (by simp)
        intro found other heq
        cases heq
        exact ⟨hs.current credentials hcre, hsav.allSaved⟩
      · split at hinsp
        · cases hinsp
          exact hs.refuse hheld hfai _
        · split at hinsp
          · cases hinsp
          · cases hinsp
            exact hs.spawn hc hheld hslot hcl hterm

omit [DecidableEq Url] in
/-- A `close` call moves; its first step cancels the session. -/
theorem setClose (hs : session.Sound imported) {phase : ClosePhase} {lock : Option Holder}
    (hots : ∀ holder, holder ≠ .close call → session.taskLock = some holder →
      lock = some holder) (hhold : phase.Holding = true → lock = some (.close call))
    (hemp : phase.SlotEmpty = true → session.slot = none) :
    ({ session with closed := true, taskLock := lock }.setClose call phase).Sound imported where
  ready other found hf hheld := hots _ (fun heq => by cases heq) (hs.ready other found hf hheld)
  close other found hf hheld := by
    dsimp only [Session.setClose] at hf ⊢
    by_cases hsm : other = call
    · rw [hsm, update_self] at hf
      cases hf
      rw [hsm]
      exact hhold hheld
    · rw [update_of_ne hsm] at hf
      apply hots _ _ (hs.close other found hf hheld)
      exact fun heq => hsm (Holder.close.inj heq)
  __ := hs
  closed _ _ _ := rfl
  closing other found hf hslot := by
    dsimp only [Session.setClose] at hf
    by_cases hsm : other = call
    · rw [hsm, update_self] at hf
      cases hf
      exact hemp hslot
    · rw [update_of_ne hsm] at hf
      exact hs.closing other found hf hslot
  stopped hhal := by
    obtain hterm | hdead | ⟨hslot, -⟩ := hs.stopped hhal
    · exact .inl hterm
    · exact .inr (.inl hdead)
    · exact .inr (.inr ⟨hslot, .inl rfl⟩)
  returned hm := ⟨rfl, (hs.returned hm).2⟩

omit [DecidableEq Url] in
/-- `close` takes an ended worker out of the slot. -/
theorem closeReceive (hs : session.Sound imported) {worker : ℕ} {phase : WorkerPhase Url}
    (hc : session.closes call = some .joining) (hslot : session.slot = some worker)
    (hwork : session.workers worker = some phase) (hend : phase.Active = false) :
    ({ session with slot := none }.setClose call .finishing).Sound imported := by
  have hcl : session.closed = true := hs.closed call _ hc
  have hheld : session.taskLock = some (.close call) := hs.close call _ hc rfl
  have hemp : ({ session with slot := none }).Sound imported :=
    { hs with
      toExclusive := hs.toExclusive.emptySlot hslot hwork hend
      stopped := fun hhal => by
        obtain hterm | - | - := hs.stopped hhal
        · exact .inl hterm
        · exact .inr (.inr ⟨rfl, .inl hcl⟩)
        · exact .inr (.inr ⟨rfl, .inl hcl⟩)
      returned := fun _ => ⟨hcl, rfl⟩ }
  have hmov : ({ { session with slot := none } with
      closed := true, taskLock := session.taskLock }.setClose call .finishing).Sound imported :=
    hemp.setClose (fun _ _ hhold => hhold) (fun _ => hheld) fun _ => rfl
  rw [← hcl] at hmov
  exact hmov

omit [DecidableEq Url] in
/-- `close` forgets the credentials and returns. -/
theorem closeFinish (hs : session.Sound imported)
    (hc : session.closes call = some .finishing) :
    (({ session with credentials := none, taskLock := none }.setClose call .returned).record
      [.closeReturned]).Sound imported := by
  have hcl : session.closed = true := hs.closed call _ hc
  have hheld : session.taskLock = some (.close call) := hs.close call _ hc rfl
  have hslot : session.slot = none := hs.closing call _ hc rfl
  have hfor : ({ session with credentials := none }).Sound imported :=
    { hs with
      toExclusive := { hs with }
      knows := by
        intro worker phase hwork
        have hkno := hs.knows worker phase hwork
        have hact := hs.active worker phase hwork
        rw [hslot] at hact
        cases phase <;> first | exact hkno | cases hact rfl
      current := fun _ hcre => by cases hcre }
  have hret : ({ { session with credentials := none } with
      closed := true, taskLock := none }.setClose call .returned).Sound imported :=
    hfor.setClose
      (fun holder hne hhold => absurd (some.inj (hheld.symm.trans hhold)).symm hne)
      (fun hhold => by cases hhold) fun _ => hslot
  rw [← hcl] at hret
  exact hret.record (by simp) (fun hhal => by cases hhal) (fun _ => ⟨hcl, hslot⟩)
    (hret.trace.append_plain (by simp) (by simp) (by simp))

end Sound

/-- Not the drop of a `ready` call with a dead worker in hand. -/
def RecordsDeaths (session : Session Url) : Label → Prop
  | .drop call => session.readies call ≠ some .failing
  | _ => True

namespace Sound

variable {client : TokenClient Url} {library : Library Url}

theorem step {label : Label} {next : Session Url} (hs : session.Sound imported)
    (hrecs : session.RecordsDeaths label)
    (hstep : session.step client library label = some next) : next.Sound imported := by
  cases label with
  | ready call mode =>
    rw [Session.step] at hstep
    split at hstep
    · rename_i hnone
      cases hstep
      exact hs.setReady (fun _ _ hhold => hhold) (fun hhold => by cases hhold)
        (fun hemp => by cases hemp) (by rw [hnone]; simp)
    · cases hstep
  | lockTask call =>
    rw [Session.step] at hstep
    split at hstep
    · rename_i mode hc hfree
      cases hstep
      refine hs.setReady ?_ (fun _ => rfl) (fun hemp => by cases hemp)
        (by rw [hc]; simp)
      intro holder _ hhold
      rw [hfree] at hhold
      cases hhold
    · cases hstep
  | interrupt call interruption =>
    unfold Session.step at hstep
    dsimp only at hstep
    split at hstep
    · cases hstep
    · rename_i hc _
      cases hstep
      exact hs.setReady (fun _ _ hhold => hhold) (fun hhold => by cases hhold)
        (fun hemp => by cases hemp) (by rw [hc]; simp)
    · rename_i hc
      cases hstep
      exact hs.refuse (hs.ready call _ hc rfl) (by rw [hc]; simp) _
    · cases hstep
  | loop call =>
    rw [Session.step] at hstep
    split at hstep
    · rename_i mode refreshed hc
      cases hstep
      have hheld : session.taskLock = some (.ready call) := hs.ready call _ hc rfl
      refine hs.setReady (fun _ _ hhold => hhold) (fun _ => hheld) ?_
        (by rw [hc]; simp)
      cases hslot : session.slot with
      | none => exact fun _ => rfl
      | some worker => exact fun hemp => by cases hemp
    · cases hstep
  | receive call =>
    rw [Session.step] at hstep
    split at hstep
    · rename_i mode refreshed joined hc hf
      obtain ⟨worker, hslot, hwork⟩ := bind_eq_some_iff.mp hf
      cases hstep
      exact hs.receive hslot hwork rfl (fun hdied => by cases hdied)
        (fun _ _ hhold => hhold) fun _ => hs.ready call _ hc rfl
    · rename_i mode refreshed error hc hf
      obtain ⟨worker, hslot, hwork⟩ := bind_eq_some_iff.mp hf
      have hheld : session.taskLock = some (.ready call) := hs.ready call _ hc rfl
      cases hstep
      exact hs.receive hslot hwork rfl (fun hdied => by cases hdied)
        (fun holder hne hhold => absurd (some.inj (hheld.symm.trans hhold)).symm hne)
        fun hhold => by cases hhold
    · rename_i mode refreshed hc hf
      obtain ⟨worker, hslot, hwork⟩ := bind_eq_some_iff.mp hf
      cases hstep
      exact hs.receive hslot hwork rfl (fun _ => rfl)
        (fun _ _ hhold => hhold) fun _ => hs.ready call _ hc rfl
    · cases hstep
  | recordDeath call =>
    rw [Session.step] at hstep
    split at hstep
    · rename_i hc hlock
      cases hstep
      exact hs.recordDeath (hs.ready call _ hc rfl) hlock
    · cases hstep
  | inspect call now worker runtime =>
    rw [Session.step] at hstep
    split at hstep
    · rename_i mode refreshed hc hlock
      exact hs.inspect hc hstep
    · cases hstep
  | drop call =>
    rw [Session.step] at hstep
    split at hstep
    · rename_i hc
      cases hstep
      exact hs.setReady (fun _ _ hhold => hhold) (fun hhold => by cases hhold)
        (fun hemp => by cases hemp) hrecs
    · rename_i hc
      have hheld : session.taskLock = some (.ready call) := hs.ready call _ hc rfl
      cases hstep
      exact hs.setReady
        (fun holder hne hhold => absurd (some.inj (hheld.symm.trans hhold)).symm hne)
        (fun hhold => by cases hhold) (fun hemp => by cases hemp) hrecs
    · rename_i hc
      exact absurd hc hrecs
    · rename_i hc
      have hheld : session.taskLock = some (.ready call) := hs.ready call _ hc rfl
      cases hstep
      exact hs.setReady
        (fun holder hne hhold => absurd (some.inj (hheld.symm.trans hhold)).symm hne)
        (fun hhold => by cases hhold) (fun hemp => by cases hemp) hrecs
    · cases hstep
  | «begin» worker =>
    rw [Session.step] at hstep
    split at hstep
    · rename_i refresh hwork hlock
      cases hstep
      exact (hs.owned hwork rfl).beginWorker client (hs.knows worker _ hwork)
    · cases hstep
  | discovered worker answer =>
    rw [Session.step] at hstep
    split at hstep
    · rename_i credentials hwork
      have hn := (hs.owned hwork rfl).discovered client library
        (hs.locked worker _ hwork rfl) (hs.knows worker _ hwork) answer
      split at hstep
      · rename_i error heq
        rw [heq] at hn
        cases hstep
        exact hn
      · rename_i endpoint heq
        rw [heq] at hn
        cases hstep
        exact hn
    · cases hstep
  | answered worker issuedAt answer =>
    rw [Session.step] at hstep
    split at hstep
    · rename_i credentials hwork
      cases hstep
      exact (hs.owned hwork rfl).settle client library
        (hs.locked worker _ hwork rfl) (hs.knows worker _ hwork) issuedAt answer
    · cases hstep
  | saveReturned worker acknowledged =>
    rw [Session.step] at hstep
    split at hstep
    · rename_i refresh credentials hwork
      obtain ⟨hpend, hcre⟩ := hs.knows worker _ hwork
      split at hstep
      · cases hstep
        exact (hs.owned hwork rfl).acknowledged hpend hcre _
      · cases hstep
        exact (hs.owned hwork rfl).finish _
    · cases hstep
  | die worker =>
    rw [Session.step] at hstep
    split at hstep
    · rename_i refresh hwork
      cases hstep
      exact (hs.owned hwork rfl).die session.stateLock
    · rename_i hwork
      cases hstep
      exact (hs.owned hwork rfl).die none
    · rename_i hwork
      cases hstep
      exact (hs.owned hwork rfl).die none
    · rename_i hwork
      cases hstep
      exact (hs.owned hwork rfl).die none
    · cases hstep
  | requireLogin =>
    rw [Session.step] at hstep
    split at hstep
    · rename_i hlock
      cases hstep
      exact hs.requireLogin hlock
    · cases hstep
  | close call =>
    rw [Session.step] at hstep
    split at hstep
    · cases hstep
      exact hs.setClose (fun _ _ hhold => hhold) (fun hhold => by cases hhold)
        fun hemp => by cases hemp
    · cases hstep
  | closeLock call =>
    rw [Session.step] at hstep
    split at hstep
    · rename_i hc hfree
      cases hstep
      have hcl : session.closed = true := hs.closed call _ hc
      have hmov : ∀ phase : ClosePhase, (phase.SlotEmpty = true → session.slot = none) →
          ({ session with closed := session.closed, taskLock := some (.close call) }.setClose
            call phase).Sound imported := by
        intro phase hemp
        rw [hcl]
        refine hs.setClose ?_ (fun _ => rfl) hemp
        intro holder _ hhold
        rw [hfree] at hhold
        cases hhold
      apply hmov
      cases hslot : session.slot with
      | none => exact fun _ => rfl
      | some worker => exact fun hemp => by cases hemp
    · cases hstep
  | closeReceive call =>
    rw [Session.step] at hstep
    split at hstep
    · rename_i result hc hf
      obtain ⟨worker, hslot, hwork⟩ := bind_eq_some_iff.mp hf
      cases hstep
      exact hs.closeReceive hc hslot hwork rfl
    · rename_i hc hf
      obtain ⟨worker, hslot, hwork⟩ := bind_eq_some_iff.mp hf
      cases hstep
      exact hs.closeReceive hc hslot hwork rfl
    · cases hstep
  | closeFinish call =>
    rw [Session.step] at hstep
    split at hstep
    · rename_i hc hlock
      cases hstep
      exact hs.closeFinish hc
    · cases hstep

omit [DecidableEq Url] in
theorem new (imported : Credentials Url) : (Session.new imported).Sound imported where
  ready _ _ hc := by cases hc
  close _ _ hc := by cases hc
  empty _ _ hc := by cases hc
  closed _ _ hc := by cases hc
  closing _ _ hc := by cases hc
  active _ _ hwork := by cases hwork
  locked _ _ hwork := by cases hwork
  knows _ _ hwork := by cases hwork
  current credentials hcre := by
    cases hcre
    rfl
  saved before token replacement after hsp := by cases before <;> cases hsp
  stopped := by
    rintro ⟨event, hm, -⟩
    cases hm
  returned hm := by cases hm
  trace := by
    refine ⟨?_, ?_, ?_⟩
    · intro before token after hsp
      cases before <;> cases hsp
    · intro before call credentials after hsp
      cases before <;> cases hsp
    · intro before credentials after hsp
      cases before <;> cases hsp

end Sound

end Session

omit [DecidableEq Url] in
theorem committed_foldl (imported : Credentials Url) (before after : List (Event Url)) :
    committed imported (before ++ after) = committed (committed imported before) after := by
  rw [committed, committed, committed, foldl_append]

/-- No session, token or worker is lost or doubled unless a `ready` call is dropped. -/
theorem zitadel_session_rotation (client : TokenClient Url) (library : Library Url)
    (imported : Credentials Url) (labels : List Label) (session : Session Url)
    (hguard : GuardedRun (Session.step client library) (Session.new imported)
      Session.RecordsDeaths labels)
    (hrun : runSteps (Session.step client library) (Session.new imported) labels = some session) :
    (∀ first second phase phase', session.workers first = some phase → phase.Active = true →
      session.workers second = some phase' → phase'.Active = true → first = second) ∧
    (∀ (before : List (Event Url)) old replacement (middle : List (Event Url)) token
        (after : List (Event Url)),
      session.trace = before ++ .rotated old replacement :: middle ++ .submitted token :: after →
        ∃ found issued, .rotated found issued ∈ .rotated old replacement :: middle ∧
          issued.refreshToken = token) ∧
    (∀ (before : List (Event Url)) token (after : List (Event Url)),
      session.trace = before ++ .submitted token :: after →
      AllSaved before ∧ ∀ event ∈ before, event.Halts = false) ∧
    (∀ (before : List (Event Url)) call credentials (after : List (Event Url)),
      session.trace = before ++ .readyOk call credentials :: after → AllSaved before ∧
          ((credentials = imported ∧ ∀ token replacement, .rotated token replacement ∉ before) ∨
            .saved credentials ∈ before)) ∧
    (.closeReturned ∈ session.trace → ∀ worker phase, session.workers worker = some phase →
      phase.Active = false) ∧
    ∀ (before : List (Event Url)) credentials (after : List (Event Url)),
      session.trace = before ++ .saveStarted credentials :: after → .closeReturned ∉ before := by
  have hsound : session.Sound imported := by
    refine invariant_of_guardedRun (Session.Sound.new imported) ?_ hguard hrun
    intro state label next hstate hrecords hnext
    exact hstate.step hrecords hnext
  refine ⟨?_, ?_, ?_, ?_, ?_, hsound.trace.saves⟩
  · intro first second phase phase' hfirst hactive hsecond hactive'
    exact hsound.toExclusive.one_worker hfirst hactive hsecond hactive'
  · intro before old replacement middle token after hsplit
    obtain ⟨htoken, -, -⟩ := hsound.trace.submitted _ token after hsplit
    rw [committed_foldl] at htoken
    obtain ⟨-, hnone⟩ | ⟨first, found, rest, hlast, -⟩ :=
      committed_cases (committed imported before) (.rotated old replacement :: middle)
    · exact absurd mem_cons_self (hnone old replacement)
    · refine ⟨found, _, ?_, htoken.symm⟩
      have hmem : .rotated found (committed (committed imported before)
          (.rotated old replacement :: middle)) ∈ .rotated old replacement :: middle ↔ _ :=
        Eq.to_iff (congrArg (_ ∈ ·) hlast)
      exact hmem.mpr (mem_append_right first mem_cons_self)
  · intro before token after hsplit
    exact (hsound.trace.submitted before token after hsplit).2
  · intro before call credentials after hsplit
    obtain ⟨rfl, hsaved⟩ := hsound.trace.returned before call credentials after hsplit
    refine ⟨hsaved, ?_⟩
    obtain himported | ⟨first, token, rest, hlast, -⟩ := committed_cases imported before
    · exact .inl himported
    · have hmem := hsaved first token _ rest hlast
      have hbefore : .saved (committed imported before) ∈ before ↔ _ :=
        Eq.to_iff (congrArg (_ ∈ ·) hlast)
      exact .inr (hbefore.mpr (mem_append_right first (mem_cons_of_mem _ hmem)))
  · intro hreturned worker phase hworker
    rw [← Bool.not_eq_true]
    intro hactive
    have hempty := (hsound.returned hreturned).2
    rw [hsound.active worker phase hworker hactive] at hempty
    cases hempty

def sampleLibrary : Library String where
  parse := some
  origin := id
  validUrl _ := true
  validClientId _ := true
  validToken _ := true

def sampleClient : TokenClient String := ⟨"https://issuer", "client"⟩

def sampleSession : Credentials String :=
  ⟨"access", "refresh", "client", "https://issuer", none⟩

def sampleDiscovery : DiscoveryAnswer :=
  .response 200 (some ⟨"https://issuer", "https://issuer", none, none⟩)

/-- The steps of one forced refresh up to the answer of the token endpoint. -/
def refreshSteps (call worker : ℕ) : List Label :=
  [.ready call .force, .lockTask call, .loop call, .inspect call 0 worker true, .loop call,
    .begin worker, .discovered worker sampleDiscovery]

/-- Two refreshes at a provider whose answers carry no refresh token. -/
def keptToken : List Label :=
  refreshSteps 0 0 ++
    [.answered 0 0 (.response 200 (some ⟨"access-2", none, "Bearer", 300⟩) none),
      .saveReturned 0 true, .receive 0, .inspect 0 0 1 true] ++ refreshSteps 1 1

/-- The worker dies after its submission; the call that finds it dead is dropped. -/
def droppedRecorder : List Label :=
  refreshSteps 0 0 ++ [.die 0, .receive 0, .drop 0] ++ refreshSteps 1 1

/-- What the first refresh of `keptToken` leaves. -/
def keptSession : Credentials String :=
  ⟨"access-2", "refresh", "client", "https://issuer", some 300000000000⟩

theorem trace_keptToken :
    ((runSteps (Session.step sampleClient sampleLibrary) (Session.new sampleSession)
      keptToken).map Session.trace) = some [.submitted "refresh", .rotated "refresh" keptSession,
        .saveStarted keptSession, .saved keptSession, .readyOk 0 keptSession,
        .submitted "refresh"] := by
  decide +kernel

theorem trace_droppedRecorder :
    ((runSteps (Session.step sampleClient sampleLibrary) (Session.new sampleSession)
      droppedRecorder).map Session.trace) =
      some [.submitted "refresh", .died 0, .submitted "refresh"] := by
  decide +kernel

/-- A kept token is submitted again, and a dropped recorder lets a death pass. -/
theorem refresh_token_resubmitted : (∃ session : Session String,
      runSteps (Session.step sampleClient sampleLibrary) (Session.new sampleSession) keptToken =
        some session ∧
      ∃ replacement middle, session.trace = [.submitted "refresh"] ++
        .rotated "refresh" replacement :: middle ++ [.submitted "refresh"]) ∧
    ∃ session : Session String,
      runSteps (Session.step sampleClient sampleLibrary) (Session.new sampleSession)
        droppedRecorder = some session ∧
      session.trace = [.submitted "refresh", .died 0, .submitted "refresh"] := by
  obtain ⟨kept, hkept, htrace⟩ := map_eq_some_iff.mp trace_keptToken
  obtain ⟨dropped, hdropped, htrace'⟩ := map_eq_some_iff.mp trace_droppedRecorder
  refine ⟨⟨kept, hkept, keptSession, [.saveStarted keptSession, .saved keptSession,
    .readyOk 0 keptSession], ?_⟩, dropped, hdropped, htrace'⟩
  rw [htrace]
  rfl

theorem guarded_keptToken :
    GuardedRun (Session.step sampleClient sampleLibrary) (Session.new sampleSession)
      Session.RecordsDeaths keptToken := by
  have hlab : ∀ label ∈ keptToken, ∀ call, label ≠ .drop call := by
    intro label hlbl call heq
    rw [heq] at hlbl
    simp [keptToken, refreshSteps] at hlbl
  intro before label after state hsp _
  have hm := hlab label (by simp [hsp])
  cases label with
  | drop call => exact absurd rfl (hm call)
  | _ => trivial

theorem zitadel_session_rotation_sample : ∃ session : Session String,
    runSteps (Session.step sampleClient sampleLibrary) (Session.new sampleSession) keptToken =
      some session ∧
    ∀ before call credentials after,
      session.trace = before ++ .readyOk call credentials :: after → AllSaved before := by
  obtain ⟨session, hsession, -⟩ := map_eq_some_iff.mp trace_keptToken
  obtain ⟨-, -, -, hready, -⟩ := zitadel_session_rotation sampleClient sampleLibrary
    sampleSession keptToken session guarded_keptToken hsession
  refine ⟨session, hsession, ?_⟩
  exact fun before call credentials after hsplit =>
    (hready before call credentials after hsplit).1

end AukiSdk.Zitadel
