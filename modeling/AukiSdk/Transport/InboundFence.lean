import AukiSdk.Transport.InboundHandoff

/-!
# The fence around a registration

What every step keeps of a registration and of the queues.
-/

namespace AukiSdk.Transport

open AukiSdk.Foundation List Function
open AukiSdk.Net

variable {Protocol : Type} {registration next : Registration Protocol}

/-- The loop is over. -/
def ServePhase.Left : ServePhase → Prop
  | .serving => False
  | .stopping => False
  | _ => True

/-- What holds of every registration. -/
structure Registration.Sound (registration : Registration Protocol) : Prop where
  ordered : registration.received =
    registration.taken ++ registration.discarded ++ registration.queue
  discards : registration.discarded ≠ [] → registration.closed = true
  once : registration.received.Nodup
  bounded : registration.queue.length ≤ inboundQueueCapacity
  streams : (registration.tasks.map HandlerTask.stream).Nodup
  tasks : ∀ task ∈ registration.tasks, task.stream ∈ registration.taken
  pending : ∀ task ∈ registration.tasks, task.phase = .authenticating →
    task.stream ∉ registration.called
  calledOnce : registration.called.Nodup
  called : ∀ stream ∈ registration.called,
    stream ∈ registration.authenticated ∧ stream ∈ registration.taken
  limited : registration.tasks.length ≤ registration.maxConcurrency
  registered : registration.closed = false → registration.stock = true
  closed : registration.closed = true ↔
    registration.phase = .draining ∨ registration.phase = .finished
  drained : registration.phase = .finished → registration.queue = []
  joined : registration.server ≠ .dropped → registration.phase.Left → registration.tasks = []
  returned : registration.server = .returned → registration.phase = .finished

theorem Registration.Sound.new (protocol : Protocol) (maxConcurrency : ℕ) :
    (Registration.new protocol maxConcurrency).Sound where
  ordered := rfl
  discards := fun hne => absurd rfl hne
  once := nodup_nil
  bounded := Nat.zero_le _
  streams := nodup_nil
  tasks := fun task hm => absurd hm not_mem_nil
  pending := fun task hm => absurd hm not_mem_nil
  calledOnce := nodup_nil
  called := fun stream hm => absurd hm not_mem_nil
  limited := Nat.zero_le _
  registered := fun _ => rfl
  closed := iff_of_false nofun
    (show ¬ (ServePhase.serving = .draining ∨ ServePhase.serving = .finished) by decide)
  drained := nofun
  joined := fun _ hleft => absurd hleft id
  returned := nofun

/-- What a step of a registration does not change or only closes. -/
structure Registration.Follows (registration next : Registration Protocol) : Prop where
  protocol : next.protocol = registration.protocol
  received : next.received = registration.received
  closed : next.closed = false → registration.closed = false

section Steps

variable (hsound : registration.Sound)

include hsound

theorem Registration.Sound.not_closed
    (hp : registration.phase ≠ .draining ∧ registration.phase ≠ .finished) :
    registration.closed = false := by
  rw [← Bool.not_eq_true, hsound.closed]
  rintro (h | h)
  · exact hp.1 h
  · exact hp.2 h

theorem Registration.Sound.goto {phase : ServePhase} (hopen : registration.closed = false)
    (hn : phase ≠ .draining ∧ phase ≠ .finished)
    (hjoin : registration.server ≠ .dropped → phase.Left → registration.tasks = []) :
    { registration with phase := phase }.Sound where
  __ := hsound
  closed := by
    rw [hopen]
    exact iff_of_false nofun (by rintro (h | h); exacts [hn.1 h, hn.2 h])
  drained := fun hp => absurd hp hn.2
  joined := hjoin
  returned := by
    intro hret
    have hfin := hsound.returned hret
    rw [hsound.closed.mpr (Or.inr hfin)] at hopen
    cases hopen

theorem Registration.Sound.setTasks {tasks : List HandlerTask}
    (hsub : tasks.Sublist registration.tasks) : { registration with tasks := tasks }.Sound where
  __ := hsound
  streams := (hsub.map _).nodup hsound.streams
  tasks := fun task hm => hsound.tasks task (hsub.subset hm)
  pending := fun task hm => hsound.pending task (hsub.subset hm)
  limited := hsub.length_le.trans hsound.limited
  joined := by
    intro hsvr hleft
    have hnone := hsound.joined hsvr hleft
    rw [hnone] at hsub
    exact sublist_nil.mp hsub

variable {stream : InboundStream}

theorem Registration.Sound.take {rest : List InboundStream}
    (hque : registration.queue = stream :: rest) (hp : registration.phase = .serving)
    (hroom : registration.tasks.length < registration.maxConcurrency) :
    { registration with
      queue := rest
      tasks := registration.tasks ++ [HandlerTask.mk stream .authenticating]
      taken := registration.taken ++ [stream] }.Sound := by
  have hopen : registration.closed = false := hsound.not_closed (by rw [hp]; decide)
  have hkept : registration.discarded = [] := by
    by_contra hne
    rw [hsound.discards hne] at hopen
    cases hopen
  have hord := hsound.ordered
  rw [hkept, hque, append_nil] at hord
  have hfrs : stream ∉ registration.taken := by
    have honce := hsound.once
    rw [hord, nodup_append] at honce
    exact fun hm => honce.2.2 stream hm stream mem_cons_self rfl
  have hbdd := hsound.bounded
  rw [hque, length_cons] at hbdd
  refine ⟨?_, hsound.discards, hsound.once, (Nat.le_succ _).trans hbdd, ?_, ?_, ?_,
    hsound.calledOnce, ?_, ?_, hsound.registered, hsound.closed, ?_, ?_, hsound.returned⟩
  · simp only [hkept, hord, append_nil, append_assoc, cons_append, nil_append]
  · rw [map_append, nodup_append]
    refine ⟨hsound.streams, nodup_singleton _, ?_⟩
    intro found hm other ho
    rw [map_singleton, mem_singleton] at ho
    obtain ⟨task, htask, rfl⟩ := mem_map.mp hm
    intro heq
    have hstr : task.stream = stream := heq.trans ho
    exact hfrs (hstr ▸ hsound.tasks task htask)
  · intro task hm
    rcases mem_append.mp hm with hm | hm
    · exact mem_append_left _ (hsound.tasks task hm)
    · rw [mem_singleton.mp hm]
      exact mem_append_right _ mem_cons_self
  · intro task hm hauth
    rcases mem_append.mp hm with hm | hm
    · exact hsound.pending task hm hauth
    · rw [mem_singleton.mp hm]
      exact fun hcal => hfrs (hsound.called stream hcal).2
  · intro found hcal
    obtain ⟨haut, htak⟩ := hsound.called found hcal
    exact ⟨haut, mem_append_left _ htak⟩
  · rw [length_append]
    exact hroom
  · intro hfin
    rw [hp] at hfin
    cases hfin
  · intro _ hleft
    rw [hp] at hleft
    exact absurd hleft id

theorem Registration.Sound.close (hp : registration.phase = .dropping) :
    { registration with closed := true, phase := .draining }.Sound where
  __ := hsound
  discards := fun _ => rfl
  registered := nofun
  closed := iff_of_true rfl (Or.inl rfl)
  drained := nofun
  joined := fun hsvr _ => hsound.joined hsvr (hp ▸ trivial)
  returned := by
    intro hret
    have hfin := hsound.returned hret
    rw [hp] at hfin
    cases hfin

theorem Registration.Sound.drain {rest : List InboundStream}
    (hque : registration.queue = stream :: rest) (hp : registration.phase = .draining) :
    { registration with
      queue := rest
      discarded := registration.discarded ++ [stream] }.Sound where
  ordered := by
    rw [hsound.ordered, hque]
    simp only [append_assoc, cons_append, nil_append]
  discards := fun _ => hsound.closed.mpr (Or.inl hp)
  __ := hsound
  bounded := by
    have hbdd := hsound.bounded
    rw [hque, length_cons] at hbdd
    exact (Nat.le_succ _).trans hbdd
  drained := by
    intro hfin
    rw [hp] at hfin
    cases hfin

theorem Registration.Sound.release (hp : registration.phase = .draining)
    (hque : registration.queue = []) :
    { registration with stock := false, phase := .finished }.Sound where
  __ := hsound
  registered := by
    intro hopen
    rw [hsound.closed.mpr (Or.inl hp)] at hopen
    cases hopen
  closed := iff_of_true (hsound.closed.mpr (Or.inl hp)) (Or.inr rfl)
  drained := fun _ => hque
  joined := fun hsvr _ => hsound.joined hsvr (hp ▸ trivial)
  returned := fun _ => rfl

theorem Registration.Sound.serveStep {step : ServeStep}
    (hs : registration.serveStep step = some next) :
    next.Sound ∧ registration.Follows next := by
  have hopen : registration.phase = .serving ∨ registration.phase = .stopping →
      registration.closed = false := by
    rintro (hp | hp)
    · exact hsound.not_closed (by rw [hp]; decide)
    · exact hsound.not_closed (by rw [hp]; decide)
  cases step with
  | stop =>
    simp only [Registration.serveStep, Option.ite_none_right_eq_some, Option.some.injEq] at hs
    obtain ⟨⟨hp, -⟩, rfl⟩ := hs
    exact ⟨hsound.goto (hopen (Or.inl hp)) (by decide) fun _ hleft => absurd hleft id,
      rfl, rfl, id⟩
  | join index =>
    rw [Registration.serveStep] at hs
    split at hs
    · simp only [Option.ite_none_right_eq_some, Option.some.injEq] at hs
      obtain ⟨-, rfl⟩ := hs
      exact ⟨hsound.setTasks (eraseIdx_sublist _ _), rfl, rfl, id⟩
    · cases hs
  | take =>
    rw [Registration.serveStep] at hs
    split at hs
    · rename_i stream rest hque
      simp only [Option.ite_none_right_eq_some, Option.some.injEq] at hs
      obtain ⟨⟨hp, hroom⟩, rfl⟩ := hs
      exact ⟨hsound.take hque hp hroom, rfl, rfl, id⟩
    · cases hs
  | ended =>
    simp only [Registration.serveStep, Option.ite_none_right_eq_some, Option.some.injEq] at hs
    obtain ⟨⟨hp, -⟩, rfl⟩ := hs
    exact ⟨hsound.goto (hopen (Or.inl hp)) (by decide) fun _ hleft => absurd hleft id,
      rfl, rfl, id⟩
  | leave =>
    simp only [Registration.serveStep, Option.ite_none_right_eq_some, Option.some.injEq] at hs
    obtain ⟨⟨hp, hjoin⟩, rfl⟩ := hs
    exact ⟨hsound.goto (hopen (Or.inr hp)) (by decide) fun _ _ => hjoin,
      rfl, rfl, id⟩
  | abort =>
    simp only [Registration.serveStep, Option.ite_none_right_eq_some, Option.some.injEq] at hs
    obtain ⟨⟨hp, hdrp⟩, rfl⟩ := hs
    exact ⟨hsound.goto (hopen hp) (by decide) fun hsvr => absurd hdrp hsvr,
      rfl, rfl, id⟩
  | close =>
    simp only [Registration.serveStep, Option.ite_none_right_eq_some, Option.some.injEq] at hs
    obtain ⟨hp, rfl⟩ := hs
    exact ⟨hsound.close hp, rfl, rfl, nofun⟩
  | drain =>
    rw [Registration.serveStep] at hs
    split at hs
    · rename_i stream rest hque
      simp only [Option.ite_none_right_eq_some, Option.some.injEq] at hs
      obtain ⟨hp, rfl⟩ := hs
      exact ⟨hsound.drain hque hp, rfl, rfl, id⟩
    · cases hs
  | release =>
    simp only [Registration.serveStep, Option.ite_none_right_eq_some, Option.some.injEq] at hs
    obtain ⟨⟨hp, hque⟩, rfl⟩ := hs
    exact ⟨hsound.release hp hque, rfl, rfl, id⟩

theorem Registration.Sound.setTask {index : ℕ} {task : HandlerTask}
    (htask : registration.tasks[index]? = some task) (phase : HandlerPhase)
    (hp : phase ≠ .authenticating) :
    { registration with tasks := registration.tasks.set index ⟨task.stream, phase⟩ }.Sound where
  __ := hsound
  streams := by
    obtain ⟨hlt, hget⟩ := List.getElem?_eq_some_iff.mp htask
    have hbnd : index < (registration.tasks.map HandlerTask.stream).length := by
      rwa [length_map]
    have hsm : task.stream = (registration.tasks.map HandlerTask.stream)[index] := by
      rw [getElem_map, hget]
    rw [map_set, hsm, set_getElem_self]
    exact hsound.streams
  tasks := by
    intro found hm
    rcases mem_or_eq_of_mem_set hm with hm | rfl
    · exact hsound.tasks found hm
    · exact hsound.tasks task (mem_of_getElem? htask)
  pending := by
    intro found hm hauth
    rcases mem_or_eq_of_mem_set hm with hm | rfl
    · exact hsound.pending found hm hauth
    · exact absurd hauth hp
  limited := by
    rw [length_set]
    exact hsound.limited
  joined := by
    intro hsvr hleft
    have hnone := hsound.joined hsvr hleft
    rw [hnone] at htask
    cases htask

theorem Registration.Sound.call {index : ℕ}
    (htask : registration.tasks[index]? = some ⟨stream, .authenticating⟩) :
    { registration with
      tasks := registration.tasks.set index ⟨stream, .handling⟩
      authenticated := registration.authenticated ++ [stream]
      called := registration.called ++ [stream] }.Sound := by
  have hset := hsound.setTask htask .handling (by decide)
  have hm := mem_of_getElem? htask
  have hnew : stream ∉ registration.called := hsound.pending _ hm rfl
  refine { hset with pending := ?_, calledOnce := ?_, called := ?_ }
  · intro found hf hauth hcal
    rcases mem_append.mp hcal with hcal | hcal
    · exact hset.pending found hf hauth hcal
    · obtain ⟨hlt, -⟩ := List.getElem?_eq_some_iff.mp htask
      have hhan : (⟨stream, .handling⟩ : HandlerTask) ∈
          registration.tasks.set index ⟨stream, .handling⟩ := mem_set hlt _
      have hsm := inj_on_of_nodup_map hset.streams hf hhan
        (mem_singleton.mp hcal)
      rw [hsm] at hauth
      cases hauth
  · rw [nodup_append]
    refine ⟨hsound.calledOnce, nodup_singleton _, ?_⟩
    intro found hf other ho
    rw [mem_singleton.mp ho]
    rintro rfl
    exact hnew hf
  · intro found hf
    rcases mem_append.mp hf with hf | hf
    · obtain ⟨haut, htak⟩ := hsound.called found hf
      exact ⟨mem_append_left _ haut, htak⟩
    · rw [mem_singleton.mp hf]
      exact ⟨mem_append_right _ mem_cons_self, hsound.tasks _ hm⟩

theorem Registration.Sound.taskStep {index : ℕ} {step : TaskStep}
    (hs : registration.taskStep index step = some next) :
    next.Sound ∧ registration.Follows next := by
  cases step with rw [Registration.taskStep] at hs
  | authenticated ok =>
    split at hs
    · rename_i stream htask
      cases ok with
      | true =>
        cases hs
        exact ⟨hsound.call htask, rfl, rfl, id⟩
      | false =>
        cases hs
        exact ⟨hsound.setTask htask .finished (by decide), rfl, rfl, id⟩
    · cases hs
  | returned =>
    split at hs
    · rename_i stream htask
      cases hs
      exact ⟨hsound.setTask htask .finished (by decide), rfl, rfl, id⟩
    · cases hs
  | ended =>
    split at hs
    · rename_i task htask
      cases hs
      exact ⟨hsound.setTask htask .finished (by decide), rfl, rfl, id⟩
    · cases hs

theorem Registration.Sound.setServer (stop : Bool) {server : ServerPhase}
    (hdrp : server ≠ .dropped → registration.server ≠ .dropped)
    (hret : server = .returned → registration.phase = .finished) :
    { registration with stop := stop, server := server }.Sound where
  __ := hsound
  joined := fun hsvr => hsound.joined (hdrp hsvr)
  returned := hret

theorem Registration.Sound.serverStep {step : ServerStep}
    (hs : registration.serverStep step = some next) :
    next.Sound ∧ registration.Follows next := by
  cases step with
  | cancel =>
    cases hs
    exact ⟨hsound.setServer true id hsound.returned, rfl, rfl, id⟩
  | shutdown =>
    simp only [Registration.serverStep, Option.ite_none_right_eq_some, Option.some.injEq] at hs
    obtain ⟨hheld, rfl⟩ := hs
    exact ⟨hsound.setServer true (fun _ => by rw [hheld]; decide) nofun, rfl, rfl, id⟩
  | shutdownReturn =>
    simp only [Registration.serverStep, Option.ite_none_right_eq_some, Option.some.injEq] at hs
    obtain ⟨⟨hstop, hfin⟩, rfl⟩ := hs
    exact ⟨hsound.setServer registration.stop (fun _ => by rw [hstop]; decide)
      (fun _ => hfin), rfl, rfl, id⟩
  | drop =>
    simp only [Registration.serverStep, Option.ite_none_right_eq_some, Option.some.injEq] at hs
    obtain ⟨-, rfl⟩ := hs
    exact ⟨hsound.setServer true (fun hsvr => absurd rfl hsvr) nofun, rfl, rfl, id⟩

theorem Registration.Sound.step {step : RegistrationStep}
    (hs : registration.step step = some next) :
    next.Sound ∧ registration.Follows next := by
  cases step with
  | serve step => exact hsound.serveStep hs
  | task index step => exact hsound.taskStep hs
  | server step => exact hsound.serverStep hs

theorem Registration.Sound.receive (hopen : registration.closed = false)
    (hfrs : stream ∉ registration.received)
    (hroom : registration.queue.length < inboundQueueCapacity) :
    { registration with
      queue := registration.queue ++ [stream]
      received := registration.received ++ [stream] }.Sound where
  ordered := by
    rw [hsound.ordered]
    simp only [append_assoc]
  __ := hsound
  once := by
    rw [nodup_append]
    refine ⟨hsound.once, nodup_singleton _, ?_⟩
    intro found hf other ho
    rw [mem_singleton.mp ho]
    rintro rfl
    exact hfrs hf
  bounded := by
    rw [length_append]
    exact hroom
  drained := by
    intro hfin
    rw [hsound.closed.mpr (Or.inr hfin)] at hopen
    cases hopen

theorem Registration.Sound.fenced : registration.Fenced where
  __ := hsound
  tasks := ⟨hsound.streams, hsound.tasks⟩
  called := ⟨hsound.calledOnce, hsound.called⟩
  limited := (length_filter_le _ _).trans hsound.limited
  returned := by
    intro hret
    have hfin := hsound.returned hret
    refine ⟨hsound.joined (by rw [hret]; decide) (hfin ▸ trivial),
      hsound.drained hfin, hsound.closed.mpr (Or.inr hfin)⟩

end Steps

section Queues

variable {state : Handoff Protocol}

/-- What holds of every reachable state. -/
structure Handoff.Sound (state : Handoff Protocol) : Prop where
  each : ∀ number registration, state.registrations number = some registration →
    registration.Sound
  counted : ∀ number registration, state.registrations number = some registration →
    number < state.count
  numbered : ∀ number registration, state.registrations number = some registration →
    ∀ stream ∈ registration.received, stream.index < state.negotiated
  apart : ∀ number number' registration registration' stream,
    state.registrations number = some registration →
    state.registrations number' = some registration' →
    stream ∈ registration.received → stream ∈ registration'.received → number = number'
  queued : ∀ protocol number, state.queues protocol = some number → number < state.count
  target : ∀ protocol number registration, state.queues protocol = some number →
    state.registrations number = some registration → registration.protocol = protocol
  routed : ∀ protocol number registration, state.Live protocol number registration →
    state.queues protocol = some number

theorem Handoff.Sound.new : (Handoff.new : Handoff Protocol).Sound := by
  have hnone : ∀ number, (Handoff.new : Handoff Protocol).registrations number = none :=
    fun _ => rfl
  have hemp : ∀ protocol, (Handoff.new : Handoff Protocol).queues protocol = none := fun _ => rfl
  constructor
  · intro number registration hregn
    rw [hnone] at hregn
    cases hregn
  · intro number registration hregn
    rw [hnone] at hregn
    cases hregn
  · intro number registration hregn
    rw [hnone] at hregn
    cases hregn
  · intro number number' registration registration' stream hregn
    rw [hnone] at hregn
    cases hregn
  · intro protocol number hque
    rw [hemp] at hque
    cases hque
  · intro protocol number registration hque
    rw [hemp] at hque
    cases hque
  · rintro protocol number registration ⟨hregn, -⟩
    rw [hnone] at hregn
    cases hregn

theorem Handoff.Sound.put (hsound : state.Sound) {number : ℕ}
    (hregn : state.registrations number = some registration) (hn : next.Sound)
    (hprot : next.protocol = registration.protocol)
    (hcl : next.closed = false → registration.closed = false)
    (hrecv : ∀ stream ∈ next.received, stream ∈ registration.received ∨
      stream.index < state.negotiated ∧ ∀ found other, state.registrations found = some other →
        stream ∉ other.received) : (state.put number next).Sound := by
  have hcas : ∀ {found other}, (state.put number next).registrations found = some other →
      (found = number ∧ other = next) ∨
        (found ≠ number ∧ state.registrations found = some other) := by
    intro found other hf
    have hupd : Function.update state.registrations number (some next) found = some other := hf
    by_cases hsm : found = number
    · rw [hsm, update_self, Option.some.injEq] at hupd
      exact Or.inl ⟨hsm, hupd.symm⟩
    · rw [update_of_ne hsm] at hupd
      exact Or.inr ⟨hsm, hupd⟩
  have hapt : ∀ {found other stream}, state.registrations found = some other →
      stream ∈ next.received → stream ∈ other.received → found = number := by
    intro found other stream hf hm ho
    rcases hrecv stream hm with hold | ⟨-, hfrs⟩
    · exact hsound.apart found number other registration stream hf hregn ho hold
    · exact absurd ho (hfrs found other hf)
  refine ⟨?_, ?_, ?_, ?_, hsound.queued, ?_, ?_⟩
  · intro found other hf
    rcases hcas hf with ⟨-, rfl⟩ | ⟨-, hf⟩
    · exact hn
    · exact hsound.each found other hf
  · intro found other hf
    rcases hcas hf with ⟨rfl, -⟩ | ⟨-, hf⟩
    · exact hsound.counted found registration hregn
    · exact hsound.counted found other hf
  · intro found other hf stream hm
    rcases hcas hf with ⟨-, rfl⟩ | ⟨-, hf⟩
    · rcases hrecv stream hm with hold | ⟨hlt, -⟩
      · exact hsound.numbered number registration hregn stream hold
      · exact hlt
    · exact hsound.numbered found other hf stream hm
  · intro found found' other other' stream hf hfound' hm hmem'
    rcases hcas hf with ⟨rfl, rfl⟩ | ⟨-, hold⟩
    · rcases hcas hfound' with ⟨rfl, -⟩ | ⟨-, hold'⟩
      · rfl
      · exact (hapt hold' hm hmem').symm
    · rcases hcas hfound' with ⟨rfl, rfl⟩ | ⟨-, hold'⟩
      · exact hapt hold hmem' hm
      · exact hsound.apart found found' other other' stream hold hold' hm hmem'
  · intro protocol found other hque hf
    rcases hcas hf with ⟨rfl, rfl⟩ | ⟨-, hf⟩
    · exact hprot.trans (hsound.target protocol found registration hque hregn)
    · exact hsound.target protocol found other hque hf
  · rintro protocol found other ⟨hf, ho, hopen⟩
    rcases hcas hf with ⟨rfl, rfl⟩ | ⟨-, hf⟩
    · exact hsound.routed protocol found registration
        ⟨hregn, hprot.symm.trans ho, hcl hopen⟩
    · exact hsound.routed protocol found other ⟨hf, ho, hopen⟩

theorem Handoff.Sound.setQueues (hsound : state.Sound) {queues : Protocol → Option ℕ}
    (hsub : ∀ protocol number, queues protocol = some number → state.queues protocol = some number)
    (hkept : ∀ protocol number registration, state.Live protocol number registration →
      queues protocol = some number) :
    { state with queues := queues }.Sound where
  __ := hsound
  queued := fun protocol number hque => hsound.queued protocol number (hsub _ _ hque)
  target := fun protocol number registration hque =>
    hsound.target protocol number registration (hsub _ _ hque)
  routed := hkept

/-- `queues.retain`. -/
theorem Handoff.Sound.retain (hsound : state.Sound) :
    { state with queues := fun protocol =>
        (state.queues protocol).filter fun number => !state.isClosed number }.Sound := by
  apply hsound.setQueues
  · intro protocol number hque
    exact (Option.filter_eq_some_iff.mp hque).1
  · intro protocol number registration hlive
    rw [hsound.routed protocol number registration hlive]
    have hopen : state.isClosed number = false := by
      rw [Handoff.isClosed, hlive.1]
      exact hlive.2.2
    rw [Option.filter_some, hopen]
    rfl

theorem Handoff.Sound.count (hsound : state.Sound) :
    { state with negotiated := state.negotiated + 1 }.Sound where
  __ := hsound
  numbered := fun number registration hregn stream hm =>
    (hsound.numbered number registration hregn stream hm).trans (Nat.lt_succ_self _)

theorem Handoff.Sound.not_live [DecidableEq Protocol] (hsound : state.Sound) {protocol : Protocol}
    (hsto : state.stockLive protocol = false) (number : ℕ)
    (registration : Registration Protocol) : ¬ state.Live protocol number registration := by
  rintro ⟨hregn, hprot, hopen⟩
  have hnone := any_eq_false.mp hsto number
    (mem_range.mpr (hsound.counted number registration hregn))
  simp only [hregn, hprot, decide_true, Bool.and_true] at hnone
  exact hnone ((hsound.each number registration hregn).registered hopen)

theorem Handoff.Sound.register [DecidableEq Protocol] (hsound : state.Sound) {protocol : Protocol}
    (maxConcurrency : ℕ) (hsto : state.stockLive protocol = false) :
    { state with
      queues := Function.update state.queues protocol (some state.count)
      registrations := Function.update state.registrations state.count
        (some (.new protocol maxConcurrency))
      count := state.count + 1 }.Sound := by
  have hcas : ∀ {found other}, Function.update state.registrations state.count
      (some (.new protocol maxConcurrency)) found = some other →
      (found = state.count ∧ other = .new protocol maxConcurrency) ∨
        (found < state.count ∧ state.registrations found = some other) := by
    intro found other hf
    by_cases hsm : found = state.count
    · rw [hsm, update_self, Option.some.injEq] at hf
      exact Or.inl ⟨hsm, hf.symm⟩
    · rw [update_of_ne hsm] at hf
      exact Or.inr ⟨hsound.counted found other hf, hf⟩
  refine ⟨?_, ?_, ?_, ?_, ?_, ?_, ?_⟩
  · intro found other hf
    rcases hcas hf with ⟨-, rfl⟩ | ⟨-, hf⟩
    · exact .new protocol maxConcurrency
    · exact hsound.each found other hf
  · intro found other hf
    rcases hcas hf with ⟨rfl, -⟩ | ⟨hlt, -⟩
    · exact Nat.lt_succ_self _
    · exact hlt.trans (Nat.lt_succ_self _)
  · intro found other hf stream hm
    rcases hcas hf with ⟨-, rfl⟩ | ⟨-, hf⟩
    · exact absurd hm not_mem_nil
    · exact hsound.numbered found other hf stream hm
  · intro found found' other other' stream hf hfound' hm hmem'
    rcases hcas hf with ⟨-, rfl⟩ | ⟨-, hf⟩
    · exact absurd hm not_mem_nil
    · rcases hcas hfound' with ⟨-, rfl⟩ | ⟨-, hfound'⟩
      · exact absurd hmem' not_mem_nil
      · exact hsound.apart found found' other other' stream hf hfound' hm hmem'
  · intro found number hque
    have hupd : Function.update state.queues protocol (some state.count) found = some number := hque
    by_cases hsm : found = protocol
    · rw [hsm, update_self, Option.some.injEq] at hupd
      exact hupd ▸ Nat.lt_succ_self _
    · rw [update_of_ne hsm] at hupd
      exact (hsound.queued found number hupd).trans (Nat.lt_succ_self _)
  · intro found number other hque hf
    have hupd : Function.update state.queues protocol (some state.count) found = some number := hque
    by_cases hsm : found = protocol
    · rw [hsm, update_self, Option.some.injEq] at hupd
      rcases hcas hf with ⟨-, rfl⟩ | ⟨hlt, -⟩
      · exact hsm.symm
      · exact absurd hupd hlt.ne'
    · rw [update_of_ne hsm] at hupd
      have hlt := hsound.queued found number hupd
      rcases hcas hf with ⟨rfl, -⟩ | ⟨-, hf⟩
      · exact absurd hlt (lt_irrefl _)
      · exact hsound.target found number other hupd hf
  · rintro found number other ⟨hf, hprot, hopen⟩
    rcases hcas hf with ⟨rfl, rfl⟩ | ⟨-, hf⟩
    · have hown : found = protocol := hprot.symm
      rw [hown]
      exact update_self _ _ _
    · have hlive : state.Live found number other := ⟨hf, hprot, hopen⟩
      have ho : found ≠ protocol := by
        rintro rfl
        exact hsound.not_live hsto number other hlive
      exact (update_of_ne ho _ _).trans (hsound.routed found number other hlive)

/-- `Control::accept`. -/
theorem Handoff.Sound.serve [DecidableEq Protocol] (hsound : state.Sound) (protocol : Protocol)
    (maxConcurrency : ℕ) (refused : Bool) :
    (state.serve protocol maxConcurrency refused).Sound := by
  have hret := hsound.retain
  rw [Handoff.serve]
  split
  · exact hret
  · rename_i hacc
    rw [Bool.or_eq_true, not_or, Bool.not_eq_true, Bool.not_eq_true] at hacc
    exact hret.register maxConcurrency hacc.2

theorem Handoff.Sound.receive (hsound : state.Sound) {number : ℕ}
    (hregn : state.registrations number = some registration)
    (hopen : registration.closed = false)
    (hroom : registration.queue.length < inboundQueueCapacity) (peer : PeerId) :
    (({ state with negotiated := state.negotiated + 1 } : Handoff Protocol).put number
      { registration with
        queue := registration.queue ++ [InboundStream.mk peer state.negotiated]
        received := registration.received ++ [InboundStream.mk peer state.negotiated] }).Sound := by
  have hfrs : ∀ found other, state.registrations found = some other →
      InboundStream.mk peer state.negotiated ∉ other.received := by
    intro found other hf hm
    exact lt_irrefl _ (hsound.numbered found other hf _ hm)
  have hrecv := (hsound.each number registration hregn).receive hopen
    (hfrs number registration hregn) hroom
  apply hsound.count.put hregn hrecv rfl id
  intro stream hm
  rcases mem_append.mp hm with hm | hm
  · exact Or.inl hm
  · rw [mem_singleton.mp hm]
    exact Or.inr ⟨Nat.lt_succ_self _, hfrs⟩

theorem Handoff.Sound.negotiated [DecidableEq Protocol] (hsound : state.Sound)
    (protocol : Protocol) (peer : PeerId) : (state.negotiate protocol peer).Sound ∧
    ((∃ number registration, state.Live protocol number registration ∧
      registration.queue.length < inboundQueueCapacity ∧
      (state.negotiate protocol peer).registrations =
        Function.update state.registrations number (some { registration with
          queue := registration.queue ++ [⟨peer, state.negotiated⟩]
          received := registration.received ++ [⟨peer, state.negotiated⟩] })) ∨
    (∀ number registration, state.Live protocol number registration →
      inboundQueueCapacity ≤ registration.queue.length) ∧
      (state.negotiate protocol peer).registrations = state.registrations) := by
  have hcnt := hsound.count
  cases hque : state.queues protocol with
  | none =>
    simp only [Handoff.negotiate, hque]
    refine ⟨hcnt, Or.inr ⟨?_, trivial⟩⟩
    intro number registration hlive
    rw [hsound.routed protocol number registration hlive] at hque
    cases hque
  | some number =>
    have huniq : ∀ found other, state.Live protocol found other →
        state.registrations number = some other := by
      intro found other hlive
      have hf := hsound.routed protocol found other hlive
      rw [hque, Option.some.injEq] at hf
      rw [hf]
      exact hlive.1
    cases hregn : state.registrations number with
    | none =>
      simp only [Handoff.negotiate, hque, hregn]
      refine ⟨hcnt, Or.inr ⟨?_, trivial⟩⟩
      intro found other hlive
      rw [huniq found other hlive] at hregn
      cases hregn
    | some registration =>
      simp only [Handoff.negotiate, hque, hregn]
      have hsm : ∀ found other, state.Live protocol found other → other = registration := by
        intro found other hlive
        have hf := huniq found other hlive
        rw [hregn, Option.some.injEq] at hf
        exact hf.symm
      split
      · -- The receiver is closed.
        rename_i hcl
        refine ⟨?_, Or.inr ⟨?_, rfl⟩⟩
        · apply hcnt.setQueues
          · intro found other ho
            by_cases hf : found = protocol
            · rw [hf, update_self] at ho
              cases ho
            · rw [update_of_ne hf] at ho
              exact ho
          · intro found other live hlive
            by_cases hf : found = protocol
            · rw [hf] at hlive
              have hopen := hlive.2.2
              rw [hsm other live hlive, hcl] at hopen
              cases hopen
            · rw [update_of_ne hf]
              exact hsound.routed found other live hlive
        · intro found other hlive
          have hopen := hlive.2.2
          rw [hsm found other hlive, hcl] at hopen
          cases hopen
      · rename_i hopen
        rw [Bool.not_eq_true] at hopen
        split
        · rename_i hfull
          refine ⟨hcnt, Or.inr ⟨?_, rfl⟩⟩
          intro found other hlive
          rw [hsm found other hlive]
          exact hfull
        · rename_i hroom
          have hlive : state.Live protocol number registration :=
            ⟨hregn, hsound.target protocol number registration hque hregn, hopen⟩
          refine ⟨?_, Or.inl ⟨number, registration, hlive, not_le.mp hroom, rfl⟩⟩
          exact hsound.receive hregn hopen (not_le.mp hroom) peer

theorem Handoff.Sound.step [DecidableEq Protocol] (hsound : state.Sound)
    {input : HandoffInput Protocol} {after : Handoff Protocol}
    (hs : state.step input = some after) : after.Sound := by
  cases input with
  | serve protocol maxConcurrency refused =>
    cases hs
    exact hsound.serve protocol maxConcurrency refused
  | negotiate protocol peer =>
    cases hs
    exact (hsound.negotiated protocol peer).1
  | step number step =>
    rw [Handoff.step] at hs
    split at hs
    · cases hs
    · rename_i registration hregn
      obtain ⟨next, hn, rfl⟩ := Option.map_eq_some_iff.mp hs
      obtain ⟨haft, hfol⟩ := (hsound.each number registration hregn).step hn
      exact hsound.put hregn haft hfol.protocol hfol.closed
        fun stream hm => Or.inl (hfol.received ▸ hm)

theorem Handoff.Sound.fenced [DecidableEq Protocol] (hsound : state.Sound) : state.Fenced where
  each := fun number registration hregn =>
    (hsound.each number registration hregn).fenced
  __ := hsound
  negotiated := fun protocol peer => (hsound.negotiated protocol peer).2

/-- **The hand-off.** Each stream went where it was promised, within the task limit. -/
theorem inbound_streams_handed_off [DecidableEq Protocol] (inputs : List (HandoffInput Protocol))
    {last : Handoff Protocol} (hrun : runSteps Handoff.step Handoff.new inputs = some last) :
    last.Fenced :=
  (invariant_of_run Handoff.Sound.new (fun _ _ _ hsound hstep => hsound.step hstep) hrun).fenced

end Queues

/-- One stream is handed over, the other dropped by the shutdown. -/
def handoffInputs : List (HandoffInput Unit) :=
  [.serve () 1 false, .negotiate () (samplePeer 1), .negotiate () (samplePeer 2),
    .step 0 (.serve .take), .step 0 (.task 0 (.authenticated true)), .step 0 (.server .shutdown),
    .step 0 (.serve .stop), .step 0 (.task 0 .ended), .step 0 (.serve (.join 0)),
    .step 0 (.serve .leave), .step 0 (.serve .close), .step 0 (.serve .drain),
    .step 0 (.serve .release), .step 0 (.server .shutdownReturn), .serve () 1 false,
    .negotiate () (samplePeer 1)]

theorem inbound_streams_handed_off_sample : ∃ last,
    runSteps Handoff.step Handoff.new handoffInputs = some last ∧
    (last.registrations 0).map Registration.called = some [⟨samplePeer 1, 0⟩] ∧
    (last.registrations 0).map Registration.discarded = some [⟨samplePeer 2, 1⟩] ∧
    (last.registrations 1).map Registration.queue = some [⟨samplePeer 1, 2⟩] ∧
    last.Fenced := by
  refine ⟨_, rfl, rfl, rfl, rfl, ?_⟩
  exact inbound_streams_handed_off handoffInputs rfl

end AukiSdk.Transport
