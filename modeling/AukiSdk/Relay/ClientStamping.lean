import AukiSdk.Relay.ClientBehaviour

/-!
# Stamped events

What every step of the wrapper keeps, and what follows for the trace of a run.
-/

namespace AukiSdk.Relay

open AukiSdk.Foundation List Function
open AukiSdk.Net

section Trace

variable {trace : List ClientLabel} {handle : RelayReservationHandle}
  {connectionId : ConnectionId} {label : ClientLabel}

theorem any_concat_eq_false {test : ClientLabel → Bool} {labels : List ClientLabel}
    (hlab : labels.any test = false) (hlbl : test label = false) :
    (labels ++ [label]).any test = false := by
  rw [any_append, hlab, any_cons, hlbl]
  rfl

theorem Pends.concat {canceled : Bool} (hpen : Pends trace handle connectionId canceled)
    (hqui : IsOutcome handle label = false) :
    Pends (trace ++ [label]) handle connectionId (canceled || IsFence handle label) := by
  obtain ⟨before, after, rfl, hout, hfnc⟩ := hpen
  refine ⟨before, after ++ [label], ?_, any_concat_eq_false hout hqui, ?_⟩
  · rw [append_assoc, cons_append]
  · rw [any_append, hfnc, any_cons, any_nil, Bool.or_false]

theorem Pends.keep {canceled : Bool} (hpen : Pends trace handle connectionId canceled)
    (hqui : IsOutcome handle label = false) (hfnc : IsFence handle label = false) :
    Pends (trace ++ [label]) handle connectionId canceled := by
  have hcon := hpen.concat hqui
  rw [hfnc, Bool.or_false] at hcon
  exact hcon

theorem Holds.concat (hhld : Holds trace handle connectionId)
    (hfnc : IsFence handle label = false) (hclo : IsClose connectionId label = false) :
    Holds (trace ++ [label]) handle connectionId := by
  obtain ⟨before, after, hpen, rfl, hfen, hcl⟩ := hhld
  refine ⟨before, after ++ [label], hpen, ?_, any_concat_eq_false hfen hfnc,
    any_concat_eq_false hcl hclo⟩
  rw [append_assoc, cons_append]

theorem Waits.concat (hwts : Waits trace handle connectionId)
    (hfnc : IsFence handle label = false) (hfor : Forwards handle label = false) :
    Waits (trace ++ [label]) handle connectionId := by
  obtain ⟨before, after, hpen, rfl, hfen, hfrw⟩ := hwts
  refine ⟨before, after ++ [label], hpen, ?_, any_concat_eq_false hfen hfnc,
    any_concat_eq_false hfrw hfor⟩
  rw [append_assoc, cons_append]

theorem Pends.registered {canceled : Bool} (hpen : Pends trace handle connectionId canceled) :
    ClientLabel.registered handle connectionId true ∈ trace := by
  obtain ⟨before, after, rfl, -, -⟩ := hpen
  exact mem_append_right _ mem_cons_self

theorem Holds.registered (hhld : Holds trace handle connectionId) :
    ClientLabel.registered handle connectionId true ∈ trace := by
  obtain ⟨before, after, hpen, rfl, -, -⟩ := hhld
  exact mem_append_left _ hpen.registered

theorem Waits.registered (hwts : Waits trace handle connectionId) :
    ClientLabel.registered handle connectionId true ∈ trace := by
  obtain ⟨before, after, hpen, rfl, -, -⟩ := hwts
  exact mem_append_left _ hpen.registered

end Trace

/-- What a label says of the trace before it. -/
def Lawful (before : List ClientLabel) : ClientLabel → Prop
  | .handled event => ∀ cause ∈ event.cause,
      before.any (IsForward cause event.connectionId) = true
  | .polled (some (.generateEvent (.upstream event (some handle)))) =>
    before[event.position]? = some (.handled event) ∧
      Holds (before.take event.position) handle event.connectionId
  | .polled (some (.notifyHandler _ handler (some handle))) =>
    ∃ connectionId, handler = .one connectionId ∧ Waits before handle connectionId
  | _ => True

/-- What holds of every reachable state. -/
structure ClientRun.Sound (run : ClientRun) : Prop where
  requests : run.requests = run.behaviour.pendingDispatches.map PendingDispatch.handle
  nodup : (run.requests.map RelayReservationHandle.relayPeerId).Nodup
  pending : ∀ dispatch ∈ run.behaviour.pendingDispatches,
    Pends run.trace dispatch.handle dispatch.connectionId dispatch.canceled
  dispatched : ∀ connectionId handle,
    run.behaviour.dispatchesByConnection connectionId = some handle →
    Holds run.trace handle connectionId
  queued : ∀ queued ∈ run.behaviour.queuedActions, ∃ handle connectionId,
    queued = ⟨some handle, .notifyHandler handle.relayPeerId (.one connectionId) (some handle)⟩ ∧
      Waits run.trace handle connectionId
  queue : run.behaviour.queuedActions.length ≤ 1
  contexts : List.Forall₂ (fun context event =>
    run.trace[event.position]? = some (.handled event) ∧ ∀ handle, context = some handle →
      Holds (run.trace.take event.position) handle event.connectionId)
    run.behaviour.handlerContexts run.received
  lawful : ∀ before label after, run.trace = before ++ label :: after → Lawful before label
  outcomes : ∀ handle, run.trace.countP (IsOutcome handle) +
    (if handle ∈ run.requests then 1 else 0) = run.trace.countP (IsRegistration handle)

theorem ClientRun.Sound.new : ClientRun.new.Sound where
  requests := rfl
  nodup := nodup_nil
  pending := fun dispatch hm => absurd hm not_mem_nil
  dispatched := nofun
  queued := fun queued hm => absurd hm not_mem_nil
  queue := Nat.zero_le _
  contexts := .nil
  lawful := by
    intro before label after hsp
    cases before <;> cases hsp
  outcomes := fun handle => rfl

section Steps

variable {run : ClientRun} {label : ClientLabel}

theorem lawful_concat {trace : List ClientLabel}
    (hlaw : ∀ before found after, trace = before ++ found :: after → Lawful before found)
    (hlbl : Lawful trace label) :
    ∀ before found after, trace ++ [label] = before ++ found :: after → Lawful before found := by
  intro before found after hsp
  rcases concat_eq_append_cons hsp with ⟨-, rfl, rfl⟩ | ⟨rest, -, htr⟩
  · exact hlbl
  · exact hlaw before found rest htr

theorem ClientRun.Sound.contexts_concat (hs : run.Sound) (label : ClientLabel) :
    List.Forall₂ (fun context event =>
      (run.trace ++ [label])[event.position]? = some (.handled event) ∧
        ∀ handle, context = some handle →
          Holds ((run.trace ++ [label]).take event.position) handle event.connectionId)
      run.behaviour.handlerContexts run.received := by
  apply hs.contexts.imp
  rintro context event ⟨hpos, hhld⟩
  obtain ⟨hlt, -⟩ := List.getElem?_eq_some_iff.mp hpos
  rw [getElem?_append_left hlt, take_append_of_le_length hlt.le]
  exact ⟨hpos, hhld⟩

/-- A label that no dispatch depends on. -/
structure ClientLabel.Quiet (label : ClientLabel) : Prop where
  outcome : ∀ handle, IsOutcome handle label = false
  fence : ∀ handle, IsFence handle label = false
  registration : ∀ handle, IsRegistration handle label = false
  close : ∀ connectionId, IsClose connectionId label = false
  forward : ∀ handle, Forwards handle label = false

theorem ClientRun.Sound.append (hs : run.Sound) (hqui : label.Quiet)
    (hlaw : Lawful run.trace label) :
    { run with trace := run.trace ++ [label] }.Sound where
  __ := hs
  pending := fun dispatch hm =>
    (hs.pending dispatch hm).keep (hqui.outcome _) (hqui.fence _)
  dispatched := fun connectionId handle hdisp =>
    (hs.dispatched connectionId handle hdisp).concat (hqui.fence _) (hqui.close _)
  queued := by
    intro queued hm
    obtain ⟨handle, connectionId, hqd, hwts⟩ := hs.queued queued hm
    exact ⟨handle, connectionId, hqd, hwts.concat (hqui.fence _) (hqui.forward _)⟩
  contexts := hs.contexts_concat label
  lawful := lawful_concat hs.lawful hlaw
  outcomes := by
    intro handle
    rw [countP_append, countP_append, countP_singleton, countP_singleton,
      hqui.outcome, hqui.registration]
    exact hs.outcomes handle

theorem ClientRun.Sound.pendingFor_eq_none (hs : run.Sound) {peerId : PeerId} :
    run.behaviour.pendingFor peerId = none ↔
      ∀ handle ∈ run.requests, handle.relayPeerId ≠ peerId := by
  rw [ClientBehaviour.pendingFor, find?_eq_none, hs.requests]
  simp

theorem ClientRun.Sound.pending_unique (hs : run.Sound) {dispatch other : PendingDispatch}
    (hm : dispatch ∈ run.behaviour.pendingDispatches)
    (ho : other ∈ run.behaviour.pendingDispatches)
    (hrly : dispatch.handle.relayPeerId = other.handle.relayPeerId) : dispatch = other := by
  have hnd := hs.nodup
  rw [hs.requests, map_map] at hnd
  exact inj_on_of_nodup_map hnd hm ho hrly

theorem ClientRun.Sound.pendingFor_of_mem (hs : run.Sound) {dispatch : PendingDispatch}
    (hm : dispatch ∈ run.behaviour.pendingDispatches) :
    run.behaviour.pendingFor dispatch.handle.relayPeerId = some dispatch := by
  cases hf : run.behaviour.pendingFor dispatch.handle.relayPeerId with
  | none =>
    have hnone := find?_eq_none.mp hf dispatch hm
    exact absurd (decide_eq_true rfl) hnone
  | some found =>
    have hrly := find?_some hf
    rw [decide_eq_true_eq] at hrly
    rw [hs.pending_unique (mem_of_find?_eq_some hf) hm hrly]

theorem ClientRun.Sound.mem_requests (hs : run.Sound) {handle : RelayReservationHandle} :
    handle ∈ run.requests ↔ ∃ pending,
      run.behaviour.pendingFor handle.relayPeerId = some pending ∧ pending.handle = handle := by
  constructor
  · intro hm
    rw [hs.requests, mem_map] at hm
    obtain ⟨dispatch, hdis, rfl⟩ := hm
    exact ⟨dispatch, hs.pendingFor_of_mem hdis, rfl⟩
  · rintro ⟨pending, hpend, rfl⟩
    rw [hs.requests]
    exact mem_map_of_mem (mem_of_find?_eq_some hpend)

theorem ClientRun.Sound.requests_remove (hs : run.Sound) {handle : RelayReservationHandle}
    (hm : handle ∈ run.requests) :
    run.requests.filter (· ≠ handle) =
      (run.behaviour.removePending handle.relayPeerId).pendingDispatches.map
        PendingDispatch.handle := by
  rw [hs.requests, filter_map, ClientBehaviour.removePending]
  congr 1
  apply filter_congr
  intro dispatch hdis
  rw [hs.requests, mem_map] at hm
  obtain ⟨found, hf, rfl⟩ := hm
  rw [Function.comp_apply, decide_eq_decide, not_iff_not]
  constructor
  · intro heq
    rw [heq]
  · intro hrly
    rw [hs.pending_unique hdis hf hrly]

/-- `register_dispatch` that is accepted. -/
theorem ClientRun.Sound.register (hs : run.Sound) {handle : RelayReservationHandle}
    (connectionId : ConnectionId) (hnone : run.behaviour.pendingFor handle.relayPeerId = none) :
    { run with
      behaviour := { run.behaviour with
        pendingDispatches := run.behaviour.pendingDispatches ++
          [PendingDispatch.mk handle connectionId false] }
      requests := run.requests ++ [handle]
      trace := run.trace ++ [ClientLabel.registered handle connectionId true] }.Sound where
  requests := by
    rw [map_append, ← hs.requests]
    rfl
  nodup := by
    rw [map_append, nodup_append]
    refine ⟨hs.nodup, nodup_singleton _, ?_⟩
    intro peerId hm other ho
    rw [map_singleton, mem_singleton] at ho
    rw [mem_map] at hm
    obtain ⟨found, hf, rfl⟩ := hm
    rw [ho]
    exact hs.pendingFor_eq_none.mp hnone found hf
  pending := by
    intro dispatch hm
    rcases mem_append.mp hm with hm | hm
    · exact (hs.pending dispatch hm).keep rfl rfl
    · rw [mem_singleton.mp hm]
      exact ⟨run.trace, [], rfl, rfl, rfl⟩
  dispatched := fun found other hdisp =>
    (hs.dispatched found other hdisp).concat rfl rfl
  queued := by
    intro queued hm
    obtain ⟨other, found, hqd, hwts⟩ := hs.queued queued hm
    exact ⟨other, found, hqd, hwts.concat rfl rfl⟩
  queue := hs.queue
  contexts := hs.contexts_concat _
  lawful := lawful_concat hs.lawful trivial
  outcomes := by
    intro other
    have hpre := hs.outcomes other
    have hreq : handle ∉ run.requests := fun hm =>
      hs.pendingFor_eq_none.mp hnone handle hm rfl
    rw [countP_append, countP_append, countP_singleton, countP_singleton]
    by_cases ho : handle = other
    · subst ho
      rw [if_neg hreq] at hpre
      simp [IsOutcome, IsRegistration, ← hpre]
    · have hm : other ∈ run.requests ++ [handle] ↔ other ∈ run.requests := by
        simp [Ne.symm ho]
      simp only [hm, IsOutcome, IsRegistration, ho, decide_false, Bool.and_false,
        Bool.false_eq_true, if_false, Nat.add_zero]
      exact hpre

/-- `fence_dispatch`. -/
theorem ClientRun.Sound.fence (hs : run.Sound) (handle : RelayReservationHandle)
    (found : Bool) :
    { run with
      behaviour := (run.behaviour.fenceDispatch handle).2
      trace := run.trace ++ [ClientLabel.fenced handle found] }.Sound where
  requests := by
    rw [hs.requests, ClientBehaviour.fenceDispatch, map_map]
    apply map_congr_left
    intro dispatch _
    rw [Function.comp_apply]
    split
    · rfl
    · rfl
  nodup := hs.nodup
  pending := by
    intro dispatch hm
    obtain ⟨before, hpre, rfl⟩ := mem_map.mp hm
    have hpen := (hs.pending before hpre).concat
      (rfl : IsOutcome _ (.fenced handle found) = false)
    by_cases hhdl : before.handle = handle
    · rw [if_pos hhdl]
      rw [IsFence, decide_eq_true hhdl.symm, Bool.or_true] at hpen
      exact hpen
    · rw [if_neg hhdl]
      rw [IsFence, decide_eq_false (Ne.symm hhdl), Bool.or_false] at hpen
      exact hpen
  dispatched := by
    intro connectionId other hdisp
    obtain ⟨hpre, hne⟩ := Option.filter_eq_some_iff.mp hdisp
    have hne' : handle ≠ other := fun heq => by simp [heq] at hne
    exact (hs.dispatched connectionId other hpre).concat (decide_eq_false hne') rfl
  queued := by
    intro queued hm
    obtain ⟨hm, hne⟩ := mem_filter.mp hm
    obtain ⟨other, connectionId, rfl, hwts⟩ := hs.queued queued hm
    have hne' : handle ≠ other := fun heq => by simp [heq] at hne
    exact ⟨other, connectionId, rfl, hwts.concat (decide_eq_false hne') rfl⟩
  queue := (length_filter_le _ _).trans hs.queue
  contexts := hs.contexts_concat _
  lawful := lawful_concat hs.lawful trivial
  outcomes := by
    intro other
    rw [countP_append, countP_append, countP_singleton, countP_singleton]
    exact hs.outcomes other

theorem ClientRun.Sound.close (hs : run.Sound) (connectionId : ConnectionId) :
    { run with
      behaviour := run.behaviour.onConnectionClosed connectionId
      trace := run.trace ++ [ClientLabel.closed connectionId] }.Sound where
  __ := hs
  pending := fun dispatch hm => (hs.pending dispatch hm).keep rfl rfl
  dispatched := by
    intro found handle hdisp
    have hupd : Function.update run.behaviour.dispatchesByConnection connectionId none found =
      some handle := hdisp
    by_cases hf : found = connectionId
    · rw [hf, update_self] at hupd
      cases hupd
    · rw [update_of_ne hf] at hupd
      exact (hs.dispatched found handle hupd).concat rfl
        (decide_eq_false (Ne.symm hf))
  queued := by
    intro queued hm
    obtain ⟨handle, found, hqd, hwts⟩ := hs.queued queued hm
    exact ⟨handle, found, hqd, hwts.concat rfl rfl⟩
  contexts := hs.contexts_concat _
  lawful := lawful_concat hs.lawful trivial
  outcomes := by
    intro handle
    rw [countP_append, countP_append, countP_singleton, countP_singleton]
    exact hs.outcomes handle

theorem ClientRun.Sound.handle (hs : run.Sound) {connectionId : ConnectionId}
    {cause : Option RelayReservationHandle}
    (hcau : ∀ handle ∈ cause, run.trace.any (IsForward handle connectionId) = true) :
    { run with
      behaviour := run.behaviour.onConnectionHandlerEvent connectionId
      received := run.received ++ [HandlerEvent.mk connectionId run.trace.length cause]
      trace := run.trace ++
        [ClientLabel.handled ⟨connectionId, run.trace.length, cause⟩] }.Sound := by
  have hqui : (ClientLabel.handled ⟨connectionId, run.trace.length, cause⟩).Quiet :=
    ⟨fun _ => rfl, fun _ => rfl, fun _ => rfl, fun _ => rfl, fun _ => rfl⟩
  have happ := hs.append hqui hcau
  refine { happ with contexts := ?_ }
  apply rel_append happ.contexts
  refine .cons ⟨getElem?_concat_length, ?_⟩ .nil
  intro handle hcon
  rw [take_left]
  exact hs.dispatched connectionId handle hcon

theorem ClientRun.Sound.forward (hs : run.Sound)
    {queued : QueuedAction HandlerEvent HandlerRequest}
    {rest : List (QueuedAction HandlerEvent HandlerRequest)}
    (hque : run.behaviour.queuedActions = queued :: rest) :
    { run with
      behaviour := { run.behaviour with queuedActions := rest }
      trace := run.trace ++ [ClientLabel.polled (some queued.action)] }.Sound := by
  have hlen := hs.queue
  rw [hque, length_cons] at hlen
  have hrest : rest = [] := eq_nil_of_length_eq_zero (by omega)
  obtain ⟨handle, connectionId, rfl, hwts⟩ := hs.queued queued (by simp [hque])
  refine ⟨hs.requests, hs.nodup, ?_, ?_, ?_, ?_, hs.contexts_concat _, ?_, ?_⟩
  · exact fun dispatch hm => (hs.pending dispatch hm).keep rfl rfl
  · exact fun found other hdisp => (hs.dispatched found other hdisp).concat rfl rfl
  · intro queued hm
    rw [hrest] at hm
    exact absurd hm not_mem_nil
  · rw [hrest]
    exact Nat.zero_le _
  · exact lawful_concat hs.lawful ⟨connectionId, rfl, hwts⟩
  · intro other
    rw [countP_append, countP_append, countP_singleton, countP_singleton]
    exact hs.outcomes other

theorem ClientRun.Sound.report (hs : run.Sound) {event : HandlerEvent}
    {rest : List HandlerEvent} (hrecv : run.received = event :: rest) :
    { run with
      behaviour := { run.behaviour with handlerContexts := run.behaviour.handlerContexts.tail }
      received := rest
      trace := run.trace ++ [ClientLabel.polled (some (.generateEvent
        (.upstream event run.behaviour.handlerContexts.head?.join)))] }.Sound := by
  have hcon := hs.contexts
  rw [hrecv] at hcon
  cases hhea : run.behaviour.handlerContexts with
  | nil =>
    rw [hhea] at hcon
    cases hcon
  | cons context contexts =>
    rw [hhea, forall₂_cons] at hcon
    have hqui : (ClientLabel.polled (some (.generateEvent (.upstream event context)))).Quiet :=
      ⟨fun _ => rfl, fun _ => rfl, fun _ => rfl, fun _ => rfl, fun _ => rfl⟩
    have hlaw : Lawful run.trace (.polled (some (.generateEvent (.upstream event context)))) := by
      cases context with
      | none => trivial
      | some handle => exact ⟨hcon.1.1, hcon.1.2 handle rfl⟩
    have happ := hs.append hqui hlaw
    refine { happ with contexts := ?_ }
    have haft := happ.contexts
    simp only [hhea, hrecv, forall₂_cons] at haft
    exact haft.2

theorem ClientRun.Sound.outcome (hs : run.Sound) (label : ClientLabel)
    {handle : RelayReservationHandle} (hm : handle ∈ run.requests)
    (hout : ∀ other, IsOutcome other label = decide (handle = other))
    (hfnc : ∀ other, IsFence other label = false)
    (hregn : ∀ other, IsRegistration other label = false)
    (hclo : ∀ connectionId, IsClose connectionId label = false)
    (hfor : ∀ other, Forwards other label = false) (hlaw : Lawful run.trace label) :
    { run with
      behaviour := run.behaviour.removePending handle.relayPeerId
      requests := run.requests.filter (· ≠ handle)
      trace := run.trace ++ [label] }.Sound where
  requests := hs.requests_remove hm
  nodup := (filter_sublist.map _).nodup hs.nodup
  pending := by
    intro dispatch hdis
    obtain ⟨hdis, hrly⟩ := mem_filter.mp hdis
    have hne : handle ≠ dispatch.handle := fun heq => by simp [heq] at hrly
    exact (hs.pending dispatch hdis).keep
      ((hout _).trans (decide_eq_false hne)) (hfnc _)
  dispatched := fun connectionId other hdisp =>
    (hs.dispatched connectionId other hdisp).concat (hfnc _) (hclo _)
  queued := by
    intro queued hqd
    obtain ⟨other, connectionId, heq, hwts⟩ := hs.queued queued hqd
    exact ⟨other, connectionId, heq, hwts.concat (hfnc _) (hfor _)⟩
  queue := hs.queue
  contexts := hs.contexts_concat label
  lawful := lawful_concat hs.lawful hlaw
  outcomes := by
    intro other
    have hpre := hs.outcomes other
    rw [countP_append, countP_append, countP_singleton, countP_singleton, hout, hregn]
    by_cases ho : handle = other
    · subst ho
      have hgone : handle ∉ run.requests.filter (· ≠ handle) := by simp
      rw [if_pos hm] at hpre
      rw [if_neg hgone, decide_eq_true rfl, if_pos rfl, if_neg Bool.false_ne_true]
      exact hpre
    · have hsm : other ∈ run.requests.filter (· ≠ handle) ↔ other ∈ run.requests := by
        simp [Ne.symm ho]
      rw [decide_eq_false ho, if_neg Bool.false_ne_true, Nat.add_zero, Nat.add_zero]
      simp only [hsm]
      exact hpre

theorem ClientRun.Sound.fail (hs : run.Sound) {handle : RelayReservationHandle}
    (hm : handle ∈ run.requests) (reason : String) :
    { run with
      behaviour := run.behaviour.removePending handle.relayPeerId
      requests := run.requests.filter (· ≠ handle)
      trace := run.trace ++ [ClientLabel.polled (some (.generateEvent
        (.reservationDispatchFailed handle reason)))] }.Sound :=
  hs.outcome _ hm (fun _ => rfl) (fun _ => rfl) (fun _ => rfl) (fun _ => rfl)
    (fun _ => rfl) trivial

theorem ClientRun.Sound.dispatch (hs : run.Sound) {dispatch : PendingDispatch}
    (hm : dispatch ∈ run.behaviour.pendingDispatches) (hlive : dispatch.canceled = false)
    (hque : run.behaviour.queuedActions = []) :
    { run with
      behaviour := { run.behaviour.removePending dispatch.handle.relayPeerId with
        dispatchesByConnection := Function.update run.behaviour.dispatchesByConnection
          dispatch.connectionId (some dispatch.handle)
        queuedActions := run.behaviour.queuedActions ++ [QueuedAction.mk (some dispatch.handle)
          (.notifyHandler dispatch.handle.relayPeerId (.one dispatch.connectionId)
            (some dispatch.handle))] }
      requests := run.requests.filter (· ≠ dispatch.handle)
      trace := run.trace ++ [dispatchLabel dispatch.handle] }.Sound := by
  have hreq : dispatch.handle ∈ run.requests := by
    rw [hs.requests]
    exact mem_map_of_mem hm
  have hpen := hs.pending dispatch hm
  rw [hlive] at hpen
  have hout := hs.outcome (dispatchLabel dispatch.handle) hreq
    (fun _ => rfl) (fun _ => rfl) (fun _ => rfl) (fun _ => rfl) (fun _ => rfl) trivial
  refine { hout with dispatched := ?_, queued := ?_, queue := ?_ }
  · intro connectionId handle hdisp
    have hupd : Function.update run.behaviour.dispatchesByConnection dispatch.connectionId
      (some dispatch.handle) connectionId = some handle := hdisp
    by_cases hconn : connectionId = dispatch.connectionId
    · subst hconn
      rw [update_self, Option.some.injEq] at hupd
      subst hupd
      exact ⟨run.trace, [], hpen, rfl, rfl, rfl⟩
    · rw [update_of_ne hconn] at hupd
      exact hout.dispatched connectionId handle hupd
  · intro queued hqd
    simp only [hque, nil_append, mem_singleton] at hqd
    exact ⟨dispatch.handle, dispatch.connectionId, hqd, run.trace, [], hpen, rfl, rfl, rfl⟩
  · simp only [hque]
    exact le_rfl

theorem ClientRun.Sound.answer (hs : run.Sound)
    (hque : run.behaviour.queuedActions = []) {handle : RelayReservationHandle}
    (hm : handle ∈ run.requests) {action : ToSwarm HandlerEvent HandlerRequest}
    (hact : (∃ handler, action = .notifyHandler handle.relayPeerId handler (some handle)) ∨
      ∃ connectionId, action = .dial (some handle.relayPeerId) connectionId) :
    ClientRun.Sound ⟨(run.behaviour.intercept action).2, run.received,
      run.requests.filter (· ≠ handle),
      run.trace ++ [.polled (some (run.behaviour.intercept action).1)]⟩ := by
  obtain ⟨dispatch, hpend, rfl⟩ := hs.mem_requests.mp hm
  rcases hact with ⟨handler, rfl⟩ | ⟨connectionId, rfl⟩
  · simp only [ClientBehaviour.intercept, hpend]
    split
    · exact hs.fail hm _
    · rename_i hlive
      split
      · exact hs.dispatch (mem_of_find?_eq_some hpend)
          (Bool.eq_false_iff.mpr hlive) hque
      · exact hs.fail hm _
  · simp only [ClientBehaviour.intercept, hpend]
    exact hs.fail hm _

theorem poll_of_empty {behaviour : ClientBehaviour HandlerEvent HandlerRequest}
    (hque : behaviour.queuedActions = []) :
    (∀ action, behaviour.poll (some action) =
        (some (behaviour.intercept action).1, (behaviour.intercept action).2)) ∧
      behaviour.poll none = (none, behaviour) := by
  constructor
  · intro action
    rw [ClientBehaviour.poll, hque]
  · rw [ClientBehaviour.poll, hque]

theorem ClientRun.Sound.passOn (hs : run.Sound) {action : Option ClientAction}
    (hact : action = none ∨ action = some .other ∨
      (∃ peerId handler, action = some (.notifyHandler peerId handler none)) ∨
      ∃ peerId connectionId, action = some (.dial peerId connectionId)) :
    { run with trace := run.trace ++ [ClientLabel.polled action] }.Sound := by
  rcases hact with rfl | rfl | ⟨peerId, handler, rfl⟩ | ⟨peerId, connectionId, rfl⟩
  all_goals
    exact hs.append
      ⟨fun _ => rfl, fun _ => rfl, fun _ => rfl, fun _ => rfl, fun _ => rfl⟩ trivial

theorem ClientRun.Sound.step (hs : run.Sound) {input : ClientInput} {next : ClientRun}
    (hstep : run.step input = some next) : next.Sound := by
  cases input with
  | register handle connectionId =>
    rw [ClientRun.step, Option.some.injEq] at hstep
    subst hstep
    cases hpend : run.behaviour.pendingFor handle.relayPeerId with
    | none =>
      simp only [ClientBehaviour.registerDispatch, hpend, if_true]
      exact hs.register connectionId hpend
    | some pending =>
      simp only [ClientBehaviour.registerDispatch, hpend, Bool.false_eq_true, if_false]
      exact hs.append ⟨fun _ => rfl, fun _ => rfl, fun _ => rfl, fun _ => rfl, fun _ => rfl⟩
        trivial
  | fence handle =>
    cases hstep
    exact hs.fence handle _
  | close connectionId =>
    cases hstep
    exact hs.close connectionId
  | handle connectionId cause =>
    rw [ClientRun.step] at hstep
    split at hstep
    · rename_i hcause
      cases hstep
      exact hs.handle hcause
    · cases hstep
  | poll choice =>
    rw [ClientRun.step] at hstep
    split at hstep
    · rename_i queued rest hque
      simp only [ClientBehaviour.poll, hque] at hstep
      cases hstep
      exact hs.forward hque
    · rename_i hque
      obtain ⟨hpoll, hidle⟩ := poll_of_empty hque
      cases choice with
      | report =>
        cases hrecv : run.received with
        | nil =>
          simp only [ClientRun.choose, hrecv] at hstep
          cases hstep
        | cons event rest =>
          simp only [ClientRun.choose, hrecv, hpoll] at hstep
          cases hstep
          exact hs.report hrecv
      | notify handle handler =>
        rw [ClientRun.choose] at hstep
        by_cases hm : handle ∈ run.requests
        · simp only [hm, if_true, hpoll, Option.some.injEq] at hstep
          subst hstep
          exact hs.answer hque hm (Or.inl ⟨handler, rfl⟩)
        · simp only [hm, if_false] at hstep
          cases hstep
      | dial handle connectionId =>
        rw [ClientRun.choose] at hstep
        by_cases hm : handle ∈ run.requests
        · simp only [hm, if_true, hpoll, Option.some.injEq] at hstep
          subst hstep
          exact hs.answer hque hm (Or.inr ⟨connectionId, rfl⟩)
        · simp only [hm, if_false] at hstep
          cases hstep
      | notifyElse peerId handler =>
        rw [ClientRun.choose] at hstep
        by_cases hm : ∃ handle ∈ run.requests, handle.relayPeerId = peerId
        · simp only [hm, if_true] at hstep
          cases hstep
        · have hnone : run.behaviour.pendingFor peerId = none :=
            hs.pendingFor_eq_none.mpr fun handle hhdl hrly =>
              hm ⟨handle, hhdl, hrly⟩
          simp only [hm, if_false, hpoll, ClientBehaviour.intercept, hnone,
            Option.some.injEq] at hstep
          subst hstep
          exact hs.passOn (Or.inr (Or.inr (Or.inl ⟨peerId, handler, rfl⟩)))
      | dialElse peerId connectionId =>
        rw [ClientRun.choose] at hstep
        by_cases hm : ∃ handle ∈ run.requests, some handle.relayPeerId = peerId
        · simp only [hm, if_true] at hstep
          cases hstep
        · have hpas : run.behaviour.intercept (.dial peerId connectionId) =
              (.dial peerId connectionId, run.behaviour) := by
            cases peerId with
            | none => rfl
            | some peerId =>
              have hnone : run.behaviour.pendingFor peerId = none :=
                hs.pendingFor_eq_none.mpr fun handle hhdl hrly =>
                  hm ⟨handle, hhdl, congrArg some hrly⟩
              simp only [ClientBehaviour.intercept, hnone]
          simp only [hm, if_false, hpoll, hpas, Option.some.injEq] at hstep
          subst hstep
          exact hs.passOn (Or.inr (Or.inr (Or.inr ⟨peerId, connectionId, rfl⟩)))
      | other =>
        simp only [ClientRun.choose, hpoll, Option.some.injEq] at hstep
        subst hstep
        exact hs.passOn (Or.inr (Or.inl rfl))
      | pending =>
        simp only [ClientRun.choose, hidle, Option.some.injEq] at hstep
        subst hstep
        exact hs.passOn (Or.inl rfl)

end Steps

theorem exists_of_isForward {labels : List ClientLabel} {handle : RelayReservationHandle}
    {connectionId : ConnectionId} (hany : labels.any (IsForward handle connectionId) = true) :
    ∃ before peerId after, labels = before ++
      ClientLabel.polled (some (.notifyHandler peerId (.one connectionId) (some handle))) ::
        after := by
  obtain ⟨label, hm, hfor⟩ := any_eq_true.mp hany
  obtain ⟨before, after, hsp⟩ := append_of_mem hm
  unfold IsForward at hfor
  split at hfor
  · rename_i peerId found forwarded
    rw [Bool.and_eq_true, decide_eq_true_eq, decide_eq_true_eq] at hfor
    obtain ⟨rfl, rfl⟩ := hfor
    exact ⟨before, peerId, after, hsp⟩
  · cases hfor

theorem ClientRun.Sound.generation {run : ClientRun} (hs : run.Sound)
    (hexcl : Exclusive run.trace) {event : HandlerEvent} {handle : RelayReservationHandle}
    (hm : ClientLabel.polled (some (.generateEvent (.upstream event (some handle)))) ∈ run.trace)
    {cause : RelayReservationHandle} (hcau : cause ∈ event.cause) : cause = handle := by
  obtain ⟨before, after, hsp⟩ := append_of_mem hm
  obtain ⟨hev, hhld⟩ := hs.lawful before _ after hsp
  have hhdl : ClientLabel.registered handle event.connectionId true ∈ run.trace := by
    rw [hsp]
    exact mem_append_left _ (mem_of_mem_take hhld.registered)
  obtain ⟨first, second, hfst⟩ := append_of_mem (mem_of_getElem? hev)
  have hhan : run.trace = first ++ ClientLabel.handled event :: (second ++
      ClientLabel.polled (some (.generateEvent (.upstream event (some handle)))) :: after) := by
    rw [hsp, hfst, append_assoc, cons_append]
  obtain ⟨early, peerId, late, hfor⟩ := exists_of_isForward (hs.lawful first _ _ hhan cause hcau)
  rw [hfor, append_assoc, cons_append] at hhan
  obtain ⟨connectionId, hconn, hwts⟩ := hs.lawful early _ _ hhan
  cases hconn
  apply hexcl cause handle event.connectionId _ hhdl
  rw [hhan]
  exact mem_append_left _ hwts.registered

theorem ClientRun.Sound.stamped {run : ClientRun} (hs : run.Sound) : run.Stamped where
  stamped := fun before _ _ after hsp => hs.lawful before _ after hsp
  generation := fun hexcl _ _ hm _ hcau => hs.generation hexcl hm hcau
  forwarded := fun before _ _ _ after hsp => hs.lawful before _ after hsp
  pending := ⟨hs.nodup, fun _ => hs.mem_requests⟩
  outcomes := hs.outcomes

/-- **Stamping.** What is said of stamps, requests and outcomes holds in every run. -/
theorem relay_client_stamps_generations (inputs : List ClientInput) {run : ClientRun}
    (hrun : runSteps ClientRun.step ClientRun.new inputs = some run) : run.Stamped :=
  (invariant_of_run ClientRun.Sound.new (fun _ _ _ hsound hstep => hsound.step hstep) hrun).stamped

/-- A reservation of one relay, in its first and its second generation. -/
def generationHandle (generation : ℕ) : RelayReservationHandle :=
  ⟨7, samplePeer 2, generation, generation⟩

/-- A reservation that is accepted on its connection. -/
def acceptedInputs : List ClientInput :=
  [.register (generationHandle 1) 7, .poll (.notify (generationHandle 1) (.one 7)), .poll .pending,
    .handle 7 (some (generationHandle 1)), .poll .report]

theorem relay_client_stamps_generations_sample : ∃ run,
    runSteps ClientRun.step ClientRun.new acceptedInputs = some run ∧
    run.trace.getLast? = some (.polled (some (.generateEvent
      (.upstream ⟨7, 3, some (generationHandle 1)⟩ (some (generationHandle 1)))))) ∧
    run.Stamped := by
  refine ⟨_, rfl, rfl, ?_⟩
  exact relay_client_stamps_generations acceptedInputs rfl

/-- A fenced handle's replacement is stamped on the late acceptance of the first. -/
def replacedInputs : List ClientInput :=
  [.register (generationHandle 1) 7, .poll (.notify (generationHandle 1) (.one 7)), .poll .pending,
    .fence (generationHandle 1), .register (generationHandle 2) 7,
    .poll (.notify (generationHandle 2) (.one 7)), .poll .pending,
    .handle 7 (some (generationHandle 1)), .poll .report]

/-- A handle that is fenced between its dispatch and its request. -/
def fencedInputs : List ClientInput :=
  [.register (generationHandle 1) 7, .poll (.notify (generationHandle 1) (.one 7)),
    .handle 7 none, .fence (generationHandle 1), .poll .report]

/-- An event of the first generation is stamped with the second. -/
theorem relay_client_stamps_another_generation :
    (∃ run, runSteps ClientRun.step ClientRun.new replacedInputs = some run ∧
      generationHandle 1 ≠ generationHandle 2 ∧
      run.trace.getLast? = some (.polled (some (.generateEvent
        (.upstream ⟨7, 7, some (generationHandle 1)⟩ (some (generationHandle 2))))))) ∧
    ∃ run, runSteps ClientRun.step ClientRun.new fencedInputs = some run ∧
      run.trace.getLast? = some (.polled (some (.generateEvent
        (.upstream ⟨7, 2, none⟩ (some (generationHandle 1)))))) ∧
      run.trace.any (Forwards (generationHandle 1)) = false := by
  constructor
  · exact ⟨_, rfl, by decide, rfl⟩
  · exact ⟨_, rfl, rfl, rfl⟩

end AukiSdk.Relay
