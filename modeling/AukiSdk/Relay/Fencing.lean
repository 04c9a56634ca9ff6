import AukiSdk.Relay.Publication

/-!
# Generation fencing

Refused calls change nothing, late handles reach nothing, and relays are apart.
-/

namespace AukiSdk.Relay

open AukiSdk.Foundation List
open AukiSdk.Net

variable {nodeInstanceId : Uuid} {localPeerId : PeerId}
variable {history : List RelayLabel} {node next : RelayReservationNode}

/-- The relay a call is about. -/
def RelayCall.relayPeerId : RelayCall → PeerId
  | .begin provider _ => provider.relayPeerId
  | .observe handle _ => handle.relayPeerId

/-- `handle` names the current entry of its relay. -/
def RelayReservationNode.Current (node : RelayReservationNode)
    (handle : RelayReservationHandle) : Prop :=
  handle.nodeInstanceId = node.nodeInstanceId ∧
    ∃ entry, node.reservations[handle.relayPeerId]? = some entry ∧
      entry.handle.generation = handle.generation

/-- The errors of `validate_handle`. -/
def RelayReservationError.isFence : RelayReservationError → Bool
  | .foreignHandle | .staleHandle | .unknownHandle => true
  | _ => false

namespace RelayReservationNode

theorem perform_error_unchanged {call : RelayCall} {error : RelayReservationError}
    (hper : node.perform call = (.error error, next)) : next = node := by
  have hpfs := node.performs call
  rw [hper] at hpfs
  cases hpfs
  rfl

theorem perform_other_relay (call : RelayCall) {relay : PeerId}
    (ho : relay ≠ call.relayPeerId) :
    (node.perform call).2.reservations[relay]? = node.reservations[relay]? := by
  have hpfs := node.performs call
  generalize node.perform call = outcome at hpfs
  cases hpfs with
  | refused => rfl
  | began => exact (FiniteMap.getElem?_insert _ _ _ _).trans (if_neg ho)
  | kept => exact (FiniteMap.getElem?_insert _ _ _ _).trans (if_neg ho)
  | removed => exact (FiniteMap.getElem?_erase _ _ _).trans (if_neg ho)

theorem entry_of_not_current {handle : RelayReservationHandle}
    (hsta : ¬node.Current handle) :
    ∃ error, error.isFence = true ∧ node.entry handle = .error error := by
  unfold RelayReservationNode.entry validateHandle
  by_cases hinst : handle.nodeInstanceId = node.nodeInstanceId
  · rw [if_neg (not_not_intro hinst)]
    cases hst : node.reservations[handle.relayPeerId]? with
    | none =>
      simp only
      split
      · rename_i error hval
        refine ⟨error, ?_, rfl⟩
        split at hval <;> cases hval <;> rfl
      · exact ⟨.staleHandle, rfl, rfl⟩
    | some entry =>
      have hgen : entry.handle.generation ≠ handle.generation :=
        fun heq => hsta ⟨hinst, entry, hst, heq⟩
      simp only [if_neg hgen]
      exact ⟨.staleHandle, rfl, rfl⟩
  · rw [if_pos hinst]
    exact ⟨.foreignHandle, rfl, rfl⟩

theorem refused_of_not_current {handle : RelayReservationHandle}
    (hsta : ¬node.Current handle) :
    ∃ error, error.isFence = true ∧ node.snapshot handle = .error error ∧
      ∀ observation, (node.perform (.observe handle observation)).1 = .error error := by
  obtain ⟨error, hfnc, hent⟩ := entry_of_not_current hsta
  refine ⟨error, hfnc, ?_, fun observation => ?_⟩
  · simp only [RelayReservationNode.snapshot, hent]
  · simp only [perform, RelayReservationNode.observe, hent]
    rfl

end RelayReservationNode

namespace Tracked

variable (htracked : Tracked nodeInstanceId localPeerId history node)
include htracked

theorem entry_unique {relay relay' : PeerId} {entry entry' : ReservationEntry}
    (hent : node.reservations[relay]? = some entry)
    (hentry' : node.reservations[relay']? = some entry')
    (hsm : entry.handle.relayPeerId = entry'.handle.relayPeerId ∨
      entry.handle.listenerId = entry'.handle.listenerId ∨
      entry.handle.generation = entry'.handle.generation) : relay = relay' := by
  obtain ⟨hbgn, hrly⟩ := htracked.entry_began _ _ hent
  obtain ⟨hbegan', hrelay'⟩ := htracked.entry_began _ _ hentry'
  rcases hsm with hsm | hsm | hsm
  · rw [← hrly, ← hrelay', hsm]
  · exact htracked.listener_unique _ _ _ _ hent hentry' hsm
  · rw [← hrly, ← hrelay', (htracked.began_unique _ _ _ _ hbgn hbegan' hsm).1]

variable {handle : RelayReservationHandle} {provider : RelayProvider}

/-- `begin` returns a generation above every earlier one. -/
theorem began_generation_lt {provider' : RelayProvider} {listenerId : ListenerId}
    {earlier : RelayReservationHandle}
    (hs : RelayStep history node (.started provider listenerId handle) next)
    (hpri : Began history earlier provider') :
    earlier.generation < handle.generation := by
  have hpfs := node.performs (.begin provider listenerId)
  rw [← hs.2] at hpfs
  cases hpfs
  exact (htracked.began_own _ _ hpri).2.2

/-- Nothing is canceled for a handle before the `begin` that returns it. -/
theorem uncanceled_before_began {listenerId : ListenerId}
    (hs : RelayStep history node (.started provider listenerId handle) next) :
    history.any (emitsCanceled handle) = false := by
  have hunb : ∀ earlier, ¬Began history handle earlier :=
    fun earlier hbgn => lt_irrefl _ (htracked.began_generation_lt hs hbgn)
  have hzero := (htracked.emits_nothing_of_unborn hunb).2
  simpa [countP_eq_zero] using hzero

theorem canceled_after_reports {label : RelayLabel} (hs : RelayStep history node label next)
    (hlbl : emitsCanceled handle label = true) :
    (history ++ [label]).any (reportsListenerClosed handle) = true ∧
      (history ++ [label]).any (reportsConnectionTerminal handle) = true := by
  have hn := htracked.step hs
  have hone : 0 < (history ++ [label]).countP (emitsCanceled handle) := by
    rw [countP_append, countP_singleton, hlbl]
    simp
  by_cases hbgn : ∃ provider, Began (history ++ [label]) handle provider
  · obtain ⟨provider, hbgn⟩ := hbgn
    by_cases hcur : ∃ entry, next.reservations[handle.relayPeerId]? = some entry ∧
        entry.handle = handle
    · obtain ⟨entry, hent, rfl⟩ := hcur
      exact absurd (hn.entry_evidence _ _ hent).uncanceled hone.ne'
    · push Not at hcur
      have hrtd := hn.retired _ _ hbgn hcur
      exact ⟨hrtd.listenerClosed, hrtd.connectionTerminal⟩
  · push Not at hbgn
    exact absurd (hn.emits_nothing_of_unborn hbgn).2 hone.ne'

/-- While a handle is not canceled, `begin` for its relay is refused. -/
theorem begin_refused {provider' : RelayProvider} (hbgn : Began history handle provider)
    (hrly : provider'.relayPeerId = provider.relayPeerId)
    (hunc : history.any (emitsCanceled handle) = false) (listenerId : ListenerId) :
    (node.perform (.begin provider' listenerId)).1 =
      .error (.reservationAlreadyExists provider.relayPeerId) := by
  have hst : ∃ entry, node.reservations[handle.relayPeerId]? = some entry := by
    by_contra hgone
    push Not at hgone
    have hcanc : history.countP (emitsCanceled handle) = 1 :=
      (htracked.retired _ _ hbgn fun entry hent => absurd hent (hgone entry)).canceled_eq
    have hzero : history.countP (emitsCanceled handle) = 0 := by
      simpa [countP_eq_zero] using hunc
    omega
  obtain ⟨entry, hent⟩ := hst
  rw [(htracked.began_own _ _ hbgn).2.1, ← hrly] at hent
  have hcon : node.reservations.contains provider'.relayPeerId = true := by
    rw [Std.ExtTreeMap.contains_eq_isSome_getElem?, hent]
    rfl
  simp only [RelayReservationNode.perform, RelayReservationNode.begin, hcon, if_true]
  rw [hrly]
  rfl

end Tracked

/-- Generation fencing of a reservation node, over every run. -/
theorem generation_fencing (hrun : RelayRun nodeInstanceId localPeerId history node) :
    -- A refused call changes nothing.
    (∀ call error next, node.perform call = (.error error, next) → next = node) ∧
    -- A handle that is not current is refused by the fence.
    (∀ handle, ¬node.Current handle →
      ∃ error, error.isFence = true ∧ node.snapshot handle = .error error ∧
        ∀ observation, (node.perform (.observe handle observation)).1 = .error error) ∧
    -- A call leaves the entries of other relays alone.
    (∀ call (relay : PeerId), relay ≠ call.relayPeerId →
      (node.perform call).2.reservations[relay]? = node.reservations[relay]?) ∧
    -- Relay, listener and generation each identify an entry.
    (∀ (relay relay' : PeerId) (entry entry' : ReservationEntry),
      node.reservations[relay]? = some entry → node.reservations[relay']? = some entry' →
      (entry.handle.relayPeerId = entry'.handle.relayPeerId ∨
        entry.handle.listenerId = entry'.handle.listenerId ∨
        entry.handle.generation = entry'.handle.generation) → relay = relay') ∧
    -- Generations strictly increase.
    (∀ before provider listenerId handle after earlier provider',
      history = before ++ RelayLabel.started provider listenerId handle :: after →
      Began before earlier provider' → earlier.generation < handle.generation) ∧
    -- Cancellation completes at most once, after both terminal reports.
    (∀ handle, history.countP (emitsCanceled handle) ≤ 1) ∧
    (∀ before label after handle, history = before ++ label :: after →
      emitsCanceled handle label = true →
      (before ++ [label]).any (reportsListenerClosed handle) = true ∧
        (before ++ [label]).any (reportsConnectionTerminal handle) = true) ∧
    -- A relay is not reused before its cancellation completed.
    (∀ before provider listenerId handle middle provider' listenerId' result after,
      history = before ++ RelayLabel.started provider listenerId handle :: middle ++
        (RelayCall.begin provider' listenerId', result) :: after →
      provider'.relayPeerId = provider.relayPeerId →
      middle.any (emitsCanceled handle) = false →
      result = .error (.reservationAlreadyExists provider.relayPeerId)) := by
  have htracked := tracked_of_run hrun
  refine ⟨fun _ _ _ => RelayReservationNode.perform_error_unchanged,
    fun _ => RelayReservationNode.refused_of_not_current,
    fun call _ => RelayReservationNode.perform_other_relay call,
    fun _ _ _ _ => htracked.entry_unique, ?_,
    fun handle => (htracked.emissions_le_one handle).2, ?_, ?_⟩
  · rintro before provider listenerId handle after earlier provider' rfl hearlier
    obtain ⟨source, target, hbefore, hstep, -⟩ := hrun.step_at
    exact (tracked_of_run hbefore).began_generation_lt hstep hearlier
  · rintro before label after handle rfl hlabel
    obtain ⟨source, target, hbefore, hstep, -⟩ := hrun.step_at
    exact (tracked_of_run hbefore).canceled_after_reports hstep hlabel
  · rintro before provider listenerId handle middle provider' listenerId' result after rfl
      hrelay huncanceled
    obtain ⟨source, target, hearlier, hstep, -⟩ := hrun.step_at
    obtain ⟨origin, _, horigin, hbegin, -⟩ := hearlier.step_at
    have hbefore := (tracked_of_run horigin).uncanceled_before_began hbegin
    have hbegan : Began (before ++ RelayLabel.started provider listenerId handle ::
        middle) handle provider := ⟨listenerId, by simp⟩
    have hsince : (before ++ RelayLabel.started provider listenerId handle ::
        middle).any (emitsCanceled handle) = false := by
      rw [any_append, any_cons, hbefore, huncanceled]
      rfl
    have hresult := (tracked_of_run hearlier).begin_refused hbegan hrelay hsince listenerId'
    rw [← hstep.2] at hresult
    exact hresult

/-- A concrete run in which a second `begin` for the relay of a live handle is
refused. -/
theorem generation_fencing_sample : ∃ history node, RelayRun 7 (samplePeer 1) history node ∧
      history = [sampleBegin] ++ [RelayLabel.refused (.begin (sampleProvider 2) 12)
          (.reservationAlreadyExists (samplePeer 2))] ∧
      (∀ handle, ¬node.Current handle → ∃ error, error.isFence = true ∧
        node.snapshot handle = .error error) ∧
      history.countP (emitsCanceled sampleHandle) ≤ 1 := by
  have hrefused := RelayRun.call sampleNode_run (.begin (sampleProvider 2) 12)
    (.error (.reservationAlreadyExists (samplePeer 2))) (by simp) (by decide +kernel)
  obtain ⟨-, hfence, -, -, -, hcanceled, -, -⟩ := generation_fencing hrefused
  refine ⟨_, _, hrefused, rfl, ?_, hcanceled sampleHandle⟩
  intro handle hstale
  obtain ⟨error, herror, hsnapshot, -⟩ := hfence handle hstale
  exact ⟨error, herror, hsnapshot⟩

end AukiSdk.Relay
