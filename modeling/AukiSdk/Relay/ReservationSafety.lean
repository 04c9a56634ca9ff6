import AukiSdk.Relay.ReservationHistory

/-!
# The run invariant of a reservation node

What one call can do to a node, and the invariant of its history.
-/

namespace AukiSdk.Relay

open AukiSdk.Foundation
open AukiSdk.Net
open Std (ExtTreeMap)

variable {nodeInstanceId : Uuid} {localPeerId : PeerId}
variable {history : List RelayLabel} {node next : RelayReservationNode}

/-- The handle a successful `begin` mints. -/
def RelayReservationNode.mintHandle (node : RelayReservationNode)
    (provider : RelayProvider) (listenerId : ListenerId) : RelayReservationHandle :=
  ⟨node.nodeInstanceId, provider.relayPeerId, node.nextGeneration, listenerId⟩

/-- The node after a successful `begin`. -/
def RelayReservationNode.started (node : RelayReservationNode) (provider : RelayProvider)
    (listenerId : ListenerId) : RelayReservationNode :=
  { node with
    nextGeneration := node.nextGeneration + 1
    latestGeneration := node.latestGeneration.insert provider.relayPeerId node.nextGeneration
    reservations := node.reservations.insert provider.relayPeerId
      (.new (node.mintHandle provider listenerId) provider) }

/-- Everything a call can do to a node. -/
inductive RelayReservationNode.Performs (node : RelayReservationNode) :
    RelayCall → Except RelayReservationError RelayReply × RelayReservationNode → Prop where
  | refused (call : RelayCall) (error : RelayReservationError) :
      Performs node call (.error error, node)
  | began (provider : RelayProvider) (listenerId : ListenerId)
      (hfree : node.reservations[provider.relayPeerId]? = none)
      (hlistener : ∀ (relay : PeerId) (entry : ReservationEntry),
        node.reservations[relay]? = some entry →
        entry.handle.listenerId ≠ listenerId) :
      Performs node (.begin provider listenerId)
        (.ok (.started (node.mintHandle provider listenerId)),
          node.started provider listenerId)
  | kept (handle : RelayReservationHandle) (observation : Observation)
      (current updated : ReservationEntry) (event : RelayReservationEvent)
      (hentry : node.entry handle = .ok current)
      (houtcome : current.observe handle node.localPeerId observation =
        (.ok event, some updated)) :
      Performs node (.observe handle observation)
        (.ok (.event event),
          { node with
            reservations := node.reservations.insert handle.relayPeerId updated })
  | removed (handle : RelayReservationHandle) (observation : Observation)
      (current : ReservationEntry) (hentry : node.entry handle = .ok current)
      (houtcome : current.observe handle node.localPeerId observation =
        (.ok (.canceled handle), none)) :
      Performs node (.observe handle observation)
        (.ok (.event (.canceled handle)),
          { node with reservations := node.reservations.erase handle.relayPeerId })

theorem RelayReservationNode.performs_begin (node : RelayReservationNode)
    (provider : RelayProvider) (listenerId : ListenerId) :
    node.Performs (.begin provider listenerId) (node.perform (.begin provider listenerId)) := by
  simp only [perform, RelayReservationNode.begin]
  split
  · exact .refused _ _
  · rename_i hfree
    split
    · exact .refused _ _
    · rename_i hlis
      split
      · exact .refused _ _
      · rename_i nextGeneration hn
        cases Word.checkedAdd_eq_some hn
        refine .began provider listenerId ?_ ?_
        · simpa using hfree
        · intro relay entry hent hsm
          apply hlis
          exact (FiniteMap.any_toList_iff node.reservations
            fun stored => stored.handle.listenerId = listenerId).mpr
              ⟨relay, entry, hent, by simpa using hsm⟩

theorem RelayReservationNode.performs_observe (node : RelayReservationNode)
    (handle : RelayReservationHandle) (observation : Observation) :
    node.Performs (.observe handle observation)
      (node.perform (.observe handle observation)) := by
  simp only [perform, RelayReservationNode.observe]
  split
  · exact .refused _ _
  · rename_i current hcur
    obtain ⟨-, hst, -⟩ := (node.entry_eq_ok_iff handle current).mp hcur
    have hret := current.returns_observe handle node.localPeerId observation
    generalize hout : current.observe handle node.localPeerId observation = outcome
      at hret
    cases hret with
    | refused error =>
      simp only [FiniteMap.insert_stored hst]
      exact .refused _ _
    | kept event updated =>
      exact .kept handle observation current updated event hcur hout
    | removed =>
      exact .removed handle observation current hcur hout

theorem RelayReservationNode.performs (node : RelayReservationNode) (call : RelayCall) :
    node.Performs call (node.perform call) := by
  cases call with
  | begin provider listenerId => exact node.performs_begin provider listenerId
  | observe handle observation => exact node.performs_observe handle observation

/-- Nothing is recorded. -/
def HandleRecord.blank : HandleRecord := ⟨false, false, false, false, false, 0, 0⟩

/-- The record of a handle whose entry was removed. -/
structure HandleRecord.Retired (record : HandleRecord) : Prop where
  ended : record.ended = true
  published_le : record.published ≤ 1
  canceled_eq : record.canceled = 1
  listenerClosed : record.listenerClosed = true
  connectionTerminal : record.connectionTerminal = true

/-- The history determines the holders, and entries agree with what was recorded. -/
structure Tracked (nodeInstanceId : Uuid) (localPeerId : PeerId)
    (history : List RelayLabel) (node : RelayReservationNode) : Prop where
  instance_eq : node.nodeInstanceId = nodeInstanceId
  local_eq : node.localPeerId = localPeerId
  began_own : ∀ handle provider, Began history handle provider →
    handle.nodeInstanceId = nodeInstanceId ∧ handle.relayPeerId = provider.relayPeerId ∧
      handle.generation < node.nextGeneration
  began_unique : ∀ handle provider handle' provider', Began history handle provider →
    Began history handle' provider' → handle.generation = handle'.generation →
      handle = handle' ∧ provider = provider'
  entry_began : ∀ (relay : PeerId) (entry : ReservationEntry),
    node.reservations[relay]? = some entry →
      Began history entry.handle entry.provider ∧ entry.handle.relayPeerId = relay
  entry_evidence : ∀ (relay : PeerId) (entry : ReservationEntry),
    node.reservations[relay]? = some entry →
      EntryEvidence (handleRecord entry.handle entry.provider.expectedLimits history) entry
  listener_unique : ∀ (relay relay' : PeerId) (entry entry' : ReservationEntry),
    node.reservations[relay]? = some entry → node.reservations[relay']? = some entry' →
      entry.handle.listenerId = entry'.handle.listenerId → relay = relay'
  /-- A handle whose entry is gone was ended and canceled exactly once. -/
  retired : ∀ handle provider, Began history handle provider →
    (∀ entry, node.reservations[handle.relayPeerId]? = some entry → entry.handle ≠ handle) →
      (handleRecord handle provider.expectedLimits history).Retired
  /-- Nothing is recorded for a handle before `begin` returns it. -/
  unborn : ∀ handle limits, (∀ provider, ¬Began history handle provider) →
    handleRecord handle limits history = .blank

theorem began_append_iff {label : RelayLabel} {handle : RelayReservationHandle}
    {provider : RelayProvider} :
    Began (history ++ [label]) handle provider ↔ Began history handle provider ∨
        ∃ listenerId, label = .started provider listenerId handle := by
  simp only [Began, List.mem_append, List.mem_singleton, exists_or, eq_comm]

theorem began_append_error (history : List RelayLabel) (call : RelayCall)
    (error : RelayReservationError) (handle : RelayReservationHandle)
    (provider : RelayProvider) :
    Began (history ++ [RelayLabel.refused call error]) handle provider ↔
      Began history handle provider := by
  simp [began_append_iff]

theorem began_append_event (history : List RelayLabel) (call : RelayCall)
    (event : RelayReservationEvent) (handle : RelayReservationHandle)
    (provider : RelayProvider) :
    Began (history ++ [(call, .ok (.event event))]) handle provider ↔
      Began history handle provider := by
  simp [began_append_iff]

/-- `begin` mints exactly the handle it returns. -/
theorem began_append_started (history : List RelayLabel) (provider : RelayProvider)
    (listenerId : ListenerId) (started handle : RelayReservationHandle)
    (provider' : RelayProvider) :
    Began (history ++ [RelayLabel.started provider listenerId started]) handle
        provider' ↔
      Began history handle provider' ∨ handle = started ∧ provider' = provider := by
  rw [began_append_iff]
  constructor
  · rintro (hbgn | ⟨listenerId', heq⟩)
    · exact .inl hbgn
    · simp only [Prod.mk.injEq, RelayCall.begin.injEq, Except.ok.injEq,
        RelayReply.started.injEq] at heq
      exact .inr ⟨heq.2.symm, heq.1.1.symm⟩
  · rintro (hbgn | ⟨rfl, rfl⟩)
    · exact .inl hbgn
    · exact .inr ⟨listenerId, rfl⟩

theorem tracked_new (nodeInstanceId : Uuid) (localPeerId : PeerId) :
    Tracked nodeInstanceId localPeerId [] (.new nodeInstanceId localPeerId) where
  instance_eq := rfl
  local_eq := rfl
  began_own := by simp [Began]
  began_unique := by simp [Began]
  entry_began := by simp [RelayReservationNode.new]
  entry_evidence := by simp [RelayReservationNode.new]
  listener_unique := by simp [RelayReservationNode.new]
  retired := by simp [Began]
  unborn := by simp [handleRecord, HandleRecord.blank]

theorem EntryEvidence.new (handle : RelayReservationHandle) (provider : RelayProvider) :
    EntryEvidence .blank (.new handle provider) := by
  constructor <;> simp [HandleRecord.blank, ReservationEntry.new]

namespace Tracked

variable (htracked : Tracked nodeInstanceId localPeerId history node)
include htracked

theorem refused (call : RelayCall) (error : RelayReservationError) :
    Tracked nodeInstanceId localPeerId (history ++ [RelayLabel.refused call error]) node := by
  constructor
  · exact htracked.instance_eq
  · exact htracked.local_eq
  · simpa only [began_append_error] using htracked.began_own
  · simpa only [began_append_error] using htracked.began_unique
  · simpa only [began_append_error] using htracked.entry_began
  · simpa only [handleRecord_append_error] using htracked.entry_evidence
  · exact htracked.listener_unique
  · simpa only [began_append_error, handleRecord_append_error] using htracked.retired
  · simpa only [began_append_error, handleRecord_append_error] using htracked.unborn

theorem not_began_mintHandle (provider provider' : RelayProvider) (listenerId : ListenerId) :
    ¬Began history (node.mintHandle provider listenerId) provider' := by
  intro hbgn
  exact lt_irrefl _ (htracked.began_own _ _ hbgn).2.2

/-- A successful `begin` keeps the invariant. -/
theorem began (provider : RelayProvider) (listenerId : ListenerId)
    (hfree : node.reservations[provider.relayPeerId]? = none)
    (hlis : ∀ (relay : PeerId) (entry : ReservationEntry),
      node.reservations[relay]? = some entry → entry.handle.listenerId ≠ listenerId) :
    Tracked nodeInstanceId localPeerId
      (history ++ [RelayLabel.started provider listenerId (node.mintHandle provider listenerId)])
      (node.started provider listenerId) := by
  have hgen : ∀ handle provider', Began history handle provider' →
      handle.generation ≠ node.nextGeneration :=
    fun handle provider' hbgn => (htracked.began_own _ _ hbgn).2.2.ne
  have hlook : ∀ relay : PeerId, (node.started provider listenerId).reservations[relay]? =
      if relay = provider.relayPeerId then
        some (.new (node.mintHandle provider listenerId) provider)
      else node.reservations[relay]? :=
    fun relay => FiniteMap.getElem?_insert _ _ _ _
  refine ⟨htracked.instance_eq, htracked.local_eq, ?_, ?_, ?_, ?_, ?_, ?_, ?_⟩
  · intro handle provider' hbgn
    rcases (began_append_started ..).mp hbgn with hbgn | ⟨rfl, rfl⟩
    · obtain ⟨hinst, hrly, hlt⟩ := htracked.began_own _ _ hbgn
      exact ⟨hinst, hrly, Nat.lt_succ_of_lt hlt⟩
    · exact ⟨htracked.instance_eq, rfl, Nat.lt_succ_self _⟩
  · intro handle first handle' second hfst hsnd heq
    rcases (began_append_started ..).mp hfst with hold | ⟨rfl, rfl⟩ <;>
      rcases (began_append_started ..).mp hsnd with hold' | ⟨rfl, rfl⟩
    · exact htracked.began_unique _ _ _ _ hold hold' heq
    · exact absurd heq (hgen _ _ hold)
    · exact absurd heq.symm (hgen _ _ hold')
    · exact ⟨rfl, rfl⟩
  · intro relay entry hent
    rw [hlook] at hent
    split at hent
    · rename_i hrly
      cases hent
      exact ⟨(began_append_started ..).mpr (.inr ⟨rfl, rfl⟩), hrly.symm⟩
    · obtain ⟨hbgn, hrly⟩ := htracked.entry_began _ _ hent
      exact ⟨(began_append_started ..).mpr (.inl hbgn), hrly⟩
  · intro relay entry hent
    rw [handleRecord_append_begin]
    rw [hlook] at hent
    split at hent
    · cases hent
      have hunb := htracked.unborn (node.mintHandle provider listenerId)
        provider.expectedLimits fun provider' =>
          htracked.not_began_mintHandle provider provider' listenerId
      simpa only [ReservationEntry.new, hunb] using
        EntryEvidence.new (node.mintHandle provider listenerId) provider
    · exact htracked.entry_evidence _ _ hent
  · intro relay relay' entry entry' hent hentry' heq
    rw [hlook] at hent hentry'
    split at hent <;> split at hentry'
    · rename_i hrly hrelay'
      rw [hrly, hrelay']
    · cases hent
      exact absurd heq.symm (hlis _ _ hentry')
    · cases hentry'
      exact absurd heq (hlis _ _ hent)
    · exact htracked.listener_unique _ _ _ _ hent hentry' heq
  · intro handle provider' hbgn hgone
    rw [handleRecord_append_begin]
    simp only [hlook] at hgone
    rcases (began_append_started ..).mp hbgn with hbgn | ⟨rfl, rfl⟩
    · refine htracked.retired _ _ hbgn fun entry hent => hgone entry ?_
      rw [if_neg, hent]
      rintro hrly
      rw [hrly, hfree] at hent
      cases hent
    · exact absurd rfl (hgone (.new (node.mintHandle _ listenerId) _) (if_pos rfl))
  · intro handle limits hunb
    rw [handleRecord_append_begin]
    refine htracked.unborn _ _ fun provider' hbgn => hunb provider' ?_
    exact (began_append_started ..).mpr (.inl hbgn)

theorem entry_handle {handle : RelayReservationHandle} {current : ReservationEntry}
    (hpres : Presentable node history handle)
    (hent : node.entry handle = .ok current) : current.handle = handle := by
  obtain ⟨hinst, hst, hgen⟩ := (node.entry_eq_ok_iff handle current).mp hent
  rcases hpres with hforeign | ⟨provider, hbgn⟩
  · exact absurd hinst hforeign
  · obtain ⟨hcur, -⟩ := htracked.entry_began _ _ hst
    exact (htracked.began_unique _ _ _ _ hcur hbgn hgen).1

/-- An accepted observation of `handle` that changes one entry keeps the invariant. -/
theorem observed (updated : Option ReservationEntry) {handle : RelayReservationHandle}
    {current : ReservationEntry} {observation : Observation}
    {event : RelayReservationEvent}
    (hst : node.reservations[handle.relayPeerId]? = some current)
    (hhdl : current.handle = handle)
    (hnode : next.reservations = match updated with
      | some entry => node.reservations.insert handle.relayPeerId entry
      | none => node.reservations.erase handle.relayPeerId)
    (hinst : next.nodeInstanceId = node.nodeInstanceId)
    (hloc : next.localPeerId = node.localPeerId)
    (hn : next.nextGeneration = node.nextGeneration)
    (ho : ∀ other limits, other ≠ handle → handleRecord other limits
          (history ++ [RelayLabel.observed handle observation event]) =
        handleRecord other limits history)
    (hkept : ∀ entry, updated = some entry →
      entry.handle = handle ∧ entry.provider = current.provider ∧
        EntryEvidence (handleRecord handle current.provider.expectedLimits
          (history ++ [RelayLabel.observed handle observation event])) entry)
    (hrmv : updated = none → (handleRecord handle current.provider.expectedLimits
        (history ++ [RelayLabel.observed handle observation event])).Retired) :
    Tracked nodeInstanceId localPeerId
      (history ++ [RelayLabel.observed handle observation event]) next := by
  subst hhdl
  obtain ⟨hbeg, -⟩ := htracked.entry_began _ _ hst
  have hlook : ∀ relay : PeerId, next.reservations[relay]? =
      if relay = current.handle.relayPeerId then updated else node.reservations[relay]? := by
    intro relay
    rw [hnode]
    cases updated with
    | none => exact FiniteMap.getElem?_erase _ _ _
    | some entry => exact FiniteMap.getElem?_insert _ _ _ _
  -- An entry of the next node is the observed one or one of another handle.
  have hens : ∀ (relay : PeerId) (entry : ReservationEntry),
      next.reservations[relay]? = some entry →
      (relay = current.handle.relayPeerId ∧ updated = some entry) ∨
        (relay ≠ current.handle.relayPeerId ∧ node.reservations[relay]? = some entry ∧
          entry.handle ≠ current.handle) := by
    intro relay entry hent
    rw [hlook] at hent
    split at hent
    · rename_i hrly
      exact .inl ⟨hrly, hent⟩
    · rename_i hrly
      refine .inr ⟨hrly, hent, fun hsm => hrly ?_⟩
      rw [← (htracked.entry_began _ _ hent).2, hsm]
  refine ⟨?_, ?_, ?_, ?_, ?_, ?_, ?_, ?_, ?_⟩
  · rw [hinst, htracked.instance_eq]
  · rw [hloc, htracked.local_eq]
  · simpa only [began_append_event, hn] using htracked.began_own
  · simpa only [began_append_event] using htracked.began_unique
  · intro relay entry hent
    rw [began_append_event]
    rcases hens _ _ hent with ⟨rfl, hupd⟩ | ⟨-, hent, -⟩
    · obtain ⟨hhdl, hprov, -⟩ := hkept _ hupd
      rw [hhdl, hprov]
      exact ⟨hbeg, rfl⟩
    · exact htracked.entry_began _ _ hent
  · intro relay entry hent
    rcases hens _ _ hent with ⟨rfl, hupd⟩ | ⟨-, hent, hne⟩
    · obtain ⟨hhdl, hprov, hevid⟩ := hkept _ hupd
      rw [hhdl, hprov]
      exact hevid
    · rw [ho _ _ hne]
      exact htracked.entry_evidence _ _ hent
  · intro relay relay' entry entry' hent hentry' heq
    have hold : ∀ (relay : PeerId) (entry : ReservationEntry),
        next.reservations[relay]? = some entry → ∃ old, node.reservations[relay]? = some old ∧
          old.handle = entry.handle := by
      intro relay entry hent
      rcases hens _ _ hent with ⟨rfl, hupd⟩ | ⟨-, hent, -⟩
      · exact ⟨current, hst, (hkept _ hupd).1.symm⟩
      · exact ⟨entry, hent, rfl⟩
    obtain ⟨old, hold₁, heq₁⟩ := hold _ _ hent
    obtain ⟨old', hold₂, heq₂⟩ := hold _ _ hentry'
    exact htracked.listener_unique _ _ _ _ hold₁ hold₂ (by rw [heq₁, heq₂, heq])
  · intro handle provider hbgn hgone
    rw [began_append_event] at hbgn
    simp only [hlook] at hgone
    by_cases hsm : handle = current.handle
    · subst hsm
      have hprov := (htracked.began_unique _ _ _ _ hbgn hbeg rfl).2
      rw [hprov]
      apply hrmv
      cases hupd : updated with
      | none => rfl
      | some entry =>
        exact absurd (hkept _ hupd).1 (hgone entry (by rw [if_pos rfl, hupd]))
    · rw [ho _ _ hsm]
      refine htracked.retired _ _ hbgn fun entry hent => ?_
      by_cases hrly : handle.relayPeerId = current.handle.relayPeerId
      · rw [hrly, hst] at hent
        cases hent
        exact Ne.symm hsm
      · exact hgone entry (by rw [if_neg hrly, hent])
  · intro handle limits hunb
    simp only [began_append_event] at hunb
    rw [ho]
    · exact htracked.unborn _ _ hunb
    · rintro rfl
      exact hunb _ hbeg

theorem kept {handle : RelayReservationHandle} {observation : Observation}
    {current updated : ReservationEntry} {event : RelayReservationEvent}
    (hpres : Presentable node history handle)
    (hent : node.entry handle = .ok current)
    (hout : current.observe handle node.localPeerId observation = (.ok event, some updated)) :
    Tracked nodeInstanceId localPeerId
      (history ++ [RelayLabel.observed handle observation event])
      { node with reservations := node.reservations.insert handle.relayPeerId updated } := by
  obtain ⟨-, hst, -⟩ := (node.entry_eq_ok_iff handle current).mp hent
  have hhdl := htracked.entry_handle hpres hent
  have hret := current.returns_observe handle node.localPeerId observation
  rw [hout] at hret
  obtain _ | ⟨_, _, hupd, hprov, hcanc, hpubl⟩ | _ := hret
  refine htracked.observed (some updated) hst hhdl rfl rfl rfl rfl ?_ ?_
    (by simp)
  · intro other limits hne
    refine handleRecord_append_other hne.symm limits history observation event ?_ ?_
    · intro emitted route published heq
      rw [(hpubl _ _ _ heq).1, hhdl]
      exact hne.symm
    · exact fun emitted heq => absurd heq (hcanc emitted)
  · intro entry heq
    cases heq
    refine ⟨by rw [hupd, hhdl], hprov, ?_⟩
    have hevid := htracked.entry_evidence _ _ hst
    subst hhdl
    have hobs := hevid.observe node.localPeerId observation (by rw [hout])
    rw [hout] at hobs
    rw [handleRecord_append]
    exact hobs

theorem removed {handle : RelayReservationHandle} {observation : Observation}
    {current : ReservationEntry} (hpres : Presentable node history handle)
    (hent : node.entry handle = .ok current)
    (hout : current.observe handle node.localPeerId observation = (.ok (.canceled handle), none)) :
    Tracked nodeInstanceId localPeerId
      (history ++ [RelayLabel.observed handle observation (.canceled handle)])
      { node with reservations := node.reservations.erase handle.relayPeerId } := by
  obtain ⟨-, hst, -⟩ := (node.entry_eq_ok_iff handle current).mp hent
  have hhdl := htracked.entry_handle hpres hent
  have hret := current.returns_observe handle node.localPeerId observation
  rw [hout] at hret
  obtain _ | _ | ⟨hterminalReport, hlis, hterm⟩ := hret
  refine htracked.observed none hst hhdl rfl rfl rfl rfl ?_ (by simp) ?_
  · intro other limits hne
    refine handleRecord_append_other hne.symm limits history observation _ (by simp) ?_
    rintro emitted heq
    cases heq
    exact hne.symm
  · intro _
    have hevid := htracked.entry_evidence _ _ hst
    rw [hhdl] at hevid
    rw [handleRecord_append]
    have hlat := handleRecord_observation_ok handle current.provider.expectedLimits
      observation (.canceled handle) none
    rw [show handleRecord handle current.provider.expectedLimits
      [RelayLabel.observed handle observation (.canceled handle)] = _ from hlat]
    constructor
    · simp [HandleRecord.append, observationRecord, hterminalReport]
    · simpa [HandleRecord.append, observationRecord] using hevid.published_le
    · simp [HandleRecord.append, observationRecord, hevid.uncanceled]
    · rcases hlis with hcl | ⟨listenerId, rfl⟩
      · simp [HandleRecord.append, hevid.listenerClosed_reported hcl]
      · simp [HandleRecord.append, observationRecord]
    · rcases hterm with hcl | ⟨connectionId, rfl⟩ | rfl
      · simp [HandleRecord.append, hevid.connectionTerminal_reported hcl]
      · simp [HandleRecord.append, observationRecord]
      · simp [HandleRecord.append, observationRecord]

theorem step {label : RelayLabel} (hs : RelayStep history node label next) :
    Tracked nodeInstanceId localPeerId (history ++ [label]) next := by
  obtain ⟨call, result⟩ := label
  obtain ⟨hpres, hper⟩ := hs
  have hpfs := node.performs call
  rw [← hper] at hpfs
  cases hpfs with
  | refused _ error => exact htracked.refused call error
  | began provider listenerId hfree hlis =>
    exact htracked.began provider listenerId hfree hlis
  | kept handle observation current updated event hent hout =>
    exact htracked.kept (hpres _ _ rfl) hent hout
  | removed handle observation current hent hout =>
    exact htracked.removed (hpres _ _ rfl) hent hout

end Tracked

theorem tracked_of_run (hrun : RelayRun nodeInstanceId localPeerId history node) :
    Tracked nodeInstanceId localPeerId history node :=
  hrun.invariant (Tracked nodeInstanceId localPeerId) (tracked_new nodeInstanceId localPeerId)
    fun _ _ _ _ htracked hs => htracked.step hs

end AukiSdk.Relay
