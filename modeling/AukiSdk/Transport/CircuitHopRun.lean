import AukiSdk.Transport.CircuitHopInvariant

/-!
# Circuit hops along every run

The swarm loop keeps one pending dial for each pending key.
-/

namespace AukiSdk.Transport

open AukiSdk.Foundation List
open AukiSdk.Net
open AukiSdk.Relay
open Std (ExtTreeMap)

namespace CircuitSwarm

/-- `CircuitSwarm` at the start of `run_swarm`. -/
def initial : CircuitSwarm := ⟨∅, CircuitHopTable.empty⟩

/-- Each pending key has exactly one pending dial, and no dial is a live hop. -/
structure DialsMatch (swarm : CircuitSwarm) : Prop where
  pending_iff : ∀ key, key ∈ swarm.hops.pending ↔
    ∃ (connectionId : ConnectionId) (pending : PendingDial),
      swarm.pendingDials[connectionId]? = some pending ∧ pending.circuitKey = some key
  unique : ∀ (key : CircuitHopKey) (first second : ConnectionId)
      (pending pending' : PendingDial),
    swarm.pendingDials[first]? = some pending → pending.circuitKey = some key →
    swarm.pendingDials[second]? = some pending' → pending'.circuitKey = some key →
    first = second
  disjoint : ∀ (connectionId : ConnectionId) (pending : PendingDial),
    swarm.pendingDials[connectionId]? = some pending →
    swarm.hops.byConnection[connectionId]? = none

/-- The ids of dials and hops were dialed before. -/
def Known (history : List CircuitLabel) (swarm : CircuitSwarm) : Prop :=
  ∀ connectionId : ConnectionId,
    (∀ label ∈ history, label.dialed ≠ some connectionId) →
    swarm.pendingDials[connectionId]? = none ∧ swarm.hops.byConnection[connectionId]? = none

/-- The invariant of the swarm loop. -/
structure Tracks (history : List CircuitLabel) (swarm : CircuitSwarm) : Prop where
  sound : swarm.hops.Sound
  dials : swarm.DialsMatch
  known : Known history swarm

variable {swarm : CircuitSwarm} {hops : CircuitHopTable}

theorem DialsMatch.shrink (hdls : swarm.DialsMatch) (hshr : swarm.hops.Shrinks hops) :
    DialsMatch { swarm with hops } := by
  constructor
  · rw [hshr.pending_eq]
    exact hdls.pending_iff
  · exact hdls.unique
  · intro connectionId pending hpend
    exact hshr.missing connectionId (hdls.disjoint connectionId pending hpend)

variable {connectionId : ConnectionId} {pending : PendingDial}

theorem DialsMatch.addResponse (hdls : swarm.DialsMatch)
    (hpend : swarm.pendingDials[connectionId]? = some pending) (responses : List ReplyId) :
    DialsMatch { swarm with
      pendingDials := swarm.pendingDials.insert connectionId { pending with responses } } := by
  have hlook : ∀ (other : ConnectionId) (found : PendingDial),
      (swarm.pendingDials.insert connectionId { pending with responses })[other]? =
        some found →
      ∃ before, swarm.pendingDials[other]? = some before ∧
        before.circuitKey = found.circuitKey := by
    intro other found hf
    rw [FiniteMap.getElem?_insert] at hf
    by_cases ho : other = connectionId
    · rw [if_pos ho] at hf
      cases hf
      exact ⟨pending, ho ▸ hpend, rfl⟩
    · rw [if_neg ho] at hf
      exact ⟨found, hf, rfl⟩
  constructor
  · intro key
    rw [hdls.pending_iff]
    constructor
    · rintro ⟨other, found, hf, hkey⟩
      by_cases ho : other = connectionId
      · subst ho
        cases hpend.symm.trans hf
        exact ⟨other, { pending with responses },
          by rw [FiniteMap.getElem?_insert, if_pos rfl], hkey⟩
      · exact ⟨other, found, by rw [FiniteMap.getElem?_insert, if_neg ho, hf], hkey⟩
    · rintro ⟨other, found, hf, hkey⟩
      obtain ⟨before, hpre, hsm⟩ := hlook other found hf
      exact ⟨other, before, hpre, hsm.trans hkey⟩
  · intro key first second found found' hfst hkey hsnd hkey'
    obtain ⟨before, hpre, hsm⟩ := hlook first found hfst
    obtain ⟨before', hbefore', hsame'⟩ := hlook second found' hsnd
    exact hdls.unique key first second before before' hpre (hsm.trans hkey) hbefore'
      (hsame'.trans hkey')
  · intro other found hf
    obtain ⟨before, hpre, -⟩ := hlook other found hf
    exact hdls.disjoint other before hpre

theorem DialsMatch.addDial (hdls : swarm.DialsMatch) (pending : PendingDial)
    (hkey : ∀ key, pending.circuitKey = some key → key ∉ swarm.hops.pending)
    (hnew : swarm.pendingDials[connectionId]? = none)
    (hfree : swarm.hops.byConnection[connectionId]? = none) :
    DialsMatch
      { pendingDials := swarm.pendingDials.insert connectionId pending
        hops := pending.circuitKey.elim swarm.hops swarm.hops.markPending } := by
  have hpen : ∀ key, key ∈ (pending.circuitKey.elim swarm.hops
      swarm.hops.markPending).pending ↔ pending.circuitKey = some key ∨
        key ∈ swarm.hops.pending := by
    intro key
    cases hcirc : pending.circuitKey with
    | none => simp
    | some circuitKey => simp [CircuitHopTable.markPending, eq_comm]
  have hcon : (pending.circuitKey.elim swarm.hops
      swarm.hops.markPending).byConnection = swarm.hops.byConnection := by
    cases pending.circuitKey <;> rfl
  have hunp : ∀ (key : CircuitHopKey) (other : ConnectionId) (found : PendingDial),
      pending.circuitKey = some key → swarm.pendingDials[other]? = some found →
      found.circuitKey ≠ some key := by
    intro key other found hcirc hf hsm
    exact hkey key hcirc ((hdls.pending_iff key).mpr ⟨other, found, hf, hsm⟩)
  constructor
  · intro key
    rw [hpen, hdls.pending_iff]
    constructor
    · rintro (hcirc | ⟨other, found, hf, hsm⟩)
      · exact ⟨connectionId, pending, by rw [FiniteMap.getElem?_insert, if_pos rfl], hcirc⟩
      · have ho : other ≠ connectionId := by
          rintro rfl
          rw [hnew] at hf
          cases hf
        exact ⟨other, found, by rw [FiniteMap.getElem?_insert, if_neg ho, hf], hsm⟩
    · rintro ⟨other, found, hf, hsm⟩
      rw [FiniteMap.getElem?_insert] at hf
      split at hf
      · cases hf
        exact .inl hsm
      · exact .inr ⟨other, found, hf, hsm⟩
  · intro key first second found found' hfst hsm hsnd hsame'
    rw [FiniteMap.getElem?_insert] at hfst hsnd
    split at hfst
    · cases hfst
      split at hsnd
      · rename_i heq heq'
        exact heq.trans heq'.symm
      · exact absurd hsame' (hunp key second found' hsm hsnd)
    · split at hsnd
      · cases hsnd
        exact absurd hsm (hunp key first found hsame' hfst)
      · exact hdls.unique key first second found found' hfst hsm hsnd hsame'
  · intro other found hf
    rw [hcon]
    rw [FiniteMap.getElem?_insert] at hf
    split at hf
    · rename_i heq
      rw [heq]
      exact hfree
    · exact hdls.disjoint other found hf

theorem DialsMatch.removeDial (hdls : swarm.DialsMatch)
    (hpend : swarm.pendingDials[connectionId]? = some pending)
    (hclr : ∀ key, key ∈ hops.pending ↔ key ∈ swarm.hops.pending ∧ pending.circuitKey ≠ some key)
    (hmiss : ∀ other : ConnectionId, other ≠ connectionId →
      swarm.hops.byConnection[other]? = none → hops.byConnection[other]? = none) :
    DialsMatch { pendingDials := swarm.pendingDials.erase connectionId, hops } := by
  have hlook : ∀ (other : ConnectionId) (found : PendingDial),
      (swarm.pendingDials.erase connectionId)[other]? = some found ↔
        other ≠ connectionId ∧ swarm.pendingDials[other]? = some found := by
    intro other found
    rw [FiniteMap.getElem?_erase]
    by_cases ho : other = connectionId
    · simp [ho]
    · simp [ho]
  constructor
  · intro key
    rw [hclr, hdls.pending_iff]
    simp only [hlook]
    constructor
    · rintro ⟨⟨other, found, hf, hsm⟩, hkey⟩
      refine ⟨other, found, ⟨?_, hf⟩, hsm⟩
      rintro rfl
      cases hpend.symm.trans hf
      exact hkey hsm
    · rintro ⟨other, found, ⟨ho, hf⟩, hsm⟩
      refine ⟨⟨other, found, hf, hsm⟩, fun hkey => ?_⟩
      exact ho (hdls.unique key other connectionId found pending hf hsm hpend hkey)
  · intro key first second found found' hfst hsm hsnd hsame'
    rw [hlook] at hfst hsnd
    exact hdls.unique key first second found found' hfst.2 hsm hsnd.2 hsame'
  · intro other found hf
    rw [hlook] at hf
    exact hmiss other hf.1 (hdls.disjoint other found hf.2)

/-- What one step establishes when its dial, if any, was given the id `dial`. -/
structure Continues (dial : Option ConnectionId) (swarm next : CircuitSwarm) : Prop where
  sound : next.hops.Sound
  dials : next.DialsMatch
  missing : ∀ connectionId : ConnectionId, dial ≠ some connectionId →
    swarm.pendingDials[connectionId]? = none →
    swarm.hops.byConnection[connectionId]? = none →
    next.pendingDials[connectionId]? = none ∧ next.hops.byConnection[connectionId]? = none

variable {dial : Option ConnectionId}

theorem Continues.refl (hs : swarm.hops.Sound) (hdls : swarm.DialsMatch) :
    Continues dial swarm swarm :=
  ⟨hs, hdls, fun _ _ hpend hhop => ⟨hpend, hhop⟩⟩

theorem Continues.shrink (hs : hops.Sound) (hdls : swarm.DialsMatch)
    (hshr : swarm.hops.Shrinks hops) : Continues dial swarm { swarm with hops } :=
  ⟨hs, hdls.shrink hshr, fun connectionId _ hpend hhop => ⟨hpend, hshr.missing connectionId hhop⟩⟩

/-- A dial under a fresh id, of a prepared circuit or a direct route. -/
theorem continues_dial (hdls : swarm.DialsMatch)
    (hfrs : ∀ connectionId, dial = some connectionId → swarm.pendingDials[connectionId]? = none ∧
        swarm.hops.byConnection[connectionId]? = none)
    (circuitKey : Option CircuitHopKey) (hdir : circuitKey = none → swarm.hops.Sound)
    (hcirc : ∀ key, circuitKey = some key → swarm.hops.Prepared key ∧
      key ∉ swarm.hops.pending ∧ swarm.hops.byKey key = none)
    (peerId : PeerId) (response : ReplyId) :
    Continues dial swarm (swarm.dial peerId response circuitKey dial) := by
  cases dial with
  | none =>
    cases circuitKey with
    | none => exact Continues.refl (hdir rfl) hdls
    | some key =>
      obtain ⟨hprep, hidle, -⟩ := hcirc key rfl
      apply Continues.shrink hprep.failPending hdls
      constructor
      · rw [CircuitHopTable.failPending_pending, Finset.erase_eq_of_notMem hidle]
      · rw [CircuitHopTable.failPending_byConnection]
        exact fun _ hmiss => hmiss
  | some connectionId =>
    obtain ⟨hnew, hfree⟩ := hfrs connectionId rfl
    constructor
    · cases circuitKey with
      | none => exact hdir rfl
      | some key =>
        obtain ⟨hprep, -, hvac⟩ := hcirc key rfl
        exact hprep.markPending hvac
    · exact hdls.addDial ⟨peerId, [response], circuitKey⟩
        (fun key hkey => (hcirc key hkey).2.1) hnew hfree
    · intro other ho hpend hhop
      have hne : other ≠ connectionId := fun heq => ho (heq ▸ rfl)
      have hsm : (circuitKey.elim swarm.hops swarm.hops.markPending).byConnection =
          swarm.hops.byConnection := by
        cases circuitKey <;> rfl
      simp only [CircuitSwarm.dial, hsm]
      rw [FiniteMap.getElem?_insert, if_neg hne]
      exact ⟨hpend, hhop⟩

theorem continues_connectCircuit {key : CircuitHopKey} (hprep : swarm.hops.Prepared key)
    (hdls : swarm.DialsMatch) (response : ReplyId) (findings : ConnectFindings)
    (hfrs : ∀ connectionId, findings.dial = some connectionId →
      swarm.pendingDials[connectionId]? = none ∧ swarm.hops.byConnection[connectionId]? = none) :
    Continues findings.dial swarm (swarm.connectCircuit key response findings) := by
  rcases hprep.acquire with ⟨connectionId, owner, next, hacq, hs, hshr⟩ |
    ⟨hacq, hpend⟩ | ⟨hacq, hidle, hvac⟩
  · simp only [connectCircuit, hacq]
    split
    · exact Continues.shrink hs hdls hshr
    · exact Continues.shrink (hs.release connectionId owner) hdls
        (hshr.trans (CircuitHopTable.shrinks_release next connectionId owner))
  · simp only [connectCircuit, hacq]
    obtain ⟨connectionId, pending, hdial, hkey⟩ := (hdls.pending_iff key).mp hpend
    cases hfind : swarm.pendingDials.toList.find? fun stored =>
        stored.2.circuitKey = some key with
    | none =>
      -- A pending key has its dial, so this branch of the source is dead.
      rw [find?_eq_none] at hfind
      exact absurd (hfind (connectionId, pending)
        (ExtTreeMap.mem_toList_iff_getElem?_eq_some.mpr hdial)) (by simpa using hkey)
    | some stored =>
      have hst : swarm.pendingDials[stored.1]? = some stored.2 :=
        ExtTreeMap.mem_toList_iff_getElem?_eq_some.mp (mem_of_find?_eq_some hfind)
      refine ⟨hprep.sound (.inr hpend), hdls.addResponse hst _, ?_⟩
      intro other _ hmiss hhop
      have hne : other ≠ stored.1 := by
        rintro rfl
        rw [hst] at hmiss
        cases hmiss
      dsimp only
      rw [FiniteMap.getElem?_insert, if_neg hne]
      exact ⟨hmiss, hhop⟩
  · simp only [connectCircuit, hacq]
    exact continues_dial hdls hfrs (some key) (by simp)
      (fun other ho => by
        cases ho
        exact ⟨hprep, hidle, hvac⟩) key.targetPeerId response

theorem continues_connect (hs : swarm.hops.Sound) (hdls : swarm.DialsMatch)
    (command : ConnectCommand) (findings : ConnectFindings)
    (hfrs : ∀ connectionId, findings.dial = some connectionId →
      swarm.pendingDials[connectionId]? = none ∧ swarm.hops.byConnection[connectionId]? = none) :
    Continues findings.dial swarm (swarm.connect command findings) := by
  simp only [connect]
  split
  · exact Continues.refl hs hdls
  split
  · exact Continues.refl hs hdls
  split
  · exact Continues.refl hs hdls
  split
  · exact Continues.refl hs hdls
  split
  · exact Continues.refl hs hdls
  split
  · exact continues_dial hdls hfrs none (fun _ => hs) (by simp) command.peerId
      command.response
  · rename_i circuitAddress _
    split
    · exact continues_connectCircuit (hs.prepared _) hdls command.response findings hfrs
    · rename_i old _
      split
      · exact Continues.refl hs hdls
      · rename_i hops hprepare
        obtain ⟨hprep, hpend, hcon⟩ := hs.prepareReplacement hprepare
        have hdials' : DialsMatch { swarm with hops } := by
          apply hdls.shrink
          exact ⟨hpend, fun _ hmiss => hcon ▸ hmiss⟩
        have hcont := continues_connectCircuit hprep hdials' command.response
          findings (fun connectionId hdial => hcon ▸ hfrs connectionId hdial)
        refine ⟨hcont.sound, hcont.dials, ?_⟩
        intro connectionId hdial hmiss hhop
        exact hcont.missing connectionId hdial hmiss (hcon ▸ hhop)

theorem deliverOwners_hops (delivered : ReplyId → Bool) (responses : List ReplyId)
    (hops : CircuitHopTable) :
    ∃ lastOwner, (deliverOwners delivered responses hops).2 = { hops with lastOwner } := by
  induction responses generalizing hops with
  | nil => exact ⟨hops.lastOwner, rfl⟩
  | cons response rest ih =>
    obtain ⟨lastOwner, hlast⟩ := ih { hops with lastOwner := hops.nextOwner }
    exact ⟨lastOwner, hlast⟩

theorem continues_finish (hdls : swarm.DialsMatch)
    (hpend : swarm.pendingDials[connectionId]? = some pending) (hs : hops.Sound)
    (hclr : ∀ key, key ∈ hops.pending ↔ key ∈ swarm.hops.pending ∧ pending.circuitKey ≠ some key)
    (hmiss : ∀ other : ConnectionId, other ≠ connectionId →
      swarm.hops.byConnection[other]? = none → hops.byConnection[other]? = none) :
    Continues dial swarm
      { pendingDials := swarm.pendingDials.erase connectionId, hops } := by
  refine ⟨hs, hdls.removeDial hpend hclr hmiss, ?_⟩
  intro other _ hnone hhop
  have ho : other ≠ connectionId := by
    rintro rfl
    rw [hpend] at hnone
    cases hnone
  dsimp only
  rw [FiniteMap.getElem?_erase, if_neg ho]
  exact ⟨hnone, hmiss other ho hhop⟩

theorem continues_fail (hs : swarm.hops.Sound) (hdls : swarm.DialsMatch)
    (hpend : swarm.pendingDials[connectionId]? = some pending) :
    Continues dial swarm
      { pendingDials := swarm.pendingDials.erase connectionId
        hops := pending.circuitKey.elim swarm.hops swarm.hops.failPending } := by
  cases hcirc : pending.circuitKey with
  | none =>
    apply continues_finish hdls hpend hs
    · simp [hcirc]
    · exact fun _ _ hmiss => hmiss
  | some key =>
    apply continues_finish hdls hpend (hs.prepared key).failPending
    · intro other
      rw [CircuitHopTable.failPending_pending, Finset.mem_erase, hcirc]
      simp [and_comm, eq_comm]
    · intro other _ hmiss
      rw [CircuitHopTable.failPending_byConnection]
      exact hmiss

theorem continues_connectionEstablished (hs : swarm.hops.Sound)
    (hdls : swarm.DialsMatch) (peerId : PeerId) (connectionId : ConnectionId)
    (delivered : ReplyId → Bool) :
    Continues dial swarm (swarm.connectionEstablished peerId connectionId delivered) := by
  simp only [connectionEstablished]
  split
  · exact Continues.refl hs hdls
  · rename_i pending hpend
    have hfail : Continues dial swarm _ := continues_fail hs hdls hpend
    cases hcirc : pending.circuitKey with
    | none =>
      rw [hcirc] at hfail
      exact hfail
    | some key =>
      rw [hcirc] at hfail
      dsimp only
      split
      · obtain ⟨lastOwner, hdel⟩ := deliverOwners_hops delivered pending.responses swarm.hops
        have hkey : key ∈ swarm.hops.pending :=
          (hdls.pending_iff key).mpr ⟨connectionId, pending, hpend, hcirc⟩
        have hfree := hdls.disjoint connectionId pending hpend
        have hsound' : ({ swarm.hops with lastOwner } : CircuitHopTable).Sound :=
          ⟨hs.owned, hs.valid⟩
        rw [hdel]
        apply continues_finish hdls hpend
        · exact hsound'.established hkey hfree _
        · intro other
          rw [CircuitHopTable.established_pending, Finset.mem_erase, hcirc]
          simp [and_comm, eq_comm]
        · intro other ho hmiss
          exact CircuitHopTable.established_missing _ ho hmiss
      · exact hfail

theorem continues_handle (hs : swarm.hops.Sound) (hdls : swarm.DialsMatch)
    (label : CircuitLabel)
    (hfrs : ∀ connectionId, label.dialed = some connectionId →
      swarm.pendingDials[connectionId]? = none ∧ swarm.hops.byConnection[connectionId]? = none) :
    Continues label.dialed swarm (swarm.handle label) := by
  cases label with
  | connect command findings =>
    exact continues_connect hs hdls command findings hfrs
  | selectRelayConnection peerId response connectionId =>
    exact continues_dial hdls hfrs none (fun _ => hs) (by simp) peerId response
  | connectionEstablished peerId connectionId delivered =>
    exact continues_connectionEstablished hs hdls peerId connectionId delivered
  | outgoingConnectionError connectionId =>
    simp only [handle, outgoingConnectionError]
    split
    · exact Continues.refl hs hdls
    · rename_i pending hpend
      exact continues_fail hs hdls hpend
  | connectionClosed connectionId relayed =>
    simp only [handle]
    split
    · exact Continues.shrink (hs.invalidate connectionId) hdls
        (CircuitHopTable.shrinks_invalidate swarm.hops connectionId)
    · exact Continues.refl hs hdls
  | closeConnection connectionId owner =>
    exact Continues.shrink (hs.release connectionId owner) hdls
      (CircuitHopTable.shrinks_release swarm.hops connectionId owner)

end CircuitSwarm

/-- One iteration of the loop; a dial is given an id that no earlier dial had. -/
def CircuitStep (history : List CircuitLabel) (source : CircuitSwarm) (label : CircuitLabel)
    (target : CircuitSwarm) : Prop :=
  (∀ connectionId, label.dialed = some connectionId →
    ∀ earlier ∈ history, earlier.dialed ≠ some connectionId) ∧
  target = source.handle label

/-- Runs of `run_swarm` from its start. -/
abbrev CircuitRun : List CircuitLabel → CircuitSwarm → Prop :=
  Transition.Run CircuitStep CircuitSwarm.initial

namespace CircuitSwarm

theorem tracks_initial : Tracks [] initial := by
  constructor
  · constructor
    · simp [initial, CircuitHopTable.empty]
    · intro key
      have hlive : CircuitHopTable.empty.live key = ∅ := by
        rw [Finset.eq_empty_iff_forall_notMem]
        intro connectionId hm
        obtain ⟨entry, hent, -⟩ := CircuitHopTable.mem_live.mp hm
        simp [CircuitHopTable.empty] at hent
      have hhop : initial.hops.hop key = ⟨none, key ∈ (∅ : Finset CircuitHopKey), ∅⟩ := by
        simp only [initial, CircuitHopTable.hop, hlive]
        rfl
      rw [hhop]
      constructor <;> simp
  · constructor <;> simp [initial, CircuitHopTable.empty]
  · intro connectionId _
    simp [initial, CircuitHopTable.empty]

theorem tracks_of_run {history : List CircuitLabel} {swarm : CircuitSwarm}
    (hrun : CircuitRun history swarm) : Tracks history swarm := by
  apply hrun.invariant Tracks tracks_initial
  rintro history source label target htra ⟨hfrs, rfl⟩
  have hcont := continues_handle htra.sound htra.dials label
    fun connectionId hdia => htra.known connectionId (hfrs connectionId hdia)
  refine ⟨hcont.sound, hcont.dials, ?_⟩
  intro connectionId hund
  simp only [forall_mem_append, forall_mem_singleton] at hund
  have hpre := htra.known connectionId hund.1
  exact hcont.missing connectionId hund.2 hpre.1 hpre.2

end CircuitSwarm

/-- Between commands and events every selected hop is live and owned. -/
theorem circuit_hops_never_orphaned {history : List CircuitLabel} {swarm : CircuitSwarm}
    (hrun : CircuitRun history swarm) :
    (∀ key connectionId, swarm.hops.byKey key = some connectionId →
      ∃ entry, swarm.hops.byConnection[connectionId]? = some entry ∧ entry.key = key) ∧
    (∀ (connectionId : ConnectionId) (entry : CircuitHopEntry),
      swarm.hops.byConnection[connectionId]? = some entry → entry.owners.Nonempty) ∧
    (∀ key, FiniteMap.count (fun entry => decide (entry.key = key)) swarm.hops.byConnection ≤ 2) ∧
    (∀ key ∈ swarm.hops.pending, swarm.hops.byKey key = none ∧
      FiniteMap.count (fun entry => decide (entry.key = key))
        swarm.hops.byConnection ≤ 1) ∧
    (∀ (connectionId : ConnectionId) (entry : CircuitHopEntry),
      swarm.hops.byConnection[connectionId]? = some entry →
      entry.key ∉ swarm.hops.pending →
      ∃ selected live, swarm.hops.byKey entry.key = some selected ∧
        swarm.hops.byConnection[selected]? = some live ∧ live.key = entry.key) := by
  have hsound := (CircuitSwarm.tracks_of_run hrun).sound
  have hselected : ∀ key connectionId, swarm.hops.byKey key = some connectionId →
      ∃ entry, swarm.hops.byConnection[connectionId]? = some entry ∧ entry.key = key :=
    fun key connectionId hkey =>
      CircuitHopTable.mem_live.mp ((hsound.valid key).selected_live connectionId hkey)
  have hcount : ∀ key, FiniteMap.count (fun entry => decide (entry.key = key))
      swarm.hops.byConnection = (swarm.hops.live key).card :=
    fun key => FiniteMap.count_eq_card _ _
  refine ⟨hselected, hsound.owned, ?_, ?_, ?_⟩
  · intro key
    rw [hcount]
    exact (hsound.valid key).live_le
  · intro key hpending
    rw [hcount]
    exact ⟨(hsound.valid key).unselected hpending, (hsound.valid key).pending_live_le hpending⟩
  · intro connectionId entry hentry hidle
    have hlive : (swarm.hops.live entry.key).Nonempty :=
      ⟨connectionId, CircuitHopTable.mem_live.mpr ⟨entry, hentry, rfl⟩⟩
    obtain ⟨selected, hsome⟩ :=
      Option.isSome_iff_exists.mp ((hsound.valid entry.key).selected_of_live hidle hlive)
    obtain ⟨live, hfound, hkey⟩ := hselected entry.key selected hsome
    exact ⟨selected, live, hsome, hfound, hkey⟩

def sampleKey : CircuitHopKey := ⟨samplePeer 2, [.p2pCircuit]⟩

/-- A circuit command whose dial is given the id `dial`. -/
def sampleConnect (replacementOf : Option ConnectionId) (dial : ConnectionId) :
    CircuitLabel :=
  .connect ⟨samplePeer 2, [[.p2pCircuit]], some (samplePeer 3), replacementOf, dial⟩
    ⟨false, false, true, false, true, some dial⟩

def sampleHistory : List CircuitLabel :=
  [sampleConnect none 1, .connectionEstablished (samplePeer 2) 1 fun _ => true,
    sampleConnect (some 1) 2, .outgoingConnectionError 2]

theorem CircuitRun.foldl {start : List CircuitLabel} {swarm : CircuitSwarm}
    (hrun : CircuitRun start swarm) (labels : List CircuitLabel)
    (hfrs : ((start ++ labels).filterMap CircuitLabel.dialed).Nodup) :
    CircuitRun (start ++ labels) (labels.foldl CircuitSwarm.handle swarm) := by
  induction labels generalizing start swarm with
  | nil => simpa using hrun
  | cons label labels ih =>
    have hnd : ((start ++ [label] ++ labels).filterMap CircuitLabel.dialed).Nodup := by
      simpa using hfrs
    have hs : CircuitRun (start ++ [label]) (swarm.handle label) := by
      apply hrun.extend
      refine ⟨?_, rfl⟩
      intro connectionId hdia earlier hpri hsm
      rw [filterMap_append, filterMap_append, append_assoc] at hnd
      have hdis := (nodup_append'.mp hnd).2.2
      apply hdis (mem_filterMap.mpr ⟨earlier, hpri, hsm⟩)
      simp [hdia]
    simpa using ih hs hnd

/-- The circuit that was to be replaced is selected again. -/
theorem circuit_hops_never_orphaned_sample :
    ∃ swarm, CircuitRun sampleHistory swarm ∧ swarm.hops.byKey sampleKey = some 1 ∧
      ∃ entry, swarm.hops.byConnection[(1 : ConnectionId)]? = some entry ∧
        entry.key = sampleKey := by
  have hrun : CircuitRun ([] ++ sampleHistory)
      (sampleHistory.foldl CircuitSwarm.handle CircuitSwarm.initial) :=
    CircuitRun.foldl .start sampleHistory (by decide)
  have hselected : (sampleHistory.foldl CircuitSwarm.handle
      CircuitSwarm.initial).hops.byKey sampleKey = some 1 := by
    decide +kernel
  exact ⟨_, hrun, hselected, (circuit_hops_never_orphaned hrun).1 sampleKey 1 hselected⟩

end AukiSdk.Transport
