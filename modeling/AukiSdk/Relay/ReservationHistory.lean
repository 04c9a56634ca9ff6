import AukiSdk.Foundation.FiniteMap
import AukiSdk.Foundation.Transition
import AukiSdk.Relay.Reservation

/-!
# Histories of a reservation node

A run of a node is a finite sequence of calls with their results.
-/

namespace AukiSdk.Relay

open AukiSdk.Foundation List
open AukiSdk.Net

/-- A call with its result. -/
abbrev RelayLabel := RelayCall × Except RelayReservationError RelayReply

namespace RelayLabel

abbrev refused (call : RelayCall) (error : RelayReservationError) : RelayLabel :=
  (call, .error error)

abbrev started (provider : RelayProvider) (listenerId : ListenerId)
    (handle : RelayReservationHandle) : RelayLabel :=
  (.begin provider listenerId, .ok (.started handle))

abbrev observed (handle : RelayReservationHandle) (observation : Observation)
    (event : RelayReservationEvent) : RelayLabel :=
  (.observe handle observation, .ok (.event event))

end RelayLabel

/-- `begin` returned `handle` for `provider`. -/
def Began (history : List RelayLabel) (handle : RelayReservationHandle)
    (provider : RelayProvider) : Prop :=
  ∃ listenerId, RelayLabel.started provider listenerId handle ∈ history

/-- The handles a caller of this node can hold. -/
def Presentable (node : RelayReservationNode) (history : List RelayLabel)
    (handle : RelayReservationHandle) : Prop :=
  handle.nodeInstanceId ≠ node.nodeInstanceId ∨ ∃ provider, Began history handle provider

/-- One call, with a handle the caller can hold. -/
def RelayStep (history : List RelayLabel) (node : RelayReservationNode)
    (label : RelayLabel) (next : RelayReservationNode) : Prop :=
  (∀ handle observation, label.1 = .observe handle observation →
      Presentable node history handle) ∧
    (label.2, next) = node.perform label.1

/-- Runs of a fresh node. -/
abbrev RelayRun (nodeInstanceId : Uuid) (localPeerId : PeerId) :
    List RelayLabel → RelayReservationNode → Prop :=
  Transition.Run RelayStep (RelayReservationNode.new nodeInstanceId localPeerId)

def RelayReservationEvent.isRejection : RelayReservationEvent → Bool
  | .confirmationRejected _ _ _ => true
  | _ => false

/-- Cancellation, closure and no-connection reports. -/
def Observation.isTerminal : Observation → Bool
  | .cancel | .listenerClosed _ | .directConnectionClosed _ | .noDirectConnection => true
  | _ => false

def emitsPublishable (handle : RelayReservationHandle) (label : RelayLabel) : Bool :=
  match label.2 with
  | .ok (.event (.publishable emitted _ _)) => emitted = handle
  | _ => false

def emitsCanceled (handle : RelayReservationHandle) (label : RelayLabel) : Bool :=
  match label.2 with
  | .ok (.event (.canceled emitted)) => emitted = handle
  | _ => false

/-- An accepted listener address under the handle's own listener. -/
def acceptsListener (handle : RelayReservationHandle) (label : RelayLabel) : Bool :=
  match label with
  | (.observe reported (.listenerAddress listenerId _), .ok (.event _)) =>
    reported = handle && listenerId = handle.listenerId
  | _ => false

/-- An accepted initial acceptance that observed exactly `limits`. -/
def acceptsInitial (handle : RelayReservationHandle) (limits : ExpectedRelayLimits)
    (label : RelayLabel) : Bool :=
  match label with
  | (.observe reported (.acceptance false observed), .ok (.event event)) =>
    reported = handle && observed = some limits.observed && !event.isRejection
  | _ => false

/-- An accepted cancel, closure or no-connection report, or a rejected
acceptance. -/
def endsReservation (handle : RelayReservationHandle) (label : RelayLabel) : Bool :=
  match label with
  | (.observe reported observation, .ok (.event event)) =>
    reported = handle && (observation.isTerminal || event.isRejection)
  | _ => false

def reportsListenerClosed (handle : RelayReservationHandle) (label : RelayLabel) : Bool :=
  match label with
  | (.observe reported (.listenerClosed _), .ok (.event _)) => reported = handle
  | _ => false

def reportsConnectionTerminal (handle : RelayReservationHandle) (label : RelayLabel) :
    Bool :=
  match label with
  | (.observe reported (.directConnectionClosed _), .ok (.event _)) => reported = handle
  | (.observe reported .noDirectConnection, .ok (.event _)) => reported = handle
  | _ => false

/-- What a history records for one handle. -/
structure HandleRecord where
  listenerAccepted : Bool
  initialAccepted : Bool
  ended : Bool
  listenerClosed : Bool
  connectionTerminal : Bool
  published : ℕ
  canceled : ℕ

def HandleRecord.append (earlier later : HandleRecord) : HandleRecord where
  listenerAccepted := earlier.listenerAccepted || later.listenerAccepted
  initialAccepted := earlier.initialAccepted || later.initialAccepted
  ended := earlier.ended || later.ended
  listenerClosed := earlier.listenerClosed || later.listenerClosed
  connectionTerminal := earlier.connectionTerminal || later.connectionTerminal
  published := earlier.published + later.published
  canceled := earlier.canceled + later.canceled

def handleRecord (handle : RelayReservationHandle) (limits : ExpectedRelayLimits)
    (history : List RelayLabel) : HandleRecord where
  listenerAccepted := history.any (acceptsListener handle)
  initialAccepted := history.any (acceptsInitial handle limits)
  ended := history.any (endsReservation handle)
  listenerClosed := history.any (reportsListenerClosed handle)
  connectionTerminal := history.any (reportsConnectionTerminal handle)
  published := history.countP (emitsPublishable handle)
  canceled := history.countP (emitsCanceled handle)

theorem handleRecord_append (handle : RelayReservationHandle)
    (limits : ExpectedRelayLimits) (earlier later : List RelayLabel) :
    handleRecord handle limits (earlier ++ later) =
      (handleRecord handle limits earlier).append (handleRecord handle limits later) := by
  simp only [handleRecord, HandleRecord.append, any_append, countP_append]

/-- Flags and lifecycle agree with the history of the handle. -/
structure EntryEvidence (record : HandleRecord) (entry : ReservationEntry) : Prop where
  canceling_iff : entry.state = .canceling ↔ record.ended = true
  listener_eq : entry.state ≠ .canceling →
    entry.listenerObserved = record.listenerAccepted
  initial_eq : entry.state ≠ .canceling →
    entry.initialAcceptanceObserved = record.initialAccepted
  publishable_iff : entry.state ≠ .canceling →
    (entry.state = .publishable ↔
      entry.listenerObserved = true ∧ entry.initialAcceptanceObserved = true)
  unpublished : entry.state = .awaitingConfirmation → record.published = 0
  published_le : record.published ≤ 1
  listenerClosed_reported : entry.listenerClosed = true → record.listenerClosed = true
  connectionTerminal_reported :
    entry.connectionTerminal = true → record.connectionTerminal = true
  uncanceled : record.canceled = 0

/-- The label of an observation on an entry. -/
def observationLabel (handle : RelayReservationHandle) (observation : Observation)
    (outcome : ReservationEntry.Outcome) : RelayLabel :=
  (.observe handle observation, outcome.1.map .event)

/-- Record of one accepted observation. -/
def observationRecord (handle : RelayReservationHandle) (limits : ExpectedRelayLimits)
    (observation : Observation) (event : RelayReservationEvent) : HandleRecord where
  listenerAccepted := match observation with
    | .listenerAddress listenerId _ => listenerId = handle.listenerId
    | _ => false
  initialAccepted := match observation with
    | .acceptance false observed => observed = some limits.observed && !event.isRejection
    | _ => false
  ended := observation.isTerminal || event.isRejection
  listenerClosed := match observation with
    | .listenerClosed _ => true
    | _ => false
  connectionTerminal := match observation with
    | .directConnectionClosed _ | .noDirectConnection => true
    | _ => false
  published := match event with
    | .publishable emitted _ _ => if emitted = handle then 1 else 0
    | _ => 0
  canceled := match event with
    | .canceled emitted => if emitted = handle then 1 else 0
    | _ => 0

theorem handleRecord_observation_ok (handle : RelayReservationHandle)
    (limits : ExpectedRelayLimits) (observation : Observation)
    (event : RelayReservationEvent) (next : Option ReservationEntry) :
    handleRecord handle limits [observationLabel handle observation (.ok event, next)] =
      observationRecord handle limits observation event := by
  have hlbl : observationLabel handle observation (.ok event, next) =
      (.observe handle observation, .ok (.event event)) := rfl
  rw [hlbl]
  simp only [handleRecord, observationRecord, any_cons, any_nil, Bool.or_false,
    countP_singleton, HandleRecord.mk.injEq]
  refine ⟨?_, ?_, ?_, ?_, ?_, ?_, ?_⟩
  · cases observation <;> simp [acceptsListener]
  · cases observation with
    | acceptance renewal observed => cases renewal <;> simp [acceptsInitial]
    | _ => simp [acceptsInitial]
  · simp [endsReservation]
  · cases observation <;> simp [reportsListenerClosed]
  · cases observation <;> simp [reportsConnectionTerminal]
  · cases event <;> simp [emitsPublishable]
  · cases event <;> simp [emitsCanceled]

theorem handleRecord_append_error (handle : RelayReservationHandle)
    (limits : ExpectedRelayLimits) (history : List RelayLabel) (call : RelayCall)
    (error : RelayReservationError) :
    handleRecord handle limits (history ++ [RelayLabel.refused call error]) =
      handleRecord handle limits history := by
  simp only [handleRecord, any_append, countP_append, any_cons, any_nil,
    countP_singleton, acceptsListener, acceptsInitial, endsReservation,
    reportsListenerClosed, reportsConnectionTerminal, emitsPublishable, emitsCanceled]
  simp

theorem handleRecord_append_other {handle other : RelayReservationHandle}
    (ho : other ≠ handle) (limits : ExpectedRelayLimits) (history : List RelayLabel)
    (observation : Observation) (event : RelayReservationEvent)
    (hpubl : ∀ emitted route published,
      event = .publishable emitted route published → emitted ≠ handle)
    (hcanc : ∀ emitted, event = .canceled emitted → emitted ≠ handle) :
    handleRecord handle limits
        (history ++ [RelayLabel.observed other observation event]) =
      handleRecord handle limits history := by
  simp only [handleRecord, any_append, countP_append, any_cons, any_nil,
    countP_singleton, Bool.or_false, HandleRecord.mk.injEq]
  refine ⟨?_, ?_, ?_, ?_, ?_, ?_, ?_⟩
  · cases observation <;> simp [acceptsListener, ho]
  · cases observation with
    | acceptance renewal observed => cases renewal <;> simp [acceptsInitial, ho]
    | _ => simp [acceptsInitial]
  · simp [endsReservation, ho]
  · cases observation <;> simp [reportsListenerClosed, ho]
  · cases observation <;> simp [reportsConnectionTerminal, ho]
  · cases event <;> simp_all [emitsPublishable]
  · cases event <;> simp_all [emitsCanceled]

/-- `begin` records nothing for any handle. -/
theorem handleRecord_append_begin (handle : RelayReservationHandle)
    (limits : ExpectedRelayLimits) (history : List RelayLabel) (provider : RelayProvider)
    (listenerId : ListenerId) (started : RelayReservationHandle) :
    handleRecord handle limits
        (history ++ [RelayLabel.started provider listenerId started]) =
      handleRecord handle limits history := by
  simp only [handleRecord, any_append, countP_append, any_cons, any_nil,
    countP_singleton, acceptsListener, acceptsInitial, endsReservation,
    reportsListenerClosed, reportsConnectionTerminal, emitsPublishable, emitsCanceled]
  simp

namespace EntryEvidence

variable {record later : HandleRecord} {entry next : ReservationEntry}

/-- Evidence of an entry that is canceling after the operation. -/
theorem of_canceling (hevid : EntryEvidence record entry)
    (hsta : next.state = .canceling) (hend : record.ended || later.ended)
    (hpub : later.published = 0) (hcanc : later.canceled = 0)
    (hlis : next.listenerClosed = true → entry.listenerClosed = true ∨ later.listenerClosed = true)
    (hterm : next.connectionTerminal = true →
      entry.connectionTerminal = true ∨ later.connectionTerminal = true) :
    EntryEvidence (record.append later) next where
  canceling_iff := by simpa [HandleRecord.append, hsta] using hend
  listener_eq hlive := absurd hsta hlive
  initial_eq hlive := absurd hsta hlive
  publishable_iff hlive := absurd hsta hlive
  unpublished hawa := by simp [hsta] at hawa
  published_le := by simpa [HandleRecord.append, hpub] using hevid.published_le
  listenerClosed_reported hcl := by
    have := hevid.listenerClosed_reported
    rcases hlis hcl with h | h <;> simp_all [HandleRecord.append]
  connectionTerminal_reported hcl := by
    have := hevid.connectionTerminal_reported
    rcases hterm hcl with h | h <;> simp_all [HandleRecord.append]
  uncanceled := by simpa [HandleRecord.append, hcanc] using hevid.uncanceled

theorem of_live (hevid : EntryEvidence record entry)
    (hsta : next.state = entry.state)
    (hlst : next.listenerObserved = entry.listenerObserved)
    (hinit : next.initialAcceptanceObserved = entry.initialAcceptanceObserved)
    (hlis : next.listenerClosed = entry.listenerClosed)
    (hterm : next.connectionTerminal = entry.connectionTerminal)
    (hlat : later = ⟨false, false, false, false, false, 0, 0⟩) :
    EntryEvidence (record.append later) next := by
  subst hlat
  simp only [HandleRecord.append, Bool.or_false, Nat.add_zero]
  constructor
  · rw [hsta]; exact hevid.canceling_iff
  · rw [hsta, hlst]; exact hevid.listener_eq
  · rw [hsta, hinit]; exact hevid.initial_eq
  · rw [hsta, hlst, hinit]; exact hevid.publishable_iff
  · rw [hsta]; exact hevid.unpublished
  · exact hevid.published_le
  · rw [hlis]; exact hevid.listenerClosed_reported
  · rw [hterm]; exact hevid.connectionTerminal_reported
  · exact hevid.uncanceled

/-- Evidence after one more confirmation and `maybe_publish`. -/
theorem of_maybePublish (hevid : EntryEvidence record entry)
    (updated : ReservationEntry) (localPeerId : PeerId) (hlive : entry.state ≠ .canceling)
    (hsta : updated.state = entry.state)
    (hlst : entry.listenerObserved = true → updated.listenerObserved = true)
    (hini : entry.initialAcceptanceObserved = true → updated.initialAcceptanceObserved = true)
    (hlid : updated.listenerObserved = (record.append later).listenerAccepted)
    (hinit : updated.initialAcceptanceObserved = (record.append later).initialAccepted)
    (hlis : updated.listenerClosed = entry.listenerClosed)
    (hterm : updated.connectionTerminal = entry.connectionTerminal)
    (hend : later.ended = false) (hcanc : later.canceled = 0)
    (hpub : later.published =
      if (updated.maybePublish localPeerId).2.state = entry.state then 0 else 1) :
    EntryEvidence (record.append later) (updated.maybePublish localPeerId).2 := by
  have hnot : record.ended = false := by
    simpa using (not_congr hevid.canceling_iff).mp hlive
  have hcl := hevid.listenerClosed_reported
  have hconn := hevid.connectionTerminal_reported
  have hunc := hevid.uncanceled
  have hle := hevid.published_le
  have hpubl := hevid.publishable_iff hlive
  have hunp := hevid.unpublished
  unfold ReservationEntry.maybePublish at hpub ⊢
  split at hpub
  · rename_i hrdy
    obtain ⟨hready₁, hready₂, hawa⟩ := hrdy
    rw [hsta] at hawa
    rw [if_neg (by simp [hawa])] at hpub
    rw [if_pos ⟨hready₁, hready₂, hsta.trans hawa⟩]
    constructor <;> simp_all [HandleRecord.append]
  · rename_i hrdy
    rw [if_neg hrdy]
    rw [hsta] at hrdy
    constructor
    · simp [HandleRecord.append, hsta, hlive, hnot, hend]
    · intro _; exact hlid
    · intro _; exact hinit
    · intro _
      cases hcase : entry.state with
      | awaitingConfirmation =>
        simp only [hsta, hcase, reduceCtorEq, false_iff]
        intro hboth
        exact hrdy ⟨hboth.2, hboth.1, hcase⟩
      | publishable =>
        obtain ⟨h₁, h₂⟩ := hpubl.mp hcase
        simp [hsta, hcase, hlst h₁, hini h₂]
      | canceling => exact absurd hcase hlive
    · intro hawa
      simpa [HandleRecord.append, hpub] using hunp (hsta ▸ hawa)
    · simpa [HandleRecord.append, hpub] using hle
    · intro h
      simp [HandleRecord.append, hcl (hlis ▸ h)]
    · intro h
      simp [HandleRecord.append, hconn (hterm ▸ h)]
    · simpa [HandleRecord.append, hcanc] using hunc

variable (updated : ReservationEntry)

/-- `maybe_publish` emits a publication exactly when it leaves the awaiting
state. -/
theorem published_maybePublish (localPeerId : PeerId) (limits : ExpectedRelayLimits)
    (observation : Observation) :
    (observationRecord updated.handle limits observation
        (updated.maybePublish localPeerId).1).published =
      if (updated.maybePublish localPeerId).2.state = updated.state then 0 else 1 := by
  unfold ReservationEntry.maybePublish
  split
  · rename_i hrdy
    simp [observationRecord, hrdy.2.2]
  · simp [observationRecord]

theorem canceled_maybePublish (localPeerId : PeerId) (limits : ExpectedRelayLimits)
    (observation : Observation) :
    (observationRecord updated.handle limits observation
        (updated.maybePublish localPeerId).1).canceled = 0 := by
  unfold ReservationEntry.maybePublish
  split <;> simp [observationRecord]

theorem isRejection_maybePublish (localPeerId : PeerId) :
    (updated.maybePublish localPeerId).1.isRejection = false := by
  unfold ReservationEntry.maybePublish
  split <;> rfl

/-- The record after one more observation of this entry's handle. -/
def recordAfter (record : HandleRecord) (entry : ReservationEntry)
    (observation : Observation) (outcome : ReservationEntry.Outcome) : HandleRecord :=
  record.append (handleRecord entry.handle entry.provider.expectedLimits
    [observationLabel entry.handle observation outcome])

theorem observeDirectConnection (hevid : EntryEvidence record entry)
    (connectionId : ConnectionId)
    (hn : (entry.observeDirectConnection entry.handle connectionId).2 = some next) :
    EntryEvidence (recordAfter record entry (.directConnection connectionId)
      (entry.observeDirectConnection entry.handle connectionId)) next := by
  unfold recordAfter
  unfold ReservationEntry.observeDirectConnection at hn ⊢
  split at hn
  · rename_i hcanc
    cases hn
    rw [if_pos hcanc, handleRecord_observation_ok]
    have hend := hevid.canceling_iff.mp hcanc
    apply hevid.of_canceling
    · split <;> exact hcanc
    · simp [hend]
    · rfl
    · rfl
    · split <;> simp_all
    · split <;> simp_all
  · rename_i hlive
    rw [if_neg hlive]
    split at hn
    · cases hn
      rw [handleRecord_observation_ok]
      exact hevid.of_live rfl rfl rfl rfl rfl rfl
    · split at hn
      · rename_i heq
        cases hn
        simp only [heq, if_true, handleRecord_observation_ok]
        exact hevid.of_live rfl rfl rfl rfl rfl rfl
      · rename_i hne
        cases hn
        simp only [if_neg hne]
        exact hevid.of_live rfl rfl rfl rfl rfl rfl

theorem observeListenerAddress (hevid : EntryEvidence record entry)
    (localPeerId : PeerId) (listenerId : ListenerId) (responseAddress : Multiaddr)
    (hn : (entry.observeListenerAddress entry.handle localPeerId listenerId
      responseAddress).2 = some next) :
    EntryEvidence (recordAfter record entry (.listenerAddress listenerId responseAddress)
      (entry.observeListenerAddress entry.handle localPeerId listenerId responseAddress)) next := by
  unfold recordAfter
  unfold ReservationEntry.observeListenerAddress ReservationEntry.ensureListener at hn ⊢
  by_cases hlis : entry.handle.listenerId ≠ listenerId
  · simp only [if_pos hlis] at hn ⊢
    cases hn
    exact hevid.of_live rfl rfl rfl rfl rfl rfl
  · simp only [if_neg hlis] at hn ⊢
    rw [not_not] at hlis
    split at hn
    · rename_i hcanc
      cases hn
      rw [if_pos hcanc, handleRecord_observation_ok]
      have hend := hevid.canceling_iff.mp hcanc
      exact hevid.of_canceling hcanc (by simp [hend]) rfl rfl Or.inl Or.inl
    · rename_i hlive
      cases hn
      rw [if_neg hlive, handleRecord_observation_ok]
      apply hevid.of_maybePublish { entry with listenerObserved := true }
        localPeerId hlive rfl
      · simp
      · exact id
      · simp [HandleRecord.append, observationRecord, hlis]
      · simp [HandleRecord.append, observationRecord, hevid.initial_eq hlive]
      · rfl
      · rfl
      · simp [observationRecord, Observation.isTerminal, isRejection_maybePublish]
      · exact canceled_maybePublish { entry with listenerObserved := true } _ _ _
      · exact published_maybePublish { entry with listenerObserved := true } _ _ _

theorem observeAcceptance (hevid : EntryEvidence record entry)
    (localPeerId : PeerId) (renewal : Bool) (observed : Option ObservedRelayLimits)
    (hn : (entry.observeAcceptance entry.handle localPeerId renewal observed).2 = some next) :
    EntryEvidence (recordAfter record entry (.acceptance renewal observed)
      (entry.observeAcceptance entry.handle localPeerId renewal observed)) next := by
  unfold recordAfter
  unfold ReservationEntry.observeAcceptance at hn ⊢
  split at hn
  · rename_i hcanc
    cases hn
    rw [if_pos hcanc, handleRecord_observation_ok]
    have hend := hevid.canceling_iff.mp hcanc
    exact hevid.of_canceling hcanc (by simp [hend]) rfl rfl Or.inl Or.inl
  · rename_i hlive
    rw [if_neg hlive]
    -- A rejection by the limits or by the order of acceptances.
    have hrej : ∀ reason cancellation, EntryEvidence (record.append
        (observationRecord entry.handle entry.provider.expectedLimits (.acceptance renewal observed)
          (.confirmationRejected entry.handle reason cancellation)))
        entry.startCanceling := by
      intro reason cancellation
      exact hevid.of_canceling rfl (by simp [observationRecord,
        RelayReservationEvent.isRejection]) rfl rfl Or.inl Or.inl
    split at hn
    · cases hn
      rw [handleRecord_observation_ok]
      exact hrej _ _
    · cases hn
      rw [handleRecord_observation_ok]
      exact hrej _ _
    · rename_i hval horder
      have hobs := (entry.provider.expectedLimits.validateObserved_eq_ok_iff _).mp hval
      split at hn
      · rename_i hren
        cases hn
        rw [if_pos hren, handleRecord_observation_ok]
        apply hevid.of_live rfl rfl rfl rfl rfl
        simp [observationRecord, hren, Observation.isTerminal, RelayReservationEvent.isRejection]
      · rename_i hren
        cases hn
        rw [if_neg hren, handleRecord_observation_ok]
        rw [Bool.not_eq_true] at hren
        apply hevid.of_maybePublish { entry with initialAcceptanceObserved := true }
          localPeerId hlive rfl
        · exact id
        · simp
        · simp [HandleRecord.append, observationRecord, hevid.listener_eq hlive]
        · simp [HandleRecord.append, observationRecord, hren, hobs, isRejection_maybePublish]
        · rfl
        · rfl
        · simp [observationRecord, Observation.isTerminal, isRejection_maybePublish]
        · exact canceled_maybePublish { entry with initialAcceptanceObserved := true } _ _ _
        · exact published_maybePublish { entry with initialAcceptanceObserved := true } _ _ _

theorem cancel (hevid : EntryEvidence record entry)
    (hn : entry.cancel.2 = some next) :
    EntryEvidence (recordAfter record entry .cancel entry.cancel) next := by
  unfold recordAfter
  unfold ReservationEntry.cancel at hn ⊢
  split at hn
  · rename_i hcanc
    cases hn
    rw [if_pos hcanc, handleRecord_observation_ok]
    exact hevid.of_canceling hcanc (by simp [observationRecord,
      Observation.isTerminal]) rfl rfl Or.inl Or.inl
  · rename_i hlive
    cases hn
    rw [if_neg hlive, handleRecord_observation_ok]
    exact hevid.of_canceling rfl (by simp [observationRecord,
      Observation.isTerminal]) rfl rfl Or.inl Or.inl

theorem settleClosure {closed : ReservationEntry} {observation : Observation}
    {wasCanceling : Bool} (hevid : EntryEvidence record entry)
    (hhdl : closed.handle = entry.handle) (hsta : closed.state = .canceling)
    (hterminalReport : observation.isTerminal = true)
    (hlis : closed.listenerClosed = true → entry.listenerClosed = true ∨
      ∃ listenerId, observation = .listenerClosed listenerId)
    (hterm : closed.connectionTerminal = true → entry.connectionTerminal = true ∨
      (∃ connectionId, observation = .directConnectionClosed connectionId) ∨
        observation = .noDirectConnection)
    (hn : (closed.settleClosure entry.handle wasCanceling).2 = some next) :
    EntryEvidence (recordAfter record entry observation
      (closed.settleClosure entry.handle wasCanceling)) next := by
  unfold recordAfter
  have hrep : ∀ event, (observationRecord entry.handle entry.provider.expectedLimits
      observation event).published = 0 → (observationRecord entry.handle
      entry.provider.expectedLimits observation event).canceled = 0 →
      EntryEvidence (record.append (observationRecord entry.handle
        entry.provider.expectedLimits observation event)) closed := by
    intro event hpub hcanc
    apply hevid.of_canceling hsta _ hpub hcanc
    · intro hcl
      rcases hlis hcl with h | ⟨listenerId, rfl⟩
      · exact Or.inl h
      · exact Or.inr rfl
    · intro hcl
      rcases hterm hcl with h | ⟨connectionId, rfl⟩ | rfl
      · exact Or.inl h
      · exact Or.inr rfl
      · exact Or.inr rfl
    · simp [observationRecord, hterminalReport]
  unfold ReservationEntry.settleClosure at hn ⊢
  split at hn
  · simp at hn
  · rename_i hincomplete
    rw [if_neg hincomplete]
    split at hn
    · rename_i hwas
      cases hn
      rw [if_pos hwas, handleRecord_observation_ok]
      exact hrep _ rfl rfl
    · rename_i hwas
      cases hn
      rw [if_neg hwas, handleRecord_observation_ok]
      exact hrep _ rfl rfl

theorem observe (hevid : EntryEvidence record entry) (localPeerId : PeerId)
    (observation : Observation)
    (hn : (entry.observe entry.handle localPeerId observation).2 = some next) :
    EntryEvidence (recordAfter record entry observation
      (entry.observe entry.handle localPeerId observation)) next := by
  cases observation with
  | directConnection connectionId =>
    exact hevid.observeDirectConnection connectionId hn
  | listenerAddress listenerId responseAddress =>
    exact hevid.observeListenerAddress localPeerId listenerId responseAddress hn
  | acceptance renewal observed =>
    exact hevid.observeAcceptance localPeerId renewal observed hn
  | cancel => exact hevid.cancel hn
  | listenerClosed listenerId =>
    simp only [ReservationEntry.observe, ReservationEntry.observeListenerClosed] at hn ⊢
    split at hn
    · cases hn
      exact hevid.of_live rfl rfl rfl rfl rfl rfl
    · refine hevid.settleClosure rfl rfl rfl ?_ ?_ hn
      · exact fun _ => Or.inr ⟨listenerId, rfl⟩
      · exact Or.inl
  | directConnectionClosed connectionId =>
    simp only [ReservationEntry.observe, ReservationEntry.observeDirectConnectionClosed] at hn ⊢
    split at hn
    · cases hn
      exact hevid.of_live rfl rfl rfl rfl rfl rfl
    · split at hn
      · rename_i hmismatch
        cases hn
        rw [if_pos hmismatch]
        exact hevid.of_live rfl rfl rfl rfl rfl rfl
      · rename_i hmatch
        rw [if_neg hmatch]
        refine hevid.settleClosure rfl rfl rfl ?_ ?_ hn
        · exact Or.inl
        · exact fun _ => Or.inr (Or.inl ⟨connectionId, rfl⟩)
  | noDirectConnection =>
    simp only [ReservationEntry.observe, ReservationEntry.observeNoDirectConnection] at hn ⊢
    split at hn
    · split at hn
      · rename_i hopen
        cases hn
        rw [if_pos hopen]
        exact hevid.of_live rfl rfl rfl rfl rfl rfl
      · rename_i hopen
        rw [if_neg hopen]
        exact hevid.settleClosure rfl rfl rfl Or.inl
          (fun _ => Or.inr (Or.inr rfl)) hn
    · exact hevid.settleClosure rfl rfl rfl Or.inl
        (fun _ => Or.inr (Or.inr rfl)) hn

end EntryEvidence

namespace ReservationEntry

variable {entry : ReservationEntry} {handle : RelayReservationHandle}
variable {localPeerId : PeerId} {observation : Observation}

/-- Everything an operation on a validated entry can return. -/
inductive Returns (entry : ReservationEntry) (handle : RelayReservationHandle)
    (localPeerId : PeerId) (observation : Observation) : Outcome → Prop where
  /-- A refused operation leaves its entry as it was. -/
  | refused (error : RelayReservationError) :
      Returns entry handle localPeerId observation (.error error, some entry)
  /-- An accepted operation keeps the identity, which a publication carries. -/
  | kept (event : RelayReservationEvent) (next : ReservationEntry)
      (hhandle : next.handle = entry.handle) (hprovider : next.provider = entry.provider)
      (hcanceled : ∀ emitted, event ≠ .canceled emitted)
      (hpublishable : ∀ emitted route limits, event = .publishable emitted route limits →
        emitted = entry.handle ∧ route = entry.provider.publishableRoute localPeerId ∧
          limits = entry.provider.expectedLimits ∧ next.state = .publishable) :
      Returns entry handle localPeerId observation (.ok event, some next)
  /-- The closure report that completes a cancellation removes the entry. -/
  | removed (hterminalReport : observation.isTerminal = true)
      (hlistener : entry.listenerClosed = true ∨
        ∃ listenerId, observation = .listenerClosed listenerId)
      (hterminal : entry.connectionTerminal = true ∨
        (∃ connectionId, observation = .directConnectionClosed connectionId) ∨
          observation = .noDirectConnection) :
      Returns entry handle localPeerId observation (.ok (.canceled handle), none)

theorem Returns.quiet {event : RelayReservationEvent} {next : ReservationEntry}
    (hhdl : next.handle = entry.handle) (hprov : next.provider = entry.provider)
    (hcanc : ∀ emitted, event ≠ .canceled emitted)
    (hpubl : ∀ emitted route limits, event ≠ .publishable emitted route limits) :
    Returns entry handle localPeerId observation (.ok event, some next) :=
  .kept event next hhdl hprov hcanc
    fun emitted route limits heq => absurd heq (hpubl emitted route limits)

theorem Returns.maybePublish {updated : ReservationEntry}
    (hhdl : updated.handle = entry.handle)
    (hprov : updated.provider = entry.provider) :
    Returns entry handle localPeerId observation
      (.ok (updated.maybePublish localPeerId).1, some (updated.maybePublish localPeerId).2) := by
  unfold ReservationEntry.maybePublish
  split
  · refine .kept _ _ hhdl hprov (by simp) ?_
    intro emitted route limits heq
    simp only [RelayReservationEvent.publishable.injEq] at heq
    obtain ⟨rfl, rfl, rfl⟩ := heq
    exact ⟨hhdl, by rw [hprov], by rw [hprov], rfl⟩
  · exact .quiet hhdl hprov (by simp) (by simp)

theorem Returns.settleClosure {closed : ReservationEntry} {wasCanceling : Bool}
    (hhdl : closed.handle = entry.handle) (hprov : closed.provider = entry.provider)
    (hterminalReport : observation.isTerminal = true)
    (hlis : closed.listenerClosed = true → entry.listenerClosed = true ∨
      ∃ listenerId, observation = .listenerClosed listenerId)
    (hterm : closed.connectionTerminal = true → entry.connectionTerminal = true ∨
      (∃ connectionId, observation = .directConnectionClosed connectionId) ∨
        observation = .noDirectConnection) :
    Returns entry handle localPeerId observation
      (closed.settleClosure handle wasCanceling) := by
  unfold ReservationEntry.settleClosure
  split
  · rename_i hcomplete
    simp only [cancellationComplete, Bool.and_eq_true] at hcomplete
    exact .removed hterminalReport (hlis hcomplete.1.2) (hterm hcomplete.2)
  · split
    · exact .quiet hhdl hprov (by simp) (by simp)
    · exact .quiet hhdl hprov (by simp) (by simp)

theorem returns_observe (entry : ReservationEntry) (handle : RelayReservationHandle)
    (localPeerId : PeerId) (observation : Observation) :
    Returns entry handle localPeerId observation
      (entry.observe handle localPeerId observation) := by
  cases observation with
  | directConnection connectionId =>
    simp only [observe, observeDirectConnection]
    split
    · refine .quiet ?_ ?_ (by simp) (by simp) <;> split <;> rfl
    · split
      · exact .quiet rfl rfl (by simp) (by simp)
      · split
        · exact .quiet rfl rfl (by simp) (by simp)
        · exact .refused _
  | listenerAddress listenerId responseAddress =>
    simp only [observe, observeListenerAddress]
    split
    · exact .refused _
    · split
      · exact .quiet rfl rfl (by simp) (by simp)
      · exact .maybePublish rfl rfl
  | acceptance renewal observed =>
    simp only [observe, observeAcceptance]
    split
    · exact .quiet rfl rfl (by simp) (by simp)
    · split
      · exact .quiet rfl rfl (by simp) (by simp)
      · exact .quiet rfl rfl (by simp) (by simp)
      · split
        · exact .quiet rfl rfl (by simp) (by simp)
        · exact .maybePublish rfl rfl
  | cancel =>
    simp only [observe, ReservationEntry.cancel]
    split
    · exact .quiet rfl rfl (by simp) (by simp)
    · exact .quiet rfl rfl (by simp) (by simp)
  | listenerClosed listenerId =>
    simp only [observe, observeListenerClosed]
    split
    · exact .refused _
    · exact .settleClosure rfl rfl rfl (fun _ => Or.inr ⟨listenerId, rfl⟩) Or.inl
  | directConnectionClosed connectionId =>
    simp only [observe, observeDirectConnectionClosed]
    split
    · exact .refused _
    · split
      · exact .refused _
      · exact .settleClosure rfl rfl rfl Or.inl
          fun _ => Or.inr (Or.inl ⟨connectionId, rfl⟩)
  | noDirectConnection =>
    simp only [observe, observeNoDirectConnection]
    split
    · split
      · exact .refused _
      · exact .settleClosure rfl rfl rfl Or.inl fun _ => Or.inr (Or.inr rfl)
    · exact .settleClosure rfl rfl rfl Or.inl fun _ => Or.inr (Or.inr rfl)

end ReservationEntry

namespace RelayReservationNode

/-- The fence passes exactly this node and the current generation. -/
theorem entry_eq_ok_iff (node : RelayReservationNode) (handle : RelayReservationHandle)
    (entry : ReservationEntry) :
    node.entry handle = .ok entry ↔ handle.nodeInstanceId = node.nodeInstanceId ∧
        node.reservations[handle.relayPeerId]? = some entry ∧
        entry.handle.generation = handle.generation := by
  unfold RelayReservationNode.entry validateHandle
  by_cases hinst : handle.nodeInstanceId = node.nodeInstanceId
  · simp only [hinst, ne_eq, not_true_eq_false, if_false, true_and]
    cases hent : node.reservations[handle.relayPeerId]? with
    | none =>
      simp only [reduceCtorEq, false_and, iff_false]
      split <;> simp_all
    | some current =>
      by_cases hgen : current.handle.generation = handle.generation
      · simp only [hgen, if_true, Except.ok.injEq, Option.some.injEq]
        constructor
        · rintro rfl
          exact ⟨rfl, hgen⟩
        · exact And.left
      · simp only [hgen, if_false, reduceCtorEq, Option.some.injEq, false_iff, not_and]
        rintro rfl
        exact hgen
  · simp [hinst]

end RelayReservationNode

end AukiSdk.Relay
