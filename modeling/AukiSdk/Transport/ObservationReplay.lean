import AukiSdk.Transport.Observation

/-!
# The event stream of the observations

Every transition publishes exactly the changes of the records.
-/

namespace AukiSdk.Transport

open AukiSdk.Foundation List Function
open AukiSdk.Foundation.KeyedLog (Change)
open AukiSdk.Net
open AukiSdk.Relay
open AukiSdk.Authority
open Std (ExtTreeMap)

/-- The change of one record that an event announces. -/
def NodeObservationEvent.change :
    NodeObservationEvent → Option (Change ObservationKey AuthenticatedPeerObservation)
  | .appeared observation => some (.appear observation.key observation)
  | .updated observation => some (.replace observation.key observation)
  | .disappeared peerId domainId _ => some (.vanish ⟨peerId, domainId⟩)
  | .statusChanged _ => none

/-- The changes that a batch of events announces. -/
def announced (events : List NodeObservationEvent) :
    List (Change ObservationKey AuthenticatedPeerObservation) :=
  events.filterMap NodeObservationEvent.change

theorem announced_append (first second : List NodeObservationEvent) :
    announced (first ++ second) = announced first ++ announced second :=
  filterMap_append

/-- The records of a subscriber that has applied all events from the start. -/
def subscriberView (events : List NodeObservationEvent) :
    ObservationKey → Option AuthenticatedPeerObservation :=
  KeyedLog.replay (fun _ => none) (announced events)

namespace ObservationState

/-- Authentications are for connected peers only, none after termination. -/
structure Valid (state : ObservationState) : Prop where
  keyed : ∀ (key : ObservationKey) (peer : AuthenticatedPeer),
    state.authentications[key]? = some peer →
    peer.peerId = key.peerId ∧ state.connected key.peerId = true
  terminated : state.status ≠ .running →
    ∀ key : ObservationKey, state.authentications[key]? = none

/-- The record that a snapshot shows for an authentication. -/
def record (state : ObservationState) (key : ObservationKey) (peer : AuthenticatedPeer) :
    AuthenticatedPeerObservation :=
  ⟨key.domainId, peer, ((state.connections key.peerId).getD ∅).sort (· ≤ ·)⟩

variable {peerId : PeerId} {state : ObservationState}

theorem connected_iff : state.connected peerId = true ↔
      ∃ connections, state.connections peerId = some connections ∧ connections.Nonempty := by
  simp [connected, Option.any_eq_true]

variable {key : ObservationKey}

theorem observation_of_connected (hconn : state.connected key.peerId = true) :
    state.observation key = state.authentications[key]?.map (state.record key) := by
  obtain ⟨connections, hcon, hnon⟩ := connected_iff.mp hconn
  have hsort : connections.sort (· ≤ ·) ≠ [] := by
    obtain ⟨connectionId, hm⟩ := hnon
    exact ne_nil_of_mem ((Finset.mem_sort _).mpr hm)
  cases hpeer : state.authentications[key]? with
  | none => simp [observation, hpeer]
  | some peer => simp [observation, hpeer, hcon, hsort, record]

theorem Valid.observation_eq (hvalid : Valid state) (key : ObservationKey) :
    state.observation key = state.authentications[key]?.map (state.record key) := by
  cases hpeer : state.authentications[key]? with
  | none => simp [observation, hpeer]
  | some peer =>
    rw [observation_of_connected (hvalid.keyed key peer hpeer).2, hpeer]

variable {observation : AuthenticatedPeerObservation}

theorem Valid.key_of_observation (hvalid : Valid state)
    (hobs : state.observation key = some observation) : observation.key = key := by
  rw [hvalid.observation_eq, Option.map_eq_some_iff] at hobs
  obtain ⟨peer, hpeer, rfl⟩ := hobs
  simp [AuthenticatedPeerObservation.key, record, (hvalid.keyed key peer hpeer).1]

/-- What a transition publishes. -/
structure Publishes (state : ObservationState) (events : List NodeObservationEvent)
    (next : ObservationState) : Prop where
  valid : Valid next
  replayed : KeyedLog.replay state.observation (announced events) = next.observation
  legal : KeyedLog.Legal state.observation (announced events)

theorem Publishes.silent (hvalid : Valid state) : Publishes state [] state :=
  ⟨hvalid, rfl, KeyedLog.legal_nil _⟩

variable {next : ObservationState}

theorem Publishes.append {middle : ObservationState} {first second : List NodeObservationEvent}
    (hfst : Publishes state first middle) (hsnd : Publishes middle second next) :
    Publishes state (first ++ second) next where
  valid := hsnd.valid
  replayed := by
    rw [announced_append, KeyedLog.replay_append, hfst.replayed, hsnd.replayed]
  legal := by
    rw [announced_append]
    apply hfst.legal.append
    rw [hfst.replayed]
    exact hsnd.legal

theorem Publishes.of_nodup {events : List NodeObservationEvent} (hvalid : Valid next)
    (hnd : ((announced events).map Change.key).Nodup)
    (hadm : ∀ change ∈ announced events, change.Admissible state.observation)
    (hval : ∀ change ∈ announced events, change.value = next.observation change.key)
    (hots : ∀ key, key ∉ (announced events).map Change.key →
      next.observation key = state.observation key) :
    Publishes state events next where
  valid := hvalid
  replayed := by
    funext key
    by_cases hkey : key ∈ (announced events).map Change.key
    · obtain ⟨change, hchg, rfl⟩ := mem_map.mp hkey
      rw [KeyedLog.replay_of_mem hnd hchg, hval change hchg]
    · rw [KeyedLog.replay_of_not_mem hkey, hots key hkey]
  legal := KeyedLog.legal_of_nodup hnd hadm

theorem announced_disappeared (keys : List ObservationKey) (reason : PeerDisappearanceReason) :
    announced (keys.map fun key => .disappeared key.peerId key.domainId reason) =
      keys.map Change.vanish := by
  rw [announced, filterMap_map]
  exact congrFun (filterMap_eq_map (f := Change.vanish)) keys

theorem publishes_disappeared (hvalid : Valid next) (hsta : Valid state)
    {keys : List ObservationKey} (hnd : keys.Nodup)
    (hst : ∀ key ∈ keys, ∃ peer, state.authentications[key]? = some peer)
    (hkeys : ∀ key : ObservationKey, next.authentications[key]? =
      if key ∈ keys then none else state.authentications[key]?)
    (hcon : ∀ (key : ObservationKey) (peer : AuthenticatedPeer),
      next.authentications[key]? = some peer →
      next.connections key.peerId = state.connections key.peerId)
    (reason : PeerDisappearanceReason) :
    Publishes state (keys.map fun key => .disappeared key.peerId key.domainId reason) next := by
  apply Publishes.of_nodup hvalid <;> rw [announced_disappeared]
  · rw [map_map]
    simpa [Function.comp_def, Change.key] using hnd
  · intro change hchg
    obtain ⟨key, hkey, rfl⟩ := mem_map.mp hchg
    obtain ⟨peer, hpeer⟩ := hst key hkey
    rw [Change.Admissible, hsta.observation_eq, hpeer]
    simp
  · intro change hchg
    obtain ⟨key, hkey, rfl⟩ := mem_map.mp hchg
    rw [hvalid.observation_eq]
    simp [Change.key, Change.value, hkeys, hkey]
  · intro key hkey
    have hout : key ∉ keys := by
      simpa [Function.comp_def, Change.key] using hkey
    rw [hvalid.observation_eq, hsta.observation_eq, hkeys, if_neg hout]
    cases hpeer : state.authentications[key]? with
    | none => rfl
    | some peer =>
      have hn : next.authentications[key]? = some peer := by
        rw [hkeys, if_neg hout, hpeer]
      simp [record, hcon key peer hn]

theorem filterMap_iterate (order : List ObservationKey)
    (map : ExtTreeMap ObservationKey AuthenticatedPeer)
    (test : ObservationKey × AuthenticatedPeer → Prop) [DecidablePred test] :
    let keys := (KeyedLog.iterate order map).filterMap fun stored =>
      if test stored then some stored.1 else none
    keys.Nodup ∧ ∀ key : ObservationKey,
      key ∈ keys ↔ ∃ peer, map[key]? = some peer ∧ test (key, peer) := by
  have hkeys : ((KeyedLog.iterate order map).filterMap fun stored =>
      if test stored then some stored.1 else none) =
      ((KeyedLog.iterate order map).filter fun stored => decide (test stored)).map
        Prod.fst := by
    rw [← filterMap_eq_map, ← filterMap_eq_filter, filterMap_filterMap]
    congr 1
    funext stored
    by_cases htest : test stored <;> simp [htest, Option.guard]
  refine ⟨?_, ?_⟩
  · rw [hkeys]
    exact (KeyedLog.nodup_map_fst_iterate order map).sublist (filter_sublist.map _)
  · intro key
    rw [hkeys]
    simp only [mem_map, mem_filter, KeyedLog.mem_iterate, decide_eq_true_eq, Prod.exists]
    constructor
    · rintro ⟨_, peer, ⟨hpeer, htest⟩, rfl⟩
      exact ⟨peer, hpeer, htest⟩
    · rintro ⟨peer, hpeer, htest⟩
      exact ⟨key, peer, ⟨hpeer, htest⟩, rfl⟩

theorem Valid.of_erased (hvalid : Valid state) (hstat : next.status = state.status)
    {keys : List ObservationKey} (hkeys : ∀ key : ObservationKey, next.authentications[key]? =
      if key ∈ keys then none else state.authentications[key]?)
    (hconn : ∀ key : ObservationKey, key ∉ keys → next.authentications[key]? ≠ none →
      next.connected key.peerId = state.connected key.peerId) : Valid next where
  keyed key peer hpeer := by
    have hlook := hkeys key
    split at hlook
    · rw [hpeer] at hlook
      cases hlook
    · rename_i hout
      rw [hconn key hout (by simp [hpeer])]
      exact hvalid.keyed key peer (hlook.symm.trans hpeer)
  terminated hend key := by
    rw [hkeys]
    rw [hstat] at hend
    split
    · rfl
    · exact hvalid.terminated hend key

theorem publishes_pruneExpired (hvalid : Valid state) (order : List ObservationKey)
    (now : DateTime) :
    Publishes state (state.pruneExpired order now).1 (state.pruneExpired order now).2 := by
  obtain ⟨hnd, hm⟩ := filterMap_iterate order state.authentications
    fun stored => stored.2.verifiedUntil ≤ now
  have hfil : ∀ keys : List ObservationKey,
      (∀ key ∈ keys, ∃ peer, state.authentications[key]? = some peer) →
      keys.filter (fun key => state.connected key.peerId) = keys := by
    intro keys hst
    rw [filter_eq_self]
    intro key hkey
    obtain ⟨peer, hpeer⟩ := hst key hkey
    exact (hvalid.keyed key peer hpeer).2
  have hst : ∀ key ∈ (KeyedLog.iterate order state.authentications).filterMap
      (fun stored => if stored.2.verifiedUntil ≤ now then some stored.1 else none),
      ∃ peer, state.authentications[key]? = some peer := by
    intro key hkey
    obtain ⟨peer, hpeer, -⟩ := (hm key).mp hkey
    exact ⟨peer, hpeer⟩
  simp only [pruneExpired]
  rw [hfil _ hst]
  have hn : Valid (state.pruneExpired order now).2 :=
    hvalid.of_erased rfl (fun key => KeyedLog.getElem?_eraseAll _ _ key) (fun _ _ _ => rfl)
  exact publishes_disappeared hn hvalid hnd hst
    (fun key => KeyedLog.getElem?_eraseAll _ _ key) (fun _ _ _ => rfl) _

theorem status_pruneExpired (state : ObservationState) (order : List ObservationKey)
    (now : DateTime) : (state.pruneExpired order now).2.status = state.status := rfl

theorem nodup_gathered (hvalid : Valid state) (order : List ObservationKey)
    (gather : ObservationKey × AuthenticatedPeer → Option AuthenticatedPeerObservation)
    (hgat : ∀ stored observation, gather stored = some observation →
      state.observation stored.1 = some observation) :
    (((KeyedLog.iterate order state.authentications).filterMap gather).map
      AuthenticatedPeerObservation.key).Nodup := by
  have hsub : (((KeyedLog.iterate order state.authentications).filterMap gather).map
      AuthenticatedPeerObservation.key).Sublist
      ((KeyedLog.iterate order state.authentications).map Prod.fst) := by
    induction KeyedLog.iterate order state.authentications with
    | nil => simp
    | cons stored rest ih =>
      cases hst : gather stored with
      | none =>
        rw [filterMap_cons_none hst, map_cons]
        exact ih.cons _
      | some observation =>
        rw [filterMap_cons_some hst, map_cons, map_cons,
          hvalid.key_of_observation (hgat stored observation hst)]
        exact ih.cons_cons _
  exact (KeyedLog.nodup_map_fst_iterate order state.authentications).sublist hsub

theorem mem_observationsForPeer (hvalid : Valid state) {order : List ObservationKey} :
    observation ∈ state.observationsForPeer order peerId ↔ observation.key.peerId = peerId ∧
        state.observation observation.key = some observation := by
  simp only [observationsForPeer, mem_insertionSort, mem_filterMap, KeyedLog.mem_iterate]
  constructor
  · rintro ⟨⟨key, peer⟩, -, hobs⟩
    split at hobs
    · rename_i hpeer
      rw [hvalid.key_of_observation hobs]
      exact ⟨hpeer, hobs⟩
    · cases hobs
  · rintro ⟨hpeer, hobs⟩
    have hst := hobs
    rw [hvalid.observation_eq, Option.map_eq_some_iff] at hst
    obtain ⟨peer, hf, -⟩ := hst
    refine ⟨(observation.key, peer), hf, ?_⟩
    rw [if_pos hpeer]
    exact hobs

theorem nodup_observationsForPeer (hvalid : Valid state) (order : List ObservationKey)
    (peerId : PeerId) :
    ((state.observationsForPeer order peerId).map AuthenticatedPeerObservation.key).Nodup := by
  rw [observationsForPeer, ((perm_insertionSort _ _).map _).nodup_iff]
  apply nodup_gathered hvalid
  intro stored observation hobs
  split at hobs
  · exact hobs
  · cases hobs

theorem announced_updated (observations : List AuthenticatedPeerObservation) :
    announced (observations.map NodeObservationEvent.updated) =
      observations.map fun observation => Change.replace observation.key observation := by
  rw [announced, filterMap_map]
  exact congrFun (filterMap_eq_map (f := fun observation : AuthenticatedPeerObservation =>
      Change.replace observation.key observation)) observations

/-- The connections of one peer change while some remain. -/
structure Reconnects (state next : ObservationState) (peerId : PeerId) : Prop where
  status : next.status = state.status
  authentications : next.authentications = state.authentications
  others : ∀ other, other ≠ peerId → next.connections other = state.connections other

theorem Reconnects.valid (hvalid : Valid state) (hrec : Reconnects state next peerId)
    (hconn : next.connected peerId = true) : Valid next where
  keyed key peer hpeer := by
    rw [hrec.authentications] at hpeer
    obtain ⟨hkey, hlive⟩ := hvalid.keyed key peer hpeer
    refine ⟨hkey, ?_⟩
    by_cases hsm : key.peerId = peerId
    · rw [hsm]
      exact hconn
    · rw [connected, hrec.others key.peerId hsm]
      exact hlive
  terminated hend key := by
    rw [hrec.status] at hend
    rw [hrec.authentications]
    exact hvalid.terminated hend key

theorem Reconnects.observation_of_ne (hvalid : Valid state) (hvalid' : Valid next)
    (hrec : Reconnects state next peerId) (hkey : key.peerId ≠ peerId) :
    next.observation key = state.observation key := by
  rw [hvalid.observation_eq, hvalid'.observation_eq, hrec.authentications]
  congr 1
  funext peer
  simp [record, hrec.others key.peerId hkey]

theorem Reconnects.publishes (hvalid : Valid state) (hrec : Reconnects state next peerId)
    (hconn : next.connected peerId = true) (order : List ObservationKey) :
    Publishes state ((next.observationsForPeer order peerId).map .updated) next := by
  have hn := hrec.valid hvalid hconn
  apply Publishes.of_nodup hn <;> rw [announced_updated]
  · rw [map_map]
    exact nodup_observationsForPeer hn order peerId
  · intro change hchg
    obtain ⟨observation, hobs, rfl⟩ := mem_map.mp hchg
    obtain ⟨-, hf⟩ := (mem_observationsForPeer hn).mp hobs
    rw [hn.observation_eq, hrec.authentications, Option.map_eq_some_iff] at hf
    obtain ⟨peer, hpeer, -⟩ := hf
    rw [Change.Admissible, hvalid.observation_eq, hpeer]
    simp
  · intro change hchg
    obtain ⟨observation, hobs, rfl⟩ := mem_map.mp hchg
    exact ((mem_observationsForPeer hn).mp hobs).2.symm
  · intro key hkey
    by_cases hsm : key.peerId = peerId
    · have hnone : next.observation key = none := by
        rw [Option.eq_none_iff_forall_ne_some]
        intro observation hf
        have hown := hn.key_of_observation hf
        apply hkey
        rw [map_map]
        refine mem_map.mpr ⟨observation, (mem_observationsForPeer hn).mpr ?_, hown⟩
        rw [hown]
        exact ⟨hsm, hf⟩
      rw [hnone]
      rw [hn.observation_eq, Option.map_eq_none_iff, hrec.authentications] at hnone
      rw [hvalid.observation_eq, hnone]
      rfl
    · exact hrec.observation_of_ne hvalid hn hsm

theorem Reconnects.publishes_first (hvalid : Valid state)
    (hrec : Reconnects state next peerId) (hconn : next.connected peerId = true)
    (hfst : state.connected peerId = false) (order : List ObservationKey) :
    next.observationsForPeer order peerId = [] ∧ Publishes state [] next := by
  have hn := hrec.valid hvalid hconn
  have hunk : ∀ key : ObservationKey, key.peerId = peerId → state.authentications[key]? = none := by
    rintro key rfl
    rw [Option.eq_none_iff_forall_ne_some]
    intro peer hpeer
    rw [(hvalid.keyed key peer hpeer).2] at hfst
    cases hfst
  constructor
  · rw [eq_nil_iff_forall_not_mem]
    intro observation hobs
    obtain ⟨hpeer, hf⟩ := (mem_observationsForPeer hn).mp hobs
    rw [hn.observation_eq, hrec.authentications, hunk _ hpeer] at hf
    cases hf
  · refine ⟨hn, ?_, KeyedLog.legal_nil _⟩
    funext key
    by_cases hsm : key.peerId = peerId
    · change state.observation key = next.observation key
      rw [hvalid.observation_eq, hn.observation_eq, hrec.authentications, hunk key hsm]
      rfl
    · exact (hrec.observation_of_ne hvalid hn hsm).symm

theorem publishes_connectionEstablished (hvalid : Valid state) (order : List ObservationKey)
    (peerId : PeerId) (connectionId : ConnectionId) (now : DateTime) :
    Publishes state (state.connectionEstablished order peerId connectionId now).1
      (state.connectionEstablished order peerId connectionId now).2 := by
  have hpru := publishes_pruneExpired hvalid order now
  simp only [connectionEstablished]
  generalize state.pruneExpired order now = pruned at hpru ⊢
  obtain ⟨expired, pruned⟩ := pruned
  split
  · exact Publishes.silent hvalid
  · have hrec : Reconnects pruned { pruned with
        connections := Function.update pruned.connections peerId
          (some (insert connectionId ((pruned.connections peerId).getD ∅))) } peerId :=
      ⟨rfl, rfl, fun other ho => update_of_ne ho _ _⟩
    have hconn : ({ pruned with
        connections := Function.update pruned.connections peerId
          (some (insert connectionId ((pruned.connections peerId).getD ∅))) } :
        ObservationState).connected peerId = true :=
      connected_iff.mpr ⟨_, update_self _ _ _, Finset.insert_nonempty _ _⟩
    dsimp only
    split
    · apply hpru.append
      cases hwas : pruned.connected peerId with
      | true => exact hrec.publishes hpru.valid hconn order
      | false =>
        obtain ⟨hemp, hfst⟩ := hrec.publishes_first hpru.valid hconn hwas order
        rw [hemp]
        exact hfst
    · rename_i hkno
      rw [not_not] at hkno
      have hsm : Function.update pruned.connections peerId
          (some (insert connectionId ((pruned.connections peerId).getD ∅))) =
          pruned.connections := by
        cases hcon : pruned.connections peerId with
        | none => simp [hcon] at hkno
        | some connections =>
          rw [hcon, Option.getD_some] at hkno
          rw [Option.getD_some, Finset.insert_eq_of_mem hkno, ← hcon]
          exact Function.update_eq_self _ _
      rw [hsm]
      exact hpru

theorem publishes_removeAuthenticationsForPeer (hvalid : Valid state)
    {connections : PeerId → Option (Finset ConnectionId)}
    (hots : ∀ other, other ≠ peerId → connections other = state.connections other)
    (order : List ObservationKey) (reason : PeerDisappearanceReason) :
    Publishes state
      ({ state with connections }.removeAuthenticationsForPeer order peerId reason).1
      ({ state with connections }.removeAuthenticationsForPeer order peerId reason).2 := by
  obtain ⟨hnd, hm⟩ := filterMap_iterate order state.authentications
    fun stored => stored.1.peerId = peerId
  have hpeer : ∀ key ∈ (KeyedLog.iterate order state.authentications).filterMap
      (fun stored => if stored.1.peerId = peerId then some stored.1 else none),
      key.peerId = peerId := by
    intro key hkey
    obtain ⟨_, -, hpeer⟩ := (hm key).mp hkey
    exact hpeer
  have hevs : ((KeyedLog.iterate order state.authentications).filterMap
      (fun stored => if stored.1.peerId = peerId then some stored.1 else none)).map
        (fun key => NodeObservationEvent.disappeared peerId key.domainId reason) =
      ((KeyedLog.iterate order state.authentications).filterMap
        (fun stored => if stored.1.peerId = peerId then some stored.1 else none)).map
        (fun key => NodeObservationEvent.disappeared key.peerId key.domainId reason) := by
    apply map_congr_left
    intro key hkey
    rw [hpeer key hkey]
  have hkept : ∀ (key : ObservationKey) (peer : AuthenticatedPeer),
      ({ state with connections }.removeAuthenticationsForPeer order peerId
        reason).2.authentications[key]? = some peer → key.peerId ≠ peerId := by
    intro key peer hf hsm
    have hlook := KeyedLog.getElem?_eraseAll ((KeyedLog.iterate order
      state.authentications).filterMap fun stored =>
        if stored.1.peerId = peerId then some stored.1 else none) state.authentications key
    split at hlook
    · cases hlook.symm.trans hf
    · rename_i hout
      exact hout ((hm key).mpr ⟨peer, hlook.symm.trans hf, hsm⟩)
  simp only [removeAuthenticationsForPeer]
  rw [hevs]
  apply publishes_disappeared _ hvalid hnd
  · intro key hkey
    obtain ⟨peer, hf, -⟩ := (hm key).mp hkey
    exact ⟨peer, hf⟩
  · exact fun key => KeyedLog.getElem?_eraseAll _ _ key
  · intro key peer hf
    exact hots _ (hkept key peer hf)
  · refine hvalid.of_erased rfl (fun key => KeyedLog.getElem?_eraseAll _ _ key) ?_
    intro key _ hf
    obtain ⟨peer, hpeer⟩ := Option.ne_none_iff_exists'.mp hf
    simp only [connected]
    rw [hots _ (hkept key peer hpeer)]

theorem publishes_connectionClosed (hvalid : Valid state) (order : List ObservationKey)
    (peerId : PeerId) (connectionId : ConnectionId) (now : DateTime) :
    Publishes state (state.connectionClosed order peerId connectionId now).1
      (state.connectionClosed order peerId connectionId now).2 := by
  have hpru := publishes_pruneExpired hvalid order now
  simp only [connectionClosed]
  generalize state.pruneExpired order now = pruned at hpru ⊢
  obtain ⟨expired, pruned⟩ := pruned
  split
  · exact Publishes.silent hvalid
  dsimp only
  split
  · split
    · rename_i hconn
      apply hpru.append
      apply Reconnects.publishes hpru.valid _ hconn
      exact ⟨rfl, rfl, fun other ho => update_of_ne ho _ _⟩
    · apply hpru.append
      apply publishes_removeAuthenticationsForPeer hpru.valid
      intro other ho
      rw [update_of_ne ho, update_of_ne ho]
  · exact hpru

theorem publishes_insert (hvalid : Valid state) (hrun : state.status = .running)
    {peer : AuthenticatedPeer} (hkey : peer.peerId = key.peerId)
    (hconn : state.connected key.peerId = true)
    (hn : next = { state with authentications := state.authentications.insert key peer }) :
    Publishes state ((next.observation key).toList.map fun observation =>
      if state.authentications.contains key then .updated observation
      else .appeared observation) next := by
  have hlook : ∀ other : ObservationKey, next.authentications[other]? =
      if other = key then some peer else state.authentications[other]? := by
    intro other
    rw [hn]
    exact FiniteMap.getElem?_insert _ _ _ _
  have hrec : next.record = state.record := by rw [hn]; rfl
  have hvalid' : Valid next := by
    constructor
    · intro other found hf
      have hsm : next.connected = state.connected := by rw [hn]; rfl
      rw [hsm]
      rw [hlook] at hf
      split at hf
      · rename_i ho
        cases hf
        rw [ho]
        exact ⟨hkey, hconn⟩
      · exact hvalid.keyed other found hf
    · intro hend
      rw [hn] at hend
      exact absurd hrun hend
  have hobs : ∀ other, next.observation other =
      if other = key then some (state.record key peer) else state.observation other := by
    intro other
    rw [hvalid'.observation_eq, hvalid.observation_eq, hlook, hrec]
    split
    · rename_i ho
      rw [ho]
      rfl
    · rfl
  have hown : (state.record key peer).key = key := by
    simp [AuthenticatedPeerObservation.key, record, hkey]
  have hsin : ∀ (event : NodeObservationEvent)
      (change : Change ObservationKey AuthenticatedPeerObservation),
      event.change = some change → change.key = key →
      change.value = some (state.record key peer) →
      change.Admissible state.observation → Publishes state [event] next := by
    intro event change hchg hsm hval hadm
    have hann : announced [event] = [change] := by simp [announced, hchg]
    apply Publishes.of_nodup hvalid' <;> rw [hann]
    · simp
    · intro other hm
      rw [mem_singleton.mp hm]
      exact hadm
    · intro other hm
      rw [mem_singleton.mp hm, hobs, if_pos hsm, hval]
    · intro other ho
      rw [hobs, if_neg (by simpa [hsm] using ho)]
  rw [hobs, if_pos rfl]
  by_cases hvis : state.authentications.contains key = true
  · simp only [hvis, if_true, Option.toList_some, map_singleton]
    refine hsin _ _ rfl hown rfl ?_
    rw [ExtTreeMap.contains_eq_isSome_getElem?] at hvis
    obtain ⟨found, hf⟩ := Option.isSome_iff_exists.mp hvis
    rw [Change.Admissible, hown, hvalid.observation_eq, hf]
    simp
  · simp only [hvis, Option.toList_some, map_singleton]
    refine hsin _ _ rfl hown rfl ?_
    rw [Bool.not_eq_true, ExtTreeMap.contains_eq_isSome_getElem?, Option.isSome_eq_false_iff,
      Option.isNone_iff_eq_none] at hvis
    rw [Change.Admissible, hown, hvalid.observation_eq, hvis]
    rfl

theorem publishes_authenticated (hvalid : Valid state) (order : List ObservationKey)
    (domainId : Uuid) (peer : AuthenticatedPeer) (now : DateTime) :
    Publishes state (state.authenticated order domainId peer now).1
      (state.authenticated order domainId peer now).2 := by
  have hpru := publishes_pruneExpired hvalid order now
  have hstat := status_pruneExpired state order now
  simp only [authenticated]
  generalize state.pruneExpired order now = pruned at hpru hstat ⊢
  obtain ⟨expired, pruned⟩ := pruned
  split
  · exact Publishes.silent hvalid
  split
  · exact Publishes.silent hvalid
  rename_i hrun
  rw [not_not] at hrun
  dsimp only at hstat ⊢
  split
  · rename_i hconn
    apply hpru.append
    exact publishes_insert hpru.valid (hstat.trans hrun) rfl hconn rfl
  · exact hpru

theorem publishes_terminate (hvalid : Valid state) (order : List ObservationKey)
    (status : NodeObservationStatus) :
    Publishes state (state.terminate order status).1 (state.terminate order status).2 := by
  have hfil : ((KeyedLog.iterate order state.authentications).filter fun stored =>
      state.connected stored.1.peerId) = KeyedLog.iterate order state.authentications := by
    rw [filter_eq_self]
    intro stored hst
    exact (hvalid.keyed stored.1 stored.2 (KeyedLog.mem_iterate.mp hst)).2
  have hter : ∀ reason, Publishes state
      (((KeyedLog.iterate order state.authentications).map fun stored =>
        .disappeared stored.1.peerId stored.1.domainId reason) ++ [.statusChanged status])
      ⟨status, fun _ => none, ∅⟩ := by
    intro reason
    have hend : Valid ⟨status, fun _ => none, ∅⟩ := by
      constructor <;> simp
    have hkeys : ((KeyedLog.iterate order state.authentications).map fun stored =>
        NodeObservationEvent.disappeared stored.1.peerId stored.1.domainId reason) =
        ((KeyedLog.iterate order state.authentications).map Prod.fst).map fun key =>
          .disappeared key.peerId key.domainId reason := by
      rw [map_map]
      rfl
    have hm : ∀ key, key ∈ (KeyedLog.iterate order state.authentications).map Prod.fst ↔
        ∃ peer, state.authentications[key]? = some peer := by
      intro key
      simp [KeyedLog.mem_iterate]
    rw [hkeys]
    refine Publishes.append (?_ : Publishes state _ ⟨status, fun _ => none, ∅⟩) ?_
    · apply publishes_disappeared hend hvalid (KeyedLog.nodup_map_fst_iterate _ _)
      · exact fun key hkey => (hm key).mp hkey
      · intro key
        split
        · simp
        · rename_i hout
          rw [hm, not_exists] at hout
          rw [Option.eq_none_iff_forall_ne_some.mpr hout]
          simp
      · simp
    · exact ⟨hend, rfl, KeyedLog.legal_nil _⟩
  simp only [terminate, hfil]
  split
  · exact Publishes.silent hvalid
  · split
    · exact Publishes.silent hvalid
    · exact hter .nodeStopped
    · exact hter .nodeFailed

theorem publishes_handle (hvalid : Valid state) (input : ObservationInput) :
    Publishes state (state.handle input).1 (state.handle input).2 := by
  cases input with
  | connectionEstablished order peerId connectionId now =>
    exact publishes_connectionEstablished hvalid order peerId connectionId now
  | connectionClosed order peerId connectionId now =>
    exact publishes_connectionClosed hvalid order peerId connectionId now
  | authenticated order domainId peer now =>
    exact publishes_authenticated hvalid order domainId peer now
  | expire order now => exact publishes_pruneExpired hvalid order now
  | terminate order status => exact publishes_terminate hvalid order status

theorem publishes_observe (hvalid : Valid state) (inputs : List ObservationInput) :
    Publishes state (observe inputs state).1 (observe inputs state).2 := by
  induction inputs generalizing state with
  | nil => exact Publishes.silent hvalid
  | cons input inputs ih =>
    have hs := publishes_handle hvalid input
    exact hs.append (ih hs.valid)

theorem valid_new : Valid new := by
  constructor <;> simp [new]

theorem observe_append (first second : List ObservationInput) (state : ObservationState) :
    observe (first ++ second) state =
      ((observe first state).1 ++ (observe second (observe first state).2).1,
        (observe second (observe first state).2).2) := by
  induction first generalizing state with
  | nil => rfl
  | cons input first ih => simp only [cons_append, observe, ih, append_assoc]

theorem mem_currentPeers (hvalid : Valid state) {order : List ObservationKey} :
    observation ∈ state.currentPeers order ↔
      state.observation observation.key = some observation := by
  simp only [currentPeers, mem_insertionSort, mem_filterMap, KeyedLog.mem_iterate]
  constructor
  · rintro ⟨⟨key, peer⟩, -, hobs⟩
    rw [hvalid.key_of_observation hobs]
    exact hobs
  · intro hobs
    have hst := hobs
    rw [hvalid.observation_eq, Option.map_eq_some_iff] at hst
    obtain ⟨peer, hf, -⟩ := hst
    exact ⟨(observation.key, peer), hf, hobs⟩

theorem nodup_currentPeers (hvalid : Valid state) (order : List ObservationKey) :
    ((state.currentPeers order).map AuthenticatedPeerObservation.key).Nodup := by
  rw [currentPeers, ((perm_insertionSort _ _).map _).nodup_iff]
  exact nodup_gathered hvalid order _ fun _ _ hobs => hobs

theorem pruneExpired_keeps_none (hnone : state.authentications[key]? = none)
    (order : List ObservationKey) (now : DateTime) :
    (state.pruneExpired order now).2.authentications[key]? = none := by
  have hlook := KeyedLog.getElem?_eraseAll
    ((KeyedLog.iterate order state.authentications).filterMap fun stored =>
      if stored.2.verifiedUntil ≤ now then some stored.1 else none)
    state.authentications key
  rw [hnone, ite_self] at hlook
  exact hlook

end ObservationState

/-- The input reports an authentication of this peer in this domain. -/
def ObservationInput.Authenticates (key : ObservationKey) : ObservationInput → Prop
  | .authenticated _ domainId peer _ => peer.peerId = key.peerId ∧ domainId = key.domainId
  | _ => False

namespace ObservationState

variable {state : ObservationState}

theorem handle_keeps_none {key : ObservationKey} (hnone : state.authentications[key]? = none)
    {input : ObservationInput} (hinp : ¬ input.Authenticates key) :
    (state.handle input).2.authentications[key]? = none := by
  have hpru := fun order now => pruneExpired_keeps_none hnone order now
  cases input with
  | connectionEstablished order peerId connectionId now =>
    simp only [handle, connectionEstablished]
    split
    · exact hnone
    · split <;> exact hpru order now
  | connectionClosed order peerId connectionId now =>
    simp only [handle, connectionClosed]
    split
    · exact hnone
    split
    · split
      · exact hpru order now
      · simp only [removeAuthenticationsForPeer]
        rw [KeyedLog.getElem?_eraseAll, hpru order now, ite_self]
    · exact hpru order now
  | authenticated order domainId peer now =>
    simp only [handle, authenticated]
    split
    · exact hnone
    split
    · exact hnone
    split
    · dsimp only
      rw [FiniteMap.getElem?_insert, if_neg, hpru order now]
      rintro rfl
      exact hinp ⟨rfl, rfl⟩
    · exact hpru order now
  | expire order now => exact hpru order now
  | terminate order status =>
    simp only [handle, terminate]
    split
    · exact hnone
    · split <;> simp [hnone]

theorem observe_keeps_none {inputs : List ObservationInput} {key : ObservationKey}
    (hnone : state.authentications[key]? = none)
    (hinp : ∀ input ∈ inputs, ¬ input.Authenticates key) :
    (observe inputs state).2.authentications[key]? = none := by
  induction inputs generalizing state with
  | nil => exact hnone
  | cons input inputs ih =>
    rw [forall_mem_cons] at hinp
    exact ih (handle_keeps_none hnone hinp.1) hinp.2

theorem authenticated_disconnected (hvalid : Valid state) {order : List ObservationKey}
    {domainId : Uuid} {peer : AuthenticatedPeer} {now : DateTime}
    (hdis : state.connected peer.peerId = false) :
    (state.authenticated order domainId peer now).2.authentications[
      (⟨peer.peerId, domainId⟩ : ObservationKey)]? = none := by
  have hnone : state.authentications[(⟨peer.peerId, domainId⟩ : ObservationKey)]? = none := by
    rw [Option.eq_none_iff_forall_ne_some]
    intro found hf
    have hconn := (hvalid.keyed _ found hf).2
    rw [hdis] at hconn
    cases hconn
  have hkept : (state.pruneExpired order now).2.connected peer.peerId = false := hdis
  simp only [authenticated]
  split
  · exact hnone
  split
  · exact hnone
  rw [hkept]
  exact pruneExpired_keeps_none hnone order now

theorem handle_terminated (hend : state.status ≠ .running) (input : ObservationInput) :
    (state.handle input).2.status ≠ .running := by
  cases input with
  | connectionEstablished order peerId connectionId now =>
    simpa only [handle, connectionEstablished, if_pos hend] using hend
  | connectionClosed order peerId connectionId now =>
    simpa only [handle, connectionClosed, if_pos hend] using hend
  | authenticated order domainId peer now =>
    simpa only [handle, authenticated, if_pos hend, ite_self] using hend
  | expire order now => exact hend
  | terminate order status =>
    simpa only [handle, terminate, if_pos hend] using hend

theorem observe_terminated {inputs : List ObservationInput} (hend : state.status ≠ .running) :
    (observe inputs state).2.status ≠ .running := by
  induction inputs generalizing state with
  | nil => exact hend
  | cons input inputs ih => exact ih (handle_terminated hend input)

theorem terminate_ends (state : ObservationState) (order : List ObservationKey)
    {status : NodeObservationStatus} (hstat : status ≠ .running) :
    (state.terminate order status).2.status ≠ .running := by
  by_cases hend : state.status ≠ .running
  · simpa only [terminate, if_pos hend] using hend
  · cases status with
    | running => exact absurd rfl hstat
    | stopped => simp [terminate, hend]
    | failed reason => simp [terminate, hend]

variable (inputs : List ObservationInput)

/-- The events published by a sequence of transitions. -/
def published : List NodeObservationEvent :=
  (observe inputs new).1

/-- The state reached by a sequence of transitions. -/
def reached : ObservationState :=
  (observe inputs new).2

theorem publishes_reached : Publishes new (published inputs) (reached inputs) :=
  publishes_observe valid_new inputs

theorem reached_append (before : List ObservationInput) (input : ObservationInput)
    (after : List ObservationInput) :
    reached (before ++ input :: after) = (observe after ((reached before).handle input).2).2 := by
  rw [reached, observe_append]
  rfl

theorem observation_new : new.observation = fun _ => none := by
  funext key
  simp [observation, new]

theorem subscriberView_published :
    subscriberView (published inputs) = (reached inputs).observation := by
  rw [subscriberView, ← observation_new]
  exact (publishes_reached inputs).replayed

theorem Valid.view_iff (hvalid : Valid state) (order : List ObservationKey) (key : ObservationKey)
    (observation : AuthenticatedPeerObservation) :
    state.observation key = some observation ↔
      observation ∈ state.currentPeers order ∧ observation.key = key := by
  rw [mem_currentPeers hvalid]
  constructor
  · intro hobs
    have hkey := hvalid.key_of_observation hobs
    rw [hkey]
    exact ⟨hobs, rfl⟩
  · rintro ⟨hobs, rfl⟩
    exact hobs

end ObservationState

open ObservationState in
/-- A subscriber that applies every event holds exactly the peers of a snapshot. -/
theorem observation_events_match_snapshots (inputs : List ObservationInput) :
    (∀ order key observation, subscriberView (published inputs) key = some observation ↔
        observation ∈ (reached inputs).currentPeers order ∧ observation.key = key) ∧
    (∀ order now key observation,
      subscriberView (published inputs ++ ((reached inputs).snapshot order now).2.1) key =
          some observation ↔
        observation ∈ ((reached inputs).snapshot order now).1.peers ∧ observation.key = key) ∧
    (∀ order now, (((reached inputs).snapshot order now).1.peers.map
      AuthenticatedPeerObservation.key).Nodup) ∧
    (∀ (earlier : List NodeObservationEvent) event (later : List NodeObservationEvent),
      published inputs = earlier ++ event :: later →
      (∀ observation, event = .appeared observation →
        subscriberView earlier observation.key = none) ∧
      (∀ observation, event = .updated observation →
        subscriberView earlier observation.key ≠ none) ∧
      ∀ peerId domainId reason, event = .disappeared peerId domainId reason →
        subscriberView earlier ⟨peerId, domainId⟩ ≠ none) ∧
    (∀ key, subscriberView (published inputs) key ≠ none →
      (reached inputs).connected key.peerId = true) ∧
    (∀ (before : List ObservationInput) order domainId peer now (after : List ObservationInput),
      inputs = before ++ .authenticated order domainId peer now :: after →
      (reached before).connected peer.peerId = false →
      (∀ input ∈ after, ¬ input.Authenticates ⟨peer.peerId, domainId⟩) →
      subscriberView (published inputs) ⟨peer.peerId, domainId⟩ = none) ∧
    (∀ (before : List ObservationInput) order status (after : List ObservationInput),
      inputs = before ++ .terminate order status :: after →
      status ≠ .running → ∀ order now, ((reached inputs).snapshot order now).1.peers = []) := by
  have hreached := publishes_reached inputs
  have hsnapshot : ∀ order now,
      subscriberView (published inputs ++ ((reached inputs).snapshot order now).2.1) =
        ((reached inputs).snapshot order now).2.2.observation ∧
      Valid ((reached inputs).snapshot order now).2.2 := by
    intro order now
    have hprune := publishes_pruneExpired hreached.valid order now
    refine ⟨?_, hprune.valid⟩
    rw [subscriberView, ← observation_new]
    exact (hreached.append hprune).replayed
  refine ⟨?_, ?_, ?_, ?_, ?_, ?_, ?_⟩
  · intro order key observation
    rw [subscriberView_published]
    exact hreached.valid.view_iff order key observation
  · intro order now key observation
    obtain ⟨hview, hvalid⟩ := hsnapshot order now
    rw [hview]
    exact hvalid.view_iff order key observation
  · intro order now
    exact nodup_currentPeers (hsnapshot order now).2 order
  · intro earlier event later hsplit
    have hlegal : ∀ change, event.change = some change →
        change.Admissible (subscriberView earlier) := by
      intro change hchange
      rw [subscriberView, ← observation_new]
      apply hreached.legal (announced earlier) change (announced later)
      rw [hsplit, announced_append]
      simp [announced, hchange]
    refine ⟨?_, ?_, ?_⟩
    · rintro observation rfl
      exact hlegal _ rfl
    · rintro observation rfl
      exact hlegal _ rfl
    · rintro peerId domainId reason rfl
      exact hlegal _ rfl
  · intro key hkey
    rw [subscriberView_published, hreached.valid.observation_eq] at hkey
    cases hpeer : (reached inputs).authentications[key]? with
    | none =>
      rw [hpeer] at hkey
      exact absurd rfl hkey
    | some peer => exact (hreached.valid.keyed key peer hpeer).2
  · rintro before order domainId peer now after rfl hdisconnected hlater
    have hnone : ((reached before).handle
        (.authenticated order domainId peer now)).2.authentications[
          (⟨peer.peerId, domainId⟩ : ObservationKey)]? = none :=
      authenticated_disconnected (publishes_reached before).valid hdisconnected
    rw [subscriberView_published, hreached.valid.observation_eq, reached_append,
      observe_keeps_none hnone hlater]
    rfl
  · rintro before order status after rfl hstatus order' now
    have hended : (reached (before ++ .terminate order status :: after)).status ≠ .running := by
      rw [reached_append]
      exact observe_terminated (terminate_ends _ order hstatus)
    rw [eq_nil_iff_forall_not_mem]
    intro observation hobservation
    have hvalid := (hsnapshot order' now).2
    have hfound := (mem_currentPeers hvalid).mp hobservation
    rw [hvalid.observation_eq, hvalid.terminated hended] at hfound
    cases hfound

def sampleAuthenticatedPeer : AuthenticatedPeer :=
  ⟨samplePeer 2, "subject", none, [5], [], none, 100⟩

def sampleObservationInputs : List ObservationInput :=
  [.connectionEstablished [] (samplePeer 2) 1 10,
    .authenticated [] 5 sampleAuthenticatedPeer 11, .connectionClosed [] (samplePeer 2) 1 12]

/-- An authentication repeated after the closure shows no record. -/
theorem observation_events_match_snapshots_sample :
    (ObservationState.published sampleObservationInputs).length = 2 ∧
    (ObservationState.reached sampleObservationInputs).connected (samplePeer 2) = false ∧
    subscriberView (ObservationState.published (sampleObservationInputs ++
      .authenticated [] 5 sampleAuthenticatedPeer 13 ::
        [.connectionEstablished [] (samplePeer 2) 2 14])) ⟨samplePeer 2, 5⟩ = none := by
  have hclosed : (ObservationState.reached sampleObservationInputs).connected
      (samplePeer 2) = false := by
    decide +kernel
  refine ⟨by decide +kernel, hclosed, ?_⟩
  obtain ⟨-, -, -, -, -, hlate, -⟩ := observation_events_match_snapshots
    (sampleObservationInputs ++ .authenticated [] 5 sampleAuthenticatedPeer 13 ::
      [.connectionEstablished [] (samplePeer 2) 2 14])
  apply hlate sampleObservationInputs [] 5 sampleAuthenticatedPeer 13 _ rfl hclosed
  simp [ObservationInput.Authenticates]

end AukiSdk.Transport
