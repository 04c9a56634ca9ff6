import AukiSdk.Foundation.SortedUnique
import AukiSdk.Discovery.Publisher

/-!
# The advertisement follows the local state

The last successful request advertises the current routes and protocols.
-/

namespace AukiSdk.Discovery

open AukiSdk.Foundation Option
open AukiSdk.Net
open AukiSdk.Relay
open AukiSdk.Routing

/-- The request advertises exactly these routes, in canonical form, and protocols. -/
def DdsTrackerClient.Advertises (client : DdsTrackerClient) (snapshot : RouteSnapshot)
    (served : List String) : DdsRequest → Prop
  | .delete => currentAddresses snapshot = []
  | .put routes protocols =>
    (∀ route, route ∈ routes ↔ ∃ current ∈ currentAddresses snapshot,
      canonicalizeRoute client.otherLength client.localPeerId "publish" current = .ok route) ∧
    ∀ protocol, protocol ∈ protocols ↔ protocol ∈ served

variable {routes : List Multiaddr}

theorem mem_sortedUniqueRoutes_iff {route : Multiaddr} :
    route ∈ sortedUniqueRoutes routes ↔ route ∈ routes :=
  ⟨mem_of_mem_sortedUniqueRoutes, mem_sortedUniqueRoutes⟩

variable {operation : String}

theorem mem_canonicalizeRoutes {otherLength : String → ℕ} {peer : PeerId}
    {canonical : List Multiaddr}
    (hcan : canonicalizeRoutes otherLength peer routes operation = .ok canonical)
    (route : Multiaddr) :
    route ∈ canonical ↔
      ∃ current ∈ routes, canonicalizeRoute otherLength peer operation current = .ok route := by
  rw [canonicalizeRoutes] at hcan
  split at hcan
  · cases hcan
  · cases hmap : routes.mapM (canonicalizeRoute otherLength peer operation) with
    | error error => rw [hmap] at hcan; cases hcan
    | ok found =>
      rw [hmap] at hcan
      obtain rfl : sortedUniqueRoutes found = canonical := Except.ok.inj hcan
      rw [mem_sortedUniqueRoutes_iff]
      constructor
      · exact exists_of_mem_mapM_ok hmap
      · rintro ⟨current, hcur, hrt⟩
        obtain ⟨result, hm, hres⟩ := exists_mapM_ok_of_mem hmap hcur
        obtain rfl : result = route := Except.ok.inj (hres.symm.trans hrt)
        exact hm

theorem validateProtocol_ok {value stored : String}
    (hst : validateProtocol value operation = .ok stored) :
    stored = value ∧ isApplicationProtocol value = true := by
  rw [validateProtocol] at hst
  split at hst
  · cases hst
  next hval =>
    push Not at hval
    exact ⟨(Except.ok.inj hst).symm, hval.2⟩

theorem mem_canonicalizeProtocols {protocols canonical : List String}
    (hcan : canonicalizeProtocols protocols operation = .ok canonical) (protocol : String) :
    protocol ∈ canonical ↔ protocol ∈ protocols := by
  rw [canonicalizeProtocols] at hcan
  split at hcan
  · cases hcan
  · cases hmap : protocols.mapM (validateProtocol · operation) with
    | error error => rw [hmap] at hcan; cases hcan
    | ok found =>
      rw [hmap] at hcan
      obtain rfl := Except.ok.inj hcan
      have huniq : protocol ∈ sortedUnique found ↔ protocol ∈ found := mem_sortedUnique
      refine huniq.trans ⟨fun hm => ?_, fun hm => ?_⟩
      · obtain ⟨input, hinp, hres⟩ := exists_of_mem_mapM_ok hmap hm
        exact (validateProtocol_ok hres).1 ▸ hinp
      · obtain ⟨result, hres, hval⟩ := exists_mapM_ok_of_mem hmap hm
        exact (validateProtocol_ok hval).1 ▸ hres

theorem publishRequest_ok {client : DdsTrackerClient} {served : List String} {request : DdsRequest}
    (hreq : client.publishRequest routes served = .ok request) :
    routes ≠ [] ∧ ∃ canonical protocols, request = .put canonical protocols ∧
      canonicalizeRoutes client.otherLength client.localPeerId routes "publish" =
        .ok canonical ∧
      canonicalizeProtocols served "publish" = .ok protocols := by
  obtain ⟨canonical, hcan, hrest⟩ := Checks.bind_eq_ok.mp hreq
  split at hrest
  · cases hrest
  · rename_i hnon
    obtain ⟨protocols, hpro, hbody⟩ := Checks.bind_eq_ok.mp hrest
    refine ⟨?_, canonical, protocols, ?_, hcan, hpro⟩
    · rintro rfl
      cases hcan
      exact hnon rfl
    · split at hbody
      · cases hbody
      · split at hbody
        · cases hbody
        · exact (Except.ok.inj hbody).symm

namespace Publisher

/-- What the publisher would send for the current routes and protocols. -/
def currentRequest (client : DdsTrackerClient) (state : Publisher) :
    Except InvalidResponse DdsRequest :=
  match nativeRoutes state.snapshot with
  | .error error => .error error
  | .ok routes =>
    if routes.isEmpty then .ok .delete else client.publishRequest routes state.served

theorem advertises_currentRequest {client : DdsTrackerClient} {state : Publisher}
    {request : DdsRequest} (hreq : state.currentRequest client = .ok request) :
    ∃ snapshot, state.snapshot = .ok snapshot ∧
      client.Advertises snapshot state.served request := by
  unfold currentRequest at hreq
  cases hsnap : state.snapshot with
  | error error => rw [hsnap] at hreq; cases hreq
  | ok snapshot =>
    refine ⟨snapshot, rfl, ?_⟩
    rw [hsnap] at hreq
    dsimp only [nativeRoutes] at hreq
    split at hreq
    · rename_i hemp
      obtain rfl := Except.ok.inj hreq
      refine List.eq_nil_iff_forall_not_mem.mpr fun route hrt => ?_
      have hm := mem_sortedUniqueRoutes hrt
      rw [List.isEmpty_iff.mp hemp] at hm
      cases hm
    · obtain ⟨_, canonical, protocols, rfl, hcan, hpro⟩ := publishRequest_ok hreq
      refine ⟨fun route => ?_, mem_canonicalizeProtocols hpro⟩
      rw [mem_canonicalizeRoutes hcan]
      simp only [mem_sortedUniqueRoutes_iff]

/-- Every change of the routes was notified and seen. -/
def RoutesQuiet (state : Publisher) : Prop :=
  state.inFlight = 0 ∧ state.routeUpdates.unseen = false

def ProtocolsQuiet (state : Publisher) : Prop := state.protocolUpdates.unseen = false

/-- The round publishes what the publisher read since the last notification. -/
structure ReadBy (state : Publisher) (round : Round) : Prop where
  routes : state.RoutesQuiet → nativeRoutes state.snapshot = .ok round.routes
  protocols : state.ProtocolsQuiet → state.served = round.protocols
  nonempty : round.starting = false → round.routes ≠ []

def PhaseSound (client : DdsTrackerClient) (state : Publisher) : PublisherPhase → Prop
  | .subscribingRoutes | .subscribingProtocols => state.requests = []
  | .readingRoutes starting => starting = true → state.requests = []
  | .readingProtocols routes starting =>
    (starting = false → routes ≠ []) ∧
      (state.RoutesQuiet → nativeRoutes state.snapshot = .ok routes)
  | .attempting round | .backingOff round | .sleeping round => state.ReadBy round
  | .sent request round =>
    state.ReadBy round ∧ client.publishRequest round.routes round.protocols = .ok request ∧
      state.requests.getLast? = some request
  | .selecting _ =>
    state.RoutesQuiet → state.ProtocolsQuiet → ∀ request,
      state.currentRequest client = .ok request → state.requests.getLast? = some request
  | .withdrawing reason =>
    reason = .routeLoss → state.RoutesQuiet → nativeRoutes state.snapshot = .ok []
  | .withdrawn reason =>
    state.requests.getLast? = some .delete ∧
      (reason = .routeLoss → state.RoutesQuiet → nativeRoutes state.snapshot = .ok [])
  | .ended => state.requests.getLast? = some .delete
  | .failed => state.requests = [] ∨ state.requests.getLast? = some .delete

structure Sound (client : DdsTrackerClient) (state : Publisher) : Prop where
  phase : state.PhaseSound client state.phase
  register : state.lastSucceeded = true →
    ∃ request, state.requests.getLast? = some request ∧ state.register = request.effect
  uncancelled : state.cancelled = true → state.phase.starting = false

variable {client : DdsTrackerClient} {state next : Publisher}

theorem Sound.start (snapshot : Except RouteCatalogError RouteSnapshot) (served : List String)
    (stopped : Bool) : (start snapshot served stopped).Sound client :=
  ⟨rfl, fun hlast => (by cases hlast), fun hcanc => (by cases hcanc)⟩

/-- The local state changes only with a notification that is not yet seen. -/
structure Unseen (state next : Publisher) : Prop where
  routes : next.RoutesQuiet → state.RoutesQuiet ∧ next.snapshot = state.snapshot
  protocols : next.ProtocolsQuiet → state.ProtocolsQuiet ∧ next.served = state.served
  requests : next.requests = state.requests

variable {round : Round}

theorem ReadBy.frame (hread : state.ReadBy round) (huns : Unseen state next) :
    next.ReadBy round where
  routes hqui := by
    obtain ⟨hpre, hsnap⟩ := huns.routes hqui
    rw [hsnap]
    exact hread.routes hpre
  protocols hqui := by
    obtain ⟨hpre, hser⟩ := huns.protocols hqui
    rw [hser]
    exact hread.protocols hpre
  nonempty := hread.nonempty

theorem PhaseSound.frame {phase : PublisherPhase} (hp : state.PhaseSound client phase)
    (huns : Unseen state next) : next.PhaseSound client phase := by
  have hrts {routes : List Multiaddr}
      (hread : state.RoutesQuiet → nativeRoutes state.snapshot = .ok routes)
      (hqui : next.RoutesQuiet) : nativeRoutes next.snapshot = .ok routes := by
    obtain ⟨hpre, hsnap⟩ := huns.routes hqui
    rw [hsnap]
    exact hread hpre
  cases phase with
  | subscribingRoutes | subscribingProtocols => exact huns.requests.trans hp
  | readingRoutes starting => exact fun hbeg => huns.requests.trans (hp hbeg)
  | readingProtocols routes starting => exact ⟨hp.1, hrts hp.2⟩
  | attempting round | backingOff round | sleeping round => exact ReadBy.frame hp huns
  | sent request round =>
    exact ⟨hp.1.frame huns, hp.2.1, by rw [huns.requests]; exact hp.2.2⟩
  | selecting branch =>
    intro hqtR hqtP request hreq
    obtain ⟨hbfr, hsnap⟩ := huns.routes hqtR
    obtain ⟨hbef, hser⟩ := huns.protocols hqtP
    have hcur : state.currentRequest client = .ok request := by
      rw [← hreq, currentRequest, currentRequest, hsnap, hser]
    rw [huns.requests]
    exact hp hbfr hbef request hcur
  | withdrawing reason => exact fun hrsn => hrts (hp hrsn)
  | withdrawn reason =>
    exact ⟨by rw [huns.requests]; exact hp.1, fun hrsn => hrts (hp.2 hrsn)⟩
  | ended => rw [PhaseSound, huns.requests]; exact hp
  | failed => rw [PhaseSound, huns.requests]; exact hp

/-- Giving up keeps the invariant when the current request is the last or refused. -/
theorem Sound.giveUp {starting : Bool}
    (hset : starting = false → state.PhaseSound client (.selecting .cancellation))
    (hreg : state.lastSucceeded = true →
      ∃ request, state.requests.getLast? = some request ∧ state.register = request.effect)
    (hunc : state.cancelled = true → starting = false) :
    (state.giveUp starting).Sound client := by
  cases starting with
  | true =>
    exact ⟨fun hrsn => (by cases hrsn), hreg, fun hcanc =>
      (by cases hunc hcanc)⟩
  | false =>
    cases hcanc : state.cancelled with
    | true =>
      simp only [Publisher.giveUp, hcanc, Bool.false_eq_true, if_false, if_true]
      exact ⟨fun hrsn => (by cases hrsn), hreg, fun _ => rfl⟩
    | false =>
      simp only [Publisher.giveUp, hcanc, Bool.false_eq_true, if_false]
      exact ⟨hset rfl, hreg, fun _ => rfl⟩

theorem ReadBy.currentRequest (hread : state.ReadBy round) (hrts : state.RoutesQuiet)
    (hpro : state.ProtocolsQuiet) (hnon : round.routes ≠ []) :
    state.currentRequest client = client.publishRequest round.routes round.protocols := by
  rw [Publisher.currentRequest, hread.routes hrts, hread.protocols hpro]
  exact if_neg (mt List.isEmpty_iff.mp hnon)

theorem Sound.poll (hs : state.Sound client) {branch : SelectBranch}
    (hp : state.phase = .selecting branch) : (state.poll branch).Sound client := by
  have hsel : state.PhaseSound client (.selecting branch) := hp ▸ hs.phase
  cases branch with
  | cancellation =>
    unfold Publisher.poll
    dsimp only
    split
    · exact ⟨fun hrsn => (by cases hrsn), hs.register, fun _ => rfl⟩
    · exact ⟨hsel, hs.register, fun _ => rfl⟩
  | renewal => exact ⟨hsel, hs.register, fun _ => rfl⟩
  | routes | protocols =>
    unfold Publisher.poll
    dsimp only
    split
    · exact ⟨fun hbeg => (by cases hbeg), hs.register, fun _ => rfl⟩
    · exact ⟨fun hrsn => (by cases hrsn), hs.register, fun _ => rfl⟩
    · exact ⟨hsel, hs.register, fun _ => rfl⟩
  | authority =>
    unfold Publisher.poll
    dsimp only
    split
    · split
      · exact ⟨fun hrsn => (by cases hrsn), hs.register, fun _ => rfl⟩
      · exact ⟨fun hbeg => (by cases hbeg), hs.register, fun _ => rfl⟩
    · exact ⟨fun hrsn => (by cases hrsn), hs.register, fun _ => rfl⟩
    · exact ⟨hsel, hs.register, fun _ => rfl⟩

theorem Sound.attempt (hs : state.Sound client) (hp : state.phase = .attempting round)
    (hn : state.advance client = some next) :
    next.Sound client := by
  have hread : state.ReadBy round := by
    have hatt := hs.phase
    rwa [hp] at hatt
  have hbeg := hs.uncancelled
  rw [hp] at hbeg
  unfold Publisher.advance at hn
  rw [hp] at hn
  dsimp only at hn
  cases hreq : client.publishRequest round.routes round.protocols with
  | error error =>
    rw [hreq] at hn
    obtain rfl := some.inj hn
    refine Sound.giveUp (fun hrun => ?_) hs.register hbeg
    intro hrts hpro request hcur
    have hsm : state.currentRequest client = client.publishRequest round.routes round.protocols :=
      hread.currentRequest hrts hpro (hread.nonempty hrun)
    cases hreq.symm.trans (hsm.symm.trans hcur)
  | ok request =>
    rw [hreq] at hn
    obtain rfl := some.inj hn
    refine ⟨⟨⟨hread.routes, hread.protocols, hread.nonempty⟩, hreq, ?_⟩,
      fun hlast => (by cases hlast), hbeg⟩
    exact List.getLast?_concat

theorem Sound.advance (hs : state.Sound client) (hn : state.advance client = some next) :
    next.Sound client := by
  have hp := hs.phase
  have hbeg := hs.uncancelled
  cases hcase : state.phase with
  | attempting round => exact hs.attempt hcase hn
  | selecting branch =>
    unfold Publisher.advance at hn
    rw [hcase] at hn
    obtain rfl := some.inj hn
    exact hs.poll hcase
  | subscribingRoutes | subscribingProtocols =>
    unfold Publisher.advance at hn
    rw [hcase] at hn hp hbeg
    obtain rfl := some.inj hn
    exact ⟨by simpa [PhaseSound] using hp, hs.register, hbeg⟩
  | readingRoutes starting =>
    unfold Publisher.advance at hn
    rw [hcase] at hn hp hbeg
    dsimp only at hn
    cases hrts : nativeRoutes state.snapshot with
    | error error =>
      rw [hrts] at hn
      obtain rfl := some.inj hn
      cases starting with
      | true => exact ⟨Or.inl (hp rfl), hs.register, hbeg⟩
      | false =>
        refine ⟨fun _ _ request hcur => ?_, hs.register, fun _ => rfl⟩
        unfold Publisher.currentRequest at hcur
        dsimp only at hcur
        rw [hrts] at hcur
        cases hcur
    | ok routes =>
      rw [hrts] at hn
      dsimp only at hn
      split at hn
      · rename_i hemp
        obtain rfl := some.inj hn
        refine ⟨fun _ _ => ?_, hs.register, fun _ => rfl⟩
        exact hrts.trans (congrArg _ (List.isEmpty_iff.mp hemp.1))
      · rename_i hkept
        obtain rfl := some.inj hn
        refine ⟨⟨fun hrun hemp => ?_, fun _ => hrts⟩, hs.register, hbeg⟩
        exact hkept ⟨List.isEmpty_iff.mpr hemp, hrun⟩
  | readingProtocols routes starting =>
    unfold Publisher.advance at hn
    rw [hcase] at hn hp hbeg
    obtain rfl := some.inj hn
    exact ⟨⟨hp.2, fun _ => rfl, hp.1⟩, hs.register, hbeg⟩
  | backingOff round =>
    unfold Publisher.advance at hn
    rw [hcase] at hn hp hbeg
    dsimp only at hn
    split at hn
    · obtain rfl := some.inj hn
      exact ⟨fun hrsn => (by cases hrsn), hs.register, fun _ => rfl⟩
    · obtain rfl := some.inj hn
      have hread : state.ReadBy round := hp
      exact ⟨⟨hread.routes, hread.protocols, hread.nonempty⟩, hs.register, hbeg⟩
  | sleeping round =>
    unfold Publisher.advance at hn
    rw [hcase] at hn hp hbeg
    obtain rfl := some.inj hn
    have hread : state.ReadBy round := hp
    exact ⟨⟨hread.routes, hread.protocols, hread.nonempty⟩, hs.register, hbeg⟩
  | withdrawing reason =>
    unfold Publisher.advance at hn
    rw [hcase] at hn hp hbeg
    obtain rfl := some.inj hn
    exact ⟨⟨List.getLast?_concat, hp⟩, fun hlast => (by cases hlast), hbeg⟩
  | sent request round =>
    unfold Publisher.advance at hn
    rw [hcase] at hn
    cases hn
  | withdrawn reason =>
    unfold Publisher.advance at hn
    rw [hcase] at hn
    cases hn
  | ended | failed =>
    unfold Publisher.advance at hn
    rw [hcase] at hn
    cases hn

theorem receive_register {request : DdsRequest}
    (hlast : state.requests.getLast? = some request) (outcome : RequestOutcome) (applied : Bool)
    (hsuc : (state.receive request outcome applied).lastSucceeded = true) :
    ∃ last, (state.receive request outcome applied).requests.getLast? = some last ∧
      (state.receive request outcome applied).register = last.effect := by
  have hout : outcome = .succeeded := of_decide_eq_true hsuc
  exact ⟨request, hlast, if_pos (Or.inr hout)⟩

theorem Sound.answer (hs : state.Sound client) {outcome : RequestOutcome} {applied : Bool}
    (hn : state.answer outcome applied = some next) : next.Sound client := by
  have hp := hs.phase
  have hbeg := hs.uncancelled
  unfold Publisher.answer at hn
  split at hn
  · rename_i request round hcase
    rw [hcase] at hp hbeg
    obtain ⟨hread, hreq, hlast⟩ := hp
    have hrecv := receive_register hlast outcome applied
    have hsel : (state.receive request outcome applied).PhaseSound client
        (.selecting .cancellation) := by
      intro hrts hpro current hcur
      have hsm : state.currentRequest client = client.publishRequest round.routes round.protocols :=
        hread.currentRequest hrts hpro (publishRequest_ok hreq).1
      have hcur : state.currentRequest client = .ok current := hcur
      rw [hsm, hreq] at hcur
      rw [← Except.ok.inj hcur]
      exact hlast
    dsimp only at hn
    split at hn
    · obtain rfl := some.inj hn
      exact ⟨hsel, hrecv, fun _ => rfl⟩
    · split at hn
      · rename_i retry following hfollowing
        obtain rfl := some.inj hn
        unfold Round.next at hfollowing
        split at hfollowing
        · obtain rfl := some.inj hfollowing
          exact ⟨⟨hread.routes, hread.protocols, hread.nonempty⟩, hrecv, hbeg⟩
        · cases hfollowing
      · obtain rfl := some.inj hn
        exact Sound.giveUp (fun _ => hsel) hrecv hbeg
  · rename_i reason hcase
    rw [hcase] at hp hbeg
    obtain ⟨hlast, hrts⟩ := hp
    have hrecv := receive_register hlast outcome applied
    obtain rfl := some.inj hn
    cases reason with
    | startup =>
      exact ⟨Or.inr hlast, hrecv, hbeg⟩
    | routeLoss =>
      refine ⟨fun hqui _ request hcur => ?_, hrecv, fun _ => rfl⟩
      have hemp : nativeRoutes state.snapshot = .ok [] := hrts rfl hqui
      have hcur : state.currentRequest client = .ok request := hcur
      rw [Publisher.currentRequest, hemp] at hcur
      rw [← Except.ok.inj hcur]
      exact hlast
    | ending => exact ⟨hlast, hrecv, fun _ => rfl⟩
  · cases hn

theorem Sound.frame (hs : state.Sound client) (huns : Unseen state next)
    (hp : next.phase = state.phase) (hlast : next.lastSucceeded = state.lastSucceeded)
    (hreg : next.register = state.register)
    (hunc : next.cancelled = true → state.phase.starting = false) :
    next.Sound client where
  phase := by
    rw [hp]
    exact hs.phase.frame huns
  register := by
    rw [hlast, huns.requests, hreg]
    exact hs.register
  uncancelled := by
    rw [hp]
    exact hunc

theorem Sound.step (hs : state.Sound client) {action : PublisherAction}
    (hn : step client state action = some next) : next.Sound client := by
  have hrefl : Unseen state state := ⟨fun h => ⟨h, rfl⟩, fun h => ⟨h, rfl⟩, rfl⟩
  cases action with
  | advance => exact hs.advance hn
  | answer outcome applied => exact hs.answer hn
  | changeRoutes snapshot =>
    obtain rfl := some.inj hn
    refine hs.frame ⟨fun hqui => ?_, fun h => ⟨h, rfl⟩, rfl⟩ rfl rfl rfl
      hs.uncancelled
    exact absurd hqui.1 (Nat.succ_ne_zero _)
  | notifyRoutes =>
    unfold Publisher.step at hn
    dsimp only at hn
    split at hn
    · cases hn
    · obtain rfl := some.inj hn
      exact hs.frame ⟨fun hqui => (by cases hqui.2), fun h => ⟨h, rfl⟩, rfl⟩ rfl rfl
        rfl hs.uncancelled
  | serve protocols =>
    unfold Publisher.step at hn
    dsimp only at hn
    split at hn
    · cases hn
    · obtain rfl := some.inj hn
      exact hs.frame ⟨fun h => ⟨h, rfl⟩, fun hqui => (by cases hqui), rfl⟩ rfl rfl
        rfl hs.uncancelled
  | report stopped =>
    unfold Publisher.step at hn
    dsimp only at hn
    split at hn
    · cases hn
    · obtain rfl := some.inj hn
      exact hs.frame ⟨fun h => ⟨h, rfl⟩, fun h => ⟨h, rfl⟩, rfl⟩ rfl rfl rfl
        hs.uncancelled
  | loseRoutes | loseProtocols | loseAuthority =>
    obtain rfl := some.inj hn
    exact hs.frame ⟨fun h => ⟨h, rfl⟩, fun h => ⟨h, rfl⟩, rfl⟩ rfl rfl rfl
      hs.uncancelled
  | cancel =>
    unfold Publisher.step at hn
    dsimp only at hn
    split at hn
    · cases hn
    · rename_i hrun
      obtain rfl := some.inj hn
      exact hs.frame ⟨fun h => ⟨h, rfl⟩, fun h => ⟨h, rfl⟩, rfl⟩ rfl rfl rfl
        fun _ => Bool.eq_false_of_not_eq_true hrun
  | renew =>
    unfold Publisher.step at hn
    dsimp only at hn
    split at hn
    · obtain rfl := some.inj hn
      exact ⟨fun hbeg => (by cases hbeg), hs.register, fun _ => rfl⟩
    · cases hn
  | timer =>
    have hp := hs.phase
    have hbeg := hs.uncancelled
    unfold Publisher.step at hn
    dsimp only at hn
    split at hn
    · rename_i following hcase
      rw [hcase] at hp hbeg
      obtain rfl := some.inj hn
      have hread : state.ReadBy following := hp
      exact ⟨⟨hread.routes, hread.protocols, hread.nonempty⟩, hs.register, hbeg⟩
    · cases hn

end Publisher

end AukiSdk.Discovery
