import AukiSdk.Routing.CatalogInvariant

/-!
# Revisions stand for content

Publication commits compare revisions only.
-/

namespace AukiSdk.Routing

open AukiSdk.Foundation List
open AukiSdk.Net
open AukiSdk.Relay
open Std (ExtTreeMap)

variable {config : RouteCatalogConfig} {now : DateTime} {state expired next : RouteState}

/-- A published route without its deadline. -/
structure RouteContent where
  fence : RouteFence
  relayPeerId : PeerId
  routes : RelayCircuitRoutes
  limits : ExpectedRelayLimits
  deriving DecidableEq

def PublishedRoute.content (route : PublishedRoute) : RouteContent :=
  ⟨route.fence, route.relayPeerId, route.routes, route.limits⟩

/-- The content of a snapshot: everything but revision and deadlines. -/
def RouteSnapshot.content (snapshot : RouteSnapshot) : List Multiaddr × List RouteContent :=
  (snapshot.directRoutes, snapshot.relayRoutes.map PublishedRoute.content)

/-- Content of an entry that is flagged publishable. -/
def StoredRelayRoute.content (route : StoredRelayRoute) : Option RouteContent :=
  if route.publishable then some route.published.content else none

/-- The content a state publishes. -/
def RouteState.content (state : RouteState) : List Multiaddr × List RouteContent :=
  (state.directRoutes, state.values.filterMap StoredRelayRoute.content)

/-- The revision does not decrease, and it moves when the content does. -/
def RouteState.Advances (state next : RouteState) : Prop :=
  state.revision ≤ next.revision ∧
    (state.revision = next.revision → state.content = next.content)

theorem RouteState.Advances.refl (state : RouteState) : state.Advances state :=
  ⟨le_rfl, fun _ => rfl⟩

theorem RouteState.Advances.trans {first second third : RouteState}
    (hfst : first.Advances second) (hsnd : second.Advances third) :
    first.Advances third := by
  refine ⟨hfst.1.trans hsnd.1, fun heq => ?_⟩
  have hmid : first.revision = second.revision := le_antisymm hfst.1 (hsnd.1.trans heq.ge)
  exact (hfst.2 hmid).trans (hsnd.2 (hmid ▸ heq))

theorem RouteState.Advances.of_lt (hlt : state.revision < next.revision) : state.Advances next :=
  ⟨hlt.le, fun heq => absurd heq hlt.ne⟩

theorem RouteState.Advances.of_lookup (hrev : state.revision ≤ next.revision)
    (hdir : state.directRoutes = next.directRoutes)
    (hlook : ∀ key : Uuid, state.relayRoutes[key]?.bind StoredRelayRoute.content =
      next.relayRoutes[key]?.bind StoredRelayRoute.content) : state.Advances next := by
  refine ⟨hrev, fun _ => ?_⟩
  rw [content, content, hdir, values, values, FiniteMap.filterMap_values_congr hlook]

theorem RouteState.Advances.expire (hkey : state.Keyed)
    (hexp : state.expireAuthorizations now = .ok expired) : state.Advances expired := by
  obtain ⟨-, hrev, -⟩ := RouteState.expireAuthorizations_ok hkey hexp
  by_cases hlap : state.lapsedCount now = 0
  · rw [RouteState.expireAuthorizations_of_lapsedCount_eq_zero hkey hexp hlap]
    exact .refl state
  · exact .of_lt (by omega)

theorem RouteState.Change.advances (hchg : state.Change config now next) : state.Advances next := by
  cases hchg with
  | kept => exact .refl state
  | direct raw directRoutes hval hcap => exact .of_lt (Nat.lt_succ_self _)
  | stored route htcp hwss hauth hslot hcap =>
    by_cases hpubl : state.relayRoutes[route.fence.routeId]?.any
        StoredRelayRoute.publishable = true
    · obtain ⟨existing, hexi, hflag⟩ := (Option.any_eq_true _ _).mp hpubl
      obtain ⟨hfnc, hrly, -, hrts, hlim⟩ := checkSlot_existing hexi hslot
      refine .of_lookup (Nat.le_add_right _ _) rfl fun key => ?_
      simp only [FiniteMap.getElem?_insert]
      split
      · rename_i heq
        have hflag' : route.publishable = true := by
          simp only [StoredRelayRoute.isConfirmed, Bool.and_eq_true] at hauth
          exact hauth.1
        rw [heq, hexi]
        simp [StoredRelayRoute.content, hflag, hflag', PublishedRoute.content,
          StoredRelayRoute.published, hfnc, hrly, hrts, hlim]
      · rfl
    · exact .of_lt (by simp [hpubl])
  | refreshed key entry authorizedUntil hent hcap =>
    by_cases hflag : entry.publishable = decide (now < authorizedUntil)
    · refine .of_lookup (Nat.le_add_right _ _) rfl fun other => ?_
      simp only [FiniteMap.getElem?_modify]
      split
      · rename_i heq
        rw [heq, hent]
        simp [StoredRelayRoute.content, refreshEntry, hflag, PublishedRoute.content,
          StoredRelayRoute.published]
      · rfl
    · exact .of_lt (by simp [hflag])
  | removed key entry hent =>
    by_cases hflag : entry.publishable = true
    · exact .of_lt (by simp [hflag])
    · refine .of_lookup (Nat.le_add_right _ _) rfl fun other => ?_
      simp only [FiniteMap.getElem?_erase]
      split
      · rename_i heq
        rw [heq, hent]
        simp [StoredRelayRoute.content, hflag]
      · rfl
  | cleared =>
    by_cases hfla : state.flaggedCount = 0
    · refine .of_lookup (Nat.le_add_right _ _) rfl fun key => ?_
      cases hst : state.relayRoutes[key]? with
      | none => simp
      | some route =>
        have hflag := FiniteMap.count_eq_zero_iff.mp hfla key route hst
        simp [StoredRelayRoute.content, hflag]
    · exact .of_lt (by simpa using Nat.pos_of_ne_zero hfla)

theorem RouteState.Unlapsed.change (hunl : state.Unlapsed now)
    (hchg : state.Change config now next) : next.Unlapsed now := by
  intro key route hrt
  cases hchg with
  | kept => exact hunl _ _ hrt
  | direct => exact hunl key route hrt
  | stored stored _ _ hauth =>
    simp only [FiniteMap.getElem?_insert] at hrt
    split at hrt
    · cases hrt
      simp only [StoredRelayRoute.isConfirmed, StoredRelayRoute.isExpired] at hauth ⊢
      grind
    · exact hunl _ _ hrt
  | refreshed changed entry authorizedUntil hent =>
    simp only [FiniteMap.getElem?_modify] at hrt
    split at hrt
    · rw [Option.map_eq_some_iff] at hrt
      obtain ⟨original, -, rfl⟩ := hrt
      simp only [StoredRelayRoute.isExpired, refreshEntry]
      grind
    · exact hunl _ _ hrt
  | removed erased entry hent =>
    simp only [FiniteMap.getElem?_erase] at hrt
    split at hrt
    · cases hrt
    · exact hunl _ _ hrt
  | cleared => simp at hrt

theorem RouteState.Unlapsed.content_routeSnapshot (hunl : state.Unlapsed now) :
    (state.routeSnapshot now).content = state.content := by
  have hrly : ((state.values.filter (StoredRelayRoute.isConfirmed now)).map
      StoredRelayRoute.published).map PublishedRoute.content =
      state.values.filterMap StoredRelayRoute.content := by
    rw [map_map, ← filterMap_eq_map, filterMap_filter]
    refine filterMap_congr fun route hrt => ?_
    simp only [values, mem_map, Prod.exists, ExtTreeMap.mem_toList_iff_getElem?_eq_some] at hrt
    obtain ⟨key, stored, hst, rfl⟩ := hrt
    rw [hunl.isConfirmed_eq hst]
    rfl
  simp only [routeSnapshot, RouteSnapshot.content, content, hrly]

theorem RouteState.perform_advances (config : RouteCatalogConfig) (hkey : state.Keyed)
    (now : DateTime) (call : RouteCall) :
    state.Advances (state.perform config now call).state ∧
      ∀ reply snapshot, (state.perform config now call).result = .ok reply →
        reply.shown = some snapshot →
        snapshot.revision = (state.perform config now call).state.revision ∧
          snapshot.content = (state.perform config now call).state.content := by
  have hpfs := RouteState.performs config now state call
  generalize state.perform config now call = outcome at hpfs
  cases hpfs with
  | unchanged error => exact ⟨.refl state, by simp [refuse]⟩
  | refused expired error hexp => exact ⟨.expire hkey hexp, by simp [refuse]⟩
  | silent expired reply hexp hshown =>
    refine ⟨.expire hkey hexp, ?_⟩
    intro reply snapshot hrep hsnap
    cases hrep
    rw [hshown snapshot hsnap]
    exact ⟨rfl, (unlapsed_expireAuthorizations hkey hexp).content_routeSnapshot⟩
  | sent expired next reply hexp hchg hshown =>
    refine ⟨(Advances.expire hkey hexp).trans hchg.advances, ?_⟩
    intro reply snapshot hrep hsnap
    cases hrep
    rw [hshown snapshot hsnap]
    exact ⟨rfl, ((unlapsed_expireAuthorizations hkey hexp).change hchg).content_routeSnapshot⟩

theorem RouteState.perform_error (hkey : state.Keyed) {now : DateTime} {call : RouteCall}
    {error : RouteCatalogError}
    (herr : (state.perform config now call).result = .error error) :
    (state.perform config now call).state = state ∨
      ((state.perform config now call).state.directRoutes = state.directRoutes ∧
        (state.perform config now call).state.revision = state.revision + state.lapsedCount now ∧
        ∀ key : Uuid, (state.perform config now call).state.relayRoutes[key]? =
          state.relayRoutes[key]?.map (StoredRelayRoute.expire now)) := by
  have hpfs := RouteState.performs config now state call
  generalize state.perform config now call = outcome at hpfs herr
  cases hpfs with
  | unchanged error => exact .inl rfl
  | refused expired error hexp => exact .inr (expireAuthorizations_ok hkey hexp)
  | silent => cases herr
  | sent => cases herr

/-- The callback of `commit_if_current` runs at the expected revision. -/
theorem RouteState.committed_revision {expectedRevision : ℕ}
    {expectedFences : List RouteFence} {snapshot : RouteSnapshot}
    (hcomm : (state.perform config now (.commitIfCurrent expectedRevision expectedFences)).result =
        .ok (.committed (some snapshot))) : snapshot.revision = expectedRevision := by
  simp only [perform, commitIfCurrent, locked, Locked.map] at hcomm
  split at hcomm
  · cases hcomm
  · split at hcomm
    · rename_i hcur
      cases hcomm
      exact hcur.1
    · cases hcomm

/-- The snapshot a label shows: the one returned, or the one handed to a commit
callback. -/
def RouteLabel.Shows (label : RouteLabel) (snapshot : RouteSnapshot) : Prop :=
  ∃ reply, label.result = .ok reply ∧ reply.shown = some snapshot

/-- Earlier snapshots are no newer, and equal at the same revision. -/
def SnapshotsAgree (history : List RouteLabel) (state : RouteState) : Prop :=
  ∀ label ∈ history, ∀ snapshot, label.Shows snapshot →
    snapshot.revision ≤ state.revision ∧
      (snapshot.revision = state.revision → snapshot.content = state.content)

variable {history : List RouteLabel}

theorem SnapshotsAgree.step {label : RouteLabel} (hagr : SnapshotsAgree history state)
    (hkey : state.Keyed) (hs : RouteStep config history state label next) :
    SnapshotsAgree (history ++ [label]) next := by
  obtain ⟨hadv, hshown⟩ := RouteState.perform_advances config hkey label.now label.call
  rw [hs] at hadv hshown
  intro earlier hpri snapshot hsho
  rcases mem_append.mp hpri with hpri | hlast
  · obtain ⟨hle, heq⟩ := hagr earlier hpri snapshot hsho
    refine ⟨hle.trans hadv.1, fun hsm => ?_⟩
    have hsta : snapshot.revision = state.revision := le_antisymm hle (hadv.1.trans hsm.ge)
    exact (heq hsta).trans (hadv.2 (hsta ▸ hsm))
  · cases mem_singleton.mp hlast
    obtain ⟨reply, hrep, hsnap⟩ := hsho
    obtain ⟨hrev, hcont⟩ := hshown reply snapshot hrep hsnap
    exact ⟨hrev.le, fun _ => hcont⟩

theorem RouteState.Advances.of_run {start : RouteState} (hwell : start.WellFormed config)
    (hrun : RouteRun config start history next) :
    start.Advances next ∧ next.WellFormed config := by
  refine hrun.invariant (fun _ state => start.Advances state ∧ state.WellFormed config)
    ⟨.refl start, hwell⟩ ?_
  rintro history state label next ⟨hadv, hsta⟩ hs
  have hn := (RouteState.perform_advances config hsta.keyed label.now label.call).1
  have hkept := hsta.perform label.now label.call
  rw [hs] at hn hkept
  exact ⟨hadv.trans hn, hkept⟩

theorem snapshotsAgree_of_run {directRoutes : List Multiaddr} {initial : RouteState}
    (hnew : RouteState.new config directRoutes = .ok initial)
    (hrun : RouteRun config initial history state) : SnapshotsAgree history state := by
  have hboth := hrun.invariant
    (fun history state => SnapshotsAgree history state ∧ state.WellFormed config)
    ⟨by simp [SnapshotsAgree], RouteState.wellFormed_new hnew⟩
    (by
      rintro history state label next ⟨hagr, hwell⟩ hs
      have hkept := hwell.perform label.now label.call
      rw [hs] at hkept
      exact ⟨hagr.step hwell.keyed hs, hkept⟩)
  exact hboth.1

theorem content_eq_of_revision_eq {directRoutes : List Multiaddr} {initial : RouteState}
    {before after : List RouteLabel} {label earlier : RouteLabel}
    {snapshot snapshot' : RouteSnapshot}
    (hnew : RouteState.new config directRoutes = .ok initial)
    (hrun : RouteRun config initial (before ++ label :: after) state)
    (hpri : earlier ∈ before) (hsho : earlier.Shows snapshot)
    (hshows' : label.Shows snapshot') (hrev : snapshot.revision = snapshot'.revision) :
    snapshot.content = snapshot'.content := by
  obtain ⟨source, target, hpre, hs, htgt⟩ := hrun.step_at
  have hkey := (RouteState.wellFormed_of_run hnew hpre).keyed
  obtain ⟨-, hagr⟩ := snapshotsAgree_of_run hnew htgt earlier
    (mem_append_left _ hpri) snapshot hsho
  have hshown := (RouteState.perform_advances config hkey label.now label.call).2
  rw [hs] at hshown
  obtain ⟨reply, hrep, hsnap⟩ := hshows'
  obtain ⟨hrevision', hcontent'⟩ := hshown reply snapshot' hrep hsnap
  rw [hcontent']
  exact hagr (hrev.trans hrevision')

/-- Equal revisions mean equal content, and refusals at most expire authorizations. -/
theorem revision_determines_content {directRoutes : List Multiaddr} {initial : RouteState}
    {history : List RouteLabel} (hnew : RouteState.new config directRoutes = .ok initial)
    (hrun : RouteRun config initial history state) :
    (∀ later next, RouteRun config state later next → state.revision ≤ next.revision) ∧
    (∀ (before : List RouteLabel) first (middle : List RouteLabel) second (after : List RouteLabel)
        snapshot snapshot',
      history = before ++ first :: middle ++ second :: after →
      first.Shows snapshot → second.Shows snapshot' →
      snapshot.revision = snapshot'.revision → snapshot.content = snapshot'.content) ∧
    (∀ (before : List RouteLabel) label (after : List RouteLabel) expectedRevision expectedFences
        committed,
      history = before ++ label :: after →
      label.call = .commitIfCurrent expectedRevision expectedFences →
      label.result = .ok (.committed (some committed)) →
      committed.revision = expectedRevision ∧
        ∀ earlier ∈ before, ∀ snapshot, earlier.Shows snapshot →
          snapshot.revision = expectedRevision → committed.content = snapshot.content) ∧
    (∀ now call error next status, state.perform config now call = ⟨.error error, next, status⟩ →
      next = state ∨ (next.directRoutes = state.directRoutes ∧
          next.revision = state.revision + state.lapsedCount now ∧
          ∀ key : Uuid, next.relayRoutes[key]? =
            state.relayRoutes[key]?.map (StoredRelayRoute.expire now))) := by
  have hwell := RouteState.wellFormed_of_run hnew hrun
  refine ⟨?_, ?_, ?_, ?_⟩
  · intro later next hlater
    exact (RouteState.Advances.of_run hwell hlater).1.1
  · rintro before first middle second after snapshot snapshot' rfl hshows hshows' hrevision
    exact content_eq_of_revision_eq hnew hrun (by simp) hshows hshows' hrevision
  · rintro before label after expectedRevision expectedFences committed rfl hcall hresult
    obtain ⟨source, target, -, hstep, -⟩ := hrun.step_at
    have hperformed : (source.perform config label.now
        (.commitIfCurrent expectedRevision expectedFences)).result =
          .ok (.committed (some committed)) := by
      rw [← hcall, hstep]
      exact hresult
    have hcommitted := RouteState.committed_revision hperformed
    refine ⟨hcommitted, fun earlier hearlier snapshot hshows hrevision => ?_⟩
    exact (content_eq_of_revision_eq hnew hrun hearlier hshows ⟨_, hresult, rfl⟩
      (hrevision.trans hcommitted.symm)).symm
  · intro now call error next status hperform
    have herror : (state.perform config now call).result = .error error := by rw [hperform]
    have hkept := RouteState.perform_error hwell.keyed herror
    rw [hperform] at hkept
    exact hkept

/-- A catalog run that publishes, takes a snapshot and commits at its revision. -/
theorem revision_determines_content_sample :
    ∃ history state, RouteRun sampleConfig sampleInitial history state ∧
      history.map RouteLabel.now = [0, 1, 2] ∧ state.revision = 2 ∧
      ∀ later next, RouteRun sampleConfig state later next → state.revision ≤ next.revision := by
  have hpublished := RouteRun.call (.start : RouteRun sampleConfig sampleInitial [] _) 0
    (.publishConfirmed sampleConfirmed)
  rw [sampleInitial_publish] at hpublished
  have hsnapshot := RouteRun.call hpublished 1 .snapshot
  have hcommitted := RouteRun.call hsnapshot 2 (.commitIfCurrent 2 [sampleConfirmed.fence])
  exact ⟨_, _, hcommitted, rfl, by decide +kernel,
    (revision_determines_content sampleInitial_new hcommitted).1⟩

end AukiSdk.Routing
