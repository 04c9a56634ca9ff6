import AukiSdk.Routing.Revision

/-!
# The status watch

Statuses are computed under the lock and sent after it, so the sends interleave.
-/

namespace AukiSdk.Routing

open AukiSdk.Foundation List
open AukiSdk.Net
open AukiSdk.Relay

variable {config : RouteCatalogConfig} {now : DateTime}

/-- A catalog, the value of its status watch, and the statuses not sent yet. -/
structure WatchedCatalog where
  state : RouteState
  watch : RouteCatalogStatus
  pending : List RouteCatalogStatus

/-- One atomic step: a locked section, or the send of a computed status. -/
inductive WatchAction where
  | lock (now : DateTime) (call : RouteCall)
  | send (index : ℕ)

/-- The status of a state. -/
def RouteState.settledStatus (state : RouteState) : RouteCatalogStatus :=
  ⟨state.revision, state.directRoutes.length, state.flaggedCount⟩

/-- `RouteCatalog::from_routes`. -/
def WatchedCatalog.start (initial : RouteState) (now : DateTime) : WatchedCatalog :=
  ⟨initial, initial.routeStatus now, []⟩

/-- Steps of a catalog under any interleaving of its operations. -/
def WatchStep (config : RouteCatalogConfig) (_history : List WatchAction)
    (catalog : WatchedCatalog) (action : WatchAction) (next : WatchedCatalog) : Prop :=
  match action with
  | .lock now call =>
    let outcome := catalog.state.perform config now call
    next = ⟨outcome.state, catalog.watch, catalog.pending ++ outcome.status.toList⟩
  | .send index =>
    ∃ status, catalog.pending[index]? = some status ∧
      next = ⟨catalog.state, status, catalog.pending.eraseIdx index⟩

abbrev WatchRun (config : RouteCatalogConfig) (start : WatchedCatalog) :
    List WatchAction → WatchedCatalog → Prop :=
  Transition.Run (WatchStep config) start

/-- The revision in the watch never goes back. -/
def WatchMonotone (config : RouteCatalogConfig) (start : WatchedCatalog) : Prop :=
  ∀ history catalog later next, WatchRun config start history catalog →
    WatchRun config catalog later next → catalog.watch.revision ≤ next.watch.revision

/-- Once every operation has returned, the watch holds the catalog's status. -/
def WatchSettles (config : RouteCatalogConfig) (start : WatchedCatalog) : Prop :=
  ∀ history catalog, WatchRun config start history catalog → catalog.pending = [] →
    catalog.watch = catalog.state.settledStatus

/-- The checks an operation makes before it takes the lock. -/
def RouteCall.locks (config : RouteCatalogConfig) (now : DateTime) : RouteCall → Bool
  | .replaceDirectRoutes directRoutes =>
    (validateAndSortDirectRoutes directRoutes config.localPeerId
      config.limits.maximumRoutes).isOk
  | .publishConfirmed route =>
    route.fence.localGeneration ≠ 0 &&
      (validateCircuitRoute route.routes.tcp route.relayPeerId config.localPeerId).isOk &&
      (validateWssCircuitRoute route.routes.wss route.relayPeerId config.localPeerId).isOk &&
      now < route.authorizedUntil
  | _ => true

/-- Sends are made in lock order, and silent operations withdraw nothing. -/
def Orderly (config : RouteCatalogConfig) (catalog : WatchedCatalog) : WatchAction → Prop
  | .lock now call =>
    call.locks config now = true →
    (catalog.state.expireAuthorizations now).isOk = true →
    (catalog.state.perform config now call).status = none →
    catalog.state.lapsedCount now = 0
  | .send index => index = 0

/-- Runs whose steps are all orderly. -/
abbrev OrderlyRun (config : RouteCatalogConfig) (start : WatchedCatalog) :
    List WatchAction → WatchedCatalog → Prop :=
  Transition.Run (fun history catalog action next =>
    WatchStep config history catalog action next ∧ Orderly config catalog action) start

theorem RouteState.perform_of_not_locks {state : RouteState} {call : RouteCall}
    (hlks : call.locks config now = false) :
    (state.perform config now call).state = state := by
  cases call with
  | replaceDirectRoutes directRoutes =>
    simp only [RouteCall.locks] at hlks
    simp only [perform, replaceDirectRoutes, Locked.map]
    split
    · rfl
    · rename_i hval
      rw [hval] at hlks
      cases hlks
  | publishConfirmed route =>
    simp only [RouteCall.locks] at hlks
    simp only [perform, publishConfirmed, Locked.map]
    split
    · rfl
    · rename_i hgen
      split
      · rfl
      · rename_i htcp
        split
        · rfl
        · rename_i hwss
          split
          · rfl
          · rename_i huntil
            rw [htcp, hwss] at hlks
            simp [hgen, Except.isOk, Except.toBool] at hlks
            exact absurd hlks huntil
  | _ => cases hlks

/-- In an orderly step the state changes only together with a status. -/
theorem RouteState.perform_orderly {state : RouteState} {call : RouteCall}
    (hkey : state.Keyed)
    (hord : call.locks config now = true → (state.expireAuthorizations now).isOk = true →
      (state.perform config now call).status = none → state.lapsedCount now = 0) :
    ((state.perform config now call).status = none ∧
        (state.perform config now call).state = state) ∨
      (state.perform config now call).status =
        some (state.perform config now call).state.settledStatus := by
  have hpfs := RouteState.performs config now state call
  have hsil : ∀ expired, state.expireAuthorizations now = .ok expired →
      (state.perform config now call).status = none →
      (state.perform config now call).state = expired →
      (state.perform config now call).state = state := by
    intro expired hexp hnone hsta
    by_cases hlks : call.locks config now = true
    · rw [hsta]
      exact expireAuthorizations_of_lapsedCount_eq_zero hkey hexp
        (hord hlks (by rw [hexp]; rfl) hnone)
    · exact perform_of_not_locks (by simpa using hlks)
  generalize state.perform config now call = outcome at hpfs hsil
  cases hpfs with
  | unchanged error => exact .inl ⟨rfl, rfl⟩
  | refused expired error hexp => exact .inl ⟨rfl, hsil expired hexp rfl rfl⟩
  | silent expired reply hexp => exact .inl ⟨rfl, hsil expired hexp rfl rfl⟩
  | sent expired next reply hexp hchg =>
    have hunl := (unlapsed_expireAuthorizations hkey hexp).change hchg
    refine .inr (congrArg some ?_)
    simp only [finish, routeStatus, settledStatus, hunl.publishableRelayCount_eq]

/-- Revisions rise from the watch to the status of the state. -/
structure WatchedCatalog.Follows (catalog : WatchedCatalog) : Prop where
  ordered : (catalog.watch :: catalog.pending).Pairwise
    fun earlier later => earlier.revision ≤ later.revision
  latest : (catalog.watch :: catalog.pending).getLast? = some catalog.state.settledStatus

variable {catalog : WatchedCatalog}

theorem WatchedCatalog.Follows.revision_le (hfol : catalog.Follows) :
    ∀ status ∈ catalog.watch :: catalog.pending, status.revision ≤ catalog.state.revision := by
  intro status hstat
  obtain ⟨earlier, hque⟩ := getLast?_eq_some_iff.mp hfol.latest
  have hord := hfol.ordered
  rw [hque] at hstat hord
  rcases mem_append.mp hstat with hpri | hlast
  · exact (pairwise_append.mp hord).2.2 status hpri _ (mem_singleton_self _)
  · rw [mem_singleton.mp hlast]
    rfl

variable {history : List WatchAction}

theorem WatchedCatalog.Follows.step {next : WatchedCatalog} {action : WatchAction}
    (hfol : catalog.Follows) (hkey : catalog.state.Keyed)
    (hs : WatchStep config history catalog action next)
    (hory : Orderly config catalog action) :
    next.Follows ∧ catalog.watch.revision ≤ next.watch.revision := by
  cases action with
  | lock now call =>
    cases hs
    refine ⟨?_, le_rfl⟩
    have hadv := (RouteState.perform_advances config hkey now call).1
    rcases RouteState.perform_orderly hkey hory with ⟨hnone, hsta⟩ | hsome
    · rw [hnone, hsta, Option.toList_none, append_nil]
      exact hfol
    · rw [hsome, Option.toList_some]
      constructor
      · rw [← cons_append, pairwise_append]
        refine ⟨hfol.ordered, pairwise_singleton _ _, ?_⟩
        intro status hstat last hlast
        rw [mem_singleton.mp hlast]
        exact (hfol.revision_le status hstat).trans hadv.1
      · rw [← cons_append, getLast?_concat]
  | send index =>
    obtain ⟨status, hstat, rfl⟩ := hs
    cases hory
    obtain ⟨state, watch, pending⟩ := catalog
    cases pending with
    | nil => cases hstat
    | cons first rest =>
      cases hstat
      obtain ⟨hord, hlat⟩ := hfol
      refine ⟨⟨?_, ?_⟩, ?_⟩
      · exact (pairwise_cons.mp hord).2
      · simpa using hlat
      · exact (pairwise_cons.mp hord).1 _ mem_cons_self

variable {start : WatchedCatalog}

theorem WatchedCatalog.Follows.run (hfol : start.Follows)
    (hwell : start.state.WellFormed config) (hrun : OrderlyRun config start history catalog) :
    catalog.Follows ∧ catalog.state.WellFormed config ∧
      start.watch.revision ≤ catalog.watch.revision := by
  refine hrun.invariant (fun _ catalog => catalog.Follows ∧ catalog.state.WellFormed config ∧
    start.watch.revision ≤ catalog.watch.revision) ⟨hfol, hwell, le_rfl⟩ ?_
  rintro history catalog action next ⟨hcat, hsta, hle⟩ ⟨hs, hord⟩
  obtain ⟨hn, hwat⟩ := hcat.step hsta.keyed hs hord
  refine ⟨hn, ?_, hle.trans hwat⟩
  cases action with
  | lock now call =>
    cases hs
    exact hsta.perform now call
  | send index =>
    obtain ⟨status, -, rfl⟩ := hs
    exact hsta

theorem WatchedCatalog.follows_start {directRoutes : List Multiaddr} {initial : RouteState}
    (hnew : RouteState.new config directRoutes = .ok initial) (now : DateTime) :
    (WatchedCatalog.start initial now).Follows := by
  refine ⟨pairwise_singleton _ _, congrArg some ?_⟩
  unfold RouteState.new at hnew
  split at hnew
  · cases hnew
  · cases hnew
    simp [start, RouteState.routeStatus, RouteState.settledStatus, RouteState.flaggedCount,
      RouteState.publishableRelayCount]

/-- Sends in lock order without silent withdrawals keep the watch faithful. -/
theorem watch_follows_orderly_runs {directRoutes : List Multiaddr} {initial : RouteState}
    {startedAt : DateTime} {history : List WatchAction} {catalog : WatchedCatalog}
    (hnew : RouteState.new config directRoutes = .ok initial)
    (hrun : OrderlyRun config (.start initial startedAt) history catalog) :
    (∀ later next, OrderlyRun config catalog later next →
      catalog.watch.revision ≤ next.watch.revision) ∧
    (catalog.pending = [] → catalog.watch = catalog.state.settledStatus) := by
  obtain ⟨hfollows, hwell, -⟩ := (WatchedCatalog.follows_start hnew startedAt).run
    (RouteState.wellFormed_new hnew) hrun
  refine ⟨fun later next hlater => (hfollows.run hwell hlater).2.2, fun hsettled => ?_⟩
  have hlatest := hfollows.latest
  rw [hsettled] at hlatest
  exact Option.some.inj hlatest

theorem WatchRun.lock (hrun : WatchRun config start history catalog) (now : DateTime)
    (call : RouteCall) :
    WatchRun config start (history ++ [.lock now call])
      ⟨(catalog.state.perform config now call).state, catalog.watch,
        catalog.pending ++ (catalog.state.perform config now call).status.toList⟩ :=
  hrun.extend rfl

theorem WatchRun.send (hrun : WatchRun config start history catalog) (index : ℕ)
    (status : RouteCatalogStatus) (hstat : catalog.pending[index]? = some status) :
    WatchRun config start (history ++ [.send index])
      ⟨catalog.state, status, catalog.pending.eraseIdx index⟩ :=
  hrun.extend ⟨status, hstat, rfl⟩

theorem OrderlyRun.lock (hrun : OrderlyRun config start history catalog) (now : DateTime)
    (call : RouteCall) (status : RouteCatalogStatus)
    (hstat : (catalog.state.perform config now call).status = some status) :
    OrderlyRun config start (history ++ [.lock now call])
      ⟨(catalog.state.perform config now call).state, catalog.watch,
        catalog.pending ++ [status]⟩ := by
  refine hrun.extend ⟨?_, fun _ _ hnone => ?_⟩
  · simp only [WatchStep, hstat, Option.toList_some]
  · rw [hstat] at hnone
    cases hnone

/-- An orderly run that publishes a route and sends its status. -/
theorem watch_follows_orderly_runs_sample :
    ∃ history catalog, OrderlyRun sampleConfig (.start sampleInitial 0) history catalog ∧
      catalog.pending = [] ∧ catalog.watch.revision = 2 ∧
      catalog.watch = catalog.state.settledStatus := by
  have hlock := OrderlyRun.lock
    (.start : OrderlyRun sampleConfig (.start sampleInitial 0) [] _) 0
    (.publishConfirmed sampleConfirmed) ⟨2, 1, 1⟩
    (congrArg Locked.status sampleInitial_publish)
  have hsent : OrderlyRun sampleConfig (.start sampleInitial 0) (_ ++ [.send 0]) _ :=
    hlock.extend ⟨⟨_, rfl, rfl⟩, rfl⟩
  exact ⟨_, _, hsent, rfl, rfl, (watch_follows_orderly_runs sampleInitial_new hsent).2 rfl⟩

def sampleReplacement : Multiaddr := [.dns4 "node.auki.network", .tcp 4002]

/-- Overtaking sends take the watch back, and a commit leaves it behind. -/
theorem watch_not_faithful : ¬WatchMonotone sampleConfig (.start sampleInitial 0) ∧
      ¬WatchSettles sampleConfig (.start sampleInitial 0) := by
  have hstart : WatchRun sampleConfig (.start sampleInitial 0) [] _ := .start
  constructor
  · intro hmonotone
    have hfirst := WatchRun.lock hstart 0 (.replaceDirectRoutes [])
    have hsecond := WatchRun.lock hfirst 0 (.replaceDirectRoutes [sampleReplacement])
    have hnewer := WatchRun.send hsecond 1 ⟨3, 1, 0⟩ (by decide +kernel)
    refine absurd (hmonotone _ _ _ _ hnewer (WatchRun.send .start 0 ⟨2, 0, 0⟩ ?_)) ?_
    · decide +kernel
    · decide
  · intro hsettles
    have hpublished := WatchRun.lock hstart 0 (.publishConfirmed sampleConfirmed)
    dsimp only [WatchedCatalog.start] at hpublished
    rw [sampleInitial_publish] at hpublished
    have hsent := WatchRun.send hpublished 0 ⟨2, 1, 1⟩ (by decide +kernel)
    have hcommit := WatchRun.lock hsent 20 (.commitIfCurrent 2 [])
    have hwatch := hsettles _ _ hcommit (by decide +kernel)
    exact absurd hwatch (by decide +kernel)

end AukiSdk.Routing
