import AukiSdk.Foundation.SortedUnique
import AukiSdk.Routing.CandidateRoute
import AukiSdk.Routing.Catalog

/-!
# The protocol registry of one peer

`ProtocolRuntime` behind the fence of `ContextLifecycle`.
-/

namespace AukiSdk.Peer

open AukiSdk.Foundation AukiSdk.Net AukiSdk.Routing List Function

structure ServedProtocolSnapshot where
  revision : ℕ
  protocolIds : List String
  deriving DecidableEq

variable (current : ServedProtocolSnapshot)

def ServedProtocolSnapshot.replace (protocolIds : List String) : ServedProtocolSnapshot :=
  let protocolIds := sortedUnique protocolIds
  if current.protocolIds = protocolIds then current
  else { revision := Word.saturatingAdd current.revision 1, protocolIds }

/-- The revision grows by one exactly when the list changes. -/
def ServedProtocolSnapshot.Counts (before after : ServedProtocolSnapshot) : Prop :=
  (after.protocolIds = before.protocolIds ∧ after.revision = before.revision) ∨
    (after.protocolIds ≠ before.protocolIds ∧
      after.revision = Word.saturatingAdd before.revision 1)

@[simp]
theorem ServedProtocolSnapshot.protocolIds_replace (protocolIds : List String) :
    (current.replace protocolIds).protocolIds = sortedUnique protocolIds := by
  unfold replace
  dsimp only
  split_ifs with hsm
  · exact hsm
  · rfl

theorem ServedProtocolSnapshot.counts_replace (protocolIds : List String) :
    current.Counts (current.replace protocolIds) := by
  unfold replace
  dsimp only
  split_ifs with hsm
  · exact .inl ⟨rfl, rfl⟩
  · exact .inr ⟨fun heq => hsm heq.symm, rfl⟩

/-- The errors of `auki_p2p` that `register` tells apart. -/
inductive P2pError where
  | protocolAlreadyRegistered
  | other (detail : String)
  deriving DecidableEq

inductive AukiProtocolError where
  | stopped
  | duplicateProtocol (protocolId : String)
  | generationExhausted
  | noRoutes (expectedPeer : PeerId)
  | invalidRoute (expectedPeer : PeerId)
  | p2p (error : P2pError)
  deriving DecidableEq

structure ProtocolEntry where
  protocolId : String
  /-- The entry still holds its `ApplicationProtocolServer`. -/
  server : Bool
  deriving DecidableEq

/-- `ProtocolRuntime`; `taken` records the generations of the servers taken out. -/
structure ProtocolRuntime where
  running : Bool
  registrations : List (String × ℕ)
  entries : ℕ → Option ProtocolEntry
  nextGeneration : ℕ
  served : ServedProtocolSnapshot
  taken : List ℕ

namespace ProtocolRuntime

def new : ProtocolRuntime where
  running := true
  registrations := []
  entries := fun _ => none
  nextGeneration := 1
  served := { revision := 0, protocolIds := [] }
  taken := []

def keys (runtime : ProtocolRuntime) : List String := runtime.registrations.map Prod.fst

def generations (runtime : ProtocolRuntime) : List ℕ := runtime.registrations.map Prod.snd

def holds (runtime : ProtocolRuntime) (generation : ℕ) : Bool :=
  (runtime.entries generation).any ProtocolEntry.server

def fence (runtime : ProtocolRuntime) : ProtocolRuntime := { runtime with running := false }

/-- `AukiPeerProtocols::register`; `serve` is what `Node::serve` returns. -/
def register (runtime : ProtocolRuntime) (protocolId : String) (serve : Except P2pError Unit) :
    Except AukiProtocolError ℕ × ProtocolRuntime :=
  if !runtime.running then (.error .stopped, runtime)
  else if protocolId ∈ runtime.keys then (.error (.duplicateProtocol protocolId), runtime)
  else
    match Word.checkedAdd runtime.nextGeneration 1 with
    | none => (.error .generationExhausted, runtime)
    | some nextGeneration =>
      let generation := runtime.nextGeneration
      match serve with
      | .error .protocolAlreadyRegistered =>
        (.error (.duplicateProtocol protocolId), { runtime with nextGeneration })
      | .error error => (.error (.p2p error), { runtime with nextGeneration })
      | .ok () =>
        (.ok generation, { runtime with
          registrations := (protocolId, generation) :: runtime.registrations
          entries := Function.update runtime.entries generation
            (some { protocolId, server := true })
          nextGeneration
          served := runtime.served.replace (protocolId :: runtime.keys) })

/-- The locked section of `take_server`. -/
def unmount (runtime : ProtocolRuntime) (protocolId : String) (generation : ℕ) :
    ProtocolRuntime :=
  if (protocolId, generation) ∈ runtime.registrations then
    let registrations := runtime.registrations.filter fun entry => entry.1 ≠ protocolId
    { runtime with
      registrations
      served := runtime.served.replace (registrations.map Prod.fst) }
  else runtime

/-- `entry.server.lock().take()` for some entries. -/
def takeServers (runtime : ProtocolRuntime) (generations : List ℕ) : ProtocolRuntime :=
  { runtime with
    entries := fun generation =>
      if generation ∈ generations then
        (runtime.entries generation).map fun entry => { entry with server := false }
      else runtime.entries generation
    taken := runtime.taken ++ generations.filter runtime.holds }

/-- The locked section of `shutdown_all` and `abort_all`. -/
def drain (runtime : ProtocolRuntime) : ProtocolRuntime :=
  { runtime.takeServers runtime.generations with
    registrations := []
    served := runtime.served.replace [] }

/-! The calls that only read the fence. -/

/-- The part of `AukiPeerProtocols::open` before its first route. -/
def openCandidates (runtime : ProtocolRuntime) (routes : PeerId → List Multiaddr)
    (expectedPeer : PeerId) (protocol : Except P2pError Unit) :
    Except AukiProtocolError (List Multiaddr) := do
  protocol.mapError .p2p
  if !runtime.running then throw .stopped
  if (routes expectedPeer).isEmpty then throw (.noRoutes expectedPeer)
  return routes expectedPeer

/-- The part of `AukiPeerProtocols::open_exact` before the node opens the route. -/
def openExact (runtime : ProtocolRuntime) (otherLength : String → ℕ) (expectedPeer : PeerId)
    (route : Multiaddr) (protocol : Except P2pError Unit) :
    Except AukiProtocolError CanonicalCandidateRoute := do
  protocol.mapError .p2p
  let route ← (canonicalizeCandidateRoute otherLength route expectedPeer).mapError
    fun _ => .invalidRoute expectedPeer
  if !runtime.running then throw .stopped
  return route

end ProtocolRuntime

inductive AukiPeerRoutesError where
  | stopped
  | catalog (error : RouteCatalogError)

/-- A call of `AukiPeerRoutes` on the catalog behind the fence. -/
def ProtocolRuntime.enterRoutes {α : Type} (runtime : ProtocolRuntime) (call : Locked α) :
    Except AukiPeerRoutesError α :=
  if runtime.running then call.result.mapError .catalog else .error .stopped

/-- `AukiPeerRoutes::snapshot`. -/
def ProtocolRuntime.routesSnapshot (runtime : ProtocolRuntime) (catalog : RouteState)
    (now : DateTime) : Except AukiPeerRoutesError RouteSnapshot :=
  runtime.enterRoutes (catalog.snapshot now)

def ProtocolRuntime.commitIfCurrent (runtime : ProtocolRuntime) (catalog : RouteState)
    (now : DateTime) (expectedRevision : ℕ) (expectedFences : List RouteFence) :
    Except AukiPeerRoutesError (Option RouteSnapshot) :=
  runtime.enterRoutes (catalog.commitIfCurrent expectedRevision expectedFences now)

namespace ProtocolRuntime

/-- Every call that checks the fence is refused. -/
structure Refuses (runtime : ProtocolRuntime) : Prop where
  register : ∀ protocolId serve,
    runtime.register protocolId serve = (.error .stopped, runtime)
  opening : ∀ routes expectedPeer protocol,
    ∃ error, runtime.openCandidates routes expectedPeer protocol = .error error
  exact_route : ∀ otherLength expectedPeer route protocol,
    ∃ error, runtime.openExact otherLength expectedPeer route protocol = .error error
  snapshot : ∀ catalog now, runtime.routesSnapshot catalog now = .error .stopped
  commit : ∀ catalog now expectedRevision expectedFences,
    runtime.commitIfCurrent catalog now expectedRevision expectedFences = .error .stopped

variable {runtime : ProtocolRuntime}

theorem register_of_stopped (hstop : runtime.running = false) {protocolId : String}
    {serve : Except P2pError Unit} :
    runtime.register protocolId serve = (.error .stopped, runtime) := by
  rw [register, hstop]
  rfl

theorem refuses_of_stopped (hstop : runtime.running = false) : runtime.Refuses where
  register := fun _ _ => register_of_stopped hstop
  opening := by
    intro routes expectedPeer protocol
    cases protocol with
    | error error => exact ⟨.p2p error, rfl⟩
    | ok =>
      refine ⟨.stopped, ?_⟩
      rw [openCandidates, hstop]
      rfl
  exact_route := by
    intro otherLength expectedPeer route protocol
    cases protocol with
    | error error => exact ⟨.p2p error, rfl⟩
    | ok =>
      rw [openExact, hstop]
      cases canonicalizeCandidateRoute otherLength route expectedPeer with
      | error error => exact ⟨.invalidRoute expectedPeer, rfl⟩
      | ok route => exact ⟨.stopped, rfl⟩
  snapshot := by
    intro catalog now
    rw [routesSnapshot, enterRoutes, hstop]
    rfl
  commit := by
    intro catalog now expectedRevision expectedFences
    rw [commitIfCurrent, enterRoutes, hstop]
    rfl

@[simp]
theorem running_register (protocolId : String) (serve : Except P2pError Unit) :
    (runtime.register protocolId serve).2.running = runtime.running := by
  unfold register
  split_ifs <;> first | rfl | (split <;> first | rfl | (dsimp only; split <;> rfl))

@[simp]
theorem running_unmount (protocolId : String) (generation : ℕ) :
    (runtime.unmount protocolId generation).running = runtime.running := by
  unfold unmount
  split_ifs <;> rfl

theorem counts_register (protocolId : String) (serve : Except P2pError Unit) :
    runtime.served.Counts (runtime.register protocolId serve).2.served := by
  have hsm : runtime.served.Counts runtime.served := .inl ⟨rfl, rfl⟩
  unfold register
  split_ifs
  · exact hsm
  · exact hsm
  · split
    · exact hsm
    · dsimp only
      split
      · exact hsm
      · exact hsm
      · exact ServedProtocolSnapshot.counts_replace ..

theorem counts_unmount (protocolId : String) (generation : ℕ) :
    runtime.served.Counts (runtime.unmount protocolId generation).served := by
  unfold unmount
  split_ifs
  · exact ServedProtocolSnapshot.counts_replace ..
  · exact .inl ⟨rfl, rfl⟩

end ProtocolRuntime

/-- Where the handle of a registration is. -/
inductive HandlePhase where
  | held
  /-- Its locked section is over, its server not yet taken. -/
  | unmounted
  | closed
  deriving DecidableEq

namespace ProtocolRuntime

/-- The registry against the handles of its registrations. -/
structure Sound (runtime : ProtocolRuntime) (handles : ℕ → HandlePhase) : Prop where
  keys : runtime.keys.Nodup
  mounted : ∀ protocolId generation, (protocolId, generation) ∈ runtime.registrations →
    runtime.entries generation = some { protocolId, server := true }
  held : ∀ protocolId generation, (protocolId, generation) ∈ runtime.registrations →
    handles generation = .held
  fresh : ∀ generation, runtime.nextGeneration ≤ generation → runtime.entries generation = none
  unused : ∀ generation, runtime.entries generation = none → handles generation = .held
  owned : ∀ protocolId generation,
    runtime.entries generation = some { protocolId, server := true } →
    (protocolId, generation) ∈ runtime.registrations ∨ handles generation = .unmounted
  closed : ∀ generation, handles generation = .closed → runtime.holds generation = false
  untaken : ∀ generation, runtime.entries generation = none →
    runtime.taken.count generation = 0
  once : ∀ generation entry, runtime.entries generation = some entry →
    runtime.taken.count generation = if entry.server then 0 else 1
  served : runtime.served.protocolIds = sortedUnique runtime.keys

variable {runtime : ProtocolRuntime} {handles : ℕ → HandlePhase}

theorem sound_new : new.Sound fun _ => .held := by
  constructor <;> simp [new, keys, sortedUnique]

theorem Sound.fence (hs : runtime.Sound handles) : runtime.fence.Sound handles :=
  { hs with }

theorem Sound.counted (hs : runtime.Sound handles) {nextGeneration : ℕ}
    (hle : runtime.nextGeneration ≤ nextGeneration) :
    ({ runtime with nextGeneration } : ProtocolRuntime).Sound handles :=
  ⟨hs.keys, hs.mounted, hs.held, fun generation hgen => hs.fresh generation (hle.trans hgen),
    hs.unused, hs.owned, hs.closed, hs.untaken, hs.once, hs.served⟩

variable {generation : ℕ} {protocolId : String}

theorem Sound.mount (hs : runtime.Sound handles) (hfree : protocolId ∉ runtime.keys)
    (hgen : generation = runtime.nextGeneration) :
    ({ runtime with
      registrations := (protocolId, generation) :: runtime.registrations
      entries := Function.update runtime.entries generation
        (some { protocolId, server := true })
      nextGeneration := generation + 1
      served := runtime.served.replace (protocolId :: runtime.keys) } :
      ProtocolRuntime).Sound handles := by
  have hnone : runtime.entries generation = none := hs.fresh generation hgen.ge
  have hheld : handles generation = .held := hs.unused generation hnone
  have hne : ∀ key other, (key, other) ∈ runtime.registrations → other ≠ generation := by
    rintro key other hm rfl
    rw [hs.mounted key other hm] at hnone
    cases hnone
  constructor
  · exact nodup_cons.mpr ⟨hfree, hs.keys⟩
  · intro key other hm
    obtain heq | hm := mem_cons.mp hm
    · cases heq
      exact update_self ..
    · exact (update_of_ne (hne key other hm) ..).trans (hs.mounted key other hm)
  · intro key other hm
    obtain heq | hm := mem_cons.mp hm
    · cases heq
      exact hheld
    · exact hs.held key other hm
  · intro other ho
    have hlt : generation < other := ho
    exact (update_of_ne hlt.ne' ..).trans (hs.fresh other (hgen ▸ hlt.le))
  · intro other ho
    by_cases hsm : other = generation
    · rw [hsm, hheld]
    · exact hs.unused other ((update_of_ne hsm ..).symm.trans ho)
  · intro key other ho
    by_cases hsm : other = generation
    · rw [hsm] at ho
      have hent := (update_self ..).symm.trans ho
      cases hent
      exact .inl (hsm ▸ mem_cons_self)
    · have hent := (update_of_ne hsm ..).symm.trans ho
      exact (hs.owned key other hent).imp (mem_cons_of_mem _) id
  · intro other hcl
    have hsm : other ≠ generation := by
      rintro rfl
      rw [hheld] at hcl
      cases hcl
    have hhld := hs.closed other hcl
    rw [holds] at hhld ⊢
    exact (congrArg (Option.any _) (update_of_ne hsm ..)).trans hhld
  · intro other ho
    by_cases hsm : other = generation
    · rw [hsm] at ho
      cases (update_self ..).symm.trans ho
    · exact hs.untaken other ((update_of_ne hsm ..).symm.trans ho)
  · intro other entry ho
    by_cases hsm : other = generation
    · rw [hsm] at ho ⊢
      cases (update_self ..).symm.trans ho
      exact hs.untaken generation hnone
    · exact hs.once other entry ((update_of_ne hsm ..).symm.trans ho)
  · exact ServedProtocolSnapshot.protocolIds_replace ..

theorem Sound.register (hs : runtime.Sound handles) (protocolId : String)
    (serve : Except P2pError Unit) : (runtime.register protocolId serve).2.Sound handles := by
  unfold ProtocolRuntime.register
  split_ifs with hstop hdup
  · exact hs
  · exact hs
  · split
    · exact hs
    · rename_i nextGeneration hn
      have hval := Word.checkedAdd_eq_some hn
      dsimp only
      split
      · exact hs.counted (by omega)
      · exact hs.counted (by omega)
      · rw [hval]
        exact hs.mount hdup rfl

theorem count_taken {generations : List ℕ} (hnd : generations.Nodup) (generation : ℕ) :
    (runtime.takeServers generations).taken.count generation = runtime.taken.count generation +
        if generation ∈ generations ∧ runtime.holds generation = true then 1 else 0 := by
  rw [takeServers, count_append]
  congr 1
  rw [(hnd.filter _).count]
  simp only [mem_filter]

theorem Sound.generation_unique (hs : runtime.Sound handles) {first second : String}
    (hfst : (first, generation) ∈ runtime.registrations)
    (hsnd : (second, generation) ∈ runtime.registrations) : first = second := by
  have heq := (hs.mounted first generation hfst).symm.trans
    (hs.mounted second generation hsnd)
  cases heq
  rfl

theorem Sound.key_unique (hs : runtime.Sound handles) {first second : ℕ}
    (hfst : (protocolId, first) ∈ runtime.registrations)
    (hsnd : (protocolId, second) ∈ runtime.registrations) : first = second := by
  have heq := inj_on_of_nodup_map hs.keys hfst hsnd rfl
  cases heq
  rfl

theorem Sound.nodup_generations (hs : runtime.Sound handles) : runtime.generations.Nodup := by
  apply List.Nodup.map_on _ (hs.keys.of_map _)
  rintro ⟨first, generation⟩ hfst ⟨second, _⟩ hsnd rfl
  rw [hs.generation_unique hfst hsnd]

theorem Sound.takeServers (hs : runtime.Sound handles) {generations : List ℕ}
    (hnd : generations.Nodup) {registrations : List (String × ℕ)}
    (hsub : registrations.Sublist runtime.registrations)
    (hfree : ∀ protocolId generation, (protocolId, generation) ∈ registrations →
      generation ∉ generations)
    (hrest : ∀ protocolId generation, (protocolId, generation) ∈ runtime.registrations →
      (protocolId, generation) ∈ registrations ∨ generation ∈ generations)
    {served : ServedProtocolSnapshot}
    (hser : served.protocolIds = sortedUnique (registrations.map Prod.fst)) :
    ({ runtime.takeServers generations with registrations, served } :
      ProtocolRuntime).Sound handles := by
  have hent : ∀ generation entry,
      (runtime.takeServers generations).entries generation = some entry →
      ∃ server, runtime.entries generation = some { entry with server } ∧
        (generation ∈ generations → entry.server = false) ∧
        (generation ∉ generations → entry.server = server) := by
    intro generation entry hent
    simp only [ProtocolRuntime.takeServers] at hent
    split_ifs at hent with hm
    · obtain ⟨⟨protocolId, server⟩, hf, rfl⟩ := Option.map_eq_some_iff.mp hent
      exact ⟨server, hf, fun _ => rfl, fun hnot => absurd hm hnot⟩
    · exact ⟨entry.server, hent, fun hin => absurd hin hm, fun _ => rfl⟩
  have hnone : ∀ generation, (runtime.takeServers generations).entries generation = none →
      runtime.entries generation = none := by
    intro generation hnone
    simp only [ProtocolRuntime.takeServers] at hnone
    split_ifs at hnone
    · exact Option.map_eq_none_iff.mp hnone
    · exact hnone
  constructor
  · exact hs.keys.sublist (hsub.map _)
  · intro protocolId generation hm
    have hf := hs.mounted protocolId generation (hsub.subset hm)
    exact (if_neg (hfree protocolId generation hm)).trans hf
  · exact fun protocolId generation hm => hs.held protocolId generation (hsub.subset hm)
  · intro generation hle
    have hfrs := hs.fresh generation hle
    simp [ProtocolRuntime.takeServers, hfrs]
  · exact fun generation hents => hs.unused generation (hnone generation hents)
  · intro protocolId generation hf
    obtain ⟨server, hpre, htak, hkept⟩ := hent generation _ hf
    by_cases hm : generation ∈ generations
    · cases htak hm
    · rw [← hkept hm] at hpre
      exact (hs.owned protocolId generation hpre).imp
        (fun hin => (hrest protocolId generation hin).resolve_right hm) id
  · intro generation hcl
    have hhld := hs.closed generation hcl
    rw [Bool.eq_false_iff] at hhld ⊢
    intro hsti
    obtain ⟨entry, hf, hsvr⟩ := (Option.any_eq_true _ _).mp hsti
    obtain ⟨server, hpre, htak, hkept⟩ := hent generation entry hf
    by_cases hm : generation ∈ generations
    · rw [htak hm] at hsvr
      cases hsvr
    · apply hhld
      rw [holds, hpre, Option.any_some, ← hkept hm, hsvr]
  · intro generation hents
    have hpre := hnone generation hents
    rw [count_taken hnd, hs.untaken generation hpre, holds, hpre]
    simp
  · intro generation entry hf
    obtain ⟨server, hpre, htak, hkept⟩ := hent generation entry hf
    rw [count_taken hnd, hs.once generation _ hpre, holds, hpre]
    by_cases hm : generation ∈ generations
    · rw [htak hm]
      cases server <;> simp [hm]
    · rw [hkept hm]
      simp [hm]
  · exact hser

theorem Sound.drain (hs : runtime.Sound handles) : runtime.drain.Sound handles :=
  hs.takeServers hs.nodup_generations (nil_sublist _) (by simp)
    (fun _ _ hm => .inr (mem_map_of_mem hm))
    (ServedProtocolSnapshot.protocolIds_replace ..)

@[simp]
theorem entries_unmount (protocolId : String) (generation : ℕ) :
    (runtime.unmount protocolId generation).entries = runtime.entries := by
  unfold unmount
  split_ifs <;> rfl

@[simp]
theorem taken_unmount (protocolId : String) (generation : ℕ) :
    (runtime.unmount protocolId generation).taken = runtime.taken := by
  unfold unmount
  split_ifs <;> rfl

@[simp]
theorem nextGeneration_unmount (protocolId : String) (generation : ℕ) :
    (runtime.unmount protocolId generation).nextGeneration = runtime.nextGeneration := by
  unfold unmount
  split_ifs <;> rfl

theorem registrations_unmount (protocolId : String) (generation : ℕ) :
    (runtime.unmount protocolId generation).registrations.Sublist runtime.registrations := by
  unfold unmount
  split_ifs
  · exact filter_sublist
  · exact List.Sublist.refl _

theorem mem_unmount (hs : runtime.Sound handles) {key : String} {other : ℕ}
    (hne : other ≠ generation) :
    (key, other) ∈ (runtime.unmount protocolId generation).registrations ↔
      (key, other) ∈ runtime.registrations := by
  unfold unmount
  split_ifs with hm
  · constructor
    · exact fun hin => (mem_filter.mp hin).1
    · intro hin
      refine mem_filter.mpr ⟨hin, ?_⟩
      rw [decide_eq_true_iff]
      rintro rfl
      exact hne (hs.key_unique hin hm)
  · exact Iff.rfl

theorem Sound.unmount (hs : runtime.Sound handles) {server : Bool}
    (hent : runtime.entries generation = some { protocolId, server }) :
    (runtime.unmount protocolId generation).Sound
      (Function.update handles generation .unmounted) := by
  have hgone : ∀ key, (key, generation) ∉
      (runtime.unmount protocolId generation).registrations := by
    intro key
    unfold ProtocolRuntime.unmount
    split_ifs with hm
    · intro hin
      obtain ⟨hin, hkey⟩ := mem_filter.mp hin
      rw [hs.generation_unique hin hm] at hkey
      simp at hkey
    · intro hin
      have hf := hs.mounted key generation hin
      rw [hent] at hf
      cases hf
      exact hm hin
  have hsub := runtime.registrations_unmount protocolId generation
  constructor
  · exact hs.keys.sublist (hsub.map _)
  · intro key other hm
    rw [entries_unmount]
    exact hs.mounted key other (hsub.subset hm)
  · intro key other hm
    have hne : other ≠ generation := by
      rintro rfl
      exact hgone key hm
    rw [update_of_ne hne]
    exact hs.held key other (hsub.subset hm)
  · intro other hle
    rw [entries_unmount]
    exact hs.fresh other (by simpa using hle)
  · intro other hnone
    rw [entries_unmount] at hnone
    have hne : other ≠ generation := by
      rintro rfl
      rw [hent] at hnone
      cases hnone
    rw [update_of_ne hne]
    exact hs.unused other hnone
  · intro key other hf
    rw [entries_unmount] at hf
    by_cases hsm : other = generation
    · exact .inr (by rw [hsm, update_self])
    · rw [update_of_ne hsm]
      exact (hs.owned key other hf).imp (mem_unmount hs hsm).mpr id
  · intro other hcl
    have hne : other ≠ generation := by
      rintro rfl
      rw [update_self] at hcl
      cases hcl
    rw [update_of_ne hne] at hcl
    rw [holds, entries_unmount]
    exact hs.closed other hcl
  · intro other hnone
    rw [taken_unmount]
    exact hs.untaken other (by simpa using hnone)
  · intro other entry hf
    rw [taken_unmount]
    exact hs.once other entry (by simpa using hf)
  · unfold ProtocolRuntime.unmount
    split_ifs
    · exact ServedProtocolSnapshot.protocolIds_replace ..
    · exact hs.served

theorem Sound.take (hs : runtime.Sound handles) (hhdl : handles generation = .unmounted) :
    (runtime.takeServers [generation]).Sound (Function.update handles generation .closed) := by
  have hfree : ∀ key other, (key, other) ∈ runtime.registrations → other ∉ [generation] := by
    intro key other hm hin
    rw [mem_singleton.mp hin] at hm
    rw [hs.held key generation hm] at hhdl
    cases hhdl
  have htak : (runtime.takeServers [generation]).Sound handles :=
    hs.takeServers (nodup_singleton _) (List.Sublist.refl _) hfree
      (fun _ _ hm => .inl hm) hs.served
  have hhld : (runtime.takeServers [generation]).holds generation = false := by
    rw [holds, ProtocolRuntime.takeServers]
    cases hent : runtime.entries generation <;> simp [hent]
  constructor
  · exact htak.keys
  · exact htak.mounted
  · intro key other hm
    rw [update_of_ne (fun heq => hfree key other hm (by simp [heq]))]
    exact htak.held key other hm
  · exact htak.fresh
  · intro other hnone
    have hheld := htak.unused other hnone
    rw [update_of_ne]
    · exact hheld
    · rintro rfl
      rw [hhdl] at hheld
      cases hheld
  · intro key other hf
    have hne : other ≠ generation := by
      rintro rfl
      rw [holds, hf] at hhld
      cases hhld
    rw [update_of_ne hne]
    exact htak.owned key other hf
  · intro other hcl
    by_cases hsm : other = generation
    · rw [hsm, hhld]
    · rw [update_of_ne hsm] at hcl
      exact htak.closed other hcl
  · exact htak.untaken
  · exact htak.once
  · exact htak.served

end ProtocolRuntime

end AukiSdk.Peer
