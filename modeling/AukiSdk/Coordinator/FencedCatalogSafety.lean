import AukiSdk.Coordinator.FencedCatalog

/-!
# Publication under a permanent fence

A coordinator owns what it published, and touches no entry of another owner.
-/

namespace AukiSdk.Coordinator

open AukiSdk.Foundation List
open AukiSdk.Net
open AukiSdk.Relay
open AukiSdk.Routing

variable {config : RouteCatalogConfig} {now : DateTime} {state expired next : RouteState}
variable {fence : RouteFence} {stored : Set RouteFence}

/-- Every entry was one before under its fence, or is one of `stored`. -/
def Origin (stored : Set RouteFence) (before after : RouteState) : Prop :=
  ∀ (key : Uuid) (route : StoredRelayRoute), after.relayRoutes[key]? = some route →
    route.fence ∈ stored ∨ ∃ earlier : StoredRelayRoute,
      before.relayRoutes[key]? = some earlier ∧ earlier.fence = route.fence

theorem Origin.refl (stored : Set RouteFence) (state : RouteState) : Origin stored state state :=
  fun _ route hrt => .inr ⟨route, hrt, rfl⟩

/-- Expiry apart, only the entry under `fence` may have changed. -/
structure OnlyTouches (fence : RouteFence) (stored : Set RouteFence) (now : DateTime)
    (before after : RouteState) : Prop where
  kept : ∀ (key : Uuid) (route : StoredRelayRoute), before.relayRoutes[key]? = some route →
    route.fence ≠ fence → after.relayRoutes[key]? = some route ∨
      route.isExpired now = true ∧ after.relayRoutes[key]? = some route.withdraw
  origin : Origin stored before after

/-- The entries of the second state are those of the first, `fence` apart. -/
structure SameBut (fence : RouteFence) (stored : Set RouteFence) (before after : RouteState) :
    Prop where
  kept : ∀ (key : Uuid) (route : StoredRelayRoute), before.relayRoutes[key]? = some route →
    route.fence ≠ fence → after.relayRoutes[key]? = some route
  origin : Origin stored before after

theorem SameBut.refl (fence : RouteFence) (stored : Set RouteFence) (state : RouteState) :
    SameBut fence stored state state where
  kept := fun _ _ hrt _ => hrt
  origin := .refl stored state

theorem OnlyTouches.of_sameBut (hsm : SameBut fence stored state next) :
    OnlyTouches fence stored now state next where
  kept := fun key route hrt hne => .inl (hsm.kept key route hrt hne)
  origin := hsm.origin

theorem StoredRelayRoute.fence_expire (now : DateTime) (route : StoredRelayRoute) :
    (route.expire now).fence = route.fence := by
  rw [StoredRelayRoute.expire]
  split <;> rfl

theorem Origin.of_expired (hkey : state.Keyed)
    (hexpire : state.expireAuthorizations now = .ok expired)
    (hori : Origin stored expired next) : Origin stored state next := by
  intro key route hrt
  obtain ⟨-, -, hlook⟩ := RouteState.expireAuthorizations_ok hkey hexpire
  rcases hori key route hrt with hfnc | ⟨earlier, hpri, hfnc⟩
  · exact .inl hfnc
  · rw [hlook, Option.map_eq_some_iff] at hpri
    obtain ⟨original, horig, rfl⟩ := hpri
    rw [StoredRelayRoute.fence_expire] at hfnc
    exact .inr ⟨original, horig, hfnc⟩

theorem OnlyTouches.of_expired (hkey : state.Keyed)
    (hexpire : state.expireAuthorizations now = .ok expired)
    (hsm : SameBut fence stored expired next) : OnlyTouches fence stored now state next := by
  refine ⟨?_, .of_expired hkey hexpire hsm.origin⟩
  intro key route hrt hne
  obtain ⟨-, -, hlook⟩ := RouteState.expireAuthorizations_ok hkey hexpire
  have hexp : expired.relayRoutes[key]? = some (route.expire now) := by
    rw [hlook, hrt, Option.map_some]
  have hkept := hsm.kept key _ hexp (by rwa [StoredRelayRoute.fence_expire])
  rw [StoredRelayRoute.expire] at hkept
  split at hkept
  · rename_i hlap
    exact .inr ⟨hlap, hkept⟩
  · exact .inl hkept

theorem onlyTouches_locked {α : Type} {body : RouteState → Locked α} (hkey : state.Keyed)
    (hbody : ∀ expired, SameBut fence stored expired (body expired).state) :
    OnlyTouches fence stored now state (state.locked now body).state := by
  rw [RouteState.locked]
  split
  · exact .of_sameBut (.refl fence stored state)
  · rename_i expired hexpire
    exact .of_expired hkey hexpire (hbody expired)

variable {route : StoredRelayRoute}

theorem SameBut.insert (hslot : ∀ existing : StoredRelayRoute,
      state.relayRoutes[route.fence.routeId]? = some existing → existing.fence = route.fence)
    (hrts : next.relayRoutes = state.relayRoutes.insert route.fence.routeId route) :
    SameBut route.fence {route.fence} state next := by
  constructor
  · intro key found hf hne
    rw [hrts, FiniteMap.getElem?_insert, if_neg, hf]
    rintro rfl
    exact hne (hslot found hf)
  · intro key found hf
    rw [hrts, FiniteMap.getElem?_insert] at hf
    split at hf
    · cases hf
      exact .inl rfl
    · exact .inr ⟨found, hf, rfl⟩

theorem sameBut_storeConfirmed (route : StoredRelayRoute) :
    SameBut route.fence {route.fence} state (state.storeConfirmed config route now).state := by
  rw [RouteState.storeConfirmed]
  split
  · exact .refl _ _ _
  · rename_i hslot
    dsimp only
    split
    · exact .refl _ _ _
    · split
      · exact .refl _ _ _
      · rename_i bumped hbump
        apply SameBut.insert
        · intro existing hexi
          exact (RouteState.checkSlot_existing hexi hslot).1
        · split at hbump
          · cases hbump
            rfl
          · cases RouteState.advanceRevision_ok hbump
            rfl

theorem onlyTouches_publishConfirmed (hkey : state.Keyed) (route : ConfirmedRoute) :
    OnlyTouches route.fence {route.fence} now state
      (state.publishConfirmed config route now).state := by
  rw [RouteState.publishConfirmed]
  split
  · exact .of_sameBut (.refl _ _ _)
  · split
    · exact .of_sameBut (.refl _ _ _)
    · split
      · exact .of_sameBut (.refl _ _ _)
      · split
        · exact .of_sameBut (.refl _ _ _)
        · apply onlyTouches_locked hkey
          intro expired
          exact sameBut_storeConfirmed ⟨route.fence, _, _, _, _, _, _⟩

theorem relayRoutes_bump {condition : Prop} [Decidable condition] {bumped : RouteState}
    (hbump : (if condition then state.bumpRevision else .ok state) = .ok bumped) :
    bumped.relayRoutes = state.relayRoutes := by
  split at hbump
  · cases RouteState.advanceRevision_ok hbump
    rfl
  · cases hbump
    rfl

theorem onlyTouches_refreshAuthorization (hkey : state.Keyed) (fence : RouteFence)
    (authorizedUntil : DateTime) :
    OnlyTouches fence ∅ now state
      (state.refreshAuthorization config fence authorizedUntil now).state := by
  apply onlyTouches_locked hkey
  intro expired
  split
  · exact .refl _ _ _
  · rename_i entry hent
    split
    · exact .refl _ _ _
    · rename_i hfnc
      dsimp only
      split
      · exact .refl _ _ _
      · split
        · exact .refl _ _ _
        · rename_i bumped hbump
          have hrts := relayRoutes_bump hbump
          push Not at hfnc
          constructor
          · intro key route hrt hne
            simp only [RouteState.finish, hrts]
            rw [FiniteMap.getElem?_modify, if_neg, hrt]
            rintro rfl
            rw [hent, Option.some.injEq] at hrt
            exact hne (hrt ▸ hfnc)
          · intro key route hrt
            simp only [RouteState.finish, hrts] at hrt
            rw [FiniteMap.getElem?_modify] at hrt
            split at hrt
            · rename_i heq
              subst heq
              rw [hent] at hrt
              cases hrt
              exact .inr ⟨entry, hent, rfl⟩
            · exact .inr ⟨route, hrt, rfl⟩

theorem onlyTouches_tombstone (hkey : state.Keyed) (fence : RouteFence) :
    OnlyTouches fence ∅ now state (state.tombstone fence now).state := by
  apply onlyTouches_locked hkey
  intro expired
  split
  · exact .refl _ _ _
  · rename_i entry hent
    split
    · exact .refl _ _ _
    · rename_i hfnc
      split
      · exact .refl _ _ _
      · rename_i bumped hbump
        have hrts := relayRoutes_bump hbump
        push Not at hfnc
        constructor
        · intro key route hrt hne
          simp only [RouteState.finish, hrts]
          rw [FiniteMap.getElem?_erase, if_neg, hrt]
          rintro rfl
          rw [hent, Option.some.injEq] at hrt
          exact hne (hrt ▸ hfnc)
        · intro key route hrt
          simp only [RouteState.finish, hrts] at hrt
          rw [FiniteMap.getElem?_erase] at hrt
          split at hrt
          · cases hrt
          · exact .inr ⟨route, hrt, rfl⟩

/-- No entry is stored under the fence. -/
def Lacks (fence : RouteFence) (state : RouteState) : Prop :=
  ∀ (key : Uuid) (route : StoredRelayRoute),
    state.relayRoutes[key]? = some route → route.fence ≠ fence

theorem Lacks.of_slot (hkyd : state.Keyed)
    (hslot : ∀ route : StoredRelayRoute,
      state.relayRoutes[fence.routeId]? = some route → route.fence ≠ fence) :
    Lacks fence state := by
  intro key route hrt hfnc
  have hkey := hkyd key route hrt
  rw [hfnc] at hkey
  subst hkey
  exact hslot route hrt hfnc

theorem RouteState.Keyed.expire (hkey : state.Keyed)
    (hexpire : state.expireAuthorizations now = .ok expired) : expired.Keyed := by
  intro key route hrt
  obtain ⟨-, -, hlook⟩ := RouteState.expireAuthorizations_ok hkey hexpire
  rw [hlook, Option.map_eq_some_iff] at hrt
  obtain ⟨original, horig, rfl⟩ := hrt
  rw [StoredRelayRoute.fence_expire]
  exact hkey key original horig

variable {error : RouteCatalogError}

theorem saysAbsent_advanceRevision {count : ℕ} (hadv : state.advanceRevision count = .error error) :
    saysAbsent error = false := by
  rw [RouteState.advanceRevision] at hadv
  split at hadv
  · cases hadv
  · cases hadv
    rfl

theorem saysAbsent_expireAuthorizations (hexpire : state.expireAuthorizations now = .error error) :
    saysAbsent error = false := by
  rw [RouteState.expireAuthorizations] at hexpire
  split at hexpire
  · rename_i hadv
    cases hexpire
    exact saysAbsent_advanceRevision hadv
  · cases hexpire

theorem saysAbsent_bump {condition : Prop} [Decidable condition]
    (hbump : (if condition then state.bumpRevision else .ok state) = .error error) :
    saysAbsent error = false := by
  split at hbump
  · exact saysAbsent_advanceRevision hbump
  · cases hbump

theorem lacks_locked {α : Type} {body : RouteState → Locked α}
    (gone : Except RouteCatalogError α → Prop) (hkey : state.Keyed)
    (habs : ∀ error, gone (.error error) → saysAbsent error = true)
    (hgone : gone (state.locked now body).result)
    (hbody : ∀ expired, expired.Keyed → gone (body expired).result →
      Lacks fence (body expired).state) :
    Lacks fence (state.locked now body).state := by
  rw [RouteState.locked] at hgone ⊢
  split
  · rename_i error hexpire
    rw [hexpire] at hgone
    have hpre := habs error hgone
    rw [saysAbsent_expireAuthorizations hexpire] at hpre
    cases hpre
  · rename_i expired hexpire
    rw [hexpire] at hgone
    exact hbody expired (RouteState.Keyed.expire hkey hexpire) hgone

/-- The result of a tombstone that succeeded or found nothing. -/
def Withdrawn (result : Except RouteCatalogError Unit) : Prop :=
  ∀ error, result = .error error → saysAbsent error = true

theorem Lacks.of_getElem? (hkey : state.Keyed)
    (hslot : (state.relayRoutes[fence.routeId]?).all (fun route => route.fence ≠ fence)) :
    Lacks fence state := by
  apply Lacks.of_slot hkey
  intro route hrt
  simpa [hrt] using hslot

theorem lacks_tombstone (hkyd : state.Keyed)
    (hgone : Withdrawn (state.tombstone fence now).result) :
    Lacks fence (state.tombstone fence now).state := by
  apply lacks_locked Withdrawn hkyd (fun error herr => herr error rfl) hgone
  intro expired hexp hbody
  cases hent : expired.relayRoutes[fence.routeId]? with
  | none =>
    have hlac : Lacks fence expired := .of_getElem? hexp (by rw [hent]; rfl)
    exact hlac
  | some entry =>
    simp only [hent] at hbody ⊢
    by_cases hfnc : entry.fence = fence
    · rw [if_neg (not_not_intro hfnc)] at hbody ⊢
      split
      · rename_i error hbump
        rw [hbump] at hbody
        have hpre := hbody error rfl
        rw [saysAbsent_bump hbump] at hpre
        cases hpre
      · rename_i bumped hbump
        have hrts := relayRoutes_bump hbump
        intro key route hrt hsm
        simp only [RouteState.finish, hrts] at hrt
        rw [FiniteMap.getElem?_erase] at hrt
        split at hrt
        · cases hrt
        · rename_i hkey
          exact hkey (by rw [← hexp key route hrt, hsm])
    · rw [if_pos hfnc]
      have hlac : Lacks fence expired := .of_getElem? hexp (by simpa [hent] using hfnc)
      exact hlac

theorem lacks_refreshAuthorization {authorizedUntil : DateTime} (hkey : state.Keyed)
    (habs : saysAbsent error = true)
    (hres : (state.refreshAuthorization config fence authorizedUntil now).result = .error error) :
    Lacks fence (state.refreshAuthorization config fence authorizedUntil now).state := by
  refine lacks_locked (fun result => result = .error error) hkey ?_ hres ?_
  · intro other ho
    cases ho
    exact habs
  intro expired hexp hbody
  cases hent : expired.relayRoutes[fence.routeId]? with
  | none =>
    have hlac : Lacks fence expired := .of_getElem? hexp (by rw [hent]; rfl)
    exact hlac
  | some entry =>
    simp only [hent] at hbody ⊢
    by_cases hfnc : entry.fence = fence
    · rw [if_neg (not_not_intro hfnc)] at hbody
      split at hbody
      · cases hbody
        cases habs
      · split at hbody
        · rename_i failure hbump
          cases hbody
          rw [saysAbsent_bump hbump] at habs
          cases habs
        · cases hbody
    · rw [if_pos hfnc]
      have hlac : Lacks fence expired := .of_getElem? hexp (by simpa [hent] using hfnc)
      exact hlac

/-- A locked section that stores nothing but `stored`. -/
theorem origin_locked {α : Type} {body : RouteState → Locked α} (hkey : state.Keyed)
    (hbody : ∀ expired, Origin stored expired (body expired).state) :
    Origin stored state (state.locked now body).state := by
  rw [RouteState.locked]
  split
  · exact .refl stored state
  · rename_i expired hexpire
    exact .of_expired hkey hexpire (hbody expired)

theorem origin_replaceDirectRoutes (hkey : state.Keyed) (directRoutes : List Multiaddr) :
    Origin ∅ state (state.replaceDirectRoutes config directRoutes now).state := by
  rw [RouteState.replaceDirectRoutes]
  split
  · exact .refl _ state
  · apply origin_locked hkey
    intro expired
    split
    · exact .refl _ expired
    · split
      · exact .refl _ expired
      · split
        · exact .refl _ expired
        · rename_i bumped hbump
          cases RouteState.advanceRevision_ok hbump
          exact .refl _ expired

theorem origin_tombstoneAll (hkey : state.Keyed) :
    Origin ∅ state (state.tombstoneAll now).state := by
  apply origin_locked hkey
  intro expired
  split
  · exact .refl _ expired
  · intro key route hrt
    simp [RouteState.finish] at hrt

theorem origin_commitIfCurrent (hkey : state.Keyed) (revision : ℕ)
    (fences : List RouteFence) :
    Origin ∅ state (state.commitIfCurrent revision fences now).state := by
  apply origin_locked hkey
  intro expired
  dsimp only
  split
  · exact .refl _ expired
  · exact .refl _ expired

/-- The fences that a call may store. -/
def storedBy : RouteCall → Set RouteFence
  | .publishConfirmed route => {route.fence}
  | _ => ∅

theorem origin_perform (hkey : state.Keyed) (call : RouteCall) :
    Origin (storedBy call) state (state.perform config now call).state := by
  cases call with
  | replaceDirectRoutes directRoutes => exact origin_replaceDirectRoutes hkey directRoutes
  | publishConfirmed confirmed => exact (onlyTouches_publishConfirmed hkey confirmed).origin
  | refreshAuthorization fence authorizedUntil =>
    exact (onlyTouches_refreshAuthorization hkey fence authorizedUntil).origin
  | tombstone fence => exact (onlyTouches_tombstone hkey fence).origin
  | tombstoneAll => exact origin_tombstoneAll hkey
  | snapshot => exact origin_locked hkey (.refl ∅)
  | commitIfCurrent revision fences => exact origin_commitIfCurrent hkey revision fences

theorem origin_storeConfirmed_error
    (herr : (state.storeConfirmed config route now).result = .error error) :
    Origin ∅ state (state.storeConfirmed config route now).state := by
  rw [RouteState.storeConfirmed] at herr ⊢
  split
  · exact .refl _ state
  · rename_i hslot
    rw [hslot] at herr
    dsimp only at herr ⊢
    split
    · exact .refl _ state
    · rename_i hroom
      rw [if_neg hroom] at herr
      split
      · exact .refl _ state
      · rename_i bumped hbump
        rw [hbump] at herr
        cases herr

theorem origin_publishConfirmed_error (hkey : state.Keyed) {route : ConfirmedRoute}
    (herr : (state.publishConfirmed config route now).result = .error error) :
    Origin ∅ state (state.publishConfirmed config route now).state := by
  rw [RouteState.publishConfirmed] at herr ⊢
  split
  · exact .refl _ state
  · rename_i hgen
    rw [if_neg hgen] at herr
    split
    · exact .refl _ state
    · rename_i relayPeerId tcpEndpoint htcp
      rw [htcp] at herr
      split
      · exact .refl _ state
      · rename_i wssEndpoint hwss
        simp only [hwss] at herr
        split
        · exact .refl _ state
        · rename_i hunt
          rw [if_neg hunt, RouteState.locked] at herr
          rw [RouteState.locked]
          split
          · exact .refl _ state
          · rename_i expired hexpire
            rw [hexpire] at herr
            exact .of_expired hkey hexpire (origin_storeConfirmed_error herr)

theorem onlyTouches_holder (hkey : state.Keyed) (holder : Holder) :
    OnlyTouches (routeFence holder.fence) (storedBy holder.call) now state
      (state.perform config now holder.call).state := by
  cases holder with
  | publishing route => exact onlyTouches_publishConfirmed hkey route.confirmed
  | refreshing fence authorizedUntil =>
    exact onlyTouches_refreshAuthorization hkey (routeFence fence) authorizedUntil
  | tombstoning fence => exact onlyTouches_tombstone hkey (routeFence fence)
  | fencing fence rest firstError => exact onlyTouches_tombstone hkey (routeFence fence)

variable {catalog : RouteState}

theorem not_holds_iff {fence : LocalRelayFence} :
    ¬Holds catalog fence ↔ Lacks (routeFence fence) catalog := by
  rw [Holds, Lacks]
  push Not
  rfl

theorem Holds.of_origin {fence : LocalRelayFence} (hori : Origin stored state next)
    (hnew : routeFence fence ∉ stored) (hhld : Holds next fence) : Holds state fence := by
  obtain ⟨key, route, hrt, hfnc⟩ := hhld
  rcases hori key route hrt with hst | ⟨earlier, hpri, hsm⟩
  · rw [hfnc] at hst
    exact absurd hst hnew
  · exact ⟨key, earlier, hpri, hsm.trans hfnc⟩

/-- The catalog has said that it does not hold the fence, or no longer. -/
def Gone (result : Except RouteCatalogError RouteReply) : Prop :=
  ∀ error, result = .error error → saysAbsent error = true

/-- The holder works on fences of this coordinator only. -/
def Holder.Within (mine : Set ℕ) : Holder → Prop
  | .publishing route => route.fence.localGeneration ∈ mine
  | .refreshing fence _ => fence.localGeneration ∈ mine
  | .tombstoning fence => fence.localGeneration ∈ mine
  | .fencing fence rest _ => ∀ other ∈ fence :: rest, other.localGeneration ∈ mine

/-- A closed registry does not publish, and `fence_all` visits what is still owned. -/
def Holder.Sound (fenced : FencedRouteState) : Holder → Prop
  | .publishing _ => fenced.closed = false
  | .refreshing _ _ => True
  | .tombstoning _ => True
  | .fencing fence rest firstError =>
    fenced.closed = true ∧ (firstError = none → ∀ other ∈ fenced.owned, other ∈ fence :: rest)

/-- The part of the call that follows drops the fence from the owned ones. -/
def Holder.Drops (result : Except RouteCatalogError RouteReply) : Holder → Prop
  | .publishing _ => False
  | .refreshing _ _ => ∃ error, result = .error error ∧ saysAbsent error = true
  | .tombstoning _ => Gone result
  | .fencing _ _ _ => Gone result

/-- A successful `fence_all` leaves nothing owned. -/
def RegistryReply.Sound (fenced : FencedRouteState) : RegistryReply → Prop
  | .fenced (.ok ()) => fenced.closed = true ∧ fenced.owned = ∅
  | _ => True

/-- What the holder of the mutex can rely on. -/
def Critical.Sound (mine : Set ℕ) (catalog : RouteState) (fenced : FencedRouteState) :
    Critical → Prop
  | .free => True
  | .calling holder => holder.Within mine ∧ holder.Sound fenced
  | .answered holder result =>
    holder.Within mine ∧ holder.Sound fenced ∧
      (holder.Drops result → ¬Holds catalog holder.fence)
  | .returning reply => reply.Sound fenced

/-- Invariant of a registry over a shared catalog. -/
structure FencedInvariant (config : RouteCatalogConfig) (mine : Set ℕ)
    (history : List FencedLabel) (state : FencedCatalog) : Prop where
  well : state.catalog.WellFormed config
  owned : ∀ fence, fence.localGeneration ∈ mine → Holds state.catalog fence →
    fence ∈ state.fenced.owned ∨ state.critical.IsPublishing fence
  within : ∀ fence ∈ state.fenced.owned, fence.localGeneration ∈ mine
  sound : state.critical.Sound mine state.catalog state.fenced
  closed : .returned (.fenced (.ok ())) ∈ history →
    state.fenced.closed = true ∧ state.fenced.owned = ∅
  generations : ∀ fence, PublishedThrough history fence → fence.localGeneration ∈ mine

variable {mine : Set ℕ} {history : List FencedLabel} {source target : FencedCatalog}

variable {label : FencedLabel}

theorem PublishedThrough.of_append {fence : LocalRelayFence} (hlbl : ∀ now route reply,
      label ≠ .inner now (.publishConfirmed route) (.ok reply))
    (hpub : PublishedThrough (history ++ [label]) fence) :
    PublishedThrough history fence := by
  obtain ⟨now, route, reply, hfnc, hm⟩ := hpub
  rw [mem_append, mem_singleton] at hm
  rcases hm with hpri | hlast
  · exact ⟨now, route, reply, hfnc, hpri⟩
  · exact absurd hlast.symm (hlbl now route.confirmed reply)

/-- A label that is no successful `fence_all` adds none. -/
theorem fenced_of_append (hlbl : label ≠ .returned (.fenced (.ok ())))
    (hfen : .returned (.fenced (.ok ())) ∈ history ++ [label]) :
    .returned (.fenced (.ok ())) ∈ history := by
  rw [mem_append, mem_singleton] at hfen
  rcases hfen with hpri | hlast
  · exact hpri
  · exact absurd hlast.symm hlbl

variable {fenced : FencedRouteState}

/-- The loop head of `fence_all`. -/
theorem sound_nextFence {rest : List LocalRelayFence} {firstError : Option String}
    (hcl : fenced.closed = true) (hwin : ∀ other ∈ rest, other.localGeneration ∈ mine)
    (hrest : firstError = none → ∀ other ∈ fenced.owned, other ∈ rest) :
    (FencedRouteState.nextFence firstError rest).Sound mine catalog fenced := by
  cases rest with
  | cons fence rest => exact ⟨hwin, hcl, hrest⟩
  | nil =>
    cases firstError with
    | some error => exact trivial
    | none =>
      refine ⟨hcl, Finset.eq_empty_of_forall_notMem fun other ho => ?_⟩
      simpa using hrest rfl other ho

theorem FencedRouteState.owned_enter (fenced : FencedRouteState) (order : List LocalRelayFence)
    (call : RegistryCall) : (fenced.enter order call).1.owned = fenced.owned := by
  cases call with
  | publish route =>
    rw [FencedRouteState.enter]
    split <;> rfl
  | refreshAuthority fence authorizedUntil =>
    rw [FencedRouteState.enter]
    split <;> rfl
  | tombstone fence =>
    rw [FencedRouteState.enter]
    split <;> rfl
  | fenceAll => rfl

theorem FencedRouteState.closed_enter (order : List LocalRelayFence) (call : RegistryCall)
    (hcl : fenced.closed = true) :
    (fenced.enter order call).1.closed = true := by
  cases call with
  | publish route =>
    rw [FencedRouteState.enter]
    split <;> exact hcl
  | refreshAuthority fence authorizedUntil =>
    rw [FencedRouteState.enter]
    split <;> exact hcl
  | tombstone fence =>
    rw [FencedRouteState.enter]
    split <;> exact hcl
  | fenceAll => rfl

theorem FencedInvariant.enter (hinv : FencedInvariant config mine history source)
    {call : RegistryCall} {order : List LocalRelayFence} (hfree : source.critical = .free)
    (horder : order.Nodup ∧ order.toFinset = source.fenced.owned)
    (hmine : ∀ route, call = .publish route → route.fence.localGeneration ∈ mine) :
    FencedInvariant config mine (history ++ [.enter call])
      ⟨source.catalog, (source.fenced.enter order call).1, (source.fenced.enter order call).2⟩ := by
  have hsm := source.fenced.owned_enter order call
  constructor
  · exact hinv.well
  · intro fence hgen hhld
    rcases hinv.owned fence hgen hhld with hown | hpubl
    · exact .inl (hsm ▸ hown)
    · rw [hfree] at hpubl
      exact hpubl.elim
  · dsimp only
    rw [hsm]
    exact hinv.within
  · cases call with
    | publish route =>
      rw [FencedRouteState.enter]
      split
      · exact trivial
      · rename_i hopen
        exact ⟨hmine route rfl, Bool.eq_false_of_not_eq_true hopen⟩
    | refreshAuthority fence authorizedUntil =>
      rw [FencedRouteState.enter]
      split
      · exact trivial
      · rename_i hown
        push Not at hown
        exact ⟨hinv.within fence hown.2, trivial⟩
    | tombstone fence =>
      rw [FencedRouteState.enter]
      split
      · exact trivial
      · rename_i hown
        exact ⟨hinv.within fence (not_not.mp hown), trivial⟩
    | fenceAll =>
      have hm : ∀ other, other ∈ order ↔ other ∈ source.fenced.owned := by
        intro other
        rw [← horder.2, mem_toFinset]
      apply sound_nextFence rfl
      · intro other ho
        exact hinv.within other ((hm other).mp ho)
      · intro _ other ho
        exact (hm other).mpr ho
  · intro hfen
    obtain ⟨hcl, hown⟩ := hinv.closed (fenced_of_append (by simp) hfen)
    exact ⟨FencedRouteState.closed_enter order call hcl, hsm.trans hown⟩
  · intro fence hpub
    exact hinv.generations fence (.of_append (by simp) hpub)

theorem FencedInvariant.returned (hinv : FencedInvariant config mine history source)
    {reply : RegistryReply} (hreturning : source.critical = .returning reply) :
    FencedInvariant config mine (history ++ [.returned reply])
      ⟨source.catalog, source.fenced, .free⟩ := by
  constructor
  · exact hinv.well
  · intro fence hgen hhld
    rcases hinv.owned fence hgen hhld with hown | hpubl
    · exact .inl hown
    · rw [hreturning] at hpubl
      exact hpubl.elim
  · exact hinv.within
  · exact trivial
  · intro hfen
    rw [mem_append, mem_singleton] at hfen
    rcases hfen with hpri | hlast
    · exact hinv.closed hpri
    · cases hlast
      have hs := hinv.sound
      rw [hreturning] at hs
      exact hs
  · intro fence hpub
    exact hinv.generations fence (.of_append (by simp) hpub)

theorem Holds.of_other {call : RouteCall} {fence : LocalRelayFence} (hkey : catalog.Keyed)
    (hforeign : PublishesWithin mineᶜ call) (hgen : fence.localGeneration ∈ mine)
    (hhld : Holds (catalog.perform config now call).state fence) : Holds catalog fence := by
  apply hhld.of_origin (origin_perform hkey call)
  intro hst
  cases call with
  | publishConfirmed route =>
    have hfnc : routeFence fence = route.fence := hst
    exact hforeign route rfl (hfnc ▸ hgen)
  | _ => exact hst

variable {holder : Holder}

theorem Holder.Within.fence_mem (hwin : holder.Within mine) :
    holder.fence.localGeneration ∈ mine := by
  cases holder with
  | publishing route => exact hwin
  | refreshing fence authorizedUntil => exact hwin
  | tombstoning fence => exact hwin
  | fencing fence rest firstError => exact hwin fence (by simp)

theorem FencedInvariant.other (hinv : FencedInvariant config mine history source)
    {call : RouteCall} (now : DateTime) (hforeign : PublishesWithin mineᶜ call) :
    FencedInvariant config mine (history ++ [.other now call])
      ⟨(source.catalog.perform config now call).state, source.fenced, source.critical⟩ := by
  have hheld : ∀ fence : LocalRelayFence, fence.localGeneration ∈ mine →
      Holds (source.catalog.perform config now call).state fence →
      Holds source.catalog fence := by
    intro fence hgen hhld
    exact hhld.of_other hinv.well.keyed hforeign hgen
  constructor
  · exact hinv.well.perform now call
  · intro fence hgen hhld
    exact hinv.owned fence hgen (hheld fence hgen hhld)
  · exact hinv.within
  · have hs := hinv.sound
    dsimp only
    cases hcri : source.critical with
    | free => exact trivial
    | calling holder =>
      rw [hcri] at hs
      exact hs
    | answered holder result =>
      rw [hcri] at hs
      obtain ⟨hwin, hhold, hdro⟩ := hs
      refine ⟨hwin, hhold, fun hdrp hhld => ?_⟩
      exact hdro hdrp (hheld _ hwin.fence_mem hhld)
    | returning reply =>
      rw [hcri] at hs
      exact hs
  · intro hfen
    exact hinv.closed (fenced_of_append (by simp) hfen)
  · intro fence hpub
    exact hinv.generations fence (.of_append (by simp) hpub)

theorem withdrawn_of_gone {outcome : Locked Unit}
    (hgone : Gone (outcome.map fun _ => .done).result) : Withdrawn outcome.result := by
  intro error herr
  apply hgone error
  simp only [Locked.map, herr]
  rfl

theorem not_holds_of_drops (hkey : catalog.Keyed)
    (hdro : holder.Drops (catalog.perform config now holder.call).result) :
    ¬Holds (catalog.perform config now holder.call).state holder.fence := by
  rw [not_holds_iff]
  cases holder with
  | publishing route => exact hdro.elim
  | refreshing fence authorizedUntil =>
    obtain ⟨error, herr, habs⟩ := hdro
    apply lacks_refreshAuthorization hkey habs
    cases hres : (catalog.refreshAuthorization config (routeFence fence)
        authorizedUntil now).result with
    | ok revision =>
      simp only [Holder.call, RouteState.perform, Locked.map, hres] at herr
      cases herr
    | error failure =>
      simp only [Holder.call, RouteState.perform, Locked.map, hres] at herr
      cases herr
      exact hres
  | tombstoning fence => exact lacks_tombstone hkey (withdrawn_of_gone hdro)
  | fencing fence rest firstError => exact lacks_tombstone hkey (withdrawn_of_gone hdro)

theorem Holds.of_holder (hkey : catalog.Keyed) {fence : LocalRelayFence}
    (hhld : Holds (catalog.perform config now holder.call).state fence) :
    Holds catalog fence ∨ (Critical.answered holder
      (catalog.perform config now holder.call).result).IsPublishing fence := by
  cases holder with
  | publishing route =>
    cases hres : (catalog.publishConfirmed config route.confirmed now).result with
    | error error =>
      exact .inl (hhld.of_origin (origin_publishConfirmed_error hkey hres) (by simp))
    | ok revision =>
      by_cases hfnc : route.fence = fence
      · right
        simp only [Holder.call, RouteState.perform, Locked.map, hres]
        exact hfnc
      · left
        apply hhld.of_origin (onlyTouches_publishConfirmed hkey route.confirmed).origin
        intro hst
        exact hfnc (routeFence_injective hst.symm)
  | refreshing fence authorizedUntil =>
    exact .inl (hhld.of_origin (onlyTouches_holder hkey _).origin (by simp [storedBy, Holder.call]))
  | tombstoning fence =>
    exact .inl (hhld.of_origin (onlyTouches_holder hkey _).origin (by simp [storedBy, Holder.call]))
  | fencing fence rest firstError =>
    exact .inl (hhld.of_origin (onlyTouches_holder hkey _).origin (by simp [storedBy, Holder.call]))

theorem FencedInvariant.inner (hinv : FencedInvariant config mine history source) (now : DateTime)
    (hcalling : source.critical = .calling holder) :
    FencedInvariant config mine
      (history ++ [.inner now holder.call (source.catalog.perform config now holder.call).result])
      ⟨(source.catalog.perform config now holder.call).state, source.fenced,
        .answered holder (source.catalog.perform config now holder.call).result⟩ := by
  have hs := hinv.sound
  rw [hcalling] at hs
  constructor
  · exact hinv.well.perform now holder.call
  · intro fence hgen hhld
    rcases hhld.of_holder hinv.well.keyed with hheld | hpubl
    · rcases hinv.owned fence hgen hheld with hown | hpubl
      · exact .inl hown
      · rw [hcalling] at hpubl
        exact hpubl.elim
    · exact .inr hpubl
  · exact hinv.within
  · exact ⟨hs.1, hs.2, not_holds_of_drops hinv.well.keyed⟩
  · intro hfen
    exact hinv.closed (fenced_of_append (by simp) hfen)
  · intro fence hpub
    obtain ⟨earlier, route, reply, hfnc, hm⟩ := hpub
    rw [mem_append, mem_singleton] at hm
    rcases hm with hpre | hlast
    · exact hinv.generations fence ⟨earlier, route, reply, hfnc, hpre⟩
    · have hwin := hs.1
      cases holder with
      | publishing published =>
        simp only [Holder.call, FencedLabel.inner.injEq, RouteCall.publishConfirmed.injEq]
          at hlast
        have hsm : route.fence = published.fence :=
          routeFence_injective (congrArg ConfirmedRoute.fence hlast.2.1)
        rw [← hfnc, hsm]
        exact hwin
      | refreshing => simp [Holder.call] at hlast
      | tombstoning => simp [Holder.call] at hlast
      | fencing => simp [Holder.call] at hlast

variable {result : Except RouteCatalogError RouteReply}

theorem FencedInvariant.mem_removeOwned (hinv : FencedInvariant config mine history source)
    (hans : source.critical = .answered holder result) (hdro : holder.Drops result)
    {fence : LocalRelayFence} (hgen : fence.localGeneration ∈ mine)
    (hhld : Holds source.catalog fence) :
    fence ∈ (source.fenced.removeOwned holder.fence).owned := by
  have hs := hinv.sound
  rw [hans] at hs
  have hne : fence ≠ holder.fence := by
    rintro rfl
    exact hs.2.2 hdro hhld
  rcases hinv.owned fence hgen hhld with hown | hpubl
  · exact Finset.mem_erase.mpr ⟨hne, hown⟩
  · rw [hans] at hpubl
    cases holder with
    | publishing => exact hdro.elim
    | refreshing => exact hpubl.elim
    | tombstoning => exact hpubl.elim
    | fencing => exact hpubl.elim

theorem FencedInvariant.settled (hinv : FencedInvariant config mine history source)
    (hans : source.critical = .answered holder result) {critical : Critical}
    (hfen : fenced = source.fenced ∧
        (∀ fence, ¬(Critical.answered holder result).IsPublishing fence) ∨
      holder.Drops result ∧ fenced = source.fenced.removeOwned holder.fence)
    (hs : critical.Sound mine source.catalog fenced) :
    FencedInvariant config mine (history ++ [.settle]) ⟨source.catalog, fenced, critical⟩ := by
  constructor
  · exact hinv.well
  · intro fence hgen hhld
    left
    rcases hfen with ⟨rfl, hnone⟩ | ⟨hdro, rfl⟩
    · refine (hinv.owned fence hgen hhld).resolve_right ?_
      rw [hans]
      exact hnone fence
    · exact hinv.mem_removeOwned hans hdro hgen hhld
  · intro fence hfnc
    rcases hfen with ⟨rfl, -⟩ | ⟨-, rfl⟩
    · exact hinv.within fence hfnc
    · exact hinv.within fence (Finset.mem_of_mem_erase hfnc)
  · exact hs
  · intro hret
    obtain ⟨hcl, hown⟩ := hinv.closed (fenced_of_append (by simp) hret)
    rcases hfen with ⟨rfl, -⟩ | ⟨-, rfl⟩
    · exact ⟨hcl, hown⟩
    · refine ⟨hcl, ?_⟩
      simp only [FencedRouteState.removeOwned, hown, Finset.erase_empty]
  · intro fence hpub
    exact hinv.generations fence (.of_append (by simp) hpub)

theorem FencedInvariant.published (hinv : FencedInvariant config mine history source)
    {route : PublishedRelayRoute} {reply : RouteReply}
    (hans : source.critical = .answered (.publishing route) (.ok reply)) :
    FencedInvariant config mine (history ++ [.settle])
      ⟨source.catalog, source.fenced.insertOwned route.fence,
        .returning (.published (.ok ()))⟩ := by
  have hs := hinv.sound
  rw [hans] at hs
  obtain ⟨hwin, hopen, -⟩ := hs
  constructor
  · exact hinv.well
  · intro fence hgen hhld
    left
    rcases hinv.owned fence hgen hhld with hown | hpubl
    · exact Finset.mem_insert_of_mem hown
    · rw [hans] at hpubl
      have hfnc : route.fence = fence := hpubl
      rw [← hfnc]
      exact Finset.mem_insert_self _ _
  · intro fence hfnc
    rcases Finset.mem_insert.mp hfnc with rfl | hpri
    · exact hwin
    · exact hinv.within fence hpri
  · exact trivial
  · intro hret
    have hcl := (hinv.closed (fenced_of_append (by simp) hret)).1
    have hcon : source.fenced.closed = false := hopen
    rw [hcon] at hcl
    cases hcl
  · intro fence hpub
    exact hinv.generations fence (.of_append (by simp) hpub)

/-- `fence_all` moves on to its next fence. -/
theorem sound_fencing_drop {fence : LocalRelayFence} {rest : List LocalRelayFence}
    {firstError : Option String} (hwin : (Holder.fencing fence rest firstError).Within mine)
    (hs : (Holder.fencing fence rest firstError).Sound fenced) :
    (FencedRouteState.nextFence firstError rest).Sound mine catalog
      (fenced.removeOwned fence) := by
  have hcl : (fenced.removeOwned fence).closed = true := hs.1
  apply sound_nextFence hcl
  · intro other ho
    exact hwin other (mem_cons_of_mem _ ho)
  · intro hnone other ho
    obtain ⟨hne, hown⟩ := Finset.mem_erase.mp ho
    exact (mem_cons.mp (hs.2 hnone other hown)).resolve_left hne

theorem FencedInvariant.settle (hinv : FencedInvariant config mine history source)
    (hans : source.critical = .answered holder result) :
    FencedInvariant config mine (history ++ [.settle])
      ⟨source.catalog, (source.fenced.settle result holder).1,
        (source.fenced.settle result holder).2⟩ := by
  have hs := hinv.sound
  rw [hans] at hs
  obtain ⟨hwin, hhold, -⟩ := hs
  have hgone : ∀ {reply : RouteReply}, Gone (.ok reply) := by
    intro reply error herr
    cases herr
  cases holder with
  | publishing route =>
    cases result with
    | ok reply => exact hinv.published hans
    | error error =>
      exact hinv.settled hans (.inl ⟨rfl, fun _ => id⟩) trivial
  | refreshing fence authorizedUntil =>
    cases result with
    | ok reply => exact hinv.settled hans (.inl ⟨rfl, fun _ => id⟩) trivial
    | error error =>
      simp only [FencedRouteState.settle]
      split
      · rename_i habs
        exact hinv.settled hans (.inr ⟨⟨error, rfl, habs⟩, rfl⟩) trivial
      · exact hinv.settled hans (.inl ⟨rfl, fun _ => id⟩) trivial
  | tombstoning fence =>
    cases result with
    | ok reply => exact hinv.settled hans (.inr ⟨hgone, rfl⟩) trivial
    | error error =>
      simp only [FencedRouteState.settle]
      split
      · rename_i habs
        refine hinv.settled hans (.inr ⟨?_, rfl⟩) trivial
        intro other ho
        cases ho
        exact habs
      · exact hinv.settled hans (.inl ⟨rfl, fun _ => id⟩) trivial
  | fencing fence rest firstError =>
    cases result with
    | ok reply =>
      exact hinv.settled hans (.inr ⟨hgone, rfl⟩)
        (sound_fencing_drop hwin hhold)
    | error error =>
      simp only [FencedRouteState.settle]
      split
      · rename_i habs
        refine hinv.settled hans (.inr ⟨?_, rfl⟩)
          (sound_fencing_drop hwin hhold)
        intro other ho
        cases ho
        exact habs
      · refine hinv.settled hans (.inl ⟨rfl, fun _ => id⟩) ?_
        apply sound_nextFence hhold.1
        · intro other ho
          exact hwin other (mem_cons_of_mem _ ho)
        · intro hcon
          cases hcon

theorem FencedInvariant.step (hinv : FencedInvariant config mine history source)
    (hs : FencedStep config mine history source label target) :
    FencedInvariant config mine (history ++ [label]) target := by
  cases hs with
  | enter call order hfree horder hmine => exact hinv.enter hfree horder hmine
  | inner now holder hcalling => exact hinv.inner now hcalling
  | settle holder result hans => exact hinv.settle hans
  | returned reply hreturning => exact hinv.returned hreturning
  | other now call hforeign => exact hinv.other now hforeign

theorem FencedInvariant.start (hwell : catalog.WellFormed config)
    (hforeign : ∀ (key : Uuid) (route : StoredRelayRoute),
      catalog.relayRoutes[key]? = some route → route.fence.localGeneration ∉ mine) :
    FencedInvariant config mine [] (.new catalog) := by
  constructor
  · exact hwell
  · rintro fence hgen ⟨key, route, hrt, hfnc⟩
    refine absurd ?_ (hforeign key route hrt)
    rw [hfnc]
    exact hgen
  · intro fence hfnc
    simp [FencedCatalog.new, FencedRouteState.new] at hfnc
  · exact trivial
  · intro hfen
    simp at hfen
  · rintro fence ⟨now, route, reply, -, hm⟩
    simp at hm

/-- The clock reading of a catalog operation. -/
def FencedLabel.reading : FencedLabel → Option DateTime
  | .inner now _ _ => some now
  | _ => none

/-- A step of the coordinator leaves the entries of other owners, expiry apart. -/
theorem FencedStep.spares (hkey : source.catalog.Keyed)
    (hs : source.critical.Sound mine source.catalog source.fenced)
    (hstep : FencedStep config mine history source label target)
    (hown : ∀ now call, label ≠ .other now call) {key : Uuid}
    (hrt : source.catalog.relayRoutes[key]? = some route)
    (ho : route.fence.localGeneration ∉ mine) :
    target.catalog.relayRoutes[key]? = some route ∨
      ∃ now, label.reading = some now ∧ route.isExpired now = true ∧
        target.catalog.relayRoutes[key]? = some route.withdraw := by
  cases hstep with
  | enter call order hfree horder hmine => exact .inl hrt
  | inner now holder hcalling =>
    rw [hcalling] at hs
    have hne : route.fence ≠ routeFence holder.fence := by
      intro hfnc
      apply ho
      rw [hfnc]
      exact hs.1.fence_mem
    rcases (onlyTouches_holder hkey holder).kept key route hrt hne with hkept | hlap
    · exact .inl hkept
    · exact .inr ⟨now, rfl, hlap⟩
  | settle holder result hans => exact .inl hrt
  | returned reply hreturning => exact .inl hrt
  | other now call hforeign => exact absurd rfl (hown now call)

/-- What `fence_all` has fenced stays gone in every interleaving with other owners. -/
theorem publication_fence_permanent {directRoutes : List Multiaddr} {start catalog : RouteState}
    {earlier : List RouteLabel} {registry : FencedCatalog}
    (hnew : RouteState.new config directRoutes = .ok start)
    (hearlier : RouteRun config start earlier catalog)
    (hforeign : ∀ (key : Uuid) (route : StoredRelayRoute),
      catalog.relayRoutes[key]? = some route → route.fence.localGeneration ∉ mine)
    (hrun : FencedRun config mine (.new catalog) history registry) :
    (∀ fence, PublishedThrough history fence → Holds registry.catalog fence →
      fence ∈ registry.fenced.owned ∨ registry.critical.IsPublishing fence) ∧
    (.returned (.fenced (.ok ())) ∈ history →
      ∀ fence, PublishedThrough history fence → ¬Holds registry.catalog fence) ∧
    (∀ label next, FencedStep config mine history registry label next →
      (∀ now call, label ≠ .other now call) →
      ∀ (key : Uuid) (route : StoredRelayRoute), registry.catalog.relayRoutes[key]? = some route →
        route.fence.localGeneration ∉ mine →
        next.catalog.relayRoutes[key]? = some route ∨
          ∃ now, label.reading = some now ∧ route.isExpired now = true ∧
            next.catalog.relayRoutes[key]? = some route.withdraw) := by
  have hwell := RouteState.wellFormed_of_run hnew hearlier
  have hinvariant : FencedInvariant config mine history registry := by
    apply hrun.invariant (FencedInvariant config mine) (.start hwell hforeign)
    intro history state label next hbefore hstep
    exact hbefore.step hstep
  refine ⟨?_, ?_, ?_⟩
  · intro fence hpublished hholds
    exact hinvariant.owned fence (hinvariant.generations fence hpublished) hholds
  · intro hfenced fence hpublished hholds
    obtain ⟨hclosed, hempty⟩ := hinvariant.closed hfenced
    rcases hinvariant.owned fence (hinvariant.generations fence hpublished) hholds with
      howned | hpublishing
    · simp [hempty] at howned
    · -- A closed registry has no publication under way.
      have hsound := hinvariant.sound
      cases hcritical : registry.critical with
      | answered holder result =>
        rw [hcritical] at hsound hpublishing
        cases holder with
        | publishing route =>
          have hopen : registry.fenced.closed = false := hsound.2.1
          rw [hopen] at hclosed
          cases hclosed
        | refreshing => exact hpublishing
        | tombstoning => exact hpublishing
        | fencing => exact hpublishing
      | free =>
        rw [hcritical] at hpublishing
        exact hpublishing
      | calling =>
        rw [hcritical] at hpublishing
        exact hpublishing
      | returning =>
        rw [hcritical] at hpublishing
        exact hpublishing
  · intro label next hstep hown key route hroute hother
    exact hstep.spares hinvariant.well.keyed hinvariant.sound hown hroute hother

def sampleFence : LocalRelayFence := ⟨1, 2, 3, 1⟩

def samplePublished : PublishedRelayRoute where
  fence := sampleFence
  routes := sampleConfirmed.routes
  limits := sampleConfirmed.limits
  authorizedUntil := sampleConfirmed.authorizedUntil
  relayPeerId := sampleConfirmed.relayPeerId

def sampleRemoved : RouteState :=
  (sampleStored.perform sampleConfig 0 (Holder.fencing sampleFence [] none).call).state

theorem sampleStored_tombstone :
    (sampleStored.perform sampleConfig 0 (Holder.fencing sampleFence [] none).call).result =
      .ok .done := rfl

theorem FencedStep.inner_of_eq (hcalling : source.critical = .calling holder)
    (hres : (source.catalog.perform config now holder.call).result = result)
    (hn : (source.catalog.perform config now holder.call).state = next) :
    FencedStep config mine history source (.inner now holder.call result)
      ⟨next, source.fenced, .answered holder result⟩ := by
  subst hres hn
  exact .inner now holder hcalling

/-- A published route that `fence_all` removes. -/
theorem publication_fence_permanent_sample : ∃ history registry,
      FencedRun sampleConfig {1} (.new sampleInitial) history registry ∧
      .returned (.fenced (.ok ())) ∈ history ∧ PublishedThrough history sampleFence ∧
      ¬Holds registry.catalog sampleFence := by
  have henter : FencedRun sampleConfig {1} (.new sampleInitial) _
      ⟨sampleInitial, .new, .calling (.publishing samplePublished)⟩ :=
    Transition.Run.start.extend (.enter (.publish samplePublished) [] rfl ⟨.nil, rfl⟩
      (by rintro route hroute; cases hroute; rfl))
  have hinner : FencedRun sampleConfig {1} (.new sampleInitial) _
      ⟨sampleStored, .new, .answered (.publishing samplePublished) (.ok (.revision 2))⟩ :=
    henter.extend (.inner_of_eq rfl (congrArg Locked.result sampleInitial_publish)
      (congrArg Locked.state sampleInitial_publish))
  have hpublish : FencedRun sampleConfig {1} (.new sampleInitial) _
      ⟨sampleStored, FencedRouteState.new.insertOwned sampleFence, .free⟩ :=
    (hinner.extend (.settle _ _ rfl)).extend (.returned _ rfl)
  have hfence : FencedRun sampleConfig {1} (.new sampleInitial) _
      ⟨sampleStored, ⟨true, (FencedRouteState.new.insertOwned sampleFence).owned⟩,
        .calling (.fencing sampleFence [] none)⟩ :=
    hpublish.extend (.enter .fenceAll [sampleFence] rfl ⟨nodup_singleton _, rfl⟩
      (by rintro route hroute; cases hroute))
  have hremove : FencedRun sampleConfig {1} (.new sampleInitial) _
      ⟨sampleRemoved, ⟨true, (FencedRouteState.new.insertOwned sampleFence).owned⟩,
        .answered (.fencing sampleFence [] none) (.ok .done)⟩ :=
    hfence.extend (.inner_of_eq rfl sampleStored_tombstone rfl)
  have hdone := (hremove.extend (.settle _ _ rfl)).extend (.returned (.fenced (.ok ())) rfl)
  refine ⟨_, _, hdone, by simp, ?_, ?_⟩
  · exact ⟨0, samplePublished, .revision 2, rfl, by simp [Holder.call]⟩
  · refine (publication_fence_permanent sampleInitial_new .start ?_ hdone).2.1 (by simp) _
      ⟨0, samplePublished, .revision 2, rfl, by simp [Holder.call]⟩
    simp [sampleInitial]

end AukiSdk.Coordinator
