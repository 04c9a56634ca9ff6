import AukiSdk.Foundation.Transition
import AukiSdk.Transport.CircuitHop

/-!
# The circuit hop invariant

For each key the table is a small state machine.
-/

namespace AukiSdk.Transport

open AukiSdk.Foundation Function
open AukiSdk.Net
open AukiSdk.Relay
open Std (ExtTreeMap)

/-- The hops of one key. -/
structure HopState where
  selected : Option ConnectionId
  pending : Prop
  live : Finset ConnectionId

namespace HopState

/-- At most two generations; a pending key selects nothing; else a live hop is selected. -/
structure Valid (hop : HopState) : Prop where
  selected_live : ∀ connectionId, hop.selected = some connectionId → connectionId ∈ hop.live
  live_le : hop.live.card ≤ 2
  unselected : hop.pending → hop.selected = none
  pending_live_le : hop.pending → hop.live.card ≤ 1
  selected_of_live : ¬hop.pending → hop.live.Nonempty → hop.selected.isSome

/-- `next` selects again what `restore_previous` finds. -/
structure Restores (hop next : HopState) : Prop where
  pending_iff : next.pending ↔ hop.pending
  live_eq : next.live = hop.live
  kept : hop.selected.isSome ∨ hop.pending → next.selected = hop.selected
  found : hop.selected = none → ¬hop.pending →
    (∃ connectionId ∈ hop.live, next.selected = some connectionId) ∨
      (hop.live = ∅ ∧ next.selected = none)

theorem Restores.valid {hop next : HopState} (hres : hop.Restores next)
    (hsel : ∀ connectionId, hop.selected = some connectionId → connectionId ∈ hop.live)
    (hlive : hop.live.card ≤ 2)
    (hpend : hop.pending → hop.selected = none ∧ hop.live.card ≤ 1) : next.Valid := by
  have hcas : next.selected = hop.selected ∨
      (∃ connectionId ∈ hop.live, next.selected = some connectionId) := by
    by_cases hkept : hop.selected.isSome ∨ hop.pending
    · exact .inl (hres.kept hkept)
    · push Not at hkept
      have hnone : hop.selected = none := by simpa using hkept.1
      rcases hres.found hnone hkept.2 with hf | ⟨-, hn⟩
      · exact .inr hf
      · exact .inl (hn.trans hnone.symm)
  constructor
  · intro connectionId hn
    rw [hres.live_eq]
    rcases hcas with hsm | ⟨found, hf, hsome⟩
    · exact hsel connectionId (hsm ▸ hn)
    · rw [hsome] at hn
      cases hn
      exact hf
  · rw [hres.live_eq]
    exact hlive
  · intro hn
    have hhop := hres.pending_iff.mp hn
    rw [hres.kept (.inr hhop)]
    exact (hpend hhop).1
  · intro hn
    rw [hres.live_eq]
    exact (hpend (hres.pending_iff.mp hn)).2
  · intro hn hlive
    rw [hres.pending_iff] at hn
    rw [hres.live_eq] at hlive
    cases hcur : hop.selected with
    | some connectionId =>
      rw [hres.kept (.inl (by rw [hcur]; rfl)), hcur]
      rfl
    | none =>
      rcases hres.found hcur hn with ⟨found, -, hsome⟩ | ⟨hemp, -⟩
      · rw [hsome]
        rfl
      · rw [hemp] at hlive
        exact absurd hlive Finset.not_nonempty_empty

end HopState

namespace CircuitHopTable

/-- The live connections of a key. -/
def live (table : CircuitHopTable) (key : CircuitHopKey) : Finset ConnectionId :=
  FiniteMap.keysWhere (fun entry => decide (entry.key = key)) table.byConnection

/-- The state of one key. -/
def hop (table : CircuitHopTable) (key : CircuitHopKey) : HopState :=
  ⟨table.byKey key, key ∈ table.pending, table.live key⟩

/-- The invariant of the table. -/
structure Sound (table : CircuitHopTable) : Prop where
  owned : ∀ (connectionId : ConnectionId) (entry : CircuitHopEntry),
    table.byConnection[connectionId]? = some entry → entry.owners.Nonempty
  valid : ∀ key, (table.hop key).Valid

variable {connectionId : ConnectionId} {table : CircuitHopTable} {key : CircuitHopKey}

theorem mem_live : connectionId ∈ table.live key ↔
      ∃ entry, table.byConnection[connectionId]? = some entry ∧ entry.key = key := by
  simp [live, FiniteMap.mem_keysWhere]

theorem live_congr {table' : CircuitHopTable} (hkeys : ∀ connectionId : ConnectionId,
      ((table'.byConnection[connectionId]?).map CircuitHopEntry.key = some key) ↔
        ((table.byConnection[connectionId]?).map CircuitHopEntry.key = some key)) :
    table'.live key = table.live key := by
  ext connectionId
  simpa [mem_live, Option.map_eq_some_iff] using hkeys connectionId

theorem restorePrevious_byConnection (table : CircuitHopTable) (key : CircuitHopKey) :
    (table.restorePrevious key).byConnection = table.byConnection := by
  simp only [restorePrevious]
  split
  · split <;> rfl
  · rfl

theorem restorePrevious_pending (table : CircuitHopTable) (key : CircuitHopKey) :
    (table.restorePrevious key).pending = table.pending := by
  simp only [restorePrevious]
  split
  · split <;> rfl
  · rfl

theorem restorePrevious_other (table : CircuitHopTable) {other : CircuitHopKey}
    (ho : other ≠ key) : (table.restorePrevious key).hop other = table.hop other := by
  simp only [restorePrevious]
  split
  · split
    · rfl
    · simp only [hop, select, live, update_of_ne ho]
  · rfl

theorem restorePrevious_restores (table : CircuitHopTable) (key : CircuitHopKey) :
    (table.hop key).Restores ((table.restorePrevious key).hop key) := by
  constructor
  · simp only [hop, restorePrevious_pending]
  · simp only [hop, live, restorePrevious_byConnection]
  · intro hkept
    simp only [hop] at hkept ⊢
    rw [restorePrevious, if_neg]
    rintro ⟨hnone, hidle⟩
    rcases hkept with hsome | hpend
    · rw [hnone] at hsome
      cases hsome
    · exact hidle hpend
  · intro hnone hidle
    simp only [hop] at hnone hidle ⊢
    rw [restorePrevious, if_pos ⟨hnone, hidle⟩]
    cases hfind : table.byConnection.toList.find? fun stored => stored.2.key = key with
    | some stored =>
      left
      refine ⟨stored.1, ?_, by simp [select]⟩
      rw [mem_live]
      exact ⟨stored.2,
        ExtTreeMap.mem_toList_iff_getElem?_eq_some.mp (List.mem_of_find?_eq_some hfind),
        by simpa using List.find?_some hfind⟩
    | none =>
      right
      refine ⟨?_, hnone⟩
      rw [Finset.eq_empty_iff_forall_notMem]
      intro connectionId hm
      obtain ⟨entry, hent, hkey⟩ := mem_live.mp hm
      rw [List.find?_eq_none] at hfind
      exact hfind (connectionId, entry)
        (ExtTreeMap.mem_toList_iff_getElem?_eq_some.mpr hent) (by simpa using hkey)

theorem sound_restorePrevious (hown : ∀ (connectionId : ConnectionId) (entry : CircuitHopEntry),
      table.byConnection[connectionId]? = some entry → entry.owners.Nonempty)
    (hots : ∀ other, other ≠ key → (table.hop other).Valid)
    (hsel : ∀ connectionId, table.byKey key = some connectionId →
      connectionId ∈ table.live key) (hlive : (table.live key).card ≤ 2)
    (hpend : key ∈ table.pending → table.byKey key = none ∧ (table.live key).card ≤ 1) :
    (table.restorePrevious key).Sound := by
  constructor
  · rw [restorePrevious_byConnection]
    exact hown
  · intro other
    by_cases ho : other = key
    · subst ho
      exact (restorePrevious_restores table other).valid hsel hlive hpend
    · rw [restorePrevious_other table ho]
      exact hots other ho

variable {entry : CircuitHopEntry}

theorem hop_insert_owners (hent : table.byConnection[connectionId]? = some entry)
    (owners : Finset CircuitHopOwner) (owner : ℕ) (key : CircuitHopKey) :
    ({ table with
      lastOwner := owner
      byConnection := table.byConnection.insert connectionId
        { entry with owners } } : CircuitHopTable).hop key = table.hop key := by
  have hlive : ({ table with
      lastOwner := owner
      byConnection := table.byConnection.insert connectionId
        { entry with owners } } : CircuitHopTable).live key = table.live key := by
    apply live_congr
    intro other
    rw [FiniteMap.getElem?_insert]
    by_cases ho : other = connectionId
    · rw [if_pos ho, ho, hent]
      rfl
    · rw [if_neg ho]
  simp only [hop, hlive]

theorem owned_insert (hown : ∀ (connectionId : ConnectionId) (entry : CircuitHopEntry),
      table.byConnection[connectionId]? = some entry → entry.owners.Nonempty)
    (connectionId : ConnectionId) (hent : entry.owners.Nonempty) :
    ∀ (other : ConnectionId) (found : CircuitHopEntry),
      (table.byConnection.insert connectionId entry)[other]? = some found →
        found.owners.Nonempty := by
  intro other found hf
  rw [FiniteMap.getElem?_insert] at hf
  split at hf
  · cases hf
    exact hent
  · exact hown other found hf

theorem sound_forget (hm : connectionId ∈ table.live key)
    (hown : ∀ (other : ConnectionId) (found : CircuitHopEntry), other ≠ connectionId →
      table.byConnection[other]? = some found → found.owners.Nonempty)
    (hval : ∀ key, (table.hop key).Valid) :
    (table.forget connectionId key).Sound := by
  obtain ⟨entry, hent, rfl⟩ := mem_live.mp hm
  have hlook : ∀ other : ConnectionId, (table.byConnection.erase connectionId)[other]? =
      if other = connectionId then none else table.byConnection[other]? :=
    FiniteMap.getElem?_erase table.byConnection connectionId
  have hlive : ∀ (byKey : CircuitHopKey → Option ConnectionId) (key : CircuitHopKey),
      ({ table with byKey, byConnection := table.byConnection.erase connectionId } :
        CircuitHopTable).live key = (table.live key).erase connectionId := by
    intro byKey key
    ext other
    rw [mem_live, Finset.mem_erase, mem_live]
    simp only [hlook]
    by_cases ho : other = connectionId
    · simp [ho]
    · simp [ho]
  have hcard : ∀ key, ((table.live key).erase connectionId).card ≤ (table.live key).card :=
    fun key => Finset.card_le_card (Finset.erase_subset _ _)
  set byKey := if table.byKey entry.key = some connectionId then
    Function.update table.byKey entry.key none else table.byKey with hbyKey
  have hfor : table.forget connectionId entry.key =
      ({ table with byKey, byConnection := table.byConnection.erase connectionId } :
        CircuitHopTable).restorePrevious entry.key := by
    simp only [forget, hbyKey]
    split <;> rfl
  have hsm : ∀ other, other ≠ entry.key → byKey other = table.byKey other := by
    intro other ho
    simp only [hbyKey]
    split
    · exact update_of_ne ho _ _
    · rfl
  have hcho : ∀ found, byKey entry.key = some found →
      table.byKey entry.key = some found ∧ found ≠ connectionId := by
    intro found hf
    simp only [hbyKey] at hf
    split at hf
    · simp at hf
    · rename_i hkept
      refine ⟨hf, ?_⟩
      rintro rfl
      exact hkept hf
  rw [hfor]
  apply sound_restorePrevious
  · intro other found hf
    rw [hlook] at hf
    split at hf
    · cases hf
    · rename_i ho
      exact hown other found ho hf
  · intro other ho
    -- The removed entry belongs to another key.
    have hnot : connectionId ∉ table.live other := by
      rw [mem_live]
      rintro ⟨found, hf, hkey⟩
      cases hent.symm.trans hf
      exact ho hkey.symm
    have hhop : ({ table with byKey, byConnection := table.byConnection.erase connectionId } :
        CircuitHopTable).hop other = table.hop other := by
      simp only [hop, hlive, Finset.erase_eq_of_notMem hnot, hsm other ho]
    rw [hhop]
    exact hval other
  · intro found hf
    obtain ⟨hsel, hne⟩ := hcho found hf
    rw [hlive]
    exact Finset.mem_erase.mpr ⟨hne, (hval entry.key).selected_live found hsel⟩
  · rw [hlive]
    exact (hcard entry.key).trans (hval entry.key).live_le
  · intro hpend
    rw [hlive]
    refine ⟨?_, (hcard entry.key).trans ((hval entry.key).pending_live_le hpend)⟩
    cases hf : byKey entry.key with
    | none => exact hf
    | some found =>
      have hnone := (hval entry.key).unselected hpend
      exact absurd (hnone.symm.trans (hcho found hf).1) (by simp)

theorem Sound.invalidate (hs : table.Sound) (connectionId : ConnectionId) :
    (table.invalidate connectionId).Sound := by
  simp only [CircuitHopTable.invalidate]
  split
  · exact hs
  · rename_i entry hent
    exact sound_forget (mem_live.mpr ⟨entry, hent, rfl⟩)
      (fun other found _ => hs.owned other found) hs.valid

theorem Sound.release (hs : table.Sound) (connectionId : ConnectionId)
    (owner : CircuitHopOwner) :
    (table.release connectionId owner).2.Sound := by
  simp only [CircuitHopTable.release]
  split
  · exact hs
  · rename_i entry hent
    split
    · exact hs
    · have hhop := hop_insert_owners hent (entry.owners.erase owner) table.lastOwner
      split
      · rename_i hrem
        constructor
        · exact owned_insert hs.owned connectionId
            (Finset.nonempty_iff_ne_empty.mpr hrem)
        · intro key
          rw [hhop key]
          exact hs.valid key
      · apply sound_forget
        · rw [mem_live]
          exact ⟨{ entry with owners := entry.owners.erase owner },
            by rw [FiniteMap.getElem?_insert, if_pos rfl], rfl⟩
        · intro other found ho hf
          rw [FiniteMap.getElem?_insert, if_neg ho] at hf
          exact hs.owned other found hf
        · intro key
          rw [hhop key]
          exact hs.valid key

/-- `next` has the pending keys of `table` and no connection that `table` lacks. -/
structure Shrinks (table next : CircuitHopTable) : Prop where
  pending_eq : next.pending = table.pending
  missing : ∀ connectionId : ConnectionId, table.byConnection[connectionId]? = none →
    next.byConnection[connectionId]? = none

theorem shrinks_forget (table : CircuitHopTable) (connectionId : ConnectionId)
    (key : CircuitHopKey) : table.Shrinks (table.forget connectionId key) := by
  constructor
  · simp only [forget, restorePrevious_pending]
    split <;> rfl
  · intro other ho
    simp only [forget, restorePrevious_byConnection, FiniteMap.getElem?_erase]
    split
    · rfl
    · split <;> exact ho

theorem shrinks_insert (hent : table.byConnection[connectionId]? = some entry)
    (entry' : CircuitHopEntry) (owner : ℕ) :
    table.Shrinks { table with
      lastOwner := owner
      byConnection := table.byConnection.insert connectionId entry' } := by
  constructor
  · rfl
  · intro other ho
    rw [FiniteMap.getElem?_insert]
    by_cases hsm : other = connectionId
    · rw [hsm, hent] at ho
      cases ho
    · rw [if_neg hsm]
      exact ho

theorem Shrinks.refl (table : CircuitHopTable) : table.Shrinks table :=
  ⟨rfl, fun _ hmiss => hmiss⟩

theorem Shrinks.trans {next last : CircuitHopTable} (hfst : table.Shrinks next)
    (hsnd : next.Shrinks last) : table.Shrinks last :=
  ⟨hsnd.pending_eq.trans hfst.pending_eq,
    fun connectionId hmiss => hsnd.missing _ (hfst.missing connectionId hmiss)⟩

theorem shrinks_invalidate (table : CircuitHopTable) (connectionId : ConnectionId) :
    table.Shrinks (table.invalidate connectionId) := by
  simp only [invalidate]
  split
  · exact Shrinks.refl table
  · exact shrinks_forget table connectionId _

theorem shrinks_release (table : CircuitHopTable) (connectionId : ConnectionId)
    (owner : CircuitHopOwner) : table.Shrinks (table.release connectionId owner).2 := by
  simp only [release]
  split
  · exact Shrinks.refl table
  · rename_i entry hent
    split
    · exact Shrinks.refl table
    · split
      · exact shrinks_insert hent _ table.lastOwner
      · exact (shrinks_insert hent _ table.lastOwner).trans (shrinks_forget _ _ _)

theorem failPending_pending (table : CircuitHopTable) (key : CircuitHopKey) :
    (table.failPending key).pending = table.pending.erase key := by
  rw [failPending, restorePrevious_pending]

theorem failPending_byConnection (table : CircuitHopTable) (key : CircuitHopKey) :
    (table.failPending key).byConnection = table.byConnection := by
  rw [failPending, restorePrevious_byConnection]

theorem established_pending (table : CircuitHopTable) (key : CircuitHopKey)
    (connectionId : ConnectionId) (owners : List CircuitHopOwner) :
    (table.established key connectionId owners).pending = table.pending.erase key := by
  simp only [established]
  split
  · exact restorePrevious_pending _ key
  · rfl

theorem established_missing {other : ConnectionId} (owners : List CircuitHopOwner)
    (ho : other ≠ connectionId) (hmiss : table.byConnection[other]? = none) :
    (table.established key connectionId owners).byConnection[other]? = none := by
  simp only [established]
  split
  · rw [restorePrevious_byConnection]
    exact hmiss
  · simp only [FiniteMap.getElem?_insert, if_neg ho]
    exact hmiss

/-- A replacement may have deselected the old hop, which then is the only one. -/
structure Prepared (table : CircuitHopTable) (key : CircuitHopKey) : Prop where
  owned : ∀ (connectionId : ConnectionId) (entry : CircuitHopEntry),
    table.byConnection[connectionId]? = some entry → entry.owners.Nonempty
  others : ∀ other, other ≠ key → (table.hop other).Valid
  selected_live : ∀ connectionId, table.byKey key = some connectionId →
    connectionId ∈ table.live key
  live_le : (table.live key).card ≤ 2
  unselected : key ∈ table.pending → table.byKey key = none
  unselected_live_le : table.byKey key = none → (table.live key).card ≤ 1

theorem Sound.prepared (hs : table.Sound) (key : CircuitHopKey) : table.Prepared key := by
  have hkey := hs.valid key
  refine ⟨hs.owned, fun other _ => hs.valid other, hkey.selected_live, hkey.live_le,
    hkey.unselected, ?_⟩
  intro hnone
  by_cases hpend : key ∈ table.pending
  · exact hkey.pending_live_le hpend
  · rw [Finset.card_le_one_iff_subset_singleton]
    by_contra hlive
    have hnon : (table.live key).Nonempty := by
      rw [Finset.nonempty_iff_ne_empty]
      intro hemp
      rw [hemp] at hlive
      exact hlive ⟨0, Finset.empty_subset _⟩
    have hsome := hkey.selected_of_live hpend hnon
    simp only [hop, hnone] at hsome
    cases hsome

theorem Prepared.sound (hprep : table.Prepared key)
    (hkey : (table.byKey key).isSome ∨ key ∈ table.pending) : table.Sound := by
  refine ⟨hprep.owned, fun other => ?_⟩
  by_cases ho : other = key
  · subst ho
    refine ⟨hprep.selected_live, hprep.live_le, hprep.unselected, ?_, ?_⟩
    · exact fun hpend => hprep.unselected_live_le (hprep.unselected hpend)
    · exact fun hidle _ => hkey.resolve_right hidle
  · exact hprep.others other ho

theorem Sound.prepareReplacement {next : CircuitHopTable} {old : ConnectionId}
    (hs : table.Sound) (hpre : table.prepareReplacement key old = .ok next) :
    next.Prepared key ∧ next.pending = table.pending ∧
      next.byConnection = table.byConnection := by
  simp only [CircuitHopTable.prepareReplacement] at hpre
  split at hpre
  · cases hpre
  split at hpre
  · cases hpre
    exact ⟨hs.prepared key, rfl, rfl⟩
  · rename_i hsel
    rw [not_not] at hsel
    split at hpre
    · cases hpre
    · rename_i hcnt
      cases hpre
      have hprep := hs.prepared key
      refine ⟨⟨hprep.owned, ?_, ?_, hprep.live_le, ?_, ?_⟩, rfl, rfl⟩
      · intro other ho
        have hhop : (table.deselect key).hop other = table.hop other := by
          simp only [hop, deselect, live, update_of_ne ho]
        rw [hhop]
        exact hs.valid other
      · intro connectionId hconn
        simp [deselect] at hconn
      · intro _
        simp [deselect]
      · intro _
        rw [FiniteMap.count_eq_card] at hcnt
        have hle : (table.live key).card < 2 := Nat.lt_of_not_le hcnt
        exact Nat.le_of_lt_succ hle

/-- What `acquire` finds in a prepared table. -/
theorem Prepared.acquire (hprep : table.Prepared key) :
    (∃ connectionId owner next, table.acquire key = (.live connectionId owner, next) ∧
        next.Sound ∧ table.Shrinks next) ∨
      (table.acquire key = (.pending, table) ∧ key ∈ table.pending) ∨
      (table.acquire key = (.vacant, table) ∧ key ∉ table.pending ∧ table.byKey key = none) := by
  cases hsel : table.byKey key with
  | none =>
    by_cases hpend : key ∈ table.pending
    · exact .inr (.inl ⟨by simp [CircuitHopTable.acquire, hsel, hpend], hpend⟩)
    · exact .inr (.inr ⟨by simp [CircuitHopTable.acquire, hsel, hpend], hpend,
        rfl⟩)
  | some connectionId =>
    obtain ⟨entry, hent, -⟩ := mem_live.mp (hprep.selected_live connectionId hsel)
    have hs := hprep.sound (.inl (by rw [hsel]; rfl))
    let next : CircuitHopTable := { table with
      lastOwner := table.nextOwner
      byConnection := table.byConnection.insert connectionId
        { entry with owners := insert table.nextOwner entry.owners } }
    have hacq : table.acquire key = (.live connectionId table.nextOwner, next) := by
      simp only [CircuitHopTable.acquire, hsel, hent, next]
    refine .inl ⟨connectionId, table.nextOwner, next, hacq, ?_, shrinks_insert hent _ _⟩
    constructor
    · apply owned_insert hs.owned connectionId
      exact Finset.insert_nonempty _ _
    · intro other
      rw [hop_insert_owners hent]
      exact hs.valid other

theorem Prepared.failPending (hprep : table.Prepared key) : (table.failPending key).Sound := by
  apply sound_restorePrevious
  · exact hprep.owned
  · intro other ho
    have hval := hprep.others other ho
    simpa [hop, live, ho] using hval
  · exact hprep.selected_live
  · exact hprep.live_le
  · intro hpend
    simp at hpend

theorem Prepared.markPending (hprep : table.Prepared key) (hvac : table.byKey key = none) :
    (table.markPending key).Sound := by
  refine ⟨hprep.owned, fun other => ?_⟩
  by_cases ho : other = key
  · subst ho
    refine ⟨hprep.selected_live, hprep.live_le, fun _ => hvac,
      fun _ => hprep.unselected_live_le hvac, fun hidle => ?_⟩
    simp [hop, CircuitHopTable.markPending] at hidle
  · have hval := hprep.others other ho
    simpa [hop, live, CircuitHopTable.markPending, ho] using hval

theorem Sound.established (hs : table.Sound) (hpend : key ∈ table.pending)
    (hfrs : table.byConnection[connectionId]? = none) (owners : List CircuitHopOwner) :
    (table.established key connectionId owners).Sound := by
  simp only [CircuitHopTable.established]
  split
  · exact (hs.prepared key).failPending
  · rename_i howners
    have hlive : ∀ (table' : CircuitHopTable) (other : CircuitHopKey),
        table'.byConnection = table.byConnection.insert connectionId ⟨key, owners.toFinset⟩ →
        table'.live other = if other = key then insert connectionId (table.live key)
          else table.live other := by
      intro table' other hins
      ext found
      rw [mem_live, hins]
      simp only [FiniteMap.getElem?_insert]
      by_cases hf : found = connectionId
      · subst hf
        by_cases ho : other = key
        · simp [ho]
        · simp [ho, mem_live, hfrs, Ne.symm ho]
      · by_cases ho : other = key
        · simp [hf, ho, mem_live]
        · simp [hf, ho, mem_live]
    constructor
    · exact owned_insert hs.owned connectionId (Finset.nonempty_iff_ne_empty.mpr howners)
    · intro other
      by_cases ho : other = key
      · subst ho
        constructor
        · intro found hf
          simp only [hop, select, update_self, Option.some.injEq] at hf
          simp only [hop]
          rw [hlive _ other rfl, if_pos rfl, ← hf]
          exact Finset.mem_insert_self _ _
        · simp only [hop]
          rw [hlive _ other rfl, if_pos rfl]
          exact (Finset.card_insert_le _ _).trans
            (Nat.succ_le_succ ((hs.valid other).pending_live_le hpend))
        · intro hsti
          simp [hop, select] at hsti
        · intro hsti
          simp [hop, select] at hsti
        · intro _ _
          simp [hop, select]
      · have hval := hs.valid other
        simp only [hop] at hval ⊢
        rw [hlive _ other rfl, if_neg ho]
        simpa [select, ho] using hval

end CircuitHopTable

end AukiSdk.Transport
