import AukiSdk.Foundation.FiniteMap

/-!
# Logs of keyed changes

A log of changes is replayed over a view of the stored records.
-/

namespace AukiSdk.Foundation.KeyedLog

open List Function

open Std (ExtTreeMap TransOrd LawfulEqOrd)

variable {κ ν : Type*}

/-- One change of a keyed collection. -/
inductive Change (κ ν : Type*) where
  | appear (key : κ) (value : ν)
  | replace (key : κ) (value : ν)
  | vanish (key : κ)

namespace Change

def key : Change κ ν → κ
  | .appear key _ | .replace key _ | .vanish key => key

/-- The record after the change. -/
def value : Change κ ν → Option ν
  | .appear _ value | .replace _ value => some value
  | .vanish _ => none

/-- What a change expects of the record before it. -/
def Admissible (view : κ → Option ν) : Change κ ν → Prop
  | .appear key _ => view key = none
  | .replace key _ | .vanish key => view key ≠ none

end Change

variable [DecidableEq κ]

/-- The view after a log. -/
def replay (view : κ → Option ν) (log : List (Change κ ν)) : κ → Option ν :=
  log.foldl (fun view change => Function.update view change.key change.value) view

/-- Every change of the log is admissible where it stands. -/
def Legal (view : κ → Option ν) (log : List (Change κ ν)) : Prop :=
  ∀ earlier change later, log = earlier ++ change :: later →
    change.Admissible (replay view earlier)

theorem replay_cons (view : κ → Option ν) (change : Change κ ν) (log : List (Change κ ν)) :
    replay view (change :: log) = replay (Function.update view change.key change.value) log := rfl

theorem replay_append (view : κ → Option ν) (first second : List (Change κ ν)) :
    replay view (first ++ second) = replay (replay view first) second :=
  foldl_append

theorem legal_nil (view : κ → Option ν) : Legal view [] := by
  intro earlier change later hsp
  simp at hsp

variable {view : κ → Option ν}

theorem Legal.append {first second : List (Change κ ν)} (hfst : Legal view first)
    (hsnd : Legal (replay view first) second) :
    Legal view (first ++ second) := by
  intro earlier change later hsp
  rw [append_eq_append_iff] at hsp
  rcases hsp with ⟨rest, rfl, hrest⟩ | ⟨rest, hrest, hlat⟩
  · rw [replay_append]
    exact hsnd rest change later hrest
  · cases rest with
    | nil =>
      rw [append_nil] at hrest
      subst hrest
      exact hsnd [] change later hlat.symm
    | cons head rest =>
      rw [cons_append, List.cons.injEq] at hlat
      rw [← hlat.1] at hrest
      exact hfst earlier change rest hrest

variable {log : List (Change κ ν)}

theorem replay_of_not_mem {key : κ} (hkey : key ∉ log.map Change.key) :
    replay view log key = view key := by
  induction log generalizing view with
  | nil => rfl
  | cons change log ih =>
    rw [map_cons, mem_cons, not_or] at hkey
    rw [replay_cons, ih hkey.2, update_of_ne hkey.1]

theorem replay_of_mem (hnd : (log.map Change.key).Nodup) {change : Change κ ν}
    (hchg : change ∈ log) :
    replay view log change.key = change.value := by
  induction log generalizing view with
  | nil => simp at hchg
  | cons head log ih =>
    rw [map_cons, nodup_cons] at hnd
    rw [replay_cons]
    rcases mem_cons.mp hchg with rfl | htail
    · rw [replay_of_not_mem hnd.1, update_self]
    · exact ih hnd.2 htail

/-- A log that touches every key once is legal if each change is at the start. -/
theorem legal_of_nodup (hnd : (log.map Change.key).Nodup)
    (hadm : ∀ change ∈ log, change.Admissible view) : Legal view log := by
  rintro earlier change later rfl
  have hbeg := hadm change (by simp)
  have hkey : change.key ∉ earlier.map Change.key := by
    rw [map_append, map_cons, nodup_middle, nodup_cons] at hnd
    exact fun hm => hnd.1 (mem_append_left _ hm)
  have hview : replay view earlier change.key = view change.key := replay_of_not_mem hkey
  cases change with
  | appear key value => exact hview.trans hbeg
  | replace key value => exact fun hnone => hbeg (hview.symm.trans hnone)
  | vanish key => exact fun hnone => hbeg (hview.symm.trans hnone)

variable [Ord κ] [TransOrd κ]

/-- The entries of a hash map in an unspecified order, given by `order`. -/
def iterate (order : List κ) (map : ExtTreeMap κ ν) : List (κ × ν) :=
  (order.dedup.filterMap fun key => map[key]?.map fun value => (key, value)) ++
    map.toList.filter fun stored => stored.1 ∉ order

/-- The map without some keys. -/
def eraseAll (keys : List κ) (map : ExtTreeMap κ ν) : ExtTreeMap κ ν :=
  keys.foldl (fun map key => map.erase key) map

variable [LawfulEqOrd κ]

theorem mem_iterate {order : List κ} {map : ExtTreeMap κ ν} {stored : κ × ν} :
    stored ∈ iterate order map ↔ map[stored.1]? = some stored.2 := by
  have hlist : stored ∈ map.toList ↔ map[stored.1]? = some stored.2 :=
    ExtTreeMap.mem_toList_iff_getElem?_eq_some
  simp only [iterate, mem_append, mem_filterMap, mem_dedup, mem_filter,
    Option.map_eq_some_iff, decide_eq_true_eq, hlist]
  constructor
  · rintro (⟨key, -, value, hval, rfl⟩ | ⟨hst, -⟩)
    · exact hval
    · exact hst
  · intro hst
    by_cases horder : stored.1 ∈ order
    · exact .inl ⟨stored.1, horder, stored.2, hst, rfl⟩
    · exact .inr ⟨hst, horder⟩

theorem nodup_map_fst_iterate (order : List κ) (map : ExtTreeMap κ ν) :
    ((iterate order map).map Prod.fst).Nodup := by
  rw [iterate, map_append]
  apply List.Nodup.append
  · have hfil : ((order.dedup.filterMap fun key =>
        map[key]?.map fun value => (key, value)).map Prod.fst) =
        order.dedup.filter fun key => map[key]?.isSome := by
      rw [map_filterMap, ← filterMap_eq_filter]
      congr 1
      funext key
      rw [Option.guard]
      cases map[key]? <;> rfl
    rw [hfil]
    exact (nodup_dedup order).filter _
  · exact (FiniteMap.nodup_map_fst_toList map).sublist (filter_sublist.map _)
  · intro key hfst hsnd
    simp only [mem_map, mem_filterMap, mem_dedup, mem_filter,
      Option.map_eq_some_iff, decide_eq_true_eq] at hfst hsnd
    obtain ⟨_, ⟨_, horder, _, -, rfl⟩, rfl⟩ := hfst
    obtain ⟨_, ⟨-, hnot⟩, rfl⟩ := hsnd
    exact hnot horder

theorem getElem?_eraseAll (keys : List κ) (map : ExtTreeMap κ ν) (key : κ) :
    (eraseAll keys map)[key]? = if key ∈ keys then none else map[key]? := by
  induction keys generalizing map with
  | nil => simp [eraseAll]
  | cons head keys ih =>
    have hcons : eraseAll (head :: keys) map = eraseAll keys (map.erase head) := rfl
    rw [hcons, ih, FiniteMap.getElem?_erase]
    by_cases hhead : key = head
    · simp [hhead]
    · simp [hhead]

end AukiSdk.Foundation.KeyedLog
