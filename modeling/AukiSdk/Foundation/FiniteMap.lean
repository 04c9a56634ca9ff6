import Mathlib

/-!
# Finite maps

Look-up and counting rules of `Std.ExtTreeMap`.
-/

namespace AukiSdk.Foundation.FiniteMap

open List

open Std (ExtTreeMap TransOrd LawfulEqOrd)

variable {κ ν : Type*} [Ord κ] [TransOrd κ]

/-- Number of stored values that satisfy `test`. -/
def count (test : ν → Bool) (map : ExtTreeMap κ ν) : ℕ :=
  map.toList.countP fun stored => test stored.2

theorem size_eq_count (map : ExtTreeMap κ ν) : map.size = count (fun _ => true) map := by
  simp [count]

variable [LawfulEqOrd κ]

theorem any_toList_iff (map : ExtTreeMap κ ν) (test : ν → Bool) :
    (map.toList.any fun stored => test stored.2) = true ↔
      ∃ (key : κ) (value : ν), map[key]? = some value ∧ test value = true := by
  simp only [any_eq_true, Prod.exists, ExtTreeMap.mem_toList_iff_getElem?_eq_some]

theorem nodup_map_fst_toList (map : ExtTreeMap κ ν) : (map.toList.map Prod.fst).Nodup := by
  rw [ExtTreeMap.map_fst_toList_eq_keys]
  exact map.distinct_keys.imp fun hne heq => hne (LawfulEqOrd.compare_eq_iff_eq.mpr heq)

variable {map : ExtTreeMap κ ν}

theorem filterMap_values_congr {ρ : Type*} {project : ν → Option ρ} {map' : ExtTreeMap κ ν}
    (hlook : ∀ key : κ, map[key]?.bind project = map'[key]?.bind project) :
    (map.toList.map Prod.snd).filterMap project = (map'.toList.map Prod.snd).filterMap project := by
  have hval : ∀ source : ExtTreeMap κ ν, (source.toList.map Prod.snd).filterMap project =
        (source.filterMap fun _ => project).toList.map Prod.snd := by
    intro source
    rw [ExtTreeMap.toList_filterMap, filterMap_map, map_filterMap]
    simp only [Option.map_map, Function.comp_def, Option.map_id']
  rw [hval, hval]
  congr 2
  apply ExtTreeMap.ext_getElem?
  intro key
  rw [ExtTreeMap.getElem?_filterMap', ExtTreeMap.getElem?_filterMap', hlook]

variable {test : ν → Bool}

theorem count_congr {test' : ν → Bool}
    (htest : ∀ (key : κ) (value : ν), map[key]? = some value → test value = test' value) :
    count test map = count test' map := by
  refine countP_congr fun stored hst => ?_
  rw [htest stored.1 stored.2 (ExtTreeMap.mem_toList_iff_getElem?_eq_some.mp hst)]

theorem count_eq_zero_iff : count test map = 0 ↔
      ∀ (key : κ) (value : ν), map[key]? = some value → test value = false := by
  simp only [count, countP_eq_zero, Prod.forall, Bool.not_eq_true,
    ExtTreeMap.mem_toList_iff_getElem?_eq_some]

@[simp]
theorem count_empty (test : ν → Bool) : count test (∅ : ExtTreeMap κ ν) = 0 := by
  rw [count_eq_zero_iff]
  simp

variable [DecidableEq κ]

theorem getElem?_insert (map : ExtTreeMap κ ν) (key : κ) (value : ν) (other : κ) :
    (map.insert key value)[other]? = if other = key then some value else map[other]? := by
  rw [ExtTreeMap.getElem?_insert]
  simp only [LawfulEqOrd.compare_eq_iff_eq, eq_comm (a := key)]

theorem find?_values {keyOf : ν → κ}
    (hkyd : ∀ key value, map[key]? = some value → keyOf value = key) (key : κ)
    (htest : ∀ value, map[key]? = some value → test value = true) :
    (map.toList.map Prod.snd).find? (fun value => keyOf value = key && test value) = map[key]? := by
  have hm : ∀ value, value ∈ map.toList.map Prod.snd ↔ map[keyOf value]? = some value := by
    intro value
    rw [mem_map]
    constructor
    · rintro ⟨⟨found, value⟩, hf, rfl⟩
      rw [ExtTreeMap.mem_toList_iff_getElem?_eq_some] at hf
      rw [hkyd found value hf]
      exact hf
    · intro hval
      exact ⟨(keyOf value, value), ExtTreeMap.mem_toList_iff_getElem?_eq_some.mpr hval, rfl⟩
  cases hval : map[key]? with
  | none =>
    rw [find?_eq_none]
    intro found hf hboth
    rw [Bool.and_eq_true, decide_eq_true_iff] at hboth
    rw [hm, hboth.1, hval] at hf
    cases hf
  | some value =>
    have hkey := hkyd key value hval
    cases hfind : (map.toList.map Prod.snd).find?
        (fun value => keyOf value = key && test value) with
    | none =>
      rw [find?_eq_none] at hfind
      refine absurd ?_ (hfind value ((hm value).mpr (by rw [hkey]; exact hval)))
      rw [Bool.and_eq_true, decide_eq_true_iff]
      exact ⟨hkey, htest value hval⟩
    | some found =>
      have hf := (hm found).mp (mem_of_find?_eq_some hfind)
      have hboth := find?_some hfind
      rw [Bool.and_eq_true, decide_eq_true_iff] at hboth
      rw [hboth.1, hval] at hf
      exact hf.symm

theorem getElem?_erase (map : ExtTreeMap κ ν) (key other : κ) :
    (map.erase key)[other]? = if other = key then none else map[other]? := by
  rw [ExtTreeMap.getElem?_erase]
  simp only [LawfulEqOrd.compare_eq_iff_eq, eq_comm (a := key)]

theorem getElem?_modify (map : ExtTreeMap κ ν) (key : κ) (change : ν → ν) (other : κ) :
    (map.modify key change)[other]? =
      if other = key then map[other]?.map change else map[other]? := by
  rw [ExtTreeMap.getElem?_modify]
  simp only [LawfulEqOrd.compare_eq_iff_eq, eq_comm (a := key)]
  split
  · rename_i heq
    rw [heq]
  · rfl

variable {value : ν} {key : κ}

theorem insert_stored (hst : map[key]? = some value) : map.insert key value = map := by
  apply ExtTreeMap.ext_getElem?
  intro other
  rw [getElem?_insert]
  split
  · rename_i heq
    rw [heq, hst]
  · rfl

theorem forall_insert {property : κ → ν → Prop}
    (hst : ∀ other found, map[other]? = some found → property other found)
    (hval : property key value) :
    ∀ other found, (map.insert key value)[other]? = some found → property other found := by
  intro other found hf
  rw [getElem?_insert] at hf
  split at hf
  · rename_i heq
    cases hf
    rw [heq]
    exact hval
  · exact hst other found hf

theorem modify_stored (hst : map[key]? = some value) (change : ν → ν) :
    map.modify key change = map.insert key (change value) := by
  apply ExtTreeMap.ext_getElem?
  intro other
  rw [getElem?_insert, getElem?_modify]
  split
  · rename_i heq
    rw [heq, hst]
    rfl
  · rfl

theorem getElem?_foldl_modify {change : ν → ν}
    (hide : ∀ value, change (change value) = change value) (keys : List κ)
    (map : ExtTreeMap κ ν) (other : κ) :
    (keys.foldl (fun map key => map.modify key change) map)[other]? =
      if other ∈ keys then map[other]?.map change else map[other]? := by
  induction keys generalizing map with
  | nil => simp
  | cons key keys ih =>
    rw [foldl_cons, ih, getElem?_modify]
    by_cases hkey : other = key
    · subst hkey
      cases map[other]? <;> simp [hide]
    · simp [hkey]

theorem countP_toList_key (map : ExtTreeMap κ ν) (key : κ) (test : ν → Bool) :
    (map.toList.countP fun stored => decide (stored.1 = key) && test stored.2) =
      (map[key]?.filter test).toList.length := by
  classical
  have hst : ∀ stored ∈ map.toList, map[stored.1]? = some stored.2 :=
    fun stored hm => ExtTreeMap.mem_toList_iff_getElem?_eq_some.mp hm
  cases hkey : map[key]?.filter test with
  | none =>
    rw [Option.toList_none, length_nil, countP_eq_zero]
    intro stored hm htest
    simp only [Bool.and_eq_true, decide_eq_true_eq] at htest
    have hf := hst stored hm
    rw [htest.1] at hf
    simp [hf, htest.2] at hkey
  | some value =>
    obtain ⟨hval, htest⟩ := Option.filter_eq_some_iff.mp hkey
    have hcnt : (map.toList.countP fun stored =>
        decide (stored.1 = key) && test stored.2) = map.toList.count (key, value) := by
      rw [List.count]
      apply countP_congr
      intro stored hm
      simp only [Bool.and_eq_true, decide_eq_true_eq, beq_iff_eq]
      constructor
      · rintro ⟨rfl, -⟩
        have hf := hst stored hm
        rw [hval] at hf
        exact Prod.ext rfl (Option.some.inj hf).symm
      · rintro rfl
        exact ⟨rfl, htest⟩
    rw [hcnt, Option.toList_some, length_singleton]
    exact count_eq_one_of_mem (nodup_map_fst_toList map).of_map
      (ExtTreeMap.mem_toList_iff_getElem?_eq_some.mpr hval)

/-- Keys under which a value that satisfies `test` is stored. -/
def keysWhere (test : ν → Bool) (map : ExtTreeMap κ ν) : Finset κ :=
  map.keys.toFinset.filter fun key => map[key]?.any test

theorem mem_keysWhere :
    key ∈ keysWhere test map ↔ ∃ value, map[key]? = some value ∧ test value = true := by
  simp only [keysWhere, Finset.mem_filter, mem_toFinset, ExtTreeMap.mem_keys, Option.any_eq_true]
  constructor
  · exact And.right
  · rintro ⟨value, hval, htest⟩
    refine ⟨?_, value, hval, htest⟩
    rw [ExtTreeMap.mem_iff_isSome_getElem?, hval]
    rfl

theorem count_eq_card (test : ν → Bool) (map : ExtTreeMap κ ν) :
    count test map = (keysWhere test map).card := by
  have hnd : ((map.toList.filter fun stored => test stored.2).map Prod.fst).Nodup :=
    (nodup_map_fst_toList map).sublist (filter_sublist.map _)
  rw [count, countP_eq_length_filter, ← length_map Prod.fst, ← toFinset_card_of_nodup hnd]
  congr 1
  ext key
  simp [mem_keysWhere, ExtTreeMap.mem_toList_iff_getElem?_eq_some]

theorem count_le_of_subset {test' : ν → Bool} {map' : ExtTreeMap κ ν}
    (hsub : keysWhere test map ⊆ keysWhere test' map') :
    count test map ≤ count test' map' := by
  rw [count_eq_card, count_eq_card]
  exact Finset.card_le_card hsub

theorem count_insert_le_add_one (test : ν → Bool) (map : ExtTreeMap κ ν) (key : κ)
    (value : ν) : count test (map.insert key value) ≤ count test map + 1 := by
  rw [count_eq_card, count_eq_card]
  have hsub : keysWhere test (map.insert key value) ⊆ insert key (keysWhere test map) := by
    intro other ho
    rw [mem_keysWhere] at ho
    rw [Finset.mem_insert, mem_keysWhere]
    obtain ⟨found, hf, htest⟩ := ho
    rw [getElem?_insert] at hf
    split at hf
    · rename_i heq
      exact .inl heq
    · exact .inr ⟨found, hf, htest⟩
  exact (Finset.card_le_card hsub).trans (Finset.card_insert_le _ _)

theorem count_insert_le
    (hrepl : test value = true → ∃ old, map[key]? = some old ∧ test old = true) :
    count test (map.insert key value) ≤ count test map := by
  apply count_le_of_subset
  intro other ho
  rw [mem_keysWhere] at ho ⊢
  obtain ⟨found, hf, htest⟩ := ho
  rw [getElem?_insert] at hf
  split at hf
  · rename_i heq
    cases hf
    rw [heq]
    exact hrepl htest
  · exact ⟨found, hf, htest⟩

theorem count_erase_le (test : ν → Bool) (map : ExtTreeMap κ ν) (key : κ) :
    count test (map.erase key) ≤ count test map := by
  apply count_le_of_subset
  intro other ho
  rw [mem_keysWhere] at ho ⊢
  obtain ⟨found, hf, htest⟩ := ho
  rw [getElem?_erase] at hf
  split at hf
  · cases hf
  · exact ⟨found, hf, htest⟩

end AukiSdk.Foundation.FiniteMap
