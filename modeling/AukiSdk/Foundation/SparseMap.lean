import AukiSdk.Foundation.FiniteMap

/-!
# Sparse maps

Finite maps that store no zero, and are determined by the value at each key.
-/

namespace AukiSdk.Foundation.SparseMap

open List

open Std (ExtTreeMap TransOrd LawfulEqOrd)

variable {κ ν : Type*} [Ord κ] [TransOrd κ]

/-- The value at a key, zero where nothing is stored. -/
def valueAt (zero : ν) (map : ExtTreeMap κ ν) (key : κ) : ν :=
  map[key]?.getD zero

/-- The entries of a list, stored in order. -/
def collect (entries : List (κ × ν)) : ExtTreeMap κ ν :=
  entries.foldl (fun map entry => map.insert entry.1 entry.2) ∅

/-- A changed value is stored, whatever it is. -/
def store (zero : ν) (change : ν → ν) (key : κ) (map : ExtTreeMap κ ν) : ExtTreeMap κ ν :=
  map.alter key fun found => some (change (found.getD zero))

/-- A changed value is stored unless it is zero. -/
def storeNonzero [DecidableEq ν] (zero : ν) (change : ν → ν) (key : κ) (map : ExtTreeMap κ ν) :
    ExtTreeMap κ ν :=
  map.alter key fun found =>
    if change (found.getD zero) = zero then none else some (change (found.getD zero))

/-- No stored value is zero. -/
def Pruned (zero : ν) (map : ExtTreeMap κ ν) : Prop :=
  ∀ key : κ, map[key]? ≠ some zero

variable [LawfulEqOrd κ]

section Values

variable {zero : ν} {change : ν → ν} {map : ExtTreeMap κ ν} {key other : κ}

theorem getElem?_alter_of_ne {change : Option ν → Option ν} (hne : other ≠ key) :
    (map.alter key change)[other]? = map[other]? := by
  rw [ExtTreeMap.getElem?_alter, if_neg]
  intro heq
  exact hne (LawfulEqOrd.compare_eq_iff_eq.mp heq).symm

omit [LawfulEqOrd κ] in
theorem valueAt_empty : valueAt zero (∅ : ExtTreeMap κ ν) key = zero := by
  rw [valueAt, ExtTreeMap.getElem?_empty]
  rfl

omit [LawfulEqOrd κ] in
theorem valueAt_store_self : valueAt zero (store zero change key map) key =
    change (valueAt zero map key) := by
  rw [valueAt, store, ExtTreeMap.getElem?_alter_self]
  rfl

theorem valueAt_store_of_ne (hne : other ≠ key) :
    valueAt zero (store zero change key map) other = valueAt zero map other := by
  rw [valueAt, store, getElem?_alter_of_ne hne]
  rfl

omit [LawfulEqOrd κ] in
theorem Pruned.getElem?_eq [DecidableEq ν] (hpru : Pruned zero map) (key : κ) :
    map[key]? = if valueAt zero map key = zero then none else some (valueAt zero map key) := by
  rw [valueAt]
  cases hf : map[key]? with
  | none => rw [Option.getD_none, if_pos rfl]
  | some value =>
    rw [Option.getD_some, if_neg]
    rintro rfl
    exact hpru key hf

theorem eq_of_valueAt [DecidableEq ν] {map' : ExtTreeMap κ ν} (hpru : Pruned zero map)
    (hpruned' : Pruned zero map') (hval : ∀ key, valueAt zero map key = valueAt zero map' key) :
    map = map' := by
  apply ExtTreeMap.ext_getElem?
  intro key
  rw [hpru.getElem?_eq, hpruned'.getElem?_eq, hval]

omit [LawfulEqOrd κ] in
theorem pruned_empty : Pruned zero (∅ : ExtTreeMap κ ν) := by
  intro key
  simp

section StoreNonzero

variable [DecidableEq ν]

omit [LawfulEqOrd κ] in
theorem getElem?_storeNonzero_self : (storeNonzero zero change key map)[key]? =
    if change (valueAt zero map key) = zero then none else some (change (valueAt zero map key)) :=
  ExtTreeMap.getElem?_alter_self

theorem getElem?_storeNonzero_of_ne (hne : other ≠ key) :
    (storeNonzero zero change key map)[other]? = map[other]? :=
  getElem?_alter_of_ne hne

omit [LawfulEqOrd κ] in
theorem valueAt_storeNonzero_self : valueAt zero (storeNonzero zero change key map) key =
    change (valueAt zero map key) := by
  rw [valueAt, getElem?_storeNonzero_self]
  by_cases hzero : change (valueAt zero map key) = zero
  · rw [if_pos hzero, hzero]
    rfl
  · rw [if_neg hzero]
    rfl

theorem valueAt_storeNonzero_of_ne (hne : other ≠ key) :
    valueAt zero (storeNonzero zero change key map) other = valueAt zero map other := by
  rw [valueAt, getElem?_storeNonzero_of_ne hne]
  rfl

theorem Pruned.storeNonzero (hpru : Pruned zero map) :
    Pruned zero (storeNonzero zero change key map) := by
  intro other
  by_cases hsm : other = key
  · subst hsm
    rw [getElem?_storeNonzero_self]
    split
    · exact (Option.some_ne_none zero).symm
    · rename_i hne
      rw [ne_eq, Option.some.injEq]
      exact hne
  · rw [getElem?_storeNonzero_of_ne hsm]
    exact hpru other

theorem storeNonzero_comm {change' : ν → ν}
    (hcomm : ∀ value, change' (change value) = change (change' value)) (key' : κ) :
    storeNonzero zero change' key' (storeNonzero zero change key map) =
      storeNonzero zero change key (storeNonzero zero change' key' map) := by
  apply ExtTreeMap.ext_getElem?
  intro other
  by_cases hkeys : key = key'
  · subst hkeys
    by_cases hsm : other = key
    · subst hsm
      rw [getElem?_storeNonzero_self, getElem?_storeNonzero_self, valueAt_storeNonzero_self,
        valueAt_storeNonzero_self, hcomm]
    · simp only [getElem?_storeNonzero_of_ne hsm]
  · by_cases hsm : other = key
    · subst hsm
      rw [getElem?_storeNonzero_self, valueAt_storeNonzero_of_ne hkeys,
        getElem?_storeNonzero_of_ne hkeys, getElem?_storeNonzero_self]
    · by_cases hsame' : other = key'
      · subst hsame'
        rw [getElem?_storeNonzero_self, valueAt_storeNonzero_of_ne hsm,
          getElem?_storeNonzero_of_ne hsm, getElem?_storeNonzero_self]
      · simp only [getElem?_storeNonzero_of_ne hsm, getElem?_storeNonzero_of_ne hsame']

end StoreNonzero

theorem getElem?_foldl_alter [DecidableEq κ] {change : κ → Option ν → Option ν} {keys : List κ}
    (hnd : keys.Nodup) (map : ExtTreeMap κ ν) (key : κ) :
    (keys.foldl (fun map key => map.alter key (change key)) map)[key]? =
      if key ∈ keys then change key map[key]? else map[key]? := by
  induction keys generalizing map with
  | nil => rfl
  | cons first rest ih =>
    rw [nodup_cons] at hnd
    rw [foldl_cons, ih hnd.2]
    by_cases hsm : key = first
    · subst hsm
      rw [if_neg hnd.1, if_pos mem_cons_self, ExtTreeMap.getElem?_alter_self]
    · rw [getElem?_alter_of_ne hsm]
      simp only [mem_cons, hsm, false_or]

theorem getElem?_filter_eq_some {keep : κ → ν → Bool} {value : ν} :
    (map.filter keep)[key]? = some value ↔ map[key]? = some value ∧ keep key value = true := by
  rw [ExtTreeMap.getElem?_filter', Option.filter_eq_some_iff]

theorem valueAt_filter {keep : ν → Bool} (hkeep : ∀ value, keep value = true ↔ value ≠ zero) :
    valueAt zero (map.filter fun _ value => keep value) key = valueAt zero map key := by
  rw [valueAt, valueAt, ExtTreeMap.getElem?_filter']
  cases map[key]? with
  | none => rfl
  | some value =>
    by_cases hzero : value = zero
    · subst hzero
      have hdrop : keep value = false := by
        rw [← Bool.not_eq_true, hkeep]
        exact fun hne => hne rfl
      simp [Option.filter, hdrop]
    · simp [Option.filter, (hkeep value).mpr hzero]

theorem pruned_filter {keep : ν → Bool} (hkeep : ∀ value, keep value = true ↔ value ≠ zero) :
    Pruned zero (map.filter fun _ value => keep value) := by
  intro key hf
  rw [getElem?_filter_eq_some] at hf
  exact (hkeep zero).mp hf.2 rfl

end Values

section Collect

variable [DecidableEq κ]

theorem getElem?_foldl_insert {entries : List (κ × ν)} (hnd : (entries.map Prod.fst).Nodup)
    (map : ExtTreeMap κ ν) (key : κ) (value : ν) :
    (entries.foldl (fun map entry => map.insert entry.1 entry.2) map)[key]? = some value ↔
      (key, value) ∈ entries ∨ key ∉ entries.map Prod.fst ∧ map[key]? = some value := by
  induction entries generalizing map with
  | nil => simp
  | cons entry rest ih =>
    rw [map_cons, nodup_cons] at hnd
    rw [foldl_cons, ih hnd.2, FiniteMap.getElem?_insert, map_cons, mem_cons, mem_cons, not_or]
    by_cases hsm : key = entry.1
    · subst hsm
      have hnot : (entry.1, value) ∉ rest := by
        intro hm
        exact hnd.1 (mem_map.mpr ⟨_, hm, rfl⟩)
      simp only [hnot, hnd.1, not_false_eq_true, true_and, if_true, false_or,
        Option.some.injEq, not_true_eq_false, false_and, or_false]
      constructor
      · rintro rfl
        rfl
      · intro heq
        rw [← heq]
    · have ho : (key, value) ≠ entry := fun heq => hsm (congrArg Prod.fst heq)
      simp only [ho, false_or, hsm, not_false_eq_true, true_and, if_false]

theorem getElem?_collect {entries : List (κ × ν)} (hnd : (entries.map Prod.fst).Nodup)
    (key : κ) (value : ν) :
    (collect entries)[key]? = some value ↔ (key, value) ∈ entries := by
  rw [collect, getElem?_foldl_insert hnd, ExtTreeMap.getElem?_empty]
  simp

theorem collect_toList (map : ExtTreeMap κ ν) : collect map.toList = map := by
  apply ExtTreeMap.ext_getElem?
  intro key
  apply Option.ext
  intro value
  rw [getElem?_collect (FiniteMap.nodup_map_fst_toList map),
    ExtTreeMap.mem_toList_iff_getElem?_eq_some]

end Collect

end AukiSdk.Foundation.SparseMap
