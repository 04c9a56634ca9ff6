import Mathlib.Data.List.Destutter
import Mathlib.Data.List.Sort

/-!
# Sorted lists without duplicates
-/

namespace AukiSdk.Foundation

open List

variable {α : Type*} [LinearOrder α]

variable (items : List α)

/-- `sort_unstable` and `dedup`. -/
def sortedUnique : List α :=
  (items.insertionSort (· ≤ ·)).destutter (· ≠ ·)

theorem sortedUnique_eq_dedup : sortedUnique items = (items.insertionSort (· ≤ ·)).dedup :=
  (pairwise_insertionSort (· ≤ ·) items).destutter_eq_dedup

@[simp]
theorem mem_sortedUnique {items : List α} {item : α} :
    item ∈ sortedUnique items ↔ item ∈ items := by
  rw [sortedUnique_eq_dedup, mem_dedup, mem_insertionSort]

theorem sortedUnique_strict : (sortedUnique items).Pairwise (· < ·) := by
  have hsort : (sortedUnique items).Pairwise (· ≤ ·) :=
    (pairwise_insertionSort (· ≤ ·) items).sublist (destutter_sublist _ _)
  have hnd : (sortedUnique items).Nodup := by
    rw [sortedUnique_eq_dedup]
    exact nodup_dedup _
  exact hsort.imp₂ (fun _ _ hle hne => lt_of_le_of_ne hle hne) hnd

end AukiSdk.Foundation
