import Mathlib

/-!
# Machine-word arithmetic on natural numbers

Counters of the modelled code are natural numbers.
-/

namespace AukiSdk.Foundation.Word

def u64Bound : ℕ := 2 ^ 64

def checkedAdd (value increment : ℕ) : Option ℕ :=
  if value + increment < u64Bound then some (value + increment) else none

def wrappingAdd (value increment : ℕ) : ℕ := (value + increment) % u64Bound

def saturatingAdd (value increment : ℕ) : ℕ :=
  min (value + increment) (u64Bound - 1)

def checkedSub (value decrement : ℕ) : Option ℕ :=
  if decrement ≤ value then some (value - decrement) else none

theorem checkedAdd_eq_some {value increment sum : ℕ}
    (hsum : checkedAdd value increment = some sum) : sum = value + increment := by
  unfold checkedAdd at hsum
  split at hsum
  · exact (Option.some.inj hsum).symm
  · simp at hsum

end AukiSdk.Foundation.Word
