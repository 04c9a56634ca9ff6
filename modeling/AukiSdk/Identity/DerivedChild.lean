import Mathlib.Data.Set.Insert

/-!
# Derived children

`Wallet::derive_child` hashes the seed and the label into the halves of the child's seed.
-/

namespace AukiSdk.Identity

/-- The seed of the signing key, of 32 bytes. -/
structure Wallet where
  seed : List UInt8
  length_seed : seed.length = 32

/-- XXH3-128: the 32 hexadecimal digits of the result, the highest first. -/
abbrev Xxh3 := List UInt8 → Vector (Fin 16) 32

/-- A lower-case hexadecimal digit. -/
def hexChar (digit : Fin 16) : UInt8 :=
  if digit.val < 10 then '0'.toUInt8 + digit.val.toUInt8
  else 'a'.toUInt8 + (digit.val - 10).toUInt8

def hashJcsBytes (xxh3 : Xxh3) (bytes : List UInt8) : List UInt8 :=
  (xxh3 bytes).toList.map hexChar

def hexDigit (c : UInt8) : Option UInt8 :=
  if '0'.toUInt8 ≤ c ∧ c ≤ '9'.toUInt8 then some (c - '0'.toUInt8)
  else if 'a'.toUInt8 ≤ c ∧ c ≤ 'f'.toUInt8 then some (c - 'a'.toUInt8 + 10)
  else none

/-- What the first hash covers. -/
def firstInput (parent : Wallet) (label : String) : List UInt8 :=
  parent.seed ++ label.toUTF8.data.toList

/-- What the second hash covers. -/
def secondInput (parent : Wallet) (label : String) : List UInt8 :=
  firstInput parent label ++ "/expand".toUTF8.data.toList

/-- The bytes that pairs of digits write. -/
def pairBytes : List (Fin 16) → List UInt8
  | high :: low :: rest => (high.val.toUInt8 <<< 4 ||| low.val.toUInt8) :: pairBytes rest
  | _ => []

/-- The half of a child's seed that a hash becomes. -/
def half (xxh3 : Xxh3) (input : List UInt8) : List UInt8 := pairBytes (xxh3 input).toList

/-- What two children are derived from. -/
def inputs (parent : Wallet) (label other : String) : Set (List UInt8) :=
  {firstInput parent label, secondInput parent label, firstInput parent other,
    secondInput parent other}

end AukiSdk.Identity
