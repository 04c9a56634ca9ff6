import Mathlib

/-!
# Bounded phases over a byte stream

A phase reads or writes a byte stream under a timer.
-/

namespace AukiSdk.Foundation.ByteStream

open List

variable {ε α : Type*}

/-- The result of reading and the bytes that were not consumed. -/
abbrev Read (ε α : Type*) := Except ε α × List UInt8

/-- `read_exact` of `count` bytes from the bytes that arrive. -/
def readExact (failure : ε) (count : ℕ) (arrived : List UInt8) : Read ε (List UInt8) :=
  if count ≤ arrived.length then (.ok (arrived.take count), arrived.drop count)
  else (.error failure, [])

/-- How a read phase ends. -/
structure ReadPhase (ε : Type*) where
  arrivals : ℕ
  failure : ε

/-- A read phase on the bytes still to come. -/
def ReadPhase.run (phase : ReadPhase ε) (read : ε → List UInt8 → Read ε α)
    (incoming : List UInt8) : Read ε α :=
  let outcome := read phase.failure (incoming.take phase.arrivals)
  (outcome.1, outcome.2 ++ incoming.drop phase.arrivals)

/-- A failed write phase, with the number of bytes written before it. -/
structure WriteFault (ε : Type*) where
  written : ℕ
  failure : ε

/-- `write_all` of `bytes`, with everything written so far. -/
def writeAll (fault : Option (WriteFault ε)) (bytes outgoing : List UInt8) :
    Except ε Unit × List UInt8 :=
  match fault with
  | none => (.ok (), outgoing ++ bytes)
  | some fault => (.error fault.failure, outgoing ++ bytes.take fault.written)

/-- `u32::to_be_bytes`. -/
def u32ToBeBytes (value : ℕ) : List UInt8 :=
  [UInt8.ofNat (value / 2 ^ 24), UInt8.ofNat (value / 2 ^ 16), UInt8.ofNat (value / 2 ^ 8),
    UInt8.ofNat value]

/-- `u32::from_be_bytes`. -/
def u32FromBeBytes (bytes : List UInt8) : ℕ :=
  bytes.foldl (fun value byte => value * 256 + byte.toNat) 0

theorem readExact_eq_ok {failure : ε} {count : ℕ} {arrived bytes rest : List UInt8}
    (hread : readExact failure count arrived = (.ok bytes, rest)) :
    arrived = bytes ++ rest ∧ bytes.length = count := by
  unfold readExact at hread
  split at hread
  · rename_i hcnt
    cases hread
    exact ⟨(take_append_drop count arrived).symm, length_take_of_le hcnt⟩
  · cases hread

theorem ReadPhase.run_eq_ok {phase : ReadPhase ε} {read : ε → List UInt8 → Read ε α}
    {incoming rest : List UInt8} {value : α} {consumed : List UInt8 → Prop}
    (hrun : phase.run read incoming = (.ok value, rest))
    (hfro : ∀ arrived left, read phase.failure arrived = (.ok value, left) →
      ∃ front, arrived = front ++ left ∧ consumed front) :
    ∃ front, incoming = front ++ rest ∧ consumed front := by
  unfold run at hrun
  rw [Prod.mk.injEq] at hrun
  obtain ⟨front, harr, hcon⟩ := hfro (incoming.take phase.arrivals) _ (Prod.ext hrun.1 rfl)
  refine ⟨front, ?_, hcon⟩
  calc incoming = incoming.take phase.arrivals ++ incoming.drop phase.arrivals :=
        (take_append_drop _ _).symm
    _ = front ++ rest := by rw [harr, append_assoc, hrun.2]

theorem writeAll_eq_ok {fault : Option (WriteFault ε)} {bytes outgoing written : List UInt8}
    (hwrt : writeAll fault bytes outgoing = (.ok (), written)) :
    written = outgoing ++ bytes := by
  unfold writeAll at hwrt
  split at hwrt
  · cases hwrt
    rfl
  · cases hwrt

end AukiSdk.Foundation.ByteStream
