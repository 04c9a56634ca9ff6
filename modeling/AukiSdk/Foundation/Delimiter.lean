import AukiSdk.Foundation.Text

/-!
# Texts between delimiters

The first occurrence of a delimiter in a sequence.
-/

namespace AukiSdk.Foundation.Delimiter

open List

variable {A : Type*} [DecidableEq A]

/-- What stands before and behind the first occurrence of a pattern. -/
def cut (pattern : List A) : List A → Option (List A × List A)
  | [] => if pattern = [] then some ([], []) else none
  | entry :: rest =>
    if pattern <+: entry :: rest then some ([], (entry :: rest).drop pattern.length)
    else (cut pattern rest).map fun parts => (entry :: parts.1, parts.2)

variable {marker : A} {pattern tail left rest content : List A}

theorem cut_here (marker : A) (tail rest : List A) :
    cut (marker :: tail) (marker :: tail ++ rest) = some ([], rest) := by
  rw [cons_append, cut, if_pos ⟨rest, cons_append⟩, ← cons_append, drop_left]

theorem cut_cons {entry : A} (hno : ¬ pattern <+: entry :: rest) :
    cut pattern (entry :: rest) =
      (cut pattern rest).map fun parts => (entry :: parts.1, parts.2) := by
  rw [cut, if_neg hno]

omit [DecidableEq A] in
theorem not_prefix_of_ne {entry : A} (hne : entry ≠ marker) :
    ¬ marker :: tail <+: entry :: rest := by
  intro hpre
  exact hne (cons_prefix_cons.mp hpre).1.symm

theorem cut_append (hleft : marker ∉ left) : cut (marker :: tail) (left ++ rest) =
      (cut (marker :: tail) rest).map fun parts => (left ++ parts.1, parts.2) := by
  induction left with
  | nil => simp
  | cons entry left ih =>
    simp only [mem_cons, not_or] at hleft
    rw [cons_append, cut_cons (not_prefix_of_ne (Ne.symm hleft.1)), ih hleft.2, Option.map_map]
    rfl

theorem cut_eq_none (hcontent : marker ∉ content) : cut (marker :: tail) content = none := by
  have hcut : cut (marker :: tail) (content ++ []) = _ := cut_append hcontent
  rw [append_nil] at hcut
  rw [hcut]
  rfl

/-- The end of the pattern behind a part of it would begin with the marker. -/
theorem cut_marked (hmarker : marker ∉ tail) (hfree : ¬ marker :: tail <:+: content) :
    cut (marker :: tail) (content ++ (marker :: tail ++ rest)) = some (content, rest) := by
  induction content with
  | nil => exact cut_here marker tail rest
  | cons entry content ih =>
    have hno : ¬ marker :: tail <+: entry :: (content ++ (marker :: tail ++ rest)) := by
      rintro ⟨behind, heq⟩
      rw [← cons_append] at heq
      rcases append_eq_append_iff.mp heq with ⟨middle, hwhole, -⟩ | ⟨middle, hover, heq⟩
      · exact hfree ⟨[], middle, by rw [hwhole, nil_append]⟩
      · cases middle with
        | nil => exact hfree ⟨[], [], by simp [hover]⟩
        | cons head middle =>
          obtain rfl : marker = head := (List.cons.inj heq).1
          apply hmarker
          rw [(List.cons.inj hover).2]
          simp
    rw [cons_append, cut_cons hno, ih fun hin => hfree (hin.trans (suffix_cons _ _).isInfix)]
    rfl

/-- A byte below 128 in the UTF-8 of a character is that character. -/
theorem toNat_of_mem_utf8 {char : Char} {byte : UInt8} (hm : byte ∈ String.utf8EncodeChar char)
    (hascii : byte.toNat < 128) : char.toNat = byte.toNat := by
  have hlow : ∀ value < 128, (UInt8.ofNat value).toNat = value := by
    intro value hlt
    exact UInt8.toNat_ofNat_of_lt' (hlt.trans (by decide))
  have hhigh : ∀ value, 128 ≤ value → value < 256 → byte ≠ UInt8.ofNat value := by
    rintro value hle hlt rfl
    rw [UInt8.toNat_ofNat_of_lt' hlt] at hascii
    omega
  simp only [String.utf8EncodeChar] at hm
  split_ifs at hm with hone htwo hthree
  · rw [mem_singleton.mp hm]
    exact (hlow _ (Nat.lt_succ_of_le hone)).symm
  all_goals
    exfalso
    simp only [mem_cons, not_mem_nil, or_false] at hm
  · rcases hm with hm | hm
    all_goals exact hhigh _ (by omega) (by omega) hm
  · rcases hm with hm | hm | hm
    all_goals exact hhigh _ (by omega) (by omega) hm
  · rcases hm with hm | hm | hm | hm
    all_goals exact hhigh _ (by omega) (by omega) hm

end AukiSdk.Foundation.Delimiter
