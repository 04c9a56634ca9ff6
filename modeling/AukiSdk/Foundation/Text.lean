import Mathlib

/-!
# Positional numerals, separated text and UTF-8

Rendering and reading of numerals, of separated texts and of UTF-8.
-/

namespace AukiSdk.Foundation.Text

open List

/-- Digits of `value`, most significant first; zero has the one digit `0`. -/
def positional (base value : ℕ) : List ℕ :=
  if value = 0 then [0] else (Nat.digits base value).reverse

/-- Value of a digit sequence, most significant digit first. -/
def horner (base : ℕ) (digits : List ℕ) : ℕ :=
  digits.foldl (fun value digit => value * base + digit) 0

theorem horner_eq_ofDigits (base : ℕ) (digits : List ℕ) :
    horner base digits = Nat.ofDigits base digits.reverse := by
  induction digits using List.reverseRecOn with
  | nil => simp [horner]
  | append_singleton digits digit ih =>
    have hs : horner base (digits ++ [digit]) = horner base digits * base + digit := by
      simp [horner]
    rw [hs, ih, reverse_append]
    simp [Nat.ofDigits_cons, Nat.mul_comm, Nat.add_comm]

@[simp]
theorem horner_positional (base value : ℕ) : horner base (positional base value) = value := by
  unfold positional
  split
  · simp [horner, *]
  · rw [horner_eq_ofDigits, reverse_reverse, Nat.ofDigits_digits]

variable {base : ℕ}

theorem positional_lt {value digit : ℕ} (hbase : 1 < base)
    (hdig : digit ∈ positional base value) : digit < base := by
  unfold positional at hdig
  split at hdig
  · simp only [mem_singleton] at hdig
    omega
  · exact Nat.digits_lt_base hbase (mem_reverse.mp hdig)

theorem positional_ne_nil (base value : ℕ) : positional base value ≠ [] := by
  unfold positional
  split
  · simp
  · simpa [Nat.digits_eq_nil_iff_eq_zero]

/-- Text of a number over an alphabet of digit characters. -/
def renderNumeral (digit : ℕ → Char) (base value : ℕ) : List Char :=
  (positional base value).map digit

/-- Reading of a nonempty text all of whose characters are digits. -/
def parseNumeral (value : Char → Option ℕ) (base : ℕ) (text : List Char) :
    Option ℕ :=
  if text.isEmpty then none else (text.mapM value).map (horner base)

variable {digit : ℕ → Char}

theorem parseNumeral_renderNumeral {value : Char → Option ℕ} (hbase : 1 < base)
    (hdig : ∀ number < base, value (digit number) = some number) (number : ℕ) :
    parseNumeral value base (renderNumeral digit base number) = some number := by
  have hread : ∀ digits : List ℕ, (∀ entry ∈ digits, entry < base) →
      (digits.map digit).mapM value = some digits := by
    intro digits hbnd
    induction digits with
    | nil => rfl
    | cons head tail ih =>
      simp only [map_cons, mapM_cons]
      rw [hdig head (hbnd head (by simp)), ih fun entry hent => hbnd entry (by simp [hent])]
      rfl
  have hnon : (renderNumeral digit base number).isEmpty = false := by
    simp [renderNumeral, positional_ne_nil]
  rw [parseNumeral, hnon, renderNumeral, hread _ fun entry hent => positional_lt hbase hent]
  simp

theorem renderNumeral_injective {value : Char → Option ℕ} (hbase : 1 < base)
    (hdig : ∀ number < base, value (digit number) = some number) :
    Function.Injective (renderNumeral digit base) := by
  intro left right heq
  have hprs := congrArg (parseNumeral value base) heq
  simpa only [parseNumeral_renderNumeral hbase hdig, Option.some.injEq] using hprs

theorem renderNumeral_ne_nil (digit : ℕ → Char) (base value : ℕ) :
    renderNumeral digit base value ≠ [] := by
  simp [renderNumeral, positional_ne_nil]

def decimalDigit (digit : ℕ) : Char :=
  Char.ofNat ('0'.toNat + digit)

def decimalValue (char : Char) : Option ℕ :=
  if char.isDigit then some (char.toNat - '0'.toNat) else none

def decimal (value : ℕ) : List Char :=
  renderNumeral decimalDigit 10 value

def hexDigit (digit : ℕ) : Char :=
  if digit < 10 then Char.ofNat ('0'.toNat + digit)
  else Char.ofNat ('a'.toNat + (digit - 10))

/-- Hexadecimal digits are read in either case. -/
def hexValue (char : Char) : Option ℕ :=
  if char.isDigit then some (char.toNat - '0'.toNat)
  else if 'a' ≤ char ∧ char ≤ 'f' then some (char.toNat - 'a'.toNat + 10)
  else if 'A' ≤ char ∧ char ≤ 'F' then some (char.toNat - 'A'.toNat + 10)
  else none

def hexadecimal (value : ℕ) : List Char :=
  renderNumeral hexDigit 16 value

theorem decimalValue_decimalDigit :
    ∀ digit < 10, decimalValue (decimalDigit digit) = some digit := by
  decide

theorem hexValue_hexDigit : ∀ digit < 16, hexValue (hexDigit digit) = some digit := by
  decide

theorem decimal_injective : Function.Injective decimal :=
  renderNumeral_injective (by norm_num) decimalValue_decimalDigit

theorem notMem_renderNumeral (hbase : 1 < base) {char : Char}
    (hchar : ∀ number < base, digit number ≠ char) (value : ℕ) :
    char ∉ renderNumeral digit base value := by
  intro hm
  obtain ⟨number, hnum, heq⟩ := mem_map.mp hm
  exact hchar number (positional_lt hbase hnum) heq

theorem notMem_decimal {char : Char} (hchar : char.isDigit = false) (value : ℕ) :
    char ∉ decimal value := by
  refine notMem_renderNumeral (by norm_num) ?_ value
  intro number hnumber heq
  subst heq
  interval_cases number <;> simp [decimalDigit, Char.isDigit] at hchar

section Separators

variable {A : Type*} {separator : A}

theorem split_first_unique {left right left' right' : List A}
    (hleft : separator ∉ left) (hleft' : separator ∉ left')
    (heq : left ++ separator :: right = left' ++ separator :: right') :
    left = left' ∧ right = right' := by
  induction left generalizing left' with
  | nil =>
    cases left' with
    | nil => simpa using heq
    | cons head tail =>
      simp only [nil_append, cons_append, List.cons.injEq] at heq
      simp [heq.1] at hleft'
  | cons head tail ih =>
    cases left' with
    | nil =>
      simp only [nil_append, cons_append, List.cons.injEq] at heq
      simp [heq.1] at hleft
    | cons head' tail' =>
      simp only [cons_append, List.cons.injEq] at heq
      simp only [mem_cons, not_or] at hleft hleft'
      obtain ⟨htail, hrgt⟩ := ih hleft.2 hleft'.2 heq.2
      exact ⟨by rw [heq.1, htail], hrgt⟩

theorem split_last_unique {left right left' right' : List A}
    (hrgt : separator ∉ right) (hright' : separator ∉ right')
    (heq : left ++ separator :: right = left' ++ separator :: right') :
    left = left' ∧ right = right' := by
  have hrev := congrArg List.reverse heq
  simp only [reverse_append, reverse_cons, append_assoc, singleton_append] at hrev
  obtain ⟨hr, hl⟩ := split_first_unique (by simpa using hrgt)
    (by simpa using hright') hrev
  exact ⟨reverse_injective hl, reverse_injective hr⟩

theorem notMem_of_mem_splitOn [BEq A] [LawfulBEq A] {text piece : List A}
    (hpie : piece ∈ text.splitOn separator) : separator ∉ piece := by
  induction text generalizing piece with
  | nil =>
    rw [splitOn_nil, mem_singleton] at hpie
    simp [hpie]
  | cons entry rest ih =>
    rw [splitOn_cons_eq_if_modifyHead] at hpie
    split at hpie
    · cases mem_cons.mp hpie with
      | inl hemp => simp [hemp]
      | inr hrest => exact ih hrest
    next hent =>
      cases hsp : rest.splitOn separator with
      | nil => exact absurd hsp (splitOn_ne_nil separator rest)
      | cons head tail =>
        rw [hsp] at hpie ih
        rw [modifyHead_cons, mem_cons] at hpie
        cases hpie with
        | inl hhead =>
          rw [hhead, mem_cons, not_or]
          refine ⟨fun hsm => hent ?_, ih mem_cons_self⟩
          rw [hsm]
          exact beq_self_eq_true entry
        | inr htail => exact ih (mem_cons_of_mem _ htail)

theorem intercalate_append {left right : List (List A)} (hleft : left ≠ [])
    (hrgt : right ≠ []) :
    [separator].intercalate (left ++ right) =
      [separator].intercalate left ++ separator :: [separator].intercalate right := by
  induction left with
  | nil => exact absurd rfl hleft
  | cons head tail ih =>
    cases tail with
    | nil =>
      rw [singleton_append, intercalate_cons_of_ne_nil hrgt]
      simp
    | cons next rest =>
      have hhead : [separator].intercalate (head :: next :: rest) =
          head ++ [separator] ++ [separator].intercalate (next :: rest) :=
        intercalate_cons_of_ne_nil (by simp)
      rw [cons_append, intercalate_cons_of_ne_nil (by simp), ih (by simp), hhead]
      simp only [append_assoc]

theorem notMem_intercalate {pieces : List (List A)} {entry : A} (hne : entry ≠ separator)
    (hpie : ∀ piece ∈ pieces, entry ∉ piece) :
    entry ∉ [separator].intercalate pieces := by
  induction pieces with
  | nil => simp
  | cons head tail ih =>
    have htail := ih fun piece hm => hpie piece (by simp [hm])
    have hhead := hpie head (by simp)
    cases tail with
    | nil => simpa using hhead
    | cons next rest =>
      rw [intercalate_cons_of_ne_nil (by simp)]
      simp [hhead, htail, hne]

end Separators

/-- Digits without leading zeros, most significant first. -/
def leadingDigits (base value : ℕ) : List ℕ :=
  (Nat.digits base value).reverse

theorem horner_leadingDigits (base value : ℕ) : horner base (leadingDigits base value) = value := by
  rw [leadingDigits, horner_eq_ofDigits, reverse_reverse, Nat.ofDigits_digits]

theorem horner_replicate_append (base count : ℕ) (digits : List ℕ) :
    horner base (List.replicate count 0 ++ digits) = horner base digits := by
  induction count with
  | zero => rfl
  | succ count ih =>
    rw [← ih, replicate_succ, cons_append, horner, horner, foldl_cons, Nat.zero_mul]

theorem head_leadingDigits {value digit : ℕ} {rest : List ℕ}
    (hdig : leadingDigits base value = digit :: rest) : digit ≠ 0 := by
  have hne : Nat.digits base value ≠ [] := by
    intro hnil
    rw [leadingDigits, hnil] at hdig
    cases hdig
  have hlast := Nat.getLast_digit_ne_zero base (m := value)
    (by rintro rfl; exact hne (Nat.digits_zero base))
  have hhead : (Nat.digits base value).getLast hne = digit := by
    have hsm : Nat.digits base value = (digit :: rest).reverse := by
      rw [← hdig, leadingDigits, reverse_reverse]
    simp [hsm]
  rw [← hhead]
  exact hlast

theorem eq_replicate_append_leadingDigits (hbase : 1 < base) {digits : List ℕ}
    (hdig : ∀ digit ∈ digits, digit < base) :
    digits = List.replicate (digits.takeWhile (· = 0)).length 0 ++
      leadingDigits base (horner base digits) := by
  induction digits with
  | nil => simp [leadingDigits, horner]
  | cons digit digits ih =>
    have hrest := ih fun other ho => hdig other (mem_cons_of_mem _ ho)
    by_cases hzero : digit = 0
    · subst hzero
      have hval : horner base (0 :: digits) = horner base digits :=
        horner_replicate_append base 1 digits
      rw [hval, takeWhile_cons_of_pos (by decide), length_cons,
        replicate_succ, cons_append, ← hrest]
    · have hsm : Nat.digits base (horner base (digit :: digits)) = (digit :: digits).reverse := by
        rw [horner_eq_ofDigits]
        apply Nat.digits_ofDigits base hbase
        · intro other ho
          exact hdig other (mem_reverse.mp ho)
        · intro hne
          simpa using hzero
      rw [takeWhile_cons_of_neg (by simpa using hzero), leadingDigits, hsm, reverse_reverse]
      rfl

theorem length_takeWhile_zero (base count value : ℕ) :
    ((List.replicate count 0 ++ leadingDigits base value).takeWhile (· = 0)).length = count := by
  induction count with
  | zero =>
    rw [replicate_zero, nil_append]
    cases hdig : leadingDigits base value with
    | nil => rfl
    | cons digit rest =>
      have hzero := head_leadingDigits hdig
      rw [takeWhile_cons_of_neg (by simpa using hzero)]
      rfl
  | succ count ih =>
    rw [replicate_succ, cons_append, takeWhile_cons_of_pos (by decide), length_cons, ih]

/-- The text that bytes encode, if they are valid UTF-8. -/
def fromUtf8 (bytes : List UInt8) : Option (List Char) :=
  bytes.toByteArray.utf8Decode?.map Array.toList

theorem fromUtf8_utf8 (text : List Char) :
    fromUtf8 (text.flatMap String.utf8EncodeChar) = some text := by
  have henc : (text.flatMap String.utf8EncodeChar).toByteArray = text.utf8Encode := rfl
  rw [fromUtf8, henc, utf8Decode?_utf8Encode]
  rfl

theorem utf8_of_fromUtf8 {bytes : List UInt8} {text : List Char}
    (hread : fromUtf8 bytes = some text) : text.flatMap String.utf8EncodeChar = bytes := by
  obtain ⟨chars, hcha, rfl⟩ := Option.map_eq_some_iff.mp hread
  have hsome : bytes.toByteArray.utf8Decode?.isSome = true := by
    rw [hcha]
    rfl
  have henc := @ByteArray.utf8Encode_get_utf8Decode? bytes.toByteArray hsome
  simp only [hcha, Option.get_some] at henc
  have hbyt := congrArg (fun array : ByteArray => array.data.toList) henc
  simpa [List.utf8Encode] using hbyt

end AukiSdk.Foundation.Text
