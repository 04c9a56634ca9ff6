import AukiSdk.Foundation.Text

/-!
# Protocol buffers

A message is a sequence of numbered fields.
-/

namespace AukiSdk.Foundation.Protobuf

open List Option

/-- The base-128 digits, least significant first, with their continuation bits. -/
def varintDigits : ℕ → ℕ → List UInt8
  | 0, _ => []
  | width + 1, value =>
    if value < 128 then [UInt8.ofNat value]
    else UInt8.ofNat (value % 128 + 128) :: varintDigits width (value / 128)

variable (value : ℕ)

/-- A number of at most 64 bits. -/
def varint : List UInt8 :=
  varintDigits 10 value

def readVarint : List UInt8 → Option (ℕ × List UInt8)
  | [] => none
  | digit :: rest =>
    if digit.toNat < 128 then some (digit.toNat, rest)
    else (readVarint rest).map fun (value, rest) => (digit.toNat % 128 + 128 * value, rest)

theorem readVarint_varintDigits {width value : ℕ} (hval : value < 128 ^ width)
    (hwid : 0 < width) (rest : List UInt8) :
    readVarint (varintDigits width value ++ rest) = some (value, rest) := by
  induction width generalizing value with
  | zero => cases hwid
  | succ width ih =>
    rw [varintDigits]
    split
    · rename_i hsmall
      have hdig : (UInt8.ofNat value).toNat = value := by
        rw [UInt8.toNat_ofNat']
        omega
      rw [singleton_append, readVarint, hdig, if_pos hsmall]
    · rename_i hlarge
      have hdig : (UInt8.ofNat (value % 128 + 128)).toNat = value % 128 + 128 := by
        rw [UInt8.toNat_ofNat']
        omega
      have hpst : 0 < width := by
        rcases Nat.eq_zero_or_pos width with rfl | hpos
        · simp only [zero_add, pow_one] at hval
          omega
        · exact hpos
      have hquo : value / 128 < 128 ^ width := by
        rw [Nat.div_lt_iff_lt_mul (by omega), ← pow_succ]
        exact hval
      rw [cons_append, readVarint, hdig, if_neg (by omega), ih hquo hpst]
      simp only [map_some, some.injEq, Prod.mk.injEq, and_true]
      omega

theorem readVarint_varint {value : ℕ} (hval : value < 2 ^ 64) (rest : List UInt8) :
    readVarint (varint value ++ rest) = some (value, rest) := by
  apply readVarint_varintDigits _ (by omega)
  calc value < 2 ^ 64 := hval
    _ ≤ 128 ^ 10 := by norm_num

theorem length_varintDigits_le (width value : ℕ) : (varintDigits width value).length ≤ width := by
  induction width generalizing value with
  | zero => rfl
  | succ width ih =>
    rw [varintDigits]
    split
    · simp
    · rw [length_cons]
      exact Nat.succ_le_succ (ih _)

theorem varint_ne_nil : varint value ≠ [] := by
  rw [varint, varintDigits]
  split <;> exact cons_ne_nil _ _

inductive Value where
  | varint (value : ℕ)
  | bytes (value : List UInt8)
  deriving DecidableEq

abbrev Field := ℕ × Value

def encodeField : Field → List UInt8
  | (number, .varint value) => varint (number * 8) ++ varint value
  | (number, .bytes value) => varint (number * 8 + 2) ++ varint value.length ++ value

variable (bytes : List UInt8)

def readField : Option (Field × List UInt8) := do
  let (tag, rest) ← readVarint bytes
  if tag % 8 = 0 then
    let (value, rest) ← readVarint rest
    some ((tag / 8, .varint value), rest)
  else if tag % 8 = 2 then
    let (length, rest) ← readVarint rest
    if rest.length < length then none
    else some ((tag / 8, .bytes (rest.take length)), rest.drop length)
  else
    none

/-- The fields of a message; each takes at least one byte. -/
def readFields : ℕ → List UInt8 → Option (List Field)
  | _, [] => some []
  | 0, _ => none
  | fuel + 1, bytes => do
      let (field, rest) ← readField bytes
      let fields ← readFields fuel rest
      some (field :: fields)

def encodeFields (fields : List Field) : List UInt8 :=
  fields.flatMap encodeField

def decodeFields : Option (List Field) :=
  readFields bytes.length bytes

/-- A number, left out when it is zero. -/
def numberField (number value : ℕ) : List Field :=
  if value = 0 then [] else [(number, .varint value)]

variable (number : ℕ)

/-- A byte string, left out when it is empty. -/
def bytesField (value : List UInt8) : List Field :=
  if value = [] then [] else [(number, .bytes value)]

/-- The last value of a number, zero when it was left out. -/
def numberOf (fields : List Field) : ℕ :=
  fields.foldl (fun value field =>
    match field with
    | (found, .varint next) => if found = number then next else value
    | (_, .bytes _) => value) 0

/-- The last value of a byte string, empty when it was left out. -/
def bytesOf (fields : List Field) : List UInt8 :=
  fields.foldl (fun value field =>
    match field with
    | (found, .bytes next) => if found = number then next else value
    | (_, .varint _) => value) []

/-- The last value of a string, which is UTF-8. -/
def stringOf (fields : List Field) : Except (List Char) (List Char) :=
  match Text.fromUtf8 (bytesOf number fields) with
  | some text => .ok text
  | none => .error "invalid string value".toList

/-- The fields of a message, or an error. -/
def fieldsOf : Except (List Char) (List Field) :=
  match decodeFields bytes with
  | some fields => .ok fields
  | none => .error "invalid field".toList

/-- Numbers, lengths and field numbers that fit. -/
def Fits : Field → Prop
  | (number, .varint value) => number < 2 ^ 29 ∧ value < 2 ^ 64
  | (number, .bytes value) => number < 2 ^ 29 ∧ value.length < 2 ^ 64

theorem fits_numberField {number value : ℕ} (hnum : number < 2 ^ 29) (hval : value < 2 ^ 64) :
    ∀ field ∈ numberField number value, Fits field := by
  rw [numberField]
  split
  · exact forall_mem_nil _
  · exact forall_mem_singleton.mpr ⟨hnum, hval⟩

theorem fits_bytesField {number : ℕ} {value : List UInt8} (hnum : number < 2 ^ 29)
    (hlen : value.length < 2 ^ 64) : ∀ field ∈ bytesField number value, Fits field := by
  rw [bytesField]
  split
  · exact forall_mem_nil _
  · exact forall_mem_singleton.mpr ⟨hnum, hlen⟩

theorem readField_encodeField {field : Field} (hfits : Fits field) (rest : List UInt8) :
    readField (encodeField field ++ rest) = some (field, rest) := by
  obtain ⟨number, value⟩ := field
  cases value with
  | varint value =>
    obtain ⟨hnum, hval⟩ := hfits
    have htag : number * 8 % 8 = 0 ∧ number * 8 / 8 = number := by omega
    rw [encodeField, append_assoc, readField, readVarint_varint (by omega)]
    simp only [bind_eq_bind, bind_some, htag.1, htag.2, if_true]
    rw [readVarint_varint hval]
    rfl
  | bytes value =>
    obtain ⟨hnum, hlen⟩ := hfits
    have htag : (number * 8 + 2) % 8 = 2 ∧ (number * 8 + 2) / 8 = number := by omega
    have hlong : ¬ (value ++ rest).length < value.length := by
      rw [length_append]
      omega
    rw [encodeField, append_assoc, append_assoc, readField, readVarint_varint (by omega)]
    simp only [bind_eq_bind, bind_some, htag.1, htag.2]
    rw [if_neg (by omega), if_pos trivial, readVarint_varint hlen]
    simp only [bind_some]
    rw [if_neg hlong, take_left, drop_left]

theorem length_encodeField_pos (field : Field) : 0 < (encodeField field).length := by
  obtain ⟨number, value⟩ := field
  cases value with
  | varint value =>
    rw [encodeField, length_append]
    have := length_pos_of_ne_nil (varint_ne_nil (number * 8))
    omega
  | bytes value =>
    rw [encodeField, length_append, length_append]
    have := length_pos_of_ne_nil (varint_ne_nil (number * 8 + 2))
    omega

variable {fields : List Field}

theorem readFields_encodeFields (hfits : ∀ field ∈ fields, Fits field) {fuel : ℕ}
    (hfuel : fields.length ≤ fuel) :
    readFields fuel (encodeFields fields) = some fields := by
  induction fields generalizing fuel with
  | nil => cases fuel <;> rfl
  | cons field fields ih =>
    cases fuel with
    | zero => cases hfuel
    | succ fuel =>
      have hnon : encodeFields (field :: fields) ≠ [] := by
        apply ne_nil_of_length_pos
        rw [encodeFields, flatMap_cons, length_append]
        have := length_encodeField_pos field
        omega
      have hread := readField_encodeField (hfits field mem_cons_self)
        (encodeFields fields)
      have hrest := ih (fun other ho => hfits other (mem_cons_of_mem _ ho))
        (Nat.le_of_succ_le_succ hfuel)
      rw [readFields.eq_3 _ _ hnon, encodeFields, flatMap_cons, ← encodeFields, hread]
      simp only [bind_eq_bind, bind_some, hrest]

theorem length_le_encodeFields (fields : List Field) :
    fields.length ≤ (encodeFields fields).length := by
  induction fields with
  | nil => exact Nat.zero_le _
  | cons field fields ih =>
    have hpos := length_encodeField_pos field
    rw [encodeFields, flatMap_cons, length_append, length_cons, ← encodeFields]
    omega

theorem decodeFields_encodeFields (hfits : ∀ field ∈ fields, Fits field) :
    decodeFields (encodeFields fields) = some fields :=
  readFields_encodeFields hfits (length_le_encodeFields fields)

theorem fieldsOf_encodeFields (hfits : ∀ field ∈ fields, Fits field) :
    fieldsOf (encodeFields fields) = .ok fields := by
  rw [fieldsOf, decodeFields_encodeFields hfits]

theorem stringOf_of_bytesOf {number : ℕ} {text : List Char}
    (hbyt : bytesOf number fields = text.flatMap String.utf8EncodeChar) :
    stringOf number fields = .ok text := by
  rw [stringOf, hbyt, Text.fromUtf8_utf8]

theorem length_varint_le : (varint value).length ≤ 10 :=
  length_varintDigits_le 10 value

theorem encodeFields_append (fields others : List Field) :
    encodeFields (fields ++ others) = encodeFields fields ++ encodeFields others := by
  rw [encodeFields, flatMap_append]
  rfl

theorem length_numberField_le (number value : ℕ) :
    (encodeFields (numberField number value)).length ≤ 20 := by
  rw [numberField]
  split
  · exact Nat.zero_le _
  · have htag := length_varint_le (number * 8)
    have hval := length_varint_le value
    rw [encodeFields, flatMap_singleton, encodeField, length_append]
    omega

theorem length_bytesField_le (value : List UInt8) :
    (encodeFields (bytesField number value)).length ≤ 20 + value.length := by
  rw [bytesField]
  split
  · exact Nat.zero_le _
  · have htag := length_varint_le (number * 8 + 2)
    have hlen := length_varint_le value.length
    rw [encodeFields, flatMap_singleton, encodeField, length_append, length_append]
    omega

theorem length_le_bytesField (value : List UInt8) :
    value.length ≤ (encodeFields (bytesField number value)).length := by
  rw [bytesField]
  split
  · rename_i hnil
    rw [hnil]
    exact Nat.zero_le _
  · rw [encodeFields, flatMap_singleton, encodeField, length_append, length_append]
    omega

end AukiSdk.Foundation.Protobuf
