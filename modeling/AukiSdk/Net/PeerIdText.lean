import AukiSdk.Net.Identifiers

/-!
# Texts of Peer IDs

The text of a Peer ID is read back, and no other text is read as it.
-/

namespace AukiSdk.Net

open AukiSdk.Foundation List

theorem base58Value_base58Digit : ∀ digit < 58, base58Value (base58Digit digit) = some digit := by
  decide +kernel

theorem base58Digit_of_value {char : Char} {digit : ℕ} (hval : base58Value char = some digit) :
    base58Digit digit = char ∧ digit < 58 := by
  rw [base58Value, findIdx?_eq_some_iff_getElem] at hval
  obtain ⟨hlen, hchar, -⟩ := hval
  rw [base58Digit]
  have hget : base58Alphabet.getD digit '1' = base58Alphabet[digit] := by
    exact getD_eq_getElem _ _ hlen
  refine ⟨?_, hlen⟩
  rw [hget]
  simpa using hchar

theorem base58Digit_eq_one {digit : ℕ} (hdig : digit < 58) :
    base58Digit digit = '1' ↔ digit = 0 := by
  constructor
  · intro hone
    have hval := base58Value_base58Digit digit hdig
    rw [hone] at hval
    have hzero : base58Value '1' = some 0 := by decide +kernel
    exact Option.some_inj.mp (hval.symm.trans hzero)
  · rintro rfl
    rfl

variable {digits : List ℕ}

theorem mapM_base58Value (hdig : ∀ digit ∈ digits, digit < 58) :
    (digits.map base58Digit).mapM base58Value = some digits := by
  induction digits with
  | nil => rfl
  | cons digit digits ih =>
    have hhead := base58Value_base58Digit digit (hdig digit mem_cons_self)
    have htail := ih fun other ho => hdig other (mem_cons_of_mem _ ho)
    rw [map_cons, mapM_cons, hhead, htail]
    rfl

theorem map_base58Digit {text : List Char} (hread : text.mapM base58Value = some digits) :
    digits.map base58Digit = text ∧ ∀ digit ∈ digits, digit < 58 := by
  induction text generalizing digits with
  | nil =>
    cases hread
    exact ⟨rfl, forall_mem_nil _⟩
  | cons char text ih =>
    rw [mapM_cons] at hread
    obtain ⟨digit, hdig, hread⟩ := Option.bind_eq_some_iff.mp hread
    obtain ⟨rest, hrest, hread⟩ := Option.bind_eq_some_iff.mp hread
    cases hread
    obtain ⟨htext, hsma⟩ := ih hrest
    obtain ⟨hchar, hlt⟩ := base58Digit_of_value hdig
    rw [map_cons, htext, hchar]
    exact ⟨rfl, forall_mem_cons.mpr ⟨hlt, hsma⟩⟩

theorem length_takeWhile_one (hdig : ∀ digit ∈ digits, digit < 58) :
    ((digits.map base58Digit).takeWhile (· = '1')).length = (digits.takeWhile (· = 0)).length := by
  induction digits with
  | nil => rfl
  | cons digit digits ih =>
    have htail := ih fun other ho => hdig other (mem_cons_of_mem _ ho)
    have hone := base58Digit_eq_one (hdig digit mem_cons_self)
    rw [map_cons]
    by_cases hzero : digit = 0
    · rw [takeWhile_cons_of_pos (by simpa using hone.mpr hzero),
        takeWhile_cons_of_pos (by simpa using hzero), length_cons, length_cons,
        htail]
    · rw [takeWhile_cons_of_neg (by simpa using fun h => hzero (hone.mp h)),
        takeWhile_cons_of_neg (by simpa using hzero)]
      rfl

variable (bytes : List UInt8)

theorem length_takeWhile_bytes :
    ((bytes.map UInt8.toNat).takeWhile (· = 0)).length = (bytes.takeWhile (· = 0)).length := by
  induction bytes with
  | nil => rfl
  | cons byte bytes ih =>
    have hzero : byte.toNat = 0 ↔ byte = 0 := UInt8.toNat_inj (b := 0)
    rw [map_cons, takeWhile_cons, takeWhile_cons]
    simp only [hzero]
    split
    · rw [length_cons, length_cons, ih]
    · rfl

theorem leadingDigits_lt {base : ℕ} (hbase : 1 < base) (count value : ℕ) :
    ∀ digit ∈ List.replicate count 0 ++ Text.leadingDigits base value, digit < base := by
  intro digit hdig
  rcases mem_append.mp hdig with hzero | hdig
  · rw [eq_of_mem_replicate hzero]
    omega
  · exact Nat.digits_lt_base hbase (mem_reverse.mp hdig)

theorem base58Encode_eq : base58Encode bytes = (List.replicate (bytes.takeWhile (· = 0)).length 0 ++
        Text.leadingDigits 58 (Text.horner 256 (bytes.map UInt8.toNat))).map base58Digit := by
  rw [map_append, map_replicate]
  rfl

theorem map_ofNat_map_toNat : (bytes.map UInt8.toNat).map UInt8.ofNat = bytes := by
  rw [map_map]
  exact (map_congr_left fun byte _ => UInt8.ofNat_toNat).trans (map_id bytes)

theorem map_toNat_map_ofNat (hdig : ∀ digit ∈ digits, digit < 256) :
    (digits.map UInt8.ofNat).map UInt8.toNat = digits := by
  rw [map_map]
  refine (map_congr_left fun digit hm => ?_).trans (map_id digits)
  exact UInt8.toNat_ofNat_of_lt' (hdig digit hm)

theorem base58Decode_base58Encode : base58Decode (base58Encode bytes) = some bytes := by
  have hsma : ∀ digit ∈ bytes.map UInt8.toNat, digit < 256 := by
    intro digit hdig
    obtain ⟨byte, -, rfl⟩ := mem_map.mp hdig
    exact UInt8.toNat_lt byte
  have hbyt := Text.eq_replicate_append_leadingDigits (by decide) hsma
  rw [length_takeWhile_bytes] at hbyt
  have hdig := leadingDigits_lt (by decide : 1 < 58) (bytes.takeWhile (· = 0)).length
    (Text.horner 256 (bytes.map UInt8.toNat))
  rw [base58Encode_eq, base58Decode, mapM_base58Value hdig, length_takeWhile_one hdig,
    Text.length_takeWhile_zero]
  dsimp only [Option.bind_eq_bind, Option.bind_some]
  rw [Text.horner_replicate_append, Text.horner_leadingDigits]
  calc some (List.replicate (bytes.takeWhile (· = 0)).length 0 ++
        (Text.leadingDigits 256 (Text.horner 256 (bytes.map UInt8.toNat))).map UInt8.ofNat)
      = some ((List.replicate (bytes.takeWhile (· = 0)).length 0 ++
          Text.leadingDigits 256 (Text.horner 256 (bytes.map UInt8.toNat))).map UInt8.ofNat) := by
        rw [map_append, map_replicate]
        rfl
    _ = some ((bytes.map UInt8.toNat).map UInt8.ofNat) := by rw [← hbyt]
    _ = some bytes := by rw [map_ofNat_map_toNat]

theorem base58Encode_of_decode {text : List Char} {bytes : List UInt8}
    (hread : base58Decode text = some bytes) : base58Encode bytes = text := by
  obtain ⟨digits, hdig, hbyt⟩ := Option.bind_eq_some_iff.mp hread
  obtain ⟨htext, hsma⟩ := map_base58Digit hdig
  have hcan := Text.eq_replicate_append_leadingDigits (by decide) hsma
  have hcnt := length_takeWhile_one hsma
  rw [htext] at hcnt
  have hnum : bytes.map UInt8.toNat = List.replicate (digits.takeWhile (· = 0)).length 0 ++
        Text.leadingDigits 256 (Text.horner 58 digits) := by
    rw [← Option.some_inj.mp hbyt, hcnt]
    calc (List.replicate (digits.takeWhile (· = 0)).length (0 : UInt8) ++
          (Text.leadingDigits 256 (Text.horner 58 digits)).map UInt8.ofNat).map UInt8.toNat
        = ((List.replicate (digits.takeWhile (· = 0)).length 0 ++
            Text.leadingDigits 256 (Text.horner 58 digits)).map UInt8.ofNat).map UInt8.toNat := by
          congr 1
          rw [map_append, map_replicate]
          rfl
      _ = _ := map_toNat_map_ofNat (leadingDigits_lt (by decide) _ _)
  rw [base58Encode_eq, ← length_takeWhile_bytes, hnum, Text.length_takeWhile_zero,
    Text.horner_replicate_append, Text.horner_leadingDigits, ← hcan, htext]

theorem PeerId.fromStr_toText (peer : PeerId) : PeerId.fromStr peer.toText = some peer := by
  rw [PeerId.fromStr, PeerId.toText, String.toList_ofList, base58Decode_base58Encode]
  exact dif_pos peer.isPeerIdBytes_bytes

theorem PeerId.toText_of_fromStr {text : String} {peer : PeerId}
    (hread : PeerId.fromStr text = some peer) : peer.toText = text := by
  obtain ⟨bytes, hbyt, hpeer⟩ := Option.bind_eq_some_iff.mp hread
  rw [PeerId.fromBytes] at hpeer
  split at hpeer
  · cases hpeer
    rw [PeerId.toText, base58Encode_of_decode hbyt, String.ofList_toList]
  · cases hpeer

end AukiSdk.Net
