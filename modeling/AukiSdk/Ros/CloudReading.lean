import AukiSdk.Ros.CloudLayout

/-!
# The meaning of a payload

Reading a payload by its layout gives back what the message says.
-/

namespace AukiSdk.Ros

open AukiSdk.Foundation AukiSdk.Registry List
open Framing (leValue)

variable (bigendian : Bool)

/-- A field of one point's bytes. -/
def readAt (point : List UInt8) (field : PointField) : String × FieldValue :=
  (field.name, fieldValue bigendian field.datatype field.count
    (slice point field.offset (field.datatype.byteWidth * field.count)))

/-- What the entries of a field say about its repacked bytes. -/
def PointFieldMsg.readBack (field : PointFieldMsg) (bigendian : Bool) (bytes : List UInt8) :
    List (String × FieldValue) :=
  if field.isRgb then
    (["r", "g", "b"].zip bytes).map fun channel => (channel.1, ⟨.uint8, [channel.2.toNat]⟩)
  else if field.isRgba then
    (["r", "g", "b", "a"].zip bytes).map fun channel => (channel.1, ⟨.uint8, [channel.2.toNat]⟩)
  else [(field.name, fieldValue bigendian field.sdkType field.count.toNat bytes)]

theorem slice_one {data : List UInt8} {index : ℕ} {byte : UInt8}
    (hbyte : data[index]? = some byte) : slice data index 1 = [byte] := by
  obtain ⟨hidx, rfl⟩ := List.getElem?_eq_some_iff.mp hbyte
  rw [slice, drop_eq_getElem_cons hidx]
  rfl

theorem fieldValue_byte (byte : UInt8) :
    fieldValue bigendian .uint8 1 [byte] = ⟨.uint8, [byte.toNat]⟩ := by
  cases bigendian <;> simp [fieldValue, word, leValue, PointFieldDataType.byteWidth]

variable {offset : ℕ}

theorem readAt_channel {bigendian : Bool} {point : List UInt8} {byte : UInt8} (name : String)
    (hbyte : point[offset]? = some byte) :
    readAt bigendian point ⟨name, offset, .uint8, 1⟩ = (name, ⟨.uint8, [byte.toNat]⟩) := by
  simp only [readAt, PointFieldDataType.byteWidth, slice_one hbyte, fieldValue_byte, Nat.mul_one]

variable {field : PointFieldMsg}

theorem entries_readAt {front bytes : List UInt8} (back : List UInt8)
    (hoff : front.length = offset) (hlen : bytes.length = field.packedSize) :
    (field.entries offset).map (readAt bigendian (front ++ bytes ++ back)) =
      field.readBack bigendian bytes := by
  have hbyte (index : ℕ) (hidx : index < bytes.length) :
      (front ++ bytes ++ back)[offset + index]? = some bytes[index] := by
    rw [append_assoc, ← hoff, getElem?_append_right (by omega),
      Nat.add_sub_cancel_left, getElem?_append_left hidx, getElem?_eq_getElem hidx]
  unfold PointFieldMsg.entries PointFieldMsg.readBack
  unfold PointFieldMsg.packedSize at hlen
  by_cases hrgb : field.isRgb = true
  · simp only [hrgb, if_true] at hlen ⊢
    obtain ⟨red, green, blue, rfl⟩ := length_eq_three.mp hlen
    have hred : (front ++ [red, green, blue] ++ back)[offset]? = some red := hbyte 0 (by simp)
    have hgre : (front ++ [red, green, blue] ++ back)[offset + 1]? = some green := hbyte 1 (by simp)
    have hblue : (front ++ [red, green, blue] ++ back)[offset + 1 + 1]? = some blue :=
      hbyte 2 (by simp)
    simp only [colorChannels, map_cons, map_nil, readAt_channel _ hred,
      readAt_channel _ hgre, readAt_channel _ hblue, zip_cons_cons, zip_nil_right]
  · by_cases hrgba : field.isRgba = true
    · simp only [hrgb, hrgba, if_true, if_false, Bool.false_eq_true] at hlen ⊢
      obtain ⟨red, green, blue, alpha, rfl⟩ : ∃ red green blue alpha,
          bytes = [red, green, blue, alpha] := by
        match bytes, hlen with
        | [red, green, blue, alpha], _ => exact ⟨red, green, blue, alpha, rfl⟩
      have hred : (front ++ [red, green, blue, alpha] ++ back)[offset]? = some red :=
        hbyte 0 (by simp)
      have hgre : (front ++ [red, green, blue, alpha] ++ back)[offset + 1]? = some green :=
        hbyte 1 (by simp)
      have hblue : (front ++ [red, green, blue, alpha] ++ back)[offset + 1 + 1]? = some blue :=
        hbyte 2 (by simp)
      have halp : (front ++ [red, green, blue, alpha] ++ back)[offset + 1 + 1 + 1]? =
          some alpha := hbyte 3 (by simp)
      simp only [colorChannels, map_cons, map_nil, readAt_channel _ hred,
        readAt_channel _ hgre, readAt_channel _ hblue, readAt_channel _ halp,
        zip_cons_cons, zip_nil_right]
    · simp only [hrgb, hrgba, if_false, Bool.false_eq_true] at hlen ⊢
      simp only [map_cons, map_nil, readAt]
      have hsize : field.sdkType.byteWidth * field.count.toNat = bytes.length := hlen.symm
      rw [hsize, slice_middle _ _ _ hoff]

theorem layoutFrom_readAt {fields : List PointFieldMsg} {bytes : PointFieldMsg → List UInt8}
    (front back : List UInt8) (offset : ℕ) (hoff : front.length = offset)
    (hlen : ∀ field ∈ fields, (bytes field).length = field.packedSize) :
    (layoutFrom offset fields).map (readAt bigendian (front ++ fields.flatMap bytes ++ back)) =
      fields.flatMap fun field => field.readBack bigendian (bytes field) := by
  induction fields generalizing front offset with
  | nil => rfl
  | cons field fields ih =>
    rw [forall_mem_cons] at hlen
    have hhead := entries_readAt bigendian (fields.flatMap bytes ++ back) hoff hlen.1
    have htail := ih (front ++ bytes field) (offset + field.packedSize)
      (by rw [length_append, hoff, hlen.1]) hlen.2
    rw [layoutFrom, map_append, flatMap_cons, flatMap_cons, ← hhead, ← htail]
    simp only [append_assoc]

theorem mem_colorChannels {names : List String} {field : PointField}
    (hfld : field ∈ colorChannels names offset) :
    offset ≤ field.offset ∧ field.offset + 1 ≤ offset + names.length ∧
      field.datatype = .uint8 ∧ field.count = 1 ∧ field.name ∈ names := by
  induction names generalizing offset with
  | nil => cases hfld
  | cons name names ih =>
    rcases mem_cons.mp hfld with rfl | htail
    · simp
    · obtain ⟨hfrom, hto, htype, hcnt, hname⟩ := ih htail
      exact ⟨by omega, by rw [length_cons]; omega, htype, hcnt, mem_cons_of_mem _ hname⟩

theorem datatype_of_float32 (htype : field.sdkType = .float32) : field.datatype = 7 := by
  unfold PointFieldMsg.sdkType rosDatatypeToSdk at htype
  split at htype <;> first | assumption | cases htype

theorem mem_entries {entry : PointField} (hent : entry ∈ field.entries offset) :
    entry.offset + entry.datatype.byteWidth * entry.count ≤ offset + field.packedSize ∧
      (entry.name = "rgb" → (field.name = "rgb" ∧ field.isRgb = false) ∧
        ¬ (entry.datatype = .float32 ∧ entry.count = 1)) := by
  unfold PointFieldMsg.entries at hent
  unfold PointFieldMsg.packedSize
  by_cases hrgb : field.isRgb = true
  · simp only [hrgb, if_true] at hent ⊢
    obtain ⟨-, hto, htype, hcnt, hname⟩ := mem_colorChannels hent
    rw [htype, hcnt]
    refine ⟨hto, fun hsm => ?_⟩
    rw [hsm] at hname
    simp at hname
  · by_cases hrgba : field.isRgba = true
    · simp only [hrgb, hrgba, if_true, if_false, Bool.false_eq_true] at hent ⊢
      obtain ⟨-, hto, htype, hcnt, hname⟩ := mem_colorChannels hent
      rw [htype, hcnt]
      refine ⟨hto, fun hsm => ?_⟩
      rw [hsm] at hname
      simp at hname
    · have hpac := hrgb
      simp only [hrgb, hrgba, if_false, Bool.false_eq_true] at hent ⊢
      obtain rfl := mem_singleton.mp hent
      refine ⟨le_rfl, fun hsm => ⟨⟨hsm, trivial⟩, fun hsca => hpac ?_⟩⟩
      have hcnt : field.count = 1 := UInt32.toNat_inj.mp hsca.2
      simp only [PointFieldMsg.isRgb, decide_eq_true_eq]
      exact ⟨hsm, datatype_of_float32 hsca.1, hcnt⟩

theorem mem_layoutFrom {fields : List PointFieldMsg} {entry : PointField}
    (hent : entry ∈ layoutFrom offset fields) :
    entry.offset + entry.datatype.byteWidth * entry.count ≤ offset + packedStep fields ∧
      (entry.name = "rgb" → (∃ field ∈ fields, field.name = "rgb" ∧ field.isRgb = false) ∧
        ¬ (entry.datatype = .float32 ∧ entry.count = 1)) := by
  induction fields generalizing offset with
  | nil => cases hent
  | cons field fields ih =>
    have hs : packedStep (field :: fields) = field.packedSize + packedStep fields := rfl
    rcases mem_append.mp hent with hhead | htail
    · obtain ⟨hins, hname⟩ := mem_entries hhead
      exact ⟨by omega, fun hsm =>
        ⟨⟨field, mem_cons_self, (hname hsm).1⟩, (hname hsm).2⟩⟩
    · obtain ⟨hins, hname⟩ := ih htail
      refine ⟨by omega, fun hsm => ⟨?_, (hname hsm).2⟩⟩
      obtain ⟨other, ho, hf⟩ := (hname hsm).1
      exact ⟨other, mem_cons_of_mem _ ho, hf⟩

theorem slice_four {source : List UInt8} {start : ℕ} (hsrc : start + 4 ≤ source.length) :
    ∃ first second third fourth, slice source start 4 = [first, second, third, fourth] ∧
      slice source start 1 = [first] ∧ slice source (start + 1) 1 = [second] ∧
      slice source (start + 2) 1 = [third] ∧ slice source (start + 3) 1 = [fourth] ∧
      source.getD (start + 1) 0 = second ∧ source.getD (start + 2) 0 = third := by
  have hdrop (skip : ℕ) : source.drop (start + skip) = (source.drop start).drop skip := by
    rw [drop_drop]
  have hget (skip : ℕ) : source.getD (start + skip) 0 = (source.drop start).getD skip 0 := by
    simp [getD_eq_getElem?_getD]
  have hlong : 4 ≤ (source.drop start).length := by
    rw [length_drop]
    omega
  simp only [slice, hdrop, hget]
  generalize source.drop start = rest at hlong ⊢
  rcases rest with _ | ⟨first, _ | ⟨second, _ | ⟨third, _ | ⟨fourth, tail⟩⟩⟩⟩
  · simp at hlong
  · simp at hlong
  · simp at hlong
  · simp at hlong
  · exact ⟨first, second, third, fourth, by simp⟩

theorem word_four (first second third fourth : UInt8) :
    word bigendian [first, second, third, fourth] =
      if bigendian then
        fourth.toNat + 256 * (third.toNat + 256 * (second.toNat + 256 * first.toNat))
      else first.toNat + 256 * (second.toNat + 256 * (third.toNat + 256 * fourth.toNat)) := by
  cases bigendian <;> simp [word, leValue]

theorem readBack_repack {bigendian : Bool} {source : List UInt8} {start : ℕ}
    (hsrc : start + field.size ≤ source.length)
    (hpln : bigendian = false ∨ ¬ (field.isRgb ∨ field.isRgba)) :
    field.readBack bigendian (field.repack source start) =
      field.channels bigendian (slice source start field.size) := by
  unfold PointFieldMsg.readBack PointFieldMsg.repack PointFieldMsg.channels
  by_cases hcol : field.isRgb = true ∨ field.isRgba = true
  · obtain rfl := hpln.resolve_right (not_not_intro hcol)
    have hfour := size_of_color hcol
    rw [hfour] at hsrc ⊢
    obtain ⟨first, second, third, fourth, hsli, h0, h1, h2, h3, -, -⟩ := slice_four hsrc
    rw [hsli, h0, h1, h2, h3, word_four]
    have hbounds := And.intro first.toNat_lt (And.intro second.toNat_lt
      (And.intro third.toNat_lt fourth.toNat_lt))
    have hred : (first.toNat + 256 * (second.toNat + 256 * (third.toNat + 256 * fourth.toNat))) /
        2 ^ 16 % 256 = third.toNat := by omega
    have hgre : (first.toNat + 256 * (second.toNat + 256 * (third.toNat +
        256 * fourth.toNat))) / 2 ^ 8 % 256 = second.toNat := by omega
    have hblue : (first.toNat + 256 * (second.toNat + 256 * (third.toNat +
        256 * fourth.toNat))) % 256 = first.toNat := by omega
    have halp : (first.toNat + 256 * (second.toNat + 256 * (third.toNat +
        256 * fourth.toNat))) / 2 ^ 24 % 256 = fourth.toNat := by omega
    by_cases hrgb : field.isRgb = true
    · simp only [hrgb, if_true, packedChannels, Bool.false_eq_true, if_false, hred, hgre, hblue]
      rfl
    · have hrgba := hcol.resolve_left hrgb
      simp only [hrgb, hrgba, if_true, packedChannels, Bool.false_eq_true, if_false, hred, hgre,
        hblue, halp]
      rfl
  · rw [not_or] at hcol
    simp only [hcol.1, hcol.2, if_false, Bool.false_eq_true]

theorem red_of_color (source : List UInt8) (start : ℕ) (hcol : field.isRgb ∨ field.isRgba)
    (hsrc : start + field.size ≤ source.length) :
    (field.readBack bigendian (field.repack source start)).head? =
        some ("r", ⟨.uint8, [(source.getD (start + 2) 0).toNat]⟩) ∧
      (field.channels bigendian (slice source start field.size)).head? =
        some ("r", ⟨.uint8, [(source.getD (start + if bigendian then 1 else 2) 0).toNat]⟩) := by
  unfold PointFieldMsg.readBack PointFieldMsg.repack PointFieldMsg.channels
  rw [size_of_color hcol] at hsrc ⊢
  obtain ⟨first, second, third, fourth, hsli, h0, h1, h2, h3, hsnd, hthi⟩ := slice_four hsrc
  have hbounds := And.intro first.toNat_lt (And.intro second.toNat_lt
    (And.intro third.toNat_lt fourth.toNat_lt))
  rw [hsli, h0, h1, h2, h3, word_four]
  have hred : (if bigendian then
        fourth.toNat + 256 * (third.toNat + 256 * (second.toNat + 256 * first.toNat))
      else first.toNat + 256 * (second.toNat + 256 * (third.toNat + 256 * fourth.toNat))) /
        2 ^ 16 % 256 =
      (source.getD (start + if bigendian then 1 else 2) 0).toNat := by
    cases bigendian
    · simp only [Bool.false_eq_true, if_false, hthi]
      omega
    · simp only [if_true, hsnd]
      omega
  rw [hthi]
  by_cases hrgb : field.isRgb = true
  · simp only [hrgb, if_true, packedChannels, hred]
    exact ⟨rfl, rfl⟩
  · have hrgba := hcol.resolve_left hrgb
    simp only [hrgb, hrgba, if_true, if_false, Bool.false_eq_true, packedChannels, hred]
    exact ⟨rfl, rfl⟩

end AukiSdk.Ros
