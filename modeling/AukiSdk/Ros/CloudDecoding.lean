import AukiSdk.Ros.CloudReading

/-!
# Decoding point clouds

When a payload decodes to a point's position and color.
-/

namespace AukiSdk.Ros

open AukiSdk.Foundation AukiSdk.Registry List
open Framing (leValue)

variable {F C : Type}

/-- The value of a channel. -/
def channelValue (channels : List (String × FieldValue)) (name : String) : Option FieldValue :=
  (channels.find? fun channel => channel.1 = name).map Prod.snd

/-- The bits of a scalar `float32`. -/
def FieldValue.coordinateBits (value : FieldValue) : Option ℕ :=
  match value.datatype, value.elements with
  | .float32, [bits] => some bits
  | _, _ => none

/-- A scalar `uint8`. -/
def FieldValue.channelByte (value : FieldValue) : Option ℕ :=
  match value.datatype, value.elements with
  | .uint8, [byte] => some byte
  | _, _ => none

/-- The color of a point: none without channels, and undefined if only some are there. -/
def colorOf (ops : FloatOps F C) (channels : List (String × FieldValue)) :
    Option (Option (C × C × C)) :=
  match channelValue channels "r", channelValue channels "g", channelValue channels "b" with
  | none, none, none => some none
  | some red, some green, some blue => do
      let red ← red.channelByte
      let green ← green.channelByte
      let blue ← blue.channelByte
      return some (ops.linear red, ops.linear green, ops.linear blue)
  | _, _, _ => none

def positionOf (channels : List (String × FieldValue)) (name : String) : Option ℕ :=
  (channelValue channels name).bind FieldValue.coordinateBits

/-- The position and the color that a point's channels say. -/
def pointOf (ops : FloatOps F C) (channels : List (String × FieldValue)) :
    Option (DecodedPoint F C) := do
  let x ← positionOf channels "x"
  let y ← positionOf channels "y"
  let z ← positionOf channels "z"
  let linearRgb ← colorOf ops channels
  return ⟨(ops.coordinate x, ops.coordinate y, ops.coordinate z), linearRgb⟩

section Point

variable {layout : Rangefinder} {data : List UInt8} {point : ℕ}

theorem channelValue_channels (name : String) : channelValue (layout.channels data point) name =
      (layout.find name).map (layout.read data point) := by
  rw [channelValue, Rangefinder.channels, find?_map, Option.map_map]
  rfl

theorem coordinateBits_read (field : PointField) : (layout.read data point field).coordinateBits =
      if field.datatype = .float32 ∧ field.count = 1 then
        some (word layout.isBigendian (slice data (point * layout.pointStep + field.offset) 4))
      else none := by
  unfold Rangefinder.read
  by_cases hsca : field.datatype = .float32 ∧ field.count = 1
  · rw [if_pos hsca, hsca.1, hsca.2]
    simp [fieldValue, FieldValue.coordinateBits, PointFieldDataType.byteWidth, slice, take_take]
  · rw [if_neg hsca]
    unfold fieldValue FieldValue.coordinateBits
    split
    · rename_i bits htype helements
      have hlength := congrArg List.length helements
      exact absurd ⟨htype, by simpa using hlength⟩ hsca
    · rfl

theorem channelByte_read {field : PointField} {byte : UInt8}
    (hbyte : data[point * layout.pointStep + field.offset]? = some byte) :
    (layout.read data point field).channelByte =
      if field.isChannel then some byte.toNat else none := by
  unfold Rangefinder.read
  by_cases hcha : field.isChannel = true
  · have hsca := hcha
    simp only [PointField.isChannel, decide_eq_true_eq] at hsca
    rw [if_pos hcha, hsca.1, hsca.2]
    have hone : slice data (point * layout.pointStep + field.offset) 1 = [byte] := slice_one hbyte
    simp only [PointFieldDataType.byteWidth, Nat.mul_one, hone, fieldValue_byte]
    rfl
  · rw [if_neg hcha]
    simp only [PointField.isChannel, decide_eq_true_eq] at hcha
    unfold fieldValue FieldValue.channelByte
    split
    · rename_i value htype helements
      have hlength := congrArg List.length helements
      exact absurd ⟨htype, by simpa using hlength⟩ hcha
    · rfl

/-- The layout's fields stay in a point. -/
def Rangefinder.Bounded (layout : Rangefinder) : Prop :=
  ∀ field ∈ layout.fields,
    field.offset + field.datatype.byteWidth * field.count ≤ layout.pointStep

variable {name : String}

theorem mem_of_find {field : PointField} (hfind : layout.find name = some field) :
    field ∈ layout.fields :=
  mem_of_find?_eq_some hfind

variable (ops : FloatOps F C) (hbounded : layout.Bounded)
  (hpoint : point * layout.pointStep + layout.pointStep ≤ data.length)
include hbounded hpoint

theorem readCoordinate_eq {field : PointField} (hfind : layout.find name = some field) :
    (readCoordinate ops layout field
        (slice data (point * layout.pointStep) layout.pointStep)).toOption =
      (positionOf (layout.channels data point) name).map ops.coordinate := by
  rw [positionOf, channelValue_channels, hfind, Option.map_some, Option.bind_some,
    coordinateBits_read]
  unfold readCoordinate
  by_cases hsca : field.datatype = .float32 ∧ field.count = 1
  · have hins := hbounded field (mem_of_find hfind)
    rw [hsca.1, hsca.2] at hins
    have hfour : field.offset + 4 ≤ layout.pointStep := hins
    have hbyt : fourBytes (slice data (point * layout.pointStep) layout.pointStep)
        field.offset = .ok (slice data (point * layout.pointStep + field.offset) 4) := by
      rw [fourBytes, if_pos (by rw [length_slice hpoint]; exact hfour), ← slice_slice hfour]
      rfl
    rw [if_pos hsca, if_neg (by simp [hsca]), hbyt]
    rfl
  · rw [if_neg hsca, if_pos (by rw [not_and_or] at hsca; exact hsca)]
    rfl

theorem channel_byte {field : PointField} (hfind : layout.find name = some field)
    (hcha : field.isChannel = true) :
    ∃ byte : ℕ,
      readChannel (slice data (point * layout.pointStep) layout.pointStep) field = .ok byte ∧
      (channelValue (layout.channels data point) name).bind FieldValue.channelByte = some byte := by
  have hsca := hcha
  simp only [PointField.isChannel, decide_eq_true_eq] at hsca
  have hins := hbounded field (mem_of_find hfind)
  rw [hsca.1, hsca.2] at hins
  have hone : field.offset + 1 ≤ layout.pointStep := hins
  have hbyte : data[point * layout.pointStep + field.offset]? =
      some data[point * layout.pointStep + field.offset] := getElem?_eq_getElem (by omega)
  refine ⟨data[point * layout.pointStep + field.offset].toNat, ?_, ?_⟩
  · rw [readChannel, slice, getElem?_take_of_lt (by omega), getElem?_drop, hbyte]
  · rw [channelValue_channels, hfind, Option.map_some, Option.bind_some,
      channelByte_read hbyte, if_pos hcha]

theorem readColor_eq {colors : ColorSource} (hcol : colorSource layout = .ok colors)
    (hrgb : ∀ field, layout.find "rgb" = some field →
      ¬ (field.datatype = .float32 ∧ field.count = 1)) :
    (readColor ops layout (slice data (point * layout.pointStep) layout.pointStep)
        colors).toOption = colorOf ops (layout.channels data point) := by
  have hnone (name : String) (hfind : layout.find name = none) :
      channelValue (layout.channels data point) name = none := by
    rw [channelValue_channels, hfind, Option.map_none]
  obtain ⟨separate, hsep, hcol⟩ := Checks.bind_eq_ok.mp hcol
  obtain ⟨packed, hpac, hcol⟩ := Checks.bind_eq_ok.mp hcol
  have hpln : packed = none := by
    unfold packedField at hpac
    split at hpac
    · exact (Except.ok.inj hpac).symm
    · rename_i field hfind
      have hsca := hrgb field hfind
      rw [not_and_or] at hsca
      rw [if_pos hsca] at hpac
      cases hpac
  subst hpln
  unfold separateChannels at hsep
  unfold colorOf
  split at hsep
  · rename_i hred hgre hblue
    cases hsep
    cases hcol
    rw [hnone _ hred, hnone _ hgre, hnone _ hblue]
    rfl
  · rename_i red green blue hred hgre hblue
    split at hsep
    · rename_i hchannels
      cases hsep
      cases hcol
      obtain ⟨r, hrdR, hvlR⟩ := channel_byte hbounded hpoint hred hchannels.1
      obtain ⟨g, hrdG, hvlG⟩ := channel_byte hbounded hpoint hgre hchannels.2.1
      obtain ⟨b, hrea, hval⟩ := channel_byte hbounded hpoint hblue hchannels.2.2
      obtain ⟨redValue, hrdV, hrdB⟩ := Option.bind_eq_some_iff.mp hvlR
      obtain ⟨greenValue, hgree, hgrn⟩ := Option.bind_eq_some_iff.mp hvlG
      obtain ⟨blueValue, hblV, hblu⟩ := Option.bind_eq_some_iff.mp hval
      rw [hrdV, hgree, hblV]
      simp only [readColor, hrdR, hrdG, hrea, hrdB, hgrn, hblu]
      rfl
    · cases hsep
  · cases hsep

theorem decodePoint_eq {x y z : PointField} {colors : ColorSource}
    (hx : layout.find "x" = some x) (hy : layout.find "y" = some y) (hz : layout.find "z" = some z)
    (hclr : colorSource layout = .ok colors)
    (hrgb : ∀ field, layout.find "rgb" = some field →
      ¬ (field.datatype = .float32 ∧ field.count = 1)) :
    (decodePoint ops layout x y z colors
        (slice data (point * layout.pointStep) layout.pointStep)).toOption =
      pointOf ops (layout.channels data point) := by
  have hpx := readCoordinate_eq ops hbounded hpoint hx
  have hpy := readCoordinate_eq ops hbounded hpoint hy
  have hpz := readCoordinate_eq ops hbounded hpoint hz
  have hcol := readColor_eq ops hbounded hpoint hclr hrgb
  unfold decodePoint pointOf
  rw [← hcol]
  cases hrea : readCoordinate ops layout x
      (slice data (point * layout.pointStep) layout.pointStep) with
  | error error =>
    rw [hrea] at hpx
    rw [Option.map_eq_none_iff.mp hpx.symm]
    rfl
  | ok px =>
    rw [hrea] at hpx
    obtain ⟨bitsX, hbit, rfl⟩ := Option.map_eq_some_iff.mp hpx.symm
    rw [hbit]
    cases hrdY : readCoordinate ops layout y
        (slice data (point * layout.pointStep) layout.pointStep) with
    | error error =>
      rw [hrdY] at hpy
      rw [Option.map_eq_none_iff.mp hpy.symm]
      rfl
    | ok py =>
      rw [hrdY] at hpy
      obtain ⟨bitsY, hbts, rfl⟩ := Option.map_eq_some_iff.mp hpy.symm
      rw [hbts]
      cases hrdZ : readCoordinate ops layout z
          (slice data (point * layout.pointStep) layout.pointStep) with
      | error error =>
        rw [hrdZ] at hpz
        rw [Option.map_eq_none_iff.mp hpz.symm]
        rfl
      | ok pz =>
        rw [hrdZ] at hpz
        obtain ⟨bitsZ, hbiZ, rfl⟩ := Option.map_eq_some_iff.mp hpz.symm
        rw [hbiZ]
        cases readColor ops layout
            (slice data (point * layout.pointStep) layout.pointStep) colors <;> rfl

end Point

theorem exists_mapM_ok {α β ε : Type} {f : α → Except ε β} {inputs : List α}
    (hall : ∀ input ∈ inputs, ∃ output, f input = .ok output) :
    ∃ outputs, inputs.mapM f = .ok outputs := by
  induction inputs with
  | nil => exact ⟨[], rfl⟩
  | cons input inputs ih =>
    rw [forall_mem_cons] at hall
    obtain ⟨output, hout⟩ := hall.1
    obtain ⟨rest, hrest⟩ := ih hall.2
    exact ⟨output :: rest, by rw [mapM_cons, hout, hrest]; rfl⟩

section Payload

variable {layout : Rangefinder} {data : List UInt8} {count : ℕ} (ops : FloatOps F C)
  (hbounded : layout.Bounded) (hlength : data.length = count * layout.pointStep)
  (hrgb : ∀ field, layout.find "rgb" = some field →
    ¬ (field.datatype = .float32 ∧ field.count = 1))
include hlength

omit ops in
theorem point_inside {point : ℕ} (hpoint : point < count) :
    point * layout.pointStep + layout.pointStep ≤ data.length := by
  rw [hlength, ← Nat.succ_mul]
  exact Nat.mul_le_mul_right _ hpoint

include hbounded hrgb

theorem decodeXyzRgb_ok {points : List (DecodedPoint F C)}
    (hdec : decodeXyzRgb ops data layout = .ok points) :
    points.length = count ∧
      ∀ point < count, points[point]? = pointOf ops (layout.channels data point) := by
  obtain ⟨x, hx, hdec⟩ := Checks.bind_eq_ok.mp hdec
  obtain ⟨y, hy, hdec⟩ := Checks.bind_eq_ok.mp hdec
  obtain ⟨z, hz, hdec⟩ := Checks.bind_eq_ok.mp hdec
  obtain ⟨colors, hcol, hdec⟩ := Checks.bind_eq_ok.mp hdec
  have hf {name : String} {field : PointField}
      (hfind : findCoordinate layout name = .ok field) : layout.find name = some field := by
    unfold findCoordinate at hfind
    split at hfind
    · rename_i found hsome
      rw [hsome, Except.ok.inj hfind]
    · cases hfind
  split at hdec
  · cases hdec
  · rename_i hwhl
    have hpos : 0 < layout.pointStep := by omega
    have hcnt : data.length / layout.pointStep = count := by
      rw [hlength, Nat.mul_div_cancel _ hpos]
    rw [hcnt] at hdec
    have hfor := Checks.mapM_eq_ok.mp hdec
    have hsize : points.length = count := by
      rw [← hfor.length_eq, length_range]
    refine ⟨hsize, fun point hpoint => ?_⟩
    have hdcd := hfor.get (i := point) (by rw [length_range]; exact hpoint)
      (by rw [hsize]; exact hpoint)
    rw [get_eq_getElem, get_eq_getElem, getElem_range] at hdcd
    have heq := decodePoint_eq ops hbounded (point_inside hlength hpoint) (hf hx) (hf hy)
      (hf hz) hcol hrgb
    rw [getElem?_eq_getElem (by rw [hsize]; exact hpoint), ← heq]
    exact (congrArg Except.toOption hdcd).symm

omit hlength hrgb hbounded in
theorem find_of_positionOf {name : String} {point : ℕ}
    (hpos : (positionOf (layout.channels data point) name).isSome) :
    ∃ field, layout.find name = some field ∧ field.datatype = .float32 ∧ field.count = 1 := by
  obtain ⟨bits, hbits⟩ := Option.isSome_iff_exists.mp hpos
  rw [positionOf, channelValue_channels] at hbits
  obtain ⟨value, hval, hbits⟩ := Option.bind_eq_some_iff.mp hbits
  obtain ⟨field, hfind, rfl⟩ := Option.map_eq_some_iff.mp hval
  rw [coordinateBits_read] at hbits
  split at hbits
  · rename_i hsca
    exact ⟨field, hfind, hsca⟩
  · cases hbits

omit hlength hrgb hbounded in
theorem isChannel_of_channelByte {field : PointField} {point byte : ℕ}
    (hbyte : (layout.read data point field).channelByte = some byte) :
    field.isChannel = true := by
  unfold Rangefinder.read fieldValue FieldValue.channelByte at hbyte
  split at hbyte
  · rename_i value htype helements
    have hlength := congrArg List.length helements
    simp only [PointField.isChannel, decide_eq_true_eq]
    exact ⟨htype, by simpa using hlength⟩
  · cases hbyte

omit hlength hrgb hbounded in
theorem colorSource_ok {point : ℕ} (hpln : layout.find "rgb" = none)
    (hcol : (colorOf ops (layout.channels data point)).isSome) :
    ∃ colors, colorSource layout = .ok colors := by
  have hsep : ∃ separate, separateChannels layout = .ok separate := by
    unfold colorOf at hcol
    simp only [channelValue_channels] at hcol
    unfold separateChannels
    cases hred : layout.find "r" <;> cases hgre : layout.find "g" <;>
      cases hblue : layout.find "b" <;> rw [hred, hgre, hblue] at hcol
    case some.some.some red green blue =>
      obtain ⟨color, hcol⟩ := Option.isSome_iff_exists.mp hcol
      obtain ⟨r, hr, hcol⟩ := Option.bind_eq_some_iff.mp hcol
      obtain ⟨g, hg, hcol⟩ := Option.bind_eq_some_iff.mp hcol
      obtain ⟨b, hb, -⟩ := Option.bind_eq_some_iff.mp hcol
      exact ⟨some (red, green, blue), if_pos ⟨isChannel_of_channelByte hr,
        isChannel_of_channelByte hg, isChannel_of_channelByte hb⟩⟩
    case none.none.none => exact ⟨none, rfl⟩
    all_goals cases hcol
  obtain ⟨separate, hsep⟩ := hsep
  have hpac : packedField layout = .ok none := by
    unfold packedField
    rw [hpln]
  unfold colorSource
  rw [hsep, hpac]
  exact ⟨_, rfl⟩

theorem exists_decodeXyzRgb (hpln : layout.find "rgb" = none) (hcnt : 0 < count)
    (hpoi : ∀ point < count, (pointOf ops (layout.channels data point)).isSome) :
    ∃ points, decodeXyzRgb ops data layout = .ok points := by
  obtain ⟨first, hfst⟩ := Option.isSome_iff_exists.mp (hpoi 0 hcnt)
  obtain ⟨bitsX, hbit, hfst⟩ := Option.bind_eq_some_iff.mp hfst
  obtain ⟨bitsY, hbts, hfst⟩ := Option.bind_eq_some_iff.mp hfst
  obtain ⟨bitsZ, hbiZ, hfst⟩ := Option.bind_eq_some_iff.mp hfst
  obtain ⟨color, hcol, -⟩ := Option.bind_eq_some_iff.mp hfst
  obtain ⟨x, hx, hsca⟩ := find_of_positionOf (Option.isSome_of_mem hbit)
  obtain ⟨y, hy, -⟩ := find_of_positionOf (Option.isSome_of_mem hbts)
  obtain ⟨z, hz, -⟩ := find_of_positionOf (Option.isSome_of_mem hbiZ)
  obtain ⟨colors, hclr⟩ := colorSource_ok ops hpln (Option.isSome_of_mem hcol)
  have hins := hbounded x (mem_of_find hx)
  rw [hsca.1, hsca.2] at hins
  have hpos : 0 < layout.pointStep := by
    have hfour : x.offset + 4 ≤ layout.pointStep := hins
    omega
  have hwhl : ¬ (layout.pointStep = 0 ∨ data.length % layout.pointStep ≠ 0) := by
    rw [hlength, Nat.mul_mod_left]
    omega
  have hcou : data.length / layout.pointStep = count := by
    rw [hlength, Nat.mul_div_cancel _ hpos]
  have hmap : ∃ points, (List.range count).mapM (fun point =>
      decodePoint ops layout x y z colors
        ((data.drop (point * layout.pointStep)).take layout.pointStep)) = .ok points := by
    refine exists_mapM_ok fun point hpoint => ?_
    have hpoint := mem_range.mp hpoint
    have heq := decodePoint_eq ops hbounded (point_inside hlength hpoint) hx hy hz hclr hrgb
    have hsome := hpoi point hpoint
    rw [← heq] at hsome
    unfold slice at hsome
    cases hdec : decodePoint ops layout x y z colors
        ((data.drop (point * layout.pointStep)).take layout.pointStep) with
    | error error =>
      rw [hdec] at hsome
      cases hsome
    | ok decoded => exact ⟨decoded, rfl⟩
  obtain ⟨points, hpoi⟩ := hmap
  refine ⟨points, ?_⟩
  unfold decodeXyzRgb findCoordinate
  rw [hx, hy, hz, hclr, hcou]
  exact (if_neg hwhl).trans hpoi

end Payload

end AukiSdk.Ros
