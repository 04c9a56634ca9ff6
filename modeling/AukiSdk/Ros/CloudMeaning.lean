import AukiSdk.Ros.CloudDecoding

/-!
# Point clouds keep their meaning

A message keeps its meaning exactly if it fits, is contiguous and has plain colors.
-/

namespace AukiSdk.Ros

open AukiSdk.Foundation AukiSdk.Registry List
open Framing (leValue)

variable {F C : Type}

/-- The messages that are well formed by the ROS contract. -/
structure PointCloud2Msg.WellFormed (msg : PointCloud2Msg) : Prop where
  known : ∀ field ∈ msg.fields, (rosDatatypeToSdk field.datatype).isSome
  distinct : (msg.fields.map PointFieldMsg.name).Nodup
  unclashing : ∀ field ∈ msg.fields,
    (field.isRgb → ∀ name ∈ ["r", "g", "b"], name ∉ msg.fields.map PointFieldMsg.name) ∧
    (field.isRgba → ∀ name ∈ ["r", "g", "b", "a"], name ∉ msg.fields.map PointFieldMsg.name)
  inside : ∀ field ∈ msg.fields, field.offset.toNat + field.size ≤ msg.pointStep.toNat
  rows : msg.width.toNat * msg.pointStep.toNat ≤ msg.rowStep.toNat
  filled : msg.data.length = msg.height.toNat * msg.rowStep.toNat
  /-- A `Vec` holds at most `isize::MAX` bytes. -/
  allocated : msg.data.length < 2 ^ 63

def PointCloud2Msg.points (msg : PointCloud2Msg) : ℕ := msg.height.toNat * msg.width.toNat

/-- The layouts that the normalization supports. -/
structure PointCloud2Msg.Plain (msg : PointCloud2Msg) : Prop where
  step : packedStep msg.fields < 2 ^ 32
  payload : msg.points * packedStep msg.fields < 2 ^ 63
  contiguous : msg.height.toNat ≤ 1 ∨ msg.width.toNat = 0 ∨
    msg.rowStep.toNat = msg.width.toNat * msg.pointStep.toNat ∨
    ∀ field ∈ msg.fields, field.size = 0
  colors : msg.isBigendian = false ∨ msg.points = 0 ∨
    ∀ field ∈ msg.fields, ¬ (field.isRgb ∨ field.isRgba)

/-- A payload decodes to the positions and colors of the message. -/
structure Decodes (ops : FloatOps F C) (msg : PointCloud2Msg) (payload : List UInt8)
    (layout : Rangefinder) : Prop where
  same : ∀ points, decodeXyzRgb ops payload layout = .ok points →
    points.length = msg.points ∧
      ∀ row < msg.height.toNat, ∀ column < msg.width.toNat,
        points[row * msg.width.toNat + column]? = pointOf ops (msg.channels row column)
  decoded : 0 < msg.points → (∀ field ∈ msg.fields, field.name = "rgb" → field.isRgb) →
    (∀ row < msg.height.toNat, ∀ column < msg.width.toNat,
      (pointOf ops (msg.channels row column)).isSome) →
    ∃ points, decodeXyzRgb ops payload layout = .ok points

/-- Both entries are built, and together say what the message says. -/
def KeepsMeaning (ops : FloatOps F C) (peerId sensorId : String) (frameRateHz : UInt32)
    (sensorType : String) (frame : RegistryRef) (msg : PointCloud2Msg) : Prop :=
  ∃ entry payload,
    buildPointCloudRegistryEntry peerId sensorId msg frameRateHz sensorType frame = some entry ∧
    buildPointCloudLogEntry msg = some (stampToNs msg.stamp, payload) ∧
    payload.length = msg.width.toNat * msg.height.toNat * entry.body.pointStep ∧
    (∀ row < msg.height.toNat, ∀ column < msg.width.toNat,
      entry.body.channels payload (row * msg.width.toNat + column) = msg.channels row column) ∧
    Decodes ops msg payload entry.body

section Built

variable {msg : PointCloud2Msg} {peerId sensorId sensorType : String} {frameRateHz : UInt32}
  {frame : RegistryRef}

/-- The layout of a message's payload. -/
def layoutOf (msg : PointCloud2Msg) (frameRateHz : UInt32) (sensorType : String)
    (frame : RegistryRef) : Rangefinder :=
  ⟨sensorType, layoutFrom 0 msg.fields, packedStep msg.fields, msg.isBigendian, frameRateHz,
    frame⟩

def payloadOf (msg : PointCloud2Msg) : List UInt8 :=
  (List.range msg.points).flatMap fun point =>
    pointBytes msg.fields msg.data (point * msg.pointStep.toNat)

theorem inside_point (hmsg : msg.WellFormed) {point : ℕ} (hpoint : point < msg.points) :
    Inside msg.fields msg.data (point * msg.pointStep.toNat) := by
  intro field hfld
  have hins := hmsg.inside field hfld
  have hpre : (point + 1) * msg.pointStep.toNat ≤ msg.points * msg.pointStep.toNat :=
    Nat.mul_le_mul_right _ hpoint
  have hall : msg.points * msg.pointStep.toNat ≤ msg.data.length := by
    rw [PointCloud2Msg.points, Nat.mul_assoc, hmsg.filled]
    exact Nat.mul_le_mul_left _ hmsg.rows
  rw [Nat.succ_mul] at hpre
  omega

theorem size_lt (hmsg : msg.WellFormed) {field : PointFieldMsg} (hfld : field ∈ msg.fields) :
    field.size < 2 ^ 32 := by
  have hins := hmsg.inside field hfld
  have hs := msg.pointStep.toNat_lt
  omega

theorem normalizeLayout_eq (hmsg : msg.WellFormed) : normalizeLayout msg.fields =
      if packedStep msg.fields < 2 ^ 32 then
        some ⟨layoutFrom 0 msg.fields, packedStep msg.fields, plansFrom 0 msg.fields⟩
      else none := by
  have hloop := foldlM_normalizeField ⟨[], 0, []⟩
    (fun field hfld => ⟨hmsg.known field hfld, size_lt hmsg hfld⟩) (by decide)
  simpa [normalizeLayout] using hloop

theorem buildPointCloudRegistryEntry_eq (hmsg : msg.WellFormed) :
    buildPointCloudRegistryEntry peerId sensorId msg frameRateHz sensorType frame =
      if packedStep msg.fields < 2 ^ 32 then
        some ⟨peerId, sensorId, layoutOf msg frameRateHz sensorType frame⟩
      else none := by
  rw [buildPointCloudRegistryEntry, normalizeLayout_eq hmsg]
  split <;> rfl

theorem buildPointCloudLogEntry_eq (hmsg : msg.WellFormed) : buildPointCloudLogEntry msg =
      if packedStep msg.fields < 2 ^ 32 ∧ msg.points * packedStep msg.fields < 2 ^ 63 then
        some (stampToNs msg.stamp, payloadOf msg)
      else none := by
  have hpro : msg.width.toNat * msg.height.toNat < 2 ^ 64 := by
    have hwid := msg.width.toNat_lt
    have hhei := msg.height.toNat_lt
    calc msg.width.toNat * msg.height.toNat < 2 ^ 32 * 2 ^ 32 := Nat.mul_lt_mul'' hwid hhei
      _ = 2 ^ 64 := by decide
  have hcnt : min (msg.width.toNat * msg.height.toNat) (2 ^ 64 - 1) = msg.points := by
    rw [PointCloud2Msg.points, Nat.mul_comm msg.height.toNat]
    omega
  rw [buildPointCloudLogEntry, normalizeLayout_eq hmsg, hcnt]
  by_cases hs : packedStep msg.fields < 2 ^ 32
  · rw [if_pos hs, Option.bind_eq_bind, Option.bind_some]
    dsimp only
    rw [applyNormalization_eq fun point hpoint => inside_point hmsg hpoint]
    by_cases hpay : msg.points * packedStep msg.fields < 2 ^ 63
    · rw [if_pos hpay, if_pos ⟨hs, hpay⟩]
      rfl
    · rw [if_neg hpay, if_neg fun hboth => hpay hboth.2]
      rfl
  · rw [if_neg hs, if_neg fun hboth => hs hboth.1]
    rfl

theorem bounded_layoutOf (msg : PointCloud2Msg) (frameRateHz : UInt32) (sensorType : String)
    (frame : RegistryRef) : (layoutOf msg frameRateHz sensorType frame).Bounded := by
  intro field hfld
  have hins := (mem_layoutFrom hfld).1
  rw [Nat.zero_add] at hins
  exact hins

theorem length_payloadOf (hmsg : msg.WellFormed) :
    (payloadOf msg).length = msg.points * packedStep msg.fields := by
  rcases Nat.eq_zero_or_pos msg.points with hnone | hsome
  · simp [payloadOf, hnone]
  · exact (slice_flatMap_range (fun point hpoint => length_pointBytes (inside_point hmsg hpoint))
      hsome).1

theorem channels_payloadOf (hmsg : msg.WellFormed) {point : ℕ} (hpoint : point < msg.points) :
    (layoutOf msg frameRateHz sensorType frame).channels (payloadOf msg) point =
      msg.fields.flatMap fun field => field.readBack msg.isBigendian
        (field.repack msg.data (point * msg.pointStep.toNat + field.offset.toNat)) := by
  have hblo := (slice_flatMap_range
    (fun index hidx => length_pointBytes (inside_point hmsg hidx)) hpoint).2
  have hread := layoutFrom_readAt msg.isBigendian [] [] 0 rfl
    fun field hfld => length_repack (inside_point hmsg hpoint field hfld)
  rw [← hread, nil_append, append_nil]
  refine map_congr_left fun field hfld => ?_
  have hins := bounded_layoutOf msg frameRateHz sensorType frame field hfld
  have hsli : slice (payloadOf msg) (point * packedStep msg.fields + field.offset)
      (field.datatype.byteWidth * field.count) =
      slice (pointBytes msg.fields msg.data (point * msg.pointStep.toNat)) field.offset
        (field.datatype.byteWidth * field.count) := by
    rw [← slice_slice hins, payloadOf]
    exact congrArg (fun bytes => slice bytes _ _) hblo
  exact congrArg (fun bytes => (field.name,
    fieldValue msg.isBigendian field.datatype field.count bytes)) hsli

end Built

section Plain

variable {msg : PointCloud2Msg}

theorem point_lt {row column : ℕ} (hrow : row < msg.height.toNat)
    (hcolumn : column < msg.width.toNat) : row * msg.width.toNat + column < msg.points := by
  have hlast : (row + 1) * msg.width.toNat ≤ msg.points := Nat.mul_le_mul_right _ hrow
  rw [Nat.succ_mul] at hlast
  omega

theorem slice_contiguous (hpln : msg.Plain) {row column : ℕ} (hrow : row < msg.height.toNat)
    (hcolumn : column < msg.width.toNat) {field : PointFieldMsg} (hfld : field ∈ msg.fields) :
    slice msg.data
        ((row * msg.width.toNat + column) * msg.pointStep.toNat + field.offset.toNat)
        field.size =
      slice msg.data
        (row * msg.rowStep.toNat + column * msg.pointStep.toNat + field.offset.toNat)
        field.size := by
  rcases hpln.contiguous with hsin | hemp | hrows | hsizes
  · obtain rfl : row = 0 := by omega
    rw [Nat.zero_mul, Nat.zero_mul, Nat.zero_add, Nat.zero_add]
  · omega
  · rw [hrows, Nat.add_mul, Nat.mul_assoc]
  · rw [hsizes field hfld, slice, slice, take_zero, take_zero]

theorem channels_plain (hmsg : msg.WellFormed) (hpln : msg.Plain) {row column : ℕ}
    (hrow : row < msg.height.toNat) (hclm : column < msg.width.toNat) (frameRateHz : UInt32)
    (sensorType : String) (frame : RegistryRef) :
    (layoutOf msg frameRateHz sensorType frame).channels (payloadOf msg)
        (row * msg.width.toNat + column) = msg.channels row column := by
  have hpoint := point_lt hrow hclm
  rw [channels_payloadOf hmsg hpoint, PointCloud2Msg.channels]
  refine flatMap_congr fun field hfld => ?_
  rw [← slice_contiguous hpln hrow hclm hfld]
  refine readBack_repack (inside_point hmsg hpoint field hfld) ?_
  rcases hpln.colors with hlit | hnone | hcol
  · exact Or.inl hlit
  · omega
  · exact Or.inr (hcol field hfld)

theorem keepsMeaning_of_plain (ops : FloatOps F C) (hmsg : msg.WellFormed) (hpln : msg.Plain)
    (peerId sensorId : String) (frameRateHz : UInt32) (sensorType : String)
    (frame : RegistryRef) :
    KeepsMeaning ops peerId sensorId frameRateHz sensorType frame msg := by
  have hlen := length_payloadOf hmsg
  have hbdd := bounded_layoutOf msg frameRateHz sensorType frame
  have hrgb : ∀ field, (layoutOf msg frameRateHz sensorType frame).find "rgb" = some field →
      ¬ (field.datatype = .float32 ∧ field.count = 1) := by
    intro field hfind
    have hname : field.name = "rgb" := by simpa using find?_some hfind
    exact ((mem_layoutFrom (mem_of_find hfind)).2 hname).2
  refine ⟨_, _, (buildPointCloudRegistryEntry_eq hmsg).trans (if_pos hpln.step),
    (buildPointCloudLogEntry_eq hmsg).trans (if_pos ⟨hpln.step, hpln.payload⟩), ?_,
    fun row hrow column hcol => channels_plain hmsg hpln hrow hcol _ _ _, ?_, ?_⟩
  · rw [hlen, PointCloud2Msg.points, Nat.mul_comm msg.height.toNat]
    rfl
  · intro points hdec
    obtain ⟨hsize, hpoi⟩ := decodeXyzRgb_ok ops hbdd hlen hrgb hdec
    refine ⟨hsize, fun row hrow column hcol => ?_⟩
    rw [hpoi _ (point_lt hrow hcol), channels_plain hmsg hpln hrow hcol]
  · intro hsome hpac hall
    refine exists_decodeXyzRgb ops hbdd hlen hrgb ?_ hsome fun point hpoint => ?_
    · cases hfind : (layoutOf msg frameRateHz sensorType frame).find "rgb" with
      | none => rfl
      | some field =>
        have hname : field.name = "rgb" := by simpa using find?_some hfind
        obtain ⟨source, hsrc, hnam, ho⟩ := ((mem_layoutFrom (mem_of_find hfind)).2 hname).1
        rw [hpac source hsrc hnam] at ho
        cases ho
    · have hwid : 0 < msg.width.toNat := by
        rcases Nat.eq_zero_or_pos msg.width.toNat with hzero | hpos
        · rw [PointCloud2Msg.points, hzero] at hsome
          omega
        · exact hpos
      have hrow : point / msg.width.toNat < msg.height.toNat := Nat.div_lt_of_lt_mul (by
        rw [Nat.mul_comm]
        exact hpoint)
      have hcol := Nat.mod_lt point hwid
      have hcha := channels_plain hmsg hpln hrow hcol frameRateHz sensorType frame
      rw [Nat.div_add_mod'] at hcha
      rw [hcha]
      exact hall _ hrow _ hcol

end Plain

variable {bytes : List UInt8}

theorem leValue_eq_zero : leValue bytes = 0 ↔ ∀ byte ∈ bytes, byte = 0 := by
  induction bytes with
  | nil => simp [leValue]
  | cons byte bytes ih =>
    rw [leValue, forall_mem_cons, ← ih, ← UInt8.toNat_inj]
    simp

theorem word_eq_zero {bigendian : Bool} :
    word bigendian bytes = 0 ↔ ∀ byte ∈ bytes, byte = 0 := by
  cases bigendian <;> simp [word, leValue_eq_zero]

theorem fieldValue_eq_zero (bigendian : Bool) {datatype : PointFieldDataType} {count : ℕ}
    (hlen : bytes.length = datatype.byteWidth * count) :
    (∀ element ∈ (fieldValue bigendian datatype count bytes).elements, element = 0) ↔
      ∀ byte ∈ bytes, byte = 0 := by
  simp only [fieldValue, mem_map, mem_range, forall_exists_index, and_imp,
    forall_apply_eq_imp_iff₂, word_eq_zero]
  constructor
  · intro hzero byte hbyte
    obtain ⟨index, hidx, rfl⟩ := mem_iff_getElem.mp hbyte
    have hwid : 0 < datatype.byteWidth := by cases datatype <;> decide
    have hmod := Nat.mod_lt index hwid
    have hdiv : datatype.byteWidth * (index / datatype.byteWidth) + index % datatype.byteWidth =
        index := Nat.div_add_mod index datatype.byteWidth
    have hchk : index / datatype.byteWidth < count := Nat.div_lt_of_lt_mul (by omega)
    refine hzero _ hchk _ (mem_iff_getElem?.mpr ⟨index % datatype.byteWidth, ?_⟩)
    rw [getElem?_take_of_lt hmod, getElem?_drop, Nat.mul_comm, hdiv, getElem?_eq_getElem hidx]
  · intro hzero index _ byte hbyte
    exact hzero byte (mem_of_mem_drop (mem_of_mem_take hbyte))

theorem flatMap_inj {α β : Type} {values : List α} {left right : α → List β}
    (hlen : ∀ value ∈ values, (left value).length = (right value).length)
    (heq : values.flatMap left = values.flatMap right) :
    ∀ value ∈ values, left value = right value := by
  induction values with
  | nil => simp
  | cons value values ih =>
    rw [forall_mem_cons] at hlen ⊢
    rw [flatMap_cons, flatMap_cons] at heq
    obtain ⟨hhead, htail⟩ := append_inj heq hlen.1
    exact ⟨hhead, ih hlen.2 htail⟩

theorem length_readBack {field : PointFieldMsg} {bigendian : Bool}
    (hlen : bytes.length = field.packedSize) (source : List UInt8) :
    (field.readBack bigendian bytes).length = (field.channels bigendian source).length := by
  unfold PointFieldMsg.readBack PointFieldMsg.channels
  unfold PointFieldMsg.packedSize at hlen
  by_cases hrgb : field.isRgb = true
  · simp only [hrgb, if_true] at hlen ⊢
    simp [packedChannels, hlen]
  · by_cases hrgba : field.isRgba = true
    · simp only [hrgb, hrgba, if_true, if_false, Bool.false_eq_true] at hlen ⊢
      simp [packedChannels, hlen]
    · simp only [hrgb, hrgba, if_false, Bool.false_eq_true]
      rfl

/-- Zeros but for one byte. -/
def marked (length position : ℕ) : List UInt8 := (List.replicate length 0).set position 1

@[simp]
theorem length_marked (length position : ℕ) : (marked length position).length = length := by
  simp [marked]

variable {position : ℕ}

theorem getD_marked_self {length : ℕ} (hpos : position < length) :
    (marked length position).getD position 0 = 1 := by
  simp [marked, getD_eq_getElem?_getD, hpos]

theorem getD_marked_of_ne {length index : ℕ} (hne : index ≠ position) :
    (marked length position).getD index 0 = 0 := by
  simp only [marked, getD_eq_getElem?_getD, getElem?_set_ne hne.symm, getElem?_replicate]
  split <;> rfl

theorem slice_marked_of_le {length start count : ℕ} (hpre : start + count ≤ position) :
    ∀ byte ∈ slice (marked length position) start count, byte = 0 := by
  intro byte hbyte
  obtain ⟨index, hidx⟩ := mem_iff_getElem?.mp hbyte
  have hcnt : index < count := by
    have hlt := (List.getElem?_eq_some_iff.mp hidx).1
    rw [slice, length_take] at hlt
    omega
  rw [slice, getElem?_take_of_lt hcnt, getElem?_drop] at hidx
  have hzero : (marked length position).getD (start + index) 0 = 0 := getD_marked_of_ne (by omega)
  rwa [getD_eq_getElem?_getD, hidx] at hzero

theorem mem_slice_marked {length start count : ℕ} (hlen : position < length)
    (hbeg : start ≤ position) (hcnt : position < start + count) :
    1 ∈ slice (marked length position) start count := by
  refine mem_iff_getElem?.mpr ⟨position - start, ?_⟩
  rw [slice, getElem?_take_of_lt (by omega), getElem?_drop,
    Nat.add_sub_cancel' hbeg, marked, getElem?_set_self (by simpa using hlen)]

section Broken

variable {msg : PointCloud2Msg} {ops : FloatOps F C} {peerId sensorId sensorType : String}
  {frameRateHz : UInt32} {frame : RegistryRef}

theorem PointCloud2Msg.WellFormed.withData (hmsg : msg.WellFormed) {data : List UInt8}
    (hlen : data.length = msg.data.length) : { msg with data }.WellFormed where
  __ := hmsg
  filled := hlen.trans hmsg.filled
  allocated := hlen.trans_lt hmsg.allocated

theorem KeepsMeaning.fields (hmsg : msg.WellFormed)
    (hkeeps : KeepsMeaning ops peerId sensorId frameRateHz sensorType frame msg) :
    packedStep msg.fields < 2 ^ 32 ∧ msg.points * packedStep msg.fields < 2 ^ 63 ∧
      ∀ row < msg.height.toNat, ∀ column < msg.width.toNat, ∀ field ∈ msg.fields,
        field.readBack msg.isBigendian (field.repack msg.data
          ((row * msg.width.toNat + column) * msg.pointStep.toNat + field.offset.toNat)) =
        field.channels msg.isBigendian (slice msg.data
          (row * msg.rowStep.toNat + column * msg.pointStep.toNat + field.offset.toNat)
          field.size) := by
  obtain ⟨entry, payload, hent, hpay, -, hcha, -⟩ := hkeeps
  rw [buildPointCloudRegistryEntry_eq hmsg] at hent
  rw [buildPointCloudLogEntry_eq hmsg] at hpay
  split at hpay
  · rename_i hfits
    rw [if_pos hfits.1] at hent
    cases hent
    cases hpay
    refine ⟨hfits.1, hfits.2, fun row hrow column hcol => ?_⟩
    have hpoint := point_lt hrow hcol
    have hread := hcha row hrow column hcol
    rw [channels_payloadOf hmsg hpoint, PointCloud2Msg.channels] at hread
    exact flatMap_inj (fun field hfld => length_readBack
      (length_repack (inside_point hmsg hpoint field hfld)) _) hread
  · cases hpay

variable (hmsg : msg.WellFormed)
  (hkeeps : ∀ data : List UInt8, data.length = msg.data.length →
    KeepsMeaning ops peerId sensorId frameRateHz sensorType frame { msg with data })
include hmsg hkeeps

theorem colors_of_keepsMeaning (hbig : msg.isBigendian = true) (hpoi : 0 < msg.points)
    {field : PointFieldMsg} (hfld : field ∈ msg.fields) :
    ¬ (field.isRgb ∨ field.isRgba) := by
  intro hcol
  have hhei : 0 < msg.height.toNat := Nat.pos_of_ne_zero fun hzero => by
    rw [PointCloud2Msg.points, hzero] at hpoi
    omega
  have hwid : 0 < msg.width.toNat := Nat.pos_of_ne_zero fun hzero => by
    rw [PointCloud2Msg.points, hzero] at hpoi
    omega
  have hlen := length_marked msg.data.length (field.offset.toNat + 1)
  have hmar := hmsg.withData hlen
  have hread := (hkeeps _ hlen).fields hmar |>.2.2 0 hhei 0 hwid field hfld
  have hins := inside_point hmar hpoi field hfld
  rw [Nat.zero_mul, Nat.zero_add] at hins
  simp only [Nat.zero_mul, Nat.zero_add] at hread
  obtain ⟨hcode, hsrc⟩ := red_of_color msg.isBigendian _ _ hcol hins
  rw [hread, hsrc] at hcode
  have hfour := size_of_color hcol
  have hbyt := hlen ▸ hins
  rw [hbig, if_pos rfl, getD_marked_self (by omega), getD_marked_of_ne (by omega)] at hcode
  simp at hcode

theorem rows_of_keepsMeaning (hhei : 1 < msg.height.toNat) (hwid : 0 < msg.width.toNat)
    {field : PointFieldMsg} (hfld : field ∈ msg.fields) (hsize : 0 < field.size) :
    msg.rowStep.toNat = msg.width.toNat * msg.pointStep.toNat := by
  by_contra hpadded
  have hrows := hmsg.rows
  have hin := hmsg.inside field hfld
  have hs : msg.pointStep.toNat ≤ msg.rowStep.toNat := (Nat.le_mul_of_pos_left _ hwid).trans hrows
  have htwo : 2 * msg.rowStep.toNat ≤ msg.data.length := by
    rw [hmsg.filled]
    exact Nat.mul_le_mul_right _ hhei
  have hpoint : 1 * msg.width.toNat + 0 < msg.points := point_lt hhei hwid
  have hread (position : ℕ) := (hkeeps _ (length_marked msg.data.length position)).fields
      (hmsg.withData (length_marked _ _)) |>.2.2 1 hhei 0 hwid field hfld
  have hins (position : ℕ) := inside_point
    (hmsg.withData (length_marked msg.data.length position)) hpoint field hfld
  simp only [Nat.one_mul, Nat.zero_mul, Nat.add_zero, length_marked] at hread hins
  by_cases hcol : field.isRgb ∨ field.isRgba
  · have hlit : msg.isBigendian = false := by
      cases hbig : msg.isBigendian with
      | false => rfl
      | true => exact absurd hcol (colors_of_keepsMeaning hmsg hkeeps hbig (by omega) hfld)
    have hfour := size_of_color hcol
    have hcode := hread (msg.rowStep.toNat + field.offset.toNat + 2)
    have hred := (red_of_color msg.isBigendian (marked msg.data.length
        (msg.rowStep.toNat + field.offset.toNat + 2))
      (msg.width.toNat * msg.pointStep.toNat + field.offset.toNat) hcol
      (by rw [length_marked]; exact hins 0)).1
    have hsrc := (red_of_color msg.isBigendian (marked msg.data.length
        (msg.rowStep.toNat + field.offset.toNat + 2))
      (msg.rowStep.toNat + field.offset.toNat) hcol (by rw [length_marked]; omega)).2
    rw [hcode, hsrc, hlit] at hred
    simp only [Bool.false_eq_true, if_false] at hred
    rw [getD_marked_self (by omega), getD_marked_of_ne (by omega)] at hred
    simp at hred
  · have hcode := hread (msg.rowStep.toNat + field.offset.toNat + field.size - 1)
    rw [readBack_repack (by rw [length_marked]; exact hins 0) (Or.inr hcol)] at hcode
    rw [not_or] at hcol
    simp only [PointFieldMsg.channels, hcol.1, hcol.2, Bool.false_eq_true, if_false,
      List.cons.injEq, Prod.mk.injEq, true_and, and_true] at hcode
    have hbyt {start : ℕ} (h : start + field.size ≤ msg.data.length) :
        (slice (marked msg.data.length
            (msg.rowStep.toNat + field.offset.toNat + field.size - 1)) start field.size).length =
          field.sdkType.byteWidth * field.count.toNat :=
      length_slice (by rw [length_marked]; exact h)
    have hzero := (fieldValue_eq_zero msg.isBigendian (hbyt (hins 0))).mpr
      (slice_marked_of_le (by omega))
    rw [hcode] at hzero
    have hall := (fieldValue_eq_zero _ (hbyt (by omega))).mp hzero
    have hone := hall 1 (mem_slice_marked (by omega) (by omega) (by omega))
    simp at hone

theorem plain_of_keepsMeaning : msg.Plain where
  step := ((hkeeps msg.data rfl).fields hmsg).1
  payload := ((hkeeps msg.data rfl).fields hmsg).2.1
  contiguous := by
    by_contra hpadded
    simp only [not_or, not_forall] at hpadded
    obtain ⟨hheight, hwidth, hrows, field, hfld, hsize⟩ := hpadded
    exact hrows (rows_of_keepsMeaning hmsg hkeeps (by omega) (by omega) hfld (by omega))
  colors := by
    cases hbig : msg.isBigendian with
    | false => exact Or.inl rfl
    | true =>
      rcases Nat.eq_zero_or_pos msg.points with hnone | hsome
      · exact Or.inr (Or.inl hnone)
      · exact Or.inr (Or.inr fun field hfld =>
          colors_of_keepsMeaning hmsg hkeeps hbig hsome hfld)

end Broken

/-- A well-formed message keeps its meaning exactly if its layout is plain. -/
theorem point_cloud_keeps_meaning_iff (ops : FloatOps F C) (peerId sensorId : String)
    (frameRateHz : UInt32) (sensorType : String) (frame : RegistryRef) (msg : PointCloud2Msg)
    (hmsg : msg.WellFormed) :
    (∀ data : List UInt8, data.length = msg.data.length →
      KeepsMeaning ops peerId sensorId frameRateHz sensorType frame { msg with data }) ↔
      msg.Plain :=
  ⟨plain_of_keepsMeaning hmsg, fun hplain _ hlength =>
    keepsMeaning_of_plain ops (hmsg.withData hlength)
      { hplain with } peerId sensorId frameRateHz
      sensorType frame⟩

def sampleOps : FloatOps ℕ ℕ := ⟨id, id⟩

def sampleFrame : RegistryRef := ⟨"test".toList, "test/cam_optical".toList, "fh".toList⟩

/-- One little-endian point at `(1, 2, 3)` with a packed color. -/
def colorCloud : PointCloud2Msg where
  stamp := ⟨1, 0⟩
  height := 1
  width := 1
  fields := [⟨"x", 0, 7, 1⟩, ⟨"y", 4, 7, 1⟩, ⟨"z", 8, 7, 1⟩, ⟨"rgb", 12, 7, 1⟩]
  isBigendian := false
  pointStep := 16
  rowStep := 16
  data := [0, 0, 0x80, 0x3F, 0, 0, 0, 0x40, 0, 0, 0x40, 0x40, 0xAA, 0xBB, 0xCC, 0]

theorem point_cloud_keeps_meaning_iff_sample : colorCloud.Plain ∧
      KeepsMeaning sampleOps "test" "test/cam" 30 "point_cloud" sampleFrame colorCloud := by
  have hmsg : colorCloud.WellFormed :=
    ⟨by decide, by decide, by decide, by decide, by decide, by decide, by decide⟩
  have hplain : colorCloud.Plain := ⟨by decide, by decide, Or.inl (by decide), Or.inl rfl⟩
  exact ⟨hplain, (point_cloud_keeps_meaning_iff sampleOps "test" "test/cam" 30 "point_cloud"
    sampleFrame colorCloud hmsg).mpr hplain colorCloud.data rfl⟩

/-- Two rows of one byte and one byte of padding. -/
def paddedCloud : PointCloud2Msg where
  stamp := ⟨1, 0⟩
  height := 2
  width := 1
  fields := [⟨"intensity", 0, 2, 1⟩]
  isBigendian := false
  pointStep := 1
  rowStep := 2
  data := [1, 0, 2, 0]

/-- One big-endian point of color `0x00CCBBAA`. -/
def bigEndianCloud : PointCloud2Msg where
  stamp := ⟨1, 0⟩
  height := 1
  width := 1
  fields := [⟨"rgb", 0, 7, 1⟩]
  isBigendian := true
  pointStep := 4
  rowStep := 4
  data := [0, 0xCC, 0xBB, 0xAA]

/-- The second row of a padded message and the color of a big-endian one are lost. -/
theorem point_cloud_loses_meaning : (paddedCloud.WellFormed ∧
      ¬ KeepsMeaning sampleOps "test" "test/cam" 30 "point_cloud" sampleFrame paddedCloud) ∧
    bigEndianCloud.WellFormed ∧
      ¬ KeepsMeaning sampleOps "test" "test/cam" 30 "point_cloud" sampleFrame bigEndianCloud := by
  have hpadded : paddedCloud.WellFormed :=
    ⟨by decide, by decide, by decide, by decide, by decide, by decide, by decide⟩
  have hbig : bigEndianCloud.WellFormed :=
    ⟨by decide, by decide, by decide, by decide, by decide, by decide, by decide⟩
  refine ⟨⟨hpadded, fun hkeeps => ?_⟩, hbig, fun hkeeps => ?_⟩
  · have hread := (hkeeps.fields hpadded).2.2 1 (by decide) 0 (by decide)
      ⟨"intensity", 0, 2, 1⟩ (mem_singleton.mpr rfl)
    exact absurd hread (by decide +kernel)
  · have hread := (hkeeps.fields hbig).2.2 0 (by decide) 0 (by decide)
      ⟨"rgb", 0, 7, 1⟩ (mem_singleton.mpr rfl)
    exact absurd hread (by decide +kernel)

end AukiSdk.Ros
