import AukiSdk.Foundation.Framing
import AukiSdk.Registry.Store

/-!
# Point clouds of ROS

A `PointCloud2` message becomes a registry entry and a log payload.
-/

namespace AukiSdk.Ros

open AukiSdk.Foundation AukiSdk.Registry
open Framing (leValue)

structure StampMsg where
  sec : Int32
  nanosec : UInt32

structure PointFieldMsg where
  name : String
  offset : UInt32
  datatype : UInt8
  count : UInt32

/-- `PointCloud2Msg`; `is_dense` is not read. -/
structure PointCloud2Msg where
  stamp : StampMsg
  height : UInt32
  width : UInt32
  fields : List PointFieldMsg
  isBigendian : Bool
  pointStep : UInt32
  rowStep : UInt32
  data : List UInt8

inductive PointFieldDataType where
  | int8 | uint8 | int16 | uint16 | int32 | uint32 | float32 | float64
  deriving DecidableEq

def PointFieldDataType.byteWidth : PointFieldDataType → ℕ
  | .int8 | .uint8 => 1
  | .int16 | .uint16 => 2
  | .int32 | .uint32 | .float32 => 4
  | .float64 => 8

structure PointField where
  name : String
  offset : ℕ
  datatype : PointFieldDataType
  count : ℕ
  deriving DecidableEq

structure Rangefinder where
  type : String
  fields : List PointField
  pointStep : ℕ
  isBigendian : Bool
  frameRateHz : UInt32
  frame : RegistryRef

/-- `SensorRegistryEntry` with a `Rangefinder` body. -/
structure SensorRegistryEntry where
  peerId : String
  sensorId : String
  body : Rangefinder

/-- `u32` arithmetic. -/
def u32 (value : ℕ) : Option ℕ := if value < 2 ^ 32 then some value else none

def rosDatatypeToSdk (datatype : UInt8) : Option PointFieldDataType :=
  match datatype with
  | 1 => some .int8
  | 2 => some .uint8
  | 3 => some .int16
  | 4 => some .uint16
  | 5 => some .int32
  | 6 => some .uint32
  | 7 => some .float32
  | 8 => some .float64
  | _ => none

inductive NormalizationPlan where
  | passThrough (srcOffset dstOffset size : ℕ)
  | expandRgb (srcOffset dstOffset : ℕ)
  | expandRgba (srcOffset dstOffset : ℕ)

structure Normalized where
  fields : List PointField
  pointStep : ℕ
  plans : List NormalizationPlan

/-- The expanded channels of a packed color, at successive offsets. -/
def colorChannels : List String → ℕ → List PointField
  | [], _ => []
  | name :: names, offset => ⟨name, offset, .uint8, 1⟩ :: colorChannels names (offset + 1)

variable (field : PointFieldMsg)

def PointFieldMsg.isRgb : Bool :=
  field.name = "rgb" ∧ field.datatype = 7 ∧ field.count = 1

def PointFieldMsg.isRgba : Bool :=
  field.name = "rgba" ∧ field.datatype = 7 ∧ field.count = 1

/-- One turn of the loop of `normalize_layout`. -/
def normalizeField (done : Normalized) (field : PointFieldMsg) : Option Normalized :=
  if field.isRgb then do
    let pointStep ← u32 (done.pointStep + 3)
    return {
      fields := done.fields ++ colorChannels ["r", "g", "b"] done.pointStep
      plans := done.plans ++ [.expandRgb field.offset.toNat done.pointStep]
      pointStep }
  else if field.isRgba then do
    let pointStep ← u32 (done.pointStep + 4)
    return {
      fields := done.fields ++ colorChannels ["r", "g", "b", "a"] done.pointStep
      plans := done.plans ++ [.expandRgba field.offset.toNat done.pointStep]
      pointStep }
  else do
    let datatype ← rosDatatypeToSdk field.datatype
    let size ← u32 (datatype.byteWidth * field.count.toNat)
    let pointStep ← u32 (done.pointStep + size)
    return {
      fields := done.fields ++ [⟨field.name, done.pointStep, datatype, field.count.toNat⟩]
      plans := done.plans ++ [.passThrough field.offset.toNat done.pointStep size]
      pointStep }

def normalizeLayout (fields : List PointFieldMsg) : Option Normalized :=
  fields.foldlM normalizeField ⟨[], 0, []⟩

/-- `vec![0u8; count]`, which holds at most `isize::MAX` bytes. -/
def zeroed (count : ℕ) : Option (List UInt8) :=
  if count < 2 ^ 63 then some (List.replicate count 0) else none

/-- `out[at..at + count].copy_from_slice(&source[from..from + count])`. -/
def copySlice (out : List UInt8) (position : ℕ) (source : List UInt8) (start count : ℕ) :
    Option (List UInt8) :=
  if position + count ≤ out.length ∧ start + count ≤ source.length then
    some (out.take position ++ (source.drop start).take count ++ out.drop (position + count))
  else none

/-- `out[at] = source[from]`. -/
def copyByte (out : List UInt8) (position : ℕ) (source : List UInt8) (start : ℕ) :
    Option (List UInt8) :=
  copySlice out position source start 1

def applyPlan (source : List UInt8) (srcBase dstBase : ℕ) (out : List UInt8) :
    NormalizationPlan → Option (List UInt8)
  | .passThrough srcOffset dstOffset size =>
    copySlice out (dstBase + dstOffset) source (srcBase + srcOffset) size
  | .expandRgb srcOffset dstOffset => do
      let out ← copyByte out (dstBase + dstOffset) source (srcBase + srcOffset + 2)
      let out ← copyByte out (dstBase + dstOffset + 1) source (srcBase + srcOffset + 1)
      copyByte out (dstBase + dstOffset + 2) source (srcBase + srcOffset)
  | .expandRgba srcOffset dstOffset => do
      let out ← copyByte out (dstBase + dstOffset) source (srcBase + srcOffset + 2)
      let out ← copyByte out (dstBase + dstOffset + 1) source (srcBase + srcOffset + 1)
      let out ← copyByte out (dstBase + dstOffset + 2) source (srcBase + srcOffset)
      copyByte out (dstBase + dstOffset + 3) source (srcBase + srcOffset + 3)

def applyNormalization (plans : List NormalizationPlan) (srcData : List UInt8)
    (srcPointStep numPoints dstPointStep : ℕ) : Option (List UInt8) := do
  let out ← zeroed (numPoints * dstPointStep)
  (List.range numPoints).foldlM
    (fun out point =>
      plans.foldlM (applyPlan srcData (point * srcPointStep) (point * dstPointStep)) out) out

def buildPointCloudRegistryEntry (peerId sensorId : String) (msg : PointCloud2Msg)
    (frameRateHz : UInt32) (sensorType : String) (frame : RegistryRef) :
    Option SensorRegistryEntry := do
  let normalized ← normalizeLayout msg.fields
  return ⟨peerId, sensorId, sensorType, normalized.fields, normalized.pointStep, msg.isBigendian,
    frameRateHz, frame⟩

/-- `stamp_to_ns`; neither step leaves the range of `i64`. -/
def stampToNs (stamp : StampMsg) : ℤ := stamp.sec.toInt * 1000000000 + stamp.nanosec.toNat

def buildPointCloudLogEntry (msg : PointCloud2Msg) : Option (ℤ × List UInt8) := do
  let normalized ← normalizeLayout msg.fields
  -- `saturating_mul` of two `usize`
  let numPoints := min (msg.width.toNat * msg.height.toNat) (2 ^ 64 - 1)
  let data ← applyNormalization normalized.plans msg.data msg.pointStep.toNat numPoints
    normalized.pointStep
  return (stampToNs msg.stamp, data)

/-- The word that bytes hold in one of the two orders. -/
def word (bigendian : Bool) (bytes : List UInt8) : ℕ :=
  leValue (if bigendian then bytes.reverse else bytes)

inductive VoxelizerError where
  | missingCoordinate (name : String)
  | unsupportedCoordinateLayout
  | unsupportedColorLayout
  | truncatedPoint
  deriving DecidableEq

/-- `f32::from_bits(bits) as f64` and `srgb_to_linear(byte / 255)`. -/
structure FloatOps (F C : Type) where
  coordinate : ℕ → F
  linear : ℕ → C

structure DecodedPoint (F C : Type) where
  position : F × F × F
  linearRgb : Option (C × C × C)

variable {F C : Type}

def Rangefinder.find (layout : Rangefinder) (name : String) : Option PointField :=
  layout.fields.find? fun field => field.name = name

/-- `point.get(start..start + 4)`. -/
def fourBytes (point : List UInt8) (start : ℕ) : Except VoxelizerError (List UInt8) :=
  if start + 4 ≤ point.length then .ok ((point.drop start).take 4) else .error .truncatedPoint

variable (ops : FloatOps F C)

def readCoordinate (layout : Rangefinder) (field : PointField) (point : List UInt8) :
    Except VoxelizerError F :=
  if field.datatype ≠ .float32 ∨ field.count ≠ 1 then .error .unsupportedCoordinateLayout
  else do
    let bytes ← fourBytes point field.offset
    return ops.coordinate (word layout.isBigendian bytes)

/-- How the colors of a layout are read. -/
inductive ColorSource where
  | separate (red green blue : PointField)
  | packed (field : PointField)
  | absent

def PointField.isChannel (field : PointField) : Bool := field.datatype = .uint8 ∧ field.count = 1

variable (layout : Rangefinder)

/-- `separate`. -/
def separateChannels :
    Except VoxelizerError (Option (PointField × PointField × PointField)) :=
  match layout.find "r", layout.find "g", layout.find "b" with
  | none, none, none => .ok none
  | some red, some green, some blue =>
    if red.isChannel ∧ green.isChannel ∧ blue.isChannel then .ok (some (red, green, blue))
    else .error .unsupportedColorLayout
  | _, _, _ => .error .unsupportedColorLayout

/-- `packed`. -/
def packedField : Except VoxelizerError (Option PointField) :=
  match layout.find "rgb" with
  | none => .ok none
  | some field =>
    if field.datatype ≠ .float32 ∨ field.count ≠ 1 then .error .unsupportedColorLayout
    else .ok (some field)

def colorSource : Except VoxelizerError ColorSource := do
  let separate ← separateChannels layout
  let packed ← packedField layout
  return match separate, packed with
    | some (red, green, blue), _ => .separate red green blue
    | none, some field => .packed field
    | none, none => .absent

def readChannel (point : List UInt8) (field : PointField) : Except VoxelizerError ℕ :=
  match point[field.offset]? with
  | some byte => .ok byte.toNat
  | none => .error .truncatedPoint

def readColor (layout : Rangefinder) (point : List UInt8) :
    ColorSource → Except VoxelizerError (Option (C × C × C))
  | .separate red green blue => do
      let red ← readChannel point red
      let green ← readChannel point green
      let blue ← readChannel point blue
      return some (ops.linear red, ops.linear green, ops.linear blue)
  | .packed field => do
      let bytes ← fourBytes point field.offset
      let bits := word layout.isBigendian bytes
      return some (ops.linear (bits / 2 ^ 16 % 256), ops.linear (bits / 2 ^ 8 % 256),
        ops.linear (bits % 256))
  | .absent => .ok none

/-- The closure that decodes one point. -/
def decodePoint (layout : Rangefinder) (x y z : PointField) (colors : ColorSource)
    (point : List UInt8) :
    Except VoxelizerError (DecodedPoint F C) := do
  let px ← readCoordinate ops layout x point
  let py ← readCoordinate ops layout y point
  let pz ← readCoordinate ops layout z point
  let linearRgb ← readColor ops layout point colors
  return ⟨(px, py, pz), linearRgb⟩

def findCoordinate (name : String) : Except VoxelizerError PointField :=
  match layout.find name with
  | some field => .ok field
  | none => .error (.missingCoordinate name)

def decodeXyzRgb (data : List UInt8) (layout : Rangefinder) :
    Except VoxelizerError (List (DecodedPoint F C)) := do
  let x ← findCoordinate layout "x"
  let y ← findCoordinate layout "y"
  let z ← findCoordinate layout "z"
  let colors ← colorSource layout
  if layout.pointStep = 0 ∨ data.length % layout.pointStep ≠ 0 then throw .truncatedPoint
  -- `chunks_exact`
  (List.range (data.length / layout.pointStep)).mapM fun point =>
    decodePoint ops layout x y z colors
      ((data.drop (point * layout.pointStep)).take layout.pointStep)

/-- The elements of one field at one point, as words of its datatype. -/
structure FieldValue where
  datatype : PointFieldDataType
  elements : List ℕ
  deriving DecidableEq

/-- The value of `count` elements in bytes. -/
def fieldValue (bigendian : Bool) (datatype : PointFieldDataType) (count : ℕ)
    (bytes : List UInt8) : FieldValue where
  datatype := datatype
  elements := (List.range count).map fun index =>
    word bigendian ((bytes.drop (index * datatype.byteWidth)).take datatype.byteWidth)

def slice (data : List UInt8) (start count : ℕ) : List UInt8 := (data.drop start).take count

/-- A field of a payload's point, read by its layout. -/
def Rangefinder.read (data : List UInt8) (point : ℕ) (field : PointField) :
    FieldValue :=
  fieldValue layout.isBigendian field.datatype field.count
    (slice data (point * layout.pointStep + field.offset) (field.datatype.byteWidth * field.count))

/-- All fields of a payload's point. -/
def Rangefinder.channels (data : List UInt8) (point : ℕ) :
    List (String × FieldValue) :=
  layout.fields.map fun field => (field.name, layout.read data point field)

/-- The SDK's datatype of a field of known datatype. -/
def PointFieldMsg.sdkType : PointFieldDataType :=
  (rosDatatypeToSdk field.datatype).getD .uint8

/-- The bytes of a field in a message. -/
def PointFieldMsg.size : ℕ :=
  field.sdkType.byteWidth * field.count.toNat

/-- The channels of a packed color: bytes of `0xAARRGGBB`. -/
def packedChannels (names : List String) (bits : ℕ) : List (String × FieldValue) :=
  (names.zip [bits / 2 ^ 16 % 256, bits / 2 ^ 8 % 256, bits % 256, bits / 2 ^ 24 % 256]).map
    fun channel => (channel.1, ⟨.uint8, [channel.2]⟩)

/-- What a field says in its bytes. -/
def PointFieldMsg.channels (bigendian : Bool) (bytes : List UInt8) :
    List (String × FieldValue) :=
  if field.isRgb then packedChannels ["r", "g", "b"] (word bigendian bytes)
  else if field.isRgba then packedChannels ["r", "g", "b", "a"] (word bigendian bytes)
  else [(field.name, fieldValue bigendian field.sdkType field.count.toNat bytes)]

/-- What a message says about the point of a row and a column. -/
def PointCloud2Msg.channels (msg : PointCloud2Msg) (row column : ℕ) :
    List (String × FieldValue) :=
  msg.fields.flatMap fun field => field.channels msg.isBigendian
    (slice msg.data (row * msg.rowStep.toNat + column * msg.pointStep.toNat + field.offset.toNat)
      field.size)

end AukiSdk.Ros
