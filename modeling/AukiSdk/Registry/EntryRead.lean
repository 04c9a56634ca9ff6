import AukiSdk.Foundation.Checks
import AukiSdk.Registry.Layout

/-!
# Reading registry entries

The six read functions. Only the device-model reader hashes the content again.
-/

namespace AukiSdk.Registry

open AukiSdk.Foundation

/-- The errors of the store that its calls tell apart. -/
inductive Error where
  | json (message : List Char)
  | idMismatch (expected found : List Char)
  | frameReferenceMissing (sensorId frameId frameHash : List Char)
  | blobHashMismatch
  | invalidMap (message : List Char)
  | invalidDeviceModel (message : List Char)
  | invalidBlob (message : List Char)

/-- What the store uses of one entry type. -/
structure EntryType where
  Entry : Type
  fromSlice : List UInt8 → Except (List Char) Entry
  canonicalBytes : Entry → List UInt8
  peerId : Entry → List Char
  id : Entry → List Char
  validate : Entry → Except Error Unit

/-- The entry types of the registries, and `auki_hash::hash_jcs_bytes`. -/
structure Registries where
  type : RegistryKind → EntryType
  hashJcsBytes : List UInt8 → List Char

/-- `hash` of an entry. -/
def Registries.hash (registries : Registries) {kind : RegistryKind}
    (entry : (registries.type kind).Entry) : List Char :=
  registries.hashJcsBytes ((registries.type kind).canonicalBytes entry)

/-- What opening a path finds. -/
abbrev Files := Path → Option (List UInt8)

def maxRegistryEntryBytes : ℕ := 64 * 1024

def maxDeviceModelEntryBytes : ℕ := 1024 * 1024

/-- The largest file a reader takes. -/
def RegistryKind.maxEntryBytes : RegistryKind → ℕ
  | .deviceModel => maxDeviceModelEntryBytes
  | _ => maxRegistryEntryBytes

def readAtCapped (files : Files) (path : Path) (max : ℕ) :
    Except Error (Option (List UInt8)) :=
  match files path with
  | none => .ok none
  | some bytes =>
    if max < bytes.length then
      .error (.invalidBlob ("on-disk file exceeds size cap (".toList ++
        (toString max).toList ++ " bytes)".toList))
    else
      .ok (some bytes)

def validateRegistryReadHash (hash : List Char) : Except Error Unit :=
  Checks.require (isRegistryEntryHash hash = true)
    (.invalidBlob "registry hash must be 32 lowercase hex characters".toList)

/-- The entry in a file, which must be of the requested peer and id. -/
def parseEntry (type : EntryType) (peerId id : List Char) (bytes : List UInt8) :
    Except Error type.Entry :=
  match type.fromSlice bytes with
  | .error message => .error (.json message)
  | .ok entry =>
    if type.peerId entry ≠ peerId then
      .error (.idMismatch peerId (type.peerId entry))
    else if type.id entry ≠ id then
      .error (.idMismatch id (type.id entry))
    else
      .ok entry

/-- A file that is there is parsed. -/
def readFile {A : Type} (files : Files) (path : Path) (max : ℕ)
    (parse : List UInt8 → Except Error A) : Except Error (Option A) :=
  match readAtCapped files path max with
  | .error error => .error error
  | .ok none => .ok none
  | .ok (some bytes) => (parse bytes).map some

/-- `read_sensor`, `read_clock`, `read_frame` and `read_detector`. -/
def readEntry (registries : Registries) (kind : RegistryKind) (files : Files) (appRoot : Path)
    (peerId id hash : List Char) : Except Error (Option (registries.type kind).Entry) :=
  validateRegistryReadHash hash >>= fun _ =>
    readFile files (entryPath kind appRoot peerId id hash) maxRegistryEntryBytes
      (parseEntry (registries.type kind) peerId id)

def readSensor (registries : Registries) := readEntry registries .sensor
def readClock (registries : Registries) := readEntry registries .clock
def readFrame (registries : Registries) := readEntry registries .frame
def readDetector (registries : Registries) := readEntry registries .detector

/-- `read_map`, which validates the entry as well. -/
def readMap (registries : Registries) (files : Files) (appRoot : Path)
    (peerId id hash : List Char) : Except Error (Option (registries.type .map).Entry) :=
  validateRegistryReadHash hash >>= fun _ =>
    readFile files (mapEntryPath appRoot peerId id hash) maxRegistryEntryBytes fun bytes =>
      Checks.checked (parseEntry (registries.type .map) peerId id bytes)
        (registries.type .map).validate

/-- `read_device_model`, which validates the entry and hashes it again. -/
def readDeviceModel (registries : Registries) (files : Files) (appRoot : Path)
    (peerId id hash : List Char) : Except Error (Option (registries.type .deviceModel).Entry) :=
  Checks.require (isRegistryEntryHash hash = true)
      (.invalidDeviceModel "hash must be 32 lowercase hex characters".toList) >>= fun _ =>
    readFile files (deviceModelEntryPath appRoot peerId id hash) maxDeviceModelEntryBytes
      fun bytes =>
        Checks.checked
          (Checks.checked (parseEntry (registries.type .deviceModel) peerId id bytes)
            (registries.type .deviceModel).validate)
          fun entry => Checks.require (registries.hash entry = hash)
            (.idMismatch hash (registries.hash entry))

/-- The reader of a registry. -/
def Registries.read (registries : Registries) (files : Files) (appRoot : Path)
    (kind : RegistryKind) (peerId id hash : List Char) :
    Except Error (Option (registries.type kind).Entry) :=
  match kind with
  | .sensor => readSensor registries files appRoot peerId id hash
  | .clock => readClock registries files appRoot peerId id hash
  | .frame => readFrame registries files appRoot peerId id hash
  | .detector => readDetector registries files appRoot peerId id hash
  | .map => readMap registries files appRoot peerId id hash
  | .deviceModel => readDeviceModel registries files appRoot peerId id hash

variable {files : Files}

theorem readFile_eq_some {A : Type} {path : Path} {max : ℕ} {parse : List UInt8 → Except Error A}
    {entry : A} :
    readFile files path max parse = .ok (some entry) ↔
      ∃ bytes, files path = some bytes ∧ bytes.length ≤ max ∧ parse bytes = .ok entry := by
  rw [readFile, readAtCapped]
  cases hfile : files path with
  | none => simp
  | some bytes =>
    by_cases hsize : max < bytes.length
    · simp [hsize]
    · simp [hsize, Checks.map_eq_ok, Nat.le_of_not_lt hsize]

variable {peerId id : List Char}

theorem parseEntry_eq_ok {type : EntryType} {bytes : List UInt8} {entry : type.Entry} :
    parseEntry type peerId id bytes = .ok entry ↔
      type.fromSlice bytes = .ok entry ∧ type.peerId entry = peerId ∧ type.id entry = id := by
  rw [parseEntry]
  cases hprs : type.fromSlice bytes with
  | error message => simp
  | ok found =>
    by_cases hpeer : type.peerId found = peerId
    · by_cases hid : type.id found = id
      · simp only [hpeer, hid, ne_eq, not_true_eq_false, if_false, Except.ok.injEq, iff_self_and]
        rintro rfl
        exact ⟨hpeer, hid⟩
      · simp only [hpeer, hid, ne_eq, not_true_eq_false, not_false_eq_true, if_false, if_true,
          reduceCtorEq, Except.ok.injEq, false_iff, not_and]
        rintro rfl _
        exact hid
    · simp only [hpeer, ne_eq, not_false_eq_true, if_true, reduceCtorEq, Except.ok.injEq,
        false_iff, not_and]
      rintro rfl hf
      exact absurd hf hpeer

/-- The checks a reader makes on the entry beyond its identity. -/
def Registries.Checked (registries : Registries) :
    (kind : RegistryKind) → (registries.type kind).Entry → List Char → Prop
  | .map, entry, _ => (registries.type .map).validate entry = .ok ()
  | .deviceModel, entry, hash =>
    (registries.type .deviceModel).validate entry = .ok () ∧ registries.hash entry = hash
  | _, _, _ => True

/-- The file at the path of a key holds an entry of that peer and id. -/
structure Registries.Holds (registries : Registries) (files : Files) (appRoot : Path)
    (kind : RegistryKind) (peerId id hash : List Char) (entry : (registries.type kind).Entry) :
    Prop where
  isHash : isRegistryEntryHash hash = true
  parsed : ∃ bytes, files (entryPath kind appRoot peerId id hash) = some bytes ∧
    bytes.length ≤ kind.maxEntryBytes ∧ (registries.type kind).fromSlice bytes = .ok entry
  peer : (registries.type kind).peerId entry = peerId
  identity : (registries.type kind).id entry = id
  checked : registries.Checked kind entry hash

variable {registries : Registries} {hash : List Char} {appRoot : Path}

theorem readEntry_eq_some {kind : RegistryKind} {entry : (registries.type kind).Entry} :
    readEntry registries kind files appRoot peerId id hash = .ok (some entry) ↔
      isRegistryEntryHash hash = true ∧
      ∃ bytes, files (entryPath kind appRoot peerId id hash) = some bytes ∧
        bytes.length ≤ maxRegistryEntryBytes ∧
        (registries.type kind).fromSlice bytes = .ok entry ∧
        (registries.type kind).peerId entry = peerId ∧ (registries.type kind).id entry = id := by
  rw [readEntry, validateRegistryReadHash, Checks.require_bind_eq_ok, readFile_eq_some]
  simp only [parseEntry_eq_ok]

theorem readMap_eq_some {entry : (registries.type .map).Entry} :
    readMap registries files appRoot peerId id hash = .ok (some entry) ↔
      isRegistryEntryHash hash = true ∧
      ∃ bytes, files (entryPath .map appRoot peerId id hash) = some bytes ∧
        bytes.length ≤ maxRegistryEntryBytes ∧
        ((registries.type .map).fromSlice bytes = .ok entry ∧
          (registries.type .map).peerId entry = peerId ∧
          (registries.type .map).id entry = id) ∧
        (registries.type .map).validate entry = .ok () := by
  rw [readMap, mapEntryPath, validateRegistryReadHash, Checks.require_bind_eq_ok, readFile_eq_some]
  simp only [Checks.checked_eq_ok, parseEntry_eq_ok]

theorem readDeviceModel_eq_some {entry : (registries.type .deviceModel).Entry} :
    readDeviceModel registries files appRoot peerId id hash = .ok (some entry) ↔
      isRegistryEntryHash hash = true ∧
      ∃ bytes, files (entryPath .deviceModel appRoot peerId id hash) = some bytes ∧
        bytes.length ≤ maxDeviceModelEntryBytes ∧
        (((registries.type .deviceModel).fromSlice bytes = .ok entry ∧
          (registries.type .deviceModel).peerId entry = peerId ∧
          (registries.type .deviceModel).id entry = id) ∧
          (registries.type .deviceModel).validate entry = .ok ()) ∧
        registries.hash entry = hash := by
  rw [readDeviceModel, deviceModelEntryPath, Checks.require_bind_eq_ok, readFile_eq_some]
  simp only [Checks.checked_eq_ok, parseEntry_eq_ok, Checks.require_eq_ok]

theorem Registries.read_eq_some {kind : RegistryKind} {entry : (registries.type kind).Entry} :
    registries.read files appRoot kind peerId id hash = .ok (some entry) ↔
      registries.Holds files appRoot kind peerId id hash entry := by
  have hpln : (isRegistryEntryHash hash = true ∧
      ∃ bytes, files (entryPath kind appRoot peerId id hash) = some bytes ∧
        bytes.length ≤ maxRegistryEntryBytes ∧
        (registries.type kind).fromSlice bytes = .ok entry ∧
        (registries.type kind).peerId entry = peerId ∧ (registries.type kind).id entry = id) →
      kind.maxEntryBytes = maxRegistryEntryBytes → registries.Checked kind entry hash →
      registries.Holds files appRoot kind peerId id hash entry := by
    rintro ⟨hhash, bytes, hfile, hsize, hprs, hpeer, hid⟩ hmax hchk
    exact ⟨hhash, ⟨bytes, hfile, hmax ▸ hsize, hprs⟩, hpeer, hid, hchk⟩
  constructor
  · intro hread
    cases kind with
    | sensor => exact hpln (readEntry_eq_some.mp hread) rfl trivial
    | clock => exact hpln (readEntry_eq_some.mp hread) rfl trivial
    | frame => exact hpln (readEntry_eq_some.mp hread) rfl trivial
    | detector => exact hpln (readEntry_eq_some.mp hread) rfl trivial
    | map =>
      obtain ⟨hhash, bytes, hfile, hsize, ⟨hprs, hpeer, hid⟩, hval⟩ := readMap_eq_some.mp hread
      exact ⟨hhash, ⟨bytes, hfile, hsize, hprs⟩, hpeer, hid, hval⟩
    | deviceModel =>
      obtain ⟨hhash, bytes, hfile, hsize, ⟨⟨hprs, hpeer, hid⟩, hval⟩, hcont⟩ :=
        readDeviceModel_eq_some.mp hread
      exact ⟨hhash, ⟨bytes, hfile, hsize, hprs⟩, hpeer, hid, hval, hcont⟩
  · rintro ⟨hhash, ⟨bytes, hfile, hsize, hprs⟩, hpeer, hid, hchk⟩
    cases kind with
    | sensor => exact readEntry_eq_some.mpr ⟨hhash, bytes, hfile, hsize, hprs, hpeer, hid⟩
    | clock => exact readEntry_eq_some.mpr ⟨hhash, bytes, hfile, hsize, hprs, hpeer, hid⟩
    | frame => exact readEntry_eq_some.mpr ⟨hhash, bytes, hfile, hsize, hprs, hpeer, hid⟩
    | detector => exact readEntry_eq_some.mpr ⟨hhash, bytes, hfile, hsize, hprs, hpeer, hid⟩
    | map =>
      exact readMap_eq_some.mpr ⟨hhash, bytes, hfile, hsize, ⟨hprs, hpeer, hid⟩, hchk⟩
    | deviceModel =>
      exact readDeviceModel_eq_some.mpr
        ⟨hhash, bytes, hfile, hsize, ⟨⟨hprs, hpeer, hid⟩, hchk.1⟩, hchk.2⟩

inductive Scope where
  | deviceLocal
  | domainLocal
  | global
  deriving DecidableEq

structure ClockMeta where
  unit : String
  monotonic : Bool
  epoch : Option String
  scope : Scope
  deriving DecidableEq

inductive ClockBody where
  | monotonicClock (meta' : ClockMeta)
  | utcClock (meta' : ClockMeta)
  deriving DecidableEq

structure ClockRegistryEntry where
  peerId : String
  sessionId : String
  clockId : String
  body : ClockBody
  deriving DecidableEq

/-- The example clock of the registry's tests. -/
def m1UtcEntry : ClockRegistryEntry :=
  ⟨"galbot", "sess-m1", "K1-AABBCCDDEEFF/utc",
    .utcClock ⟨"milliseconds", false, some "1970-01-01T00:00:00Z", .global⟩⟩

/-- Its canonical text, as the registry's tests lock it. -/
def m1UtcText : String :=
  "\x7b\"clock_id\":\"K1-AABBCCDDEEFF/utc\",\"epoch\":\"1970-01-01T00:00:00Z\"," ++
    "\"monotonic\":false,\"peer_id\":\"galbot\",\"scope\":\"global\"," ++
    "\"session_id\":\"sess-m1\",\"type\":\"utc_clock\",\"unit\":\"milliseconds\"\x7d"

/-- The bytes of the text, which is ASCII. -/
def m1UtcBytes : List UInt8 :=
  m1UtcText.toList.map fun char => char.toNat.toUInt8

/-- Its hash, as the registry's tests lock it. -/
def m1UtcHash : List Char := "79eb38239c937eaa63863d25f822947a".toList

/-- Readers that know one clock, its canonical bytes and its hash. -/
def clockRegistries (clock : ClockRegistryEntry) (bytes : List UInt8) (hash : List Char) :
    Registries where
  type _ :=
    { Entry := ClockRegistryEntry
      fromSlice := fun found =>
        if found = bytes then .ok clock else .error "expected value".toList
      canonicalBytes := fun entry => if entry = clock then bytes else []
      peerId := fun entry => entry.peerId.toList
      id := fun entry => entry.clockId.toList
      validate := fun _ => .ok () }
  hashJcsBytes found := if found = bytes then hash else List.replicate 32 '0'

end AukiSdk.Registry
