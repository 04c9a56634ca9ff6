import AukiSdk.Registry.EntryRead
import Mathlib.Logic.Function.Basic

/-!
# Writing registry entries

An entry is checked and hashed, and the file under its key is created or compared.
-/

namespace AukiSdk.Registry

open AukiSdk.Foundation Function

inductive WriteOutcome where
  | created (hash : List Char)
  | alreadyExists (hash : List Char)

def WriteOutcome.hash : WriteOutcome → List Char
  | .created hash => hash
  | .alreadyExists hash => hash

/-- The checks of the writers that read the files. -/
structure WriteChecks (registries : Registries) where
  checkSensor : Files → (registries.type .sensor).Entry → Except Error Unit
  ensureBlobs : Files → (registries.type .deviceModel).Entry → Except Error Unit

/-- `atomic_write` of one call at a time. -/
def atomicWrite (files : Files) (target : Path) (bytes : List UInt8) : Files :=
  Function.update files target (some bytes)

def Path.display : Path → List Char
  | ['/'] :: rest => '/' :: ['/'].intercalate rest
  | path => ['/'].intercalate path

def writeEntryAt (files : Files) (path : Path) (hash : List Char) (bytes : List UInt8) :
    Except Error (Files × WriteOutcome) :=
  match files path with
  | some onDisk =>
    if onDisk.length ≠ bytes.length then
      .error (.invalidBlob ("existing registry entry at ".toList ++ path.display ++
        " size ".toList ++ (toString onDisk.length).toList ++ " does not match canonical bytes (".toList ++
        (toString bytes.length).toList ++ ") for hash ".toList ++ hash))
    else if onDisk ≠ bytes then
      .error (.invalidBlob ("existing registry entry at ".toList ++ path.display ++
        " does not match canonical bytes for hash ".toList ++ hash))
    else
      .ok (files, .alreadyExists hash)
  | none => .ok (atomicWrite files path bytes, .created hash)

def validateRegistryEntrySize (bytes : List UInt8) : Except Error Unit :=
  Checks.require (bytes.length ≤ maxRegistryEntryBytes)
    (.invalidBlob ("registry entry exceeds size cap (".toList ++
      (toString maxRegistryEntryBytes).toList ++ " bytes)".toList))

/-- The common end of the write functions. -/
def storeEntry (registries : Registries) (kind : RegistryKind) (files : Files) (appRoot : Path)
    (entry : (registries.type kind).Entry) : Except Error (Files × WriteOutcome) :=
  writeEntryAt files
    (entryPath kind appRoot ((registries.type kind).peerId entry)
      ((registries.type kind).id entry) (registries.hash entry))
    (registries.hash entry) ((registries.type kind).canonicalBytes entry)

/-- `write_sensor` and its siblings, which differ in the checks made first. -/
def writeEntry (registries : Registries) (kind : RegistryKind)
    (check : (registries.type kind).Entry → Except Error Unit) (files : Files) (appRoot : Path)
    (entry : (registries.type kind).Entry) : Except Error (Files × WriteOutcome) :=
  check entry >>= fun _ =>
    validateRegistryEntrySize ((registries.type kind).canonicalBytes entry) >>= fun _ =>
      storeEntry registries kind files appRoot entry

def writeSensor (registries : Registries) (checks : WriteChecks registries) (files : Files) :=
  writeEntry registries .sensor (checks.checkSensor files) files

def writeClock (registries : Registries) := writeEntry registries .clock fun _ => .ok ()

def writeFrame (registries : Registries) :=
  writeEntry registries .frame (registries.type .frame).validate

def writeDetector (registries : Registries) := writeEntry registries .detector fun _ => .ok ()

def writeMap (registries : Registries) :=
  writeEntry registries .map (registries.type .map).validate

/-- The UTF-8 bytes of a text. -/
def utf8 (text : List Char) : List UInt8 :=
  text.flatMap String.utf8EncodeChar

/-- `DEVICE_MODEL_TIP_FILE` beside an entry. -/
def tipPath (path : Path) : Path :=
  path.dropLast ++ ["TIP".toList]

/-- `write_device_model`, with a larger cap and the tip of its directory. -/
def writeDeviceModel (registries : Registries) (checks : WriteChecks registries) (files : Files)
    (appRoot : Path) (entry : (registries.type .deviceModel).Entry) :
    Except Error (Files × WriteOutcome) :=
  (registries.type .deviceModel).validate entry >>= fun _ =>
    checks.ensureBlobs files entry >>= fun _ =>
      Checks.require
          (((registries.type .deviceModel).canonicalBytes entry).length ≤ maxDeviceModelEntryBytes)
          (.invalidDeviceModel ("entry exceeds size cap (".toList ++
            (toString maxDeviceModelEntryBytes).toList ++ " bytes)".toList)) >>= fun _ =>
        (storeEntry registries .deviceModel files appRoot entry).map fun stored =>
          (atomicWrite stored.1
            (tipPath (deviceModelEntryPath appRoot ((registries.type .deviceModel).peerId entry)
              ((registries.type .deviceModel).id entry) (registries.hash entry)))
            (utf8 (registries.hash entry)), stored.2)

/-- The writer of a registry. -/
def Registries.write (registries : Registries) (checks : WriteChecks registries) (files : Files)
    (appRoot : Path) (kind : RegistryKind) (entry : (registries.type kind).Entry) :
    Except Error (Files × WriteOutcome) :=
  match kind with
  | .sensor => writeSensor registries checks files appRoot entry
  | .clock => writeClock registries files appRoot entry
  | .frame => writeFrame registries files appRoot entry
  | .detector => writeDetector registries files appRoot entry
  | .map => writeMap registries files appRoot entry
  | .deviceModel => writeDeviceModel registries checks files appRoot entry

variable {hash : List Char} {result : Files × WriteOutcome} {files : Files}

theorem writeEntryAt_eq_ok {path : Path} {bytes : List UInt8}
    (hwrt : writeEntryAt files path hash bytes = .ok result) :
    (∀ found ∈ files path, found = bytes) ∧
      result.1 = Function.update files path (some bytes) ∧ result.2.hash = hash := by
  rw [writeEntryAt] at hwrt
  cases hfile : files path with
  | none =>
    simp only [hfile, Except.ok.injEq] at hwrt
    subst hwrt
    refine ⟨?_, rfl, rfl⟩
    rintro found ⟨⟩
  | some onDisk =>
    simp only [hfile] at hwrt
    split at hwrt
    · cases hwrt
    · split at hwrt
      · cases hwrt
      · rename_i _ hsm
        rw [ne_eq, not_not] at hsm
        cases hwrt
        refine ⟨?_, ?_, rfl⟩
        · rintro found ⟨⟩
          exact hsm
        rw [← hsm, ← hfile]
        exact (Function.update_eq_self path files).symm

theorem entryPath_eq_concat (kind : RegistryKind) (appRoot : Path) (peerId id : List Char)
    (hhash : isRegistryEntryHash hash = true) :
    ∃ directory, entryPath kind appRoot peerId id hash = directory ++ [hash ++ ".json".toList] :=
  ⟨_, Path.join_of_directoryName _ (isDirectoryName_hash hhash)⟩

theorem tipPath_ne_entryPath (kind : RegistryKind) (appRoot : Path) (peerId id : List Char)
    (hhash : isRegistryEntryHash hash = true) (path : Path) :
    tipPath path ≠ entryPath kind appRoot peerId id hash := by
  obtain ⟨directory, hpath⟩ := entryPath_eq_concat kind appRoot peerId id hhash
  rw [hpath, tipPath]
  intro heq
  have hlast := (List.append_inj' heq rfl).2
  rw [List.cons.injEq] at hlast
  have hlen := congrArg List.length hlast.1
  simp only [isRegistryEntryHash, Bool.and_eq_true, decide_eq_true_eq] at hhash
  rw [List.length_append, hhash.1] at hlen
  revert hlen
  decide

theorem bind_unit_eq_ok {A : Type} {check : Except Error Unit} {next : Except Error A}
    {result : A} :
    (check >>= fun _ => next) = .ok result ↔ check = .ok () ∧ next = .ok result := by
  rw [Checks.bind_eq_ok]
  constructor
  · rintro ⟨⟨⟩, hchk, hn⟩
    exact ⟨hchk, hn⟩
  · rintro ⟨hchk, hn⟩
    exact ⟨(), hchk, hn⟩

/-- What a successful write says of the entry and leaves in its file. -/
structure Registries.Stored (registries : Registries) (files : Files) (appRoot : Path)
    (kind : RegistryKind) (entry : (registries.type kind).Entry) (outcome : WriteOutcome) :
    Prop where
  file : files (entryPath kind appRoot ((registries.type kind).peerId entry)
    ((registries.type kind).id entry) (registries.hash entry)) =
      some ((registries.type kind).canonicalBytes entry)
  size : ((registries.type kind).canonicalBytes entry).length ≤ kind.maxEntryBytes
  outcome : outcome.hash = registries.hash entry

variable {registries : Registries} {appRoot : Path}

theorem writeEntry_stored {kind : RegistryKind}
    {check : (registries.type kind).Entry → Except Error Unit}
    {entry : (registries.type kind).Entry} (hmax : kind.maxEntryBytes = maxRegistryEntryBytes)
    (hwrt : writeEntry registries kind check files appRoot entry = .ok result) :
    registries.Stored result.1 appRoot kind entry result.2 ∧ check entry = .ok () := by
  rw [writeEntry, bind_unit_eq_ok, validateRegistryEntrySize, Checks.require_bind_eq_ok] at hwrt
  obtain ⟨hchk, hsize, hsto⟩ := hwrt
  obtain ⟨-, hfls, hout⟩ := writeEntryAt_eq_ok hsto
  refine ⟨⟨?_, hmax ▸ hsize, hout⟩, hchk⟩
  rw [hfls, update_self]

theorem writeDeviceModel_stored {checks : WriteChecks registries}
    (hhash : ∀ bytes, isRegistryEntryHash (registries.hashJcsBytes bytes) = true)
    {entry : (registries.type .deviceModel).Entry}
    (hwrt : writeDeviceModel registries checks files appRoot entry = .ok result) :
    registries.Stored result.1 appRoot .deviceModel entry result.2 ∧
      (registries.type .deviceModel).validate entry = .ok () := by
  rw [writeDeviceModel, bind_unit_eq_ok, bind_unit_eq_ok, Checks.require_bind_eq_ok,
    Checks.map_eq_ok] at hwrt
  obtain ⟨hval, -, hsize, stored, hsto, rfl⟩ := hwrt
  obtain ⟨-, hfls, hout⟩ := writeEntryAt_eq_ok hsto
  refine ⟨⟨?_, hsize, hout⟩, hval⟩
  have ho : entryPath .deviceModel appRoot ((registries.type .deviceModel).peerId entry)
      ((registries.type .deviceModel).id entry) (registries.hash entry) ≠ tipPath
        (deviceModelEntryPath appRoot ((registries.type .deviceModel).peerId entry)
          ((registries.type .deviceModel).id entry) (registries.hash entry)) :=
    (tipPath_ne_entryPath _ _ _ _ (hhash _) _).symm
  exact (update_of_ne ho _ _).trans (by rw [hfls, update_self])

/-- The validation of the kinds whose writers validate the entry. -/
def Registries.Validated (registries : Registries) :
    (kind : RegistryKind) → (registries.type kind).Entry → Prop
  | .frame, entry => (registries.type .frame).validate entry = .ok ()
  | .map, entry => (registries.type .map).validate entry = .ok ()
  | .deviceModel, entry => (registries.type .deviceModel).validate entry = .ok ()
  | _, _ => True

theorem Registries.write_stored {checks : WriteChecks registries}
    (hhash : ∀ bytes, isRegistryEntryHash (registries.hashJcsBytes bytes) = true)
    {kind : RegistryKind} {entry : (registries.type kind).Entry}
    (hwrt : registries.write checks files appRoot kind entry = .ok result) :
    registries.Stored result.1 appRoot kind entry result.2 ∧ registries.Validated kind entry := by
  cases kind with
  | sensor => exact ⟨(writeEntry_stored rfl hwrt).1, trivial⟩
  | clock =>
    have hent : writeEntry registries .clock (fun _ => .ok ()) files appRoot entry =
      .ok result := hwrt
    exact ⟨(writeEntry_stored rfl hent).1, trivial⟩
  | frame => exact writeEntry_stored rfl hwrt
  | detector =>
    have hent : writeEntry registries .detector (fun _ => .ok ()) files appRoot entry =
      .ok result := hwrt
    exact ⟨(writeEntry_stored rfl hent).1, trivial⟩
  | map => exact writeEntry_stored rfl hwrt
  | deviceModel => exact writeDeviceModel_stored hhash hwrt

end AukiSdk.Registry
