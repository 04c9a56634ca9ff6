import AukiSdk.Registry.EntryWrite

/-!
# The registry store

The calls that write to the registry directory.
-/

namespace AukiSdk.Registry

open AukiSdk.Foundation List

def maxBlobBytes : ℕ := 64 * 1024 * 1024

/-- `is_sha256_hex`: 64 lowercase hexadecimal digits. -/
def isSha256Hex (value : List Char) : Bool :=
  value.length = 64 && value.all fun char => char.isDigit || ('a' ≤ char && char ≤ 'f')

def blobPath (appRoot : Path) (sha256 : List Char) : Path :=
  (appRoot.join "blobs".toList).join sha256

structure RegistryRef where
  peerId : List Char
  id : List Char
  hash : List Char

/-- What the writers read of entries, and the SHA-256 of a blob. -/
structure StoreData (registries : Registries) where
  validateBody : (registries.type .sensor).Entry → Except Error Unit
  frameReference : (registries.type .sensor).Entry → Option RegistryRef
  blobs : (registries.type .deviceModel).Entry → List (List Char)
  sha256Hex : List UInt8 → List Char

section Calls

variable {registries : Registries} (data : StoreData registries)

variable (files : Files)

def getBlob (appRoot : Path) (sha256 : List Char) :
    Except Error (Option (List UInt8)) :=
  Checks.require (isSha256Hex sha256 = true)
      (.invalidBlob "sha256 must be 64 lowercase hex characters".toList) >>= fun _ =>
    readFile files (blobPath appRoot sha256) maxBlobBytes fun bytes =>
      if data.sha256Hex bytes = sha256 then .ok bytes else .error .blobHashMismatch

def putBlob (appRoot : Path) (bytes : List UInt8) :
    Except Error (Files × List Char) :=
  let sha256 := data.sha256Hex bytes
  let path := blobPath appRoot sha256
  if maxBlobBytes < bytes.length then
    .error (.invalidBlob ("blob exceeds MAX_BLOB_BYTES (".toList ++
      (toString maxBlobBytes).toList ++ ")".toList))
  else if (files path).isSome then
    match getBlob data files appRoot sha256 with
    | .error error => .error error
    | .ok (some _) => .ok (files, sha256)
    | .ok none => .ok (atomicWrite files path bytes, sha256)
  else
    .ok (atomicWrite files path bytes, sha256)

def validateSensorFrameReference (appRoot : Path) (entry : (registries.type .sensor).Entry) :
    Except Error Unit :=
  match data.frameReference entry with
  | none => .ok ()
  | some reference =>
    let missing : Except Error Unit :=
      .error (.frameReferenceMissing ((registries.type .sensor).id entry) reference.id
        reference.hash)
    if reference.id = [] ∨ reference.hash = [] then
      missing
    else
      match readFrame registries files appRoot reference.peerId reference.id reference.hash with
      | .error error => .error error
      | .ok none => missing
      | .ok (some _) => .ok ()

/-- `ensure_device_model_blobs`, blob by blob. -/
def ensureDeviceModelBlobs (files : Files) (appRoot : Path) :
    List (List Char) → Except Error Unit
  | [] => .ok ()
  | sha256 :: rest =>
    match getBlob data files appRoot sha256 with
    | .error error => .error error
    | .ok none =>
      .error (.invalidDeviceModel ("referenced blob ".toList ++ sha256 ++
        " not found".toList))
    | .ok (some _) => ensureDeviceModelBlobs files appRoot rest

variable (appRoot : Path)

/-- The checks of the writers, in the order they are made. -/
def StoreData.checks : WriteChecks registries where
  checkSensor files entry :=
    data.validateBody entry >>= fun _ => validateSensorFrameReference data files appRoot entry
  ensureBlobs files entry := ensureDeviceModelBlobs data files appRoot (data.blobs entry)

/-- A call that writes to the store. -/
inductive StoreCall (registries : Registries) where
  | write (kind : RegistryKind) (entry : (registries.type kind).Entry)
  | putBlob (bytes : List UInt8)

/-- The files after a call, and the hash it returns. -/
def StoreCall.perform (files : Files) :
    StoreCall registries → Except Error (Files × List Char)
  | .write kind entry =>
    (registries.write (data.checks appRoot) files appRoot kind entry).map fun result =>
      (result.1, result.2.hash)
  | .putBlob bytes => Registry.putBlob data files appRoot bytes

/-- A failed call leaves the files. -/
def storeStep (files : Files) (call : StoreCall registries) : Files :=
  match call.perform data appRoot files with
  | .ok result => result.1
  | .error _ => files

/-- The files after some calls from an empty root. -/
def storeRun (calls : List (StoreCall registries)) : Files :=
  calls.foldl (storeStep data appRoot) fun _ => none

end Calls

variable {sha256 : List Char}

theorem isDirectoryName_sha256 (hsha : isSha256Hex sha256 = true) : IsDirectoryName sha256 := by
  simp only [isSha256Hex, Bool.and_eq_true, decide_eq_true_eq, all_eq_true] at hsha
  constructor
  · intro hm
    have hdig := hsha.2 '/' hm
    revert hdig
    decide
  · by_contra hresv
    rw [Bool.not_eq_false] at hresv
    have hcas : sha256 = [] ∨ sha256 = ['.'] ∨ sha256 = ['.', '.'] := by
      simpa [isReservedSegment, or_assoc] using hresv
    have hlen := hsha.1
    rcases hcas with rfl | rfl | rfl
    all_goals
      revert hlen
      decide

theorem blobPath_eq (appRoot : Path) (hsha : isSha256Hex sha256 = true) :
    blobPath appRoot sha256 = appRoot ++ ["blobs".toList] ++ [sha256] := by
  have hblb : IsDirectoryName "blobs".toList := by decide
  rw [blobPath, Path.join_of_directoryName _ hblb,
    Path.join_of_directoryName _ (isDirectoryName_sha256 hsha)]

theorem blobPath_ne_concat (appRoot directory : Path) {name : List Char}
    (hsha : isSha256Hex sha256 = true) (char : Char) (hm : char ∈ name)
    (hchar : (char.isDigit || ('a' ≤ char && char ≤ 'f')) = false) :
    blobPath appRoot sha256 ≠ directory ++ [name] := by
  rw [blobPath_eq appRoot hsha]
  intro heq
  have hlast := (append_inj' heq rfl).2
  rw [List.cons.injEq] at hlast
  simp only [isSha256Hex, Bool.and_eq_true, all_eq_true] at hsha
  have hdig := hsha.2 char (hlast.1 ▸ hm)
  rw [hchar] at hdig
  cases hdig

theorem blobPath_ne_tipPath (appRoot path : Path) (hsha : isSha256Hex sha256 = true) :
    blobPath appRoot sha256 ≠ tipPath path :=
  blobPath_ne_concat appRoot path.dropLast hsha 'T' (by decide) (by decide)

theorem blobPath_ne_entryPath (appRoot appRoot' : Path) (hsha : isSha256Hex sha256 = true)
    (kind : RegistryKind) (peerId id : List Char) {hash : List Char}
    (hhash : isRegistryEntryHash hash = true) :
    blobPath appRoot sha256 ≠ entryPath kind appRoot' peerId id hash := by
  obtain ⟨directory, hpath⟩ := entryPath_eq_concat kind appRoot' peerId id hhash
  rw [hpath]
  exact blobPath_ne_concat appRoot directory hsha '.'
    (mem_append_right _ (by decide)) (by decide)

end AukiSdk.Registry
