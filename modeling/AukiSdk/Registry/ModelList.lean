import AukiSdk.Foundation.Text
import AukiSdk.Registry.StoreRun

/-!
# Listing device models

`list_device_models`: one row for each model of a peer.
-/

namespace AukiSdk.Registry

open AukiSdk.Foundation List

structure DeviceModelListEntry where
  id : List Char
  hash : List Char
  deriving DecidableEq

inductive DeviceModelTipSource where
  | tip
  | mtime (modified : ℕ)
  deriving DecidableEq

/-- A row of the `tips` map, under the id of its entry. -/
structure TipRow where
  source : DeviceModelTipSource
  entry : DeviceModelListEntry
  deriving DecidableEq

/-- A directory entry, and what reading it as a directory finds. -/
structure ModelDirectory where
  name : List Char
  isDir : Bool
  files : Option (List (List Char × ℕ))

/-- `Error::RegistryListLimit`. -/
inductive ListError where
  | registryListLimit
  deriving DecidableEq

def maxDeviceModelTipBytes : ℕ := 64

def maxDeviceModelListVisits : ℕ := 512

def maxDeviceModelListBytes : ℕ := 64 * 1024

def deviceModelsPeerDir (appRoot : Path) (peerId : List Char) : Path :=
  ((registriesRoot appRoot).join RegistryKind.deviceModel.directory).join (idToSegment peerId)

/-- `Path::file_stem` of a file name. -/
def fileStem (name : List Char) : List Char :=
  match name.reverse.dropWhile (· ≠ '.') with
  | [] => name
  | _ :: rest => if rest = [] then name else rest.reverse

/-- `Path::extension` of a file name. -/
def fileExtension (name : List Char) : Option (List Char) :=
  match name.reverse.dropWhile (· ≠ '.') with
  | [] => none
  | _ :: rest => if rest = [] then none else some (name.reverse.takeWhile (· ≠ '.')).reverse

/-- `str::trim`. -/
def trimText (text : List Char) : List Char :=
  ((text.dropWhile isWhitespace).reverse.dropWhile isWhitespace).reverse

/-- `consume_device_model_list_visit`. -/
def consumeVisit (visits : ℕ) : Except ListError ℕ :=
  if maxDeviceModelListVisits < visits + 1 then .error .registryListLimit else .ok (visits + 1)

def blobExists (files : Files) (appRoot : Path) (sha256 : List Char) : Except Error Bool :=
  if isSha256Hex sha256 = true then
    match files (blobPath appRoot sha256) with
    | none => .ok false
    | some bytes =>
      if maxBlobBytes < bytes.length then
        .error (.invalidBlob ("on-disk blob exceeds MAX_BLOB_BYTES (".toList ++
          (toString maxBlobBytes).toList ++ ")".toList))
      else
        .ok true
  else
    .error (.invalidBlob "sha256 must be 64 lowercase hex characters".toList)

def deviceModelBlobsPresent (files : Files) (appRoot : Path) :
    List (List Char) → ℕ → Except ListError (Bool × ℕ)
  | [], visits => .ok (true, visits)
  | sha256 :: rest, visits =>
    match consumeVisit visits with
    | .error error => .error error
    | .ok visits =>
      match blobExists files appRoot sha256 with
      | .ok true => deviceModelBlobsPresent files appRoot rest visits
      -- Missing, oversized and malformed.
      | .ok false => .ok (false, visits)
      | .error _ => .ok (false, visits)

section Listing

variable {registries : Registries} (data : StoreData registries)

def loadDeviceModelListCandidate (files : Files) (appRoot path : Path) (peerId : List Char)
    (visits : ℕ) : Except ListError (Option DeviceModelListEntry × ℕ) :=
  match consumeVisit visits with
  | .error error => .error error
  | .ok visits =>
    match readAtCapped files path maxDeviceModelEntryBytes with
    | .error _ => .ok (none, visits)
    | .ok none => .ok (none, visits)
    | .ok (some bytes) =>
      match (registries.type .deviceModel).fromSlice bytes with
      | .error _ => .ok (none, visits)
      | .ok entry =>
        if (registries.type .deviceModel).peerId entry ≠ peerId then
          .ok (none, visits)
        else
          match (registries.type .deviceModel).validate entry with
          | .error _ => .ok (none, visits)
          | .ok () =>
            if path.dropLast.getLast?.getD [] ≠
                idToSegment ((registries.type .deviceModel).id entry) then
              .ok (none, visits)
            else if fileStem (path.getLast?.getD []) ≠ registries.hash entry then
              .ok (none, visits)
            else
              match deviceModelBlobsPresent files appRoot (data.blobs entry) visits with
              | .error error => .error error
              | .ok (false, visits) => .ok (none, visits)
              | .ok (true, visits) =>
                .ok (some ⟨(registries.type .deviceModel).id entry,
                  registries.hash entry⟩, visits)

def readDeviceModelTip (files : Files) (appRoot modelDir : Path) (peerId : List Char)
    (visits : ℕ) : Except ListError (Option DeviceModelListEntry × ℕ) :=
  match consumeVisit visits with
  | .error error => .error error
  | .ok visits =>
    match readAtCapped files (modelDir.join "TIP".toList) maxDeviceModelTipBytes with
    | .error _ => .ok (none, visits)
    | .ok none => .ok (none, visits)
    | .ok (some raw) =>
      match Text.fromUtf8 raw with
      | none => .ok (none, visits)
      | some text =>
        if isRegistryEntryHash (trimText text) = true then
          loadDeviceModelListCandidate data files appRoot
            (modelDir.join (trimText text ++ ".json".toList)) peerId visits
        else
          .ok (none, visits)

/-- The rows found so far, the bytes they retain and the visits made. -/
structure ModelListing where
  rows : List TipRow
  retainedBytes : ℕ
  visits : ℕ

/-- `device_model_list_entry_bytes`. -/
def listEntryBytes (entry : DeviceModelListEntry) : ℕ :=
  (utf8 entry.id).length + (utf8 entry.hash).length + 32

/-- Whether a candidate replaces the row of its id. -/
def replacesRow (candidate : TipRow) : Option TipRow → Bool
  | none => true
  | some existing =>
    match candidate.source, existing.source with
    | .tip, _ => true
    | .mtime _, .tip => false
    | .mtime modified, .mtime found =>
      decide (found < modified) ||
        (decide (modified = found) && decide (existing.entry.hash < candidate.entry.hash))

def retainDeviceModelListEntry (listing : ModelListing) (candidate : TipRow) :
    Except ListError ModelListing :=
  let previous := listing.rows.find? (·.entry.id = candidate.entry.id)
  if replacesRow candidate previous then
    let previousBytes := (previous.map fun row => listEntryBytes row.entry).getD 0
    let nextBytes := listing.retainedBytes - previousBytes + listEntryBytes candidate.entry
    if maxDeviceModelListBytes < nextBytes then
      .error .registryListLimit
    else
      .ok ⟨listing.rows.filter (·.entry.id ≠ candidate.entry.id) ++ [candidate], nextBytes,
        listing.visits⟩
  else
    .ok listing

/-- The files of a directory without a tip. -/
def listModelFiles (files : Files) (appRoot modelDir : Path) (peerId : List Char) :
    List (List Char × ℕ) → ModelListing → Except ListError ModelListing
  | [], listing => .ok listing
  | (name, modified) :: rest, listing =>
    match consumeVisit listing.visits with
    | .error error => .error error
    | .ok visits =>
      if fileExtension name ≠ some "json".toList then
        listModelFiles files appRoot modelDir peerId rest { listing with visits := visits }
      else
        match loadDeviceModelListCandidate data files appRoot (modelDir.join name) peerId
          visits with
        | .error error => .error error
        | .ok (none, visits) =>
          listModelFiles files appRoot modelDir peerId rest
            { listing with visits := visits }
        | .ok (some candidate, visits) =>
          match consumeVisit visits with
          | .error error => .error error
          | .ok visits =>
            match retainDeviceModelListEntry { listing with visits := visits }
              ⟨.mtime modified, candidate⟩ with
            | .error error => .error error
            | .ok listing => listModelFiles files appRoot modelDir peerId rest listing

/-- One entry of the peer's directory. -/
def listModelDirectory (files : Files) (appRoot : Path) (peerId : List Char)
    (listing : ModelListing) (directory : ModelDirectory) : Except ListError ModelListing :=
  match consumeVisit listing.visits with
  | .error error => .error error
  | .ok visits =>
    if directory.isDir = false then
      .ok { listing with visits := visits }
    else
      let modelDir := (deviceModelsPeerDir appRoot peerId).join directory.name
      match readDeviceModelTip data files appRoot modelDir peerId visits with
      | .error error => .error error
      | .ok (some tip, visits) =>
        retainDeviceModelListEntry { listing with visits := visits } ⟨.tip, tip⟩
      | .ok (none, visits) =>
        match consumeVisit visits with
        | .error error => .error error
        | .ok visits =>
          match directory.files with
          | none => .ok { listing with visits := visits }
          | some names =>
            listModelFiles data files appRoot modelDir peerId names
              { listing with visits := visits }

/-- `list_device_models`, for what reading the peer's directory finds. -/
def listDeviceModels (files : Files) (appRoot : Path) (peerId : List Char)
    (directories : Option (List ModelDirectory)) : Except ListError (List DeviceModelListEntry) :=
  match directories with
  | none => .ok []
  | some directories =>
    (directories.foldlM (listModelDirectory data files appRoot peerId) ⟨[], 0, 0⟩).map
      fun listing => (listing.rows.map TipRow.entry).mergeSort fun left right =>
        decide (left.id < right.id ∨ left.id = right.id ∧ left.hash ≤ right.hash)

variable {data} {files : Files} {appRoot : Path} {peerId : List Char}

variable {visits : ℕ}

theorem id_of_loadCandidate {path : Path} {later : ℕ} {candidate : DeviceModelListEntry}
    (hload : loadDeviceModelListCandidate data files appRoot path peerId visits =
      .ok (some candidate, later)) :
    path.dropLast.getLast?.getD [] = idToSegment candidate.id := by
  simp only [loadDeviceModelListCandidate] at hload
  split at hload
  · cases hload
  split at hload
  · cases hload
  · cases hload
  split at hload
  · cases hload
  split at hload
  · cases hload
  split at hload
  · cases hload
  split at hload
  · cases hload
  rename_i hdirectory
  rw [ne_eq, not_not] at hdirectory
  split at hload
  · cases hload
  split at hload
  · cases hload
  · cases hload
  · cases hload
    exact hdirectory

variable {hash : List Char} {bytes : List UInt8} {directory : Path}

theorem blobsPresent_of_forall {blobs : List (List Char)}
    (hblb : ∀ sha256 ∈ blobs, blobExists files appRoot sha256 = .ok true) {result : Bool × ℕ}
    (hpre : deviceModelBlobsPresent files appRoot blobs visits = .ok result) :
    result.1 = true := by
  induction blobs generalizing visits with
  | nil =>
    cases hpre
    rfl
  | cons sha256 rest ih =>
    simp only [deviceModelBlobsPresent, hblb sha256 mem_cons_self] at hpre
    split at hpre
    · cases hpre
    · exact ih (fun other ho => hblb other (mem_cons_of_mem _ ho)) hpre

theorem blobExists_of_getBlob {sha256 : List Char}
    (hblob : getBlob data files appRoot sha256 = .ok (some bytes)) :
    blobExists files appRoot sha256 = .ok true := by
  obtain ⟨hsha, hfile, hsize, -⟩ := getBlob_eq_some.mp hblob
  simp only [blobExists, hsha, if_true, hfile, if_neg (not_lt.mpr hsize)]

theorem hash_char (hhash : isRegistryEntryHash hash = true) {char : Char} (hchar : char ∈ hash) :
    isWhitespace char = false ∧ char.val ≤ 127 := by
  simp only [isRegistryEntryHash, Bool.and_eq_true, all_eq_true] at hhash
  have hval : (48 ≤ char.val.toNat ∧ char.val.toNat ≤ 57) ∨
      (97 ≤ char.val.toNat ∧ char.val.toNat ≤ 102) := by
    simpa [Char.isDigit, Char.le_def, UInt32.le_iff_toNat_le] using hhash.2 char hchar
  constructor
  · simp only [isWhitespace, Bool.or_eq_false_iff, Bool.and_eq_false_iff, decide_eq_false_iff_not,
      UInt32.le_iff_toNat_le, ← UInt32.toNat_inj, UInt32.reduceToNat]
    omega
  · rw [UInt32.le_iff_toNat_le]
    simp only [UInt32.reduceToNat]
    omega

theorem length_utf8_hash (hhash : isRegistryEntryHash hash = true) : (utf8 hash).length = 32 := by
  have hsiz : ∀ text : List Char, (∀ char ∈ text, char.val ≤ 127) →
      (utf8 text).length = text.length := by
    intro text htext
    induction text with
    | nil => rfl
    | cons char rest ih =>
      have hone : (String.utf8EncodeChar char).length = 1 := by
        rw [String.length_utf8EncodeChar]
        exact Char.utf8Size_eq_one_iff.mpr (htext char mem_cons_self)
      rw [utf8, flatMap_cons, length_append, hone, ← utf8,
        ih fun other ho => htext other (mem_cons_of_mem _ ho), length_cons,
        Nat.add_comm]
  rw [hsiz hash fun char hchar => (hash_char hhash hchar).2]
  simp only [isRegistryEntryHash, Bool.and_eq_true, decide_eq_true_eq] at hhash
  exact hhash.1

theorem trimText_hash (hhash : isRegistryEntryHash hash = true) : trimText hash = hash := by
  have hkept : ∀ text : List Char, (∀ char ∈ text, isWhitespace char = false) →
      text.dropWhile isWhitespace = text := by
    intro text htext
    cases text with
    | nil => rfl
    | cons char rest =>
      rw [dropWhile_cons_of_neg]
      rw [htext char mem_cons_self]
      exact Bool.false_ne_true
  have hpln : ∀ char ∈ hash, isWhitespace char = false :=
    fun char hchar => (hash_char hhash hchar).1
  rw [trimText, hkept hash hpln, hkept, reverse_reverse]
  intro char hchar
  exact hpln char (mem_reverse.mp hchar)

theorem fileStem_hash (hhash : isRegistryEntryHash hash = true) :
    fileStem (hash ++ ".json".toList) = hash := by
  have hrev : (hash ++ ".json".toList).reverse.dropWhile (· ≠ '.') = '.' :: hash.reverse := by
    rw [reverse_append]
    rfl
  have hne : hash.reverse ≠ [] := by
    intro hnil
    rw [reverse_eq_nil_iff] at hnil
    subst hnil
    cases hhash
  rw [fileStem, hrev]
  simp only [if_neg hne, reverse_reverse]

section Stored

variable {found : (registries.type .deviceModel).Entry}
  (hfile : files (directory ++ [hash ++ ".json".toList]) = some bytes)
  (hsize : bytes.length ≤ maxDeviceModelEntryBytes)
  (hparse : (registries.type .deviceModel).fromSlice bytes = .ok found)
  (hpeer : (registries.type .deviceModel).peerId found = peerId)
  (hvalid : (registries.type .deviceModel).validate found = .ok ())
  (hdirectory : directory.getLast?.getD [] = idToSegment ((registries.type .deviceModel).id found))
  (hhash : registries.hash found = hash)

include hfile hsize hparse hpeer hvalid hdirectory hhash

theorem loadCandidate_of_file (hstem : fileStem (hash ++ ".json".toList) = hash)
    (hblb : ∀ visits result, deviceModelBlobsPresent files appRoot (data.blobs found) visits =
      .ok result → result.1 = true) {result : Option DeviceModelListEntry × ℕ}
    (hload : loadDeviceModelListCandidate data files appRoot
      (directory ++ [hash ++ ".json".toList]) peerId visits = .ok result) :
    result.1 = some ⟨(registries.type .deviceModel).id found, hash⟩ := by
  have hread : readAtCapped files (directory ++ [hash ++ ".json".toList])
      maxDeviceModelEntryBytes = .ok (some bytes) := by
    simp only [readAtCapped, hfile, if_neg (not_lt.mpr hsize)]
  simp only [loadDeviceModelListCandidate, hread, hparse, hpeer, hvalid, ne_eq,
    not_true_eq_false, if_false, dropLast_concat, hdirectory, getLast?_concat,
    Option.getD_some, hstem, hhash] at hload
  split at hload
  · cases hload
  split at hload
  · cases hload
  · rename_i hpresent
    cases hblb _ _ hpresent
  · cases hload
    rfl

theorem readTip_of_file (hisH : isRegistryEntryHash hash = true)
    (htip : files (directory ++ ["TIP".toList]) = some (utf8 hash))
    (hblb : ∀ sha256 ∈ data.blobs found, blobExists files appRoot sha256 = .ok true)
    {result : Option DeviceModelListEntry × ℕ}
    (hread : readDeviceModelTip data files appRoot directory peerId visits = .ok result) :
    result.1 = some ⟨(registries.type .deviceModel).id found, hash⟩ := by
  have htpN : IsDirectoryName "TIP".toList := by decide
  have hlen : (utf8 hash).length ≤ maxDeviceModelTipBytes := by
    rw [length_utf8_hash hisH]
    decide
  have hraw : readAtCapped files (directory ++ ["TIP".toList]) maxDeviceModelTipBytes =
      .ok (some (utf8 hash)) := by
    simp only [readAtCapped, htip, if_neg (not_lt.mpr hlen)]
  have htext : Text.fromUtf8 (utf8 hash) = some hash := Text.fromUtf8_utf8 hash
  simp only [readDeviceModelTip, Path.join_of_directoryName _ htpN, hraw, htext,
    trimText_hash hisH, hisH, if_true,
    Path.join_of_directoryName _ (isDirectoryName_hash hisH)] at hread
  split at hread
  · cases hread
  · exact loadCandidate_of_file hfile hsize hparse hpeer hvalid hdirectory hhash
      (fileStem_hash hisH) (fun _ _ hpre => blobsPresent_of_forall hblb hpre) hread

end Stored

/-- What `fs::read_dir` says of a directory: names of one component. -/
def ModelDirectory.Named (directory : ModelDirectory) : Prop :=
  IsDirectoryName directory.name ∧
    ∀ names ∈ directory.files, ∀ file ∈ names, IsDirectoryName file.1

/-- The only row of an id is its tip. -/
def TipOnly (rows : List TipRow) (entry : DeviceModelListEntry) : Prop :=
  ∀ row ∈ rows, row.entry.id = entry.id → row = ⟨.tip, entry⟩

variable {later : ModelListing} {entry : DeviceModelListEntry} {listing : ModelListing}

theorem retain_tipOnly {candidate : TipRow}
    (hret : retainDeviceModelListEntry listing candidate = .ok later)
    (hcand : candidate.entry.id = entry.id → candidate = ⟨.tip, entry⟩)
    (honly : TipOnly listing.rows entry) :
    TipOnly later.rows entry ∧ (⟨.tip, entry⟩ ∈ listing.rows ∨ candidate = ⟨.tip, entry⟩ →
        ⟨.tip, entry⟩ ∈ later.rows) := by
  simp only [retainDeviceModelListEntry] at hret
  split at hret
  · split at hret
    · cases hret
    · cases hret
      constructor
      · intro row hrow hid
        rcases mem_append.mp hrow with hrow | hrow
        · exact honly row (mem_filter.mp hrow).1 hid
        · rw [mem_singleton] at hrow
          subst hrow
          exact hcand hid
      · rintro (hm | hsm)
        · by_cases hid : candidate.entry.id = entry.id
          · exact mem_append_right _ (mem_singleton.mpr (hcand hid).symm)
          · exact mem_append_left _ (mem_filter.mpr ⟨hm, by simpa using Ne.symm hid⟩)
        · exact mem_append_right _ (mem_singleton.mpr hsm.symm)
  · rename_i hkept
    cases hret
    refine ⟨honly, ?_⟩
    rintro (hm | rfl)
    · exact hm
    · -- A tip replaces whatever is there.
      rw [Bool.not_eq_true] at hkept
      unfold replacesRow at hkept
      split at hkept
      · cases hkept
      · cases hkept

theorem listModelFiles_tipOnly {name : List Char} (ho : name ≠ idToSegment entry.id)
    {names : List (List Char × ℕ)} (hnms : ∀ file ∈ names, IsDirectoryName file.1)
    (hlist : listModelFiles data files appRoot (directory ++ [name]) peerId names listing =
      .ok later) (honly : TipOnly listing.rows entry) :
    TipOnly later.rows entry ∧ (⟨.tip, entry⟩ ∈ listing.rows → ⟨.tip, entry⟩ ∈ later.rows) := by
  induction names generalizing listing with
  | nil =>
    cases hlist
    exact ⟨honly, id⟩
  | cons file rest ih =>
    obtain ⟨fileName, modified⟩ := file
    have hrest := fun other hm => hnms other (mem_cons_of_mem _ hm)
    have hjoin : (directory ++ [name]).join fileName = directory ++ [name] ++ [fileName] :=
      Path.join_of_directoryName _ (hnms _ mem_cons_self)
    simp only [listModelFiles] at hlist
    split at hlist
    · cases hlist
    split at hlist
    · have hn := ih hrest hlist honly
      exact hn
    split at hlist
    · cases hlist
    · have hn := ih hrest hlist honly
      exact hn
    · rename_i candidate _ hload
      split at hlist
      · cases hlist
      split at hlist
      · cases hlist
      · rename_i retained hretain
        rw [hjoin] at hload
        have hid := id_of_loadCandidate hload
        rw [dropLast_concat, getLast?_concat, Option.getD_some] at hid
        obtain ⟨hkept, hm⟩ := retain_tipOnly hretain
          (fun hsm => absurd (hid.trans (congrArg idToSegment hsm)) ho) honly
        obtain ⟨hlat, hltr⟩ := ih hrest hlist hkept
        exact ⟨hlat, fun hold => hltr (hm (Or.inl hold))⟩

theorem id_of_readTip {name : List Char} {later : ℕ} {tip : DeviceModelListEntry}
    (hread : readDeviceModelTip data files appRoot (directory ++ [name]) peerId visits =
      .ok (some tip, later)) : name = idToSegment tip.id := by
  simp only [readDeviceModelTip] at hread
  split at hread
  · cases hread
  split at hread
  · cases hread
  · cases hread
  split at hread
  · cases hread
  split at hread
  · rename_i hhash
    have hid := id_of_loadCandidate hread
    rwa [Path.join_of_directoryName _ (isDirectoryName_hash hhash), dropLast_concat,
      getLast?_concat, Option.getD_some] at hid
  · cases hread

theorem listModelDirectory_tipOnly (htip : ∀ visits result, readDeviceModelTip data files appRoot
      (deviceModelsPeerDir appRoot peerId ++ [idToSegment entry.id]) peerId visits =
        .ok result → result.1 = some entry) {directory : ModelDirectory} (hnam : directory.Named)
    (hlist : listModelDirectory data files appRoot peerId listing directory = .ok later)
    (honly : TipOnly listing.rows entry) :
    TipOnly later.rows entry ∧ (⟨.tip, entry⟩ ∈ listing.rows ∨
          (directory.name = idToSegment entry.id ∧ directory.isDir = true) →
        ⟨.tip, entry⟩ ∈ later.rows) := by
  have hjoin : (deviceModelsPeerDir appRoot peerId).join directory.name =
      deviceModelsPeerDir appRoot peerId ++ [directory.name] :=
    Path.join_of_directoryName _ hnam.1
  simp only [listModelDirectory, hjoin] at hlist
  split at hlist
  · cases hlist
  split at hlist
  · rename_i hfile
    cases hlist
    refine ⟨honly, ?_⟩
    rintro (hm | ⟨-, hdir⟩)
    · exact hm
    · rw [hfile] at hdir
      cases hdir
  by_cases hown : directory.name = idToSegment entry.id
  · rw [hown] at hlist
    split at hlist
    · cases hlist
    · rename_i tip visits hread
      have hsm := htip _ _ hread
      simp only [Option.some.injEq] at hsm
      subst hsm
      obtain ⟨hkept, hm⟩ := retain_tipOnly hlist (fun _ => rfl) honly
      exact ⟨hkept, fun _ => hm (Or.inr rfl)⟩
    · rename_i hread
      cases htip _ _ hread
  · split at hlist
    · cases hlist
    · rename_i tip visits hread
      have hid := id_of_readTip hread
      obtain ⟨hkept, hm⟩ := retain_tipOnly hlist
        (fun hsm => absurd (hid.trans (congrArg idToSegment hsm)) hown) honly
      exact ⟨hkept, fun hold => hm (hold.imp_right fun hdir => absurd hdir.1 hown)⟩
    · split at hlist
      · cases hlist
      split at hlist
      · cases hlist
        exact ⟨honly, fun hold => hold.resolve_right fun hdir => hown hdir.1⟩
      · rename_i names hfls
        obtain ⟨hkept, hm⟩ := listModelFiles_tipOnly hown (hnam.2 names hfls) hlist honly
        exact ⟨hkept, fun hold => hm (hold.resolve_right fun hdir => hown hdir.1)⟩

theorem listDeviceModels_tip (htip : ∀ visits result, readDeviceModelTip data files appRoot
      (deviceModelsPeerDir appRoot peerId ++ [idToSegment entry.id]) peerId visits =
        .ok result → result.1 = some entry) {directories : List ModelDirectory}
    (hnam : ∀ directory ∈ directories, directory.Named)
    (hthe : ∃ directory ∈ directories, directory.name = idToSegment entry.id ∧
      directory.isDir = true) {rows : List DeviceModelListEntry}
    (hlist : listDeviceModels data files appRoot peerId (some directories) = .ok rows) :
    entry ∈ rows ∧ ∀ row ∈ rows, row.id = entry.id → row = entry := by
  have hfold : ∀ (listing later : ModelListing) (rest : List ModelDirectory),
      (∀ directory ∈ rest, directory.Named) →
      rest.foldlM (listModelDirectory data files appRoot peerId) listing = .ok later →
      TipOnly listing.rows entry →
      TipOnly later.rows entry ∧ (⟨.tip, entry⟩ ∈ listing.rows ∨ (∃ directory ∈ rest,
            directory.name = idToSegment entry.id ∧ directory.isDir = true) →
          ⟨.tip, entry⟩ ∈ later.rows) := by
    intro listing later rest
    induction rest generalizing listing with
    | nil =>
      intro _ hrun honly
      cases hrun
      refine ⟨honly, ?_⟩
      rintro (hm | ⟨directory, hm, -⟩)
      · exact hm
      · cases hm
    | cons directory rest ih =>
      intro hrest hrun honly
      rw [foldlM_cons, Checks.bind_eq_ok] at hrun
      obtain ⟨next, hn, hrun⟩ := hrun
      obtain ⟨hkept, hm⟩ := listModelDirectory_tipOnly htip (hrest directory mem_cons_self) hn honly
      obtain ⟨hlat, hltr⟩ := ih next
        (fun other ho => hrest other (mem_cons_of_mem _ ho)) hrun hkept
      refine ⟨hlat, ?_⟩
      rintro (hold | ⟨found, hf, hdir⟩)
      · exact hltr (Or.inl (hm (Or.inl hold)))
      · rcases mem_cons.mp hf with rfl | hf
        · exact hltr (Or.inl (hm (Or.inr hdir)))
        · exact hltr (Or.inr ⟨found, hf, hdir⟩)
  rw [listDeviceModels, Checks.map_eq_ok] at hlist
  obtain ⟨listing, hrun, rfl⟩ := hlist
  obtain ⟨honly, hm⟩ := hfold ⟨[], 0, 0⟩ listing directories hnam hrun
    fun row hrow => absurd hrow not_mem_nil
  constructor
  · rw [mem_mergeSort]
    exact mem_map.mpr ⟨_, hm (Or.inr hthe), rfl⟩
  · intro row hrow hid
    rw [mem_mergeSort] at hrow
    obtain ⟨found, hf, rfl⟩ := mem_map.mp hrow
    rw [honly found hf hid]

end Listing

end AukiSdk.Registry
