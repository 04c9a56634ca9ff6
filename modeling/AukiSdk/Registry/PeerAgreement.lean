import AukiSdk.Registry.PeerRegistries

/-!
# Memory and directory agree

Over every orderly run memory holds what was last written, and so does the directory.
-/

namespace AukiSdk.Registry

open AukiSdk.Foundation List Function

variable {registries : Registries} {peerId : List Char} {data : StoreData registries}
  {appRoot : Path}

section Registers

variable {call : RegisterCall registries peerId} {kind : RegistryKind} {id : List Char}
  {entry : (registries.type kind).Entry}

theorem RegisterCall.Registers.key (hregs : call.Registers kind id entry) :
    call.kind = kind ∧ call.id = id := by
  cases hregs
  exact ⟨rfl, rfl⟩

theorem RegisterCall.Registers.unique {other : (registries.type kind).Entry}
    (hregs : call.Registers kind id entry) (ho : call.Registers kind id other) :
    entry = other := by
  obtain ⟨kind', entry', package, owned, not_clock, packaged⟩ := call
  cases hregs
  cases ho
  rfl

end Registers

variable {result : Files × WriteOutcome}

theorem writeEntry_files {kind : RegistryKind}
    (check : (registries.type kind).Entry → Except Error Unit) {files : Files}
    {entry : (registries.type kind).Entry}
    (hwrt : writeEntry registries kind check files appRoot entry = .ok result) :
    result.1 = Function.update files (registries.path appRoot kind entry)
      (some ((registries.type kind).canonicalBytes entry)) := by
  rw [writeEntry, bind_unit_eq_ok, validateRegistryEntrySize, Checks.require_bind_eq_ok] at hwrt
  exact (writeEntryAt_eq_ok hwrt.2.2).2.1

theorem Registries.write_tip {checks : WriteChecks registries}
    (hhash : ∀ bytes, isRegistryEntryHash (registries.hashJcsBytes bytes) = true) {files : Files}
    {kind : RegistryKind} {entry : (registries.type kind).Entry}
    (hwrt : registries.write checks files appRoot kind entry = .ok result)
    (hkind : kind ≠ .deviceModel) (path : Path) :
    result.1 (tipPath path) = files (tipPath path) := by
  have hfls : result.1 = Function.update files (registries.path appRoot kind entry)
      (some ((registries.type kind).canonicalBytes entry)) := by
    cases kind with
    | sensor => exact writeEntry_files _ hwrt
    | clock => exact writeEntry_files (fun _ => .ok ()) hwrt
    | frame => exact writeEntry_files _ hwrt
    | detector => exact writeEntry_files (fun _ => .ok ()) hwrt
    | map => exact writeEntry_files _ hwrt
    | deviceModel => exact absurd rfl hkind
  rw [hfls]
  exact update_of_ne (tipPath_ne_entryPath _ _ _ _ (hhash _) path) _ _

/-- A written device model is the tip of its directory, with its blobs. -/
theorem writeDeviceModel_tip {checks : WriteChecks registries}
    (hhash : ∀ bytes, isRegistryEntryHash (registries.hashJcsBytes bytes) = true) {files : Files}
    {entry : (registries.type .deviceModel).Entry}
    (hwrt : writeDeviceModel registries checks files appRoot entry = .ok result) :
    checks.ensureBlobs files entry = .ok () ∧ ∀ path, result.1 (tipPath path) =
        if tipPath path = tipPath (registries.path appRoot .deviceModel entry) then
          some (utf8 (registries.hash entry))
        else
          files (tipPath path) := by
  rw [writeDeviceModel, bind_unit_eq_ok, bind_unit_eq_ok, Checks.require_bind_eq_ok,
    Checks.map_eq_ok] at hwrt
  obtain ⟨-, hblb, -, stored, hsto, rfl⟩ := hwrt
  obtain ⟨-, hfls, -⟩ := writeEntryAt_eq_ok hsto
  refine ⟨hblb, fun path => ?_⟩
  have hent : tipPath path ≠ registries.path appRoot .deviceModel entry :=
    tipPath_ne_entryPath _ _ _ _ (hhash _) path
  show Function.update stored.1 (tipPath (registries.path appRoot .deviceModel entry)) _
    (tipPath path) = _
  rw [Function.update_apply, hfls]
  by_cases hown : tipPath path = tipPath (registries.path appRoot .deviceModel entry)
  · rw [if_pos hown, if_pos hown]
  · rw [if_neg hown, if_neg hown]
    exact update_of_ne hent _ _

theorem ensureDeviceModelBlobs_eq_ok {files : Files} {blobs : List (List Char)}
    (hblb : ensureDeviceModelBlobs data files appRoot blobs = .ok ()) :
    ∀ sha256 ∈ blobs, ∃ bytes, getBlob data files appRoot sha256 = .ok (some bytes) := by
  induction blobs with
  | nil => exact fun sha256 hm => absurd hm not_mem_nil
  | cons sha256 rest ih =>
    rw [ensureDeviceModelBlobs] at hblb
    split at hblb
    · cases hblb
    · cases hblb
    · rename_i bytes hf
      intro other ho
      rcases mem_cons.mp ho with rfl | ho
      · exact ⟨bytes, hf⟩
      · exact ih hblb other ho

theorem deviceModel_paths (appRoot : Path) (peerId : List Char) {id hash : List Char}
    (hid : validateRegistryId id = .ok ()) (hhash : isRegistryEntryHash hash = true) :
    entryPath .deviceModel appRoot peerId id hash =
        deviceModelsPeerDir appRoot peerId ++ [idToSegment id] ++ [hash ++ ".json".toList] ∧
      tipPath (entryPath .deviceModel appRoot peerId id hash) =
        deviceModelsPeerDir appRoot peerId ++ [idToSegment id] ++ ["TIP".toList] := by
  have hpath : entryPath .deviceModel appRoot peerId id hash =
      deviceModelsPeerDir appRoot peerId ++ [idToSegment id] ++ [hash ++ ".json".toList] := by
    rw [entryPath, Path.join_of_directoryName _ (isDirectoryName_hash hhash),
      Path.join_of_directoryName _ (isDirectoryName_idToSegment hid)]
    rfl
  refine ⟨hpath, ?_⟩
  rw [hpath, tipPath, dropLast_concat]

/-- Files other than tips are kept. -/
def Keeps (files later : Files) : Prop :=
  ∀ path bytes, (∀ other, path ≠ tipPath other) → files path = some bytes →
    later path = some bytes

/-- What the write of a call has left, and keeps. -/
structure RegisterCall.Kept (data : StoreData registries) (appRoot : Path)
    (call : RegisterCall registries peerId) (files : Files) : Prop where
  file : files (registries.path appRoot call.kind call.entry) =
    some ((registries.type call.kind).canonicalBytes call.entry)
  size : ((registries.type call.kind).canonicalBytes call.entry).length ≤ call.kind.maxEntryBytes
  validated : registries.Validated call.kind call.entry
  validId : validateRegistryId call.id = .ok ()
  readsBack : call.ReadsBack data
  blobs : ∀ id entry, call.Registers .deviceModel id entry →
    ∀ sha256 ∈ data.blobs entry, ∃ bytes, getBlob data files appRoot sha256 = .ok (some bytes)

section Kept

variable (hhash : ∀ bytes, isRegistryEntryHash (registries.hashJcsBytes bytes) = true)
  {call : RegisterCall registries peerId} {files later : Files}

include hhash

theorem RegisterCall.Kept.mono (hkept : call.Kept data appRoot files)
    (hkps : Keeps files later) : call.Kept data appRoot later where
  file := hkps _ _ (fun other => (tipPath_ne_entryPath _ _ _ _ (hhash _) other).symm) hkept.file
  __ := hkept
  blobs := by
    intro id entry hregs sha256 hm
    obtain ⟨bytes, hblob⟩ := hkept.blobs id entry hregs sha256 hm
    obtain ⟨hsha, hfile, hsize, hdig⟩ := getBlob_eq_some.mp hblob
    exact ⟨bytes, getBlob_eq_some.mpr ⟨hsha,
      hkps _ _ (fun other => blobPath_ne_tipPath appRoot other hsha) hfile, hsize, hdig⟩⟩

theorem RegisterCall.Kept.read (hkept : call.Kept data appRoot files) :
    ∃ found, registries.read files appRoot call.kind call.reference.peerId call.reference.id
        call.reference.hash = .ok (some found) ∧
      (registries.type call.kind).canonicalBytes found =
        (registries.type call.kind).canonicalBytes call.entry := by
  obtain ⟨found, hrds, -⟩ := hkept.readsBack
  have hst : registries.Stored files appRoot call.kind call.entry
      (.created (registries.hash call.entry)) := ⟨hkept.file, hkept.size, rfl⟩
  refine ⟨found, ?_, hrds.2.1⟩
  have hread := hst.read hhash hkept.validated hrds
  rw [call.owned] at hread
  exact hread

theorem RegisterCall.Kept.listed (hkept : call.Kept data appRoot files) {id : List Char}
    {entry : (registries.type .deviceModel).Entry}
    (hregs : call.Registers .deviceModel id entry)
    (htip : files (deviceModelsPeerDir appRoot peerId ++ [idToSegment id] ++ ["TIP".toList]) =
      some (utf8 (registries.hash entry)))
    {directories : List ModelDirectory} (hnam : ∀ directory ∈ directories, directory.Named)
    (hthe : ∃ directory ∈ directories, directory.name = idToSegment id ∧ directory.isDir = true)
    {rows : List DeviceModelListEntry}
    (hlist : listDeviceModels data files appRoot peerId (some directories) = .ok rows) :
    ⟨id, registries.hash entry⟩ ∈ rows ∧
      ∀ row ∈ rows, row.id = id → row = ⟨id, registries.hash entry⟩ := by
  have hblb := hkept.blobs id entry hregs
  obtain ⟨kind', entry', package, owned, not_clock, packaged⟩ := call
  cases hregs
  obtain ⟨found, hrds, hsm⟩ := hkept.readsBack
  have hfile := hkept.file
  have hisH : isRegistryEntryHash (registries.hash entry') = true := hhash _
  have hpat := deviceModel_paths appRoot peerId hkept.validId hisH
  simp only [RegisterCall.id, Registries.path, owned] at hfile hpat htip ⊢
  rw [hpat.1] at hfile
  have hid : (registries.type .deviceModel).id found =
      (registries.type .deviceModel).id entry' := hrds.2.2.2.1
  apply listDeviceModels_tip _ hnam hthe hlist
  intro visits result hread
  have htpR := readTip_of_file hfile hkept.size hrds.1
    (hrds.2.2.1.trans owned) (hrds.2.2.2.2 hkept.validated)
    (by rw [getLast?_concat, Option.getD_some, hid]) hrds.hash_eq hisH htip
    (fun sha256 hm => by
      have hsame' : data.blobs found = data.blobs entry' := hsm
      obtain ⟨bytes, hblob⟩ := hblb sha256 (hsame' ▸ hm)
      exact blobExists_of_getBlob hblob) hread
  rw [htpR, hid]

end Kept

end AukiSdk.Registry
