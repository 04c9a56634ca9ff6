import AukiSdk.Registry.Serving
import AukiSdk.Registry.Store

/-!
# Runs of the registry store

Files are never overwritten with other bytes, so what was written stays readable.
-/

namespace AukiSdk.Registry

open AukiSdk.Foundation List Function

variable {registries : Registries} {appRoot : Path}

variable {files files' : Files}

theorem readFile_congr {A : Type} {path : Path} (hfile : files path = files' path) (max : ℕ)
    (parse : List UInt8 → Except Error A) :
    readFile files path max parse = readFile files' path max parse := by
  rw [readFile, readFile, readAtCapped, readAtCapped, hfile]

theorem require_bind_congr {A : Type} {condition : Prop} [Decidable condition] {error : Error}
    {next next' : Except Error A} (hn : condition → next = next') :
    (Checks.require condition error >>= fun _ => next) =
      Checks.require condition error >>= fun _ => next' := by
  by_cases hcon : condition
  · rw [hn hcon]
  · rw [Checks.require, if_neg hcon]
    rfl

variable {peerId : List Char} {kind : RegistryKind} {id hash : List Char}

theorem Registries.read_congr (hfile : isRegistryEntryHash hash = true →
      files (entryPath kind appRoot peerId id hash) =
        files' (entryPath kind appRoot peerId id hash)) :
    registries.read files appRoot kind peerId id hash =
      registries.read files' appRoot kind peerId id hash := by
  have hread : ∀ {A : Type} (max : ℕ) (parse : List UInt8 → Except Error A) (error : Error),
      (Checks.require (isRegistryEntryHash hash = true) error >>= fun _ =>
        readFile files (entryPath kind appRoot peerId id hash) max parse) =
      Checks.require (isRegistryEntryHash hash = true) error >>= fun _ =>
        readFile files' (entryPath kind appRoot peerId id hash) max parse :=
    fun max parse error => require_bind_congr fun hhash => readFile_congr (hfile hhash) max parse
  cases kind <;> exact hread _ _ _

variable {sha256 : List Char}

theorem getBlob_congr {data : StoreData registries} (hfile : isSha256Hex sha256 = true →
      files (blobPath appRoot sha256) = files' (blobPath appRoot sha256)) :
    getBlob data files appRoot sha256 = getBlob data files' appRoot sha256 :=
  require_bind_congr fun hsha => readFile_congr (hfile hsha) _ _

variable {bytes : List UInt8}

theorem getBlob_eq_some {data : StoreData registries} :
    getBlob data files appRoot sha256 = .ok (some bytes) ↔
      isSha256Hex sha256 = true ∧ files (blobPath appRoot sha256) = some bytes ∧
        bytes.length ≤ maxBlobBytes ∧ data.sha256Hex bytes = sha256 := by
  rw [getBlob, Checks.require_bind_eq_ok, readFile_eq_some]
  constructor
  · rintro ⟨hsha, found, hfile, hsize, hchk⟩
    split at hchk
    · cases hchk
      exact ⟨hsha, hfile, hsize, ‹_›⟩
    · cases hchk
  · rintro ⟨hsha, hfile, hsize, hdig⟩
    exact ⟨hsha, bytes, hfile, hsize, if_pos hdig⟩

/-- The path under which an entry is stored. -/
def Registries.path (registries : Registries) (appRoot : Path) (kind : RegistryKind)
    (entry : (registries.type kind).Entry) : Path :=
  entryPath kind appRoot ((registries.type kind).peerId entry)
    ((registries.type kind).id entry) (registries.hash entry)

/-- A successful write finds no other bytes, and changes its own file and tips. -/
structure Registries.Wrote (registries : Registries) (appRoot : Path) (kind : RegistryKind)
    (entry : (registries.type kind).Entry) (files : Files) (result : Files × WriteOutcome) :
    Prop where
  before : ∀ found ∈ files (registries.path appRoot kind entry),
    found = (registries.type kind).canonicalBytes entry
  after : ∀ other, (∀ path, other ≠ tipPath path) →
    result.1 other = Function.update files (registries.path appRoot kind entry)
      (some ((registries.type kind).canonicalBytes entry)) other
  outcome : result.2.hash = registries.hash entry

variable {result : Files × WriteOutcome} {entry : (registries.type kind).Entry}

theorem writeEntry_wrote (check : (registries.type kind).Entry → Except Error Unit)
    (hwrt : writeEntry registries kind check files appRoot entry = .ok result) :
    registries.Wrote appRoot kind entry files result := by
  rw [writeEntry, bind_unit_eq_ok, validateRegistryEntrySize, Checks.require_bind_eq_ok] at hwrt
  obtain ⟨-, -, hsto⟩ := hwrt
  obtain ⟨hpre, hfls, hout⟩ := writeEntryAt_eq_ok hsto
  exact ⟨hpre, fun other _ => congrFun hfls other, hout⟩

theorem writeDeviceModel_wrote {checks : WriteChecks registries}
    {entry : (registries.type .deviceModel).Entry}
    (hwrt : writeDeviceModel registries checks files appRoot entry = .ok result) :
    registries.Wrote appRoot .deviceModel entry files result := by
  rw [writeDeviceModel, bind_unit_eq_ok, bind_unit_eq_ok, Checks.require_bind_eq_ok,
    Checks.map_eq_ok] at hwrt
  obtain ⟨-, -, -, stored, hsto, rfl⟩ := hwrt
  obtain ⟨hpre, hfls, hout⟩ := writeEntryAt_eq_ok hsto
  refine ⟨hpre, ?_, hout⟩
  intro other ho
  exact (update_of_ne (ho _) _ _).trans (congrFun hfls other)

theorem Registries.write_wrote {checks : WriteChecks registries}
    (hwrt : registries.write checks files appRoot kind entry = .ok result) :
    registries.Wrote appRoot kind entry files result := by
  cases kind with
  | sensor => exact writeEntry_wrote _ hwrt
  | clock => exact writeEntry_wrote (fun _ => .ok ()) hwrt
  | frame => exact writeEntry_wrote _ hwrt
  | detector => exact writeEntry_wrote (fun _ => .ok ()) hwrt
  | map => exact writeEntry_wrote _ hwrt
  | deviceModel => exact writeDeviceModel_wrote hwrt

theorem getBlob_eq_none {data : StoreData registries}
    (hnone : getBlob data files appRoot sha256 = .ok none) :
    files (blobPath appRoot sha256) = none := by
  rw [getBlob, Checks.require_bind_eq_ok] at hnone
  cases hfile : files (blobPath appRoot sha256) with
  | none => rfl
  | some bytes =>
    have hread := hnone.2
    simp only [readFile, readAtCapped, hfile] at hread
    split at hread
    · cases hread
    · rename_i hok
      split at hok
      · cases hok
      · cases hok
    · rename_i hok
      split at hok
      · cases hok
      · cases hok
        rw [Checks.map_eq_ok] at hread
        obtain ⟨found, -, hsome⟩ := hread
        cases hsome

/-- `put_blob` writes a missing blob or finds it. -/
theorem putBlob_eq_ok {data : StoreData registries} {result : Files × List Char}
    (hput : putBlob data files appRoot bytes = .ok result) :
    result.2 = data.sha256Hex bytes ∧ bytes.length ≤ maxBlobBytes ∧
      ((files (blobPath appRoot (data.sha256Hex bytes)) = none ∧
          result.1 = Function.update files (blobPath appRoot (data.sha256Hex bytes))
            (some bytes)) ∨
        (∃ found, getBlob data files appRoot (data.sha256Hex bytes) = .ok (some found)) ∧
          result.1 = files) := by
  simp only [putBlob] at hput
  split at hput
  · cases hput
  · rename_i hsize
    split at hput
    · rename_i hsome
      split at hput
      · cases hput
      · rename_i found hf
        cases hput
        exact ⟨rfl, Nat.le_of_not_lt hsize, Or.inr ⟨⟨found, hf⟩, rfl⟩⟩
      · rename_i hnone
        rw [getBlob_eq_none hnone] at hsome
        cases hsome
    · rename_i hnone
      cases hput
      rw [Option.not_isSome_iff_eq_none] at hnone
      exact ⟨rfl, Nat.le_of_not_lt hsize, Or.inl ⟨hnone, rfl⟩⟩

variable {call : StoreCall registries}

theorem StoreCall.keeps {data : StoreData registries} {result : Files × List Char}
    (hok : call.perform data appRoot files = .ok result) {path : Path}
    (hpath : ∀ other, path ≠ tipPath other) (hfile : files path = some bytes) :
    result.1 path = some bytes := by
  cases call with
  | write kind entry =>
    obtain ⟨written, hwrt, rfl⟩ := Checks.map_eq_ok.mp hok
    have hwro := Registries.write_wrote hwrt
    calc written.1 path
        = Function.update files (registries.path appRoot kind entry)
            (some ((registries.type kind).canonicalBytes entry)) path := hwro.after path hpath
      _ = some bytes := by
        by_cases hsm : path = registries.path appRoot kind entry
        · subst hsm
          rw [update_self, hwro.before bytes hfile]
        · rw [update_of_ne hsm, hfile]
  | putBlob put =>
    obtain ⟨-, -, ⟨hnone, hfls⟩ | ⟨-, hfls⟩⟩ := putBlob_eq_ok hok
    · have hne : path ≠ blobPath appRoot (data.sha256Hex put) := by
        rintro rfl
        rw [hnone] at hfile
        cases hfile
      rw [hfls, update_of_ne hne, hfile]
    · rw [hfls, hfile]

/-- One directory name that no other identifier is written as. -/
def IsPlain (text : List Char) : Prop :=
  IsDirectoryName text ∧ ¬ ['_', '_'] <:+: text

variable {text : List Char}

theorem components_of_notMem (hsl : '/' ∉ text) :
    components text = [text].filter fun component => component ≠ [] && component ≠ ['.'] := by
  have hsp : text.splitOn '/' = [text] := by
    apply splitOnP_eq_singleton
    intro char hchar
    rw [beq_eq_false_iff_ne]
    rintro rfl
    exact hsl hchar
  rw [components, hsp]

theorem length_components_le (hsl : '/' ∉ text) : (components text).length ≤ 1 := by
  rw [components_of_notMem hsl]
  exact length_filter_le _ _

theorem underscores_infix_idToSegment (hsl : '/' ∈ id) : ['_', '_'] <:+: idToSegment id := by
  obtain ⟨before, after, rfl⟩ := append_of_mem hsl
  refine ⟨idToSegment before, idToSegment after, ?_⟩
  rw [idToSegment_append, idToSegment_cons_slash, append_assoc]
  rfl

theorem eq_of_components_idToSegment {other : List Char} (hpln : IsPlain text)
    (hcom : components (idToSegment other) = [text]) : other = text := by
  have hseg : idToSegment other = text := by
    have hm : text ∈ components (idToSegment other) := by
      rw [hcom]
      exact mem_singleton_self _
    rw [components_of_notMem (slash_notMem_idToSegment other)] at hm
    exact (mem_singleton.mp (mem_of_mem_filter hm)).symm
  have hsl : '/' ∉ other := by
    intro hsl
    exact hpln.2 (hseg ▸ underscores_infix_idToSegment hsl)
  rw [← hseg, idToSegment_eq_self hsl]

theorem Path.join_idToSegment (path : Path) (id : List Char) :
    path.join (idToSegment id) = path ++ components (idToSegment id) := by
  have hhead : (idToSegment id).head? ≠ some '/' := by
    intro hhead
    exact slash_notMem_idToSegment id (mem_of_mem_head? hhead)
  rw [Path.join, if_neg hhead]

theorem entryPath_components (kind : RegistryKind) (peerId id : List Char)
    (hhash : isRegistryEntryHash hash = true) :
    entryPath kind appRoot peerId id hash = appRoot ++ "registries".toList :: kind.directory ::
        (components (idToSegment peerId) ++
          (components (idToSegment id) ++ [hash ++ ".json".toList])) := by
  have hroot : IsDirectoryName "registries".toList := by decide
  rw [entryPath, registriesRoot, Path.join_of_directoryName _ hroot,
    Path.join_of_directoryName _ (isDirectoryName_kind kind), Path.join_idToSegment,
    Path.join_idToSegment, Path.join_of_directoryName _ (isDirectoryName_hash hhash)]
  simp only [append_assoc, cons_append, nil_append]

theorem kind_of_entryPath_eq {kind' : RegistryKind} {peerId' id' hash' : List Char}
    (hhash : isRegistryEntryHash hash = true) (hhash' : isRegistryEntryHash hash' = true)
    (heq : entryPath kind appRoot peerId id hash = entryPath kind' appRoot peerId' id' hash') :
    kind = kind' := by
  rw [entryPath_components _ _ _ hhash, entryPath_components _ _ _ hhash',
    append_cancel_left_eq, List.cons.injEq, List.cons.injEq] at heq
  exact RegistryKind.directory_injective heq.2.1

theorem eq_of_entryPath_eq {kind' : RegistryKind} {peerId' id' hash' : List Char}
    (hpeer : IsPlain peerId) (hid : IsPlain id) (hhash : isRegistryEntryHash hash = true)
    (hhash' : isRegistryEntryHash hash' = true)
    (heq : entryPath kind' appRoot peerId' id' hash' = entryPath kind appRoot peerId id hash) :
    kind' = kind ∧ peerId' = peerId ∧ id' = id ∧ hash' = hash := by
  have hkind := kind_of_entryPath_eq hhash' hhash heq
  have hpln : ∀ {text : List Char}, IsPlain text → components (idToSegment text) = [text] := by
    intro text htext
    rw [idToSegment_eq_self htext.1.1]
    exact components_of_directoryName htext.1
  rw [entryPath_components _ _ _ hhash, entryPath_components _ _ _ hhash',
    append_cancel_left_eq, List.cons.injEq, List.cons.injEq, hpln hpeer, hpln hid] at heq
  have hnms := heq.2.2
  have hfst := length_components_le (slash_notMem_idToSegment peerId')
  have hsnd := length_components_le (slash_notMem_idToSegment id')
  have hlen := congrArg List.length hnms
  simp only [length_append, length_cons, length_nil] at hlen
  obtain ⟨hpee, hrest⟩ := append_inj hnms (by
    simp only [length_cons, length_nil]
    omega)
  obtain ⟨hids, hhas⟩ := append_inj hrest (by
    simp only [length_cons, length_nil]
    omega)
  rw [List.cons.injEq, append_left_inj] at hhas
  exact ⟨hkind, eq_of_components_idToSegment hpeer hpee, eq_of_components_idToSegment hid hids,
    hhas.1⟩

theorem storeEntry_again (hfile : files (registries.path appRoot kind entry) =
      some ((registries.type kind).canonicalBytes entry)) :
    storeEntry registries kind files appRoot entry =
      .ok (files, .alreadyExists (registries.hash entry)) := by
  rw [storeEntry, writeEntryAt]
  rw [Registries.path] at hfile
  simp only [hfile, ne_eq, not_true_eq_false, if_false]

theorem writeEntry_again (check check' : (registries.type kind).Entry → Except Error Unit)
    (hchk : check entry = .ok () → check' entry = .ok ())
    (hwrt : writeEntry registries kind check files appRoot entry = .ok result) :
    writeEntry registries kind check' result.1 appRoot entry =
      .ok (result.1, .alreadyExists (registries.hash entry)) := by
  rw [writeEntry, bind_unit_eq_ok, bind_unit_eq_ok] at hwrt ⊢
  obtain ⟨hok, hsize, hsto⟩ := hwrt
  refine ⟨hchk hok, hsize, storeEntry_again ?_⟩
  obtain ⟨-, hfls, -⟩ := writeEntryAt_eq_ok hsto
  rw [hfls]
  exact update_self _ _ _

theorem validateSensorFrameReference_again
    (hhash : ∀ bytes, isRegistryEntryHash (registries.hashJcsBytes bytes) = true)
    {data : StoreData registries} {entry : (registries.type .sensor).Entry}
    (hwro : registries.Wrote appRoot .sensor entry files result) :
    validateSensorFrameReference data result.1 appRoot entry =
      validateSensorFrameReference data files appRoot entry := by
  have hfrm : ∀ peerId id hash, readFrame registries result.1 appRoot peerId id hash =
      readFrame registries files appRoot peerId id hash := by
    intro peerId id hash
    have hsm : isRegistryEntryHash hash = true →
        result.1 (entryPath .frame appRoot peerId id hash) =
          files (entryPath .frame appRoot peerId id hash) := by
      intro hvalid
      rw [hwro.after _ fun path => (tipPath_ne_entryPath _ _ _ _ hvalid path).symm]
      apply update_of_ne
      intro heq
      cases kind_of_entryPath_eq hvalid (hhash _) heq
    exact Registries.read_congr hsm
  simp only [validateSensorFrameReference, hfrm]

theorem ensureDeviceModelBlobs_again
    (hhash : ∀ bytes, isRegistryEntryHash (registries.hashJcsBytes bytes) = true)
    (data : StoreData registries) {entry : (registries.type .deviceModel).Entry}
    (hwro : registries.Wrote appRoot .deviceModel entry files result) (blobs : List (List Char)) :
    ensureDeviceModelBlobs data result.1 appRoot blobs =
      ensureDeviceModelBlobs data files appRoot blobs := by
  induction blobs with
  | nil => rfl
  | cons sha256 rest ih =>
    have hblob : getBlob data result.1 appRoot sha256 = getBlob data files appRoot sha256 := by
      apply getBlob_congr
      intro hsha
      rw [hwro.after _ fun path => blobPath_ne_tipPath appRoot path hsha]
      exact update_of_ne (blobPath_ne_entryPath appRoot appRoot hsha _ _ _ (hhash _)) _ _
    simp only [ensureDeviceModelBlobs, hblob, ih]

theorem writeDeviceModel_again
    (hhash : ∀ bytes, isRegistryEntryHash (registries.hashJcsBytes bytes) = true)
    {data : StoreData registries} {entry : (registries.type .deviceModel).Entry}
    (hwrt : writeDeviceModel registries (data.checks appRoot) files appRoot entry = .ok result) :
    writeDeviceModel registries (data.checks appRoot) result.1 appRoot entry =
      .ok (result.1, .alreadyExists (registries.hash entry)) := by
  have hblb := ensureDeviceModelBlobs_again hhash data
    (writeDeviceModel_wrote hwrt) (data.blobs entry)
  rw [writeDeviceModel, bind_unit_eq_ok, bind_unit_eq_ok, Checks.require_bind_eq_ok,
    Checks.map_eq_ok] at hwrt ⊢
  obtain ⟨hvalid, hens, hsize, stored, hsto, rfl⟩ := hwrt
  obtain ⟨-, hfls, -⟩ := writeEntryAt_eq_ok hsto
  refine ⟨hvalid, hblb.trans hens, hsize, _, storeEntry_again ?_, ?_⟩
  · have ho : registries.path appRoot .deviceModel entry ≠ tipPath
        (deviceModelEntryPath appRoot ((registries.type .deviceModel).peerId entry)
          ((registries.type .deviceModel).id entry) (registries.hash entry)) :=
      (tipPath_ne_entryPath _ _ _ _ (hhash _) _).symm
    exact (update_of_ne ho _ _).trans
      ((congrFun hfls _).trans (update_self _ _ _))
  · -- The tip already names this version.
    have htip : ∀ (found : Files) (path : Path) (bytes : List UInt8),
        atomicWrite (atomicWrite found path bytes) path bytes = atomicWrite found path bytes :=
      fun found path bytes => update_idem _ _ _
    simp only [htip]

theorem Registries.write_again
    (hhash : ∀ bytes, isRegistryEntryHash (registries.hashJcsBytes bytes) = true)
    {data : StoreData registries}
    (hwrt : registries.write (data.checks appRoot) files appRoot kind entry = .ok result) :
    registries.write (data.checks appRoot) result.1 appRoot kind entry =
      .ok (result.1, .alreadyExists (registries.hash entry)) := by
  cases kind with
  | sensor =>
    have hwro := Registries.write_wrote hwrt
    apply writeEntry_again ((data.checks appRoot).checkSensor files)
      ((data.checks appRoot).checkSensor result.1) _ hwrt
    intro hchk
    exact (congrArg (fun found => data.validateBody entry >>= fun _ => found)
      (validateSensorFrameReference_again hhash hwro)).trans hchk
  | clock => exact writeEntry_again (fun _ => .ok ()) (fun _ => .ok ()) (fun h => h) hwrt
  | frame => exact writeEntry_again _ _ (fun h => h) hwrt
  | detector => exact writeEntry_again (fun _ => .ok ()) (fun _ => .ok ()) (fun h => h) hwrt
  | map => exact writeEntry_again _ _ (fun h => h) hwrt
  | deviceModel => exact writeDeviceModel_again hhash hwrt

theorem StoreCall.perform_again
    (hhash : ∀ bytes, isRegistryEntryHash (registries.hashJcsBytes bytes) = true)
    {data : StoreData registries} (hsha : ∀ bytes, isSha256Hex (data.sha256Hex bytes) = true)
    {result : Files × List Char} (hok : call.perform data appRoot files = .ok result) :
    call.perform data appRoot result.1 = .ok result := by
  cases call with
  | write kind entry =>
    obtain ⟨written, hwrt, rfl⟩ := Checks.map_eq_ok.mp hok
    have hout := (Registries.write_wrote hwrt).outcome
    refine Checks.map_eq_ok.mpr ⟨_, Registries.write_again hhash hwrt, ?_⟩
    rw [hout]
    rfl
  | putBlob bytes =>
    obtain ⟨hdig, hsize, hcase⟩ := putBlob_eq_ok hok
    have hf : ∃ found, getBlob data result.1 appRoot (data.sha256Hex bytes) = .ok (some found) := by
      rcases hcase with ⟨-, hfls⟩ | ⟨hf, hfls⟩
      · refine ⟨bytes, getBlob_eq_some.mpr ⟨hsha bytes, ?_, hsize, rfl⟩⟩
        rw [hfls, update_self]
      · rw [hfls]
        exact hf
    obtain ⟨found, hf⟩ := hf
    have hsome : (result.1 (blobPath appRoot (data.sha256Hex bytes))).isSome = true := by
      rw [(getBlob_eq_some.mp hf).2.1]
      rfl
    simp only [StoreCall.perform, Registry.putBlob, Nat.not_lt.mpr hsize, if_false, hsome, if_true,
      hf]
    rw [← hdig]

section Runs

variable {data : StoreData registries}

variable {files : Files}

theorem storeStep_of_ok {call : StoreCall registries} {result : Files × List Char}
    (hok : call.perform data appRoot files = .ok result) :
    storeStep data appRoot files call = result.1 := by
  rw [storeStep, hok]

variable {bytes : List UInt8}

theorem storeStep_keeps (call : StoreCall registries) {path : Path}
    (hpath : ∀ other, path ≠ tipPath other) (hfile : files path = some bytes) :
    storeStep data appRoot files call path = some bytes := by
  rw [storeStep]
  cases hper : call.perform data appRoot files with
  | error error => exact hfile
  | ok result => exact StoreCall.keeps hper hpath hfile

theorem foldl_storeStep_keeps {path : Path} (hpath : ∀ other, path ≠ tipPath other)
    (calls : List (StoreCall registries)) (hfile : files path = some bytes) :
    calls.foldl (storeStep data appRoot) files path = some bytes := by
  induction calls generalizing files with
  | nil => exact hfile
  | cons call rest ih => exact ih (storeStep_keeps call hpath hfile)

theorem storeRun_append (before after : List (StoreCall registries)) :
    storeRun data appRoot (before ++ after) =
      after.foldl (storeStep data appRoot) (storeRun data appRoot before) :=
  foldl_append

theorem blobs_of_storeRun
    (hhash : ∀ bytes, isRegistryEntryHash (registries.hashJcsBytes bytes) = true)
    (calls : List (StoreCall registries)) {sha256 : List Char} (hsha256 : isSha256Hex sha256 = true)
    (hfile : storeRun data appRoot calls (blobPath appRoot sha256) = some bytes) :
    .putBlob bytes ∈ calls := by
  induction calls using List.reverseRecOn with
  | nil => cases hfile
  | append_singleton calls call ih =>
    rw [storeRun_append, foldl_cons, foldl_nil, storeStep] at hfile
    rw [mem_append]
    cases hper : call.perform data appRoot (storeRun data appRoot calls) with
    | error error =>
      rw [hper] at hfile
      exact Or.inl (ih hfile)
    | ok result =>
      rw [hper] at hfile
      cases call with
      | write kind entry =>
        obtain ⟨written, hwrt, rfl⟩ := Checks.map_eq_ok.mp hper
        left
        apply ih
        have haft := (Registries.write_wrote hwrt).after (blobPath appRoot sha256)
          fun path => blobPath_ne_tipPath appRoot path hsha256
        have hne : blobPath appRoot sha256 ≠ registries.path appRoot kind entry :=
          blobPath_ne_entryPath appRoot appRoot hsha256 _ _ _ (hhash _)
        rw [update_of_ne hne] at haft
        exact haft.symm.trans hfile
      | putBlob put =>
        obtain ⟨-, -, ⟨-, hfls⟩ | ⟨-, hfls⟩⟩ := putBlob_eq_ok hper
        · by_cases hsm : blobPath appRoot sha256 = blobPath appRoot (data.sha256Hex put)
          · right
            simp only [hfls, hsm, update_self, Option.some.injEq] at hfile
            rw [hfile]
            exact mem_singleton_self _
          · left
            apply ih
            simp only [hfls, update_of_ne hsm] at hfile
            exact hfile
        · left
          apply ih
          simp only [hfls] at hfile
          exact hfile

end Runs

/-- Peer and id are plain names, and `serde_json` reads the text back. -/
def StoreCall.Meets : StoreCall registries → Prop
  | .write kind entry =>
    IsPlain ((registries.type kind).peerId entry) ∧ IsPlain ((registries.type kind).id entry) ∧
      ∃ found, registries.ReadsBack kind entry found
  | .putBlob _ => True

/-- What was written is read back under the returned hash. -/
def StoreCall.Readable (data : StoreData registries) (appRoot : Path) (files : Files)
    (returned : List Char) : StoreCall registries → Prop
  | .write kind entry =>
    ∃ found, registries.read files appRoot kind ((registries.type kind).peerId entry)
        ((registries.type kind).id entry) returned = .ok (some found) ∧
      (registries.type kind).canonicalBytes found = (registries.type kind).canonicalBytes entry
  | .putBlob bytes => getBlob data files appRoot returned = .ok (some bytes)

/-- The key that a call writes. -/
def StoreCall.Writes (kind : RegistryKind) (peerId id hash : List Char) :
    StoreCall registries → Prop
  | .write kind' entry =>
    kind' = kind ∧ (registries.type kind').peerId entry = peerId ∧
      (registries.type kind').id entry = id ∧ registries.hash entry = hash
  | .putBlob _ => False

theorem StoreCall.readable_of_perform
    (hhash : ∀ bytes, isRegistryEntryHash (registries.hashJcsBytes bytes) = true)
    {data : StoreData registries} (hsha : ∀ bytes, isSha256Hex (data.sha256Hex bytes) = true)
    {before : List (StoreCall registries)} (hmee : call.Meets) {result : Files × List Char}
    (hok : call.perform data appRoot (storeRun data appRoot before) = .ok result)
    (hblb : ∀ left right, .putBlob left ∈ before → call = .putBlob right →
      data.sha256Hex left = data.sha256Hex right → left = right)
    (middle : List (StoreCall registries)) :
    call.Readable data appRoot (middle.foldl (storeStep data appRoot) result.1) result.2 := by
  cases call with
  | write kind entry =>
    obtain ⟨written, hwrt, rfl⟩ := Checks.map_eq_ok.mp hok
    obtain ⟨hst, hval⟩ := Registries.write_stored hhash hwrt
    obtain ⟨-, -, found, hrds⟩ := hmee
    have hkept : middle.foldl (storeStep data appRoot) written.1
        (registries.path appRoot kind entry) = some ((registries.type kind).canonicalBytes entry) :=
      foldl_storeStep_keeps (fun path => (tipPath_ne_entryPath _ _ _ _ (hhash _) path).symm)
        middle hst.file
    have hlat : registries.Stored (middle.foldl (storeStep data appRoot) written.1) appRoot
        kind entry written.2 := ⟨hkept, hst.size, hst.outcome⟩
    refine ⟨found, ?_, hrds.2.1⟩
    simp only [hst.outcome]
    exact hlat.read hhash hval hrds
  | putBlob bytes =>
    obtain ⟨hdig, hsize, hcase⟩ := putBlob_eq_ok hok
    have hfile : result.1 (blobPath appRoot (data.sha256Hex bytes)) = some bytes := by
      rcases hcase with ⟨-, hfls⟩ | ⟨⟨found, hf⟩, hfls⟩
      · rw [hfls, update_self]
      · obtain ⟨-, hst, -, hsm⟩ := getBlob_eq_some.mp hf
        have hm := blobs_of_storeRun hhash before (hsha bytes) hst
        rw [hfls, hst, hblb found bytes hm rfl hsm]
    have hkept : middle.foldl (storeStep data appRoot) result.1
        (blobPath appRoot (data.sha256Hex bytes)) = some bytes :=
      foldl_storeStep_keeps (fun path => blobPath_ne_tipPath appRoot path (hsha bytes))
        middle hfile
    rw [hdig]
    exact getBlob_eq_some.mpr ⟨hsha bytes, hkept, hsize, rfl⟩

theorem StoreCall.read_of_not_writes
    (hhash : ∀ bytes, isRegistryEntryHash (registries.hashJcsBytes bytes) = true)
    {data : StoreData registries} (hsha : ∀ bytes, isSha256Hex (data.sha256Hex bytes) = true)
    (hmee : call.Meets) {result : Files × List Char}
    (hok : call.perform data appRoot files = .ok result)
    (ho : ¬ call.Writes kind peerId id hash) :
    registries.read result.1 appRoot kind peerId id hash =
      registries.read files appRoot kind peerId id hash := by
  apply Registries.read_congr
  intro hvalid
  have htip : ∀ path, entryPath kind appRoot peerId id hash ≠ tipPath path :=
    fun path => (tipPath_ne_entryPath _ _ _ _ hvalid path).symm
  cases call with
  | write kind' entry =>
    obtain ⟨written, hwrt, rfl⟩ := Checks.map_eq_ok.mp hok
    rw [(Registries.write_wrote hwrt).after _ htip]
    apply update_of_ne
    intro heq
    obtain ⟨rfl, rfl, rfl, rfl⟩ := eq_of_entryPath_eq hmee.1 hmee.2.1 (hhash _) hvalid heq
    exact ho ⟨rfl, rfl, rfl, rfl⟩
  | putBlob bytes =>
    obtain ⟨-, -, ⟨-, hfls⟩ | ⟨-, hfls⟩⟩ := putBlob_eq_ok hok
    · rw [hfls]
      exact update_of_ne
        (blobPath_ne_entryPath appRoot appRoot (hsha bytes) _ _ _ hvalid).symm _ _
    · rw [hfls]

/-- A successful call is readable from then on and changes no other key. -/
theorem registry_store_sound (registries : Registries)
    (hhash : ∀ bytes, isRegistryEntryHash (registries.hashJcsBytes bytes) = true)
    (data : StoreData registries) (hsha : ∀ bytes, isSha256Hex (data.sha256Hex bytes) = true)
    (appRoot : Path) (calls : List (StoreCall registries)) (hmeets : ∀ call ∈ calls, call.Meets)
    (hblobs : ∀ left right, .putBlob left ∈ calls → .putBlob right ∈ calls →
      data.sha256Hex left = data.sha256Hex right → left = right)
    (before : List (StoreCall registries)) (call : StoreCall registries)
    (after : List (StoreCall registries)) (hsplit : calls = before ++ call :: after)
    (result : Files × List Char)
    (hok : call.perform data appRoot (storeRun data appRoot before) = .ok result) :
    (∀ middle, middle <+: after →
      call.Readable data appRoot (storeRun data appRoot (before ++ call :: middle)) result.2) ∧
    (∀ kind peerId id hash, ¬ call.Writes kind peerId id hash →
      registries.read result.1 appRoot kind peerId id hash =
        registries.read (storeRun data appRoot before) appRoot kind peerId id hash) ∧
    call.perform data appRoot result.1 = .ok result := by
  have hmem : call ∈ calls := by
    rw [hsplit]
    exact mem_append_right _ mem_cons_self
  refine ⟨?_, ?_, StoreCall.perform_again hhash hsha hok⟩
  · intro middle _
    rw [storeRun_append, foldl_cons, storeStep_of_ok hok]
    apply StoreCall.readable_of_perform hhash hsha (hmeets call hmem) hok
    rintro left right hleft rfl hsame
    apply hblobs left right _ hmem hsame
    rw [hsplit]
    exact mem_append_left _ hleft
  · intro kind peerId id hash hother
    exact StoreCall.read_of_not_writes hhash hsha (hmeets call hmem) hok hother

def sampleData (registries : Registries) : StoreData registries where
  validateBody _ := .ok ()
  frameReference _ := none
  blobs _ := []
  sha256Hex bytes :=
    if bytes = [] then
      "e3b0c44298fc1c149afbf4c8996fb92427ae41e4649b934ca495991b7852b855".toList
    else
      List.replicate 64 '0'

theorem sampleData_isSha256Hex (registries : Registries) (bytes : List UInt8) :
    isSha256Hex ((sampleData registries).sha256Hex bytes) = true := by
  by_cases hemp : bytes = []
  · exact (congrArg isSha256Hex (if_pos hemp)).trans (by decide +kernel)
  · exact (congrArg isSha256Hex (if_neg hemp)).trans (by decide +kernel)

theorem clockRegistries_fromSlice (clock : ClockRegistryEntry) (bytes : List UInt8)
    (hash : List Char) :
    ((clockRegistries clock bytes hash).type .clock).fromSlice bytes = .ok clock :=
  if_pos rfl

theorem clockRegistries_perform (clock : ClockRegistryEntry)
    (hsize : bytes.length ≤ maxRegistryEntryBytes) (hash : List Char) :
    ∃ result, (StoreCall.write .clock clock :
        StoreCall (clockRegistries clock bytes hash)).perform (sampleData _) []
          (fun _ => none) = .ok result ∧
      ∀ other, (∀ path, other ≠ tipPath path) → result.1 other =
        Function.update (fun _ => none) (entryPath .clock [] clock.peerId.toList
          clock.clockId.toList hash) (some bytes) other := by
  obtain ⟨written, hwrt⟩ := clockRegistries_write clock bytes hash hsize
  refine ⟨_, Checks.map_eq_ok.mpr ⟨written, hwrt, rfl⟩, ?_⟩
  have hpath : (clockRegistries clock bytes hash).path [] .clock clock =
      entryPath .clock [] clock.peerId.toList clock.clockId.toList hash :=
    congrArg (entryPath .clock [] clock.peerId.toList clock.clockId.toList)
      (clockRegistries_hash clock bytes hash .clock)
  have haft := (Registries.write_wrote hwrt).after
  rw [hpath, clockRegistries_canonicalBytes] at haft
  exact haft

/-- Readers and writers at the clock `id` of the peer `p`. -/
def idRegistries (id : String) (hash : List Char) : Registries :=
  clockRegistries (longClock id 3) (longClock id 3).canonicalJson hash

/-- The write of that clock. -/
def writeId (id : String) (hash : List Char) : StoreCall (idRegistries id hash) :=
  .write .clock (longClock id 3)

theorem registry_store_sound_sample :
    IsPlain "c".toList ∧ ∀ hash, isRegistryEntryHash hash = true → ∃ result,
      (writeId "c" hash).perform (sampleData (idRegistries "c" hash)) [] (fun _ => none) =
          .ok result ∧
      (writeId "c" hash).Readable (sampleData (idRegistries "c" hash)) []
          (storeRun (sampleData (idRegistries "c" hash)) [] [writeId "c" hash, .putBlob []])
          result.2 := by
  have hplain : ∀ char : Char, char ≠ '/' → char ≠ '.' → char ≠ '_' → IsPlain [char] := by
    intro char hslash hdot hunder
    refine ⟨⟨by simpa using hslash.symm, by simp [isReservedSegment, hdot]⟩, ?_⟩
    intro hinfix
    have hlength := hinfix.length_le
    simp at hlength
  refine ⟨hplain 'c' (by decide) (by decide) (by decide), ?_⟩
  intro hash hhash
  have hsize : (longClock "c" 3).canonicalJson.length ≤ maxRegistryEntryBytes := by
    rw [length_canonicalJson_longClock, maxRegistryEntryBytes]
    omega
  obtain ⟨result, hok, -⟩ := clockRegistries_perform (longClock "c" 3) hsize hash
  refine ⟨result, hok, ?_⟩
  have hreads := clockRegistries_readsBack (longClock "c" 3) (longClock "c" 3).canonicalJson hash
    .clock
  have hsound := registry_store_sound (idRegistries "c" hash)
    (clockRegistries_isHash (longClock "c" 3) (longClock "c" 3).canonicalJson hash hhash)
    (sampleData _) (sampleData_isSha256Hex _) [] [writeId "c" hash, .putBlob []]
    (by
      intro call hcall
      rcases mem_cons.mp hcall with rfl | hcall
      · exact ⟨hplain 'p' (by decide) (by decide) (by decide),
          hplain 'c' (by decide) (by decide) (by decide), _, hreads⟩
      · rw [mem_singleton.mp hcall]
        exact trivial)
    (by
      intro left right hleft hright _
      rcases mem_cons.mp hleft with hleft | hleft
      · cases hleft
      · rcases mem_cons.mp hright with hright | hright
        · cases hright
        · cases mem_singleton.mp hleft
          cases mem_singleton.mp hright
          rfl)
    [] (writeId "c" hash) [.putBlob []] rfl result hok
  exact hsound.1 [.putBlob []] (prefix_refl _)

/-- A detector whose configuration is arrays inside arrays. -/
structure NestedDetector where
  peerId : String
  detectorId : String
  depth : ℕ
  deriving DecidableEq

/-- The canonical JSON of a custom detector with that configuration. -/
def NestedDetector.canonicalJson (detector : NestedDetector) : List UInt8 :=
  literal "\x7b\"configuration\":" ++ List.replicate detector.depth 0x5B ++
    List.replicate detector.depth 0x5D ++ literal ",\"detector_id\":" ++
    jsonString (literal detector.detectorId) ++
    literal ",\"input_types\":[],\"kind\":\"k\",\"output_types\":[],\"peer_id\":" ++
    jsonString (literal detector.peerId) ++ literal ",\"type\":\"custom\"\x7d"

/-- The deepest JSON that `serde_json` reads. -/
def recursionLimit : ℕ := 127

/-- Readers at one nested detector. -/
def nestedRegistries (detector : NestedDetector) (hash : List Char) : Registries where
  type _ :=
    { Entry := NestedDetector
      fromSlice := fun found =>
        if found = detector.canonicalJson ∧ detector.depth + 1 ≤ recursionLimit then
          .ok detector
        else
          .error "recursion limit exceeded".toList
      canonicalBytes := NestedDetector.canonicalJson
      peerId := fun entry => entry.peerId.toList
      id := fun entry => entry.detectorId.toList
      validate := fun _ => .ok () }
  hashJcsBytes _ := hash

theorem perform_detector_fresh {registries : Registries} (data : StoreData registries)
    {entry : (registries.type .detector).Entry}
    (hsize : ((registries.type .detector).canonicalBytes entry).length ≤ maxRegistryEntryBytes) :
    (StoreCall.write .detector entry).perform data [] (fun _ => none) =
      .ok (atomicWrite (fun _ => none) (registries.path [] .detector entry)
        ((registries.type .detector).canonicalBytes entry), registries.hash entry) := by
  have hreq : validateRegistryEntrySize ((registries.type .detector).canonicalBytes entry) =
      .ok () := Checks.require_eq_ok.mpr hsize
  have hwrt : registries.write (data.checks []) (fun _ => none) [] .detector entry =
      (validateRegistryEntrySize ((registries.type .detector).canonicalBytes entry) >>= fun _ =>
        storeEntry registries .detector (fun _ => none) [] entry) := rfl
  rw [StoreCall.perform, hwrt, hreq, ok_bind]
  rfl

theorem readEntry_of_none (hhash : isRegistryEntryHash hash = true)
    (hfile : files (entryPath kind appRoot peerId id hash) = none) :
    readEntry registries kind files appRoot peerId id hash = .ok none := by
  rw [readEntry, validateRegistryReadHash, Checks.require_bind_eq_ok]
  exact ⟨hhash, by simp only [readFile, readAtCapped, hfile]⟩

theorem readEntry_of_other (hhash : isRegistryEntryHash hash = true)
    (hfile : files (entryPath kind appRoot peerId id hash) = some bytes)
    (hsize : bytes.length ≤ maxRegistryEntryBytes)
    (hprs : (registries.type kind).fromSlice bytes = .ok entry)
    (hpeer : (registries.type kind).peerId entry = peerId)
    (hid : (registries.type kind).id entry ≠ id) :
    readEntry registries kind files appRoot peerId id hash =
      .error (.idMismatch id ((registries.type kind).id entry)) := by
  have hreq : validateRegistryReadHash hash = .ok () := Checks.require_eq_ok.mpr hhash
  have ho : parseEntry (registries.type kind) peerId id bytes =
      .error (.idMismatch id ((registries.type kind).id entry)) := by
    simp only [parseEntry, hprs, hpeer, ne_eq, not_true_eq_false, if_false, hid,
      not_false_eq_true, if_true]
  rw [readEntry, hreq, ok_bind]
  simp only [readFile, readAtCapped, hfile, Nat.not_lt.mpr hsize, if_false, ho]
  rfl

/-- A write that cannot be read, and one that changes another key. -/
theorem registry_store_unsound : (∀ hash, isRegistryEntryHash hash = true → ∃ result,
      (StoreCall.write .detector (⟨"p", "d", 127⟩ : NestedDetector) :
        StoreCall (nestedRegistries ⟨"p", "d", 127⟩ hash)).perform (sampleData _) []
          (fun _ => none) = .ok result ∧
      ¬ (StoreCall.write .detector (⟨"p", "d", 127⟩ : NestedDetector) :
        StoreCall (nestedRegistries ⟨"p", "d", 127⟩ hash)).Readable (sampleData _) [] result.1
          result.2) ∧
    (∀ hash, isRegistryEntryHash hash = true → ∃ result,
      (writeId "a/b" hash).perform (sampleData (idRegistries "a/b" hash)) [] (fun _ => none) =
          .ok result ∧
      ¬ (writeId "a/b" hash).Writes .clock "p".toList "a__b".toList hash ∧
      (idRegistries "a/b" hash).read (fun _ => none) [] .clock "p".toList "a__b".toList hash =
        .ok none ∧
      (idRegistries "a/b" hash).read result.1 [] .clock "p".toList "a__b".toList hash =
        .error (.idMismatch "a__b".toList "a/b".toList)) := by
  constructor
  · intro hash hhash
    have hlength : (⟨"p", "d", 127⟩ : NestedDetector).canonicalJson.length ≤
        maxRegistryEntryBytes := by
      have hvalue : (⟨"p", "d", 127⟩ : NestedDetector).canonicalJson.length = 366 := by
        decide +kernel
      rw [hvalue, maxRegistryEntryBytes]
      omega
    refine ⟨_, perform_detector_fresh _ hlength, ?_⟩
    rintro ⟨found, hread, -⟩
    obtain ⟨-, ⟨bytes, -, -, hparse⟩, -⟩ := Registries.read_eq_some.mp hread
    have hlimit : ¬ (bytes = (⟨"p", "d", 127⟩ : NestedDetector).canonicalJson ∧
        127 + 1 ≤ recursionLimit) := by
      rintro ⟨-, hle⟩
      rw [recursionLimit] at hle
      omega
    have herror : ((nestedRegistries ⟨"p", "d", 127⟩ hash).type .detector).fromSlice bytes =
        .error "recursion limit exceeded".toList := if_neg hlimit
    rw [herror] at hparse
    cases hparse
  · intro hash hhash
    have hsize : (longClock "a/b" 3).canonicalJson.length ≤ maxRegistryEntryBytes := by
      have hvalue : (longClock "a/b" 3).canonicalJson.length = 134 := by decide +kernel
      rw [hvalue, maxRegistryEntryBytes]
      omega
    obtain ⟨result, hok, hafter⟩ := clockRegistries_perform (longClock "a/b" 3) hsize hash
    have hdistinct : "a/b".toList ≠ "a__b".toList := by decide
    have hpath : entryPath .clock [] "p".toList "a__b".toList hash =
        entryPath .clock [] "p".toList "a/b".toList hash := rfl
    refine ⟨result, hok, fun h => hdistinct h.2.2.1, readEntry_of_none hhash rfl, ?_⟩
    have hfile : result.1 (entryPath .clock [] "p".toList "a__b".toList hash) =
        some (longClock "a/b" 3).canonicalJson := by
      rw [hafter _ fun path => (tipPath_ne_entryPath _ _ _ _ hhash path).symm, hpath]
      exact update_self _ _ _
    exact readEntry_of_other hhash hfile hsize (clockRegistries_fromSlice _ _ hash) rfl hdistinct

end AukiSdk.Registry
