import AukiSdk.Registry.UrdfPackage

/-!
# Which files a URDF makes the publisher read

The mesh file of a URDF is looked for under the package directory.
-/

namespace AukiSdk.Registry

open AukiSdk.Foundation List

/-- The root component. -/
def rootComponent : List Char := ['/']

/-- An absolute working directory. -/
structure WorkingDirectory where
  path : Path
  absolute : path.head? = some rootComponent
  plain : pathHasParentDir path = false

variable (cwd : WorkingDirectory)

/-- A path from the root. -/
def absolutePath (path : Path) : Path :=
  if path.head? = some rootComponent then path else cwd.path ++ path

/-- A path without its parent components, which lead back by one. -/
def resolveDots (path : Path) : Path :=
  path.foldl (fun kept component =>
    if component = ['.', '.'] then if kept = [rootComponent] then kept else kept.dropLast
    else kept ++ [component]) []

/-- A path that leads to somewhere below a directory, where there are no symbolic links. -/
def Under (directory path : Path) : Prop :=
  resolveDots (absolutePath cwd directory) <+: resolveDots (absolutePath cwd path)

instance (cwd : WorkingDirectory) (directory path : Path) : Decidable (Under cwd directory path) :=
  inferInstanceAs (Decidable (_ <+: _))

/-- The texts that `resolve_urdf_mesh` joins after a scheme, if they are absolute. -/
def absoluteRemainders (filename : List Char) : List (List Char) :=
  match stripPrefix packageScheme filename with
  | none => []
  | some rest =>
    [rest, ((splitOnceSlash rest).getD (rest, [])).2].filter (·.head? = some '/')

variable (text : List Char)

/-- The path that joining an absolute text leads to. -/
def absoluteJoin : Path :=
  rootComponent :: components text

/-- A rejected file name, or one whose remainders stay below the package directory. -/
def IsConfined (packageDir : Path) (filename : List Char) : Prop :=
  validateMeshRelPath (normalizeMeshRelPath filename) = .ok () →
    ∀ remainder ∈ absoluteRemainders filename,
      pathHasParentDir (absoluteJoin remainder) = true ∨
        Under cwd packageDir (absoluteJoin remainder)

theorem pathHasParentDir_append (left right : Path) :
    pathHasParentDir (left ++ right) = (pathHasParentDir left || pathHasParentDir right) := by
  simp [pathHasParentDir, Bool.decide_or]

theorem resolveDots_of_plain {path : Path} (hpln : pathHasParentDir path = false) :
    resolveDots path = path := by
  have hfold : ∀ (rest kept : Path), pathHasParentDir rest = false →
      rest.foldl (fun kept component =>
        if component = ['.', '.'] then if kept = [rootComponent] then kept else kept.dropLast
        else kept ++ [component]) kept = kept ++ rest := by
    intro rest
    induction rest with
    | nil => simp
    | cons component rest ih =>
      intro kept hrest
      have hsp := pathHasParentDir_append [component] rest
      rw [singleton_append, hrest, eq_comm, Bool.or_eq_false_iff] at hsp
      have hcom : component ≠ ['.', '.'] := by
        rintro rfl
        exact absurd hsp.1 (by decide)
      rw [foldl_cons, if_neg hcom, ih _ hsp.2, append_assoc, singleton_append]
  exact (hfold path [] hpln).trans (nil_append path)

theorem notMem_slash_of_mem_components {text component : List Char}
    (hcom : component ∈ components text) : '/' ∉ component :=
  Text.notMem_of_mem_splitOn (mem_of_mem_filter hcom)

theorem head?_components_ne_root : (components text).head? ≠ some rootComponent := by
  intro hhead
  have hm := notMem_slash_of_mem_components (mem_of_mem_head? hhead)
  exact hm mem_cons_self

theorem Path.join_cases (directory : Path) (text : List Char) :
    text.head? = some '/' ∧ directory.join text = absoluteJoin text ∨
      text.head? ≠ some '/' ∧ directory.join text = directory ++ components text := by
  rw [Path.join]
  split
  next hhead => exact .inl ⟨hhead, rfl⟩
  next hhead => exact .inr ⟨hhead, rfl⟩

theorem absolutePath_append (directory : Path) {path : Path}
    (hpath : path.head? ≠ some rootComponent) :
    absolutePath cwd (directory ++ path) = absolutePath cwd directory ++ path := by
  cases directory with
  | nil => rw [nil_append, absolutePath, if_neg hpath, absolutePath, if_neg (by simp), append_nil]
  | cons component rest =>
    rw [absolutePath, absolutePath, cons_append, head?_cons, head?_cons]
    split
    · rfl
    · rw [append_assoc, cons_append]

theorem under_append {directory path : Path} (hpath : path.head? ≠ some rootComponent)
    (hpln : pathHasParentDir (directory ++ path) = false) :
    Under cwd directory (directory ++ path) := by
  have hpar : pathHasParentDir directory = false ∧ pathHasParentDir path = false := by
    rwa [pathHasParentDir_append, Bool.or_eq_false_iff] at hpln
  have habs : pathHasParentDir (absolutePath cwd directory) = false := by
    rw [absolutePath]
    split
    · exact hpar.1
    · rw [pathHasParentDir_append, cwd.plain, hpar.1]
      rfl
  rw [Under, absolutePath_append cwd directory hpath, resolveDots_of_plain habs,
    resolveDots_of_plain]
  · exact prefix_append _ _
  · rw [pathHasParentDir_append, habs, hpar.2]
    rfl

theorem splitOnceSlash_some {text before after : List Char}
    (hsp : splitOnceSlash text = some (before, after)) :
    text = before ++ '/' :: after ∧ '/' ∉ before := by
  rw [splitOnceSlash] at hsp
  split at hsp
  · cases hsp
  next slash rest hdrop =>
    cases hsp
    have hsl : slash = '/' := by
      have hhead := head?_dropWhile_not (· ≠ '/') text
      rw [hdrop] at hhead
      simpa using hhead
    constructor
    · rw [hsl] at hdrop
      rw [← hdrop, takeWhile_append_dropWhile]
    · intro hm
      have hkept := mem_takeWhile_imp hm
      simp at hkept

theorem head?_ne_slash_of_notMem {text : List Char} (hsl : '/' ∉ text) :
    text.head? ≠ some '/' :=
  fun hhead => hsl (mem_of_mem_head? hhead)

/-- A candidate continues the package directory or an absolute remainder. -/
theorem meshCandidates_cases {packageDir path : Path} {original rel : List Char}
    (hrel : rel.head? ≠ some '/') (hpath : path ∈ meshCandidates packageDir original rel) :
    (∃ below, path = packageDir ++ below ∧ below.head? ≠ some rootComponent) ∨
      ∃ remainder ∈ absoluteRemainders original, path = absoluteJoin remainder := by
  have hbel : ∀ text : List Char, text.head? ≠ some '/' → ∀ directory : Path,
      directory.join text = directory ++ components text := by
    intro text htext directory
    obtain ⟨hhead, -⟩ | ⟨-, hjoin⟩ := Path.join_cases directory text
    · exact absurd hhead htext
    · exact hjoin
  rw [meshCandidates, mem_cons] at hpath
  cases hpath with
  | inl hfst =>
    rw [hfst, hbel rel hrel]
    exact .inl ⟨_, rfl, head?_components_ne_root rel⟩
  | inr hpac =>
    rw [absoluteRemainders]
    cases hstr : stripPrefix packageScheme original with
    | none =>
      rw [hstr] at hpac
      cases hpac
    | some rest =>
      rw [hstr] at hpac
      dsimp only at hpac ⊢
      simp only [mem_filter, mem_cons, not_mem_nil, or_false, decide_eq_true_eq]
      cases mem_cons.mp hpac with
      | inl hrest =>
        rw [hrest]
        obtain ⟨hhead, hjoin⟩ | ⟨-, hjoin⟩ := Path.join_cases packageDir rest
        · exact .inr ⟨rest, ⟨.inl rfl, hhead⟩, hjoin⟩
        · exact .inl ⟨_, hjoin, head?_components_ne_root rest⟩
      | inr hrlt =>
        cases hsp : splitOnceSlash rest with
        | none =>
          rw [hsp] at hrlt
          simp at hrlt
        | some parts =>
          obtain ⟨pkg, relative⟩ := parts
          rw [hsp] at hrlt
          dsimp only [Option.getD_some] at hrlt ⊢
          split at hrlt
          · cases hrlt
          · rw [mem_singleton] at hrlt
            obtain ⟨-, hpkg⟩ := splitOnceSlash_some hsp
            rw [hrlt]
            obtain ⟨hhead, hjoin⟩ | ⟨-, hjoin⟩ := Path.join_cases (packageDir.join pkg) relative
            · exact .inr ⟨relative, ⟨.inr rfl, hhead⟩, hjoin⟩
            · rw [hjoin, hbel pkg (head?_ne_slash_of_notMem hpkg), append_assoc]
              refine .inl ⟨_, rfl, ?_⟩
              intro hhead
              have hm := mem_of_mem_head? hhead
              rw [mem_append] at hm
              cases hm with
              | inl hm =>
                exact notMem_slash_of_mem_components hm mem_cons_self
              | inr hm =>
                exact notMem_slash_of_mem_components hm mem_cons_self

theorem head?_ne_slash_of_validate {rel : List Char}
    (hvalid : validateMeshRelPath rel = .ok ()) : rel.head? ≠ some '/' := by
  intro hhead
  rw [validateMeshRelPath] at hvalid
  split at hvalid
  · cases hvalid
  · split at hvalid
    · cases hvalid
    · cases hvalid

theorem locateMesh_resolved {packageDir : Path}
    {substitutions : List Char → Option MeshSubstitution} {files : Files}
    {original advertised : List Char} {resolved : Path}
    (hsub : substitutionOf substitutions original = none)
    (hloc : locateMesh packageDir substitutions files original = .ok (advertised, resolved)) :
    validateMeshRelPath (normalizeMeshRelPath original) = .ok () ∧
      resolveUrdfMesh files packageDir original (normalizeMeshRelPath original) =
        some resolved := by
  simp only [locateMesh, hsub] at hloc
  split at hloc
  · cases hloc
  next hvalid =>
    split at hloc
    · cases hloc
    next found hf =>
      cases hloc
      exact ⟨hvalid, hf⟩

theorem under_of_resolveUrdfMesh {cwd : WorkingDirectory} {packageDir resolved : Path}
    {files : Files} {original : List Char} (hcon : IsConfined cwd packageDir original)
    (hvalid : validateMeshRelPath (normalizeMeshRelPath original) = .ok ())
    (hres : resolveUrdfMesh files packageDir original (normalizeMeshRelPath original) =
      some resolved) : Under cwd packageDir resolved := by
  rw [resolveUrdfMesh] at hres
  have hm := mem_of_find?_eq_some hres
  have hpln := find?_some hres
  rw [Bool.and_eq_true, Bool.not_eq_true'] at hpln
  obtain ⟨below, rfl, hbel⟩ | ⟨remainder, hrem, rfl⟩ :=
    meshCandidates_cases (head?_ne_slash_of_validate hvalid) hm
  · exact under_append cwd hbel hpln.1
  · cases hcon hvalid remainder hrem with
    | inl hpar =>
      rw [hpar] at hpln
      exact absurd hpln.1 Bool.noConfusion
    | inr hund => exact hund

/-- A substituted or unconfined read, or one below the package directory. -/
def MeshRead.Kept (packageDir : Path) (read : MeshRead) : Prop :=
  read.substituted = false → IsConfined cwd packageDir read.original →
    Under cwd packageDir read.path

section Loop

variable {registries : Registries} (data : StoreData registries) (appRoot packageDir : Path)
  (substitutions : List Char → Option MeshSubstitution)

variable (loop : MeshLoop)

theorem meshStep_reads (mesh : MeshRef) :
    (meshStep data appRoot packageDir substitutions loop mesh).2.reads = loop.reads ∨
      ∃ advertised resolved, locateMesh packageDir substitutions loop.files mesh.original =
          .ok (advertised, resolved) ∧
        (meshStep data appRoot packageDir substitutions loop mesh).2.reads =
          loop.reads ++ [⟨mesh.original, (substitutionOf substitutions mesh.original).isSome,
            resolved⟩] := by
  rw [meshStep]
  split
  · exact .inl rfl
  next advertised resolved hloc =>
    dsimp only
    split
    · split
      · exact .inl rfl
      · exact .inl rfl
    · refine .inr ⟨advertised, resolved, hloc, ?_⟩
      split
      · rfl
      · rfl
      · split
        · rfl
        · rfl

theorem meshStep_reads_new (mesh : MeshRef) {advertised : List Char} {resolved : Path}
    (hloc : locateMesh packageDir substitutions loop.files mesh.original =
      .ok (advertised, resolved)) (hnew : loop.seenPaths advertised = none) :
    (meshStep data appRoot packageDir substitutions loop mesh).2.reads =
      loop.reads ++ [⟨mesh.original, (substitutionOf substitutions mesh.original).isSome,
        resolved⟩] := by
  rw [meshStep, hloc]
  dsimp only
  rw [hnew]
  dsimp only
  split
  · rfl
  · rfl
  · split
    · rfl
    · rfl

theorem meshLoop_singleton (mesh : MeshRef) :
    meshLoop data appRoot packageDir substitutions [mesh] loop =
      meshStep data appRoot packageDir substitutions loop mesh := by
  rw [meshLoop]
  split
  next error after hmesh => exact hmesh.symm
  next after hmesh => exact hmesh.symm

theorem meshStep_kept (cwd : WorkingDirectory) {loop : MeshLoop} (mesh : MeshRef)
    (hkept : ∀ read ∈ loop.reads, read.Kept cwd packageDir) :
    ∀ read ∈ (meshStep data appRoot packageDir substitutions loop mesh).2.reads,
      read.Kept cwd packageDir := by
  obtain hrds | ⟨advertised, resolved, hloc, hrds⟩ :=
    meshStep_reads data appRoot packageDir substitutions loop mesh
  · rwa [hrds]
  · rw [hrds]
    intro read hread
    cases mem_append.mp hread with
    | inl hbef => exact hkept read hbef
    | inr hlast =>
      rw [mem_singleton.mp hlast]
      intro hsub hcon
      have hnone := Option.not_isSome_iff_eq_none.mp (Bool.eq_false_iff.mp hsub)
      obtain ⟨hvalid, hres⟩ := locateMesh_resolved hnone hloc
      exact under_of_resolveUrdfMesh hcon hvalid hres

theorem meshLoop_kept (cwd : WorkingDirectory) (meshes : List MeshRef) :
    ∀ {loop : MeshLoop}, (∀ read ∈ loop.reads, read.Kept cwd packageDir) →
      ∀ read ∈ (meshLoop data appRoot packageDir substitutions meshes loop).2.reads,
        read.Kept cwd packageDir := by
  induction meshes with
  | nil => exact fun hkept => hkept
  | cons mesh rest ih =>
    intro loop hkept
    have hs := meshStep_kept data appRoot packageDir substitutions cwd mesh hkept
    rw [meshLoop]
    split
    next error after hmesh =>
      rw [hmesh] at hs
      exact hs
    next after hmesh =>
      rw [hmesh] at hs
      exact ih hs

end Loop

theorem putUrdfPackage_reads {registries : Registries} (data : StoreData registries)
    (reader : XmlReader) (files : Files) (call : UrdfCall) :
    (putUrdfPackage data reader files call).2 =
      match call.meshes reader files with
      | .error _ => []
      | .ok (urdf, meshes) => (call.loop data files urdf meshes).2.reads := by
  rw [putUrdfPackage]
  cases call.meshes reader files with
  | error error => rfl
  | ok found =>
    obtain ⟨urdf, meshes⟩ := found
    dsimp only
    split
    next hloop => rw [hloop]
    next hloop => rw [hloop]

theorem putUrdfPackage_kept {registries : Registries} (data : StoreData registries)
    (reader : XmlReader) (files : Files) (call : UrdfCall) :
    ∀ read ∈ (putUrdfPackage data reader files call).2, read.Kept cwd call.packageDir := by
  rw [putUrdfPackage_reads]
  split
  · exact forall_mem_nil _
  · exact meshLoop_kept data call.appRoot call.packageDir call.substitutions cwd _
      (forall_mem_nil _)

/-- The element of one mesh. -/
def meshElement (quote : Char) (value : List Char) : List Char :=
  "<mesh filename=".toList ++ quote :: (value ++ quote :: "/>".toList)

/-- The reader reports the element of one mesh as it is written. -/
structure XmlReader.ReadsMesh (reader : XmlReader) : Prop where
  events : ∀ quote value, quote = '"' ∨ quote = '\'' → quote ∉ value →
    reader.events (meshElement quote value) =
      [.element 0 (meshElement quote value).length "mesh".toList [.ok ⟨filenameKey, value⟩]]

/-- A value that the attribute of a mesh can have in a URDF within the size cap. -/
def IsFilenameValue (value : List Char) : Prop :=
  ∃ quote, (quote = '"' ∨ quote = '\'') ∧ quote ∉ value ∧
    (utf8Bytes (meshElement quote value)).length ≤ maxBlobBytes

theorem fromUtf8_utf8Bytes : fromUtf8 (utf8Bytes text) = some text := by
  have hbyt : (⟨(utf8Bytes text).toArray⟩ : ByteArray) = (String.ofList text).toUTF8 := by
    rw [utf8Bytes, Array.toArray_toList]
  have hvalid : (String.ofList text).toUTF8.IsValidUTF8 := (String.ofList text).isValidUTF8
  rw [fromUtf8, hbyt, String.fromUTF8?, dif_pos hvalid]
  exact congrArg some (String.toList_ofList (l := text))

theorem filenameValueAt_of_ne {value text : List Char} {char : Char} (hchar : char ≠ 'f') :
    filenameValueAt value (char :: text) = none := by
  have hstr : stripPrefix filenameKey (char :: text) = none := by
    rw [stripPrefix, if_neg]
    rintro ⟨after, haft⟩
    exact hchar (List.cons.inj haft).1.symm
  rw [filenameValueAt, hstr]

theorem filenameValueSpan_meshElement {quote : Char} (value : List Char)
    (hquo : quote = '"' ∨ quote = '\'') :
    ∃ span, filenameValueSpan (meshElement quote value) value = some span := by
  have hval : ∃ offset, filenameValueAt value
      ("filename=".toList ++ quote :: (value ++ quote :: "/>".toList)) = some offset := by
    have hstr : stripPrefix filenameKey
        ("filename=".toList ++ quote :: (value ++ quote :: "/>".toList)) =
          some ('=' :: quote :: (value ++ quote :: "/>".toList)) := by
      rw [stripPrefix, if_pos]
      · rfl
      · exact ⟨_, rfl⟩
    have hqtS : isAsciiWhitespace quote = false := by
      cases hquo with
      | inl hquo =>
        rw [hquo]
        decide
      | inr hquo =>
        rw [hquo]
        decide
    have hequ : isAsciiWhitespace '=' = false := by decide
    have hpre : value ++ [quote] <+: value ++ quote :: "/>".toList := ⟨"/>".toList, by simp⟩
    rw [filenameValueAt, hstr]
    simp only [dropWhile_cons, hequ, hqtS, Bool.false_eq_true, if_false]
    rw [if_pos ⟨hquo, hpre⟩]
    exact ⟨_, rfl⟩
  obtain ⟨offset, hoff⟩ := hval
  have hele : meshElement quote value = '<' :: 'm' :: 'e' :: 's' :: 'h' :: ' ' ::
      ("filename=".toList ++ quote :: (value ++ quote :: "/>".toList)) := rfl
  have hspa : (some ' ').any isNameChar = false := by decide
  have hs : ∀ (before : Option Char) (position : ℕ) (char : Char) (rest : List Char),
      char ≠ 'f' → scanFilename value before position (char :: rest) =
        scanFilename value (some char) (position + 1) rest := by
    intro before position char rest hchar
    rw [scanFilename, filenameValueAt_of_ne hchar]
    split
    next hf =>
      split at hf
      · cases hf
      · cases hf
    · rfl
  rw [filenameValueSpan, hele, hs _ _ _ _ (by decide), hs _ _ _ _ (by decide),
    hs _ _ _ _ (by decide), hs _ _ _ _ (by decide), hs _ _ _ _ (by decide),
    hs _ _ _ _ (by decide)]
  have hcons : "filename=".toList ++ quote :: (value ++ quote :: "/>".toList) =
      'f' :: ("ilename=".toList ++ quote :: (value ++ quote :: "/>".toList)) := rfl
  rw [hcons] at hoff ⊢
  rw [scanFilename, hspa, if_neg Bool.false_ne_true, hoff]
  exact ⟨_, rfl⟩

theorem collectUrdfMeshFilenames_meshElement {reader : XmlReader} (hrea : reader.ReadsMesh)
    {quote : Char} {value : List Char} (hquo : quote = '"' ∨ quote = '\'')
    (hval : quote ∉ value) :
    ∃ start stop, collectUrdfMeshFilenames reader (meshElement quote value) =
      .ok [⟨start, stop, value⟩] := by
  obtain ⟨span, hspan⟩ := filenameValueSpan_meshElement value hquo
  refine ⟨0 + span.1, 0 + span.2, ?_⟩
  rw [collectUrdfMeshFilenames, hrea.events quote value hquo hval]
  simp only [collectEvents, collectAttributes, take_length, drop_zero, hspan,
    ne_eq, not_true_eq_false, if_false, Nat.not_lt_zero, lt_irrefl, or_self, Except.map,
    append_nil]

theorem components_cons_slash : components ('/' :: text) = components text := by
  rw [components, splitOn_cons_eq_if_modifyHead, if_pos (beq_self_eq_true '/')]
  rfl

theorem mem_absoluteRemainders {filename remainder : List Char}
    (hrem : remainder ∈ absoluteRemainders filename) :
    ∃ rest, stripPrefix packageScheme filename = some rest ∧ remainder.head? = some '/' ∧
      (remainder = rest ∨ ∃ pkg, splitOnceSlash rest = some (pkg, remainder)) := by
  rw [absoluteRemainders] at hrem
  cases hstr : stripPrefix packageScheme filename with
  | none =>
    rw [hstr] at hrem
    cases hrem
  | some rest =>
    rw [hstr] at hrem
    simp only [mem_filter, mem_cons, not_mem_nil, or_false, decide_eq_true_eq] at hrem
    obtain ⟨hm, hhead⟩ := hrem
    refine ⟨rest, rfl, hhead, ?_⟩
    cases hm with
    | inl hrest => exact .inl hrest
    | inr hrel =>
      cases hsp : splitOnceSlash rest with
      | none =>
        rw [hsp] at hrel
        simp [hrel] at hhead
      | some parts =>
        rw [hsp] at hrel
        exact .inr ⟨parts.1, by rw [hrel]; rfl⟩

theorem absoluteJoin_unique {filename left right : List Char}
    (hleft : left ∈ absoluteRemainders filename) (hrgt : right ∈ absoluteRemainders filename) :
    absoluteJoin left = absoluteJoin right := by
  obtain ⟨rest, hrest, hlef, hleft⟩ := mem_absoluteRemainders hleft
  obtain ⟨rest', hrest', hrig, hrgt⟩ := mem_absoluteRemainders hrgt
  cases hrest.symm.trans hrest'
  have hsm : ∀ {pkg relative : List Char}, splitOnceSlash rest = some (pkg, relative) →
      rest.head? = some '/' → absoluteJoin rest = absoluteJoin relative := by
    intro pkg relative hsp hhead
    obtain ⟨hpar, hpkg⟩ := splitOnceSlash_some hsp
    cases pkg with
    | nil =>
      rw [hpar, nil_append, absoluteJoin, absoluteJoin, components_cons_slash]
    | cons char pkg =>
      rw [hpar, cons_append, head?_cons, Option.some.injEq] at hhead
      rw [hhead] at hpkg
      exact absurd mem_cons_self hpkg
  obtain rfl | ⟨pkg, hsp⟩ := hleft
  · obtain rfl | ⟨pkg', hsplit'⟩ := hrgt
    · rfl
    · exact hsm hsplit' hlef
  · obtain rfl | ⟨pkg', hsplit'⟩ := hrgt
    · exact (hsm hsp hrig).symm
    · cases hsp.symm.trans hsplit'
      rfl

theorem absoluteJoin_mem_meshCandidates {packageDir : Path} {filename rel remainder : List Char}
    (hrem : remainder ∈ absoluteRemainders filename) :
    absoluteJoin remainder ∈ meshCandidates packageDir filename rel := by
  obtain ⟨rest, hrest, hhead, hrem⟩ := mem_absoluteRemainders hrem
  have hjoin : ∀ directory : Path, directory.join remainder = absoluteJoin remainder := by
    intro directory
    rw [Path.join, if_pos hhead]
    rfl
  have hnon : remainder ≠ [] := by
    rintro rfl
    cases hhead
  rw [meshCandidates, hrest]
  obtain rfl | ⟨pkg, hsp⟩ := hrem
  · simp [hjoin]
  · simp [hsp, hjoin, hnon]

theorem under_absolute {cwd : WorkingDirectory} {packageDir path : Path}
    (habs : path.head? = some rootComponent) (hpln : pathHasParentDir path = false) :
    Under cwd packageDir path ↔ resolveDots (absolutePath cwd packageDir) <+: path := by
  rw [Under]
  have hpath : absolutePath cwd path = path := if_pos habs
  rw [hpath, resolveDots_of_plain hpln]

/-- One of two files of the root is outside the package directory. -/
theorem exists_outside {cwd : WorkingDirectory} {packageDir path : Path}
    (habs : path.head? = some rootComponent) (hpln : pathHasParentDir path = false)
    (hout : ¬ Under cwd packageDir path) :
    ∃ name, (name = ['u'] ∨ name = ['v']) ∧ ¬ Under cwd packageDir [rootComponent, name] := by
  by_contra hins
  push Not at hins
  have hu := hins ['u'] (.inl rfl)
  have hv := hins ['v'] (.inr rfl)
  rw [under_absolute rfl (by decide)] at hu hv
  rw [under_absolute habs hpln] at hout
  apply hout
  obtain ⟨rest, rfl⟩ : ∃ rest, path = rootComponent :: rest := by
    cases path with
    | nil => cases habs
    | cons component rest =>
      rw [head?_cons, Option.some.injEq] at habs
      exact ⟨rest, by rw [habs]⟩
  generalize resolveDots (absolutePath cwd packageDir) = directory at hu hv
  cases directory with
  | nil => exact nil_prefix
  | cons component below =>
    rw [cons_prefix_cons] at hu hv ⊢
    refine ⟨hu.1, ?_⟩
    cases below with
    | nil => exact nil_prefix
    | cons next below =>
      rw [cons_prefix_cons] at hu hv
      rw [hu.2.1] at hv
      exact absurd hv.2.1 (by decide)

theorem find?_eq_some_of_unique {α : Type*} {p : α → Bool} {list : List α} {entry : α}
    (hm : entry ∈ list) (hent : p entry = true)
    (huniq : ∀ other ∈ list, p other = true → other = entry) : list.find? p = some entry := by
  cases hfind : list.find? p with
  | none => exact absurd hent (by simpa using find?_eq_none.mp hfind entry hm)
  | some found =>
    rw [huniq found (mem_of_find?_eq_some hfind) (find?_some hfind)]

/-- Two files with the same bytes. -/
def twoFiles (first second : Path) (bytes : List UInt8) : Files :=
  fun path => if path = first ∨ path = second then some bytes else none

/-- An absolute remainder is what a mesh is resolved to. -/
theorem resolveUrdfMesh_outside {cwd : WorkingDirectory} {packageDir urdfPath : Path}
    {filename remainder : List Char} (bytes : List UInt8)
    (hvalid : validateMeshRelPath (normalizeMeshRelPath filename) = .ok ())
    (hrem : remainder ∈ absoluteRemainders filename)
    (hpln : pathHasParentDir (absoluteJoin remainder) = false)
    (hurdf : ¬ Under cwd packageDir urdfPath) :
    resolveUrdfMesh (twoFiles urdfPath (absoluteJoin remainder) bytes) packageDir filename
      (normalizeMeshRelPath filename) = some (absoluteJoin remainder) := by
  rw [resolveUrdfMesh]
  refine find?_eq_some_of_unique (absoluteJoin_mem_meshCandidates hrem) ?_ ?_
  · simp [hpln, twoFiles]
  · intro other ho hfile
    rw [Bool.and_eq_true, Bool.not_eq_true'] at hfile
    obtain ⟨below, rfl, hbel⟩ | ⟨found, hf, rfl⟩ :=
      meshCandidates_cases (head?_ne_slash_of_validate hvalid) ho
    · have hund := under_append cwd hbel hfile.1
      have hexi := hfile.2
      rw [twoFiles] at hexi
      split at hexi
      next hsm =>
        cases hsm with
        | inl hsm => exact absurd (hsm ▸ hund) hurdf
        | inr hsm => exact hsm
      · cases hexi
    · exact absoluteJoin_unique hf hrem

/-- A call on the URDF of one mesh. -/
def oneMeshCall (packageDir urdfPath : Path) : UrdfCall :=
  ⟨[], urdfPath, none, some packageDir, fun _ => none⟩

theorem deviceModelId_oneMesh {reader : XmlReader} (hrea : reader.ReadsMesh)
    {quote : Char} {value : List Char} (hquo : quote = '"' ∨ quote = '\'')
    (hval : quote ∉ value) (packageDir : Path) (name : List Char) :
    (oneMeshCall packageDir [rootComponent, name]).deviceModelId reader
      (meshElement quote value) = "robot".toList := by
  have hrob : urdfRobotName reader (reader.events (meshElement quote value)) = none := by
    rw [hrea.events quote value hquo hval, urdfRobotName, if_pos (by decide), urdfRobotName]
  have hpar : parentName [rootComponent, name] = none := by
    simp [parentName, parentOr, rootComponent]
  simp [UrdfCall.deviceModelId, hrob, oneMeshCall, hpar]

/-- An absolute remainder makes the publisher read a file outside the package. -/
theorem reads_outside {reader : XmlReader} (hrea : reader.ReadsMesh)
    {cwd : WorkingDirectory} {packageDir : Path} {name filename remainder : List Char}
    {registries : Registries} (data : StoreData registries)
    {quote : Char} (hquo : quote = '"' ∨ quote = '\'') (hval : quote ∉ filename)
    (hsize : (utf8Bytes (meshElement quote filename)).length ≤ maxBlobBytes)
    (hvalid : validateMeshRelPath (normalizeMeshRelPath filename) = .ok ())
    (hrem : remainder ∈ absoluteRemainders filename)
    (hpln : pathHasParentDir (absoluteJoin remainder) = false)
    (hurdf : ¬ Under cwd packageDir [rootComponent, name]) :
    ⟨filename, false, absoluteJoin remainder⟩ ∈ (putUrdfPackage data reader
        (twoFiles [rootComponent, name] (absoluteJoin remainder)
          (utf8Bytes (meshElement quote filename)))
        (oneMeshCall packageDir [rootComponent, name])).2 := by
  obtain ⟨start, stop, hcol⟩ := collectUrdfMeshFilenames_meshElement hrea hquo hval
  have hread : readAtCapped (twoFiles [rootComponent, name] (absoluteJoin remainder)
      (utf8Bytes (meshElement quote filename))) [rootComponent, name] maxBlobBytes =
        .ok (some (utf8Bytes (meshElement quote filename))) := by
    have hfile : twoFiles [rootComponent, name] (absoluteJoin remainder)
        (utf8Bytes (meshElement quote filename)) [rootComponent, name] =
          some (utf8Bytes (meshElement quote filename)) := if_pos (.inl rfl)
    rw [readAtCapped, hfile]
    exact if_neg (Nat.not_lt.mpr hsize)
  have hid : validateRegistryId "robot".toList = .ok () := by decide +kernel
  have hmes : (oneMeshCall packageDir [rootComponent, name]).meshes reader
      (twoFiles [rootComponent, name] (absoluteJoin remainder)
        (utf8Bytes (meshElement quote filename))) =
        .ok (meshElement quote filename, [⟨start, stop, filename⟩]) := by
    have hpath : (oneMeshCall packageDir [rootComponent, name]).urdfPath =
        [rootComponent, name] := rfl
    simp only [UrdfCall.meshes, hpath, hread, fromUtf8_utf8Bytes,
      deviceModelId_oneMesh hrea hquo hval, hid, hcol, Except.map]
  have hloc : locateMesh packageDir (fun _ => none)
      (twoFiles [rootComponent, name] (absoluteJoin remainder)
        (utf8Bytes (meshElement quote filename))) filename =
        .ok (normalizeMeshRelPath filename, absoluteJoin remainder) := by
    simp only [locateMesh, substitutionOf, Option.or_none, hvalid,
      resolveUrdfMesh_outside _ hvalid hrem hpln hurdf]
  rw [putUrdfPackage_reads, hmes]
  dsimp only
  rw [UrdfCall.loop, reverse_singleton, meshLoop_singleton]
  have hrds := meshStep_reads_new data [] packageDir (fun _ => none)
    ⟨twoFiles [rootComponent, name] (absoluteJoin remainder)
      (utf8Bytes (meshElement quote filename)), meshElement quote filename, [], fun _ => none, []⟩
    ⟨start, stop, filename⟩ hloc rfl
  simp only [oneMeshCall, UrdfCall.packageDir, Option.getD_some]
  rw [hrds]
  exact mem_append_right _ (mem_singleton.mpr rfl)

/-- The reads stay below the package directory exactly for confined names. -/
theorem mesh_reads_confined_iff {registries : Registries} (data : StoreData registries)
    (reader : XmlReader) (hreader : reader.ReadsMesh) (cwd : WorkingDirectory)
    (packageDir : Path) (filename : List Char) (hfilename : IsFilenameValue filename) :
    (∀ files call, call.packageDir = packageDir →
        ∀ read ∈ (putUrdfPackage data reader files call).2, read.original = filename →
          read.substituted = false → Under cwd packageDir read.path) ↔
      IsConfined cwd packageDir filename := by
  constructor
  · intro hunder hvalid remainder hremainder
    by_contra hescapes
    rw [not_or, Bool.not_eq_true] at hescapes
    obtain ⟨quote, hquote, hvalue, hsize⟩ := hfilename
    obtain ⟨name, -, hurdf⟩ := exists_outside rfl hescapes.1 hescapes.2
    have hread := reads_outside hreader data hquote hvalue hsize hvalid hremainder hescapes.1
      hurdf
    exact hescapes.2 (hunder _ _ rfl _ hread rfl rfl)
  · rintro hconfined files call rfl read hread rfl hsubstituted
    exact putUrdfPackage_kept cwd data reader files call read hread hsubstituted hconfined

/-- A reader of elements with one attribute. -/
def oneMeshReader : XmlReader where
  events text :=
    match stripPrefix "<mesh filename=".toList text with
    | some (quote :: rest) =>
      [.element 0 text.length "mesh".toList [.ok ⟨filenameKey, rest.takeWhile (· ≠ quote)⟩]]
    | _ => []
  unescape := some

theorem oneMeshReader_readsMesh : oneMeshReader.ReadsMesh := by
  constructor
  intro quote value hquote hval
  have hstr : stripPrefix "<mesh filename=".toList (meshElement quote value) =
      some (quote :: (value ++ quote :: "/>".toList)) := by
    rw [stripPrefix, if_pos]
    · rfl
    · exact ⟨_, rfl⟩
  have htake : (value ++ quote :: "/>".toList).takeWhile (· ≠ quote) = value := by
    rw [takeWhile_append_of_pos, takeWhile_cons_of_neg]
    · exact append_nil value
    · simp
    · intro char hchar
      rw [decide_eq_true_eq]
      rintro rfl
      exact hval hchar
  simp only [oneMeshReader, hstr, htake]

/-- Registries without entries, and a hash that is not looked at. -/
def emptyRegistries : Registries :=
  ⟨fun _ => ⟨Unit, fun _ => .ok (), fun _ => [], fun _ => [], fun _ => [], fun _ => .ok ()⟩,
    fun _ => []⟩

def zeroHash : StoreData emptyRegistries :=
  ⟨fun _ => .ok (), fun _ => none, fun _ => [], fun _ => List.replicate 64 '0'⟩

def rootDirectory : WorkingDirectory := ⟨[rootComponent], rfl, by decide⟩

def robotPackage : Path := absoluteJoin "/home/robot/pkg".toList

def passwordFile : List Char := "package:///etc/passwd".toList

/-- A `package://` reference without a package name reads the named system file. -/
theorem system_file_is_read : ⟨passwordFile, false, absoluteJoin "/etc/passwd".toList⟩ ∈
        (putUrdfPackage zeroHash oneMeshReader
          (twoFiles [rootComponent, ['u']] (absoluteJoin "/etc/passwd".toList)
            (utf8Bytes (meshElement '"' passwordFile)))
          (oneMeshCall robotPackage [rootComponent, ['u']])).2 ∧
      ¬ Under rootDirectory robotPackage (absoluteJoin "/etc/passwd".toList) := by
  constructor
  · have hoff : ¬ Under rootDirectory robotPackage [rootComponent, ['u']] := by decide +kernel
    exact reads_outside oneMeshReader_readsMesh zeroHash (.inl rfl) (by decide)
      (by decide +kernel) (by rfl) (by decide +kernel) (by decide +kernel) hoff
  · decide +kernel

theorem mesh_reads_confined_iff_sample :
    IsConfined rootDirectory robotPackage "package://pkg/a.stl".toList ∧
      ∀ files call, call.packageDir = robotPackage →
        ∀ read ∈ (putUrdfPackage zeroHash oneMeshReader files call).2,
          read.original = "package://pkg/a.stl".toList → read.substituted = false →
          Under rootDirectory robotPackage read.path := by
  have hconfined : IsConfined rootDirectory robotPackage "package://pkg/a.stl".toList := by
    intro _ remainder hremainder
    have hnone : absoluteRemainders "package://pkg/a.stl".toList = [] := by decide +kernel
    rw [hnone] at hremainder
    cases hremainder
  exact ⟨hconfined, (mesh_reads_confined_iff zeroHash oneMeshReader oneMeshReader_readsMesh
    rootDirectory robotPackage "package://pkg/a.stl".toList
    ⟨'"', .inl rfl, by decide, by decide +kernel⟩).mpr hconfined⟩

end AukiSdk.Registry
