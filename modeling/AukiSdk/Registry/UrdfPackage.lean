import AukiSdk.Registry.ModelList

/-!
# URDF packages

`put_urdf_package`: a URDF and its meshes are put as blobs.
-/

namespace AukiSdk.Registry

open AukiSdk.Foundation

/-- An attribute as it is written: the value between its quotes. -/
structure XmlAttribute where
  key : List Char
  value : List Char
  deriving DecidableEq

/-- An event with the reader's positions. -/
inductive XmlEvent where
  | element (start stop : ℕ) (localName : List Char)
      (attributes : List (Except (List Char) XmlAttribute))
  | other
  | failed (message : List Char)

/-- What `quick_xml` is used for. -/
structure XmlReader where
  events : List Char → List XmlEvent
  unescape : List Char → Option (List Char)

/-- Why `validate_mesh_rel_path` rejects a path. -/
inductive MeshPathError where
  | empty
  | unsafeCharacter
  | absolute
  | reservedSegment
  | parentDirectory

/-- The errors of `put_urdf_package`. -/
inductive UrdfError where
  | registry (error : Error)
  | notFound (path : Path)
  | notUtf8
  | invalidDeviceModelId (error : RegistryIdError)
  | xml (message : List Char)
  | meshSpanOutOfRange
  | meshAttribute (message : List Char)
  | valueSpanNotFound (value : List Char)
  | meshPath (error : MeshPathError)
  | unresolvedMesh (filename : List Char)
  | differentFiles (path : List Char)
  | uriAfterRewrite (value : List Char)

structure MeshSubstitution where
  advertisedPath : List Char
  sourcePath : Path

structure MeshBlobRef where
  path : List Char
  sha256 : List Char

/-- `PutUrdfPackage`, with the fields of its body. -/
structure PutUrdfPackage where
  deviceModelId : List Char
  urdfSha256 : List Char
  meshes : List MeshBlobRef
  rootConvention : Option (List Char)

def stripPrefix (start text : List Char) : Option (List Char) :=
  if start <+: text then some (text.drop start.length) else none

variable (text : List Char)

/-- `str::split_once` at a slash. -/
def splitOnceSlash : Option (List Char × List Char) :=
  match text.dropWhile (· ≠ '/') with
  | [] => none
  | _ :: after => some (text.takeWhile (· ≠ '/'), after)

/-- `str::trim_start_matches` of slashes. -/
def trimSlashes : List Char :=
  text.dropWhile (· = '/')

variable (char : Char)

def isAsciiWhitespace : Bool :=
  char.toNat ∈ [0x20, 0x9, 0xa, 0xc, 0xd]

def replaceRange (start stop : ℕ) (value : List Char) : List Char :=
  text.take start ++ value ++ text.drop stop

/-- The bytes of a text. -/
def utf8Bytes : List UInt8 :=
  (String.ofList text).toUTF8.data.toList

def fromUtf8 (bytes : List UInt8) : Option (List Char) :=
  (String.fromUTF8? ⟨bytes.toArray⟩).map String.toList

/-- The scheme of a ROS package reference. -/
def packageScheme : List Char := "package://".toList

def normalizeMeshRelPath (path : List Char) : List Char :=
  let path := trimSlashes (trimText path)
  match stripPrefix packageScheme path with
  | none => path
  | some rest =>
    match splitOnceSlash rest with
    | some (_, relative) => trimSlashes relative
    | none => rest

/-- A character that must not be spliced into an attribute. -/
def isXmlUnsafe : Bool :=
  char ∈ ['"', '\'', '<', '>', '&', '\\'] || char.toNat < 0x20

def validateMeshRelPath (rel : List Char) : Except MeshPathError Unit :=
  if rel = [] then
    .error .empty
  else if rel.any isXmlUnsafe then
    .error .unsafeCharacter
  else if rel.head? = some '/' then
    .error .absolute
  else if (rel.splitOn '/').any isReservedSegment then
    .error .reservedSegment
  else if ['.', '.'] ∈ components rel then
    .error .parentDirectory
  else
    .ok ()

def pathHasParentDir (path : Path) : Bool :=
  ['.', '.'] ∈ path

/-- The candidates of `resolve_urdf_mesh`. -/
def meshCandidates (packageDir : Path) (original rel : List Char) : List Path :=
  packageDir.join rel ::
    match stripPrefix packageScheme original with
    | none => []
    | some rest =>
      let (pkg, relative) := (splitOnceSlash rest).getD (rest, [])
      packageDir.join rest ::
        if relative = [] then [] else [(packageDir.join pkg).join relative]

def resolveUrdfMesh (files : Files) (packageDir : Path) (original rel : List Char) :
    Option Path :=
  (meshCandidates packageDir original rel).find? fun path =>
    !pathHasParentDir path && (files path).isSome

/-- `filename`, the attribute that is looked for. -/
def filenameKey : List Char := "filename".toList

/-- The offset of the value when an attribute `filename` with this value starts here. -/
def filenameValueAt (rawValue text : List Char) : Option ℕ :=
  match stripPrefix filenameKey text with
  | none => none
  | some after =>
    match after.dropWhile isAsciiWhitespace with
    | '=' :: following =>
      match following.dropWhile isAsciiWhitespace with
      | [] => none
      | quote :: value =>
        if (quote = '"' ∨ quote = '\'') ∧ rawValue ++ [quote] <+: value then
          some (text.length - value.length)
        else
          none
    | _ => none

/-- A character that an attribute name may have before `filename`. -/
def isNameChar : Bool :=
  char.isAlphanum || char ∈ ['_', '-', ':']

/-- The scan of `filename_value_span`. -/
def scanFilename (rawValue : List Char) : Option Char → ℕ → List Char → Option (ℕ × ℕ)
  | _, _, [] => none
  | before, position, char :: rest =>
    match if before.any isNameChar then none else filenameValueAt rawValue (char :: rest) with
    | some offset => some (position + offset, position + offset + rawValue.length)
    | none => scanFilename rawValue (some char) (position + 1) rest

def filenameValueSpan (element rawValue : List Char) : Option (ℕ × ℕ) :=
  scanFilename rawValue none 0 element

/-- A mesh file name and where its value is. -/
structure MeshRef where
  start : ℕ
  stop : ℕ
  original : List Char
  deriving DecidableEq

/-- The attribute loop of `collect_urdf_mesh_filenames`. -/
def collectAttributes (start : ℕ) (element : List Char) :
    List (Except (List Char) XmlAttribute) → Except UrdfError (List MeshRef)
  | [] => .ok []
  | .error message :: _ => .error (.meshAttribute message)
  | .ok found :: rest =>
    if found.key ≠ filenameKey then
      collectAttributes start element rest
    else
      match filenameValueSpan element found.value with
      | none => .error (.valueSpanNotFound found.value)
      | some (relStart, relStop) =>
        (collectAttributes start element rest).map
          (⟨start + relStart, start + relStop, found.value⟩ :: ·)

/-- The event loop of `collect_urdf_mesh_filenames`. -/
def collectEvents (urdf : List Char) : List XmlEvent → Except UrdfError (List MeshRef)
  | [] => .ok []
  | .failed message :: _ => .error (.xml message)
  | .other :: rest => collectEvents urdf rest
  | .element start stop localName attributes :: rest =>
    if localName ≠ "mesh".toList then
      collectEvents urdf rest
    else if stop < start ∨ urdf.length < stop then
      .error .meshSpanOutOfRange
    else
      match collectAttributes start ((urdf.take stop).drop start) attributes with
      | .error error => .error error
      | .ok found => (collectEvents urdf rest).map (found ++ ·)

def collectUrdfMeshFilenames (reader : XmlReader) (urdf : List Char) :
    Except UrdfError (List MeshRef) :=
  collectEvents urdf (reader.events urdf)

/-- The name in the attributes of a robot element. -/
def robotNameIn (reader : XmlReader) :
    List (Except (List Char) XmlAttribute) → Option (List Char)
  | [] => none
  | .error _ :: rest => robotNameIn reader rest
  | .ok found :: rest =>
    if found.key ≠ "name".toList then
      robotNameIn reader rest
    else
      match reader.unescape found.value with
      | none => robotNameIn reader rest
      | some value =>
        let name := (trimText value).map Char.toLower
        if name = [] then robotNameIn reader rest else some name

def urdfRobotName (reader : XmlReader) : List XmlEvent → Option (List Char)
  | [] => none
  | .failed _ :: _ => none
  | .other :: rest => urdfRobotName reader rest
  | .element _ _ localName attributes :: rest =>
    if localName ≠ "robot".toList then
      urdfRobotName reader rest
    else
      match robotNameIn reader attributes with
      | some name => some name
      | none => urdfRobotName reader rest

/-- A file that the mesh loop reads, and for which mesh. -/
structure MeshRead where
  original : List Char
  substituted : Bool
  path : Path
  deriving DecidableEq

/-- The variables of the mesh loop, and the files it has read. -/
structure MeshLoop where
  files : Files
  rewritten : List Char
  meshes : List MeshBlobRef
  seenPaths : List Char → Option Path
  reads : List MeshRead

section Package

variable {registries : Registries} (data : StoreData registries) (appRoot packageDir : Path)
  (substitutions : List Char → Option MeshSubstitution)

/-- The substitution of a mesh: by its file name, else by its normalized path. -/
def substitutionOf (original : List Char) : Option MeshSubstitution :=
  (substitutions original).or (substitutions (normalizeMeshRelPath original))

/-- The advertised path of a mesh and the file with its bytes. -/
def locateMesh (files : Files) (original : List Char) : Except UrdfError (List Char × Path) :=
  let rel := normalizeMeshRelPath original
  match substitutionOf substitutions original with
  | some substitution =>
    match validateMeshRelPath substitution.advertisedPath with
    | .error error => .error (.meshPath error)
    | .ok () => .ok (substitution.advertisedPath, substitution.sourcePath)
  | none =>
    match validateMeshRelPath rel with
    | .error error => .error (.meshPath error)
    | .ok () =>
      match resolveUrdfMesh files packageDir original rel with
      | none => .error (.unresolvedMesh original)
      | some resolved => .ok (rel, resolved)

/-- One turn of the mesh loop. -/
def meshStep (loop : MeshLoop) (mesh : MeshRef) : Option UrdfError × MeshLoop :=
  match locateMesh packageDir substitutions loop.files mesh.original with
  | .error error => (some error, loop)
  | .ok (advertised, resolved) =>
    let loop :=
      { loop with rewritten := replaceRange loop.rewritten mesh.start mesh.stop advertised }
    match loop.seenPaths advertised with
    | some previous =>
      if previous ≠ resolved then (some (.differentFiles advertised), loop) else (none, loop)
    | none =>
      let substituted := (substitutionOf substitutions mesh.original).isSome
      let loop :=
        { loop with reads := loop.reads ++ [⟨mesh.original, substituted, resolved⟩] }
      match readAtCapped loop.files resolved maxBlobBytes with
      | .error error => (some (.registry error), loop)
      | .ok none => (some (.notFound resolved), loop)
      | .ok (some bytes) =>
        match putBlob data loop.files appRoot bytes with
        | .error error => (some (.registry error), loop)
        | .ok (files, sha256) =>
          (none,
            { loop with
              files
              seenPaths := Function.update loop.seenPaths advertised (some resolved)
              meshes := loop.meshes ++ [⟨advertised, sha256⟩] })

/-- The mesh loop over the remaining meshes. -/
def meshLoop : List MeshRef → MeshLoop → Option UrdfError × MeshLoop
  | [], loop => (none, loop)
  | mesh :: rest, loop =>
    match meshStep data appRoot packageDir substitutions loop mesh with
    | (some error, loop) => (some error, loop)
    | (none, loop) => meshLoop rest loop

/-- The check of the rewritten file names. -/
def checkRewritten : List MeshRef → Except UrdfError Unit
  | [] => .ok ()
  | mesh :: rest =>
    if "://".toList <:+: mesh.original then
      .error (.uriAfterRewrite mesh.original)
    else
      match validateMeshRelPath mesh.original with
      | .error error => .error (.meshPath error)
      | .ok () => checkRewritten rest

/-- The order of `str::cmp`. -/
def sortMeshes (meshes : List MeshBlobRef) : List MeshBlobRef :=
  meshes.insertionSort fun left right => String.ofList left.path ≤ String.ofList right.path

/-- What `put_urdf_package` does after the mesh loop. -/
def finishPackage (reader : XmlReader) (deviceModelId : List Char)
    (rootConvention : Option (List Char)) (loop : MeshLoop) :
    Except UrdfError (Files × PutUrdfPackage) :=
  match collectUrdfMeshFilenames reader loop.rewritten with
  | .error error => .error error
  | .ok rewrittenRefs =>
    match checkRewritten rewrittenRefs with
    | .error error => .error error
    | .ok () =>
      match putBlob data loop.files appRoot (utf8Bytes loop.rewritten) with
      | .error error => .error (.registry error)
      | .ok (files, urdfSha256) =>
        .ok (files, ⟨deviceModelId, urdfSha256, sortMeshes loop.meshes, rootConvention⟩)

end Package

/-- `Path::parent`, or the working directory. -/
def parentOr (path : Path) : Path :=
  if path = [['/']] then [] else path.dropLast

/-- `Path::file_name` of the parent, in lower case. -/
def parentName (urdfPath : Path) : Option (List Char) :=
  match (parentOr urdfPath).getLast? with
  | none => none
  | some name => if name = ['/'] ∨ name = ['.', '.'] then none else some (name.map Char.toLower)

/-- The arguments of `put_urdf_package`. -/
structure UrdfCall where
  appRoot : Path
  urdfPath : Path
  rootConvention : Option (List Char)
  packageRoot : Option Path
  substitutions : List Char → Option MeshSubstitution

variable (call : UrdfCall)

/-- The package directory of a call. -/
def UrdfCall.packageDir : Path :=
  call.packageRoot.getD (parentOr call.urdfPath)

/-- The id of the device model of a URDF. -/
def UrdfCall.deviceModelId (reader : XmlReader) (urdf : List Char) :
    List Char :=
  (((urdfRobotName reader (reader.events urdf)).or (parentName call.urdfPath)).filter
    (· ≠ [])).getD "robot".toList

/-- The text of the URDF and its meshes, before anything is written. -/
def UrdfCall.meshes (reader : XmlReader) (files : Files) :
    Except UrdfError (List Char × List MeshRef) :=
  match readAtCapped files call.urdfPath maxBlobBytes with
  | .error error => .error (.registry error)
  | .ok none => .error (.notFound call.urdfPath)
  | .ok (some bytes) =>
    match fromUtf8 bytes with
    | none => .error .notUtf8
    | some urdf =>
      match validateRegistryId (call.deviceModelId reader urdf) with
      | .error error => .error (.invalidDeviceModelId error)
      | .ok () => (collectUrdfMeshFilenames reader urdf).map (urdf, ·)

/-- The mesh loop of a call: it goes from the last mesh to the first. -/
def UrdfCall.loop {registries : Registries} (data : StoreData registries) (files : Files)
    (urdf : List Char) (meshes : List MeshRef) : Option UrdfError × MeshLoop :=
  meshLoop data call.appRoot call.packageDir call.substitutions meshes.reverse
    ⟨files, urdf, [], fun _ => none, []⟩

/-- `put_urdf_package`, with the mesh files it has read. -/
def putUrdfPackage {registries : Registries} (data : StoreData registries) (reader : XmlReader)
    (files : Files) (call : UrdfCall) :
    Except UrdfError (Files × PutUrdfPackage) × List MeshRead :=
  match call.meshes reader files with
  | .error error => (.error error, [])
  | .ok (urdf, meshes) =>
    match call.loop data files urdf meshes with
    | (some error, loop) => (.error error, loop.reads)
    | (none, loop) =>
      (finishPackage data call.appRoot reader (call.deviceModelId reader urdf)
        call.rootConvention loop, loop.reads)

end AukiSdk.Registry
