import Mathlib

/-!
# The on-disk layout

Paths of registry entries and of session logs.
-/

namespace AukiSdk.Registry

open List

inductive RegistryIdError where
  | empty
  | disallowedChar (char : Char)
  | reservedPathSegment (segment : List Char)
  deriving DecidableEq

variable (char : Char)

/-- `char::is_whitespace`: the Unicode property `White_Space`. -/
def isWhitespace : Bool :=
  (0x9 ≤ char.val && char.val ≤ 0xD) || char.val = 0x20 || char.val = 0x85 ||
    char.val = 0xA0 || char.val = 0x1680 || (0x2000 ≤ char.val && char.val ≤ 0x200A) ||
    char.val = 0x2028 || char.val = 0x2029 || char.val = 0x202F || char.val = 0x205F ||
    char.val = 0x3000

def isDisallowed : Bool :=
  char = '>' || char = '@' || isWhitespace char

def isReservedSegment (segment : List Char) : Bool :=
  segment = [] || segment = ['.'] || segment = ['.', '.']

def validateRegistryId (id : List Char) : Except RegistryIdError Unit :=
  if id = [] then
    .error .empty
  else
    match id.find? isDisallowed with
    | some char => .error (.disallowedChar char)
    | none =>
      match (id.splitOn '/').find? isReservedSegment with
      | some segment => .error (.reservedPathSegment segment)
      | none => .ok ()

instance : DecidableEq (Except RegistryIdError Unit)
  | .ok (), .ok () => .isTrue rfl
  | .error left, .error right =>
    if h : left = right then .isTrue (congrArg _ h) else .isFalse fun heq => h (by cases heq; rfl)
  | .ok _, .error _ => .isFalse fun heq => by cases heq
  | .error _, .ok _ => .isFalse fun heq => by cases heq

/-- `is_registry_entry_hash`: 32 lowercase hexadecimal digits. -/
def isRegistryEntryHash (value : List Char) : Bool :=
  value.length = 32 && value.all fun char => char.isDigit || ('a' ≤ char && char ≤ 'f')

def idToSegment (id : List Char) : List Char :=
  id.flatMap fun char => if char = '/' then ['_', '_'] else [char]

/-- The components of a path; an absolute path starts with the root component. -/
abbrev Path := List (List Char)

/-- The components a relative text adds to a path. -/
def components (text : List Char) : Path :=
  (text.splitOn '/').filter fun component => component ≠ [] && component ≠ ['.']

/-- `Path::join`: an absolute text replaces the path. -/
def Path.join (path : Path) (text : List Char) : Path :=
  if text.head? = some '/' then ['/'] :: components text else path ++ components text

inductive RegistryKind where
  | sensor
  | clock
  | frame
  | detector
  | map
  | deviceModel
  deriving DecidableEq

/-- The directory of a registry. -/
def RegistryKind.directory : RegistryKind → List Char
  | .sensor => "sensors".toList
  | .clock => "clocks".toList
  | .frame => "frames".toList
  | .detector => "detectors".toList
  | .map => "maps".toList
  | .deviceModel => "device_models".toList

variable (appRoot : Path)

def registriesRoot : Path :=
  appRoot.join "registries".toList

variable (kind : RegistryKind)

/-- `sensor_entry_path` and its siblings, which differ in the directory only. -/
def entryPath (appRoot : Path) (peerId id hash : List Char) : Path :=
  ((((registriesRoot appRoot).join kind.directory).join (idToSegment peerId)).join
    (idToSegment id)).join (hash ++ ".json".toList)

def sensorEntryPath := entryPath .sensor
def clockEntryPath := entryPath .clock
def frameEntryPath := entryPath .frame
def detectorEntryPath := entryPath .detector
def mapEntryPath := entryPath .map
def deviceModelEntryPath := entryPath .deviceModel

def sessionRoot (session : List Char) : Path :=
  appRoot.join session

/-- The session logs that are named by two identifiers. -/
inductive LogKind where
  | timetransform
  | pose
  | detection
  deriving DecidableEq

def LogKind.directory : LogKind → List Char
  | .timetransform => "timetransform_logs".toList
  | .pose => "poselogs".toList
  | .detection => "detection_logs".toList

/-- `timetransform_log_path` and its siblings, which differ in the directory
only. -/
def pairPath (kind : LogKind) (session : Path) (fromId toId : List Char) : Path :=
  (session.join kind.directory).join
    (idToSegment fromId ++ "__".toList ++ idToSegment toId)

def timetransformLogPath := pairPath .timetransform
def poselogPath := pairPath .pose
def detectionLogPath := pairPath .detection

/-- What the layout gives a path to. -/
inductive Resource where
  | entry (kind : RegistryKind) (peerId id hash : List Char)
  | log (kind : LogKind) (session fromId toId : List Char)
  deriving DecidableEq

def Resource.path : Resource → Path
  | .entry .sensor peerId id hash => sensorEntryPath appRoot peerId id hash
  | .entry .clock peerId id hash => clockEntryPath appRoot peerId id hash
  | .entry .frame peerId id hash => frameEntryPath appRoot peerId id hash
  | .entry .detector peerId id hash => detectorEntryPath appRoot peerId id hash
  | .entry .map peerId id hash => mapEntryPath appRoot peerId id hash
  | .entry .deviceModel peerId id hash => deviceModelEntryPath appRoot peerId id hash
  | .log .timetransform session fromId toId =>
    timetransformLogPath (sessionRoot appRoot session) fromId toId
  | .log .pose session fromId toId => poselogPath (sessionRoot appRoot session) fromId toId
  | .log .detection session fromId toId =>
    detectionLogPath (sessionRoot appRoot session) fromId toId

/-- One directory name. -/
def IsDirectoryName (text : List Char) : Prop :=
  '/' ∉ text ∧ isReservedSegment text = false

instance (text : List Char) : Decidable (IsDirectoryName text) :=
  inferInstanceAs (Decidable (_ ∧ _))

/-- Identifiers and hash are valid, and the session is one directory. -/
def Resource.Valid : Resource → Prop
  | .entry _ peerId id hash =>
    validateRegistryId peerId = .ok () ∧ validateRegistryId id = .ok () ∧
      isRegistryEntryHash hash = true
  | .log _ session fromId toId =>
    IsDirectoryName session ∧ validateRegistryId fromId = .ok () ∧
      validateRegistryId toId = .ok ()

/-- Neither path equals the other or lies inside it. -/
def Separate (left right : Path) : Prop :=
  ¬ left <+: right ∧ ¬ right <+: left

/-- One `/` of the left text is `__` in the right one. -/
def Respelled (left right : List Char) : Prop :=
  ∃ before after, left = before ++ '/' :: after ∧ right = before ++ '_' :: '_' :: after

/-- The texts are equal up to exchanging `/` and `__`. -/
def Confusable : List Char → List Char → Prop :=
  Relation.EqvGen Respelled

/-- The texts that name two resources are confusable. -/
def Resource.Confusable : Resource → Resource → Prop
  | .entry kind peerId id hash, .entry kind' peerId' id' hash' =>
    kind = kind' ∧ Registry.Confusable peerId peerId' ∧ Registry.Confusable id id' ∧
      hash = hash'
  | .log kind session fromId toId, .log kind' session' fromId' toId' =>
    kind = kind' ∧ session = session' ∧
      Registry.Confusable (fromId ++ '/' :: toId) (fromId' ++ '/' :: toId')
  | _, _ => False

@[simp]
theorem idToSegment_nil : idToSegment [] = [] := rfl

theorem idToSegment_append (left right : List Char) :
    idToSegment (left ++ right) = idToSegment left ++ idToSegment right :=
  flatMap_append

theorem idToSegment_cons_slash (rest : List Char) :
    idToSegment ('/' :: rest) = '_' :: '_' :: idToSegment rest := rfl

theorem idToSegment_cons_of_ne {char : Char} (hne : char ≠ '/') (rest : List Char) :
    idToSegment (char :: rest) = char :: idToSegment rest := by
  rw [idToSegment, flatMap_cons, if_neg hne]
  rfl

theorem slash_notMem_idToSegment (id : List Char) : '/' ∉ idToSegment id := by
  intro hm
  obtain ⟨char, -, hchar⟩ := mem_flatMap.mp hm
  split at hchar
  · revert hchar
    decide
  · rename_i hne
    exact hne (mem_singleton.mp hchar).symm

variable {id : List Char}

theorem idToSegment_eq_self (hsl : '/' ∉ id) : idToSegment id = id := by
  induction id with
  | nil => rfl
  | cons char rest ih =>
    rw [mem_cons, not_or] at hsl
    rw [idToSegment_cons_of_ne (fun heq => hsl.1 heq.symm), ih hsl.2]

theorem underscore_mem_idToSegment (hsl : '/' ∈ id) : '_' ∈ idToSegment id :=
  mem_flatMap.mpr ⟨'/', hsl, by decide⟩

variable {right left : List Char}

theorem respelled_cons (h : Respelled left right) : Respelled (char :: left) (char :: right) := by
  obtain ⟨before, after, rfl, rfl⟩ := h
  exact ⟨char :: before, after, rfl, rfl⟩

theorem Confusable.cons (char : Char) (h : Confusable left right) :
    Confusable (char :: left) (char :: right) := by
  induction h with
  | rel left right h => exact .rel _ _ (respelled_cons char h)
  | refl text => exact .refl _
  | symm left right _ ih => exact .symm _ _ ih
  | trans left middle right _ _ first second => exact .trans _ _ _ first second

theorem confusable_idToSegment (id : List Char) : Confusable id (idToSegment id) := by
  induction id with
  | nil => exact .refl _
  | cons char rest ih =>
    by_cases hsl : char = '/'
    · subst hsl
      rw [idToSegment_cons_slash]
      exact .trans _ _ _ (.rel _ _ ⟨[], rest, rfl, rfl⟩) ((ih.cons '_').cons '_')
    · rw [idToSegment_cons_of_ne hsl]
      exact ih.cons char

theorem idToSegment_eq_iff : idToSegment left = idToSegment right ↔ Confusable left right := by
  constructor
  · intro heq
    have hrgt := (confusable_idToSegment right).symm
    rw [← heq] at hrgt
    exact .trans _ _ _ (confusable_idToSegment left) hrgt
  · intro h
    induction h with
    | rel left right h =>
      obtain ⟨before, after, rfl, rfl⟩ := h
      rw [idToSegment_append, idToSegment_append]
      rfl
    | refl text => rfl
    | symm left right _ ih => exact ih.symm
    | trans left middle right _ _ first second => exact first.trans second

theorem idToSegment_pair (fromId toId : List Char) :
    idToSegment fromId ++ "__".toList ++ idToSegment toId =
      idToSegment (fromId ++ '/' :: toId) := by
  rw [idToSegment_append, idToSegment_cons_slash, append_assoc]
  rfl

theorem components_of_directoryName {text : List Char} (htext : IsDirectoryName text) :
    components text = [text] := by
  have hsp : text.splitOn '/' = [text] := by
    apply splitOnP_eq_singleton
    intro char hchar
    rw [beq_eq_false_iff_ne]
    rintro rfl
    exact htext.1 hchar
  have hresv := htext.2
  simp only [isReservedSegment, Bool.or_eq_false_iff, decide_eq_false_iff_not] at hresv
  rw [components, hsp, filter_cons_of_pos]
  · rfl
  · simp [hresv.1.1, hresv.1.2]

theorem Path.join_of_directoryName (path : Path) {text : List Char}
    (htext : IsDirectoryName text) : path.join text = path ++ [text] := by
  have hhead : text.head? ≠ some '/' := by
    intro hhead
    exact htext.1 (mem_of_mem_head? hhead)
  rw [Path.join, if_neg hhead, components_of_directoryName htext]

theorem isDirectoryName_idToSegment (hid : validateRegistryId id = .ok ()) :
    IsDirectoryName (idToSegment id) := by
  refine ⟨slash_notMem_idToSegment id, ?_⟩
  by_contra hresv
  rw [Bool.not_eq_false] at hresv
  have hcas : idToSegment id = [] ∨ idToSegment id = ['.'] ∨ idToSegment id = ['.', '.'] := by
    simpa [isReservedSegment, or_assoc] using hresv
  -- None of the reserved names holds an underscore, so nothing was replaced.
  have hsl : '/' ∉ id := by
    intro hsl
    have hm := underscore_mem_idToSegment hsl
    rcases hcas with heq | heq | heq
    all_goals
      rw [heq] at hm
      revert hm
      decide
  rw [idToSegment_eq_self hsl] at hcas
  rcases hcas with rfl | rfl | rfl
  all_goals
    revert hid
    decide

theorem isDirectoryName_pair (fromId toId : List Char) :
    IsDirectoryName (idToSegment fromId ++ "__".toList ++ idToSegment toId) := by
  have hm : '_' ∈ idToSegment fromId ++ "__".toList ++ idToSegment toId := by
    apply mem_append_left
    apply mem_append_right
    decide
  constructor
  · rw [idToSegment_pair]
    exact slash_notMem_idToSegment _
  · generalize idToSegment fromId ++ "__".toList ++ idToSegment toId = text at hm
    by_contra hresv
    rw [Bool.not_eq_false] at hresv
    have hcas : text = [] ∨ text = ['.'] ∨ text = ['.', '.'] := by
      simpa [isReservedSegment, or_assoc] using hresv
    rcases hcas with rfl | rfl | rfl
    all_goals
      revert hm
      decide

theorem isDirectoryName_hash {hash : List Char} (hhash : isRegistryEntryHash hash = true) :
    IsDirectoryName (hash ++ ".json".toList) := by
  simp only [isRegistryEntryHash, Bool.and_eq_true, decide_eq_true_eq, all_eq_true] at hhash
  constructor
  · rw [mem_append, not_or]
    refine ⟨?_, by decide⟩
    intro hm
    have hdig := hhash.2 '/' hm
    revert hdig
    decide
  · have hlen : (hash ++ ".json".toList).length = 37 := by
      rw [length_append, hhash.1]
      rfl
    generalize hash ++ ".json".toList = text at hlen
    by_contra hresv
    rw [Bool.not_eq_false] at hresv
    have hcas : text = [] ∨ text = ['.'] ∨ text = ['.', '.'] := by
      simpa [isReservedSegment, or_assoc] using hresv
    rcases hcas with rfl | rfl | rfl
    all_goals
      revert hlen
      decide

theorem isDirectoryName_kind : IsDirectoryName kind.directory := by
  cases kind <;> decide

theorem isDirectoryName_logKind (kind : LogKind) : IsDirectoryName kind.directory := by
  cases kind <;> decide

/-- The components of a resource under the application root. -/
def Resource.names : Resource → Path
  | .entry kind peerId id hash =>
    ["registries".toList, kind.directory, idToSegment peerId, idToSegment id,
      hash ++ ".json".toList]
  | .log kind session fromId toId =>
    [session, kind.directory, idToSegment (fromId ++ '/' :: toId)]

theorem entryPath_eq (appRoot : Path) {peerId hash : List Char}
    (hpeer : validateRegistryId peerId = .ok ()) (hid : validateRegistryId id = .ok ())
    (hhash : isRegistryEntryHash hash = true) :
    entryPath kind appRoot peerId id hash =
      appRoot ++ (Resource.entry kind peerId id hash).names := by
  have hroot : IsDirectoryName "registries".toList := by decide
  rw [entryPath, registriesRoot, Path.join_of_directoryName _ hroot,
    Path.join_of_directoryName _ (isDirectoryName_kind kind),
    Path.join_of_directoryName _ (isDirectoryName_idToSegment hpeer),
    Path.join_of_directoryName _ (isDirectoryName_idToSegment hid),
    Path.join_of_directoryName _ (isDirectoryName_hash hhash)]
  simp only [append_assoc, cons_append, nil_append, Resource.names]

theorem pairPath_eq (kind : LogKind) (appRoot : Path) {session fromId toId : List Char}
    (hsess : IsDirectoryName session) :
    pairPath kind (sessionRoot appRoot session) fromId toId =
      appRoot ++ (Resource.log kind session fromId toId).names := by
  rw [pairPath, sessionRoot, Path.join_of_directoryName _ hsess,
    Path.join_of_directoryName _ (isDirectoryName_logKind kind),
    Path.join_of_directoryName _ (isDirectoryName_pair fromId toId), idToSegment_pair]
  simp only [append_assoc, cons_append, nil_append, Resource.names]

theorem Resource.path_eq {resource : Resource} (hval : resource.Valid) :
    resource.path appRoot = appRoot ++ resource.names := by
  cases resource with
  | entry kind peerId id hash =>
    cases kind <;> exact entryPath_eq _ appRoot hval.1 hval.2.1 hval.2.2
  | log kind session fromId toId =>
    cases kind <;> exact pairPath_eq _ appRoot hval.1

theorem RegistryKind.directory_injective : Function.Injective RegistryKind.directory := by
  intro left right heq
  cases left <;> cases right <;> first | rfl | (revert heq; decide)

theorem LogKind.directory_injective : Function.Injective LogKind.directory := by
  intro left right heq
  cases left <;> cases right <;> first | rfl | (revert heq; decide)

theorem RegistryKind.directory_ne (logKind : LogKind) : kind.directory ≠ logKind.directory := by
  cases kind <;> cases logKind <;> decide

theorem names_prefix_iff {left right : Resource} :
    left.names <+: right.names ↔ left.Confusable right := by
  cases left with
  | entry kind peerId id hash =>
    cases right with
    | entry kind' peerId' id' hash' =>
      simp only [Resource.names, Resource.Confusable, cons_prefix_cons,
        prefix_rfl, and_true, true_and, RegistryKind.directory_injective.eq_iff,
        idToSegment_eq_iff, append_left_inj]
    | log kind' session' fromId' toId' =>
      simp only [Resource.names, Resource.Confusable, cons_prefix_cons,
        RegistryKind.directory_ne, false_and, and_false]
  | log kind session fromId toId =>
    cases right with
    | entry kind' peerId' id' hash' =>
      simp only [Resource.names, Resource.Confusable, cons_prefix_cons,
        (RegistryKind.directory_ne kind' kind).symm, false_and, and_false]
    | log kind' session' fromId' toId' =>
      simp only [Resource.names, Resource.Confusable, cons_prefix_cons,
        prefix_rfl, and_true, LogKind.directory_injective.eq_iff,
        idToSegment_eq_iff]
      tauto

theorem Resource.Confusable.symm {left right : Resource} (h : left.Confusable right) :
    right.Confusable left := by
  cases left with
  | entry kind peerId id hash =>
    cases right with
    | entry kind' peerId' id' hash' =>
      exact ⟨h.1.symm, .symm _ _ h.2.1, .symm _ _ h.2.2.1, h.2.2.2.symm⟩
    | log kind' session' fromId' toId' => exact h
  | log kind session fromId toId =>
    cases right with
    | entry kind' peerId' id' hash' => exact h
    | log kind' session' fromId' toId' => exact ⟨h.1.symm, h.2.1.symm, .symm _ _ h.2.2⟩

/-- Names share no storage exactly when they differ beyond `/` and `__`. -/
theorem layout_separate_iff (appRoot : Path) (left right : Resource) (hleft : left.Valid)
    (hright : right.Valid) :
    Separate (left.path appRoot) (right.path appRoot) ↔ ¬ left.Confusable right := by
  rw [Separate, Resource.path_eq appRoot hleft, Resource.path_eq appRoot hright,
    prefix_append_right_inj, prefix_append_right_inj, names_prefix_iff, names_prefix_iff]
  exact ⟨fun h => h.1, fun h => ⟨h, fun hsymm => h hsymm.symm⟩⟩

def samplePoseLog (fromId toId : String) : Resource :=
  .log .pose "abc-123".toList fromId.toList toId.toList

theorem layout_separate_iff_sample : Separate ((samplePoseLog "base" "camera").path [])
      ((samplePoseLog "camera" "base").path []) := by
  have hvalid : ∀ fromId toId : String, validateRegistryId fromId.toList = .ok () →
      validateRegistryId toId.toList = .ok () → (samplePoseLog fromId toId).Valid :=
    fun fromId toId hfrom hto => ⟨by decide, hfrom, hto⟩
  apply (layout_separate_iff [] _ _ (hvalid _ _ (by decide) (by decide))
    (hvalid _ _ (by decide) (by decide))).mpr
  rintro ⟨-, -, hconfusable⟩
  have heq := idToSegment_eq_iff.mpr hconfusable
  revert heq
  decide

/-- Different pairs of frames, and different sensors, on one path. -/
theorem layout_paths_collide : (samplePoseLog "a/b" "c" ≠ samplePoseLog "a" "b/c" ∧
      (samplePoseLog "a/b" "c").Valid ∧ (samplePoseLog "a" "b/c").Valid ∧
      (samplePoseLog "a/b" "c").path [] = (samplePoseLog "a" "b/c").path []) ∧
    ∀ hash, isRegistryEntryHash hash = true →
      Resource.entry .sensor "peer".toList "a/b".toList hash ≠
        .entry .sensor "peer".toList "a__b".toList hash ∧
      (Resource.entry .sensor "peer".toList "a/b".toList hash).Valid ∧
      (Resource.entry .sensor "peer".toList "a__b".toList hash).Valid ∧
      (Resource.entry .sensor "peer".toList "a/b".toList hash).path [] =
        (Resource.entry .sensor "peer".toList "a__b".toList hash).path [] := by
  constructor
  · exact ⟨by decide, ⟨by decide, by decide, by decide⟩, ⟨by decide, by decide, by decide⟩,
      by decide⟩
  · intro hash hhash
    refine ⟨?_, ⟨by decide, by decide, hhash⟩, ⟨by decide, by decide, hhash⟩, rfl⟩
    intro heq
    rw [Resource.entry.injEq] at heq
    exact absurd heq.2.2.1 (by decide)

end AukiSdk.Registry
