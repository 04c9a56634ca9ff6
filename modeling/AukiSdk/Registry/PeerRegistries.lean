import AukiSdk.Foundation.Run
import AukiSdk.Registry.ModelList

/-!
# The registries of a peer

The registering calls of one shared peer, interleaved.
-/

namespace AukiSdk.Registry

open AukiSdk.Foundation

/-- One of the `register_*` calls, with the entry it builds and its blobs. -/
structure RegisterCall (registries : Registries) (peerId : List Char) where
  kind : RegistryKind
  entry : (registries.type kind).Entry
  package : Option (List (List UInt8))
  owned : (registries.type kind).peerId entry = peerId
  not_clock : kind ≠ .clock
  packaged : kind ≠ .deviceModel → package = none

section Model

variable {registries : Registries} {peerId : List Char}

def RegisterCall.id (call : RegisterCall registries peerId) : List Char :=
  (registries.type call.kind).id call.entry

/-- The `RegistryRef` that the call returns. -/
def RegisterCall.reference (call : RegisterCall registries peerId) : RegistryRef :=
  ⟨peerId, call.id, registries.hash call.entry⟩

/-- The calls that write and stash under one write lock. -/
def RegisterCall.locks (call : RegisterCall registries peerId) : Bool :=
  call.kind ≠ .deviceModel

/-- Where a call is. -/
inductive RegisterPhase where
  | idle
  /-- `put_urdf_package`, with the blobs it has still to store. -/
  | packaging (blobs : List (List UInt8))
  /-- Its id is valid, and it asks for the lock. -/
  | ready
  /-- It holds the write lock, and writes to the directory next. -/
  | locked
  /-- It has read the peer id and the storage root, and writes without the lock. -/
  | prepared
  /-- Its write was the one at that position, and it stashes the entry next. -/
  | wrote (position : ℕ)
  | returned (reference : Option RegistryRef)

/-- `PeerInner` with its directory, the calls, and the successful writes. -/
structure PeerState (registries : Registries) where
  files : Files
  memory : (kind : RegistryKind) → List Char → Option (registries.type kind).Entry
  writer : Option ℕ
  phases : ℕ → RegisterPhase
  writes : List ℕ
  origin : RegistryKind → List Char → Option ℕ

/-- A new peer on a storage root. -/
def PeerState.new (registries : Registries) (files : Files) : PeerState registries :=
  ⟨files, fun _ _ => none, none, fun _ => .idle, [], fun _ _ => none⟩

def PeerState.goto (state : PeerState registries) (caller : ℕ) (phase : RegisterPhase) :
    PeerState registries :=
  { state with phases := Function.update state.phases caller phase }

/-- `RegistryStore::insert`. -/
def PeerState.stash (state : PeerState registries) (call : RegisterCall registries peerId)
    (position : ℕ) : PeerState registries :=
  { state with
    memory := Function.update state.memory call.kind
      (Function.update (state.memory call.kind) call.id (some call.entry))
    origin := Function.update state.origin call.kind
      (Function.update (state.origin call.kind) call.id
        (some (max position ((state.origin call.kind call.id).getD 0)))) }

/-- A step of a call. -/
inductive PeerAction where
  | advance (caller : ℕ)
  | abandon (caller : ℕ)
  deriving DecidableEq

variable (data : StoreData registries) (appRoot : Path)
  (calls : ℕ → RegisterCall registries peerId)

/-- The write to the directory. -/
def PeerState.write (state : PeerState registries) (caller : ℕ) : PeerState registries :=
  match registries.write (data.checks appRoot) state.files appRoot (calls caller).kind
    (calls caller).entry with
  | .error _ =>
    { state with
      writer := if (calls caller).locks then none else state.writer
      phases := Function.update state.phases caller (.returned none) }
  | .ok written =>
    { state with
      files := written.1
      writes := state.writes ++ [caller]
      phases := Function.update state.phases caller (.wrote state.writes.length) }

/-- One step; `none` when the call cannot take it. -/
def PeerState.step (state : PeerState registries) : PeerAction → Option (PeerState registries)
  | .advance caller =>
    match state.phases caller with
    | .idle =>
      match (calls caller).package with
      | none => some (state.goto caller (.packaging []))
      | some blobs =>
        -- `storage_root` takes the read lock.
        if state.writer = none then some (state.goto caller (.packaging blobs)) else none
    | .packaging (bytes :: rest) =>
      match putBlob data state.files appRoot bytes with
      | .error _ => some (state.goto caller (.returned none))
      | .ok (files, _) => some ({ state with files := files }.goto caller (.packaging rest))
    | .packaging [] =>
      match validateRegistryId (calls caller).id with
      | .error _ => some (state.goto caller (.returned none))
      | .ok () => some (state.goto caller .ready)
    | .ready =>
      if state.writer = none then
        if (calls caller).locks then
          some ({ state with writer := some caller }.goto caller .locked)
        else
          some (state.goto caller .prepared)
      else
        none
    | .locked => some (state.write data appRoot calls caller)
    | .prepared => some (state.write data appRoot calls caller)
    | .wrote position =>
      if (calls caller).locks then
        some ({ state.stash (calls caller) position with writer := none }.goto caller
          (.returned (some (calls caller).reference)))
      else if state.writer = none then
        some ((state.stash (calls caller) position).goto caller
          (.returned (some (calls caller).reference)))
      else
        none
    | .returned _ => none
  | .abandon caller =>
    match state.phases caller with
    | .packaging _ => some (state.goto caller (.returned none))
    | _ => none

/-- A call registers an entry under a kind and an id. -/
inductive RegisterCall.Registers (call : RegisterCall registries peerId) :
    (kind : RegistryKind) → List Char → (registries.type kind).Entry → Prop where
  | intro : call.Registers call.kind call.id call.entry

/-- The entry most recently written under a kind and an id. -/
def LastWritten (writes : List ℕ) (kind : RegistryKind) (id : List Char)
    (entry : (registries.type kind).Entry) : Prop :=
  ∃ before caller after, writes = before ++ caller :: after ∧
    (calls caller).Registers kind id entry ∧
    ∀ later ∈ after, ¬ ((calls later).kind = kind ∧ (calls later).id = id)

/-- No call is in progress. -/
def PeerState.Quiet (state : PeerState registries) : Prop :=
  ∀ caller, state.phases caller = .idle ∨ ∃ reference, state.phases caller = .returned reference

/-- Memory holds the last writes, listings report them, and calls read them back. -/
structure PeerState.Agrees (state : PeerState registries) : Prop where
  memory : ∀ kind id entry, state.memory kind id = some entry ↔
    LastWritten calls state.writes kind id entry
  listed : ∀ id entry, state.memory .deviceModel id = some entry →
    ∀ (directories : List ModelDirectory), (∀ directory ∈ directories, directory.Named) →
      (∃ directory ∈ directories, directory.name = idToSegment id ∧ directory.isDir = true) →
      ∀ rows, listDeviceModels data state.files appRoot peerId (some directories) = .ok rows →
        ⟨id, registries.hash entry⟩ ∈ rows ∧
          ∀ row ∈ rows, row.id = id → row.hash = registries.hash entry
  readable : ∀ caller reference, state.phases caller = .returned (some reference) →
    ∃ found, registries.read state.files appRoot (calls caller).kind reference.peerId
        reference.id reference.hash = .ok (some found) ∧
      (registries.type (calls caller).kind).canonicalBytes found =
        (registries.type (calls caller).kind).canonicalBytes (calls caller).entry

/-- Two device models with the same blobs. -/
def StoreData.SameBlobs :
    (kind : RegistryKind) → (left right : (registries.type kind).Entry) → Prop
  | .deviceModel, left, right => data.blobs left = data.blobs right
  | _, _, _ => True

/-- `serde_json` reads the canonical text of the entry back, and a device model with
the same blobs. -/
def RegisterCall.ReadsBack (call : RegisterCall registries peerId) : Prop :=
  ∃ found, registries.ReadsBack call.kind call.entry found ∧
    data.SameBlobs call.kind found call.entry

/-- No other device model written so far has the directory of this one. -/
def PeerState.OwnDirectory (state : PeerState registries) (caller : ℕ) : Prop :=
  (calls caller).kind = .deviceModel → ∀ other ∈ state.writes,
    (calls other).kind = .deviceModel →
    idToSegment (calls other).id = idToSegment (calls caller).id →
    (calls other).id = (calls caller).id

/-- A device model is not stashed over a later one, unless they are the same. -/
def PeerState.InOrder (state : PeerState registries) (caller position : ℕ) : Prop :=
  (calls caller).locks = false → ∀ found,
    state.origin (calls caller).kind (calls caller).id = some found →
    found < position ∨
      state.memory (calls caller).kind (calls caller).id = some (calls caller).entry

/-- The condition on a step. -/
def PeerState.Orderly (state : PeerState registries) : PeerAction → Prop
  | .advance caller =>
    match state.phases caller with
    | .locked => (calls caller).ReadsBack data
    | .prepared => (calls caller).ReadsBack data ∧ state.OwnDirectory calls caller
    | .wrote position => state.InOrder calls caller position
    | _ => True
  | .abandon _ => True

end Model

end AukiSdk.Registry
