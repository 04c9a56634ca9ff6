import AukiSdk.Foundation.Run
import Mathlib

/-!
# The stored peer identity

`Identity::load_or_create` as calls over one directory entry.
-/

namespace AukiSdk.Identity

open AukiSdk.Foundation Function Option

structure FileData where
  bytes : List UInt8
  mode : ℕ
  deriving DecidableEq

/-- What a directory entry names. -/
inductive PathNode where
  | file (inode : ℕ)
  | directory
  | symlink
  /-- A FIFO, a socket or a device. -/
  | special
  deriving DecidableEq

inductive IdentityError where
  | symlink
  | notRegular
  | insecurePermissions (mode : ℕ)
  | tooLarge (actual : ℕ) (maximum : ℕ)
  | invalidPrivateKey
  | unsupportedKeyType
  | io
  deriving DecidableEq

/-- `identity::Keypair` of libp2p. -/
structure KeyCodec (Key : Type) where
  encode : Key → List UInt8
  parse : List UInt8 → Option Key
  ed25519 : Key → Bool

variable {Key Caller : Type} [DecidableEq Caller]

def maxIdentityFileBytes : ℕ := 1024

def fromProtobufEncoding (codec : KeyCodec Key) (bytes : List UInt8) : Except IdentityError Key :=
  match codec.parse bytes with
  | none => .error .invalidPrivateKey
  | some key =>
    if codec.ed25519 key = false then .error .unsupportedKeyType
    else if codec.encode key ≠ bytes then .error .invalidPrivateKey
    else .ok key

/-- The checks of `load_open_file` on the metadata of a regular file. -/
def checkMetadata (data : FileData) : Except IdentityError Unit :=
  if data.mode % 0o10000 ≠ 0o600 then .error (.insecurePermissions (data.mode % 0o10000))
  else if maxIdentityFileBytes < data.bytes.length then
    .error (.tooLarge data.bytes.length maxIdentityFileBytes)
  else .ok ()

/-- The read of `load_open_file`, of one byte more than the limit at most. -/
def readIdentity (codec : KeyCodec Key) (data : FileData) : Except IdentityError Key :=
  let encoded := data.bytes.take (maxIdentityFileBytes + 1)
  if maxIdentityFileBytes < encoded.length then
    .error (.tooLarge encoded.length maxIdentityFileBytes)
  else fromProtobufEncoding codec encoded

/-- Where a call of `load_or_create` is. -/
inductive IdentityCall (Key : Type) where
  | started
  /-- A handle from `open_existing` or `load_existing`. -/
  | opened (node : PathNode) (winner : Bool)
  | statted (inode : ℕ) (winner : Bool)
  /-- The winner of the race is loaded; the directory is synced next. -/
  | loaded (key : Key)
  /-- The path was absent; the identity is generated. -/
  | generated (key : Key)
  | created (key : Key) (inode : ℕ)
  | restricted (key : Key) (inode : ℕ)
  | written (key : Key) (inode : ℕ)
  | synced (key : Key) (inode : ℕ)
  | published (key : Key)
  /-- `AlreadyExists`; the candidate is still there. -/
  | lost (inode : ℕ)
  | reopening
  | returned (result : Except IdentityError Key)
  | crashed

/-- The directory and the calls. -/
structure IdentityStore (Key Caller : Type) where
  node : Option PathNode
  files : ℕ → FileData
  fresh : ℕ
  /-- The temporary file of a call, by its inode. -/
  temporaries : Caller → Option ℕ
  calls : Caller → IdentityCall Key

inductive IdentityLabel (Key Caller : Type) where
  /-- `open_existing`; `key` is what `Identity::generate` gives if the path is absent. -/
  | openExisting (call : Caller) (key : Key)
  | stat (call : Caller)
  | read (call : Caller)
  /-- The mode that the new temporary file has before it is set. -/
  | createTemporary (call : Caller) (mode : ℕ)
  | setMode (call : Caller)
  | write (call : Caller)
  | sync (call : Caller)
  | persistNoclobber (call : Caller)
  | syncDirectory (call : Caller)
  | dropTemporary (call : Caller)
  | loadExisting (call : Caller)
  /-- A file-system call fails for another reason; the temporary file is dropped. -/
  | fail (call : Caller)
  | crash (call : Caller)

namespace IdentityStore

def goto (store : IdentityStore Key Caller) (call : Caller) (phase : IdentityCall Key) :
    IdentityStore Key Caller :=
  { store with calls := Function.update store.calls call phase }

def setTemporary (store : IdentityStore Key Caller) (call : Caller) (inode : Option ℕ) :
    IdentityStore Key Caller :=
  { store with temporaries := Function.update store.temporaries call inode }

def setFile (store : IdentityStore Key Caller) (inode : ℕ) (data : FileData) :
    IdentityStore Key Caller :=
  { store with files := Function.update store.files inode data }

/-- The end of `load_open_file`. -/
def loadedPhase (winner : Bool) : Except IdentityError Key → IdentityCall Key
  | .error error => .returned (.error error)
  | .ok key => if winner = true then .loaded key else .returned (.ok key)

/-- One step of a call. -/
def step (codec : KeyCodec Key) (store : IdentityStore Key Caller) :
    IdentityLabel Key Caller → Option (IdentityStore Key Caller)
  | .openExisting call key =>
    match store.calls call with
    | .started =>
      match store.node with
      | none => some (store.goto call (.generated key))
      | some .symlink => some (store.goto call (.returned (.error .symlink)))
      | some node => some (store.goto call (.opened node false))
    | _ => none
  | .stat call =>
    match store.calls call with
    | .opened node winner =>
      match node with
      | .file inode =>
        match checkMetadata (store.files inode) with
        | .error error => some (store.goto call (.returned (.error error)))
        | .ok () => some (store.goto call (.statted inode winner))
      | _ => some (store.goto call (.returned (.error .notRegular)))
    | _ => none
  | .read call =>
    match store.calls call with
    | .statted inode winner =>
      some (store.goto call (loadedPhase winner (readIdentity codec (store.files inode))))
    | _ => none
  | .createTemporary call mode =>
    match store.calls call with
    | .generated key =>
      some ((({ store with fresh := store.fresh + 1 }.setFile store.fresh
        ⟨[], mode⟩).setTemporary call (some store.fresh)).goto call
          (.created key store.fresh))
    | _ => none
  | .setMode call =>
    match store.calls call with
    | .created key inode =>
      some ((store.setFile inode { store.files inode with mode := 0o600 }).goto call
        (.restricted key inode))
    | _ => none
  | .write call =>
    match store.calls call with
    | .restricted key inode =>
      some ((store.setFile inode
        { store.files inode with bytes := codec.encode key }).goto call (.written key inode))
    | _ => none
  | .sync call =>
    match store.calls call with
    | .written key inode => some (store.goto call (.synced key inode))
    | _ => none
  | .persistNoclobber call =>
    match store.calls call with
    | .synced key inode =>
      match store.node with
      | none =>
        some (({ store with node := some (.file inode) }.setTemporary call none).goto call
          (.published key))
      | some _ => some (store.goto call (.lost inode))
    | _ => none
  | .syncDirectory call =>
    match store.calls call with
    | .published key => some (store.goto call (.returned (.ok key)))
    | .loaded key => some (store.goto call (.returned (.ok key)))
    | _ => none
  | .dropTemporary call =>
    match store.calls call with
    | .lost _ => some ((store.setTemporary call none).goto call .reopening)
    | _ => none
  | .loadExisting call =>
    match store.calls call with
    | .reopening =>
      match store.node with
      | none => some (store.goto call (.returned (.error .io)))
      | some .symlink => some (store.goto call (.returned (.error .symlink)))
      | some node => some (store.goto call (.opened node true))
    | _ => none
  | .fail call =>
    match store.calls call with
    | .returned _ => none
    | .crashed => none
    | _ => some ((store.setTemporary call none).goto call (.returned (.error .io)))
  | .crash call =>
    match store.calls call with
    | .returned _ => none
    | _ => some (store.goto call .crashed)

/-- Any content of the path; no call has begun. -/
def new (node : Option PathNode) (files : ℕ → FileData) : IdentityStore Key Caller where
  node := node
  files := files
  fresh :=
    match node with
    | some (.file inode) => inode + 1
    | _ => 0
  temporaries := fun _ => none
  calls := fun _ => .started

/-- The path decodes to this key. -/
def Holds (codec : KeyCodec Key) (store : IdentityStore Key Caller) (key : Key) : Prop :=
  ∃ inode, store.node = some (.file inode) ∧
    fromProtobufEncoding codec (store.files inode).bytes = .ok key

/-- The path is as it was, or was absent and holds one complete encoding. -/
def Preserved (codec : KeyCodec Key) (node : Option PathNode) (files : ℕ → FileData)
    (store : IdentityStore Key Caller) : Prop :=
  (store.node = node ∧ ∀ inode, node = some (.file inode) → store.files inode = files inode) ∨
    (node = none ∧ ∃ inode key, store.node = some (.file inode) ∧
      store.files inode = ⟨codec.encode key, 0o600⟩)

/-- What a phase knows of the files. -/
def Fits (codec : KeyCodec Key) (store : IdentityStore Key Caller) (temporary : Option ℕ) :
    IdentityCall Key → Prop
  | .started => temporary = none
  | .opened node _ => temporary = none ∧ store.node = some node
  | .statted inode _ => temporary = none ∧ store.node = some (.file inode)
  | .loaded key => temporary = none ∧ Holds codec store key
  | .generated _ => temporary = none
  | .created _ inode => temporary = some inode
  | .restricted _ inode => temporary = some inode ∧ (store.files inode).mode = 0o600
  | .written key inode => temporary = some inode ∧
      store.files inode = ⟨codec.encode key, 0o600⟩
  | .synced key inode => temporary = some inode ∧
      store.files inode = ⟨codec.encode key, 0o600⟩
  | .published key => temporary = none ∧ Holds codec store key
  | .lost inode => temporary = some inode
  | .reopening => temporary = none
  | .returned (.ok key) => temporary = none ∧ Holds codec store key
  | .returned (.error _) => temporary = none
  | .crashed => True

structure Sound (codec : KeyCodec Key) (node : Option PathNode) (files : ℕ → FileData)
    (store : IdentityStore Key Caller) : Prop where
  preserved : Preserved codec node files store
  /-- No temporary file is the published one, and no two are the same. -/
  separate : ∀ call inode, store.temporaries call = some inode →
    store.node ≠ some (.file inode) ∧ inode < store.fresh
  single : ∀ call other inode, store.temporaries call = some inode →
    store.temporaries other = some inode → call = other
  known : ∀ inode, store.node = some (.file inode) → inode < store.fresh
  fits : ∀ call, Fits codec store (store.temporaries call) (store.calls call)

variable {codec : KeyCodec Key} {node : Option PathNode} {files : ℕ → FileData}
variable {store next : IdentityStore Key Caller}

variable {phase : IdentityCall Key}

omit [DecidableEq Caller] in
theorem Fits.frame {temporary : Option ℕ} (hfits : Fits codec store temporary phase)
    (hnode : ∀ found, store.node = some found → next.node = some found)
    (hpath : ∀ inode, store.node = some (.file inode) → next.files inode = store.files inode)
    (htem : ∀ inode, temporary = some inode → next.files inode = store.files inode) :
    Fits codec next temporary phase := by
  have hhld : ∀ key, Holds codec store key → Holds codec next key := by
    intro key hkey
    obtain ⟨inode, hino, hdec⟩ := hkey
    exact ⟨inode, hnode _ hino, by rwa [hpath inode hino]⟩
  cases phase with
  | started | generated | created | lost | reopening | crashed => exact hfits
  | opened found winner => exact ⟨hfits.1, hnode _ hfits.2⟩
  | statted inode winner => exact ⟨hfits.1, hnode _ hfits.2⟩
  | loaded key | published key => exact ⟨hfits.1, hhld key hfits.2⟩
  | restricted key inode =>
    refine ⟨hfits.1, ?_⟩
    rw [htem inode hfits.1]
    exact hfits.2
  | written key inode | synced key inode =>
    exact ⟨hfits.1, (htem inode hfits.1).trans hfits.2⟩
  | returned result =>
    cases result with
    | error error => exact hfits
    | ok key => exact ⟨hfits.1, hhld key hfits.2⟩

/-- What a step of one call must show. -/
structure Advances (codec : KeyCodec Key) (node : Option PathNode) (files : ℕ → FileData)
    (store : IdentityStore Key Caller) (call : Caller) (temporary : Option ℕ)
    (phase : IdentityCall Key) (next : IdentityStore Key Caller) : Prop where
  calls : next.calls = Function.update store.calls call phase
  temporaries : next.temporaries = Function.update store.temporaries call temporary
  preserved : Preserved codec node files next
  node : ∀ found, store.node = some found → next.node = some found
  path : ∀ inode, store.node = some (.file inode) → next.files inode = store.files inode
  others : ∀ other inode, other ≠ call → store.temporaries other = some inode →
    next.files inode = store.files inode ∧ next.node ≠ some (.file inode) ∧
      temporary ≠ some inode
  fresh : store.fresh ≤ next.fresh
  own : ∀ inode, temporary = some inode → next.node ≠ some (.file inode) ∧ inode < next.fresh
  known : ∀ inode, next.node = some (.file inode) → inode < next.fresh
  fits : Fits codec next temporary phase

variable {call : Caller}

theorem Sound.advances (hs : Sound codec node files store) {temporary : Option ℕ}
    (hn : Advances codec node files store call temporary phase next) :
    Sound codec node files next where
  __ := hn
  separate other inode hino := by
    rw [hn.temporaries] at hino
    by_cases heq : other = call
    · rw [heq, update_self] at hino
      exact hn.own inode hino
    · rw [update_of_ne heq] at hino
      exact ⟨(hn.others other inode heq hino).2.1,
        (hs.separate other inode hino).2.trans_le hn.fresh⟩
  single first second inode hfst hsnd := by
    rw [hn.temporaries] at hfst hsnd
    by_cases hone : first = call
    · by_cases htwo : second = call
      · rw [hone, htwo]
      · rw [hone, update_self] at hfst
        rw [update_of_ne htwo] at hsnd
        exact absurd hfst (hn.others second inode htwo hsnd).2.2
    · rw [update_of_ne hone] at hfst
      by_cases htwo : second = call
      · rw [htwo, update_self] at hsnd
        exact absurd hsnd (hn.others first inode hone hfst).2.2
      · rw [update_of_ne htwo] at hsnd
        exact hs.single first second inode hfst hsnd
  fits other := by
    rw [hn.temporaries, hn.calls]
    by_cases heq : other = call
    · rw [heq, update_self, update_self]
      exact hn.fits
    · rw [update_of_ne heq, update_of_ne heq]
      exact (hs.fits other).frame hn.node hn.path
        fun inode hino => (hn.others other inode heq hino).1

theorem Sound.goto (hs : Sound codec node files store)
    (hfits : Fits codec store (store.temporaries call) phase) :
    Sound codec node files (store.goto call phase) :=
  hs.advances
    { calls := rfl
      temporaries := (Function.update_eq_self call store.temporaries).symm
      __ := hs
      node := fun _ => id
      path := fun _ _ => rfl
      others := fun other inode hne hino =>
        ⟨rfl, (hs.separate other inode hino).1,
          fun heq => hne (hs.single other call inode hino heq)⟩
      fresh := le_rfl
      own := hs.separate call
      fits := hfits.frame (fun _ => id) (fun _ _ => rfl) fun _ _ => rfl }

omit [DecidableEq Caller] in
theorem setFile_files (store : IdentityStore Key Caller) (inode : ℕ) (data : FileData) :
    (store.setFile inode data).files inode = data :=
  update_self ..

theorem Sound.release (hs : Sound codec node files store)
    (hfits : Fits codec store none phase) :
    Sound codec node files ((store.setTemporary call none).goto call phase) :=
  hs.advances
    { calls := rfl
      temporaries := rfl
      __ := hs
      node := fun _ => id
      path := fun _ _ => rfl
      others := fun other inode _ hino =>
        ⟨rfl, (hs.separate other inode hino).1, some_ne_none inode |>.symm⟩
      fresh := le_rfl
      own := fun inode hino => by cases hino
      fits := hfits.frame (fun _ => id) (fun _ _ => rfl) fun _ _ => rfl }

omit [DecidableEq Caller] in
theorem Preserved.setFile (hpre : Preserved codec node files store) {inode : ℕ}
    (hsep : store.node ≠ some (.file inode)) (data : FileData) :
    Preserved codec node files (store.setFile inode data) := by
  have hsm : ∀ other, store.node = some (.file other) →
      Function.update store.files inode data other = store.files other := by
    intro other ho
    refine update_of_ne (fun heq => hsep ?_) _ _
    rw [← heq]
    exact ho
  rcases hpre with ⟨hnode, hfls⟩ | ⟨habs, found, key, hf, hdata⟩
  · refine .inl ⟨hnode, fun other ho => ?_⟩
    exact (hsm other (hnode.trans ho)).trans (hfls other ho)
  · exact .inr ⟨habs, found, key, hf, (hsm found hf).trans hdata⟩

theorem Sound.rewrite (hs : Sound codec node files store) {inode : ℕ}
    (hino : store.temporaries call = some inode) {data : FileData}
    (hfits : Fits codec (store.setFile inode data) (some inode) phase) :
    Sound codec node files ((store.setFile inode data).goto call phase) := by
  have hsep := (hs.separate call inode hino).1
  have ho : ∀ other, other ≠ inode →
      Function.update store.files inode data other = store.files other :=
    fun other hne => update_of_ne hne _ _
  exact hs.advances
    { calls := rfl
      temporaries := by
        rw [← hino]
        exact (Function.update_eq_self call store.temporaries).symm
      preserved := hs.preserved.setFile hsep data
      node := fun _ => id
      path := fun found hf => ho found fun heq => hsep (heq ▸ hf)
      others := fun other found hne hf => by
        have hdiff : found ≠ inode := fun heq =>
          hne (hs.single other call inode (heq ▸ hf) hino)
        exact ⟨ho found hdiff, (hs.separate other found hf).1, fun heq => hdiff (some.inj heq).symm⟩
      fresh := le_rfl
      own := fun found hf => by
        cases hf
        exact hs.separate call inode hino
      known := hs.known
      fits := hfits.frame (fun _ => id) (fun _ _ => rfl) fun _ _ => rfl }

theorem Sound.createTemporary (hs : Sound codec node files store) {key : Key} (mode : ℕ) :
    Sound codec node files
      ((({ store with fresh := store.fresh + 1 }.setFile store.fresh
        ⟨[], mode⟩).setTemporary call (some store.fresh)).goto call
          (.created key store.fresh)) := by
  have hsep : store.node ≠ some (.file store.fresh) := fun hnode =>
    lt_irrefl _ (hs.known _ hnode)
  have ho : ∀ inode, inode < store.fresh →
      Function.update store.files store.fresh ⟨[], mode⟩ inode = store.files inode :=
    fun inode hlt => update_of_ne hlt.ne _ _
  exact hs.advances
    { calls := rfl
      temporaries := rfl
      preserved := hs.preserved.setFile hsep _
      node := fun _ => id
      path := fun inode hino => ho inode (hs.known inode hino)
      others := fun other inode _ hino => by
        obtain ⟨hnode, hlt⟩ := hs.separate other inode hino
        exact ⟨ho inode hlt, hnode, fun heq => hlt.ne (some.inj heq).symm⟩
      fresh := Nat.le_succ _
      own := fun inode hino => by
        cases hino
        exact ⟨hsep, Nat.lt_succ_self _⟩
      known := fun inode hino => (hs.known inode hino).trans (Nat.lt_succ_self _)
      fits := rfl }

theorem Sound.persist (hs : Sound codec node files store)
    (hacc : ∀ key, fromProtobufEncoding codec (codec.encode key) = .ok key) {key : Key}
    {inode : ℕ} (hc : store.calls call = .synced key inode) (habs : store.node = none) :
    Sound codec node files
      (({ store with node := some (.file inode) }.setTemporary call none).goto call
        (.published key)) := by
  have hfits := hs.fits call
  rw [hc] at hfits
  obtain ⟨hino, hdata⟩ := hfits
  exact hs.advances
    { calls := rfl
      temporaries := rfl
      preserved := by
        rcases hs.preserved with ⟨hnode, -⟩ | ⟨-, found, _, hf, -⟩
        · exact .inr ⟨hnode.symm.trans habs, inode, key, rfl, hdata⟩
        · rw [habs] at hf
          cases hf
      node := fun found hf => by
        rw [habs] at hf
        cases hf
      path := fun _ _ => rfl
      others := fun other found hne hf => by
        refine ⟨rfl, fun heq => hne ?_, fun heq => by cases heq⟩
        cases heq
        exact hs.single other call inode hf hino
      fresh := le_rfl
      own := fun found hf => by cases hf
      known := fun found hf => by
        cases hf
        exact (hs.separate call inode hino).2
      fits := by
        refine ⟨rfl, inode, rfl, ?_⟩
        change fromProtobufEncoding codec (store.files inode).bytes = .ok key
        rw [hdata]
        exact hacc key }

omit [DecidableEq Caller] in
theorem readIdentity_ok {data : FileData} {key : Key}
    (hread : readIdentity codec data = .ok key) :
    fromProtobufEncoding codec data.bytes = .ok key := by
  unfold readIdentity at hread
  dsimp only at hread
  split at hread
  · cases hread
  · rename_i hle
    have htake : data.bytes.take (maxIdentityFileBytes + 1) = data.bytes := by
      refine List.take_of_length_le ?_
      rw [List.length_take] at hle
      omega
    rwa [htake] at hread

theorem Sound.step (hs : Sound codec node files store)
    (hacc : ∀ key, fromProtobufEncoding codec (codec.encode key) = .ok key)
    {label : IdentityLabel Key Caller}
    (hstep : IdentityStore.step codec store label = some next) : Sound codec node files next := by
  have hfits : ∀ {call phase}, store.calls call = phase →
      Fits codec store (store.temporaries call) phase := by
    intro call phase hc
    rw [← hc]
    exact hs.fits call
  cases label with dsimp only [IdentityStore.step] at hstep
  | openExisting call key =>
    split at hstep
    · rename_i hc
      split at hstep
      · cases hstep
        exact hs.goto (by simpa only [Fits] using hfits hc)
      · cases hstep
        exact hs.goto (by simpa only [Fits] using hfits hc)
      · rename_i found _ hnode
        cases hstep
        exact hs.goto ⟨hfits hc, hnode⟩
    · cases hstep
  | stat call =>
    split at hstep
    · rename_i found winner hc
      have hopn := hfits hc
      split at hstep
      · split at hstep
        · cases hstep
          exact hs.goto hopn.1
        · cases hstep
          exact hs.goto hopn
      · cases hstep
        exact hs.goto hopn.1
    · cases hstep
  | read call =>
    split at hstep
    · rename_i inode winner hc
      cases hstep
      obtain ⟨hnone, hnode⟩ := hfits hc
      refine hs.goto ?_
      cases hread : readIdentity codec (store.files inode) with
      | error error => exact hnone
      | ok key =>
        have hhld : Holds codec store key := ⟨inode, hnode, readIdentity_ok hread⟩
        cases winner with
        | false => exact ⟨hnone, hhld⟩
        | true => exact ⟨hnone, hhld⟩
    · cases hstep
  | createTemporary call mode =>
    split at hstep
    · cases hstep
      exact hs.createTemporary mode
    · cases hstep
  | setMode call =>
    split at hstep
    · rename_i key inode hc
      cases hstep
      exact hs.rewrite (hfits hc) ⟨rfl, congrArg FileData.mode (setFile_files ..)⟩
    · cases hstep
  | write call =>
    split at hstep
    · rename_i key inode hc
      cases hstep
      obtain ⟨hino, hmode⟩ := hfits hc
      refine hs.rewrite hino ⟨rfl, ?_⟩
      rw [setFile_files, hmode]
    · cases hstep
  | sync call =>
    split at hstep
    · rename_i key inode hc
      cases hstep
      exact hs.goto (by simpa only [Fits] using hfits hc)
    · cases hstep
  | persistNoclobber call =>
    split at hstep
    · rename_i key inode hc
      split at hstep
      · rename_i habs
        cases hstep
        exact hs.persist hacc hc habs
      · cases hstep
        exact hs.goto (hfits hc).1
    · cases hstep
  | syncDirectory call =>
    split at hstep
    · rename_i key hc
      cases hstep
      exact hs.goto (by simpa only [Fits] using hfits hc)
    · rename_i key hc
      cases hstep
      exact hs.goto (by simpa only [Fits] using hfits hc)
    · cases hstep
  | dropTemporary call =>
    split at hstep
    · cases hstep
      exact hs.release rfl
    · cases hstep
  | loadExisting call =>
    split at hstep
    · rename_i hc
      split at hstep
      · cases hstep
        exact hs.goto (by simpa only [Fits] using hfits hc)
      · cases hstep
        exact hs.goto (by simpa only [Fits] using hfits hc)
      · rename_i found _ hnode
        cases hstep
        exact hs.goto ⟨hfits hc, hnode⟩
    · cases hstep
  | fail call =>
    split at hstep
    · cases hstep
    · cases hstep
    · cases hstep
      exact hs.release rfl
  | crash call =>
    split at hstep
    · cases hstep
    · cases hstep
      exact hs.goto trivial

omit [DecidableEq Caller] in
theorem Sound.new : Sound codec node files (new node files : IdentityStore Key Caller) where
  preserved := .inl ⟨rfl, fun _ _ => rfl⟩
  separate call inode hino := by cases hino
  single call other inode hino _ := by cases hino
  known inode hino := by
    change node = some (.file inode) at hino
    rw [hino]
    exact Nat.lt_succ_self inode
  fits call := rfl

/-- Every call that returned `Ok` returned the key that the path decodes to. -/
theorem identity_creation_converges
    (haccepts : ∀ key, fromProtobufEncoding codec (codec.encode key) = .ok key)
    {labels : List (IdentityLabel Key Caller)}
    (hrun : runSteps (IdentityStore.step codec) (new node files) labels = some store) :
    Preserved codec node files store ∧ ∀ call key, store.calls call = .returned (.ok key) →
        Holds codec store key ∧ store.temporaries call = none ∧
          ∀ other found, store.calls other = .returned (.ok found) → found = key := by
  have hsound : Sound codec node files store :=
    invariant_of_run Sound.new (fun _ _ _ hsound hstep => hsound.step haccepts hstep) hrun
  have hreturned : ∀ call key, store.calls call = .returned (.ok key) →
      store.temporaries call = none ∧ Holds codec store key := by
    intro call key hcall
    have hfits := hsound.fits call
    rw [hcall] at hfits
    exact hfits
  refine ⟨hsound.preserved, fun call key hcall => ?_⟩
  obtain ⟨hnone, inode, hinode, hdecode⟩ := hreturned call key hcall
  refine ⟨⟨inode, hinode, hdecode⟩, hnone, fun other found hother => ?_⟩
  obtain ⟨-, inode', hinode', hdecode'⟩ := hreturned other found hother
  rw [hinode] at hinode'
  cases hinode'
  rw [hdecode] at hdecode'
  exact (Except.ok.inj hdecode').symm

/-- Keys are bytes, encoded as themselves. -/
def byteCodec : KeyCodec UInt8 where
  encode key := [key]
  parse bytes :=
    match bytes with
    | [key] => some key
    | _ => none
  ed25519 _ := true

/-- Two creators race; the second loses and loads the key of the first. -/
def raceLabels : List (IdentityLabel UInt8 Bool) :=
  [.openExisting false 1, .openExisting true 2, .createTemporary true 0o644,
    .createTemporary false 0o600, .setMode false, .write false, .setMode true, .sync false,
    .write true, .persistNoclobber false, .sync true, .persistNoclobber true,
    .syncDirectory false, .dropTemporary true, .loadExisting true, .stat true, .read true,
    .syncDirectory true]

theorem identity_creation_converges_sample : ∃ store : IdentityStore UInt8 Bool,
    runSteps (IdentityStore.step byteCodec) (new none fun _ => ⟨[], 0⟩) raceLabels = some store ∧
      store.calls true = .returned (.ok 1) ∧
      Preserved byteCodec none (fun _ => ⟨[], 0⟩) store ∧
      Holds byteCodec store 1 ∧ store.temporaries true = none := by
  have hmap : (runSteps (IdentityStore.step byteCodec) (new none fun _ => ⟨[], 0⟩)
      raceLabels).map (fun store : IdentityStore UInt8 Bool =>
        match store.calls true with
        | .returned (.ok key) => some key
        | _ => none) = some (some 1) := by
    decide +kernel
  obtain ⟨store, hrun, hcall⟩ := map_eq_some_iff.mp hmap
  have hreturned : store.calls true = .returned (.ok 1) := by
    split at hcall
    · rename_i key hcalls
      rw [hcalls, some.inj hcall]
    · cases hcall
  obtain ⟨hpreserved, hcalls⟩ := identity_creation_converges (fun key => by
    simp [fromProtobufEncoding, byteCodec]) hrun
  obtain ⟨hholds, hnone, -⟩ := hcalls true 1 hreturned
  exact ⟨store, hrun, hreturned, hpreserved, hholds, hnone⟩

end IdentityStore

end AukiSdk.Identity
