import AukiSdk.Foundation.Run
import Mathlib

/-!
# The wallet seed file

`load_or_mint_seed` as calls over one directory.
-/

namespace AukiSdk.Identity

open AukiSdk.Foundation Function

/-- `[u8; 32]`. -/
abbrev Seed := { bytes : List UInt8 // bytes.length = 32 }

inductive SeedError where
  | notFound
  | invalidLength (length : ℕ)
  deriving DecidableEq

/-- Names, and the contents of the files by their inode. -/
structure SeedFiles where
  path : Option ℕ
  tmp : Option ℕ
  contents : ℕ → List UInt8
  fresh : ℕ

/-- Where a call of `load_or_mint_seed` is. -/
inductive SeedCall where
  | started
  | reading
  | opened (inode : ℕ)
  /-- The path was absent; the seed is drawn. -/
  | minting (seed : Seed)
  | truncated (inode : ℕ) (seed : Seed)
  | written (inode : ℕ) (seed : Seed)
  | synced (seed : Seed)
  | returned (result : Except SeedError Seed)
  | crashed
  deriving DecidableEq

/-- Between the existence test and the end of `atomic_write`. -/
def SeedCall.mints : SeedCall → Bool
  | .minting _ => true
  | .truncated _ _ => true
  | .written _ _ => true
  | .synced _ => true
  | _ => false

variable {Caller : Type} [DecidableEq Caller]

structure SeedSystem (Caller : Type) where
  files : SeedFiles
  calls : Caller → SeedCall

/-- One file step of a call. -/
inductive SeedLabel (Caller : Type) where
  /-- `path.exists()`; `seed` is what `OsRng` gives if it is not. -/
  | test (call : Caller) (seed : Seed)
  | openPath (call : Caller)
  | read (call : Caller)
  /-- Create the temporary file, or truncate it. -/
  | openTmp (call : Caller)
  | write (call : Caller)
  | sync (call : Caller)
  | rename (call : Caller)
  | crash (call : Caller)

namespace SeedFiles

variable (files : SeedFiles)

/-- `create(true).truncate(true)` on the temporary name. -/
def openTmp : SeedFiles × ℕ :=
  match files.tmp with
  | some inode => ({ files with contents := Function.update files.contents inode [] }, inode)
  | none =>
    ({ files with
      tmp := some files.fresh
      contents := Function.update files.contents files.fresh []
      fresh := files.fresh + 1 }, files.fresh)

/-- `write_all` from the start of the file. -/
def write (inode : ℕ) (seed : Seed) : SeedFiles :=
  { files with
    contents := Function.update files.contents inode
      (seed.1 ++ (files.contents inode).drop 32) }

/-- `read_to_end` and the test of the length. -/
def read (inode : ℕ) : Except SeedError Seed :=
  if hlength : (files.contents inode).length = 32 then .ok ⟨files.contents inode, hlength⟩
  else .error (.invalidLength (files.contents inode).length)

end SeedFiles

namespace SeedSystem

def goto (system : SeedSystem Caller) (call : Caller) (phase : SeedCall) : SeedSystem Caller :=
  { system with calls := Function.update system.calls call phase }

def step (system : SeedSystem Caller) : SeedLabel Caller → Option (SeedSystem Caller)
  | .test call seed =>
    match system.calls call with
    | .started =>
      match system.files.path with
      | some _ => some (system.goto call .reading)
      | none => some (system.goto call (.minting seed))
    | _ => none
  | .openPath call =>
    match system.calls call with
    | .reading =>
      match system.files.path with
      | some inode => some (system.goto call (.opened inode))
      | none => some (system.goto call (.returned (.error .notFound)))
    | _ => none
  | .read call =>
    match system.calls call with
    | .opened inode => some (system.goto call (.returned (system.files.read inode)))
    | _ => none
  | .openTmp call =>
    match system.calls call with
    | .minting seed =>
      let opened := system.files.openTmp
      some ({ system with files := opened.1 }.goto call (.truncated opened.2 seed))
    | _ => none
  | .write call =>
    match system.calls call with
    | .truncated inode seed =>
      some ({ system with files := system.files.write inode seed }.goto call
        (.written inode seed))
    | _ => none
  | .sync call =>
    match system.calls call with
    | .written _ seed => some (system.goto call (.synced seed))
    | _ => none
  | .rename call =>
    match system.calls call with
    | .synced seed =>
      match system.files.tmp with
      | some inode =>
        let files := { system.files with path := some inode, tmp := none }
        some ({ system with files }.goto call (.returned (.ok seed)))
      | none => some (system.goto call (.returned (.error .notFound)))
    | _ => none
  | .crash call =>
    match system.calls call with
    | .returned _ => none
    | _ => some (system.goto call .crashed)

/-- No path yet; an earlier crash may have left a temporary file. -/
def new (leftover : Option (List UInt8)) : SeedSystem Caller where
  files :=
    { path := none
      tmp := leftover.map fun _ => 0
      contents := fun _ => leftover.getD []
      fresh := 1 }
  calls := fun _ => .started

/-- The path is absent or holds the 32 bytes of every returned seed. -/
structure Stable (system : SeedSystem Caller) : Prop where
  complete : ∀ inode, system.files.path = some inode →
    (system.files.contents inode).length = 32
  kept : ∀ call seed, system.calls call = .returned (.ok seed) →
    ∃ inode, system.files.path = some inode ∧ system.files.contents inode = seed.1
  succeeds : ∀ call error, system.calls call ≠ .returned (.error error)

/-- A call that finds the path absent is the only one that mints. -/
def Alone (system : SeedSystem Caller) : SeedLabel Caller → Prop
  | .test _ _ => system.files.path = none → ∀ other, (system.calls other).mints = false
  | _ => True

/-- What a phase knows of the files. -/
def Fits (files : SeedFiles) : SeedCall → Prop
  | .reading => files.path.isSome = true
  | .opened inode => files.path = some inode
  | .minting _ => files.path = none
  | .truncated inode _ => files.path = none ∧ files.tmp = some inode ∧ files.contents inode = []
  | .written inode seed => files.path = none ∧ files.tmp = some inode ∧
      files.contents inode = seed.1
  | .synced seed => files.path = none ∧ ∃ inode, files.tmp = some inode ∧
      files.contents inode = seed.1
  | .returned (.ok seed) => ∃ inode, files.path = some inode ∧ files.contents inode = seed.1
  | .returned (.error _) => False
  | .started => True
  | .crashed => True

structure Sound (system : SeedSystem Caller) : Prop where
  complete : ∀ inode, system.files.path = some inode →
    (system.files.contents inode).length = 32
  single : ∀ call other, (system.calls call).mints = true → (system.calls other).mints = true →
    call = other
  fits : ∀ call, Fits system.files (system.calls call)

variable {system next : SeedSystem Caller}

omit [DecidableEq Caller] in
theorem Sound.stable (hs : system.Sound) : system.Stable where
  complete := hs.complete
  kept call seed hc := by
    have hfits := hs.fits call
    rw [hc] at hfits
    exact hfits
  succeeds call error hc := by
    have hfits := hs.fits call
    rw [hc] at hfits
    exact hfits

theorem Sound.goto (hs : system.Sound) (call : Caller) {phase : SeedCall}
    (hmin : phase.mints = true → ∀ other, other ≠ call → (system.calls other).mints = false)
    (hfits : Fits system.files phase) : (system.goto call phase).Sound where
  complete := hs.complete
  single first second hfst hsnd := by
    change (Function.update system.calls call phase first).mints = true at hfst
    change (Function.update system.calls call phase second).mints = true at hsnd
    by_cases hone : first = call
    · by_cases htwo : second = call
      · rw [hone, htwo]
      · rw [hone, update_self] at hfst
        rw [update_of_ne htwo, hmin hfst second htwo] at hsnd
        cases hsnd
    · by_cases htwo : second = call
      · rw [htwo, update_self] at hsnd
        rw [update_of_ne hone, hmin hsnd first hone] at hfst
        cases hfst
      · rw [update_of_ne hone] at hfst
        rw [update_of_ne htwo] at hsnd
        exact hs.single first second hfst hsnd
  fits other := by
    change Fits system.files (Function.update system.calls call phase other)
    by_cases heq : other = call
    · rw [heq, update_self]
      exact hfits
    · rw [update_of_ne heq]
      exact hs.fits other

theorem Sound.minter (hs : system.Sound) {call : Caller}
    (hc : (system.calls call).mints = true) (habs : system.files.path = none)
    {files : SeedFiles} {phase : SeedCall} (hfits : Fits files phase)
    (hcom : ∀ inode, files.path = some inode → (files.contents inode).length = 32) :
    ({ system with files := files }.goto call phase).Sound := by
  have hots : ∀ other, other ≠ call → (system.calls other).mints = false := by
    intro other hne
    cases hmin : (system.calls other).mints with
    | false => rfl
    | true => exact absurd (hs.single other call hmin hc) hne
  have hidle : ∀ other, other ≠ call →
      system.calls other = .started ∨ system.calls other = .crashed := by
    intro other hne
    have hfits := hs.fits other
    have hmin := hots other hne
    cases hp : system.calls other with
    | started => exact .inl rfl
    | crashed => exact .inr rfl
    | minting | truncated | written | synced =>
      rw [hp] at hmin
      cases hmin
    | reading =>
      rw [hp] at hfits
      change system.files.path.isSome = true at hfits
      rw [habs] at hfits
      cases hfits
    | opened inode =>
      rw [hp] at hfits
      change system.files.path = some inode at hfits
      rw [habs] at hfits
      cases hfits
    | returned result =>
      rw [hp] at hfits
      cases result with
      | error error => exact hfits.elim
      | ok seed =>
        obtain ⟨inode, hino, -⟩ := hfits
        rw [habs] at hino
        cases hino
  have hupd : ∀ other, other ≠ call → Function.update system.calls call phase other = .started ∨
        Function.update system.calls call phase other = .crashed := by
    intro other hne
    rw [update_of_ne hne]
    exact hidle other hne
  have hqui : ∀ other, other ≠ call →
      (Function.update system.calls call phase other).mints = true → False := by
    intro other hne hmin
    rcases hupd other hne with hp | hp <;>
    · rw [hp] at hmin
      cases hmin
  exact
    { complete := hcom
      single := fun first second hfst hsnd => by
        by_cases hone : first = call
        · by_cases htwo : second = call
          · rw [hone, htwo]
          · exact (hqui second htwo hsnd).elim
        · exact (hqui first hone hfst).elim
      fits := fun other => by
        change Fits files (Function.update system.calls call phase other)
        by_cases heq : other = call
        · rw [heq, update_self]
          exact hfits
        · rcases hupd other heq with hp | hp <;>
          · rw [hp]
            trivial }

theorem openTmp_fits (files : SeedFiles) (habs : files.path = none) (seed : Seed) :
    files.openTmp.1.path = none ∧ Fits files.openTmp.1 (.truncated files.openTmp.2 seed) := by
  unfold SeedFiles.openTmp
  split
  · rename_i inode htmp
    exact ⟨habs, habs, htmp, update_self ..⟩
  · exact ⟨habs, habs, rfl, update_self ..⟩

theorem Sound.step {label : SeedLabel Caller} (hs : system.Sound)
    (halo : Alone system label) (hstep : system.step label = some next) : next.Sound := by
  cases label with dsimp only [SeedSystem.step] at hstep
  | test call seed =>
    split at hstep
    · split at hstep
      · rename_i inode hpath
        cases hstep
        refine hs.goto call (fun hmin => by cases hmin) ?_
        change system.files.path.isSome = true
        rw [hpath]
        rfl
      · rename_i hpath
        cases hstep
        exact hs.goto call (fun _ other _ => halo hpath other) hpath
    · cases hstep
  | openPath call =>
    split at hstep
    · rename_i hc
      split at hstep
      · rename_i inode hpath
        cases hstep
        exact hs.goto call (fun hmin => by cases hmin) hpath
      · rename_i hpath
        have hfits := hs.fits call
        rw [hc] at hfits
        change system.files.path.isSome = true at hfits
        rw [hpath] at hfits
        cases hfits
    · cases hstep
  | read call =>
    split at hstep
    · rename_i inode hc
      cases hstep
      have hpath := hs.fits call
      rw [hc] at hpath
      have hlen := hs.complete inode hpath
      refine hs.goto call (fun hmin => by cases hmin) ?_
      rw [SeedFiles.read, dif_pos hlen]
      exact ⟨inode, hpath, rfl⟩
    · cases hstep
  | openTmp call =>
    split at hstep
    · rename_i seed hc
      cases hstep
      have habs := hs.fits call
      rw [hc] at habs
      obtain ⟨hpath, hfits⟩ := openTmp_fits system.files habs seed
      refine hs.minter (by rw [hc]; rfl) habs hfits fun inode hino => ?_
      rw [hpath] at hino
      cases hino
    · cases hstep
  | write call =>
    split at hstep
    · rename_i inode seed hc
      cases hstep
      have hfits := hs.fits call
      rw [hc] at hfits
      obtain ⟨habs, htmp, hemp⟩ := hfits
      refine hs.minter (by rw [hc]; rfl) habs ⟨habs, htmp, ?_⟩ ?_
      · calc Function.update system.files.contents inode
              (seed.1 ++ (system.files.contents inode).drop 32) inode
            = seed.1 ++ (system.files.contents inode).drop 32 := update_self ..
          _ = seed.1 := by rw [hemp, List.drop_nil, List.append_nil]
      · intro found hf
        change system.files.path = some found at hf
        rw [habs] at hf
        cases hf
    · cases hstep
  | sync call =>
    split at hstep
    · rename_i inode seed hc
      cases hstep
      have hfits := hs.fits call
      rw [hc] at hfits
      obtain ⟨habs, htmp, hseed⟩ := hfits
      have hmin : (system.calls call).mints = true := by
        rw [hc]
        rfl
      refine hs.goto call (fun _ other hne => ?_) ⟨habs, inode, htmp, hseed⟩
      cases ho : (system.calls other).mints with
      | false => rfl
      | true => exact absurd (hs.single other call ho hmin) hne
    · cases hstep
  | rename call =>
    split at hstep
    · rename_i seed hc
      have hfits := hs.fits call
      rw [hc] at hfits
      obtain ⟨habs, inode, htmp, hseed⟩ := hfits
      rw [htmp] at hstep
      cases hstep
      refine hs.minter (by rw [hc]; rfl) habs ⟨inode, rfl, hseed⟩ ?_
      intro found hf
      cases hf
      change (system.files.contents inode).length = 32
      rw [hseed]
      exact seed.2
    · cases hstep
  | crash call =>
    split at hstep
    · cases hstep
    · cases hstep
      exact hs.goto call (fun hmin => by cases hmin) trivial

omit [DecidableEq Caller] in
theorem Sound.new (leftover : Option (List UInt8)) : (new leftover : SeedSystem Caller).Sound where
  complete inode hino := by cases hino
  single call other hc _ := by cases hc
  fits call := trivial

/-- The seed is stable in every run in which no two calls mint at once. -/
theorem seed_stable_alone {leftover : Option (List UInt8)} {labels : List (SeedLabel Caller)}
    (halone : GuardedRun step (new leftover) Alone labels)
    (hrun : runSteps step (new leftover) labels = some system) : system.Stable := by
  have hsound : system.Sound := invariant_of_guardedRun (Sound.new leftover)
      (fun _ _ _ hsound halone hstep => hsound.step halone hstep) halone hrun
  exact hsound.stable

def seedOf (byte : UInt8) : Seed := ⟨List.replicate 32 byte, List.length_replicate⟩

def sampleLabels : List (SeedLabel Bool) :=
  [.test false (seedOf 1), .openTmp false, .write false, .sync false, .rename false,
    .test true (seedOf 2), .openPath true, .read true]

/-- Whether a step may be taken. -/
def aloneTest (system : SeedSystem Bool) : SeedLabel Bool → Bool
  | .test _ _ => decide (system.files.path = none → ∀ other, (system.calls other).mints = false)
  | _ => true

theorem alone_of_aloneTest (system : SeedSystem Bool) (label : SeedLabel Bool)
    (htest : aloneTest system label = true) : Alone system label := by
  cases label with
  | test call seed =>
    have hdec : decide (system.files.path = none →
        ∀ other, (system.calls other).mints = false) = true := htest
    have halo := of_decide_eq_true hdec
    exact halo
  | openPath | read | openTmp | write | sync | rename | crash => trivial

theorem seed_stable_alone_sample : ∃ system : SeedSystem Bool,
    runSteps step (new (some [0])) sampleLabels = some system ∧
      system.calls true = .returned (.ok (seedOf 1)) ∧ system.Stable := by
  have hmap : (runSteps step (new (some [0])) sampleLabels).map
      (fun system => system.calls true) = some (.returned (.ok (seedOf 1))) := by
    decide +kernel
  have halone : GuardedRun step (new (some [0])) Alone sampleLabels :=
    guardedRun_of_tested alone_of_aloneTest (by decide +kernel)
  obtain ⟨system, hrun, hcall⟩ := Option.map_eq_some_iff.mp hmap
  exact ⟨system, hrun, hcall, seed_stable_alone halone hrun⟩

/-- The second of two calls truncates what the first has published. -/
theorem seed_lost_to_concurrent_mint : ∃ (labels rest : List (SeedLabel (Fin 3)))
    (early late : SeedSystem (Fin 3)),
    runSteps step (new none) labels = some early ∧ runSteps step early rest = some late ∧
      early.files.path.map early.files.contents = some [] ∧
      early.calls 0 = .returned (.ok (seedOf 1)) ∧
      late.calls 1 = .returned (.error .notFound) ∧
      late.calls 2 = .returned (.ok (seedOf 2)) := by
  have hmap : (runSteps step (new none : SeedSystem (Fin 3))
      [.test 0 (seedOf 1), .test 1 (seedOf 2), .openTmp 0, .write 0, .sync 0, .openTmp 1,
        .rename 0]).bind
      (fun early => (runSteps step early [.write 1, .sync 1, .rename 1, .test 2 (seedOf 3),
        .openPath 2, .read 2]).map fun late =>
          ((early.files.path.map early.files.contents, early.calls 0), late.calls 1,
            late.calls 2)) =
      some ((some [], .returned (.ok (seedOf 1))), .returned (.error .notFound),
        .returned (.ok (seedOf 2))) := by
    decide +kernel
  obtain ⟨early, hearly, hbind⟩ := Option.bind_eq_some_iff.mp hmap
  obtain ⟨late, hlate, heq⟩ := Option.map_eq_some_iff.mp hbind
  simp only [Prod.mk.injEq] at heq
  exact ⟨_, _, early, late, hearly, hlate, heq.1.1, heq.1.2, heq.2.1, heq.2.2⟩

end SeedSystem

end AukiSdk.Identity
