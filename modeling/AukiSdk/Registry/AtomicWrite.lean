import AukiSdk.Foundation.Run
import Mathlib.Algebra.Order.Group.Nat
import Mathlib.Logic.Function.Basic

/-!
# Concurrent atomic writes

The file steps of two `atomic_write` calls with one target, in any order.
-/

namespace AukiSdk.Registry

open AukiSdk.Foundation List Function

/-- The files and the two directory entries `atomic_write` touches. -/
structure FileSystem where
  contents : ℕ → List UInt8
  fresh : ℕ
  tmp : Option ℕ
  target : Option ℕ

/-- The entries name different files that exist. -/
structure FileSystem.WellFormed (fs : FileSystem) : Prop where
  tmp_lt : ∀ inode ∈ fs.tmp, inode < fs.fresh
  target_lt : ∀ inode ∈ fs.target, inode < fs.fresh
  distinct : ∀ inode ∈ fs.tmp, inode ∉ fs.target

variable (fs : FileSystem)

/-- What a reader of the target sees. -/
def FileSystem.targetContent : Option (List UInt8) :=
  fs.target.map fs.contents

/-- `open` with `create` and `truncate`. -/
def FileSystem.openTmp : FileSystem × ℕ :=
  match fs.tmp with
  | some inode => ({ fs with contents := Function.update fs.contents inode [] }, inode)
  | none =>
    ({ fs with
        contents := Function.update fs.contents fs.fresh []
        fresh := fs.fresh + 1
        tmp := some fs.fresh }, fs.fresh)

/-- A write at an offset; a gap before it reads as zeros. -/
def overwrite (content : List UInt8) (offset : ℕ) (chunk : List UInt8) : List UInt8 :=
  content.take offset ++ List.replicate (offset - content.length) 0 ++ chunk ++
    content.drop (offset + chunk.length)

def FileSystem.writeAt (inode offset : ℕ) (chunk : List UInt8) : FileSystem :=
  { fs with
    contents := Function.update fs.contents inode (overwrite (fs.contents inode) offset chunk) }

/-- `rename`; `none` when there is no temporary file. -/
def FileSystem.renameTmp : Option FileSystem :=
  match fs.tmp with
  | none => none
  | some inode => some { fs with target := some inode, tmp := none }

/-- The two concurrent calls. -/
inductive Caller where
  | first
  | second
  deriving DecidableEq

/-- Where a call of `atomic_write` is. -/
inductive Call where
  | idle
  /-- The descriptor, and the number of bytes written through it. -/
  | writing (inode offset : ℕ)
  | synced (inode : ℕ)
  | succeeded
  /-- The rename found no temporary file. -/
  | failed
  deriving DecidableEq

/-- A file step of a call. -/
inductive FileStep where
  | open
  /-- One `write` of `write_all`, which may take a part of the rest. -/
  | write (count : ℕ)
  | sync
  | rename

structure Writers where
  fs : FileSystem
  calls : Caller → Call

def Writers.set (writers : Writers) (caller : Caller) (fs : FileSystem) (call : Call) : Writers :=
  ⟨fs, Function.update writers.calls caller call⟩

/-- One step of one call; `none` when the call is not at that point. -/
def Writers.step (bytes : Caller → List UInt8) (writers : Writers) :
    Caller × FileStep → Option Writers
  | (caller, .open) =>
    match writers.calls caller with
    | .idle =>
      some (writers.set caller writers.fs.openTmp.1 (.writing writers.fs.openTmp.2 0))
    | _ => none
  | (caller, .write count) =>
    match writers.calls caller with
    | .writing inode offset =>
      let chunk := ((bytes caller).drop offset).take count
      some (writers.set caller (writers.fs.writeAt inode offset chunk)
        (.writing inode (offset + chunk.length)))
    | _ => none
  | (caller, .sync) =>
    match writers.calls caller with
    | .writing inode offset =>
      if (bytes caller).length ≤ offset then
        some (writers.set caller writers.fs (.synced inode))
      else
        none
    | _ => none
  | (caller, .rename) =>
    match writers.calls caller with
    | .synced _ =>
      match writers.fs.renameTmp with
      | none => some (writers.set caller writers.fs .failed)
      | some fs => some (writers.set caller fs .succeeded)
    | _ => none

def Writers.start : Writers := ⟨fs, fun _ => .idle⟩

/-- The target is as it was, or is one of the writes; no call has failed. -/
def WrittenAtomically (bytes : Caller → List UInt8) (earlier : Option (List UInt8))
    (writers : Writers) : Prop :=
  (writers.fs.targetContent = earlier ∨
    ∃ caller, writers.fs.targetContent = some (bytes caller)) ∧
  ∀ caller, writers.calls caller ≠ .failed

/-- A call between its `open` and its `rename`. -/
def Call.underway : Call → Bool
  | .writing _ _ => true
  | .synced _ => true
  | _ => false

/-- The temporary file is opened only while no call is underway. -/
def OpensAlone (writers : Writers) : Caller × FileStep → Prop
  | (_, .open) => ∀ caller, (writers.calls caller).underway = false
  | _ => True

/-- At most one call is underway, and the temporary file is its own. -/
structure WritersInvariant (bytes : Caller → List UInt8) (earlier : Option (List UInt8))
    (writers : Writers) : Prop where
  files : writers.fs.WellFormed
  alone : ∀ left right, (writers.calls left).underway → (writers.calls right).underway →
    left = right
  writing : ∀ caller inode offset, writers.calls caller = .writing inode offset →
    writers.fs.tmp = some inode ∧ offset ≤ (bytes caller).length ∧
      writers.fs.contents inode = (bytes caller).take offset
  synced : ∀ caller inode, writers.calls caller = .synced inode →
    writers.fs.tmp = some inode ∧ writers.fs.contents inode = bytes caller
  written : WrittenAtomically bytes earlier writers

theorem WritersInvariant.start (bytes : Caller → List UInt8) {fs : FileSystem}
    (hfs : fs.WellFormed) : WritersInvariant bytes fs.targetContent (Writers.start fs) := by
  refine ⟨hfs, ?_, ?_, ?_, Or.inl rfl, ?_⟩
  · intro left right hleft
    cases hleft
  · intro caller inode offset hc
    cases hc
  · intro caller inode hc
    cases hc
  · intro caller hc
    cases hc

theorem overwrite_take (content : List UInt8) {offset : ℕ} (hoff : offset ≤ content.length)
    (count : ℕ) :
    overwrite (content.take offset) offset ((content.drop offset).take count) =
      content.take (offset + ((content.drop offset).take count).length) := by
  have hlen : (content.take offset).length = offset := length_take_of_le hoff
  have hrest : (content.take offset).drop
      (offset + ((content.drop offset).take count).length) = [] := by
    apply drop_of_length_le
    omega
  rw [overwrite, hlen, Nat.sub_self, replicate_zero, append_nil, take_take,
    Nat.min_self, hrest, append_nil, take_add, length_take, ← take_take,
    take_length]

namespace WritersInvariant

variable {bytes : Caller → List UInt8} {earlier : Option (List UInt8)} {writers : Writers}

theorem openTmp_spec {fs : FileSystem} (hfs : fs.WellFormed) :
    fs.openTmp.1.WellFormed ∧ fs.openTmp.1.tmp = some fs.openTmp.2 ∧
      fs.openTmp.1.contents fs.openTmp.2 = [] ∧
      fs.openTmp.1.targetContent = fs.targetContent := by
  obtain ⟨contents, fresh, tmp, target⟩ := fs
  cases tmp with
  | some inode =>
    refine ⟨⟨hfs.tmp_lt, hfs.target_lt, hfs.distinct⟩, rfl, update_self _ _ _, ?_⟩
    apply Option.map_congr
    intro found hf
    apply update_of_ne
    rintro rfl
    exact hfs.distinct found rfl hf
  | none =>
    refine ⟨⟨?_, ?_, ?_⟩, rfl, update_self _ _ _, ?_⟩
    · rintro inode ⟨⟩
      exact Nat.lt_succ_self _
    · intro inode hino
      exact Nat.lt_succ_of_lt (hfs.target_lt inode hino)
    · rintro inode ⟨⟩ htgt
      exact lt_irrefl _ (hfs.target_lt _ htgt)
    · apply Option.map_congr
      intro found hf
      apply update_of_ne
      exact ne_of_lt (hfs.target_lt found hf)

variable {caller : Caller}

theorem set (hinv : WritersInvariant bytes earlier writers)
    (halo : ∀ other, other ≠ caller → (writers.calls other).underway = false) {fs : FileSystem}
    (hfls : fs.WellFormed)
    (htgt : fs.targetContent = earlier ∨ ∃ caller, fs.targetContent = some (bytes caller))
    {call : Call} (hwri : ∀ inode offset, call = .writing inode offset →
      fs.tmp = some inode ∧ offset ≤ (bytes caller).length ∧
        fs.contents inode = (bytes caller).take offset) (hsyn : ∀ inode, call = .synced inode →
      fs.tmp = some inode ∧ fs.contents inode = bytes caller) (hc : call ≠ .failed) :
    WritersInvariant bytes earlier (writers.set caller fs call) := by
  have hself : (writers.set caller fs call).calls caller = call := update_self _ _ _
  have hots : ∀ other, other ≠ caller →
      (writers.set caller fs call).calls other = writers.calls other :=
    fun other hne => update_of_ne hne _ _
  have hund : ∀ other, ((writers.set caller fs call).calls other).underway → other = caller := by
    intro other ho
    by_contra hne
    rw [hots other hne, halo other hne] at ho
    cases ho
  refine ⟨hfls, ?_, ?_, ?_, htgt, ?_⟩
  · intro left right hleft hrgt
    rw [hund left hleft, hund right hrgt]
  · intro other inode offset ho
    obtain rfl : other = caller := hund other (by rw [ho]; rfl)
    exact hwri inode offset (hself.symm.trans ho)
  · intro other inode ho
    obtain rfl : other = caller := hund other (by rw [ho]; rfl)
    exact hsyn inode (hself.symm.trans ho)
  · intro other ho
    by_cases hne : other = caller
    · rw [hne, hself] at ho
      exact hc ho
    · rw [hots other hne] at ho
      exact hinv.written.2 other ho

theorem others (hinv : WritersInvariant bytes earlier writers)
    (hund : (writers.calls caller).underway) :
    ∀ other, other ≠ caller → (writers.calls other).underway = false := by
  intro other hne
  by_contra htrue
  rw [Bool.not_eq_false] at htrue
  exact hne (hinv.alone other caller htrue hund)

theorem stepOpen (hinv : WritersInvariant bytes earlier writers) (caller : Caller)
    (halo : ∀ caller, (writers.calls caller).underway = false) :
    WritersInvariant bytes earlier
      (writers.set caller writers.fs.openTmp.1 (.writing writers.fs.openTmp.2 0)) := by
  obtain ⟨hfls, htmp, hemp, htgt⟩ := openTmp_spec hinv.files
  apply hinv.set (fun other _ => halo other) hfls
  · rw [htgt]
    exact hinv.written.1
  · rintro inode offset ⟨⟩
    exact ⟨htmp, Nat.zero_le _, hemp⟩
  · rintro inode ⟨⟩
  · rintro ⟨⟩

theorem stepWrite (hinv : WritersInvariant bytes earlier writers) {inode offset : ℕ}
    (hc : writers.calls caller = .writing inode offset) (count : ℕ) :
    WritersInvariant bytes earlier
      (writers.set caller
        (writers.fs.writeAt inode offset (((bytes caller).drop offset).take count))
        (.writing inode (offset + (((bytes caller).drop offset).take count).length))) := by
  obtain ⟨htmp, hoff, hcont⟩ := hinv.writing caller inode offset hc
  -- The target is another file, so the write does not reach it.
  have htgt : (writers.fs.writeAt inode offset
      (((bytes caller).drop offset).take count)).targetContent = writers.fs.targetContent := by
    apply Option.map_congr
    intro found hf
    apply update_of_ne
    rintro rfl
    exact hinv.files.distinct found htmp hf
  apply hinv.set (hinv.others (by rw [hc]; rfl))
  · exact ⟨hinv.files.tmp_lt, hinv.files.target_lt, hinv.files.distinct⟩
  · rw [htgt]
    exact hinv.written.1
  · rintro found position ⟨⟩
    refine ⟨htmp, ?_, ?_⟩
    · rw [length_take, length_drop]
      omega
    · calc (writers.fs.writeAt inode offset (((bytes caller).drop offset).take count)).contents
              inode
          = overwrite (writers.fs.contents inode) offset (((bytes caller).drop offset).take count) :=
            update_self _ _ _
        _ = _ := by rw [hcont, overwrite_take _ hoff]
  · rintro found ⟨⟩
  · rintro ⟨⟩

theorem stepSync (hinv : WritersInvariant bytes earlier writers) {inode offset : ℕ}
    (hc : writers.calls caller = .writing inode offset) (hall : (bytes caller).length ≤ offset) :
    WritersInvariant bytes earlier (writers.set caller writers.fs (.synced inode)) := by
  obtain ⟨htmp, -, hcont⟩ := hinv.writing caller inode offset hc
  apply hinv.set (hinv.others (by rw [hc]; rfl)) hinv.files
    hinv.written.1
  · rintro found position ⟨⟩
  · rintro found ⟨⟩
    exact ⟨htmp, by rw [hcont, take_of_length_le hall]⟩
  · rintro ⟨⟩

theorem stepRename (hinv : WritersInvariant bytes earlier writers) {inode : ℕ}
    (hc : writers.calls caller = .synced inode) :
    WritersInvariant bytes earlier
      (writers.set caller { writers.fs with target := some inode, tmp := none } .succeeded) := by
  obtain ⟨htmp, hcont⟩ := hinv.synced caller inode hc
  apply hinv.set (hinv.others (by rw [hc]; rfl))
  · refine ⟨?_, ?_, ?_⟩
    · rintro found ⟨⟩
    · rintro found ⟨⟩
      exact hinv.files.tmp_lt inode htmp
    · rintro found ⟨⟩
  · right
    exact ⟨caller, congrArg some hcont⟩
  · rintro found position ⟨⟩
  · rintro found ⟨⟩
  · rintro ⟨⟩

theorem step (hinv : WritersInvariant bytes earlier writers) {action : Caller × FileStep}
    (halo : OpensAlone writers action) {next : Writers}
    (hs : writers.step bytes action = some next) : WritersInvariant bytes earlier next := by
  obtain ⟨caller, action⟩ := action
  cases action with simp only [Writers.step] at hs
  | «open» =>
    split at hs
    · cases hs
      exact hinv.stepOpen caller halo
    · cases hs
  | write count =>
    split at hs
    · rename_i inode offset hc
      cases hs
      exact hinv.stepWrite hc count
    · cases hs
  | sync =>
    split at hs
    · rename_i inode offset hc
      split at hs
      · rename_i hall
        cases hs
        exact hinv.stepSync hc hall
      · cases hs
    · cases hs
  | rename =>
    split at hs
    · rename_i inode hc
      have hren := hinv.stepRename hc
      rw [FileSystem.renameTmp, (hinv.synced caller inode hc).1] at hs
      cases hs
      exact hren
    · cases hs

end WritersInvariant

/-- A temporary file that is never opened twice keeps the target whole. -/
theorem atomic_write_of_opensAlone (bytes : Caller → List UInt8) (fs : FileSystem)
    (hfs : fs.WellFormed) (steps : List (Caller × FileStep))
    (halone : GuardedRun (Writers.step bytes) (Writers.start fs) OpensAlone steps)
    (writers : Writers)
    (hrun : runSteps (Writers.step bytes) (Writers.start fs) steps = some writers) :
    WrittenAtomically bytes fs.targetContent writers :=
  (invariant_of_guardedRun (WritersInvariant.start bytes hfs)
    (fun _ _ _ hinvariant hguard hstep => hinvariant.step hguard hstep) halone hrun).written

/-- An empty directory. -/
def emptyFiles : FileSystem := ⟨fun _ => [], 0, none, none⟩

def sampleBytes : Caller → List UInt8
  | .first => [1]
  | .second => [2]

def sampleSteps : List (Caller × FileStep) :=
  [(.first, .open), (.first, .write 1), (.first, .sync), (.first, .rename),
    (.second, .open), (.second, .write 1), (.second, .sync), (.second, .rename)]

theorem atomic_write_of_opensAlone_sample : ∃ writers,
    runSteps (Writers.step sampleBytes) (Writers.start emptyFiles) sampleSteps = some writers ∧
      writers.fs.targetContent = some [2] ∧ WrittenAtomically sampleBytes none writers := by
  refine ⟨_, rfl, rfl, atomic_write_of_opensAlone sampleBytes emptyFiles
    ⟨(fun _ h => by cases h), (fun _ h => by cases h), (fun _ h => by cases h)⟩
    sampleSteps ?_ _ rfl⟩
  intro before action after state heq hstate
  rcases before with _ | ⟨_, _ | ⟨_, _ | ⟨_, _ | ⟨_, _ | ⟨_, before⟩⟩⟩⟩⟩
  · cases heq
    cases hstate
    intro caller
    rfl
  · cases heq
    exact trivial
  · cases heq
    exact trivial
  · cases heq
    exact trivial
  · cases heq
    cases hstate
    intro caller
    cases caller <;> rfl
  · simp only [sampleSteps, cons_append, List.cons.injEq] at heq
    have hmem : action ∈ [(Caller.second, FileStep.write 1), (.second, .sync),
        (.second, .rename)] := by
      rw [heq.2.2.2.2.2]
      exact mem_append_right _ mem_cons_self
    simp only [mem_cons, not_mem_nil, or_false] at hmem
    rcases hmem with rfl | rfl | rfl <;> exact trivial

/-- One call truncates what the other is about to rename. -/
theorem atomic_write_truncates_other : ∃ writers,
    runSteps (Writers.step sampleBytes) (Writers.start emptyFiles)
      [(.first, .open), (.first, .write 1), (.first, .sync), (.second, .open),
        (.first, .rename)] = some writers ∧
    writers.fs.targetContent = some [] ∧
    ¬ WrittenAtomically sampleBytes none writers ∧
    ∃ later, runSteps (Writers.step sampleBytes) writers
      [(.second, .write 1), (.second, .sync), (.second, .rename)] = some later ∧
      later.calls .second = .failed := by
  refine ⟨_, rfl, rfl, ?_, _, rfl, rfl⟩
  rintro ⟨hearlier | ⟨caller, hcaller⟩, -⟩
  · cases hearlier
  · cases caller
    · revert hcaller
      decide
    · revert hcaller
      decide

end AukiSdk.Registry
