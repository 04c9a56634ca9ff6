import AukiSdk.Registry.PeerAgreement

/-!
# Runs of the registering calls

The agreement of memory and directory over a whole run.
-/

namespace AukiSdk.Registry

open AukiSdk.Foundation List Function

variable {registries : Registries} {peerId : List Char} {data : StoreData registries}
  {appRoot : Path} {calls : ℕ → RegisterCall registries peerId} {state : PeerState registries}

/-- A call in this phase holds the write lock. -/
def RegisterPhase.Holds (locks : Bool) : RegisterPhase → Prop
  | .locked => True
  | .wrote _ => locks = true
  | _ => False

/-- What is known of a call in a phase. -/
def RegisterPhase.Fits (call : RegisterCall registries peerId) : RegisterPhase → Prop
  | .ready => validateRegistryId call.id = .ok ()
  | .locked => validateRegistryId call.id = .ok () ∧ call.locks = true
  | .prepared => validateRegistryId call.id = .ok () ∧ call.locks = false
  | _ => True

/-- The tip of a device model. -/
def modelTip (appRoot : Path) (peerId id : List Char) : Path :=
  deviceModelsPeerDir appRoot peerId ++ [idToSegment id] ++ ["TIP".toList]

/-- What holds of every state of an orderly run. -/
structure PeerState.Sound (data : StoreData registries) (appRoot : Path)
    (calls : ℕ → RegisterCall registries peerId) (state : PeerState registries) : Prop where
  fits : ∀ caller, (state.phases caller).Fits (calls caller)
  lock : ∀ caller, state.writer = some caller ↔
    (state.phases caller).Holds (calls caller).locks
  written : ∀ caller position, state.phases caller = .wrote position →
    state.writes[position]? = some caller
  kept : ∀ caller ∈ state.writes, (calls caller).Kept data appRoot state.files
  tips : ∀ id entry, LastWritten calls state.writes .deviceModel id entry →
    state.files (modelTip appRoot peerId id) = some (utf8 (registries.hash entry))
  origin : ∀ kind id found, state.origin kind id = some found →
    ∃ caller entry, state.writes[found]? = some caller ∧
      (calls caller).Registers kind id entry ∧ state.memory kind id = some entry
  memory : ∀ kind id, state.origin kind id = none → state.memory kind id = none
  covered : ∀ position caller, state.writes[position]? = some caller →
    state.phases caller = .wrote position ∨
      ∃ found, state.origin (calls caller).kind (calls caller).id = some found ∧
        position ≤ found
  locked_last : ∀ caller position, state.phases caller = .wrote position →
    (calls caller).locks = true → ∀ later other, position < later →
      state.writes[later]? = some other → (calls other).locks = false
  returned : ∀ caller reference, state.phases caller = .returned (some reference) →
    caller ∈ state.writes ∧ reference = (calls caller).reference

theorem PeerState.Sound.new (files : Files) :
    (PeerState.new registries files).Sound data appRoot calls where
  fits := fun _ => trivial
  lock := fun caller => iff_of_false (by rintro ⟨⟩) fun hhld => hhld
  written := by rintro caller position ⟨⟩
  kept := fun caller hm => absurd hm not_mem_nil
  tips := by
    rintro id entry ⟨before, caller, after, hsp, -⟩
    cases before <;> cases hsp
  origin := by rintro kind id found ⟨⟩
  memory := fun _ _ _ => rfl
  covered := by rintro position caller ⟨⟩
  locked_last := by rintro caller position ⟨⟩
  returned := by rintro caller reference ⟨⟩

theorem PeerState.Sound.last_of_quiet (hs : state.Sound data appRoot calls)
    (hqui : state.Quiet) {kind : RegistryKind} {id : List Char}
    {entry : (registries.type kind).Entry} :
    state.memory kind id = some entry ↔ LastWritten calls state.writes kind id entry := by
  have hcov : ∀ position caller, state.writes[position]? = some caller →
      ∃ found, state.origin (calls caller).kind (calls caller).id = some found ∧
        position ≤ found := by
    intro position caller hpos
    rcases hs.covered position caller hpos with hwro | hf
    · rcases hqui caller with hidle | ⟨reference, hret⟩
      · rw [hwro] at hidle
        cases hidle
      · rw [hwro] at hret
        cases hret
    · exact hf
  constructor
  · intro hm
    cases hori : state.origin kind id with
    | none =>
      rw [hs.memory kind id hori] at hm
      cases hm
    | some found =>
      obtain ⟨caller, stashed, hpos, hregs, hsta⟩ := hs.origin kind id found hori
      rw [hsta, Option.some.injEq] at hm
      subst hm
      obtain ⟨hlt, hget⟩ := List.getElem?_eq_some_iff.mp hpos
      refine ⟨state.writes.take found, caller, state.writes.drop (found + 1), ?_, hregs, ?_⟩
      · rw [← hget, getElem_cons_drop, take_append_drop]
      · rintro later hlat ⟨rfl, rfl⟩
        obtain ⟨offset, hoff⟩ := mem_iff_getElem?.mp hlat
        rw [getElem?_drop] at hoff
        obtain ⟨last, hlast, hle⟩ := hcov _ later hoff
        rw [hori, Option.some.injEq] at hlast
        omega
  · rintro ⟨before, caller, after, hsp, hregs, hlast⟩
    obtain ⟨rfl, rfl⟩ := hregs.key
    have hpos : state.writes[before.length]? = some caller := by
      rw [hsp, getElem?_append_right le_rfl, Nat.sub_self, getElem?_cons_zero]
    obtain ⟨found, hori, hle⟩ := hcov _ caller hpos
    obtain ⟨other, stashed, hf, ho, hsta⟩ := hs.origin _ _ found hori
    -- The stashed write is not a later one, so it is this one.
    have hsm : found = before.length := by
      by_contra hne
      obtain ⟨gap, rfl⟩ : ∃ gap, found = before.length + 1 + gap :=
        ⟨found - (before.length + 1), by omega⟩
      rw [hsp, getElem?_append_right (by omega),
        show before.length + 1 + gap - before.length = gap + 1 by omega,
        getElem?_cons_succ] at hf
      exact hlast other (mem_of_getElem? hf) ho.key
    rw [hsm, hpos, Option.some.injEq] at hf
    subst hf
    rw [hsta, ho.unique hregs]

theorem PeerState.Sound.agrees
    (hhash : ∀ bytes, isRegistryEntryHash (registries.hashJcsBytes bytes) = true)
    (hs : state.Sound data appRoot calls) (hqui : state.Quiet) :
    state.Agrees data appRoot calls where
  memory := fun kind id entry => hs.last_of_quiet hqui
  listed := by
    intro id entry hmmr directories hnam hthe rows hlist
    have hlast := (hs.last_of_quiet hqui).mp hmmr
    have htip := hs.tips id entry hlast
    obtain ⟨before, caller, after, hsp, hregs, -⟩ := hlast
    have hm : caller ∈ state.writes := by
      rw [hsp]
      exact mem_append_right _ mem_cons_self
    obtain ⟨hrow, honly⟩ := (hs.kept caller hm).listed hhash hregs htip hnam hthe hlist
    exact ⟨hrow, fun row hrow hid => congrArg DeviceModelListEntry.hash (honly row hrow hid)⟩
  readable := by
    intro caller reference hret
    obtain ⟨hm, rfl⟩ := hs.returned caller reference hret
    exact (hs.kept caller hm).read hhash

theorem PeerState.goto_self (state : PeerState registries) (caller : ℕ) (phase : RegisterPhase) :
    (state.goto caller phase).phases caller = phase := update_self _ _ _

theorem PeerState.goto_of_ne {caller other : ℕ} (hne : other ≠ caller) (phase : RegisterPhase) :
    (state.goto caller phase).phases other = state.phases other :=
  update_of_ne hne _ _

/-- A phase without a write behind it and without a result. -/
def RegisterPhase.Plain : RegisterPhase → Prop
  | .wrote _ => False
  | .returned (some _) => False
  | _ => True

theorem PeerState.Sound.move (hs : state.Sound data appRoot calls) (caller : ℕ)
    (phase : RegisterPhase) (writer : Option ℕ) (hpre : (state.phases caller).Plain)
    (haft : phase.Plain) (hfits : phase.Fits (calls caller))
    (hlock : ∀ other, writer = some other ↔
      ((state.goto caller phase).phases other).Holds (calls other).locks) :
    { state.goto caller phase with writer := writer }.Sound data appRoot calls := by
  have hwro : ∀ other position, (state.goto caller phase).phases other = .wrote position ↔
      state.phases other = .wrote position := by
    intro other position
    by_cases ho : other = caller
    · subst ho
      rw [PeerState.goto_self]
      constructor
      · rintro rfl
        exact absurd haft id
      · intro hp
        rw [hp] at hpre
        exact absurd hpre id
    · rw [PeerState.goto_of_ne ho]
  refine ⟨?_, hlock, ?_, hs.kept, hs.tips, hs.origin, hs.memory, ?_, ?_, ?_⟩
  · intro other
    by_cases ho : other = caller
    · subst ho
      exact (state.goto_self other phase).symm ▸ hfits
    · exact (PeerState.goto_of_ne ho phase).symm ▸ hs.fits other
  · exact fun other position hp => hs.written other position ((hwro _ _).mp hp)
  · intro position other hpos
    exact (hs.covered position other hpos).imp_left (hwro _ _).mpr
  · exact fun other position hp => hs.locked_last other position ((hwro _ _).mp hp)
  · intro other reference hp
    by_cases ho : other = caller
    · subst ho
      have hself := (state.goto_self other phase).symm.trans hp
      subst hself
      exact absurd haft id
    · exact hs.returned other reference ((PeerState.goto_of_ne ho phase).symm.trans hp)

theorem PeerState.Sound.goto (hs : state.Sound data appRoot calls) {caller : ℕ}
    {phase : RegisterPhase} (hpre : (state.phases caller).Plain)
    (hunl : ¬ (state.phases caller).Holds (calls caller).locks) (haft : phase.Plain)
    (hfree : ¬ phase.Holds (calls caller).locks) (hfits : phase.Fits (calls caller)) :
    (state.goto caller phase).Sound data appRoot calls := by
  apply hs.move caller phase state.writer hpre haft hfits
  intro other
  by_cases ho : other = caller
  · subst ho
    rw [PeerState.goto_self]
    exact iff_of_false (fun hwr => hunl ((hs.lock other).mp hwr)) hfree
  · rw [PeerState.goto_of_ne ho]
    exact hs.lock other

theorem PeerState.Sound.acquire (hs : state.Sound data appRoot calls) {caller : ℕ}
    (hp : state.phases caller = .ready) (hfree : state.writer = none)
    (hlks : (calls caller).locks = true) :
    ({ state with writer := some caller }.goto caller .locked).Sound data appRoot calls := by
  have hfits := hs.fits caller
  rw [hp] at hfits
  apply hs.move caller .locked (some caller) (by rw [hp]; trivial) trivial
    ⟨hfits, hlks⟩
  intro other
  by_cases ho : other = caller
  · subst ho
    rw [PeerState.goto_self]
    exact iff_of_true rfl trivial
  · rw [PeerState.goto_of_ne ho, ← hs.lock other, hfree, Option.some.injEq]
    exact iff_of_false (fun heq => ho heq.symm) nofun

theorem PeerState.Sound.setFiles
    (hhash : ∀ bytes, isRegistryEntryHash (registries.hashJcsBytes bytes) = true)
    (hs : state.Sound data appRoot calls) {files : Files} (hkps : Keeps state.files files)
    (htips : ∀ path, files (tipPath path) = state.files (tipPath path)) :
    { state with files := files }.Sound data appRoot calls where
  __ := hs
  kept := fun caller hm => (hs.kept caller hm).mono hhash hkps
  tips := by
    intro id entry hlast
    have htip : modelTip appRoot peerId id =
        tipPath (deviceModelsPeerDir appRoot peerId ++ [idToSegment id] ++ [[]]) := by
      rw [tipPath, dropLast_concat]
      rfl
    have hold := hs.tips id entry hlast
    rw [htip] at hold ⊢
    exact (htips _).trans hold

/-- A call that is about to write. -/
def RegisterPhase.Writing (locks : Bool) (phase : RegisterPhase) : Prop :=
  (phase = .locked ∧ locks = true) ∨ (phase = .prepared ∧ locks = false)

theorem PeerState.Sound.writing (hs : state.Sound data appRoot calls) {caller : ℕ}
    (hp : state.phases caller = .locked ∨ state.phases caller = .prepared) :
    (state.phases caller).Writing (calls caller).locks ∧
      validateRegistryId (calls caller).id = .ok () := by
  have hfits := hs.fits caller
  rcases hp with hp | hp
  · rw [hp] at hfits ⊢
    exact ⟨Or.inl ⟨rfl, hfits.2⟩, hfits.1⟩
  · rw [hp] at hfits ⊢
    exact ⟨Or.inr ⟨rfl, hfits.2⟩, hfits.1⟩

theorem PeerState.Sound.writeFailed (hs : state.Sound data appRoot calls) {caller : ℕ}
    (hwri : (state.phases caller).Writing (calls caller).locks) :
    { state with
      writer := if (calls caller).locks then none else state.writer
      phases := Function.update state.phases caller (.returned none) }.Sound
        data appRoot calls := by
  refine hs.move caller (.returned none) _ ?_ trivial trivial ?_
  · rcases hwri with ⟨hp, -⟩ | ⟨hp, -⟩
    · rw [hp]
      trivial
    · rw [hp]
      trivial
  · intro other
    rcases hwri with ⟨hp, hlks⟩ | ⟨hp, hlks⟩
    · have hwr := (hs.lock caller).mpr (by rw [hp]; trivial)
      rw [hlks, if_pos rfl]
      by_cases ho : other = caller
      · subst ho
        rw [PeerState.goto_self]
        exact iff_of_false nofun fun hhld => hhld
      · rw [PeerState.goto_of_ne ho, ← hs.lock other, hwr, Option.some.injEq]
        exact iff_of_false nofun fun heq => ho heq.symm
    · rw [hlks, if_neg Bool.false_ne_true]
      by_cases ho : other = caller
      · subst ho
        rw [PeerState.goto_self, hs.lock other, hp]
        exact Iff.rfl
      · rw [PeerState.goto_of_ne ho]
        exact hs.lock other

theorem lastWritten_concat {writes : List ℕ} {caller : ℕ} {kind : RegistryKind}
    {id : List Char} {entry : (registries.type kind).Entry}
    (hlast : LastWritten calls (writes ++ [caller]) kind id entry) :
    (calls caller).Registers kind id entry ∨
      ¬ ((calls caller).kind = kind ∧ (calls caller).id = id) ∧
        LastWritten calls writes kind id entry := by
  obtain ⟨before, found, after, hsp, hregs, hlat⟩ := hlast
  rcases concat_eq_append_cons hsp with ⟨-, rfl, -⟩ | ⟨rest, rfl, hwri⟩
  · exact Or.inl hregs
  · exact Or.inr ⟨hlat caller (by simp), before, found, rest, hwri, hregs,
      fun later hm => hlat later (mem_append_left _ hm)⟩

theorem RegisterCall.kept_of_write
    (hhash : ∀ bytes, isRegistryEntryHash (registries.hashJcsBytes bytes) = true)
    {call : RegisterCall registries peerId} {files : Files} {written : Files × WriteOutcome}
    (hwrt : registries.write (data.checks appRoot) files appRoot call.kind call.entry =
      .ok written) (hid : validateRegistryId call.id = .ok ()) (hrds : call.ReadsBack data) :
    Keeps files written.1 ∧ call.Kept data appRoot written.1 := by
  have hkps : Keeps files written.1 := by
    intro path bytes hpath hfile
    have hper : (StoreCall.write call.kind call.entry : StoreCall registries).perform data
        appRoot files = .ok (written.1, written.2.hash) := by
      rw [StoreCall.perform, hwrt]
      rfl
    exact StoreCall.keeps hper hpath hfile
  obtain ⟨hst, hval⟩ := Registries.write_stored hhash hwrt
  refine ⟨hkps, hst.file, hst.size, hval, hid, hrds, ?_⟩
  intro id entry hregs sha256 hm
  obtain ⟨kind', entry', package, owned, not_clock, packaged⟩ := call
  cases hregs
  have hblb := ensureDeviceModelBlobs_eq_ok (writeDeviceModel_tip hhash hwrt).1
  obtain ⟨bytes, hblob⟩ := hblb sha256 hm
  obtain ⟨hsha, hfile, hsize, hdig⟩ := getBlob_eq_some.mp hblob
  exact ⟨bytes, getBlob_eq_some.mpr ⟨hsha,
    hkps _ _ (fun other => blobPath_ne_tipPath appRoot other hsha) hfile, hsize, hdig⟩⟩

theorem modelTip_injective {appRoot : Path} {peerId left right : List Char}
    (heq : modelTip appRoot peerId left = modelTip appRoot peerId right) :
    idToSegment left = idToSegment right := by
  rw [modelTip, modelTip, append_left_inj, append_cancel_left_eq] at heq
  exact singleton_inj.mp heq

theorem PeerState.Sound.tips_written
    (hhash : ∀ bytes, isRegistryEntryHash (registries.hashJcsBytes bytes) = true)
    (hs : state.Sound data appRoot calls) {caller : ℕ} {written : Files × WriteOutcome}
    (hwrt : registries.write (data.checks appRoot) state.files appRoot (calls caller).kind
      (calls caller).entry = .ok written)
    (hid : validateRegistryId (calls caller).id = .ok ())
    (hdir : state.OwnDirectory calls caller) {id : List Char}
    {entry : (registries.type .deviceModel).Entry}
    (hlast : LastWritten calls (state.writes ++ [caller]) .deviceModel id entry) :
    written.1 (modelTip appRoot peerId id) = some (utf8 (registries.hash entry)) := by
  have htip : ∀ id : List Char, modelTip appRoot peerId id =
      tipPath (deviceModelsPeerDir appRoot peerId ++ [idToSegment id] ++ [[]]) := by
    intro id
    rw [tipPath, dropLast_concat]
    rfl
  have hold : ∀ {id entry}, LastWritten calls state.writes .deviceModel id entry →
      ((calls caller).kind = .deviceModel → (calls caller).id ≠ id) →
      written.1 (modelTip appRoot peerId id) = some (utf8 (registries.hash entry)) := by
    intro id entry hlast ho
    have hpre := hs.tips id entry hlast
    by_cases hkind : (calls caller).kind = .deviceModel
    · have hne : modelTip appRoot peerId id ≠ modelTip appRoot peerId (calls caller).id := by
        intro heq
        obtain ⟨before, found, after, hsp, hregs, -⟩ := hlast
        obtain ⟨hf, rfl⟩ := hregs.key
        have hm : found ∈ state.writes := by
          rw [hsp]
          exact mem_append_right _ mem_cons_self
        exact ho hkind (hdir hkind found hm hf (modelTip_injective heq)).symm
      clear hlast ho hdir
      generalize calls caller = call at hwrt hid hkind hne
      obtain ⟨kind', entry', package, owned, not_clock, packaged⟩ := call
      subst hkind
      have haft := (writeDeviceModel_tip hhash hwrt).2
        (deviceModelsPeerDir appRoot peerId ++ [idToSegment id] ++ [[]])
      have hown : tipPath (registries.path appRoot .deviceModel entry') =
          modelTip appRoot peerId ((registries.type .deviceModel).id entry') := by
        rw [Registries.path, owned]
        exact (deviceModel_paths appRoot peerId hid (hhash _)).2
      have hne' : modelTip appRoot peerId id ≠
        modelTip appRoot peerId ((registries.type .deviceModel).id entry') := hne
      rw [← htip id, hown, if_neg hne'] at haft
      exact haft.trans hpre
    · rw [htip id] at hpre ⊢
      exact (Registries.write_tip hhash hwrt hkind _).trans hpre
  rcases lastWritten_concat hlast with hregs | ⟨ho, hlast⟩
  · clear hold hlast hdir
    generalize calls caller = call at hwrt hid hregs
    obtain ⟨kind', entry', package, owned, not_clock, packaged⟩ := call
    cases hregs
    have hown : tipPath (registries.path appRoot .deviceModel entry') =
        modelTip appRoot peerId ((registries.type .deviceModel).id entry') := by
      rw [Registries.path, owned]
      exact (deviceModel_paths appRoot peerId hid (hhash _)).2
    have haft := (writeDeviceModel_tip hhash hwrt).2
      (registries.path appRoot .deviceModel entry')
    rw [if_pos rfl, hown] at haft
    exact haft
  · exact hold hlast fun hkind hsm => ho ⟨hkind, hsm⟩

theorem PeerState.Sound.write
    (hhash : ∀ bytes, isRegistryEntryHash (registries.hashJcsBytes bytes) = true)
    (hs : state.Sound data appRoot calls) {caller : ℕ}
    (hwri : (state.phases caller).Writing (calls caller).locks)
    (hid : validateRegistryId (calls caller).id = .ok ())
    {written : Files × WriteOutcome}
    (hwrt : registries.write (data.checks appRoot) state.files appRoot (calls caller).kind
      (calls caller).entry = .ok written)
    (hrds : (calls caller).ReadsBack data) (hdir : state.OwnDirectory calls caller) :
    { state with
      files := written.1
      writes := state.writes ++ [caller]
      phases := Function.update state.phases caller (.wrote state.writes.length) }.Sound
        data appRoot calls := by
  obtain ⟨hkps, hkept⟩ := RegisterCall.kept_of_write hhash hwrt hid hrds
  have hnot : ∀ position, state.phases caller ≠ .wrote position := by
    intro position hp
    rw [hp] at hwri
    rcases hwri with ⟨⟨⟩, -⟩ | ⟨⟨⟩, -⟩
  have hself : (Function.update state.phases caller
      (.wrote state.writes.length)) caller = .wrote state.writes.length :=
    update_self _ _ _
  have hots : ∀ other, other ≠ caller → (Function.update state.phases caller
      (.wrote state.writes.length)) other = state.phases other :=
    fun other ho => update_of_ne ho _ _
  have hpri : ∀ {position found : ℕ}, state.writes[position]? = some found →
      (state.writes ++ [caller])[position]? = some found := by
    intro position found hpos
    rw [getElem?_append_left (List.getElem?_eq_some_iff.mp hpos).1, hpos]
  have hlast : ∀ {position found : ℕ}, (state.writes ++ [caller])[position]? = some found →
      state.writes[position]? = some found ∨ (position = state.writes.length ∧ found = caller) := by
    intro position found hpos
    by_cases hlt : position < state.writes.length
    · rw [getElem?_append_left hlt] at hpos
      exact Or.inl hpos
    · rw [getElem?_append_right (not_lt.mp hlt)] at hpos
      obtain ⟨hzero, hf⟩ := List.getElem?_eq_some_iff.mp hpos
      rw [length_singleton] at hzero
      rw [getElem_singleton] at hf
      exact Or.inr ⟨by omega, hf.symm⟩
  refine ⟨?_, ?_, ?_, ?_, ?_, ?_, hs.memory, ?_, ?_, ?_⟩
  · intro other
    by_cases ho : other = caller
    · subst ho
      simp only [hself]
      trivial
    · simp only [hots other ho]
      exact hs.fits other
  · intro other
    by_cases ho : other = caller
    · subst ho
      simp only [hself]
      rw [hs.lock other]
      rcases hwri with ⟨hp, hlks⟩ | ⟨hp, hlks⟩
      · rw [hp]
        exact iff_of_true trivial hlks
      · rw [hp]
        exact iff_of_false (fun hhld => hhld) (by rw [RegisterPhase.Holds, hlks]; simp)
    · simp only [hots other ho]
      exact hs.lock other
  · intro other position hp
    by_cases ho : other = caller
    · subst ho
      simp only [hself, RegisterPhase.wrote.injEq] at hp
      subst hp
      exact getElem?_concat_length
    · simp only [hots other ho] at hp
      exact hpri (hs.written other position hp)
  · intro other hm
    rcases mem_append.mp hm with hm | hm
    · exact (hs.kept other hm).mono hhash hkps
    · rw [mem_singleton.mp hm]
      exact hkept
  · exact fun id entry hlas =>
      hs.tips_written hhash hwrt hid hdir hlas
  · intro kind id found hori
    obtain ⟨other, entry, hf, hregs, hmmr⟩ := hs.origin kind id found hori
    exact ⟨other, entry, hpri hf, hregs, hmmr⟩
  · intro position other hpos
    rcases hlast hpos with hpos | ⟨rfl, rfl⟩
    · rcases hs.covered position other hpos with hp | hcovered
      · left
        have ho : other ≠ caller := by
          rintro rfl
          exact hnot position hp
        exact (hots other ho).trans hp
      · exact Or.inr hcovered
    · exact Or.inl hself
  · intro other position hp hlks later found hlt hf
    by_cases ho : other = caller
    · subst ho
      simp only [hself, RegisterPhase.wrote.injEq] at hp
      have hbnd := (List.getElem?_eq_some_iff.mp hf).1
      simp only [length_append, length_singleton] at hbnd
      omega
    · simp only [hots other ho] at hp
      rcases hlast hf with hf | ⟨-, rfl⟩
      · exact hs.locked_last other position hp hlks later found hlt hf
      · -- The other call holds the lock.
        have hwr := (hs.lock other).mpr (by rw [hp]; exact hlks)
        rcases hwri with ⟨hlck, -⟩ | ⟨-, hlocks'⟩
        · have hwriter' := (hs.lock found).mpr (by rw [hlck]; trivial)
          rw [hwr, Option.some.injEq] at hwriter'
          exact absurd hwriter' ho
        · exact hlocks'
  · intro other reference hp
    by_cases ho : other = caller
    · subst ho
      simp only [hself] at hp
      cases hp
    · simp only [hots other ho] at hp
      obtain ⟨hm, href⟩ := hs.returned other reference hp
      exact ⟨mem_append_left _ hm, href⟩

section Stash

variable (state) (call : RegisterCall registries peerId) (position : ℕ)

theorem PeerState.stash_origin_self : (state.stash call position).origin call.kind call.id =
    some (max position ((state.origin call.kind call.id).getD 0)) := by
  simp only [PeerState.stash, update_self]

theorem PeerState.stash_memory_self :
    (state.stash call position).memory call.kind call.id = some call.entry := by
  simp only [PeerState.stash, update_self]

variable {call} {kind : RegistryKind} {id : List Char}

theorem PeerState.stash_of_ne (hne : ¬ (call.kind = kind ∧ call.id = id)) :
    (state.stash call position).origin kind id = state.origin kind id ∧
      (state.stash call position).memory kind id = state.memory kind id := by
  by_cases hkind : kind = call.kind
  · subst hkind
    have hid : id ≠ call.id := fun heq => hne ⟨rfl, heq.symm⟩
    simp only [PeerState.stash, update_self, update_of_ne hid, and_self]
  · simp only [PeerState.stash, update_of_ne hkind, and_self]

end Stash

theorem PeerState.Sound.newest (hs : state.Sound data appRoot calls) {caller position : ℕ}
    (hp : state.phases caller = .wrote position)
    (horder : state.InOrder calls caller position) :
    ∃ newest, state.writes[max position ((state.origin (calls caller).kind
        (calls caller).id).getD 0)]? = some newest ∧
      (calls newest).Registers (calls caller).kind (calls caller).id (calls caller).entry := by
  have hwri := hs.written caller position hp
  have hown : ∀ {found : ℕ}, found ≤ position → ∃ newest,
      state.writes[max position found]? = some newest ∧
        (calls newest).Registers (calls caller).kind (calls caller).id (calls caller).entry := by
    intro found hle
    rw [max_eq_left hle]
    exact ⟨caller, hwri, .intro⟩
  cases hori : state.origin (calls caller).kind (calls caller).id with
  | none => exact hown (Nat.zero_le _)
  | some found =>
    obtain ⟨other, stashed, hf, hregs, hsta⟩ := hs.origin _ _ found hori
    rw [Option.getD_some]
    cases hlks : (calls caller).locks with
    | true =>
      -- A later write of the kind would have needed the lock.
      apply hown
      by_contra hlat
      have hnot := hs.locked_last caller position hp hlks found other
        (not_le.mp hlat) hf
      rw [RegisterCall.locks, hregs.key.1] at hnot
      rw [RegisterCall.locks, hnot] at hlks
      cases hlks
    | false =>
      rcases horder hlks found hori with hlt | hsm
      · exact hown hlt.le
      · rw [hsta, Option.some.injEq] at hsm
        subst hsm
        rcases le_total found position with hle | hle
        · exact hown hle
        · rw [max_eq_right hle]
          exact ⟨other, hf, hregs⟩

theorem PeerState.Sound.stash (hs : state.Sound data appRoot calls) {caller position : ℕ}
    (hp : state.phases caller = .wrote position)
    (horder : state.InOrder calls caller position) (writer : Option ℕ)
    (hlock : ∀ other, writer = some other ↔
      ((state.goto caller (.returned (some (calls caller).reference))).phases other).Holds
        (calls other).locks) :
    ({ state.stash (calls caller) position with writer := writer }.goto caller
      (.returned (some (calls caller).reference))).Sound data appRoot calls := by
  have hwri := hs.written caller position hp
  have hself := state.goto_self caller (.returned (some (calls caller).reference))
  have hwro : ∀ other found,
      (state.goto caller (.returned (some (calls caller).reference))).phases other =
        .wrote found → other ≠ caller ∧ state.phases other = .wrote found := by
    intro other found ho
    have hne : other ≠ caller := by
      rintro rfl
      rw [hself] at ho
      cases ho
    exact ⟨hne, (PeerState.goto_of_ne hne _).symm.trans ho⟩
  refine ⟨?_, hlock, ?_, hs.kept, hs.tips, ?_, ?_, ?_, ?_, ?_⟩
  · intro other
    by_cases ho : other = caller
    · subst ho
      exact hself.symm ▸ trivial
    · exact (PeerState.goto_of_ne ho _).symm ▸ hs.fits other
  · exact fun other found ho => hs.written other found (hwro other found ho).2
  · intro kind id found hori
    by_cases hkey : (calls caller).kind = kind ∧ (calls caller).id = id
    · obtain ⟨rfl, rfl⟩ := hkey
      obtain ⟨newest, hnwt, hregs⟩ := hs.newest hp horder
      have hf := (state.stash_origin_self (calls caller) position).symm.trans hori
      rw [Option.some.injEq] at hf
      exact ⟨newest, (calls caller).entry, hf ▸ hnwt, hregs,
        state.stash_memory_self (calls caller) position⟩
    · obtain ⟨hold, hm⟩ := state.stash_of_ne position hkey
      obtain ⟨other, entry, hf, hregs, hsta⟩ := hs.origin kind id found (hold.symm.trans hori)
      exact ⟨other, entry, hf, hregs, hm.trans hsta⟩
  · intro kind id hori
    by_cases hkey : (calls caller).kind = kind ∧ (calls caller).id = id
    · obtain ⟨rfl, rfl⟩ := hkey
      exact absurd ((state.stash_origin_self (calls caller) position).symm.trans hori) nofun
    · obtain ⟨hold, hm⟩ := state.stash_of_ne position hkey
      exact hm.trans (hs.memory kind id (hold.symm.trans hori))
  · intro found other hf
    rcases hs.covered found other hf with ho | ⟨last, hlast, hle⟩
    · by_cases hsm : other = caller
      · subst hsm
        rw [hp, RegisterPhase.wrote.injEq] at ho
        subst ho
        exact Or.inr ⟨_, state.stash_origin_self (calls other) position, le_max_left _ _⟩
      · exact Or.inl ((PeerState.goto_of_ne hsm _).trans ho)
    · right
      by_cases hkey : (calls caller).kind = (calls other).kind ∧
          (calls caller).id = (calls other).id
      · have hori := state.stash_origin_self (calls caller) position
        rw [hkey.1, hkey.2, hlast, Option.getD_some] at hori
        exact ⟨_, hori, hle.trans (le_max_right _ _)⟩
      · exact ⟨last, (state.stash_of_ne position hkey).1.trans hlast, hle⟩
  · intro other found ho hlks later third
    exact hs.locked_last other found (hwro other found ho).2 hlks later third
  · intro other reference ho
    by_cases hsm : other = caller
    · subst hsm
      have hret := hself.symm.trans ho
      rw [RegisterPhase.returned.injEq, Option.some.injEq] at hret
      exact ⟨mem_of_getElem? hwri, hret.symm⟩
    · exact hs.returned other reference ((PeerState.goto_of_ne hsm _).symm.trans ho)

section Run

variable (hhash : ∀ bytes, isRegistryEntryHash (registries.hashJcsBytes bytes) = true)
  (hsha : ∀ bytes, isSha256Hex (data.sha256Hex bytes) = true)

include hhash hsha

theorem PeerState.Sound.putBlob (hs : state.Sound data appRoot calls) {bytes : List UInt8}
    {result : Files × List Char}
    (hput : putBlob data state.files appRoot bytes = .ok result) :
    { state with files := result.1 }.Sound data appRoot calls := by
  apply hs.setFiles hhash
  · have hper : (StoreCall.putBlob bytes : StoreCall registries).perform data appRoot
        state.files = .ok result := hput
    exact fun path found hpath hfile => StoreCall.keeps hper hpath hfile
  · intro path
    obtain ⟨-, -, ⟨-, hfls⟩ | ⟨-, hfls⟩⟩ := putBlob_eq_ok hput
    · rw [hfls]
      exact update_of_ne (blobPath_ne_tipPath appRoot path (hsha bytes)).symm _ _
    · rw [hfls]

omit hsha in
theorem PeerState.Sound.writes (hs : state.Sound data appRoot calls) {caller : ℕ}
    (hp : state.phases caller = .locked ∨ state.phases caller = .prepared)
    (hrds : (calls caller).ReadsBack data) (hdir : state.OwnDirectory calls caller) :
    (state.write data appRoot calls caller).Sound data appRoot calls := by
  obtain ⟨hwri, hid⟩ := hs.writing hp
  rw [PeerState.write]
  split
  · exact hs.writeFailed hwri
  · rename_i written hwrt
    exact hs.write hhash hwri hid hwrt hrds hdir

theorem PeerState.Sound.step (hs : state.Sound data appRoot calls) {action : PeerAction}
    (hord : state.Orderly data calls action) {next : PeerState registries}
    (hstep : state.step data appRoot calls action = some next) :
    next.Sound data appRoot calls := by
  cases action with
  | abandon caller =>
    rw [PeerState.step] at hstep
    split at hstep
    · rename_i blobs hp
      cases hstep
      exact hs.goto (hp ▸ trivial) (hp ▸ id) trivial id trivial
    · cases hstep
  | advance caller =>
    rw [PeerState.step] at hstep
    rw [PeerState.Orderly] at hord
    cases hp : state.phases caller with
    | idle =>
      simp only [hp] at hstep
      have hgoto : ∀ blobs, (state.goto caller (.packaging blobs)).Sound data appRoot calls :=
        fun blobs => hs.goto (hp ▸ trivial) (hp ▸ id) trivial id trivial
      split at hstep
      · cases hstep
        exact hgoto []
      · split at hstep
        · cases hstep
          exact hgoto _
        · cases hstep
    | packaging blobs =>
      cases blobs with
      | nil =>
        simp only [hp] at hstep
        split at hstep
        · cases hstep
          exact hs.goto (hp ▸ trivial) (hp ▸ id) trivial id trivial
        · rename_i hid
          cases hstep
          exact hs.goto (hp ▸ trivial) (hp ▸ id) trivial id hid
      | cons bytes rest =>
        simp only [hp] at hstep
        split at hstep
        · cases hstep
          exact hs.goto (hp ▸ trivial) (hp ▸ id) trivial id trivial
        · rename_i stored sha256 hput
          cases hstep
          exact (hs.putBlob hhash hsha hput).goto (hp ▸ trivial) (hp ▸ id)
            trivial id trivial
    | ready =>
      have hfits := hs.fits caller
      simp only [hp] at hstep hfits
      split at hstep
      · rename_i hfree
        split at hstep
        · rename_i hlks
          cases hstep
          exact hs.acquire hp hfree hlks
        · rename_i hlks
          cases hstep
          exact hs.goto (hp ▸ trivial) (hp ▸ id) trivial id
            ⟨hfits, Bool.eq_false_iff.mpr hlks⟩
      · cases hstep
    | locked =>
      have hfits := hs.fits caller
      simp only [hp] at hstep hord hfits
      cases hstep
      have hdir : state.OwnDirectory calls caller := by
        intro hkind
        have hlks := hfits.2
        rw [RegisterCall.locks, hkind] at hlks
        cases hlks
      exact hs.writes hhash (Or.inl hp) hord hdir
    | prepared =>
      simp only [hp] at hstep hord
      cases hstep
      exact hs.writes hhash (Or.inr hp) hord.1 hord.2
    | wrote position =>
      simp only [hp] at hstep hord
      split at hstep
      · rename_i hlks
        cases hstep
        apply hs.stash hp hord none
        have hwr := (hs.lock caller).mpr (by rw [hp]; exact hlks)
        intro other
        by_cases ho : other = caller
        · subst ho
          rw [PeerState.goto_self]
          exact iff_of_false nofun id
        · rw [PeerState.goto_of_ne ho, ← hs.lock other, hwr, Option.some.injEq]
          exact iff_of_false nofun fun heq => ho heq.symm
      · rename_i hlks
        split at hstep
        · rename_i hfree
          cases hstep
          apply hs.stash hp hord state.writer
          intro other
          by_cases ho : other = caller
          · subst ho
            rw [PeerState.goto_self, hfree]
            exact iff_of_false nofun id
          · rw [PeerState.goto_of_ne ho]
            exact hs.lock other
        · cases hstep
    | returned reference =>
      simp only [hp] at hstep
      cases hstep

/-- **Memory and directory agree** after an orderly run that leaves none in progress. -/
theorem memory_directory_agree (files : Files) (actions : List PeerAction)
    (horderly : GuardedRun (PeerState.step data appRoot calls) (PeerState.new registries files)
      (PeerState.Orderly data calls) actions) {last : PeerState registries}
    (hrun : runSteps (PeerState.step data appRoot calls) (PeerState.new registries files)
      actions = some last) (hquiet : last.Quiet) : last.Agrees data appRoot calls := by
  have hsound : last.Sound data appRoot calls := invariant_of_guardedRun (PeerState.Sound.new files)
      (fun state action next hsound horderly hstep => hsound.step hhash hsha horderly hstep)
      horderly hrun
  exact hsound.agrees hhash hquiet

/-- Calls that register one entry wherever they meet are orderly. -/
theorem orderly_of_same (files : Files) (actions : List PeerAction)
    (hrds : ∀ caller, (calls caller).ReadsBack data)
    (hsm : ∀ caller other, (calls caller).kind = .deviceModel → (calls other).kind = .deviceModel →
      idToSegment (calls other).id = idToSegment (calls caller).id →
      (calls other).Registers (calls caller).kind (calls caller).id (calls caller).entry) :
    GuardedRun (PeerState.step data appRoot calls) (PeerState.new registries files)
      (PeerState.Orderly data calls) actions := by
  have hord : ∀ (state : PeerState registries) (action : PeerAction),
      state.Sound data appRoot calls → state.Orderly data calls action := by
    intro state action hs
    cases action with
    | abandon caller => trivial
    | advance caller =>
      rw [PeerState.Orderly]
      split
      · exact hrds caller
      · exact ⟨hrds caller, fun hkind other _ ho hseg =>
          (hsm caller other hkind ho hseg).key.2⟩
      · intro hlks found hori
        obtain ⟨other, stashed, -, hregs, hsts⟩ := hs.origin _ _ found hori
        have hkind : (calls caller).kind = .deviceModel := by
          simpa [RegisterCall.locks] using hlks
        obtain ⟨ho, hid⟩ := hregs.key
        have hent := hsm caller other hkind (ho.trans hkind) (by rw [hid])
        rw [hsts, hregs.unique hent]
        exact Or.inr rfl
      · trivial
  intro before action after state _ hsta
  apply hord state action
  exact invariant_of_run (PeerState.Sound.new files)
    (fun found step next hs hstep => hs.step hhash hsha (hord found step hs) hstep)
    hsta

end Run

section Crossing

variable (data appRoot calls)

/-- The steps of a device-model call up to its write. -/
def PeerAction.toWrite (caller : ℕ) : List PeerAction :=
  [.advance caller, .advance caller, .advance caller, .advance caller]

theorem PeerState.run_to_write (state : PeerState registries) {caller : ℕ}
    (hidle : state.phases caller = .idle) (hfree : state.writer = none)
    (hpac : (calls caller).package = none)
    (hid : validateRegistryId (calls caller).id = .ok ()) (hlks : (calls caller).locks = false) :
    runSteps (PeerState.step data appRoot calls) state (PeerAction.toWrite caller) =
      some (state.write data appRoot calls caller) := by
  have hsm : ∀ phase, (state.goto caller phase).write data appRoot calls caller =
      state.write data appRoot calls caller := by
    intro phase
    simp only [PeerState.write, PeerState.goto, update_idem]
  have hgoto : ∀ phase phase', (state.goto caller phase).goto caller phase' =
      state.goto caller phase' := by
    intro phase phase'
    simp only [PeerState.goto, update_idem]
  have hwr : ∀ phase, (state.goto caller phase).writer = none := fun _ => hfree
  simp only [PeerAction.toWrite, runSteps, foldlM_cons, foldlM_nil, PeerState.step, hidle,
    hpac, PeerState.goto_self, hgoto, hid, hwr, hlks, Option.bind_eq_bind,
    Option.bind_some, hsm, if_true, Bool.false_eq_true, if_false, Option.pure_def]

theorem PeerState.step_stash (state : PeerState registries) {caller position : ℕ}
    (hp : state.phases caller = .wrote position) (hfree : state.writer = none)
    (hlks : (calls caller).locks = false) :
    state.step data appRoot calls (.advance caller) =
      some ((state.stash (calls caller) position).goto caller
        (.returned (some (calls caller).reference))) := by
  rw [PeerState.step]
  simp only [hp, hlks, hfree, if_true, Bool.false_eq_true, if_false]

variable {data appRoot calls}

theorem PeerState.run_through_write (state : PeerState registries) {caller : ℕ}
    (hidle : state.phases caller = .idle) (hfree : state.writer = none)
    (hpac : (calls caller).package = none) (hlks : (calls caller).locks = false)
    {kind : RegistryKind} {id : List Char} (hid : validateRegistryId id = .ok ())
    {entry : (registries.type kind).Entry} (hregs : (calls caller).Registers kind id entry)
    {written : Files × WriteOutcome}
    (hwrt : registries.write (data.checks appRoot) state.files appRoot kind entry = .ok written) :
    ∃ next, runSteps (PeerState.step data appRoot calls) state (PeerAction.toWrite caller) =
        some next ∧
      next.files = written.1 ∧ next.writer = none ∧ next.writes = state.writes ++ [caller] ∧
      next.phases = Function.update state.phases caller (.wrote state.writes.length) := by
  have hc : registries.write (data.checks appRoot) state.files appRoot (calls caller).kind
        (calls caller).entry = .ok written := by
    generalize calls caller = call at hregs
    cases hregs
    exact hwrt
  refine ⟨_, state.run_to_write data appRoot calls hidle hfree hpac
    (hregs.key.2.symm ▸ hid) hlks, ?_⟩
  rw [PeerState.write, hc]
  exact ⟨rfl, hfree, rfl, rfl⟩

theorem PeerState.stash_memory_of_registers {call : RegisterCall registries peerId}
    {kind : RegistryKind} {id : List Char} {entry : (registries.type kind).Entry}
    (hregs : call.Registers kind id entry) (state : PeerState registries) (position : ℕ) :
    (state.stash call position).memory kind id = some entry := by
  cases hregs
  exact state.stash_memory_self call position

/-- **Two registrations cross**: memory keeps the first, the directory the second. -/
theorem registrations_cross {files : Files} {first second : ℕ} (hne : first ≠ second)
    {id : List Char} {entry other : (registries.type .deviceModel).Entry}
    (hfst : (calls first).Registers .deviceModel id entry)
    (hsnd : (calls second).Registers .deviceModel id other)
    (hpac : (calls first).package = none ∧ (calls second).package = none)
    (hid : validateRegistryId id = .ok ()) {earlier later : Files × WriteOutcome}
    (hpri : registries.write (data.checks appRoot) files appRoot .deviceModel entry = .ok earlier)
    (hlat : registries.write (data.checks appRoot) earlier.1 appRoot .deviceModel other =
      .ok later) :
    ∃ last, runSteps (PeerState.step data appRoot calls) (PeerState.new registries files)
        (PeerAction.toWrite first ++ (PeerAction.toWrite second ++
          [.advance second, .advance first])) = some last ∧
      last.Quiet ∧ last.files = later.1 ∧ last.memory .deviceModel id = some entry ∧
      LastWritten calls last.writes .deviceModel id other := by
  have hlks : ∀ {caller entry}, (calls caller).Registers .deviceModel id entry →
      (calls caller).locks = false := by
    intro caller entry hregs
    rw [RegisterCall.locks, hregs.key.1]
    rfl
  obtain ⟨one, hone, hfls, hfree, hwri, hphs⟩ :=
    (PeerState.new registries files).run_through_write rfl rfl hpac.1 (hlks hfst) hid
      hfst hpri
  have hidle : one.phases second = .idle := by
    rw [hphs, update_of_ne hne.symm]
    rfl
  obtain ⟨two, htwo, hfiles', hfree', hwrites', hphases'⟩ :=
    one.run_through_write hidle hfree hpac.2 (hlks hsnd) hid hsnd
      (hfls.symm ▸ hlat)
  have hwrt : two.phases second = .wrote 1 := by
    rw [hphases', update_self, hwri]
    rfl
  have hwro : two.phases first = .wrote 0 := by
    rw [hphases', update_of_ne hne, hphs, update_self]
    rfl
  have hsts := two.step_stash data appRoot calls hwrt hfree' (hlks hsnd)
  set three := (two.stash (calls second) 1).goto second
    (.returned (some (calls second).reference)) with hthree
  have hwroteFirst' : three.phases first = .wrote 0 := (PeerState.goto_of_ne hne _).trans hwro
  have hsta := three.step_stash data appRoot calls hwroteFirst' hfree' (hlks hfst)
  refine ⟨(three.stash (calls first) 0).goto first (.returned (some (calls first).reference)),
    ?_, ?_, hfiles', PeerState.stash_memory_of_registers hfst three 0, ?_⟩
  · rw [runSteps_append, hone, Option.bind_some, runSteps_append, htwo, Option.bind_some]
    simp only [runSteps, foldlM_cons, foldlM_nil, hsts, hsta,
      Option.bind_eq_bind, Option.bind_some, Option.pure_def]
  · intro caller
    by_cases hcal : caller = first
    · subst hcal
      exact Or.inr ⟨_, PeerState.goto_self _ _ _⟩
    · rw [PeerState.goto_of_ne hcal]
      by_cases hcaller' : caller = second
      · subst hcaller'
        exact Or.inr ⟨_, PeerState.goto_self _ _ _⟩
      · left
        calc three.phases caller
            = two.phases caller := PeerState.goto_of_ne hcaller' _
          _ = .idle := by
              rw [hphases', update_of_ne hcaller', hphs, update_of_ne hcal]
              rfl
  · refine ⟨[first], second, [], ?_, hsnd, fun later hm => absurd hm not_mem_nil⟩
    calc two.writes
        = one.writes ++ [second] := hwrites'
      _ = [first] ++ [second] := by
          rw [hwri]
          rfl

theorem PeerState.not_agrees {id : List Char} {entry other : (registries.type .deviceModel).Entry}
    (hent : entry ≠ other) (hm : state.memory .deviceModel id = some entry)
    (hlast : LastWritten calls state.writes .deviceModel id other) :
    ¬ state.Agrees data appRoot calls := by
  intro hagr
  have ho := (hagr.memory .deviceModel id other).mpr hlast
  rw [hm, Option.some.injEq] at ho
  exact hent ho

theorem writeDeviceModel_fresh (checks : WriteChecks registries) {files : Files}
    {entry : (registries.type .deviceModel).Entry}
    (hvalid : (registries.type .deviceModel).validate entry = .ok ())
    (hblb : checks.ensureBlobs files entry = .ok ())
    (hsize : ((registries.type .deviceModel).canonicalBytes entry).length ≤
      maxDeviceModelEntryBytes)
    (hfile : files (registries.path appRoot .deviceModel entry) = none) :
    ∃ written, writeDeviceModel registries checks files appRoot entry = .ok written := by
  have hsto : storeEntry registries .deviceModel files appRoot entry =
      .ok (atomicWrite files (registries.path appRoot .deviceModel entry)
        ((registries.type .deviceModel).canonicalBytes entry),
          .created (registries.hash entry)) := by
    rw [Registries.path] at hfile
    rw [storeEntry, writeEntryAt, hfile]
    rfl
  simp only [writeDeviceModel, bind_unit_eq_ok, Checks.require_bind_eq_ok, Checks.map_eq_ok]
  exact ⟨_, hvalid, hblb, hsize, _, hsto, rfl⟩

theorem exists_writes_of_versions
    (hhash : ∀ bytes, isRegistryEntryHash (registries.hashJcsBytes bytes) = true)
    {files : Files} {entry other : (registries.type .deviceModel).Entry}
    (hvalid : ∀ found ∈ [entry, other], (registries.type .deviceModel).validate found = .ok () ∧
      ((registries.type .deviceModel).canonicalBytes found).length ≤ maxDeviceModelEntryBytes ∧
      ensureDeviceModelBlobs data files appRoot (data.blobs found) = .ok () ∧
      files (registries.path appRoot .deviceModel found) = none)
    (hpath : registries.path appRoot .deviceModel other ≠
      registries.path appRoot .deviceModel entry) :
    ∃ earlier later,
      registries.write (data.checks appRoot) files appRoot .deviceModel entry = .ok earlier ∧
      registries.write (data.checks appRoot) earlier.1 appRoot .deviceModel other = .ok later := by
  obtain ⟨hent, hsize, hblb, hfile⟩ := hvalid entry (by simp)
  obtain ⟨ho, hsize', hblobs', hfile'⟩ := hvalid other (by simp)
  obtain ⟨earlier, hpri⟩ := writeDeviceModel_fresh (data.checks appRoot) hent hblb
    hsize hfile
  have hwro := writeDeviceModel_wrote hpri
  have hfree : earlier.1 (registries.path appRoot .deviceModel other) = none := by
    calc earlier.1 (registries.path appRoot .deviceModel other)
        = Function.update files (registries.path appRoot .deviceModel entry) _
            (registries.path appRoot .deviceModel other) :=
          hwro.after _ fun path => (tipPath_ne_entryPath _ _ _ _ (hhash _) path).symm
      _ = none := by rw [update_of_ne hpath, hfile']
  obtain ⟨later, hlat⟩ := writeDeviceModel_fresh (data.checks appRoot) ho
    ((ensureDeviceModelBlobs_again hhash data hwro (data.blobs other)).trans hblobs') hsize' hfree
  exact ⟨earlier, later, hpri, hlat⟩

end Crossing

/-- What a `DeviceModelRegistryEntry` without meshes serializes. -/
structure UrdfModel where
  peerId : String
  deviceModelId : String
  modelId : String
  urdfSha256 : String
  deriving DecidableEq

/-- `canonical_bytes`. -/
def UrdfModel.canonicalJson (model : UrdfModel) : List UInt8 :=
  literal "\x7b\"device_model_id\":" ++ jsonString (literal model.deviceModelId) ++
    literal ",\"meshes\":[],\"model_id\":" ++ jsonString (literal model.modelId) ++
    literal ",\"peer_id\":" ++ jsonString (literal model.peerId) ++
    literal ",\"type\":\"urdf\",\"urdf_sha256\":" ++ jsonString (literal model.urdfSha256) ++
    literal "\x7d"

/-- A version of the model `k` of the peer `p`, whose file is empty. -/
def modelVersion (modelId : String) : UrdfModel :=
  ⟨"p", "k", modelId, "e3b0c44298fc1c149afbf4c8996fb92427ae41e4649b934ca495991b7852b855"⟩

/-- Readers and writers at two versions of a model. -/
def modelRegistries (first second : UrdfModel) (hash hash' : List Char) : Registries where
  type _ :=
    { Entry := UrdfModel
      fromSlice := fun found =>
        if found = first.canonicalJson then .ok first
        else if found = second.canonicalJson then .ok second
        else .error "expected value".toList
      canonicalBytes := UrdfModel.canonicalJson
      peerId := fun entry => entry.peerId.toList
      id := fun entry => entry.deviceModelId.toList
      validate := fun _ => .ok () }
  hashJcsBytes found := if found = first.canonicalJson then hash else hash'

def versionRegistries (hash hash' : List Char) : Registries :=
  modelRegistries (modelVersion "a") (modelVersion "b") hash hash'

/-- The blobs of the models, next to `sampleData`. -/
def versionData (hash hash' : List Char) : StoreData (versionRegistries hash hash') :=
  { sampleData (versionRegistries hash hash') with
    blobs := fun (entry : UrdfModel) => [entry.urdfSha256.toList] }

/-- A directory with the empty blob. -/
def blobFiles : Files := fun path =>
  if path = blobPath [] (modelVersion "a").urdfSha256.toList then some [] else none

/-- `register_device_model` of a version. -/
def versionCall (hash hash' : List Char) (modelId : String) :
    RegisterCall (versionRegistries hash hash') "p".toList where
  kind := .deviceModel
  entry := modelVersion modelId
  package := none
  owned := by
    show (modelVersion modelId).peerId.toList = "p".toList
    rw [modelVersion]
  not_clock := nofun
  packaged := fun _ => rfl

/-- Two threads register two versions. -/
def versionCalls (hash hash' : List Char) :
    ℕ → RegisterCall (versionRegistries hash hash') "p".toList
  | 0 => versionCall hash hash' "a"
  | _ => versionCall hash hash' "b"

/-- Every thread registers the same version. -/
def versionAgain (hash : List Char) : ℕ → RegisterCall (versionRegistries hash hash) "p".toList :=
  fun _ => versionCall hash hash "a"

section Versions

variable {hash hash' : List Char}

theorem versionRegistries_isHash (hhash : isRegistryEntryHash hash = true)
    (hhash' : isRegistryEntryHash hash' = true) (bytes : List UInt8) :
    isRegistryEntryHash ((versionRegistries hash hash').hashJcsBytes bytes) = true := by
  by_cases hbyt : bytes = (modelVersion "a").canonicalJson
  · exact (congrArg isRegistryEntryHash (if_pos hbyt)).trans hhash
  · exact (congrArg isRegistryEntryHash (if_neg hbyt)).trans hhash'

theorem versionCall_registers (modelId : String) :
    (versionCall hash hash' modelId).Registers .deviceModel "k".toList (modelVersion modelId) := by
  have hregs : (versionCall hash hash' modelId).Registers _ _ _ := .intro
  have hid : (versionCall hash hash' modelId).id = "k".toList := by
    show (modelVersion modelId).deviceModelId.toList = "k".toList
    rw [modelVersion]
  rw [hid] at hregs
  exact hregs

theorem modelRegistries_fromSlice (first second : UrdfModel) (kind : RegistryKind)
    {bytes : List UInt8} (hbyt : bytes = first.canonicalJson) :
    ((modelRegistries first second hash hash').type kind).fromSlice bytes = .ok first :=
  if_pos hbyt

theorem modelRegistries_hash (first second : UrdfModel) {bytes : List UInt8}
    (hbyt : bytes = first.canonicalJson) :
    (modelRegistries first second hash hash').hashJcsBytes bytes = hash :=
  if_pos hbyt

theorem modelRegistries_hash_of_ne (first second : UrdfModel) {bytes : List UInt8}
    (hbyt : bytes ≠ first.canonicalJson) :
    (modelRegistries first second hash hash').hashJcsBytes bytes = hash' :=
  if_neg hbyt

theorem modelRegistries_readsBack (first second : UrdfModel) (kind : RegistryKind) :
    (modelRegistries first second hash hash').ReadsBack kind first first :=
  ⟨modelRegistries_fromSlice first second kind rfl, rfl, rfl, rfl, id⟩

theorem versionCall_readsBack :
    (versionCall hash hash' "a").ReadsBack (versionData hash hash') := by
  refine ⟨modelVersion "a", ?_, ?_⟩
  · exact modelRegistries_readsBack (modelVersion "a") (modelVersion "b") .deviceModel
  · show [(modelVersion "a").urdfSha256.toList] = [(modelVersion "a").urdfSha256.toList]
    rfl

theorem version_valid (hhash : isRegistryEntryHash hash = true)
    (hhash' : isRegistryEntryHash hash' = true) (modelId : String)
    (hsize : (modelVersion modelId).canonicalJson.length ≤ maxDeviceModelEntryBytes) :
    ((versionRegistries hash hash').type .deviceModel).validate (modelVersion modelId) = .ok () ∧
      (((versionRegistries hash hash').type .deviceModel).canonicalBytes
        (modelVersion modelId)).length ≤ maxDeviceModelEntryBytes ∧
      ensureDeviceModelBlobs (versionData hash hash') blobFiles []
        ((versionData hash hash').blobs (modelVersion modelId)) = .ok () ∧
      blobFiles ((versionRegistries hash hash').path [] .deviceModel (modelVersion modelId)) =
        none := by
  have hsha : isSha256Hex (modelVersion modelId).urdfSha256.toList = true := by
    show isSha256Hex
      "e3b0c44298fc1c149afbf4c8996fb92427ae41e4649b934ca495991b7852b855".toList = true
    decide +kernel
  have hblob : getBlob (versionData hash hash') blobFiles []
      (modelVersion modelId).urdfSha256.toList = .ok (some []) := by
    apply getBlob_eq_some.mpr
    have hemp : (versionData hash hash').sha256Hex [] =
        "e3b0c44298fc1c149afbf4c8996fb92427ae41e4649b934ca495991b7852b855".toList := rfl
    exact ⟨hsha, if_pos rfl, Nat.zero_le _, hemp⟩
  refine ⟨rfl, hsize, ?_, ?_⟩
  · show ensureDeviceModelBlobs (versionData hash hash') blobFiles []
      [(modelVersion modelId).urdfSha256.toList] = .ok ()
    rw [ensureDeviceModelBlobs, hblob]
    rfl
  · apply if_neg
    exact (blobPath_ne_entryPath [] [] hsha .deviceModel _ _
      (versionRegistries_isHash hhash hhash' _)).symm

theorem versionRegistries_path (hhash : isRegistryEntryHash hash = true)
    (hhash' : isRegistryEntryHash hash' = true) (hne : hash ≠ hash') :
    (versionRegistries hash hash').path [] .deviceModel (modelVersion "b") ≠
      (versionRegistries hash hash').path [] .deviceModel (modelVersion "a") := by
  have ho : (modelVersion "b").canonicalJson ≠ (modelVersion "a").canonicalJson := by
    decide +kernel
  have hfst : (versionRegistries hash hash').hashJcsBytes (modelVersion "a").canonicalJson =
      hash := modelRegistries_hash _ _ rfl
  have hsnd : (versionRegistries hash hash').hashJcsBytes (modelVersion "b").canonicalJson =
      hash' := modelRegistries_hash_of_ne _ _ ho
  intro heq
  have hid : validateRegistryId "k".toList = .ok () := by decide
  have hpat : entryPath .deviceModel [] "p".toList "k".toList hash' =
      entryPath .deviceModel [] "p".toList "k".toList hash := by
    rw [← hfst, ← hsnd]
    exact heq
  rw [(deviceModel_paths [] "p".toList hid hhash).1, (deviceModel_paths [] "p".toList hid hhash').1,
    append_cancel_left_eq, singleton_inj, append_left_inj] at hpat
  exact hne hpat.symm

end Versions

theorem modelVersion_size : ∀ modelId ∈ ["a", "b"],
    (modelVersion modelId).canonicalJson.length ≤ maxDeviceModelEntryBytes := by
  decide +kernel

/-- Two threads that register one version cross, and memory and directory agree. -/
theorem memory_directory_agree_sample :
    validateRegistryId "k".toList = .ok () ∧ ∀ hash, isRegistryEntryHash hash = true →
      ∃ last, runSteps (PeerState.step (versionData hash hash) [] (versionAgain hash))
          (PeerState.new (versionRegistries hash hash) blobFiles)
          (PeerAction.toWrite 0 ++ (PeerAction.toWrite 1 ++ [.advance 1, .advance 0])) = some last ∧
        last.Quiet ∧ last.memory .deviceModel "k".toList = some (modelVersion "a") ∧
        last.Agrees (versionData hash hash) [] (versionAgain hash) := by
  have hid : validateRegistryId "k".toList = .ok () := by decide
  refine ⟨hid, ?_⟩
  intro hash hhash
  have hhashes := versionRegistries_isHash hhash hhash
  have hregisters : ∀ caller, (versionAgain hash caller).Registers .deviceModel "k".toList
      (modelVersion "a") := fun _ => versionCall_registers "a"
  obtain ⟨hvalid, hsize, hblobs, hfile⟩ :=
    version_valid hhash hhash "a" (modelVersion_size "a" (by simp))
  have hensure : ((versionData hash hash).checks []).ensureBlobs blobFiles (modelVersion "a") =
      .ok () := hblobs
  obtain ⟨written, hwrite⟩ := writeDeviceModel_fresh ((versionData hash hash).checks []) hvalid
    hensure hsize hfile
  obtain ⟨last, hrun, hquiet, -, hmemory, -⟩ := registrations_cross
    Nat.zero_ne_one (hregisters 0) (hregisters 1) ⟨rfl, rfl⟩ hid hwrite
    (Registries.write_again hhashes hwrite)
  refine ⟨last, hrun, hquiet, hmemory, ?_⟩
  have hsha : ∀ bytes, isSha256Hex ((versionData hash hash).sha256Hex bytes) = true :=
    sampleData_isSha256Hex (versionRegistries hash hash)
  exact memory_directory_agree hhashes hsha blobFiles _
    (orderly_of_same hhashes hsha blobFiles _ (fun _ => versionCall_readsBack)
      fun _ _ _ _ _ => .intro) hrun hquiet

/-- Two threads leave the first version in memory and the second on disk. -/
theorem memory_directory_disagree :
    modelVersion "a" ≠ modelVersion "b" ∧ ∀ hash hash', isRegistryEntryHash hash = true →
      isRegistryEntryHash hash' = true → hash ≠ hash' → ∃ last,
        runSteps (PeerState.step (versionData hash hash') [] (versionCalls hash hash'))
          (PeerState.new (versionRegistries hash hash') blobFiles)
          (PeerAction.toWrite 0 ++ (PeerAction.toWrite 1 ++ [.advance 1, .advance 0])) = some last ∧
        last.Quiet ∧ last.memory .deviceModel "k".toList = some (modelVersion "a") ∧
        LastWritten (versionCalls hash hash') last.writes .deviceModel "k".toList
          (modelVersion "b") ∧
        ¬ last.Agrees (versionData hash hash') [] (versionCalls hash hash') := by
  have hdiffer : modelVersion "a" ≠ modelVersion "b" := by decide
  refine ⟨hdiffer, ?_⟩
  intro hash hash' hhash hhash' hne
  have hvalid := fun modelId hmem =>
    version_valid hhash hhash' modelId (modelVersion_size modelId hmem)
  obtain ⟨earlier, later, hearlier, hlater⟩ := exists_writes_of_versions
    (versionRegistries_isHash hhash hhash') (by
      intro found hfound
      rcases mem_cons.mp hfound with rfl | hfound
      · exact hvalid "a" (by simp)
      · rw [mem_singleton.mp hfound]
        exact hvalid "b" (by simp)) (versionRegistries_path hhash hhash' hne)
  have hfirst : (versionCalls hash hash' 0).Registers .deviceModel "k".toList
      (modelVersion "a") := versionCall_registers "a"
  have hsecond : (versionCalls hash hash' 1).Registers .deviceModel "k".toList
      (modelVersion "b") := versionCall_registers "b"
  obtain ⟨last, hrun, hquiet, -, hmemory, hlast⟩ := registrations_cross
    Nat.zero_ne_one hfirst hsecond ⟨rfl, rfl⟩ (by decide) hearlier hlater
  exact ⟨last, hrun, hquiet, hmemory, hlast, PeerState.not_agrees hdiffer hmemory hlast⟩

end AukiSdk.Registry
