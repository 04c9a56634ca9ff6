import AukiSdk.Mappers.RunnerSafety

/-!
# Failures of the worker

A voxelization that fails is queued for the run, and the worker then closes its slot.
-/

namespace AukiSdk.Mappers

open AukiSdk.Foundation List

variable {Cloud Pose Update Filter : Type}
  {runner : VoxelMapperRunner Cloud Pose Update Filter}

namespace VoxelMapperRun

variable {run next : VoxelMapperRun Cloud Pose Update Filter} {label : RunLabel Cloud Pose}

/-- What `PoseBuffer::resolve` says of the first pending point cloud. -/
def firstPose (runner : VoxelMapperRunner Cloud Pose Update Filter)
    (run : VoxelMapperRun Cloud Pose Update Filter) (cloud : TimedSdkSample Cloud) :
    Except VoxelMapperRunError (PoseResolution Pose) :=
  resolvePose runner cloud.timestampNs (advancePoses cloud.timestampNs run.poseBuffer)

/-- The streams give samples in order and valid poses, and the sink takes each update. -/
def wellFormed (runner : VoxelMapperRunner Cloud Pose Update Filter)
    (run : VoxelMapperRun Cloud Pose Update Filter) : RunLabel Cloud Pose → Bool
  | .resolve => run.pending.head?.all fun cloud => (firstPose runner run cloud).isOk
  | .point (some (.error _)) => false
  | .point (some (.ok sample)) => run.lastPointTimestamp.all (· ≤ sample.timestampNs)
  | .pose (some (.error _)) => false
  | .pose (some (.ok sample)) => (pushPose runner run.poseBuffer sample).isOk
  | .appendReturned (.error _) => false
  | _ => true

def PoseResolution.isReady : Except VoxelMapperRunError (PoseResolution Pose) → Bool
  | .ok (.ready _) => true
  | _ => false

/-- No point cloud gets its pose while the slot of the worker is closed. -/
def accepting (runner : VoxelMapperRunner Cloud Pose Update Filter)
    (run : VoxelMapperRun Cloud Pose Update Filter) : RunLabel Cloud Pose → Bool
  | .resolve => run.pending.head?.all fun cloud =>
      !(PoseResolution.isReady (firstPose runner run cloud) && run.jobs.closed)
  | _ => true

/-- Both, of each step of a run. -/
def Guarded (runner : VoxelMapperRunner Cloud Pose Update Filter)
    (labels : List (RunLabel Cloud Pose)) : Prop :=
  GuardedRun (VoxelMapperRun.step runner) (new runner)
    (fun run label => (wellFormed runner run label && accepting runner run label) = true) labels

/-- The steps of the run alone. -/
def RunLabel.Alone : RunLabel Cloud Pose → Prop
  | .resolve => True
  | .point _ => True
  | .pose _ => True
  | .appendReturned _ => True
  | _ => False

theorem endResolve_live (run : VoxelMapperRun Cloud Pose Update Filter) :
    run.endResolve.phase.live = true := by
  unfold endResolve
  split
  · rfl
  · rfl

theorem resolve_live (hwell : wellFormed runner run .resolve = true)
    (hacc : accepting runner run .resolve = true) (hlive : run.phase.live = true) :
    (run.resolve runner).phase.live = true := by
  unfold VoxelMapperRun.resolve
  split
  · exact endResolve_live run
  · rename_i cloud rest hpend
    rw [wellFormed, hpend, head?_cons, Option.all_some, firstPose] at hwell
    rw [accepting, hpend, head?_cons, Option.all_some, firstPose] at hacc
    dsimp only
    split
    · rename_i error herr
      rw [herr] at hwell
      cases hwell
    · exact hlive
    · split
      · exact hlive
      · exact endResolve_live _
    · rename_i pose hpose
      rw [hpose] at hacc
      unfold VoxelMapperRun.submit
      rw [if_neg (by simpa [PoseResolution.isReady] using hacc)]
      exact hlive

theorem receivePoint_live (run : VoxelMapperRun Cloud Pose Update Filter)
    (sample : TimedSdkSample Cloud) : (run.receivePoint runner sample).phase.live = true := by
  unfold VoxelMapperRun.receivePoint
  dsimp only
  split
  · rfl
  · rfl

theorem point_live {input : Option (Except String (TimedSdkSample Cloud))}
    (hwell : wellFormed runner run (.point input) = true) :
    (run.point runner input).phase.live = true := by
  match input with
  | none => rfl
  | some (.error _) => cases hwell
  | some (.ok sample) =>
    dsimp only [VoxelMapperRun.point]
    rw [wellFormed] at hwell
    cases hlast : run.lastPointTimestamp with
    | none => exact receivePoint_live run sample
    | some last =>
      dsimp only
      rw [hlast, Option.all_some, decide_eq_true_eq] at hwell
      rw [if_neg (not_lt.mpr hwell)]
      exact receivePoint_live run sample

theorem pose_live {input : Option (Except String (TimedSdkSample Pose))}
    (hwell : wellFormed runner run (.pose input) = true) :
    (run.pose runner input).phase.live = true := by
  match input with
  | none => rfl
  | some (.error _) => cases hwell
  | some (.ok sample) =>
    dsimp only [VoxelMapperRun.pose]
    rw [wellFormed] at hwell
    cases hpush : pushPose runner run.poseBuffer sample with
    | error error =>
      rw [hpush] at hwell
      cases hwell
    | ok pushed => rfl

theorem step_alone (halo : RunLabel.Alone label) (hwell : wellFormed runner run label = true)
    (hacc : accepting runner run label = true)
    (hs : VoxelMapperRun.step runner run label = some next) :
    run.phase.live = true ∧ next.worker = run.worker ∧ next.updates = run.updates ∧
      next.phase.live = true := by
  cases label with
  | resolve =>
    dsimp only [VoxelMapperRun.step] at hs
    split at hs
    · rename_i hp
      cases hs
      have hlive : run.phase.live = true := hp ▸ rfl
      have hruns : RunsOn run (run.resolve runner) := .resolve hlive
      exact ⟨hlive, hruns.worker, hruns.updates, resolve_live hwell hacc hlive⟩
    · cases hs
  | point input =>
    dsimp only [VoxelMapperRun.step] at hs
    split at hs
    · rename_i hp
      split at hs
      · cases hs
        have hruns : RunsOn run (run.point runner input) := .point run input
        exact ⟨hp ▸ rfl, hruns.worker, hruns.updates, point_live hwell⟩
      · cases hs
    · cases hs
  | pose input =>
    dsimp only [VoxelMapperRun.step] at hs
    split at hs
    · rename_i hp
      split at hs
      · cases hs
        have hruns : RunsOn run (run.pose runner input) := .pose run input
        exact ⟨hp ▸ rfl, hruns.worker, hruns.updates, pose_live hwell⟩
      · cases hs
    · cases hs
  | appendReturned result =>
    cases result with
    | error error => cases hwell
    | ok =>
      dsimp only [VoxelMapperRun.step] at hs
      split at hs
      · rename_i hp
        cases hs
        exact ⟨hp ▸ rfl, rfl, rfl, rfl⟩
      · cases hs
  | update | join | workerReceive | workerVoxelize | workerSend | workerCancel | workerPanic =>
    exact halo.elim

/-- The worker or the channel holds the failure, or the run ends with it. -/
inductive Reporting (error : String) (run : VoxelMapperRun Cloud Pose Update Filter) : Prop where
  | sending (hlive : run.phase.live = true) (hworker : run.worker = .sending (.error error))
      (hupd : ∀ error, .error error ∉ run.updates)
  | queued (hlive : run.phase.live = true)
      (hworker : run.worker = .canceling ∨ run.worker = .exited)
      (hupd : run.updates = [.error error])
  | ended (hworker : run.worker = .canceling ∨ run.worker = .exited)
      (hphase : run.phase = .joining (.error (.voxelizer error)) ∨
        run.phase = .returned (.error (.voxelizer error)))

/-- No failure so far. -/
structure Calm (run : VoxelMapperRun Cloud Pose Update Filter) : Prop where
  phase : run.phase.live = true ∨ run.worker = .exited ∨ run.worker = .panicked
  worker : run.worker ≠ .canceling ∧ ∀ error, run.worker ≠ .sending (.error error)
  updates : ∀ error, .error error ∉ run.updates

theorem Reporting.worker {error : String} (hrep : run.Reporting error) :
    run.worker = .sending (.error error) ∨ run.worker = .canceling ∨ run.worker = .exited := by
  cases hrep with
  | sending _ hwork _ => exact .inl hwork
  | queued _ hwork _ | ended hwork _ => exact .inr hwork

theorem Reporting.alone {error : String} (hrep : run.Reporting error)
    (halo : run.phase.live = true ∧ next.worker = run.worker ∧ next.updates = run.updates ∧
      next.phase.live = true) : next.Reporting error := by
  obtain ⟨hlive, hwork, hupd, hlive'⟩ := halo
  cases hrep with
  | sending _ hsen hok => exact .sending hlive' (hwork.trans hsen) (hupd ▸ hok)
  | queued _ hdone hqd => exact .queued hlive' (hwork ▸ hdone) (hupd.trans hqd)
  | ended _ hp =>
    rcases hp with hp | hp <;>
    · rw [hp] at hlive
      cases hlive

theorem Reporting.step {error : String} (hrep : run.Reporting error)
    (hwell : wellFormed runner run label = true) (hacc : accepting runner run label = true)
    (hs : VoxelMapperRun.step runner run label = some next) : next.Reporting error := by
  by_cases halo : RunLabel.Alone label
  · exact hrep.alone (step_alone halo hwell hacc hs)
  cases label with
  | resolve | point | pose | appendReturned => exact absurd trivial halo
  | update =>
    dsimp only [VoxelMapperRun.step] at hs
    cases hp : run.phase <;> rw [hp] at hs <;> try cases hs
    unfold VoxelMapperRun.update at hs
    cases hrep with
    | sending hlive hwork hok =>
      rw [hwork] at hs
      match hupd : run.updates with
      | [] =>
        rw [hupd] at hs
        cases hs
      | .ok output :: rest =>
        rw [hupd] at hs
        cases hs
        refine .sending rfl rfl fun error hm => hok error ?_
        rw [hupd]
        exact mem_cons_of_mem _ hm
      | .error failure :: rest => exact absurd (hupd ▸ mem_cons_self) (hok failure)
    | queued hlive hwork hqd =>
      rw [hqd] at hs
      cases hs
      exact .ended hwork (.inl rfl)
    | ended _ hend =>
      rw [hp] at hend
      rcases hend with hend | hend <;> cases hend
  | join =>
    dsimp only [VoxelMapperRun.step] at hs
    cases hrep with
    | sending hlive _ _ | queued hlive _ _ =>
      split at hs
      · rename_i hp _
        rw [hp] at hlive
        cases hlive
      · rename_i hp _
        rw [hp] at hlive
        cases hlive
      · cases hs
    | ended hwork hp =>
      rcases hp with hp | hp <;> rcases hwork with hwork | hwork <;>
        rw [hp, hwork] at hs <;> cases hs
      exact .ended (.inr rfl) (.inr rfl)
  | workerReceive | workerVoxelize | workerPanic =>
    dsimp only [VoxelMapperRun.step] at hs
    rcases hrep.worker with hwork | hwork | hwork <;> rw [hwork] at hs <;>
      cases hs
  | workerSend =>
    dsimp only [VoxelMapperRun.step] at hs
    cases hrep with
    | sending hlive hwork hok =>
      rw [hwork] at hs
      rcases send_cases hs with ⟨returned, hp, rfl⟩ | ⟨hupd, rfl⟩
      · rw [hp] at hlive
        cases hlive
      · exact .queued hlive (.inl rfl) rfl
    | queued _ hwork _ | ended hwork _ =>
      rcases hwork with hwork | hwork <;> rw [hwork] at hs <;> cases hs
  | workerCancel =>
    dsimp only [VoxelMapperRun.step] at hs
    split at hs
    · rename_i hcanc
      cases hs
      cases hrep with
      | sending _ hwork _ =>
        rw [hwork] at hcanc
        cases hcanc
      | queued hlive _ hupd => exact .queued hlive (.inr rfl) hupd
      | ended _ hp => exact .ended (.inr rfl) hp
    · cases hs

theorem Calm.step (hcalm : run.Calm) (hwell : wellFormed runner run label = true)
    (hacc : accepting runner run label = true)
    (hs : VoxelMapperRun.step runner run label = some next) :
    next.Calm ∨ ∃ error, next.Reporting error := by
  by_cases halo : RunLabel.Alone label
  · obtain ⟨-, hwork, hupd, hlive⟩ := step_alone halo hwell hacc hs
    exact .inl ⟨.inl hlive, hwork ▸ hcalm.worker, hupd ▸ hcalm.updates⟩
  have hlive : run.worker ≠ .exited → run.worker ≠ .panicked → run.phase.live = true :=
    fun hexi hpan => hcalm.phase.resolve_right (not_or.mpr ⟨hexi, hpan⟩)
  cases label with
  | resolve | point | pose | appendReturned => exact absurd trivial halo
  | update =>
    dsimp only [VoxelMapperRun.step] at hs
    cases hp : run.phase <;> rw [hp] at hs <;> try cases hs
    unfold VoxelMapperRun.update at hs
    match hupd : run.updates with
    | [] =>
      rw [hupd] at hs
      cases hwork : run.worker <;> rw [hwork] at hs <;> cases hs
      · exact .inl ⟨.inr (.inl rfl), by simp, by simp⟩
      · exact .inl ⟨.inr (.inr rfl), by simp, by simp⟩
    | .ok output :: rest =>
      rw [hupd] at hs
      cases hs
      refine .inl ⟨.inl rfl, hcalm.worker, fun error hm => hcalm.updates error ?_⟩
      rw [hupd]
      exact mem_cons_of_mem _ hm
    | .error failure :: rest => exact absurd (hupd ▸ mem_cons_self) (hcalm.updates failure)
  | join =>
    dsimp only [VoxelMapperRun.step] at hs
    split at hs <;> cases hs
    · exact .inl ⟨.inr (.inl ‹_›), hcalm.worker, hcalm.updates⟩
    · exact .inl ⟨.inr (.inr ‹_›), hcalm.worker, hcalm.updates⟩
  | workerReceive =>
    dsimp only [VoxelMapperRun.step] at hs
    split at hs
    · rename_i hwork _
      cases hs
      exact .inl ⟨.inl (hlive (by simp [hwork]) (by simp [hwork])), by simp, hcalm.updates⟩
    · split at hs <;> cases hs
      exact .inl ⟨.inr (.inl rfl), by simp, hcalm.updates⟩
    · cases hs
  | workerVoxelize =>
    dsimp only [VoxelMapperRun.step] at hs
    split at hs
    · rename_i job hwork
      cases hs
      have hrun := hlive (by simp [hwork]) (by simp [hwork])
      unfold voxelize
      split
      · exact .inr ⟨_, .sending hrun rfl hcalm.updates⟩
      · refine .inl ⟨.inl hrun, ?_, hcalm.updates⟩
        dsimp only
        split <;> simp
    · cases hs
  | workerSend =>
    dsimp only [VoxelMapperRun.step] at hs
    split at hs
    · rename_i result hwork
      have hrun := hlive (by simp [hwork]) (by simp [hwork])
      rcases send_cases hs with ⟨returned, hp, rfl⟩ | ⟨hupd, rfl⟩
      · rw [hp] at hrun
        cases hrun
      · cases result with
        | error error => exact absurd hwork (hcalm.worker.2 error)
        | ok output => exact .inl ⟨.inl hrun, by simp [WorkerPhase.afterSend], by simp⟩
    · cases hs
  | workerCancel =>
    dsimp only [VoxelMapperRun.step] at hs
    split at hs
    · exact absurd ‹_› hcalm.worker.1
    · cases hs
  | workerPanic =>
    dsimp only [VoxelMapperRun.step] at hs
    split at hs
    · cases hs
      exact .inl ⟨.inr (.inr rfl), by simp, hcalm.updates⟩
    · cases hs

/-- Some step other than an arrival is possible. -/
def Proceeds (runner : VoxelMapperRunner Cloud Pose Update Filter)
    (run : VoxelMapperRun Cloud Pose Update Filter) : Prop :=
  ∃ label ∈ ([.resolve, .update, .appendReturned (.ok ()), .join, .workerSend, .workerCancel] :
    List (RunLabel Cloud Pose)), (VoxelMapperRun.step runner run label).isSome = true

theorem Reporting.proceeds {error : String} (hrep : run.Reporting error) :
    Proceeds runner run ∨ run.phase = .returned (.error (.voxelizer error)) := by
  have hrun (hlive : run.phase.live = true)
      (hsel : run.phase = .selecting → Proceeds runner run) : Proceeds runner run := by
    cases hp : run.phase with
    | resolving => exact ⟨.resolve, by simp, by rw [VoxelMapperRun.step, hp]; rfl⟩
    | selecting => exact hsel hp
    | appending =>
      exact ⟨.appendReturned (.ok ()), by simp, by rw [VoxelMapperRun.step, hp]; rfl⟩
    | joining | returned =>
      rw [hp] at hlive
      cases hlive
  cases hrep with
  | sending hlive hwork hok =>
    refine .inl (hrun hlive fun hp => ?_)
    match hupd : run.updates with
    | [] => exact ⟨.workerSend, by simp, by simp [VoxelMapperRun.step, send, hwork, hp, hupd]⟩
    | .ok output :: rest =>
      exact ⟨.update, by simp, by simp [VoxelMapperRun.step, VoxelMapperRun.update, hp, hupd]⟩
    | .error failure :: rest => exact absurd (hupd ▸ mem_cons_self) (hok failure)
  | queued hlive hwork hupd =>
    refine .inl (hrun hlive fun hp => ?_)
    exact ⟨.update, by simp, by simp [VoxelMapperRun.step, VoxelMapperRun.update, hp, hupd]⟩
  | ended hwork hp =>
    rcases hp with hp | hp
    · rcases hwork with hwork | hwork
      · exact .inl ⟨.workerCancel, by simp, by rw [VoxelMapperRun.step, hwork]; rfl⟩
      · exact .inl ⟨.join, by simp, by rw [VoxelMapperRun.step, hp, hwork]; rfl⟩
    · exact .inr hp

/-- After a failed voxelization the run returns that failure without more input. -/
theorem worker_failure_reported {before after : List (RunLabel Cloud Pose)}
    {job : VoxelJob Cloud Pose} {error : String} {later : VoxelMapperRun Cloud Pose Update Filter}
    (hguard : Guarded runner (before ++ .workerVoxelize :: after))
    (hbefore : runSteps (VoxelMapperRun.step runner) (new runner) before = some run)
    (hworker : run.worker = .voxelizing job)
    (herror : runner.mapPointCloud job.pointCloud job.pose = .error error)
    (hlater : runSteps (VoxelMapperRun.step runner) run (.workerVoxelize :: after) = some later) :
    (∀ result, later.phase = .returned result → result = .error (.voxelizer error)) ∧
      (Proceeds runner later ∨ later.phase = .returned (.error (.voxelizer error))) := by
  have hstart : run.Calm := by
    have hinv : run.Calm ∨ ∃ error, run.Reporting error := by
      apply @invariant_of_guardedRun _ _ _ _ _
        (fun run => run.Calm ∨ ∃ error, run.Reporting error) _ _ _ hguard.initial _ hbefore
      · exact .inl ⟨.inl rfl, by simp [new], by simp [new]⟩
      · intro run label next hinv hguard hstep
        rw [Bool.and_eq_true] at hguard
        rcases hinv with hcalm | ⟨error, hrep⟩
        · exact hcalm.step hguard.1 hguard.2 hstep
        · exact .inr ⟨error, hrep.step hguard.1 hguard.2 hstep⟩
    refine hinv.resolve_right fun ⟨error, hrep⟩ => ?_
    rcases hrep.worker with hf | hf | hf <;> rw [hworker] at hf <;>
      cases hf
  have hfailed : VoxelMapperRun.step runner run .workerVoxelize =
      some { run with worker := .sending (.error error) } := by
    simp [VoxelMapperRun.step, hworker, voxelize, herror]
  have hrep : later.Reporting error := by
    have hafter := hguard.suffix hbefore
    rw [← singleton_append] at hafter
    rw [runSteps_cons hfailed] at hlater
    refine invariant_of_guardedRun ?_ (fun run label next hrep hguard hstep => ?_)
      (hafter.suffix (runSteps_cons hfailed [])) hlater
    case refine_2 =>
      rw [Bool.and_eq_true] at hguard
      exact hrep.step hguard.1 hguard.2 hstep
    refine .sending (hstart.phase.resolve_right ?_) rfl hstart.updates
    rw [hworker]
    rintro (hexited | hpanicked)
    · cases hexited
    · cases hpanicked
  refine ⟨fun result hret => ?_, hrep.proceeds⟩
  cases hrep with
  | sending hlive _ _ | queued hlive _ _ =>
    rw [hret] at hlive
    cases hlive
  | ended _ hp =>
    rw [hret] at hp
    rcases hp with hp | hp <;> cases hp
    rfl

/-- No point cloud can be read. -/
def truncatedRunner : VoxelMapperRunner ℕ ℤ ℤ ℕ :=
  { sampleRunner with mapPointCloud := fun _ _ => .error "truncated" }

def truncatedBefore : List (RunLabel ℕ ℤ) :=
  [.resolve, .pose (some (.ok ⟨0, 0⟩)), .resolve, .point (some (.ok ⟨0, 1⟩)), .resolve, .resolve,
    .workerReceive]

theorem worker_failure_reported_truncated : ∃ run later,
    runSteps (VoxelMapperRun.step truncatedRunner) (new truncatedRunner) truncatedBefore =
      some run ∧
    runSteps (VoxelMapperRun.step truncatedRunner) run
      [.workerVoxelize, .workerSend, .update, .workerCancel, .join] = some later ∧
    ∀ result, later.phase = .returned result → result = .error (.voxelizer "truncated") := by
  have hguard : Guarded truncatedRunner (truncatedBefore ++ .workerVoxelize ::
      [.workerSend, .update, .workerCancel, .join]) :=
    guardedRun_of_tested (fun _ _ htest => htest) (by decide +kernel)
  exact ⟨_, _, rfl, rfl, (worker_failure_reported hguard rfl rfl rfl rfl).1⟩

/-- The slot is closed before the second point cloud gets its pose. -/
theorem worker_stopped_hides_failure : ∃ run later,
    GuardedRun (VoxelMapperRun.step truncatedRunner) (new truncatedRunner)
      (fun run label => wellFormed truncatedRunner run label = true)
      (truncatedBefore ++ [.point (some (.ok ⟨0, 2⟩)), .workerVoxelize, .workerSend,
        .workerCancel, .resolve]) ∧
    runSteps (VoxelMapperRun.step truncatedRunner) (new truncatedRunner)
      (truncatedBefore ++ [.point (some (.ok ⟨0, 2⟩)), .workerVoxelize]) = some run ∧
    run.worker = .sending (.error "truncated") ∧
    runSteps (VoxelMapperRun.step truncatedRunner) run [.workerSend, .workerCancel, .resolve] =
      some later ∧
    later.phase = .returned (.error .workerStopped) :=
  ⟨_, _, guardedRun_of_tested (fun _ _ htest => htest) (by decide +kernel), rfl, rfl, rfl, rfl⟩

end VoxelMapperRun

end AukiSdk.Mappers
