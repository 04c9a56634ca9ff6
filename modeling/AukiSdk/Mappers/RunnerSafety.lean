import AukiSdk.Mappers.Runner
import Mathlib

/-!
# What a run of the voxel mapper guarantees

Clouds are counted once, updates appended in order, and poses those of their time.
-/

namespace AukiSdk.Mappers

open AukiSdk.Foundation List

variable {Cloud Pose Update Filter : Type}
variable {runner : VoxelMapperRunner Cloud Pose Update Filter}

def Increasing (poses : List (TimedSdkSample Pose)) : Prop :=
  poses.Pairwise fun earlier later => earlier.timestampNs < later.timestampNs

/-- Two consecutive poses around a time give this pose. -/
def Interpolated (runner : VoxelMapperRunner Cloud Pose Update Filter)
    (poses : List (TimedSdkSample Pose)) (timestampNs : ℤ) (pose : Pose) : Prop :=
  ∃ earlier before after later, poses = earlier ++ before :: after :: later ∧
    before.timestampNs < timestampNs ∧ timestampNs < after.timestampNs ∧
      runner.interpolatePose before after timestampNs = .ok pose

/-- The pose received for a time if there is one, and else the interpolation around it. -/
def PoseFor (runner : VoxelMapperRunner Cloud Pose Update Filter)
    (poses : List (TimedSdkSample Pose)) (timestampNs : ℤ) (pose : Pose) : Prop :=
  ⟨timestampNs, pose⟩ ∈ poses ∨
    (∀ other, ⟨timestampNs, other⟩ ∉ poses) ∧ Interpolated runner poses timestampNs pose

theorem Interpolated.poseFor {poses : List (TimedSdkSample Pose)} {timestampNs : ℤ} {pose : Pose}
    (hint : Interpolated runner poses timestampNs pose) (hincr : Increasing poses) :
    PoseFor runner poses timestampNs pose := by
  refine .inr ⟨?_, hint⟩
  obtain ⟨earlier, before, after, later, rfl, hpre, haft, -⟩ := hint
  intro other hm
  obtain ⟨-, hrest, hpri⟩ := pairwise_append.mp hincr
  obtain ⟨-, hlat⟩ := pairwise_cons.mp hrest
  have hlat := (pairwise_cons.mp hlat).1
  rcases mem_append.mp hm with hm | hm
  · have hlt := hpri _ hm before mem_cons_self
    exact absurd (hlt.trans hpre) (lt_irrefl _)
  · rcases mem_cons.mp hm with heq | hm
    · rw [← heq] at hpre
      exact lt_irrefl _ hpre
    · rcases mem_cons.mp hm with heq | hm
      · rw [← heq] at haft
        exact lt_irrefl _ haft
      · exact absurd (haft.trans (hlat _ hm)) (lt_irrefl _)

theorem Interpolated.append {poses : List (TimedSdkSample Pose)} {timestampNs : ℤ} {pose : Pose}
    (hint : Interpolated runner poses timestampNs pose)
    (added : List (TimedSdkSample Pose)) :
    Interpolated runner (poses ++ added) timestampNs pose := by
  obtain ⟨earlier, before, after, later, rfl, hrest⟩ := hint
  refine ⟨earlier, before, after, later ++ added, ?_, hrest⟩
  rw [append_assoc, cons_append, cons_append]

theorem Interpolated.of_suffix {buffer poses : List (TimedSdkSample Pose)} {timestampNs : ℤ}
    {pose : Pose} (hint : Interpolated runner buffer timestampNs pose)
    (hsuf : buffer <:+ poses) : Interpolated runner poses timestampNs pose := by
  obtain ⟨front, rfl⟩ := hsuf
  obtain ⟨earlier, before, after, later, rfl, hrest⟩ := hint
  exact ⟨front ++ earlier, before, after, later, (append_assoc _ _ _).symm, hrest⟩

theorem advancePoses_suffix (timestampNs : ℤ) (samples : List (TimedSdkSample Pose)) :
    advancePoses timestampNs samples <:+ samples := by
  fun_induction advancePoses timestampNs samples with
  | case1 first second rest hle ih => exact ih.trans (suffix_cons _ _)
  | case2 first second rest hlt => exact suffix_rfl
  | case3 samples => exact suffix_rfl

theorem lt_of_advancePoses {timestampNs : ℤ} {samples rest : List (TimedSdkSample Pose)}
    {before after : TimedSdkSample Pose}
    (hadv : advancePoses timestampNs samples = before :: after :: rest) :
    timestampNs < after.timestampNs := by
  fun_induction advancePoses timestampNs samples with
  | case1 first second rest' hle ih => exact ih hadv
  | case2 first second rest' hlt =>
    cases hadv
    exact not_le.mp hlt
  | case3 samples hsho => exact absurd hadv (hsho _ _ _)

theorem resolvePose_ready {timestampNs : ℤ} {samples : List (TimedSdkSample Pose)} {pose : Pose}
    (hres : resolvePose runner timestampNs (advancePoses timestampNs samples) = .ok (.ready pose)) :
    ⟨timestampNs, pose⟩ ∈ samples ∨ Interpolated runner samples timestampNs pose := by
  have hsuf := advancePoses_suffix timestampNs samples
  generalize hbuf : advancePoses timestampNs samples = buffer at hres hsuf
  cases buffer with
  | nil => cases hres
  | cons before rest =>
    unfold resolvePose at hres
    dsimp only at hres
    by_cases hlt : timestampNs < before.timestampNs
    · rw [if_pos hlt] at hres
      cases hres
    · rw [if_neg hlt] at hres
      by_cases heq : timestampNs = before.timestampNs
      · rw [if_pos heq] at hres
        cases hres
        rw [heq]
        exact .inl (hsuf.mem mem_cons_self)
      · rw [if_neg heq] at hres
        cases rest with
        | nil => cases hres
        | cons after rest =>
          have hmap : (runner.interpolatePose before after timestampNs).map
              PoseResolution.ready = .ok (.ready pose) := hres
          cases hint : runner.interpolatePose before after timestampNs with
          | error error =>
            rw [hint] at hmap
            cases hmap
          | ok found =>
            rw [hint] at hmap
            cases hmap
            refine .inr (Interpolated.of_suffix ?_ hsuf)
            exact ⟨[], before, after, rest, rfl, lt_of_le_of_ne (not_lt.mp hlt) (Ne.symm heq),
              lt_of_advancePoses hbuf, hint⟩

theorem pushPose_suffix {samples pushed poses : List (TimedSdkSample Pose)}
    {sample : TimedSdkSample Pose} {dropped : Bool} (hsuf : samples <:+ poses)
    (hincr : Increasing (poses ++ [sample]))
    (hpush : pushPose runner samples sample = .ok (pushed, dropped)) :
    pushed <:+ poses ++ [sample] := by
  have hbnd : ∀ dropped, boundPoses runner (samples ++ [sample]) = (pushed, dropped) →
      pushed <:+ poses ++ [sample] := by
    intro dropped hbnd
    obtain ⟨front, rfl⟩ := hsuf
    have hlon : samples ++ [sample] <:+ front ++ samples ++ [sample] :=
      ⟨front, (append_assoc _ _ _).symm⟩
    unfold boundPoses at hbnd
    split at hbnd
    · cases hbnd
      exact (drop_suffix _ _).trans hlon
    · cases hbnd
      exact hlon
  unfold pushPose at hpush
  split at hpush
  · cases hpush
  · split at hpush
    · exact hbnd dropped (Except.ok.inj hpush)
    · rename_i last hlast
      have hlt : last.timestampNs < sample.timestampNs := (pairwise_append.mp hincr).2.2 last
          (hsuf.mem (mem_of_getLast? hlast)) sample mem_cons_self
      rw [if_neg hlt.not_gt, if_neg hlt.ne'] at hpush
      exact hbnd dropped (Except.ok.inj hpush)

/-- The appended output of a voxelized job. -/
def VoxelMapperRunner.output (runner : VoxelMapperRunner Cloud Pose Update Filter)
    (entry : VoxelJob Cloud Pose × Update) : Option (VoxelWorkerOutput Update) :=
  if runner.isEmpty entry.2 = true then none else some ⟨entry.1.timestampNs, entry.2⟩

def VoxelJob.cloud (job : VoxelJob Cloud Pose) : TimedSdkSample Cloud :=
  ⟨job.timestampNs, job.pointCloud⟩

def WorkerPhase.inHand : WorkerPhase Cloud Pose Update → List (VoxelJob Cloud Pose)
  | .voxelizing job => [job]
  | _ => []

def WorkerPhase.output : WorkerPhase Cloud Pose Update → List (VoxelWorkerOutput Update)
  | .sending (.ok output) => [output]
  | _ => []

/-- No failure of the voxelizer and no panic so far. -/
def WorkerPhase.Healthy : WorkerPhase Cloud Pose Update → Prop
  | .sending (.error _) => False
  | .canceling => False
  | .panicked => False
  | _ => True

def RunPhase.output : RunPhase Update → List (VoxelWorkerOutput Update)
  | .appending output => [output]
  | _ => []

def RunPhase.live : RunPhase Update → Bool
  | .resolving => true
  | .selecting => true
  | .appending _ => true
  | _ => false

/-- A run that ends ends well, and then `ended` holds. -/
def RunPhase.Ends (ended : Prop) : RunPhase Update → Prop
  | .joining (.ok _) => ended
  | .returned (.ok _) => ended
  | .joining (.error _) => False
  | .returned (.error _) => False
  | _ => True

/-- Point clouds in the order of the code's own check. -/
structure Ordered (points : List (TimedSdkSample Cloud)) (last : Option ℤ) : Prop where
  sorted : (points.map TimedSdkSample.timestampNs).Pairwise (· ≤ ·)
  last : last = (points.map TimedSdkSample.timestampNs).getLast?

theorem Ordered.concat {points : List (TimedSdkSample Cloud)} {last : Option ℤ}
    (hord : Ordered points last) {sample : TimedSdkSample Cloud}
    (hlast : ∀ previous, last = some previous → previous ≤ sample.timestampNs) :
    Ordered (points ++ [sample]) (some sample.timestampNs) := by
  refine ⟨?_, by rw [map_append, map_singleton, getLast?_concat]⟩
  rw [map_append, map_singleton, pairwise_append]
  refine ⟨hord.sorted, pairwise_singleton _ _, ?_⟩
  intro timestamp hm found hf
  rw [mem_singleton.mp hf]
  cases htim : (points.map TimedSdkSample.timestampNs).getLast? with
  | none =>
    rw [getLast?_eq_none_iff.mp htim] at hm
    cases hm
  | some previous =>
    have hprev := hlast previous (hord.last.trans htim)
    obtain ⟨front, hfro⟩ := getLast?_eq_some_iff.mp htim
    have hsort := hord.sorted
    rw [hfro] at hm hsort
    rcases mem_append.mp hm with hm | hm
    · exact ((pairwise_append.mp hsort).2.2 _ hm _ mem_cons_self).trans hprev
    · rw [mem_singleton.mp hm]
      exact hprev

/-- The pose buffer is the end of the stream. -/
def Posed (runner : VoxelMapperRunner Cloud Pose Update Filter)
    (poses buffer : List (TimedSdkSample Pose)) (aligned : List (VoxelJob Cloud Pose)) : Prop :=
  Increasing poses → buffer <:+ poses ∧ ∀ job ∈ aligned,
    ⟨job.timestampNs, job.pose⟩ ∈ poses ∨ Interpolated runner poses job.timestampNs job.pose

/-- Every point cloud is pending, dropped, or submitted, and every job accounted for. -/
structure Counted (report : VoxelMapperRunReport) (points pending : List (TimedSdkSample Cloud))
    (aligned claimed : List (VoxelJob Cloud Pose)) : Prop where
  received : report.pointCloudsReceived = points.length
  resolved : points.length = report.pointCloudsWithoutPose +
    report.pointCloudsDroppedForBackpressure + pending.length + aligned.length
  dropped : aligned.length = report.pointCloudsDroppedForWorkerBackpressure + claimed.length
  clouds : (aligned.map VoxelJob.cloud ++ pending).Sublist points
  kept : claimed.Sublist aligned
  last : claimed.getLast? = aligned.getLast?

/-- The outputs of the worker are appended, or on their way in this order. -/
structure Delivered (runner : VoxelMapperRunner Cloud Pose Update Filter)
    (report : VoxelMapperRunReport) (voxelized : List (VoxelJob Cloud Pose × Update))
    (appended inFlight : List (VoxelWorkerOutput Update)) : Prop where
  written : report.mapUpdatesWritten = appended.length
  outputs : voxelized.filterMap runner.output = appended ++ inFlight

namespace VoxelMapperRun

def claimed (run : VoxelMapperRun Cloud Pose Update Filter) : List (VoxelJob Cloud Pose) :=
  run.history.voxelized.map Prod.fst ++ run.worker.inHand ++ run.jobs.pending.toList

def inFlight (run : VoxelMapperRun Cloud Pose Update Filter) : List (VoxelWorkerOutput Update) :=
  run.phase.output ++ run.updates.filterMap Except.toOption ++ run.worker.output

/-- The worker and the channel while nothing has failed. -/
structure Healthy (run : VoxelMapperRun Cloud Pose Update Filter) : Prop where
  closed : run.jobs.closed = true → run.alignmentDone = true
  done : run.alignmentDone = true → run.pending = []
  exited : run.worker = .exited → run.jobs.closed = true ∧ run.jobs.pending = none
  worker : run.worker.Healthy
  updates : ∀ error, .error error ∉ run.updates
  ends : run.phase.Ends (run.alignmentDone = true ∧ run.worker = .exited ∧ run.updates = [])

structure Sound (runner : VoxelMapperRunner Cloud Pose Update Filter)
    (run : VoxelMapperRun Cloud Pose Update Filter) : Prop extends Healthy run where
  ordered : Ordered run.history.points run.lastPointTimestamp
  posed : Posed runner run.history.poses run.poseBuffer run.history.aligned
  counted : Counted run.report run.history.points run.pending run.history.aligned run.claimed
  delivered : Delivered runner run.report run.history.voxelized run.history.appended run.inFlight

/-- Runs that cannot return `Ok` any more. -/
inductive Failing (run : VoxelMapperRun Cloud Pose Update Filter) : Prop where
  | failed (error : VoxelMapperRunError)
      (hphase : run.phase = .joining (.error error) ∨ run.phase = .returned (.error error))
  | voxelizer (hlive : run.phase.live = true)
      (herror : (∃ error, run.worker = .sending (.error error)) ∨
        ∃ error, .error error ∈ run.updates)
  | panicked (hworker : run.worker = .panicked) (hphase : run.phase ≠ .returned (.ok ()))

variable {run next : VoxelMapperRun Cloud Pose Update Filter}

theorem Healthy.live (hhea : run.Healthy) (hwork : run.worker ≠ .exited) :
    run.phase.live = true := by
  have hends := hhea.ends
  cases hp : run.phase with
  | resolving | selecting | appending => rfl
  | joining result | returned result =>
    rw [hp] at hends
    cases result with
    | error error => exact hends.elim
    | ok => exact absurd hends.2.1 hwork

theorem ends_of_live {phase : RunPhase Update} {ended : Prop} (hlive : phase.live = true) :
    phase.Ends ended := by
  cases phase with
  | resolving | selecting | appending => trivial
  | joining | returned => cases hlive

/-- A step of the run alone that leaves it running, or ends it with an error. -/
structure RunsOn (run next : VoxelMapperRun Cloud Pose Update Filter) : Prop where
  worker : next.worker = run.worker
  updates : next.updates = run.updates
  phase : next.phase.live = true ∨ ∃ error,
    next.phase = .joining (.error error) ∨ next.phase = .returned (.error error)

theorem Failing.runsOn (hfai : run.Failing) (hlive : run.phase.live = true)
    (hn : RunsOn run next) : next.Failing := by
  rcases hn.phase with hp | ⟨error, herr⟩
  · cases hfai with
    | failed error hfail =>
      rcases hfail with hfail | hfail <;>
      · rw [hfail] at hlive
        cases hlive
    | voxelizer _ herr =>
      rw [← hn.worker, ← hn.updates] at herr
      exact .voxelizer hp herr
    | panicked hpan _ =>
      refine .panicked (hn.worker.trans hpan) fun heq => ?_
      rw [heq] at hp
      cases hp
  · exact .failed error herr

theorem RunsOn.submit (hwork : next.worker = run.worker) (hupd : next.updates = run.updates)
    (hlive : next.phase.live = true) (job : VoxelJob Cloud Pose) :
    RunsOn run (next.submit job) := by
  unfold VoxelMapperRun.submit
  split
  · exact ⟨hwork, hupd, .inr ⟨_, .inr rfl⟩⟩
  · exact ⟨hwork, hupd, .inl hlive⟩

theorem RunsOn.endResolve (hwork : next.worker = run.worker)
    (hupd : next.updates = run.updates) : RunsOn run next.endResolve := by
  unfold VoxelMapperRun.endResolve
  split
  · exact ⟨hwork, hupd, .inl rfl⟩
  · exact ⟨hwork, hupd, .inl rfl⟩

theorem RunsOn.resolve (hlive : run.phase.live = true) : RunsOn run (run.resolve runner) := by
  unfold VoxelMapperRun.resolve
  split
  · exact .endResolve rfl rfl
  · dsimp only
    split
    · exact ⟨rfl, rfl, .inr ⟨_, .inr rfl⟩⟩
    · exact ⟨rfl, rfl, .inl hlive⟩
    · split
      · exact ⟨rfl, rfl, .inl hlive⟩
      · exact .endResolve rfl rfl
    · refine .submit ?_ ?_ ?_ _
      · rfl
      · rfl
      · exact hlive

theorem RunsOn.receivePoint (run : VoxelMapperRun Cloud Pose Update Filter)
    (sample : TimedSdkSample Cloud) : RunsOn run (run.receivePoint runner sample) := by
  unfold VoxelMapperRun.receivePoint
  dsimp only
  split
  · exact ⟨rfl, rfl, .inl rfl⟩
  · exact ⟨rfl, rfl, .inl rfl⟩

theorem RunsOn.point (run : VoxelMapperRun Cloud Pose Update Filter)
    (input : Option (Except String (TimedSdkSample Cloud))) :
    RunsOn run (run.point runner input) := by
  unfold VoxelMapperRun.point
  split
  · exact ⟨rfl, rfl, .inl rfl⟩
  · exact ⟨rfl, rfl, .inr ⟨_, .inl rfl⟩⟩
  · split
    · exact .receivePoint run _
    · split
      · exact ⟨rfl, rfl, .inr ⟨_, .inr rfl⟩⟩
      · exact .receivePoint run _

theorem RunsOn.pose (run : VoxelMapperRun Cloud Pose Update Filter)
    (input : Option (Except String (TimedSdkSample Pose))) :
    RunsOn run (run.pose runner input) := by
  unfold VoxelMapperRun.pose
  split
  · exact ⟨rfl, rfl, .inl rfl⟩
  · exact ⟨rfl, rfl, .inr ⟨_, .inl rfl⟩⟩
  · split
    · exact ⟨rfl, rfl, .inr ⟨_, .inr rfl⟩⟩
    · exact ⟨rfl, rfl, .inl rfl⟩

theorem send_cases {result : Except String (VoxelWorkerOutput Update)}
    (hsend : run.send result = some next) :
    (∃ returned, run.phase = .returned returned ∧ next = { run with worker := .canceling }) ∨
      (run.updates = [] ∧ next = { run with
        updates := [result]
        worker := .afterSend result }) := by
  unfold send at hsend
  cases hp : run.phase with
  | returned returned =>
    rw [hp] at hsend
    cases hsend
    exact .inl ⟨returned, rfl, by rw [← hp]⟩
  | resolving | selecting | appending output | joining joined =>
    cases hupd : run.updates with
    | nil =>
      rw [hp, hupd] at hsend
      cases hsend
      exact .inr ⟨rfl, by rw [← hp]⟩
    | cons head rest =>
      rw [hp, hupd] at hsend
      cases hsend

theorem Failing.worker (hfai : run.Failing) (hp : next.phase = run.phase)
    (hupd : ∀ error, .error error ∈ run.updates → .error error ∈ next.updates)
    (hsen : ∀ error, run.worker ≠ .sending (.error error))
    (hpan : run.worker ≠ .panicked) : next.Failing := by
  cases hfai with
  | failed error hfail => exact .failed error (hp ▸ hfail)
  | voxelizer hlive herr =>
    obtain ⟨error, herr⟩ := herr.resolve_left fun ⟨error, hwork⟩ => hsen error hwork
    exact .voxelizer (hp ▸ hlive) (.inr ⟨error, hupd error herr⟩)
  | panicked hwork _ => exact absurd hwork hpan

theorem Failing.update (hfai : run.Failing) (hp : run.phase = .selecting)
    (hs : run.update = some next) : next.Failing := by
  have hlive : run.phase.live = true := hp ▸ rfl
  unfold VoxelMapperRun.update at hs
  split at hs
  · rename_i output rest hupd
    cases hs
    cases hfai with
    | failed error hfail =>
      rw [hp] at hfail
      rcases hfail with hfail | hfail <;> cases hfail
    | voxelizer _ herr =>
      refine .voxelizer rfl (herr.imp_right fun ⟨error, hm⟩ => ⟨error, ?_⟩)
      rw [hupd] at hm
      exact (mem_cons.mp hm).resolve_left (fun heq => by cases heq)
    | panicked hwork _ => exact .panicked hwork (fun heq => by cases heq)
  · cases hs
    exact .failed _ (.inl rfl)
  · rename_i hupd
    dsimp only at hs
    cases hfai with
    | failed error hfail =>
      rw [hp] at hfail
      rcases hfail with hfail | hfail <;> cases hfail
    | voxelizer _ herr =>
      rcases herr with ⟨error, hwork⟩ | ⟨error, hm⟩
      · rw [hwork] at hs
        cases hs
      · rw [hupd] at hm
        cases hm
    | panicked hwork _ =>
      rw [hwork] at hs
      cases hs
      exact .panicked rfl (fun heq => by cases heq)

theorem Failing.step {label : RunLabel Cloud Pose} (hfai : run.Failing)
    (hs : VoxelMapperRun.step runner run label = some next) : next.Failing := by
  cases label with dsimp only [VoxelMapperRun.step] at hs
  | resolve =>
    split at hs
    · rename_i hp
      cases hs
      have hlive : run.phase.live = true := hp ▸ rfl
      exact hfai.runsOn hlive (.resolve hlive)
    · cases hs
  | point input =>
    split at hs
    · rename_i hp
      split at hs
      · cases hs
        exact hfai.runsOn (hp ▸ rfl) (.point run input)
      · cases hs
    · cases hs
  | pose input =>
    split at hs
    · rename_i hp
      split at hs
      · cases hs
        exact hfai.runsOn (hp ▸ rfl) (.pose run input)
      · cases hs
    · cases hs
  | update =>
    split at hs
    · rename_i hp
      exact hfai.update hp hs
    · cases hs
  | appendReturned result =>
    split at hs
    · rename_i hp
      split at hs
      · cases hs
        exact .failed _ (.inl rfl)
      · cases hs
        exact hfai.runsOn (hp ▸ rfl) ⟨rfl, rfl, .inl rfl⟩
    · cases hs
  | join =>
    split at hs
    · rename_i result hp hwork
      cases hs
      cases hfai with
      | failed error hfail =>
        rw [hp] at hfail
        rcases hfail with hfail | hfail
        · cases hfail
          exact .failed error (.inr rfl)
        · cases hfail
      | voxelizer hlive _ =>
        rw [hp] at hlive
        cases hlive
      | panicked hpan _ =>
        rw [hwork] at hpan
        cases hpan
    · cases hs
      exact .failed _ (.inr rfl)
    · cases hs
  | workerReceive =>
    split at hs
    · rename_i hwork _
      cases hs
      exact hfai.worker rfl (fun _ => id) (by simp [hwork]) (by simp [hwork])
    · rename_i hwork _
      split at hs
      · cases hs
        exact hfai.worker rfl (fun _ => id) (by simp [hwork]) (by simp [hwork])
      · cases hs
    · cases hs
  | workerVoxelize =>
    split at hs
    · rename_i job hwork
      cases hs
      have hfrm : (run.voxelize runner job).phase = run.phase ∧
          (run.voxelize runner job).updates = run.updates := by
        unfold voxelize
        split
        · exact ⟨rfl, rfl⟩
        · exact ⟨rfl, rfl⟩
      exact hfai.worker hfrm.1 (fun _ hm => hfrm.2 ▸ hm) (by simp [hwork])
        (by simp [hwork])
    · cases hs
  | workerSend =>
    split at hs
    · rename_i result hwork
      rcases send_cases hs with ⟨returned, hp, rfl⟩ | ⟨hupd, rfl⟩
      · cases hfai with
        | failed error hfail => exact .failed error hfail
        | voxelizer hlive _ =>
          rw [hp] at hlive
          cases hlive
        | panicked hpan _ =>
          rw [hwork] at hpan
          cases hpan
      · cases hfai with
        | failed error hfail => exact .failed error hfail
        | voxelizer hlive herr =>
          refine .voxelizer hlive (.inr ?_)
          rcases herr with ⟨error, hsen⟩ | ⟨error, hm⟩
          · rw [hwork] at hsen
            cases hsen
            exact ⟨error, mem_cons_self⟩
          · rw [hupd] at hm
            cases hm
        | panicked hpan _ =>
          rw [hwork] at hpan
          cases hpan
    · cases hs
  | workerCancel =>
    split at hs
    · rename_i hwork
      cases hs
      exact hfai.worker rfl (fun _ => id) (by simp [hwork]) (by simp [hwork])
    · cases hs
  | workerPanic =>
    split at hs
    · rename_i job hwork
      cases hs
      exact hfai.worker rfl (fun _ => id) (by simp [hwork]) (by simp [hwork])
    · cases hs

theorem Sound.advance (hs : run.Sound runner) (timestampNs : ℤ) :
    Sound runner { run with poseBuffer := advancePoses timestampNs run.poseBuffer } where
  __ := hs
  posed hincr := by
    obtain ⟨hsuf, hjobs⟩ := hs.posed hincr
    exact ⟨(advancePoses_suffix _ _).trans hsuf, hjobs⟩

theorem Sound.withoutPose (hs : run.Sound runner) {first : TimedSdkSample Cloud}
    {rest : List (TimedSdkSample Cloud)} (hpend : run.pending = first :: rest) :
    (run.withoutPose 1 rest).Sound runner where
  __ := hs
  done hdone := by
    have hnil := hs.done hdone
    rw [hpend] at hnil
    cases hnil
  counted :=
    { __ := hs.counted
      resolved := by
        have hres := hs.counted.resolved
        rw [hpend, length_cons] at hres
        change run.history.points.length = run.report.pointCloudsWithoutPose + 1 +
          run.report.pointCloudsDroppedForBackpressure + rest.length + run.history.aligned.length
        omega
      clouds := by
        have hclo := hs.counted.clouds
        rw [hpend] at hclo
        exact ((sublist_cons_self first rest).append_left _).trans hclo }
  delivered := ⟨hs.delivered.written, hs.delivered.outputs⟩

theorem Sound.endResolve (hs : run.Sound runner) (hp : run.phase = .resolving) :
    run.endResolve.Sound runner := by
  have hdel := hs.delivered
  rw [inFlight, hp] at hdel
  unfold VoxelMapperRun.endResolve
  split
  · exact
      { closed := fun _ => rfl
        done := fun _ => rfl
        exited := fun hexi => ⟨rfl, (hs.exited hexi).2⟩
        __ := hs
        ends := trivial
        counted :=
          { __ := hs.counted
            resolved := by
              have hresol := hs.counted.resolved
              change run.history.points.length =
                run.report.pointCloudsWithoutPose + run.pending.length +
                  run.report.pointCloudsDroppedForBackpressure + 0 + run.history.aligned.length
              omega
            clouds := ((nil_sublist _).append_left _).trans hs.counted.clouds }
        delivered := ⟨hdel.written, hdel.outputs⟩ }
  · exact
      { __ := hs
        ends := trivial
        delivered := hdel }

theorem Sound.submit (hs : run.Sound runner) {first : TimedSdkSample Cloud}
    {rest : List (TimedSdkSample Cloud)} (hpend : run.pending = first :: rest) {pose : Pose}
    (hpose : Increasing run.history.poses → ⟨first.timestampNs, pose⟩ ∈ run.history.poses ∨
      Interpolated runner run.history.poses first.timestampNs pose) :
    ({ run with pending := rest }.submit
      ⟨first.timestampNs, first.payload, pose⟩).Sound runner := by
  have hund : run.alignmentDone ≠ true := by
    intro hdone
    have hnil := hs.done hdone
    rw [hpend] at hnil
    cases hnil
  unfold VoxelMapperRun.submit
  split
  · rename_i hcl
    exact absurd (hs.closed hcl) hund
  · rename_i hopen
    have hcnt := hs.counted
    have hcla : run.claimed =
      run.history.voxelized.map Prod.fst ++ run.worker.inHand ++ run.jobs.pending.toList := rfl
    rw [hcla] at hcnt
    exact
      { __ := hs
        done := fun hdone => absurd hdone hund
        exited := fun hexi => absurd (hs.exited hexi).1 hopen
        posed := by
          intro hincr
          obtain ⟨hsuf, hjobs⟩ := hs.posed hincr
          refine ⟨hsuf, fun job hm => ?_⟩
          rcases mem_append.mp hm with hm | hm
          · exact hjobs job hm
          · rw [mem_singleton.mp hm]
            exact hpose hincr
        counted :=
          { received := hcnt.received
            resolved := by
              have hres := hcnt.resolved
              rw [hpend, length_cons] at hres
              change run.history.points.length = run.report.pointCloudsWithoutPose +
                run.report.pointCloudsDroppedForBackpressure + rest.length +
                  (run.history.aligned ++ [_]).length
              rw [length_append, length_singleton]
              omega
            dropped := by
              have hdrp := hcnt.dropped
              change (run.history.aligned ++ [_]).length =
                run.report.pointCloudsDroppedForWorkerBackpressure +
                  (if run.jobs.pending.isSome = true then 1 else 0) +
                    (run.history.voxelized.map Prod.fst ++ run.worker.inHand ++ [_]).length
              cases hslot : run.jobs.pending with
              | none =>
                rw [hslot, Option.toList_none, append_nil] at hdrp
                simp [hdrp]
                omega
              | some old =>
                rw [hslot, Option.toList_some] at hdrp
                simp [hdrp]
                omega
            clouds := by
              have hclo := hcnt.clouds
              rw [hpend] at hclo
              change ((run.history.aligned ++ [_]).map VoxelJob.cloud ++ rest).Sublist _
              rw [map_append, append_assoc]
              exact hclo
            kept := by
              refine List.Sublist.append ?_ (List.Sublist.refl _)
              exact (sublist_append_left _ _).trans hcnt.kept
            last := by
              change (_ ++ [_]).getLast? = (_ ++ [_]).getLast?
              rw [getLast?_concat, getLast?_concat] }
        delivered := ⟨hs.delivered.written, hs.delivered.outputs⟩ }

theorem Sound.resolve (hs : run.Sound runner) (hp : run.phase = .resolving) :
    (run.resolve runner).Failing ∨ (run.resolve runner).Sound runner := by
  unfold VoxelMapperRun.resolve
  split
  · exact .inr (hs.endResolve hp)
  · rename_i first rest hpend
    have hadv := hs.advance first.timestampNs
    dsimp only
    split
    · exact .inl (.failed _ (.inr rfl))
    · exact .inr (hadv.withoutPose hpend)
    · split
      · exact .inr (hadv.withoutPose hpend)
      · exact .inr (hadv.endResolve hp)
    · rename_i pose hrdy
      refine .inr (hadv.submit hpend fun hincr => ?_)
      obtain ⟨hsuf, -⟩ := hs.posed hincr
      exact (resolvePose_ready hrdy).imp (fun hm => hsuf.mem hm)
        (fun hint => hint.of_suffix hsuf)

theorem Sound.receivePoint (hs : run.Sound runner) (hp : run.phase = .selecting)
    (hund : run.alignmentDone = false) {sample : TimedSdkSample Cloud}
    (hlast : ∀ previous, run.lastPointTimestamp = some previous →
      previous ≤ sample.timestampNs) : (run.receivePoint runner sample).Sound runner := by
  have hdel := hs.delivered
  rw [inFlight, hp] at hdel
  have hcnt := hs.counted
  have hres : (run.history.points ++ [sample]).length = run.report.pointCloudsWithoutPose +
      run.report.pointCloudsDroppedForBackpressure + (run.pending ++ [sample]).length +
        run.history.aligned.length := by
    rw [length_append, length_append, hcnt.resolved, length_singleton]
    omega
  have hclo : (run.history.aligned.map VoxelJob.cloud ++ (run.pending ++ [sample])).Sublist
      (run.history.points ++ [sample]) := by
    rw [← append_assoc]
    exact hcnt.clouds.append (List.Sublist.refl _)
  have hrecv : run.report.pointCloudsReceived + 1 = (run.history.points ++ [sample]).length := by
    rw [length_append, hcnt.received, length_singleton]
  unfold VoxelMapperRun.receivePoint
  dsimp only
  split
  · exact
      { __ := hs
        done := fun hdone => absurd hdone (by simp [hund])
        ends := trivial
        ordered := hs.ordered.concat hlast
        counted :=
          { received := hrecv
            resolved := by
              change (run.history.points ++ [sample]).length = run.report.pointCloudsWithoutPose +
                (run.report.pointCloudsDroppedForBackpressure + 1) +
                  ((run.pending ++ [sample]).drop 1).length + run.history.aligned.length
              rw [hres, length_drop, length_append, length_singleton]
              omega
            __ := hcnt
            clouds := ((drop_sublist 1 _).append_left _).trans hclo }
        delivered := ⟨hdel.written, hdel.outputs⟩ }
  · exact
      { __ := hs
        done := fun hdone => absurd hdone (by simp [hund])
        ends := trivial
        ordered := hs.ordered.concat hlast
        counted := ⟨hrecv, hres, hcnt.dropped, hclo, hcnt.kept, hcnt.last⟩
        delivered := ⟨hdel.written, hdel.outputs⟩ }

theorem Sound.point (hs : run.Sound runner) (hp : run.phase = .selecting)
    (hund : run.alignmentDone = false) (input : Option (Except String (TimedSdkSample Cloud))) :
    (run.point runner input).Failing ∨ (run.point runner input).Sound runner := by
  unfold VoxelMapperRun.point
  split
  · have hdel := hs.delivered
    rw [inFlight, hp] at hdel
    exact .inr
      { __ := hs
        ends := trivial
        delivered := hdel }
  · exact .inl (.failed _ (.inl rfl))
  · split
    · rename_i hnone
      refine .inr (hs.receivePoint hp hund fun previous hprev => ?_)
      rw [hnone] at hprev
      cases hprev
    · rename_i last hlast
      split
      · exact .inl (.failed _ (.inr rfl))
      · rename_i hle
        refine .inr (hs.receivePoint hp hund fun previous hprev => ?_)
        rw [hlast] at hprev
        cases hprev
        exact not_lt.mp hle

theorem Sound.pose (hs : run.Sound runner) (hp : run.phase = .selecting)
    (input : Option (Except String (TimedSdkSample Pose))) :
    (run.pose runner input).Failing ∨ (run.pose runner input).Sound runner := by
  have hdel := hs.delivered
  rw [inFlight, hp] at hdel
  unfold VoxelMapperRun.pose
  split
  · exact .inr
      { __ := hs
        ends := trivial
        delivered := hdel }
  · exact .inl (.failed _ (.inl rfl))
  · rename_i sample
    split
    · exact .inl (.failed _ (.inr rfl))
    · rename_i pushed dropped hpush
      have hcnt := hs.counted
      exact .inr
        { __ := hs
          ends := trivial
          posed := by
            intro hincr
            have hpre : Increasing run.history.poses := (pairwise_append.mp hincr).1
            obtain ⟨hsuf, hjobs⟩ := hs.posed hpre
            refine ⟨pushPose_suffix hsuf hincr hpush, fun job hm => ?_⟩
            exact (hjobs job hm).imp (fun hpose => mem_append_left _ hpose)
              (fun hint => hint.append _)
          counted := { hcnt with }
          delivered := ⟨hdel.written, hdel.outputs⟩ }

theorem Sound.update (hs : run.Sound runner) (hp : run.phase = .selecting)
    (hstep : run.update = some next) : next.Failing ∨ next.Sound runner := by
  have hdel := hs.delivered
  rw [inFlight, hp] at hdel
  unfold VoxelMapperRun.update at hstep
  split at hstep
  · rename_i output rest hupd
    cases hstep
    rw [hupd] at hdel
    exact .inr
      { __ := hs
        updates := fun error hm =>
          hs.updates error (by rw [hupd]; exact mem_cons_of_mem _ hm)
        ends := trivial
        delivered := hdel }
  · cases hstep
    exact .inl (.failed _ (.inl rfl))
  · rename_i hupd
    dsimp only at hstep
    rw [hupd] at hdel
    have hwork := hs.worker
    split at hstep
    · rename_i hexi
      cases hstep
      by_cases hdone : run.alignmentDone = true
      · rw [if_pos hdone]
        exact .inr
          { __ := hs
            ends := ⟨hdone, hexi, hupd⟩
            delivered := ⟨hdel.written, by
              change _ = _ ++ ([] ++ run.updates.filterMap _ ++ _)
              rw [hupd]
              exact hdel.outputs⟩ }
      · rw [if_neg hdone]
        exact .inl (.failed _ (.inl rfl))
    · rename_i hpan
      rw [hpan] at hwork
      exact hwork.elim
    · cases hstep

theorem Sound.appended (hs : run.Sound runner) {output : VoxelWorkerOutput Update}
    (hp : run.phase = .appending output) :
    Sound runner { run with
      report := { run.report with mapUpdatesWritten := run.report.mapUpdatesWritten + 1 }
      history := { run.history with appended := run.history.appended ++ [output] }
      phase := .resolving } := by
  have hdel := hs.delivered
  have hcnt := hs.counted
  rw [inFlight, hp] at hdel
  exact
    { __ := hs
      ends := trivial
      counted := { hcnt with }
      delivered := by
        refine ⟨?_, ?_⟩
        · change run.report.mapUpdatesWritten + 1 = (run.history.appended ++ [output]).length
          rw [length_append, hdel.written, length_singleton]
        · rw [hdel.outputs]
          change _ = (run.history.appended ++ [output]) ++ ([] ++ _ ++ _)
          simp [RunPhase.output] }

theorem Sound.received (hs : run.Sound runner) {job : VoxelJob Cloud Pose}
    (hwork : run.worker = .receiving) (hslot : run.jobs.pending = some job) :
    Sound runner { run with
      jobs := { run.jobs with pending := none }
      worker := .voxelizing job } := by
  have hdel := hs.delivered
  have hcnt := hs.counted
  rw [inFlight, hwork] at hdel
  have hcla : run.claimed = run.history.voxelized.map Prod.fst ++ [job] ++ [] := by
    rw [claimed, hwork, hslot]
    simp [WorkerPhase.inHand]
  rw [hcla] at hcnt
  exact
    { __ := hs
      exited := fun hexi => by cases hexi
      worker := trivial
      ends := ends_of_live (hs.live (by simp [hwork]))
      counted := hcnt
      delivered := hdel }

theorem Sound.workerExited (hs : run.Sound runner) (hwork : run.worker = .receiving)
    (hslot : run.jobs.pending = none) (hcl : run.jobs.closed = true) :
    Sound runner { run with worker := .exited } := by
  have hdel := hs.delivered
  have hcnt := hs.counted
  rw [inFlight, hwork] at hdel
  rw [claimed, hwork] at hcnt
  exact
    { __ := hs
      exited := fun _ => ⟨hcl, hslot⟩
      worker := trivial
      ends := ends_of_live (hs.live (by simp [hwork]))
      counted := hcnt
      delivered := hdel }

theorem Sound.voxelize (hs : run.Sound runner) {job : VoxelJob Cloud Pose}
    (hwork : run.worker = .voxelizing job) :
    (run.voxelize runner job).Failing ∨ (run.voxelize runner job).Sound runner := by
  have hdel := hs.delivered
  have hcnt := hs.counted
  have hlive := hs.live (by simp [hwork])
  rw [inFlight, hwork] at hdel
  rw [claimed, hwork] at hcnt
  unfold VoxelMapperRun.voxelize
  split
  · exact .inl (.voxelizer hlive (.inl ⟨_, rfl⟩))
  · rename_i mapped hmap
    dsimp only
    generalize filtered runner run.filter job.timestampNs mapped = applied
    have hcla : ∀ worker : WorkerPhase Cloud Pose Update, worker.inHand = [] →
        (run.history.voxelized ++ [(job, applied.2)]).map Prod.fst ++ worker.inHand ++
          run.jobs.pending.toList =
        run.history.voxelized.map Prod.fst ++ WorkerPhase.inHand
          (.voxelizing job : WorkerPhase Cloud Pose Update) ++ run.jobs.pending.toList := by
      intro worker hnone
      rw [hnone, map_append, append_nil]
      rfl
    have hotp : ∀ worker : WorkerPhase Cloud Pose Update,
        worker.output = (runner.output (job, applied.2)).toList →
          (run.history.voxelized ++ [(job, applied.2)]).filterMap runner.output =
            run.history.appended ++ (run.phase.output ++
              run.updates.filterMap Except.toOption ++ worker.output) := by
      intro worker hwork
      rw [filterMap_append, hdel.outputs, hwork]
      cases hout : runner.output (job, applied.2) with
      | none => simp [hout, WorkerPhase.output]
      | some output => simp [hout, WorkerPhase.output]
    refine .inr
      { __ := hs
        exited := ?_
        worker := ?_
        ends := ends_of_live hlive
        counted := ?_
        delivered := ⟨hdel.written, hotp _ ?_⟩ }
    · intro hexi
      dsimp only at hexi
      split at hexi <;> cases hexi
    · dsimp only
      split
      · trivial
      · trivial
    · change Counted run.report run.history.points run.pending run.history.aligned
        ((run.history.voxelized ++ [(job, applied.2)]).map Prod.fst ++ _ ++ run.jobs.pending.toList)
      rw [hcla]
      · exact hcnt
      · dsimp only
        split
        · rfl
        · rfl
    · dsimp only
      unfold VoxelMapperRunner.output
      split
      · rfl
      · rfl

theorem Sound.send (hs : run.Sound runner)
    {result : Except String (VoxelWorkerOutput Update)} (hwork : run.worker = .sending result)
    (hstep : run.send result = some next) : next.Sound runner := by
  have hlive := hs.live (by simp [hwork])
  have hhea := hs.worker
  have hdel := hs.delivered
  have hcnt := hs.counted
  rw [hwork] at hhea
  rw [inFlight, hwork] at hdel
  rw [claimed, hwork] at hcnt
  cases result with
  | error error => exact hhea.elim
  | ok output =>
    rcases send_cases hstep with ⟨returned, hp, -⟩ | ⟨hupd, rfl⟩
    · rw [hp] at hlive
      cases hlive
    · rw [hupd] at hdel
      exact
        { __ := hs
          exited := fun hexi => by cases hexi
          worker := trivial
          updates := fun error hm => by
            have heq := mem_singleton.mp hm
            cases heq
          ends := ends_of_live hlive
          counted := hcnt
          delivered := by
            refine ⟨hdel.written, hdel.outputs.trans ?_⟩
            change _ = run.history.appended ++ (run.phase.output ++ [output] ++ [])
            simp [WorkerPhase.output] }

theorem Sound.step {label : RunLabel Cloud Pose} (hs : run.Sound runner)
    (hstep : VoxelMapperRun.step runner run label = some next) :
    next.Failing ∨ next.Sound runner := by
  cases label with
  | resolve =>
    dsimp only [VoxelMapperRun.step] at hstep
    split at hstep
    · rename_i hp
      cases hstep
      exact hs.resolve hp
    · cases hstep
  | point input =>
    dsimp only [VoxelMapperRun.step] at hstep
    split at hstep
    · rename_i hp
      split at hstep
      · rename_i hopen
        cases hstep
        exact hs.point hp hopen.2 input
      · cases hstep
    · cases hstep
  | pose input =>
    dsimp only [VoxelMapperRun.step] at hstep
    split at hstep
    · rename_i hp
      split at hstep
      · cases hstep
        exact hs.pose hp input
      · cases hstep
    · cases hstep
  | update =>
    dsimp only [VoxelMapperRun.step] at hstep
    split at hstep
    · rename_i hp
      exact hs.update hp hstep
    · cases hstep
  | appendReturned result =>
    dsimp only [VoxelMapperRun.step] at hstep
    split at hstep
    · rename_i output hp
      split at hstep
      · cases hstep
        exact .inl (.failed _ (.inl rfl))
      · cases hstep
        exact .inr (hs.appended hp)
    · cases hstep
  | join =>
    have hends := hs.ends
    have hwork := hs.worker
    dsimp only [VoxelMapperRun.step] at hstep
    split at hstep
    · rename_i result hp hexited
      cases hstep
      have hdel := hs.delivered
      rw [hp] at hends
      rw [inFlight, hp] at hdel
      cases result with
      | error error => exact hends.elim
      | ok =>
        exact .inr
          { __ := hs
            exited := hs.toHealthy.exited
            ends := hends
            delivered := hdel }
    · rename_i hpan
      rw [hpan] at hwork
      exact hwork.elim
    · cases hstep
  | workerReceive =>
    dsimp only [VoxelMapperRun.step] at hstep
    split at hstep
    · rename_i job hwork hslot
      cases hstep
      exact .inr (hs.received hwork hslot)
    · rename_i hwork hslot
      split at hstep
      · rename_i hcl
        cases hstep
        exact .inr (hs.workerExited hwork hslot hcl)
      · cases hstep
    · cases hstep
  | workerVoxelize =>
    dsimp only [VoxelMapperRun.step] at hstep
    split at hstep
    · rename_i job hwork
      cases hstep
      exact hs.voxelize hwork
    · cases hstep
  | workerSend =>
    dsimp only [VoxelMapperRun.step] at hstep
    split at hstep
    · rename_i result hwork
      exact .inr (hs.send hwork hstep)
    · cases hstep
  | workerCancel =>
    have hhea := hs.worker
    dsimp only [VoxelMapperRun.step] at hstep
    split at hstep
    · rename_i hwork
      rw [hwork] at hhea
      exact hhea.elim
    · cases hstep
  | workerPanic =>
    dsimp only [VoxelMapperRun.step] at hstep
    split at hstep
    · rename_i job hwork
      cases hstep
      have hlive := hs.live (by simp [hwork])
      refine .inl (.panicked rfl fun hp => ?_)
      change run.phase = _ at hp
      rw [hp] at hlive
      cases hlive
    · cases hstep

theorem Sound.new (runner : VoxelMapperRunner Cloud Pose Update Filter) :
    (new runner).Sound runner where
  closed hcl := by cases hcl
  done _ := rfl
  exited hexi := by cases hexi
  worker := trivial
  updates error hm := by cases hm
  ends := trivial
  ordered := ⟨List.Pairwise.nil, rfl⟩
  posed _ := ⟨suffix_rfl, fun job hm => by cases hm⟩
  counted := ⟨rfl, rfl, rfl, List.Sublist.refl _, List.Sublist.refl _, rfl⟩
  delivered := ⟨rfl, rfl⟩

theorem failing_or_sound {labels : List (RunLabel Cloud Pose)}
    (hrun : runSteps (VoxelMapperRun.step runner) (new runner) labels = some run) :
    run.Failing ∨ run.Sound runner := by
  have hstep : ∀ (run : VoxelMapperRun Cloud Pose Update Filter)
      (label : RunLabel Cloud Pose) next,
      run.Failing ∨ run.Sound runner → VoxelMapperRun.step runner run label = some next →
        next.Failing ∨ next.Sound runner := by
    intro run label next hrun hstep
    exact hrun.elim (fun hfai => .inl (hfai.step hstep)) fun hs => hs.step hstep
  exact invariant_of_run (.inr (Sound.new runner)) hstep hrun

/-- Clouds are counted once, paired with the pose of their time, and appended in order. -/
theorem voxel_mapper_run {labels : List (RunLabel Cloud Pose)}
    (hrun : runSteps (VoxelMapperRun.step runner) (new runner) labels = some run)
    (hreturned : run.phase = .returned (.ok ())) (hincreasing : Increasing run.history.poses) :
    run.report.pointCloudsReceived = run.history.points.length ∧
      run.report.pointCloudsReceived = run.report.pointCloudsWithoutPose +
        run.report.pointCloudsDroppedForBackpressure +
        run.report.pointCloudsDroppedForWorkerBackpressure + run.history.voxelized.length ∧
      run.history.appended = run.history.voxelized.filterMap runner.output ∧
      run.report.mapUpdatesWritten = run.history.appended.length ∧
      run.history.appended.Pairwise (fun earlier later =>
        earlier.timestampNs ≤ later.timestampNs) ∧
      (run.history.voxelized.map Prod.fst).getLast? = run.history.aligned.getLast? ∧
      (run.history.voxelized.map fun entry => entry.1.cloud).Sublist run.history.points ∧
      ∀ entry ∈ run.history.voxelized,
        PoseFor runner run.history.poses entry.1.timestampNs entry.1.pose := by
  have hsound : run.Sound runner := by
    refine (failing_or_sound hrun).resolve_left fun hfailing => ?_
    cases hfailing with
    | failed error hfailed =>
      rw [hreturned] at hfailed
      rcases hfailed with hfailed | hfailed <;> cases hfailed
    | voxelizer hlive _ =>
      rw [hreturned] at hlive
      cases hlive
    | panicked _ hphase => exact hphase hreturned
  have hends := hsound.ends
  rw [hreturned] at hends
  obtain ⟨hdone, hexited, hupdates⟩ := hends
  have hcounted := hsound.counted
  have hclaimed : run.claimed = run.history.voxelized.map Prod.fst := by
    rw [claimed, hexited, (hsound.toHealthy.exited hexited).2]
    simp [WorkerPhase.inHand]
  rw [hclaimed, hsound.done hdone] at hcounted
  have houtputs : run.history.voxelized.filterMap runner.output = run.history.appended := by
    have hflight : run.inFlight = [] := by
      rw [inFlight, hreturned, hexited, hupdates]
      rfl
    rw [hsound.delivered.outputs, hflight, append_nil]
  have hclouds : (run.history.voxelized.map fun entry => entry.1.cloud).Sublist
      run.history.points := by
    calc (run.history.voxelized.map fun entry => entry.1.cloud)
        = (run.history.voxelized.map Prod.fst).map VoxelJob.cloud := by rw [map_map]; rfl
      List.Sublist _ (run.history.aligned.map VoxelJob.cloud) := hcounted.kept.map _
      List.Sublist _ run.history.points := by
        have hclouds := hcounted.clouds
        rwa [append_nil] at hclouds
  refine ⟨hcounted.received, ?_, houtputs.symm, hsound.delivered.written, ?_, hcounted.last,
    hclouds, ?_⟩
  · have hresolved := hcounted.resolved
    have hdropped := hcounted.dropped
    rw [length_map] at hdropped
    rw [hcounted.received, hresolved, hdropped, length_nil]
    omega
  · -- the outputs keep the order of the clouds
    have hsorted : run.history.voxelized.Pairwise fun earlier later =>
        earlier.1.timestampNs ≤ later.1.timestampNs := by
      have htimes := hsound.ordered.sorted.sublist (hclouds.map TimedSdkSample.timestampNs)
      rw [map_map] at htimes
      exact pairwise_map.mp htimes
    rw [← houtputs, pairwise_filterMap]
    refine hsorted.imp fun {earlier later} hle first hfirst second hsecond => ?_
    unfold VoxelMapperRunner.output at hfirst hsecond
    split at hfirst
    · cases hfirst
    · split at hsecond
      · cases hsecond
      · cases hfirst
        cases hsecond
        exact hle
  · intro entry hmem
    obtain ⟨-, hjobs⟩ := hsound.posed hincreasing
    have hjob : entry.1 ∈ run.history.aligned := hcounted.kept.subset (mem_map_of_mem hmem)
    exact (hjobs entry.1 hjob).elim .inl fun hinterpolated => hinterpolated.poseFor hincreasing

def sampleRunner : VoxelMapperRunner ℕ ℤ ℤ ℕ where
  maximumPendingPointClouds := 2
  maximumBufferedPoses := 2
  mapPointCloud cloud pose := .ok (cloud + pose)
  persistence := some 0
  filterApply count _ update := (count + 1, update)
  isEmpty update := update == 0
  validatePose _ := .ok ()
  interpolatePose before after timestampNs := .ok
    (before.payload + (after.payload - before.payload) * (timestampNs - before.timestampNs) /
      (after.timestampNs - before.timestampNs))

def sampleLabels : List (RunLabel ℕ ℤ) :=
  [.resolve, .pose (some (.ok ⟨0, 0⟩)), .resolve, .pose (some (.ok ⟨10, 100⟩)), .resolve,
    .point (some (.ok ⟨5, 1⟩)), .resolve, .workerReceive, .resolve,
    .point (some (.ok ⟨10, 2⟩)), .resolve, .resolve, .pose (some (.ok ⟨20, 300⟩)), .resolve,
    .point (some (.ok ⟨12, 3⟩)), .resolve, .resolve, .workerVoxelize, .workerSend,
    .workerReceive, .point none, .resolve, .update, .appendReturned (.ok ()), .resolve,
    .workerVoxelize, .workerSend, .update, .appendReturned (.ok ()), .resolve, .workerReceive,
    .update, .join]

theorem runs_sampleLabels : ∃ run,
    runSteps (VoxelMapperRun.step sampleRunner) (new sampleRunner) sampleLabels = some run ∧
      run.phase = .returned (.ok ()) ∧
      run.history.poses = [⟨0, 0⟩, ⟨10, 100⟩, ⟨20, 300⟩] ∧
      (run.history.voxelized.map fun entry => entry.1.pose) = [50, 140] ∧
      run.report.pointCloudsDroppedForWorkerBackpressure = 1 := by
  have hmap : (runSteps (VoxelMapperRun.step sampleRunner) (new sampleRunner) sampleLabels).map
      (fun run => ((run.phase, run.history.poses),
        run.history.voxelized.map fun entry => entry.1.pose,
        run.report.pointCloudsDroppedForWorkerBackpressure)) =
      some ((.returned (.ok ()), [⟨0, 0⟩, ⟨10, 100⟩, ⟨20, 300⟩]), [50, 140], 1) := by
    decide +kernel
  obtain ⟨run, hrun, heq⟩ := Option.map_eq_some_iff.mp hmap
  simp only [Prod.mk.injEq] at heq
  exact ⟨run, hrun, heq.1.1, heq.1.2, heq.2.1, heq.2.2⟩

theorem voxel_mapper_run_sample : ∃ run,
    runSteps (VoxelMapperRun.step sampleRunner) (new sampleRunner) sampleLabels = some run ∧
      run.report.pointCloudsReceived = run.report.pointCloudsWithoutPose +
        run.report.pointCloudsDroppedForBackpressure +
        run.report.pointCloudsDroppedForWorkerBackpressure + run.history.voxelized.length ∧
      run.history.appended = run.history.voxelized.filterMap sampleRunner.output ∧
      ∀ entry ∈ run.history.voxelized,
        PoseFor sampleRunner run.history.poses entry.1.timestampNs entry.1.pose := by
  obtain ⟨run, hrun, hreturned, hposes, -, -⟩ := runs_sampleLabels
  have hincreasing : Increasing run.history.poses := by
    rw [hposes]
    simp [Increasing]
  obtain ⟨-, hcounts, houtputs, -, -, -, -, hpose⟩ := voxel_mapper_run hrun hreturned hincreasing
  exact ⟨run, hrun, hcounts, houtputs, hpose⟩

end VoxelMapperRun

end AukiSdk.Mappers
