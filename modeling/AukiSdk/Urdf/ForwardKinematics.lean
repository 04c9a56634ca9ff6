import AukiSdk.Foundation.Checks
import AukiSdk.Foundation.SparseMap
import Mathlib.Data.List.Perm.Basic

/-!
# URDF forward kinematics

`Model::from_robot` accepts a robot whose joints name declared links and that has one root.
-/

namespace AukiSdk.Urdf

open AukiSdk.Foundation List
open Std (ExtTreeMap)

variable {M Axis Angle Color : Type} [Monoid M]

inductive JointType where
  | revolute
  | continuous
  | fixed
  | prismatic
  | floating
  | planar
  | spherical
  deriving DecidableEq

structure Visual (Color : Type) where
  /-- The file of a mesh. -/
  mesh : Option String
  /-- The color of the material. -/
  color : Option Color

structure UrdfLink (Color : Type) where
  name : String
  visual : List (Visual Color)

/-- The origin is the matrix of `xyz` and `rpy`. -/
structure UrdfJoint (M Axis : Type) where
  name : String
  jointType : JointType
  parent : String
  child : String
  origin : M
  axis : Axis

structure Robot (M Axis Color : Type) where
  links : List (UrdfLink Color)
  joints : List (UrdfJoint M Axis)

/-- Revolute and continuous joints consume an angle. -/
def UrdfJoint.active (joint : UrdfJoint M Axis) : Bool :=
  match joint.jointType with
  | .revolute => true
  | .continuous => true
  | _ => false

structure LinkDef (Color : Type) where
  meshPath : Option String
  colorRgba : Option Color

/-- The axis is read only when there is an angle. -/
structure JointDef (M Axis : Type) where
  name : String
  childLink : String
  origin : M
  axis : Axis
  angleIndex : Option ℕ

structure Model (M Axis Color : Type) where
  rootLink : String
  joints : List (JointDef M Axis)
  links : ExtTreeMap String (LinkDef Color)
  childrenOf : ExtTreeMap String (List ℕ)

inductive FkError where
  | unknownLink (joint link : String)
  | multipleRoots (roots : List String)
  | noRoot
  | jointCountMismatch (expected actual : ℕ)
  deriving DecidableEq

structure LinkTransform (M Color : Type) where
  linkName : String
  meshPath : Option String
  colorRgba : Option Color
  transform : M

/-- The first visual wins. -/
def UrdfLink.toDef (link : UrdfLink Color) : String × LinkDef Color :=
  (link.name, ⟨link.visual.head?.bind Visual.mesh, link.visual.head?.bind Visual.color⟩)

/-- What the loop over the joints has built. -/
structure Building (M Axis : Type) where
  joints : List (JointDef M Axis)
  childrenOf : ExtTreeMap String (List ℕ)
  activeJointCount : ℕ

/-- One round of the loop over the joints. -/
def addJoint (links : ExtTreeMap String (LinkDef Color)) (building : Building M Axis)
    (joint : UrdfJoint M Axis) : Except FkError (Building M Axis) :=
  if links.contains joint.parent = false then .error (.unknownLink joint.name joint.parent)
  else if links.contains joint.child = false then .error (.unknownLink joint.name joint.child)
  else
    .ok {
      joints := building.joints ++ [{
        name := joint.name
        childLink := joint.child
        origin := joint.origin
        axis := joint.axis
        angleIndex := if joint.active = true then some building.activeJointCount else none }]
      childrenOf :=
        SparseMap.store [] (· ++ [building.joints.length]) joint.parent building.childrenOf
      activeJointCount :=
        if joint.active = true then building.activeJointCount + 1
        else building.activeJointCount }

def Model.fromRobot (robot : Robot M Axis Color) : Except FkError (Model M Axis Color) := do
  let links := SparseMap.collect (robot.links.map UrdfLink.toDef)
  let building ← robot.joints.foldlM (addJoint links) ⟨[], ∅, 0⟩
  match links.keys.filter (fun name => name ∉ building.joints.map JointDef.childLink) with
  | [root] => .ok ⟨root, building.joints, links, building.childrenOf⟩
  | [] => .error .noRoot
  | roots => .error (.multipleRoots roots)

def Model.jointCount (model : Model M Axis Color) : ℕ :=
  model.joints.countP fun joint => joint.angleIndex.isSome

section Resolve

variable (rotation : Axis → Angle → M) (model : Model M Axis Color) (angles : List Angle)

/-- The frame of a joint's child; `none` is an index that panics. -/
def Model.childFrame (linkToRoot : M) (index : ℕ) : Option (String × M) := do
  let joint ← model.joints[index]?
  match joint.angleIndex with
  | none => some (joint.childLink, linkToRoot * joint.origin * 1)
  | some angleIndex =>
    let angle ← angles[angleIndex]?
    some (joint.childLink, linkToRoot * joint.origin * rotation joint.axis angle)

/-- The loop of `resolve`, the top of the stack first. -/
def Model.walk : ℕ → List (String × M) → Option (List (LinkTransform M Color))
  | _, [] => some []
  | 0, _ :: _ => none
  | fuel + 1, (linkName, linkToRoot) :: rest => do
    let link ← model.links[linkName]?
    let pushed ← (model.childrenOf[linkName]?.getD []).mapM
      (model.childFrame rotation angles linkToRoot)
    let out ← Model.walk fuel (pushed ++ rest)
    some (⟨linkName, link.meshPath, link.colorRgba, linkToRoot⟩ :: out)

def Model.resolve (fuel : ℕ) : Option (Except FkError (List (LinkTransform M Color))) :=
  if angles.length = model.jointCount then
    (model.walk rotation angles fuel [(model.rootLink, 1)]).map .ok
  else some (.error (.jointCountMismatch model.jointCount angles.length))

end Resolve

section Spec

variable (rotation : Axis → Angle → M) (robot : Robot M Axis Color) (angles : List Angle)

/-- The rotation of a joint, with the angle at its place among the active joints. -/
def Robot.rotationAt (joint : UrdfJoint M Axis) (index : ℕ) : Option M :=
  if joint.active = true then
    (angles[(robot.joints.take index).countP UrdfJoint.active]?).map (rotation joint.axis)
  else some 1

/-- The frame of the child of a joint, from the frame of its parent. -/
def Robot.Child (parent frame : String × M) : Prop :=
  ∃ joint index turned, (joint, index) ∈ robot.joints.zipIdx ∧ joint.parent = parent.1 ∧
    robot.rotationAt rotation angles joint index = some turned ∧
    frame = (joint.child, parent.2 * joint.origin * turned)

/-- A frame is that of the root, or that of a child of an earlier frame. -/
def Robot.Attached (root : String) (before : List (String × M)) (frame : String × M) : Prop :=
  before = [] ∧ frame = (root, 1) ∨ ∃ parent ∈ before, robot.Child rotation angles parent frame

/-- Each frame is attached to the frames before it. -/
inductive Robot.Grown (root : String) : List (String × M) → Prop where
  | nil : Robot.Grown root []
  | concat (before : List (String × M)) (frame : String × M) :
      Robot.Grown root before → robot.Attached rotation angles root before frame →
      Robot.Grown root (before ++ [frame])

/-- The walk ends, with one frame for each link, after its parent's. -/
def Covers (model : Model M Axis Color) : Prop :=
  ∃ fuel out, model.resolve rotation angles fuel = some (.ok out) ∧
    (out.map LinkTransform.linkName).Nodup ∧
    (∀ name, name ∈ out.map LinkTransform.linkName ↔ name ∈ robot.links.map UrdfLink.name) ∧
    robot.Grown rotation angles model.rootLink
      (out.map fun link => (link.linkName, link.transform))

/-- A link can be reached from another through joints. -/
def Robot.Reaches (robot : Robot M Axis Color) : String → String → Prop :=
  Relation.ReflTransGen fun parent child =>
    ∃ joint ∈ robot.joints, joint.parent = parent ∧ joint.child = child

/-- No link is the child of two joints, and each can be reached from the root. -/
structure Robot.IsTree (robot : Robot M Axis Color) (root : String) : Prop where
  nodup : (robot.joints.map UrdfJoint.child).Nodup
  reaches : ∀ link ∈ robot.links, robot.Reaches root link.name

end Spec

/-- The joint that the loop builds. -/
def UrdfJoint.toDef (joints : List (UrdfJoint M Axis)) (entry : UrdfJoint M Axis × ℕ) :
    JointDef M Axis where
  name := entry.1.name
  childLink := entry.1.child
  origin := entry.1.origin
  axis := entry.1.axis
  angleIndex :=
    if entry.1.active = true then some ((joints.take entry.2).countP UrdfJoint.active) else none

/-- What the loop has built of the joints before, in a list of joints. -/
structure Built (links : ExtTreeMap String (LinkDef Color))
    (joints before : List (UrdfJoint M Axis)) (building : Building M Axis) : Prop where
  joints : building.joints = before.zipIdx.map (UrdfJoint.toDef joints)
  childrenOf : ∀ name, SparseMap.valueAt [] building.childrenOf name =
    (before.zipIdx.filter fun entry => entry.1.parent = name).map Prod.snd
  count : building.activeJointCount = before.countP UrdfJoint.active
  declared : ∀ joint ∈ before,
    links.contains joint.parent = true ∧ links.contains joint.child = true

section Accepted

variable {links : ExtTreeMap String (LinkDef Color)} {joints before after : List (UrdfJoint M Axis)}
  {building built : Building M Axis} {robot : Robot M Axis Color} {model : Model M Axis Color}

omit [Monoid M] in
theorem Built.addJoint {joint : UrdfJoint M Axis} (hbui : Built links joints before building)
    (hjoi : joints = before ++ joint :: after)
    (hadd : Urdf.addJoint links building joint = .ok built) :
    Built links joints (before ++ [joint]) built := by
  unfold Urdf.addJoint at hadd
  split at hadd
  · cases hadd
  split at hadd
  · cases hadd
  rename_i hpar hchi
  cases hadd
  have hzip : (before ++ [joint]).zipIdx = before.zipIdx ++ [(joint, before.length)] := by
    rw [zipIdx_append, zero_add]
    rfl
  have htake : joints.take before.length = before := by rw [hjoi, take_left]
  constructor
  · rw [hzip, map_append, hbui.joints, map_singleton, UrdfJoint.toDef, htake, hbui.count]
  · intro name
    rw [hzip, filter_append, map_append, ← hbui.childrenOf name]
    by_cases heq : joint.parent = name
    · rw [← heq, SparseMap.valueAt_store_self, hbui.joints, length_map, length_zipIdx]
      simp
    · rw [SparseMap.valueAt_store_of_ne (Ne.symm heq)]
      simp [heq]
  · rw [countP_append, countP_singleton, ← hbui.count]
    split <;> simp_all
  · intro other hm
    rcases mem_append.mp hm with hm | hm
    · exact hbui.declared other hm
    · rw [mem_singleton.mp hm]
      exact ⟨Bool.not_eq_false _ ▸ hpar, Bool.not_eq_false _ ▸ hchi⟩

omit [Monoid M] in
theorem Built.foldlM (hbui : Built links joints before building)
    (hjoi : joints = before ++ after)
    (hfold : after.foldlM (Urdf.addJoint links) building = .ok built) :
    Built links joints joints built := by
  induction after generalizing before building with
  | nil =>
    cases hfold
    rw [append_nil] at hjoi
    rwa [hjoi] at hbui ⊢
  | cons joint after ih =>
    rw [foldlM_cons] at hfold
    obtain ⟨next, hn, hfold⟩ := Checks.bind_eq_ok.mp hfold
    exact ih (hbui.addJoint hjoi hn) (by rw [hjoi, append_assoc]; rfl) hfold

/-- What `from_robot` promises of a model. -/
structure Accepts (robot : Robot M Axis Color) (model : Model M Axis Color) : Prop where
  joints : model.joints = robot.joints.zipIdx.map (UrdfJoint.toDef robot.joints)
  childrenOf : ∀ name, model.childrenOf[name]?.getD [] =
    (robot.joints.zipIdx.filter fun entry => entry.1.parent = name).map Prod.snd
  declared : ∀ joint ∈ robot.joints, joint.parent ∈ robot.links.map UrdfLink.name ∧
    joint.child ∈ robot.links.map UrdfLink.name
  links : ∀ name, model.links.contains name = true ↔ name ∈ robot.links.map UrdfLink.name
  root_mem : model.rootLink ∈ robot.links.map UrdfLink.name
  root_not_child : model.rootLink ∉ robot.joints.map UrdfJoint.child

theorem contains_collect (entries : List (String × LinkDef Color)) (name : String) :
    (SparseMap.collect entries).contains name = true ↔ name ∈ entries.map Prod.fst := by
  induction entries using List.reverseRecOn with
  | nil => simp [SparseMap.collect]
  | append_singleton entries entry ih =>
    rw [SparseMap.collect, foldl_append, foldl_cons, foldl_nil, ExtTreeMap.contains_insert,
      ← SparseMap.collect, Bool.or_eq_true, ih, map_append, mem_append, or_comm, map_singleton,
      mem_singleton, beq_iff_eq, compare_eq_iff_eq, eq_comm]

omit [Monoid M] in
theorem fromRobot_accepts (hmod : Model.fromRobot robot = .ok model) : Accepts robot model := by
  obtain ⟨building, hfold, hmod⟩ := Checks.bind_eq_ok.mp hmod
  have hlin (name : String) :
      (SparseMap.collect (robot.links.map UrdfLink.toDef)).contains name = true ↔
        name ∈ robot.links.map UrdfLink.name := by
    rw [contains_collect, map_map]
    rfl
  have hbui : Built (SparseMap.collect (robot.links.map UrdfLink.toDef)) robot.joints
      robot.joints building := by
    have hemp : Built (SparseMap.collect (robot.links.map UrdfLink.toDef)) robot.joints []
        ⟨[], ∅, 0⟩ := ⟨rfl, fun name => SparseMap.valueAt_empty, rfl, nofun⟩
    exact hemp.foldlM rfl hfold
  have hchi : building.joints.map JointDef.childLink = robot.joints.map UrdfJoint.child := by
    rw [hbui.joints, map_map]
    calc robot.joints.zipIdx.map (JointDef.childLink ∘ UrdfJoint.toDef robot.joints)
        = (robot.joints.zipIdx.map Prod.fst).map UrdfJoint.child := by rw [map_map]; rfl
      _ = robot.joints.map UrdfJoint.child := by rw [zipIdx_map_fst]
  split at hmod
  · rename_i root hroot
    cases hmod
    have hm : root ∈ [root] := mem_cons_self
    rw [← hroot, mem_filter, hchi, decide_eq_true_eq] at hm
    refine ⟨hbui.joints, hbui.childrenOf, fun joint hjoi => ?_, hlin, ?_, hm.2⟩
    · exact ⟨(hlin _).mp (hbui.declared joint hjoi).1, (hlin _).mp (hbui.declared joint hjoi).2⟩
    · exact (hlin root).mp (ExtTreeMap.mem_keys.mp hm.1)
  · cases hmod
  · cases hmod

end Accepted

section Walk

variable {rotation : Axis → Angle → M} {robot : Robot M Axis Color} {model : Model M Axis Color}
  {angles : List Angle} {stack : List (String × M)} {out : List (LinkTransform M Color)}

/-- The children of a link, one for each joint. -/
def Robot.childLinks (robot : Robot M Axis Color) (name : String) : List String :=
  (robot.joints.filter fun joint => joint.parent = name).map UrdfJoint.child

/-- The name and the transform of an emitted link. -/
def LinkTransform.frame (link : LinkTransform M Color) : String × M :=
  (link.linkName, link.transform)

section Rounds

variable (hacc : Accepts robot model) (rotation : Axis → Angle → M)
  (hangles : angles.length = model.jointCount)

include hacc

omit [Monoid M] in
theorem Accepts.jointCount_eq : model.jointCount = robot.joints.countP UrdfJoint.active := by
  rw [Model.jointCount, hacc.joints, countP_map]
  calc robot.joints.zipIdx.countP _
      = robot.joints.zipIdx.countP (UrdfJoint.active ∘ Prod.fst) := by
        refine countP_congr fun entry _ => ?_
        simp only [Function.comp_apply, UrdfJoint.toDef]
        split <;> simp_all
    _ = robot.joints.countP UrdfJoint.active := by rw [← countP_map, zipIdx_map_fst]

include hangles in
theorem Accepts.childFrame_eq {joint : UrdfJoint M Axis} {index : ℕ}
    (hm : (joint, index) ∈ robot.joints.zipIdx) (linkToRoot : M) :
    ∃ turned, robot.rotationAt rotation angles joint index = some turned ∧
      model.childFrame rotation angles linkToRoot index =
        some (joint.child, linkToRoot * joint.origin * turned) := by
  have hf := mk_mem_zipIdx_iff_getElem?.mp hm
  have hdef : model.joints[index]? = some (UrdfJoint.toDef robot.joints (joint, index)) := by
    rw [hacc.joints, getElem?_map, getElem?_zipIdx, hf, zero_add]
    rfl
  rw [Robot.rotationAt, Model.childFrame, hdef]
  by_cases hact : joint.active = true
  · have hlt : (robot.joints.take index).countP UrdfJoint.active < angles.length := by
      have hsp : robot.joints.countP UrdfJoint.active =
          (robot.joints.take index).countP UrdfJoint.active +
            (robot.joints.drop index).countP UrdfJoint.active := by
        rw [← countP_append, take_append_drop]
      have hpos : 0 < (robot.joints.drop index).countP UrdfJoint.active := by
        refine countP_pos_iff.mpr ⟨joint, ?_, hact⟩
        have hdrop : (robot.joints.drop index)[0]? = some joint := by
          rw [getElem?_drop, add_zero, hf]
        exact mem_of_getElem? hdrop
      rw [hangles, hacc.jointCount_eq]
      omega
    rw [if_pos hact, getElem?_eq_getElem hlt]
    refine ⟨_, rfl, ?_⟩
    simp [UrdfJoint.toDef, hact, getElem?_eq_getElem hlt]
  · rw [if_neg hact]
    refine ⟨1, rfl, ?_⟩
    simp [UrdfJoint.toDef, hact]

include hangles

theorem Accepts.pushed (parent : String × M) : ∃ pushed, (model.childrenOf[parent.1]?.getD []).mapM
        (model.childFrame rotation angles parent.2) = some pushed ∧
      pushed.map Prod.fst = robot.childLinks parent.1 ∧
      ∀ frame ∈ pushed, robot.Child rotation angles parent frame := by
  have hents : ∀ entries : List (UrdfJoint M Axis × ℕ),
      (∀ entry ∈ entries, entry ∈ robot.joints.zipIdx ∧ entry.1.parent = parent.1) →
      ∃ pushed, (entries.map Prod.snd).mapM (model.childFrame rotation angles parent.2) =
          some pushed ∧
        pushed.map Prod.fst = (entries.map Prod.fst).map UrdfJoint.child ∧
        ∀ frame ∈ pushed, robot.Child rotation angles parent frame := by
    intro entries hm
    induction entries with
    | nil => exact ⟨[], rfl, rfl, fun frame hfrm => by cases hfrm⟩
    | cons entry entries ih =>
      obtain ⟨⟨hent, hpar⟩, hrest⟩ := forall_mem_cons.mp hm
      obtain ⟨pushed, hpus, hnms, hframes⟩ := ih hrest
      obtain ⟨turned, htur, hchi⟩ := hacc.childFrame_eq rotation hangles hent parent.2
      refine ⟨(entry.1.child, parent.2 * entry.1.origin * turned) :: pushed, ?_,
        by rw [map_cons, hnms]; rfl,
        forall_mem_cons.mpr ⟨⟨entry.1, entry.2, turned, hent, hpar, htur, rfl⟩, hframes⟩⟩
      rw [map_cons, mapM_cons, hchi, hpus]
      rfl
  obtain ⟨pushed, hpus, hnms, hframes⟩ := hents
    (robot.joints.zipIdx.filter fun entry => entry.1.parent = parent.1)
    fun entry hm => by simpa using hm
  refine ⟨pushed, by rw [hacc.childrenOf]; exact hpus, ?_, hframes⟩
  calc pushed.map Prod.fst
      = ((robot.joints.zipIdx.map Prod.fst).filter fun joint => joint.parent = parent.1).map
          UrdfJoint.child := by rw [hnms, filter_map]; rfl
    _ = robot.childLinks parent.1 := by rw [zipIdx_map_fst, Robot.childLinks]

theorem Accepts.walk_cons {frame : String × M} {link : LinkDef Color}
    (hlink : model.links[frame.1]? = some link) :
    ∃ pushed, pushed.map Prod.fst = robot.childLinks frame.1 ∧
      (∀ child ∈ pushed, robot.Child rotation angles frame child) ∧
      ∀ fuel rest, model.walk rotation angles (fuel + 1) (frame :: rest) =
        (model.walk rotation angles fuel (pushed ++ rest)).map
          (⟨frame.1, link.meshPath, link.colorRgba, frame.2⟩ :: ·) := by
  obtain ⟨pushed, hpus, hnms, hframes⟩ := hacc.pushed rotation hangles frame
  refine ⟨pushed, hnms, hframes, fun fuel rest => ?_⟩
  rw [Model.walk, hlink]
  simp only [Option.bind_eq_bind, Option.bind_some, hpus]
  cases model.walk rotation angles fuel (pushed ++ rest) <;> rfl

end Rounds

/-- A walk that ends, from a stack. -/
inductive Robot.Walked (rotation : Axis → Angle → M) (robot : Robot M Axis Color)
    (angles : List Angle) : List (String × M) → List (LinkTransform M Color) → Prop where
  | done : Robot.Walked rotation robot angles [] []
  | next {pushed rest : List (String × M)} {emitted : LinkTransform M Color}
      {out : List (LinkTransform M Color)}
      (hnames : pushed.map Prod.fst = robot.childLinks emitted.linkName)
      (hframes : ∀ child ∈ pushed, robot.Child rotation angles emitted.frame child)
      (hwalked : Robot.Walked rotation robot angles (pushed ++ rest) out) :
      Robot.Walked rotation robot angles (emitted.frame :: rest) (emitted :: out)

theorem Accepts.walked (hacc : Accepts robot model) (hangles : angles.length = model.jointCount)
    {fuel : ℕ} (hwalk : model.walk rotation angles fuel stack = some out) :
    robot.Walked rotation angles stack out := by
  induction fuel generalizing stack out with
  | zero =>
    cases stack with
    | nil =>
      cases hwalk
      exact .done
    | cons frame rest => cases hwalk
  | succ fuel ih =>
    cases stack with
    | nil =>
      cases hwalk
      exact .done
    | cons frame rest =>
      cases hlink : model.links[frame.1]? with
      | none =>
        rw [Model.walk, hlink] at hwalk
        cases hwalk
      | some link =>
        obtain ⟨pushed, hnms, hframes, hcons⟩ := hacc.walk_cons rotation hangles hlink
        rw [hcons, Option.map_eq_some_iff] at hwalk
        obtain ⟨out, hout, rfl⟩ := hwalk
        let emitted : LinkTransform M Color := ⟨frame.1, link.meshPath, link.colorRgba, frame.2⟩
        exact @Robot.Walked.next _ _ _ _ _ _ _ _ pushed rest emitted out hnms hframes (ih hout)

theorem Robot.Walked.grown {root : String} {before : List (String × M)}
    (hwalked : robot.Walked rotation angles stack out)
    (hgro : robot.Grown rotation angles root before)
    (hhead : ∀ frame ∈ stack.head?, robot.Attached rotation angles root before frame)
    (htail : ∀ frame ∈ stack.tail, ∃ parent ∈ before, robot.Child rotation angles parent frame) :
    robot.Grown rotation angles root (before ++ out.map LinkTransform.frame) := by
  induction hwalked generalizing before with
  | done => rwa [map_nil, append_nil]
  | @next pushed rest emitted out _ hframes _ ih =>
    have hchi : ∀ frame ∈ pushed ++ rest, ∃ parent ∈ before ++ [emitted.frame],
        robot.Child rotation angles parent frame := by
      intro frame hm
      rcases mem_append.mp hm with hm | hm
      · exact ⟨_, mem_append_right _ mem_cons_self, hframes frame hm⟩
      · obtain ⟨parent, hpar, hchi⟩ := htail frame hm
        exact ⟨parent, mem_append_left _ hpar, hchi⟩
    have hn := ih (.concat before emitted.frame hgro (hhead _ rfl))
      (fun frame hfrm => .inr (hchi frame (mem_of_mem_head? hfrm)))
      (fun frame hfrm => hchi frame (mem_of_mem_tail hfrm))
    rwa [append_assoc] at hn

theorem Robot.Walked.perm (hwalked : robot.Walked rotation angles stack out) :
    (out.map LinkTransform.linkName).Perm
      (stack.map Prod.fst ++ (out.map LinkTransform.linkName).flatMap robot.childLinks) := by
  induction hwalked with
  | done => exact Perm.refl []
  | next hnms _ _ ih =>
    rw [map_append, hnms, append_assoc] at ih
    exact (ih.trans (perm_append_comm_assoc ..)).cons _

omit [Monoid M] in
theorem Robot.nodup_flatMap (hnd : (robot.joints.map UrdfJoint.child).Nodup)
    {names : List String} (hnms : names.Nodup) : (names.flatMap robot.childLinks).Nodup := by
  refine List.nodup_flatMap.mpr ⟨fun name _ => ?_, hnms.imp fun {left right} hne => ?_⟩
  · exact (filter_sublist.map _).nodup hnd
  · rintro child hleft hrgt
    obtain ⟨joint, hjoi, rfl⟩ := mem_map.mp hleft
    obtain ⟨other, ho, heq⟩ := mem_map.mp hrgt
    rw [mem_filter, decide_eq_true_eq] at hjoi ho
    obtain rfl := inj_on_of_nodup_map hnd ho.1 hjoi.1 heq
    exact hne (hjoi.2.symm.trans ho.2)

omit [Monoid M] in
theorem Robot.nodup_child {names : List String}
    (hflat : (names.flatMap robot.childLinks).Nodup)
    (hprn : ∀ joint ∈ robot.joints, joint.parent ∈ names) :
    (robot.joints.map UrdfJoint.child).Nodup := by
  obtain ⟨heach, hdis⟩ := List.nodup_flatMap.mp hflat
  have hm {joint : UrdfJoint M Axis} (hjoi : joint ∈ robot.joints) :
      joint.child ∈ robot.childLinks joint.parent :=
    mem_map_of_mem (mem_filter.mpr ⟨hjoi, decide_eq_true rfl⟩)
  refine pairwise_map.mpr (pairwise_iff_forall_sublist.mpr fun {first second} hsub => ?_)
  have hfst : first ∈ robot.joints := hsub.subset mem_cons_self
  have hsec : second ∈ robot.joints := hsub.subset (mem_cons_of_mem _ mem_cons_self)
  by_cases hpar : first.parent = second.parent
  · have hpair := (hsub.filter fun joint => joint.parent = second.parent).map UrdfJoint.child
    rw [filter_eq_self.mpr (by simp [hpar])] at hpair
    have hnd := hpair.nodup (heach _ (hprn second hsec))
    simpa using hnd
  · intro heq
    have hsymm : Std.Symm (Function.onFun Disjoint robot.childLinks) := ⟨fun _ _ hapt => hapt.symm⟩
    exact hdis.forall (hprn first hfst) (hprn second hsec) hpar
      (hm hfst) (heq ▸ hm hsec)

omit [Monoid M] in
theorem Accepts.mem_declared (hacc : Accepts robot model) {names : List String}
    {name : String} (hm : name ∈ model.rootLink :: names.flatMap robot.childLinks) :
    name ∈ robot.links.map UrdfLink.name := by
  rcases mem_cons.mp hm with rfl | hm
  · exact hacc.root_mem
  · obtain ⟨parent, -, hchi⟩ := mem_flatMap.mp hm
    obtain ⟨joint, hjoi, rfl⟩ := mem_map.mp hchi
    exact (hacc.declared joint (mem_of_mem_filter hjoi)).2

theorem Accepts.walk_ends (hacc : Accepts robot model) (rotation : Axis → Angle → M)
    (hangles : angles.length = model.jointCount)
    (hnd : (robot.joints.map UrdfJoint.child).Nodup) (fuel : ℕ) (seen : List String)
    (stack : List (String × M)) (hseen : (seen ++ stack.map Prod.fst).Nodup)
    (hperm : (seen ++ stack.map Prod.fst).Perm (model.rootLink :: seen.flatMap robot.childLinks))
    (hfuel : (robot.links.map UrdfLink.name).length ≤ seen.length + fuel) :
    ∃ out, model.walk rotation angles fuel stack = some out ∧
      (seen ++ out.map LinkTransform.linkName).Nodup := by
  induction fuel generalizing seen stack with
  | zero =>
    cases stack with
    | nil => exact ⟨[], rfl, hseen⟩
    | cons frame rest =>
      have hdec : ∀ name ∈ seen ++ (frame :: rest).map Prod.fst,
          name ∈ robot.links.map UrdfLink.name :=
        fun name hm => hacc.mem_declared (hperm.subset hm)
      have hlen := (hseen.subperm hdec).length_le
      simp only [length_append, map_cons, length_cons] at hlen hfuel
      omega
  | succ fuel ih =>
    cases stack with
    | nil => exact ⟨[], rfl, hseen⟩
    | cons frame rest =>
      have hf : model.links.contains frame.1 = true := (hacc.links _).mpr
          (hacc.mem_declared (hperm.subset (mem_append_right _ mem_cons_self)))
      rw [ExtTreeMap.contains_eq_isSome_getElem?, Option.isSome_iff_exists] at hf
      obtain ⟨link, hlink⟩ := hf
      obtain ⟨pushed, hnms, -, hcons⟩ := hacc.walk_cons rotation hangles hlink
      have hsp : seen ++ (frame :: rest).map Prod.fst =
          (seen ++ [frame.1]) ++ rest.map Prod.fst := by simp
      have hperm' : ((seen ++ [frame.1]) ++ (pushed ++ rest).map Prod.fst).Perm
          (model.rootLink :: (seen ++ [frame.1]).flatMap robot.childLinks) := by
        rw [map_append, hnms, flatMap_append, flatMap_singleton, ← cons_append]
        refine Perm.trans ?_ (hperm.append_right _)
        rw [hsp, append_assoc (seen ++ [frame.1])]
        exact perm_append_comm.append_left _
      have hseen' : (seen ++ [frame.1]).Nodup := (hsp ▸ hseen).sublist (sublist_append_left ..)
      have hroot : model.rootLink ∉ (seen ++ [frame.1]).flatMap robot.childLinks := by
        intro hm
        obtain ⟨parent, -, hchi⟩ := mem_flatMap.mp hm
        exact hacc.root_not_child ((filter_sublist.map _).subset hchi)
      obtain ⟨out, hout, hnod⟩ := ih _ _ (hperm'.nodup_iff.mpr
        (nodup_cons.mpr ⟨hroot, Robot.nodup_flatMap hnd hseen'⟩)) hperm'
        (by rw [length_append, length_singleton]; omega)
      refine ⟨_, by rw [hcons, hout]; rfl, ?_⟩
      rwa [append_assoc] at hnod

theorem Robot.Grown.reaches {root : String} {frames : List (String × M)}
    (hgro : robot.Grown rotation angles root frames) :
    ∀ frame ∈ frames, robot.Reaches root frame.1 := by
  induction hgro with
  | nil => exact fun frame hm => by cases hm
  | concat before frame _ hatt ih =>
    intro other hm
    rcases mem_append.mp hm with hm | hm
    · exact ih other hm
    · rw [mem_singleton.mp hm]
      rcases hatt with ⟨-, rfl⟩ | ⟨parent, hpar, joint, index, _, hjoi, heq, -, rfl⟩
      · exact .refl
      · have hf := mem_of_getElem? (mk_mem_zipIdx_iff_getElem?.mp hjoi)
        exact (ih parent hpar).tail ⟨joint, hf, heq, rfl⟩

/-- An accepted robot's links are covered if and only if its joints make a tree. -/
theorem covers_iff (hmodel : Model.fromRobot robot = .ok model)
    (hangles : angles.length = model.jointCount) :
    Covers rotation robot angles model ↔ robot.IsTree model.rootLink := by
  have hacc := fromRobot_accepts hmodel
  constructor
  · rintro ⟨fuel, out, hresolve, hnodup, hnames, hgrown⟩
    rw [Model.resolve, if_pos hangles, Option.map_eq_some_iff] at hresolve
    obtain ⟨_, hwalk, heq⟩ := hresolve
    cases heq
    have hperm := (hacc.walked hangles hwalk).perm
    constructor
    · refine Robot.nodup_child (hperm.nodup_iff.mp hnodup).of_cons fun joint hjoint => ?_
      exact (hnames _).mpr (hacc.declared joint hjoint).1
    · intro link hlink
      obtain ⟨emitted, hemitted, heq⟩ := mem_map.mp ((hnames _).mpr (mem_map_of_mem hlink))
      rw [← heq]
      exact hgrown.reaches _ (mem_map_of_mem hemitted)
  · intro htree
    obtain ⟨out, hwalk, hnodup⟩ := hacc.walk_ends rotation hangles htree.nodup
      (robot.links.map UrdfLink.name).length [] [(model.rootLink, 1)]
      (nodup_singleton _) (Perm.refl _) (Nat.le_add_left ..)
    have hperm := (hacc.walked hangles hwalk).perm
    have hreached {name : String} (hreaches : robot.Reaches model.rootLink name) :
        name ∈ out.map LinkTransform.linkName := by
      induction hreaches with
      | refl => exact hperm.mem_iff.mpr mem_cons_self
      | tail _ hjoint ih =>
        obtain ⟨joint, hmem, rfl, rfl⟩ := hjoint
        refine hperm.mem_iff.mpr (mem_cons_of_mem _ (mem_flatMap.mpr ⟨_, ih, ?_⟩))
        exact mem_map_of_mem (mem_filter.mpr ⟨hmem, decide_eq_true rfl⟩)
    refine ⟨(robot.links.map UrdfLink.name).length, out, ?_, hnodup,
      fun name => ⟨fun hmem => ?_, fun hmem => ?_⟩, ?_⟩
    · rw [Model.resolve, if_pos hangles, hwalk]
      rfl
    · exact hacc.mem_declared (hperm.subset hmem)
    · obtain ⟨link, hlink, rfl⟩ := mem_map.mp hmem
      exact hreached (htree.reaches link hlink)
    · refine (hacc.walked hangles hwalk).grown .nil (fun frame hframe => .inl ⟨rfl, ?_⟩)
        fun frame hframe => by cases hframe
      exact (Option.some.inj hframe).symm

/-- An arm of an active joint and a fixed one. -/
def chainRobot : Robot ℕ Unit Unit where
  links := [⟨"hand", []⟩, ⟨"arm", []⟩, ⟨"base", []⟩]
  joints := [⟨"wrist", .fixed, "arm", "hand", 3, ()⟩, ⟨"shoulder", .revolute, "base", "arm", 2, ()⟩]

theorem covers_iff_chain : ∃ model, Model.fromRobot chainRobot = .ok model ∧
    (Covers (fun _ (angle : ℕ) => angle) chainRobot [5] model ↔
      chainRobot.IsTree model.rootLink) := by
  have hok : Except.isOk (Model.fromRobot chainRobot) = true := by decide +kernel
  obtain ⟨model, hmodel⟩ := Checks.isOk_iff.mp hok
  exact ⟨model, hmodel, covers_iff hmodel (fromRobot_accepts hmodel).jointCount_eq.symm⟩

/-- A root, and two links that are each other's children. -/
def loopRobot : Robot ℕ Unit Unit where
  links := [⟨"base", []⟩, ⟨"left", []⟩, ⟨"right", []⟩]
  joints := [⟨"there", .fixed, "left", "right", 1, ()⟩, ⟨"back", .fixed, "right", "left", 1, ()⟩]

/-- The links of the loop are never reached. -/
theorem loop_not_covered : ∃ model, Model.fromRobot loopRobot = .ok model ∧
    model.rootLink = "base" ∧ model.jointCount = 0 ∧
    ¬ Covers (fun _ (angle : ℕ) => angle) loopRobot [] model := by
  have hroot : (Model.fromRobot loopRobot).toOption.map Model.rootLink = some "base" := by
    decide +kernel
  cases hmodel : Model.fromRobot loopRobot with
  | error error =>
    rw [hmodel] at hroot
    cases hroot
  | ok model =>
    rw [hmodel] at hroot
    have hbase : model.rootLink = "base" := Option.some.inj hroot
    refine ⟨model, rfl, hbase, (fromRobot_accepts hmodel).jointCount_eq, ?_⟩
    rintro ⟨fuel, out, -, -, hnames, hgrown⟩
    have hleft : "left" ∈ out.map LinkTransform.linkName := (hnames _).mpr (by decide)
    obtain ⟨emitted, hemitted, heq⟩ := mem_map.mp hleft
    have hreaches := hgrown.reaches _ (mem_map_of_mem hemitted)
    rw [heq, hbase] at hreaches
    have hstays : ∀ {name : String}, loopRobot.Reaches "base" name → name = "base" := by
      intro name hreaches
      induction hreaches with
      | refl => rfl
      | tail _ hjoint ih =>
        obtain ⟨joint, hmem, hparent, -⟩ := hjoint
        have hnone : ∀ joint ∈ loopRobot.joints, joint.parent ≠ "base" := by decide
        exact absurd (hparent.trans ih) (hnone joint hmem)
    exact absurd (hstays hreaches : "left" = "base") (by decide)

end Walk

end AukiSdk.Urdf
