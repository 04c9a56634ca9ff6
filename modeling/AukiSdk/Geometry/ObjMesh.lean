import AukiSdk.Foundation.Ensures
import AukiSdk.Foundation.Text

/-!
# Meshes from OBJ text

`parse_obj` over the lines of a text, and what its meshes are of the lines.
-/

namespace AukiSdk.Geometry.Obj

open AukiSdk.Foundation List

/-- `char::is_whitespace`. -/
def isWhitespace (char : Char) : Bool :=
  let code := char.toNat
  (0x9 ≤ code && code ≤ 0xd) || code ∈ [0x20, 0x85, 0xa0, 0x1680] ||
    (0x2000 ≤ code && code ≤ 0x200a) || code ∈ [0x2028, 0x2029, 0x202f, 0x205f, 0x3000]

/-- `str::lines`. -/
def textLines (text : List Char) : List (List Char) :=
  let pieces := text.splitOn '\n'
  (pieces.dropLast.map fun piece =>
    if piece.getLast? = some '\r' then piece.dropLast else piece) ++
      pieces.getLast?.toList.filter (· ≠ [])

/-- The parts of a trimmed line; none for an empty line or a comment. -/
def lineParts (raw : List Char) : List (List Char) :=
  if (raw.dropWhile isWhitespace).head? = some '#' then []
  else (raw.splitOnP isWhitespace).filter (· ≠ [])

/-- The errors of `parse_obj`, and the panic of its arithmetic. -/
inductive ParseFailure where
  | objParse (lineNo : ℕ) (reason : String)
  | emptyMesh
  | overflow
  deriving DecidableEq

/-- `i32::from_str`. -/
def parseI32 (text : List Char) : Option ℤ :=
  let digits := match text with
    | '-' :: rest => rest
    | '+' :: rest => rest
    | _ => text
  (Text.parseNumeral Text.decimalValue 10 digits).bind fun number =>
    let value : ℤ := if text.head? = some '-' then -number else number
    if -2 ^ 31 ≤ value ∧ value < 2 ^ 31 then some value else none

/-- Addition of `i32` values; `none` when it overflows. -/
def addI32 (left right : ℤ) : Option ℤ :=
  if -2 ^ 31 ≤ left + right ∧ left + right < 2 ^ 31 then some (left + right) else none

/-- The index of a face from 1 on, by the casts of the source. -/
def resolveIndex (count : ℕ) (index : ℤ) : Option ℕ :=
  if index < 0 then
    ((addI32 (Int.bmod count (2 ^ 32)) index).bind (addI32 · 1)).map fun sum =>
      (sum % 2 ^ 32).toNat
  else
    some (index % 2 ^ 32).toNat

def faceIndex (lineNo count : ℕ) (token : List Char) : Except ParseFailure ℕ :=
  match parseI32 ((token.splitOn '/').headD token) with
  | none => .error (.objParse lineNo "bad face index")
  | some index =>
    match resolveIndex count index with
    | none => .error .overflow
    | some resolved =>
      if resolved = 0 ∨ resolved > count then
        .error (.objParse lineNo ("face index " ++ toString index ++ " out of range"))
      else
        .ok (resolved - 1)

/-- The range of a group is given by its ends. -/
structure MeshGroup where
  name : List Char
  start : ℕ
  stop : ℕ

structure TriangleMesh (F : Type) where
  vertices : List (F × F × F)
  indices : List (ℕ × ℕ × ℕ)
  groups : List MeshGroup

structure ObjState (F : Type) where
  vertices : List (F × F × F)
  indices : List (ℕ × ℕ × ℕ)
  groups : List MeshGroup
  currentName : List Char
  groupStart : ℕ

variable {F : Type}

/-- The groups after `flush_group`. -/
def ObjState.flushGroup (state : ObjState F) : List MeshGroup :=
  if state.indices.length > state.groupStart then
    state.groups ++ [⟨state.currentName, state.groupStart, state.indices.length⟩]
  else
    state.groups

/-- The triangles `[face[0], face[i], face[i + 1]]`. -/
def fan (face : List ℕ) : List (ℕ × ℕ × ℕ) :=
  (range (face.length - 2)).map fun i => (face.getD 0 0, face.getD (i + 1) 0, face.getD (i + 2) 0)

variable (parseF32 : List Char → Option F)

/-- One turn of the loop of `parse_obj`. -/
def parseLine (lineNo : ℕ) (state : ObjState F) :
    List (List Char) → Except ParseFailure (ObjState F)
  | [] => .ok state
  | tag :: parts =>
    if tag = ['v'] then
      (parts.take 3).mapM (fun part =>
          (parseF32 part).elim (.error (.objParse lineNo "bad vertex float")) .ok) >>= fun nums =>
        match nums with
        | [x, y, z] => .ok { state with vertices := state.vertices ++ [(x, y, z)] }
        | _ => .error (.objParse lineNo "vertex needs 3 components")
    else if tag = ['o'] ∨ tag = ['g'] then
      .ok { state with
        groups := state.flushGroup
        currentName := parts.head?.getD "unnamed".toList
        groupStart := state.indices.length }
    else if tag = ['f'] then
      parts.mapM (faceIndex lineNo state.vertices.length) >>= fun face =>
        if face.length < 3 then .error (.objParse lineNo "face needs ≥3 indices")
        else .ok { state with indices := state.indices ++ fan face }
    else
      .ok state

def parseLines : ℕ → ObjState F → List (List (List Char)) → Except ParseFailure (ObjState F)
  | _, state, [] => .ok state
  | lineNo, state, line :: rest =>
    parseLine parseF32 lineNo state line >>= fun state => parseLines (lineNo + 1) state rest

/-- The lines that `parse_obj` reads, in parts. -/
def objLines (text : List Char) : List (List (List Char)) := (textLines text).map lineParts

def parseObj (text : List Char) : Except ParseFailure (TriangleMesh F) :=
  parseLines parseF32 1 ⟨[], [], [], "default".toList, 0⟩ (objLines text) >>= fun state =>
    if state.vertices.isEmpty || state.indices.isEmpty then .error .emptyMesh
    else .ok ⟨state.vertices, state.indices, state.flushGroup⟩

/-- `TriangleMesh::from_indexed`, as its success. -/
def fromIndexed (mesh : TriangleMesh F) : Bool :=
  !mesh.vertices.isEmpty && !mesh.indices.isEmpty && mesh.indices.all fun (a, b, c) =>
    a < mesh.vertices.length && b < mesh.vertices.length && c < mesh.vertices.length

variable (mesh : TriangleMesh F)

/-- The corners of one triangle; `none` is an index out of bounds. -/
def TriangleMesh.corners (triangle : ℕ × ℕ × ℕ) :
    Option ((F × F × F) × (F × F × F) × (F × F × F)) := do
  some (← mesh.vertices[triangle.1]?, ← mesh.vertices[triangle.2.1]?,
    ← mesh.vertices[triangle.2.2]?)

def TriangleMesh.triangles : Option (List ((F × F × F) × (F × F × F) × (F × F × F))) :=
  mesh.indices.mapM mesh.corners

/-- `group_vertices`, with the check of the slice. -/
def TriangleMesh.groupVertices (group : MeshGroup) : Option (List (F × F × F)) :=
  if group.start ≤ group.stop ∧ group.stop ≤ mesh.indices.length then
    (((mesh.indices.take group.stop).drop group.start).mapM mesh.corners).map fun triangles =>
      triangles.flatMap fun (a, b, c) => [a, b, c]
  else
    none

def TriangleMesh.raycast {Hit : Type}
    (rayTriangle : (F × F × F) × (F × F × F) × (F × F × F) → Option Hit)
    (sort : List Hit → List Hit) : Option (List Hit) :=
  mesh.triangles.map fun triangles => sort (triangles.filterMap rayTriangle)

/-- The vertex of a vertex line. -/
def vertexOf : List (List Char) → Option (F × F × F)
  | ['v'] :: x :: y :: z :: _ => do some (← parseF32 x, ← parseF32 y, ← parseF32 z)
  | _ => none

def vertexCount (lines : List (List (List Char))) : ℕ := lines.countP (·.head? = some ['v'])

/-- The `k`-th vertex for `k`, the `k`-th last one for `-k`. -/
def denoted (count : ℕ) (token : List Char) : Option ℕ :=
  (parseI32 ((token.splitOn '/').headD token)).bind fun index =>
    if 0 < index ∧ index.natAbs ≤ count then some (index.natAbs - 1)
    else if index < 0 ∧ index.natAbs ≤ count then some (count - index.natAbs)
    else none

/-- Every line with the lines before it. -/
def histories {A : Type} : List A → List A → List (List A × A)
  | _, [] => []
  | before, line :: rest => (before, line) :: histories (before ++ [line]) rest

/-- The vertices of a face line. -/
def faceOf (before : List (List (List Char))) (line : List (List Char)) : Option (List ℕ) :=
  if line.head? = some ['f'] then line.tail.mapM (denoted (vertexCount before)) else none

/-- The fan of a line. -/
def trianglesOf (entry : List (List (List Char)) × List (List Char)) : List (ℕ × ℕ × ℕ) :=
  fan ((faceOf entry.1 entry.2).getD [])

/-- The name of the last group line. -/
def lastName (before : List (List (List Char))) : List Char :=
  match (before.filter fun line => line.head? = some ['o'] ∨ line.head? = some ['g']).getLast? with
  | none => "default".toList
  | some line => line.tail.head?.getD "unnamed".toList

/-- The group name of every triangle. -/
def names (lines : List (List (List Char))) : List (List Char) :=
  (histories [] lines).flatMap fun entry => (trianglesOf entry).map fun _ => lastName entry.1

/-- Non-empty consecutive ranges from `start` to `stop`. -/
def Covers : ℕ → List MeshGroup → ℕ → Prop
  | start, [], stop => start = stop
  | start, group :: rest, stop =>
    group.start = start ∧ group.start < group.stop ∧ Covers group.stop rest stop

variable {parseF32} {lineNo count : ℕ} {token : List Char} {before rest : List (List (List Char))}
  {line : List (List Char)} {state next : ObjState F}

theorem parseI32_range {index : ℤ} (hprs : parseI32 token = some index) :
    -2 ^ 31 ≤ index ∧ index < 2 ^ 31 := by
  obtain ⟨number, -, hval⟩ := Option.bind_eq_some_iff.mp hprs
  obtain ⟨hin, heq⟩ := Option.ite_none_right_eq_some.mp hval
  rwa [← Option.some.inj heq]

/-- The casts of an index do not wrap into the vertices. -/
theorem resolveIndex_spec {index : ℤ} (hfew : count < 2 ^ 31 - 1)
    (hin : -2 ^ 31 ≤ index ∧ index < 2 ^ 31) :
    ∃ resolved, resolveIndex count index = some resolved ∧
      (resolved ≠ 0 → resolved ≤ count →
        0 < index ∧ index.natAbs ≤ count ∧ resolved = index.natAbs ∨
        index < 0 ∧ index.natAbs ≤ count ∧ resolved = count - index.natAbs + 1) := by
  have hmod : Int.bmod count (2 ^ 32) = count := Int.bmod_eq_of_le (by omega) (by omega)
  by_cases hneg : index < 0
  · refine ⟨((count + index + 1) % 2 ^ 32).toNat, ?_, fun hne hle => ?_⟩
    · rw [resolveIndex, if_pos hneg, hmod, addI32, if_pos (by omega), Option.bind_some, addI32,
        if_pos (by omega), Option.map_some]
    · omega
  · exact ⟨(index % 2 ^ 32).toNat, by rw [resolveIndex, if_neg hneg], fun hne hle => by omega⟩

theorem objParse_ne {reason : String} : ParseFailure.objParse lineNo reason ≠ .overflow :=
  nofun

theorem faceIndex_spec (hfew : count < 2 ^ 31 - 1) :
    Ensures .overflow (faceIndex lineNo count token) (denoted count token = some ·) := by
  unfold faceIndex denoted
  cases hprs : parseI32 ((token.splitOn '/').headD token) with
  | none => exact .of_error objParse_ne
  | some index =>
    obtain ⟨resolved, hres, hmeans⟩ := resolveIndex_spec hfew (parseI32_range hprs)
    simp only [hres, Option.bind_some]
    refine .ite (fun _ => .of_error objParse_ne) fun hkept => .of_ok ?_
    rcases hmeans (by omega) (by omega) with ⟨hpos, hle, rfl⟩ | ⟨hneg, hle, rfl⟩
    · rw [if_pos ⟨hpos, hle⟩]
    · rw [if_neg (by omega), if_pos ⟨hneg, hle⟩, Nat.add_sub_cancel]

theorem denoted_lt {value : ℕ} (hden : denoted count token = some value) : value < count := by
  obtain ⟨index, -, hval⟩ := Option.bind_eq_some_iff.mp hden
  split_ifs at hval with hpos hneg
  all_goals
    cases hval
    omega

theorem mapM_faceIndex (hfew : count < 2 ^ 31 - 1) (tokens : List (List Char)) :
    Ensures .overflow (tokens.mapM (faceIndex lineNo count)) fun face =>
      tokens.mapM (denoted count) = some face ∧ ∀ value ∈ face, value < count := by
  refine (Ensures.mapM fun token => faceIndex_spec hfew).imp fun face hface => ?_
  induction hface with
  | nil => exact ⟨rfl, nofun⟩
  | cons hval hface ih =>
    refine ⟨?_, forall_mem_cons.mpr ⟨denoted_lt hval, ih.2⟩⟩
    rw [mapM_cons, hval, ih.1]
    rfl

theorem mem_fan {face : List ℕ} {triangle : ℕ × ℕ × ℕ} (hm : triangle ∈ fan face)
    (hface : ∀ value ∈ face, value < count) :
    triangle.1 < count ∧ triangle.2.1 < count ∧ triangle.2.2 < count := by
  obtain ⟨i, hi, rfl⟩ := mem_map.mp hm
  have hlt := mem_range.mp hi
  have hget (j : ℕ) (hj : j < face.length) : face.getD j 0 < count := by
    rw [getD_eq_getElem face 0 hj]
    exact hface _ (getElem_mem hj)
  exact ⟨hget 0 (by omega), hget (i + 1) (by omega), hget (i + 2) (by omega)⟩

/-- What the state of the loop is of the lines it has read. -/
structure Parsed (parseF32 : List Char → Option F) (before : List (List (List Char)))
    (state : ObjState F) : Prop where
  vertices : state.vertices = before.filterMap (vertexOf parseF32)
  count : state.vertices.length = vertexCount before
  faces : ∀ entry ∈ histories [] before, entry.2.head? = some ['f'] →
    ∃ face, faceOf entry.1 entry.2 = some face ∧ 3 ≤ face.length ∧
      ∀ value ∈ face, value < vertexCount entry.1
  indices : state.indices = (histories [] before).flatMap trianglesOf
  bounded : ∀ triangle ∈ state.indices, triangle.1 < state.vertices.length ∧
    triangle.2.1 < state.vertices.length ∧ triangle.2.2 < state.vertices.length
  name : state.currentName = lastName before
  covers : Covers 0 state.groups state.groupStart
  started : state.groupStart ≤ state.indices.length
  named : ∀ group ∈ state.groups, ∀ i, group.start ≤ i → i < group.stop →
    (names before)[i]? = some group.name
  pending : ∀ i, state.groupStart ≤ i → i < state.indices.length →
    (names before)[i]? = some state.currentName

theorem histories_concat {A : Type} (before lines : List A) (line : A) :
    histories before (lines ++ [line]) = histories before lines ++ [(before ++ lines, line)] := by
  induction lines generalizing before with
  | nil => simp [histories]
  | cons head tail ih => simp [histories, ih]

theorem names_concat : names (before ++ [line]) =
    names before ++ (trianglesOf (before, line)).map fun _ => lastName before := by
  simp [names, histories_concat]

theorem length_names (lines : List (List (List Char))) :
    (names lines).length = ((histories [] lines).flatMap trianglesOf).length := by
  simp [names, length_flatMap]

theorem getElem?_append_of_some {A : Type} {left right : List A} {i : ℕ} {entry : A}
    (hsome : left[i]? = some entry) : (left ++ right)[i]? = some entry := by
  rw [getElem?_append_left (List.getElem?_eq_some_iff.mp hsome).1, hsome]

theorem covers_concat {groups : List MeshGroup} {start middle : ℕ} {group : MeshGroup}
    (hcov : Covers start groups middle) (hbeg : group.start = middle)
    (hlt : group.start < group.stop) : Covers start (groups ++ [group]) group.stop := by
  induction groups generalizing start with
  | nil => exact ⟨hbeg.trans hcov.symm, hlt, rfl⟩
  | cons head tail ih => exact ⟨hcov.1, hcov.2.1, ih hcov.2.2⟩

theorem Parsed.flush (hparsed : Parsed parseF32 before state) :
    Covers 0 state.flushGroup state.indices.length ∧
      ∀ group ∈ state.flushGroup, ∀ i, group.start ≤ i → i < group.stop →
        (names before)[i]? = some group.name := by
  unfold ObjState.flushGroup
  split
  next hlt =>
    refine ⟨@covers_concat _ 0 _ ⟨_, _, _⟩ hparsed.covers rfl hlt, ?_⟩
    intro group hm
    cases mem_append.mp hm with
    | inl hm => exact hparsed.named group hm
    | inr hm =>
      rw [mem_singleton.mp hm]
      exact hparsed.pending
  next hge =>
    have hsm : state.groupStart = state.indices.length :=
      Nat.le_antisymm hparsed.started (Nat.le_of_not_lt hge)
    exact ⟨hsm ▸ hparsed.covers, hparsed.named⟩

theorem trianglesOf_of_ne (hno : line.head? ≠ some ['f']) : trianglesOf (before, line) = [] := by
  simp [trianglesOf, faceOf, hno, fan]

theorem vertexOf_of_ne (hno : line.head? ≠ some ['v']) : vertexOf parseF32 line = none := by
  unfold vertexOf
  split
  · exact absurd rfl hno
  · rfl

theorem vertexCount_concat : vertexCount (before ++ [line]) =
    vertexCount before + if line.head? = some ['v'] then 1 else 0 := by
  simp [vertexCount, countP_append, countP_cons]

theorem lastName_concat : lastName (before ++ [line]) =
    if line.head? = some ['o'] ∨ line.head? = some ['g'] then line.tail.head?.getD "unnamed".toList
    else lastName before := by
  by_cases hgroup : line.head? = some ['o'] ∨ line.head? = some ['g']
  · simp [lastName, filter_append, hgroup]
  · simp [lastName, filter_append, hgroup]

/-- A line that names no group adds its vertex and its triangles. -/
theorem Parsed.advance (hparsed : Parsed parseF32 before state)
    (hno : ¬ (line.head? = some ['o'] ∨ line.head? = some ['g']))
    (hcount : (vertexOf parseF32 line).toList.length = if line.head? = some ['v'] then 1 else 0)
    (hface : line.head? = some ['f'] → ∃ face, faceOf before line = some face ∧ 3 ≤ face.length ∧
      ∀ value ∈ face, value < state.vertices.length) :
    Parsed parseF32 (before ++ [line]) { state with
      vertices := state.vertices ++ (vertexOf parseF32 line).toList
      indices := state.indices ++ trianglesOf (before, line) } where
  vertices := by
    rw [hparsed.vertices, filterMap_append]
    cases hvertex : vertexOf parseF32 line <;> simp [hvertex]
  count := by rw [length_append, hparsed.count, hcount, vertexCount_concat]
  faces := by
    rw [histories_concat]
    intro entry hmem hhead
    cases mem_append.mp hmem with
    | inl hmem => exact hparsed.faces entry hmem hhead
    | inr hmem =>
      rw [mem_singleton.mp hmem] at hhead ⊢
      exact hparsed.count ▸ hface hhead
  indices := by simp [hparsed.indices, histories_concat]
  bounded := by
    intro triangle hmem
    have hall : triangle.1 < state.vertices.length ∧ triangle.2.1 < state.vertices.length ∧
        triangle.2.2 < state.vertices.length := by
      cases mem_append.mp hmem with
      | inl hmem => exact hparsed.bounded triangle hmem
      | inr hmem =>
        by_cases hhead : line.head? = some ['f']
        · obtain ⟨face, hsome, -, hlt⟩ := hface hhead
          rw [trianglesOf, hsome] at hmem
          exact mem_fan hmem hlt
        · rw [trianglesOf_of_ne hhead] at hmem
          cases hmem
    simp only [length_append]
    omega
  name := by rw [lastName_concat, if_neg hno, ← hparsed.name]
  covers := hparsed.covers
  started := hparsed.started.trans (by simp)
  named := by
    intro group hmem i hle hlt
    rw [names_concat]
    exact getElem?_append_of_some (hparsed.named group hmem i hle hlt)
  pending := by
    intro i hle hlt
    rw [names_concat]
    by_cases hold : i < state.indices.length
    · exact getElem?_append_of_some (hparsed.pending i hle hold)
    · have hlen : (names before).length = state.indices.length := by
        rw [length_names, ← hparsed.indices]
      simp only [length_append] at hlt
      rw [getElem?_append_right (by omega), getElem?_map, getElem?_eq_getElem (by omega),
        ← hparsed.name]
      rfl

theorem Parsed.group (hparsed : Parsed parseF32 before state)
    (hgroup : line.head? = some ['o'] ∨ line.head? = some ['g']) :
    Parsed parseF32 (before ++ [line]) { state with
      groups := state.flushGroup
      currentName := line.tail.head?.getD "unnamed".toList
      groupStart := state.indices.length } := by
  have hface : line.head? ≠ some ['f'] := by rcases hgroup with heq | heq <;> simp [heq]
  have hvertex : line.head? ≠ some ['v'] := by rcases hgroup with heq | heq <;> simp [heq]
  have hnone := @trianglesOf_of_ne before line hface
  have hnames : names (before ++ [line]) = names before := by simp [names_concat, hnone]
  obtain ⟨hcov, hnamed⟩ := hparsed.flush
  refine ⟨?_, ?_, ?_, ?_, hparsed.bounded, ?_, hcov, le_rfl, hnames ▸ hnamed, ?_⟩
  · simp [hparsed.vertices, vertexOf_of_ne hvertex]
  · simp [vertexCount_concat, hvertex, hparsed.count]
  · rw [histories_concat]
    intro entry hmem hhead
    cases mem_append.mp hmem with
    | inl hmem => exact hparsed.faces entry hmem hhead
    | inr hmem =>
      rw [mem_singleton.mp hmem] at hhead
      exact absurd hhead hface
  · simp [hparsed.indices, histories_concat, hnone]
  · rw [lastName_concat, if_pos hgroup]
  · exact fun i hle hlt => absurd hlt (Nat.not_lt.mpr hle)

theorem Parsed.quiet (hparsed : Parsed parseF32 before state)
    (hno : ¬ (line.head? = some ['o'] ∨ line.head? = some ['g']))
    (hvertex : line.head? ≠ some ['v']) (hface : line.head? ≠ some ['f']) :
    Parsed parseF32 (before ++ [line]) state := by
  have hnone : vertexOf parseF32 line = none := vertexOf_of_ne hvertex
  have hall := hparsed.advance hno (by simp [hnone, hvertex]) fun hhead => absurd hhead hface
  simpa [hnone, trianglesOf_of_ne hface] using hall

theorem parseLine_vertex (parts : List (List Char)) :
    Ensures .overflow (parseLine parseF32 lineNo state (['v'] :: parts)) fun next =>
      ∃ vertex, vertexOf parseF32 (['v'] :: parts) = some vertex ∧
        next = { state with vertices := state.vertices ++ [vertex] } := by
  have hreads : Ensures ParseFailure.overflow ((parts.take 3).mapM fun part =>
      (parseF32 part).elim (.error (.objParse lineNo "bad vertex float")) .ok)
      (Forall₂ (parseF32 · = some ·) (parts.take 3)) := by
    refine .mapM fun part => ?_
    cases parseF32 part with
    | none => exact .of_error objParse_ne
    | some value => exact .of_ok rfl
  rw [parseLine, if_pos rfl]
  refine hreads.bind fun nums hnums => ?_
  split
  · simp only [forall₂_cons_right_iff, forall₂_nil_right_iff] at hnums
    obtain ⟨x, _, hx, ⟨y, _, hy, ⟨z, _, hz, rfl, rfl⟩, rfl⟩, htake⟩ := hnums
    refine .of_ok ⟨_, ?_, rfl⟩
    rw [← take_append_drop 3 parts, htake]
    simp [vertexOf, hx, hy, hz]
  · exact .of_error objParse_ne

theorem parseLine_spec (hparsed : Parsed parseF32 before state)
    (hfew : vertexCount before < 2 ^ 31 - 1) :
    Ensures .overflow (parseLine parseF32 lineNo state line)
      (Parsed parseF32 (before ++ [line])) := by
  cases line with
  | nil => exact .of_ok (hparsed.quiet (by simp) (by simp) (by simp))
  | cons tag parts =>
    by_cases hvertex : tag = ['v']
    · subst hvertex
      refine (parseLine_vertex parts).imp ?_
      rintro next ⟨vertex, hsome, rfl⟩
      have hall := @Parsed.advance F parseF32 before (['v'] :: parts) state hparsed (by simp)
        (by simp [hsome]) (by simp)
      rwa [hsome, trianglesOf_of_ne (by simp), append_nil] at hall
    rw [parseLine, if_neg hvertex]
    refine .ite (fun hgroup => .of_ok (hparsed.group (by simpa using hgroup))) fun hgroup => ?_
    refine .ite (fun hface => ?_) fun hface => .of_ok (hparsed.quiet (by simpa using hgroup)
      (by simpa using hvertex) (by simpa using hface))
    subst hface
    rw [hparsed.count]
    refine (mapM_faceIndex hfew parts).bind fun face ⟨hden, hlt⟩ =>
      .ite (fun _ => .of_error objParse_ne) fun hlong => .of_ok ?_
    have hsome : faceOf before (['f'] :: parts) = some face := hden
    have hnone : vertexOf parseF32 (['f'] :: parts) = none := vertexOf_of_ne (by simp)
    have hall := @Parsed.advance F parseF32 before (['f'] :: parts) state hparsed (by simp)
      (by simp [hnone]) fun _ => ⟨face, hsome, Nat.le_of_not_lt hlong, hparsed.count ▸ hlt⟩
    simpa [hnone, trianglesOf, hsome] using hall

theorem parseLines_spec (hparsed : Parsed parseF32 before state)
    (hfew : vertexCount (before ++ rest) < 2 ^ 31 - 1) :
    Ensures .overflow (parseLines parseF32 lineNo state rest)
      (Parsed parseF32 (before ++ rest)) := by
  induction rest generalizing before state lineNo with
  | nil => exact .of_ok (by rwa [append_nil])
  | cons line rest ih =>
    have hless : vertexCount before ≤ vertexCount (before ++ line :: rest) := by
      simp [vertexCount, countP_append]
    rw [parseLines]
    refine (parseLine_spec hparsed (hless.trans_lt hfew)).bind fun next hn => ?_
    rw [append_cons] at hfew ⊢
    exact ih hn hfew

theorem isSome_mapM {A B : Type} {read : A → Option B} {entries : List A}
    (hall : ∀ entry ∈ entries, (read entry).isSome = true) :
    (entries.mapM read).isSome = true := by
  induction entries with
  | nil => rfl
  | cons entry entries ih =>
    obtain ⟨value, hval⟩ := Option.isSome_iff_exists.mp (hall entry mem_cons_self)
    obtain ⟨values, hvals⟩ := Option.isSome_iff_exists.mp
      (ih fun entry hmem => hall entry (mem_cons_of_mem _ hmem))
    rw [mapM_cons, hval, hvals]
    rfl

theorem covers_stop_le {groups : List MeshGroup} {start stop : ℕ}
    (hcov : Covers start groups stop) :
    start ≤ stop ∧ ∀ group ∈ groups, group.start ≤ group.stop ∧ group.stop ≤ stop := by
  induction groups generalizing start with
  | nil => exact ⟨le_of_eq hcov, nofun⟩
  | cons head tail ih =>
    obtain ⟨rfl, hlt, hrest⟩ := hcov
    obtain ⟨hle, hall⟩ := ih hrest
    exact ⟨hlt.le.trans hle, forall_mem_cons.mpr ⟨⟨hlt.le, hle⟩, hall⟩⟩

/-- `parse_obj` does not overflow, and its meshes are those of the lines. -/
theorem parse_obj_spec (parseF32 : List Char → Option F) (text : List Char)
    (hfew : vertexCount (objLines text) < 2 ^ 31 - 1) :
    parseObj parseF32 text ≠ .error .overflow ∧ ∀ mesh, parseObj parseF32 text = .ok mesh →
      mesh.vertices = (objLines text).filterMap (vertexOf parseF32) ∧
      mesh.vertices.length = vertexCount (objLines text) ∧
      (∀ entry ∈ histories [] (objLines text), entry.2.head? = some ['f'] →
        ∃ face, faceOf entry.1 entry.2 = some face ∧ 3 ≤ face.length ∧
          ∀ value ∈ face, value < vertexCount entry.1) ∧
      mesh.indices = (histories [] (objLines text)).flatMap trianglesOf ∧
      (∀ triangle ∈ mesh.indices, triangle.1 < mesh.vertices.length ∧
        triangle.2.1 < mesh.vertices.length ∧ triangle.2.2 < mesh.vertices.length) ∧
      Covers 0 mesh.groups mesh.indices.length ∧
      (∀ group ∈ mesh.groups, ∀ i, group.start ≤ i → i < group.stop →
        (names (objLines text))[i]? = some group.name) ∧
      fromIndexed mesh = true ∧ mesh.triangles.isSome = true ∧
      (∀ group ∈ mesh.groups, (mesh.groupVertices group).isSome = true) ∧
      ∀ (Hit : Type) rayTriangle (sort : List Hit → List Hit),
        (mesh.raycast rayTriangle sort).isSome = true := by
  have hinit : Parsed parseF32 [] ⟨[], [], [], "default".toList, 0⟩ :=
    ⟨rfl, rfl, nofun, rfl, nofun, rfl, rfl, le_rfl, nofun, nofun⟩
  refine Ensures.spec ?_
  refine (parseLines_spec hinit hfew).bind fun state hparsed =>
    .ite (fun _ => .of_error nofun) fun hfull => .of_ok ?_
  obtain ⟨hcov, hnamed⟩ := hparsed.flush
  have hcorners : ∀ triangle ∈ state.indices, ((TriangleMesh.mk state.vertices state.indices
      state.flushGroup).corners triangle).isSome = true := by
    intro triangle hmem
    obtain ⟨hfst, hsnd, hthird⟩ := hparsed.bounded triangle hmem
    simp [TriangleMesh.corners, hfst, hsnd, hthird]
  have htriangles := isSome_mapM hcorners
  refine ⟨hparsed.vertices, hparsed.count, hparsed.faces, hparsed.indices, hparsed.bounded,
    hcov, hnamed, ?_, htriangles, ?_, ?_⟩
  · simp only [Bool.or_eq_true, not_or] at hfull
    simpa [fromIndexed, hfull, and_assoc] using hparsed.bounded
  · intro group hmem
    rw [TriangleMesh.groupVertices, if_pos ((covers_stop_le hcov).2 group hmem), Option.isSome_map]
    exact isSome_mapM fun triangle htri =>
      hcorners triangle (mem_of_mem_take (mem_of_mem_drop htri))
  · intro Hit rayTriangle sort
    rw [TriangleMesh.raycast, Option.isSome_map]
    exact htriangles

/-- A square whose last vertex is the fourth, under one group. -/
def sampleText : List Char :=
  "v 0 0 0\nv 1 0 0\nv 1 1 0\nv 0 1 0\no top\nf 1 2 3 -1\n".toList

theorem parse_obj_spec_sample :
    ∃ mesh, parseObj (Text.parseNumeral Text.decimalValue 10) sampleText = .ok mesh ∧
      mesh.indices = [(0, 1, 2), (0, 2, 3)] ∧ Covers 0 mesh.groups mesh.indices.length :=
  ⟨_, rfl, rfl, ((parse_obj_spec (Text.parseNumeral Text.decimalValue 10) sampleText
    (by decide)).2 _ rfl).2.2.2.2.2.1⟩

end AukiSdk.Geometry.Obj
