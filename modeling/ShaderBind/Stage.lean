import ShaderBind.Language

/-!
# Shader stages

The stages of graphics, compute and ray-tracing pipelines, and sets of stages as masks with one
bit a stage (`StageSet`). Membership is `StageSet.mem`, and the operations are described by it
(`mem_union`, `mem_single`, `mem_all`).
-/

namespace ShaderBind

/-- One stage of a pipeline. -/
inductive Stage
  | vertex
  | pixel
  | geometry
  | hull
  | domain
  | compute
  | amplification
  | mesh
  | rayGen
  | rayMiss
  | rayClosestHit
  | rayAnyHit
  | rayIntersection
  | callable
  | tile
  deriving DecidableEq, Repr, Inhabited

namespace Stage

/-- Every stage, in the order of the bits. -/
def all : List Stage :=
  [vertex, pixel, geometry, hull, domain, compute, amplification, mesh, rayGen, rayMiss,
   rayClosestHit, rayAnyHit, rayIntersection, callable, tile]

/-- Position of the stage's bit. -/
def index : Stage → Nat
  | vertex => 0
  | pixel => 1
  | geometry => 2
  | hull => 3
  | domain => 4
  | compute => 5
  | amplification => 6
  | mesh => 7
  | rayGen => 8
  | rayMiss => 9
  | rayClosestHit => 10
  | rayAnyHit => 11
  | rayIntersection => 12
  | callable => 13
  | tile => 14

theorem index_lt (s : Stage) : s.index < 15 := by
  cases s <;> decide

theorem index_inj {s t : Stage} (h : s.index = t.index) : s = t := by
  cases s <;> cases t <;> first | rfl | cases h

/-- Name in messages. -/
def title : Stage → String
  | vertex => "vertex"
  | pixel => "pixel"
  | geometry => "geometry"
  | hull => "hull"
  | domain => "domain"
  | compute => "compute"
  | amplification => "amplification"
  | mesh => "mesh"
  | rayGen => "ray generation"
  | rayMiss => "ray miss"
  | rayClosestHit => "ray closest hit"
  | rayAnyHit => "ray any hit"
  | rayIntersection => "ray intersection"
  | callable => "callable"
  | tile => "tile"

/-- Name in data files. -/
def key : Stage → String
  | vertex => "vertex"
  | pixel => "pixel"
  | geometry => "geometry"
  | hull => "hull"
  | domain => "domain"
  | compute => "compute"
  | amplification => "amplification"
  | mesh => "mesh"
  | rayGen => "ray_gen"
  | rayMiss => "ray_miss"
  | rayClosestHit => "ray_closest_hit"
  | rayAnyHit => "ray_any_hit"
  | rayIntersection => "ray_intersection"
  | callable => "callable"
  | tile => "tile"

/-- The stage with the given key. -/
def ofKey? (s : String) : Option Stage :=
  all.find? fun t => t.key = s

/-- Name of the stage's bit in a written mask: the key in capitals. -/
def bitName (s : Stage) : String :=
  s.key.map Char.toUpper

/-- Reads a stage in any case of letters; only the stages of graphics and compute pipelines can
be asked for. -/
def parse (s : String) : Except UnknownName Stage :=
  match Text.toLower s with
  | "vertex" => .ok vertex
  | "vs" => .ok vertex
  | "pixel" => .ok pixel
  | "fragment" => .ok pixel
  | "ps" => .ok pixel
  | "fs" => .ok pixel
  | "geometry" => .ok geometry
  | "gs" => .ok geometry
  | "hull" => .ok hull
  | "tess_control" => .ok hull
  | "domain" => .ok domain
  | "tess_evaluation" => .ok domain
  | "compute" => .ok compute
  | "cs" => .ok compute
  | "amplification" => .ok amplification
  | "task" => .ok amplification
  | "mesh" => .ok mesh
  | _ => .error ⟨"shader stage", s⟩

/-- The stages that a module can have entry points for. -/
def isCompilable : Stage → Bool
  | vertex => true
  | pixel => true
  | compute => true
  | _ => false

end Stage

/-- A set of stages, one bit a stage. -/
structure StageSet where
  mask : BitVec 15
  deriving DecidableEq, Repr

namespace StageSet

/-- Whether the stage is in the set. -/
def mem (a : StageSet) (s : Stage) : Bool :=
  a.mask.getLsbD s.index

/-- The set without stages. -/
def empty : StageSet := ⟨0#15⟩

/-- The set of all stages. -/
def all : StageSet := ⟨BitVec.allOnes 15⟩

/-- The set of one stage. -/
def single (s : Stage) : StageSet := ⟨BitVec.twoPow 15 s.index⟩

/-- The stages of either set. -/
def union (a b : StageSet) : StageSet := ⟨a.mask ||| b.mask⟩

/-- Every stage of `a` is in `b`. -/
def subset (a b : StageSet) : Bool := a.mask &&& b.mask == a.mask

/-- The set of the listed stages. -/
def ofList (ss : List Stage) : StageSet :=
  ss.foldl (fun a s => a.union (single s)) empty

/-- The stages of the set, in the order of the bits. -/
def toList (a : StageSet) : List Stage :=
  Stage.all.filter a.mem

/-- The bits' names joined by a bar; nothing for the empty set. -/
def render (a : StageSet) : String :=
  " | ".intercalate (a.toList.map Stage.bitName)

@[simp] theorem mem_empty (s : Stage) : empty.mem s = false := by
  simp [mem, empty]

@[simp] theorem mem_all (s : Stage) : all.mem s = true := by
  cases s <;> rfl

@[simp] theorem mem_single (s t : Stage) : (single s).mem t = true ↔ s = t := by
  simp only [mem, single, BitVec.getLsbD_twoPow, Bool.and_eq_true, decide_eq_true_eq]
  exact ⟨fun h => Stage.index_inj h.2, fun h => h ▸ ⟨s.index_lt, rfl⟩⟩

@[simp] theorem mem_union (a b : StageSet) (s : Stage) :
    (a.union b).mem s = (a.mem s || b.mem s) := by
  simp [mem, union]

end StageSet

end ShaderBind
