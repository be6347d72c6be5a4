import ShaderBind.Stage

/-!
# Macro definitions

The `define` lines that are put in front of a source. Of several definitions of one name only the
last is kept (`keepLast`), and what is kept stays in order. Beside the caller's macros stand the
definitions that tell the stage (`stageDefinitions`) and the platform (`platformLine`).
-/

namespace ShaderBind.Source

/-- A macro and the text it stands for. -/
structure Macro where
  name : String
  definition : String := ""
  deriving DecidableEq, Repr

/-- The macros whose names are new; `seen` are the names that were met before. -/
def keepUnseen : (seen : List String) → List Macro → List Macro
  | _, [] => []
  | seen, m :: ms =>
    if m.name ∈ seen then keepUnseen seen ms else m :: keepUnseen (m.name :: seen) ms

/-- The macros that no later macro of the list redefines: those whose names are new to a walk from
the end. -/
def keepLast (macros : List Macro) : List Macro :=
  (keepUnseen [] macros.reverse).reverse

/-- The line that defines a name. -/
def defineLine (name definition : String) : String :=
  "#define " ++ name ++ " " ++ definition ++ "\n"

/-- The lines of the macros, each name once. -/
def macroLines (macros : List Macro) : String :=
  String.join ((keepLast macros).map fun m => defineLine m.name m.definition)

/-- The table of definitions, each name once. -/
def macroTable (macros : List Macro) : List (String × String) :=
  (keepLast macros).map fun m => (m.name, m.definition)

/-- The names that are defined for a stage. -/
def stageDefinitions : Stage → List String
  | .vertex => ["VERTEX_SHADER"]
  | .pixel => ["FRAGMENT_SHADER", "PIXEL_SHADER"]
  | .geometry => ["GEOMETRY_SHADER"]
  | .hull => ["TESS_CONTROL_SHADER", "HULL_SHADER"]
  | .domain => ["TESS_EVALUATION_SHADER", "DOMAIN_SHADER"]
  | .compute => ["COMPUTE_SHADER"]
  | .amplification => ["TASK_SHADER", "AMPLIFICATION_SHADER"]
  | .mesh => ["MESH_SHADER"]
  | .rayGen => ["RAY_GEN_SHADER"]
  | .rayMiss => ["RAY_MISS_SHADER"]
  | .rayClosestHit => ["RAY_CLOSEST_HIT_SHADER"]
  | .rayAnyHit => ["RAY_ANY_HIT_SHADER"]
  | .rayIntersection => ["RAY_INTERSECTION_SHADER"]
  | .callable => ["CALLABLE_SHADER"]
  | .tile => ["TILE_SHADER"]

/-- The lines that define a stage's names as 1. -/
def stageLines (stage : Stage) : String :=
  String.join ((stageDefinitions stage).map fun name => defineLine name "1")

/-- The line that defines the platform. -/
def platformLine : String :=
  defineLine "PLATFORM_LINUX" "1"

end ShaderBind.Source
