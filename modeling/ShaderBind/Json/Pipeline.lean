import ShaderBind.Json.Resource
import ShaderBind.Json.Table
import ShaderBind.Table.Pipeline

/-!
# Compiled shaders and pipelines as JSON

The reports of compiled shaders, of plans and of remapped pipelines. How an artifact is shown is
left to the caller.
-/

namespace ShaderBind

/-- A place as a pair. -/
def Coord.toJson (c : Coord) : Json :=
  .arr [.word c.group, .word c.binding]

/-- An artifact in full. -/
def Artifact.toJson : Artifact → Json
  | wgsl text => .obj [("kind", .str "WGSL"), ("text", .str text)]
  | glsl text => .obj [("kind", .str "GLSL"), ("text", .str text)]
  | spirv words => .obj [("kind", .str "SPIR-V"), ("words", .arr (words.map Json.word))]

/-- Places as pairs. -/
def Coord.listToJson (cs : List Coord) : Json :=
  .arr (cs.map toJson)

/-- SPIR-V by its version and the places of its variables, for reports that leave out the words. -/
def Spirv.outlineFields (words : List UInt32) : List (String × Json) :=
  let places := match readBindings words with
    | .ok bindings => bindings.map Prod.snd
    | .error _ => []
  [("kind", .str "SPIR-V"), ("version", .word (words[1]?.getD 0)),
    ("bindings", Coord.listToJson (Coord.sort places))]

/-- An artifact without the words of SPIR-V. -/
def Artifact.outline : Artifact → Json
  | spirv words => .obj (Spirv.outlineFields words)
  | a => a.toJson

/-- The step of a plan. -/
def PlannedBinding.toJson (p : PlannedBinding) : Json :=
  .obj [("name", .str p.name), ("from", p.source.toJson), ("to", p.target.toJson)]

/-- A plan. -/
def PlannedBinding.listToJson (plan : List PlannedBinding) : Json :=
  .arr (plan.map toJson)

/-- The resources of a stage that has been reflected. -/
def ResourceList.toJson? (l : Option ResourceList) : Json :=
  (l.map toJson).getD .null

/-- The fields of a compiled shader. -/
def Compiled.jsonFields (artifact : Artifact → Json) (c : Compiled) : List (String × Json) :=
  [("name", .str c.name), ("stage", .str c.stage.key), ("entry_point", .str c.entryPoint),
    ("source_language", .str c.language.key), ("artifact", artifact c.artifact),
    ("resources", ResourceList.toJson? c.resources)]

/-- A remapped stage. -/
def PipelineStage.toJson (artifact : Artifact → Json) (s : PipelineStage) : Json :=
  .obj [("name", .str s.name), ("stage", .str s.stage.key), ("entry_point", .str s.entryPoint),
    ("artifact", artifact s.artifact), ("resources", ResourceList.toJson? s.resources),
    ("plan", PlannedBinding.listToJson s.plan)]

/-- The fields of a remapped pipeline. -/
def RemappedPipeline.jsonFields (artifact : Artifact → Json) (p : RemappedPipeline) :
    List (String × Json) :=
  [("name", .str p.name), ("stages", .arr (p.stages.map (·.toJson artifact))),
    ("binding_table", p.table.toJson)]

end ShaderBind
