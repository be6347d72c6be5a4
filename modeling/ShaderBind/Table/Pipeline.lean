import ShaderBind.Remap.CrossStage
import ShaderBind.Remap.Stage
import ShaderBind.Table.Binding

/-!
# Pipelines

The stages of a pipeline are remapped to one mapping together (`RemappedPipeline.build`): they have
to agree on what they share, each of them has to fit the mapping, and the binding table comes from
the stages as they are afterwards. Any failure ends the whole pipeline.
-/

namespace ShaderBind

/-- A compiled shader. -/
structure Compiled where
  name : String
  stage : Stage
  entryPoint : String
  /-- The language the author wrote. -/
  language : Language
  artifact : Artifact
  /-- Nothing for a stage whose bindings the driver reports after linking. -/
  resources : Option ResourceList
  deriving Repr

/-- A stage of a remapped pipeline. -/
structure PipelineStage where
  name : String
  stage : Stage
  entryPoint : String
  artifact : Artifact
  resources : Option ResourceList
  plan : List PlannedBinding
  deriving Repr

/-- A pipeline whose stages are remapped. -/
structure RemappedPipeline where
  name : String
  stages : List PipelineStage
  table : BindingTable
  deriving Repr

namespace RemappedPipeline

/-- Remaps one shader. One without reflection passes only if it is GLSL that is looked at. -/
def remapShader (m : Remapper) (c : Compiled) : Noted PipelineStage :=
  match c.resources with
  | some l => do
    let r ← m.remapStage c.artifact l
    return ⟨c.name, c.stage, c.entryPoint, r.artifact, some r.resources, r.plan⟩
  | none =>
    match c.artifact, m.options.mode with
    | .glsl _, .verifyOnly => pure ⟨c.name, c.stage, c.entryPoint, c.artifact, none, []⟩
    | .glsl _, .patch => Noted.fail (.unsupported c.name .assignedByDriver)
    | _, _ => Noted.fail (.unsupported c.name .withoutReflection)

/-- Remaps the stages of a pipeline and builds its binding table. -/
def build (name : String) (shaders : List Compiled) (m : Remapper) (device : Device) :
    Noted RemappedPipeline := do
  Noted.ofError (CrossStage.check name (shaders.filterMap Compiled.resources))
  let stages ← shaders.mapM (remapShader m)
  let table ← Noted.ofError
    (BindingTable.build m.mapping device (stages.filterMap PipelineStage.resources))
  return { name, stages, table }

end RemappedPipeline

end ShaderBind
