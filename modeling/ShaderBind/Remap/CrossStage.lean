import ShaderBind.Resource.List

/-!
# Agreement between stages

Stages of one pipeline that share a resource, by the name its author gave it, have to declare it
alike. Within a stage the first resource of a name speaks for it, and a later stage is compared
with the first that has the name.
-/

namespace ShaderBind

/-- A name, the stage that has it first, and the resource there. -/
structure SharedName where
  name : String
  stage : Stage
  resource : Resource
  deriving Repr

namespace CrossStage

/-- The first resource of each name. -/
def firstOfEach : List Resource → List Resource
  | [] => []
  | r :: rs => r :: (firstOfEach rs).filter fun s => s.semanticName ≠ r.semanticName

/-- Compares the resources of a stage with the names that earlier stages have; returns the names
that are new. -/
def compareAll (pipeline : String) (stage : Stage) (known : List SharedName) :
    List Resource → Except ShaderError (List SharedName)
  | [] => .ok []
  | r :: rs =>
    match known.find? fun k => k.name = r.semanticName with
    | some k =>
      match k.resource.difference? r true with
      | some (property, a, b) =>
        .error (.incompatibleResource pipeline r.semanticName k.stage stage property a b)
      | none => compareAll pipeline stage known rs
    | none => do
      let new ← compareAll pipeline stage known rs
      return ⟨r.semanticName, stage, r⟩ :: new

/-- Compares stages in turn. -/
def checkFrom (pipeline : String) (known : List SharedName) :
    List ResourceList → Except ShaderError Unit
  | [] => .ok ()
  | l :: ls => do
    let new ← compareAll pipeline l.stage known (firstOfEach l.resources)
    checkFrom pipeline (known ++ new) ls

/-- Checks that the stages of a pipeline declare what they share alike. -/
def check (pipeline : String) (stages : List ResourceList) : Except ShaderError Unit :=
  checkFrom pipeline [] stages

end CrossStage

end ShaderBind
