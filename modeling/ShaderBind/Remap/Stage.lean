import ShaderBind.Artifact
import ShaderBind.Remap.Plan
import ShaderBind.Spirv.Decoration
import ShaderBind.Wgsl.Attribute

/-!
# Remapping of a stage

`Remapper.remapStage` makes the moves of a plan in an artifact. Places are matched by their numbers
and never by name, so that names which a compiler changed do no harm; a declaration of the plan
that the artifact does not hold is a failure. When bindings are only looked at, the artifact stays
and every declaration that is not at its place is told.
-/

namespace ShaderBind

/-- A stage after remapping. -/
structure RemappedStage where
  artifact : Artifact
  resources : ResourceList
  plan : List PlannedBinding
  deriving Repr

/-- The moves of a plan. -/
def PlannedBinding.moves (plan : List PlannedBinding) : Moves :=
  (plan.filter fun p => p.source ≠ p.target).map fun p => (p.source, p.target)

namespace Remapper

/-- Compares the place a resource has with the one it should have; a mismatch stops or is noted.
Tells whether they agree. -/
def check (m : Remapper) (shader resource : String) (expected actual : Coord) : Noted Bool :=
  if expected = actual then pure true
  else
    let mismatch := ShaderError.bindingMismatch shader resource expected actual
    match m.options.severity with
    | .error => Noted.fail mismatch
    | .warn => do
      Noted.warn mismatch.message
      return false

/-- The artifact after the moves, and the places that were found in it. -/
def patch (shader : String) (moves : Moves) :
    Artifact → Except ShaderError (Artifact × List Coord)
  | .wgsl text =>
    let (text, found) := Wgsl.moveBindings text moves
    .ok (.wgsl text, found)
  | .spirv words =>
    match Spirv.patch words moves with
    | (words, .ok found) => .ok (.spirv words, found)
    | (_, .error e) => .error (.patch shader (.spirv e))
  | .glsl _ => .error (.unsupported shader .assignedByDriver)

/-- The first declaration of a plan that moves and was not found. -/
def missing? (plan : List PlannedBinding) (found : List Coord) : Option PlannedBinding :=
  plan.find? fun p => p.source ≠ p.target && !found.contains p.source

/-- Remaps one stage, or looks at its bindings. -/
def remapStage (m : Remapper) (artifact : Artifact) (l : ResourceList) : Noted RemappedStage := do
  let (moved, plan) ← Noted.ofStop (m.plan l)
  match m.options.mode with
  | .verifyOnly =>
    for p in plan do
      let _ ← m.check l.shader p.name p.target p.source
    return ⟨artifact, l, plan⟩
  | .patch =>
    let (patched, found) ← Noted.ofError (patch l.shader (PlannedBinding.moves plan) artifact)
    match missing? plan found with
    | some p =>
      Noted.fail (.patch l.shader (.missingDeclaration p.name p.source patched.kind))
    | none => return ⟨patched, moved, plan⟩

end Remapper

end ShaderBind
