import ShaderBind.Wgsl.Scope

/-!
# Interfaces of entry points

What passes into and out of an entry point (`Interface.value`): every value, or every member of a
struct, has a location or is one of the values that the hardware knows (`builtinValue?`), and no
location or such value is there twice.
-/

namespace ShaderBind.Wgsl

/-- A value that the hardware knows: its type, the stages that take it and those that give it. -/
structure BuiltinValue where
  type : BasicShape
  inputs : List Stage := []
  outputs : List Stage := []

/-- The values that the hardware knows. -/
def builtinValue? : String → Option BuiltinValue
  | "position" => some { type := .vector 4 f32, inputs := [.pixel], outputs := [.vertex] }
  | "vertex_index" => some { type := .scalar u32, inputs := [.vertex] }
  | "instance_index" => some { type := .scalar u32, inputs := [.vertex] }
  | "view_index" => some { type := .scalar i32, inputs := [.vertex, .pixel] }
  | "front_facing" => some { type := .scalar boolean, inputs := [.pixel] }
  | "frag_depth" => some { type := .scalar f32, outputs := [.pixel] }
  | "primitive_index" => some { type := .scalar u32, inputs := [.pixel] }
  | "sample_index" => some { type := .scalar u32, inputs := [.pixel] }
  | "sample_mask" => some { type := .scalar u32, inputs := [.pixel], outputs := [.pixel] }
  | "global_invocation_id" => some { type := .vector 3 u32, inputs := [.compute] }
  | "local_invocation_id" => some { type := .vector 3 u32, inputs := [.compute] }
  | "local_invocation_index" => some { type := .scalar u32, inputs := [.compute] }
  | "workgroup_id" => some { type := .vector 3 u32, inputs := [.compute] }
  | "num_workgroups" => some { type := .vector 3 u32, inputs := [.compute] }
  | "num_subgroups" => some { type := .scalar u32, inputs := [.compute] }
  | "subgroup_id" => some { type := .scalar u32, inputs := [.compute] }
  | "subgroup_size" => some { type := .scalar u32, inputs := [.pixel, .compute] }
  | "subgroup_invocation_id" => some { type := .scalar u32, inputs := [.pixel, .compute] }
  | _ => none

/-- Whether a binding means something. -/
def IoBinding.isKnown (scope : Scope) : IoBinding → Bool
  | location e => (scope.word? e).isSome
  | builtin name => (builtinValue? name).isSome

/-- One side of an entry point: the values that come in, or those that go out. -/
structure Interface where
  stage : Stage
  isOutput : Bool
  locations : List UInt32 := []
  builtins : List String := []

namespace Interface

/-- Adds a value with a binding. -/
def bound? (scope : Scope) (i : Interface) (type : ShaderType) : IoBinding → Option Interface
  | .location e => do
    let n ← scope.word? e
    let facts ← type.facts?
    if !facts.ioShareable || i.locations.contains n || i.stage = .compute then none
    else some { i with locations := n :: i.locations }
  | .builtin name => do
    let b ← builtinValue? name
    let stages := if i.isOutput then b.outputs else b.inputs
    if i.builtins.contains name || !stages.contains i.stage || !type.same (.basic none b.type) then none
    else some { i with builtins := name :: i.builtins }

/-- Adds a value: one with a binding, or a struct whose members all have one. -/
def value? (scope : Scope) (i : Interface) (type : ShaderType) : Option IoBinding → Option Interface
  | some io => i.bound? scope type io
  | none =>
    match type with
    | .struct (some name) members _ => do
      let ios ← scope.bindings.lookup name
      (members.zip ios).foldlM (fun i (m, io) => do i.bound? scope m.type (← io)) i
    | _ => none

end Interface

/-- Whether an entry point of a stage may have these parameters and this result. What the vertex stage
gives has a position. -/
def isInterface (scope : Scope) (stage : Stage) (params : List (ShaderType × Option IoBinding))
    (result : Option (ShaderType × Option IoBinding)) : Bool :=
  let inputs : Option Interface :=
    params.foldlM (fun i (t, io) => i.value? scope t io) { stage, isOutput := false }
  let outputs : Option Interface :=
    result.toList.foldlM (fun i (t, io) => i.value? scope t io) { stage, isOutput := true }
  inputs.isSome && outputs.any fun o => stage != .vertex || o.builtins.contains "position"

end ShaderBind.Wgsl
