import ShaderBind.Compile.Shader
import ShaderBind.Json.Basic

/-!
# Calls of the tools as JSON

The record of a call to one of the outside compilers: what it was asked, with the fields in the
order in which a reader of a build log looks for them.
-/

namespace ShaderBind

/-- A definition. -/
def Source.Macro.toJson (m : Source.Macro) : Json :=
  .obj [("name", .str m.name), ("definition", .str m.definition)]

/-- What a front end is asked. -/
def IrRequest.jsonFields (r : IrRequest) : List (String × Json) :=
  [("call", .str "to_ir"), ("shader", .str r.shader), ("stage", .str r.stage.key),
    ("entry_point", .text? r.entryPoint), ("source", .str r.source),
    ("macros", .arr (r.macros.map Source.Macro.toJson)), ("preamble", .bool r.preamble),
    ("spirv_version", .str r.target.key), ("assign_bindings", .bool r.assignBindings),
    ("file_name", .text? r.fileName)]

/-- What a tool is asked. The two front ends are asked in the same way. -/
def Call.jsonFields : Call → List (String × Json)
  | glslFrontEnd r => r.jsonFields
  | hlslFrontEnd r => r.jsonFields
  | backEnd r =>
    [("call", .str "to_text"), ("shader", .str r.shader), ("words", .arr (r.words.map Json.word)),
      ("language", .str r.language.key)]
  | reflector a r =>
    [("call", .str "reflect"), ("artifact", .str a.kind), ("shader", .str r.shader),
      ("language", .str r.language.key), ("stage", .text? (r.stage.map Stage.key)),
      ("entry_point", .text? r.entryPoint),
      ("combined_sampler_suffix", .text? r.combinedSamplerSuffix),
      ("load_buffer_layout", .bool r.loadBufferLayout)]
  | converter r =>
    [("call", .str "convert"), ("shader", .str r.shader), ("source", .str r.source),
      ("entry_point", .str r.entryPoint), ("stage", .str r.stage.key),
      ("sampler_suffix", .str r.samplerSuffix),
      ("use_in_out_location_qualifiers", .bool r.useLocationQualifiers),
      ("use_row_major_matrices", .bool r.useRowMajorMatrices), ("file_name", .text? r.fileName)]

/-- The calls among some events, each told from a state of the shader on. A caller may ask for
some calls only, and for the state at the time of each. -/
def Event.callsFrom (shown : Call → Bool) (withState : Bool) :
    ShaderState → List Event → List Json
  | _, [] => []
  | _, .entered phase :: rest => callsFrom shown withState (.ofPhase phase) rest
  | state, .called c :: rest =>
    let later := callsFrom shown withState state rest
    if !shown c then later
    else .obj (c.jsonFields ++ if withState then [("state", .str state.name)] else []) :: later
  | state, .warned _ :: rest => callsFrom shown withState state rest

/-- The calls among the events of a compile. -/
def Event.calls (shown : Call → Bool) (withState : Bool) (events : List Event) : List Json :=
  callsFrom shown withState .uninitialized events

end ShaderBind
