import ShaderBind.Module.Basic
import ShaderBind.Text.Class

/-!
# Modules as WGSL

A module of resources written as WGSL text (`print`): its structs, its variables with their places
in order, and its entry points, whose statements use the variables. A struct is declared once; a
second struct of one name gets another name.
-/

namespace ShaderBind.Wgsl

/-- The declarations of structs written so far: names and bodies. -/
abbrev StructTexts := List (String × String)

/-- The first of some names that is not taken, or the name itself. -/
def freeName (taken : List String) (name : String) : String :=
  let candidates := name :: (List.range taken.length).map fun n => s!"{name}_{n + 1}"
  (candidates.find? fun c => !taken.contains c).getD name

/-- The name of a struct with the given body, which is declared if it is new. -/
def declareStruct (name body : String) (texts : StructTexts) : String × StructTexts :=
  match texts.find? fun t => t.2 = body with
  | some (known, _) => (known, texts)
  | none =>
    let name := freeName (texts.map Prod.fst) name
    (name, texts ++ [(name, body)])

/-- A number type. -/
def scalarText (s : Scalar) : String :=
  match s.kind with
  | .bool => "bool"
  | .sint => s!"i{8 * s.width}"
  | .uint => s!"u{8 * s.width}"
  | _ => s!"f{8 * s.width}"

/-- The end of the name of a texture type. -/
def dimensionText : ImageDimension → (arrayed : Bool) → String
  | .d1, false => "1d"
  | .d1, true => "1d_array"
  | .d2, false => "2d"
  | .d2, true => "2d_array"
  | .d3, _ => "3d"
  | .cube, false => "cube"
  | .cube, true => "cube_array"

/-- An access. -/
def accessText (a : StorageAccess) : String :=
  if !a.store then "read" else if a.load then "read_write" else "write"

/-- A type without parts. -/
def shapeText : BasicShape → String
  | .scalar s => scalarText s
  | .atomic s => s!"atomic<{scalarText s}>"
  | .vector n s => s!"vec{n}<{scalarText s}>"
  | .matrix columns rows s => s!"mat{columns}x{rows}<{scalarText s}>"
  | .image dimension arrayed imageClass =>
    let shape := dimensionText dimension arrayed
    match imageClass with
    | .sampled kind multi =>
      let mark := if multi then "multisampled_" else ""
      s!"texture_{mark}{shape}<{scalarText ⟨kind, 4⟩}>"
    | .depth multi =>
      let mark := if multi then "multisampled_" else ""
      s!"texture_depth_{mark}{shape}"
    | .storage format access =>
      s!"texture_storage_{shape}<{format.word}, {accessText access}>"
  | .sampler comparison => if comparison then "sampler_comparison" else "sampler"
  | .accelerationStructure => "acceleration_structure"
  | .rayQuery => "ray_query"

/-- An array type. -/
def arrayText (kind base : String) : ArraySize → String
  | .constant n _ => s!"{kind}<{base}, {n}>"
  | _ => s!"{kind}<{base}>"

mutual

/-- A type, after the structs it needs. -/
def typeText : ShaderType → StateM StructTexts String
  | .basic _ shape => pure (shapeText shape)
  | .array _ base _ size => do
    let base ← typeText base
    return arrayText "array" base size
  | .bindingArray _ base size => do
    let base ← typeText base
    return arrayText "binding_array" base size
  | .struct name members _ => do
    let body ← memberTexts 0 members
    modifyGet (declareStruct (name.getD "Block") body)

/-- The members of a struct, a line each. -/
def memberTexts : (index : Nat) → List (Member ShaderType) → StateM StructTexts String
  | _, [] => pure ""
  | index, ⟨name, _, type⟩ :: members => do
    let type ← typeText type
    let rest ← memberTexts (index + 1) members
    let name := name.getD s!"member_{index}"
    return s!"    {name}: {type},\n" ++ rest

end

/-- What stands behind `var`. -/
def spaceText : AddressSpace → String
  | .priv => "<private>"
  | .workgroup => "<workgroup>"
  | .uniform => "<uniform>"
  | .storage access => s!"<storage, {accessText access}>"
  | .handle => ""
  | .pushConstant => "<push_constant>"

/-- The names of variables, each of its own. -/
def globalNames : (taken : List String) → List Global → List String
  | _, [] => []
  | taken, g :: gs =>
    let name := freeName taken (g.name.getD "global")
    name :: globalNames (name :: taken) gs

/-- The declaration of a variable. -/
def globalText (name : String) (g : Global) : StateM StructTexts String := do
  let type ← typeText g.type
  let place := match g.place with
    | some place => s!"@group({place.group}) @binding({place.binding}) "
    | none => ""
  return s!"{place}var{spaceText g.space} {name}: {type};\n"

/-- The line before an entry point, and its result. -/
def stageText : Stage → String × String
  | .vertex => ("@vertex", " -> @builtin(position) vec4<f32>")
  | .pixel => ("@fragment", "")
  | _ => ("@compute @workgroup_size(1)", "")

/-- The statement that uses a variable; buffers are used through a pointer. -/
def useText (name : String) (g : Global) : String :=
  match g.space with
  | .storage _ => s!"    _ = &{name};\n"
  | _ => s!"    _ = {name};\n"

/-- An entry point. -/
def entryPointText (globals : List (String × Global)) (e : EntryPoint) : String :=
  let (head, result) := stageText e.stage
  let uses := e.uses.filterMap fun index => globals[index]?.map fun (name, g) => useText name g
  let last := if e.stage = .vertex then "    return vec4<f32>(0.0);\n" else ""
  s!"{head}\nfn {e.name}(){result} \x7b\n" ++ String.join uses ++ last ++ "\x7d\n"

/-- The text of a module. -/
def print (m : ShaderModule) : String :=
  let named := (globalNames [] m.globals).zip m.globals
  let (globals, structs) := (named.mapM fun (name, g) => globalText name g).run []
  let structTexts := structs.map fun (name, body) => s!"struct {name} \x7b\n" ++ body ++ "\x7d\n"
  String.join structTexts ++ String.join globals ++
    String.join (m.entryPoints.map (entryPointText named))

end ShaderBind.Wgsl
