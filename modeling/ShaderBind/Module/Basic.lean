import ShaderBind.Coord
import ShaderBind.Module.Type
import ShaderBind.Noted

/-!
# Shader modules

A module has global variables and entry points, and every entry point uses some of the variables.
`ShaderModule.entryPoint` picks the entry point that a request means: one that has the name and the
stage it asks for, or the only one of the module.
-/

namespace ShaderBind

/-- Where a global variable lives. -/
inductive AddressSpace
  | priv
  | workgroup
  | uniform
  | storage (access : StorageAccess)
  | handle
  | pushConstant
  deriving DecidableEq, Repr

/-- Whether variables of the space are bound. -/
def AddressSpace.isBound : AddressSpace → Bool
  | uniform => true
  | storage _ => true
  | handle => true
  | _ => false

/-- A global variable. -/
structure Global where
  name : Option String
  space : AddressSpace
  type : ShaderType
  place : Option Coord
  deriving Repr

/-- An entry point. -/
structure EntryPoint where
  name : String
  stage : Stage
  /-- The positions of the variables it uses. -/
  uses : List Nat
  deriving DecidableEq, Repr

/-- A shader after parsing. -/
structure ShaderModule where
  globals : List Global
  entryPoints : List EntryPoint
  /-- The types that others refer to, in their order. Only the description of a type that no
  resource has, and that no valid module holds, reads them. -/
  types : List ShaderType := []
  deriving Repr

namespace ShaderModule

/-- Whether an entry point is of a stage and has a name, where these are asked for. -/
def matchesRequest (stage : Option Stage) (name : Option String) (e : EntryPoint) : Bool :=
  (stage.all (· = e.stage)) && (name.all (· = e.name))

/-- The positions of the entry points that a request may mean, with their names. -/
def candidates (m : ShaderModule) (stage : Option Stage) (name : Option String) :
    List (EntryPoint × Nat) :=
  m.entryPoints.zipIdx.filter fun e => matchesRequest stage name e.1

/-- The entry point that a request means, and its position. Of several the first is taken, with a
warning, unless the request says nothing. -/
def entryPoint (m : ShaderModule) (shader : String) (stage : Option Stage) (name : Option String) :
    Noted (EntryPoint × Nat) :=
  if m.entryPoints.isEmpty then Noted.fail (.noEntryPoints shader)
  else
    match m.candidates stage name with
    | [] =>
      match name, stage with
      | some name, _ => Noted.fail (.entryPointNotFound shader name)
      | none, some stage => Noted.fail (.entryPointNotFound shader s!"<{stage.title} stage>")
      | none, none => Noted.fail (.ambiguousEntryPoint shader)
    | [e] => pure e
    | e :: others =>
      if name.isNone && stage.isNone then Noted.fail (.ambiguousEntryPoint shader)
      else do
        let n := others.length + 1
        Noted.warn
          s!"Shader '{shader}' contains {n} matching entry points; using the first one, '{e.1.name}'"
        return e

end ShaderModule

end ShaderBind
