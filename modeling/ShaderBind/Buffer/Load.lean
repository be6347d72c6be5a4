import ShaderBind.Buffer.Layout
import ShaderBind.Language
import ShaderBind.Module.Type

/-!
# Loading of buffer layouts

The layout of a buffer from the type of its variable (`Layout.ofType`). Offsets are those of the
type. Rows and columns read as in the language of the author: HLSL counts them the other way round.
A type without a name gets one in the conventions of the language.
-/

namespace ShaderBind

/-- The type of the components. -/
def Scalar.basicType (s : Scalar) : Buffer.BasicType :=
  match s.kind, s.width with
  | .float, 2 => .float16
  | .float, 8 => .double
  | .float, _ => .float
  | .sint, 8 => .int64
  | .sint, _ => .int
  | .uint, 8 => .uint64
  | .uint, _ => .uint
  | .bool, _ => .bool
  | _, _ => .unknown

namespace Buffer

/-! ## Names of types -/

/-- Name of a component type in WGSL. -/
def BasicType.wgslName : BasicType → String
  | bool => "bool"
  | float => "f32"
  | float16 => "f16"
  | double => "f64"
  | int => "i32"
  | int64 => "i64"
  | uint => "u32"
  | uint64 => "u64"
  | unknown => "unknown"

/-- Name of a type without parts in WGSL. -/
def wgslShapeName : BasicShape → String
  | .scalar s => s.basicType.wgslName
  | .atomic s => s.basicType.wgslName
  | .vector n s => s!"vec{n}<{s.basicType.wgslName}>"
  | .matrix columns rows s => s!"mat{columns}x{rows}<{s.basicType.wgslName}>"
  | _ => ""

/-- The name that a type has, unless it is empty. -/
def givenName? (name : Option String) : Option String :=
  name.filter fun n => !n.isEmpty

/-- Name of a type in WGSL: its own, or one made from its shape. -/
def wgslTypeName : ShaderType → String
  | .basic name shape => (givenName? name).getD (wgslShapeName shape)
  | .array name base _ size =>
    (givenName? name).getD <|
      match size with
      | .constant n _ => s!"array<{wgslTypeName base}, {n}>"
      | _ => s!"array<{wgslTypeName base}>"
  | .bindingArray name _ _ => (givenName? name).getD ""
  | .struct name _ _ => (givenName? name).getD ""

/-- Name of a component type in GLSL, or in HLSL. -/
def BasicType.shadingName? (glsl : Bool) : BasicType → Option String
  | bool => some "bool"
  | float => some "float"
  | float16 => some (if glsl then "float16_t" else "half")
  | double => some "double"
  | int => some "int"
  | int64 => some "int64_t"
  | uint => some "uint"
  | uint64 => some "uint64_t"
  | unknown => none

/-- What stands before the name of a vector in GLSL. -/
def BasicType.glslVectorMark : BasicType → String
  | float => ""
  | double => "d"
  | int => "i"
  | uint => "u"
  | bool => "b"
  | _ => "f16"

/-- Name of a variable's type in GLSL. -/
def glslTypeName (v : Variable) (scalar : String) : String :=
  match v.variableClass with
  | .scalar => scalar
  | .vector => s!"{v.basicType.glslVectorMark}vec{max v.rows v.columns}"
  | .matrixRows | .matrixColumns =>
    let mark := if v.basicType = .double then "d" else ""
    if v.rows = v.columns then s!"{mark}mat{v.rows}" else s!"{mark}mat{v.columns}x{v.rows}"
  | _ => ""

/-- Name of a variable's type in HLSL. -/
def hlslTypeName (v : Variable) (scalar : String) : String :=
  match v.variableClass with
  | .scalar => scalar
  | .vector => s!"{scalar}{max v.rows v.columns}"
  | .matrixRows | .matrixColumns => s!"{scalar}{v.rows}x{v.columns}"
  | _ => ""

/-- Name of a variable's type in the conventions of a language other than WGSL. -/
def shadingTypeName (language : Language) (v : Variable) : String :=
  let glsl := language = .glsl || language = .glslVerbatim
  match v.basicType.shadingName? glsl with
  | none => ""
  | some scalar => if glsl then glslTypeName v scalar else hlslTypeName v scalar

/-- The variable with a name for its type, unless it has one. -/
def Variable.withTypeName (language : Language) (type : ShaderType) (v : Variable) : Variable :=
  if v.typeName.isEmpty then
    { v with
      typeName := if language.isWgslLike then wgslTypeName type else shadingTypeName language v }
  else v

/-! ## Variables -/

/-- A variable of a type without parts, as it counts rows and columns. -/
def ofShape (v : Variable) : BasicShape → Variable
  | .scalar s =>
    { v with variableClass := .scalar, basicType := s.basicType, rows := 1, columns := 1 }
  | .atomic s =>
    { v with variableClass := .scalar, basicType := s.basicType, rows := 1, columns := 1 }
  | .vector n s =>
    { v with variableClass := .vector, basicType := s.basicType, rows := n, columns := 1 }
  | .matrix columns rows s =>
    { v with variableClass := .matrixRows, basicType := s.basicType, rows, columns }
  | _ => v

/-- The variable with rows and columns exchanged where the language counts them so. -/
def Variable.inTermsOf (language : Language) (v : Variable) : Variable :=
  if language = .hlsl then { v with rows := v.columns, columns := v.rows } else v

/-- The rows of a matrix that HLSL lays out with a stride of its own, which arrives as an array of
structs with one vector each. -/
def stridedRow? (language : Language) : ShaderType → Option (Nat × Scalar)
  | .struct (some "strided_arr") (⟨_, _, .basic _ (.vector n s)⟩ :: _) _ =>
    if language = .hlsl then some (n, s) else none
  | _ => none

mutual

/-- Describes a variable of a type. An array is described as its elements are, with the length
beside; of nested arrays the outermost length counts. -/
def Variable.load (language : Language) (v : Variable) : ShaderType → Variable
  | .basic name shape =>
    ((ofShape v shape).inTermsOf language).withTypeName language (.basic name shape)
  | .array name base stride size =>
    let described :=
      match stridedRow? language base with
      | some (n, s) =>
        { v with
          variableClass := .matrixRows
          basicType := s.basicType
          columns := n
          rows := size.known % 256 }
      | none => { Variable.load language v base with arraySize := size.known }
    described.withTypeName language (.array name base stride size)
  | .bindingArray name base size =>
    (v.inTermsOf language).withTypeName language (.bindingArray name base size)
  | .struct name members span =>
    { v with
      variableClass := .struct
      members := v.members ++ Variable.loadAll language members
      typeName := name.getD "" }.withTypeName language (.struct name members span)

/-- Describes the members of a struct. -/
def Variable.loadAll (language : Language) : List (Member ShaderType) → List Variable
  | [] => []
  | ⟨name, offset, type⟩ :: members =>
    Variable.load language { name := name.getD "", offset } type ::
      Variable.loadAll language members

end

/-- The layout of a buffer: the members of a struct, or one variable without a name. -/
def Layout.ofType (language : Language) (type : ShaderType) : Layout where
  size := type.size
  topLevel :=
    match type with
    | .struct _ members _ => Variable.loadAll language members
    | type => [Variable.load language {} type]

end Buffer

end ShaderBind
