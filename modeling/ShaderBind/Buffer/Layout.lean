/-!
# Buffer layouts

The members of a uniform buffer as reflection reports them: a tree of variables (`Variable`), each
with its offset, its class and the number of its rows and columns.
-/

namespace ShaderBind.Buffer

/-- What kind of value a variable holds. -/
inductive VariableClass
  | unknown
  | scalar
  | vector
  | matrixRows
  | matrixColumns
  | struct
  deriving DecidableEq, Repr, Inhabited

/-- Name of the class. -/
def VariableClass.name : VariableClass → String
  | unknown => "Unknown"
  | scalar => "Scalar"
  | vector => "Vector"
  | matrixRows => "MatrixRows"
  | matrixColumns => "MatrixColumns"
  | struct => "Struct"

/-- Type of the components of a variable. -/
inductive BasicType
  | unknown
  | bool
  | float
  | float16
  | double
  | int
  | int64
  | uint
  | uint64
  deriving DecidableEq, Repr, Inhabited

/-- Name of the type. -/
def BasicType.name : BasicType → String
  | unknown => "Unknown"
  | bool => "Bool"
  | float => "Float"
  | float16 => "Float16"
  | double => "Double"
  | int => "Int"
  | int64 => "Int64"
  | uint => "Uint"
  | uint64 => "Uint64"

/-- One member of a buffer, with the members below it when it is a struct. -/
structure Variable where
  name : String := ""
  typeName : String := ""
  offset : Nat := 0
  variableClass : VariableClass := .unknown
  basicType : BasicType := .unknown
  rows : Nat := 0
  columns : Nat := 0
  /-- Zero when the member is no array. -/
  arraySize : Nat := 0
  members : List Variable := []
  deriving Repr, Inhabited

/-- The member with the given name. -/
def Variable.member? (v : Variable) (name : String) : Option Variable :=
  v.members.find? fun m => m.name = name

/-- The layout of a whole buffer. -/
structure Layout where
  size : Nat
  topLevel : List Variable
  deriving Repr, Inhabited

/-- The variable with the given name. -/
def Layout.topLevel? (l : Layout) (name : String) : Option Variable :=
  l.topLevel.find? fun v => v.name = name

/-- The variable at a path of names. -/
def Layout.find? (l : Layout) : List String → Option Variable
  | [] => none
  | name :: names => names.foldl (fun v n => v.bind (·.member? n)) (l.topLevel? name)

end ShaderBind.Buffer
