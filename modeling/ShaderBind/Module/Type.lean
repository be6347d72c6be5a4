import ShaderBind.Module.Format

/-!
# Types of shader variables

The types that the global variables of a shader have. A type may have a name of its own; arrays and
structs have types below them. `ShaderType.size` is the number of bytes that a value takes in a
buffer.
-/

namespace ShaderBind

/-- Kind of a number. -/
inductive ScalarKind
  | sint
  | uint
  | float
  | bool
  | abstractInt
  | abstractFloat
  deriving DecidableEq, Repr, Inhabited

namespace ScalarKind

/-- Name of the kind in descriptions of types. -/
def name : ScalarKind → String
  | sint => "Sint"
  | uint => "Uint"
  | float => "Float"
  | bool => "Bool"
  | abstractInt => "AbstractInt"
  | abstractFloat => "AbstractFloat"

/-- How texels of the kind are read. -/
def sampleType : ScalarKind → SampleType
  | float => .float
  | sint => .sint
  | uint => .uint
  | _ => .unknown

end ScalarKind

/-- A number and its width in bytes. -/
structure Scalar where
  kind : ScalarKind
  width : Nat
  deriving DecidableEq, Repr, Inhabited

/-- Length of an array; no array has length zero. -/
inductive ArraySize
  | constant (n : UInt32) (ne : n ≠ 0)
  /-- Given by a constant that is set when the pipeline is made. -/
  | pending
  /-- Given by the bound buffer. -/
  | dynamic
  deriving DecidableEq, Repr

/-- What a shader may do with a storage variable. -/
structure StorageAccess where
  load : Bool := false
  store : Bool := false
  atomic : Bool := false
  deriving DecidableEq, Repr, Inhabited

/-- Base dimension of an image. -/
inductive ImageDimension
  | d1
  | d2
  | d3
  | cube
  deriving DecidableEq, Repr

/-- The dimension of a resource with such images. -/
def ImageDimension.toDimension : ImageDimension → (arrayed : Bool) → Dimension
  | d1, false => .tex1D
  | d1, true => .tex1DArray
  | d2, false => .tex2D
  | d2, true => .tex2DArray
  | d3, _ => .tex3D
  | cube, false => .cube
  | cube, true => .cubeArray

/-- How an image is accessed. -/
inductive ImageClass
  | sampled (kind : ScalarKind) (multi : Bool)
  | depth (multi : Bool)
  | storage (format : StorageFormat) (access : StorageAccess)
  deriving DecidableEq, Repr

/-- A type without types below it. -/
inductive BasicShape
  | scalar (s : Scalar)
  | atomic (s : Scalar)
  | vector (size : Nat) (s : Scalar)
  | matrix (columns rows : Nat) (s : Scalar)
  | image (dimension : ImageDimension) (arrayed : Bool) (imageClass : ImageClass)
  | sampler (comparison : Bool)
  | accelerationStructure
  | rayQuery
  deriving DecidableEq, Repr

/-- A member of a struct. -/
@[ext]
structure Member (τ : Type) where
  name : Option String
  offset : Nat
  type : τ
  deriving Repr

/-- The type of a shader variable. -/
inductive ShaderType
  | basic (name : Option String) (shape : BasicShape)
  | array (name : Option String) (base : ShaderType) (stride : Nat) (size : ArraySize)
  | bindingArray (name : Option String) (base : ShaderType) (size : ArraySize)
  | struct (name : Option String) (members : List (Member ShaderType)) (span : Nat)
  deriving Repr, Inhabited

/-- The bytes of a value. -/
def BasicShape.size : BasicShape → Nat
  | scalar s => s.width
  | atomic s => s.width
  | vector n s => n * s.width
  | matrix columns rows s => columns * (if rows = 2 then 2 else 4) * s.width
  | _ => 0

namespace ArraySize

/-- The number of elements that count for the size of a type. -/
def count : ArraySize → Nat
  | constant n _ => n.toNat
  | pending => 0
  | dynamic => 1

/-- The number of elements that is known from the text. -/
def known : ArraySize → Nat
  | constant n _ => n.toNat
  | _ => 0

/-- A given length, unless it is zero. -/
def constant? (n : UInt32) : Option ArraySize :=
  if h : n ≠ 0 then some (constant n h) else none

end ArraySize

namespace ShaderType

/-- The name of the type. -/
def name? : ShaderType → Option String
  | basic n _ => n
  | array n .. => n
  | bindingArray n .. => n
  | struct n .. => n

/-- The bytes of a value; an array whose length is left to the buffer counts one element. -/
def size : ShaderType → Nat
  | basic _ shape => shape.size
  | array _ _ stride n => n.count * stride
  | bindingArray .. => 0
  | struct _ _ span => span

/-- The bytes between the elements at the end of a storage buffer. -/
def elementStride : ShaderType → Nat
  | array _ _ stride _ => stride
  | struct _ members _ =>
    match members.getLast? with
    | some ⟨_, _, array _ _ stride .dynamic⟩ => stride
    | _ => 0
  | _ => 0

end ShaderType

/-! ## Equality -/

namespace ShaderType

mutual

/-- Whether two types have the same names and parts. -/
def beq : ShaderType → ShaderType → Bool
  | basic name shape, basic name' shape' => name = name' && shape = shape'
  | array name base stride size, array name' base' stride' size' =>
    name = name' && beq base base' && stride = stride' && size = size'
  | bindingArray name base size, bindingArray name' base' size' =>
    name = name' && beq base base' && size = size'
  | struct name members span, struct name' members' span' =>
    name = name' && beqMembers members members' && span = span'
  | _, _ => false

/-- Whether two lists of members have the same names, offsets and types. -/
def beqMembers : List (Member ShaderType) → List (Member ShaderType) → Bool
  | [], [] => true
  | ⟨name, offset, type⟩ :: members, ⟨name', offset', type'⟩ :: members' =>
    name = name' && offset = offset' && beq type type' && beqMembers members members'
  | _, _ => false

end

mutual

theorem beq_iff : ∀ a b : ShaderType, beq a b = true ↔ a = b
  | basic .., b => by cases b <;> simp [beq]
  | array _ base _ _, b => by cases b <;> simp [beq, beq_iff base, and_assoc]
  | bindingArray _ base _, b => by cases b <;> simp [beq, beq_iff base, and_assoc]
  | struct _ members _, b => by cases b <;> simp [beq, beqMembers_iff members, and_assoc]

theorem beqMembers_iff : ∀ as bs : List (Member ShaderType), beqMembers as bs = true ↔ as = bs
  | [], bs => by cases bs <;> simp [beqMembers]
  | ⟨_, _, type⟩ :: as, bs => by
    cases bs <;> simp [beqMembers, beq_iff type, beqMembers_iff as, Member.ext_iff, and_assoc]

end

instance : DecidableEq ShaderType := fun a b => decidable_of_iff _ (beq_iff a b)

end ShaderType

/-! ## Descriptions -/

/-- Description of a number. -/
def Scalar.describe (s : Scalar) : String :=
  s!"Scalar \x7b kind: {s.kind.name}, width: {s.width} \x7d"

/-- Description of the number of components of a vector. -/
def vectorSizeName : Nat → String
  | 2 => "Bi"
  | 3 => "Tri"
  | _ => "Quad"

/-- Description of the length of an array. A length that is set when the pipeline is made is given
by the first constant of the module. -/
def ArraySize.describe : ArraySize → String
  | constant n _ => s!"Constant({n})"
  | pending => "Pending(Override([0]))"
  | dynamic => "Dynamic"

/-- Description of what a shader may do. -/
def StorageAccess.describe (access : StorageAccess) : String :=
  let granted := [(access.load, "LOAD"), (access.store, "STORE"), (access.atomic, "ATOMIC")].filter
    Prod.fst
  let names := if granted.isEmpty then "0x0" else " | ".intercalate (granted.map Prod.snd)
  s!"StorageAccess({names})"

/-- Description of the base dimension of an image. -/
def ImageDimension.describe : ImageDimension → String
  | d1 => "D1"
  | d2 => "D2"
  | d3 => "D3"
  | cube => "Cube"

/-- Description of how an image is accessed. -/
def ImageClass.describe : ImageClass → String
  | sampled kind multi => s!"Sampled \x7b kind: {kind.name}, multi: {multi} \x7d"
  | depth multi => s!"Depth \x7b multi: {multi} \x7d"
  | storage format access =>
    s!"Storage \x7b format: {format.name}, access: {access.describe} \x7d"

/-- Description of a type without types below it. -/
def BasicShape.describe : BasicShape → String
  | scalar s => s!"Scalar({s.describe})"
  | atomic s => s!"Atomic({s.describe})"
  | vector n s => s!"Vector \x7b size: {vectorSizeName n}, scalar: {s.describe} \x7d"
  | matrix columns rows s =>
    let size := s!"columns: {vectorSizeName columns}, rows: {vectorSizeName rows}"
    s!"Matrix \x7b {size}, scalar: {s.describe} \x7d"
  | image dimension arrayed imageClass =>
    let kind := s!"dim: {dimension.describe}, arrayed: {arrayed}"
    s!"Image \x7b {kind}, class: {imageClass.describe} \x7d"
  | sampler comparison => s!"Sampler \x7b comparison: {comparison} \x7d"
  | accelerationStructure => "AccelerationStructure"
  | rayQuery => "RayQuery"

/-- A character of a quoted name; marks that combine with the character before are not escaped. -/
def escapeQuoted (c : Char) : String :=
  if c = '"' then "\\\""
  else if c = '\\' then "\\\\"
  else if c = '\n' then "\\n"
  else if c = '\r' then "\\r"
  else if c = '\t' then "\\t"
  else if c.toNat = 0 then "\\0"
  else if c.toNat < 0x20 ∨ 0x7f ≤ c.toNat ∧ c.toNat < 0xa0 then
    "\\u\x7b" ++ String.ofList (Nat.toDigits 16 c.toNat) ++ "\x7d"
  else c.toString

/-- Description of a name that a member may have. -/
def describeName? : Option String → String
  | none => "None"
  | some name => "Some(\"" ++ String.join (name.toList.map escapeQuoted) ++ "\")"

namespace ShaderType

/-- A type below another one: its position among the types of the module, where none stands
twice. -/
def reference (types : List ShaderType) (type : ShaderType) : String :=
  s!"[{types.eraseDups.idxOf type}]"

/-- Description of a member of a struct. -/
def describeMember (types : List ShaderType) (m : Member ShaderType) : String :=
  let head := s!"name: {describeName? m.name}, ty: {reference types m.type}"
  s!"StructMember \x7b {head}, binding: None, offset: {m.offset} \x7d"

/-- Description of a type in a module with the given types, for those that no resource has. -/
def describe (types : List ShaderType) : ShaderType → String
  | basic _ shape => shape.describe
  | array _ base stride size =>
    s!"Array \x7b base: {reference types base}, size: {size.describe}, stride: {stride} \x7d"
  | bindingArray _ base size =>
    s!"BindingArray \x7b base: {reference types base}, size: {size.describe} \x7d"
  | struct _ members span =>
    let described := ", ".intercalate (members.map (describeMember types))
    s!"Struct \x7b members: [{described}], span: {span} \x7d"

end ShaderType

end ShaderBind
