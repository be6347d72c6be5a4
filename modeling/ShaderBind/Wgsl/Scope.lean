import ShaderBind.Module.Validity
import ShaderBind.Wgsl.Syntax

/-!
# Names and types of WGSL

What the names of a module stand for (`Scope`), and the types that expressions write among them
(`Scope.type?`). The lengths of arrays and the places of variables are integers that can be computed
from the text alone (`Scope.constInt?`); an integer without a type is a signed one where a type is
needed (`Scope.word?`).
-/

namespace ShaderBind.Wgsl

/-- What is known of the value of an expression. -/
structure Typed where
  type : ShaderType
  /-- Its value, if it is an integer that is known from the text. -/
  value : Option Int := none
  /-- Whether the value is known from the text. -/
  isConst : Bool := false
  /-- Whether it is a place that has to be read to get a value. -/
  isPlace : Bool := false
  /-- Whether the value is a pointer to the type. -/
  isPointer : Bool := false
  /-- The variable of the module that it is a part of. -/
  root : Option Nat := none
  /-- Whether it is itself a handle, or an element of an array of handles. -/
  isHandle : Bool := false
  deriving Repr

/-- What is known of a function. -/
structure Signature where
  params : List ShaderType
  result : Option ShaderType
  mustUse : Bool
  /-- The variables that it uses, itself or through others. -/
  uses : List Nat
  /-- Whether it can run in the pixel stage only. -/
  pixelOnly : Bool
  deriving Repr

/-- What a name stands for. -/
inductive Entity
  | type (t : ShaderType)
  | const (v : Typed)
  | var (index : Nat) (g : Global)
  | fn (s : Signature)
  | entryPoint
  deriving Repr

/-- Whether what comes back from a call may not be dropped. -/
def Entity.mustUse : Entity → Bool
  | fn s => s.mustUse
  | _ => false

/-- What the names of a module stand for. -/
structure Scope where
  entities : List (String × Entity) := []
  /-- How the members of structs pass between stages. -/
  bindings : List (String × List (Option IoBinding)) := []

/-- The type of numbers. -/
def scalarType (s : Scalar) : ShaderType := .basic none (.scalar s)

/-! ## Words for types -/

/-- A number type. -/
def scalarOf? : String → Option Scalar
  | "f32" => some f32
  | "i32" => some i32
  | "u32" => some u32
  | "bool" => some boolean
  | "f64" => some ⟨.float, 8⟩
  | "i64" => some ⟨.sint, 8⟩
  | "u64" => some ⟨.uint, 8⟩
  | _ => none

/-- The digit of a dimension from two to four. -/
def sizeOf? : Char → Option Nat
  | '2' => some 2
  | '3' => some 3
  | '4' => some 4
  | _ => none

/-- The number type that a letter at the end of a word gives. -/
def letterScalar? : Char → Option Scalar
  | 'f' => some f32
  | 'i' => some i32
  | 'u' => some u32
  | _ => none

/-- A vector or matrix type of the given components. -/
def compositeOf? (name : List Char) (s : Scalar) : Option BasicShape :=
  match name with
  | ['v', 'e', 'c', n] => (sizeOf? n).map fun n => .vector n s
  | ['m', 'a', 't', columns, 'x', rows] => do
    return .matrix (← sizeOf? columns) (← sizeOf? rows) s
  | _ => none

/-- A vector or matrix type in one word; the components of a matrix have fractions. -/
def shortComposite? (name : String) : Option BasicShape := do
  let s ← letterScalar? (← name.toList.getLast?)
  match ← compositeOf? name.toList.dropLast s with
  | .matrix columns rows s => if s = f32 then some (.matrix columns rows s) else none
  | shape => some shape

/-- A texture whose samples have a type. -/
def sampledOf? (name : String) (kind : ScalarKind) : Option BasicShape :=
  match name with
  | "texture_1d" => some (.image .d1 false (.sampled kind false))
  | "texture_1d_array" => some (.image .d1 true (.sampled kind false))
  | "texture_2d" => some (.image .d2 false (.sampled kind false))
  | "texture_2d_array" => some (.image .d2 true (.sampled kind false))
  | "texture_3d" => some (.image .d3 false (.sampled kind false))
  | "texture_cube" => some (.image .cube false (.sampled kind false))
  | "texture_cube_array" => some (.image .cube true (.sampled kind false))
  | "texture_multisampled_2d" => some (.image .d2 false (.sampled kind true))
  | "texture_multisampled_2d_array" => some (.image .d2 true (.sampled kind true))
  | _ => none

/-- A handle type without arguments. -/
def handleOf? : String → Option BasicShape
  | "texture_depth_2d" => some (.image .d2 false (.depth false))
  | "texture_depth_2d_array" => some (.image .d2 true (.depth false))
  | "texture_depth_cube" => some (.image .cube false (.depth false))
  | "texture_depth_cube_array" => some (.image .cube true (.depth false))
  | "texture_depth_multisampled_2d" => some (.image .d2 false (.depth true))
  | "sampler" => some (.sampler false)
  | "sampler_comparison" => some (.sampler true)
  | "acceleration_structure" => some .accelerationStructure
  | "ray_query" => some .rayQuery
  | _ => none

/-- The dimension of a storage texture. -/
def storageDimension? : String → Option (ImageDimension × Bool)
  | "texture_storage_1d" => some (.d1, false)
  | "texture_storage_1d_array" => some (.d1, true)
  | "texture_storage_2d" => some (.d2, false)
  | "texture_storage_2d_array" => some (.d2, true)
  | "texture_storage_3d" => some (.d3, false)
  | _ => none

/-- The access to a storage variable. -/
def accessOf? : String → Option StorageAccess
  | "read" => some { load := true }
  | "write" => some { store := true }
  | "read_write" => some { load := true, store := true }
  | _ => none

/-- A type whose arguments are words. -/
def wordTemplate? (name : String) : List String → Option BasicShape
  | ["f32"] => sampledOf? name .float
  | ["i32"] => sampledOf? name .sint
  | ["u32"] => sampledOf? name .uint
  | [format, access] => do
    let (dimension, arrayed) ← storageDimension? name
    let format ← StorageFormat.ofWord? format
    let access ← if access = "atomic" then some { load := true, store := true, atomic := true }
      else accessOf? access
    return .image dimension arrayed (.storage format access)
  | _ => none

/-- A type in one word. -/
def wordType? (name : String) : Option BasicShape :=
  match scalarOf? name with
  | some s => some (.scalar s)
  | none => (shortComposite? name).or (handleOf? name)

/-! ## Integers -/

/-- Whether an integer is one of a type. -/
def intFits (s : Scalar) (n : Int) : Bool :=
  let bound : Int := intBound s
  (if s.kind == .uint then 0 else -bound) ≤ n && n < bound

/-- Whether a type has integers. -/
def isInteger (s : Scalar) : Bool :=
  s.kind == .sint || s.kind == .uint || s.kind == .abstractInt

/-- Whether a number has not been given a type. -/
def isAbstract (s : Scalar) : Bool :=
  s.kind == .abstractInt || s.kind == .abstractFloat

/-- Whether a number without a type can be one of a type. -/
def converts (a b : Scalar) : Bool :=
  match a.kind, b.kind with
  | .abstractInt, k => k != .bool
  | .abstractFloat, k => k == .float || k == .abstractFloat
  | _, _ => false

/-- The type that two numbers can both have. -/
def commonScalar? (a b : Scalar) : Option Scalar :=
  if a = b then some a
  else if converts a b then some b
  else if converts b a then some a
  else none

/-- The result of an operation on integers, which rounds toward zero. -/
def intOperation? (op : Char) (a b : Int) : Option Int :=
  match op with
  | '+' => some (a + b)
  | '-' => some (a - b)
  | '*' => some (a * b)
  | '/' => if b = 0 then none else some (a.tdiv b)
  | '%' => if b = 0 then none else some (a.tmod b)
  | _ => none

namespace Scope

/-- What a name stands for. -/
def find? (scope : Scope) (name : String) : Option Entity := scope.entities.lookup name

/-- The integer that an expression computes, with its type, if it can be known from the text. -/
def constInt? (scope : Scope) : Expr → Option (Scalar × Int)
  | .literal ⟨s, some n⟩ => some (s, n)
  | .name c =>
    match scope.find? c with
    | some (.const v) =>
      match v.type, v.value with
      | .basic _ (.scalar s), some n => some (s, n)
      | _, _ => none
    | _ => none
  | .unary '-' e => do
    let (s, n) ← constInt? scope e
    if s.kind != .uint && intFits s (-n) then some (s, -n) else none
  | .binary op a b => do
    let (s, n) ← constInt? scope a
    let (t, m) ← constInt? scope b
    let s ← commonScalar? s t
    let n ← intOperation? op n m
    if intFits s n then some (s, n) else none
  | _ => none

/-- The word that an expression computes. -/
def word? (scope : Scope) (e : Expr) : Option UInt32 := do
  let (s, n) ← scope.constInt? e
  let s := if s = abstractInt then i32 else s
  if 0 ≤ n && intFits s n && (s = i32 || s = u32) then some (UInt32.ofNat n.toNat) else none

/-- The length that an expression computes. -/
def length? (scope : Scope) (e : Expr) : Option ArraySize := do
  ArraySize.constant? (← scope.word? e)

/-! ## Types -/

/-- The type that an expression writes. -/
def type? (scope : Scope) : Expr → Option ShaderType
  | .name s =>
    match wordType? s with
    | some shape => some (.basic none shape)
    | none =>
      match scope.find? s with
      | some (.type t) => some t
      | _ => none
  | .template "array" [base] => (type? scope base).map fun base => .arrayOf base .dynamic
  | .template "array" [base, n] => do
    return .arrayOf (← type? scope base) (← scope.length? n)
  | .template "binding_array" [base] =>
    (type? scope base).map fun base => .bindingArray none base .dynamic
  | .template "binding_array" [base, n] => do
    return .bindingArray none (← type? scope base) (← scope.length? n)
  | .template "atomic" [.name s] => (scalarOf? s).map fun s => .basic none (.atomic s)
  | .template s [.name format, .name access] => (wordTemplate? s [format, access]).map (.basic none)
  | .template s [component] =>
    match type? scope component with
    | some (.basic _ (.scalar c)) =>
      match compositeOf? s.toList c, component with
      | some shape, _ => some (.basic none shape)
      | none, .name word => (wordTemplate? s [word]).map (.basic none)
      | none, _ => none
    | _ => none
  | _ => none

/-- The type that an expression writes, if there is such a type. -/
def validType? (scope : Scope) (e : Expr) : Option ShaderType :=
  (scope.type? e).filter fun t => t.facts?.isSome

/-! ## Structs -/

/-- The alignment of a member: that of its type, or a greater power of two. -/
def memberAlign? (scope : Scope) (type : ShaderType) : Option Expr → Option Nat
  | none => some type.alignment
  | some e => do
    let n := (← scope.word? e).toNat
    if type.alignment ≤ n ∧ n &&& (n - 1) = 0 then some n else none

/-- The size of a member: that of its type, or a greater one. -/
def memberSize? (scope : Scope) (type : ShaderType) : Option Expr → Option Nat
  | none => some type.size
  | some e => do
    let n := (← scope.word? e).toNat
    if type.size ≤ n then some n else none

/-- The members that follow each other from `start` on, where they end, and the greatest alignment. -/
def placeMembers? (scope : Scope) (start : Nat) :
    List MemberDecl → Option (List (Member ShaderType) × Nat × Nat)
  | [] => some ([], start, 1)
  | m :: ms => do
    let type ← scope.type? m.type
    let align ← scope.memberAlign? type m.align
    let size ← scope.memberSize? type m.size
    let offset := roundUp align start
    let (members, stop, strictest) ← placeMembers? scope (offset + size) ms
    return (⟨some m.name, offset, type⟩ :: members, stop, max align strictest)

/-- The type of a struct. -/
def struct? (scope : Scope) (d : StructDecl) : Option ShaderType := do
  let (members, stop, align) ← scope.placeMembers? 0 d.members
  let type := ShaderType.struct (some d.name) members (roundUp align stop)
  if type.facts?.isSome then some type else none

end Scope

end ShaderBind.Wgsl
