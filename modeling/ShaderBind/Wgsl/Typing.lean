import ShaderBind.Wgsl.Scope

/-!
# Types of WGSL expressions

The type of every expression of a function (`Frame.place`), if it has one. A place in memory is read
where a value is needed (`load`), and a number without a type gets one where it is used (`concrete?`).
On the way a trace is kept: the variables of the module that are used, and the steps that the function
takes (`Trace`). A variable counts as used when it is read, measured or sampled, not when it is only
named.
-/

namespace ShaderBind.Wgsl

/-- A step of a function. -/
inductive Step
  /-- Values are computed. -/
  | emit
  /-- Another function is called or a variable is stored to. -/
  | act
  | ret
  | block (steps : List Step)
  deriving Repr

/-- What a function has done so far. -/
structure Trace where
  /-- The steps, the last first. -/
  steps : List Step := []
  uses : List Nat := []
  pixelOnly : Bool := false

/-- A check that may fail. -/
abbrev Check := StateT Trace Option

/-- Notes that a value is computed. -/
def emit : Check Unit := modify fun t =>
  match t.steps with
  | .emit :: _ => t
  | steps => { t with steps := .emit :: steps }

/-- Notes that a function is called or a variable is stored to. -/
def act : Check Unit := modify fun t => { t with steps := .act :: t.steps }

/-- Notes that the variable that a value is a part of is used. -/
def use (v : Typed) : Check Unit := modify fun t => { t with uses := v.root.toList ++ t.uses }

/-! ## Values -/

/-- The numbers that a type is made of. -/
def leaf? : ShaderType → Option Scalar
  | .basic _ (.scalar s) => some s
  | .basic _ (.vector _ s) => some s
  | .basic _ (.matrix _ _ s) => some s
  | .array _ base _ _ => leaf? base
  | _ => none

/-- The type with other numbers. -/
def withLeaf (s : Scalar) : ShaderType → ShaderType
  | .basic n (.scalar _) => .basic n (.scalar s)
  | .basic n (.vector k _) => .basic n (.vector k s)
  | .basic n (.matrix c r _) => .basic n (.matrix c r s)
  | .array _ base _ size => .arrayOf (withLeaf s base) size
  | t => t

/-- Gives a type to numbers that have none; others stay what they are. -/
def convert? (s : Scalar) (v : Typed) : Option Typed :=
  match leaf? v.type with
  | none => some v
  | some known =>
    if !isAbstract known then some v
    else if converts known s && (!isInteger s || v.value.all (intFits s ·)) then
      some { v with type := withLeaf s v.type, value := if isInteger s then v.value else none }
    else none

/-- Gives a type to numbers that have none: integers are signed. -/
def concrete? (v : Typed) : Option Typed :=
  match leaf? v.type with
  | some ⟨.abstractInt, _⟩ => convert? i32 v
  | some ⟨.abstractFloat, _⟩ => convert? f32 v
  | _ => some v

/-- A value as one of a given type. -/
def coerce? (goal : ShaderType) (v : Typed) : Option Typed := do
  let v ← match leaf? goal with
    | some s => convert? s v
    | none => some v
  if v.type.same goal && !v.isPointer then some v else none

/-- Reads a place: the size of what is read has to be known. -/
def load (v : Typed) : Check Typed := do
  if v.isPlace then
    let f ← v.type.facts?
    if f.data && f.sized then
      use v
      emit
      match v.type with
      | .basic n (.atomic s) => return { type := .basic n (.scalar s) }
      | t => return { type := t }
    else failure
  else return v

/-! ## Parts -/

/-- The components that letters of a member stand for. -/
def components? (field : String) : Option (List Nat) :=
  let letter? (c : Char) : Option Nat :=
    match c with
    | 'x' | 'r' => some 0
    | 'y' | 'g' => some 1
    | 'z' | 'b' => some 2
    | 'w' | 'a' => some 3
    | _ => none
  if field.length ≤ 4 then field.toList.mapM letter? else none

/-- A pointer is a place when a part of it is taken. -/
def throughPointer (v : Typed) : Typed :=
  if v.isPointer then { v with isPointer := false, isPlace := true } else v

/-- A part of a value with a type of its own. -/
def part (v : Typed) (type : ShaderType) : Check Typed := do
  emit
  return { v with type, value := none }

/-- A member of a struct, or components of a vector. -/
def member (v : Typed) (field : String) : Check Typed := do
  let v := throughPointer v
  match v.type with
  | .struct _ members _ =>
    let m ← members.find? fun m => m.name = some field
    part v m.type
  | .basic _ (.vector n s) =>
    let cs ← components? field
    if !cs.all (· < n) then failure
    match cs with
    | [_] => part v (scalarType s)
    | _ =>
      let v ← load v
      part v (.basic none (.vector cs.length s))
  | _ => failure

/-- The type of the elements of a type, and how many there are, if that is known. -/
def element? : ShaderType → Option (ShaderType × Option Nat)
  | .basic _ (.vector n s) => some (scalarType s, some n)
  | .basic _ (.matrix columns rows s) => some (.basic none (.vector rows s), some columns)
  | .array _ base _ (.constant n _) => some (base, some n.toNat)
  | .array _ base _ _ => some (base, none)
  | .bindingArray _ base _ => some (base, none)
  | _ => none

/-- An element of a value. A position that is known has to be inside. -/
def element (v : Typed) (position : Typed) : Check Typed := do
  let v := throughPointer v
  let position ← concrete? position
  match position.type with
  | .basic _ (.scalar s) => if !isInteger s then failure
  | _ => failure
  match v.type, position.value with
  | .struct _ members _, some n =>
    let m ← if 0 ≤ n then members[n.toNat]? else none
    part v m.type
  | t, value =>
    let (base, length) ← element? t
    let inside := value.all fun (n : Int) => 0 ≤ n && length.all fun (m : Nat) => n < (m : Int)
    if inside then part { v with isConst := v.isConst && position.isConst } base else failure

/-! ## Operators -/

/-- A value and the mark before it. -/
def unaryOperation (op : Char) (v : Typed) (value : Option Int) : Check Typed := do
  let s ← leaf? v.type
  let fits := match op, s.kind with
    | '-', k => k != .uint && k != .bool
    | '!', k => k == .bool
    | '~', k => k == .sint || k == .uint || k == .abstractInt
    | _, _ => false
  let isNumber := match v.type with
    | .basic _ (.scalar _) => true
    | .basic _ (.vector ..) => true
    | _ => false
  if !fits || !isNumber || v.isPointer then failure
  if !v.isConst then emit
  return { type := v.type, value, isConst := v.isConst }

/-- Two values and the mark between them; a number goes along with every component of a vector. -/
def binaryOperation (a b : Typed) (value : Option Int) : Check Typed := do
  let s ← commonScalar? (← leaf? a.type) (← leaf? b.type)
  if s.kind == .bool || a.isPointer || b.isPointer then failure
  let a ← convert? s a
  let b ← convert? s b
  let type ← match a.type, b.type with
    | .basic _ (.scalar _), .basic _ (.scalar _) => some a.type
    | .basic _ (.scalar _), .basic _ (.vector ..) => some b.type
    | .basic _ (.vector ..), .basic _ (.scalar _) => some a.type
    | .basic _ (.vector n _), .basic _ (.vector m _) => if n = m then some a.type else none
    | _, _ => none
  let isConst := a.isConst && b.isConst
  if !isConst then emit
  return { type, value, isConst }

/-! ## Constructors -/

/-- A value that is made in one piece. -/
def made (type : ShaderType) (parts : List Typed) : Check Typed := do
  emit
  return { type, isConst := parts.all Typed.isConst }

/-- A number made from a number. -/
def scalarFrom (s : Scalar) (v : Typed) : Check Typed :=
  match v.type with
  | .basic _ (.scalar _) => do
    if !v.isConst then emit
    let value := if isInteger s then v.value else none
    if value.all (intFits s ·) then return { type := scalarType s, value, isConst := v.isConst }
    else failure
  | _ => failure

/-- The number of components that a value brings to a vector of numbers of a type. -/
def componentCount? (s : Scalar) (v : Typed) : Option Nat :=
  match v.type with
  | .basic _ (.scalar t) => if s = t then some 1 else none
  | .basic _ (.vector n t) => if s = t then some n else none
  | _ => none

/-- A vector made from its components. -/
def vectorFrom (n : Nat) (s : Scalar) (vs : List Typed) : Check Typed := do
  let vs ← vs.mapM fun v => (convert? s v : Option Typed)
  let counts ← vs.mapM fun v => (componentCount? s v : Option Nat)
  if counts.foldl (· + ·) 0 = n then made (.basic none (.vector n s)) vs else failure

/-- A vector made from one value: a number for every component, or a vector of the same length. -/
def vectorOf (n : Nat) (s : Scalar) (v : Typed) : Check Typed := do
  match v.type with
  | .basic _ (.scalar _) =>
    let v ← convert? s v
    let s ← leaf? v.type
    made (.basic none (.vector n s)) [v]
  | .basic _ (.vector m _) => if n = m then made (.basic none (.vector n s)) [v] else failure
  | _ => failure

/-- A matrix made from its columns, from its numbers or from another matrix. -/
def matrixFrom (columns rows : Nat) (s : Scalar) (vs : List Typed) : Check Typed := do
  let vs ← vs.mapM fun v => (convert? s v : Option Typed)
  let type := ShaderType.basic none (.matrix columns rows s)
  let isNumber (v : Typed) : Bool := v.type.same (scalarType s)
  let isColumn (v : Typed) : Bool := v.type.same (.basic none (.vector rows s))
  let isMatrix (v : Typed) : Bool :=
    match v.type with
    | .basic _ (.matrix c r _) => c = columns && r = rows
    | _ => false
  if (vs.length = columns * rows && vs.all isNumber) || (vs.length = columns && vs.all isColumn) ||
      (vs.length = 1 && vs.all isMatrix) then made type vs
  else failure

/-- A value of a type made from parts of given types. -/
def composite (type : ShaderType) (parts : List ShaderType) (vs : List Typed) : Check Typed := do
  if parts.length ≠ vs.length then failure
  let vs ← (parts.zip vs).mapM fun (part, v) => (coerce? part v : Option Typed)
  made type vs

/-- A value of a type made from arguments; without any, all of its numbers are zero. -/
def construct (type : ShaderType) (vs : List Typed) : Check Typed := do
  let f ← type.facts?
  if !f.constructible || vs.any Typed.isPointer then failure
  match type, vs with
  | t, [] => return { type := t, isConst := true }
  | .basic _ (.scalar s), [v] => scalarFrom s v
  | .basic _ (.vector n s), [v] => vectorOf n s v
  | .basic _ (.vector n s), vs => vectorFrom n s vs
  | .basic _ (.matrix columns rows s), vs => matrixFrom columns rows s vs
  | .array _ base _ (.constant n _), vs =>
    if n.toNat = vs.length then composite type (vs.map fun _ => base) vs else failure
  | .struct _ members _, vs => composite type (members.map Member.type) vs
  | _, _ => failure

/-- The type of number that all of the arguments can have. -/
def commonLeaf? (vs : List Typed) : Option Scalar := do
  match ← vs.mapM fun v => leaf? v.type with
  | [] => none
  | s :: ss => ss.foldlM commonScalar? s

/-- A vector, matrix or array whose numbers are of the type of the arguments; nothing if the word is
not that of such a type. -/
def constructOpen? (name : String) (vs : List Typed) : Option (Check Typed) :=
  match compositeOf? name.toList f32 with
  | some (.vector n _) => some do
    let s ← commonLeaf? vs
    match vs with
    | [v] => vectorOf n s v
    | vs => vectorFrom n s vs
  | some (.matrix columns rows _) => some do
    let s ← commonLeaf? vs
    matrixFrom columns rows (if s = abstractInt then abstractFloat else s) vs
  | _ =>
    if name = "array" then some do
      let s ← commonLeaf? vs
      let vs ← vs.mapM fun v => (convert? s v : Option Typed)
      match vs with
      | [] => failure
      | v :: _ =>
        let type := ShaderType.arrayOf v.type (← ArraySize.constant? (UInt32.ofNat vs.length))
        composite type (vs.map fun _ => v.type) vs
    else none

/-! ## Functions of the language -/

/-- The image that a value is. -/
def image? (v : Typed) : Option (ImageDimension × Bool × ImageClass) :=
  match v.type with
  | .basic _ (.image dimension arrayed c) => if v.isHandle then some (dimension, arrayed, c) else none
  | _ => none

/-- Whether images of a class have several levels. -/
def hasLevels : ImageClass → Bool
  | .sampled _ multi => !multi
  | .depth multi => !multi
  | .storage .. => false

/-- Whether images of a class have several samples for a texel. -/
def hasSamples : ImageClass → Bool
  | .sampled _ multi => multi
  | .depth multi => multi
  | .storage .. => false

/-- Whether a value is an integer of the given or any type. -/
def isIntegerValue (v : Typed) : Bool :=
  match v.type with
  | .basic _ (.scalar s) => isInteger s
  | _ => false

/-- Whether a value is a number with a fraction. -/
def isFloatValue (v : Typed) : Bool :=
  match v.type with
  | .basic _ (.scalar s) => s.kind == .float
  | _ => false

/-- The type of coordinates of images, of unsigned integers. -/
def sizeType : ImageDimension → ShaderType
  | .d1 => scalarType u32
  | .d2 | .cube => .basic none (.vector 2 u32)
  | .d3 => .basic none (.vector 3 u32)

/-- A question about an image. -/
def imageQuery (v : Typed) (type : ShaderType) : Check Typed := do
  use v
  emit
  return { type }

/-- The size of an image, or of one of its levels. -/
def textureDimensions (vs : List Typed) : Check Typed := do
  match vs with
  | [v] =>
    let (dimension, _) ← image? v
    imageQuery v (sizeType dimension)
  | [v, level] =>
    let (dimension, _, c) ← image? v
    let level ← concrete? level
    if hasLevels c && isIntegerValue level then imageQuery v (sizeType dimension) else failure
  | _ => failure

/-- Whether coordinates suit the dimension of an image. -/
def coordinatesFit (dimension : ImageDimension) (v : Typed) : Bool :=
  match dimension, v.type with
  | .d1, .basic _ (.scalar s) => s.kind == .float
  | .d2, .basic _ (.vector 2 s) => s.kind == .float
  | .d3, .basic _ (.vector 3 s) => s.kind == .float
  | .cube, .basic _ (.vector 3 s) => s.kind == .float
  | _, _ => false

/-- Whether a value is a sampler that compares, if it is a sampler. -/
def comparison? (v : Typed) : Option Bool :=
  match v.type with
  | .basic _ (.sampler comparison) => if v.isHandle then some comparison else none
  | _ => none

/-- Which level a sampling function takes. -/
inductive Level
  /-- The one that suits the distance, which only the pixel stage knows. -/
  | auto
  | zero
  | exact
  deriving DecidableEq

/-- A sampling function: whether it compares, and which level it takes. -/
structure Sampling where
  compares : Bool
  level : Level

/-- The sampling functions. -/
def sampling? : String → Option Sampling
  | "textureSample" => some ⟨false, .auto⟩
  | "textureSampleLevel" => some ⟨false, .exact⟩
  | "textureSampleCompare" => some ⟨true, .auto⟩
  | "textureSampleCompareLevel" => some ⟨true, .zero⟩
  | _ => none

/-- Whether an image of a class can be sampled. -/
def isSampled (compares : Bool) : ImageClass → Bool
  | .sampled .float false => !compares
  | .depth false => true
  | _ => false

/-- Whether the last argument of a sampling function is right: the value that is compared with, or the
level, which is an integer for depths. -/
def lastArgumentFits (s : Sampling) (c : ImageClass) : List Typed → Bool
  | [v] =>
    if s.compares then isFloatValue v
    else if s.level = .exact then
      match c with
      | .depth _ => isIntegerValue v
      | _ => isFloatValue v
    else false
  | [] => !s.compares && s.level != .exact
  | _ => false

/-- A sample of an image. -/
def sample (s : Sampling) (vs : List Typed) : Check Typed := do
  match vs with
  | v :: sampler :: coordinates :: rest =>
    let (dimension, arrayed, c) ← image? v
    let compares ← comparison? sampler
    let coordinates ← convert? f32 coordinates
    let rest ← rest.mapM fun v => (concrete? v : Option Typed)
    let rest ← match arrayed, rest with
      | true, layer :: rest => if isIntegerValue layer then some rest else none
      | true, [] => none
      | false, rest => some rest
    if compares = s.compares && isSampled s.compares c && coordinatesFit dimension coordinates &&
        lastArgumentFits s c rest then
      use v
      use sampler
      if s.level = .auto then modify fun t => { t with pixelOnly := true }
      let isDepth := match c with
        | .depth _ => true
        | _ => false
      imageQuery v (if isDepth then scalarType f32 else .basic none (.vector 4 f32))
    else failure
  | _ => failure

/-- The number of elements that a buffer brings to an array. -/
def arrayLength (vs : List Typed) : Check Typed := do
  match vs with
  | [v] =>
    match v.type with
    | .array _ _ _ .dynamic => if v.isPointer then imageQuery v (scalarType u32) else failure
    | _ => failure
  | _ => failure

/-- A number that an image has. -/
def imageNumber (good : Bool → ImageClass → Bool) (vs : List Typed) : Check Typed := do
  match vs with
  | [v] =>
    let (_, arrayed, c) ← image? v
    if good arrayed c then imageQuery v (scalarType u32) else failure
  | _ => failure

/-- A call of a function of the language. -/
def builtinCall (name : String) (vs : List Typed) : Check Typed :=
  match sampling? name with
  | some s => sample s vs
  | none =>
    match name with
    | "arrayLength" => arrayLength vs
    | "textureDimensions" => textureDimensions vs
    | "textureNumLayers" => imageNumber (fun arrayed _ => arrayed) vs
    | "textureNumLevels" => imageNumber (fun _ c => hasLevels c) vs
    | "textureNumSamples" => imageNumber (fun _ c => hasSamples c) vs
    | _ => failure

/-- A call of a function of the module; nothing comes back if it has no result. -/
def functionCall (s : Signature) (vs : List Typed) : Check (Option Typed) := do
  if vs.length ≠ s.params.length then failure
  let vs ← (s.params.zip vs).mapM fun (t, v) => (coerce? t v : Option Typed)
  vs.forM use
  act
  modify fun t =>
    { t with uses := s.uses ++ t.uses, pixelOnly := t.pixelOnly || s.pixelOnly }
  return s.result.map fun t => { type := t }

/-! ## Expressions -/

/-- What names stand for inside a function. -/
structure Frame where
  scope : Scope
  /-- The names declared in the function, by block, the innermost first. -/
  locals : List (List (String × Typed)) := []
  result : Option ShaderType := none

namespace Frame

/-- A local name. -/
def local? (f : Frame) (name : String) : Option Typed :=
  f.locals.findSome? (·.lookup name)

/-- What a name stands for as a value or a place. -/
def named? (f : Frame) (name : String) : Option Typed :=
  match f.local? name with
  | some v => some v
  | none =>
    match f.scope.find? name with
    | some (.const v) => some v
    | some (.var index g) =>
      if g.space = .handle then some { type := g.type, root := some index, isHandle := true }
      else some { type := g.type, isPlace := true, root := some index }
    | _ => none

/-- A call of what has a name; nothing comes back from a function without a result. -/
def callNamed (f : Frame) (name : String) (vs : List Typed) : Check (Option Typed) := do
  match f.scope.find? name with
  | some (.type t) => return some (← construct t vs)
  | some (.fn s) => functionCall s vs
  | some _ => failure
  | none => return some (← builtinCall name vs)

/-- A call in an expression, where the words for types come before the names of the module. -/
def call (f : Frame) (callee : Expr) (vs : List Typed) : Check (Option Typed) := do
  match callee with
  | .name s =>
    match constructOpen? s vs with
    | some c => return some (← c)
    | none =>
      match wordType? s with
      | some shape => return some (← construct (.basic none shape) vs)
      | none => f.callNamed s vs
  | .template .. =>
    let t ← f.scope.type? callee
    return some (← construct t vs)
  | _ => failure

mutual

/-- The type of an expression, which may be a place. -/
def place (f : Frame) : Expr → Check Typed
  | .literal l => return {
      type := scalarType l.scalar
      value := l.value.map fun (n : Nat) => (n : Int)
      isConst := true }
  | .truth _ => return { type := scalarType boolean, isConst := true }
  | .name s => f.named? s
  | .template .. => failure
  | .call callee arguments => do
    let vs ← values f arguments
    match ← f.call callee vs with
    | some v => return v
    | none => failure
  | .member base field => do
    let v ← place f base
    member v field
  | .index base position => do
    let v ← place f base
    let p ← place f position
    element v (← load p)
  | .unary '&' e => do
    let v ← place f e
    if v.isPlace then return { v with isPlace := false, isPointer := true } else failure
  | .unary '*' e => do
    let v ← load (← place f e)
    if v.isPointer then return { v with isPlace := true, isPointer := false } else failure
  | .unary op e => do
    let v ← load (← place f e)
    unaryOperation op v ((f.scope.constInt? (.unary op e)).map Prod.snd)
  | .binary op a b => do
    let v ← load (← place f a)
    let w ← load (← place f b)
    binaryOperation v w ((f.scope.constInt? (.binary op a b)).map Prod.snd)

/-- The values of expressions. -/
def values (f : Frame) : List Expr → Check (List Typed)
  | [] => return []
  | e :: es => do
    let v ← load (← place f e)
    return v :: (← values f es)

end

/-- The value of an expression; numbers may still have no type. -/
def value (f : Frame) (e : Expr) : Check Typed := do load (← f.place e)

end Frame

end ShaderBind.Wgsl
