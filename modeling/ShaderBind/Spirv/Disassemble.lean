import ShaderBind.Module.Layout
import ShaderBind.Spirv.Opcode

/-!
# SPIR-V as modules

The module of resources that SPIR-V words describe (`disassemble?`). Names, offsets and strides
come from the decorations, and an entry point uses the variables that its function forms pointers
to. An image with a format is a storage image, an array without a stride is an array
of bindings.
-/

namespace ShaderBind.Spirv

/-- The instructions of a module, if the words hold nothing else. -/
def allInstructions? (words : List UInt32) : Option (List Instruction) :=
  if words.length < headerSize ∨ words.head? ≠ some magic then none
  else
    let is := instructions words
    if (is.getLast?.map Instruction.stop).getD headerSize = words.length then some is else none

/-- Look-ups in the instructions of a module. -/
structure Listing where
  instructions : List Instruction

namespace Listing

/-- Whether an id is decorated. -/
def hasDecoration (l : Listing) (id kind : UInt32) : Bool :=
  l.instructions.any fun i => i.opcode = opDecorate && i.operands.take 2 = [id, kind]

/-- The number of an id's decoration; the last counts. -/
def decoration? (l : Listing) (id kind : UInt32) : Option UInt32 :=
  l.instructions.reverse.findSome? fun i =>
    match i.operands with
    | a :: b :: value :: _ =>
      if i.opcode = opDecorate ∧ a = id ∧ b = kind then some value else none
    | _ => none

/-- The number of a member's decoration. -/
def memberDecoration? (l : Listing) (id index kind : UInt32) : Option UInt32 :=
  l.instructions.findSome? fun i =>
    match i.operands with
    | a :: b :: c :: value :: _ =>
      if i.opcode = opMemberDecorate ∧ a = id ∧ b = index ∧ c = kind then some value else none
    | _ => none

/-- The name of an id. -/
def name? (l : Listing) (id : UInt32) : Option String :=
  l.instructions.findSome? fun i =>
    match i.operands with
    | a :: text => if i.opcode = opName ∧ a = id then readText? text else none
    | _ => none

/-- The name of a member. -/
def memberName? (l : Listing) (id index : UInt32) : Option String :=
  l.instructions.findSome? fun i =>
    match i.operands with
    | a :: b :: text => if i.opcode = opMemberName ∧ a = id ∧ b = index then readText? text else none
    | _ => none

/-- The user type of an id. -/
def userType? (l : Listing) (id : UInt32) : Option String :=
  l.instructions.findSome? fun i =>
    match i.operands with
    | a :: b :: text =>
      if i.opcode = opDecorateString ∧ a = id ∧ b = decUserType then readText? text else none
    | _ => none

/-- The instruction that defines a type. -/
def typeLine? (l : Listing) (id : UInt32) : Option Instruction :=
  l.instructions.find? fun i =>
    opTypeVoid ≤ i.opcode && i.operands.head? = some id &&
      (i.opcode ≤ opTypeFunction || i.opcode = opTypeRayQuery ||
        i.opcode = opTypeAccelerationStructure)

/-- The value of a constant. -/
def constant? (l : Listing) (id : UInt32) : Option UInt32 :=
  l.instructions.findSome? fun i =>
    match i.operands with
    | _ :: a :: value :: _ => if i.opcode = opConstant ∧ a = id then some value else none
    | _ => none

/-- How the variable of a type is accessed. -/
structure VariableFacts where
  access : StorageAccess
  comparison : Bool

/-- The number type that an id defines. -/
def scalar? (l : Listing) (id : UInt32) : Option Scalar := do
  let i ← l.typeLine? id
  match i.operands.tail with
  | [] => if i.opcode = opTypeBool then some ⟨.bool, 1⟩ else none
  | [width] => if i.opcode = opTypeFloat then some ⟨.float, width.toNat / 8⟩ else none
  | [width, signed] =>
    if i.opcode = opTypeInt then
      some ⟨if signed = 0 then .uint else .sint, width.toNat / 8⟩
    else none
  | _ => none

/-- The vector type that an id defines. -/
def vector? (l : Listing) (id : UInt32) : Option (Nat × Scalar) := do
  let i ← l.typeLine? id
  match i.operands.tail with
  | [component, n] =>
    if i.opcode = opTypeVector then (l.scalar? component).map fun s => (n.toNat, s) else none
  | _ => none

/-- The image type with the given operands. -/
def image? (l : Listing) (facts : VariableFacts) : List UInt32 → Option BasicShape
  | texel :: dimension :: depth :: arrayed :: multi :: _ :: format :: _ => do
    let texel ← l.scalar? texel
    let dimension ← dimensionOf? dimension
    let imageClass ←
      if depth = 1 then some (ImageClass.depth (multi ≠ 0))
      else if format ≠ 0 then (formatOf? format).map fun f => .storage f facts.access
      else some (.sampled texel.kind (multi ≠ 0))
    return .image dimension (arrayed ≠ 0) imageClass
  | _ => none

/-- The type without parts that an instruction defines. -/
def shape? (l : Listing) (facts : VariableFacts) (i : Instruction) : Option BasicShape :=
  if i.opcode = opTypeVector then
    (i.operands.head?.bind l.vector?).map fun (n, s) => .vector n s
  else if i.opcode = opTypeMatrix then
    match i.operands with
    | [_, column, columns] =>
      (l.vector? column).map fun (rows, s) => .matrix columns.toNat rows s
    | _ => none
  else if i.opcode = opTypeImage then l.image? facts i.operands.tail
  else if i.opcode = opTypeSampler then some (.sampler facts.comparison)
  else if i.opcode = opTypeAccelerationStructure then some .accelerationStructure
  else if i.opcode = opTypeRayQuery then some .rayQuery
  else (i.operands.head?.bind l.scalar?).map .scalar

/-- The array of a type; one without a stride is an array of bindings. -/
def arrayOf (l : Listing) (id : UInt32) (base : ShaderType) (size : ArraySize) : ShaderType :=
  match l.decoration? id decArrayStride with
  | some stride => .array none base stride.toNat size
  | none => .bindingArray none base size

/-- The type that an id defines. Types stand before those that refer to them, so that the number
of instructions is enough fuel. -/
def type? (l : Listing) (facts : VariableFacts) : (fuel : Nat) → (id : UInt32) → Option ShaderType
  | 0, _ => none
  | fuel + 1, id => do
    let i ← l.typeLine? id
    if i.opcode = opTypeArray then
      match i.operands with
      | [_, base, length] =>
        let base ← type? l facts fuel base
        let size ← ArraySize.constant? (← l.constant? length)
        return l.arrayOf id base size
      | _ => none
    else if i.opcode = opTypeRuntimeArray then
      match i.operands with
      | [_, base] =>
        let base ← type? l facts fuel base
        return l.arrayOf id base .dynamic
      | _ => none
    else if i.opcode = opTypeStruct then
      let members ← i.operands.tail.zipIdx.mapM fun (m, index) => do
        let index := UInt32.ofNat index
        let t ← type? l facts fuel m
        let offset ← l.memberDecoration? id index decOffset
        return (⟨l.memberName? id index, offset.toNat, t⟩ : Member ShaderType)
      return .ofPlaced (l.name? id) members
    else
      let shape ← l.shape? facts i
      return .basic none shape

/-- The type that a pointer type points to. -/
def pointee? (l : Listing) (pointer : UInt32) : Option UInt32 := do
  let i ← l.typeLine? pointer
  match i.operands with
  | [_, _, t] => if i.opcode = opTypePointer then some t else none
  | _ => none

/-- The variable that an instruction defines, with its id. -/
def global? (l : Listing) (i : Instruction) : Option (UInt32 × Global) :=
  match i.operands with
  | pointer :: id :: storage :: _ => do
    let access : StorageAccess :=
      { load := !l.hasDecoration id decNonReadable, store := !l.hasDecoration id decNonWritable }
    let facts : VariableFacts := ⟨access, l.userType? id = some comparisonUserType⟩
    let space ← addressSpace? access storage
    let t ← l.type? facts l.instructions.length (← l.pointee? pointer)
    let place := (l.decoration? id decBinding).map fun binding =>
      (⟨(l.decoration? id decDescriptorSet).getD 0, binding⟩ : Coord)
    return (id, ⟨l.name? id, space, t, place⟩)
  | _ => none

/-- The lines of the function with an id. -/
def body (l : Listing) (id : UInt32) : List Instruction :=
  let start := l.instructions.dropWhile fun i =>
    !(i.opcode = opFunction && i.operands[1]? = some id)
  start.takeWhile fun i => i.opcode != opFunctionEnd

/-- The ids that a function forms pointers to. -/
def usedIds (l : Listing) (id : UInt32) : List UInt32 :=
  (l.body id).filterMap fun i =>
    if i.opcode = opAccessChain then i.operands[2]? else none

/-- The entry point that an instruction declares. -/
def entryPoint? (l : Listing) (globals : List (UInt32 × Global)) (i : Instruction) :
    Option EntryPoint :=
  match i.operands with
  | model :: id :: text => do
    let stage ← stageOf? model
    let name ← readText? text
    let used := l.usedIds id
    let uses := globals.zipIdx.filterMap fun (g, index) =>
      if used.contains g.1 then some index else none
    return { name, stage, uses }
  | _ => none

end Listing

/-- The module that words describe. -/
def disassemble? (words : List UInt32) : Option ShaderModule := do
  let l : Listing := ⟨← allInstructions? words⟩
  let globals ← (l.instructions.filter fun i => i.opcode = opVariable).mapM l.global?
  let entryPoints ←
    (l.instructions.filter fun i => i.opcode = opEntryPoint).mapM (l.entryPoint? globals)
  return { globals := globals.map Prod.snd, entryPoints }

end ShaderBind.Spirv
