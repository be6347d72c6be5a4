import ShaderBind.Artifact
import ShaderBind.Module.Layout
import ShaderBind.Spirv.Opcode

/-!
# Modules as SPIR-V

A module of resources written as SPIR-V words (`assemble`). Types without parts are written once.
The type of a buffer has to be a struct: any other, and a struct that can be copied, becomes the
one member of a struct without a name (`wrapped`). An entry point forms a pointer to every variable
it uses. Names go along for debugging, and a sampler that compares has a user type, since samplers
are all of one type.
-/

namespace ShaderBind.Spirv

/-- An instruction to be written. -/
structure Line where
  opcode : Nat
  operands : List UInt32
  deriving DecidableEq, Repr

/-- A module under construction: the lines of its sections and the first unused id. -/
structure Builder where
  bound : UInt32 := 1
  entryPoints : List Line := []
  executionModes : List Line := []
  names : List Line := []
  decorations : List Line := []
  types : List Line := []
  functions : List Line := []

/-- Construction of a module. -/
abbrev Build := StateM Builder

namespace Build

/-- A new id. -/
def fresh : Build UInt32 :=
  modifyGet fun b => (b.bound, { b with bound := b.bound + 1 })

/-- Names an id. -/
def name (id : UInt32) (text : Option String) : Build Unit :=
  match text with
  | none => pure ()
  | some text => modify fun b => { b with names := b.names ++ [⟨opName, id :: writeText text⟩] }

/-- Names a member of a struct. -/
def memberName (id index : UInt32) (text : Option String) : Build Unit :=
  match text with
  | none => pure ()
  | some text =>
    modify fun b => { b with names := b.names ++ [⟨opMemberName, id :: index :: writeText text⟩] }

/-- Decorates an id. -/
def decorate (opcode : Nat) (operands : List UInt32) : Build Unit :=
  modify fun b => { b with decorations := b.decorations ++ [⟨opcode, operands⟩] }

/-- Adds a function's line. -/
def functionLine (opcode : Nat) (operands : List UInt32) : Build Unit :=
  modify fun b => { b with functions := b.functions ++ [⟨opcode, operands⟩] }

/-- A new type. -/
def newType (opcode : Nat) (operands : List UInt32) : Build UInt32 := do
  let id ← fresh
  modify fun b => { b with types := b.types ++ [⟨opcode, id :: operands⟩] }
  return id

/-- A type that is written once. -/
def sharedType (opcode : Nat) (operands : List UInt32) : Build UInt32 := do
  let b ← get
  match b.types.find? fun l => l.opcode = opcode && l.operands.tail = operands with
  | some ⟨_, id :: _⟩ => return id
  | _ => newType opcode operands

/-- A number. -/
def scalarType (s : Scalar) : Build UInt32 :=
  match s.kind with
  | .bool => sharedType opTypeBool []
  | .sint => sharedType opTypeInt [UInt32.ofNat (8 * s.width), 1]
  | .uint => sharedType opTypeInt [UInt32.ofNat (8 * s.width), 0]
  | _ => sharedType opTypeFloat [UInt32.ofNat (8 * s.width)]

/-- The number that a sample type reads. -/
def texelScalar : SampleType → Scalar
  | .uint => ⟨.uint, 4⟩
  | .sint => ⟨.sint, 4⟩
  | _ => ⟨.float, 4⟩

/-- One for what holds. -/
def flag (b : Bool) : UInt32 := if b then 1 else 0

/-- A type without parts. -/
def shapeType : BasicShape → Build UInt32
  | .scalar s => scalarType s
  | .atomic s => scalarType s
  | .vector n s => do
    let component ← scalarType s
    sharedType opTypeVector [component, UInt32.ofNat n]
  | .matrix columns rows s => do
    let component ← scalarType s
    let column ← sharedType opTypeVector [component, UInt32.ofNat rows]
    sharedType opTypeMatrix [column, UInt32.ofNat columns]
  | .image dimension arrayed imageClass =>
    let image (sampleType : SampleType) (depth multi : Bool) (sampled format : UInt32) := do
      let texel ← scalarType (texelScalar sampleType)
      sharedType opTypeImage
        [texel, dimensionCode dimension, flag depth, flag arrayed, flag multi, sampled, format]
    match imageClass with
    | .sampled kind multi => image kind.sampleType false multi 1 0
    | .depth multi => image .float true multi 1 0
    | .storage format _ => image format.sampleType false false 2 (formatCode format)
  | .sampler _ => sharedType opTypeSampler []
  | .accelerationStructure => sharedType opTypeAccelerationStructure []
  | .rayQuery => sharedType opTypeRayQuery []

/-- The array of a type. -/
def arrayType (base : UInt32) (size : ArraySize) : Build UInt32 :=
  match size with
  | .constant n _ => do
    let word ← scalarType ⟨.uint, 4⟩
    let length ← fresh
    modify fun b => { b with types := b.types ++ [⟨opConstant, [word, length, n]⟩] }
    newType opTypeArray [base, length]
  | _ => newType opTypeRuntimeArray [base]

/-- Decorates a member of a struct with its offset, and a matrix with its stride. -/
def decorateMember (id index : UInt32) (m : Member ShaderType) : Build Unit := do
  memberName id index m.name
  decorate opMemberDecorate [id, index, decOffset, UInt32.ofNat m.offset]
  match m.type with
  | .basic _ (.matrix _ rows s) =>
    decorate opMemberDecorate [id, index, decColMajor]
    decorate opMemberDecorate
      [id, index, decMatrixStride, UInt32.ofNat ((if rows = 2 then 2 else 4) * s.width)]
  | _ => pure ()

/-- Decorates members in turn. -/
def decorateMembers (id : UInt32) : (index : UInt32) → List (Member ShaderType) → Build Unit
  | _, [] => pure ()
  | index, m :: ms => do
    decorateMember id index m
    decorateMembers id (index + 1) ms

mutual

/-- A type. -/
def type : ShaderType → Build UInt32
  | .basic _ shape => shapeType shape
  | .array _ base stride size => do
    let base ← type base
    let id ← arrayType base size
    decorate opDecorate [id, decArrayStride, UInt32.ofNat stride]
    return id
  | .bindingArray _ base size => do
    let base ← type base
    arrayType base size
  | .struct structName members _ => do
    let types ← memberTypes members
    let id ← newType opTypeStruct types
    name id structName
    decorateMembers id 0 members
    return id

/-- The types of members. -/
def memberTypes : List (Member ShaderType) → Build (List UInt32)
  | [] => pure []
  | ⟨_, _, t⟩ :: members => do
    let id ← type t
    let ids ← memberTypes members
    return id :: ids

end

/-- Whether the type of a buffer becomes a member of a struct of its own: a struct that ends with
an array of unknown length cannot, and need not. -/
def needsWrapper : ShaderType → Bool
  | .struct _ members _ =>
    match members.getLast? with
    | some ⟨_, _, .array _ _ _ .dynamic⟩ => false
    | some _ => true
    | none => false
  | .bindingArray .. => false
  | _ => true

/-- The type of a variable as it is written. -/
def wrapped (g : Global) : ShaderType :=
  match g.space with
  | .uniform | .storage _ | .pushConstant =>
    if needsWrapper g.type then .ofMembers none [(none, g.type)] else g.type
  | _ => g.type

/-- What may be done with a variable. -/
def accessOf (g : Global) : StorageAccess :=
  match g.space, g.type with
  | .storage access, _ => access
  | _, .basic _ (.image _ _ (.storage _ access)) => access
  | _, .bindingArray _ (.basic _ (.image _ _ (.storage _ access))) _ => access
  | _, _ => { load := true, store := true }

/-- Whether a variable is a sampler that compares, or an array of such. -/
def comparesSamples : ShaderType → Bool
  | .basic _ (.sampler comparison) => comparison
  | .bindingArray _ (.basic _ (.sampler comparison)) _ => comparison
  | _ => false

/-- A variable that is written: its id and the type of pointers to it. -/
structure WrittenGlobal where
  id : UInt32
  pointer : UInt32

/-- A global variable. -/
def global (g : Global) : Build WrittenGlobal := do
  let t ← type (wrapped g)
  match g.space with
  | .uniform | .storage _ | .pushConstant => decorate opDecorate [t, decBlock]
  | _ => pure ()
  let pointer ← sharedType opTypePointer [storageClass g.space, t]
  let id ← fresh
  name id g.name
  match g.place with
  | some place =>
    decorate opDecorate [id, decDescriptorSet, place.group]
    decorate opDecorate [id, decBinding, place.binding]
  | none => pure ()
  if !(accessOf g).store then decorate opDecorate [id, decNonWritable]
  if !(accessOf g).load then decorate opDecorate [id, decNonReadable]
  if comparesSamples g.type then
    decorate opDecorateString (id :: decUserType :: writeText comparisonUserType)
  modify fun b => { b with types := b.types ++ [⟨opVariable, [pointer, id, storageClass g.space]⟩] }
  return ⟨id, pointer⟩

/-- The way an entry point is run. -/
def executionMode (stage : Stage) : List UInt32 :=
  match stage with
  | .pixel => [7]
  | .compute => [17, 1, 1, 1]
  | _ => []

/-- An entry point and its function. -/
def entryPoint (globals : List WrittenGlobal) (e : EntryPoint) : Build Unit := do
  let void ← sharedType opTypeVoid []
  let signature ← sharedType opTypeFunction [void]
  let id ← fresh
  let label ← fresh
  name id (some e.name)
  functionLine opFunction [void, id, 0, signature]
  functionLine opLabel [label]
  for index in e.uses do
    match globals[index]? with
    | some g =>
      let use ← fresh
      functionLine opAccessChain [g.pointer, use, g.id]
    | none => pure ()
  functionLine opReturn []
  functionLine opFunctionEnd []
  modify fun b => { b with
    entryPoints := b.entryPoints ++ [⟨opEntryPoint, executionModel e.stage :: id :: writeText e.name⟩]
    executionModes := b.executionModes ++
      (if (executionMode e.stage).isEmpty then []
       else [⟨opExecutionMode, id :: executionMode e.stage⟩]) }

/-- A whole module. -/
def module (m : ShaderModule) : Build Unit := do
  let globals ← m.globals.mapM global
  for e in m.entryPoints do
    entryPoint globals e

end Build

/-- The lines of a module, section by section. -/
def Builder.lines (b : Builder) : List Line :=
  [⟨opCapability, [1]⟩, ⟨opMemoryModel, [0, 1]⟩] ++ b.entryPoints ++ b.executionModes ++ b.names ++
    b.decorations ++ b.types ++ b.functions

/-- The words of a module for an environment. -/
def assemble (target : SpirvTarget) (m : ShaderModule) : List UInt32 :=
  let (_, b) := (Build.module m).run {}
  [magic, target.versionWord, 0, b.bound, 0] ++ b.lines.flatMap fun l => encode l.opcode l.operands

end ShaderBind.Spirv
