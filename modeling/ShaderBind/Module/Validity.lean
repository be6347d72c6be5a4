import ShaderBind.Module.Basic
import ShaderBind.Module.Layout

/-!
# Valid types and variables

What a type may be used for (`TypeFacts`), if it may be used at all (`ShaderType.facts?`). A variable
of an address space needs a type that suits the space (`Global.isValid`): what lies in a buffer can be
shared with the host, and the types of a uniform buffer keep to a layout of their own, in which arrays
and structs are aligned to sixteen bytes.
-/

namespace ShaderBind

/-- What a type may be used for. -/
structure TypeFacts where
  /-- Its values are numbers or made of numbers. -/
  data : Bool := false
  /-- The size of its values is known. -/
  sized : Bool := false
  copy : Bool := false
  /-- Its values can lie in a buffer. -/
  hostShareable : Bool := false
  /-- Its values can be passed from one stage to the next. -/
  ioShareable : Bool := false
  /-- Its values can be arguments of functions. -/
  argument : Bool := false
  /-- Its values can be made from values of their parts. -/
  constructible : Bool := false
  /-- The alignment in a uniform buffer, if it can lie in one. -/
  uniformAlign : Option Nat := none
  /-- The alignment in a storage buffer, if it can lie in one. -/
  storageAlign : Option Nat := none
  deriving DecidableEq, Repr

/-- The least alignment of arrays and structs in a uniform buffer. -/
def minUniformAlign : Nat := 16

namespace TypeFacts

/-- The facts of a type of numbers with an alignment. -/
def ofNumbers (align : Nat) : TypeFacts where
  data := true
  sized := true
  copy := true
  hostShareable := true
  ioShareable := true
  argument := true
  constructible := true
  uniformAlign := some align
  storageAlign := some align

/-- What holds of both, the alignments left alone. -/
def meet (a b : TypeFacts) : TypeFacts where
  data := a.data && b.data
  sized := a.sized && b.sized
  copy := a.copy && b.copy
  hostShareable := a.hostShareable && b.hostShareable
  ioShareable := a.ioShareable && b.ioShareable
  argument := a.argument && b.argument
  constructible := a.constructible && b.constructible
  uniformAlign := a.uniformAlign
  storageAlign := a.storageAlign

end TypeFacts

/-- Whether numbers of the kind have the width. -/
def Scalar.isValid (s : Scalar) : Bool :=
  match s.kind with
  | .bool => s.width == 1
  | .sint | .uint | .float => s.width == 4 || s.width == 8
  | _ => false

/-- The facts of a type without parts, nothing if there is no such type. -/
def BasicShape.facts? (shape : BasicShape) : Option TypeFacts :=
  let numbers := TypeFacts.ofNumbers shape.alignment
  match shape with
  | scalar s | vector _ s =>
    if s.isValid then
      let shared := s.kind != .bool
      some { numbers with hostShareable := shared, ioShareable := shared }
    else none
  | matrix _ _ s =>
    if s.isValid && s.kind == .float then some { numbers with ioShareable := false } else none
  | atomic s =>
    if s.isValid && s.kind != .bool && !(s.kind == .float && s.width == 8) then
      some { numbers with copy := false, ioShareable := false, argument := false, constructible := false }
    else none
  | image dimension arrayed _ =>
    if arrayed && dimension == .d3 then none else some { argument := true }
  | sampler _ | accelerationStructure | rayQuery => some { argument := true }

/-- An alignment, if the offset is a multiple of it. -/
def alignedAt (offset : Nat) (align : Nat) : Option Nat :=
  if align ≠ 0 ∧ offset % align = 0 then some align else none

/-- The facts of an array. -/
def arrayFacts? (base : TypeFacts) (stride : Nat) (size : ArraySize) : Option TypeFacts :=
  if base.data && base.sized then
    let sized := match size with
      | .constant .. => true
      | _ => false
    some { base with
      sized
      ioShareable := false
      argument := base.argument && sized
      constructible := base.constructible && sized
      uniformAlign := base.uniformAlign.bind fun a => alignedAt stride (max a minUniformAlign)
      storageAlign := base.storageAlign.bind (alignedAt stride) }
  else none

/-- The alignment of a struct after a member of some alignment, unless it does not suit the place of
the member. -/
def memberAlign (known member : Option Nat) (offset : Nat) : Option Nat := do
  let align ← alignedAt offset (← member)
  return max (← known) align

/-- The struct that stands directly before a member: its place and its size. -/
abbrev StructBefore := Option (Nat × Nat)

/-- Whether a uniform buffer has room behind the struct before a member. -/
def clearsStruct (before : StructBefore) (offset : Nat) : Bool :=
  before.all fun (start, size) => start + roundUp minUniformAlign size ≤ offset

namespace ShaderType

mutual

/-- The facts of a type, nothing if there is no such type. -/
def facts? : ShaderType → Option TypeFacts
  | basic _ shape => shape.facts?
  | array _ base stride size => do arrayFacts? (← facts? base) stride size
  | bindingArray _ base size => do
    let base' ← facts? base
    let isStruct := match base with
      | struct .. => true
      | _ => false
    if base'.data && !isStruct then none
    else
      let sized := match size with
        | .constant .. => base'.sized
        | _ => false
      some { sized, hostShareable := base'.hostShareable }
  | struct _ members _ =>
    if members.isEmpty then none
    else memberFacts?
      { TypeFacts.ofNumbers 1 with uniformAlign := some minUniformAlign } none members

/-- The facts of a struct after further members. Only the last may be an array of unknown length. -/
def memberFacts? (known : TypeFacts) (before : StructBefore) :
    List (Member ShaderType) → Option TypeFacts
  | [] => some known
  | ⟨_, offset, type⟩ :: members => do
    let m ← facts? type
    let isArray := match type with
      | array .. => true
      | _ => false
    if !m.data || (!m.sized && !(isArray && members.isEmpty)) then none
    else
      let uniformAlign := memberAlign known.uniformAlign m.uniformAlign offset
      let next := { known.meet m with
        uniformAlign := if m.hostShareable && clearsStruct before offset then uniformAlign else none
        storageAlign :=
          if m.hostShareable then memberAlign known.storageAlign m.storageAlign offset else none }
      let size := match type with
        | struct _ _ span => some (offset, span)
        | _ => none
      memberFacts? next size members

end

/-- Whether two types are one type; structs are known by their names. -/
def same : ShaderType → ShaderType → Bool
  | basic _ a, basic _ b => a == b
  | array _ a _ n, array _ b _ m => same a b && n == m
  | bindingArray _ a n, bindingArray _ b m => same a b && n == m
  | struct a .., struct b .. => a == b
  | _, _ => false

end ShaderType

/-- Whether a type without parts is that of a handle. -/
def BasicShape.isHandle : BasicShape → Bool
  | image .. => true
  | sampler _ => true
  | accelerationStructure => true
  | rayQuery => true
  | _ => false

/-- Whether a type is that of a handle. -/
def ShaderType.isHandle : ShaderType → Bool
  | basic _ shape => shape.isHandle
  | _ => false

/-- Whether a variable can be what it is: its type suits its address space, and it has a place if
and only if it is bound. -/
def Global.isValid (g : Global) : Bool :=
  let element := match g.space, g.type with
    | .priv, _ | .workgroup, _ | .pushConstant, _ => g.type
    | _, .bindingArray _ base _ => base
    | _, type => type
  let whole := g.type.facts?.isSome
  let suits (f : TypeFacts) : Bool :=
    match g.space with
    | .storage access => f.data && f.hostShareable && f.storageAlign.isSome && access.load
    | .uniform => f.data && f.copy && f.sized && f.hostShareable && f.uniformAlign.isSome
    | .handle => element.isHandle
    | .priv => f.constructible
    | .workgroup => f.data && f.sized
    | .pushConstant => f.data && f.copy && f.hostShareable && f.sized
  whole && element.facts?.any suits && (g.space.isBound == g.place.isSome)

end ShaderBind
