import ShaderBind.Wgsl.Body
import ShaderBind.Wgsl.Declaration
import ShaderBind.Wgsl.Interface

/-!
# Modules of WGSL texts

The module that a WGSL text stands for (`toModule?`): its variables with their types and places, and
its entry points with the variables that they use, themselves or through the functions that they call.
A text that is wrong anywhere stands for no module.
-/

namespace ShaderBind.Wgsl

/-- A module of which some declarations have been read. -/
structure Draft where
  scope : Scope := {}
  globals : List Global := []
  entryPoints : List EntryPoint := []

namespace Draft

/-- The draft with a further name. -/
def add (m : Draft) (name : String) (e : Entity) : Draft :=
  { m with scope := { m.scope with entities := (name, e) :: m.scope.entities } }

/-! ## Types and constants -/

/-- A type under a name of its own; a type that the text declares keeps its name. -/
def named (name : String) : Expr → ShaderType → ShaderType
  | .template .., .array _ base stride size => .array (some name) base stride size
  | .template .., .bindingArray _ base size => .bindingArray (some name) base size
  | .template .., .basic _ shape => .basic (some name) shape
  | .name s, .basic n shape => .basic (if (wordType? s).isSome then some name else n) shape
  | _, t => t

/-- Adds a struct. -/
def struct? (m : Draft) (d : StructDecl) : Option Draft := do
  let t ← m.scope.struct? d
  let ios := d.members.map MemberDecl.io
  if !ios.all (·.all (·.isKnown m.scope)) then none
  else
    let m := m.add d.name (.type t)
    return { m with scope := { m.scope with bindings := (d.name, ios) :: m.scope.bindings } }

/-- A value that is known from the text. -/
def constant? (m : Draft) (type : Option Expr) (value : Expr) : Option Typed := do
  let frame : Frame := { scope := m.scope }
  let (v, _) ← (frame.initial type (some value)).run {}
  let facts ← v.type.facts?
  if v.isConst && !v.isPointer && facts.constructible then some v else none

/-! ## Variables -/

/-- The address space of a variable. -/
def spaceOf? : List String → Option AddressSpace
  | [] => some .handle
  | ["uniform"] => some .uniform
  | ["storage"] => some (.storage { load := true })
  | ["storage", access] => (accessOf? access).map .storage
  | ["private"] => some .priv
  | ["workgroup"] => some .workgroup
  | ["push_constant"] => some .pushConstant
  | _ => none

/-- The place of a variable. -/
def placeOf? (m : Draft) (group binding : Option Expr) : Option (Option Coord) :=
  match group, binding with
  | some g, some b => do return some ⟨← m.scope.word? g, ← m.scope.word? b⟩
  | _, _ => some none

/-- Adds a variable; only a private one may have a value from the start. -/
def var? (m : Draft) (d : VarDecl) : Option Draft := do
  let space ← spaceOf? d.space
  let place ← m.placeOf? d.group d.binding
  let type ← match d.value with
    | some e => if space = .priv then (m.constant? d.type e).map Typed.type else none
    | none => m.scope.validType? (← d.type)
  let g : Global := ⟨some d.name, space, type, place⟩
  if g.isValid then
    let m' := m.add d.name (.var m.globals.length g)
    return { m' with globals := m.globals ++ [g] }
  else none

/-! ## Functions -/

/-- The greatest size of a group of invocations. -/
def maxWorkgroupSize : Nat := 0x4000

/-- Whether an entry point of a stage may have groups of these sizes. -/
def workgroupFits (m : Draft) (stage : Stage) : Option (List Expr) → Bool
  | none => true
  | some sizes => stage == .compute && sizes.all fun e =>
    (m.scope.word? e).any fun n => 0 < n.toNat && n.toNat ≤ maxWorkgroupSize

/-- The positions of the variables that are used, each once and in order. -/
def usedOf (m : Draft) (t : Trace) : List Nat :=
  (List.range m.globals.length).filter t.uses.contains

/-- Whether the variables at some positions have places of their own, and at most one of them holds
push constants. -/
def placesDiffer (m : Draft) (uses : List Nat) : Bool :=
  let used := uses.filterMap fun index => m.globals[index]?
  let places := used.filterMap Global.place
  places.eraseDups.length = places.length && (used.countP fun g => g.space = .pushConstant) ≤ 1

/-- A type with the way in which it passes between stages. -/
def passed? (m : Draft) (type : Expr) (io : Option IoBinding) :
    Option (ShaderType × Option IoBinding) := do
  let t ← m.scope.validType? type
  if io.all (·.isKnown m.scope) then some (t, io) else none

/-- Adds an entry point. -/
def entryPoint? (m : Draft) (d : FnDecl) (stage : Stage)
    (params : List (ShaderType × Option IoBinding)) (result : Option (ShaderType × Option IoBinding))
    (t : Trace) : Option Draft :=
  let uses := m.usedOf t
  if isInterface m.scope stage params result && m.workgroupFits stage d.workgroup &&
      m.placesDiffer uses && (stage == .pixel || !t.pixelOnly) then
    some { m.add d.name .entryPoint with
      entryPoints := m.entryPoints ++ [{ name := d.name, stage, uses }] }
  else none

/-- Adds a function. -/
def fn? (m : Draft) (d : FnDecl) : Option Draft := do
  let params ← d.params.mapM fun p => m.passed? p.type p.io
  let result ← match d.result with
    | some (type, io) => (m.passed? type io).map some
    | none => some none
  let types := params.map Prod.fst
  let resultType := result.map Prod.fst
  if !types.all (fun t => t.facts?.any TypeFacts.argument) then none
  else if !resultType.all (fun t => t.facts?.any TypeFacts.constructible) then none
  else
    let t ← bodyTrace? m.scope ((d.params.map ParamDecl.name).zip types) resultType d.body
    match d.stage with
    | some stage => m.entryPoint? d stage params result t
    | none =>
      let isBound := (params ++ result.toList).any fun p => p.2.isSome
      if isBound || d.workgroup.isSome then none
      else
        return m.add d.name (.fn {
          params := types, result := resultType, mustUse := d.mustUse, uses := t.uses.eraseDups,
          pixelOnly := t.pixelOnly })

/-- Adds a declaration. -/
def decl? (m : Draft) : Decl → Option Draft
  | .struct d => m.struct? d
  | .typeAlias name type => do
    let t ← m.scope.validType? type
    return m.add name (.type (named name type t))
  | .const name type value => do
    let v ← m.constant? type value
    return m.add name (.const v)
  | .var d => m.var? d
  | .fn d => m.fn? d

end Draft

/-- The module that a text stands for. -/
def toModule? (text : String) : Option ShaderModule := do
  let ds ← ordered? (← parse? text)
  let m ← ds.foldlM Draft.decl? {}
  return { globals := m.globals, entryPoints := m.entryPoints }

end ShaderBind.Wgsl
