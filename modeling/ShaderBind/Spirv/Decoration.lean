import ShaderBind.Coord
import ShaderBind.Spirv.Instruction

/-!
# Binding decorations in SPIR-V

The set and the binding of a variable stand in decorations in front of the functions. A variable
may be decorated several times, and the last decoration counts; without one for the set it is in
set 0. `readBindings` lists the decorated variables by id, `patch` writes new numbers over the old
ones.
-/

namespace ShaderBind.Spirv

/-- Opcode of a name for debugging. -/
def opName : Nat := 5

/-- Opcode of a decoration. -/
def opDecorate : Nat := 71

/-- The decoration that gives the binding. -/
def decBinding : UInt32 := 33

/-- The decoration that gives the set. -/
def decDescriptorSet : UInt32 := 34

/-- A number in a module and the word it stands in. -/
structure Literal where
  position : Nat
  value : UInt32
  deriving DecidableEq, Repr

/-- The decorations of one variable. -/
structure Decorations where
  id : UInt32
  set : Option Literal := none
  binding : Option Literal := none
  deriving DecidableEq, Repr

/-- Changes the decorations of a variable, in a list ordered by id. -/
def update (id : UInt32) (f : Decorations → Decorations) : List Decorations → List Decorations
  | [] => [f { id }]
  | d :: ds =>
    if d.id = id then f d :: ds
    else if id < d.id then f { id } :: d :: ds
    else d :: update id f ds

/-- Takes note of an instruction, if it decorates a variable with its set or its binding. -/
def collectOne (ds : List Decorations) (i : Instruction) : List Decorations :=
  if i.opcode = opDecorate then
    match i.operands with
    | id :: kind :: value :: _ =>
      let literal := ⟨i.position + 3, value⟩
      if kind = decDescriptorSet then update id (fun d => { d with set := some literal }) ds
      else if kind = decBinding then update id (fun d => { d with binding := some literal }) ds
      else ds
    | _ => ds
  else ds

/-- The decorations of a module, ordered by id. -/
def collect (words : List UInt32) : Except SpirvFault (List Decorations) := do
  let is ← preamble words
  return is.foldl collectOne []

/-- The place of a variable, if it has a binding. -/
def Decorations.place? (d : Decorations) : Option Coord :=
  d.binding.map fun b => ⟨(d.set.map Literal.value).getD 0, b.value⟩

/-- The bound variables of a module, ordered by id, and their places. -/
def readBindings (words : List UInt32) : Except SpirvFault (List (UInt32 × Coord)) := do
  let ds ← collect words
  return ds.filterMap fun d => d.place?.map fun place => (d.id, place)

/-- The name of an id for debugging, if the module gives it one. -/
def debugName? (words : List UInt32) (id : UInt32) : Option String :=
  let named := (instructions words).find? fun i =>
    i.opcode = opName && i.operands.length ≥ 2 && i.operands.head? = some id
  named.bind fun i => readText? i.operands.tail

/-- Writes the place that one variable is moved to; tells what it found. -/
def patchOne (moves : Moves) (words : List UInt32) (d : Decorations) :
    List UInt32 × Except SpirvFault (Option Coord) :=
  match d.binding with
  | none => (words, .ok none)
  | some binding =>
    let place : Coord := ⟨(d.set.map Literal.value).getD 0, binding.value⟩
    match moves.target? place with
    | none => (words, .ok none)
    | some target =>
      let words := words.set binding.position target.binding
      match d.set with
      | some set => (words.set set.position target.group, .ok (some place))
      | none =>
        if target.group = 0 then (words, .ok (some place))
        else (words, .error (.noSetDecoration d.id target.group))

/-- Writes the moves variable by variable; a variable that cannot be moved ends the work, and what
was written by then stays. -/
def patchAll (moves : Moves) :
    List UInt32 → List Decorations → List UInt32 × Except SpirvFault (List Coord)
  | words, [] => (words, .ok [])
  | words, d :: ds =>
    match patchOne moves words d with
    | (words, .error e) => (words, .error e)
    | (words, .ok found) =>
      match patchAll moves words ds with
      | (words, .error e) => (words, .error e)
      | (words, .ok places) => (words, .ok (found.toList ++ places))

/-- The words after the moves, and the places that were found and moved. -/
def patch (words : List UInt32) (moves : Moves) : List UInt32 × Except SpirvFault (List Coord) :=
  match collect words with
  | .error e => (words, .error e)
  | .ok ds =>
    match patchAll moves words ds with
    | (words, .error e) => (words, .error e)
    | (words, .ok places) => (words, .ok places.eraseDups)

end ShaderBind.Spirv
