import ShaderBind.Wgsl.Typing

/-!
# Bodies of WGSL functions

Whether the statements of a function are right, and what the function does (`bodyTrace?`). Nothing may
follow a statement that ends the function (`finish?`), and a function with a result may not run into its
end after a call or an empty block (`returns`).
-/

namespace ShaderBind.Wgsl

/-! ## Steps -/

mutual

/-- Whether a step ends the function; nothing if a step inside it follows the end. -/
def Step.finish? : Step → Option Bool
  | .emit => some false
  | .act => some false
  | .ret => some true
  | .block steps => finish? steps

/-- Whether steps end the function, the last first; nothing if a step follows the end. -/
def finish? : List Step → Option Bool
  | [] => some false
  | last :: before => do if ← finish? before then none else last.finish?

end

mutual

/-- Whether a function with a result may end with a step. -/
def Step.returns : Step → Bool
  | .emit => true
  | .act => false
  | .ret => true
  | .block steps => returns steps

/-- Whether a function with a result may have these steps, the last first. -/
def returns : List Step → Bool
  | [] => false
  | last :: _ => last.returns

end

/-! ## Statements -/

namespace Frame

/-- The frame with a further name in the innermost block; no block has a name twice. -/
def bind? (f : Frame) (name : String) (v : Typed) : Option Frame :=
  match f.locals with
  | [] => none
  | names :: outer =>
    if (names.lookup name).isSome then none
    else some { f with locals := ((name, v) :: names) :: outer }

/-- The frame inside a block. -/
def enter (f : Frame) : Frame := { f with locals := [] :: f.locals }

/-- Returns from the function. -/
def finish (f : Frame) (e : Option Expr) : Check Unit := do
  match e, f.result with
  | none, none => pure ()
  | some e, some t =>
    let v ← concrete? (← f.value e)
    if !v.type.same t || v.isPointer then failure
  | _, _ => failure
  modify fun t => { t with steps := .ret :: t.steps }

/-- The value that a declaration gives to a name: one of the type that is written, if there is one. -/
def initial (f : Frame) (type value : Option Expr) : Check Typed := do
  let type ← type.mapM fun e => (f.scope.validType? e : Check ShaderType)
  match type, value with
  | some t, none => return { type := t }
  | none, some e => concrete? (← f.value e)
  | some t, some e => coerce? t (← f.value e)
  | none, none => failure

/-- Declares a local name. What is written to a variable from the start is stored, unless it is known
from the text. -/
def declare (f : Frame) (kind : LocalKind) (name : String) (type value : Option Expr) :
    Check Frame := do
  let v ← f.initial type value
  match kind with
  | .let => f.bind? name { v with value := none, isConst := false }
  | .const => if v.isConst then f.bind? name v else failure
  | .var =>
    let facts ← v.type.facts?
    if !facts.constructible || v.isPointer then failure
    if value.isSome && !v.isConst then act
    f.bind? name { type := v.type, isPlace := true }

mutual

/-- A statement and the names behind it. -/
def statement (f : Frame) : Stmt → Check Frame
  | .drop e => do
    let _ ← concrete? (← f.value e)
    return f
  | .ret e => do
    f.finish e
    return f
  | .call callee arguments => do
    let vs ← f.values arguments
    match callee with
    | .name s =>
      if (f.scope.find? s).any Entity.mustUse then failure
      let _ ← f.callNamed s vs
      return f
    | _ => failure
  | .declare kind name type value => f.declare kind name type value
  | .block body => do
    let before := (← get).steps
    modify fun t => { t with steps := [] }
    statements f.enter body
    modify fun t => { t with steps := .block t.steps :: before }
    return f

/-- Statements one after the other. -/
def statements (f : Frame) : List Stmt → Check Unit
  | [] => pure ()
  | s :: ss => do
    let next ← statement f s
    statements next ss

end

end Frame

/-- What a function with the given parameters does. -/
def bodyTrace? (scope : Scope) (params : List (String × ShaderType)) (result : Option ShaderType)
    (body : List Stmt) : Option Trace := do
  let start : Frame := { scope, locals := [[]], result }
  let f ← params.foldlM (fun (f : Frame) (name, t) => f.bind? name { type := t, isHandle := t.isHandle })
    start
  let (_, trace) ← (f.statements body).run {}
  let _ ← finish? trace.steps
  if result.isSome && !returns trace.steps then none else some trace

end ShaderBind.Wgsl
