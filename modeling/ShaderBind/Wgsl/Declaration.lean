import ShaderBind.Wgsl.Name
import ShaderBind.Wgsl.Syntax

/-!
# Reading WGSL

The declarations of a WGSL text (`parse?`). A reader takes tokens off the front of a list; expressions
and statements nest, so that their readers have fuel.
-/

namespace ShaderBind.Wgsl

/-- A reader of tokens. -/
abbrev Reader := StateT (List Token) Option

namespace Reader

/-- The token that comes next. -/
def peek : Reader (Option Token) := do return (← get).head?

/-- Passes a token. -/
def pass : Reader Unit := modify List.tail

/-- Passes the given token if it comes next. -/
def passIf (t : Token) : Reader Bool := do
  if (← peek) = some t then
    pass
    return true
  else return false

/-- Passes the given mark if it comes next. -/
def passMark (c : Char) : Reader Bool := passIf (.mark c)

/-- Passes the given mark, which has to come next. -/
def expect (c : Char) : Reader Unit := do
  if !(← passMark c) then failure

/-- Reads a word. -/
def word : Reader String := do
  match ← peek with
  | some (.word s) =>
    pass
    return s
  | _ => failure

/-- Reads a name that is used. -/
def usedName : Reader String := do
  let s ← word
  if isName s then return s else failure

/-- Reads a name that is declared. -/
def newName : Reader String := do
  let s ← word
  if isNewName s then return s else failure

/-! ## Expressions -/

/-- The words that may have a type in angle brackets behind them in an expression. -/
def constructorWords : List String :=
  ["vec2", "vec3", "vec4", "mat2x2", "mat2x3", "mat2x4", "mat3x2", "mat3x3", "mat3x4", "mat4x2",
   "mat4x3", "mat4x4", "array"]

mutual

/-- Reads an expression. -/
def expr : (fuel : Nat) → Reader Expr
  | 0 => failure
  | fuel + 1 => do
    let first ← product fuel
    sumRest fuel first

/-- Reads the rest of a sum. -/
def sumRest : (fuel : Nat) → Expr → Reader Expr
  | 0, _ => failure
  | fuel + 1, left => do
    match ← peek with
    | some (.mark c) =>
      if c == '+' || c == '-' then
        pass
        let right ← product fuel
        sumRest fuel (.binary c left right)
      else return left
    | _ => return left

/-- Reads a product. -/
def product : (fuel : Nat) → Reader Expr
  | 0 => failure
  | fuel + 1 => do
    let first ← unary false fuel
    productRest fuel first

/-- Reads the rest of a product. -/
def productRest : (fuel : Nat) → Expr → Reader Expr
  | 0, _ => failure
  | fuel + 1, left => do
    match ← peek with
    | some (.mark c) =>
      if c == '*' || c == '/' || c == '%' then
        pass
        let right ← unary false fuel
        productRest fuel (.binary c left right)
      else return left
    | _ => return left

/-- Reads an operand with the marks before it. Inside angle brackets it may be a type. -/
def unary (inType : Bool) : (fuel : Nat) → Reader Expr
  | 0 => failure
  | fuel + 1 => do
    match ← peek with
    | some (.mark c) =>
      if ['-', '!', '~', '&', '*'].contains c then
        pass
        return .unary c (← unary inType fuel)
      else
        let e ← primary inType fuel
        postfixed fuel e
    | _ =>
      let e ← primary inType fuel
      postfixed fuel e

/-- Reads an operand. -/
def primary (inType : Bool) : (fuel : Nat) → Reader Expr
  | 0 => failure
  | fuel + 1 => do
    match ← peek with
    | some (.mark '(') =>
      pass
      let e ← expr fuel
      expect ')'
      return e
    | some (.number l) =>
      pass
      return .literal l
    | some (.word s) =>
      pass
      if s = "true" || s = "false" then return .truth (s = "true")
      else
        let callee ← if (inType || constructorWords.contains s) && (← passMark '<') then do
            let first ← unary true fuel
            pure (Expr.template s (first :: (← templateRest fuel)))
          else pure (.name s)
        if ← passMark '(' then return .call callee (← arguments fuel) else return callee
    | _ => failure

/-- Reads the rest of the arguments in angle brackets. -/
def templateRest : (fuel : Nat) → Reader (List Expr)
  | 0 => failure
  | fuel + 1 => do
    if ← passMark '>' then return []
    expect ','
    let e ← unary true fuel
    return e :: (← templateRest fuel)

/-- Reads members and elements behind an operand. -/
def postfixed : (fuel : Nat) → Expr → Reader Expr
  | 0, _ => failure
  | fuel + 1, base => do
    if ← passMark '.' then
      let field ← newName
      postfixed fuel (.member base field)
    else if ← passMark '[' then
      let position ← expr fuel
      expect ']'
      postfixed fuel (.index base position)
    else return base

/-- Reads the arguments of a call up to the closing bracket. -/
def arguments : (fuel : Nat) → Reader (List Expr)
  | 0 => failure
  | fuel + 1 => do
    if ← passMark ')' then return []
    let e ← expr fuel
    if ← passMark ',' then return e :: (← arguments fuel)
    expect ')'
    return [e]

end

/-- Reads a type: a name, with its arguments in angle brackets or without. -/
def type (fuel : Nat) : Reader Expr := do
  let s ← usedName
  if ← passMark '<' then
    let first ← unary true fuel
    return .template s (first :: (← templateRest fuel))
  else return .name s

/-- Reads what stands behind a mark, if the mark is there. -/
def behind {α : Type} (c : Char) (r : Reader α) : Reader (Option α) := do
  if ← passMark c then return some (← r) else return none

/-- Reads something in round brackets. -/
def bracketed {α : Type} (r : Reader α) : Reader α := do
  expect '('
  let a ← r
  expect ')'
  return a

/-! ## Statements -/

/-- The words that only other statements begin with. -/
def otherStatements : List String :=
  ["if", "loop", "while", "for", "switch", "break", "continue", "discard", "const_assert"]

/-- The kind of a local declaration by its word. -/
def localKind? : String → Option LocalKind
  | "let" => some .let
  | "const" => some .const
  | "var" => some .var
  | _ => none

/-- Reads a local declaration behind its word. A constant has to be given its value. -/
def localDecl (kind : LocalKind) (fuel : Nat) : Reader Stmt := do
  let name ← newName
  let t ← behind ':' (type fuel)
  let value ← behind '=' (expr fuel)
  expect ';'
  if value.isNone && (kind != .var || t.isNone) then failure
  else return .declare kind name t value

mutual

/-- Reads a statement. -/
def statement : (fuel : Nat) → Reader (Option Stmt)
  | 0 => failure
  | fuel + 1 => do
    match ← peek with
    | some (.mark ';') =>
      pass
      return none
    | some (.mark '\x7b') =>
      pass
      return some (.block (← statements fuel))
    | some (.word s) =>
      pass
      match localKind? s with
      | some kind => return some (← localDecl kind fuel)
      | none =>
        if s = "_" then
          expect '='
          let e ← expr fuel
          expect ';'
          return some (.drop e)
        else if s = "return" then
          if ← passMark ';' then return some (.ret none)
          let e ← expr fuel
          expect ';'
          return some (.ret (some e))
        else if otherStatements.contains s || !isName s then failure
        else
          expect '('
          let es ← arguments fuel
          expect ';'
          return some (.call (.name s) es)
    | _ => failure

/-- Reads statements up to the closing brace. -/
def statements : (fuel : Nat) → Reader (List Stmt)
  | 0 => failure
  | fuel + 1 => do
    if ← passMark '\x7d' then return []
    let first ← statement fuel
    return first.toList ++ (← statements fuel)

end

/-! ## Declarations -/

/-- The attributes of a declaration. -/
structure Attributes where
  group : Option Expr := none
  binding : Option Expr := none
  stage : Option Stage := none
  workgroup : Option (List Expr) := none
  mustUse : Bool := false

/-- Gives a value to what has none. -/
def setOnce {α : Type} (known : Option α) (a : α) : Reader (Option α) :=
  if known.isSome then failure else return some a

/-- Reads the sizes of a group: one to three. -/
def workgroupSizes (fuel : Nat) : Reader (List Expr) := do
  expect '('
  let x ← expr fuel
  if ← passMark ')' then return [x]
  expect ','
  let y ← expr fuel
  if ← passMark ')' then return [x, y]
  expect ','
  let z ← expr fuel
  expect ')'
  return [x, y, z]

/-- Reads an attribute behind its mark; none may be given twice. -/
def oneAttribute (fuel : Nat) (a : Attributes) : Reader Attributes := do
  match ← usedName with
  | "group" => return { a with group := ← setOnce a.group (← bracketed (expr fuel)) }
  | "binding" => return { a with binding := ← setOnce a.binding (← bracketed (expr fuel)) }
  | "vertex" => return { a with stage := ← setOnce a.stage .vertex }
  | "fragment" => return { a with stage := ← setOnce a.stage .pixel }
  | "compute" => return { a with stage := ← setOnce a.stage .compute }
  | "workgroup_size" => return { a with workgroup := ← setOnce a.workgroup (← workgroupSizes fuel) }
  | "must_use" => if a.mustUse then failure else return { a with mustUse := true }
  | _ => failure

/-- Reads attributes, as many as there are. -/
def attributes : (fuel : Nat) → Attributes → Reader Attributes
  | 0, _ => failure
  | fuel + 1, a => do
    if ← passMark '@' then attributes fuel (← oneAttribute fuel a) else return a

/-- The attributes of a member or a parameter. -/
structure MemberAttributes where
  size : Option Expr := none
  align : Option Expr := none
  location : Option Expr := none
  builtin : Option String := none
  interpolation : Option String := none
  invariant : Bool := false

/-- How values are interpolated. -/
def interpolations : List String := ["perspective", "linear", "flat"]

/-- Where values are sampled. -/
def samplings : List String := ["center", "centroid", "sample", "first", "either"]

/-- Reads the arguments of an interpolation. -/
def interpolation : Reader String := do
  let kind ← usedName
  if !interpolations.contains kind then failure
  if ← passMark ',' then
    if !samplings.contains (← usedName) then failure
  return kind

/-- Reads an attribute of a member behind its mark. -/
def memberAttribute (fuel : Nat) (a : MemberAttributes) : Reader MemberAttributes := do
  match ← usedName with
  | "size" => return { a with size := ← setOnce a.size (← bracketed (expr fuel)) }
  | "align" => return { a with align := ← setOnce a.align (← bracketed (expr fuel)) }
  | "location" => return { a with location := ← setOnce a.location (← bracketed (expr fuel)) }
  | "builtin" => return { a with builtin := ← setOnce a.builtin (← bracketed usedName) }
  | "interpolate" =>
    return { a with interpolation := ← setOnce a.interpolation (← bracketed interpolation) }
  | "invariant" => if a.invariant then failure else return { a with invariant := true }
  | _ => failure

/-- Reads the attributes of a member. -/
def memberAttributes : (fuel : Nat) → MemberAttributes → Reader MemberAttributes
  | 0, _ => failure
  | fuel + 1, a => do
    if ← passMark '@' then memberAttributes fuel (← memberAttribute fuel a) else return a

/-- The binding that attributes give: a location, which may be interpolated, or a built-in value; the
position may be invariant. -/
def MemberAttributes.io (a : MemberAttributes) : Reader (Option IoBinding) :=
  match a.location, a.builtin with
  | some e, none => if a.invariant then failure else return some (.location e)
  | none, some name =>
    if a.interpolation.isSome || (a.invariant && name != "position") then failure
    else return some (.builtin name)
  | none, none => if a.interpolation.isSome || a.invariant then failure else return none
  | some _, some _ => failure

/-- Reads the binding of a parameter or a result. -/
def binding (fuel : Nat) : Reader (Option IoBinding) := do
  let a ← memberAttributes fuel {}
  if a.size.isSome || a.align.isSome then failure else a.io

/-- Reads the members of a struct up to the closing brace; the last comma may be left out. -/
def members : (fuel : Nat) → Reader (List MemberDecl)
  | 0 => failure
  | fuel + 1 => do
    if ← passMark '\x7d' then return []
    let a ← memberAttributes fuel {}
    let io ← a.io
    let name ← newName
    expect ':'
    let t ← type fuel
    let m : MemberDecl := { name, type := t, size := a.size, align := a.align, io }
    if ← passMark ',' then return m :: (← members fuel)
    expect '\x7d'
    return [m]

/-- Reads the address space behind `var`; only a storage buffer has an access. -/
def space : Reader (List String) := do
  if ← passMark '<' then
    let s ← usedName
    if s = "storage" && (← passMark ',') then
      let access ← usedName
      expect '>'
      return [s, access]
    else
      expect '>'
      return [s]
  else return []

/-- Reads the parameters of a function up to the closing bracket. -/
def params : (fuel : Nat) → Reader (List ParamDecl)
  | 0 => failure
  | fuel + 1 => do
    if ← passMark ')' then return []
    let io ← binding fuel
    let name ← newName
    expect ':'
    let t ← type fuel
    let p : ParamDecl := { name, type := t, io }
    if ← passMark ',' then return p :: (← params fuel)
    expect ')'
    return [p]

/-- Reads the result of a function, if it has one. -/
def result (fuel : Nat) : Reader (Option (Expr × Option IoBinding)) := do
  if ← passIf (.pair '-' '>') then
    let io ← binding fuel
    let t ← type fuel
    return some (t, io)
  else return none

/-- Reads a function behind its word. What has to be used has to be there, and a group of invocations
has a size. -/
def function (a : Attributes) (fuel : Nat) : Reader FnDecl := do
  let name ← newName
  expect '('
  let ps ← params fuel
  let r ← result fuel
  expect '\x7b'
  let body ← statements fuel
  if (a.mustUse && r.isNone) || (a.stage = some .compute && a.workgroup.isNone) then failure
  else return {
    stage := a.stage, workgroup := a.workgroup, mustUse := a.mustUse, name, params := ps, result := r,
    body }

/-- Reads a declaration without its attributes, nothing for a semicolon that stands alone. -/
def declaration (a : Attributes) (fuel : Nat) : Reader (Option Decl) := do
  if ← passMark ';' then return none
  match ← word with
  | "struct" =>
    let name ← newName
    expect '\x7b'
    return some (.struct ⟨name, ← members fuel⟩)
  | "alias" =>
    let name ← newName
    expect '='
    let t ← type fuel
    expect ';'
    return some (.typeAlias name t)
  | "const" =>
    let name ← newName
    let t ← behind ':' (type fuel)
    expect '='
    let e ← expr fuel
    expect ';'
    return some (.const name t e)
  | "var" =>
    let space ← space
    let name ← newName
    let t ← behind ':' (type fuel)
    let value ← behind '=' (expr fuel)
    expect ';'
    return some (.var {
      group := a.group, binding := a.binding, space, name, type := t, value })
  | "fn" => return some (.fn (← function a fuel))
  | _ => failure

/-- Whether a place goes with a variable. -/
def placeFits (a : Attributes) : Option Decl → Bool
  | some (.var _) => true
  | _ => a.group.isNone

/-- Reads all declarations. The two numbers of a place stand together, before a variable. Attributes
at the end of the text belong to nothing. -/
def declarations : (fuel : Nat) → Reader (List Decl)
  | 0 => failure
  | fuel + 1 => do
    if (← get).isEmpty then return []
    let a ← attributes fuel {}
    if a.group.isSome != a.binding.isSome then failure
    if (← get).isEmpty then return []
    let d ← declaration a fuel
    if !placeFits a d then failure
    return d.toList ++ (← declarations fuel)

end Reader

/-- The declarations of a text. A few readers follow each other before one takes a token, so that the
fuel is enough. -/
def parse? (text : String) : Option (List Decl) := do
  let ts ← tokens? text
  let (ds, _) ← (Reader.declarations (8 * (ts.length + 1))).run ts
  return ds

end ShaderBind.Wgsl
