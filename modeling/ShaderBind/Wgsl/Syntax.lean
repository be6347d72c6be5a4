import ShaderBind.Stage
import ShaderBind.Wgsl.Token

/-!
# Syntax of WGSL

What a WGSL text declares: structs, names for types, constants, variables of the module and functions
(`Decl`). Types are written like expressions (`Expr`). `Decl.mentions` are the names that a declaration
refers to, which have to be declared before it can be understood.
-/

namespace ShaderBind.Wgsl

/-- An expression or a type. -/
inductive Expr
  | literal (l : Literal)
  | truth (b : Bool)
  | name (s : String)
  /-- A name with arguments in angle brackets. -/
  | template (s : String) (arguments : List Expr)
  | call (callee : Expr) (arguments : List Expr)
  | member (base : Expr) (field : String)
  | index (base : Expr) (position : Expr)
  | unary (op : Char) (operand : Expr)
  | binary (op : Char) (left right : Expr)
  deriving Repr, Inhabited

/-- The ways to declare a name inside a function. -/
inductive LocalKind
  | const
  | let
  | var
  deriving DecidableEq, Repr

/-- A statement. -/
inductive Stmt
  /-- Computes a value and drops it. -/
  | drop (e : Expr)
  | ret (value : Option Expr)
  | call (callee : Expr) (arguments : List Expr)
  | declare (kind : LocalKind) (name : String) (type value : Option Expr)
  | block (body : List Stmt)
  deriving Repr, Inhabited

/-- How a value passes between stages. -/
inductive IoBinding
  | location (index : Expr)
  | builtin (name : String)
  deriving Repr

/-- A member of a struct. -/
structure MemberDecl where
  name : String
  type : Expr
  size : Option Expr := none
  align : Option Expr := none
  io : Option IoBinding := none
  deriving Repr

/-- A struct. -/
structure StructDecl where
  name : String
  members : List MemberDecl
  deriving Repr

/-- A variable of the module. -/
structure VarDecl where
  group : Option Expr
  binding : Option Expr
  /-- The address space and the access. -/
  space : List String
  name : String
  type : Option Expr
  value : Option Expr
  deriving Repr

/-- A parameter of a function. -/
structure ParamDecl where
  name : String
  type : Expr
  io : Option IoBinding
  deriving Repr

/-- A function. -/
structure FnDecl where
  /-- The stage, if the function is an entry point. -/
  stage : Option Stage
  /-- The sizes of a group of invocations. -/
  workgroup : Option (List Expr)
  /-- Whether its result may not be dropped. -/
  mustUse : Bool
  name : String
  params : List ParamDecl
  result : Option (Expr × Option IoBinding)
  body : List Stmt
  deriving Repr

/-- A declaration. -/
inductive Decl
  | struct (d : StructDecl)
  | typeAlias (name : String) (type : Expr)
  | const (name : String) (type : Option Expr) (value : Expr)
  | var (d : VarDecl)
  | fn (d : FnDecl)
  deriving Repr

/-- The name of a declaration. -/
def Decl.name : Decl → String
  | struct d => d.name
  | typeAlias name _ => name
  | const name .. => name
  | var d => d.name
  | fn d => d.name

/-! ## Mentioned names -/

mutual

/-- The names that an expression mentions, in order; a function is called after its arguments have
been read. -/
def Expr.mentions : Expr → List String
  | .literal _ => []
  | .truth _ => []
  | .name s => [s]
  | .template s arguments => mentionsOf arguments ++ [s]
  | .call callee arguments => mentionsOf arguments ++ callee.mentions
  | .member base _ => base.mentions
  | .index base position => base.mentions ++ position.mentions
  | .unary _ e => e.mentions
  | .binary _ a b => a.mentions ++ b.mentions

/-- The names that expressions mention. -/
def mentionsOf : List Expr → List String
  | [] => []
  | e :: es => e.mentions ++ mentionsOf es

end

/-- The names that an expression mentions, if there is one. -/
def mentionsOf? (e : Option Expr) : List String :=
  (e.map Expr.mentions).getD []

mutual

/-- The names that a statement mentions, without those that are declared in the function. -/
def Stmt.mentions (locals : List String) : Stmt → List String × List String
  | .drop e => (e.mentions.filter (!locals.contains ·), locals)
  | .ret value => ((mentionsOf? value).filter (!locals.contains ·), locals)
  | .call callee arguments =>
    ((mentionsOf arguments ++ callee.mentions).filter (!locals.contains ·), locals)
  | .declare _ name type value =>
    ((mentionsOf? type ++ mentionsOf? value).filter (!locals.contains ·), name :: locals)
  | .block body => (blockMentions locals body, locals)

/-- The names that statements mention. -/
def blockMentions (locals : List String) : List Stmt → List String
  | [] => []
  | s :: ss =>
    let (found, locals) := s.mentions locals
    found ++ blockMentions locals ss

end

/-- The names that a binding mentions. -/
def IoBinding.mentions : IoBinding → List String
  | location e => e.mentions
  | builtin _ => []

/-- The names that a binding mentions, if there is one. -/
def ioMentions (io : Option IoBinding) : List String :=
  (io.map IoBinding.mentions).getD []

/-- The names that a declaration mentions, in order. -/
def Decl.mentions : Decl → List String
  | struct d => d.members.flatMap fun m =>
    mentionsOf? m.size ++ mentionsOf? m.align ++ ioMentions m.io ++ m.type.mentions
  | typeAlias _ type => type.mentions
  | const _ type value => mentionsOf? type ++ value.mentions
  | var d => mentionsOf? d.group ++ mentionsOf? d.binding ++ mentionsOf? d.type ++ mentionsOf? d.value
  | fn d =>
    mentionsOf (d.workgroup.getD []) ++
      (d.params.flatMap fun p => ioMentions p.io ++ p.type.mentions) ++
      ((d.result.map fun (type, io) => ioMentions io ++ type.mentions).getD []) ++
      blockMentions (d.params.map ParamDecl.name) d.body

/-! ## Order -/

/-- Adds a declaration to a list of names, after those that it mentions; nothing if it needs itself.
`path` are the declarations that are waiting for it. A path has no name twice, so that the number of
declarations is enough fuel. -/
def arrange? (ds : List Decl) : (fuel : Nat) → (path : List String) → (name : String) →
    (done : List String) → Option (List String)
  | 0, _, _, _ => none
  | fuel + 1, path, name, done =>
    if done.contains name then some done
    else if path.contains name then none
    else
      match ds.find? fun d => d.name = name with
      | none => some done
      | some d => do
        let done ← d.mentions.foldlM
          (fun done needed => arrange? ds fuel (name :: path) needed done) done
        return done ++ [name]

/-- The declarations in an order in which each comes after those that it mentions. -/
def ordered? (ds : List Decl) : Option (List Decl) := do
  let names := ds.map Decl.name
  if names.eraseDups.length ≠ names.length then none
  else
    let order ← names.foldlM (fun done name => arrange? ds (ds.length + 2) [] name done) []
    return order.filterMap fun name => ds.find? fun d => d.name = name

end ShaderBind.Wgsl
