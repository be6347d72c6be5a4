import ShaderBind.Glsl.Token

/-!
# Directives of GLSL

The lines of a text that begin with a number sign are directives (`Preprocessor.directive?`). They set
the version, define names and hide lines. What is left are the tokens of the other lines, with the
defined names replaced (`preprocess?`).
-/

namespace ShaderBind.Glsl

/-- Lines that count only under a condition. -/
structure Condition where
  /-- Whether the lines count. -/
  isActive : Bool
  /-- Whether some lines of the condition have counted. -/
  isMet : Bool
  hasElse : Bool := false
  deriving DecidableEq, Repr

/-- What the lines read so far have done. -/
structure Preprocessor where
  macros : List (String × List Token) := []
  /-- The conditions around the next line, the innermost first. -/
  conditions : List Condition := []
  hasDirective : Bool := false
  version : Option Nat := none
  tokens : List Token := []

/-- The tokens with defined names replaced. No name is replaced inside its own definition, so that the
number of definitions is enough fuel. -/
def replaceNames : (fuel : Nat) → List (String × List Token) → List Token → List Token
  | 0, _, ts => ts
  | fuel + 1, macros, ts => ts.flatMap fun
    | .word s =>
      match macros.lookup s with
      | some body => replaceNames fuel (macros.filter fun m => m.1 != s) body
      | none => [.word s]
    | t => [t]

/-- The versions of the language. -/
def versions : List Nat := [440, 450, 460]

namespace Preprocessor

/-- Whether the next line counts. -/
def isActive (p : Preprocessor) : Bool := p.conditions.all Condition.isActive

/-- Whether a name is defined. -/
def isDefined (p : Preprocessor) (name : String) : Bool := (p.macros.lookup name).isSome

/-- The tokens with defined names replaced. -/
def replaced (p : Preprocessor) (ts : List Token) : List Token :=
  replaceNames (p.macros.length + 1) p.macros ts

/-- Whether a condition holds: a name is defined, or a number is not zero. -/
def holds? (p : Preprocessor) : List Token → Option Bool
  | .mark '!' :: ts => (p.holds? ts).map (!·)
  | [.word "defined", .word name] => some (p.isDefined name)
  | [.word "defined", .mark '(', .word name, .mark ')'] => some (p.isDefined name)
  | ts =>
    match p.replaced ts with
    | [.integer n _] => some (n != 0)
    | _ => none

/-- Begins a condition. -/
def begin (p : Preprocessor) (holds : Bool) : Preprocessor :=
  { p with conditions := ⟨holds, holds, false⟩ :: p.conditions }

/-- Goes on with the lines that count if no earlier ones of the condition did. -/
def otherwise? (p : Preprocessor) (holds : Bool) (isElse : Bool) : Option Preprocessor :=
  match p.conditions with
  | [] => none
  | c :: cs =>
    if c.hasElse then none
    else some { p with conditions := ⟨holds && !c.isMet, holds || c.isMet, isElse⟩ :: cs }

/-- Ends a condition. -/
def endCondition? (p : Preprocessor) : Option Preprocessor :=
  match p.conditions with
  | [] => none
  | _ :: cs => some { p with conditions := cs }

/-- Defines a name; it may be defined again only as the same. -/
def define? (p : Preprocessor) (name : String) (body : List Token) : Option Preprocessor :=
  match p.macros.lookup name with
  | some known => if known = body then some p else none
  | none => some { p with macros := (name, body) :: p.macros }

/-- Sets the version, which no other directive may precede. -/
def setVersion? (p : Preprocessor) (n : Nat) : Option Preprocessor :=
  if versions.contains n && !p.hasDirective then some { p with version := some n } else none

/-- A directive where lines count. -/
def directive? (p : Preprocessor) : List Token → Option Preprocessor
  | [] => some p
  | [.word "version", .integer n true] => p.setVersion? n
  | [.word "version", .integer n true, .word "core"] => p.setVersion? n
  | .word "define" :: .word name :: body => p.define? name body
  | [.word "undef", .word name] =>
    some { p with macros := p.macros.filter fun m => m.1 != name }
  | [.word "ifdef", .word name] => some (p.begin (p.isDefined name))
  | [.word "ifndef", .word name] => some (p.begin (!p.isDefined name))
  | .word "if" :: condition => (p.holds? condition).map p.begin
  | .word "elif" :: _ => p.otherwise? false false
  | [.word "else"] => p.otherwise? true true
  | [.word "endif"] => p.endCondition?
  | _ => none

/-- A directive where lines are hidden: only the ends of conditions count. -/
def hiddenDirective? (p : Preprocessor) : List Token → Option Preprocessor
  | .word "ifdef" :: _ => some (p.begin false)
  | .word "ifndef" :: _ => some (p.begin false)
  | .word "if" :: _ => some (p.begin false)
  | .word "elif" :: condition =>
    match p.conditions with
    | c :: cs =>
      if c.isMet || !({ p with conditions := cs }).isActive then p.otherwise? false false
      else do p.otherwise? (← p.holds? condition) false
    | [] => none
  | [.word "else"] => p.otherwise? true true
  | [.word "endif"] => p.endCondition?
  | _ => some p

/-- A line. -/
def line? (p : Preprocessor) : List Token → Option Preprocessor
  | .mark '#' :: ts => do
    let next ← if p.isActive then p.directive? ts else p.hiddenDirective? ts
    return { next with hasDirective := true }
  | ts =>
    if !p.isActive then some p
    else if ts.contains (.mark '#') then none
    else some { p with tokens := p.tokens ++ p.replaced ts }

end Preprocessor

/-- The tokens that a definition stands for; they are on one line. -/
def definitionTokens? (text : String) : Option (List Token) := do
  match ← lines? text with
  | [tokens] => some tokens
  | _ => none

/-- The version of a text, if it tells one, and its tokens, when some names are defined from the start.
Every condition has to end. -/
def preprocess? (definitions : List (String × String)) (text : String) :
    Option (Option Nat × List Token) := do
  let macros ← definitions.mapM fun d => return (d.1, ← definitionTokens? d.2)
  let p ← (← lines? text).foldlM Preprocessor.line? { macros }
  if p.conditions.isEmpty then some (p.version, p.tokens) else none

end ShaderBind.Glsl
