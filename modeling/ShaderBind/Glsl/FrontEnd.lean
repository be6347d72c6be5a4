import ShaderBind.Glsl.Directive
import ShaderBind.Glsl.Expand
import ShaderBind.Module.Assign
import ShaderBind.Module.Layout
import ShaderBind.Spirv.Assemble

/-!
# A front end for GLSL

A front end that takes texts of resource declarations (`frontEnd`): directives, one declaration for every
resource, and functions that do nothing, the main function among them. A vertex shader would have to
write a position, so none is accepted. Every other text fails to parse.
-/

namespace ShaderBind.Glsl

/-! ## Names -/

/-- The words of the language. -/
def keywords : List String :=
  ["layout", "in", "out", "inout", "uniform", "buffer", "const", "shared", "flat", "noperspective",
   "smooth", "centroid", "sample", "restrict", "readonly", "writeonly", "true", "false", "continue",
   "break", "return", "discard", "if", "else", "switch", "case", "default", "while", "do", "for",
   "void", "struct", "precision", "highp", "mediump", "lowp"]

/-- The sizes of vectors and matrices. -/
def sizes : List String := ["2", "3", "4"]

/-- The names of types. -/
def typeNames : List String :=
  let numbers := ["", "b", "i", "u", "d"]
  let texels := ["", "i", "u"]
  let matrixSizes := sizes ++ sizes.flatMap fun c => sizes.map fun r => c ++ "x" ++ r
  let images := ["1D", "1DArray", "2D", "2DArray", "3D"]
  ["bool", "float", "double", "int", "uint", "sampler", "samplerShadow"] ++
  (numbers.flatMap fun k => sizes.map fun n => k ++ "vec" ++ n) ++
  (numbers.flatMap fun k => matrixSizes.map fun n => k ++ "mat" ++ n) ++
  (texels.flatMap fun k => (images ++ ["2DMS", "2DMSArray", "Cube", "CubeArray"]).map fun d =>
    k ++ "texture" ++ d) ++
  (texels.flatMap fun k => images.map fun d => k ++ "image" ++ d)

/-- Whether a word can be a name. -/
def isName (s : String) : Bool := !keywords.contains s && !typeNames.contains s

/-! ## Declarations -/

/-- A buffer block with one member. -/
def block (name member : String) (type : ShaderType) : ShaderType :=
  .ofMembers (some name) [(some member, type)]

/-- The type vec4. -/
def vec4 : ShaderType := .basic none (.vector 4 ⟨.float, 4⟩)

/-- The type uint. -/
def uint : ShaderType := .basic none (.scalar ⟨.uint, 4⟩)

/-- The type texture2D. -/
def texture2D : ShaderType := .basic none (.image .d2 false (.sampled .float false))

/-- The type sampler. -/
def sampler : ShaderType := .basic none (.sampler false)

/-- A variable, unless one of its names cannot be one. -/
def global? (names : List String) (g : Global) (ts : List Token) : Option (Global × List Token) :=
  if names.all isName then some (g, ts) else none

/-- Reads a declaration behind its layout. -/
def resource? (place : Coord) : List Token → Option (Global × List Token)
  | .word "uniform" :: .word "texture2D" :: .word name :: .mark ';' :: ts =>
    global? [name] ⟨some name, .handle, texture2D, some place⟩ ts
  | .word "uniform" :: .word "sampler" :: .word name :: .mark ';' :: ts =>
    global? [name] ⟨some name, .handle, sampler, some place⟩ ts
  | .word "uniform" :: .word type :: .mark '\x7b' :: .word "vec4" :: .word member :: .mark ';' ::
      .mark '\x7d' :: .word name :: .mark ';' :: ts =>
    global? [type, member, name] ⟨some name, .uniform, block type member vec4, some place⟩ ts
  | .word "buffer" :: .word type :: .mark '\x7b' :: .word "uint" :: .word member :: .mark '[' ::
      .mark ']' :: .mark ';' :: .mark '\x7d' :: .word name :: .mark ';' :: ts =>
    global? [type, member, name] ⟨some name, .storage { load := true, store := true },
      block type member (.arrayOf uint .dynamic), some place⟩ ts
  | .word "readonly" :: .word "buffer" :: .word type :: .mark '\x7b' :: .word "vec4" ::
      .word member :: .mark '[' :: .mark ']' :: .mark ';' :: .mark '\x7d' :: .word name ::
      .mark ';' :: ts =>
    global? [type, member, name] ⟨some name, .storage { load := true },
      block type member (.arrayOf vec4 .dynamic), some place⟩ ts
  | _ => none

/-- The word that an integer of the layout gives: the last 32 bits, which may not be those of a negative
number. -/
def layoutWord? (n : Nat) (isSigned : Bool) : Option UInt32 :=
  let w := UInt32.ofNat n
  if isSigned && 0x80000000 ≤ w.toNat then none else some w

/-- Reads the items of a layout up to the closing bracket; none may be there twice. -/
def layout? : (set binding : Option UInt32) → List Token →
    Option ((Option UInt32 × Option UInt32) × List Token)
  | set, binding, .word item :: .mark '=' :: .integer n isSigned :: .mark c :: ts => do
    let w ← layoutWord? n isSigned
    let (set, binding) ← match item, set, binding with
      | "set", none, binding => some (some w, binding)
      | "binding", set, none => some (set, some w)
      | _, _, _ => none
    match c with
    | ',' => layout? set binding ts
    | ')' => some ((set, binding), ts)
    | _ => none
  | _, _, _ => none

/-- Reads a declaration behind `layout` and the opening bracket. The layout has to tell the binding;
without a set it is in set zero. -/
def declaration? (ts : List Token) : Option (Global × List Token) := do
  let ((set, binding), ts) ← layout? none none ts
  resource? ⟨set.getD 0, ← binding⟩ ts

/-- Reads the body of a function, which may only return. -/
def body? : List Token → Option (List Token)
  | .mark '\x7d' :: ts => some ts
  | .mark ';' :: ts => body? ts
  | .word "return" :: .mark ';' :: .mark '\x7d' :: ts => some ts
  | _ => none

/-- Reads a function behind its name. -/
def function? : List Token → Option (List Token)
  | .mark '(' :: .mark ')' :: .mark '\x7b' :: ts => body? ts
  | .mark '(' :: .word "void" :: .mark ')' :: .mark '\x7b' :: ts => body? ts
  | _ => none

/-- Reads declarations and functions: the variables, and the names of the functions. From version 460 on
a semicolon may stand alone. -/
def declarations? (version : Option Nat) : (fuel : Nat) → List Token →
    Option (List Global × List String)
  | _, [] => some ([], [])
  | 0, _ => none
  | fuel + 1, .mark ';' :: ts =>
    if version = some 460 then declarations? version fuel ts else none
  | fuel + 1, .word "void" :: .word name :: ts => do
    let rest ← function? ts
    let (gs, names) ← declarations? version fuel rest
    if isName name && !names.contains name then some (gs, name :: names) else none
  | fuel + 1, .word "layout" :: .mark '(' :: ts => do
    let (g, rest) ← declaration? ts
    let (gs, names) ← declarations? version fuel rest
    return (g :: gs, names)
  | _, _ => none

/-- The module of a text, when some names are defined from the start. -/
def toModule? (stage : Stage) (definitions : List (String × String)) (source : String) :
    Option ShaderModule := do
  if stage = .vertex then none
  let (version, tokens) ← preprocess? definitions source
  let (globals, functions) ← declarations? version tokens.length tokens
  if functions.contains "main" then some { globals, entryPoints := [⟨"main", stage, []⟩] } else none

/-- What the front end says of a text that it does not take. -/
def unexpectedText : String := "unexpected text in the GLSL source"

/-- The front end. -/
def frontEnd : FrontEnd := fun r =>
  if !r.stage.isCompilable then .error (.failed (.unsupported r.shader (.frontEndStage r.stage)))
  else
    match toModule? r.stage (definitionTable r) r.source with
    | none => .error (.failed (.parse r.shader ⟨unexpectedText, expandedSource r⟩))
    | some m =>
      let m := if r.assignBindings then m.assignBindings.1 else m
      .ok (Spirv.assemble r.target m)

end ShaderBind.Glsl
