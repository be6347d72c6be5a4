import ShaderBind.Compile.Tool
import ShaderBind.Text.Cut

/-!
# Definitions of the front end

The definitions that the front end for GLSL makes, one for itself, those of the stage and the macros
(`definitionTable`), as lines (`definitionLines`), and the source with them written out
(`expandedSource`), which messages show. They follow the version directive, which has to stay first.
-/

namespace ShaderBind.Glsl

open Source (Macro)

/-- The definitions; of several for one name the first counts, so that the macros go before the rest. -/
def definitionTable (r : IrRequest) : List (String × String) :=
  if !r.preamble then []
  else
    Source.macroTable r.macros ++ (Source.stageDefinitions r.stage).map (fun name => (name, "1")) ++
      [("GLSLANG", "")]

/-- The lines of the definitions. -/
def definitionLines (r : IrRequest) : String :=
  "#define GLSLANG\n" ++ Source.stageLines r.stage ++ Source.macroLines r.macros

/-- The characters up to the first line break, it included, and the rest. -/
def splitLine : List Char → List Char × List Char
  | [] => ([], [])
  | c :: cs =>
    if c == '\n' then (['\n'], cs)
    else
      let (line, rest) := splitLine cs
      (c :: line, rest)

/-- The source up to the end of its version directive, if it begins with one, and the rest. -/
def splitVersion (source : List Char) : List Char × List Char :=
  let body := Text.trimStart Text.isSpace source
  match Text.dropPrefix? "#version".toList body with
  | none => ([], source)
  | some _ =>
    let (line, rest) := splitLine body
    (source.takeWhile Text.isSpace ++ line, rest)

/-- The source with the definitions written out. -/
def expandedSource (r : IrRequest) : String :=
  if !r.preamble then r.source
  else
    let (head, tail) := splitVersion r.source.toList
    (if head.isEmpty then "" else Text.ensureNewline (String.ofList head)) ++ definitionLines r ++
      String.ofList tail

end ShaderBind.Glsl
