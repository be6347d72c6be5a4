import ShaderBind.Language
import ShaderBind.Text.Cut
import ShaderBind.Text.Number

/-!
# The language marker

Generated text ends with a comment that records the language the shader was authored in, so that
text which went through the compilers can be told from text that was written by hand.
`appendMarker` writes the comment, `languageOf` reads it back, `stripMarker` removes it. White
space and NUL characters after the comment do not matter; anything else does.
-/

namespace ShaderBind.Source

/-- The marker up to the language's code. -/
def markerHead : List Char :=
  "/*$SHADER_SOURCE_LANGUAGE=".toList

/-- What closes the marker. -/
def markerTail : List Char :=
  "*/".toList

/-- The marker of a language. -/
def marker (l : Language) : String :=
  String.ofList markerHead ++ toString l.code ++ String.ofList markerTail

/-- `source` with the marker of a language on a line of its own. -/
def appendMarker (source : String) (l : Language) : String :=
  Text.ensureNewline source ++ marker l

/-- Characters that may follow a marker. -/
def isPadding (c : Char) : Bool :=
  Text.isAsciiSpace c || c == '\x00'

/-- The text before the marker and the language the marker records. -/
def findMarker? (source : List Char) : Option (List Char × Language) := do
  let body ← Text.dropSuffix? markerTail (Text.trimEnd isPadding source)
  let (before, value) ← Text.splitLast? markerHead body
  let code ← Text.readInt? (Text.trim Text.isSpace value)
  let language ← Language.ofCode? code
  return (before, language)

/-- The language that the marker records; unspecified when there is no marker. -/
def languageOf (source : String) : Language :=
  ((findMarker? source.toList).map Prod.snd).getD .unspecified

/-- The text in front of the marker, or the whole text when there is none. -/
def stripMarker (source : String) : String :=
  match findMarker? source.toList with
  | some (before, _) => String.ofList before
  | none => source

end ShaderBind.Source
