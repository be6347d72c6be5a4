import ShaderBind.Text.Class
import ShaderBind.Text.Cut

/-!
# Extension directives

The `#extension` lines of a GLSL text (`extensions`), each with a name and the behaviour behind the
colon, which may be missing. A directive begins its line, blanks apart; what follows it on the line
does not matter.
-/

namespace ShaderBind.Glsl

/-- A directive. -/
structure Extension where
  name : String
  behavior : String
  deriving DecidableEq, Repr

/-- Skips blanks inside a line. -/
def skipBlanks (s : List Char) : List Char :=
  s.dropWhile Text.isBlank

/-- Takes a name. -/
def takeName? : List Char → Option (List Char × List Char)
  | [] => none
  | c :: s => if Text.isNameStart c then some ((c :: s).span Text.isNameChar) else none

/-- The behaviour behind a colon, empty if there is none. -/
def behaviorOf (s : List Char) : List Char :=
  match skipBlanks s with
  | ':' :: s => ((takeName? (skipBlanks s)).map Prod.fst).getD []
  | _ => []

/-- The directive that a line holds. -/
def extensionOf? (line : List Char) : Option Extension := do
  let s ← Text.dropPrefix? ['#'] (skipBlanks line)
  let s ← Text.dropPrefix? "extension".toList (skipBlanks s)
  if !(s.head?.any Text.isBlank) then none
  let (name, s) ← takeName? (skipBlanks s)
  return ⟨String.ofList name, String.ofList (behaviorOf s)⟩

/-- The directives of a text, in order. -/
def extensions (source : String) : List Extension :=
  (Text.splitOn '\n' source.toList).filterMap extensionOf?

end ShaderBind.Glsl
