import ShaderBind.Text.Cut

/-!
# Include paths

A path is a sequence of components between slashes; a backslash counts as a slash. Its normal
form (`normalizePath`) drops empty components and dots and lets a double dot cancel the component
before it, so that differently spelled paths to one file are told to be the same.
-/

namespace ShaderBind.Source

/-- The path with slashes in place of backslashes. -/
def withSlashes (path : String) : List Char :=
  path.toList.map fun c => if c = '\\' then '/' else c

/-- The components of a path, empty ones included. -/
def components (path : List Char) : List String :=
  (Text.splitOn '/' path).map String.ofList

/-- Takes one more component onto a stack of components, the last one on top. A double dot
removes a component that is not itself a double dot. -/
def pushComponent (stack : List String) (part : String) : List String :=
  if part = "" ∨ part = "." then stack
  else if part = ".." then
    match stack with
    | last :: rest => if last = ".." then part :: stack else rest
    | [] => [part]
  else part :: stack

/-- The components that are left, in order, when each has been taken in turn. -/
def normalComponents (parts : List String) : List String :=
  (parts.foldl pushComponent []).reverse

/-- The normal form of a path; a path that begins at the root keeps its slash. -/
def normalizePath (path : String) : String :=
  let path := withSlashes path
  let joined := "/".intercalate (normalComponents (components path))
  if path.head? = some '/' then "/" ++ joined else joined

end ShaderBind.Source
