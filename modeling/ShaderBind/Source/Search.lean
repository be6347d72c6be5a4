import ShaderBind.Source.Store

/-!
# Search directories

Files are read by paths from the working directory (`FileReader`). A store over a list of search
directories takes a path from each of them in turn, and the first file found is opened
(`FileReader.search`). A path is split into its directory and its last name (`directoryOf`,
`fileName?`), and a name loses its last extension (`stem`).
-/

namespace ShaderBind.Source

/-- Reads a file by its path from the working directory. -/
abbrev FileReader := String → Except FileFault String

/-- `path` taken from the directory `dir`. -/
def join (dir path : String) : String :=
  if path.startsWith "/" then path
  else if dir.isEmpty || dir.endsWith "/" then dir ++ path
  else dir ++ "/" ++ path

namespace FileReader

/-- Whether a path names a file. -/
def isFile (read : FileReader) (path : String) : Bool :=
  match read path with
  | .ok _ => true
  | .error _ => false

/-- Opens a path as it stands. -/
def openPath (read : FileReader) (path : String) : Except OpenError String :=
  match read path with
  | .ok text => .ok text
  | .error fault => .error ⟨fault, if fault.isOwn then some fault.message else none⟩

/-- The store that looks a relative path up in the search directories, in order. A path from the
root, and every path when there are no directories, is read as it stands. -/
def search (read : FileReader) (dirs : List String) : Store := fun path =>
  if path.startsWith "/" || dirs.isEmpty then read.openPath path
  else
    match dirs.find? fun dir => read.isFile (join dir path) with
    | some dir => read.openPath (join dir path)
    | none => .error (.missing path)

end FileReader

/-- The components of a path that name something. -/
def namedComponents (path : String) : List String :=
  (components path.toList).filter fun part => part ≠ "" ∧ part ≠ "."

/-- The last name of a path. A path that ends by going up has none. -/
def fileName? (path : String) : Option String :=
  match (namedComponents path).getLast? with
  | some name => if name = ".." then none else some name
  | none => none

/-- The directory that the last name of a path is in. -/
def directoryOf (path : String) : String :=
  let dir := "/".intercalate (namedComponents path).dropLast
  if path.startsWith "/" then "/" ++ dir else dir

/-- A name without its last extension. A dot at the start begins no extension. -/
def stem (name : String) : String :=
  match name.toList.reverse.dropWhile (· ≠ '.') with
  | _ :: before => if before.isEmpty then name else String.ofList before.reverse
  | [] => name

end ShaderBind.Source
