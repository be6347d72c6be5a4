import ShaderBind.Source.Search

/-!
# File trees

A tree of directories and text files, addressed from its root. A path is walked component by
component from a directory (`FileTree.walk`): every component before the last has to be a
directory that exists, a double dot goes up and stays at the root. Paths and names have a greatest
length (`pathLimit`, `nameLimit`). A tree is read by paths from one
of its directories (`FileTree.read`), and `FileTree.write` gives the tree with one more file.
-/

namespace ShaderBind.Source

/-- A place in a tree: the names from the root down. -/
abbrev Location := List String

/-- Text files and directories by location; the directories above a file exist with it. -/
structure FileTree where
  files : List (Location × String)
  directories : List Location

/-- The bytes of a name are at most so many. -/
def nameLimit : Nat := 255

/-- The bytes of a path are fewer than so many. -/
def pathLimit : Nat := 4096

/-- A path that the system can be asked for. -/
def checkPath (path : String) : Except FileFault Unit :=
  if path.toList.contains '\x00' then .error .nulByte
  else if path.isEmpty then .error .notFound
  else if pathLimit ≤ path.utf8ByteSize then .error .tooLong
  else .ok ()

namespace FileTree

/-- The tree that holds a directory, files in it given by their paths from there, and directories
in it given by their names. -/
def ofFiles (cwd : Location) (files : List (String × String)) (directories : List String := []) :
    FileTree where
  files := files.map fun (path, text) => (cwd ++ namedComponents path, text)
  directories := cwd :: directories.map fun name => cwd ++ [name]

/-- The text of the file at a location. -/
def file? (t : FileTree) (l : Location) : Option String :=
  (t.files.find? fun f => f.1 = l).map Prod.snd

/-- Whether a location is a directory: the root, one that was made, or one above a file or
another directory. -/
def isDirectory (t : FileTree) (l : Location) : Bool :=
  l.isEmpty || t.directories.any (l.isPrefixOf ·) ||
    t.files.any fun f => l.isPrefixOf f.1.dropLast

/-- Follows components from a directory; a dot or an empty component stays, a double dot goes
up. -/
def walk (t : FileTree) : Location → List String → Except FileFault Location
  | l, [] => .ok l
  | l, part :: parts =>
    if (t.file? l).isSome then .error .notDirectory
    else if !t.isDirectory l then .error .notFound
    else if part = "" ∨ part = "." then walk t l parts
    else if part = ".." then walk t l.dropLast parts
    else if nameLimit < part.utf8ByteSize then .error .tooLong
    else walk t (l ++ [part]) parts

/-- Where a path begins. -/
def start (cwd : Location) (path : String) : Location :=
  if path.startsWith "/" then [] else cwd

/-- The location that a path names from a directory. -/
def locate (t : FileTree) (cwd : Location) (path : String) : Except FileFault Location := do
  checkPath path
  t.walk (start cwd path) (components path.toList)

/-- The text of the file that a path names. -/
def read (t : FileTree) (cwd : Location) (path : String) : Except FileFault String := do
  let l ← t.locate cwd path
  match t.file? l with
  | some text => .ok text
  | none => .error (if t.isDirectory l then .isDirectory else .notFound)

/-- The store that looks paths up in search directories of the tree. -/
def search (t : FileTree) (cwd : Location) (dirs : List String) : Store :=
  FileReader.search (t.read cwd) dirs

/-- The tree after a text has been written to a path, whose directory has to exist. A slash behind the
last name says that it is a directory. -/
def write (t : FileTree) (cwd : Location) (path text : String) : Except FileFault FileTree := do
  checkPath path
  let l ← t.walk (start cwd path) (components (Text.trimEnd (· == '/') path.toList))
  if path.endsWith "/" || t.isDirectory l then .error .isDirectory
  else if !t.isDirectory l.dropLast then .error .notFound
  else .ok { t with files := (l, text) :: t.files }

end FileTree

end ShaderBind.Source
