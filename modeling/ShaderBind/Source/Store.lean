import ShaderBind.Error
import ShaderBind.Source.Path

/-!
# Source stores

A store opens source files by path (`Store`). `Store.ofFiles` serves a fixed set of files under
their normal paths, and `readSource` takes the text of a shader from an inline source or through
a store.
-/

namespace ShaderBind.Source

/-- Why a file could not be read. -/
inductive FileFault
  | notFound
  | isDirectory
  | notDirectory
  /-- The path or one of its names is longer than the system allows. -/
  | tooLong
  /-- The path has a character that ends it for the system. -/
  | nulByte
  deriving DecidableEq, Repr

/-- Wording of the operating system; a path that it cannot be given is refused before. -/
def FileFault.message : FileFault → String
  | notFound => "No such file or directory (os error 2)"
  | isDirectory => "Is a directory (os error 21)"
  | notDirectory => "Not a directory (os error 20)"
  | tooLong => "File name too long (os error 36)"
  | nulByte => "file name contained an unexpected NUL byte"

/-- Whether the operating system was not asked. -/
def FileFault.isOwn : FileFault → Bool
  | nulByte => true
  | _ => false

/-- A refusal to open a file, with a note when it was not the operating system that refused it. -/
structure OpenError where
  fault : FileFault
  note : Option String := none
  deriving DecidableEq, Repr

/-- The refusal of a store that does not hold the path. -/
def OpenError.missing (path : String) : OpenError :=
  ⟨.notFound, some s!"File not found: {path}"⟩

/-- Opens source files by path. -/
def Store := String → Except OpenError String

/-- The text at `path` among files keyed by normal path; of two files at one path the later
counts. -/
def lookupFile (files : List (String × String)) (path : String) : Option String :=
  (files.reverse.find? fun f => normalizePath f.1 = normalizePath path).map Prod.snd

/-- A store of a fixed set of files. -/
def Store.ofFiles (files : List (String × String)) : Store := fun path =>
  match lookupFile files path with
  | some text => .ok text
  | none => .error (.missing path)

/-- The text of a shader, given as exactly one of an inline source and a path. -/
def readSource (shader : String) (source path : Option String) (store : Option Store) :
    Except ShaderError String :=
  match source, path with
  | some text, none => .ok text
  | none, some path =>
    match store with
    | none => .error (.noSourceStore shader)
    | some store =>
      match store path with
      | .ok text => .ok text
      | .error _ => .error (.sourceNotFound shader path)
  | _, _ => .error (.sourceConflict shader)

end ShaderBind.Source
