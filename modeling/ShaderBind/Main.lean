import ShaderBind.Cli.Run

/-!
# The command line

The first argument names a program, the others are its arguments. Files are read as a run asks for
them: a run over the files read so far ends at the first that is wanted, which is then read, until
nothing more is wanted or there.
-/

namespace ShaderBind.Cli

/-- Files by path, with the faults of those that cannot be read. -/
abbrev ReadFiles := List (String × Except Source.FileFault String)

/-- The reader over files that have been read. -/
def ReadFiles.reader (files : ReadFiles) : Source.FileReader := fun path =>
  match files.lookup path with
  | some result => result
  | none => .error .notFound

/-- Reads a file from disk. -/
def readFromDisk (path : String) : IO (Except Source.FileFault String) := do
  try
    let text ← IO.FS.readFile path
    return .ok text
  catch
    | .inappropriateType .. => return .error .isDirectory
    | _ => return .error .notFound

/-- Reads files that have not been read yet. -/
def readMore (files : ReadFiles) (paths : List String) : IO ReadFiles :=
  paths.foldlM (fun files path => do
    if (files.lookup path).isSome then return files
    else return (path, ← readFromDisk path) :: files) files

/-- Runs a command, reading what it wants. -/
partial def runReading (c : Command) (files : ReadFiles) : IO (Except Failure Product) := do
  match c.run files.reader with
  | .ok product => return .ok product
  | .error failure =>
    let more ← readMore files (c.wanted failure)
    if more.length = files.length then return .error failure
    else runReading c more

/-- Prints or saves what a command made. -/
def deliverToDisk : Product → IO (Except Failure Unit)
  | .text content => do
    (← IO.getStdout).putStr content
    return .ok ()
  | .artifact content none => do
    (← IO.getStdout).write ⟨content.toBytes.toArray⟩
    return .ok ()
  | .artifact content (some path) => do
    try
      IO.FS.writeBinFile path ⟨content.toBytes.toArray⟩
      return .ok ()
    catch
      | .inappropriateType .. => return .error (.file .isDirectory)
      | _ => return .error (.file .notFound)

/-- The files that a command reads in any case. -/
def Command.always : Command → List String
  | .analyze .. => []
  | .remap _ layout .. => [layout]

/-- Prints what is left of a run. -/
def Finished.tell (f : Finished) : IO UInt32 := do
  (← IO.getStdout).putStr f.output
  (← IO.getStderr).putStr f.errors
  return UInt32.ofNat f.exit

/-- Runs a program. -/
def runProgram (p : Program) (arguments : List String) : IO UInt32 := do
  match p.command arguments with
  | .error refusal => (refusal.finish p).tell
  | .ok command =>
    let files ← readMore [] command.always
    let result ← match ← runReading command files with
      | .ok product => deliverToDisk product
      | .error failure => pure (.error failure)
    match result with
    | .ok () => return 0
    | .error failure => (command.fail failure).tell

end ShaderBind.Cli

/-- Runs the program that the first argument names. -/
def main (arguments : List String) : IO UInt32 :=
  match arguments with
  | "analyze" :: rest => ShaderBind.Cli.runProgram .analyze rest
  | "remap" :: rest => ShaderBind.Cli.runProgram .remap rest
  | _ => do
    IO.eprintln "Usage: shaderbind <analyze|remap> [OPTIONS] --stage <STAGE> <SHADER>"
    return 2
