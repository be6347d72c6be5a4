import ShaderBind.Source.Include
import ShaderBind.Source.Store

/-!
# Unrolling of includes

`unroll` puts the text of included files in place of the directives, file by file and depth first.
A path is inlined where it is met first and dropped everywhere else; the path of the source itself
counts as met. With line markers on, an inlined text stands between two `#line` lines, which tell
a compiler where it is and where it goes on.

The result is a list of pieces (`Piece`): text copied from a file, with the file and the line it
begins at, and what was inserted between copies. The visit (`Visit`) keeps the normal paths that
were met and the paths that were opened, each with its depth.
-/

namespace ShaderBind.Source

/-- How deep includes may nest. -/
def maxIncludeDepth : Nat := 64

/-- A part of an unrolled text. -/
inductive Piece
  /-- Text of a file, from a line of it on. -/
  | copied (file : String) (line : Nat) (text : List Char)
  /-- A line that sets the line number of the next. -/
  | lineMarker (line : Nat)
  /-- A line break between copied text and a marker. -/
  | lineBreak
  deriving DecidableEq, Repr

/-- The characters of a piece. -/
def Piece.text : Piece → List Char
  | copied _ _ text => text
  | lineMarker line => s!"#line {line}\n".toList
  | lineBreak => ['\n']

/-- The characters of the pieces in a row. -/
def Piece.render (pieces : List Piece) : List Char :=
  pieces.flatMap Piece.text

/-- What a run of the unroller has met. -/
structure Visit where
  /-- Normal paths that are not inlined again. -/
  seen : List String := []
  /-- Paths that were opened, as written, and how deep. -/
  opened : List (String × Nat) := []
  deriving DecidableEq, Repr

/-- What an unrolling is run with. -/
structure Unroller where
  shader : String
  store : Option Store
  lineMarkers : Bool := true

namespace Unroller

/-- Steps of an unrolling: the visit goes on also when a step stops. -/
abbrev Run := ExceptT Stop (StateM Visit)

/-- Reports a failed scan of a file. -/
def scanFile (u : Unroller) (file : String) (source : List Char) : Except Stop Include.Cuts :=
  match Include.scan source with
  | .ok cuts => .ok cuts
  | .error (.malformed fault line offset) =>
    .error (.failed (.malformedInclude u.shader file line offset fault))
  | .error (.crashed crash) => .error (.crashed crash)

/-- The pieces of an inlined file, between line markers when those are on. -/
def framed (u : Unroller) (line : Nat) (pieces : List Piece) : List Piece :=
  if u.lineMarkers then
    [.lineBreak, .lineMarker 1] ++ pieces ++
      (if Text.endsLine (Piece.render pieces) then [] else [.lineBreak]) ++ [.lineMarker line]
  else pieces

/-- Takes the cuts of a file in turn: the text before each is copied, the directive is replaced by
what `inline` gives for it. -/
def splice (file : String) (inline : Directive → Run (List Piece)) :
    (line : Nat) → List Include.Cut → (rest : List Char) → Run (List Piece)
  | line, [], rest => pure [.copied file line rest]
  | line, cut :: cuts, rest => do
    let inlined ← inline cut.directive
    let tail ← splice file inline cut.directive.line cuts rest
    return .copied file line cut.before :: inlined ++ tail

/-- Marks the normal path of a directive as met; tells whether it is new. -/
def meet (path : String) : Run Bool := do
  let visit ← get
  if path ∈ visit.seen then return false
  set { visit with seen := path :: visit.seen }
  return true

/-- Opens a file through the store. -/
def openFile (u : Unroller) (store : Store) (path : String) (depth : Nat) : Run String := do
  modify fun visit => { visit with opened := visit.opened ++ [(path, depth)] }
  match store path with
  | .ok text => return text
  | .error _ => throw (.failed (.sourceNotFound u.shader path))

/-- The pieces of a file at a depth, with `room` levels left below it. -/
def file (u : Unroller) : (room : Nat) → (name : String) → List Char → Run (List Piece)
  | room, name, source => do
    let cuts ← ExceptT.mk (pure (u.scanFile name source))
    if cuts.cuts.isEmpty then return [.copied name 1 source]
    match u.store with
    | none => throw (.failed (.noSourceStore u.shader))
    | some store =>
      splice name (fun directive => do
        let path := normalizePath directive.path
        if ← meet path then
          match room with
          | 0 => throw (.failed (.includeDepth u.shader path maxIncludeDepth))
          | room + 1 =>
            let text ← u.openFile store directive.path (maxIncludeDepth - room)
            let pieces ← u.file room path text.toList
            return u.framed directive.line pieces
        else return []) 1 cuts.cuts cuts.rest

/-- Unrolls a source with the path it was read from, if any. -/
def run (u : Unroller) (source : String) (path : Option String) :
    Except Stop (List Piece) × Visit :=
  match path with
  | some path =>
    let path := normalizePath path
    (u.file maxIncludeDepth path source.toList).run.run { seen := [path] }
  | none => (u.file maxIncludeDepth "<source>" source.toList).run.run {}

/-- The unrolled text of a source. -/
def unroll (u : Unroller) (source : String) (path : Option String) : Except Stop String :=
  (u.run source path).1.map fun pieces => String.ofList (Piece.render pieces)

end Unroller

end ShaderBind.Source
