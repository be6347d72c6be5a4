import ShaderBind.Yaml.Block
import ShaderBind.Yaml.Tag

/-!
# Tokens of YAML

The text of YAML documents as tokens (`tokens`). Block structure is found here, by indentation: a
dash or a key that stands further right than the block around it opens a block, and a line further
left closes blocks. Whether something is a key shows only at the colon behind it. So the scanner
remembers, for every collection that is open, where a key may have begun (`KeySpot`), and puts the
token of the key there once it finds the colon. A key stands on one line and is not longer than
`maxKeyLength`; what begins in the column of its block has to be a key.
-/

namespace ShaderBind.Yaml

/-- A token of a text. -/
inductive Token
  | directive (d : Directive)
  | documentStart
  | documentEnd
  | sequenceStart
  | mappingStart
  | blockEnd
  | dash
  | key
  | value
  | openBracket
  | closeBracket
  | openBrace
  | closeBrace
  | comma
  | aliasTo (name : String)
  | anchor (name : String)
  | tag (t : Tag)
  | scalar (text : String) (plain : Bool)
  deriving DecidableEq, Repr

/-- The most bytes from the start of a key to its colon. -/
def maxKeyLength : Nat := 1024

/-- Where a key may have begun. -/
structure KeySpot where
  mark : Mark
  /-- The number of tokens before it. -/
  position : Nat
  /-- Whether there has to be a key. -/
  required : Bool

/-- Whether the colon of the key can still come at a place. -/
def KeySpot.isLive (k : KeySpot) (m : Mark) : Bool :=
  k.mark.line == m.line && m.index ≤ k.mark.index + maxKeyLength

/-- Where the scanner is and what it has found. -/
structure Scanner where
  cursor : Cursor
  /-- The tokens so far, the last first. -/
  found : List Token := []
  /-- The columns of the open blocks, the innermost first. -/
  blocks : List Nat := []
  /-- Where a key may have begun in the innermost collection. -/
  spot : Option KeySpot := none
  /-- The same for the collections around every open flow collection, the innermost first. -/
  outerSpots : List (Option KeySpot) := []
  /-- Whether a key may begin here. -/
  keyAllowed : Bool := true

namespace Scanner

/-- Whether a flow collection is open. -/
def inFlow (s : Scanner) : Bool := !s.outerSpots.isEmpty

/-- The column of the scanner. -/
def column (s : Scanner) : Nat := s.cursor.mark.column

/-! ## White space -/

/-- Skips white space and comments. Tabs do not indent, so they are skipped only where no key may
begin; a byte order mark may begin a line. -/
def skipGap (flow keyAllowed comment : Bool) (mark : Mark) : List Char → Cursor × Bool
  | [] => (⟨mark, []⟩, keyAllowed)
  | c :: cs =>
    if isBreak c then skipGap flow (keyAllowed || !flow) false (mark.after c) cs
    else if comment then skipGap flow keyAllowed true (mark.after c) cs
    else if c == '#' then skipGap flow keyAllowed true (mark.after c) cs
    else if c == '\ufeff' && mark.column == 0 then
      skipGap flow keyAllowed false (mark.after c) cs
    else if c == ' ' || (c == '\t' && (flow || !keyAllowed)) then
      skipGap flow keyAllowed false (mark.after c) cs
    else (⟨mark, c :: cs⟩, keyAllowed)

/-- The scanner at the next token. -/
def skip (s : Scanner) : Scanner :=
  let (cursor, keyAllowed) := skipGap s.inFlow s.keyAllowed false s.cursor.mark s.cursor.rest
  { s with cursor, keyAllowed }

/-! ## Keys -/

/-- Adds a token. -/
def add (s : Scanner) (t : Token) : Scanner := { s with found := t :: s.found }

/-- Puts a token before those that follow the first `position` ones. -/
def insert (s : Scanner) (position : Nat) (t : Token) : Scanner :=
  let behind := s.found.length - position
  { s with found := s.found.take behind ++ t :: s.found.drop behind }

/-- Forgets that a key may have begun, unless there had to be one. -/
def dropSpot? (s : Scanner) : Option Scanner :=
  if s.spot.any KeySpot.required then none else some { s with spot := none }

/-- Remembers that a key may begin here. -/
def saveSpot? (s : Scanner) : Option Scanner :=
  if s.keyAllowed then
    s.dropSpot?.map fun s => { s with
      spot := some ⟨s.cursor.mark, s.found.length, !s.inFlow && s.blocks.head? = some s.column⟩ }
  else some s

/-- Drops the spots whose colon cannot come any more. -/
def dropStale? (s : Scanner) : Option Scanner :=
  let stale (spot : Option KeySpot) : Bool := spot.any fun k => !k.isLive s.cursor.mark
  if (s.spot :: s.outerSpots).any fun spot => stale spot && spot.any KeySpot.required then none
  else some { s with
    spot := if stale s.spot then none else s.spot
    outerSpots := s.outerSpots.map fun spot => if stale spot then none else spot }

/-! ## Blocks -/

/-- Opens a block at a column, unless one is open there. Its first token goes behind the first
`position` tokens. -/
def openBlock (s : Scanner) (column position : Nat) (t : Token) : Scanner :=
  if s.inFlow || s.blocks.head?.any (column ≤ ·) then s
  else { s.insert position t with blocks := column :: s.blocks }

/-- Closes the blocks whose column satisfies `p`. -/
def closeBlocks (p : Nat → Bool) (s : Scanner) : Scanner :=
  if s.inFlow then s
  else { s with
    found := (s.blocks.takeWhile p).map (fun _ => .blockEnd) ++ s.found
    blocks := s.blocks.dropWhile p }

/-! ## Tokens by kind -/

/-- Takes a token that is `n` characters long. -/
def take (s : Scanner) (n : Nat) (t : Token) (keyAllowed : Bool) : Scanner :=
  { s.add t with cursor := s.cursor.advance n, keyAllowed }

/-- Takes the mark of a document, which closes all blocks. -/
def documentMark? (s : Scanner) (t : Token) : Option Scanner :=
  (s.closeBlocks fun _ => true).dropSpot?.map fun s => s.take 3 t false

/-- Takes a directive. -/
def directive? (s : Scanner) : Option Scanner := do
  let s ← (s.closeBlocks fun _ => true).dropSpot?
  let (d, cursor) ← Yaml.directive? (s.cursor.advance 1)
  return { s.add (.directive d) with cursor, keyAllowed := false }

/-- Takes a bracket that opens a flow collection. -/
def openFlow? (s : Scanner) (t : Token) : Option Scanner :=
  s.saveSpot?.map fun s =>
    { s.take 1 t true with spot := none, outerSpots := s.spot :: s.outerSpots }

/-- Takes a bracket that closes a flow collection. -/
def closeFlow? (s : Scanner) (t : Token) : Option Scanner :=
  s.dropSpot?.map fun s =>
    { s.take 1 t false with
      spot := s.outerSpots.headD s.spot
      outerSpots := s.outerSpots.tail }

/-- Takes a comma. -/
def comma? (s : Scanner) : Option Scanner := s.dropSpot?.map fun s => s.take 1 .comma true

/-- Takes a dash. -/
def dash? (s : Scanner) : Option Scanner :=
  if !s.inFlow && !s.keyAllowed then none
  else (s.openBlock s.column s.found.length .sequenceStart).dropSpot?.map fun s =>
    s.take 1 .dash true

/-- Takes the mark of a key. -/
def key? (s : Scanner) : Option Scanner :=
  if !s.inFlow && !s.keyAllowed then none
  else (s.openBlock s.column s.found.length .mappingStart).dropSpot?.map fun s =>
    s.take 1 .key (!s.inFlow)

/-- Takes a colon, which makes a key of what began at the spot. -/
def value? (s : Scanner) : Option Scanner :=
  match s.spot with
  | some k =>
    let s := (s.insert k.position .key).openBlock k.mark.column k.position .mappingStart
    some ({ s with spot := none }.take 1 .value false)
  | none =>
    if !s.inFlow && !s.keyAllowed then none
    else
      let s := s.openBlock s.column s.found.length .mappingStart
      some (s.take 1 .value (!s.inFlow))

/-- Takes an anchor or an alias. -/
def anchor? (s : Scanner) (token : String → Token) : Option Scanner := do
  let s ← s.saveSpot?
  let (name, cursor) ← anchorName? (s.cursor.advance 1)
  return { s.add (token name) with cursor, keyAllowed := false }

/-- Takes a tag. -/
def tag? (s : Scanner) : Option Scanner := do
  let s ← s.saveSpot?
  let (t, cursor) ← Yaml.tag? s.inFlow s.cursor
  return { s.add (.tag t) with cursor, keyAllowed := false }

/-- Takes a block scalar. -/
def block? (s : Scanner) (literal : Bool) : Option Scanner := do
  let s ← s.dropSpot?
  let scanned ← blockScalar? literal s.blocks (s.cursor.advance 1)
  return { s.add (.scalar scanned.text false) with cursor := scanned.cursor, keyAllowed := true }

/-- Takes a scalar in quotes. -/
def quoted? (s : Scanner) : Option Scanner := do
  let s ← s.saveSpot?
  let scanned ← Yaml.quoted? s.cursor
  return { s.add (.scalar scanned.text false) with cursor := scanned.cursor, keyAllowed := false }

/-- The least column of a further line of a plain scalar. -/
def minColumn (s : Scanner) : Nat :=
  match s.blocks with
  | [] => 0
  | b :: _ => b + 1

/-- Takes a plain scalar. -/
def plain? (s : Scanner) : Option Scanner := do
  let s ← s.saveSpot?
  let scanned ← Yaml.plain? ⟨s.inFlow, s.minColumn⟩ s.cursor
  return { s.add (.scalar scanned.text true) with
    cursor := scanned.cursor
    keyAllowed := scanned.endsLine }

/-! ## The whole text -/

/-- The characters that begin no plain scalar. -/
def isIndicator (c : Char) : Bool :=
  "-?:,[]\x7b\x7d#&*!|>'\"%@\x60".toList.contains c

/-- Whether a plain scalar begins here. -/
def plainBegins (s : Scanner) : Bool :=
  match s.cursor.rest with
  | [] => false
  | c :: cs =>
    (!isIndicator c && !atBlank (c :: cs)) ||
    (c == '-' && !cs.head?.any isBlank) ||
    (!s.inFlow && (c == '?' || c == ':') && !atBlank cs)

/-- Takes the token that stands at the scanner; none if there cannot be one. -/
def next? (s : Scanner) : Option Scanner :=
  match s.cursor.rest with
  | [] => none
  | c :: cs =>
    if s.column == 0 && c == '%' then s.directive?
    else if s.column == 0 && atDocumentMark (c :: cs) then
      s.documentMark? (if c == '-' then .documentStart else .documentEnd)
    else if c == '[' then s.openFlow? .openBracket
    else if c == '\x7b' then s.openFlow? .openBrace
    else if c == ']' then s.closeFlow? .closeBracket
    else if c == '\x7d' then s.closeFlow? .closeBrace
    else if c == ',' then s.comma?
    else if c == '-' && atBlank cs then s.dash?
    else if c == '?' && (s.inFlow || atBlank cs) then s.key?
    else if c == ':' && (s.inFlow || atBlank cs) then s.value?
    else if c == '*' then s.anchor? .aliasTo
    else if c == '&' then s.anchor? .anchor
    else if c == '!' then s.tag?
    else if (c == '|' || c == '>') && !s.inFlow then s.block? (c == '|')
    else if c == '\'' || c == '"' then s.quoted?
    else if s.plainBegins then s.plain?
    else none

/-- Scans to the end. Every token takes a character, so that the number of characters is enough
fuel. -/
def run : (fuel : Nat) → Scanner → Option (List Token)
  | 0, _ => none
  | fuel + 1, s => do
    let s ← s.skip.dropStale?
    let s := s.closeBlocks (s.column < ·)
    if s.cursor.rest.isEmpty then
      let s ← (s.closeBlocks fun _ => true).dropSpot?
      return s.found.reverse
    else run fuel (← s.next?)

end Scanner

/-- The tokens of a text. -/
def tokens (text : String) : Option (List Token) := do
  let s ← prepare? text
  Scanner.run (s.length + 1) { cursor := { rest := s } }

end ShaderBind.Yaml
