import ShaderBind.Yaml.Scalar

/-!
# Block scalars of YAML

A block scalar is a text of whole lines that stand further right than the block around them
(`blockScalar?`). In a literal one the lines stay as they are; in a folded one a newline between two
lines that begin with a word is a space. The header may give the indentation, which otherwise is that
of the first line, and says what happens to the line breaks at the end (`Chomp`).
-/

namespace ShaderBind.Yaml

/-- What happens to the line breaks at the end of a block scalar. -/
inductive Chomp
  | strip
  /-- One is kept. -/
  | clip
  | keep
  deriving DecidableEq, Repr

/-- The line before a block scalar. -/
structure BlockHeader where
  chomp : Chomp := .clip
  /-- The indentation below the block around the scalar. -/
  increment : Option Nat := none

/-- How an indicator chomps. -/
def chompOf? (c : Char) : Option Chomp :=
  match c with
  | '+' => some .keep
  | '-' => some .strip
  | _ => none

/-- The indentation that a digit gives. -/
def incrementOf? (c : Char) : Option Nat :=
  if '1' ≤ c ∧ c ≤ '9' then some (c.toNat - '0'.toNat) else none

/-- Reads the header behind its first mark: the two indicators in either order. -/
def blockHeader? (c : Cursor) : Option (BlockHeader × Cursor) := do
  let (header, n) : BlockHeader × Nat := match c.rest with
    | a :: s =>
      match chompOf? a, incrementOf? a with
      | some chomp, _ =>
        match s.head?.bind incrementOf? with
        | some n => (⟨chomp, some n⟩, 2)
        | none => (⟨chomp, none⟩, 1)
      | none, some n =>
        match s.head?.bind chompOf? with
        | some chomp => (⟨chomp, some n⟩, 2)
        | none => (⟨.clip, some n⟩, 1)
      | none, none => ({}, 0)
    | [] => ({}, 0)
  return (header, ← (c.advance n).endLine?)

/-- Line breaks before a line of a block scalar. -/
structure BlockGap where
  /-- The line breaks, the last first. -/
  breaks : List Char
  /-- The column of the widest indentation. -/
  widest : Nat
  cursor : Cursor

/-- Reads line breaks and the indentation of the next line with text; a tab may not indent. -/
def blockGap? (indent : Option Nat) (breaks : List Char) (widest : Nat) (mark : Mark) :
    List Char → Option BlockGap
  | [] => some ⟨breaks, max widest mark.column, ⟨mark, []⟩⟩
  | c :: cs =>
    if (c == ' ' || c == '\t') && indent.all (mark.column < ·) then
      if c == '\t' then none else blockGap? indent breaks widest (mark.after c) cs
    else if isBreak c then
      blockGap? indent (c :: breaks) (max widest mark.column) (mark.after c) cs
    else some ⟨breaks, max widest mark.column, ⟨mark, c :: cs⟩⟩

/-- Whether a line begins with a blank. -/
def startsBlank (s : List Char) : Bool := s.head?.any isBlank

/-- What is read of a block scalar: its text with the last character first, the break of the last
line, whether that line began with a blank, and what follows. -/
structure BlockText where
  text : List Char := []
  lastBreak : Option Char := none
  lastBlank : Bool := false
  gap : BlockGap

/-- The text up to a further line: its last break, or a space for it, and the empty lines. -/
def BlockText.joinLine (b : BlockText) (literal : Bool) : List Char :=
  let plainLines := !b.lastBlank && !startsBlank b.gap.cursor.rest
  let text :=
    if !literal && b.lastBreak = some '\n' && plainLines then
      if b.gap.breaks.isEmpty then ' ' :: b.text else b.text
    else b.lastBreak.toList ++ b.text
  b.gap.breaks ++ text

/-- Reads the lines that stand at the indentation. Every line takes a character, so that the number
of characters is enough fuel. -/
def blockLines (literal : Bool) (indent : Nat) : (fuel : Nat) → BlockText → Option BlockText
  | 0, _ => none
  | fuel + 1, b =>
    let cursor := b.gap.cursor
    if cursor.mark.column != indent || cursor.rest.isEmpty then some b
    else do
      let (line, after) := cursor.span (!isBreak ·)
      let behind := after.advance 1
      let gap ← blockGap? (some indent) [] 0 behind.mark behind.rest
      blockLines literal indent fuel {
        text := line.reverse ++ b.joinLine literal
        lastBreak := after.rest.head?
        lastBlank := startsBlank line
        gap }

/-- Reads a block scalar behind its first mark. `blocks` are the columns of the open blocks. -/
def blockScalar? (literal : Bool) (blocks : List Nat) (c : Cursor) : Option Scanned := do
  let (header, c) ← blockHeader? c
  let given := header.increment.map (· + blocks.headD 0)
  let gap ← blockGap? given [] 0 c.mark c.rest
  let least := match blocks with
    | [] => 1
    | b :: _ => b + 1
  let indent := given.getD (max gap.widest least)
  let b ← blockLines literal indent (c.rest.length + 1) { gap }
  let text := match header.chomp with
    | .strip => b.text
    | .clip => b.lastBreak.toList ++ b.text
    | .keep => b.gap.breaks ++ b.lastBreak.toList ++ b.text
  return ⟨written text, true, b.gap.cursor⟩

end ShaderBind.Yaml
