import ShaderBind.Text.Class

/-!
# Places in a YAML text

A text is read from a cursor (`Cursor`): the characters that are left and the place of the first of
them (`Mark`), counted in bytes, in lines, and in characters of the line. Before that every line
break is brought to one character (`prepare?`): a newline, or one of the two separators of Unicode,
which stay what they are.
-/

namespace ShaderBind.Yaml

/-- A line break: a newline, a line separator or a paragraph separator. -/
def isBreak (c : Char) : Bool := c == '\n' || c == '\u2028' || c == '\u2029'

/-- A blank inside a line. -/
def isBlank (c : Char) : Bool := c == ' ' || c == '\t'

/-- Whether a blank, a line break or the end comes next. -/
def atBlank : List Char → Bool
  | [] => true
  | c :: _ => isBlank c || isBreak c

/-- Whether a line that marks the start or the end of a document comes next. -/
def atDocumentMark : List Char → Bool
  | '-' :: '-' :: '-' :: s => atBlank s
  | '.' :: '.' :: '.' :: s => atBlank s
  | _ => false

/-- A place in a text. -/
structure Mark where
  /-- The bytes before it. -/
  index : Nat := 0
  line : Nat := 0
  column : Nat := 0
  deriving DecidableEq, Repr

/-- The place behind a character. -/
def Mark.after (m : Mark) (c : Char) : Mark :=
  if isBreak c then ⟨m.index + c.utf8Size, m.line + 1, 0⟩
  else ⟨m.index + c.utf8Size, m.line, m.column + 1⟩

/-- A place and the text from there on. -/
structure Cursor where
  mark : Mark := {}
  rest : List Char
  deriving DecidableEq, Repr

namespace Cursor

/-- The cursor behind the next `n` characters. -/
def advance (c : Cursor) (n : Nat) : Cursor :=
  ⟨(c.rest.take n).foldl Mark.after c.mark, c.rest.drop n⟩

/-- The characters that satisfy `p`, and the cursor behind them. -/
def span (p : Char → Bool) (c : Cursor) : List Char × Cursor :=
  let taken := c.rest.takeWhile p
  (taken, c.advance taken.length)

/-- The cursor behind the characters that satisfy `p`. -/
def skip (p : Char → Bool) (c : Cursor) : Cursor := (c.span p).2

/-- The cursor at the start of the next line, if blanks and a comment are all that is left of
this one. -/
def endLine? (c : Cursor) : Option Cursor :=
  let c := c.skip isBlank
  let c := if c.rest.head? = some '#' then c.skip (!isBreak ·) else c
  match c.rest with
  | [] => some c
  | b :: _ => if isBreak b then some (c.advance 1) else none

end Cursor

/-- The characters that may stand in a text. -/
def isPrintable (c : Char) : Bool :=
  c == '\t' || c == '\n' || (' ' ≤ c && c ≤ '~') || c.toNat == 0x85 ||
    (0xa0 ≤ c.toNat && c.toNat ≤ 0xfffd) || 0x10000 ≤ c.toNat

/-- The text with one character for every line break. -/
def unifyBreaks : List Char → List Char
  | [] => []
  | '\r' :: '\n' :: s => '\n' :: unifyBreaks s
  | c :: s => (if c == '\r' || c == '\u0085' then '\n' else c) :: unifyBreaks s

/-- The text that is read, unless it holds a character that may not stand there. -/
def prepare? (text : String) : Option (List Char) :=
  let s := unifyBreaks text.toList
  if s.all isPrintable then some s else none

end ShaderBind.Yaml
