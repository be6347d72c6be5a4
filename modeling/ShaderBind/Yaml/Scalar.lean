import ShaderBind.Text.Number
import ShaderBind.Yaml.Cursor

/-!
# Scalars of YAML

Three ways to write a scalar: plain, in single quotes and in double quotes. A scalar may go on over
several lines. What stands between two words is a gap: blanks stay, a single newline is a space, and
of several line breaks the first is dropped if it is a newline (`Gap.fold`).
-/

namespace ShaderBind.Yaml

/-- White space inside a scalar. -/
inductive Gap
  | none
  /-- Blanks inside a line, the last first. -/
  | blanks (cs : List Char)
  /-- A line break and those after it, the last first. -/
  | breaks (first : Char) (more : List Char)
  /-- Line breaks after one that was escaped, the last first. -/
  | joined (more : List Char)
  deriving DecidableEq, Repr

namespace Gap

/-- The gap after a blank; blanks that begin a line do not count. -/
def blank (c : Char) : Gap → Gap
  | none => blanks [c]
  | blanks cs => blanks (c :: cs)
  | g => g

/-- The gap after a line break. -/
def lineBreak (c : Char) : Gap → Gap
  | breaks first more => breaks first (c :: more)
  | joined more => joined (c :: more)
  | _ => breaks c []

/-- Whether the gap holds a line break. -/
def crossesLine : Gap → Bool
  | breaks .. => true
  | joined _ => true
  | _ => false

/-- Adds what the gap stands for to a text whose last character comes first. -/
def fold (g : Gap) (written : List Char) : List Char :=
  match g with
  | none => written
  | blanks cs => cs ++ written
  | breaks '\n' [] => ' ' :: written
  | breaks '\n' more => more ++ written
  | breaks first more => more ++ first :: written
  | joined more => more ++ written

end Gap

/-- A scalar and what follows it. -/
structure Scanned where
  text : String
  /-- Whether a line break follows the text directly. -/
  endsLine : Bool
  cursor : Cursor
  deriving Repr

/-- The text of characters whose last comes first. -/
def written (cs : List Char) : String := String.ofList cs.reverse

/-! ## Plain scalars -/

/-- The characters that structure a flow collection. -/
def isFlowMark (c : Char) : Bool :=
  c == ',' || c == '[' || c == ']' || c == '\x7b' || c == '\x7d'

/-- Where a plain scalar stands. -/
structure PlainPlace where
  /-- Inside a flow collection. -/
  flow : Bool
  /-- The least column of a further line. -/
  minColumn : Nat

/-- Whether a plain scalar ends before what comes next. -/
def plainEnds (place : PlainPlace) (gap : Gap) (column : Nat) (s : List Char) : Bool :=
  match s with
  | [] => true
  | c :: cs =>
    (gap.crossesLine && !place.flow && column < place.minColumn) ||
    (column == 0 && atDocumentMark s) ||
    (c == '#' && gap != .none) ||
    (c == ':' && atBlank cs) ||
    (place.flow && isFlowMark c)

/-- Whether a colon stands directly before a mark of a flow collection, where it has no meaning. -/
def strayColon (place : PlainPlace) : List Char → Bool
  | ':' :: c :: _ => place.flow && (isFlowMark c || c == '?')
  | _ => false

/-- Reads a plain scalar. A tab that begins a line before the least column is an error. -/
def plainFrom (place : PlainPlace) (text : List Char) (gap : Gap) (mark : Mark) :
    List Char → Option Scanned
  | [] => some ⟨written text, gap.crossesLine, ⟨mark, []⟩⟩
  | c :: cs =>
    if isBreak c then plainFrom place text (gap.lineBreak c) (mark.after c) cs
    else if isBlank c then
      if c == '\t' && gap.crossesLine && mark.column < place.minColumn then none
      else plainFrom place text (gap.blank c) (mark.after c) cs
    else if plainEnds place gap mark.column (c :: cs) then
      some ⟨written text, gap.crossesLine, ⟨mark, c :: cs⟩⟩
    else if strayColon place (c :: cs) then none
    else plainFrom place (c :: gap.fold text) .none (mark.after c) cs

/-- The plain scalar at a cursor. -/
def plain? (place : PlainPlace) (c : Cursor) : Option Scanned :=
  plainFrom place [] .none c.mark c.rest

/-! ## Quoted scalars -/

/-- Reads the rest of a scalar in single quotes; the flag tells that a quote has just been read,
which ends the scalar unless another follows. -/
def singleFrom (text : List Char) (gap : Gap) (quote : Bool) (mark : Mark) :
    List Char → Option Scanned
  | [] => if quote then some ⟨written (gap.fold text), false, ⟨mark, []⟩⟩ else none
  | c :: cs =>
    if quote then
      if c == '\'' then singleFrom ('\'' :: gap.fold text) .none false (mark.after c) cs
      else some ⟨written (gap.fold text), false, ⟨mark, c :: cs⟩⟩
    else if mark.column == 0 && atDocumentMark (c :: cs) then none
    else if c == '\'' then singleFrom text gap true (mark.after c) cs
    else if isBreak c then singleFrom text (gap.lineBreak c) false (mark.after c) cs
    else if isBlank c then singleFrom text (gap.blank c) false (mark.after c) cs
    else singleFrom (c :: gap.fold text) .none false (mark.after c) cs

/-- The character that an escape stands for. -/
def escaped? (c : Char) : Option Char :=
  match c with
  | '0' => some '\x00'
  | 'a' => some '\x07'
  | 'b' => some '\x08'
  | 't' => some '\t'
  | '\t' => some '\t'
  | 'n' => some '\n'
  | 'v' => some '\x0b'
  | 'f' => some '\x0c'
  | 'r' => some '\r'
  | 'e' => some '\x1b'
  | ' ' => some ' '
  | '"' => some '"'
  | '/' => some '/'
  | '\\' => some '\\'
  | 'N' => some '\u0085'
  | '_' => some '\u00a0'
  | 'L' => some '\u2028'
  | 'P' => some '\u2029'
  | _ => none

/-- The number of digits of an escape by number. -/
def escapeDigits? (c : Char) : Option Nat :=
  match c with
  | 'x' => some 2
  | 'u' => some 4
  | 'U' => some 8
  | _ => none

/-- Where a scalar in double quotes is. -/
inductive Escape
  | outside
  | begun
  | digits (left value : Nat)

/-- Reads the rest of a scalar in double quotes. -/
def doubleFrom (text : List Char) (gap : Gap) (escape : Escape) (mark : Mark) :
    List Char → Option Scanned
  | [] => none
  | c :: cs =>
    match escape with
    | .begun =>
      if isBreak c then doubleFrom text (.joined []) .outside (mark.after c) cs
      else
        match escaped? c with
        | some e => doubleFrom (e :: text) .none .outside (mark.after c) cs
        | none =>
          match escapeDigits? c with
          | some n => doubleFrom text .none (.digits n 0) (mark.after c) cs
          | none => none
    | .digits left value =>
      match Text.hexValue? c with
      | none => none
      | some d =>
        let value := 16 * value + d
        if left ≤ 1 then
          if value.isValidChar then
            doubleFrom (Char.ofNat value :: text) .none .outside (mark.after c) cs
          else none
        else doubleFrom text .none (.digits (left - 1) value) (mark.after c) cs
    | .outside =>
      if mark.column == 0 && atDocumentMark (c :: cs) then none
      else if c == '"' then some ⟨written (gap.fold text), false, ⟨mark.after c, cs⟩⟩
      else if isBreak c then doubleFrom text (gap.lineBreak c) .outside (mark.after c) cs
      else if isBlank c then doubleFrom text (gap.blank c) .outside (mark.after c) cs
      else if c == '\\' then doubleFrom (gap.fold text) .none .begun (mark.after c) cs
      else doubleFrom (c :: gap.fold text) .none .outside (mark.after c) cs

/-- The scalar in quotes at a cursor. -/
def quoted? (c : Cursor) : Option Scanned :=
  match c.rest with
  | '\'' :: s => singleFrom [] .none false (c.mark.after '\'') s
  | '"' :: s => doubleFrom [] .none .outside (c.mark.after '"') s
  | _ => none

end ShaderBind.Yaml
