import ShaderBind.Error
import ShaderBind.Text.Cut

/-!
# Include directives

`Include.scan` cuts a source at its include directives. A directive is a `#`, the word `include`
not continued by another name character, and a path between double quotes or angle brackets, with
blanks and tabs allowed between the three; comments are passed over. The scan keeps the text
around the directives, so that cuts and rest together are the source again, and reports positions
in bytes and lines (`Place`).
-/

namespace ShaderBind.Source

/-- A directive: its path, the bytes it spans, and its line. -/
structure Directive where
  path : String
  /-- Offset of the `#`. -/
  start : Nat
  /-- Offset behind the closing delimiter. -/
  stop : Nat
  line : Nat
  deriving DecidableEq, Repr

namespace Include

/-- A position in a source: bytes before it, its line, and the offset its line begins at. -/
structure Place where
  offset : Nat := 0
  line : Nat := 1
  lineStart : Nat := 0
  deriving DecidableEq, Repr

/-- The position behind one more character. -/
def Place.next (p : Place) (c : Char) : Place :=
  if c = '\n' then ⟨p.offset + 1, p.line + 1, p.offset + 1⟩
  else { p with offset := p.offset + c.utf8Size }

/-- The position behind more text. -/
def Place.after (p : Place) (s : List Char) : Place :=
  s.foldl Place.next p

/-- Why a source could not be scanned. -/
inductive Failure
  | malformed (fault : IncludeFault) (line offset : Nat)
  | crashed (crash : Crash)
  deriving DecidableEq, Repr

/-- The failure for a fault at a byte, seen from the position the scan has reached. The column is
counted from the start of the line reached, which must not lie behind the fault. -/
def fail (fault : IncludeFault) (offset : Nat) (reached : Place) : Failure :=
  if reached.lineStart ≤ offset then
    .malformed fault reached.line (offset - reached.lineStart + 1)
  else .crashed .subOverflow

/-- A directive, its characters, and the text between it and the one before. -/
structure Cut where
  before : List Char
  span : List Char
  directive : Directive
  deriving DecidableEq, Repr

/-- A source cut at its directives. -/
structure Cuts where
  cuts : List Cut
  rest : List Char
  deriving DecidableEq, Repr

/-- Puts more text in front. -/
def Cuts.prepend (text : List Char) (s : Cuts) : Cuts :=
  match s.cuts with
  | [] => { s with rest := text ++ s.rest }
  | cut :: cuts => { s with cuts := { cut with before := text ++ cut.before } :: cuts }

/-- The source that was cut. -/
def Cuts.source (s : Cuts) : List Char :=
  s.cuts.flatMap (fun c => c.before ++ c.span) ++ s.rest

/-- The text after the word `include`, when the text begins with blanks and that word and the word
ends there; with it, the characters passed. -/
def keyword? (s : List Char) : Option (List Char × List Char) :=
  let blanks := s.takeWhile Text.isBlank
  match Text.dropPrefix? "include".toList (s.dropWhile Text.isBlank) with
  | some rest =>
    if (rest.head?.map Text.isNameChar).getD false then none
    else some (blanks ++ "include".toList, rest)
  | none => none

theorem keyword?_append {s word rest : List Char} (h : keyword? s = some (word, rest)) :
    s = word ++ rest := by
  unfold keyword? at h
  simp only at h
  split at h
  · rename_i r hr
    split at h
    · cases h
    · cases h
      rw [List.append_assoc, ← Text.eq_append_of_dropPrefix? hr, List.takeWhile_append_dropWhile]
  · cases h

/-- The path up to the closing delimiter, and the text behind it. -/
def closePath (closing : Char) (fault : IncludeFault) (s : List Char) (p : Place) :
    Except Failure (List Char × List Char) :=
  let path := s.takeWhile fun c => c != closing && c != '\n'
  match s.dropWhile fun c => c != closing && c != '\n' with
  | c :: rest =>
    if c = closing then .ok (path, rest)
    else .error (fail fault (p.after path).offset (p.after path))
  | [] => .error (fail fault (p.after path).offset (p.after path))

theorem closePath_append {closing : Char} {fault : IncludeFault} {s path rest : List Char}
    {p : Place} (h : closePath closing fault s p = .ok (path, rest)) :
    s = path ++ closing :: rest := by
  unfold closePath at h
  simp only at h
  split at h
  · rename_i c r hr
    split at h
    · rename_i hc
      cases h
      subst hc
      rw [← hr]
      exact List.takeWhile_append_dropWhile.symm
    · cases h
  · cases h

/-- The path after the word `include`: the characters of blanks, delimiters and path, the path,
and the text behind. -/
def path? (s : List Char) (p : Place) : Except Failure (List Char × List Char × List Char) :=
  let blanks := s.takeWhile Text.isBlank
  let q := p.after blanks
  match s.dropWhile Text.isBlank with
  | '"' :: body => do
    let (path, rest) ← closePath '"' .unclosedQuote body (q.next '"')
    return (blanks ++ '"' :: path ++ ['"'], path, rest)
  | '<' :: body => do
    let (path, rest) ← closePath '>' .unclosedAngle body (q.next '<')
    return (blanks ++ '<' :: path ++ ['>'], path, rest)
  | _ => .error (fail .missingDelimiter q.offset q)

theorem path?_append {s span path rest : List Char} {p : Place}
    (h : path? s p = .ok (span, path, rest)) : s = span ++ rest := by
  unfold path? at h
  simp only at h
  split at h
  · rename_i body hb
    cases hc : closePath '"' .unclosedQuote body
        ((p.after (s.takeWhile Text.isBlank)).next '"') with
    | error e => rw [hc] at h; cases h
    | ok v =>
      rw [hc] at h
      cases h
      rw [closePath_append hc] at hb
      have hs := List.takeWhile_append_dropWhile (p := Text.isBlank) (l := s)
      rw [hb] at hs
      simpa using hs.symm
  · rename_i body hb
    cases hc : closePath '>' .unclosedAngle body
        ((p.after (s.takeWhile Text.isBlank)).next '<') with
    | error e => rw [hc] at h; cases h
    | ok v =>
      rw [hc] at h
      cases h
      rw [closePath_append hc] at hb
      have hs := List.takeWhile_append_dropWhile (p := Text.isBlank) (l := s)
      rw [hb] at hs
      simpa using hs.symm
  · cases h

/-- Where the scan stands when an unclosed comment ends the source: the last character is not
looked at. -/
def Place.afterUnclosed (p : Place) (s : List Char) : Place :=
  p.after s.dropLast

/-- Cuts the text behind a position at its directives. -/
def scanFrom (s : List Char) (p : Place) : Except Failure Cuts :=
  match s with
  | [] => .ok ⟨[], []⟩
  | '/' :: '/' :: rest => do
    let comment := '/' :: '/' :: (Text.restOfLine rest).1
    let cuts ← scanFrom (Text.restOfLine rest).2 (p.after comment)
    return cuts.prepend comment
  | '/' :: '*' :: rest =>
    match _h : Text.closeComment rest with
    | some (body, rest) => do
      let comment := '/' :: '*' :: body
      let cuts ← scanFrom rest (p.after comment)
      return cuts.prepend comment
    | none => .error (fail .unclosedComment p.offset ((p.after ['/', '*']).afterUnclosed rest))
  | '#' :: rest =>
    match _h : keyword? rest with
    | some (word, rest) =>
      match _h' : path? rest (p.after ('#' :: word)) with
      | .error e => .error e
      | .ok (tail, path, rest) => do
        let span := '#' :: word ++ tail
        let q := p.after span
        let cuts ← scanFrom rest q
        return { cuts with
          cuts := ⟨[], span, ⟨String.ofList path, p.offset, q.offset, p.line⟩⟩ :: cuts.cuts }
    | none => do
      let cuts ← scanFrom rest (p.next '#')
      return cuts.prepend ['#']
  | c :: rest => do
    let cuts ← scanFrom rest (p.next c)
    return cuts.prepend [c]
termination_by s.length
decreasing_by
  · have := congrArg List.length (Text.restOfLine_append rest)
    simp only [List.length_append, List.length_cons] at this ⊢
    omega
  · have := congrArg List.length (Text.closeComment_append _h)
    simp only [List.length_append, List.length_cons] at this ⊢
    omega
  · have h1 := congrArg List.length (keyword?_append _h)
    have h2 := congrArg List.length (path?_append _h')
    simp only [List.length_append, List.length_cons] at h1 h2 ⊢
    omega
  · simp
  · simp

/-- Cuts a source at its directives. -/
def scan (source : List Char) : Except Failure Cuts :=
  scanFrom source {}

/-- The directives of a source, in order. -/
def find (source : String) : Except Failure (List Directive) := do
  let cuts ← scan source.toList
  return cuts.cuts.map Cut.directive

end Include

end ShaderBind.Source
