import ShaderBind.Coord
import ShaderBind.Text.Cut
import ShaderBind.Text.Number

/-!
# Binding attributes in WGSL text

The text of a WGSL shader as a sequence of segments: comments, pairs of a group and a binding
attribute in either order, and single characters of anything else (`segments`). The segments put
together are the text (`render_segments`). `findBindings` reads the places off the pairs and
`moveBindings` writes new numbers into the pairs whose place is moved; nothing else is touched. A
pair whose numbers do not fit a word is kept as it stands.
-/

namespace ShaderBind.Wgsl

/-- An attribute with a number: the characters it is written with and its digits. -/
structure Attribute where
  text : List Char
  digits : List Char
  deriving DecidableEq, Repr

/-- A group and a binding attribute, and the white space between them. -/
structure Pair where
  groupFirst : Bool
  group : Attribute
  separator : List Char
  binding : Attribute
  deriving DecidableEq, Repr

/-- A part of a text. -/
inductive Segment
  | comment (text : List Char)
  | pair (p : Pair)
  | other (c : Char)
  deriving DecidableEq, Repr

/-- The characters of a pair. -/
def Pair.text (p : Pair) : List Char :=
  if p.groupFirst then p.group.text ++ p.separator ++ p.binding.text
  else p.binding.text ++ p.separator ++ p.group.text

/-- The place a pair names, when both numbers fit. -/
def Pair.place? (p : Pair) : Option Coord := do
  let group ← Text.readWord? p.group.digits
  let binding ← Text.readWord? p.binding.digits
  return ⟨group, binding⟩

/-- The characters of a segment. -/
def Segment.text : Segment → List Char
  | comment text => text
  | pair p => p.text
  | other c => [c]

/-- The text that segments make up. -/
def render (segments : List Segment) : List Char :=
  segments.flatMap Segment.text

/-- An attribute with the given head, such as `@group(`, at the start of a text, and the text
behind it. White space may stand around the number. -/
def attribute? (head : String) (s : List Char) : Option (Attribute × List Char) :=
  match Text.dropPrefix? head.toList s with
  | none => none
  | some s₁ =>
    let s₂ := s₁.dropWhile Text.isSpace
    let digits := s₂.takeWhile Text.isDecimalDigit
    let s₃ := s₂.dropWhile Text.isDecimalDigit
    match s₃.dropWhile Text.isSpace with
    | ')' :: rest =>
      if digits.isEmpty then none
      else
        some (⟨head.toList ++ s₁.takeWhile Text.isSpace ++ digits ++ s₃.takeWhile Text.isSpace
          ++ [')'], digits⟩, rest)
    | _ => none

theorem attribute?_append {head : String} {s : List Char} {a : Attribute} {rest : List Char}
    (h : attribute? head s = some (a, rest)) : s = a.text ++ rest := by
  unfold attribute? at h
  split at h
  · cases h
  · rename_i s₁ h₁
    simp only at h
    split at h
    · rename_i r h₂
      split at h
      · cases h
      · cases h
        rw [Text.eq_append_of_dropPrefix? h₁]
        simp only [List.append_assoc, List.singleton_append, List.append_cancel_left_eq]
        rw [← h₂, List.takeWhile_append_dropWhile, List.takeWhile_append_dropWhile,
          List.takeWhile_append_dropWhile]
    · cases h

theorem attribute?_ne_nil {head : String} {s : List Char} {a : Attribute} {rest : List Char}
    (h : attribute? head s = some (a, rest)) : a.text ≠ [] := by
  unfold attribute? at h
  split at h
  · cases h
  · simp only at h
    split at h
    · split at h
      · cases h
      · cases h
        simp
    · cases h

/-- Two attributes with white space between them. -/
def attributes? (first second : String) (s : List Char) :
    Option (Attribute × List Char × Attribute × List Char) :=
  match attribute? first s with
  | none => none
  | some (a, s) =>
    match attribute? second (s.dropWhile Text.isSpace) with
    | none => none
    | some (b, rest) => some (a, s.takeWhile Text.isSpace, b, rest)

theorem attributes?_append {first second : String} {s sep rest : List Char} {a b : Attribute}
    (h : attributes? first second s = some (a, sep, b, rest)) :
    s = a.text ++ sep ++ b.text ++ rest := by
  unfold attributes? at h
  split at h
  · cases h
  · rename_i a' s' h₁
    split at h
    · cases h
    · rename_i b' r h₂
      cases h
      rw [attribute?_append h₁]
      simp only [List.append_assoc, List.append_cancel_left_eq]
      rw [← attribute?_append h₂, List.takeWhile_append_dropWhile]

theorem attributes?_ne_nil {first second : String} {s sep rest : List Char} {a b : Attribute}
    (h : attributes? first second s = some (a, sep, b, rest)) : a.text ≠ [] := by
  unfold attributes? at h
  split at h
  · cases h
  · rename_i h₁
    split at h
    · cases h
    · cases h
      exact attribute?_ne_nil h₁

/-- Head of a group attribute. -/
def groupHead : String := "@group("

/-- Head of a binding attribute. -/
def bindingHead : String := "@binding("

/-- A pair of attributes at the start of a text, and the text behind it. -/
def pair? (s : List Char) : Option (Pair × List Char) :=
  match attributes? groupHead bindingHead s with
  | some (group, separator, binding, rest) => some (⟨true, group, separator, binding⟩, rest)
  | none =>
    match attributes? bindingHead groupHead s with
    | some (binding, separator, group, rest) => some (⟨false, group, separator, binding⟩, rest)
    | none => none

theorem pair?_append {s : List Char} {p : Pair} {rest : List Char}
    (h : pair? s = some (p, rest)) : s = p.text ++ rest := by
  unfold pair? at h
  split at h
  · rename_i h₁
    cases h
    simpa [Pair.text] using attributes?_append h₁
  · split at h
    · rename_i h₁
      cases h
      simpa [Pair.text] using attributes?_append h₁
    · cases h

theorem pair?_ne_nil {s : List Char} {p : Pair} {rest : List Char}
    (h : pair? s = some (p, rest)) : p.text ≠ [] := by
  unfold pair? at h
  split at h
  · rename_i h₁
    cases h
    simp [Pair.text, attributes?_ne_nil h₁]
  · split at h
    · rename_i h₁
      cases h
      simp [Pair.text, attributes?_ne_nil h₁]
    · cases h

/-- A comment at the start of a text, and the text behind it. -/
def comment? : List Char → Option (List Char × List Char)
  | '/' :: '/' :: s => some ('/' :: '/' :: (Text.restOfLine s).1, (Text.restOfLine s).2)
  | '/' :: '*' :: s =>
    (Text.closeComment s).map fun (body, rest) => ('/' :: '*' :: body, rest)
  | _ => none

theorem comment?_append {s text rest : List Char} (h : comment? s = some (text, rest)) :
    s = text ++ rest := by
  unfold comment? at h
  split at h
  · cases h
    simp [Text.restOfLine_append]
  · obtain ⟨⟨body, r⟩, hb, heq⟩ := Option.map_eq_some_iff.1 h
    cases heq
    simp [Text.closeComment_append hb]
  · cases h

theorem comment?_ne_nil {s text rest : List Char} (h : comment? s = some (text, rest)) :
    text ≠ [] := by
  unfold comment? at h
  split at h
  · cases h
    simp
  · obtain ⟨⟨body, r⟩, _, heq⟩ := Option.map_eq_some_iff.1 h
    cases heq
    simp
  · cases h

/-- The first segment of a text, and the text behind it. A comment goes before a pair. -/
def segment? : List Char → Option (Segment × List Char)
  | [] => none
  | c :: s =>
    match comment? (c :: s) with
    | some (text, rest) => some (.comment text, rest)
    | none =>
      match pair? (c :: s) with
      | some (p, rest) => some (.pair p, rest)
      | none => some (.other c, s)

theorem segment?_append {s : List Char} {g : Segment} {rest : List Char}
    (h : segment? s = some (g, rest)) : s = g.text ++ rest := by
  unfold segment? at h
  split at h
  · cases h
  · split at h
    · rename_i hc
      cases h
      exact comment?_append hc
    · split at h
      · rename_i hp
        cases h
        exact pair?_append hp
      · cases h
        rfl

theorem Segment.text_ne_nil {s : List Char} {g : Segment} {rest : List Char}
    (h : segment? s = some (g, rest)) : g.text ≠ [] := by
  unfold segment? at h
  split at h
  · cases h
  · split at h
    · rename_i hc
      cases h
      exact comment?_ne_nil hc
    · split at h
      · rename_i hp
        cases h
        exact pair?_ne_nil hp
      · cases h
        simp [Segment.text]

/-- A text as a sequence of segments. -/
def segments (s : List Char) : List Segment :=
  match _h : segment? s with
  | none => []
  | some (g, rest) => g :: segments rest
termination_by s.length
decreasing_by
  have h₁ := congrArg List.length (segment?_append _h)
  have h₂ := List.length_pos_iff.2 (Segment.text_ne_nil _h)
  rw [List.length_append] at h₁
  omega

theorem segment?_eq_none {s : List Char} : segment? s = none → s = [] := by
  intro h
  unfold segment? at h
  split at h
  · rfl
  · split at h
    · cases h
    · split at h <;> cases h

/-- The segments of a text put together are the text. -/
theorem render_segments (s : List Char) : render (segments s) = s := by
  fun_induction segments s with
  | case1 s h => simp [render, segment?_eq_none h]
  | case2 s g rest h ih =>
    simp only [render, List.flatMap_cons] at ih ⊢
    rw [ih, ← segment?_append h]

/-- The place that a segment names. -/
def Segment.place? : Segment → Option Coord
  | pair p => p.place?
  | _ => none

/-- The places of all pairs outside comments, in order. -/
def findBindings (source : String) : List Coord :=
  (segments source.toList).filterMap Segment.place?

/-- The attribute with the given head and number. -/
def Attribute.ofWord (head : String) (n : UInt32) : Attribute :=
  ⟨head.toList ++ (toString n).toList ++ [')'], (toString n).toList⟩

/-- The pair with the numbers of another place. -/
def Pair.moveTo (p : Pair) (place : Coord) : Pair :=
  { p with
    group := .ofWord groupHead place.group
    binding := .ofWord bindingHead place.binding }

/-- The segment after the moves. -/
def Segment.move (moves : Moves) (g : Segment) : Segment :=
  match g with
  | pair p =>
    match p.place?.bind moves.target? with
    | some place => .pair (p.moveTo place)
    | none => g
  | _ => g

/-- The text with the moves made in its pairs, and the places that were found and moved. -/
def moveBindings (source : String) (moves : Moves) : String × List Coord :=
  let segments := segments source.toList
  (String.ofList (render (segments.map (Segment.move moves))),
    ((segments.filterMap Segment.place?).filter fun c => (moves.target? c).isSome).eraseDups)

end ShaderBind.Wgsl
