import ShaderBind.Glsl.Expand
import ShaderBind.Glsl.Token

/-!
# Where the definitions go

The expanded source is the source with the definitions put in at one place, and a newline before
them if the place is in the middle of a line (`toList_expandedSource`). The place is behind the
line of the source's first token if only white space stands before the token and `#version` begins
the line, and the start of the source otherwise (`splitVersion_opening`).

So a version directive that is the first token does not always stay first. In front of it may be
comments, and blanks may follow its number sign; then the definitions come before it, although they
are to follow it (`expandedSource_version`, `expandedSource_commented`).
-/

namespace ShaderBind.Glsl

/-! ## The first token -/

/-- A text from its first token on, behind white space and comments. -/
def fromToken : Region → List Char → List Char
  | _, [] => []
  | .code, '/' :: '/' :: s => fromToken .lineComment s
  | .code, '/' :: '*' :: s => fromToken .blockComment s
  | .code, c :: s => if Text.isSpace c then fromToken .code s else c :: s
  | .lineComment, c :: s =>
    if c = '\n' ∨ c = '\r' then fromToken .code s else fromToken .lineComment s
  | .blockComment, '*' :: '/' :: s => fromToken .code s
  | .blockComment, _ :: s => fromToken .blockComment s

/-- A source cut at its first token: what is before it, its line, and the lines behind. -/
structure Opening (source front line rest : List Char) : Prop where
  split : source = front ++ (line ++ rest)
  first : fromToken .code source = line ++ rest
  line_end : (∃ text, line = text ++ ['\n'] ∧ '\n' ∉ text) ∨ '\n' ∉ line ∧ rest = []

/-- The line begins with the version directive, whose number sign blanks may follow. -/
def BeginsVersion (line : List Char) : Prop :=
  ∃ blanks tail, line = '#' :: (blanks ++ ("version".toList ++ tail)) ∧
    (∀ c ∈ blanks, isBlank c = true) ∧ ∀ c ∈ tail.head?, Text.isIdentifierChar c = false

/-- Only white space is before the line, which begins with `#version` without a blank. -/
structure Recognized (front line : List Char) : Prop where
  front_space : ∀ c ∈ front, Text.isSpace c = true
  line_begins : "#version".toList <+: line

theorem fromToken_cons {c : Char} (h : c ≠ '/') (s : List Char) :
    fromToken .code (c :: s) = if Text.isSpace c then fromToken .code s else c :: s := by
  rw [fromToken]
  · exact fun _ hc => absurd hc h
  · exact fun _ hc => absurd hc h

/-- White space in front of a number sign is all that is skipped. -/
theorem fromToken_space {front : List Char} (h : ∀ c ∈ front, Text.isSpace c = true)
    (s : List Char) : fromToken .code (front ++ '#' :: s) = '#' :: s := by
  induction front with
  | nil => rw [List.nil_append, fromToken_cons (by decide), if_neg (by decide)]
  | cons c front ih =>
    obtain ⟨hc, hfront⟩ := List.forall_mem_cons.1 h
    have hne : c ≠ '/' := by
      rintro rfl
      exact absurd hc (by decide)
    rw [List.cons_append, fromToken_cons hne, if_pos hc, ih hfront]

theorem fromToken_suffix (region : Region) (s : List Char) : fromToken region s <:+ s := by
  fun_induction fromToken region s with
  | case1 | case5 => exact List.suffix_rfl
  | case2 s ih | case3 s ih | case8 s ih =>
    exact ih.trans ((List.suffix_cons _ s).trans (List.suffix_cons _ _))
  | case4 c s _ _ _ ih | case6 c s _ ih | case7 c s _ ih | case9 c s _ ih =>
    exact ih.trans (List.suffix_cons c s)

/-! ## The place -/

theorem splitLine_append (s : List Char) : (splitLine s).1 ++ (splitLine s).2 = s := by
  induction s with
  | nil => rfl
  | cons c s ih =>
    rw [splitLine]
    split
    next hc => rw [eq_of_beq hc, List.singleton_append]
    next => rw [List.cons_append, ih]

/-- The first line has no newline but the one that ends it, and all there is where none does. -/
theorem splitLine_end (s : List Char) :
    (∃ text, (splitLine s).1 = text ++ ['\n'] ∧ '\n' ∉ text) ∨
      '\n' ∉ (splitLine s).1 ∧ (splitLine s).2 = [] := by
  induction s with
  | nil => exact .inr ⟨List.not_mem_nil, rfl⟩
  | cons c s ih =>
    rw [splitLine]
    split
    next => exact .inl ⟨[], rfl, List.not_mem_nil⟩
    next hc =>
      have hne : '\n' ≠ c := fun h => hc (beq_iff_eq.2 h.symm)
      rcases ih with ⟨text, hline, htext⟩ | ⟨hline, hrest⟩
      · exact .inl ⟨c :: text, congrArg _ hline, by simp [hne, htext]⟩
      · exact .inr ⟨by simp [hne, hline], hrest⟩

theorem exists_opening (source : List Char) :
    ∃ front line rest, Opening source front line rest := by
  obtain ⟨front, hfront⟩ := fromToken_suffix .code source
  have hsplit := splitLine_append (fromToken .code source)
  exact ⟨front, _, _, by rw [hsplit, hfront], hsplit.symm, splitLine_end _⟩

theorem splitLine_of_not_mem {text : List Char} (h : '\n' ∉ text) (rest : List Char) :
    splitLine (text ++ rest) = (text ++ (splitLine rest).1, (splitLine rest).2) := by
  induction text with
  | nil => rfl
  | cons c text ih =>
    rw [List.mem_cons, not_or] at h
    rw [List.cons_append, splitLine, if_neg (by simpa using Ne.symm h.1), ih h.2, List.cons_append]

theorem Opening.splitLine_eq {source front line rest : List Char}
    (h : Opening source front line rest) : splitLine (line ++ rest) = (line, rest) := by
  rcases h.line_end with ⟨text, rfl, htext⟩ | ⟨hline, rfl⟩
  · rw [List.append_assoc, splitLine_of_not_mem htext]
    rfl
  · rw [splitLine_of_not_mem hline, splitLine, List.append_nil]

theorem splitVersion_append (source : List Char) :
    (splitVersion source).1 ++ (splitVersion source).2 = source := by
  unfold splitVersion
  dsimp only
  split
  · rfl
  · rw [List.append_assoc, splitLine_append, Text.trimStart, List.takeWhile_append_dropWhile]

/-- A word without line breaks that begins a text begins its first line. -/
theorem Opening.line_begins {source front line rest word : List Char}
    (h : Opening source front line rest) (hword : '\n' ∉ word) (hbegins : word <+: line ++ rest) :
    word <+: line := by
  rcases List.prefix_or_prefix_of_prefix hbegins (List.prefix_append line rest) with hline | hline
  · exact hline
  · rcases h.line_end with ⟨text, rfl, -⟩ | ⟨-, rfl⟩
    · exact absurd (hline.subset (by simp)) hword
    · simpa using hbegins

/-- The definitions go behind the line of the first token if that is a version directive as it is
looked for, and to the start otherwise. -/
theorem splitVersion_opening {source front line rest : List Char}
    (h : Opening source front line rest) :
    (Recognized front line → (splitVersion source).1 = front ++ line) ∧
      (¬ Recognized front line → (splitVersion source).1 = []) := by
  constructor
  · rintro ⟨hfront, tail, rfl⟩
    have hspace : Text.isSpace '#' ≠ true := by decide
    have hsource : source = front ++ '#' :: ("version".toList ++ (tail ++ rest)) := by
      rw [h.split, List.append_assoc]
      rfl
    have htake : source.takeWhile Text.isSpace = front := by
      rw [hsource, List.takeWhile_append_of_pos hfront, List.takeWhile_cons_of_neg hspace,
        List.append_nil]
    have hbody : Text.trimStart Text.isSpace source = "#version".toList ++ (tail ++ rest) := by
      rw [hsource, Text.trimStart, List.dropWhile_append_of_pos hfront,
        List.dropWhile_cons_of_neg hspace]
      rfl
    unfold splitVersion
    dsimp only
    rw [hbody, Text.dropPrefix?_append, htake, ← List.append_assoc, h.splitLine_eq]
  · intro hnot
    unfold splitVersion
    dsimp only
    split
    · rfl
    next tail hbegins =>
      -- the text that was found is the first token, so the directive is recognized
      have hfront : ∀ c ∈ source.takeWhile Text.isSpace, Text.isSpace c = true :=
        List.all_eq_true.1 List.all_takeWhile
      have hbody : source.dropWhile Text.isSpace = '#' :: ("version".toList ++ tail) :=
        Text.dropPrefix?_eq_some_iff.1 hbegins
      have hsource :
          source = source.takeWhile Text.isSpace ++ '#' :: ("version".toList ++ tail) := by
        rw [← hbody, List.takeWhile_append_dropWhile]
      have hfirst : line ++ rest = '#' :: ("version".toList ++ tail) := by
        rw [← h.first, ← fromToken_space hfront, ← hsource]
      have heq : front = source.takeWhile Text.isSpace := by
        have hsplit := h.split
        rw [hfirst] at hsplit
        exact List.append_cancel_right (hsplit.symm.trans hsource)
      refine absurd ⟨heq ▸ hfront, h.line_begins (by decide) ?_⟩ hnot
      rw [hfirst]
      exact ⟨tail, rfl⟩

/-- The line break before the definitions. -/
def gap (before : List Char) : List Char :=
  if before = [] ∨ Text.endsLine before then [] else ['\n']

theorem toList_expandedSource {r : IrRequest} (h : r.preamble = true) :
    (expandedSource r).toList =
      (splitVersion r.source.toList).1 ++ gap (splitVersion r.source.toList).1 ++
        (definitionLines r).toList ++ (splitVersion r.source.toList).2 := by
  unfold expandedSource
  rw [if_neg (by simp [h])]
  generalize splitVersion r.source.toList = cut
  obtain ⟨head, tail⟩ := cut
  cases head with
  | nil => simp [gap]
  | cons c head =>
    by_cases hend : Text.endsLine (c :: head) <;> simp [gap, Text.ensureNewline, hend]

/-- The expanded source is the source with the definitions at one place, and at most one newline
before them; everything else is as it was. Every source can be cut at its first token. The place is
behind the line of this token if that is a version directive with only white space before it and no
blank behind its number sign, and at the start otherwise. So the line of a version directive that
is the first token precedes the definitions exactly if it is written so. -/
theorem expandedSource_version {r : IrRequest} (h : r.preamble = true) :
    ∃ before after, r.source.toList = before ++ after ∧
      (expandedSource r).toList =
        before ++ gap before ++ (definitionLines r).toList ++ after ∧
      (∃ front line rest, Opening r.source.toList front line rest) ∧
      ∀ front line rest, Opening r.source.toList front line rest →
        (Recognized front line → before = front ++ line) ∧
        (¬ Recognized front line → before = []) ∧
        (BeginsVersion line → (front ++ line <+: before ↔ Recognized front line)) := by
  refine ⟨_, _, (splitVersion_append r.source.toList).symm, toList_expandedSource h,
    exists_opening r.source.toList, fun front line rest hopening => ?_⟩
  obtain ⟨hbehind, hstart⟩ := splitVersion_opening hopening
  refine ⟨hbehind, hstart, fun hversion => ⟨fun hbefore => ?_, fun hrecognized => ?_⟩⟩
  · refine Classical.byContradiction fun hnot => ?_
    obtain ⟨blanks, tail, rfl, -⟩ := hversion
    rw [hstart hnot] at hbefore
    simp at hbefore
  · exact hbehind hrecognized ▸ List.prefix_rfl

/-- A source that is only a directive, its line without an end. -/
def bare : IrRequest where
  shader := "S"
  stage := .vertex
  source := " \n#version 450"

/-- A version without a line end gets one before the definitions. -/
theorem expandedSource_version_bare :
    bare.preamble = true ∧
      Opening bare.source.toList [' ', '\n'] "#version 450".toList [] ∧
      Recognized [' ', '\n'] "#version 450".toList ∧
      (expandedSource bare).toList =
        bare.source.toList ++ ['\n'] ++ (definitionLines bare).toList := by
  have hopening : Opening bare.source.toList [' ', '\n'] "#version 450".toList [] :=
    ⟨by decide, by decide, .inr ⟨by decide, rfl⟩⟩
  have hrecognized : Recognized [' ', '\n'] "#version 450".toList :=
    ⟨by simp only [List.forall_mem_cons]; exact ⟨by decide, by decide, by simp⟩,
      [' ', '4', '5', '0'], rfl⟩
  obtain ⟨before, after, hsplit, hexpanded, -, hplace⟩ :=
    expandedSource_version (show bare.preamble = true from rfl)
  have hbefore : before = bare.source.toList := (hplace _ _ _ hopening).1 hrecognized
  subst hbefore
  have hafter : after = [] := by simpa using hsplit
  subst hafter
  refine ⟨rfl, hopening, hrecognized, ?_⟩
  rw [hexpanded, List.append_nil]
  rfl

/-- A source whose version directive follows a comment. -/
def commented : IrRequest where
  shader := "S"
  stage := .pixel
  source := "// c\n#version 450\n@"

/-- The definitions are put before the directive, and not behind its line. -/
theorem expandedSource_commented :
    Opening commented.source.toList "// c\n".toList "#version 450\n".toList ['@'] ∧
      BeginsVersion "#version 450\n".toList ∧
      ¬ ∃ before gap after, commented.source.toList = before ++ after ∧
        (gap = [] ∨ gap = ['\n']) ∧
        (expandedSource commented).toList =
          before ++ gap ++ (definitionLines commented).toList ++ after ∧
        "// c\n".toList ++ "#version 450\n".toList <+: before := by
  refine ⟨⟨by decide, by decide, .inl ⟨"#version 450".toList, by decide, by decide⟩⟩,
    ⟨[], " 450\n".toList, by decide, by simp, fun c hc => ?_⟩, ?_⟩
  · obtain rfl : ' ' = c := by simpa using hc
    decide
  · rintro ⟨before, gap, after, -, -, hexpanded, tail, rfl⟩
    have hhead : (expandedSource commented).toList.head? = some '#' := by decide +kernel
    rw [hexpanded] at hhead
    simp at hhead

end ShaderBind.Glsl
