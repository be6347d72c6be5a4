import ShaderBind.Text.Class

/-!
# Cutting text

Functions on lists of characters: fixed prefixes and suffixes (`dropPrefix?`, `dropSuffix?`), the
last occurrence of a word (`splitLast?`), runs at either end (`trimStart`, `trimEnd`), pieces
between separators (`splitOn`), lines (`firstLine`), and `ensureNewline`, which closes a last line.
`bytes` measures a text in bytes of UTF-8, the unit in which positions are reported. A text can be
cut at such a position only between two characters (`cutAt?`, `boundaryBelow`). Comments of the
shading languages go from `//` to the end of the line (`restOfLine`), and from `/*` to the first `*/`
behind it (`closeComment`).
-/

namespace ShaderBind.Text

/-- The rest of `s` after the prefix `p`, if `s` begins with `p`. -/
def dropPrefix? : List Char → List Char → Option (List Char)
  | [], s => some s
  | _ :: _, [] => none
  | p :: ps, c :: cs => if p = c then dropPrefix? ps cs else none

/-- The part of `s` before the suffix `p`, if `s` ends with `p`. -/
def dropSuffix? (p s : List Char) : Option (List Char) :=
  (dropPrefix? p.reverse s.reverse).map List.reverse

theorem dropPrefix?_append (p s : List Char) : dropPrefix? p (p ++ s) = some s := by
  induction p with
  | nil => rfl
  | cons c p ih => simp [dropPrefix?, ih]

theorem eq_append_of_dropPrefix? {p s r : List Char} (h : dropPrefix? p s = some r) :
    s = p ++ r := by
  induction p generalizing s with
  | nil => simpa [dropPrefix?] using h
  | cons c p ih =>
    cases s with
    | nil => simp [dropPrefix?] at h
    | cons d s =>
      by_cases hc : c = d
      · subst hc
        simp only [dropPrefix?, if_true] at h
        simp [ih h]
      · simp [dropPrefix?, hc] at h

theorem dropPrefix?_eq_some_iff {p s r : List Char} :
    dropPrefix? p s = some r ↔ s = p ++ r :=
  ⟨eq_append_of_dropPrefix?, fun h => h ▸ dropPrefix?_append p r⟩

theorem dropSuffix?_eq_some_iff {p s r : List Char} :
    dropSuffix? p s = some r ↔ s = r ++ p := by
  unfold dropSuffix?
  rw [Option.map_eq_some_iff]
  constructor
  · rintro ⟨q, hq, rfl⟩
    have := congrArg List.reverse (eq_append_of_dropPrefix? hq)
    simpa using this
  · rintro rfl
    exact ⟨r.reverse, by rw [List.reverse_append, dropPrefix?_append], by simp⟩

/-- The text before and the text after the last occurrence of `word`. -/
def splitLast? (word : List Char) : List Char → Option (List Char × List Char)
  | [] => if word.isEmpty then some ([], []) else none
  | c :: cs =>
    match splitLast? word cs with
    | some (before, after) => some (c :: before, after)
    | none => (dropPrefix? word (c :: cs)).map fun after => ([], after)

theorem eq_append_of_splitLast? {word s before after : List Char}
    (h : splitLast? word s = some (before, after)) : s = before ++ (word ++ after) := by
  induction s generalizing before with
  | nil =>
    rw [splitLast?] at h
    split at h
    · rename_i hword
      cases h
      rw [List.isEmpty_iff.1 hword]
      rfl
    · cases h
  | cons c s ih =>
    rw [splitLast?] at h
    split at h
    · rename_i hs
      cases h
      rw [ih hs]
      rfl
    · obtain ⟨r, hr, heq⟩ := Option.map_eq_some_iff.1 h
      cases heq
      rw [List.nil_append, eq_append_of_dropPrefix? hr]

/-- `s` without the characters of the class at its start. -/
def trimStart (p : Char → Bool) (s : List Char) : List Char :=
  s.dropWhile p

/-- `s` without the characters of the class at its end. -/
def trimEnd (p : Char → Bool) (s : List Char) : List Char :=
  (s.reverse.dropWhile p).reverse

/-- `s` without the characters of the class at either end. -/
def trim (p : Char → Bool) (s : List Char) : List Char :=
  trimEnd p (trimStart p s)

/-- The pieces between the occurrences of the separator; one piece more than separators. -/
def splitOn (sep : Char) : List Char → List (List Char)
  | [] => [[]]
  | c :: cs =>
    if c = sep then [] :: splitOn sep cs
    else match splitOn sep cs with
      | [] => [[c]]
      | piece :: pieces => (c :: piece) :: pieces

/-- Number of bytes of the UTF-8 form. -/
def bytes (s : List Char) : Nat :=
  s.foldr (fun c n => c.utf8Size + n) 0

theorem bytes_append (s t : List Char) : bytes (s ++ t) = bytes s + bytes t := by
  induction s with
  | nil => simp [bytes]
  | cons c s ih =>
    change c.utf8Size + bytes (s ++ t) = c.utf8Size + bytes s + bytes t
    rw [ih, Nat.add_assoc]

theorem bytes_pos {s : List Char} (h : s ≠ []) : 0 < bytes s := by
  obtain ⟨c, t, rfl⟩ := List.exists_cons_of_ne_nil h
  have hc := c.utf8Size_pos
  change 0 < c.utf8Size + bytes t
  omega

/-- The first `n` bytes of a text and the rest, unless byte `n` lies inside a character or behind
the text. -/
def cutAt? : Nat → List Char → Option (List Char × List Char)
  | 0, s => some ([], s)
  | _ + 1, [] => none
  | n + 1, c :: s =>
    if c.utf8Size ≤ n + 1 then
      (cutAt? (n + 1 - c.utf8Size) s).map fun (before, after) => (c :: before, after)
    else none

theorem cutAt?_eq_some {n : Nat} {s before after : List Char}
    (h : cutAt? n s = some (before, after)) : s = before ++ after ∧ bytes before = n := by
  fun_induction cutAt? n s generalizing before with
  | case1 s =>
    cases h
    exact ⟨rfl, rfl⟩
  | case2 => cases h
  | case3 n c s hle ih =>
    obtain ⟨⟨b, a⟩, hb, heq⟩ := Option.map_eq_some_iff.1 h
    cases heq
    obtain ⟨rfl, hbytes⟩ := ih hb
    refine ⟨rfl, ?_⟩
    change c.utf8Size + bytes b = n + 1
    omega
  | case4 => cases h

/-- Whether byte `n` stands between two characters of a text, or at an end of it. -/
def isBoundary (s : List Char) (n : Nat) : Bool :=
  (cutAt? n s).isSome

/-- The last position between characters that is not behind byte `n`. -/
def boundaryBelow (s : List Char) : Nat → Nat
  | 0 => 0
  | n + 1 => if isBoundary s (n + 1) then n + 1 else boundaryBelow s n

theorem boundaryBelow_le (s : List Char) (n : Nat) : boundaryBelow s n ≤ n := by
  induction n with
  | zero => exact Nat.le_refl 0
  | succ n ih =>
    unfold boundaryBelow
    split
    · exact Nat.le_refl _
    · exact Nat.le_succ_of_le ih

/-- Number of line breaks. -/
def newlines (s : List Char) : Nat :=
  s.count '\n'

/-- The last character, if any, is a newline. -/
def endsLine (s : List Char) : Bool :=
  s.getLast? == some '\n'

/-- The first line of a text without its end, which is a newline or a carriage return and a newline. -/
def firstLine (s : String) : String :=
  let line := s.toList.takeWhile (· != '\n')
  if line.length < s.length then String.ofList ((dropSuffix? ['\r'] line).getD line) else s

/-- `s`, its last line closed by a newline unless it is closed already or `s` is empty. -/
def ensureNewline (s : String) : String :=
  if s.isEmpty || endsLine s.toList then s else s ++ "\n"

/-! ## Comments -/

/-- What is left of a line, and the text from its newline on. -/
def restOfLine (s : List Char) : List Char × List Char :=
  (s.takeWhile (· != '\n'), s.dropWhile (· != '\n'))

/-- The body of a block comment with what closes it, and the text behind; nothing when the
comment is not closed. -/
def closeComment : List Char → Option (List Char × List Char)
  | '*' :: '/' :: rest => some (['*', '/'], rest)
  | c :: rest => (closeComment rest).map fun (body, rest) => (c :: body, rest)
  | [] => none

theorem restOfLine_append (s : List Char) : (restOfLine s).1 ++ (restOfLine s).2 = s :=
  List.takeWhile_append_dropWhile

theorem closeComment_append {s body rest : List Char} (h : closeComment s = some (body, rest)) :
    s = body ++ rest := by
  fun_induction closeComment s generalizing body rest with
  | case1 =>
    cases h
    rfl
  | case2 c s _ ih =>
    obtain ⟨⟨b, r⟩, hb, heq⟩ := Option.map_eq_some_iff.1 h
    cases heq
    simp [ih hb]
  | case3 => simp at h

end ShaderBind.Text
