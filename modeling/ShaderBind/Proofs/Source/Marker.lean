import ShaderBind.Proofs.Text.Decimal
import ShaderBind.Proofs.Text.Position
import ShaderBind.Source.Marker
import Mathlib.Data.List.TakeWhile

/-!
# The end of a text that carries a marker

Whether a text has a marker, and which, is decided by its end alone. A text with a marker is the
text in front of the marker followed by an end that holds the marker and its padding, and any other
text with that end has the same marker (`findMarker?_split`). The end holds no bracket.

A marker that was written is read back, whatever text it was appended to and whatever padding
follows it (`appendMarker_readBack`): a marker begins with a slash and has no other in front of its
last two characters, so no later occurrence of its head can overlap it.
-/

namespace ShaderBind.Source

/-! ## Trimmed texts -/

theorem trimEnd_append_padding (p : Char → Bool) (s : List Char) :
    ∃ pad, (∀ c ∈ pad, p c = true) ∧ s = Text.trimEnd p s ++ pad := by
  refine ⟨(s.reverse.takeWhile p).reverse, fun c hc => ?_, ?_⟩
  · exact List.mem_takeWhile_imp (List.mem_reverse.1 hc)
  · rw [Text.trimEnd, ← List.reverse_append, List.takeWhile_append_dropWhile, List.reverse_reverse]

/-- Padding behind a character that is none is what gets trimmed. -/
theorem trimEnd_append {p : Char → Bool} {pad : List Char} (hpad : ∀ c ∈ pad, p c = true)
    {d : Char} (hd : p d = false) (s : List Char) :
    Text.trimEnd p (s ++ [d] ++ pad) = s ++ [d] := by
  rw [Text.trimEnd, List.reverse_append,
    List.dropWhile_append_of_pos fun c hc => hpad c (List.mem_reverse.1 hc), List.reverse_append]
  rw [List.reverse_singleton, List.singleton_append, List.dropWhile_cons_of_neg (by simp [hd])]
  simp

/-- A trimmed text lacks nothing but characters of the class. -/
theorem mem_trim_of_mem {p : Char → Bool} {s : List Char} {c : Char} (hc : c ∈ s) :
    p c = true ∨ c ∈ Text.trim p s := by
  rw [← List.takeWhile_append_dropWhile (p := p) (l := s), List.mem_append] at hc
  rcases hc with hc | hc
  · exact .inl (List.mem_takeWhile_imp hc)
  · obtain ⟨pad, hpad, hs⟩ := trimEnd_append_padding p (s.dropWhile p)
    rw [hs, List.mem_append] at hc
    rcases hc with hc | hc
    · exact .inr hc
    · exact .inl (hpad c hc)

/-- Nothing is trimmed from a text without characters of the class. -/
theorem trim_eq_self {p : Char → Bool} {s : List Char} (h : ∀ c ∈ s, p c = false) :
    Text.trim p s = s := by
  have hkeep : ∀ {t : List Char}, (∀ c ∈ t, p c = false) → t.dropWhile p = t := by
    intro t ht
    cases t with
    | nil => rfl
    | cons c t => exact List.dropWhile_cons_of_neg (by simp [ht c])
  have hstart : Text.trimStart p s = s := hkeep h
  rw [Text.trim, hstart, Text.trimEnd, hkeep fun c hc => h c (List.mem_reverse.1 hc),
    List.reverse_reverse]

/-! ## Markers -/

theorem findMarker?_eq_some_iff {s before : List Char} {l : Language} :
    findMarker? s = some (before, l) ↔ ∃ value n,
      Text.dropSuffix? markerTail (Text.trimEnd isPadding s) =
        some (before ++ (markerHead ++ value)) ∧
      Text.splitLast? markerHead (markerHead ++ value) = some ([], value) ∧
      Text.readInt? (Text.trim Text.isSpace value) = some n ∧ Language.ofCode? n = some l := by
  simp only [findMarker?, Option.bind_eq_bind, Option.bind_eq_some_iff, Prod.exists,
    Option.pure_def, Option.some.injEq, Prod.mk.injEq]
  constructor
  · rintro ⟨body, hbody, before, value, hsplit, n, hn, l, hl, rfl, rfl⟩
    obtain rfl := Text.eq_append_of_splitLast? hsplit
    exact ⟨value, n, hbody, Text.splitLast?_of_append hsplit, hn, hl⟩
  · rintro ⟨value, n, hbody, hsplit, hn, hl⟩
    have := Text.splitLast?_append_left hsplit before
    rw [List.append_nil] at this
    exact ⟨_, hbody, before, value, this, n, hn, l, hl, rfl, rfl⟩

/-- A text with a marker ends with it, and no bracket stands there; the same end gives any text the
same marker. -/
theorem findMarker?_split {s before : List Char} {l : Language}
    (h : findMarker? s = some (before, l)) :
    ∃ tail, s = before ++ tail ∧ ')' ∉ tail ∧
      ∀ before', findMarker? (before' ++ tail) = some (before', l) := by
  obtain ⟨value, n, hbody, hsplit, hn, hl⟩ := findMarker?_eq_some_iff.1 h
  obtain ⟨pad, hpad, hs⟩ := trimEnd_append_padding isPadding s
  rw [Text.dropSuffix?_eq_some_iff.1 hbody] at hs
  refine ⟨markerHead ++ value ++ markerTail ++ pad, by rw [hs]; simp, ?_, fun before' => ?_⟩
  · have hvalue : ')' ∉ value := by
      intro hc
      rcases mem_trim_of_mem (p := Text.isSpace) hc with hc | hc
      · exact absurd hc (by decide)
      · rcases Text.mem_of_readInt? hn hc with hc | hc | hc <;> exact absurd hc (by decide)
    simp only [List.mem_append, not_or]
    refine ⟨⟨⟨by decide, hvalue⟩, by decide⟩, fun hc => ?_⟩
    exact absurd (hpad _ hc) (by decide)
  · refine findMarker?_eq_some_iff.2 ⟨value, n, ?_, hsplit, hn, hl⟩
    have htail : markerTail = ['*'] ++ ['/'] := rfl
    have htrim := trimEnd_append hpad (d := '/') (by decide)
      (before' ++ (markerHead ++ value) ++ ['*'])
    rw [Text.dropSuffix?_eq_some_iff, htail]
    simpa using htrim

/-! ## Markers read back -/

/-- The marker of a language is found behind any text, with any padding behind it. -/
theorem findMarker?_marker (s : List Char) (l : Language) {pad : List Char}
    (hpad : ∀ c ∈ pad, isPadding c = true) :
    findMarker? (s ++ (marker l).toList ++ pad) = some (s, l) := by
  have hdigit : ∀ c ∈ (toString l.code).toList, Text.isDigit c = true :=
    fun c => Text.isDigit_of_mem_repr
  refine findMarker?_eq_some_iff.2 ⟨(toString l.code).toList, l.code, ?_, ?_, ?_, ?_⟩
  · have htrim := trimEnd_append hpad (d := '/') (by decide)
      (s ++ (markerHead ++ (toString l.code).toList) ++ ['*'])
    have htail : markerTail = ['*'] ++ ['/'] := rfl
    rw [Text.dropSuffix?_eq_some_iff, htail]
    simpa [marker, htail] using htrim
  · refine Text.splitLast?_of_head_not_mem fun hc => ?_
    rcases List.mem_append.1 hc with hc | hc
    · exact absurd hc (by decide)
    · exact absurd (hdigit _ hc) (by decide)
  · have hspace : ∀ c ∈ (toString l.code).toList, Text.isSpace c = false := fun c hc =>
      Text.isSpace_of_isDecimalDigit (Text.isDecimalDigit_of_isDigit (hdigit c hc))
    have hcode : l.code < Text.signBit := by cases l <;> decide
    rw [trim_eq_self hspace]
    exact Text.readInt?_repr hcode
  · exact Language.ofCode?_code l

/-- The marker of a language at the end of a text tells the language, and in front of it stands the
text with its last line closed. -/
theorem appendMarker_readBack (s t : String) (l : Language)
    (ht : ∀ c ∈ t.toList, c ∈ [' ', '\t', '\n', '\x0c', '\r', '\x00']) :
    languageOf (appendMarker s l ++ t) = l ∧
      stripMarker (appendMarker s l ++ t) =
        if s ≠ "" ∧ s.toList.getLast? ≠ some '\n' then s ++ "\n" else s := by
  have hpad : ∀ c ∈ t.toList, isPadding c = true := by
    intro c hc
    simpa [isPadding, Text.isAsciiSpace, or_assoc] using ht c hc
  have hfound : findMarker? (appendMarker s l ++ t).toList =
      some ((Text.ensureNewline s).toList, l) := by
    rw [appendMarker, String.toList_append, String.toList_append]
    exact findMarker?_marker _ l hpad
  constructor
  · rw [languageOf, hfound]
    rfl
  · rw [stripMarker, hfound]
    simp only [String.ofList_toList]
    unfold Text.ensureNewline Text.endsLine
    by_cases hempty : s = "" <;> by_cases hline : s.toList.getLast? = some '\n' <;>
      simp [hempty, hline]

/-- Behind an old marker and a comment that is not closed. -/
theorem appendMarker_readBack_twice :
    let s := "/*$SHADER_SOURCE_LANGUAGE=3*/\n/*$SHADER_SOURCE_LANGUAGE="
    languageOf (appendMarker s .hlsl ++ " \n\x00") = .hlsl ∧
      stripMarker (appendMarker s .hlsl ++ " \n\x00") = s ++ "\n" := by
  have h := appendMarker_readBack "/*$SHADER_SOURCE_LANGUAGE=3*/\n/*$SHADER_SOURCE_LANGUAGE="
    " \n\x00" .hlsl (by simp)
  rwa [if_pos (by decide +kernel)] at h

end ShaderBind.Source
