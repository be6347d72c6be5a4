import ShaderBind.Proofs.Text.Border
import ShaderBind.Proofs.Text.Decimal
import ShaderBind.Wgsl.Attribute

/-!
# Where attributes, pairs and comments are read

An attribute is read exactly where it is written out (`attribute?_eq_some_iff`), and so is a pair of
attributes (`pair?_eq_some_iff`), whatever follows. Attributes hold no character that closes a
comment (`Attribute.Written.star_not_mem`) and no second sign (`Attribute.Written.text_eq`). A pair
whose numbers are replaced is a pair again, and names the new place (`Pair.Written.moveTo`,
`Pair.place?_moveTo`).
-/

namespace ShaderBind.Wgsl

/-! ## What an attribute is written with -/

/-- White space only. -/
def Blank (s : List Char) : Prop :=
  ∀ c ∈ s, Text.isSpace c = true

/-- The attribute as a text may write it: the head, a number with white space around it, and a
closing bracket. -/
def Attribute.Written (head : String) (a : Attribute) : Prop :=
  a.digits ≠ [] ∧ (∀ c ∈ a.digits, Text.isDecimalDigit c = true) ∧
    ∃ before after, Blank before ∧ Blank after ∧
      a.text = head.toList ++ before ++ a.digits ++ after ++ [')']

/-- White space and a closing bracket begin with no digit. -/
theorem isDecimalDigit_head_blank {s : List Char} (hs : Blank s) (rest : List Char) :
    ∀ d ∈ (s ++ ')' :: rest).head?, Text.isDecimalDigit d = false := by
  cases s with
  | nil =>
    rintro d ⟨⟩
    decide
  | cons e s =>
    rintro d ⟨⟩
    have hd := hs e (by simp)
    by_contra hdigit
    rw [Text.isSpace_of_isDecimalDigit (by simpa using hdigit)] at hd
    cases hd

theorem attribute?_of_written {head : String} {a : Attribute} (h : a.Written head)
    (rest : List Char) : attribute? head (a.text ++ rest) = some (a, rest) := by
  obtain ⟨hne, hdigits, before, after, hbefore, hafter, htext⟩ := h
  have hnumber : ∀ d ∈ (a.digits ++ (after ++ ')' :: rest)).head?, Text.isSpace d = false := by
    intro d hd
    obtain ⟨e, es, he⟩ := List.exists_cons_of_ne_nil hne
    obtain rfl : e = d := by simpa [he] using hd
    exact Text.isSpace_of_isDecimalDigit (hdigits e (by simp [he]))
  have hbracket : ∀ d ∈ (')' :: rest).head?, Text.isSpace d = false := by
    rintro d ⟨⟩
    decide
  have hsplit : a.text ++ rest =
      head.toList ++ (before ++ (a.digits ++ (after ++ ')' :: rest))) := by
    rw [htext]
    simp
  unfold attribute?
  rw [hsplit, Text.dropPrefix?_append]
  simp only [Text.dropWhile_append_of_head hbefore hnumber,
    Text.takeWhile_append_of_head hbefore hnumber,
    Text.dropWhile_append_of_head hdigits (isDecimalDigit_head_blank hafter rest),
    Text.takeWhile_append_of_head hdigits (isDecimalDigit_head_blank hafter rest),
    Text.dropWhile_append_of_head hafter hbracket, Text.takeWhile_append_of_head hafter hbracket,
    List.isEmpty_iff, hne, if_false, ← htext]

theorem written_of_attribute? {head : String} {s rest : List Char} {a : Attribute}
    (h : attribute? head s = some (a, rest)) : a.Written head := by
  unfold attribute? at h
  split at h
  · cases h
  · rename_i s₁ h₁
    simp only at h
    split at h
    · split at h
      · cases h
      · rename_i hdigits
        cases h
        refine ⟨by simpa using hdigits, fun c => List.mem_takeWhile_imp, _, _, ?_, ?_, rfl⟩
        · exact fun c => List.mem_takeWhile_imp
        · exact fun c => List.mem_takeWhile_imp
    · cases h

/-- An attribute is read where it is written out, and nowhere else. -/
theorem attribute?_eq_some_iff {head : String} {s rest : List Char} {a : Attribute} :
    attribute? head s = some (a, rest) ↔ a.Written head ∧ s = a.text ++ rest := by
  constructor
  · exact fun h => ⟨written_of_attribute? h, attribute?_append h⟩
  · rintro ⟨h, rfl⟩
    exact attribute?_of_written h rest

/-! ## The two heads -/

/-- The head of a group or of a binding attribute. -/
def IsHead (head : String) : Prop :=
  head = groupHead ∨ head = bindingHead

theorem isHead_groupHead : IsHead groupHead := .inl rfl

theorem isHead_bindingHead : IsHead bindingHead := .inr rfl

namespace Attribute.Written

variable {head : String} {a : Attribute}

/-- The characters an attribute is made of. -/
theorem mem_text (h : a.Written head) {c : Char} (hc : c ∈ a.text) :
    c ∈ head.toList ∨ Text.isSpace c = true ∨ Text.isDecimalDigit c = true ∨ c = ')' := by
  obtain ⟨-, hdigits, before, after, hbefore, hafter, htext⟩ := h
  rw [htext] at hc
  simp only [List.mem_append, List.mem_singleton] at hc
  rcases hc with (((hc | hc) | hc) | hc) | hc
  · exact .inl hc
  · exact .inr (.inl (hbefore c hc))
  · exact .inr (.inr (.inl (hdigits c hc)))
  · exact .inr (.inl (hafter c hc))
  · exact .inr (.inr (.inr hc))

/-- An attribute holds no character that opens or closes a comment. -/
theorem mark_not_mem (hhead : IsHead head) (h : a.Written head) {c : Char}
    (hmark : c ∈ ['*', '/']) : c ∉ a.text := by
  have hclass : c ∉ groupHead.toList ∧ c ∉ bindingHead.toList ∧ Text.isSpace c = false ∧
      Text.isDecimalDigit c = false ∧ c ≠ ')' := by
    simp only [List.mem_cons, List.not_mem_nil, or_false] at hmark
    rcases hmark with rfl | rfl <;> decide
  obtain ⟨hgroup, hbinding, hspace, hdigit, hbracket⟩ := hclass
  intro hc
  rcases h.mem_text hc with hc | hc | hc | hc
  · rcases hhead with rfl | rfl
    · exact hgroup hc
    · exact hbinding hc
  · exact Bool.false_ne_true (hspace.symm.trans hc)
  · exact Bool.false_ne_true (hdigit.symm.trans hc)
  · exact hbracket hc

theorem star_not_mem (hhead : IsHead head) (h : a.Written head) : '*' ∉ a.text :=
  h.mark_not_mem hhead (by decide)

/-- An attribute begins with its sign and does not hold another. -/
theorem text_eq (hhead : IsHead head) (h : a.Written head) :
    ∃ t, a.text = '@' :: t ∧ '@' ∉ t := by
  obtain ⟨-, hdigits, before, after, hbefore, hafter, htext⟩ := h
  obtain ⟨tail, htail, hsign⟩ : ∃ tail, head.toList = '@' :: tail ∧ '@' ∉ tail := by
    rcases hhead with rfl | rfl
    · exact ⟨"group(".toList, rfl, by decide⟩
    · exact ⟨"binding(".toList, rfl, by decide⟩
  refine ⟨tail ++ before ++ a.digits ++ after ++ [')'], by rw [htext, htail]; rfl, ?_⟩
  simp only [List.mem_append, List.mem_singleton, not_or]
  refine ⟨⟨⟨⟨hsign, fun h => ?_⟩, fun h => ?_⟩, fun h => ?_⟩, by decide⟩
  · exact absurd (hbefore _ h) (by decide)
  · exact absurd (hdigits _ h) (by decide)
  · exact absurd (hafter _ h) (by decide)

/-- An attribute ends with its bracket. -/
theorem exists_text_eq_append (h : a.Written head) : ∃ t, a.text = t ++ [')'] := by
  obtain ⟨-, -, before, after, -, -, htext⟩ := h
  exact ⟨_, htext⟩

/-- Attributes at the start of one text have the same head. -/
theorem head_eq {head' : String} {b : Attribute} {s t : List Char} (hhead : IsHead head)
    (hhead' : IsHead head') (ha : a.Written head) (hb : b.Written head')
    (h : a.text ++ s = b.text ++ t) : head = head' := by
  obtain ⟨-, -, before, after, -, -, htext⟩ := ha
  obtain ⟨-, -, before', after', -, -, htext'⟩ := hb
  rw [htext, htext'] at h
  rcases hhead with rfl | rfl <;> rcases hhead' with rfl | rfl
  · rfl
  · simp [groupHead, bindingHead] at h
  · simp [groupHead, bindingHead] at h
  · rfl

end Attribute.Written

/-! ## Pairs -/

/-- The pair as a text may write it. -/
structure Pair.Written (p : Pair) : Prop where
  group : p.group.Written groupHead
  separator : Blank p.separator
  binding : p.binding.Written bindingHead

theorem attributes?_of_written {first second : String} (hsecond : IsHead second) {a b : Attribute}
    {sep : List Char} (ha : a.Written first) (hsep : Blank sep) (hb : b.Written second)
    (rest : List Char) :
    attributes? first second (a.text ++ sep ++ b.text ++ rest) = some (a, sep, b, rest) := by
  obtain ⟨t, ht, -⟩ := hb.text_eq hsecond
  have hsign : ∀ d ∈ (b.text ++ rest).head?, Text.isSpace d = false := by
    rw [ht]
    rintro d ⟨⟩
    decide
  unfold attributes?
  simp only [List.append_assoc, attribute?_of_written ha, Text.dropWhile_append_of_head hsep hsign,
    Text.takeWhile_append_of_head hsep hsign, attribute?_of_written hb]

theorem written_of_attributes? {first second : String} {s sep rest : List Char} {a b : Attribute}
    (h : attributes? first second s = some (a, sep, b, rest)) :
    a.Written first ∧ Blank sep ∧ b.Written second := by
  unfold attributes? at h
  split at h
  · cases h
  · rename_i hfirst
    split at h
    · cases h
    · rename_i hsecond
      cases h
      exact ⟨written_of_attribute? hfirst, fun c => List.mem_takeWhile_imp,
        written_of_attribute? hsecond⟩

/-- A pair is read where it is written out, and nowhere else. -/
theorem pair?_eq_some_iff {s rest : List Char} {p : Pair} :
    pair? s = some (p, rest) ↔ p.Written ∧ s = p.text ++ rest := by
  constructor
  · intro h
    refine ⟨?_, pair?_append h⟩
    unfold pair? at h
    split at h
    · rename_i hpair
      cases h
      obtain ⟨ha, hsep, hb⟩ := written_of_attributes? hpair
      exact ⟨ha, hsep, hb⟩
    · split at h
      · rename_i hpair
        cases h
        obtain ⟨ha, hsep, hb⟩ := written_of_attributes? hpair
        exact ⟨hb, hsep, ha⟩
      · cases h
  · rintro ⟨⟨hgroup, hsep, hbinding⟩, rfl⟩
    obtain ⟨groupFirst, group, sep, binding⟩ := p
    cases groupFirst with
    | true =>
      simp only [pair?, Pair.text, if_true,
        attributes?_of_written isHead_bindingHead hgroup hsep hbinding rest]
    | false =>
      -- a binding attribute in front keeps the first alternative from matching
      have hnone : attributes? groupHead bindingHead
          (binding.text ++ sep ++ group.text ++ rest) = none := by
        rw [← Option.not_isSome_iff_eq_none]
        intro hsome
        obtain ⟨⟨a, sep', b, r⟩, h⟩ := Option.isSome_iff_exists.1 hsome
        have heq := attributes?_append h
        simp only [List.append_assoc] at heq
        have := hbinding.head_eq isHead_bindingHead isHead_groupHead
          (written_of_attributes? h).1 heq
        exact absurd this (by decide)
      simp only [pair?, Pair.text, Bool.false_eq_true, if_false, hnone,
        attributes?_of_written isHead_groupHead hbinding hsep hgroup rest]

theorem Pair.Written.text_eq {p : Pair} (h : p.Written) : ∃ t, p.text = '@' :: t := by
  obtain ⟨u, hu, -⟩ := h.group.text_eq isHead_groupHead
  obtain ⟨v, hv, -⟩ := h.binding.text_eq isHead_bindingHead
  unfold Pair.text
  split
  · exact ⟨_, by rw [hu]; rfl⟩
  · exact ⟨_, by rw [hv]; rfl⟩

theorem Attribute.written_ofWord (head : String) (n : UInt32) :
    (Attribute.ofWord head n).Written head := by
  refine ⟨Text.repr_toList_ne_nil n.toNat, fun c hc => ?_, [], [], ?_, ?_, by simp [ofWord]⟩
  · exact Text.isDecimalDigit_of_isDigit (Text.isDigit_of_mem_toString hc)
  · simp [Blank]
  · simp [Blank]

/-- A pair with new numbers is a pair. -/
theorem Pair.Written.moveTo {p : Pair} (h : p.Written) (place : Coord) : (p.moveTo place).Written :=
  ⟨Attribute.written_ofWord groupHead place.group, h.separator,
    Attribute.written_ofWord bindingHead place.binding⟩

/-- A pair with new numbers names the place of these numbers. -/
theorem Pair.place?_moveTo (p : Pair) (place : Coord) : (p.moveTo place).place? = some place := by
  simp [Pair.place?, Pair.moveTo, Attribute.ofWord, Text.readWord?_toString]

end ShaderBind.Wgsl
