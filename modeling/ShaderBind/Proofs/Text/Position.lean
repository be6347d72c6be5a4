import ShaderBind.Text.Cut
import Mathlib.Data.List.Basic

/-!
# Positions in a text

The last occurrence of a word: it stays the last behind more text (`splitLast?_append_left`), and no
other begins behind it (`length_le_of_splitLast?`). Positions in bytes: a text is cut at a position
exactly if the bytes of some front part lead there (`cutAt?_eq_some_iff`), and `boundaryBelow` goes
back to the last such position (`isBoundary_boundaryBelow`, `le_boundaryBelow`). Of two front parts
of one text the one with fewer bytes is the shorter one (`prefix_of_bytes_le`).
-/

namespace ShaderBind.Text

/-! ## The last occurrence of a word -/

/-- The last occurrence stays the last one behind more text. -/
theorem splitLast?_append_left {word s before after : List Char}
    (h : splitLast? word s = some (before, after)) (t : List Char) :
    splitLast? word (t ++ s) = some (t ++ before, after) := by
  induction t with
  | nil => exact h
  | cons c t ih =>
    rw [List.cons_append, splitLast?, ih]
    rfl

/-- The last occurrence does not need the text in front of it. -/
theorem splitLast?_of_append {word s before after : List Char}
    (h : splitLast? word (before ++ s) = some (before, after)) :
    splitLast? word s = some ([], after) := by
  induction before with
  | nil => exact h
  | cons c before ih =>
    rw [List.cons_append, splitLast?] at h
    split at h
    · rename_i hs
      cases h
      exact ih hs
    · obtain ⟨r, -, heq⟩ := Option.map_eq_some_iff.1 h
      cases heq

theorem splitLast?_eq_none {c : Char} {word s : List Char} (hc : c ∉ s) :
    splitLast? (c :: word) s = none := by
  by_contra hsome
  obtain ⟨⟨before, after⟩, h⟩ := Option.ne_none_iff_exists'.1 hsome
  refine hc ?_
  rw [eq_append_of_splitLast? h]
  simp

/-- A word whose first character comes only once stands nowhere behind its own beginning. -/
theorem splitLast?_of_head_not_mem {c : Char} {word value : List Char} (hc : c ∉ word ++ value) :
    splitLast? (c :: word) (c :: word ++ value) = some ([], value) := by
  rw [List.cons_append, splitLast?, splitLast?_eq_none hc, ← List.cons_append,
    dropPrefix?_append]
  rfl

/-- A word that occurs is found. -/
theorem splitLast?_ne_none (word before after : List Char) :
    splitLast? word (before ++ (word ++ after)) ≠ none := by
  have hfront : ∃ b a, splitLast? word (word ++ after) = some (b, a) := by
    cases hs : word ++ after with
    | nil =>
      have hword : word = [] := (List.append_eq_nil_iff.1 hs).1
      exact ⟨[], [], by simp [splitLast?, hword]⟩
    | cons c s =>
      rw [splitLast?, ← hs, dropPrefix?_append]
      cases splitLast? word s with
      | none => exact ⟨[], after, rfl⟩
      | some p => exact ⟨c :: p.1, p.2, rfl⟩
  obtain ⟨b, a, h⟩ := hfront
  rw [splitLast?_append_left h]
  exact Option.some_ne_none _

/-- No occurrence begins behind the last one. -/
theorem length_le_of_splitLast? {word s before after b a : List Char}
    (h : splitLast? word s = some (before, after)) (hs : s = b ++ (word ++ a)) :
    b.length ≤ before.length := by
  induction s generalizing before b with
  | nil => simp [(List.append_eq_nil_iff.1 hs.symm).1]
  | cons c s ih =>
    cases b with
    | nil => exact Nat.zero_le _
    | cons d b =>
      obtain ⟨rfl, hrest⟩ := List.cons.inj hs
      rw [splitLast?] at h
      split at h
      next hlast =>
        cases h
        exact Nat.succ_le_succ (ih hlast hrest)
      next hnone =>
        rw [hrest] at hnone
        exact absurd hnone (splitLast?_ne_none word b a)

/-! ## Front parts -/

/-- Of two front parts of a text, the one with no more bytes is a front part of the other. -/
theorem prefix_of_bytes_le {s a b : List Char} (ha : a <+: s) (hb : b <+: s)
    (h : bytes a ≤ bytes b) : a <+: b := by
  rcases Nat.le_total a.length b.length with hlen | hlen
  · exact List.prefix_of_prefix_length_le ha hb hlen
  · obtain ⟨t, rfl⟩ := List.prefix_of_prefix_length_le hb ha hlen
    have ht : t = [] := by
      by_contra hne
      have hpos := bytes_pos hne
      rw [bytes_append] at h
      omega
    exact ⟨[], by simp [ht]⟩

theorem bytes_lt_of_length_lt {s a b : List Char} (ha : a <+: s) (hb : b <+: s)
    (h : a.length < b.length) : bytes a < bytes b := by
  by_contra hle
  have hprefix := prefix_of_bytes_le hb ha (Nat.not_lt.1 hle)
  exact absurd hprefix.length_le (Nat.not_le.2 h)

/-! ## Cuts -/

theorem cutAt?_append (before after : List Char) :
    cutAt? (bytes before) (before ++ after) = some (before, after) := by
  induction before with
  | nil => simp [bytes, cutAt?]
  | cons c before ih =>
    have hpos := c.utf8Size_pos
    have hbytes : bytes (c :: before) = c.utf8Size + bytes before := rfl
    obtain ⟨n, hn⟩ : ∃ n, bytes (c :: before) = n + 1 := ⟨bytes (c :: before) - 1, by omega⟩
    have hrest : n + 1 - c.utf8Size = bytes before := by omega
    rw [hn, List.cons_append, cutAt?, if_pos (by omega), hrest, ih]
    rfl

/-- A text is cut where the bytes of a front part lead, and nowhere else. -/
theorem cutAt?_eq_some_iff {n : Nat} {s before after : List Char} :
    cutAt? n s = some (before, after) ↔ s = before ++ after ∧ bytes before = n := by
  constructor
  · exact cutAt?_eq_some
  · rintro ⟨rfl, rfl⟩
    exact cutAt?_append before after

theorem isBoundary_iff {s : List Char} {n : Nat} :
    isBoundary s n = true ↔ ∃ before, before <+: s ∧ bytes before = n := by
  simp only [isBoundary, Option.isSome_iff_exists, Prod.exists, cutAt?_eq_some_iff]
  constructor
  · rintro ⟨before, after, rfl, hbytes⟩
    exact ⟨before, List.prefix_append _ _, hbytes⟩
  · rintro ⟨before, ⟨after, rfl⟩, hbytes⟩
    exact ⟨before, after, rfl, hbytes⟩

theorem isBoundary_boundaryBelow (s : List Char) (n : Nat) :
    isBoundary s (boundaryBelow s n) = true := by
  induction n with
  | zero => exact isBoundary_iff.2 ⟨[], List.nil_prefix, rfl⟩
  | succ n ih =>
    unfold boundaryBelow
    split
    next h => exact h
    next => exact ih

/-- No position between characters is passed over on the way back. -/
theorem le_boundaryBelow {s : List Char} {m n : Nat} (hm : isBoundary s m = true) (hle : m ≤ n) :
    m ≤ boundaryBelow s n := by
  induction n with
  | zero => exact hle
  | succ n ih =>
    unfold boundaryBelow
    split
    next => exact hle
    next hnot =>
      refine ih (Nat.le_of_lt_succ (Nat.lt_of_le_of_ne hle ?_))
      rintro rfl
      exact hnot hm

end ShaderBind.Text
