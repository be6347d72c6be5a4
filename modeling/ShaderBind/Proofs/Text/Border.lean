import ShaderBind.Text.Cut
import Mathlib.Data.List.TakeWhile

/-!
# Reading across the border of two texts

What a reader takes from the front of a text when more text is put behind it. A run of characters of
one class ends where the next character is of no such class (`takeWhile_append_of_head`,
`dropWhile_append_of_head`) and one that ends inside the text stays (`takeWhile_append_of_exists`), a line ends where the next text begins with a newline
(`restOfLine_of_head`), and what closes a comment does so whatever follows
(`closeComment_append_right`).
-/

namespace ShaderBind.Text

/-! ## Runs -/

theorem takeWhile_append_of_head {p : Char → Bool} {s t : List Char} (hs : ∀ c ∈ s, p c = true)
    (ht : ∀ d ∈ t.head?, p d = false) : (s ++ t).takeWhile p = s := by
  rw [List.takeWhile_append_of_pos hs]
  cases t with
  | nil => simp
  | cons d t => rw [List.takeWhile_cons_of_neg (by simp [ht d rfl]), List.append_nil]

theorem dropWhile_append_of_head {p : Char → Bool} {s t : List Char} (hs : ∀ c ∈ s, p c = true)
    (ht : ∀ d ∈ t.head?, p d = false) : (s ++ t).dropWhile p = t := by
  rw [List.dropWhile_append_of_pos hs]
  cases t with
  | nil => rfl
  | cons d t => exact List.dropWhile_cons_of_neg (by simp [ht d rfl])

/-- A run that ends inside a text does so whatever follows. -/
theorem takeWhile_append_of_exists {p : Char → Bool} {s : List Char} (hs : ∃ c ∈ s, p c = false)
    (t : List Char) : (s ++ t).takeWhile p = s.takeWhile p := by
  obtain ⟨c, hc, hp⟩ := hs
  rw [List.takeWhile_append, if_neg]
  intro hlength
  have hall := List.takeWhile_eq_self_iff.1 ((List.takeWhile_prefix p).eq_of_length hlength)
  exact Bool.false_ne_true (hp ▸ hall c hc)

/-! ## Lines -/

/-- Text without a newline is part of one line. -/
theorem forall_ne_newline {s : List Char} (h : '\n' ∉ s) : ∀ c ∈ s, (c != '\n') = true := by
  intro c hc
  rw [bne_iff_ne]
  rintro rfl
  exact h hc

theorem newline_not_mem_restOfLine (s : List Char) : '\n' ∉ (restOfLine s).1 := by
  intro h
  simpa using List.mem_takeWhile_imp (p := (· != '\n')) h

/-- Behind the rest of a line the text ends, or a newline stands there. -/
theorem head?_restOfLine (s : List Char) : ∀ c ∈ (restOfLine s).2.head?, c = '\n' := by
  intro c hc
  have := List.head?_dropWhile_not (· != '\n') s
  rw [show (s.dropWhile (· != '\n')).head? = some c from hc] at this
  simpa using this

theorem restOfLine_of_head {s t : List Char} (hs : '\n' ∉ s) (ht : ∀ c ∈ t.head?, c = '\n') :
    restOfLine (s ++ t) = (s, t) := by
  have hs := forall_ne_newline hs
  have ht : ∀ c ∈ t.head?, (c != '\n') = false := fun c hc => by simp [ht c hc]
  rw [restOfLine, takeWhile_append_of_head hs ht, dropWhile_append_of_head hs ht]

theorem newlines_append (s t : List Char) : newlines (s ++ t) = newlines s + newlines t :=
  List.count_append

theorem newlines_eq_zero {s : List Char} (h : '\n' ∉ s) : newlines s = 0 :=
  List.count_eq_zero.2 h

/-- The bytes of a text are those of the string. -/
theorem bytes_toList (s : String) : bytes s.toList = s.utf8ByteSize := by
  have hofList : ∀ t : List Char, bytes t = (String.ofList t).utf8ByteSize := by
    intro t
    induction t with
    | nil => rfl
    | cons c t ih =>
      rw [String.ofList_cons, String.utf8ByteSize_append, String.utf8ByteSize_singleton, ← ih]
      rfl
  rw [hofList, String.ofList_toList]

theorem endsLine_append {s t : List Char} (h : endsLine t = true) : endsLine (s ++ t) = true := by
  simp only [endsLine, beq_iff_eq] at h ⊢
  rw [List.getLast?_append, h]
  rfl

/-! ## The end of a comment -/

theorem closeComment_isSome_cons {s : List Char} {c : Char} (h : (closeComment s).isSome) :
    (closeComment (c :: s)).isSome := by
  unfold closeComment
  split
  · rfl
  · simp_all
  · simp_all

theorem closeComment_cons_isSome {s : List Char} {c : Char} (h : c ≠ '*' ∨ ∀ r, s ≠ '/' :: r) :
    (closeComment (c :: s)).isSome = (closeComment s).isSome := by
  rw [closeComment.eq_def]
  split
  · simp_all
  · simp_all
  · simp_all

theorem closeComment_append_isSome {u : List Char} (hu : '*' ∉ u) (s : List Char) :
    (closeComment (u ++ s)).isSome = (closeComment s).isSome := by
  induction u with
  | nil => rfl
  | cons c u ih =>
    have hc : c ≠ '*' := fun h => hu (h ▸ List.mem_cons_self ..)
    rw [List.cons_append, closeComment_cons_isSome (.inl hc)]
    exact ih fun h => hu (List.mem_cons_of_mem _ h)

theorem closeComment_ne_nil {s body rest : List Char}
    (h : closeComment s = some (body, rest)) : body ≠ [] := by
  unfold closeComment at h
  split at h
  · cases h
    simp
  · obtain ⟨⟨b, r⟩, -, heq⟩ := Option.map_eq_some_iff.1 h
    cases heq
    simp
  · cases h

/-- A comment is not closed exactly if the two characters that close it stand nowhere. -/
theorem closeComment_eq_none_iff {s : List Char} :
    closeComment s = none ↔ ¬ ['*', '/'] <:+: s := by
  fun_induction closeComment s with
  | case1 rest => simp [List.infix_cons_iff]
  | case2 c rest hne ih =>
    have hfront : ¬ ['*', '/'] <+: c :: rest := by
      rintro ⟨t, ht⟩
      cases ht
      exact hne t rfl rfl
    rw [Option.map_eq_none_iff, ih, List.infix_cons_iff]
    simp [hfront]
  | case3 => simp

/-- What closes a comment does so whatever follows. -/
theorem closeComment_append_right {s body rest : List Char}
    (h : closeComment s = some (body, rest)) (rest' : List Char) :
    closeComment (body ++ rest') = some (body, rest') := by
  fun_induction closeComment s generalizing body rest with
  | case1 =>
    cases h
    rfl
  | case2 c s hne ih =>
    obtain ⟨⟨b, r⟩, hb, heq⟩ := Option.map_eq_some_iff.1 h
    cases heq
    rw [List.cons_append, closeComment.eq_def]
    split
    · rename_i hclose
      obtain ⟨d, b, rfl⟩ := List.exists_cons_of_ne_nil (closeComment_ne_nil hb)
      cases hclose
      exact (hne _ rfl (by rw [closeComment_append hb]; rfl)).elim
    · rename_i hcons
      cases hcons
      rw [ih hb]
      rfl
    · simp_all
  | case3 => simp at h

end ShaderBind.Text
