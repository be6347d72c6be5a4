import ShaderBind.Proofs.Wgsl.Attribute

/-!
# Texts that differ in the numbers of attributes

A move changes numbers inside attributes and nothing else. Two texts that differ in nothing but the
numbers of some group and binding attributes are `Renumbered`. Every reader sees such texts alike:
an attribute, a pair or a comment that stands at the start of one stands at the start of the other
(`Renumbered.attribute?`, `Renumbered.pair?_isSome`, `Renumbered.comment?_isSome`), whatever was
renumbered behind it. A moved segment therefore stays the first segment of its text
(`Segment.segment?_move`), and the segments of a text after a move are the moved segments of the
text (`segments_move`).
-/

namespace ShaderBind.Wgsl

/-! ## Renumbered texts -/

/-- The texts differ in nothing but numbers of attributes. -/
inductive Renumbered : List Char → List Char → Prop
  | nil : Renumbered [] []
  | char (c : Char) {s t : List Char} (h : Renumbered s t) : Renumbered (c :: s) (c :: t)
  | number {head : String} {a b : Attribute} {s t : List Char} (hhead : IsHead head)
      (ha : a.Written head) (hb : b.Written head) (h : Renumbered s t) :
      Renumbered (a.text ++ s) (b.text ++ t)

namespace Renumbered

variable {s t : List Char}

theorem symm (h : Renumbered s t) : Renumbered t s := by
  induction h with
  | nil => exact nil
  | char c _ ih => exact char c ih
  | number hhead ha hb _ ih => exact number hhead hb ha ih

theorem append_left (u : List Char) (h : Renumbered s t) : Renumbered (u ++ s) (u ++ t) := by
  induction u with
  | nil => exact h
  | cons c u ih => exact char c ih

/-- A part in front that holds no sign of an attribute is the same in both texts. -/
theorem of_append_left {u : List Char} (hu : '@' ∉ u) (h : Renumbered (u ++ s) t) :
    ∃ t', t = u ++ t' ∧ Renumbered s t' := by
  induction u generalizing t with
  | nil => exact ⟨t, rfl, h⟩
  | cons c u ih =>
    generalize hx : c :: u ++ s = x at h
    cases h with
    | nil => cases hx
    | char d h =>
      cases hx
      obtain ⟨t', rfl, h'⟩ := ih (fun hc => hu (List.mem_cons_of_mem _ hc)) h
      exact ⟨t', rfl, h'⟩
    | number hhead ha hb h =>
      obtain ⟨r, hr, -⟩ := ha.text_eq hhead
      rw [hr] at hx
      obtain ⟨rfl, -⟩ := List.cons.inj hx
      exact absurd (List.mem_cons_self ..) hu

/-- What stands at the start of one of two renumbered texts, stands at the start of the other. -/
theorem attribute? {head : String} (hhead : IsHead head) (h : Renumbered s t) {a : Attribute}
    {rest : List Char} (hs : Wgsl.attribute? head s = some (a, rest)) :
    ∃ b rest', Wgsl.attribute? head t = some (b, rest') ∧ Renumbered rest rest' := by
  obtain ⟨ha, rfl⟩ := attribute?_eq_some_iff.1 hs
  obtain ⟨u, hu, hsign⟩ := ha.text_eq hhead
  generalize hx : a.text ++ rest = x at h
  cases h with
  | nil => simp [hu] at hx
  | char c h =>
    rw [hu] at hx
    cases hx
    obtain ⟨t', rfl, h'⟩ := of_append_left hsign h
    refine ⟨a, t', ?_, h'⟩
    rw [← List.cons_append, ← hu]
    exact attribute?_of_written ha t'
  | number hhead' ha' hb h =>
    obtain rfl := ha.head_eq hhead hhead' ha' hx
    have heq := attribute?_of_written ha rest
    rw [hx, attribute?_of_written ha'] at heq
    cases heq
    exact ⟨_, _, attribute?_of_written hb _, h⟩

theorem dropWhile_isSpace (h : Renumbered s t) :
    Renumbered (s.dropWhile Text.isSpace) (t.dropWhile Text.isSpace) := by
  induction h with
  | nil => exact nil
  | char c h ih =>
    by_cases hc : Text.isSpace c = true
    · rwa [List.dropWhile_cons_of_pos hc, List.dropWhile_cons_of_pos hc]
    · rw [List.dropWhile_cons_of_neg hc, List.dropWhile_cons_of_neg hc]
      exact char c h
  | number hhead ha hb h _ =>
    obtain ⟨u, hu, -⟩ := ha.text_eq hhead
    obtain ⟨v, hv, -⟩ := hb.text_eq hhead
    have hnumber := number hhead ha hb h
    rw [hu, hv] at hnumber ⊢
    rwa [List.cons_append, List.cons_append, List.dropWhile_cons_of_neg (by decide),
      List.dropWhile_cons_of_neg (by decide)]

theorem attributes?_isSome {first second : String} (hfirst : IsHead first) (hsecond : IsHead second)
    (h : Renumbered s t) (hs : (attributes? first second s).isSome) :
    (attributes? first second t).isSome := by
  obtain ⟨⟨a, sep, b, rest⟩, hs⟩ := Option.isSome_iff_exists.1 hs
  unfold attributes? at hs
  split at hs
  · cases hs
  · rename_i a s₁ hfst
    split at hs
    · cases hs
    · rename_i b r hsnd
      obtain ⟨a', t₁, hfst', h₁⟩ := h.attribute? hfirst hfst
      obtain ⟨b', r', hsnd', -⟩ := h₁.dropWhile_isSpace.attribute? hsecond hsnd
      simp [attributes?, hfst', hsnd']

theorem pair?_isSome (h : Renumbered s t) (hs : (pair? s).isSome) : (pair? t).isSome := by
  by_cases hgroup : (attributes? groupHead bindingHead s).isSome
  · have := h.attributes?_isSome isHead_groupHead isHead_bindingHead hgroup
    obtain ⟨⟨a, sep, b, rest⟩, ht⟩ := Option.isSome_iff_exists.1 this
    simp [pair?, ht]
  · have hbinding : (attributes? bindingHead groupHead s).isSome := by
      unfold pair? at hs
      rw [Option.not_isSome_iff_eq_none.1 hgroup] at hs
      cases hs' : attributes? bindingHead groupHead s with
      | none => simp [hs'] at hs
      | some p => rfl
    have := h.attributes?_isSome isHead_bindingHead isHead_groupHead hbinding
    obtain ⟨⟨a, sep, b, rest⟩, ht⟩ := Option.isSome_iff_exists.1 this
    unfold pair?
    split
    · rfl
    · simp [ht]

theorem closeComment_isSome (h : Renumbered s t) (hs : (Text.closeComment s).isSome) :
    (Text.closeComment t).isSome := by
  induction h with
  | nil => exact hs
  | @char c s t h ih =>
    by_cases hclose : c = '*' ∧ ∃ r, s = '/' :: r
    · obtain ⟨rfl, r, rfl⟩ := hclose
      obtain ⟨r', rfl, -⟩ := of_append_left (u := ['/']) (by decide) h
      rfl
    · rw [not_and_or, not_exists] at hclose
      rw [Text.closeComment_cons_isSome hclose] at hs
      exact Text.closeComment_isSome_cons (ih hs)
  | number hhead ha hb _ ih =>
    rw [Text.closeComment_append_isSome (ha.star_not_mem hhead)] at hs
    rw [Text.closeComment_append_isSome (hb.star_not_mem hhead)]
    exact ih hs

theorem comment?_isSome (h : Renumbered s t) (hs : (comment? s).isSome) : (comment? t).isSome := by
  unfold comment? at hs
  split at hs
  · rename_i s
    obtain ⟨t', rfl, -⟩ := of_append_left (u := ['/', '/']) (by decide) h
    rfl
  · rename_i s
    obtain ⟨t', rfl, h'⟩ := of_append_left (u := ['/', '*']) (by decide) h
    have := h'.closeComment_isSome (by simpa using hs)
    simpa [comment?] using this
  · cases hs

theorem head?_eq (h : Renumbered s t) : s.head? = t.head? := by
  cases h with
  | nil => rfl
  | char c _ => rfl
  | number hhead ha hb _ =>
    obtain ⟨u, hu, -⟩ := ha.text_eq hhead
    obtain ⟨v, hv, -⟩ := hb.text_eq hhead
    rw [hu, hv]
    rfl

end Renumbered

/-! ## Segments -/

theorem Pair.renumbered_moveTo {p : Pair} (h : p.Written) (place : Coord) {s t : List Char}
    (hst : Renumbered s t) : Renumbered (p.text ++ s) ((p.moveTo place).text ++ t) := by
  have hgroup := Attribute.written_ofWord groupHead place.group
  have hbinding := Attribute.written_ofWord bindingHead place.binding
  unfold Pair.text Pair.moveTo
  split
  · simp only [List.append_assoc]
    exact .number isHead_groupHead h.group hgroup
      (.append_left _ (.number isHead_bindingHead h.binding hbinding hst))
  · simp only [List.append_assoc]
    exact .number isHead_bindingHead h.binding hbinding
      (.append_left _ (.number isHead_groupHead h.group hgroup hst))

theorem segment?_pair {p : Pair} (h : p.Written) (rest : List Char) :
    segment? (p.text ++ rest) = some (.pair p, rest) := by
  have hpair : pair? (p.text ++ rest) = some (p, rest) := pair?_eq_some_iff.2 ⟨h, rfl⟩
  obtain ⟨t, ht⟩ := h.text_eq
  rw [ht] at hpair ⊢
  simp only [List.cons_append] at hpair ⊢
  simp [segment?, comment?, hpair]

theorem segment?_comment {s text rest rest' : List Char} (h : comment? s = some (text, rest))
    (hrest : Renumbered rest rest') : segment? (text ++ rest') = some (.comment text, rest') := by
  have hcomment : comment? (text ++ rest') = some (text, rest') := by
    unfold comment? at h
    split at h
    · rename_i s
      cases h
      have hline : ∀ c ∈ s.takeWhile (· != '\n'), (c != '\n') = true :=
        fun c => List.mem_takeWhile_imp
      have hend : ∀ d ∈ rest'.head?, (d != '\n') = false := by
        rw [← hrest.head?_eq]
        intro d hd
        have := List.head?_dropWhile_not (· != '\n') s
        rwa [show (s.dropWhile (· != '\n')).head? = some d from hd] at this
      simp only [Text.restOfLine, List.cons_append, comment?,
        Text.takeWhile_append_of_head hline hend, Text.dropWhile_append_of_head hline hend]
    · obtain ⟨⟨body, r⟩, hb, heq⟩ := Option.map_eq_some_iff.1 h
      cases heq
      simp only [List.cons_append, comment?, Text.closeComment_append_right hb, Option.map_some]
    · cases h
  obtain ⟨c, t, hct⟩ := List.exists_cons_of_ne_nil (comment?_ne_nil h)
  rw [hct] at hcomment ⊢
  simp only [List.cons_append] at hcomment ⊢
  simp [segment?, hcomment]

theorem segment?_other {c : Char} {rest rest' : List Char}
    (h : segment? (c :: rest) = some (.other c, rest)) (hrest : Renumbered rest rest') :
    segment? (c :: rest') = some (.other c, rest') := by
  have hst : Renumbered (c :: rest') (c :: rest) := .char c hrest.symm
  unfold segment? at h
  simp only at h
  split at h
  · cases h
  · rename_i hcomment
    split at h
    · cases h
    · rename_i hpair
      have hcomment' : comment? (c :: rest') = none := by
        rw [← Option.not_isSome_iff_eq_none] at hcomment ⊢
        exact fun hsome => hcomment (hst.comment?_isSome hsome)
      have hpair' : pair? (c :: rest') = none := by
        rw [← Option.not_isSome_iff_eq_none] at hpair ⊢
        exact fun hsome => hpair (hst.pair?_isSome hsome)
      simp [segment?, hcomment', hpair']

/-- What the first segment of a text can be. -/
theorem segment?_cases {s rest : List Char} {g : Segment} (h : segment? s = some (g, rest)) :
    (∃ text, g = .comment text ∧ comment? s = some (text, rest)) ∨
      (∃ p, g = .pair p ∧ p.Written) ∨ ∃ c, g = .other c ∧ s = c :: rest := by
  unfold segment? at h
  split at h
  · cases h
  · split at h
    · rename_i hcomment
      cases h
      exact .inl ⟨_, rfl, hcomment⟩
    · split at h
      · rename_i hpair
        cases h
        exact .inr (.inl ⟨_, rfl, (pair?_eq_some_iff.1 hpair).1⟩)
      · cases h
        exact .inr (.inr ⟨_, rfl, rfl⟩)

theorem Segment.move_pair (moves : Moves) (p : Pair) :
    (p.place?.bind moves.target? = none ∧ (Segment.pair p).move moves = .pair p) ∨
      ∃ c place, p.place? = some c ∧ moves.target? c = some place ∧
        (Segment.pair p).move moves = .pair (p.moveTo place) := by
  cases h : p.place?.bind moves.target? with
  | none => exact .inl ⟨rfl, by simp [Segment.move, h]⟩
  | some place =>
    obtain ⟨c, hc, hplace⟩ := Option.bind_eq_some_iff.1 h
    exact .inr ⟨c, place, hc, hplace, by simp [Segment.move, h]⟩

/-- A moved segment in front of a renumbered rest renumbers the text. -/
theorem Segment.renumbered_move (moves : Moves) {s rest rest' : List Char} {g : Segment}
    (h : segment? s = some (g, rest)) (hrest : Renumbered rest rest') :
    Renumbered s ((g.move moves).text ++ rest') := by
  rw [segment?_append h]
  rcases segment?_cases h with ⟨text, rfl, -⟩ | ⟨p, rfl, hp⟩ | ⟨c, rfl, -⟩
  · exact hrest.append_left _
  · rcases Segment.move_pair moves p with ⟨-, hmove⟩ | ⟨c, place, -, -, hmove⟩
    · rw [hmove]
      exact hrest.append_left _
    · rw [hmove]
      exact Pair.renumbered_moveTo hp place hrest
  · exact hrest.append_left _

/-- A moved segment in front of a renumbered rest is the first segment there. -/
theorem Segment.segment?_move (moves : Moves) {s rest rest' : List Char} {g : Segment}
    (h : segment? s = some (g, rest)) (hrest : Renumbered rest rest') :
    segment? ((g.move moves).text ++ rest') = some (g.move moves, rest') := by
  rcases segment?_cases h with ⟨text, rfl, hcomment⟩ | ⟨p, rfl, hp⟩ | ⟨c, rfl, rfl⟩
  · exact segment?_comment hcomment hrest
  · rcases Segment.move_pair moves p with ⟨-, hmove⟩ | ⟨c, place, -, -, hmove⟩
    · rw [hmove]
      exact segment?_pair hp rest'
    · rw [hmove]
      exact segment?_pair (hp.moveTo place) rest'
  · exact segment?_other h hrest

theorem render_cons (g : Segment) (gs : List Segment) : render (g :: gs) = g.text ++ render gs :=
  List.flatMap_cons

theorem segments_nil : segments [] = [] := by
  rw [segments]
  rfl

theorem segments_of_segment? {s rest : List Char} {g : Segment} (h : segment? s = some (g, rest)) :
    segments s = g :: segments rest := by
  rw [segments]
  split
  · simp_all
  · simp_all

/-- The text after a move differs from the text in numbers only. -/
theorem renumbered_render_move (moves : Moves) (s : List Char) :
    Renumbered s (render ((segments s).map (Segment.move moves))) := by
  fun_induction segments s with
  | case1 s h =>
    rw [segment?_eq_none h]
    exact .nil
  | case2 s g rest h ih =>
    rw [List.map_cons, render_cons]
    exact Segment.renumbered_move moves h ih

/-- The segments of a text after a move are the moved segments of the text. -/
theorem segments_move (moves : Moves) (s : List Char) :
    segments (render ((segments s).map (Segment.move moves))) =
      (segments s).map (Segment.move moves) := by
  fun_induction segments s with
  | case1 s h => exact segments_nil
  | case2 s g rest h ih =>
    have hfirst := Segment.segment?_move moves h (renumbered_render_move moves rest)
    rw [List.map_cons, render_cons, segments_of_segment? hfirst, ih]

end ShaderBind.Wgsl
