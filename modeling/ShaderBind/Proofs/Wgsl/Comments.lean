import ShaderBind.Proofs.Wgsl.MoveBindings
import ShaderBind.Wgsl.Token

/-!
# Pairs outside comments

`standings` tells where each character of a text stands as the language has it: outside comments, in
a comment of one line, or in a comment between stars, which may enclose others. Segments know no
such nesting. In a text whose comments are closed and enclose no others, and whose line breaks are
newlines (`Plain`), a first segment that is a comment is a comment of the language, and any other
first segment is outside all comments (`Plain.standings_segment`). So the pairs among the segments
are outside comments (`Plain.uncommented_of_segments`), and a pair outside comments is a segment
unless one that begins before it reaches into it (`Plain.exists_segments`). `findBindings_outside`
says this of the places that are found and of the text after a move.

A comment that encloses another is taken to end with the inner one (`findBindings_nested`).
-/

namespace ShaderBind.Wgsl

/-! ## Comments of the language -/

/-- Where a character stands: outside comments, in a comment of one line, or in a comment between
stars that so many others enclose. -/
inductive Standing
  | code
  | line
  | block (enclosing : Nat)
  deriving DecidableEq, Repr

/-- Whether a character stands in a comment inside another. -/
def Standing.isNested : Standing → Bool
  | block (_ + 1) => true
  | _ => false

/-- Where each character of a text stands, and last where the text ends. What opens and what closes
a comment belongs to it, the line break behind a comment of one line does not. -/
def standings : Standing → List Char → List Standing
  | .code, '/' :: '/' :: s => .line :: .line :: standings .line s
  | .code, '/' :: '*' :: s => .block 0 :: .block 0 :: standings (.block 0) s
  | .code, _ :: s => .code :: standings .code s
  | .line, c :: s =>
    if endsComment c then .code :: standings .code s else .line :: standings .line s
  | .block 0, '*' :: '/' :: s => .block 0 :: .block 0 :: standings .code s
  | .block (n + 1), '*' :: '/' :: s => .block (n + 1) :: .block (n + 1) :: standings (.block n) s
  | .block n, '/' :: '*' :: s => .block (n + 1) :: .block (n + 1) :: standings (.block (n + 1)) s
  | .block n, _ :: s => .block n :: standings (.block n) s
  | .block n, [] => [.block n]
  | _, [] => [.code]

/-- A text with closed comments and no line breaks but newlines. -/
structure Closed (s : List Char) : Prop where
  closed : (standings .code s).getLast? = some .code
  breaks : ∀ c ∈ s, endsComment c = true → c = '\n'

/-- A closed text none of whose comments encloses another. -/
structure Plain (s : List Char) : Prop extends Closed s where
  flat : ∀ l ∈ standings .code s, l.isNested = false

instance (s : List Char) : Decidable (Closed s) :=
  have : Decidable (∀ c ∈ s, endsComment c = true → c = '\n') := List.decidableBAll _ s
  decidable_of_iff _ ⟨fun h => ⟨h.1, h.2⟩, fun h => And.intro h.closed h.breaks⟩

instance (s : List Char) : Decidable (Plain s) :=
  decidable_of_iff _ ⟨fun h => ⟨h.1, h.2⟩, fun h => And.intro h.toClosed h.flat⟩

theorem standings_ne_nil (l : Standing) (s : List Char) : standings l s ≠ [] := by
  fun_cases standings l s <;> simp_all

/-- Where no comment begins, a character stands outside comments. -/
theorem standings_code_cons {c : Char} {s : List Char}
    (hline : ∀ r, c :: s ≠ '/' :: '/' :: r) (hblock : ∀ r, c :: s ≠ '/' :: '*' :: r) :
    standings .code (c :: s) = .code :: standings .code s := by
  rw [standings.eq_def]
  split <;> simp_all

/-- Text without slashes stands outside comments. -/
theorem standings_code_append {t : List Char} (ht : '/' ∉ t) (s : List Char) :
    standings .code (t ++ s) = List.replicate t.length .code ++ standings .code s := by
  induction t with
  | nil => rfl
  | cons c t ih =>
    obtain ⟨hc, ht⟩ := not_or.1 (mt List.mem_cons.2 ht)
    rw [List.cons_append, standings_code_cons (fun r h => hc (List.cons.inj h).1.symm)
      (fun r h => hc (List.cons.inj h).1.symm), ih ht]
    rfl

/-- A comment of one line goes on to the newline. -/
theorem standings_line {s : List Char} (h : ∀ c ∈ s, endsComment c = true → c = '\n') :
    standings .line s = List.replicate (Text.restOfLine s).1.length .line ++
      standings .code (Text.restOfLine s).2 := by
  induction s with
  | nil => rfl
  | cons c s ih =>
    obtain ⟨hc, hs⟩ := List.forall_mem_cons.1 h
    by_cases hnewline : c = '\n'
    · subst hnewline
      simp [standings, Text.restOfLine, endsComment]
    · have hbreak : endsComment c = false := by
        rw [Bool.eq_false_iff]
        exact fun h => hnewline (hc h)
      have hrest : Text.restOfLine (c :: s) =
          (c :: (Text.restOfLine s).1, (Text.restOfLine s).2) := by
        simp [Text.restOfLine, hnewline]
      rw [standings, if_neg (by simp [hbreak]), ih hs, hrest]
      rfl

theorem standings_block_cons {n : Nat} {c : Char} {s : List Char}
    (hclose : ∀ r, c :: s ≠ '*' :: '/' :: r) (hopen : ∀ r, c :: s ≠ '/' :: '*' :: r) :
    standings (.block n) (c :: s) = .block n :: standings (.block n) s := by
  rw [standings.eq_def]
  split <;> simp_all

/-- A comment between stars that is closed and encloses no other goes on to the first mark that
closes one. -/
theorem standings_block {s : List Char} (hclosed : (standings (.block 0) s).getLast? = some .code)
    (hflat : ∀ l ∈ standings (.block 0) s, l.isNested = false) :
    ∃ body rest, Text.closeComment s = some (body, rest) ∧
      standings (.block 0) s = List.replicate body.length (.block 0) ++ standings .code rest := by
  fun_induction Text.closeComment s with
  | case1 rest => exact ⟨_, rest, rfl, rfl⟩
  | case2 c s hclose ih =>
    have hopen : ∀ r, c :: s ≠ '/' :: '*' :: r := by
      intro r heq
      have hnested := hflat (.block 1) (by rw [heq]; simp [standings])
      cases hnested
    have hcons : standings (.block 0) (c :: s) = .block 0 :: standings (.block 0) s := by
      refine standings_block_cons (fun r heq => ?_) hopen
      obtain ⟨hc, hs⟩ := List.cons.inj heq
      exact hclose r hc hs
    rw [hcons] at hclosed hflat ⊢
    rw [List.getLast?_cons_of_ne_nil (standings_ne_nil _ _)] at hclosed
    obtain ⟨body, rest, hbody, hstandings⟩ := ih hclosed (List.forall_mem_cons.1 hflat).2
    refine ⟨c :: body, rest, by rw [hbody]; rfl, ?_⟩
    rw [hstandings]
    rfl
  | case3 => cases hclosed

/-! ## Segments -/

/-- Where the characters of a segment stand: those of a comment in one, all others in none. -/
def Segment.Fits (g : Segment) (ls : List Standing) : Prop :=
  ls.length = g.text.length ∧
    match g with
    | .comment _ => ∀ l ∈ ls, l ≠ .code
    | _ => ∀ l ∈ ls, l = .code

/-- No comment begins in a pair. -/
theorem Pair.Written.slash_not_mem {p : Pair} (h : p.Written) : '/' ∉ p.text := by
  have hgroup : '/' ∉ p.group.text := h.group.mark_not_mem isHead_groupHead (by decide)
  have hbinding : '/' ∉ p.binding.text := h.binding.mark_not_mem isHead_bindingHead (by decide)
  have hseparator : '/' ∉ p.separator := fun hc => absurd (h.separator _ hc) (by decide)
  unfold Pair.text
  split <;> simp [hgroup, hbinding, hseparator]

theorem comment?_of_segment?_other {s rest : List Char} {c : Char}
    (h : segment? s = some (.other c, rest)) : comment? s = none := by
  unfold segment? at h
  split at h
  · cases h
  · split at h
    · cases h
    · assumption

namespace Plain

variable {s rest : List Char} {g : Segment}

/-- A comment between stars at the start of a text ends at the first mark that closes one. -/
theorem standings_block (h : Plain ('/' :: '*' :: s)) :
    ∃ body rest, Text.closeComment s = some (body, rest) ∧
      standings .code ('/' :: '*' :: s) =
        List.replicate (body.length + 2) (.block 0) ++ standings .code rest := by
  have hopen : standings .code ('/' :: '*' :: s) =
      .block 0 :: .block 0 :: standings (.block 0) s := by
    simp [standings]
  have hclosed := h.closed
  have hflat := h.flat
  rw [hopen] at hclosed hflat ⊢
  rw [List.getLast?_cons_of_ne_nil (List.cons_ne_nil _ _),
    List.getLast?_cons_of_ne_nil (standings_ne_nil _ _)] at hclosed
  obtain ⟨body, rest, hbody, hstandings⟩ := Wgsl.standings_block hclosed
    (List.forall_mem_cons.1 (List.forall_mem_cons.1 hflat).2).2
  exact ⟨body, rest, hbody, by rw [hstandings]; rfl⟩

/-- A comment at the start of a text is one of the language. -/
theorem standings_comment (h : Plain s) {text : List Char}
    (hcomment : comment? s = some (text, rest)) :
    ∃ ls, standings .code s = ls ++ standings .code rest ∧ (Segment.comment text).Fits ls := by
  unfold comment? at hcomment
  split at hcomment
  next s =>
    cases hcomment
    have hbreaks : ∀ c ∈ s, endsComment c = true → c = '\n' :=
      fun c hc => h.breaks c (List.mem_cons_of_mem _ (List.mem_cons_of_mem _ hc))
    refine ⟨List.replicate ((Text.restOfLine s).1.length + 2) .line, ?_, ?_⟩
    · rw [standings, standings_line hbreaks]
      rfl
    · simp [Segment.Fits, Segment.text]
  next s =>
    obtain ⟨body, r, hbody, hstandings⟩ := h.standings_block
    rw [hbody] at hcomment
    cases hcomment
    exact ⟨_, hstandings, by simp [Segment.Fits, Segment.text]⟩
  next => cases hcomment

/-- The first segment of a text, and where its characters stand. -/
theorem standings_segment (h : Plain s) (hg : segment? s = some (g, rest)) :
    ∃ ls, standings .code s = ls ++ standings .code rest ∧ g.Fits ls := by
  have hs := segment?_append hg
  rcases segment?_cases hg with ⟨text, rfl, hcomment⟩ | ⟨p, rfl, hp⟩ | ⟨c, rfl, -⟩
  · exact h.standings_comment hcomment
  · refine ⟨List.replicate p.text.length .code, ?_, by simp [Segment.Fits, Segment.text]⟩
    rw [hs]
    exact standings_code_append hp.slash_not_mem rest
  · have hnone := comment?_of_segment?_other hg
    obtain rfl : s = c :: rest := hs
    refine ⟨[.code], standings_code_cons (fun r heq => ?_) (fun r heq => ?_),
      by simp [Segment.Fits, Segment.text]⟩
    · rw [heq] at hnone
      cases hnone
    · rw [heq] at h hnone
      obtain ⟨body, r', hbody, -⟩ := h.standings_block
      simp [comment?, hbody] at hnone

/-- Behind the first segment the text is plain again. -/
theorem tail (h : Plain s) (hg : segment? s = some (g, rest)) : Plain rest := by
  obtain ⟨ls, hstandings, -⟩ := h.standings_segment hg
  refine ⟨⟨?_, fun c hc => ?_⟩, fun l hl => ?_⟩
  · have hclosed := h.closed
    rwa [hstandings, List.getLast?_append_of_ne_nil _ (standings_ne_nil _ _)] at hclosed
  · refine h.breaks c ?_
    rw [segment?_append hg]
    exact List.mem_append_right _ hc
  · refine h.flat l ?_
    rw [hstandings]
    exact List.mem_append_right _ hl

end Plain

/-! ## Pairs -/

/-- A pair that stands in a text behind `before`, outside comments. -/
structure Uncommented (source before : List Char) (p : Pair) : Prop where
  written : p.Written
  isPrefix : before ++ p.text <+: source
  outside : ∀ l ∈ ((standings .code source).drop before.length).take p.text.length, l = .code

/-- A pair outside comments begins before the end of `before` and reaches beyond it. -/
def Overlapped (source before : List Char) : Prop :=
  ∃ before' p', Uncommented source before' p' ∧ before'.length < before.length ∧
    before.length < before'.length + p'.text.length

theorem segment?_of_segments {s : List Char} {g : Segment} {gs : List Segment}
    (h : segments s = g :: gs) : ∃ rest, segment? s = some (g, rest) ∧ segments rest = gs := by
  rw [segments] at h
  split at h
  · cases h
  next hg =>
    cases h
    exact ⟨_, hg, rfl⟩

/-- A character of the front part is among those from its place on. -/
theorem getElem_mem_take_drop {ls : List Standing} (ls' : List Standing) {k n : Nat}
    (hk : k < ls.length) (hn : 0 < n) : ls[k] ∈ ((ls ++ ls').drop k).take n := by
  obtain ⟨m, rfl⟩ : ∃ m, n = m + 1 := ⟨n - 1, by omega⟩
  rw [List.drop_append_of_le_length (Nat.le_of_lt hk), List.drop_eq_getElem_cons hk,
    List.cons_append, List.take_succ_cons]
  exact List.mem_cons_self

theorem Pair.Written.length_pos {p : Pair} (h : p.Written) : 0 < p.text.length := by
  obtain ⟨t, ht⟩ := h.text_eq
  simp [ht]

namespace Plain

variable {s rest before : List Char} {g : Segment} {p : Pair}

/-- Pairs behind the first segment are the pairs of the rest. -/
theorem uncommented_append_iff (h : Plain s) (hg : segment? s = some (g, rest)) :
    Uncommented s (g.text ++ before) p ↔ Uncommented rest before p := by
  obtain ⟨ls, hstandings, hlength, -⟩ := h.standings_segment hg
  have hdrop : (standings .code s).drop (g.text ++ before).length =
      (standings .code rest).drop before.length := by
    rw [hstandings, List.length_append, ← hlength, List.drop_append]
    simp
  have hfront : g.text ++ before ++ p.text <+: s ↔ before ++ p.text <+: rest := by
    rw [segment?_append hg, List.append_assoc, List.prefix_append_right_inj]
  constructor
  · rintro ⟨hwritten, hp, houtside⟩
    exact ⟨hwritten, hfront.1 hp, hdrop ▸ houtside⟩
  · rintro ⟨hwritten, hp, houtside⟩
    exact ⟨hwritten, hfront.2 hp, hdrop ▸ houtside⟩

theorem uncommented_nil (h : Plain s) (hg : segment? s = some (.pair p, rest)) :
    Uncommented s [] p := by
  obtain ⟨ls, hstandings, hlength, hcode⟩ := h.standings_segment hg
  have hp : p.Written := by
    rcases segment?_cases hg with ⟨_, hq, -⟩ | ⟨_, hq, hp⟩ | ⟨_, hq, -⟩
    · cases hq
    · cases hq
      exact hp
    · cases hq
  refine ⟨hp, ⟨rest, (segment?_append hg).symm⟩, ?_⟩
  rw [hstandings, List.length_nil, List.drop_zero, ← show ls.length = p.text.length from hlength,
    List.take_left]
  exact hcode

/-- A pair among the segments is outside comments. -/
theorem uncommented_of_segments (h : Plain s) {gs gs' : List Segment}
    (hs : segments s = gs ++ .pair p :: gs') : Uncommented s (render gs) p := by
  induction gs generalizing s with
  | nil =>
    obtain ⟨rest, hg, -⟩ := segment?_of_segments hs
    exact h.uncommented_nil hg
  | cons g gs ih =>
    obtain ⟨rest, hg, hrest⟩ := segment?_of_segments hs
    rw [render_cons]
    exact (h.uncommented_append_iff hg).2 (ih (h.tail hg) hrest)

/-- A pair outside comments that no other reaches into does not begin inside the first segment. -/
theorem length_le (h : Plain s) (hg : segment? s = some (g, rest)) (hp : Uncommented s before p)
    (hfirst : ¬ Overlapped s before) (hne : before ≠ []) : g.text.length ≤ before.length := by
  refine Nat.le_of_not_lt fun hlt => ?_
  have hpos := List.length_pos_iff.2 hne
  obtain ⟨ls, hstandings, hlength, hfits⟩ := h.standings_segment hg
  have hcode := hp.outside _ (hstandings ▸
    getElem_mem_take_drop (standings .code rest) (hlength ▸ hlt) hp.written.length_pos)
  cases g with
  | comment text => exact hfits _ (List.getElem_mem _) hcode
  | pair q =>
    exact hfirst ⟨[], q, h.uncommented_nil hg, hpos, by simpa [Segment.text] using hlt⟩
  | other c =>
    simp only [Segment.text, List.length_singleton] at hlt
    omega

/-- A pair outside comments that no other reaches into is a segment. -/
theorem exists_segments (h : Plain s) (hp : Uncommented s before p)
    (hfirst : ¬ Overlapped s before) :
    ∃ gs gs', segments s = gs ++ .pair p :: gs' ∧ render gs = before := by
  fun_induction segments s generalizing before with
  | case1 s hnone =>
    have hlength := hp.isPrefix.length_le
    have hpos := hp.written.length_pos
    rw [segment?_eq_none hnone, List.length_append, List.length_nil] at hlength
    omega
  | case2 s g rest hg ih =>
    by_cases hne : before = []
    · subst hne
      obtain ⟨after, rfl⟩ := hp.isPrefix
      have hpair : segment? (p.text ++ after) = some (.pair p, after) :=
        segment?_pair hp.written after
      rw [List.nil_append, hpair] at hg
      cases hg
      exact ⟨[], _, rfl, rfl⟩
    · -- the first segment lies in front of the pair
      have hfront : g.text <+: before := by
        have hg' : g.text <+: s := ⟨rest, (segment?_append hg).symm⟩
        have hbefore : before <+: s := List.IsPrefix.trans (List.prefix_append _ _) hp.isPrefix
        exact List.prefix_of_prefix_length_le hg' hbefore (h.length_le hg hp hfirst hne)
      obtain ⟨before', rfl⟩ := hfront
      have hfirst' : ¬ Overlapped rest before' := by
        rintro ⟨b, q, hq, hlt, hreach⟩
        refine hfirst ⟨g.text ++ b, q, (h.uncommented_append_iff hg).2 hq, ?_, ?_⟩
        · simpa using hlt
        · simpa [Nat.add_assoc] using hreach
      obtain ⟨gs, gs', hsegments, hrender⟩ :=
        ih (h.tail hg) ((h.uncommented_append_iff hg).1 hp) hfirst'
      exact ⟨g :: gs, gs', by rw [hsegments]; rfl, by rw [render_cons, hrender]⟩

end Plain

/-! ## Texts -/

/-- The pairs among segments, each with the text in front of it. -/
def located : List Char → List Segment → List (List Char × Pair)
  | _, [] => []
  | before, .pair p :: gs => (before, p) :: located (before ++ p.text) gs
  | before, g :: gs => located (before ++ g.text) gs

theorem mem_located_iff {before : List Char} {gs : List Segment} {f : List Char × Pair} :
    f ∈ located before gs ↔
      ∃ gs₁ gs₂, gs = gs₁ ++ .pair f.2 :: gs₂ ∧ f.1 = before ++ render gs₁ := by
  fun_induction located before gs with
  | case1 => simp
  | case2 before p gs ih =>
    rw [List.mem_cons, ih]
    constructor
    · rintro (rfl | ⟨gs₁, gs₂, rfl, hf⟩)
      · exact ⟨[], gs, rfl, by simp [render]⟩
      · exact ⟨.pair p :: gs₁, gs₂, rfl, by rw [hf, render_cons, List.append_assoc]; rfl⟩
    · rintro ⟨gs₁, gs₂, hgs, hf⟩
      cases gs₁ with
      | nil =>
        cases hgs
        exact .inl (Prod.ext (by simpa [render] using hf) rfl)
      | cons g gs₁ =>
        cases hgs
        exact .inr ⟨gs₁, gs₂, rfl, by rw [hf, render_cons, List.append_assoc]; rfl⟩
  | case3 before g gs hg ih =>
    rw [ih]
    constructor
    · rintro ⟨gs₁, gs₂, rfl, hf⟩
      exact ⟨g :: gs₁, gs₂, rfl, by rw [hf, render_cons, List.append_assoc]⟩
    · rintro ⟨gs₁, gs₂, hgs, hf⟩
      cases gs₁ with
      | nil => exact absurd (List.cons.inj hgs).1 (hg _)
      | cons g gs₁ =>
        cases hgs
        exact ⟨gs₁, gs₂, rfl, by rw [hf, render_cons, List.append_assoc]⟩

theorem filterMap_located (before : List Char) (gs : List Segment) :
    (located before gs).filterMap (fun f => f.2.place?) = gs.filterMap Segment.place? := by
  fun_induction located before gs with
  | case1 => rfl
  | case2 before p gs ih =>
    rw [List.filterMap_cons, List.filterMap_cons, ih]
    rfl
  | case3 before g gs hg ih =>
    rw [ih, List.filterMap_cons_none]
    cases g with
    | pair p => exact absurd rfl (hg p)
    | comment text => rfl
    | other c => rfl

/-- The text `t` is `s`, which stands behind `before`, with the pairs listed as the moves have
them. -/
inductive Replaced (moves : Moves) :
    List Char → List (List Char × Pair) → List Char → List Char → Prop
  | rest (before s : List Char) : Replaced moves before [] s s
  | pair {before gap s t : List Char} {p : Pair} {found : List (List Char × Pair)} :
      Replaced moves (before ++ gap ++ p.text) found s t →
      Replaced moves before ((before ++ gap, p) :: found) (gap ++ p.text ++ s)
        (gap ++ ((Segment.pair p).move moves).text ++ t)

/-- Text in front of the first pair stays. -/
theorem Replaced.append {moves : Moves} {before s t : List Char}
    {found : List (List Char × Pair)} (u : List Char)
    (h : Replaced moves (before ++ u) found s t) :
    Replaced moves before found (u ++ s) (u ++ t) := by
  cases h with
  | rest => exact .rest before _
  | @pair _ gap s t p found h =>
    rw [List.append_assoc before u gap] at h ⊢
    simpa using Replaced.pair h

theorem replaced_located (moves : Moves) (before : List Char) (gs : List Segment) :
    Replaced moves before (located before gs) (render gs)
      (render (gs.map (Segment.move moves))) := by
  fun_induction located before gs with
  | case1 before => exact .rest before []
  | case2 before p gs ih =>
    have hpair : Replaced moves before ((before ++ [], p) :: located (before ++ p.text) gs)
        ([] ++ p.text ++ render gs)
        ([] ++ ((Segment.pair p).move moves).text ++ render (gs.map (Segment.move moves))) :=
      .pair (by rwa [List.append_nil])
    rw [List.map_cons, render_cons, render_cons]
    rwa [List.append_nil] at hpair
  | case3 before g gs hg ih =>
    have hmove : g.move moves = g := by
      cases g with
      | pair p => exact absurd rfl (hg p)
      | comment text => rfl
      | other c => rfl
    rw [List.map_cons, hmove, render_cons, render_cons]
    exact ih.append g.text

/-- Pairs are found outside comments. In a text whose comments are closed and enclose no others, and
whose line breaks are newlines, the places reported are those of pairs outside comments, and a move
writes such pairs anew and nothing else. Every pair outside comments is among them, unless one that
begins before it reaches into it. -/
theorem findBindings_outside (source : String) (h : Plain source.toList) :
    ∃ found : List (List Char × Pair),
      findBindings source = found.filterMap (fun f => f.2.place?) ∧
      (∀ moves, Replaced moves [] found source.toList (moveBindings source moves).1.toList ∧
        ∀ c, c ∈ (moveBindings source moves).2 ↔
          (∃ f ∈ found, f.2.place? = some c) ∧ (moves.target? c).isSome) ∧
      (∀ f ∈ found, Uncommented source.toList f.1 f.2) ∧
      ∀ before p, Uncommented source.toList before p → ¬ Overlapped source.toList before →
        (before, p) ∈ found := by
  have hfound := filterMap_located [] (segments source.toList)
  refine ⟨located [] (segments source.toList), hfound.symm, fun moves => ⟨?_, fun c => ?_⟩, ?_, ?_⟩
  · have hreplaced := replaced_located moves [] (segments source.toList)
    rwa [render_segments, ← toList_moveBindings] at hreplaced
  · rw [mem_moveBindings_snd, findBindings, ← hfound, List.mem_filterMap]
  · intro f hf
    obtain ⟨gs₁, gs₂, hgs, hbefore⟩ := mem_located_iff.1 hf
    rw [hbefore]
    exact h.uncommented_of_segments hgs
  · intro before p hp hfirst
    obtain ⟨gs₁, gs₂, hgs, hbefore⟩ := h.exists_segments hp hfirst
    exact mem_located_iff.2 ⟨gs₁, gs₂, hgs, hbefore.symm⟩

/-- Comments of both kinds, and pairs in both orders that share an attribute. -/
theorem findBindings_outside_shared :
    let source :=
      "// @group(0) @binding(0)\n/* @group(0) @binding(1) */ @group(1) @binding(2) @group(3)"
    Plain source.toList ∧ ∃ found : List (List Char × Pair),
      [⟨1, 2⟩] = found.filterMap (fun f => f.2.place?) ∧
      ∀ f ∈ found, Uncommented source.toList f.1 f.2 := by
  intro source
  have hplain : Plain source.toList := by decide +kernel
  have hfind : findBindings source = [⟨1, 2⟩] := by decide +kernel
  obtain ⟨found, hplaces, -, houtside, -⟩ := findBindings_outside source hplain
  exact ⟨hplain, found, hfind ▸ hplaces, houtside⟩

/-- Where no pair begins, none reaches beyond. -/
theorem not_overlapped {source before : List Char}
    (h : ∀ k < before.length, pair? (source.drop k) = none) : ¬ Overlapped source before := by
  rintro ⟨before', p, hp, hlt, -⟩
  obtain ⟨rest, rfl⟩ := hp.isPrefix
  have hnone := h _ hlt
  rw [List.append_assoc, List.drop_left, pair?_eq_some_iff.2 ⟨hp.written, rfl⟩] at hnone
  cases hnone

/-- A comment inside another. Every character of the first text stands in a comment, and yet its
pair is found and moved. The pair of the second text stands outside comments and is not found. -/
theorem findBindings_nested :
    let hidden := "/* /* */ @group(0) @binding(0) */"
    let shown := "/* /* */ // */ @group(0) @binding(1)\n"
    (Closed hidden.toList ∧ (∀ l ∈ (standings .code hidden.toList).dropLast, l ≠ .code) ∧
      findBindings hidden = [⟨0, 0⟩] ∧
      moveBindings hidden [(⟨0, 0⟩, ⟨1, 2⟩)] =
        ("/* /* */ @group(1) @binding(2) */", [⟨0, 0⟩])) ∧
    Closed shown.toList ∧
      (∃ before p, Uncommented shown.toList before p ∧ ¬ Overlapped shown.toList before ∧
        p.place? = some ⟨0, 1⟩) ∧
      findBindings shown = [] := by
  refine ⟨by decide +kernel, by decide +kernel, ?_, by decide +kernel⟩
  have hblank : Blank [' '] := by
    intro c hc
    rw [List.mem_singleton.1 hc]
    decide
  have hp : Pair.Written ⟨true, .ofWord groupHead 0, [' '], .ofWord bindingHead 1⟩ :=
    ⟨Attribute.written_ofWord .., hblank, Attribute.written_ofWord ..⟩
  exact ⟨"/* /* */ // */ ".toList, _, ⟨hp, by decide +kernel, by decide +kernel⟩,
    not_overlapped (by decide +kernel), by decide +kernel⟩

end ShaderBind.Wgsl
