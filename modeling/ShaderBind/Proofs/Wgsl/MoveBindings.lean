import ShaderBind.Proofs.Source.Marker
import ShaderBind.Proofs.Wgsl.Renumbering
import Mathlib.Data.List.Forall2

/-!
# Moves in a text, read back

Moving the bindings of a text and reading them commute (`findBindings_moveBindings`): the places
read after the moves are the places read before them, each sent where the moves send it. A move
changes the pairs whose place it moves and nothing else (`Segment.Rewritten`); the marker at the end
of the text says the same before and after (`languageOf_moveBindings`). `moveBindings_readBack`
puts this together.
-/

namespace ShaderBind.Wgsl

/-! ## Places read back -/

theorem toList_moveBindings (text : String) (moves : Moves) :
    (moveBindings text moves).1.toList =
      render ((segments text.toList).map (Segment.move moves)) :=
  String.toList_ofList

theorem segments_moveBindings (text : String) (moves : Moves) :
    segments (moveBindings text moves).1.toList =
      (segments text.toList).map (Segment.move moves) := by
  rw [toList_moveBindings, segments_move]

/-- A moved segment names the place that its place is moved to. -/
theorem Segment.place?_move (moves : Moves) (g : Segment) :
    (g.move moves).place? = g.place?.map moves.apply := by
  cases g with
  | comment text => rfl
  | other c => rfl
  | pair p =>
    rcases Segment.move_pair moves p with ⟨hnone, hmove⟩ | ⟨c, place, hc, hplace, hmove⟩
    · rw [hmove]
      cases hc : p.place? with
      | none => simp [Segment.place?, hc]
      | some c =>
        rw [hc, Option.bind_some] at hnone
        simp [Segment.place?, hc, Moves.apply, hnone]
    · rw [hmove]
      simp [Segment.place?, Pair.place?_moveTo, hc, Moves.apply, hplace]

/-- The places after the moves are the moved places. -/
theorem findBindings_moveBindings (text : String) (moves : Moves) :
    findBindings (moveBindings text moves).1 = (findBindings text).map moves.apply := by
  unfold findBindings
  rw [segments_moveBindings, List.filterMap_map, List.map_filterMap]
  congr 1
  funext g
  exact g.place?_move moves

theorem mem_moveBindings_snd {text : String} {moves : Moves} {c : Coord} :
    c ∈ (moveBindings text moves).2 ↔ c ∈ findBindings text ∧ (moves.target? c).isSome := by
  simp [moveBindings, findBindings, List.mem_eraseDups]

/-! ## What a move leaves alone -/

/-- One segment as it was, or a pair whose place is moved, with the numbers of the new place: its
order and the white space between its attributes stay. -/
def Segment.Rewritten (moves : Moves) (g g' : Segment) : Prop :=
  g' = g ∨ ∃ p c place, g = .pair p ∧ p.place? = some c ∧ moves.target? c = some place ∧
    g' = .pair ⟨p.groupFirst, .ofWord groupHead place.group, p.separator,
      .ofWord bindingHead place.binding⟩

theorem Segment.rewritten_move (moves : Moves) (g : Segment) :
    g.Rewritten moves (g.move moves) := by
  cases g with
  | comment text => exact .inl rfl
  | other c => exact .inl rfl
  | pair p =>
    rcases Segment.move_pair moves p with ⟨-, hmove⟩ | ⟨c, place, hc, hplace, hmove⟩
    · exact .inl hmove
    · exact .inr ⟨p, c, place, rfl, hc, hplace, hmove⟩

theorem forall₂_rewritten (moves : Moves) (gs : List Segment) :
    List.Forall₂ (Segment.Rewritten moves) gs (gs.map (Segment.move moves)) := by
  induction gs with
  | nil => exact .nil
  | cons g gs ih => exact .cons (g.rewritten_move moves) ih

/-- Without moves a segment stays. -/
theorem Segment.move_nil (g : Segment) : g.move [] = g := by
  cases g with
  | comment text => rfl
  | other c => rfl
  | pair p =>
    rcases Segment.move_pair [] p with ⟨-, hmove⟩ | ⟨c, place, -, hplace, -⟩
    · exact hmove
    · cases hplace

theorem moveBindings_nil (text : String) : (moveBindings text []).1 = text := by
  apply String.toList_injective
  rw [toList_moveBindings, List.map_congr_left fun g _ => g.move_nil, List.map_id', render_segments]

/-! ## The marker -/

theorem Renumbered.eq_nil {t : List Char} (h : Renumbered [] t) : t = [] :=
  List.head?_eq_none_iff.1 h.head?_eq.symm

/-- An end without a bracket is the same in both texts. -/
theorem Renumbered.of_append_right {s t v : List Char} (hv : ')' ∉ v) (h : Renumbered (s ++ v) t) :
    ∃ t', t = t' ++ v ∧ Renumbered s t' := by
  generalize hx : s ++ v = x at h
  induction h generalizing s v with
  | nil =>
    obtain ⟨rfl, rfl⟩ := List.append_eq_nil_iff.1 hx
    exact ⟨[], rfl, .nil⟩
  | @char c x t h ih =>
    cases s with
    | nil =>
      obtain rfl : v = c :: x := hx
      obtain ⟨t', rfl, h'⟩ := ih (s := []) (fun hc => hv (List.mem_cons_of_mem _ hc)) rfl
      obtain rfl := h'.eq_nil
      exact ⟨[], rfl, .nil⟩
    | cons d s =>
      cases hx
      obtain ⟨t', rfl, h'⟩ := ih hv rfl
      exact ⟨c :: t', rfl, .char c h'⟩
  | @number head a b x t hhead ha hb h ih =>
    have hsplit : ∃ s', s = a.text ++ s' ∧ s' ++ v = x := by
      rcases List.append_eq_append_iff.1 hx with ⟨w, hw, hv'⟩ | ⟨s', hs, hx'⟩
      · -- the end would reach into the attribute, and hold its bracket
        obtain ⟨r, hr⟩ := ha.exists_text_eq_append
        rcases List.eq_nil_or_concat w with rfl | ⟨w', e, rfl⟩
        · exact ⟨[], by simpa using hw.symm, by simpa using hv'⟩
        · have hlast : s ++ w' ++ [e] = r ++ [')'] := by rw [← hr, hw]; simp
          obtain ⟨-, he⟩ := List.append_inj' hlast rfl
          cases he
          exact absurd (by rw [hv']; simp) hv
      · exact ⟨s', hs, hx'.symm⟩
    obtain ⟨s', rfl, hs'⟩ := hsplit
    obtain ⟨t', rfl, h'⟩ := ih hv hs'
    exact ⟨b.text ++ t', by simp, .number hhead ha hb h'⟩

/-- Renumbered texts have the same marker, if one of them has any. -/
theorem Renumbered.findMarker? {s t before : List Char} {l : Language} (h : Renumbered s t)
    (hs : Source.findMarker? s = some (before, l)) :
    ∃ before', Source.findMarker? t = some (before', l) := by
  obtain ⟨tail, rfl, hbracket, htail⟩ := Source.findMarker?_split hs
  obtain ⟨before', rfl, -⟩ := h.of_append_right hbracket
  exact ⟨before', htail before'⟩

theorem Renumbered.map_snd_findMarker? {s t : List Char} (h : Renumbered s t) :
    (Source.findMarker? s).map Prod.snd = (Source.findMarker? t).map Prod.snd := by
  cases hs : Source.findMarker? s with
  | some m =>
    obtain ⟨before', ht⟩ := h.findMarker? hs
    rw [ht]
    rfl
  | none =>
    cases ht : Source.findMarker? t with
    | some m =>
      obtain ⟨before', hs'⟩ := h.symm.findMarker? ht
      rw [hs] at hs'
      cases hs'
    | none => rfl

/-- A move leaves the marker of a text alone. -/
theorem languageOf_moveBindings (text : String) (moves : Moves) :
    Source.languageOf (moveBindings text moves).1 = Source.languageOf text := by
  unfold Source.languageOf
  rw [toList_moveBindings, (renumbered_render_move moves text.toList).map_snd_findMarker?]

/-- Moves in a text. The places read afterwards are the places read before, in their order, each
sent where the moves send it; the places found are those of the text that the moves move. The text
is cut into the same segments before and after, and only pairs whose place is moved are written
anew. Without moves the text stays, and its marker always does. -/
theorem moveBindings_readBack (text : String) (moves : Moves) :
    findBindings (moveBindings text moves).1 = (findBindings text).map moves.apply ∧
      (∀ c, c ∈ (moveBindings text moves).2 ↔
        c ∈ findBindings text ∧ (moves.target? c).isSome) ∧
      (render (segments text.toList) = text.toList ∧
        render (segments (moveBindings text moves).1.toList) = (moveBindings text moves).1.toList ∧
        List.Forall₂ (Segment.Rewritten moves) (segments text.toList)
          (segments (moveBindings text moves).1.toList)) ∧
      (moveBindings text []).1 = text ∧
      Source.languageOf (moveBindings text moves).1 = Source.languageOf text := by
  refine ⟨findBindings_moveBindings text moves, fun c => mem_moveBindings_snd,
    ⟨render_segments _, render_segments _, ?_⟩, moveBindings_nil text,
    languageOf_moveBindings text moves⟩
  rw [segments_moveBindings]
  exact forall₂_rewritten moves _

-- what stands in the comment and the pair that is not moved are kept, blanks included
example :
    moveBindings "/* @group(0) @binding(1) */ @binding( 1 ) @group(0) a @group( 2 ) @binding(3)"
        [(⟨0, 1⟩, ⟨4, 10⟩)] =
      ("/* @group(0) @binding(1) */ @binding(10) @group(4) a @group( 2 ) @binding(3)",
        [⟨0, 1⟩]) := by
  decide +kernel

end ShaderBind.Wgsl
