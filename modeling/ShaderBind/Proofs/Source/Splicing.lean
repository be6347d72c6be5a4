import ShaderBind.Proofs.Source.Walk
import ShaderBind.Proofs.Text.Decimal

/-!
# Unrolled texts have no directives

An unrolled text is put together from texts that were scanned one by one, and from line markers.
Where each directive stands alone in its line (`StandAlone`), nothing can arise from what is on both
sides of a seam: the text in front of a directive ends in blanks, and the text behind it begins with
them. Hence the scan of what comes out finds no directive (`find_unroll`).
-/

namespace ShaderBind.Source

/-! ## Directives in lines of their own -/

/-- Each directive has only blanks before it in its line, and behind it only blanks and carriage
returns. -/
def Include.Cuts.Alone (a : Cuts) : Prop :=
  ∀ i (_ : i < a.cuts.length), EndsBlank (source ⟨a.cuts.take i, a.cuts[i].before⟩) ∧
    StartsBlank (source ⟨a.cuts.drop (i + 1), a.rest⟩)

instance (a : Include.Cuts) : Decidable a.Alone :=
  inferInstanceAs (Decidable (∀ i (_ : i < a.cuts.length),
    Include.EndsBlank (Include.Cuts.source ⟨a.cuts.take i, a.cuts[i].before⟩) ∧
      Include.StartsBlank (Include.Cuts.source ⟨a.cuts.drop (i + 1), a.rest⟩)))

/-- A text in which each directive stands alone in its line. -/
def StandAlone (source : List Char) : Prop :=
  ∀ a, Include.scan source = .ok a → a.Alone

instance (source : List Char) : Decidable (StandAlone source) :=
  match hscan : Include.scan source with
  | .ok a => decidable_of_iff a.Alone
      ⟨fun h b hb => by cases hscan.symm.trans hb; exact h, fun h => h a hscan⟩
  | .error _ => isTrue fun b hb => by cases hscan.symm.trans hb

theorem Include.Cuts.Alone.head {cut : Cut} {a : Cuts} (h : (a.cons cut).Alone) :
    EndsBlank cut.before ∧ StartsBlank a.source :=
  h 0 (Nat.succ_pos _)

theorem Include.Cuts.Alone.tail {cut : Cut} {a : Cuts} (h : (a.cons cut).Alone) : a.Alone := by
  intro i hi
  obtain ⟨hbefore, hbehind⟩ := h (i + 1) (Nat.succ_lt_succ hi)
  refine ⟨EndsBlank.of_append (s := cut.before ++ cut.span) ?_, hbehind⟩
  simpa [source, cons] using hbefore

/-! ## What is inserted -/

theorem clean_lineBreak : Include.Clean Piece.lineBreak.text :=
  Include.clean_of_plain (by simp [Piece.text])

theorem endsBlank_lineBreak : Include.EndsBlank Piece.lineBreak.text :=
  Include.endsBlank_of_endsLine rfl

/-- A line marker is no directive. -/
theorem clean_lineMarker (n : Nat) : Include.Clean (Piece.lineMarker n).text := by
  have hline : "line ".toList.all (fun c => c ≠ '/' ∧ c ≠ '#') = true := rfl
  have hplain : ∀ c ∈ "line ".toList ++ n.repr.toList ++ ['\n'], c ≠ '/' ∧ c ≠ '#' := by
    intro c hc
    rcases List.mem_append.1 hc with hc | hc
    · rcases List.mem_append.1 hc with hc | hc
      · exact of_decide_eq_true (List.all_eq_true.1 hline c hc)
      · have hdigit := Text.isDigit_of_mem_repr hc
        constructor <;> rintro rfl <;> cases hdigit
    · rw [List.mem_singleton.1 hc]
      decide
  have hword : Include.keyword? ("line ".toList ++ n.repr.toList ++ ['\n']) = none := rfl
  rw [Piece.text_lineMarker]
  exact (Include.Passed.hash hword).clean_append (Include.clean_of_plain hplain)

theorem endsBlank_lineMarker (n : Nat) : Include.EndsBlank (Piece.lineMarker n).text := by
  refine Include.endsBlank_of_endsLine ?_
  rw [Piece.text_lineMarker]
  exact Text.endsLine_append rfl

theorem clean_frameFront (u : Unroller) {t : List Char} (h : Include.Clean t) :
    Include.Clean (Piece.render u.frameFront ++ t) := by
  unfold Unroller.frameFront
  split
  · rw [Piece.render_cons, Piece.render_singleton, List.append_assoc]
    have hmarker := (clean_lineMarker 1).append h (.inl (endsBlank_lineMarker 1))
    exact clean_lineBreak.append hmarker (.inl endsBlank_lineBreak)
  · exact h

theorem clean_frameBack (u : Unroller) (line : Nat) {pieces : List Piece}
    (h : Include.Clean (Piece.render pieces)) :
    Include.Clean (Piece.render (pieces ++ u.frameBack line pieces)) := by
  rw [Piece.render_append]
  unfold Unroller.frameBack
  split
  · by_cases hend : Text.endsLine (Piece.render pieces) = true
    · rw [if_pos hend, List.nil_append, Piece.render_singleton]
      exact h.append (clean_lineMarker line) (.inl (Include.endsBlank_of_endsLine hend))
    · rw [if_neg hend, List.singleton_append, Piece.render_cons, Piece.render_singleton]
      have hmarker :=
        clean_lineBreak.append (clean_lineMarker line) (.inl endsBlank_lineBreak)
      exact h.append hmarker (.inr (Include.startsBlank_newline _))
  · simpa [Piece.render] using h

/-- A file that is inlined brings no directive, with markers around it or without. -/
theorem clean_framed (u : Unroller) (line : Nat) {pieces : List Piece}
    (h : Include.Clean (Piece.render pieces)) :
    Include.Clean (Piece.render (u.framed line pieces)) := by
  rw [u.framed_eq, List.append_assoc, Piece.render_append]
  exact clean_frameFront u (clean_frameBack u line h)

/-! ## Trees -/

theorem Include.StartsBlank.before_append {cut : Cut} {a : Cuts}
    (h : StartsBlank (a.cons cut).source) (hspan : Spelled cut.span cut.directive.path.toList)
    (t : List Char) : StartsBlank (cut.before ++ t) := by
  obtain ⟨tail, hspan⟩ := hspan.exists_cons
  rw [Cuts.source_cons, hspan, List.append_assoc] at h
  exact h.append_of_hash t

/-- A file that begins with a blank line begins with one also when it is unrolled: that line ends
before the first directive. -/
theorem Expansion.startsBlank_pieces (u : Unroller) (name : String) (line : Nat) {e : Expansion}
    (hspans : ∀ cut ∈ e.cuts.cuts, Include.Spelled cut.span cut.directive.path.toList)
    (h : Include.StartsBlank e.cuts.source) :
    Include.StartsBlank (Piece.render (e.pieces u name line)) := by
  cases e with
  | rest text =>
    rw [pieces, Piece.render_singleton]
    exact h
  | dropped cut tail => exact h.before_append (hspans cut List.mem_cons_self) _
  | inlined cut file tail => exact h.before_append (hspans cut List.mem_cons_self) _

/-- What comes out of a tree has no directive, if none shares its line. By induction on the tree:
the text in front of a directive ends in blanks, and what comes out of the text behind it begins
with them, so that the three parts around the seams are scanned one after the other. -/
theorem Expansion.clean_pieces (u : Unroller) {e : Expansion} (hserved : e.Served u.store)
    (hstore : ∀ store ∈ u.store, ∀ path text, store path = .ok text → StandAlone text.toList)
    (halone : e.cuts.Alone) (hclean : ∀ t ∈ e.cuts.texts, Include.Clean t)
    (hspans : ∀ cut ∈ e.cuts.cuts, Include.Spelled cut.span cut.directive.path.toList)
    (name : String) (line : Nat) : Include.Clean (Piece.render (e.pieces u name line)) := by
  induction e generalizing name line with
  | rest text =>
    rw [pieces, Piece.render_singleton]
    exact hclean text List.mem_cons_self
  | dropped cut tail ih =>
    obtain ⟨hbefore, htexts⟩ := List.forall_mem_cons.1 hclean
    have htail := ih hserved halone.tail htexts (List.forall_mem_cons.1 hspans).2 name
      cut.directive.line
    exact hbefore.append htail (.inl halone.head.1)
  | inlined cut file tail ihfile ihtail =>
    obtain ⟨⟨store, hmem, text, hopen, hscan⟩, hfiles, hserved⟩ := hserved
    obtain ⟨hbefore, htexts⟩ := List.forall_mem_cons.1 hclean
    have hspans := (List.forall_mem_cons.1 hspans).2
    have htail := ihtail hserved halone.tail htexts hspans name cut.directive.line
    have hblank := startsBlank_pieces u name cut.directive.line hspans halone.head.2
    have hscanned := Include.scanFrom_eq_ok_iff.1 hscan
    have hfile := ihfile hfiles (hstore store hmem _ text hopen _ hscan) hscanned.clean
      hscanned.spelled (normalizePath cut.directive.path) 1
    have hframed := (clean_framed u cut.directive.line hfile).append htail (.inr hblank)
    rw [pieces, List.cons_append, Piece.render_cons, Piece.render_append]
    exact hbefore.append hframed (.inl halone.head.1)

/-- When each directive stands alone in its line, in the source and in every file, the text that is
unrolled has no directives left, whether line markers are on or off. -/
theorem Unroller.find_unroll {u : Unroller} {source text : String} {path : Option String}
    (hsource : StandAlone source.toList)
    (hstore : ∀ store ∈ u.store, ∀ path text, store path = .ok text → StandAlone text.toList)
    (h : u.unroll source path = .ok text) : Include.find text = .ok [] := by
  obtain ⟨e, hscan, hserved, -, rfl⟩ := exists_expansion h
  have hscanned := Include.scanFrom_eq_ok_iff.1 hscan
  have hclean := e.clean_pieces u hserved hstore (hsource _ hscan) hscanned.clean
    hscanned.spelled (sourceName path) 1
  rw [Include.find, Include.scan, String.toList_ofList, hclean]
  rfl

/-- Files that end in a comment or a number sign and include each other. -/
def ragged : List (String × String) :=
  [("a", "//#include \"c\"\n\t#include <./b>\r\n//"), ("b", "/* # */ /\n#include \"a\" \n#")]

/-- Seams of every kind: blanks in front, a comment that is open at the end, a number sign. -/
theorem Unroller.find_unroll_ragged :
    StandAlone "  #include \"a\"\ninclude \"x\"\n#include \"b\"".toList ∧
      (Unroller.mk "s" (some (Store.ofFiles ragged)) false).unroll
          "  #include \"a\"\ninclude \"x\"\n#include \"b\"" none =
        .ok "  //#include \"c\"\n\t/* # */ /\n \n#\r\n//\ninclude \"x\"\n" ∧
      Include.find "  //#include \"c\"\n\t/* # */ /\n \n#\r\n//\ninclude \"x\"\n" = .ok [] := by
  have hsource : StandAlone "  #include \"a\"\ninclude \"x\"\n#include \"b\"".toList := by
    decide +kernel
  have hfiles : ∀ f ∈ ragged, StandAlone f.2.toList := by decide +kernel
  have hunroll : ((Unroller.mk "s" (some (Store.ofFiles ragged)) false).unroll
      "  #include \"a\"\ninclude \"x\"\n#include \"b\"" none).toOption.map id =
        some "  //#include \"c\"\n\t/* # */ /\n \n#\r\n//\ninclude \"x\"\n" := by
    decide +kernel
  have hstore : ∀ store ∈ some (Store.ofFiles ragged), ∀ path text, store path = .ok text →
      StandAlone text.toList := by
    rintro store ⟨⟩ path text hopen
    obtain ⟨f, hf, -, rfl⟩ := Store.mem_of_ofFiles hopen
    exact hfiles f hf
  obtain ⟨_, htext, rfl⟩ := exists_ok_of_map_toOption hunroll
  exact ⟨hsource, htext, find_unroll hsource hstore htext⟩

end ShaderBind.Source
