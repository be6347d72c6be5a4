import ShaderBind.Proofs.Source.Walk
import ShaderBind.Proofs.Text.Decimal

/-!
# Line numbers of an unrolled text

A compiler that reads an unrolled text counts lines from one on, and after a marker from the number
in it (`Piece.lineBehind`). With the markers on, it is at every character that was copied from a
file at the line that the character has in that file, and each marker is a line of its own
(`unroll_lineNumbers`).

To say so, each copied piece is taken together with the text of its file in front of it (`Traced`).
What holds of a piece depends on all that was written before (`Traced.Placed`), so the induction
over the tree is on a list of pieces behind others (`Follows`).
-/

namespace ShaderBind.Source

/-! ## Reading with markers -/

/-- The line that a reader of the pieces is at behind them. -/
def Piece.lineBehind : Nat → List Piece → Nat
  | line, [] => line
  | _, lineMarker line :: ps => lineBehind line ps
  | line, p :: ps => lineBehind (line + Text.newlines p.text) ps

theorem Piece.lineBehind_append (line : Nat) (ps qs : List Piece) :
    lineBehind line (ps ++ qs) = lineBehind (lineBehind line ps) qs := by
  induction ps generalizing line with
  | nil => rfl
  | cons p ps ih =>
    cases p with
    | lineMarker n => exact ih n
    | copied _ _ text => exact ih (line + Text.newlines text)
    | lineBreak => exact ih (line + 1)

/-! ## Where pieces come from -/

/-- A piece, and if it is copied the text of its file in front of it. -/
structure Traced where
  piece : Piece
  front : List Char

/-- A piece that comes from no file. -/
def Traced.inserted (piece : Piece) : Traced :=
  ⟨piece, []⟩

theorem Traced.map_piece_inserted (ps : List Piece) : (ps.map inserted).map piece = ps := by
  rw [List.map_map]
  exact List.map_id ps

/-- The pieces of an inlined file with what is written around them. -/
def Traced.framed (u : Unroller) (line : Nat) (xs : List Traced) : List Traced :=
  u.frameFront.map inserted ++ xs ++ (u.frameBack line (xs.map piece)).map inserted

theorem Traced.map_piece_framed (u : Unroller) (line : Nat) (xs : List Traced) :
    (framed u line xs).map piece = u.framed line (xs.map piece) := by
  rw [framed, u.framed_eq, List.map_append, List.map_append, map_piece_inserted, map_piece_inserted]

/-- The pieces that are written for a file with a name, from a line of it on, and where they come
from. -/
def Expansion.traced (u : Unroller) :
    (name : String) → (line : Nat) → (front : List Char) → Expansion → List Traced
  | name, line, front, rest text => [⟨.copied name line text, front⟩]
  | name, line, front, dropped cut tail =>
    ⟨.copied name line cut.before, front⟩ ::
      tail.traced u name cut.directive.line (front ++ (cut.before ++ cut.span))
  | name, line, front, inlined cut file tail =>
    ⟨.copied name line cut.before, front⟩ ::
      Traced.framed u cut.directive.line
        (file.traced u (normalizePath cut.directive.path) 1 []) ++
        tail.traced u name cut.directive.line (front ++ (cut.before ++ cut.span))

/-- The traced pieces are the pieces of the unrolled text. -/
theorem Expansion.map_piece_traced (u : Unroller) (e : Expansion) (name : String) (line : Nat)
    (front : List Char) : (e.traced u name line front).map Traced.piece = e.pieces u name line := by
  induction e generalizing name line front with
  | rest text => rfl
  | dropped cut tail ih => rw [traced, List.map_cons, ih, pieces]
  | inlined cut file tail ihfile ihtail =>
    rw [traced, List.map_append, List.map_cons, Traced.map_piece_framed, ihfile, ihtail, pieces]

/-- The files that an unrolling can copy from, with their names: the source, and what the store
has. -/
def Unroller.Reads (u : Unroller) (source : String) (path : Option String) (name : String)
    (text : List Char) : Prop :=
  name = sourceName path ∧ text = source.toList ∨
    ∃ store ∈ u.store, ∃ file opened, store file = .ok opened ∧ name = normalizePath file ∧
      text = opened.toList

/-- A piece stands where it should behind what was written. Text that is copied is in its file
behind its front, and a reader is all through it at the line that the file has there. A marker is a
line of its own. -/
def Traced.Placed (reads : String → List Char → Prop) (written : List Piece) (x : Traced) : Prop :=
  match x.piece with
  | .copied file line text =>
    (∃ rest, reads file (x.front ++ text ++ rest)) ∧
      ∀ a b, text = a ++ b →
        Piece.lineBehind 1 (written ++ [.copied file line a]) = 1 + Text.newlines (x.front ++ a)
  | .lineMarker n =>
    Text.endsLine (Piece.render written) = true ∧
      ∃ digits, x.piece.text = "#line ".toList ++ digits ++ ['\n'] ∧ Text.readNat? digits = some n
  | .lineBreak => True

/-! ## Pieces behind others -/

/-- Each of the pieces stands where it should behind those before it and what was written. -/
def Follows (reads : String → List Char → Prop) : (written : List Piece) → List Traced → Prop
  | _, [] => True
  | written, x :: xs => x.Placed reads written ∧ Follows reads (written ++ [x.piece]) xs

section

variable {reads : String → List Char → Prop}

theorem follows_append {written : List Piece} {xs ys : List Traced}
    (hxs : Follows reads written xs) (hys : Follows reads (written ++ xs.map Traced.piece) ys) :
    Follows reads written (xs ++ ys) := by
  induction xs generalizing written with
  | nil => simpa using hys
  | cons x xs ih =>
    refine ⟨hxs.1, ih hxs.2 ?_⟩
    rw [List.map_cons, List.append_cons] at hys
    exact hys

/-- Each piece is placed behind those before it. -/
theorem Follows.placed {written : List Piece} {before after : List Traced} {x : Traced}
    (h : Follows reads written (before ++ x :: after)) :
    x.Placed reads (written ++ before.map Traced.piece) := by
  induction before generalizing written with
  | nil => simpa using h.1
  | cons y before ih =>
    have := ih h.2
    rwa [List.append_assoc] at this

/-- Copied text is placed if its line is the one that a reader counts. -/
theorem placed_copied {written : List Piece} {name : String} {line : Nat} {front text : List Char}
    (rest : List Char) (hread : reads name (front ++ text ++ rest))
    (hline : line = 1 + Text.newlines front) (hwritten : Piece.lineBehind 1 written = line) :
    Traced.Placed reads written ⟨.copied name line text, front⟩ := by
  refine ⟨⟨rest, hread⟩, fun a b _ => ?_⟩
  rw [Piece.lineBehind_append, hwritten, hline, Text.newlines_append, ← Nat.add_assoc]
  rfl

theorem placed_lineMarker {written : List Piece} (h : Text.endsLine (Piece.render written) = true)
    (n : Nat) : Traced.Placed reads written (.inserted (.lineMarker n)) :=
  ⟨h, n.repr.toList, Piece.text_lineMarker n, Text.readNat?_repr n⟩

theorem endsLine_append_lineBreak (ps : List Piece) :
    Text.endsLine (Piece.render (ps ++ [.lineBreak])) = true := by
  simp [Text.endsLine, Piece.render, Piece.text]

variable {u : Unroller}

/-- The markers in front of a file stand on lines of their own. -/
theorem follows_frameFront (hmarkers : u.lineMarkers = true) (written : List Piece) :
    Follows reads written (u.frameFront.map .inserted) := by
  rw [Unroller.frameFront, if_pos hmarkers]
  exact ⟨trivial, placed_lineMarker (endsLine_append_lineBreak written) 1, trivial⟩

/-- Behind the front marker line 1 of the file begins. -/
theorem lineBehind_frameFront (hmarkers : u.lineMarkers = true) (line : Nat) :
    Piece.lineBehind line u.frameFront = 1 := by
  rw [Unroller.frameFront, if_pos hmarkers]
  rfl

/-- The marker behind an inlined file begins a line, also where the file does not end one. -/
theorem follows_frameBack (hmarkers : u.lineMarkers = true) (written pieces : List Piece)
    (line : Nat) :
    Follows reads (written ++ pieces) ((u.frameBack line pieces).map .inserted) := by
  rw [Unroller.frameBack, if_pos hmarkers]
  by_cases hend : Text.endsLine (Piece.render pieces) = true
  · rw [if_pos hend]
    refine ⟨placed_lineMarker ?_ line, trivial⟩
    rw [Piece.render_append]
    exact Text.endsLine_append hend
  · rw [if_neg hend]
    exact ⟨trivial, placed_lineMarker (endsLine_append_lineBreak _) line, trivial⟩

theorem lineBehind_frameBack (hmarkers : u.lineMarkers = true) (line behind : Nat)
    (pieces : List Piece) : Piece.lineBehind behind (u.frameBack line pieces) = line := by
  rw [Unroller.frameBack, if_pos hmarkers, Piece.lineBehind_append]
  rfl

/-- A reader comes to an inlined file at its first line. -/
theorem follows_framed (hmarkers : u.lineMarkers = true) {xs : List Traced}
    (hxs : ∀ written, Piece.lineBehind 1 written = 1 → Follows reads written xs)
    (written : List Piece) (line : Nat) : Follows reads written (Traced.framed u line xs) := by
  have hfront : Piece.lineBehind 1 (written ++ u.frameFront) = 1 := by
    rw [Piece.lineBehind_append, lineBehind_frameFront hmarkers]
  refine follows_append (follows_append (follows_frameFront hmarkers written) ?_) ?_
  · rw [Traced.map_piece_inserted]
    exact hxs _ hfront
  · rw [List.map_append, Traced.map_piece_inserted, ← List.append_assoc]
    exact follows_frameBack hmarkers _ _ line

/-- Behind an inlined file the line of its directive goes on. -/
theorem lineBehind_framed (hmarkers : u.lineMarkers = true) (written pieces : List Piece)
    (line : Nat) : Piece.lineBehind 1 (written ++ u.framed line pieces) = line := by
  rw [u.framed_eq, ← List.append_assoc, Piece.lineBehind_append, lineBehind_frameBack hmarkers]

end

/-- A directive is reported at the line that its file has behind it. -/
theorem line_of_located {line : Nat} {cut : Include.Cut} {cuts : List Include.Cut}
    {front : List Char} (h : Include.Located line (cut :: cuts))
    (hline : line = 1 + Text.newlines front) :
    cut.directive.line = 1 + Text.newlines (front ++ (cut.before ++ cut.span)) := by
  obtain ⟨hcut, hspan, -⟩ := h
  rw [Text.newlines_append, Text.newlines_append, Text.newlines_eq_zero hspan]
  omega

/-- The pieces of a file stand where they should, if a reader comes to the file at the line that it
is continued at. By induction on the tree; the markers around a file set the line for it and for
what is behind it, so nothing is asked of the line at its end. -/
theorem Expansion.follows_traced {u : Unroller} (hmarkers : u.lineMarkers = true) {source : String}
    {path : Option String} (e : Expansion) (hserved : e.Served u.store) {name : String} {line : Nat}
    {front : List Char} {written : List Piece} (hlocated : Include.Located line e.cuts.cuts)
    (hread : u.Reads source path name (front ++ e.cuts.source))
    (hline : line = 1 + Text.newlines front) (hwritten : Piece.lineBehind 1 written = line) :
    Follows (u.Reads source path) written (e.traced u name line front) := by
  induction e generalizing name line front written with
  | rest text =>
    refine ⟨placed_copied [] ?_ hline hwritten, trivial⟩
    rw [List.append_nil]
    exact hread
  | dropped cut tail ih =>
    rw [cuts, Include.Cuts.source_cons] at hread
    have hcut : u.Reads source path name
        (front ++ cut.before ++ (cut.span ++ tail.cuts.source)) := by
      simpa using hread
    refine ⟨placed_copied _ hcut hline hwritten, ih hserved hlocated.2.2 ?_ ?_ ?_⟩
    · simpa using hread
    · exact line_of_located hlocated hline
    · rw [Piece.lineBehind_append, hwritten, hlocated.1]
      rfl
  | inlined cut file tail ihfile ihtail =>
    obtain ⟨⟨store, hstore, text, hopen, hscan⟩, hfiles, htail⟩ := hserved
    have hscanned := Include.scanFrom_eq_ok_iff.1 hscan
    rw [cuts, Include.Cuts.source_cons] at hread
    have hcut : u.Reads source path name
        (front ++ cut.before ++ (cut.span ++ tail.cuts.source)) := by
      simpa using hread
    have hfile : u.Reads source path (normalizePath cut.directive.path) ([] ++ file.cuts.source) :=
      .inr ⟨store, hstore, _, text, hopen, rfl, hscanned.source_eq⟩
    have hinner : ∀ written, Piece.lineBehind 1 written = 1 → Follows (u.Reads source path) written
        (file.traced u (normalizePath cut.directive.path) 1 []) := fun _ =>
      ihfile hfiles hscanned.located hfile rfl
    refine follows_append ⟨placed_copied _ hcut hline hwritten, follows_framed hmarkers hinner _ _⟩
      (ihtail htail hlocated.2.2 ?_ ?_ ?_)
    · simpa using hread
    · exact line_of_located hlocated hline
    · rw [List.map_cons, Traced.map_piece_framed, List.append_cons, lineBehind_framed hmarkers]

/-- With line markers on, a reader of the unrolled text that goes by the markers is at every copied
character at the line that the character has in its file, and each marker is a line of its own. -/
theorem Unroller.unroll_lineNumbers {u : Unroller} (hmarkers : u.lineMarkers = true)
    {source text : String} {path : Option String} (h : u.unroll source path = .ok text) :
    ∃ e : Expansion, Include.scan source.toList = .ok e.cuts ∧ e.Served u.store ∧
      (u.run source path).1 = .ok ((e.traced u (sourceName path) 1 []).map Traced.piece) ∧
      text = String.ofList
        (Piece.render ((e.traced u (sourceName path) 1 []).map Traced.piece)) ∧
      ∀ before x after, e.traced u (sourceName path) 1 [] = before ++ x :: after →
        x.Placed (u.Reads source path) (before.map Traced.piece) := by
  obtain ⟨e, hscan, hserved, hrun, htext⟩ := exists_expansion h
  have hscanned := Include.scanFrom_eq_ok_iff.1 hscan
  have hread : u.Reads source path (sourceName path) ([] ++ e.cuts.source) :=
    .inl ⟨rfl, hscanned.source_eq⟩
  have hfollows : Follows (u.Reads source path) [] (e.traced u (sourceName path) 1 []) :=
    e.follows_traced hmarkers hserved hscanned.located hread rfl rfl
  rw [← e.map_piece_traced u (sourceName path) 1 []] at hrun htext
  refine ⟨e, hscan, hserved, hrun, htext, fun before x after hsplit => ?_⟩
  rw [hsplit] at hfollows
  simpa using hfollows.placed

/-- Files that are included in the middle of a line, from each other and twice, without a newline
at their end. -/
def nestedFiles : Unroller where
  shader := "s"
  store := some (Store.ofFiles [("p", "p1\n#include <q> p2"), ("q", "// q\nq2 #include \"./p\"")])

/-- A file in a file: every piece stands in the line that it came from. -/
theorem Unroller.unroll_lineNumbers_nested :
    ∃ e : Expansion, e.Served nestedFiles.store ∧
      "m1\nm2 \n#line 1\np1\n\n#line 1\n// q\nq2 \n#line 2\n p2\n#line 2\n m3\nm4 " =
        String.ofList (Piece.render ((e.traced nestedFiles "main" 1 []).map Traced.piece)) ∧
      ∀ before x after, e.traced nestedFiles "main" 1 [] = before ++ x :: after →
        x.Placed (nestedFiles.Reads "m1\nm2 #include \"p\" m3\nm4 #include \"q\"" (some "./main"))
          (before.map Traced.piece) := by
  have hunroll : (nestedFiles.unroll "m1\nm2 #include \"p\" m3\nm4 #include \"q\""
      (some "./main")).toOption.map id = some
        "m1\nm2 \n#line 1\np1\n\n#line 1\n// q\nq2 \n#line 2\n p2\n#line 2\n m3\nm4 " := by
    decide +kernel
  have hname : sourceName (some "./main") = "main" := by decide +kernel
  obtain ⟨_, htext, rfl⟩ := exists_ok_of_map_toOption (f := id) hunroll
  obtain ⟨e, _, hserved, _, htext, hplaced⟩ := unroll_lineNumbers (u := nestedFiles) rfl htext
  rw [hname] at htext hplaced
  exact ⟨e, hserved, htext, hplaced⟩

end ShaderBind.Source
