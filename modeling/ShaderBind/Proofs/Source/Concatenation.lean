import ShaderBind.Proofs.Source.Directives

/-!
# Sources put together at a line end

Where a scan begins matters for the positions it reports, and for nothing else: from a place that is
further on by some bytes and lines it takes the same steps, and all that it reports is further on by
as much (`scanFrom_shift`). The column of a failure stays, since it is counted from the start of a line
that has moved along.

A scan that succeeds has left every comment and every directive by the end of its source, except for
a comment or a number sign that goes no further than its line. So a source that stands behind it on a
new line is scanned as if it stood alone, from a place that is further on (`find_append_newline`).
-/

namespace ShaderBind.Source

/-- The directive further on in a source. -/
def Directive.shift (bytes lines : Nat) (d : Directive) : Directive :=
  { d with start := d.start + bytes, stop := d.stop + bytes, line := d.line + lines }

namespace Include

/-- The failure some lines further on; what has no line stays as it is. -/
def Failure.shift (lines : Nat) : Failure → Failure
  | malformed fault line offset => malformed fault (line + lines) offset
  | crashed crash => crashed crash

/-! ## Places further on -/

/-- The place further on in a source. -/
def Place.shift (bytes lines : Nat) (p : Place) : Place :=
  ⟨p.offset + bytes, p.line + lines, p.lineStart + bytes⟩

/-- The cut further on in a source. -/
def Cut.shift (bytes lines : Nat) (cut : Cut) : Cut :=
  { cut with directive := cut.directive.shift bytes lines }

/-- The cuts further on in a source. -/
def Cuts.shift (bytes lines : Nat) (a : Cuts) : Cuts :=
  { a with cuts := a.cuts.map (Cut.shift bytes lines) }

/-- What comes of a scan, further on in a source. -/
def shifted (bytes lines : Nat) (x : Except Failure Cuts) : Except Failure Cuts :=
  (x.map (Cuts.shift bytes lines)).mapError (Failure.shift lines)

section

variable (bytes lines : Nat)

theorem Place.next_shift (p : Place) (c : Char) :
    (p.shift bytes lines).next c = (p.next c).shift bytes lines := by
  unfold Place.next
  split <;> simp only [Place.shift, Nat.add_right_comm]

theorem Place.after_shift (p : Place) (s : List Char) :
    (p.shift bytes lines).after s = (p.after s).shift bytes lines := by
  induction s generalizing p with
  | nil => rfl
  | cons c s ih =>
    change ((p.shift bytes lines).next c).after s = ((p.next c).after s).shift bytes lines
    rw [Place.next_shift, ih]

/-- A fault and the line it is in move along together. -/
theorem fail_shift (fault : IncludeFault) (offset : Nat) (reached : Place) :
    fail fault (offset + bytes) (reached.shift bytes lines) =
      (fail fault offset reached).shift lines := by
  unfold fail
  by_cases h : reached.lineStart ≤ offset
  · have hcolumn : offset + bytes - (reached.lineStart + bytes) = offset - reached.lineStart := by
      omega
    have hearlier : (reached.shift bytes lines).lineStart ≤ offset + bytes :=
      Nat.add_le_add_right h bytes
    rw [if_pos h, if_pos hearlier]
    simp only [Place.shift, hcolumn, Failure.shift]
  · have hlater : ¬ (reached.shift bytes lines).lineStart ≤ offset + bytes := fun hle =>
      h (Nat.le_of_add_le_add_right hle)
    rw [if_neg h, if_neg hlater]
    rfl

theorem closePath_shift (closing : Char) (fault : IncludeFault) (s : List Char) (p : Place) :
    closePath closing fault s (p.shift bytes lines) =
      (closePath closing fault s p).mapError (Failure.shift lines) := by
  unfold closePath
  simp only [Place.after_shift]
  split
  · split
    · rfl
    · exact congrArg Except.error (fail_shift bytes lines ..)
  · exact congrArg Except.error (fail_shift bytes lines ..)

theorem path?_shift (s : List Char) (p : Place) :
    path? s (p.shift bytes lines) = (path? s p).mapError (Failure.shift lines) := by
  unfold path?
  simp only [Place.after_shift, Place.next_shift, closePath_shift]
  split
  · cases closePath '"' .unclosedQuote _ _ <;> rfl
  · cases closePath '>' .unclosedAngle _ _ <;> rfl
  · exact congrArg Except.error (fail_shift bytes lines ..)

theorem Cuts.shift_prepend (s : List Char) (a : Cuts) :
    (a.prepend s).shift bytes lines = (a.shift bytes lines).prepend s := by
  rcases a with ⟨_ | ⟨cut, cuts⟩, rest⟩ <;> rfl

theorem Cut.shift_at (span path : List Char) (p : Place) :
    (Cut.at span path p).shift bytes lines = .at span path (p.shift bytes lines) := by
  unfold Cut.at
  rw [Place.after_shift]
  rfl

theorem scanFrom_unclosed {rest : List Char} (h : Text.closeComment rest = none) (p : Place) :
    scanFrom ('/' :: '*' :: rest) p =
      .error (fail .unclosedComment p.offset ((p.after ['/', '*']).afterUnclosed rest)) := by
  rw [scanFrom]
  split
  next h' => cases h.symm.trans h'
  next => rfl

theorem scanFrom_malformed {s word rest : List Char} {p : Place} {e : Failure}
    (hword : keyword? s = some (word, rest)) (hpath : path? rest (p.after ('#' :: word)) = .error e) :
    scanFrom ('#' :: s) p = .error e := by
  rw [scanFrom]
  split
  next h =>
    cases hword.symm.trans h
    split
    next h' =>
      cases hpath.symm.trans h'
      rfl
    next h' => cases hpath.symm.trans h'
  next h => cases hword.symm.trans h

/-- A step that passes over text goes on further on in the same way. -/
theorem scanFrom_shift_passed {s rest : List Char} (h : Passed rest s) {p : Place}
    (ih : scanFrom rest ((p.after s).shift bytes lines) =
      shifted bytes lines (scanFrom rest (p.after s))) :
    scanFrom (s ++ rest) (p.shift bytes lines) =
      shifted bytes lines (scanFrom (s ++ rest) p) := by
  rw [scanFrom_passed h, scanFrom_passed h, Place.after_shift, ih]
  cases scanFrom rest (p.after s) with
  | error e => rfl
  | ok a => exact congrArg Except.ok (Cuts.shift_prepend bytes lines s a).symm

theorem scanFrom_shift_spelled {span path : List Char} (h : Spelled span path) {rest : List Char}
    {p : Place} (ih : scanFrom rest ((p.after span).shift bytes lines) =
      shifted bytes lines (scanFrom rest (p.after span))) :
    scanFrom (span ++ rest) (p.shift bytes lines) =
      shifted bytes lines (scanFrom (span ++ rest) p) := by
  rw [scanFrom_spelled h, scanFrom_spelled h, Place.after_shift, ih, ← Cut.shift_at]
  cases scanFrom rest (p.after span) <;> rfl

/-- The scan of a text further on in a source takes the same steps. -/
theorem scanFrom_shift (s : List Char) (p : Place) :
    scanFrom s (p.shift bytes lines) = shifted bytes lines (scanFrom s p) := by
  induction s, p using scanFrom.induct with
  | case1 p =>
    rw [scanFrom_nil, scanFrom_nil]
    rfl
  | case2 p rest comment ih =>
    have hstep := scanFrom_shift_passed bytes lines (passed_restOfLine rest) ih
    rwa [List.cons_append, List.cons_append, Text.restOfLine_append] at hstep
  | case3 p rest body rest' hclose comment ih =>
    obtain rfl := Text.closeComment_append hclose
    exact scanFrom_shift_passed bytes lines (.blockComment hclose) ih
  | case4 p rest hclose =>
    rw [scanFrom_unclosed hclose, scanFrom_unclosed hclose, Place.afterUnclosed, Place.after_shift,
      Place.after_shift]
    exact congrArg Except.error (fail_shift bytes lines ..)
  | case5 p rest word rest' hword e hpath =>
    have hpath' : path? rest' ((p.shift bytes lines).after ('#' :: word)) =
        .error (e.shift lines) := by
      rw [Place.after_shift, path?_shift, hpath]
      rfl
    rw [scanFrom_malformed hword hpath, scanFrom_malformed hword hpath']
    rfl
  | case6 p rest word rest' hword tail path rest'' hpath span q ih =>
    obtain ⟨hspan, rfl⟩ := spelled_of_reads hword hpath
    exact scanFrom_shift_spelled bytes lines hspan ih
  | case7 p rest hword ih =>
    exact scanFrom_shift_passed bytes lines (.hash hword) ih
  | case8 p c rest hline hblock hhash ih =>
    exact scanFrom_shift_passed bytes lines (passed_singleton hhash hline hblock) ih

end

/-! ## A source behind another -/

theorem Cuts.directives_append (a b : Cuts) :
    (a.append b).cuts.map Cut.directive =
      a.cuts.map Cut.directive ++ b.cuts.map Cut.directive := by
  rw [Cuts.append, List.map_append, Cuts.directives_prepend]

theorem Cuts.directives_shift (bytes lines : Nat) (a : Cuts) :
    (a.shift bytes lines).cuts.map Cut.directive =
      (a.cuts.map Cut.directive).map (Directive.shift bytes lines) := by
  rw [Cuts.shift, List.map_map, List.map_map]
  rfl

/-- The place behind a line end. -/
theorem Place.after_newline (s : List Char) :
    Place.after {} (s ++ ['\n']) =
      Place.shift (Text.bytes s + 1) (Text.newlines s + 1) {} := by
  have hbytes : Text.bytes ['\n'] = 1 := rfl
  have hlines : Text.newlines ['\n'] = 1 := rfl
  rw [Place.after_eq, Text.bytes_append, Text.newlines_append, lineStart_append_newline, hbytes,
    hlines]
  simp [Place.shift, Nat.add_comm]

/-- A scan that succeeds can be ended by a line end, which adds no directive. -/
theorem Scanned.newline {s : List Char} {a : Cuts} (h : Scanned s {} a) :
    Scanned (s ++ ['\n']) {} (a.append ⟨[], ['\n']⟩) := by
  have hclean : Clean ['\n'] := clean_of_plain (by simp)
  refine scanFrom_eq_ok_iff.1 ?_
  rw [h.append (.inr (startsBlank_newline [])), hclean]
  rfl

/-- Behind a line end the scan starts anew, further on. -/
theorem Scanned.append_newline {s : List Char} {a : Cuts} (h : Scanned s {} a) (t : List Char) :
    scanFrom (s ++ ['\n'] ++ t) {} =
      (shifted (Text.bytes s + 1) (Text.newlines s + 1) (scanFrom t {})).map
        (a.append ⟨[], ['\n']⟩).append := by
  have hline : Text.endsLine (s ++ ['\n']) = true := Text.endsLine_append rfl
  rw [h.newline.append (.inl (endsBlank_of_endsLine hline)), Place.after_newline, scanFrom_shift]

/-- Let the scan of a source succeed. Then a source on the next line is scanned as if it stood alone:
the scan of both succeeds exactly if that of the second does, finds the directives of the first and
then those of the second, further on by the first source and its line end, and fails as that of the
second does, in a line that is further on. -/
theorem find_append_newline (a b : String) (ds : List Directive) (h : find a = .ok ds) :
    ((∃ found, find (a ++ "\n" ++ b) = .ok found) ↔ ∃ ds', find b = .ok ds') ∧
      (∀ ds', find b = .ok ds' → find (a ++ "\n" ++ b) =
        .ok (ds ++ ds'.map (Directive.shift (a.utf8ByteSize + 1) (a.toList.count '\n' + 1)))) ∧
      ∀ e, find b = .error e →
        find (a ++ "\n" ++ b) = .error (e.shift (a.toList.count '\n' + 1)) := by
  obtain ⟨first, hfirst, hds⟩ := bind_eq_ok_iff.1 h
  obtain rfl := pure_eq_ok_iff.1 hds
  have hboth := (scanned_of_scanFrom hfirst).append_newline b.toList
  rw [Text.bytes_toList, Text.newlines] at hboth
  have htext : (a ++ "\n" ++ b).toList = a.toList ++ ['\n'] ++ b.toList := by simp
  have hok : ∀ ds', find b = .ok ds' → find (a ++ "\n" ++ b) =
      .ok (first.cuts.map Cut.directive ++
        ds'.map (Directive.shift (a.utf8ByteSize + 1) (a.toList.count '\n' + 1))) := by
    intro ds' hb
    obtain ⟨second, hsecond, hds'⟩ := bind_eq_ok_iff.1 hb
    obtain rfl := pure_eq_ok_iff.1 hds'
    have hscan : scanFrom b.toList {} = .ok second := hsecond
    rw [hscan] at hboth
    refine bind_eq_ok_iff.2 ⟨_, (congrArg scan htext).trans hboth, pure_eq_ok_iff.2 ?_⟩
    rw [Cuts.directives_append, Cuts.directives_append, Cuts.directives_shift]
    simp
  have herror : ∀ e, find b = .error e →
      find (a ++ "\n" ++ b) = .error (e.shift (a.toList.count '\n' + 1)) := by
    intro e hb
    have hscan : scanFrom b.toList {} = .error e := bind_pure_eq_error_iff.1 hb
    rw [hscan] at hboth
    exact bind_pure_eq_error_iff.2 ((congrArg scan htext).trans hboth)
  refine ⟨⟨?_, ?_⟩, hok, herror⟩
  · rintro ⟨found, hfound⟩
    cases hb : find b with
    | ok ds' => exact ⟨ds', rfl⟩
    | error e => cases (herror e hb).symm.trans hfound
  · rintro ⟨ds', hb⟩
    exact ⟨_, hok ds' hb⟩

/-- A comment and a number sign end with their lines, and what is wrong on the next line is told in
its own columns. -/
theorem find_append_newline_open :
    find "#include <ä>\n// #\t#" = .ok [⟨"ä", 0, 13, 1⟩] ∧
      find "#include <ä>\n// #\t#\ninclude #include \"b\"" =
        .ok [⟨"ä", 0, 13, 1⟩, ⟨"b", 29, 41, 3⟩] ∧
      find "#include <ä>\n// #\t#\n #include <b" = .error (.malformed .unclosedAngle 3 13) := by
  have hfirst : find "#include <ä>\n// #\t#" = .ok [⟨"ä", 0, 13, 1⟩] := by decide +kernel
  have hsecond : find "include #include \"b\"" = .ok [⟨"b", 8, 20, 1⟩] := by decide +kernel
  have hbad : find " #include <b" = .error (.malformed .unclosedAngle 1 13) := by decide +kernel
  obtain ⟨-, hok, -⟩ := find_append_newline _ "include #include \"b\"" _ hfirst
  obtain ⟨-, -, herror⟩ := find_append_newline _ " #include <b" _ hfirst
  exact ⟨hfirst, hok _ hsecond, herror _ hbad⟩

end Include

end ShaderBind.Source
