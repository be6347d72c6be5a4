import ShaderBind.Proofs.Source.Scanning
import Mathlib.Data.List.Induction

/-!
# Where the scan of a source comes to

The scan goes through a source from its beginning, and at each of its stops the text in front is cut
into comments, directives and single characters (`Reaches`). The text behind is kept in view, since
what a step takes depends on what follows.

Comments can be told apart without the scan, once the spans of the directives are known: a comment
opens where one is written and neither a span nor an earlier comment covers the place (`Opens`). At
every stop of the scan all comments that have opened are closed and all spans end (`Level`), and this
is what makes the scan and the comments agree: a step lemma for each way to go on (`Level.comment`,
`Level.char`, `Level.directive`), and from them `Reaches.level`.
-/

namespace ShaderBind.Source.Include

/-! ## Positions -/

/-- The number of bytes in front of the character with an index. -/
def byteAt (s : List Char) (n : Nat) : Nat :=
  Text.bytes (s.take n)

theorem byteAt_append (s t : List Char) : byteAt (s ++ t) s.length = Text.bytes s := by
  rw [byteAt, List.take_left]

/-- Later characters are at later bytes. -/
theorem byteAt_lt {s : List Char} {m n : Nat} (h : m < n) (hm : m < s.length) :
    byteAt s m < byteAt s n := by
  have hsplit : s.take n = s.take m ++ (s.take n).drop m := by
    conv_lhs => rw [← List.take_append_drop m (s.take n), List.take_take, Nat.min_eq_left h.le]
  have hne : (s.take n).drop m ≠ [] := by
    simp only [ne_eq, List.drop_eq_nil_iff, List.length_take]
    omega
  have hpos := Text.bytes_pos hne
  rw [byteAt, byteAt, hsplit, Text.bytes_append]
  omega

theorem byteAt_le {s : List Char} {m n : Nat} (h : m ≤ n) : byteAt s m ≤ byteAt s n := by
  by_cases hm : m < s.length
  · rcases h.eq_or_lt with rfl | h
    · exact Nat.le_refl _
    · exact (byteAt_lt h hm).le
  · rw [byteAt, byteAt, List.take_of_length_le (by omega), List.take_of_length_le (by omega)]

/-- The offset at which the line begins that a text ends in. -/
def lineStart (s : List Char) : Nat :=
  Text.bytes (Text.trimEnd (· != '\n') s)

theorem lineStart_le (s : List Char) : lineStart s ≤ Text.bytes s := by
  have hsplit : s = Text.trimEnd (· != '\n') s ++ (s.reverse.takeWhile (· != '\n')).reverse := by
    rw [Text.trimEnd, ← List.reverse_append, List.takeWhile_append_dropWhile, List.reverse_reverse]
  have hbytes := congrArg Text.bytes hsplit
  rw [Text.bytes_append] at hbytes
  rw [lineStart]
  omega

/-- Behind a line break a line begins. -/
theorem lineStart_append_newline (s : List Char) : lineStart (s ++ ['\n']) = Text.bytes s + 1 := by
  have hbreak : Text.bytes ['\n'] = 1 := rfl
  simp [lineStart, Text.trimEnd, Text.bytes_append, hbreak]

theorem lineStart_append_of_ne {c : Char} (hc : c ≠ '\n') (s : List Char) :
    lineStart (s ++ [c]) = lineStart s := by
  simp [lineStart, Text.trimEnd, hc]

/-- Text without a line break goes on in the same line. -/
theorem lineStart_append {t : List Char} (h : '\n' ∉ t) (s : List Char) :
    lineStart (s ++ t) = lineStart s := by
  induction t using List.reverseRecOn with
  | nil => rw [List.append_nil]
  | append_singleton t c ih =>
    rw [List.mem_append, not_or, List.mem_singleton] at h
    rw [← List.append_assoc, lineStart_append_of_ne (Ne.symm h.2), ih h.1]

/-- Behind a line break the line begins later. -/
theorem lt_lineStart_append {t : List Char} (h : '\n' ∈ t) (s : List Char) :
    Text.bytes s < lineStart (s ++ t) := by
  induction t using List.reverseRecOn with
  | nil => exact absurd h List.not_mem_nil
  | append_singleton t c ih =>
    rw [← List.append_assoc]
    by_cases hc : c = '\n'
    · rw [hc, lineStart_append_newline, Text.bytes_append]
      omega
    · rw [lineStart_append_of_ne hc]
      exact ih ((List.mem_append.1 h).resolve_right (by simpa using Ne.symm hc))

/-- The place behind a text that stands at the beginning of a source. -/
theorem Place.after_eq (s : List Char) :
    Place.after {} s = ⟨Text.bytes s, 1 + Text.newlines s, Include.lineStart s⟩ := by
  induction s using List.reverseRecOn with
  | nil => rfl
  | append_singleton s c ih =>
    rw [Place.after_append, ih, Text.bytes_append, Text.newlines_append]
    by_cases hc : c = '\n'
    · rw [hc, lineStart_append_newline]
      rfl
    · have hlines : Text.newlines [c] = 0 := Text.newlines_eq_zero (by simpa using Ne.symm hc)
      rw [lineStart_append_of_ne hc, hlines]
      simp [Place.after, Place.next, hc, Text.bytes]

/-! ## Comments -/

/-- The comment that a text begins with; a block comment that is not closed goes to the end. -/
def comment? : List Char → Option (List Char)
  | '/' :: '/' :: rest => some ('/' :: '/' :: (Text.restOfLine rest).1)
  | '/' :: '*' :: rest =>
    some ('/' :: '*' :: ((Text.closeComment rest).map Prod.fst).getD rest)
  | _ => none

/-- A comment is not empty and stands at the front of its text. -/
theorem comment?_append {s t : List Char} (h : comment? s = some t) :
    t ≠ [] ∧ ∃ rest, s = t ++ rest := by
  unfold comment? at h
  split at h
  next rest =>
    cases h
    refine ⟨by simp, (Text.restOfLine rest).2, ?_⟩
    rw [List.cons_append, List.cons_append, Text.restOfLine_append]
  next rest =>
    cases h
    refine ⟨by simp, ?_⟩
    cases hclose : Text.closeComment rest with
    | none => exact ⟨[], by simp⟩
    | some parts => exact ⟨parts.2, by simpa using Text.closeComment_append hclose⟩
  next => cases h

/-- What opens a comment begins with a slash. -/
theorem comment?_eq_none {c : Char} (hc : c ≠ '/') (rest : List Char) :
    comment? (c :: rest) = none := by
  unfold comment?
  split
  next h =>
    cases h
    exact absurd rfl hc
  next h =>
    cases h
    exact absurd rfl hc
  next => rfl

/-- The index behind the comment that begins at an index. -/
def commentEnd (s : List Char) (n : Nat) : Nat :=
  n + ((comment? (s.drop n)).getD []).length

/-- A comment opens at an index: one is written there, and the place lies neither in the span of a
directive nor in a comment that opens before. -/
def Opens (s : List Char) (ds : List Directive) (n : Nat) : Prop :=
  (comment? (s.drop n)).isSome ∧
    (∀ d ∈ ds, ¬ (d.start ≤ byteAt s n ∧ byteAt s n < d.stop)) ∧
    ∀ m, (h : m < n) → Opens s ds m → commentEnd s m ≤ n
termination_by n

/-- The character with an index belongs to a comment. -/
def InComment (s : List Char) (ds : List Directive) (n : Nat) : Prop :=
  ∃ m ≤ n, Opens s ds m ∧ n < commentEnd s m

section

variable {s : List Char} {ds : List Directive} {n : Nat}

/-- A comment opens where one begins outside directives and outside earlier comments. -/
theorem opens_iff : Opens s ds n ↔ (comment? (s.drop n)).isSome ∧
    (∀ d ∈ ds, ¬ (d.start ≤ byteAt s n ∧ byteAt s n < d.stop)) ∧
    ∀ m < n, Opens s ds m → commentEnd s m ≤ n := by
  rw [Opens]

/-- Directives behind a place do not matter for the comments up to it. -/
theorem opens_append_iff {ds' : List Directive} (h : ∀ d ∈ ds', byteAt s n < d.start) :
    Opens s (ds ++ ds') n ↔ Opens s ds n := by
  induction n using Nat.strongRecOn with
  | ind n ih =>
    have hearlier : ∀ m < n, (Opens s (ds ++ ds') m ↔ Opens s ds m) := fun m hm =>
      ih m hm fun d hd => (byteAt_le hm.le).trans_lt (h d hd)
    have hbehind : ∀ d ∈ ds', ¬ (d.start ≤ byteAt s n ∧ byteAt s n < d.stop) := fun d hd hin =>
      absurd hin.1 (Nat.not_le.2 (h d hd))
    rw [opens_iff, opens_iff, List.forall_mem_append]
    refine and_congr_right fun _ => and_congr ⟨fun hs => hs.1, fun hs => ⟨hs, hbehind⟩⟩ ?_
    exact forall_congr' fun m => forall_congr' fun hm => by rw [hearlier m hm]

/-- Directives further on do not matter for a comment. -/
theorem inComment_append_iff {ds' : List Directive} (h : ∀ d ∈ ds', byteAt s n < d.start) :
    InComment s (ds ++ ds') n ↔ InComment s ds n := by
  unfold InComment
  refine exists_congr fun m => and_congr_right fun hm => ?_
  rw [opens_append_iff fun d hd => (byteAt_le hm).trans_lt (h d hd)]

end

/-! ## Between comments and directives -/

/-- The scan can stop at the index: each comment that opens before it is closed, and each span
ends. -/
structure Level (s : List Char) (ds : List Directive) (n : Nat) : Prop where
  le_length : n ≤ s.length
  stop_le : ∀ d ∈ ds, d.stop ≤ byteAt s n
  closed : ∀ m < n, Opens s ds m → commentEnd s m ≤ n

namespace Level

variable {s : List Char} {ds : List Directive} {n : Nat}

theorem start (s : List Char) : Level s [] 0 :=
  ⟨Nat.zero_le _, by simp, by simp⟩

/-- Where the scan can stop, a comment that is written there opens. -/
theorem opens (h : Level s ds n) {t : List Char} (ht : comment? (s.drop n) = some t) :
    Opens s ds n := by
  refine opens_iff.2 ⟨by simp [ht], fun d hd hin => ?_, h.closed⟩
  exact absurd hin.2 (Nat.not_lt.2 (h.stop_le d hd))

/-- Where the scan can stop, no earlier comment goes on. -/
theorem inComment_iff (h : Level s ds n) : InComment s ds n ↔ Opens s ds n := by
  constructor
  · rintro ⟨m, hm, hopens, hend⟩
    rcases hm.eq_or_lt with rfl | hm
    · exact hopens
    · exact absurd (h.closed m hm hopens) (Nat.not_le.2 hend)
  · intro hopens
    refine ⟨n, Nat.le_refl _, hopens, ?_⟩
    obtain ⟨t, ht⟩ := Option.isSome_iff_exists.1 (opens_iff.1 hopens).1
    have hpos := List.length_pos_iff.2 (comment?_append ht).1
    rw [commentEnd, ht, Option.getD_some]
    omega

/-- The scan passes a comment as a whole. -/
theorem comment (h : Level s ds n) {t : List Char} (ht : comment? (s.drop n) = some t) :
    Level s ds (n + t.length) := by
  have hend : commentEnd s n = n + t.length := by rw [commentEnd, ht, Option.getD_some]
  refine ⟨?_, fun d hd => ?_, fun m hm hopens => ?_⟩
  · obtain ⟨rest, hrest⟩ := (comment?_append ht).2
    have hlen := congrArg List.length hrest
    rw [List.length_drop, List.length_append] at hlen
    have := h.le_length
    omega
  · exact (h.stop_le d hd).trans (byteAt_le (Nat.le_add_right _ _))
  · rcases Nat.lt_trichotomy m n with hlt | rfl | hgt
    · exact (h.closed m hlt hopens).trans (Nat.le_add_right _ _)
    · exact hend.le
    · -- inside the comment that opens at `n`
      have := (opens_iff.1 hopens).2.2 n hgt (h.opens ht)
      omega

/-- The scan passes a character where no comment begins. -/
theorem char (h : Level s ds n) (hn : n < s.length) (hnone : comment? (s.drop n) = none) :
    Level s ds (n + 1) := by
  refine ⟨hn, fun d hd => (h.stop_le d hd).trans (byteAt_le (Nat.le_succ n)), fun m hm hopens => ?_⟩
  rcases (Nat.le_of_lt_succ hm).eq_or_lt with rfl | hlt
  · have hsome := (opens_iff.1 hopens).1
    rw [hnone] at hsome
    cases hsome
  · exact (h.closed m hlt hopens).trans (Nat.le_succ n)

/-- The scan passes a directive as a whole. -/
theorem directive (h : Level s ds n) {d : Directive} {k : Nat} (hstart : d.start = byteAt s n)
    (hstop : d.stop = byteAt s (n + k)) (hk : n + k ≤ s.length) : Level s (ds ++ [d]) (n + k) := by
  refine ⟨hk, fun e he => ?_, fun m hm hopens => ?_⟩
  · rcases List.mem_append.1 he with he | he
    · exact (h.stop_le e he).trans (byteAt_le (Nat.le_add_right _ _))
    · rw [List.mem_singleton.1 he, hstop]
  · rcases Nat.lt_or_ge m n with hlt | hge
    · have hbefore : byteAt s m < byteAt s n := byteAt_lt hlt (by omega)
      rw [opens_append_iff (by simpa [hstart] using hbefore)] at hopens
      exact (h.closed m hlt hopens).trans (Nat.le_add_right _ _)
    · -- inside the span
      refine absurd ⟨?_, ?_⟩ ((opens_iff.1 hopens).2.1 d (by simp))
      · rw [hstart]
        exact byteAt_le hge
      · rw [hstop]
        exact byteAt_lt hm (by omega)

end Level

/-! ## Stops of the scan -/

/-- The directive that is written in a span behind some text. -/
def directiveAt (before span path : List Char) : Directive :=
  ⟨String.ofList path, Text.bytes before, Text.bytes (before ++ span), 1 + Text.newlines before⟩

/-- A directive is reported at the bytes and in the line where it stands. -/
theorem directive_at (before span path : List Char) :
    (Cut.at span path (Place.after {} before)).directive = directiveAt before span path := by
  rw [Cut.at, ← Place.after_append, Place.after_eq, Place.after_eq]
  rfl

/-- The scan of a source stops behind `before`, with `rest` to go and the directives found. -/
inductive Reaches (source : List Char) : List Char → List Char → List Directive → Prop
  | start : Reaches source [] source []
  | pass {before s rest : List Char} {ds : List Directive} (h : Reaches source before (s ++ rest) ds)
      (hs : Passed rest s) : Reaches source (before ++ s) rest ds
  | directive {before span path rest : List Char} {ds : List Directive}
      (h : Reaches source before (span ++ rest) ds) (hspan : Spelled span path) :
      Reaches source (before ++ span) rest (ds ++ [directiveAt before span path])

/-- A step that passes over text takes a comment, or one character where no comment and no
directive begins. -/
theorem Passed.comment?_eq {s rest : List Char} (h : Passed rest s) :
    comment? (s ++ rest) = some s ∨
      ∃ c, s = [c] ∧ comment? (c :: rest) = none ∧ (c = '#' → keyword? rest = none) := by
  cases h with
  | lineComment hline hrest =>
    refine .inl ?_
    rw [List.cons_append, List.cons_append, comment?, Text.restOfLine_of_head hline hrest]
  | blockComment h =>
    refine .inl ?_
    rw [List.cons_append, List.cons_append, comment?, h]
    rfl
  | hash h => exact .inr ⟨'#', rfl, rfl, fun _ => h⟩
  | @other c hhash hslash =>
    refine .inr ⟨c, rfl, ?_, fun hc => absurd hc hhash⟩
    by_cases hc : c = '/'
    · subst hc
      unfold comment?
      split
      next h =>
        cases h
        exact absurd rfl (hslash rfl _ rfl).1
      next h =>
        cases h
        exact absurd rfl (hslash rfl _ rfl).2
      next => rfl
    · exact comment?_eq_none hc rest

/-- No comment begins where a directive does. -/
theorem Spelled.comment?_eq {span path : List Char} (h : Spelled span path) (rest : List Char) :
    comment? (span ++ rest) = none := by
  obtain ⟨tail, rfl⟩ := h.exists_cons
  exact comment?_eq_none (by decide) _

namespace Reaches

variable {source before rest : List Char} {ds : List Directive}

/-- What was scanned and what is left are the source. -/
theorem append_eq (h : Reaches source before rest ds) : before ++ rest = source := by
  induction h with
  | start => rfl
  | pass _ _ ih => rw [List.append_assoc, ih]
  | directive _ _ ih => rw [List.append_assoc, ih]

theorem drop_length (h : Reaches source before rest ds) : source.drop before.length = rest := by
  rw [← h.append_eq, List.drop_left]

theorem byteAt_length (h : Reaches source before rest ds) :
    byteAt source before.length = Text.bytes before := by
  rw [← h.append_eq, byteAt_append]

/-- The places where a directive begins and ends, as indices. -/
theorem directiveAt_eq {span : List Char} (h : Reaches source before (span ++ rest) ds)
    (path : List Char) :
    (directiveAt before span path).start = byteAt source before.length ∧
      (directiveAt before span path).stop = byteAt source (before.length + span.length) ∧
      before.length + span.length ≤ source.length := by
  have hsource : source = before ++ span ++ rest := by rw [← h.append_eq, List.append_assoc]
  refine ⟨h.byteAt_length.symm, ?_, ?_⟩
  · rw [hsource, ← List.length_append, byteAt_append]
    rfl
  · rw [hsource]
    simp

/-- All comments are closed and all spans end at each stop of the scan. -/
theorem level (h : Reaches source before rest ds) : Level source ds before.length := by
  induction h with
  | start => exact .start source
  | @pass before s rest ds h hs ih =>
    rw [List.length_append]
    rcases hs.comment?_eq with hcomment | ⟨c, rfl, hnone, -⟩
    · exact ih.comment (by rw [h.drop_length, hcomment])
    · refine ih.char ?_ (by rw [h.drop_length]; exact hnone)
      rw [← h.append_eq]
      simp
  | @directive before span path rest ds h hspan ih =>
    obtain ⟨hstart, hstop, hlength⟩ := h.directiveAt_eq path
    rw [List.length_append]
    exact ih.directive hstart hstop hlength

end Reaches

end ShaderBind.Source.Include
