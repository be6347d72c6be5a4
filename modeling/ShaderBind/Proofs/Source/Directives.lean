import ShaderBind.Proofs.Source.Reaching

/-!
# The directives of a source

A scan that succeeds reports exactly the directives (`find_exact`). Each one is written as it is
reported, at its offsets and in its line, outside of comments; they follow one another without
overlap; and none is missing: wherever a number sign and the word `include` stand outside of comments
and of the other spans, a directive is reported.

All of this is kept by each step of the scan and holds at its last stop, the end of the source.
-/

namespace ShaderBind.Source.Include

/-- A text begins like a directive: a number sign, blanks, and the word `include`, which no character
of a name goes on with. -/
def Introduces (s : List Char) : Prop :=
  ∃ blanks after, (∀ c ∈ blanks, Text.isBlank c = true) ∧
    s = '#' :: (blanks ++ "include".toList ++ after) ∧
    ∀ c ∈ after.head?, Text.isNameChar c = false

theorem introduces_iff {s : List Char} :
    Introduces s ↔ ∃ word rest, s = '#' :: (word ++ rest) ∧
      keyword? (word ++ rest) = some (word, rest) := by
  constructor
  · rintro ⟨blanks, after, hblanks, rfl, hafter⟩
    exact ⟨_, after, rfl, keyword?_eq_some_iff.2 ⟨blanks, hblanks, rfl, rfl, hafter⟩⟩
  · rintro ⟨word, rest, rfl, hword⟩
    obtain ⟨blanks, hblanks, rfl, -, hrest⟩ := keyword?_eq_some_iff.1 hword
    exact ⟨blanks, rest, hblanks, rfl, hrest⟩

/-- A directive is written in the source where it is reported, and not in a comment. -/
def Reported (source : List Char) (ds : List Directive) (d : Directive) : Prop :=
  ∃ before span after, source = before ++ span ++ after ∧ Spelled span d.path.toList ∧
    d.start = Text.bytes before ∧ d.stop = Text.bytes (before ++ span) ∧
    d.line = 1 + Text.newlines before ∧ ¬ InComment source ds before.length

/-- The directives are those of the source. -/
structure Exact (source : List Char) (ds : List Directive) : Prop where
  reported : ∀ d ∈ ds, Reported source ds d
  bounds : ∀ d ∈ ds, d.start < d.stop ∧ d.stop ≤ Text.bytes source
  ordered : ds.Pairwise fun d e => d.stop ≤ e.start
  complete : ∀ n, Introduces (source.drop n) → ¬ InComment source ds n →
    (∀ d ∈ ds, ¬ (d.start < byteAt source n ∧ byteAt source n < d.stop)) →
    ∃ d ∈ ds, d.start = byteAt source n

theorem Reported.start_lt {source : List Char} {ds : List Directive} {d : Directive}
    (h : Reported source ds d) : d.start < d.stop ∧ d.stop ≤ Text.bytes source := by
  obtain ⟨before, span, after, rfl, hspan, hstart, hstop, -⟩ := h
  obtain ⟨tail, rfl⟩ := hspan.exists_cons
  have hpos := Text.bytes_pos (List.cons_ne_nil '#' tail)
  rw [hstart, hstop, Text.bytes_append, Text.bytes_append, Text.bytes_append]
  omega

/-- Directives behind a directive do not change its report. -/
theorem Reported.append {source : List Char} {ds ds' : List Directive} {d : Directive}
    (h : Reported source ds d) (hds' : ∀ e ∈ ds', d.stop ≤ e.start) :
    Reported source (ds ++ ds') d := by
  have hlt := h.start_lt.1
  obtain ⟨before, span, after, hsource, hspan, hstart, hstop, hline, hout⟩ := h
  refine ⟨before, span, after, hsource, hspan, hstart, hstop, hline, ?_⟩
  have hbyte : byteAt source before.length = d.start := by
    rw [hsource, List.append_assoc, byteAt_append, hstart]
  rwa [inComment_append_iff fun e he => by rw [hbyte]; exact hlt.trans_le (hds' e he)]

namespace Reaches

variable {source before rest : List Char} {ds : List Directive}

theorem stop_le (h : Reaches source before rest ds) : ∀ d ∈ ds, d.stop ≤ Text.bytes before := by
  rw [← h.byteAt_length]
  exact h.level.stop_le

/-- What stands in front of a stop stands in front of the directive that is read there. -/
theorem byteAt_lt_start {span path : List Char} (h : Reaches source before (span ++ rest) ds)
    {n : Nat} (hn : n < before.length) :
    ∀ e ∈ [directiveAt before span path], byteAt source n < e.start := by
  intro e he
  rw [List.mem_singleton.1 he, (h.directiveAt_eq path).1]
  exact byteAt_lt hn (hn.trans_le h.level.le_length)

/-- The scan does not take a directive from a comment. -/
theorem reported_directiveAt {span path : List Char} (h : Reaches source before (span ++ rest) ds)
    (hspan : Spelled span path) :
    Reported source (ds ++ [directiveAt before span path]) (directiveAt before span path) := by
  have hpath : Spelled span (directiveAt before span path).path.toList := by
    rwa [directiveAt, String.toList_ofList]
  refine ⟨before, span, rest, by rw [← h.append_eq, List.append_assoc], hpath, rfl, rfl, rfl, ?_⟩
  rintro ⟨m, hm, hopens, hend⟩
  rcases hm.eq_or_lt with rfl | hm
  · have hsome := (opens_iff.1 hopens).1
    rw [h.drop_length, hspan.comment?_eq] at hsome
    cases hsome
  · rw [opens_append_iff (h.byteAt_lt_start hm)] at hopens
    exact absurd (h.level.closed m hm hopens) (Nat.not_le.2 hend)

theorem reported (h : Reaches source before rest ds) : ∀ d ∈ ds, Reported source ds d := by
  induction h with
  | start => exact fun _ hd => absurd hd List.not_mem_nil
  | pass _ _ ih => exact ih
  | directive h hspan ih =>
    intro d hd
    rcases List.mem_append.1 hd with hd | hd
    · refine (ih d hd).append fun e he => ?_
      rw [List.mem_singleton.1 he]
      exact h.stop_le d hd
    · rw [List.mem_singleton.1 hd]
      exact h.reported_directiveAt hspan

theorem ordered (h : Reaches source before rest ds) : ds.Pairwise fun d e => d.stop ≤ e.start := by
  induction h with
  | start => exact .nil
  | pass _ _ ih => exact ih
  | directive h _ ih =>
    refine List.pairwise_append.2 ⟨ih, List.pairwise_singleton _ _, fun d hd e he => ?_⟩
    rw [List.mem_singleton.1 he]
    exact h.stop_le d hd

/-- What begins like a directive in front of a stop belongs to a comment or to a directive. -/
theorem covered (h : Reaches source before rest ds) {n : Nat} (hn : n < before.length)
    (hbegins : Introduces (source.drop n)) :
    InComment source ds n ∨ ∃ d ∈ ds, d.start ≤ byteAt source n ∧ byteAt source n < d.stop := by
  induction h with
  | start => exact absurd hn (Nat.not_lt_zero n)
  | @pass before s rest ds h hs ih =>
    rcases Nat.lt_or_ge n before.length with hlt | hge
    · exact ih hlt
    rcases hs.comment?_eq with hcomment | ⟨c, rfl, -, hhash⟩
    · rw [← h.drop_length] at hcomment
      refine .inl ⟨before.length, hge, h.level.opens hcomment, ?_⟩
      rwa [commentEnd, hcomment, Option.getD_some, ← List.length_append]
    · -- a number sign that is passed over alone has no keyword behind it
      obtain rfl : n = before.length := by
        rw [List.length_append, List.length_singleton] at hn
        omega
      obtain ⟨word, tail, htext, hword⟩ := introduces_iff.1 hbegins
      rw [h.drop_length] at htext
      cases htext
      cases (hhash rfl).symm.trans hword
  | @directive before span path rest ds h hspan ih =>
    obtain ⟨hstart, hstop, hlength⟩ := h.directiveAt_eq path
    rcases Nat.lt_or_ge n before.length with hlt | hge
    · refine (ih hlt).imp (inComment_append_iff (h.byteAt_lt_start hlt)).2 ?_
      rintro ⟨d, hd, hin⟩
      exact ⟨d, List.mem_append_left _ hd, hin⟩
    · refine .inr ⟨_, List.mem_append_right _ (List.mem_singleton_self _), ?_, ?_⟩
      · rw [hstart]
        exact byteAt_le hge
      · rw [hstop, ← List.length_append]
        exact byteAt_lt hn (by rw [List.length_append] at hn; omega)

/-- At the end of the source all its directives are found. -/
theorem exact_of_end (h : Reaches source source rest ds) : Exact source ds where
  reported := h.reported
  bounds := fun d hd => (h.reported d hd).start_lt
  ordered := h.ordered
  complete := by
    intro n hbegins hout hinside
    have hn : n < source.length := by
      by_contra hn
      obtain ⟨blanks, after, -, htext, -⟩ := hbegins
      rw [List.drop_of_length_le (Nat.not_lt.1 hn)] at htext
      cases htext
    obtain ⟨d, hd, hstart, hstop⟩ := (h.covered hn hbegins).resolve_left hout
    refine ⟨d, hd, hstart.antisymm ?_⟩
    by_contra hlt
    exact hinside d hd ⟨Nat.not_le.1 hlt, hstop⟩

end Reaches

theorem Cuts.directives_prepend (s : List Char) (a : Cuts) :
    (a.prepend s).cuts.map Cut.directive = a.cuts.map Cut.directive := by
  rcases a with ⟨_ | ⟨cut, cuts⟩, rest⟩ <;> rfl

/-- A scan that succeeds comes to the end of the source. -/
theorem Scanned.reaches {source before s : List Char} {p : Place} {a : Cuts} {ds : List Directive}
    (h : Scanned s p a) (hreach : Reaches source before s ds) (hp : p = Place.after {} before) :
    Reaches source source [] (ds ++ a.cuts.map Cut.directive) := by
  induction h generalizing before ds with
  | done =>
    have hend : before = source := by simpa using hreach.append_eq
    rw [hend] at hreach
    simpa using hreach
  | pass hs _ ih =>
    rw [Cuts.directives_prepend]
    exact ih (.pass hreach hs) (by rw [hp, Place.after_append])
  | @directive span path rest p a hspan _ ih =>
    have hend := ih (.directive hreach hspan) (by rw [hp, Place.after_append])
    rw [List.append_assoc] at hend
    rwa [Cuts.cons, List.map_cons, hp, directive_at]

/-- A scan that succeeds finds exactly the directives of the source. -/
theorem find_exact (source : String) (ds : List Directive) (h : find source = .ok ds) :
    Exact source.toList ds := by
  obtain ⟨a, hscan, hds⟩ := bind_eq_ok_iff.1 h
  obtain rfl := pure_eq_ok_iff.1 hds
  exact ((scanned_of_scanFrom hscan).reaches .start rfl).exact_of_end

/-- Signs in a row, comments that look like directives and paths that look like comments. -/
theorem find_exact_nested :
    let source := "// #include \"a\"\n##\tinclude <b//c>/*/ #include \"d\" */ #includes /**/"
    find source = .ok [⟨"b//c", 17, 33, 2⟩] ∧ Exact source.toList [⟨"b//c", 17, 33, 2⟩] := by
  intro source
  have hscan : (find source).toOption.map id = some [⟨"b//c", 17, 33, 2⟩] := by decide +kernel
  obtain ⟨_, hfind, rfl⟩ := exists_ok_of_map_toOption hscan
  exact ⟨hfind, find_exact source _ hfind⟩

end ShaderBind.Source.Include
