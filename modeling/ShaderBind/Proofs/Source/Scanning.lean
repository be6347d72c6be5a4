import ShaderBind.Proofs.Outcome
import ShaderBind.Proofs.Text.Border
import ShaderBind.Source.Include

/-!
# How the scan goes through a text

The scan takes a text step by step: it passes over a comment or a single character (`Passed`), or it
reads a directive (`Spelled`), and goes on behind. `Scanned` puts the steps together, and a scan
that succeeds is one (`scanned_of_scanFrom`). From it follow the parts of a scanned text: together
they are the text (`Scanned.source_eq`), each directive is reported at the line it stands in
(`Scanned.located`), and the texts between the directives have none (`Scanned.clean`).

Two texts in a row are scanned one after the other, unless something can reach from one into the
other: a comment, a word, a slash. Nothing can where a line ends between them, up to blanks
(`Separated`, `Scanned.append`).
-/

namespace ShaderBind.Source.Include

/-! ## The words of a directive -/

/-- The word `include` is read exactly where it is written, with blanks before it and no character
of a name behind it. -/
theorem keyword?_eq_some_iff {s word rest : List Char} :
    keyword? s = some (word, rest) ↔
      ∃ blanks, (∀ c ∈ blanks, Text.isBlank c = true) ∧ word = blanks ++ "include".toList ∧
        s = word ++ rest ∧ ∀ c ∈ rest.head?, Text.isNameChar c = false := by
  constructor
  · intro h
    have hs := keyword?_append h
    unfold keyword? at h
    simp only at h
    split at h
    · split at h
      · cases h
      next hhead =>
        cases h
        refine ⟨_, fun c hc => List.mem_takeWhile_imp hc, rfl, hs, fun c hc => ?_⟩
        rw [Option.mem_def.1 hc] at hhead
        simpa using hhead
    · cases h
  · rintro ⟨blanks, hblanks, rfl, rfl, hhead⟩
    have hi : ∀ d ∈ ("include".toList ++ rest).head?, Text.isBlank d = false := by
      rintro d ⟨⟩
      rfl
    rw [List.append_assoc]
    unfold keyword?
    simp only [Text.takeWhile_append_of_head hblanks hi, Text.dropWhile_append_of_head hblanks hi,
      Text.dropPrefix?_append]
    rw [if_neg]
    cases hr : rest.head? with
    | none => simp
    | some c => simp [hhead c hr]

/-- A path goes up to the first closing mark, and no line ends inside it. -/
theorem closePath_eq_ok_iff {closing : Char} {fault : IncludeFault} {s path rest : List Char}
    {p : Place} :
    closePath closing fault s p = .ok (path, rest) ↔
      s = path ++ closing :: rest ∧ ∀ c ∈ path, (c != closing && c != '\n') = true := by
  constructor
  · intro h
    refine ⟨closePath_append h, ?_⟩
    unfold closePath at h
    simp only at h
    split at h
    · split at h
      · cases h
        exact fun c hc => List.mem_takeWhile_imp (p := fun c => c != closing && c != '\n') hc
      · cases h
    · cases h
  · rintro ⟨rfl, hpath⟩
    have hclose : ∀ d ∈ (closing :: rest).head?, (d != closing && d != '\n') = false := by
      rintro d ⟨⟩
      simp
    unfold closePath
    simp only [Text.takeWhile_append_of_head hpath hclose,
      Text.dropWhile_append_of_head hpath hclose, if_true]

/-- What may stand around a path. -/
def delimiters : List (Char × Char) := [('"', '"'), ('<', '>')]

/-- A path is read exactly where it is written between its delimiters. -/
theorem path?_eq_ok_iff {s span path rest : List Char} {p : Place} :
    path? s p = .ok (span, path, rest) ↔
      ∃ blanks opening closing, (∀ c ∈ blanks, Text.isBlank c = true) ∧
        (opening, closing) ∈ delimiters ∧ (∀ c ∈ path, (c != closing && c != '\n') = true) ∧
        span = blanks ++ opening :: path ++ [closing] ∧ s = span ++ rest := by
  constructor
  · intro h
    have hs := path?_append h
    unfold path? at h
    simp only at h
    split at h
    · obtain ⟨⟨path', rest'⟩, hclose, heq⟩ := bind_eq_ok_iff.1 h
      cases heq
      exact ⟨_, '"', '"', fun c hc => List.mem_takeWhile_imp hc, by simp [delimiters],
        (closePath_eq_ok_iff.1 hclose).2, rfl, hs⟩
    · obtain ⟨⟨path', rest'⟩, hclose, heq⟩ := bind_eq_ok_iff.1 h
      cases heq
      exact ⟨_, '<', '>', fun c hc => List.mem_takeWhile_imp hc, by simp [delimiters],
        (closePath_eq_ok_iff.1 hclose).2, rfl, hs⟩
    · cases h
  · rintro ⟨blanks, opening, closing, hblanks, hdelims, hpath, rfl, rfl⟩
    have hopen : ∀ d ∈ (opening :: (path ++ closing :: rest)).head?, Text.isBlank d = false := by
      rintro d ⟨⟩
      rcases List.mem_pair.1 hdelims with h | h <;> cases h <;> rfl
    have hs : blanks ++ opening :: path ++ [closing] ++ rest =
        blanks ++ opening :: (path ++ closing :: rest) := by simp
    rw [hs]
    unfold path?
    simp only [Text.takeWhile_append_of_head hblanks hopen,
      Text.dropWhile_append_of_head hblanks hopen]
    rcases List.mem_pair.1 hdelims with h | h <;> cases h
    · exact bind_eq_ok_iff.2 ⟨_, closePath_eq_ok_iff.2 ⟨rfl, hpath⟩, rfl⟩
    · exact bind_eq_ok_iff.2 ⟨_, closePath_eq_ok_iff.2 ⟨rfl, hpath⟩, rfl⟩

/-- A directive as it may be written: its characters and the path in it. -/
def Spelled (span path : List Char) : Prop :=
  ∃ before between opening closing, (∀ c ∈ before, Text.isBlank c = true) ∧
    (∀ c ∈ between, Text.isBlank c = true) ∧ (opening, closing) ∈ delimiters ∧
    (∀ c ∈ path, (c != closing && c != '\n') = true) ∧
    span = '#' :: (before ++ "include".toList) ++ (between ++ opening :: path ++ [closing])

/-- A directive begins with a number sign. -/
theorem Spelled.exists_cons {span path : List Char} (h : Spelled span path) :
    ∃ tail, span = '#' :: tail := by
  obtain ⟨before, between, opening, closing, -, -, -, -, rfl⟩ := h
  exact ⟨_, rfl⟩

/-- A directive stands in one line. -/
theorem Spelled.newline_not_mem {span path : List Char} (h : Spelled span path) : '\n' ∉ span := by
  obtain ⟨before, between, opening, closing, hbefore, hbetween, hdelims, hpath, rfl⟩ := h
  have hopening : opening ≠ '\n' ∧ closing ≠ '\n' := by
    rcases List.mem_pair.1 hdelims with h | h <;> cases h <;> decide
  intro hmem
  simp only [List.mem_append, List.mem_cons, List.not_mem_nil, or_false] at hmem
  rcases hmem with (hmem | hmem | hmem) | (hmem | hmem | hmem) | hmem
  · cases hmem
  · exact absurd (hbefore _ hmem) (by decide)
  · exact absurd hmem (by decide)
  · exact absurd (hbetween _ hmem) (by decide)
  · exact hopening.1 hmem.symm
  · exact absurd (hpath _ hmem) (by simp)
  · exact hopening.2 hmem.symm

/-- What a reader takes for a directive is one. -/
theorem spelled_of_reads {s word tail path rest rest' : List Char} {p : Place}
    (hword : keyword? s = some (word, rest)) (hpath : path? rest p = .ok (tail, path, rest')) :
    Spelled ('#' :: word ++ tail) path ∧ s = word ++ tail ++ rest' := by
  obtain ⟨before, hbefore, rfl, rfl, -⟩ := keyword?_eq_some_iff.1 hword
  obtain ⟨between, opening, closing, hbetween, hdelims, hin, rfl, rfl⟩ := path?_eq_ok_iff.1 hpath
  exact ⟨⟨before, between, opening, closing, hbefore, hbetween, hdelims, hin, rfl⟩, by simp⟩

/-! ## Places and cuts -/

theorem Place.after_append (p : Place) (s t : List Char) :
    p.after (s ++ t) = (p.after s).after t :=
  List.foldl_append

/-- The line goes up with each line break that is passed. -/
theorem Place.line_after (p : Place) (s : List Char) :
    (p.after s).line = p.line + Text.newlines s := by
  induction s generalizing p with
  | nil => rfl
  | cons c s ih =>
    have hnext : (p.next c).line = p.line + Text.newlines [c] := by
      unfold Place.next
      split
      next hc => simp [Text.newlines, hc]
      next hc => simp [Text.newlines, hc]
    have hcons : Text.newlines (c :: s) = Text.newlines [c] + Text.newlines s :=
      Text.newlines_append [c] s
    change ((p.next c).after s).line = _
    rw [ih, hnext, hcons, Nat.add_assoc]

theorem Cuts.prepend_nil : prepend [] = id := by
  funext a
  rcases a with ⟨_ | ⟨cut, cuts⟩, rest⟩ <;> rfl

theorem Cuts.prepend_comp (s t : List Char) : prepend s ∘ prepend t = prepend (s ++ t) := by
  funext a
  rcases a with ⟨_ | ⟨cut, cuts⟩, rest⟩ <;> simp [prepend]

/-- A directive in front of a text that is cut. -/
def Cuts.cons (cut : Cut) (a : Cuts) : Cuts :=
  { a with cuts := cut :: a.cuts }

/-- The cuts of two texts in a row: what is left of the first goes before the next directive. -/
def Cuts.append (a b : Cuts) : Cuts :=
  { b.prepend a.rest with cuts := a.cuts ++ (b.prepend a.rest).cuts }

/-- Behind a text that is used up stands the next one alone. -/
theorem Cuts.append_empty : append ⟨[], []⟩ = id :=
  prepend_nil

theorem Cuts.append_prepend (s : List Char) (a : Cuts) :
    append (a.prepend s) = prepend s ∘ append a := by
  rcases a with ⟨_ | ⟨cut, cuts⟩, rest⟩
  · exact (prepend_comp s rest).symm
  · funext b
    simp [append, prepend]

theorem Cuts.append_cons (cut : Cut) (a : Cuts) : append (a.cons cut) = cons cut ∘ append a :=
  rfl

/-- The texts around the directives. -/
def Cuts.texts (a : Cuts) : List (List Char) :=
  a.cuts.map Cut.before ++ [a.rest]

/-- The text in front of the first directive. -/
def Cuts.lead (a : Cuts) : List Char :=
  match a.cuts with
  | [] => a.rest
  | cut :: _ => cut.before

/-- Text in front of the first directive stands in front of the source. -/
theorem Cuts.source_prepend (s : List Char) (a : Cuts) : (a.prepend s).source = s ++ a.source := by
  rcases a with ⟨_ | ⟨cut, cuts⟩, rest⟩ <;> simp [prepend, source]

/-- The source of cuts is the text and the directives in turn. -/
theorem Cuts.source_cons (cut : Cut) (a : Cuts) :
    (a.cons cut).source = cut.before ++ cut.span ++ a.source := by
  simp [cons, source]

theorem Cuts.texts_prepend (s : List Char) (a : Cuts) :
    (a.prepend s).texts = (s ++ a.lead) :: a.texts.tail := by
  rcases a with ⟨_ | ⟨cut, cuts⟩, rest⟩ <;> rfl

theorem Cuts.texts_eq (a : Cuts) : a.texts = a.lead :: a.texts.tail := by
  rcases a with ⟨_ | ⟨cut, cuts⟩, rest⟩ <;> rfl

/-! ## Steps of the scan -/

/-- A text that the scan passes over in one step, when `rest` stands behind it. -/
inductive Passed (rest : List Char) : List Char → Prop
  | lineComment {line : List Char} (hline : '\n' ∉ line) (hrest : ∀ c ∈ rest.head?, c = '\n') :
      Passed rest ('/' :: '/' :: line)
  | blockComment {body : List Char} (h : Text.closeComment (body ++ rest) = some (body, rest)) :
      Passed rest ('/' :: '*' :: body)
  | hash (h : keyword? rest = none) : Passed rest ['#']
  | other {c : Char} (hhash : c ≠ '#')
      (hslash : c = '/' → ∀ d ∈ rest.head?, d ≠ '/' ∧ d ≠ '*') : Passed rest [c]

/-- A line comment is passed over with the rest of its line. -/
theorem passed_restOfLine (s : List Char) :
    Passed (Text.restOfLine s).2 ('/' :: '/' :: (Text.restOfLine s).1) :=
  .lineComment (Text.newline_not_mem_restOfLine s) (Text.head?_restOfLine s)

/-- A character that begins neither a comment nor a directive is passed over by itself. -/
theorem passed_singleton {c : Char} {rest : List Char} (hhash : c ≠ '#')
    (hline : ∀ s, c = '/' → rest = '/' :: s → False)
    (hblock : ∀ s, c = '/' → rest = '*' :: s → False) : Passed rest [c] := by
  refine .other hhash ?_
  rintro rfl d hd
  obtain ⟨s, rfl⟩ := List.head?_eq_some_iff.1 hd
  exact ⟨fun hd => hline s rfl (by rw [hd]), fun hd => hblock s rfl (by rw [hd])⟩

/-- The cut that a directive makes at a place. -/
def Cut.at (span path : List Char) (p : Place) : Cut :=
  ⟨[], span, ⟨String.ofList path, p.offset, (p.after span).offset, p.line⟩⟩

/-- The steps of a scan that comes to the end of the text. -/
inductive Scanned : List Char → Place → Cuts → Prop
  | done {p : Place} : Scanned [] p ⟨[], []⟩
  | pass {s rest : List Char} {p : Place} {a : Cuts} (hs : Passed rest s)
      (hrest : Scanned rest (p.after s) a) : Scanned (s ++ rest) p (a.prepend s)
  | directive {span path rest : List Char} {p : Place} {a : Cuts} (hspan : Spelled span path)
      (hrest : Scanned rest (p.after span) a) :
      Scanned (span ++ rest) p (a.cons (.at span path p))

/-- What holds no directive is passed, whatever stands behind it. -/
theorem scanFrom_passed {s rest : List Char} (h : Passed rest s) (p : Place) :
    scanFrom (s ++ rest) p = (scanFrom rest (p.after s)).map (Cuts.prepend s) := by
  cases h with
  | lineComment hline hrest =>
    rw [List.cons_append, List.cons_append, scanFrom]
    simp only [Text.restOfLine_of_head hline hrest]
    rfl
  | blockComment h =>
    rw [List.cons_append, List.cons_append, scanFrom]
    split
    next h' =>
      cases h.symm.trans h'
      rfl
    next h' => cases h.symm.trans h'
  | hash h =>
    rw [List.singleton_append, scanFrom]
    split
    next h' => cases h.symm.trans h'
    next => rfl
  | other hhash hslash =>
    rw [List.singleton_append, scanFrom.eq_def]
    split
    next h => cases h
    next h =>
      cases h
      exact absurd rfl (hslash rfl _ rfl).1
    next h =>
      cases h
      exact absurd rfl (hslash rfl _ rfl).2
    next h =>
      cases h
      exact absurd rfl hhash
    next h =>
      cases h
      rfl

/-- A directive is read as one, whatever stands behind it. -/
theorem Spelled.reads {span path : List Char} (h : Spelled span path) :
    ∃ word tail, span = '#' :: word ++ tail ∧ ∀ rest p,
      keyword? (word ++ tail ++ rest) = some (word, tail ++ rest) ∧
        path? (tail ++ rest) p = .ok (tail, path, rest) := by
  obtain ⟨before, between, opening, closing, hbefore, hbetween, hdelims, hpath, rfl⟩ := h
  refine ⟨_, _, rfl, fun rest p => ⟨?_, ?_⟩⟩
  · refine keyword?_eq_some_iff.2 ⟨before, hbefore, rfl, by simp, fun c hc => ?_⟩
    cases between with
    | nil =>
      cases hc
      rcases List.mem_pair.1 hdelims with h | h <;> cases h <;> rfl
    | cons b between =>
      cases hc
      have hc : c = ' ' ∨ c = '\t' := by
        simpa [Text.isBlank] using hbetween c List.mem_cons_self
      rcases hc with rfl | rfl <;> rfl
  · exact path?_eq_ok_iff.2
      ⟨between, opening, closing, hbetween, hdelims, hpath, rfl, rfl⟩

/-- A directive is cut out where it stands. -/
theorem scanFrom_spelled {span path : List Char} (h : Spelled span path) (rest : List Char)
    (p : Place) :
    scanFrom (span ++ rest) p =
      (scanFrom rest (p.after span)).map (Cuts.cons (.at span path p)) := by
  obtain ⟨word, tail, rfl, hreads⟩ := h.reads
  obtain ⟨hword, hpath⟩ := hreads rest (p.after ('#' :: word))
  rw [List.cons_append, List.cons_append, scanFrom]
  split
  next h =>
    cases hword.symm.trans h
    split
    next h' => cases hpath.symm.trans h'
    next h' =>
      cases hpath.symm.trans h'
      rfl
  next h => cases hword.symm.trans h

/-- A scan that succeeds goes through the text step by step. -/
theorem scanned_of_scanFrom {s : List Char} {p : Place} {a : Cuts} (h : scanFrom s p = .ok a) :
    Scanned s p a := by
  fun_induction scanFrom s p generalizing a with
  | case1 p =>
    cases h
    exact .done
  | case2 p rest comment =>
    rename_i ih
    obtain ⟨b, hb, heq⟩ := bind_eq_ok_iff.1 h
    cases heq
    have hscanned := Scanned.pass (passed_restOfLine rest) (ih hb)
    rwa [List.cons_append, List.cons_append, Text.restOfLine_append] at hscanned
  | case3 p rest body rest' hclose comment =>
    rename_i ih
    obtain ⟨b, hb, heq⟩ := bind_eq_ok_iff.1 h
    cases heq
    obtain rfl := Text.closeComment_append hclose
    exact .pass (.blockComment hclose) (ih hb)
  | case4 => cases h
  | case5 => cases h
  | case6 p rest word rest' hword tail path rest'' hpath span q =>
    rename_i ih
    obtain ⟨b, hb, heq⟩ := bind_eq_ok_iff.1 h
    cases heq
    obtain ⟨hspan, rfl⟩ := spelled_of_reads hword hpath
    exact .directive hspan (ih hb)
  | case7 p rest hword ih =>
    obtain ⟨b, hb, heq⟩ := bind_eq_ok_iff.1 h
    cases heq
    exact .pass (.hash hword) (ih hb)
  | case8 p c rest hline hblock hhash ih =>
    obtain ⟨b, hb, heq⟩ := bind_eq_ok_iff.1 h
    cases heq
    exact .pass (passed_singleton hhash hline hblock) (ih hb)

theorem scanFrom_nil (p : Place) : scanFrom [] p = .ok ⟨[], []⟩ := by
  rw [scanFrom]

/-- The steps are those of the scan. -/
theorem scanFrom_eq_ok_iff {s : List Char} {p : Place} {a : Cuts} :
    scanFrom s p = .ok a ↔ Scanned s p a := by
  refine ⟨scanned_of_scanFrom, fun h => ?_⟩
  induction h with
  | done => exact scanFrom_nil _
  | pass hs _ ih =>
    rw [scanFrom_passed hs, ih]
    rfl
  | directive hspan _ ih =>
    rw [scanFrom_spelled hspan, ih]
    rfl

/-! ## What is found -/

/-- Directives of a text that begins at a line: each is reported at the line it stands in, and none
goes over the end of its line. -/
def Located : Nat → List Cut → Prop
  | _, [] => True
  | line, cut :: cuts =>
    cut.directive.line = line + Text.newlines cut.before ∧ '\n' ∉ cut.span ∧
      Located cut.directive.line cuts

/-- Text in front moves all directives down by its lines. -/
theorem located_prepend {line : Nat} {s : List Char} {a : Cuts}
    (h : Located (line + Text.newlines s) a.cuts) : Located line (a.prepend s).cuts := by
  rcases a with ⟨_ | ⟨cut, cuts⟩, rest⟩
  · trivial
  · obtain ⟨hline, hspan, hcuts⟩ := h
    refine ⟨?_, hspan, hcuts⟩
    rw [hline, Text.newlines_append, Nat.add_assoc]

namespace Scanned

variable {s : List Char} {p : Place} {a : Cuts}

/-- A scan loses nothing of its text. -/
theorem source_eq (h : Scanned s p a) : a.source = s := by
  induction h with
  | done => rfl
  | pass _ _ ih => rw [Cuts.source_prepend, ih]
  | directive _ _ ih =>
    rw [Cuts.source_cons, ih]
    rfl

/-- Each directive is found in the line that it stands in. -/
theorem located (h : Scanned s p a) : Located p.line a.cuts := by
  induction h with
  | done => trivial
  | pass _ _ ih =>
    rw [Place.line_after] at ih
    exact located_prepend ih
  | directive hspan _ ih =>
    have hline := hspan.newline_not_mem
    rw [Place.line_after, Text.newlines_eq_zero hline] at ih
    exact ⟨rfl, hline, ih⟩

/-- Each cut has the characters of a directive, with its path. -/
theorem spelled (h : Scanned s p a) :
    ∀ cut ∈ a.cuts, Spelled cut.span cut.directive.path.toList := by
  induction h with
  | done => exact fun _ hcut => absurd hcut List.not_mem_nil
  | @pass s rest p a _ _ ih =>
    rcases a with ⟨_ | ⟨cut, cuts⟩, last⟩
    · exact ih
    · exact List.forall_mem_cons.2 (List.forall_mem_cons.1 ih)
  | directive hspan _ ih =>
    refine List.forall_mem_cons.2 ⟨?_, ih⟩
    rw [Cut.at, String.toList_ofList]
    exact hspan

/-- In front of the first directive stands the lead, and behind it the directive begins. -/
theorem exists_lead_append (h : Scanned s p a) :
    ∃ t, s = a.lead ++ t ∧ ∀ c ∈ t.head?, c = '#' := by
  induction h with
  | done => exact ⟨[], rfl, by simp⟩
  | @pass s rest p a hs hrest ih =>
    obtain ⟨t, ht, hhead⟩ := ih
    refine ⟨t, ?_, hhead⟩
    rcases a with ⟨_ | ⟨cut, cuts⟩, last⟩ <;> rw [ht, ← List.append_assoc] <;> rfl
  | directive hspan _ ih =>
    obtain ⟨tail, rfl⟩ := hspan.exists_cons
    exact ⟨_, rfl, by simp⟩

end Scanned

/-! ## Texts in a row -/

/-- Behind the last newline stand only blanks. -/
def EndsBlank (s : List Char) : Prop :=
  ∀ c ∈ s.reverse.takeWhile (· != '\n'), Text.isBlank c = true

/-- Up to the first newline stand only blanks and carriage returns. -/
def StartsBlank (s : List Char) : Prop :=
  ∀ c ∈ (Text.restOfLine s).1, Text.isBlank c = true ∨ c = '\r'

instance (s : List Char) : Decidable (EndsBlank s) :=
  List.decidableBAll (fun c => Text.isBlank c = true) (s.reverse.takeWhile (· != '\n'))

instance (s : List Char) : Decidable (StartsBlank s) :=
  List.decidableBAll (fun c => Text.isBlank c = true ∨ c = '\r') (Text.restOfLine s).1

/-- Where two texts meet, one of them has nothing that the other could go on with. -/
def Separated (s t : List Char) : Prop :=
  EndsBlank s ∨ StartsBlank t

/-- Whether a line is blank so far depends on its end alone. -/
theorem EndsBlank.of_append {s t : List Char} (h : EndsBlank (s ++ t)) : EndsBlank t := by
  intro c hc
  refine h c ?_
  rw [List.reverse_append, List.takeWhile_append]
  split
  · exact List.mem_append_left _ ((List.takeWhile_sublist _).subset hc)
  · exact hc

/-- Behind a character that is no blank there is a newline. -/
theorem EndsBlank.newline_mem {c : Char} {s : List Char} (h : EndsBlank (c :: s))
    (hc : Text.isBlank c = false) : '\n' ∈ c :: s := by
  by_contra hnot
  have hall : ∀ d ∈ (c :: s).reverse, (d != '\n') = true := fun d hd =>
    Text.forall_ne_newline hnot d (List.mem_reverse.1 hd)
  have hblank := h c (by rw [List.takeWhile_eq_self_iff.2 hall]; simp)
  rw [hblank] at hc
  cases hc

theorem endsBlank_of_endsLine {s : List Char} (h : Text.endsLine s = true) : EndsBlank s := by
  have hlast : s.getLast? = some '\n' := by simpa [Text.endsLine] using h
  obtain ⟨t, rfl⟩ := List.getLast?_eq_some_iff.1 hlast
  intro c hc
  simp at hc

theorem startsBlank_newline (s : List Char) : StartsBlank ('\n' :: s) := by
  intro c hc
  simp [Text.restOfLine] at hc

/-- Of a text that a directive begins behind, the first line is blank whatever is put behind it. -/
theorem StartsBlank.append_of_hash {s t : List Char} (h : StartsBlank (s ++ '#' :: t))
    (t' : List Char) : StartsBlank (s ++ t') := by
  by_cases hline : '\n' ∈ s
  · obtain ⟨line, rest, rfl, hnot⟩ := List.eq_append_cons_of_mem hline
    have hfirst : ∀ u, (Text.restOfLine (line ++ '\n' :: rest ++ u)).1 = line := by
      intro u
      rw [List.append_assoc, Text.restOfLine_of_head hnot (by simp)]
    unfold StartsBlank at h ⊢
    rwa [hfirst] at h ⊢
  · have hall := Text.forall_ne_newline hline
    have hmem : '#' ∈ (Text.restOfLine (s ++ '#' :: t)).1 := by
      rw [Text.restOfLine, List.takeWhile_append_of_pos hall]
      simp
    rcases h _ hmem with hblank | hblank <;> cases hblank

theorem StartsBlank.head {s : List Char} (h : StartsBlank s) {c : Char} (hc : c ∈ s.head?) :
    Text.isBlank c = true ∨ c = '\r' ∨ c = '\n' := by
  obtain ⟨t, rfl⟩ := List.head?_eq_some_iff.1 hc
  by_cases hn : c = '\n'
  · exact .inr (.inr hn)
  · refine (h c ?_).imp_right .inl
    rw [Text.restOfLine, List.takeWhile_cons_of_pos (by simpa using hn)]
    exact List.mem_cons_self

/-- A blank line begins with no mark that a scan looks for. -/
theorem StartsBlank.head_ne {s : List Char} (h : StartsBlank s) :
    ∀ c ∈ s.head?, c ≠ '/' ∧ c ≠ '*' ∧ c ≠ '#' := by
  intro c hc
  rcases h.head hc with hc | rfl | rfl
  · refine ⟨?_, ?_, ?_⟩ <;> rintro rfl <;> cases hc
  · decide
  · decide

theorem Separated.of_append {s t u : List Char} (h : Separated (s ++ t) u) : Separated t u :=
  h.imp_left EndsBlank.of_append

/-- The word that begins in a text is read there, or its last letter is in the text behind. -/
theorem keyword?_of_append {s t word rest : List Char} (h : keyword? (s ++ t) = some (word, rest)) :
    (∃ rest', keyword? s = some (word, rest')) ∨
      ∃ more, 'e' ∈ more ∧ word = s ++ more ∧ t = more ++ rest := by
  obtain ⟨blanks, hblanks, hword, happend, hhead⟩ := keyword?_eq_some_iff.1 h
  rcases List.append_eq_append_iff.1 happend with ⟨more, hmore, ht⟩ | ⟨rest', hs, hrest⟩
  · by_cases hne : more = []
    · subst hne
      rw [List.append_nil] at hmore
      exact .inl ⟨[], keyword?_eq_some_iff.2 ⟨blanks, hblanks, hword, by simp [hmore], by simp⟩⟩
    · have hlast : (s ++ more).getLast? = some 'e' := by
        rw [← hmore, hword]
        simp
      rw [List.getLast?_append_of_ne_nil _ hne] at hlast
      exact .inr ⟨more, List.mem_of_getLast? hlast, hmore, ht⟩
  · refine .inl ⟨rest', keyword?_eq_some_iff.2 ⟨blanks, hblanks, hword, hs, fun c hc => ?_⟩⟩
    exact hhead c (by rw [hrest, List.head?_append, Option.mem_def.1 hc]; rfl)

/-- The word of a directive stands in one line. -/
theorem newline_not_mem_word {s word rest : List Char} (h : keyword? s = some (word, rest)) :
    '\n' ∉ word := by
  obtain ⟨blanks, hblanks, rfl, -⟩ := keyword?_eq_some_iff.1 h
  intro hmem
  rcases List.mem_append.1 hmem with hmem | hmem
  · exact absurd (hblanks _ hmem) (by decide)
  · exact absurd hmem (by decide)

/-- A text that is separated from the next one does not get the word from there. -/
theorem keyword?_append_eq_none {s t : List Char} (h : keyword? s = none)
    (hsep : Separated ('#' :: s) t) : keyword? (s ++ t) = none := by
  by_contra hsome
  obtain ⟨⟨word, rest⟩, hword⟩ := Option.ne_none_iff_exists'.1 hsome
  have hline := newline_not_mem_word hword
  rcases keyword?_of_append hword with ⟨rest', hs⟩ | ⟨more, he, rfl, rfl⟩
  · cases h.symm.trans hs
  · rcases hsep with hend | hstart
    · have hs : '\n' ∈ s := by simpa using hend.newline_mem rfl
      exact hline (List.mem_append_left _ hs)
    · have hmore : ∀ c ∈ more, (c != '\n') = true :=
        Text.forall_ne_newline fun h => hline (List.mem_append_right _ h)
      have hmem : 'e' ∈ (Text.restOfLine (more ++ rest)).1 := by
        rw [Text.restOfLine, List.takeWhile_append_of_pos hmore]
        exact List.mem_append_left _ he
      rcases hstart _ hmem with h | h <;> cases h

/-- A step that stays inside the first of two separated texts is the same in both together. Only a
line comment can go on, over the blanks that the second text begins with. -/
theorem Passed.append {s rest t : List Char} (h : Passed rest s) (hsep : Separated (s ++ rest) t) :
    Passed (rest ++ t) s ∨ rest = [] ∧ StartsBlank t ∧
      Passed (Text.restOfLine t).2 (s ++ (Text.restOfLine t).1) := by
  cases h with
  | @lineComment line hline hrest =>
    cases rest with
    | cons c rest =>
      exact .inl (.lineComment hline (by simpa using hrest))
    | nil =>
      have hstart : StartsBlank t := by
        refine hsep.resolve_left fun hend => hline ?_
        simpa using hend.newline_mem rfl
      have hlines : '\n' ∉ line ++ (Text.restOfLine t).1 := by
        rw [List.mem_append, not_or]
        exact ⟨hline, Text.newline_not_mem_restOfLine t⟩
      exact .inr ⟨rfl, hstart, .lineComment hlines (Text.head?_restOfLine t)⟩
  | blockComment h =>
    exact .inl (.blockComment (Text.closeComment_append_right h (rest ++ t)))
  | hash h => exact .inl (.hash (keyword?_append_eq_none h hsep))
  | @other c hhash hslash =>
    refine .inl (.other hhash ?_)
    rintro rfl d hd
    cases rest with
    | cons e rest => exact hslash rfl d (by simpa using hd)
    | nil =>
      have hstart : StartsBlank t := by
        refine hsep.resolve_left fun hend => ?_
        simpa using hend.newline_mem rfl
      obtain ⟨hne, hne', -⟩ := hstart.head_ne d hd
      exact ⟨hne, hne'⟩

/-- Text without slashes and number signs is passed over. -/
theorem scanFrom_plain {s : List Char} (hs : ∀ c ∈ s, c ≠ '/' ∧ c ≠ '#') (t : List Char)
    (p : Place) : scanFrom (s ++ t) p = (scanFrom t (p.after s)).map (Cuts.prepend s) := by
  induction s generalizing p with
  | nil =>
    rw [Cuts.prepend_nil, Except.map_id]
    rfl
  | cons c s ih =>
    obtain ⟨⟨hslash, hhash⟩, hs⟩ := List.forall_mem_cons.1 hs
    have hc : Passed (s ++ t) [c] := .other hhash fun h => absurd h hslash
    have hstep := scanFrom_passed hc p
    rw [ih hs, map_map_except, Cuts.prepend_comp] at hstep
    exact hstep

/-- A blank line is passed as a whole. -/
theorem StartsBlank.scanFrom_eq {t : List Char} (h : StartsBlank t) (p : Place) :
    scanFrom t p = (scanFrom (Text.restOfLine t).2 (p.after (Text.restOfLine t).1)).map
      (Cuts.prepend (Text.restOfLine t).1) := by
  have hplain : ∀ c ∈ (Text.restOfLine t).1, c ≠ '/' ∧ c ≠ '#' := by
    intro c hc
    rcases h c hc with hc | rfl
    · constructor <;> rintro rfl <;> cases hc
    · decide
  have := scanFrom_plain hplain (Text.restOfLine t).2 p
  rwa [Text.restOfLine_append] at this

/-- Two separated texts are scanned one after the other. -/
theorem Scanned.append {s t : List Char} {p : Place} {a : Cuts} (h : Scanned s p a)
    (hsep : Separated s t) : scanFrom (s ++ t) p = (scanFrom t (p.after s)).map a.append := by
  induction h with
  | done =>
    rw [Cuts.append_empty, Except.map_id]
    rfl
  | @pass s rest p a hs hrest ih =>
    rw [Cuts.append_prepend, ← map_map_except, List.append_assoc]
    rcases hs.append hsep with hs | ⟨rfl, hstart, hs⟩
    · rw [scanFrom_passed hs, ih hsep.of_append, Place.after_append]
    · -- the blanks of the second text belong to the comment that the first one ends in
      cases (scanFrom_eq_ok_iff.2 hrest).symm.trans (scanFrom_nil _)
      have hboth := scanFrom_passed hs p
      rw [List.append_assoc, Text.restOfLine_append, Place.after_append] at hboth
      rw [List.nil_append, hboth, List.append_nil, hstart.scanFrom_eq, Cuts.append_empty,
        Except.map_id, id, map_map_except, Cuts.prepend_comp]
  | directive hspan _ ih =>
    rw [Cuts.append_cons, ← map_map_except, List.append_assoc, scanFrom_spelled hspan,
      ih hsep.of_append, Place.after_append]

/-! ## Texts without directives -/

/-- The scan finds no directive in the text, wherever it stands. -/
def Clean (s : List Char) : Prop :=
  ∀ p, scanFrom s p = .ok ⟨[], s⟩

/-- Two texts without directives make one, if their border makes none. -/
theorem Clean.append {s t : List Char} (hs : Clean s) (ht : Clean t) (hsep : Separated s t) :
    Clean (s ++ t) := by
  intro p
  rw [(scanFrom_eq_ok_iff.1 (hs p)).append hsep, ht]
  rfl

theorem clean_nil : Clean [] :=
  scanFrom_nil

/-- What is passed adds no directive to a text without any. -/
theorem Passed.clean_append {s t : List Char} (hs : Passed t s) (ht : Clean t) :
    Clean (s ++ t) := by
  intro p
  rw [scanFrom_passed hs, ht]
  rfl

/-- A text without slashes and number signs has no directive. -/
theorem clean_of_plain {s : List Char} (h : ∀ c ∈ s, c ≠ '/' ∧ c ≠ '#') : Clean s := by
  intro p
  have := scanFrom_plain h [] p
  rw [List.append_nil, clean_nil] at this
  simpa [Except.map, Cuts.prepend] using this

/-- A step in front of a text is a step in front of its beginning, unless that ends in a name. -/
theorem Passed.of_append {s lead t : List Char} (h : Passed (lead ++ t) s)
    (ht : ∀ c ∈ t.head?, Text.isNameChar c = false) : Passed lead s := by
  have hhead : ∀ c ∈ lead.head?, c ∈ (lead ++ t).head? := by
    intro c hc
    rw [List.head?_append, Option.mem_def.1 hc]
    rfl
  cases h with
  | lineComment hline hrest => exact .lineComment hline fun c hc => hrest c (hhead c hc)
  | blockComment h => exact .blockComment (Text.closeComment_append_right h lead)
  | hash h =>
    refine .hash ?_
    by_contra hsome
    obtain ⟨⟨word, rest⟩, hword⟩ := Option.ne_none_iff_exists'.1 hsome
    obtain ⟨blanks, hblanks, hw, rfl, hrest⟩ := keyword?_eq_some_iff.1 hword
    have hlong : keyword? (word ++ rest ++ t) = some (word, rest ++ t) := by
      refine keyword?_eq_some_iff.2 ⟨blanks, hblanks, hw, List.append_assoc .., fun c hc => ?_⟩
      cases rest with
      | nil => exact ht c hc
      | cons d rest => exact hrest c hc
    cases h.symm.trans hlong
  | other hhash hslash => exact .other hhash fun hc d hd => hslash hc d (hhead d hd)

/-- The texts around the directives have none. -/
theorem Scanned.clean {s : List Char} {p : Place} {a : Cuts} (h : Scanned s p a) :
    ∀ t ∈ a.texts, Clean t := by
  induction h with
  | done =>
    intro t ht
    rw [List.mem_singleton.1 ht]
    exact clean_nil
  | @pass s rest p a hs hrest ih =>
    obtain ⟨t, rfl, ht⟩ := hrest.exists_lead_append
    rw [a.texts_eq] at ih
    rw [Cuts.texts_prepend]
    obtain ⟨hlead, htail⟩ := List.forall_mem_cons.1 ih
    have hname : ∀ c ∈ t.head?, Text.isNameChar c = false := by
      intro c hc
      rw [ht c hc]
      rfl
    exact List.forall_mem_cons.2 ⟨(hs.of_append hname).clean_append hlead, htail⟩
  | directive _ _ ih => exact List.forall_mem_cons.2 ⟨clean_nil, ih⟩

end ShaderBind.Source.Include
