import ShaderBind.Proofs.Source.Directives

/-!
# Where a scan fails

A scan that fails does so at a comment that is never closed or at a directive that does not go on,
and reports a line and a byte of that line, both counted from one (`find_error`). For a directive it
is the place of the first character with which no directive could go on, or the end of the source
(`Stuck`).

For a comment it is the place where the comment opens, if no line ends in it. But the line is counted
on while the end of the comment is looked for, so that the place lies in front of the line reached as
soon as a line break was passed, and the column cannot be computed. The last character of the source
is not looked at and does no harm.
-/

namespace ShaderBind.Source.Include

/-! ## Directives that do not go on -/

/-- What may stand around a path, and the fault when it is not closed. -/
def closings : List (Char × Char × IncludeFault) :=
  [('"', '"', .unclosedQuote), ('<', '>', .unclosedAngle)]

/-- What is written of a directive behind the word `include`, up to a fault. -/
inductive Part : List Char → IncludeFault → Prop
  | blanks {between : List Char} (hbetween : ∀ c ∈ between, Text.isBlank c = true) :
      Part between .missingDelimiter
  | path {between path : List Char} {opening closing : Char} {fault : IncludeFault}
      (hbetween : ∀ c ∈ between, Text.isBlank c = true)
      (hclosing : (opening, closing, fault) ∈ closings)
      (hpath : ∀ c ∈ path, (c != closing && c != '\n') = true) :
      Part (between ++ opening :: path) fault

/-- The character brings the fault about. -/
def Halts (c : Char) : IncludeFault → Prop
  | .missingDelimiter => Text.isBlank c = false ∧ c ≠ '"' ∧ c ≠ '<'
  | _ => c = '\n'

/-- The failure with a fault at the place that was reached. -/
def failAt (fault : IncludeFault) (p : Place) : Failure :=
  fail fault p.offset p

theorem closePath_eq_error_iff {closing : Char} {fault : IncludeFault} {s : List Char} {p : Place}
    {e : Failure} (hclosing : closing ≠ '\n') :
    closePath closing fault s p = .error e ↔ ∃ path more, s = path ++ more ∧
      (∀ c ∈ path, (c != closing && c != '\n') = true) ∧ (∀ c ∈ more.head?, c = '\n') ∧
      e = failAt fault (p.after path) := by
  constructor
  · intro h
    refine ⟨s.takeWhile fun c => c != closing && c != '\n',
      s.dropWhile fun c => c != closing && c != '\n', List.takeWhile_append_dropWhile.symm,
      fun c hc => List.mem_takeWhile_imp (p := fun c => c != closing && c != '\n') hc, ?_, ?_⟩
    · intro c hc
      have hhead := List.head?_dropWhile_not (fun c => c != closing && c != '\n') s
      rw [Option.mem_def.1 hc] at hhead
      obtain ⟨tail, htail⟩ := List.head?_eq_some_iff.1 (Option.mem_def.1 hc)
      unfold closePath at h
      simp only [htail] at h
      split at h
      · cases h
      next hne => simpa [hne] using hhead
    · unfold closePath at h
      simp only at h
      split at h
      · split at h <;> cases h
        rfl
      · cases h
        rfl
  · rintro ⟨path, more, rfl, hpath, hmore, rfl⟩
    have hend : ∀ c ∈ more.head?, (c != closing && c != '\n') = false := by
      intro c hc
      simp [hmore c hc]
    unfold closePath
    simp only [Text.takeWhile_append_of_head hpath hend, Text.dropWhile_append_of_head hpath hend]
    cases more with
    | nil => rfl
    | cons c more =>
      rw [hmore c rfl]
      simp only [if_neg hclosing.symm]
      rfl

section

variable {between : List Char} (hbetween : ∀ c ∈ between, Text.isBlank c = true)
include hbetween

/-- Behind an opening delimiter the path is read up to the closing one. -/
theorem path?_of_opening {opening closing : Char} {fault : IncludeFault}
    (hclosing : (opening, closing, fault) ∈ closings) (body : List Char) (p : Place) :
    path? (between ++ opening :: body) p =
      (closePath closing fault body (p.after (between ++ [opening]))).map fun (path, rest) =>
        (between ++ opening :: path ++ [closing], path, rest) := by
  have hopening : ∀ d ∈ (opening :: body).head?, Text.isBlank d = false := by
    rintro d ⟨⟩
    rcases List.mem_pair.1 hclosing with h | h <;> cases h <;> rfl
  unfold path?
  simp only [Text.takeWhile_append_of_head hbetween hopening,
    Text.dropWhile_append_of_head hbetween hopening, Place.after_append]
  rcases List.mem_pair.1 hclosing with h | h <;> cases h <;> rfl

/-- Without an opening delimiter nothing is read. -/
theorem path?_of_halts {more : List Char} (hmore : ∀ c ∈ more.head?, Halts c .missingDelimiter)
    (p : Place) :
    path? (between ++ more) p = .error (failAt .missingDelimiter (p.after between)) := by
  have hhead : ∀ d ∈ more.head?, Text.isBlank d = false := fun d hd => (hmore d hd).1
  unfold path?
  simp only [Text.takeWhile_append_of_head hbetween hhead,
    Text.dropWhile_append_of_head hbetween hhead]
  split
  · exact absurd rfl (hmore '"' rfl).2.1
  · exact absurd rfl (hmore '<' rfl).2.2
  · rfl

end

/-- Behind blanks there is an opening delimiter, or something that cannot stand there. -/
theorem exists_blanks (s : List Char) : ∃ between more, s = between ++ more ∧
    (∀ c ∈ between, Text.isBlank c = true) ∧
    ((∃ opening closing fault body, (opening, closing, fault) ∈ closings ∧
        more = opening :: body) ∨ ∀ c ∈ more.head?, Halts c .missingDelimiter) := by
  refine ⟨s.takeWhile Text.isBlank, s.dropWhile Text.isBlank,
    List.takeWhile_append_dropWhile.symm, fun c hc => List.mem_takeWhile_imp hc, ?_⟩
  have hhead := List.head?_dropWhile_not Text.isBlank s
  rcases hmore : s.dropWhile Text.isBlank with _ | ⟨c, body⟩
  · exact .inr (by simp)
  · rw [hmore] at hhead
    by_cases hquote : c = '"'
    · exact .inl ⟨c, '"', .unclosedQuote, body, by simp [closings, hquote], rfl⟩
    by_cases hangle : c = '<'
    · exact .inl ⟨c, '>', .unclosedAngle, body, by simp [closings, hangle], rfl⟩
    refine .inr fun d hd => ?_
    cases hd
    exact ⟨by simpa using hhead, hquote, hangle⟩

theorem closing_ne_newline {opening closing : Char} {fault : IncludeFault}
    (h : (opening, closing, fault) ∈ closings) : closing ≠ '\n' := by
  rcases List.mem_pair.1 h with h | h <;> cases h <;> decide

theorem halts_iff_of_closings {opening closing c : Char} {fault : IncludeFault}
    (h : (opening, closing, fault) ∈ closings) : Halts c fault ↔ c = '\n' := by
  rcases List.mem_pair.1 h with h | h <;> cases h <;> rfl

/-- A path cannot be read exactly where a part of a directive is followed by a character that brings
its fault about, or by nothing. -/
theorem path?_eq_error_iff {s : List Char} {p : Place} {e : Failure} :
    path? s p = .error e ↔ ∃ part more fault, s = part ++ more ∧ Part part fault ∧
      (∀ c ∈ more.head?, Halts c fault) ∧ e = failAt fault (p.after part) := by
  constructor
  · intro h
    obtain ⟨between, more, rfl, hbetween, hmore⟩ := exists_blanks s
    rcases hmore with ⟨opening, closing, fault, body, hclosing, rfl⟩ | hmore
    · rw [path?_of_opening hbetween hclosing, map_eq_error_iff] at h
      obtain ⟨path, more, rfl, hpath, hmore, rfl⟩ :=
        (closePath_eq_error_iff (closing_ne_newline hclosing)).1 h
      refine ⟨between ++ opening :: path, more, fault, by simp, .path hbetween hclosing hpath,
        fun c hc => (halts_iff_of_closings hclosing).2 (hmore c hc), ?_⟩
      rw [← Place.after_append, List.append_assoc]
      rfl
    · rw [path?_of_halts hbetween hmore] at h
      cases h
      exact ⟨between, more, _, rfl, .blanks hbetween, hmore, rfl⟩
  · rintro ⟨part, more, fault, rfl, hpart, hmore, rfl⟩
    cases hpart with
    | blanks hbetween => exact path?_of_halts hbetween hmore p
    | @path between path opening closing fault hbetween hclosing hpath =>
      rw [List.append_assoc, List.cons_append, path?_of_opening hbetween hclosing,
        map_eq_error_iff]
      refine (closePath_eq_error_iff (closing_ne_newline hclosing)).2 ⟨path, more, rfl, hpath,
        fun c hc => (halts_iff_of_closings hclosing).1 (hmore c hc), ?_⟩
      rw [← Place.after_append, List.append_assoc]
      rfl

/-! ## How far a directive goes -/

/-- A directive can begin with the text. -/
def Begins (s : List Char) : Prop :=
  ∃ ending path, Spelled (s ++ ending) path

/-- The text is all that stands there of a directive: one can begin with it, it is none by itself,
and with the next character none can begin. -/
structure Stuck (begun more : List Char) : Prop where
  begins : Begins begun
  unfinished : ∀ path, ¬ Spelled begun path
  stops : ∀ c ∈ more.head?, ¬ Begins (begun ++ [c])

/-- What is written of a directive, up to a fault. -/
def Begun (begun : List Char) (fault : IncludeFault) : Prop :=
  ∃ blanks part, (∀ c ∈ blanks, Text.isBlank c = true) ∧ Part part fault ∧
    begun = '#' :: (blanks ++ "include".toList) ++ part

theorem Part.exists_spelled {part : List Char} {fault : IncludeFault} (h : Part part fault)
    {blanks : List Char} (hblanks : ∀ c ∈ blanks, Text.isBlank c = true) :
    Begins ('#' :: (blanks ++ "include".toList) ++ part) := by
  cases h with
  | blanks hbetween =>
    exact ⟨['"', '"'], [], blanks, part, '"', '"', hblanks, hbetween, by simp [delimiters],
      by simp, by simp⟩
  | @path between path opening closing fault hbetween hclosing hpath =>
    have hdelims : (opening, closing) ∈ delimiters := by
      rcases List.mem_pair.1 hclosing with h | h <;> cases h <;> simp [delimiters]
    exact ⟨[closing], path, blanks, between, opening, closing, hblanks, hbetween, hdelims, hpath,
      by simp⟩

/-- Behind the word `include` a directive goes on with a path that can be read. -/
theorem Spelled.path?_eq_ok {word t path : List Char} (h : Spelled ('#' :: word ++ t) path)
    (hword : keyword? (word ++ t) = some (word, t)) (p : Place) : path? t p = .ok (t, path, []) := by
  obtain ⟨word', tail, heq, hreads⟩ := h.reads
  obtain ⟨hword', hpath⟩ := hreads [] p
  have happend : word ++ t = word' ++ tail := List.cons.inj heq |>.2
  rw [List.append_nil] at hword' hpath
  rw [List.append_nil, ← happend, hword] at hword'
  cases hword'
  exact hpath

/-- Whether the word `include` ends is seen from the next character. -/
theorem keyword?_of_head {word t t' : List Char} (h : keyword? (word ++ t) = some (word, t))
    (hhead : ∀ c ∈ t'.head?, c ∈ t.head?) : keyword? (word ++ t') = some (word, t') := by
  obtain ⟨blanks, hblanks, hword, -, hnext⟩ := keyword?_eq_some_iff.1 h
  exact keyword?_eq_some_iff.2 ⟨blanks, hblanks, hword, rfl, fun c hc => hnext c (hhead c hc)⟩

theorem Part.stuck {word part more : List Char} {fault : IncludeFault} (h : Part part fault)
    (hword : keyword? (word ++ (part ++ more)) = some (word, part ++ more))
    (hmore : ∀ c ∈ more.head?, Halts c fault) : Stuck ('#' :: word ++ part) more := by
  have hreads : ∀ ending path, (∀ c ∈ ending.head?, c ∈ more.head?) →
      ¬ Spelled ('#' :: word ++ (part ++ ending)) path := by
    intro ending path hhead hspelled
    have hword' : keyword? (word ++ (part ++ ending)) = some (word, part ++ ending) := by
      refine keyword?_of_head hword fun c hc => ?_
      cases part with
      | nil => exact hhead c hc
      | cons d part => exact hc
    have herror : path? (part ++ ending) {} = .error (failAt fault (Place.after {} part)) :=
      path?_eq_error_iff.2 ⟨part, ending, fault, rfl, h, fun c hc => hmore c (hhead c hc), rfl⟩
    cases herror.symm.trans (hspelled.path?_eq_ok hword' {})
  refine ⟨?_, fun path hspelled => ?_, fun c hc hbegins => ?_⟩
  · obtain ⟨blanks, hblanks, rfl, -⟩ := keyword?_eq_some_iff.1 hword
    exact h.exists_spelled hblanks
  · exact hreads [] path (by simp) (by simpa using hspelled)
  · obtain ⟨ending, path, hspelled⟩ := hbegins
    refine hreads (c :: ending) path ?_ (by simpa using hspelled)
    rintro d ⟨⟩
    exact hc

/-! ## Places of failures -/

/-- At the place that was reached the line has begun. -/
theorem failAt_after (fault : IncludeFault) (s : List Char) :
    failAt fault (Place.after {} s) =
      .malformed fault (1 + Text.newlines s) (Text.bytes s - lineStart s + 1) := by
  rw [failAt, Place.after_eq, fail, if_pos (lineStart_le s)]

/-- The line that the scan has reached may begin behind the place where the comment opens. -/
theorem fail_after_append (fault : IncludeFault) (s t : List Char) :
    fail fault (Text.bytes s) (Place.after {} (s ++ t)) =
      if '\n' ∈ t then .crashed .subOverflow
      else .malformed fault (1 + Text.newlines s) (Text.bytes s - lineStart s + 1) := by
  rw [Place.after_eq, fail]
  by_cases h : '\n' ∈ t
  · rw [if_pos h, if_neg (Nat.not_le.2 (lt_lineStart_append h s))]
  · rw [if_neg h, if_pos]
    · simp only [lineStart_append h, Text.newlines_append, Text.newlines_eq_zero h, Nat.add_zero]
    · simp only [lineStart_append h, lineStart_le]

/-- The scan fails at one of its stops, behind `before`. -/
inductive Fails (before : List Char) : List Char → Failure → Prop
  | comment {body : List Char} (hbody : Text.closeComment body = none) :
      Fails before ('/' :: '*' :: body) (fail .unclosedComment (Text.bytes before)
        (Place.after {} (before ++ '/' :: '*' :: body.dropLast)))
  | directive {word part more : List Char} {fault : IncludeFault}
      (hword : keyword? (word ++ (part ++ more)) = some (word, part ++ more))
      (hpart : Part part fault) (hmore : ∀ c ∈ more.head?, Halts c fault) :
      Fails before ('#' :: (word ++ (part ++ more)))
        (failAt fault (Place.after {} (before ++ ('#' :: word ++ part))))

/-- A scan that fails goes on step by step up to a stop where it does. -/
theorem exists_fails {source before s : List Char} {p : Place} {e : Failure} {ds : List Directive}
    (h : scanFrom s p = .error e) (hreach : Reaches source before s ds)
    (hp : p = Place.after {} before) :
    ∃ before' rest ds', Reaches source before' rest ds' ∧ Fails before' rest e := by
  fun_induction scanFrom s p generalizing before ds with
  | case1 => cases h
  | case2 p rest comment =>
    rename_i ih
    have hrest : scanFrom (Text.restOfLine rest).2 (p.after comment) = .error e :=
      bind_pure_eq_error_iff.1 h
    have hstop : Reaches source (before ++ comment) (Text.restOfLine rest).2 ds := by
      refine .pass ?_ (passed_restOfLine rest)
      rwa [List.cons_append, List.cons_append, Text.restOfLine_append]
    exact ih hrest hstop (by rw [hp, Place.after_append])
  | case3 p rest body rest' hclose comment =>
    rename_i ih
    have hrest : scanFrom rest' (p.after comment) = .error e :=
      bind_pure_eq_error_iff.1 h
    obtain rfl := Text.closeComment_append hclose
    exact ih hrest (.pass hreach (.blockComment hclose)) (by rw [hp, Place.after_append])
  | case4 p rest hclose =>
    cases h
    refine ⟨before, _, ds, hreach, ?_⟩
    have hoffset : p.offset = Text.bytes before := by rw [hp, Place.after_eq]
    have hfails : Fails before _ _ := .comment hclose
    rwa [Place.after_append, ← hp, ← hoffset] at hfails
  | case5 p rest word rest' hword e' hpath =>
    cases h
    obtain ⟨part, more, fault, rfl, hpart, hmore, rfl⟩ := path?_eq_error_iff.1 hpath
    obtain rfl := keyword?_append hword
    refine ⟨before, _, ds, hreach, ?_⟩
    have hfails : Fails before _ _ := .directive hword hpart hmore
    rwa [Place.after_append, Place.after_append, ← hp] at hfails
  | case6 p rest word rest' hword tail path rest'' hpath =>
    rename_i span q ih
    have hrest : scanFrom rest'' q = .error e :=
      bind_pure_eq_error_iff.1 h
    obtain ⟨hspan, rfl⟩ := spelled_of_reads hword hpath
    exact ih hrest (.directive hreach hspan) (by rw [Place.after_append, ← hp])
  | case7 p rest hword ih =>
    have hrest : scanFrom rest (p.next '#') = .error e :=
      bind_pure_eq_error_iff.1 h
    exact ih hrest (.pass hreach (.hash hword)) (by rw [hp, Place.after_append]; rfl)
  | case8 p c rest hline hblock hhash ih =>
    have hrest : scanFrom rest (p.next c) = .error e :=
      bind_pure_eq_error_iff.1 h
    have hpassed := passed_singleton hhash hline hblock
    exact ih hrest (.pass hreach hpassed) (by rw [hp, Place.after_append]; rfl)

/-- A scan of the text in front of a stop, and of some of what follows, goes through that stop, if
the part does not end in a name. -/
theorem Reaches.scanned {source before rest rest' t : List Char} {ds : List Directive} {a : Cuts}
    (h : Reaches source before rest ds) (hrest : rest = rest' ++ t)
    (ht : ∀ c ∈ t.head?, Text.isNameChar c = false)
    (ha : Scanned rest' (Place.after {} before) a) :
    ∃ b, Scanned (before ++ rest') {} b ∧
      b.cuts.map Cut.directive = ds ++ a.cuts.map Cut.directive := by
  induction h generalizing rest' a with
  | start => exact ⟨a, ha, rfl⟩
  | pass _ hs ih =>
    subst hrest
    rw [Place.after_append] at ha
    obtain ⟨b, hb, hds⟩ := ih (List.append_assoc ..).symm (.pass (hs.of_append ht) ha)
    rw [Cuts.directives_prepend] at hds
    exact ⟨b, by rwa [List.append_assoc], hds⟩
  | @directive before span path rest ds _ hspan ih =>
    subst hrest
    rw [Place.after_append] at ha
    obtain ⟨b, hb, hds⟩ := ih (List.append_assoc ..).symm (.directive hspan ha)
    rw [Cuts.cons, List.map_cons, directive_at] at hds
    exact ⟨b, by rwa [List.append_assoc], by rw [hds, List.append_assoc]; rfl⟩

/-- In front of a stop stand the directives that were found. -/
theorem Reaches.find_eq {source before rest : List Char} {ds : List Directive}
    (h : Reaches source before rest ds) (hrest : ∀ c ∈ rest.head?, Text.isNameChar c = false) :
    find (String.ofList before) = .ok ds := by
  obtain ⟨b, hb, hds⟩ := h.scanned (List.nil_append rest).symm hrest .done
  rw [List.append_nil] at hb
  rw [List.map_nil, List.append_nil] at hds
  refine bind_eq_ok_iff.2 ⟨b, ?_, pure_eq_ok_iff.2 hds⟩
  rw [String.toList_ofList]
  exact scanFrom_eq_ok_iff.2 hb

/-- The failure of a source comes from a place in it, behind `before` and the directives there. -/
inductive Points (source : List Char) : Failure → Prop
  /-- A comment opens there and is never closed. -/
  | comment {before body : List Char} {ds : List Directive}
      (hsource : source = before ++ '/' :: '*' :: body)
      (hds : find (String.ofList before) = .ok ds) (hopens : Opens source ds before.length)
      (hbody : ¬ ['*', '/'] <:+: body) :
      Points source
        (if '\n' ∈ body.dropLast then .crashed .subOverflow
        else .malformed .unclosedComment (1 + Text.newlines before)
          (Text.bytes before - lineStart before + 1))
  /-- A directive begins there and goes no further than `begun`. -/
  | directive {before begun more : List Char} {ds : List Directive} {fault : IncludeFault}
      (hsource : source = before ++ begun ++ more) (hds : find (String.ofList before) = .ok ds)
      (hout : ¬ InComment source ds before.length) (hbegins : Introduces (begun ++ more))
      (hbegun : Begun begun fault) (hstuck : Stuck begun more) :
      Points source
        (.malformed fault (1 + Text.newlines (before ++ begun))
          (Text.bytes (before ++ begun) - lineStart (before ++ begun) + 1))

theorem Fails.points {source before rest : List Char} {ds : List Directive} {e : Failure}
    (h : Fails before rest e) (hreach : Reaches source before rest ds) : Points source e := by
  cases h with
  | @comment body hbody =>
    have hcomment : comment? (source.drop before.length) = some ('/' :: '*' :: body) := by
      rw [hreach.drop_length, comment?, hbody]
      rfl
    have hlines : ('\n' ∈ '/' :: '*' :: body.dropLast) = ('\n' ∈ body.dropLast) := by simp
    rw [fail_after_append]
    simp only [hlines]
    refine .comment hreach.append_eq.symm (hreach.find_eq ?_) (hreach.level.opens hcomment)
      (Text.closeComment_eq_none_iff.1 hbody)
    rintro c ⟨⟩
    rfl
  | @directive word part more fault hword hpart hmore =>
    have hout : ¬ InComment source ds before.length := by
      intro hin
      have hsome := (opens_iff.1 (hreach.level.inComment_iff.1 hin)).1
      rw [hreach.drop_length, comment?_eq_none (by decide)] at hsome
      cases hsome
    have hsource : source = before ++ ('#' :: word ++ part) ++ more := by
      rw [← hreach.append_eq]
      simp
    have hbegins : Introduces ('#' :: word ++ part ++ more) :=
      introduces_iff.2 ⟨word, part ++ more, by simp, hword⟩
    have hbegun : Begun ('#' :: word ++ part) fault := by
      obtain ⟨blanks, hblanks, rfl, -⟩ := keyword?_eq_some_iff.1 hword
      exact ⟨blanks, part, hblanks, hpart, rfl⟩
    rw [failAt_after]
    refine .directive hsource (hreach.find_eq ?_) hout hbegins hbegun (hpart.stuck hword hmore)
    rintro c ⟨⟩
    rfl

/-- A scan that fails points at the comment that is not closed, unless a line ends in it, or at the
first character that a directive cannot go on with. -/
theorem find_error (source : String) (e : Failure) (h : find source = .error e) :
    Points source.toList e := by
  have hscan : scanFrom source.toList {} = .error e :=
    bind_pure_eq_error_iff.1 h
  obtain ⟨before, rest, ds, hreach, hfails⟩ := exists_fails hscan .start rfl
  exact hfails.points hreach

/-- The path of the second directive ends with its line. -/
theorem find_error_unclosed :
    let source := "#include \"ä\" /*\n*/ #\tinclude <a\n>"
    find source = .error (.malformed .unclosedAngle 2 16) ∧
      Points source.toList (.malformed .unclosedAngle 2 16) := by
  intro source
  have hscan : find source = .error (.malformed .unclosedAngle 2 16) := by
    decide +kernel
  exact ⟨hscan, find_error source _ hscan⟩

/-- No place is reported for a comment that goes over the end of a line. -/
theorem find_error_crashed : find "/*\n\n" = .error (.crashed .subOverflow) := by
  decide +kernel

end ShaderBind.Source.Include
