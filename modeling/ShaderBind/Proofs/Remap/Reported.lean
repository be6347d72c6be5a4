import ShaderBind.Proofs.Layout.Insertion
import ShaderBind.Proofs.Text.Border
import ShaderBind.Proofs.Text.Decimal
import ShaderBind.Remap.Reported

/-!
# Reported bindings are judged one by one

A report names a slot of an entry of the layout: the entry by the name that is left without its
subscript, the slot by an index in that name and by the subscript together (`Remapper.RefersTo`).
What is said of the report follows from that slot, as a natural number, and from the place of the
report (`Judged`). Of several reports the first that is refused counts, and if none is, the number
of those that do not agree (`Verdict`).

One sum is not safe. An index and a subscript are words each, but their sum need not be one, and
then the report is not refused as out of range but brings the run down (`Remapper.Overflows`). No
other sum can (`verifyReported_judged`).
-/

namespace ShaderBind

/-! ## Names with a subscript -/

theorem splitLastBracket?_eq_some_iff {s before after : List Char} :
    splitLastBracket? s = some (before, after) ↔ s = before ++ '[' :: after ∧ '[' ∉ after := by
  unfold splitLastBracket?
  constructor
  · intro h
    split at h
    next c front hdrop =>
      cases h
      have hbracket : c = '[' := by
        have := List.head?_dropWhile_not (· != '[') s.reverse
        simpa [hdrop] using this
      have hcut := List.takeWhile_append_dropWhile (p := (· != '[')) (l := s.reverse)
      rw [hdrop, hbracket] at hcut
      refine ⟨by simpa using (congrArg List.reverse hcut).symm, fun hmem => ?_⟩
      simpa using List.mem_takeWhile_imp (List.mem_reverse.1 hmem)
    next => cases h
  · rintro ⟨rfl, hafter⟩
    have hrest : ∀ c ∈ after.reverse, (c != '[') = true := by
      intro c hc
      rw [bne_iff_ne]
      rintro rfl
      exact hafter (List.mem_reverse.1 hc)
    have hreverse : (before ++ '[' :: after).reverse = after.reverse ++ '[' :: before.reverse := by
      simp
    rw [hreverse, Text.takeWhile_append_of_head hrest (by simp),
      Text.dropWhile_append_of_head hrest (by simp)]
    simp

/-- The name is `base` and behind it, in brackets, a number that is the word `n`. -/
def Subscripted (name base : String) (n : UInt32) : Prop :=
  ∃ digits, name.toList = base.toList ++ '[' :: digits ++ [']'] ∧ Text.readWord? digits = some n

/-- What a reported name stands for: a name of the layout and a slot behind the first that it has,
which is 0 if nothing is said. -/
inductive NamesSlot (name : String) : String → UInt32 → Prop
  | subscripted {base : String} {n : UInt32} (h : Subscripted name base n) : NamesSlot name base n
  | whole (h : ∀ base n, ¬ Subscripted name base n) : NamesSlot name name 0

theorem splitSubscript_eq_some_iff {name base : String} {n : UInt32} :
    splitSubscript name = (base, some n) ↔ Subscripted name base n := by
  constructor
  · intro h
    unfold splitSubscript at h
    split at h
    · cases h
    next inner hinner =>
      split at h
      · cases h
      next before digits hsplit =>
        split at h
        next hread =>
          cases h
          rw [Text.dropSuffix?_eq_some_iff] at hinner
          obtain ⟨rfl, -⟩ := splitLastBracket?_eq_some_iff.1 hsplit
          exact ⟨digits, by rw [hinner, String.toList_ofList], hread⟩
        next => cases h
  · rintro ⟨digits, hname, hread⟩
    have hdigits : '[' ∉ digits := by
      intro hmem
      rcases Text.mem_of_readWord? hread hmem with hdigit | hplus
      · exact absurd hdigit (by decide)
      · exact absurd hplus (by decide)
    have hinner := Text.dropSuffix?_eq_some_iff.2 hname
    have hsplit := splitLastBracket?_eq_some_iff.2
      ⟨show base.toList ++ '[' :: digits = _ from rfl, hdigits⟩
    simp only [splitSubscript, hinner, hsplit, hread, String.ofList_toList]

/-- Without a subscript the name stays whole. -/
theorem splitSubscript_of_eq_none {name : String} (h : (splitSubscript name).2 = none) :
    (splitSubscript name).1 = name := by
  unfold splitSubscript at h ⊢
  split
  · rfl
  next inner hinner =>
    split
    · rfl
    next before digits hsplit =>
      split
      next hread => simp [hinner, hsplit, hread] at h
      next => rfl

theorem namesSlot_iff {name base : String} {n : UInt32} :
    NamesSlot name base n ↔
      (splitSubscript name).1 = base ∧ (splitSubscript name).2.getD 0 = n := by
  constructor
  · rintro (hsub | hwhole)
    · rw [splitSubscript_eq_some_iff.2 hsub]
      exact ⟨rfl, rfl⟩
    · have hnone : (splitSubscript name).2 = none :=
        Option.eq_none_iff_forall_ne_some.2 fun n hn =>
          hwhole _ n (splitSubscript_eq_some_iff.1 (Prod.ext rfl hn))
      exact ⟨splitSubscript_of_eq_none hnone, by rw [hnone, Option.getD_none]⟩
  · rintro ⟨rfl, rfl⟩
    cases hsplit : (splitSubscript name).2 with
    | some n => exact .subscripted (splitSubscript_eq_some_iff.1 (Prod.ext rfl hsplit))
    | none =>
      rw [splitSubscript_of_eq_none hsplit]
      refine .whole fun base n hsub => ?_
      rw [splitSubscript_eq_some_iff.2 hsub] at hsplit
      cases hsplit

namespace Remapper

/-! ## One report -/

section

variable (m : Remapper) (shader : String) (b : ReportedBinding)

/-- The report is about an entry of the layout, as the resource that was found, and about the slot
`n` behind that of the resource. -/
def RefersTo (resolved : Mapping.Resolved) (n : UInt32) : Prop :=
  ∃ base, NamesSlot b.name base n ∧
    m.mapping.resolve shader base none m.options.arraySuffix = .ok resolved

/-- The report is about a slot that its entry has, and the layout has that slot at `expected`. -/
def Expects (expected : Coord) : Prop :=
  ∃ resolved n, m.RefersTo shader b resolved n ∧
    resolved.slot.toNat + n.toNat < resolved.entry.arraySize.toNat ∧
    expected.group = resolved.entry.group ∧
    expected.binding.toNat = resolved.entry.binding.toNat + resolved.slot.toNat + n.toNat

/-- The slot that the report is about is no word. -/
def Overflows : Prop :=
  ∃ resolved n, m.RefersTo shader b resolved n ∧
    UInt32.size ≤ resolved.slot.toNat + n.toNat

/-- What is said of a report: that it agrees or does not, or what ends the run with it. -/
inductive Judged : Except Stop Bool → Prop
  | unresolved {base : String} {n : UInt32} {e : ShaderError} (hname : NamesSlot b.name base n)
      (h : m.mapping.resolve shader base none m.options.arraySuffix = .error e) :
      Judged (.error (.failed e))
  | overflows (h : m.Overflows shader b) : Judged (.error (.crashed .addOverflow))
  | outside {resolved : Mapping.Resolved} {n : UInt32} (h : m.RefersTo shader b resolved n)
      (hend : resolved.entry.arraySize.toNat ≤ resolved.slot.toNat + n.toNat)
      (hword : resolved.slot.toNat + n.toNat < UInt32.size) :
      Judged (.error (.failed
        (.arrayIndexOutOfRange shader b.name resolved.key n resolved.entry.arraySize)))
  | agrees (h : m.Expects shader b b.place) : Judged (.ok true)
  | refused {expected : Coord} (h : m.Expects shader b expected) (hne : expected ≠ b.place)
      (hseverity : m.options.severity = .error) :
      Judged (.error (.failed (.bindingMismatch shader b.name expected b.place)))
  | counted {expected : Coord} (h : m.Expects shader b expected) (hne : expected ≠ b.place)
      (hseverity : m.options.severity = .warn) : Judged (.ok false)

end

variable {m : Remapper} {shader : String} {b : ReportedBinding}

theorem refersTo_iff {resolved : Mapping.Resolved} {n : UInt32} :
    m.RefersTo shader b resolved n ↔
      m.mapping.resolve shader (splitSubscript b.name).1 none m.options.arraySuffix =
          .ok resolved ∧
        (splitSubscript b.name).2.getD 0 = n := by
  constructor
  · rintro ⟨base, hname, hresolve⟩
    obtain ⟨rfl, rfl⟩ := namesSlot_iff.1 hname
    exact ⟨hresolve, rfl⟩
  · rintro ⟨hresolve, rfl⟩
    exact ⟨_, namesSlot_iff.2 ⟨rfl, rfl⟩, hresolve⟩

/-- The steps that follow once the entry of a report is found. -/
theorem verifyOne_of_refersTo {resolved : Mapping.Resolved} {n : UInt32} {base : Coord}
    {r : Except Stop Bool} (href : m.RefersTo shader b resolved n)
    (hplace : resolved.place = .ok base)
    (h : (do
      let last ← Noted.ofStop (Stop.ofCrash (addWords resolved.slot n))
      if resolved.entry.arraySize ≤ last then
        Noted.fail (.arrayIndexOutOfRange shader b.name resolved.key n resolved.entry.arraySize)
      else
        let binding ← Noted.ofStop (Stop.ofCrash (addWords base.binding n))
        m.check shader b.name ⟨base.group, binding⟩ b.place : Noted Bool).Ends r) :
    (m.verifyOne shader b).Ends r := by
  obtain ⟨hresolve, rfl⟩ := refersTo_iff.1 href
  have hfound : (Noted.ofError (m.mapping.resolve shader (splitSubscript b.name).1 none
      m.options.arraySuffix)).Ends (.ok resolved) := by
    rw [hresolve]
    exact Noted.ends_ofStop _
  have hbase : (Noted.ofStop (Stop.ofCrash resolved.place)).Ends (.ok base) := by
    rw [hplace]
    exact Noted.ends_ofStop _
  exact hfound.bind (hbase.bind h)

theorem check_ends (m : Remapper) (shader resource : String) (expected actual : Coord) :
    (m.check shader resource expected actual).Ends
      (if expected = actual then .ok true
      else match m.options.severity with
        | .error => .error (.failed (.bindingMismatch shader resource expected actual))
        | .warn => .ok false) := by
  unfold check
  split
  · exact Noted.ends_pure true
  · cases m.options.severity with
    | error => exact Noted.ends_fail _
    | warn => exact (Noted.ends_warn _).bind (Noted.ends_pure false)

/-- A report of a slot that its entry has is compared with the place of the slot. No sum on the way
leaves the words, since the entry ends at the last binding or before. -/
theorem Expects.verifyOne_ends (hm : m.mapping.Inserted) {expected : Coord}
    (h : m.Expects shader b expected) {r : Except Stop Bool}
    (hcheck : (m.check shader b.name expected b.place).Ends r) : (m.verifyOne shader b).Ends r := by
  obtain ⟨resolved, n, href, hlt, hgroup, hbinding⟩ := h
  obtain ⟨name, -, hresolve⟩ := id href
  obtain ⟨base, hplace, hbase, hfirst⟩ := hm.exists_place hresolve
  have hsize := resolved.entry.arraySize.toNat_lt
  obtain ⟨last, hlast⟩ := exists_addWords_iff.2
    (show resolved.slot.toNat + n.toNat < UInt32.size from Nat.lt_trans hlt hsize)
  have hin : ¬ resolved.entry.arraySize ≤ last := by
    rw [UInt32.le_iff_toNat_le, ← addWords_eq_ok_iff.1 hlast]
    omega
  have hsum : addWords base.binding n = .ok expected.binding := by
    rw [addWords_eq_ok_iff, hfirst, hbinding]
  refine verifyOne_of_refersTo href hplace ?_
  rw [hlast, hsum, hbase, ← hgroup]
  refine (Noted.ends_ofStop _).bind ?_
  rw [if_neg hin]
  exact (Noted.ends_ofStop _).bind hcheck

/-- What is said of a report is how the step with it ends. -/
theorem Judged.verifyOne_ends (hm : m.mapping.Inserted) {r : Except Stop Bool}
    (h : m.Judged shader b r) : (m.verifyOne shader b).Ends r := by
  cases h with
  | @unresolved _ _ e hname h =>
    obtain ⟨rfl, -⟩ := namesSlot_iff.1 hname
    have hmissing : (Noted.ofError (m.mapping.resolve shader (splitSubscript b.name).1 none
        m.options.arraySuffix)).Ends (.error (.failed e)) := by
      rw [h]
      exact Noted.ends_ofStop _
    exact hmissing.bind_error
  | overflows h =>
    obtain ⟨resolved, n, href, hover⟩ := h
    obtain ⟨name, -, hresolve⟩ := id href
    obtain ⟨base, hplace, -⟩ := hm.exists_place hresolve
    have hsum : addWords resolved.slot n = .error .addOverflow := by
      rw [addWords, if_neg (Nat.not_lt.2 hover)]
    refine verifyOne_of_refersTo href hplace ?_
    rw [hsum]
    exact (Noted.ends_ofStop (.error (.crashed .addOverflow))).bind_error
  | outside href hend hword =>
    obtain ⟨name, -, hresolve⟩ := id href
    obtain ⟨base, hplace, -⟩ := hm.exists_place hresolve
    obtain ⟨last, hlast⟩ := exists_addWords_iff.2 hword
    refine verifyOne_of_refersTo href hplace ?_
    rw [hlast]
    refine (Noted.ends_ofStop _).bind ?_
    rw [if_pos (by rwa [UInt32.le_iff_toNat_le, ← addWords_eq_ok_iff.1 hlast])]
    exact Noted.ends_fail _
  | agrees h =>
    have hcheck := check_ends m shader b.name b.place b.place
    rw [if_pos rfl] at hcheck
    exact h.verifyOne_ends hm hcheck
  | @refused expected h hne hseverity =>
    have hcheck := check_ends m shader b.name expected b.place
    rw [if_neg hne, hseverity] at hcheck
    exact h.verifyOne_ends hm hcheck
  | @counted expected h hne hseverity =>
    have hcheck := check_ends m shader b.name expected b.place
    rw [if_neg hne, hseverity] at hcheck
    exact h.verifyOne_ends hm hcheck

/-- Something is said of every report. -/
theorem exists_judged (hm : m.mapping.Inserted) (shader : String) (b : ReportedBinding) :
    ∃ r, m.Judged shader b r := by
  cases hresolve : m.mapping.resolve shader (splitSubscript b.name).1 none
      m.options.arraySuffix with
  | error e => exact ⟨_, .unresolved (namesSlot_iff.2 ⟨rfl, rfl⟩) hresolve⟩
  | ok resolved =>
    have href := refersTo_iff.2 ⟨hresolve, rfl⟩
    generalize (splitSubscript b.name).2.getD 0 = n at href
    by_cases hword : UInt32.size ≤ resolved.slot.toNat + n.toNat
    · exact ⟨_, .overflows ⟨resolved, n, href, hword⟩⟩
    rw [Nat.not_le] at hword
    by_cases hend : resolved.entry.arraySize.toNat ≤ resolved.slot.toNat + n.toNat
    · exact ⟨_, .outside href hend hword⟩
    -- the slot is one of the entry's, so that it has a binding
    have hlast := (hm.inRange_of_resolve hresolve).end_le
    have hbinding : resolved.entry.binding.toNat + resolved.slot.toNat + n.toNat < UInt32.size := by
      omega
    have hexpects : m.Expects shader b ⟨resolved.entry.group,
        UInt32.ofNat (resolved.entry.binding.toNat + resolved.slot.toNat + n.toNat)⟩ :=
      ⟨resolved, n, href, Nat.not_le.1 hend, rfl, UInt32.toNat_ofNat_of_lt' hbinding⟩
    generalize (⟨_, _⟩ : Coord) = expected at hexpects
    by_cases hagrees : expected = b.place
    · exact ⟨_, .agrees (hagrees ▸ hexpects)⟩
    cases hseverity : m.options.severity with
    | error => exact ⟨_, .refused hexpects hagrees hseverity⟩
    | warn => exact ⟨_, .counted hexpects hagrees hseverity⟩

/-! ## All reports -/

/-- What is said of reports in turn: how many do not agree, if none ends the run, and else what the
first says that does. -/
inductive Verdict (m : Remapper) (shader : String) :
    List ReportedBinding → Except Stop Nat → Prop
  | counted {reports : List ReportedBinding} {agreements : List Bool}
      (h : List.Forall₂ (fun b agrees => m.Judged shader b (.ok agrees)) reports agreements) :
      Verdict m shader reports (.ok (agreements.count false))
  | stopped {before after : List ReportedBinding} {b : ReportedBinding} {s : Stop}
      (hbefore : ∀ c ∈ before, ∃ agrees, m.Judged shader c (.ok agrees))
      (h : m.Judged shader b (.error s)) : Verdict m shader (before ++ b :: after) (.error s)

theorem Verdict.verifyReported_ends (hm : m.mapping.Inserted) {reports : List ReportedBinding}
    {r : Except Stop Nat} (h : m.Verdict shader reports r) :
    (m.verifyReported shader reports).Ends r := by
  cases h with
  | counted h =>
    induction h with
    | nil => exact Noted.ends_pure 0
    | @cons b agrees reports agreements hb _ ih =>
      have hcount : (agrees :: agreements).count false =
          (if agrees then 0 else 1) + agreements.count false := by
        cases agrees <;> simp [Nat.add_comm]
      rw [hcount]
      exact (hb.verifyOne_ends hm).bind (ih.bind (Noted.ends_pure _))
  | @stopped before after b s hbefore h =>
    induction before with
    | nil => exact (h.verifyOne_ends hm).bind_error
    | cons c before ih =>
      obtain ⟨⟨agrees, hc⟩, hbefore⟩ := List.forall_mem_cons.1 hbefore
      exact (hc.verifyOne_ends hm).bind (ih hbefore).bind_error

theorem exists_verdict (hm : m.mapping.Inserted) (shader : String)
    (reports : List ReportedBinding) : ∃ r, m.Verdict shader reports r := by
  induction reports with
  | nil => exact ⟨_, .counted .nil⟩
  | cons b reports ih =>
    obtain ⟨s | agrees, hb⟩ := exists_judged hm shader b
    · exact ⟨.error s, @Verdict.stopped m shader [] reports b s (by simp) hb⟩
    obtain ⟨_, hrest⟩ := ih
    cases hrest with
    | counted h => exact ⟨_, .counted (.cons hb h)⟩
    | @stopped before after c s hbefore h =>
      exact ⟨.error s, @Verdict.stopped m shader (b :: before) after c s
        (List.forall_mem_cons.2 ⟨⟨agrees, hb⟩, hbefore⟩) h⟩

/-- The run ends as the reports say, and in no other way. -/
theorem outcome_verifyReported_iff (hm : m.mapping.Inserted) {reports : List ReportedBinding}
    {r : Except Stop Nat} :
    (m.verifyReported shader reports).outcome.1 = r ↔ m.Verdict shader reports r := by
  constructor
  · rintro rfl
    obtain ⟨r, h⟩ := exists_verdict hm shader reports
    rwa [(h.verifyReported_ends hm).outcome_eq]
  · exact fun h => (h.verifyReported_ends hm).outcome_eq

theorem verdict_error_iff {reports : List ReportedBinding} {s : Stop} :
    m.Verdict shader reports (.error s) ↔
      ∃ before b after, reports = before ++ b :: after ∧
        (∀ c ∈ before, ∃ agrees, m.Judged shader c (.ok agrees)) ∧
        m.Judged shader b (.error s) := by
  constructor
  · rintro (_ | ⟨hbefore, h⟩)
    exact ⟨_, _, _, rfl, hbefore, h⟩
  · rintro ⟨before, b, after, rfl, hbefore, h⟩
    exact .stopped hbefore h

theorem judged_crashed_iff {c : Crash} :
    m.Judged shader b (.error (.crashed c)) ↔ c = .addOverflow ∧ m.Overflows shader b := by
  constructor
  · rintro (_ | h)
    exact ⟨rfl, h⟩
  · rintro ⟨rfl, h⟩
    exact .overflows h

/-- Only an index in the name takes a subscript beyond the words. -/
theorem not_overflows_of_element_eq_none
    (h : ∀ resolved n, m.RefersTo shader b resolved n → resolved.element = none) :
    ¬ m.Overflows shader b := by
  rintro ⟨resolved, n, href, hover⟩
  rw [Mapping.Resolved.slot_eq_zero (h resolved n href), UInt32.toNat_zero, Nat.zero_add] at hover
  exact Nat.not_lt.2 hover n.toNat_lt

/-- Reports are judged in turn, for a mapping that was put together by insertions. The run ends as
the first report says that ends it, be it that its name is not found, that its slot, counted in
natural numbers, lies past the end of the entry, or that it is elsewhere than expected and this is
an error; and if none ends it the result is the number of reports that are elsewhere. What the run
breaks off with is an overflow, and it does so exactly if the first report that does not pass has an
index in its name and a subscript whose sum is no word. Reports whose names are those of the layout
never lead to that. -/
theorem verifyReported_judged (hm : m.mapping.Inserted) (shader : String)
    (reports : List ReportedBinding) :
    (∀ r, (m.verifyReported shader reports).outcome.1 = r ↔ m.Verdict shader reports r) ∧
      (∀ c, (m.verifyReported shader reports).outcome.1 = .error (.crashed c) ↔
        c = .addOverflow ∧ ∃ before b after, reports = before ++ b :: after ∧
          (∀ c ∈ before, ∃ agrees, m.Judged shader c (.ok agrees)) ∧ m.Overflows shader b) ∧
      ((∀ b ∈ reports, ∀ resolved n, m.RefersTo shader b resolved n → resolved.element = none) →
        ∀ c, (m.verifyReported shader reports).outcome.1 ≠ .error (.crashed c)) := by
  have hcrash : ∀ c, (m.verifyReported shader reports).outcome.1 = .error (.crashed c) ↔
      c = .addOverflow ∧ ∃ before b after, reports = before ++ b :: after ∧
        (∀ c ∈ before, ∃ agrees, m.Judged shader c (.ok agrees)) ∧ m.Overflows shader b := by
    intro c
    rw [outcome_verifyReported_iff hm, verdict_error_iff]
    simp only [judged_crashed_iff, exists_and_left, and_left_comm (b := c = .addOverflow)]
  refine ⟨fun r => outcome_verifyReported_iff hm, hcrash, fun hwhole c h => ?_⟩
  obtain ⟨-, before, b, after, rfl, -, hover⟩ := (hcrash c).1 h
  exact not_overflows_of_element_eq_none (hwhole b (by simp)) hover

/-- A layout with an array of ten slots, whose elements are named with an underscore. -/
def tenSlots (severity : Severity) : Remapper where
  mapping := (Mapping.empty.insert "t" { group := 0, binding := 4, arraySize := 10 }).1
  options := { severity, arraySuffix := some "_" }

/-- Reports of elements of elements, judged in either severity. -/
theorem verifyReported_judged_tenSlots :
    (∀ severity, (tenSlots severity).mapping.Inserted) ∧
      (tenSlots .warn).Verdict "s" [⟨"t_1[2]", ⟨0, 7⟩⟩, ⟨"t[9]", ⟨0, 14⟩⟩] (.ok 1) ∧
      (tenSlots .error).Verdict "s" [⟨"t_1[2]", ⟨0, 7⟩⟩, ⟨"t_8[2]", ⟨0, 14⟩⟩]
        (.error (.failed (.arrayIndexOutOfRange "s" "t_8[2]" "t" 2 10))) := by
  have hinserted : ∀ severity, (tenSlots severity).mapping.Inserted :=
    fun severity => .insert _ _ .empty
  refine ⟨hinserted, ?_, ?_⟩
  · exact ((verifyReported_judged (hinserted .warn) "s" _).1 _).1 (by decide +kernel)
  · exact ((verifyReported_judged (hinserted .error) "s" _).1 _).1 (by decide +kernel)

/-- A slot far past the end of the array is not told to be out of range: the run breaks off. -/
theorem verifyReported_overflow :
    (tenSlots .error).RefersTo "s" ⟨"t_1[4294967295]", ⟨0, 4⟩⟩
        ⟨"t", { group := 0, binding := 4, arraySize := 10 }, some 1⟩ 4294967295 ∧
      (10 : UInt32).toNat ≤ (1 : UInt32).toNat + (4294967295 : UInt32).toNat ∧
      ((tenSlots .error).verifyReported "s" [⟨"t_1[4294967295]", ⟨0, 4⟩⟩]).outcome.1 =
        .error (.crashed .addOverflow) := by
  refine ⟨refersTo_iff.2 ⟨?_, ?_⟩, ?_, ?_⟩
  · decide +kernel
  · decide +kernel
  · decide
  · decide +kernel

end Remapper

end ShaderBind
